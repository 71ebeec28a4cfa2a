import ColonyCache.Simulation.Churn
import ColonyCache.World.Summary
/-! One step of the simulation and what the game systems see through the caches after it. The
asking fills caches, so its order is part of the step. -/
namespace ColonyCache

/-- The counts one step saw. -/
structure StepReport where
  tick : Nat := 0
  things : Nat := 0
  colonists : Nat := 0
  haulables : Nat := 0
  harvestable : Nat := 0
  refuelable : Nat := 0
  milkable : Nat := 0
  bleeding : Nat := 0
  haulingDisabled : Nat := 0
  guests : Nat := 0
  relationsKnown : Nat := 0
  immunizableAilments : Nat := 0
  areaRestricted : Nat := 0
  powered : Nat := 0
  fineItems : Nat := 0
deriving DecidableEq, Repr, Inhabited

def StepReport.toJson (r : StepReport) : Json :=
  .obj [("tick", Json.nat r.tick), ("things", Json.nat r.things),
    ("colonists", Json.nat r.colonists), ("haulables", Json.nat r.haulables),
    ("harvestable", Json.nat r.harvestable), ("refuelable", Json.nat r.refuelable),
    ("milkable", Json.nat r.milkable), ("bleeding", Json.nat r.bleeding),
    ("hauling_disabled", Json.nat r.haulingDisabled), ("guests", Json.nat r.guests),
    ("relations_known", Json.nat r.relationsKnown),
    ("immunizable_ailments", Json.nat r.immunizableAilments),
    ("area_restricted", Json.nat r.areaRestricted), ("powered", Json.nat r.powered),
    ("fine_items", Json.nat r.fineItems)]

/-- Whether a quality counts as fine: good or better. -/
def Quality.isFine (q : Quality) : Bool := Quality.good.rank ≤ q.rank

namespace Simulation

def total {α : Type} (xs : List α) (f : α → Nat) : Nat := xs.foldl (fun n x => n + f x) 0

/-- Asks whether item `t` is fine, or whether building `t` is powered. -/
def inspect (w : World) (acc : StepReport × Session) (t : Thing) : StepReport × Session :=
  let (r, s) := acc
  match t.kind with
  | .item =>
    let (q, c) := s.components.qualityOf t.id w
    let fine := match q with
      | some q => q.isFine
      | none => false
    ({ r with fineItems := r.fineItems + if fine then 1 else 0 }, { s with components := c })
  | .turret | .generator =>
    let (on, c) := s.components.wantsToBeOn t.id w
    let s := { s with components := c }
    if on then
      let (broken, c) := s.components.isBrokenDown t.id w
      ({ r with powered := r.powered + if broken then 0 else 1 }, { s with components := c })
    else (r, s)
  | _ => (r, s)

/-- Asks about colonist `c`: its bleeding, work, standing, area and immunities. -/
def examine (w : World) (acc : StepReport × Session) (c : Thing) : StepReport × Session :=
  let (r, s) := acc
  let (bleeding, cache) := (w.injuriesOf c.id).foldl (fun (n, cache) i =>
    let (b, cache) := cache.isBleeding i
    (n + if b then 1 else 0, cache)) (0, s.bleeding)
  let s := { s with bleeding := cache }
  let (work, cache) := s.workRestrictions.getOrInsert c.id fun _ => w.disabledWork c.id
  let s := { s with workRestrictions := cache }
  let (host, cache) := s.affiliations.getOrInsert c.id .guest fun _ => w.affiliation c.id .guest
  let s := { s with affiliations := cache }
  let (area, s) := s.effectiveAreaRestriction w c.id
  let immune := ((w.ailmentsOf c.id).filter s.immunizable.contains).length
  ({ r with
    bleeding := r.bleeding + bleeding
    haulingDisabled := r.haulingDisabled + if work.contains .hauling then 1 else 0
    guests := r.guests + if host.isSome then 1 else 0
    areaRestricted := r.areaRestricted + if area.isSome then 1 else 0
    immunizableAilments := r.immunizableAilments + immune }, s)

/-- Asks how two colonists are related, filing the world's answer when the cache has none. -/
def acquaint (w : World) (acc : StepReport × Session) (pair : Thing × Thing) :
    StepReport × Session :=
  let (r, s) := acc
  let (a, b) := pair
  let (known, cache) := s.relations.between a.id b.id
  match known with
  | some rs =>
    ({ r with relationsKnown := r.relationsKnown + rs.length }, { s with relations := cache })
  | none =>
    let rs := w.relationsBetween a.id b.id
    ({ r with relationsKnown := r.relationsKnown + rs.length },
      { s with relations := cache.addBetween a b rs })

/-- Asks about map `m`, its things, its colonists and their neighbouring pairs. -/
def survey (w : World) (acc : StepReport × Session) (m : MapId) : StepReport × Session :=
  let (r, s) := acc
  let (summary, cache) := s.mapSummaries.getOrCompute m fun _ => w.summary m
  let s := { s with mapSummaries := cache }
  let r := { r with
    colonists := r.colonists + summary.colonists
    refuelable := r.refuelable + (s.refuelableTurretsOn m).length
      + (s.refuelableNonTurretsOn m).length
    milkable := r.milkable + (s.animalsReadyFor m .milk).length }
  let things := w.thingsOn m
  let acc := things.foldl (inspect w) (r, s)
  if summary.colonists == 0 then acc
  else
    let colonists := things.filter (·.kind.isHumanlike)
    let acc := colonists.foldl (examine w) acc
    (neighbours colonists).foldl (acquaint w) acc

/-- The report of the current tick, with the session after the asking. -/
def report (sim : Simulation) : StepReport × Simulation :=
  let w := sim.world
  let s := sim.session
  let hauling := s.regionCache haulableItems
  let harvest := s.regionCache harvestablePlants
  let r : StepReport := {
    tick := sim.tick
    things := w.thingCount
    haulables := total hauling.scopes fun g => (hauling.itemsIn g).length
    harvestable := total harvest.scopes fun g => (harvest.harvestableCells w g).length }
  let (r, s) := sim.maps.foldl (survey w) (r, s)
  (r, { sim with session := s })

/-- Runs one tick and reports what the caches answered in it. -/
def step (sim : Simulation) : StepReport × Simulation :=
  let sim := { sim.tell Session.tickStarted with tick := sim.tick + 1 }
  let sim := { sim with world := sim.world.ageInjuries 1 }
  let sim := if sim.tick % mapCycleTicks == 0 then sim.cycleMap else sim
  let sim := sim.maps.zipIdx.foldl (fun sim (m, i) =>
    sim.churnMap m (sim.tick.toUInt64 * 7919 + i.toUInt64)) sim
  sim.report

end Simulation

end ColonyCache
