import ColonyCache.Simulation.Seed
import ColonyCache.Session.Basic
/-! A simulation over a small world that feeds a session: maps are loaded and churned each tick,
every change told to the session as the game would tell it. -/
namespace ColonyCache

/-- A simulation: the world, the maps in play in load order, the tick, and the session. -/
structure Simulation where
  world : World := {}
  maps : List MapId := []
  tick : Nat := 0
  session : Session

namespace Simulation

/-- A simulation of an empty world feeding session `s`. -/
def new (s : Session) : Simulation := { session := s }

def tell (sim : Simulation) (f : Session → Session) : Simulation :=
  { sim with session := f sim.session }

/-- Spawns a thing of kind `k` on map `m` at the cell drawn from `seed`. -/
def spawnScattered (sim : Simulation) (m : MapId) (k : ThingKind) (seed : UInt64) :
    Option Thing × Simulation :=
  let (t, w) := sim.world.spawn m k (scatterCell seed)
  (t, { sim with world := w })

/-- Spawns a thing of kind `kindAt n` at the cell drawn from `base + n`, for each `n < count`. -/
def spawnRow (sim : Simulation) (m : MapId) (count : Nat) (kindAt : Nat → ThingKind)
    (base : UInt64) : List Thing × Simulation :=
  (List.range count).foldl (fun (ts, sim) n =>
    let (t, sim) := sim.spawnScattered m (kindAt n) (base + n.toUInt64)
    (ts ++ t.toList, sim)) ([], sim)

/-- The neighbouring pairs of a list, first with second, second with third and so on. -/
def neighbours {α : Type} (xs : List α) : List (α × α) := xs.zip xs.tail

/-- The elements of `xs` at the positions `start`, `start + step`, `start + 2 * step` and on. -/
def every {α : Type} (xs : List α) (start step : Nat) : List α :=
  (xs.zipIdx.filter fun (_, i) => start ≤ i && (i - start) % step == 0).map (·.1)

/-- Sets up the relations, work restrictions, areas and group of a new map's colonists. -/
def settle (sim : Simulation) (colonists : List Thing) : Simulation :=
  let w := (neighbours colonists).foldl (fun w (a, b) => w.relate a.id b.id .sibling) sim.world
  let w := match colonists with
    | a :: b :: _ => w.relate a.id b.id .spouse
    | _ => w
  let w := (every colonists 0 3).foldl (fun w c => w.restrictWork c.id [.hauling]) w
  let w := (every colonists 1 2).foldl (fun w c => w.restrictArea c.id (some (homeArea c.cell))) w
  match colonists.head?, colonists.getLast? with
  | some host, some guest =>
    { sim with world := w.affiliate guest.id .guest host.id }.tell fun s =>
      { s with groups := s.groups.mapMembers (colonists.map Thing.id) host.id }
  | _, _ => { sim with world := w }

/-- Tells the session about thing `t` of a freshly loaded map. -/
def warm (sim : Simulation) (t : Thing) : Simulation :=
  match t.kind with
  | .plant _ => sim.tell fun s => (s.markHarvestable sim.world t).2
  | .turret | .generator => sim.tell fun s => (s.markRefuelable t).2
  | .animal _ => sim.tell fun s => (s.markAnimal t).2
  | .item | .colonist => sim

/-- Loads a new map with its population, regions and warmed caches. -/
def loadMap (sim : Simulation) : MapId × Simulation :=
  let (m, w) := sim.world.addMap mapSize mapSize regionSize
  let sim := { sim with world := w }
  let seed : UInt64 := m.val.toUInt64 <<< 32
  let (colonists, sim) := sim.spawnRow m 6 (fun _ => .colonist) seed
  let (_, sim) := sim.spawnRow m 6
    (fun n => .animal (if n % 2 == 0 then .milk else .wool)) (seed + 100)
  let (_, sim) := sim.spawnRow m 16 (fun n => .plant (species.getD (n % 4) .rice)) (seed + 200)
  let (_, sim) := sim.spawnRow m 24 (fun _ => .item) (seed + 300)
  let sim := (List.range 2).foldl (fun sim n =>
    let (_, sim) := sim.spawnScattered m .turret (seed + 400 + n.toUInt64)
    (sim.spawnScattered m .generator (seed + 500 + n.toUInt64)).2) sim
  let sim := sim.settle colonists
  let sim := { sim with world := sim.world.setRegionsEnabled m true }
  let sim := sim.tell fun s => (s.addAllHaulables sim.world m).2
  (m, (sim.world.thingsOn m).foldl warm sim)

/-- Loads the starting maps. -/
def populate (sim : Simulation) : Simulation :=
  (List.range mapCount).foldl (fun sim _ =>
    let (m, sim) := sim.loadMap
    { sim with maps := sim.maps ++ [m] }) sim

/-- Unloads the newest map, telling the session, and loads a fresh one in its place. -/
def cycleMap (sim : Simulation) : Simulation :=
  match sim.maps.getLast? with
  | none => sim
  | some old =>
    let sim := { sim with maps := sim.maps.dropLast }
    let sim := sim.tell fun s => (s.mapRemoved old (sim.world.regionsOf old)).2
    let (gone, w) := sim.world.removeMap old
    let sim := { sim with world := w }.tell fun s =>
      gone.foldl (fun s (t : Thing) => (s.spatialItemRemoved t.id).entityRemoved t.id) s
    let (m, sim) := sim.loadMap
    { sim with maps := sim.maps ++ [m] }

/-! ## The churn rules of one map -/

/-- A pawn carries one of `items` to a cell drawn from the seed. -/
def carryItem (sim : Simulation) (items : List Thing) (seed : UInt64) : Simulation :=
  match choose seed items with
  | none => sim
  | some t =>
    let (moved, w) := sim.world.moveTo t.id (scatterCell (seed ^^^ 1))
    let sim := { sim with world := w }
    if moved then sim.tell fun s => s.itemMoved w t.id else sim

/-- A new item of a drawn quality is made and filed for hauling. -/
def makeItem (sim : Simulation) (m : MapId) (seed : UInt64) : Simulation :=
  match sim.spawnScattered m .item (seed ^^^ 2) with
  | (none, sim) => sim
  | (some item, sim) =>
    let q := (choose (seed ^^^ 9) qualities).getD .poor
    let w := (sim.world.setComponent item.id (.quality q)).2
    { sim with world := w }.tell fun s => (s.addHaulable w item).2

/-- Every fourth tick the first of `items` reaches storage and merges into a stack. -/
def storeItem (sim : Simulation) (items : List Thing) : Simulation :=
  match items.head? with
  | some t =>
    if sim.tick % 4 == 0 then
      { sim with world := (sim.world.despawn t.id).2 }.tell fun s => s.spatialItemRemoved t.id
    else sim
  | none => sim

/-- Every seventh tick one of `plants` is cut and a plant of a drawn species sprouts. -/
def cutPlant (sim : Simulation) (m : MapId) (plants : List Thing) (seed : UInt64) : Simulation :=
  match choose (seed ^^^ 3) plants with
  | some cut =>
    if sim.tick % 7 == 0 then
      let sim := sim.tell fun s => s.completeHarvest cut.id
      let sim := { sim with world := (sim.world.despawn cut.id).2 }.tell fun s =>
        s.spatialItemRemoved cut.id
      let kind := ThingKind.plant ((choose (seed ^^^ 4) species).getD .rice)
      match sim.spawnScattered m kind (seed ^^^ 5) with
      | (some sprout, sim) => sim.tell fun s => (s.markHarvestable sim.world sprout).2
      | (none, sim) => sim
    else sim
  | none => sim

/-- Turrets are refuelled every fifteenth tick and run dry eight ticks later. -/
def refuelTurrets (sim : Simulation) (m : MapId) (things : List Thing) : Simulation :=
  match sim.tick % 15 with
  | 0 => sim.tell fun s => (s.refuelableTurretsOn m).foldl (fun s t => s.unmarkRefuelable t) s
  | 8 => sim.tell fun s =>
    (things.filter (·.kind.isTurret)).foldl (fun s t => (s.markRefuelable t).2) s
  | _ => sim

/-- Animals are milked every twentieth tick and ready again ten ticks later. -/
def tendAnimals (sim : Simulation) (m : MapId) (things : List Thing) : Simulation :=
  match sim.tick % 20 with
  | 0 => sim.tell fun s => (s.animalsReadyFor m .milk).foldl (fun s t => s.removeAnimal t.id) s
  | 10 => sim.tell fun s =>
    (things.filter (·.kind.isAnimal)).foldl (fun s t => (s.markAnimal t).2) s
  | _ => sim

/-- Every ninth tick a drawn building breaks or is mended and is switched; the session is not
told, since its cached slots stay valid. -/
def switchBuilding (sim : Simulation) (things : List Thing) (seed : UInt64) : Simulation :=
  match choose (seed ^^^ 10) (things.filter (·.kind.isBuilding)) with
  | some b =>
    if sim.tick % 9 == 0 then
      let w := (sim.world.setComponent b.id (.breakdown (sim.tick % 18 == 0))).2
      let w := (w.setComponent b.id (.powerSwitch (mix (seed ^^^ 11) % 4 != 0))).2
      { sim with world := w }
    else sim
  | none => sim

/-- Every twelfth tick a drawn colonist catches a drawn ailment. -/
def infectColonist (sim : Simulation) (colonists : List Thing) (seed : UInt64) : Simulation :=
  match choose (seed ^^^ 12) colonists with
  | some c =>
    if sim.tick % 12 == 0 then
      let a := (choose (seed ^^^ 13) Ailment.all).getD .flu
      { sim with world := (sim.world.infect c.id a).2 }
    else sim
  | none => sim

/-- The severity of a new injury drawn from the seed: a whole number from 1 to 30. -/
def severityOf (seed : UInt64) : Float32 := 1.0 + Float32.ofNat (mix seed % 30).toNat

/-- Every third tick a drawn colonist is hurt. -/
def hurtColonist (sim : Simulation) (colonists : List Thing) (seed : UInt64) : Simulation :=
  match choose (seed ^^^ 6) colonists with
  | some c =>
    if sim.tick % 3 == 0 then
      { sim with world := (sim.world.addInjury c.id (severityOf (seed ^^^ 7))).2 }
    else sim
  | none => sim

/-- Every tenth tick the first colonist's oldest injury heals. -/
def healColonist (sim : Simulation) (colonists : List Thing) : Simulation :=
  match colonists.head? with
  | some c =>
    if sim.tick % 10 == 0 then
      match (sim.world.injuriesOf c.id).head? with
      | some i =>
        { sim with world := (sim.world.heal i.id).2 }.tell fun s =>
          { s with bleeding := s.bleeding.removeCachedAge i.id }
      | none => sim
    else sim
  | none => sim

/-- Every twenty-fifth tick the last colonist leaves and a newcomer joins the leader. -/
def replaceColonist (sim : Simulation) (m : MapId) (leader last : Thing) (seed : UInt64) :
    Simulation :=
  let sim := { sim with world := (sim.world.despawn last.id).2 }.tell fun s =>
    s.entityRemoved last.id
  match sim.spawnScattered m .colonist (seed ^^^ 8) with
  | (some n, sim) =>
    { sim with world := sim.world.relate n.id leader.id .friend }.tell fun s =>
      { s with relations := s.relations.clearBetween n.id leader.id,
               groups := (s.groups.mapMember n.id leader.id).2 }
  | (none, sim) => sim

/-- Ends the guest stay of colonist `c`, if any, and drops the cached answer. -/
def endStay (sim : Simulation) (c : Thing) : Simulation :=
  if (sim.world.affiliation c.id .guest).isSome then
    { sim with world := sim.world.endAffiliation c.id .guest }.tell fun s =>
      { s with affiliations := s.affiliations.removeEntries .guest [c.id] }
  else sim

/-- The rules for maps with at least three colonists: newcomers, guests, hiring and work. -/
def shuffleColonists (sim : Simulation) (m : MapId) (colonists : List Thing) (seed : UInt64) :
    Simulation :=
  match colonists with
  | leader :: second :: _ :: _ =>
    let last := colonists.getLast?.getD leader
    let sim := if sim.tick % 25 == 0 then sim.replaceColonist m leader last seed else sim
    let sim := match sim.tick % 30 with
      | 0 => (sim.endStay leader).endStay second
      | 15 =>
        { sim with world := sim.world.affiliate second.id .mercenary leader.id }.tell fun s =>
          { s with affiliations := s.affiliations.removeEntries .mercenary [second.id] }
      | _ => sim
    if sim.tick % 40 == 0 then
      { sim with world := sim.world.liftWorkRestrictions leader.id }.tell fun s =>
        { s with workRestrictions := (s.workRestrictions.remove leader.id).2 }
    else sim
  | _ => sim

/-- Churns map `m` for one tick; the rules see the map's things as the churn began. -/
def churnMap (sim : Simulation) (m : MapId) (seed : UInt64) : Simulation :=
  let things := sim.world.thingsOn m
  let items := things.filter (·.kind == .item)
  let plants := things.filter (·.kind.isPlant)
  let colonists := things.filter (·.kind.isHumanlike)
  let sim := sim.carryItem items seed
  let sim := sim.makeItem m seed
  let sim := sim.storeItem items
  let sim := sim.cutPlant m plants seed
  let sim := sim.refuelTurrets m things
  let sim := sim.tendAnimals m things
  let sim := sim.switchBuilding things seed
  let sim := sim.infectColonist colonists seed
  let sim := sim.hurtColonist colonists seed
  let sim := sim.healColonist colonists
  sim.shuffleColonists m colonists seed

end Simulation

end ColonyCache
