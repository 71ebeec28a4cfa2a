import ColonyCache.Request.Values
import ColonyCache.Request.Settings
import ColonyCache.Simulation.Report
/-! Requests that run the simulation on a fresh session and report what it saw. -/
namespace ColonyCache.Request

/-- The most ticks one request may run. -/
def tickLimit : Nat := 1000

/-- Runs `ticks` steps, keeping the reports of ticks that `every` divides, and the last. -/
def runTicks (sim : Simulation) (ticks every : Nat) : List StepReport × Simulation :=
  (List.range ticks).foldl (fun (rs, sim) _ =>
    let (r, sim) := sim.step
    (if r.tick % every == 0 || r.tick == ticks then rs ++ [r] else rs, sim)) ([], sim)

/-- Answers a request to run the simulation. -/
def runSimulation (o : Obj) : Outcome Json := do
  let config ← configOf o
  let ticks ← word64 o "ticks"
  if ticks > tickLimit then throw ⟨"DriverLimit", "ticks above " ++ toString tickLimit⟩
  let every ← match optional o "report_every" with
    | some v => asWord64 "report_every" v
    | none => pure 1
  let sim := (Simulation.new (Session.new config 1)).populate
  let afterPopulate := sim.session.stats
  let (reports, sim) := runTicks sim ticks (max every 1)
  let hauling := sim.session.regionCache haulableItems
  pure (.obj [("after_populate", afterPopulate.toJson),
    ("reports", .arr (reports.map StepReport.toJson)),
    ("stats", sim.session.stats.toJson),
    ("maps", .arr (sim.maps.map mapJson)),
    ("thing_count", Json.nat sim.world.thingCount),
    ("world_maps", .arr (sim.world.mapIds.map mapJson)),
    ("haulables", .arr (hauling.scopes.map fun g =>
      .arr [regionJson g, .arr ((hauling.itemsIn g).map (entityJson ·.id))])),
    ("sim_tick", Json.nat sim.tick)])

end ColonyCache.Request
