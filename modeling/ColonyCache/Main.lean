import ColonyCache.Simulation.Report
import ColonyCache.Session.Host
import ColonyCache.Settings.DotEnv
/-! The command line: reads the settings, then runs the sessions one after another, printing
each one's counts as a JSON line. -/
namespace ColonyCache.Cli

/-- The settings file's entries, or none when it cannot be read. -/
def dotEnvEntries : IO (List (String × String)) := do
  try
    pure (Settings.entries (← IO.FS.readFile ".env"))
  catch _ =>
    pure []

/-- The text of each setting's variable: from the environment, else from the file. -/
def settingValues : IO (List (String × Option String)) := do
  let file ← dotEnvEntries
  let names := [Config.tickIntervalVar, Config.maxTicksVar, Config.sessionsVar,
    Config.relationsCapacityVar, Config.injuryCapacityVar]
  names.mapM fun name => do
    match ← IO.getEnv name with
    | some v => pure (name, some v)
    | none => pure (name, file.lookup name)

/-- Steps the simulation once per tick interval until the tick limit, forever when it is zero. -/
partial def drive (config : Config) (sim : Simulation) : IO Simulation := do
  if config.maxTicks != 0 && config.maxTicks ≤ sim.tick then
    return sim
  let sim := sim.step.2
  IO.sleep config.tickIntervalMs.toUInt32
  drive config sim

/-- Ends the loaded session and prints its counts. -/
def printStats (host : SessionHost) : IO SessionHost := do
  let (stats, host) := host.unload
  match stats with
  | some s =>
    IO.println s.toJson.render
    (← IO.getStdout).flush
  | none => pure ()
  pure host

/-- Runs `count` sessions one after another. -/
def runSessions (config : Config) : Nat → SessionHost → IO SessionHost
  | 0, host => pure host
  | count + 1, host => do
    let host := host.load
    match host.current with
    | none => pure host
    | some session =>
      let sim ← drive config (Simulation.new session).populate
      let host ← printStats { host with current := some sim.session }
      runSessions config count host

end ColonyCache.Cli

/-- Reads the settings and runs the sessions; a bad setting exits with status 1. -/
def main : IO UInt32 := do
  let values ← ColonyCache.Cli.settingValues
  match ColonyCache.Config.fromLookup fun name => (values.lookup name).join with
  | .error e =>
    IO.eprintln ("Error: " ++ e.message)
    pure 1
  | .ok config =>
    let _ ← ColonyCache.Cli.runSessions config config.sessions (ColonyCache.SessionHost.new config)
    pure 0
