import ColonyCache.Request.Basic
import ColonyCache.Settings
/-! Requests about settings: reading them from variables, and checking a cache size. -/
namespace ColonyCache.Request

/-! ## `config` and `cache_config` -/

def configFailure (e : ConfigError) : Failure :=
  match e with
  | .invalidNumber .. => ⟨"InvalidNumber", e.message⟩
  | .zeroCapacity .. => ⟨"ZeroCapacity", e.message⟩

/-- The variables of a request, a missing `vars` meaning none set. -/
def varsField (o : Obj) : Outcome (List (String × String)) :=
  match optional o "vars" with
  | none => pure []
  | some (.obj ms) => ms.foldlM (fun acc (k, v) => match v with
      | .str s => pure (acc ++ [(k, s)])
      | .null => pure acc
      | _ => bad "'vars' values must be strings or null") []
  | some _ => bad "'vars' must be an object"

def configOf (o : Obj) : Outcome Config := do
  let vars ← varsField o
  match Config.fromLookup (fun k => lookup' vars k) with
  | .ok c => pure c
  | .error e => .error (configFailure e)
where
  lookup' (vars : List (String × String)) (k : String) : Option String :=
    (vars.find? (·.1 == k)).map (·.2)

/-- Answers a request to read the settings. -/
def runConfig (o : Obj) : Outcome Json := do
  let c ← configOf o
  pure (.obj [("tick_interval_ms", Json.nat c.tickIntervalMs), ("max_ticks", Json.nat c.maxTicks),
    ("sessions", Json.nat c.sessions), ("relations_capacity", Json.nat c.relationsCache.capacity),
    ("injury_capacity", Json.nat c.injuryCache.capacity),
    ("equals_default", .bool (c == Config.default))])

/-- Answers a request on the capacity settings of a cache. -/
def runCacheConfig (o : Obj) : Outcome Json := do
  let c ← match optional o "preset" with
    | none => pure CacheConfig.default
    | some (.str "default") => pure CacheConfig.default
    | some (.str "relations") => pure CacheConfig.relations
    | some (.str "injury_bleeding") => pure CacheConfig.injuryBleeding
    | some _ => bad "unknown preset"
  let c ← match optional o "with_capacity" with
    | none => pure c
    | some v => do pure (CacheConfig.withCapacity (← asWord64 "with_capacity" v))
  let c ← match optional o "capacity" with
    | none => pure c
    | some v => do pure (c.setCapacity (← asWord64 "capacity" v))
  let name ← str o "name"
  match c.validate name with
  | .ok c => pure (.obj [("capacity", Json.nat c.capacity)])
  | .error e => .error (configFailure e)

end ColonyCache.Request
