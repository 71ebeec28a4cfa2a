import ColonyCache.Json.Read
import ColonyCache.Request.Recency
import ColonyCache.Request.Scoped
import ColonyCache.Request.Events
import ColonyCache.Request.Identity
import ColonyCache.Request.Settings
import ColonyCache.Request.Entity
import ColonyCache.Request.Session
import ColonyCache.Request.Simulation
/-! Answers to requests, dispatched on the field `op`. -/
namespace ColonyCache.Request

/-! ## Dispatch -/

/-- The answer to a request object, by the kind of request its `op` names. -/
def answer (o : Obj) : Outcome Json := do
  let op ← str o "op"
  match op with
  | "lru" => runLru o
  | "scoped" => runScoped o
  | "registry" => runRegistry o
  | "bus" => runBus o
  | "hash" => runHash o
  | "identity" => runIdentity o
  | "config" => runConfig o
  | "cache_config" => runCacheConfig o
  | "stop_bleeding_age" => runStopAge o
  | "injury_cache" => runInjuryCache o
  | "relations" => runRelations o
  | "immunizable" => runImmunizable o
  | "entity_caches" => runEntityCaches o
  | "session" => runSession o
  | "simulation" => runSimulation o
  | _ => bad ("unknown op " ++ quoted op)

/-- The answer to one line of input. -/
def answerLine (line : String) : Json :=
  match Json.parse line with
  | none => failureJson ⟨"BadInput", "input is not valid JSON"⟩
  | some (.obj o) =>
    match answer o with
    | .ok j => j
    | .error f => failureJson f
  | some _ => failureJson ⟨"BadInput", "input must be a JSON object"⟩

end ColonyCache.Request
