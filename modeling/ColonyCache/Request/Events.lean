import ColonyCache.Request.Basic
/-! Requests to an event bus whose listeners write what they hear to a log. -/
namespace ColonyCache.Request

/-! ## `bus` -/

def eventKindOf (name : String) : Outcome EventKind :=
  match name with
  | "entity_removed" => pure .entityRemoved
  | "spatial_item_removed" => pure .spatialItemRemoved
  | "tick_boundary" => pure .tickBoundary
  | k => bad ("unknown listener kind " ++ quoted k)

/-- Subscribes the listener of an entry `[kind, name]`. -/
def registerEntry (b : EventBus String) : Json → Outcome (EventBus String)
  | .arr [k, n] => do
    let k ← match k with
      | .str k => pure k
      | _ => bad "register kind must be a string"
    let n ← match n with
      | .str n => pure n
      | _ => bad "register name must be a string"
    pure (b.subscribe (← eventKindOf k) n)
  | _ => bad "register entries must be [kind, name]"

/-- What the listener `name` writes on hearing an event. -/
def logLine (name : String) : Event → String
  | .entityRemoved e => name ++ ":entity:" ++ toString e.val.toNat
  | .spatialItemRemoved e => name ++ ":item:" ++ toString e.val.toNat
  | .tickBoundary => name ++ ":tick"

/-- Answers a request on an event bus, with what the listeners wrote at each step. -/
def runBus (o : Obj) : Outcome Json := do
  let entries ← array o "register"
  let bus ← entries.foldlM registerEntry {}
  let steps ← array o "steps"
  let hear := fun (log : List String) (name : String) (ev : Event) => log ++ [logLine name ev]
  let (answers, _) := runSteps steps () fun _ o op => do
    let (r, log) ← match op with
      | "notify_entity_removed" => do
        let e ← entityField o "entity"
        pure (Json.null, bus.deliver hear (.entityRemoved e) [])
      | "notify_spatial_item_removed" => do
        let e ← entityField o "item"
        pure (Json.null, bus.deliver hear (.spatialItemRemoved e) [])
      | "notify_tick_boundary" => pure (Json.null, bus.deliver hear .tickBoundary [])
      | "listener_counts" => pure (bus.counts.toJson, [])
      | op => unknownStep op
    pure (.obj [("result", r), ("log", .arr (log.map .str))], ())
  pure (.obj [("listeners", bus.counts.toJson), ("steps", .arr answers)])

end ColonyCache.Request
