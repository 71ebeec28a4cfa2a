import ColonyCache.Request.Values
import ColonyCache.Recency.Arena
import ColonyCache.Caches.Bleeding
import ColonyCache.Caches.Relations
import ColonyCache.Caches.Immunity
/-! Requests to the bounded caches, and questions about stop ages and immunity. -/
namespace ColonyCache.Request

/-! ## `lru` -/

abbrev Lru := ArenaCache Nat Int

def lruStep (c : Lru) (o : Obj) : String → Outcome (Json × Lru)
  | "put" => do
    let k ← word64 o "key"
    let v ← int64 o "value"
    let (ev, c) := c.put k v
    pure (Json.opt (fun (k, v) => .arr [Json.nat k, .int v]) ev, c)
  | "get" => do
    let k ← word64 o "key"
    let (v, c) := c.get k
    pure (Json.opt .int v, c)
  | "peek" => do
    let k ← word64 o "key"
    pure (Json.opt .int (c.peek k), c)
  | "contains" => do
    let k ← word64 o "key"
    pure (.bool (c.contains k), c)
  | "remove" => do
    let k ← word64 o "key"
    let (v, c) := c.remove k
    pure (Json.opt .int v, c)
  | "clear" => pure (.null, c.clear)
  | "len" => pure (Json.nat c.size, c)
  | "is_empty" => pure (.bool c.isEmpty, c)
  | "capacity" => pure (Json.nat c.capacity, c)
  | "stats" => pure (c.stats.toJson true, c)
  | op => unknownStep op

def lruEntries (c : Lru) : Json := .arr (c.toList.map fun (k, v) => .arr [Json.nat k, .int v])

/-- Answers a request on a recency cache, with the entries after each step. -/
def runLru (o : Obj) : Outcome Json := do
  let cap ← limitCapacity (← word64 o "capacity")
  let steps ← array o "steps"
  let c : Lru := ArenaCache.new cap
  let (answers, _) := runSteps steps c fun c o op => do
    let (r, c) ← lruStep c o op
    pure (.obj [("result", r), ("entries", lruEntries c)], c)
  pure (.obj [("capacity", Json.nat c.capacity), ("steps", .arr answers)])


/-! ## `stop_bleeding_age`, `injury_cache`, `relations`, `immunizable` -/

/-- Answers a request for the age at which an injury of a given severity stops bleeding. -/
def runStopAge (o : Obj) : Outcome Json := do
  let s ← severityOf (← need o "severity")
  pure (.obj [("age", word32Json (stopBleedingAge s))])

def injuryField (o : Obj) : Outcome Injury := do
  literalInjury (membersOf (← need o "injury"))

/-- Answers a request on the cache of bleeding ages, with its counts after each step. -/
def runInjuryCache (o : Obj) : Outcome Json := do
  let cap ← limitCapacity (← word64 o "capacity")
  let steps ← array o "steps"
  let (answers, _) := runSteps steps (BleedingCache.new cap) fun c o op => do
    let (r, c) ← match op with
      | "is_bleeding" => do
        let i ← injuryField o
        let (b, c) := c.isBleeding i
        pure (Json.bool b, c)
      | "record_stop_age" => do
        let e ← entityField o "id"
        let age := (← word32 o "age").toUInt32
        pure (Json.null, c.recordStopAge e age)
      | "remove_cached_age" => do
        let e ← entityField o "id"
        pure (Json.null, c.removeCachedAge e)
      | "clear" => pure (Json.null, c.clear)
      | "stats" => pure (c.stats.toJson true, c)
      | op => unknownStep op
    pure (.obj [("result", r), ("stats", c.stats.toJson false)], c)
  pure (.obj [("steps", .arr answers)])

def relationList (rs : List RelationKind) : Json := .arr (rs.map (enumJson relationKinds))

/-- Answers a request on the cache of relations between people. -/
def runRelations (o : Obj) : Outcome Json := do
  let cap ← limitCapacity (← word64 o "capacity")
  let steps ← array o "steps"
  let (answers, _) := runSteps steps (RelationsCache.new cap) fun c o op => do
    let (r, c) ← match op with
      | "add" => do
        let subject ← literalThingField o "subject"
        let related ← literalThingField o "related"
        let rs ← enumList relationKinds o "relations"
        pure (Json.null, c.addBetween subject related rs)
      | "get" => do
        let a ← entityField o "subject"
        let b ← entityField o "related"
        let (rs, c) := c.between a b
        pure (Json.opt relationList rs, c)
      | "clear_between" => do
        let a ← entityField o "a"
        let b ← entityField o "b"
        pure (Json.null, c.clearBetween a b)
      | "clear" => pure (Json.null, c.clear)
      | "stats" => pure (c.stats.toJson true, c)
      | op => unknownStep op
    pure (.obj [("result", r), ("stats", c.stats.toJson false)], c)
  pure (.obj [("steps", .arr answers)])

/-- Answers a request on a set of ailments that leave immunity. -/
def runImmunizable (o : Obj) : Outcome Json := do
  let set ← match optional o "ailments" with
    | none => pure ImmunizableSet.known
    | some v => do
      pure (ImmunizableSet.ofList (← (← asArray "ailments" v).mapM (named ailments "ailments")))
  let query ← enumList ailments o "query"
  pure (.obj [("len", Json.nat set.size), ("is_empty", .bool set.isEmpty),
    ("answers", .arr (query.map fun a => .bool (set.contains a)))])

end ColonyCache.Request
