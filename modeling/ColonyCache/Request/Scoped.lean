import ColonyCache.Request.Basic
import ColonyCache.Scoped.Registry
/-! Requests to a scoped cache and to a registry of them; `place` steps set where items lie. -/
namespace ColonyCache.Request

/-! ## `scoped` and `registry` -/

/-- The items of the scoped-cache requests: an id and a tag that rides along. -/
structure TaggedItem where
  id : EntityId
  tag : Int

instance : Keyed TaggedItem EntityId := ⟨TaggedItem.id⟩

/-- The scoped cache of the `scoped` request: tagged items filed by region. -/
abbrev Scoped := ScopedCache RegionId EntityId TaggedItem

/-- Where each item id lies, as set by `place` steps. -/
abbrev Placement := Std.HashMap EntityId RegionId


/-- Member `item` as an item, with member `tag`, zero when not given. -/
def itemField (o : Obj) : Outcome TaggedItem := do
  let id ← entityField o "item"
  let tag ← match optional o "tag" with
    | some v => asInt64 "tag" v
    | none => pure 0
  pure ⟨id, tag⟩



def itemJson (x : TaggedItem) : Json := .arr [entityJson x.id, .int x.tag]


/-- The scopes of the cache in ascending order, each with its items in filing order. -/
def scopedState (c : Scoped) : Json :=
  .arr (c.toList.map fun (s, xs) => .arr [regionJson s, .arr (xs.map itemJson)])

/-- One step on a scoped cache, with `table` placing items in scopes. -/
def scopedStep (table : Placement) (c : Scoped) (o : Obj) : String → Outcome (Json × Scoped)
  | "add" => do
    let x ← itemField o
    let (b, c) := c.add (fun x => table.get? x.id) x
    pure (.bool b, c)
  | "insert_into" => do
    let x ← itemField o
    let s ← regionField o "scope"
    let (b, c) := c.insertInto x s
    pure (.bool b, c)
  | "relocate" => do
    let k ← entityField o "item"
    let (s, c) := c.relocate (fun x => table.get? x.id) k
    pure (Json.opt regionJson s, c)
  | "remove" => do
    let k ← entityField o "item"
    let (x, c) := c.remove k
    pure (Json.opt itemJson x, c)
  | "remove_scope" => do
    let s ← regionField o "scope"
    let (n, c) := c.removeScope s
    pure (Json.nat n, c)
  | "items_in_scope" => do
    let s ← regionField o "scope"
    pure (.arr ((c.itemsIn s).map itemJson), c)
  | "scope_len" => do
    let s ← regionField o "scope"
    pure (Json.nat (c.scopeSize s), c)
  | "scopes" => pure (.arr (c.scopes.map regionJson), c)
  | "scope_of" => do
    let k ← entityField o "item"
    pure (Json.opt regionJson (c.scopeOf k), c)
  | "contains" => do
    let k ← entityField o "item"
    pure (.bool (c.contains k), c)
  | "get" => do
    let k ← entityField o "item"
    pure (Json.opt itemJson (c.get k), c)
  | "len" => pure (Json.nat c.size, c)
  | "is_empty" => pure (.bool c.isEmpty, c)
  | "clear" => pure (.null, c.clear)
  | "stats" => pure (c.stats.toJson, c)
  | op => unknownStep op

/-- A `place` step: sets or clears where an item lies. -/
def placeStep (table : Placement) (o : Obj) : Outcome Placement := do
  let k ← entityField o "item"
  match optional o "scope" with
  | some v => pure (table.insert k ⟨(← asWord32 "scope" v).toUInt32⟩)
  | none => pure (table.erase k)

/-- Answers a request on a scoped cache, with its state after each step. -/
def runScoped (o : Obj) : Outcome Json := do
  match optional o "resolver" with
  | none | some (.str "table") | some (.str "closure") => pure ()
  | some _ => bad "unknown resolver"
  let steps ← array o "steps"
  let init : Placement × Scoped := ({}, {})
  let (answers, _) := runSteps steps init fun (table, c) o op => do
    if op == "place" then
      let table ← placeStep table o
      pure (.obj [("result", .null), ("state", scopedState c)], (table, c))
    else
      let (r, c) ← scopedStep table c o op
      pure (.obj [("result", r), ("state", scopedState c)], (table, c))
  pure (.obj [("steps", .arr answers)])

abbrev ScopedRegistry := Registry Scoped

/-- The factory of the registry requests: it makes an empty cache and counts it. -/
def countingFactory (_ : String) : StateM Nat Scoped := do
  modify (· + 1)
  pure {}

/-- One step on the registry; `built` counts the caches the factory has made. -/
def registryStep (table : Placement) (r : ScopedRegistry) (built : Nat) (o : Obj) :
    String → Outcome (Json × Placement × ScopedRegistry × Nat)
  | "place" => do pure (.null, ← placeStep table o, r, built)
  | "get_or_create" => do
    let name ← str o "name"
    let ((_, r), built) := (r.getOrCreateWith name countingFactory).run built
    pure (.obj [("name", .str name), ("built", Json.nat built)], table, r, built)
  | "get" => do
    let name ← str o "name"
    pure (Json.opt (fun _ => .str name) (r.get? name), table, r, built)
  | "same_cache" => do
    let a ← str o "a"
    let b ← str o "b"
    pure (Json.opt .bool (r.sameCache a b), table, r, built)
  | "contains" => do
    let name ← str o "name"
    pure (.bool (r.contains name), table, r, built)
  | "len" => pure (Json.nat r.size, table, r, built)
  | "is_empty" => pure (.bool r.isEmpty, table, r, built)
  | "cache_names" => pure (.arr (r.names.map .str), table, r, built)
  | "remove_item" | "on_spatial_item_removed" | "on_entity_removed" => do
    let k ← entityField o "item"
    pure (.null, table, r.removeItem k, built)
  | "remove_scope" => do
    let s ← regionField o "scope"
    let (n, r) := r.removeScope s
    pure (Json.nat n, table, r, built)
  | "relocate_item" => do
    let k ← entityField o "item"
    pure (.null, table, r.relocateItem (fun x => table.get? x.id) k, built)
  | "clear" => pure (.null, table, r.clearAll, built)
  | "stats" => pure (.obj (r.stats.map fun (n, s) => (n, s.toJson)), table, r, built)
  | op => do
    let name ← str o "name"
    match r.get? name with
    | some c =>
      let (res, c') ← scopedStep table c o op
      let (_, r) := r.modify name fun _ => ((), c')
      pure (res, table, r, built)
    | none =>
      -- the step is checked against an empty cache, and its answer dropped
      let _ ← scopedStep table {} o op
      pure (.null, table, r, built)

/-- Every cache of the registry with its state, in creation order. -/
def registryState (r : ScopedRegistry) : Json :=
  .arr (r.entries.map fun (n, c) => .arr [.str n, scopedState c])

/-- Answers a request on a registry of scoped caches, with its state after each step. -/
def runRegistry (o : Obj) : Outcome Json := do
  let steps ← array o "steps"
  let init : Placement × ScopedRegistry × Nat := ({}, {}, 0)
  let (answers, _) := runSteps steps init fun (table, r, built) o op => do
    let (res, table, r, built) ← registryStep table r built o op
    pure (.obj [("result", res), ("state", registryState r)], (table, r, built))
  pure (.obj [("steps", .arr answers)])

end ColonyCache.Request
