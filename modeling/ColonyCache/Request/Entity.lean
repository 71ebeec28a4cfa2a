import ColonyCache.Request.Values
import ColonyCache.Caches.Keyed
import ColonyCache.Caches.Tick
/-! Requests to the caches of values about things. -/
namespace ColonyCache.Request

/-! ## `entity_caches` -/


/-- The caches keyed by entity that the `entity_caches` request works on. -/
structure EntityCaches where
  keyed : EntityCache Int := {}
  tagged : TaggedCache Affiliation Int := {}
  groups : GroupCache Nat := {}
  tickScoped : TickScopedCache Nat Int := {}
  tickEntity : EntityCache Int := {}

/-- One step on one of the caches, named by the prefix of the step. -/
def entityCachesStep (c : EntityCaches) (o : Obj) : String → Outcome (Json × EntityCaches)
  | "keyed.get_or_insert" => do
    let v ← int64 o "value"
    let e ← entityField o "id"
    let (r, k) := c.keyed.getOrInsert e fun _ => v
    pure (.int r, { c with keyed := k })
  | "keyed.get" => do
    let e ← entityField o "id"
    pure (Json.opt .int (c.keyed.get? e), c)
  | "keyed.insert" => do
    let e ← entityField o "id"
    let v ← int64 o "value"
    pure (.null, { c with keyed := c.keyed.insert e v })
  | "keyed.remove" => do
    let e ← entityField o "id"
    let (r, k) := c.keyed.remove e
    pure (Json.opt .int r, { c with keyed := k })
  | "keyed.remove_all" => do
    let es ← idList o "ids"
    pure (.null, { c with keyed := c.keyed.removeAll es })
  | "keyed.on_entity_removed" => do
    let e ← entityField o "id"
    pure (.null, { c with keyed := (c.keyed.remove e).2 })
  | "keyed.len" => pure (Json.nat c.keyed.size, c)
  | "keyed.is_empty" => pure (.bool c.keyed.isEmpty, c)
  | "keyed.clear" => pure (.null, { c with keyed := c.keyed.clear })
  | "tagged.get_or_insert" => do
    let v ← int64 o "value"
    let t ← enumField affiliations o "tag"
    let e ← entityField o "id"
    let (r, k) := c.tagged.getOrInsert e t fun _ => v
    pure (.int r, { c with tagged := k })
  | "tagged.get" => do
    let t ← enumField affiliations o "tag"
    let e ← entityField o "id"
    pure (Json.opt .int (c.tagged.get? e t), c)
  | "tagged.remove_entries" => do
    let t ← enumField affiliations o "tag"
    let es ← idList o "ids"
    pure (.null, { c with tagged := c.tagged.removeEntries t es })
  | "tagged.remove_entity" | "tagged.on_entity_removed" => do
    let e ← entityField o "id"
    pure (.null, { c with tagged := c.tagged.removeEntity e })
  | "tagged.len" => pure (Json.nat c.tagged.size, c)
  | "tagged.is_empty" => pure (.bool c.tagged.isEmpty, c)
  | "tagged.clear" => pure (.null, { c with tagged := c.tagged.clear })
  | "groups.map_members" => do
    let g ← word32 o "group"
    let es ← idList o "ids"
    pure (.null, { c with groups := c.groups.mapMembers es g })
  | "groups.map_member" => do
    let e ← entityField o "id"
    let g ← word32 o "group"
    let (b, k) := c.groups.mapMember e g
    pure (.bool b, { c with groups := k })
  | "groups.group_of" => do
    let e ← entityField o "id"
    pure (Json.opt Json.nat (c.groups.groupOf e), c)
  | "groups.remove_member" => do
    let e ← entityField o "id"
    let g ← word32 o "group"
    pure (.null, { c with groups := c.groups.removeMember e g })
  | "groups.remove_group" => do
    let g ← word32 o "group"
    pure (.null, { c with groups := c.groups.removeGroup g })
  | "groups.on_entity_removed" => do
    let e ← entityField o "id"
    pure (.null, { c with groups := c.groups.removeEntity e })
  | "groups.len" => pure (Json.nat c.groups.size, c)
  | "groups.is_empty" => pure (.bool c.groups.isEmpty, c)
  | "groups.clear" => pure (.null, { c with groups := c.groups.clear })
  | "tick_scoped.get_or_compute" => do
    let v ← int64 o "value"
    let s ← word32 o "scope"
    let (r, k) := c.tickScoped.getOrCompute s fun _ => v
    pure (.obj [("value", .int r), ("computed_this_tick", Json.nat k.computedThisTick)],
      { c with tickScoped := k })
  | "tick_scoped.get" => do
    let s ← word32 o "scope"
    pure (Json.opt .int (c.tickScoped.get? s), c)
  | "tick_scoped.computed_this_tick" => pure (Json.nat c.tickScoped.computedThisTick, c)
  | "tick_scoped.on_tick_boundary" | "tick_scoped.clear" =>
    pure (.null, { c with tickScoped := c.tickScoped.clear })
  | "tick_scoped.len" => pure (Json.nat c.tickScoped.size, c)
  | "tick_scoped.is_empty" => pure (.bool c.tickScoped.isEmpty, c)
  | "tick_entity.get_or_insert" => do
    let v ← int64 o "value"
    let e ← entityField o "id"
    let (r, k) := c.tickEntity.getOrInsert e fun _ => v
    pure (.int r, { c with tickEntity := k })
  | "tick_entity.get" => do
    let e ← entityField o "id"
    pure (Json.opt .int (c.tickEntity.get? e), c)
  | "tick_entity.remove" => do
    let e ← entityField o "id"
    let (r, k) := c.tickEntity.remove e
    pure (Json.opt .int r, { c with tickEntity := k })
  | "tick_entity.on_entity_removed" => do
    let e ← entityField o "id"
    pure (.null, { c with tickEntity := (c.tickEntity.remove e).2 })
  | "tick_entity.on_tick_boundary" | "tick_entity.clear" =>
    pure (.null, { c with tickEntity := c.tickEntity.clear })
  | "tick_entity.len" => pure (Json.nat c.tickEntity.size, c)
  | "tick_entity.is_empty" => pure (.bool c.tickEntity.isEmpty, c)
  | op => unknownStep op

/-- Answers a request on the caches keyed by entity. -/
def runEntityCaches (o : Obj) : Outcome Json := do
  let steps ← array o "steps"
  let (answers, _) := runSteps steps ({} : EntityCaches) fun c o op => do
    let (r, c) ← entityCachesStep c o op
    pure (.obj [("result", r)], c)
  pure (.obj [("steps", .arr answers)])

end ColonyCache.Request
