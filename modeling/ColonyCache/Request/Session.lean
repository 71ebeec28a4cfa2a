import ColonyCache.Request.Values
import ColonyCache.Request.Recency
import ColonyCache.Request.Settings
import ColonyCache.Session.Host
/-! Requests that drive a session host beside a world, which outlives the sessions. -/
namespace ColonyCache.Request

/-- The state that session requests work on. -/
structure Bench where
  world : World
  host : SessionHost
  /-- The generation of the session whose handles were kept, if any were. -/
  kept : Option Nat := none

def noSession {α : Type} : Outcome α := .error ⟨"NoSession", "no session is loaded"⟩

def noSuchThing {α : Type} (e : EntityId) : Outcome α :=
  .error ⟨"NoSuchThing", "no thing with id " ++ toString e.val.toNat⟩

/-- The thing named by field `name`: an id, an object with only an id, or a thing in full. -/
def thingArg (w : World) (o : Obj) (name : String) : Outcome Thing := do
  let id ← match ← need o name with
    | .obj t =>
      if (lookup t "kind").isSome then return ← literalThing t
      entityField t "id"
    | v => do pure (EntityId.mk (← asWord32 name v).toUInt32)
  match w.thing? id with
  | some t => pure t
  | none => noSuchThing id

def loaded : Option Session → Outcome Session
  | some s => pure s
  | none => noSession

def mapField (o : Obj) (name : String) : Outcome MapId := do pure ⟨(← word32 o name).toUInt32⟩

def gridJson (g : MapGrid) : Json :=
  .obj [("id", mapJson g.id), ("width", word32Json g.width), ("height", word32Json g.height),
    ("region_size", word32Json g.regionSize), ("regions_enabled", .bool g.regionsEnabled)]

def summaryJson (s : MapSummary) : Json :=
  .obj [("colonists", Json.nat s.colonists), ("animals", Json.nat s.animals),
    ("items", Json.nat s.items)]

/-- Member `value` as a map summary of three 32-bit counts. -/
def summaryOf (o : Obj) : Outcome MapSummary := do
  let v := membersOf (← need o "value")
  pure ⟨← word32 v "colonists", ← word32 v "animals", ← word32 v "items"⟩

def workJson (ks : List WorkKind) : Json := .arr (ks.map (enumJson workKinds))

def worldStep (w : World) (o : Obj) : String → Option (Outcome (Json × World))
  | "add_map" => some do
    let width := (← word32 o "width").toUInt32
    let height := (← word32 o "height").toUInt32
    let size := (← word32 o "region_size").toUInt32
    let (m, w) := w.addMap width height size
    pure (Json.opt gridJson (w.map? m), w)
  | "set_regions_enabled" => some do
    let m ← mapField o "map"
    let b ← bool o "enabled"
    pure (.null, w.setRegionsEnabled m b)
  | "remove_map" => some do
    let m ← mapField o "map"
    let (gone, w) := w.removeMap m
    pure (.arr (gone.map (entityJson ·.id)), w)
  | "map" => some do pure (Json.opt gridJson (w.map? (← mapField o "map")), w)
  | "map_ids" => some do pure (.arr (w.mapIds.map mapJson), w)
  | "regions_of" => some do pure (.arr ((w.regionsOf (← mapField o "map")).map regionJson), w)
  | "region_at" => some do
    let m ← mapField o "map"
    let c ← cellField o "cell"
    pure (Json.opt regionJson (w.regionAt m c), w)
  | "in_grow_zone" => some do
    let m ← mapField o "map"
    let c ← cellField o "cell"
    pure (.bool (w.inGrowZone m c), w)
  | "spawn" => some do
    let k ← thingKindOf (← need o "kind")
    let m ← mapField o "map"
    let c ← cellField o "cell"
    let (t, w) := w.spawn m k c
    pure (Json.opt thingJson t, w)
  | "despawn" => some do
    let (t, w) := w.despawn (← entityField o "id")
    pure (Json.opt thingJson t, w)
  | "move_to" => some do
    let e ← entityField o "id"
    let c ← cellField o "cell"
    let (b, w) := w.moveTo e c
    pure (.bool b, w)
  | "thing" => some do pure (Json.opt thingJson (w.thing? (← entityField o "id")), w)
  | "things_on" => some do pure (.arr ((w.thingsOn (← mapField o "map")).map thingJson), w)
  | "thing_count" => some do pure (Json.nat w.thingCount, w)
  | "add_injury" => some do
    let s ← severityOf (← need o "severity")
    let e ← entityField o "owner"
    let (i, w) := w.addInjury e s
    pure (Json.opt injuryJson i, w)
  | "heal" => some do
    let (i, w) := w.heal (← entityField o "injury")
    pure (Json.opt injuryJson i, w)
  | "injuries_of" => some do
    pure (.arr ((w.injuriesOf (← entityField o "owner")).map injuryJson), w)
  | "age_injuries" => some do pure (.null, w.ageInjuries (← word32 o "ticks").toUInt32)
  | "relate" => some do
    let k ← enumField relationKinds o "kind"
    let a ← entityField o "subject"
    let b ← entityField o "related"
    pure (.null, w.relate a b k)
  | "unrelate" => some do
    let a ← entityField o "a"
    let b ← entityField o "b"
    pure (.null, w.unrelate a b)
  | "relations_between" => some do
    let a ← entityField o "subject"
    let b ← entityField o "related"
    pure (relationList (w.relationsBetween a b), w)
  | "restrict_work" => some do
    let e ← entityField o "id"
    let ks ← enumList workKinds o "kinds"
    pure (.null, w.restrictWork e ks)
  | "lift_work_restrictions" => some do pure (.null, w.liftWorkRestrictions (← entityField o "id"))
  | "disabled_work" => some do pure (workJson (w.disabledWork (← entityField o "id")), w)
  | "affiliate" => some do
    let t ← enumField affiliations o "tag"
    let e ← entityField o "id"
    let f ← entityField o "faction"
    pure (.null, w.affiliate e t f)
  | "end_affiliation" => some do
    let t ← enumField affiliations o "tag"
    let e ← entityField o "id"
    pure (.null, w.endAffiliation e t)
  | "affiliation" => some do
    let t ← enumField affiliations o "tag"
    let e ← entityField o "id"
    pure (Json.opt entityJson (w.affiliation e t), w)
  | "find_component" => some do
    let k ← enumField componentKinds o "kind"
    let e ← entityField o "id"
    pure (Json.opt Json.nat (w.findComponent e k), w)
  | "component_at" => some do
    let i ← word64 o "slot"
    let e ← entityField o "id"
    pure (Json.opt componentJson (w.componentAt e i), w)
  | "set_component" => some do
    let c ← componentOf (← need o "component")
    let e ← entityField o "id"
    let (b, w) := w.setComponent e c
    pure (.bool b, w)
  | "infect" => some do
    let e ← entityField o "owner"
    let a ← enumField ailments o "ailment"
    let (b, w) := w.infect e a
    pure (.bool b, w)
  | "ailments_of" => some do
    pure (.arr ((w.ailmentsOf (← entityField o "owner")).map (enumJson ailments)), w)
  | "restrict_area" => some do
    let a ← match optional o "area" with
      | some v => some <$> areaOf "area" v
      | none => pure none
    let e ← entityField o "id"
    pure (.null, w.restrictArea e a)
  | "world_area_restriction" => some do
    pure (Json.opt areaJson (w.effectiveAreaRestriction (← entityField o "id")), w)
  | "area_contains" => some do
    let a ← areaOf "area" (← need o "area")
    let c ← cellField o "cell"
    pure (.bool (a.contains c), w)
  | _ => none

/-- Steps on the loaded session `cur`, which may read the world. -/
def sessionStep (w : World) (cur : Option Session) (o : Obj) :
    String → Option (Outcome (Json × Session))
  | "entity_removed" => some do
    let s ← loaded cur
    pure (.null, s.entityRemoved (← entityField o "id"))
  | "spatial_item_removed" => some do
    let s ← loaded cur
    pure (.null, s.spatialItemRemoved (← entityField o "id"))
  | "tick_started" => some do
    let s ← loaded cur
    pure (.null, s.tickStarted)
  | "item_moved" => some do
    let s ← loaded cur
    pure (.null, s.itemMoved w (← entityField o "id"))
  | "map_removed" => some do
    let m ← mapField o "map"
    let regions ← match optional o "regions" with
      | some v => (← asArray "regions" v).mapM fun r => do
        pure (RegionId.mk (← asWord32 "regions" r).toUInt32)
      | none => pure (w.regionsOf m)
    let s ← loaded cur
    let (n, s) := s.mapRemoved m regions
    pure (Json.nat n, s)
  | "region_removed" => some do
    let s ← loaded cur
    let (n, s) := s.regionRemoved (← regionField o "region")
    pure (Json.nat n, s)
  | "hauling.add_all" => some do
    let s ← loaded cur
    let (n, s) := s.addAllHaulables w (← mapField o "map")
    pure (Json.nat n, s)
  | "hauling.add" => some do
    let t ← thingArg w o "thing"
    let s ← loaded cur
    let (b, s) := s.addHaulable w t
    pure (.bool b, s)
  | "hauling.remove" => some do
    let s ← loaded cur
    pure (.null, s.removeHaulable (← entityField o "id"))
  | "hauling.regions" => some do
    let s ← loaded cur
    pure (.arr ((s.regionCache haulableItems).scopes.map regionJson), s)
  | "hauling.in_region" => some do
    let s ← loaded cur
    let r ← regionField o "region"
    pure (.arr (((s.regionCache haulableItems).itemsIn r).map thingJson), s)
  | "harvest.mark" => some do
    let t ← thingArg w o "thing"
    let s ← loaded cur
    let (b, s) := s.markHarvestable w t
    pure (.bool b, s)
  | "harvest.complete" => some do
    let s ← loaded cur
    pure (.null, s.completeHarvest (← entityField o "id"))
  | "harvest.regions" => some do
    let s ← loaded cur
    pure (.arr ((s.regionCache harvestablePlants).scopes.map regionJson), s)
  | "harvest.cells" => some do
    let s ← loaded cur
    let r ← regionField o "region"
    pure (.arr (((s.regionCache harvestablePlants).harvestableCells w r).map cellJson), s)
  | "refuel.mark" => some do
    let t ← thingArg w o "thing"
    let s ← loaded cur
    let (b, s) := s.markRefuelable t
    pure (.bool b, s)
  | "refuel.unmark" => some do
    let t ← thingArg w o "thing"
    let s ← loaded cur
    pure (.null, s.unmarkRefuelable t)
  | "refuel.turrets" => some do
    let s ← loaded cur
    pure (.arr ((s.refuelableTurretsOn (← mapField o "map")).map thingJson), s)
  | "refuel.non_turrets" => some do
    let s ← loaded cur
    pure (.arr ((s.refuelableNonTurretsOn (← mapField o "map")).map thingJson), s)
  | "animals.mark" => some do
    let t ← thingArg w o "thing"
    let s ← loaded cur
    let (b, s) := s.markAnimal t
    pure (.bool b, s)
  | "animals.remove" => some do
    let s ← loaded cur
    pure (.null, s.removeAnimal (← entityField o "id"))
  | "animals.ready" => some do
    let p ← enumField products o "product"
    let s ← loaded cur
    let m ← mapField o "map"
    pure (.arr ((s.animalsReadyFor m p).map thingJson), s)
  | "relations.add" => some do
    let a ← thingArg w o "subject"
    let b ← thingArg w o "related"
    let rs ← match optional o "relations" with
      | some v => (← asArray "relations" v).mapM (named relationKinds "relations")
      | none => pure (w.relationsBetween a.id b.id)
    let s ← loaded cur
    pure (.null, { s with relations := s.relations.addBetween a b rs })
  | "relations.get" => some do
    let a ← entityField o "subject"
    let b ← entityField o "related"
    let s ← loaded cur
    let (rs, c) := s.relations.between a b
    pure (Json.opt relationList rs, { s with relations := c })
  | "relations.clear_between" => some do
    let s ← loaded cur
    let a ← entityField o "a"
    let b ← entityField o "b"
    pure (.null, { s with relations := s.relations.clearBetween a b })
  | "relations.stats" => some do
    let s ← loaded cur
    pure (s.relations.stats.toJson true, s)
  | "bleeding.is_bleeding" => some do
    match optional o "injury" with
    | some v =>
      let i ← literalInjury (membersOf v)
      let s ← loaded cur
      let (b, c) := s.bleeding.isBleeding i
      pure (.bool b, { s with bleeding := c })
    | none =>
      let owner ← entityField o "owner"
      let s ← loaded cur
      let (answers, c) := (w.injuriesOf owner).foldl (fun (acc, c) i =>
        let (b, c) := c.isBleeding i
        (acc ++ [Json.arr [entityJson i.id, .bool b]], c)) ([], s.bleeding)
      pure (.arr answers, { s with bleeding := c })
  | "bleeding.record" => some do
    let s ← loaded cur
    let e ← entityField o "id"
    let age := (← word32 o "age").toUInt32
    pure (.null, { s with bleeding := s.bleeding.recordStopAge e age })
  | "bleeding.remove" => some do
    let s ← loaded cur
    pure (.null, { s with bleeding := s.bleeding.removeCachedAge (← entityField o "id") })
  | "bleeding.stats" => some do
    let s ← loaded cur
    pure (s.bleeding.stats.toJson true, s)
  | "work.get_or_insert" => some do
    let e ← entityField o "id"
    let s ← loaded cur
    let (ks, c) := s.workRestrictions.getOrInsert e fun _ => w.disabledWork e
    pure (workJson ks, { s with workRestrictions := c })
  | "work.get" => some do
    let s ← loaded cur
    pure (Json.opt workJson (s.workRestrictions.get? (← entityField o "id")), s)
  | "work.insert" => some do
    let ks ← enumList workKinds o "kinds"
    let s ← loaded cur
    let e ← entityField o "id"
    pure (.null, { s with workRestrictions := s.workRestrictions.insert e ks })
  | "work.remove" => some do
    let s ← loaded cur
    let (ks, c) := s.workRestrictions.remove (← entityField o "id")
    pure (Json.opt workJson ks, { s with workRestrictions := c })
  | "work.remove_all" => some do
    let es ← idList o "ids"
    let s ← loaded cur
    pure (.null, { s with workRestrictions := s.workRestrictions.removeAll es })
  | "work.len" => some do
    let s ← loaded cur
    pure (Json.nat s.workRestrictions.size, s)
  | "aff.get_or_insert" => some do
    let e ← entityField o "id"
    let t ← enumField affiliations o "tag"
    let s ← loaded cur
    let (f, c) := s.affiliations.getOrInsert e t fun _ => w.affiliation e t
    pure (Json.opt entityJson f, { s with affiliations := c })
  | "aff.get" => some do
    let t ← enumField affiliations o "tag"
    let s ← loaded cur
    let e ← entityField o "id"
    match s.affiliations.get? e t with
    | some f => pure (.obj [("cached", .bool true), ("faction", Json.opt entityJson f)], s)
    | none => pure (.obj [("cached", .bool false)], s)
  | "aff.remove_entries" => some do
    let t ← enumField affiliations o "tag"
    let es ← idList o "ids"
    let s ← loaded cur
    pure (.null, { s with affiliations := s.affiliations.removeEntries t es })
  | "aff.remove_entity" => some do
    let s ← loaded cur
    pure (.null, { s with affiliations := s.affiliations.removeEntity (← entityField o "id") })
  | "aff.len" => some do
    let s ← loaded cur
    pure (Json.nat s.affiliations.size, s)
  | "groups.map_members" => some do
    let es ← idList o "ids"
    let g ← entityField o "group"
    let s ← loaded cur
    pure (.null, { s with groups := s.groups.mapMembers es g })
  | "groups.map_member" => some do
    let s ← loaded cur
    let e ← entityField o "id"
    let g ← entityField o "group"
    let (b, c) := s.groups.mapMember e g
    pure (.bool b, { s with groups := c })
  | "groups.group_of" => some do
    let s ← loaded cur
    pure (Json.opt entityJson (s.groups.groupOf (← entityField o "id")), s)
  | "groups.remove_member" => some do
    let s ← loaded cur
    let e ← entityField o "id"
    let g ← entityField o "group"
    pure (.null, { s with groups := s.groups.removeMember e g })
  | "groups.remove_group" => some do
    let s ← loaded cur
    pure (.null, { s with groups := s.groups.removeGroup (← entityField o "group") })
  | "groups.len" => some do
    let s ← loaded cur
    pure (Json.nat s.groups.size, s)
  | "summaries.get_or_compute" => some do
    let v ← summaryOf o
    let m ← mapField o "map"
    let s ← loaded cur
    let (r, c) := s.mapSummaries.getOrCompute m fun _ => v
    pure (.obj [("value", summaryJson r), ("computed_this_tick", Json.nat c.computedThisTick)],
      { s with mapSummaries := c })
  | "summaries.get" => some do
    let s ← loaded cur
    pure (Json.opt summaryJson (s.mapSummaries.get? (← mapField o "map")), s)
  | "summaries.len" => some do
    let s ← loaded cur
    pure (Json.nat s.mapSummaries.size, s)
  | "components.quality_of" => some do
    let s ← loaded cur
    let (q, c) := s.components.qualityOf (← entityField o "id") w
    pure (Json.opt (enumJson qualities) q, { s with components := c })
  | "components.wants_to_be_on" => some do
    let s ← loaded cur
    let (b, c) := s.components.wantsToBeOn (← entityField o "id") w
    pure (.bool b, { s with components := c })
  | "components.is_broken_down" => some do
    let s ← loaded cur
    let (b, c) := s.components.isBrokenDown (← entityField o "id") w
    pure (.bool b, { s with components := c })
  | "components.forget" => some do
    let s ← loaded cur
    pure (.null, { s with components := s.components.forget (← entityField o "id") })
  | "components.len" => some do
    let s ← loaded cur
    pure (Json.nat s.components.size, s)
  | "area" => some do
    let s ← loaded cur
    let (a, s) := s.effectiveAreaRestriction w (← entityField o "id")
    pure (Json.opt areaJson a, s)
  | "immunizable" => some do
    let s ← loaded cur
    pure (.bool (s.immunizable.contains (← enumField ailments o "ailment")), s)
  | "generation" => some do
    let s ← loaded cur
    pure (Json.nat s.generation, s)
  | "ticks" => some do
    let s ← loaded cur
    pure (Json.nat s.ticks, s)
  | "stats" => some do
    let s ← loaded cur
    pure (s.stats.toJson, s)
  | _ => none

/-- Reads a kept handle, which finds empty caches once its session has ended. -/
def keptStep (b : Bench) (o : Obj) (op : String) : Option (Outcome Json) :=
  let read (f : Session → Outcome Json) : Outcome Json :=
    match b.kept with
    | none => .error ⟨"NoHandles", "keep_handles was not called"⟩
    | some g => f ((b.host.live g).getD (Session.new b.host.config g))
  match op with
  | "kept.hauling_regions" => some (read fun s =>
      pure (.arr ((s.regionCache haulableItems).scopes.map regionJson)))
  | "kept.harvest_regions" => some (read fun s =>
      pure (.arr ((s.regionCache harvestablePlants).scopes.map regionJson)))
  | "kept.refuel_turrets" => some (read fun s => do
      pure (.arr ((s.refuelableTurretsOn (← mapField o "map")).map thingJson)))
  | _ => none

def benchStep (b : Bench) (o : Obj) (op : String) : Outcome (Json × Bench) :=
  match worldStep b.world o op with
  | some r => do
    let (j, w) ← r
    pure (j, { b with world := w })
  | none =>
  match op with
  | "load" =>
    let host := b.host.load
    pure (Json.nat host.generation, { b with host })
  | "unload" =>
    let (st, host) := b.host.unload
    pure (Json.opt SessionStats.toJson st, { b with host })
  | "keep_handles" =>
    match b.host.current with
    | some s => pure (.null, { b with kept := some s.generation })
    | none => noSession
  | _ =>
  match keptStep b o op with
  | some r => do pure (← r, b)
  | none =>
  match sessionStep b.world b.host.current o op with
  | some r => do
    let (j, s) ← r
    pure (j, { b with host := { b.host with current := some s } })
  | none => unknownStep op

/-- Answers a request of session steps, with the counts of the session ended at the end. -/
def runSession (o : Obj) : Outcome Json := do
  let config ← configOf o
  let steps ← array o "steps"
  let bench : Bench := ⟨{}, (SessionHost.new config).load, none⟩
  let (answers, bench) := runSteps steps bench fun b o op => do
    let (r, b) ← benchStep b o op
    pure (.obj [("result", r)], b)
  let (final, _) := bench.host.unload
  pure (.obj [("steps", .arr answers), ("final_stats", Json.opt SessionStats.toJson final)])

end ColonyCache.Request
