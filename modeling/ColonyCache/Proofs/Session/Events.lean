import ColonyCache.Proofs.Scoped.Refinement
import ColonyCache.Proofs.Session.Reachable
/-! What the three session events do to a session, and that they leave everything else as it was. -/
namespace ColonyCache

open Std

namespace Filing

variable {σ κ ι : Type} [DecidableEq κ] [Keyed ι κ]

/-- The filing without key `k`: no owner for it, and no item of it in any scope. -/
def purge (m : Filing σ κ ι) (k : κ) : Filing σ κ ι :=
  ⟨Function.update m.scopeOf k none, fun s => (m.items s).filter (Keyed.key · != k)⟩

end Filing

namespace ScopedCache

variable {σ κ ι : Type} [Ord σ] [TransOrd σ] [LawfulEqOrd σ] [DecidableEq σ] [DecidableEq κ]
  [Hashable κ] [Keyed ι κ] {c : ScopedCache σ κ ι}

theorem itemsIn_remove_eq_filter (hc : c.Inv) (k : κ) (t : σ) :
    (c.remove k).2.itemsIn t = (c.itemsIn t).filter (Keyed.key · != k) := by
  cases hk : c.owner[k]? with
  | none =>
    rw [remove_of_untracked hk, List.filter_eq_self.mpr]
    intro x hx
    simpa using hc.key_ne_of_untracked hk hx
  | some s =>
    rw [itemsIn_remove hc hk]
    by_cases hst : s = t
    · rw [if_pos hst, hst]
    · rw [if_neg hst, List.filter_eq_self.mpr]
      -- the items of another scope are owned there, so none of them carries the key
      intro x hx
      have hne : Keyed.key x ≠ k := by
        intro he
        have hown := hc.owner_of_mem hx
        rw [he, hk] at hown
        exact hst (Option.some.inj hown)
      simpa using hne

theorem filing_remove (hc : c.Inv) (k : κ) : (c.remove k).2.filing = c.filing.purge k := by
  simp only [filing, Filing.purge, Filing.mk.injEq]
  exact ⟨scopeOf_remove k, funext (itemsIn_remove_eq_filter hc k)⟩

omit [TransOrd σ] [LawfulEqOrd σ] [DecidableEq σ] in
theorem remove_remove (k : κ) : ((c.remove k).2.remove k).2 = (c.remove k).2 := by
  have hk : (c.remove k).2.owner[k]? = none := by
    rw [← scopeOf_eq, scopeOf_remove, Function.update_self]
  rw [remove_of_untracked hk]

end ScopedCache

namespace Registry

section Filings

variable {σ κ ι : Type} [Ord σ] [DecidableEq κ] [Hashable κ] [Keyed ι κ]

/-- The filing of each named cache, names in the order of their making. -/
def filings (r : Registry (ScopedCache σ κ ι)) : List (String × Filing σ κ ι) :=
  r.entries.map fun p => (p.1, p.2.filing)

variable [TransOrd σ] [LawfulEqOrd σ] [DecidableEq σ] {r : Registry (ScopedCache σ κ ι)}

theorem filings_removeItem (hr : r.Inv) (k : κ) :
    (r.removeItem k).filings = r.filings.map fun p => (p.1, p.2.purge k) := by
  simp only [filings, removeItem, mapAll, List.map_map]
  refine List.map_congr_left fun p hp => ?_
  simp only [Function.comp_apply, ScopedCache.filing_remove (hr p hp) k]

omit [TransOrd σ] [LawfulEqOrd σ] [DecidableEq σ] in
theorem modify_remove_removeItem (hn : r.names.Nodup) (k : κ) (name : String) :
    ((r.removeItem k).modify name fun c => ((), (c.remove k).2)).2 = r.removeItem k := by
  have hn' : (r.removeItem k).names.Nodup := by rw [removeItem, names_mapAll]; exact hn
  refine modify_eq_self hn' name fun p hp => ?_
  obtain ⟨q, -, rfl⟩ := List.mem_map.mp hp
  exact ScopedCache.remove_remove k

end Filings

end Registry

namespace EntityCache

variable {α : Type}

theorem get?_remove (c : EntityCache α) (e : EntityId) :
    (c.remove e).2.get? = Function.update c.get? e none := by
  have hget : ∀ d : EntityCache α, d.get? = fun k => d.values[k]? :=
    fun d => funext fun _ => HashMap.get?_eq_getElem?
  rw [hget, hget]
  exact getElem?_erase_eq_update c.values e

end EntityCache

namespace GroupCache

variable {γ : Type}

theorem groupOf_removeEntity (c : GroupCache γ) (e : EntityId) :
    (c.removeEntity e).groupOf = Function.update c.groupOf e none := by
  have hgroup : ∀ d : GroupCache γ, d.groupOf = fun k => d.groups[k]? :=
    fun d => funext fun _ => HashMap.get?_eq_getElem?
  rw [hgroup, hgroup]
  exact getElem?_erase_eq_update c.groups e

end GroupCache

namespace TaggedCache

variable {α : Type}

theorem getElem?_foldl_erase (v : HashMap (EntityId × Affiliation) α) (e k : EntityId)
    (ts : List Affiliation) (t : Affiliation) :
    (ts.foldl (fun m t => m.erase (e, t)) v)[(k, t)]? = if k = e ∧ t ∈ ts then none else v[(k, t)]? := by
  induction ts generalizing v with
  | nil => simp
  | cons u ts ih =>
    rw [List.foldl_cons, ih, HashMap.getElem?_erase]
    by_cases hk : k = e
    · subst hk
      by_cases hu : u = t
      · simp [hu]
      · simp [hu, Ne.symm hu]
    · simp [hk, Ne.symm hk]

theorem get?_removeEntity (c : TaggedCache Affiliation α) (e : EntityId) (t : Affiliation) :
    (fun k => (c.removeEntity e).get? k t) = Function.update (fun k => c.get? k t) e none := by
  funext k
  -- the standings erased are all the standings there are
  have ht : t ∈ (TagSet.all : List Affiliation) := by cases t <;> decide
  simp only [get?, removeEntity, HashMap.get?_eq_getElem?, getElem?_foldl_erase, ht, and_true]
  by_cases hk : k = e <;> simp [hk]

end TaggedCache

namespace ComponentService

/-- The kept slots of one kind of component. -/
def slotsFor (s : ComponentService) : ComponentKind → ComponentSlots
  | .quality => s.quality
  | .powerSwitch => s.powerSwitch
  | .schedule => s.schedule
  | .breakdown => s.breakdown

theorem slotsFor_forget (s : ComponentService) (e : EntityId) (k : ComponentKind) :
    (s.forget e).slotsFor k = (s.slotsFor k).remove e := by
  cases k <;> rfl

end ComponentService

namespace Session

variable {s : Session}

theorem removeAnimal_of_removeItem (hn : s.mapCaches.names.Nodup) (e : EntityId) :
    ({ s with mapCaches := s.mapCaches.removeItem e } : Session).removeAnimal e =
      { s with mapCaches := s.mapCaches.removeItem e } := by
  show { s with mapCaches := ((s.mapCaches.removeItem e).modify colonyAnimals
    fun c => ((), (c.remove e).2)).2 } = _
  rw [Registry.modify_remove_removeItem hn]

theorem entityRemoved_eq (hs : s.Coherent) (e : EntityId) :
    s.entityRemoved e = { s with
      regionCaches := s.regionCaches.removeItem e
      mapCaches := s.mapCaches.removeItem e
      workRestrictions := (s.workRestrictions.remove e).2
      affiliations := s.affiliations.removeEntity e
      groups := s.groups.removeEntity e
      areaRestrictions := (s.areaRestrictions.remove e).2 } := by
  have hn : s.mapCaches.names.Nodup := by rw [hs.mapNames]; decide
  have hl : s.bus.listenersOf (Event.entityRemoved e).kind = [.regionCaches, .mapCaches,
      .colonyAnimals, .workRestrictions, .affiliations, .groups, .areaRestrictions] := by
    rw [hs.bus]; rfl
  -- the animals' listener hears the event after the map caches have forgotten the thing
  let s₀ : Session := { s with regionCaches := s.regionCaches.removeItem e }
  let s₁ : Session := { s₀ with mapCaches := s.mapCaches.removeItem e }
  have hn₀ : s₀.mapCaches.names.Nodup := hn
  have hanimal : s₁.removeAnimal e = s₁ := removeAnimal_of_removeItem hn₀ e
  rw [entityRemoved, notify, EventBus.deliver, hl]
  show ((s₁.removeAnimal e).hear .workRestrictions (.entityRemoved e)
    |>.hear .affiliations (.entityRemoved e) |>.hear .groups (.entityRemoved e)
    |>.hear .areaRestrictions (.entityRemoved e)) = _
  rw [hanimal]
  rfl

theorem spatialItemRemoved_eq (hb : s.bus = Listener.wiring) (e : EntityId) :
    s.spatialItemRemoved e = { s with
      regionCaches := s.regionCaches.removeItem e
      mapCaches := s.mapCaches.removeItem e
      components := s.components.forget e } := by
  have hl : s.bus.listenersOf (Event.spatialItemRemoved e).kind =
      [.regionCaches, .mapCaches, .components] := by
    rw [hb]; rfl
  rw [spatialItemRemoved, notify, EventBus.deliver, hl]
  rfl

theorem tickStarted_eq (hb : s.bus = Listener.wiring) :
    s.tickStarted = { s with ticks := s.ticks + 1, mapSummaries := {}, areaRestrictions := {} } := by
  have hl : s.bus.listenersOf Event.tickBoundary.kind = [.mapSummaries, .areaRestrictions] := by
    rw [hb]; rfl
  rw [tickStarted, notify, EventBus.deliver]
  rw [hl]
  rfl

/-- Hearing that `e` left the world: it is purged from the registries, the work restrictions, the
affiliations, the groups and the area restrictions, and nothing else changes. -/
structure EntityPurged (s s' : Session) (e : EntityId) : Prop where
  regionCaches : s'.regionCaches.filings = s.regionCaches.filings.map fun p => (p.1, p.2.purge e)
  mapCaches : s'.mapCaches.filings = s.mapCaches.filings.map fun p => (p.1, p.2.purge e)
  workRestrictions : s'.workRestrictions.get? = Function.update s.workRestrictions.get? e none
  affiliations : ∀ t, (fun k => s'.affiliations.get? k t) =
    Function.update (fun k => s.affiliations.get? k t) e none
  groups : s'.groups.groupOf = Function.update s.groups.groupOf e none
  areaRestrictions : s'.areaRestrictions.get? = Function.update s.areaRestrictions.get? e none
  others : { s' with
    regionCaches := s.regionCaches
    mapCaches := s.mapCaches
    workRestrictions := s.workRestrictions
    affiliations := s.affiliations
    groups := s.groups
    areaRestrictions := s.areaRestrictions } = s

/-- Hearing that `e` left its cell: it is purged from the registries and the component slots,
and nothing else changes. -/
structure SpatialItemPurged (s s' : Session) (e : EntityId) : Prop where
  regionCaches : s'.regionCaches.filings = s.regionCaches.filings.map fun p => (p.1, p.2.purge e)
  mapCaches : s'.mapCaches.filings = s.mapCaches.filings.map fun p => (p.1, p.2.purge e)
  components : ∀ k, (s'.components.slotsFor k).kind = (s.components.slotsFor k).kind ∧
    (s'.components.slotsFor k).slots.get? = Function.update (s.components.slotsFor k).slots.get? e none
  others : { s' with
    regionCaches := s.regionCaches
    mapCaches := s.mapCaches
    components := s.components } = s

/-- The start of a tick: counted, with the map summaries and area restrictions emptied. -/
structure TickReset (s s' : Session) : Prop where
  ticks : s'.ticks = s.ticks + 1
  mapSummaries : ∀ m, s'.mapSummaries.get? m = none
  computedThisTick : s'.mapSummaries.computedThisTick = 0
  areaRestrictions : ∀ k, s'.areaRestrictions.get? k = none
  others : { s' with
    ticks := s.ticks
    mapSummaries := s.mapSummaries
    areaRestrictions := s.areaRestrictions } = s

theorem Coherent.entityPurged (hs : s.Coherent) (e : EntityId) :
    EntityPurged s (s.entityRemoved e) e := by
  rw [entityRemoved_eq hs e]
  exact ⟨Registry.filings_removeItem hs.regionInv e, Registry.filings_removeItem hs.mapInv e,
    EntityCache.get?_remove _ e, TaggedCache.get?_removeEntity _ e,
    GroupCache.groupOf_removeEntity _ e, EntityCache.get?_remove _ e, rfl⟩

theorem Coherent.spatialItemPurged (hs : s.Coherent) (e : EntityId) :
    SpatialItemPurged s (s.spatialItemRemoved e) e := by
  rw [spatialItemRemoved_eq hs.bus e]
  refine ⟨Registry.filings_removeItem hs.regionInv e, Registry.filings_removeItem hs.mapInv e,
    fun k => ?_, rfl⟩
  rw [ComponentService.slotsFor_forget]
  exact ⟨rfl, EntityCache.get?_remove _ e⟩

theorem tickReset (hb : s.bus = Listener.wiring) : TickReset s s.tickStarted := by
  rw [tickStarted_eq hb]
  refine ⟨rfl, fun m => ?_, rfl, fun k => ?_, rfl⟩
  · simp [TickScopedCache.get?]
  · simp [EntityCache.get?]

end Session


open Session in
/-- In every reachable session each event changes exactly what it should and nothing else. -/
theorem session_events_frame {s : Session} (hs : s.Reachable) (e : EntityId) :
    EntityPurged s (s.entityRemoved e) e ∧ SpatialItemPurged s (s.spatialItemRemoved e) e ∧
      TickReset s s.tickStarted :=
  ⟨hs.coherent.entityPurged e, hs.coherent.spatialItemPurged e, tickReset hs.coherent.bus⟩

theorem animal_session_events_frame :
    let s := ((Session.new Config.default 1).markAnimal ⟨⟨42⟩, .animal .milk, ⟨1⟩, ⟨0, 0⟩⟩).2
    s.Reachable ∧ Session.EntityPurged s (s.entityRemoved ⟨42⟩) ⟨42⟩ ∧
      Session.SpatialItemPurged s (s.spatialItemRemoved ⟨42⟩) ⟨42⟩ ∧
      Session.TickReset s s.tickStarted :=
  ⟨.markAnimal _ (.new _ _), session_events_frame (.markAnimal _ (.new _ _)) ⟨42⟩⟩

end ColonyCache
