import ColonyCache.Proofs.Scoped.Refinement
import ColonyCache.Proofs.Session.Events
import ColonyCache.Proofs.World.Things
/-! Where each named cache of a session files a thing after each request the session hears. -/
namespace ColonyCache

open Std

namespace ScopedCache

variable {σ κ ι : Type} [Ord σ] [TransOrd σ] [LawfulEqOrd σ] [DecidableEq σ] [DecidableEq κ]
  [Hashable κ] [Keyed ι κ] {c : ScopedCache σ κ ι}

theorem scopeOf_insertInto (x : ι) (s : σ) (k : κ) :
    (c.insertInto x s).2.scopeOf k =
      if k = Keyed.key x ∧ c.scopeOf k = none then some s else c.scopeOf k := by
  have h := congrArg (fun p => p.2.scopeOf k) (insertInto_filing (c := c) x s)
  refine h.trans ?_
  simp only [Filing.insertInto]
  by_cases hk : k = Keyed.key x
  · subst hk
    cases hs : c.scopeOf (Keyed.key x) <;> simp [filing, hs, Filing.file]
  · split <;> simp [filing, Filing.file, hk]

theorem scopeOf_add (resolve : ι → Option σ) (x : ι) (k : κ) :
    (c.add resolve x).2.scopeOf k =
      if k = Keyed.key x ∧ c.scopeOf k = none then resolve x else c.scopeOf k := by
  have h := congrArg (fun p => p.2.scopeOf k) (add_filing (c := c) resolve x)
  refine h.trans ?_
  simp only [Filing.add]
  by_cases hk : k = Keyed.key x
  · subst hk
    cases hs : c.scopeOf (Keyed.key x) with
    | some s => simp [filing, hs]
    | none =>
      -- an untracked key takes the resolver's answer, or stays untracked when there is none
      cases hr : resolve x <;> simp [filing, hs, Filing.file]
  · split
    · simp [filing, hk]
    · split <;> simp [filing, Filing.file, hk]

theorem scopeOf_relocate (hc : c.Inv) (resolve : ι → Option σ) (k k' : κ) :
    (c.relocate resolve k).2.scopeOf k' =
      if k' = k then (c.get k).bind resolve else c.scopeOf k' := by
  have h := congrArg (fun p => p.2.scopeOf k') (relocate_filing hc resolve k)
  refine h.trans ?_
  rw [Filing.relocate, filing_stored]
  cases hs : c.scopeOf k with
  | none =>
    -- an untracked key is found nowhere, so relocating it changes nothing
    have hown : c.owner.get? k = none := hs
    have hg : c.get k = none := by unfold get; rw [hown]; rfl
    rw [hg]
    by_cases h' : k' = k
    · subst h'; simp [filing, hs]
    · simp [filing, h']
  | some s₀ =>
    obtain ⟨x, hx⟩ := Option.isSome_iff_exists.mp (hc.found_of_scopeOf hs).2.1
    have hkx : Keyed.key x = k := key_of_get hx
    rw [hx]
    dsimp only
    cases hr : resolve x with
    | none => simp [filing, Filing.forget, hs, hr, Function.update_apply]
    | some s => simp [filing, Filing.forget, Filing.file, hs, hr, hkx, Function.update_apply]

omit [TransOrd σ] [LawfulEqOrd σ] [DecidableEq σ] in
theorem Inv.isSome_get (hc : c.Inv) (k : κ) : (c.get k).isSome = (c.scopeOf k).isSome := by
  cases hs : c.scopeOf k with
  | none =>
    have hown : c.owner.get? k = none := hs
    show ((c.owner.get? k).bind _).isSome = false
    rw [hown]
    rfl
  | some s => exact (hc.found_of_scopeOf hs).2.1

theorem scopeOf_removeScope (hc : c.Inv) (s : σ) (k : κ) :
    (c.removeScope s).2.scopeOf k = if c.scopeOf k = some s then none else c.scopeOf k :=
  congrArg (fun p => p.2.scopeOf k) (removeScope_filing hc s)

omit [TransOrd σ] [LawfulEqOrd σ] [DecidableEq σ] in
theorem scopeOf_remove_apply (e k : κ) :
    (c.remove e).2.scopeOf k = if k = e then none else c.scopeOf k := by
  rw [scopeOf_remove, Function.update_apply]

omit [TransOrd σ] [LawfulEqOrd σ] [DecidableEq σ] [Keyed ι κ] in
theorem scopeOf_empty (k : κ) : (ScopedCache.empty : ScopedCache σ κ ι).scopeOf k = none := by
  rw [scopeOf_eq]
  exact HashMap.getElem?_empty

omit [TransOrd σ] [LawfulEqOrd σ] [DecidableEq σ] in
theorem remove_empty (k : κ) :
    (ScopedCache.empty : ScopedCache σ κ ι).remove k = (none, ScopedCache.empty) :=
  remove_of_untracked (by rw [← scopeOf_eq]; exact scopeOf_empty k)

end ScopedCache

namespace Registry

variable {γ : Type}

theorem isSome_get?_iff (r : Registry γ) (n : String) : (r.get? n).isSome ↔ n ∈ r.names := by
  simp [get?, names, List.find?_isSome]

theorem get?_modify {α : Type} (r : Registry γ) (name : String) (f : γ → α × γ) (n : String) :
    (r.modify name f).2.get? n = if n = name then (r.get? n).map fun c => (f c).2 else r.get? n := by
  unfold modify
  split
  · next hc =>
    split
    · next h => subst h; rw [hc]; rfl
    · rfl
  · next c hc =>
    simp only [get?, List.find?_map, Option.map_map]
    -- renaming nothing, the change keeps which entry a name finds
    have hp : ((fun p : String × γ => p.1 == n) ∘
        fun p : String × γ => if p.1 = name then (p.1, (f c).2) else (p.1, p.2)) =
        fun p : String × γ => p.1 == n := by
      funext p
      simp only [Function.comp_apply]
      split <;> rfl
    simp only [beq_iff_eq] at hp ⊢
    rw [hp]
    cases hfind : r.entries.find? (·.1 == n) with
    | none => split <;> rfl
    | some p =>
      have hpn : p.1 = n := by simpa using List.find?_some hfind
      split
      · next h =>
        subst h
        have hpc : p.2 = c := by simpa [get?, hfind] using hc
        simp [hpn, hpc]
      · next h => simp [hpn, h]

variable {σ κ ι : Type} [Ord σ] [DecidableEq κ] [Hashable κ]

theorem getD_mapAll {f : ScopedCache σ κ ι → ScopedCache σ κ ι} (hf : f {} = {})
    (r : Registry (ScopedCache σ κ ι)) (n : String) :
    ((r.mapAll f).get? n).getD {} = f ((r.get? n).getD {}) := by
  rw [get?_mapAll]
  cases r.get? n with
  | none => exact hf.symm
  | some c => rfl

end Registry

@[simp] theorem Thing.key_eq (t : Thing) : Keyed.key t = t.id := rfl

namespace World

/-- Whether filing for harvest takes `t`: a crop anywhere, another plant only in a grow zone. -/
def harvestable (w : World) (t : Thing) : Bool :=
  match t.kind with
  | .plant species => PlantSpecies.cultivars.contains species || w.inGrowZone t.map t.cell
  | _ => false

theorem regionOf_eq (w : World) (t : Thing) :
    w.regionOf t = (w.thing? t.id).bind fun cur => w.regionAt cur.map cur.cell := rfl

end World

namespace RegionThings

theorem markHarvestable_eq (c : RegionThings) (w : World) (t : Thing) :
    c.markHarvestable w t = if w.harvestable t then c.add w.regionOf t else (false, c) := by
  obtain ⟨e, k, m, cell⟩ := t
  cases k <;> rfl

theorem scopeOf_markHarvestable (c : RegionThings) (w : World) (t : Thing) (e : EntityId) :
    (c.markHarvestable w t).2.scopeOf e =
      if w.harvestable t ∧ e = t.id ∧ c.scopeOf e = none then w.regionOf t else c.scopeOf e := by
  rw [markHarvestable_eq]
  split
  · next h => rw [ScopedCache.scopeOf_add]; simp [h]
  · next h => simp [h]

theorem scopeOf_addAllItems (c : RegionThings) (w : World) (m : MapId) (e : EntityId) :
    (c.addAllItems w m).2.scopeOf e =
      if c.scopeOf e = none ∧ ∃ t ∈ w.thingsOn m, t.kind = .item ∧ t.id = e then
        (w.thing? e).bind fun cur => w.regionAt cur.map cur.cell
      else c.scopeOf e := by
  unfold addAllItems
  generalize w.thingsOn m = ts
  -- the fold files the things one by one; only the first item with the key can file it
  suffices h : ∀ p : Nat × RegionThings, (ts.foldl (fun (acc : Nat × RegionThings) t =>
      if t.kind == .item then
        ((if (acc.2.add w.regionOf t).1 then acc.1 + 1 else acc.1), (acc.2.add w.regionOf t).2)
      else acc) p).2.scopeOf e =
      if p.2.scopeOf e = none ∧ ∃ t ∈ ts, t.kind = .item ∧ t.id = e then
        (w.thing? e).bind fun cur => w.regionAt cur.map cur.cell
      else p.2.scopeOf e from h (0, c)
  induction ts with
  | nil => intro p; simp
  | cons t ts ih =>
    intro p
    rw [List.foldl_cons, ih]
    obtain ⟨n, c⟩ := p
    by_cases hk : t.kind = .item
    · have hk' : (t.kind == ThingKind.item) = true := by simp [hk]
      simp only [hk', if_true, ScopedCache.scopeOf_add, Thing.key_eq]
      by_cases he : e = t.id
      · subst he
        cases hc : c.scopeOf t.id with
        | none => by_cases hr : w.regionOf t = none <;> simp [hk, hr, ← World.regionOf_eq]
        | some r => simp
      · have hne : t.id ≠ e := Ne.symm he
        simp [he, hne]
    · have hk' : (t.kind == ThingKind.item) = false := by simp [hk]
      simp [hk', hk]

end RegionThings

namespace MapThings

theorem scopeOf_mark (c : MapThings) (t : Thing) (e : EntityId) :
    (c.mark t).2.scopeOf e = if e = t.id ∧ c.scopeOf e = none then some t.map else c.scopeOf e :=
  ScopedCache.scopeOf_insertInto t t.map e

theorem scopeOf_markAnimal (c : MapThings) (t : Thing) (e : EntityId) :
    (c.markAnimal t).2.scopeOf e =
      if t.kind.isAnimal ∧ e = t.id ∧ c.scopeOf e = none then some t.map else c.scopeOf e := by
  unfold markAnimal
  split
  · next h => rw [ScopedCache.scopeOf_insertInto]; simp [h]
  · next h => simp [h]

end MapThings

namespace ScopedCache

variable {σ κ ι : Type} [Ord σ] [DecidableEq κ] [Hashable κ] [Keyed ι κ]

theorem relocate_empty (resolve : ι → Option σ) (k : κ) :
    (ScopedCache.empty : ScopedCache σ κ ι).relocate resolve k = (none, ScopedCache.empty) := by
  have h : (ScopedCache.empty : ScopedCache σ κ ι).owner.contains k = false :=
    HashMap.contains_empty
  simp only [relocate, h]
  rfl

theorem removeScope_empty (s : σ) :
    (ScopedCache.empty : ScopedCache σ κ ι).removeScope s = (0, ScopedCache.empty) := by
  have h : (ScopedCache.empty : ScopedCache σ κ ι).buckets.get? s = none := rfl
  simp only [removeScope, h]

end ScopedCache

namespace Session

variable {s : Session}

theorem regionCache_withRegionCache {α : Type} {name : String}
    (hn : (s.regionCaches.get? name).isSome) (dflt : α) (f : RegionThings → α × RegionThings)
    (n : String) :
    (s.withRegionCache name dflt f).2.regionCache n =
      if n = name then (f (s.regionCache n)).2 else s.regionCache n := by
  show ((s.regionCaches.modify name f).2.get? n).getD {} = _
  rw [Registry.get?_modify]
  split
  · next h =>
    subst h
    obtain ⟨c, hc⟩ := Option.isSome_iff_exists.mp hn
    simp [regionCache, hc]
  · rfl

theorem mapCache_withMapCache {α : Type} {name : String}
    (hn : (s.mapCaches.get? name).isSome) (dflt : α) (f : MapThings → α × MapThings)
    (n : String) :
    (s.withMapCache name dflt f).2.mapCache n =
      if n = name then (f (s.mapCache n)).2 else s.mapCache n := by
  show ((s.mapCaches.modify name f).2.get? n).getD {} = _
  rw [Registry.get?_modify]
  split
  · next h =>
    subst h
    obtain ⟨c, hc⟩ := Option.isSome_iff_exists.mp hn
    simp [mapCache, hc]
  · rfl

theorem Coherent.regionRegistered (hs : s.Coherent) {n : String}
    (h : n ∈ [haulableItems, harvestablePlants]) : (s.regionCaches.get? n).isSome := by
  rw [Registry.isSome_get?_iff, hs.regionNames]
  exact h

theorem Coherent.mapRegistered (hs : s.Coherent) {n : String}
    (h : n ∈ [refuelableTurrets, refuelableNonTurrets, colonyAnimals]) :
    (s.mapCaches.get? n).isSome := by
  rw [Registry.isSome_get?_iff, hs.mapNames]
  exact h

theorem regionCache_entityRemoved (hs : s.Coherent) (e : EntityId) (n : String) :
    (s.entityRemoved e).regionCache n = ((s.regionCache n).remove e).2 := by
  rw [entityRemoved_eq hs]
  exact Registry.getD_mapAll (congrArg Prod.snd (ScopedCache.remove_empty e)) _ n

theorem mapCache_entityRemoved (hs : s.Coherent) (e : EntityId) (n : String) :
    (s.entityRemoved e).mapCache n = ((s.mapCache n).remove e).2 := by
  rw [entityRemoved_eq hs]
  exact Registry.getD_mapAll (congrArg Prod.snd (ScopedCache.remove_empty e)) _ n

theorem regionCache_spatialItemRemoved (hs : s.Coherent) (e : EntityId) (n : String) :
    (s.spatialItemRemoved e).regionCache n = ((s.regionCache n).remove e).2 := by
  rw [spatialItemRemoved_eq hs.bus]
  exact Registry.getD_mapAll (congrArg Prod.snd (ScopedCache.remove_empty e)) _ n

theorem mapCache_spatialItemRemoved (hs : s.Coherent) (e : EntityId) (n : String) :
    (s.spatialItemRemoved e).mapCache n = ((s.mapCache n).remove e).2 := by
  rw [spatialItemRemoved_eq hs.bus]
  exact Registry.getD_mapAll (congrArg Prod.snd (ScopedCache.remove_empty e)) _ n

theorem regionCache_itemMoved (w : World) (e : EntityId) (n : String) :
    (s.itemMoved w e).regionCache n = ((s.regionCache n).relocate w.regionOf e).2 :=
  Registry.getD_mapAll (congrArg Prod.snd (ScopedCache.relocate_empty w.regionOf e)) _ n

theorem mapCache_itemMoved (w : World) (e : EntityId) (n : String) :
    (s.itemMoved w e).mapCache n = s.mapCache n := rfl

theorem mapCache_mapRemoved (m : MapId) (regions : List RegionId) (n : String) :
    (s.mapRemoved m regions).2.mapCache n = ((s.mapCache n).removeScope m).2 := by
  rw [mapRemoved_snd]
  show (((s.mapCaches.removeScope m).2.get? n).getD {}) = _
  rw [Registry.removeScope, Registry.sumAll_snd]
  exact Registry.getD_mapAll (congrArg Prod.snd (ScopedCache.removeScope_empty m)) _ n

theorem regionCache_mapRemoved (m : MapId) (regions : List RegionId) (n : String) :
    (s.mapRemoved m regions).2.regionCache n =
      regions.foldl (fun c r => (c.removeScope r).2) (s.regionCache n) := by
  rw [mapRemoved_snd]
  unfold regionCache
  dsimp only
  generalize s.regionCaches = reg
  induction regions generalizing reg with
  | nil => rfl
  | cons r rs ih =>
    rw [List.foldl_cons, ih, List.foldl_cons, Registry.removeScope, Registry.sumAll_snd,
      Registry.getD_mapAll (congrArg Prod.snd (ScopedCache.removeScope_empty r))]

theorem regionCache_tickStarted (hs : s.Coherent) (n : String) :
    s.tickStarted.regionCache n = s.regionCache n := by
  rw [tickStarted_eq hs.bus]
  rfl

theorem mapCache_tickStarted (hs : s.Coherent) (n : String) :
    s.tickStarted.mapCache n = s.mapCache n := by
  rw [tickStarted_eq hs.bus]
  rfl

end Session

end ColonyCache
