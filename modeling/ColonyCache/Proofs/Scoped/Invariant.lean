import Std.Data.TreeMap.Lemmas
import Std.Data.HashMap.Lemmas
import Mathlib
import ColonyCache.Scoped.Basic
import ColonyCache.World.Thing
/-! The scoped cache keeps its buckets and its owners in step along every run of requests. -/
namespace ColonyCache

open Std

instance : TransOrd RegionId where
  eq_swap {a b} := @OrientedCmp.eq_swap UInt32 compare _ a.val b.val
  isLE_trans {a b c} := @TransCmp.isLE_trans UInt32 compare _ a.val b.val c.val

instance : LawfulEqOrd RegionId where
  compare_self {a} := @ReflCmp.compare_self UInt32 compare _ a.val
  eq_of_compare {a b} h := congrArg RegionId.mk (@LawfulEqCmp.eq_of_compare UInt32 compare _ a.val b.val h)

instance : TransOrd MapId where
  eq_swap {a b} := @OrientedCmp.eq_swap UInt32 compare _ a.val b.val
  isLE_trans {a b c} := @TransCmp.isLE_trans UInt32 compare _ a.val b.val c.val

instance : LawfulEqOrd MapId where
  compare_self {a} := @ReflCmp.compare_self UInt32 compare _ a.val
  eq_of_compare {a b} h := congrArg MapId.mk (@LawfulEqCmp.eq_of_compare UInt32 compare _ a.val b.val h)

/-- A request that may change a scoped cache; each filing names the resolver it asks. -/
inductive ScopedOp (σ κ ι : Type) where
  | add (resolve : ι → Option σ) (x : ι)
  | insertInto (x : ι) (s : σ)
  | relocate (resolve : ι → Option σ) (k : κ)
  | remove (k : κ)
  | removeScope (s : σ)
  | clear

/-- The answer of a scoped cache to a request. -/
inductive ScopedReply (σ ι : Type) where
  | filed (b : Bool)
  | moved (s : Option σ)
  | removed (x : Option ι)
  | dropped (n : Nat)
  | done

namespace ScopedCache

variable {σ κ ι : Type} [Ord σ] [DecidableEq κ] [Hashable κ] [Keyed ι κ]

def perform (c : ScopedCache σ κ ι) : ScopedOp σ κ ι → ScopedReply σ ι × ScopedCache σ κ ι
  | .add resolve x => let (b, c) := c.add resolve x; (.filed b, c)
  | .insertInto x s => let (b, c) := c.insertInto x s; (.filed b, c)
  | .relocate resolve k => let (s, c) := c.relocate resolve k; (.moved s, c)
  | .remove k => let (x, c) := c.remove k; (.removed x, c)
  | .removeScope s => let (n, c) := c.removeScope s; (.dropped n, c)
  | .clear => (.done, c.clear)

/-- The caches that some sequence of requests makes from the empty one. -/
inductive Reachable : ScopedCache σ κ ι → Prop
  | empty : Reachable ScopedCache.empty
  | step {c : ScopedCache σ κ ι} (op : ScopedOp σ κ ι) : Reachable c → Reachable (c.perform op).2

/-- The buckets and the owners describe one filing: no bucket is empty, a key lies in the bucket
of its owner only, and no key lies twice in one bucket. -/
structure Inv (c : ScopedCache σ κ ι) : Prop where
  nonempty : ∀ {s : σ} {xs : List ι}, c.buckets[s]? = some xs → xs ≠ []
  owner_iff : ∀ {k : κ} {s : σ}, c.owner[k]? = some s ↔ ∃ x ∈ c.itemsIn s, Keyed.key x = k
  nodup : ∀ s, ((c.itemsIn s).map Keyed.key).Nodup

omit [Keyed ι κ] in
theorem itemsIn_eq (c : ScopedCache σ κ ι) (s : σ) : c.itemsIn s = (c.buckets[s]?).getD [] := by
  simp [itemsIn, TreeMap.get?_eq_getElem?]

theorem Inv.empty [TransOrd σ] : (ScopedCache.empty : ScopedCache σ κ ι).Inv := by
  have hb : (ScopedCache.empty : ScopedCache σ κ ι).buckets = ∅ := rfl
  have ho : (ScopedCache.empty : ScopedCache σ κ ι).owner = ∅ := rfl
  refine ⟨fun h => ?_, fun {k s} => ?_, fun s => ?_⟩
  · simp [hb] at h
  · simp [ho, itemsIn_eq, hb]
  · simp [itemsIn_eq, hb]

namespace Inv

variable {c : ScopedCache σ κ ι}

theorem owner_of_mem (hc : c.Inv) {s : σ} {x : ι} (hx : x ∈ c.itemsIn s) :
    c.owner[Keyed.key x]? = some s :=
  hc.owner_iff.mpr ⟨x, hx, rfl⟩

theorem key_ne_of_untracked (hc : c.Inv) {k : κ} (hk : c.owner[k]? = none) {s : σ} {x : ι}
    (hx : x ∈ c.itemsIn s) : Keyed.key x ≠ k := by
  intro he
  rw [← he, hc.owner_of_mem hx] at hk
  cases hk

theorem bucket_of_owner (hc : c.Inv) {k : κ} {s : σ} (hk : c.owner[k]? = some s) :
    c.buckets[s]? = some (c.itemsIn s) ∧ ∃ x ∈ c.itemsIn s, Keyed.key x = k := by
  obtain ⟨x, hx, hxk⟩ := hc.owner_iff.mp hk
  refine ⟨?_, x, hx, hxk⟩
  rw [itemsIn_eq] at hx ⊢
  cases hb : c.buckets[s]? with
  | none => rw [hb] at hx; cases hx
  | some xs => rfl

end Inv

section Ops

variable {c : ScopedCache σ κ ι}

theorem insertInto_of_untracked {x : ι} (hx : c.owner[Keyed.key x]? = none) (s : σ) :
    c.insertInto x s =
      (true, ⟨c.buckets.insert s (c.itemsIn s ++ [x]), c.owner.insert (Keyed.key x) s⟩) := by
  rw [insertInto, HashMap.contains_eq_isSome_getElem?, hx]
  rfl

theorem insertInto_of_tracked {x : ι} {s₀ : σ} (hx : c.owner[Keyed.key x]? = some s₀) (s : σ) :
    c.insertInto x s = (false, c) := by
  rw [insertInto, HashMap.contains_eq_isSome_getElem?, hx]
  rfl

theorem remove_of_untracked {k : κ} (hk : c.owner[k]? = none) : c.remove k = (none, c) := by
  rw [remove, HashMap.get?_eq_getElem?, hk]

theorem remove_of_owner (hc : c.Inv) {k : κ} {s : σ} (hk : c.owner[k]? = some s) :
    c.remove k = ((c.itemsIn s).find? (fun x => Keyed.key x == k),
      ⟨if ((c.itemsIn s).filter (fun x => Keyed.key x != k)).isEmpty then c.buckets.erase s
        else c.buckets.insert s ((c.itemsIn s).filter (fun x => Keyed.key x != k)),
       c.owner.erase k⟩) := by
  rw [remove, HashMap.get?_eq_getElem?, hk]
  simp only [TreeMap.get?_eq_getElem?, (hc.bucket_of_owner hk).1]

variable [TransOrd σ] [LawfulEqOrd σ] [DecidableEq σ]

omit [Keyed ι κ] in
theorem itemsIn_insert (c : ScopedCache σ κ ι) (s : σ) (xs : List ι) (o : HashMap κ σ) (t : σ) :
    (⟨c.buckets.insert s xs, o⟩ : ScopedCache σ κ ι).itemsIn t =
      if s = t then xs else c.itemsIn t := by
  by_cases h : s = t <;> simp [itemsIn_eq, TreeMap.getElem?_insert, h]

omit [Keyed ι κ] in
theorem itemsIn_erase (c : ScopedCache σ κ ι) (s : σ) (o : HashMap κ σ) (t : σ) :
    (⟨c.buckets.erase s, o⟩ : ScopedCache σ κ ι).itemsIn t = if s = t then [] else c.itemsIn t := by
  by_cases h : s = t <;> simp [itemsIn_eq, TreeMap.getElem?_erase, h]

theorem Inv.file (hc : c.Inv) {x : ι} (hx : c.owner[Keyed.key x]? = none) (s : σ) :
    (⟨c.buckets.insert s (c.itemsIn s ++ [x]), c.owner.insert (Keyed.key x) s⟩ :
      ScopedCache σ κ ι).Inv := by
  refine ⟨fun {t xs} h => ?_, fun {k t} => ?_, fun t => ?_⟩
  -- the bucket filed into holds at least the new item
  · simp only [TreeMap.getElem?_insert, Std.compare_eq_iff_eq] at h
    by_cases hst : s = t
    · rw [if_pos hst] at h
      rw [← Option.some.inj h]
      simp
    · rw [if_neg hst] at h
      exact hc.nonempty h
  -- the new key is owned by `s` alone, every other key where it was
  · simp only [HashMap.getElem?_insert, beq_iff_eq, itemsIn_insert]
    by_cases hxk : Keyed.key x = k
    · subst hxk
      by_cases hst : s = t
      · simp [hst]
      · rw [if_pos rfl, if_neg hst]
        exact ⟨fun h => absurd (Option.some.inj h) hst,
          fun ⟨y, hy, hyk⟩ => absurd hyk (hc.key_ne_of_untracked hx hy)⟩
    · rw [if_neg hxk, hc.owner_iff]
      by_cases hst : s = t
      · subst hst
        simp [hxk]
      · rw [if_neg hst]
  -- the new key was in no bucket, so it is not in `s` twice
  · rw [itemsIn_insert]
    by_cases hst : s = t
    · rw [if_pos hst, List.map_append, List.nodup_append]
      refine ⟨hc.nodup s, by simp, ?_⟩
      intro a ha b hb hab
      obtain ⟨y, hy, rfl⟩ := List.mem_map.mp ha
      rw [List.map_singleton, List.mem_singleton] at hb
      exact hc.key_ne_of_untracked hx hy (hab.trans hb)
    · rw [if_neg hst]
      exact hc.nodup t

theorem itemsIn_remove (hc : c.Inv) {k : κ} {s : σ} (hk : c.owner[k]? = some s) (t : σ) :
    (c.remove k).2.itemsIn t =
      if s = t then (c.itemsIn s).filter (fun x => Keyed.key x != k) else c.itemsIn t := by
  rw [remove_of_owner hc hk]
  by_cases he : ((c.itemsIn s).filter (fun x => Keyed.key x != k)).isEmpty
  · rw [if_pos he, itemsIn_erase, List.isEmpty_iff.mp he]
  · rw [if_neg he, itemsIn_insert]

theorem Inv.remove (hc : c.Inv) (k : κ) : (c.remove k).2.Inv := by
  cases hk : c.owner[k]? with
  | none => rw [remove_of_untracked hk]; exact hc
  | some s =>
    have howner : (c.remove k).2.owner = c.owner.erase k := by rw [remove_of_owner hc hk]
    refine ⟨fun {t xs} h => ?_, fun {j t} => ?_, fun t => ?_⟩
    -- the owner's bucket is dropped once the filter empties it
    · rw [remove_of_owner hc hk] at h
      dsimp only at h
      by_cases he : ((c.itemsIn s).filter (fun x => Keyed.key x != k)).isEmpty
      · rw [if_pos he] at h
        simp only [TreeMap.getElem?_erase, Std.compare_eq_iff_eq] at h
        by_cases hst : s = t
        · simp [hst] at h
        · rw [if_neg hst] at h
          exact hc.nonempty h
      · rw [if_neg he] at h
        simp only [TreeMap.getElem?_insert, Std.compare_eq_iff_eq] at h
        by_cases hst : s = t
        · rw [if_pos hst] at h
          rw [← Option.some.inj h]
          simpa [List.isEmpty_iff] using he
        · rw [if_neg hst] at h
          exact hc.nonempty h
    -- the key is owned nowhere and lies nowhere; the other keys are as they were
    · rw [howner, HashMap.getElem?_erase, itemsIn_remove hc hk]
      by_cases hkj : k = j
      · subst hkj
        simp only [beq_self_eq_true, if_true, reduceCtorEq, false_iff]
        rintro ⟨y, hy, hyk⟩
        by_cases hst : s = t
        · rw [if_pos hst, List.mem_filter] at hy
          simp [hyk] at hy
        · rw [if_neg hst] at hy
          rw [← hyk, hc.owner_of_mem hy] at hk
          exact hst (Option.some.inj hk).symm
      · rw [if_neg (by simpa using hkj), hc.owner_iff]
        by_cases hst : s = t
        · subst hst
          simp only [if_true, List.mem_filter]
          exact ⟨fun ⟨y, hy, hyk⟩ => ⟨y, ⟨hy, by simpa [hyk] using Ne.symm hkj⟩, hyk⟩,
            fun ⟨y, ⟨hy, _⟩, hyk⟩ => ⟨y, hy, hyk⟩⟩
        · rw [if_neg hst]
    -- filtering keeps a bucket free of repeated keys
    · rw [itemsIn_remove hc hk]
      by_cases hst : s = t
      · rw [if_pos hst]
        exact (hc.nodup s).sublist ((List.filter_sublist).map _)
      · rw [if_neg hst]
        exact hc.nodup t

theorem Inv.insertInto (hc : c.Inv) (x : ι) (s : σ) : (c.insertInto x s).2.Inv := by
  cases hx : c.owner[Keyed.key x]? with
  | none => rw [insertInto_of_untracked hx]; exact hc.file hx s
  | some s₀ => rw [insertInto_of_tracked hx]; exact hc

theorem Inv.add (hc : c.Inv) (resolve : ι → Option σ) (x : ι) : (c.add resolve x).2.Inv := by
  unfold ScopedCache.add
  split
  · exact hc
  · split
    · exact hc.insertInto x _
    · exact hc

theorem Inv.relocate (hc : c.Inv) (resolve : ι → Option σ) (k : κ) :
    (c.relocate resolve k).2.Inv := by
  have hr := hc.remove k
  unfold ScopedCache.relocate
  split
  · split
    · next x c' heq =>
      rw [heq] at hr
      split
      · exact hr.insertInto x _
      · exact hr
    · next c' heq =>
      rw [heq] at hr
      exact hr
  · exact hc

omit [Ord σ] [TransOrd σ] [LawfulEqOrd σ] [DecidableEq σ] in
theorem getElem?_foldl_erase (xs : List ι) (o : HashMap κ σ) (k : κ) :
    (xs.foldl (fun o x => o.erase (Keyed.key x)) o)[k]? =
      if ∃ x ∈ xs, Keyed.key x = k then none else o[k]? := by
  induction xs generalizing o with
  | nil => simp
  | cons x xs ih =>
    rw [List.foldl_cons, ih, HashMap.getElem?_erase]
    by_cases hx : Keyed.key x = k
    · simp [hx]
    · simp [hx]

theorem Inv.removeScope (hc : c.Inv) (s : σ) : (c.removeScope s).2.Inv := by
  unfold ScopedCache.removeScope
  split
  · exact hc
  · next xs hb =>
    rw [TreeMap.get?_eq_getElem?] at hb
    have hxs : c.itemsIn s = xs := by rw [itemsIn_eq, hb]; rfl
    refine ⟨fun {t ys} h => ?_, fun {j t} => ?_, fun t => ?_⟩
    -- the other buckets are untouched
    · simp only [TreeMap.getElem?_erase, Std.compare_eq_iff_eq] at h
      by_cases hst : s = t
      · simp [hst] at h
      · rw [if_neg hst] at h
        exact hc.nonempty h
    -- the keys untracked are exactly the keys of the dropped bucket
    · rw [getElem?_foldl_erase, itemsIn_erase]
      by_cases hj : ∃ x ∈ xs, Keyed.key x = j
      · rw [if_pos hj]
        obtain ⟨x, hx, rfl⟩ := hj
        have hown := hc.owner_of_mem (hxs ▸ hx)
        simp only [reduceCtorEq, false_iff]
        rintro ⟨y, hy, hyk⟩
        by_cases hst : s = t
        · rw [if_pos hst] at hy
          cases hy
        · rw [if_neg hst] at hy
          rw [← hyk, hc.owner_of_mem hy] at hown
          exact hst (Option.some.inj hown).symm
      · rw [if_neg hj, hc.owner_iff]
        by_cases hst : s = t
        · subst hst
          simp only [if_true, List.not_mem_nil, false_and, exists_false, iff_false]
          rintro ⟨y, hy, hyk⟩
          exact hj ⟨y, hxs ▸ hy, hyk⟩
        · rw [if_neg hst]
    · rw [itemsIn_erase]
      by_cases hst : s = t
      · rw [if_pos hst]
        exact List.nodup_nil
      · rw [if_neg hst]
        exact hc.nodup t

omit [LawfulEqOrd σ] [DecidableEq σ] in
theorem Inv.clear (c : ScopedCache σ κ ι) : c.clear.Inv := Inv.empty

omit [DecidableEq σ] [Keyed ι κ] in
theorem mem_scopes_of_mem {s : σ} {x : ι} (hx : x ∈ c.itemsIn s) : s ∈ c.scopes := by
  rw [itemsIn_eq] at hx
  cases hb : c.buckets[s]? with
  | none => rw [hb] at hx; cases hx
  | some xs => exact TreeMap.mem_keys.mpr (TreeMap.isSome_getElem?_iff_mem.mp (by simp [hb]))

omit [DecidableEq σ] in
theorem Inv.mem_scopes (hc : c.Inv) (s : σ) : s ∈ c.scopes ↔ ∃ k, c.scopeOf k = some s := by
  constructor
  · intro hs
    obtain ⟨xs, hxs⟩ := Option.isSome_iff_exists.mp
      (TreeMap.isSome_getElem?_iff_mem.mpr (TreeMap.mem_keys.mp hs))
    obtain ⟨x, hx⟩ := List.exists_mem_of_ne_nil _ (hc.nonempty hxs)
    have hxi : x ∈ c.itemsIn s := by rw [itemsIn_eq, hxs]; exact hx
    exact ⟨Keyed.key x, by rw [scopeOf, HashMap.get?_eq_getElem?, hc.owner_of_mem hxi]⟩
  · rintro ⟨k, hk⟩
    rw [scopeOf, HashMap.get?_eq_getElem?] at hk
    obtain ⟨x, hx, -⟩ := hc.owner_iff.mp hk
    exact mem_scopes_of_mem hx

omit [DecidableEq σ] in
theorem Inv.size_eq_sum (hc : c.Inv) : c.size = (c.scopes.map c.scopeSize).sum := by
  -- listed bucket by bucket, the tracked keys are the owner map's keys, none twice
  let keys := c.scopes.flatMap fun s => (c.itemsIn s).map Keyed.key
  have hnodup : keys.Nodup := by
    refine List.nodup_flatMap.mpr ⟨fun s _ => hc.nodup s, ?_⟩
    refine TreeMap.nodup_keys.imp fun {s t} hst => ?_
    refine List.disjoint_left.mpr fun {k} hks hkt => hst ?_
    obtain ⟨x, hx, rfl⟩ := List.mem_map.mp hks
    obtain ⟨y, hy, hyx⟩ := List.mem_map.mp hkt
    have h₁ := hc.owner_of_mem hx
    rw [← hyx, hc.owner_of_mem hy] at h₁
    exact (Option.some.inj h₁).symm
  have hmem : ∀ k, k ∈ c.owner.keys ↔ k ∈ keys := by
    intro k
    rw [HashMap.mem_keys, HashMap.mem_iff_isSome_getElem?, Option.isSome_iff_exists, List.mem_flatMap]
    constructor
    · rintro ⟨s, hs⟩
      obtain ⟨x, hx, hxk⟩ := hc.owner_iff.mp hs
      exact ⟨s, mem_scopes_of_mem hx, List.mem_map.mpr ⟨x, hx, hxk⟩⟩
    · rintro ⟨s, -, hk⟩
      obtain ⟨x, hx, hxk⟩ := List.mem_map.mp hk
      exact ⟨s, hc.owner_iff.mpr ⟨x, hx, hxk⟩⟩
  have hperm := (List.perm_ext_iff_of_nodup HashMap.nodup_keys hnodup).mpr hmem
  rw [size, ← HashMap.length_keys, hperm.length_eq, List.length_flatMap]
  simp only [List.length_map]
  rfl

omit [LawfulEqOrd σ] [DecidableEq σ] [Keyed ι κ] in
theorem stats_scopes (c : ScopedCache σ κ ι) : c.stats.scopes = c.scopes.length ∧ c.scopes.Nodup :=
  ⟨TreeMap.length_keys.symm, TreeMap.nodup_keys⟩

omit [TransOrd σ] [LawfulEqOrd σ] [DecidableEq σ] in
theorem key_of_get {k : κ} {x : ι} (h : c.get k = some x) : Keyed.key x = k := by
  simp only [get, Option.bind_eq_bind, Option.bind_eq_some_iff] at h
  obtain ⟨s, -, hx⟩ := h
  simpa using List.find?_some hx

omit [TransOrd σ] [LawfulEqOrd σ] [DecidableEq σ] in
theorem Inv.found_of_scopeOf (hc : c.Inv) {k : κ} {s : σ} (hk : c.scopeOf k = some s) :
    c.buckets[s]? = some (c.itemsIn s) ∧ (c.get k).isSome ∧ (c.remove k).1.isSome := by
  rw [scopeOf, HashMap.get?_eq_getElem?] at hk
  obtain ⟨hb, x, hx, hxk⟩ := hc.bucket_of_owner hk
  have hfind : ((c.itemsIn s).find? fun y => Keyed.key y == k).isSome :=
    List.find?_isSome.mpr ⟨x, hx, by simp [hxk]⟩
  refine ⟨hb, ?_, ?_⟩
  · simpa [get, HashMap.get?_eq_getElem?, hk] using hfind
  · rw [remove_of_owner hc hk]
    exact hfind

theorem Inv.perform (hc : c.Inv) (op : ScopedOp σ κ ι) : (c.perform op).2.Inv := by
  cases op with
  | add resolve x => exact hc.add resolve x
  | insertInto x s => exact hc.insertInto x s
  | relocate resolve k => exact hc.relocate resolve k
  | remove k => exact hc.remove k
  | removeScope s => exact hc.removeScope s
  | clear => exact Inv.clear c

theorem Reachable.inv (hc : c.Reachable) : c.Inv := by
  induction hc with
  | empty => exact Inv.empty
  | step op _ ih => exact ih.perform op

end Ops

end ScopedCache

open ScopedCache in
/-- Every reachable cache is coherent, whatever the resolvers answered: its size is the sum of the
bucket sizes, and a tracked key's bucket is always found. -/
theorem scoped_cache_reachable_coherent {σ κ ι : Type} [Ord σ] [TransOrd σ] [LawfulEqOrd σ]
    [DecidableEq σ] [DecidableEq κ] [Hashable κ] [Keyed ι κ] {c : ScopedCache σ κ ι}
    (hc : c.Reachable) :
    (∀ (s : σ) (xs : List ι), c.buckets[s]? = some xs → xs ≠ []) ∧
      (∀ k s, c.scopeOf k = some s ↔ ∃ x ∈ c.itemsIn s, Keyed.key x = k) ∧
      (∀ s, ((c.itemsIn s).map Keyed.key).Nodup) ∧
      (∀ k x, c.get k = some x → Keyed.key x = k) ∧
      c.size = (c.scopes.map c.scopeSize).sum ∧
      (∀ s, s ∈ c.scopes ↔ ∃ k, c.scopeOf k = some s) ∧
      c.stats.scopes = c.scopes.length ∧ c.scopes.Nodup ∧
      (∀ k s, c.scopeOf k = some s →
        c.buckets[s]? = some (c.itemsIn s) ∧ (c.get k).isSome ∧ (c.remove k).1.isSome) := by
  have hi := hc.inv
  refine ⟨fun s xs => hi.nonempty, fun k s => ?_, hi.nodup, fun k x => key_of_get, hi.size_eq_sum,
    hi.mem_scopes, (stats_scopes c).1, (stats_scopes c).2, fun k s => hi.found_of_scopeOf⟩
  rw [scopeOf, HashMap.get?_eq_getElem?]
  exact hi.owner_iff

theorem scoped_cache_relocating_run_coherent :
    let c := (((((((ScopedCache.empty : ScopedCache RegionId EntityId Thing).perform
      (.insertInto ⟨⟨42⟩, .item, ⟨1⟩, ⟨0, 0⟩⟩ ⟨7⟩)).2.perform
      (.insertInto ⟨⟨43⟩, .item, ⟨1⟩, ⟨1, 0⟩⟩ ⟨7⟩)).2.perform
      (.insertInto ⟨⟨44⟩, .item, ⟨1⟩, ⟨9, 0⟩⟩ ⟨8⟩)).2.perform
      (.relocate (fun _ => some ⟨8⟩) ⟨42⟩)).2.perform (.remove ⟨44⟩)).2.perform (.removeScope ⟨7⟩)).2
    c.Reachable ∧
      ((∀ (s : RegionId) (xs : List Thing), c.buckets[s]? = some xs → xs ≠ []) ∧
      (∀ k s, c.scopeOf k = some s ↔ ∃ x ∈ c.itemsIn s, Keyed.key x = k) ∧
      (∀ s, ((c.itemsIn s).map Keyed.key).Nodup) ∧
      (∀ k x, c.get k = some x → Keyed.key x = k) ∧
      c.size = (c.scopes.map c.scopeSize).sum ∧
      (∀ s, s ∈ c.scopes ↔ ∃ k, c.scopeOf k = some s) ∧
      c.stats.scopes = c.scopes.length ∧ c.scopes.Nodup ∧
      (∀ k s, c.scopeOf k = some s →
        c.buckets[s]? = some (c.itemsIn s) ∧ (c.get k).isSome ∧ (c.remove k).1.isSome)) :=
  have hc : ScopedCache.Reachable _ :=
    .step _ (.step _ (.step _ (.step _ (.step _ (.step _ .empty)))))
  ⟨hc, scoped_cache_reachable_coherent hc⟩

end ColonyCache
