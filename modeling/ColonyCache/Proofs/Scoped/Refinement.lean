import Mathlib.Logic.Function.Basic
import ColonyCache.Proofs.Scoped.Invariant
/-! A scoped cache refines a filing: the owner scope of each key and each scope's items in order. -/
namespace ColonyCache

open Std

/-- The owner scope of each key, and the items of each scope in the order of their filing. -/
structure Filing (σ κ ι : Type) where
  scopeOf : κ → Option σ
  items : σ → List ι

namespace Filing

variable {σ κ ι : Type} [DecidableEq σ] [DecidableEq κ] [Keyed ι κ]

def empty : Filing σ κ ι := ⟨fun _ => none, fun _ => []⟩

def stored (m : Filing σ κ ι) (k : κ) : Option ι :=
  (m.scopeOf k).bind fun s => (m.items s).find? (Keyed.key · == k)

def file (m : Filing σ κ ι) (x : ι) (s : σ) : Filing σ κ ι :=
  ⟨Function.update m.scopeOf (Keyed.key x) (some s), Function.update m.items s (m.items s ++ [x])⟩

def forget (m : Filing σ κ ι) (k : κ) : Filing σ κ ι :=
  match m.scopeOf k with
  | none => m
  | some s =>
    ⟨Function.update m.scopeOf k none,
      Function.update m.items s ((m.items s).filter (Keyed.key · != k))⟩

def insertInto (m : Filing σ κ ι) (x : ι) (s : σ) : Bool × Filing σ κ ι :=
  if (m.scopeOf (Keyed.key x)).isSome then (false, m) else (true, m.file x s)

def add (m : Filing σ κ ι) (resolve : ι → Option σ) (x : ι) : Bool × Filing σ κ ι :=
  if (m.scopeOf (Keyed.key x)).isSome then (false, m)
  else match resolve x with
    | some s => (true, m.file x s)
    | none => (false, m)

def remove (m : Filing σ κ ι) (k : κ) : Option ι × Filing σ κ ι := (m.stored k, m.forget k)

/-- Files the item of `k` again at the end of the scope `resolve` now gives it, if any. -/
def relocate (m : Filing σ κ ι) (resolve : ι → Option σ) (k : κ) : Option σ × Filing σ κ ι :=
  match m.stored k with
  | none => (none, m)
  | some x =>
    match resolve x with
    | some s => (some s, (m.forget k).file x s)
    | none => (none, m.forget k)

def removeScope (m : Filing σ κ ι) (s : σ) : Nat × Filing σ κ ι :=
  ((m.items s).length,
    ⟨fun k => if m.scopeOf k = some s then none else m.scopeOf k, Function.update m.items s []⟩)

/-- The reply of the filing to one request, with the new filing. -/
def perform (m : Filing σ κ ι) : ScopedOp σ κ ι → ScopedReply σ ι × Filing σ κ ι
  | .add resolve x => let (b, m) := m.add resolve x; (.filed b, m)
  | .insertInto x s => let (b, m) := m.insertInto x s; (.filed b, m)
  | .relocate resolve k => let (s, m) := m.relocate resolve k; (.moved s, m)
  | .remove k => let (x, m) := m.remove k; (.removed x, m)
  | .removeScope s => let (n, m) := m.removeScope s; (.dropped n, m)
  | .clear => (.done, empty)

/-- The replies of the filing to `ops` in turn, each with the filing right after it. -/
def trace (m : Filing σ κ ι) : List (ScopedOp σ κ ι) → List (ScopedReply σ ι × Filing σ κ ι)
  | [] => []
  | op :: ops =>
    let (r, m) := m.perform op
    (r, m) :: trace m ops

end Filing

section Lookup

variable {κ β : Type} [DecidableEq κ] [Hashable κ]

theorem getElem?_insert_eq_update (m : HashMap κ β) (k : κ) (v : β) :
    (fun j => (m.insert k v)[j]?) = Function.update (fun j => m[j]?) k (some v) := by
  funext j
  by_cases hj : j = k
  · simp [hj]
  · simp [HashMap.getElem?_insert, Function.update_of_ne hj, Ne.symm hj]

theorem getElem?_erase_eq_update (m : HashMap κ β) (k : κ) :
    (fun j => (m.erase k)[j]?) = Function.update (fun j => m[j]?) k none := by
  funext j
  by_cases hj : j = k
  · simp [hj]
  · simp [HashMap.getElem?_erase, Function.update_of_ne hj, Ne.symm hj]

end Lookup

namespace ScopedCache

variable {σ κ ι : Type} [Ord σ] [DecidableEq κ] [Hashable κ] [Keyed ι κ]

/-- The filing a cache shows: its owners and its buckets. -/
def filing (c : ScopedCache σ κ ι) : Filing σ κ ι := ⟨c.scopeOf, c.itemsIn⟩

/-- The replies of a cache to `ops` in turn, each with the filing it shows right after it. -/
def trace (c : ScopedCache σ κ ι) : List (ScopedOp σ κ ι) → List (ScopedReply σ ι × Filing σ κ ι)
  | [] => []
  | op :: ops =>
    let (r, c) := c.perform op
    (r, c.filing) :: trace c ops

omit [Keyed ι κ] in
theorem scopeOf_eq (c : ScopedCache σ κ ι) (k : κ) : c.scopeOf k = c.owner[k]? :=
  HashMap.get?_eq_getElem?

omit [Keyed ι κ] in
theorem scopeOf_fun (c : ScopedCache σ κ ι) : c.scopeOf = fun k => c.owner[k]? :=
  funext (scopeOf_eq c)

omit [Keyed ι κ] in
theorem filing_scopeOf (c : ScopedCache σ κ ι) (k : κ) : c.filing.scopeOf k = c.owner[k]? :=
  scopeOf_eq c k

variable [TransOrd σ] [LawfulEqOrd σ] [DecidableEq σ] {c : ScopedCache σ κ ι}

omit [Keyed ι κ] in
theorem itemsIn_insert_eq_update (c : ScopedCache σ κ ι) (s : σ) (xs : List ι)
    (o : HashMap κ σ) :
    (⟨c.buckets.insert s xs, o⟩ : ScopedCache σ κ ι).itemsIn = Function.update c.itemsIn s xs := by
  funext t
  rw [itemsIn_insert]
  by_cases ht : t = s
  · simp [ht]
  · simp [ht, Ne.symm ht]

omit [Keyed ι κ] in
theorem itemsIn_erase_eq_update (c : ScopedCache σ κ ι) (s : σ) (o : HashMap κ σ) :
    (⟨c.buckets.erase s, o⟩ : ScopedCache σ κ ι).itemsIn = Function.update c.itemsIn s [] := by
  funext t
  rw [itemsIn_erase]
  by_cases ht : t = s
  · simp [ht]
  · simp [ht, Ne.symm ht]

theorem filing_file (x : ι) (s : σ) :
    (⟨c.buckets.insert s (c.itemsIn s ++ [x]), c.owner.insert (Keyed.key x) s⟩ :
      ScopedCache σ κ ι).filing = c.filing.file x s := by
  simp only [filing, Filing.file, Filing.mk.injEq]
  refine ⟨?_, itemsIn_insert_eq_update c s _ _⟩
  rw [scopeOf_fun, scopeOf_fun]
  exact getElem?_insert_eq_update c.owner _ _

theorem insertInto_filing (x : ι) (s : σ) :
    ((c.insertInto x s).1, (c.insertInto x s).2.filing) = c.filing.insertInto x s := by
  cases hx : c.owner[Keyed.key x]? with
  | none =>
    have hm : c.filing.scopeOf (Keyed.key x) = none := by rw [filing_scopeOf, hx]
    rw [insertInto_of_untracked hx, Filing.insertInto, hm, filing_file]
    rfl
  | some s₀ =>
    have hm : c.filing.scopeOf (Keyed.key x) = some s₀ := by rw [filing_scopeOf, hx]
    rw [insertInto_of_tracked hx, Filing.insertInto, hm]
    rfl

theorem add_filing (resolve : ι → Option σ) (x : ι) :
    ((c.add resolve x).1, (c.add resolve x).2.filing) = c.filing.add resolve x := by
  have hm : c.filing.scopeOf (Keyed.key x) = c.owner[Keyed.key x]? := filing_scopeOf c _
  have hcont : c.owner.contains (Keyed.key x) = (c.owner[Keyed.key x]?).isSome :=
    HashMap.contains_eq_isSome_getElem?
  rw [add, Filing.add, hm, hcont]
  by_cases ht : (c.owner[Keyed.key x]?).isSome
  · rw [if_pos ht, if_pos ht]
  · rw [if_neg ht, if_neg ht]
    cases resolve x with
    | none => rfl
    | some s =>
      show ((c.insertInto x s).1, (c.insertInto x s).2.filing) = (true, c.filing.file x s)
      rw [insertInto_filing, Filing.insertInto, hm, if_neg ht]

omit [TransOrd σ] [LawfulEqOrd σ] [DecidableEq σ] in
theorem scopeOf_remove (k : κ) : (c.remove k).2.scopeOf = Function.update c.scopeOf k none := by
  cases hk : c.owner[k]? with
  | none =>
    rw [remove_of_untracked hk]
    exact (Function.update_eq_self_iff.mpr (by rw [scopeOf_eq, hk])).symm
  | some s =>
    -- whether or not the owner's bucket is found, the key's owner is erased
    have ho : (c.remove k).2.owner = c.owner.erase k := by
      rw [remove, HashMap.get?_eq_getElem?, hk]
      dsimp only
      split <;> rfl
    rw [scopeOf_fun, scopeOf_fun, ho]
    exact getElem?_erase_eq_update c.owner k

theorem remove_filing (hc : c.Inv) (k : κ) :
    ((c.remove k).1, (c.remove k).2.filing) = c.filing.remove k := by
  cases hk : c.owner[k]? with
  | none =>
    have hm : c.filing.scopeOf k = none := by rw [filing_scopeOf, hk]
    rw [remove_of_untracked hk, Filing.remove, Filing.stored, Filing.forget, hm]
    rfl
  | some s =>
    have hm : c.filing.scopeOf k = some s := by rw [filing_scopeOf, hk]
    have hx : (c.remove k).1 = (c.itemsIn s).find? (Keyed.key · == k) := by
      rw [remove_of_owner hc hk]
    have hf : (c.remove k).2.filing = ⟨Function.update c.filing.scopeOf k none,
        Function.update c.filing.items s ((c.filing.items s).filter (Keyed.key · != k))⟩ := by
      simp only [filing, Filing.mk.injEq]
      refine ⟨scopeOf_remove k, funext fun t => ?_⟩
      rw [itemsIn_remove hc hk]
      by_cases ht : t = s
      · simp [ht]
      · simp [ht, Ne.symm ht]
    rw [hx, hf, Filing.remove, Filing.stored, Filing.forget, hm]
    rfl

omit [TransOrd σ] [LawfulEqOrd σ] [DecidableEq σ] in
theorem filing_stored (k : κ) : c.filing.stored k = c.get k := rfl

theorem relocate_filing (hc : c.Inv) (resolve : ι → Option σ) (k : κ) :
    ((c.relocate resolve k).1, (c.relocate resolve k).2.filing) = c.filing.relocate resolve k := by
  have hr := remove_filing hc k
  rw [Filing.remove, Prod.mk.injEq] at hr
  obtain ⟨hx, hf⟩ := hr
  cases hk : c.owner[k]? with
  | none =>
    have hs : c.filing.stored k = none := by rw [Filing.stored, filing_scopeOf, hk]; rfl
    have hcont : c.owner.contains k = false := by
      rw [HashMap.contains_eq_isSome_getElem?, hk]; rfl
    rw [relocate, hcont, Filing.relocate, hs]
    rfl
  | some s =>
    have hcont : c.owner.contains k = true := by
      rw [HashMap.contains_eq_isSome_getElem?, hk]; rfl
    -- a tracked key is always found, so the removal hands its item back
    have hfound := (hc.found_of_scopeOf (show c.scopeOf k = some s by rwa [scopeOf_eq])).2.2
    obtain ⟨x, hsx⟩ := Option.isSome_iff_exists.mp (hx ▸ hfound)
    have hrem : c.remove k = (some x, (c.remove k).2) := by rw [← hsx, ← hx]
    have hget : c.get k = some x := by rw [← filing_stored, hsx]
    have hkx : Keyed.key x = k := key_of_get hget
    have hgone : (c.remove k).2.owner[Keyed.key x]? = none := by
      rw [remove_of_owner hc hk, hkx]
      exact HashMap.getElem?_erase_self
    rw [relocate, hcont, if_pos rfl, hrem, Filing.relocate, hsx]
    dsimp only
    cases resolve x with
    | none => rw [hf]
    | some t =>
      dsimp only
      rw [insertInto_of_untracked hgone, filing_file, hf]

theorem removeScope_filing (hc : c.Inv) (s : σ) :
    ((c.removeScope s).1, (c.removeScope s).2.filing) = c.filing.removeScope s := by
  rw [Filing.removeScope]
  unfold ScopedCache.removeScope
  split
  · next hb =>
    -- a scope with no bucket owns no key, so there is nothing to forget
    have hxs : c.itemsIn s = [] := by rw [itemsIn, hb]; rfl
    have hitems : Function.update c.filing.items s [] = c.filing.items := by
      rw [← hxs]
      exact Function.update_eq_self s c.itemsIn
    have hscope : (fun k => if c.filing.scopeOf k = some s then none else c.filing.scopeOf k) =
        c.filing.scopeOf := by
      funext k
      refine if_neg fun h => ?_
      rw [filing_scopeOf, hc.owner_iff, hxs] at h
      simp at h
    show (0, c.filing) = ((c.itemsIn s).length, _)
    rw [hitems, hscope, hxs]
    rfl
  · next xs hb =>
    have hxs : c.itemsIn s = xs := by rw [itemsIn, hb]; rfl
    show (xs.length, _) = ((c.itemsIn s).length, _)
    rw [hxs, Prod.mk.injEq]
    dsimp only [filing]
    rw [Filing.mk.injEq]
    refine ⟨rfl, ?_, itemsIn_erase_eq_update c s _⟩
    funext k
    simp only [scopeOf_eq]
    rw [getElem?_foldl_erase, ← hxs]
    -- the keys in the dropped bucket are exactly those the scope owns
    by_cases hk : c.owner[k]? = some s
    · rw [if_pos (hc.owner_iff.mp hk), if_pos hk]
    · rw [if_neg (mt hc.owner_iff.mpr hk), if_neg hk]

omit [LawfulEqOrd σ] [DecidableEq σ] [Keyed ι κ] in
theorem filing_empty : (ScopedCache.empty : ScopedCache σ κ ι).filing = Filing.empty := by
  rw [filing, Filing.empty, Filing.mk.injEq]
  constructor
  · funext k
    rw [scopeOf_eq]
    exact HashMap.getElem?_empty
  · funext s
    have hb : (ScopedCache.empty : ScopedCache σ κ ι).buckets = ∅ := rfl
    simp [itemsIn_eq, hb]

theorem perform_filing (hc : c.Inv) (op : ScopedOp σ κ ι) :
    ((c.perform op).1, (c.perform op).2.filing) = c.filing.perform op := by
  cases op with
  | add resolve x => rw [Filing.perform, ← add_filing resolve x]; rfl
  | insertInto x s => rw [Filing.perform, ← insertInto_filing x s]; rfl
  | relocate resolve k => rw [Filing.perform, ← relocate_filing hc resolve k]; rfl
  | remove k => rw [Filing.perform, ← remove_filing hc k]; rfl
  | removeScope s => rw [Filing.perform, ← removeScope_filing hc s]; rfl
  | clear => rw [Filing.perform, ← filing_empty]; rfl

theorem trace_filing (hc : c.Inv) (ops : List (ScopedOp σ κ ι)) :
    c.trace ops = c.filing.trace ops := by
  induction ops generalizing c with
  | nil => rfl
  | cons op ops ih =>
    rw [trace, Filing.trace, ← perform_filing hc op]
    show ((c.perform op).1, (c.perform op).2.filing) :: (c.perform op).2.trace ops = _
    rw [ih (hc.perform op)]

end ScopedCache


open ScopedCache in
/-- From the empty cache, with any resolvers, every sequence of requests gets the replies of the
filing, and after each request the cache shows the filing's owners and lists. -/
theorem scoped_cache_refines_filing {σ κ ι : Type} [Ord σ] [TransOrd σ] [LawfulEqOrd σ]
    [DecidableEq σ] [DecidableEq κ] [Hashable κ] [Keyed ι κ] (ops : List (ScopedOp σ κ ι)) :
    (ScopedCache.empty : ScopedCache σ κ ι).trace ops = (Filing.empty : Filing σ κ ι).trace ops := by
  rw [trace_filing Inv.empty, filing_empty]

theorem region_cache_relocation_refines :
    let a : Thing := ⟨⟨42⟩, .item, ⟨1⟩, ⟨0, 0⟩⟩
    let b : Thing := ⟨⟨43⟩, .item, ⟨1⟩, ⟨1, 0⟩⟩
    let ops : List (ScopedOp RegionId EntityId Thing) :=
      [.insertInto a ⟨7⟩, .insertInto b ⟨7⟩, .relocate (fun _ => some ⟨7⟩) ⟨42⟩, .remove ⟨43⟩]
    (ScopedCache.empty : ScopedCache RegionId EntityId Thing).trace ops =
      (Filing.empty : Filing RegionId EntityId Thing).trace ops :=
  scoped_cache_refines_filing _

end ColonyCache
