import Mathlib.Data.List.Nodup
/-! The recency list, most recently used first: the specification of the bounded caches. -/
namespace ColonyCache

/-- A request to a bounded cache. -/
inductive RecencyOp (α β : Type) where
  | put (k : α) (v : β)
  | get (k : α)
  | peek (k : α)
  | contains (k : α)
  | remove (k : α)
  | clear
  | size
  | isEmpty

/-- A reply of a bounded cache: an evicted entry, a value, a truth value, a count, or nothing. -/
inductive RecencyReply (α β : Type) where
  | evicted (e : Option (α × β))
  | value (v : Option β)
  | flag (b : Bool)
  | count (n : Nat)
  | done
deriving DecidableEq

namespace RecencyList

variable {α β : Type} [DecidableEq α]

/-- The list without the entry of `k`. -/
def drop (l : List (α × β)) (k : α) : List (α × β) := l.filter (fun e => e.1 != k)

/-- Looks `k` up; a hit moves its entry to the front. -/
def get (l : List (α × β)) (k : α) : Option β × List (α × β) :=
  match l.lookup k with
  | some v => (some v, (k, v) :: drop l k)
  | none => (none, l)

/-- Puts `(k, v)` in front, taking the last entry off when a new key overfills the list. -/
def put (capacity : Nat) (l : List (α × β)) (k : α) (v : β) : Option (α × β) × List (α × β) :=
  match l.lookup k with
  | some _ => (none, (k, v) :: drop l k)
  | none =>
    if capacity < ((k, v) :: l).length then (((k, v) :: l).getLast?, ((k, v) :: l).dropLast)
    else (none, (k, v) :: l)

/-- Takes the entry of `k` out and returns its value. -/
def remove (l : List (α × β)) (k : α) : Option β × List (α × β) := (l.lookup k, drop l k)

/-- The reply of the list of a cache of `capacity` entries to one request, with the new list. -/
def perform (capacity : Nat) (l : List (α × β)) : RecencyOp α β → RecencyReply α β × List (α × β)
  | .put k v => let (e, l) := put capacity l k v; (.evicted e, l)
  | .get k => let (r, l) := get l k; (.value r, l)
  | .peek k => (.value (l.lookup k), l)
  | .contains k => (.flag (l.any (·.1 == k)), l)
  | .remove k => let (r, l) := remove l k; (.value r, l)
  | .clear => (.done, [])
  | .size => (.count l.length, l)
  | .isEmpty => (.flag l.isEmpty, l)

/-- The replies of the list to `ops` in turn, each with the list right after it. -/
def trace (capacity : Nat) (l : List (α × β)) :
    List (RecencyOp α β) → List (RecencyReply α β × List (α × β))
  | [] => []
  | op :: ops =>
    let (r, l) := perform capacity l op
    (r, l) :: trace capacity l ops

/-- Reading key 1 makes key 2 the least recently used, so storing a fourth key evicts it. -/
example : (trace 3 ([] : List (Nat × Nat))
    [.put 1 10, .put 2 20, .put 3 30, .get 1, .put 4 40]).getLast? =
    some (.evicted (some (2, 20)), [(4, 40), (1, 10), (3, 30)]) := by decide

section Lookup

variable {l : List (α × β)} {k : α} {v : β}

theorem mem_of_lookup_eq_some (h : l.lookup k = some v) : (k, v) ∈ l := by
  induction l with
  | nil => cases h
  | cons e l ih =>
    obtain ⟨j, w⟩ := e
    by_cases hkj : k = j
    · subst hkj
      simp only [List.lookup_cons, beq_self_eq_true, Option.some.injEq] at h
      simp [h]
    · simp only [List.lookup_cons, beq_false_of_ne hkj] at h
      exact List.mem_cons_of_mem _ (ih h)

theorem lookup_of_mem (hl : (l.map Prod.fst).Nodup) (hm : (k, v) ∈ l) : l.lookup k = some v := by
  induction l with
  | nil => cases hm
  | cons p l ih =>
    obtain ⟨j, w⟩ := p
    rw [List.map_cons, List.nodup_cons] at hl
    rcases List.mem_cons.mp hm with he | hl'
    · simp [← he]
    · have hne : k ≠ j := fun he => hl.1 (List.mem_map.mpr ⟨(k, v), hl', he⟩)
      rw [List.lookup_cons, beq_false_of_ne hne]
      exact ih hl.2 hl'

theorem drop_of_lookup_eq_none (h : l.lookup k = none) : drop l k = l :=
  List.filter_eq_self.mpr fun e he => by
    rw [bne_comm]
    exact List.lookup_eq_none_iff.mp h e he

theorem length_drop_of_isSome (hl : (l.map Prod.fst).Nodup) (h : (l.lookup k).isSome) :
    (drop l k).length + 1 = l.length := by
  induction l with
  | nil => simp at h
  | cons e l ih =>
    obtain ⟨j, w⟩ := e
    rw [List.map_cons, List.nodup_cons] at hl
    by_cases hjk : k = j
    · -- the key heads the list, and the rest does not list it
      subst hjk
      have hrest : l.lookup k = none := List.lookup_eq_none_iff.mpr fun p hp =>
        bne_iff_ne.mpr fun he => hl.1 (List.mem_map.mpr ⟨p, hp, he.symm⟩)
      have hd : drop l k = l := drop_of_lookup_eq_none hrest
      simp only [drop, List.filter_cons, bne_self_eq_false, Bool.false_eq_true, if_false,
        List.length_cons] at hd ⊢
      rw [hd]
    · have hl' : (l.lookup k).isSome := by
        simpa [List.lookup_cons, beq_false_of_ne hjk] using h
      have hd := ih hl.2 hl'
      simp only [drop, List.filter_cons, bne_iff_ne, ne_eq, Ne.symm hjk, not_false_eq_true,
        if_true, List.length_cons] at hd ⊢
      omega

theorem drop_of_getLast? (hl : (l.map Prod.fst).Nodup) (h : l.getLast? = some (k, v)) :
    drop l k = l.dropLast := by
  have hsplit := List.dropLast_append_getLast? (k, v) h
  rw [← hsplit, List.map_append, List.nodup_append] at hl
  unfold drop
  conv_lhs => rw [← hsplit]
  rw [List.filter_append, List.filter_singleton]
  simp only [bne_self_eq_false, cond_false, List.append_nil]
  refine List.filter_eq_self.mpr fun e he => ?_
  have hk : e.1 ≠ k := fun he' => hl.2.2 e.1 (List.mem_map_of_mem he) k (by simp) he'
  simpa using hk

end Lookup

section Members

variable {l : List (α × β)} {k : α} {p : α × β}

theorem mem_of_mem_drop (h : p ∈ drop l k) : p ∈ l :=
  (List.mem_filter.mp h).1

theorem mem_of_mem_get (h : p ∈ (get l k).2) : p ∈ l := by
  unfold get at h
  cases hk : l.lookup k with
  | none => simpa [hk] using h
  | some v =>
    rw [hk] at h
    rcases List.mem_cons.mp h with rfl | h
    · exact mem_of_lookup_eq_some hk
    · exact mem_of_mem_drop h

theorem mem_of_mem_put {capacity : Nat} {v : β} (h : p ∈ (put capacity l k v).2) :
    p = (k, v) ∨ p ∈ l := by
  unfold put at h
  split at h
  · rcases List.mem_cons.mp h with rfl | h
    · exact .inl rfl
    · exact .inr (mem_of_mem_drop h)
  · split at h
    · exact List.mem_cons.mp (List.dropLast_subset _ h)
    · exact List.mem_cons.mp h

end Members

end RecencyList

end ColonyCache
