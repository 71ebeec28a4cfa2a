import ColonyCache.Proofs.Recency.Arena
/-! An arena cache answers as its recency list does, request by request. -/
namespace ColonyCache

namespace ArenaCache

variable {α β : Type} [DecidableEq α] [Hashable α]

/-- The entries held by the slots of `order`, in that order. -/
def entriesOf (c : ArenaCache α β) (order : List Nat) : List (α × β) :=
  order.filterMap fun i => (c.slot i).entry

section Entries

variable {c c' : ArenaCache α β} {order : List Nat}

theorem entriesOf_congr (h : ∀ j ∈ order, (c'.slot j).entry = (c.slot j).entry) :
    c'.entriesOf order = c.entriesOf order :=
  List.filterMap_congr h

theorem entriesOf_cons {i : Nat} {e : α × β} (he : (c.slot i).entry = some e) :
    c.entriesOf (i :: order) = e :: c.entriesOf order := by
  simp [entriesOf, he]

theorem getLast?_entriesOf {t : Nat} {e : α × β} (ht : order.getLast? = some t)
    (he : (c.slot t).entry = some e) : (c.entriesOf order).getLast? = some e := by
  obtain ⟨p, rfl⟩ := List.getLast?_eq_some_iff.mp ht
  simp [entriesOf, List.filterMap_append, he]

theorem length_entriesOf (h : ∀ i ∈ order, ((c.slot i).entry).isSome) :
    (c.entriesOf order).length = order.length := by
  induction order with
  | nil => rfl
  | cons i order ih =>
    obtain ⟨e, he⟩ := Option.isSome_iff_exists.mp (h i List.mem_cons_self)
    rw [entriesOf_cons he, List.length_cons, List.length_cons,
      ih fun j hj => h j (List.mem_cons_of_mem i hj)]

/-- Walking the links from slot `p` gathers the entries of the slots met. -/
theorem entriesFrom_eq (n : Nat) (p : Option Nat)
    (h : ∀ j ∈ c.slotWalk n p, ((c.slot j).entry).isSome) :
    entriesFrom c.slots n p = c.entriesOf (c.slotWalk n p) := by
  induction n generalizing p with
  | zero => rfl
  | succ n ih =>
    cases p with
    | none => rfl
    | some i =>
      obtain ⟨e, he⟩ := Option.isSome_iff_exists.mp (h i (by simp [slotWalk]))
      rw [slotWalk, entriesOf_cons he, ← ih _ fun j hj => h j (by simp [slotWalk, hj])]
      unfold slot at he ⊢
      simp only [entriesFrom, he]

end Entries

namespace Shape

variable {c c' : ArenaCache α β} {order : List Nat} {i : Nat} {k : α}

theorem entry_isSome (h : c.Shape order) : ∀ i ∈ order, ((c.slot i).entry).isSome := by
  intro i hi
  obtain ⟨k, v, he, -⟩ := h.entry i hi
  simp [he]

theorem toList_eq (h : c.Shape order) : c.toList = c.entriesOf order := by
  have hw : c.slotWalk c.slots.size c.head = order :=
    h.slotWalk_eq (by rw [h.slots_size, ← h.length]; omega)
  rw [toList, entriesFrom_eq _ _ (hw ▸ h.entry_isSome), hw]

theorem length_toList (h : c.Shape order) : c.toList.length = c.index.size := by
  rw [h.toList_eq, length_entriesOf h.entry_isSome, h.length]

theorem index_of_entry (h : c.Shape order) {v : β} (he : (c.slot i).entry = some (k, v)) :
    c.index[k]? = some i := by
  -- a slot off the list is free or past the end of the arena, and holds nothing
  have hi : i ∈ order := by
    by_contra hio
    by_cases hs : i < c.slots.size
    · rw [h.free_entry i ((h.cover i hs).resolve_left hio)] at he
      cases he
    · rw [slot, Array.getD_eq_getD_getElem?, Array.getElem?_eq_none (Nat.le_of_not_lt hs)] at he
      cases he
  obtain ⟨k', v', he', hk'⟩ := h.entry i hi
  rw [he] at he'
  cases he'
  exact hk'

theorem keys_nodup (h : c.Shape order) : (c.toList.map Prod.fst).Nodup := by
  rw [h.toList_eq, entriesOf, List.map_filterMap]
  refine List.Nodup.filterMap ?_ h.nodup
  -- two slots holding one key are both the slot the index gives it
  intro a a' k ha ha'
  obtain ⟨⟨k₁, v⟩, he, rfl⟩ := Option.map_eq_some_iff.mp ha
  obtain ⟨⟨k₂, v'⟩, he', hk⟩ := Option.map_eq_some_iff.mp ha'
  dsimp only at hk
  subst hk
  exact Option.some.inj ((h.index_of_entry he).symm.trans (h.index_of_entry he'))

theorem lookup_toList (h : c.Shape order) (k : α) : c.toList.lookup k = c.peek k := by
  unfold peek
  cases hk : c.index[k]? with
  | some i =>
    obtain ⟨hi, v, hv⟩ := h.index hk
    rw [Option.bind_some, hv, Option.map_some]
    refine RecencyList.lookup_of_mem h.keys_nodup ?_
    rw [h.toList_eq]
    exact List.mem_filterMap.mpr ⟨i, hi, hv⟩
  | none =>
    refine List.lookup_eq_none_iff.mpr fun p hp => ?_
    rw [h.toList_eq] at hp
    obtain ⟨j, -, hj⟩ := List.mem_filterMap.mp hp
    rw [bne_iff_ne]
    rintro rfl
    rw [h.index_of_entry hj] at hk
    cases hk

theorem contains_eq (h : c.Shape order) (k : α) :
    c.contains k = (c.toList.lookup k).isSome := by
  rw [h.lookup_toList, h.isSome_peek]

theorem entriesOf_erase (h : c.Shape order) (hk : c.index[k]? = some i) :
    c.entriesOf (order.erase i) = RecencyList.drop c.toList k := by
  obtain ⟨-, v₀, hv₀⟩ := h.index hk
  rw [h.toList_eq, h.nodup.erase_eq_filter, entriesOf, entriesOf, RecencyList.drop,
    List.filter_filterMap, List.filterMap_filter]
  refine List.filterMap_congr fun j hj => ?_
  obtain ⟨k', v', he, hk'⟩ := h.entry j hj
  rw [he]
  -- slot `j` is slot `i` exactly when its key is `k`
  by_cases hji : j = i
  · subst hji
    rw [hv₀] at he
    cases he
    simp [Option.filter_some]
  · have hkk : k' ≠ k := by
      rintro rfl
      exact hji (Option.some.inj (hk'.symm.trans hk))
    simp [Option.filter_some, hji, hkk]

theorem exists_tail (h : c.Shape (i :: order)) : ∃ t, c.tail = some t := by
  rw [h.tail, List.getLast?_cons]
  exact ⟨_, rfl⟩

/-- Evicting takes off the last entry of the list and returns it. -/
theorem toList_evictLru (h : c.Shape order) {t : Nat} (ht : c.tail = some t) :
    (c.evictLru.1, c.evictLru.2.toList) = (c.toList.getLast?, c.toList.dropLast) := by
  obtain ⟨k, v, hk, hkv, hev, hs, -, -, -, hrest⟩ := h.evictLru ht
  have hlast : c.toList.getLast? = some (k, v) := by
    rw [h.toList_eq]
    exact getLast?_entriesOf (h.tail ▸ ht) hkv
  rw [hev, hs.toList_eq, hlast, entriesOf_congr fun j hj => hrest j (h.nodup.mem_erase_iff.mp hj).1,
    h.entriesOf_erase hk, RecencyList.drop_of_getLast? h.keys_nodup hlast]

end Shape

section Specs

variable {c : ArenaCache α β} {order : List Nat}

theorem Shape.toList_get (h : c.Shape order) (k : α) :
    ((c.get k).1, (c.get k).2.toList) = RecencyList.get c.toList k := by
  rw [get_fst, RecencyList.get, h.lookup_toList]
  cases hk : c.index[k]? with
  | none =>
    have hp : c.peek k = none := by simp [peek, hk]
    have hg : (c.get k).2 = { c with stats := c.stats.miss } := by simp [get, hk]
    rw [hp, hg]
    rfl
  | some i =>
    obtain ⟨hi, v, hv⟩ := h.index hk
    have hp : c.peek k = some v := by simp [peek, hk, hv]
    have hg : (c.get k).2 = ({ c with stats := c.stats.hit } : ArenaCache α β).moveToFront i := by
      simp [get, hk]
    have hs := (h.withStats c.stats.hit).moveToFront hi
    rw [hp, hg, hs.toList_eq, entriesOf_cons (by rw [entry_moveToFront]; exact hv),
      entriesOf_congr fun j _ => entry_moveToFront _ i j]
    exact congrArg _ (congrArg _ (h.entriesOf_erase hk))

theorem Shape.toList_put (h : c.Shape order) (k : α) (v : β) :
    ((c.put k v).1, (c.put k v).2.toList) = RecencyList.put c.capacity c.toList k v := by
  rw [RecencyList.put, h.lookup_toList]
  cases hk : c.index[k]? with
  | some i =>
    obtain ⟨hi, v₀, hv₀⟩ := h.index hk
    have hp : c.peek k = some v₀ := by simp [peek, hk, hv₀]
    obtain ⟨hnone, hs, -, -⟩ := h.put_of_mem hk v
    -- the slot of `k` takes the new value and moves to the front; no other slot changes
    have hent : ∀ j, ((c.put k v).2.slot j).entry = if j = i then some (k, v) else (c.slot j).entry := by
      intro j
      simp only [put, hk]
      show (((c.modifySlot i fun x => { x with entry := some (k, v) }).moveToFront i).slot j).entry = _
      rw [entry_moveToFront, entry_setEntry _ (h.lt_size i hi)]
    have hrest : ∀ j ∈ order.erase i, ((c.put k v).2.slot j).entry = (c.slot j).entry := fun j hj => by
      rw [hent, if_neg (h.nodup.mem_erase_iff.mp hj).1]
    rw [hp, hnone, hs.toList_eq, entriesOf_cons (by rw [hent, if_pos rfl]), entriesOf_congr hrest,
      h.entriesOf_erase hk]
  | none =>
    have hp : c.peek k = none := by simp [peek, hk]
    obtain ⟨c', i, hs, hcap, hsize, -, heq, -, hent⟩ := h.put_of_absent hk v
    have hio : i ∉ order := (List.nodup_cons.mp hs.nodup).1
    -- right after the new key takes its slot, the cache lists it in front of the old entries
    have hold : ∀ j ∈ order, (c'.slot j).entry = (c.slot j).entry := fun j hj => by
      rw [hent, if_neg fun (e : j = i) => hio (e ▸ hj)]
    have hl' : c'.toList = (k, v) :: c.toList := by
      rw [hs.toList_eq, entriesOf_cons (by rw [hent, if_pos rfl]), h.toList_eq, entriesOf_congr hold]
    rw [hp, heq, hcap, ← hl', ← hs.length_toList]
    by_cases hover : c.capacity < c'.toList.length
    · -- the tail entry, the least recently used, goes
      rw [if_pos hover, if_pos hover]
      obtain ⟨t, ht⟩ := hs.exists_tail
      exact hs.toList_evictLru ht
    · rw [if_neg hover, if_neg hover]

theorem Shape.toList_remove (h : c.Shape order) (k : α) :
    ((c.remove k).1, (c.remove k).2.toList) = RecencyList.remove c.toList k := by
  rw [remove_fst, RecencyList.remove, h.lookup_toList]
  cases hk : c.index[k]? with
  | none =>
    have hp : c.peek k = none := by simp [peek, hk]
    have hr : (c.remove k).2 = c := by simp [ArenaCache.remove, hk]
    rw [hr, RecencyList.drop_of_lookup_eq_none (by rw [h.lookup_toList, hp])]
  | some i =>
    obtain ⟨hs, hrest⟩ := h.remove_of_mem hk
    rw [hs.toList_eq, entriesOf_congr fun j hj => hrest j (h.nodup.mem_erase_iff.mp hj).1,
      h.entriesOf_erase hk]

end Specs

/-- A cache that keeps the invariant for some list of its slots. -/
def Valid (c : ArenaCache α β) : Prop := ∃ order, c.Inv order

namespace Valid

variable {c : ArenaCache α β}

theorem new (capacity : Nat) : (ArenaCache.new capacity : ArenaCache α β).Valid :=
  ⟨[], Inv.new capacity⟩

theorem toList_new (capacity : Nat) : (ArenaCache.new capacity : ArenaCache α β).toList = [] :=
  (Inv.new capacity).toList_eq

theorem size_le (hc : c.Valid) : c.size ≤ c.capacity := by
  obtain ⟨order, h⟩ := hc
  exact h.size_le

theorem length_toList (hc : c.Valid) : c.toList.length = c.size := by
  obtain ⟨order, h⟩ := hc
  exact h.length_toList

theorem keys_nodup (hc : c.Valid) : (c.toList.map Prod.fst).Nodup := by
  obtain ⟨order, h⟩ := hc
  exact h.keys_nodup

theorem lookup_toList (hc : c.Valid) (k : α) : c.toList.lookup k = c.peek k := by
  obtain ⟨order, h⟩ := hc
  exact h.lookup_toList k

theorem contains_eq (hc : c.Valid) (k : α) : c.contains k = (c.toList.lookup k).isSome := by
  obtain ⟨order, h⟩ := hc
  exact h.contains_eq k

end Valid

section Requests

variable {c : ArenaCache α β}

theorem get_spec (hc : c.Valid) (k : α) :
    (c.get k).2.Valid ∧ (c.get k).2.capacity = c.capacity ∧
      ((c.get k).1, (c.get k).2.toList) = RecencyList.get c.toList k := by
  obtain ⟨order, h⟩ := hc
  exact ⟨h.get k, capacity_get c k, h.toList_get k⟩

theorem put_spec (hc : c.Valid) (k : α) (v : β) :
    (c.put k v).2.Valid ∧ (c.put k v).2.capacity = c.capacity ∧
      ((c.put k v).1, (c.put k v).2.toList) = RecencyList.put c.capacity c.toList k v := by
  obtain ⟨order, h⟩ := hc
  exact ⟨(h.put k v).1, capacity_put c k v, h.toList_put k v⟩

theorem remove_spec (hc : c.Valid) (k : α) :
    (c.remove k).2.Valid ∧ (c.remove k).2.capacity = c.capacity ∧
      ((c.remove k).1, (c.remove k).2.toList) = RecencyList.remove c.toList k := by
  obtain ⟨order, h⟩ := hc
  exact ⟨h.remove k, capacity_remove c k, h.toList_remove k⟩

theorem clear_spec (hc : c.Valid) :
    c.clear.Valid ∧ c.clear.capacity = c.capacity ∧ c.clear.toList = [] := by
  obtain ⟨order, h⟩ := hc
  exact ⟨⟨[], h.clear⟩, rfl, h.clear.toList_eq⟩

/-- A valid cache answers every request as its list does, and stays valid. -/
theorem perform_spec (hc : c.Valid) (op : RecencyOp α β) :
    (c.perform op).2.Valid ∧ (c.perform op).2.capacity = c.capacity ∧
      ((c.perform op).1, (c.perform op).2.toList) =
        RecencyList.perform c.capacity c.toList op := by
  -- the requests that change the cache answer by their own spec; the others read its list
  cases op with
  | put k v =>
    obtain ⟨hi, hcap, he⟩ := put_spec hc k v
    exact ⟨hi, hcap, by simp only [perform, RecencyList.perform, ← he]⟩
  | get k =>
    obtain ⟨hi, hcap, he⟩ := get_spec hc k
    exact ⟨hi, hcap, by simp only [perform, RecencyList.perform, ← he]⟩
  | remove k =>
    obtain ⟨hi, hcap, he⟩ := remove_spec hc k
    exact ⟨hi, hcap, by simp only [perform, RecencyList.perform, ← he]⟩
  | clear =>
    obtain ⟨hi, hcap, he⟩ := clear_spec hc
    exact ⟨hi, hcap, by simp only [perform, RecencyList.perform, he]⟩
  | peek k => exact ⟨hc, rfl, by simp [perform, RecencyList.perform, hc.lookup_toList]⟩
  | contains k =>
    refine ⟨hc, rfl, ?_⟩
    simp only [perform, RecencyList.perform, hc.contains_eq, Prod.mk.injEq, RecencyReply.flag.injEq,
      and_true]
    apply Bool.eq_iff_iff.mpr
    rw [List.lookup_isSome_iff, List.any_eq_true]
    -- the two searches compare the key from opposite sides
    simp only [beq_iff_eq]
    constructor
    · rintro ⟨p, hp, he⟩
      exact ⟨p, hp, he.symm⟩
    · rintro ⟨p, hp, he⟩
      exact ⟨p, hp, he.symm⟩
  | size => exact ⟨hc, rfl, by simp [perform, RecencyList.perform, hc.length_toList]⟩
  | isEmpty =>
    refine ⟨hc, rfl, ?_⟩
    obtain ⟨order, h⟩ := hc
    simp only [perform, RecencyList.perform, isEmpty, Std.HashMap.isEmpty_eq_size_eq_zero,
      ← h.length_toList]
    cases c.toList <;> rfl

theorem toList_perform (hc : c.Valid) (op : RecencyOp α β) :
    (c.perform op).2.toList = (RecencyList.perform c.capacity c.toList op).2 :=
  congrArg Prod.snd (perform_spec hc op).2.2

end Requests

/-- The replies of a cache to `ops` in turn, each with the entries it lists right after it. -/
def trace (c : ArenaCache α β) : List (RecencyOp α β) → List (RecencyReply α β × List (α × β))
  | [] => []
  | op :: ops => ((c.perform op).1, (c.perform op).2.toList) :: trace (c.perform op).2 ops

variable {c : ArenaCache α β}

theorem trace_eq (hc : c.Valid) (ops : List (RecencyOp α β)) :
    c.trace ops = RecencyList.trace c.capacity c.toList ops := by
  induction ops generalizing c with
  | nil => rfl
  | cons op ops ih =>
    obtain ⟨hi, hcap, he⟩ := perform_spec hc op
    rw [trace, ih hi, hcap, he, toList_perform hc op]
    rfl

theorem trace_bounded (hc : c.Valid) (ops : List (RecencyOp α β)) :
    ∀ e ∈ c.trace ops, e.2.length ≤ c.capacity ∧ (e.2.map Prod.fst).Nodup := by
  induction ops generalizing c with
  | nil => simp [trace]
  | cons op ops ih =>
    obtain ⟨hi, hcap, -⟩ := perform_spec hc op
    intro e he
    rcases List.mem_cons.mp he with rfl | he
    · rw [← hcap, hi.length_toList]
      exact ⟨hi.size_le, hi.keys_nodup⟩
    · rw [← hcap]
      exact ih hi e he

end ArenaCache

/-- A bounded cache made for `capacity` keys answers every sequence of requests exactly as the
recency list of capacity `max capacity 1` does, and lists its entries after each. -/
theorem arena_cache_refines_list {α β : Type} [DecidableEq α] [Hashable α] (capacity : Nat)
    (ops : List (RecencyOp α β)) :
    (ArenaCache.new capacity : ArenaCache α β).trace ops =
        RecencyList.trace (max capacity 1) [] ops ∧
      ∀ e ∈ (ArenaCache.new capacity : ArenaCache α β).trace ops,
        e.2.length ≤ max capacity 1 ∧ (e.2.map Prod.fst).Nodup :=
  ⟨by rw [ArenaCache.trace_eq (ArenaCache.Valid.new capacity), ArenaCache.Valid.toList_new]; rfl,
    ArenaCache.trace_bounded (ArenaCache.Valid.new capacity) ops⟩

end ColonyCache
