import ColonyCache.Proofs.Recency.Refinement
/-! The counters of a bounded cache, 64-bit words that wrap around, count the events of its
recency list since it was made or last cleared. -/
namespace ColonyCache

namespace RecencyList

variable {α β : Type} [DecidableEq α]

/-- The counts after one request to the list `l`: hits and misses, insertions and updates,
evictions, and removals that found their key; clearing starts afresh. -/
def count (capacity : Nat) (l : List (α × β)) (s : CacheStats) : RecencyOp α β → CacheStats
  | .get k => if (l.lookup k).isSome then s.hit else s.miss
  | .put k v =>
    let s := if (l.lookup k).isSome then s.updated else s.inserted
    if (put capacity l k v).1.isSome then s.evicted else s
  | .remove k => if (l.lookup k).isSome then s.removed else s
  | .clear => {}
  | .peek _ | .contains _ | .size | .isEmpty => s

def tally (capacity : Nat) (l : List (α × β)) (s : CacheStats) :
    List (RecencyOp α β) → CacheStats
  | [] => s
  | op :: ops => tally capacity (perform capacity l op).2 (count capacity l s op) ops

/-- A cache of one entry misses a key it has pushed out, and a second store of a key is an
update. -/
example : tally 1 ([] : List (Nat × Nat)) {}
    [.put 1 10, .put 2 20, .get 1, .put 2 21, .get 2, .peek 2, .remove 2, .remove 2] =
    { hits := 1, misses := 1, insertions := 2, updates := 1, evictions := 1, removals := 1 } := by
  decide

/-- The list holds one entry per insertion not undone, in the counters' wrapping arithmetic. -/
def Balanced (l : List (α × β)) (s : CacheStats) : Prop :=
  l.length.toUInt64 + s.evictions + s.removals = s.insertions

/-- The entries, the evictions and the removals number at most `n` together. -/
def Within (l : List (α × β)) (s : CacheStats) (n : Nat) : Prop :=
  l.length + s.evictions.toNat + s.removals.toNat ≤ n

theorem toNat_add_one_le (x : UInt64) : (x + 1).toNat ≤ x.toNat + 1 := by
  rw [UInt64.toNat_add, UInt64.toNat_one]
  exact Nat.mod_le _ _

variable {l : List (α × β)} {s : CacheStats} {k : α}

theorem length_get (hl : (l.map Prod.fst).Nodup) : (get l k).2.length = l.length := by
  unfold get
  cases h : l.lookup k with
  | none => rfl
  | some v =>
    have hd := length_drop_of_isSome hl (k := k) (by simp [h])
    simp only [List.length_cons]
    omega

namespace Balanced

omit [DecidableEq α] in
theorem empty : Balanced ([] : List (α × β)) {} := rfl

theorem perform (hb : Balanced l s) (hl : (l.map Prod.fst).Nodup) (capacity : Nat)
    (op : RecencyOp α β) :
    Balanced (RecencyList.perform capacity l op).2 (count capacity l s op) := by
  unfold Balanced at hb ⊢
  cases op with
  | get k =>
    rw [show (RecencyList.perform capacity l (.get k)).2 = (get l k).2 from rfl, length_get hl]
    cases h : l.lookup k <;> simpa [count, h, CacheStats.hit, CacheStats.miss] using hb
  | put k v =>
    cases h : l.lookup k with
    | some w =>
      -- an update moves the entry to the front: no entry and no insertion more
      have hd := length_drop_of_isSome hl (k := k) (by simp [h])
      have hlen : ((k, v) :: drop l k).length = l.length := by simp only [List.length_cons]; omega
      simpa [RecencyList.perform, put, count, h, hlen, CacheStats.updated] using hb
    | none =>
      by_cases hover : capacity < l.length + 1
      · -- the new entry pushes the last one out: one insertion and one eviction
        simp only [RecencyList.perform, put, count, h, hover, List.length_cons, if_true,
          List.length_dropLast, Nat.add_sub_cancel, Option.isSome_none, Bool.false_eq_true,
          if_false, List.getLast?_cons, Option.isSome_some, CacheStats.inserted,
          CacheStats.evicted]
        rw [← hb]
        grind
      · simp only [RecencyList.perform, put, count, h, hover, List.length_cons, if_false,
          Option.isSome_none, Bool.false_eq_true, CacheStats.inserted]
        rw [← hb]
        simp only [Nat.toUInt64_eq, UInt64.ofNat_add, UInt64.ofNat_one]
        grind
  | remove k =>
    cases h : l.lookup k with
    | none => simpa [RecencyList.perform, remove, count, h, drop_of_lookup_eq_none h] using hb
    | some v =>
      -- the entry goes and a removal is counted
      have hd := length_drop_of_isSome hl (k := k) (by simp [h])
      simp only [RecencyList.perform, remove, count, h, Option.isSome_some, if_true,
        CacheStats.removed]
      rw [← hb, ← hd]
      simp only [Nat.toUInt64_eq, UInt64.ofNat_add, UInt64.ofNat_one]
      grind
  | clear => rfl
  | peek k | contains k | size | isEmpty => exact hb

end Balanced

namespace Within

omit [DecidableEq α] in
theorem empty : Within ([] : List (α × β)) {} 0 := Nat.le_refl 0

theorem perform {n : Nat} (hw : Within l s n) (hl : (l.map Prod.fst).Nodup) (capacity : Nat)
    (op : RecencyOp α β) :
    Within (RecencyList.perform capacity l op).2 (count capacity l s op) (n + 1) := by
  unfold Within at hw ⊢
  cases op with
  | get k =>
    rw [show (RecencyList.perform capacity l (.get k)).2 = (get l k).2 from rfl, length_get hl]
    cases h : l.lookup k <;> simp [count, h, CacheStats.hit, CacheStats.miss] <;> omega
  | put k v =>
    cases h : l.lookup k with
    | some w =>
      have hd := length_drop_of_isSome hl (k := k) (by simp [h])
      simp [RecencyList.perform, put, count, h, CacheStats.updated]
      omega
    | none =>
      by_cases hover : capacity < l.length + 1
      · -- the list keeps its length and the evictions grow by one, or wrap around
        have he := toNat_add_one_le s.evictions
        simp [RecencyList.perform, put, count, h, hover, CacheStats.inserted, CacheStats.evicted]
        omega
      · simp [RecencyList.perform, put, count, h, hover, CacheStats.inserted]
        omega
  | remove k =>
    cases h : l.lookup k with
    | none => simpa [RecencyList.perform, remove, count, h, drop_of_lookup_eq_none h] using
        Nat.le_succ_of_le hw
    | some v =>
      have hd := length_drop_of_isSome hl (k := k) (by simp [h])
      have hr := toNat_add_one_le s.removals
      simp [RecencyList.perform, remove, count, h, CacheStats.removed]
      omega
  | clear => exact Nat.zero_le _
  | peek k | contains k | size | isEmpty => exact Nat.le_succ_of_le hw

end Within

omit [DecidableEq α] in
/-- While fewer than 2^64 events are counted, the balance holds of the counters read as numbers. -/
theorem Balanced.toNat_insertions {n : Nat} (hb : Balanced l s) (hw : Within l s n)
    (hn : n < UInt64.size) :
    s.insertions.toNat = l.length + s.evictions.toNat + s.removals.toNat := by
  unfold Balanced at hb
  unfold Within at hw
  have hlt : l.length + s.evictions.toNat + s.removals.toNat < 18446744073709551616 :=
    Nat.lt_of_le_of_lt hw hn
  rw [← hb, UInt64.toNat_add, UInt64.toNat_add, Nat.toUInt64_eq, UInt64.toNat_ofNat']
  omega

end RecencyList

namespace ArenaCache

variable {α β : Type} [DecidableEq α] [Hashable α]

section Counts

variable (c : ArenaCache α β) (k : α)

theorem stats_get : (c.get k).2.stats = if c.contains k then c.stats.hit else c.stats.miss := by
  rw [contains, Std.HashMap.contains_eq_isSome_getElem?]
  cases h : c.index[k]? with
  | none => simp [get, h]
  | some i => simp [get, h]

theorem stats_remove :
    (c.remove k).2.stats = if c.contains k then c.stats.removed else c.stats := by
  rw [contains, Std.HashMap.contains_eq_isSome_getElem?]
  cases h : c.index[k]? with
  | none => simp [ArenaCache.remove, h]
  | some i => simp [ArenaCache.remove, h]

end Counts

variable {c : ArenaCache α β} {order : List Nat}

theorem Shape.stats_put (h : c.Shape order) (k : α) (v : β) :
    (c.put k v).2.stats =
      let s := if c.contains k then c.stats.updated else c.stats.inserted
      if (c.put k v).1.isSome then s.evicted else s := by
  rw [contains, Std.HashMap.contains_eq_isSome_getElem?]
  cases hk : c.index[k]? with
  | some i => simp [put, hk]
  | none =>
    obtain ⟨c', i, hs, -, -, -, heq, hst, -⟩ := h.put_of_absent hk v
    simp only [Option.isSome_none, Bool.false_eq_true, if_false]
    rw [heq]
    split
    · -- a full cache evicts its tail entry, and counts it
      obtain ⟨t, ht⟩ := hs.exists_tail
      obtain ⟨k', v', -, -, hev, -, -, -, hst', -⟩ := hs.evictLru ht
      simp [hev, hst', hst]
    · simp [hst]

theorem stats_perform (hc : c.Valid) (op : RecencyOp α β) :
    (c.perform op).2.stats = RecencyList.count c.capacity c.toList c.stats op := by
  obtain ⟨order, h⟩ := hc
  cases op with
  | get k => simp only [perform, RecencyList.count, stats_get, h.contains_eq]
  | put k v =>
    -- the cache returns an entry exactly when its list does
    have he : (c.put k v).1 = (RecencyList.put c.capacity c.toList k v).1 :=
      congrArg Prod.fst (h.toList_put k v)
    simp only [perform, RecencyList.count, h.stats_put, h.contains_eq, he]
  | remove k => simp only [perform, RecencyList.count, stats_remove, h.contains_eq]
  | clear => rfl
  | peek k | contains k | size | isEmpty => rfl

theorem run_append (c : ArenaCache α β) (ops ops' : List (RecencyOp α β)) :
    c.run (ops ++ ops') = (c.run ops).run ops' := by
  induction ops generalizing c with
  | nil => rfl
  | cons op ops ih => exact ih _

theorem Valid.run (hc : c.Valid) (ops : List (RecencyOp α β)) : (c.run ops).Valid := by
  induction ops generalizing c with
  | nil => exact hc
  | cons op ops ih => exact ih (perform_spec hc op).1

theorem stats_run (hc : c.Valid) (ops : List (RecencyOp α β)) :
    (c.run ops).stats = RecencyList.tally c.capacity c.toList c.stats ops := by
  induction ops generalizing c with
  | nil => rfl
  | cons op ops ih =>
    obtain ⟨hi, hcap, -⟩ := perform_spec hc op
    rw [run, ih hi, hcap, toList_perform hc op, stats_perform hc op]
    rfl

theorem Valid.balanced_run (hc : c.Valid) (hb : RecencyList.Balanced c.toList c.stats)
    (ops : List (RecencyOp α β)) : RecencyList.Balanced (c.run ops).toList (c.run ops).stats := by
  induction ops generalizing c with
  | nil => exact hb
  | cons op ops ih =>
    apply ih (perform_spec hc op).1
    rw [toList_perform hc op, stats_perform hc op]
    exact hb.perform hc.keys_nodup c.capacity op

theorem Valid.within_run (hc : c.Valid) {n : Nat} (hw : RecencyList.Within c.toList c.stats n)
    (ops : List (RecencyOp α β)) :
    RecencyList.Within (c.run ops).toList (c.run ops).stats (n + ops.length) := by
  induction ops generalizing c n with
  | nil => exact hw
  | cons op ops ih =>
    have h := ih (perform_spec hc op).1 (n := n + 1)
      (by rw [toList_perform hc op, stats_perform hc op]; exact hw.perform hc.keys_nodup _ op)
    rw [ArenaCache.run, List.length_cons, show n + (ops.length + 1) = n + 1 + ops.length by omega]
    exact h

/-- A run from a new cache stays balanced, with at most one event per request. -/
theorem counted_run_new (capacity : Nat) (ops : List (RecencyOp α β)) :
    let c := (ArenaCache.new capacity : ArenaCache α β).run ops
    RecencyList.Balanced c.toList c.stats ∧ RecencyList.Within c.toList c.stats ops.length := by
  have h0 := Valid.new (α := α) (β := β) capacity
  refine ⟨h0.balanced_run (by rw [Valid.toList_new]; exact RecencyList.Balanced.empty) ops, ?_⟩
  have hw := h0.within_run (n := 0) (by rw [Valid.toList_new]; exact RecencyList.Within.empty) ops
  rw [Nat.zero_add] at hw
  exact hw

theorem put_into_unit {c : ArenaCache α β} (hc : c.Valid) (hcap : c.capacity = 1) {j k : α}
    {w v : β} (hl : c.toList = [(j, w)]) (hk : k ≠ j) :
    (c.perform (.put k v)).2.toList = [(k, v)] ∧
      (c.perform (.put k v)).2.stats = c.stats.inserted.evicted := by
  have hlook : [(j, w)].lookup k = none := by simp [List.lookup_cons, beq_false_of_ne hk]
  have hput : RecencyList.put 1 [(j, w)] k v = (some (j, w), [(k, v)]) := by
    simp [RecencyList.put, hlook]
  refine ⟨?_, ?_⟩
  · rw [toList_perform hc, hcap, hl]
    simp [RecencyList.perform, hput]
  · rw [stats_perform hc, hcap, hl]
    simp [RecencyList.count, hlook, hput]

/-- Storing the keys `0, …, n` into a new cache of one entry counts `n + 1` insertions and `n`
evictions. -/
theorem unit_cache_puts (n : Nat) :
    let c := (ArenaCache.new 1 : ArenaCache Nat Nat).run
      ((List.range (n + 1)).map fun i => .put i 0)
    c.Valid ∧ c.capacity = 1 ∧ c.toList = [(n, 0)] ∧
      c.stats = { insertions := (n + 1).toUInt64, evictions := n.toUInt64 } := by
  induction n with
  | zero =>
    have h0 := Valid.new (α := Nat) (β := Nat) 1
    refine ⟨h0.run _, capacity_run _ _, ?_, ?_⟩
    · show ((ArenaCache.new 1).perform (.put 0 0)).2.toList = _
      rw [toList_perform h0, Valid.toList_new]
      rfl
    · show ((ArenaCache.new 1).perform (.put 0 0)).2.stats = _
      rw [stats_perform h0, Valid.toList_new]
      rfl
  | succ n ih =>
    obtain ⟨hv, hcap, hl, hs⟩ := ih
    -- the last store follows the run over the first `n + 1` keys
    have hone : ∀ (c : ArenaCache Nat Nat) op, c.run [op] = (c.perform op).2 := fun _ _ => rfl
    rw [List.range_succ, List.map_append, run_append, List.map_cons, List.map_nil, hone]
    obtain ⟨hl', hs'⟩ := put_into_unit (v := 0) hv hcap hl (Nat.succ_ne_self n)
    refine ⟨(perform_spec hv _).1, by rw [capacity_perform, hcap], hl', ?_⟩
    rw [hs', hs]
    simp [CacheStats.inserted, CacheStats.evicted]

end ArenaCache

/-- Along every sequence of requests a bounded cache's counters are the events of its recency
list, in 64-bit words; while fewer than 2^64 requests are made, the keys are exactly the insertions
less the evictions and removals. -/
theorem arena_cache_counts_events {α β : Type} [DecidableEq α] [Hashable α] (capacity : Nat)
    (ops : List (RecencyOp α β)) :
    let c := (ArenaCache.new capacity : ArenaCache α β).run ops
    c.stats = RecencyList.tally (max capacity 1) [] {} ops ∧
      c.size.toUInt64 = c.stats.insertions - c.stats.evictions - c.stats.removals ∧
      (ops.length < UInt64.size →
        c.size = c.stats.insertions.toNat - c.stats.evictions.toNat - c.stats.removals.toNat ∧
          c.stats.evictions ≤ c.stats.insertions) := by
  intro c
  obtain ⟨hb, hw⟩ : RecencyList.Balanced c.toList c.stats ∧
      RecencyList.Within c.toList c.stats ops.length := ArenaCache.counted_run_new capacity ops
  have h0 := ArenaCache.Valid.new (α := α) (β := β) capacity
  have hsize : c.toList.length = c.size := (h0.run ops).length_toList
  refine ⟨?_, ?_, fun hops => ?_⟩
  · rw [ArenaCache.stats_run h0, ArenaCache.Valid.toList_new]
    rfl
  · unfold RecencyList.Balanced at hb
    rw [← hb, ← hsize]
    grind
  · -- nothing wrapped: the law holds of the counters read as numbers
    have hins := hb.toNat_insertions hw hops
    refine ⟨by omega, ?_⟩
    rw [UInt64.le_iff_toNat_le]
    omega

/-- After 2^64 stores into a cache of one entry, the insertions have wrapped to zero below the
evictions. -/
theorem unit_cache_counts_wrap :
    let c := (ArenaCache.new 1 : ArenaCache Nat Nat).run
      ((List.range UInt64.size).map fun i => .put i 0)
    c.size = 1 ∧ c.stats.insertions = 0 ∧ c.stats.evictions = 18446744073709551615 := by
  obtain ⟨hv, -, hl, hs⟩ := ArenaCache.unit_cache_puts 18446744073709551615
  refine ⟨?_, ?_, ?_⟩
  · rw [← hv.length_toList, hl]
    rfl
  · rw [hs]
    rfl
  · rw [hs]
    rfl

end ColonyCache
