import Std.Data.HashMap.Lemmas
import ColonyCache.Proofs.Recency.ArenaLinks
import ColonyCache.Proofs.Recency.List
/-! The representation invariant of an arena cache, kept by every request: the linked slots hold
exactly the stored entries, and every other slot is free. -/
namespace ColonyCache

namespace ArenaCache

variable {α β : Type} [DecidableEq α] [Hashable α]

/-- What the slots and the index of a cache whose links lay out `order` agree on. -/
structure Shape (c : ArenaCache α β) (order : List Nat) : Prop extends c.Links order where
  -- each listed slot holds the entry of a key indexed to it, and each indexed key is listed
  entry : ∀ i ∈ order, ∃ k v, (c.slot i).entry = some (k, v) ∧ c.index[k]? = some i
  index : ∀ {k i}, c.index[k]? = some i → i ∈ order ∧ ∃ v, (c.slot i).entry = some (k, v)
  length : order.length = c.index.size
  -- every other slot of the arena is free once, and empty
  free_nodup : c.free.Nodup
  free_lt : ∀ i ∈ c.free, i < c.slots.size
  free_entry : ∀ i ∈ c.free, (c.slot i).entry = none
  free_not_mem : ∀ i ∈ c.free, i ∉ order
  cover : ∀ i < c.slots.size, i ∈ order ∨ i ∈ c.free
  slots_size : c.slots.size = c.index.size + c.free.length

namespace Shape

variable {c c' : ArenaCache α β} {order order' : List Nat} {i : Nat} {k : α}

theorem relink (h : c.Shape order) (hl : c'.Links order') (hmem : ∀ j, j ∈ order' ↔ j ∈ order)
    (hlen : order'.length = order.length) (hidx : c'.index = c.index) (hfree : c'.free = c.free)
    (hsize : c'.slots.size = c.slots.size) (hent : ∀ j, (c'.slot j).entry = (c.slot j).entry) :
    c'.Shape order' where
  toLinks := hl
  entry j hj := by
    obtain ⟨k, v, he, hk⟩ := h.entry j ((hmem j).mp hj)
    exact ⟨k, v, (hent j).trans he, hidx ▸ hk⟩
  index {k j} hk := by
    obtain ⟨hj, v, he⟩ := h.index (hidx ▸ hk)
    exact ⟨(hmem j).mpr hj, v, (hent j).trans he⟩
  length := hlen.trans (h.length.trans (congrArg _ hidx.symm))
  free_nodup := hfree ▸ h.free_nodup
  free_lt j hj := hsize ▸ h.free_lt j (hfree ▸ hj)
  free_entry j hj := (hent j).trans (h.free_entry j (hfree ▸ hj))
  free_not_mem j hj hj' := h.free_not_mem j (hfree ▸ hj) ((hmem j).mp hj')
  cover j hj := by
    rcases h.cover j (hsize ▸ hj) with hj' | hj'
    · exact .inl ((hmem j).mpr hj')
    · exact .inr (hfree ▸ hj')
  slots_size := by rw [hsize, hidx, hfree]; exact h.slots_size

theorem withStats (h : c.Shape order) (s : CacheStats) :
    ({ c with stats := s } : ArenaCache α β).Shape order :=
  h.relink (h.toLinks.of_links rfl rfl (fun _ => rfl) (fun _ => rfl) rfl) (fun _ => Iff.rfl) rfl
    rfl rfl rfl fun _ => rfl

theorem moveToFront (h : c.Shape order) (hi : i ∈ order) :
    (c.moveToFront i).Shape (i :: order.erase i) := by
  refine h.relink (h.toLinks.moveToFront hi) (fun j => ?_) ?_ index_moveToFront free_moveToFront
    slots_size_moveToFront (entry_moveToFront c i)
  · rw [List.mem_cons, h.nodup.mem_erase_iff]
    by_cases hj : j = i
    · subst hj; simp [hi]
    · simp [hj]
  · rw [List.length_cons, List.length_erase_of_mem hi]
    have := List.length_pos_of_mem hi
    omega

theorem setEntry (h : c.Shape order) (hk : c.index[k]? = some i) (v : β) :
    (c.modifySlot i fun x => { x with entry := some (k, v) }).Shape order := by
  obtain ⟨hi, v₀, hv₀⟩ := h.index hk
  -- only slot `i` changes, and it keeps its key
  have hent := entry_setEntry c (h.lt_size i hi) (some (k, v))
  refine ⟨h.toLinks.setEntry i _, fun j hj => ?_, fun {k' j} hk' => ?_, h.length, h.free_nodup,
    fun j hj => by simpa using h.free_lt j hj, fun j hj => ?_, h.free_not_mem, fun j hj => ?_,
    by simpa using h.slots_size⟩
  · rw [hent]
    by_cases hji : j = i
    · subst hji; exact ⟨k, v, if_pos rfl, hk⟩
    · rw [if_neg hji]; exact h.entry j hj
  · obtain ⟨hj, v', hv'⟩ := h.index hk'
    refine ⟨hj, ?_⟩
    rw [hent]
    by_cases hji : j = i
    · -- slot `i` held the entry of `k`, so `k'` is `k`
      subst hji
      rw [hv₀] at hv'
      cases hv'
      exact ⟨v, if_pos rfl⟩
    · exact ⟨v', by rw [if_neg hji, hv']⟩
  · have hji : j ≠ i := fun e => h.free_not_mem j hj (e ▸ hi)
    rw [hent, if_neg hji]
    exact h.free_entry j hj
  · exact h.cover j (by simpa using hj)

/-- Giving back the slot `i` of key `k` keeps the shape of the rest of the list. -/
theorem release (h : c.Shape order) (hk : c.index[k]? = some i) (hl : c'.Links (order.erase i))
    (hidx : c'.index = c.index.erase k) (hfree : c'.free = i :: c.free)
    (hsize : c'.slots.size = c.slots.size)
    (hent : ∀ j, (c'.slot j).entry = if j = i then none else (c.slot j).entry) :
    c'.Shape (order.erase i) := by
  obtain ⟨hi, v₀, hv₀⟩ := h.index hk
  have hmem : ∀ {j}, j ∈ order.erase i ↔ j ≠ i ∧ j ∈ order := h.nodup.mem_erase_iff
  have hfi : i ∉ c.free := fun hf => h.free_not_mem i hf hi
  -- a key indexed to a slot other than `i` is not `k`
  have hkey : ∀ {k' j}, c.index[k']? = some j → j ≠ i → (k == k') = false := by
    intro k' j hk' hji
    rw [beq_eq_false_iff_ne]
    rintro rfl
    exact hji (Option.some.inj (hk'.symm.trans hk))
  refine ⟨hl, fun j hj => ?_, fun {k' j} hk' => ?_, ?_, ?_, fun j hj => ?_, fun j hj => ?_,
    fun j hj => ?_, fun j hj => ?_, ?_⟩
  · obtain ⟨hji, hj⟩ := hmem.mp hj
    obtain ⟨k', v', he, hk'⟩ := h.entry j hj
    refine ⟨k', v', by rw [hent, if_neg hji, he], ?_⟩
    rw [hidx, Std.HashMap.getElem?_erase, hkey hk' hji]
    exact hk'
  · rw [hidx, Std.HashMap.getElem?_erase] at hk'
    split at hk'
    · cases hk'
    · obtain ⟨hj, v', hv'⟩ := h.index hk'
      -- two keys indexed to slot `i` would both be the key of its entry
      have hji : j ≠ i := by
        rintro rfl
        rw [hv₀] at hv'
        cases hv'
        simp_all
      exact ⟨hmem.mpr ⟨hji, hj⟩, v', by rw [hent, if_neg hji, hv']⟩
  · have hkm : k ∈ c.index := Std.HashMap.mem_iff_isSome_getElem?.mpr (by simp [hk])
    rw [List.length_erase_of_mem hi, h.length, hidx, Std.HashMap.size_erase, if_pos hkm]
  · rw [hfree]
    exact List.nodup_cons.mpr ⟨hfi, h.free_nodup⟩
  · rw [hsize]
    rw [hfree] at hj
    rcases List.mem_cons.mp hj with rfl | hj
    · exact h.lt_size j hi
    · exact h.free_lt j hj
  · rw [hent]
    rw [hfree] at hj
    rcases List.mem_cons.mp hj with rfl | hj
    · exact if_pos rfl
    · have hji : j ≠ i := fun e => hfi (e ▸ hj)
      rw [if_neg hji]
      exact h.free_entry j hj
  · rw [hfree] at hj
    rcases List.mem_cons.mp hj with rfl | hj
    · exact h.nodup.not_mem_erase
    · exact fun hj' => h.free_not_mem j hj (hmem.mp hj').2
  · rw [hfree]
    rcases h.cover j (hsize ▸ hj) with hj' | hj'
    · by_cases hji : j = i
      · exact .inr (hji ▸ List.mem_cons_self)
      · exact .inl (hmem.mpr ⟨hji, hj'⟩)
    · exact .inr (List.mem_cons_of_mem _ hj')
  · have hkm : k ∈ c.index := Std.HashMap.mem_iff_isSome_getElem?.mpr (by simp [hk])
    have hpos : 0 < c.index.size := by
      rw [← h.length]; exact List.length_pos_of_mem hi
    rw [hsize, hidx, hfree, Std.HashMap.size_erase, if_pos hkm, List.length_cons, h.slots_size]
    omega

/-- Taking a free or new slot for a new key, in front of the list, keeps the shape. -/
theorem insert (h : c.Shape order) (hk : c.index[k]? = none) {v : β}
    (hl : c'.Links (i :: order)) (hidx : c'.index = c.index.insert k i)
    (hslots : (i :: c'.free = c.free ∧ c'.slots.size = c.slots.size) ∨
      (c.free = [] ∧ c'.free = [] ∧ i = c.slots.size ∧ c'.slots.size = c.slots.size + 1))
    (hent : ∀ j, (c'.slot j).entry = if j = i then some (k, v) else (c.slot j).entry) :
    c'.Shape (i :: order) := by
  have hio : i ∉ order := (List.nodup_cons.mp hl.nodup).1
  have hne : ∀ {j}, j ∈ order → j ≠ i := fun hj e => hio (e ▸ hj)
  -- the new slot is no old free slot other than itself, and every old free slot stays free
  have hfree_sub : ∀ j ∈ c'.free, j ∈ c.free ∧ j ≠ i := by
    rcases hslots with ⟨hf, -⟩ | ⟨-, hf, -, -⟩
    · intro j hj
      have hnd := hf ▸ h.free_nodup
      exact ⟨hf ▸ List.mem_cons_of_mem _ hj, fun e => (List.nodup_cons.mp hnd).1 (e ▸ hj)⟩
    · simp [hf]
  have hkey : ∀ {k' j}, c.index[k']? = some j → (k == k') = false := by
    intro k' j hk'
    rw [beq_eq_false_iff_ne]
    rintro rfl
    rw [hk] at hk'
    cases hk'
  refine ⟨hl, fun j hj => ?_, fun {k' j} hk' => ?_, ?_, ?_, fun j hj => ?_, fun j hj => ?_,
    fun j hj => ?_, fun j hj => ?_, ?_⟩
  · rw [hent, hidx]
    rcases List.mem_cons.mp hj with rfl | hj
    · exact ⟨k, v, if_pos rfl, by simp⟩
    · obtain ⟨k', v', he, hk'⟩ := h.entry j hj
      refine ⟨k', v', by rw [if_neg (hne hj), he], ?_⟩
      rw [Std.HashMap.getElem?_insert, hkey hk']
      exact hk'
  · rw [hidx, Std.HashMap.getElem?_insert] at hk'
    split at hk'
    · next hkk =>
      cases hk'
      have : k = k' := beq_iff_eq.mp hkk
      subst this
      exact ⟨List.mem_cons_self, v, by rw [hent, if_pos rfl]⟩
    · obtain ⟨hj, v', hv'⟩ := h.index hk'
      exact ⟨List.mem_cons_of_mem _ hj, v', by rw [hent, if_neg (hne hj), hv']⟩
  · have hkm : k ∉ c.index := fun hm => by
      rw [Std.HashMap.mem_iff_isSome_getElem?, hk] at hm; cases hm
    rw [List.length_cons, h.length, hidx, Std.HashMap.size_insert, if_neg hkm]
  · rcases hslots with ⟨hf, -⟩ | ⟨-, hf, -, -⟩
    · have hnd := hf ▸ h.free_nodup
      exact (List.nodup_cons.mp hnd).2
    · rw [hf]; exact List.nodup_nil
  · obtain ⟨hj, -⟩ := hfree_sub j hj
    rcases hslots with ⟨-, hs⟩ | ⟨-, -, -, hs⟩
    · exact hs ▸ h.free_lt j hj
    · rw [hs]; exact Nat.lt_succ_of_lt (h.free_lt j hj)
  · obtain ⟨hj, hji⟩ := hfree_sub j hj
    rw [hent, if_neg hji]
    exact h.free_entry j hj
  · obtain ⟨hj, hji⟩ := hfree_sub j hj
    rw [List.mem_cons, not_or]
    exact ⟨hji, h.free_not_mem j hj⟩
  · rcases hslots with ⟨hf, hs⟩ | ⟨hf₀, hf, hi, hs⟩
    · rcases h.cover j (hs ▸ hj) with hj' | hj'
      · exact .inl (List.mem_cons_of_mem _ hj')
      · rw [← hf] at hj'
        rcases List.mem_cons.mp hj' with rfl | hj'
        · exact .inl List.mem_cons_self
        · exact .inr hj'
    · rw [hs] at hj
      rcases Nat.lt_succ_iff_lt_or_eq.mp hj with hj | rfl
      · rcases h.cover j hj with hj' | hj'
        · exact .inl (List.mem_cons_of_mem _ hj')
        · rw [hf₀] at hj'; cases hj'
      · exact .inl (hi ▸ List.mem_cons_self)
  · have hkm : k ∉ c.index := fun hm => by
      rw [Std.HashMap.mem_iff_isSome_getElem?, hk] at hm; cases hm
    rw [hidx, Std.HashMap.size_insert, if_neg hkm]
    rcases hslots with ⟨hf, hs⟩ | ⟨hf₀, hf, -, hs⟩
    · rw [hs, h.slots_size, ← hf, List.length_cons]
      omega
    · rw [hs, h.slots_size, hf₀, hf]
      rfl

theorem alloc (h : c.Shape order) (k : α) (v : β) :
    (c.alloc k v).1 ∉ order ∧ (c.alloc k v).1 < (c.alloc k v).2.slots.size ∧
      (c.alloc k v).2.Links order := by
  -- the slot handed out is free or past the end of the arena, so it is off the list
  have hfresh : (c.alloc k v).1 ∉ order ∧ (c.alloc k v).1 < (c.alloc k v).2.slots.size ∧
      c.slots.size ≤ (c.alloc k v).2.slots.size := by
    rcases alloc_free c k v with ⟨hf, hs⟩ | ⟨-, -, hi, hs⟩
    · have hmem : (c.alloc k v).1 ∈ c.free := hf ▸ List.mem_cons_self
      exact ⟨h.free_not_mem _ hmem, hs ▸ h.free_lt _ hmem, Nat.le_of_eq hs.symm⟩
    · exact ⟨fun hm => Nat.lt_irrefl _ (hi ▸ h.lt_size _ hm), by omega, by omega⟩
  obtain ⟨hio, hlt, hle⟩ := hfresh
  have hne : ∀ {j}, j ∈ order → j ≠ (c.alloc k v).1 := fun hj e => hio (e ▸ hj)
  refine ⟨hio, hlt, h.nodup, by rw [head_alloc, h.head], by rw [tail_alloc, h.tail],
    fun j hj => ?_, fun j hj => ?_, fun j hj => Nat.lt_of_lt_of_le (h.lt_size j hj) hle⟩
  · rw [slot_alloc h.free_lt, if_neg (hne hj)]; exact h.next j hj
  · rw [slot_alloc h.free_lt, if_neg (hne hj)]; exact h.prev j hj

/-- Evicting takes out the entry of the tail slot and keeps the shape of the rest of the list. -/
theorem evictLru (h : c.Shape order) {t : Nat} (ht : c.tail = some t) :
    ∃ k v, c.index[k]? = some t ∧ (c.slot t).entry = some (k, v) ∧ c.evictLru.1 = some (k, v) ∧
      c.evictLru.2.Shape (order.erase t) ∧ c.evictLru.2.capacity = c.capacity ∧
      c.evictLru.2.slots.size = c.slots.size ∧ c.evictLru.2.stats = c.stats.evicted ∧
      ∀ j, j ≠ t → (c.evictLru.2.slot j).entry = (c.slot j).entry := by
  have hto : t ∈ order := List.mem_of_getLast? (h.tail ▸ ht)
  obtain ⟨k, v, hkv, hk⟩ := h.entry t hto
  have hent : ((c.unlink t).slots.getD t {}).entry = some (k, v) := by
    show ((c.unlink t).slot t).entry = _
    rw [entry_unlink, hkv]
  have heq : c.evictLru = (some (k, v),
      { ({ c.unlink t with free := t :: c.free } : ArenaCache α β).modifySlot t
          (fun x => { x with entry := none }) with
        index := c.index.erase k, stats := c.stats.evicted }) := by
    unfold ArenaCache.evictLru
    simp only [ht, ArenaCache.slot, hent, index_unlink, stats_unlink, free_unlink]
  -- the slot given back is the only one whose entry changes
  have hent : ∀ j, (c.evictLru.2.slot j).entry = if j = t then none else (c.slot j).entry := by
    intro j
    rw [heq]
    show (((c.unlink t).modifySlot t fun x => { x with entry := none }).slot j).entry = _
    rw [entry_setEntry _ (by simpa using h.lt_size t hto), entry_unlink]
  refine ⟨k, v, hk, hkv, by rw [heq], ?_, by rw [heq]; simp, by rw [heq]; simp, by rw [heq],
    fun j hj => by rw [hent, if_neg hj]⟩
  have hl : (c.unlink t).Links (order.erase t) := h.toLinks.unlink hto
  refine h.release hk ?_ (by rw [heq]) (by rw [heq]; simp) (by rw [heq]; simp) hent
  rw [heq]
  exact (hl.setEntry t none).of_links rfl rfl (fun _ => rfl) (fun _ => rfl) rfl

theorem empty {n : Nat} (hi : c.index = Std.HashMap.emptyWithCapacity n) (hs : c.slots = #[])
    (hf : c.free = []) (hh : c.head = none) (ht : c.tail = none) : c.Shape [] where
  nodup := List.nodup_nil
  head := hh
  tail := ht
  next := by simp
  prev := by simp
  lt_size := by simp
  entry := by simp
  index {k i} hk := by simp [hi] at hk
  length := by simp [hi]
  free_nodup := by simp [hf]
  free_lt := by simp [hf]
  free_entry := by simp [hf]
  free_not_mem := by simp [hf]
  cover := by simp [hs]
  slots_size := by simp [hi, hs, hf]

theorem put_of_mem (h : c.Shape order) (hk : c.index[k]? = some i) (v : β) :
    (c.put k v).1 = none ∧ (c.put k v).2.Shape (i :: order.erase i) ∧
      (c.put k v).2.index = c.index ∧ (c.put k v).2.slots.size = c.slots.size := by
  have hs := ((h.setEntry hk v).moveToFront (h.index hk).1).withStats
  unfold ArenaCache.put
  split
  · next i' hk' =>
    rw [hk] at hk'
    cases hk'
    exact ⟨rfl, hs _, by simp, by simp⟩
  · next hk' => rw [hk] at hk'; cases hk'

/-- Storing a new key takes a slot in front of the list, before anything is evicted. -/
theorem put_of_absent (h : c.Shape order) (hk : c.index[k]? = none) (v : β) :
    ∃ c' i, c'.Shape (i :: order) ∧ c'.capacity = c.capacity ∧
      c'.index.size = c.index.size + 1 ∧
      (c'.slots.size = c.slots.size ∨ (c.free = [] ∧ c'.slots.size = c.slots.size + 1)) ∧
      c.put k v = (if c'.capacity < c'.index.size then c'.evictLru else (none, c')) ∧
      c'.stats = c.stats.inserted ∧
      ∀ j, (c'.slot j).entry = if j = i then some (k, v) else (c.slot j).entry := by
  obtain ⟨hio, hlt, hl⟩ := h.alloc k v
  have hfree := alloc_free c k v
  have hslot := @slot_alloc _ _ _ _ c k v h.free_lt
  have hcap := @capacity_alloc _ _ _ _ c k v
  have hidx := @index_alloc _ _ _ _ c k v
  have hst := @stats_alloc _ _ _ _ c k v
  rcases hp : c.alloc k v with ⟨i, c₁⟩
  simp only [hp] at hio hlt hl hfree hslot hcap hidx hst
  -- the cache right after the new key goes in: indexed to its slot, which is linked in front
  let c₂ : ArenaCache α β := { c₁ with index := c₁.index.insert k i }
  let c₃ : ArenaCache α β := { c₂.pushFront i with stats := (c₂.pushFront i).stats.inserted }
  have hkm : k ∉ c.index := fun hm => by
    rw [Std.HashMap.mem_iff_isSome_getElem?, hk] at hm; cases hm
  have hl₃ : c₃.Links (i :: order) :=
    ((show c₂.Links order from hl.of_links rfl rfl (fun _ => rfl) (fun _ => rfl) rfl).pushFront
      hio hlt).of_links rfl rfl (fun _ => rfl) (fun _ => rfl) rfl
  have hidx₃ : c₃.index = c.index.insert k i := by
    show (c₂.pushFront i).index = _
    rw [index_pushFront]
    show c₁.index.insert k i = _
    rw [hidx]
  have hfree₃ : c₃.free = c₁.free := free_pushFront
  have hsize₃ : c₃.slots.size = c₁.slots.size := slots_size_pushFront
  have hent : ∀ j, (c₃.slot j).entry = if j = i then some (k, v) else (c.slot j).entry := by
    intro j
    show ((c₂.pushFront i).slot j).entry = _
    rw [entry_pushFront]
    show (c₁.slot j).entry = _
    rw [hslot j]
    split <;> rfl
  -- the slot came off the free list, or the arena grew by one
  have hslots : (i :: c₃.free = c.free ∧ c₃.slots.size = c.slots.size) ∨
      (c.free = [] ∧ c₃.free = [] ∧ i = c.slots.size ∧ c₃.slots.size = c.slots.size + 1) := by
    rw [hfree₃, hsize₃]; exact hfree
  refine ⟨c₃, i, h.insert hk hl₃ hidx₃ hslots hent, ?_, ?_, ?_, ?_, ?_, ?_⟩
  · show (c₂.pushFront i).capacity = _
    rw [capacity_pushFront]
    exact hcap
  · rw [hidx₃, Std.HashMap.size_insert, if_neg hkm]
  · rcases hslots with ⟨-, hs⟩ | ⟨hf, -, -, hs⟩
    · exact .inl hs
    · exact .inr ⟨hf, hs⟩
  · simp only [ArenaCache.put, hk, hp]
    rfl
  · show (c₂.pushFront i).stats.inserted = _
    rw [stats_pushFront]
    show c₁.stats.inserted = _
    rw [hst]
  · exact hent

theorem remove_of_mem (h : c.Shape order) (hk : c.index[k]? = some i) :
    (c.remove k).2.Shape (order.erase i) ∧
      ∀ j, j ≠ i → ((c.remove k).2.slot j).entry = (c.slot j).entry := by
  have hi := (h.index hk).1
  let c₁ : ArenaCache α β := { c with index := c.index.erase k }
  have heq : (c.remove k).2 = ({ c₁.unlink i with free := i :: c.free, stats := c.stats.removed } :
      ArenaCache α β).modifySlot i fun x => { x with entry := none } := by
    simp only [ArenaCache.remove, hk, free_unlink, stats_unlink]
    rfl
  have hent : ∀ j, ((c.remove k).2.slot j).entry = if j = i then none else (c.slot j).entry := by
    intro j
    rw [heq]
    show (((c₁.unlink i).modifySlot i fun x => { x with entry := none }).slot j).entry = _
    rw [entry_setEntry _ (by simpa [c₁] using h.lt_size i hi), entry_unlink]
    rfl
  -- unlinking does not read the index, so the rest of the list stays linked
  have hl : (c₁.unlink i).Links (order.erase i) :=
    (show c₁.Links order from h.toLinks.of_links rfl rfl (fun _ => rfl) (fun _ => rfl) rfl).unlink hi
  refine ⟨h.release hk ?_ (by rw [heq]; simp [c₁]) (by rw [heq]; rfl) (by rw [heq]; simp [c₁]) hent,
    fun j hj => by rw [hent, if_neg hj]⟩
  rw [heq]
  exact (hl.setEntry i none).of_links rfl rfl (fun _ => rfl) (fun _ => rfl) rfl

theorem remove (h : c.Shape order) (k : α) : ∃ order', (c.remove k).2.Shape order' := by
  cases hk : c.index[k]? with
  | none => exact ⟨order, by simpa [ArenaCache.remove, hk] using h⟩
  | some i => exact ⟨_, (h.remove_of_mem hk).1⟩

end Shape

section Requests

variable (c : ArenaCache α β) (k : α) (v : β)

@[simp] theorem capacity_evictLru : c.evictLru.2.capacity = c.capacity := by
  unfold evictLru
  split
  · rfl
  · dsimp only; split <;> simp

@[simp] theorem capacity_get : (c.get k).2.capacity = c.capacity := by
  unfold get; split <;> simp

@[simp] theorem index_get : (c.get k).2.index = c.index := by
  unfold get; split <;> simp

@[simp] theorem slots_size_get : (c.get k).2.slots.size = c.slots.size := by
  unfold get; split <;> simp

@[simp] theorem capacity_put : (c.put k v).2.capacity = c.capacity := by
  unfold put
  split
  · simp
  · dsimp only; split <;> simp

@[simp] theorem capacity_remove : (c.remove k).2.capacity = c.capacity := by
  unfold remove; split <;> simp

@[simp] theorem slots_size_remove : (c.remove k).2.slots.size = c.slots.size := by
  unfold remove; split <;> simp

theorem get_fst : (c.get k).1 = c.peek k := by
  unfold get peek
  split
  · next i hk =>
    dsimp only
    rw [hk, Option.bind_some, entry_moveToFront]
    rfl
  · next hk => rw [hk]; rfl

theorem remove_fst : (c.remove k).1 = c.peek k := by
  unfold remove peek
  split
  · next hk => rw [hk]; rfl
  · next i hk =>
    show Option.map _ (((({ c with index := c.index.erase k } : ArenaCache α β).unlink i).slot i).entry) = _
    rw [hk, Option.bind_some, entry_unlink]
    rfl

end Requests

def perform (c : ArenaCache α β) : RecencyOp α β → RecencyReply α β × ArenaCache α β
  | .put k v => let r := c.put k v; (.evicted r.1, r.2)
  | .get k => let r := c.get k; (.value r.1, r.2)
  | .peek k => (.value (c.peek k), c)
  | .contains k => (.flag (c.contains k), c)
  | .remove k => let r := c.remove k; (.value r.1, r.2)
  | .clear => (.done, c.clear)
  | .size => (.count c.size, c)
  | .isEmpty => (.flag c.isEmpty, c)

def run (c : ArenaCache α β) : List (RecencyOp α β) → ArenaCache α β
  | [] => c
  | op :: ops => (c.perform op).2.run ops

@[simp] theorem capacity_perform (c : ArenaCache α β) (op : RecencyOp α β) :
    (c.perform op).2.capacity = c.capacity := by
  cases op <;> simp [perform, ArenaCache.clear]

theorem capacity_run (c : ArenaCache α β) (ops : List (RecencyOp α β)) :
    (c.run ops).capacity = c.capacity := by
  induction ops generalizing c with
  | nil => rfl
  | cons op ops ih => rw [run, ih, capacity_perform]

/-- The invariant kept along every run: the shape, with at most `capacity` keys and one spare slot. -/
structure Inv (c : ArenaCache α β) (order : List Nat) : Prop extends c.Shape order where
  capacity_pos : 0 < c.capacity
  size_le : c.index.size ≤ c.capacity
  slots_le : c.slots.size ≤ c.capacity + 1

namespace Inv

variable {c : ArenaCache α β} {order : List Nat}

theorem new (capacity : Nat) : (ArenaCache.new capacity : ArenaCache α β).Inv [] where
  toShape := Shape.empty rfl rfl rfl rfl rfl
  capacity_pos := Nat.lt_of_lt_of_le Nat.one_pos (Nat.le_max_right capacity 1)
  size_le := by simp [ArenaCache.new]
  slots_le := by simp [ArenaCache.new]

theorem clear (h : c.Inv order) : c.clear.Inv [] where
  toShape := Shape.empty rfl rfl rfl rfl rfl
  capacity_pos := h.capacity_pos
  size_le := by simp [ArenaCache.clear]
  slots_le := by simp [ArenaCache.clear]

theorem get (h : c.Inv order) (k : α) : ∃ order', (c.get k).2.Inv order' := by
  have hshape : ∃ order', (c.get k).2.Shape order' := by
    unfold ArenaCache.get
    split
    · next i hk => exact ⟨_, (h.withStats c.stats.hit).moveToFront (h.index hk).1⟩
    · exact ⟨order, h.withStats _⟩
  obtain ⟨order', hs⟩ := hshape
  exact ⟨order', hs, by simpa using h.capacity_pos, by simpa using h.size_le,
    by simpa using h.slots_le⟩

theorem remove (h : c.Inv order) (k : α) : ∃ order', (c.remove k).2.Inv order' := by
  obtain ⟨order', hs⟩ := h.toShape.remove k
  -- taking a key out never adds one
  have hsize : (c.remove k).2.index.size ≤ c.index.size := by
    unfold ArenaCache.remove
    split
    · exact Nat.le_refl _
    · simpa using Std.HashMap.size_erase_le
  exact ⟨order', hs, by simpa using h.capacity_pos, Nat.le_trans hsize (by simpa using h.size_le),
    by simpa using h.slots_le⟩

/-- Storing keeps the invariant, and evicts exactly when the key is new and the cache is full. -/
theorem put (h : c.Inv order) (k : α) (v : β) :
    (∃ order', (c.put k v).2.Inv order') ∧
      ((c.put k v).1.isSome ↔ c.contains k = false ∧ c.index.size = c.capacity) := by
  cases hk : c.index[k]? with
  | some i =>
    obtain ⟨hnone, hs, hidx, hsize⟩ := h.toShape.put_of_mem hk v
    have hc : c.contains k = true := by
      rw [ArenaCache.contains, Std.HashMap.contains_eq_isSome_getElem?, hk]; rfl
    refine ⟨⟨_, hs, by simpa using h.capacity_pos, by simpa [hidx] using h.size_le,
      by simpa [hsize] using h.slots_le⟩, ?_⟩
    simp [hnone, hc]
  | none =>
    obtain ⟨c', i, hs, hcap, hsize, hslots, heq, -⟩ := h.toShape.put_of_absent hk v
    have hc : c.contains k = false := by
      rw [ArenaCache.contains, Std.HashMap.contains_eq_isSome_getElem?, hk]; rfl
    -- the arena grows only when no slot is free, and then it held one slot per key
    have hslots_le : c'.slots.size ≤ c.capacity + 1 := by
      rcases hslots with hs' | ⟨hf, hs'⟩
      · rw [hs']; exact h.slots_le
      · have := h.slots_size
        rw [hf, List.length_nil] at this
        have := h.size_le
        omega
    rw [heq, hcap, hsize]
    by_cases hover : c.capacity < c.index.size + 1
    · -- the cache was full: the tail entry goes, and the size is back to the capacity
      rw [if_pos hover]
      obtain ⟨t, ht⟩ : ∃ t, c'.tail = some t := by
        rw [hs.tail, List.getLast?_cons]; exact ⟨_, rfl⟩
      obtain ⟨k', v', -, -, hev, hs', hcap', hsize', -⟩ := hs.evictLru ht
      have hto : t ∈ i :: order := List.mem_of_getLast? (hs.tail ▸ ht)
      have hlen := hs'.length
      have hlen' := hs.length
      rw [List.length_erase_of_mem hto] at hlen
      have := h.size_le
      refine ⟨⟨_, hs', by rw [hcap', hcap]; exact h.capacity_pos, by omega,
        by rw [hsize', hcap', hcap]; exact hslots_le⟩, ?_⟩
      simp only [hev, Option.isSome_some, true_iff]
      exact ⟨hc, by omega⟩
    · rw [if_neg hover]
      dsimp only
      refine ⟨⟨_, hs, by rw [hcap]; exact h.capacity_pos, by omega, by rw [hcap]; exact hslots_le⟩,
        ?_⟩
      simp only [Option.isSome_none, Bool.false_eq_true, false_iff, not_and]
      omega

theorem perform (h : c.Inv order) (op : RecencyOp α β) : ∃ order', (c.perform op).2.Inv order' := by
  cases op with
  | put k v => exact (h.put k v).1
  | get k => exact h.get k
  | remove k => exact h.remove k
  | clear => exact ⟨[], h.clear⟩
  | peek k | contains k | size | isEmpty => exact ⟨order, h⟩

theorem run (h : c.Inv order) (ops : List (RecencyOp α β)) : ∃ order', (c.run ops).Inv order' := by
  induction ops generalizing c order with
  | nil => exact ⟨order, h⟩
  | cons op ops ih =>
    obtain ⟨order', h'⟩ := h.perform op
    exact ih h'

end Inv

/-- The representation invariant of a cache, read off its links. -/
structure Wf (c : ArenaCache α β) : Prop where
  -- the walk from the head meets one slot per stored key, each once, and ends at the tail
  listed_nodup : c.listed.Nodup
  listed_length : c.listed.length = c.size
  walk_ends : c.slotWalk (c.size + 1) c.head = c.listed
  tail_last : c.tail = c.listed.getLast?
  listed_lt : ∀ i ∈ c.listed, i < c.slots.size
  -- the back links mirror the forward ones
  prev_mirror : ∀ i ∈ c.listed, ∀ j, (c.slot i).prev = some j ↔
    j ∈ c.listed ∧ (c.slot j).next = some i
  head_prev : ∀ i, c.head = some i → (c.slot i).prev = none
  -- the slots met are the indexed ones; every other slot is free once, and empty
  mem_listed : ∀ i, i ∈ c.listed ↔ ∃ k v, (c.slot i).entry = some (k, v) ∧ c.index[k]? = some i
  free_once : ∀ i < c.slots.size, i ∉ c.listed → c.free.count i = 1 ∧ (c.slot i).entry = none
  free_off : ∀ i ∈ c.free, i < c.slots.size ∧ i ∉ c.listed
  -- one slot per key and free slot, at most one more than the capacity
  slots_size : c.slots.size = c.size + c.free.length
  slots_le : c.slots.size ≤ c.capacity + 1

theorem Inv.wf {c : ArenaCache α β} {order : List Nat} (h : c.Inv order) : c.Wf := by
  have hlen : order.length = c.size := h.length
  -- the walk from the head meets exactly the slots of `order`, so each field reads off the shape
  have hw : c.listed = order := h.slotWalk_eq (Nat.le_of_eq hlen)
  refine ⟨?_, ?_, ?_, ?_, ?_, fun i hi j => ?_, fun i hi => ?_, fun i => ?_, fun i hi hio => ?_,
    fun i hi => ?_, h.slots_size, h.slots_le⟩ <;> rw [hw] at *
  · exact h.nodup
  · exact hlen
  · exact h.slotWalk_eq (by omega)
  · exact h.tail
  · exact h.lt_size
  · -- back links are the forward links read the other way
    rw [h.prev i hi, ← nextIn_eq_some_iff h.nodup]
    constructor
    · intro hn
      exact ⟨(mem_of_nextIn hn).1, by rw [h.next j (mem_of_nextIn hn).1, hn]⟩
    · rintro ⟨hj, hn⟩
      rw [← h.next j hj, hn]
  · have hio : i ∈ order := List.mem_of_mem_head? (h.head ▸ hi)
    rw [h.prev i hio, prevIn_eq_none_iff h.nodup hio, ← h.head, hi]
  · constructor
    · exact h.entry i
    · rintro ⟨k, v, -, hk⟩
      exact (h.index hk).1
  · have hf : i ∈ c.free := (h.cover i hi).resolve_left hio
    exact ⟨List.count_eq_one_of_mem h.free_nodup hf, h.free_entry i hf⟩
  · exact ⟨h.free_lt i hi, h.free_not_mem i hi⟩

theorem Shape.isSome_peek {c : ArenaCache α β} {order : List Nat} (h : c.Shape order) (k : α) :
    (c.peek k).isSome = c.contains k := by
  rw [ArenaCache.contains, Std.HashMap.contains_eq_isSome_getElem?, ArenaCache.peek]
  cases hk : c.index[k]? with
  | none => rfl
  | some i =>
    obtain ⟨-, v, hv⟩ := h.index hk
    simp [hv]

end ArenaCache

/-- Along every sequence of requests the arena keeps its representation invariant and never holds
more than `max capacity 1 + 1` slots. -/
theorem arena_cache_run_wf {α β : Type} [DecidableEq α] [Hashable α] (capacity : Nat)
    (ops : List (RecencyOp α β)) :
    let c := (ArenaCache.new capacity : ArenaCache α β).run ops
    c.Wf ∧ c.capacity = max capacity 1 ∧
      (∀ k, (c.get k).1.isSome = c.contains k ∧ (c.peek k).isSome = c.contains k) ∧
      ∀ k v, (c.put k v).1.isSome ↔ c.contains k = false ∧ c.size = c.capacity := by
  intro c
  obtain ⟨order, h⟩ := (ArenaCache.Inv.new capacity : (ArenaCache.new capacity : ArenaCache α β).Inv []).run ops
  refine ⟨h.wf, ?_, fun k => ⟨by rw [ArenaCache.get_fst]; exact h.isSome_peek k, h.isSome_peek k⟩,
    fun k v => (h.put k v).2⟩
  exact ArenaCache.capacity_run _ ops

end ColonyCache
