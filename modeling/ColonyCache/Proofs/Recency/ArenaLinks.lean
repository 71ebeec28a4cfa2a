import Mathlib.Data.List.Nodup
import ColonyCache.Recency.Arena
/-! The links of an arena cache: `Links c order` says that the forward and back links lay out the
slot list `order`, kept by each relinking step. -/
namespace ColonyCache

/-! ## Neighbours in a list -/

/-- The element right after the first `i` in `l`. -/
def nextIn : List Nat → Nat → Option Nat
  | a :: b :: l, i => if a = i then some b else nextIn (b :: l) i
  | _, _ => none

/-- The element right before the first `i` in `l`. -/
def prevIn : List Nat → Nat → Option Nat
  | a :: b :: l, i => if b = i then some a else prevIn (b :: l) i
  | _, _ => none

section Neighbours

variable {l : List Nat} {a i j x : Nat}

theorem mem_of_nextIn (h : nextIn l i = some j) : i ∈ l ∧ j ∈ l := by
  fun_induction nextIn l i <;> grind

theorem mem_of_prevIn (h : prevIn l i = some j) : i ∈ l ∧ j ∈ l := by
  fun_induction prevIn l i <;> grind

@[simp] theorem nextIn_cons_self (a : Nat) (l : List Nat) : nextIn (a :: l) a = l.head? := by
  cases l <;> simp [nextIn]

theorem nextIn_cons_of_ne (h : a ≠ i) (l : List Nat) : nextIn (a :: l) i = nextIn l i := by
  cases l <;> simp [nextIn, h]

theorem prevIn_cons_self (h : a ∉ l) : prevIn (a :: l) a = none := by
  cases l with
  | nil => rfl
  | cons b l =>
    have hb : b ≠ a := fun e => h (e ▸ List.mem_cons_self)
    rw [prevIn, if_neg hb]
    cases hp : prevIn (b :: l) a with
    | none => rfl
    | some j => exact absurd (mem_of_prevIn hp).1 h

theorem prevIn_cons (a : Nat) (l : List Nat) (i : Nat) :
    prevIn (a :: l) i = if l.head? = some i then some a else prevIn l i := by
  cases l <;> simp [prevIn]

theorem prevIn_of_not_mem (h : i ∉ l) : prevIn l i = none := by
  cases hp : prevIn l i with
  | none => rfl
  | some j => exact absurd (mem_of_prevIn hp).1 h

theorem nextIn_erase (hl : l.Nodup) (hj : j ≠ x) :
    nextIn (l.erase x) j = if nextIn l j = some x then nextIn l x else nextIn l j := by
  induction l with
  | nil => simp [nextIn]
  | cons a t ih =>
    obtain ⟨hat, ht⟩ := List.nodup_cons.mp hl
    by_cases hax : a = x
    · subst hax
      -- the element after `j` cannot be the erased head, which occurs nowhere after it
      have hne : nextIn t j ≠ some a := fun h => hat (mem_of_nextIn h).2
      rw [List.erase_cons_head, nextIn_cons_of_ne (Ne.symm hj), if_neg hne]
    · rw [List.erase_cons_tail (by simpa using hax)]
      by_cases haj : a = j
      · subst haj
        rw [nextIn_cons_self, nextIn_cons_self, nextIn_cons_of_ne hax]
        cases t with
        | nil => simp
        | cons b t' =>
          by_cases hbx : b = x
          · subst hbx
            simp
          · rw [List.erase_cons_tail (by simpa using hbx)]
            simp [hbx]
      · rw [nextIn_cons_of_ne haj, nextIn_cons_of_ne haj, nextIn_cons_of_ne hax, ih ht]

theorem head?_erase (hl : l.Nodup) (x : Nat) :
    (l.erase x).head? = if l.head? = some x then nextIn l x else l.head? := by
  cases l with
  | nil => simp
  | cons a t =>
    by_cases hax : a = x
    · subst hax
      simp
    · rw [List.erase_cons_tail (by simpa using hax)]
      simp [hax]

theorem prevIn_erase (hl : l.Nodup) (hj : j ≠ x) :
    prevIn (l.erase x) j = if prevIn l j = some x then prevIn l x else prevIn l j := by
  induction l with
  | nil => simp [prevIn]
  | cons a t ih =>
    obtain ⟨hat, ht⟩ := List.nodup_cons.mp hl
    by_cases hax : a = x
    · subst hax
      rw [List.erase_cons_head, prevIn_cons_self hat, prevIn_cons]
      -- `j` follows the erased head exactly when it heads the rest, and then nothing precedes it
      have hne : prevIn t j ≠ some a := fun h => hat (mem_of_prevIn h).2
      by_cases hh : t.head? = some j
      · obtain ⟨t', rfl⟩ : ∃ t', t = j :: t' := by
          cases t with
          | nil => simp at hh
          | cons b t' => simp at hh; exact ⟨t', by rw [hh]⟩
        simp [prevIn_cons_self (List.nodup_cons.mp ht).1]
      · rw [if_neg hh, if_neg hne]
    · rw [List.erase_cons_tail (by simpa using hax), prevIn_cons, prevIn_cons, prevIn_cons,
        head?_erase ht, ih ht]
      by_cases haj : a = j
      · subst haj
        have hna : prevIn t a = none := prevIn_of_not_mem hat
        have hnh : t.head? ≠ some a := fun h => hat (List.mem_of_mem_head? h)
        have hnx : nextIn t x ≠ some a := fun h => hat (mem_of_nextIn h).2
        simp only [hna, reduceCtorEq, if_false, if_neg hnh]
        split <;> rfl
      · by_cases hhx : t.head? = some x
        · obtain ⟨t', rfl⟩ : ∃ t', t = x :: t' := by
            cases t with
            | nil => simp at hhx
            | cons b t' => simp at hhx; exact ⟨t', by rw [hhx]⟩
          have hxt : x ∉ t' := (List.nodup_cons.mp ht).1
          simp only [List.head?_cons, nextIn_cons_self, prevIn_cons, Option.some.injEq]
          by_cases hh : t'.head? = some j
          · simp [hh, Ne.symm hj]
          · have hnx : prevIn t' j ≠ some x := fun h => hxt (mem_of_prevIn h).2
            simp [hh, hnx, Ne.symm hj]
        · simp only [hhx, if_false]
          by_cases hh : t.head? = some j
          · simp [hh, hax]
          · simp [hh]

theorem prevIn_isSome (hx : x ∈ l) (hh : l.head? ≠ some x) : (prevIn l x).isSome := by
  induction l with
  | nil => simp at hx
  | cons a t ih =>
    have hax : a ≠ x := fun e => hh (by simp [e])
    rw [prevIn_cons]
    split
    · rfl
    · next ht => exact ih ((List.mem_cons.mp hx).resolve_left (Ne.symm hax)) ht

theorem getLast?_erase (hl : l.Nodup) (x : Nat) :
    (l.erase x).getLast? = if l.getLast? = some x then prevIn l x else l.getLast? := by
  induction l with
  | nil => simp
  | cons a t ih =>
    obtain ⟨hat, ht⟩ := List.nodup_cons.mp hl
    by_cases hax : a = x
    · subst hax
      rw [List.erase_cons_head, prevIn_cons_self hat]
      cases t with
      | nil => simp
      | cons b t' =>
        -- the last element of the rest is not the erased head
        have hne : (b :: t').getLast? ≠ some a := fun h => hat (List.mem_of_getLast? h)
        rw [List.getLast?_cons_cons, if_neg hne]
    · rw [List.erase_cons_tail (by simpa using hax), List.getLast?_cons, List.getLast?_cons, ih ht,
        prevIn_cons]
      by_cases hlast : t.getLast? = some x
      · have hxt : x ∈ t := List.mem_of_getLast? hlast
        rw [if_pos hlast, hlast, Option.getD_some, if_pos rfl]
        by_cases hh : t.head? = some x
        · -- a list whose first and last elements are both `x` is `[x]`
          obtain ⟨t', rfl⟩ : ∃ t', t = x :: t' := by
            cases t with
            | nil => simp at hh
            | cons b t' => simp at hh; exact ⟨t', by rw [hh]⟩
          have hxt' : x ∉ t' := (List.nodup_cons.mp ht).1
          cases t' with
          | nil => simp [prevIn]
          | cons c t'' =>
            rw [List.getLast?_cons_cons] at hlast
            exact absurd (List.mem_of_getLast? hlast) hxt'
        · obtain ⟨p, hp⟩ := Option.isSome_iff_exists.mp (prevIn_isSome hxt hh)
          rw [if_neg hh, hp]
          rfl
      · rw [if_neg hlast]
        have hd : t.getLast?.getD a ≠ x := by
          cases h : t.getLast? with
          | none => exact hax
          | some y => intro e; exact hlast (by rw [h, ← e]; rfl)
        simp [hd]

theorem nextIn_append_cons {p s : List Nat} (hx : x ∉ p) : nextIn (p ++ x :: s) x = s.head? := by
  induction p with
  | nil => exact nextIn_cons_self x s
  | cons a p ih =>
    rw [List.mem_cons, not_or] at hx
    rw [List.cons_append, nextIn_cons_of_ne (Ne.symm hx.1), ih hx.2]

end Neighbours

theorem nextIn_eq_some_iff (hl : l.Nodup) : nextIn l i = some j ↔ prevIn l j = some i := by
  induction l with
  | nil => simp [nextIn, prevIn]
  | cons a t ih =>
    obtain ⟨hat, ht⟩ := List.nodup_cons.mp hl
    rw [prevIn_cons]
    by_cases hai : a = i
    · subst hai
      rw [nextIn_cons_self]
      by_cases hh : t.head? = some j
      · simp [hh]
      · have hne : prevIn t j ≠ some a := fun h => hat (mem_of_prevIn h).2
        simp [hh, hne]
    · rw [nextIn_cons_of_ne hai, ih ht]
      by_cases hh : t.head? = some j
      · -- the head of the rest has nothing before it there
        obtain ⟨t', rfl⟩ : ∃ t', t = j :: t' := by
          cases t with
          | nil => simp at hh
          | cons b t' => simp at hh; exact ⟨t', by rw [hh]⟩
        simp [prevIn_cons_self (List.nodup_cons.mp ht).1, hai]
      · simp [hh]

theorem nextIn_eq_none_iff (hl : l.Nodup) (hi : i ∈ l) : nextIn l i = none ↔ l.getLast? = some i := by
  induction l with
  | nil => simp at hi
  | cons a t ih =>
    obtain ⟨hat, ht⟩ := List.nodup_cons.mp hl
    by_cases hai : a = i
    · subst hai
      rw [nextIn_cons_self]
      cases t with
      | nil => simp
      | cons b t' =>
        have hne : (b :: t').getLast? ≠ some a := fun h => hat (List.mem_of_getLast? h)
        simp [List.getLast?_cons_cons, hne]
    · have hit : i ∈ t := (List.mem_cons.mp hi).resolve_left (Ne.symm hai)
      obtain ⟨b, t', rfl⟩ : ∃ b t', t = b :: t' := by
        cases t with
        | nil => simp at hit
        | cons b t' => exact ⟨b, t', rfl⟩
      rw [nextIn_cons_of_ne hai, List.getLast?_cons_cons, ih ht hit]

theorem prevIn_eq_none_iff (hl : l.Nodup) (hi : i ∈ l) : prevIn l i = none ↔ l.head? = some i := by
  constructor
  · intro h
    by_contra hh
    have := prevIn_isSome hi hh
    rw [h] at this
    exact absurd this (by decide)
  · intro hh
    obtain ⟨t, rfl⟩ : ∃ t, l = i :: t := by
      cases l with
      | nil => simp at hh
      | cons b t => simp at hh; exact ⟨t, by rw [hh]⟩
    exact prevIn_cons_self (List.nodup_cons.mp hl).1

namespace ArenaCache

variable {α β : Type} [DecidableEq α] [Hashable α]

section Slots

variable (c : ArenaCache α β) (i j : Nat) (f : Slot α β → Slot α β)

theorem slot_eq : c.slot i = c.slots[i]?.getD {} := Array.getD_eq_getD_getElem?

@[simp] theorem slots_size_modifySlot : (c.modifySlot i f).slots.size = c.slots.size :=
  Array.size_modify
@[simp] theorem index_modifySlot : (c.modifySlot i f).index = c.index := rfl
@[simp] theorem free_modifySlot : (c.modifySlot i f).free = c.free := rfl
@[simp] theorem head_modifySlot : (c.modifySlot i f).head = c.head := rfl
@[simp] theorem tail_modifySlot : (c.modifySlot i f).tail = c.tail := rfl
@[simp] theorem capacity_modifySlot : (c.modifySlot i f).capacity = c.capacity := rfl
@[simp] theorem stats_modifySlot : (c.modifySlot i f).stats = c.stats := rfl

theorem slot_modifySlot_of_ne {i j : Nat} (h : i ≠ j) : (c.modifySlot i f).slot j = c.slot j := by
  simp [slot_eq, modifySlot, Array.getElem?_modify, h]

theorem slot_modifySlot_self {i : Nat} (hi : i < c.slots.size) :
    (c.modifySlot i f).slot i = f (c.slot i) := by
  rw [slot_eq, slot_eq, modifySlot, Array.getElem?_modify, if_pos rfl, Array.getElem?_eq_getElem hi]
  rfl

theorem field_modifySlot {γ : Type} (g : Slot α β → γ) (hf : ∀ x, g (f x) = g x) :
    g ((c.modifySlot i f).slot j) = g (c.slot j) := by
  rw [slot_eq, slot_eq, modifySlot, Array.getElem?_modify]
  split
  · cases c.slots[j]? with
    | none => rfl
    | some x => exact hf x
  · rfl

theorem entry_setEntry {i : Nat} (hi : i < c.slots.size) (e : Option (α × β)) (j : Nat) :
    ((c.modifySlot i fun x => { x with entry := e }).slot j).entry =
      if j = i then e else (c.slot j).entry := by
  by_cases hj : j = i
  · subst hj; rw [slot_modifySlot_self _ _ hi, if_pos rfl]
  · rw [slot_modifySlot_of_ne _ _ (Ne.symm hj), if_neg hj]

end Slots

section Links

variable (c : ArenaCache α β) (p n : Option Nat) (j : Nat)

@[simp] theorem index_linkForward : (c.linkForward p n).index = c.index := by
  unfold linkForward; split <;> rfl
@[simp] theorem free_linkForward : (c.linkForward p n).free = c.free := by
  unfold linkForward; split <;> rfl
@[simp] theorem capacity_linkForward : (c.linkForward p n).capacity = c.capacity := by
  unfold linkForward; split <;> rfl
@[simp] theorem stats_linkForward : (c.linkForward p n).stats = c.stats := by
  unfold linkForward; split <;> rfl
@[simp] theorem tail_linkForward : (c.linkForward p n).tail = c.tail := by
  unfold linkForward; split <;> rfl
@[simp] theorem slots_size_linkForward : (c.linkForward p n).slots.size = c.slots.size := by
  unfold linkForward; split <;> simp

theorem head_linkForward : (c.linkForward p n).head = if p = none then n else c.head := by
  unfold linkForward; split <;> simp

@[simp] theorem entry_linkForward : ((c.linkForward p n).slot j).entry = (c.slot j).entry := by
  unfold linkForward; split
  · exact field_modifySlot _ _ _ _ Slot.entry (by intro; rfl)
  · rfl

@[simp] theorem prev_linkForward : ((c.linkForward p n).slot j).prev = (c.slot j).prev := by
  unfold linkForward; split
  · exact field_modifySlot _ _ _ _ Slot.prev (by intro; rfl)
  · rfl

theorem next_linkForward (hp : ∀ q, p = some q → q < c.slots.size) :
    ((c.linkForward p n).slot j).next = if p = some j then n else (c.slot j).next := by
  unfold linkForward; split
  · next q =>
    by_cases hqj : q = j
    · subst hqj
      rw [slot_modifySlot_self _ _ (hp q rfl), if_pos rfl]
    · rw [slot_modifySlot_of_ne _ _ hqj, if_neg (by simpa using hqj)]
  · rw [if_neg (by simp)]
    rfl

@[simp] theorem index_linkBack : (c.linkBack n p).index = c.index := by
  unfold linkBack; split <;> rfl
@[simp] theorem free_linkBack : (c.linkBack n p).free = c.free := by
  unfold linkBack; split <;> rfl
@[simp] theorem capacity_linkBack : (c.linkBack n p).capacity = c.capacity := by
  unfold linkBack; split <;> rfl
@[simp] theorem stats_linkBack : (c.linkBack n p).stats = c.stats := by
  unfold linkBack; split <;> rfl
@[simp] theorem head_linkBack : (c.linkBack n p).head = c.head := by
  unfold linkBack; split <;> rfl
@[simp] theorem slots_size_linkBack : (c.linkBack n p).slots.size = c.slots.size := by
  unfold linkBack; split <;> simp

theorem tail_linkBack : (c.linkBack n p).tail = if n = none then p else c.tail := by
  unfold linkBack; split <;> simp

@[simp] theorem entry_linkBack : ((c.linkBack n p).slot j).entry = (c.slot j).entry := by
  unfold linkBack; split
  · exact field_modifySlot _ _ _ _ Slot.entry (by intro; rfl)
  · rfl

@[simp] theorem next_linkBack : ((c.linkBack n p).slot j).next = (c.slot j).next := by
  unfold linkBack; split
  · exact field_modifySlot _ _ _ _ Slot.next (by intro; rfl)
  · rfl

theorem prev_linkBack (hn : ∀ q, n = some q → q < c.slots.size) :
    ((c.linkBack n p).slot j).prev = if n = some j then p else (c.slot j).prev := by
  unfold linkBack; split
  · next q =>
    by_cases hqj : q = j
    · subst hqj
      rw [slot_modifySlot_self _ _ (hn q rfl), if_pos rfl]
    · rw [slot_modifySlot_of_ne _ _ hqj, if_neg (by simpa using hqj)]
  · rw [if_neg (by simp)]
    rfl

end Links

section Unlink

variable {c : ArenaCache α β} {i j : Nat}

@[simp] theorem index_unlink : (c.unlink i).index = c.index := by simp [unlink]
@[simp] theorem free_unlink : (c.unlink i).free = c.free := by simp [unlink]
@[simp] theorem capacity_unlink : (c.unlink i).capacity = c.capacity := by simp [unlink]
@[simp] theorem stats_unlink : (c.unlink i).stats = c.stats := by simp [unlink]
@[simp] theorem slots_size_unlink : (c.unlink i).slots.size = c.slots.size := by simp [unlink]

@[simp] theorem entry_unlink (c : ArenaCache α β) (i j : Nat) :
    ((c.unlink i).slot j).entry = (c.slot j).entry := by
  rw [unlink, field_modifySlot _ _ _ _ Slot.entry (by intro; rfl), entry_linkBack, entry_linkForward]

theorem slot_unlink_of_ne (hji : j ≠ i) :
    (c.unlink i).slot j =
      ((c.linkForward (c.slot i).prev (c.slot i).next).linkBack (c.slot i).next (c.slot i).prev).slot j :=
  slot_modifySlot_of_ne _ _ (Ne.symm hji)

end Unlink

section PushFront

variable {c : ArenaCache α β} {i j : Nat}

@[simp] theorem index_pushFront : (c.pushFront i).index = c.index := by simp [pushFront]
@[simp] theorem free_pushFront : (c.pushFront i).free = c.free := by simp [pushFront]
@[simp] theorem capacity_pushFront : (c.pushFront i).capacity = c.capacity := by simp [pushFront]
@[simp] theorem stats_pushFront : (c.pushFront i).stats = c.stats := by simp [pushFront]
@[simp] theorem head_pushFront : (c.pushFront i).head = some i := rfl
@[simp] theorem slots_size_pushFront : (c.pushFront i).slots.size = c.slots.size := by
  simp [pushFront]

@[simp] theorem entry_pushFront (c : ArenaCache α β) (i j : Nat) :
    ((c.pushFront i).slot j).entry = (c.slot j).entry := by
  show ((ArenaCache.linkBack _ c.head (some i)).slot j).entry = _
  rw [entry_linkBack, field_modifySlot _ _ _ _ Slot.entry (by intro; rfl)]

end PushFront

section MoveToFront

variable {c : ArenaCache α β} {i : Nat}

@[simp] theorem index_moveToFront : (c.moveToFront i).index = c.index := by
  unfold moveToFront; split <;> simp
@[simp] theorem free_moveToFront : (c.moveToFront i).free = c.free := by
  unfold moveToFront; split <;> simp
@[simp] theorem capacity_moveToFront : (c.moveToFront i).capacity = c.capacity := by
  unfold moveToFront; split <;> simp
@[simp] theorem stats_moveToFront : (c.moveToFront i).stats = c.stats := by
  unfold moveToFront; split <;> simp
@[simp] theorem slots_size_moveToFront : (c.moveToFront i).slots.size = c.slots.size := by
  unfold moveToFront; split <;> simp

@[simp] theorem entry_moveToFront (c : ArenaCache α β) (i j : Nat) :
    ((c.moveToFront i).slot j).entry = (c.slot j).entry := by
  unfold moveToFront; split <;> simp

end MoveToFront

section Alloc

variable {c : ArenaCache α β} {k : α} {v : β}

@[simp] theorem index_alloc : (c.alloc k v).2.index = c.index := by
  unfold alloc; split <;> rfl
@[simp] theorem capacity_alloc : (c.alloc k v).2.capacity = c.capacity := by
  unfold alloc; split <;> rfl
@[simp] theorem stats_alloc : (c.alloc k v).2.stats = c.stats := by
  unfold alloc; split <;> rfl
@[simp] theorem head_alloc : (c.alloc k v).2.head = c.head := by
  unfold alloc; split <;> rfl
@[simp] theorem tail_alloc : (c.alloc k v).2.tail = c.tail := by
  unfold alloc; split <;> rfl

theorem alloc_free (c : ArenaCache α β) (k : α) (v : β) :
    ((c.alloc k v).1 :: (c.alloc k v).2.free = c.free ∧
        (c.alloc k v).2.slots.size = c.slots.size) ∨
      (c.free = [] ∧ (c.alloc k v).2.free = [] ∧ (c.alloc k v).1 = c.slots.size ∧
        (c.alloc k v).2.slots.size = c.slots.size + 1) := by
  unfold alloc
  split
  · next i rest hf => exact .inl ⟨hf.symm, slots_size_modifySlot _ _ _⟩
  · next hf => exact .inr ⟨hf, hf, rfl, Array.size_push _⟩

theorem slot_alloc (hfree : ∀ i ∈ c.free, i < c.slots.size) (j : Nat) :
    (c.alloc k v).2.slot j =
      if j = (c.alloc k v).1 then { entry := some (k, v) } else c.slot j := by
  unfold alloc
  split
  · next i rest hf =>
    show (c.modifySlot i _).slot j = _
    by_cases hji : j = i
    · subst hji
      rw [slot_modifySlot_self _ _ (hfree j (by rw [hf]; exact List.mem_cons_self)), if_pos rfl]
    · rw [slot_modifySlot_of_ne _ _ (Ne.symm hji), if_neg hji]
  · simp only [slot_eq, Array.getElem?_push]
    by_cases hj : j = c.slots.size
    · rw [if_pos hj, if_pos hj]; rfl
    · rw [if_neg hj, if_neg hj]

end Alloc

def slotWalk (c : ArenaCache α β) : Nat → Option Nat → List Nat
  | 0, _ => []
  | _ + 1, none => []
  | fuel + 1, some i => i :: c.slotWalk fuel (c.slot i).next

/-- The slots of the recency list as the links give them: the walk from the head. -/
def listed (c : ArenaCache α β) : List Nat := c.slotWalk c.size c.head

/-- The links lay `order` out as a doubly linked list from the head to the tail. -/
structure Links (c : ArenaCache α β) (order : List Nat) : Prop where
  nodup : order.Nodup
  head : c.head = order.head?
  tail : c.tail = order.getLast?
  next : ∀ i ∈ order, (c.slot i).next = nextIn order i
  prev : ∀ i ∈ order, (c.slot i).prev = prevIn order i
  lt_size : ∀ i ∈ order, i < c.slots.size

namespace Links

variable {c : ArenaCache α β} {order : List Nat} {i : Nat}

theorem lt_size_of_prevIn (h : c.Links order) {q : Nat} (hq : prevIn order i = some q) :
    q < c.slots.size :=
  h.lt_size q (mem_of_prevIn hq).2

theorem lt_size_of_nextIn (h : c.Links order) {q : Nat} (hq : nextIn order i = some q) :
    q < c.slots.size :=
  h.lt_size q (mem_of_nextIn hq).2

theorem unlink (h : c.Links order) (hi : i ∈ order) : (c.unlink i).Links (order.erase i) := by
  have hp := h.prev i hi
  have hn := h.next i hi
  have hpb : ∀ q, (c.slot i).prev = some q → q < c.slots.size := fun q hq =>
    h.lt_size_of_prevIn (hp ▸ hq)
  have hnb : ∀ q, (c.slot i).next = some q → q < (c.linkForward (c.slot i).prev
      (c.slot i).next).slots.size := fun q hq => by
    rw [slots_size_linkForward]; exact h.lt_size_of_nextIn (hn ▸ hq)
  have hmem : ∀ {j}, j ∈ order.erase i ↔ j ≠ i ∧ j ∈ order := h.nodup.mem_erase_iff
  refine ⟨h.nodup.erase i, ?_, ?_, fun j hj => ?_, fun j hj => ?_, fun j hj => ?_⟩
  · -- the head moves on exactly when `i` was the first slot, which is when nothing precedes it
    simp only [ArenaCache.unlink, head_modifySlot, head_linkBack, head_linkForward,
      head?_erase h.nodup, hp, hn, h.head, prevIn_eq_none_iff h.nodup hi]
  · simp only [ArenaCache.unlink, tail_modifySlot, tail_linkBack, tail_linkForward,
      getLast?_erase h.nodup, hp, hn, h.tail, nextIn_eq_none_iff h.nodup hi]
  · obtain ⟨hji, hj⟩ := hmem.mp hj
    rw [slot_unlink_of_ne hji, next_linkBack, next_linkForward _ _ _ _ hpb, hp, hn,
      h.next j hj, nextIn_erase h.nodup hji]
    -- `j` comes before `i` exactly when `i` comes after `j`
    simp only [nextIn_eq_some_iff h.nodup]
  · obtain ⟨hji, hj⟩ := hmem.mp hj
    rw [slot_unlink_of_ne hji, prev_linkBack _ _ _ _ hnb, prev_linkForward, hp, hn,
      h.prev j hj, prevIn_erase h.nodup hji]
    simp only [nextIn_eq_some_iff h.nodup]
  · rw [slots_size_unlink]
    exact h.lt_size j (hmem.mp hj).2

theorem pushFront (h : c.Links order) (hi : i ∉ order) (hs : i < c.slots.size) :
    (c.pushFront i).Links (i :: order) := by
  -- the slot after the new first one is the old head, which is a slot of the list
  have hhb : ∀ q, c.head = some q → q < (c.modifySlot i fun x =>
      { x with prev := none, next := c.head }).slots.size := fun q hq => by
    rw [slots_size_modifySlot]
    exact h.lt_size q (List.mem_of_mem_head? (h.head ▸ hq))
  have hhi : c.head ≠ some i := fun he => hi (List.mem_of_mem_head? (h.head ▸ he))
  refine ⟨List.nodup_cons.mpr ⟨hi, h.nodup⟩, rfl, ?_, fun j hj => ?_, fun j hj => ?_,
    fun j hj => ?_⟩
  · show (ArenaCache.linkBack _ c.head (some i)).tail = _
    rw [tail_linkBack, tail_modifySlot, h.head, h.tail, List.getLast?_cons]
    cases order with
    | nil => rfl
    | cons a t => simp [List.getLast?_cons]
  · show ((ArenaCache.linkBack _ c.head (some i)).slot j).next = _
    rw [next_linkBack]
    by_cases hji : j = i
    · subst hji
      rw [slot_modifySlot_self _ _ hs, nextIn_cons_self, h.head]
    · have hj' : j ∈ order := (List.mem_cons.mp hj).resolve_left hji
      rw [slot_modifySlot_of_ne _ _ (Ne.symm hji), nextIn_cons_of_ne (Ne.symm hji), h.next j hj']
  · show ((ArenaCache.linkBack _ c.head (some i)).slot j).prev = _
    rw [prev_linkBack _ _ _ _ hhb, prevIn_cons, ← h.head]
    by_cases hji : j = i
    · subst hji
      rw [if_neg hhi, if_neg hhi, slot_modifySlot_self _ _ hs, prevIn_of_not_mem hi]
    · have hj' : j ∈ order := (List.mem_cons.mp hj).resolve_left hji
      rw [slot_modifySlot_of_ne _ _ (Ne.symm hji), h.prev j hj']
  · rw [slots_size_pushFront]
    rcases List.mem_cons.mp hj with rfl | hj'
    · exact hs
    · exact h.lt_size j hj'

theorem moveToFront (h : c.Links order) (hi : i ∈ order) :
    (c.moveToFront i).Links (i :: order.erase i) := by
  unfold ArenaCache.moveToFront
  split
  · next hh =>
    -- a slot already at the front stays there, and the order is unchanged
    obtain ⟨t, rfl⟩ : ∃ t, order = i :: t := by
      rw [h.head] at hh
      cases order with
      | nil => simp at hh
      | cons b t => simp at hh; exact ⟨t, by rw [hh]⟩
    rw [List.erase_cons_head]
    exact h
  · have hu := h.unlink hi
    exact hu.pushFront (h.nodup.not_mem_erase) (by rw [slots_size_unlink]; exact h.lt_size i hi)

theorem of_links {c' : ArenaCache α β} (h : c.Links order) (hh : c'.head = c.head)
    (ht : c'.tail = c.tail) (hn : ∀ j, (c'.slot j).next = (c.slot j).next)
    (hp : ∀ j, (c'.slot j).prev = (c.slot j).prev) (hs : c'.slots.size = c.slots.size) :
    c'.Links order :=
  ⟨h.nodup, hh.trans h.head, ht.trans h.tail, fun j hj => (hn j).trans (h.next j hj),
    fun j hj => (hp j).trans (h.prev j hj), fun j hj => hs ▸ h.lt_size j hj⟩

theorem setEntry (h : c.Links order) (i : Nat) (e : Option (α × β)) :
    (c.modifySlot i fun x => { x with entry := e }).Links order :=
  h.of_links rfl rfl (fun _ => field_modifySlot _ _ _ _ Slot.next (by intro; rfl))
    (fun _ => field_modifySlot _ _ _ _ Slot.prev (by intro; rfl)) (slots_size_modifySlot _ _ _)

/-- Following the forward links from the head meets the slots of the list in order. -/
theorem slotWalk_eq (h : c.Links order) {n : Nat} (hn : order.length ≤ n) :
    c.slotWalk n c.head = order := by
  -- each suffix of the list is walked from its first slot, by induction on the suffix
  suffices ∀ s p n, order = p ++ s → s.length ≤ n → c.slotWalk n s.head? = s by
    simpa [h.head] using this order [] n rfl hn
  intro s
  induction s with
  | nil => intro p n _ _; cases n <;> rfl
  | cons x s ih =>
    intro p n ho hn
    obtain ⟨n, rfl⟩ : ∃ m, n = m + 1 := ⟨n - 1, by simp at hn; omega⟩
    have hx : x ∈ order := ho ▸ List.mem_append_right p List.mem_cons_self
    have hxp : x ∉ p := fun hp =>
      List.disjoint_of_nodup_append (ho ▸ h.nodup) hp List.mem_cons_self
    have hnext : (c.slot x).next = s.head? := by rw [h.next x hx, ho, nextIn_append_cons hxp]
    rw [List.head?_cons, slotWalk, hnext, ih (p ++ [x]) n (by simp [ho]) (by simpa using hn)]

end Links

end ArenaCache

end ColonyCache
