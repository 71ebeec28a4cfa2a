import ColonyCache.Proofs.World.Run
/-! In every built world what `b` is to `a` mirrors what `a` is to `b`; for a person related to
themselves both appends land in one list, which mirrors itself only up to order. -/
namespace ColonyCache

namespace World

open Std

variable (w : World)

/-! ### What each operation does to the relations of a pair -/

theorem relationsBetween_relate (s r : EntityId) (k : RelationKind) (a b : EntityId) :
    (w.relate s r k).relationsBetween a b =
      w.relationsBetween a b ++ (if a = s ∧ b = r then [k] else []) ++
        (if a = r ∧ b = s then [k.inverse] else []) := by
  simp only [relationsBetween, relate, RelationKey.reversed, HashMap.getD_insert, beq_iff_eq,
    RelationKey.mk.injEq]
  by_cases h₁ : a = s ∧ b = r
  · obtain ⟨rfl, rfl⟩ := h₁
    by_cases hab : a = b
    · -- relating a person to themselves appends both to the one list
      subst hab
      simp
    · simp [hab, Ne.symm hab]
  · by_cases h₂ : a = r ∧ b = s
    · obtain ⟨rfl, rfl⟩ := h₂
      have hab : b ≠ a := fun h => h₁ ⟨h.symm, h⟩
      simp [hab, Ne.symm hab]
    · have h₁' : ¬(s = a ∧ r = b) := fun h => h₁ ⟨h.1.symm, h.2.symm⟩
      have h₂' : ¬(r = a ∧ s = b) := fun h => h₂ ⟨h.1.symm, h.2.symm⟩
      rw [if_neg h₂', if_neg h₁', if_neg h₁, if_neg h₂, List.append_nil, List.append_nil]

theorem relationsBetween_unrelate (x y a b : EntityId) :
    (w.unrelate x y).relationsBetween a b =
      if a = x ∧ b = y ∨ a = y ∧ b = x then [] else w.relationsBetween a b := by
  simp only [relationsBetween, unrelate, RelationKey.reversed, HashMap.getD_erase, beq_iff_eq,
    RelationKey.mk.injEq]
  by_cases h : a = x ∧ b = y ∨ a = y ∧ b = x
  · rw [if_pos h]
    rcases h with ⟨rfl, rfl⟩ | ⟨rfl, rfl⟩ <;> simp
  · rw [if_neg h, if_neg (by tauto), if_neg (by tauto)]

theorem relationsBetween_forget (e a b : EntityId) :
    (w.forget e).relationsBetween a b =
      if a = e ∨ b = e then [] else w.relationsBetween a b := by
  simp only [relationsBetween, forget, HashMap.getD_eq_getD_getElem?, HashMap.getElem?_filter']
  by_cases h : a = e ∨ b = e
  · have hkeep : (a != e && b != e) = false := by rcases h with rfl | rfl <;> simp
    rw [if_pos h]
    cases w.relations[(⟨a, b⟩ : RelationKey)]? <;> simp [Option.filter, hkeep]
  · have hkeep : (a != e && b != e) = true := by simpa [not_or] using h
    rw [if_neg h]
    cases w.relations[(⟨a, b⟩ : RelationKey)]? <;> simp [Option.filter, hkeep]

/-! ### The mirror and the operations that keep it -/

/-- What `b` is to `a` is, in order, the inverse of what `a` is to `b`, and up to order for `a = b`. -/
structure RelationsMirrored (w : World) : Prop where
  pairs : ∀ a b : EntityId, a ≠ b →
    w.relationsBetween b a = (w.relationsBetween a b).map RelationKind.inverse
  self : ∀ a : EntityId,
    (w.relationsBetween a a).Perm ((w.relationsBetween a a).map RelationKind.inverse)

namespace RelationsMirrored

variable {w : World}

theorem empty : ({} : World).RelationsMirrored := by
  have h : ∀ a b, ({} : World).relationsBetween a b = [] := fun _ _ => HashMap.getD_empty
  exact ⟨fun a b _ => by rw [h, h]; rfl, fun a => by rw [h]; exact .refl _⟩

theorem of_relations (h : w.RelationsMirrored) {w' : World} (hr : w'.relations = w.relations) :
    w'.RelationsMirrored := by
  have hb : ∀ a b, w'.relationsBetween a b = w.relationsBetween a b := fun a b => by
    simp only [relationsBetween, hr]
  exact ⟨fun a b hab => by rw [hb, hb]; exact h.pairs a b hab, fun a => by rw [hb]; exact h.self a⟩

theorem drop (h : w.RelationsMirrored) {w' : World} (P : EntityId → EntityId → Prop)
    [DecidableRel P] (hsym : ∀ a b, P a b ↔ P b a)
    (hw' : ∀ a b, w'.relationsBetween a b = if P a b then [] else w.relationsBetween a b) :
    w'.RelationsMirrored := by
  refine ⟨fun a b hab => ?_, fun a => ?_⟩
  · rw [hw', hw']
    by_cases hp : P a b
    · rw [if_pos ((hsym a b).mp hp), if_pos hp]
      rfl
    · rw [if_neg (fun hp' => hp ((hsym a b).mpr hp')), if_neg hp]
      exact h.pairs a b hab
  · rw [hw']
    split
    · exact .refl _
    · exact h.self a

theorem relate (h : w.RelationsMirrored) (s r : EntityId) (k : RelationKind) :
    (w.relate s r k).RelationsMirrored := by
  refine ⟨fun a b hab => ?_, fun a => ?_⟩
  · rw [relationsBetween_relate, relationsBetween_relate, h.pairs a b hab]
    -- two different people are at most one of the pairs `(s, r)` and `(r, s)`
    by_cases h₁ : a = s ∧ b = r
    · obtain ⟨rfl, rfl⟩ := h₁
      simp [hab, Ne.symm hab]
    · by_cases h₂ : a = r ∧ b = s
      · obtain ⟨rfl, rfl⟩ := h₂
        simp [hab, Ne.symm hab]
      · have h₁' : ¬(b = r ∧ a = s) := fun ⟨h, h'⟩ => h₁ ⟨h', h⟩
        have h₂' : ¬(b = s ∧ a = r) := fun ⟨h, h'⟩ => h₂ ⟨h', h⟩
        simp [h₁, h₂, h₁', h₂']
  · rw [relationsBetween_relate]
    by_cases hs : a = s ∧ a = r
    · -- the relation and its inverse land side by side in the one list
      rw [if_pos hs, if_pos hs.symm]
      simp only [List.map_append, List.map_cons, List.map_nil, RelationKind.inverse_inverse,
        List.append_assoc, List.singleton_append]
      exact (h.self a).append (.swap _ _ _)
    · rw [if_neg hs, if_neg (fun h' => hs h'.symm), List.append_nil, List.append_nil]
      exact h.self a

theorem unrelate (h : w.RelationsMirrored) (x y : EntityId) :
    (w.unrelate x y).RelationsMirrored :=
  h.drop (fun a b => a = x ∧ b = y ∨ a = y ∧ b = x) (fun a b => by tauto)
    (relationsBetween_unrelate w x y)

theorem forget (h : w.RelationsMirrored) (e : EntityId) : (w.forget e).RelationsMirrored :=
  h.drop (fun a b => a = e ∨ b = e) (fun _ _ => Or.comm) (relationsBetween_forget w e)

theorem foldl_forget (h : w.RelationsMirrored) (ts : List Thing) :
    (ts.foldl (fun w t => w.forget t.id) w).RelationsMirrored := by
  induction ts generalizing w with
  | nil => exact h
  | cons t ts ih => exact ih (h.forget t.id)


theorem apply (h : w.RelationsMirrored) (op : Op) : (w.apply op).RelationsMirrored := by
  -- relating, unrelating and forgetting keep the mirror as shown above
  cases op with
  | relate s r k => exact h.relate s r k
  | unrelate x y => exact h.unrelate x y
  | despawn e =>
    show (w.despawn e).2.RelationsMirrored
    unfold World.despawn
    split
    · exact h.forget e
    · exact h
  | removeMap m =>
    show (w.removeMap m).2.RelationsMirrored
    unfold World.removeMap
    split
    · -- forgetting the things does not look at the maps
      have hm : ({ w with maps := w.maps.erase m } : World).RelationsMirrored := h.of_relations rfl
      exact hm.foldl_forget _
    · exact h
  -- the other operations leave the relations alone, in every branch of their definitions
  | spawn m k c =>
    apply h.of_relations
    show (w.spawn m k c).2.relations = w.relations
    unfold World.spawn
    split <;> (try split) <;> rfl
  | moveTo e c =>
    apply h.of_relations
    show (w.moveTo e c).2.relations = w.relations
    unfold World.moveTo
    split <;> (try split) <;> (try split) <;> rfl
  | addInjury owner severity =>
    apply h.of_relations
    show (w.addInjury owner severity).2.relations = w.relations
    unfold World.addInjury
    split <;> rfl
  | heal e =>
    apply h.of_relations
    show (w.heal e).2.relations = w.relations
    unfold World.heal
    split <;> rfl
  | setComponent e c =>
    apply h.of_relations
    show (w.setComponent e c).2.relations = w.relations
    unfold World.setComponent
    split <;> (try split) <;> rfl
  | infect owner a =>
    apply h.of_relations
    show (w.infect owner a).2.relations = w.relations
    unfold World.infect
    split <;> rfl
  | restrictArea e a => exact h.of_relations (by cases a <;> rfl)
  | addMap => exact h.of_relations rfl
  | setRegionsEnabled => exact h.of_relations rfl
  | ageInjuries => exact h.of_relations rfl
  | restrictWork => exact h.of_relations rfl
  | liftWorkRestrictions => exact h.of_relations rfl
  | affiliate => exact h.of_relations rfl
  | endAffiliation => exact h.of_relations rfl

end RelationsMirrored

theorem Built.relationsMirrored {w : World} {n k : Nat} (hw : w.Built n k) :
    w.RelationsMirrored := by
  induction hw with
  | empty => exact .empty
  | step op _ ih => exact ih.apply op

end World

/-- In every built world the relations between people are mirrored. -/
theorem built_world_relations_mirrored {w : World} {n k : Nat} (hw : w.Built n k)
    (a b : EntityId) :
    (a ≠ b → w.relationsBetween b a = (w.relationsBetween a b).map RelationKind.inverse) ∧
      (w.relationsBetween a a).Perm ((w.relationsBetween a a).map RelationKind.inverse) :=
  ⟨hw.relationsMirrored.pairs a b, hw.relationsMirrored.self a⟩

theorem parent_relations_mirrored :
    let w := (({} : World).relate ⟨1⟩ ⟨2⟩ .parent).relate ⟨1⟩ ⟨1⟩ .parent
    w.Built 0 0 ∧ (⟨1⟩ : EntityId) ≠ ⟨2⟩ ∧
      w.relationsBetween ⟨2⟩ ⟨1⟩ = (w.relationsBetween ⟨1⟩ ⟨2⟩).map RelationKind.inverse ∧
      (w.relationsBetween ⟨1⟩ ⟨1⟩).Perm
        ((w.relationsBetween ⟨1⟩ ⟨1⟩).map RelationKind.inverse) := by
  intro w
  have hw : w.Built 0 0 :=
    World.Built.step (.relate ⟨1⟩ ⟨1⟩ .parent) (World.Built.step (.relate ⟨1⟩ ⟨2⟩ .parent) .empty)
  have hne : (⟨1⟩ : EntityId) ≠ ⟨2⟩ := by decide
  exact ⟨hw, hne, (built_world_relations_mirrored hw ⟨1⟩ ⟨2⟩).1 hne,
    (built_world_relations_mirrored hw ⟨1⟩ ⟨2⟩).2⟩

/-- The order is not mirrored for a person related to themselves. -/
example : (({} : World).relate ⟨1⟩ ⟨1⟩ .parent).relationsBetween ⟨1⟩ ⟨1⟩ = [.parent, .child] := by
  rw [World.relationsBetween_relate]
  simp [World.relationsBetween, RelationKind.inverse]

end ColonyCache
