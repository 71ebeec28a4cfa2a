import ColonyCache.Proofs.World.Records
import ColonyCache.Proofs.World.Relations
/-! What a change of the world keeps of the things it had: `World.Keeps L w w'`, the facts the
caches may remember about ids up to `L`, kept by every change that spares them. -/
namespace ColonyCache

open Std

namespace World

/-- From `w` to `w'` no thing numbered up to `L` comes back, and each keeps what a cache may
remember of it. -/
structure Keeps (L : Nat) (w w' : World) : Prop where
  counter : w.lastEntity.toNat ≤ w'.lastEntity.toNat
  alive : ∀ e : EntityId, e.val.toNat ≤ L → (w'.thing? e).isSome → (w.thing? e).isSome
  work : ∀ e : EntityId, e.val.toNat ≤ L → (w'.thing? e).isSome →
    w'.disabledWork e = w.disabledWork e
  affiliation : ∀ (e : EntityId) (t : Affiliation), e.val.toNat ≤ L → (w'.thing? e).isSome →
    w'.affiliation e t = w.affiliation e t
  area : ∀ e : EntityId, e.val.toNat ≤ L → (w'.thing? e).isSome →
    w'.effectiveAreaRestriction e = w.effectiveAreaRestriction e
  severity : ∀ (e : EntityId) (i : Injury), e.val.toNat ≤ L → w'.injuries[e]? = some i →
    ∃ j, w.injuries[e]? = some j ∧ j.severity = i.severity
  relations : ∀ a b : EntityId, a.val.toNat ≤ L → b.val.toNat ≤ L → (w'.thing? a).isSome →
    (w'.thing? b).isSome → w'.relationsBetween a b = w.relationsBetween a b

theorem effectiveAreaRestriction_eq (w : World) (e : EntityId) :
    w.effectiveAreaRestriction e =
      ((w.thing? e).map Thing.kind).bind fun k =>
        if k.isHumanlike then w.areaRestrictions[e]? else none := by
  unfold effectiveAreaRestriction thing?
  cases w.things.get? e with
  | none => rfl
  | some t => simp [HashMap.get?_eq_getElem?]

namespace Keeps

variable {L : Nat} {w w' w₁ w₂ w₃ : World}

theorem refl (L : Nat) (w : World) : Keeps L w w :=
  ⟨Nat.le_refl _, fun _ _ h => h, fun _ _ _ => rfl, fun _ _ _ _ => rfl, fun _ _ _ => rfl,
    fun _ i _ h => ⟨i, h, rfl⟩, fun _ _ _ _ _ _ => rfl⟩

theorem trans (h₁ : Keeps L w₁ w₂) (h₂ : Keeps L w₂ w₃) : Keeps L w₁ w₃ where
  counter := Nat.le_trans h₁.counter h₂.counter
  alive e he h := h₁.alive e he (h₂.alive e he h)
  work e he h := (h₂.work e he h).trans (h₁.work e he (h₂.alive e he h))
  affiliation e t he h :=
    (h₂.affiliation e t he h).trans (h₁.affiliation e t he (h₂.alive e he h))
  area e he h := (h₂.area e he h).trans (h₁.area e he (h₂.alive e he h))
  severity e i he h := by
    obtain ⟨j, hj, hs⟩ := h₂.severity e i he h
    obtain ⟨k, hk, hs'⟩ := h₁.severity e j he hj
    exact ⟨k, hk, hs'.trans hs⟩
  relations a b ha hb h h' :=
    (h₂.relations a b ha hb h h').trans
      (h₁.relations a b ha hb (h₂.alive a ha h) (h₂.alive b hb h'))

theorem of_agree (hn : w.lastEntity.toNat ≤ w'.lastEntity.toNat)
    (ht : ∀ e : EntityId, e.val.toNat ≤ L →
      (w'.thing? e).map Thing.kind = (w.thing? e).map Thing.kind)
    (hw : ∀ e : EntityId, e.val.toNat ≤ L → w'.disabledWork e = w.disabledWork e)
    (ha : ∀ (e : EntityId) (t : Affiliation), e.val.toNat ≤ L →
      w'.affiliation e t = w.affiliation e t)
    (har : ∀ e : EntityId, e.val.toNat ≤ L → w'.areaRestrictions[e]? = w.areaRestrictions[e]?)
    (hi : ∀ (e : EntityId) (i : Injury), e.val.toNat ≤ L → w'.injuries[e]? = some i →
      ∃ j, w.injuries[e]? = some j ∧ j.severity = i.severity)
    (hr : ∀ a b : EntityId, a.val.toNat ≤ L → b.val.toNat ≤ L →
      w'.relationsBetween a b = w.relationsBetween a b) : Keeps L w w' where
  counter := hn
  alive e he h := by
    have hsome := congrArg Option.isSome (ht e he)
    rw [Option.isSome_map, Option.isSome_map] at hsome
    exact hsome ▸ h
  work e he _ := hw e he
  affiliation e t he _ := ha e t he
  area e he _ := by
    rw [World.effectiveAreaRestriction_eq, World.effectiveAreaRestriction_eq, ht e he, har e he]
  severity := hi
  relations a b ha hb _ _ := hr a b ha hb

theorem unread (L : Nat) (w : World) (X : TreeMap MapId MapGrid compare) (n : UInt32)
    (C : HashMap EntityId (List Component)) (A : HashMap EntityId (List Ailment)) :
    Keeps L w { w with maps := X, lastMap := n, components := C, ailments := A } :=
  of_agree (Nat.le_refl _) (fun _ _ => rfl) (fun _ _ => rfl) (fun _ _ _ => rfl) (fun _ _ => rfl)
    (fun _ i _ h => ⟨i, h, rfl⟩) (fun _ _ _ _ => rfl)

end Keeps

variable (w : World)

/-! ### Forgetting a thing -/

theorem disabledWork_forget (e e' : EntityId) :
    (w.forget e).disabledWork e' = if e' = e then [] else w.disabledWork e' := by
  simp only [disabledWork, forget, HashMap.getD_erase, beq_iff_eq]
  by_cases h : e' = e
  · rw [if_pos h.symm, if_pos h]
  · rw [if_neg (Ne.symm h), if_neg h]

theorem affiliation_forget (e e' : EntityId) (t : Affiliation) :
    (w.forget e).affiliation e' t = if e' = e then none else w.affiliation e' t := by
  simp only [affiliation, forget, HashMap.get?_eq_getElem?, HashMap.getElem?_filter']
  by_cases h : e' = e
  · subst h
    cases w.affiliations[(e', t)]? <;> simp
  · rw [if_neg h]
    cases w.affiliations[(e', t)]? <;> simp [h]

theorem effectiveAreaRestriction_forget (e e' : EntityId) :
    (w.forget e).effectiveAreaRestriction e' =
      if e' = e then none else w.effectiveAreaRestriction e' := by
  rw [effectiveAreaRestriction_eq, effectiveAreaRestriction_eq, thing?_forget]
  by_cases h : e' = e
  · rw [if_pos h, if_pos h]
    rfl
  · rw [if_neg h, if_neg h]
    simp only [forget, HashMap.getElem?_erase, beq_iff_eq, if_neg (Ne.symm h)]


theorem keeps_forget (L : Nat) (e : EntityId) : Keeps L w (w.forget e) where
  -- every thing but `e` keeps its records, and `e` is no longer alive to be asked about
  counter := Nat.le_refl _
  alive e' _ h := by
    rw [thing?_forget] at h
    split at h
    · cases h
    · exact h
  work e' _ h := by
    rw [thing?_forget] at h
    split at h
    · cases h
    · next hne => rw [disabledWork_forget, if_neg hne]
  affiliation e' t _ h := by
    rw [thing?_forget] at h
    split at h
    · cases h
    · next hne => rw [affiliation_forget, if_neg hne]
  area e' _ h := by
    rw [thing?_forget] at h
    split at h
    · cases h
    · next hne => rw [effectiveAreaRestriction_forget, if_neg hne]
  severity e' i _ h := by
    rw [injuries_forget, Option.filter_eq_some_iff] at h
    exact ⟨i, h.1, rfl⟩
  relations a b _ _ ha hb := by
    rw [thing?_forget] at ha hb
    split at ha
    · cases ha
    · split at hb
      · cases hb
      · next hne hne' => rw [relationsBetween_forget, if_neg (by tauto)]

theorem keeps_foldl_forget (L : Nat) (ts : List Thing) :
    Keeps L w (ts.foldl (fun w t => w.forget t.id) w) := by
  induction ts generalizing w with
  | nil => exact Keeps.refl L w
  | cons t ts ih => exact (w.keeps_forget L t.id).trans (ih (w.forget t.id))

theorem keeps_despawn (L : Nat) (e : EntityId) : Keeps L w (w.despawn e).2 := by
  unfold despawn
  split
  · exact w.keeps_forget L e
  · exact Keeps.refl L w

theorem keeps_removeMap (L : Nat) (m : MapId) : Keeps L w (w.removeMap m).2 := by
  unfold removeMap
  split
  · exact (Keeps.unread L w (w.maps.erase m) w.lastMap w.components w.ailments).trans
      (keeps_foldl_forget _ L (w.thingsOn m))
  · exact Keeps.refl L w

/-! ### Changes that write under a new number -/

theorem toNat_succ_of_room {x : UInt32} (h : x.toNat + 1 < Nat.pow 2 32) :
    (x + 1).toNat = x.toNat + 1 := by
  rw [UInt32.toNat_add, UInt32.toNat_one]
  exact Nat.mod_eq_of_lt h

variable {w} {L : Nat}

theorem ne_next_of_le (hL : L ≤ w.lastEntity.toNat) (hroom : w.lastEntity.toNat + 1 < Nat.pow 2 32)
    {e : EntityId} (he : e.val.toNat ≤ L) : e ≠ ⟨w.lastEntity + 1⟩ := by
  rintro rfl
  simp only [toNat_succ_of_room hroom] at he
  omega

theorem keeps_spawn (hL : L ≤ w.lastEntity.toNat) (hroom : w.lastEntity.toNat + 1 < Nat.pow 2 32)
    (m : MapId) (k : ThingKind) (c : Cell) : Keeps L w (w.spawn m k c).2 := by
  have hnext := toNat_succ_of_room hroom
  unfold spawn
  split
  · split
    · refine Keeps.of_agree (by simp only [hnext]; omega) (fun e he => ?_) (fun _ _ => rfl)
        (fun _ _ _ => rfl) (fun _ _ => rfl) (fun _ i _ h => ⟨i, h, rfl⟩) (fun _ _ _ _ => rfl)
      simp only [thing?_eq, getElem?_insert_id, if_neg (ne_next_of_le hL hroom he)]
    · exact Keeps.refl L w
  · exact Keeps.refl L w

theorem keeps_addInjury (hL : L ≤ w.lastEntity.toNat)
    (hroom : w.lastEntity.toNat + 1 < Nat.pow 2 32) (owner : EntityId) (severity : Float32) :
    Keeps L w (w.addInjury owner severity).2 := by
  have hnext := toNat_succ_of_room hroom
  unfold addInjury
  split
  · refine Keeps.of_agree (by simp only [hnext]; omega) (fun _ _ => rfl) (fun _ _ => rfl)
      (fun _ _ _ => rfl) (fun _ _ => rfl) (fun e i he h => ?_) (fun _ _ _ _ => rfl)
    simp only [getElem?_insert_id, if_neg (ne_next_of_le hL hroom he)] at h
    exact ⟨i, h, rfl⟩
  · exact Keeps.refl L w

/-! ### Changes that keep the records read -/

theorem keeps_moveTo (L : Nat) (e : EntityId) (c : Cell) : Keeps L w (w.moveTo e c).2 := by
  unfold moveTo
  split
  · next t ht =>
    split
    · split
      · refine Keeps.of_agree (Nat.le_refl _) (fun e' _ => ?_) (fun _ _ => rfl) (fun _ _ _ => rfl)
          (fun _ _ => rfl) (fun _ i _ h => ⟨i, h, rfl⟩) (fun _ _ _ _ => rfl)
        simp only [thing?_eq, getElem?_insert_id]
        split
        · next he => rw [he, ← TreeMap.get?_eq_getElem?, ht]; rfl
        · rfl
      · exact Keeps.refl L w
    · exact Keeps.refl L w
  · exact Keeps.refl L w

theorem keeps_setComponent (L : Nat) (e : EntityId) (c : Component) :
    Keeps L w (w.setComponent e c).2 := by
  unfold setComponent
  split
  · split
    · exact Keeps.unread L w w.maps w.lastMap _ w.ailments
    · exact Keeps.refl L w
  · exact Keeps.refl L w

theorem keeps_heal (L : Nat) (e : EntityId) : Keeps L w (w.heal e).2 := by
  unfold heal
  split
  · refine Keeps.of_agree (Nat.le_refl _) (fun _ _ => rfl) (fun _ _ => rfl) (fun _ _ _ => rfl)
      (fun _ _ => rfl) (fun e' i _ h => ⟨i, ?_, rfl⟩) (fun _ _ _ _ => rfl)
    rw [TreeMap.getElem?_erase] at h
    split at h
    · cases h
    · exact h
  · exact Keeps.refl L w

theorem keeps_ageInjuries (L : Nat) (ticks : UInt32) : Keeps L w (w.ageInjuries ticks) := by
  refine Keeps.of_agree (Nat.le_refl _) (fun _ _ => rfl) (fun _ _ => rfl) (fun _ _ _ => rfl)
    (fun _ _ => rfl) (fun e i _ h => ?_) (fun _ _ _ _ => rfl)
  simp only [ageInjuries, TreeMap.getElem?_map, Option.map_eq_some_iff] at h
  obtain ⟨j, hj, rfl⟩ := h
  exact ⟨j, hj, rfl⟩

theorem keeps_infect (L : Nat) (owner : EntityId) (a : Ailment) :
    Keeps L w (w.infect owner a).2 := by
  unfold infect
  split
  · exact Keeps.unread L w w.maps w.lastMap w.components _
  · exact Keeps.refl L w

/-! ### Changes to a person numbered past `L` -/

theorem keeps_relate (a b : EntityId) (k : RelationKind) (h : L < a.val.toNat ∨ L < b.val.toNat) :
    Keeps L w (w.relate a b k) := by
  refine Keeps.of_agree (Nat.le_refl _) (fun _ _ => rfl) (fun _ _ => rfl) (fun _ _ _ => rfl)
    (fun _ _ => rfl) (fun _ i _ h => ⟨i, h, rfl⟩) (fun x y hx hy => ?_)
  rw [relationsBetween_relate, if_neg, if_neg, List.append_nil, List.append_nil]
  · rintro ⟨rfl, rfl⟩
    omega
  · rintro ⟨rfl, rfl⟩
    omega

theorem keeps_restrictWork (e : EntityId) (ks : List WorkKind) (he : L < e.val.toNat) :
    Keeps L w (w.restrictWork e ks) := by
  refine Keeps.of_agree (Nat.le_refl _) (fun _ _ => rfl) (fun e' he' => ?_) (fun _ _ _ => rfl)
    (fun _ _ => rfl) (fun _ i _ h => ⟨i, h, rfl⟩) (fun _ _ _ _ => rfl)
  have hne : ¬e = e' := by
    rintro rfl
    omega
  simp only [disabledWork, restrictWork, HashMap.getD_insert, beq_iff_eq, if_neg hne]

theorem keeps_restrictArea (e : EntityId) (a : Option Area) (he : L < e.val.toNat) :
    Keeps L w (w.restrictArea e a) := by
  have hne : ∀ e' : EntityId, e'.val.toNat ≤ L → ¬e = e' := by
    rintro e' he' rfl
    omega
  cases a with
  | none =>
    refine Keeps.of_agree (Nat.le_refl _) (fun _ _ => rfl) (fun _ _ => rfl) (fun _ _ _ => rfl)
      (fun e' he' => ?_) (fun _ i _ h => ⟨i, h, rfl⟩) (fun _ _ _ _ => rfl)
    simp only [restrictArea, HashMap.getElem?_erase, beq_iff_eq, if_neg (hne e' he')]
  | some a =>
    refine Keeps.of_agree (Nat.le_refl _) (fun _ _ => rfl) (fun _ _ => rfl) (fun _ _ _ => rfl)
      (fun e' he' => ?_) (fun _ i _ h => ⟨i, h, rfl⟩) (fun _ _ _ _ => rfl)
    simp only [restrictArea, HashMap.getElem?_insert, beq_iff_eq, if_neg (hne e' he')]

theorem keeps_affiliate (e : EntityId) (tag : Affiliation) (f : EntityId) (he : L < e.val.toNat) :
    Keeps L w (w.affiliate e tag f) := by
  refine Keeps.of_agree (Nat.le_refl _) (fun _ _ => rfl) (fun _ _ => rfl) (fun e' t he' => ?_)
    (fun _ _ => rfl) (fun _ i _ h => ⟨i, h, rfl⟩) (fun _ _ _ _ => rfl)
  have hne : ¬(e, tag) = (e', t) := by
    intro h
    cases h
    omega
  simp only [World.affiliation, affiliate, HashMap.get?_eq_getElem?, HashMap.getElem?_insert,
    beq_iff_eq, if_neg hne]

/-! ### Every change that spares the ids up to `L` -/

/-- Whether `op` spares what the caches may hold of the ids up to `L`: it touches only people
numbered past `L`, and unrelates, lifts and ends nothing. -/
def Op.Spares (L : Nat) : Op → Prop
  | .relate a b _ => L < a.val.toNat ∨ L < b.val.toNat
  | .restrictWork e _ => L < e.val.toNat
  | .restrictArea e _ => L < e.val.toNat
  | .affiliate e _ _ => L < e.val.toNat
  | .unrelate _ _ => False
  | .liftWorkRestrictions _ => False
  | .endAffiliation _ _ => False
  | _ => True

theorem keeps_apply (op : Op) (hop : op.Spares L) (hL : L ≤ w.lastEntity.toNat)
    (hroom : w.lastEntity.toNat + w.issued op < Nat.pow 2 32) : Keeps L w (w.apply op) := by
  cases op with
  | addMap width height size => exact Keeps.unread L w _ _ w.components w.ailments
  | setRegionsEnabled m b => exact Keeps.unread L w _ w.lastMap w.components w.ailments
  | removeMap m => exact w.keeps_removeMap L m
  | spawn m k c =>
    rcases spawn_cases w m k c with h | ⟨-, -, -, h1, -⟩
    · -- a spawn that finds no cell leaves the world as it was
      show Keeps L w (w.spawn m k c).2
      rw [h]
      exact Keeps.refl L w
    · have hi : w.issued (.spawn m k c) = 1 := by simp only [issued, h1, Option.isSome_some, if_true]
      exact keeps_spawn hL (hi ▸ hroom) m k c
  | despawn e => exact w.keeps_despawn L e
  | moveTo e c => exact keeps_moveTo L e c
  | addInjury owner severity =>
    by_cases ho : w.things.contains owner = true
    · have hi : w.issued (.addInjury owner severity) = 1 := by
        simp only [issued, addInjury, if_pos ho, Option.isSome_some, if_true]
      exact keeps_addInjury hL (hi ▸ hroom) owner severity
    · -- an injury of no thing is not added
      show Keeps L w (w.addInjury owner severity).2
      rw [addInjury, if_neg ho]
      exact Keeps.refl L w
  | heal e => exact keeps_heal L e
  | ageInjuries ticks => exact keeps_ageInjuries L ticks
  | relate a b k => exact keeps_relate a b k hop
  | unrelate a b => exact hop.elim
  | restrictWork e ks => exact keeps_restrictWork e ks hop
  | liftWorkRestrictions e => exact hop.elim
  | affiliate e tag f => exact keeps_affiliate e tag f hop
  | endAffiliation e tag => exact hop.elim
  | setComponent e c => exact keeps_setComponent L e c
  | infect owner a => exact keeps_infect L owner a
  | restrictArea e a => exact keeps_restrictArea e a hop

end World

end ColonyCache
