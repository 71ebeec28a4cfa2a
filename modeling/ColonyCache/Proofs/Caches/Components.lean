import ColonyCache.Caches.Components
import ColonyCache.Proofs.World.Placement
/-! Component questions answered through kept slots stay those of a fresh lookup in every built
world: a slot depends only on the thing's kind, which it keeps while it lives, and no id is reused. -/
namespace ColonyCache

open Std

namespace World

variable (w : World)

/-- The component of kind `k` of thing `e`, looked up afresh in the current world. -/
def component? (e : EntityId) (k : ComponentKind) : Option Component :=
  (w.findComponent e k).bind (w.componentAt e)

theorem findComponent_eq (e : EntityId) (k : ComponentKind) :
    w.findComponent e k = (w.componentsOf e).findIdx? (·.kind == k) := by
  rw [findComponent, componentsOf_eq, HashMap.get?_eq_getElem?]
  cases w.components[e]? <;> rfl

theorem componentAt_eq (e : EntityId) (i : Nat) : w.componentAt e i = (w.componentsOf e)[i]? := by
  rw [componentAt, componentsOf_eq, HashMap.get?_eq_getElem?]
  cases w.components[e]? <;> rfl

theorem component?_eq_find? (e : EntityId) (k : ComponentKind) :
    w.component? e k = (w.componentsOf e).find? (·.kind == k) := by
  have hat : w.componentAt e = fun i => (w.componentsOf e)[i]? := funext (componentAt_eq w e)
  rw [component?, List.find?_eq_bind_findIdx?_getElem?, findComponent_eq, hat]

theorem kind_of_component? {e : EntityId} {k : ComponentKind} {c : Component}
    (h : w.component? e k = some c) : c.kind = k := by
  rw [component?_eq_find?] at h
  simpa using List.find?_some h

variable {w}

theorem Records.findComponent_of_thing (hr : w.Records) {e : EntityId} {t : Thing}
    (ht : w.thing? e = some t) (k : ComponentKind) :
    w.findComponent e k = (t.kind.defaultComponents.map Component.kind).findIdx? (· == k) := by
  rw [findComponent_eq, ← hr.kinds e t ht, List.findIdx?_map]
  rfl

/-- Things are added only under the next number, so a thing alive after an operation under an
earlier number was alive before, with the same kind. -/
theorem kind_of_apply (hr : w.Records) (op : Op)
    (hroom : w.lastEntity.toNat + w.issued op < Nat.pow 2 32) {e : EntityId} {t' : Thing}
    (ht' : (w.apply op).thing? e = some t') (he : e.val.toNat ≤ w.lastEntity.toNat) :
    ∃ t, w.thing? e = some t ∧ t.kind = t'.kind := by
  -- the operations that leave the things as they are
  have same : ∀ w' : World, w'.things = w.things → w'.thing? e = some t' →
      ∃ t, w.thing? e = some t ∧ t.kind = t'.kind :=
    fun _ hw h => ⟨t', by rw [thing?_eq, ← hw]; exact h, rfl⟩
  cases op with
  | spawn m k c =>
    rcases spawn_cases w m k c with h0 | ⟨-, -, -, h1, hthing, -⟩
    · exact same (w.spawn m k c).2 (by rw [h0]) ht'
    · -- the new thing takes the next number, past `e`
      have hissued : w.issued (.spawn m k c) = 1 := by simp [issued, h1]
      obtain ⟨hnext, -⟩ := hr.fresh (by rw [← hissued]; exact hroom)
      have hne : e ≠ ⟨w.lastEntity + 1⟩ := by
        rintro rfl
        change (w.lastEntity + 1).toNat ≤ w.lastEntity.toNat at he
        omega
      change (w.spawn m k c).2.thing? e = some t' at ht'
      rw [hthing, if_neg hne] at ht'
      exact ⟨t', ht', rfl⟩
  | despawn e₀ =>
    change (w.despawn e₀).2.thing? e = some t' at ht'
    rw [thing?_despawn] at ht'
    split at ht'
    · cases ht'
    · exact ⟨t', ht', rfl⟩
  | moveTo e₀ c =>
    rcases moveTo_cases w e₀ c with h0 | ⟨t, -, ht, -, -, -, hthing, -⟩
    · exact same (w.moveTo e₀ c).2 (by rw [h0]) ht'
    · change (w.moveTo e₀ c).2.thing? e = some t' at ht'
      rw [hthing] at ht'
      split at ht'
      · next hee =>
        -- moving changes the cell only
        subst hee
        cases ht'
        exact ⟨t, ht, rfl⟩
      · exact ⟨t', ht', rfl⟩
  | removeMap m =>
    change (w.removeMap m).2.thing? e = some t' at ht'
    rw [(hr.removesMap m).things] at ht'
    split at ht'
    · cases ht'
    · exact ⟨t', ht', rfl⟩
  | addMap => exact same _ rfl ht'
  | setRegionsEnabled => exact same _ rfl ht'
  | addInjury owner severity => exact same _ (addInjury_ground w owner severity).1 ht'
  | heal e₀ => exact same _ (sameGround_heal w e₀).things ht'
  | ageInjuries => exact same _ rfl ht'
  | relate => exact same _ rfl ht'
  | unrelate => exact same _ rfl ht'
  | restrictWork => exact same _ rfl ht'
  | liftWorkRestrictions => exact same _ rfl ht'
  | affiliate => exact same _ rfl ht'
  | endAffiliation => exact same _ rfl ht'
  | setComponent e₀ c => exact same _ (sameGround_setComponent w e₀ c).things ht'
  | infect owner a => exact same _ (sameGround_infect w owner a).things ht'
  | restrictArea e₀ a => exact same _ (sameGround_restrictArea w e₀ a).things ht'

end World

namespace ComponentSlots

variable {c : ComponentSlots} {k : ComponentKind} {w : World} {op : World.Op}

theorem get?_of_kept {e : EntityId} {slot : Option Nat} (h : c.slots.values[e]? = some slot) :
    c.get? e w = (slot.bind (w.componentAt e), c) := by
  simp only [get?, EntityCache.getOrInsert, HashMap.get?_eq_getElem?, h]

theorem get?_of_missing {e : EntityId} (h : c.slots.values[e]? = none) :
    c.get? e w = ((w.findComponent e c.kind).bind (w.componentAt e),
      { c with slots := ⟨c.slots.values.insert e (w.findComponent e c.kind)⟩ }) := by
  simp only [get?, EntityCache.getOrInsert, HashMap.get?_eq_getElem?, h]

/-- Each kept slot is for a thing numbered up to the counter and, while it lives, holds its
component of kind `k`. -/
structure Valid (c : ComponentSlots) (k : ComponentKind) (w : World) : Prop where
  kind : c.kind = k
  slot : ∀ (e : EntityId) (slot : Option Nat), c.slots.values[e]? = some slot →
    e.val.toNat ≤ w.lastEntity.toNat ∧ ((w.thing? e).isSome → slot = w.findComponent e k)

theorem valid_empty (k : ComponentKind) (w : World) : (⟨k, {}⟩ : ComponentSlots).Valid k w :=
  ⟨rfl, fun e slot h => by
    change ((∅ : HashMap EntityId (Option Nat))[e]?) = some slot at h
    simp at h⟩

theorem Valid.get? (hc : c.Valid k w) (hr : w.Records) {e : EntityId}
    (he : (w.thing? e).isSome) :
    (c.get? e w).1 = w.component? e k ∧ (c.get? e w).2.Valid k w := by
  cases hs : c.slots.values[e]? with
  | some slot =>
    rw [get?_of_kept hs, (hc.slot e slot hs).2 he]
    exact ⟨rfl, hc⟩
  | none =>
    obtain ⟨t, ht⟩ := Option.isSome_iff_exists.mp he
    rw [get?_of_missing hs, hc.kind]
    refine ⟨rfl, rfl, fun e' slot' h' => ?_⟩
    change (c.slots.values.insert e (w.findComponent e k))[e']? = some slot' at h'
    rw [HashMap.getElem?_insert] at h'
    split at h'
    · next hee =>
      -- the slot just kept is for the live thing asked about
      cases h'
      rw [beq_iff_eq] at hee
      subst hee
      exact ⟨hr.thingBelow e t ht, fun _ => rfl⟩
    · exact hc.slot e' slot' h'

theorem Valid.get?_eq (hc : c.Valid k w) (hr : w.Records) {e : EntityId}
    (he : (w.thing? e).isSome) : c.get? e w = (w.component? e k, (c.get? e w).2) :=
  Prod.ext (hc.get? hr he).1 rfl

theorem Valid.remove (hc : c.Valid k w) (e : EntityId) : (c.remove e).Valid k w := by
  refine ⟨hc.kind, fun e' slot h => ?_⟩
  change (c.slots.values.erase e)[e']? = some slot at h
  rw [HashMap.getElem?_erase] at h
  split at h
  · cases h
  · exact hc.slot e' slot h

theorem Valid.clear (hc : c.Valid k w) : c.clear.Valid k w := by
  have h := valid_empty k w
  rw [← hc.kind] at h ⊢
  exact h

theorem Valid.apply (hc : c.Valid k w) (hr : w.Records) (hr' : (w.apply op).Records)
    (hroom : w.lastEntity.toNat + w.issued op < Nat.pow 2 32) : c.Valid k (w.apply op) := by
  refine ⟨hc.kind, fun e slot h => ?_⟩
  obtain ⟨hle, hslot⟩ := hc.slot e slot h
  refine ⟨by rw [World.lastEntity_toNat_apply _ op hroom]; omega, fun he' => ?_⟩
  obtain ⟨t', ht'⟩ := Option.isSome_iff_exists.mp he'
  obtain ⟨t, ht, hkind⟩ := World.kind_of_apply hr op hroom ht' hle
  rw [hslot (by rw [ht]; rfl), hr.findComponent_of_thing ht, hr'.findComponent_of_thing ht', hkind]

end ComponentSlots

namespace ComponentService

variable {s : ComponentService} {w : World} {e : EntityId}

structure Valid (s : ComponentService) (w : World) : Prop where
  quality : s.quality.Valid .quality w
  powerSwitch : s.powerSwitch.Valid .powerSwitch w
  schedule : s.schedule.Valid .schedule w
  breakdown : s.breakdown.Valid .breakdown w

theorem valid_empty (w : World) : ({} : ComponentService).Valid w :=
  ⟨ComponentSlots.valid_empty _ w, ComponentSlots.valid_empty _ w,
    ComponentSlots.valid_empty _ w, ComponentSlots.valid_empty _ w⟩

section Answers

variable (hs : s.Valid w) (hr : w.Records) (he : (w.thing? e).isSome)
include hs hr he

theorem Valid.qualityOf :
    (s.qualityOf e w).1 = (match w.component? e .quality with
      | some (.quality q) => some q
      | _ => none) ∧ (s.qualityOf e w).2.Valid w := by
  rw [ComponentService.qualityOf, hs.quality.get?_eq hr he]
  exact ⟨rfl, (hs.quality.get? hr he).2, hs.powerSwitch, hs.schedule, hs.breakdown⟩

theorem Valid.isBrokenDown :
    (s.isBrokenDown e w).1 = (match w.component? e .breakdown with
      | some (.breakdown true) => true
      | _ => false) ∧ (s.isBrokenDown e w).2.Valid w := by
  rw [ComponentService.isBrokenDown, hs.breakdown.get?_eq hr he]
  exact ⟨rfl, hs.quality, hs.powerSwitch, hs.schedule, (hs.breakdown.get? hr he).2⟩

theorem Valid.wantsToBeOn :
    ((s.wantsToBeOn e w).1 = false ↔ w.component? e .powerSwitch = some (.powerSwitch false) ∨
      w.component? e .schedule = some (.schedule false)) ∧ (s.wantsToBeOn e w).2.Valid w := by
  have hp' := (hs.powerSwitch.get? hr he).2
  rw [ComponentService.wantsToBeOn, hs.powerSwitch.get?_eq hr he]
  dsimp only
  split
  · next hoff => exact ⟨by simp [hoff], hs.quality, hp', hs.schedule, hs.breakdown⟩
  · rw [hs.schedule.get?_eq hr he]
    refine ⟨?_, hs.quality, hp', (hs.schedule.get? hr he).2, hs.breakdown⟩
    -- the switch is not off, so only the schedule can forbid
    split <;> simp_all

end Answers

theorem Valid.forget (hs : s.Valid w) (e : EntityId) : (s.forget e).Valid w :=
  ⟨hs.quality.remove e, hs.powerSwitch.remove e, hs.schedule.remove e, hs.breakdown.remove e⟩

theorem Valid.clear (hs : s.Valid w) : s.clear.Valid w :=
  ⟨hs.quality.clear, hs.powerSwitch.clear, hs.schedule.clear, hs.breakdown.clear⟩

theorem Valid.apply (hs : s.Valid w) {op : World.Op} (hr : w.Records)
    (hr' : (w.apply op).Records) (hroom : w.lastEntity.toNat + w.issued op < Nat.pow 2 32) :
    s.Valid (w.apply op) :=
  ⟨hs.quality.apply hr hr' hroom, hs.powerSwitch.apply hr hr' hroom,
    hs.schedule.apply hr hr' hroom, hs.breakdown.apply hr hr' hroom⟩

/-- `s.Probed w n k`: a run of public world changes, questions about live things, forgetting and
clearing, from a fresh service and the empty world. -/
inductive Probed : ComponentService → World → Nat → Nat → Prop
  | start : Probed {} {} 0 0
  | change {s w n k} (op : World.Op) :
      Probed s w n k → Probed s (w.apply op) (n + w.issued op) (k + op.mapsAdded)
  | qualityOf {s w n k} (e : EntityId) :
      Probed s w n k → (w.thing? e).isSome → Probed (s.qualityOf e w).2 w n k
  | wantsToBeOn {s w n k} (e : EntityId) :
      Probed s w n k → (w.thing? e).isSome → Probed (s.wantsToBeOn e w).2 w n k
  | isBrokenDown {s w n k} (e : EntityId) :
      Probed s w n k → (w.thing? e).isSome → Probed (s.isBrokenDown e w).2 w n k
  | forget {s w n k} (e : EntityId) : Probed s w n k → Probed (s.forget e) w n k
  | clear {s w n k} : Probed s w n k → Probed s.clear w n k

theorem Probed.built {n k : Nat} (hp : s.Probed w n k) : w.Built n k := by
  induction hp with
  | start => exact .empty
  | change op _ ih => exact .step op ih
  | qualityOf _ _ _ ih => exact ih
  | wantsToBeOn _ _ _ ih => exact ih
  | isBrokenDown _ _ _ ih => exact ih
  | forget _ _ ih => exact ih
  | clear _ ih => exact ih

theorem Probed.valid {n k : Nat} (hp : s.Probed w n k) (hn : n < Nat.pow 2 32) : s.Valid w := by
  induction hp with
  | start => exact valid_empty _
  | @change s w n k op hp ih =>
    have hroom : w.lastEntity.toNat + w.issued op < Nat.pow 2 32 := by
      rw [hp.built.lastEntity_toNat (by omega)]
      exact hn
    exact (ih (by omega)).apply (hp.built.records (by omega))
      ((World.Built.step op hp.built).records hn) hroom
  | qualityOf e hp he ih => exact ((ih hn).qualityOf (hp.built.records hn) he).2
  | wantsToBeOn e hp he ih => exact ((ih hn).wantsToBeOn (hp.built.records hn) he).2
  | isBrokenDown e hp he ih => exact ((ih hn).isBrokenDown (hp.built.records hn) he).2
  | forget e _ ih => exact (ih hn).forget e
  | clear _ ih => exact (ih hn).clear

end ComponentService

/-- Along every run of world changes and component questions, while fewer than `2 ^ 32` ids are
handed out, each answer about a live thing is the one found afresh. -/
theorem probed_components_answer_afresh {s : ComponentService} {w : World} {n k : Nat}
    (hp : s.Probed w n k) (hn : n < Nat.pow 2 32) {e : EntityId} (he : (w.thing? e).isSome) :
    (∀ q, (s.qualityOf e w).1 = some q ↔ w.component? e .quality = some (.quality q)) ∧
      ((s.qualityOf e w).1 = none ↔ w.component? e .quality = none) ∧
      ((s.wantsToBeOn e w).1 = false ↔ w.component? e .powerSwitch = some (.powerSwitch false) ∨
        w.component? e .schedule = some (.schedule false)) ∧
      ((s.isBrokenDown e w).1 = true ↔ w.component? e .breakdown = some (.breakdown true)) := by
  have hs := hp.valid hn
  have hr := hp.built.records hn
  rw [(hs.qualityOf hr he).1, (hs.isBrokenDown hr he).1]
  refine ⟨fun q => ?_, ?_, (hs.wantsToBeOn hr he).1, ?_⟩
  · split <;> simp_all
  · -- a component found for the kind quality is a quality
    cases h : w.component? e .quality with
    | none => simp
    | some c =>
      have hc := w.kind_of_component? h
      cases c <;> simp_all [Component.kind]
  · split <;> simp_all

theorem switched_off_generator_answers_afresh :
    let w₀ := ((({} : World).addMap 20 20 10).2.spawn ⟨1⟩ .generator ⟨1, 1⟩).2
    let s := (({} : ComponentService).wantsToBeOn ⟨1⟩ w₀).2
    let w := (w₀.setComponent ⟨1⟩ (.powerSwitch false)).2
    s.Probed w 1 1 ∧ 1 < Nat.pow 2 32 ∧ (w.thing? ⟨1⟩).isSome ∧
      ((∀ q, (s.qualityOf ⟨1⟩ w).1 = some q ↔ w.component? ⟨1⟩ .quality = some (.quality q)) ∧
        ((s.qualityOf ⟨1⟩ w).1 = none ↔ w.component? ⟨1⟩ .quality = none) ∧
        ((s.wantsToBeOn ⟨1⟩ w).1 = false ↔
          w.component? ⟨1⟩ .powerSwitch = some (.powerSwitch false) ∨
            w.component? ⟨1⟩ .schedule = some (.schedule false)) ∧
        ((s.isBrokenDown ⟨1⟩ w).1 = true ↔
          w.component? ⟨1⟩ .breakdown = some (.breakdown true))) := by
  intro w₀ s w
  have hlive₀ : (w₀.thing? ⟨1⟩).isSome := by decide
  have hlive : (w.thing? ⟨1⟩).isSome := by
    rw [(World.sameGround_setComponent w₀ ⟨1⟩ _).thing?]
    exact hlive₀
  have hp : s.Probed w 1 1 :=
    .change (.setComponent ⟨1⟩ (.powerSwitch false))
      (.wantsToBeOn ⟨1⟩
        (.change (.spawn ⟨1⟩ .generator ⟨1, 1⟩) (.change (.addMap 20 20 10) .start)) hlive₀)
  exact ⟨hp, by decide, hlive, probed_components_answer_afresh hp (by decide) hlive⟩

end ColonyCache
