import Std.Data.TreeMap.Lemmas
import ColonyCache.Proofs.World.Regions
/-! The things of a world and what each change of the world does to them. -/
namespace ColonyCache

open Std

instance : TransOrd EntityId where
  eq_swap {a b} := @OrientedCmp.eq_swap UInt32 compare _ a.val b.val
  isLE_trans {a b c} := @TransCmp.isLE_trans UInt32 compare _ a.val b.val c.val

instance : LawfulEqOrd EntityId where
  compare_self {a} := @ReflCmp.compare_self UInt32 compare _ a.val
  eq_of_compare {a b} h :=
    congrArg EntityId.mk (@LawfulEqCmp.eq_of_compare UInt32 compare _ a.val b.val h)

theorem values_eq_map_snd {α β : Type} {cmp : α → α → Ordering} (t : TreeMap α β cmp) :
    t.values = t.toList.map Prod.snd := by
  show t.foldr (fun _ v l => v :: l) [] = _
  rw [TreeMap.foldr_eq_foldr_toList]
  induction t.toList with
  | nil => rfl
  | cons p ps ih => simp [ih]

theorem mem_values_iff {α β : Type} {cmp : α → α → Ordering} [TransCmp cmp] [LawfulEqCmp cmp]
    (t : TreeMap α β cmp) (v : β) : v ∈ t.values ↔ ∃ k : α, t[k]? = some v := by
  rw [values_eq_map_snd, List.mem_map]
  constructor
  · rintro ⟨⟨k, v'⟩, hp, rfl⟩
    exact ⟨k, TreeMap.mem_toList_iff_getElem?_eq_some.mp hp⟩
  · rintro ⟨k, hk⟩
    exact ⟨(k, v), TreeMap.mem_toList_iff_getElem?_eq_some.mpr hk, rfl⟩

namespace World

variable (w : World)

theorem thing?_eq (e : EntityId) : w.thing? e = w.things[e]? := rfl

theorem mem_thingsOn {m : MapId} {t : Thing} :
    t ∈ w.thingsOn m ↔ ∃ e, w.thing? e = some t ∧ t.map = m := by
  simp only [thingsOn, List.mem_filter, mem_values_iff, beq_iff_eq, thing?_eq]
  constructor
  · rintro ⟨⟨e, he⟩, hm⟩
    exact ⟨e, he, hm⟩
  · rintro ⟨e, he, hm⟩
    exact ⟨⟨e, he⟩, hm⟩

/-! ## Changes that leave the things alone -/

/-- `w'` has the things, the maps and the two counters of `w`. -/
structure SameGround (w w' : World) : Prop where
  things : w'.things = w.things
  maps : w'.maps = w.maps
  lastEntity : w'.lastEntity = w.lastEntity
  lastMap : w'.lastMap = w.lastMap

theorem SameGround.refl : SameGround w w := ⟨rfl, rfl, rfl, rfl⟩

theorem SameGround.trans {w₁ w₂ w₃ : World} (h₁ : SameGround w₁ w₂) (h₂ : SameGround w₂ w₃) :
    SameGround w₁ w₃ :=
  ⟨h₂.things.trans h₁.things, h₂.maps.trans h₁.maps, h₂.lastEntity.trans h₁.lastEntity,
    h₂.lastMap.trans h₁.lastMap⟩

theorem SameGround.thing? {w' : World} (h : SameGround w w') (e : EntityId) :
    w'.thing? e = w.thing? e := by
  rw [thing?_eq, thing?_eq, h.things]

theorem SameGround.map? {w' : World} (h : SameGround w w') (m : MapId) : w'.map? m = w.map? m := by
  rw [World.map?, World.map?, h.maps]

theorem SameGround.regionAt {w' : World} (h : SameGround w w') (m : MapId) (c : Cell) :
    w'.regionAt m c = w.regionAt m c := by
  rw [World.regionAt, World.regionAt, h.maps]

theorem SameGround.inGrowZone {w' : World} (h : SameGround w w') (m : MapId) (c : Cell) :
    w'.inGrowZone m c = w.inGrowZone m c := by
  rw [World.inGrowZone, World.inGrowZone, h.maps]

theorem SameGround.thingsOn {w' : World} (h : SameGround w w') (m : MapId) :
    w'.thingsOn m = w.thingsOn m := by
  rw [World.thingsOn, World.thingsOn, h.things]

theorem sameGround_setComponent (e : EntityId) (c : Component) :
    SameGround w (w.setComponent e c).2 := by
  unfold setComponent
  split
  · split
    · exact ⟨rfl, rfl, rfl, rfl⟩
    · exact SameGround.refl w
  · exact SameGround.refl w

theorem sameGround_infect (e : EntityId) (a : Ailment) : SameGround w (w.infect e a).2 := by
  unfold infect
  split
  · exact ⟨rfl, rfl, rfl, rfl⟩
  · exact SameGround.refl w

theorem sameGround_heal (e : EntityId) : SameGround w (w.heal e).2 := by
  unfold heal
  split
  · exact ⟨rfl, rfl, rfl, rfl⟩
  · exact SameGround.refl w

theorem sameGround_ageInjuries (n : UInt32) : SameGround w (w.ageInjuries n) := ⟨rfl, rfl, rfl, rfl⟩

theorem sameGround_relate (a b : EntityId) (k : RelationKind) : SameGround w (w.relate a b k) :=
  ⟨rfl, rfl, rfl, rfl⟩

theorem sameGround_restrictWork (e : EntityId) (ks : List WorkKind) :
    SameGround w (w.restrictWork e ks) := ⟨rfl, rfl, rfl, rfl⟩

theorem sameGround_liftWorkRestrictions (e : EntityId) :
    SameGround w (w.liftWorkRestrictions e) := ⟨rfl, rfl, rfl, rfl⟩

theorem sameGround_affiliate (e : EntityId) (tag : Affiliation) (f : EntityId) :
    SameGround w (w.affiliate e tag f) := ⟨rfl, rfl, rfl, rfl⟩

theorem sameGround_endAffiliation (e : EntityId) (tag : Affiliation) :
    SameGround w (w.endAffiliation e tag) := ⟨rfl, rfl, rfl, rfl⟩

theorem sameGround_restrictArea (e : EntityId) (a : Option Area) :
    SameGround w (w.restrictArea e a) := by
  unfold restrictArea
  split <;> exact ⟨rfl, rfl, rfl, rfl⟩

theorem addInjury_ground (owner : EntityId) (severity : Float32) :
    let w' := (w.addInjury owner severity).2
    w'.things = w.things ∧ w'.maps = w.maps ∧ w'.lastMap = w.lastMap ∧
      (w'.lastEntity = w.lastEntity ∨ w'.lastEntity = w.lastEntity + 1) := by
  unfold addInjury
  split
  · exact ⟨rfl, rfl, rfl, .inr rfl⟩
  · exact ⟨rfl, rfl, rfl, .inl rfl⟩

/-! ## Spawning, despawning and moving -/

/-- Spawning either fails and changes nothing, or puts the new thing under the next number. -/
theorem spawn_cases (m : MapId) (k : ThingKind) (c : Cell) :
    w.spawn m k c = (none, w) ∨
      ∃ g, w.map? m = some g ∧ g.contains c = true ∧
        (w.spawn m k c).1 = some ⟨⟨w.lastEntity + 1⟩, k, m, c⟩ ∧
        (∀ e, (w.spawn m k c).2.thing? e =
          if e = ⟨w.lastEntity + 1⟩ then some ⟨⟨w.lastEntity + 1⟩, k, m, c⟩ else w.thing? e) ∧
        (w.spawn m k c).2.maps = w.maps ∧ (w.spawn m k c).2.lastEntity = w.lastEntity + 1 ∧
        (w.spawn m k c).2.lastMap = w.lastMap := by
  unfold spawn
  split
  · next g hg =>
    split
    · next hc =>
      refine .inr ⟨g, hg, hc, rfl, fun e => ?_, rfl, rfl, rfl⟩
      simp only [thing?_eq, TreeMap.getElem?_insert, Std.compare_eq_iff_eq]
      split_ifs with h₁ h₂ h₂ <;> first | rfl | (subst h₁; exact absurd rfl h₂) | skip
      exact absurd h₂.symm h₁
    · exact .inl rfl
  · exact .inl rfl

@[simp] theorem thing?_despawn (e e' : EntityId) :
    (w.despawn e).2.thing? e' = if e' = e then none else w.thing? e' := by
  unfold despawn
  split
  · next t ht =>
    simp only [forget, thing?_eq, TreeMap.getElem?_erase, Std.compare_eq_iff_eq]
    by_cases h : e' = e
    · rw [if_pos h.symm, if_pos h]
    · rw [if_neg (Ne.symm h), if_neg h]
  · next ht =>
    split
    · next h => rw [h]; exact ht
    · rfl

@[simp] theorem maps_despawn (e : EntityId) : (w.despawn e).2.maps = w.maps := by
  unfold despawn; split <;> rfl

@[simp] theorem lastEntity_despawn (e : EntityId) : (w.despawn e).2.lastEntity = w.lastEntity := by
  unfold despawn; split <;> rfl

@[simp] theorem lastMap_despawn (e : EntityId) : (w.despawn e).2.lastMap = w.lastMap := by
  unfold despawn; split <;> rfl

/-- Moving either fails and changes nothing, or changes only the thing's cell. -/
theorem moveTo_cases (e : EntityId) (c : Cell) :
    w.moveTo e c = (false, w) ∨
      ∃ t g, w.thing? e = some t ∧ w.map? t.map = some g ∧ g.contains c = true ∧
        (w.moveTo e c).1 = true ∧
        (∀ e', (w.moveTo e c).2.thing? e' = if e' = e then some { t with cell := c } else w.thing? e') ∧
        (w.moveTo e c).2.maps = w.maps ∧ (w.moveTo e c).2.lastEntity = w.lastEntity ∧
        (w.moveTo e c).2.lastMap = w.lastMap := by
  unfold moveTo
  split
  · next t ht =>
    split
    · next g hg =>
      split
      · next hc =>
        refine .inr ⟨t, g, ht, hg, hc, rfl, fun e' => ?_, rfl, rfl, rfl⟩
        simp only [thing?_eq, TreeMap.getElem?_insert, Std.compare_eq_iff_eq]
        by_cases h : e' = e
        · rw [if_pos h.symm, if_pos h]
        · rw [if_neg (Ne.symm h), if_neg h]
      · exact .inl rfl
    · exact .inl rfl
  · exact .inl rfl

/-! ## Adding and removing maps -/

@[simp] theorem things_addMap (width height size : UInt32) :
    (w.addMap width height size).2.things = w.things := rfl

@[simp] theorem lastEntity_addMap (width height size : UInt32) :
    (w.addMap width height size).2.lastEntity = w.lastEntity := rfl

@[simp] theorem lastMap_addMap (width height size : UInt32) :
    (w.addMap width height size).2.lastMap = w.lastMap + 1 := rfl

@[simp] theorem fst_addMap (width height size : UInt32) :
    (w.addMap width height size).1 = ⟨w.lastMap + 1⟩ := rfl

@[simp] theorem things_setRegionsEnabled (m : MapId) (b : Bool) :
    (w.setRegionsEnabled m b).things = w.things := rfl

@[simp] theorem lastEntity_setRegionsEnabled (m : MapId) (b : Bool) :
    (w.setRegionsEnabled m b).lastEntity = w.lastEntity := rfl

@[simp] theorem lastMap_setRegionsEnabled (m : MapId) (b : Bool) :
    (w.setRegionsEnabled m b).lastMap = w.lastMap := rfl

theorem thing?_foldl_forget (ts : List Thing) (e : EntityId) :
    (ts.foldl (fun w t => w.forget t.id) w).thing? e =
      if ts.any (·.id == e) then none else w.thing? e := by
  induction ts generalizing w with
  | nil => simp
  | cons t ts ih =>
    rw [List.foldl_cons, ih, List.any_cons]
    simp only [forget, thing?_eq, TreeMap.getElem?_erase, Std.compare_eq_iff_eq, Bool.or_eq_true,
      beq_iff_eq]
    by_cases h : t.id = e <;> simp [h]

@[simp] theorem lastEntity_foldl_forget (ts : List Thing) :
    (ts.foldl (fun w t => w.forget t.id) w).lastEntity = w.lastEntity := by
  induction ts generalizing w with
  | nil => rfl
  | cons t ts ih => exact ih _

@[simp] theorem lastMap_foldl_forget (ts : List Thing) :
    (ts.foldl (fun w t => w.forget t.id) w).lastMap = w.lastMap := by
  induction ts generalizing w with
  | nil => rfl
  | cons t ts ih => exact ih _

theorem removeMap_of_map? {m : MapId} (hm : (w.map? m).isSome)
    (hkey : ∀ e t, w.thing? e = some t → t.id = e) :
    (w.removeMap m).1 = w.thingsOn m ∧
      (∀ e, (w.removeMap m).2.thing? e =
        if (w.thing? e).any (·.map == m) then none else w.thing? e) ∧
      (w.removeMap m).2.lastEntity = w.lastEntity ∧ (w.removeMap m).2.lastMap = w.lastMap := by
  have hc : w.maps.contains m = true := by
    simpa [World.map?, TreeMap.get?_eq_getElem?, TreeMap.isSome_getElem?_iff_mem] using hm
  unfold removeMap
  rw [if_pos hc]
  refine ⟨rfl, fun e => ?_, by simp, by simp⟩
  rw [thing?_foldl_forget]
  -- a record is listed on `m` exactly when it names `m`, and it is listed under its own id
  have hiff : (w.thingsOn m).any (·.id == e) = (w.thing? e).any (·.map == m) := by
    apply Bool.eq_iff_iff.mpr
    simp only [List.any_eq_true, beq_iff_eq, Option.any_eq_true]
    constructor
    · rintro ⟨t, ht, rfl⟩
      obtain ⟨e', he', hm'⟩ := (mem_thingsOn w).mp ht
      rw [← hkey e' t he'] at he'
      exact ⟨t, he', hm'⟩
    · rintro ⟨t, ht, hm'⟩
      exact ⟨t, (mem_thingsOn w).mpr ⟨e, ht, hm'⟩, hkey e t ht⟩
  rw [hiff]
  split <;> rfl

end World

end ColonyCache
