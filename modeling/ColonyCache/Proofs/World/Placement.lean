import ColonyCache.Proofs.World.Records
/-! Where the things of a built world stand, and what removing a map takes away. The map counter
is 32 bits wide, so after `2 ^ 32` more maps a map number is handed out again. -/
namespace ColonyCache

open Std

namespace World

variable {w : World}

/-! ## Forgetting many things -/

theorem foldl_forget_withMaps (ts : List Thing) (w : World) (X : TreeMap MapId MapGrid compare) :
    ts.foldl (fun w t => w.forget t.id) { w with maps := X } =
      { ts.foldl (fun w t => w.forget t.id) w with maps := X } := by
  induction ts generalizing w with
  | nil => rfl
  | cons t ts ih => exact ih (w.forget t.id)

theorem components_foldl_forget (ts : List Thing) (e : EntityId) :
    (ts.foldl (fun w t => w.forget t.id) w).components[e]? =
      if ts.any (·.id == e) then none else w.components[e]? := by
  induction ts generalizing w with
  | nil => simp
  | cons t ts ih =>
    rw [List.foldl_cons, ih, List.any_cons, components_forget]
    by_cases h : t.id = e <;> simp [h, Ne.symm]

theorem ailments_foldl_forget (ts : List Thing) (e : EntityId) :
    (ts.foldl (fun w t => w.forget t.id) w).ailments[e]? =
      if ts.any (·.id == e) then none else w.ailments[e]? := by
  induction ts generalizing w with
  | nil => simp
  | cons t ts ih =>
    rw [List.foldl_cons, ih, List.any_cons, ailments_forget]
    by_cases h : t.id = e <;> simp [h, Ne.symm]

theorem injuries_foldl_forget (ts : List Thing) (i : EntityId) :
    (ts.foldl (fun w t => w.forget t.id) w).injuries[i]? =
      (w.injuries[i]?).filter fun j => !ts.any (·.id == j.owner) := by
  induction ts generalizing w with
  | nil => rw [List.foldl_nil]; cases w.injuries[i]? <;> rfl
  | cons t ts ih =>
    rw [List.foldl_cons, ih, injuries_forget]
    cases w.injuries[i]? with
    | none => rfl
    | some j =>
      by_cases h : j.owner = t.id
      · simp [Option.filter_some, h]
      · simp [Option.filter_some, h, List.any_cons, Ne.symm h]

theorem any_thingsOn (h : w.Records) (m : MapId) (e : EntityId) :
    (w.thingsOn m).any (·.id == e) = (w.thing? e).any (·.map == m) := by
  apply Bool.eq_iff_iff.mpr
  simp only [List.any_eq_true, beq_iff_eq, Option.any_eq_true]
  constructor
  · rintro ⟨t, ht, rfl⟩
    obtain ⟨e', he', hm⟩ := (mem_thingsOn w).mp ht
    rw [← h.thingKey e' t he'] at he'
    exact ⟨t, he', hm⟩
  · rintro ⟨t, ht, hm⟩
    exact ⟨t, (mem_thingsOn w).mpr ⟨e, ht, hm⟩, h.thingKey e t ht⟩

theorem thingsOn_of_map?_none (h : w.Records) {m : MapId} (hm : w.map? m = none) :
    w.thingsOn m = [] := by
  apply List.eq_nil_iff_forall_not_mem.mpr
  intro t ht
  obtain ⟨e, he, rfl⟩ := (mem_thingsOn w).mp ht
  have := h.onMap e t he
  rw [hm] at this
  cases this

/-! ## Removing a map -/

/-- Removing map `m` gives the things on `m`, in some order, and forgets them with what is
recorded about them, keeping every other thing. -/
structure RemovesMap (w : World) (m : MapId) : Prop where
  gives : (w.removeMap m).1.Perm (w.thingsOn m)
  things : ∀ e : EntityId, (w.removeMap m).2.thing? e =
    if (w.thing? e).any (·.map == m) then none else w.thing? e
  components : ∀ e : EntityId, (w.removeMap m).2.components[e]? =
    if (w.thing? e).any (·.map == m) then none else w.components[e]?
  ailments : ∀ e : EntityId, (w.removeMap m).2.ailments[e]? =
    if (w.thing? e).any (·.map == m) then none else w.ailments[e]?
  injuries : ∀ i : EntityId, (w.removeMap m).2.injuries[i]? =
    (w.injuries[i]?).filter fun j => !(w.thing? j.owner).any (·.map == m)

theorem Records.removesMap (h : w.Records) (m : MapId) : w.RemovesMap m := by
  cases hm : w.map? m with
  | none =>
    -- no thing stands on a map that is gone, so nothing is removed
    have hc : w.maps.contains m = false := by
      rw [TreeMap.contains_eq_isSome_getElem?, ← TreeMap.get?_eq_getElem?]
      exact congrArg Option.isSome hm
    have hoff : ∀ e, (w.thing? e).any (·.map == m) = false := by
      intro e
      cases ht : w.thing? e with
      | none => rfl
      | some t =>
        have hon := h.onMap e t ht
        simp only [Option.any_some, beq_eq_false_iff_ne]
        rintro rfl
        rw [hm] at hon
        cases hon
    have hrm : w.removeMap m = ([], w) := by simp [World.removeMap, hc]
    refine ⟨?_, fun e => ?_, fun e => ?_, fun e => ?_, fun i => ?_⟩
    · rw [hrm, thingsOn_of_map?_none h hm]
    · rw [hrm, hoff]; rfl
    · rw [hrm, hoff]; rfl
    · rw [hrm, hoff]; rfl
    · rw [hrm]
      cases w.injuries[i]? with
      | none => rfl
      | some j => simp [Option.filter, hoff]
  | some g =>
    obtain ⟨hgive, hthing, -, -⟩ := removeMap_of_map? w (by rw [hm]; rfl) h.thingKey
    have hc : w.maps.contains m = true := by
      rw [TreeMap.contains_eq_isSome_getElem?, ← TreeMap.get?_eq_getElem?]
      exact congrArg Option.isSome hm
    -- the removed world is the world with the things on `m` forgotten and `m` taken out
    have hrm : (w.removeMap m).2 =
        { (w.thingsOn m).foldl (fun w t => w.forget t.id) w with maps := w.maps.erase m } := by
      simp only [World.removeMap, hc, if_true]
      exact foldl_forget_withMaps _ _ _
    refine ⟨.of_eq hgive, hthing, fun e => ?_, fun e => ?_, fun i => ?_⟩
    · rw [hrm]
      exact (components_foldl_forget _ e).trans (by rw [any_thingsOn h])
    · rw [hrm]
      exact (ailments_foldl_forget _ e).trans (by rw [any_thingsOn h])
    · rw [hrm]
      exact (injuries_foldl_forget _ i).trans (by simp only [any_thingsOn h])

/-! ## Cells on their maps -/

/-- Every thing stands on a cell of its map. -/
def Contained (w : World) : Prop :=
  ∀ (e : EntityId) (t : Thing), w.thing? e = some t →
    ∃ g, w.map? t.map = some g ∧ g.contains t.cell = true

/-- Every map in the world is numbered from one up to the map counter. -/
def MapsNumbered (w : World) : Prop :=
  ∀ m : MapId, (w.map? m).isSome → 1 ≤ m.val.toNat ∧ m.val.toNat ≤ w.lastMap.toNat

theorem MapsNumbered.fresh (h : w.MapsNumbered) : w.map? ⟨w.lastMap + 1⟩ = none := by
  cases hm : w.map? ⟨w.lastMap + 1⟩ with
  | none => rfl
  | some g =>
    have := h _ (by rw [hm]; rfl)
    have hnext := UInt32.toNat_add w.lastMap 1
    have hlt := w.lastMap.toNat_lt
    simp only [UInt32.toNat_one] at hnext this
    -- the next number is one past the counter, or zero when the counter wraps
    rcases Nat.lt_or_ge (w.lastMap.toNat + 1) 4294967296 with h₁ | h₁
    · rw [Nat.mod_eq_of_lt h₁] at hnext
      omega
    · have : w.lastMap.toNat + 1 = 4294967296 := by omega
      rw [this, Nat.mod_self] at hnext
      omega

theorem Contained.of_sub (h : w.Contained) {w' : World} (hm : w'.maps = w.maps)
    (ht : ∀ e t, w'.thing? e = some t → w.thing? e = some t) : w'.Contained := by
  intro e t he
  rw [World.map?, hm]
  exact h e t (ht e t he)

theorem Contained.empty : ({} : World).Contained := by
  intro e t h
  simp [thing?_eq] at h

theorem Contained.addMap (h : w.Contained) (hn : w.MapsNumbered) (width height size : UInt32) :
    (w.addMap width height size).2.Contained := by
  intro e t ht
  obtain ⟨g, hg, hc⟩ := h e t ht
  refine ⟨g, ?_, hc⟩
  rw [map?_addMap, if_neg]
  · exact hg
  · -- the new number is no map's, and `t` stands on a map
    rintro heq
    rw [fst_addMap] at heq
    rw [← heq, hn.fresh] at hg
    cases hg

theorem Contained.setRegionsEnabled (h : w.Contained) (m : MapId) (b : Bool) :
    (w.setRegionsEnabled m b).Contained := by
  intro e t ht
  obtain ⟨g, hg, hc⟩ := h e t ht
  rw [map?_setRegionsEnabled]
  split
  · exact ⟨{ g with regionsEnabled := b }, by rw [hg]; rfl, hc⟩
  · exact ⟨g, hg, hc⟩

theorem Contained.spawn (h : w.Contained) (m : MapId) (k : ThingKind) (c : Cell) :
    (w.spawn m k c).2.Contained := by
  rcases spawn_cases w m k c with h0 | ⟨g, hg, hc, -, hthing, hmaps, -⟩
  · rw [h0]; exact h
  intro e t ht
  rw [hthing] at ht
  rw [World.map?, hmaps]
  split at ht
  · cases ht; exact ⟨g, hg, hc⟩
  · exact h e t ht

theorem Contained.moveTo (h : w.Contained) (e : EntityId) (c : Cell) :
    (w.moveTo e c).2.Contained := by
  rcases moveTo_cases w e c with h0 | ⟨t, g, -, hg, hc, -, hthing, hmaps, -⟩
  · rw [h0]; exact h
  intro e' t' ht
  rw [hthing] at ht
  rw [World.map?, hmaps]
  split at ht
  · cases ht; exact ⟨g, hg, hc⟩
  · exact h e' t' ht

theorem Contained.removeMap (h : w.Contained) (hr : w.Records) (m : MapId) :
    (w.removeMap m).2.Contained := by
  intro e t ht
  have hrm := hr.removesMap m
  rw [hrm.things] at ht
  split at ht
  · cases ht
  · next hoff =>
    -- a thing left stands on another map, whose grid stays
    obtain ⟨g, hg, hc⟩ := h e t ht
    refine ⟨g, ?_, hc⟩
    rw [map?_removeMap, if_neg]
    · exact hg
    · rintro rfl
      rw [ht] at hoff
      simp at hoff

theorem Contained.apply (h : w.Contained) (hr : w.Records) (op : Op)
    (hn : op.mapsAdded = 1 → w.MapsNumbered) : (w.apply op).Contained := by
  cases op with
  | addMap width height size => exact h.addMap (hn rfl) width height size
  | setRegionsEnabled m b => exact h.setRegionsEnabled m b
  | removeMap m => exact h.removeMap hr m
  | spawn m k c => exact h.spawn m k c
  | despawn e =>
    refine h.of_sub (maps_despawn w e) fun e' t ht => ?_
    change (w.despawn e).2.thing? e' = some t at ht
    rw [thing?_despawn] at ht
    split at ht
    · cases ht
    · exact ht
  | moveTo e c => exact h.moveTo e c
  | addInjury owner severity =>
    refine h.of_sub (addInjury_ground w owner severity).2.1 fun e t ht => ?_
    rwa [World.apply, thing?_eq, (addInjury_ground w owner severity).1] at ht
  | heal e =>
    refine h.of_sub (sameGround_heal w e).maps fun _ _ ht => ?_
    rwa [World.apply, (sameGround_heal w _).thing?] at ht
  | setComponent e c =>
    refine h.of_sub (sameGround_setComponent w e c).maps fun _ _ ht => ?_
    rwa [World.apply, (sameGround_setComponent w _ _).thing?] at ht
  | infect owner a =>
    refine h.of_sub (sameGround_infect w owner a).maps fun _ _ ht => ?_
    rwa [World.apply, (sameGround_infect w _ _).thing?] at ht
  | restrictArea e a =>
    refine h.of_sub (sameGround_restrictArea w e a).maps fun _ _ ht => ?_
    rwa [World.apply, (sameGround_restrictArea w _ _).thing?] at ht
  -- the rest touch neither the maps nor the records of things
  | _ => exact h.of_sub rfl fun _ _ ht => ht

theorem MapsNumbered.empty : ({} : World).MapsNumbered := by
  intro m h
  simp [World.map?] at h

theorem MapsNumbered.apply (h : w.MapsNumbered) (op : Op)
    (hroom : w.lastMap.toNat + op.mapsAdded < Nat.pow 2 32) : (w.apply op).MapsNumbered := by
  intro m hm
  rw [lastMap_apply]
  have hsmall : op.mapsAdded ≤ 1 := by cases op <;> simp [Op.mapsAdded]
  have hcount : (w.lastMap + op.mapsAdded.toUInt32).toNat = w.lastMap.toNat + op.mapsAdded := by
    rw [UInt32.toNat_add, UInt32.toNat_ofNat_of_lt' (by show op.mapsAdded < 4294967296; omega)]
    exact Nat.mod_eq_of_lt hroom
  -- only adding a map moves the counter; every other operation keeps or drops maps
  rw [hcount]
  cases op with
  | addMap width height size =>
    show 1 ≤ m.val.toNat ∧ m.val.toNat ≤ w.lastMap.toNat + 1
    rw [World.apply, map?_addMap] at hm
    split at hm
    -- the new map takes the number after the counter, which has room for it
    · next heq =>
      rw [← heq, fst_addMap]
      have hroom' : w.lastMap.toNat + 1 < 4294967296 := hroom
      simp only [UInt32.toNat_add, UInt32.toNat_one, Nat.mod_eq_of_lt hroom']
      omega
    · have := h m hm
      omega
  | removeMap m' =>
    rw [World.apply, map?_removeMap] at hm
    split at hm
    · cases hm
    · exact h m hm
  | setRegionsEnabled m' b =>
    rw [World.apply, map?_setRegionsEnabled] at hm
    split at hm
    · exact h m (by simpa using hm)
    · exact h m hm
  | spawn m' k c =>
    rcases spawn_cases w m' k c with h0 | ⟨-, -, -, -, -, hmaps, -⟩
    · rw [World.apply, h0] at hm
      exact h m hm
    · rw [World.apply, World.map?, hmaps] at hm
      exact h m hm
  | moveTo e c =>
    rcases moveTo_cases w e c with h0 | ⟨-, -, -, -, -, -, -, hmaps, -⟩
    · rw [World.apply, h0] at hm
      exact h m hm
    · rw [World.apply, World.map?, hmaps] at hm
      exact h m hm
  | despawn e =>
    rw [World.apply, World.map?, maps_despawn] at hm
    exact h m hm
  | addInjury owner severity =>
    rw [World.apply, World.map?, (addInjury_ground w owner severity).2.1] at hm
    exact h m hm
  | heal e =>
    rw [World.apply, (sameGround_heal w e).map?] at hm
    exact h m hm
  | setComponent e c =>
    rw [World.apply, (sameGround_setComponent w e c).map?] at hm
    exact h m hm
  | infect owner a =>
    rw [World.apply, (sameGround_infect w owner a).map?] at hm
    exact h m hm
  | restrictArea e a =>
    rw [World.apply, (sameGround_restrictArea w e a).map?] at hm
    exact h m hm
  | _ => exact h m hm

namespace Built

variable {n k : Nat}

theorem mapsNumbered (hw : w.Built n k) (hk : k < Nat.pow 2 32) : w.MapsNumbered := by
  induction hw with
  | empty => exact MapsNumbered.empty
  | @step w n k op hw ih =>
    have hk' : k < Nat.pow 2 32 := by omega
    refine (ih hk').apply op ?_
    rw [hw.lastMap_toNat hk']
    exact hk

theorem contained (hw : w.Built n k) (hn : n < Nat.pow 2 32) (hk : k ≤ Nat.pow 2 32) :
    w.Contained := by
  induction hw with
  | empty => exact Contained.empty
  | @step w n k op hw ih =>
    have hn' : n < Nat.pow 2 32 := by omega
    have hk' : k ≤ Nat.pow 2 32 := by omega
    -- the maps are numbered before every change but the last map added of `2 ^ 32`
    refine (ih hn' hk').apply (hw.records hn') op fun hadd => hw.mapsNumbered ?_
    omega

theorem addMaps (hw : w.Built n k) (j : Nat) (width height size : UInt32) :
    ((List.replicate j (Op.addMap width height size)).foldl World.apply w).Built n (k + j) := by
  induction j generalizing w k with
  | zero => exact hw
  | succ j ih =>
    rw [List.replicate_succ, List.foldl_cons, show k + (j + 1) = k + 1 + j by omega]
    exact ih (Built.step (.addMap width height size) hw)

end Built

theorem things_foldl_addMaps (j : Nat) (width height size : UInt32) :
    ((List.replicate j (Op.addMap width height size)).foldl World.apply w).things = w.things := by
  induction j generalizing w with
  | zero => rfl
  | succ j ih => rw [List.replicate_succ, List.foldl_cons, ih]; rfl

theorem lastMap_foldl_addMaps (j : Nat) (width height size : UInt32) :
    ((List.replicate j (Op.addMap width height size)).foldl World.apply w).lastMap.toNat =
      (w.lastMap.toNat + j) % Nat.pow 2 32 := by
  induction j generalizing w with
  | zero => exact (Nat.mod_eq_of_lt w.lastMap.toNat_lt).symm
  | succ j ih =>
    rw [List.replicate_succ, List.foldl_cons, ih]
    show ((w.lastMap + 1).toNat + j) % 4294967296 = (w.lastMap.toNat + (j + 1)) % 4294967296
    rw [UInt32.toNat_add, UInt32.toNat_one]
    show ((w.lastMap.toNat + 1) % 4294967296 + j) % 4294967296 = _
    rw [Nat.mod_add_mod, Nat.add_assoc, Nat.add_comm 1 j]

theorem map?_lastMap_foldl_wrap (width height size : UInt32) :
    ((List.replicate (Nat.pow 2 32) (Op.addMap width height size)).foldl apply w).map?
        ⟨w.lastMap⟩ =
      some ⟨⟨w.lastMap⟩, max width 1, max height 1,
        (fittingRegionSize (max width 1).toNat (max height 1).toNat size.toNat).toUInt32, false⟩ := by
  have hlast :
      ((List.replicate 4294967295 (Op.addMap width height size)).foldl apply w).lastMap + 1 =
        w.lastMap := by
    apply UInt32.toNat_inj.mp
    rw [UInt32.toNat_add, lastMap_foldl_addMaps, UInt32.toNat_one]
    show ((w.lastMap.toNat + 4294967295) % 4294967296 + 1) % 4294967296 = _
    have hlt := w.lastMap.toNat_lt
    omega
  rw [show Nat.pow 2 32 = 4294967295 + 1 from rfl, List.replicate_succ', List.foldl_append,
    List.foldl_cons, List.foldl_nil, apply, map?_addMap, fst_addMap, hlast, if_pos rfl]

end World

/-- Every world built while fewer than `2 ^ 32` ids are handed out keeps its records, its things
stand on their maps while at most `2 ^ 32` maps are added, and removing a map does what it should. -/
theorem built_world_keeps_records {w : World} {n k : Nat} (hw : w.Built n k)
    (hn : n < Nat.pow 2 32) :
    w.Records ∧ w.lastEntity.toNat = n ∧ (k ≤ Nat.pow 2 32 → w.Contained) ∧
      ∀ m, w.RemovesMap m :=
  ⟨hw.records hn, hw.lastEntity_toNat hn, hw.contained hn, (hw.records hn).removesMap⟩

theorem generator_world_keeps_records :
    let w := ((({} : World).addMap 20 20 10).2.spawn ⟨1⟩ .generator ⟨1, 1⟩).2
    w.Built 1 1 ∧ 1 < Nat.pow 2 32 ∧ (w.Records ∧ w.lastEntity.toNat = 1 ∧
      (1 ≤ Nat.pow 2 32 → w.Contained) ∧ ∀ m, w.RemovesMap m) := by
  have hw : ((({} : World).addMap 20 20 10).2.spawn ⟨1⟩ .generator ⟨1, 1⟩).2.Built 1 1 :=
    World.Built.step (.spawn ⟨1⟩ .generator ⟨1, 1⟩)
      (World.Built.step (.addMap 20 20 10) World.Built.empty)
  exact ⟨hw, by decide, built_world_keeps_records hw (by decide)⟩

/-- After `2 ^ 32` more maps the first map's number names a new grid, and its item stands outside it. -/
theorem reused_map_number_strands_item :
    let w := (List.replicate (Nat.pow 2 32) (World.Op.addMap 1 1 1)).foldl World.apply
      ((({} : World).addMap 100 100 1).2.spawn ⟨1⟩ .item ⟨50, 50⟩).2
    w.Built 1 (Nat.pow 2 32 + 1) ∧
      ∃ t g, w.thing? ⟨1⟩ = some t ∧ w.map? t.map = some g ∧ g.contains t.cell = false := by
  intro w
  have h₀ : ((({} : World).addMap 100 100 1).2.spawn ⟨1⟩ .item ⟨50, 50⟩).2.Built 1 1 :=
    World.Built.step (.spawn ⟨1⟩ .item ⟨50, 50⟩)
      (World.Built.step (.addMap 100 100 1) World.Built.empty)
  have hbuilt : w.Built 1 (Nat.pow 2 32 + 1) := by
    have h := h₀.addMaps (Nat.pow 2 32) 1 1 1
    rw [Nat.add_comm] at h
    exact h
  have hthing : w.thing? ⟨1⟩ = some ⟨⟨1⟩, .item, ⟨1⟩, ⟨50, 50⟩⟩ := by
    rw [World.thing?_eq, World.things_foldl_addMaps]
    decide
  -- the last of the maps added takes the first one's number again
  have hmap : w.map? ⟨1⟩ = some ⟨⟨1⟩, 1, 1, (fittingRegionSize 1 1 1).toUInt32, false⟩ := by
    have hone : ((({} : World).addMap 100 100 1).2.spawn ⟨1⟩ .item ⟨50, 50⟩).2.lastMap = 1 :=
      UInt32.toNat_inj.mp (h₀.lastMap_toNat (by decide))
    have h := World.map?_lastMap_foldl_wrap (w :=
      ((({} : World).addMap 100 100 1).2.spawn ⟨1⟩ .item ⟨50, 50⟩).2) 1 1 1
    rw [hone] at h
    exact h
  exact ⟨hbuilt, _, _, hthing, hmap, by decide⟩

end ColonyCache
