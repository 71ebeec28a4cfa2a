import Std.Data.HashMap.Lemmas
import ColonyCache.Proofs.World.Run
/-! What the records of a built world keep while fewer than `2 ^ 32` entity ids are handed out, so
that the counter never hands out an id in use. -/
namespace ColonyCache

open Std

namespace World

def componentsOf (w : World) (e : EntityId) : List Component := w.components.getD e []

/-- What the records of a built world keep while no entity id is handed out twice. -/
structure Records (w : World) : Prop where
  thingKey : ∀ (e : EntityId) (t : Thing), w.thing? e = some t → t.id = e
  thingBelow : ∀ (e : EntityId) (t : Thing), w.thing? e = some t →
    e.val.toNat ≤ w.lastEntity.toNat
  onMap : ∀ (e : EntityId) (t : Thing), w.thing? e = some t → (w.map? t.map).isSome
  kinds : ∀ (e : EntityId) (t : Thing), w.thing? e = some t →
    (w.componentsOf e).map Component.kind = t.kind.defaultComponents.map Component.kind
  components : ∀ e : EntityId, (w.components[e]?).isSome → (w.thing? e).isSome
  ailments : ∀ e : EntityId, (w.ailments[e]?).isSome → (w.thing? e).isSome
  injuryKey : ∀ (e : EntityId) (i : Injury), w.injuries[e]? = some i → i.id = e
  injuryBelow : ∀ (e : EntityId) (i : Injury), w.injuries[e]? = some i →
    e.val.toNat ≤ w.lastEntity.toNat
  owner : ∀ (e : EntityId) (i : Injury), w.injuries[e]? = some i → (w.thing? i.owner).isSome
  apart : ∀ e : EntityId, (w.thing? e).isSome → w.injuries[e]? = none

variable {w : World}

theorem componentsOf_eq (w : World) (e : EntityId) : w.componentsOf e = (w.components[e]?).getD [] :=
  HashMap.getD_eq_getD_getElem?

/-! ### Forgetting a thing -/

@[simp] theorem thing?_forget (e e' : EntityId) :
    (w.forget e).thing? e' = if e' = e then none else w.thing? e' := by
  simp only [forget, thing?_eq, TreeMap.getElem?_erase, Std.compare_eq_iff_eq]
  by_cases h : e' = e
  · rw [if_pos h.symm, if_pos h]
  · rw [if_neg (Ne.symm h), if_neg h]

@[simp] theorem components_forget (e e' : EntityId) :
    (w.forget e).components[e']? = if e' = e then none else w.components[e']? := by
  simp only [forget, HashMap.getElem?_erase, beq_iff_eq]
  by_cases h : e' = e
  · rw [if_pos h.symm, if_pos h]
  · rw [if_neg (Ne.symm h), if_neg h]

@[simp] theorem ailments_forget (e e' : EntityId) :
    (w.forget e).ailments[e']? = if e' = e then none else w.ailments[e']? := by
  simp only [forget, HashMap.getElem?_erase, beq_iff_eq]
  by_cases h : e' = e
  · rw [if_pos h.symm, if_pos h]
  · rw [if_neg (Ne.symm h), if_neg h]

@[simp] theorem injuries_forget (e i : EntityId) :
    (w.forget e).injuries[i]? = (w.injuries[i]?).filter (·.owner != e) := by
  simp only [forget, TreeMap.getElem?_filter']

/-! ### What spawning and wounding write -/

theorem getElem?_insert_id {β : Type} (t : TreeMap EntityId β compare) (k e : EntityId) (v : β) :
    (t.insert k v)[e]? = if e = k then some v else t[e]? := by
  simp only [TreeMap.getElem?_insert, Std.compare_eq_iff_eq]
  by_cases he : e = k
  · rw [if_pos he.symm, if_pos he]
  · rw [if_neg (Ne.symm he), if_neg he]

/-- A spawn that finds its map and cell puts the new thing under the next number of the counter. -/
theorem spawn_tables (w : World) {m : MapId} {k : ThingKind} {c : Cell} {g : MapGrid}
    (hg : w.map? m = some g) (hc : g.contains c = true) :
    (w.spawn m k c).2.lastEntity = w.lastEntity + 1 ∧ (w.spawn m k c).2.maps = w.maps ∧
      (w.spawn m k c).2.injuries = w.injuries ∧ (w.spawn m k c).2.ailments = w.ailments ∧
      (∀ e : EntityId, (w.spawn m k c).2.thing? e =
        if e = ⟨w.lastEntity + 1⟩ then some (⟨⟨w.lastEntity + 1⟩, k, m, c⟩ : Thing)
        else w.thing? e) ∧
      (∀ e : EntityId, (w.spawn m k c).2.components[e]? =
        if e = ⟨w.lastEntity + 1⟩ ∧ k.defaultComponents.isEmpty = false then
          some k.defaultComponents
        else w.components[e]?) := by
  have hg₀ : w.maps.get? m = some g := hg
  unfold World.spawn
  split
  · next g' hg' =>
    rw [hg₀] at hg'
    cases hg'
    rw [if_pos hc]
    dsimp only
    refine ⟨rfl, rfl, rfl, rfl, fun e => getElem?_insert_id _ _ e _, fun e => ?_⟩
    by_cases he : e = ⟨w.lastEntity + 1⟩
    · subst he
      cases hk : k.defaultComponents.isEmpty <;> simp
    · rw [if_neg (show ¬(e = ⟨w.lastEntity + 1⟩ ∧ k.defaultComponents.isEmpty = false) from
        fun h' => he h'.1)]
      split
      · rfl
      · simp [HashMap.getElem?_insert, Ne.symm he]
  · next hg' =>
    rw [hg₀] at hg'
    cases hg'

theorem addInjury_eq (w : World) {owner : EntityId} (hown : w.things.contains owner = true)
    (severity : Float32) :
    (w.addInjury owner severity).2 =
      { w with
        lastEntity := w.lastEntity + 1
        injuries := w.injuries.insert ⟨w.lastEntity + 1⟩ ⟨⟨w.lastEntity + 1⟩, owner, severity, 0⟩ } := by
  simp only [World.addInjury, hown, if_true]

namespace Records

theorem empty : ({} : World).Records where
  thingKey _ _ h := by simp [thing?_eq] at h
  thingBelow _ _ h := by simp [thing?_eq] at h
  onMap _ _ h := by simp [thing?_eq] at h
  kinds _ _ h := by simp [thing?_eq] at h
  components _ h := by simp at h
  ailments _ h := by simp at h
  injuryKey _ _ h := by simp at h
  injuryBelow _ _ h := by simp at h
  owner _ _ h := by simp at h
  apart _ _ := by simp

theorem fresh (h : w.Records) (hroom : w.lastEntity.toNat + 1 < Nat.pow 2 32) :
    (w.lastEntity + 1).toNat = w.lastEntity.toNat + 1 ∧ w.thing? ⟨w.lastEntity + 1⟩ = none ∧
      w.injuries[(⟨w.lastEntity + 1⟩ : EntityId)]? = none ∧
      w.components[(⟨w.lastEntity + 1⟩ : EntityId)]? = none := by
  have hnext : (w.lastEntity + 1).toNat = w.lastEntity.toNat + 1 := by
    rw [UInt32.toNat_add, UInt32.toNat_one]
    exact Nat.mod_eq_of_lt hroom
  have hthing : w.thing? ⟨w.lastEntity + 1⟩ = none := by
    cases ht : w.thing? ⟨w.lastEntity + 1⟩ with
    | none => rfl
    | some t => have := h.thingBelow _ t ht; simp only [hnext] at this; omega
  refine ⟨hnext, hthing, ?_, ?_⟩
  · cases hi : w.injuries[(⟨w.lastEntity + 1⟩ : EntityId)]? with
    | none => rfl
    | some i => have := h.injuryBelow _ i hi; simp only [hnext] at this; omega
  · cases hc : w.components[(⟨w.lastEntity + 1⟩ : EntityId)]? with
    | none => rfl
    | some cs =>
      have := h.components _ (by rw [hc]; rfl)
      rw [hthing] at this
      cases this

/-- A change that keeps every thing's id, kind and map, and the other tables, keeps the records. -/
theorem of_things (h : w.Records) {w' : World}
    (ht : ∀ e, (w'.thing? e).map (fun t => (t.id, t.kind, t.map)) =
      (w.thing? e).map (fun t => (t.id, t.kind, t.map)))
    (hm : ∀ m, (w.map? m).isSome → (w'.map? m).isSome) (hc : w'.components = w.components)
    (ha : w'.ailments = w.ailments) (hi : w'.injuries = w.injuries)
    (he : w'.lastEntity = w.lastEntity) : w'.Records := by
  -- every record of `w'` stands for one of `w` with the same id, kind and map
  have hback : ∀ e t', w'.thing? e = some t' →
      ∃ t, w.thing? e = some t ∧ t'.id = t.id ∧ t'.kind = t.kind ∧ t'.map = t.map := by
    intro e t' h'
    have := ht e
    rw [h'] at this
    cases hw : w.thing? e with
    | none => rw [hw] at this; cases this
    | some t =>
      rw [hw] at this
      simp only [Option.map_some, Option.some.injEq, Prod.mk.injEq] at this
      exact ⟨t, rfl, this.1, this.2.1, this.2.2⟩
  have hsome : ∀ e, (w'.thing? e).isSome = (w.thing? e).isSome := fun e => by
    have := congrArg Option.isSome (ht e)
    simpa using this
  refine ⟨fun e t' h' => ?_, fun e t' h' => ?_, fun e t' h' => ?_, fun e t' h' => ?_,
    fun e hce => ?_, fun e hae => ?_, fun e i hie => ?_, fun e i hie => ?_, fun e i hie => ?_,
    fun e hte => ?_⟩
  · obtain ⟨t, hwt, hid, -, -⟩ := hback e t' h'
    rw [hid]; exact h.thingKey e t hwt
  · obtain ⟨t, hwt, -, -, -⟩ := hback e t' h'
    rw [he]; exact h.thingBelow e t hwt
  · obtain ⟨t, hwt, -, -, hmap⟩ := hback e t' h'
    rw [hmap]; exact hm _ (h.onMap e t hwt)
  · obtain ⟨t, hwt, -, hkind, -⟩ := hback e t' h'
    rw [componentsOf, hc, hkind]; exact h.kinds e t hwt
  · rw [hsome]; rw [hc] at hce; exact h.components e hce
  · rw [hsome]; rw [ha] at hae; exact h.ailments e hae
  · rw [hi] at hie; exact h.injuryKey e i hie
  · rw [hi] at hie; rw [he]; exact h.injuryBelow e i hie
  · rw [hi] at hie; rw [hsome]; exact h.owner e i hie
  · rw [hsome] at hte; rw [hi]; exact h.apart e hte

/-- A change of the same ground keeps the records when it keeps the kinds of every thing's
components and ages the injuries at most. -/
theorem of_ground (h : w.Records) {w' : World} (hg : w.SameGround w')
    (hkinds : ∀ e : EntityId,
      (w'.componentsOf e).map Component.kind = (w.componentsOf e).map Component.kind)
    (hc : ∀ e : EntityId, (w'.components[e]?).isSome → (w.components[e]?).isSome)
    (ha : ∀ e : EntityId, (w'.ailments[e]?).isSome → (w.ailments[e]?).isSome ∨ (w.thing? e).isSome)
    (hi : ∀ (e : EntityId) (i : Injury), w'.injuries[e]? = some i →
      ∃ j, w.injuries[e]? = some j ∧ i.id = j.id ∧ i.owner = j.owner) :
    w'.Records := by
  -- the things, maps and counter stay, so each field carries over; injuries keep id and owner
  refine ⟨fun e t h' => ?_, fun e t h' => ?_, fun e t h' => ?_, fun e t h' => ?_, fun e hce => ?_,
    fun e hae => ?_, fun e i hie => ?_, fun e i hie => ?_, fun e i hie => ?_, fun e hte => ?_⟩
  · rw [hg.thing?] at h'; exact h.thingKey e t h'
  · rw [hg.thing?] at h'; rw [hg.lastEntity]; exact h.thingBelow e t h'
  · rw [hg.thing?] at h'; rw [hg.map?]; exact h.onMap e t h'
  · rw [hg.thing?] at h'; rw [hkinds]; exact h.kinds e t h'
  · rw [hg.thing?]; exact h.components e (hc e hce)
  · rw [hg.thing?]
    rcases ha e hae with h₁ | h₁
    · exact h.ailments e h₁
    · exact h₁
  · obtain ⟨j, hj, hid, -⟩ := hi e i hie
    rw [hid]; exact h.injuryKey e j hj
  · obtain ⟨j, hj, -, -⟩ := hi e i hie
    rw [hg.lastEntity]; exact h.injuryBelow e j hj
  · obtain ⟨j, hj, -, hown⟩ := hi e i hie
    rw [hg.thing?, hown]; exact h.owner e j hj
  · rw [hg.thing?] at hte
    cases hie : w'.injuries[e]? with
    | none => rfl
    | some i =>
      obtain ⟨j, hj, -, -⟩ := hi e i hie
      rw [h.apart e hte] at hj
      cases hj

theorem of_same (h : w.Records) {w' : World} (hg : w.SameGround w')
    (hc : w'.components = w.components) (ha : w'.ailments = w.ailments)
    (hi : w'.injuries = w.injuries) : w'.Records :=
  h.of_ground hg (fun e => by rw [componentsOf, componentsOf, hc]) (fun e he => by rwa [hc] at he)
    (fun e he => .inl (by rwa [ha] at he)) (fun e i hie => ⟨i, by rwa [hi] at hie, rfl, rfl⟩)

/-! ### One lemma per operation -/

theorem addMap (h : w.Records) (width height size : UInt32) :
    (w.addMap width height size).2.Records :=
  h.of_things (fun _ => rfl) (fun m hm => by rw [map?_addMap]; split <;> simp [hm]) rfl rfl rfl rfl

theorem setRegionsEnabled (h : w.Records) (m : MapId) (b : Bool) :
    (w.setRegionsEnabled m b).Records :=
  h.of_things (fun _ => rfl) (fun m' hm => by rw [map?_setRegionsEnabled]; split <;> simp [hm])
    rfl rfl rfl rfl

theorem moveTo (h : w.Records) (e : EntityId) (c : Cell) : (w.moveTo e c).2.Records := by
  unfold World.moveTo
  split
  · next t ht =>
    split
    · split
      · refine h.of_things (fun e' => ?_) (fun _ hm => hm) rfl rfl rfl rfl
        simp only [thing?_eq, TreeMap.getElem?_insert, Std.compare_eq_iff_eq]
        split
        · next he =>
          rw [← he, ← TreeMap.get?_eq_getElem?, ht]
          rfl
        · rfl
      · exact h
    · exact h
  · exact h

theorem heal (h : w.Records) (e : EntityId) : (w.heal e).2.Records := by
  unfold World.heal
  split
  · refine h.of_ground ⟨rfl, rfl, rfl, rfl⟩ (fun _ => rfl) (fun _ he => he) (fun _ he => .inl he)
      fun e' i hie => ⟨i, ?_, rfl, rfl⟩
    rw [TreeMap.getElem?_erase] at hie
    split at hie
    · cases hie
    · exact hie
  · exact h

theorem ageInjuries (h : w.Records) (ticks : UInt32) : (w.ageInjuries ticks).Records := by
  refine h.of_ground ⟨rfl, rfl, rfl, rfl⟩ (fun _ => rfl) (fun _ he => he) (fun _ he => .inl he)
    fun e i hie => ?_
  simp only [World.ageInjuries, TreeMap.getElem?_map, Option.map_eq_some_iff] at hie
  obtain ⟨j, hj, rfl⟩ := hie
  exact ⟨j, hj, rfl, rfl⟩

theorem setComponent (h : w.Records) (e : EntityId) (c : Component) :
    (w.setComponent e c).2.Records := by
  unfold World.setComponent
  split
  · next cs hcs =>
    split
    · next i hi =>
      -- the slot found holds a component of the new one's kind
      have hkind : ∀ (hlt : i < cs.length), cs[i].kind = c.kind := by
        intro hlt
        have := (List.findIdx?_eq_some_iff_getElem.mp hi).2.1
        simpa using this
      refine h.of_ground ⟨rfl, rfl, rfl, rfl⟩ (fun e' => ?_) (fun e' he => ?_)
        (fun _ he => .inl he) (fun _ i hie => ⟨i, hie, rfl, rfl⟩)
      · simp only [componentsOf, HashMap.getD_insert, beq_iff_eq]
        split
        · next he' =>
          subst he'
          rw [HashMap.getD_eq_getD_getElem?, ← HashMap.get?_eq_getElem?, hcs, Option.getD_some,
            List.map_set]
          by_cases hlt : i < cs.length
          · have hlt' : i < (cs.map Component.kind).length := by simpa using hlt
            calc (cs.map Component.kind).set i c.kind
                = (cs.map Component.kind).set i (cs.map Component.kind)[i] := by
                  rw [List.getElem_map, hkind hlt]
              _ = cs.map Component.kind := List.set_getElem_self hlt'
          · rw [List.set_eq_of_length_le (by simpa using Nat.le_of_not_lt hlt)]
        · rfl
      · simp only [HashMap.getElem?_insert, beq_iff_eq] at he
        split at he
        · next he' => subst he'; simp [← HashMap.get?_eq_getElem?, hcs]
        · exact he
    · exact h
  · exact h

theorem infect (h : w.Records) (owner : EntityId) (a : Ailment) : (w.infect owner a).2.Records := by
  unfold World.infect
  split
  · next hown =>
    refine h.of_ground ⟨rfl, rfl, rfl, rfl⟩ (fun _ => rfl) (fun _ he => he) (fun e he => ?_)
      (fun _ i hie => ⟨i, hie, rfl, rfl⟩)
    simp only [HashMap.getElem?_insert, beq_iff_eq] at he
    split at he
    · next he' =>
      subst he'
      exact .inr (by rw [thing?_eq, TreeMap.isSome_getElem?_eq_contains]; exact hown)
    · exact .inl he
  · exact h

theorem relate (h : w.Records) (a b : EntityId) (k : RelationKind) : (w.relate a b k).Records :=
  h.of_same (sameGround_relate w a b k) rfl rfl rfl

theorem unrelate (h : w.Records) (a b : EntityId) : (w.unrelate a b).Records :=
  h.of_same ⟨rfl, rfl, rfl, rfl⟩ rfl rfl rfl

theorem restrictWork (h : w.Records) (e : EntityId) (ks : List WorkKind) :
    (w.restrictWork e ks).Records :=
  h.of_same (sameGround_restrictWork w e ks) rfl rfl rfl

theorem liftWorkRestrictions (h : w.Records) (e : EntityId) : (w.liftWorkRestrictions e).Records :=
  h.of_same (sameGround_liftWorkRestrictions w e) rfl rfl rfl

theorem affiliate (h : w.Records) (e : EntityId) (tag : Affiliation) (f : EntityId) :
    (w.affiliate e tag f).Records :=
  h.of_same (sameGround_affiliate w e tag f) rfl rfl rfl

theorem endAffiliation (h : w.Records) (e : EntityId) (tag : Affiliation) :
    (w.endAffiliation e tag).Records :=
  h.of_same (sameGround_endAffiliation w e tag) rfl rfl rfl

theorem restrictArea (h : w.Records) (e : EntityId) (a : Option Area) :
    (w.restrictArea e a).Records := by
  unfold World.restrictArea
  split
  · exact h.of_same ⟨rfl, rfl, rfl, rfl⟩ rfl rfl rfl
  · exact h.of_same ⟨rfl, rfl, rfl, rfl⟩ rfl rfl rfl

theorem forget (h : w.Records) (e : EntityId) : (w.forget e).Records := by
  -- a record left is one of `w` under another id
  have hthing : ∀ e' t, (w.forget e).thing? e' = some t → e' ≠ e ∧ w.thing? e' = some t := by
    intro e' t ht
    rw [thing?_forget] at ht
    split at ht
    · cases ht
    · exact ⟨‹_›, ht⟩
  have hlive : ∀ e', e' ≠ e → (w.thing? e').isSome → ((w.forget e).thing? e').isSome := by
    intro e' hne hs
    rwa [thing?_forget, if_neg hne]
  have hinj : ∀ (e' : EntityId) (i : Injury), (w.forget e).injuries[e']? = some i →
      w.injuries[e']? = some i ∧ i.owner ≠ e := by
    intro e' i hie
    rw [injuries_forget, Option.filter_eq_some_iff] at hie
    exact ⟨hie.1, by simpa using hie.2⟩
  refine ⟨fun e' t ht => ?_, fun e' t ht => ?_, fun e' t ht => ?_, fun e' t ht => ?_,
    fun e' hce => ?_, fun e' hae => ?_, fun e' i hie => ?_, fun e' i hie => ?_, fun e' i hie => ?_,
    fun e' hte => ?_⟩
  · exact h.thingKey e' t (hthing e' t ht).2
  · exact h.thingBelow e' t (hthing e' t ht).2
  · exact h.onMap e' t (hthing e' t ht).2
  · obtain ⟨hne, hwt⟩ := hthing e' t ht
    rw [componentsOf_eq, components_forget, if_neg hne, ← componentsOf_eq]
    exact h.kinds e' t hwt
  · rw [components_forget] at hce
    split at hce
    · cases hce
    · exact hlive e' ‹_› (h.components e' hce)
  · rw [ailments_forget] at hae
    split at hae
    · cases hae
    · exact hlive e' ‹_› (h.ailments e' hae)
  · exact h.injuryKey e' i (hinj e' i hie).1
  · exact h.injuryBelow e' i (hinj e' i hie).1
  · obtain ⟨hie', hown⟩ := hinj e' i hie
    exact hlive _ hown (h.owner e' i hie')
  · obtain ⟨hne, hwt⟩ := hthing e' _ (Option.some_get hte).symm
    rw [injuries_forget, h.apart e' (by rw [hwt]; rfl), Option.filter_none]

theorem despawn (h : w.Records) (e : EntityId) : (w.despawn e).2.Records := by
  unfold World.despawn
  split
  · exact h.forget e
  · exact h

theorem foldl_forget (h : w.Records) (ts : List Thing) :
    (ts.foldl (fun w t => w.forget t.id) w).Records := by
  induction ts generalizing w with
  | nil => exact h
  | cons t ts ih => exact ih (h.forget t.id)

theorem spawn (h : w.Records) (hroom : w.lastEntity.toNat + 1 < Nat.pow 2 32) (m : MapId)
    (k : ThingKind) (c : Cell) : (w.spawn m k c).2.Records := by
  rcases spawn_cases w m k c with h0 | ⟨g, hg, hc, -⟩
  · rw [h0]; exact h
  obtain ⟨hlast, -, hinjs, hails, hthing, hcomps⟩ := spawn_tables w hg hc
  obtain ⟨hnext, hfresh, hinj, hcomp⟩ := h.fresh hroom
  have hmap : (w.spawn m k c).2.map? = w.map? := by
    funext m'
    rw [World.map?, World.map?, (spawn_tables w hg hc).2.1]
  -- a thing of the old world keeps its number, which is not the new one
  have hold : ∀ e, (w.thing? e).isSome → e ≠ ⟨w.lastEntity + 1⟩ := by
    rintro e hs rfl
    rw [hfresh] at hs
    cases hs
  refine ⟨fun e t ht => ?_, fun e t ht => ?_, fun e t ht => ?_, fun e t ht => ?_,
    fun e hce => ?_, fun e hae => ?_, fun e i hie => ?_, fun e i hie => ?_,
    fun e i hie => ?_, fun e hte => ?_⟩
  · rw [hthing] at ht
    split at ht
    · next he => cases ht; exact he.symm
    · exact h.thingKey e t ht
  · rw [hthing] at ht
    rw [hlast, hnext]
    split at ht
    · next he => exact Nat.le_of_eq (by rw [he, hnext])
    · have := h.thingBelow e t ht
      omega
  · rw [hthing] at ht
    rw [hmap]
    split at ht
    · cases ht; rw [hg]; rfl
    · exact h.onMap e t ht
  · rw [hthing] at ht
    rw [componentsOf_eq, hcomps]
    split at ht
    · next he =>
      cases ht
      split
      · rfl
      · next hk =>
        simp only [not_and, Bool.not_eq_false] at hk
        rw [he, hcomp, List.isEmpty_iff.mp (hk he)]
        rfl
    · next he =>
      rw [if_neg fun h' => he h'.1, ← componentsOf_eq]
      exact h.kinds e t ht
  · rw [hthing]
    rw [hcomps] at hce
    split
    · rfl
    · next he =>
      rw [if_neg fun h' => he h'.1] at hce
      exact h.components e hce
  · rw [hthing]
    rw [hails] at hae
    split
    · rfl
    · exact h.ailments e hae
  · rw [hinjs] at hie
    exact h.injuryKey e i hie
  · rw [hinjs] at hie
    rw [hlast, hnext]
    have := h.injuryBelow e i hie
    omega
  · rw [hinjs] at hie
    rw [hthing]
    split
    · rfl
    · exact h.owner e i hie
  · rw [hthing] at hte
    rw [hinjs]
    split at hte
    · next he => rw [he]; exact hinj
    · exact h.apart e hte

theorem addInjury (h : w.Records) (hroom : w.lastEntity.toNat + 1 < Nat.pow 2 32)
    (owner : EntityId) (severity : Float32) : (w.addInjury owner severity).2.Records := by
  by_cases hown : w.things.contains owner
  · -- the injury goes under the next number of the counter, which no record holds
    obtain ⟨hnext, hfresh, hinj, -⟩ := h.fresh hroom
    rw [addInjury_eq w hown]
    refine ⟨h.thingKey, fun e t ht => ?_, h.onMap, h.kinds, h.components, h.ailments,
      fun e i hie => ?_, fun e i hie => ?_, fun e i hie => ?_, fun e hte => ?_⟩
    · show _ ≤ (w.lastEntity + 1).toNat
      have := h.thingBelow e t ht
      omega
    · change (w.injuries.insert _ _)[e]? = _ at hie
      rw [getElem?_insert_id] at hie
      split at hie
      · next he => cases hie; exact he.symm
      · exact h.injuryKey e i hie
    · change (w.injuries.insert _ _)[e]? = _ at hie
      rw [getElem?_insert_id] at hie
      show _ ≤ (w.lastEntity + 1).toNat
      split at hie
      · next he => exact Nat.le_of_eq (by rw [he])
      · have := h.injuryBelow e i hie
        omega
    · change (w.injuries.insert _ _)[e]? = _ at hie
      rw [getElem?_insert_id] at hie
      split at hie
      · cases hie
        show (w.things[owner]?).isSome = true
        rw [TreeMap.isSome_getElem?_eq_contains]
        exact hown
      · exact h.owner e i hie
    · -- no thing holds the new injury's id
      change (w.injuries.insert _ _)[e]? = _
      rw [getElem?_insert_id, if_neg]
      · exact h.apart e hte
      · rintro rfl
        have hs : (w.thing? ⟨w.lastEntity + 1⟩).isSome := hte
        rw [hfresh] at hs
        cases hs
  · simp only [World.addInjury, hown]
    exact h

theorem removeMap (h : w.Records) (m : MapId) : (w.removeMap m).2.Records := by
  unfold World.removeMap
  split
  · -- forgetting the things does not look at the maps
    have hmaps : ∀ (ts : List Thing) (w : World) (X : TreeMap MapId MapGrid compare),
        ts.foldl (fun w t => w.forget t.id) { w with maps := X } =
          { ts.foldl (fun w t => w.forget t.id) w with maps := X } := by
      intro ts
      induction ts with
      | nil => intro w X; rfl
      | cons t ts ih => intro w X; exact ih (w.forget t.id) X
    dsimp only
    rw [hmaps]
    have h₁ := h.foldl_forget (w.thingsOn m)
    -- a thing left is one of `w` that is not on `m`
    have hleft : ∀ e t, (List.foldl (fun w t => w.forget t.id) w (w.thingsOn m)).thing? e = some t →
        w.thing? e = some t ∧ t.map ≠ m := by
      intro e t ht
      rw [thing?_foldl_forget] at ht
      split at ht
      · cases ht
      · next hany =>
        refine ⟨ht, fun hm => hany ?_⟩
        rw [List.any_eq_true]
        exact ⟨t, (mem_thingsOn w).mpr ⟨e, ht, hm⟩, by simp [h.thingKey e t ht]⟩
    refine ⟨h₁.thingKey, h₁.thingBelow, fun e t ht => ?_, h₁.kinds, h₁.components, h₁.ailments,
      h₁.injuryKey, h₁.injuryBelow, h₁.owner, h₁.apart⟩
    obtain ⟨hwt, hne⟩ := hleft e t ht
    show ((w.maps.erase m).get? t.map).isSome = true
    have := h.onMap e t hwt
    simp only [World.map?, TreeMap.get?_eq_getElem?] at this
    simpa [TreeMap.get?_eq_getElem?, TreeMap.getElem?_erase, Std.compare_eq_iff_eq, Ne.symm hne]
      using this
  · exact h

theorem apply (h : w.Records) (op : Op) (hroom : w.lastEntity.toNat + w.issued op < Nat.pow 2 32) :
    (w.apply op).Records := by
  cases op with
  | addMap width height size => exact h.addMap width height size
  | setRegionsEnabled m b => exact h.setRegionsEnabled m b
  | removeMap m => exact h.removeMap m
  -- only a spawn that succeeds and a wound on a live thing take an id of the counter
  | spawn m k c =>
    rcases spawn_cases w m k c with h0 | ⟨-, -, -, h1, -⟩
    · show (w.spawn m k c).2.Records
      rw [h0]
      exact h
    · have hissued : w.issued (.spawn m k c) = 1 := by simp [issued, h1]
      exact h.spawn (by omega) m k c
  | despawn e => exact h.despawn e
  | moveTo e c => exact h.moveTo e c
  | addInjury owner severity =>
    by_cases hown : w.things.contains owner
    · have hissued : w.issued (.addInjury owner severity) = 1 := by
        simp [issued, World.addInjury, hown]
      exact h.addInjury (by omega) owner severity
    · show (w.addInjury owner severity).2.Records
      simp only [World.addInjury, hown]
      exact h
  | heal e => exact h.heal e
  | ageInjuries ticks => exact h.ageInjuries ticks
  | relate a b k => exact h.relate a b k
  | unrelate a b => exact h.unrelate a b
  | restrictWork e ks => exact h.restrictWork e ks
  | liftWorkRestrictions e => exact h.liftWorkRestrictions e
  | affiliate e tag f => exact h.affiliate e tag f
  | endAffiliation e tag => exact h.endAffiliation e tag
  | setComponent e c => exact h.setComponent e c
  | infect owner a => exact h.infect owner a
  | restrictArea e a => exact h.restrictArea e a

end Records

theorem Built.records {w : World} {n k : Nat} (hw : w.Built n k) (hn : n < Nat.pow 2 32) :
    w.Records := by
  induction hw with
  | empty => exact Records.empty
  | @step w n k op hw ih =>
    have hn' : n < Nat.pow 2 32 := by omega
    refine (ih hn').apply op ?_
    rw [hw.lastEntity_toNat hn']
    exact hn

end World

end ColonyCache
