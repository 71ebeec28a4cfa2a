import ColonyCache.Proofs.World.Keeping
import ColonyCache.Proofs.Caches.Components
import ColonyCache.Proofs.Caches.Bleeding
import ColonyCache.Proofs.Session.Events
/-! When the caches that remember facts about things agree with the world: `Session.Fresh L w s`,
kept by every world change that spares the remembered ids and by every event. -/
namespace ColonyCache

open Std

/-! ### Caches all of whose entries hold -/

theorem HashMap.getElem?_of_foldl_erase {κ β γ : Type} [BEq κ] [LawfulBEq κ] [Hashable κ]
    (f : γ → κ) (xs : List γ) (v : HashMap κ β) {k : κ} {b : β}
    (h : (xs.foldl (fun m x => m.erase (f x)) v)[k]? = some b) : v[k]? = some b := by
  induction xs generalizing v with
  | nil => exact h
  | cons x xs ih =>
    have h' := ih (v.erase (f x)) h
    rw [HashMap.getElem?_erase] at h'
    split at h'
    · cases h'
    · exact h'

namespace EntityCache

variable {α : Type} {P Q : EntityId → α → Prop} {c : EntityCache α}

/-- Every value kept satisfies `P` with the thing it is kept for. -/
def All (P : EntityId → α → Prop) (c : EntityCache α) : Prop :=
  ∀ e v, c.get? e = some v → P e v

theorem all_empty (P : EntityId → α → Prop) : ({} : EntityCache α).All P := by
  intro e v h
  change (({} : HashMap EntityId α).get? e) = some v at h
  simp at h

theorem All.mono (h : c.All P) (hPQ : ∀ e v, P e v → Q e v) : c.All Q :=
  fun e v hv => hPQ e v (h e v hv)

theorem All.remove (h : c.All P) (e : EntityId) : (c.remove e).2.All P := by
  intro e' v hv
  rw [get?_remove, Function.update_apply] at hv
  split at hv
  · cases hv
  · exact h e' v hv

theorem All.getOrInsert (h : c.All P) {e : EntityId} {x : α} (hv : ∀ v, P e v → v = x)
    (hc : P e x) :
    (c.getOrInsert e fun _ => x).1 = x ∧ (c.getOrInsert e fun _ => x).2.All P := by
  unfold EntityCache.getOrInsert
  cases hk : c.values.get? e with
  | some v => exact ⟨hv v (h e v hk), h⟩
  | none =>
    refine ⟨rfl, fun e' v' hv' => ?_⟩
    change (c.values.insert e x).get? e' = some v' at hv'
    rw [HashMap.get?_eq_getElem?, HashMap.getElem?_insert] at hv'
    split at hv'
    · next he =>
      cases hv'
      rw [beq_iff_eq] at he
      subst he
      exact hc
    · exact h e' v' (by rw [get?, HashMap.get?_eq_getElem?]; exact hv')

end EntityCache

namespace TaggedCache

variable {τ α : Type} [BEq τ] [Hashable τ] {P Q : EntityId → τ → α → Prop}
  {c : TaggedCache τ α}

/-- Every value kept satisfies `P` with the thing and the tag it is kept for. -/
def All (P : EntityId → τ → α → Prop) (c : TaggedCache τ α) : Prop :=
  ∀ e t v, c.get? e t = some v → P e t v

theorem all_empty (P : EntityId → τ → α → Prop) : ({} : TaggedCache τ α).All P := by
  intro e t v h
  change (({} : HashMap (EntityId × τ) α).get? (e, t)) = some v at h
  simp at h

theorem All.mono (h : c.All P) (hPQ : ∀ e t v, P e t v → Q e t v) : c.All Q :=
  fun e t v hv => hPQ e t v (h e t v hv)

theorem All.removeEntries [LawfulBEq τ] (h : c.All P) (t : τ) (es : List EntityId) :
    (c.removeEntries t es).All P := by
  intro e' t' v hv
  rw [get?, HashMap.get?_eq_getElem?] at hv
  exact h e' t' v (by
    rw [get?, HashMap.get?_eq_getElem?]
    exact HashMap.getElem?_of_foldl_erase (fun e => (e, t)) es c.values hv)

theorem All.removeEntity [LawfulBEq τ] [TagSet τ] (h : c.All P) (e : EntityId) :
    (c.removeEntity e).All P := by
  intro e' t' v hv
  rw [get?, HashMap.get?_eq_getElem?] at hv
  exact h e' t' v (by
    rw [get?, HashMap.get?_eq_getElem?]
    exact HashMap.getElem?_of_foldl_erase (fun t => (e, t)) TagSet.all c.values hv)

theorem All.getOrInsert [LawfulBEq τ] (h : c.All P) {e : EntityId} {t : τ} {x : α}
    (hv : ∀ v, P e t v → v = x) (hc : P e t x) :
    (c.getOrInsert e t fun _ => x).1 = x ∧ (c.getOrInsert e t fun _ => x).2.All P := by
  unfold TaggedCache.getOrInsert
  cases hk : c.values.get? (e, t) with
  | some v => exact ⟨hv v (h e t v hk), h⟩
  | none =>
    refine ⟨rfl, fun e' t' v' hv' => ?_⟩
    change (c.values.insert (e, t) x).get? (e', t') = some v' at hv'
    rw [HashMap.get?_eq_getElem?, HashMap.getElem?_insert] at hv'
    split at hv'
    · next he =>
      cases hv'
      rw [beq_iff_eq, Prod.mk.injEq] at he
      obtain ⟨rfl, rfl⟩ := he
      exact hc
    · exact h e' t' v' (by rw [get?, HashMap.get?_eq_getElem?]; exact hv')

end TaggedCache

namespace ArenaCache

variable {α β : Type} [DecidableEq α] [Hashable α] {P Q : α → β → Prop} {c : ArenaCache α β}

/-- A well-formed bounded cache every entry of which satisfies `P`. -/
structure All (P : α → β → Prop) (c : ArenaCache α β) : Prop where
  valid : c.Valid
  entries : ∀ k v, (k, v) ∈ c.toList → P k v

theorem all_new (P : α → β → Prop) (capacity : Nat) : (new capacity : ArenaCache α β).All P :=
  ⟨Valid.new capacity, fun k v h => by rw [Valid.toList_new] at h; cases h⟩

theorem All.mono (h : c.All P) (hPQ : ∀ k v, P k v → Q k v) : c.All Q :=
  ⟨h.valid, fun k v hv => hPQ k v (h.entries k v hv)⟩

theorem All.get (h : c.All P) (k : α) :
    (∀ v, (c.get k).1 = some v → P k v) ∧ (c.get k).2.All P := by
  obtain ⟨hi, -, he⟩ := get_spec h.valid k
  have hl : (c.get k).2.toList = (RecencyList.get c.toList k).2 := congrArg Prod.snd he
  have hr : (c.get k).1 = c.toList.lookup k := by
    rw [congrArg Prod.fst he]
    cases hk : c.toList.lookup k <;> simp [RecencyList.get, hk]
  refine ⟨fun v hv => ?_, hi, fun k' v' hv' => ?_⟩
  · rw [hr] at hv
    exact h.entries k v (RecencyList.mem_of_lookup_eq_some hv)
  · rw [hl] at hv'
    exact h.entries k' v' (RecencyList.mem_of_mem_get hv')

theorem All.put (h : c.All P) {k : α} {v : β} (hkv : P k v) : (c.put k v).2.All P := by
  obtain ⟨hi, -, he⟩ := put_spec h.valid k v
  have hl : (c.put k v).2.toList = (RecencyList.put c.capacity c.toList k v).2 :=
    congrArg Prod.snd he
  refine ⟨hi, fun k' v' hv' => ?_⟩
  rw [hl] at hv'
  rcases RecencyList.mem_of_mem_put hv' with hkv' | hv'
  · obtain ⟨rfl, rfl⟩ := Prod.mk.inj hkv'
    exact hkv
  · exact h.entries k' v' hv'

theorem All.remove (h : c.All P) (k : α) : (c.remove k).2.All P := by
  obtain ⟨hi, -, he⟩ := remove_spec h.valid k
  have hl : (c.remove k).2.toList = (RecencyList.remove c.toList k).2 := congrArg Prod.snd he
  refine ⟨hi, fun k' v' hv' => ?_⟩
  rw [hl] at hv'
  exact h.entries k' v' (RecencyList.mem_of_mem_drop hv')

end ArenaCache

/-! ### Kept component slots read only the things, their components and the counter -/

theorem ComponentSlots.Valid.congr {c : ComponentSlots} {k : ComponentKind} {w w' : World}
    (hc : c.Valid k w) (ht : w'.things = w.things) (hcomp : w'.components = w.components)
    (hn : w'.lastEntity = w.lastEntity) : c.Valid k w' := by
  have hthing : w'.thing? = w.thing? := by
    funext e
    rw [World.thing?, World.thing?, ht]
  have hfind : w'.findComponent = w.findComponent := by
    funext e k
    rw [World.findComponent, World.findComponent, hcomp]
  exact ⟨hc.kind, fun e slot h => by rw [hthing, hfind, hn]; exact hc.slot e slot h⟩

theorem ComponentService.Valid.congr {s : ComponentService} {w w' : World} (hs : s.Valid w)
    (ht : w'.things = w.things) (hcomp : w'.components = w.components)
    (hn : w'.lastEntity = w.lastEntity) : s.Valid w' :=
  ⟨hs.quality.congr ht hcomp hn, hs.powerSwitch.congr ht hcomp hn,
    hs.schedule.congr ht hcomp hn, hs.breakdown.congr ht hcomp hn⟩

/-! ### Fresh sessions -/

namespace Session

def memory (s : Session) : RelationsCache × BleedingCache × EntityCache (List WorkKind) ×
    TaggedCache Affiliation (Option EntityId) × ComponentService × EntityCache (Option Area) ×
    ImmunizableSet :=
  (s.relations, s.bleeding, s.workRestrictions, s.affiliations, s.components,
    s.areaRestrictions, s.immunizable)

/-- Every fact `s` keeps is about a thing numbered up to `L`, at most the counter of `w`, and is
what `w` says while that thing lives. -/
structure Fresh (L : Nat) (w : World) (s : Session) : Prop where
  le : L ≤ w.lastEntity.toNat
  work : s.workRestrictions.All fun e v =>
    e.val.toNat ≤ L ∧ ((w.thing? e).isSome → v = w.disabledWork e)
  affiliations : s.affiliations.All fun e t v =>
    e.val.toNat ≤ L ∧ ((w.thing? e).isSome → v = w.affiliation e t)
  areas : s.areaRestrictions.All fun e v =>
    e.val.toNat ≤ L ∧ ((w.thing? e).isSome → v = w.effectiveAreaRestriction e)
  bleeding : s.bleeding.ages.All fun e v =>
    e.val.toNat ≤ L ∧ ∀ i, w.injuries[e]? = some i → v = stopBleedingAge i.severity
  relations : s.relations.pairs.All fun k rs =>
    k.subject.val.toNat ≤ L ∧ k.related.val.toNat ≤ L ∧
      ((w.thing? k.subject).isSome → (w.thing? k.related).isSome →
        rs = w.relationsBetween k.subject k.related)
  components : s.components.Valid w
  immunizable : s.immunizable = ImmunizableSet.known

variable {L : Nat} {w w' : World} {s s' : Session}

theorem fresh_new (config : Config) (g : Nat) (w : World) :
    (Session.new config g).Fresh 0 w where
  le := Nat.zero_le _
  work := EntityCache.all_empty _
  affiliations := TaggedCache.all_empty _
  areas := EntityCache.all_empty _
  bleeding := ArenaCache.all_new _ _
  relations := ArenaCache.all_new _ _
  components := ComponentService.valid_empty w
  immunizable := rfl

namespace Fresh

theorem of_memory (h : s.Fresh L w) (hm : s'.memory = s.memory) : s'.Fresh L w := by
  simp only [memory, Prod.mk.injEq] at hm
  obtain ⟨hr, hb, hw, ha, hc, har, hi⟩ := hm
  exact ⟨h.le, hw ▸ h.work, ha ▸ h.affiliations, har ▸ h.areas, hb ▸ h.bleeding,
    hr ▸ h.relations, hc ▸ h.components, hi ▸ h.immunizable⟩

theorem mono (h : s.Fresh L w) {L' : Nat} (hL : L ≤ L') (hL' : L' ≤ w.lastEntity.toNat) :
    s.Fresh L' w where
  le := hL'
  work := h.work.mono fun _ _ hv => ⟨Nat.le_trans hv.1 hL, hv.2⟩
  affiliations := h.affiliations.mono fun _ _ _ hv => ⟨Nat.le_trans hv.1 hL, hv.2⟩
  areas := h.areas.mono fun _ _ hv => ⟨Nat.le_trans hv.1 hL, hv.2⟩
  bleeding := h.bleeding.mono fun _ _ hv => ⟨Nat.le_trans hv.1 hL, hv.2⟩
  relations := h.relations.mono fun _ _ hv =>
    ⟨Nat.le_trans hv.1 hL, Nat.le_trans hv.2.1 hL, hv.2.2⟩
  components := h.components
  immunizable := h.immunizable

theorem keeps (h : s.Fresh L w) (hk : w.Keeps L w') (hc : s.components.Valid w') :
    s.Fresh L w' where
  le := Nat.le_trans h.le hk.counter
  work := h.work.mono fun e _ hv => ⟨hv.1, fun he => by
    rw [hv.2 (hk.alive e hv.1 he), hk.work e hv.1 he]⟩
  affiliations := h.affiliations.mono fun e t _ hv => ⟨hv.1, fun he => by
    rw [hv.2 (hk.alive e hv.1 he), hk.affiliation e t hv.1 he]⟩
  areas := h.areas.mono fun e _ hv => ⟨hv.1, fun he => by
    rw [hv.2 (hk.alive e hv.1 he), hk.area e hv.1 he]⟩
  bleeding := h.bleeding.mono fun e _ hv => ⟨hv.1, fun i hi => by
    obtain ⟨j, hj, hs⟩ := hk.severity e i hv.1 hi
    rw [hv.2 j hj, hs]⟩
  relations := h.relations.mono fun k _ hv => ⟨hv.1, hv.2.1, fun ha hb => by
    rw [hv.2.2 (hk.alive _ hv.1 ha) (hk.alive _ hv.2.1 hb),
      hk.relations _ _ hv.1 hv.2.1 ha hb]⟩
  components := hc
  immunizable := h.immunizable

theorem apply (h : s.Fresh L w) (hr : w.Records) (op : World.Op) (hop : op.Spares L)
    (hroom : w.lastEntity.toNat + w.issued op < Nat.pow 2 32) : s.Fresh L (w.apply op) :=
  h.keeps (World.keeps_apply op hop h.le hroom) (h.components.apply hr (hr.apply op hroom) hroom)

theorem hear (h : s.Fresh L w) (l : Listener) (ev : Event) : (s.hear l ev).Fresh L w := by
  unfold Session.hear
  split
  · exact h.of_memory rfl
  · exact h.of_memory rfl
  · exact h.of_memory rfl
  · exact h.of_memory rfl
  · exact { h with components := h.components.forget _ }
  · exact h.of_memory rfl
  · exact { h with work := h.work.remove _ }
  · exact { h with affiliations := h.affiliations.removeEntity _ }
  · exact h.of_memory rfl
  · exact { h with areas := h.areas.remove _ }
  · exact { h with areas := EntityCache.all_empty _ }
  · exact h.of_memory rfl
  · exact h

theorem notify (h : s.Fresh L w) (ev : Event) : (s.notify ev).Fresh L w := by
  unfold Session.notify EventBus.deliver
  generalize s.bus.listenersOf ev.kind = ls
  induction ls generalizing s with
  | nil => exact h
  | cons l ls ih => exact ih (h.hear l ev)

theorem entityRemoved (h : s.Fresh L w) (e : EntityId) : (s.entityRemoved e).Fresh L w :=
  h.notify _

theorem spatialItemRemoved (h : s.Fresh L w) (e : EntityId) :
    (s.spatialItemRemoved e).Fresh L w :=
  h.notify _

theorem tickStarted (h : s.Fresh L w) : s.tickStarted.Fresh L w := by
  -- counting the tick touches nothing kept; the tick boundary only forgets
  have h' : ({ s with ticks := s.ticks + 1 } : Session).Fresh L w := h.of_memory rfl
  exact h'.notify _

/-! ### The changes paired with forgetting -/

theorem liftWorkRestrictions (h : s.Fresh L w) (e : EntityId) :
    ({ s with workRestrictions := (s.workRestrictions.remove e).2 } : Session).Fresh L
      (w.liftWorkRestrictions e) :=
  { h with
    components := h.components.congr rfl rfl rfl
    work := fun e' v hv => by
      have hv' := (h.work.remove e) e' v hv
      refine ⟨hv'.1, fun he => ?_⟩
      have hne : e' ≠ e := by
        rintro rfl
        rw [EntityCache.get?_remove, Function.update_self] at hv
        cases hv
      rw [hv'.2 he]
      simp only [World.disabledWork, World.liftWorkRestrictions, HashMap.getD_erase, beq_iff_eq,
        if_neg (Ne.symm hne)] }

theorem withAffiliations (h : s.Fresh L w) {A : HashMap (EntityId × Affiliation) EntityId}
    {e : EntityId} {t : Affiliation}
    (hA : ∀ e' t', (e', t') ≠ (e, t) → A[(e', t')]? = w.affiliations[(e', t')]?) :
    ({ s with affiliations := s.affiliations.removeEntries t [e] } : Session).Fresh L
      { w with affiliations := A } :=
  { h with
    components := h.components.congr rfl rfl rfl
    affiliations := fun e' t' v hv => by
      have hv' := (h.affiliations.removeEntries t [e]) e' t' v hv
      refine ⟨hv'.1, fun he => ?_⟩
      have hne : (e', t') ≠ (e, t) := by
        intro heq
        obtain ⟨rfl, rfl⟩ := Prod.mk.inj heq
        change (((s.affiliations.values.erase (e', t')).get? (e', t')) = some v) at hv
        simp at hv
      rw [hv'.2 he]
      simp only [World.affiliation, HashMap.get?_eq_getElem?, hA e' t' hne] }

theorem removeCachedAge (h : s.Fresh L w) (e : EntityId) :
    ({ s with bleeding := s.bleeding.removeCachedAge e } : Session).Fresh L w :=
  { h with bleeding := h.bleeding.remove e }

theorem clearBetween (h : s.Fresh L w) (a b : EntityId) :
    ({ s with relations := s.relations.clearBetween a b } : Session).Fresh L w :=
  { h with relations := (h.relations.remove _).remove _ }

/-! ### What a fresh session answers about a live thing -/

section Answers

variable (h : s.Fresh L w) {e : EntityId} (hL : e.val.toNat ≤ L) (he : (w.thing? e).isSome)
include h hL he

theorem disabledWork :
    (s.workRestrictions.getOrInsert e fun _ => w.disabledWork e).1 = w.disabledWork e ∧
      ({ s with workRestrictions :=
        (s.workRestrictions.getOrInsert e fun _ => w.disabledWork e).2 } : Session).Fresh L w := by
  obtain ⟨hans, hall⟩ := h.work.getOrInsert (fun v hv => hv.2 he) ⟨hL, fun _ => rfl⟩
  exact ⟨hans, { h with work := hall }⟩

theorem affiliation (t : Affiliation) :
    (s.affiliations.getOrInsert e t fun _ => w.affiliation e t).1 = w.affiliation e t ∧
      ({ s with affiliations :=
        (s.affiliations.getOrInsert e t fun _ => w.affiliation e t).2 } : Session).Fresh L w := by
  obtain ⟨hans, hall⟩ := h.affiliations.getOrInsert (fun v hv => hv.2 he) ⟨hL, fun _ => rfl⟩
  exact ⟨hans, { h with affiliations := hall }⟩

theorem effectiveAreaRestriction :
    (s.effectiveAreaRestriction w e).1 = w.effectiveAreaRestriction e ∧
      (s.effectiveAreaRestriction w e).2.Fresh L w := by
  obtain ⟨hans, hall⟩ := h.areas.getOrInsert (fun v hv => hv.2 he) ⟨hL, fun _ => rfl⟩
  exact ⟨hans, { h with areas := hall }⟩

end Answers

theorem isBleeding (h : s.Fresh L w) {i : Injury} (hi : w.injuries[i.id]? = some i)
    (hL : i.id.val.toNat ≤ L) :
    (s.bleeding.isBleeding i).1 = decide (i.ageTicks < stopBleedingAge i.severity) ∧
      ({ s with bleeding := (s.bleeding.isBleeding i).2 } : Session).Fresh L w := by
  obtain ⟨hans, hall⟩ := h.bleeding.get i.id
  unfold BleedingCache.isBleeding
  rcases hg : s.bleeding.ages.get i.id with ⟨r, ages⟩
  rw [hg] at hans hall
  cases r with
  | some stop =>
    -- a kept stop age is the one the severity gives
    have hstop : stop = stopBleedingAge i.severity := (hans stop rfl).2 i hi
    exact ⟨by rw [hstop], { h with bleeding := hall }⟩
  | none =>
    refine ⟨rfl, { h with bleeding := hall.put ⟨hL, fun j hj => ?_⟩ }⟩
    rw [hi] at hj
    cases hj
    rfl

theorem between (h : s.Fresh L w) {a b : EntityId} (ha : (w.thing? a).isSome)
    (hb : (w.thing? b).isSome) :
    (∀ rs, (s.relations.between a b).1 = some rs → rs = w.relationsBetween a b) ∧
      ({ s with relations := (s.relations.between a b).2 } : Session).Fresh L w := by
  obtain ⟨hans, hall⟩ := h.relations.get ⟨a, b⟩
  exact ⟨fun rs hrs => (hans rs hrs).2.2 ha hb, { h with relations := hall }⟩

theorem addBetween (h : s.Fresh L w) {a b : Thing} (ha : a.id.val.toNat ≤ L)
    (hb : b.id.val.toNat ≤ L) :
    ({ s with relations := s.relations.addBetween a b (w.relationsBetween a.id b.id) } :
      Session).Fresh L w := by
  unfold RelationsCache.addBetween
  split
  · exact { h with relations := h.relations.put ⟨ha, hb, fun _ _ => rfl⟩ }
  · exact h

end Fresh

end Session

theorem ImmunizableSet.contains_known (a : Ailment) :
    ImmunizableSet.known.contains a = a.developsImmunity := by
  cases a <;> rfl

end ColonyCache
