import ColonyCache.Proofs.Simulation.Renewal
/-! What a step's report should count, read off the world with every cache bypassed, and the
session facts under which the report counts it. -/

namespace ColonyCache

/-- The counts of a step's report that the world alone decides. -/
structure Census where
  tick : Nat := 0
  things : Nat := 0
  colonists : Nat := 0
  haulables : Nat := 0
  harvestable : Nat := 0
  bleeding : Nat := 0
  haulingDisabled : Nat := 0
  guests : Nat := 0
  relationsKnown : Nat := 0
  immunizableAilments : Nat := 0
  areaRestricted : Nat := 0
  powered : Nat := 0
  fineItems : Nat := 0
deriving DecidableEq, Repr

namespace Census

def add (a b : Census) : Census where
  tick := a.tick + b.tick
  things := a.things + b.things
  colonists := a.colonists + b.colonists
  haulables := a.haulables + b.haulables
  harvestable := a.harvestable + b.harvestable
  bleeding := a.bleeding + b.bleeding
  haulingDisabled := a.haulingDisabled + b.haulingDisabled
  guests := a.guests + b.guests
  relationsKnown := a.relationsKnown + b.relationsKnown
  immunizableAilments := a.immunizableAilments + b.immunizableAilments
  areaRestricted := a.areaRestricted + b.areaRestricted
  powered := a.powered + b.powered
  fineItems := a.fineItems + b.fineItems

instance : Add Census := ⟨add⟩

theorem add_assoc (a b c : Census) : a + b + c = a + (b + c) := by
  show add (add a b) c = add a (add b c)
  simp only [add, Nat.add_assoc]

theorem foldl_add {α : Type} (g : α → Census) (xs : List α) (a b : Census) :
    xs.foldl (fun c x => c + g x) (a + b) = a + xs.foldl (fun c x => c + g x) b := by
  induction xs generalizing b with
  | nil => rfl
  | cons x xs ih => rw [List.foldl_cons, List.foldl_cons, add_assoc, ih]

theorem foldl_seed {α : Type} (g : α → Census) (xs : List α) (a : Census) :
    xs.foldl (fun c x => c + g x) a = a + xs.foldl (fun c x => c + g x) {} := by
  rw [← foldl_add]
  rfl

end Census

/-- The counts of report `r` that the world alone decides. -/
def StepReport.census (r : StepReport) : Census where
  tick := r.tick
  things := r.things
  colonists := r.colonists
  haulables := r.haulables
  harvestable := r.harvestable
  bleeding := r.bleeding
  haulingDisabled := r.haulingDisabled
  guests := r.guests
  relationsKnown := r.relationsKnown
  immunizableAilments := r.immunizableAilments
  areaRestricted := r.areaRestricted
  powered := r.powered
  fineItems := r.fineItems

/-- Whether component `c` is a quality of good or better. -/
def Component.isFine : Component → Bool
  | .quality q => q.isFine
  | _ => false

def Injury.stillBleeds (i : Injury) : Bool := decide (i.ageTicks < stopBleedingAge i.severity)

namespace World

/-- Whether thing `e` carries a quality of good or better, read off its components. -/
def isFine (w : World) (e : EntityId) : Bool := (w.component? e .quality).any Component.isFine

/-- Whether building `e` draws power: switched on, allowed by its schedule, not broken down. -/
def isPowered (w : World) (e : EntityId) : Bool :=
  !(w.component? e .powerSwitch == some (.powerSwitch false) ||
      w.component? e .schedule == some (.schedule false)) &&
    !(w.component? e .breakdown == some (.breakdown true))

def countOn (w : World) (maps : List MapId) (p : Thing → Bool) : Nat :=
  (w.things.values.filter fun t => p t && decide (t.map ∈ maps)).length

/-- What a report counts of thing `t` of a map: a fine item, or a powered turret or generator. -/
def thingCensus (w : World) (t : Thing) : Census where
  fineItems := if t.kind == .item && w.isFine t.id then 1 else 0
  powered := if t.kind.isBuilding && w.isPowered t.id then 1 else 0

/-- What a report counts of colonist `c`: bleeding, work, standing, area and immunities. -/
def colonistCensus (w : World) (c : Thing) : Census where
  bleeding := ((w.injuriesOf c.id).filter Injury.stillBleeds).length
  haulingDisabled := if (w.disabledWork c.id).contains .hauling then 1 else 0
  guests := if (w.affiliation c.id .guest).isSome then 1 else 0
  areaRestricted := if (w.effectiveAreaRestriction c.id).isSome then 1 else 0
  immunizableAilments := ((w.ailmentsOf c.id).filter Ailment.developsImmunity).length

def pairCensus (w : World) (a b : Thing) : Census where
  relationsKnown := (w.relationsBetween a.id b.id).length

/-- What a report counts on map `m`, in the order the map lists its things. -/
def mapCensus (w : World) (m : MapId) : Census :=
  let colonists := (w.thingsOn m).filter (·.kind.isHumanlike)
  let c := (w.thingsOn m).foldl (fun c t => c + w.thingCensus t) { colonists := colonists.length }
  let c := colonists.foldl (fun c x => c + w.colonistCensus x) c
  (Simulation.neighbours colonists).foldl (fun c p => c + w.pairCensus p.1 p.2) c

/-- What the report of a step at `tick` should count, read off the world alone. -/
def census (w : World) (maps : List MapId) (tick : Nat) : Census :=
  maps.foldl (fun c m => c + w.mapCensus m)
    { tick, things := w.thingCount, haulables := w.countOn maps (·.kind == .item),
      harvestable := w.countOn maps w.harvestable }

end World

def Simulation.census (sim : Simulation) : Census := sim.world.census sim.maps sim.tick

/-! ## What the census counts of one thing -/

namespace World

variable {w : World} {t : Thing} {e : EntityId}

theorem thingCensus_of_item (hk : t.kind = .item) :
    w.thingCensus t = { fineItems := if w.isFine t.id then 1 else 0 } := by
  simp [thingCensus, hk, ThingKind.isBuilding]

theorem thingCensus_of_building (hk : t.kind.isBuilding = true) :
    w.thingCensus t = { powered := if w.isPowered t.id then 1 else 0 } := by
  have hi : (t.kind == .item) = false := by
    cases h : t.kind <;> simp_all [ThingKind.isBuilding]
  simp [thingCensus, hk, hi]

theorem thingCensus_of_other (hi : t.kind ≠ .item) (hb : t.kind.isBuilding = false) :
    w.thingCensus t = {} := by
  simp [thingCensus, hi, hb]

theorem isPowered_of_off
    (h : w.component? e .powerSwitch = some (.powerSwitch false) ∨
      w.component? e .schedule = some (.schedule false)) : w.isPowered e = false := by
  rcases h with h | h <;> simp [isPowered, h]

theorem isPowered_of_on
    (h : ¬(w.component? e .powerSwitch = some (.powerSwitch false) ∨
      w.component? e .schedule = some (.schedule false))) :
    w.isPowered e = !(w.component? e .breakdown == some (.breakdown true)) := by
  rw [not_or] at h
  simp [isPowered, h.1, h.2]

theorem Records.mem_injuriesOf (hr : w.Records) {owner : EntityId} {i : Injury}
    (hi : i ∈ w.injuriesOf owner) :
    w.injuries[i.id]? = some i ∧ i.id.val.toNat ≤ w.lastEntity.toNat := by
  obtain ⟨k, hk⟩ := (mem_values_iff _ _).mp (List.mem_filter.mp hi).1
  have hid : i.id = k := hr.injuryKey k i hk
  exact ⟨hid ▸ hk, hid ▸ hr.injuryBelow k i hk⟩

theorem Records.thing?_of_mem_thingsOn (hr : w.Records) {m : MapId} {t : Thing}
    (ht : t ∈ w.thingsOn m) : w.thing? t.id = some t := by
  obtain ⟨e, he, -⟩ := (mem_thingsOn w).mp ht
  exact hr.thingKey e t he ▸ he

end World

/-! ## Counting what the region caches file -/

namespace World

open Std

variable {w : World} {maps : List MapId} {p : Thing → Bool}

theorem ids_values (hkey : ∀ e t, w.thing? e = some t → t.id = e) :
    w.things.values.map (·.id) = w.things.keys := by
  rw [values_eq_map_snd, List.map_map, ← TreeMap.map_fst_toList_eq_keys]
  refine List.map_congr_left fun q hq => ?_
  exact hkey q.1 q.2 (TreeMap.mem_toList_iff_getElem?_eq_some.mp hq)

/-- The ids of the things on `maps` that pass `p`, none twice, and which they are. -/
theorem ids_countOn (maps : List MapId) (p : Thing → Bool)
    (hkey : ∀ e t, w.thing? e = some t → t.id = e) :
    ((w.things.values.filter fun t => p t && decide (t.map ∈ maps)).map (·.id)).Nodup ∧
      ∀ e, e ∈ (w.things.values.filter fun t => p t && decide (t.map ∈ maps)).map (·.id) ↔
        ∃ t, w.thing? e = some t ∧ p t = true ∧ t.map ∈ maps := by
  refine ⟨?_, fun e => ?_⟩
  · have hnd : (w.things.values.map (·.id)).Nodup := by
      rw [ids_values hkey]
      exact TreeMap.nodup_keys
    exact hnd.sublist (List.filter_sublist.map _)
  · simp only [List.mem_map, List.mem_filter, Bool.and_eq_true, decide_eq_true_eq,
      mem_values_iff, thing?_eq]
    constructor
    · rintro ⟨t, ⟨⟨k, hk⟩, hp, hm⟩, rfl⟩
      have he : t.id = k := hkey k t hk
      exact ⟨t, he ▸ hk, hp, hm⟩
    · rintro ⟨t, ht, hp, hm⟩
      exact ⟨t, ⟨⟨e, ht⟩, hp, hm⟩, hkey e t ht⟩

theorem isSome_expectedRegion {e : EntityId} :
    (w.expectedRegion maps p e).isSome ↔
      ∃ t, w.thing? e = some t ∧ p t = true ∧ t.map ∈ maps ∧ (w.regionAt t.map t.cell).isSome := by
  unfold expectedRegion
  cases w.thing? e with
  | none => simp
  | some t =>
    by_cases hq : p t = true ∧ t.map ∈ maps
    · simp [hq]
    · simp only [Option.bind_some, if_neg hq, Option.isSome_none, Bool.false_eq_true, false_iff]
      rintro ⟨t', ht', hp, hm, -⟩
      exact hq ⟨(Option.some.inj ht') ▸ hp, (Option.some.inj ht') ▸ hm⟩

theorem Files.mem_keys {c : RegionThings} (hf : w.Files maps p c) (e : EntityId) :
    e ∈ c.owner.keys ↔ (w.expectedRegion maps p e).isSome := by
  rw [HashMap.mem_keys, HashMap.mem_iff_isSome_getElem?, ← ScopedCache.scopeOf_eq, hf e]

/-- While every thing stands in a region, a region cache that files exactly the things on
`maps` passing `p` files as many as there are. -/
theorem Files.size_eq {c : RegionThings} (hf : w.Files maps p c)
    (hkey : ∀ e t, w.thing? e = some t → t.id = e)
    (hall : ∀ e t, w.thing? e = some t → (w.regionAt t.map t.cell).isSome) :
    c.size = w.countOn maps p := by
  obtain ⟨hnd, hmem⟩ := ids_countOn maps p hkey
  have hperm := (List.perm_ext_iff_of_nodup HashMap.nodup_keys hnd).mpr fun e => by
    rw [hf.mem_keys, isSome_expectedRegion, hmem]
    constructor
    · rintro ⟨t, ht, hp, hm, -⟩
      exact ⟨t, ht, hp, hm⟩
    · rintro ⟨t, ht, hp, hm⟩
      exact ⟨t, ht, hp, hm, hall e t ht⟩
  rw [ScopedCache.size, ← HashMap.length_keys, hperm.length_eq, List.length_map]
  rfl

/-- A thing on `maps` passing `p` that the cache files nowhere is one its count misses. -/
theorem Files.size_lt {c : RegionThings} (hf : w.Files maps p c)
    (hkey : ∀ e t, w.thing? e = some t → t.id = e) {e : EntityId} {t : Thing}
    (ht : w.thing? e = some t) (hp : p t = true) (hm : t.map ∈ maps) (hnone : c.scopeOf e = none) :
    c.size < w.countOn maps p := by
  obtain ⟨-, hmem⟩ := ids_countOn maps p hkey
  have he := (hmem e).mpr ⟨t, ht, hp, hm⟩
  -- the cache's ids are those of the things on `maps` passing `p`, less `e`
  have hsub : c.owner.keys ⊆ ((w.things.values.filter fun t => p t && decide (t.map ∈ maps)).map
      (·.id)).erase e := fun x hx => by
    obtain ⟨t', ht', hp', hm', -⟩ := isSome_expectedRegion.mp ((hf.mem_keys x).mp hx)
    have hne : x ≠ e := by
      rintro rfl
      rw [hf.mem_keys, ← hf x, hnone] at hx
      exact Bool.false_ne_true hx
    exact (List.mem_erase_of_ne hne).mpr ((hmem x).mpr ⟨t', ht', hp', hm'⟩)
  have hle := HashMap.nodup_keys.length_le_of_subset hsub
  rw [List.length_erase_of_mem he, List.length_map] at hle
  have hpos := List.length_pos_of_mem he
  rw [List.length_map] at hpos
  rw [ScopedCache.size, ← HashMap.length_keys]
  unfold countOn
  omega

theorem Files.harvestableCells_length {c : RegionThings} (hf : w.Files maps p c) (hc : c.Inv)
    (g : RegionId) : (c.harvestableCells w g).length = (c.itemsIn g).length := by
  unfold RegionThings.harvestableCells
  rw [List.length_filterMap_eq_countP, List.countP_eq_length]
  intro t ht
  have hs : w.expectedRegion maps p t.id = some g := by
    rw [← hf t.id, ScopedCache.scopeOf_eq]
    exact hc.owner_of_mem ht
  obtain ⟨t', ht', -⟩ := isSome_expectedRegion.mp (by rw [hs]; rfl)
  rw [ht']
  rfl

end World

namespace Session.Fresh

variable {L : Nat} {w : World} {s : Session}

/-- Counting bleeding injuries through a fresh session counts those below their stop age. -/
theorem countBleeding (h : s.Fresh L w) {f : Nat × BleedingCache → Injury → Nat × BleedingCache}
    {is : List Injury} {n₀ n : Nat} {cache : BleedingCache}
    (hB : is.foldl f (n₀, s.bleeding) = (n, cache))
    (hf : ∀ n c i, f (n, c) i = (n + if (c.isBleeding i).1 then 1 else 0, (c.isBleeding i).2))
    (hi : ∀ i ∈ is, w.injuries[i.id]? = some i ∧ i.id.val.toNat ≤ L) :
    n = n₀ + (is.filter Injury.stillBleeds).length ∧ ({ s with bleeding := cache } : Session).Fresh L w := by
  induction is generalizing n₀ s with
  | nil =>
    obtain ⟨rfl, rfl⟩ := Prod.mk.inj hB
    exact ⟨rfl, h⟩
  | cons i is ih =>
    -- the fresh session answers the first injury from its severity, and stays fresh
    rw [List.foldl_cons, hf] at hB
    obtain ⟨hi₁, hi₂⟩ := hi i List.mem_cons_self
    obtain ⟨hans, hfr⟩ := h.isBleeding hi₁ hi₂
    obtain ⟨hn, hs⟩ := ih hfr hB fun j hj => hi j (List.mem_cons_of_mem i hj)
    refine ⟨?_, hs⟩
    rw [hn, hans, List.filter_cons, Injury.stillBleeds]
    split <;> simp; omega

end Session.Fresh

/-! ## Asking a session that answers as the world does -/

namespace Simulation

open World Std

/-- A session answering as world `w` does: fresh for every id, with the world's head counts. -/
structure Asks (w : World) (s : Session) : Prop where
  fresh : s.Fresh w.lastEntity.toNat w
  summaries : ∀ m v, s.mapSummaries.get? m = some v → v = w.summary m

variable {w : World}

theorem foldl_census {α : Type} {f : StepReport × Session → α → StepReport × Session}
    (g : α → Census) {xs : List α}
    (hf : ∀ r s x, x ∈ xs → Asks w s →
      (f (r, s) x).1.census = r.census + g x ∧ Asks w (f (r, s) x).2)
    {r : StepReport} {s : Session} {B : StepReport × Session} (hB : xs.foldl f (r, s) = B)
    (hs : Asks w s) :
    B.1.census = xs.foldl (fun c x => c + g x) r.census ∧ Asks w B.2 := by
  induction xs generalizing r s with
  | nil =>
    subst hB
    exact ⟨rfl, hs⟩
  | cons x xs ih =>
    obtain ⟨h₁, h₂⟩ := hf r s x List.mem_cons_self hs
    rw [List.foldl_cons] at hB
    have h := ih (fun r s y hy => hf r s y (List.mem_cons_of_mem x hy)) hB h₂
    rw [List.foldl_cons, ← h₁]
    exact h

theorem total_eq_sum {α : Type} (xs : List α) (f : α → Nat) : total xs f = (xs.map f).sum := by
  -- the running total from any start adds the sum
  have key : ∀ n, xs.foldl (fun n x => n + f x) n = n + (xs.map f).sum := by
    induction xs with
    | nil => intro n; rfl
    | cons x xs ih =>
      intro n
      rw [List.foldl_cons, ih, List.map_cons, List.sum_cons, Nat.add_assoc]
  exact (key 0).trans (Nat.zero_add _)

theorem summary_colonists (w : World) (m : MapId) :
    (w.summary m).colonists = ((w.thingsOn m).filter (·.kind.isHumanlike)).length := by
  -- the count goes one thing at a time from any start
  have key : ∀ (xs : List Thing) (s : MapSummary),
      (xs.foldl MapSummary.count s).colonists = s.colonists + (xs.filter (·.kind.isHumanlike)).length := by
    intro xs
    induction xs with
    | nil => intro s; rfl
    | cons t xs ih =>
      intro s
      rw [List.foldl_cons, ih, List.filter_cons]
      cases hk : t.kind <;> simp [MapSummary.count, hk, ThingKind.isHumanlike]
      -- what is left is a colonist, counted once
      omega
  exact (key _ {}).trans (Nat.zero_add _)

theorem getOrCompute_summary {c : TickScopedCache MapId MapSummary}
    (hc : ∀ m v, c.get? m = some v → v = w.summary m) (m : MapId) :
    (c.getOrCompute m fun _ => w.summary m).1 = w.summary m ∧
      ∀ m' v, (c.getOrCompute m fun _ => w.summary m).2.get? m' = some v → v = w.summary m' := by
  unfold TickScopedCache.getOrCompute
  cases hv : c.values.get? m with
  | some v => exact ⟨hc m v hv, hc⟩
  | none =>
    refine ⟨rfl, fun m' v h => ?_⟩
    simp only [TickScopedCache.get?, HashMap.get?_eq_getElem?, HashMap.getElem?_insert] at h
    split at h
    · next heq =>
      cases h
      rw [eq_of_beq heq]
    · exact hc m' v h

section Asking

variable {s : Session} (h : Asks w s) (hr : w.Records)
include h hr

theorem Asks.inspect_building {t : Thing} (ht : w.thing? t.id = some t)
    (hk : t.kind.isBuilding = true) (r : StepReport) :
    (inspect w (r, s) t).1.census = r.census + w.thingCensus t ∧ Asks w (inspect w (r, s) t).2 := by
  have he : (w.thing? t.id).isSome := by rw [ht]; rfl
  rw [thingCensus_of_building hk]
  unfold Simulation.inspect
  dsimp only
  split
  · next hi => rw [hi] at hk; cases hk
  rotate_left 2
  · next hi hb _ =>
    cases h : t.kind <;> simp_all [ThingKind.isBuilding]
  -- a turret or a generator: the switch and the schedule, then the breakdown when switched on
  all_goals
    obtain ⟨hon, hv₁⟩ := h.fresh.components.wantsToBeOn hr he
    rcases hw : s.components.wantsToBeOn t.id w with ⟨on, c₁⟩
    rw [hw] at hon hv₁
    obtain ⟨hb, hv₂⟩ := hv₁.isBrokenDown hr he
    rcases hbk : c₁.isBrokenDown t.id w with ⟨broken, c₂⟩
    rw [hbk] at hb hv₂
    dsimp only at hon hv₁ hb hv₂ ⊢
    cases on with
    | false =>
      refine ⟨?_, ⟨{ h.fresh with components := hv₁ }, h.summaries⟩⟩
      rw [isPowered_of_off (hon.mp rfl)]
      rfl
    | true =>
      refine ⟨?_, ⟨{ h.fresh with components := hv₂ }, h.summaries⟩⟩
      rw [isPowered_of_on fun h' => Bool.noConfusion (hon.mpr h'), hb]
      rcases w.component? t.id .breakdown with _ | ⟨q⟩ | ⟨b⟩ | ⟨b⟩ | ⟨b⟩
      all_goals first | rfl | cases b <;> rfl

/-- Asked about a thing of a map, the session counts what the world's components say. -/
theorem Asks.inspect {t : Thing} (ht : w.thing? t.id = some t) (r : StepReport) :
    (inspect w (r, s) t).1.census = r.census + w.thingCensus t ∧ Asks w (inspect w (r, s) t).2 := by
  have he : (w.thing? t.id).isSome := by rw [ht]; rfl
  cases hb : t.kind.isBuilding
  case true => exact h.inspect_building hr ht hb r
  unfold Simulation.inspect
  dsimp only
  split
  · next hk =>
    -- an item: its quality, read from the slot the session keeps or the world's components
    obtain ⟨hq, hq'⟩ := h.fresh.components.qualityOf hr he
    rcases hc : s.components.qualityOf t.id w with ⟨q, c⟩
    rw [hc] at hq hq'
    dsimp only at hq hq' ⊢
    subst hq
    refine ⟨?_, ⟨{ h.fresh with components := hq' }, h.summaries⟩⟩
    rw [thingCensus_of_item hk, World.isFine]
    rcases w.component? t.id .quality with _ | ⟨q⟩ | ⟨b⟩ | ⟨b⟩ | ⟨b⟩ <;> rfl
  · next hk => rw [hk] at hb; cases hb
  · next hk => rw [hk] at hb; cases hb
  · next hi _ _ =>
    refine ⟨?_, h⟩
    rw [thingCensus_of_other hi hb]
    rfl

theorem Asks.examine {c : Thing} (hc : w.thing? c.id = some c) (r : StepReport) :
    (examine w (r, s) c).1.census = r.census + w.colonistCensus c ∧ Asks w (examine w (r, s) c).2 := by
  have he : (w.thing? c.id).isSome := by rw [hc]; rfl
  have hL := hr.thingBelow c.id c hc
  unfold Simulation.examine
  dsimp only
  generalize hB : List.foldl _ (0, s.bleeding) (w.injuriesOf c.id) = B
  obtain ⟨n, cache⟩ := B
  obtain ⟨hn, h₁⟩ := h.fresh.countBleeding hB (fun _ _ _ => rfl) fun i hi => hr.mem_injuriesOf hi
  obtain ⟨hwork, h₂⟩ := h₁.disabledWork hL he
  obtain ⟨hhost, h₃⟩ := h₂.affiliation hL he .guest
  obtain ⟨harea, h₄⟩ := h₃.effectiveAreaRestriction hL he
  dsimp only at hwork hhost harea ⊢
  refine ⟨?_, ⟨h₄, h.summaries⟩⟩
  rw [hwork, hhost, harea, hn, Nat.zero_add]
  -- the ailments that leave immunity are asked of the set the session was made with
  have himm : ∀ s' : Session, (s'.effectiveAreaRestriction w c.id).2.immunizable = s'.immunizable :=
    fun _ => rfl
  rw [himm]
  dsimp only
  rw [h.fresh.immunizable, funext ImmunizableSet.contains_known]
  rfl

theorem Asks.acquaint {a b : Thing} (ha : w.thing? a.id = some a) (hb : w.thing? b.id = some b)
    (r : StepReport) :
    (acquaint w (r, s) (a, b)).1.census = r.census + w.pairCensus a b ∧
      Asks w (acquaint w (r, s) (a, b)).2 := by
  have ha' : (w.thing? a.id).isSome := by rw [ha]; rfl
  have hb' : (w.thing? b.id).isSome := by rw [hb]; rfl
  obtain ⟨hans, h₁⟩ := h.fresh.between ha' hb'
  unfold Simulation.acquaint
  dsimp only
  rcases hk : s.relations.between a.id b.id with ⟨known, cache⟩
  rw [hk] at hans h₁
  dsimp only at hans h₁ ⊢
  cases known with
  | some rs =>
    obtain rfl := hans rs rfl
    exact ⟨rfl, h₁, h.summaries⟩
  | none =>
    -- the world's answer is filed for two things numbered up to the counter
    exact ⟨rfl, h₁.addBetween (hr.thingBelow a.id a ha) (hr.thingBelow b.id b hb), h.summaries⟩

/-- Asked about a map, the session counts what the census of the map counts. -/
theorem Asks.survey (m : MapId) (r : StepReport) :
    (survey w (r, s) m).1.census = r.census + w.mapCensus m ∧ Asks w (survey w (r, s) m).2 := by
  obtain ⟨hsum, hsums⟩ := getOrCompute_summary h.summaries m
  have h₁ : Asks w { s with mapSummaries := (s.mapSummaries.getOrCompute m fun _ => w.summary m).2 } :=
    ⟨h.fresh.of_memory rfl, hsums⟩
  have hthing : ∀ t ∈ w.thingsOn m, w.thing? t.id = some t := fun t ht =>
    hr.thing?_of_mem_thingsOn ht
  have hcol : ∀ t ∈ (w.thingsOn m).filter (·.kind.isHumanlike), w.thing? t.id = some t :=
    fun t ht => hthing t (List.mem_of_mem_filter ht)
  unfold Simulation.survey World.mapCensus
  dsimp only
  rw [hsum, summary_colonists]
  generalize hA : List.foldl (Simulation.inspect w) _ (w.thingsOn m) = A
  obtain ⟨hA₁, hA₂⟩ := foldl_census w.thingCensus (fun r s t ht hs => hs.inspect hr (hthing t ht) r)
    hA h₁
  have hcount : A.1.census = r.census + (w.thingsOn m).foldl (fun c t => c + w.thingCensus t)
      { colonists := ((w.thingsOn m).filter (·.kind.isHumanlike)).length } := by
    rw [hA₁, ← Census.foldl_add]
    rfl
  split
  · next hz =>
    -- no colonists: nothing more is asked, and the census has nothing more to count
    have hnil := List.length_eq_zero_iff.mp (beq_iff_eq.mp hz)
    rw [hnil] at hcount ⊢
    exact ⟨hcount, hA₂⟩
  · generalize hE : List.foldl (Simulation.examine w) A _ = E
    obtain ⟨hE₁, hE₂⟩ := foldl_census w.colonistCensus
      (fun r s c hc hs => hs.examine hr (hcol c hc) r) hE hA₂
    generalize hP : List.foldl (Simulation.acquaint w) E _ = P
    obtain ⟨hP₁, hP₂⟩ := foldl_census (fun p : Thing × Thing => w.pairCensus p.1 p.2)
      (fun r s p hp hs => by
        obtain ⟨ha, hb⟩ := List.of_mem_zip hp
        exact hs.acquaint hr (hcol p.1 ha) (hcol p.2 (List.mem_of_mem_tail hb)) r) hP hE₂
    refine ⟨?_, hP₂⟩
    rw [hP₁, hE₁, hcount, Census.foldl_add, Census.foldl_add]

end Asking

/-- The report counts the census map by map, and the haulables and harvestable plants as the
sizes of the region caches. -/
theorem Asks.report_sizes {sim : Simulation} (h : Asks sim.world sim.session)
    (hr : sim.world.Records) (ht : sim.session.Tracks sim.world sim.maps) :
    sim.report.1.census = sim.maps.foldl (fun c m => c + sim.world.mapCensus m)
      { tick := sim.tick, things := sim.world.thingCount,
        haulables := (sim.session.regionCache haulableItems).size,
        harvestable := (sim.session.regionCache harvestablePlants).size } ∧
      Asks sim.world sim.report.2.session := by
  unfold Simulation.report
  dsimp only
  generalize hS : List.foldl (Simulation.survey sim.world) _ sim.maps = S
  obtain ⟨h₁, h₂⟩ := foldl_census sim.world.mapCensus (fun r s m _ hs => hs.survey hr m r) hS h
  refine ⟨?_, h₂⟩
  -- the region caches count by region what their sizes count by thing
  have hitems : (fun g => ((sim.session.regionCache haulableItems).itemsIn g).length) =
      (sim.session.regionCache haulableItems).scopeSize := rfl
  have hcells : (fun g => ((sim.session.regionCache harvestablePlants).harvestableCells sim.world g).length) =
      (sim.session.regionCache harvestablePlants).scopeSize :=
    funext (ht.harvest.harvestableCells_length (ht.coherent.regionCache_inv _))
  rw [h₁, total_eq_sum, total_eq_sum, hitems, hcells,
    ← (ht.coherent.regionCache_inv _).size_eq_sum, ← (ht.coherent.regionCache_inv _).size_eq_sum]
  rfl

/-- With region caches filing exactly the things they should, the report counts the census. -/
theorem Asks.report_census {sim : Simulation} (h : Asks sim.world sim.session)
    (hr : sim.world.Records) (ht : sim.session.Tracks sim.world sim.maps)
    (hall : ∀ e t, sim.world.thing? e = some t → (sim.world.regionAt t.map t.cell).isSome) :
    sim.report.1.census = sim.census := by
  rw [(h.report_sizes hr ht).1, ht.hauling.size_eq hr.thingKey hall,
    ht.harvest.size_eq hr.thingKey hall]
  rfl

/-- An item on a map in play that the haulable-items cache files nowhere is one the report's
count of haulables misses. -/
theorem Asks.report_haulables_lt {sim : Simulation} (h : Asks sim.world sim.session)
    (hr : sim.world.Records) (ht : sim.session.Tracks sim.world sim.maps) {e : EntityId}
    {t : Thing} (he : sim.world.thing? e = some t) (hk : t.kind = .item) (hm : t.map ∈ sim.maps)
    (hnone : (sim.session.regionCache haulableItems).scopeOf e = none) :
    sim.report.1.haulables < sim.census.haulables := by
  have hlt := ht.hauling.size_lt hr.thingKey he (by rw [hk]; rfl) hm hnone
  have hrep := congrArg Census.haulables (h.report_sizes hr ht).1
  -- both counts add the same maps' counts to their own start
  rw [Census.foldl_seed] at hrep
  unfold Simulation.census World.census
  rw [Census.foldl_seed]
  show sim.report.1.census.haulables < _
  rw [hrep]
  exact Nat.add_lt_add_right hlt _

end Simulation

end ColonyCache
