import ColonyCache.Proofs.Simulation.Tracking
/-! One churn of a map keeps the thing caches of the session tracking the world, rule by rule. -/
namespace ColonyCache

namespace World

variable {w w' : World}

theorem SameGround.regionOf (hg : w.SameGround w') : w'.regionOf = w.regionOf := by
  funext t
  rw [regionOf_eq, regionOf_eq, hg.thing?, regionAt_congr hg.maps]

theorem spawn_fst {m : MapId} {k : ThingKind} {c : Cell} {t : Thing}
    (h : (w.spawn m k c).1 = some t) : t = ⟨⟨w.lastEntity + 1⟩, k, m, c⟩ := by
  rcases spawn_cases w m k c with h0 | ⟨-, -, -, h1, -⟩
  · rw [h0] at h; cases h
  · rw [h1] at h; cases h; rfl

theorem lastMap_spawn (m : MapId) (k : ThingKind) (c : Cell) :
    (w.spawn m k c).2.lastMap = w.lastMap := by
  rcases spawn_cases w m k c with h0 | ⟨-, -, -, -, -, -, -, h1⟩
  · rw [h0]
  · exact h1

theorem maps_spawn (m : MapId) (k : ThingKind) (c : Cell) : (w.spawn m k c).2.maps = w.maps := by
  rcases spawn_cases w m k c with h0 | ⟨-, -, -, -, -, h1, -⟩
  · rw [h0]
  · exact h1

theorem lastMap_moveTo (e : EntityId) (c : Cell) : (w.moveTo e c).2.lastMap = w.lastMap := by
  rcases moveTo_cases w e c with h0 | ⟨-, -, -, -, -, -, -, -, -, h1⟩
  · rw [h0]
  · exact h1

theorem maps_moveTo (e : EntityId) (c : Cell) : (w.moveTo e c).2.maps = w.maps := by
  rcases moveTo_cases w e c with h0 | ⟨_, _, -, -, -, -, -, h1, -⟩
  · rw [h0]
  · exact h1

theorem ne_of_thing? {e e' : EntityId} {t : Thing} (h : w.thing? e = some t)
    (h' : w.thing? e' = none) : e ≠ e' := by
  rintro rfl
  rw [h] at h'
  cases h'

theorem thing?_spawn_of_ne {m : MapId} {k : ThingKind} {c : Cell} {e : EntityId}
    (hne : e ≠ ⟨w.lastEntity + 1⟩) : (w.spawn m k c).2.thing? e = w.thing? e := by
  rcases spawn_cases w m k c with h0 | ⟨-, -, -, -, h1, -⟩
  · rw [h0]
  · rw [h1, if_neg hne]

theorem thing?_moveTo_of_ne {e e' : EntityId} {c : Cell} (hne : e' ≠ e) :
    (w.moveTo e c).2.thing? e' = w.thing? e' := by
  rcases moveTo_cases w e c with h0 | ⟨_, _, -, -, -, -, h1, -⟩
  · rw [h0]
  · rw [h1, if_neg hne]

end World

theorem ThingKind.tended_kind {k : ThingKind} (h : (k.isTurret || k.isAnimal) = true) :
    (k == .item) = false ∧ k.isPlant = false := by
  cases k <;> simp_all [ThingKind.isTurret, ThingKind.isAnimal, ThingKind.isPlant]

namespace Simulation

open World

theorem spawnScattered_eq (sim : Simulation) (m : MapId) (k : ThingKind) (seed : UInt64) :
    sim.spawnScattered m k seed = ((sim.world.spawn m k (scatterCell seed)).1,
      { sim with world := (sim.world.spawn m k (scatterCell seed)).2 }) := rfl

theorem Settled.thing?_of_mem {w : World} {maps : List MapId} {room : Nat}
    (h : Settled w maps room) {m : MapId} {t : Thing} (ht : t ∈ w.thingsOn m) :
    w.thing? t.id = some t := by
  obtain ⟨e, he, -⟩ := (World.mem_thingsOn w).mp ht
  rw [h.key e t he]
  exact he

theorem Settled.id_ne {w : World} {maps : List MapId} {room : Nat} (h : Settled w maps room)
    {p : ThingKind → Bool} {m m' : MapId} {i t : Thing} (hi : i ∈ w.thingsOn m)
    (ht : t ∈ w.thingsOn m') (hpi : p i.kind = true) (hpt : p t.kind = false) : i.id ≠ t.id := by
  intro he
  have hrec := h.thing?_of_mem hi
  rw [he, h.thing?_of_mem ht, Option.some.injEq] at hrec
  subst hrec
  rw [hpi] at hpt
  cases hpt

theorem mem_of_choose {α : Type} {seed : UInt64} {xs : List α} {x : α}
    (h : choose seed xs = some x) : x ∈ xs := by
  unfold choose at h
  split at h
  · cases h
  · exact List.mem_of_getElem? h

/-- A settled world with room `room` in the thing counter, tracked by the session. -/
structure Steady (sim : Simulation) (room : Nat) : Prop where
  settled : Settled sim.world sim.maps room
  tracks : sim.session.Tracks sim.world sim.maps

theorem Steady.mono {sim : Simulation} {room room' : Nat} (h : sim.Steady room)
    (hr : room' ≤ room) : sim.Steady room' :=
  ⟨h.settled.mono hr, h.tracks⟩

/-- A step of a churn that hands out at most `used` ids, keeps the maps and the tick, and keeps
a steady simulation steady. -/
structure Rule (sim sim' : Simulation) (used : Nat) : Prop where
  maps : sim'.maps = sim.maps
  tick : sim'.tick = sim.tick
  lastMap : sim'.world.lastMap = sim.world.lastMap
  grids : sim'.world.maps = sim.world.maps
  steady : ∀ room, sim.Steady (room + used) → sim'.Steady room

namespace Rule

theorem refl (sim : Simulation) : Rule sim sim 0 := ⟨rfl, rfl, rfl, rfl, fun _ h => h⟩

theorem trans {sim₁ sim₂ sim₃ : Simulation} {a b : Nat} (h₁ : Rule sim₁ sim₂ a)
    (h₂ : Rule sim₂ sim₃ b) : Rule sim₁ sim₃ (a + b) where
  maps := h₂.maps.trans h₁.maps
  tick := h₂.tick.trans h₁.tick
  lastMap := h₂.lastMap.trans h₁.lastMap
  grids := h₂.grids.trans h₁.grids
  steady room h := h₂.steady room (h₁.steady (room + b) (by rwa [Nat.add_assoc, Nat.add_comm b]))

theorem mono {sim sim' : Simulation} {a b : Nat} (h : Rule sim sim' a) (hab : a ≤ b) :
    Rule sim sim' b :=
  { h with steady := fun room hs => h.steady room (hs.mono (by omega)) }

theorem then0 {sim₁ sim₂ sim₃ : Simulation} {a : Nat} (h₁ : Rule sim₁ sim₂ a)
    (h₂ : Rule sim₂ sim₃ 0) : Rule sim₁ sim₃ a := h₁.trans h₂

theorem after0 {sim₁ sim₂ sim₃ : Simulation} {a : Nat} (h₁ : Rule sim₁ sim₂ 0)
    (h₂ : Rule sim₂ sim₃ a) : Rule sim₁ sim₃ a := by
  simpa using h₁.trans h₂

theorem ite {sim sim' : Simulation} {c : Prop} [Decidable c] {a : Nat} (h : Rule sim sim' a) :
    Rule sim (if c then sim' else sim) a := by
  split
  · exact h
  · exact (refl sim).mono (Nat.zero_le a)

theorem thenIte {sim mid sim' : Simulation} {c : Prop} [Decidable c] {a : Nat}
    (h : Rule sim mid a) (hf : Rule mid sim' 0) : Rule sim (if c then sim' else mid) a :=
  h.then0 (ite hf)

theorem of_ground {sim sim' : Simulation} (hg : sim.world.SameGround sim'.world)
    (hm : sim'.maps = sim.maps) (ht : sim'.tick = sim.tick) (hb : sim'.session.bus = sim.session.bus)
    (hr : sim'.session.regionCaches = sim.session.regionCaches)
    (hmc : sim'.session.mapCaches = sim.session.mapCaches) : Rule sim sim' 0 where
  maps := hm
  tick := ht
  lastMap := hg.lastMap
  grids := hg.maps
  steady room h := by
    rw [Nat.add_zero] at h
    refine ⟨?_, ?_⟩
    · rw [hm]; exact h.settled.sameGround hg
    · rw [hm]; exact h.tracks.frame hg.thing? hg.maps hb hr hmc

end Rule

/-! ## The rules -/

theorem rule_carryItem (sim : Simulation) (m : MapId) (seed : UInt64) :
    Rule sim (sim.carryItem ((sim.world.thingsOn m).filter (·.kind == .item)) seed) 0 := by
  unfold carryItem
  split
  · exact Rule.refl sim
  · next t ht =>
    obtain ⟨hon, hk⟩ := List.mem_filter.mp (mem_of_choose ht)
    have hlast := lastMap_moveTo (w := sim.world) t.id (scatterCell (seed ^^^ 1))
    have hgrid := maps_moveTo (w := sim.world) t.id (scatterCell (seed ^^^ 1))
    rcases hmv : sim.world.moveTo t.id (scatterCell (seed ^^^ 1)) with ⟨moved, w⟩
    rw [hmv] at hlast hgrid
    cases moved with
    | false =>
      -- a failed move leaves the world as it was
      rcases World.moveTo_cases sim.world t.id (scatterCell (seed ^^^ 1)) with h0 | h1
      · rw [hmv] at h0
        cases h0
        exact Rule.refl _
      · obtain ⟨-, -, -, -, -, h1, -⟩ := h1
        rw [hmv] at h1
        cases h1
    | true =>
      refine ⟨rfl, rfl, hlast, hgrid, fun room hs => ?_⟩
      rw [Nat.add_zero] at hs
      -- the carried thing is the item as the churn saw it
      have hitem : ∀ t', sim.world.thing? t.id = some t' → t'.kind = .item := fun t' h' => by
        rw [hs.settled.thing?_of_mem hon] at h'
        cases h'
        simpa using hk
      have h1 : (sim.world.moveTo t.id (scatterCell (seed ^^^ 1))).1 = true := by rw [hmv]
      have htr := hs.tracks.moveTo hs.settled h1 hitem
      have hset := hs.settled.moveTo t.id (scatterCell (seed ^^^ 1))
      rw [hmv] at htr hset
      exact ⟨hset, htr⟩

theorem rule_makeItem (sim : Simulation) {m : MapId} (hm : m ∈ sim.maps) (seed : UInt64) :
    Rule sim (sim.makeItem m seed) 1 := by
  unfold makeItem
  rw [spawnScattered_eq]
  have hlast := lastMap_spawn (w := sim.world) m .item (scatterCell (seed ^^^ 2))
  have hgrid := maps_spawn (w := sim.world) m .item (scatterCell (seed ^^^ 2))
  rcases hsp : sim.world.spawn m .item (scatterCell (seed ^^^ 2)) with ⟨t, w⟩
  rw [hsp] at hlast hgrid
  cases t with
  | none =>
    refine ⟨rfl, rfl, hlast, hgrid, fun room hs => ?_⟩
    have hset := hs.settled.spawn m .item (scatterCell (seed ^^^ 2))
    have htr := hs.tracks.spawn_none
      (show (sim.world.spawn m .item (scatterCell (seed ^^^ 2))).1 = none by rw [hsp])
    rw [hsp] at hset htr
    exact ⟨hset, htr⟩
  | some item =>
    dsimp only
    have hitem := spawn_fst (show (sim.world.spawn m .item (scatterCell (seed ^^^ 2))).1 = some item
      by rw [hsp])
    -- the quality is set on the world the spawn made, which keeps its things and maps
    have hg := sameGround_setComponent w item.id
      (.quality ((choose (seed ^^^ 9) qualities).getD .poor))
    refine ⟨rfl, rfl, hg.lastMap.trans hlast, hg.maps.trans hgrid, fun room hs => ?_⟩
    have hset := hs.settled.spawn m .item (scatterCell (seed ^^^ 2))
    rw [hsp] at hset
    refine ⟨hset.sameGround hg, ?_⟩
    have hc := hs.tracks.coherent
    have hreg := hc.regionRegistered (n := haulableItems) (by simp)
    have hrc := Session.regionCache_withRegionCache hreg false
      (fun c => c.add (w.setComponent item.id
        (.quality ((choose (seed ^^^ 9) qualities).getD .poor))).2.regionOf item)
    have hc' : (sim.session.addHaulable (w.setComponent item.id
        (.quality ((choose (seed ^^^ 9) qualities).getD .poor))).2 item).2.Coherent :=
      hc.withRegionCache _ _ fun c hc => hc.add _ item
    have htr := hs.tracks.spawn hs.settled (show (sim.world.spawn m .item _).1 = some item
      by rw [hsp]) hc' ?_ ?_ (fun _ => rfl)
    · rw [hsp] at htr
      exact htr.sameGround hg
    · rw [Session.addHaulable, hrc, if_pos rfl, hg.regionOf, hsp, if_pos ⟨by rw [hitem]; rfl, hm⟩]
    · rw [Session.addHaulable, hrc, if_neg (by decide), if_neg (by rw [hitem]; simp [harvestable])]

theorem rule_storeItem (sim : Simulation) (items : List Thing) : Rule sim (sim.storeItem items) 0 := by
  unfold storeItem
  split
  · next t _ =>
    split
    · refine ⟨rfl, rfl, lastMap_despawn _ _, maps_despawn _ _, fun room hs => ?_⟩
      exact ⟨hs.settled.despawn t.id, hs.tracks.spatialItemRemoved t.id⟩
    · exact Rule.refl sim
  · exact Rule.refl sim

theorem rule_harvested (sim : Simulation) (e : EntityId) :
    Rule sim ({ (sim.tell fun s => s.completeHarvest e) with
      world := ((sim.tell fun s => s.completeHarvest e).world.despawn e).2 }.tell fun s =>
        s.spatialItemRemoved e) 0 :=
  ⟨rfl, rfl, lastMap_despawn _ _, maps_despawn _ _,
    fun _ hs => ⟨hs.settled.despawn e, hs.tracks.harvested e⟩⟩

theorem rule_sprout (sim : Simulation) {m : MapId} (hm : m ∈ sim.maps) {k : ThingKind}
    (hk : k ≠ .item) (seed : UInt64) :
    Rule sim (match sim.spawnScattered m k seed with
      | (some sprout, sim) => sim.tell fun s => (s.markHarvestable sim.world sprout).2
      | (none, sim) => sim) 1 := by
  rw [spawnScattered_eq]
  have hlast := lastMap_spawn (w := sim.world) m k (scatterCell seed)
  have hgrid := maps_spawn (w := sim.world) m k (scatterCell seed)
  rcases hsp : sim.world.spawn m k (scatterCell seed) with ⟨t, w⟩
  rw [hsp] at hlast hgrid
  cases t with
  | none =>
    refine ⟨rfl, rfl, hlast, hgrid, fun room hs => ?_⟩
    have hset := hs.settled.spawn m k (scatterCell seed)
    have htr := hs.tracks.spawn_none
      (show (sim.world.spawn m k (scatterCell seed)).1 = none by rw [hsp])
    rw [hsp] at hset htr
    exact ⟨hset, htr⟩
  | some sprout =>
    dsimp only
    have ht := spawn_fst (show (sim.world.spawn m k (scatterCell seed)).1 = some sprout by rw [hsp])
    refine ⟨rfl, rfl, hlast, hgrid, fun room hs => ?_⟩
    have hset := hs.settled.spawn m k (scatterCell seed)
    rw [hsp] at hset
    refine ⟨hset, ?_⟩
    have hc := hs.tracks.coherent
    have hreg := hc.regionRegistered (n := harvestablePlants) (by simp)
    have hrc := Session.regionCache_withRegionCache hreg false (fun c => c.markHarvestable w sprout)
    have hc' : (sim.session.markHarvestable w sprout).2.Coherent :=
      hc.withRegionCache _ _ fun c hc => RegionThings.Inv.markHarvestable hc w sprout
    have hmaps := maps_spawn (w := sim.world) m k (scatterCell seed)
    rw [hsp] at hmaps
    have htr := hs.tracks.spawn hs.settled (show (sim.world.spawn m k _).1 = some sprout
      by rw [hsp]) hc' ?_ ?_ (fun _ => rfl)
    · rw [hsp] at htr
      exact htr
    · -- hauling takes no plant
      rw [Session.markHarvestable, hrc, if_neg (by decide),
        if_neg fun hq => hk (by rw [ht] at hq; simpa using hq.1)]
    · -- harvest files the sprout exactly when it is harvestable, and its map is in play
      rw [Session.markHarvestable, hrc, if_pos rfl, RegionThings.markHarvestable_eq, hsp,
        harvestable_congr hmaps]
      by_cases hh : sim.world.harvestable sprout = true
      · rw [if_pos hh, if_pos ⟨hh, hm⟩]
      · rw [if_neg hh, if_neg fun hq => hh hq.1]

theorem rule_cutPlant (sim : Simulation) {m : MapId} (hm : m ∈ sim.maps) (plants : List Thing)
    (seed : UInt64) : Rule sim (sim.cutPlant m plants seed) 1 := by
  unfold cutPlant
  split
  · next cut _ =>
    split
    · dsimp only
      refine ((rule_harvested sim cut.id).trans (rule_sprout _ ?_ ?_ (seed ^^^ 5))).mono
        (Nat.le_of_eq (Nat.zero_add 1))
      · exact hm
      · simp
    · exact (Rule.refl sim).mono (Nat.zero_le 1)
  · exact (Rule.refl sim).mono (Nat.zero_le 1)

section Folds

variable {w : World} {maps : List MapId}

theorem tracks_foldl_unmarkRefuelable {s : Session} (h : s.Tracks w maps) (ts : List Thing) :
    (ts.foldl (fun s t => s.unmarkRefuelable t) s).Tracks w maps := by
  induction ts generalizing s with
  | nil => exact h
  | cons t ts ih => exact ih (h.unmarkRefuelable t)

theorem tracks_foldl_removeAnimal {s : Session} (h : s.Tracks w maps) (ts : List Thing) :
    (ts.foldl (fun s t => s.removeAnimal t.id) s).Tracks w maps := by
  induction ts generalizing s with
  | nil => exact h
  | cons t ts ih => exact ih (h.removeAnimal t.id)

theorem tracks_foldl_markRefuelable {s : Session} (h : s.Tracks w maps) (ts : List Thing)
    (hts : ∀ t ∈ ts, w.thing? t.id = some t ∧ (t.kind = .turret ∨ t.kind = .generator) ∧
      t.map ∈ maps) :
    (ts.foldl (fun s t => (s.markRefuelable t).2) s).Tracks w maps := by
  induction ts generalizing s with
  | nil => exact h
  | cons t ts ih =>
    obtain ⟨ht, hk, hm⟩ := hts t (List.mem_cons_self ..)
    exact ih (h.markRefuelable ht hk hm) fun t' ht' => hts t' (List.mem_cons_of_mem t ht')

theorem tracks_foldl_markAnimal {s : Session} (h : s.Tracks w maps) (ts : List Thing)
    (hts : ∀ t ∈ ts, w.thing? t.id = some t ∧ t.map ∈ maps) :
    (ts.foldl (fun s t => (s.markAnimal t).2) s).Tracks w maps := by
  induction ts generalizing s with
  | nil => exact h
  | cons t ts ih =>
    obtain ⟨ht, hm⟩ := hts t (List.mem_cons_self ..)
    exact ih (h.markAnimal ht hm) fun t' ht' => hts t' (List.mem_cons_of_mem t ht')

end Folds

theorem Rule.of_session {sim : Simulation} {f : Session → Session}
    (hf : sim.session.Tracks sim.world sim.maps → (f sim.session).Tracks sim.world sim.maps) :
    Rule sim (sim.tell f) 0 :=
  ⟨rfl, rfl, rfl, rfl, fun _ hs => ⟨hs.settled, hf hs.tracks⟩⟩

theorem rule_refuelTurrets (sim : Simulation) (m : MapId) (things : List Thing)
    (hthings : ∀ t ∈ things, t.kind.isTurret = true →
      sim.world.thing? t.id = some t ∧ t.map ∈ sim.maps) :
    Rule sim (sim.refuelTurrets m things) 0 := by
  unfold refuelTurrets
  split
  · exact Rule.of_session fun h => tracks_foldl_unmarkRefuelable h _
  · refine Rule.of_session fun h => tracks_foldl_markRefuelable h _ fun t ht => ?_
    obtain ⟨hmem, hk⟩ := List.mem_filter.mp ht
    obtain ⟨hthing, hm⟩ := hthings t hmem hk
    refine ⟨hthing, .inl ?_, hm⟩
    revert hk
    cases t.kind <;> simp [ThingKind.isTurret]
  · exact Rule.refl sim

theorem rule_tendAnimals (sim : Simulation) (m : MapId) (things : List Thing)
    (hthings : ∀ t ∈ things, t.kind.isAnimal = true →
      sim.world.thing? t.id = some t ∧ t.map ∈ sim.maps) :
    Rule sim (sim.tendAnimals m things) 0 := by
  unfold tendAnimals
  split
  · exact Rule.of_session fun h => tracks_foldl_removeAnimal h _
  · refine Rule.of_session fun h => tracks_foldl_markAnimal h _ fun t ht => ?_
    obtain ⟨hmem, hk⟩ := List.mem_filter.mp ht
    exact hthings t hmem hk
  · exact Rule.refl sim

theorem rule_switchBuilding (sim : Simulation) (things : List Thing) (seed : UInt64) :
    Rule sim (sim.switchBuilding things seed) 0 := by
  unfold switchBuilding
  split
  · next b _ =>
    split
    · -- breaking down and switching touch only the building's components
      exact Rule.of_ground ((sameGround_setComponent _ _ _).trans (sameGround_setComponent _ _ _))
        rfl rfl rfl rfl rfl
    · exact Rule.refl sim
  · exact Rule.refl sim

theorem rule_infectColonist (sim : Simulation) (colonists : List Thing) (seed : UInt64) :
    Rule sim (sim.infectColonist colonists seed) 0 := by
  unfold infectColonist
  split
  · split
    · exact Rule.of_ground (sameGround_infect _ _ _) rfl rfl rfl rfl rfl
    · exact Rule.refl sim
  · exact Rule.refl sim

theorem rule_hurtColonist (sim : Simulation) (colonists : List Thing) (seed : UInt64) :
    Rule sim (sim.hurtColonist colonists seed) 1 := by
  unfold hurtColonist
  split
  · next c _ =>
    split
    · refine ⟨rfl, rfl, (World.addInjury_ground _ _ _).2.2.1, (World.addInjury_ground _ _ _).2.1,
        fun room hs => ?_⟩
      exact ⟨hs.settled.addInjury _ _, hs.tracks.addInjury _ _⟩
    · exact (Rule.refl sim).mono (Nat.zero_le 1)
  · exact (Rule.refl sim).mono (Nat.zero_le 1)

theorem rule_healColonist (sim : Simulation) (colonists : List Thing) :
    Rule sim (sim.healColonist colonists) 0 := by
  unfold healColonist
  split
  · split
    · split
      · exact Rule.of_ground (sameGround_heal _ _) rfl rfl rfl rfl rfl
      · exact Rule.refl sim
    · exact Rule.refl sim
  · exact Rule.refl sim

theorem rule_left (sim : Simulation) (e : EntityId) :
    Rule sim ({ sim with world := (sim.world.despawn e).2 }.tell fun s => s.entityRemoved e) 0 :=
  ⟨rfl, rfl, lastMap_despawn _ _, maps_despawn _ _,
    fun _ hs => ⟨hs.settled.despawn e, hs.tracks.entityRemoved e⟩⟩

theorem rule_replaceColonist (sim : Simulation) (m : MapId) (leader last : Thing)
    (seed : UInt64) : Rule sim (sim.replaceColonist m leader last seed) 1 := by
  unfold replaceColonist
  dsimp only
  refine (rule_left sim last.id).after0 ?_
  rw [spawnScattered_eq]
  generalize ({ sim with world := (sim.world.despawn last.id).2 }.tell fun s =>
    s.entityRemoved last.id) = sim₁
  have hlast := lastMap_spawn (w := sim₁.world) m .colonist (scatterCell (seed ^^^ 8))
  have hgrid := maps_spawn (w := sim₁.world) m .colonist (scatterCell (seed ^^^ 8))
  rcases hsp : sim₁.world.spawn m .colonist (scatterCell (seed ^^^ 8)) with ⟨t, w⟩
  rw [hsp] at hlast hgrid
  cases t with
  | none =>
    refine ⟨rfl, rfl, hlast, hgrid, fun room hs => ?_⟩
    have hset := hs.settled.spawn m .colonist (scatterCell (seed ^^^ 8))
    have htr := hs.tracks.spawn_none
      (show (sim₁.world.spawn m .colonist (scatterCell (seed ^^^ 8))).1 = none by rw [hsp])
    rw [hsp] at hset htr
    exact ⟨hset, htr⟩
  | some n =>
    dsimp only
    have hn := spawn_fst (show (sim₁.world.spawn m .colonist _).1 = some n by rw [hsp])
    have hg := sameGround_relate w n.id leader.id .friend
    refine ⟨rfl, rfl, hg.lastMap.trans hlast, hg.maps.trans hgrid, fun room hs => ?_⟩
    have hset := hs.settled.spawn m .colonist (scatterCell (seed ^^^ 8))
    rw [hsp] at hset
    refine ⟨hset.sameGround hg, ?_⟩
    -- a colonist is neither hauled nor harvested, so the newcomer is filed nowhere
    have htr := hs.tracks.spawn hs.settled (show (sim₁.world.spawn m .colonist _).1 = some n
      by rw [hsp]) hs.tracks.coherent (by rw [hn, if_neg fun hq => Bool.false_ne_true hq.1])
      (by rw [hn, if_neg (by simp [harvestable])]) fun _ => rfl
    rw [hsp] at htr
    exact (htr.sameGround hg).tell rfl rfl rfl

theorem rule_endStay (sim : Simulation) (c : Thing) : Rule sim (sim.endStay c) 0 := by
  unfold endStay
  split
  · exact Rule.of_ground (sameGround_endAffiliation _ _ _) rfl rfl rfl rfl rfl
  · exact Rule.refl sim

theorem rule_shuffleColonists (sim : Simulation) (m : MapId) (colonists : List Thing)
    (seed : UInt64) : Rule sim (sim.shuffleColonists m colonists seed) 1 := by
  unfold shuffleColonists
  split
  · next leader second third rest =>
    dsimp only
    generalize hI : (if sim.tick % 25 == 0 then sim.replaceColonist m leader
      ((leader :: second :: third :: rest).getLast?.getD leader) seed else sim) = sim₁
    have r₁ : Rule sim sim₁ 1 := by
      rw [← hI]
      exact Rule.ite (rule_replaceColonist _ _ _ _ _)
    refine Rule.thenIte (Rule.then0 r₁ ?_)
      (Rule.of_ground (sameGround_liftWorkRestrictions _ _) rfl rfl rfl rfl rfl)
    · split
      · exact (rule_endStay _ leader).trans (rule_endStay _ second)
      · exact Rule.of_ground (sameGround_affiliate _ _ _ _) rfl rfl rfl rfl rfl
      · exact Rule.refl _
  · exact (Rule.refl sim).mono (Nat.zero_le 1)

/-! ## Records the early rules keep: they touch only what the churn saw, and new ids -/

section Records

variable {e : EntityId} {t : Thing}

theorem thing?_carryItem (sim : Simulation) {items : List Thing} (seed : UInt64)
    (h : sim.world.thing? e = some t) (he : ∀ i ∈ items, i.id ≠ e) :
    (sim.carryItem items seed).world.thing? e = some t := by
  unfold carryItem
  split
  · exact h
  · next i hi =>
    have hne := thing?_moveTo_of_ne (w := sim.world) (c := scatterCell (seed ^^^ 1))
      (he i (mem_of_choose hi)).symm
    rcases hmv : sim.world.moveTo i.id (scatterCell (seed ^^^ 1)) with ⟨moved, w⟩
    rw [hmv] at hne
    cases moved <;> exact hne.trans h

theorem thing?_makeItem (sim : Simulation) (m : MapId) (seed : UInt64)
    (hfresh : sim.world.thing? ⟨sim.world.lastEntity + 1⟩ = none)
    (h : sim.world.thing? e = some t) : (sim.makeItem m seed).world.thing? e = some t := by
  have hsp := thing?_spawn_of_ne (m := m) (k := .item) (c := scatterCell (seed ^^^ 2))
    (ne_of_thing? h hfresh)
  unfold makeItem
  rw [spawnScattered_eq]
  rcases hs : sim.world.spawn m .item (scatterCell (seed ^^^ 2)) with ⟨i, w⟩
  rw [hs] at hsp
  cases i with
  | none => exact hsp.trans h
  | some i => exact ((sameGround_setComponent w i.id _).thing? _ e).trans (hsp.trans h)

theorem thing?_storeItem (sim : Simulation) {items : List Thing} (h : sim.world.thing? e = some t)
    (he : ∀ i ∈ items, i.id ≠ e) : (sim.storeItem items).world.thing? e = some t := by
  unfold storeItem
  split
  · next i hi =>
    split
    · simpa [tell, (he i (List.mem_of_mem_head? hi)).symm] using h
    · exact h
  · exact h

theorem thing?_sprout (sim : Simulation) {m : MapId} {k : ThingKind} {seed : UInt64}
    (hne : e ≠ ⟨sim.world.lastEntity + 1⟩) :
    (match sim.spawnScattered m k seed with
      | (some sprout, sim) => sim.tell fun s => (s.markHarvestable sim.world sprout).2
      | (none, sim) => sim).world.thing? e = sim.world.thing? e := by
  rw [spawnScattered_eq]
  have h := thing?_spawn_of_ne (w := sim.world) (m := m) (k := k) (c := scatterCell seed) hne
  rcases hsp : sim.world.spawn m k (scatterCell seed) with ⟨s, w⟩
  rw [hsp] at h
  cases s <;> exact h

theorem thing?_cutPlant (sim : Simulation) (m : MapId) {plants : List Thing} (seed : UInt64)
    (hfresh : sim.world.thing? ⟨sim.world.lastEntity + 1⟩ = none)
    (h : sim.world.thing? e = some t) (he : ∀ c ∈ plants, c.id ≠ e) :
    (sim.cutPlant m plants seed).world.thing? e = some t := by
  unfold cutPlant
  split
  · next c hc =>
    split
    · -- the cut leaves the thing counter where it was, so the sprout's id is still new
      refine (thing?_sprout _ (by simpa [tell] using ne_of_thing? h hfresh)).trans ?_
      simpa [tell, (he c (mem_of_choose hc)).symm] using h
    · exact h
  · exact h

end Records

theorem refuelTurrets_tells (sim : Simulation) (m : MapId) (things : List Thing) :
    ∃ f, sim.refuelTurrets m things = sim.tell f := by
  unfold refuelTurrets
  split
  · exact ⟨_, rfl⟩
  · exact ⟨_, rfl⟩
  · exact ⟨id, rfl⟩

theorem tendAnimals_tells (sim : Simulation) (m : MapId) (things : List Thing) :
    ∃ f, sim.tendAnimals m things = sim.tell f := by
  unfold tendAnimals
  split
  · exact ⟨_, rfl⟩
  · exact ⟨_, rfl⟩
  · exact ⟨id, rfl⟩

theorem tend_tells (sim : Simulation) (m : MapId) (things : List Thing) :
    ∃ f, (sim.refuelTurrets m things).tendAnimals m things = sim.tell f := by
  obtain ⟨f, hf⟩ := refuelTurrets_tells sim m things
  obtain ⟨g, hg⟩ := tendAnimals_tells (sim.tell f) m things
  exact ⟨g ∘ f, by rw [hf, hg]; rfl⟩

theorem rule_tend (sim : Simulation) (m : MapId) (things : List Thing)
    (hthings : ∀ t ∈ things, (t.kind.isTurret || t.kind.isAnimal) = true →
      sim.world.thing? t.id = some t ∧ t.map ∈ sim.maps) :
    Rule sim ((sim.refuelTurrets m things).tendAnimals m things) 0 := by
  obtain ⟨f, hf⟩ := refuelTurrets_tells sim m things
  refine (rule_refuelTurrets sim m things fun t ht hk => hthings t ht (by simp [hk])).then0
    (rule_tendAnimals _ m things fun t ht hk => ?_)
  -- refuelling leaves the world and the maps as they were
  rw [hf]
  exact hthings t ht (by simp [hk])

/-- The churn up to the tending hands out at most two ids; the tending files only turrets and
animals the earlier rules left standing. -/
theorem rule_churnTend (sim : Simulation) {m : MapId} (hm : m ∈ sim.maps) (seed : UInt64) :
    let things := sim.world.thingsOn m
    let items := things.filter (·.kind == .item)
    let plants := things.filter (·.kind.isPlant)
    Rule sim ((((((sim.carryItem items seed).makeItem m seed).storeItem items).cutPlant m plants
      seed).refuelTurrets m things).tendAnimals m things) 2 := by
  intro things items plants
  -- the rules before the tending
  have r₁ := rule_carryItem sim m seed
  set sim₁ := sim.carryItem items seed
  have hm₁ : m ∈ sim₁.maps := by rw [r₁.maps]; exact hm
  have r₂ := rule_makeItem sim₁ hm₁ seed
  set sim₂ := sim₁.makeItem m seed
  have r₃ := rule_storeItem sim₂ items
  set sim₃ := sim₂.storeItem items
  have r₄ := rule_cutPlant sim₃ (by rw [r₃.maps, r₂.maps]; exact hm₁) plants seed
  set sim₄ := sim₃.cutPlant m plants seed
  have a : Rule sim sim₄ 2 := r₁.after0 (r₂.trans (r₃.after0 r₄))
  -- the tending is a rule once what it tends still stands, which the steady start shows
  obtain ⟨f, hf⟩ := tend_tells sim₄ m things
  refine ⟨?_, ?_, ?_, ?_, fun room hs => ?_⟩
  all_goals rw [hf]
  · exact a.maps
  · exact a.tick
  · exact a.lastMap
  · exact a.grids
  rw [← hf]
  refine (rule_tend sim₄ m things fun t ht hk => ?_).steady room (a.steady room hs)
  have hs₁ := r₁.steady (room + 2) hs
  have hs₃ := r₃.steady (room + 1) (r₂.steady (room + 1) hs₁)
  obtain ⟨hitem, hplant⟩ := ThingKind.tended_kind hk
  -- the items and plants the early rules touch are other things than `t`
  have hi : ∀ i ∈ items, i.id ≠ t.id := fun i hi =>
    hs.settled.id_ne (p := (· == .item)) (List.mem_filter.mp hi).1 ht (List.mem_filter.mp hi).2 hitem
  have hp : ∀ c ∈ plants, c.id ≠ t.id := fun c hc =>
    hs.settled.id_ne (p := ThingKind.isPlant) (List.mem_filter.mp hc).1 ht
      (List.mem_filter.mp hc).2 hplant
  have h₁ := thing?_carryItem sim seed (hs.settled.thing?_of_mem ht) hi
  have h₃ := thing?_storeItem sim₂ (thing?_makeItem sim₁ m seed hs₁.settled.fresh h₁) hi
  refine ⟨thing?_cutPlant sim₃ m seed hs₃.settled.fresh h₃ hp, ?_⟩
  obtain ⟨-, -, htm⟩ := (mem_thingsOn _).mp ht
  rw [a.maps, htm]
  exact hm

/-- The churn of a map in play is a rule handing out at most four ids. -/
theorem rule_churnMap (sim : Simulation) {m : MapId} (hm : m ∈ sim.maps) (seed : UInt64) :
    Rule sim (sim.churnMap m seed) 4 := by
  unfold churnMap
  dsimp only
  exact (rule_churnTend sim hm seed).trans ((rule_switchBuilding _ _ _).after0
    ((rule_infectColonist _ _ _).after0 ((rule_hurtColonist _ _ _).trans
      ((rule_healColonist _ _).after0 (rule_shuffleColonists _ _ _ _)))))

end Simulation

end ColonyCache
