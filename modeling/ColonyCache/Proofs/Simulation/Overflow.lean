import ColonyCache.Proofs.Simulation.Run

/-! From map `firstOverflowingMap` on no region id fits in 32 bits, so the item the churn makes on
that map in the step that loads it is filed nowhere. -/

namespace ColonyCache

namespace Simulation

open World

theorem onMap_scatterCell (seed : UInt64) : onMap (scatterCell seed) = true := by
  have hcell : ∀ x : UInt64, (x % mapSize.toUInt64).toUInt32 < mapSize := by
    intro x
    have h48 : mapSize.toUInt64.toNat = 48 := rfl
    rw [UInt32.lt_iff_toNat_lt, UInt64.toNat_toUInt32, UInt64.toNat_mod, h48]
    have := Nat.mod_lt x.toNat (show 48 > 0 by decide)
    show _ < 48
    omega
  simp only [onMap, scatterCell, hcell, decide_true, Bool.and_self]

theorem spawn_fst_of_contains {w : World} {m : MapId} {g : MapGrid} (k : ThingKind) {c : Cell}
    (hm : w.map? m = some g) (hc : g.contains c = true) :
    (w.spawn m k c).1 = some ⟨⟨w.lastEntity + 1⟩, k, m, c⟩ := by
  have hm' : w.maps.get? m = some g := hm
  unfold World.spawn
  rw [hm']
  dsimp only
  rw [if_pos hc]

theorem lastEntity_carryItem (sim : Simulation) (items : List Thing) (seed : UInt64) :
    (sim.carryItem items seed).world.lastEntity = sim.world.lastEntity := by
  unfold carryItem
  split
  · rfl
  · next t _ =>
    have hlast : (sim.world.moveTo t.id (scatterCell (seed ^^^ 1))).2.lastEntity =
        sim.world.lastEntity := by
      rcases World.moveTo_cases sim.world t.id (scatterCell (seed ^^^ 1)) with
        h0 | ⟨_, _, -, -, -, -, -, -, h1, -⟩
      · rw [h0]
      · exact h1
    rcases hmv : sim.world.moveTo t.id (scatterCell (seed ^^^ 1)) with ⟨moved, w⟩
    rw [hmv] at hlast
    cases moved <;> exact hlast

theorem thing?_makeItem_made (sim : Simulation) {m : MapId} {b : Bool}
    (hm : sim.world.map? m = some (grid m b)) (seed : UInt64) :
    (sim.makeItem m seed).world.thing? ⟨sim.world.lastEntity + 1⟩ =
      some ⟨⟨sim.world.lastEntity + 1⟩, .item, m, scatterCell (seed ^^^ 2)⟩ := by
  have hc : (grid m b).contains (scatterCell (seed ^^^ 2)) = true := by
    rw [contains_grid]
    exact onMap_scatterCell _
  have hfst := spawn_fst_of_contains .item hm hc
  obtain ⟨_, -, -, -, hthing, -⟩ := (World.spawn_cases sim.world m .item _).resolve_left
    fun h0 => by rw [h0] at hfst; cases hfst
  unfold makeItem
  rw [spawnScattered_eq]
  rcases hs : sim.world.spawn m .item (scatterCell (seed ^^^ 2)) with ⟨i, w⟩
  rw [hs] at hfst hthing
  obtain rfl : i = _ := hfst
  -- the quality is set on the world the spawn made, which keeps its records
  dsimp only [tell]
  rw [(sameGround_setComponent w _ _).thing?, hthing, if_pos rfl]

/-! ## Records the late rules keep -/

section Records

variable {e : EntityId} {t : Thing}

theorem thing?_switchBuilding (sim : Simulation) (things : List Thing) (seed : UInt64)
    (e : EntityId) : (sim.switchBuilding things seed).world.thing? e = sim.world.thing? e := by
  unfold switchBuilding
  split
  · split
    · exact ((sameGround_setComponent _ _ _).trans (sameGround_setComponent _ _ _)).thing? _ e
    · rfl
  · rfl

theorem thing?_infectColonist (sim : Simulation) (colonists : List Thing) (seed : UInt64)
    (e : EntityId) : (sim.infectColonist colonists seed).world.thing? e = sim.world.thing? e := by
  unfold infectColonist
  split
  · split
    · exact (sameGround_infect _ _ _).thing? _ e
    · rfl
  · rfl

theorem thing?_hurtColonist (sim : Simulation) (colonists : List Thing) (seed : UInt64)
    (e : EntityId) : (sim.hurtColonist colonists seed).world.thing? e = sim.world.thing? e := by
  unfold hurtColonist
  split
  · split
    · -- an injury is no thing: the records stay
      obtain ⟨ht, -, -, -⟩ := World.addInjury_ground sim.world _ (severityOf (seed ^^^ 7))
      show (World.addInjury _ _ _).2.thing? e = _
      rw [World.thing?_eq, ht, ← World.thing?_eq]
    · rfl
  · rfl

theorem thing?_healColonist (sim : Simulation) (colonists : List Thing) (e : EntityId) :
    (sim.healColonist colonists).world.thing? e = sim.world.thing? e := by
  unfold healColonist
  split
  · split
    · split
      · exact (sameGround_heal _ _).thing? _ e
      · rfl
    · rfl
  · rfl

theorem thing?_endStay (sim : Simulation) (c : Thing) (e : EntityId) :
    (sim.endStay c).world.thing? e = sim.world.thing? e := by
  unfold endStay
  split
  · exact (sameGround_endAffiliation _ _ _).thing? _ e
  · rfl

theorem thing?_replaceColonist (sim : Simulation) (m : MapId) (leader last : Thing)
    (seed : UInt64) (hfresh : sim.world.thing? ⟨sim.world.lastEntity + 1⟩ = none)
    (h : sim.world.thing? e = some t) (hne : last.id ≠ e) :
    (sim.replaceColonist m leader last seed).world.thing? e = some t := by
  unfold replaceColonist
  dsimp only [tell]
  rw [spawnScattered_eq]
  -- the leaving keeps the counter, so the newcomer's id is still new
  have hleft : (sim.world.despawn last.id).2.thing? e = some t := by
    rw [thing?_despawn, if_neg (Ne.symm hne)]
    exact h
  have hnew : e ≠ ⟨(sim.world.despawn last.id).2.lastEntity + 1⟩ := by
    rw [lastEntity_despawn]
    exact ne_of_thing? h hfresh
  have hsp := thing?_spawn_of_ne (w := (sim.world.despawn last.id).2) (m := m) (k := .colonist)
    (c := scatterCell (seed ^^^ 8)) hnew
  rcases hs : (sim.world.despawn last.id).2.spawn m .colonist (scatterCell (seed ^^^ 8)) with
    ⟨n, w⟩
  rw [hs] at hsp
  cases n with
  | none => exact hsp.trans hleft
  | some n => exact ((sameGround_relate _ _ _ _).thing? _ e).trans (hsp.trans hleft)

theorem thing?_shuffleColonists (sim : Simulation) (m : MapId) (colonists : List Thing)
    (seed : UInt64) (hfresh : sim.world.thing? ⟨sim.world.lastEntity + 1⟩ = none)
    (h : sim.world.thing? e = some t) (he : ∀ c ∈ colonists, c.id ≠ e) :
    (sim.shuffleColonists m colonists seed).world.thing? e = some t := by
  unfold shuffleColonists
  split
  · next leader second third rest =>
    dsimp only
    have hlast : (leader :: second :: third :: rest).getLast?.getD leader ∈
        leader :: second :: third :: rest := by
      rw [List.getLast?_eq_some_getLast (List.cons_ne_nil _ _), Option.getD_some]
      exact List.getLast_mem _
    generalize hI : (if sim.tick % 25 == 0 then sim.replaceColonist m leader
      ((leader :: second :: third :: rest).getLast?.getD leader) seed else sim) = sim₁
    have h₁ : sim₁.world.thing? e = some t := by
      rw [← hI]
      split
      · exact thing?_replaceColonist sim m leader _ seed hfresh h (he _ hlast)
      · exact h
    -- the forty-tick rule frees the leader's work, whatever the thirty-tick rule did
    have hlift : ∀ sim₂ : Simulation, sim₂.world.thing? e = some t →
        (if sim₂.tick % 40 == 0 then
          { sim₂ with world := sim₂.world.liftWorkRestrictions leader.id }.tell fun s =>
            { s with workRestrictions := (s.workRestrictions.remove leader.id).2 }
        else sim₂).world.thing? e = some t := by
      intro sim₂ h₂
      split
      · exact ((sameGround_liftWorkRestrictions _ _).thing? _ e).trans h₂
      · exact h₂
    split
    · exact hlift _ (by rw [thing?_endStay, thing?_endStay]; exact h₁)
    · exact hlift _ (((sameGround_affiliate _ _ _ _).thing? _ e).trans h₁)
    · exact hlift _ h₁
  · exact h

end Records

/-- The item made in the churn of a map in play stands as made when the churn ends. -/
theorem thing?_churnMap_made (sim : Simulation) {m : MapId} {b : Bool} {room : Nat}
    (hm : m ∈ sim.maps) (hg : sim.world.map? m = some (grid m b)) (hs : sim.Steady (room + 4))
    (seed : UInt64) :
    (sim.churnMap m seed).world.thing? ⟨sim.world.lastEntity + 1⟩ =
      some ⟨⟨sim.world.lastEntity + 1⟩, .item, m, scatterCell (seed ^^^ 2)⟩ := by
  unfold churnMap
  dsimp only
  set things := sim.world.thingsOn m
  set items := things.filter (·.kind == .item)
  set plants := things.filter (·.kind.isPlant)
  set colonists := things.filter (·.kind.isHumanlike)
  -- every thing the churn saw is older than the made item
  have hold : ∀ x ∈ things, x.id ≠ ⟨sim.world.lastEntity + 1⟩ := fun x hx =>
    ne_of_thing? (hs.settled.thing?_of_mem hx) hs.settled.fresh
  have r₁ := rule_carryItem sim m seed
  have hm₁ : m ∈ (sim.carryItem items seed).maps := by rw [r₁.maps]; exact hm
  have hg₁ : (sim.carryItem items seed).world.map? m = some (grid m b) := by
    rw [World.map?, r₁.grids]
    exact hg
  have h₂ := thing?_makeItem_made (sim.carryItem items seed) hg₁ seed
  rw [lastEntity_carryItem] at h₂
  set sim₂ := (sim.carryItem items seed).makeItem m seed
  have hs₃ : (sim₂.storeItem items).Steady (room + 2 + 1) :=
    (rule_storeItem sim₂ items).steady _ ((rule_makeItem _ hm₁ seed).steady _ (r₁.steady _ hs))
  have h₃ := thing?_storeItem sim₂ h₂ fun i (hi : i ∈ items) => hold i (List.mem_filter.mp hi).1
  set sim₃ := sim₂.storeItem items
  have h₄ := thing?_cutPlant sim₃ m seed hs₃.settled.fresh h₃ fun c (hc : c ∈ plants) =>
    hold c (List.mem_filter.mp hc).1
  set sim₄ := sim₃.cutPlant m plants seed
  -- the tending tells the session only, and the rules after it keep every record but the
  -- colonist who leaves
  have h₅ : ((sim₄.refuelTurrets m things).tendAnimals m things).world.thing?
      ⟨sim.world.lastEntity + 1⟩ = some ⟨⟨sim.world.lastEntity + 1⟩, .item, m, scatterCell (seed ^^^ 2)⟩ := by
    obtain ⟨f, hf⟩ := tend_tells sim₄ m things
    rw [hf]
    exact h₄
  set sim₅ := (sim₄.refuelTurrets m things).tendAnimals m things
  have r₉ := (rule_churnTend sim hm seed).trans ((rule_switchBuilding sim₅ things seed).after0
    ((rule_infectColonist _ colonists seed).after0 ((rule_hurtColonist _ colonists seed).trans
      (rule_healColonist _ colonists))))
  have hs₉ := r₉.steady (room + 1) hs
  refine thing?_shuffleColonists _ m colonists seed hs₉.settled.fresh ?_
    fun c (hc : c ∈ colonists) => hold c (List.mem_filter.mp hc).1
  rw [thing?_healColonist, thing?_hurtColonist, thing?_infectColonist, thing?_switchBuilding]
  exact h₅


/-! ## The step onto map `firstOverflowingMap` -/

theorem regionAt_past_overflow {w : World} {m : MapId} {b : Bool}
    (hm : w.map? m = some (grid m b)) (hpast : firstOverflowingMap ≤ m.val.toNat) {c : Cell}
    (hc : onMap c = true) : w.regionAt m c = none := by
  rw [World.regionAt_of_map? hm]
  apply Option.not_isSome_iff_eq_none.mp
  rw [isSome_regionAt_grid m b hc, decide_eq_false (Nat.not_lt.mpr hpast), Bool.and_false]
  exact Bool.false_ne_true

/-- The step that loads map `firstOverflowingMap` makes an item there that the haulable-items
cache files nowhere. -/
theorem run_leaves_item_unfiled (config : Config) (g every : Nat) :
    let sim := (Request.runTicks (Simulation.new (Session.new config g)).populate
      (mapCycleTicks * (firstOverflowingMap - 2)) every).2
    ∃ e t, sim.world.thing? e = some t ∧ t.kind = .item ∧ t.map ∈ sim.maps ∧
      (sim.session.regionCache haulableItems).scopeOf e = none := by
  have hcycle : mapCycleTicks = 120 := rfl
  have hfirst : firstOverflowingMap = 429497 := rfl
  have hN : mapCycleTicks * (firstOverflowingMap - 2) = 51539399 + 1 := by
    rw [hcycle, hfirst]
  rw [runTicks_snd, hN, Function.iterate_succ_apply']
  -- the run up to the tick before, with 64 ids left for the last step
  have hpop : Running (Simulation.new (Session.new config g)).populate
      (0 + 64 + 64 * 51539399) ∧ _ :=
    running_populate _ (steady_new config g (by decide)) rfl rfl rfl
  obtain ⟨h₀, ht₀⟩ := hpop
  obtain ⟨h, ht⟩ := running_iterate 51539399 _ h₀ (by rw [ht₀, hcycle]; decide)
  generalize (fun s : Simulation => s.step.2)^[51539399]
    (Simulation.new (Session.new config g)).populate = sim₀ at h ht ⊢
  dsimp only
  have hlm : sim₀.world.lastMap.toNat + 1 < 4294967296 := by
    rw [h.lastMap, ht, ht₀, hcycle]
    decide
  -- the last step: the newest map gives way to map `firstOverflowingMap`, then both maps churn
  obtain ⟨sim₃, h₃, ht₃, hstep⟩ := step_cut sim₀ h hlm
  have hL : firstOverflowingMap ≤ sim₃.world.lastMap.toNat := by
    have hlast := h₃.lastMap
    rw [ht₃, ht, ht₀, hcycle] at hlast
    rw [hfirst]
    omega
  set L : MapId := ⟨sim₃.world.lastMap⟩
  have h1 : (⟨1⟩ : MapId) ∈ sim₃.maps := by
    rw [h₃.maps]
    exact List.mem_cons_self
  have hL₃ : L ∈ sim₃.maps := by
    rw [h₃.maps]
    exact List.mem_cons_of_mem _ List.mem_cons_self
  have r₄ := rule_churnMap sim₃ h1 (sim₃.tick.toUInt64 * 7919 + (0 : Nat).toUInt64)
  set sim₄ := sim₃.churnMap ⟨1⟩ (sim₃.tick.toUInt64 * 7919 + (0 : Nat).toUInt64)
  have hL₄ : L ∈ sim₄.maps := by
    rw [r₄.maps]
    exact hL₃
  have hg₄ : sim₄.world.map? L = some (grid L true) := by
    rw [World.map?, r₄.grids]
    exact h₃.enabled L hL₃
  set seed := sim₄.tick.toUInt64 * 7919 + (1 : Nat).toUInt64
  have hmade := thing?_churnMap_made sim₄ hL₄ hg₄ (r₄.steady (0 + 4) h₃.steady) seed
  have hstep' : sim₀.step.2 = (sim₄.churnMap L seed).report.2 := by
    rw [hstep, h₃.maps, List.zipIdx_cons, List.zipIdx_cons, List.zipIdx_nil, List.foldl_cons,
      List.foldl_cons, List.foldl_nil]
  -- the report keeps the world and the maps in play
  obtain ⟨hw, hmaps, -, -⟩ := report_keeps (sim₄.churnMap L seed)
  have hthing : sim₀.step.2.world.thing? ⟨sim₄.world.lastEntity + 1⟩ =
      some ⟨⟨sim₄.world.lastEntity + 1⟩, .item, L, scatterCell (seed ^^^ 2)⟩ := by
    rw [hstep', hw]
    exact hmade
  have hmem : L ∈ sim₀.step.2.maps := by
    rw [hstep', hmaps, (rule_churnMap sim₄ hL₄ seed).maps]
    exact hL₄
  have hrun : Running sim₀.step.2 0 := (running_step sim₀ h hlm).1
  refine ⟨_, _, hthing, rfl, hmem, ?_⟩
  -- the item is filed under the region of its cell, and the new map has none
  rw [hrun.steady.tracks.hauling, expectedRegion, hthing, Option.bind_some]
  split
  · exact regionAt_past_overflow (hrun.enabled L hmem) hL (onMap_scatterCell _)
  · rfl

theorem default_run_leaves_item_unfiled :
    let sim := (Request.runTicks (Simulation.new (Session.new Config.default 1)).populate
      (mapCycleTicks * (firstOverflowingMap - 2)) 1).2
    ∃ e t, sim.world.thing? e = some t ∧ t.kind = .item ∧ t.map ∈ sim.maps ∧
      (sim.session.regionCache haulableItems).scopeOf e = none :=
  run_leaves_item_unfiled Config.default 1 1

end Simulation

end ColonyCache
