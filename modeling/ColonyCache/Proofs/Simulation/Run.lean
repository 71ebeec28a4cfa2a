import ColonyCache.Proofs.Simulation.Loading
import ColonyCache.Request.Simulation
import Mathlib.Logic.Function.Iterate

/-! Along a run from a fresh session the session keeps tracking the world, while the tick stays
below `mapCycleTicks * (firstOverflowingMap - 2)` and every map's regions have ids. -/

namespace ColonyCache

namespace Session

variable {s : Session} {w : World} {maps : List MapId}

theorem Tracks.tickStarted (h : s.Tracks w maps) : s.tickStarted.Tracks w maps := by
  have hc := h.coherent
  refine ⟨hc.tickStarted, ?_, ?_, ?_, ?_, ?_⟩
  · rw [regionCache_tickStarted hc]; exact h.hauling
  · rw [regionCache_tickStarted hc]; exact h.harvest
  · rw [mapCache_tickStarted hc]; exact h.turrets
  · rw [mapCache_tickStarted hc]; exact h.nonTurrets
  · rw [mapCache_tickStarted hc]; exact h.animals

/-- What the session has filed and who hears of changes: the bus and the two registries. -/
def filing (s : Session) : EventBus Listener × Registry RegionThings × Registry MapThings :=
  (s.bus, s.regionCaches, s.mapCaches)

theorem Tracks.of_filing {s' : Session} (h : s.Tracks w maps) (hf : s'.filing = s.filing) :
    s'.Tracks w maps := by
  obtain ⟨hb, hrm⟩ := Prod.mk.inj hf
  obtain ⟨hr, hm⟩ := Prod.mk.inj hrm
  exact h.tell hb hr hm

end Session

namespace Simulation

open World

variable {room : Nat}

/-! ## Reporting only asks -/

section Report

theorem filing_foldl {α : Type} (f : StepReport × Session → α → StepReport × Session)
    (hf : ∀ acc x, (f acc x).2.filing = acc.2.filing) (xs : List α) (acc : StepReport × Session) :
    (xs.foldl f acc).2.filing = acc.2.filing := by
  induction xs generalizing acc with
  | nil => rfl
  | cons x xs ih => rw [List.foldl_cons, ih, hf]

theorem filing_inspect (w : World) (acc : StepReport × Session) (t : Thing) :
    (inspect w acc t).2.filing = acc.2.filing := by
  unfold inspect
  dsimp only
  -- items and buildings are asked about; the buildings only while they want to be on
  split
  · rfl
  · split <;> rfl
  · split <;> rfl
  · rfl

theorem filing_examine (w : World) (acc : StepReport × Session) (c : Thing) :
    (examine w acc c).2.filing = acc.2.filing := rfl

theorem filing_acquaint (w : World) (acc : StepReport × Session) (pair : Thing × Thing) :
    (acquaint w acc pair).2.filing = acc.2.filing := by
  unfold acquaint
  dsimp only
  split <;> rfl

theorem filing_survey (w : World) (acc : StepReport × Session) (m : MapId) :
    (survey w acc m).2.filing = acc.2.filing := by
  unfold survey
  dsimp only
  split
  · rw [filing_foldl _ (filing_inspect w)]
    rfl
  · rw [filing_foldl _ (filing_acquaint w), filing_foldl _ (filing_examine w),
      filing_foldl _ (filing_inspect w)]
    rfl

theorem report_keeps (sim : Simulation) :
    sim.report.2.world = sim.world ∧ sim.report.2.maps = sim.maps ∧
      sim.report.2.tick = sim.tick ∧ sim.report.2.session.filing = sim.session.filing := by
  unfold report
  dsimp only
  exact ⟨rfl, rfl, rfl, filing_foldl _ (filing_survey sim.world) _ _⟩

end Report

/-! ## The state of a run -/

/-- The state of a run with `room` ids to spare: steady, with the first and the newest map in
play, laid out with their regions in use. -/
structure Running (sim : Simulation) (room : Nat) : Prop where
  steady : sim.Steady room
  maps : sim.maps = [⟨1⟩, ⟨sim.world.lastMap⟩]
  lastMap : sim.world.lastMap.toNat = 2 + sim.tick / mapCycleTicks
  enabled : sim.Enabled

theorem Enabled.of_grids {sim sim' : Simulation} (h : sim.Enabled) (hm : sim'.maps = sim.maps)
    (hg : sim'.world.maps = sim.world.maps) : sim'.Enabled := by
  intro m hm'
  rw [World.map?, hg]
  rw [hm] at hm'
  exact h m hm'

theorem Running.rule {sim sim' : Simulation} {k : Nat} (h : Running sim (room + k))
    (r : Rule sim sim' k) : Running sim' room where
  steady := r.steady room h.steady
  maps := by rw [r.maps, r.lastMap]; exact h.maps
  lastMap := by rw [r.lastMap, r.tick]; exact h.lastMap
  enabled := h.enabled.of_grids r.maps r.grids

theorem Running.report {sim : Simulation} (h : Running sim room) : Running sim.report.2 room := by
  obtain ⟨hw, hm, ht, hf⟩ := report_keeps sim
  refine ⟨⟨?_, ?_⟩, ?_, ?_, ?_⟩
  · rw [hw, hm]; exact h.steady.settled
  · rw [hw, hm]; exact h.steady.tracks.of_filing hf
  · rw [hm, hw]; exact h.maps
  · rw [hw, ht]; exact h.lastMap
  · intro m hm'
    rw [hw]
    rw [hm] at hm'
    exact h.enabled m hm'

theorem rule_churnEach (seed : Simulation → MapId × Nat → UInt64) (xs : List (MapId × Nat))
    (sim : Simulation) (hxs : ∀ x ∈ xs, x.1 ∈ sim.maps) :
    Rule sim (xs.foldl (fun sim x => sim.churnMap x.1 (seed sim x)) sim) (4 * xs.length) := by
  induction xs generalizing sim with
  | nil => exact Rule.refl sim
  | cons x xs ih =>
    have r := rule_churnMap sim (hxs x List.mem_cons_self) (seed sim x)
    -- the maps in play stay, so the rest of the maps are still in play
    have r' := ih (sim.churnMap x.1 (seed sim x)) fun y hy => by
      rw [r.maps]
      exact hxs y (List.mem_cons_of_mem x hy)
    rw [List.foldl_cons, List.length_cons]
    exact (r.trans r').mono (by omega)

theorem Running.churn {sim : Simulation} (h : Running sim (room + 8)) :
    Running (sim.maps.zipIdx.foldl
      (fun sim x => sim.churnMap x.1 (sim.tick.toUInt64 * 7919 + x.2.toUInt64)) sim) room := by
  have r := rule_churnEach (fun sim x => sim.tick.toUInt64 * 7919 + x.2.toUInt64)
    sim.maps.zipIdx sim fun x hx => List.fst_mem_of_mem_zipIdx hx
  have hlen : 4 * sim.maps.zipIdx.length ≤ 8 := by
    rw [List.length_zipIdx, h.maps]
    exact Nat.le_refl 8
  exact h.rule (r.mono hlen)

/-- On a multiple of `mapCycleTicks` the newest map gives way to the next; either way the state
of a run holds at the new tick. -/
theorem running_cycle (sim : Simulation) (hs : sim.Steady (room + 56))
    (hmaps : sim.maps = [⟨1⟩, ⟨sim.world.lastMap⟩]) (he : sim.Enabled) (hpos : 0 < sim.tick)
    (hlast : sim.world.lastMap.toNat = 2 + (sim.tick - 1) / mapCycleTicks)
    (hlm : sim.world.lastMap.toNat + 1 < 4294967296) :
    Running (if (sim.tick % mapCycleTicks == 0) = true then sim.cycleMap else sim) room ∧
      (if (sim.tick % mapCycleTicks == 0) = true then sim.cycleMap else sim).tick = sim.tick := by
  have hcycle : mapCycleTicks = 120 := rfl
  by_cases hc : sim.tick % mapCycleTicks = 0
  · -- the newest map gives way to the next one
    have hif : (sim.tick % mapCycleTicks == 0) = true := by simp [hc]
    rw [if_pos hif]
    have hmaps' : sim.maps = [⟨1⟩] ++ [⟨sim.world.lastMap⟩] := hmaps
    have g := grows_cycleMap sim hmaps' hs hlm he
    refine ⟨⟨g.steady, ?_, ?_, g.enabled⟩, g.tick⟩
    · rw [g.maps, g.lastMap]
      rfl
    · rw [g.lastMap, g.tick, Settled.next_map_toNat hlm, hlast]
      rw [hcycle] at hc ⊢
      omega
  · have hif : ¬(sim.tick % mapCycleTicks == 0) = true := by simp [hc]
    rw [if_neg hif]
    refine ⟨⟨hs.mono (Nat.le_add_right room 56), hmaps, ?_, he⟩, rfl⟩
    rw [hlast]
    rw [hcycle] at hc ⊢
    omega

/-- A step cut where the churn begins, from the state of a run at the next tick. -/
theorem step_cut (sim : Simulation) (h : Running sim (room + 64))
    (hlm : sim.world.lastMap.toNat + 1 < 4294967296) :
    ∃ sim₃ : Simulation, Running sim₃ (room + 8) ∧ sim₃.tick = sim.tick + 1 ∧
      sim.step.2 = (sim₃.maps.zipIdx.foldl (fun sim x =>
        sim.churnMap x.1 (sim.tick.toUInt64 * 7919 + x.2.toUInt64)) sim₃).report.2 := by
  -- the tick starts and the injuries age: of what a run keeps, only the tick moves
  set sim₂ : Simulation :=
    ⟨sim.world.ageInjuries 1, sim.maps, sim.tick + 1, sim.session.tickStarted⟩
  have hg := sameGround_ageInjuries (w := sim.world) 1
  have hs₂ : sim₂.Steady (room + 8 + 56) :=
    ⟨h.steady.settled.sameGround hg, h.steady.tracks.tickStarted.sameGround hg⟩
  have hmaps₂ : sim₂.maps = [⟨1⟩, ⟨sim₂.world.lastMap⟩] := by
    show sim.maps = [⟨1⟩, ⟨(sim.world.ageInjuries 1).lastMap⟩]
    rw [hg.lastMap]
    exact h.maps
  have he₂ : sim₂.Enabled := fun m hm => by
    show (sim.world.ageInjuries 1).map? m = _
    rw [hg.map?]
    exact h.enabled m hm
  have hlast₂ : sim₂.world.lastMap.toNat = 2 + (sim₂.tick - 1) / mapCycleTicks := by
    show (sim.world.ageInjuries 1).lastMap.toNat = 2 + (sim.tick + 1 - 1) / mapCycleTicks
    rw [hg.lastMap, Nat.add_sub_cancel]
    exact h.lastMap
  have hlm₂ : sim₂.world.lastMap.toNat + 1 < 4294967296 := by
    show (sim.world.ageInjuries 1).lastMap.toNat + 1 < _
    rw [hg.lastMap]
    exact hlm
  obtain ⟨h₃, ht₃⟩ := running_cycle sim₂ hs₂ hmaps₂ he₂ (Nat.succ_pos sim.tick) hlast₂ hlm₂
  exact ⟨_, h₃, ht₃, rfl⟩

theorem running_step (sim : Simulation) (h : Running sim (room + 64))
    (hlm : sim.world.lastMap.toNat + 1 < 4294967296) :
    Running sim.step.2 room ∧ sim.step.2.tick = sim.tick + 1 := by
  obtain ⟨sim₃, h₃, ht₃, hstep⟩ := step_cut sim h hlm
  -- the churn and the report keep the tick the cycle left
  have r₄ := rule_churnEach (fun sim x => sim.tick.toUInt64 * 7919 + x.2.toUInt64)
    sim₃.maps.zipIdx sim₃ fun x hx => List.fst_mem_of_mem_zipIdx hx
  rw [hstep]
  exact ⟨h₃.churn.report, by rw [(report_keeps _).2.2.1, r₄.tick, ht₃]⟩

/-- A run of `n` steps keeps the state of a run while the map counter has room. -/
theorem running_iterate (n : Nat) (sim : Simulation) (h : Running sim (room + 64 * n))
    (ht : 3 + (sim.tick + n) / mapCycleTicks < 4294967296) :
    Running ((fun s => s.step.2)^[n] sim) room ∧
      ((fun s => s.step.2)^[n] sim).tick = sim.tick + n := by
  have hcycle : mapCycleTicks = 120 := rfl
  induction n generalizing sim with
  | zero => exact ⟨h, rfl⟩
  | succ n ih =>
    -- the map counter, two plus the cycles so far, has room for the next map
    have hlm : sim.world.lastMap.toNat + 1 < 4294967296 := by
      rw [h.lastMap, hcycle]
      rw [hcycle] at ht
      omega
    have hroom : room + 64 * (n + 1) = room + 64 * n + 64 := by omega
    rw [hroom] at h
    obtain ⟨h₁, ht₁⟩ := running_step sim h hlm
    obtain ⟨h', ht'⟩ := ih sim.step.2 h₁ (by rw [ht₁, Nat.add_assoc, Nat.add_comm 1 n]; exact ht)
    refine ⟨?_, ?_⟩
    · rw [Function.iterate_succ_apply]
      exact h'
    · rw [Function.iterate_succ_apply, ht', ht₁]
      omega

theorem runTicks_snd (sim : Simulation) (n every : Nat) :
    (Request.runTicks sim n every).2 = (fun s => s.step.2)^[n] sim := by
  unfold Request.runTicks
  -- each tick of the fold steps the simulation it carries
  have key : ∀ k (acc : List StepReport × Simulation),
      ((List.range k).foldl (fun (x : List StepReport × Simulation) (_ : Nat) =>
        (if x.2.step.1.tick % every == 0 || x.2.step.1.tick == n then x.1 ++ [x.2.step.1]
          else x.1, x.2.step.2)) acc).2 = (fun s => s.step.2)^[k] acc.2 := by
    intro k
    induction k with
    | zero => intro acc; rfl
    | succ k ih =>
      intro acc
      rw [List.range_succ, List.foldl_append, List.foldl_cons, List.foldl_nil,
        Function.iterate_succ_apply', ← ih acc]
  exact key n ([], sim)

/-! ## Runs from a fresh session -/

/-- Populating puts the first two maps in play and starts the state of a run at tick zero. -/
theorem running_populate (sim : Simulation) (h : sim.Steady (room + 112)) (hmaps : sim.maps = [])
    (hlast : sim.world.lastMap = 0) (htick : sim.tick = 0) :
    Running sim.populate room ∧ sim.populate.tick = 0 := by
  unfold populate
  rw [show List.range mapCount = [0, 1] from rfl, List.foldl_cons, List.foldl_cons,
    List.foldl_nil]
  dsimp only
  -- name the two loads, so that nothing asks Lean to run them
  generalize hl₁ : sim.loadMap = r₁
  obtain ⟨m₁, sim₁⟩ := r₁
  dsimp only
  generalize hl₂ : Simulation.loadMap _ = r₂
  obtain ⟨m₂, sim₂⟩ := r₂
  have he : sim.Enabled := fun m hm => by
    rw [hmaps] at hm
    cases hm
  have hlm₁ : sim.world.lastMap.toNat + 1 < 4294967296 := by
    rw [hlast]
    decide
  have g₁ := grows_loadMap sim hl₁ (h.mono (Nat.le_of_eq (Nat.add_assoc room 56 56))) hlm₁ he
  have hlm₂ : ({ sim₁ with maps := sim₁.maps ++ [m₁] } : Simulation).world.lastMap.toNat + 1 <
      4294967296 := by
    rw [g₁.lastMap, hlast]
    decide
  have g₂ := grows_loadMap _ hl₂ g₁.steady hlm₂ g₁.enabled
  refine ⟨⟨g₂.steady, ?_, ?_, g₂.enabled⟩, ?_⟩
  · rw [g₂.maps, g₂.lastMap, g₁.maps, g₁.lastMap, hmaps, hlast]
    rfl
  · rw [g₂.lastMap, g₁.lastMap, hlast, g₂.tick, g₁.tick, htick]
    rfl
  · rw [g₂.tick, g₁.tick, htick]

theorem Running.regionAt_isSome {sim : Simulation} (h : Running sim room)
    (hlast : sim.world.lastMap.toNat < firstOverflowingMap) {e : EntityId} {t : Thing}
    (ht : sim.world.thing? e = some t) : (sim.world.regionAt t.map t.cell).isSome := by
  obtain ⟨b, hsome, hgrid⟩ := h.steady.settled.regionAt_isSome ht
  have hm := (h.steady.settled.placed e t ht).1
  -- the thing's map is in play, so its regions are in use
  have hb : b = true := by
    rw [h.enabled t.map hm] at hgrid
    exact (congrArg MapGrid.regionsEnabled (Option.some.inj hgrid)).symm
  have hbelow : t.map.val.toNat < firstOverflowingMap := by
    rw [h.maps] at hm
    rcases List.mem_pair.mp hm with hm | hm
    · rw [hm]
      decide
    · rw [hm]
      exact hlast
  rw [hsome, hb, decide_eq_true hbelow]
  rfl

/-- Along a run from a fresh session, the region caches file exactly the items and harvestable
plants of the maps in play, and every thing stands in a region. -/
theorem run_tracks_world (config : Config) (g n every : Nat)
    (hn : n < mapCycleTicks * (firstOverflowingMap - 2)) :
    let sim := (Request.runTicks (Simulation.new (Session.new config g)).populate n every).2
    (∀ m, (sim.world.map? m).isSome ↔ m ∈ sim.maps) ∧ sim.session.Tracks sim.world sim.maps ∧
      ∀ e t, sim.world.thing? e = some t →
        t.map ∈ sim.maps ∧ (sim.world.regionAt t.map t.cell).isSome := by
  rw [runTicks_snd]
  intro sim
  have hcycle : mapCycleTicks = 120 := rfl
  have hfirst : firstOverflowingMap = 429497 := rfl
  rw [hcycle, hfirst] at hn
  -- 112 ids for the two maps and 64 a step fit in the entity counter
  have hpop : Running (Simulation.new (Session.new config g)).populate (0 + 64 * n) ∧ _ :=
    running_populate _ (steady_new config g (by omega)) rfl rfl rfl
  obtain ⟨h₀, ht₀⟩ := hpop
  obtain ⟨h, ht⟩ := running_iterate n _ h₀ (by rw [ht₀, hcycle]; omega)
  have hlast : sim.world.lastMap.toNat < firstOverflowingMap := by
    show ((fun (s : Simulation) => s.step.2)^[n] _).world.lastMap.toNat < _
    rw [h.lastMap, ht, ht₀, hcycle, hfirst]
    omega
  refine ⟨h.steady.settled.loaded, h.steady.tracks, fun e t he => ?_⟩
  exact ⟨(h.steady.settled.placed e t he).1, h.regionAt_isSome hlast he⟩

theorem tracks_world_after_first_map_cycle :
    120 < mapCycleTicks * (firstOverflowingMap - 2) ∧
    let sim := (Request.runTicks (Simulation.new (Session.new Config.default 1)).populate 120 1).2
    (∀ m, (sim.world.map? m).isSome ↔ m ∈ sim.maps) ∧ sim.session.Tracks sim.world sim.maps ∧
      ∀ e t, sim.world.thing? e = some t →
        t.map ∈ sim.maps ∧ (sim.world.regionAt t.map t.cell).isSome :=
  ⟨by decide, run_tracks_world Config.default 1 120 1 (by decide)⟩

end Simulation

end ColonyCache
