import ColonyCache.Proofs.Simulation.Census
import ColonyCache.Proofs.Simulation.Overflow
/-! Along a run from a new session, every step reports the census of the world it leaves, until a
loaded map's regions get no ids. -/

namespace ColonyCache

namespace Simulation

open World

variable {room : Nat}

/-- A step up to its report: the tick starts, the injuries age, maps cycle and are churned. -/
def advance (sim : Simulation) : Simulation :=
  let sim := { sim.tell Session.tickStarted with tick := sim.tick + 1 }
  let sim := { sim with world := sim.world.ageInjuries 1 }
  let sim := if sim.tick % mapCycleTicks == 0 then sim.cycleMap else sim
  sim.maps.zipIdx.foldl (fun sim x =>
    sim.churnMap x.1 (sim.tick.toUInt64 * 7919 + x.2.toUInt64)) sim

theorem step_eq_advance (sim : Simulation) : sim.step = sim.advance.report := rfl

theorem Sound.top {sim : Simulation} {L : Nat} (h : Sound L sim room) :
    Sound sim.world.lastEntity.toNat sim room :=
  ⟨h.records, h.fresh.mono h.fresh.le (Nat.le_refl _), h.room⟩

theorem Sound.startTick {sim : Simulation} {L : Nat} (h : Sound L sim room) :
    Sound L { { sim.tell Session.tickStarted with tick := sim.tick + 1 } with
      world := sim.world.ageInjuries 1 } room where
  records := h.records.ageInjuries 1
  fresh := h.fresh.tickStarted.keeps (keeps_ageInjuries L 1)
    (h.fresh.tickStarted.components.congr rfl rfl rfl)
  room := h.room

/-- Up to its report, a step hands out at most 64 ids and leaves a session answering as the
world does. -/
theorem asks_advance {sim : Simulation} (h : Running sim (room + 64))
    (hs : Sound sim.world.lastEntity.toNat sim (room + 64))
    (hlm : sim.world.lastMap.toNat + 1 < 4294967296) :
    Asks sim.advance.world sim.advance.session ∧ Sound sim.world.lastEntity.toNat sim.advance room := by
  set sim₂ : Simulation := { { sim.tell Session.tickStarted with tick := sim.tick + 1 } with
    world := sim.world.ageInjuries 1 }
  set sim₃ := if (sim₂.tick % mapCycleTicks == 0) = true then sim₂.cycleMap else sim₂
  have hadv : sim.advance = sim₃.maps.zipIdx.foldl (fun sim x =>
      sim.churnMap x.1 (sim.tick.toUInt64 * 7919 + x.2.toUInt64)) sim₃ := rfl
  -- the churn keeps the two maps of a run, so it hands out at most eight ids
  have hlen : sim₃.maps.zipIdx.length = 2 := by
    have r₄ := rule_churnEach (fun sim x => sim.tick.toUInt64 * 7919 + x.2.toUInt64)
      sim₃.maps.zipIdx sim₃ fun x hx => List.fst_mem_of_mem_zipIdx hx
    have hm := (running_step sim h hlm).1.maps
    rw [step_eq_advance, (report_keeps _).2.1, hadv, r₄.maps] at hm
    rw [List.length_zipIdx, hm]
    rfl
  have r : Renews sim₂ sim.advance 64 := by
    rw [hadv]
    exact ((Renews.ite (renews_cycleMap sim₂)).trans
      (renews_churnEach _ sim₃.maps.zipIdx sim₃)).mono (by omega)
  have hs₄ := r.sound _ room hs.startTick
  -- the tick boundary dropped every map summary, and the churn computed none
  have hsum : sim.advance.session.mapSummaries = {} := by
    rw [r.summaries]
    exact congrArg Session.mapSummaries (Session.tickStarted_eq h.steady.tracks.coherent.bus)
  refine ⟨⟨hs₄.top.fresh, fun m v hv => ?_⟩, hs₄⟩
  rw [hsum] at hv
  simp [TickScopedCache.get?] at hv

theorem tracks_advance {sim : Simulation} (h : Running sim (room + 64))
    (hlm : sim.world.lastMap.toNat + 1 < 4294967296) :
    sim.advance.session.Tracks sim.advance.world sim.advance.maps := by
  have ht := (running_step sim h hlm).1.steady.tracks
  obtain ⟨hw, hm, -, hf⟩ := report_keeps sim.advance
  rw [step_eq_advance, hw, hm] at ht
  exact ht.of_filing hf.symm

theorem sound_step {sim : Simulation} (h : Running sim (room + 64))
    (hs : Sound sim.world.lastEntity.toNat sim (room + 64))
    (hlm : sim.world.lastMap.toNat + 1 < 4294967296) :
    Sound sim.step.2.world.lastEntity.toNat sim.step.2 room := by
  obtain ⟨ha, hs₄⟩ := asks_advance h hs hlm
  have ha' := (ha.report_sizes hs₄.records (tracks_advance h hlm)).2
  obtain ⟨hw, -, -, -⟩ := report_keeps sim.advance
  rw [step_eq_advance]
  refine ⟨?_, ?_, ?_⟩
  · rw [hw]; exact hs₄.records
  · rw [hw]; exact ha'.fresh
  · rw [hw]; exact hs₄.room

/-- A step whose newest map still has region ids reports the census of the world it leaves. -/
theorem step_census {sim : Simulation} (h : Running sim (room + 64))
    (hs : Sound sim.world.lastEntity.toNat sim (room + 64))
    (hlm : sim.world.lastMap.toNat + 1 < 4294967296)
    (hlast : sim.step.2.world.lastMap.toNat < firstOverflowingMap) :
    sim.step.1.census = sim.step.2.census := by
  obtain ⟨ha, hs₄⟩ := asks_advance h hs hlm
  obtain ⟨hw, hm, ht, -⟩ := report_keeps sim.advance
  have hw' : sim.step.2.world = sim.advance.world := by rw [step_eq_advance]; exact hw
  -- every thing stands in a region, as in the state of a run after the step
  have hall : ∀ e t, sim.advance.world.thing? e = some t →
      (sim.advance.world.regionAt t.map t.cell).isSome := by
    intro e t he
    have hr := (running_step sim h hlm).1.regionAt_isSome hlast (by rw [hw']; exact he)
    rwa [hw'] at hr
  rw [step_eq_advance, ha.report_census hs₄.records (tracks_advance h hlm) hall]
  unfold Simulation.census
  rw [hw, hm, ht]

theorem step_haulables_lt {sim : Simulation} (h : Running sim (room + 64))
    (hs : Sound sim.world.lastEntity.toNat sim (room + 64))
    (hlm : sim.world.lastMap.toNat + 1 < 4294967296) {e : EntityId} {t : Thing}
    (he : sim.step.2.world.thing? e = some t) (hk : t.kind = .item) (hm : t.map ∈ sim.step.2.maps)
    (hnone : (sim.step.2.session.regionCache haulableItems).scopeOf e = none) :
    sim.step.1.haulables < sim.step.2.census.haulables := by
  obtain ⟨ha, hs₄⟩ := asks_advance h hs hlm
  obtain ⟨hw, hmaps, ht, hf⟩ := report_keeps sim.advance
  -- reporting files nothing, so the report's session has the caches it asked
  have hrc : sim.advance.report.2.session.regionCache haulableItems =
      sim.advance.session.regionCache haulableItems := by
    unfold Session.regionCache
    rw [(Prod.mk.inj (Prod.mk.inj hf).2).1]
  rw [step_eq_advance] at he hm hnone ⊢
  rw [hw] at he
  rw [hmaps] at hm
  rw [hrc] at hnone
  have hlt := ha.report_haulables_lt hs₄.records (tracks_advance h hlm) he hk hm hnone
  unfold Simulation.census at hlt ⊢
  rwa [hw, hmaps, ht]

/-- A run of `n` steps keeps the simulation sound while the map counter has room. -/
theorem sound_iterate (n : Nat) (sim : Simulation) (h : Running sim (room + 64 * n))
    (hs : Sound sim.world.lastEntity.toNat sim (room + 64 * n))
    (ht : 3 + (sim.tick + n) / mapCycleTicks < 4294967296) :
    Sound ((fun s => s.step.2)^[n] sim).world.lastEntity.toNat
      ((fun s => s.step.2)^[n] sim) room := by
  have hcycle : mapCycleTicks = 120 := rfl
  induction n generalizing sim with
  | zero => exact hs
  | succ n ih =>
    -- the map counter, two plus the cycles so far, has room for the next map
    have hlm : sim.world.lastMap.toNat + 1 < 4294967296 := by
      rw [h.lastMap, hcycle]
      rw [hcycle] at ht
      omega
    have hroom : room + 64 * (n + 1) = room + 64 * n + 64 := by omega
    rw [hroom] at h hs
    obtain ⟨h₁, ht₁⟩ := running_step sim h hlm
    rw [Function.iterate_succ_apply]
    exact ih sim.step.2 h₁ (sound_step h hs hlm)
      (by rw [ht₁, Nat.add_assoc, Nat.add_comm 1 n]; exact ht)

theorem sound_new (config : Config) (g : Nat) (hroom : room < 4294967296) :
    Sound 0 (Simulation.new (Session.new config g)) room :=
  ⟨World.Records.empty, Session.fresh_new config g _, by show 0 + room < 4294967296; omega⟩

theorem reporting_run (config : Config) (g n room : Nat)
    (hn : room + 64 * n + 112 < 4294967296) (ht : 3 + n / mapCycleTicks < 4294967296) :
    let sim := (fun s : Simulation => s.step.2)^[n] (Simulation.new (Session.new config g)).populate
    Running sim room ∧ sim.tick = n ∧ Sound sim.world.lastEntity.toNat sim room := by
  have hpop : Running (Simulation.new (Session.new config g)).populate (room + 64 * n) ∧ _ :=
    running_populate _ (steady_new config g hn) rfl rfl rfl
  obtain ⟨h₀, ht₀⟩ := hpop
  have hs₀ := ((renews_populate _).sound 0 _ (sound_new config g hn)).top
  have ht' : 3 + ((Simulation.new (Session.new config g)).populate.tick + n) / mapCycleTicks <
      4294967296 := by
    rw [ht₀, Nat.zero_add]
    exact ht
  obtain ⟨h, htick⟩ := running_iterate n _ h₀ ht'
  exact ⟨h, by rw [htick, ht₀, Nat.zero_add], sound_iterate n _ h₀ hs₀ ht'⟩

/-- Along a run from a new session, each step while the tick stays below
`mapCycleTicks * (firstOverflowingMap - 2)` reports the census of the world it leaves. -/
theorem step_report_counts_world (config : Config) (g n every : Nat)
    (hn : n + 1 < mapCycleTicks * (firstOverflowingMap - 2)) :
    let sim := (Request.runTicks (Simulation.new (Session.new config g)).populate n every).2
    sim.step.1.census = sim.step.2.census := by
  have hcycle : mapCycleTicks = 120 := rfl
  have hfirst : firstOverflowingMap = 429497 := rfl
  rw [hcycle, hfirst] at hn
  rw [runTicks_snd]
  -- 112 ids for the two maps and 64 a step fit in the entity counter
  obtain ⟨h, ht, hs⟩ := reporting_run config g n (0 + 64) (by omega) (by rw [hcycle]; omega)
  generalize (fun s : Simulation => s.step.2)^[n] (Simulation.new (Session.new config g)).populate
    = sim at h ht hs ⊢
  dsimp only
  have hlm : sim.world.lastMap.toNat + 1 < 4294967296 := by
    rw [h.lastMap, ht, hcycle]
    omega
  obtain ⟨h', ht'⟩ := running_step sim h hlm
  refine step_census h hs hlm ?_
  rw [h'.lastMap, ht', ht, hcycle, hfirst]
  omega

/-- The first step of a run with the default settings reports what its world says. -/
theorem first_step_reports_world :
    0 + 1 < mapCycleTicks * (firstOverflowingMap - 2) ∧
    let sim := (Request.runTicks (Simulation.new (Session.new Config.default 1)).populate 0 1).2
    sim.step.1.census = sim.step.2.census :=
  ⟨by decide, step_report_counts_world Config.default 1 0 1 (by decide)⟩

/-- The step that loads the first map without region ids reports too few haulables. -/
theorem run_undercounts_haulables (config : Config) (g every : Nat) :
    let sim := (Request.runTicks (Simulation.new (Session.new config g)).populate
      (mapCycleTicks * (firstOverflowingMap - 2) - 1) every).2
    sim.step.1.haulables < sim.step.2.census.haulables := by
  have hcycle : mapCycleTicks = 120 := rfl
  have hN : mapCycleTicks * (firstOverflowingMap - 2) = 51539399 + 1 := rfl
  have hu := run_leaves_item_unfiled config g every
  rw [runTicks_snd, hN, Function.iterate_succ_apply'] at hu
  rw [runTicks_snd, hN, Nat.add_sub_cancel]
  obtain ⟨h, ht, hs⟩ := reporting_run config g 51539399 (0 + 64) (by decide)
    (by rw [hcycle]; decide)
  -- the run up to that step is in the state of a run, and its next step leaves an item unfiled
  generalize (fun s : Simulation => s.step.2)^[51539399]
    (Simulation.new (Session.new config g)).populate = sim at h ht hs hu ⊢
  obtain ⟨e, t, he, hk, hm, hnone⟩ := hu
  have hlm : sim.world.lastMap.toNat + 1 < 4294967296 := by
    rw [h.lastMap, ht, hcycle]
    decide
  exact step_haulables_lt h hs hlm he hk hm hnone

theorem default_step_undercounts_haulables :
    let sim := (Request.runTicks (Simulation.new (Session.new Config.default 1)).populate
      (mapCycleTicks * (firstOverflowingMap - 2) - 1) 1).2
    sim.step.1.haulables < sim.step.2.census.haulables :=
  run_undercounts_haulables Config.default 1 1

end Simulation

end ColonyCache
