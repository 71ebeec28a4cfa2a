import ColonyCache.Proofs.Simulation.Churn
/-! Loading and unloading maps keeps the thing caches tracking the world: a new map is filled
before it is in play and filed after, an unloaded map's scopes are dropped and its things forgotten. -/
namespace ColonyCache

open Std

namespace World

variable {w w' : World} {maps : List MapId}

theorem regionAt_congr_map {m : MapId} (h : w'.map? m = w.map? m) (c : Cell) :
    w'.regionAt m c = w.regionAt m c := by
  unfold map? at h
  unfold regionAt
  rw [h]

theorem harvestable_congr_map {t : Thing} (h : w'.map? t.map = w.map? t.map) :
    w'.harvestable t = w.harvestable t := by
  unfold map? at h
  unfold harvestable inGrowZone
  rw [h]

theorem sameGround_foldl {α : Type} (f : World → α → World) (hf : ∀ w a, SameGround w (f w a))
    (xs : List α) (w : World) : w.SameGround (xs.foldl f w) := by
  induction xs generalizing w with
  | nil => exact SameGround.refl w
  | cons a xs ih => exact (hf w a).trans (ih (f w a))

theorem expectedRegion_congr_maps {p p' : Thing → Bool} (ht : ∀ e, w'.thing? e = w.thing? e)
    (hm : ∀ m ∈ maps, w'.map? m = w.map? m) (hp : ∀ t, t.map ∈ maps → p' t = p t)
    (e : EntityId) : w'.expectedRegion maps p' e = w.expectedRegion maps p e := by
  unfold expectedRegion
  rw [ht]
  cases w.thing? e with
  | none => rfl
  | some t =>
    simp only [Option.bind_some]
    by_cases htm : t.map ∈ maps
    · rw [hp t htm, regionAt_congr_map (hm t.map htm)]
    · rw [if_neg fun h => htm h.2, if_neg fun h => htm h.2]

/-- Filing the things of a new map that pass the test extends a region cache to the new map. -/
theorem Files.extend {p : Thing → Bool} {c c' : RegionThings} {m : MapId} {L : List MapId}
    {room : Nat} (h : w.Files maps p c) (hs : Simulation.Settled w L room) (hm : m ∉ maps)
    (hc' : ∀ e, c'.scopeOf e = if c.scopeOf e = none ∧ ∃ t ∈ w.thingsOn m, p t = true ∧ t.id = e
      then (w.thing? e).bind (fun cur => w.regionAt cur.map cur.cell) else c.scopeOf e) :
    w.Files (maps ++ [m]) p c' := by
  intro e
  rw [hc' e, h e]
  unfold expectedRegion
  cases ht : w.thing? e with
  | none => simp
  | some t =>
    -- the only thing of the new map under the id `e` is `t` itself
    have huniq : ∀ t' ∈ w.thingsOn m, t'.id = e → t' = t := fun t' ht' hid => by
      have h' := hs.thing?_of_mem ht'
      rw [hid, ht, Option.some.injEq] at h'
      exact h'.symm
    simp only [Option.bind_some]
    by_cases htm : t.map = m
    · -- a thing of the new map was filed nowhere, and is filed now when it passes
      have hold : (if p t = true ∧ t.map ∈ maps then w.regionAt t.map t.cell else none) = none :=
        if_neg fun hq => hm (htm ▸ hq.2)
      rw [hold]
      by_cases hp : p t = true
      · have hon : t ∈ w.thingsOn m := (mem_thingsOn w).mpr ⟨e, ht, htm⟩
        have hyes : (none : Option RegionId) = none ∧
            ∃ t' ∈ w.thingsOn m, p t' = true ∧ t'.id = e := ⟨rfl, t, hon, hp, hs.key e t ht⟩
        have hin : p t = true ∧ t.map ∈ maps ++ [m] := ⟨hp, by simp [htm]⟩
        rw [if_pos hyes, if_pos hin]
      · have hno : ¬ ((none : Option RegionId) = none ∧
            ∃ t' ∈ w.thingsOn m, p t' = true ∧ t'.id = e) := by
          rintro ⟨-, t', ht', hp', hid⟩
          exact hp (huniq t' ht' hid ▸ hp')
        rw [if_neg hno, if_neg fun hq : p t = true ∧ t.map ∈ maps ++ [m] => hp hq.1]
    · -- a thing of another map keeps its filing
      have hnone : ¬ ∃ t' ∈ w.thingsOn m, p t' = true ∧ t'.id = e := by
        rintro ⟨t', ht', -, hid⟩
        obtain ⟨-, -, hmap⟩ := (mem_thingsOn w).mp ht'
        exact htm (huniq t' ht' hid ▸ hmap)
      simp [htm, hnone]

end World

namespace RegionThings

theorem scopeOf_foldl_markHarvestable (c : RegionThings) (w : World) (ts : List Thing)
    (e : EntityId) :
    (ts.foldl (fun c t => (c.markHarvestable w t).2) c).scopeOf e =
      if c.scopeOf e = none ∧ ∃ t ∈ ts, w.harvestable t = true ∧ t.id = e then
        (w.thing? e).bind fun cur => w.regionAt cur.map cur.cell
      else c.scopeOf e := by
  induction ts generalizing c with
  | nil => simp
  | cons t ts ih =>
    rw [List.foldl_cons, ih, scopeOf_markHarvestable]
    by_cases he : e = t.id
    · subst he
      by_cases hh : w.harvestable t = true
      · -- the first harvestable plant under the id files it, when it has a region
        cases hc : c.scopeOf t.id with
        | none => by_cases hr : w.regionOf t = none <;> simp [hh, hr, ← World.regionOf_eq]
        | some r => simp
      · simp [hh]
    · have hne : t.id ≠ e := Ne.symm he
      simp [he, hne]

theorem markHarvestable_of_not_plant (c : RegionThings) (w : World) {t : Thing}
    (hk : t.kind.isPlant = false) : (c.markHarvestable w t).2 = c := by
  have hh : w.harvestable t = false := by
    unfold World.harvestable
    split
    · next h => rw [h] at hk; cases hk
    · rfl
  rw [markHarvestable_eq, if_neg (by rw [hh]; decide)]

end RegionThings

namespace Session

variable {s : Session} {w w' : World} {maps : List MapId}

theorem Tracks.of_maps (h : s.Tracks w maps) (ht : ∀ e, w'.thing? e = w.thing? e)
    (hm : ∀ m ∈ maps, w'.map? m = w.map? m) : s.Tracks w' maps := by
  refine ⟨h.coherent, fun e => ?_, fun e => ?_, h.turrets.congr ht, h.nonTurrets.congr ht,
    h.animals.congr ht⟩
  · rw [h.hauling e]
    exact (World.expectedRegion_congr_maps ht hm (fun _ _ => rfl) e).symm
  · rw [h.harvest e]
    exact (World.expectedRegion_congr_maps ht hm
      (fun t htm => World.harvestable_congr_map (hm t.map htm)) e).symm

end Session

namespace Simulation

open World

variable {w : World} {maps : List MapId} {room : Nat}

theorem map?_addMap_grid (m : MapId) :
    (w.addMap mapSize mapSize regionSize).2.map? m =
      if m = ⟨w.lastMap + 1⟩ then some (grid m false) else w.map? m := by
  have hside : max mapSize 1 = mapSize := by decide
  have hsize : (fittingRegionSize mapSize.toNat mapSize.toNat regionSize.toNat).toUInt32 =
      regionSize := by decide
  rw [map?_addMap, fst_addMap]
  by_cases hm : m = ⟨w.lastMap + 1⟩
  · rw [if_pos hm.symm, if_pos hm, hside, hsize, hm]
    rfl
  · rw [if_neg (Ne.symm hm), if_neg hm]

theorem map?_setRegionsEnabled_grid {m : MapId} {b : Bool} (hm : w.map? m = some (grid m b))
    (b' : Bool) (m' : MapId) :
    (w.setRegionsEnabled m b').map? m' = if m' = m then some (grid m b') else w.map? m' := by
  rw [map?_setRegionsEnabled]
  by_cases h : m' = m
  · subst h
    rw [if_pos rfl, if_pos rfl, hm]
    rfl
  · rw [if_neg (Ne.symm h), if_neg h]

namespace Settled

theorem next_map_toNat (hlm : w.lastMap.toNat + 1 < 4294967296) :
    (⟨w.lastMap + 1⟩ : MapId).val.toNat = w.lastMap.toNat + 1 := by
  show (w.lastMap + 1).toNat = _
  rw [UInt32.toNat_add, UInt32.toNat_one]
  exact Nat.mod_eq_of_lt (by simpa using hlm)

theorem next_map_not_mem (h : Settled w maps room) (hlm : w.lastMap.toNat + 1 < 4294967296) :
    (⟨w.lastMap + 1⟩ : MapId) ∉ maps := by
  intro hm
  have := h.mapBelow _ hm
  rw [next_map_toNat hlm] at this
  omega

theorem addMap (h : Settled w maps room) (hlm : w.lastMap.toNat + 1 < 4294967296) :
    Settled (w.addMap mapSize mapSize regionSize).2 (maps ++ [⟨w.lastMap + 1⟩]) room := by
  -- the new map takes the number after the counter, which no map in play has
  have hnew := h.next_map_not_mem hlm
  refine ⟨List.nodup_append.mpr ⟨h.nodup, List.nodup_singleton _, ?_⟩, fun m => ?_,
    fun m hm => ?_, fun e t ht => h.key e t ht, fun e t ht => ?_, fun e t ht => h.below e t ht,
    h.room, fun m hm => ?_⟩
  · intro a ha b hb
    rw [List.mem_singleton] at hb
    rintro rfl
    exact hnew (hb ▸ ha)
  · rw [map?_addMap_grid, List.mem_append, List.mem_singleton]
    by_cases he : m = ⟨w.lastMap + 1⟩
    · simp [he]
    · rw [if_neg he, h.loaded m]
      simp [he]
  · rw [map?_addMap_grid]
    by_cases he : m = ⟨w.lastMap + 1⟩
    · exact ⟨false, by rw [if_pos he]⟩
    · rw [if_neg he]
      exact h.shaped m (by simpa [he] using hm)
  · obtain ⟨hm, hc⟩ := h.placed e t ht
    exact ⟨List.mem_append_left _ hm, hc⟩
  · rw [lastMap_addMap, next_map_toNat hlm]
    rcases List.mem_append.mp hm with hm | hm
    · have := h.mapBelow m hm
      omega
    · exact Nat.le_of_eq (by rw [List.mem_singleton.mp hm, next_map_toNat hlm])

theorem setRegionsEnabled (h : Settled w maps room) (m : MapId) (b : Bool) :
    Settled (w.setRegionsEnabled m b) maps room := by
  have hmap : ∀ m', ((w.setRegionsEnabled m b).map? m').isSome = (w.map? m').isSome := by
    intro m'
    rw [map?_setRegionsEnabled]
    split
    · simp
    · rfl
  refine ⟨h.nodup, fun m' => by rw [hmap]; exact h.loaded m', fun m' hm' => ?_,
    fun e t ht => h.key e t ht, fun e t ht => h.placed e t ht, fun e t ht => h.below e t ht,
    h.room, fun m' hm' => h.mapBelow m' hm'⟩
  obtain ⟨b', hb'⟩ := h.shaped m' hm'
  rw [map?_setRegionsEnabled]
  split
  · next he => subst he; exact ⟨b, by rw [hb']; rfl⟩
  · exact ⟨b', hb'⟩

theorem mapsFit (h : Settled w maps room) : w.MapsFit := by
  refine ⟨fun {m g} hg => ?_⟩
  obtain ⟨b, hb⟩ := h.shaped m ((h.loaded m).mp (by rw [hg]; rfl))
  rw [hb] at hg
  cases hg
  -- every map of the simulation is cut into sixteen regions of twelve cells a side
  exact ⟨rfl, (by decide : 0 < regionSize.toNat),
    (by decide : ceilDiv mapSize.toNat regionSize.toNat * ceilDiv mapSize.toNat regionSize.toNat ≤
      regionsPerMap)⟩

end Settled

/-! ## Filling a new map, which is not in play yet -/

/-- A simulation filling map `m`: its world is settled with `m` among its maps, and its session
tracks the maps in play, of which `m` is not one. -/
structure Filling (sim : Simulation) (m : MapId) (room : Nat) : Prop where
  settled : Settled sim.world (sim.maps ++ [m]) room
  tracks : sim.session.Tracks sim.world sim.maps

theorem Filling.not_mem {sim : Simulation} {m : MapId} (h : sim.Filling m room) : m ∉ sim.maps :=
  fun hm => (List.nodup_append.mp h.settled.nodup).2.2 m hm m (List.mem_singleton_self m) rfl

/-- A step of filling map `m` that hands out at most `used` ids and keeps the maps and the tick. -/
structure Fill (m : MapId) (sim sim' : Simulation) (used : Nat) : Prop where
  maps : sim'.maps = sim.maps
  tick : sim'.tick = sim.tick
  lastMap : sim'.world.lastMap = sim.world.lastMap
  grids : sim'.world.maps = sim.world.maps
  filling : ∀ room, sim.Filling m (room + used) → sim'.Filling m room

namespace Fill

variable {m : MapId}

theorem refl (sim : Simulation) : Fill m sim sim 0 := ⟨rfl, rfl, rfl, rfl, fun _ h => h⟩

theorem trans {sim₁ sim₂ sim₃ : Simulation} {a b : Nat} (h₁ : Fill m sim₁ sim₂ a)
    (h₂ : Fill m sim₂ sim₃ b) : Fill m sim₁ sim₃ (a + b) where
  maps := h₂.maps.trans h₁.maps
  tick := h₂.tick.trans h₁.tick
  lastMap := h₂.lastMap.trans h₁.lastMap
  grids := h₂.grids.trans h₁.grids
  filling room h := h₂.filling room (h₁.filling (room + b) (by rwa [Nat.add_assoc, Nat.add_comm b]))

theorem mono {sim sim' : Simulation} {a b : Nat} (h : Fill m sim sim' a) (hab : a ≤ b) :
    Fill m sim sim' b :=
  { h with filling := fun room hs => h.filling room ⟨hs.settled.mono (by omega), hs.tracks⟩ }

theorem foldl {β α : Type} (π : β → Simulation) (f : β → α → β) {k : Nat}
    (hf : ∀ b a, Fill m (π b) (π (f b a)) k) (xs : List α) (b : β) :
    Fill m (π b) (π (xs.foldl f b)) (k * xs.length) := by
  induction xs generalizing b with
  | nil => exact refl _
  | cons a xs ih =>
    rw [List.foldl_cons, List.length_cons, Nat.mul_succ, Nat.add_comm]
    exact (hf b a).trans (ih (f b a))

theorem of_ground {sim sim' : Simulation} (hg : sim.world.SameGround sim'.world)
    (hm : sim'.maps = sim.maps) (ht : sim'.tick = sim.tick) (hb : sim'.session.bus = sim.session.bus)
    (hr : sim'.session.regionCaches = sim.session.regionCaches)
    (hmc : sim'.session.mapCaches = sim.session.mapCaches) : Fill m sim sim' 0 where
  maps := hm
  tick := ht
  lastMap := hg.lastMap
  grids := hg.maps
  filling room h := by
    refine ⟨?_, ?_⟩
    · rw [hm]; exact h.settled.sameGround hg
    · rw [hm]; exact h.tracks.frame hg.thing? hg.maps hb hr hmc

end Fill

theorem fill_spawnScattered (sim : Simulation) (m : MapId) (k : ThingKind) (seed : UInt64) :
    Fill m sim (sim.spawnScattered m k seed).2 1 := by
  rw [spawnScattered_eq]
  refine ⟨rfl, rfl, lastMap_spawn _ _ _, maps_spawn _ _ _, fun room h => ?_⟩
  exact ⟨h.settled.spawn _ _ _, h.tracks.spawn_off h.settled h.not_mem _ _⟩

theorem fill_spawnRow (sim : Simulation) (m : MapId) (count : Nat) (kindAt : Nat → ThingKind)
    (base : UInt64) : Fill m sim (sim.spawnRow m count kindAt base).2 count := by
  unfold spawnRow
  refine (Fill.foldl (k := 1) Prod.snd _ (fun b n => ?_) (List.range count) ([], sim)).mono
    (Nat.le_of_eq (by rw [List.length_range, Nat.one_mul]))
  exact fill_spawnScattered b.2 m (kindAt n) _

theorem fill_settle (sim : Simulation) (m : MapId) (colonists : List Thing) :
    Fill m sim (sim.settle colonists) 0 := by
  unfold settle
  extract_lets w₁ w₂ w₃ w₄
  have h₁ : sim.world.SameGround w₁ :=
    sameGround_foldl _ (fun w p => sameGround_relate w _ _ _) _ _
  have h₂ : w₁.SameGround w₂ := by
    simp only [w₂]
    split
    · exact sameGround_relate _ _ _ _
    · exact World.SameGround.refl _
  have h₄ : sim.world.SameGround w₄ :=
    ((h₁.trans h₂).trans (sameGround_foldl _ (fun w c => sameGround_restrictWork w _ _) _ _)).trans
      (sameGround_foldl _ (fun w c => sameGround_restrictArea w _ _) _ _)
  split
  · -- the guest joins the host's group, which only the session's groups see
    exact Fill.of_ground (h₄.trans (sameGround_affiliate _ _ _ _)) rfl rfl rfl rfl rfl
  · exact Fill.of_ground h₄ rfl rfl rfl rfl rfl

/-! ## Filing a filled map -/

theorem warm_tells (sim : Simulation) (t : Thing) : ∃ f, sim.warm t = sim.tell f := by
  unfold warm
  split
  · exact ⟨_, rfl⟩
  · exact ⟨_, rfl⟩
  · exact ⟨_, rfl⟩
  · exact ⟨_, rfl⟩
  · exact ⟨id, rfl⟩
  · exact ⟨id, rfl⟩

theorem warm_world (sim : Simulation) (t : Thing) : (sim.warm t).world = sim.world := by
  obtain ⟨f, hf⟩ := warm_tells sim t
  rw [hf]
  rfl

theorem foldl_warm_tells (sim : Simulation) (ts : List Thing) :
    ∃ f, ts.foldl warm sim = sim.tell f := by
  induction ts generalizing sim with
  | nil => exact ⟨id, rfl⟩
  | cons t ts ih =>
    obtain ⟨f, hf⟩ := warm_tells sim t
    obtain ⟨g, hg⟩ := ih (sim.warm t)
    exact ⟨g ∘ f, by rw [List.foldl_cons, hg, hf]; rfl⟩

theorem held_warm {sim : Simulation} {maps : List MapId} (h : sim.session.Held sim.world maps)
    {t : Thing} (ht : sim.world.thing? t.id = some t) (hm : t.map ∈ maps) :
    (sim.warm t).session.Held sim.world maps := by
  unfold warm
  split
  · exact ⟨h.coherent.withRegionCache harvestablePlants false fun c hc =>
      RegionThings.Inv.markHarvestable hc _ t,
      h.turrets, h.nonTurrets, h.animals⟩
  · next hk => exact h.markRefuelable ht (.inl hk) hm
  · next hk => exact h.markRefuelable ht (.inr hk) hm
  · exact h.markAnimal ht hm
  · exact h
  · exact h

theorem regionCache_warm {sim : Simulation} (hs : sim.session.Coherent) (t : Thing) (n : String) :
    (sim.warm t).session.regionCache n = if n = harvestablePlants then
      ((sim.session.regionCache n).markHarvestable sim.world t).2 else sim.session.regionCache n := by
  have hreg := hs.regionRegistered (n := harvestablePlants) (by simp)
  -- a thing that is no plant leaves the harvest as it was
  have hkeep : ∀ s : Session, s.regionCaches = sim.session.regionCaches →
      t.kind.isPlant = false → s.regionCache n = if n = harvestablePlants then
        ((sim.session.regionCache n).markHarvestable sim.world t).2
      else sim.session.regionCache n := by
    intro s hr hk
    rw [RegionThings.markHarvestable_of_not_plant _ _ hk, ite_self, Session.regionCache,
      Session.regionCache, hr]
  unfold warm
  split
  · exact Session.regionCache_withRegionCache hreg false _ n
  · next hk => exact hkeep _ rfl (by rw [hk]; rfl)
  · next hk => exact hkeep _ rfl (by rw [hk]; rfl)
  · next hk => exact hkeep _ rfl (by rw [hk]; rfl)
  · next hk => exact hkeep _ rfl (by rw [hk]; rfl)
  · next hk => exact hkeep _ rfl (by rw [hk]; rfl)

theorem foldl_warm {maps : List MapId} (sim : Simulation) (ts : List Thing)
    (hts : ∀ t ∈ ts, sim.world.thing? t.id = some t ∧ t.map ∈ maps)
    (h : sim.session.Held sim.world maps) :
    (ts.foldl warm sim).session.Held sim.world maps ∧
      ∀ n, (ts.foldl warm sim).session.regionCache n = if n = harvestablePlants then
        ts.foldl (fun c t => (c.markHarvestable sim.world t).2) (sim.session.regionCache n)
      else sim.session.regionCache n := by
  induction ts generalizing sim with
  | nil => exact ⟨h, fun n => (ite_self _).symm⟩
  | cons t ts ih =>
    obtain ⟨ht, hm⟩ := hts t (List.mem_cons_self ..)
    have hw := warm_world sim t
    have h₁ := held_warm h ht hm
    rw [← hw] at h₁
    obtain ⟨hheld, hreg⟩ := ih (sim.warm t)
      (fun t' ht' => by rw [hw]; exact hts t' (List.mem_cons_of_mem t ht')) h₁
    rw [hw] at hheld hreg
    refine ⟨hheld, fun n => ?_⟩
    rw [List.foldl_cons, hreg n, regionCache_warm h.coherent t n]
    by_cases hn : n = harvestablePlants <;> simp [hn]

theorem tracks_fileMap {sim : Simulation} {m : MapId} {room : Nat} (h : sim.Filling m room) :
    ((sim.world.thingsOn m).foldl warm
      (sim.tell fun s => (s.addAllHaulables sim.world m).2)).session.Tracks sim.world
      (sim.maps ++ [m]) := by
  have hc := h.tracks.coherent
  have hreg := hc.regionRegistered (n := haulableItems) (by simp)
  have hrc := Session.regionCache_withRegionCache hreg 0 (fun c => c.addAllItems sim.world m)
  have hsub : ∀ m' ∈ sim.maps, m' ∈ sim.maps ++ [m] := fun m' hm' => List.mem_append_left _ hm'
  -- filing the items touches no map cache
  have hheld : (sim.tell fun s => (s.addAllHaulables sim.world m).2).session.Held sim.world
      (sim.maps ++ [m]) :=
    ⟨hc.withRegionCache haulableItems 0 fun c hc => RegionThings.Inv.addAllItems hc _ _,
      h.tracks.turrets.mono hsub,
      h.tracks.nonTurrets.mono hsub, h.tracks.animals.mono hsub⟩
  have hthings : ∀ t ∈ sim.world.thingsOn m, sim.world.thing? t.id = some t ∧
      t.map ∈ sim.maps ++ [m] := fun t ht => by
    obtain ⟨-, -, htm⟩ := (mem_thingsOn _).mp ht
    exact ⟨h.settled.thing?_of_mem ht, by simp [htm]⟩
  obtain ⟨hfin, hregs⟩ := foldl_warm (sim.tell fun s => (s.addAllHaulables sim.world m).2)
    (sim.world.thingsOn m) hthings hheld
  refine ⟨hfin.coherent, ?_, ?_, hfin.turrets, hfin.nonTurrets, hfin.animals⟩
  · -- the hauling cache is the one that filed the map's items
    rw [hregs, if_neg (by decide)]
    show sim.world.Files _ _ ((sim.session.addAllHaulables sim.world m).2.regionCache haulableItems)
    rw [Session.addAllHaulables, hrc, if_pos rfl]
    refine h.tracks.hauling.extend h.settled h.not_mem fun e => ?_
    rw [RegionThings.scopeOf_addAllItems]
    simp only [beq_iff_eq]
  · -- the harvest cache is the one the warming filed the map's plants in
    rw [hregs, if_pos rfl]
    show sim.world.Files _ _ (List.foldl _ ((sim.session.addAllHaulables sim.world m).2.regionCache
      harvestablePlants) _)
    rw [Session.addAllHaulables, hrc, if_neg (by decide)]
    exact h.tracks.harvest.extend h.settled h.not_mem fun e =>
      RegionThings.scopeOf_foldl_markHarvestable _ _ _ e

/-! ## Loading a map -/

/-- What loading map `m` leaves: the maps in play and the tick stay, and `m` is laid out with its
regions in use, the simulation steady with it in play. -/
structure Loaded (sim : Simulation) (m : MapId) (sim' : Simulation) (room : Nat) : Prop where
  id : m = ⟨sim.world.lastMap + 1⟩
  maps : sim'.maps = sim.maps
  tick : sim'.tick = sim.tick
  lastMap : sim'.world.lastMap = sim.world.lastMap + 1
  grid : sim'.world.map? m = some (grid m true)
  others : ∀ m', m' ≠ m → sim'.world.map? m' = sim.world.map? m'
  steady : { sim' with maps := sim.maps ++ [m] }.Steady room

theorem loaded_loadMap (sim : Simulation) {room : Nat} (h : sim.Steady (room + 56))
    (hlm : sim.world.lastMap.toNat + 1 < 4294967296) :
    Loaded sim sim.loadMap.1 sim.loadMap.2 room := by
  have hnew := h.settled.next_map_not_mem hlm
  unfold loadMap
  rcases ha : sim.world.addMap mapSize mapSize regionSize with ⟨m, w₀⟩
  have hm : m = ⟨sim.world.lastMap + 1⟩ := by
    rw [← fst_addMap (w := sim.world) mapSize mapSize regionSize, ha]
  have hw₀ : (sim.world.addMap mapSize mapSize regionSize).2 = w₀ := by rw [ha]
  have hmap₀ : ∀ m', w₀.map? m' = if m' = m then some (grid m' false) else sim.world.map? m' := by
    intro m'
    rw [← hw₀, map?_addMap_grid, hm]
  -- the new map is settled among the maps, and is not in play
  have f₀ : ({ sim with world := w₀ } : Simulation).Filling m (room + 56) := by
    refine ⟨?_, h.tracks.of_maps (fun _ => by rw [← hw₀]; rfl) fun m' hm' => ?_⟩
    · rw [← hw₀, hm]; exact h.settled.addMap hlm
    · rw [hmap₀, if_neg fun (he : m' = m) => hnew (by rw [← hm, ← he]; exact hm')]
  dsimp only
  -- filling it: six colonists, six animals, sixteen plants, twenty-four items, two turrets and
  -- two generators, then the colonists' ties
  rcases h₁ : ({ sim with world := w₀ } : Simulation).spawnRow m 6 (fun _ => .colonist)
    (m.val.toUInt64 <<< 32) with ⟨colonists, sim₁⟩
  rcases h₂ : sim₁.spawnRow m 6 (fun n => .animal (if n % 2 == 0 then .milk else .wool))
    (m.val.toUInt64 <<< 32 + 100) with ⟨_, sim₂⟩
  rcases h₃ : sim₂.spawnRow m 16 (fun n => .plant (species.getD (n % 4) .rice))
    (m.val.toUInt64 <<< 32 + 200) with ⟨_, sim₃⟩
  rcases h₄ : sim₃.spawnRow m 24 (fun _ => .item) (m.val.toUInt64 <<< 32 + 300) with ⟨_, sim₄⟩
  dsimp only
  generalize h₅ : (List.range 2).foldl _ sim₄ = sim₅
  have F : Fill m { sim with world := w₀ } (sim₅.settle colonists) 56 := by
    have f₁ := fill_spawnRow { sim with world := w₀ } m 6 (fun _ => .colonist)
      (m.val.toUInt64 <<< 32)
    have f₂ := fill_spawnRow sim₁ m 6 (fun n => .animal (if n % 2 == 0 then .milk else .wool))
      (m.val.toUInt64 <<< 32 + 100)
    have f₃ := fill_spawnRow sim₂ m 16 (fun n => .plant (species.getD (n % 4) .rice))
      (m.val.toUInt64 <<< 32 + 200)
    have f₄ := fill_spawnRow sim₃ m 24 (fun _ => .item) (m.val.toUInt64 <<< 32 + 300)
    rw [h₁] at f₁
    rw [h₂] at f₂
    rw [h₃] at f₃
    rw [h₄] at f₄
    have f₅ : Fill m sim₄ sim₅ 4 := by
      rw [← h₅]
      exact Fill.foldl id _ (fun b n => (fill_spawnScattered b m .turret _).trans
        (fill_spawnScattered _ m .generator _)) (List.range 2) sim₄
    exact ((((f₁.trans f₂).trans f₃).trans f₄).trans f₅).trans (fill_settle sim₅ m colonists)
  generalize sim₅.settle colonists = sim₆ at F ⊢
  have h₆ := F.filling room f₀
  have hmap₆ : ∀ m', sim₆.world.map? m' = w₀.map? m' := fun m' => by
    simp only [World.map?, F.grids]
  -- putting its regions in use changes no other map
  have hgrid : sim₆.world.map? m = some (grid m false) := by rw [hmap₆, hmap₀, if_pos rfl]
  have hmap₇ := map?_setRegionsEnabled_grid hgrid true
  have h₇ : ({ sim₆ with world := sim₆.world.setRegionsEnabled m true } : Simulation).Filling m
      room := by
    refine ⟨h₆.settled.setRegionsEnabled m true,
      h₆.tracks.of_maps (fun _ => rfl) fun m' hm' => ?_⟩
    rw [hmap₇, if_neg fun (he : m' = m) => h₆.not_mem (he ▸ hm')]
  -- filing it: the world and the maps in play stay as they were
  set sim₈ := ({ sim₆ with world := sim₆.world.setRegionsEnabled m true } : Simulation).tell
    fun s => (s.addAllHaulables (sim₆.world.setRegionsEnabled m true) m).2
  obtain ⟨f, hf⟩ := foldl_warm_tells sim₈ (sim₈.world.thingsOn m)
  have htr : ((sim₈.world.thingsOn m).foldl warm sim₈).session.Tracks sim₈.world
      (sim₈.maps ++ [m]) := tracks_fileMap h₇
  have hmaps₆ : sim₆.maps = sim.maps := F.maps
  rw [hf] at htr ⊢
  refine ⟨hm, hmaps₆, F.tick, ?_, ?_, fun m' hm' => ?_, ⟨?_, ?_⟩⟩
  · show (sim₆.world.setRegionsEnabled m true).lastMap = _
    rw [lastMap_setRegionsEnabled, F.lastMap, ← hw₀, lastMap_addMap]
  · show (sim₆.world.setRegionsEnabled m true).map? m = _
    rw [hmap₇, if_pos rfl]
  · show (sim₆.world.setRegionsEnabled m true).map? m' = _
    rw [hmap₇, if_neg hm', hmap₆, hmap₀, if_neg hm']
  · show Settled (sim₆.world.setRegionsEnabled m true) (sim.maps ++ [m]) room
    rw [← hmaps₆]
    exact h₇.settled
  · show (f _).Tracks (sim₆.world.setRegionsEnabled m true) (sim.maps ++ [m])
    rw [← hmaps₆]
    exact htr

end Simulation

/-! ## Unloading a map: no region of another map is among its regions -/

namespace RegionThings

theorem scopeOf_foldl_removeScope {c : RegionThings} (hc : c.Inv) (rs : List RegionId)
    (e : EntityId) :
    (rs.foldl (fun c r => (c.removeScope r).2) c).scopeOf e =
      if ∃ r ∈ rs, c.scopeOf e = some r then none else c.scopeOf e := by
  induction rs generalizing c with
  | nil => simp
  | cons r rs ih =>
    rw [List.foldl_cons, ih (hc.removeScope r), ScopedCache.scopeOf_removeScope hc]
    by_cases hr : c.scopeOf e = some r <;> simp [hr]

end RegionThings

namespace World

variable {w w' : World} {rest : List MapId} {old : MapId}

theorem despawn_of_thing?_none {e : EntityId} (h : w.thing? e = none) : w.despawn e = (none, w) := by
  unfold despawn
  rw [show w.things.get? e = none from h]

theorem mem_regionsOf_of_regionAt (hw : w.MapsFit) {m : MapId} {c : Cell} {r : RegionId}
    (h : w.regionAt m c = some r) : r ∈ w.regionsOf m := by
  obtain ⟨g, hm, hg⟩ := regionAt_eq_some h
  obtain ⟨he, hc, -⟩ := MapGrid.regionAt_eq_some hg
  rw [regionsOf_of_map? hm]
  exact ((hw.fits hm).2.mem_regions_iff_regionAt he).mpr ⟨c, hc, hg⟩

/-- Dropping the regions of an unloaded map leaves a region cache that files for the maps still
in play. -/
theorem Files.unload {p p' : Thing → Bool} {c : RegionThings} (h : w.Files (rest ++ [old]) p c)
    (hc : c.Inv) (hw : w.MapsFit)
    (ht : ∀ e, w'.thing? e = if (w.thing? e).any (·.map == old) then none else w.thing? e)
    (hm : ∀ m ∈ rest, w'.map? m = w.map? m) (hp : ∀ t, t.map ∈ rest → p' t = p t) :
    w'.Files rest p' ((w.regionsOf old).foldl (fun c r => (c.removeScope r).2) c) := by
  intro e
  rw [RegionThings.scopeOf_foldl_removeScope hc, h e, expectedRegion, expectedRegion, ht e]
  cases hte : w.thing? e with
  | none => simp
  | some t =>
    simp only [Option.bind_some, Option.any_some]
    -- what the cache held for `e`: the region of its cell, when it passed and stood in play
    generalize hx : (if p t = true ∧ t.map ∈ rest ++ [old] then w.regionAt t.map t.cell
      else none) = x
    have hreg : ∀ r, x = some r → w.regionAt t.map t.cell = some r := fun r hr => by
      rw [← hx] at hr
      split at hr
      · exact hr
      · cases hr
    by_cases htm : t.map = old
    · -- a thing of the unloaded map is forgotten, and the region it was filed under dropped
      have hgone : (if (t.map == old) = true then none else some t) = none := if_pos (by simp [htm])
      rw [hgone, Option.bind_none]
      cases x with
      | none => simp
      | some r =>
        have hr := mem_regionsOf_of_regionAt hw (htm ▸ hreg r rfl)
        simp [hr]
    · -- a thing of a map still in play: its region is no region of the unloaded map
      have hkeep : ¬ ∃ r ∈ w.regionsOf old, x = some r := by
        rintro ⟨r, hr, hxr⟩
        exact htm (hw.eq_of_mem_regionsOf hr (hreg r hxr))
      have hstay : (if (t.map == old) = true then none else some t) = some t :=
        if_neg (by simp [htm])
      rw [if_neg hkeep, hstay, Option.bind_some, ← hx]
      by_cases hmr : t.map ∈ rest
      · rw [hp t hmr, regionAt_congr_map (hm t.map hmr)]
        simp [hmr]
      · simp [hmr, htm]

theorem Holds.unload {p : ThingKind → Bool} {c : MapThings} (h : w.Holds (rest ++ [old]) p c)
    (hc : c.Inv)
    (ht : ∀ e, w'.thing? e = if (w.thing? e).any (·.map == old) then none else w.thing? e) :
    w'.Holds rest p (c.removeScope old).2 := by
  intro e m he
  rw [ScopedCache.scopeOf_removeScope hc] at he
  split at he
  · cases he
  · next hne =>
    obtain ⟨t, hte, hk, htm, hm⟩ := h e m he
    -- the thing stands on a map still in play, so the world kept it
    have hmo : m ≠ old := fun hmo => hne (hmo ▸ he)
    refine ⟨t, ?_, hk, htm, (List.mem_append.mp hm).resolve_right (by simpa using hmo)⟩
    rw [ht e, hte]
    simp [htm, hmo]

end World

namespace Simulation

open World

variable {w : World} {rest : List MapId} {old : MapId} {room : Nat}

theorem Settled.removeMap (h : Settled w (rest ++ [old]) room) :
    Settled (w.removeMap old).2 rest room := by
  have hold : (w.map? old).isSome := (h.loaded old).mpr (by simp)
  obtain ⟨-, hthing, hlast, hlm⟩ := w.removeMap_of_map? hold h.key
  have hnot : old ∉ rest :=
    fun hm => (List.nodup_append.mp h.nodup).2.2 old hm old (List.mem_singleton_self old) rfl
  -- what the world keeps: records not on the unloaded map
  have hkept : ∀ e t, (w.removeMap old).2.thing? e = some t → w.thing? e = some t ∧ t.map ≠ old := by
    intro e t ht
    rw [hthing] at ht
    split at ht
    · cases ht
    · next hno =>
      refine ⟨ht, fun htm => hno ?_⟩
      rw [ht]
      simp [htm]
  refine ⟨(List.nodup_append.mp h.nodup).1, fun m => ?_, fun m hm => ?_, fun e t ht => ?_,
    fun e t ht => ?_, fun e t ht => ?_, by rw [hlast]; exact h.room,
    fun m hm => by rw [hlm]; exact h.mapBelow m (List.mem_append_left _ hm)⟩
  · rw [map?_removeMap]
    split
    · next he => subst he; simp [hnot]
    · next he => rw [h.loaded m]; simp [Ne.symm he]
  · rw [map?_removeMap, if_neg fun (he : old = m) => hnot (he ▸ hm)]
    exact h.shaped m (List.mem_append_left _ hm)
  · exact h.key e t (hkept e t ht).1
  · obtain ⟨ht, hto⟩ := hkept e t ht
    obtain ⟨hm, hc⟩ := h.placed e t ht
    exact ⟨(List.mem_append.mp hm).resolve_right (by simpa using hto), hc⟩
  · rw [hlast]; exact h.below e t (hkept e t ht).1

end Simulation

namespace Session

open World Simulation

variable {s : Session} {w : World} {maps rest : List MapId} {old : MapId} {room : Nat}

theorem Tracks.unload (h : s.Tracks w (rest ++ [old])) (hs : Settled w (rest ++ [old]) room) :
    (s.mapRemoved old (w.regionsOf old)).2.Tracks (w.removeMap old).2 rest := by
  have hold : (w.map? old).isSome := (hs.loaded old).mpr (by simp)
  obtain ⟨-, hthing, -, -⟩ := w.removeMap_of_map? hold hs.key
  have hnot : old ∉ rest :=
    fun hm => (List.nodup_append.mp hs.nodup).2.2 old hm old (List.mem_singleton_self old) rfl
  -- the maps still in play keep their grids, so what the caches file for them stays right
  have hm : ∀ m ∈ rest, (w.removeMap old).2.map? m = w.map? m := fun m hm => by
    rw [map?_removeMap, if_neg fun (he : old = m) => hnot (he ▸ hm)]
  have hw := hs.mapsFit
  have hc := h.coherent
  refine ⟨hc.mapRemoved _ _, ?_, ?_, ?_, ?_, ?_⟩
  · rw [regionCache_mapRemoved]
    exact h.hauling.unload (hc.regionCache_inv _) hw hthing hm fun _ _ => rfl
  · rw [regionCache_mapRemoved]
    exact h.harvest.unload (hc.regionCache_inv _) hw hthing hm
      fun t htm => harvestable_congr_map (hm t.map htm)
  · rw [mapCache_mapRemoved]; exact h.turrets.unload (hc.mapCache_inv _) hthing
  · rw [mapCache_mapRemoved]; exact h.nonTurrets.unload (hc.mapCache_inv _) hthing
  · rw [mapCache_mapRemoved]; exact h.animals.unload (hc.mapCache_inv _) hthing

theorem Tracks.purge (h : s.Tracks w maps) {e : EntityId} (he : w.thing? e = none) :
    ((s.spatialItemRemoved e).entityRemoved e).Tracks w maps := by
  have h₁ := (h.spatialItemRemoved e).entityRemoved e
  simpa only [despawn_of_thing?_none he] using h₁

theorem Tracks.foldl_purge (h : s.Tracks w maps) (ts : List Thing)
    (hts : ∀ t ∈ ts, w.thing? t.id = none) :
    (ts.foldl (fun s (t : Thing) => (s.spatialItemRemoved t.id).entityRemoved t.id) s).Tracks w
      maps := by
  induction ts generalizing s with
  | nil => exact h
  | cons t ts ih =>
    exact ih (h.purge (hts t (List.mem_cons_self ..))) fun t' ht' =>
      hts t' (List.mem_cons_of_mem t ht')

theorem scopeOf_regionCache_new (config : Config) (g : Nat) (n : String) (e : EntityId) :
    ((Session.new config g).regionCache n).scopeOf e = none := by
  have hr : (Session.new config g).regionCaches.entries =
      [(haulableItems, {}), (harvestablePlants, {})] := rfl
  unfold regionCache
  cases hc : (Session.new config g).regionCaches.get? n with
  | none => exact ScopedCache.scopeOf_empty e
  | some c =>
    have hmem := Registry.mem_of_get? hc
    rw [hr] at hmem
    rcases List.mem_pair.mp hmem with h | h <;> cases h <;> exact ScopedCache.scopeOf_empty e

theorem scopeOf_mapCache_new (config : Config) (g : Nat) (n : String) (e : EntityId) :
    ((Session.new config g).mapCache n).scopeOf e = none := by
  have hm : (Session.new config g).mapCaches.entries =
      [(refuelableTurrets, {}), (refuelableNonTurrets, {}), (colonyAnimals, {})] := rfl
  unfold mapCache
  cases hc : (Session.new config g).mapCaches.get? n with
  | none => exact ScopedCache.scopeOf_empty e
  | some c =>
    have hmem := Registry.mem_of_get? hc
    rw [hm] at hmem
    simp only [List.mem_cons, List.not_mem_nil, or_false] at hmem
    rcases hmem with h | h | h <;> cases h <;> exact ScopedCache.scopeOf_empty e

end Session

namespace Simulation

open World

variable {room : Nat}

/-- Every map in play is laid out as the simulation lays maps out, with its regions in use. -/
def Enabled (sim : Simulation) : Prop := ∀ m ∈ sim.maps, sim.world.map? m = some (grid m true)

/-- `sim'` plays `rest` and after them the next map of `sim`, laid out and in use, at its tick. -/
structure Grows (sim : Simulation) (rest : List MapId) (sim' : Simulation) (room : Nat) : Prop where
  maps : sim'.maps = rest ++ [⟨sim.world.lastMap + 1⟩]
  tick : sim'.tick = sim.tick
  lastMap : sim'.world.lastMap = sim.world.lastMap + 1
  enabled : sim'.Enabled
  steady : sim'.Steady room

theorem grows_loadMap (sim : Simulation) {m : MapId} {sim' : Simulation}
    (hl : sim.loadMap = (m, sim')) (h : sim.Steady (room + 56))
    (hlm : sim.world.lastMap.toNat + 1 < 4294967296) (he : sim.Enabled) :
    Grows sim sim.maps { sim' with maps := sim'.maps ++ [m] } room := by
  have hd : Loaded sim m sim' room := by
    have hd := loaded_loadMap sim h hlm
    rwa [hl] at hd
  have hnew := h.settled.next_map_not_mem hlm
  refine ⟨?_, hd.tick, hd.lastMap, fun m' hm => ?_, ?_⟩
  · show sim'.maps ++ [m] = _
    rw [hd.maps, hd.id]
  · show sim'.world.map? m' = _
    rcases List.mem_append.mp hm with hin | hin
    · -- a map that was in play stays as it was
      rw [hd.maps] at hin
      have hne : m' ≠ m := by
        rintro rfl
        rw [hd.id] at hin
        exact hnew hin
      rw [hd.others m' hne]
      exact he m' hin
    · rw [List.mem_singleton.mp hin]
      exact hd.grid
  · have hs := hd.steady
    rwa [← hd.maps] at hs

theorem grows_cycleMap (sim : Simulation) {rest : List MapId} {old : MapId}
    (hmaps : sim.maps = rest ++ [old]) (h : sim.Steady (room + 56))
    (hlm : sim.world.lastMap.toNat + 1 < 4294967296) (he : sim.Enabled) :
    Grows sim rest sim.cycleMap room := by
  have hs : Settled sim.world (rest ++ [old]) (room + 56) := hmaps ▸ h.settled
  have ht : sim.session.Tracks sim.world (rest ++ [old]) := hmaps ▸ h.tracks
  have hold : (sim.world.map? old).isSome := (hs.loaded old).mpr (by simp)
  obtain ⟨hgone, hthing, hlast, hlm'⟩ := sim.world.removeMap_of_map? hold hs.key
  have hnot : old ∉ rest :=
    fun hm => (List.nodup_append.mp hs.nodup).2.2 old hm old (List.mem_singleton_self old) rfl
  unfold cycleMap
  rw [hmaps, List.getLast?_concat]
  dsimp only [tell]
  rw [List.dropLast_concat]
  rcases hr : sim.world.removeMap old with ⟨gone, w⟩
  rw [hr] at hgone hthing hlast hlm'
  dsimp only at hgone hthing hlast hlm' ⊢
  generalize hl : Simulation.loadMap _ = r
  obtain ⟨m, sim'⟩ := r
  -- the simulation once the old map is gone: steady on the maps left, with the same counters
  set s₃ := gone.foldl (fun s (t : Thing) => (s.spatialItemRemoved t.id).entityRemoved t.id)
    (sim.session.mapRemoved old (sim.world.regionsOf old)).2
  set sim₃ : Simulation := { world := w, maps := rest, tick := sim.tick, session := s₃ }
  have h₃ : sim₃.Steady (room + 56) := by
    refine ⟨?_, ?_⟩
    · show Settled w rest (room + 56)
      have hu := hs.removeMap
      rwa [hr] at hu
    · show s₃.Tracks w rest
      have hu := ht.unload hs
      rw [hr] at hu
      refine hu.foldl_purge gone fun t htg => ?_
      -- every thing of the old map is forgotten
      rw [hgone] at htg
      obtain ⟨-, -, htm⟩ := (mem_thingsOn _).mp htg
      rw [hthing, hs.thing?_of_mem htg]
      simp [htm]
  have he₃ : sim₃.Enabled := fun m hm => by
    show w.map? m = _
    have hmap := map?_removeMap sim.world old m
    rw [hr] at hmap
    have hne : ¬old = m := fun he' => hnot (he' ▸ hm)
    rw [hmap, if_neg hne]
    exact he m (by rw [hmaps]; exact List.mem_append_left _ hm)
  have hlm₃ : sim₃.world.lastMap.toNat + 1 < 4294967296 := by
    show w.lastMap.toNat + 1 < _
    rw [hlm']
    exact hlm
  have g := grows_loadMap sim₃ hl h₃ hlm₃ he₃
  have hlast₃ : sim₃.world.lastMap = sim.world.lastMap := hlm'
  refine ⟨?_, g.tick, ?_, g.enabled, g.steady⟩
  · rw [g.maps, hlast₃]
  · rw [g.lastMap, hlast₃]

theorem steady_new (config : Config) (g : Nat) {room : Nat} (hroom : room < 4294967296) :
    (Simulation.new (Session.new config g)).Steady room := by
  have hnone : ∀ e, (Simulation.new (Session.new config g)).world.thing? e = none := fun _ => rfl
  have hmap : ∀ m, (Simulation.new (Session.new config g)).world.map? m = none := fun _ => rfl
  have hmaps : (Simulation.new (Session.new config g)).maps = [] := rfl
  have hsession : (Simulation.new (Session.new config g)).session = Session.new config g := rfl
  have hlast : (Simulation.new (Session.new config g)).world.lastEntity.toNat = 0 := rfl
  refine ⟨⟨?_, fun m => ?_, fun m hm => ?_, fun e t ht => ?_, fun e t ht => ?_,
    fun e t ht => ?_, ?_, fun m hm => ?_⟩, ⟨?_, fun e => ?_, fun e => ?_, fun e m he => ?_,
      fun e m he => ?_, fun e m he => ?_⟩⟩
  all_goals simp only [hmaps, hsession] at *
  -- the world is empty: no map is loaded and no thing lives
  · exact List.nodup_nil
  · simp [hmap]
  · cases hm
  · rw [hnone] at ht; cases ht
  · rw [hnone] at ht; cases ht
  · rw [hnone] at ht; cases ht
  · omega
  · cases hm
  -- and the session has filed nothing
  · exact Session.Coherent.new config g
  · exact Session.scopeOf_regionCache_new config g _ e
  · exact Session.scopeOf_regionCache_new config g _ e
  · rw [Session.scopeOf_mapCache_new] at he; cases he
  · rw [Session.scopeOf_mapCache_new] at he; cases he
  · rw [Session.scopeOf_mapCache_new] at he; cases he

end Simulation

end ColonyCache
