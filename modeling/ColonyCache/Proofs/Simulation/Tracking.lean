import ColonyCache.Proofs.Session.Scopes
import ColonyCache.Simulation.Report
/-! What the thing caches of a session should hold while a simulation runs, and what each change
of the world, told to the session as the simulation tells it, does to that. -/
namespace ColonyCache

open Std

namespace Simulation

/-- A map of the simulation: `mapSize` cells a side, cut into regions `regionSize` cells a side. -/
def grid (m : MapId) (enabled : Bool) : MapGrid := ⟨m, mapSize, mapSize, regionSize, enabled⟩

def onMap (c : Cell) : Bool := c.x < mapSize && c.z < mapSize

/-- The first map id whose region ids do not fit in 32 bits: `429497 * 10000` is past `2 ^ 32`. -/
def firstOverflowingMap : Nat := 429497

theorem contains_grid (m : MapId) (b : Bool) (c : Cell) : (grid m b).contains c = onMap c := rfl

theorem isSome_regionAt_grid (m : MapId) (b : Bool) {c : Cell} (hc : onMap c = true) :
    ((grid m b).regionAt c).isSome = (b && decide (m.val.toNat < firstOverflowingMap)) := by
  have hxz : c.x.toNat < 48 ∧ c.z.toNat < 48 := by
    simpa [onMap, mapSize, UInt32.lt_iff_toNat_lt] using hc
  -- the local number of a cell is one of the sixteen regions of a map
  have hl : c.z.toNat / 12 * 4 + c.x.toNat / 12 < 16 := by omega
  have hbound : (m.val.toNat * regionsPerMap + (c.z.toNat / 12 * 4 + c.x.toNat / 12) <
      Nat.pow 2 32) ↔ m.val.toNat < firstOverflowingMap := by
    rw [show regionsPerMap = 10000 from rfl, show Nat.pow 2 32 = 4294967296 from rfl,
      firstOverflowingMap]
    omega
  have hsize : regionSize.toNat = 12 := rfl
  have hcols : (grid m b).columns = 4 := (by decide : ceilDiv mapSize.toNat regionSize.toNat = 4)
  cases b with
  | false => rfl
  | true =>
    simp only [MapGrid.regionAt, contains_grid, hc, hcols]
    simp only [grid, hsize, Bool.and_self, if_true, regionId]
    have hl' : c.z.toNat / 12 * 4 + c.x.toNat / 12 < regionsPerMap := by
      rw [show regionsPerMap = 10000 from rfl]; omega
    by_cases hm : m.val.toNat < firstOverflowingMap
    · simp [hl', hbound.mpr hm, hm]
    · simp [hm, mt hbound.mp hm]

/-- The world of a simulation: the maps `maps` laid out as the simulation lays them out, every
record under its own id at a cell of one of them, and room for `room` more ids. -/
structure Settled (w : World) (maps : List MapId) (room : Nat) : Prop where
  nodup : maps.Nodup
  loaded : ∀ m, (w.map? m).isSome ↔ m ∈ maps
  shaped : ∀ m ∈ maps, ∃ b, w.map? m = some (grid m b)
  key : ∀ e t, w.thing? e = some t → t.id = e
  placed : ∀ e t, w.thing? e = some t → t.map ∈ maps ∧ onMap t.cell = true
  below : ∀ e t, w.thing? e = some t → e.val.toNat ≤ w.lastEntity.toNat
  room : w.lastEntity.toNat + room < 4294967296
  mapBelow : ∀ m ∈ maps, m.val.toNat ≤ w.lastMap.toNat

namespace Settled

variable {w : World} {maps : List MapId} {room : Nat}

theorem mono (h : Settled w maps room) {room' : Nat} (hr : room' ≤ room) :
    Settled w maps room' :=
  { h with room := by have := h.room; omega }

theorem next_toNat (h : Settled w maps (room + 1)) :
    (w.lastEntity + 1).toNat = w.lastEntity.toNat + 1 := by
  have hr := h.room
  rw [UInt32.toNat_add, UInt32.toNat_one]
  exact Nat.mod_eq_of_lt (by simpa using (by omega : w.lastEntity.toNat + 1 < 4294967296))

theorem fresh (h : Settled w maps (room + 1)) : w.thing? ⟨w.lastEntity + 1⟩ = none := by
  cases ht : w.thing? ⟨w.lastEntity + 1⟩ with
  | none => rfl
  | some t =>
    have hb := h.below _ _ ht
    have hnext := h.next_toNat
    simp only [hnext] at hb
    omega

theorem regionAt_isSome (h : Settled w maps room) {e : EntityId} {t : Thing}
    (ht : w.thing? e = some t) : ∃ b, (w.regionAt t.map t.cell).isSome =
      (b && decide (t.map.val.toNat < firstOverflowingMap)) ∧
      w.map? t.map = some (grid t.map b) := by
  obtain ⟨hm, hc⟩ := h.placed e t ht
  obtain ⟨b, hg⟩ := h.shaped t.map hm
  exact ⟨b, by rw [World.regionAt_of_map? hg, isSome_regionAt_grid _ _ hc], hg⟩

theorem of_records (h : Settled w maps room) {w' : World} {room' : Nat} (hm : w'.maps = w.maps)
    (hle : w.lastEntity.toNat ≤ w'.lastEntity.toNat)
    (hroom : w'.lastEntity.toNat + room' < 4294967296) (hlm : w'.lastMap = w.lastMap)
    (ht : ∀ e t', w'.thing? e = some t' →
      ∃ t, w.thing? e = some t ∧ t'.id = t.id ∧ t'.map = t.map ∧ onMap t'.cell = true) :
    Settled w' maps room' := by
  have hmap : w'.map? = w.map? := by
    funext m
    rw [World.map?, World.map?, hm]
  refine ⟨h.nodup, fun m => ?_, fun m hm' => ?_, fun e t' h' => ?_, fun e t' h' => ?_,
    fun e t' h' => ?_, hroom, fun m hm' => ?_⟩
  · rw [hmap]; exact h.loaded m
  · rw [hmap]; exact h.shaped m hm'
  · obtain ⟨t, ht, hid, -, -⟩ := ht e t' h'
    rw [hid]; exact h.key e t ht
  · obtain ⟨t, ht, -, hmt, hc⟩ := ht e t' h'
    rw [hmt]; exact ⟨(h.placed e t ht).1, hc⟩
  · obtain ⟨t, ht, -, -, -⟩ := ht e t' h'
    have := h.below e t ht
    omega
  · rw [hlm]; exact h.mapBelow m hm'

theorem sameGround (h : Settled w maps room) {w' : World} (hg : w.SameGround w') :
    Settled w' maps room :=
  h.of_records hg.maps (Nat.le_of_eq (by rw [hg.lastEntity])) (by rw [hg.lastEntity]; exact h.room)
    hg.lastMap
    fun e t' h' => by
      rw [hg.thing?] at h'
      exact ⟨t', h', rfl, rfl, (h.placed e t' h').2⟩

theorem despawn (h : Settled w maps room) (e : EntityId) : Settled (w.despawn e).2 maps room :=
  h.of_records (World.maps_despawn w e) (Nat.le_of_eq (by rw [World.lastEntity_despawn]))
    (by rw [World.lastEntity_despawn]; exact h.room) (World.lastMap_despawn w e)
    fun e' t' h' => by
      rw [World.thing?_despawn] at h'
      split at h'
      · cases h'
      · exact ⟨t', h', rfl, rfl, (h.placed e' t' h').2⟩

theorem moveTo (h : Settled w maps room) (e : EntityId) (c : Cell) :
    Settled (w.moveTo e c).2 maps room := by
  rcases World.moveTo_cases w e c with h0 | ⟨t, g, ht, hg, hc, -, hthing, hmaps, hlast, hlm⟩
  · rw [h0]; exact h
  · -- the thing's map is one of the simulation's, so the new cell is a cell of it
    obtain ⟨b, hb⟩ := h.shaped t.map (h.placed e t ht).1
    rw [hb] at hg
    cases hg
    refine h.of_records hmaps (Nat.le_of_eq (by rw [hlast])) (by rw [hlast]; exact h.room) hlm
      fun e' t' h' => ?_
    rw [hthing] at h'
    split at h'
    · next he =>
      cases h'
      rw [he]
      exact ⟨t, ht, rfl, rfl, by rwa [contains_grid] at hc⟩
    · exact ⟨t', h', rfl, rfl, (h.placed e' t' h').2⟩

theorem addInjury (h : Settled w maps (room + 1)) (owner : EntityId) (severity : Float32) :
    Settled (w.addInjury owner severity).2 maps room := by
  obtain ⟨ht, hm, hlm, hle⟩ := World.addInjury_ground w owner severity
  have hnext := h.next_toNat
  have hr := h.room
  -- the counter moves on by one at most, within its room
  have hle' : (w.addInjury owner severity).2.lastEntity.toNat ≤ w.lastEntity.toNat + 1 ∧
      w.lastEntity.toNat ≤ (w.addInjury owner severity).2.lastEntity.toNat := by
    rcases hle with hle | hle <;> rw [hle] <;> omega
  refine h.of_records hm hle'.2 (by omega) hlm fun e t' h' => ?_
  rw [World.thing?_eq, ht, ← World.thing?_eq] at h'
  exact ⟨t', h', rfl, rfl, (h.placed e t' h').2⟩

theorem spawn (h : Settled w maps (room + 1)) (m : MapId) (k : ThingKind) (cell : Cell) :
    Settled (w.spawn m k cell).2 maps room := by
  rcases World.spawn_cases w m k cell with h0 | ⟨g, hg, hc, -, hthing, hmaps, hlast, hlm⟩
  · rw [h0]; exact h.mono (Nat.le_succ room)
  · -- a spawn only succeeds on a loaded map, laid out as the simulation lays maps out
    have hm : m ∈ maps := (h.loaded m).mp (by rw [hg]; rfl)
    obtain ⟨b, hb⟩ := h.shaped m hm
    rw [hb] at hg
    cases hg
    have hnext := h.next_toNat
    have hmap : (w.spawn m k cell).2.map? = w.map? := by
      funext m'
      rw [World.map?, World.map?, hmaps]
    refine ⟨h.nodup, fun m' => by rw [hmap]; exact h.loaded m',
      fun m' hm' => by rw [hmap]; exact h.shaped m' hm', fun e t ht => ?_, fun e t ht => ?_,
      fun e t ht => ?_, ?_, fun m' hm' => by rw [hlm]; exact h.mapBelow m' hm'⟩
    · rw [hthing] at ht
      split at ht
      · next he => cases ht; exact he.symm
      · exact h.key e t ht
    · rw [hthing] at ht
      split at ht
      · cases ht; exact ⟨hm, by rwa [contains_grid] at hc⟩
      · exact h.placed e t ht
    · rw [hlast, hnext]
      rw [hthing] at ht
      split at ht
      · next he => rw [he]; show (w.lastEntity + 1).toNat ≤ _; omega
      · have := h.below e t ht; omega
    · rw [hlast, hnext]; have := h.room; omega

end Settled

end Simulation

namespace World

/-- The region a cache of the things passing `p` on `maps` ought to file `e` under, if any. -/
def expectedRegion (w : World) (maps : List MapId) (p : Thing → Bool) (e : EntityId) :
    Option RegionId :=
  (w.thing? e).bind fun t => if p t ∧ t.map ∈ maps then w.regionAt t.map t.cell else none

def Files (w : World) (maps : List MapId) (p : Thing → Bool) (c : RegionThings) : Prop :=
  ∀ e, c.scopeOf e = w.expectedRegion maps p e

def Holds (w : World) (maps : List MapId) (p : ThingKind → Bool) (c : MapThings) : Prop :=
  ∀ e m, c.scopeOf e = some m → ∃ t, w.thing? e = some t ∧ p t.kind = true ∧ t.map = m ∧ m ∈ maps

variable {w w' : World} {maps : List MapId}

theorem regionAt_congr (hm : w'.maps = w.maps) : w'.regionAt = w.regionAt := by
  funext m c
  rw [World.regionAt, World.regionAt, hm]

theorem harvestable_congr (hm : w'.maps = w.maps) : w'.harvestable = w.harvestable := by
  funext t
  unfold harvestable inGrowZone
  rw [hm]

theorem expectedRegion_congr {p : Thing → Bool} {e : EntityId} (ht : w'.thing? e = w.thing? e)
    (hm : w'.maps = w.maps) : w'.expectedRegion maps p e = w.expectedRegion maps p e := by
  rw [expectedRegion, expectedRegion, ht, regionAt_congr hm]

theorem Files.congr {p : Thing → Bool} {c : RegionThings} (h : w.Files maps p c)
    (ht : ∀ e, w'.thing? e = w.thing? e) (hm : w'.maps = w.maps) : w'.Files maps p c :=
  fun e => (h e).trans (expectedRegion_congr (ht e) hm).symm

theorem Holds.congr {p : ThingKind → Bool} {c : MapThings} (h : w.Holds maps p c)
    (ht : ∀ e, w'.thing? e = w.thing? e) : w'.Holds maps p c := by
  intro e m hc
  rw [ht e]
  exact h e m hc

theorem Holds.of_scopeOf {p : ThingKind → Bool} {c c' : MapThings} (h : w.Holds maps p c)
    (hc : ∀ e m, c'.scopeOf e = some m → c.scopeOf e = some m) : w.Holds maps p c' :=
  fun e m he => h e m (hc e m he)

theorem Holds.mono {p : ThingKind → Bool} {c : MapThings} (h : w.Holds maps p c)
    {maps' : List MapId} (hsub : ∀ m ∈ maps, m ∈ maps') : w.Holds maps' p c := by
  intro e m he
  obtain ⟨t, ht, hk, htm, hm⟩ := h e m he
  exact ⟨t, ht, hk, htm, hsub m hm⟩

theorem Holds.remove {p : ThingKind → Bool} {c : MapThings} (h : w.Holds maps p c) (e : EntityId) :
    w.Holds maps p (c.remove e).2 := by
  refine h.of_scopeOf fun e' m he => ?_
  rw [ScopedCache.scopeOf_remove_apply] at he
  split at he
  · cases he
  · exact he

section Spawn

variable {p : Thing → Bool} {m : MapId} {k : ThingKind} {cell : Cell} {t : Thing}

theorem Files.spawn {c : RegionThings} (h : w.Files maps p c)
    (hfresh : w.thing? ⟨w.lastEntity + 1⟩ = none) (hs : (w.spawn m k cell).1 = some t) :
    (w.spawn m k cell).2.Files maps p
      (if p t = true ∧ m ∈ maps then (c.add (w.spawn m k cell).2.regionOf t).2 else c) := by
  rcases spawn_cases w m k cell with h0 | ⟨g, -, -, h1, hthing, hmaps, -, -⟩
  · rw [h0] at hs; cases hs
  · rw [h1] at hs
    cases hs
    have hnew : c.scopeOf ⟨w.lastEntity + 1⟩ = none := by
      rw [h, expectedRegion, hfresh]; rfl
    intro e
    by_cases he : e = ⟨w.lastEntity + 1⟩
    · -- the new thing: filed under the region of its cell exactly when it passes
      subst he
      rw [expectedRegion, hthing, if_pos rfl, Option.bind_some]
      split
      · rw [ScopedCache.scopeOf_add, if_pos ⟨rfl, hnew⟩, regionOf_eq, hthing, if_pos rfl,
          Option.bind_some]
      · exact hnew
    · -- every other thing keeps its record and its filing
      have hold : (w.spawn m k cell).2.expectedRegion maps p e = w.expectedRegion maps p e :=
        expectedRegion_congr (by rw [hthing, if_neg he]) hmaps
      rw [hold, ← h e]
      split
      · rw [ScopedCache.scopeOf_add, if_neg fun hq => he hq.1]
      · rfl

theorem Holds.spawn {p : ThingKind → Bool} {c : MapThings} (h : w.Holds maps p c)
    (hfresh : w.thing? ⟨w.lastEntity + 1⟩ = none) (m : MapId) (k : ThingKind) (cell : Cell) :
    (w.spawn m k cell).2.Holds maps p c := by
  rcases spawn_cases w m k cell with h0 | ⟨g, -, -, -, hthing, -, -, -⟩
  · rw [h0]; exact h
  · intro e m' hc
    obtain ⟨t, ht, hk, htm, hm'⟩ := h e m' hc
    -- a filed thing is alive, so it is not the new one
    have hne : e ≠ ⟨w.lastEntity + 1⟩ := by
      rintro rfl
      rw [hfresh] at ht
      cases ht
    exact ⟨t, by rw [hthing, if_neg hne]; exact ht, hk, htm, hm'⟩

end Spawn

/-- Moving a thing refiles it under the region of its new cell; on a map of the simulation the
new cell has a region exactly when the old one had. -/
theorem Files.moveTo {p : Thing → Bool} {c : RegionThings} {room : Nat} {L : List MapId}
    (h : w.Files maps p c) (hc : c.Inv) (hs : Simulation.Settled w L room) {e : EntityId}
    {cell : Cell} (hmv : (w.moveTo e cell).1 = true)
    (hp : ∀ t, w.thing? e = some t → p { t with cell := cell } = p t) :
    (w.moveTo e cell).2.Files maps p (c.relocate (w.moveTo e cell).2.regionOf e).2 := by
  rcases moveTo_cases w e cell with h0 | ⟨t, g, ht, hg, hcell, -, hthing, hmaps, -, -⟩
  · rw [h0] at hmv; cases hmv
  · obtain ⟨b, hb⟩ := hs.shaped t.map (hs.placed e t ht).1
    rw [hb] at hg
    cases hg
    intro e'
    rw [ScopedCache.scopeOf_relocate hc]
    split
    · next he =>
      subst he
      have hsame : ((w.moveTo e' cell).2.regionAt t.map cell).isSome =
          (w.regionAt t.map t.cell).isSome := by
        rw [regionAt_congr hmaps, regionAt_of_map? hb, regionAt_of_map? hb,
          Simulation.isSome_regionAt_grid _ _ (by rwa [Simulation.contains_grid] at hcell),
          Simulation.isSome_regionAt_grid _ _ (hs.placed e' t ht).2]
      have hold : c.scopeOf e' = if p t ∧ t.map ∈ maps then w.regionAt t.map t.cell else none := by
        rw [h e', expectedRegion, ht, Option.bind_some]
      rw [expectedRegion, hthing, if_pos rfl, Option.bind_some, hp t ht]
      cases hget : c.get e' with
      | none =>
        -- an untracked thing stays untracked: it fails the test or its map has no regions
        have hnone : c.scopeOf e' = none := by
          simpa [hget] using (hc.isSome_get e').symm
        rw [hnone] at hold
        split
        · next hq =>
          rw [if_pos hq] at hold
          rw [Option.bind_none, eq_comm, ← Option.not_isSome_iff_eq_none, hsame, ← hold]
          simp
        · rfl
      | some x =>
        -- a tracked thing passes and stands on a map with regions, so it is refiled
        have hkx : x.id = e' := ScopedCache.key_of_get hget
        have htracked : (c.scopeOf e').isSome := by
          rw [← hc.isSome_get, hget]; rfl
        have hq : p t = true ∧ t.map ∈ maps := by
          by_contra hq
          rw [if_neg hq] at hold
          rw [hold] at htracked
          cases htracked
        rw [Option.bind_some, regionOf_eq, hkx, hthing, if_pos rfl, Option.bind_some, if_pos hq]
    · next he => rw [h e', expectedRegion_congr (by rw [hthing, if_neg he]) hmaps]

theorem Holds.moveTo {p : ThingKind → Bool} {c : MapThings} (h : w.Holds maps p c)
    (e : EntityId) (cell : Cell) : (w.moveTo e cell).2.Holds maps p c := by
  rcases moveTo_cases w e cell with h0 | ⟨t, g, ht, -, -, -, hthing, -, -, -⟩
  · rw [h0]; exact h
  · intro e' m he
    obtain ⟨t', ht', hk, htm, hm⟩ := h e' m he
    rw [hthing]
    split
    · next hee =>
      -- the moved thing keeps its kind and its map
      rw [hee, ht] at ht'
      cases ht'
      exact ⟨_, rfl, hk, htm, hm⟩
    · exact ⟨t', ht', hk, htm, hm⟩

theorem Holds.mark {p : ThingKind → Bool} {c : MapThings} (h : w.Holds maps p c) {t : Thing}
    (ht : w.thing? t.id = some t) (hp : p t.kind = true) (hm : t.map ∈ maps) :
    w.Holds maps p (c.mark t).2 := by
  intro e m' he
  rw [MapThings.scopeOf_mark] at he
  split at he
  · next hnew =>
    cases he
    rw [hnew.1]
    exact ⟨t, ht, hp, rfl, hm⟩
  · exact h e m' he

theorem Holds.markAnimal {c : MapThings} (h : w.Holds maps ThingKind.isAnimal c) {t : Thing}
    (ht : w.thing? t.id = some t) (hm : t.map ∈ maps) :
    w.Holds maps ThingKind.isAnimal (c.markAnimal t).2 := by
  intro e m' he
  rw [MapThings.scopeOf_markAnimal] at he
  split at he
  · next hnew =>
    cases he
    rw [hnew.2.1]
    exact ⟨t, ht, hnew.1, rfl, hm⟩
  · exact h e m' he

theorem Files.despawn {p : Thing → Bool} {c : RegionThings} (h : w.Files maps p c) (e : EntityId) :
    (w.despawn e).2.Files maps p (c.remove e).2 := by
  intro e'
  rw [ScopedCache.scopeOf_remove_apply]
  split
  · next he => rw [expectedRegion, thing?_despawn, if_pos he]; rfl
  · next he => rw [h e', expectedRegion_congr (by rw [thing?_despawn, if_neg he]) (maps_despawn w e)]

theorem Holds.despawn {p : ThingKind → Bool} {c : MapThings} (h : w.Holds maps p c)
    (e : EntityId) : (w.despawn e).2.Holds maps p (c.remove e).2 := by
  intro e' m he
  rw [ScopedCache.scopeOf_remove_apply] at he
  split at he
  · cases he
  · next hne =>
    rw [thing?_despawn, if_neg hne]
    exact h e' m he

end World

namespace Session

open Simulation

theorem Coherent.regionCache_inv {s : Session} (hs : s.Coherent) (n : String) :
    (s.regionCache n).Inv := by
  unfold regionCache
  cases hc : s.regionCaches.get? n with
  | none => exact ScopedCache.Inv.empty
  | some c => exact hs.regionInv _ (Registry.mem_of_get? hc)

theorem Coherent.mapCache_inv {s : Session} (hs : s.Coherent) (n : String) :
    (s.mapCache n).Inv := by
  unfold mapCache
  cases hc : s.mapCaches.get? n with
  | none => exact ScopedCache.Inv.empty
  | some c => exact hs.mapInv _ (Registry.mem_of_get? hc)

/-- The thing caches of `s` track `w` with `maps` in play: the region caches file exactly what
they should, the map caches only live things of their kinds. -/
structure Tracks (s : Session) (w : World) (maps : List MapId) : Prop where
  coherent : s.Coherent
  hauling : w.Files maps (·.kind == .item) (s.regionCache haulableItems)
  harvest : w.Files maps w.harvestable (s.regionCache harvestablePlants)
  turrets : w.Holds maps (· == .turret) (s.mapCache refuelableTurrets)
  nonTurrets : w.Holds maps (· == .generator) (s.mapCache refuelableNonTurrets)
  animals : w.Holds maps ThingKind.isAnimal (s.mapCache colonyAnimals)

structure Held (s : Session) (w : World) (maps : List MapId) : Prop where
  coherent : s.Coherent
  turrets : w.Holds maps (· == .turret) (s.mapCache refuelableTurrets)
  nonTurrets : w.Holds maps (· == .generator) (s.mapCache refuelableNonTurrets)
  animals : w.Holds maps ThingKind.isAnimal (s.mapCache colonyAnimals)

variable {s s' : Session} {w w' : World} {maps : List MapId}

theorem Tracks.held (h : s.Tracks w maps) : s.Held w maps :=
  ⟨h.coherent, h.turrets, h.nonTurrets, h.animals⟩

theorem Tracks.of_held (h : s.Tracks w maps) (h' : s'.Held w maps)
    (hr : s'.regionCaches = s.regionCaches) : s'.Tracks w maps := by
  have hreg : ∀ n, s'.regionCache n = s.regionCache n := fun n => by
    rw [regionCache, regionCache, hr]
  refine ⟨h'.coherent, ?_, ?_, h'.turrets, h'.nonTurrets, h'.animals⟩
  · rw [hreg]; exact h.hauling
  · rw [hreg]; exact h.harvest

theorem Tracks.frame (h : s.Tracks w maps) (ht : ∀ e, w'.thing? e = w.thing? e)
    (hmaps : w'.maps = w.maps) (hb : s'.bus = s.bus) (hr : s'.regionCaches = s.regionCaches)
    (hm : s'.mapCaches = s.mapCaches) : s'.Tracks w' maps := by
  have hreg : ∀ n, s'.regionCache n = s.regionCache n := fun n => by
    rw [regionCache, regionCache, hr]
  have hmap : ∀ n, s'.mapCache n = s.mapCache n := fun n => by
    rw [mapCache, mapCache, hm]
  refine ⟨h.coherent.of_registries hb hr hm, ?_, ?_, ?_, ?_, ?_⟩
  · rw [hreg]; exact h.hauling.congr ht hmaps
  · rw [hreg, World.harvestable_congr hmaps]; exact h.harvest.congr ht hmaps
  · rw [hmap]; exact h.turrets.congr ht
  · rw [hmap]; exact h.nonTurrets.congr ht
  · rw [hmap]; exact h.animals.congr ht

theorem Tracks.sameGround (h : s.Tracks w maps) (hg : w.SameGround w') : s.Tracks w' maps :=
  h.frame hg.thing? hg.maps rfl rfl rfl

theorem Tracks.tell (h : s.Tracks w maps) (hb : s'.bus = s.bus)
    (hr : s'.regionCaches = s.regionCaches) (hm : s'.mapCaches = s.mapCaches) :
    s'.Tracks w maps :=
  h.frame (fun _ => rfl) rfl hb hr hm

theorem Tracks.addInjury (h : s.Tracks w maps) (owner : EntityId) (severity : Float32) :
    s.Tracks (w.addInjury owner severity).2 maps := by
  obtain ⟨ht, hm, -, -⟩ := World.addInjury_ground w owner severity
  exact h.frame (fun e => by rw [World.thing?_eq, ht, ← World.thing?_eq]) hm rfl rfl rfl

theorem Tracks.despawn (h : s.Tracks w maps) (e : EntityId) (hc : s'.Coherent)
    (hr : ∀ n, (s'.regionCache n).scopeOf = ((s.regionCache n).remove e).2.scopeOf)
    (hm : ∀ n, (s'.mapCache n).scopeOf = ((s.mapCache n).remove e).2.scopeOf) :
    s'.Tracks (w.despawn e).2 maps := by
  have hfiles : ∀ {p : Thing → Bool} {n : String}, w.Files maps p (s.regionCache n) →
      (w.despawn e).2.Files maps p (s'.regionCache n) := fun hf e' => by
    rw [hr]; exact hf.despawn e e'
  have hholds : ∀ {p : ThingKind → Bool} {n : String}, w.Holds maps p (s.mapCache n) →
      (w.despawn e).2.Holds maps p (s'.mapCache n) := fun hf e' m' he => by
    rw [hm] at he; exact hf.despawn e e' m' he
  refine ⟨hc, hfiles h.hauling, ?_, hholds h.turrets, hholds h.nonTurrets, hholds h.animals⟩
  rw [World.harvestable_congr (World.maps_despawn w e)]
  exact hfiles h.harvest

theorem Tracks.spatialItemRemoved (h : s.Tracks w maps) (e : EntityId) :
    (s.spatialItemRemoved e).Tracks (w.despawn e).2 maps :=
  h.despawn e (h.coherent.notify _)
    (fun n => by rw [regionCache_spatialItemRemoved h.coherent])
    (fun n => by rw [mapCache_spatialItemRemoved h.coherent])

theorem Tracks.entityRemoved (h : s.Tracks w maps) (e : EntityId) :
    (s.entityRemoved e).Tracks (w.despawn e).2 maps :=
  h.despawn e (h.coherent.notify _)
    (fun n => by rw [regionCache_entityRemoved h.coherent])
    (fun n => by rw [mapCache_entityRemoved h.coherent])

section Spawn

variable {m : MapId} {k : ThingKind} {cell : Cell} {t : Thing}

theorem Tracks.spawn (h : s.Tracks w maps) {L : List MapId} {room : Nat}
    (hs : Settled w L (room + 1)) (hsp : (w.spawn m k cell).1 = some t) (hc : s'.Coherent)
    (hhaul : (s'.regionCache haulableItems).scopeOf =
      (if (t.kind == .item) = true ∧ m ∈ maps then
        ((s.regionCache haulableItems).add (w.spawn m k cell).2.regionOf t).2
      else s.regionCache haulableItems).scopeOf)
    (hharv : (s'.regionCache harvestablePlants).scopeOf =
      (if w.harvestable t = true ∧ m ∈ maps then
        ((s.regionCache harvestablePlants).add (w.spawn m k cell).2.regionOf t).2
      else s.regionCache harvestablePlants).scopeOf)
    (hmap : ∀ n, s'.mapCache n = s.mapCache n) : s'.Tracks (w.spawn m k cell).2 maps := by
  have hfresh := hs.fresh
  have hmaps : (w.spawn m k cell).2.maps = w.maps := by
    rcases World.spawn_cases w m k cell with h0 | ⟨-, -, -, -, -, hm, -, -⟩
    · rw [h0]
    · exact hm
  refine ⟨hc, fun e => ?_, fun e => ?_, ?_, ?_, ?_⟩
  · rw [hhaul]; exact h.hauling.spawn hfresh hsp e
  · rw [hharv, World.harvestable_congr hmaps]; exact h.harvest.spawn hfresh hsp e
  · rw [hmap]; exact h.turrets.spawn hfresh m k cell
  · rw [hmap]; exact h.nonTurrets.spawn hfresh m k cell
  · rw [hmap]; exact h.animals.spawn hfresh m k cell

theorem Tracks.spawn_none (h : s.Tracks w maps) (hsp : (w.spawn m k cell).1 = none) :
    s.Tracks (w.spawn m k cell).2 maps := by
  rcases World.spawn_cases w m k cell with h0 | ⟨-, -, -, h1, -⟩
  · rw [h0]; exact h
  · rw [h1] at hsp; cases hsp

theorem Tracks.spawn_off (h : s.Tracks w maps) {L : List MapId} {room : Nat}
    (hs : Settled w L (room + 1)) (hm : m ∉ maps) (k : ThingKind) (cell : Cell) :
    s.Tracks (w.spawn m k cell).2 maps := by
  cases hsp : (w.spawn m k cell).1 with
  | none =>
    rcases World.spawn_cases w m k cell with h0 | ⟨-, -, -, h1, -⟩
    · rw [h0]; exact h
    · rw [h1] at hsp; cases hsp
  | some t =>
    exact h.spawn hs hsp h.coherent (by rw [if_neg fun hq => hm hq.2])
      (by rw [if_neg fun hq => hm hq.2]) fun _ => rfl

end Spawn

theorem Tracks.moveTo (h : s.Tracks w maps) {L : List MapId} {room : Nat} (hs : Settled w L room)
    {e : EntityId} {cell : Cell} (hmv : (w.moveTo e cell).1 = true)
    (hitem : ∀ t, w.thing? e = some t → t.kind = .item) :
    (s.itemMoved (w.moveTo e cell).2 e).Tracks (w.moveTo e cell).2 maps := by
  have hmaps : (w.moveTo e cell).2.maps = w.maps := by
    rcases World.moveTo_cases w e cell with h0 | ⟨-, -, -, -, -, -, -, hm, -, -⟩
    · rw [h0]
    · exact hm
  refine ⟨h.coherent.itemMoved _ e, ?_, ?_, ?_, ?_, ?_⟩
  · rw [regionCache_itemMoved]
    exact h.hauling.moveTo (h.coherent.regionCache_inv _) hs hmv fun t _ => rfl
  · -- an item is no plant, wherever it stands
    rw [regionCache_itemMoved, World.harvestable_congr hmaps]
    refine h.harvest.moveTo (h.coherent.regionCache_inv _) hs hmv fun t ht => ?_
    have hk := hitem t ht
    simp [World.harvestable, hk]
  · exact h.turrets.moveTo e cell
  · exact h.nonTurrets.moveTo e cell
  · exact h.animals.moveTo e cell

theorem Held.markRefuelable (h : s.Held w maps) {t : Thing} (ht : w.thing? t.id = some t)
    (hk : t.kind = .turret ∨ t.kind = .generator) (hm : t.map ∈ maps) :
    (s.markRefuelable t).2.Held w maps := by
  have hreg := h.coherent.mapRegistered (n := refuelCacheFor t.kind)
    (by unfold refuelCacheFor; split <;> simp)
  have hc := h.coherent.withMapCache (refuelCacheFor t.kind) false fun c hc => MapThings.Inv.mark hc t
  have hmc := mapCache_withMapCache hreg false (fun c => c.mark t)
  refine ⟨hc, ?_, ?_, ?_⟩
  all_goals
    rw [Session.markRefuelable, hmc]
    rcases hk with hk | hk <;> simp only [refuelCacheFor, hk, ThingKind.isTurret]
  · exact h.turrets.mark ht (by rw [hk]; rfl) hm
  · exact h.turrets
  · exact h.nonTurrets
  · exact h.nonTurrets.mark ht (by rw [hk]; rfl) hm
  · exact h.animals
  · exact h.animals

theorem Tracks.markRefuelable (h : s.Tracks w maps) {t : Thing} (ht : w.thing? t.id = some t)
    (hk : t.kind = .turret ∨ t.kind = .generator) (hm : t.map ∈ maps) :
    (s.markRefuelable t).2.Tracks w maps :=
  h.of_held (h.held.markRefuelable ht hk hm) rfl

theorem Held.markAnimal (h : s.Held w maps) {t : Thing} (ht : w.thing? t.id = some t)
    (hm : t.map ∈ maps) : (s.markAnimal t).2.Held w maps := by
  have hreg := h.coherent.mapRegistered (n := colonyAnimals) (by simp)
  have hmc := mapCache_withMapCache hreg false (fun c => c.markAnimal t)
  refine ⟨h.coherent.withMapCache _ _ fun c hc => MapThings.Inv.markAnimal hc t, ?_, ?_, ?_⟩
  all_goals rw [Session.markAnimal, hmc]
  · rw [if_neg (by decide)]; exact h.turrets
  · rw [if_neg (by decide)]; exact h.nonTurrets
  · rw [if_pos rfl]; exact h.animals.markAnimal ht hm

theorem Tracks.markAnimal (h : s.Tracks w maps) {t : Thing} (ht : w.thing? t.id = some t)
    (hm : t.map ∈ maps) : (s.markAnimal t).2.Tracks w maps :=
  h.of_held (h.held.markAnimal ht hm) rfl

theorem Tracks.unmarkRefuelable (h : s.Tracks w maps) (t : Thing) :
    (s.unmarkRefuelable t).Tracks w maps := by
  have hreg := h.coherent.mapRegistered (n := refuelCacheFor t.kind)
    (by unfold refuelCacheFor; split <;> simp)
  have hmc := mapCache_withMapCache hreg () (fun c => ((), (c.remove t.id).2))
  refine ⟨h.coherent.withMapCache _ _ fun c hc => hc.remove t.id, h.hauling, h.harvest, ?_, ?_, ?_⟩
  all_goals
    rw [Session.unmarkRefuelable, hmc]
    split
  all_goals first
    | exact h.turrets.remove t.id | exact h.turrets
    | exact h.nonTurrets.remove t.id | exact h.nonTurrets
    | exact h.animals.remove t.id | exact h.animals

theorem Tracks.removeAnimal (h : s.Tracks w maps) (e : EntityId) :
    (s.removeAnimal e).Tracks w maps := by
  have hreg := h.coherent.mapRegistered (n := colonyAnimals) (by simp)
  have hmc := mapCache_withMapCache hreg () (fun c => ((), (c.remove e).2))
  refine ⟨h.coherent.withMapCache _ _ fun c hc => hc.remove e, h.hauling, h.harvest, ?_, ?_, ?_⟩
  all_goals rw [Session.removeAnimal, hmc]
  · rw [if_neg (by decide)]; exact h.turrets
  · rw [if_neg (by decide)]; exact h.nonTurrets
  · rw [if_pos rfl]; exact h.animals.remove e

/-- Harvesting a plant keeps the tracking: the harvest's own removal is the one the event makes. -/
theorem Tracks.harvested (h : s.Tracks w maps) (e : EntityId) :
    ((s.completeHarvest e).spatialItemRemoved e).Tracks (w.despawn e).2 maps := by
  have hreg := h.coherent.regionRegistered (n := harvestablePlants) (by simp)
  have hrc := regionCache_withRegionCache hreg () (fun c => ((), (c.remove e).2))
  have hc : (s.completeHarvest e).Coherent :=
    h.coherent.withRegionCache _ _ fun c hc => hc.remove e
  refine h.despawn e (hc.notify _) (fun n => ?_) (fun n => ?_)
  · rw [regionCache_spatialItemRemoved hc, Session.completeHarvest, hrc]
    split
    · -- removing twice is removing once
      rw [ScopedCache.scopeOf_remove, ScopedCache.scopeOf_remove, Function.update_idem]
    · rfl
  · rw [mapCache_spatialItemRemoved hc]
    rfl

end Session

end ColonyCache
