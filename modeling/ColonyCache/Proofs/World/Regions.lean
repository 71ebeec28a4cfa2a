import Mathlib.Data.List.Nodup
import ColonyCache.World.Basic
import ColonyCache.Proofs.Session.Reachable
/-! How a world cuts its maps into regions: ids `map * regionsPerMap + local` of different maps
never meet, and cells share a region exactly when they share a block. -/
namespace ColonyCache

open Std

/-! ## Covering a side by blocks -/

theorem lt_ceilDiv_iff {a w s : Nat} (hs : 0 < s) : a < ceilDiv w s ↔ a * s < w := by
  -- `a` blocks fall short of the side exactly when `a + 1` of them fit in `w + s - 1`
  rw [ceilDiv, Nat.lt_iff_add_one_le, Nat.le_div_iff_mul_le hs, Nat.succ_mul]
  omega

theorem div_lt_ceilDiv {x w s : Nat} (hs : 0 < s) (hx : x < w) : x / s < ceilDiv w s :=
  (lt_ceilDiv_iff hs).mpr (Nat.lt_of_le_of_lt (Nat.div_mul_le_self x s) hx)

theorem ceilDiv_le_one {w s : Nat} (hs : 0 < s) (hw : w ≤ s) : ceilDiv w s ≤ 1 := by
  rw [ceilDiv, Nat.div_le_iff_le_mul_add_pred hs]
  omega

/-! ## Region ids -/

theorem regionId_eq_some_iff {m : MapId} {l : Nat} {r : RegionId} :
    regionId m l = some r ↔
      l < regionsPerMap ∧ m.val.toNat * regionsPerMap + l < Nat.pow 2 32 ∧
        r.val.toNat = m.val.toNat * regionsPerMap + l := by
  unfold regionId
  split
  · next h =>
    refine ⟨fun he => ⟨h.1, h.2, ?_⟩, fun ⟨_, _, hr⟩ => ?_⟩
    · cases he
      simpa using Nat.mod_eq_of_lt h.2
    · congr 1
      cases r
      congr 1
      apply UInt32.toNat_inj.mp
      simpa [Nat.mod_eq_of_lt h.2] using hr.symm
  · next h => simp only [reduceCtorEq, false_iff]; exact fun ⟨h1, h2, _⟩ => h ⟨h1, h2⟩


theorem MapId.ext_toNat {m m' : MapId} (h : m.val.toNat = m'.val.toNat) : m = m' := by
  cases m; cases m'
  congr
  exact UInt32.toNat_inj.mp h

theorem regionId_inj {m m' : MapId} {l l' : Nat} {r : RegionId} (h : regionId m l = some r)
    (h' : regionId m' l' = some r) : m = m' ∧ l = l' := by
  obtain ⟨hl, -, hr⟩ := regionId_eq_some_iff.mp h
  obtain ⟨hl', -, hr'⟩ := regionId_eq_some_iff.mp h'
  rw [regionsPerMap] at hl hl' hr hr'
  exact ⟨MapId.ext_toNat (by omega), by omega⟩

/-! ## The fitting region size -/

section Search

variable {ok : Nat → Bool}

theorem leastAbove_ok {lo hi : Nat} (h : ok hi = true) : ok (leastAbove ok lo hi) = true := by
  fun_induction leastAbove ok lo hi with
  | case1 lo hi _ mid hmid ih => exact ih hmid
  | case2 lo hi _ mid _ ih => exact ih h
  | case3 => exact h

theorem leastAbove_le {lo hi : Nat} : leastAbove ok lo hi ≤ hi := by
  fun_induction leastAbove ok lo hi with
  | case1 lo hi hlt mid _ ih => omega
  | case2 => assumption
  | case3 => exact Nat.le_refl _

theorem lt_leastAbove {lo hi : Nat} (h : lo < hi) : lo < leastAbove ok lo hi := by
  fun_induction leastAbove ok lo hi with
  | case1 lo hi hlt mid _ ih => exact ih (by omega)
  | case2 lo hi hlt mid _ ih => exact Nat.lt_trans (by omega) (ih (by omega))
  | case3 => exact h

end Search

theorem fittingRegionSize_spec (w h r : Nat) :
    0 < fittingRegionSize w h r ∧ fittingRegionSize w h r ≤ max (max r 1) (max w h) ∧
      regionCount w h (fittingRegionSize w h r) ≤ regionsPerMap := by
  -- a size no smaller than either side makes a single region
  have hbig : ∀ s, 0 < s → w ≤ s → h ≤ s → regionCount w h s ≤ regionsPerMap := by
    intro s hs hw hh
    have := Nat.mul_le_mul (ceilDiv_le_one hs hw) (ceilDiv_le_one hs hh)
    rw [regionCount, regionsPerMap]
    omega
  unfold fittingRegionSize
  dsimp only
  split
  · next hlo => exact ⟨by omega, by omega, of_decide_eq_true hlo⟩
  · next hlo =>
    have hhi : decide (regionCount w h (max (max r 1) (max w h)) ≤ regionsPerMap) = true :=
      decide_eq_true (hbig _ (by omega) (by omega) (by omega))
    have hlt : max r 1 < max (max r 1) (max w h) := by
      refine Nat.lt_of_le_of_ne (Nat.le_max_left _ _) fun he => hlo ?_
      rwa [← he] at hhi
    exact ⟨Nat.lt_of_le_of_lt (Nat.zero_le _) (lt_leastAbove hlt), leastAbove_le,
      of_decide_eq_true (@leastAbove_ok (fun s => decide (regionCount w h s ≤ regionsPerMap))
        _ _ hhi)⟩

/-! ## Cells and blocks of one map -/

theorem div_mod_of_mul_add {n a b l : Nat} (hb : b < n) (hl : a * n + b = l) :
    l / n = a ∧ l % n = b := by
  have hn : 0 < n := Nat.lt_of_le_of_lt (Nat.zero_le b) hb
  exact (Nat.div_mod_unique hn).mpr ⟨by rw [← hl, Nat.mul_comm, Nat.add_comm], hb⟩

namespace MapGrid

/-- The local number of the region of cell `c`: block row times block columns, plus block column. -/
def localIndex (g : MapGrid) (c : Cell) : Nat :=
  c.z.toNat / g.regionSize.toNat * g.columns + c.x.toNat / g.regionSize.toNat

theorem regionAt_eq (g : MapGrid) (c : Cell) :
    g.regionAt c =
      if g.regionsEnabled && g.contains c then regionId g.id (g.localIndex c) else none := rfl

theorem contains_iff {g : MapGrid} {c : Cell} :
    g.contains c = true ↔ c.x.toNat < g.width.toNat ∧ c.z.toNat < g.height.toNat := by
  simp [contains, UInt32.lt_iff_toNat_lt]

/-- A grid as adding a map lays it out: regions of positive size, at most `regionsPerMap`. -/
structure Fits (g : MapGrid) : Prop where
  size_pos : 0 < g.regionSize.toNat
  count_le : g.columns * g.rows ≤ regionsPerMap

variable {g : MapGrid}

namespace Fits

theorem localIndex_lt (hg : g.Fits) {c : Cell} (hc : g.contains c = true) :
    g.localIndex c < g.columns * g.rows := by
  obtain ⟨hx, hz⟩ := contains_iff.mp hc
  have hcol := div_lt_ceilDiv hg.size_pos hx
  -- the rows of blocks up to and including the cell's fill at most all the rows
  have hrow : (c.z.toNat / g.regionSize.toNat + 1) * g.columns ≤ g.rows * g.columns :=
    Nat.mul_le_mul_right _ (div_lt_ceilDiv hg.size_pos hz)
  rw [Nat.succ_mul] at hrow
  rw [localIndex, Nat.mul_comm g.columns]
  exact Nat.lt_of_lt_of_le (Nat.add_lt_add_left hcol _) hrow

theorem localIndex_eq_iff (hg : g.Fits) {c₁ c₂ : Cell} (hc₁ : g.contains c₁ = true)
    (hc₂ : g.contains c₂ = true) :
    g.localIndex c₁ = g.localIndex c₂ ↔
      c₁.x.toNat / g.regionSize.toNat = c₂.x.toNat / g.regionSize.toNat ∧
        c₁.z.toNat / g.regionSize.toNat = c₂.z.toNat / g.regionSize.toNat := by
  have hb₁ := div_lt_ceilDiv hg.size_pos (contains_iff.mp hc₁).1
  have hb₂ := div_lt_ceilDiv hg.size_pos (contains_iff.mp hc₂).1
  constructor
  · intro he
    obtain ⟨hq₁, hr₁⟩ := div_mod_of_mul_add hb₁ (rfl : g.localIndex c₁ = _)
    obtain ⟨hq₂, hr₂⟩ := div_mod_of_mul_add hb₂ (rfl : g.localIndex c₂ = _)
    rw [he] at hq₁ hr₁
    exact ⟨hr₁.symm.trans hr₂, hq₁.symm.trans hq₂⟩
  · rintro ⟨hx, hz⟩
    rw [localIndex, localIndex, hx, hz]

theorem exists_cell (hg : g.Fits) {l : Nat} (hl : l < g.columns * g.rows) :
    ∃ c, g.contains c = true ∧ g.localIndex c = l := by
  have hs := hg.size_pos
  have hcols : 0 < g.columns := Nat.pos_of_ne_zero fun h => by simp [h] at hl
  have hx : l % g.columns * g.regionSize.toNat < g.width.toNat :=
    (lt_ceilDiv_iff hs).mp (Nat.mod_lt l hcols)
  have hz : l / g.columns * g.regionSize.toNat < g.height.toNat :=
    (lt_ceilDiv_iff hs).mp ((Nat.div_lt_iff_lt_mul hcols).mpr (by rwa [Nat.mul_comm]))
  have hx32 : (l % g.columns * g.regionSize.toNat).toUInt32.toNat = l % g.columns * g.regionSize.toNat :=
    UInt32.toNat_ofNat_of_lt' (Nat.lt_trans hx g.width.toNat_lt)
  have hz32 : (l / g.columns * g.regionSize.toNat).toUInt32.toNat = l / g.columns * g.regionSize.toNat :=
    UInt32.toNat_ofNat_of_lt' (Nat.lt_trans hz g.height.toNat_lt)
  -- the corner of block column `l % columns` in block row `l / columns`
  refine ⟨⟨(l % g.columns * g.regionSize.toNat).toUInt32, (l / g.columns * g.regionSize.toNat).toUInt32⟩,
    contains_iff.mpr ⟨by rwa [hx32], by rwa [hz32]⟩, ?_⟩
  rw [localIndex, hx32, hz32, Nat.mul_div_cancel _ hs, Nat.mul_div_cancel _ hs]
  exact Nat.div_add_mod' l g.columns

end Fits

theorem regionAt_of_contains (he : g.regionsEnabled = true) {c : Cell}
    (hc : g.contains c = true) : g.regionAt c = regionId g.id (g.localIndex c) := by
  rw [regionAt_eq, he, hc]
  rfl

theorem regionAt_eq_some {c : Cell} {r : RegionId} (h : g.regionAt c = some r) :
    g.regionsEnabled = true ∧ g.contains c = true ∧ regionId g.id (g.localIndex c) = some r := by
  rw [regionAt_eq] at h
  split at h
  · next hec =>
    obtain ⟨he, hc⟩ := Bool.and_eq_true_iff.mp hec
    exact ⟨he, hc, h⟩
  · cases h

theorem Fits.regionAt_val (hg : g.Fits) (he : g.regionsEnabled = true) {c : Cell}
    (hc : g.contains c = true) :
    (g.regionAt c).map (·.val.toNat) =
      if g.id.val.toNat * regionsPerMap + g.localIndex c < Nat.pow 2 32 then
        some (g.id.val.toNat * regionsPerMap + g.localIndex c)
      else none := by
  -- the local number is in range, so only the 32-bit bound can fail
  have hl : g.localIndex c < regionsPerMap := Nat.lt_of_lt_of_le (hg.localIndex_lt hc) hg.count_le
  rw [regionAt_of_contains he hc]
  split
  · next hfit =>
    obtain ⟨r, hr⟩ : ∃ r, regionId g.id (g.localIndex c) = some r := by
      rw [regionId, if_pos ⟨hl, hfit⟩]
      exact ⟨_, rfl⟩
    rw [hr, Option.map_some, (regionId_eq_some_iff.mp hr).2.2]
  · next hfit =>
    rw [regionId, if_neg fun h => hfit h.2]
    rfl

theorem Fits.regionAt_eq_iff_block (hg : g.Fits) {c₁ c₂ : Cell} {r : RegionId}
    (h₁ : g.regionAt c₁ = some r) (hc₂ : g.contains c₂ = true) :
    g.regionAt c₂ = some r ↔
      c₁.x.toNat / g.regionSize.toNat = c₂.x.toNat / g.regionSize.toNat ∧
        c₁.z.toNat / g.regionSize.toNat = c₂.z.toNat / g.regionSize.toNat := by
  obtain ⟨he, hc₁, hr₁⟩ := regionAt_eq_some h₁
  rw [regionAt_of_contains he hc₂, ← hg.localIndex_eq_iff hc₁ hc₂]
  constructor
  · intro hr₂
    exact (regionId_inj hr₁ hr₂).2
  · intro hl
    rw [← hl, hr₁]

theorem mem_regions_iff {r : RegionId} :
    r ∈ g.regions ↔ ∃ l, l < g.columns * g.rows ∧ regionId g.id l = some r := by
  simp [regions, List.mem_filterMap, List.mem_range]

theorem regions_nodup (g : MapGrid) : g.regions.Nodup :=
  (List.nodup_range).filterMap fun _ _ _ h h' => (regionId_inj h h').2

theorem Fits.mem_regions_iff_regionAt (hg : g.Fits) (he : g.regionsEnabled = true)
    {r : RegionId} : r ∈ g.regions ↔ ∃ c, g.contains c = true ∧ g.regionAt c = some r := by
  rw [mem_regions_iff]
  constructor
  · rintro ⟨l, hl, hr⟩
    obtain ⟨c, hc, rfl⟩ := hg.exists_cell hl
    exact ⟨c, hc, by rw [regionAt_of_contains he hc, hr]⟩
  · rintro ⟨c, hc, hr⟩
    rw [regionAt_of_contains he hc] at hr
    exact ⟨_, hg.localIndex_lt hc, hr⟩

end MapGrid

namespace World

open Std

/-- Every map is kept under its own id, and its grid is laid out as adding a map lays it out. -/
structure MapsFit (w : World) : Prop where
  fits : ∀ {m : MapId} {g : MapGrid}, w.map? m = some g → g.id = m ∧ g.Fits

theorem map?_addMap (w : World) (width height size : UInt32) (m : MapId) :
    (w.addMap width height size).2.map? m =
      if (w.addMap width height size).1 = m then
        some ⟨⟨w.lastMap + 1⟩, max width 1, max height 1,
          (fittingRegionSize (max width 1).toNat (max height 1).toNat size.toNat).toUInt32, false⟩
      else w.map? m := by
  simp only [map?, addMap, TreeMap.get?_eq_getElem?, TreeMap.getElem?_insert, Std.compare_eq_iff_eq]
  split_ifs with h <;> simp [h]

theorem map?_setRegionsEnabled (w : World) (m : MapId) (enabled : Bool) (m' : MapId) :
    (w.setRegionsEnabled m enabled).map? m' =
      if m = m' then (w.map? m').map fun g => { g with regionsEnabled := enabled }
      else w.map? m' := by
  simp only [map?, setRegionsEnabled, TreeMap.get?_eq_getElem?, TreeMap.getElem?_modify,
    Std.compare_eq_iff_eq]
  split_ifs with h
  · rw [h]
  · rfl

theorem maps_foldl_forget (w : World) (ts : List Thing) :
    (ts.foldl (fun w t => w.forget t.id) w).maps = w.maps := by
  induction ts generalizing w with
  | nil => rfl
  | cons t ts ih => exact ih (w.forget t.id)

theorem map?_removeMap (w : World) (m m' : MapId) :
    (w.removeMap m).2.map? m' = if m = m' then none else w.map? m' := by
  unfold removeMap
  split
  · simp only [map?, maps_foldl_forget, TreeMap.get?_eq_getElem?, TreeMap.getElem?_erase,
      Std.compare_eq_iff_eq]
  · next hm =>
    split
    · next he =>
      subst he
      simpa [map?, TreeMap.get?_eq_getElem?] using hm
    · rfl

namespace MapsFit

variable {w : World}

theorem empty : ({} : World).MapsFit := by
  refine ⟨fun {m g} h => ?_⟩
  simp [map?, TreeMap.get?_eq_getElem?] at h

theorem of_maps_eq {w' : World} (hw : w.MapsFit) (he : w'.maps = w.maps) : w'.MapsFit :=
  ⟨fun h => hw.fits (by rwa [map?, he] at h)⟩

/-- A new map's grid fits: its region size is positive and leaves at most `regionsPerMap`. -/
theorem addMap (hw : w.MapsFit) (width height size : UInt32) :
    (w.addMap width height size).2.MapsFit := by
  refine ⟨fun {m g} h => ?_⟩
  rw [map?_addMap] at h
  split at h
  · next hid =>
    cases h
    obtain ⟨hpos, hle, hcount⟩ :=
      fittingRegionSize_spec (max width 1).toNat (max height 1).toNat size.toNat
    -- the fitting size is no larger than a 32-bit number, so it survives as one
    have hsize : (fittingRegionSize (max width 1).toNat (max height 1).toNat size.toNat).toUInt32.toNat =
        fittingRegionSize (max width 1).toNat (max height 1).toNat size.toNat := by
      apply UInt32.toNat_ofNat_of_lt'
      have := size.toNat_lt
      have := (max width 1).toNat_lt
      have := (max height 1).toNat_lt
      have : UInt32.size = 4294967296 := rfl
      omega
    refine ⟨hid, ⟨by simpa [hsize] using hpos, ?_⟩⟩
    simpa [MapGrid.columns, MapGrid.rows, hsize, regionCount] using hcount
  · exact hw.fits h

theorem setRegionsEnabled (hw : w.MapsFit) (m : MapId) (enabled : Bool) :
    (w.setRegionsEnabled m enabled).MapsFit := by
  refine ⟨fun {m' g} h => ?_⟩
  rw [map?_setRegionsEnabled] at h
  split at h
  · obtain ⟨g₀, h₀, rfl⟩ := Option.map_eq_some_iff.mp h
    obtain ⟨hid, hfit⟩ := hw.fits h₀
    exact ⟨hid, hfit.size_pos, hfit.count_le⟩
  · exact hw.fits h

theorem removeMap (hw : w.MapsFit) (m : MapId) : (w.removeMap m).2.MapsFit := by
  refine ⟨fun {m' g} h => ?_⟩
  rw [map?_removeMap] at h
  split at h
  · cases h
  · exact hw.fits h

end MapsFit

/-- The worlds reached by adding maps, switching their regions, removing maps, and changes that
leave the maps as they are. -/
inductive Reachable : World → Prop
  | empty : Reachable {}
  | addMap {w : World} (width height size : UInt32) :
      Reachable w → Reachable (w.addMap width height size).2
  | setRegionsEnabled {w : World} (m : MapId) (enabled : Bool) :
      Reachable w → Reachable (w.setRegionsEnabled m enabled)
  | removeMap {w : World} (m : MapId) : Reachable w → Reachable (w.removeMap m).2
  | keepMaps {w w' : World} : Reachable w → w'.maps = w.maps → Reachable w'

theorem Reachable.mapsFit {w : World} (hw : w.Reachable) : w.MapsFit := by
  induction hw with
  | empty => exact MapsFit.empty
  | addMap width height size _ ih => exact ih.addMap width height size
  | setRegionsEnabled m enabled _ ih => exact ih.setRegionsEnabled m enabled
  | removeMap m _ ih => exact ih.removeMap m
  | keepMaps _ he ih => exact ih.of_maps_eq he

theorem regionAt_of_map? {w : World} {m : MapId} {g : MapGrid} (hm : w.map? m = some g) (c : Cell) :
    w.regionAt m c = g.regionAt c := by
  rw [regionAt, ← map?, hm]
  rfl

theorem regionAt_eq_some {w : World} {m : MapId} {c : Cell} {r : RegionId}
    (h : w.regionAt m c = some r) : ∃ g, w.map? m = some g ∧ g.regionAt c = some r :=
  Option.bind_eq_some_iff.mp h

theorem regionsOf_of_map? {w : World} {m : MapId} {g : MapGrid} (hm : w.map? m = some g) :
    w.regionsOf m = g.regions := by
  rw [regionsOf, ← map?, hm]

theorem regionsOf_nodup (w : World) (m : MapId) : (w.regionsOf m).Nodup := by
  unfold regionsOf
  split
  · exact MapGrid.regions_nodup _
  · exact List.nodup_nil

namespace MapsFit

variable {w : World}

theorem regionId_of_regionAt (hw : w.MapsFit) {m : MapId} {c : Cell} {r : RegionId}
    (h : w.regionAt m c = some r) : ∃ l, regionId m l = some r := by
  obtain ⟨g, hm, hg⟩ := regionAt_eq_some h
  obtain ⟨-, -, hr⟩ := MapGrid.regionAt_eq_some hg
  rw [(hw.fits hm).1] at hr
  exact ⟨_, hr⟩

theorem regionId_of_mem_regionsOf (hw : w.MapsFit) {m : MapId} {r : RegionId}
    (h : r ∈ w.regionsOf m) : ∃ l, regionId m l = some r := by
  unfold regionsOf at h
  split at h
  · next g hm =>
    obtain ⟨l, -, hr⟩ := MapGrid.mem_regions_iff.mp h
    rw [(hw.fits hm).1] at hr
    exact ⟨l, hr⟩
  · cases h

theorem eq_of_regionAt (hw : w.MapsFit) {m₁ m₂ : MapId} {c₁ c₂ : Cell} {r : RegionId}
    (h₁ : w.regionAt m₁ c₁ = some r) (h₂ : w.regionAt m₂ c₂ = some r) : m₁ = m₂ := by
  obtain ⟨l₁, hl₁⟩ := hw.regionId_of_regionAt h₁
  obtain ⟨l₂, hl₂⟩ := hw.regionId_of_regionAt h₂
  exact (regionId_inj hl₁ hl₂).1

theorem eq_of_mem_regionsOf (hw : w.MapsFit) {m m' : MapId} {c : Cell} {r : RegionId}
    (hr : r ∈ w.regionsOf m) (h : w.regionAt m' c = some r) : m' = m := by
  obtain ⟨l, hl⟩ := hw.regionId_of_mem_regionsOf hr
  obtain ⟨l', hl'⟩ := hw.regionId_of_regionAt h
  exact (regionId_inj hl' hl).1

end MapsFit

end World

namespace Registry

variable {γ : Type}

theorem get?_mapAll (r : Registry γ) (f : γ → γ) (name : String) :
    (r.mapAll f).get? name = (r.get? name).map f := by
  simp only [get?, mapAll, List.find?_map, Option.map_map]
  rfl

end Registry

namespace ScopedCache

variable {σ κ ι : Type} [Ord σ] [TransOrd σ] [LawfulEqOrd σ] [DecidableEq σ] [DecidableEq κ]
  [Hashable κ] [Keyed ι κ]

theorem itemsIn_removeScope_of_ne (c : ScopedCache σ κ ι) {s t : σ} (h : s ≠ t) :
    (c.removeScope s).2.itemsIn t = c.itemsIn t := by
  unfold removeScope
  split
  · rfl
  · rw [itemsIn_erase, if_neg h]

end ScopedCache

namespace Session

theorem itemsIn_mapRemoved (s : Session) (m : MapId) {regions : List RegionId} {r : RegionId}
    (hr : r ∉ regions) (name : String) :
    ((s.mapRemoved m regions).2.regionCache name).itemsIn r = (s.regionCache name).itemsIn r := by
  rw [mapRemoved_snd]
  unfold regionCache
  dsimp only
  generalize s.regionCaches = reg
  induction regions generalizing reg with
  | nil => rfl
  | cons t ts ih =>
    rw [List.mem_cons, not_or] at hr
    obtain ⟨hrt, hrs⟩ := hr
    rw [List.foldl_cons, ih hrs, Registry.removeScope, Registry.sumAll_snd, Registry.get?_mapAll]
    cases reg.get? name with
    | none => rfl
    | some c => exact ScopedCache.itemsIn_removeScope_of_ne c (Ne.symm hrt)

end Session

namespace World

/-- What the region arithmetic of world `w` guarantees on every map in use. -/
structure RegionsLaidOut (w : World) : Prop where
  -- on a map in use, regions have a positive size and there are at most `regionsPerMap`
  grid : ∀ {m : MapId} {g : MapGrid}, w.map? m = some g → g.regionsEnabled = true →
    0 < g.regionSize.toNat ∧ g.columns * g.rows ≤ regionsPerMap
  -- a cell's region is the map's block of ids plus its local number, where that fits
  regionAt : ∀ {m : MapId} {g : MapGrid} {c : Cell}, w.map? m = some g →
    g.regionsEnabled = true → g.contains c = true →
    g.localIndex c < g.columns * g.rows ∧
      (w.regionAt m c).map (·.val.toNat) =
        if m.val.toNat * regionsPerMap + g.localIndex c < Nat.pow 2 32 then
          some (m.val.toNat * regionsPerMap + g.localIndex c)
        else none
  -- two cells share a region exactly when they share a block
  block : ∀ {m : MapId} {g : MapGrid} {c₁ c₂ : Cell} {r : RegionId}, w.map? m = some g →
    w.regionAt m c₁ = some r → g.contains c₂ = true →
    (w.regionAt m c₂ = some r ↔
      c₁.x.toNat / g.regionSize.toNat = c₂.x.toNat / g.regionSize.toNat ∧
        c₁.z.toNat / g.regionSize.toNat = c₂.z.toNat / g.regionSize.toNat)
  regionsOf_nodup : ∀ m, (w.regionsOf m).Nodup
  -- a map's listed regions are those of its cells, and no region belongs to two maps
  mem_regionsOf : ∀ {m : MapId} {g : MapGrid} {r : RegionId}, w.map? m = some g →
    g.regionsEnabled = true →
    (r ∈ w.regionsOf m ↔ ∃ c, g.contains c = true ∧ w.regionAt m c = some r)
  map_unique : ∀ {m₁ m₂ : MapId} {c₁ c₂ : Cell} {r : RegionId},
    w.regionAt m₁ c₁ = some r → w.regionAt m₂ c₂ = some r → m₁ = m₂
  -- so dropping one map's regions keeps every region scope of every other map
  mapRemoved_keeps : ∀ (s : Session) (name : String) {m m' : MapId} {c : Cell} {r : RegionId},
    m' ≠ m → w.regionAt m' c = some r →
    ((s.mapRemoved m (w.regionsOf m)).2.regionCache name).itemsIn r =
      (s.regionCache name).itemsIn r

theorem MapsFit.regionsLaidOut {w : World} (hw : w.MapsFit) : w.RegionsLaidOut where
  grid hm _ := ⟨(hw.fits hm).2.size_pos, (hw.fits hm).2.count_le⟩
  regionAt {m g c} hm he hc := by
    obtain ⟨hid, hg⟩ := hw.fits hm
    refine ⟨hg.localIndex_lt hc, ?_⟩
    rw [regionAt_of_map? hm, hg.regionAt_val he hc, hid]
  block hm h₁ hc₂ := by
    rw [regionAt_of_map? hm] at h₁ ⊢
    exact (hw.fits hm).2.regionAt_eq_iff_block h₁ hc₂
  regionsOf_nodup := regionsOf_nodup w
  mem_regionsOf {m g r} hm he := by
    rw [regionsOf_of_map? hm, (hw.fits hm).2.mem_regions_iff_regionAt he]
    simp only [regionAt_of_map? hm]
  map_unique := hw.eq_of_regionAt
  mapRemoved_keeps s name {m m' c r} hne h :=
    Session.itemsIn_mapRemoved s m (fun hr => hne (hw.eq_of_mem_regionsOf hr h)) name

end World

/-- In every reachable world the regions are laid out as `World.RegionsLaidOut` says. -/
theorem regions_laid_out_of_reachable {w : World} (hw : w.Reachable) : w.RegionsLaidOut :=
  hw.mapsFit.regionsLaidOut

/-- A map numbered 429496, whose region ids run past 32 bits after 7296 regions, is laid out too. -/
theorem top_map_regions_laid_out :
    let w := (({ lastMap := 429495 } : World).addMap 1000 1000 1).2.setRegionsEnabled ⟨429496⟩ true
    w.Reachable ∧ w.RegionsLaidOut :=
  let hw : World.Reachable
      ((({ lastMap := 429495 } : World).addMap 1000 1000 1).2.setRegionsEnabled ⟨429496⟩ true) :=
    .setRegionsEnabled _ _ (.addMap _ _ _ (.keepMaps .empty rfl))
  ⟨hw, regions_laid_out_of_reachable hw⟩

end ColonyCache
