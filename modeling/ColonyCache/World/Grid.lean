import ColonyCache.World.Thing
/-! Maps cut row by row into square regions, at most 10000 a map, and the region size a new map
gets. -/
namespace ColonyCache

/-- The most regions a map may have. -/
def regionsPerMap : Nat := 10000

/-- The id `m * 10000 + l` of local region `l` on map `m`, if it fits in 32 bits. -/
def regionId (m : MapId) (l : Nat) : Option RegionId :=
  if l < regionsPerMap ∧ m.val.toNat * regionsPerMap + l < Nat.pow 2 32 then
    some ⟨(m.val.toNat * regionsPerMap + l).toUInt32⟩
  else none

/-- `a / b` rounded up. -/
def ceilDiv (a b : Nat) : Nat := (a + b - 1) / b

/-- The number of regions of size `s` that cover a `w` by `h` map. -/
def regionCount (w h s : Nat) : Nat := ceilDiv w s * ceilDiv h s

/-- Halving search for the least `s` in `(lo, hi]` with `ok s`, for `ok` false at `lo`. -/
def leastAbove (ok : Nat → Bool) (lo hi : Nat) : Nat :=
  if h : lo + 1 < hi then
    let mid := (lo + hi) / 2
    if ok mid then leastAbove ok lo mid else leastAbove ok mid hi
  else hi
termination_by hi - lo

/-- The first 32-bit size from `size` up that cuts a `w` by `h` map into at most 10000 regions;
`none` when the loop steps past the largest. -/
def regionSizeLoop (w h size : UInt32) : Option UInt32 :=
  if regionCount w.toNat h.toNat size.toNat ≤ regionsPerMap then some size
  else if hmax : size = 4294967295 then none
  else regionSizeLoop w h (size + 1)
termination_by UInt32.size - size.toNat
decreasing_by
  have hne : size.toNat ≠ 4294967295 := fun he => hmax (UInt32.toNat_inj.mp he)
  have hlt := size.toNat_lt_size
  rw [UInt32.toNat_add, UInt32.toNat_one]
  simp only [UInt32.size] at hlt ⊢
  omega

/-- The least region size, at least `max r 1`, that cuts a `w` by `h` map into at most 10000
regions. -/
def fittingRegionSize (w h r : Nat) : Nat :=
  let ok := fun s => decide (regionCount w h s ≤ regionsPerMap)
  let lo := max r 1
  if ok lo then lo else leastAbove ok lo (max lo (max w h))

/-- A map: its size in cells, its region size and whether regions are in use. -/
structure MapGrid where
  id : MapId
  width : UInt32
  height : UInt32
  regionSize : UInt32
  regionsEnabled : Bool
deriving DecidableEq, Repr, Inhabited

namespace MapGrid

def contains (g : MapGrid) (c : Cell) : Bool := c.x < g.width && c.z < g.height

def columns (g : MapGrid) : Nat := ceilDiv g.width.toNat g.regionSize.toNat

def rows (g : MapGrid) : Nat := ceilDiv g.height.toNat g.regionSize.toNat

/-- The region of a cell, when regions are in use and the cell is on the map. -/
def regionAt (g : MapGrid) (c : Cell) : Option RegionId :=
  if g.regionsEnabled && g.contains c then
    let s := g.regionSize.toNat
    regionId g.id (c.z.toNat / s * g.columns + c.x.toNat / s)
  else none

/-- Every region id of the map, in order of local number. -/
def regions (g : MapGrid) : List RegionId :=
  (List.range (g.columns * g.rows)).filterMap (regionId g.id)

/-- Whether `c` lies in the grow zone: on the map, in its first quarter of columns. -/
def inGrowZone (g : MapGrid) (c : Cell) : Bool := g.contains c && c.x < g.width / 4

end MapGrid

end ColonyCache
