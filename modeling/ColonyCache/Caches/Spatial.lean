import ColonyCache.Scoped.Basic
import ColonyCache.World.Basic
/-! Things filed by where they are: by region for hauling and harvesting, by map for refuelling
and for animals. -/
namespace ColonyCache

abbrev RegionThings := ScopedCache RegionId EntityId Thing

abbrev MapThings := ScopedCache MapId EntityId Thing

namespace RegionThings

/-- Files every item on map `m` by its region and gives how many were newly filed. -/
def addAllItems (c : RegionThings) (w : World) (m : MapId) : Nat × RegionThings :=
  (w.thingsOn m).foldl (fun (n, c) t =>
    if t.kind == .item then
      let (added, c) := c.add w.regionOf t
      (if added then n + 1 else n, c)
    else (n, c)) (0, c)

/-- Files a plant as ready for harvest: crops anywhere, other plants only in a grow zone. -/
def markHarvestable (c : RegionThings) (w : World) (t : Thing) : Bool × RegionThings :=
  match t.kind with
  | .plant species =>
    if PlantSpecies.cultivars.contains species || w.inGrowZone t.map t.cell then
      c.add w.regionOf t
    else (false, c)
  | _ => (false, c)

/-- The current cells of the filed plants of region `r` that still exist. -/
def harvestableCells (c : RegionThings) (w : World) (r : RegionId) : List Cell :=
  (c.itemsIn r).filterMap fun t => (w.thing? t.id).map (·.cell)

end RegionThings

namespace MapThings

/-- Files a thing under the map it names. -/
def mark (c : MapThings) (t : Thing) : Bool × MapThings := c.insertInto t t.map

/-- Files an animal under the map it names; other things are refused. -/
def markAnimal (c : MapThings) (t : Thing) : Bool × MapThings :=
  if t.kind.isAnimal then c.insertInto t t.map else (false, c)

def animalsReadyFor (c : MapThings) (m : MapId) (p : AnimalProduct) : List Thing :=
  (c.itemsIn m).filter (·.kind == .animal p)

end MapThings

end ColonyCache
