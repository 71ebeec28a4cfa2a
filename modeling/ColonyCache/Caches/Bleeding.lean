import ColonyCache.Recency.Arena
import ColonyCache.World.Health
/-! When an injury stops bleeding, and the bounded cache of those ages: a kept age is used as it
stands, one pushed out of the cache is computed again. -/
namespace ColonyCache

/-- The age at which an injury of severity `s` stops bleeding: 90000 ticks, plus up to 90000
more for `s` between 1 and 30, in single precision. -/
def stopBleedingAge (s : Float32) : UInt32 :=
  let base : Float32 := 90000
  let t := (s - 1) / (30 - 1)
  let t := if t < 0 then 0 else if t > 1 then 1 else t
  (base + (base * t).round).toUInt32

/-- The age at which each injury stops bleeding, kept in a bounded cache by injury id. -/
structure BleedingCache where
  ages : ArenaCache EntityId UInt32

namespace BleedingCache

/-- An empty cache for the stop ages of at most `capacity` injuries. -/
def new (capacity : Nat) : BleedingCache := ⟨ArenaCache.new capacity⟩

def stats (c : BleedingCache) : CacheStats := c.ages.stats

def clear (c : BleedingCache) : BleedingCache := ⟨c.ages.clear⟩

/-- Whether injury `i` still bleeds; a stop age not kept is computed and kept. -/
def isBleeding (c : BleedingCache) (i : Injury) : Bool × BleedingCache :=
  match c.ages.get i.id with
  | (some stop, ages) => (decide (i.ageTicks < stop), ⟨ages⟩)
  | (none, ages) =>
    let stop := stopBleedingAge i.severity
    (decide (i.ageTicks < stop), ⟨(ages.put i.id stop).2⟩)

def recordStopAge (c : BleedingCache) (e : EntityId) (age : UInt32) : BleedingCache :=
  ⟨(c.ages.put e age).2⟩

def removeCachedAge (c : BleedingCache) (e : EntityId) : BleedingCache := ⟨(c.ages.remove e).2⟩

end BleedingCache

end ColonyCache
