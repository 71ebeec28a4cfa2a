import ColonyCache.Json
import ColonyCache.Recency.Stats
import ColonyCache.Scoped.Basic
import ColonyCache.Events
/-! The JSON form of the counts that caches and the event bus report. -/
namespace ColonyCache

/-- The counts of a bounded cache, with its hit rate when `withRate` is set. -/
def CacheStats.toJson (s : CacheStats) (withRate : Bool) : Json :=
  .obj ([("hits", Json.nat s.hits.toNat), ("misses", Json.nat s.misses.toNat),
    ("insertions", Json.nat s.insertions.toNat), ("updates", Json.nat s.updates.toNat),
    ("evictions", Json.nat s.evictions.toNat), ("removals", Json.nat s.removals.toNat)] ++
    (if withRate then [("hit_rate", Json.num s.hitRate)] else []))

def ScopeStats.toJson (s : ScopeStats) : Json :=
  .obj [("scopes", Json.nat s.scopes), ("items", Json.nat s.items)]

def ListenerCounts.toJson (c : ListenerCounts) : Json :=
  .obj [("entity_removed", Json.nat c.entityRemoved),
    ("spatial_item_removed", Json.nat c.spatialItemRemoved),
    ("tick_boundary", Json.nat c.tickBoundary)]

end ColonyCache
