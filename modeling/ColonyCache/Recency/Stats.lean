/-! Counters that a bounded cache keeps about its own use. -/
namespace ColonyCache

/-- How often each event happened since the cache was made or cleared, modulo 2^64. -/
structure CacheStats where
  hits : UInt64 := 0
  misses : UInt64 := 0
  insertions : UInt64 := 0
  updates : UInt64 := 0
  evictions : UInt64 := 0
  removals : UInt64 := 0
deriving Repr, DecidableEq, Inhabited

namespace CacheStats

/-- The share of lookups that found their key, and zero before the first lookup. -/
def hitRate (s : CacheStats) : Float :=
  let total := s.hits + s.misses
  if total = 0 then 0.0 else s.hits.toFloat / total.toFloat

/-- Counts one lookup that found its key. -/
def hit (s : CacheStats) : CacheStats := { s with hits := s.hits + 1 }

/-- Counts one lookup that did not find its key. -/
def miss (s : CacheStats) : CacheStats := { s with misses := s.misses + 1 }

/-- Counts one key stored for the first time. -/
def inserted (s : CacheStats) : CacheStats := { s with insertions := s.insertions + 1 }

/-- Counts one stored key given a new value. -/
def updated (s : CacheStats) : CacheStats := { s with updates := s.updates + 1 }

/-- Counts one key pushed out to make room. -/
def evicted (s : CacheStats) : CacheStats := { s with evictions := s.evictions + 1 }

/-- Counts one key taken out on request. -/
def removed (s : CacheStats) : CacheStats := { s with removals := s.removals + 1 }

end CacheStats

end ColonyCache
