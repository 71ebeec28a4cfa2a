import ColonyCache.Recency.Arena
import ColonyCache.World.Thing
import ColonyCache.World.Social
/-! A bounded cache of what one person is to another, by ordered pair. -/
namespace ColonyCache

/-- The relations of ordered pairs, kept in a bounded cache. -/
structure RelationsCache where
  pairs : ArenaCache RelationKey (List RelationKind)

namespace RelationsCache

/-- An empty cache for the relations of at most `capacity` pairs. -/
def new (capacity : Nat) : RelationsCache := ⟨ArenaCache.new capacity⟩

def stats (c : RelationsCache) : CacheStats := c.pairs.stats

def clear (c : RelationsCache) : RelationsCache := ⟨c.pairs.clear⟩

/-- Keeps `rs` as what `subject` is to `related`, if the subject is a person. -/
def addBetween (c : RelationsCache) (subject related : Thing) (rs : List RelationKind) :
    RelationsCache :=
  if subject.kind.isHumanlike then ⟨(c.pairs.put ⟨subject.id, related.id⟩ rs).2⟩ else c

/-- What `subject` is to `related`, if kept; a lookup that counts as a use. -/
def between (c : RelationsCache) (subject related : EntityId) :
    Option (List RelationKind) × RelationsCache :=
  let (rs, pairs) := c.pairs.get ⟨subject, related⟩
  (rs, ⟨pairs⟩)

def clearBetween (c : RelationsCache) (a b : EntityId) : RelationsCache :=
  let key : RelationKey := ⟨a, b⟩
  ⟨((c.pairs.remove key).2.remove key.reversed).2⟩

end RelationsCache

end ColonyCache
