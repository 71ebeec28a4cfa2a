/-! Identifiers of things, maps and regions: 32-bit numbers, written as `entity-42`. -/
namespace ColonyCache

/-- The identifier of a thing in the world, and also of an injury. -/
structure EntityId where
  val : UInt32
deriving DecidableEq, Hashable, Repr, Inhabited

structure MapId where
  val : UInt32
deriving DecidableEq, Hashable, Repr, Inhabited

/-- The identifier of a region: a square block of cells on one map. -/
structure RegionId where
  val : UInt32
deriving DecidableEq, Hashable, Repr, Inhabited

instance : Ord EntityId := ⟨fun a b => compare a.val b.val⟩
instance : Ord MapId := ⟨fun a b => compare a.val b.val⟩
instance : Ord RegionId := ⟨fun a b => compare a.val b.val⟩

namespace EntityId
def raw (e : EntityId) : UInt64 := e.val.toUInt64
def display (e : EntityId) : String := "entity-" ++ toString e.val.toNat
end EntityId

namespace MapId
def raw (m : MapId) : UInt64 := m.val.toUInt64
def display (m : MapId) : String := "map-" ++ toString m.val.toNat
end MapId

namespace RegionId
def raw (r : RegionId) : UInt64 := r.val.toUInt64
def display (r : RegionId) : String := "region-" ++ toString r.val.toNat
end RegionId

/-- A directed pair of things: what `subject` is to `related`. -/
structure RelationKey where
  subject : EntityId
  related : EntityId
deriving DecidableEq, Hashable, Repr, Inhabited

def RelationKey.reversed (k : RelationKey) : RelationKey := ⟨k.related, k.subject⟩

@[simp] theorem RelationKey.reversed_reversed (k : RelationKey) : k.reversed.reversed = k := rfl

/-- Values that carry the identifier under which a cache files them. -/
class Keyed (ι : Type) (κ : outParam Type) where
  key : ι → κ

end ColonyCache
