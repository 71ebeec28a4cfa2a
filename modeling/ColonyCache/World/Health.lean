import ColonyCache.Identity
/-! Health: ailments that people catch and injuries, owned by the person they wound. -/
namespace ColonyCache

/-- Illnesses a person can catch. -/
inductive Ailment where
  | flu
  | plague
  | malaria
  | gutWorms
  | asthma
deriving DecidableEq, Hashable, Repr, Inhabited

namespace Ailment

/-- Every ailment, in a fixed order. -/
def all : List Ailment := [.flu, .plague, .malaria, .gutWorms, .asthma]

/-- Whether surviving the ailment leaves the person immune to it. -/
def developsImmunity : Ailment → Bool
  | .flu | .plague | .malaria => true
  | _ => false

end Ailment

/-- A wound: its own id, the person it belongs to, how bad it is and how long ago it came. -/
structure Injury where
  id : EntityId
  owner : EntityId
  severity : Float32
  ageTicks : UInt32
deriving Repr, Inhabited

end ColonyCache
