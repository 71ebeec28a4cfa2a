import ColonyCache.World.Health
/-! The set of ailments that leave a survivor immune. -/
namespace ColonyCache

/-- A set of ailments, each listed once. -/
structure ImmunizableSet where
  members : List Ailment
deriving DecidableEq, Repr

namespace ImmunizableSet

def ofList (as : List Ailment) : ImmunizableSet := ⟨as.eraseDups⟩

/-- The ailments known to leave immunity: flu, plague and malaria. -/
def known : ImmunizableSet := ofList (Ailment.all.filter Ailment.developsImmunity)

def contains (s : ImmunizableSet) (a : Ailment) : Bool := s.members.contains a

def size (s : ImmunizableSet) : Nat := s.members.length

def isEmpty (s : ImmunizableSet) : Bool := s.members.isEmpty

end ImmunizableSet

end ColonyCache
