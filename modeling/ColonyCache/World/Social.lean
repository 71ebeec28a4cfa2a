import ColonyCache.Identity
/-! What ties people to each other and to work: relations, work kinds and affiliations. -/
namespace ColonyCache

/-- What one person is to another. -/
inductive RelationKind where
  | parent
  | child
  | sibling
  | spouse
  | friend
deriving DecidableEq, Hashable, Repr, Inhabited

/-- What the other person is in return: parent and child swap, the rest are symmetric. -/
def RelationKind.inverse : RelationKind → RelationKind
  | .parent => .child
  | .child => .parent
  | k => k

@[simp] theorem RelationKind.inverse_inverse (k : RelationKind) : k.inverse.inverse = k := by
  cases k <;> rfl

inductive WorkKind where
  | hauling
  | harvesting
  | refueling
  | gathering
deriving DecidableEq, Hashable, Repr, Inhabited

/-- How a visitor stands towards the colony. -/
inductive Affiliation where
  | guest
  | mercenary
deriving DecidableEq, Hashable, Repr, Inhabited

/-- Every standing, in a fixed order. -/
def Affiliation.all : List Affiliation := [.guest, .mercenary]

end ColonyCache
