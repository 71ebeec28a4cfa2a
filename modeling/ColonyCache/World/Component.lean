import ColonyCache.World.Thing
/-! Components: the parts of a thing's state that machines and goods carry, one of each kind. -/
namespace ColonyCache

/-- How well an item is made, from worst to best. -/
inductive Quality where
  | poor
  | normal
  | good
  | excellent
deriving DecidableEq, Hashable, Repr, Inhabited

/-- The rank of a quality, worst first. -/
def Quality.rank : Quality → Nat
  | .poor => 0
  | .normal => 1
  | .good => 2
  | .excellent => 3

instance : Ord Quality := ⟨fun a b => compare a.rank b.rank⟩

inductive ComponentKind where
  | quality
  | powerSwitch
  | schedule
  | breakdown
deriving DecidableEq, Hashable, Repr, Inhabited

/-- One component with its state. -/
inductive Component where
  | quality (q : Quality)
  | powerSwitch (on : Bool)
  | schedule (allowed : Bool)
  | breakdown (broken : Bool)
deriving DecidableEq, Repr, Inhabited

def Component.kind : Component → ComponentKind
  | .quality _ => .quality
  | .powerSwitch _ => .powerSwitch
  | .schedule _ => .schedule
  | .breakdown _ => .breakdown

/-- The components a new thing of kind `k` starts with, in slot order. -/
def ThingKind.defaultComponents : ThingKind → List Component
  | .item => [.quality .normal]
  | .turret => [.powerSwitch true, .breakdown false]
  | .generator => [.powerSwitch true, .schedule true, .breakdown false]
  | _ => []

end ColonyCache
