import ColonyCache.Identity
/-! The things of the simulated world, each on one map at one cell. -/
namespace ColonyCache

/-- A cell of a map: column `x`, row `z`. -/
structure Cell where
  x : UInt32
  z : UInt32
deriving DecidableEq, Hashable, Repr, Inhabited

/-- The rectangle of cells from `min` to `max`, both corners included. -/
structure Area where
  min : Cell
  max : Cell
deriving DecidableEq, Repr, Inhabited

def Area.contains (a : Area) (c : Cell) : Bool :=
  a.min.x ≤ c.x && c.x ≤ a.max.x && a.min.z ≤ c.z && c.z ≤ a.max.z

inductive PlantSpecies where
  | rice
  | corn
  | berries
  | oak
deriving DecidableEq, Hashable, Repr, Inhabited

/-- The species grown as crops, which may be harvested wherever they stand. -/
def PlantSpecies.cultivars : List PlantSpecies := [.rice, .corn]

/-- What an animal gives. -/
inductive AnimalProduct where
  | milk
  | wool
deriving DecidableEq, Hashable, Repr, Inhabited

/-- What a thing is. -/
inductive ThingKind where
  | item
  | plant (species : PlantSpecies)
  | animal (product : AnimalProduct)
  | turret
  | generator
  | colonist
deriving DecidableEq, Hashable, Repr, Inhabited

namespace ThingKind

/-- Whether the thing is a person. -/
def isHumanlike : ThingKind → Bool
  | .colonist => true
  | _ => false

def isTurret : ThingKind → Bool
  | .turret => true
  | _ => false

def isPlant : ThingKind → Bool
  | .plant _ => true
  | _ => false

def isAnimal : ThingKind → Bool
  | .animal _ => true
  | _ => false

/-- Whether the thing is a turret or a generator. -/
def isBuilding : ThingKind → Bool
  | .turret | .generator => true
  | _ => false

end ThingKind

/-- A thing as the world records it: what it is and where it stands. -/
structure Thing where
  id : EntityId
  kind : ThingKind
  map : MapId
  cell : Cell
deriving DecidableEq, Repr, Inhabited

instance : Keyed Thing EntityId := ⟨Thing.id⟩

end ColonyCache
