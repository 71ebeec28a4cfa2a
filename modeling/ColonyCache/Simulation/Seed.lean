import ColonyCache.World.Component
/-! Seeds of the simulation: each choice is drawn from the tick number through the splitmix64
finalizer `mix`, so runs with the same settings agree. -/
namespace ColonyCache.Simulation

/-- The number of maps in play at once. -/
def mapCount : Nat := 2

/-- The side of every map, in cells. -/
def mapSize : UInt32 := 48

/-- The side of every region, in cells. -/
def regionSize : UInt32 := 12

/-- The newest map is unloaded and replaced every this many ticks. -/
def mapCycleTicks : Nat := 120

/-- The plant species, in the order that new plants cycle through them. -/
def species : List PlantSpecies := [.rice, .corn, .berries, .oak]

/-- The qualities a new item may be made with. -/
def qualities : List Quality := [.poor, .normal, .good, .excellent]

/-- The splitmix64 finalizer: a bijection of 64-bit words that spreads every input bit. -/
def mix (seed : UInt64) : UInt64 :=
  let z := seed + 0x9E3779B97F4A7C15
  let z := (z ^^^ (z >>> 30)) * 0xBF58476D1CE4E5B9
  let z := (z ^^^ (z >>> 27)) * 0x94D049BB133111EB
  z ^^^ (z >>> 31)

/-- An index below `n` drawn from `seed`; `n` must not be zero. -/
def pick (seed : UInt64) (n : Nat) : Nat := (mix seed % n.toUInt64).toNat

/-- The element of `xs` drawn from `seed`, or none when `xs` is empty. -/
def choose {α : Type} (seed : UInt64) (xs : List α) : Option α :=
  if xs.isEmpty then none else xs[pick seed xs.length]?

/-- A cell of a map drawn from `seed`: the column from the seed, the row from its complement. -/
def scatterCell (seed : UInt64) : Cell :=
  ⟨(mix seed % mapSize.toUInt64).toUInt32, (mix (~~~seed) % mapSize.toUInt64).toUInt32⟩

/-- The square of cells within six of `center` in each direction, clipped to the map. -/
def homeArea (center : Cell) : Area :=
  let reach : UInt32 := 6
  let edge := mapSize - 1
  let lower (v : UInt32) : UInt32 := if reach ≤ v then v - reach else 0
  ⟨⟨lower center.x, lower center.z⟩, ⟨min (center.x + reach) edge, min (center.z + reach) edge⟩⟩

end ColonyCache.Simulation
