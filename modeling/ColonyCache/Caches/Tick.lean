import Std.Data.HashMap
/-! Values that hold for one tick: a summary per scope, computed at most once per tick. -/
namespace ColonyCache

/-- Values per scope for the current tick, with the count of those computed in it. -/
structure TickScopedCache (σ : Type) (α : Type) [BEq σ] [Hashable σ] where
  values : Std.HashMap σ α := {}
  computedThisTick : Nat := 0

namespace TickScopedCache

variable {σ α : Type} [BEq σ] [Hashable σ]

/-- The value of scope `s`, computed by `compute`, kept and counted if there was none. -/
def getOrCompute (c : TickScopedCache σ α) (s : σ) (compute : Unit → α) :
    α × TickScopedCache σ α :=
  match c.values.get? s with
  | some v => (v, c)
  | none =>
    let v := compute ()
    (v, ⟨c.values.insert s v, c.computedThisTick + 1⟩)

def get? (c : TickScopedCache σ α) (s : σ) : Option α := c.values.get? s

def size (c : TickScopedCache σ α) : Nat := c.values.size

def isEmpty (c : TickScopedCache σ α) : Bool := c.values.isEmpty

/-- Forgets every value and sets the count back to zero, as a new tick does. -/
def clear (_ : TickScopedCache σ α) : TickScopedCache σ α := {}

end TickScopedCache

end ColonyCache
