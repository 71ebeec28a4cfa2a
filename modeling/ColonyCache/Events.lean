import ColonyCache.Identity
/-! An event bus: three kinds of event, each heard by its listeners in subscription order. -/
namespace ColonyCache

/-- Something that happened in the world and that caches may need to hear about. -/
inductive Event where
  /-- A thing was taken out of the world for good. -/
  | entityRemoved (e : EntityId)
  /-- A thing stopped occupying a cell. -/
  | spatialItemRemoved (e : EntityId)
  /-- A tick of the simulation began. -/
  | tickBoundary
deriving DecidableEq, Repr

/-- The kinds of event, one per listener list. -/
inductive EventKind where
  | entityRemoved
  | spatialItemRemoved
  | tickBoundary
deriving DecidableEq, Repr

def Event.kind : Event → EventKind
  | .entityRemoved _ => .entityRemoved
  | .spatialItemRemoved _ => .spatialItemRemoved
  | .tickBoundary => .tickBoundary

/-- How many listeners each kind of event has. -/
structure ListenerCounts where
  entityRemoved : Nat
  spatialItemRemoved : Nat
  tickBoundary : Nat
deriving Repr, DecidableEq

/-- The listeners of each kind of event, each list in subscription order. -/
structure EventBus (τ : Type) where
  entityRemoved : List τ := []
  spatialItemRemoved : List τ := []
  tickBoundary : List τ := []

namespace EventBus

variable {τ : Type}

def listenersOf (b : EventBus τ) : EventKind → List τ
  | .entityRemoved => b.entityRemoved
  | .spatialItemRemoved => b.spatialItemRemoved
  | .tickBoundary => b.tickBoundary

/-- Adds `t` as the last listener of kind `k`. -/
def subscribe (b : EventBus τ) (k : EventKind) (t : τ) : EventBus τ :=
  match k with
  | .entityRemoved => { b with entityRemoved := b.entityRemoved ++ [t] }
  | .spatialItemRemoved => { b with spatialItemRemoved := b.spatialItemRemoved ++ [t] }
  | .tickBoundary => { b with tickBoundary := b.tickBoundary ++ [t] }

def counts (b : EventBus τ) : ListenerCounts :=
  ⟨b.entityRemoved.length, b.spatialItemRemoved.length, b.tickBoundary.length⟩

/-- Hands `ev` to each of its listeners in order; `react` is what a listener does on it. -/
def deliver {σ : Type} (b : EventBus τ) (react : σ → τ → Event → σ) (ev : Event) (s : σ) : σ :=
  (b.listenersOf ev.kind).foldl (fun s t => react s t ev) s

end EventBus

end ColonyCache
