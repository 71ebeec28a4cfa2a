import Std.Data.HashMap
import ColonyCache.Identity
import ColonyCache.World.Social
/-! Caches of values about things, by id: each value is computed on the first request and kept
until it is taken out. -/
namespace ColonyCache

/-- Values about things, at most one per thing. -/
structure EntityCache (α : Type) where
  values : Std.HashMap EntityId α := {}

namespace EntityCache

variable {α : Type}

def get? (c : EntityCache α) (e : EntityId) : Option α := c.values.get? e

/-- The value kept for `e`, computed by `compute` and kept if there was none. -/
def getOrInsert (c : EntityCache α) (e : EntityId) (compute : Unit → α) : α × EntityCache α :=
  match c.values.get? e with
  | some v => (v, c)
  | none =>
    let v := compute ()
    (v, ⟨c.values.insert e v⟩)

def insert (c : EntityCache α) (e : EntityId) (v : α) : EntityCache α := ⟨c.values.insert e v⟩

def remove (c : EntityCache α) (e : EntityId) : Option α × EntityCache α :=
  (c.values.get? e, ⟨c.values.erase e⟩)

def removeAll (c : EntityCache α) (es : List EntityId) : EntityCache α :=
  ⟨es.foldl (fun m e => m.erase e) c.values⟩

def size (c : EntityCache α) : Nat := c.values.size

def isEmpty (c : EntityCache α) : Bool := c.values.isEmpty

def clear (_ : EntityCache α) : EntityCache α := {}

end EntityCache

/-- A tag type with its finite list of tags. -/
class TagSet (τ : Type) where
  all : List τ

instance : TagSet Affiliation := ⟨Affiliation.all⟩

/-- Values about a thing under a tag, at most one per thing and tag. -/
structure TaggedCache (τ : Type) (α : Type) [BEq τ] [Hashable τ] where
  values : Std.HashMap (EntityId × τ) α := {}

namespace TaggedCache

variable {τ α : Type} [BEq τ] [Hashable τ]

def get? (c : TaggedCache τ α) (e : EntityId) (t : τ) : Option α := c.values.get? (e, t)

/-- The value kept for `e` under `t`, computed by `compute` and kept if there was none. -/
def getOrInsert (c : TaggedCache τ α) (e : EntityId) (t : τ) (compute : Unit → α) :
    α × TaggedCache τ α :=
  match c.values.get? (e, t) with
  | some v => (v, c)
  | none =>
    let v := compute ()
    (v, ⟨c.values.insert (e, t) v⟩)

/-- Takes out the values of each of `es` under `t`. -/
def removeEntries (c : TaggedCache τ α) (t : τ) (es : List EntityId) : TaggedCache τ α :=
  ⟨es.foldl (fun m e => m.erase (e, t)) c.values⟩

/-- Takes out the values of `e` under every tag. -/
def removeEntity [TagSet τ] (c : TaggedCache τ α) (e : EntityId) : TaggedCache τ α :=
  ⟨(TagSet.all : List τ).foldl (fun m t => m.erase (e, t)) c.values⟩

def size (c : TaggedCache τ α) : Nat := c.values.size

def isEmpty (c : TaggedCache τ α) : Bool := c.values.isEmpty

def clear (_ : TaggedCache τ α) : TaggedCache τ α := {}

end TaggedCache

/-- The group of each member, a member being in at most one group. -/
structure GroupCache (γ : Type) where
  groups : Std.HashMap EntityId γ := {}

namespace GroupCache

variable {γ : Type} [BEq γ]

/-- Puts each of `es` in group `g`, moving those that were in another. -/
def mapMembers (c : GroupCache γ) (es : List EntityId) (g : γ) : GroupCache γ :=
  ⟨es.foldl (fun m e => m.insert e g) c.groups⟩

/-- Puts `e` in group `g` unless it is in a group already; tells whether it was put. -/
def mapMember (c : GroupCache γ) (e : EntityId) (g : γ) : Bool × GroupCache γ :=
  if c.groups.contains e then (false, c) else (true, ⟨c.groups.insert e g⟩)

def groupOf (c : GroupCache γ) (e : EntityId) : Option γ := c.groups.get? e

/-- Takes `e` out of group `g`, if that is its group. -/
def removeMember (c : GroupCache γ) (e : EntityId) (g : γ) : GroupCache γ :=
  if c.groups.get? e == some g then ⟨c.groups.erase e⟩ else c

/-- Takes every member out of group `g`. -/
def removeGroup (c : GroupCache γ) (g : γ) : GroupCache γ :=
  ⟨c.groups.filter fun _ h => !(h == g)⟩

def removeEntity (c : GroupCache γ) (e : EntityId) : GroupCache γ := ⟨c.groups.erase e⟩

def size (c : GroupCache γ) : Nat := c.groups.size

def isEmpty (c : GroupCache γ) : Bool := c.groups.isEmpty

def clear (_ : GroupCache γ) : GroupCache γ := {}

end GroupCache

end ColonyCache
