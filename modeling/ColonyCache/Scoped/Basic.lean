import Std.Data.HashMap
import Std.Data.TreeMap
import ColonyCache.Identity
/-! Items filed by the scope they lie in, such as things by region; a resolver, which may answer
differently as the world changes, names an item's scope. -/
namespace ColonyCache

/-- The number of scopes and of items in a scoped cache. -/
structure ScopeStats where
  scopes : Nat
  items : Nat
deriving Repr, DecidableEq

/-- Items filed under scopes, each scope's items in filing order. -/
structure ScopedCache (σ κ ι : Type) [Ord σ] [BEq κ] [Hashable κ] where
  /-- Each scope's items, oldest first. -/
  buckets : Std.TreeMap σ (List ι) compare
  /-- The scope of each filed item, by its key. -/
  owner : Std.HashMap κ σ

namespace ScopedCache

variable {σ κ ι : Type} [Ord σ] [BEq κ] [Hashable κ] [Keyed ι κ]

instance : EmptyCollection (ScopedCache σ κ ι) := ⟨⟨{}, {}⟩⟩

def empty : ScopedCache σ κ ι := {}

def contains (c : ScopedCache σ κ ι) (k : κ) : Bool := c.owner.contains k

def scopeOf (c : ScopedCache σ κ ι) (k : κ) : Option σ := c.owner.get? k

/-- The items filed under `s`, oldest first. -/
def itemsIn (c : ScopedCache σ κ ι) (s : σ) : List ι := (c.buckets.get? s).getD []

def scopeSize (c : ScopedCache σ κ ι) (s : σ) : Nat := (c.itemsIn s).length

/-- The item with key `k`, found in the bucket of its scope. -/
def get (c : ScopedCache σ κ ι) (k : κ) : Option ι := do
  let s ← c.owner.get? k
  (c.itemsIn s).find? (Keyed.key · == k)

/-- The scopes that hold items, in their order. -/
def scopes (c : ScopedCache σ κ ι) : List σ := c.buckets.keys

def size (c : ScopedCache σ κ ι) : Nat := c.owner.size

def isEmpty (c : ScopedCache σ κ ι) : Bool := c.owner.isEmpty

def stats (c : ScopedCache σ κ ι) : ScopeStats := ⟨c.buckets.size, c.owner.size⟩

/-- Files `x` at the end of scope `s`, unless its key is filed already. -/
def insertInto (c : ScopedCache σ κ ι) (x : ι) (s : σ) : Bool × ScopedCache σ κ ι :=
  if c.owner.contains (Keyed.key x) then (false, c)
  else (true, ⟨c.buckets.insert s (c.itemsIn s ++ [x]), c.owner.insert (Keyed.key x) s⟩)

/-- Files `x` under the scope that `resolve` gives it, if any. -/
def add (c : ScopedCache σ κ ι) (resolve : ι → Option σ) (x : ι) : Bool × ScopedCache σ κ ι :=
  if c.owner.contains (Keyed.key x) then (false, c)
  else match resolve x with
    | some s => c.insertInto x s
    | none => (false, c)

/-- Takes the item with key `k` out of its scope and returns it; an emptied scope is dropped. -/
def remove (c : ScopedCache σ κ ι) (k : κ) : Option ι × ScopedCache σ κ ι :=
  match c.owner.get? k with
  | none => (none, c)
  | some s =>
    let owner := c.owner.erase k
    match c.buckets.get? s with
    | none => (none, { c with owner })
    | some xs =>
      let rest := xs.filter (Keyed.key · != k)
      let buckets := if rest.isEmpty then c.buckets.erase s else c.buckets.insert s rest
      (xs.find? (Keyed.key · == k), ⟨buckets, owner⟩)

/-- Files the item with key `k` afresh under the scope `resolve` now gives it. -/
def relocate (c : ScopedCache σ κ ι) (resolve : ι → Option σ) (k : κ) :
    Option σ × ScopedCache σ κ ι :=
  if c.owner.contains k then
    match c.remove k with
    | (some x, c') =>
      match resolve x with
      | some s => (some s, (c'.insertInto x s).2)
      | none => (none, c')
    | (none, c') => (none, c')
  else (none, c)

/-- Drops scope `s` with all its items and gives their number. -/
def removeScope (c : ScopedCache σ κ ι) (s : σ) : Nat × ScopedCache σ κ ι :=
  match c.buckets.get? s with
  | none => (0, c)
  | some xs =>
    (xs.length, ⟨c.buckets.erase s, xs.foldl (fun o x => o.erase (Keyed.key x)) c.owner⟩)

def clear (_ : ScopedCache σ κ ι) : ScopedCache σ κ ι := {}

/-- Every scope with its items, scopes in their order and items oldest first. -/
def toList (c : ScopedCache σ κ ι) : List (σ × List ι) := c.buckets.toList

end ScopedCache

end ColonyCache
