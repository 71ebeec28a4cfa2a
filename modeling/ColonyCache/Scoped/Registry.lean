import ColonyCache.Scoped.Basic
/-! Caches kept under names, made on the first request for a name and maintained together. -/
namespace ColonyCache

/-- Named caches in the order of their making; no name occurs twice. -/
structure Registry (γ : Type) where
  /-- Each name with its cache, oldest first. -/
  entries : List (String × γ)

namespace Registry

variable {γ : Type}

instance : EmptyCollection (Registry γ) := ⟨⟨[]⟩⟩

def get? (r : Registry γ) (name : String) : Option γ :=
  (r.entries.find? (·.1 == name)).map (·.2)

def contains (r : Registry γ) (name : String) : Bool := r.entries.any (·.1 == name)

def size (r : Registry γ) : Nat := r.entries.length

def isEmpty (r : Registry γ) : Bool := r.entries.isEmpty

def names (r : Registry γ) : List String := r.entries.map (·.1)

/-- The cache under `name`, made by `factory` and kept at the end if there is none. -/
def getOrCreateWith {m : Type → Type} [Monad m] (r : Registry γ) (name : String)
    (factory : String → m γ) : m (γ × Registry γ) :=
  match r.get? name with
  | some c => pure (c, r)
  | none => do
    let fresh ← factory name
    pure (fresh, ⟨r.entries ++ [(name, fresh)]⟩)

/-- The cache under `name`, made as `fresh` and kept at the end if the name is new. -/
def getOrCreate (r : Registry γ) (name : String) (fresh : γ) : γ × Registry γ :=
  Id.run (r.getOrCreateWith name fun _ => pure fresh)

/-- Whether two names are kept and name the same cache, if both are kept. -/
def sameCache (r : Registry γ) (a b : String) : Option Bool :=
  if r.contains a && r.contains b then some (a == b) else none

/-- Changes the cache under `name` by `f` and gives what `f` answers, if the name is kept. -/
def modify {α : Type} (r : Registry γ) (name : String) (f : γ → α × γ) : Option α × Registry γ :=
  match r.get? name with
  | none => (none, r)
  | some c =>
    let (a, c') := f c
    (some a, ⟨r.entries.map fun (n, d) => if n == name then (n, c') else (n, d)⟩)

def mapAll (r : Registry γ) (f : γ → γ) : Registry γ := ⟨r.entries.map fun (n, c) => (n, f c)⟩

/-- Changes every cache by `f`, oldest first, and adds up what `f` answers. -/
def sumAll (r : Registry γ) (f : γ → Nat × γ) : Nat × Registry γ :=
  let step := fun (acc : Nat × List (String × γ)) (e : String × γ) =>
    let (n, c) := f e.2
    (acc.1 + n, acc.2 ++ [(e.1, c)])
  let (n, es) := r.entries.foldl step (0, [])
  (n, ⟨es⟩)

section Scoped

variable {σ κ ι : Type} [Ord σ] [BEq κ] [Hashable κ] [Keyed ι κ]

def removeItem (r : Registry (ScopedCache σ κ ι)) (k : κ) : Registry (ScopedCache σ κ ι) :=
  r.mapAll fun c => (c.remove k).2

/-- Drops scope `s` from every cache and gives the number of items dropped in all. -/
def removeScope (r : Registry (ScopedCache σ κ ι)) (s : σ) : Nat × Registry (ScopedCache σ κ ι) :=
  r.sumAll fun c => c.removeScope s

/-- Files the item with key `k` afresh in every cache that holds it. -/
def relocateItem (r : Registry (ScopedCache σ κ ι)) (resolve : ι → Option σ) (k : κ) :
    Registry (ScopedCache σ κ ι) :=
  r.mapAll fun c => (c.relocate resolve k).2

/-- Empties every cache and keeps the names. -/
def clearAll (r : Registry (ScopedCache σ κ ι)) : Registry (ScopedCache σ κ ι) :=
  r.mapAll ScopedCache.clear

/-- The counts of each cache by name, names in the order of their text. -/
def stats (r : Registry (ScopedCache σ κ ι)) : List (String × ScopeStats) :=
  (r.entries.map fun (n, c) => (n, c.stats)).mergeSort fun a b => !decide (b.1 < a.1)

end Scoped

end Registry

end ColonyCache
