import Std.Data.HashMap
import ColonyCache.Recency.Stats
/-! A bounded recency cache kept in an arena of slots, linked from the most recently used entry
(the head) to the least (the tail), with a hash index from keys to slots. -/
namespace ColonyCache

/-- The room a cache for `capacity` keys sets aside: one more, summed in a 64-bit word. -/
def reservedRoom (capacity : Nat) : Nat := ((max capacity 1).toUInt64 + 1).toNat

/-- A slot of the arena: its entry, if any, and its neighbours in the recency list. -/
structure Slot (α β : Type) where
  entry : Option (α × β) := none
  prev : Option Nat := none
  next : Option Nat := none

/-- A bounded cache whose entries lie in the slots of an arena, linked most recent first. -/
structure ArenaCache (α β : Type) [BEq α] [Hashable α] where
  /-- The most entries kept at once; never zero. -/
  capacity : Nat
  /-- The room the index and the arena were made with. -/
  reserved : Nat
  /-- The slot of each stored key. -/
  index : Std.HashMap α Nat
  slots : Array (Slot α β)
  /-- The slots given back and not yet handed out again, the last given back first. -/
  free : List Nat
  head : Option Nat
  tail : Option Nat
  stats : CacheStats

namespace ArenaCache

variable {α β : Type} [BEq α] [Hashable α]

/-- An empty cache for at most `capacity` keys, where a capacity of zero means one. -/
def new (capacity : Nat) : ArenaCache α β :=
  let room := reservedRoom capacity
  ⟨max capacity 1, room, Std.HashMap.emptyWithCapacity room, Array.emptyWithCapacity room, [], none,
    none, {}⟩

def size (c : ArenaCache α β) : Nat := c.index.size

def isEmpty (c : ArenaCache α β) : Bool := c.index.isEmpty

/-- Whether `k` is stored; this is no use of the key. -/
def contains (c : ArenaCache α β) (k : α) : Bool := c.index.contains k

/-- The slot at `i`, and an empty one past the end of the arena. -/
def slot (c : ArenaCache α β) (i : Nat) : Slot α β := c.slots.getD i {}

/-- Changes slot `i` by `f`; past the end of the arena nothing changes. -/
def modifySlot (c : ArenaCache α β) (i : Nat) (f : Slot α β → Slot α β) : ArenaCache α β :=
  { c with slots := c.slots.modify i f }

/-- Points the forward link of slot `p` at `n`, or the head when there is no slot `p`. -/
def linkForward (c : ArenaCache α β) (p n : Option Nat) : ArenaCache α β :=
  match p with
  | some p => c.modifySlot p fun x => { x with next := n }
  | none => { c with head := n }

/-- Points the back link of slot `n` at `p`, or the tail when there is no slot `n`. -/
def linkBack (c : ArenaCache α β) (n p : Option Nat) : ArenaCache α β :=
  match n with
  | some n => c.modifySlot n fun x => { x with prev := p }
  | none => { c with tail := p }

/-- Takes slot `i` out of the recency list, linking its neighbours to each other. -/
def unlink (c : ArenaCache α β) (i : Nat) : ArenaCache α β :=
  let s := c.slot i
  ((c.linkForward s.prev s.next).linkBack s.next s.prev).modifySlot i fun x =>
    { x with prev := none, next := none }

/-- Links slot `i` in front of the recency list; on an empty list it is also the tail. -/
def pushFront (c : ArenaCache α β) (i : Nat) : ArenaCache α β :=
  { (c.modifySlot i fun x => { x with prev := none, next := c.head }).linkBack c.head (some i) with
    head := some i }

def moveToFront (c : ArenaCache α β) (i : Nat) : ArenaCache α β :=
  if c.head = some i then c else (c.unlink i).pushFront i

/-- A slot holding `(k, v)`: the last slot given back, or else a new one. -/
def alloc (c : ArenaCache α β) (k : α) (v : β) : Nat × ArenaCache α β :=
  let s : Slot α β := { entry := some (k, v) }
  match c.free with
  | i :: rest => (i, { c.modifySlot i (fun _ => s) with free := rest })
  | [] => (c.slots.size, { c with slots := c.slots.push s })

/-- Takes out the entry of the tail slot and gives the slot back. -/
def evictLru (c : ArenaCache α β) : Option (α × β) × ArenaCache α β :=
  match c.tail with
  | none => (none, c)
  | some i =>
    let c := c.unlink i
    let c := { c with free := i :: c.free }
    match (c.slot i).entry with
    | none => (none, c)
    | some (k, v) =>
      (some (k, v), { c.modifySlot i (fun x => { x with entry := none }) with
        index := c.index.erase k
        stats := c.stats.evicted })

/-- Looks `k` up; a hit makes its slot the most recent one. -/
def get (c : ArenaCache α β) (k : α) : Option β × ArenaCache α β :=
  match c.index[k]? with
  | some i =>
    let c := { c with stats := c.stats.hit }.moveToFront i
    ((c.slot i).entry.map Prod.snd, c)
  | none => (none, { c with stats := c.stats.miss })

/-- The value stored for `k`, without counting a use. -/
def peek (c : ArenaCache α β) (k : α) : Option β :=
  c.index[k]?.bind fun i => (c.slot i).entry.map Prod.snd

/-- Stores `v` under `k` as the most recent entry, evicting the least recent one when a new key
finds the cache full. -/
def put (c : ArenaCache α β) (k : α) (v : β) : Option (α × β) × ArenaCache α β :=
  match c.index[k]? with
  | some i =>
    let c := (c.modifySlot i fun x => { x with entry := some (k, v) }).moveToFront i
    (none, { c with stats := c.stats.updated })
  | none =>
    let (i, c) := c.alloc k v
    let c := { c with index := c.index.insert k i }.pushFront i
    let c := { c with stats := c.stats.inserted }
    if c.capacity < c.index.size then c.evictLru else (none, c)

/-- Takes `k` out, gives its slot back and returns its value, if it was stored. -/
def remove (c : ArenaCache α β) (k : α) : Option β × ArenaCache α β :=
  match c.index[k]? with
  | none => (none, c)
  | some i =>
    let c := { c with index := c.index.erase k }.unlink i
    let c := { c with free := i :: c.free, stats := c.stats.removed }
    ((c.slot i).entry.map Prod.snd, c.modifySlot i fun x => { x with entry := none })

/-- Forgets every entry, slot and count; the capacity and the room reserved stay. -/
def clear (c : ArenaCache α β) : ArenaCache α β :=
  ⟨c.capacity, c.reserved, {}, #[], [], none, none, {}⟩

/-- The entries met following the links from slot `i`, visiting at most `fuel` slots. -/
def entriesFrom (slots : Array (Slot α β)) : Nat → Option Nat → List (α × β)
  | 0, _ => []
  | _ + 1, none => []
  | fuel + 1, some i =>
    match (slots.getD i {}).entry with
    | some e => e :: entriesFrom slots fuel (slots.getD i {}).next
    | none => []

/-- The stored entries, most recently used first. -/
def toList (c : ArenaCache α β) : List (α × β) := entriesFrom c.slots c.slots.size c.head

end ArenaCache

end ColonyCache
