import ColonyCache.Identity
/-! The identity hash: writing a word sets the state to it and writing bytes folds each in, so a
value hashes to what its last write leaves. -/
namespace ColonyCache

/-- One write into the hasher. -/
inductive HashWrite where
  /-- A whole number of at most 64 bits: it becomes the state. -/
  | word (w : UInt64)
  /-- Raw bytes, folded into the state one at a time. -/
  | bytes (bs : List UInt8)
deriving DecidableEq, Repr

namespace HashWrite

/-- The state turned left by eight bits, with the byte mixed into its low bits. -/
def foldByte (h : UInt64) (b : UInt8) : UInt64 := ((h <<< 8) ||| (h >>> 56)) ^^^ b.toUInt64

def apply (h : UInt64) : HashWrite → UInt64
  | .word w => w
  | .bytes bs => bs.foldl foldByte h

end HashWrite

/-- The state after a sequence of writes, starting from zero. -/
def hashWrites (ws : List HashWrite) : UInt64 := ws.foldl HashWrite.apply 0

/-- The writes that hashing a value of a type makes. -/
class IdentityHash (α : Type) where
  writes : α → List HashWrite

def identityHash {α : Type} [IdentityHash α] (x : α) : UInt64 := hashWrites (IdentityHash.writes x)

/-- The sixteen bytes of a 128-bit number, least significant first. -/
def littleEndian16 (n : Nat) : List UInt8 :=
  (List.range 16).map fun i => (n / Nat.pow 2 (8 * i)).toUInt8

instance : IdentityHash UInt8 := ⟨fun n => [.word n.toUInt64]⟩
instance : IdentityHash UInt16 := ⟨fun n => [.word n.toUInt64]⟩
instance : IdentityHash UInt32 := ⟨fun n => [.word n.toUInt64]⟩
instance : IdentityHash UInt64 := ⟨fun n => [.word n]⟩
/-- A signed number is written as the unsigned number of the same width and bits. -/
instance : IdentityHash Int8 := ⟨fun n => [.word n.toUInt8.toUInt64]⟩
instance : IdentityHash Int16 := ⟨fun n => [.word n.toUInt16.toUInt64]⟩
instance : IdentityHash Int32 := ⟨fun n => [.word n.toUInt32.toUInt64]⟩
instance : IdentityHash Int64 := ⟨fun n => [.word n.toUInt64]⟩
/-- A 128-bit number is too wide for a word and goes in as its bytes. -/
instance : IdentityHash (BitVec 128) := ⟨fun n => [.bytes (littleEndian16 n.toNat)]⟩
instance : IdentityHash Bool := ⟨fun b => [.word (if b then 1 else 0)]⟩
instance : IdentityHash Char := ⟨fun c => [.word c.val.toUInt64]⟩
/-- Text goes in as its UTF-8 bytes followed by the end mark 255. -/
instance : IdentityHash String := ⟨fun s => [.bytes s.toUTF8.toList, .word 255]⟩
/-- A byte sequence goes in as its length and then its bytes. -/
instance : IdentityHash (List UInt8) := ⟨fun bs => [.word bs.length.toUInt64, .bytes bs]⟩
instance {α β : Type} [IdentityHash α] [IdentityHash β] : IdentityHash (α × β) :=
  ⟨fun p => IdentityHash.writes p.1 ++ IdentityHash.writes p.2⟩
/-- An option goes in as its case, zero or one, then its payload if present. -/
instance {α : Type} [IdentityHash α] : IdentityHash (Option α) :=
  ⟨fun
    | none => [.word 0]
    | some a => .word 1 :: IdentityHash.writes a⟩
instance : IdentityHash EntityId := ⟨fun e => [.word e.val.toUInt64]⟩
instance : IdentityHash MapId := ⟨fun m => [.word m.val.toUInt64]⟩
instance : IdentityHash RegionId := ⟨fun r => [.word r.val.toUInt64]⟩
instance : IdentityHash RelationKey :=
  ⟨fun k => IdentityHash.writes k.subject ++ IdentityHash.writes k.related⟩

end ColonyCache
