import ColonyCache.Request.Basic
import ColonyCache.Identity.Hashing
import ColonyCache.Json.Read
/-! Requests about identifiers: identity hashes, and the text and number of an identifier. -/
namespace ColonyCache.Request

/-! ## `hash` and `identity` -/

def notInteger {α : Type} : Outcome α := bad "value is not an integer"
def outOfRange {α : Type} : Outcome α := bad "value out of range for type"

/-- The integer a decimal text stands for, if it lies in `[lo, hi)`. -/
def decimalInteger (signed : Bool) (lo hi : Int) (s : String) : Option Int :=
  let (neg, body) := match s.toList with
    | '-' :: r => if signed then (true, r) else (false, '-' :: r)
    | '+' :: r => (false, r)
    | r => (false, r)
  if body.isEmpty || !body.all Json.isDigit then none
  else
    let n : Int := if neg then -(Json.digitsValue body : Int) else Json.digitsValue body
    if lo ≤ n ∧ n < hi then some n else none

/-- A JSON integer, or a decimal text read as a 128-bit word, unsigned when `wide`. -/
def wholeValue (wide : Bool) : Json → Outcome Int
  | .int n => pure n
  | .str s =>
    let read :=
      if wide then decimalInteger false 0 (Nat.pow 2 128 : Nat) s
      else decimalInteger true (-(Nat.pow 2 127 : Nat)) (Nat.pow 2 127 : Nat) s
    match read with
    | some n => pure n
    | none => notInteger
  | _ => notInteger

/-- A whole number from `lo` up to but not including `hi`. -/
def inRange (lo hi : Int) (wide : Bool) (v : Json) : Outcome Int := do
  let n ← wholeValue wide v
  if lo ≤ n ∧ n < hi then pure n else outOfRange

def unsignedValue (bits : Nat) (v : Json) : Outcome Nat := do
  pure (← inRange 0 (Nat.pow 2 bits) (bits == 128) v).toNat

def signedValue (bits : Nat) (v : Json) : Outcome Int :=
  inRange (-(Nat.pow 2 (bits - 1) : Nat)) (Nat.pow 2 (bits - 1) : Nat) false v

def word32Value (v : Json) : Outcome UInt32 := do pure (← unsignedValue 32 v).toUInt32

def byteValue (v : Json) : Outcome UInt8 := do pure (← unsignedValue 8 v).toUInt8

/-- A pair of 32-bit words, written as a two-element array. -/
def pairValue : Json → Outcome (UInt32 × UInt32)
  | .arr [a, b] => do pure (← word32Value a, ← word32Value b)
  | _ => bad "value must be [a, b]"

/-- The identity hash of value `v` read as type `ty`. -/
def hashOf (ty : String) (v : Json) : Outcome UInt64 :=
  match ty with
  | "u8" => do pure (identityHash (← unsignedValue 8 v).toUInt8)
  | "u16" => do pure (identityHash (← unsignedValue 16 v).toUInt16)
  | "u32" => do pure (identityHash (← unsignedValue 32 v).toUInt32)
  | "u64" | "usize" => do pure (identityHash (← unsignedValue 64 v).toUInt64)
  | "i8" => do pure (identityHash (Int8.ofInt (← signedValue 8 v)))
  | "i16" => do pure (identityHash (Int16.ofInt (← signedValue 16 v)))
  | "i32" => do pure (identityHash (Int32.ofInt (← signedValue 32 v)))
  | "i64" => do pure (identityHash (Int64.ofInt (← signedValue 64 v)))
  | "u128" => do pure (identityHash (BitVec.ofNat 128 (← unsignedValue 128 v)))
  | "i128" => do pure (identityHash (BitVec.ofInt 128 (← signedValue 128 v)))
  | "bool" => match v with
    | .bool b => pure (identityHash b)
    | _ => bad "value must be a boolean"
  | "char" => match v with
    | .str s => match s.toList with
      | [c] => pure (identityHash c)
      | _ => bad "value must be exactly one character"
    | _ => bad "value must be a string"
  | "str" => match v with
    | .str s => pure (identityHash s)
    | _ => bad "value must be a string"
  | "bytes" => match v with
    | .arr xs => do pure (identityHash (← xs.mapM byteValue))
    | _ => bad "value must be an array of bytes"
  | "pair_u32" => do pure (identityHash (← pairValue v))
  | "option_u32" => match v with
    | .null => pure (identityHash (none : Option UInt32))
    | v => do pure (identityHash (some (← word32Value v)))
  | "entity" => do pure (identityHash (EntityId.mk (← word32Value v)))
  | "map" => do pure (identityHash (MapId.mk (← word32Value v)))
  | "region" => do pure (identityHash (RegionId.mk (← word32Value v)))
  | "relation_key" => do
    let (a, b) ← pairValue v
    pure (identityHash (RelationKey.mk ⟨a⟩ ⟨b⟩))
  | t => bad ("unknown hash type " ++ quoted t)

/-- Answers a request for the identity hash of a value. -/
def runHash (o : Obj) : Outcome Json := do
  let ty ← str o "type"
  let v ← need o "value"
  pure (.obj [("hash", Json.nat (← hashOf ty v).toNat)])

/-- Answers a request on the identities of entities, maps, regions and relations. -/
def runIdentity (o : Obj) : Outcome Json := do
  let n := (← word32 o "value").toUInt32
  let kind ← str o "kind"
  let display ← match kind with
    | "entity" => pure fun (n : UInt32) => EntityId.display ⟨n⟩
    | "map" => pure fun (n : UInt32) => MapId.display ⟨n⟩
    | "region" => pure fun (n : UInt32) => RegionId.display ⟨n⟩
    | k => bad ("unknown identity kind " ++ quoted k)
  let base := [("display", Json.str (display n)), ("raw", word32Json n)]
  match optional o "related" with
  | none => pure (.obj base)
  | some v =>
    let m := (← asWord32 "related" v).toUInt32
    let key : RelationKey := ⟨⟨n⟩, ⟨m⟩⟩
    pure (.obj (base ++ [
      ("reversed", .arr [entityJson key.reversed.subject, entityJson key.reversed.related]),
      ("equals_reversed", .bool (key == key.reversed)),
      ("double_reverse_equal", .bool (key.reversed.reversed == key))]))

end ColonyCache.Request
