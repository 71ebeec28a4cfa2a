/-! The shortest decimal that reads back as a given binary64 value, found by trying one to
seventeen significant digits against the rounding interval in exact arithmetic. -/
namespace ColonyCache.Decimal

/-- A finite non-negative binary64 value, `m * 2^q`. -/
structure Binary where
  m : Nat
  q : Int
  /-- The gap to the value below is half the gap to the value above. -/
  narrowBelow : Bool
deriving Repr, DecidableEq

/-- The magnitude of a finite value, read from its bits (the sign bit is ignored). -/
def Binary.ofBits (b : UInt64) : Binary :=
  let e := ((b >>> 52) &&& 0x7FF).toNat
  let f := (b &&& 0xFFFFFFFFFFFFF).toNat
  if e = 0 then ⟨f, -1074, false⟩ else ⟨Nat.pow 2 52 + f, (e : Int) - 1075, f = 0 && 1 < e⟩

/-- The number `digits * 10^exp`. -/
structure Dec where
  digits : Nat
  exp : Int
deriving Repr, DecidableEq

/-- Compares `a * 10^i` with `n * 2^j` exactly. -/
def cmpScaled (a : Nat) (i : Int) (n : Nat) (j : Int) : Ordering :=
  compare (a * Nat.pow 10 i.toNat * Nat.pow 2 (-j).toNat)
    (n * Nat.pow 2 j.toNat * Nat.pow 10 (-i).toNat)

/-- Whether `d` lies among the reals that round to `x` under round-to-nearest, ties to even. -/
def Binary.readsBack (x : Binary) (d : Dec) : Bool :=
  let lo := if x.narrowBelow then 4 * x.m - 1 else 4 * x.m - 2
  let hi := 4 * x.m + 2
  let incl := x.m % 2 = 0
  let cl := cmpScaled d.digits d.exp lo (x.q - 2)
  let ch := cmpScaled d.digits d.exp hi (x.q - 2)
  (cl == .gt || (incl && cl == .eq)) && (ch == .lt || (incl && ch == .eq))

def Binary.num (x : Binary) : Nat := x.m * Nat.pow 2 x.q.toNat

def Binary.den (x : Binary) : Nat := Nat.pow 2 (-x.q).toNat

/-- The number of decimal digits of `n`, one for zero. -/
def digitCount (n : Nat) : Nat := (Nat.toDigits 10 n).length

/-- The exponent `k` with `10^k ≤ x < 10^(k+1)`, for a positive value. -/
def Binary.leadExp (x : Binary) : Int :=
  let k : Int := (digitCount x.num : Int) - digitCount x.den
  if x.den * Nat.pow 10 k.toNat ≤ x.num * Nat.pow 10 (-k).toNat then k else k - 1

/-- The nearest decimal of `n` significant digits that reads back as `x`, if there is one. -/
def Binary.candidate (x : Binary) (n : Nat) : Option Dec :=
  let e : Int := x.leadExp - n + 1
  let a := x.num * Nat.pow 10 (-e).toNat
  let b := x.den * Nat.pow 10 e.toNat
  let below : Dec := ⟨a / b, e⟩
  let above : Dec := ⟨a / b + 1, e⟩
  match x.readsBack below, x.readsBack above with
  | true, true => if 2 * a ≤ (2 * (a / b) + 1) * b then some below else some above
  | true, false => some below
  | false, true => some above
  | false, false => none

/-- Drops the zeros at the end of the digits, raising the exponent to match. -/
def Dec.trim (d : Dec) : Dec :=
  if h : d.digits ≠ 0 ∧ d.digits % 10 = 0 then
    Dec.trim ⟨d.digits / 10, d.exp + 1⟩
  else d
termination_by d.digits
decreasing_by exact Nat.div_lt_self (Nat.pos_of_ne_zero h.1) (by decide)

/-- The shortest decimal that reads back as `x`, the nearest of its length. -/
def Binary.shortest (x : Binary) : Dec :=
  if x.m = 0 then ⟨0, 0⟩
  else
    let fallback : Dec := ⟨x.num * Nat.pow 10 17 / x.den, -17⟩
    ((List.range 17).findSome? fun i => x.candidate (i + 1)).getD fallback |>.trim

/-- Where decimal text switches between positional notation and an exponent. -/
structure Layout where
  /-- Values below `10^maxLead` are written positionally. -/
  maxLead : Nat
  /-- Values at or above `10^(-minLead)` are written positionally. -/
  minLead : Nat
  /-- Whether a whole number written positionally ends in `.0`. -/
  pointZero : Bool
  /-- The mark before an exponent. -/
  expMark : String

def zeros (n : Nat) : String := String.ofList (List.replicate n '0')

/-- Writes `d` under `L`, where `d` has no zeros at the end of its digits. -/
def Dec.layout (L : Layout) (d : Dec) : String :=
  let s := (Nat.toDigits 10 d.digits)
  let len : Int := s.length
  let lead := len + d.exp
  if 0 ≤ d.exp ∧ lead ≤ L.maxLead then
    String.ofList s ++ zeros d.exp.toNat ++ (if L.pointZero then ".0" else "")
  else if 0 < lead ∧ lead ≤ L.maxLead then
    String.ofList (s.take lead.toNat) ++ "." ++ String.ofList (s.drop lead.toNat)
  else if -(L.minLead : Int) < lead ∧ lead ≤ 0 then
    "0." ++ zeros (-lead).toNat ++ String.ofList s
  else if s.length = 1 then
    String.ofList s ++ L.expMark ++ toString (lead - 1)
  else
    String.ofList (s.take 1) ++ "." ++ String.ofList (s.drop 1) ++ L.expMark ++ toString (lead - 1)

/-- The shortest text of a finite value under `L`, with a minus sign for a negative one. -/
def render (L : Layout) (x : Float) : String :=
  let bits := x.toBits
  let sign := if bits >>> 63 = 1 then "-" else ""
  let d := (Binary.ofBits bits).shortest
  if d.digits = 0 then sign ++ (if L.pointZero then "0.0" else "0")
  else sign ++ d.layout L

end ColonyCache.Decimal
