import ColonyCache.Json
/-! Reading JSON text. Whole numbers that fit a 64-bit word stay exact; other numbers become
binary64 values computed the quick way, which may be off in the last place. Each step of the
reader consumes a character, so fuel equal to the length of the text is enough. -/
namespace ColonyCache.Json

def isBlank (c : Char) : Bool := c = ' ' || c = '\t' || c = '\n' || c = '\r'

def skipBlanks : List Char → List Char
  | c :: cs => if isBlank c then skipBlanks cs else c :: cs
  | [] => []

def hexValue (c : Char) : Option Nat :=
  if '0' ≤ c ∧ c ≤ '9' then some (c.toNat - '0'.toNat)
  else if 'a' ≤ c ∧ c ≤ 'f' then some (c.toNat - 'a'.toNat + 10)
  else if 'A' ≤ c ∧ c ≤ 'F' then some (c.toNat - 'A'.toNat + 10)
  else none

def readHex4 : List Char → Option (Nat × List Char)
  | a :: b :: c :: d :: rest => do
    let a ← hexValue a
    let b ← hexValue b
    let c ← hexValue c
    let d ← hexValue d
    pure (((a * 16 + b) * 16 + c) * 16 + d, rest)
  | _ => none

/-- The character of one escape after its backslash, and the text after it. -/
def readEscape : List Char → Option (Char × List Char)
  | '"' :: r => some ('"', r)
  | '\\' :: r => some ('\\', r)
  | '/' :: r => some ('/', r)
  | 'b' :: r => some ('\x08', r)
  | 'f' :: r => some ('\x0c', r)
  | 'n' :: r => some ('\n', r)
  | 'r' :: r => some ('\r', r)
  | 't' :: r => some ('\t', r)
  | 'u' :: r => do
    let (u, r) ← readHex4 r
    if 0xD800 ≤ u ∧ u < 0xDC00 then
      match r with
      | '\\' :: 'u' :: r =>
        let (l, r) ← readHex4 r
        if 0xDC00 ≤ l ∧ l < 0xE000 then
          some (Char.ofNat (0x10000 + (u - 0xD800) * 0x400 + (l - 0xDC00)), r)
        else none
      | _ => none
    else if 0xDC00 ≤ u ∧ u < 0xE000 then none
    else some (Char.ofNat u, r)
  | _ => none

/-- The rest of a string after its opening quote, and the text after its closing quote. -/
def readString : Nat → List Char → List Char → Option (String × List Char)
  | 0, _, _ => none
  | _ + 1, acc, '"' :: rest => some (String.ofList acc.reverse, rest)
  | fuel + 1, acc, '\\' :: rest => do
    let (c, rest) ← readEscape rest
    readString fuel (c :: acc) rest
  | fuel + 1, acc, c :: rest => if c.toNat < 0x20 then none else readString fuel (c :: acc) rest
  | _ + 1, _, [] => none

def isDigit (c : Char) : Bool := '0' ≤ c ∧ c ≤ '9'

def digitsValue (ds : List Char) : Nat := ds.foldl (fun n d => n * 10 + (d.toNat - '0'.toNat)) 0

/-- The binary64 value nearest to `n`, ties to even, for `n` below `2^1024`. -/
def nearestFloat (n : Nat) : Float :=
  let len := n.log2 + 1
  if len ≤ 53 then n.toUInt64.toFloat
  else
    let shift := len - 53
    let q := n / Nat.pow 2 shift
    let r := n % Nat.pow 2 shift
    let half := Nat.pow 2 (shift - 1)
    let q := if r > half ∨ (r = half ∧ q % 2 = 1) then q + 1 else q
    q.toUInt64.toFloat.scaleB (shift : Int)

/-- The binary64 power of ten `10^k`, rounded to nearest. -/
def powerOfTen (k : Nat) : Float := nearestFloat (Nat.pow 10 k)

def maxPowerOfTen : Nat := 308

/-- `f` divided by ten `k` times over, by `10^308` at a time beyond the table. -/
def divideByTen (k : Nat) (f : Float) : Float :=
  if k ≤ maxPowerOfTen then f / powerOfTen k
  else if f == 0.0 then f
  else divideByTen (k - maxPowerOfTen) (f / powerOfTen maxPowerOfTen)
termination_by k
decreasing_by unfold maxPowerOfTen at *; omega

/-- `sig * 10^exp10`, with the significand rounded and then scaled by the rounded power of
ten; an overflow is refused. -/
def scaledFloat (neg : Bool) (sig : Nat) (exp10 : Int) : Option Float := do
  let f := sig.toUInt64.toFloat
  let f ← if 0 ≤ exp10 then
      if exp10.toNat ≤ maxPowerOfTen then
        let g := f * powerOfTen exp10.toNat
        if g.isInf then none else some g
      else if f == 0.0 then some f
      else none
    else some (divideByTen (-exp10).toNat f)
  pure (if neg then -f else f)

/-- The largest 64-bit word, the bound of a significand. -/
def wordLimit : Nat := Nat.pow 2 64 - 1

/-- The largest signed 32-bit word, the bound of an exponent. -/
def exponentLimit : Nat := Nat.pow 2 31 - 1

/-- Digits appended to `acc` while the value stays at most `limit`, with their count. -/
def takeDigits (limit : Nat) : Nat → Nat → List Char → Nat × Nat × List Char
  | acc, k, c :: cs =>
    if isDigit c ∧ acc * 10 + (c.toNat - '0'.toNat) ≤ limit then
      takeDigits limit (acc * 10 + (c.toNat - '0'.toNat)) (k + 1) cs
    else (acc, k, c :: cs)
  | acc, k, [] => (acc, k, [])

/-- `n` held to the range of a signed 32-bit word. -/
def clampExponent (n : Int) : Int :=
  max (-(exponentLimit : Int) - 1) (min n exponentLimit)

/-- An exponent part after its letter, added to `start`, and the number it gives. -/
def readExponent (neg : Bool) (sig : Nat) (start : Int) (cs : List Char) :
    Option (Json × List Char) :=
  let (up, cs) := match cs with
    | '+' :: r => (true, r)
    | '-' :: r => (false, r)
    | r => (true, r)
  if !(cs.head?.any isDigit) then none
  else
    let (e, _, rest) := takeDigits exponentLimit 0 0 cs
    if rest.head?.any isDigit then
      if sig ≠ 0 ∧ up then none
      else some (.num (if neg then -0.0 else 0.0), rest.dropWhile isDigit)
    else
      (scaledFloat neg sig (clampExponent (if up then start + e else start - e))).map
        fun x => (.num x, rest)

/-- The end of a number: an exponent part if one follows, otherwise the number itself. -/
def finishFloat (neg : Bool) (sig : Nat) (exp10 : Int) : List Char → Option (Json × List Char)
  | e :: rest =>
    if e = 'e' ∨ e = 'E' then readExponent neg sig exp10 rest
    else do return (.num (← scaledFloat neg sig exp10), e :: rest)
  | [] => do return (.num (← scaledFloat neg sig exp10), [])

/-- A fraction after its point; digits past what a word holds are skipped. -/
def readFraction (neg : Bool) (sig : Nat) (exp10 : Int) (cs : List Char) :
    Option (Json × List Char) :=
  match cs with
  | c :: _ =>
    if !isDigit c then none
    else
      let (sig, k, rest) := takeDigits wordLimit sig 0 cs
      finishFloat neg sig (exp10 - k) (rest.dropWhile isDigit)
  | [] => none

/-- The rest of a number after its whole part, `extra` digits of which did not fit a word. -/
def readTail (neg : Bool) (sig : Nat) (extra : Nat) (long : Bool) :
    List Char → Option (Json × List Char)
  | '.' :: rest => readFraction neg sig extra rest
  | e :: rest =>
    if e = 'e' ∨ e = 'E' then readExponent neg sig extra rest
    else if long then do return (.num (← scaledFloat neg sig extra), e :: rest)
    else some (wholeNumber neg sig, e :: rest)
  | [] => if long then do return (.num (← scaledFloat neg sig extra), [])
    else some (wholeNumber neg sig, [])
where
  /-- A whole number that fits a word, exact unless below `-2^63` or negative zero. -/
  wholeNumber (neg : Bool) (sig : Nat) : Json :=
    if !neg then .int sig
    else if sig = 0 then .num (-0.0)
    else if sig ≤ Nat.pow 2 63 then .int (-(sig : Int))
    else .num (-sig.toUInt64.toFloat)

def readNumber (cs : List Char) : Option (Json × List Char) :=
  let (neg, cs) := match cs with
    | '-' :: rest => (true, rest)
    | _ => (false, cs)
  match cs with
  | '0' :: rest =>
    match rest with
    | c :: _ => if isDigit c then none else readTail neg 0 0 false rest
    | [] => readTail neg 0 0 false rest
  | c :: _ =>
    if !isDigit c then none
    else
      let (sig, _, rest) := takeDigits wordLimit 0 0 cs
      let extra := (rest.takeWhile isDigit).length
      readTail neg sig extra (extra ≠ 0) (rest.dropWhile isDigit)
  | [] => none

/-- How many arrays and objects may stand inside one another. -/
def maxNesting : Nat := 127

mutual
/-- A value and the text after it, inside arrays and objects up to `depth` more levels deep. -/
def readValue : Nat → Nat → List Char → Option (Json × List Char)
  | 0, _, _ => none
  | fuel + 1, depth, cs =>
    match skipBlanks cs with
    | 'n' :: 'u' :: 'l' :: 'l' :: rest => some (.null, rest)
    | 't' :: 'r' :: 'u' :: 'e' :: rest => some (.bool true, rest)
    | 'f' :: 'a' :: 'l' :: 's' :: 'e' :: rest => some (.bool false, rest)
    | '"' :: rest => (readString fuel [] rest).map fun (s, r) => (.str s, r)
    | '[' :: rest =>
      match depth with
      | 0 => none
      | depth + 1 =>
        match skipBlanks rest with
        | ']' :: r => some (.arr [], r)
        | _ => readItems fuel depth [] rest
    | '{' :: rest =>
      match depth with
      | 0 => none
      | depth + 1 =>
        match skipBlanks rest with
        | '}' :: r => some (.obj [], r)
        | _ => readMembers fuel depth [] rest
    | c :: rest => if c = '-' ∨ isDigit c then readNumber (c :: rest) else none
    | [] => none
/-- The items of an array after its opening bracket, and the text after it. -/
def readItems : Nat → Nat → List Json → List Char → Option (Json × List Char)
  | 0, _, _, _ => none
  | fuel + 1, depth, acc, cs => do
    let (v, rest) ← readValue fuel depth cs
    match skipBlanks rest with
    | ',' :: r => readItems fuel depth (v :: acc) r
    | ']' :: r => some (.arr (v :: acc).reverse, r)
    | _ => none
/-- The members of an object after its opening brace, and the text after it. -/
def readMembers : Nat → Nat → List (String × Json) → List Char → Option (Json × List Char)
  | 0, _, _, _ => none
  | fuel + 1, depth, acc, cs => do
    let (k, rest) ← match skipBlanks cs with
      | '"' :: r => readString fuel [] r
      | _ => none
    let rest ← match skipBlanks rest with
      | ':' :: r => some r
      | _ => none
    let (v, rest) ← readValue fuel depth rest
    let acc := (k, v) :: acc.filter (·.1 != k)
    match skipBlanks rest with
    | ',' :: r => readMembers fuel depth acc r
    | '}' :: r => some (.obj acc.reverse, r)
    | _ => none
end

/-- The document that `s` holds, with nothing but blanks after it. -/
def parse (s : String) : Option Json := do
  let cs := s.toList
  let (v, rest) ← readValue (cs.length + 1) maxNesting cs
  if (skipBlanks rest).isEmpty then some v else none

end ColonyCache.Json
