import ColonyCache.Decimal.Shortest
/-! JSON documents as this library writes them: members in the order given, floats in their
shortest form that reads back. -/
namespace ColonyCache

inductive Json where
  | null
  | bool (b : Bool)
  /-- An exact integer. -/
  | int (n : Int)
  /-- A binary64 number. -/
  | num (x : Float)
  | str (s : String)
  | arr (items : List Json)
  /-- An object, its members in the order given. -/
  | obj (members : List (String × Json))
deriving Inhabited

namespace Json

/-- Positional from `1e-5` up to below `1e16`, with an exponent after `e` otherwise. -/
def floatLayout : Decimal.Layout := ⟨16, 5, true, "e"⟩

/-- The four hexadecimal digits of a code unit below `0x10000`, in lower case. -/
def hex4 (n : Nat) : String :=
  String.ofList ((List.range 4).reverse.map fun i => Nat.digitChar (n / Nat.pow 16 i % 16))

/-- One character inside a quoted string, with quotes, backslashes and controls escaped. -/
def escapeChar (c : Char) : String :=
  match c with
  | '"' => "\\\""
  | '\\' => "\\\\"
  | '\n' => "\\n"
  | '\r' => "\\r"
  | '\t' => "\\t"
  | '\x08' => "\\b"
  | '\x0c' => "\\f"
  | c => if c.toNat < 0x20 then "\\u" ++ hex4 c.toNat else c.toString

def quote (s : String) : String :=
  "\"" ++ String.join (s.toList.map escapeChar) ++ "\""

/-- The text of a number: `null` for a NaN or an infinity, which JSON cannot hold. -/
def numberText (x : Float) : String :=
  if x.isNaN || x.isInf then "null" else Decimal.render floatLayout x

mutual
/-- The compact text of a document: no blank between tokens. -/
def render : Json → String
  | .null => "null"
  | .bool b => if b then "true" else "false"
  | .int n => toString n
  | .num x => numberText x
  | .str s => quote s
  | .arr xs => "[" ++ renderItems xs ++ "]"
  | .obj ms => "\x7b" ++ renderMembers ms ++ "\x7d"
def renderItems : List Json → String
  | [] => ""
  | [x] => x.render
  | x :: xs => x.render ++ "," ++ renderItems xs
def renderMembers : List (String × Json) → String
  | [] => ""
  | [(k, v)] => quote k ++ ":" ++ v.render
  | (k, v) :: ms => quote k ++ ":" ++ v.render ++ "," ++ renderMembers ms
end

def nat (n : Nat) : Json := .int n

/-- An optional value as a document, `null` when absent. -/
def opt {α : Type} (f : α → Json) : Option α → Json
  | some a => f a
  | none => .null

end Json

end ColonyCache
