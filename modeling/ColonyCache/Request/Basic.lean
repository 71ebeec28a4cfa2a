import ColonyCache.Json.Stats
import ColonyCache.Recency.Stats
import ColonyCache.Scoped.Basic
import ColonyCache.Events
/-! Requests in JSON: reading fields by name, with errors that name the field. -/
namespace ColonyCache.Request

/-! ## Fields of a request -/

/-- Why a request or a step could not be answered. -/
structure Failure where
  kind : String
  message : String

/-- An answer, or the reason there is none. -/
abbrev Outcome := Except Failure

/-- A refusal of input the driver cannot read, with its message. -/
def bad {α : Type} (msg : String) : Outcome α := .error ⟨"BadInput", msg⟩

/-- The text `s` between single quotes, as messages name fields and values. -/
def quoted (s : String) : String := "'" ++ s ++ "'"

/-- The members of a JSON object, in the order written. -/
abbrev Obj := List (String × Json)

/-- The value of member `name`; a parsed object holds each name once. -/
def lookup (o : Obj) (name : String) : Option Json := (o.find? (·.1 == name)).map (·.2)

/-- The members of a value read as an object, none unless it is one. -/
def membersOf : Json → Obj
  | .obj o => o
  | _ => []

/-- The value of member `name`, which must be there. -/
def need (o : Obj) (name : String) : Outcome Json :=
  match lookup o name with
  | some v => pure v
  | none => bad ("missing field " ++ quoted name)

/-- An optional field: missing and `null` both mean absent. -/
def optional (o : Obj) (name : String) : Option Json :=
  match lookup o name with
  | some .null => none
  | v => v

/-- A whole number from zero up to the largest 64-bit word. -/
def asWord64 (name : String) : Json → Outcome Nat
  | .int n =>
    if 0 ≤ n then pure n.toNat else bad ("field " ++ quoted name ++ " must be a non-negative integer")
  | _ => bad ("field " ++ quoted name ++ " must be a non-negative integer")

/-- A whole number from zero up to the largest 32-bit word. -/
def asWord32 (name : String) (v : Json) : Outcome Nat := do
  let n ← asWord64 name v
  if n < Nat.pow 2 32 then pure n else bad ("field " ++ quoted name ++ " must fit in u32")

/-- A whole number that fits a signed 64-bit word; the reader gives no smaller ones. -/
def asInt64 (name : String) : Json → Outcome Int
  | .int n =>
    if n < Nat.pow 2 63 then pure n
    else bad ("field " ++ quoted name ++ " must be an integer in i64 range")
  | _ => bad ("field " ++ quoted name ++ " must be an integer in i64 range")

def asString (name : String) : Json → Outcome String
  | .str s => pure s
  | _ => bad ("field " ++ quoted name ++ " must be a string")

def asBool (name : String) : Json → Outcome Bool
  | .bool b => pure b
  | _ => bad ("field " ++ quoted name ++ " must be a boolean")

def asArray (name : String) : Json → Outcome (List Json)
  | .arr xs => pure xs
  | _ => bad ("field " ++ quoted name ++ " must be an array")

def word64 (o : Obj) (name : String) : Outcome Nat := do asWord64 name (← need o name)

def word32 (o : Obj) (name : String) : Outcome Nat := do asWord32 name (← need o name)

def int64 (o : Obj) (name : String) : Outcome Int := do asInt64 name (← need o name)

def str (o : Obj) (name : String) : Outcome String := do asString name (← need o name)

def bool (o : Obj) (name : String) : Outcome Bool := do asBool name (← need o name)

def array (o : Obj) (name : String) : Outcome (List Json) := do asArray name (← need o name)

def failureJson (f : Failure) : Json := .obj [("error", .str f.kind), ("message", .str f.message)]

/-- Refuses capacities above a million, which could exhaust memory. -/
def limitCapacity (n : Nat) : Outcome Nat :=
  if n > 1000000 then .error ⟨"DriverLimit", "capacity above 1000000"⟩ else pure n

/-- Runs each step on the state that the earlier steps left; a failing step leaves it as it was. -/
def runSteps {σ : Type} (steps : List Json) (init : σ)
    (step : σ → Obj → String → Outcome (Json × σ)) : List Json × σ :=
  steps.foldl (fun (acc, s) j =>
    let r : Outcome (Json × σ) := match j with
      | .obj o => do
        let op ← str o "op"
        step s o op
      | _ => bad "step must be a JSON object"
    match r with
    | .ok (answer, s') => (acc ++ [answer], s')
    | .error f => (acc ++ [failureJson f], s)) ([], init)

def unknownStep {α : Type} (op : String) : Outcome α := bad ("unknown step op " ++ quoted op)

def entityField (o : Obj) (name : String) : Outcome EntityId := do
  pure ⟨(← word32 o name).toUInt32⟩

def regionField (o : Obj) (name : String) : Outcome RegionId := do
  pure ⟨(← word32 o name).toUInt32⟩

def word32Json (n : UInt32) : Json := Json.nat n.toNat

def entityJson (e : EntityId) : Json := word32Json e.val

def regionJson (r : RegionId) : Json := word32Json r.val

def mapJson (m : MapId) : Json := word32Json m.val

def idList (o : Obj) (name : String) : Outcome (List EntityId) := do
  (← array o name).mapM fun v => do pure (EntityId.mk (← asWord32 name v).toUInt32)

end ColonyCache.Request
