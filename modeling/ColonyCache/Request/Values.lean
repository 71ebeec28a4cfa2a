import ColonyCache.Request.Basic
import ColonyCache.World.Basic
/-! The JSON form of the values of the world: kinds of thing, cells, areas, components and
severities. -/
namespace ColonyCache.Request

/-! ## World values -/

def unknownValue {α : Type} (v : String) (field : String) : Outcome α :=
  bad ("unknown value " ++ quoted v ++ " for " ++ quoted field)

/-- A value of a closed set named by text, with the field named in the error. -/
def named {α : Type} (table : List (String × α)) (field : String) : Json → Outcome α
  | .str s => match table.find? (·.1 == s) with
    | some (_, a) => pure a
    | none => unknownValue s field
  | _ => bad ("field " ++ quoted field ++ " must be a string")

def relationKinds : List (String × RelationKind) :=
  [("Parent", .parent), ("Child", .child), ("Sibling", .sibling), ("Spouse", .spouse),
    ("Friend", .friend)]

def workKinds : List (String × WorkKind) :=
  [("Hauling", .hauling), ("Harvesting", .harvesting), ("Refueling", .refueling),
    ("Gathering", .gathering)]

def affiliations : List (String × Affiliation) := [("Guest", .guest), ("Mercenary", .mercenary)]

def qualities : List (String × Quality) :=
  [("Poor", .poor), ("Normal", .normal), ("Good", .good), ("Excellent", .excellent)]

def componentKinds : List (String × ComponentKind) :=
  [("Quality", .quality), ("PowerSwitch", .powerSwitch), ("Schedule", .schedule),
    ("Breakdown", .breakdown)]

def ailments : List (String × Ailment) :=
  [("Flu", .flu), ("Plague", .plague), ("Malaria", .malaria), ("GutWorms", .gutWorms),
    ("Asthma", .asthma)]

def species : List (String × PlantSpecies) :=
  [("Rice", .rice), ("Corn", .corn), ("Berries", .berries), ("Oak", .oak)]

def products : List (String × AnimalProduct) := [("Milk", .milk), ("Wool", .wool)]

def nameOf {α : Type} [BEq α] (table : List (String × α)) (a : α) : String :=
  ((table.find? (·.2 == a)).map (·.1)).getD ""

def enumJson {α : Type} [BEq α] (table : List (String × α)) (a : α) : Json := .str (nameOf table a)

def enumField {α : Type} (table : List (String × α)) (o : Obj) (name : String) : Outcome α := do
  named table name (← need o name)

def enumList {α : Type} (table : List (String × α)) (o : Obj) (name : String) :
    Outcome (List α) := do
  (← array o name).mapM (named table name)

/-- A kind of thing: a name, or an object naming a species or an animal's product. -/
def thingKindOf : Json → Outcome ThingKind
  | .str "Item" => pure .item
  | .str "Turret" => pure .turret
  | .str "Generator" => pure .generator
  | .str "Colonist" => pure .colonist
  | .obj [("Plant", v)] => do pure (.plant (← named species "kind" v))
  | .obj [("Animal", v)] => do pure (.animal (← named products "kind" v))
  | .str k => bad ("unknown thing kind " ++ quoted k)
  | _ => bad "field 'kind' is not a thing kind"

def thingKindJson : ThingKind → Json
  | .item => .str "Item"
  | .turret => .str "Turret"
  | .generator => .str "Generator"
  | .colonist => .str "Colonist"
  | .plant s => .obj [("Plant", enumJson species s)]
  | .animal p => .obj [("Animal", enumJson products p)]

/-- A cell, written `[x, z]` or as an object with members `x` and `z`. -/
def cellOf (field : String) (v : Json) : Outcome Cell :=
  match v with
  | .arr [x, z] => do pure ⟨(← asWord32 field x).toUInt32, (← asWord32 field z).toUInt32⟩
  | .obj o => do pure ⟨(← word32 o "x").toUInt32, (← word32 o "z").toUInt32⟩
  | _ => bad ("field " ++ quoted field ++ " is not a cell")

def cellField (o : Obj) (name : String) : Outcome Cell := do cellOf name (← need o name)

def cellJson (c : Cell) : Json := .obj [("x", word32Json c.x), ("z", word32Json c.z)]

/-- An area, written as an object with its corners `min` and `max`. -/
def areaOf (field : String) (v : Json) : Outcome Area :=
  match v with
  | .obj o => do pure ⟨← cellField o "min", ← cellField o "max"⟩
  | _ => bad ("field " ++ quoted field ++ " is not an area")

def areaJson (a : Area) : Json := .obj [("min", cellJson a.min), ("max", cellJson a.max)]

def thingJson (t : Thing) : Json :=
  .obj [("id", entityJson t.id), ("kind", thingKindJson t.kind), ("map", mapJson t.map),
    ("cell", cellJson t.cell)]

/-- A thing written out in full, its fields read in the order id, kind, map, cell. -/
def literalThing (o : Obj) : Outcome Thing := do
  let id ← entityField o "id"
  let kind ← thingKindOf (← need o "kind")
  let map : MapId := ⟨(← word32 o "map").toUInt32⟩
  let cell ← cellField o "cell"
  pure ⟨id, kind, map, cell⟩

def literalThingField (o : Obj) (name : String) : Outcome Thing := do
  literalThing (membersOf (← need o name))

/-- A severity: a number narrowed to single precision, or the texts of the special values. -/
def severityOf : Json → Outcome Float32
  | .int n => pure (Float.ofInt n).toFloat32
  | .num x => pure x.toFloat32
  | .str "NaN" => pure (0.0 / 0.0 : Float32)
  | .str "inf" => pure (1.0 / 0.0 : Float32)
  | .str "-inf" => pure (-1.0 / 0.0 : Float32)
  | _ => bad "field 'severity' must be a number"

/-- A severity as a double, or as the text of a special value. -/
def severityJson (x : Float32) : Json :=
  if x.isNaN then .str "NaN"
  else if x.isInf then .str (if x > 0 then "inf" else "-inf")
  else .num x.toFloat

def injuryJson (i : Injury) : Json :=
  .obj [("id", entityJson i.id), ("owner", entityJson i.owner),
    ("severity", severityJson i.severity),
    ("age_ticks", word32Json i.ageTicks)]

/-- An injury written out in full; its owner is entity 0 when not given. -/
def literalInjury (o : Obj) : Outcome Injury := do
  let id ← entityField o "id"
  let owner ← match optional o "owner" with
    | some v => do pure (EntityId.mk (← asWord32 "owner" v).toUInt32)
    | none => pure ⟨0⟩
  let severity ← severityOf (← need o "severity")
  let age := (← word32 o "age_ticks").toUInt32
  pure ⟨id, owner, severity, age⟩

/-- A component: a one-member object naming the kind, with the component's state. -/
def componentOf (v : Json) : Outcome Component :=
  match v with
  | .obj [(k, s)] => match k with
    | "Quality" => do pure (.quality (← named qualities "component" s))
    | "PowerSwitch" => do pure (.powerSwitch (← bool (membersOf s) "on"))
    | "Schedule" => do pure (.schedule (← bool (membersOf s) "allowed"))
    | "Breakdown" => do pure (.breakdown (← bool (membersOf s) "broken"))
    | k => bad ("unknown component " ++ quoted k)
  | _ => bad "field 'component' is not a component"

def componentJson : Component → Json
  | .quality q => .obj [("Quality", enumJson qualities q)]
  | .powerSwitch b => .obj [("PowerSwitch", .obj [("on", .bool b)])]
  | .schedule b => .obj [("Schedule", .obj [("allowed", .bool b)])]
  | .breakdown b => .obj [("Breakdown", .obj [("broken", .bool b)])]

end ColonyCache.Request
