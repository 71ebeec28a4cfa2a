import Std.Data.HashMap
import Std.Data.TreeMap
import ColonyCache.World.Grid
import ColonyCache.World.Component
import ColonyCache.World.Social
import ColonyCache.World.Health
/-! The world: maps, the things on them and everything recorded about those things, kept by id. -/
namespace ColonyCache

structure World where
  maps : Std.TreeMap MapId MapGrid compare := {}
  things : Std.TreeMap EntityId Thing compare := {}
  injuries : Std.TreeMap EntityId Injury compare := {}
  /-- The relations of each ordered pair of people, oldest first. -/
  relations : Std.HashMap RelationKey (List RelationKind) := {}
  /-- The kinds of work each person is kept from. -/
  workRestrictions : Std.HashMap EntityId (List WorkKind) := {}
  /-- The faction that each person is affiliated with, per standing. -/
  affiliations : Std.HashMap (EntityId × Affiliation) EntityId := {}
  /-- Each thing's components, in slot order. -/
  components : Std.HashMap EntityId (List Component) := {}
  /-- Each person's ailments, in the order caught. -/
  ailments : Std.HashMap EntityId (List Ailment) := {}
  /-- The area each person is kept in. -/
  areaRestrictions : Std.HashMap EntityId Area := {}
  /-- The number of the last map made. -/
  lastMap : UInt32 := 0
  /-- The number of the last thing or injury made. -/
  lastEntity : UInt32 := 0

namespace World

/-- Adds a map of the given size, a side of zero counting as one, and gives its id. -/
def addMap (w : World) (width height regionSize : UInt32) : MapId × World :=
  let id : MapId := ⟨w.lastMap + 1⟩
  let width := max width 1
  let height := max height 1
  let size := (fittingRegionSize width.toNat height.toNat regionSize.toNat).toUInt32
  (id, { w with
    lastMap := w.lastMap + 1
    maps := w.maps.insert id ⟨id, width, height, size, false⟩ })

/-- Puts the regions of map `m` in use or out of use. -/
def setRegionsEnabled (w : World) (m : MapId) (enabled : Bool) : World :=
  { w with maps := w.maps.modify m fun g => { g with regionsEnabled := enabled } }

def map? (w : World) (m : MapId) : Option MapGrid := w.maps.get? m

def mapIds (w : World) : List MapId := w.maps.keys

/-- Every region id of map `m`, in order of local number. -/
def regionsOf (w : World) (m : MapId) : List RegionId :=
  match w.maps.get? m with
  | some g => g.regions
  | none => []

def regionAt (w : World) (m : MapId) (c : Cell) : Option RegionId :=
  (w.maps.get? m).bind (·.regionAt c)

def inGrowZone (w : World) (m : MapId) (c : Cell) : Bool :=
  match w.maps.get? m with
  | some g => g.inGrowZone c
  | none => false

def thing? (w : World) (e : EntityId) : Option Thing := w.things.get? e

/-- The things on map `m`, by id. -/
def thingsOn (w : World) (m : MapId) : List Thing := w.things.values.filter (·.map == m)

def thingCount (w : World) : Nat := w.things.size

/-- Forgets thing `e` and everything recorded about it. -/
def forget (w : World) (e : EntityId) : World :=
  { w with
    things := w.things.erase e
    components := w.components.erase e
    ailments := w.ailments.erase e
    areaRestrictions := w.areaRestrictions.erase e
    workRestrictions := w.workRestrictions.erase e
    affiliations := w.affiliations.filter fun k _ => k.1 != e
    injuries := w.injuries.filter fun _ i => i.owner != e
    relations := w.relations.filter fun k _ => k.subject != e && k.related != e }

/-- Removes map `m` with every thing on it and gives those things, in no promised order. -/
def removeMap (w : World) (m : MapId) : List Thing × World :=
  if w.maps.contains m then
    let gone := w.thingsOn m
    (gone, gone.foldl (fun w t => w.forget t.id) { w with maps := w.maps.erase m })
  else ([], w)

/-- Puts a new thing of kind `k` at cell `c` of map `m`, if the cell is on the map. -/
def spawn (w : World) (m : MapId) (k : ThingKind) (c : Cell) : Option Thing × World :=
  match w.maps.get? m with
  | some g =>
    if g.contains c then
      let t : Thing := ⟨⟨w.lastEntity + 1⟩, k, m, c⟩
      let comps := k.defaultComponents
      (some t, { w with
        lastEntity := w.lastEntity + 1
        things := w.things.insert t.id t
        components := if comps.isEmpty then w.components else w.components.insert t.id comps })
    else (none, w)
  | none => (none, w)

/-- Removes thing `e` and gives it, if it exists. -/
def despawn (w : World) (e : EntityId) : Option Thing × World :=
  match w.things.get? e with
  | some t => (some t, w.forget e)
  | none => (none, w)

/-- Moves thing `e` to cell `c` of its map, if the thing exists and the cell is on the map. -/
def moveTo (w : World) (e : EntityId) (c : Cell) : Bool × World :=
  match w.things.get? e with
  | some t =>
    match w.maps.get? t.map with
    | some g =>
      if g.contains c then (true, { w with things := w.things.insert e { t with cell := c } })
      else (false, w)
    | none => (false, w)
  | none => (false, w)

/-- Wounds thing `owner` with a new injury of the given severity, if the thing exists. -/
def addInjury (w : World) (owner : EntityId) (severity : Float32) : Option Injury × World :=
  if w.things.contains owner then
    let i : Injury := ⟨⟨w.lastEntity + 1⟩, owner, severity, 0⟩
    (some i, { w with lastEntity := w.lastEntity + 1, injuries := w.injuries.insert i.id i })
  else (none, w)

/-- Heals injury `e` and gives it, if it exists. -/
def heal (w : World) (e : EntityId) : Option Injury × World :=
  match w.injuries.get? e with
  | some i => (some i, { w with injuries := w.injuries.erase e })
  | none => (none, w)

/-- The injuries of `owner`, by id. -/
def injuriesOf (w : World) (owner : EntityId) : List Injury :=
  w.injuries.values.filter (·.owner == owner)

def word32Max : Nat := Nat.pow 2 32 - 1

/-- Ages every injury by `ticks`, stopping at the largest age. -/
def ageInjuries (w : World) (ticks : UInt32) : World :=
  { w with injuries := w.injuries.map fun _ i =>
      { i with ageTicks := (min (i.ageTicks.toNat + ticks.toNat) word32Max).toUInt32 } }

/-- Records that `subject` is `k` to `related`, and `related` the inverse of `k` to `subject`. -/
def relate (w : World) (subject related : EntityId) (k : RelationKind) : World :=
  let fwd : RelationKey := ⟨subject, related⟩
  let rs := w.relations.insert fwd (w.relations.getD fwd [] ++ [k])
  { w with relations := rs.insert fwd.reversed (rs.getD fwd.reversed [] ++ [k.inverse]) }

/-- Forgets every relation between `a` and `b`, both ways. -/
def unrelate (w : World) (a b : EntityId) : World :=
  let key : RelationKey := ⟨a, b⟩
  { w with relations := (w.relations.erase key).erase key.reversed }

/-- What `subject` is to `related`, oldest first. -/
def relationsBetween (w : World) (subject related : EntityId) : List RelationKind :=
  w.relations.getD ⟨subject, related⟩ []

/-- Keeps person `e` from the kinds of work `ks`. -/
def restrictWork (w : World) (e : EntityId) (ks : List WorkKind) : World :=
  { w with workRestrictions := w.workRestrictions.insert e ks }

/-- Lets person `e` do every kind of work. -/
def liftWorkRestrictions (w : World) (e : EntityId) : World :=
  { w with workRestrictions := w.workRestrictions.erase e }

def disabledWork (w : World) (e : EntityId) : List WorkKind := w.workRestrictions.getD e []

/-- Affiliates person `e` with `faction` under standing `tag`. -/
def affiliate (w : World) (e : EntityId) (tag : Affiliation) (faction : EntityId) : World :=
  { w with affiliations := w.affiliations.insert (e, tag) faction }

/-- Ends the affiliation of person `e` under standing `tag`. -/
def endAffiliation (w : World) (e : EntityId) (tag : Affiliation) : World :=
  { w with affiliations := w.affiliations.erase (e, tag) }

def affiliation (w : World) (e : EntityId) (tag : Affiliation) : Option EntityId :=
  w.affiliations.get? (e, tag)

/-- The slot of the first component of kind `k` of thing `e`. -/
def findComponent (w : World) (e : EntityId) (k : ComponentKind) : Option Nat :=
  (w.components.get? e).bind fun cs => cs.findIdx? (·.kind == k)

/-- The component in slot `i` of thing `e`. -/
def componentAt (w : World) (e : EntityId) (i : Nat) : Option Component :=
  (w.components.get? e).bind (·[i]?)

/-- Replaces the first component of the same kind as `c` on thing `e`, if it has one. -/
def setComponent (w : World) (e : EntityId) (c : Component) : Bool × World :=
  match w.components.get? e with
  | some cs =>
    match cs.findIdx? (·.kind == c.kind) with
    | some i => (true, { w with components := w.components.insert e (cs.set i c) })
    | none => (false, w)
  | none => (false, w)

/-- Gives person `owner` the ailment `a`, if they exist. -/
def infect (w : World) (owner : EntityId) (a : Ailment) : Bool × World :=
  if w.things.contains owner then
    (true, { w with ailments := w.ailments.insert owner (w.ailments.getD owner [] ++ [a]) })
  else (false, w)

/-- The ailments of `owner`, in the order caught. -/
def ailmentsOf (w : World) (owner : EntityId) : List Ailment := w.ailments.getD owner []

/-- Keeps person `e` in area `a`, or lets them go anywhere when `a` is absent. -/
def restrictArea (w : World) (e : EntityId) (a : Option Area) : World :=
  match a with
  | some a => { w with areaRestrictions := w.areaRestrictions.insert e a }
  | none => { w with areaRestrictions := w.areaRestrictions.erase e }

/-- The area that thing `e` is kept in: only people are kept in areas. -/
def effectiveAreaRestriction (w : World) (e : EntityId) : Option Area :=
  match w.things.get? e with
  | some t => if t.kind.isHumanlike then w.areaRestrictions.get? e else none
  | none => none

/-- The region a thing stands in now, by the world's own record of it. -/
def regionOf (w : World) (t : Thing) : Option RegionId :=
  (w.things.get? t.id).bind fun cur => w.regionAt cur.map cur.cell

/-- The map a thing stands on now, by the world's own record of it. -/
def mapOf (w : World) (t : Thing) : Option MapId := (w.things.get? t.id).map (·.map)

end World

end ColonyCache
