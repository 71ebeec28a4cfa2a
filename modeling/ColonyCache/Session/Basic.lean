import ColonyCache.Settings
import ColonyCache.Scoped.Registry
import ColonyCache.Caches.Spatial
import ColonyCache.Caches.Bleeding
import ColonyCache.Caches.Relations
import ColonyCache.Caches.Keyed
import ColonyCache.Caches.Tick
import ColonyCache.Caches.Components
import ColonyCache.Caches.Immunity
import ColonyCache.World.Summary
import ColonyCache.Json.Stats
/-! A session: every cache that one run of the simulation uses, wired to an event bus. -/
namespace ColonyCache

/-- The parts of a session that hear events. -/
inductive Listener where
  | regionCaches
  | mapCaches
  | components
  | colonyAnimals
  | workRestrictions
  | affiliations
  | groups
  | areaRestrictions
  | mapSummaries
deriving DecidableEq, Repr

/-- Which parts hear which events, in the order in which they react. -/
def Listener.wiring : EventBus Listener where
  spatialItemRemoved := [.regionCaches, .mapCaches, .components]
  entityRemoved := [.regionCaches, .mapCaches, .colonyAnimals, .workRestrictions, .affiliations,
    .groups, .areaRestrictions]
  tickBoundary := [.mapSummaries, .areaRestrictions]

/-- The name of the region cache of things to haul. -/
def haulableItems : String := "haulable-items"
/-- The name of the region cache of plants to harvest. -/
def harvestablePlants : String := "harvestable-plants"
/-- The name of the map cache of turrets to refuel. -/
def refuelableTurrets : String := "refuelable-turrets"
/-- The name of the map cache of other things to refuel. -/
def refuelableNonTurrets : String := "refuelable-non-turrets"
/-- The name of the map cache of animals ready to give their product. -/
def colonyAnimals : String := "colony-animals"

/-- The counts that a session reports. -/
structure SessionStats where
  generation : Nat
  ticks : Nat
  listeners : ListenerCounts
  relations : CacheStats
  injuryBleeding : CacheStats
  regionCaches : List (String × ScopeStats)
  mapCaches : List (String × ScopeStats)
  workRestrictions : Nat
  affiliations : Nat
  groupMembers : Nat
  componentSlots : Nat
  areaRestrictions : Nat
  immunizableAilments : Nat
deriving Repr

/-- The counts as a JSON object, members in the order of the fields. -/
def SessionStats.toJson (s : SessionStats) : Json :=
  .obj [("generation", Json.nat s.generation), ("ticks", Json.nat s.ticks),
    ("listeners", s.listeners.toJson), ("relations", s.relations.toJson false),
    ("injury_bleeding", s.injuryBleeding.toJson false),
    ("region_caches", .obj (s.regionCaches.map fun (n, c) => (n, c.toJson))),
    ("map_caches", .obj (s.mapCaches.map fun (n, c) => (n, c.toJson))),
    ("work_restrictions", Json.nat s.workRestrictions), ("affiliations", Json.nat s.affiliations),
    ("group_members", Json.nat s.groupMembers), ("component_slots", Json.nat s.componentSlots),
    ("area_restrictions", Json.nat s.areaRestrictions),
    ("immunizable_ailments", Json.nat s.immunizableAilments)]

/-- The caches of one run. -/
structure Session where
  generation : Nat
  ticks : Nat
  bus : EventBus Listener
  regionCaches : Registry RegionThings
  mapCaches : Registry MapThings
  relations : RelationsCache
  bleeding : BleedingCache
  workRestrictions : EntityCache (List WorkKind)
  affiliations : TaggedCache Affiliation (Option EntityId)
  groups : GroupCache EntityId
  mapSummaries : TickScopedCache MapId MapSummary
  components : ComponentService
  areaRestrictions : EntityCache (Option Area)
  immunizable : ImmunizableSet

namespace Session

/-- A session of generation `g` with empty caches of the sizes that `config` gives. -/
def new (config : Config) (g : Nat) : Session :=
  let regions : Registry RegionThings := {}
  let regions := ((regions.getOrCreate haulableItems {}).2.getOrCreate harvestablePlants {}).2
  let maps : Registry MapThings := {}
  let maps := (((maps.getOrCreate refuelableTurrets {}).2.getOrCreate refuelableNonTurrets {}).2
    |>.getOrCreate colonyAnimals {}).2
  { generation := g, ticks := 0, bus := Listener.wiring, regionCaches := regions, mapCaches := maps,
    relations := RelationsCache.new config.relationsCache.capacity,
    bleeding := BleedingCache.new config.injuryCache.capacity,
    workRestrictions := {}, affiliations := {}, groups := {}, mapSummaries := {},
    components := {}, areaRestrictions := {}, immunizable := ImmunizableSet.known }

/-- The region cache `name`, empty if there is none. -/
def regionCache (s : Session) (name : String) : RegionThings := (s.regionCaches.get? name).getD {}

/-- The map cache `name`, empty if there is none. -/
def mapCache (s : Session) (name : String) : MapThings := (s.mapCaches.get? name).getD {}

/-- Changes the region cache `name` by `f`, answering `dflt` if there is no such cache. -/
def withRegionCache {α : Type} (s : Session) (name : String) (dflt : α)
    (f : RegionThings → α × RegionThings) : α × Session :=
  let (a, r) := s.regionCaches.modify name f
  (a.getD dflt, { s with regionCaches := r })

/-- Changes the map cache `name` by `f`, answering `dflt` if there is no such cache. -/
def withMapCache {α : Type} (s : Session) (name : String) (dflt : α)
    (f : MapThings → α × MapThings) : α × Session :=
  let (a, r) := s.mapCaches.modify name f
  (a.getD dflt, { s with mapCaches := r })

/-! ### Hauling and harvest -/

/-- Files every item of map `m` for hauling; gives how many were new. -/
def addAllHaulables (s : Session) (w : World) (m : MapId) : Nat × Session :=
  s.withRegionCache haulableItems 0 fun c => c.addAllItems w m

/-- Files thing `t` for hauling at its current region. -/
def addHaulable (s : Session) (w : World) (t : Thing) : Bool × Session :=
  s.withRegionCache haulableItems false fun c => c.add w.regionOf t

def removeHaulable (s : Session) (e : EntityId) : Session :=
  (s.withRegionCache haulableItems () fun c => ((), (c.remove e).2)).2

/-- Files plant `t` as ready for harvest. -/
def markHarvestable (s : Session) (w : World) (t : Thing) : Bool × Session :=
  s.withRegionCache harvestablePlants false fun c => c.markHarvestable w t

def completeHarvest (s : Session) (e : EntityId) : Session :=
  (s.withRegionCache harvestablePlants () fun c => ((), (c.remove e).2)).2

/-! ### Refuelling and animals -/

def refuelCacheFor (k : ThingKind) : String :=
  if k.isTurret then refuelableTurrets else refuelableNonTurrets

/-- Files thing `t` for refuelling under the map it names. -/
def markRefuelable (s : Session) (t : Thing) : Bool × Session :=
  s.withMapCache (refuelCacheFor t.kind) false fun c => c.mark t

def unmarkRefuelable (s : Session) (t : Thing) : Session :=
  (s.withMapCache (refuelCacheFor t.kind) () fun c => ((), (c.remove t.id).2)).2

/-- The turrets of map `m` waiting for fuel, in filing order. -/
def refuelableTurretsOn (s : Session) (m : MapId) : List Thing :=
  (s.mapCache refuelableTurrets).itemsIn m

/-- The other things of map `m` waiting for fuel, in filing order. -/
def refuelableNonTurretsOn (s : Session) (m : MapId) : List Thing :=
  (s.mapCache refuelableNonTurrets).itemsIn m

/-- Files animal `t` as ready to give its product. -/
def markAnimal (s : Session) (t : Thing) : Bool × Session :=
  s.withMapCache colonyAnimals false fun c => c.markAnimal t

def removeAnimal (s : Session) (e : EntityId) : Session :=
  (s.withMapCache colonyAnimals () fun c => ((), (c.remove e).2)).2

/-- The animals of map `m` ready to give product `p`. -/
def animalsReadyFor (s : Session) (m : MapId) (p : AnimalProduct) : List Thing :=
  (s.mapCache colonyAnimals).animalsReadyFor m p

/-! ### Events -/

/-- What listener `l` does on hearing `ev`. -/
def hear (s : Session) (l : Listener) (ev : Event) : Session :=
  match l, ev with
  | .regionCaches, .entityRemoved e | .regionCaches, .spatialItemRemoved e =>
    { s with regionCaches := s.regionCaches.removeItem e }
  | .mapCaches, .entityRemoved e | .mapCaches, .spatialItemRemoved e =>
    { s with mapCaches := s.mapCaches.removeItem e }
  | .components, .spatialItemRemoved e => { s with components := s.components.forget e }
  | .colonyAnimals, .entityRemoved e => s.removeAnimal e
  | .workRestrictions, .entityRemoved e =>
    { s with workRestrictions := (s.workRestrictions.remove e).2 }
  | .affiliations, .entityRemoved e => { s with affiliations := s.affiliations.removeEntity e }
  | .groups, .entityRemoved e => { s with groups := s.groups.removeEntity e }
  | .areaRestrictions, .entityRemoved e =>
    { s with areaRestrictions := (s.areaRestrictions.remove e).2 }
  | .areaRestrictions, .tickBoundary => { s with areaRestrictions := {} }
  | .mapSummaries, .tickBoundary => { s with mapSummaries := {} }
  | _, _ => s

/-- Hands `ev` to every listener of its kind, in order. -/
def notify (s : Session) (ev : Event) : Session := s.bus.deliver hear ev s

/-- Tells the caches that thing `e` has left the world. -/
def entityRemoved (s : Session) (e : EntityId) : Session := s.notify (.entityRemoved e)

/-- Tells the caches that thing `e` no longer occupies a cell. -/
def spatialItemRemoved (s : Session) (e : EntityId) : Session := s.notify (.spatialItemRemoved e)

/-- Starts a tick: counts it and tells the caches. -/
def tickStarted (s : Session) : Session := { s with ticks := s.ticks + 1 }.notify .tickBoundary

/-- Files thing `e` afresh in every region cache, at its current region in `w`. -/
def itemMoved (s : Session) (w : World) (e : EntityId) : Session :=
  { s with regionCaches := s.regionCaches.relocateItem w.regionOf e }

/-- Drops map `m` and its `regions` from the caches, giving the number of items dropped. -/
def mapRemoved (s : Session) (m : MapId) (regions : List RegionId) : Nat × Session :=
  let (n, maps) := s.mapCaches.removeScope m
  let (n, rs) := regions.foldl (fun (n, rs) r =>
    let (k, rs) := rs.removeScope r
    (n + k, rs)) (n, s.regionCaches)
  (n, { s with mapCaches := maps, regionCaches := rs })

/-- Drops region `r` from the region caches and gives the number of items dropped. -/
def regionRemoved (s : Session) (r : RegionId) : Nat × Session :=
  let (n, rs) := s.regionCaches.removeScope r
  (n, { s with regionCaches := rs })

/-! ### Other caches -/

/-- The area that person `e` is kept in this tick, looked up in `w` once per tick. -/
def effectiveAreaRestriction (s : Session) (w : World) (e : EntityId) : Option Area × Session :=
  let (a, c) := s.areaRestrictions.getOrInsert e fun _ => w.effectiveAreaRestriction e
  (a, { s with areaRestrictions := c })

def stats (s : Session) : SessionStats where
  generation := s.generation
  ticks := s.ticks
  listeners := s.bus.counts
  relations := s.relations.stats
  injuryBleeding := s.bleeding.stats
  regionCaches := s.regionCaches.stats
  mapCaches := s.mapCaches.stats
  workRestrictions := s.workRestrictions.size
  affiliations := s.affiliations.size
  groupMembers := s.groups.size
  componentSlots := s.components.size
  areaRestrictions := s.areaRestrictions.size
  immunizableAilments := s.immunizable.size

end Session

end ColonyCache
