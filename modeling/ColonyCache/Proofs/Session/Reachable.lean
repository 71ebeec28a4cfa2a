import ColonyCache.Proofs.Scoped.Invariant
import ColonyCache.Session.Basic
/-! What holds of every session the session requests reach: the fixed wiring, the names of a new
session, and coherent scoped caches. -/
namespace ColonyCache

open Std

namespace Registry

variable {γ : Type}

theorem mem_of_get? {r : Registry γ} {name : String} {c : γ} (h : r.get? name = some c) :
    (name, c) ∈ r.entries := by
  obtain ⟨p, hp, rfl⟩ := Option.map_eq_some_iff.mp h
  have hname : p.1 = name := by simpa using List.find?_some hp
  rw [← hname]
  exact List.mem_of_find?_eq_some hp

@[simp] theorem names_mapAll (r : Registry γ) (f : γ → γ) : (r.mapAll f).names = r.names := by
  simp only [names, mapAll, List.map_map]
  rfl

@[simp] theorem names_modify {α : Type} (r : Registry γ) (name : String) (f : γ → α × γ) :
    (r.modify name f).2.names = r.names := by
  unfold modify
  split
  · rfl
  · simp only [names, List.map_map]
    refine List.map_congr_left fun p _ => ?_
    simp only [Function.comp_apply]
    split <;> rfl

theorem sumAll_snd (r : Registry γ) (f : γ → Nat × γ) :
    (r.sumAll f).2 = r.mapAll fun c => (f c).2 := by
  -- the fold appends each entry, changed, to what it has built so far
  have hfold : ∀ (es acc : List (String × γ)) (n : Nat),
      (es.foldl (fun acc e => ((acc.1 + (f e.2).1, acc.2 ++ [(e.1, (f e.2).2)]) :
        Nat × List (String × γ))) (n, acc)).2 = acc ++ es.map fun e => (e.1, (f e.2).2) := by
    intro es
    induction es with
    | nil => intro acc n; simp
    | cons e es ih => intro acc n; rw [List.foldl_cons, ih]; simp
  unfold sumAll mapAll
  exact congrArg Registry.mk (hfold r.entries [] 0)

theorem modify_eq_self {α : Type} {r : Registry γ} (hn : r.names.Nodup) (name : String)
    {f : γ → α × γ} (hf : ∀ p ∈ r.entries, (f p.2).2 = p.2) : (r.modify name f).2 = r := by
  unfold modify
  split
  · rfl
  · next c hc =>
    have hmem := mem_of_get? hc
    rcases hfc : f c with ⟨a, c'⟩
    have hc' : c' = c := by simpa [hfc] using hf _ hmem
    subst hc'
    -- the only entry under `name` is the one found
    show Registry.mk (r.entries.map fun p => if p.1 == name then (p.1, c') else p) = r
    rw [List.map_congr_left fun p hp => ?_, List.map_id]
    by_cases hpn : p.1 = name
    · have hp' : p = (name, c') := List.inj_on_of_nodup_map hn hp hmem hpn
      simp [hp']
    · simp [hpn]

section Scoped

variable {σ κ ι : Type} [Ord σ] [DecidableEq κ] [Hashable κ] [Keyed ι κ]

def Inv (r : Registry (ScopedCache σ κ ι)) : Prop := ∀ p ∈ r.entries, p.2.Inv

variable {r : Registry (ScopedCache σ κ ι)}

theorem Inv.mapAll {f : ScopedCache σ κ ι → ScopedCache σ κ ι}
    (hf : ∀ c : ScopedCache σ κ ι, c.Inv → (f c).Inv) (hr : r.Inv) : (r.mapAll f).Inv := by
  intro p hp
  obtain ⟨q, hq, rfl⟩ := List.mem_map.mp hp
  exact hf q.2 (hr q hq)

theorem Inv.modify {α : Type} {f : ScopedCache σ κ ι → α × ScopedCache σ κ ι}
    (hf : ∀ c : ScopedCache σ κ ι, c.Inv → (f c).2.Inv) (hr : r.Inv) (name : String) :
    (r.modify name f).2.Inv := by
  unfold Registry.modify
  split
  · exact hr
  · next c hc =>
    intro p hp
    obtain ⟨q, hq, rfl⟩ := List.mem_map.mp hp
    -- an entry under `name` now holds the changed cache, the others are as they were
    by_cases hqn : q.1 = name
    · simpa [hqn] using hf c (hr _ (mem_of_get? hc))
    · simpa [hqn] using hr q hq

variable [TransOrd σ] [LawfulEqOrd σ] [DecidableEq σ]

theorem Inv.removeItem (hr : r.Inv) (k : κ) : (r.removeItem k).Inv :=
  hr.mapAll fun _ hc => hc.remove k

theorem Inv.relocateItem (hr : r.Inv) (resolve : ι → Option σ) (k : κ) :
    (r.relocateItem resolve k).Inv :=
  hr.mapAll fun _ hc => hc.relocate resolve k

theorem Inv.removeScope (hr : r.Inv) (s : σ) : (r.removeScope s).2.Inv := by
  rw [Registry.removeScope, sumAll_snd]
  exact hr.mapAll fun _ hc => hc.removeScope s

omit [TransOrd σ] [LawfulEqOrd σ] [DecidableEq σ] in
@[simp] theorem names_removeScope (r : Registry (ScopedCache σ κ ι)) (s : σ) :
    (r.removeScope s).2.names = r.names := by
  rw [Registry.removeScope, sumAll_snd, names_mapAll]

omit [TransOrd σ] [LawfulEqOrd σ] [DecidableEq σ] in
theorem foldl_removeScope_snd (ss : List σ) (p : Nat × Registry (ScopedCache σ κ ι)) :
    (ss.foldl (fun p s => (p.1 + (p.2.removeScope s).1, (p.2.removeScope s).2)) p).2 =
      ss.foldl (fun r s => (r.removeScope s).2) p.2 := by
  induction ss generalizing p with
  | nil => rfl
  | cons s ss ih => rw [List.foldl_cons, ih, List.foldl_cons]

theorem Inv.foldl_removeScope (hr : r.Inv) (ss : List σ) :
    (ss.foldl (fun r s => (r.removeScope s).2) r).Inv ∧
      (ss.foldl (fun r s => (r.removeScope s).2) r).names = r.names := by
  induction ss generalizing r with
  | nil => exact ⟨hr, rfl⟩
  | cons s ss ih =>
    obtain ⟨hi, hn⟩ := ih (hr.removeScope s)
    exact ⟨hi, hn.trans (names_removeScope r s)⟩

end Scoped

end Registry

namespace RegionThings

variable {c : RegionThings}

theorem Inv.addAllItems (hc : c.Inv) (w : World) (m : MapId) : (c.addAllItems w m).2.Inv := by
  unfold RegionThings.addAllItems
  have hp : ((0, c) : Nat × RegionThings).2.Inv := hc
  revert hp
  generalize ((0, c) : Nat × RegionThings) = p
  -- each thing of the map is filed at most once, by a coherent filing step
  induction w.thingsOn m generalizing p with
  | nil => exact id
  | cons t ts ih =>
    intro hp
    rw [List.foldl_cons]
    apply ih
    obtain ⟨n, c⟩ := p
    dsimp only
    split
    · exact ScopedCache.Inv.add hp w.regionOf t
    · exact hp

theorem Inv.markHarvestable (hc : c.Inv) (w : World) (t : Thing) :
    (c.markHarvestable w t).2.Inv := by
  unfold RegionThings.markHarvestable
  split
  · split
    · exact ScopedCache.Inv.add hc w.regionOf t
    · exact hc
  · exact hc

end RegionThings

namespace MapThings

variable {c : MapThings}

theorem Inv.mark (hc : c.Inv) (t : Thing) : (c.mark t).2.Inv := ScopedCache.Inv.insertInto hc t t.map

theorem Inv.markAnimal (hc : c.Inv) (t : Thing) : (c.markAnimal t).2.Inv := by
  unfold MapThings.markAnimal
  split
  · exact ScopedCache.Inv.insertInto hc t t.map
  · exact hc

end MapThings

namespace Session

structure Coherent (s : Session) : Prop where
  bus : s.bus = Listener.wiring
  regionNames : s.regionCaches.names = [haulableItems, harvestablePlants]
  mapNames : s.mapCaches.names = [refuelableTurrets, refuelableNonTurrets, colonyAnimals]
  regionInv : s.regionCaches.Inv
  mapInv : s.mapCaches.Inv

variable {s : Session}

theorem Coherent.new (config : Config) (g : Nat) : (Session.new config g).Coherent := by
  have hr : (Session.new config g).regionCaches.entries =
      [(haulableItems, {}), (harvestablePlants, {})] := rfl
  have hm : (Session.new config g).mapCaches.entries =
      [(refuelableTurrets, {}), (refuelableNonTurrets, {}), (colonyAnimals, {})] := rfl
  refine ⟨rfl, rfl, rfl, fun p hp => ?_, fun p hp => ?_⟩
  · rw [hr] at hp
    rcases List.mem_pair.mp hp with rfl | rfl <;> exact ScopedCache.Inv.empty
  · rw [hm] at hp
    simp only [List.mem_cons, List.not_mem_nil, or_false] at hp
    rcases hp with rfl | rfl | rfl <;> exact ScopedCache.Inv.empty

theorem Coherent.of_registries {s' : Session} (hs : s.Coherent) (hb : s'.bus = s.bus)
    (hr : s'.regionCaches = s.regionCaches) (hm : s'.mapCaches = s.mapCaches) : s'.Coherent := by
  refine ⟨hb.trans hs.bus, ?_, ?_, ?_, ?_⟩
  · rw [hr]; exact hs.regionNames
  · rw [hm]; exact hs.mapNames
  · rw [hr]; exact hs.regionInv
  · rw [hm]; exact hs.mapInv

theorem Coherent.withRegionCache {α : Type} (hs : s.Coherent) (name : String) (dflt : α)
    {f : RegionThings → α × RegionThings} (hf : ∀ c : RegionThings, c.Inv → (f c).2.Inv) :
    (s.withRegionCache name dflt f).2.Coherent :=
  ⟨hs.bus, (Registry.names_modify _ _ _).trans hs.regionNames, hs.mapNames,
    hs.regionInv.modify hf name, hs.mapInv⟩

theorem Coherent.withMapCache {α : Type} (hs : s.Coherent) (name : String) (dflt : α)
    {f : MapThings → α × MapThings} (hf : ∀ c : MapThings, c.Inv → (f c).2.Inv) :
    (s.withMapCache name dflt f).2.Coherent :=
  ⟨hs.bus, hs.regionNames, (Registry.names_modify _ _ _).trans hs.mapNames, hs.regionInv,
    hs.mapInv.modify hf name⟩

theorem Coherent.setRegionCaches (hs : s.Coherent) {r : Registry RegionThings}
    (hn : r.names = s.regionCaches.names) (hr : r.Inv) : { s with regionCaches := r }.Coherent :=
  ⟨hs.bus, hn.trans hs.regionNames, hs.mapNames, hr, hs.mapInv⟩

theorem Coherent.setMapCaches (hs : s.Coherent) {r : Registry MapThings}
    (hn : r.names = s.mapCaches.names) (hr : r.Inv) : { s with mapCaches := r }.Coherent :=
  ⟨hs.bus, hs.regionNames, hn.trans hs.mapNames, hs.regionInv, hr⟩

theorem Coherent.hear (hs : s.Coherent) (l : Listener) (ev : Event) : (s.hear l ev).Coherent := by
  unfold Session.hear
  split
  -- the registries forget a thing cache by cache, names kept
  case h_1 | h_2 => exact hs.setRegionCaches (Registry.names_mapAll _ _) (hs.regionInv.removeItem _)
  case h_3 | h_4 => exact hs.setMapCaches (Registry.names_mapAll _ _) (hs.mapInv.removeItem _)
  case h_6 => exact hs.withMapCache colonyAnimals () fun _ hc => hc.remove _
  -- the other listeners leave the bus and the registries alone
  all_goals exact hs.of_registries rfl rfl rfl

theorem Coherent.notify (hs : s.Coherent) (ev : Event) : (s.notify ev).Coherent := by
  unfold Session.notify EventBus.deliver
  generalize s.bus.listenersOf ev.kind = ls
  induction ls generalizing s with
  | nil => exact hs
  | cons l ls ih => exact ih (hs.hear l ev)

theorem Coherent.tickStarted (hs : s.Coherent) : s.tickStarted.Coherent := by
  have ht : ({ s with ticks := s.ticks + 1 } : Session).Coherent := hs.of_registries rfl rfl rfl
  exact ht.notify .tickBoundary

theorem Coherent.itemMoved (hs : s.Coherent) (w : World) (e : EntityId) :
    (s.itemMoved w e).Coherent :=
  hs.setRegionCaches (Registry.names_mapAll _ _) (hs.regionInv.relocateItem _ e)

theorem Coherent.regionRemoved (hs : s.Coherent) (r : RegionId) :
    (s.regionRemoved r).2.Coherent :=
  hs.setRegionCaches (Registry.names_removeScope _ r) (hs.regionInv.removeScope r)

theorem mapRemoved_snd (s : Session) (m : MapId) (regions : List RegionId) :
    (s.mapRemoved m regions).2 = { s with
      mapCaches := (s.mapCaches.removeScope m).2,
      regionCaches := regions.foldl (fun r t => (r.removeScope t).2) s.regionCaches } := by
  show { s with
      mapCaches := (s.mapCaches.removeScope m).2,
      regionCaches := (regions.foldl (fun (p : Nat × Registry RegionThings) t =>
        (p.1 + (p.2.removeScope t).1,
        (p.2.removeScope t).2)) ((s.mapCaches.removeScope m).1, s.regionCaches)).2 } = _
  rw [Registry.foldl_removeScope_snd]

theorem Coherent.mapRemoved (hs : s.Coherent) (m : MapId) (regions : List RegionId) :
    (s.mapRemoved m regions).2.Coherent := by
  rw [mapRemoved_snd]
  obtain ⟨hi, hn⟩ := hs.regionInv.foldl_removeScope regions
  exact ⟨hs.bus, hn.trans hs.regionNames, (Registry.names_removeScope _ m).trans hs.mapNames, hi,
    hs.mapInv.removeScope m⟩

/-- The sessions the session requests reach from a new one; the caches outside the registries may
change freely. -/
inductive Reachable : Session → Prop
  | new (config : Config) (g : Nat) : Reachable (Session.new config g)
  | addAllHaulables {s : Session} (w : World) (m : MapId) :
      Reachable s → Reachable (s.addAllHaulables w m).2
  | addHaulable {s : Session} (w : World) (t : Thing) : Reachable s → Reachable (s.addHaulable w t).2
  | removeHaulable {s : Session} (e : EntityId) : Reachable s → Reachable (s.removeHaulable e)
  | markHarvestable {s : Session} (w : World) (t : Thing) :
      Reachable s → Reachable (s.markHarvestable w t).2
  | completeHarvest {s : Session} (e : EntityId) : Reachable s → Reachable (s.completeHarvest e)
  | markRefuelable {s : Session} (t : Thing) : Reachable s → Reachable (s.markRefuelable t).2
  | unmarkRefuelable {s : Session} (t : Thing) : Reachable s → Reachable (s.unmarkRefuelable t)
  | markAnimal {s : Session} (t : Thing) : Reachable s → Reachable (s.markAnimal t).2
  | removeAnimal {s : Session} (e : EntityId) : Reachable s → Reachable (s.removeAnimal e)
  | entityRemoved {s : Session} (e : EntityId) : Reachable s → Reachable (s.entityRemoved e)
  | spatialItemRemoved {s : Session} (e : EntityId) :
      Reachable s → Reachable (s.spatialItemRemoved e)
  | tickStarted {s : Session} : Reachable s → Reachable s.tickStarted
  | itemMoved {s : Session} (w : World) (e : EntityId) : Reachable s → Reachable (s.itemMoved w e)
  | mapRemoved {s : Session} (m : MapId) (regions : List RegionId) :
      Reachable s → Reachable (s.mapRemoved m regions).2
  | regionRemoved {s : Session} (r : RegionId) : Reachable s → Reachable (s.regionRemoved r).2
  | effectiveAreaRestriction {s : Session} (w : World) (e : EntityId) :
      Reachable s → Reachable (s.effectiveAreaRestriction w e).2
  | caches {s s' : Session} : Reachable s → s'.bus = s.bus → s'.regionCaches = s.regionCaches →
      s'.mapCaches = s.mapCaches → Reachable s'

theorem Reachable.coherent (hs : s.Reachable) : s.Coherent := by
  induction hs with
  | new config g => exact Coherent.new config g
  -- each request changes one named cache by an operation that keeps it coherent, or is heard
  | addAllHaulables w m _ ih =>
    exact ih.withRegionCache _ _ fun c hc => RegionThings.Inv.addAllItems hc w m
  | addHaulable w t _ ih => exact ih.withRegionCache _ _ fun c hc => hc.add w.regionOf t
  | removeHaulable e _ ih => exact ih.withRegionCache _ _ fun c hc => hc.remove e
  | markHarvestable w t _ ih =>
    exact ih.withRegionCache _ _ fun c hc => RegionThings.Inv.markHarvestable hc w t
  | completeHarvest e _ ih => exact ih.withRegionCache _ _ fun c hc => hc.remove e
  | markRefuelable t _ ih => exact ih.withMapCache _ _ fun c hc => MapThings.Inv.mark hc t
  | unmarkRefuelable t _ ih => exact ih.withMapCache _ _ fun c hc => hc.remove t.id
  | markAnimal t _ ih => exact ih.withMapCache _ _ fun c hc => MapThings.Inv.markAnimal hc t
  | removeAnimal e _ ih => exact ih.withMapCache _ _ fun c hc => hc.remove e
  | entityRemoved e _ ih => exact ih.notify _
  | spatialItemRemoved e _ ih => exact ih.notify _
  | tickStarted _ ih => exact ih.tickStarted
  | itemMoved w e _ ih => exact ih.itemMoved w e
  | mapRemoved m regions _ ih => exact ih.mapRemoved m regions
  | regionRemoved r _ ih => exact ih.regionRemoved r
  | effectiveAreaRestriction w e _ ih => exact ih.of_registries rfl rfl rfl
  | caches _ hb hr hm ih => exact ih.of_registries hb hr hm

end Session

end ColonyCache
