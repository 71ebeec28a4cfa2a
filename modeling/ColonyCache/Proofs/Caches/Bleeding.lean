import ColonyCache.Caches.Bleeding
import ColonyCache.Proofs.Recency.Refinement
/-! The bleeding cache read through the recency list of its stop ages: a kept stop age is used as
it stands, and a missing one is computed from the severity and kept. -/
namespace ColonyCache

/-- A call to the bleeding cache. -/
inductive BleedingCall where
  | isBleeding (i : Injury)
  | recordStopAge (e : EntityId) (age : UInt32)
  | removeCachedAge (e : EntityId)
  | clear

namespace BleedingCall

def HasSeverity (sev : EntityId → Float32) : BleedingCall → Prop
  | .isBleeding i => i.severity = sev i.id
  | _ => True

def seeds : BleedingCall → Bool
  | .recordStopAge .. => true
  | _ => false

end BleedingCall

namespace BleedingList

/-- The stop age in use for `i`: the one kept for its id, even zero, else its severity's. -/
def stopAge (l : List (EntityId × UInt32)) (i : Injury) : UInt32 :=
  (l.lookup i.id).getD (stopBleedingAge i.severity)

/-- The answer to one call, with the list after it; a hit moves its age to the front. -/
def perform (capacity : Nat) (l : List (EntityId × UInt32)) :
    BleedingCall → Option Bool × List (EntityId × UInt32)
  | .isBleeding i =>
    (some (decide (i.ageTicks < stopAge l i)),
      if (l.lookup i.id).isSome then (RecencyList.get l i.id).2
      else (RecencyList.put capacity l i.id (stopBleedingAge i.severity)).2)
  | .recordStopAge e age => (none, (RecencyList.put capacity l e age).2)
  | .removeCachedAge e => (none, (RecencyList.remove l e).2)
  | .clear => (none, [])

def trace (capacity : Nat) (l : List (EntityId × UInt32)) :
    List BleedingCall → List (Option Bool × List (EntityId × UInt32))
  | [] => []
  | call :: calls =>
    let r := perform capacity l call
    r :: trace capacity r.2 calls

/-- Every kept stop age is the one that the severity `sev` gives its injury. -/
def Consistent (sev : EntityId → Float32) (l : List (EntityId × UInt32)) : Prop :=
  ∀ p ∈ l, p.2 = stopBleedingAge (sev p.1)

variable {sev : EntityId → Float32} {l : List (EntityId × UInt32)}

theorem Consistent.stopAge_eq (hl : Consistent sev l) {i : Injury} (hi : i.severity = sev i.id) :
    stopAge l i = stopBleedingAge i.severity := by
  unfold stopAge
  cases hk : l.lookup i.id with
  | none => rfl
  | some s =>
    have hs : s = stopBleedingAge (sev i.id) := hl _ (RecencyList.mem_of_lookup_eq_some hk)
    rw [Option.getD_some, hs, hi]

theorem Consistent.perform (hl : Consistent sev l) (capacity : Nat) {call : BleedingCall}
    (hsev : call.HasSeverity sev) (hseed : call.seeds = false) :
    Consistent sev (perform capacity l call).2 := by
  cases call with
  | isBleeding i =>
    intro p hp
    simp only [BleedingList.perform] at hp
    split at hp
    · exact hl p (RecencyList.mem_of_mem_get hp)
    · rcases RecencyList.mem_of_mem_put hp with rfl | hp
      · exact congrArg stopBleedingAge hsev
      · exact hl p hp
  | recordStopAge e age => cases hseed
  | removeCachedAge e => exact fun p hp => hl p (RecencyList.mem_of_mem_drop hp)
  | clear => exact fun p hp => absurd hp List.not_mem_nil

/-- With no stop age seeded and each injury of the severity `sev` gives, every question is
answered from the severity. -/
theorem trace_answers (capacity : Nat) (calls : List BleedingCall) (hl : Consistent sev l)
    (hsev : ∀ call ∈ calls, call.HasSeverity sev) (hseed : ∀ call ∈ calls, call.seeds = false)
    (n : Nat) (i : Injury) (hn : calls[n]? = some (.isBleeding i)) :
    ((trace capacity l calls)[n]?).map Prod.fst =
      some (some (decide (i.ageTicks < stopBleedingAge i.severity))) := by
  induction calls generalizing l n with
  | nil => cases hn
  | cons call calls ih =>
    have hcall := hsev call List.mem_cons_self
    cases n with
    | zero =>
      -- the first call is the question: it is answered from the consistent list
      obtain rfl : call = .isBleeding i := Option.some.inj hn
      simp [trace, BleedingList.perform, hl.stopAge_eq hcall]
    | succ n =>
      exact ih (hl.perform capacity hcall (hseed call List.mem_cons_self))
        (fun c hc => hsev c (List.mem_cons_of_mem _ hc))
        (fun c hc => hseed c (List.mem_cons_of_mem _ hc)) n hn

end BleedingList

namespace BleedingCache

def perform (c : BleedingCache) : BleedingCall → Option Bool × BleedingCache
  | .isBleeding i => let r := c.isBleeding i; (some r.1, r.2)
  | .recordStopAge e age => (none, c.recordStopAge e age)
  | .removeCachedAge e => (none, c.removeCachedAge e)
  | .clear => (none, c.clear)

def trace (c : BleedingCache) : List BleedingCall → List (Option Bool × List (EntityId × UInt32))
  | [] => []
  | call :: calls =>
    let r := c.perform call
    (r.1, r.2.ages.toList) :: trace r.2 calls

variable {c : BleedingCache}

theorem isBleeding_spec (hc : c.ages.Valid) (i : Injury) :
    (c.isBleeding i).2.ages.Valid ∧ (c.isBleeding i).2.ages.capacity = c.ages.capacity ∧
      (some (c.isBleeding i).1, (c.isBleeding i).2.ages.toList) =
        BleedingList.perform c.ages.capacity c.ages.toList (.isBleeding i) := by
  obtain ⟨hi, hcap, he⟩ := ArenaCache.get_spec hc i.id
  unfold isBleeding
  generalize c.ages.get i.id = g at hi hcap he
  obtain ⟨r, ages⟩ := g
  dsimp only at hi hcap he ⊢
  cases hk : c.ages.toList.lookup i.id with
  | some s =>
    -- a hit: the kept age answers and moves to the front
    rw [RecencyList.get, hk] at he
    obtain ⟨rfl, hl⟩ := Prod.mk.inj he
    refine ⟨hi, hcap, ?_⟩
    simp [BleedingList.perform, BleedingList.stopAge, hk, RecencyList.get, hl]
  | none =>
    -- a miss leaves the list as it was, and the severity's age is stored
    rw [RecencyList.get, hk] at he
    obtain ⟨rfl, hl⟩ := Prod.mk.inj he
    obtain ⟨hi', hcap', he'⟩ := ArenaCache.put_spec hi i.id (stopBleedingAge i.severity)
    refine ⟨hi', hcap'.trans hcap, ?_⟩
    have hl' : (ages.put i.id (stopBleedingAge i.severity)).2.toList =
        (RecencyList.put c.ages.capacity c.ages.toList i.id (stopBleedingAge i.severity)).2 := by
      have h2 := congrArg Prod.snd he'
      dsimp only at h2
      rw [h2, hcap, hl]
    simp [BleedingList.perform, BleedingList.stopAge, hk, hl']

theorem perform_spec (hc : c.ages.Valid) (call : BleedingCall) :
    (c.perform call).2.ages.Valid ∧ (c.perform call).2.ages.capacity = c.ages.capacity ∧
      ((c.perform call).1, (c.perform call).2.ages.toList) =
        BleedingList.perform c.ages.capacity c.ages.toList call := by
  cases call with
  | isBleeding i => exact isBleeding_spec hc i
  | recordStopAge e age =>
    obtain ⟨hi, hcap, he⟩ := ArenaCache.put_spec hc e age
    exact ⟨hi, hcap, by simp [perform, recordStopAge, BleedingList.perform, ← he]⟩
  | removeCachedAge e =>
    obtain ⟨hi, hcap, he⟩ := ArenaCache.remove_spec hc e
    exact ⟨hi, hcap, by simp [perform, removeCachedAge, BleedingList.perform, ← he]⟩
  | clear =>
    obtain ⟨hi, hcap, he⟩ := ArenaCache.clear_spec hc
    exact ⟨hi, hcap, by simp [perform, BleedingCache.clear, BleedingList.perform, he]⟩

theorem trace_eq (hc : c.ages.Valid) (calls : List BleedingCall) :
    c.trace calls = BleedingList.trace c.ages.capacity c.ages.toList calls := by
  induction calls generalizing c with
  | nil => rfl
  | cons call calls ih =>
    obtain ⟨hi, hcap, he⟩ := perform_spec hc call
    have hl : (c.perform call).2.ages.toList = (BleedingList.perform c.ages.capacity c.ages.toList call).2 :=
      congrArg Prod.snd he
    show ((c.perform call).1, (c.perform call).2.ages.toList) :: (c.perform call).2.trace calls = _
    rw [ih hi, hcap, he, hl]
    rfl

end BleedingCache

/-- Along every sequence of calls, each question is answered from the stop age the recency list
keeps for the injury, if any, and else from its severity; so without seeds, always from the
severity. -/
theorem bleeding_cache_answers_from_kept_ages (capacity : Nat) (calls : List BleedingCall) :
    (BleedingCache.new capacity).trace calls = BleedingList.trace (max capacity 1) [] calls ∧
      ∀ sev : EntityId → Float32, (∀ call ∈ calls, call.HasSeverity sev) →
        (∀ call ∈ calls, call.seeds = false) →
        ∀ (n : Nat) (i : Injury), calls[n]? = some (BleedingCall.isBleeding i) →
          ((BleedingCache.new capacity).trace calls)[n]?.map Prod.fst =
            some (some (decide (i.ageTicks < stopBleedingAge i.severity))) := by
  have htrace : (BleedingCache.new capacity).trace calls =
      BleedingList.trace (max capacity 1) [] calls := by
    rw [BleedingCache.trace_eq (c := BleedingCache.new capacity) (ArenaCache.Valid.new capacity)]
    rfl
  refine ⟨htrace, fun sev hsev hseed n i hn => ?_⟩
  rw [htrace]
  exact BleedingList.trace_answers _ calls (fun p hp => absurd hp List.not_mem_nil) hsev hseed n i hn

theorem bleeding_cache_recomputes_pushed_out_age :
    let i : Injury := ⟨⟨5⟩, ⟨1⟩, 1, 90000⟩
    let calls := [BleedingCall.isBleeding i, .isBleeding ⟨⟨6⟩, ⟨1⟩, 1, 0⟩, .isBleeding i]
    (∀ call ∈ calls, call.HasSeverity fun _ => 1) ∧ (∀ call ∈ calls, call.seeds = false) ∧
      ((BleedingCache.new 1).trace calls)[2]?.map Prod.fst =
        some (some (decide (i.ageTicks < stopBleedingAge i.severity))) := by
  intro i calls
  have hsev : ∀ call ∈ calls, call.HasSeverity fun _ => 1 := by
    intro call hc
    simp only [calls, List.mem_cons, List.not_mem_nil, or_false] at hc
    rcases hc with rfl | rfl | rfl <;> rfl
  have hseed : ∀ call ∈ calls, call.seeds = false := by
    simp [calls, BleedingCall.seeds]
  exact ⟨hsev, hseed, (bleeding_cache_answers_from_kept_ages 1 calls).2 _ hsev hseed 2 i rfl⟩

end ColonyCache
