import ColonyCache.Proofs.Session.Scopes
/-! Registries of named scoped caches: along any run, the factory runs once for each name, at its
first request. -/
namespace ColonyCache

namespace Registry

variable {γ : Type} (r : Registry γ)

/-! ### Looking names up -/

theorem get?_eq_none_iff (name : String) : r.get? name = none ↔ name ∉ r.names := by
  rw [← r.isSome_get?_iff, Option.not_isSome_iff_eq_none]

/-! ### Asking for a cache -/

section GetOrCreate

variable {m : Type → Type} [Monad m] (factory : String → m γ)

theorem getOrCreateWith_of_get? {name : String} {c : γ} (h : r.get? name = some c) :
    r.getOrCreateWith name factory = pure (c, r) := by
  simp only [getOrCreateWith, h]

theorem getOrCreateWith_of_get?_none {name : String} (h : r.get? name = none) :
    r.getOrCreateWith name factory =
      factory name >>= fun fresh => pure (fresh, ⟨r.entries ++ [(name, fresh)]⟩) := by
  simp only [getOrCreateWith, h]

end GetOrCreate

/-! ### Operations on every cache -/

theorem sumAll_fst (f : γ → Nat × γ) :
    (r.sumAll f).1 = (r.entries.map fun e => (f e.2).1).sum := by
  -- the fold carries the running sum
  have hfold : ∀ (es acc : List (String × γ)) (n : Nat),
      (es.foldl (fun acc e => ((acc.1 + (f e.2).1, acc.2 ++ [(e.1, (f e.2).2)]) :
        Nat × List (String × γ))) (n, acc)).1 = n + (es.map fun e => (f e.2).1).sum := by
    intro es
    induction es with
    | nil => intro acc n; simp
    | cons e es ih => intro acc n; rw [List.foldl_cons, ih]; simp [Nat.add_assoc]
  unfold sumAll
  exact (hfold r.entries [] 0).trans (Nat.zero_add _)

/-! ### Runs of changes -/

section Run

variable {σ κ ι : Type} [Ord σ] [BEq κ] [Hashable κ] [Keyed ι κ]

/-- What a caller does to a registry: asks for a cache, changes one, or acts on every cache. -/
inductive Change (σ κ ι : Type) [Ord σ] [BEq κ] [Hashable κ] where
  | getOrCreate (name : String)
  | write (name : String) (f : ScopedCache σ κ ι → ScopedCache σ κ ι)
  | removeItem (k : κ)
  | removeScope (s : σ)
  | relocateItem (resolve : ι → Option σ) (k : κ)
  | clear

def Change.asked : Change σ κ ι → List String
  | .getOrCreate name => [name]
  | _ => []

/-- The factory that makes the cache `mk name` and writes `name` to a log. -/
def logged (mk : String → ScopedCache σ κ ι) (name : String) :
    StateM (List String) (ScopedCache σ κ ι) := do
  let log ← get
  set (log ++ [name])
  pure (mk name)

def Change.apply (mk : String → ScopedCache σ κ ι) (r : Registry (ScopedCache σ κ ι)) :
    Change σ κ ι → StateM (List String) (Registry (ScopedCache σ κ ι))
  | .getOrCreate name => Prod.snd <$> r.getOrCreateWith name (logged mk)
  | .write name f => pure (r.modify name fun c => ((), f c)).2
  | .removeItem k => pure (r.removeItem k)
  | .removeScope s => pure (r.removeScope s).2
  | .relocateItem resolve k => pure (r.relocateItem resolve k)
  | .clear => pure r.clearAll

def Change.step (mk : String → ScopedCache σ κ ι) (c : Change σ κ ι)
    (p : Registry (ScopedCache σ κ ι) × List String) :
    Registry (ScopedCache σ κ ι) × List String :=
  (c.apply mk p.1).run p.2

/-- `Run mk r log asked`: a run from the empty registry asking for `asked` reaches `r`, the
factory running for `log`. -/
inductive Run (mk : String → ScopedCache σ κ ι) :
    Registry (ScopedCache σ κ ι) → List String → List String → Prop
  | empty : Run mk {} [] []
  | step {r : Registry (ScopedCache σ κ ι)} {log asked : List String} (c : Change σ κ ι) :
      Run mk r log asked →
        Run mk (c.step mk (r, log)).1 (c.step mk (r, log)).2 (asked ++ c.asked)

variable {mk : String → ScopedCache σ κ ι} {r : Registry (ScopedCache σ κ ι)}
  {log : List String}

theorem step_getOrCreate_of_get? {name : String} {c : ScopedCache σ κ ι}
    (h : r.get? name = some c) : (Change.getOrCreate name).step mk (r, log) = (r, log) := by
  simp only [Change.step, Change.apply, r.getOrCreateWith_of_get? _ h]
  rfl

theorem step_getOrCreate_of_get?_none {name : String} (h : r.get? name = none) :
    (Change.getOrCreate name).step mk (r, log) =
      (⟨r.entries ++ [(name, mk name)]⟩, log ++ [name]) := by
  simp only [Change.step, Change.apply, r.getOrCreateWith_of_get?_none _ h]
  rfl

theorem step_of_asked_nil {c : Change σ κ ι} (hc : c.asked = []) :
    (c.step mk (r, log)).2 = log ∧ (c.step mk (r, log)).1.names = r.names := by
  cases c with
  | getOrCreate => cases hc
  | write name f => exact ⟨rfl, r.names_modify name _⟩
  | removeItem k => exact ⟨rfl, r.names_mapAll _⟩
  | removeScope s =>
    refine ⟨rfl, ?_⟩
    show (r.removeScope s).2.names = r.names
    rw [removeScope, sumAll_snd, names_mapAll]
  | relocateItem resolve k => exact ⟨rfl, r.names_mapAll _⟩
  | clear => exact ⟨rfl, r.names_mapAll _⟩

/-- Along a run, the log of the factory is the names asked for, each at its first request. -/
theorem Run.log_eq {asked : List String} (h : Run mk r log asked) :
    log = asked.eraseDups ∧ r.names = log ∧ r.names.Nodup := by
  induction h with
  | empty => exact ⟨rfl, rfl, List.nodup_nil⟩
  | @step r log asked c _ ih =>
    obtain ⟨hlog, hnames, hnodup⟩ := ih
    -- a change that asks for no name keeps the log and the names
    have keep : ∀ c : Change σ κ ι, c.asked = [] →
        (c.step mk (r, log)).2 = (asked ++ c.asked).eraseDups ∧
          (c.step mk (r, log)).1.names = (c.step mk (r, log)).2 ∧
          (c.step mk (r, log)).1.names.Nodup := fun c hc => by
      obtain ⟨hl, hn⟩ : (c.step mk (r, log)).2 = log ∧ (c.step mk (r, log)).1.names = r.names :=
        step_of_asked_nil hc
      rw [hl, hn, hc, List.append_nil]
      exact ⟨hlog, hnames, hnodup⟩
    cases c with
    | getOrCreate name =>
      cases hget : r.get? name with
      | some c =>
        -- a name asked for again: nothing is made
        have hmem : name ∈ asked := by
          rw [← List.mem_eraseDups, ← hlog, ← hnames]
          exact (r.isSome_get?_iff name).mp (by rw [hget]; rfl)
        rw [step_getOrCreate_of_get? hget]
        refine ⟨?_, hnames, hnodup⟩
        rw [Change.asked, List.eraseDups_append, hlog]
        simp [List.removeAll, hmem]
      | none =>
        -- a name asked for the first time: the factory runs for it
        have hnew := (r.get?_eq_none_iff name).mp hget
        have hmem : name ∉ asked := by
          rw [← List.mem_eraseDups, ← hlog, ← hnames]
          exact hnew
        rw [step_getOrCreate_of_get?_none hget]
        refine ⟨?_, ?_, ?_⟩
        · rw [Change.asked, List.eraseDups_append, hlog]
          simp [List.removeAll, hmem, List.eraseDups_cons]
        · show (r.entries ++ [(name, mk name)]).map (·.1) = log ++ [name]
          rw [List.map_append, ← hnames]
          rfl
        · show ((r.entries ++ [(name, mk name)]).map (·.1)).Nodup
          rw [List.map_append, List.nodup_append]
          exact ⟨hnodup, List.nodup_cons.mpr ⟨List.not_mem_nil, List.nodup_nil⟩,
            fun a ha b hb hab => hnew (by simp at hb; rw [← hb, ← hab]; exact ha)⟩
    | write name f => exact keep (.write name f) rfl
    | removeItem k => exact keep (.removeItem k) rfl
    | removeScope s => exact keep (.removeScope s) rfl
    | relocateItem resolve k => exact keep (.relocateItem resolve k) rfl
    | clear => exact keep .clear rfl

end Run

end Registry

/-- Along every run from the empty registry, the factory runs exactly once per name asked for,
and each change reaches only the caches it names. -/
theorem registry_makes_each_cache_once {σ κ ι : Type} [Ord σ] [BEq κ] [Hashable κ] [Keyed ι κ]
    {mk : String → ScopedCache σ κ ι} {r : Registry (ScopedCache σ κ ι)}
    {log asked : List String} (h : Registry.Run mk r log asked) :
    log = asked.eraseDups ∧ r.names = log ∧ r.size = log.length ∧ r.names.Nodup ∧
      (∀ name c, r.get? name = some c →
        (r.getOrCreateWith name (Registry.logged mk)).run log = ((c, r), log)) ∧
      (∀ name, r.get? name = none →
        (r.getOrCreateWith name (Registry.logged mk)).run log =
          ((mk name, ⟨r.entries ++ [(name, mk name)]⟩), log ++ [name])) ∧
      (∀ (a b : String) (f : ScopedCache σ κ ι → Unit × ScopedCache σ κ ι), b ≠ a →
        (r.modify a f).2.get? b = r.get? b) ∧
      (∀ k, (r.removeItem k).entries = r.entries.map fun e => (e.1, (e.2.remove k).2)) ∧
      (∀ s, r.removeScope s = ((r.entries.map fun e => (e.2.removeScope s).1).sum,
        ⟨r.entries.map fun e => (e.1, (e.2.removeScope s).2)⟩)) ∧
      (∀ resolve k, (r.relocateItem resolve k).entries =
        r.entries.map fun e => (e.1, (e.2.relocate resolve k).2)) ∧
      r.clearAll.entries = r.entries.map fun e => (e.1, e.2.clear) := by
  -- the log and the names come from the run; every other part is one step of a definition
  obtain ⟨hlog, hnames, hnodup⟩ := h.log_eq
  refine ⟨hlog, hnames, ?_, hnodup, fun name c hc => ?_, fun name hc => ?_,
    fun a b f hba => ?_, fun k => rfl, fun s => Prod.ext (r.sumAll_fst _) (r.sumAll_snd _), fun resolve k => rfl, rfl⟩
  · rw [← hnames, Registry.names, List.length_map]
    rfl
  · rw [r.getOrCreateWith_of_get? _ hc]
    rfl
  · rw [r.getOrCreateWith_of_get?_none _ hc]
    rfl
  · rw [r.get?_modify, if_neg hba]

theorem two_names_registry_run :
    let mk : String → ScopedCache RegionId EntityId Thing := fun _ => {}
    let r : Registry (ScopedCache RegionId EntityId Thing) := ⟨[("hauling", {}), ("plants", {})]⟩
    Registry.Run mk r ["hauling", "plants"] ["hauling", "plants", "hauling"] ∧
      ["hauling", "plants"] = ["hauling", "plants", "hauling"].eraseDups ∧
      r.names = ["hauling", "plants"] ∧ r.size = 2 := by
  intro mk r
  have hrun : Registry.Run mk r ["hauling", "plants"] ["hauling", "plants", "hauling"] :=
    .step (.getOrCreate "hauling") (.step (.getOrCreate "plants")
      (.step (.getOrCreate "hauling") .empty))
  obtain ⟨hlog, hnames, hsize, -⟩ := registry_makes_each_cache_once hrun
  exact ⟨hrun, hlog, hnames, hsize⟩

end ColonyCache
