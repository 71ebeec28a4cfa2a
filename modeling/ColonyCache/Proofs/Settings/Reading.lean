import Mathlib.Data.Nat.Digits.Defs
import Mathlib.Data.List.Forall2
import ColonyCache.Settings
/-! Reading the run settings: five variables read in a fixed order, the first that does not read
being the error, then the two size checks. -/
namespace ColonyCache

section ReadInOrder

variable {ε α β : Type}

theorem bind_eq_ok_iff {x : Except ε α} {f : α → Except ε β} {b : β} :
    x >>= f = .ok b ↔ ∃ a, x = .ok a ∧ f a = .ok b := by
  cases x <;> simp [bind, Except.bind]

theorem bind_eq_error_iff {x : Except ε α} {f : α → Except ε β} {e : ε} :
    x >>= f = .error e ↔ x = .error e ∨ ∃ a, x = .ok a ∧ f a = .error e := by
  cases x <;> simp [bind, Except.bind]

theorem mapM_eq_ok_iff {f : α → Except ε β} {l : List α} {bs : List β} :
    l.mapM f = .ok bs ↔ List.Forall₂ (fun a b => f a = .ok b) l bs := by
  induction l generalizing bs with
  | nil => cases bs <;> simp [pure, Except.pure]
  | cons a l ih =>
    simp only [List.mapM_cons, bind_eq_ok_iff, pure, Except.pure, Except.ok.injEq]
    cases bs with
    | nil => simp
    | cons b bs =>
      simp only [List.forall₂_cons, ← ih]
      constructor
      · rintro ⟨a', ha, bs', hbs, he⟩
        obtain ⟨rfl, rfl⟩ := List.cons.inj he
        exact ⟨ha, hbs⟩
      · rintro ⟨ha, hbs⟩
        exact ⟨b, ha, bs, hbs, rfl⟩

theorem mapM_eq_error_iff {f : α → Except ε β} {l : List α} {e : ε} :
    l.mapM f = .error e ↔
      ∃ pre x post, l = pre ++ x :: post ∧ (∀ y ∈ pre, ∃ b, f y = .ok b) ∧ f x = .error e := by
  induction l with
  | nil => simp [pure, Except.pure]
  | cons a l ih =>
    simp only [List.mapM_cons, bind_eq_error_iff, pure, Except.pure, reduceCtorEq, and_false,
      exists_false, or_false]
    constructor
    · rintro (ha | ⟨b, hb, hl⟩)
      · exact ⟨[], a, l, rfl, by simp, ha⟩
      · obtain ⟨pre, x, post, rfl, hpre, hx⟩ := ih.mp hl
        refine ⟨a :: pre, x, post, rfl, fun y hy => ?_, hx⟩
        rcases List.mem_cons.mp hy with rfl | hy
        · exact ⟨b, hb⟩
        · exact hpre y hy
    · rintro ⟨pre, x, post, hl, hpre, hx⟩
      cases pre with
      | nil =>
        obtain ⟨rfl, rfl⟩ := List.cons.inj hl
        exact .inl hx
      | cons y pre =>
        obtain ⟨rfl, rfl⟩ := List.cons.inj hl
        obtain ⟨b, hb⟩ := hpre _ List.mem_cons_self
        exact .inr ⟨b, hb, ih.mpr ⟨pre, x, post, rfl, fun z hz => hpre z (List.mem_cons_of_mem _ hz), hx⟩⟩

end ReadInOrder

namespace Config

def digitValue (c : Char) : Nat := c.toNat - '0'.toNat

/-- `ds` are one or more ASCII digits of value `n`, at most 2^64 - 1. -/
def IsWordDigits (ds : List Char) (n : Nat) : Prop :=
  ds ≠ [] ∧ (∀ c ∈ ds, c.isDigit) ∧ n = Nat.ofDigits 10 (ds.reverse.map digitValue) ∧
    n ≤ 18446744073709551615

/-- `s` is an optional plus sign and the digits of `n`. -/
def IsWordNumeral (s : List Char) (n : Nat) : Prop :=
  ∃ ds : List Char, (s = ds ∨ s = '+' :: ds) ∧ IsWordDigits ds n

/-- The text `raw` of a variable, trimmed of white space, is a numeral of value `n`. -/
def Reads (raw : String) (n : Nat) : Prop := IsWordNumeral (Text.trimWhiteSpace raw.toList) n

/-- Variable `var` sets `n`: unset, it keeps its default `dflt`; set, its text reads as `n`. -/
def Sets (lookup : String → Option String) (var : String) (dflt n : Nat) : Prop :=
  match lookup var with
  | none => n = dflt
  | some raw => Reads raw n

/-- The variables in the order in which they are read, each with its default. -/
def readOrder : List (String × Nat) :=
  [("WORLDCACHE_TICK_INTERVAL_MS", 100), ("WORLDCACHE_SESSIONS", 1),
    ("WORLDCACHE_RELATIONS_CAPACITY", 1024), ("WORLDCACHE_INJURY_CAPACITY", 2048),
    ("WORLDCACHE_MAX_TICKS", 600)]

theorem wordMax_eq : wordMax = 18446744073709551615 := rfl

theorem foldl_digits (ds : List Char) (a : Nat) :
    ds.foldl (fun n c => n * 10 + (c.toNat - '0'.toNat)) a =
      a * 10 ^ ds.length + Nat.ofDigits 10 (ds.reverse.map digitValue) := by
  induction ds generalizing a with
  | nil => simp
  | cons c ds ih =>
    rw [List.foldl_cons, ih, List.reverse_cons, List.map_append, Nat.ofDigits_append]
    simp only [List.map_cons, List.map_nil, Nat.ofDigits_singleton, List.length_map,
      List.length_reverse, List.length_cons, Nat.pow_succ, digitValue]
    ring

theorem readDigits_eq_some_iff (ds : List Char) (n : Nat) :
    (if ds.isEmpty || !ds.all (fun c => '0' ≤ c && c ≤ '9') then none
      else if ds.foldl (fun n c => n * 10 + (c.toNat - '0'.toNat)) 0 ≤ wordMax
        then some (ds.foldl (fun n c => n * 10 + (c.toNat - '0'.toNat)) 0) else none) = some n ↔
      IsWordDigits ds n := by
  -- the fold of the digits is their positional value, so each check reads off `IsWordDigits`
  have hv := foldl_digits ds 0
  rw [Nat.zero_mul, Nat.zero_add] at hv
  rw [hv]
  by_cases he : ds = []
  · simp [he, IsWordDigits]
  · have hemp : ds.isEmpty = false := by simpa using he
    by_cases hd : ∀ c ∈ ds, c.isDigit
    · have hall : ds.all (fun c => '0' ≤ c && c ≤ '9') = true := List.all_eq_true.mpr hd
      rw [hemp, hall, wordMax_eq]
      by_cases hle : Nat.ofDigits 10 (ds.reverse.map digitValue) ≤ 18446744073709551615
      · rw [if_pos hle]
        constructor
        · intro h
          obtain rfl := Option.some.inj h
          exact ⟨he, hd, rfl, hle⟩
        · rintro ⟨-, -, rfl, -⟩
          rfl
      · rw [if_neg hle]
        constructor
        · intro h
          cases h
        · rintro ⟨-, -, rfl, hle'⟩
          exact absurd hle' hle
    · have hall : ds.all (fun c => '0' ≤ c && c ≤ '9') = false :=
        Bool.eq_false_iff.mpr fun h => hd (List.all_eq_true.mp h)
      simp [hall, IsWordDigits, hd]

theorem isWordNumeral_plus_iff (rest : List Char) (n : Nat) :
    IsWordNumeral ('+' :: rest) n ↔ IsWordDigits rest n := by
  constructor
  · rintro ⟨ds, rfl | hs, hds⟩
    · -- a plus sign is no digit
      exact absurd (hds.2.1 '+' List.mem_cons_self) (by decide)
    · exact (List.cons.inj hs).2 ▸ hds
  · exact fun h => ⟨rest, .inr rfl, h⟩

theorem isWordNumeral_iff_of_unsigned {s : List Char} (hs : ∀ rest, s = '+' :: rest → False)
    (n : Nat) : IsWordNumeral s n ↔ IsWordDigits s n := by
  constructor
  · rintro ⟨ds, rfl | hs', hds⟩
    · exact hds
    · exact absurd hs' (hs ds)
  · exact fun h => ⟨s, .inl rfl, h⟩

/-- Reading an unsigned number accepts exactly the numerals that fit a 64-bit word. -/
theorem readUnsigned_eq_some_iff (s : List Char) (n : Nat) :
    readUnsigned s = some n ↔ IsWordNumeral s n := by
  unfold readUnsigned
  dsimp only
  split
  · next rest => rw [readDigits_eq_some_iff, isWordNumeral_plus_iff]
  · next hs => rw [readDigits_eq_some_iff, isWordNumeral_iff_of_unsigned hs]

theorem number_eq_ok_iff (lookup : String → Option String) (var : String) (dflt n : Nat) :
    number lookup var dflt = .ok n ↔ Sets lookup var dflt n := by
  unfold number Sets Reads
  cases lookup var with
  | none => simp [eq_comm]
  | some raw =>
    dsimp only
    rw [← readUnsigned_eq_some_iff]
    cases readUnsigned (Text.trimWhiteSpace raw.toList) <;> simp

theorem number_eq_error_iff (lookup : String → Option String) (var : String) (dflt : Nat)
    (e : ConfigError) :
    number lookup var dflt = .error e ↔
      ∃ raw, lookup var = some raw ∧ (∀ n, ¬ Reads raw n) ∧ e = .invalidNumber var raw := by
  unfold number Reads
  cases lookup var with
  | none => simp
  | some raw =>
    dsimp only
    simp only [← readUnsigned_eq_some_iff, Option.some.injEq, exists_eq_left']
    cases readUnsigned (Text.trimWhiteSpace raw.toList) <;> simp [eq_comm]

theorem Sets.le {lookup : String → Option String} {var : String} {dflt n : Nat}
    (h : Sets lookup var dflt n) (hd : dflt ≤ 18446744073709551615) : n ≤ 18446744073709551615 := by
  unfold Sets at h
  split at h
  · exact h ▸ hd
  · obtain ⟨_, _, _, _, _, hle⟩ := h
    exact hle

/-- The settings from the five values read, after the two size checks. -/
def ofValues : List Nat → Except ConfigError Config
  | [t, s, r, i, m] => do
    let relationsCache ← (CacheConfig.withCapacity r).validate "relations"
    let injuryCache ← (CacheConfig.withCapacity i).validate "injury-bleeding"
    pure ⟨max t 1, m, min s sessionsMax, relationsCache, injuryCache⟩
  | _ => .error (.zeroCapacity "")

theorem fromLookup_eq (lookup : String → Option String) :
    fromLookup lookup = readOrder.mapM (fun p => number lookup p.1 p.2) >>= ofValues := by
  simp only [readOrder, List.mapM_cons, List.mapM_nil, bind_assoc, pure_bind]
  rfl

theorem ofValues_five (t s r i m : Nat) :
    ofValues [t, s, r, i, m] =
      if r = 0 then .error (.zeroCapacity "relations")
      else if i = 0 then .error (.zeroCapacity "injury-bleeding")
      else .ok ⟨max t 1, m, min s sessionsMax, ⟨r⟩, ⟨i⟩⟩ := by
  simp only [ofValues, CacheConfig.validate, CacheConfig.withCapacity]
  by_cases hr : r = 0 <;> by_cases hi : i = 0 <;> simp [hr, hi, bind, Except.bind, pure, Except.pure]

theorem ofValues_ne_invalidNumber (t s r i m : Nat) (var raw : String) :
    ofValues [t, s, r, i, m] ≠ .error (.invalidNumber var raw) := by
  rw [ofValues_five]
  split_ifs <;> simp

theorem ofValues_eq_ok_iff (t s r i m : Nat) (c : Config) :
    ofValues [t, s, r, i, m] = .ok c ↔
      r ≠ 0 ∧ i ≠ 0 ∧ c = ⟨max t 1, m, min s sessionsMax, ⟨r⟩, ⟨i⟩⟩ := by
  rw [ofValues_five]
  split_ifs with hr hi
  · simp [hr]
  · simp [hi]
  · simp [hr, hi, eq_comm]

theorem ofValues_eq_zeroCapacity_iff (t s r i m : Nat) (name : String) :
    ofValues [t, s, r, i, m] = .error (.zeroCapacity name) ↔
      (r = 0 ∧ name = "relations") ∨ (r ≠ 0 ∧ i = 0 ∧ name = "injury-bleeding") := by
  rw [ofValues_five]
  split_ifs with hr hi
  · simp [hr, eq_comm]
  · simp [hr, hi, eq_comm]
  · simp [hr, hi]

theorem forall₂_readOrder_iff {lookup : String → Option String} {t s r i m : Nat} :
    List.Forall₂ (fun p n => Sets lookup p.1 p.2 n) readOrder [t, s, r, i, m] ↔
      Sets lookup "WORLDCACHE_TICK_INTERVAL_MS" 100 t ∧ Sets lookup "WORLDCACHE_SESSIONS" 1 s ∧
        Sets lookup "WORLDCACHE_RELATIONS_CAPACITY" 1024 r ∧
        Sets lookup "WORLDCACHE_INJURY_CAPACITY" 2048 i ∧ Sets lookup "WORLDCACHE_MAX_TICKS" 600 m := by
  simp [readOrder]

theorem sizes_le_of_forall₂ {lookup : String → Option String} {t s r i m : Nat}
    (h : List.Forall₂ (fun p n => Sets lookup p.1 p.2 n) readOrder [t, s, r, i, m]) :
    r ≤ 18446744073709551615 ∧ i ≤ 18446744073709551615 := by
  obtain ⟨-, -, hr, hi, -⟩ := forall₂_readOrder_iff.mp h
  exact ⟨hr.le (by decide), hi.le (by decide)⟩

theorem mapM_number_eq_ok_iff (lookup : String → Option String) (ns : List Nat) :
    readOrder.mapM (fun p => number lookup p.1 p.2) = .ok ns ↔
      ∃ t s r i m, ns = [t, s, r, i, m] ∧
        List.Forall₂ (fun p n => Sets lookup p.1 p.2 n) readOrder [t, s, r, i, m] := by
  rw [mapM_eq_ok_iff]
  simp only [number_eq_ok_iff]
  constructor
  · intro h
    -- a value for each of the five variables
    obtain ⟨t, s, r, i, m, rfl⟩ : ∃ t s r i m, ns = [t, s, r, i, m] := by
      have hlen := h.length_eq
      match ns, hlen with
      | [t, s, r, i, m], _ => exact ⟨t, s, r, i, m, rfl⟩
    exact ⟨t, s, r, i, m, rfl, h⟩
  · rintro ⟨t, s, r, i, m, rfl, h⟩
    exact h

theorem fromLookup_eq_ok_iff (lookup : String → Option String) (c : Config) :
    fromLookup lookup = .ok c ↔
      ∃ t s r i m, List.Forall₂ (fun p n => Sets lookup p.1 p.2 n) readOrder [t, s, r, i, m] ∧
        r ≠ 0 ∧ i ≠ 0 ∧
        c = ⟨max t 1, m, min s 4294967295, ⟨min r 18446744073709551615⟩,
          ⟨min i 18446744073709551615⟩⟩ := by
  rw [fromLookup_eq, bind_eq_ok_iff]
  constructor
  · rintro ⟨ns, hns, hc⟩
    obtain ⟨t, s, r, i, m, rfl, h⟩ := (mapM_number_eq_ok_iff lookup ns).mp hns
    obtain ⟨hr, hi, rfl⟩ := (ofValues_eq_ok_iff t s r i m c).mp hc
    -- the sizes read fit a word, so capping them at the largest word keeps them
    obtain ⟨hrle, hile⟩ := sizes_le_of_forall₂ h
    refine ⟨t, s, r, i, m, h, hr, hi, ?_⟩
    rw [Nat.min_eq_left hrle, Nat.min_eq_left hile]
    rfl
  · rintro ⟨t, s, r, i, m, h, hr, hi, rfl⟩
    obtain ⟨hrle, hile⟩ := sizes_le_of_forall₂ h
    refine ⟨[t, s, r, i, m], (mapM_number_eq_ok_iff lookup _).mpr ⟨t, s, r, i, m, rfl, h⟩, ?_⟩
    rw [ofValues_eq_ok_iff, Nat.min_eq_left hrle, Nat.min_eq_left hile]
    exact ⟨hr, hi, rfl⟩

theorem fromLookup_eq_invalidNumber_iff (lookup : String → Option String) (var raw : String) :
    fromLookup lookup = .error (.invalidNumber var raw) ↔
      ∃ pre dflt post, readOrder = pre ++ (var, dflt) :: post ∧
        (∀ p ∈ pre, ∃ n, Sets lookup p.1 p.2 n) ∧ lookup var = some raw ∧ ∀ n, ¬ Reads raw n := by
  rw [fromLookup_eq, bind_eq_error_iff, mapM_eq_error_iff]
  constructor
  · rintro (⟨pre, ⟨v, d⟩, post, horder, hpre, hx⟩ | ⟨ns, hns, hz⟩)
    · obtain ⟨raw', hraw, hbad, he⟩ := (number_eq_error_iff lookup v d _).mp hx
      obtain ⟨rfl, rfl⟩ : var = v ∧ raw = raw' := by
        injection he with h1 h2
        exact ⟨h1, h2⟩
      refine ⟨pre, d, post, horder, fun p hp => ?_, hraw, hbad⟩
      obtain ⟨n, hn⟩ := hpre p hp
      exact ⟨n, (number_eq_ok_iff lookup p.1 p.2 n).mp hn⟩
    · -- with all five read, only a size check can fail, and it gives the other error
      obtain ⟨t, s, r, i, m, rfl, -⟩ := (mapM_number_eq_ok_iff lookup ns).mp hns
      exact absurd hz (ofValues_ne_invalidNumber t s r i m var raw)
  · rintro ⟨pre, d, post, horder, hpre, hraw, hbad⟩
    refine .inl ⟨pre, (var, d), post, horder, fun p hp => ?_, ?_⟩
    · obtain ⟨n, hn⟩ := hpre p hp
      exact ⟨n, (number_eq_ok_iff lookup p.1 p.2 n).mpr hn⟩
    · exact (number_eq_error_iff lookup var d _).mpr ⟨raw, hraw, hbad, rfl⟩

theorem fromLookup_eq_zeroCapacity_iff (lookup : String → Option String) (name : String) :
    fromLookup lookup = .error (.zeroCapacity name) ↔
      ∃ t s r i m, List.Forall₂ (fun p n => Sets lookup p.1 p.2 n) readOrder [t, s, r, i, m] ∧
        ((r = 0 ∧ name = "relations") ∨ (r ≠ 0 ∧ i = 0 ∧ name = "injury-bleeding")) := by
  rw [fromLookup_eq, bind_eq_error_iff, mapM_eq_error_iff]
  constructor
  · rintro (⟨pre, ⟨v, d⟩, post, -, -, hx⟩ | ⟨ns, hns, hz⟩)
    · -- a variable that does not read gives the other error
      obtain ⟨_, _, _, he⟩ := (number_eq_error_iff lookup v d _).mp hx
      cases he
    · obtain ⟨t, s, r, i, m, rfl, h⟩ := (mapM_number_eq_ok_iff lookup ns).mp hns
      exact ⟨t, s, r, i, m, h, (ofValues_eq_zeroCapacity_iff t s r i m name).mp hz⟩
  · rintro ⟨t, s, r, i, m, h, hz⟩
    exact .inr ⟨[t, s, r, i, m], (mapM_number_eq_ok_iff lookup _).mpr ⟨t, s, r, i, m, rfl, h⟩,
      (ofValues_eq_zeroCapacity_iff t s r i m name).mpr hz⟩

end Config

open Config in
/-- Reading the settings succeeds exactly when every variable reads and neither size is zero, and
each error is the one the reading order gives. -/
theorem settings_read_in_order (lookup : String → Option String) :
    (∀ c, fromLookup lookup = .ok c ↔
      ∃ t s r i m, List.Forall₂ (fun p n => Sets lookup p.1 p.2 n) readOrder [t, s, r, i, m] ∧
        r ≠ 0 ∧ i ≠ 0 ∧
        c = ⟨max t 1, m, min s 4294967295, ⟨min r 18446744073709551615⟩,
          ⟨min i 18446744073709551615⟩⟩) ∧
    (∀ var raw, fromLookup lookup = .error (.invalidNumber var raw) ↔
      ∃ pre dflt post, readOrder = pre ++ (var, dflt) :: post ∧
        (∀ p ∈ pre, ∃ n, Sets lookup p.1 p.2 n) ∧ lookup var = some raw ∧ ∀ n, ¬ Reads raw n) ∧
    (∀ name, fromLookup lookup = .error (.zeroCapacity name) ↔
      ∃ t s r i m, List.Forall₂ (fun p n => Sets lookup p.1 p.2 n) readOrder [t, s, r, i, m] ∧
        ((r = 0 ∧ name = "relations") ∨ (r ≠ 0 ∧ i = 0 ∧ name = "injury-bleeding"))) :=
  ⟨fromLookup_eq_ok_iff lookup, fromLookup_eq_invalidNumber_iff lookup,
    fromLookup_eq_zeroCapacity_iff lookup⟩

end ColonyCache
