import ColonyCache.Proofs.Settings.Reading
import ColonyCache.Session.Basic
/-! The room the bounded caches of a session reserve, one entry more than they keep, summed in a
64-bit word that wraps to zero at the largest size the settings accept. -/
namespace ColonyCache

theorem reservedRoom_eq_mod (capacity : Nat) :
    reservedRoom capacity = (max capacity 1 + 1) % 18446744073709551616 := by
  rw [reservedRoom, UInt64.toNat_add, UInt64.toNat_ofNat', UInt64.toNat_one, Nat.mod_add_mod]

theorem reservedRoom_eq_succ_iff (capacity : Nat) (h : capacity ≤ 18446744073709551615) :
    reservedRoom capacity = max capacity 1 + 1 ↔ capacity < 18446744073709551615 := by
  rw [reservedRoom_eq_mod capacity]
  constructor
  · intro he
    -- at the largest word the sum is 2^64, which the word holds as zero
    by_contra hmax
    have hc : capacity = 18446744073709551615 := by omega
    subst hc
    simp at he
  · intro hlt
    exact Nat.mod_eq_of_lt (by omega)

theorem Config.capacities_of_fromLookup {lookup : String → Option String} {config : Config}
    (h : Config.fromLookup lookup = .ok config) :
    0 < config.relationsCache.capacity ∧ config.relationsCache.capacity ≤ 18446744073709551615 ∧
      0 < config.injuryCache.capacity ∧ config.injuryCache.capacity ≤ 18446744073709551615 := by
  obtain ⟨t, s, r, i, m, -, hr, hi, rfl⟩ := (Config.fromLookup_eq_ok_iff lookup config).mp h
  dsimp only
  omega

/-- For accepted settings, both bounded caches of a session reserve one entry more than they keep
exactly when neither size is 2^64 - 1. -/
theorem session_cache_rooms_exact_iff (lookup : String → Option String) (config : Config)
    (h : Config.fromLookup lookup = .ok config) (g : Nat) :
    ((Session.new config g).relations.pairs.reserved =
        (Session.new config g).relations.pairs.capacity + 1 ∧
      (Session.new config g).bleeding.ages.reserved =
        (Session.new config g).bleeding.ages.capacity + 1) ↔
      config.relationsCache.capacity < 18446744073709551615 ∧
        config.injuryCache.capacity < 18446744073709551615 := by
  obtain ⟨-, hr, -, hi⟩ := Config.capacities_of_fromLookup h
  show (reservedRoom _ = max _ 1 + 1 ∧ reservedRoom _ = max _ 1 + 1) ↔ _
  rw [reservedRoom_eq_succ_iff _ hr, reservedRoom_eq_succ_iff _ hi]

theorem default_session_rooms_exact :
    Config.fromLookup (fun _ => none) = .ok Config.default ∧
      (((Session.new Config.default 0).relations.pairs.reserved =
          (Session.new Config.default 0).relations.pairs.capacity + 1 ∧
        (Session.new Config.default 0).bleeding.ages.reserved =
          (Session.new Config.default 0).bleeding.ages.capacity + 1) ↔
        Config.default.relationsCache.capacity < 18446744073709551615 ∧
          Config.default.injuryCache.capacity < 18446744073709551615) :=
  ⟨rfl, session_cache_rooms_exact_iff (fun _ => none) Config.default rfl 0⟩

/-- A relations cache size of 2^64 - 1 is accepted, and its cache reserves room for none. -/
theorem largest_relations_size_wraps_room :
    ∃ config, Config.fromLookup (fun var =>
        if var = "WORLDCACHE_RELATIONS_CAPACITY" then some "18446744073709551615" else none) =
        .ok config ∧
      (Session.new config 0).relations.pairs.capacity + 1 = 18446744073709551616 ∧
      (Session.new config 0).relations.pairs.reserved = 0 :=
  ⟨_, rfl, rfl, rfl⟩

end ColonyCache
