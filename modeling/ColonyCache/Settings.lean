import ColonyCache.Text.WhiteSpace
/-! Run settings, read from named text variables in a fixed order, which decides the error
reported when several are wrong. -/
namespace ColonyCache

/-- Why settings were refused. -/
inductive ConfigError where
  /-- The variable `var` held `value`, which is no unsigned number. -/
  | invalidNumber (var : String) (value : String)
  /-- The cache `name` was given room for no entry. -/
  | zeroCapacity (name : String)
deriving DecidableEq, Repr

def ConfigError.message : ConfigError → String
  | .invalidNumber var value => var ++ " must be an unsigned integer, got '" ++ value ++ "'"
  | .zeroCapacity name => "cache '" ++ name ++ "' must have a capacity of at least 1"

/-- The size of a bounded cache. -/
structure CacheConfig where
  capacity : Nat
deriving DecidableEq, Repr

namespace CacheConfig

/-- The size of a cache that names no other. -/
def default : CacheConfig := ⟨1024⟩

/-- The size of the relations cache. -/
def relations : CacheConfig := ⟨1024⟩

/-- The size of the bleeding cache. -/
def injuryBleeding : CacheConfig := ⟨2048⟩

def withCapacity (n : Nat) : CacheConfig := ⟨n⟩

def setCapacity (_ : CacheConfig) (n : Nat) : CacheConfig := ⟨n⟩

/-- Accepts a cache size of at least one; `name` names the cache in the error. -/
def validate (c : CacheConfig) (name : String) : Except ConfigError CacheConfig :=
  if c.capacity = 0 then .error (.zeroCapacity name) else .ok c

end CacheConfig

def wordMax : Nat := Nat.pow 2 64 - 1

/-- The value of an optional plus sign and ASCII digits, if it is below `2^64`. -/
def readUnsigned (s : List Char) : Option Nat :=
  let digits := match s with
    | '+' :: rest => rest
    | _ => s
  if digits.isEmpty || !digits.all (fun c => '0' ≤ c && c ≤ '9') then none
  else
    let n := digits.foldl (fun n c => n * 10 + (c.toNat - '0'.toNat)) 0
    if n ≤ wordMax then some n else none

structure Config where
  /-- Milliseconds between ticks; at least one. -/
  tickIntervalMs : Nat
  /-- Ticks per session; zero means no limit. -/
  maxTicks : Nat
  /-- How many sessions run one after another. -/
  sessions : Nat
  relationsCache : CacheConfig
  injuryCache : CacheConfig
deriving DecidableEq, Repr

namespace Config

/-- The settings when no variable is set. -/
def default : Config := ⟨100, 600, 1, CacheConfig.relations, CacheConfig.injuryBleeding⟩

def tickIntervalVar : String := "WORLDCACHE_TICK_INTERVAL_MS"
def maxTicksVar : String := "WORLDCACHE_MAX_TICKS"
def sessionsVar : String := "WORLDCACHE_SESSIONS"
def relationsCapacityVar : String := "WORLDCACHE_RELATIONS_CAPACITY"
def injuryCapacityVar : String := "WORLDCACHE_INJURY_CAPACITY"

/-- The number held by variable `var`, or `dflt` if it is unset. -/
def number (lookup : String → Option String) (var : String) (dflt : Nat) :
    Except ConfigError Nat :=
  match lookup var with
  | none => .ok dflt
  | some raw =>
    match readUnsigned (Text.trimWhiteSpace raw.toList) with
    | some n => .ok n
    | none => .error (.invalidNumber var raw)

/-- The largest session count: the largest number of 32 bits. -/
def sessionsMax : Nat := Nat.pow 2 32 - 1

/-- Reads the settings from `lookup`, which gives the text of a variable if it is set. -/
def fromLookup (lookup : String → Option String) : Except ConfigError Config := do
  let tick ← number lookup tickIntervalVar default.tickIntervalMs
  let sessions ← number lookup sessionsVar default.sessions
  let relations ← number lookup relationsCapacityVar default.relationsCache.capacity
  let injuries ← number lookup injuryCapacityVar default.injuryCache.capacity
  let maxTicks ← number lookup maxTicksVar default.maxTicks
  let relationsCache ← (CacheConfig.withCapacity relations).validate "relations"
  let injuryCache ← (CacheConfig.withCapacity injuries).validate "injury-bleeding"
  pure ⟨max tick 1, maxTicks, min sessions sessionsMax, relationsCache, injuryCache⟩

end Config

end ColonyCache
