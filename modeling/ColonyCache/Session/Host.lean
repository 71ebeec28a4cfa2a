import ColonyCache.Session.Basic
/-! The session host: at most one session at a time, numbered 1, 2, 3, and so on; a handle to
an ended session finds its caches empty. -/
namespace ColonyCache

/-- The host of the sessions of a run. -/
structure SessionHost where
  config : Config
  current : Option Session := none
  /-- The generation of the last session loaded. -/
  generation : Nat := 0

namespace SessionHost

def new (config : Config) : SessionHost := { config }

/-- Ends the current session, if any, and gives its counts. -/
def unload (h : SessionHost) : Option SessionStats × SessionHost :=
  (h.current.map Session.stats, { h with current := none })

/-- Ends the current session and loads a new one of the next generation. -/
def load (h : SessionHost) : SessionHost :=
  let h := h.unload.2
  { h with
    generation := h.generation + 1
    current := some (Session.new h.config (h.generation + 1)) }

/-- The session of generation `g`, while it is loaded. -/
def live (h : SessionHost) (g : Nat) : Option Session := h.current.filter (·.generation == g)

/-- Changes the current session by `f`, if there is one. -/
def modify {α : Type} (h : SessionHost) (f : Session → α × Session) : Option α × SessionHost :=
  match h.current with
  | some s =>
    let (a, s) := f s
    (some a, { h with current := some s })
  | none => (none, h)

end SessionHost

end ColonyCache
