import ColonyCache.World.Basic
/-! A head count of a map: how many colonists, animals and items stand on it. -/
namespace ColonyCache

/-- The colonists, animals and items on one map. -/
structure MapSummary where
  colonists : Nat := 0
  animals : Nat := 0
  items : Nat := 0
deriving DecidableEq, Repr, Inhabited

/-- Counts one thing into a summary. -/
def MapSummary.count (s : MapSummary) (t : Thing) : MapSummary :=
  match t.kind with
  | .colonist => { s with colonists := s.colonists + 1 }
  | .animal _ => { s with animals := s.animals + 1 }
  | .item => { s with items := s.items + 1 }
  | _ => s

/-- The head count of map `m`. -/
def World.summary (w : World) (m : MapId) : MapSummary := (w.thingsOn m).foldl MapSummary.count {}

end ColonyCache
