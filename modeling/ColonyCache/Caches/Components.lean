import ColonyCache.Caches.Keyed
import ColonyCache.World.Basic
/-! Component lookups: the slot of each kind is looked up once per thing and kept, and the
component read from the world at that slot. -/
namespace ColonyCache

/-- The kept slots of one kind of component, per thing. -/
structure ComponentSlots where
  kind : ComponentKind
  slots : EntityCache (Option Nat) := {}

namespace ComponentSlots

/-- The component of this kind on thing `e`, read at its kept slot. -/
def get? (c : ComponentSlots) (e : EntityId) (w : World) : Option Component × ComponentSlots :=
  let (slot, slots) := c.slots.getOrInsert e fun _ => w.findComponent e c.kind
  (slot.bind (w.componentAt e), { c with slots })

def remove (c : ComponentSlots) (e : EntityId) : ComponentSlots :=
  { c with slots := (c.slots.remove e).2 }

def clear (c : ComponentSlots) : ComponentSlots := { c with slots := {} }

end ComponentSlots

/-- Kept slots for the four kinds of component. -/
structure ComponentService where
  quality : ComponentSlots := ⟨.quality, {}⟩
  powerSwitch : ComponentSlots := ⟨.powerSwitch, {}⟩
  schedule : ComponentSlots := ⟨.schedule, {}⟩
  breakdown : ComponentSlots := ⟨.breakdown, {}⟩

namespace ComponentService

def qualityOf (s : ComponentService) (e : EntityId) (w : World) :
    Option Quality × ComponentService :=
  let (c, quality) := s.quality.get? e w
  let q := match c with
    | some (.quality q) => some q
    | _ => none
  (q, { s with quality })

/-- Whether thing `e` wants power: not if its switch is off, else not if its schedule forbids. -/
def wantsToBeOn (s : ComponentService) (e : EntityId) (w : World) : Bool × ComponentService :=
  let (sw, powerSwitch) := s.powerSwitch.get? e w
  let s := { s with powerSwitch }
  match sw with
  | some (.powerSwitch false) => (false, s)
  | _ =>
    let (sc, schedule) := s.schedule.get? e w
    let allowed := match sc with
      | some (.schedule false) => false
      | _ => true
    (allowed, { s with schedule })

def isBrokenDown (s : ComponentService) (e : EntityId) (w : World) : Bool × ComponentService :=
  let (c, breakdown) := s.breakdown.get? e w
  let broken := match c with
    | some (.breakdown true) => true
    | _ => false
  (broken, { s with breakdown })

def forget (s : ComponentService) (e : EntityId) : ComponentService :=
  ⟨s.quality.remove e, s.powerSwitch.remove e, s.schedule.remove e, s.breakdown.remove e⟩

def size (s : ComponentService) : Nat :=
  s.quality.slots.size + s.powerSwitch.slots.size + s.schedule.slots.size + s.breakdown.slots.size

def clear (s : ComponentService) : ComponentService :=
  ⟨s.quality.clear, s.powerSwitch.clear, s.schedule.clear, s.breakdown.clear⟩

end ComponentService

end ColonyCache
