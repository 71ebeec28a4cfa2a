import ColonyCache.Proofs.World.Things
/-! The worlds that runs of public operations build, counting the entity ids handed out and the
maps added. -/
namespace ColonyCache

namespace World

/-- The public changes of a world. -/
inductive Op where
  | addMap (width height regionSize : UInt32)
  | setRegionsEnabled (m : MapId) (enabled : Bool)
  | removeMap (m : MapId)
  | spawn (m : MapId) (k : ThingKind) (c : Cell)
  | despawn (e : EntityId)
  | moveTo (e : EntityId) (c : Cell)
  | addInjury (owner : EntityId) (severity : Float32)
  | heal (injury : EntityId)
  | ageInjuries (ticks : UInt32)
  | relate (subject related : EntityId) (k : RelationKind)
  | unrelate (a b : EntityId)
  | restrictWork (e : EntityId) (ks : List WorkKind)
  | liftWorkRestrictions (e : EntityId)
  | affiliate (e : EntityId) (tag : Affiliation) (faction : EntityId)
  | endAffiliation (e : EntityId) (tag : Affiliation)
  | setComponent (e : EntityId) (c : Component)
  | infect (owner : EntityId) (a : Ailment)
  | restrictArea (e : EntityId) (a : Option Area)

/-- The world after the change `op`. -/
def apply (w : World) : Op → World
  | .addMap width height size => (w.addMap width height size).2
  | .setRegionsEnabled m b => w.setRegionsEnabled m b
  | .removeMap m => (w.removeMap m).2
  | .spawn m k c => (w.spawn m k c).2
  | .despawn e => (w.despawn e).2
  | .moveTo e c => (w.moveTo e c).2
  | .addInjury owner severity => (w.addInjury owner severity).2
  | .heal e => (w.heal e).2
  | .ageInjuries ticks => w.ageInjuries ticks
  | .relate a b k => w.relate a b k
  | .unrelate a b => w.unrelate a b
  | .restrictWork e ks => w.restrictWork e ks
  | .liftWorkRestrictions e => w.liftWorkRestrictions e
  | .affiliate e tag f => w.affiliate e tag f
  | .endAffiliation e tag => w.endAffiliation e tag
  | .setComponent e c => (w.setComponent e c).2
  | .infect owner a => (w.infect owner a).2
  | .restrictArea e a => w.restrictArea e a

/-- The number of entity ids that `op` hands out on `w`. -/
def issued (w : World) : Op → Nat
  | .spawn m k c => if (w.spawn m k c).1.isSome then 1 else 0
  | .addInjury owner severity => if (w.addInjury owner severity).1.isSome then 1 else 0
  | _ => 0

/-- The number of maps that `op` adds. -/
def Op.mapsAdded : Op → Nat
  | .addMap .. => 1
  | _ => 0

/-- `w` is reached from the empty world by a run that handed out `n` ids and added `k` maps. -/
inductive Built : World → Nat → Nat → Prop
  | empty : Built {} 0 0
  | step {w : World} {n k : Nat} (op : Op) :
      Built w n k → Built (w.apply op) (n + w.issued op) (k + op.mapsAdded)

variable (w : World)

theorem issued_le_one (op : Op) : w.issued op ≤ 1 := by
  unfold issued
  split <;> (try split) <;> omega

theorem lastEntity_apply (op : Op) :
    (w.apply op).lastEntity = w.lastEntity + (w.issued op).toUInt32 := by
  cases op with
  | spawn m k c =>
    simp only [apply, issued]
    rcases spawn_cases w m k c with h | ⟨-, -, -, h1, -, -, h2, -⟩
    · simp [h]
    · simp [h1, h2]
  | addInjury owner severity =>
    simp only [apply, issued, addInjury]
    split <;> simp
  | removeMap m =>
    simp only [apply, issued, removeMap]
    split <;> simp
  | despawn e => simp [apply, issued]
  | moveTo e c =>
    simp only [apply, issued]
    rcases moveTo_cases w e c with h | ⟨-, -, -, -, -, -, -, -, h1, -⟩
    · simp [h]
    · simp [h1]
  | setComponent e c => simp [apply, issued, (sameGround_setComponent w e c).lastEntity]
  | infect owner a => simp [apply, issued, (sameGround_infect w owner a).lastEntity]
  | heal e => simp [apply, issued, (sameGround_heal w e).lastEntity]
  | restrictArea e a => simp [apply, issued, (sameGround_restrictArea w e a).lastEntity]
  | _ => simp [apply, issued, addMap, setRegionsEnabled, ageInjuries, relate, unrelate,
      restrictWork, liftWorkRestrictions, affiliate, endAffiliation]

theorem lastMap_apply (op : Op) :
    (w.apply op).lastMap = w.lastMap + op.mapsAdded.toUInt32 := by
  cases op with
  | spawn m k c =>
    rcases spawn_cases w m k c with h | ⟨-, -, -, -, -, -, -, h1⟩
    · simp [apply, Op.mapsAdded, h]
    · simp [apply, Op.mapsAdded, h1]
  | addInjury owner severity => simp [apply, Op.mapsAdded, (addInjury_ground w owner severity).2.2.1]
  | removeMap m =>
    simp only [apply, Op.mapsAdded, removeMap]
    split <;> simp
  | despawn e => simp [apply, Op.mapsAdded]
  | moveTo e c =>
    rcases moveTo_cases w e c with h | ⟨-, -, -, -, -, -, -, -, -, h1⟩
    · simp [apply, Op.mapsAdded, h]
    · simp [apply, Op.mapsAdded, h1]
  | setComponent e c => simp [apply, Op.mapsAdded, (sameGround_setComponent w e c).lastMap]
  | infect owner a => simp [apply, Op.mapsAdded, (sameGround_infect w owner a).lastMap]
  | heal e => simp [apply, Op.mapsAdded, (sameGround_heal w e).lastMap]
  | restrictArea e a => simp [apply, Op.mapsAdded, (sameGround_restrictArea w e a).lastMap]
  | _ => simp [apply, Op.mapsAdded, addMap, setRegionsEnabled, ageInjuries, relate, unrelate,
      restrictWork, liftWorkRestrictions, affiliate, endAffiliation]

theorem lastEntity_toNat_apply (op : Op)
    (hroom : w.lastEntity.toNat + w.issued op < Nat.pow 2 32) :
    (w.apply op).lastEntity.toNat = w.lastEntity.toNat + w.issued op := by
  have hle := issued_le_one w op
  rw [lastEntity_apply, UInt32.toNat_add]
  have hsmall : (w.issued op).toUInt32.toNat = w.issued op :=
    UInt32.toNat_ofNat_of_lt' (by show w.issued op < 4294967296; omega)
  rw [hsmall]
  exact Nat.mod_eq_of_lt hroom

namespace Built

variable {w : World} {n k : Nat}

/-- While fewer than `2 ^ 32` ids are handed out, the entity counter is their number. -/
theorem lastEntity_toNat (h : w.Built n k) (hn : n < Nat.pow 2 32) : w.lastEntity.toNat = n := by
  induction h with
  | empty => rfl
  | @step w n k op _ ih =>
    have hle := issued_le_one w op
    have hw := ih (by omega)
    rw [lastEntity_toNat_apply w op (by rw [hw]; exact hn), hw]

/-- While fewer than `2 ^ 32` maps are added, the map counter is their number. -/
theorem lastMap_toNat (h : w.Built n k) (hk : k < Nat.pow 2 32) : w.lastMap.toNat = k := by
  induction h with
  | empty => rfl
  | @step w n k op _ ih =>
    have hle : op.mapsAdded ≤ 1 := by cases op <;> simp [Op.mapsAdded]
    rw [lastMap_apply, UInt32.toNat_add, ih (by omega)]
    have hsmall : op.mapsAdded.toUInt32.toNat = op.mapsAdded :=
      UInt32.toNat_ofNat_of_lt' (by show op.mapsAdded < 4294967296; omega)
    rw [hsmall]
    exact Nat.mod_eq_of_lt hk

end Built

end World

end ColonyCache
