import ColonyCache.Proofs.Session.Freshness
import ColonyCache.Proofs.Simulation.Run
/-! Every change a step makes before its report keeps the session fresh, for the watermark the
step started from. -/

namespace ColonyCache

namespace Session

theorem mapSummaries_hear (s : Session) (l : Listener) {ev : Event} (hev : ev ≠ .tickBoundary) :
    (s.hear l ev).mapSummaries = s.mapSummaries := by
  unfold hear
  split <;> first | rfl | exact absurd rfl hev

theorem mapSummaries_notify (s : Session) (ev : Event) (hev : ev ≠ .tickBoundary) :
    (s.notify ev).mapSummaries = s.mapSummaries := by
  unfold notify EventBus.deliver
  generalize s.bus.listenersOf ev.kind = ls
  induction ls generalizing s with
  | nil => rfl
  | cons l ls ih => rw [List.foldl_cons, ih, mapSummaries_hear s l hev]

end Session

namespace Simulation

open World

/-- A world that keeps its records, `room` ids left, and a session fresh up to `L`. -/
structure Sound (L : Nat) (sim : Simulation) (room : Nat) : Prop where
  records : sim.world.Records
  fresh : sim.session.Fresh L sim.world
  room : sim.world.lastEntity.toNat + room < Nat.pow 2 32

variable {L room : Nat}

theorem Sound.mono {sim : Simulation} (h : Sound L sim room) {room' : Nat} (hr : room' ≤ room) :
    Sound L sim room' :=
  ⟨h.records, h.fresh, Nat.lt_of_le_of_lt (Nat.add_le_add_left hr _) h.room⟩

theorem Sound.apply {sim : Simulation} (h : Sound L sim room) (op : World.Op) (hop : op.Spares L)
    {room' : Nat} (hroom : room' + sim.world.issued op ≤ room) :
    Sound L { sim with world := sim.world.apply op } room' := by
  have hfit : sim.world.lastEntity.toNat + sim.world.issued op < Nat.pow 2 32 := by
    have := h.room
    omega
  refine ⟨h.records.apply op hfit, h.fresh.apply h.records op hop hfit, ?_⟩
  show (sim.world.apply op).lastEntity.toNat + room' < _
  rw [lastEntity_toNat_apply _ op hfit]
  have := h.room
  omega

theorem Sound.foldl_world {α : Type} {sim : Simulation} (h : Sound L sim room)
    (f : World → α → World) (xs : List α)
    (hf : ∀ x ∈ xs, ∃ op : World.Op, (∀ w, f w x = w.apply op) ∧ op.Spares L ∧
      ∀ w : World, w.issued op = 0) :
    Sound L { sim with world := xs.foldl f sim.world } room := by
  induction xs generalizing sim with
  | nil => exact h
  | cons x xs ih =>
    obtain ⟨op, hfx, hop, h0⟩ := hf x List.mem_cons_self
    have h' : Sound L { sim with world := f sim.world x } room := by
      rw [hfx]
      exact h.apply op hop (Nat.le_of_eq (by rw [h0, Nat.add_zero]))
    exact ih h' fun y hy => hf y (List.mem_cons_of_mem x hy)

/-- A change that hands out at most `used` ids, leaves the tick's map summaries, and keeps a sound
simulation sound for the same watermark. -/
structure Renews (sim sim' : Simulation) (used : Nat) : Prop where
  summaries : sim'.session.mapSummaries = sim.session.mapSummaries
  sound : ∀ L room, Sound L sim (room + used) → Sound L sim' room

namespace Renews

theorem refl (sim : Simulation) : Renews sim sim 0 := ⟨rfl, fun _ _ h => h⟩

theorem trans {sim₁ sim₂ sim₃ : Simulation} {a b : Nat} (h₁ : Renews sim₁ sim₂ a)
    (h₂ : Renews sim₂ sim₃ b) : Renews sim₁ sim₃ (a + b) where
  summaries := h₂.summaries.trans h₁.summaries
  sound L room h := h₂.sound L room (h₁.sound L (room + b) (by rwa [Nat.add_assoc, Nat.add_comm b]))

theorem mono {sim sim' : Simulation} {a b : Nat} (h : Renews sim sim' a) (hab : a ≤ b) :
    Renews sim sim' b :=
  ⟨h.summaries, fun L room hs => h.sound L room (hs.mono (Nat.add_le_add_left hab room))⟩

theorem then0 {sim₁ sim₂ sim₃ : Simulation} {a : Nat} (h₁ : Renews sim₁ sim₂ a)
    (h₂ : Renews sim₂ sim₃ 0) : Renews sim₁ sim₃ a := h₁.trans h₂

theorem after0 {sim₁ sim₂ sim₃ : Simulation} {a : Nat} (h₁ : Renews sim₁ sim₂ 0)
    (h₂ : Renews sim₂ sim₃ a) : Renews sim₁ sim₃ a := by
  simpa using h₁.trans h₂

theorem ite {sim sim' : Simulation} {c : Prop} [Decidable c] {a : Nat} (h : Renews sim sim' a) :
    Renews sim (if c then sim' else sim) a := by
  split
  · exact h
  · exact (refl sim).mono (Nat.zero_le a)

theorem thenIte {sim mid sim' : Simulation} {c : Prop} [Decidable c] {a : Nat}
    (h : Renews sim mid a) (hf : Renews mid sim' 0) : Renews sim (if c then sim' else mid) a :=
  h.then0 (ite hf)

theorem foldl {β α : Type} (π : β → Simulation) (f : β → α → β) {k : Nat}
    (hf : ∀ b a, Renews (π b) (π (f b a)) k) (xs : List α) (b : β) :
    Renews (π b) (π (xs.foldl f b)) (k * xs.length) := by
  induction xs generalizing b with
  | nil => exact refl _
  | cons a xs ih =>
    rw [List.foldl_cons, List.length_cons, Nat.mul_succ, Nat.add_comm]
    exact (hf b a).trans (ih (f b a))

end Renews

/-! ## The changes a step is made of -/

theorem renews_apply (sim : Simulation) (op : World.Op)
    (hop : ∀ L, L ≤ sim.world.lastEntity.toNat → op.Spares L) :
    Renews sim { sim with world := sim.world.apply op } (sim.world.issued op) :=
  ⟨rfl, fun L _ h => h.apply op (hop L h.fresh.le) (Nat.le_refl _)⟩

theorem renews_apply_eq (sim : Simulation) (op : World.Op)
    (hop : ∀ L, L ≤ sim.world.lastEntity.toNat → op.Spares L) {w : World}
    (hw : sim.world.apply op = w) : Renews sim { sim with world := w } (sim.world.issued op) := by
  rw [← hw]
  exact renews_apply sim op hop

theorem renews_tell (sim : Simulation) {f : Session → Session}
    (hf : ∀ L, sim.session.Fresh L sim.world → (f sim.session).Fresh L sim.world)
    (hs : (f sim.session).mapSummaries = sim.session.mapSummaries) : Renews sim (sim.tell f) 0 :=
  ⟨hs, fun L _ h => ⟨h.records, hf L h.fresh, h.room⟩⟩

theorem renews_file (sim : Simulation) {f : Session → Session}
    (hm : (f sim.session).memory = sim.session.memory)
    (hs : (f sim.session).mapSummaries = sim.session.mapSummaries) : Renews sim (sim.tell f) 0 :=
  renews_tell sim (fun _ h => h.of_memory hm) hs

theorem renews_notify (sim : Simulation) {ev : Event} (hev : ev ≠ .tickBoundary) :
    Renews sim (sim.tell fun s => s.notify ev) 0 :=
  renews_tell sim (fun _ h => h.notify ev) (Session.mapSummaries_notify _ ev hev)

theorem renews_tell_foldl {α : Type} (sim : Simulation) (g : Session → α → Session)
    (xs : List α) (hg : ∀ L s a, s.Fresh L sim.world → (g s a).Fresh L sim.world)
    (hs : ∀ s a, (g s a).mapSummaries = s.mapSummaries) :
    Renews sim (sim.tell fun s => xs.foldl g s) 0 := by
  -- both facts travel along the fold from any session
  have key : ∀ (ys : List α) (s : Session), (ys.foldl g s).mapSummaries = s.mapSummaries ∧
      ∀ L, s.Fresh L sim.world → (ys.foldl g s).Fresh L sim.world := by
    intro ys
    induction ys with
    | nil => exact fun s => ⟨rfl, fun _ h => h⟩
    | cons a ys ih =>
      intro s
      obtain ⟨h₁, h₂⟩ := ih (g s a)
      exact ⟨h₁.trans (hs s a), fun L h => h₂ L (hg L s a h)⟩
  exact renews_tell sim (key xs sim.session).2 (key xs sim.session).1

theorem renews_maps (sim : Simulation) (maps : List MapId) : Renews sim { sim with maps } 0 :=
  ⟨rfl, fun _ _ h => ⟨h.records, h.fresh, h.room⟩⟩

theorem renews_spawn (sim : Simulation) {m : MapId} {k : ThingKind} {c : Cell} {t : Option Thing}
    {w : World} (hsp : sim.world.spawn m k c = (t, w)) : Renews sim { sim with world := w } 1 :=
  (renews_apply_eq sim (.spawn m k c) (fun _ _ => trivial) (congrArg Prod.snd hsp)).mono
    (issued_le_one _ _)

theorem renews_spawnScattered (sim : Simulation) (m : MapId) (k : ThingKind) (seed : UInt64) :
    Renews sim (sim.spawnScattered m k seed).2 1 := by
  rw [spawnScattered_eq]
  exact renews_spawn sim rfl

theorem renews_despawn (sim : Simulation) (e : EntityId) (ev : Event)
    (hev : ev ≠ .tickBoundary) :
    Renews sim ({ sim with world := (sim.world.despawn e).2 }.tell fun s => s.notify ev) 0 :=
  (renews_apply sim (.despawn e) fun _ _ => trivial).then0 (renews_notify _ hev)

/-! ## The churn rules -/

theorem renews_carryItem (sim : Simulation) (items : List Thing) (seed : UInt64) :
    Renews sim (sim.carryItem items seed) 0 := by
  unfold carryItem
  split
  · exact Renews.refl sim
  · next t _ =>
    rcases hmv : sim.world.moveTo t.id (scatterCell (seed ^^^ 1)) with ⟨moved, w⟩
    exact (renews_apply_eq sim (.moveTo t.id (scatterCell (seed ^^^ 1))) (fun _ _ => trivial)
      (congrArg Prod.snd hmv)).thenIte (renews_file _ rfl rfl)

theorem renews_makeItem (sim : Simulation) (m : MapId) (seed : UInt64) :
    Renews sim (sim.makeItem m seed) 1 := by
  unfold makeItem
  rw [spawnScattered_eq]
  rcases hsp : sim.world.spawn m .item (scatterCell (seed ^^^ 2)) with ⟨t, w⟩
  have r := renews_spawn sim hsp
  cases t with
  | none => exact r
  | some item =>
    -- the quality is set on the made item and the session files it for hauling
    exact r.then0 ((renews_apply _ (.setComponent item.id
      (.quality ((choose (seed ^^^ 9) qualities).getD .poor))) fun _ _ => trivial).then0
        (renews_file _ rfl rfl))

theorem renews_storeItem (sim : Simulation) (items : List Thing) :
    Renews sim (sim.storeItem items) 0 := by
  unfold storeItem
  split
  · next t _ =>
    exact Renews.ite (renews_despawn sim t.id (.spatialItemRemoved t.id) nofun)
  · exact Renews.refl sim

theorem renews_cutPlant (sim : Simulation) (m : MapId) (plants : List Thing) (seed : UInt64) :
    Renews sim (sim.cutPlant m plants seed) 1 := by
  unfold cutPlant
  split
  · next cut _ =>
    split
    · dsimp only
      -- the plant leaves the harvest and the world, then a sprout takes the next id
      set sim₁ := { (sim.tell fun s => s.completeHarvest cut.id) with
        world := ((sim.tell fun s => s.completeHarvest cut.id).world.despawn cut.id).2 }.tell
          fun s => s.spatialItemRemoved cut.id
      have r₁ : Renews sim sim₁ 0 :=
        (renews_file sim rfl rfl).then0 (renews_despawn _ cut.id (.spatialItemRemoved cut.id) nofun)
      rw [spawnScattered_eq]
      rcases hsp : sim₁.world.spawn m (.plant ((choose (seed ^^^ 4) species).getD .rice))
        (scatterCell (seed ^^^ 5)) with ⟨t, w⟩
      have r₂ := renews_spawn sim₁ hsp
      cases t with
      | none => exact r₁.after0 r₂
      | some sprout => exact r₁.after0 (r₂.then0 (renews_file _ rfl rfl))
    · exact (Renews.refl sim).mono (Nat.zero_le 1)
  · exact (Renews.refl sim).mono (Nat.zero_le 1)

theorem renews_refuelTurrets (sim : Simulation) (m : MapId) (things : List Thing) :
    Renews sim (sim.refuelTurrets m things) 0 := by
  unfold refuelTurrets
  split
  · exact renews_tell_foldl sim _ _ (fun _ _ _ h => h.of_memory rfl) fun _ _ => rfl
  · exact renews_tell_foldl sim _ _ (fun _ _ _ h => h.of_memory rfl) fun _ _ => rfl
  · exact Renews.refl sim

theorem renews_tendAnimals (sim : Simulation) (m : MapId) (things : List Thing) :
    Renews sim (sim.tendAnimals m things) 0 := by
  unfold tendAnimals
  split
  · exact renews_tell_foldl sim _ _ (fun _ _ _ h => h.of_memory rfl) fun _ _ => rfl
  · exact renews_tell_foldl sim _ _ (fun _ _ _ h => h.of_memory rfl) fun _ _ => rfl
  · exact Renews.refl sim

/-- Breaking, mending and switching a building keep its slots valid; the session is not told. -/
theorem renews_switchBuilding (sim : Simulation) (things : List Thing) (seed : UInt64) :
    Renews sim (sim.switchBuilding things seed) 0 := by
  unfold switchBuilding
  split
  · next b _ =>
    refine Renews.ite ((renews_apply sim (.setComponent b.id (.breakdown (sim.tick % 18 == 0)))
      fun _ _ => trivial).then0 ?_)
    exact renews_apply _ (.setComponent b.id (.powerSwitch (mix (seed ^^^ 11) % 4 != 0)))
      fun _ _ => trivial
  · exact Renews.refl sim

theorem renews_infectColonist (sim : Simulation) (colonists : List Thing) (seed : UInt64) :
    Renews sim (sim.infectColonist colonists seed) 0 := by
  unfold infectColonist
  split
  · next c _ =>
    exact Renews.ite (renews_apply sim (.infect c.id ((choose (seed ^^^ 13) Ailment.all).getD .flu))
      fun _ _ => trivial)
  · exact Renews.refl sim

theorem renews_hurtColonist (sim : Simulation) (colonists : List Thing) (seed : UInt64) :
    Renews sim (sim.hurtColonist colonists seed) 1 := by
  unfold hurtColonist
  split
  · next c _ =>
    exact Renews.ite ((renews_apply sim (.addInjury c.id (severityOf (seed ^^^ 7)))
      fun _ _ => trivial).mono (issued_le_one _ _))
  · exact (Renews.refl sim).mono (Nat.zero_le 1)

theorem renews_healColonist (sim : Simulation) (colonists : List Thing) :
    Renews sim (sim.healColonist colonists) 0 := by
  unfold healColonist
  split
  · split
    · split
      · next i _ =>
        exact (renews_apply sim (.heal i.id) fun _ _ => trivial).then0
          (renews_tell _ (fun _ h => h.removeCachedAge i.id) rfl)
      · exact Renews.refl sim
    · exact Renews.refl sim
  · exact Renews.refl sim

theorem renews_replaceColonist (sim : Simulation) (m : MapId) (leader last : Thing)
    (seed : UInt64) : Renews sim (sim.replaceColonist m leader last seed) 1 := by
  unfold replaceColonist
  dsimp only
  generalize hs₁ : ({ sim with world := (sim.world.despawn last.id).2 }.tell fun s =>
    s.entityRemoved last.id) = sim₁
  have r₀ : Renews sim sim₁ 0 := by
    rw [← hs₁]
    exact renews_despawn sim last.id (.entityRemoved last.id) nofun
  refine r₀.after0 ?_
  rw [spawnScattered_eq]
  rcases hsp : sim₁.world.spawn m .colonist (scatterCell (seed ^^^ 8)) with ⟨t, w⟩
  have r := renews_spawn sim₁ hsp
  cases t with
  | none => exact r
  | some n =>
    have hn := spawn_fst (show (sim₁.world.spawn m .colonist _).1 = some n by rw [hsp])
    refine ⟨r.summaries, fun L room h => ?_⟩
    have h₂ := r.sound L room h
    -- the newcomer's id is one past the counter the watermark is below
    have hnew : L < n.id.val.toNat := by
      have hle := h.fresh.le
      have hroom := h.room
      rw [hn]
      show L < (sim₁.world.lastEntity + 1).toNat
      rw [toNat_succ_of_room (by omega)]
      omega
    -- so the friendship spares the caches, and the relations cached between the two are dropped
    have h₃ := h₂.apply (.relate n.id leader.id .friend) (Or.inl hnew) (Nat.le_refl _)
    exact ⟨h₃.records, h₃.fresh.clearBetween n.id leader.id |>.of_memory rfl, h₃.room⟩

theorem renews_endStay (sim : Simulation) (c : Thing) : Renews sim (sim.endStay c) 0 := by
  unfold endStay
  refine Renews.ite ⟨rfl, fun L room h => ⟨h.records.endAffiliation c.id .guest, ?_, h.room⟩⟩
  exact h.fresh.withAffiliations fun e' t' hne => by
    rw [Std.HashMap.getElem?_erase, if_neg fun h => hne (eq_of_beq h).symm]

theorem renews_hire (sim : Simulation) (second leader : Thing) :
    Renews sim ({ sim with world := sim.world.affiliate second.id .mercenary leader.id }.tell
      fun s => { s with affiliations := s.affiliations.removeEntries .mercenary [second.id] }) 0 :=
  ⟨rfl, fun L room h => ⟨h.records.affiliate second.id .mercenary leader.id,
    h.fresh.withAffiliations fun e' t' hne => by
      rw [Std.HashMap.getElem?_insert, if_neg fun h => hne (eq_of_beq h).symm], h.room⟩⟩

theorem renews_shuffleColonists (sim : Simulation) (m : MapId) (colonists : List Thing)
    (seed : UInt64) : Renews sim (sim.shuffleColonists m colonists seed) 1 := by
  unfold shuffleColonists
  split
  · next leader second third rest =>
    dsimp only
    generalize hI : (if sim.tick % 25 == 0 then sim.replaceColonist m leader
      ((leader :: second :: third :: rest).getLast?.getD leader) seed else sim) = sim₁
    have r₁ : Renews sim sim₁ 1 := by
      rw [← hI]
      exact Renews.ite (renews_replaceColonist _ _ _ _ _)
    -- lifting the leader's restrictions drops what the session kept of them
    refine Renews.thenIte (r₁.then0 ?_) ⟨rfl, fun L room h =>
      ⟨h.records.liftWorkRestrictions leader.id, h.fresh.liftWorkRestrictions leader.id, h.room⟩⟩
    split
    · exact (renews_endStay _ leader).trans (renews_endStay _ second)
    · exact renews_hire _ second leader
    · exact Renews.refl _
  · exact (Renews.refl sim).mono (Nat.zero_le 1)

/-- The churn of a map hands out at most four ids: an item, a sprout, an injury, a newcomer. -/
theorem renews_churnMap (sim : Simulation) (m : MapId) (seed : UInt64) :
    Renews sim (sim.churnMap m seed) 4 := by
  unfold churnMap
  dsimp only
  exact (renews_carryItem _ _ _).after0 ((renews_makeItem _ _ _).trans
    ((renews_storeItem _ _).after0 ((renews_cutPlant _ _ _ _).trans
    ((renews_refuelTurrets _ _ _).after0 ((renews_tendAnimals _ _ _).after0
    ((renews_switchBuilding _ _ _).after0 ((renews_infectColonist _ _ _).after0
    ((renews_hurtColonist _ _ _).trans ((renews_healColonist _ _).after0
    (renews_shuffleColonists _ _ _ _))))))))))

theorem renews_churnEach (seed : Simulation → MapId × Nat → UInt64) (xs : List (MapId × Nat))
    (sim : Simulation) :
    Renews sim (xs.foldl (fun sim x => sim.churnMap x.1 (seed sim x)) sim) (4 * xs.length) := by
  induction xs generalizing sim with
  | nil => exact Renews.refl sim
  | cons x xs ih =>
    rw [List.foldl_cons, List.length_cons, Nat.mul_succ, Nat.add_comm]
    exact (renews_churnMap sim x.1 (seed sim x)).trans (ih _)

/-! ## Loading and unloading maps -/

theorem spawnRow_succ (sim : Simulation) (m : MapId) (n : Nat) (kindAt : Nat → ThingKind)
    (base : UInt64) :
    sim.spawnRow m (n + 1) kindAt base =
      ((sim.spawnRow m n kindAt base).1 ++ ((sim.spawnRow m n kindAt base).2.spawnScattered m
          (kindAt n) (base + n.toUInt64)).1.toList,
        ((sim.spawnRow m n kindAt base).2.spawnScattered m (kindAt n) (base + n.toUInt64)).2) := by
  unfold spawnRow
  rw [List.range_succ, List.foldl_append, List.foldl_cons, List.foldl_nil]

theorem renews_spawnRow (sim : Simulation) (m : MapId) (count : Nat) (kindAt : Nat → ThingKind)
    (base : UInt64) : Renews sim (sim.spawnRow m count kindAt base).2 count := by
  induction count with
  | zero => exact Renews.refl sim
  | succ n ih =>
    rw [spawnRow_succ]
    exact ih.trans (renews_spawnScattered _ m (kindAt n) _)

/-- A row's things take ids past the counter it started from, one at most per thing. -/
theorem spawnRow_above (sim : Simulation) (m : MapId) (kindAt : Nat → ThingKind) (base : UInt64)
    (count : Nat) (hroom : sim.world.lastEntity.toNat + count < Nat.pow 2 32) :
    sim.world.lastEntity.toNat ≤ (sim.spawnRow m count kindAt base).2.world.lastEntity.toNat ∧
      (sim.spawnRow m count kindAt base).2.world.lastEntity.toNat ≤
        sim.world.lastEntity.toNat + count ∧
      ∀ t ∈ (sim.spawnRow m count kindAt base).1, sim.world.lastEntity.toNat < t.id.val.toNat := by
  induction count with
  | zero => exact ⟨Nat.le_refl _, Nat.le_refl _, fun t ht => absurd ht List.not_mem_nil⟩
  | succ n ih =>
    obtain ⟨h₁, h₂, h₃⟩ := ih (by omega)
    rw [spawnRow_succ, spawnScattered_eq]
    generalize sim.spawnRow m n kindAt base = acc at h₁ h₂ h₃
    obtain ⟨ts, s⟩ := acc
    dsimp only at h₁ h₂ h₃ ⊢
    have hfit : s.world.lastEntity.toNat + s.world.issued
        (.spawn m (kindAt n) (scatterCell (base + n.toUInt64))) < Nat.pow 2 32 := by
      have := issued_le_one s.world (.spawn m (kindAt n) (scatterCell (base + n.toUInt64)))
      omega
    have hlast : (s.world.spawn m (kindAt n) (scatterCell (base + n.toUInt64))).2.lastEntity.toNat =
        s.world.lastEntity.toNat + s.world.issued
          (.spawn m (kindAt n) (scatterCell (base + n.toUInt64))) :=
      lastEntity_toNat_apply s.world _ hfit
    have hle := issued_le_one s.world (.spawn m (kindAt n) (scatterCell (base + n.toUInt64)))
    refine ⟨?_, ?_, fun t ht => ?_⟩
    · rw [hlast]
      omega
    · rw [hlast]
      omega
    · rcases List.mem_append.mp ht with ht | ht
      · exact h₃ t ht
      · -- the new thing takes the id after the counter
        rw [spawn_fst (Option.mem_toList.mp ht)]
        show sim.world.lastEntity.toNat < (s.world.lastEntity + 1).toNat
        rw [toNat_succ_of_room (by omega)]
        omega

theorem mem_of_mem_every {α : Type} {xs : List α} {start step : Nat} {x : α}
    (h : x ∈ every xs start step) : x ∈ xs := by
  obtain ⟨p, hp, rfl⟩ := List.mem_map.mp h
  exact List.fst_mem_of_mem_zipIdx (List.mem_filter.mp hp).1

theorem Sound.settle {sim : Simulation} (h : Sound L sim room) {colonists : List Thing}
    (hL : ∀ c ∈ colonists, L < c.id.val.toNat) : Sound L (sim.settle colonists) room := by
  unfold Simulation.settle
  extract_lets w₁ w₂ w₃ w₄
  -- each tie, restriction and standing set here is about a colonist no cache may remember yet
  have h₁ : Sound L { sim with world := w₁ } room :=
    h.foldl_world _ _ fun p hp => ⟨.relate p.1.id p.2.id .sibling, fun _ => rfl,
      Or.inl (hL _ (List.of_mem_zip hp).1), fun _ => rfl⟩
  have h₂ : Sound L { sim with world := w₂ } room := by
    simp only [w₂]
    split
    · next a b _ =>
      exact h₁.apply (.relate a.id b.id .spouse) (Or.inl (hL a List.mem_cons_self)) (Nat.le_refl _)
    · exact h₁
  have h₃ : Sound L { sim with world := w₃ } room :=
    h₂.foldl_world _ _ fun c hc => ⟨.restrictWork c.id [.hauling], fun _ => rfl,
      hL c (mem_of_mem_every hc), fun _ => rfl⟩
  have h₄ : Sound L { sim with world := w₄ } room :=
    h₃.foldl_world _ _ fun c hc => ⟨.restrictArea c.id (some (homeArea c.cell)), fun _ => rfl,
      hL c (mem_of_mem_every hc), fun _ => rfl⟩
  split
  · next host guest _ hg =>
    have h₅ := h₄.apply (.affiliate guest.id .guest host.id) (hL guest (List.mem_of_getLast? hg))
      (Nat.le_refl _)
    exact ⟨h₅.records, h₅.fresh.of_memory rfl, h₅.room⟩
  · exact h₄

theorem mapSummaries_settle (sim : Simulation) (colonists : List Thing) :
    (sim.settle colonists).session.mapSummaries = sim.session.mapSummaries := by
  unfold settle
  rcases colonists.head? with _ | host <;> rcases colonists.getLast? with _ | guest <;> rfl

theorem renews_warm (sim : Simulation) (t : Thing) : Renews sim (sim.warm t) 0 := by
  unfold warm
  -- plants, buildings and animals are filed; items and colonists are not
  split <;> first | exact renews_file sim rfl rfl | exact Renews.refl sim

theorem renews_fileMap (sim : Simulation) {f : Session → Session}
    (hm : (f sim.session).memory = sim.session.memory)
    (hs : (f sim.session).mapSummaries = sim.session.mapSummaries) (ts : List Thing) :
    Renews sim (ts.foldl warm (sim.tell f)) 0 := by
  have r := Renews.foldl id warm (fun b t => renews_warm b t) ts (sim.tell f)
  rw [Nat.zero_mul] at r
  exact (renews_file sim hm hs).after0 r

theorem renews_loadMap (sim : Simulation) : Renews sim sim.loadMap.2 56 := by
  unfold loadMap
  rcases ha : sim.world.addMap mapSize mapSize regionSize with ⟨m, w₀⟩
  have r₀ : Renews sim { sim with world := w₀ } 0 :=
    renews_apply_eq sim (.addMap mapSize mapSize regionSize) (fun _ _ => trivial)
      (congrArg Prod.snd ha)
  dsimp only
  set sim₀ : Simulation := { sim with world := w₀ }
  have above := spawnRow_above sim₀ m (fun _ => .colonist) (m.val.toUInt64 <<< 32) 6
  have r₁ := renews_spawnRow sim₀ m 6 (fun _ => .colonist) (m.val.toUInt64 <<< 32)
  rcases h₁ : sim₀.spawnRow m 6 (fun _ => .colonist) (m.val.toUInt64 <<< 32) with
    ⟨colonists, sim₁⟩
  rw [h₁] at above r₁
  have r₂ := renews_spawnRow sim₁ m 6 (fun n => .animal (if n % 2 == 0 then .milk else .wool))
    (m.val.toUInt64 <<< 32 + 100)
  rcases h₂ : sim₁.spawnRow m 6 (fun n => .animal (if n % 2 == 0 then .milk else .wool))
    (m.val.toUInt64 <<< 32 + 100) with ⟨_, sim₂⟩
  rw [h₂] at r₂
  have r₃ := renews_spawnRow sim₂ m 16 (fun n => .plant (species.getD (n % 4) .rice))
    (m.val.toUInt64 <<< 32 + 200)
  rcases h₃ : sim₂.spawnRow m 16 (fun n => .plant (species.getD (n % 4) .rice))
    (m.val.toUInt64 <<< 32 + 200) with ⟨_, sim₃⟩
  rw [h₃] at r₃
  have r₄ := renews_spawnRow sim₃ m 24 (fun _ => .item) (m.val.toUInt64 <<< 32 + 300)
  rcases h₄ : sim₃.spawnRow m 24 (fun _ => .item) (m.val.toUInt64 <<< 32 + 300) with ⟨_, sim₄⟩
  rw [h₄] at r₄
  dsimp only
  generalize h₅ : (List.range 2).foldl _ sim₄ = sim₅
  have r₅ : Renews sim₄ sim₅ 4 := by
    rw [← h₅]
    exact Renews.foldl id _ (fun b n => (renews_spawnScattered b m .turret _).trans
      (renews_spawnScattered _ m .generator _)) (List.range 2) sim₄
  have ra : Renews sim sim₅ 56 := r₀.after0 ((((r₁.trans r₂).trans r₃).trans r₄).trans r₅)
  -- after settling: regions, then the caches filed and warmed from the new map
  have rb : ∀ sim₆ : Simulation, Renews sim₆ (((sim₆.world.thingsOn m).foldl warm
      (({ sim₆ with world := sim₆.world.setRegionsEnabled m true } : Simulation).tell fun s =>
        (s.addAllHaulables (sim₆.world.setRegionsEnabled m true) m).2))) 0 := by
    intro sim₆
    exact (renews_apply sim₆ (.setRegionsEnabled m true) fun _ _ => trivial).after0
      (renews_fileMap _ (by rfl) (by rfl) _)
  refine ⟨(rb _).summaries.trans ((mapSummaries_settle sim₅ colonists).trans ra.summaries),
    fun L room h => (rb _).sound L room ?_⟩
  -- the colonists are past the counter before the load, which is past the watermark
  have h₀ := r₀.sound L (room + 56) (by simpa using h)
  have hids := (above (by have := h₀.room; omega)).2.2
  exact (ra.sound L room h).settle fun c hc => Nat.lt_of_le_of_lt h₀.fresh.le (hids c hc)

theorem renews_cycleMap (sim : Simulation) : Renews sim sim.cycleMap 56 := by
  unfold cycleMap
  split
  · exact (Renews.refl sim).mono (Nat.zero_le 56)
  · next old _ =>
    dsimp only [tell]
    rcases hr : sim.world.removeMap old with ⟨gone, w⟩
    dsimp only
    generalize hl : Simulation.loadMap _ = r
    obtain ⟨m, sim'⟩ := r
    -- what the load starts from: the old map's scopes dropped, the map removed and its things
    -- forgotten
    set s₃ := gone.foldl (fun s (t : Thing) => (s.spatialItemRemoved t.id).entityRemoved t.id)
      (sim.session.mapRemoved old (sim.world.regionsOf old)).2
    set sim₃ : Simulation := { world := w, maps := sim.maps.dropLast, tick := sim.tick, session := s₃ }
    have ru : Renews sim sim₃ 0 := by
      have rm := renews_apply_eq ({ sim with maps := sim.maps.dropLast }.tell fun s =>
        (s.mapRemoved old (sim.world.regionsOf old)).2) (.removeMap old) (fun _ _ => trivial)
        (congrArg Prod.snd hr)
      refine (renews_maps sim _).after0 ((renews_file _ (by rfl) (by rfl)).after0 (rm.after0 ?_))
      exact renews_tell_foldl _ _ gone
        (fun _ _ t h => (h.spatialItemRemoved t.id).entityRemoved t.id)
        fun _ t => (Session.mapSummaries_notify _ (.entityRemoved t.id) nofun).trans
          (Session.mapSummaries_notify _ (.spatialItemRemoved t.id) nofun)
    have rl := renews_loadMap sim₃
    rw [hl] at rl
    exact (ru.after0 rl).then0 (renews_maps _ _)

theorem renews_populate (sim : Simulation) : Renews sim sim.populate 112 := by
  unfold populate
  rw [show List.range mapCount = [0, 1] from rfl, List.foldl_cons, List.foldl_cons,
    List.foldl_nil]
  dsimp only
  -- name the two loads, so that nothing asks Lean to run them
  generalize hl₁ : sim.loadMap = r₁
  obtain ⟨m₁, sim₁⟩ := r₁
  dsimp only
  generalize hl₂ : Simulation.loadMap _ = r₂
  obtain ⟨m₂, sim₂⟩ := r₂
  have r₁ := renews_loadMap sim
  rw [hl₁] at r₁
  have r₂ := renews_loadMap { sim₁ with maps := sim₁.maps ++ [m₁] }
  rw [hl₂] at r₂
  exact ((r₁.then0 (renews_maps _ _)).trans r₂).then0 (renews_maps _ _)

end Simulation

end ColonyCache
