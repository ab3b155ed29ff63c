import ElastioSnap.Incremental.DormantInc

namespace ElastioSnap.Incremental.CleanHeader

open Lib.Runs Lib.Outcome Lib.Flags Snapshot.CowThread Marking
open Snapshot.Tracking (Device)
open Series (awake_created)
open Cow.Manager (World cowClean)
open Cow.Section (indexAt diskWord Blank)
open Cow.Header (diskHeader)
open Cow.Lifecycle (cowInit cowFreeMembers cowSyncAndClose cowReopen)
open Cow.Reopen (Live Steady)
open Cow.Sealing (Sealed)
open Cow.Protocol (Unclean stopAt)
open Cow.OnDisk
open Snapshot.Queue (bioQueueDequeueDelayRead clones)
open Snapshot.Machine (step_of disk after)
open Snapshot.Filing (NoReuse)
open Snapshot.Drain (InDevice)
open Snapshot.Storage (Backed Sector OfSnap Unstored Serves around blockBytes handlePages pageOf zeroes toWrite
  toWrite_after written step_unstored serves_created cowWriteCurrent_serves)
open Tracker (Shut Advances leaves)
open Dormancy DormantSnap DormantInc

variable {d : Device} {b₀ : Nat → Sector} {v w w' : World} {resident : Bool} {inode n : Nat} {phase : Phase}
  {x x' : Tracer} {s s' s₀ : State}

/-- The tracer with what it knows of the blocks, as long as it is traced. -/
def Goes (d : Device) (b₀ : Nat → Sector) (resident : Bool) (inode : Nat) : Tracer → Prop
  | .snap s => Saves d b₀ s
  | .inc m => Follows d resident inode m

def Kept (d : Device) (b₀ : Nat → Sector) (resident : Bool) (inode : Nat) : Tracer → Prop
  | .snap s => Keeps d b₀ s
  | .inc m => Follows d resident inode m

/-- The thread has nothing to do. -/
def Idle : Tracer → Prop
  | .snap s => Rests s.snap
  | .inc m => m.state.dev.ssets = []

/-- As long as the file is open it says so. Once it was closed the tracer knows what the manager knew, which is on
disk. -/
def Invariant (d : Device) (b₀ : Nat → Sector) (resident : Bool) (inode : Nat) (s : State) : Prop :=
  match s.phase with
  | .active => Goes d b₀ resident inode s.tracer ∧ Unclean s.tracer.world.file
  | .stopped => Goes d b₀ resident inode s.tracer ∧ Unclean s.tracer.world.file ∧ Idle s.tracer
  | .dormant | .flushing => ∃ v, Shut v s.tracer.world ∧ Shows v s.tracer.world ∧
      Goes d b₀ resident inode (s.tracer.put v) ∧ Idle s.tracer
  | .gone => ∃ v, Live v ∧ Shows v s.tracer.world ∧ Kept d b₀ resident inode (s.tracer.put v) ∧ Idle s.tracer

/-- The file says that it was not closed, or has all that the tracer knows. -/
def Secure (d : Device) (b₀ : Nat → Sector) (resident : Bool) (inode : Nat) (x : Tracer) (w : World) : Prop :=
  Unclean w.file ∨ ∃ v, Live v ∧ Shows v w ∧ Kept d b₀ resident inode (x.put v) ∧ Idle x

theorem Goes.kept (h : Goes d b₀ resident inode x) : Kept d b₀ resident inode x := by
  cases x with
  | snap s => exact Saves.keeps h
  | inc m => exact h

theorem Goes.ready (h : Goes d b₀ resident inode x) : Live x.world ∧ Blank x.world := by
  cases x with
  | snap s =>
      obtain ⟨-, w₀, t, hheld, -⟩ := h
      exact ⟨hheld.same.serves.store.live, hheld.same.serves.blank⟩
  | inc m =>
      have hready := h.tracking.ready
      rw [h.opened] at hready
      exact hready

theorem Invariant.secure (h : Invariant d b₀ resident inode s) : Secure d b₀ resident inode s.tracer s.tracer.world := by
  obtain ⟨x, phase⟩ := s
  cases phase with
  | active => exact .inl h.2
  | stopped => exact .inl h.2.1
  | dormant | flushing =>
      obtain ⟨v, hshut, hshows, hgoes, hidle⟩ := h
      exact .inr ⟨v, hshut.live, hshows, hgoes.kept, hidle⟩
  | gone => exact .inr h

theorem Secure.body (h : Secure d b₀ resident inode x w) (hfile : w'.file = w.file) : Secure d b₀ resident inode x w' :=
  h.imp (fun hu => by rw [hfile]; exact hu) fun ⟨v, hl, hshows, hrest⟩ =>
    ⟨v, hl, hshows.body hl (sameBody_of_file hfile), hrest⟩

/-- What is known is on disk, with the data where the entries say. -/
theorem Secure.seals (h : Secure d b₀ resident inode x w) (hf : x.fail = false) :
    Seals d b₀ resident inode (x.put w) := by
  rcases h with hu | ⟨v, hl, hshows, hkept, hidle⟩
  · intro hclean
    have hworld : (x.put w).world = w := by cases x <;> rfl
    rw [hworld] at hclean
    exact absurd (hclean.symm.trans hu) (by decide)
  · rintro - b hwrote
    cases x with
    | snap s =>
        obtain ⟨i, y, hi, hy, hov⟩ := hwrote
        obtain ⟨hlt, held, hholds, horig⟩ := hkept.wrote hidle hf hi hy hov
        have hne := hholds.ne_zero hl.wf
        have hword := hshows.index b hlt hne
        refine ⟨fun hz => hne (hword.symm.trans hz), fun hown p hp => ?_⟩
        have habove := hholds.above
        have hbelow := hholds.below
        have hin : p / 512 < d.sectorsPerBlock := by
          rw [hkept.1.eight]
          omega
        change w.file.bytes ((diskWord w b).toNat * 4096 + p) = _
        rw [hword]
        change v.cm.dataOffset ≤ (indexAt v b).toNat * 4096 at habove
        change (indexAt v b).toNat < v.cm.currPos.toNat at hbelow
        rw [hshows.data _ (habove.trans (Nat.le_add_right _ _)) (by omega)]
        refine (hholds.data p hp).trans ?_
        rw [blockBytes, blockBytes, horig hown _ hin]
    | inc m =>
        obtain ⟨bio, hbio, y, rfl, hy⟩ := hwrote
        obtain ⟨hlt, hrecorded⟩ := hkept.submitted bio hbio y hy
        have hne := hrecorded.resolve_right (by
          rintro ⟨sset, hs, -⟩
          change sset ∈ m.state.dev.ssets at hs
          rw [hidle] at hs
          cases hs)
        have hword := hshows.index _ hlt hne
        exact ⟨fun hz => hne (hword.symm.trans hz), trivial⟩

/-- A step without a thread that does anything: the COW file stays as it is. -/
structure Beside (d : Device) (b₀ : Nat → Sector) (resident : Bool) (inode : Nat) (x x' : Tracer) : Prop where
  world : x'.world = x.world
  idle : Idle x'
  goes : ∀ v, Goes d b₀ resident inode (x.put v) → Goes d b₀ resident inode (x'.put v)
  kept : ∀ v, Kept d b₀ resident inode (x.put v) → Kept d b₀ resident inode (x'.put v)

theorem Invariant.idle (h : Invariant d b₀ resident inode s) (hph : s.phase ≠ .active) : Idle s.tracer := by
  obtain ⟨x, phase⟩ := s
  cases phase with
  | active => exact absurd rfl hph
  | stopped => exact h.2.2
  | dormant | flushing => exact h.choose_spec.2.2.2
  | gone => exact h.choose_spec.2.2.2

theorem Invariant.beside (h : Invariant d b₀ resident inode s) (hph : s.phase ≠ .active)
    (hb : Beside d b₀ resident inode s.tracer x') : Invariant d b₀ resident inode ⟨x', s.phase⟩ := by
  obtain ⟨x, phase⟩ := s
  have hworld : x'.world = x.world := hb.world
  cases phase with
  | active => exact absurd rfl hph
  | stopped =>
      obtain ⟨hgoes, hu, -⟩ := h
      refine ⟨?_, by rw [hworld]; exact hu, hb.idle⟩
      have hput := hb.goes x.world (by rw [put_world]; exact hgoes)
      rw [← hworld, put_world] at hput
      exact hput
  | dormant | flushing =>
      obtain ⟨v, hshut, hshows, hgoes, -⟩ := h
      exact ⟨v, by rw [hworld]; exact hshut, by rw [hworld]; exact hshows, hb.goes v hgoes, hb.idle⟩
  | gone =>
      obtain ⟨v, hl, hshows, hkept, -⟩ := h
      exact ⟨v, hl, by rw [hworld]; exact hshows, hb.kept v hkept, hb.idle⟩

theorem snap_beside {y y' : Backed} {a : Snapshot.Storage.Action} (hr : Rests y.snap)
    (hph : phase ≠ .active) (hq : Quiet phase (.snap a)) (hp : OfSnap (fun s a => InDevice d a ∧ NoReuse s a) y a)
    (hstep : snapStep d phase y a = some y') (hf : y'.snap.fail = false) :
    Beside d b₀ resident inode (.snap y) (.snap y') := by
  unfold snapStep at hstep
  split at hstep
  next ha =>
    have hnf := Snapshot.Storage.intact_back hstep hf
    obtain ⟨m, u, rfl, hun, hu, rfl⟩ := hr.unstored hnf hph ha hstep
    have hrests := (hr.step hph ha hq (step_of hu) hf).1
    have hput : ∀ v, Snapshot.Storage.step d ⟨y.snap, v⟩ (.snap m) = some ⟨u, v⟩ := fun v => step_unstored hun hu
    refine ⟨rfl, hrests, fun v hg => ?_, fun v hk => ?_⟩
    · have hordered : Ordered d ⟨y.snap, v⟩ (.snap m) := by
        cases m with
        | cow act =>
            cases act with
            | dequeue =>
                intro bio rest pre post hdeq
                change bioQueueDequeueDelayRead y.snap.cowBios = _ at hdeq
                rw [hr.1] at hdeq
                cases hdeq
            | _ => trivial
        | _ => trivial
      exact Saves.step (s := ⟨y.snap, v⟩) hg ha hp hordered (hput v) hf
    · exact Keeps.step (s := ⟨y.snap, v⟩) hk hr hph ha hq hp (hput v) hf
  next => cases hstep

theorem inc_beside {m m' : Marker} {a : IncAction} (hnil : m.state.dev.ssets = []) (hph : phase ≠ .active)
    (hq : Quiet phase (.inc a)) (hp : ∀ bio alloc, a = .traceBio bio alloc → Traced d bio.sector bio.data)
    (hf : m.state.dev.fail = false) (hstep : incStep d ⟨resident, some inode⟩ phase m a = some m')
    (hf' : m'.state.dev.fail = false) : Beside d b₀ resident inode (.inc m) (.inc m') := by
  obtain ⟨hworld, hnil', hput⟩ := incStep_unstored hnil hf hph hstep
  have hfollows : ∀ v, Follows d resident inode (m.put v) → Follows d resident inode (m'.put v) :=
    fun v h => h.step hp hf (hput v) hf'
  exact ⟨hworld, hnil' hq, hfollows, hfollows⟩

theorem idle_put : Idle (x.put w) ↔ Idle x := by
  cases x <;> rfl

theorem idle_stopTracing : Idle x.stopTracing ↔ Idle x := by
  cases x <;> rfl

theorem idle_of_finished (h : x.finished = true) : Idle x := by
  cases x with
  | snap s =>
      simp only [Tracer.finished] at h
      split at h
      next hw =>
        rw [Bool.and_eq_true, List.isEmpty_iff] at h
        exact ⟨h.1, .inl hw⟩
      next => cases h
  | inc m => exact List.isEmpty_iff.mp h

/-- A tracer that has not failed has no thread that has seen a failure. -/
theorem Goes.newThread (h : Goes d b₀ resident inode (x.put v)) (hf : x.fail = false) : x.newThread = x := by
  cases x with
  | snap s =>
      obtain ⟨-, w₀, t, hheld, -⟩ := h
      have hsnap : s.snap = around s.snap t := hheld.same.snap
      have hft : t.fail = false := hheld.fail.trans hf
      have hisFailed : s.snap.isFailed = false := by
        rw [hsnap]
        exact (hheld.intact.queued hft).notFailed
      simp only [Tracer.newThread, ← hisFailed]
  | inc m =>
      have hisFailed : m.state.dev.isFailed = false := h.tracking.isFailed
      simp only [Tracer.newThread, ← hisFailed]

theorem Goes.steady (h : Goes d b₀ resident inode (x.put v)) (hs : Steady v w) :
    Goes d b₀ resident inode (x.put w) := by
  cases x with
  | snap s =>
      obtain ⟨hd, w₀, t, hheld, hrest⟩ := h
      have hsame := hheld.same
      exact ⟨hd, w₀, t, ⟨⟨hsame.snap, hsame.work, hsame.reads, hsame.serves.steady hs⟩, hheld.intact, hheld.guarded⟩,
        hrest⟩
  | inc m =>
      have hopened : ¬ m.state.dormant = true := by
        rw [show m.state.dormant = false from h.opened]
        exact Bool.false_ne_true
      have hadv : Advances d (fun _ => False) (m.put v).state { (m.put v).state with world := w } :=
        h.tracking.stays (fun _ => id) hopened (.of_steady hs) hs.index
      exact h.advances hadv h.opened

theorem Goes.stopTracing (h : Goes d b₀ resident inode (x.put v)) (hf : x.fail = false) :
    Kept d b₀ resident inode (x.stopTracing.put v) := by
  cases x with
  | snap s =>
      obtain ⟨hd, w₀, t, hheld, hpoint, -⟩ := h
      obtain ⟨t', ht', hst⟩ := hheld.snap (a := .stopTracing) hd.eight hd.dvd trivial trivial rfl hf
      cases hst
      exact ⟨hd, w₀, _, ht', hpoint.saved⟩
  | inc m => exact h

theorem Invariant.close (h : Invariant d b₀ resident inode ⟨x, .stopped⟩)
    (hf : (tracerActiveToDormant x).tracer.fail = false) :
    Invariant d b₀ resident inode (tracerActiveToDormant x) := by
  obtain ⟨hgoes, hu, hidle⟩ := h
  obtain ⟨hl, hb⟩ := hgoes.ready
  unfold tracerActiveToDormant at hf ⊢
  split
  next w hw =>
    have hshut := wp_ok (Tracker.cowSyncAndClose_shut hl hb) hw
    have hshows := wp_ok (cowSyncAndClose_safe hl hu) hw
    refine ⟨x.world, ?_, ?_, ?_, idle_put.mpr hidle⟩
    · rw [world_put]
      exact hshut
    · rw [world_put]
      exact hshows
    · rw [put_put, put_world]
      exact hgoes
  next w hw =>
    rw [hw] at hf
    rw [fail_setFail] at hf
    cases hf

theorem Invariant.reopen (h : Invariant d b₀ resident inode ⟨x, .dormant⟩)
    (hf : (tracerDormantToActive x).tracer.fail = false) :
    Invariant d b₀ resident inode (tracerDormantToActive x) := by
  obtain ⟨v, hshut, hshows, hgoes, hidle⟩ := h
  unfold tracerDormantToActive at hf ⊢
  split
  next w hw =>
    rw [hw] at hf
    dsimp only at hf
    rw [fail_newThread, fail_put] at hf
    obtain ⟨u, extents, clock, hu, hworld⟩ := hshut.sealed
    change x.world = _ at hworld
    have hspec : wp cowReopen x.world (fun _ w => Steady v w) _ := Cow.Reopen.cowReopen_wp hshut.live hu (by rw [hworld])
    have hs := wp_ok hspec hw
    have hunclean := (wp_ok cowReopen_body hw).2
    have hgoes' := hgoes.steady hs
    have hnew : (x.put w).newThread = x.put w := by
      have hput : Goes d b₀ resident inode ((x.put w).put w) := by
        rw [put_put]
        exact hgoes'
      exact hput.newThread (by rw [fail_put]; exact hf)
    refine ⟨?_, ?_⟩
    · dsimp only
      rw [hnew]
      exact hgoes'
    · dsimp only
      rw [hnew, world_put]
      exact hunclean
  next w hw =>
    rw [hw] at hf
    rw [fail_setFail] at hf
    cases hf

/-- The device gets no thread any more, and what the manager knew is on disk. -/
theorem gone_of_shut (hshut : Shut v x.world) (hshows : Shows v x.world)
    (hgoes : Goes d b₀ resident inode (x.put v)) (hidle : Idle x) (hf : x.fail = false) :
    Invariant d b₀ resident inode ⟨x.stopTracing.put (leaves cowFreeMembers x.world), .gone⟩ := by
  have hfile : (leaves cowFreeMembers x.world).file = x.world.file :=
    Tracker.leaves_of (Cow.Protocol.freeMembers_file x.world)
  refine ⟨v, hshut.live, ?_, ?_, idle_put.mpr (idle_stopTracing.mpr hidle)⟩
  · rw [world_put]
    exact hshows.body hshut.live (sameBody_of_file hfile)
  · rw [put_put]
    exact hgoes.stopTracing hf

theorem Invariant.snap {y y' : Backed} {a : Snapshot.Storage.Action} (h : Invariant d b₀ resident inode ⟨.snap y, phase⟩)
    (hq : Quiet phase (.snap a)) (hp : OfSnap (fun s a => InDevice d a ∧ NoReuse s a) y a) (ho : Ordered d y a)
    (hstep : snapStep d phase y a = some y') (hf : y'.snap.fail = false) :
    Invariant d b₀ resident inode ⟨.snap y', phase⟩ := by
  by_cases hph : phase = .active
  · subst hph
    obtain ⟨hgoes, hu⟩ := h
    unfold snapStep at hstep
    split at hstep
    next ha =>
      have hnf := Snapshot.Storage.intact_back hstep hf
      have hgoes' := Saves.step hgoes ha hp ho hstep hf
      obtain ⟨-, w₀, t, hheld, -⟩ := hgoes
      exact ⟨hgoes', hu.congr (spares_held hheld hnf hstep).page⟩
    next => cases hstep
  · exact h.beside hph (snap_beside (h.idle hph) hph hq hp hstep hf)

theorem Invariant.inc {m m' : Marker} {a : IncAction} (h : Invariant d b₀ resident inode ⟨.inc m, phase⟩)
    (hq : Quiet phase (.inc a)) (hp : Proper d ⟨.inc m, phase⟩ (.inc a))
    (hstep : incStep d ⟨resident, some inode⟩ phase m a = some m') (hf : m'.state.dev.fail = false) :
    Invariant d b₀ resident inode ⟨.inc m', phase⟩ := by
  have hnf : m.state.dev.fail = false := incStep_back hstep hf
  have htraced : ∀ bio alloc, a = .traceBio bio alloc → Traced d bio.sector bio.data := by
    rintro bio alloc rfl
    exact hp
  by_cases hph : phase = .active
  · subst hph
    obtain ⟨hgoes, hu⟩ := h
    exact ⟨Follows.step hgoes htraced hnf hstep hf, incStep_unclean (Goes.ready hgoes).1 hu hstep⟩
  · exact h.beside hph (inc_beside (h.idle hph) hph hq htraced hnf hstep hf)

theorem Invariant.step {a : Action} (h : Invariant d b₀ resident inode s) (hq : Quiet s.phase a) (hp : Proper d s a)
    (hstep : step d ⟨resident, some inode⟩ s a = some s') (hf : s'.tracer.fail = false) :
    Invariant d b₀ resident inode s' := by
  obtain ⟨x, phase⟩ := s
  cases a with
  | snap a =>
      cases x with
      | inc m => cases hstep
      | snap y =>
          obtain ⟨y', hy, rfl⟩ := Option.map_eq_some_iff.mp hstep
          obtain ⟨hin, hordered⟩ := hp y rfl
          exact h.snap hq hin hordered hy hf
  | inc a =>
      cases x with
      | snap y => cases hstep
      | inc m =>
          obtain ⟨m', hm, rfl⟩ := Option.map_eq_some_iff.mp hstep
          exact h.inc hq hp hm hf
  | exit =>
      simp only [step] at hstep
      split at hstep
      next hgo =>
        cases hstep
        obtain ⟨rfl, hfin⟩ := hgo
        exact ⟨h.1, h.2, idle_of_finished hfin⟩
      next => cases hstep
  | close =>
      simp only [step] at hstep
      split at hstep
      next hph =>
        cases hstep
        cases hph
        exact h.close hf
      next => cases hstep
  | reopen =>
      simp only [step] at hstep
      split at hstep
      next hph =>
        cases hstep
        cases hph
        exact h.reopen hf
      next => cases hstep
  | flush =>
      simp only [step] at hstep
      split at hstep
      next hph =>
        cases hstep
        cases hph
        obtain ⟨v, hshut, hshows, hgoes, hidle⟩ := h
        rw [hgoes.newThread (by rw [← fail_newThread]; exact hf)]
        exact ⟨v, hshut, hshows, hgoes, hidle⟩
      next => cases hstep
  | destroy =>
      simp only [step] at hstep
      split at hstep
      next hgo =>
        cases hstep
        rw [fail_put, fail_stopTracing] at hf
        have hasleep : ∃ v, Shut v x.world ∧ Shows v x.world ∧ Goes d b₀ resident inode (x.put v) ∧ Idle x := by
          rcases hgo with rfl | ⟨rfl, -⟩ <;> exact h
        obtain ⟨v, hshut, hshows, hgoes, hidle⟩ := hasleep
        exact gone_of_shut hshut hshows hgoes hidle hf
      next => cases hstep

/-- A close that is cut short. -/
theorem Invariant.close_secure (h : Invariant d b₀ resident inode ⟨x, .stopped⟩) :
    Secure d b₀ resident inode x (tracerActiveToDormant (x.put (stopAt x.world n))).tracer.world := by
  obtain ⟨hgoes, hu, hidle⟩ := h
  have hl := hgoes.ready.1
  have hsafe : wp (cowSyncAndClose 12) (stopAt x.world n) (fun _ w => Safe (stopAt x.world n) w)
      (fun _ w => Safe (stopAt x.world n) w) :=
    wp_mono (cowSyncAndClose_safe (live_env hl _) hu) (fun _ _ hs => .inr hs) fun _ _ hs => hs
  have hend : ∀ {u}, Safe (stopAt x.world n) u → Secure d b₀ resident inode x u := fun hs =>
    hs.imp_right fun hshows => ⟨x.world, hl, ⟨hshows.index, hshows.data⟩, by rw [put_world]; exact hgoes.kept, hidle⟩
  unfold tracerActiveToDormant
  rw [world_put]
  split
  next hw =>
    rw [world_put]
    have hs := wp_ok hsafe hw
    exact hend hs
  next hw =>
    rw [world_setFail, world_put]
    have hs := wp_error hsafe hw
    exact hend hs

/-- An opening that is cut short. -/
theorem Invariant.reopen_secure (h : Invariant d b₀ resident inode ⟨x, .dormant⟩) :
    Secure d b₀ resident inode x (tracerDormantToActive (x.put (stopAt x.world n))).tracer.world := by
  obtain ⟨v, hshut, hshows, hgoes, hidle⟩ := h
  have hbody : wp cowReopen (stopAt x.world n) (fun _ u => SameBody x.world u) (fun _ u => SameBody x.world u) :=
    wp_mono cowReopen_body (fun _ _ hs => hs.1) fun _ _ hs => hs
  have hend : ∀ {u}, SameBody x.world u → Secure d b₀ resident inode x u := fun hs =>
    .inr ⟨v, hshut.live, hshows.body hshut.live hs, hgoes.kept, hidle⟩
  unfold tracerDormantToActive
  rw [world_put]
  split
  next hw =>
    rw [world_newThread, world_put]
    have hs := wp_ok hbody hw
    exact hend hs
  next hw =>
    rw [world_setFail, world_put]
    have hs := wp_error hbody hw
    exact hend hs

/-- Wherever the machine stops, the file says that it was not closed, or has all that is known. -/
theorem Invariant.crash {a : Action} (h : Invariant d b₀ resident inode s) (hf : s.tracer.fail = false)
    (hcrash : crash d ⟨resident, some inode⟩ s a n = some w) : Secure d b₀ resident inode s.tracer w := by
  obtain ⟨s', hstep, rfl⟩ := Option.map_eq_some_iff.mp hcrash
  have hsame := h.secure
  obtain ⟨x, phase⟩ := s
  have hfile : ∀ {u : World}, u.file = (stopAt x.world n).file → Secure d b₀ resident inode x u := fun hu =>
    hsame.body hu
  cases a with
  | snap a =>
      cases x with
      | inc m => cases hstep
      | snap y =>
          obtain ⟨y', hy, rfl⟩ := Option.map_eq_some_iff.mp hstep
          unfold snapStep at hy
          split at hy
          next ha =>
            by_cases hph : phase = .active
            · subst hph
              obtain ⟨⟨-, w₀, t, hheld, -⟩, hu⟩ := h
              have hspares := spares_held (held_env hheld (stopAt y.world n).env) hf hy
              exact .inl (Unclean.congr (f := y.world.file) hu hspares.page)
            · have hrests : Rests y.snap := h.idle hph
              obtain ⟨m, u, rfl, -, -, rfl⟩ := hrests.unstored (s := ⟨y.snap, stopAt y.world n⟩) hf hph ha hy
              exact hfile rfl
          next => cases hy
  | inc a =>
      cases x with
      | snap y => cases hstep
      | inc m =>
          obtain ⟨m', hm, rfl⟩ := Option.map_eq_some_iff.mp hstep
          by_cases hph : phase = .active
          · subst hph
            obtain ⟨hgoes, hu⟩ := h
            have hl := live_env (Goes.ready hgoes).1 (stopAt m.state.world n).env
            exact .inl (incStep_unclean (m := m.put (stopAt m.state.world n)) hl hu hm)
          · have hworld := (incStep_unstored (m := m.put (stopAt m.state.world n)) (h.idle hph) hf hph hm).1
            exact hfile (congrArg World.file hworld)
  | exit =>
      simp only [Dormancy.step] at hstep
      split at hstep <;> cases hstep
      rw [world_put]
      exact hfile rfl
  | close =>
      simp only [Dormancy.step] at hstep
      split at hstep
      next hph =>
        cases hph
        cases hstep
        exact h.close_secure
      next => cases hstep
  | reopen =>
      simp only [Dormancy.step] at hstep
      split at hstep
      next hph =>
        cases hph
        cases hstep
        exact h.reopen_secure
      next => cases hstep
  | flush =>
      simp only [Dormancy.step] at hstep
      split at hstep <;> cases hstep
      rw [world_newThread, world_put]
      exact hfile rfl
  | destroy =>
      simp only [Dormancy.step] at hstep
      split at hstep <;> cases hstep
      rw [world_put]
      refine hfile ?_
      rw [world_put]
      exact Tracker.leaves_of (Cow.Protocol.freeMembers_file _)

theorem start_invariant (h : Start d b₀ s) : Invariant d b₀ resident inode s := by
  cases h with
  | @snap y hd hfresh =>
      obtain ⟨fileMax, seqid, cacheSize, uuid, w, halign, hinit⟩ := hfresh.init
      have hunclean := wp_ok cowInit_unclean hinit
      exact ⟨⟨hd, y.world, .created b₀, hfresh.held hd, Snapshot.SnapRead.point_created, awake_created b₀⟩, hunclean⟩
  | inc hready hdirty hindexed =>
      refine ⟨⟨⟨hready, rfl, hindexed, ?_⟩, rfl, fun _ hc => ?_, fun _ hbio => ?_⟩, hdirty⟩
      · rintro b ⟨_, hm, _⟩
        cases hm
      · cases hc
      · cases hbio

/-- In every run of a device that has not failed, through active and dormant phases and to its destruction, a header
that says that the file was closed, there or where the machine stops in the next step, has behind it an entry for
every block of every traced write that was submitted, and in snapshot mode what the block held. -/
theorem clean_header_seals (hstart : Start d b₀ s₀)
    (h : Reach (step d ⟨resident, some inode⟩) (fun s a => Quiet s.phase a ∧ Proper d s a) s₀ s)
    (hf : s.tracer.fail = false) :
    Seals d b₀ resident inode s.tracer ∧
      ∀ a n w, crash d ⟨resident, some inode⟩ s a n = some w → Seals d b₀ resident inode (s.tracer.put w) := by
  have hinv : Invariant d b₀ resident inode s := by
    refine h.invariant (I := fun s => s.tracer.fail = false → Invariant d b₀ resident inode s) ?_ ?_ hf
    · exact fun _ => start_invariant hstart
    · exact fun s a t ih hc hstep ht => (ih (step_back hstep ht)).step hc.1 hc.2 hstep ht
  refine ⟨?_, fun a n w hcrash => (hinv.crash hf hcrash).seals hf⟩
  have hseals := hinv.secure.seals hf
  rw [put_world] at hseals
  exact hseals

theorem clean_of_sealed {fillAhead : Bool} (h : Sealed fillAhead v w) : hasFlag (diskHeader w).flags cowClean = true := by
  rw [h.header]
  change hasFlag w.cm.flags cowClean = true
  rw [h.cm]
  simp

/-- A write that reaches the tracer after the file was closed is not in it when the bio is submitted. -/
theorem clean_header_misses_block : ¬ ∀ (d : Device) (b₀ : Nat → Sector) (resident : Bool) (inode : Nat) (s₀ s : State),
    Start d b₀ s₀ → Reach (step d ⟨resident, some inode⟩) (Proper d) s₀ s → s.tracer.fail = false →
      Seals d b₀ resident inode s.tracer := by
  intro hseals
  obtain ⟨w, hinit, hstarted, htotal, henv⟩ := Marking.started_disk
  have hunclean := wp_ok cowInit_unclean hinit
  have hl : Live w := .of_started hstarted
  have hb : Blank w := Cow.Reload.blank_started hstarted
  have hstart : Start disk zeroes ⟨.inc ⟨⟨.new, zeroes, w, false⟩, [], []⟩, .active⟩ :=
    .inc ⟨hl, hb⟩ hunclean (by rw [Tracker.Indexed, htotal]; decide)
  obtain ⟨_, w', hw', hspec⟩ := wp_total (wp_mono (Cow.Sealing.cowSyncAndClose_wp hl.wf hl.filp hl.placed)
    (fun _ _ h => h) fun _ _ he => he hstarted.roomy (by rw [henv]; exact Cow.Start.calm_faultless))
  have hexit : step disk ⟨true, some 7⟩ ⟨.inc ⟨⟨.new, zeroes, w, false⟩, [], []⟩, .active⟩ .exit =
      some ⟨.inc ⟨⟨.new, zeroes, w, false⟩, [], []⟩, .stopped⟩ := rfl
  have hclose : step disk ⟨true, some 7⟩ ⟨.inc ⟨⟨.new, zeroes, w, false⟩, [], []⟩, .stopped⟩ .close =
      some ⟨.inc ⟨⟨.new, zeroes, w', false⟩, [], []⟩, .dormant⟩ := by
    simp only [step, tracerActiveToDormant, Tracer.world, hw', if_true]
    rfl
  have h₀ : Reach (step disk ⟨true, some 7⟩) (Proper disk) ⟨.inc ⟨⟨.new, zeroes, w, false⟩, [], []⟩, .active⟩
      ⟨.inc ⟨⟨.new, zeroes, w, false⟩, [], []⟩, .active⟩ := .init
  have h₁ := h₀.next (a := .exit) (by exact trivial) hexit
  have h₂ := h₁.next (a := .close) (by exact trivial) hclose
  have h₃ := h₂.next (a := .inc (.traceBio Tracker.acrossBio fun _ => true)) (by exact acrossBlocks_traced) rfl
  have h₄ := h₃.next (a := .inc (.makeSset 0)) (by exact trivial) rfl
  have hreach := h₄.next (a := .inc (.submit 0)) (by exact trivial) rfl
  obtain ⟨u, hsealed, hworld⟩ := hspec
  have hfile : w'.file = u.file := by rw [hworld]
  have hclean : hasFlag (diskHeader w').flags cowClean = true := by
    rw [diskHeader, hfile]
    exact clean_of_sealed hsealed
  have hword : diskWord w' 1 = 0 := by
    have hdisk : diskWord u 1 = indexAt w 1 := Cow.Reload.sealed_disk hsealed hb (by rw [htotal]; decide)
    rw [indexAt_started hstarted] at hdisk
    rw [← hdisk, diskWord, hfile]
    rfl
  refine (hseals disk zeroes true 7 _ _ hstart hreach rfl hclean 1 ?_).1 hword
  exact ⟨Tracker.acrossBio, List.mem_cons_self, 8, rfl, .inl ⟨by decide, by decide, by decide⟩⟩

theorem quiet_active (a : Action) : Quiet .active a := by
  unfold Quiet
  split <;> first | rfl | trivial

/-- One clone after the other is in order. -/
theorem ordered_sequential {s : Snapshot.Tracking.State Sector} {a : Snapshot.Machine.Action Sector} {w : World}
    (h : Snapshot.SnapRead.Sequential s a) : Ordered d ⟨s, w⟩ (.snap a) := by
  cases a with
  | cow act =>
      cases act with
      | dequeue =>
          intro bio rest pre post _ hpre older hm
          have hlen : (clones s.cowBios).length ≤ 1 := h
          rw [hpre, List.length_append, List.length_cons] at hlen
          have hpos := List.length_pos_of_mem hm
          omega
      | _ => trivial
  | _ => trivial

theorem reach_sequential {b₀ : Nat → Sector} {t : Snapshot.Tracking.State Sector} {w : World}
    (h : Reach (Snapshot.Machine.step d) (fun s a => ((InDevice d a ∧ Snapshot.SnapRead.Sequential s a) ∧
      Unstored s a = true) ∧ Phase.active.allows (.snap a) = true) (.created b₀) t) :
    Reach (step d ⟨resident, some inode⟩) (fun s a => Quiet s.phase a ∧ Proper d s a)
      ⟨.snap (.created b₀ w), .active⟩ ⟨.snap ⟨t, w⟩, .active⟩ := by
  induction h with
  | init => exact .init
  | @next s t a _ hc hstep ih =>
      obtain ⟨⟨⟨hin, hseq⟩, hun⟩, hallow⟩ := hc
      refine ih.next (a := .snap (.snap a)) ⟨quiet_active _, fun b hb => ?_⟩ ?_
      · cases hb
        exact ⟨⟨hin, (Snapshot.SnapRead.undisturbed_of_sequential (d := d) hseq).2.1⟩, ordered_sequential hseq⟩
      · simp only [step, snapStep, if_pos hallow, step_unstored hun hstep, Option.map_some]

/-- The first block of the device is stored and overwritten. -/
def overwritten : Snapshot.Tracking.State Sector :=
  (Lib.Runs.run (Snapshot.Machine.step disk) written [.mrfSubmit fun _ _ => 1]).getD written

theorem stored_and_closed : ∃ w₀ w₁ w₂ u : World,
    cowInit 12 16 4096 0 1048576 (fun _ => 0) 1 Cow.Start.calm = .ok () w₀ ∧
    Cow.Data.cowWriteCurrent 12 (UInt64.ofNat 0) (blockBytes fun _ _ => 0) w₀ = .ok () w₁ ∧
    cowSyncAndClose 12 w₁ = .ok () w₂ ∧ Sealed true w₁ u ∧ w₂.file = u.file := by
  obtain ⟨w₀, hinit, hstarted, htotal, henv⟩ := Marking.started_disk
  have hserves : Serves disk w₀ (fun _ => none) w₀ := serves_created hinit (by decide) rfl rfl (by decide)
  have hl := hserves.store.live
  have hfaultless : w₀.env.Faultless := by rw [henv]; exact Cow.Start.calm_faultless
  have hcurr : w₀.cm.currPos.toNat * 4096 = 36864 := by
    rw [hstarted.next, hstarted.wf.dataOffset, htotal]
  have hspec : wp (Cow.Data.cowWriteCurrent 12 (UInt64.ofNat 0) (blockBytes fun _ _ => 0)) w₀ _ _ :=
    Cow.Data.cowWriteCurrent_wp hl.wf hl.filp hl.placed (by rw [htotal]; decide)
  obtain ⟨_, w₁, hw₁, hstored⟩ := wp_total (wp_mono hspec (fun _ _ h => h) fun _ _ h =>
    h (by rw [hcurr, hstarted.fileMax]; decide) (by rw [hcurr]; decide) hfaultless)
  have hserves₁ := (wp_ok (cowWriteCurrent_serves hserves (b := 0) (by rw [htotal]; decide) fun _ _ => 0) hw₁).1
  have hl₁ := hserves₁.store.live
  have hroomy : Cow.Sealing.Roomy w₁ := by
    rw [if_pos (indexAt_started hstarted)] at hstored
    obtain ⟨w, hsame, hst⟩ := hstored
    have hnext := hst.next
    rw [hsame.currPos] at hnext
    rw [Cow.Sealing.Roomy, hnext]
    omega
  obtain ⟨_, w₂, hw₂, u, hsealed, hworld⟩ := wp_total (wp_mono
    (Cow.Sealing.cowSyncAndClose_wp hl₁.wf hl₁.filp hl₁.placed) (fun _ _ h => h)
    fun _ _ he => he hroomy (by rw [hserves₁.fixed.env]; exact hfaultless))
  exact ⟨w₀, w₁, w₂, u, hinit, hw₁, hw₂, hsealed, by rw [hworld]⟩

theorem stopped_reach {w₀ w₁ : World}
    (hw₁ : Cow.Data.cowWriteCurrent 12 (UInt64.ofNat 0) (blockBytes fun _ _ => 0) w₀ = .ok () w₁) :
    Reach (step disk ⟨true, some 7⟩) (fun s a => Quiet s.phase a ∧ Proper disk s a)
      ⟨.snap (.created zeroes w₀), .active⟩ ⟨.snap ⟨overwritten, w₁⟩, .stopped⟩ := by
  have hwork : (after disk zeroes toWrite).work = .write ⟨true, 0, 0, 0⟩ := rfl
  obtain ⟨c, hc, hpages, hdata⟩ : ∃ c, (after disk zeroes toWrite).clones[0]? = some c ∧ c.pages = 1 ∧
      pageOf disk c 0 = fun _ _ => 0 := ⟨_, rfl, rfl, rfl⟩
  have hhandled : Snapshot.Storage.snapHandleWriteBio disk ⟨true, 0, 0, 0⟩ c w₀ = (1, w₁) := by
    simp only [Snapshot.Storage.snapHandleWriteBio, hpages, handlePages, hdata, Nat.zero_div, Nat.add_zero, hw₁]
  have hwrite : step disk ⟨true, some 7⟩ ⟨.snap ⟨after disk zeroes toWrite, w₀⟩, .active⟩
      (.snap (.snap (.cow (.write 1)))) = some ⟨.snap ⟨written, w₁⟩, .active⟩ := by
    simp only [step, snapStep, Snapshot.Storage.step, Snapshot.Storage.snapCowThread, hwork, hc, Option.bind_some,
      hhandled, hpages]
    rfl
  have h₀ : Reach (step disk ⟨true, some 7⟩) (fun s a => Quiet s.phase a ∧ Proper disk s a)
      ⟨.snap (.created zeroes w₀), .active⟩ ⟨.snap ⟨after disk zeroes toWrite, w₀⟩, .active⟩ :=
    reach_sequential (.run .init toWrite_after (by decide))
  have h₁ := h₀.next (a := .snap (.snap (.cow (.write 1))))
    (by exact ⟨trivial, fun _ _ => ⟨⟨trivial, trivial⟩, trivial⟩⟩) hwrite
  have hsubmit : step disk ⟨true, some 7⟩ ⟨.snap ⟨written, w₁⟩, .active⟩ (.snap (.snap (.mrfSubmit fun _ _ => 1))) =
      some ⟨.snap ⟨overwritten, w₁⟩, .active⟩ := rfl
  have h₂ := h₁.next (a := .snap (.snap (.mrfSubmit fun _ _ => 1)))
    (by exact ⟨trivial, fun _ _ => ⟨⟨trivial, trivial⟩, trivial⟩⟩) hsubmit
  have hexit : step disk ⟨true, some 7⟩ ⟨.snap ⟨overwritten, w₁⟩, .active⟩ .exit =
      some ⟨.snap ⟨overwritten, w₁⟩, .stopped⟩ := rfl
  exact h₂.next (a := .exit) (by exact ⟨trivial, trivial⟩) hexit

/-- A device with a stored block goes dormant, has its queue flushed, and is destroyed. -/
theorem clean_header_seals_example : ∃ s : State, s.phase = .gone ∧
    hasFlag (diskHeader s.tracer.world).flags cowClean = true ∧ diskWord s.tracer.world 0 ≠ 0 ∧
    ∀ p < 4096, s.tracer.world.file.bytes ((diskWord s.tracer.world 0).toNat * 4096 + p) = 0 := by
  obtain ⟨w₀, w₁, w₂, u, hinit, hw₁, hw₂, hsealed, hfile⟩ := stored_and_closed
  have hclose : step disk ⟨true, some 7⟩ ⟨.snap ⟨overwritten, w₁⟩, .stopped⟩ .close =
      some ⟨.snap ⟨overwritten, w₂⟩, .dormant⟩ := by
    simp only [step, tracerActiveToDormant, Tracer.world, hw₂, if_true]
    rfl
  have hflush : step disk ⟨true, some 7⟩ ⟨.snap ⟨overwritten, w₂⟩, .dormant⟩ .flush =
      some ⟨.snap ⟨overwritten, w₂⟩, .flushing⟩ := rfl
  have hdestroy : step disk ⟨true, some 7⟩ ⟨.snap ⟨overwritten, w₂⟩, .flushing⟩ .destroy =
      some ⟨.snap ⟨{ overwritten with tracing := false }, leaves cowFreeMembers w₂⟩, .gone⟩ := rfl
  have h₁ := (stopped_reach hw₁).next (a := .close) (by exact ⟨trivial, trivial⟩) hclose
  have h₂ := h₁.next (a := .flush) (by exact ⟨trivial, trivial⟩) hflush
  have h₃ := h₂.next (a := .destroy) (by exact ⟨trivial, trivial⟩) hdestroy
  have hgone : (leaves cowFreeMembers w₂).file = w₂.file := Tracker.leaves_of (Cow.Protocol.freeMembers_file w₂)
  have hclean : hasFlag (diskHeader (leaves cowFreeMembers w₂)).flags cowClean = true := by
    rw [diskHeader, hgone, hfile]
    exact clean_of_sealed hsealed
  have hstart : Start disk zeroes ⟨.snap (.created zeroes w₀), .active⟩ :=
    .snap ⟨rfl, ⟨16, rfl⟩, by decide⟩ ⟨rfl, 1048576, 1, 0, fun _ => 0, Cow.Start.calm, rfl, hinit⟩
  have hwrote : (Tracer.snap ⟨{ overwritten with tracing := false }, leaves cowFreeMembers w₂⟩).Wrote disk true 7 0 :=
    ⟨0, _, List.mem_cons_self, rfl, 0, by decide, by decide, rfl⟩
  have hfail : overwritten.fail = false := rfl
  have hseals := (clean_header_seals hstart h₃ hfail).1
  obtain ⟨hentry, hsaved⟩ := hseals hclean 0 hwrote
  exact ⟨⟨.snap ⟨{ overwritten with tracing := false }, leaves cowFreeMembers w₂⟩, .gone⟩, rfl, hclean, hentry,
    fun p hp => hsaved rfl p hp⟩

end ElastioSnap.Incremental.CleanHeader
