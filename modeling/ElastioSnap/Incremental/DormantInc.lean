import ElastioSnap.Incremental.DormantSnap

namespace ElastioSnap.Incremental.DormantInc

open Lib.Outcome Snapshot.Tracking Marking
open IncTrace (CowFile)
open Cow.Manager (World)
open Cow.Lifecycle (cowFreeMembers cowTruncateToIndex cowModifyCacheSize)
open Cow.Reopen (Live)
open Cow.Footprint
open Cow.Protocol (Unclean)
open Cow.OnDisk (live_above)
open Tracker (Tracking Recorded Marked Advances leaves)
open Dormancy
open DormantSnap (spares_ok spares_error)

variable {d : Device} {w : World} {cow : CowFile} {m m' : Marker} {c : Call} {resident : Bool} {inode n : Nat}
  {phase : Phase} {s s' : Tracker.State} {P : Nat → Prop}

/-- What a call has changed is recorded, or in what it has still to queue. -/
structure Tells (d : Device) (resident : Bool) (inode : Nat) (s : Tracker.State) (c : Call) : Prop where
  traced : Traced d c.bio.sector c.bio.data
  ssets : ∀ sset ∈ c.ssets, ∀ b ∈ IncTrace.incHandleSset d sset, ∃ x, d.block x = b ∧ c.bio.Changes resident inode x
  rest : c.failed = false → ∀ x, c.bio.Changes resident inode x →
    Recorded d s (d.block x) ∨ ∃ sset ∈ c.ssets, d.block x ∈ IncTrace.incHandleSset d sset

/-- The blocks that the submitted bios change are recorded, and those of the calls will be. -/
structure Follows (d : Device) (resident : Bool) (inode : Nat) (m : Marker) : Prop where
  tracking : Tracking d m.state
  opened : m.state.dormant = false
  calls : ∀ c ∈ m.calls, Tells d resident inode m.state c
  submitted : ∀ bio ∈ m.submitted, ∀ x, bio.Changes resident inode x →
    d.block x < 4096 * m.state.world.cm.totalSects ∧ Recorded d m.state (d.block x)

theorem Tells.lt (h : Tells d resident inode s c) (ht : Tracking d s) {x : Nat} (hx : c.bio.Changes resident inode x) :
    d.block x < 4096 * s.world.cm.totalSects :=
  Tracker.changed_lt ht.indexed h.traced hx

/-- What was recorded stays so. -/
theorem Tells.mono (h : Tells d resident inode s c) (hr : ∀ x, c.bio.Changes resident inode x →
    Recorded d s (d.block x) → Recorded d s' (d.block x)) : Tells d resident inode s' c where
  traced := h.traced
  ssets := h.ssets
  rest hf x hx := (h.rest hf x hx).imp_left (hr x hx)

theorem Follows.advances (h : Follows d resident inode m) (hadv : Advances d P m.state s) (hd : s.dormant = false) :
    Follows d resident inode { m with state := s } where
  tracking := hadv.tracking
  opened := hd
  calls c hc :=
    have hcall := h.calls c hc
    hcall.mono fun _ hx hr => (hadv.recorded _ (hcall.lt h.tracking hx)).mpr (.inl hr)
  submitted bio hbio x hx :=
    have ⟨hlt, hr⟩ := h.submitted bio hbio x hx
    ⟨by rw [hadv.carried.totalSects]; exact hlt, (hadv.recorded _ hlt).mpr (.inl hr)⟩

theorem Follows.traceBio {bio : Tracker.Bio} {alloc : Nat → Bool} (h : Follows d resident inode m)
    (hp : Traced d bio.sector bio.data) (hf : m.state.dev.fail = false)
    (hstep : incTraceBio d ⟨resident, some inode⟩ bio alloc m = some m') : Follows d resident inode m' := by
  rw [incTraceBio, hf, if_neg Bool.false_ne_true] at hstep
  cases hstep
  refine ⟨h.tracking, h.opened, fun c hc => ?_, h.submitted⟩
  rcases List.mem_append.mp hc with hc | hc
  · exact h.calls c hc
  · cases List.mem_singleton.mp hc
    refine ⟨hp, fun sset hs b hb => marked_changed hp ⟨sset, hs, hb⟩, fun hok x hx => .inr ?_⟩
    exact changed_marked hp hok ⟨x, rfl, hx⟩

/-- A call that queues a sector set has it recorded from then on. -/
theorem Follows.makeSset (h : Follows d resident inode m) (hstep : incMakeSset n m = some m') :
    Follows d resident inode m' := by
  obtain ⟨c, hc, hstep⟩ := Option.bind_eq_some_iff.mp hstep
  have hcall := h.calls c (List.mem_of_getElem? hc)
  split at hstep
  next => cases hstep
  next sset rest hsets =>
    cases hstep
    have hold : ∀ b, Recorded d m.state b → Recorded d { m.state with
        dev := { m.state.dev with ssets := m.state.dev.ssets ++ [sset] } } b := by
      rintro b (hb | ⟨x, hx, hb⟩)
      · exact .inl hb
      · exact .inr ⟨x, List.mem_append_left _ hx, hb⟩
    have hnew : ∀ b ∈ IncTrace.incHandleSset d sset, Marked d
        { m.state.dev with ssets := m.state.dev.ssets ++ [sset] } b := fun b hb =>
      ⟨sset, List.mem_append_right _ List.mem_cons_self, hb⟩
    have htracking := h.tracking
    refine ⟨⟨htracking.ready, htracking.isFailed, htracking.indexed, ?_⟩, h.opened, fun e he => ?_,
      fun bio hbio x hx => ?_⟩
    · rintro b ⟨x, hx, hb⟩
      rcases List.mem_append.mp hx with hx | hx
      · exact htracking.marked b ⟨x, hx, hb⟩
      · cases List.mem_singleton.mp hx
        obtain ⟨y, rfl, hy⟩ := hcall.ssets sset (hsets ▸ List.mem_cons_self) b hb
        exact hcall.lt htracking hy
    · rcases List.mem_or_eq_of_mem_set he with he | rfl
      · exact (h.calls e he).mono fun _ _ => hold _
      · refine ⟨hcall.traced, fun x hx => hcall.ssets x (hsets ▸ List.mem_cons_of_mem _ hx), fun hf x hx => ?_⟩
        rcases hcall.rest hf x hx with hr | ⟨y, hy, hb⟩
        · exact .inl (hold _ hr)
        · rw [hsets] at hy
          rcases List.mem_cons.mp hy with rfl | hy
          · exact .inl (.inr (hnew _ hb))
          · exact .inr ⟨y, hy, hb⟩
    · have hsub := h.submitted bio hbio x hx
      exact ⟨hsub.1, hold _ hsub.2⟩

theorem Follows.submit (h : Follows d resident inode m) (hstep : submitBio n m = some m')
    (hf : m'.state.dev.fail = false) : Follows d resident inode m' := by
  obtain ⟨c, hc, hstep⟩ := Option.bind_eq_some_iff.mp hstep
  have hcall := h.calls c (List.mem_of_getElem? hc)
  have htracking := h.tracking
  split at hstep
  next hsets =>
    cases hstep
    rw [Bool.or_eq_false_iff] at hf
    refine ⟨⟨htracking.ready, htracking.isFailed, htracking.indexed, htracking.marked⟩, h.opened,
      fun e he => (h.calls e (List.mem_of_mem_eraseIdx he)).mono fun _ _ hr => hr, fun bio hbio x hx => ?_⟩
    rcases List.mem_append.mp hbio with hbio | hbio
    · exact h.submitted bio hbio x hx
    · cases List.mem_singleton.mp hbio
      refine ⟨hcall.lt htracking hx, (hcall.rest hf.2 x hx).resolve_right ?_⟩
      rintro ⟨sset, hs, -⟩
      rw [List.isEmpty_iff.mp hsets] at hs
      cases hs
  next => cases hstep

theorem tracker_dormant {a : Tracker.Action} (ha : phase.allowsInc a = true) (hd : s.dormant = false)
    (hstep : Tracker.step d cow s a = some s') : s'.dormant = false := by
  cases a with
  | trace | toDormant | toActive => cases ha
  | land n =>
      obtain ⟨bio, -, rfl⟩ := Option.map_eq_some_iff.mp hstep
      exact hd
  | own | truncate =>
      simp only [Tracker.step] at hstep
      split at hstep <;> cases hstep
      exact hd
  | look =>
      simp only [Tracker.step, Tracker.lookFail] at hstep
      split at hstep
      · cases hstep
      · cases hstep
        split <;> exact hd
  | handle =>
      simp only [Tracker.step, Tracker.incHandleSset] at hstep
      split at hstep
      · cases hstep
      · split at hstep
        · cases hstep
        · split at hstep
          · cases hstep
            exact hd
          · split at hstep <;> cases hstep <;> exact hd
  | modifyCacheSize cacheSize =>
      cases hstep
      unfold Tracker.tracerReconfigure
      split <;> exact hd
  | failure =>
      cases hstep
      exact hd

theorem Follows.step {a : IncAction} (h : Follows d resident inode m)
    (hp : ∀ bio alloc, a = .traceBio bio alloc → Traced d bio.sector bio.data) (hf : m.state.dev.fail = false)
    (hstep : incStep d ⟨resident, some inode⟩ phase m a = some m') (hf' : m'.state.dev.fail = false) :
    Follows d resident inode m' := by
  cases a with
  | traceBio bio alloc =>
      simp only [incStep] at hstep
      split at hstep
      · cases hstep
      · exact h.traceBio (hp bio alloc rfl) hf hstep
  | makeSset n => exact h.makeSset hstep
  | submit n => exact h.submit hstep hf'
  | tracker a =>
      simp only [incStep] at hstep
      split at hstep
      next ha =>
        obtain ⟨s, hs, rfl⟩ := Option.map_eq_some_iff.mp hstep
        have hproper : Tracker.Proper d resident inode a := by
          cases a with
          | trace => cases ha
          | _ => trivial
        exact h.advances (h.tracking.step hproper hs hf') (tracker_dormant ha h.opened hs)
      next => cases hstep

/-- With nothing queued the thread leaves the COW file alone. -/
theorem tracker_unstored {a : Tracker.Action} (ha : phase.allowsInc a = true) (hph : phase ≠ .active)
    (hnil : s.dev.ssets = []) (hf : s.dev.fail = false) (hs : Tracker.step d cow s a = some s') :
    s'.world = s.world ∧ s'.dev.ssets = [] ∧
      ∀ v, Tracker.step d cow { s with world := v } a = some { s' with world := v } := by
  cases a with
  | trace | toDormant | toActive => cases ha
  | modifyCacheSize | truncate => exact absurd (of_decide_eq_true ha) hph
  | land n =>
      obtain ⟨bio, hn, rfl⟩ := Option.map_eq_some_iff.mp hs
      refine ⟨rfl, hnil, fun v => ?_⟩
      simp only [Tracker.step, hn, Option.map_some]
  | own sector sectors content =>
      simp only [Tracker.step] at hs
      split at hs
      next hown =>
        cases hs
        refine ⟨rfl, hnil, fun v => ?_⟩
        simp only [Tracker.step, if_pos hown]
      next => cases hs
  | look =>
      simp only [Tracker.step, Tracker.lookFail, hf, Bool.false_and, Bool.false_eq_true, if_false] at hs
      split at hs
      next => cases hs
      next hd =>
        cases hs
        refine ⟨rfl, hnil, fun v => ?_⟩
        simp only [Tracker.step, Tracker.lookFail, hf, hd, Bool.false_and, Bool.false_eq_true, if_false]
  | handle =>
      simp only [Tracker.step, Tracker.incHandleSset, hnil] at hs
      split at hs <;> cases hs
  | failure =>
      cases hs
      exact ⟨rfl, hnil, fun v => rfl⟩

theorem incStep_unstored {a : IncAction} (hnil : m.state.dev.ssets = []) (hf : m.state.dev.fail = false)
    (hph : phase ≠ .active) (hstep : incStep d cow phase m a = some m') :
    m'.state.world = m.state.world ∧ (Quiet phase (.inc a) → m'.state.dev.ssets = []) ∧
      ∀ v, incStep d cow phase (m.put v) a = some (m'.put v) := by
  cases a with
  | traceBio bio alloc =>
      simp only [incStep, incTraceBio, Marker.put, hf] at hstep ⊢
      split at hstep
      next => cases hstep
      next hgone =>
        cases hstep
        exact ⟨rfl, fun _ => hnil, fun v => by rw [if_neg hgone]; rfl⟩
  | makeSset n =>
      obtain ⟨c, hc, hstep⟩ := Option.bind_eq_some_iff.mp hstep
      split at hstep
      next => cases hstep
      next sset rest hsets =>
        cases hstep
        refine ⟨rfl, fun hq => absurd hq hph, fun v => ?_⟩
        simp only [incStep, incMakeSset, Marker.put, hc, Option.bind_some, hsets]
  | submit n =>
      obtain ⟨c, hc, hstep⟩ := Option.bind_eq_some_iff.mp hstep
      split at hstep
      next hsets =>
        cases hstep
        refine ⟨rfl, fun _ => hnil, fun v => ?_⟩
        simp only [incStep, submitBio, Marker.put, hc, Option.bind_some, if_pos hsets]
      next => cases hstep
  | tracker a =>
      simp only [incStep] at hstep ⊢
      split at hstep
      next ha =>
        obtain ⟨s, hs, rfl⟩ := Option.map_eq_some_iff.mp hstep
        obtain ⟨hworld, hnil', hput⟩ := tracker_unstored ha hph hnil hf hs
        refine ⟨hworld, fun _ => hnil', fun v => ?_⟩
        rw [if_pos ha, Option.map_eq_some_iff]
        exact ⟨_, hput v, rfl⟩
      next => cases hstep

theorem spares_writeFillers {bs : List Nat} : Relates Spares (writeFillers bs) := by
  induction bs with
  | nil => exact relates_pure
  | cons b bs ih => exact spares_cowWriteMapping.bind fun _ => ih

/-- While the file is open its header stays as it is, even in a step in which something fails. -/
theorem tracker_unclean {a : Tracker.Action} (ha : phase.allowsInc a = true) (hl : Live s.world)
    (hu : Unclean s.world.file) (hs : Tracker.step d cow s a = some s') : Unclean s'.world.file := by
  cases a with
  | trace | toDormant | toActive => cases ha
  | land n =>
      obtain ⟨bio, -, rfl⟩ := Option.map_eq_some_iff.mp hs
      exact hu
  | own sector sectors content =>
      simp only [Tracker.step] at hs
      split at hs <;> cases hs
      exact hu
  | failure =>
      cases hs
      exact hu
  | look =>
      simp only [Tracker.step, Tracker.lookFail] at hs
      split at hs
      next => cases hs
      next =>
        cases hs
        split
        next =>
          have hfile : (leaves cowFreeMembers s.world).file = s.world.file :=
            Tracker.leaves_of (Cow.Protocol.freeMembers_file s.world)
          exact hfile ▸ hu
        next => exact hu
  | handle =>
      simp only [Tracker.step, Tracker.incHandleSset] at hs
      split at hs
      next => cases hs
      next =>
        split at hs
        next => cases hs
        next =>
          split at hs
          next =>
            cases hs
            exact hu
          next =>
            split at hs
            next hw =>
              cases hs
              exact hu.congr (spares_ok spares_writeFillers hw).page
            next hw =>
              cases hs
              exact hu.congr (spares_error spares_writeFillers hw).page
  | modifyCacheSize cacheSize =>
      cases hs
      unfold Tracker.tracerReconfigure
      split
      next => exact hu
      next =>
        have hspec : Relates Spares (cowModifyCacheSize 12 cacheSize) := spares_modifyCm
        have hspares : Spares s.world (leaves (cowModifyCacheSize 12 cacheSize) s.world) :=
          Tracker.leaves_of (hspec s.world)
        exact hu.congr hspares.page
  | truncate =>
      simp only [Tracker.step] at hs
      split at hs
      next => cases hs
      next =>
        cases hs
        have hoff := live_above hl
        have hcut : wp cowTruncateToIndex s.world (fun _ w => Unclean w.file) (fun _ w => Unclean w.file) := by
          simp only [cowTruncateToIndex, wp_bind, Cow.Manager.wp_modifyCm]
          refine Cow.Manager.wp_tick ?_ fun _ _ => hu
          rw [wp_modify]
          exact hu.congr fun p hp => if_pos (by exact hp.trans_le hoff)
        exact Tracker.leaves_of hcut

theorem incStep_unclean {a : IncAction} (hl : Live m.state.world) (hu : Unclean m.state.world.file)
    (hstep : incStep d cow phase m a = some m') : Unclean m'.state.world.file := by
  cases a with
  | traceBio bio alloc =>
      simp only [incStep, incTraceBio] at hstep
      split at hstep
      · cases hstep
      · split at hstep <;> cases hstep <;> exact hu
  | makeSset n =>
      obtain ⟨c, -, hstep⟩ := Option.bind_eq_some_iff.mp hstep
      split at hstep <;> cases hstep
      exact hu
  | submit n =>
      obtain ⟨c, -, hstep⟩ := Option.bind_eq_some_iff.mp hstep
      split at hstep <;> cases hstep
      exact hu
  | tracker a =>
      simp only [incStep] at hstep
      split at hstep
      next ha =>
        obtain ⟨s, hs, rfl⟩ := Option.map_eq_some_iff.mp hstep
        exact tracker_unclean ha hl hu hs
      next => cases hstep

end ElastioSnap.Incremental.DormantInc
