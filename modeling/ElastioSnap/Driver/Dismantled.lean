import ElastioSnap.Cow.Crash
import ElastioSnap.Driver.Handovers

namespace ElastioSnap.Driver.Dismantled

open Lib.Outcome Lib.Runs Handovers Cow.Manager Cow.Header Cow.Mapping Cow.Data Cow.Lifecycle Cow.Regions
open Cow.Protocol (left wp_left)
open Cow.Crash (freeMembers_none)
open Cow.Cleanup (cowSyncAndFreeSections)

variable {ps n : Nat} {w w' : World} {t t' : Device × World} {a : Work} {stop old : Bool} {s s' s₀ : State}

/-- The pointers of a manager. -/
def heldPart (w : World) : Bool × Bool := (w.cm.sects.isSome, w.cm.filp)

instance : Lasting heldPart :=
  ⟨fun _ _ => rfl, fun _ _ => rfl, fun _ _ _ h => congrArg (·, _) h, fun _ _ => rfl, fun _ _ => rfl⟩

def Whole (w : World) : Prop := heldPart w = (true, true)

theorem preserves_cowReadData {blockPos : UInt64} {blockOff : Nat} :
    Preserves heldPart (cowReadData ps blockPos blockOff) := by
  have hk : Preserves heldPart kzalloc := fun _ => rfl
  exact hk.bind fun _ => preserves_throw.ite (preserves_throw.ite (preserves_fileRead.bind fun _ => preserves_pure))

theorem preserves_call (c : Call) : Preserves heldPart (c.run ps) := by
  cases c with
  | readMapping pos => exact preserves_cowReadMapping.bind fun _ => preserves_pure
  | readData blockPos blockOff => exact preserves_cowReadData.bind fun _ => preserves_pure
  | writeCurrent block buf => exact preserves_cowWriteCurrent fun _ _ => rfl
  | writeFillerMapping pos => exact preserves_cowWriteMapping

theorem preserves_runCalls (ps : Nat) (calls : List Call) : Preserves heldPart (runCalls ps calls) := by
  induction calls with
  | nil => exact preserves_pure
  | cons c calls ih => exact (preserves_call c).bind fun _ => ih

theorem preserves_cowTruncateToIndex : Preserves heldPart cowTruncateToIndex := by
  refine (preserves_modifyCm fun _ => rfl).bind fun _ => preserves_tick.bind fun _ => preserves_modify ?_
  exact fun _ => rfl

theorem cowSyncAndClose_held (hw : Whole w) :
    wp (cowSyncAndClose ps) w (fun _ w' => w'.cm.sects.isSome = true) fun _ w' => w'.cm.sects = none := by
  have hclose : wp (do
      cowSyncAndFreeSections ps 0 true
      cowWriteHeader true
      getCowFileExtents
      modifyCm fileClose) w (fun _ w' => w'.cm.sects.isSome = true) fun _ _ => True := by
    rw [wp_bind]
    refine wp_mono (preserves_cowSyncAndFreeSections (g := heldPart) w) (fun _ w₁ h₁ => ?_) fun _ _ _ => trivial
    rw [wp_bind]
    refine wp_mono (preserves_cowWriteHeader (g := heldPart) w₁) (fun _ w₂ h₂ => ?_) fun _ _ _ => trivial
    have hkeep : Preserves (fun w => w.cm.sects.isSome) (do
        getCowFileExtents
        modifyCm fileClose) :=
      (preserves_getCowFileExtents.comp fun cm => cm.sects.isSome).bind fun _ => preserves_modifyCm fun _ => rfl
    refine wp_mono (hkeep w₂) (fun _ w₃ h₃ => ?_) fun _ _ _ => trivial
    exact h₃.trans (congrArg Prod.fst (h₂.trans (h₁.trans hw)))
  exact wp_onError_any hclose freeMembers_none

theorem preserves_openHeader {indexOnly resetVmalloc : Bool} :
    Preserves heldPart (cowOpenHeader indexOnly resetVmalloc) :=
  preserves_alloc.bind fun _ => preserves_fileRead.bind fun _ =>
    preserves_throw.ite (preserves_throw.ite (preserves_throw.ite
      ((preserves_modifyCm fun _ => rfl).bind fun _ => preserves_cowWriteHeader)))

theorem cowReopen_held : wp cowReopen w
    (fun _ w' => w'.cm.sects.isSome = w.cm.sects.isSome ∧ w'.cm.filp = true)
    (fun _ w' => w'.cm.sects.isSome = w.cm.sects.isSome) := by
  have hpart : ∀ {x : CowM Unit}, Preserves heldPart x → Preserves (fun w => w.cm.sects.isSome) x :=
    fun h => h.comp Prod.fst
  have hsects : Preserves (fun w => w.cm.sects.isSome) cowReopen := by
    refine Preserves.onError (Preserves.bind ?_ fun _ => preserves_get.bind fun _ => hpart preserves_openHeader)
      (preserves_modifyCm fun _ => rfl)
    exact (hpart preserves_tick).bind fun _ => preserves_get.bind fun _ =>
      (preserves_modifyCm fun _ => rfl).ite preserves_throw
  have hfilp : wp cowReopen w (fun _ w' => w'.cm.filp = true) fun _ _ => True := by
    rw [cowReopen, wp_onError]
    refine wp_mono (E := fun _ _ => True) ?_ (fun _ _ h => h) fun _ _ _ => wp_true
    rw [wp_bind]
    refine wp_mono (Cow.Protocol.fileOpen_wp (E := fun _ _ => True) fun _ _ _ => trivial) ?_ fun _ _ _ => trivial
    rintro _ w₁ rfl
    rw [wp_bind, wp_get]
    exact wp_mono (preserves_openHeader _) (fun _ _ h => congrArg Prod.snd h) fun _ _ _ => trivial
  exact wp_mono (wp_and (hsects w) hfilp) (fun _ _ h => h) fun _ _ h => h.1

theorem allocSects_held {total : Nat} :
    wp (allocSects total) w (fun _ w' => heldPart w' = (true, w.cm.filp)) fun _ _ => True := by
  unfold wp allocSects
  split
  next h =>
    split at h
    next =>
      cases h
      rfl
    next =>
      split at h
      next =>
        cases h
        rfl
      next => cases h
  next => trivial

theorem cowInit_held {elements fileMax seqid : UInt64} {cacheSize : Nat} {uuid : Fin 16 → UInt8} :
    wp (cowInit ps elements (cowSectionSize ps) cacheSize fileMax uuid seqid) w (fun _ w' => Whole w')
      fun _ _ => True := by
  rw [cowInit, wp_bind]
  refine Cow.Protocol.allocManager_wp (fun _ => ?_) fun _ _ => trivial
  rw [wp_onError]
  refine wp_mono (E := fun _ _ => True) ?_ (fun _ _ h => h) fun _ _ _ => wp_true
  rw [fileCreate, wp_bind, wp_bind]
  refine wp_tick ?_ fun _ _ => trivial
  rw [wp_modify, wp_bind, wp_modifyCm, wp_bind]
  refine wp_mono allocSects_held (fun _ w₁ h₁ => ?_) fun _ _ _ => trivial
  refine wp_mono ((preserves_fileAllocate.bind fun _ => preserves_cowWriteHeader (g := heldPart)) w₁) ?_
    fun _ _ _ => trivial
  exact fun _ w₂ h₂ => h₂.trans h₁

theorem cowReload_held {elements : UInt64} {cacheSize : Nat} {indexOnly : Bool} :
    wp (cowReload ps elements (cowSectionSize ps) cacheSize indexOnly) w (fun _ w' => Whole w') fun _ _ => True := by
  rw [cowReload, wp_bind]
  refine Cow.Protocol.allocManager_wp (fun _ => ?_) fun _ _ => trivial
  rw [wp_onError]
  refine wp_mono (E := fun _ _ => True) ?_ (fun _ _ h => h) fun _ _ _ => wp_true
  rw [wp_bind]
  refine wp_mono (Cow.Protocol.fileOpen_wp (E := fun _ _ => True) fun _ _ _ => trivial) ?_ fun _ _ _ => trivial
  rintro _ w₁ rfl
  rw [wp_bind, wp_modifyCm, wp_bind]
  refine wp_mono (preserves_openHeader _) (fun _ w₂ h₂ => ?_) fun _ _ _ => trivial
  refine wp_mono allocSects_held (fun _ w₃ h₃ => ?_) fun _ _ _ => trivial
  exact h₃.trans (congrArg (true, ·) (congrArg Prod.snd h₂))

/-- The thread finds that its device has failed, and dismantles the COW manager. -/
def latches (t : Device × World) : Work → Bool
  | .look => t.1.fail && decide (t.1.cowThread = some (.waiting false))
  | _ => false

/-- What a step of a device without a latch keeps. -/
structure Went (t t' : Device × World) : Prop where
  held : heldPart t'.2 = heldPart t.2
  latch : t'.1.cowThread.map Thread.isFailed = t.1.cowThread.map Thread.isFailed
  looked : t'.1.cowThread = some (.looked false) → t.1.cowThread = some (.looked false) ∨ t.1.fail = false
  asleep : t.1.cowThread = none ∨ t.1.cowThread = some .created → t'.1.cowThread = t.1.cowThread ∧ t'.2 = t.2

inductive Worked (a : Work) (t t' : Device × World) : Prop
  | latched (hl : latches t a = true) (hs : t'.2.cm.sects = none) (ht : t'.1.cowThread = some (.looked true))
  | went (hl : latches t a = false) (h : Went t t')

theorem went_of_thread {dev : Device} (h : dev.cowThread = t.1.cowThread) : Went t (dev, t.2) :=
  ⟨rfl, by rw [h], fun hl => .inl (h ▸ hl), fun _ => ⟨h, rfl⟩⟩

theorem went_of_awake {th th' : Thread} (ht : t.1.cowThread = some th) (hc : th ≠ .created)
    (ht' : t'.1.cowThread = some th') (hf : th'.isFailed = th.isFailed) (hh : heldPart t'.2 = heldPart t.2)
    (hl : th' = .looked false → t.1.fail = false) : Went t t' where
  held := hh
  latch := by rw [ht, ht', Option.map_some, Option.map_some, hf]
  looked h := .inr (hl (Option.some.inj (ht'.symm.trans h)))
  asleep h := by
    rcases h with h | h
    · cases ht.symm.trans h
    · exact absurd (Option.some.inj (ht.symm.trans h)) hc

theorem handleNext_went (h : handleNext ps t = some t') :
    Went t t' ∧ t'.1.active = t.1.active ∧ (t.1.fail = true → t'.1.fail = true) := by
  unfold handleNext at h
  split at h
  next f ht _ =>
    cases h
    exact ⟨went_of_awake ht Thread.noConfusion rfl rfl rfl Thread.noConfusion, rfl, id⟩
  next f calls rest ht _ =>
    have went : ∀ {t' : Device × World}, t'.1.cowThread = some (.head f) → heldPart t'.2 = heldPart t.2 → Went t t' :=
      fun ht' hh => went_of_awake ht Thread.noConfusion ht' rfl hh Thread.noConfusion
    split at h
    next =>
      cases h
      exact ⟨went rfl rfl, rfl, id⟩
    next =>
      have hkeep := preserves_runCalls ps calls t.2
      split at h
      next _ w hw =>
        have hh := wp_ok hkeep hw
        cases h
        exact ⟨went rfl hh, rfl, id⟩
      next _ w hw =>
        have hh := wp_error hkeep hw
        cases h
        exact ⟨went rfl hh, rfl, fun _ => rfl⟩
  next => cases h

theorem lookFail_worked (h : lookFail stop t = some t') :
    Worked .look t t' ∧ t'.1.active = t.1.active ∧ (t.1.fail = true → t'.1.fail = true) := by
  unfold lookFail at h
  split at h
  next f ht =>
    split at h
    next => cases h
    next =>
      split at h
      next hc =>
        cases h
        rw [Bool.and_eq_true, Bool.not_eq_true'] at hc
        obtain ⟨hf, rfl⟩ := hc
        exact ⟨.latched (by simp only [latches, hf, ht, decide_true, Bool.and_self]) (wp_left (freeMembers_none t.2)) rfl,
          rfl, id⟩
      next hc =>
        cases h
        rw [Bool.and_eq_true, Bool.not_eq_true', not_and, Bool.not_eq_false] at hc
        refine ⟨.went ?_ (went_of_awake ht Thread.noConfusion rfl rfl rfl fun hl => ?_), rfl, id⟩
        · cases hf : t.1.fail with
          | false => simp only [latches, hf, Bool.false_and]
          | true =>
              obtain rfl := hc hf
              simp only [latches, ht, Option.some.injEq, Thread.waiting.injEq, Bool.true_eq_false, decide_false,
                Bool.and_false]
        · cases hl
          cases hf : t.1.fail with
          | false => rfl
          | true => cases hc hf
  next => cases h

theorem work_cases (h : a.run ps stop t = some t') :
    Worked a t t' ∧ t'.1.active = t.1.active ∧ (t.1.fail = true → t'.1.fail = true) := by
  cases a with
  | fails =>
      cases h
      exact ⟨.went rfl (went_of_thread rfl), rfl, fun _ => rfl⟩
  | enqueue calls =>
      cases h
      exact ⟨.went rfl (went_of_thread rfl), rfl, id⟩
  | wait =>
      simp only [Work.run, enterWait] at h
      split at h
      next f ht =>
        cases h
        exact ⟨.went rfl (went_of_awake ht Thread.noConfusion rfl rfl rfl Thread.noConfusion), rfl, id⟩
      next => cases h
  | look => exact lookFail_worked h
  | handle =>
      obtain ⟨hw, hact, hf⟩ := handleNext_went h
      exact ⟨.went rfl hw, hact, hf⟩

/-- A manager was dismantled only for a device that has failed, and not behind a thread that has seen it whole. -/
structure Sound (t : Device × World) : Prop where
  kept : present t.1 t.2 = true ∨ t.1.fail = true
  looked : t.1.cowThread = some (.looked false) → present t.1 t.2 = true

theorem present_congr {dev dev' : Device} (ha : dev'.active = dev.active) (hh : heldPart w' = heldPart w) :
    present dev' w' = present dev w := by
  obtain ⟨h₁, h₂⟩ := Prod.mk.inj hh
  rw [present, present, ha, h₁, h₂]

theorem faults_of_thread (h : t.1.cowThread = some (.looked false) → present t.1 t.2 = true) : faults t a = false := by
  cases a with
  | handle =>
      rw [faults]
      by_cases hl : t.1.cowThread = some (.looked false)
      · rw [h hl, Bool.not_true, Bool.and_false]
      · rw [decide_eq_false hl, Bool.false_and, Bool.false_and]
  | _ => rfl

theorem Sound.work (h : Sound t) (hr : a.run ps stop t = some t') : Sound t' ∧ t'.1.active = t.1.active := by
  obtain ⟨hw, hact, hf⟩ := work_cases hr
  refine ⟨?_, hact⟩
  cases hw with
  | latched hl hs ht =>
      have hfail : t.1.fail = true := by
        cases a with
        | look => exact (Bool.and_eq_true_iff.mp hl).1
        | _ => cases hl
      exact ⟨.inr (hf hfail), fun hn => by cases ht.symm.trans hn⟩
  | went _ hw =>
      have hp := present_congr hact hw.held
      refine ⟨?_, fun hl => ?_⟩
      · rw [hp]
        exact h.kept.imp_right hf
      · rw [hp]
        rcases hw.looked hl with hl | hfail
        · exact h.looked hl
        · refine h.kept.resolve_right fun hn => ?_
          rw [hfail] at hn
          cases hn

theorem present_whole {dev : Device} (h : Whole w) : present dev w = true := by
  obtain ⟨h₁, h₂⟩ := Prod.mk.inj h
  rw [present, h₁, h₂]
  rfl

theorem Sound.of_whole {dev : Device} (h : Whole w) : Sound (dev, w) :=
  ⟨.inl (present_whole h), fun _ => present_whole h⟩

theorem whole_of_present (hp : present t.1 t.2 = true) (ha : t.1.active = true) : Whole t.2 := by
  rw [present, ha, Bool.not_true, Bool.or_false, Bool.and_eq_true] at hp
  exact Prod.ext hp.1 hp.2

theorem Whole.work (h : Whole t.2) (hl : latches t a = false) (hr : a.run ps stop t = some t') :
    Whole t'.2 ∧ t'.1.active = t.1.active := by
  obtain ⟨hw, hact, -⟩ := work_cases hr
  cases hw with
  | latched hl' => cases hl'.symm.trans hl
  | went _ hw => exact ⟨hw.held.trans h, hact⟩

/-- A device without a thread at work leaves the COW manager alone. -/
theorem work_asleep (h : t.1.cowThread = none ∨ t.1.cowThread = some .created) (hr : a.run ps stop t = some t') :
    t'.1.cowThread = t.1.cowThread ∧ t'.2 = t.2 ∧ t'.1.active = t.1.active := by
  obtain ⟨hw, hact, -⟩ := work_cases hr
  cases hw with
  | latched hl =>
      cases a with
      | look =>
          have ht := of_decide_eq_true (Bool.and_eq_true_iff.mp hl).2
          rw [ht] at h
          rcases h with h | h <;> cases h
      | _ => cases hl
  | went _ hw => exact ⟨(hw.asleep h).1, (hw.asleep h).2, hact⟩

/-- A new device, which is not at work yet. -/
structure Asleep (dev : Device) : Prop where
  cowThread : dev.cowThread = some .created
  active : dev.active = true

/-- What is known of the devices and their managers, by what is under way. -/
def Safe (s : State) : Prop :=
  match s.doing with
  | .idle | .destroying => Sound (s.dev, s.world)
  | .toInc => Sound (s.dev, s.world) ∧ s.dev.active = true
  | .incTraced old => Sound (old, s.world) ∧ old.active = true ∧ Asleep s.dev
  | .incStopped oldFailed => (Whole s.world ∨ oldFailed = true) ∧ Asleep s.dev
  | .incWoken _ | .incWarns _ | .toSnap | .toDormant => Whole s.world
  | .snapTraced _ cow => Whole cow ∧ Whole s.world ∧ Asleep s.dev
  | .snapStopped _ cow => Whole cow ∧ Sound (s.dev, s.world)
  | .dormantStopped => Whole s.world ∧ s.dev.cowThread = none
  | .gone => s.dev.cowThread = none
  | .oops => False

/-- What is under way has seen that the device works, and is about to use its COW manager. -/
def uses (s : State) : Bool → Bool
  | true =>
      match s.doing with
      | .snapTraced .. => true
      | _ => false
  | false =>
      match s.doing with
      | .incWoken _ | .incWarns _ | .toSnap | .toDormant => true
      | _ => false

/-- No thread dismantles a manager that what is under way is about to use, and the hooks find the device as they saw
it: an unmount with its manager whole, a mount without a thread. -/
def Steady (s : State) : Action → Prop
  | .work old a => (uses s old && (s.side old).any fun t => latches t a) = false
  | .umount => Whole s.world
  | .mount _ => s.dev.cowThread = none
  | _ => True

instance (s : State) (x : Action) : Decidable (Steady s x) :=
  match x with
  | .work .. => inferInstanceAs (Decidable (_ = false))
  | .umount => inferInstanceAs (Decidable (heldPart s.world = (true, true)))
  | .mount _ => inferInstanceAs (Decidable (s.dev.cowThread = none))
  | .transitionInc | .traceInc _ | .transitionSnap | .traceSnap .. | .stopThread | .readFailState | .truncate | .warn
  | .syncAndFree | .seeUmount | .syncAndClose | .umounted _ | .seeMount | .reconfigure _ | .destroy _ | .free =>
      .isTrue trivial

theorem Asleep.faults {dev : Device} (h : Asleep dev) : faults (dev, w) a = false :=
  faults_of_thread fun hl => by cases h.cowThread.symm.trans hl

theorem Asleep.work (h : Asleep t.1) (hr : a.run ps stop t = some t') : Asleep t'.1 ∧ t'.2 = t.2 := by
  obtain ⟨ht, hw, hact⟩ := work_asleep (.inr h.cowThread) hr
  exact ⟨⟨ht.trans h.cowThread, hact.trans h.active⟩, hw⟩

theorem Safe.faults (h : Safe s) (ht : s.side old = some t) : faults t a = false := by
  obtain ⟨dev, world, doing, umounts, checks, mounts, finished⟩ := s
  cases old with
  | true =>
      cases doing with
      | incTraced o =>
          cases ht
          exact faults_of_thread h.1.looked
      | snapTraced o cow =>
          cases ht
          exact faults_of_thread fun _ => present_whole h.1
      | _ => cases ht
  | false =>
      cases ht
      cases doing with
      | idle | destroying => exact faults_of_thread h.looked
      | toInc => exact faults_of_thread h.1.looked
      | incTraced o | snapTraced o cow => exact h.2.2.faults
      | incStopped f => exact h.2.faults
      | incWoken f | incWarns f | toSnap | toDormant => exact faults_of_thread fun _ => present_whole h
      | snapStopped f cow => exact faults_of_thread h.2.looked
      | dormantStopped => exact faults_of_thread fun hl => by cases h.2.symm.trans hl
      | gone => exact faults_of_thread fun hl => by cases (Eq.symm h).trans hl
      | oops => exact h.elim

theorem Safe.put (h : Safe s) (hl : uses s old = true → latches t a = false) (ht : s.side old = some t)
    (hr : a.run ps stop t = some t') : Safe (s.put old t') := by
  obtain ⟨dev, world, doing, umounts, checks, mounts, finished⟩ := s
  obtain ⟨dev', world'⟩ := t'
  cases old with
  | true =>
      cases doing with
      | incTraced o =>
          cases ht
          obtain ⟨hs, hact⟩ := h.1.work hr
          exact ⟨hs, hact.trans h.2.1, h.2.2⟩
      | snapTraced o cow =>
          cases ht
          exact ⟨(Whole.work h.1 (hl rfl) hr).1, h.2⟩
      | _ => cases ht
  | false =>
      cases ht
      cases doing with
      | idle | destroying => exact (Sound.work h hr).1
      | toInc =>
          obtain ⟨hs, hact⟩ := h.1.work hr
          exact ⟨hs, hact.trans h.2⟩
      | incTraced o =>
          obtain ⟨hd, hw⟩ := h.2.2.work hr
          obtain rfl : world' = world := hw
          exact ⟨h.1, h.2.1, hd⟩
      | incStopped f =>
          obtain ⟨hd, hw⟩ := h.2.work hr
          obtain rfl : world' = world := hw
          exact ⟨h.1, hd⟩
      | incWoken f | incWarns f | toSnap | toDormant =>
          have hw : Whole world := h
          exact (hw.work (t := (dev, world)) (hl rfl) hr).1
      | snapTraced o cow =>
          obtain ⟨hd, hw⟩ := h.2.2.work hr
          obtain rfl : world' = world := hw
          exact ⟨h.1, h.2.1, hd⟩
      | snapStopped f cow => exact ⟨h.1, (h.2.work hr).1⟩
      | dormantStopped =>
          obtain ⟨hd, hw, -⟩ := work_asleep (.inl h.2) hr
          obtain rfl : world' = world := hw
          exact ⟨h.1, hd.trans h.2⟩
      | gone =>
          have hn : dev.cowThread = none := h
          exact (work_asleep (.inl hn) hr).1.trans hn
      | oops => exact h.elim

theorem Safe.stopThread (h : Safe s) (hs : tracerDestroyCowThread s = some s') : Safe s' := by
  obtain ⟨dev, world, doing, umounts, checks, mounts, finished⟩ := s
  cases doing with
  | incTraced o =>
      simp only [tracerDestroyCowThread, Option.ite_none_right_eq_some, Option.some.injEq] at hs
      obtain ⟨_, rfl⟩ := hs
      exact ⟨h.1.kept.imp_left fun hp => whole_of_present hp h.2.1, h.2.2⟩
  | snapTraced o cow =>
      simp only [tracerDestroyCowThread, Option.ite_none_right_eq_some, Option.some.injEq] at hs
      obtain ⟨_, rfl⟩ := hs
      exact ⟨h.1, .of_whole h.2.1⟩
  | toDormant =>
      simp only [tracerDestroyCowThread, Option.ite_none_right_eq_some, Option.some.injEq] at hs
      obtain ⟨_, rfl⟩ := hs
      exact ⟨h, rfl⟩
  | _ => cases hs

theorem Safe.traceSnap {elements fileMax : UInt64} {cacheSize : Nat} {ok : Bool} (h : Whole s.world) :
    Safe (tracerActiveIncToSnap ps s elements fileMax cacheSize w ok) := by
  unfold tracerActiveIncToSnap
  split
  next w' hw =>
    have hwhole := wp_ok cowInit_held hw
    split
    next => exact ⟨h, hwhole, rfl, rfl⟩
    next => exact Sound.of_whole h
  next => exact Sound.of_whole h

theorem Safe.readFailState {f : Bool} (h : Whole s.world ∨ f = true) : Safe (readFailState s f) := by
  unfold Handovers.readFailState
  split
  next => exact ⟨.inr rfl, fun hn => by cases hn⟩
  next hf => exact h.resolve_right hf

theorem Safe.truncate {f : Bool} (h : Whole s.world) : Safe (truncateToIndex s f) := by
  unfold truncateToIndex
  rw [if_pos (Prod.mk.inj h).2]
  split
  next w hw => exact Sound.of_whole ((wp_ok (preserves_cowTruncateToIndex s.world) hw).trans h)
  next w hw => exact (wp_error (preserves_cowTruncateToIndex s.world) hw).trans h

theorem Safe.syncAndClose (h : Whole s.world) (hd : s.dev.cowThread = none) :
    Safe (tracerDestroyCowSyncAndClose ps s) := by
  obtain ⟨hsects, hfilp⟩ := Prod.mk.inj h
  unfold tracerDestroyCowSyncAndClose
  rw [hsects, hfilp, Bool.and_self, if_pos rfl]
  split
  next w hw =>
    have hs := wp_ok (cowSyncAndClose_held h) hw
    refine ⟨.inl ?_, fun hl => by cases hd.symm.trans hl⟩
    simp only [present, hs, Bool.not_false, Bool.or_true, Bool.and_self]
  next => exact ⟨.inr rfl, fun hl => by cases hd.symm.trans hl⟩

theorem Safe.mount {ok : Bool} (h : Sound (s.dev, s.world)) (hd : s.dev.cowThread = none) (hi : s.doing = .idle) :
    Safe (tracerDormantToActive s ok) := by
  have hidle : ∀ {dev : Device} {w : World}, Sound (dev, w) → Safe { s with dev := dev, world := w } := by
    intro dev w hs
    rw [Safe, hi]
    exact hs
  unfold tracerDormantToActive
  split
  next w hw =>
    split
    next =>
      obtain ⟨hsects, hfilp⟩ := wp_ok cowReopen_held hw
      refine hidle ⟨?_, fun hl => by cases hl⟩
      refine h.kept.imp_left fun hp => ?_
      refine present_whole (Prod.ext ?_ hfilp)
      exact hsects.trans (Bool.and_eq_true_iff.mp hp).1
    next => exact hidle ⟨.inr rfl, fun hl => by cases hl⟩
  next => exact hidle ⟨.inr rfl, fun hl => by cases hd.symm.trans hl⟩

theorem Safe.reconfigure {cacheSize : Nat} (h : Safe s) (hi : s.doing = .idle) :
    Safe (tracerReconfigure ps cacheSize s) := by
  unfold tracerReconfigure
  split
  next =>
    rw [Safe, hi] at h ⊢
    have hheld : heldPart (left (cowModifyCacheSize ps cacheSize s.world)) = heldPart s.world := rfl
    have hp : present s.dev (left (cowModifyCacheSize ps cacheSize s.world)) = present s.dev s.world :=
      present_congr rfl hheld
    exact ⟨h.kept.imp_left hp.trans, fun hl => hp.trans (h.looked hl)⟩
  next => exact h

theorem mayLeave_iff {snapshot : Bool} (h : mayLeave s snapshot = true) : s.dev.fail = false ∧ s.dev.active = true := by
  simp only [mayLeave, Bool.and_eq_true, Bool.not_eq_true'] at h
  exact h.1

theorem Safe.step {x : Action} (h : Safe s) (hc : Steady s x) (hs : Step ps s x s') : Safe s' := by
  cases hs with
  | faults ht hf => cases hf.symm.trans (h.faults ht)
  | work ht _ hr =>
      refine h.put (fun hu => ?_) ht hr
      rw [Steady, ht, hu] at hc
      exact hc
  | transitionInc hi hm =>
      rw [Safe, hi] at h
      exact ⟨h, (mayLeave_iff hm).2⟩
  | traceInc ok hi =>
      rw [Safe, hi] at h
      cases ok with
      | true => exact ⟨h.1, h.2, rfl, rfl⟩
      | false => exact h.1
  | transitionSnap hi hm =>
      rw [Safe, hi] at h
      obtain ⟨hf, hact⟩ := mayLeave_iff hm
      refine whole_of_present (t := (s.dev, s.world)) (h.kept.resolve_right fun hn => ?_) hact
      cases hf.symm.trans hn
  | traceSnap _ _ _ _ _ hi =>
      rw [Safe, hi] at h
      exact .traceSnap h
  | stopThread hs => exact h.stopThread hs
  | readFailState hi =>
      rw [Safe, hi] at h
      exact .readFailState h.1
  | truncate hi =>
      rw [Safe, hi] at h
      exact .truncate h
  | warn hi =>
      rw [Safe, hi] at h
      rw [warnTruncation, if_pos (Prod.mk.inj h).2]
      exact Sound.of_whole h
  | syncAndFree hi =>
      rw [Safe, hi] at h
      obtain ⟨hsects, hfilp⟩ := Prod.mk.inj h.1
      rw [tracerDestroyCowSyncAndFree, hsects, hfilp, Bool.and_self, if_pos rfl]
      exact h.2
  | umount => exact hc
  | syncAndClose hi =>
      rw [Safe, hi] at h
      exact .syncAndClose h.1 h.2
  | mount ok n hi =>
      rw [Safe, hi] at h
      exact .mount h hc hi
  | reconfigure _ hi => exact .reconfigure h hi
  | destroy last hi =>
      rw [Safe, hi] at h
      rw [tracerDestroy]
      split
      next => exact ⟨h.kept, fun hl => by cases hl⟩
      next => exact h
  | free => rfl
  | seeUmount | seeMount | umounted => exact h

theorem safe_begins (h : Begins ps s) : Safe s := by
  cases h with
  | setup h =>
      have hw := wp_ok cowInit_held h
      exact Sound.of_whole hw
  | reload h =>
      have hw := wp_ok cowReload_held h
      exact Sound.of_whole hw

/-- In a run in which no thread dismantles a manager between a check of the fail state and the use that follows it,
no pointer is followed that is not there. -/
theorem dismantled_never_used (h₀ : Begins ps s₀) (h : Reach (step ps) Steady s₀ s) : s.doing ≠ .oops := by
  have hsafe := h.invariant (safe_begins h₀) fun _ _ _ hs hc hstep => hs.step hc (step_of hstep)
  intro hn
  rw [Safe, hn] at hsafe
  exact hsafe

def setUp : World := left (cowInit 12 8 (cowSectionSize 12) 65536 65536 (fun _ => 0) 1 Cow.Start.calm)

theorem begins_setUp : Begins 12 (.created true setUp) := by
  obtain ⟨w, hw, -⟩ := Cow.Start.cowInit_total 8 65536 1 65536 (fun _ => 0) (w := Cow.Start.calm) (by decide)
    (by decide) (by decide) Cow.Start.calm_faultless
  have h : cowInit 12 8 (cowSectionSize 12) 65536 65536 (fun _ => 0) 1 Cow.Start.calm = .ok () setUp := by
    rw [setUp, cowSectionSize_four_kib, hw]
    rfl
  exact .setup h

def writeFive : List Action :=
  [.work false (.enqueue [.writeFillerMapping 5]), .work false .wait, .work false .look, .work false .handle]

def toInc : List Action := [.transitionInc, .traceInc true, .stopThread, .readFailState, .truncate]

/-- A dormant cycle, a transition to incremental mode whose old device fails, and the end of the device. -/
def failsInTransition : List Action := writeFive ++
  [.seeUmount, .umount, .stopThread, .syncAndClose, .umounted true, .seeMount, .mount true, .transitionInc,
   .traceInc true, .work true .fails, .work true .wait, .work true .look, .work true .handle, .stopThread,
   .readFailState] ++ writeFive ++ [.destroy true, .free]

theorem dismantled_never_used_example : ∃ s, run (step 12) (.created true setUp) failsInTransition = some s ∧
    s.world.cm.sects.isNone = true ∧ s.finished = [⟨true, true, true, false⟩] ∧ s.doing ≠ .oops := by
  have h : (run (step 12) (.created true setUp) failsInTransition).map
      (fun s => (s.world.cm.sects.isNone, s.finished)) = some (true, [⟨true, true, true, false⟩]) := by decide +kernel
  have ha : Allowed (step 12) Steady (.created true setUp) failsInTransition := by decide +kernel
  obtain ⟨s, hs, hv⟩ := Option.map_eq_some_iff.mp h
  obtain ⟨hsects, hfin⟩ := Prod.mk.inj hv
  exact ⟨s, hs, hsects, hfin, dismantled_never_used begins_setUp (Reach.init.run hs ha)⟩

/-- The device fails once the transition has seen that it works, and its thread wakes up to be stopped. -/
def failsUnseen : List Action := toInc ++
  [.work false .wait, .transitionSnap, .work false .fails, .traceSnap 8 65536 65536 Cow.Start.calm true,
   .work true .look, .work true .handle, .stopThread, .syncAndFree]

def isOops : Doing → Bool
  | .oops => true
  | _ => false

theorem dismantled_used : ∃ s₀ as s, Begins 12 s₀ ∧ run (step 12) s₀ as = some s ∧ s.doing = .oops := by
  have h : (run (step 12) (.created true setUp) failsUnseen).map (fun s => isOops s.doing) = some true := by
    decide +kernel
  obtain ⟨s, hs, ho⟩ := Option.map_eq_some_iff.mp h
  refine ⟨_, _, s, begins_setUp, hs, ?_⟩
  cases hd : s.doing with
  | oops => rfl
  | _ =>
      rw [hd] at ho
      cases ho

end ElastioSnap.Driver.Dismantled
