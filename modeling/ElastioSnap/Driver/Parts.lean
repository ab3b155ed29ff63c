import ElastioSnap.Driver.Events

namespace ElastioSnap.Driver.Parts

open Lib.Outcome State Setup Events
open Cow.Manager (Errno Err)

section

variable {σ : Type} {R : σ → σ → Prop} [Std.Refl R] [Trans R R R] {x g : EStateM Err σ Unit}

omit [Std.Refl R] [Trans R R R] in
theorem relates_attempt (h : Relates R x) : Relates R (attempt x) := by
  intro s
  have hs := h s
  unfold wp attempt at *
  cases hx : x s with
  | ok _ t =>
      rw [hx] at hs
      exact hs
  | error e t =>
      rw [hx] at hs
      cases e <;> exact hs

theorem relates_onCode (hx : Relates R x) (hg : Relates R g) : Relates R (onCode x g) := by
  refine (relates_attempt hx).bind fun r => ?_
  cases r with
  | none => exact relates_pure
  | some e => exact hg.bind fun _ => relates_throw

end

section

variable {env : Env}

/-- The minor of a device and its tracing operations. -/
def seat (dev : SnapDevice) : Nat × Option Nat := (dev.minor, dev.tracingOps)

/-- The device stays where it is: what is done concerns other parts of it. -/
def Stays (l l' : Local) : Prop := seat l'.dev = seat l.dev

instance : Std.Refl Stays := ⟨fun _ => rfl⟩

instance : Trans Stays Stays Stays := ⟨fun h h' => h'.trans h⟩

theorem stays_modifyDev {f : SnapDevice → SnapDevice} (h : ∀ dev, seat (f dev) = seat dev) :
    Relates Stays (modifyDev f) := fun l => h l.dev

theorem stays_setMode {snapshot active unverified : Bool} : Relates Stays (setMode snapshot active unverified) :=
  stays_modifyDev fun _ => by rfl

/-- The parts of a device that the work on its components leaves alone. -/
def core (dev : SnapDevice) : Nat × Bool × Bool × Option Nat := (dev.minor, dev.active, dev.unverified, dev.tracingOps)

def inert (dev : SnapDevice) : (Nat × Bool × Bool × Option Nat) × Option Errno := (core dev, dev.failCode)

/-- The work concerns other parts of the device, and does not make a failure forgotten. -/
structure Meek (l l' : Local) : Prop where
  core : core l'.dev = core l.dev
  failed : l.dev.failCode.isSome = true → l'.dev.failCode.isSome = true

instance : Std.Refl Meek := ⟨fun _ => ⟨rfl, fun h => h⟩⟩

instance : Trans Meek Meek Meek := ⟨fun h h' => ⟨h'.core.trans h.core, fun hf => h'.failed (h.failed hf)⟩⟩

theorem stays_of {α : Type} {x : DevM α} (h : Relates Meek x) : Relates Stays x := by
  have hstay : ∀ {l l' : Local}, Meek l l' → Stays l l' := by
    intro l l' hl
    have hminor := congrArg (fun c => c.1) hl.core
    have hops := congrArg (fun c => c.2.2.2) hl.core
    exact Prod.ext hminor hops
  exact fun l => wp_mono (h l) (fun _ _ hl => hstay hl) fun _ _ hl => hstay hl

theorem meek_modifyDev {f : SnapDevice → SnapDevice} (h : ∀ dev, inert (f dev) = inert dev) :
    Relates Meek (modifyDev f) := by
  intro l
  obtain ⟨hcore, hfail⟩ := Prod.mk.inj (h l.dev)
  exact ⟨hcore, fun hf => by rw [← hf]; exact congrArg Option.isSome hfail⟩

theorem meek_devCall : Relates Meek devCall := fun _ => ⟨rfl, fun h => h⟩

theorem meek_devTick : Relates Meek (devTick env) := by
  refine meek_devCall.bind fun n => ?_
  cases env.fault n with
  | none => exact relates_pure
  | some e => exact relates_throw

theorem meek_failState {e : Errno} : Relates Meek (tracerSetFailState e) := fun _ => ⟨rfl, fun _ => rfl⟩

theorem meek_drain : Relates Meek (drainCowThread env) := by
  have hlast : Relates Meek (do
      let n ← devCall
      modifyDev fun dev => if dev.failCode.isSome && env.notices n then cowFreeMembers dev else dev) := by
    refine meek_devCall.bind fun n => meek_modifyDev fun dev => ?_
    split <;> rfl
  refine meek_devCall.bind fun n => ?_
  cases env.fault n with
  | none => exact hlast
  | some e => exact meek_failState.bind fun _ => hlast

theorem meek_destroyCowThread : Relates Meek (tracerDestroyCowThread env) := by
  refine relates_get.bind fun l => Relates.ite ?_ relates_pure
  refine (meek_modifyDev fun _ => by rfl).bind fun _ => Relates.ite ?_ ?_
  · exact meek_drain.bind fun _ => meek_modifyDev fun _ => by rfl
  · exact (meek_modifyDev fun _ => by rfl)

theorem meek_closeCow {c : CowState} {method : CloseMethod} : Relates Meek (closeCow env c method) := by
  have hfault : ∀ {f g : SnapDevice → SnapDevice}, (∀ dev, inert (f dev) = inert dev) → (∀ dev, inert (g dev) = inert dev) →
      Relates Meek (do
        onCode (devTick env) (modifyDev f)
        modifyDev g) :=
    fun hf hg => (relates_onCode meek_devTick (meek_modifyDev hf)).bind fun _ => meek_modifyDev hg
  cases method with
  | free => exact meek_modifyDev (f := fun dev => { dev with cow := none }) fun _ => by rfl
  | syncAndFree => exact Relates.ite (relates_throw.bind fun _ => hfault (fun _ => rfl) fun _ => rfl) (hfault (fun _ => rfl) fun _ => rfl)
  | syncAndClose => exact Relates.ite (relates_throw.bind fun _ => hfault (fun _ => rfl) fun _ => rfl) (hfault (fun _ => rfl) fun _ => rfl)

theorem meek_destroyCow {method : CloseMethod} : Relates Meek (tracerDestroyCow env method) := by
  refine (relates_attempt (relates_get.bind fun l => ?_)).bind fun r => (meek_modifyDev fun _ => by rfl).bind fun _ => ?_
  · cases l.dev.cow with
    | none => exact relates_pure
    | some c => exact meek_closeCow
  · cases r with
    | none => exact relates_pure
    | some e => exact relates_throw

theorem meek_reopenCow : Relates Meek (reopenCow env) := by
  refine relates_get.bind fun l => ?_
  cases l.dev.cow with
  | none => exact relates_throw
  | some c => exact (relates_onCode meek_devTick (meek_modifyDev fun _ => by rfl)).bind fun _ => meek_modifyDev fun _ => by rfl

theorem meek_setupCow {size cacheSize : Nat} {method : OpenMethod} :
    Relates Meek (tracerSetupCow env size cacheSize method) := by
  have hopen : Relates Meek (do
      if method = .reopen then reopenCow env
      else
        modifyDev fun dev => { dev with cacheSize := cacheOrDefault env cacheSize }
        devTick env
        modifyDev fun dev => { dev with cow := some (openedCow env size dev.cacheSize) }) :=
    Relates.ite meek_reopenCow
      ((meek_modifyDev fun _ => by rfl).bind fun _ => meek_devTick.bind fun _ => (meek_modifyDev fun _ => by rfl))
  exact relates_onCode (Relates.ite (meek_devTick.bind fun _ => hopen) hopen) (Relates.ite relates_pure meek_destroyCow)

theorem meek_setupCowPath : Relates Meek (tracerSetupCowPath env) := by
  refine relates_onCode (meek_devCall.bind fun n => ?_) (meek_modifyDev fun _ => by rfl)
  cases env.fault n with
  | none => exact (meek_modifyDev fun _ => by rfl)
  | some e => exact relates_throw

theorem meek_setupSnap : Relates Meek (tracerSetupSnap env) :=
  relates_onCode
    (meek_devTick.bind fun _ => meek_devTick.bind fun _ => (meek_modifyDev fun _ => by rfl).bind fun _ =>
      meek_devTick.bind fun _ => meek_devTick.bind fun _ => (meek_modifyDev fun _ => by rfl))
    (meek_modifyDev fun _ => by rfl)

theorem meek_setupCowThread : Relates Meek (tracerSetupCowThread env) :=
  meek_devTick.bind fun _ => meek_modifyDev fun _ => by rfl

theorem meek_wakeUp : Relates Meek wakeUpProcess :=
  relates_get.bind fun _ => Relates.ite (relates_throw.bind fun _ => (meek_modifyDev fun _ => by rfl)) (meek_modifyDev fun _ => by rfl)

theorem meek_stripParts : Relates Meek (do
    tracerDestroyCowThread env
    tracerDestroySnap
    tracerDestroyCowPath
    tracerDestroyCow env .free
    tracerDestroyBaseDev) :=
  meek_destroyCowThread.bind fun _ => (meek_modifyDev fun _ => by rfl).bind fun _ => (meek_modifyDev fun _ => by rfl).bind fun _ =>
    meek_destroyCow.bind fun _ => meek_modifyDev fun _ => by rfl

theorem meek_copyCow {src : SnapDevice} : Relates Meek (tracerCopyCow src) :=
  Relates.ite (relates_throw.bind fun _ => (meek_modifyDev fun _ => by rfl)) (meek_modifyDev fun _ => by rfl)

theorem meek_reconfigure {cacheSize : Nat} : Relates Meek (tracerReconfigure env cacheSize) := by
  refine (meek_modifyDev fun _ => by rfl).bind fun _ => relates_get.bind fun l => Relates.ite ?_ relates_pure
  cases l.dev.cow with
  | none => exact relates_throw
  | some c => exact (meek_modifyDev fun _ => by rfl)

theorem meek_truncate : Relates Meek cowTruncateToIndex := by
  refine relates_get.bind fun l => ?_
  cases l.dev.cow with
  | none => exact relates_throw
  | some c => exact Relates.ite relates_throw relates_pure

theorem meek_wakeParts : Relates Meek (do
    tracerSetupSnap env
    tracerSetupCowThread env
    wakeUpProcess) := meek_setupSnap.bind fun _ => meek_setupCowThread.bind fun _ => meek_wakeUp

end

section

variable {env : Env} {a : Nat}

/-- The state but for the number of calls that were made. -/
def still (d : DriverState) : DriverState := d.atCall 0

theorem still_call : Preserves still call := fun _ => rfl

theorem still_tick : Preserves still (tick env) := by
  refine still_call.bind fun n => ?_
  cases env.fault n with
  | none => exact preserves_pure
  | some e => exact preserves_throw

theorem still_check {e : Errno} : Preserves still (check env e) := by
  refine still_call.bind fun n => ?_
  cases env.fault n with
  | none => exact preserves_pure
  | some e => exact preserves_throw

theorem still_getDev : Preserves still (getDev a) := by
  intro d
  unfold wp getDev
  cases d.devs a <;> rfl

theorem still_getBdOps {dev : SnapDevice} : Preserves still (getBdOps env dev) := by
  intro d
  unfold wp getBdOps
  cases dev.baseDev <;> rfl

theorem still_findTracer {p : Nat → SnapDevice → DriverM Bool} (hp : ∀ a dev, Preserves still (p a dev))
    (is : List Nat) : Preserves still (findTracer p is) := by
  induction is with
  | nil => exact preserves_pure
  | cons i is ih =>
      refine preserves_get.bind fun d => ?_
      cases d.snapDevices i with
      | none => exact ih
      | some a =>
          refine still_getDev.bind fun dev => (hp a dev).bind fun r => ?_
          cases r with
          | true => exact preserves_pure
          | false => exact ih

theorem still_tracerForEach {p : Nat → SnapDevice → DriverM Bool} (hp : ∀ a dev, Preserves still (p a dev)) :
    Preserves still (tracerForEach p) := preserves_get.bind fun _ => still_findTracer hp _

theorem still_tracerOnOps {ops : Ops} {skip : Option Nat} : Preserves still (tracerOnOps env ops skip) :=
  still_tracerForEach fun _ _ => Preserves.ite preserves_pure (still_getBdOps.bind fun _ => preserves_pure)

end

section

variable {env : Env} {a b minor : Nat}

theorem preserves_transitionTracing {o : Option Ops} {start : Bool} :
    Preserves DriverState.devs (tracerTransitionTracing env a b o minor start) := by
  refine (still_call.comp DriverState.devs).bind fun n => ?_
  have hset : Preserves DriverState.devs (setBdOps env b o) := by
    cases o with
    | none => exact preserves_pure
    | some new => exact (preserves_modify fun _ => by rfl)
  cases env.freeze n with
  | some e => exact preserves_throw
  | none =>
      cases start with
      | true => exact Preserves.bind (preserves_modify fun _ => by rfl) fun _ => hset
      | false => exact hset.bind fun _ => (preserves_modify fun _ => by rfl)

theorem preserves_opsGet {t : Nat} : Preserves DriverState.devs (tracingOpsGet t) := by
  intro d
  unfold wp tracingOpsGet
  cases d.ops.refs t <;> rfl

theorem preserves_opsPut {t : Nat} : Preserves DriverState.devs (tracingOpsPut t) := by
  intro d
  unfold wp tracingOpsPut
  cases d.ops.refs t <;> rfl

theorem preserves_modifyOps {f : OpsState → OpsState} : Preserves DriverState.devs (modifyOps f) :=
  preserves_modify fun _ => by rfl

/-- Every device in memory was there, and has changed as `R` allows. -/
def Held (R : SnapDevice → SnapDevice → Prop) (d d' : DriverState) : Prop :=
  ∀ c dev', d'.devs c = some dev' → ∃ dev, d.devs c = some dev ∧ R dev dev'

instance (R : SnapDevice → SnapDevice → Prop) [Std.Refl R] : Std.Refl (Held R) :=
  ⟨fun _ _ dev' h => ⟨dev', h, Std.Refl.refl dev'⟩⟩

instance (R : SnapDevice → SnapDevice → Prop) [Trans R R R] : Trans (Held R) (Held R) (Held R) where
  trans h h' c dev'' hdev := by
    obtain ⟨dev', hdev', hr'⟩ := h' c dev'' hdev
    obtain ⟨dev, hdev, hr⟩ := h c dev' hdev'
    exact ⟨dev, hdev, Trans.trans hr hr'⟩

section

variable {α : Type} {R S : SnapDevice → SnapDevice → Prop} {x : DriverM α}

theorem held_mono (h : Relates (Held R) x) (hr : ∀ dev dev', R dev dev' → S dev dev') : Relates (Held S) x := by
  have hheld : ∀ {d d' : DriverState}, Held R d d' → Held S d d' := by
    intro d d' hd c dev' hdev
    obtain ⟨dev, hdev, hrel⟩ := hd c dev' hdev
    exact ⟨dev, hdev, hr _ _ hrel⟩
  exact fun d => wp_mono (h d) (fun _ _ hd => hheld hd) fun _ _ hd => hheld hd

variable [Std.Refl R]

theorem held_same (h : Preserves DriverState.devs x) : Relates (Held R) x :=
  h.relates fun s t hst c dev' hdev => ⟨dev', by rw [← hst]; exact hdev, Std.Refl.refl dev'⟩

theorem held_still (h : Preserves still x) : Relates (Held R) x := held_same (h.comp DriverState.devs)

theorem held_onDev {y : DevM α} (h : Relates (fun l l' => R l.dev l'.dev) y) : Relates (Held R) (onDev a y) := by
  intro d
  unfold wp onDev
  cases hd : d.devs a with
  | none => exact fun c dev' hdev => ⟨dev', hdev, Std.Refl.refl dev'⟩
  | some dev =>
      have hput : ∀ {l : Local}, R dev l.dev → Held R d (d.put a l) := by
        intro l hl c dev' hdev
        by_cases hc : c = a
        · subst hc
          obtain rfl := Option.some.inj (put_devs.symm.trans hdev)
          exact ⟨dev, hd, hl⟩
        · exact ⟨dev', (put_devs_of_ne hc).symm.trans hdev, Std.Refl.refl dev'⟩
      have hwp := h ⟨dev, d.clock⟩
      unfold wp at hwp
      dsimp only
      cases hrun : y ⟨dev, d.clock⟩ with
      | ok r l =>
          rw [hrun] at hwp
          exact hput hwp
      | error e l =>
          rw [hrun] at hwp
          exact hput hwp

theorem held_kfree : Relates (Held R) (kfree a) := by
  intro d c dev' hdev
  by_cases hc : c = a
  · subst hc
    cases (Function.update_self ..).symm.trans hdev
  · exact ⟨dev', (Function.update_of_ne hc ..).symm.trans hdev, Std.Refl.refl dev'⟩

end

/-- The minor and the state of a device are as before, and a failure is not forgotten. -/
structure Modest (dev dev' : SnapDevice) : Prop where
  minor : dev'.minor = dev.minor
  active : dev'.active = dev.active
  unverified : dev'.unverified = dev.unverified
  failed : dev.failCode.isSome = true → dev'.failCode.isSome = true

instance : Std.Refl Modest := ⟨fun _ => ⟨rfl, rfl, rfl, fun h => h⟩⟩

instance : Trans Modest Modest Modest where
  trans h h' := ⟨h'.minor.trans h.minor, h'.active.trans h.active, h'.unverified.trans h.unverified,
    fun hf => h'.failed (h.failed hf)⟩

theorem Meek.modest {l l' : Local} (h : Meek l l') : Modest l.dev l'.dev where
  minor := congrArg (fun c => c.1) h.core
  active := congrArg (fun c => c.2.1) h.core
  unverified := congrArg (fun c => c.2.2.1) h.core
  failed := h.failed

theorem modest_dev {α : Type} {y : DevM α} (h : Relates Meek y) : Relates (Held Modest) (onDev a y) :=
  held_onDev fun l => wp_mono (h l) (fun _ _ hl => hl.modest) fun _ _ hl => hl.modest

/-- The operations of a device may change where its minor and its state do not. -/
theorem modest_setOps {o : SnapDevice → Option Ops} {t : SnapDevice → Option Nat} : Relates (Held Modest)
    (onDev a (modifyDev fun dev => { dev with origOps := o dev, tracingOps := t dev })) :=
  held_onDev fun _ => ⟨rfl, rfl, rfl, fun h => h⟩

theorem modest_freeMrfAndOps : Relates (Held Modest) (freeMrfAndOps a) := by
  refine (held_still still_getDev).bind fun dev => ?_
  cases dev.tracingOps with
  | none => exact modest_setOps
  | some t => exact (held_same preserves_opsPut).bind fun _ => modest_setOps

theorem modest_findOrigFops : Relates (Held Modest) (findOrigFops env a) := by
  refine (held_still still_getDev).bind fun dev => (held_still still_getBdOps).bind fun ops =>
    (modest_setOps (o := fun dev => dev.origOps) (t := fun _ => none)).bind fun _ => ?_
  cases ops with
  | native n =>
      exact (held_still still_check).bind fun _ => modest_setOps (o := fun _ => some (.native n)) (t := fun dev => dev.tracingOps)
  | copy t =>
      refine (held_still still_tracerOnOps).bind fun found => ?_
      cases found with
      | none => exact (modest_setOps (o := fun _ => none) (t := fun dev => dev.tracingOps)).bind fun _ => relates_throw
      | some c =>
          refine (held_still still_getDev).bind fun cur => ?_
          cases cur.tracingOps with
          | none => exact modest_setOps
          | some t => exact (held_same preserves_opsGet).bind fun _ => modest_setOps

theorem modest_opsAlloc : Relates (Held Modest) (tracingOpsAlloc env a) := by
  refine (held_still still_check).bind fun _ => (held_still still_check).bind fun _ => relates_get.bind fun d => ?_
  dsimp only
  exact Relates.bind (held_same preserves_modifyOps) fun _ =>
    modest_setOps (o := fun dev => dev.origOps) (t := fun _ => some d.ops.nextOps)

theorem modest_flush : Relates (Held Modest) (flushBioRequests env a) :=
  (relates_attempt (modest_dev meek_setupCowThread)).bind fun _ => (modest_dev meek_wakeUp).bind fun _ =>
    modest_dev meek_destroyCowThread

theorem modest_setupBaseDev {path : Path} : Relates (Held Modest) (tracerSetupBaseDev env a path) := by
  refine relates_onCode ((held_still still_call).bind fun n => ?_) (modest_dev (meek_modifyDev fun _ => by rfl))
  cases env.blkdevGetByPath n path with
  | error e => exact relates_throw
  | ok b =>
      have hend : Relates (Held Modest) (do
          tick env
          onDev a (modifyDev fun dev => { dev with
            bdevPath := some (env.absolute n path)
            size := env.capacity n b })) :=
        (held_still still_tick).bind fun _ => modest_dev (meek_modifyDev fun _ => by rfl)
      refine (modest_dev (meek_modifyDev fun _ => by rfl)).bind fun _ => (held_still still_check).bind fun _ =>
        Relates.bind (held_still ?_) fun r => ?_
      · exact (still_tracerForEach fun _ _ => preserves_pure).bind fun _ => preserves_pure
      · cases r with
        | true => exact relates_throw.bind fun _ => hend
        | false => exact hend

end

end ElastioSnap.Driver.Parts
