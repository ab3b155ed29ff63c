import ElastioSnap.Driver.Mounts
import ElastioSnap.Lib.Runs

namespace ElastioSnap.Driver.Steps

open Lib.Outcome State Setup Events Component Rows Tracing Effects Hooks Walk Setups Ioctls Transitions Mounts
open Cow.Manager (Errno Err)

variable {env : Env} {native : Nat → Nat} {d d' : DriverState} {event : Event}

/-- What a request that was granted did. -/
def Done (env : Env) (d : DriverState) (event : Event) (d' : DriverState) : Prop :=
  match event with
  | .setupSnap m _ _ _ | .reloadSnap m _ _ _ | .reloadInc m _ _ _ | .reconfigure m _ =>
      ∃ dev, RowChange env d.clock d.row event m (some dev) ∧ d'.row = Function.update d.row m (some dev)
  | _ => True

/-- A request that was refused did nothing. -/
def Undone (d : DriverState) (event : Event) (d' : DriverState) : Prop :=
  match event with
  | .setupSnap _ _ _ _ | .reloadSnap _ _ _ _ | .reloadInc _ _ _ _ | .reconfigure _ _ => d'.row = d.row
  | _ => True

theorem exec_wp (hs : Sound env d) (event : Event) :
    wp (exec env event) d (fun _ d' => Passed env event d d' ∧ Done env d event d')
      (Fails fun _ d' => Passed env event d d' ∧ Undone d event d') := by
  have hother : ∀ {event : Event} {x : DriverM Unit},
      wp x d (fun _ d' => Passed env event d d') (Fails fun _ d' => Passed env event d d') →
      (∀ d', Done env d event d') → (∀ d', Undone d event d') →
      wp x d (fun _ d' => Passed env event d d' ∧ Done env d event d')
        (Fails fun _ d' => Passed env event d d' ∧ Undone d event d') :=
    fun h hd hu => wp_weaken h (fun _ d' h => ⟨h, hd d'⟩) fun _ d' h => ⟨h, hu d'⟩
  cases event with
  | setupSnap m p q c =>
      apply ioctlSetup_wp hs
      · exact fun b p' q' s o t hi hb _ _ => .setup hi hb
      · exact fun _ h => by cases h
  | reloadSnap m p q c =>
      apply ioctlSetup_wp hs
      · exact fun b p' q' s o t _ _ h _ => by cases h
      · exact fun hi _ => .reloadSnap hi
  | reloadInc m p q c =>
      apply ioctlSetup_wp hs
      · exact fun b p' q' s o t _ _ h _ => by cases h
      · exact fun hi _ => .reloadInc hi
  | reconfigure m c => exact ioctlReconfigure_wp hs
  | destroy m => exact hother (ioctlDestroy_wp hs) (fun _ => trivial) fun _ => trivial
  | transitionInc m => exact hother (ioctlTransitionInc_wp hs) (fun _ => trivial) fun _ => trivial
  | transitionSnap m => exact hother (ioctlTransitionSnap_wp hs) (fun _ => trivial) fun _ => trivial
  | umount b umounted => exact hother (umountHook_wp hs) (fun _ => trivial) fun _ => trivial
  | mount b mounted => exact hother (mountHook_wp hs) (fun _ => trivial) fun _ => trivial
  | failure m e => exact hother (failDevice_wp hs) (fun _ => trivial) fun _ => trivial
  | notice m => exact hother (noticeFailure_wp hs) (fun _ => trivial) fun _ => trivial

theorem step_passed (hs : Sound env d) (h : step env d event = some d') : Passed env event d d' := by
  have hwp : wp (exec env event) d (fun _ d' => Passed env event d d' ∧ Done env d event d')
      (Fails fun _ d' => Passed env event d d' ∧ Undone d event d') := exec_wp hs event
  unfold wp at hwp
  rw [step] at h
  cases hexec : exec env event d with
  | ok _ d₁ =>
      rw [hexec] at h hwp
      cases h
      exact hwp.1
  | error e d₁ =>
      rw [hexec] at h hwp
      cases e with
      | code c =>
          cases h
          exact hwp.1
      | oops => cases h

theorem step_after (hs : Sound env d) (h : step env d event = some d') : After env native event d d' :=
  (step_passed hs h).after hs

theorem sound_start : Sound env (.start env native) where
  used h := by cases h
  apart h := by cases h
  minor h := by cases h
  plain h := by cases h

theorem minor_of_two {i : Nat} {dev : SnapDevice} (hmax : env.maxSnapDevices = 2) (hs : Sound env d)
    (hi : d.row i = some dev) : i = 0 ∨ i = 1 := by
  obtain ⟨a, ha, -⟩ := row_eq_some.mp hi
  have hlt := (hs.used ha).1
  omega

/-- A machine with two partitions on one disk, on which no call fails. -/
def calm : Env where
  maxSnapDevices := 2
  cowMaxMemoryDefault := 300 * 2 ^ 20
  ps := 12
  disk _ := 0
  capacity _ _ := 2 ^ 20
  blkdevGetByPath _ path := .ok (if path = "/dev/sda1" then 0 else 1)
  absolute _ path := path
  cowPathname _ := "/cow"
  writable _ _ := true
  busy _ := false
  fault _ := none
  freeze _ := none
  notices _ := false

/-- A snapshot of the first partition. -/
def calmSnap (cacheSize : Nat) : SnapDevice :=
  activeSnap calm 0 (2 ^ 20) 0 cacheSize (some "/dev/sda1") "/cow" (some (.native 0)) 0

def calmState (dev : SnapDevice) (clock : Nat) : DriverState where
  devs := Function.update (fun _ => none) 0 (some dev)
  nextDev := 1
  snapDevices := Function.update (fun _ => none) 0 (some 0)
  lowestMinor := 0
  highestMinor := 0
  ops := ⟨Function.update (fun _ => .native 0) 0 (.copy 0), Function.update (fun _ => none) 0 (some 1), 1⟩
  clock := clock

@[simp] theorem calmState_row {dev : SnapDevice} {clock : Nat} : (calmState dev clock).row 0 = some dev := by
  simp [DriverState.row, calmState]

theorem calmState_sound {dev : SnapDevice} {clock : Nat} (hmax : 0 < env.maxSnapDevices) (hmin : dev.minor = 0)
    (hv : dev.unverified = false) : Sound env (calmState dev clock) := by
  have htable : ∀ {i a : Nat}, (calmState dev clock).snapDevices i = some a → i = 0 ∧ a = 0 := by
    intro i a hi
    rcases Hooks.update_cases (show Function.update (fun _ => none) 0 (some 0) i = some a from hi) with ⟨h0, ha⟩ | ⟨-, ha⟩
    · exact ⟨h0, (Option.some.inj ha).symm⟩
    · cases ha
  have hrow : ∀ {i : Nat} {cur : SnapDevice}, (calmState dev clock).row i = some cur → i = 0 ∧ cur = dev := by
    intro i cur hi
    obtain ⟨a, ha, hcur⟩ := row_eq_some.mp hi
    obtain ⟨rfl, rfl⟩ := htable ha
    exact ⟨rfl, (Option.some.inj hcur).symm⟩
  constructor
  case used =>
    intro i a hi
    obtain ⟨rfl, rfl⟩ := htable hi
    exact ⟨hmax, Nat.le_refl _, Nat.le_refl _, Nat.one_pos⟩
  case apart =>
    intro i j a hi hj
    rw [(htable hi).1, (htable hj).1]
  case minor =>
    intro i cur hi
    obtain ⟨rfl, rfl⟩ := hrow hi
    exact hmin
  case plain =>
    intro i cur hi hu
    obtain ⟨rfl, rfl⟩ := hrow hi
    rw [hv] at hu
    cases hu

theorem start_room : Room (DriverState.start env native).ops := fun _ _ h => by cases h

theorem calmState_room {dev : SnapDevice} {clock : Nat} : Room (calmState dev clock).ops := by
  intro t r h
  rcases Hooks.update_cases (show Function.update (fun _ => none) 0 (some 1) t = some r from h) with ⟨-, h0⟩ | ⟨-, h0⟩
  · obtain rfl := Option.some.inj h0
    decide
  · cases h0

theorem step_ok (h : exec env event d = .ok () d') : step env d event = some d' := by
  rw [step, h]

/-- A snapshot that was made dormant for an umount that failed, and active again afterwards. -/
def reactivatedSnap (cacheSize : Nat) : SnapDevice := { calmSnap cacheSize with cacheSize := 0, ignoreRequests := true }

section

attribute [local simp] bind EStateM.bind pure EStateM.pure get_apply modify_apply attempt onCode check tick call getDev onDev modifyDev devCall devTick
  DriverState.put tracerForEach findTracer DriverState.minorRange tracerSetupCow tracerSetupCowThread wakeUpProcess
  calm calmState calmSnap activeSnap SnapDevice.zero

theorem calm_setup {cacheSize : Nat} : exec calm (.setupSnap 0 "/dev/sda1" "/cow" cacheSize) (.start calm fun _ => 0) =
    .ok () (calmState (calmSnap cacheSize) 16) := by
  simp [exec, ioctlSetup, verifyMinorAvailable, verifyBdevWritable, tracerAlloc, tracerSetupActiveSnap, setMode,
    tracerSetupBaseDev, bdevIsAlreadyTraced, tracerSetupCowPath, tracerSetupSnap, tracerSetupTracing, minorRangeInclude,
    findOrigFops, getBdOps, tracingOpsAlloc, modifyOps, tracerTransitionTracing, setBdOps, DriverState.start]

theorem calm_umount {cacheSize : Nat} : exec calm (.umount 0 false) (calmState (calmSnap cacheSize) 16) =
    .ok () (calmState (reactivatedSnap cacheSize) 23) := by
  simp [exec, umountHook, handleBdevMountNowrite, tracerActiveToDormant, tracerDestroyCowThread, stopRequestQueue,
    drainCowThread, tracerDestroyCow, closeCow, postUmountCheck, autoTransitionActive, tracerDormantToActive, reopenCow,
    reactivatedSnap, openedCow]

end

end ElastioSnap.Driver.Steps
