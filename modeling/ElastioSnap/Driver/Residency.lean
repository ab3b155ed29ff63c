import ElastioSnap.Driver.Ranges

namespace ElastioSnap.Driver.Residency

open Function (update)
open Lib.Outcome Lib.Extend Lib.Runs State Setup Events Component Rows Transitions Steps Borrowed Parts Requests Minors
open Cow.Manager (Errno Err)

/-- The bit `COW_ON_BDEV` of `sd_cow_state`, whether the COW file is on the base device, and whether `sd_cow_path`
starts from the mount point. -/
structure Home where
  flag : Bool
  onBdev : Bool
  relative : Bool
  deriving DecidableEq

def Home.zero : Home := ⟨false, false, false⟩

/-- The driver with the home of each device. -/
abbrev HomeM := EStateM Err (DriverState × (Nat → Home))

abbrev HomeDevM := EStateM Err (Local × Home)

def onHome {α : Type} (a : Nat) (x : HomeDevM α) : HomeM α := fun s =>
  match s.1.devs a with
  | none => .error .oops s
  | some dev =>
      match x (⟨dev, s.1.clock⟩, s.2 a) with
      | .ok r l => .ok r (s.1.put a l.1, update s.2 a l.2)
      | .error e l => .error e (s.1.put a l.1, update s.2 a l.2)

def homeCopyBaseDev (src : SnapDevice) (home : Home) : HomeDevM Unit := do
  lift (tracerCopyBaseDev src)
  note fun _ dest => { dest with flag := home.flag }

def homeCopyCow (src : SnapDevice) (home : Home) : HomeDevM Unit := do
  lift (tracerCopyCow src)
  note fun _ dest => { dest with onBdev := home.onBdev }

def homeCopyCowPath (src : SnapDevice) (home : Home) : HomeDevM Unit := do
  lift (tracerCopyCowPath src)
  note fun _ dest => { dest with relative := home.relative }

section

variable (env : Env) (on : Bool)

/-- The file that is opened is on the base device or not; the bit is never cleared. -/
def homeSetupCow (size cacheSize : Nat) (method : OpenMethod) : HomeDevM Unit := do
  lift (tracerSetupCow env size cacheSize method)
  note fun _ home => { home with flag := home.flag || on, onBdev := on }

def homeSetupCowPath : HomeDevM Unit := do
  lift (tracerSetupCowPath env)
  note fun _ home => { home with relative := home.flag }

def homeAlloc : HomeM Nat := do
  let a ← lift (tracerAlloc env)
  note fun _ homes => update homes a .zero
  return a

def homeSetupActiveSnap (a minor : Nat) (bdevPath : Path) (cacheSize : Nat) : HomeM Unit := do
  lift (onDev a (setMode true true false))
  onCode
    (do
      lift (tracerSetupBaseDev env a bdevPath)
      onHome a (do
        homeSetupCow env on (← lift get).dev.size cacheSize .init
        homeSetupCowPath env
        lift (do
          tracerSetupSnap env
          tracerSetupCowThread env
          wakeUpProcess))
      lift (tracerSetupTracing env a minor))
    (lift (tracerDestroy env a))

def homeSnapToInc (old : Nat) : HomeM Unit := do
  let a ← homeAlloc env
  lift (onDev a (setMode false true false))
  let oldDev ← lift (getDev old)
  let oldHome := (← get).2 old
  onHome a (do
    homeCopyBaseDev oldDev oldHome
    homeCopyCowPath oldDev oldHome
    homeCopyCow oldDev oldHome)
  onCode
    (do
      lift (onDev a (tracerSetupCowThread env))
      lift (tracerSetupTracing env a oldDev.minor))
    (do
      lift (onDev a (tracerDestroyCowThread env))
      lift (kfree a))
  lift (snapToIncCommit env old a)

def homeIncToSnap (old : Nat) : HomeM Unit := do
  let a ← homeAlloc env
  lift (onDev a (setMode true true false))
  let oldDev ← lift (getDev old)
  let oldHome := (← get).2 old
  onHome a (homeCopyBaseDev oldDev oldHome)
  onCode
    (do
      if oldDev.cow.isNone then throw .oops
      onHome a (do
        let dev := (← lift get).dev
        homeSetupCow env on dev.size dev.cacheSize .init
        homeSetupCowPath env
        lift (do
          tracerSetupSnap env
          tracerSetupCowThread env))
      lift (tracerSetupTracing env a oldDev.minor))
    (do
      lift (onDev a (do
        tracerDestroyCowThread env
        tracerDestroySnap
        tracerDestroyCowPath
        tracerDestroyCow env .free))
      lift (kfree a))
  lift (incToSnapCommit env old a)

def homeUnverifiedToActive (isSnap : Bool) (a : Nat) : HomeM Unit := do
  let dev ← lift (getDev a)
  match dev.bdevPath, dev.cowPath with
  | some bdevPath, some relPath => do
      lift (tracerDestroyTracing env a)
      lift (onDev a (modifyDev fun dev => { dev with active := true, unverified := false, bdevPath := none, cowPath := none }))
      let ret ← attempt (do
        lift (tracerSetupBaseDev env a bdevPath)
        onHome a (do
          let dev := (← lift get).dev
          homeSetupCow env on dev.size dev.cacheSize .reload
          homeSetupCowPath env
          lift (do
            if isSnap then tracerSetupSnap env
            tracerSetupCowThread env
            wakeUpProcess))
        lift (tracerSetupTracing env a dev.minor))
      match ret with
      | none => pure ()
      | some e =>
          lift (tracerDestroy env a)
          let _ ← attempt (lift (tracerSetupUnverified env a dev.minor bdevPath relPath dev.cacheSize isSnap))
          lift (onDev a (tracerSetFailState e))
  | _, _ => throw .oops

def homeDormantToActive (a : Nat) : HomeM Unit :=
  onHome a (do
    let ret ← attempt (do
      homeSetupCow env on 0 0 .reopen
      lift (do
        tracerSetupCowThread env
        wakeUpProcess
        modifyDev fun dev => { dev with active := true, unverified := false }))
    match ret with
    | none => pure ()
    | some e => lift (tracerSetFailState e))

def homeAutoTransitionActive (a : Nat) : HomeM Unit := do
  let dev ← lift (getDev a)
  if dev.unverified then
    if dev.snapshot then homeUnverifiedToActive env on true a else homeUnverifiedToActive env on false a
  else homeDormantToActive env on a

/-- The device that an umount makes dormant. -/
def umountSearch (b : Nat) : DriverM (Option Nat) :=
  tracerForEach fun _ dev => pure (dev.active && dev.failCode.isNone && dev.baseDev == some b)

/-- The device that a mount makes active. -/
def mountSearch (b : Nat) : DriverM (Option Nat) :=
  tracerForEach fun _ dev =>
    if dev.active || dev.failCode.isSome then pure false
    else if dev.unverified then
      match dev.bdevPath with
      | none => throw .oops
      | some path => do
          match env.blkdevGetByPath (← call) path with
          | .error _ => pure false
          | .ok c => pure (c = b)
    else pure (dev.baseDev == some b)

def homePostUmountCheck (a : Nat) (umounted : Bool) : HomeM Unit := do
  let dev ← lift (getDev a)
  if !umounted then
    match dev.bdevPath with
    | none => throw .oops
    | some path =>
        match env.blkdevGetByPath (← lift call) path with
        | .error _ => lift (onDev a (tracerSetFailState enodev))
        | .ok _ => homeAutoTransitionActive env on a
  else
    match dev.baseDev with
    | none => throw .oops
    | some b => if env.writable (← lift call) b then lift (onDev a (tracerSetFailState .eio))

def homeUmountHook (b : Nat) (umounted : Bool) : HomeM Unit := do
  match ← lift (umountSearch b) with
  | none => pure ()
  | some a =>
      lift (tracerActiveToDormant env a)
      homePostUmountCheck env on a umounted

def homeMountHook (b : Nat) (mounted : Bool) : HomeM Unit := do
  if mounted then
    match ← lift (mountSearch env b) with
    | none => pure ()
    | some a => homeAutoTransitionActive env on a

def homeSetup (minor : Nat) (bdevPath cowPath : Path) (cacheSize : Nat) (isSnap isReload : Bool) : HomeM Unit := do
  lift (verifyMinorAvailable env minor)
  let isMounted ← lift (verifyBdevWritable env bdevPath)
  if isMounted == isReload then throw (.code .einval)
  let a ← homeAlloc env
  onCode
    (if isSnap then
      if isMounted then homeSetupActiveSnap env on a minor bdevPath cacheSize
      else lift (tracerSetupUnverified env a minor bdevPath cowPath cacheSize true)
    else if !isMounted then lift (tracerSetupUnverified env a minor bdevPath cowPath cacheSize false)
    else throw (.code .einval))
    (lift (kfree a))

def homeTransitionInc (minor : Nat) : HomeM Unit := do
  let a ← lift (verifyMinorInUseNotBusy env minor)
  let dev ← lift (getDev a)
  match dev.failCode with
  | some e => throw (.code e)
  | none =>
      if !dev.snapshot || !dev.active then throw (.code .einval)
      homeSnapToInc env a

def homeTransitionSnap (minor : Nat) : HomeM Unit := do
  let a ← lift (verifyMinorInUseNotBusy env minor)
  let dev ← lift (getDev a)
  if dev.failCode.isSome then throw (.code .einval)
  if dev.snapshot || !dev.active then throw (.code .einval)
  homeIncToSnap env on a

/-- An event opens one COW file at most, and it is said of that one where it is. -/
def homeExec (event : Event) : HomeM Unit :=
  match event with
  | .setupSnap minor bdevPath cowPath cacheSize => homeSetup env on minor bdevPath cowPath cacheSize true false
  | .reloadSnap minor bdevPath cowPath cacheSize => homeSetup env on minor bdevPath cowPath cacheSize true true
  | .reloadInc minor bdevPath cowPath cacheSize => homeSetup env on minor bdevPath cowPath cacheSize false true
  | .transitionInc minor => homeTransitionInc env minor
  | .transitionSnap minor => homeTransitionSnap env on minor
  | .umount b umounted => homeUmountHook env on b umounted
  | .mount b mounted => homeMountHook env on b mounted
  | event => lift (exec env event)

end

/-- A step of the driver, with the place at which the COW file of the event is found. -/
def homeStep (env : Env) (s : DriverState × (Nat → Home)) (event : Event × Bool) : Option (DriverState × (Nat → Home)) :=
  match homeExec env event.2 event.1 s with
  | .ok _ t => some t
  | .error (.code _) t => some t
  | .error .oops _ => none

section

variable {env : Env} {on : Bool} {a b old minor cacheSize : Nat} {bdevPath cowPath : Path} {isSnap isReload : Bool}

theorem extends_onHome {α : Type} {x : DevM α} {y : HomeDevM α} (h : Extends y x) : Extends (onHome a y) (onDev a x) := by
  intro s
  unfold onHome onDev
  cases hd : s.1.devs a with
  | none => rfl
  | some dev =>
      have hy := h (⟨dev, s.1.clock⟩, s.2 a)
      dsimp only at hy ⊢
      rw [← hy]
      cases y (⟨dev, s.1.clock⟩, s.2 a) <;> rfl

theorem extends_setupCow {size : Nat} {method : OpenMethod} :
    Extends (homeSetupCow env on size cacheSize method) (tracerSetupCow env size cacheSize method) := extends_lift.noted

theorem extends_setupCowPath : Extends (homeSetupCowPath env) (tracerSetupCowPath env) := extends_lift.noted

theorem extends_alloc : Extends (homeAlloc env) (tracerAlloc env) := by
  intro s
  have h := extends_lift (τ := Nat → Home) (x := tracerAlloc env) s
  change erase (EStateM.bind (lift (tracerAlloc env)) _ s) = _
  rw [EStateM.bind, ← h]
  cases lift (tracerAlloc env) s <;> rfl

theorem extends_setupActiveSnap :
    Extends (homeSetupActiveSnap env on a minor bdevPath cacheSize) (tracerSetupActiveSnap env a minor bdevPath cacheSize) := by
  refine extends_lift.bind fun _ => extends_onCode ?_ extends_lift
  refine extends_lift.bind fun _ => (extends_onHome ?_).bind fun _ => extends_lift
  exact extends_lift.bind fun l => extends_setupCow.bind fun _ => extends_setupCowPath.bind fun _ => extends_lift

theorem extends_snapToInc : Extends (homeSnapToInc env old) (tracerActiveSnapToInc env old) := by
  refine extends_alloc.bind fun a => extends_lift.bind fun _ => extends_lift.bind fun oldDev => ?_
  have hrest : ∀ home : Home, Extends
      (do
        onHome a (do
          homeCopyBaseDev oldDev home
          homeCopyCowPath oldDev home
          homeCopyCow oldDev home)
        onCode
          (do
            lift (onDev a (tracerSetupCowThread env))
            lift (tracerSetupTracing env a oldDev.minor))
          (do
            lift (onDev a (tracerDestroyCowThread env))
            lift (kfree a))
        lift (snapToIncCommit env old a))
      (do
        onDev a (do
          tracerCopyBaseDev oldDev
          tracerCopyCowPath oldDev
          tracerCopyCow oldDev)
        onCode
          (do
            onDev a (tracerSetupCowThread env)
            tracerSetupTracing env a oldDev.minor)
          (do
            onDev a (tracerDestroyCowThread env)
            kfree a)
        snapToIncCommit env old a) := by
    intro home
    refine (extends_onHome ?_).bind fun _ => (extends_onCode ?_ ?_).bind fun _ => extends_lift
    · exact extends_lift.noted.bind fun _ => extends_lift.noted.bind fun _ => extends_lift.noted
    · exact extends_lift.bind fun _ => extends_lift
    · exact extends_lift.bind fun _ => extends_lift
  exact fun s => hrest (s.2 old) s

theorem extends_incToSnap : Extends (homeIncToSnap env on old) (tracerActiveIncToSnap env old) := by
  refine extends_alloc.bind fun a => extends_lift.bind fun _ => extends_lift.bind fun oldDev => ?_
  have hrest : ∀ home : Home, Extends
      (do
        onHome a (homeCopyBaseDev oldDev home)
        onCode
          (do
            if oldDev.cow.isNone then throw .oops
            onHome a (do
              let dev := (← lift get).dev
              homeSetupCow env on dev.size dev.cacheSize .init
              homeSetupCowPath env
              lift (do
                tracerSetupSnap env
                tracerSetupCowThread env))
            lift (tracerSetupTracing env a oldDev.minor))
          (do
            lift (onDev a (do
              tracerDestroyCowThread env
              tracerDestroySnap
              tracerDestroyCowPath
              tracerDestroyCow env .free))
            lift (kfree a))
        lift (incToSnapCommit env old a))
      (do
        onDev a (tracerCopyBaseDev oldDev)
        onCode
          (do
            if oldDev.cow.isNone then throw .oops
            onDev a (do
              let dev := (← get).dev
              tracerSetupCow env dev.size dev.cacheSize .init
              tracerSetupCowPath env
              tracerSetupSnap env
              tracerSetupCowThread env)
            tracerSetupTracing env a oldDev.minor)
          (do
            onDev a (do
              tracerDestroyCowThread env
              tracerDestroySnap
              tracerDestroyCowPath
              tracerDestroyCow env .free)
            kfree a)
        incToSnapCommit env old a) := by
    intro home
    have hparts : Extends
        (do
          onHome a (do
            let dev := (← lift get).dev
            homeSetupCow env on dev.size dev.cacheSize .init
            homeSetupCowPath env
            lift (do
              tracerSetupSnap env
              tracerSetupCowThread env))
          lift (tracerSetupTracing env a oldDev.minor))
        (do
          onDev a (do
            let dev := (← get).dev
            tracerSetupCow env dev.size dev.cacheSize .init
            tracerSetupCowPath env
            tracerSetupSnap env
            tracerSetupCowThread env)
          tracerSetupTracing env a oldDev.minor) := by
      refine (extends_onHome ?_).bind fun _ => extends_lift
      exact extends_lift.bind fun l => extends_setupCow.bind fun _ => extends_setupCowPath.bind fun _ => extends_lift
    refine (extends_onHome extends_lift.noted).bind fun _ => (extends_onCode ?_ ?_).bind fun _ => extends_lift
    · exact Extends.ite (extends_throw.bind fun _ => hparts) hparts
    · exact extends_lift.bind fun _ => extends_lift
  exact fun s => hrest (s.2 old) s

theorem extends_unverifiedToActive : Extends (homeUnverifiedToActive env on isSnap a) (tracerUnverifiedToActive env isSnap a) := by
  refine extends_lift.bind fun dev => ?_
  cases dev.bdevPath with
  | none => exact extends_throw
  | some bdevPath =>
      cases dev.cowPath with
      | none => exact extends_throw
      | some relPath =>
          refine extends_lift.bind fun _ => extends_lift.bind fun _ => (extends_attempt ?_).bind fun r => ?_
          · refine extends_lift.bind fun _ => (extends_onHome ?_).bind fun _ => extends_lift
            refine extends_lift.bind fun l => extends_setupCow.bind fun _ => extends_setupCowPath.bind fun _ => ?_
            exact extends_lift
          · cases r with
            | none => exact extends_pure
            | some e =>
                exact extends_lift.bind fun _ => (extends_attempt extends_lift).bind fun _ => extends_lift

theorem extends_dormantToActive : Extends (homeDormantToActive env on a) (tracerDormantToActive env a) := by
  refine extends_onHome ((extends_attempt (extends_setupCow.bind fun _ => extends_lift)).bind fun r => ?_)
  cases r with
  | none => exact extends_pure
  | some e => exact extends_lift

theorem extends_autoTransition : Extends (homeAutoTransitionActive env on a) (autoTransitionActive env a) :=
  extends_lift.bind fun _ =>
    Extends.ite (Extends.ite extends_unverifiedToActive extends_unverifiedToActive) extends_dormantToActive

theorem extends_postUmount {umounted : Bool} : Extends (homePostUmountCheck env on a umounted) (postUmountCheck env a umounted) := by
  refine extends_lift.bind fun dev => Extends.ite ?_ ?_
  · cases dev.bdevPath with
    | none => exact extends_throw
    | some path =>
        refine extends_lift.bind fun n => ?_
        cases env.blkdevGetByPath n path with
        | error e => exact extends_lift
        | ok c => exact extends_autoTransition
  · cases dev.baseDev with
    | none => exact extends_throw
    | some c => exact extends_lift.bind fun n => Extends.ite extends_lift extends_pure

theorem extends_umount {umounted : Bool} : Extends (homeUmountHook env on b umounted) (umountHook env b umounted) := by
  have heq : umountHook env b umounted = (do
      match ← umountSearch b with
      | none => pure ()
      | some a =>
          tracerActiveToDormant env a
          postUmountCheck env a umounted) := by
    simp only [umountHook, handleBdevMountNowrite, umountSearch, bind_assoc]
    congr 1
    funext found
    cases found with
    | none => rfl
    | some a => simp only [bind_assoc, pure_bind]
  rw [heq]
  refine extends_lift.bind fun found => ?_
  cases found with
  | none => exact extends_pure
  | some a => exact extends_lift.bind fun _ => extends_postUmount

theorem extends_mount {mounted : Bool} : Extends (homeMountHook env on b mounted) (mountHook env b mounted) := by
  refine Extends.ite (extends_lift.bind fun found => ?_) extends_pure
  cases found with
  | none => exact extends_pure
  | some a => exact extends_autoTransition

theorem extends_setup : Extends (homeSetup env on minor bdevPath cowPath cacheSize isSnap isReload)
    (ioctlSetup env minor bdevPath cowPath cacheSize isSnap isReload) := by
  refine extends_lift.bind fun _ => extends_lift.bind fun isMounted => ?_
  have hrest : Extends
      (do
        let a ← homeAlloc env
        onCode
          (if isSnap then
            if isMounted then homeSetupActiveSnap env on a minor bdevPath cacheSize
            else lift (tracerSetupUnverified env a minor bdevPath cowPath cacheSize true)
          else if !isMounted then lift (tracerSetupUnverified env a minor bdevPath cowPath cacheSize false)
          else throw (.code .einval))
          (lift (kfree a)))
      (do
        let a ← tracerAlloc env
        onCode
          (if isSnap then
            if isMounted then tracerSetupActiveSnap env a minor bdevPath cacheSize
            else tracerSetupUnverified env a minor bdevPath cowPath cacheSize true
          else if !isMounted then tracerSetupUnverified env a minor bdevPath cowPath cacheSize false
          else throw (.code .einval))
          (kfree a)) := by
    refine extends_alloc.bind fun a => extends_onCode ?_ extends_lift
    exact Extends.ite (Extends.ite extends_setupActiveSnap extends_lift) (Extends.ite extends_lift extends_throw)
  exact Extends.ite (extends_throw.bind fun _ => hrest) hrest

theorem extends_transitionInc : Extends (homeTransitionInc env minor) (ioctlTransitionInc env minor) := by
  refine extends_lift.bind fun a => extends_lift.bind fun dev => ?_
  cases dev.failCode with
  | some e => exact extends_throw
  | none => exact Extends.ite (extends_throw.bind fun _ => extends_snapToInc) extends_snapToInc

theorem extends_transitionSnap : Extends (homeTransitionSnap env on minor) (ioctlTransitionSnap env minor) := by
  refine extends_lift.bind fun a => extends_lift.bind fun dev => ?_
  have hmode : Extends
      (do
        if dev.snapshot || !dev.active then throw (.code .einval)
        homeIncToSnap env on a)
      (do
        if dev.snapshot || !dev.active then throw (.code .einval)
        tracerActiveIncToSnap env a) := Extends.ite (extends_throw.bind fun _ => extends_incToSnap) extends_incToSnap
  exact Extends.ite (extends_throw.bind fun _ => hmode) hmode

/-- The homes do not show in what the driver does. -/
theorem extends_exec (event : Event) : Extends (homeExec env on event) (exec env event) := by
  cases event with
  | setupSnap m p q c => exact extends_setup
  | reloadSnap m p q c => exact extends_setup
  | reloadInc m p q c => exact extends_setup
  | destroy m => exact extends_lift
  | transitionInc m => exact extends_transitionInc
  | transitionSnap m => exact extends_transitionSnap
  | reconfigure m c => exact extends_lift
  | umount b umounted => exact extends_umount
  | mount b mounted => exact extends_mount
  | failure m e => exact extends_lift
  | notice m => exact extends_lift

/-- Without the homes, a step is one of the driver. -/
theorem homeStep_fst {s t : DriverState × (Nat → Home)} {event : Event × Bool} (h : homeStep env s event = some t) :
    step env s.1 event.1 = some t.1 := by
  have hexec : erase (homeExec env event.2 event.1 s) = exec env event.1 s.1 := extends_exec event.1 s
  rw [step, ← hexec]
  rw [homeStep] at h
  cases hx : homeExec env event.2 event.1 s with
  | ok _ u =>
      rw [hx] at h
      cases h
      rfl
  | error e u =>
      rw [hx] at h
      cases e with
      | code c =>
          cases h
          rfl
      | oops => cases h

end

end ElastioSnap.Driver.Residency
