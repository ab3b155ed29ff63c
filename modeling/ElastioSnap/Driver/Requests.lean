import ElastioSnap.Driver.Borrowed

namespace ElastioSnap.Driver.Requests

open Function (update)
open Lib.Outcome Lib.Extend Lib.Runs State Setup Events Component Rows Setups Transitions Steps Borrowed
open Cow.Manager (Errno Err)

/-- The driver with the minors by which the table has been accessed, the last one first. The
macros that go through the whole table have an index of their own and are no accesses by a minor. -/
abbrev RequestM := EStateM Err (DriverState × List Int)

def touch (i : Int) : RequestM Unit := note fun _ log => i :: log

section

variable (env : Env)

def seenShouldResetMrf (a : Nat) : RequestM Bool := do
  let dev ← lift (getDev a)
  let ops ← lift (getBdOps env dev)
  if !ops.isTracing then return false
  touch dev.minor
  if (← lift get).snapDevices dev.minor ≠ some a then return false
  return (← lift (tracerOnOps env ops (some a))).isNone

def seenDestroyTracing (a : Nat) : RequestM Unit := do
  let dev ← lift (getDev a)
  (if dev.origOps.isSome then do
    match dev.baseDev with
    | none => throw .oops
    | some b =>
        (if ← seenShouldResetMrf env a then do
          if !dev.active then lift (flushBioRequests env a)
          touch dev.minor
          let _ ← attempt (lift (tracerTransitionTracing env a b dev.origOps dev.minor false))
        else do
          touch dev.minor
          let _ ← attempt (lift (tracerTransitionTracing env a b none dev.minor false)))
        lift (freeMrfAndOps a)
  else do
    touch dev.minor
    lift (modify fun d =>
      if d.snapDevices dev.minor = some a then { d with snapDevices := update d.snapDevices dev.minor none } else d))
  lift (onDev a (modifyDev fun dev => { dev with minor := 0 }))
  lift (minorRangeRecalculate env)

def seenSetupTracingUnverified (a minor : Nat) : RequestM Unit := do
  lift (freeMrfAndOps a)
  lift (minorRangeInclude minor)
  lift (onDev a (modifyDev fun dev => { dev with minor := minor }))
  touch minor
  lift (modify fun d => { d with snapDevices := update d.snapDevices minor (some a) })

def seenSetupTracing (a minor : Nat) : RequestM Unit :=
  onCode
    (do
      lift (onDev a (modifyDev fun dev => { dev with minor := minor }))
      lift (minorRangeInclude minor)
      if (← lift (getDev a)).tracingOps.isNone then
        lift (findOrigFops env a)
        if (← lift (getDev a)).tracingOps.isNone then lift (tracingOpsAlloc env a)
        let dev ← lift (getDev a)
        match dev.baseDev, dev.tracingOps with
        | some b, some t => do
            touch minor
            lift (tracerTransitionTracing env a b (some (.copy t)) minor true)
        | _, _ => throw .oops)
    (do
      lift (onDev a (modifyDev fun dev => { dev with minor := 0 }))
      lift (freeMrfAndOps a)
      lift (minorRangeRecalculate env))

def seenDestroy (a : Nat) : RequestM Unit := do
  seenDestroyTracing env a
  lift (onDev a (do
    tracerDestroyCowThread env
    tracerDestroySnap
    tracerDestroyCowPath
    tracerDestroyCow env .free
    tracerDestroyBaseDev))

def seenSetupActiveSnap (a minor : Nat) (bdevPath : Path) (cacheSize : Nat) : RequestM Unit := do
  lift (onDev a (setMode true true false))
  onCode
    (do
      lift (tracerSetupBaseDev env a bdevPath)
      lift (onDev a (do
        tracerSetupCow env (← get).dev.size cacheSize .init
        tracerSetupCowPath env
        tracerSetupSnap env
        tracerSetupCowThread env
        wakeUpProcess))
      seenSetupTracing env a minor)
    (seenDestroy env a)

def seenSetupUnverified (a minor : Nat) (bdevPath cowPath : Path) (cacheSize : Nat) (isSnap : Bool) : RequestM Unit := do
  lift (onDev a (setMode isSnap false true))
  lift (onDev a (modifyDev fun dev => { dev with cacheSize := cacheSize }))
  onCode
    (do
      lift (check env .enomem)
      lift (onDev a (modifyDev fun dev => { dev with bdevPath := some bdevPath }))
      lift (check env .enomem)
      lift (onDev a (modifyDev fun dev => { dev with cowPath := some cowPath }))
      seenSetupTracingUnverified a minor)
    (seenDestroy env a)

def seenSnapToInc (old : Nat) : RequestM Unit := do
  let a ← lift (tracerAlloc env)
  lift (onDev a (setMode false true false))
  let oldDev ← lift (getDev old)
  lift (onDev a (do
    tracerCopyBaseDev oldDev
    tracerCopyCowPath oldDev
    tracerCopyCow oldDev))
  onCode
    (do
      lift (onDev a (tracerSetupCowThread env))
      seenSetupTracing env a oldDev.minor)
    (do
      lift (onDev a (tracerDestroyCowThread env))
      lift (kfree a))
  lift (snapToIncCommit env old a)

def seenIncToSnap (old : Nat) : RequestM Unit := do
  let a ← lift (tracerAlloc env)
  lift (onDev a (setMode true true false))
  let oldDev ← lift (getDev old)
  lift (onDev a (tracerCopyBaseDev oldDev))
  onCode
    (do
      if oldDev.cow.isNone then throw .oops
      lift (onDev a (do
        let dev := (← get).dev
        tracerSetupCow env dev.size dev.cacheSize .init
        tracerSetupCowPath env
        tracerSetupSnap env
        tracerSetupCowThread env))
      seenSetupTracing env a oldDev.minor)
    (do
      lift (onDev a (do
        tracerDestroyCowThread env
        tracerDestroySnap
        tracerDestroyCowPath
        tracerDestroyCow env .free))
      lift (kfree a))
  lift (incToSnapCommit env old a)

def seenMinorAvailable (minor : Nat) : RequestM Unit := do
  if env.maxSnapDevices ≤ minor then throw (.code .einval)
  touch minor
  if ((← lift get).snapDevices minor).isSome then throw (.code ebusy)

def seenMinorInUseNotBusy (minor : Nat) : RequestM Nat := do
  if env.maxSnapDevices ≤ minor then throw (.code .einval)
  touch minor
  match (← lift get).snapDevices minor with
  | none => throw (.code enoent)
  | some a =>
      touch minor
      if env.busy (← lift call) then throw (.code ebusy)
      return a

def seenMinorInUse (minor : Nat) : RequestM Nat := do
  if env.maxSnapDevices ≤ minor then throw (.code .einval)
  touch minor
  match (← lift get).snapDevices minor with
  | none => throw (.code enoent)
  | some a => return a

def seenSetup (minor : Nat) (bdevPath cowPath : Path) (cacheSize : Nat) (isSnap isReload : Bool) : RequestM Unit := do
  seenMinorAvailable env minor
  let isMounted ← lift (verifyBdevWritable env bdevPath)
  if isMounted == isReload then throw (.code .einval)
  let a ← lift (tracerAlloc env)
  onCode
    (if isSnap then
      if isMounted then seenSetupActiveSnap env a minor bdevPath cacheSize
      else seenSetupUnverified env a minor bdevPath cowPath cacheSize true
    else if !isMounted then seenSetupUnverified env a minor bdevPath cowPath cacheSize false
    else throw (.code .einval))
    (lift (kfree a))

def seenIoctlDestroy (minor : Nat) : RequestM Unit := do
  let a ← seenMinorInUseNotBusy env minor
  touch minor
  touch minor
  seenDestroy env a
  lift (kfree a)

def seenTransitionInc (minor : Nat) : RequestM Unit := do
  let a ← seenMinorInUseNotBusy env minor
  touch minor
  let dev ← lift (getDev a)
  match dev.failCode with
  | some e => throw (.code e)
  | none =>
      if !dev.snapshot || !dev.active then throw (.code .einval)
      seenSnapToInc env a

def seenTransitionSnap (minor : Nat) : RequestM Unit := do
  let a ← seenMinorInUseNotBusy env minor
  touch minor
  let dev ← lift (getDev a)
  if dev.failCode.isSome then throw (.code .einval)
  if dev.snapshot || !dev.active then throw (.code .einval)
  seenIncToSnap env a

def seenReconfigure (minor cacheSize : Nat) : RequestM Unit := do
  let a ← seenMinorInUseNotBusy env minor
  touch minor
  let dev ← lift (getDev a)
  if dev.failCode.isSome then throw (.code .einval)
  lift (onDev a (tracerReconfigure env cacheSize))

def seenInfo (minor : Nat) : RequestM ElastioSnapInfo := do
  let a ← seenMinorInUse env minor
  touch minor
  let dev ← lift (getDev a)
  return tracerElastioSnapInfo env dev

def getFreeMinor : DriverM Nat := do
  let d ← get
  match (List.range env.maxSnapDevices).find? fun i => (d.snapDevices i).isNone with
  | some i => return i
  | none => throw (.code enoent)

/-- A string of the caller; the pointer to it may be null. -/
def copyStringFromUser (data : Option Path) : DriverM (Option Path) := do
  match data with
  | none => return none
  | some path =>
      tick env
      return some path

def getString (data : Option Path) : DriverM Path := do
  match ← copyStringFromUser env data with
  | none => throw (.code .einval)
  | some path => return path

/-- `get_setup_params` and `get_reload_params`, for the parameters that this model has. -/
def getSetupParams (bdev cow : Option Path) : DriverM (Path × Path) := do
  check env .efault
  let bdevPath ← getString env bdev
  let cowPath ← getString env cow
  return (bdevPath, cowPath)

def getTransitionSnapParams (cow : Option Path) : DriverM Path := do
  check env .efault
  getString env cow

/-- What a slot of the table holds, or, where there is no such slot, the word of memory there. -/
def slot (word : Int → Option Nat) (d : DriverState) (i : Int) : Option Nat :=
  if 0 ≤ i ∧ i < env.maxSnapDevices then d.snapDevices i.toNat else word i

/-- The count of the users of a device is read until it is zero. -/
def waitForRelease (a : Nat) : DriverM Unit := do
  let _ ← getDev a

inductive Request
  | setupSnap (minor : Nat) (bdev cow : Option Path) (cacheSize : Nat)
  | reloadSnap (minor : Nat) (bdev cow : Option Path) (cacheSize : Nat)
  | reloadInc (minor : Nat) (bdev cow : Option Path) (cacheSize : Nat)
  | destroy (minor : Nat)
  | transitionInc (minor : Nat)
  | transitionSnap (minor : Nat) (cow : Option Path)
  | reconfigure (minor cacheSize : Nat)
  | elastioSnapInfo (minor : Nat)
  | getFree
  | invalid
  | bioStats (minor : Option Int)

/-- The minor that comes with a request. -/
def Request.minor : Request → Option Int
  | .setupSnap minor _ _ _ | .reloadSnap minor _ _ _ | .reloadInc minor _ _ _ | .destroy minor | .transitionInc minor
  | .transitionSnap minor _ | .reconfigure minor _ | .elastioSnapInfo minor => some minor
  | .bioStats minor => minor
  | .getFree | .invalid => none

inductive Answer
  | done
  | info (info : ElastioSnapInfo)
  | free (minor : Nat)

variable (word : Int → Option Nat)

/-- The parameter `bio_show_stats` is set to a string, of which `minor` is the number read from it. -/
def paramSetBioStats (minor : Option Int) : RequestM Unit := do
  match minor with
  | none => throw (.code .einval)
  | some minor =>
      touch minor
      match slot env word (← lift get) minor with
      | none => throw (.code enodev)
      | some a => let _ ← lift (getDev a)

def ctrlIoctl : Request → RequestM Answer
  | .setupSnap minor bdev cow cacheSize => do
      let (bdevPath, cowPath) ← lift (getSetupParams env bdev cow)
      seenSetup env minor bdevPath cowPath cacheSize true false
      touch minor
      match slot env word (← lift get) minor with
      | none => throw .oops
      | some a => lift (waitForRelease a)
      return .done
  | .reloadSnap minor bdev cow cacheSize => do
      let (bdevPath, cowPath) ← lift (getSetupParams env bdev cow)
      seenSetup env minor bdevPath cowPath cacheSize true true
      return .done
  | .reloadInc minor bdev cow cacheSize => do
      let (bdevPath, cowPath) ← lift (getSetupParams env bdev cow)
      seenSetup env minor bdevPath cowPath cacheSize false true
      return .done
  | .destroy minor => do
      lift (check env .efault)
      seenIoctlDestroy env minor
      return .done
  | .transitionInc minor => do
      lift (check env .efault)
      touch minor
      match slot env word (← lift get) minor with
      | none => pure ()
      | some a =>
          touch minor
          lift (waitForRelease a)
      seenTransitionInc env minor
      return .done
  | .transitionSnap minor cow => do
      let _ ← lift (getTransitionSnapParams env cow)
      seenTransitionSnap env minor
      return .done
  | .reconfigure minor cacheSize => do
      lift (check env .efault)
      seenReconfigure env minor cacheSize
      return .done
  | .elastioSnapInfo minor => do
      lift (check env .enomem)
      lift (check env .efault)
      let info ← seenInfo env minor
      lift (check env .efault)
      return .info info
  | .getFree => do
      let minor ← lift (getFreeMinor env)
      lift (check env .efault)
      return .free minor
  | .invalid => throw (.code .einval)
  | .bioStats minor => do
      paramSetBioStats env word minor
      return .done

end

section

variable {env : Env} {d : DriverState} {a minor : Nat} {i : Int}

/-- An access does not show. -/
theorem extends_touch {α : Type} {x : DriverM α} {y : RequestM α} (h : Extends y x) : Extends (do touch i; y) x :=
  extends_note.bind fun _ => h

theorem extends_shouldResetMrf : Extends (seenShouldResetMrf env a) (tracerShouldResetMrf env a) := by
  refine extends_lift.bind fun dev => extends_lift.bind fun ops => ?_
  cases ops.isTracing with
  | false => exact extends_pure
  | true =>
      refine extends_touch (extends_lift.bind fun d => ?_)
      by_cases hd : d.snapDevices dev.minor ≠ some a
      · simp only [hd, if_true, ne_eq, not_false_eq_true]
        exact extends_pure
      · simp only [hd, if_false]
        exact extends_lift.bind fun _ => extends_pure

theorem extends_destroyTracing : Extends (seenDestroyTracing env a) (tracerDestroyTracing env a) := by
  refine extends_lift.bind fun dev => Extends.bind ?_ fun _ => extends_lift.bind fun _ => extends_lift
  cases dev.origOps.isSome with
  | false => exact extends_touch extends_lift
  | true =>
      cases dev.baseDev with
      | none => exact extends_throw
      | some b =>
          refine extends_shouldResetMrf.bind fun r => Extends.bind ?_ fun _ => extends_lift
          have hend : ∀ {o : Option Ops}, Extends
              (do
                touch dev.minor
                let _ ← attempt (lift (tracerTransitionTracing env a b o dev.minor false))
                pure () : RequestM Unit)
              (do
                let _ ← attempt (tracerTransitionTracing env a b o dev.minor false)
                pure ()) :=
            extends_touch ((extends_attempt extends_lift).bind fun _ => extends_pure)
          cases r with
          | false => exact hend
          | true =>
              cases dev.active with
              | true => exact hend
              | false => exact extends_lift.bind fun _ => hend

theorem extends_setupTracingUnverified :
    Extends (seenSetupTracingUnverified a minor) (tracerSetupTracingUnverified a minor) :=
  extends_lift.bind fun _ => extends_lift.bind fun _ => extends_lift.bind fun _ => extends_touch extends_lift

theorem extends_setupTracing : Extends (seenSetupTracing env a minor) (tracerSetupTracing env a minor) := by
  refine extends_onCode ?_ (extends_lift.bind fun _ => extends_lift.bind fun _ => extends_lift)
  refine extends_lift.bind fun _ => extends_lift.bind fun _ => extends_lift.bind fun dev => ?_
  have hend : ∀ dev : SnapDevice, Extends
      (match dev.baseDev, dev.tracingOps with
        | some b, some t => do
            touch minor
            lift (tracerTransitionTracing env a b (some (.copy t)) minor true)
        | _, _ => throw .oops : RequestM Unit)
      (match dev.baseDev, dev.tracingOps with
        | some b, some t => tracerTransitionTracing env a b (some (.copy t)) minor true
        | _, _ => throw .oops) := by
    intro dev
    cases dev.baseDev with
    | none => exact extends_throw
    | some b =>
        cases dev.tracingOps with
        | none => exact extends_throw
        | some t => exact extends_touch extends_lift
  cases dev.tracingOps.isNone with
  | false => exact extends_pure
  | true =>
      refine extends_lift.bind fun _ => extends_lift.bind fun dev => ?_
      cases dev.tracingOps.isNone with
      | false => exact extends_lift.bind hend
      | true => exact extends_lift.bind fun _ => extends_lift.bind hend

theorem extends_destroy : Extends (seenDestroy env a) (tracerDestroy env a) :=
  extends_destroyTracing.bind fun _ => extends_lift

theorem extends_setupActiveSnap {bdevPath : Path} {cacheSize : Nat} :
    Extends (seenSetupActiveSnap env a minor bdevPath cacheSize) (tracerSetupActiveSnap env a minor bdevPath cacheSize) :=
  extends_lift.bind fun _ =>
    extends_onCode (extends_lift.bind fun _ => extends_lift.bind fun _ => extends_setupTracing) extends_destroy

theorem extends_setupUnverified {bdevPath cowPath : Path} {cacheSize : Nat} {isSnap : Bool} :
    Extends (seenSetupUnverified env a minor bdevPath cowPath cacheSize isSnap)
      (tracerSetupUnverified env a minor bdevPath cowPath cacheSize isSnap) := by
  refine extends_lift.bind fun _ => extends_lift.bind fun _ => extends_onCode ?_ extends_destroy
  exact extends_lift.bind fun _ => extends_lift.bind fun _ => extends_lift.bind fun _ => extends_lift.bind fun _ =>
    extends_setupTracingUnverified

theorem extends_snapToInc : Extends (seenSnapToInc env a) (tracerActiveSnapToInc env a) := by
  refine extends_lift.bind fun _ => extends_lift.bind fun _ => extends_lift.bind fun _ => extends_lift.bind fun _ =>
    (extends_onCode ?_ ?_).bind fun _ => extends_lift
  · exact extends_lift.bind fun _ => extends_setupTracing
  · exact extends_lift.bind fun _ => extends_lift

theorem extends_incToSnap : Extends (seenIncToSnap env a) (tracerActiveIncToSnap env a) := by
  refine extends_lift.bind fun _ => extends_lift.bind fun _ => extends_lift.bind fun oldDev => extends_lift.bind fun _ =>
    (extends_onCode ?_ ?_).bind fun _ => extends_lift
  · cases oldDev.cow.isNone with
    | false => exact extends_lift.bind fun _ => extends_setupTracing
    | true => exact extends_throw.bind fun _ => extends_lift.bind fun _ => extends_setupTracing
  · exact extends_lift.bind fun _ => extends_lift

theorem extends_minorAvailable : Extends (seenMinorAvailable env minor) (verifyMinorAvailable env minor) := by
  unfold seenMinorAvailable verifyMinorAvailable
  by_cases h : env.maxSnapDevices ≤ minor
  · simp only [h, if_true]
    exact extends_throw
  · simp only [h, if_false]
    refine extends_touch (extends_lift.bind fun d => ?_)
    cases (d.snapDevices minor).isSome with
    | false => exact extends_pure
    | true => exact extends_throw

theorem extends_minorInUseNotBusy : Extends (seenMinorInUseNotBusy env minor) (verifyMinorInUseNotBusy env minor) := by
  unfold seenMinorInUseNotBusy verifyMinorInUseNotBusy
  by_cases h : env.maxSnapDevices ≤ minor
  · simp only [h, if_true]
    exact extends_throw
  · simp only [h, if_false]
    refine extends_touch (extends_lift.bind fun d => ?_)
    cases d.snapDevices minor with
    | none => exact extends_throw
    | some a =>
        refine extends_touch (extends_lift.bind fun n => ?_)
        cases env.busy n with
        | false => exact extends_pure
        | true => exact extends_throw

theorem extends_ioctlSetup {bdevPath cowPath : Path} {cacheSize : Nat} {isSnap isReload : Bool} :
    Extends (seenSetup env minor bdevPath cowPath cacheSize isSnap isReload)
      (ioctlSetup env minor bdevPath cowPath cacheSize isSnap isReload) := by
  refine extends_minorAvailable.bind fun _ => extends_lift.bind fun isMounted => ?_
  have hrest : Extends
      (do
        let a ← lift (tracerAlloc env)
        onCode
          (if isSnap then
            if isMounted then seenSetupActiveSnap env a minor bdevPath cacheSize
            else seenSetupUnverified env a minor bdevPath cowPath cacheSize true
          else if !isMounted then seenSetupUnverified env a minor bdevPath cowPath cacheSize false
          else throw (.code .einval))
          (lift (kfree a)))
      (do
        let a ← tracerAlloc env
        onCode
          (if isSnap then
            if isMounted then tracerSetupActiveSnap env a minor bdevPath cacheSize
            else tracerSetupUnverified env a minor bdevPath cowPath cacheSize true
          else if !isMounted then tracerSetupUnverified env a minor bdevPath cowPath cacheSize false
          else throw (.code .einval))
          (kfree a)) := by
    refine extends_lift.bind fun a => extends_onCode ?_ extends_lift
    cases isSnap with
    | true =>
        cases isMounted with
        | true => exact extends_setupActiveSnap
        | false => exact extends_setupUnverified
    | false =>
        cases isMounted with
        | true => exact extends_throw
        | false => exact extends_setupUnverified
  cases isMounted == isReload with
  | false => exact hrest
  | true => exact extends_throw

theorem extends_ioctlDestroy : Extends (seenIoctlDestroy env minor) (ioctlDestroy env minor) :=
  extends_minorInUseNotBusy.bind fun _ => extends_touch (extends_touch (extends_destroy.bind fun _ => extends_lift))

theorem extends_transitionInc : Extends (seenTransitionInc env minor) (ioctlTransitionInc env minor) := by
  refine extends_minorInUseNotBusy.bind fun a => extends_touch (extends_lift.bind fun dev => ?_)
  cases dev.failCode with
  | some e => exact extends_throw
  | none =>
      cases (!dev.snapshot || !dev.active) with
      | false => exact extends_snapToInc
      | true => exact extends_throw

theorem extends_transitionSnap : Extends (seenTransitionSnap env minor) (ioctlTransitionSnap env minor) := by
  refine extends_minorInUseNotBusy.bind fun a => extends_touch (extends_lift.bind fun dev => ?_)
  cases dev.failCode.isSome with
  | true => exact extends_throw
  | false =>
      cases (dev.snapshot || !dev.active) with
      | false => exact extends_incToSnap
      | true => exact extends_throw

theorem extends_reconfigure {cacheSize : Nat} :
    Extends (seenReconfigure env minor cacheSize) (ioctlReconfigure env minor cacheSize) := by
  refine extends_minorInUseNotBusy.bind fun a => extends_touch (extends_lift.bind fun dev => ?_)
  cases dev.failCode.isSome with
  | true => exact extends_throw
  | false => exact extends_lift

end

end ElastioSnap.Driver.Requests
