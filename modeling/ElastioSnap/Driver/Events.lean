import ElastioSnap.Driver.Setup

namespace ElastioSnap.Driver.Events

open Function (update)
open Lib.Outcome Cow.Lifecycle State Setup
open Cow.Manager hiding Env

variable (env : Env)

def tracerDestroy (a : Nat) : DriverM Unit := do
  tracerDestroyTracing env a
  onDev a (do
    tracerDestroyCowThread env
    tracerDestroySnap
    tracerDestroyCowPath
    tracerDestroyCow env .free
    tracerDestroyBaseDev)

def setMode (snapshot active unverified : Bool) : DevM Unit :=
  modifyDev fun dev => { dev with snapshot := snapshot, active := active, unverified := unverified }

def tracerSetupActiveSnap (a minor : Nat) (bdevPath : Path) (cacheSize : Nat) : DriverM Unit := do
  onDev a (setMode true true false)
  onCode
    (do
      tracerSetupBaseDev env a bdevPath
      onDev a (do
        tracerSetupCow env (← get).dev.size cacheSize .init
        tracerSetupCowPath env
        tracerSetupSnap env
        tracerSetupCowThread env
        wakeUpProcess)
      tracerSetupTracing env a minor)
    (tracerDestroy env a)

def tracerSetupUnverified (a minor : Nat) (bdevPath cowPath : Path) (cacheSize : Nat) (isSnap : Bool) :
    DriverM Unit := do
  onDev a (setMode isSnap false true)
  onDev a (modifyDev fun dev => { dev with cacheSize := cacheSize })
  onCode
    (do
      check env .enomem
      onDev a (modifyDev fun dev => { dev with bdevPath := some bdevPath })
      check env .enomem
      onDev a (modifyDev fun dev => { dev with cowPath := some cowPath })
      tracerSetupTracingUnverified a minor)
    (tracerDestroy env a)

/-- Only a warning is given where the file cannot be truncated. -/
def cowTruncateToIndex : DevM Unit := do
  match (← get).dev.cow with
  | none => throw .oops
  | some c => if !c.filp then throw .oops

/-- What is done to the new device before it takes the place of the old one. The two share the
manager, so that the new device has it as the worker of the old one leaves it. -/
def tracerActiveSnapToInc (old : Nat) : DriverM Unit := do
  let a ← tracerAlloc env
  onDev a (setMode false true false)
  let oldDev ← getDev old
  onDev a (do
    tracerCopyBaseDev oldDev
    tracerCopyCowPath oldDev
    tracerCopyCow oldDev)
  onCode
    (do
      onDev a (tracerSetupCowThread env)
      tracerSetupTracing env a oldDev.minor)
    (do
      onDev a (tracerDestroyCowThread env)
      kfree a)
  onDev old (tracerDestroyCowThread env)
  let oldDev ← getDev old
  onDev a (modifyDev fun dev => { dev with cow := oldDev.cow })
  match oldDev.failCode with
  | some e =>
      onDev a (do
        tracerSetFailState e
        wakeUpProcess)
      onDev old tracerDestroySnap
      kfree old
      throw (.code e)
  | none =>
      onDev a (do
        wakeUpProcess
        cowTruncateToIndex)
      onDev old tracerDestroySnap
      kfree old

def tracerActiveIncToSnap (old : Nat) : DriverM Unit := do
  let a ← tracerAlloc env
  onDev a (setMode true true false)
  let oldDev ← getDev old
  onDev a (tracerCopyBaseDev oldDev)
  onCode
    (do
      -- the identity of the new file is read from the old manager
      if oldDev.cow.isNone then throw .oops
      onDev a (do
        let dev := (← get).dev
        tracerSetupCow env dev.size dev.cacheSize .init
        tracerSetupCowPath env
        tracerSetupSnap env
        tracerSetupCowThread env)
      tracerSetupTracing env a oldDev.minor)
    (do
      onDev a (do
        tracerDestroyCowThread env
        tracerDestroySnap
        tracerDestroyCowPath
        tracerDestroyCow env .free)
      kfree a)
  onDev old (tracerDestroyCowThread env)
  onDev a wakeUpProcess
  onDev old (do
    tracerDestroyCowPath
    let _ ← attempt (tracerDestroyCow env .syncAndFree))
  kfree old

def tracerReconfigure (cacheSize : Nat) : DevM Unit := do
  modifyDev fun dev => { dev with cacheSize := cacheSize }
  let dev := (← get).dev
  if dev.active then
    match dev.cow with
    | none => throw .oops
    | some c => modifyDev fun dev => { dev with cow := some { c with
        allowedSects := cowCalculateAllowedSects env.ps (cacheOrDefault env cacheSize) c.totalSects } }

structure ElastioSnapInfo where
  minor : Nat
  snapshot : Bool
  active : Bool
  unverified : Bool
  error : Option Errno
  cacheSize : Nat
  cow : Option Path
  bdev : Option Path

def tracerElastioSnapInfo (dev : SnapDevice) : ElastioSnapInfo :=
  ⟨dev.minor, dev.snapshot, dev.active, dev.unverified, dev.failCode, cacheOrDefault env dev.cacheSize,
    dev.cowPath, dev.bdevPath⟩

def ebusy : Errno := .other 16

def enoent : Errno := .other 2

def enodev : Errno := .other 19

def verifyMinorAvailable (minor : Nat) : DriverM Unit := do
  if env.maxSnapDevices ≤ minor then throw (.code .einval)
  if ((← get).snapDevices minor).isSome then throw (.code ebusy)

/-- The device at a minor that is neither free nor in use by someone else. -/
def verifyMinorInUseNotBusy (minor : Nat) : DriverM Nat := do
  if env.maxSnapDevices ≤ minor then throw (.code .einval)
  match (← get).snapDevices minor with
  | none => throw (.code enoent)
  | some a =>
      if env.busy (← call) then throw (.code ebusy)
      return a

def verifyBdevWritable (bdevPath : Path) : DriverM Bool := do
  let n ← call
  match env.blkdevGetByPath n bdevPath with
  | .error e => throw (.code e)
  | .ok b => return env.writable n b

def ioctlSetup (minor : Nat) (bdevPath cowPath : Path) (cacheSize : Nat) (isSnap isReload : Bool) : DriverM Unit := do
  verifyMinorAvailable env minor
  let isMounted ← verifyBdevWritable env bdevPath
  if isMounted == isReload then throw (.code .einval)
  let a ← tracerAlloc env
  onCode
    (if isSnap then
      if isMounted then tracerSetupActiveSnap env a minor bdevPath cacheSize
      else tracerSetupUnverified env a minor bdevPath cowPath cacheSize true
    else if !isMounted then tracerSetupUnverified env a minor bdevPath cowPath cacheSize false
    else throw (.code .einval))
    (kfree a)

def ioctlDestroy (minor : Nat) : DriverM Unit := do
  let a ← verifyMinorInUseNotBusy env minor
  tracerDestroy env a
  kfree a

def ioctlTransitionInc (minor : Nat) : DriverM Unit := do
  let a ← verifyMinorInUseNotBusy env minor
  let dev ← getDev a
  match dev.failCode with
  | some e => throw (.code e)
  | none =>
      if !dev.snapshot || !dev.active then throw (.code .einval)
      tracerActiveSnapToInc env a

def ioctlTransitionSnap (minor : Nat) : DriverM Unit := do
  let a ← verifyMinorInUseNotBusy env minor
  let dev ← getDev a
  if dev.failCode.isSome then throw (.code .einval)
  if dev.snapshot || !dev.active then throw (.code .einval)
  tracerActiveIncToSnap env a

def ioctlReconfigure (minor cacheSize : Nat) : DriverM Unit := do
  let a ← verifyMinorInUseNotBusy env minor
  let dev ← getDev a
  if dev.failCode.isSome then throw (.code .einval)
  onDev a (tracerReconfigure env cacheSize)

def tracerActiveToDormant (a : Nat) : DriverM Unit :=
  onDev a (do
    tracerDestroyCowThread env
    match ← attempt (tracerDestroyCow env .syncAndClose) with
    | none => modifyDev fun dev => { dev with active := false }
    | some e => tracerSetFailState e)

def tracerUnverifiedToActive (isSnap : Bool) (a : Nat) : DriverM Unit := do
  let dev ← getDev a
  match dev.bdevPath, dev.cowPath with
  | some bdevPath, some relPath => do
      tracerDestroyTracing env a
      onDev a (modifyDev fun dev => { dev with active := true, unverified := false, bdevPath := none, cowPath := none })
      let ret ← attempt (do
        tracerSetupBaseDev env a bdevPath
        onDev a (do
          let dev := (← get).dev
          tracerSetupCow env dev.size dev.cacheSize .reload
          tracerSetupCowPath env
          if isSnap then tracerSetupSnap env
          tracerSetupCowThread env
          wakeUpProcess)
        tracerSetupTracing env a dev.minor)
      match ret with
      | none => pure ()
      | some e =>
          tracerDestroy env a
          let _ ← attempt (tracerSetupUnverified env a dev.minor bdevPath relPath dev.cacheSize isSnap)
          onDev a (tracerSetFailState e)
  | _, _ => throw .oops

def tracerUnverifiedSnapToActive (a : Nat) : DriverM Unit := tracerUnverifiedToActive env true a

def tracerUnverifiedIncToActive (a : Nat) : DriverM Unit := tracerUnverifiedToActive env false a

def tracerDormantToActive (a : Nat) : DriverM Unit :=
  onDev a (do
    let ret ← attempt (do
      tracerSetupCow env 0 0 .reopen
      tracerSetupCowThread env
      wakeUpProcess
      modifyDev fun dev => { dev with active := true, unverified := false })
    match ret with
    | none => pure ()
    | some e => tracerSetFailState e)

def autoTransitionActive (a : Nat) : DriverM Unit := do
  let dev ← getDev a
  if dev.unverified then
    if dev.snapshot then tracerUnverifiedSnapToActive env a else tracerUnverifiedIncToActive env a
  else tracerDormantToActive env a

/-- The device that went dormant, if there was one to. -/
def handleBdevMountNowrite (b : Nat) : DriverM (Option Nat) := do
  let found ← tracerForEach fun _ dev => pure (dev.active && dev.failCode.isNone && dev.baseDev == some b)
  match found with
  | none => pure none
  | some a =>
      tracerActiveToDormant env a
      return some a

def handleBdevMountWritable (b : Nat) : DriverM Unit := do
  let found ← tracerForEach fun _ dev =>
    if dev.active || dev.failCode.isSome then pure false
    else if dev.unverified then
      match dev.bdevPath with
      | none => throw .oops
      | some path => do
          match env.blkdevGetByPath (← call) path with
          | .error _ => pure false
          | .ok c => pure (c = b)
    else pure (dev.baseDev == some b)
  match found with
  | none => pure ()
  | some a => autoTransitionActive env a

def postUmountCheck (a : Nat) (umounted : Bool) : DriverM Unit := do
  let dev ← getDev a
  if !umounted then
    match dev.bdevPath with
    | none => throw .oops
    | some path =>
        match env.blkdevGetByPath (← call) path with
        | .error _ => onDev a (tracerSetFailState enodev)
        | .ok _ => autoTransitionActive env a
  else
    match dev.baseDev with
    | none => throw .oops
    | some b => if env.writable (← call) b then onDev a (tracerSetFailState .eio)

/-- An umount, or a remount read-only, of a mount point on a block device. -/
def umountHook (b : Nat) (umounted : Bool) : DriverM Unit := do
  match ← handleBdevMountNowrite env b with
  | none => pure ()
  | some a => postUmountCheck env a umounted

def mountHook (b : Nat) (mounted : Bool) : DriverM Unit :=
  if mounted then handleBdevMountWritable env b else pure ()

/-- Something goes wrong in the tracing of writes or in a worker. -/
def failDevice (minor : Nat) (e : Errno) : DriverM Unit := do
  match (← get).snapDevices minor with
  | none => pure ()
  | some a => onDev a (tracerSetFailState e)

/-- The worker of a device comes round to look whether the device has failed. -/
def noticeFailure (minor : Nat) : DriverM Unit := do
  match (← get).snapDevices minor with
  | none => pure ()
  | some a => onDev a (modifyDev fun dev =>
      if dev.cowThread = .running ∧ dev.failCode.isSome then cowFreeMembers dev else dev)

inductive Event
  | setupSnap (minor : Nat) (bdevPath cowPath : Path) (cacheSize : Nat)
  | reloadSnap (minor : Nat) (bdevPath cowPath : Path) (cacheSize : Nat)
  | reloadInc (minor : Nat) (bdevPath cowPath : Path) (cacheSize : Nat)
  | destroy (minor : Nat)
  | transitionInc (minor : Nat)
  | transitionSnap (minor : Nat)
  | reconfigure (minor cacheSize : Nat)
  | umount (b : Nat) (umounted : Bool)
  | mount (b : Nat) (mounted : Bool)
  | failure (minor : Nat) (e : Errno)
  | notice (minor : Nat)

def exec : Event → DriverM Unit
  | .setupSnap minor bdevPath cowPath cacheSize => ioctlSetup env minor bdevPath cowPath cacheSize true false
  | .reloadSnap minor bdevPath cowPath cacheSize => ioctlSetup env minor bdevPath cowPath cacheSize true true
  | .reloadInc minor bdevPath cowPath cacheSize => ioctlSetup env minor bdevPath cowPath cacheSize false true
  | .destroy minor => ioctlDestroy env minor
  | .transitionInc minor => ioctlTransitionInc env minor
  | .transitionSnap minor => ioctlTransitionSnap env minor
  | .reconfigure minor cacheSize => ioctlReconfigure env minor cacheSize
  | .umount b umounted => umountHook env b umounted
  | .mount b mounted => mountHook env b mounted
  | .failure minor e => failDevice minor e
  | .notice minor => noticeFailure minor

/-- An event that ends in an oops has no state after it. -/
def step (d : DriverState) (event : Event) : Option DriverState :=
  match exec env event d with
  | .ok _ d' => some d'
  | .error (.code _) d' => some d'
  | .error .oops _ => none

end ElastioSnap.Driver.Events
