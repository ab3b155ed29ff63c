import ElastioSnap.Driver.State

namespace ElastioSnap.Driver.Setup

open Function (update)
open Lib.Outcome Cow.Lifecycle State
open Cow.Manager hiding Env

variable (env : Env)

def bdevIsAlreadyTraced (b : Nat) : DriverM Bool := do
  return (← tracerForEach fun _ dev => pure (!dev.unverified && dev.baseDev == some b)).isSome

/-- The operations installed on the disk of a device. -/
def getBdOps (dev : SnapDevice) : DriverM Ops := fun d =>
  match dev.baseDev with
  | some b => .ok (d.ops.bdOps (env.disk b)) d
  | none => .error .oops d

def modifyOps (f : OpsState → OpsState) : DriverM Unit := modify fun d => { d with ops := f d.ops }

def setBdOps (b : Nat) : Option Ops → DriverM Unit
  | some new => modifyOps fun ops => { ops with bdOps := update ops.bdOps (env.disk b) new }
  | none => pure ()

/-- The references to tracing operations are counted in 32 bits. -/
def tracingOpsGet (t : Nat) : DriverM Unit := fun d =>
  match d.ops.refs t with
  | some r => .ok () { d with ops := { d.ops with refs := update d.ops.refs t (some ((r + 1) % 2 ^ 32)) } }
  | none => .error .oops d

def tracingOpsPut (t : Nat) : DriverM Unit := fun d =>
  match d.ops.refs t with
  | some r => .ok () { d with ops := { d.ops with
      refs := update d.ops.refs t (if r = 1 then none else some ((r + (2 ^ 32 - 1)) % 2 ^ 32)) } }
  | none => .error .oops d

def tracingOpsAlloc (a : Nat) : DriverM Unit := do
  check env .enomem
  check env .enomem
  let t := (← get).ops.nextOps
  modifyOps fun ops => { ops with refs := update ops.refs t (some 1), nextOps := t + 1 }
  onDev a (modifyDev fun dev => { dev with tracingOps := some t })

/-- A verified device whose disk has the given operations, other than `skip`. -/
def tracerOnOps (ops : Ops) (skip : Option Nat) : DriverM (Option Nat) :=
  tracerForEach fun c cur =>
    if cur.unverified ∨ skip = some c then pure false
    else do return (← getBdOps env cur) = ops

/-- A disk whose operations have no `submit_bio` needs that of the block layer. -/
def findOrigFops (a : Nat) : DriverM Unit := do
  let ops ← getBdOps env (← getDev a)
  onDev a (modifyDev fun dev => { dev with tracingOps := none })
  match ops with
  | .native _ =>
      check env .efault
      onDev a (modifyDev fun dev => { dev with origOps := some ops })
  | .copy _ =>
      match ← tracerOnOps env ops none with
      | some c =>
          let cur ← getDev c
          match cur.tracingOps with
          | some t => tracingOpsGet t
          | none => pure ()
          onDev a (modifyDev fun dev => { dev with origOps := cur.origOps, tracingOps := cur.tracingOps })
      | none =>
          onDev a (modifyDev fun dev => { dev with origOps := none })
          throw (.code .efault)

def tracerShouldResetMrf (a : Nat) : DriverM Bool := do
  let dev ← getDev a
  let ops ← getBdOps env dev
  if !ops.isTracing then return false
  if (← get).snapDevices dev.minor ≠ some a then return false
  return (← tracerOnOps env ops (some a)).isNone

/-- The file system on the block device is frozen around the change. -/
def tracerTransitionTracing (a b : Nat) (newOps : Option Ops) (minor : Nat) (start : Bool) : DriverM Unit := do
  match env.freeze (← call) with
  | some e => throw (.code e)
  | none =>
      if start then
        modify fun d => { d with snapDevices := update d.snapDevices minor (some a) }
        setBdOps env b newOps
      else
        setBdOps env b newOps
        modify fun d => { d with snapDevices := update d.snapDevices minor none }

def tracerAlloc : DriverM Nat := do
  check env .enomem
  let a := (← get).nextDev
  modify fun d => { d with devs := update d.devs a (some .zero), nextDev := a + 1 }
  return a

def kfree (a : Nat) : DriverM Unit := modify fun d => { d with devs := update d.devs a none }

def tracerSetFailState (e : Errno) : DevM Unit :=
  modifyDev fun dev => { dev with failCode := some (dev.failCode.getD e) }

def tracerDestroyBaseDev : DevM Unit :=
  modifyDev fun dev => { dev with size := 0, bdevPath := none, baseDev := none }

def tracerSetupBaseDev (a : Nat) (bdevPath : Path) : DriverM Unit :=
  onCode
    (do
      let n ← call
      match env.blkdevGetByPath n bdevPath with
      | .error e => throw (.code e)
      | .ok b =>
          onDev a (modifyDev fun dev => { dev with baseDev := some b })
          check env .efault
          if ← bdevIsAlreadyTraced b then throw (.code .einval)
          tick env
          onDev a (modifyDev fun dev => { dev with
            bdevPath := some (env.absolute n bdevPath)
            size := env.capacity n b }))
    (onDev a tracerDestroyBaseDev)

def tracerCopyBaseDev (src : SnapDevice) : DevM Unit :=
  modifyDev fun dest => { dest with size := src.size, baseDev := src.baseDev, bdevPath := src.bdevPath }

def cowFreeMembers (dev : SnapDevice) : SnapDevice :=
  { dev with cow := dev.cow.map fun c => { c with filp := false, sects := false } }

inductive CloseMethod
  | free
  | syncAndFree
  | syncAndClose
  deriving DecidableEq

/-- Writing back the sections reads the array of sections, and closing the manager looks its
extents up in the open file. -/
def closeCow (c : CowState) : CloseMethod → DevM Unit
  | .free => modifyDev fun dev => { dev with cow := none }
  | .syncAndFree => do
      if !c.sects then throw .oops
      onCode (devTick env) (modifyDev fun dev => { dev with cow := none })
      modifyDev fun dev => { dev with cow := none }
  | .syncAndClose => do
      if !c.sects || !c.filp then throw .oops
      onCode (devTick env) (modifyDev cowFreeMembers)
      modifyDev fun dev => { dev with cow := some { c with filp := false } }

def tracerDestroyCow (method : CloseMethod) : DevM Unit := do
  let ret ← attempt (do
    match (← get).dev.cow with
    | some c => closeCow env c method
    | none => pure ())
  modifyDev fun dev => { dev with cacheSize := 0 }
  match ret with
  | none => pure ()
  | some e => throw (.code e)

inductive OpenMethod
  | init
  | reload
  | reopen
  deriving DecidableEq

/-- The manager that `cow_init` and `cow_reload` make. -/
def openedCow (size cacheSize : Nat) : CowState :=
  let total := sectionTotal env.ps (UInt64.ofNat (size / sectorsPerBlock env.ps)) (cowSectionSize env.ps)
  ⟨true, true, total, cowCalculateAllowedSects env.ps cacheSize total⟩

def cacheOrDefault (cacheSize : Nat) : Nat := if cacheSize = 0 then env.cowMaxMemoryDefault else cacheSize

def reopenCow : DevM Unit := do
  match (← get).dev.cow with
  | none => throw .oops
  | some c =>
      onCode (devTick env) (modifyDev fun dev => { dev with cow := some { c with filp := false } })
      modifyDev fun dev => { dev with cow := some { c with filp := true } }

/-- With `init` the path is used as it is; otherwise it is joined to that of the mount point. -/
def tracerSetupCow (size cacheSize : Nat) (method : OpenMethod) : DevM Unit :=
  onCode
    (do
      if method ≠ .init then devTick env
      if method = .reopen then reopenCow env
      else
        modifyDev fun dev => { dev with cacheSize := cacheOrDefault env cacheSize }
        devTick env
        modifyDev fun dev => { dev with cow := some (openedCow env size dev.cacheSize) })
    (if method = .reopen then pure () else tracerDestroyCow env .free)

/-- The manager is handed over: `dest` works on the one of `src`. -/
def tracerCopyCow (src : SnapDevice) : DevM Unit := do
  if src.cow.isNone then throw .oops
  modifyDev fun dest => { dest with cow := src.cow, cacheSize := src.cacheSize }

def tracerDestroyCowPath : DevM Unit := modifyDev fun dev => { dev with cowPath := none }

def tracerSetupCowPath : DevM Unit :=
  onCode
    (do
      let n ← devCall
      match env.fault n with
      | some e => throw (.code e)
      | none => modifyDev fun dev => { dev with cowPath := some (env.cowPathname n) })
    tracerDestroyCowPath

def tracerCopyCowPath (src : SnapDevice) : DevM Unit := modifyDev fun dest => { dest with cowPath := src.cowPath }

def tracerDestroySnap : DevM Unit :=
  modifyDev fun dev => { dev with mrfThread := false, gd := false, queue := false }

def tracerSetupSnap : DevM Unit :=
  onCode
    (do
      devTick env
      devTick env
      modifyDev fun dev => { dev with gd := true, queue := true }
      devTick env
      devTick env
      modifyDev fun dev => { dev with mrfThread := true })
    tracerDestroySnap

/-- What the worker does with what is left in its queue before it ends: something in it may
fail, and where it finds the device failed it gives up the manager. -/
def drainCowThread : DevM Unit := do
  match env.fault (← devCall) with
  | some e => tracerSetFailState e
  | none => pure ()
  let n ← devCall
  modifyDev fun dev => if dev.failCode.isSome && env.notices n then cowFreeMembers dev else dev

/-- Without a queue there are no requests to ignore. -/
def stopRequestQueue : DevM Unit := modifyDev fun dev => { dev with ignoreRequests := dev.ignoreRequests || dev.queue }

def tracerDestroyCowThread : DevM Unit := do
  let dev := (← get).dev
  if dev.cowThread ≠ .absent then
    stopRequestQueue
    if dev.cowThread = .running then drainCowThread env
    modifyDev fun dev => { dev with cowThread := .absent }

def tracerSetupCowThread : DevM Unit := do
  devTick env
  modifyDev fun dev => { dev with cowThread := .created }

def wakeUpProcess : DevM Unit := do
  if (← get).dev.cowThread = .absent then throw .oops
  modifyDev fun dev => { dev with cowThread := .running }

def minorRangeRecalculate : DriverM Unit := modify fun d =>
  let used := (List.range env.maxSnapDevices).filter fun i => (d.snapDevices i).isSome
  { d with lowestMinor := used.foldl min (env.maxSnapDevices - 1), highestMinor := used.foldl max 0 }

def minorRangeInclude (minor : Nat) : DriverM Unit := modify fun d =>
  { d with lowestMinor := min d.lowestMinor minor, highestMinor := max d.highestMinor minor }

def freeMrfAndOps (a : Nat) : DriverM Unit := do
  match (← getDev a).tracingOps with
  | some t => tracingOpsPut t
  | none => pure ()
  onDev a (modifyDev fun dev => { dev with tracingOps := none, origOps := none })

/-- The writes that a dormant device has queued are worked off by a thread made for that. -/
def flushBioRequests (a : Nat) : DriverM Unit := do
  let _ ← attempt (onDev a (tracerSetupCowThread env))
  onDev a wakeUpProcess
  onDev a (tracerDestroyCowThread env)

def tracerDestroyTracing (a : Nat) : DriverM Unit := do
  let dev ← getDev a
  (if dev.origOps.isSome then do
    match dev.baseDev with
    | none => throw .oops
    | some b =>
        (if ← tracerShouldResetMrf env a then do
          if !dev.active then flushBioRequests env a
          let _ ← attempt (tracerTransitionTracing env a b dev.origOps dev.minor false)
        else do
          let _ ← attempt (tracerTransitionTracing env a b none dev.minor false))
        freeMrfAndOps a
  else modify fun d =>
    if d.snapDevices dev.minor = some a then { d with snapDevices := update d.snapDevices dev.minor none } else d)
  onDev a (modifyDev fun dev => { dev with minor := 0 })
  minorRangeRecalculate env

def tracerSetupTracingUnverified (a minor : Nat) : DriverM Unit := do
  freeMrfAndOps a
  minorRangeInclude minor
  onDev a (modifyDev fun dev => { dev with minor := minor })
  modify fun d => { d with snapDevices := update d.snapDevices minor (some a) }

def tracerSetupTracing (a minor : Nat) : DriverM Unit :=
  onCode
    (do
      onDev a (modifyDev fun dev => { dev with minor := minor })
      minorRangeInclude minor
      if (← getDev a).tracingOps.isNone then
        findOrigFops env a
        if (← getDev a).tracingOps.isNone then tracingOpsAlloc env a
        let dev ← getDev a
        match dev.baseDev, dev.tracingOps with
        | some b, some t => tracerTransitionTracing env a b (some (.copy t)) minor true
        | _, _ => throw .oops)
    (do
      onDev a (modifyDev fun dev => { dev with minor := 0 })
      freeMrfAndOps a
      minorRangeRecalculate env)

end ElastioSnap.Driver.Setup
