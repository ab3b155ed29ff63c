import ElastioSnap.Cow.Lifecycle
import Mathlib.Logic.Function.Basic

namespace ElastioSnap.Driver.State

open Lib.Outcome
open Cow.Manager hiding Env

abbrev Path := String

/-- The operations installed on a disk: those of its own driver, or a tracing copy of such
operations, whose `submit_bio` is `tracing_mrf`. -/
inductive Ops
  | native (n : Nat)
  | copy (t : Nat)
  deriving DecidableEq

def Ops.isTracing : Ops → Bool
  | .native _ => false
  | .copy _ => true

/-- A COW manager; `sects` is false where the array of sections is null. -/
structure CowState where
  filp : Bool
  sects : Bool
  totalSects : Nat
  allowedSects : Nat
  deriving DecidableEq

/-- A kernel thread that was created waits until it is woken for the first time. -/
inductive Thread
  | absent
  | created
  | running
  deriving DecidableEq

/-- The three bits of `sd_state`, then the other fields of the device. `origOps` stands for the
saved operations and for their `submit_bio`: the two are set and cleared together. -/
structure SnapDevice where
  minor : Nat
  snapshot : Bool
  active : Bool
  unverified : Bool
  failCode : Option Errno
  size : Nat
  baseDev : Option Nat
  bdevPath : Option Path
  cow : Option CowState
  cowPath : Option Path
  cacheSize : Nat
  cowThread : Thread
  gd : Bool
  queue : Bool
  mrfThread : Bool
  ignoreRequests : Bool
  origOps : Option Ops
  tracingOps : Option Nat
  deriving DecidableEq

def SnapDevice.zero : SnapDevice :=
  ⟨0, false, false, false, none, 0, none, none, none, none, 0, .absent, false, false, false, false, none, none⟩

/-- The parameters of the module, the disks, and the answers of the kernel to the calls made to
it, by the number of the call: which block device a path names, how large it is, whether it is
mounted writable, whether a device is in use, whether a call fails, whether a freeze does, and
whether the worker of a failed device comes to see that it failed. -/
structure Env where
  maxSnapDevices : Nat
  cowMaxMemoryDefault : Nat
  ps : Nat
  disk : Nat → Nat
  capacity : Nat → Nat → Nat
  blkdevGetByPath : Nat → Path → Except Errno Nat
  absolute : Nat → Path → Path
  cowPathname : Nat → Path
  writable : Nat → Nat → Bool
  busy : Nat → Bool
  fault : Nat → Option Errno
  freeze : Nat → Option Errno
  notices : Nat → Bool

/-- The operations of the disks, and the counts of the references to the tracing operations that
were allocated and not freed yet. -/
structure OpsState where
  bdOps : Nat → Ops
  refs : Nat → Option Nat
  nextOps : Nat

/-- Freed memory is never handed out again, so that an address says which object is meant. -/
structure DriverState where
  devs : Nat → Option SnapDevice
  nextDev : Nat
  snapDevices : Nat → Option Nat
  lowestMinor : Nat
  highestMinor : Nat
  ops : OpsState
  clock : Nat

/-- The module is loaded: no device yet, and every disk has the operations of its own driver. -/
def DriverState.start (env : Env) (native : Nat → Nat) : DriverState where
  devs := fun _ => none
  nextDev := 0
  snapDevices := fun _ => none
  lowestMinor := env.maxSnapDevices - 1
  highestMinor := 0
  ops := ⟨fun k => .native (native k), fun _ => none, 0⟩
  clock := 0

abbrev DriverM := EStateM Err DriverState

/-- A computation on one device; it reads and writes nothing else. -/
structure Local where
  dev : SnapDevice
  clock : Nat

abbrev DevM := EStateM Err Local

def modifyDev (f : SnapDevice → SnapDevice) : DevM Unit := modify fun l => { l with dev := f l.dev }

/-- The number of the next call to the kernel. -/
def devCall : DevM Nat := fun l => .ok l.clock { l with clock := l.clock + 1 }

def devTick (env : Env) : DevM Unit := do
  match env.fault (← devCall) with
  | none => pure ()
  | some e => throw (.code e)

def call : DriverM Nat := fun d => .ok d.clock { d with clock := d.clock + 1 }

def tick (env : Env) : DriverM Unit := do
  match env.fault (← call) with
  | none => pure ()
  | some e => throw (.code e)

/-- A call whose failure is reported as one fixed code. -/
def check (env : Env) (e : Errno) : DriverM Unit := do
  match env.fault (← call) with
  | none => pure ()
  | some _ => throw (.code e)

/-- The return code of a computation, as a value. -/
def attempt {σ : Type} (x : EStateM Err σ Unit) : EStateM Err σ (Option Errno) := fun s =>
  match x s with
  | .ok _ t => .ok none t
  | .error (.code e) t => .ok (some e) t
  | .error .oops t => .error .oops t

/-- What follows the label `error`: `g` runs and the code is returned. -/
def onCode {σ : Type} (x g : EStateM Err σ Unit) : EStateM Err σ Unit := do
  match ← attempt x with
  | none => pure ()
  | some e => do
      g
      throw (.code e)

/-- A device that was freed is not read. -/
def getDev (a : Nat) : DriverM SnapDevice := fun d =>
  match d.devs a with
  | some dev => .ok dev d
  | none => .error .oops d

def DriverState.put (d : DriverState) (a : Nat) (l : Local) : DriverState :=
  { d with devs := Function.update d.devs a (some l.dev), clock := l.clock }

def onDev {α : Type} (a : Nat) (x : DevM α) : DriverM α := fun d =>
  match d.devs a with
  | none => .error .oops d
  | some dev =>
      match x ⟨dev, d.clock⟩ with
      | .ok r l => .ok r (d.put a l)
      | .error e l => .error e (d.put a l)

/-- The device at a minor, unless there is none or it was freed. -/
def DriverState.row (d : DriverState) (i : Nat) : Option SnapDevice := (d.snapDevices i).bind d.devs

def DriverState.minorRange (d : DriverState) : List Nat := (List.range (d.highestMinor + 1)).drop d.lowestMinor

/-- The first device between the lowest and the highest minor for which `p` answers yes. -/
def findTracer (p : Nat → SnapDevice → DriverM Bool) : List Nat → DriverM (Option Nat)
  | [] => pure none
  | i :: is => do
      match (← get).snapDevices i with
      | none => findTracer p is
      | some a =>
          let dev ← getDev a
          if ← p a dev then pure (some a) else findTracer p is

def tracerForEach (p : Nat → SnapDevice → DriverM Bool) : DriverM (Option Nat) := do
  findTracer p (← get).minorRange

/-- What holds where a computation fails with a code; nothing is said of an oops. -/
def Fails {σ : Type} (F : Errno → σ → Prop) : Err → σ → Prop
  | .code e, s => F e s
  | .oops, _ => True

section Rules

variable {σ : Type} {s : σ} {x g : EStateM Err σ Unit} {F F' : Errno → σ → Prop} {e : Errno}

@[simp] theorem fails_code : Fails F (.code e) s ↔ F e s := Iff.rfl

@[simp] theorem fails_oops : Fails F .oops s := trivial

theorem wp_weaken {α : Type} {x : EStateM Err σ α} {Q Q' : α → σ → Prop} (h : wp x s Q (Fails F))
    (hQ : ∀ r t, Q r t → Q' r t) (hF : ∀ c t, F c t → F' c t) : wp x s Q' (Fails F') := by
  apply wp_mono h hQ
  intro err t ht
  cases err with
  | code c => exact hF c t ht
  | oops => trivial

theorem wp_attempt {Q : Option Errno → σ → Prop} :
    wp (attempt x) s Q (Fails F) ↔ wp x s (fun _ t => Q none t) (Fails fun c t => Q (some c) t) := by
  unfold wp attempt
  cases x s with
  | ok _ t => rfl
  | error e t => cases e <;> rfl

theorem wp_onCode {Q : Unit → σ → Prop} :
    wp (onCode x g) s Q (Fails F) ↔
      wp x s Q (Fails fun c t => wp g t (fun _ u => F c u) (Fails F)) := by
  simp only [onCode, wp_bind, wp_attempt, wp_pure, wp_throw, fails_code]

end Rules

def DriverState.atCall (d : DriverState) (n : Nat) : DriverState := { d with clock := n }

variable {d : DriverState} {a : Nat} {l l' : Local} {dev : SnapDevice} {α : Type} {x : DevM α}
  {F : Errno → DriverState → Prop} {G : Errno → Local → Prop}

@[simp] theorem put_put : (d.put a l).put a l' = d.put a l' := by
  simp only [DriverState.put, Function.update_idem]

@[simp] theorem put_devs : (d.put a l).devs a = some l.dev := Function.update_self ..

@[simp] theorem put_clock : (d.put a l).clock = l.clock := rfl

theorem put_devs_of_ne {b : Nat} (h : b ≠ a) : (d.put a l).devs b = d.devs b := Function.update_of_ne h ..

theorem wp_onDev {Q : α → DriverState → Prop} (h : d.devs a = some dev) :
    wp (onDev a x) d Q (Fails F) ↔
      wp x ⟨dev, d.clock⟩ (fun r l => Q r (d.put a l)) (Fails fun c l => F c (d.put a l)) := by
  unfold wp onDev
  rw [h]
  dsimp only
  cases x ⟨dev, d.clock⟩ with
  | ok r l => rfl
  | error e l => cases e <;> rfl

theorem wp_getDev {Q : SnapDevice → DriverState → Prop} :
    wp (getDev a) d Q (Fails F) ↔ ∀ dev, d.devs a = some dev → Q dev d := by
  unfold wp getDev
  cases h : d.devs a with
  | none => simp
  | some dev => simp

@[simp] theorem wp_call {Q : Nat → DriverState → Prop} :
    wp call d Q (Fails F) ↔ Q d.clock (d.atCall (d.clock + 1)) := Iff.rfl

theorem wp_tick {env : Env} {Q : Unit → DriverState → Prop} (hok : Q () (d.atCall (d.clock + 1)))
    (herr : ∀ e, F e (d.atCall (d.clock + 1))) : wp (tick env) d Q (Fails F) := by
  simp only [tick, wp_bind, wp_call]
  cases env.fault d.clock with
  | none => exact hok
  | some e => exact herr e

theorem wp_check {env : Env} {e : Errno} {Q : Unit → DriverState → Prop} (hok : Q () (d.atCall (d.clock + 1)))
    (herr : F e (d.atCall (d.clock + 1))) : wp (check env e) d Q (Fails F) := by
  simp only [check, wp_bind, wp_call]
  cases env.fault d.clock with
  | none => exact hok
  | some _ => exact herr

@[simp] theorem wp_modifyDev {f : SnapDevice → SnapDevice} {Q : Unit → Local → Prop} :
    wp (modifyDev f) l Q (Fails G) ↔ Q () { l with dev := f l.dev } := Iff.rfl

@[simp] theorem wp_devCall {Q : Nat → Local → Prop} :
    wp devCall l Q (Fails G) ↔ Q l.clock { l with clock := l.clock + 1 } := Iff.rfl

theorem wp_devTick {env : Env} {Q : Unit → Local → Prop} (hok : Q () { l with clock := l.clock + 1 })
    (herr : ∀ e, G e { l with clock := l.clock + 1 }) : wp (devTick env) l Q (Fails G) := by
  simp only [devTick, wp_bind, wp_devCall]
  cases env.fault l.clock with
  | none => exact hok
  | some e => exact herr e

end ElastioSnap.Driver.State
