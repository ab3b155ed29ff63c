import ElastioSnap.Cow.Protocol

namespace ElastioSnap.Driver.Handovers

open Lib.Outcome Lib.Runs Lib.Flags Cow.Manager Cow.FileIo Cow.Header Cow.Mapping Cow.Data Cow.Lifecycle Cow.Regions
open Cow.Protocol (left)
open Cow.Cleanup (cowSyncAndFreeSections)

/-- A call of the COW manager that a clone, a read or a sector set leads to. -/
inductive Call
  | readMapping (pos : UInt64)
  | readData (blockPos : UInt64) (blockOff : Nat)
  | writeCurrent (block : UInt64) (buf : Nat → UInt8)
  | writeFillerMapping (pos : UInt64)

def Call.run (ps : Nat) : Call → CowM Unit
  | .readMapping pos => do
      let _ ← cowReadMapping ps pos
  | .readData blockPos blockOff => do
      let _ ← cowReadData ps blockPos blockOff
  | .writeCurrent block buf => cowWriteCurrent ps block buf
  | .writeFillerMapping pos => cowWriteFillerMapping ps pos

/-- The first call that fails is the last one. -/
def runCalls (ps : Nat) : List Call → CowM Unit
  | [] => pure ()
  | c :: cs => do
      c.run ps
      runCalls ps cs

/-- `sd_cow_thread`, which is created asleep. In every round of its loop it waits, reads the fail state and takes
what is first in its queue, and `is_failed` is its own latch. -/
inductive Thread
  | created
  | head (isFailed : Bool)
  | waiting (isFailed : Bool)
  | looked (isFailed : Bool)
  deriving DecidableEq

def Thread.isFailed : Thread → Bool
  | .created => false
  | .head isFailed | .waiting isFailed | .looked isFailed => isFailed

/-- A device with the calls of the COW manager that wait in its queue. -/
structure Device where
  snapshot : Bool
  active : Bool
  fail : Bool
  queue : List (List Call)
  cowThread : Option Thread

/-- What an ioctl of a transition has come to: whether it returned an error, whether the device it left had failed
before its thread was stopped, whether the device at the minor has, whether the COW file it left is there with a
header that says it is clean. -/
structure Finished where
  isError : Bool
  oldFailed : Bool
  newFailed : Bool
  clean : Bool
  deriving DecidableEq

/-- What is under way with the ioctl mutex held. The device at the minor is a new one once a transition has set up
its tracing, and the old one with its COW manager is still there. -/
inductive Doing
  | idle
  | toInc
  | incTraced (old : Device)
  | incStopped (oldFailed : Bool)
  | incWoken (oldFailed : Bool)
  | incWarns (oldFailed : Bool)
  | toSnap
  | snapTraced (old : Device) (cow : World)
  | snapStopped (oldFailed : Bool) (cow : World)
  | toDormant
  | dormantStopped
  | destroying
  | gone
  /-- A pointer was followed that the COW manager does not have any more. -/
  | oops

/-- The device at a minor with its COW manager. The mount hooks look at the device before they get the mutex: so
many unmounts and mounts have seen that it is theirs, and so many unmounts have yet to see what became of them. -/
structure State where
  dev : Device
  world : World
  doing : Doing
  umounts : Nat
  checks : Nat
  mounts : Nat
  finished : List Finished

/-- What happens to a device and its thread. -/
inductive Work
  | fails
  | enqueue (calls : List Call)
  | wait
  | look
  | handle

inductive Action
  /-- To the old device of a transition, or to the one at the minor. -/
  | work (old : Bool) (a : Work)
  | transitionInc
  /-- `tracer_active_snap_to_inc` up to the new tracing function, which may not be reached. -/
  | traceInc (ok : Bool)
  | transitionSnap
  /-- `tracer_active_inc_to_snap` up to the new tracing function, with a COW file in the given surroundings. -/
  | traceSnap (elements fileMax : UInt64) (cacheSize : Nat) (w : World) (ok : Bool)
  | stopThread
  | readFailState
  | truncate
  | warn
  | syncAndFree
  | seeUmount
  | umount
  | syncAndClose
  | umounted (ok : Bool)
  | seeMount
  | mount (ok : Bool)
  | reconfigure (cacheSize : Nat)
  /-- A dormant device that is the last one on its disk gets a thread for what it has queued. -/
  | destroy (last : Bool)
  | free

/-- The pointers that the handlers of a thread follow. The file of a dormant device is closed, and its blocks are
reached without it. -/
def present (dev : Device) (w : World) : Bool := w.cm.sects.isSome && (w.cm.filp || !dev.active)

/-- The file that was left would be taken for one that was closed. -/
def leftClean (w : World) : Bool :=
  let ch := diskHeader w
  w.linked && decide (ch.magic = cowMagic) && hasFlag ch.flags cowClean

def wakeUpProcess (dev : Device) : Device := { dev with cowThread := some (.head false) }

def tracerSetFailState (dev : Device) : Device := { dev with fail := true }

/-- The devices that have a thread, and their COW managers. -/
def State.side (s : State) : Bool → Option (Device × World)
  | false => some (s.dev, s.world)
  | true =>
      match s.doing with
      | .incTraced old => some (old, s.world)
      | .snapTraced old cow => some (old, cow)
      | _ => none

def State.put (s : State) (old : Bool) (t : Device × World) : State :=
  match old, s.doing with
  | true, .incTraced _ => { s with doing := .incTraced t.1, world := t.2 }
  | true, .snapTraced _ _ => { s with doing := .snapTraced t.1 t.2 }
  | _, _ => { s with dev := t.1, world := t.2 }

/-- `kthread_should_stop` of the thread of a device. -/
def State.stopping (s : State) : Bool → Bool
  | true => true
  | false =>
      match s.doing with
      | .toDormant | .destroying => true
      | _ => false

def enterWait (t : Device × World) : Option (Device × World) :=
  match t.1.cowThread with
  | some (.head isFailed) => some ({ t.1 with cowThread := some (.waiting isFailed) }, t.2)
  | _ => none

/-- The end of the wait, and the latch of `snap_cow_thread` and of `inc_sset_thread`. -/
def lookFail (stop : Bool) (t : Device × World) : Option (Device × World) :=
  match t.1.cowThread with
  | some (.waiting isFailed) =>
      if !stop && t.1.queue.isEmpty then none
      else if t.1.fail && !isFailed then some ({ t.1 with cowThread := some (.looked true) }, left (cowFreeMembers t.2))
      else some ({ t.1 with cowThread := some (.looked isFailed) }, t.2)
  | _ => none

/-- The rest of the round. A thread that has failed drops what it takes. -/
def handleNext (ps : Nat) (t : Device × World) : Option (Device × World) :=
  match t.1.cowThread, t.1.queue with
  | some (.looked isFailed), [] => some ({ t.1 with cowThread := some (.head isFailed) }, t.2)
  | some (.looked isFailed), calls :: rest =>
      let dev := { t.1 with queue := rest, cowThread := some (.head isFailed) }
      if isFailed then some (dev, t.2)
      else
        match runCalls ps calls t.2 with
        | .ok _ w => some (dev, w)
        | .error _ w => some (tracerSetFailState dev, w)
  | _, _ => none

/-- The thread is about to make a call, and one of the pointers is not there. -/
def faults (t : Device × World) : Work → Bool
  | .handle => decide (t.1.cowThread = some (.looked false)) && !t.1.queue.isEmpty && !present t.1 t.2
  | _ => false

def Work.run (ps : Nat) (stop : Bool) (t : Device × World) : Work → Option (Device × World)
  | .fails => some (tracerSetFailState t.1, t.2)
  | .enqueue calls => some ({ t.1 with queue := t.1.queue ++ [calls] }, t.2)
  | .wait => enterWait t
  | .look => lookFail stop t
  | .handle => handleNext ps t

/-- `kthread_stop` has come to its end. A thread that was not woken up has not run, and another one leaves its loop
at the head of it, with nothing queued. -/
def exited (dev : Device) : Bool :=
  match dev.cowThread with
  | none | some .created => true
  | some (.head _) => dev.queue.isEmpty
  | _ => false

/-- The checks of an ioctl for a transition from one mode. -/
def mayLeave (s : State) (snapshot : Bool) : Bool :=
  !s.dev.fail && s.dev.active && decide (s.dev.snapshot = snapshot)

def State.finish (s : State) (f : Finished) : State := { s with doing := .idle, finished := s.finished ++ [f] }

/-- A transition that returns an error before a new device is traced. -/
def State.callOff (s : State) : State := s.finish ⟨true, s.dev.fail, s.dev.fail, leftClean s.world⟩

def tracerActiveSnapToInc (s : State) (ok : Bool) : State :=
  if ok then { s with dev := ⟨false, true, false, [], some .created⟩, doing := .incTraced s.dev } else s.callOff

def tracerActiveIncToSnap (ps : Nat) (s : State) (elements fileMax : UInt64) (cacheSize : Nat) (w : World) (ok : Bool) :
    State :=
  match cowInit ps elements (cowSectionSize ps) cacheSize fileMax s.world.cm.uuid (s.world.cm.seqid + 1) w with
  | .ok _ w' =>
      if ok then
        { s with dev := ⟨true, true, false, [], some .created⟩, world := w', doing := .snapTraced s.dev s.world }
      else s.callOff
  | .error .. => s.callOff

/-- The threads that are stopped. A new snapshot's thread is woken up once the old device has none. -/
def tracerDestroyCowThread (s : State) : Option State :=
  match s.doing with
  | .incTraced old => if exited old then some { s with doing := .incStopped old.fail } else none
  | .snapTraced old cow =>
      if exited old then some { s with dev := wakeUpProcess s.dev, doing := .snapStopped old.fail cow } else none
  | .toDormant =>
      if exited s.dev then some { s with dev := { s.dev with cowThread := none }, doing := .dormantStopped } else none
  | _ => none

/-- The failure of the device that was left is passed on, before the new thread is woken up. -/
def readFailState (s : State) (oldFailed : Bool) : State :=
  if oldFailed then
    { s with dev := wakeUpProcess (tracerSetFailState s.dev) }.finish ⟨true, oldFailed, true, leftClean s.world⟩
  else { s with dev := wakeUpProcess s.dev, doing := .incWoken oldFailed }

def State.done (s : State) (oldFailed : Bool) : State :=
  s.finish ⟨false, oldFailed, s.dev.fail, leftClean s.world⟩

def truncateToIndex (s : State) (oldFailed : Bool) : State :=
  if s.world.cm.filp then
    match cowTruncateToIndex s.world with
    | .ok _ w => { s with world := w }.done oldFailed
    | .error _ w => { s with world := w, doing := .incWarns oldFailed }
  else { s with doing := .oops }

/-- The warning about the truncation names the file. -/
def warnTruncation (s : State) (oldFailed : Bool) : State :=
  if s.world.cm.filp then s.done oldFailed else { s with doing := .oops }

def tracerDestroyCowSyncAndFree (ps : Nat) (s : State) (oldFailed : Bool) (cow : World) : State :=
  if cow.cm.sects.isSome && cow.cm.filp then
    s.finish ⟨false, oldFailed, s.dev.fail, leftClean (left (cowSyncAndFree ps cow))⟩
  else { s with doing := .oops }

def tracerDestroyCowSyncAndClose (ps : Nat) (s : State) : State :=
  if s.world.cm.sects.isSome && s.world.cm.filp then
    match cowSyncAndClose ps s.world with
    | .ok _ w => { s with dev := { s.dev with active := false }, world := w, doing := .idle, checks := s.checks + 1 }
    | .error _ w => { s with dev := tracerSetFailState s.dev, world := w, doing := .idle, checks := s.checks + 1 }
  else { s with doing := .oops }

def tracerDormantToActive (s : State) (ok : Bool) : State :=
  match cowReopen s.world with
  | .ok _ w =>
      if ok then { s with dev := wakeUpProcess { s.dev with active := true }, world := w }
      else { s with dev := tracerSetFailState { s.dev with cowThread := none }, world := w }
  | .error _ w => { s with dev := tracerSetFailState s.dev, world := w }

def tracerReconfigure (ps cacheSize : Nat) (s : State) : State :=
  if s.dev.active then { s with world := left (cowModifyCacheSize ps cacheSize s.world) } else s

def tracerDestroy (s : State) (last : Bool) : State :=
  { s with dev := if !s.dev.active && last then wakeUpProcess s.dev else s.dev, doing := .destroying }

/-- `none` says that a step cannot happen, or that an ioctl is refused by its checks. -/
def step (ps : Nat) (s : State) : Action → Option State
  | .work old a => (s.side old).bind fun t =>
      if faults t a then some { s with doing := .oops } else (a.run ps (s.stopping old) t).map (s.put old)
  | .transitionInc =>
      match s.doing with
      | .idle => if mayLeave s true then some { s with doing := .toInc } else none
      | _ => none
  | .traceInc ok =>
      match s.doing with
      | .toInc => some (tracerActiveSnapToInc s ok)
      | _ => none
  | .transitionSnap =>
      match s.doing with
      | .idle => if mayLeave s false then some { s with doing := .toSnap } else none
      | _ => none
  | .traceSnap elements fileMax cacheSize w ok =>
      match s.doing with
      | .toSnap => some (tracerActiveIncToSnap ps s elements fileMax cacheSize w ok)
      | _ => none
  | .stopThread => tracerDestroyCowThread s
  | .readFailState =>
      match s.doing with
      | .incStopped oldFailed => some (readFailState s oldFailed)
      | _ => none
  | .truncate =>
      match s.doing with
      | .incWoken oldFailed => some (truncateToIndex s oldFailed)
      | _ => none
  | .warn =>
      match s.doing with
      | .incWarns oldFailed => some (warnTruncation s oldFailed)
      | _ => none
  | .syncAndFree =>
      match s.doing with
      | .snapStopped oldFailed cow => some (tracerDestroyCowSyncAndFree ps s oldFailed cow)
      | _ => none
  | .seeUmount => if s.dev.active && !s.dev.fail then some { s with umounts := s.umounts + 1 } else none
  | .umount =>
      match s.doing, s.umounts with
      | .idle, n + 1 => some { s with doing := .toDormant, umounts := n }
      | _, _ => none
  | .syncAndClose =>
      match s.doing with
      | .dormantStopped => some (tracerDestroyCowSyncAndClose ps s)
      | _ => none
  | .umounted ok =>
      match s.checks with
      | n + 1 => some { s with checks := n, mounts := if ok then s.mounts else s.mounts + 1 }
      | 0 => none
  | .seeMount => if !s.dev.active && !s.dev.fail then some { s with mounts := s.mounts + 1 } else none
  | .mount ok =>
      match s.doing, s.mounts with
      | .idle, n + 1 => some (tracerDormantToActive { s with mounts := n } ok)
      | _, _ => none
  | .reconfigure cacheSize =>
      match s.doing with
      | .idle => if s.dev.fail then none else some (tracerReconfigure ps cacheSize s)
      | _ => none
  | .destroy last =>
      match s.doing with
      | .idle => some (tracerDestroy s last)
      | _ => none
  | .free =>
      match s.doing with
      | .destroying =>
          if exited s.dev then
            some { s with
              dev := { s.dev with cowThread := none }
              world := left (cowFreeMembers s.world)
              doing := .gone }
          else none
      | _ => none

/-- A device that was set up, or whose COW file was reloaded, has its thread at work. -/
def State.created (snapshot : Bool) (w : World) : State :=
  ⟨⟨snapshot, true, false, [], some (.head false)⟩, w, .idle, 0, 0, 0, []⟩

inductive Begins (ps : Nat) : State → Prop
  | setup {w₀ w : World} {elements fileMax seqid : UInt64} {cacheSize : Nat} {uuid : Fin 16 → UInt8}
      (h : cowInit ps elements (cowSectionSize ps) cacheSize fileMax uuid seqid w₀ = .ok () w) :
      Begins ps (.created true w)
  | reload {w₀ w : World} {elements : UInt64} {cacheSize : Nat} {indexOnly : Bool}
      (h : cowReload ps elements (cowSectionSize ps) cacheSize indexOnly w₀ = .ok () w) :
      Begins ps (.created (!indexOnly) w)

variable {ps : Nat} {s s' : State}

/-- What a step does, and when. -/
inductive Step (ps : Nat) (s : State) : Action → State → Prop
  | faults {t : Device × World} {old : Bool} {a : Work} (ht : s.side old = some t) (hf : faults t a = true) :
      Step ps s (.work old a) { s with doing := .oops }
  | work {t t' : Device × World} {old : Bool} {a : Work} (ht : s.side old = some t) (hf : faults t a = false)
      (hr : a.run ps (s.stopping old) t = some t') : Step ps s (.work old a) (s.put old t')
  | transitionInc (hi : s.doing = .idle) (hm : mayLeave s true = true) :
      Step ps s .transitionInc { s with doing := .toInc }
  | traceInc (ok : Bool) (hi : s.doing = .toInc) : Step ps s (.traceInc ok) (tracerActiveSnapToInc s ok)
  | transitionSnap (hi : s.doing = .idle) (hm : mayLeave s false = true) :
      Step ps s .transitionSnap { s with doing := .toSnap }
  | traceSnap (elements fileMax : UInt64) (cacheSize : Nat) (w : World) (ok : Bool) (hi : s.doing = .toSnap) :
      Step ps s (.traceSnap elements fileMax cacheSize w ok)
        (tracerActiveIncToSnap ps s elements fileMax cacheSize w ok)
  | stopThread {s' : State} (hs : tracerDestroyCowThread s = some s') : Step ps s .stopThread s'
  | readFailState {oldFailed : Bool} (hi : s.doing = .incStopped oldFailed) :
      Step ps s .readFailState (readFailState s oldFailed)
  | truncate {oldFailed : Bool} (hi : s.doing = .incWoken oldFailed) :
      Step ps s .truncate (truncateToIndex s oldFailed)
  | warn {oldFailed : Bool} (hi : s.doing = .incWarns oldFailed) : Step ps s .warn (warnTruncation s oldFailed)
  | syncAndFree {oldFailed : Bool} {cow : World} (hi : s.doing = .snapStopped oldFailed cow) :
      Step ps s .syncAndFree (tracerDestroyCowSyncAndFree ps s oldFailed cow)
  | seeUmount : Step ps s .seeUmount { s with umounts := s.umounts + 1 }
  | umount (n : Nat) (hi : s.doing = .idle) : Step ps s .umount { s with doing := .toDormant, umounts := n }
  | syncAndClose (hi : s.doing = .dormantStopped) : Step ps s .syncAndClose (tracerDestroyCowSyncAndClose ps s)
  | umounted (ok : Bool) (n m : Nat) : Step ps s (.umounted ok) { s with checks := n, mounts := m }
  | seeMount : Step ps s .seeMount { s with mounts := s.mounts + 1 }
  | mount (ok : Bool) (n : Nat) (hi : s.doing = .idle) :
      Step ps s (.mount ok) (tracerDormantToActive { s with mounts := n } ok)
  | reconfigure (cacheSize : Nat) (hi : s.doing = .idle) :
      Step ps s (.reconfigure cacheSize) (tracerReconfigure ps cacheSize s)
  | destroy (last : Bool) (hi : s.doing = .idle) : Step ps s (.destroy last) (tracerDestroy s last)
  | free : Step ps s .free
      { s with dev := { s.dev with cowThread := none }, world := left (cowFreeMembers s.world), doing := .gone }

theorem step_of {x : Action} (h : step ps s x = some s') : Step ps s x s' := by
  cases x with
  | work old a =>
      obtain ⟨t, ht, h⟩ := Option.bind_eq_some_iff.mp h
      split at h
      next hf =>
        cases h
        exact .faults ht hf
      next hf =>
        obtain ⟨t', hr, rfl⟩ := Option.map_eq_some_iff.mp h
        exact .work ht (Bool.eq_false_iff.mpr hf) hr
  | stopThread => exact .stopThread h
  | seeUmount =>
      obtain ⟨_, h⟩ := Option.ite_none_right_eq_some.mp h
      cases h
      exact .seeUmount
  | seeMount =>
      obtain ⟨_, h⟩ := Option.ite_none_right_eq_some.mp h
      cases h
      exact .seeMount
  | umounted ok =>
      simp only [step] at h
      split at h <;> cases h
      exact .umounted ok _ _
  | transitionInc =>
      simp only [step] at h
      split at h
      next hi =>
        obtain ⟨hm, h⟩ := Option.ite_none_right_eq_some.mp h
        cases h
        exact .transitionInc hi hm
      next => cases h
  | traceInc ok =>
      simp only [step] at h
      split at h <;> cases h
      next hi => exact .traceInc ok hi
  | transitionSnap =>
      simp only [step] at h
      split at h
      next hi =>
        obtain ⟨hm, h⟩ := Option.ite_none_right_eq_some.mp h
        cases h
        exact .transitionSnap hi hm
      next => cases h
  | traceSnap elements fileMax cacheSize w ok =>
      simp only [step] at h
      split at h <;> cases h
      next hi => exact .traceSnap elements fileMax cacheSize w ok hi
  | readFailState =>
      simp only [step] at h
      split at h <;> cases h
      next hi => exact .readFailState hi
  | truncate =>
      simp only [step] at h
      split at h <;> cases h
      next hi => exact .truncate hi
  | warn =>
      simp only [step] at h
      split at h <;> cases h
      next hi => exact .warn hi
  | syncAndFree =>
      simp only [step] at h
      split at h <;> cases h
      next hi => exact .syncAndFree hi
  | umount =>
      simp only [step] at h
      split at h <;> cases h
      next hi _ => exact .umount _ hi
  | syncAndClose =>
      simp only [step] at h
      split at h <;> cases h
      next hi => exact .syncAndClose hi
  | mount ok =>
      simp only [step] at h
      split at h <;> cases h
      next hi _ => exact .mount ok _ hi
  | reconfigure cacheSize =>
      simp only [step] at h
      split at h
      next hi =>
        obtain ⟨_, h⟩ := Option.ite_none_left_eq_some.mp h
        cases h
        exact .reconfigure cacheSize hi
      next => cases h
  | destroy last =>
      simp only [step] at h
      split at h <;> cases h
      next hi => exact .destroy last hi
  | free =>
      simp only [step] at h
      split at h
      next =>
        obtain ⟨_, h⟩ := Option.ite_none_right_eq_some.mp h
        cases h
        exact .free
      next => cases h

end ElastioSnap.Driver.Handovers
