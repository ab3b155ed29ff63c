import ElastioSnap.Cow.OnDisk
import ElastioSnap.Incremental.Series

namespace ElastioSnap.Incremental.Dormancy

open Lib.Outcome Lib.Flags Snapshot.Tracking Snapshot.CowThread Snapshot.Blocks Snapshot.PointInTime IncTrace Marking
  Series
open Cow.Manager (World cowClean)
open Cow.Section (indexAt diskWord)
open Cow.Header (diskHeader)
open Cow.Lifecycle (cowFreeMembers cowSyncAndClose cowReopen)
open Cow.Protocol (Unclean stopAt)
open Snapshot.Queue (bioQueueDequeueDelayRead clones)
open Snapshot.Machine (disk)
open Snapshot.Filing (NoReuse)
open Snapshot.Drain (InDevice)
open Snapshot.Storage (Sector blockBytes Backed OfSnap)
open Tracker (Ready leaves)

/-- A call of `inc_trace_bio`: the sector sets that it has still to queue, and whether there is no memory for
the one after them. -/
structure Call where
  bio : Tracker.Bio
  ssets : List SectorSet
  failed : Bool

/-- A tracer in incremental mode, with the calls that are under way and the bios that the original function has
got from them. -/
structure Marker where
  state : Tracker.State
  calls : List Call
  submitted : List Tracker.Bio

inductive IncAction
  | traceBio (bio : Tracker.Bio) (alloc : Nat → Bool)
  /-- A call queues its next sector set. -/
  | makeSset (n : Nat)
  /-- A call gives its bio to the original function. -/
  | submit (n : Nat)
  | tracker (a : Tracker.Action)

inductive Tracer
  | snap (s : Backed)
  | inc (m : Marker)

/-- A device whose thread was stopped for an umount, and whose file is closed then. A device that is destroyed
while it is dormant gets a thread again, to have its queue flushed. -/
inductive Phase
  | active | stopped | dormant | flushing | gone
  deriving DecidableEq

structure State where
  tracer : Tracer
  phase : Phase

inductive Action
  | snap (a : Snapshot.Storage.Action)
  | inc (a : IncAction)
  /-- The thread leaves its loop. -/
  | exit
  | close
  | reopen
  | flush
  | destroy

def Phase.hasThread : Phase → Bool
  | .active | .flushing => true
  | _ => false

/-- Before a thread is stopped the request queue of the snapshot is, and readers are waited for. -/
def Phase.allows (phase : Phase) : Snapshot.Storage.Action → Bool
  | .modifyCacheSize _ | .snap (.snapRead ..) => phase = .active
  | .snap (.cow .exit) | .snap .stopTracing | .snap .stopCow | .snap .stopMrf | .snap .mrfExit | .snap .free => false
  | .snap (.cow _) => phase.hasThread
  | _ => true

def Phase.allowsInc (phase : Phase) : Tracker.Action → Bool
  | .land _ | .own .. | .failure => true
  | .look | .handle => phase.hasThread
  | .modifyCacheSize _ | .truncate => phase = .active
  | .trace .. | .toDormant | .toActive => false

def Tracer.world : Tracer → World
  | .snap s => s.world
  | .inc m => m.state.world

def Marker.put (w : World) (m : Marker) : Marker := { m with state := { m.state with world := w } }

def Tracer.put (w : World) : Tracer → Tracer
  | .snap s => .snap { s with world := w }
  | .inc m => .inc (m.put w)

def Tracer.fail : Tracer → Bool
  | .snap s => s.snap.fail
  | .inc m => m.state.dev.fail

def Tracer.setFail : Tracer → Tracer
  | .snap s => .snap { s with snap := tracerSetFailState s.snap }
  | .inc m => .inc { m with state := { m.state with dev := { m.state.dev with fail := true } } }

/-- A new thread has not seen a failure yet. -/
def Tracer.newThread : Tracer → Tracer
  | .snap s => .snap { s with snap := { s.snap with isFailed := false } }
  | .inc m => .inc { m with state := { m.state with dev := { m.state.dev with isFailed := false } } }

def Tracer.stopTracing : Tracer → Tracer
  | .snap s => .snap { s with snap := { s.snap with tracing := false } }
  | .inc m => .inc m

/-- The condition of the loop of the thread, once it is to stop. -/
def Tracer.finished : Tracer → Bool
  | .snap s =>
      match s.snap.work with
      | .idle => s.snap.cowBios.isEmpty && s.snap.submittedCnt == s.snap.receivedCnt
      | _ => false
  | .inc m => m.state.dev.ssets.isEmpty

def incTraceBio (d : Device) (cow : CowFile) (bio : Tracker.Bio) (alloc : Nat → Bool) (m : Marker) : Option Marker :=
  if m.state.dev.fail then
    some { m with state := { m.state with dev := { m.state.dev with inFlight := m.state.dev.inFlight ++ [bio] } } }
  else
    let r := IncTrace.incTraceBio d cow alloc bio.sector bio.data
    some { m with calls := m.calls ++ [⟨bio, r.1, r.2⟩] }

def incMakeSset (n : Nat) (m : Marker) : Option Marker :=
  m.calls[n]?.bind fun c =>
    match c.ssets with
    | [] => none
    | sset :: rest =>
        some { m with
          state := { m.state with dev := { m.state.dev with ssets := m.state.dev.ssets ++ [sset] } }
          calls := m.calls.set n { c with ssets := rest } }

def submitBio (n : Nat) (m : Marker) : Option Marker :=
  m.calls[n]?.bind fun c =>
    if c.ssets.isEmpty then
      some {
        state := { m.state with dev := { m.state.dev with
          fail := m.state.dev.fail || c.failed
          inFlight := m.state.dev.inFlight ++ [c.bio] } }
        calls := m.calls.eraseIdx n
        submitted := m.submitted ++ [c.bio] }
    else none

def incStep (d : Device) (cow : CowFile) (phase : Phase) (m : Marker) : IncAction → Option Marker
  | .traceBio bio alloc => if phase = .gone then none else incTraceBio d cow bio alloc m
  | .makeSset n => incMakeSset n m
  | .submit n => submitBio n m
  | .tracker a =>
      if phase.allowsInc a then (Tracker.step d cow m.state a).map fun s => { m with state := s } else none

def snapStep (d : Device) (phase : Phase) (s : Backed) (a : Snapshot.Storage.Action) : Option Backed :=
  if phase.allows a then Snapshot.Storage.step d s a else none

/-- `cow_sync_and_close` in `__tracer_active_to_dormant`. -/
def tracerActiveToDormant (x : Tracer) : State :=
  match cowSyncAndClose 12 x.world with
  | .ok _ w => ⟨x.put w, .dormant⟩
  | .error _ w => ⟨(x.put w).setFail, .stopped⟩

def tracerDormantToActive (x : Tracer) : State :=
  match cowReopen x.world with
  | .ok _ w => ⟨(x.put w).newThread, .active⟩
  | .error _ w => ⟨(x.put w).setFail, .dormant⟩

def step (d : Device) (cow : CowFile) (s : State) : Action → Option State
  | .snap a =>
      match s.tracer with
      | .snap b => (snapStep d s.phase b a).map fun b' => ⟨.snap b', s.phase⟩
      | .inc _ => none
  | .inc a =>
      match s.tracer with
      | .snap _ => none
      | .inc m => (incStep d cow s.phase m a).map fun m' => ⟨.inc m', s.phase⟩
  | .exit => if s.phase = .active ∧ s.tracer.finished = true then some ⟨s.tracer, .stopped⟩ else none
  | .close => if s.phase = .stopped then some (tracerActiveToDormant s.tracer) else none
  | .reopen => if s.phase = .dormant then some (tracerDormantToActive s.tracer) else none
  | .flush => if s.phase = .dormant then some ⟨s.tracer.newThread, .flushing⟩ else none
  -- the queue is flushed only for the last device on its disk
  | .destroy =>
      if s.phase = .dormant ∨ s.phase = .flushing ∧ s.tracer.finished = true then
        some ⟨s.tracer.stopTracing.put (leaves cowFreeMembers s.tracer.world), .gone⟩
      else none

/-- What is in the file when the machine stops in a step, before a call: this call and all later ones do nothing. -/
def crash (d : Device) (cow : CowFile) (s : State) (a : Action) (n : Nat) : Option World :=
  (step d cow ⟨s.tracer.put (stopAt s.tracer.world n), s.phase⟩ a).map (·.tracer.world)

/-- The block was written by a traced bio that was submitted, in incremental mode other than with pages of the COW
file. -/
def Tracer.Wrote (d : Device) (resident : Bool) (inode : Nat) (b : Nat) : Tracer → Prop
  | .snap s => ∃ (i : Nat) (w : Write),
      i ∈ s.snap.submitted ∧ s.snap.writes[i]? = some w ∧ d.Overlaps w.sector w.sectors b
  | .inc m => ∃ bio ∈ m.submitted, ∃ x, d.block x = b ∧ bio.Changes resident inode x

/-- The original content of a block is where its entry says. -/
def Tracer.Saved (d : Device) (b₀ : Nat → Sector) (b : Nat) : Tracer → Prop
  | .snap s => d.owned b = false → ∀ p, p < 4096 →
      s.world.file.bytes ((diskWord s.world b).toNat * 4096 + p) = blockBytes (fun o => b₀ (d.sector b o)) p
  | .inc _ => True

/-- If the header on disk is clean, no block is missed by a reload of the file. -/
def Seals (d : Device) (b₀ : Nat → Sector) (resident : Bool) (inode : Nat) (x : Tracer) : Prop :=
  hasFlag (diskHeader x.world).flags cowClean = true →
    ∀ b, x.Wrote d resident inode b → diskWord x.world b ≠ 0 ∧ x.Saved d b₀ b

/-- Nothing is queued for the thread while there is none, nor for the one that flushes the queue. -/
def Quiet (phase : Phase) : Action → Prop
  | .snap (.snap (.reader _ .append)) | .inc (.makeSset _) => phase = .active
  | _ => True

/-- The cow thread does not take a clone while an older one that shares a block without an entry is queued. -/
def Ordered (d : Device) (s : Backed) : Snapshot.Storage.Action → Prop
  | .snap (.cow .dequeue) => ∀ bio rest pre post, bioQueueDequeueDelayRead s.snap.cowBios = some (bio, rest) →
      clones s.snap.cowBios = pre ++ bio :: post → ∀ older ∈ pre, ∀ b, indexAt s.world b = 0 →
        ¬ (CoversBlock d s.snap b older ∧ CoversBlock d s.snap b bio)
  | _ => True

/-- Bios lie in the device, those in incremental mode are no discards, no clone gets the address of an earlier one
of its write, and clones that share a block are stored in their order. -/
def Proper (d : Device) (s : State) : Action → Prop
  | .snap a => ∀ b, s.tracer = .snap b → OfSnap (fun s a => InDevice d a ∧ NoReuse s a) b a ∧ Ordered d b a
  | .inc (.traceBio bio _) => Traced d bio.sector bio.data
  | _ => True

/-- A device that is set up with a new COW file, or that is in incremental mode with a COW file in order. -/
inductive Start (d : Device) (b₀ : Nat → Sector) : State → Prop
  | snap {s : Backed} (hd : Whole d) (hfresh : Fresh d b₀ s) : Start d b₀ ⟨.snap s, .active⟩
  | inc {base : Nat → Sector} {w : World} (hready : Ready false w) (hdirty : Unclean w.file)
      (hindexed : Tracker.Indexed d w) : Start d b₀ ⟨.inc ⟨⟨.new, base, w, false⟩, [], []⟩, .active⟩

variable {d : Device} {cow : CowFile} {v w : World} {x : Tracer} {phase : Phase} {s s' : State}

@[simp] theorem put_world : x.put x.world = x := by
  cases x <;> rfl

@[simp] theorem put_put : (x.put w).put v = x.put v := by
  cases x <;> rfl

@[simp] theorem world_put : (x.put w).world = w := by
  cases x <;> rfl

@[simp] theorem fail_put : (x.put w).fail = x.fail := by
  cases x <;> rfl

@[simp] theorem world_setFail : x.setFail.world = x.world := by
  cases x <;> rfl

@[simp] theorem world_newThread : x.newThread.world = x.world := by
  cases x <;> rfl

@[simp] theorem fail_setFail : x.setFail.fail = true := by
  cases x <;> rfl

@[simp] theorem fail_newThread : x.newThread.fail = x.fail := by
  cases x <;> rfl

@[simp] theorem fail_stopTracing : x.stopTracing.fail = x.fail := by
  cases x <;> rfl

theorem incStep_back {m m' : Marker} {a : IncAction} (hstep : incStep d cow phase m a = some m')
    (hf : m'.state.dev.fail = false) : m.state.dev.fail = false := by
  by_contra hfail
  rw [Bool.not_eq_false] at hfail
  have hfails : m'.state.dev.fail = true := by
    cases a with
    | traceBio bio alloc =>
        simp only [incStep, incTraceBio, hfail] at hstep
        split at hstep <;> cases hstep
        rfl
    | makeSset n =>
        obtain ⟨c, -, hstep⟩ := Option.bind_eq_some_iff.mp hstep
        split at hstep <;> cases hstep
        exact hfail
    | submit n =>
        obtain ⟨c, -, hstep⟩ := Option.bind_eq_some_iff.mp hstep
        split at hstep <;> cases hstep
        dsimp only
        rw [hfail, Bool.true_or]
    | tracker a =>
        simp only [incStep] at hstep
        split at hstep
        next =>
          obtain ⟨s, hs, rfl⟩ := Option.map_eq_some_iff.mp hstep
          exact Tracker.step_fails hs hfail
        next => cases hstep
  rw [hf] at hfails
  cases hfails

theorem step_back {a : Action} (hstep : step d cow s a = some s') (hf : s'.tracer.fail = false) :
    s.tracer.fail = false := by
  obtain ⟨x, phase⟩ := s
  cases a with
  | snap a =>
      cases x with
      | inc m => cases hstep
      | snap y =>
          obtain ⟨y', hy, rfl⟩ := Option.map_eq_some_iff.mp hstep
          unfold snapStep at hy
          split at hy
          next => exact Snapshot.Storage.intact_back hy hf
          next => cases hy
  | inc a =>
      cases x with
      | snap y => cases hstep
      | inc m =>
          obtain ⟨m', hm, rfl⟩ := Option.map_eq_some_iff.mp hstep
          exact incStep_back hm hf
  | exit =>
      simp only [step] at hstep
      split at hstep <;> cases hstep
      exact hf
  | close =>
      simp only [step, tracerActiveToDormant] at hstep
      split at hstep
      next =>
        split at hstep <;> cases hstep
        · rw [fail_put] at hf
          exact hf
        · rw [fail_setFail] at hf
          cases hf
      next => cases hstep
  | reopen =>
      simp only [step, tracerDormantToActive] at hstep
      split at hstep
      next =>
        split at hstep <;> cases hstep
        · rw [fail_newThread, fail_put] at hf
          exact hf
        · rw [fail_setFail] at hf
          cases hf
      next => cases hstep
  | flush =>
      simp only [step] at hstep
      split at hstep <;> cases hstep
      rw [fail_newThread] at hf
      exact hf
  | destroy =>
      simp only [step] at hstep
      split at hstep <;> cases hstep
      rw [fail_put, fail_stopTracing] at hf
      exact hf

end ElastioSnap.Incremental.Dormancy
