import ElastioSnap.Snapshot.Queue
import ElastioSnap.Lib.Table

namespace ElastioSnap.Snapshot.Tracking

open Queue

/-- What does not change while a device is in snapshot mode. Sectors are absolute on the disk,
blocks are relative to the tracked device. -/
structure Device where
  sectOff : Nat
  size : Nat
  sectorsPerBlock : Nat
  ignoreSnapErrors : Bool
  /-- The blocks of the COW file, where the file is on the tracked device. -/
  owned : Nat → Bool
  pos : 0 < sectorsPerBlock

theorem eight_pos : 0 < 8 := by decide

def Device.block (d : Device) (sector : Nat) : Nat :=
  (sector - d.sectOff) / d.sectorsPerBlock

/-- The sector at an offset inside a block. -/
def Device.sector (d : Device) (b o : Nat) : Nat :=
  d.sectOff + d.sectorsPerBlock * b + o

/-- A bio of some sectors overlaps a block. -/
def Device.Overlaps (d : Device) (sector sectors b : Nat) : Prop :=
  ∃ t, sector ≤ t ∧ t < sector + sectors ∧ d.block t = b

/-- How far a read clone is on its way from `bio_make_read_clone` to the end of its completion
handler. -/
inductive Stage
  | created
  | counted
  | submitted
  | completed
  | queued
  | received
  | done
  | failed
  | failing
  | dropped
  | leaked
  deriving DecidableEq, Repr

structure Clone (β : Type) where
  addr : Nat
  tp : Nat
  sect : Nat
  pages : Nat
  stage : Stage
  /-- What is left of `bi_size` when the read completes, in sectors. -/
  left : Nat
  data : Nat → β

structure BioSectorMap where
  bio : Nat
  sect : Nat
  size : Nat
  deriving DecidableEq, Repr

inductive Pc
  | allocTp
  | makeClone
  | addMap
  | count
  | submit
  | put
  | setFail
  | cleanUp
  | returned
  deriving DecidableEq, Repr

/-- A write bio in `snap_trace_bio`, with the local variables of the call and its tracing
parameters: `refs` is `none` until they are allocated and `some 0` once they are freed. -/
structure Write where
  sector : Nat
  sectors : Nat
  pc : Pc
  startSect : Nat
  pages : Nat
  newBio : Option Nat
  refs : Option Nat
  bioSects : List BioSectorMap
  deriving DecidableEq, Repr

inductive Mode
  | none
  | cowFile
  | baseDevice
  | mixed
  deriving DecidableEq, Repr

inductive ReadStatus (β : Type)
  | waiting
  | ended (ok failed : Bool) (data : Nat → β)

/-- A snapshot read. Its sectors are relative to the device, as the snapshot device's are. -/
structure SnapRead (β : Type) where
  sector : Nat
  sectors : Nat
  pages : Nat → β
  status : ReadStatus β

inductive Work (β : Type)
  | idle
  | dequeue
  | write (bio : Bio)
  | mode (bio : Bio)
  | base (bio : Bio) (mode : Mode)
  | overlay (bio : Bio) (data : Nat → β)
  | finish (bio : Bio) (ok : Bool) (data : Nat → β)

/-- `saved` is what the COW manager stores: what each block held when it was first written. -/
structure State (β : Type) where
  fail : Bool
  tracing : Bool
  writes : List Write
  clones : List (Clone β)
  freedBios : List Nat
  reads : List (SnapRead β)
  cowBios : List Bio
  origBios : List Nat
  submitted : List Nat
  submittedCnt : Nat
  receivedCnt : Nat
  processedCnt : Nat
  base : Nat → β
  saved : Nat → Option (Nat → β)
  work : Work β
  isFailed : Bool
  cowStop : Bool
  cowExited : Bool
  mrfStop : Bool
  mrfExited : Bool
  freed : Bool

/-- The instant the snapshot is created. -/
def State.created {β : Type} (base : Nat → β) : State β where
  fail := false
  tracing := true
  writes := []
  clones := []
  freedBios := []
  reads := []
  cowBios := []
  origBios := []
  submitted := []
  submittedCnt := 0
  receivedCnt := 0
  processedCnt := 0
  base := base
  saved := fun _ => none
  work := .idle
  isFailed := false
  cowStop := false
  cowExited := false
  mrfStop := false
  mrfExited := false
  freed := false

variable {β : Type}

/-- What a write of some sectors makes of a disk. -/
def overwrite (base : Nat → β) (sector sectors : Nat) (content : Nat → β) : Nat → β :=
  fun t => if sector ≤ t ∧ t < sector + sectors then content t else base t

def State.setWrite (s : State β) (i : Nat) (w : Write) : State β :=
  { s with writes := s.writes.set i w }

def State.setStage (s : State β) (k : Nat) (stage : Stage) : State β :=
  { s with clones := s.clones.modify k fun c => { c with stage := stage } }

def setClone (s : State β) (k : Nat) (c : Clone β) : State β :=
  { s with clones := s.clones.set k c }

def bioFreeClone (s : State β) (k : Nat) : State β :=
  { s with freedBios := k :: s.freedBios }

def tpGet (w : Write) : Write :=
  { w with refs := w.refs.map (· + 1) }

/-- Dropping the last reference releases the original bio. -/
def tpPut (i : Nat) (w : Write) (s : State β) : State β :=
  { s with
    writes := s.writes.set i { w with refs := w.refs.map (· - 1) }
    origBios := if w.refs = some 1 then s.origBios ++ [i] else s.origBios }

def tracerSetFailState (s : State β) : State β :=
  { s with fail := true }

/-- Not submitted yet, so the call that allocated the clone still has it. -/
def Stage.isNew : Stage → Bool
  | .created | .counted => true
  | _ => false

def Stage.sent : Stage → Bool
  | .created | .counted | .leaked => false
  | _ => true

/-- Submitted, with its completion handler not yet at its end. -/
def Stage.inFlight : Stage → Bool
  | .submitted | .completed | .queued | .received | .failed | .failing => true
  | _ => false

/-- A clone that the error exit of `snap_trace_bio` freed keeps its reference for ever. -/
def Stage.holdsRef : Stage → Bool
  | .done | .dropped => false
  | _ => true

/-- The pages hold what was read. -/
def Stage.hasData : Stage → Bool
  | .completed | .queued | .received | .done => true
  | _ => false

/-- Read without error, and on `sd_cow_bios` now or before. -/
def Stage.appended : Stage → Bool
  | .queued | .received | .done => true
  | _ => false

def Clone.holdsRef (i : Nat) (c : Clone β) : Bool :=
  c.tp == i && c.stage.holdsRef

/-- The pages of the clone hold the whole block. -/
def Clone.Covers (d : Device) (c : Clone β) (b : Nat) : Prop :=
  c.sect ≤ d.sector b 0 ∧ d.sector b d.sectorsPerBlock ≤ c.sect + d.sectorsPerBlock * c.pages

end ElastioSnap.Snapshot.Tracking
