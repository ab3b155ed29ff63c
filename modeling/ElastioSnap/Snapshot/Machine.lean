import ElastioSnap.Lib.Runs
import ElastioSnap.Snapshot.TraceBio
import ElastioSnap.Snapshot.ReadComplete
import ElastioSnap.Snapshot.CowThread

namespace ElastioSnap.Snapshot.Machine

open Lib.Runs Lib.Table Queue Tracking TraceBio ReadComplete CowThread

/-- Everything that can happen while a device is in snapshot mode and while it is torn down. -/
inductive Action (β : Type)
  /-- `tracing_mrf` decides to trace a write bio. -/
  | trace (sector sectors : Nat)
  | tracer (i : Nat) (act : TraceAct)
  | reader (k : Nat) (act : ReadAct)
  | cow (act : CowAct)
  /-- `snap_mrf_thread` submits the first original bio, which changes the base device. -/
  | mrfSubmit (content : Nat → β)
  | mrfExit
  /-- A write that is not traced: of the COW file itself, or with tracing off or the device failed. -/
  | direct (sector sectors : Nat) (content : Nat → β)
  | snapRead (sector sectors : Nat) (pages : Nat → β)
  | failure
  | stopTracing
  | stopCow
  | stopMrf
  | free

variable {β : Type}

def tracerShouldTraceBio (d : Device) (sector sectors : Nat) (s : State β) : Bool :=
  sectors != 0 && !s.fail && decide (d.sectOff ≤ sector) && decide (sector < d.sectOff + d.size)

/-- A write that `bio_needs_cow` lets through: all of it goes to blocks of the COW file. -/
def ownBlocks (d : Device) (sector sectors : Nat) : Bool :=
  decide (d.sectOff ≤ sector) && (List.range' sector sectors).all fun t => d.owned (d.block t)

def snapMrfThread (content : Nat → β) (s : State β) : Option (State β) :=
  match s.origBios with
  | [] => none
  | i :: rest => s.writes[i]?.map fun w =>
      { s with
        origBios := rest
        submitted := s.submitted ++ [i]
        base := overwrite s.base w.sector w.sectors content }

def step (d : Device) (s : State β) : Action β → Option (State β)
  | .trace sector sectors =>
      if s.tracing && tracerShouldTraceBio d sector sectors s then
        some { s with writes := s.writes ++ [newWrite d sector sectors] }
      else none
  | .tracer i act => s.writes[i]?.bind fun w => snapTraceBio d act i w s
  | .reader k act => s.clones[k]?.bind fun c => s.writes[c.tp]?.bind fun w => onBioReadComplete d act k c w s
  | .cow act => snapCowThread d act s
  | .mrfSubmit content => if s.mrfExited then none else snapMrfThread content s
  | .mrfExit => if s.mrfStop && s.origBios.isEmpty then some { s with mrfExited := true } else none
  | .direct sector sectors content =>
      if s.fail || !s.tracing || ownBlocks d sector sectors then
        some { s with base := overwrite s.base sector sectors content }
      else none
  | .snapRead sector sectors pages =>
      if s.fail then
        some { s with reads := s.reads ++ [⟨sector, sectors, pages, .ended d.ignoreSnapErrors true pages⟩] }
      else
        some { s with
          reads := s.reads ++ [⟨sector, sectors, pages, .waiting⟩]
          cowBios := s.cowBios ++ [⟨false, sector, sectors, s.reads.length⟩] }
  | .failure => some (tracerSetFailState s)
  | .stopTracing => some { s with tracing := false }
  | .stopCow => if s.tracing then none else some { s with cowStop := true }
  | .stopMrf => if s.cowExited then some { s with mrfStop := true } else none
  | .free => if s.mrfExited then some { s with freed := true } else none

/-- What a step of the system can do. -/
inductive Step (d : Device) (s : State β) : Action β → State β → Prop
  | trace (sector sectors : Nat) (ht : s.tracing = true) (hn : 0 < sectors) (hf : s.fail = false)
      (ho : d.sectOff ≤ sector) :
      Step d s (.trace sector sectors) { s with writes := s.writes ++ [newWrite d sector sectors] }
  | tracer (i : Nat) (w : Write) (act : TraceAct) (t : State β) (hw : s.writes[i]? = some w)
      (h : TraceStep d i w s act t) : Step d s (.tracer i act) t
  | reader (k : Nat) (c : Clone β) (w : Write) (act : ReadAct) (t : State β) (hc : s.clones[k]? = some c)
      (hw : s.writes[c.tp]? = some w) (h : ReadStep d k c w s act t) : Step d s (.reader k act) t
  | cow (act : CowAct) (t : State β) (h : CowStep d s act t) : Step d s (.cow act) t
  | mrfSubmit (content : Nat → β) (i : Nat) (rest : List Nat) (w : Write) (he : s.mrfExited = false)
      (ho : s.origBios = i :: rest) (hw : s.writes[i]? = some w) :
      Step d s (.mrfSubmit content)
        { s with
          origBios := rest
          submitted := s.submitted ++ [i]
          base := overwrite s.base w.sector w.sectors content }
  | mrfExit (hs : s.mrfStop = true) (ho : s.origBios = []) : Step d s .mrfExit { s with mrfExited := true }
  | direct (sector sectors : Nat) (content : Nat → β)
      (h : s.fail = true ∨ s.tracing = false ∨ ownBlocks d sector sectors = true) :
      Step d s (.direct sector sectors content) { s with base := overwrite s.base sector sectors content }
  | refused (sector sectors : Nat) (pages : Nat → β) (hf : s.fail = true) :
      Step d s (.snapRead sector sectors pages)
        { s with reads := s.reads ++ [⟨sector, sectors, pages, .ended d.ignoreSnapErrors true pages⟩] }
  | snapRead (sector sectors : Nat) (pages : Nat → β) (hf : s.fail = false) :
      Step d s (.snapRead sector sectors pages)
        { s with
          reads := s.reads ++ [⟨sector, sectors, pages, .waiting⟩]
          cowBios := s.cowBios ++ [⟨false, sector, sectors, s.reads.length⟩] }
  | failure : Step d s .failure (tracerSetFailState s)
  | stopTracing : Step d s .stopTracing { s with tracing := false }
  | stopCow (ht : s.tracing = false) : Step d s .stopCow { s with cowStop := true }
  | stopMrf (he : s.cowExited = true) : Step d s .stopMrf { s with mrfStop := true }
  | free (he : s.mrfExited = true) : Step d s .free { s with freed := true }

variable {d : Device} {s t : State β} {a : Action β}

theorem step_of (h : step d s a = some t) : Step d s a t := by
  cases a with
  | trace sector sectors =>
      simp only [step] at h
      split at h
      next hg =>
        cases h
        simp only [tracerShouldTraceBio, Bool.and_eq_true, bne_iff_ne, ne_eq, Bool.not_eq_true',
          decide_eq_true_eq] at hg
        exact .trace sector sectors hg.1 (by omega) hg.2.1.1.2 hg.2.1.2
      next => cases h
  | tracer i act =>
      obtain ⟨w, hw, h⟩ := Option.bind_eq_some_iff.mp h
      exact .tracer i w act t hw (snapTraceBio_step h)
  | reader k act =>
      obtain ⟨c, hc, h⟩ := Option.bind_eq_some_iff.mp h
      obtain ⟨w, hw, h⟩ := Option.bind_eq_some_iff.mp h
      exact .reader k c w act t hc hw (onBioReadComplete_step h)
  | cow act => exact .cow act t (snapCowThread_step h)
  | mrfSubmit content =>
      simp only [step] at h
      split at h
      next => cases h
      next he =>
        simp only [snapMrfThread] at h
        split at h
        next => cases h
        next _ i rest ho =>
          obtain ⟨w, hw, rfl⟩ := Option.map_eq_some_iff.mp h
          exact .mrfSubmit content i rest w (by simpa using he) ho hw
  | mrfExit =>
      simp only [step] at h
      split at h
      next hg =>
        cases h
        rw [Bool.and_eq_true, List.isEmpty_iff] at hg
        exact .mrfExit hg.1 hg.2
      next => cases h
  | direct sector sectors content =>
      simp only [step] at h
      split at h
      next hg =>
        cases h
        simp only [Bool.or_eq_true, Bool.not_eq_true', or_assoc] at hg
        exact .direct sector sectors content hg
      next => cases h
  | snapRead sector sectors pages =>
      simp only [step] at h
      split at h
      next hf =>
        cases h
        exact .refused sector sectors pages hf
      next hf =>
        cases h
        exact .snapRead sector sectors pages (by simpa using hf)
  | failure =>
      cases h
      exact .failure
  | stopTracing =>
      cases h
      exact .stopTracing
  | stopCow =>
      simp only [step] at h
      split at h
      next => cases h
      next ht =>
        cases h
        exact .stopCow (by simpa using ht)
  | stopMrf =>
      simp only [step] at h
      split at h
      next he =>
        cases h
        exact .stopMrf he
      next => cases h
  | free =>
      simp only [step] at h
      split at h
      next he =>
        cases h
        exact .free he
      next => cases h

/-- What the steps that belong to no traced write leave as it is. -/
structure Frame (s t : State β) : Prop where
  writes : t.writes = s.writes
  clones : t.clones = s.clones
  origBios : t.origBios = s.origBios
  submitted : t.submitted = s.submitted
  submittedCnt : t.submittedCnt = s.submittedCnt
  receivedCnt : t.receivedCnt = s.receivedCnt
  fail : s.fail = true → t.fail = true

theorem snapHandleWriteBio_frame (bio : Bio) (c : Clone β) (handled : Nat) :
    Frame s (snapHandleWriteBio d bio c handled s) := by
  simp only [snapHandleWriteBio]
  split
  · exact ⟨rfl, rfl, rfl, rfl, rfl, rfl, id⟩
  · split <;> exact ⟨rfl, rfl, rfl, rfl, rfl, rfl, fun h => by simp [tracerSetFailState, h]⟩

theorem cow_frame {act : CowAct} (h : CowStep d s act t) : Frame s t := by
  cases h with
  | write handled bio c hw hc =>
      have hf := snapHandleWriteBio_frame (d := d) (s := s) bio c handled
      exact ⟨hf.writes, hf.clones, hf.origBios, hf.submitted, hf.submittedCnt, hf.receivedCnt, hf.fail⟩
  | drop bio rest hw hq hf =>
      simp only [take, hf]
      split <;> exact ⟨rfl, rfl, rfl, rfl, rfl, rfl, id⟩
  | error => exact ⟨rfl, rfl, rfl, rfl, rfl, rfl, fun _ => rfl⟩
  | _ => exact ⟨rfl, rfl, rfl, rfl, rfl, rfl, id⟩

/-- A step belongs to a traced write, or submits one, or leaves the traced writes alone. -/
theorem step_kinds (h : Step d s a t) :
    (∃ sector sectors, a = .trace sector sectors ∧ 0 < sectors ∧ d.sectOff ≤ sector ∧
      t = { s with writes := s.writes ++ [newWrite d sector sectors] }) ∨
    (∃ i w act, a = .tracer i act ∧ s.writes[i]? = some w ∧ TraceStep d i w s act t) ∨
    (∃ k c w act, a = .reader k act ∧ s.clones[k]? = some c ∧ s.writes[c.tp]? = some w ∧ ReadStep d k c w s act t) ∨
    (∃ i rest content w, a = .mrfSubmit content ∧ s.origBios = i :: rest ∧ s.writes[i]? = some w ∧
      t = { s with
        origBios := rest
        submitted := s.submitted ++ [i]
        base := overwrite s.base w.sector w.sectors content }) ∨
    ((∀ i act, a ≠ .tracer i act) ∧ Frame s t) := by
  cases h with
  | trace sector sectors _ hn _ ho => exact .inl ⟨sector, sectors, rfl, hn, ho, rfl⟩
  | tracer i w act _ hw h => exact .inr (.inl ⟨i, w, act, rfl, hw, h⟩)
  | reader k c w act _ hc hw h => exact .inr (.inr (.inl ⟨k, c, w, act, rfl, hc, hw, h⟩))
  | mrfSubmit content i rest w _ ho hw =>
      exact .inr (.inr (.inr (.inl ⟨i, rest, content, w, rfl, ho, hw, rfl⟩)))
  | cow act _ h => exact .inr (.inr (.inr (.inr ⟨fun _ _ => nofun, cow_frame h⟩)))
  | failure => exact .inr (.inr (.inr (.inr ⟨fun _ _ => nofun, rfl, rfl, rfl, rfl, rfl, rfl, fun _ => rfl⟩)))
  | _ => exact .inr (.inr (.inr (.inr ⟨fun _ _ => nofun, rfl, rfl, rfl, rfl, rfl, rfl, id⟩)))

theorem cow_base {act : CowAct} (h : CowStep d s act t) : t.base = s.base ∧ t.tracing = s.tracing := by
  cases h with
  | write handled bio c hw hc =>
      simp only [processed, bioFreeClone, snapHandleWriteBio]
      split
      · exact ⟨rfl, rfl⟩
      · split <;> exact ⟨rfl, rfl⟩
  | drop bio rest hw hq hf =>
      simp only [take, hf]
      split <;> exact ⟨rfl, rfl⟩
  | _ => exact ⟨rfl, rfl⟩

theorem tracer_base {i : Nat} {w : Write} {act : TraceAct} (h : TraceStep d i w s act t) :
    t.base = s.base ∧ t.tracing = s.tracing := by
  cases h with
  | cleanUp =>
      simp only [tpPut, freeNewBio]
      split <;> exact ⟨rfl, rfl⟩
  | _ => exact ⟨rfl, rfl⟩

theorem reader_base {k : Nat} {c : Clone β} {w : Write} {act : ReadAct} (h : ReadStep d k c w s act t) :
    t.base = s.base ∧ t.tracing = s.tracing := by
  cases h with
  | _ => exact ⟨rfl, rfl⟩

/-- Only the submission of an original bio and an untraced write change the base device. -/
theorem step_base (h : Step d s a t) : t.base = s.base ∨
    (∃ i w content, i ∈ s.origBios ∧ s.writes[i]? = some w ∧ t.base = overwrite s.base w.sector w.sectors content) ∨
    (∃ sector sectors content, t.base = overwrite s.base sector sectors content ∧
      (s.fail = true ∨ s.tracing = false ∨ ownBlocks d sector sectors = true)) := by
  cases h with
  | tracer i w act _ hw h => exact .inl (tracer_base h).1
  | reader k c w act _ hc hw h => exact .inl (reader_base h).1
  | cow act _ h => exact .inl (cow_base h).1
  | mrfSubmit content i rest w _ ho hw =>
      exact .inr (.inl ⟨i, w, content, ho ▸ List.mem_cons_self, hw, rfl⟩)
  | direct sector sectors content h => exact .inr (.inr ⟨sector, sectors, content, rfl, h⟩)
  | _ => exact .inl rfl

/-- Tracing that was stopped is not started again. -/
theorem step_tracing (h : Step d s a t) (ht : t.tracing = true) : s.tracing = true := by
  cases h with
  | tracer i w act _ hw h => exact (tracer_base h).2 ▸ ht
  | reader k c w act _ hc hw h => exact (reader_base h).2 ▸ ht
  | cow act _ h => exact (cow_base h).2 ▸ ht
  | stopTracing => cases ht
  | _ => exact ht

/-- The state a list of steps leads to from the creation of the snapshot. -/
def after (d : Device) (base : Nat → β) (as : List (Action β)) : State β :=
  (run (step d) (State.created base) as).getD (State.created base)

/-- A device of sixteen blocks of eight sectors, none of them the COW file's. -/
def disk : Device where
  sectOff := 0
  size := 128
  sectorsPerBlock := 8
  ignoreSnapErrors := false
  owned _ := false
  pos := eight_pos

/-- One write of one block, captured by one clone and released. -/
def captureRun : List (Action β) :=
  [.trace 0 8, .tracer 0 (.allocTp true), .tracer 0 (.makeClone (.made 1 1)), .tracer 0 (.addMap true),
    .tracer 0 .count, .tracer 0 .submit, .reader 0 (.complete true 0), .reader 0 .append, .reader 0 .receive,
    .reader 0 .put, .tracer 0 .put]

theorem captureRun_after (b : Nat → β) :
    run (step disk) (State.created b) captureRun = some (after disk b captureRun) := rfl

end ElastioSnap.Snapshot.Machine
