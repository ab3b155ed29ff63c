import ElastioSnap.Snapshot.SnapRead
import ElastioSnap.Snapshot.Sectors

namespace ElastioSnap.Snapshot.View

open Lib.Runs Lib.Table Queue Tracking TraceBio ReadComplete CowThread Machine Filing PointInTime SnapRead Sectors

variable {β γ : Type} (g : Nat → β → γ) (d : Device)

/-- Each sector is looked at with its number on the disk: here the content of the disk. -/
def onDisk (content : Nat → β) : Nat → γ := fun n => g n (content n)

/-- The pages of a snapshot read, whose sectors are those of the device. -/
def onDevice (data : Nat → β) : Nat → γ := fun n => g (d.sectOff + n) (data n)

def onBlock (b : Nat) (held : Nat → β) : Nat → γ := fun o => g (d.sector b o) (held o)

def viewClone (c : Clone β) : Clone γ :=
  ⟨c.addr, c.tp, c.sect, c.pages, c.stage, c.left, onDisk g c.data⟩

def viewStatus : ReadStatus β → ReadStatus γ
  | .waiting => .waiting
  | .ended ok failed data => .ended ok failed (onDevice g d data)

def viewRead (r : SnapRead β) : SnapRead γ :=
  ⟨r.sector, r.sectors, onDevice g d r.pages, viewStatus g d r.status⟩

def viewWork : Work β → Work γ
  | .idle => .idle
  | .dequeue => .dequeue
  | .write bio => .write bio
  | .mode bio => .mode bio
  | .base bio mode => .base bio mode
  | .overlay bio data => .overlay bio (onDevice g d data)
  | .finish bio ok data => .finish bio ok (onDevice g d data)

def viewSaved (saved : Nat → Option (Nat → β)) : Nat → Option (Nat → γ) := fun b => (saved b).map (onBlock g d b)

/-- All of the state, with another view of the contents. -/
def view (s : State β) : State γ where
  fail := s.fail
  tracing := s.tracing
  writes := s.writes
  clones := s.clones.map (viewClone g)
  freedBios := s.freedBios
  reads := s.reads.map (viewRead g d)
  cowBios := s.cowBios
  origBios := s.origBios
  submitted := s.submitted
  submittedCnt := s.submittedCnt
  receivedCnt := s.receivedCnt
  processedCnt := s.processedCnt
  base := onDisk g s.base
  saved := viewSaved g d s.saved
  work := viewWork g d s.work
  isFailed := s.isFailed
  cowStop := s.cowStop
  cowExited := s.cowExited
  mrfStop := s.mrfStop
  mrfExited := s.mrfExited
  freed := s.freed

def viewAction : Action β → Action γ
  | .trace sector sectors => .trace sector sectors
  | .tracer i act => .tracer i act
  | .reader k act => .reader k act
  | .cow act => .cow act
  | .mrfSubmit content => .mrfSubmit (onDisk g content)
  | .mrfExit => .mrfExit
  | .direct sector sectors content => .direct sector sectors (onDisk g content)
  | .snapRead sector sectors pages => .snapRead sector sectors (onDevice g d pages)
  | .failure => .failure
  | .stopTracing => .stopTracing
  | .stopCow => .stopCow
  | .stopMrf => .stopMrf
  | .free => .free

variable {g} {d} {s t : State β} {a : Action β} {i k : Nat} {w : Write} {c : Clone β} {bio : Bio}

theorem overwrite_view {base content : Nat → β} {sector sectors : Nat} :
    overwrite (onDisk g base) sector sectors (onDisk g content) = onDisk g (overwrite base sector sectors content) := by
  funext n
  simp only [overwrite, onDisk]
  split <;> rfl

@[simp] theorem clones_view : (view g d s).clones[k]? = s.clones[k]?.map (viewClone g) := List.getElem?_map

@[simp] theorem reads_view : (view g d s).reads[k]? = s.reads[k]?.map (viewRead g d) := List.getElem?_map

theorem fresh_view {addr : Nat} : fresh (view g d s) addr = fresh s addr := by
  simp only [fresh, view, List.zipIdx_map, List.all_map]
  rfl

theorem newBio_view : newBio w (view g d s) = (newBio w s).map fun p => (p.1, viewClone g p.2) := by
  simp only [newBio, clones_view]
  cases w.newBio with
  | none => rfl
  | some k => cases hk : s.clones[k]? <;> simp [hk]

theorem guarded_view {α α' : Type} {p q : Prop} [Decidable p] [Decidable q] {f : α → α'} {x y : Option α'}
    {x' y' : Option α} (hpq : p ↔ q) (hx : x = x'.map f) (hy : y = y'.map f) :
    (if p then x else y) = (if q then x' else y').map f := by
  by_cases hq : q
  · rw [if_pos (hpq.mpr hq), if_pos hq, hx]
  · rw [if_neg fun hp => hq (hpq.mp hp), if_neg hq, hy]

theorem stage_view {cs : List (Clone β)} {stage : Stage} : (cs.modify k fun c => { c with stage := stage }).map (viewClone g) =
    (cs.map (viewClone g)).modify k fun c => { c with stage := stage } := map_modify fun _ => rfl

theorem clone_view (alloc : CloneAlloc) :
    bioMakeReadClone d alloc i w (view g d s) = (bioMakeReadClone d alloc i w s).map (view g d) := by
  cases alloc with
  | noBio => rfl
  | noPage addr =>
      refine guarded_view (by rw [fresh_view]) ?_ rfl
      simp [view, bioFreeClone, State.setWrite, viewClone]
  | made addr n =>
      refine guarded_view (by rw [fresh_view]) ?_ rfl
      simp [view, State.setWrite, viewClone]

theorem tracer_view (act : TraceAct) :
    snapTraceBio d act i w (view g d s) = (snapTraceBio d act i w s).map (view g d) := by
  unfold snapTraceBio
  split
  case h_1 | h_2 | h_5 | h_8 | h_9 | h_11 => rfl
  case h_3 => exact clone_view _
  case h_4 =>
    rw [newBio_view]
    cases newBio w s <;> rfl
  case h_6 =>
    cases w.newBio with
    | none => rfl
    | some k => simp [view, State.setWrite, State.setStage, stage_view]
  case h_7 =>
    rw [newBio_view]
    cases newBio w s with
    | none => rfl
    | some p => simp [view, State.setWrite, State.setStage, stage_view, viewClone, advance]
  case h_10 =>
    unfold freeNewBio
    cases w.newBio with
    | none => rfl
    | some k => simp [view, tpPut, bioFreeClone, State.setStage, stage_view]

theorem reader_view (act : ReadAct) :
    onBioReadComplete d act k (viewClone g c) w (view g d s) = (onBioReadComplete d act k c w s).map (view g d) := by
  have hstage : (viewClone g c).stage = c.stage := rfl
  unfold onBioReadComplete
  rw [hstage]
  split
  case h_1 =>
    refine guarded_view Iff.rfl ?_ rfl
    simp [view, setClone, viewClone]
  case h_8 => rfl
  all_goals simp [view, setClone, viewClone, bioFreeClone, tpPut, tracerSetFailState, resetSector]

theorem mrf_view {content : Nat → β} :
    snapMrfThread (onDisk g content) (view g d s) = (snapMrfThread content s).map (view g d) := by
  have ho : (view g d s).origBios = s.origBios := rfl
  simp only [snapMrfThread, ho]
  cases s.origBios with
  | nil => rfl
  | cons i rest =>
      have hw : (view g d s).writes = s.writes := rfl
      simp only [hw]
      cases s.writes[i]? with
      | none => rfl
      | some w =>
          have hbase : overwrite (onDisk g s.base) w.sector w.sectors (onDisk g content) = _ := overwrite_view
          simp [view, hbase]

theorem take_view : take d bio (view g d s) = view g d (take d bio s) := by
  have hf : (view g d s).isFailed = s.isFailed := rfl
  unfold take
  rw [hf]
  cases bio.isWrite with
  | true => cases s.isFailed <;> rfl
  | false =>
      cases s.isFailed with
      | true =>
          simp only [view, viewWork, State.mk.injEq, true_and, and_true]
          symm
          exact map_modify fun _ => by rfl
      | false => rfl

theorem getMode_view {r : SnapRead β} :
    snapReadBioGetMode d (view g d s) (viewRead g d r) = snapReadBioGetMode d s r := by
  simp only [snapReadBioGetMode, view, viewSaved, Option.isSome_map, viewRead]

theorem overlay_view {saved : Nat → Option (Nat → β)} {data : Nat → β} :
    overlay d (viewSaved g d saved) (onDevice g d data) = onDevice g d (overlay d saved data) := by
  funext n
  simp only [overlay, viewSaved, onDevice]
  cases saved (n / d.sectorsPerBlock) with
  | none => rfl
  | some held => simp only [Option.map_some, onBlock, sector_of]

/-- Pages go to the blocks they were read from, so that they are looked at there as here. -/
theorem writePages_view {n m : Nat} {saved : Nat → Option (Nat → β)} (hm : c.sect = d.sector m 0)
    (hs : bio.sector = c.sect - d.sectOff) : writePages d bio (viewClone g c) n (viewSaved g d saved) =
      viewSaved g d (writePages d bio c n saved) := by
  funext b
  rw [writePages_own (c := viewClone g c) hm hs, viewSaved, viewSaved, writePages_own hm hs]
  cases saved b with
  | some held => rfl
  | none =>
      simp only [Option.map_none, Option.none_or]
      change (if d.block c.sect ≤ b ∧ b < d.block c.sect + n then _ else none) = _
      split <;> rfl

theorem pending_view : pending (view g d s) = pending s := by
  have hwork : (view g d s).work = viewWork g d s.work := rfl
  unfold pending
  rw [hwork]
  cases s.work <;> rfl

theorem handleWrite_view {handled m : Nat} (hm : c.sect = d.sector m 0) (hs : bio.sector = c.sect - d.sectOff) :
    snapHandleWriteBio d bio (viewClone g c) handled (view g d s) =
      view g d (snapHandleWriteBio d bio c handled s) := by
  unfold snapHandleWriteBio
  have hw : writePages d bio (viewClone g c) (min handled c.pages) (viewSaved g d s.saved) = _ := writePages_view hm hs
  change (if d.ignoreSnapErrors && s.fail then view g d s
    else if handled < c.pages then tracerSetFailState { view g d s with
        saved := writePages d bio (viewClone g c) (min handled c.pages) (viewSaved g d s.saved) }
      else { view g d s with
        saved := writePages d bio (viewClone g c) (min handled c.pages) (viewSaved g d s.saved) }) = _
  rw [hw]
  split
  · rfl
  · split <;> rfl

theorem cow_view {act : CowAct} (h : Labelled d (view g d s)) :
    snapCowThread d act (view g d s) = (snapCowThread d act s).map (view g d) := by
  have hwork : (view g d s).work = viewWork g d s.work := rfl
  unfold snapCowThread
  rw [hwork]
  cases hw : s.work with
  | idle =>
      cases act with
      | look => exact guarded_view Iff.rfl rfl rfl
      | exit => exact guarded_view Iff.rfl rfl rfl
      | mode ok | base ok | overlay ok => cases ok <;> rfl
      | _ => rfl
  | dequeue =>
      cases act with
      | dequeue =>
          have hq : (view g d s).cowBios = s.cowBios := rfl
          simp only [viewWork, hq, Option.map_some]
          cases bioQueueDequeueDelayRead s.cowBios with
          | none => rfl
          | some p => exact congrArg some (take_view (s := { s with cowBios := p.2 }))
      | mode ok | base ok | overlay ok => cases ok <;> rfl
      | _ => rfl
  | write bio =>
      cases act with
      | write handled =>
          have hb : bio ∈ pending (view g d s) := by
            rw [pending_view, pending, hw]
            exact List.mem_cons_self
          obtain ⟨c', hc', -, hs⟩ := h.sector bio hb
          obtain ⟨m, hm⟩ := h.filed.aligned bio.id c' hc'
          simp only [viewWork, clones_view] at hc' ⊢
          obtain ⟨c, hc, rfl⟩ := Option.map_eq_some_iff.mp hc'
          rw [hc]
          simp only [Option.map_some]
          rw [handleWrite_view (c := c) hm hs]
          rfl
      | mode ok | base ok | overlay ok => cases ok <;> rfl
      | _ => rfl
  | mode bio =>
      cases act with
      | mode ok =>
          simp only [viewWork, reads_view]
          cases s.reads[bio.id]? with
          | none => rfl
          | some r =>
              simp only [Option.map_some, getMode_view]
              cases ok with
              | false => rfl
              | true => cases snapReadBioGetMode d s r <;> rfl
      | base ok | overlay ok => cases ok <;> rfl
      | _ => rfl
  | base bio mode =>
      cases act with
      | base ok =>
          simp only [viewWork, reads_view]
          cases s.reads[bio.id]? with
          | none => rfl
          | some r =>
              simp only [Option.map_some]
              cases ok with
              | false => rfl
              | true => cases mode <;> rfl
      | mode ok | overlay ok => cases ok <;> rfl
      | _ => rfl
  | overlay bio data =>
      cases act with
      | overlay ok =>
          cases ok with
          | false => rfl
          | true =>
              have hsaved : (view g d s).saved = viewSaved g d s.saved := rfl
              simp only [viewWork, hsaved, overlay_view]
              rfl
      | mode ok | base ok => cases ok <;> rfl
      | _ => rfl
  | finish bio ok data =>
      cases act with
      | finish =>
          have hend : (view g d s).reads.modify bio.id (fun q => { q with
              status := .ended (ok || d.ignoreSnapErrors) s.fail (onDevice g d data) }) = List.map (viewRead g d)
              (s.reads.modify bio.id fun q => { q with status := .ended (ok || d.ignoreSnapErrors) s.fail data }) := by
            symm
            exact map_modify fun _ => by rfl
          exact congrArg (fun rs => some { view g d s with work := .idle, reads := rs }) hend
      | mode ok | base ok | overlay ok => cases ok <;> rfl
      | _ => rfl

/-- A step does not look at the contents: what it does to the state, it does to every view of it. -/
theorem step_view (h : Labelled d (view g d s)) :
    step d (view g d s) (viewAction g d a) = (step d s a).map (view g d) := by
  cases a with
  | trace sector sectors => exact guarded_view Iff.rfl rfl rfl
  | tracer i act =>
      simp only [step, viewAction]
      change (s.writes[i]?.bind fun w => snapTraceBio d act i w (view g d s)) = _
      cases s.writes[i]? with
      | none => rfl
      | some w => exact tracer_view act
  | reader k act =>
      simp only [step, viewAction, clones_view]
      cases s.clones[k]? with
      | none => rfl
      | some c =>
          change (s.writes[c.tp]?.bind fun w => onBioReadComplete d act k (viewClone g c) w (view g d s)) =
            ((s.writes[c.tp]?.bind fun w => onBioReadComplete d act k c w s).map (view g d))
          cases s.writes[c.tp]? with
          | none => rfl
          | some w => exact reader_view act
  | cow act => exact cow_view h
  | mrfSubmit content => exact guarded_view Iff.rfl rfl mrf_view
  | mrfExit => exact guarded_view Iff.rfl rfl rfl
  | direct sector sectors content =>
      refine guarded_view Iff.rfl ?_ rfl
      have hbase : overwrite (view g d s).base sector sectors (onDisk g content) = _ := overwrite_view
      exact congrArg (fun base => some { view g d s with base := base }) hbase
  | snapRead sector sectors pages =>
      refine guarded_view Iff.rfl ?_ ?_
      · simp [view, viewRead, viewStatus]
      · simp [view, viewRead, viewStatus]
  | failure => rfl
  | stopTracing => rfl
  | stopCow => exact guarded_view Iff.rfl rfl rfl
  | stopMrf => exact guarded_view Iff.rfl rfl rfl
  | free => exact guarded_view Iff.rfl rfl rfl

theorem coversBlock_view {b : Nat} : CoversBlock d (view g d s) b bio ↔ CoversBlock d s b bio := by
  simp only [CoversBlock, clones_view]
  constructor
  · rintro ⟨c', hc', hcov⟩
    obtain ⟨c, hc, rfl⟩ := Option.map_eq_some_iff.mp hc'
    exact ⟨c, hc, hcov⟩
  · rintro ⟨c, hc, hcov⟩
    exact ⟨viewClone g c, by rw [hc]; rfl, hcov⟩

theorem saved_view {b : Nat} : (view g d s).saved b = none ↔ s.saved b = none := Option.map_eq_none_iff

/-- Nor do the conditions on the order of the steps look at the contents. -/
theorem undisturbed_view (h : Undisturbed d s a) : Undisturbed d (view g d s) (viewAction g d a) := by
  obtain ⟨hr, hx, hv⟩ := h
  refine ⟨?_, ?_, ?_⟩
  · cases a with
    | tracer i act => cases act with
      | makeClone alloc => cases alloc <;> exact hr
      | _ => trivial
    | _ => trivial
  · cases a with
    | cow act => cases act with
      | dequeue =>
          intro bio rest pre post hq hcl older hm b hb hcov
          exact hx bio rest pre post hq hcl older hm b (saved_view.mp hb)
            ⟨coversBlock_view.mp hcov.1, coversBlock_view.mp hcov.2⟩
      | _ => trivial
    | _ => trivial
  · cases a with
    | cow act => cases act with
      | base ok => cases ok with
        | false => trivial
        | true =>
            intro bio m r' hw hr' q hq c' hc' hsub n hlo hhi ho hs hcov
            rw [reads_view] at hr'
            rw [clones_view] at hc'
            obtain ⟨r, hr, rfl⟩ := Option.map_eq_some_iff.mp hr'
            obtain ⟨c, hc, rfl⟩ := Option.map_eq_some_iff.mp hc'
            have hw' : s.work = .base bio m := by
              change viewWork g d s.work = _ at hw
              cases hs : s.work <;> rw [hs] at hw <;> cases hw
              rfl
            exact hv bio m r hw' hr q hq c hc hsub n hlo hhi ho (saved_view.mp hs) hcov
      | _ => trivial
    | _ => trivial

theorem stopsTracing_view : stopsTracing (viewAction g d a) = stopsTracing a := by cases a <;> rfl

/-- A read that was answered, as it is looked at. -/
theorem answered_view {r : SnapRead β} {ok failed : Bool} {data : Nat → β} (hr : r ∈ s.reads)
    (h : r.status = .ended ok failed data) :
    ∃ r' ∈ (view g d s).reads, r'.sector = r.sector ∧ r'.sectors = r.sectors ∧
      r'.status = .ended ok failed (onDevice g d data) := by
  refine ⟨viewRead g d r, List.mem_map_of_mem hr, rfl, rfl, ?_⟩
  simp only [viewRead, h, viewStatus]

end ElastioSnap.Snapshot.View
