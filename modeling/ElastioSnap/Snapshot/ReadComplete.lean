import ElastioSnap.Snapshot.Tracking

namespace ElastioSnap.Snapshot.ReadComplete

open Queue Tracking

/-- The base device completes the read of a clone, and then the steps of `__on_bio_read_complete`. -/
inductive ReadAct
  | complete (ok : Bool) (left : Nat)
  | append
  | receive
  | put
  | setFail
  | drop
  deriving DecidableEq, Repr

variable {β : Type}

/-- The sector a completed clone is queued with: the first entry of the map with its address. -/
def resetSector (d : Device) (w : Write) (c : Clone β) : Nat :=
  match w.bioSects.find? fun m => m.bio == c.addr with
  | some m => m.sect - d.sectOff
  | none => c.sect + (d.sectorsPerBlock * c.pages - c.left)

def onBioReadComplete (d : Device) (act : ReadAct) (k : Nat) (c : Clone β) (w : Write) (s : State β) :
    Option (State β) :=
  match act, c.stage with
  | .complete true left, .submitted =>
      if left ≤ d.sectorsPerBlock * c.pages then
        -- the pages hold what the base device holds at this moment
        some (setClone s k { c with stage := .completed, left := left, data := s.base })
      else none
  | .complete false _, .submitted => some (setClone s k { c with stage := .failed })
  | .append, .completed =>
      some { setClone s k { c with stage := .queued } with
        cowBios := s.cowBios ++ [{ isWrite := true, sector := resetSector d w c, size := c.left, id := k }] }
  | .receive, .queued =>
      some { setClone s k { c with stage := .received } with receivedCnt := s.receivedCnt + 1 }
  | .put, .received => some (tpPut c.tp w (setClone s k { c with stage := .done }))
  | .setFail, .failed => some (tracerSetFailState (setClone s k { c with stage := .failing }))
  | .drop, .failing => some (bioFreeClone (tpPut c.tp w (setClone s k { c with stage := .dropped })) k)
  | _, _ => none

inductive ReadStep (d : Device) (k : Nat) (c : Clone β) (w : Write) (s : State β) : ReadAct → State β → Prop
  | completed (left : Nat) (hc : c.stage = .submitted) (hl : left ≤ d.sectorsPerBlock * c.pages) :
      ReadStep d k c w s (.complete true left)
        (setClone s k { c with stage := .completed, left := left, data := s.base })
  | failed (left : Nat) (hc : c.stage = .submitted) :
      ReadStep d k c w s (.complete false left) (setClone s k { c with stage := .failed })
  | append (hc : c.stage = .completed) :
      ReadStep d k c w s .append
        { setClone s k { c with stage := .queued } with
          cowBios := s.cowBios ++ [{ isWrite := true, sector := resetSector d w c, size := c.left, id := k }] }
  | receive (hc : c.stage = .queued) :
      ReadStep d k c w s .receive
        { setClone s k { c with stage := .received } with receivedCnt := s.receivedCnt + 1 }
  | put (hc : c.stage = .received) :
      ReadStep d k c w s .put (tpPut c.tp w (setClone s k { c with stage := .done }))
  | setFail (hc : c.stage = .failed) :
      ReadStep d k c w s .setFail (tracerSetFailState (setClone s k { c with stage := .failing }))
  | drop (hc : c.stage = .failing) :
      ReadStep d k c w s .drop (bioFreeClone (tpPut c.tp w (setClone s k { c with stage := .dropped })) k)

variable {d : Device} {k : Nat} {c : Clone β} {w : Write} {s t : State β} {act : ReadAct}

theorem onBioReadComplete_step (h : onBioReadComplete d act k c w s = some t) : ReadStep d k c w s act t := by
  simp only [onBioReadComplete] at h
  split at h
  next _ left hc =>
    split at h
    next hl =>
      cases h
      exact .completed left hc hl
    next => cases h
  next _ left hc =>
    cases h
    exact .failed left hc
  next _ _ hc =>
    cases h
    exact .append hc
  next _ _ hc =>
    cases h
    exact .receive hc
  next _ _ hc =>
    cases h
    exact .put hc
  next _ _ hc =>
    cases h
    exact .setFail hc
  next _ _ hc =>
    cases h
    exact .drop hc
  next => cases h

end ElastioSnap.Snapshot.ReadComplete
