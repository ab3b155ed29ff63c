import ElastioSnap.Snapshot.Tracking

namespace ElastioSnap.Snapshot.TraceBio

open Queue Tracking

def bioMaxPages : Nat := 256

/-- What `bio_make_read_clone` comes to: no bio, a bio with a page missing, or a clone with as many
pages as the queue takes. -/
inductive CloneAlloc
  | noBio
  | noPage (addr : Nat)
  | made (addr pages : Nat)
  deriving DecidableEq, Repr

/-- The steps of one call of `snap_trace_bio`. -/
inductive TraceAct
  | allocTp (ok : Bool)
  | makeClone (alloc : CloneAlloc)
  | addMap (ok : Bool)
  | count
  | submit
  | put
  | setFail
  | cleanUp
  deriving DecidableEq, Repr

def roundDown (x chunk : Nat) : Nat :=
  x / chunk * chunk

def roundUp (x chunk : Nat) : Nat :=
  (x + chunk - 1) / chunk * chunk

def startSect (d : Device) (sector : Nat) : Nat :=
  roundDown (sector - d.sectOff) d.sectorsPerBlock + d.sectOff

def endSect (d : Device) (sector sectors : Nat) : Nat :=
  roundUp (sector + sectors - d.sectOff) d.sectorsPerBlock + d.sectOff

variable {β : Type}

/-- A write bio that passed the checks before the allocations. -/
def newWrite (d : Device) (sector sectors : Nat) : Write where
  sector := sector
  sectors := sectors
  pc := .allocTp
  startSect := startSect d sector
  pages := (endSect d sector sectors - startSect d sector) / d.sectorsPerBlock
  newBio := none
  refs := none
  bioSects := []

/-- The allocator never hands out the address of a clone that is not freed. -/
def fresh (s : State β) (addr : Nat) : Bool :=
  s.clones.zipIdx.all fun (c, k) => s.freedBios.contains k || c.addr != addr

def bioMakeReadClone (d : Device) (alloc : CloneAlloc) (i : Nat) (w : Write) (s : State β) : Option (State β) :=
  match alloc with
  | .noBio => some (s.setWrite i { w with pc := .setFail, newBio := none })
  | .noPage addr =>
      if fresh s addr then
        -- the clone is freed, the reference it took is not dropped
        some { bioFreeClone (s.setWrite i { tpGet w with pc := .setFail, newBio := none }) s.clones.length with
          clones := s.clones ++ [{
            addr := addr, tp := i, sect := w.startSect, pages := 0, stage := .leaked, left := 0,
            data := s.base }] }
      else none
  | .made addr n =>
      if fresh s addr ∧ 0 < n ∧ n ≤ min w.pages bioMaxPages then
        some { s.setWrite i { tpGet w with pc := .addMap, newBio := some s.clones.length } with
          clones := s.clones ++ [{
            addr := addr, tp := i, sect := w.startSect, pages := n, stage := .created,
            left := d.sectorsPerBlock * n, data := s.base }] }
      else none

def tpAdd (d : Device) (i : Nat) (w : Write) (c : Clone β) (s : State β) : State β :=
  s.setWrite i { w with
    pc := .count
    bioSects := w.bioSects ++ [{ bio := c.addr, sect := c.sect, size := d.sectorsPerBlock * c.pages }] }

/-- The loop condition after a submission. -/
def advance (d : Device) (w : Write) (c : Clone β) : Write :=
  if c.pages < w.pages then
    { w with
      pc := .makeClone
      startSect := w.startSect + d.sectorsPerBlock * c.pages
      pages := w.pages - c.pages }
  else { w with pc := .put }

/-- The clone that the local variable `new_bio` points to. -/
def newBio (w : Write) (s : State β) : Option (Nat × Clone β) :=
  w.newBio.bind fun k => s.clones[k]?.map fun c => (k, c)

/-- The clone that was allocated but not submitted is freed. -/
def freeNewBio (w : Write) (s : State β) : State β :=
  match w.newBio with
  | some k => bioFreeClone (s.setStage k .leaked) k
  | none => s

def snapTraceBio (d : Device) (act : TraceAct) (i : Nat) (w : Write) (s : State β) : Option (State β) :=
  match act, w.pc with
  | .allocTp true, .allocTp => some (s.setWrite i { w with pc := .makeClone, refs := some 1 })
  | .allocTp false, .allocTp => some (s.setWrite i { w with pc := .setFail })
  | .makeClone alloc, .makeClone => bioMakeReadClone d alloc i w s
  | .addMap true, .addMap => (newBio w s).map fun (_, c) => tpAdd d i w c s
  | .addMap false, .addMap => some (s.setWrite i { w with pc := .setFail })
  | .count, .count =>
      w.newBio.map fun k =>
        { (s.setWrite i { w with pc := .submit }).setStage k .counted with
          submittedCnt := s.submittedCnt + 1 }
  | .submit, .submit =>
      (newBio w s).map fun (k, c) => (s.setWrite i (advance d w c)).setStage k .submitted
  | .put, .put => some (tpPut i { w with pc := .returned } s)
  | .setFail, .setFail => some (tracerSetFailState (s.setWrite i { w with pc := .cleanUp }))
  -- with no tracing parameters there is nothing to put, and the original bio stays behind
  | .cleanUp, .cleanUp => some (tpPut i { w with pc := .returned } (freeNewBio w s))
  | _, _ => none

/-- What a step of `snap_trace_bio` can do, one case for each way it can go. -/
inductive TraceStep (d : Device) (i : Nat) (w : Write) (s : State β) : TraceAct → State β → Prop
  | allocTp (hpc : w.pc = .allocTp) :
      TraceStep d i w s (.allocTp true) (s.setWrite i { w with pc := .makeClone, refs := some 1 })
  | noTp (hpc : w.pc = .allocTp) : TraceStep d i w s (.allocTp false) (s.setWrite i { w with pc := .setFail })
  | noBio (hpc : w.pc = .makeClone) :
      TraceStep d i w s (.makeClone .noBio) (s.setWrite i { w with pc := .setFail, newBio := none })
  | noPage (addr : Nat) (hpc : w.pc = .makeClone) (hfresh : fresh s addr = true) :
      TraceStep d i w s (.makeClone (.noPage addr))
        { bioFreeClone (s.setWrite i { tpGet w with pc := .setFail, newBio := none }) s.clones.length with
          clones := s.clones ++ [{
            addr := addr, tp := i, sect := w.startSect, pages := 0, stage := .leaked, left := 0,
            data := s.base }] }
  | made (addr n : Nat) (hpc : w.pc = .makeClone) (hfresh : fresh s addr = true) (hn : 0 < n)
      (hle : n ≤ w.pages) :
      TraceStep d i w s (.makeClone (.made addr n))
        { s.setWrite i { tpGet w with pc := .addMap, newBio := some s.clones.length } with
          clones := s.clones ++ [{
            addr := addr, tp := i, sect := w.startSect, pages := n, stage := .created,
            left := d.sectorsPerBlock * n, data := s.base }] }
  | addMap (k : Nat) (c : Clone β) (hpc : w.pc = .addMap) (hk : w.newBio = some k)
      (hc : s.clones[k]? = some c) : TraceStep d i w s (.addMap true) (tpAdd d i w c s)
  | noMap (hpc : w.pc = .addMap) : TraceStep d i w s (.addMap false) (s.setWrite i { w with pc := .setFail })
  | count (k : Nat) (hpc : w.pc = .count) (hk : w.newBio = some k) :
      TraceStep d i w s .count
        { (s.setWrite i { w with pc := .submit }).setStage k .counted with submittedCnt := s.submittedCnt + 1 }
  | submit (k : Nat) (c : Clone β) (hpc : w.pc = .submit) (hk : w.newBio = some k)
      (hc : s.clones[k]? = some c) :
      TraceStep d i w s .submit ((s.setWrite i (advance d w c)).setStage k .submitted)
  | put (hpc : w.pc = .put) : TraceStep d i w s .put (tpPut i { w with pc := .returned } s)
  | setFail (hpc : w.pc = .setFail) :
      TraceStep d i w s .setFail (tracerSetFailState (s.setWrite i { w with pc := .cleanUp }))
  | cleanUp (hpc : w.pc = .cleanUp) :
      TraceStep d i w s .cleanUp (tpPut i { w with pc := .returned } (freeNewBio w s))

variable {d : Device} {i : Nat} {w : Write} {s t : State β} {act : TraceAct}

theorem newBio_some {k : Nat} {c : Clone β} (h : newBio w s = some (k, c)) :
    w.newBio = some k ∧ s.clones[k]? = some c := by
  obtain ⟨k', hk, h⟩ := Option.bind_eq_some_iff.mp h
  obtain ⟨c', hc, h⟩ := Option.map_eq_some_iff.mp h
  cases h
  exact ⟨hk, hc⟩

theorem bioMakeReadClone_step {alloc : CloneAlloc} (hpc : w.pc = .makeClone)
    (h : bioMakeReadClone d alloc i w s = some t) : TraceStep d i w s (.makeClone alloc) t := by
  cases alloc with
  | noBio =>
      cases h
      exact .noBio hpc
  | noPage addr =>
      simp only [bioMakeReadClone] at h
      split at h
      next hf =>
        cases h
        exact .noPage addr hpc hf
      next => cases h
  | made addr n =>
      simp only [bioMakeReadClone] at h
      split at h
      next hf =>
        cases h
        exact .made addr n hpc hf.1 hf.2.1 (Nat.le_trans hf.2.2 (Nat.min_le_left _ _))
      next => cases h

theorem snapTraceBio_step (h : snapTraceBio d act i w s = some t) : TraceStep d i w s act t := by
  simp only [snapTraceBio] at h
  split at h
  next _ _ hpc =>
    cases h
    exact .allocTp hpc
  next _ _ hpc =>
    cases h
    exact .noTp hpc
  next _ _ _ hpc => exact bioMakeReadClone_step hpc h
  next _ _ hpc =>
    obtain ⟨⟨k, c⟩, hn, rfl⟩ := Option.map_eq_some_iff.mp h
    exact .addMap k c hpc (newBio_some hn).1 (newBio_some hn).2
  next _ _ hpc =>
    cases h
    exact .noMap hpc
  next _ _ hpc =>
    obtain ⟨k, hk, rfl⟩ := Option.map_eq_some_iff.mp h
    exact .count k hpc hk
  next _ _ hpc =>
    obtain ⟨⟨k, c⟩, hn, rfl⟩ := Option.map_eq_some_iff.mp h
    exact .submit k c hpc (newBio_some hn).1 (newBio_some hn).2
  next _ _ hpc =>
    cases h
    exact .put hpc
  next _ _ hpc =>
    cases h
    exact .setFail hpc
  next _ _ hpc =>
    cases h
    exact .cleanUp hpc
  next => cases h

end ElastioSnap.Snapshot.TraceBio
