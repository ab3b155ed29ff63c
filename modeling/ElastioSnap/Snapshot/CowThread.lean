import ElastioSnap.Snapshot.Tracking

namespace ElastioSnap.Snapshot.CowThread

open Queue Tracking

/-- The steps of `snap_cow_thread`. A write clone is handled in one step, which says how many of its
pages `cow_write_current` took before an error. -/
inductive CowAct
  | look
  | dequeue
  | write (handled : Nat)
  | mode (ok : Bool)
  | base (ok : Bool)
  | overlay (ok : Bool)
  | finish
  | exit
  deriving DecidableEq, Repr

variable {β : Type}

/-- The blocks of a range of sectors, in the order of the segments. -/
def blocks (d : Device) (sector sectors : Nat) : List Nat :=
  (List.range' sector sectors).map (· / d.sectorsPerBlock)

/-- The loop of `snap_read_bio_get_mode`, with the mode it started with. -/
def readMode (mapped : Nat → Bool) : Mode → List Nat → Mode
  | startMode, [] => startMode
  | startMode, b :: bs =>
      match startMode, mapped b with
      | .none, true => readMode mapped .cowFile bs
      | .none, false => readMode mapped .baseDevice bs
      | .cowFile, false => .mixed
      | .baseDevice, true => .mixed
      | m, _ => readMode mapped m bs

def snapReadBioGetMode (d : Device) (s : State β) (r : SnapRead β) : Mode :=
  readMode (fun b => (s.saved b).isSome) .none (blocks d r.sector r.sectors)

/-- The blocks whose mappings exist are read over what the pages hold. -/
def overlay (d : Device) (saved : Nat → Option (Nat → β)) (data : Nat → β) : Nat → β :=
  fun t => match saved (t / d.sectorsPerBlock) with
    | some held => held (t % d.sectorsPerBlock)
    | none => data t

/-- `cow_write_current` on the first pages of a clone, which go to the blocks from its sector on. -/
def writePages (d : Device) (bio : Bio) (c : Clone β) (n : Nat) (saved : Nat → Option (Nat → β)) :
    Nat → Option (Nat → β) :=
  fun b => (saved b).or
    (if bio.sector / d.sectorsPerBlock ≤ b ∧ b < bio.sector / d.sectorsPerBlock + n then
      some fun o => c.data (c.sect + d.sectorsPerBlock * (b - bio.sector / d.sectorsPerBlock) + o)
    else none)

def endRead (s : State β) (r : Nat) (ok : Bool) (data : Nat → β) : State β :=
  { s with reads := s.reads.modify r fun q => { q with status := .ended ok s.fail data } }

def snapHandleWriteBio (d : Device) (bio : Bio) (c : Clone β) (handled : Nat) (s : State β) : State β :=
  if d.ignoreSnapErrors && s.fail then s
  else
    let t := { s with saved := writePages d bio c (min handled c.pages) s.saved }
    if handled < c.pages then tracerSetFailState t else t

/-- A clone is done with: it counts as processed and is freed. -/
def processed (s : State β) (k : Nat) : State β :=
  bioFreeClone { s with work := .idle, processedCnt := s.processedCnt + 1 } k

def take (d : Device) (bio : Bio) (s : State β) : State β :=
  match bio.isWrite, s.isFailed with
  | true, true => processed s bio.id
  | true, false => { s with work := .write bio }
  | false, true =>
      { s with
        work := .idle
        reads := s.reads.modify bio.id fun r => { r with status := .ended d.ignoreSnapErrors s.fail r.pages } }
  | false, false => { s with work := .mode bio }

def snapCowThread (d : Device) (act : CowAct) (s : State β) : Option (State β) :=
  match act, s.work with
  | .look, .idle =>
      if s.cowExited then none
      else some { s with isFailed := s.isFailed || s.fail, work := .dequeue }
  | .dequeue, .dequeue =>
      some <| match bioQueueDequeueDelayRead s.cowBios with
        | some (bio, rest) => take d bio { s with cowBios := rest }
        | none => { s with work := .idle }
  | .write handled, .write bio =>
      s.clones[bio.id]?.map fun c => processed (snapHandleWriteBio d bio c handled s) bio.id
  | .mode ok, .mode bio =>
      s.reads[bio.id]?.map fun r =>
        if ok then
          match snapReadBioGetMode d s r with
          | .cowFile => { s with work := .overlay bio r.pages }
          | mode => { s with work := .base bio mode }
        else { tracerSetFailState s with work := .finish bio false r.pages }
  | .base ok, .base bio mode =>
      s.reads[bio.id]?.map fun r =>
        if ok then
          let data := fun t => s.base (d.sectOff + t)
          if mode = .baseDevice then { s with work := .finish bio true data }
          else { s with work := .overlay bio data }
        else { tracerSetFailState s with work := .finish bio false r.pages }
  | .overlay true, .overlay bio data =>
      some { s with work := .finish bio true (overlay d s.saved data) }
  | .overlay false, .overlay bio data =>
      some { tracerSetFailState s with work := .finish bio false data }
  | .finish, .finish bio ok data =>
      some (endRead { s with work := .idle } bio.id (ok || d.ignoreSnapErrors) data)
  | .exit, .idle =>
      if !s.cowExited && s.cowStop && s.cowBios.isEmpty && s.submittedCnt == s.receivedCnt then
        some { s with cowExited := true }
      else none
  | _, _ => none

/-- What a step of `snap_cow_thread` can do. -/
inductive CowStep (d : Device) (s : State β) : CowAct → State β → Prop
  | look (hw : s.work = .idle) (he : s.cowExited = false) :
      CowStep d s .look { s with isFailed := s.isFailed || s.fail, work := .dequeue }
  | empty (hw : s.work = .dequeue) (hq : s.cowBios = []) : CowStep d s .dequeue { s with work := .idle }
  | take (bio : Bio) (rest : List Bio) (hw : s.work = .dequeue)
      (hq : bioQueueDequeueDelayRead s.cowBios = some (bio, rest)) (hf : s.isFailed = false) :
      CowStep d s .dequeue
        { s with cowBios := rest, work := if bio.isWrite then .write bio else .mode bio }
  | drop (bio : Bio) (rest : List Bio) (hw : s.work = .dequeue)
      (hq : bioQueueDequeueDelayRead s.cowBios = some (bio, rest)) (hf : s.isFailed = true) :
      CowStep d s .dequeue (take d bio { s with cowBios := rest })
  | write (handled : Nat) (bio : Bio) (c : Clone β) (hw : s.work = .write bio)
      (hc : s.clones[bio.id]? = some c) :
      CowStep d s (.write handled) (processed (snapHandleWriteBio d bio c handled s) bio.id)
  | mode (bio : Bio) (r : SnapRead β) (hw : s.work = .mode bio) (hr : s.reads[bio.id]? = some r) :
      CowStep d s (.mode true)
        { s with work := if snapReadBioGetMode d s r = .cowFile then .overlay bio r.pages
                         else .base bio (snapReadBioGetMode d s r) }
  | base (bio : Bio) (m : Mode) (hw : s.work = .base bio m) :
      CowStep d s (.base true)
        { s with work := if m = .baseDevice then .finish bio true fun t => s.base (d.sectOff + t)
                         else .overlay bio fun t => s.base (d.sectOff + t) }
  | overlay (bio : Bio) (data : Nat → β) (hw : s.work = .overlay bio data) :
      CowStep d s (.overlay true) { s with work := .finish bio true (overlay d s.saved data) }
  | error (act : CowAct) (bio : Bio) (data : Nat → β)
      (hact : act = .mode false ∨ act = .base false ∨ act = .overlay false) :
      CowStep d s act { tracerSetFailState s with work := .finish bio false data }
  | finish (bio : Bio) (ok : Bool) (data : Nat → β) (hw : s.work = .finish bio ok data) :
      CowStep d s .finish (endRead { s with work := .idle } bio.id (ok || d.ignoreSnapErrors) data)
  | exit (hw : s.work = .idle) (he : s.cowExited = false) (hs : s.cowStop = true) (hq : s.cowBios = [])
      (hn : s.submittedCnt = s.receivedCnt) : CowStep d s .exit { s with cowExited := true }

variable {d : Device} {s t : State β} {act : CowAct} {mapped : Nat → Bool} {bs : List Nat}

theorem readMode_cowFile : readMode mapped .cowFile bs = .cowFile ∧ (∀ b ∈ bs, mapped b = true) ∨
    readMode mapped .cowFile bs = .mixed := by
  induction bs with
  | nil => exact .inl ⟨rfl, fun _ hb => (List.not_mem_nil hb).elim⟩
  | cons b bs ih =>
      cases hb : mapped b with
      | false => exact .inr (by simp only [readMode, hb])
      | true =>
          simp only [readMode, hb, List.forall_mem_cons, true_and]
          exact ih

theorem readMode_baseDevice : readMode mapped .baseDevice bs = .baseDevice ∧ (∀ b ∈ bs, mapped b = false) ∨
    readMode mapped .baseDevice bs = .mixed := by
  induction bs with
  | nil => exact .inl ⟨rfl, fun _ hb => (List.not_mem_nil hb).elim⟩
  | cons b bs ih =>
      cases hb : mapped b with
      | true => exact .inr (by simp only [readMode, hb])
      | false =>
          simp only [readMode, hb, List.forall_mem_cons, true_and]
          exact ih

/-- In the two fast modes all blocks are in the COW file, or none is. -/
theorem readMode_fast (mapped : Nat → Bool) (bs : List Nat) : (readMode mapped .none bs = .cowFile → ∀ b ∈ bs, mapped b = true) ∧
    (readMode mapped .none bs = .baseDevice → ∀ b ∈ bs, mapped b = false) := by
  cases bs with
  | nil => exact ⟨nofun, nofun⟩
  | cons b bs =>
      cases hb : mapped b with
      | true =>
          simp only [readMode, hb, List.forall_mem_cons, true_and]
          rcases readMode_cowFile with ⟨hm, hall⟩ | hm
          · exact ⟨fun _ => hall, fun h => (by rw [hm] at h; cases h)⟩
          · exact ⟨fun h => (by rw [hm] at h; cases h), fun h => (by rw [hm] at h; cases h)⟩
      | false =>
          simp only [readMode, hb, List.forall_mem_cons, true_and]
          rcases readMode_baseDevice with ⟨hm, hall⟩ | hm
          · exact ⟨fun h => (by rw [hm] at h; cases h), fun _ => hall⟩
          · exact ⟨fun h => (by rw [hm] at h; cases h), fun h => (by rw [hm] at h; cases h)⟩

theorem take_step {bio : Bio} {rest : List Bio} (hw : s.work = .dequeue)
    (hq : bioQueueDequeueDelayRead s.cowBios = some (bio, rest)) :
    CowStep d s .dequeue (take d bio { s with cowBios := rest }) := by
  by_cases hf : s.isFailed = true
  · exact .drop bio rest hw hq hf
  · rw [Bool.not_eq_true] at hf
    have h := CowStep.take (d := d) bio rest hw hq hf
    have ht : take d bio { s with cowBios := rest } =
        { s with cowBios := rest, work := if bio.isWrite then .write bio else .mode bio } := by
      cases hb : bio.isWrite <;> simp [take, hb, hf]
    rw [ht]
    exact h

theorem snapCowThread_step (h : snapCowThread d act s = some t) : CowStep d s act t := by
  simp only [snapCowThread] at h
  split at h
  next _ _ hw =>
    split at h
    next => cases h
    next he =>
      cases h
      exact .look hw (by simpa using he)
  next _ _ hw =>
    cases h
    cases hq : bioQueueDequeueDelayRead s.cowBios with
    | none => exact .empty hw (dequeue_nil_iff.mp hq)
    | some r => exact take_step hw hq
  next _ handled bio hw =>
    obtain ⟨c, hc, rfl⟩ := Option.map_eq_some_iff.mp h
    exact .write handled bio c hw hc
  next _ ok bio hw =>
    obtain ⟨r, hr, rfl⟩ := Option.map_eq_some_iff.mp h
    cases ok with
    | false => exact .error _ bio r.pages (.inl rfl)
    | true =>
        have h := CowStep.mode (d := d) bio r hw hr
        cases hm : snapReadBioGetMode d s r <;> simpa [hm] using h
  next _ ok bio m hw =>
    obtain ⟨r, hr, rfl⟩ := Option.map_eq_some_iff.mp h
    cases ok with
    | false => exact .error _ bio r.pages (.inr (.inl rfl))
    | true =>
        have h := CowStep.base (d := d) bio m hw
        cases m <;> simpa using h
  next _ _ bio data hw =>
    cases h
    exact .overlay bio data hw
  next _ _ bio data hw =>
    cases h
    exact .error _ bio data (.inr (.inr rfl))
  next _ _ bio ok data hw =>
    cases h
    exact .finish bio ok data hw
  next _ _ hw =>
    split at h
    next he =>
      cases h
      simp only [Bool.and_eq_true, Bool.not_eq_true', List.isEmpty_iff, beq_iff_eq] at he
      exact .exit hw he.1.1.1 he.1.1.2 he.1.2 he.2
    next => cases h
  next => cases h

end ElastioSnap.Snapshot.CowThread
