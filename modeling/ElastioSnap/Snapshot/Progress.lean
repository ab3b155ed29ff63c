import ElastioSnap.Snapshot.Counters
import ElastioSnap.Snapshot.Release

namespace ElastioSnap.Snapshot.Progress

open Lib.Runs Lib.Table Queue Tracking TraceBio ReadComplete CowThread Machine Refs PointInTime Counters Release

variable {β : Type}

/-- The requests that end the threads. -/
def Action.ends : Action β → Bool
  | .stopCow | .stopMrf | .free => true
  | _ => false

/-- What is no step of the calls, the handlers and the threads, and what the cow thread does as long as it has to
wait for a bio. -/
def idles (s : State β) : Action β → Bool
  | .cow .look | .cow .dequeue => s.cowBios.isEmpty
  | .tracer .. | .reader .. | .cow _ | .mrfSubmit _ => false
  | _ => true

/-- At most how many steps a request is good for. -/
def asks (d : Device) : Action β → Nat
  | .trace sector sectors => 16 * ((endSect d sector sectors - startSect d sector) / d.sectorsPerBlock) + 5
  | .snapRead .. => 6
  | _ => 0

/-- At most how many steps there are until a call has returned and its clones are handled. -/
def callLeft (w : Write) : Nat :=
  match w.pc with
  | .allocTp => 16 * w.pages + 5
  | .makeClone => 16 * w.pages + 4
  | .addMap => 16 * w.pages - 9
  | .count => 16 * w.pages - 10
  | .submit => 16 * w.pages - 11
  | .setFail => 3
  | .put | .cleanUp => 2
  | .returned => 0

def cloneLeft (c : Clone β) : Nat :=
  match c.stage with
  | .created | .counted | .submitted => 11
  | .completed => 10
  | .queued | .failed => 3
  | .received | .failing => 2
  | .done | .dropped | .leaked => 0

def workLeft (s : State β) : Nat :=
  match s.work with
  | .idle => 1
  | .dequeue => if s.cowBios = [] then 1 else 0
  | .mode _ => 5
  | .base .. => 4
  | .overlay .. => 3
  | .finish .. | .write _ => 2

/-- A bound for the steps that the device has still to do. -/
def left (s : State β) : Nat :=
  (s.writes.map callLeft).sum + (s.clones.map cloneLeft).sum + s.origBios.length + (6 * s.cowBios.length + workLeft s)

variable {d : Device} {s t : State β} {a : Action β} {i k : Nat} {w w' : Write} {c : Clone β} {bio : Bio}

theorem dequeue_perm {q rest : List Bio} (h : bioQueueDequeueDelayRead q = some (bio, rest)) : q.Perm (bio :: rest) := by
  rcases dequeue_cases h with ⟨rfl, -⟩ | ⟨read, pre, post, rfl, rfl, -⟩
  · exact .refl _
  · calc
      (read :: (pre ++ bio :: post)).Perm (read :: bio :: (pre ++ post)) := List.perm_middle.cons read
      _ |>.Perm (bio :: read :: (pre ++ post)) := .swap ..
      _ |>.Perm (bio :: (pre ++ read :: post)) := List.perm_middle.symm.cons bio

/-- A step that is none of the cow thread's. -/
theorem left_lt (hw : t.work = s.work) (hq : t.cowBios = s.cowBios)
    (h : (t.writes.map callLeft).sum + (t.clones.map cloneLeft).sum + t.origBios.length <
      (s.writes.map callLeft).sum + (s.clones.map cloneLeft).sum + s.origBios.length) : left t < left s := by
  have hwork : workLeft t = workLeft s := by rw [workLeft, workLeft, hw, hq]
  rw [left, left, hwork, hq]
  exact Nat.add_lt_add_right h _

theorem setStage_left (stage : Stage) (hk : s.clones[k]? = some c) :
    ((s.setStage k stage).clones.map cloneLeft).sum + cloneLeft c =
      (s.clones.map cloneLeft).sum + cloneLeft { c with stage := stage } :=
  sum_modify hk

theorem origBios_tpPut : (tpPut i w s).origBios.length ≤ s.origBios.length + 1 := by
  simp only [tpPut]
  split
  · exact Nat.le_of_eq List.length_append
  · exact Nat.le_succ _

theorem freeNewBio_left (h : ∀ k, w.newBio = some k → ∃ c, s.clones[k]? = some c ∧ c.tp = i ∧ c.stage = .created) :
    ((freeNewBio w s).clones.map cloneLeft).sum ≤ (s.clones.map cloneLeft).sum ∧
      (freeNewBio w s).origBios = s.origBios := by
  unfold freeNewBio
  split
  next k hk =>
    obtain ⟨c, hc, -, -⟩ := h k hk
    have hmoved := setStage_left .leaked hc
    have hleaked : cloneLeft { c with stage := .leaked } = 0 := rfl
    refine ⟨?_, rfl⟩
    simp only [bioFreeClone]
    omega
  next => exact ⟨Nat.le_refl _, rfl⟩

/-- What a call and its clones have still to do gets less, and of the cow thread's work nothing changes. -/
theorem tracer_left {act : TraceAct} (hs : Sound s) (hw : s.writes[i]? = some w) (hst : TraceStep d i w s act t) :
    left t < left s := by
  have moved : ∀ w', ((s.writes.set i w').map callLeft).sum + callLeft w = (s.writes.map callLeft).sum + callLeft w' :=
    fun w' => sum_set hw
  have hb := (hs.calls i w hw).newBio
  unfold NewBio at hb
  refine left_lt (tracer_aside hst).1.work (tracer_aside hst).2 ?_
  cases hst with
  | allocTp hpc =>
      have := moved { w with pc := .makeClone, refs := some 1 }
      simp only [State.setWrite, callLeft, hpc] at this ⊢
      omega
  | noTp hpc =>
      have := moved { w with pc := .setFail }
      simp only [State.setWrite, callLeft, hpc] at this ⊢
      omega
  | noBio hpc =>
      have := moved { w with pc := .setFail, newBio := none }
      simp only [State.setWrite, callLeft, hpc] at this ⊢
      omega
  | noPage addr hpc hfresh =>
      have := moved { tpGet w with pc := .setFail, newBio := none }
      simp only [State.setWrite, bioFreeClone, sum_snoc, callLeft, cloneLeft, hpc] at this ⊢
      omega
  | made addr n hpc hfresh hn hle =>
      have := moved { tpGet w with pc := .addMap, newBio := some s.clones.length }
      simp only [State.setWrite, sum_snoc, callLeft, cloneLeft, tpGet, hpc] at this ⊢
      omega
  | addMap k c hpc hk hc =>
      rw [hpc] at hb
      obtain ⟨_, c', _, _, _, _, _, hpos, hle⟩ := hb
      have := moved { w with
        pc := .count
        bioSects := w.bioSects ++ [{ bio := c.addr, sect := c.sect, size := d.sectorsPerBlock * c.pages }] }
      simp only [tpAdd, State.setWrite, callLeft, hpc] at this ⊢
      omega
  | noMap hpc =>
      rw [hpc] at hb
      obtain ⟨_, c', _, _, _, _, _, hpos, hle⟩ := hb
      have := moved { w with pc := .setFail }
      simp only [State.setWrite, callLeft, hpc] at this ⊢
      omega
  | count k hpc hk =>
      rw [hpc] at hb
      obtain ⟨k', c, hk', hcl, _, hstage, _, hpos, hle⟩ := hb
      rw [hk] at hk'
      cases hk'
      have hclone := setStage_left (s := s) .counted hcl
      have := moved { w with pc := .submit }
      simp only [State.setWrite, State.setStage, callLeft, cloneLeft, hpc, hstage] at this hclone ⊢
      omega
  | submit k c hpc hk hc =>
      rw [hpc] at hb
      obtain ⟨k', c', hk', hcl, _, hstage, _, hpos, hle⟩ := hb
      rw [hk] at hk'
      cases hk'
      rw [hc] at hcl
      cases hcl
      have hclone := setStage_left (s := s) .submitted hc
      have := moved (advance d w c)
      have hold : callLeft w = 16 * w.pages - 11 := by simp only [callLeft, hpc]
      have hnew : callLeft (advance d w c) + 12 ≤ 16 * w.pages := by
        unfold advance
        split <;> simp only [callLeft] <;> omega
      simp only [State.setWrite, State.setStage, cloneLeft, hstage] at hclone ⊢
      omega
  | put hpc =>
      have := moved { w with pc := .returned, refs := w.refs.map (· - 1) }
      have horig := origBios_tpPut (i := i) (w := { w with pc := .returned }) (s := s)
      simp only [tpPut, callLeft, hpc] at this horig ⊢
      omega
  | setFail hpc =>
      have := moved { w with pc := .cleanUp }
      simp only [tracerSetFailState, State.setWrite, callLeft, hpc] at this ⊢
      omega
  | cleanUp hpc =>
      rw [hpc] at hb
      obtain ⟨hclones, hsame⟩ := freeNewBio_left hb
      have := moved { w with pc := .returned, refs := w.refs.map (· - 1) }
      have horig := origBios_tpPut (i := i) (w := { w with pc := .returned }) (s := freeNewBio w s)
      rw [hsame] at horig
      simp only [tpPut, freeNewBio_writes, callLeft, hpc] at this horig ⊢
      omega

theorem workLeft_append (s : State β) (bio : Bio) : workLeft { s with cowBios := s.cowBios ++ [bio] } ≤ workLeft s := by
  simp only [workLeft]
  split
  case h_2 =>
    rw [if_neg (by simp)]
    exact Nat.zero_le _
  all_goals exact Nat.le_refl _

theorem reader_left {act : ReadAct} (hk : s.clones[k]? = some c) (hw : s.writes[c.tp]? = some w)
    (hst : ReadStep d k c w s act t) : left t < left s := by
  have moved : ∀ c', ((s.clones.set k c').map cloneLeft).sum + cloneLeft c = (s.clones.map cloneLeft).sum + cloneLeft c' :=
    fun c' => sum_set hk
  have dropped : ((s.writes.set c.tp { w with refs := w.refs.map (· - 1) }).map callLeft).sum + callLeft w =
      (s.writes.map callLeft).sum + callLeft w :=
    sum_set hw
  cases hst with
  | completed left hc hl =>
      have := moved { c with stage := .completed, left := left, data := s.base }
      refine left_lt rfl rfl ?_
      simp only [setClone, cloneLeft, hc] at this ⊢
      omega
  | failed left hc =>
      have := moved { c with stage := .failed }
      refine left_lt rfl rfl ?_
      simp only [setClone, cloneLeft, hc] at this ⊢
      omega
  | append hc =>
      have := moved { c with stage := .queued }
      have hwork := workLeft_append (setClone s k { c with stage := .queued }) ⟨true, resetSector d w c, c.left, k⟩
      rw [show workLeft (setClone s k { c with stage := .queued }) = workLeft s from rfl] at hwork
      simp only [left, List.length_append, List.length_singleton]
      simp only [setClone, cloneLeft, hc] at this hwork ⊢
      omega
  | receive hc =>
      have := moved { c with stage := .received }
      refine left_lt rfl rfl ?_
      simp only [setClone, cloneLeft, hc] at this ⊢
      omega
  | put hc =>
      have := moved { c with stage := .done }
      have horig := origBios_tpPut (i := c.tp) (w := w) (s := setClone s k { c with stage := .done })
      refine left_lt rfl rfl ?_
      simp only [tpPut, setClone, cloneLeft, hc] at this horig ⊢
      omega
  | setFail hc =>
      have := moved { c with stage := .failing }
      refine left_lt rfl rfl ?_
      simp only [setClone, tracerSetFailState, cloneLeft, hc] at this ⊢
      omega
  | drop hc =>
      have := moved { c with stage := .dropped }
      have horig := origBios_tpPut (i := c.tp) (w := w) (s := setClone s k { c with stage := .dropped })
      refine left_lt rfl rfl ?_
      simp only [tpPut, setClone, bioFreeClone, cloneLeft, hc] at this horig ⊢
      omega

/-- A read that ends with an error was being answered. -/
theorem error_left {act : CowAct} (h : snapCowThread d act s = some t)
    (hact : act = .mode false ∨ act = .base false ∨ act = .overlay false) : 3 ≤ workLeft s := by
  unfold workLeft
  rcases hact with rfl | rfl | rfl
  all_goals
    cases hw : s.work with
    | mode | base | overlay => simp
    | _ => simp [snapCowThread, hw] at h

theorem workLeft_le : workLeft s ≤ 5 := by
  unfold workLeft
  split
  case h_2 => split <;> omega
  all_goals omega

/-- A bio is taken off the queue, where it counts for more than any work on it. -/
theorem dequeue_left {rest : List Bio}
    (hq : bioQueueDequeueDelayRead s.cowBios = some (bio, rest)) (ht : t.cowBios = rest) :
    1 + (6 * t.cowBios.length + workLeft t) ≤ 6 * s.cowBios.length + workLeft s := by
  have hlen := (dequeue_perm hq).length_eq
  have hwork := workLeft_le (s := t)
  rw [List.length_cons] at hlen
  rw [ht]
  omega

theorem cow_left {act : CowAct} (h : snapCowThread d act s = some t) (hlive : s.cowStop = false) :
    (!idles s (.cow act : Action β)).toNat + left t ≤ left s := by
  have hst := snapCowThread_step h
  have hframe := cow_frame hst
  have hone := Bool.toNat_le (!idles s (.cow act : Action β))
  suffices hthread : (!idles s (.cow act : Action β)).toNat + (6 * t.cowBios.length + workLeft t) ≤
      6 * s.cowBios.length + workLeft s by
    rw [left, left, hframe.writes, hframe.clones, hframe.origBios]
    omega
  cases hst with
  | look hw he =>
      simp only [idles, workLeft, hw]
      cases s.cowBios with
      | nil => exact Nat.le_of_eq (Nat.zero_add _)
      | cons bio rest =>
          rw [if_neg (List.cons_ne_nil _ _)]
          exact Nat.le_of_eq (Nat.add_comm 1 _)
  | empty hw hq => simp only [idles, workLeft, hw, hq, List.isEmpty_nil, Bool.not_true, Bool.toNat_false, if_true,
      Nat.zero_add, Nat.le_refl]
  | take bio rest hw hq hf =>
      have := dequeue_left
        (t := { s with cowBios := rest, work := if bio.isWrite then .write bio else .mode bio }) hq rfl
      omega
  | drop bio rest hw hq hf =>
      have := dequeue_left (t := take d bio { s with cowBios := rest }) hq (by unfold take; split <;> rfl)
      omega
  | write handled bio c hw hc =>
      have hq : (snapHandleWriteBio d bio c handled s).cowBios = s.cowBios := by
        simp only [snapHandleWriteBio]
        split
        · rfl
        · split <;> rfl
      simp only [workLeft, processed, bioFreeClone, hw, hq]
      omega
  | mode bio r hw hr =>
      by_cases hm : snapReadBioGetMode d s r = .cowFile
      all_goals
        simp only [workLeft, hw, hm, if_true, if_false]
        omega
  | base bio m hw =>
      by_cases hm : m = .baseDevice
      all_goals
        simp only [workLeft, hw, hm, if_true, if_false]
        omega
  | overlay bio data hw =>
      simp only [workLeft, hw]
      omega
  | error act bio data hact =>
      have := error_left h hact
      have ht : workLeft { tracerSetFailState s with work := .finish bio false data } = 2 := rfl
      simp only [tracerSetFailState] at ht ⊢
      omega
  | finish bio ok data hw =>
      simp only [workLeft, endRead, hw]
      omega
  | exit hw he hs hq hn =>
      rw [hlive] at hs
      cases hs

/-- Nobody told the threads to stop. -/
structure Running (s : State β) : Prop where
  cowStop : s.cowStop = false
  cowExited : s.cowExited = false
  mrfStop : s.mrfStop = false
  mrfExited : s.mrfExited = false

theorem Running.step (h : Running s) (ha : Action.ends a = false) (hst : Step d s a t) : Running t := by
  obtain ⟨h1, h2, h3, h4⟩ := h
  cases hst with
  | tracer i w act _ hw hst =>
      cases hst with
      | cleanUp =>
          unfold freeNewBio
          split <;> exact ⟨h1, h2, h3, h4⟩
      | _ => exact ⟨h1, h2, h3, h4⟩
  | reader k c w act _ hk hw hst => cases hst <;> exact ⟨h1, h2, h3, h4⟩
  | cow act _ hst =>
      cases hst with
      | drop =>
          unfold take
          split <;> exact ⟨h1, h2, h3, h4⟩
      | write =>
          simp only [processed, bioFreeClone, snapHandleWriteBio]
          split
          · exact ⟨h1, h2, h3, h4⟩
          · split <;> exact ⟨h1, h2, h3, h4⟩
      | exit hw he hs =>
          rw [h1] at hs
          cases hs
      | _ => exact ⟨h1, h2, h3, h4⟩
  | mrfExit hs =>
      rw [h3] at hs
      cases hs
  | stopCow | stopMrf | free => cases ha
  | _ => exact ⟨h1, h2, h3, h4⟩

def Answers (work : Work β) (bio : Bio) : Prop :=
  match work with
  | .mode b | .base b _ | .overlay b _ | .finish b _ _ => b = bio
  | _ => False

/-- A clone that the cow thread has or will get. -/
def Given (s : State β) (bio : Bio) : Prop :=
  s.work = .write bio ∨ (bio ∈ s.cowBios ∧ bio.isWrite = true)

/-- A snapshot read that is being answered or waits for it. -/
def Asked (s : State β) (bio : Bio) : Prop :=
  Answers s.work bio ∨ (bio ∈ s.cowBios ∧ bio.isWrite = false)

/-- What is queued belongs to a clone or to a read, and no read is forgotten. -/
structure Attended (s : State β) : Prop where
  given : ∀ bio, Given s bio → bio.id < s.clones.length
  asked : ∀ bio, Asked s bio → bio.id < s.reads.length
  waiting : ∀ (k : Nat) (r : SnapRead β), s.reads[k]? = some r → r.status = .waiting → ∃ bio, Asked s bio ∧ bio.id = k

/-- A step that ends the reads it takes from the thread. -/
theorem Attended.less (h : Attended s) (hg : ∀ bio, Given t bio → Given s bio) (ha : ∀ bio, Asked t bio → Asked s bio)
    (hc : s.clones.length ≤ t.clones.length) (hl : t.reads.length = s.reads.length)
    (hr : ∀ (k : Nat) (r : SnapRead β), t.reads[k]? = some r → r.status = .waiting →
      s.reads[k]? = some r ∧ ∀ bio, Asked s bio → bio.id = k → Asked t bio) : Attended t where
  given bio hb := Nat.lt_of_lt_of_le (h.given bio (hg bio hb)) hc
  asked bio hb := by
    rw [hl]
    exact h.asked bio (ha bio hb)
  waiting k r hk hw := by
    obtain ⟨hold, hkeep⟩ := hr k r hk hw
    obtain ⟨bio, hb, hid⟩ := h.waiting k r hold hw
    exact ⟨bio, hkeep bio hb hid, hid⟩

/-- A step that is none of the cow thread's and puts nothing on its queue. -/
theorem Attended.still (h : Attended s) (hw : t.work = s.work) (hq : t.cowBios = s.cowBios) (hr : t.reads = s.reads)
    (hc : s.clones.length ≤ t.clones.length) : Attended t := by
  have hg : ∀ bio, Given t bio ↔ Given s bio := fun bio => by rw [Given, Given, hw, hq]
  have ha : ∀ bio, Asked t bio ↔ Asked s bio := fun bio => by rw [Asked, Asked, hw, hq]
  refine h.less (fun bio => (hg bio).mp) (fun bio => (ha bio).mp) hc (by rw [hr]) ?_
  intro k r hk _
  rw [hr] at hk
  exact ⟨hk, fun bio hb _ => (ha bio).mpr hb⟩

theorem tracer_clones {act : TraceAct} (hst : TraceStep d i w s act t) : s.clones.length ≤ t.clones.length := by
  cases hst with
  | noPage | made =>
      rw [List.length_append]
      exact Nat.le_add_right _ _
  | count | submit =>
      simp only [State.setStage, List.length_modify]
      exact Nat.le_refl _
  | cleanUp =>
      simp only [tpPut, freeNewBio]
      split
      · simp only [bioFreeClone, State.setStage, List.length_modify]
        exact Nat.le_refl _
      · exact Nat.le_refl _
  | _ => exact Nat.le_refl _

/-- The handler of a clone puts it on the queue. -/
theorem Attended.append (h : Attended s) (hk : k < s.clones.length) (hid : bio.id = k) (hb : bio.isWrite = true)
    (hw : t.work = s.work) (hq : t.cowBios = s.cowBios ++ [bio]) (hr : t.reads = s.reads)
    (hc : t.clones.length = s.clones.length) : Attended t := by
  have ha : ∀ b, Asked t b ↔ Asked s b := by
    intro b
    simp only [Asked, hw, hq, List.mem_append, List.mem_singleton]
    constructor
    · rintro (h | ⟨h | rfl, hr⟩)
      · exact .inl h
      · exact .inr ⟨h, hr⟩
      · rw [hb] at hr
        cases hr
    · exact Or.imp_right fun h => ⟨.inl h.1, h.2⟩
  constructor
  case given =>
    intro b hg
    rw [hc]
    simp only [Given, hw, hq, List.mem_append, List.mem_singleton] at hg
    rcases hg with h' | ⟨h' | rfl, hbw⟩
    · exact h.given b (.inl h')
    · exact h.given b (.inr ⟨h', hbw⟩)
    · rw [hid]
      exact hk
  case asked =>
    rw [hr]
    exact fun b hb => h.asked b ((ha b).mp hb)
  case waiting =>
    rw [hr]
    intro k r hk hwait
    obtain ⟨b, hb, hid⟩ := h.waiting k r hk hwait
    exact ⟨b, (ha b).mpr hb, hid⟩

theorem Attended.snapRead {sector sectors : Nat} {pages : Nat → β} (h : Attended s) :
    Attended { s with
      reads := s.reads ++ [⟨sector, sectors, pages, .waiting⟩]
      cowBios := s.cowBios ++ [⟨false, sector, sectors, s.reads.length⟩] } := by
  constructor
  case given =>
    rintro b (hb | ⟨hb, hw⟩)
    · exact h.given b (.inl hb)
    · rcases List.mem_append.mp hb with hb | hb
      · exact h.given b (.inr ⟨hb, hw⟩)
      · rw [List.mem_singleton.mp hb] at hw
        cases hw
  case asked =>
    intro b hb
    rw [List.length_append, List.length_singleton]
    rcases hb with hb | ⟨hb, hr⟩
    · exact Nat.lt_succ_of_lt (h.asked b (.inl hb))
    · rcases List.mem_append.mp hb with hb | hb
      · exact Nat.lt_succ_of_lt (h.asked b (.inr ⟨hb, hr⟩))
      · rw [List.mem_singleton.mp hb]
        exact Nat.lt_succ_self _
  case waiting =>
    intro k r hk hw
    rcases append_some hk with hk | ⟨rfl, rfl⟩
    · obtain ⟨b, hb, hid⟩ := h.waiting k r hk hw
      exact ⟨b, hb.imp_right fun hm => ⟨List.mem_append_left _ hm.1, hm.2⟩, hid⟩
    · exact ⟨_, .inr ⟨List.mem_append_right _ List.mem_cons_self, rfl⟩, rfl⟩

theorem Attended.refused {r : SnapRead β} (h : Attended s) (hr : r.status ≠ .waiting) :
    Attended { s with reads := s.reads ++ [r] } where
  given := h.given
  asked b hb := by
    rw [List.length_append]
    exact Nat.lt_add_right _ (h.asked b hb)
  waiting k r' hk hw := by
    rcases append_some hk with hk | ⟨rfl, rfl⟩
    · exact h.waiting k r' hk hw
    · exact absurd hw hr

/-- A read that was ended waits no longer, and the others are as they were. -/
theorem ended_reads {f : SnapRead β → SnapRead β} {r : SnapRead β} {n : Nat} (hf : ∀ q, (f q).status ≠ .waiting)
    (hk : (s.reads.modify n f)[k]? = some r) (hw : r.status = .waiting) : k ≠ n ∧ s.reads[k]? = some r := by
  rcases modify_some hk with ⟨rfl, q, _, rfl⟩ | ⟨hne, hk⟩
  · exact absurd hw (hf q)
  · exact ⟨hne.symm, hk⟩

theorem error_answers {act : CowAct} {data : Nat → β}
    (h : snapCowThread d act s = some { tracerSetFailState s with work := .finish bio false data })
    (hact : act = .mode false ∨ act = .base false ∨ act = .overlay false) (b : Bio) :
    Answers s.work b ↔ bio = b := by
  have same : ∀ {b' : Bio} {data' : Nat → β}, ({ tracerSetFailState s with work := .finish b' false data' } : State β) =
      { tracerSetFailState s with work := .finish bio false data } → (b' = b ↔ bio = b) := by
    intro b' data' he
    cases congrArg State.work he
    rfl
  rcases hact with rfl | rfl | rfl
  case inl =>
    cases hw : s.work with
    | mode b' =>
        simp only [snapCowThread, hw] at h
        obtain ⟨r, -, he⟩ := Option.map_eq_some_iff.mp h
        exact same he
    | _ => simp [snapCowThread, hw] at h
  case inr.inl =>
    cases hw : s.work with
    | base b' m =>
        simp only [snapCowThread, hw] at h
        obtain ⟨r, -, he⟩ := Option.map_eq_some_iff.mp h
        exact same he
    | _ => simp [snapCowThread, hw] at h
  case inr.inr =>
    cases hw : s.work with
    | overlay b' data' =>
        simp only [snapCowThread, hw] at h
        exact same (Option.some.inj h)
    | _ => simp [snapCowThread, hw] at h

/-- The thread goes on with the same bio, or from waiting to looking and back. -/
theorem Attended.goOn (h : Attended s) (hg : ∀ b, t.work = .write b ↔ s.work = .write b)
    (ha : ∀ b, Answers t.work b ↔ Answers s.work b) (hq : t.cowBios = s.cowBios) (hc : t.clones = s.clones)
    (hr : t.reads = s.reads) : Attended t := by
  have hag : ∀ b, Asked t b ↔ Asked s b := fun b => by rw [Asked, Asked, ha, hq]
  refine h.less (fun b => ?_) (fun b => (hag b).mp) (Nat.le_of_eq (by rw [hc])) (by rw [hr]) ?_
  · rw [Given, Given, hg, hq]
    exact id
  · intro k r hk _
    rw [hr] at hk
    exact ⟨hk, fun b hb _ => (hag b).mpr hb⟩

/-- The thread is done with a bio. -/
theorem Attended.done (h : Attended s) (ht : t.work = .idle) (hq : t.cowBios = s.cowBios) (hc : t.clones = s.clones)
    (hl : t.reads.length = s.reads.length)
    (hr : ∀ (k : Nat) (r : SnapRead β), t.reads[k]? = some r → r.status = .waiting →
      s.reads[k]? = some r ∧ ∀ b, Answers s.work b → b.id ≠ k) : Attended t := by
  refine h.less (fun b => ?_) (fun b => ?_) (Nat.le_of_eq (by rw [hc])) hl fun k r hk hw => ?_
  · rintro (hb | hb)
    · rw [ht] at hb
      cases hb
    · rw [hq] at hb
      exact .inr hb
  · rintro (hb | hb)
    · rw [ht] at hb
      cases hb
    · rw [hq] at hb
      exact .inr hb
  · obtain ⟨hold, hne⟩ := hr k r hk hw
    refine ⟨hold, fun b hb hid => hb.elim (fun ha => absurd hid (hne b ha)) fun hm => ?_⟩
    rw [← hq] at hm
    exact .inr hm

theorem Attended.taken {rest : List Bio} (h : Attended s) (hw : s.work = .dequeue)
    (hq : bioQueueDequeueDelayRead s.cowBios = some (bio, rest)) :
    Attended { s with cowBios := rest, work := if bio.isWrite then .write bio else .mode bio } := by
  have hmem : ∀ b, b ∈ s.cowBios ↔ b = bio ∨ b ∈ rest := fun b => (dequeue_perm hq).mem_iff.trans List.mem_cons
  have ha : ∀ b, Asked { s with cowBios := rest, work := if bio.isWrite then .write bio else .mode bio } b ↔ Asked s b := by
    intro b
    simp only [Asked, hw, hmem, Answers, false_or]
    cases hb : bio.isWrite with
    | true => simp only [if_true, false_or]; grind
    | false => simp only [Bool.false_eq_true, if_false]; grind
  refine h.less (fun b => ?_) (fun b => (ha b).mp) (Nat.le_refl _) rfl fun k r hk _ => ⟨hk, fun b hb _ => (ha b).mpr hb⟩
  simp only [Given, hw, hmem]
  cases hb : bio.isWrite with
  | true => simp only [if_true]; grind
  | false => simp only [Bool.false_eq_true, if_false]; grind

theorem Attended.cow {act : CowAct} (h : Attended s) (hst : snapCowThread d act s = some t) : Attended t := by
  cases snapCowThread_step hst with
  | look hw he => exact h.goOn (by simp [hw]) (by simp [hw, Answers]) rfl rfl rfl
  | empty hw hq => exact h.goOn (by simp [hw]) (by simp [hw, Answers]) rfl rfl rfl
  | take bio rest hw hq hf => exact h.taken hw hq
  | drop bio rest hw hq hf =>
      have ht := h.taken hw hq
      cases hb : bio.isWrite with
      | true =>
          rw [hb] at ht
          have : take d bio { s with cowBios := rest } = processed { s with cowBios := rest } bio.id := by
            simp only [CowThread.take, hb, hf]
          rw [this]
          exact ht.done rfl rfl rfl rfl fun k r hk hw => ⟨hk, fun b hb => by cases hb⟩
      | false =>
          rw [hb] at ht
          simp only [CowThread.take, hb, hf]
          refine ht.done rfl rfl rfl (List.length_modify ..) fun k r hk hw => ?_
          obtain ⟨hne, hold⟩ := ended_reads (fun _ he => by cases he) hk hw
          refine ⟨hold, fun b hb => ?_⟩
          cases hb
          exact hne.symm
  | write handled bio c hw hc =>
      have hsame : (snapHandleWriteBio d bio c handled s).cowBios = s.cowBios ∧
          (snapHandleWriteBio d bio c handled s).clones = s.clones ∧
          (snapHandleWriteBio d bio c handled s).reads = s.reads := by
        simp only [snapHandleWriteBio]
        split
        · exact ⟨rfl, rfl, rfl⟩
        · split <;> exact ⟨rfl, rfl, rfl⟩
      refine h.done rfl hsame.1 hsame.2.1 (congrArg _ hsame.2.2) fun k r hk _ => ?_
      rw [hw]
      exact ⟨hsame.2.2 ▸ hk, fun b hb => by cases hb⟩
  | mode bio r hw hr =>
      refine h.goOn (fun b => ?_) (fun b => ?_) rfl rfl rfl
      all_goals
        dsimp only
        split <;> simp [hw, Answers]
  | base bio m hw =>
      refine h.goOn (fun b => ?_) (fun b => ?_) rfl rfl rfl
      all_goals
        dsimp only
        split <;> simp [hw, Answers]
  | overlay bio data hw => exact h.goOn (by simp [hw]) (by simp [hw, Answers]) rfl rfl rfl
  | error act bio data hact =>
      have hb := error_answers hst hact
      refine h.goOn (fun b => ⟨fun hw => (by cases hw), fun hw => ?_⟩) (fun b => (hb b).symm) rfl rfl rfl
      exact absurd hw (error_work hst hact b)
  | finish bio ok data hw =>
      refine h.done rfl rfl rfl (List.length_modify ..) fun k r hk hwait => ?_
      obtain ⟨hne, hold⟩ := ended_reads (fun _ he => by cases he) hk hwait
      refine ⟨hold, fun b hb => ?_⟩
      rw [hw] at hb
      cases hb
      exact hne.symm
  | exit hw he hs hq hn => exact h.goOn (by simp) (by simp) rfl rfl rfl

theorem Attended.step (h : Attended s) (hst : Machine.step d s a = some t) : Attended t := by
  cases step_of hst with
  | tracer i w act _ hw hst =>
      obtain ⟨haside, hq⟩ := tracer_aside hst
      exact h.still haside.work hq haside.reads (tracer_clones hst)
  | reader k c w act _ hk hw hst =>
      obtain ⟨haside, hq⟩ := reader_aside hst
      have hlen : t.clones.length = s.clones.length := by cases hst <;> exact List.length_set
      by_cases hact : act = .append
      · subst hact
        cases hst with
        | append hc => exact h.append (List.getElem?_eq_some_iff.mp hk).1 rfl rfl rfl rfl rfl hlen
      · exact h.still haside.work (hq hact) haside.reads (Nat.le_of_eq hlen.symm)
  | cow act _ _ => exact h.cow hst
  | refused sector sectors pages hf => exact h.refused (fun he => by cases he)
  | snapRead sector sectors pages hf => exact h.snapRead
  | _ => exact h.still rfl rfl rfl (Nat.le_refl _)

/-- No step adds more to what is left than was asked for, and those that do more than wait take from it. -/
theorem step_left (hs : Sound s) (hr : Running s) (ha : Action.ends a = false) (hst : Machine.step d s a = some t) :
    (!idles s a).toNat + left t ≤ left s + asks d a := by
  cases step_of hst with
  | trace sector sectors ht hn hf ho =>
      simp only [left, workLeft, sum_snoc, idles, asks]
      simp only [callLeft, newWrite, Bool.not_true, Bool.toNat_false]
      omega
  | tracer i w act _ hw hst =>
      have := tracer_left hs hw hst
      simp only [idles, asks, Bool.not_false, Bool.toNat_true]
      omega
  | reader k c w act _ hk hw hst =>
      have := reader_left hk hw hst
      simp only [idles, asks, Bool.not_false, Bool.toNat_true]
      omega
  | cow act _ _ => exact cow_left hst hr.cowStop
  | mrfSubmit content i rest w he ho hw =>
      simp only [left, workLeft, idles, asks, ho, List.length_cons, Bool.not_false, Bool.toNat_true]
      omega
  | snapRead sector sectors pages hf =>
      have := workLeft_append s ⟨false, sector, sectors, s.reads.length⟩
      have hwork : workLeft { s with
          reads := s.reads ++ [⟨sector, sectors, pages, .waiting⟩]
          cowBios := s.cowBios ++ [⟨false, sector, sectors, s.reads.length⟩] } =
          workLeft { s with cowBios := s.cowBios ++ [⟨false, sector, sectors, s.reads.length⟩] } := rfl
      simp only [left, List.length_append, List.length_singleton, idles, asks, Bool.not_true, Bool.toNat_false]
      omega
  | refused sector sectors pages hf => exact Nat.le_trans (Nat.le_of_eq (Nat.zero_add _)) (Nat.le_add_right _ _)
  | mrfExit hs =>
      rw [hr.mrfStop] at hs
      cases hs
  | stopCow | stopMrf | free => cases ha
  | _ => exact Nat.le_of_eq (Nat.zero_add _)

/-- A call that has not returned can go on. -/
theorem call_goesOn (hs : Sound s) (hw : s.writes[i]? = some w) (hpc : w.pc ≠ .returned) :
    ∃ act, snapTraceBio d act i w s ≠ none := by
  have hb := (hs.calls i w hw).newBio
  unfold NewBio at hb
  cases h : w.pc with
  | allocTp => exact ⟨.allocTp false, by simp [snapTraceBio, h]⟩
  | makeClone => exact ⟨.makeClone .noBio, by simp [snapTraceBio, h, bioMakeReadClone]⟩
  | addMap => exact ⟨.addMap false, by simp [snapTraceBio, h]⟩
  | count =>
      rw [h] at hb
      obtain ⟨k, c, hk, -⟩ := hb
      exact ⟨.count, by simp [snapTraceBio, h, hk]⟩
  | submit =>
      rw [h] at hb
      obtain ⟨k, c, hk, hc, -⟩ := hb
      exact ⟨.submit, by simp [snapTraceBio, h, newBio, hk, hc]⟩
  | put => exact ⟨.put, by simp [snapTraceBio, h]⟩
  | setFail => exact ⟨.setFail, by simp [snapTraceBio, h]⟩
  | cleanUp => exact ⟨.cleanUp, by simp [snapTraceBio, h]⟩
  | returned => exact absurd h hpc

/-- A clone on its way is completed, or its handler can go on. -/
theorem clone_goesOn (hc : c.stage.inFlight = true) : ∃ act, onBioReadComplete d act k c w s ≠ none := by
  cases h : c.stage with
  | submitted => exact ⟨.complete false 0, by simp [onBioReadComplete, h]⟩
  | completed => exact ⟨.append, by simp [onBioReadComplete, h]⟩
  | queued => exact ⟨.receive, by simp [onBioReadComplete, h]⟩
  | received => exact ⟨.put, by simp [onBioReadComplete, h]⟩
  | failed => exact ⟨.setFail, by simp [onBioReadComplete, h]⟩
  | failing => exact ⟨.drop, by simp [onBioReadComplete, h]⟩
  | created | counted | done | dropped | leaked => simp [Stage.inFlight, h] at hc

/-- The cow thread that has a bio, or finds one on its queue, can go on. -/
theorem cow_goesOn (hr : Running s) (ha : Attended s)
    (hn : s.cowBios ≠ [] ∨ (s.work ≠ .idle ∧ s.work ≠ .dequeue)) :
    ∃ act, idles s (.cow act : Action β) = false ∧ snapCowThread d act s ≠ none := by
  have hq : s.work = .idle ∨ s.work = .dequeue → s.cowBios.isEmpty = false := by
    intro hw
    rw [List.isEmpty_eq_false_iff]
    rcases hn with hn | hn
    · exact hn
    · exact absurd hw (not_or.mpr hn)
  have read : ∀ {bio : Bio}, Answers s.work bio → ∃ r, s.reads[bio.id]? = some r := fun h =>
    ⟨_, List.getElem?_eq_getElem (ha.asked _ (.inl h))⟩
  cases h : s.work with
  | idle => exact ⟨.look, hq (.inl h), by simp [snapCowThread, h, hr.cowExited]⟩
  | dequeue => exact ⟨.dequeue, hq (.inr h), by simp [snapCowThread, h]⟩
  | write bio =>
      have hc := List.getElem?_eq_getElem (ha.given bio (.inl h))
      exact ⟨.write 0, rfl, by simp [snapCowThread, h, hc]⟩
  | mode bio =>
      obtain ⟨r, hread⟩ := read (h ▸ rfl : Answers s.work bio)
      exact ⟨.mode false, rfl, by simp [snapCowThread, h, hread]⟩
  | base bio m =>
      obtain ⟨r, hread⟩ := read (h ▸ rfl : Answers s.work bio)
      exact ⟨.base false, rfl, by simp [snapCowThread, h, hread]⟩
  | overlay bio data => exact ⟨.overlay false, rfl, by simp [snapCowThread, h]⟩
  | finish bio ok data => exact ⟨.finish, rfl, by simp [snapCowThread, h]⟩

/-- All that was asked of the device is done. An original bio is submitted once, unless an allocation that failed
keeps it, and the cow thread may leave its loop unless the read of a clone failed. -/
structure Finished (as : List (Action β)) (s : State β) : Prop where
  returned : ∀ w ∈ s.writes, w.pc = .returned
  handled : ∀ c ∈ s.clones, c.stage = .done ∨ c.stage = .dropped ∨ c.stage = .leaked
  empty : s.cowBios = [] ∧ s.origBios = []
  answered : ∀ r ∈ s.reads, ∃ ok failed data, r.status = .ended ok failed data
  submitted : ∀ i < s.writes.length,
    s.submitted.count i ≤ 1 ∧ (s.submitted.count i = 1 ↔ ∀ b ∈ as, losesRef i b = false)
  mayExit : mayExit s = true ↔ ∀ k, .reader k .drop ∉ as

/-- What holds of a device whose threads were not told to stop. -/
structure Live (s : State β) : Prop where
  sound : Sound s
  running : Running s
  attended : Attended s

theorem live_created (b₀ : Nat → β) : Live (State.created b₀) where
  sound := sound_created b₀
  running := ⟨rfl, rfl, rfl, rfl⟩
  attended := by
    refine ⟨?_, ?_, ?_⟩
    · rintro bio (h | ⟨h, -⟩) <;> cases h
    · rintro bio (h | ⟨h, -⟩) <;> cases h
    · intro k r hk
      cases hk

theorem Live.step (h : Live s) (ha : Action.ends a = false) (hst : Machine.step d s a = some t) : Live t where
  sound := h.sound.step (step_of hst)
  running := h.running.step ha (step_of hst)
  attended := h.attended.step hst

/-- Nothing more happens until somebody asks for it. -/
def Resting (d : Device) (s : State β) : Prop :=
  ∀ a, idles s a = false → Machine.step d s a = none

theorem Resting.returned (h : Resting d s) (hs : Sound s) (hw : s.writes[i]? = some w) : w.pc = .returned := by
  by_contra hpc
  obtain ⟨act, hgo⟩ := call_goesOn (d := d) hs hw hpc
  refine hgo ?_
  simpa only [step, hw, Option.bind_some] using h (.tracer i act) rfl

theorem Resting.landed (h : Resting d s) (hs : Sound s) (hk : s.clones[k]? = some c) : c.stage.inFlight = false := by
  by_contra hc
  rw [Bool.not_eq_false] at hc
  obtain ⟨w, hw, -⟩ := hs.clones k c hk
  obtain ⟨act, hgo⟩ := clone_goesOn (d := d) (w := w) (s := s) (k := k) hc
  refine hgo ?_
  simpa only [step, hk, hw, Option.bind_some] using h (.reader k act) rfl

theorem Resting.handled (h : Resting d s) (hs : Sound s) (hc : c ∈ s.clones) :
    c.stage = .done ∨ c.stage = .dropped ∨ c.stage = .leaked := by
  obtain ⟨k, hk⟩ := List.mem_iff_getElem?.mp hc
  have hl := h.landed hs hk
  obtain ⟨w, hw, -, hnew⟩ := hs.clones k c hk
  have hold : c.stage.isNew ≠ true := by
    intro hn
    have howns := (hnew hn).2
    rw [h.returned hs hw] at howns
    cases howns
  cases hstage : c.stage with
  | done | dropped | leaked => simp
  | created | counted =>
      rw [hstage] at hold
      exact absurd rfl hold
  | _ =>
      rw [hstage] at hl
      cases hl

theorem Resting.waiting (h : Resting d s) (hl : Live s) : s.cowBios = [] ∧ (s.work = .idle ∨ s.work = .dequeue) := by
  by_contra hn
  rw [not_and_or, not_or] at hn
  obtain ⟨act, hidle, hgo⟩ := cow_goesOn (d := d) hl.running hl.attended hn
  exact hgo (h (.cow act) hidle)

theorem Resting.origBios (h : Resting d s) (hl : Live s) : s.origBios = [] := by
  by_contra hne
  obtain ⟨i, rest, ho⟩ := List.exists_cons_of_ne_nil hne
  have hi : i < s.writes.length := by
    by_contra hlt
    have hnone := hl.sound.known i (Nat.le_of_not_lt hlt)
    rw [releases, ho, List.count_append, List.count_cons_self] at hnone
    omega
  have hgo := h (.mrfSubmit s.base) rfl
  simp only [step, snapMrfThread, hl.running.mrfExited, ho, List.getElem?_eq_getElem hi, Bool.false_eq_true, if_false,
    Option.map_some] at hgo
  cases hgo

theorem Resting.answered {r : SnapRead β} (h : Resting d s) (hl : Live s) (hr : r ∈ s.reads) :
    ∃ ok failed data, r.status = .ended ok failed data := by
  obtain ⟨hq, hw⟩ := h.waiting hl
  obtain ⟨k, hk⟩ := List.mem_iff_getElem?.mp hr
  cases hs : r.status with
  | ended ok failed data => exact ⟨ok, failed, data, rfl⟩
  | waiting =>
      obtain ⟨bio, hb | ⟨hb, -⟩, -⟩ := hl.attended.waiting k r hk hs
      · rcases hw with hw | hw
        all_goals
          rw [hw] at hb
          cases hb
      · rw [hq] at hb
        cases hb

theorem Resting.finished {b₀ : Nat → β} {as : List (Action β)} (h : Resting d s) (hl : Live s)
    (hrun : run (Machine.step d) (State.created b₀) as = some s) : Finished as s where
  returned w hw := by
    obtain ⟨i, hi⟩ := List.mem_iff_getElem?.mp hw
    exact h.returned hl.sound hi
  handled c hc := h.handled hl.sound hc
  empty := ⟨(h.waiting hl).1, h.origBios hl⟩
  answered r hr := h.answered hl hr
  submitted i hi := by
    have hw := List.getElem?_eq_getElem hi
    have hc : Completed s i := ⟨⟨_, hw, h.returned hl.sound hw⟩, fun k c hk _ => h.landed hl.sound hk⟩
    have hcount : s.submitted.count i = releases s i := by rw [releases, h.origBios hl, List.append_nil]
    rw [hcount]
    constructor
    · rw [(hl.sound.calls i _ hw).released]
      split <;> omega
    · rw [releases_completed hl.sound hc hw, (shows_run hrun).calls i _ hw]
      simp
  mayExit := by
    obtain ⟨hsub, -⟩ := (counted_run hrun).apart
    have hnone : s.clones.countP (Stage.unhandled ·.stage) = 0 := by
      rw [List.countP_eq_zero]
      intro c hc
      rcases h.handled hl.sound hc with hs | hs | hs <;> simp [hs, Stage.unhandled]
    rw [Counters.mayExit, (h.waiting hl).1, List.isEmpty_nil, Bool.true_and, beq_iff_eq, ← drops_zero]
    omega

/-- As long as nobody stops its threads, a device takes only as many steps, those in which the cow thread waits for
a bio left out, as its writes and reads are good for, whatever fails and however the requests and the steps follow
each other. And where it can take no more, all that was asked of it is done. -/
theorem threads_finish {b₀ : Nat → β} {as : List (Action β)} (hrun : run (step d) (State.created b₀) as = some s)
    (hlive : ∀ a ∈ as, Action.ends a = false) :
    moves (step d) idles (State.created b₀) as ≤ 1 + (as.map (asks d)).sum ∧
      ((∀ a, idles s a = false → step d s a = none) → Finished as s) := by
  have hbound : moves (step d) idles (State.created b₀) as + left s ≤
      left (State.created b₀) + (as.map (asks d)).sum :=
    moves_le (I := Live) (live_created b₀)
      (fun s a t hs ha hst => ⟨hs.step (hlive a ha) hst, step_left hs.sound hs.running (hlive a ha) hst⟩) hrun
  have hl : Live s := by
    refine run_invariant (I := fun as s => (∀ a ∈ as, Action.ends a = false) → Live s) (fun _ => live_created b₀) ?_
      hrun hlive
    intro as s a t hs hst hends
    exact (hs fun b hb => hends b (List.mem_append_left _ hb)).step
      (hends a (List.mem_append_right _ List.mem_cons_self)) hst
  refine ⟨?_, fun hrest => Resting.finished hrest hl hrun⟩
  have hnew : left (State.created b₀) = 1 := rfl
  omega

/-- A write that is captured, submitted and stored, and a read that is answered from the COW file. -/
def wholeRun : List (Action Unit) :=
  captureRun ++ [.mrfSubmit fun _ => (), .cow .look, .cow .dequeue, .cow (.write 1), .snapRead 0 8 fun _ => (),
    .cow .look, .cow .dequeue, .cow (.mode true), .cow (.overlay true), .cow .finish]

theorem wholeRun_after : run (Machine.step disk) (State.created fun _ => ()) wholeRun =
    some (after disk (fun _ => ()) wholeRun) :=
  rfl

theorem threads_finish_example : moves (step disk) idles (State.created fun _ => ()) wholeRun ≤ 28 ∧
    (after disk (fun _ => ()) wholeRun).submitted.count 0 = 1 := by
  obtain ⟨hbound, hfinished⟩ := threads_finish wholeRun_after (by decide)
  refine ⟨hbound, ((hfinished fun a ha => ?_).submitted 0 (by decide)).2.mpr (by decide)⟩
  cases a with
  | tracer i act =>
      cases i with
      | zero => cases act <;> first | rfl | (rename_i x; cases x <;> rfl)
      | succ i => rfl
  | reader k act =>
      cases k with
      | zero => cases act <;> first | rfl | (rename_i x y; cases x <;> rfl)
      | succ k => rfl
  | cow act =>
      cases act with
      | look | dequeue => cases ha
      | mode ok | base ok | overlay ok => cases ok <;> rfl
      | write | finish | exit => rfl
  | mrfSubmit content => rfl
  | _ => cases ha

end ElastioSnap.Snapshot.Progress
