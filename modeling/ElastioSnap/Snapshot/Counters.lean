import ElastioSnap.Snapshot.Sectors
import ElastioSnap.Snapshot.Teardown

namespace ElastioSnap.Snapshot.Counters

open Lib.Runs Lib.Table Queue Tracking TraceBio ReadComplete CowThread Machine Refs PointInTime Teardown

variable {β : Type} {d : Device} {b₀ : Nat → β} {s t : State β} {a : Action β} {as : List (Action β)} {i k : Nat}
  {w : Write} {c c' : Clone β}

/-- A submitted clone whose completion was not handled. -/
def Stage.unhandled : Stage → Bool
  | .counted | .submitted | .completed | .queued | .failed | .failing => true
  | .created | .received | .done | .dropped | .leaked => false

/-- What `snap_cow_thread` checks besides `kthread_should_stop` before it leaves its loop. -/
def mayExit (s : State β) : Bool :=
  s.cowBios.isEmpty && s.submittedCnt == s.receivedCnt

/-- What `wait_for_bio_complete` waits for. -/
def waitForBioComplete (s : State β) : Bool :=
  s.submittedCnt == s.processedCnt

structure Balanced (s : State β) : Prop where
  submitted : (s.submittedCnt : Int) - s.receivedCnt = s.clones.countP (Stage.unhandled ·.stage)
  received : (s.receivedCnt : Int) - s.processedCnt = (pending s).length
  settled : s.clones.countP (Stage.unhandled ·.stage) = 0 → s.cowBios = [] → pending s = [] →
    mayExit s = true ∧ waitForBioComplete s = true

/-- Every clone that was queued is counted as processed or is pending, and a handler that has not
counted the clone it queued is one behind. -/
def Handed (s : State β) : Prop :=
  s.receivedCnt + s.clones.countP (·.stage == .queued) = s.processedCnt + (pending s).length

theorem Handed.congr (h : Handed s) (hc : t.clones = s.clones) (hr : t.receivedCnt = s.receivedCnt)
    (hp : t.processedCnt = s.processedCnt) (hq : pending t = pending s) : Handed t := by
  rw [Handed, hc, hr, hp, hq]
  exact h

/-- A clone moves that no handler is queueing, before or after. -/
theorem Handed.set (h : Handed s) (hk : s.clones[k]? = some c) (hc : t.clones = s.clones.set k c')
    (hold : (c.stage == .queued) = (c'.stage == .queued)) (hr : t.receivedCnt = s.receivedCnt)
    (hp : t.processedCnt = s.processedCnt) (hq : pending t = pending s) : Handed t := by
  have hset := countP_set_same (p := (·.stage == .queued)) hk hold.symm
  rw [Handed, hc, hset, hr, hp, hq]
  exact h

/-- The stages a call moves its clones through before they complete. -/
def Stage.early : Stage → Bool
  | .created | .counted | .submitted | .leaked => true
  | _ => false

/-- A call leaves alone every count of clones in later stages. -/
theorem tracer_countP {act : TraceAct} {p : Stage → Bool} (hs : Sound s) (hw : s.writes[i]? = some w)
    (hp : ∀ x, Stage.early x = true → p x = false) (hst : TraceStep d i w s act t) :
    t.clones.countP (p ·.stage) = s.clones.countP (p ·.stage) := by
  have hb := (hs.calls i w hw).newBio
  unfold NewBio at hb
  have moved : ∀ {k c}, s.clones[k]? = some c → Stage.early c.stage = true → ∀ x, Stage.early x = true →
      (s.clones.modify k fun c => { c with stage := x }).countP (p ·.stage) = s.clones.countP (p ·.stage) := by
    intro k c hk hc x hx
    exact countP_modify_same hk (by rw [hp _ hc, hp _ hx])
  cases hst with
  | allocTp | noTp | noBio | addMap | noMap | put | setFail => rfl
  | noPage | made =>
      rw [countP_snoc, hp _ rfl]
      rfl
  | count k hpc hk =>
      rw [hpc] at hb
      obtain ⟨k', c, hk', hcl, _, hst, _⟩ := hb
      rw [hk] at hk'
      cases hk'
      exact moved hcl (by rw [hst]; rfl) _ rfl
  | submit k c hpc hk hcl =>
      rw [hpc] at hb
      obtain ⟨k', c', hk', hcl', _, hst, _⟩ := hb
      rw [hk] at hk'
      cases hk'
      exact moved hcl' (by rw [hst]; rfl) _ rfl
  | cleanUp hpc =>
      rw [hpc] at hb
      unfold freeNewBio
      split
      next k hk =>
        obtain ⟨c, hcl, _, hst⟩ := hb k hk
        exact moved hcl (by rw [hst]; rfl) _ rfl
      next => rfl

theorem tracer_counts {act : TraceAct} (hst : TraceStep d i w s act t) :
    t.receivedCnt = s.receivedCnt ∧ t.processedCnt = s.processedCnt := by
  cases hst with
  | cleanUp =>
      unfold freeNewBio
      split <;> exact ⟨rfl, rfl⟩
  | _ => exact ⟨rfl, rfl⟩

theorem tracer_handed {act : TraceAct} (h : Handed s) (hs : Sound s) (hw : s.writes[i]? = some w)
    (hst : TraceStep d i w s act t) : Handed t := by
  have hc := tracer_countP (p := (· == .queued)) hs hw (fun x hx => by cases x <;> cases hx <;> rfl) hst
  have hq : pending t = pending s := pending_congr (tracer_aside hst).1.work (tracer_aside hst).2
  obtain ⟨hr, hp⟩ := tracer_counts hst
  rw [Handed] at h ⊢
  rw [hr, hp, hq, hc]
  exact h

theorem reader_handed {act : ReadAct} (h : Handed s) (hk : s.clones[k]? = some c)
    (hst : ReadStep d k c w s act t) : Handed t := by
  cases hst with
  | completed _ hc | failed _ hc | put hc | setFail hc | drop hc =>
      exact h.set hk rfl (by rw [hc]; rfl) rfl rfl (pending_congr rfl rfl)
  | append hc =>
      have hset := countP_set (b := { c with stage := .queued }) (p := (·.stage == .queued)) hk
      have hlen : ∀ e : Bio, e.isWrite = true →
          (pending { setClone s k { c with stage := .queued } with cowBios := s.cowBios ++ [e] }).length =
            (pending s).length + 1 := by
        intro e he
        simp only [pending, setClone, clones_append, clones_write he]
        split <;> simp [clones]
      rw [Handed] at h ⊢
      rw [hlen _ rfl]
      simp only [setClone]
      simp only [hc, beq_self_eq_true, Bool.toNat_true, show (Stage.completed == Stage.queued) = false from rfl,
        Bool.toNat_false] at hset
      omega
  | receive hc =>
      have hset := countP_set (b := { c with stage := .received }) (p := (·.stage == .queued)) hk
      have hq : pending { setClone s k { c with stage := .received } with receivedCnt := s.receivedCnt + 1 } =
          pending s := pending_congr rfl rfl
      rw [Handed] at h ⊢
      rw [hq]
      simp only [setClone]
      simp only [hc, beq_self_eq_true, Bool.toNat_true, show (Stage.received == Stage.queued) = false from rfl,
        Bool.toNat_false] at hset
      omega

/-- A write clone leaves the queue, and nothing else does. -/
theorem clones_dequeued {q q' : List Bio} {bio : Bio} (h : bioQueueDequeueDelayRead q = some (bio, q')) :
    (clones q).length = (clones q').length + bio.isWrite.toNat := by
  cases hw : bio.isWrite with
  | true =>
      obtain ⟨pre, post, hpre, hpost⟩ := dequeue_write h hw
      rw [hpre, hpost]
      simp only [List.length_append, List.length_cons, Bool.toNat_true]
      omega
  | false =>
      rw [(dequeue_read h hw).1]
      rfl

/-- Only a read of the snapshot is ended by one of these errors. -/
theorem error_work {act : CowAct} (h : snapCowThread d act s = some t)
    (hact : act = .mode false ∨ act = .base false ∨ act = .overlay false) (bio : Bio) : s.work ≠ .write bio := by
  intro hw
  rcases hact with rfl | rfl | rfl <;> simp [snapCowThread, hw] at h

/-- A pending clone stays pending until it counts as processed. -/
theorem cow_handed {act : CowAct} (h : snapCowThread d act s = some t) :
    t.processedCnt + (pending t).length = s.processedCnt + (pending s).length := by
  have other : t.processedCnt = s.processedCnt → t.cowBios = s.cowBios → (∀ q, s.work ≠ .write q) →
      (∀ q, t.work ≠ .write q) → t.processedCnt + (pending t).length = s.processedCnt + (pending s).length := by
    intro hp hq hs ht
    rw [hp, pending_other hq hs ht]
  cases snapCowThread_step h with
  | take bio rest hw hq hf =>
      have hlen := clones_dequeued hq
      rw [pending_of_dequeue hw]
      cases hb : bio.isWrite with
      | true =>
          rw [hb, Bool.toNat_true] at hlen
          simp only [pending, if_true, List.length_cons]
          omega
      | false =>
          rw [hb, Bool.toNat_false] at hlen
          simp only [pending, Bool.false_eq_true, if_false]
          omega
  | drop bio rest hw hq hf =>
      have hlen := clones_dequeued hq
      rw [pending_of_dequeue hw]
      cases hb : bio.isWrite with
      | true =>
          rw [hb, Bool.toNat_true] at hlen
          simp only [take, hb, hf, processed, bioFreeClone, pending]
          omega
      | false =>
          rw [hb, Bool.toNat_false] at hlen
          simp only [take, hb, hf, pending]
          omega
  | write handled bio c hw hc =>
      have hkeep : (snapHandleWriteBio d bio c handled s).processedCnt = s.processedCnt ∧
          (snapHandleWriteBio d bio c handled s).cowBios = s.cowBios := by
        simp only [snapHandleWriteBio]
        split
        · exact ⟨rfl, rfl⟩
        · split <;> exact ⟨rfl, rfl⟩
      simp only [processed, bioFreeClone, pending, hw, hkeep.1, hkeep.2, List.length_cons]
      omega
  | empty hw | look hw | exit hw => exact other rfl rfl (by simp [hw]) (by simp [hw])
  | mode bio r hw => exact other rfl rfl (by simp [hw]) fun q => by dsimp only; split <;> simp
  | base bio m hw => exact other rfl rfl (by simp [hw]) fun q => by dsimp only; split <;> simp
  | overlay bio data hw => exact other rfl rfl (by simp [hw]) (by simp)
  | error act bio data hact => exact other rfl rfl (error_work h hact) (by simp)
  | finish bio ok data hw => exact other rfl rfl (by simp [hw]) (by simp [endRead])

theorem Handed.step (h : Handed s) (hs : Sound s) (hstep : Machine.step d s a = some t) : Handed t := by
  cases step_of hstep with
  | tracer i w act _ hw hst => exact tracer_handed h hs hw hst
  | reader k c w act _ hk hw hst => exact reader_handed h hk hst
  | cow act _ hst =>
      have hcow : snapCowThread d act s = some t := hstep
      have hmoved := cow_handed hcow
      have hframe := cow_frame hst
      rw [Handed] at h ⊢
      rw [hframe.receivedCnt, hframe.clones]
      omega
  | snapRead sector sectors pages =>
      refine h.congr rfl rfl rfl ?_
      have hcl : clones (s.cowBios ++ [⟨false, sector, sectors, s.reads.length⟩]) = clones s.cowBios := by
        rw [clones_append, clones_read rfl]
        exact List.append_nil _
      simp only [pending, hcl]
  | _ => exact h.congr rfl rfl rfl rfl

/-- The handler of a failed read ran to its end. -/
def Action.isDrop : Action β → Bool
  | .reader _ .drop => true
  | _ => false

theorem reader_dropped {act : ReadAct} (hk : s.clones[k]? = some c) (hst : ReadStep d k c w s act t) :
    t.clones.countP (·.stage == .dropped) =
      s.clones.countP (·.stage == .dropped) + (Action.isDrop (.reader k act : Action β)).toNat := by
  cases hst with
  | completed _ hc | failed _ hc | append hc | receive hc | put hc | setFail hc =>
      exact countP_set_same hk (by rw [hc]; rfl)
  | drop hc =>
      have hset := countP_set (b := { c with stage := .dropped }) (p := (·.stage == .dropped)) hk
      simp only [hc, beq_self_eq_true, Bool.toNat_true, show (Stage.failing == Stage.dropped) = false from rfl,
        Bool.toNat_false] at hset
      exact hset

theorem step_dropped (hs : Sound s) (hst : Step d s a t) :
    t.clones.countP (·.stage == .dropped) = s.clones.countP (·.stage == .dropped) + (Action.isDrop a).toNat := by
  cases hst with
  | tracer i w act _ hw hst => 
      exact tracer_countP (p := (· == .dropped)) hs hw (fun x hx => by cases x <;> cases hx <;> rfl) hst
  | reader k c w act _ hk hw hst => exact reader_dropped hk hst
  | cow act _ hst =>
      rw [(cow_frame hst).clones]
      rfl
  | _ => rfl

/-- What a run of the device leaves in its three counters. -/
structure Counted (as : List (Action β)) (s : State β) : Prop where
  sound : Sound s
  counters : Counters s
  handed : Handed s
  dropped : s.clones.countP (·.stage == .dropped) = as.countP Action.isDrop

theorem counted_run (h : run (step d) (State.created b₀) as = some s) : Counted as s := by
  refine run_invariant (I := Counted) ⟨sound_created b₀, rfl, rfl, rfl⟩ ?_ h
  intro as s a t hc hstep
  have hst := step_of hstep
  refine ⟨hc.sound.step hst, hc.counters.step hc.sound hst, hc.handed.step hc.sound hstep, ?_⟩
  rw [step_dropped hc.sound hst, hc.dropped, countP_snoc]

/-- The clones that are not received are the unhandled ones, and those whose reads failed. -/
theorem countP_unreceived (cs : List (Clone β)) : cs.countP (Stage.unreceived ·.stage) =
    cs.countP (Stage.unhandled ·.stage) + cs.countP (·.stage == .dropped) := by
  induction cs with
  | nil => rfl
  | cons c cs ih =>
      have hc : (if Stage.unreceived c.stage then 1 else 0) =
          (if Stage.unhandled c.stage then 1 else 0) + if c.stage == .dropped then 1 else 0 := by
        cases c.stage <;> rfl
      simp only [List.countP_cons, ih, hc]
      omega

/-- How far the counters are apart, in every run. -/
theorem Counted.apart (h : Counted as s) :
    s.submittedCnt = s.receivedCnt + s.clones.countP (Stage.unhandled ·.stage) + as.countP Action.isDrop ∧
    s.receivedCnt + s.clones.countP (·.stage == .queued) = s.processedCnt + (pending s).length := by
  refine ⟨?_, h.handed⟩
  have hc := h.counters
  rw [Counters, countP_unreceived, h.dropped] at hc
  omega

/-- No handler has dropped its clone. -/
theorem drops_zero : as.countP Action.isDrop = 0 ↔ ∀ k, Action.reader k .drop ∉ as := by
  rw [List.countP_eq_zero]
  constructor
  · exact fun h k hk => h _ hk rfl
  · intro h a ha hd
    unfold Action.isDrop at hd
    split at hd
    next k => exact h k ha
    next => cases hd

/-- The counters balance unless a completion handler stands between `bio_queue_add` and its increment of
`sd_received_cnt`, or the handler of a failed read ended, which counts its clone nowhere. -/
theorem counters_balance_iff (h : run (step d) (State.created b₀) as = some s) :
    Balanced s ↔ (∀ k, Action.reader k .drop ∉ as) ∧ ∀ c ∈ s.clones, c.stage ≠ .queued := by
  obtain ⟨hsub, hrec⟩ := (counted_run h).apart
  have hqueued : s.clones.countP (·.stage == .queued) = 0 ↔ ∀ c ∈ s.clones, c.stage ≠ .queued := by
    simp only [List.countP_eq_zero, beq_iff_eq, ne_eq]
  rw [← drops_zero, ← hqueued]
  constructor
  · intro hb
    have hs := hb.submitted
    have hr := hb.received
    omega
  · rintro ⟨hd, hq⟩
    refine ⟨by omega, by omega, fun hu he hp => ?_⟩
    rw [hp, List.length_nil] at hrec
    have hsr : s.submittedCnt = s.receivedCnt := by omega
    have hsp : s.submittedCnt = s.processedCnt := by omega
    constructor
    · rw [mayExit, he, hsr, beq_self_eq_true, List.isEmpty_nil, Bool.and_self]
    · rw [waitForBioComplete, hsp, beq_self_eq_true]

/-- The read of one clone fails, and its handler runs to its end. -/
def failedRead : List (Action Unit) :=
  [.trace 0 8, .tracer 0 (.allocTp true), .tracer 0 (.makeClone (.made 1 1)), .tracer 0 (.addMap true),
    .tracer 0 .count, .tracer 0 .submit, .tracer 0 .put, .reader 0 (.complete false 0), .reader 0 .setFail,
    .reader 0 .drop]

theorem failedRead_after : run (Machine.step disk) (State.created fun _ => ()) failedRead =
    some (after disk (fun _ => ()) failedRead) :=
  rfl

theorem counters_balance_iff_capture : Balanced (after disk (fun _ => ()) captureRun) :=
  (counters_balance_iff (captureRun_after fun _ => ())).mpr
    ⟨fun k hk => by simp [captureRun] at hk, by decide⟩

/-- Nothing is in flight and nothing is queued, and the cow thread does not leave its loop. -/
theorem counters_unbalanced : ¬ ∀ (d : Device) (b₀ : Nat → Unit) (as : List (Action Unit)) (s : State Unit),
    run (step d) (State.created b₀) as = some s → Balanced s := by
  intro h
  have hb := h disk _ _ _ failedRead_after
  have hexit := (hb.settled rfl rfl rfl).1
  cases hexit

end ElastioSnap.Snapshot.Counters
