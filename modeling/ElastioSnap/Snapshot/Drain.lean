import ElastioSnap.Snapshot.PointInTime

namespace ElastioSnap.Snapshot.Drain

open Lib.Runs Lib.Table Queue Tracking TraceBio ReadComplete CowThread Machine Blocks Refs Capture Filing
  CopyBeforeWrite PointInTime

variable {β : Type} {d : Device} {s t : State β} {a : Action β} {i k b : Nat} {w : Write}
  {c : Clone β} {bio : Bio} {r : SnapRead β}

/-- A device that has failed stays so. -/
theorem step_fails (hst : Step d s a t) (hf : s.fail = true) : t.fail = true := by
  cases hst with
  | tracer i w act _ hw h =>
      cases h with
      | setFail => rfl
      | cleanUp =>
          unfold freeNewBio
          split <;> exact hf
      | _ => exact hf
  | reader k c w act _ hk hw h =>
      cases h with
      | setFail => rfl
      | _ => exact hf
  | cow act _ h =>
      cases h with
      | drop bio rest hw hq hl =>
          unfold take
          split <;> exact hf
      | write handled bio c hw hc =>
          simp only [processed, bioFreeClone, snapHandleWriteBio]
          split
          · exact hf
          · split
            · rfl
            · exact hf
      | error => rfl
      | _ => exact hf
  | failure => rfl
  | _ => exact hf

/-- What was put on `sd_cow_bios` is stored or still pending, whether the device is traced or not. -/
structure Queued (d : Device) (s : State β) : Prop where
  notFailed : s.isFailed = false
  queued : ∀ bio ∈ pending s, ∃ c, s.clones[bio.id]? = some c ∧ c.stage.appended = true ∧
    bio.sector = c.sect - d.sectOff
  appended : ∀ (k : Nat) (c : Clone β) (b : Nat), s.clones[k]? = some c → c.stage.appended = true → c.Covers d b →
    s.saved b ≠ none ∨ ∃ bio ∈ pending s, bio.id = k

theorem Queued.onward (h : Queued d s) (hk : Kept s t) (hb : bio ∈ pending s) :
    ∃ c, t.clones[bio.id]? = some c ∧ c.stage.appended = true ∧ bio.sector = c.sect - d.sectOff := by
  obtain ⟨c, hc, ha, hs⟩ := h.queued bio hb
  obtain ⟨c', hc', ho⟩ := hk.clones bio.id c hc (sent_of_appended ha)
  exact ⟨c', hc', ho.appended ha, by rw [ho.sect]; exact hs⟩

/-- A step that puts nothing on the queue and stores nothing. -/
theorem Queued.frame (h : Queued d s) (hs : Sound s) (hst : Step d s a t) (ha : ∀ k, a ≠ .reader k .append)
    (hnf : t.isFailed = s.isFailed) (hq : ∀ bio, bio ∈ pending t ↔ bio ∈ pending s) (hsv : t.saved = s.saved) :
    Queued d t where
  notFailed := hnf.trans h.notFailed
  queued bio hm := h.onward (step_kept hs hst) ((hq bio).mp hm)
  appended k c b hk hc hcov := by
    obtain ⟨e, he, hae, hsect, hpages⟩ := appended_origin hst ha hk hc
    rw [hsv]
    refine (h.appended k e b he hae ?_).imp_right fun hx => hx.imp fun bio hb => ⟨(hq bio).mpr hb.1, hb.2⟩
    rw [Clone.Covers, ← hsect, ← hpages]
    exact hcov

theorem Queued.append (h : Queued d s) (hf : Filed d s) (hk : s.clones[k]? = some c)
    (hw : s.writes[c.tp]? = some w) (hst : Step d s (.reader k .append) t) (hc : c.stage = .completed)
    (ht : t = { setClone s k { c with stage := .queued } with
      cowBios := s.cowBios ++ [{ isWrite := true, sector := resetSector d w c, size := c.left, id := k }] }) :
    Queued d t := by
  have hkept := step_kept hf.captures.sound hst
  have hq : pending t = pending s ++ [{ isWrite := true, sector := resetSector d w c, size := c.left, id := k }] := by
    subst ht
    simp only [pending, setClone, clones_append]
    split <;> rfl
  have hkt : t.clones[k]? = some { c with stage := .queued } := by
    subst ht
    exact set_self hk
  constructor
  case notFailed =>
    subst ht
    exact h.notFailed
  case queued =>
    intro bio hm
    rw [hq] at hm
    rcases List.mem_append.mp hm with hm | hm
    · exact h.onward hkept hm
    · rw [List.mem_singleton.mp hm]
      exact ⟨_, hkt, rfl, hf.resetSector_eq hk hw (by rw [hc]; rfl)⟩
  case appended =>
    intro k' e n het ha hcov
    rw [hq]
    by_cases hne : k = k'
    · subst hne
      exact .inr ⟨_, List.mem_append_right _ List.mem_cons_self, rfl⟩
    · have he : s.clones[k']? = some e := by
        subst ht
        exact (set_other hne).symm.trans het
      have hs : t.saved = s.saved := by
        subst ht
        rfl
      rw [hs]
      exact (h.appended k' e n he ha hcov).imp_right
        fun hx => hx.imp fun bio hb => ⟨List.mem_append_left _ hb.1, hb.2⟩

theorem pending_take {rest : List Bio} (hw : s.work = .dequeue)
    (hq : bioQueueDequeueDelayRead s.cowBios = some (bio, rest)) (x : Bio) :
    x ∈ pending { s with cowBios := rest, work := if bio.isWrite then .write bio else .mode bio } ↔ x ∈ pending s := by
  rw [pending_of_dequeue hw]
  cases hb : bio.isWrite with
  | true =>
      obtain ⟨pre, post, hpre, hpost⟩ := dequeue_write hq hb
      have ht : pending { s with cowBios := rest, work := .write bio } = bio :: (pre ++ post) :=
        congrArg (List.cons bio) hpost
      rw [if_pos rfl, ht, hpre]
      simp only [List.mem_cons, List.mem_append]
      tauto
  | false =>
      rw [if_neg Bool.false_ne_true, ← (dequeue_read hq hb).1]
      exact Iff.rfl

/-- The clone the cow thread has is stored. -/
theorem Queued.write (h : Queued d s) (hf : Filed d s) (hst : Step d s a t) (hw : s.work = .write bio)
    (hc : s.clones[bio.id]? = some c) (hcl : t.clones = s.clones) (hnf : t.isFailed = s.isFailed)
    (hq : pending t = clones s.cowBios) (hsv : t.saved = writePages d bio c c.pages s.saved) : Queued d t := by
  have hs : pending s = bio :: clones s.cowBios := by simp only [pending, hw]
  obtain ⟨e, he, ha, hsect⟩ := h.queued bio (hs ▸ List.mem_cons_self)
  cases hc.symm.trans he
  have hpages : ∀ b, (c.Covers d b → writePages d bio c c.pages s.saved b =
      (s.saved b).or (some fun o => c.data (d.sector b o))) ∧
      (¬ c.Covers d b → writePages d bio c c.pages s.saved b = s.saved b) :=
    fun b => writePages_eq (hf.aligned bio.id c hc) hsect
  constructor
  case notFailed => exact hnf.trans h.notFailed
  case queued =>
    intro x hx
    rw [hq] at hx
    exact h.onward (step_kept hf.captures.sound hst) (hs ▸ List.mem_cons_of_mem _ hx)
  case appended =>
    intro k e n hk hap hcov
    rw [hcl] at hk
    rw [hsv, hq]
    by_cases hcn : c.Covers d n
    · left
      rw [(hpages n).1 hcn]
      intro hnone
      cases (Option.or_eq_none_iff.mp hnone).2
    · rw [(hpages n).2 hcn]
      refine (h.appended k e n hk hap hcov).imp_right ?_
      rintro ⟨x, hx, rfl⟩
      rw [hs] at hx
      rcases List.mem_cons.mp hx with rfl | hx
      · cases hc.symm.trans hk
        exact absurd hcov hcn
      · exact ⟨x, hx, rfl⟩

/-- In one step that does not fail the cow thread stores all pages of a clone. -/
theorem write_stores {handled : Nat} (hsf : s.fail = false)
    (ht : (processed (snapHandleWriteBio d bio c handled s) bio.id).fail = false) :
    c.pages ≤ handled ∧ processed (snapHandleWriteBio d bio c handled s) bio.id =
      processed { s with saved := writePages d bio c c.pages s.saved } bio.id := by
  have hign : (d.ignoreSnapErrors && s.fail) = false := by rw [hsf, Bool.and_false]
  have hlt : ¬ handled < c.pages := by
    intro hlt
    simp only [processed, bioFreeClone, snapHandleWriteBio, hign, hlt, if_true, tracerSetFailState,
      Bool.false_eq_true, if_false] at ht
    cases ht
  have hmin : min handled c.pages = c.pages := Nat.min_eq_right (by omega)
  refine ⟨by omega, ?_⟩
  simp only [snapHandleWriteBio, hign, hlt, if_false, hmin, Bool.false_eq_true]

theorem Queued.cow {act : CowAct} (h : Queued d s) (hf : Filed d s) (hst : CowStep d s act t)
    (ht : t.fail = false) : Queued d t := by
  have hstep := Step.cow act t hst
  have hsf := not_failed (step_kept hf.captures.sound hstep) ht
  have frame := h.frame hf.captures.sound hstep (fun _ he => by cases he)
  have same : pending t = pending s → ∀ bio, bio ∈ pending t ↔ bio ∈ pending s := fun he _ => by rw [he]
  cases hst with
  | look hw he =>
      refine frame ?_ (same (pending_other rfl (by simp [hw]) (by simp))) rfl
      simp only [hsf, Bool.or_false]
  | empty hw hq => exact frame rfl (same (pending_other rfl (by simp [hw]) (by simp))) rfl
  | take bio rest hw hq hnf => exact frame rfl (pending_take hw hq) rfl
  | drop bio rest hw hq hfl =>
      rw [h.notFailed] at hfl
      cases hfl
  | write handled bio c hw hc =>
      obtain ⟨-, he⟩ := write_stores hsf ht
      rw [he] at hstep ⊢
      exact h.write hf hstep hw hc rfl rfl rfl rfl
  | mode bio r hw hr =>
      refine frame rfl (same (pending_other rfl (by simp [hw]) fun x => ?_)) rfl
      dsimp only
      split <;> simp
  | base bio m hw =>
      refine frame rfl (same (pending_other rfl (by simp [hw]) fun x => ?_)) rfl
      dsimp only
      split <;> simp
  | overlay bio data hw => exact frame rfl (same (pending_other rfl (by simp [hw]) (by simp))) rfl
  | error => cases ht
  | finish bio ok data hw => exact frame rfl (same (pending_other rfl (by simp [hw]) (by simp [endRead]))) rfl
  | exit hw => exact frame rfl (same (pending_other rfl (by simp [hw]) (by simp [hw]))) rfl

theorem Queued.step (h : Queued d s) (hf : Filed d s) (hst : Step d s a t) (ht : t.fail = false) : Queued d t := by
  have hsf := not_failed (step_kept hf.captures.sound hst) ht
  have frame := h.frame hf.captures.sound hst
  have same : pending t = pending s → ∀ bio, bio ∈ pending t ↔ bio ∈ pending s := fun he _ => by rw [he]
  cases hst with
  | tracer i w act _ hw hs =>
      obtain ⟨ha, hq⟩ := tracer_aside hs
      exact frame (fun _ he => by cases he) ha.isFailed (same (pending_congr ha.work hq)) ha.saved
  | reader k c w act _ hk hw hs =>
      by_cases happ : act = .append
      · subst happ
        have hstep := Step.reader k c w .append t hk hw hs
        cases hs with
        | append hc => exact h.append hf hk hw hstep hc rfl
      · obtain ⟨ha, hq⟩ := reader_aside hs
        refine frame (fun k' he => ?_) ha.isFailed (same (pending_congr ha.work (hq happ))) ha.saved
        cases he
        exact happ rfl
  | cow act _ hs => exact h.cow hf hs ht
  | refused _ _ _ hfl =>
      rw [hsf] at hfl
      cases hfl
  | snapRead sector sectors pages hfl =>
      have hcl : clones (s.cowBios ++ [⟨false, sector, sectors, s.reads.length⟩]) = clones s.cowBios := by
        rw [clones_append, clones_read rfl]
        exact List.append_nil _
      refine frame (fun _ he => by cases he) rfl (same ?_) rfl
      simp only [pending, hcl]
  | failure => cases ht
  | trace | mrfSubmit | direct | mrfExit | stopTracing | stopCow | stopMrf | free =>
      exact frame (fun _ he => by cases he) rfl (same rfl) rfl

theorem queued_created (b₀ : Nat → β) : Queued d (State.created b₀) where
  notFailed := rfl
  queued bio hm := by cases hm
  appended k c b hk := by cases hk

/-- A write that is traced, and a read of the snapshot, lie in the device. -/
def InDevice (d : Device) : Action β → Prop
  | .trace sector sectors => sector + sectors ≤ d.sectOff + d.size
  | .snapRead sector sectors _ => sector + sectors ≤ d.size
  | _ => True

/-- Nothing of what is traced, and of what is read for it, lies behind the end of the device. -/
structure Inside (d : Device) (s : State β) : Prop where
  writes : ∀ (i : Nat) (w : Write), s.writes[i]? = some w → w.sector + w.sectors ≤ d.sectOff + d.size
  clones : ∀ (k : Nat) (c : Clone β), s.clones[k]? = some c →
    c.sect + d.sectorsPerBlock * c.pages ≤ d.sectOff + d.size
  reads : ∀ (k : Nat) (r : SnapRead β), s.reads[k]? = some r → r.sector + r.sectors ≤ d.size

/-- A device of whole blocks ends where the last block of a write inside it ends, or behind. -/
theorem endSect_le (hsize : d.sectorsPerBlock ∣ d.size) {sector sectors : Nat} (ho : d.sectOff ≤ sector)
    (h : sector + sectors ≤ d.sectOff + d.size) : endSect d sector sectors ≤ d.sectOff + d.size := by
  obtain ⟨n, hn⟩ := hsize
  have hpos := d.pos
  rw [hn] at h ⊢
  have hend : d.sectOff + d.sectorsPerBlock * n = d.sector n 0 := by simp only [Device.sector, Nat.add_zero]
  rw [hend, endSect_eq, sector_le_iff]
  have hle : sector + sectors - d.sectOff + d.sectorsPerBlock - 1 < d.sectorsPerBlock * (n + 1) := by
    rw [Nat.mul_succ]
    omega
  exact Nat.lt_succ_iff.mp ((Nat.div_lt_iff_lt_mul hpos).mpr (by rw [Nat.mul_comm]; exact hle))

theorem Inside.newClone (h : Inside d s) (hc : Captures d s) (hsize : d.sectorsPerBlock ∣ d.size)
    (hw : s.writes[i]? = some w) (hpc : w.pc = .makeClone) {n : Nat} (hn : n ≤ w.pages) :
    w.startSect + d.sectorsPerBlock * n ≤ d.sectOff + d.size := by
  have hp := hc.progress i w hw
  unfold Progress at hp
  rw [hpc] at hp
  have hle := endSect_le hsize (hc.origin i w hw) (h.writes i w hw)
  rw [← hp.rest] at hle
  exact Nat.le_trans (Nat.add_le_add_left (Nat.mul_le_mul_left _ hn) _) hle

theorem Inside.tracer {act : TraceAct} (h : Inside d s) (hc : Captures d s) (hsize : d.sectorsPerBlock ∣ d.size)
    (hw : s.writes[i]? = some w) (hst : TraceStep d i w s act t) (hk : t.clones[k]? = some c) :
    c.sect + d.sectorsPerBlock * c.pages ≤ d.sectOff + d.size := by
  have mod : ∀ {us : List (Clone β)} {k' : Nat} {stage : Stage},
      us = s.clones.modify k' (fun c => { c with stage := stage }) → us[k]? = some c →
      c.sect + d.sectorsPerBlock * c.pages ≤ d.sectOff + d.size := by
    intro us k' stage hu hk
    rw [hu] at hk
    rcases modify_some hk with ⟨_, e, he, rfl⟩ | ⟨_, hk⟩
    · exact h.clones k e he
    · exact h.clones k c hk
  cases hst with
  | allocTp | noTp | noBio | addMap | noMap | put | setFail => exact h.clones k c hk
  | noPage addr hpc hfresh =>
      rcases append_some hk with hk | ⟨_, rfl⟩
      · exact h.clones k c hk
      · exact h.newClone hc hsize hw hpc (Nat.zero_le _)
  | made addr n hpc hfresh hn hle =>
      rcases append_some hk with hk | ⟨_, rfl⟩
      · exact h.clones k c hk
      · exact h.newClone hc hsize hw hpc hle
  | count | submit => exact mod rfl hk
  | cleanUp =>
      unfold freeNewBio at hk
      split at hk
      · exact mod rfl hk
      · exact h.clones k c hk

theorem Inside.reader {act : ReadAct} {e : Clone β} {j : Nat} (h : Inside d s) (hj : s.clones[j]? = some e)
    (hst : ReadStep d j e w s act t) (hk : t.clones[k]? = some c) :
    c.sect + d.sectorsPerBlock * c.pages ≤ d.sectOff + d.size := by
  have hset : ∀ {e' : Clone β}, (s.clones.set j e')[k]? = some c → e'.sect = e.sect → e'.pages = e.pages →
      c.sect + d.sectorsPerBlock * c.pages ≤ d.sectOff + d.size := by
    intro e' hk hsect hpages
    rcases set_some hk with ⟨_, rfl⟩ | ⟨_, hk⟩
    · rw [hsect, hpages]
      exact h.clones j e hj
    · exact h.clones k c hk
  cases hst with
  | completed | failed | append | receive | put | setFail | drop => exact hset hk rfl rfl

/-- A read keeps its place; the cow thread only ends it. -/
theorem step_read_of (hst : Step d s a t) (hr : t.reads[k]? = some r) :
    (∃ q, s.reads[k]? = some q ∧ q.sector = r.sector ∧ q.sectors = r.sectors) ∨
      ∃ pages, a = .snapRead r.sector r.sectors pages := by
  have modified : ∀ {n : Nat} {status : SnapRead β → ReadStatus β},
      (s.reads.modify n fun q => { q with status := status q })[k]? = some r →
      ∃ q, s.reads[k]? = some q ∧ q.sector = r.sector ∧ q.sectors = r.sectors := by
    intro n status hm
    rcases modify_some hm with ⟨_, q, hq, rfl⟩ | ⟨_, hq⟩
    · exact ⟨q, hq, rfl, rfl⟩
    · exact ⟨r, hq, rfl, rfl⟩
  by_cases hc : ∃ act, a = .cow act
  · obtain ⟨act, rfl⟩ := hc
    left
    cases hst with
    | cow _ _ hs =>
        cases hs with
        | drop bio rest hw hq hf =>
            cases hb : bio.isWrite with
            | true =>
                simp only [take, hb, hf, processed, bioFreeClone] at hr
                exact ⟨r, hr, rfl, rfl⟩
            | false =>
                simp only [take, hb, hf] at hr
                exact modified hr
        | write handled bio c hw hk =>
            refine ⟨r, ?_, rfl, rfl⟩
            simp only [processed, bioFreeClone, snapHandleWriteBio] at hr
            split at hr
            · exact hr
            · split at hr <;> exact hr
        | finish bio ok data hw => exact modified hr
        | _ => exact ⟨r, hr, rfl, rfl⟩
  · cases hst with
    | cow act => exact absurd ⟨act, rfl⟩ hc
    | tracer i w act _ hw hs => exact .inl ⟨r, (tracer_aside hs).1.reads ▸ hr, rfl, rfl⟩
    | reader j c w act _ hj hw hs => exact .inl ⟨r, (reader_aside hs).1.reads ▸ hr, rfl, rfl⟩
    | refused sector sectors pages | snapRead sector sectors pages =>
        rcases append_some hr with hr | ⟨_, rfl⟩
        · exact .inl ⟨r, hr, rfl, rfl⟩
        · exact .inr ⟨pages, rfl⟩
    | _ => exact .inl ⟨r, hr, rfl, rfl⟩

theorem Inside.read (h : Inside d s) (hst : Step d s a t) (hin : InDevice d a) (hr : t.reads[k]? = some r) :
    r.sector + r.sectors ≤ d.size := by
  rcases step_read_of hst hr with ⟨q, hq, hsec, hsecs⟩ | ⟨pages, rfl⟩
  · rw [← hsec, ← hsecs]
    exact h.reads k q hq
  · exact hin

theorem Inside.step (h : Inside d s) (hc : Captures d s) (hsize : d.sectorsPerBlock ∣ d.size)
    (hst : Step d s a t) (hin : InDevice d a) : Inside d t := by
  have reads := fun k (r : SnapRead β) => h.read (k := k) (r := r) hst hin
  rcases step_kinds hst with ⟨sector, sectors, rfl, _, _, rfl⟩ | ⟨i, w, act, _, hw, ht⟩ |
    ⟨j, e, w, act, _, hj, hw, hr⟩ | ⟨i, rest, content, w, _, _, _, rfl⟩ | ⟨_, hf⟩
  · refine ⟨fun i w hi => ?_, h.clones, reads⟩
    rcases append_some hi with hi | ⟨_, rfl⟩
    · exact h.writes i w hi
    · exact hin
  · refine ⟨fun j v hv => ?_, fun k c hk => h.tracer hc hsize hw ht hk, reads⟩
    by_cases hj : j = i
    · subst hj
      obtain ⟨w', hw', hsec, hsecs, _⟩ := tracer_progress hc.sound hw (hc.progress j w hw) ht
      rw [hw'] at hv
      cases hv
      rw [hsec, hsecs]
      exact h.writes j w hw
    · rw [(tracer_apart hc.sound hw ht).writes j hj] at hv
      exact h.writes j v hv
  · refine ⟨fun j' v hv => ?_, fun k c hk => h.reader hj hr hk, reads⟩
    by_cases hj' : j' = e.tp
    · subst hj'
      obtain ⟨w', hw', hsec, hsecs, _⟩ := reader_progress hj hw (hc.progress _ w hw) hr
      rw [hw'] at hv
      cases hv
      rw [hsec, hsecs]
      exact h.writes _ w hw
    · rw [(reader_apart hj hr).writes j' hj'] at hv
      exact h.writes j' v hv
  · exact ⟨h.writes, h.clones, reads⟩
  · refine ⟨?_, ?_, reads⟩
    · rw [hf.writes]
      exact h.writes
    · rw [hf.clones]
      exact h.clones

theorem inside_created (b₀ : Nat → β) : Inside d (State.created b₀) where
  writes i w hw := by cases hw
  clones k c hk := by cases hk
  reads k r hr := by cases hr

/-- Another tracer took over while every traced write was already submitted, and once the cow thread has
exited it has left nothing behind. -/
structure HandedOver (s : State β) : Prop where
  tracing : s.tracing = false
  submitted : ∀ i < s.writes.length, i ∈ s.submitted
  drained : s.cowExited = true → s.work = .idle ∧ clones s.cowBios = []

/-- The call for a write that was handed over has returned. -/
theorem HandedOver.no_tracer {act : TraceAct} (h : HandedOver s) (hs : Sound s) (hw : s.writes[i]? = some w)
    (hst : TraceStep d i w s act t) : False := by
  have hi := h.submitted i (List.getElem?_eq_some_iff.mp hw).1
  have hpc := (refs_of_released hs hw (List.mem_append_left _ hi)).1
  cases hst <;> simp_all

/-- The handler of each of its clones has finished. -/
theorem HandedOver.no_reader {act : ReadAct} (h : HandedOver s) (hs : Sound s) (hk : s.clones[k]? = some c)
    (hw : s.writes[c.tp]? = some w) (hst : ReadStep d k c w s act t) : False := by
  have hi := h.submitted c.tp (List.getElem?_eq_some_iff.mp hw).1
  have hcount := (refs_of_released hs hw (List.mem_append_left _ hi)).2
  have hno := List.countP_eq_zero.mp hcount c (List.mem_of_getElem? hk)
  rw [Clone.holdsRef, beq_self_eq_true, Bool.true_and] at hno
  cases hst <;> simp_all [Stage.holdsRef]

theorem HandedOver.step (h : HandedOver s) (hs : Sound s) (hst : Step d s a t) (ht : t.fail = false) :
    HandedOver t := by
  have busy : ∀ {P : Prop} {work : Work β}, s.work = work → work ≠ .idle → s.cowExited = true → P := by
    intro P work hw hne he
    exact absurd (hw.symm.trans (h.drained he).1) hne
  cases hst with
  | trace sector sectors htr =>
      rw [h.tracing] at htr
      cases htr
  | tracer i w act _ hw hst => exact (h.no_tracer hs hw hst).elim
  | reader k c w act _ hk hw hst => exact (h.no_reader hs hk hw hst).elim
  | cow act _ hst =>
      cases hst with
      | look hw he =>
          refine ⟨h.tracing, h.submitted, fun hx => ?_⟩
          rw [he] at hx
          cases hx
      | empty hw | take _ _ hw | mode _ _ hw | base _ _ hw | overlay _ _ hw | finish _ _ _ hw =>
          exact ⟨h.tracing, h.submitted, busy hw (by simp)⟩
      | drop bio rest hw =>
          refine ⟨?_, ?_, ?_⟩ <;> unfold take <;> split
          all_goals first
            | exact h.tracing
            | exact h.submitted
            | exact busy hw (by simp)
      | write handled bio c hw =>
          simp only [processed, bioFreeClone, snapHandleWriteBio]
          split
          · exact ⟨h.tracing, h.submitted, busy hw (by simp)⟩
          · split <;> exact ⟨h.tracing, h.submitted, busy hw (by simp)⟩
      | error => cases ht
      | exit hw he hx hq => exact ⟨h.tracing, h.submitted, fun _ => ⟨hw, by rw [hq]; rfl⟩⟩
  | mrfSubmit content i rest w =>
      exact ⟨h.tracing, fun j hj => List.mem_append_left _ (h.submitted j hj), h.drained⟩
  | snapRead sector sectors pages =>
      refine ⟨h.tracing, h.submitted, fun hx => ⟨(h.drained hx).1, ?_⟩⟩
      rw [clones_append, clones_read rfl, (h.drained hx).2]
      rfl
  | stopTracing => exact ⟨rfl, h.submitted, h.drained⟩
  | mrfExit | direct | refused | failure | stopCow | stopMrf | free => exact ⟨h.tracing, h.submitted, h.drained⟩

end ElastioSnap.Snapshot.Drain
