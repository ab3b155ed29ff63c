import ElastioSnap.Snapshot.Refs

namespace ElastioSnap.Snapshot.Teardown

open Lib.Runs Lib.Table Queue Tracking TraceBio ReadComplete CowThread Machine Refs

variable {β : Type} {d : Device} {b₀ : Nat → β} {s t : State β} {a : Action β} {i j k : Nat} {w : Write}
  {c c' : Clone β}

/-- Counted by `sd_submitted_cnt`, and not by `sd_received_cnt`. -/
def Stage.unreceived : Stage → Bool
  | .created | .received | .done | .leaked => false
  | _ => true

def Counters (s : State β) : Prop :=
  s.submittedCnt = s.receivedCnt + s.clones.countP (Stage.unreceived ·.stage)

theorem Counters.congr (h : Counters s) (hc : t.clones = s.clones) (hs : t.submittedCnt = s.submittedCnt)
    (hr : t.receivedCnt = s.receivedCnt) : Counters t := by
  rw [Counters, hc, hs, hr]
  exact h

/-- One clone moves, and the counters move with it. -/
theorem Counters.set (h : Counters s) (hk : s.clones[k]? = some c) (hc : t.clones = s.clones.set k c')
    (hcnt : t.submittedCnt + s.receivedCnt + (Stage.unreceived c.stage).toNat =
      s.submittedCnt + t.receivedCnt + (Stage.unreceived c'.stage).toNat) : Counters t := by
  have hset := countP_set (b := c') (p := (Stage.unreceived ·.stage)) hk
  rw [Counters] at h ⊢
  rw [hc]
  omega

theorem tracer_counters {act : TraceAct} (h : Counters s) (hs : Sound s) (hw : s.writes[i]? = some w)
    (hst : TraceStep d i w s act t) : Counters t := by
  have hb := (hs.calls i w hw).newBio
  unfold NewBio at hb
  cases hst with
  | allocTp | noTp | noBio | addMap | noMap | put | setFail => exact h.congr rfl rfl rfl
  | noPage | made =>
      rw [Counters] at h ⊢
      simp only [countP_snoc, Stage.unreceived, Bool.toNat_false, Nat.add_zero]
      exact h
  | count k hpc hk =>
      rw [hpc] at hb
      obtain ⟨k', c, hk', hcl, _, hst, _⟩ := hb
      rw [hk] at hk'
      cases hk'
      refine h.set hcl (modify_eq_set hcl) ?_
      simp only [hst, Stage.unreceived, Bool.toNat_false, Bool.toNat_true, State.setStage, State.setWrite]
      omega
  | submit k c hpc hk hcl =>
      rw [hpc] at hb
      obtain ⟨k', c', hk', hcl', _, hst, _⟩ := hb
      rw [hk] at hk'
      cases hk'
      rw [hcl] at hcl'
      cases hcl'
      refine h.set hcl (modify_eq_set hcl) ?_
      simp only [hst, Stage.unreceived, State.setStage, State.setWrite]
  | cleanUp hpc =>
      rw [hpc] at hb
      unfold freeNewBio
      split
      next k hk =>
        obtain ⟨c, hcl, _, hst⟩ := hb k hk
        refine h.set hcl (modify_eq_set hcl) ?_
        simp only [hst, Stage.unreceived, State.setStage, bioFreeClone, tpPut]
      next => exact h.congr rfl rfl rfl

theorem reader_counters {act : ReadAct} (h : Counters s) (hk : s.clones[k]? = some c)
    (hst : ReadStep d k c w s act t) : Counters t := by
  cases hst with
  | completed _ hc | failed _ hc | append hc | put hc | setFail hc | drop hc =>
      refine h.set hk rfl ?_
      simp only [hc, Stage.unreceived, setClone, tpPut, bioFreeClone, tracerSetFailState]
  | receive hc =>
      refine h.set hk rfl ?_
      simp only [hc, Stage.unreceived, setClone, Bool.toNat_true, Bool.toNat_false]
      omega

/-- `sd_submitted_cnt` is ahead of `sd_received_cnt` by the clones that were not received. -/
theorem Counters.step (h : Counters s) (hs : Sound s) (hst : Step d s a t) : Counters t := by
  rcases step_kinds hst with ⟨sector, sectors, _, _, _, rfl⟩ | ⟨i, w, act, _, hw, ht⟩ |
    ⟨k, c, w, act, _, hk, hw, hr⟩ | ⟨i, rest, content, w, _, ho, _, rfl⟩ | ⟨_, hf⟩
  · exact h.congr rfl rfl rfl
  · exact tracer_counters h hs hw ht
  · exact reader_counters h hk hr
  · exact h.congr rfl rfl rfl
  · exact h.congr hf.clones hf.submittedCnt hf.receivedCnt

/-- No allocation and no read fails. -/
def NoFault : Action β → Prop
  | .tracer _ (.allocTp ok) => ok = true
  | .tracer _ (.makeClone .noBio) => False
  | .tracer _ (.makeClone (.noPage _)) => False
  | .tracer _ (.addMap ok) => ok = true
  | .reader _ (.complete ok _) => ok = true
  | _ => True

/-- When `snap_cow_thread` exits every call has submitted its last clone, and when `snap_mrf_thread`
exits no call is at its `tp_put` and no handler between its `sd_received_cnt` and its `tp_put`. -/
def CleanExit (s : State β) : Action β → Prop
  | .cow .exit => ∀ w ∈ s.writes, w.pc = .put ∨ w.pc = .returned
  | .mrfExit => (∀ w ∈ s.writes, w.pc ≠ .put) ∧ ∀ c ∈ s.clones, c.stage ≠ .received
  | _ => True

instance (a : Action β) : Decidable (NoFault a) :=
  match a with
  | .tracer _ (.allocTp ok) | .tracer _ (.addMap ok) | .reader _ (.complete ok _) =>
      inferInstanceAs (Decidable (ok = true))
  | .tracer _ (.makeClone .noBio) | .tracer _ (.makeClone (.noPage _)) => .isFalse id
  | .tracer _ (.makeClone (.made _ _)) | .tracer _ .count | .tracer _ .submit | .tracer _ .put | .tracer _ .setFail
  | .tracer _ .cleanUp | .reader _ .append | .reader _ .receive | .reader _ .put | .reader _ .setFail
  | .reader _ .drop | .trace _ _ | .cow _ | .mrfSubmit _ | .mrfExit | .direct _ _ _ | .snapRead _ _ _ | .failure
  | .stopTracing | .stopCow | .stopMrf | .free => .isTrue trivial

instance (s : State β) (a : Action β) : Decidable (CleanExit s a) :=
  match a with
  | .cow .exit => inferInstanceAs (Decidable (∀ w ∈ s.writes, w.pc = .put ∨ w.pc = .returned))
  | .mrfExit => inferInstanceAs (Decidable ((∀ w ∈ s.writes, w.pc ≠ .put) ∧ ∀ c ∈ s.clones, c.stage ≠ .received))
  | .cow .look | .cow .dequeue | .cow (.write _) | .cow (.mode _) | .cow (.base _) | .cow (.overlay _)
  | .cow .finish | .trace _ _ | .tracer _ _ | .reader _ _ | .mrfSubmit _ | .direct _ _ _ | .snapRead _ _ _
  | .failure | .stopTracing | .stopCow | .stopMrf | .free => .isTrue trivial

/-- A call and a clone to which nothing failed. -/
def Write.Healthy (w : Write) : Prop :=
  w.pc ≠ .setFail ∧ w.pc ≠ .cleanUp ∧ (w.refs = none → w.pc = .allocTp)

def Stage.healthy : Stage → Bool
  | .failed | .failing | .dropped | .leaked => false
  | _ => true

structure Healthy (s : State β) : Prop where
  calls : ∀ w ∈ s.writes, Write.Healthy w
  clones : ∀ c ∈ s.clones, Stage.healthy c.stage = true

theorem Healthy.mk_set (h : Healthy s) (hw : Write.Healthy w) (ht : t.writes = s.writes.set i w)
    (hc : ∀ c ∈ t.clones, Stage.healthy c.stage = true) : Healthy t where
  calls v hv := by
    rw [ht] at hv
    rcases List.mem_or_eq_of_mem_set hv with hv | rfl
    · exact h.calls v hv
    · exact hw
  clones := hc

theorem Write.healthy_put (h : Write.Healthy w) : Write.Healthy { w with refs := w.refs.map (· - 1) } :=
  ⟨h.1, h.2.1, fun hr => h.2.2 (Option.map_eq_none_iff.mp hr)⟩

theorem modify_healthy {cs : List (Clone β)} {stage : Stage} (h : ∀ c ∈ cs, Stage.healthy c.stage = true)
    (hs : Stage.healthy stage = true) :
    ∀ c ∈ cs.modify k (fun c => { c with stage := stage }), Stage.healthy c.stage = true := by
  intro c hc
  obtain ⟨k', hk'⟩ := List.mem_iff_getElem?.mp hc
  rcases modify_some hk' with ⟨_, c', _, rfl⟩ | ⟨_, hk'⟩
  · exact hs
  · exact h c (List.mem_of_getElem? hk')

theorem tracer_healthy {act : TraceAct} (h : Healthy s) (hw : s.writes[i]? = some w)
    (hst : TraceStep d i w s act t) (hf : NoFault (.tracer i act : Action β)) : Healthy t := by
  have hold := h.calls w (List.mem_of_getElem? hw)
  have hsome : w.pc ≠ .allocTp → w.refs ≠ none := fun hpc hr => hpc (hold.2.2 hr)
  cases hst with
  | allocTp => exact h.mk_set ⟨by simp, by simp, by simp⟩ rfl h.clones
  | noTp | noMap => cases hf
  | noBio | noPage => exact hf.elim
  | made addr n hpc =>
      have hrefs := hsome (by simp [hpc])
      refine h.mk_set ⟨by simp, by simp, by simp [tpGet, hrefs]⟩ rfl fun c hc => ?_
      rcases List.mem_append.mp hc with hc | hc
      · exact h.clones c hc
      · rw [List.mem_singleton.mp hc]
        rfl
  | addMap k c hpc => exact h.mk_set ⟨by simp, by simp, by simp [hsome (by simp [hpc])]⟩ rfl h.clones
  | count k hpc =>
      exact h.mk_set ⟨by simp, by simp, by simp [hsome (by simp [hpc])]⟩ rfl (modify_healthy h.clones rfl)
  | submit k c hpc =>
      have hrefs := hsome (by simp [hpc])
      refine h.mk_set ⟨?_, ?_, ?_⟩ rfl (modify_healthy h.clones rfl)
      · rcases advance_pc d w c with ha | ha <;> simp [ha]
      · rcases advance_pc d w c with ha | ha <;> simp [ha]
      · simp [advance_refs, hrefs]
  | put hpc => exact h.mk_set ⟨by simp, by simp, by simp [hsome (by simp [hpc])]⟩ rfl h.clones
  | setFail hpc => exact absurd hpc hold.1
  | cleanUp hpc => exact absurd hpc hold.2.1

theorem reader_healthy {act : ReadAct} (h : Healthy s) (hk : s.clones[k]? = some c)
    (hw : s.writes[c.tp]? = some w) (hst : ReadStep d k c w s act t) (hf : NoFault (.reader k act : Action β)) :
    Healthy t := by
  have hold := h.clones c (List.mem_of_getElem? hk)
  have hset : ∀ c' : Clone β, Stage.healthy c'.stage = true →
      ∀ b ∈ s.clones.set k c', Stage.healthy b.stage = true := by
    intro c' hc' b hb
    rcases List.mem_or_eq_of_mem_set hb with hb | rfl
    · exact h.clones b hb
    · exact hc'
  cases hst with
  | completed => exact ⟨h.calls, hset _ rfl⟩
  | failed => cases hf
  | append | receive => exact ⟨h.calls, hset _ rfl⟩
  | put => exact h.mk_set (Write.healthy_put (h.calls w (List.mem_of_getElem? hw))) rfl (hset _ rfl)
  | setFail hc | drop hc =>
      rw [hc] at hold
      cases hold

theorem Healthy.step (h : Healthy s) (hst : Step d s a t) (hf : NoFault a) : Healthy t := by
  rcases step_kinds hst with ⟨sector, sectors, _, _, _, rfl⟩ | ⟨i, w, act, rfl, hw, ht⟩ |
    ⟨k, c, w, act, rfl, hk, hw, hr⟩ | ⟨i, rest, content, w, _, ho, _, rfl⟩ | ⟨_, hfr⟩
  · refine ⟨fun w hw => ?_, h.clones⟩
    rcases List.mem_append.mp hw with hw | hw
    · exact h.calls w hw
    · rw [List.mem_singleton.mp hw]
      exact ⟨by simp [newWrite], by simp [newWrite], fun _ => rfl⟩
  · exact tracer_healthy h hw ht hf
  · exact reader_healthy h hk hw hr hf
  · exact ⟨h.calls, h.clones⟩
  · exact ⟨hfr.writes ▸ h.calls, hfr.clones ▸ h.clones⟩

/-- Nothing is left but to drop references. -/
structure Drained (s : State β) : Prop where
  calls : ∀ w ∈ s.writes, w.pc = .put ∨ w.pc = .returned
  clones : ∀ c ∈ s.clones, c.stage = .received ∨ c.stage = .done

/-- Nothing is left at all. -/
structure Gone (s : State β) : Prop where
  calls : ∀ w ∈ s.writes, w.pc = .returned
  clones : ∀ c ∈ s.clones, c.stage = .done
  submitted : ∀ i, i < s.writes.length → i ∈ s.submitted

structure SameFlags (s t : State β) : Prop where
  tracing : t.tracing = s.tracing
  cowStop : t.cowStop = s.cowStop
  cowExited : t.cowExited = s.cowExited
  mrfStop : t.mrfStop = s.mrfStop
  mrfExited : t.mrfExited = s.mrfExited
  freed : t.freed = s.freed

/-- The order of the teardown, and what each thread leaves behind when it exits. -/
structure Down (s : State β) : Prop where
  sound : Sound s
  counters : Counters s
  healthy : Healthy s
  stopped : s.cowStop = true → s.tracing = false
  drained : s.cowExited = true → s.tracing = false ∧ Drained s
  mrfStopped : s.mrfStop = true → s.cowExited = true
  gone : s.mrfExited = true → s.cowExited = true ∧ Gone s
  freed : s.freed = true → s.mrfExited = true

theorem Down.same (h : Down s) (hs : Sound t) (hc : Counters t) (hh : Healthy t) (hf : SameFlags s t)
    (hd : Drained s → Drained t) (hg : Drained s → Gone s → Gone t) : Down t where
  sound := hs
  counters := hc
  healthy := hh
  stopped he := by rw [hf.tracing]; exact h.stopped (hf.cowStop ▸ he)
  drained he := by
    rw [hf.tracing]
    exact (h.drained (hf.cowExited ▸ he)).imp_right hd
  mrfStopped he := by rw [hf.cowExited]; exact h.mrfStopped (hf.mrfStop ▸ he)
  gone he := by
    rw [hf.cowExited]
    obtain ⟨hex, hgone⟩ := h.gone (hf.mrfExited ▸ he)
    exact ⟨hex, hg (h.drained hex).2 hgone⟩
  freed he := by rw [hf.mrfExited]; exact h.freed (hf.freed ▸ he)

theorem tracer_flags {act : TraceAct} (hst : TraceStep d i w s act t) : SameFlags s t := by
  cases hst with
  | cleanUp =>
      unfold freeNewBio
      split <;> exact ⟨rfl, rfl, rfl, rfl, rfl, rfl⟩
  | _ => exact ⟨rfl, rfl, rfl, rfl, rfl, rfl⟩

theorem reader_flags {act : ReadAct} (hst : ReadStep d k c w s act t) : SameFlags s t := by
  cases hst <;> exact ⟨rfl, rfl, rfl, rfl, rfl, rfl⟩

theorem cow_flags {act : CowAct} (hst : CowStep d s act t) (hact : act ≠ .exit) : SameFlags s t := by
  cases hst with
  | write handled bio c hw hc =>
      simp only [processed, bioFreeClone, snapHandleWriteBio]
      split
      · exact ⟨rfl, rfl, rfl, rfl, rfl, rfl⟩
      · split <;> exact ⟨rfl, rfl, rfl, rfl, rfl, rfl⟩
  | drop bio rest hw hq hf =>
      simp only [take, hf]
      split <;> exact ⟨rfl, rfl, rfl, rfl, rfl, rfl⟩
  | exit => exact absurd rfl hact
  | _ => exact ⟨rfl, rfl, rfl, rfl, rfl, rfl⟩

/-- A call whose clones are all submitted can only put its reference. -/
theorem Drained.tracer {act : TraceAct} (h : Drained s) (hw : s.writes[i]? = some w)
    (hst : TraceStep d i w s act t) : w.pc = .put ∧ Drained t := by
  have hold := h.calls w (List.mem_of_getElem? hw)
  cases hst with
  | put hpc =>
      refine ⟨hpc, fun v hv => ?_, h.clones⟩
      rcases List.mem_or_eq_of_mem_set hv with hv | rfl
      · exact h.calls v hv
      · exact .inr rfl
  | allocTp hpc | noTp hpc | noBio hpc | noPage _ hpc | made _ _ hpc | addMap _ _ hpc | noMap hpc | count _ hpc
  | submit _ _ hpc | setFail hpc | cleanUp hpc => rcases hold with h | h <;> (rw [hpc] at h; cases h)

/-- A handler that has counted its clone can only put its reference. -/
theorem Drained.reader {act : ReadAct} (h : Drained s) (hk : s.clones[k]? = some c)
    (hw : s.writes[c.tp]? = some w) (hst : ReadStep d k c w s act t) : c.stage = .received ∧ Drained t := by
  have hold := h.clones c (List.mem_of_getElem? hk)
  cases hst with
  | put hc =>
      refine ⟨hc, fun v hv => ?_, fun b hb => ?_⟩
      · rcases List.mem_or_eq_of_mem_set hv with hv | rfl
        · exact h.calls v hv
        · exact h.calls w (List.mem_of_getElem? hw)
      · rcases List.mem_or_eq_of_mem_set hb with hb | rfl
        · exact h.clones b hb
        · exact .inr rfl
  | completed _ hc | failed _ hc | append hc | receive hc | setFail hc | drop hc =>
      rcases hold with h | h <;> (rw [hc] at h; cases h)

/-- With the counters equal and no clone still to be submitted, every clone was received. -/
theorem drained_of_counters (h : Down s) (hw : ∀ w ∈ s.writes, w.pc = .put ∨ w.pc = .returned)
    (hcnt : s.submittedCnt = s.receivedCnt) : Drained s where
  calls := hw
  clones c hc := by
    have hzero : s.clones.countP (Stage.unreceived ·.stage) = 0 := by
      have := h.counters
      rw [Counters, hcnt] at this
      omega
    have hun := List.countP_eq_zero.mp hzero c hc
    have hhealthy := h.healthy.clones c hc
    obtain ⟨k, hk⟩ := List.mem_iff_getElem?.mp hc
    obtain ⟨w, hwt, hown⟩ := h.sound.clones k c hk
    have hnew : c.stage ≠ .created := by
      intro hs
      have hpc := (hown.2 (by rw [hs]; rfl)).2
      rcases hw w (List.mem_of_getElem? hwt) with h | h <;> (rw [h] at hpc; cases hpc)
    cases hs : c.stage <;> simp_all [Stage.unreceived, Stage.healthy]

/-- With no reference left every original bio was released, and `snap_mrf_thread` submitted it. -/
theorem gone_of_drained (h : Down s) (hd : Drained s) (hw : ∀ w ∈ s.writes, w.pc ≠ .put)
    (hc : ∀ c ∈ s.clones, c.stage ≠ .received) (ho : s.origBios = []) : Gone s where
  calls w hm := (hd.calls w hm).resolve_left (hw w hm)
  clones c hm := (hd.clones c hm).resolve_left (hc c hm)
  submitted i hi := by
    obtain ⟨w, hwi⟩ : ∃ w, s.writes[i]? = some w := ⟨_, List.getElem?_eq_getElem hi⟩
    have hm := List.mem_of_getElem? hwi
    have hpc := (hd.calls w hm).resolve_left (hw w hm)
    have hcall := h.sound.calls i w hwi
    have hsome : w.refs ≠ none := fun hr => by
      have := (h.healthy.calls w hm).2.2 hr
      rw [hpc] at this
      cases this
    obtain ⟨n, hn⟩ := Option.ne_none_iff_exists'.mp hsome
    have hzero : s.clones.countP (·.holdsRef i) = 0 := by
      rw [List.countP_eq_zero]
      intro c hcm hh
      rw [Clone.holdsRef, (hd.clones c hcm).resolve_left (hc c hcm), Bool.and_eq_true] at hh
      cases hh.2
    have hn0 := hcall.refs n hn
    rw [hpc, hzero] at hn0
    have hrel : releases s i = 1 := by
      rw [hcall.released, hn, hn0]
      rfl
    rw [releases, ho, List.append_nil] at hrel
    exact List.count_pos_iff.mp (by omega)

theorem Gone.of_submitted (h : Gone s) (hw : t.writes = s.writes) (hc : t.clones = s.clones)
    (hs : ∀ i, i ∈ s.submitted → i ∈ t.submitted) : Gone t where
  calls := hw ▸ h.calls
  clones := hc ▸ h.clones
  submitted i hi := hs i (h.submitted i (hw ▸ hi))

theorem Down.step (h : Down s) (hst : Step d s a t) (hf : NoFault a) (hx : CleanExit s a) : Down t := by
  have hs := h.sound.step hst
  have hc := h.counters.step h.sound hst
  have hh := h.healthy.step hst hf
  cases hst with
  | trace sector sectors ht =>
      have hcow : s.cowExited ≠ true := fun he => by
        have := (h.drained he).1
        rw [ht] at this
        cases this
      exact
        { sound := hs, counters := hc, healthy := hh, stopped := h.stopped, mrfStopped := h.mrfStopped, freed := h.freed
          drained := fun he => absurd he hcow
          gone := fun he => absurd (h.gone he).1 hcow }
  | tracer i w act _ hw ht =>
      refine h.same hs hc hh (tracer_flags ht) (fun hd => (hd.tracer hw ht).2) fun hd hg => ?_
      have hpc := (hd.tracer hw ht).1
      rw [hg.calls w (List.mem_of_getElem? hw)] at hpc
      cases hpc
  | reader k c w act _ hk hw hr =>
      refine h.same hs hc hh (reader_flags hr) (fun hd => (hd.reader hk hw hr).2) fun hd hg => ?_
      have hst := (hd.reader hk hw hr).1
      rw [hg.clones c (List.mem_of_getElem? hk)] at hst
      cases hst
  | cow act _ ht =>
      have hfr := cow_frame ht
      by_cases hact : act = .exit
      · subst hact
        cases ht with
        | exit hw he hcs hq hn =>
            have hd := drained_of_counters h hx hn
            exact
              { sound := hs, counters := hc, healthy := hh, stopped := h.stopped, freed := h.freed
                drained := fun _ => ⟨h.stopped hcs, hd.calls, hd.clones⟩
                mrfStopped := fun _ => rfl
                gone := fun hg => ⟨rfl, (h.gone hg).2.of_submitted rfl rfl fun _ => id⟩ }
        | error _ _ _ hor => rcases hor with hor | hor | hor <;> cases hor
      · refine h.same hs hc hh (cow_flags ht hact) (fun hd => ?_) fun _ hg => ?_
        · exact ⟨hfr.writes ▸ hd.calls, hfr.clones ▸ hd.clones⟩
        · exact hg.of_submitted hfr.writes hfr.clones fun i hi => hfr.submitted ▸ hi
  | mrfSubmit content i rest w he ho hw =>
      refine h.same hs hc hh ⟨rfl, rfl, rfl, rfl, rfl, rfl⟩ (fun hd => ⟨hd.calls, hd.clones⟩) fun _ hg => ?_
      exact hg.of_submitted rfl rfl fun j hj => List.mem_append_left _ hj
  | mrfExit hm ho =>
      have hcow := h.mrfStopped hm
      have hd := (h.drained hcow).2
      have hg := gone_of_drained h hd hx.1 hx.2 ho
      exact
        { sound := hs, counters := hc, healthy := hh, stopped := h.stopped, mrfStopped := h.mrfStopped
          drained := fun he => ⟨(h.drained he).1, hd.calls, hd.clones⟩
          gone := fun _ => ⟨hcow, hg.of_submitted rfl rfl fun _ => id⟩
          freed := fun _ => rfl }
  | stopTracing =>
      exact
        { sound := hs, counters := hc, healthy := hh, stopped := fun _ => rfl, mrfStopped := h.mrfStopped, freed := h.freed
          drained := fun he => ⟨rfl, (h.drained he).2.calls, (h.drained he).2.clones⟩
          gone := fun he => ⟨(h.gone he).1, (h.gone he).2.of_submitted rfl rfl fun _ => id⟩ }
  | stopCow ht =>
      exact
        { sound := hs, counters := hc, healthy := hh, stopped := fun _ => ht, mrfStopped := h.mrfStopped, freed := h.freed
          drained := fun he => ⟨ht, (h.drained he).2.calls, (h.drained he).2.clones⟩
          gone := fun he => ⟨(h.gone he).1, (h.gone he).2.of_submitted rfl rfl fun _ => id⟩ }
  | stopMrf he =>
      exact
        { sound := hs, counters := hc, healthy := hh, stopped := h.stopped, mrfStopped := fun _ => he, freed := h.freed
          drained := fun he => ⟨(h.drained he).1, (h.drained he).2.calls, (h.drained he).2.clones⟩
          gone := fun he => ⟨(h.gone he).1, (h.gone he).2.of_submitted rfl rfl fun _ => id⟩ }
  | free hm =>
      exact
        { sound := hs, counters := hc, healthy := hh, stopped := h.stopped, mrfStopped := h.mrfStopped, freed := fun _ => hm
          drained := fun he => ⟨(h.drained he).1, (h.drained he).2.calls, (h.drained he).2.clones⟩
          gone := fun he => ⟨(h.gone he).1, (h.gone he).2.of_submitted rfl rfl fun _ => id⟩ }
  | direct | refused | snapRead | failure =>
      exact h.same hs hc hh ⟨rfl, rfl, rfl, rfl, rfl, rfl⟩ (fun hd => ⟨hd.calls, hd.clones⟩)
        fun _ hg => hg.of_submitted rfl rfl fun _ => id

theorem down_created : Down (State.created b₀) where
  sound := sound_created b₀
  counters := rfl
  healthy := ⟨fun _ hw => (List.not_mem_nil hw).elim, fun _ hc => (List.not_mem_nil hc).elim⟩
  stopped he := by cases he
  drained he := by cases he
  mrfStopped he := by cases he
  gone he := by cases he
  freed he := by cases he

theorem down_reach (h : Reach (Machine.step d) (fun s a => NoFault a ∧ CleanExit s a) (State.created b₀) s) : Down s :=
  h.invariant down_created fun _ _ _ hs hc hstep => hs.step (step_of hstep) hc.1 hc.2

/-- In a run without faults in which neither thread exits inside one of the two windows,
`snap_mrf_thread` has submitted every traced write before it exits, and no completion handler has a
step left once the device is freed. -/
theorem teardown_loses_nothing
    (h : Reach (step d) (fun s a => NoFault a ∧ CleanExit s a) (State.created b₀) s) :
    (s.mrfExited = true → ∀ i, i < s.writes.length → i ∈ s.submitted) ∧
    (s.freed = true → ∀ k act, step d s (.reader k act) = none) := by
  have hd := down_reach h
  refine ⟨fun he => (hd.gone he).2.submitted, fun hf k act => ?_⟩
  have hg := (hd.gone (hd.freed hf)).2
  rw [Option.eq_none_iff_forall_ne_some]
  intro t ht
  cases step_of ht with
  | reader _ c w _ _ hk hw hr =>
      have hst := ((hd.drained (hd.gone (hd.freed hf)).1).2.reader hk hw hr).1
      rw [hg.clones c (List.mem_of_getElem? hk)] at hst
      cases hst

/-- The cow thread handles the clone, and the device is torn down. -/
def teardown : List (Action β) :=
  [.cow .look, .cow .dequeue, .cow (.write 1), .stopTracing, .stopCow, .cow .exit, .stopMrf, .mrfExit, .free]

def teardownRun : List (Action Unit) :=
  captureRun ++ .mrfSubmit (fun _ => ()) :: teardown

theorem teardownRun_after :
    run (Machine.step disk) (State.created fun _ => ()) teardownRun = some (after disk (fun _ => ()) teardownRun) :=
  rfl

theorem teardownRun_reach : Reach (Machine.step disk) (fun s a => NoFault a ∧ CleanExit s a)
    (State.created fun _ => ()) (after disk (fun _ => ()) teardownRun) :=
  Reach.run .init teardownRun_after (by decide)

theorem teardown_loses_nothing_example : 0 ∈ (after disk (fun _ => ()) teardownRun).submitted :=
  (teardown_loses_nothing teardownRun_reach).1 rfl 0 (by decide)

/-- The handler of the clone is stopped between its `sd_received_cnt` and its `tp_put`. -/
def lateRun : List (Action Unit) :=
  [.trace 0 8, .tracer 0 (.allocTp true), .tracer 0 (.makeClone (.made 1 1)), .tracer 0 (.addMap true),
    .tracer 0 .count, .tracer 0 .submit, .tracer 0 .put, .reader 0 (.complete true 0), .reader 0 .append,
    .reader 0 .receive] ++ teardown

theorem lateRun_after :
    run (Machine.step disk) (State.created fun _ => ()) lateRun = some (after disk (fun _ => ()) lateRun) := rfl

/-- The counter is bumped before the reference is dropped, so the original bio can be left behind, and
be queued on a device that is freed. -/
theorem teardown_loses_write : ¬ ∀ (d : Device) (b₀ : Nat → Unit) (s : State Unit),
    Reach (step d) (fun _ a => NoFault a) (State.created b₀) s →
    (s.mrfExited = true → ∀ i, i < s.writes.length → i ∈ s.submitted) ∧
    (s.freed = true → ∀ k act, step d s (.reader k act) = none) := by
  intro h
  have hr : Reach (Machine.step disk) (fun _ a => NoFault a) (State.created fun _ => ())
      (after disk (fun _ => ()) lateRun) := Reach.run .init lateRun_after (by decide)
  have hlost := (h disk _ _ hr).1 rfl 0 (by decide)
  exact absurd hlost (by decide)

end ElastioSnap.Snapshot.Teardown
