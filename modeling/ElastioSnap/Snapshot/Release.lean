import ElastioSnap.Snapshot.Refs

namespace ElastioSnap.Snapshot.Release

open Lib.Runs Lib.Table Queue Tracking TraceBio ReadComplete CowThread Machine Refs

variable {β : Type} {d : Device} {s t : State β} {a : Action β} {as : List (Action β)} {i j k : Nat}
  {w : Write} {c : Clone β}

/-- The allocation failures that leave a reference behind, or no tracing parameters at all. -/
def losesRef (i : Nat) : Action β → Bool
  | .tracer j (.allocTp false) => j == i
  | .tracer j (.makeClone (.noPage _)) => j == i
  | .tracer j (.addMap false) => j == i
  | _ => false

/-- The call of a write returned, and every clone it submitted went through its handler. -/
structure Completed (s : State β) (i : Nat) : Prop where
  returned : ∃ w, s.writes[i]? = some w ∧ w.pc = .returned
  clones : ∀ (k : Nat) (c : Clone β), s.clones[k]? = some c → c.tp = i → c.stage.inFlight = false

def Leaked (s : State β) (i : Nat) : Prop :=
  ∃ (k : Nat) (c : Clone β), s.clones[k]? = some c ∧ c.tp = i ∧ c.stage = .leaked

/-- What is left in the state of such a failure. -/
def Lost (s : State β) (i : Nat) (w : Write) : Prop :=
  (w.refs = none ∧ w.pc ≠ .allocTp) ∨ Leaked s i ∨ ((w.pc = .setFail ∨ w.pc = .cleanUp) ∧ w.newBio ≠ none)

theorem Leaked.apart (ha : Apart i s t) (hj : j ≠ i) : Leaked t j ↔ Leaked s j := by
  constructor
  · rintro ⟨k, c, hk, rfl, hs⟩
    exact ⟨k, c, (ha.clones k c hj).mp hk, rfl, hs⟩
  · rintro ⟨k, c, hk, rfl, hs⟩
    exact ⟨k, c, (ha.clones k c hj).mpr hk, rfl, hs⟩

theorem leaked_setClone {c' : Clone β} (hk : s.clones[k]? = some c) (hc : c.stage ≠ .leaked)
    (hc' : c'.stage ≠ .leaked) : Leaked (setClone s k c') i ↔ Leaked s i := by
  constructor
  · rintro ⟨k', b, hb, hi, hs⟩
    rcases set_some hb with ⟨rfl, rfl⟩ | ⟨_, hb⟩
    · exact absurd hs hc'
    · exact ⟨k', b, hb, hi, hs⟩
  · rintro ⟨k', b, hb, hi, hs⟩
    have hkk : k ≠ k' := by
      rintro rfl
      rw [hk] at hb
      cases hb
      exact hc hs
    exact ⟨k', b, (set_other hkk).trans hb, hi, hs⟩

theorem leaked_append {cs : List (Clone β)} (hcs : cs = s.clones ++ [c]) (hc : c.stage ≠ .leaked) :
    Leaked { s with clones := cs } i ↔ Leaked s i := by
  subst hcs
  constructor
  · rintro ⟨k, b, hb, hi, hs⟩
    rcases append_some hb with hb | ⟨_, rfl⟩
    · exact ⟨k, b, hb, hi, hs⟩
    · exact absurd hs hc
  · rintro ⟨k, b, hb, hi, hs⟩
    exact ⟨k, b, append_old hb, hi, hs⟩

/-- With a nonzero count of references no original bio is released, and with none held it was. -/
theorem releases_completed (h : Sound s) (hc : Completed s i) (hw : s.writes[i]? = some w) :
    releases s i = 1 ↔ ¬ Lost s i w := by
  obtain ⟨w', hw', hpc⟩ := hc.returned
  rw [hw] at hw'
  cases hw'
  have hcall := h.calls i w hw
  have hlost : Lost s i w ↔ w.refs = none ∨ Leaked s i := by
    simp [Lost, hpc]
  rw [hcall.released, hlost]
  cases hr : w.refs with
  | none => simp
  | some n =>
      have hn := hcall.refs n hr
      rw [hpc] at hn
      have hleak : s.clones.countP (·.holdsRef i) = 0 ↔ ¬ Leaked s i := by
        rw [List.countP_eq_zero]
        constructor
        · rintro hz ⟨k, c, hk, hi, hs⟩
          refine hz c (List.mem_of_getElem? hk) ?_
          rw [Clone.holdsRef, hi, hs, beq_self_eq_true]
          rfl
        · intro hno c hmem hh
          obtain ⟨k, hk⟩ := List.mem_iff_getElem?.mp hmem
          rw [Clone.holdsRef, Bool.and_eq_true, beq_iff_eq] at hh
          have hfl := hc.clones k c hk hh.1
          have hnew : c.stage.isNew ≠ true := by
            intro hnew
            have hown := ((h.owned hw hk hh.1).2 hnew).2
            rw [hpc] at hown
            cases hown
          refine hno ⟨k, c, hk, hh.1, ?_⟩
          cases hs : c.stage <;> simp_all [Stage.inFlight, Stage.isNew, Stage.holdsRef]
      have hzero : n = 0 ↔ s.clones.countP (·.holdsRef i) = 0 := by
        rw [hn]
        simp
      have hsome : some n = some 0 ↔ ¬ Leaked s i := by rw [Option.some.injEq, hzero, hleak]
      by_cases hl : Leaked s i
      · simp [hsome, hl]
      · simp [hsome, hl]

def Pc.failing : Pc → Bool
  | .setFail | .cleanUp => true
  | _ => false

theorem lost_live (hsome : w.refs ≠ none) (hpc : Pc.failing w.pc = false) : Lost s i w ↔ Leaked s i := by
  have hpc' : ¬ (w.pc = .setFail ∨ w.pc = .cleanUp) := by
    rintro (h | h) <;> (rw [h] at hpc; cases hpc)
  simp [Lost, hsome, hpc']

theorem lost_failing (hpc : w.pc = .setFail ∨ w.pc = .cleanUp) :
    Lost s i w ↔ w.refs = none ∨ Leaked s i ∨ w.newBio ≠ none := by
  have hstart : w.pc ≠ .allocTp := by rcases hpc with hpc | hpc <;> simp [hpc]
  simp [Lost, hpc, hstart]

theorem leaked_cleanUp (h : Sound s) (hw : s.writes[i]? = some w) (hpc : w.pc = .cleanUp) :
    Leaked (freeNewBio w s) i ↔ Leaked s i ∨ w.newBio ≠ none := by
  have hb := (h.calls i w hw).newBio
  unfold NewBio at hb
  rw [hpc] at hb
  obtain hk | ⟨k, hk⟩ := Option.eq_none_or_eq_some w.newBio
  · simp [freeNewBio, hk]
  · obtain ⟨c, hc, hi, hs⟩ := hb k hk
    have hfree : freeNewBio w s = bioFreeClone (setClone s k { c with stage := .leaked }) k := by
      simp only [freeNewBio, hk, setStage_eq _ hc]
    have hleak : Leaked (freeNewBio w s) i := by
      rw [hfree]
      exact ⟨k, _, set_self hc, hi, rfl⟩
    exact iff_of_true hleak (.inr (by rw [hk]; exact Option.some_ne_none k))

/-- A step in the loop that loses no reference. -/
theorem lost_loop {w' : Write} {act : TraceAct} (hc : Call s i w) (hpc : Pc.inLoop w.pc = true)
    (hsome : w.refs ≠ none → w'.refs ≠ none) (hpc' : Pc.failing w'.pc = false) (hl : Leaked t i ↔ Leaked s i)
    (hact : losesRef i (.tracer i act : Action β) = false) :
    Lost t i w' ↔ Lost s i w ∨ losesRef i (.tracer i act : Action β) = true := by
  have hrefs := hc.hasTp hpc
  have hfail : Pc.failing w.pc = false := by cases h : w.pc <;> (rw [h] at hpc; first | rfl | cases hpc)
  rw [lost_live (hsome hrefs) hpc', lost_live hrefs hfail, hact, hl]
  simp

/-- A step of a call leaves a reference behind just when its action says so. -/
theorem lost_tracer {act : TraceAct} (h : Sound s) (hw : s.writes[i]? = some w) (hst : TraceStep d i w s act t) :
    ∃ w', t.writes[i]? = some w' ∧
      (Lost t i w' ↔ Lost s i w ∨ losesRef i (.tracer i act : Action β) = true) := by
  have hc := h.calls i w hw
  have hb := hc.newBio
  unfold NewBio at hb
  cases hst with
  | allocTp hpc =>
      refine ⟨_, set_self hw, ?_⟩
      have hno : ¬ Leaked s i := by
        rintro ⟨k, c, hk, hi, _⟩
        exact (h.owned hw hk hi).1 (hc.start hpc)
      rw [lost_live (by simp) rfl]
      refine iff_of_false hno ?_
      simp [Lost, losesRef, hpc, hno]
  | noTp hpc =>
      refine ⟨_, set_self hw, ?_⟩
      rw [lost_failing (.inl rfl)]
      exact iff_of_true (.inl (hc.start hpc)) (.inr (by simp [losesRef]))
  | noBio hpc =>
      refine ⟨_, set_self hw, ?_⟩
      have hsome := hc.hasTp (by rw [hpc]; rfl)
      rw [lost_failing (.inl rfl), lost_live hsome (by rw [hpc]; rfl)]
      simp [losesRef, hsome]
      exact Iff.rfl
  | noPage addr hpc =>
      refine ⟨_, set_self hw, iff_of_true (.inr (.inl ?_)) (.inr (by simp [losesRef]))⟩
      exact ⟨s.clones.length, _, List.getElem?_concat_length, rfl, rfl⟩
  | made addr n hpc _ hn hle =>
      refine ⟨_, set_self hw, lost_loop hc (by rw [hpc]; rfl) ?_ rfl ?_ rfl⟩
      · intro hsome
        simpa [tpGet] using hsome
      · exact leaked_append (s := s.setWrite i _) rfl (by simp)
  | addMap k c hpc hk hcl => exact ⟨_, set_self hw, lost_loop hc (by rw [hpc]; rfl) id rfl Iff.rfl rfl⟩
  | noMap hpc =>
      refine ⟨_, set_self hw, ?_⟩
      rw [hpc] at hb
      obtain ⟨k, c, hk, _⟩ := hb
      rw [lost_failing (.inl rfl)]
      exact iff_of_true (.inr (.inr (by simp [hk]))) (.inr (by simp [losesRef]))
  | count k hpc hk =>
      rw [hpc] at hb
      obtain ⟨k', c, hk', hcl, _, hs, _⟩ := hb
      rw [hk] at hk'
      cases hk'
      refine ⟨_, set_self hw, lost_loop hc (by rw [hpc]; rfl) id rfl ?_ rfl⟩
      rw [setStage_eq (s := s.setWrite i { w with pc := .submit }) _ hcl]
      exact leaked_setClone (s := s.setWrite i { w with pc := .submit }) hcl (by simp [hs]) (by simp)
  | submit k c hpc hk hcl =>
      rw [hpc] at hb
      obtain ⟨k', c', hk', hcl', _, hs, _⟩ := hb
      rw [hk] at hk'
      cases hk'
      rw [hcl] at hcl'
      cases hcl'
      refine ⟨_, set_self hw, lost_loop hc (by rw [hpc]; rfl) (by rw [advance_refs]; exact id) ?_ ?_ rfl⟩
      · rcases advance_pc d w c with hadv | hadv <;> (rw [hadv]; rfl)
      · rw [setStage_eq (s := s.setWrite i (advance d w c)) _ hcl]
        exact leaked_setClone (s := s.setWrite i (advance d w c)) hcl (by simp [hs]) (by simp)
  | put hpc =>
      refine ⟨_, set_self hw, lost_loop hc (by rw [hpc]; rfl) ?_ rfl Iff.rfl rfl⟩
      exact fun hsome hnone => hsome (Option.map_eq_none_iff.mp hnone)
  | setFail hpc =>
      refine ⟨_, set_self hw, ?_⟩
      rw [lost_failing (.inr rfl), lost_failing (.inl hpc)]
      simp [losesRef]
      exact Iff.rfl
  | cleanUp hpc =>
      refine ⟨_, set_self (freeNewBio_writes ▸ hw), ?_⟩
      have hl : Leaked (tpPut i { w with pc := .returned } (freeNewBio w s)) i ↔ Leaked s i ∨ w.newBio ≠ none :=
        leaked_cleanUp h hw hpc
      rw [lost_failing (.inr hpc)]
      simp [Lost, losesRef, hl]

theorem lost_reader {act : ReadAct} (hk : s.clones[k]? = some c) (hw : s.writes[c.tp]? = some w)
    (hst : ReadStep d k c w s act t) : ∃ w', t.writes[c.tp]? = some w' ∧ (Lost t c.tp w' ↔ Lost s c.tp w) := by
  have hput : ∀ c' : Clone β, c.stage ≠ .leaked → c'.stage ≠ .leaked →
      (Lost (tpPut c.tp w (setClone s k c')) c.tp { w with refs := w.refs.map (· - 1) } ↔ Lost s c.tp w) := by
    intro c' hc hc'
    have hl : Leaked (tpPut c.tp w (setClone s k c')) c.tp ↔ Leaked s c.tp := leaked_setClone hk hc hc'
    simp only [Lost, hl, Option.map_eq_none_iff]
  have hkeep : ∀ c' : Clone β, c.stage ≠ .leaked → c'.stage ≠ .leaked →
      (Lost (setClone s k c') c.tp w ↔ Lost s c.tp w) := by
    intro c' hc hc'
    simp only [Lost, leaked_setClone hk hc hc']
  cases hst with
  | completed left hc => exact ⟨w, hw, hkeep _ (by simp [hc]) (by simp)⟩
  | failed left hc => exact ⟨w, hw, hkeep _ (by simp [hc]) (by simp)⟩
  | append hc => exact ⟨w, hw, hkeep { c with stage := .queued } (by simp [hc]) (by simp)⟩
  | receive hc => exact ⟨w, hw, hkeep { c with stage := .received } (by simp [hc]) (by simp)⟩
  | put hc => exact ⟨_, set_self hw, hput _ (by simp [hc]) (by simp)⟩
  | setFail hc => exact ⟨w, hw, hkeep { c with stage := .failing } (by simp [hc]) (by simp)⟩
  | drop hc => exact ⟨_, set_self hw, hput { c with stage := .dropped } (by simp [hc]) (by simp)⟩

/-- The state of a run shows for each write whether one of its allocations lost a reference. -/
structure Shows (as : List (Action β)) (s : State β) : Prop where
  sound : Sound s
  calls : ∀ i w, s.writes[i]? = some w → (Lost s i w ↔ ∃ a ∈ as, losesRef i a = true)
  unknown : ∀ i, s.writes.length ≤ i → ∀ a ∈ as, losesRef i a = false

theorem exists_snoc {i : Nat} : (∃ b ∈ as ++ [a], losesRef i b = true) ↔
    (∃ b ∈ as, losesRef i b = true) ∨ losesRef i a = true := by
  simp [or_and_right, exists_or]

theorem losesRef_other {act : TraceAct} (hj : j ≠ i) : losesRef j (.tracer i act : Action β) = false := by
  have hij : (i == j) = false := by simpa using hj.symm
  unfold losesRef
  split <;> simp_all

/-- A step for one write, which shows what it lost. -/
theorem Shows.apart {i : Nat} {w w' : Write} (h : Shows as s) (ha : Apart i s t) (hs : Sound t)
    (hw : s.writes[i]? = some w) (hw' : t.writes[i]? = some w')
    (hl : Lost t i w' ↔ Lost s i w ∨ losesRef i a = true) (hj : ∀ j, j ≠ i → losesRef j a = false) :
    Shows (as ++ [a]) t where
  sound := hs
  calls j v hv := by
    rw [exists_snoc]
    by_cases hji : j = i
    · subst hji
      rw [hw'] at hv
      cases hv
      rw [hl, h.calls j w hw]
    · rw [ha.writes j hji] at hv
      have hold := h.calls j v hv
      simp only [Lost, Leaked.apart ha hji] at hold ⊢
      rw [hold, hj j hji]
      simp
  unknown j hlen b hb := by
    rw [ha.length] at hlen
    rcases List.mem_append.mp hb with hb | hb
    · exact h.unknown j hlen b hb
    · rw [List.mem_singleton.mp hb]
      refine hj j ?_
      rintro rfl
      have := (List.getElem?_eq_some_iff.mp hw).1
      omega

theorem Shows.quiet (h : Shows as s) (hs : Sound t) (hw : t.writes = s.writes) (hc : t.clones = s.clones)
    (ha : ∀ i, losesRef i a = false) : Shows (as ++ [a]) t where
  sound := hs
  calls i w hi := by
    rw [hw] at hi
    rw [exists_snoc, ha i]
    have hold := h.calls i w hi
    simp only [Lost, Leaked, hc] at hold ⊢
    rw [hold]
    simp
  unknown i hi b hb := by
    rw [hw] at hi
    rcases List.mem_append.mp hb with hb | hb
    · exact h.unknown i hi b hb
    · rw [List.mem_singleton.mp hb]
      exact ha i

theorem losesRef_untraced (ha : ∀ i act, a ≠ .tracer i act) : losesRef i a = false := by
  unfold losesRef
  split
  · exact absurd rfl (ha _ _)
  · exact absurd rfl (ha _ _)
  · exact absurd rfl (ha _ _)
  · rfl

theorem Shows.trace (h : Shows as s) (sector sectors : Nat) :
    Shows (as ++ [.trace sector sectors]) { s with writes := s.writes ++ [newWrite d sector sectors] } where
  sound := h.sound.trace sector sectors
  calls i w hw := by
    rw [exists_snoc]
    rcases append_some hw with hw | ⟨rfl, rfl⟩
    · have hold := h.calls i w hw
      simp only [Lost, Leaked, losesRef] at hold ⊢
      rw [hold]
      simp
    · refine iff_of_false ?_ ?_
      · rintro (⟨_, hpc⟩ | ⟨k, c, hk, hi, _⟩ | ⟨hpc | hpc, _⟩)
        · exact hpc rfl
        · obtain ⟨w, hw, _⟩ := h.sound.clones k c hk
          have := (List.getElem?_eq_some_iff.mp hw).1
          omega
        · cases hpc
        · cases hpc
      · rintro (⟨b, hb, hl⟩ | hl)
        · rw [h.unknown _ (Nat.le_refl _) b hb] at hl
          cases hl
        · cases hl
  unknown i hi b hb := by
    rw [List.length_append] at hi
    rcases List.mem_append.mp hb with hb | hb
    · exact h.unknown i (Nat.le_of_add_right_le hi) b hb
    · rw [List.mem_singleton.mp hb]
      rfl

theorem Shows.step (h : Shows as s) (hst : Step d s a t) : Shows (as ++ [a]) t := by
  have hs := h.sound.step hst
  rcases step_kinds hst with ⟨sector, sectors, rfl, _, _, rfl⟩ | ⟨i, w, act, rfl, hw, ht⟩ |
    ⟨k, c, w, act, rfl, hk, hw, hr⟩ | ⟨i, rest, content, w, rfl, ho, _, rfl⟩ | ⟨ha, hf⟩
  · exact h.trace sector sectors
  · obtain ⟨w', hw', hl⟩ := lost_tracer h.sound hw ht
    exact h.apart (tracer_apart h.sound hw ht) hs hw hw' hl fun j hj => losesRef_other hj
  · obtain ⟨w', hw', hl⟩ := lost_reader hk hw hr
    exact h.apart (reader_apart hk hr) hs hw hw' (by simp [hl, losesRef]) fun _ _ => rfl
  · exact h.quiet hs rfl rfl fun _ => rfl
  · exact h.quiet hs hf.writes hf.clones fun _ => losesRef_untraced ha

theorem shows_run {b : Nat → β} (h : run (Machine.step d) (State.created b) as = some s) : Shows as s := by
  refine run_invariant (I := Shows) ⟨sound_created b, ?_, ?_⟩ (fun _ _ _ _ hi hstep => hi.step (step_of hstep)) h
  · intro i w hw
    cases hw
  · intro i _ a ha
    cases ha

/-- Once a call returned and its clones went through their handlers, the original bio was put on
`sd_orig_bios` exactly once just when no allocation after the first bio of a clone failed, and the
tracing parameters were there. -/
theorem original_released_once_iff {b : Nat → β} (hrun : run (step d) (State.created b) as = some s)
    (hc : Completed s i) : releases s i = 1 ↔ ∀ a ∈ as, losesRef i a = false := by
  have hs := shows_run hrun
  obtain ⟨w, hw, _⟩ := hc.returned
  rw [releases_completed hs.sound hc hw, hs.calls i w hw]
  simp

theorem captureRun_completed : Completed (after disk (fun _ => ()) captureRun) 0 where
  returned := ⟨_, rfl, rfl⟩
  clones k c hk _ := by
    cases k with
    | zero =>
        cases hk
        rfl
    | succ k => cases hk

theorem original_released_once_iff_example : releases (after disk (fun _ => ()) captureRun) 0 = 1 :=
  (original_released_once_iff (captureRun_after _) captureRun_completed).mpr (by decide)

/-- With no memory for the tracing parameters the original bio is never put on `sd_orig_bios`. -/
theorem original_lost : ¬ ∀ (d : Device) (b : Nat → Unit) (as : List (Action Unit)) (s : State Unit) (i : Nat),
    run (step d) (State.created b) as = some s → Completed s i → releases s i = 1 := by
  intro h
  have hlost := h disk (fun _ => ()) [.trace 0 8, .tracer 0 (.allocTp false), .tracer 0 .setFail, .tracer 0 .cleanUp]
    _ 0 rfl ⟨⟨_, rfl, rfl⟩, fun k c hk => nomatch hk⟩
  exact absurd hlost (by decide)

end ElastioSnap.Snapshot.Release
