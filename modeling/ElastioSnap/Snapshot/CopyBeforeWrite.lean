import ElastioSnap.Snapshot.Capture

namespace ElastioSnap.Snapshot.CopyBeforeWrite

open Lib.Runs Lib.Table Queue Tracking TraceBio ReadComplete CowThread Machine Blocks Refs Capture

variable {β : Type} {d : Device} {b₀ : Nat → β} {s t : State β} {a : Action β} {i j k b : Nat} {w : Write}
  {c c' : Clone β}

/-- Some sectors hold what the base device held when the snapshot was created. -/
def Original (d : Device) (b₀ data : Nat → β) (b : Nat) : Prop :=
  ∀ o, o < d.sectorsPerBlock → data (d.sector b o) = b₀ (d.sector b o)

/-- A clone with the original content of the block was put on `sd_cow_bios`. -/
def Captured (d : Device) (b₀ : Nat → β) (s : State β) (b : Nat) : Prop :=
  ∃ (k : Nat) (c : Clone β), s.clones[k]? = some c ∧ c.stage.appended = true ∧ c.Covers d b ∧ Original d b₀ c.data b

theorem hasData_of_appended {stage : Stage} (h : stage.appended = true) : stage.hasData = true := by
  cases stage <;> first | rfl | cases h

theorem sent_of_hasData {stage : Stage} (h : stage.hasData = true) : stage.sent = true := by
  cases stage <;> first | rfl | cases h

theorem sent_of_appended {stage : Stage} (h : stage.appended = true) : stage.sent = true :=
  sent_of_hasData (hasData_of_appended h)

theorem Captured.kept (h : Captured d b₀ s b) (hk : Kept s t) : Captured d b₀ t b := by
  obtain ⟨k, c, hc, ha, hcov, ho⟩ := h
  obtain ⟨c', hc', hon⟩ := hk.clones k c hc (sent_of_appended ha)
  refine ⟨k, c', hc', hon.appended ha, hon.covers.mpr hcov, ?_⟩
  · rw [(hon.hasData (hasData_of_appended ha)).2]
    exact ho

/-- What the pages of a read clone hold was there before the step, or is read in it. -/
theorem data_origin (hst : Step d s a t) (hk : t.clones[k]? = some c') (hd : c'.stage.hasData = true) :
    (∃ c, s.clones[k]? = some c ∧ c.stage.hasData = true ∧ c'.data = c.data ∧ c'.sect = c.sect ∧
      c'.pages = c.pages) ∨ c'.data = s.base := by
  have old : ∀ {us : List (Clone β)}, us = s.clones → us[k]? = some c' →
      ∃ c, s.clones[k]? = some c ∧ c.stage.hasData = true ∧ c'.data = c.data ∧ c'.sect = c.sect ∧ c'.pages = c.pages :=
    fun hu hk => ⟨c', hu ▸ hk, hd, rfl, rfl, rfl⟩
  have mod : ∀ {us : List (Clone β)} {k' : Nat} {stage : Stage},
      us = s.clones.modify k' (fun c => { c with stage := stage }) → stage.hasData = false → us[k]? = some c' →
      ∃ c, s.clones[k]? = some c ∧ c.stage.hasData = true ∧ c'.data = c.data ∧ c'.sect = c.sect ∧ c'.pages = c.pages := by
    intro us k' stage hu hs hk
    rw [hu] at hk
    rcases modify_some hk with ⟨_, c, _, rfl⟩ | ⟨_, hk⟩
    · rw [hs] at hd
      cases hd
    · exact old rfl hk
  rcases step_kinds hst with ⟨sector, sectors, _, _, _, rfl⟩ | ⟨i, w, act, _, hw, ht⟩ |
    ⟨k', c, w, act, _, hk', hw, hr⟩ | ⟨i, rest, content, w, _, _, _, rfl⟩ | ⟨_, hf⟩
  · exact .inl (old rfl hk)
  · left
    cases ht with
    | allocTp | noTp | noBio | addMap | noMap | put | setFail => exact old rfl hk
    | noPage | made =>
        rcases append_some hk with hk | ⟨_, rfl⟩
        · exact old rfl hk
        · cases hd
    | count | submit => exact mod rfl rfl hk
    | cleanUp =>
        unfold freeNewBio at hk
        split at hk
        · exact mod rfl rfl hk
        · exact old rfl hk
  · have hset : ∀ {b : Clone β}, (s.clones.set k' b)[k]? = some c' →
        (k' = k ∧ c' = b) ∨ ∃ c, s.clones[k]? = some c ∧ c.stage.hasData = true ∧ c'.data = c.data ∧
          c'.sect = c.sect ∧ c'.pages = c.pages :=
      fun hk => (set_some hk).imp id fun h => old rfl h.2
    cases hr with
    | completed left hc =>
        rcases hset hk with ⟨rfl, rfl⟩ | h
        · exact .inr rfl
        · exact .inl h
    | failed | setFail | drop =>
        rcases hset hk with ⟨rfl, rfl⟩ | h
        · cases hd
        · exact .inl h
    | append hc | receive hc | put hc =>
        rcases hset hk with ⟨rfl, rfl⟩ | h
        · exact .inl ⟨c, hk', by rw [hc]; rfl, rfl, rfl, rfl⟩
        · exact .inl h
  · exact .inl (old rfl hk)
  · exact .inl (old hf.clones hk)

/-- A block of which the base device, or the pages of a clone, hold something else than at the
creation of the snapshot has been captured. -/
structure Content (d : Device) (b₀ : Nat → β) (s : State β) : Prop where
  base : ∀ b, d.owned b = false → Original d b₀ s.base b ∨ Captured d b₀ s b
  clones : ∀ (k : Nat) (c : Clone β) (b : Nat), s.clones[k]? = some c → c.stage.hasData = true → c.Covers d b →
    d.owned b = false → Original d b₀ c.data b ∨ Captured d b₀ s b

theorem ownBlocks_sector {sector sectors : Nat} (h : ownBlocks d sector sectors = true)
    (ho : d.Overlaps sector sectors b) : d.owned b = true := by
  obtain ⟨t, hlo, hhi, rfl⟩ := ho
  rw [ownBlocks, Bool.and_eq_true, List.all_eq_true] at h
  exact h.2 t (List.mem_range'_1.mpr ⟨hlo, hhi⟩)

/-- A write that is submitted while the device has not failed covers captured blocks only. -/
theorem Content.overlapped (h : Content d b₀ s) (hc : Captures d s) (hf : s.fail = false)
    (hw : s.writes[i]? = some w) (hi : i ∈ s.submitted ++ s.origBios) (ho : d.Overlaps w.sector w.sectors b)
    (hb : d.owned b = false) : Captured d b₀ s b := by
  rcases hc.released hw hi with hfail | hcov
  · rw [hf] at hfail
    cases hfail
  · obtain ⟨k, c, hk, _, ha, hcv⟩ := hcov b ho
    rcases h.clones k c b hk (hasData_of_appended ha) hcv hb with horig | hcap
    · exact ⟨k, c, hk, ha, hcv, horig⟩
    · exact hcap

theorem Content.step (h : Content d b₀ s) (hc : Captures d s) (hst : Step d s a t) (hf : s.fail = false)
    (htr : s.tracing = true) : Content d b₀ t := by
  have hk := step_kept hc.sound hst
  have hkeep : ∀ b, d.owned b = false → Original d b₀ s.base b ∨ Captured d b₀ t b :=
    fun b hb => (h.base b hb).imp_right (·.kept hk)
  constructor
  · intro b hb
    rcases step_base hst with hbase | ⟨i, w, content, hi, hw, hbase⟩ | ⟨sector, sectors, content, hbase, hown⟩
    · rw [hbase]
      exact hkeep b hb
    · by_cases ho : d.Overlaps w.sector w.sectors b
      · exact .inr ((h.overlapped hc hf hw (List.mem_append_right _ hi) ho hb).kept hk)
      · refine (hkeep b hb).imp_left fun horig o hlt => ?_
        rw [hbase, overwrite_other hlt ho]
        exact horig o hlt
    · have ho : ¬ d.Overlaps sector sectors b := by
        intro ho
        rcases hown with hfail | hoff | hown
        · rw [hf] at hfail
          cases hfail
        · rw [htr] at hoff
          cases hoff
        · rw [ownBlocks_sector hown ho] at hb
          cases hb
      refine (hkeep b hb).imp_left fun horig o hlt => ?_
      rw [hbase, overwrite_other hlt ho]
      exact horig o hlt
  · intro k c' b hk' hd hcv hb
    rcases data_origin hst hk' hd with ⟨c, hcs, hds, hdata, hsect, hpages⟩ | hdata
    · rw [hdata]
      refine (h.clones k c b hcs hds ?_ hb).imp_right (·.kept hk)
      rw [Clone.Covers, ← hsect, ← hpages]
      exact hcv
    · rw [hdata]
      exact hkeep b hb

theorem content_created : Content d b₀ (State.created b₀) where
  base _ _ := .inl fun _ _ => rfl
  clones k c b hk := by cases hk

/-- The invariant of copy before write. -/
structure Guarded (d : Device) (b₀ : Nat → β) (s : State β) : Prop where
  captures : Captures d s
  content : s.fail = false → s.tracing = true → Content d b₀ s

theorem Guarded.step (h : Guarded d b₀ s) (hst : Step d s a t) : Guarded d b₀ t where
  captures := h.captures.step hst
  content hf ht := by
    have hk := step_kept h.captures.sound hst
    have hfs : s.fail = false := by
      rw [Bool.eq_false_iff]
      intro hs
      rw [hk.fail hs] at hf
      cases hf
    have hts := step_tracing hst ht
    exact (h.content hfs hts).step h.captures hst hfs hts

theorem guarded_reach {C : State β → Action β → Prop} (h : Reach (Machine.step d) C (State.created b₀) s) :
    Guarded d b₀ s :=
  h.invariant ⟨captures_created b₀, fun _ _ => content_created⟩ fun _ _ _ hs _ hstep => hs.step (step_of hstep)

/-- In every state of every run a bio on `sd_orig_bios`, or already submitted, has all its blocks
captured or the device failed; and a submission changes no block of a snapshot that has not failed
without a clone of it on `sd_cow_bios`, with the content from the creation of the snapshot while the
device is traced. -/
theorem copy_before_write {C : State β → Action β → Prop} (h : Reach (step d) C (State.created b₀) s) :
    (∀ i w, s.writes[i]? = some w → i ∈ s.submitted ++ s.origBios → s.fail = true ∨
      ∀ b, d.Overlaps w.sector w.sectors b →
        ∃ (k : Nat) (c : Clone β), s.clones[k]? = some c ∧ c.tp = i ∧ c.stage.appended = true ∧ c.Covers d b) ∧
    ∀ content t, step d s (.mrfSubmit content) = some t → s.fail = false →
      ∀ b o, o < d.sectorsPerBlock → t.base (d.sector b o) ≠ s.base (d.sector b o) →
        (∃ (k : Nat) (c : Clone β), s.clones[k]? = some c ∧ c.stage.appended = true ∧ c.Covers d b) ∧
        (s.tracing = true → d.owned b = false → Captured d b₀ s b) := by
  have hg := guarded_reach h
  refine ⟨fun i w hw hi => hg.captures.released hw hi, ?_⟩
  intro content t hstep hf b o hlt hne
  cases step_of hstep with
  | mrfSubmit _ i rest w _ ho hw =>
      have hi : i ∈ s.submitted ++ s.origBios := List.mem_append_right _ (ho ▸ List.mem_cons_self)
      have hov : d.Overlaps w.sector w.sectors b := by
        by_contra hov
        exact hne (overwrite_other hlt hov)
      constructor
      · rcases hg.captures.released hw hi with hfail | hcov
        · rw [hf] at hfail
          cases hfail
        · obtain ⟨k, c, hk, _, ha, hcv⟩ := hcov b hov
          exact ⟨k, c, hk, ha, hcv⟩
      · intro ht hb
        exact (hg.content hf ht).overlapped hg.captures hf hw hi hov hb

theorem copy_before_write_example : Captured disk (fun _ => 0) (after disk (fun _ => 0) captureRun) 0 :=
  have h := copy_before_write (C := fun _ _ => True)
    (reach_of_run (captureRun_after (fun _ => 0)) fun _ _ => trivial)
  (h.2 (fun _ => 1) _ rfl rfl 0 0 (by decide) (by decide)).2 rfl rfl

end ElastioSnap.Snapshot.CopyBeforeWrite
