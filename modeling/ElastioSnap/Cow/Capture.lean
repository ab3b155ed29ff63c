import ElastioSnap.Cow.Data
import ElastioSnap.Cow.Start

namespace ElastioSnap.Cow.Capture

open Lib.Bytes Lib.Outcome Manager FileIo Section Mapping Sealing Data Start

variable {w w' w'' : World} {block pos : UInt64} {buf : Nat → UInt8}

/-- A write of data that fails leaves the manager and all of the file but the place of the block. -/
theorem cowWriteData_failed : wp (cowWriteData 12 buf) w (fun _ _ => True)
    (fun _ w' => w' = { w with clock := w'.clock, file := w'.file } ∧
      Wrote w.file w'.file (w.cm.currPos.toNat * 4096 % 2 ^ 64) 4096) := by
  rw [cowWriteData, wp_bind, wp_get, cowBlockSize_four_kib]
  dsimp only
  generalize w.cm.currPos.toNat * 4096 % 2 ^ 64 = off
  rw [wp_ite]
  split
  · exact ⟨rfl, .refl _ _ _⟩
  · rw [wp_bind]
    refine wp_mono (fileWrite_wp _ 4096 buf fun _ => ⟨by decide, by decide⟩) ?_ fun _ _ h => h.2
    intro _ w₁ _
    rw [wp_modifyCm]
    trivial

/-- No entry of the index lies where data is written. -/
theorem Same.of_data (hwf : Wf w) (hp : Placed w) (hw : w' = { w with clock := w'.clock, file := w'.file })
    (hwrote : Wrote w.file w'.file (w.cm.currPos.toNat * 4096 % 2 ^ 64) 4096) :
    Wf w' ∧ ∀ p, p < 4096 * w.cm.totalSects → indexAt w' p = indexAt w p := by
  have hbelow := hp.above
  rw [hwf.dataOffset] at hbelow
  have hfits := hp.fits
  rw [Nat.mod_eq_of_lt (by omega)] at hwrote
  have hregion : ∀ p, 4096 ≤ p → p < 4096 + 32768 * w.cm.totalSects → w'.file.bytes p = w.file.bytes p :=
    fun p _ hp' => hwrote.outside p (.inl (by omega))
  have hcm : w'.cm = w.cm := by rw [hw]
  refine ⟨?_, fun p hp' => indexAt_congr hp' (by rw [hcm]) hregion⟩
  refine hwf.congr (by rw [hcm]) (by rw [hcm]) (by rw [hcm]) (by rw [hcm]) hwrote.size ?_
  rw [hcm]
  exact hwf.reach.imp_right fun h => h.trans hwrote.size

/-- A call that failed before it stored an entry, or after. -/
inductive Left (w w' : World) (block : UInt64) : Prop
  | untouched (index : ∀ p, p < 4096 * w.cm.totalSects → indexAt w' p = indexAt w p)
      (count : w'.cm.nrChangedBlocks = w.cm.nrChangedBlocks)
  | stored (free : indexAt w block.toNat = 0)
      (index : ∀ p, p < 4096 * w.cm.totalSects → indexAt w' p = if p = block.toNat then w.cm.currPos else indexAt w p)
      (count : w'.cm.nrChangedBlocks = if w.cm.version ≥ cowVersionChangedBlocks then w.cm.nrChangedBlocks + 1
        else w.cm.nrChangedBlocks)

theorem Left.of_same (h : Same w w') : Left w w' block := .untouched h.index (by rw [h.cm])

theorem Left.of_put {w₁ : World} (hsame : Same w w₁) (hblock : block.toNat < 4096 * w.cm.totalSects)
    (hfree : indexAt w block.toNat = 0) (h : Put w₁ w' block w₁.cm.currPos) : Left w w' block := by
  refine .stored hfree (fun p hp => ?_) ?_
  · rw [h.index p (by rw [hsame.totalSects]; exact hp), hsame.currPos, hsame.index p hp]
  · rw [h.cm]
    have hfree₁ : indexAt w₁ block.toNat = 0 := (hsame.index _ hblock).trans hfree
    simp only [hfree₁, and_true]
    rw [hsame.cm]

theorem cowWriteCurrent_failed (hwf : Wf w) (hp : Placed w) (hblock : block.toNat < 4096 * w.cm.totalSects) :
    wp (cowWriteCurrent 12 block buf) w (fun _ _ => True)
      (fun _ w' => Wf w' ∧ w'.cm.totalSects = w.cm.totalSects ∧ w'.cm.currPos = w.cm.currPos ∧ Left w w' block) := by
  have hsame : ∀ {v : World}, Same w v →
      Wf v ∧ v.cm.totalSects = w.cm.totalSects ∧ v.cm.currPos = w.cm.currPos ∧ Left w v block :=
    fun h => ⟨h.wf, h.totalSects, h.currPos, .of_same h⟩
  simp only [cowWriteCurrent, cowWriteCurrentMapping, wp_bind]
  refine wp_mono (cowReadMapping_wp hwf hblock) ?_ fun _ _ h => hsame h.2
  rintro v w₁ ⟨rfl, h₁⟩
  rw [wp_ite]
  split
  next => exact trivial
  next hfree =>
    have hput : ∀ {v : World}, Put w₁ v block w₁.cm.currPos →
        Wf v ∧ v.cm.totalSects = w.cm.totalSects ∧ v.cm.currPos = w.cm.currPos ∧ Left w v block :=
      fun h => ⟨h.wf, by rw [h.cm]; exact h₁.totalSects, by rw [h.cm]; exact h₁.currPos,
        .of_put h₁ hblock (not_not.mp hfree) h⟩
    simp only [wp_bind, wp_get]
    refine wp_mono (cowWriteMapping_wp h₁.wf (by rw [h₁.totalSects]; exact hblock) w₁.cm.currPos) ?_ ?_
    · intro _ w₂ h₂
      refine wp_mono cowWriteData_failed (fun _ _ _ => trivial) ?_
      rintro _ w₃ ⟨hw, hwrote⟩
      have hp₂ : Placed w₂ := by
        have hcurr : w₂.cm.currPos = w.cm.currPos := by rw [h₂.cm]; exact h₁.currPos
        have hoff : w₂.cm.dataOffset = w.cm.dataOffset := by rw [h₂.cm]; exact h₁.dataOffset
        exact ⟨by rw [hoff, hcurr]; exact hp.above, by rw [hcurr]; exact hp.fits⟩
      obtain ⟨hwf₃, hindex⟩ := Same.of_data h₂.wf hp₂ hw hwrote
      have hcm : w₃.cm = w₂.cm := by rw [hw]
      obtain ⟨_, htotal, hcurr, hleft⟩ := hput h₂
      refine ⟨hwf₃, by rw [hcm]; exact htotal, by rw [hcm]; exact hcurr, ?_⟩
      cases hleft with
      | untouched h hc =>
          exact .untouched (fun p hp => (hindex p (by rw [htotal]; exact hp)).trans (h p hp)) (by rw [hcm]; exact hc)
      | stored hf h hc =>
          exact .stored hf (fun p hp => (hindex p (by rw [htotal]; exact hp)).trans (h p hp)) (by rw [hcm]; exact hc)
    · rintro _ w₂ ⟨_, h₂ | h₂⟩
      · exact hsame (h₁.trans h₂)
      · exact hput h₂

/-- A block is mapped to `v`: so says every read of its mapping that returns, and it does where no call to the
open file fails. -/
def Mapped (w : World) (pos v : UInt64) : Prop :=
  wp (cowReadMapping 12 pos) w (fun u _ => u = v) (fun _ _ => Excused w)

theorem Mapped.of_index (hwf : Wf w) (hpos : pos.toNat < 4096 * w.cm.totalSects) :
    Mapped w pos (indexAt w pos.toNat) :=
  wp_mono (cowReadMapping_wp hwf hpos) (fun _ _ h => h.1) fun _ _ h => h.1

/-- What a capture that failed leaves: the position of the data and every other block as they were, and its own
block either as it was, or mapped and counted although its data was not written. -/
theorem failed_capture_leaves (w w' : World) (block : UInt64) (buf : Nat → UInt8) (e : Err) (hwf : Wf w)
    (hp : Placed w) (hblock : block.toNat < 4096 * w.cm.totalSects)
    (hrun : cowWriteCurrent 12 block buf w = .error e w') :
    w'.cm.currPos = w.cm.currPos ∧
    (∀ pos : UInt64, pos.toNat < 4096 * w.cm.totalSects → pos ≠ block → ∃ v, Mapped w pos v ∧ Mapped w' pos v) ∧
    ((∃ v, Mapped w block v ∧ Mapped w' block v) ∧ w'.cm.nrChangedBlocks = w.cm.nrChangedBlocks ∨
      Mapped w block 0 ∧ Mapped w' block w.cm.currPos ∧
        w'.cm.nrChangedBlocks = if w.cm.version ≥ cowVersionChangedBlocks then w.cm.nrChangedBlocks + 1
          else w.cm.nrChangedBlocks) := by
  obtain ⟨hwf', htotal, hcurr, hleft⟩ := wp_error (cowWriteCurrent_failed hwf hp hblock) hrun
  have hread : ∀ pos : UInt64, pos.toNat < 4096 * w.cm.totalSects → Mapped w' pos (indexAt w' pos.toNat) :=
    fun pos hpos => .of_index hwf' (by rw [htotal]; exact hpos)
  have hsame : ∀ pos : UInt64, pos.toNat < 4096 * w.cm.totalSects → indexAt w' pos.toNat = indexAt w pos.toNat →
      ∃ v, Mapped w pos v ∧ Mapped w' pos v := by
    intro pos hpos heq
    refine ⟨_, .of_index hwf hpos, ?_⟩
    rw [← heq]
    exact hread pos hpos
  refine ⟨hcurr, fun pos hpos hne => ?_, ?_⟩
  · refine hsame pos hpos ?_
    cases hleft with
    | untouched h _ => exact h _ hpos
    | stored _ h _ =>
        rw [h _ hpos, if_neg fun heq => hne (UInt64.toNat_inj.mp heq)]
  · cases hleft with
    | untouched h hc => exact .inl ⟨hsame block hblock (h _ hblock), hc⟩
    | stored hfree h hc =>
        refine .inr ⟨?_, ?_, hc⟩
        · rw [← hfree]
          exact .of_index hwf hblock
        · have hmine := hread block hblock
          rwa [h _ hblock, if_pos rfl] at hmine

/-- A store that is full fails at the data of a new block, when the block is mapped already. -/
theorem cowWriteCurrent_full (buf : Nat → UInt8) (hwf : Wf w) (hf : w.cm.filp = true) (hn : w.env.Faultless)
    (hblock : block.toNat < 4096 * w.cm.totalSects) (hfree : indexAt w block.toNat = 0)
    (hfull : w.cm.fileMax.toNat ≤ w.cm.currPos.toNat * 4096) (hfits : w.cm.currPos.toNat * 4096 < 2 ^ 63) :
    ∃ w', cowWriteCurrent 12 block buf w = .error (.code .efbig) w' ∧ Wf w' ∧ w'.cm.filp = true ∧
      w'.env = w.env ∧ w'.cm.totalSects = w.cm.totalSects ∧ indexAt w' block.toNat = w.cm.currPos := by
  have hwp : wp (cowWriteCurrent 12 block buf) w (fun _ _ => False)
      (fun e w' => e = .code .efbig ∧ Wf w' ∧ w'.cm.filp = true ∧ w'.env = w.env ∧
        w'.cm.totalSects = w.cm.totalSects ∧ indexAt w' block.toNat = w.cm.currPos) := by
    simp only [cowWriteCurrent, cowWriteCurrentMapping, wp_bind]
    refine wp_mono (cowReadMapping_wp hwf hblock) ?_ fun _ _ h => absurd hn (h.1 hf)
    rintro _ w₁ ⟨rfl, h₁⟩
    rw [hfree, wp_ite, if_neg (not_not.mpr rfl)]
    simp only [wp_bind, wp_get]
    have hblock₁ : block.toNat < 4096 * w₁.cm.totalSects := by
      rw [h₁.totalSects]
      exact hblock
    refine wp_mono (cowWriteMapping_wp h₁.wf hblock₁ w₁.cm.currPos) ?_ fun _ _ h => absurd hn (h₁.excused h.1 hf)
    intro _ w₂ h₂
    have hcurr : w₂.cm.currPos = w.cm.currPos := by rw [h₂.cm]; exact h₁.currPos
    have hmax : w₂.cm.fileMax = w.cm.fileMax := by rw [h₂.cm, h₁.cm]
    rw [cowWriteData, wp_bind, wp_get, cowBlockSize_four_kib]
    dsimp only
    rw [hcurr, hmax, Nat.mod_eq_of_lt (by omega), if_pos hfull, wp_throw]
    refine ⟨rfl, h₂.wf, ?_, ?_, ?_, ?_⟩
    · rw [h₂.cm]
      exact h₁.filp.trans hf
    · exact h₂.env.trans h₁.env
    · rw [h₂.cm]
      exact h₁.totalSects
    · rw [h₂.index _ hblock₁, if_pos rfl, h₁.currPos]
  unfold wp at hwp
  cases hrun : cowWriteCurrent 12 block buf w with
  | ok _ w' =>
      rw [hrun] at hwp
      exact hwp.elim
  | error e w' =>
      rw [hrun] at hwp
      obtain ⟨rfl, h⟩ := hwp
      exact ⟨w', rfl, h⟩

/-- A manager of one section just made, with no room for data in its file. -/
theorem started_full : ∃ w, Wf w ∧ Placed w ∧ w.cm.filp = true ∧ w.env.Faultless ∧ w.cm.totalSects = 1 ∧
    w.cm.currPos = 9 ∧ w.cm.fileMax.toNat ≤ w.cm.currPos.toNat * 4096 ∧ indexAt w (3 : UInt64).toNat = 0 := by
  obtain ⟨w, -, h, henv⟩ := cowInit_total (w := calm) 16 36864 1 0 (fun _ => 0) (by rw [sectionTotal_eq]; decide)
    (by decide) (by decide) calm_faultless
  have htotal : w.cm.totalSects = 1 := by
    rw [h.total, sectionTotal_eq]
    decide
  have hnext := h.next
  have hoff := h.wf.dataOffset
  rw [htotal] at hoff
  have hcurr : w.cm.currPos.toNat = 9 := by omega
  refine ⟨w, h.wf, ⟨by omega, by omega⟩, h.filp, by rw [henv]; exact calm_faultless, htotal,
    UInt64.toNat_inj.mp hcurr, ?_, ?_⟩
  · rw [h.fileMax, hcurr]
    decide
  · rw [indexAt, h.empty]
    rfl

theorem failed_capture_leaves_full : ∃ w w', w.cm.currPos = 9 ∧
    cowWriteCurrent 12 3 (fun _ => 7) w = .error (.code .efbig) w' ∧ w'.cm.currPos = 9 := by
  obtain ⟨w, hwf, hp, hf, hn, htotal, hcurr, hfull, hfree⟩ := started_full
  have hblock : (3 : UInt64).toNat < 4096 * w.cm.totalSects := by
    rw [htotal]
    decide
  obtain ⟨w', hrun, -⟩ := cowWriteCurrent_full _ hwf hf hn hblock hfree hfull hp.fits
  exact ⟨w, w', hcurr, hrun, (failed_capture_leaves w w' 3 _ _ hwf hp hblock hrun).1.trans hcurr⟩

/-- The block that did not fit is mapped to the end of the file. -/
theorem failed_capture_maps_block : ¬ ∀ (w w' : World) (block : UInt64) (buf : Nat → UInt8) (e : Err),
    Wf w → Placed w → block.toNat < 4096 * w.cm.totalSects → cowWriteCurrent 12 block buf w = .error e w' →
    (∀ pos : UInt64, pos.toNat < 4096 * w.cm.totalSects → ∃ v, Mapped w pos v ∧ Mapped w' pos v) ∧
      w'.cm.nrChangedBlocks = w.cm.nrChangedBlocks ∧ w'.cm.currPos = w.cm.currPos := by
  intro h
  obtain ⟨w, hwf, hp, hf, hn, htotal, hcurr, hfull, hfree⟩ := started_full
  have hblock : (3 : UInt64).toNat < 4096 * w.cm.totalSects := by
    rw [htotal]
    decide
  obtain ⟨w', hrun, hwf', hf', henv, htotal', hmapped⟩ :=
    cowWriteCurrent_full (fun _ => 7) hwf hf hn hblock hfree hfull hp.fits
  obtain ⟨v, hbefore, hafter⟩ := (h w w' 3 _ _ hwf hp hblock hrun).1 3 hblock
  -- neither read of the mapping fails
  obtain ⟨_, _, -, h₀, rfl⟩ := wp_total (wp_mono (wp_and (Mapped.of_index hwf hblock) hbefore)
    (fun _ _ h => h) fun _ _ h => h.1 hf hn)
  obtain ⟨_, _, -, h₉, hv⟩ := wp_total (wp_mono (wp_and (Mapped.of_index hwf' (by rw [htotal']; exact hblock)) hafter)
    (fun _ _ h => h) fun _ _ h => h.1 hf' (by rw [henv]; exact hn))
  rw [hfree] at h₀
  rw [hv, h₀, hmapped, hcurr] at h₉
  cases h₉

end ElastioSnap.Cow.Capture
