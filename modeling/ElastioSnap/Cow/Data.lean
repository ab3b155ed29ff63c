import ElastioSnap.Cow.Mapping
import ElastioSnap.Cow.Sealing

namespace ElastioSnap.Cow.Data

open Lib.Bytes Lib.Outcome Manager FileIo Section Mapping Sealing

def cowWriteData (ps : Nat) (buf : Nat → UInt8) : CowM Unit := do
  let cm := (← get).cm
  let currSize := cm.currPos.toNat * cowBlockSize ps % 2 ^ 64
  if currSize ≥ cm.fileMax.toNat then throw (.code .efbig)
  else do
    fileWrite currSize (cowBlockSize ps) buf
    modifyCm fun cm => { cm with currPos := cm.currPos + 1 }

def cowWriteCurrent (ps : Nat) (block : UInt64) (buf : Nat → UInt8) : CowM Unit := do
  let blockMapping ← cowReadMapping ps block
  if blockMapping ≠ 0 then pure ()
  else do
    cowWriteCurrentMapping ps block
    cowWriteData ps buf

def kzalloc : CowM Bool := fun w =>
  .ok (w.env.fault w.clock).isNone { w with clock := w.clock + 1 }

/-- The bytes that are copied to the caller's buffer, of which it takes `len`. -/
def cowReadData (ps : Nat) (blockPos : UInt64) (blockOff : Nat) : CowM (Nat → UInt8) := do
  let present ← kzalloc
  if blockOff ≥ cowBlockSize ps then throw (.code .einval)
  else if present = false then throw .oops
  else do
    let buf ← fileRead (blockPos.toNat * cowBlockSize ps % 2 ^ 64) (cowBlockSize ps)
    pure (fun p => buf (blockOff + p))

variable {w w' : World} {block : UInt64}

/-- The step of the store when a block is kept for the first time. -/
structure Stored (w w' : World) (block : UInt64) (buf : Nat → UInt8) : Prop where
  cm : w'.cm = { w.cm with
    sects := w'.cm.sects, allocatedSects := w'.cm.allocatedSects
    currPos := w.cm.currPos + 1, nrChangedBlocks := w'.cm.nrChangedBlocks }
  linked : w'.linked = w.linked
  env : w'.env = w.env
  wf : Wf w'
  blank : Blank w → Blank w'
  placed : Placed w'
  next : w'.cm.currPos.toNat = w.cm.currPos.toNat + 1
  room : w.cm.currPos.toNat * 4096 < w.cm.fileMax.toNat
  index : ∀ p, p < 4096 * w.cm.totalSects →
    indexAt w' p = if p = block.toNat then w.cm.currPos else indexAt w p
  size : w.file.size ≤ w'.file.size
  stored : ∀ p, p < 4096 → w'.file.bytes (w.cm.currPos.toNat * 4096 + p) = buf p
  reach : w.cm.currPos.toNat * 4096 + 4096 ≤ w'.file.size
  others : ∀ p, 4096 + 32768 * w.cm.totalSects ≤ p →
    p < w.cm.currPos.toNat * 4096 ∨ w.cm.currPos.toNat * 4096 + 4096 ≤ p →
    w'.file.bytes p = w.file.bytes p

theorem cowWriteData_wp {buf : Nat → UInt8} (hput : Put w w' block w.cm.currPos)
    (hf : w.cm.filp = true) (hp : Placed w) :
    wp (cowWriteData 12 buf) w' (fun _ w'' => Stored w w'' block buf)
      (fun _ _ => w.cm.currPos.toNat * 4096 < w.cm.fileMax.toNat →
        w.cm.currPos.toNat * 4096 + 4096 < 2 ^ 63 → ¬ w.env.Faultless) := by
  have hcurr : w'.cm.currPos = w.cm.currPos := by rw [hput.cm]
  have htotal : w'.cm.totalSects = w.cm.totalSects := by rw [hput.cm]
  have hfilp : w'.cm.filp = true := by rw [hput.cm]; exact hf
  have hbelow : 4096 + 32768 * w.cm.totalSects ≤ w.cm.currPos.toNat * 4096 := by
    have h := hp.above
    have h' := hput.wf.dataOffset
    rw [htotal, show w'.cm.dataOffset = w.cm.dataOffset by rw [hput.cm]] at h'
    omega
  have hsmall : w.cm.currPos.toNat * 4096 < 2 ^ 64 := by
    have h := hp.fits
    omega
  simp only [cowWriteData, wp_bind, wp_get, wp_ite, wp_throw, cowBlockSize_four_kib, hcurr,
    Nat.mod_eq_of_lt hsmall]
  have hmax : w'.cm.fileMax = w.cm.fileMax := by rw [hput.cm]
  split
  next hfull =>
    rw [hmax] at hfull
    exact fun h => absurd hfull (not_le.mpr h)
  next hroom =>
    apply wp_mono (fileWrite_wp _ 4096 buf (fun h => by rw [hfilp] at h; cases h))
    · rintro _ w₁ ⟨hw, hwrote, hlong, hbuf⟩
      obtain ⟨hlong, hfile⟩ := hlong hfilp
      have hnext : (w.cm.currPos + 1).toNat = w.cm.currPos.toNat + 1 := by
        rw [UInt64.toNat_add]
        exact Nat.mod_eq_of_lt (by have h : (1 : UInt64).toNat = 1 := rfl; omega)
      rw [wp_modifyCm]
      generalize hw₂ : { w₁ with cm := { w₁.cm with currPos := w₁.cm.currPos + 1 } } = w₂
      have hcm : w₂.cm = { w'.cm with currPos := w.cm.currPos + 1 } := by rw [← hw₂, ← hcurr, hw]
      have hfile₂ : w₂.file = w₁.file := by rw [← hw₂]
      have hregion : ∀ p, 4096 ≤ p → p < 4096 + 32768 * w'.cm.totalSects →
          w₂.file.bytes p = w'.file.bytes p := by
        intro p _ hp'
        rw [htotal] at hp'
        rw [hfile₂]
        exact hwrote.outside p (.inl (by omega))
      have hsize : w'.file.size ≤ w₂.file.size := by rw [hfile₂]; exact hwrote.size
      refine ⟨?_, ?_, ?_, ?_, ?_, ⟨?_, ?_⟩, ?_, ?_, ?_, ?_, ?_, ?_, ?_⟩
      · rw [hcm, hput.cm]
      · rw [← hw₂, hw]
        exact hput.linked
      · rw [← hw₂, hw]
        exact hput.env
      · exact hput.wf.congr (by rw [hcm]) (by rw [hcm]) (by rw [hcm]) (by rw [hcm]) hsize
          (.inl (by rw [hcm]; exact hfilp))
      · exact fun hb => (hput.blank hb).congr (by rw [hcm]) (by rw [hcm]) hregion
      · rw [hcm, hnext, show w'.cm.dataOffset = w.cm.dataOffset by rw [hput.cm], Nat.add_mul]
        exact hp.above.trans (Nat.le_add_right _ _)
      · rw [hcm, hnext, Nat.add_mul, Nat.one_mul]
        exact hlong
      · rw [hcm, hnext]
      · rw [hmax] at hroom
        exact not_le.mp hroom
      · intro p hp'
        rw [indexAt_congr (by rw [htotal]; exact hp') (by rw [hcm]) hregion]
        exact hput.index p hp'
      · exact hput.file.size.trans hsize
      · intro p hp'
        rw [hfile₂]
        exact hbuf (.inl hfilp) p hp'
      · rw [hfile₂, hfile]
        exact end_le_write _ _ (by omega)
      · intro p hlo hout
        rw [hfile₂, hwrote.outside p hout, hput.file.outside p (.inr hlo)]
    · rintro e w₁ ⟨he, -⟩ _ hlong
      rw [← hput.env]
      exact he hlong hfilp

theorem cowWriteCurrent_wp {buf : Nat → UInt8} (hwf : Wf w) (hf : w.cm.filp = true) (hp : Placed w)
    (hblock : block.toNat < 4096 * w.cm.totalSects) :
    wp (cowWriteCurrent 12 block buf) w
      (fun _ w' => if indexAt w block.toNat = 0 then
        ∃ w₁, Same w w₁ ∧ Stored w₁ w' block buf else Same w w')
      (fun _ _ => w.cm.currPos.toNat * 4096 < w.cm.fileMax.toNat →
        w.cm.currPos.toNat * 4096 + 4096 < 2 ^ 63 → ¬ w.env.Faultless) := by
  simp only [cowWriteCurrent, cowWriteCurrentMapping, wp_bind]
  apply wp_mono (cowReadMapping_wp hwf hblock)
  · rintro v w₁ ⟨rfl, hsame⟩
    rw [wp_ite]
    split
    next hmapped =>
      exact hsame
    next hfree =>
      simp only [wp_bind, wp_get, if_pos (not_not.mp hfree)]
      apply wp_mono (cowWriteMapping_wp hsame.wf (by rw [hsame.totalSects]; exact hblock) w₁.cm.currPos)
      · intro _ w₂ hput
        have hp₁ : Placed w₁ :=
          ⟨by rw [hsame.dataOffset, hsame.currPos]; exact hp.above,
            by rw [hsame.currPos]; exact hp.fits⟩
        apply wp_mono (cowWriteData_wp hput (by rw [hsame.filp]; exact hf) hp₁)
        · exact fun _ w₃ hstored => ⟨w₁, hsame, hstored⟩
        · intro _ _ he
          rwa [hsame.env, hsame.currPos, show w₁.cm.fileMax = w.cm.fileMax by rw [hsame.cm]] at he
      · exact fun _ _ h _ _ => hsame.excused h.1 hf
  · exact fun _ _ h _ _ => h.1 hf

theorem cowReadData_wp {blockPos : UInt64} {blockOff : Nat} (hf : w.cm.filp = true)
    (hoff : blockOff < 4096) (hpos : blockPos.toNat * 4096 + 4096 ≤ w.file.size)
    (hsmall : blockPos.toNat * 4096 < 2 ^ 64) :
    wp (cowReadData 12 blockPos blockOff) w
      (fun buf w' => w' = { w with clock := w'.clock } ∧
        ∀ p, blockOff + p < 4096 → buf p = w.file.bytes (blockPos.toNat * 4096 + (blockOff + p)))
      (fun _ _ => ¬ w.env.Faultless) := by
  simp only [cowReadData, wp_bind, wp_ite, wp_throw, cowBlockSize_four_kib, Nat.mod_eq_of_lt hsmall,
    if_neg (not_le.mpr hoff)]
  change if (w.env.fault w.clock).isNone = false then _ else _
  split
  next hnull =>
    intro hn
    simp [hn w.clock] at hnull
  next hbuf =>
    apply wp_mono (fileRead_wp _ 4096 (by simp) (by omega) (fun _ => by exact hpos))
    · rintro buf w' ⟨hw, hread⟩
      rw [wp_pure]
      exact ⟨by rw [hw], fun p hp => hread (blockOff + p) hp⟩
    · rintro e w' ⟨he, -⟩
      exact he hf

end ElastioSnap.Cow.Data
