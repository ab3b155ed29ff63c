import ElastioSnap.Cow.Lifecycle

namespace ElastioSnap.Cow.Sealing

open Lib.Bytes Lib.Outcome Lib.Flags Manager FileIo Section Cleanup Header Lifecycle

variable {w w' : World}

/-- Where the data that the next write would take begins. -/
structure Placed (w : World) : Prop where
  above : w.cm.dataOffset ≤ w.cm.currPos.toNat * 4096
  fits : w.cm.currPos.toNat * 4096 < 2 ^ 63

/-- There is room before the end of what a file can hold to write ahead. -/
def Roomy (w : World) : Prop := w.cm.currPos.toNat * 4096 + 2 ^ 22 < 2 ^ 63

/-- All sections are on disk; of the rest of the file only what lies ahead may be written. -/
structure Flushed (fillAhead : Bool) (w w' : World) : Prop extends Kept w w' where
  wf : Wf w'
  blank : Blank w → Blank w'
  index : ∀ pos, pos < 4096 * w.cm.totalSects → indexAt w' pos = indexAt w pos
  unmapped : ∀ i, i < w.cm.totalSects → (w'.cm.sect i).mappings = none
  hasData : ∀ i, (w'.cm.sect i).hasData = (w.cm.sect i).hasData
  size : w.file.size ≤ w'.file.size
  outside : ∀ p, p < 4096 ∨ 4096 + 32768 * w.cm.totalSects ≤ p →
    fillAhead = false ∨ p < w.cm.currPos.toNat * 4096 → w'.file.bytes p = w.file.bytes p

theorem cowFileExtentsZeroFillAhead_wp (hf : w.cm.filp = true) (hp : Placed w) :
    wp (cowFileExtentsZeroFillAhead 12) w
      (fun _ w' => w' = { w with file := w'.file, clock := w'.clock } ∧
        w.file.size ≤ w'.file.size ∧
        ∀ p, p < w.cm.currPos.toNat * 4096 → w'.file.bytes p = w.file.bytes p)
      (fun _ _ => Roomy w → ¬ w.env.Faultless) := by
  have hfits : w.cm.currPos.toNat * 4096 < 2 ^ 64 := by have h := hp.fits; omega
  simp only [cowFileExtentsZeroFillAhead, kmalloc, wp_bind, wp_get, cowBlockSize_four_kib,
    Nat.mod_eq_of_lt hfits]
  apply wp_alloc
  · rw [wp_pure]
    apply wp_mono (fileWrite_wp _ _ _ (fun h => by rw [hf] at h; cases h))
    · rintro _ w' ⟨hw, hwrote, -⟩
      exact ⟨by rw [hw], hwrote.size, fun p hp => hwrote.outside p (.inl hp)⟩
    · rintro e w' ⟨he, -⟩ hroom
      have hmin : min (wsub w.cm.fileMax.toNat (w.cm.currPos.toNat * 4096)) (4096 * 1024) ≤ 2 ^ 22 :=
        min_le_right _ _
      exact he ((Nat.add_le_add_left hmin _).trans_lt hroom) hf
  · exact fun e he _ h => by simp [h w.clock] at he

theorem cowSyncAndFreeSections_wp (fillAhead : Bool) (hwf : Wf w)
    (hfill : fillAhead = true → w.cm.filp = true ∧ Placed w) :
    wp (cowSyncAndFreeSections 12 0 fillAhead) w
      (fun _ w' => Flushed fillAhead w w')
      (fun _ _ => fillAhead = true ∨ w.cm.filp = true → fillAhead = false ∨ Roomy w →
        ¬ w.env.Faultless) := by
  simp only [cowSyncAndFreeSections, wp_bind, wp_get]
  apply wp_mono (syncSections_wp 0 _ 0 hwf (by omega))
  · rintro _ w₁ ⟨hsame, hdata, -, hnone⟩
    have hnone : ∀ i, i < w.cm.totalSects → (w₁.cm.sect i).mappings = none :=
      fun i hi => hnone rfl i (by omega) (by omega)
    have hout : ∀ p, p < 4096 ∨ 4096 + 32768 * w.cm.totalSects ≤ p →
        w₁.file.bytes p = w.file.bytes p := fun p hp => hsame.file.outside p hp
    rw [wp_ite]
    split
    next htrue =>
      obtain ⟨hf, hp⟩ := hfill htrue
      have hp₁ : Placed w₁ :=
        ⟨by rw [hsame.dataOffset, hsame.currPos]; exact hp.above, by rw [hsame.currPos]; exact hp.fits⟩
      rw [wp_onError]
      apply wp_mono (cowFileExtentsZeroFillAhead_wp (by rw [hsame.filp]; exact hf) hp₁)
      · rintro _ w₂ ⟨hw, hsize, hbytes⟩
        rw [hsame.currPos] at hbytes
        have habove := hp.above
        rw [hwf.dataOffset] at habove
        have hcm : w₂.cm = w₁.cm := by rw [hw]
        have hregion : ∀ p, 4096 ≤ p → p < 4096 + 32768 * w₁.cm.totalSects →
            w₂.file.bytes p = w₁.file.bytes p := by
          intro p _ hp'
          rw [hsame.totalSects] at hp'
          exact hbytes p (by omega)
        refine ⟨hsame.toKept.trans ⟨?_, ?_, ?_, ?_, ?_⟩, ?_, ?_, ?_, ?_, ?_, ?_, ?_⟩
        · rw [hcm]
        · rw [hcm]
        · rw [hw]
        · rw [hw]
        · rw [hw]
        · exact hsame.wf.congr (by rw [hcm]) (by rw [hcm]) (by rw [hcm]) (by rw [hcm]) hsize
            (.inl (by rw [hcm, hsame.filp]; exact hf))
        · exact fun hb => (hsame.blank hb).congr (by rw [hcm]) (by rw [hcm]) hregion
        · intro pos hpos
          rw [indexAt_congr (by rw [hsame.totalSects]; exact hpos) (by rw [hcm]) hregion]
          exact hsame.index pos hpos
        · rw [hcm]
          exact hnone
        · rw [hcm]
          exact hdata
        · exact hsame.file.size.trans hsize
        · intro p hp' hlow
          rw [hbytes p (hlow.resolve_left (by simp [htrue])), hout p hp']
      · intro e w₂ he
        rw [wp_throw]
        rw [Roomy, hsame.currPos, hsame.env] at he
        exact fun _ hroom => he (hroom.resolve_left (by simp [htrue]))
    next hfalse =>
      rw [wp_pure]
      exact ⟨hsame.toKept, hsame.wf, hsame.blank, hsame.index, hnone, hdata, hsame.file.size,
        fun p hp _ => hout p hp⟩
  · rintro e w₁ ⟨he, -⟩ h _
    exact he (h.elim (fun ht => (hfill ht).1) id)

/-- The manager's own record after it was sealed: the flag is in its copy of the header too. -/
structure Sealed (fillAhead : Bool) (w w' : World) : Prop where
  cm : w'.cm = { w.cm with
    sects := w'.cm.sects, allocatedSects := w'.cm.allocatedSects
    flags := setFlag w.cm.flags cowClean }
  linked : w'.linked = w.linked
  env : w'.env = w.env
  wf : Wf w'
  blank : Blank w → Blank w'
  index : ∀ pos, pos < 4096 * w.cm.totalSects → indexAt w' pos = indexAt w pos
  unmapped : ∀ i, i < w.cm.totalSects → (w'.cm.sect i).mappings = none
  hasData : ∀ i, (w'.cm.sect i).hasData = (w.cm.sect i).hasData
  size : w.file.size ≤ w'.file.size
  page : 4096 ≤ w'.file.size
  data : ∀ p, 4096 + 32768 * w.cm.totalSects ≤ p →
    fillAhead = false ∨ p < w.cm.currPos.toNat * 4096 → w'.file.bytes p = w.file.bytes p
  header : diskHeader w' = headerOf w'.cm

theorem closeHeader_wp {fillAhead : Bool} (h : Flushed fillAhead w w')
    (hsize : w'.cm.filp = true ∨ 4096 ≤ w'.file.size) :
    wp (cowWriteHeader true) w' (fun _ w'' => Sealed fillAhead w w'')
      (fun _ _ => w.cm.filp = true → ¬ w.env.Faultless) := by
  apply wp_mono (cowWriteHeader_wp true hsize)
  · rintro _ w'' ⟨hw, hwrote, hpage, hdisk⟩
    have hcm : w''.cm = { w'.cm with flags := setFlag w'.cm.flags cowClean } := by rw [hw]; rfl
    have hbytes : ∀ p, 4096 ≤ p → w''.file.bytes p = w'.file.bytes p :=
      fun p hp => hwrote.outside p (.inr (by omega))
    refine ⟨?_, ?_, ?_, ?_, ?_, ?_, ?_, ?_, h.size.trans hwrote.size, hpage, ?_, hdisk⟩
    · rw [hcm, h.cm]
    · rw [hw]
      exact h.linked
    · rw [hw]
      exact h.env
    · refine h.wf.congr (by rw [hcm]) (by rw [hcm]) (by rw [hcm]) (by rw [hcm]) hwrote.size ?_
      rw [hcm]
      exact h.wf.reach.imp_right (fun hr => hr.trans hwrote.size)
    · exact fun hb => (h.blank hb).congr (by rw [hcm]) (by rw [hcm]) (fun p hp _ => hbytes p hp)
    · intro pos hpos
      rw [indexAt_congr (by rw [h.totalSects]; exact hpos) (by rw [hcm]) (fun p hp _ => hbytes p hp)]
      exact h.index pos hpos
    · rw [hcm]
      exact h.unmapped
    · rw [hcm]
      exact h.hasData
    · intro p hp hlow
      rw [hbytes p (by omega), h.outside p (.inr hp) hlow]
  · rintro e w'' ⟨he, -⟩ hf
    rw [← h.env]
    exact he (by rw [h.filp]; exact hf)

/-- A manager that was closed has sealed its file; its extents are those just looked up. -/
theorem cowSyncAndClose_wp (hwf : Wf w) (hf : w.cm.filp = true) (hp : Placed w) :
    wp (cowSyncAndClose 12) w
      (fun _ w' => ∃ w₁, Sealed true w w₁ ∧ w' = { w₁ with
        cm := fileClose w₁.cm, extents := w'.extents, clock := w'.clock })
      (fun _ _ => Roomy w → ¬ w.env.Faultless) := by
  rw [cowSyncAndClose, wp_onError]
  simp only [wp_bind, wp_modifyCm, wp_const]
  apply wp_mono (cowSyncAndFreeSections_wp true hwf (fun _ => ⟨hf, hp⟩))
  · intro _ w₁ hflushed
    apply wp_mono (closeHeader_wp hflushed (.inl (by rw [hflushed.filp]; exact hf)))
    · intro _ w₂ hsealed
      have hf₂ : w₂.cm.filp = true := by rw [hsealed.cm]; exact hf
      unfold wp getCowFileExtents
      rw [if_pos hf₂]
      cases hfault : w₂.env.fault w₂.clock with
      | some e =>
          intro _ hn
          rw [hsealed.env, hn] at hfault
          cases hfault
      | none =>
          dsimp only
          split
          next u hu =>
            refine ⟨w₂, hsealed, ?_⟩
            split at hu
            · cases hu; rfl
            · split at hu <;> (cases hu; rfl)
          next hu =>
            split at hu
            · cases hu
            · split at hu <;> cases hu
    · exact fun e u he _ => he hf
  · exact fun e u he hroom => he (.inl rfl) (.inr hroom)

theorem cowSyncAndFree_wp (hwf : Wf w) (hsize : w.cm.filp = true ∨ 4096 ≤ w.file.size) :
    wp (cowSyncAndFree 12) w
      (fun _ w' => ∃ w₁, Sealed false w w₁ ∧
        w' = { w₁ with cm := { fileClose w₁.cm with sects := none } })
      (fun _ _ => w.cm.filp = true → ¬ w.env.Faultless) := by
  rw [cowSyncAndFree, wp_onError]
  simp only [wp_bind, wp_modifyCm, wp_const]
  apply wp_mono (cowSyncAndFreeSections_wp false hwf (fun h => by cases h))
  · intro _ w₁ hflushed
    have hsize₁ : w₁.cm.filp = true ∨ 4096 ≤ w₁.file.size := by
      rw [hflushed.filp]
      exact hsize.imp_right (fun h => h.trans hflushed.size)
    apply wp_mono (closeHeader_wp hflushed hsize₁)
    · exact fun _ w₂ hsealed => ⟨w₂, hsealed, rfl⟩
    · exact fun e u he => he
  · exact fun e u he hf => he (.inr hf) (.inl rfl)

end ElastioSnap.Cow.Sealing
