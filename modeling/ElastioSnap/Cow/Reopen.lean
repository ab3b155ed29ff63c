import ElastioSnap.Cow.Data
import ElastioSnap.Cow.Start

namespace ElastioSnap.Cow.Reopen

open Lib.Bytes Lib.Outcome Lib.Flags Manager FileIo Section Header Lifecycle Mapping Sealing Data Start

variable {w w' w'' : World}

/-- A manager whose file is open and whose next block of data is beyond the index. -/
structure Live (w : World) : Prop where
  wf : Wf w
  filp : w.cm.filp = true
  linked : w.linked = true
  placed : Placed w

/-- A step that keeps the index, the data and all that a header tells of them. -/
structure Steady (w w' : World) : Prop where
  live : Live w'
  cm : w'.cm = { w.cm with
    sects := w'.cm.sects, allocatedSects := w'.cm.allocatedSects
    allowedSects := w'.cm.allowedSects, flags := w'.cm.flags }
  mode : hasFlag w'.cm.flags cowIndexOnly = hasFlag w.cm.flags cowIndexOnly
  env : w'.env = w.env
  blank : Blank w → Blank w'
  index : ∀ pos, pos < 4096 * w.cm.totalSects → indexAt w' pos = indexAt w pos
  size : w.file.size ≤ w'.file.size
  data : ∀ p, w.cm.dataOffset ≤ p → p < w.cm.currPos.toNat * 4096 →
    w'.file.bytes p = w.file.bytes p

theorem Steady.totalSects (h : Steady w w') : w'.cm.totalSects = w.cm.totalSects := by rw [h.cm]

theorem Steady.dataOffset (h : Steady w w') : w'.cm.dataOffset = w.cm.dataOffset := by rw [h.cm]

theorem Steady.currPos (h : Steady w w') : w'.cm.currPos = w.cm.currPos := by rw [h.cm]

theorem Steady.fileMax (h : Steady w w') : w'.cm.fileMax = w.cm.fileMax := by rw [h.cm]

theorem Live.same (hl : Live w) (h : Same w w') : Live w' :=
  ⟨h.wf, by rw [h.filp]; exact hl.filp, by rw [h.linked]; exact hl.linked,
    by rw [h.dataOffset, h.currPos]; exact hl.placed.above, by rw [h.currPos]; exact hl.placed.fits⟩

theorem Steady.of_same (hl : Live w) (h : Same w w') : Steady w w' where
  live := hl.same h
  cm := by rw [h.cm]
  mode := by rw [h.cm]
  env := h.env
  blank := h.blank
  index := h.index
  size := h.file.size
  data := fun p hp _ => h.file.outside p (.inr (by rw [← hl.wf.dataOffset]; exact hp))

theorem Live.of_put {pos val : UInt64} (hl : Live w) (h : Put w w' pos val) : Live w' :=
  ⟨h.wf, by rw [h.cm]; exact hl.filp, by rw [h.linked]; exact hl.linked,
    by rw [h.cm]; exact hl.placed.above, by rw [h.cm]; exact hl.placed.fits⟩

theorem Live.of_stored {block : UInt64} {buf : Nat → UInt8} (hl : Live w)
    (h : Stored w w' block buf) : Live w' :=
  ⟨h.wf, by rw [h.cm]; exact hl.filp, by rw [h.linked]; exact hl.linked, h.placed⟩

theorem Live.of_started {elements fileMax seqid : UInt64} {uuid : Fin 16 → UInt8}
    (h : Started elements fileMax seqid uuid w) : Live w :=
  ⟨h.wf, h.filp, h.linked, h.next.ge, (Nat.le_add_right _ _).trans_lt h.roomy⟩

theorem cowModifyCacheSize_wp {E : Err → World → Prop} (cacheSize : Nat) (hl : Live w) :
    wp (cowModifyCacheSize 12 cacheSize) w (fun _ w' => Steady w w') E := by
  rw [cowModifyCacheSize, wp_modifyCm]
  refine ⟨⟨hl.wf.congr rfl rfl rfl rfl le_rfl (.inl hl.filp), hl.filp, hl.linked,
    ⟨hl.placed.above, hl.placed.fits⟩⟩,
    rfl, rfl, rfl, fun hb => hb.congr rfl rfl (fun _ _ _ => rfl), fun pos hpos => ?_, le_rfl, fun _ _ _ => rfl⟩
  exact indexAt_congr hpos rfl (fun _ _ _ => rfl)

/-- The manager sealed by a close finds in the header what it had. -/
theorem restore_headerOf {cm : CowManager} : restore (headerOf cm) false cm = cm := rfl

theorem cowReopen_wp {w₁ : World} (hl : Live w) (hs : Sealed true w w₁)
    (hw' : w' = { w₁ with cm := fileClose w₁.cm, extents := w'.extents, clock := w'.clock }) :
    wp cowReopen w' (fun _ w'' => Steady w w'') (fun _ _ => ¬ w.env.Faultless) := by
  have henv : w'.env = w.env := by rw [hw']; exact hs.env
  rw [cowReopen, wp_onError]
  simp only [wp_modifyCm]
  simp only [wp_bind, fileOpen, wp_get]
  apply wp_tick
  · rw [wp_ite]
    have hlinked : w'.linked = true := by rw [hw']; exact hs.linked.trans hl.linked
    rw [if_pos hlinked, wp_modifyCm]
    generalize hv : ({ w' with
      clock := w'.clock + 1, cm := { w'.cm with filp := true } } : World) = v
    have hvcm : v.cm = w₁.cm := by
      have hf₁ : w₁.cm.filp = true := by rw [hs.cm]; exact hl.filp
      rw [← hv, hw']
      simp only [fileClose, ← hf₁]
    have hvfile : v.file = w₁.file := by rw [← hv, hw']
    have hdisk : diskHeader v = headerOf v.cm := by rw [diskHeader, hvfile, hvcm]; exact hs.header
    have hf : v.cm.filp = true := by rw [← hv]
    apply wp_mono (cowOpenHeader_wp (hasFlag v.cm.flags cowIndexOnly) false hf
      (by rw [hvfile]; exact hs.page))
    · rintro _ v' ⟨-, hv', hwrote, -⟩
      rw [hdisk, restore_headerOf] at hv'
      have hcm : v'.cm = { w₁.cm with flags := markClean false w₁.cm.flags } := by
        rw [hv', ← hvcm]
      rw [hvfile] at hwrote
      have hbytes : ∀ p, 4096 ≤ p → v'.file.bytes p = w₁.file.bytes p :=
        fun p hp => hwrote.outside p (.inr (by omega))
      refine ⟨⟨?_, ?_, ?_, ⟨?_, ?_⟩⟩, ?_, ?_, ?_, ?_, ?_, ?_, ?_⟩
      · exact hs.wf.congr (by rw [hcm]) (by rw [hcm]) (by rw [hcm]) (by rw [hcm]) hwrote.size
          (.inl (by rw [hcm, hs.cm]; exact hl.filp))
      · rw [hcm, hs.cm]
        exact hl.filp
      · rw [hv', ← hv]
        exact hlinked
      · rw [hcm, hs.cm]
        exact hl.placed.above
      · rw [hcm, hs.cm]
        exact hl.placed.fits
      · rw [hcm, hs.cm]
      · rw [hcm, hs.cm]
        simp only [markClean, Bool.false_eq_true, if_false, hasFlag_clearFlag, hasFlag_setFlag]
        rw [show decide (cowIndexOnly = cowClean) = false by decide]
        simp
      · rw [hv', ← hv]
        exact henv
      · exact fun hb => (hs.blank hb).congr (by rw [hcm]) (by rw [hcm]) (fun p hp _ => hbytes p hp)
      · intro pos hpos
        rw [indexAt_congr (by rw [hs.cm]; exact hpos) (by rw [hcm]) (fun p hp _ => hbytes p hp)]
        exact hs.index pos hpos
      · exact hs.size.trans hwrote.size
      · intro p hp hp'
        rw [hl.wf.dataOffset] at hp
        rw [hbytes p (by omega), hs.data p hp (.inr hp')]
    · rintro e v' (hn | ⟨hn, -⟩)
      · rw [← hv] at hn
        dsimp only at hn
        rwa [henv] at hn
      · refine (hn ⟨?_, ?_, ?_⟩).elim
        · rw [hdisk]
          rfl
        · rw [hdisk, hvcm, hs.cm]
          simp [headerOf]
        · rw [hdisk]
          rfl
  · exact fun e he h => by simp [henv, h w'.clock] at he

end ElastioSnap.Cow.Reopen
