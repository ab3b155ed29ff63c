import ElastioSnap.Cow.Sealing

namespace ElastioSnap.Cow.Start

open Lib.Bytes Lib.Outcome Lib.Flags Manager FileIo Section Cleanup Header Lifecycle Sealing

variable {w w' : World}

/-- A manager just made, over a file that has a header and an index without entries. -/
structure Started (elements fileMax seqid : UInt64) (uuid : Fin 16 → UInt8) (w : World) : Prop where
  wf : Wf w
  filp : w.cm.filp = true
  total : w.cm.totalSects = sectionTotal 12 elements 4096
  memory : w.cm.totalSects * 24 ≤ vmallocMax
  next : w.cm.currPos.toNat * 4096 = w.cm.dataOffset
  roomy : Roomy w
  fileMax : w.cm.fileMax = fileMax
  seqid : w.cm.seqid = seqid
  uuid : w.cm.uuid = uuid
  version : w.cm.version = cowVersionChangedBlocks
  changed : w.cm.nrChangedBlocks = 0
  mode : hasFlag w.cm.flags cowIndexOnly = false
  empty : ∀ i, w.cm.sect i = default
  zero : ∀ p, 4096 ≤ p → w.file.bytes p = 0
  linked : w.linked = true

theorem sectionTotal_eq (elements : UInt64) : sectionTotal 12 elements 4096 = numSegments elements.toNat 12 := by
  have h : getOrder 12 (4096 * 8) = 3 := Nat.clog_pow 2 3 (by omega)
  rw [sectionTotal, h]

theorem zeroPages_wp (offset n i : Nat) (hf : w.cm.filp = true) (hz : ∀ p, w.file.bytes p = 0) :
    wp (zeroPages 12 offset n i) w
      (fun _ w' => w' = { w with file := w'.file, clock := w'.clock } ∧ ∀ p, w'.file.bytes p = 0)
      (fun _ _ => True) := by
  induction n generalizing i w with
  | zero =>
      rw [zeroPages, wp_pure]
      exact ⟨rfl, hz⟩
  | succ n ih =>
      simp only [zeroPages, wp_bind]
      apply wp_mono (fileWrite_wp _ _ _ (fun h => by rw [hf] at h; cases h))
      · rintro _ w₁ ⟨hw, -, hwrite, -⟩
        have hz₁ : ∀ p, w₁.file.bytes p = 0 := by
          intro p
          rw [(hwrite hf).2]
          simp only [ByteFile.write, splice, hz, ite_self]
        apply wp_mono (ih (i + 1) (by rw [hw]; exact hf) hz₁)
        · rintro _ w₂ ⟨hw₂, hz₂⟩
          exact ⟨by rw [hw₂, hw], hz₂⟩
        · exact fun _ _ _ => trivial
      · exact fun _ _ _ => trivial

theorem realFallocate_wp (offset length : Nat) (hz : ∀ p, w.file.bytes p = 0) :
    wp (realFallocate offset length) w
      (fun _ w' => w' = { w with file := w'.file, clock := w'.clock } ∧ ∀ p, w'.file.bytes p = 0)
      (fun _ w' => w' = { w with clock := w.clock + 1 } ∧ (0 < length → offset + length < 2 ^ 63 →
        ¬ w.env.Faultless)) := by
  rw [realFallocate, wp_bind]
  apply wp_tick
  · rw [wp_ite]
    split
    next hlong => exact ⟨rfl, fun h h' => by omega⟩
    next => exact ⟨rfl, hz⟩
  · exact fun e he => ⟨rfl, fun _ _ h => by simp [h w.clock] at he⟩

theorem fileAllocate_wp (length : Nat) (hf : w.cm.filp = true) (hz : ∀ p, w.file.bytes p = 0) :
    wp (fileAllocate 12 0 length) w
      (fun _ w' => w' = { w with file := w'.file, clock := w'.clock } ∧ ∀ p, w'.file.bytes p = 0)
      (fun _ _ => 0 < length → length < 2 ^ 63 → ¬ w.env.Faultless) := by
  rw [fileAllocate, wp_recover]
  apply wp_mono (realFallocate_wp 0 length hz)
  · exact fun _ _ h => h
  · rintro e w₁ ⟨hw, he⟩
    rw [Nat.zero_add] at he
    rw [wp_ite]
    split
    next =>
      simp only [pageSize_four_kib, wp_bind]
      apply wp_alloc
      · simp only [Nat.zero_mod, Nat.sub_zero, Nat.mod_self, ne_eq, not_true_eq_false, if_false, wp_pure]
        apply wp_mono (zeroPages_wp _ _ 0 (by rw [hw]; exact hf) (by rw [hw]; exact hz))
        · rintro _ w₂ ⟨hw₂, hz₂⟩
          exact ⟨by rw [hw₂, hw], hz₂⟩
        · exact fun _ _ _ => he
      · exact fun _ _ => he
    next =>
      rw [wp_throw]
      exact he

theorem allocSects_wp (total : Nat) :
    wp (allocSects total) w
      (fun _ w' => total * 24 ≤ vmallocMax ∧ w' = { w with
        cm := { w.cm with flags := w'.cm.flags, sects := some fun _ => default }
        clock := w'.clock } ∧
        (w'.cm.flags = w.cm.flags ∨ w'.cm.flags = setFlag w.cm.flags cowVmallocUpper))
      (fun _ _ => total * 24 ≤ vmallocMax → ¬ w.env.Faultless) := by
  unfold wp allocSects
  by_cases hk : w.env.fault w.clock = none ∧ total * 24 ≤ kmallocMax
  · rw [if_pos hk]
    exact ⟨hk.2.trans (by decide), rfl, .inl rfl⟩
  · rw [if_neg hk]
    by_cases hv : w.env.fault (w.clock + 1) = none ∧ total * 24 ≤ vmallocMax
    · rw [if_pos hv]
      exact ⟨hv.2, rfl, .inr rfl⟩
    · rw [if_neg hv]
      exact fun hle hn => hv ⟨hn _, hle⟩

theorem initFile_wp (elements fileMax seqid : UInt64) (cacheSize : Nat) (uuid : Fin 16 → UInt8)
    {cm : CowManager} (hcm : w.cm = fresh 12 fileMax uuid seqid (layout 12 elements 4096 cacheSize cm))
    (hf : w.cm.filp = true) (hfile : w.file = ByteFile.empty) (hlinked : w.linked = true) :
    wp (do
        allocSects (sectionTotal 12 elements 4096)
        fileAllocate 12 0 fileMax.toNat
        cowWriteHeader false) w
      (fun _ w' => Started elements fileMax seqid uuid w' ∧ w'.env = w.env)
      (fun _ _ => sectionTotal 12 elements 4096 * 24 ≤ vmallocMax → 0 < fileMax.toNat →
        fileMax.toNat < 2 ^ 63 → ¬ w.env.Faultless) := by
  rw [wp_bind]
  apply wp_mono (allocSects_wp _)
  · rintro _ w₁ ⟨hmem, hw₁, hflags⟩
    rw [wp_bind]
    apply wp_mono (fileAllocate_wp _ (by rw [hw₁]; exact hf) (by rw [hw₁, hfile]; exact fun _ => rfl))
    · rintro _ w₂ ⟨hw₂, hz⟩
      have hf₂ : w₂.cm.filp = true := by rw [hw₂, hw₁]; exact hf
      apply wp_mono (cowWriteHeader_wp false (.inl hf₂))
      · rintro _ w₃ ⟨hw₃, hwrote, -, -⟩
        refine ⟨?_, by rw [hw₃, hw₂, hw₁]⟩
        have hcm₃ : w₃.cm = { w.cm with
            flags := markClean false w₁.cm.flags, sects := some fun _ => default } := by
          rw [hw₃, hw₂]
          dsimp only
          rw [hw₁]
        have hlen : 4096 + 32768 * sectionTotal 12 elements 4096 + 2 ^ 22 < 2 ^ 63 := by
          unfold vmallocMax at hmem
          omega
        generalize htotal : sectionTotal 12 elements 4096 = total at hlen hmem
        have hoff : w.cm.dataOffset = 4096 + 32768 * total := by
          rw [hcm]
          simp only [fresh, layout, htotal, cowHeaderSize]
          omega
        have hcurr : w.cm.currPos.toNat * 4096 = 4096 + 32768 * total := by
          have h : w.cm.currPos = UInt64.ofNat (w.cm.dataOffset / 4096) := by rw [hcm]; rfl
          rw [h, hoff, UInt64.toNat_ofNat', Nat.mod_eq_of_lt (by omega)]
          omega
        have hsects : ∀ i, w₃.cm.sect i = default := fun i => by rw [hcm₃]; rfl
        have htotal₃ : w₃.cm.totalSects = total := by rw [hcm₃, hcm, ← htotal]; rfl
        constructor
        case wf =>
          refine ⟨by rw [hcm₃]; rfl, .inl (by rw [hcm₃]; exact hf), by rw [hcm₃, hcm]; rfl,
            by rw [htotal₃, hcm₃]; exact hoff, by rw [htotal₃]; omega, ?_, ?_⟩
          · intro i m hm
            rw [hsects] at hm
            cases hm
          · intro i _ hd
            rw [hsects] at hd
            cases hd
        case filp => rw [hcm₃]; exact hf
        case total => rw [htotal₃, htotal]
        case memory => rw [htotal₃]; exact hmem
        case next => rw [hcm₃]; exact hcurr.trans hoff.symm
        case roomy =>
          unfold Roomy
          rw [hcm₃]
          dsimp only
          rw [hcurr]
          exact hlen
        case fileMax => rw [hcm₃, hcm]; rfl
        case seqid => rw [hcm₃, hcm]; rfl
        case uuid => rw [hcm₃, hcm]; rfl
        case version => rw [hcm₃, hcm]; rfl
        case changed => rw [hcm₃, hcm]; rfl
        case mode =>
          have hflags₀ : w.cm.flags = 0 := by rw [hcm]; rfl
          rw [hcm₃]
          simp only [markClean, Bool.false_eq_true, if_false, hasFlag_clearFlag]
          rcases hflags with h | h <;> rw [h, hflags₀] <;> decide
        case empty => exact hsects
        case zero =>
          intro p hp
          rw [hwrote.outside p (.inr (by omega))]
          exact hz p
        case linked => rw [hw₃, hw₂, hw₁]; exact hlinked
      · rintro e w₃ ⟨he, -⟩ _ _ _
        have h := he hf₂
        rwa [hw₂, hw₁] at h
    · intro e w₂ he _ hpos hlt
      have h := he hpos hlt
      rwa [hw₁] at h
  · exact fun e w₁ he hmem _ _ => he hmem

/-- A manager is only made where there is memory for its sections, so nothing wraps. -/
theorem cowInit_wp (elements fileMax seqid : UInt64) (cacheSize : Nat) (uuid : Fin 16 → UInt8) :
    wp (cowInit 12 elements 4096 cacheSize fileMax uuid seqid) w
      (fun _ w' => Started elements fileMax seqid uuid w' ∧ w'.env = w.env)
      (fun _ _ => sectionTotal 12 elements 4096 * 24 ≤ vmallocMax → 0 < fileMax.toNat →
        fileMax.toNat < 2 ^ 63 → ¬ w.env.Faultless) := by
  rw [cowInit, wp_bind]
  unfold wp allocManager
  cases hfault : w.env.fault w.clock with
  | some e => exact fun _ _ _ h => by simp [h w.clock] at hfault
  | none =>
      dsimp only
      change wp _ _ _ _
      rw [wp_onError, fileCreate]
      simp only [wp_modify]
      rw [wp_bind, wp_bind]
      apply wp_tick
      · rw [wp_modify, wp_bind, wp_modifyCm]
        exact initFile_wp elements fileMax seqid cacheSize uuid rfl rfl rfl rfl
      · exact fun e he _ _ _ h => by simp [h (w.clock + 1)] at he

theorem cowInit_total (elements fileMax seqid : UInt64) (cacheSize : Nat) (uuid : Fin 16 → UInt8)
    (hmem : sectionTotal 12 elements 4096 * 24 ≤ vmallocMax) (hpos : 0 < fileMax.toNat)
    (hmax : fileMax.toNat < 2 ^ 63) (hn : w.env.Faultless) :
    ∃ w', cowInit 12 elements 4096 cacheSize fileMax uuid seqid w = .ok () w' ∧
      Started elements fileMax seqid uuid w' ∧ w'.env = w.env := by
  obtain ⟨_, w', hok, hpost⟩ := wp_total (wp_mono (cowInit_wp elements fileMax seqid cacheSize uuid)
    (fun _ _ h => h) (fun _ _ h => h hmem hpos hmax hn))
  exact ⟨w', hok, hpost⟩

/-- A machine with no file yet, on which no call fails. -/
def calm : World where
  cm := .zero
  file := .empty
  linked := false
  extents := some []
  env := ⟨fun _ => none, fun _ => 0, fun _ _ => 0, fun _ => []⟩
  clock := 0

theorem calm_faultless : calm.env.Faultless := fun _ => rfl

end ElastioSnap.Cow.Start
