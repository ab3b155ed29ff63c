import ElastioSnap.Cow.Cleanup

namespace ElastioSnap.Cow.Mapping

open Lib.Bytes Lib.Outcome Manager FileIo Section Cleanup

def bumpUsage (i : Nat) : CowM Unit := do
  let s ← getSect i
  setSect i { s with usage := s.usage + 1 }

def cleanupIfFull (ps : Nat) : CowM Unit := do
  let cm := (← get).cm
  if cm.allocatedSects > cm.allowedSects then cowCleanupMappings ps else pure ()

def cowReadMapping (ps : Nat) (pos : UInt64) : CowM UInt64 := do
  let sectSize := (← get).cm.sectSize
  let i := pos.toNat / sectSize
  bumpUsage i
  let s ← getSect i
  if s.mappings.isNone = true ∧ s.hasData = false then pure 0
  else do
    (if s.mappings.isNone then cowLoadSection ps i else pure ())
    let s' ← getSect i
    match s'.mappings with
    | none => throw .oops
    | some m => do
        cleanupIfFull ps
        pure (m (pos.toNat % sectSize))

def withEntry (s : CowSection) (m : Nat → UInt64) (j : Nat) (val : UInt64) : CowSection :=
  { s with mappings := some (Function.update m j val) }

def countChanged (old : UInt64) (cm : CowManager) : CowManager :=
  if cm.version ≥ cowVersionChangedBlocks ∧ old = 0 then
    { cm with nrChangedBlocks := cm.nrChangedBlocks + 1 }
  else cm

def cowWriteMapping (ps : Nat) (pos val : UInt64) : CowM Unit := do
  let sectSize := (← get).cm.sectSize
  let i := pos.toNat / sectSize
  bumpUsage i
  let s ← getSect i
  (if s.mappings.isNone then
    (if s.hasData then cowLoadSection ps i else cowAllocSection i true)
  else pure ())
  let s' ← getSect i
  match s'.mappings with
  | none => throw .oops
  | some m => do
      modifyCm (countChanged (m (pos.toNat % sectSize)))
      setSect i (withEntry s' m (pos.toNat % sectSize) val)
      cleanupIfFull ps

def cowWriteCurrentMapping (ps : Nat) (pos : UInt64) : CowM Unit := do
  cowWriteMapping ps pos (← get).cm.currPos

def cowWriteFillerMapping (ps : Nat) (pos : UInt64) : CowM Unit := cowWriteMapping ps pos 1

variable {w : World} {i : Nat} {pos : UInt64}

theorem bumpUsage_wp {E : Err → World → Prop} (hwf : Wf w) (hi : i < w.cm.totalSects) :
    wp (bumpUsage i) w
      (fun _ w' => Same w w' ∧ Local i w w' ∧
        w'.cm.sect i = { w.cm.sect i with usage := (w.cm.sect i).usage + 1 }) E := by
  rw [bumpUsage, wp_bind, wp_getSect hwf.live, wp_setSect hwf.live]
  have hlocal : Local i w
      { w with cm := w.cm.putSect i { w.cm.sect i with usage := (w.cm.sect i).usage + 1 } } :=
    .of_put hwf.live _ _ _
  have hsect := (sect_putSect hwf.live i i
    { w.cm.sect i with usage := (w.cm.sect i).usage + 1 }).trans (if_pos rfl)
  refine ⟨.of_local hwf hlocal hi ?_ ?_ ?_ (fun hd => ⟨by rw [hsect] at hd; exact hd, rfl⟩),
    hlocal, hsect⟩
  · intro j hj
    rw [indexAt_section _ _ hj, indexAt_section _ _ hj, hsect]
    rfl
  · intro m hm
    rw [hsect] at hm ⊢
    exact hwf.cached i m hm
  · intro hd hm
    rw [hsect] at hd hm
    exact hwf.stored i hi hd hm

theorem cleanupIfFull_wp (hwf : Wf w) :
    wp (cleanupIfFull 12) w (fun _ w' => Same w w') (fun _ w' => Excused w ∧ Same w w') := by
  rw [cleanupIfFull, wp_bind, wp_get, wp_ite]
  split
  · exact cowCleanupMappings_wp hwf
  · exact .refl hwf

/-- Once loaded, a section has in memory what the index has for it. -/
theorem loadSection_wp (hwf : Wf w) (hi : i < w.cm.totalSects) (hm : (w.cm.sect i).mappings = none)
    (hd : (w.cm.sect i).hasData = true) :
    wp (cowLoadSection 12 i) w
      (fun _ w' => Same w w' ∧ (w'.cm.sect i).mappings.isSome = true)
      (fun _ w' => Excused w ∧ Same w w') := by
  apply wp_mono (cowLoadSection_wp hwf.live hm hd hwf.sectSize (fun _ => hwf.stored i hi hd hm))
  · rintro _ w' ⟨hlocal, hfile, -, m, hsect, hload⟩
    refine ⟨.of_local hwf hlocal hi ?_ ?_ ?_ (fun hd' => by simp [hsect, hd] at hd'),
      by rw [hsect]; rfl⟩
    · intro j hj
      rw [indexAt_section _ _ hj, indexAt_section _ _ hj, hsect]
      simp only [CowSection.entry, hm, hd, if_true]
      exact hload j hj
    · intro m' _
      rw [hsect]
      exact hd
    · intro _ hm'
      rw [hsect] at hm'
      cases hm'
  · rintro e w' ⟨he, hlocal, hfile, -, hsect⟩
    exact ⟨he, .of_unchanged hwf hlocal hi hfile hsect⟩

/-- A section allocated for the first time is all zero, as its entries were. -/
theorem allocSection_wp (hwf : Wf w) (hi : i < w.cm.totalSects) (hm : (w.cm.sect i).mappings = none)
    (hd : (w.cm.sect i).hasData = false) :
    wp (cowAllocSection i true) w
      (fun _ w' => Same w w' ∧ (w'.cm.sect i).mappings.isSome = true)
      (fun _ w' => Excused w ∧ Same w w') := by
  apply wp_mono (cowAllocSection_wp hwf.live i true hm)
  · rintro _ w' ⟨hlocal, hfile, -, m, hzero, hsect⟩
    refine ⟨.of_local hwf hlocal hi ?_ ?_ ?_ (fun hd' => by simp [hsect] at hd'),
      by rw [hsect]; rfl⟩
    · intro j hj
      rw [indexAt_section _ _ hj, indexAt_section _ _ hj, hsect, hzero rfl]
      simp only [CowSection.entry, hm, hd, Bool.false_eq_true, if_false]
    · intro m' _
      rw [hsect]
    · intro _ hm'
      rw [hsect] at hm'
      cases hm'
  · rintro e w' ⟨he, hlocal, hfile, -, hsect⟩
    exact ⟨he, .of_unchanged hwf hlocal hi hfile hsect⟩

theorem cowReadMapping_wp (hwf : Wf w) (hpos : pos.toNat < 4096 * w.cm.totalSects) :
    wp (cowReadMapping 12 pos) w
      (fun v w' => v = indexAt w pos.toNat ∧ Same w w')
      (fun _ w' => Excused w ∧ Same w w') := by
  have hi : pos.toNat / 4096 < w.cm.totalSects := by omega
  simp only [cowReadMapping, wp_bind, wp_get, hwf.sectSize]
  apply wp_mono (bumpUsage_wp hwf hi)
  · rintro _ w₁ ⟨hsame, hlocal, hsect⟩
    have hi₁ : pos.toNat / 4096 < w₁.cm.totalSects := by rw [hsame.totalSects]; exact hi
    rw [wp_getSect hsame.wf.live, wp_ite]
    split
    next hnone =>
      rw [wp_pure, ← hsame.index _ hpos]
      refine ⟨?_, hsame⟩
      rw [indexAt, CowSection.entry, Option.isNone_iff_eq_none.mp hnone.1]
      simp [hnone.2]
    next hsome =>
      have hload : wp (if (w₁.cm.sect (pos.toNat / 4096)).mappings.isNone = true then
            cowLoadSection 12 (pos.toNat / 4096) else pure ()) w₁
          (fun _ w' => Same w₁ w' ∧ (w'.cm.sect (pos.toNat / 4096)).mappings.isSome = true)
          (fun _ w' => Excused w₁ ∧ Same w₁ w') := by
        rw [wp_ite]
        split
        next hn =>
          exact loadSection_wp hsame.wf hi₁ (Option.isNone_iff_eq_none.mp hn)
            (by simpa using fun h => hsome ⟨hn, h⟩)
        next hn => exact ⟨.refl hsame.wf, by simpa [Option.isSome_iff_ne_none] using hn⟩
      rw [wp_bind]
      apply wp_mono hload
      · rintro _ w₂ ⟨hsame₂, hmapped⟩
        obtain ⟨m, hm⟩ := Option.isSome_iff_exists.mp hmapped
        have hboth := hsame.trans hsame₂
        rw [wp_bind, wp_getSect hsame₂.wf.live, hm]
        dsimp only
        rw [wp_bind]
        apply wp_mono (cleanupIfFull_wp hsame₂.wf)
        · intro _ w₃ hsame₃
          rw [wp_pure]
          refine ⟨?_, hboth.trans hsame₃⟩
          rw [← hboth.index _ hpos, indexAt, CowSection.entry, hm]
        · rintro e w₃ ⟨he, hsame₃⟩
          exact ⟨hboth.excused he, hboth.trans hsame₃⟩
      · rintro e w₂ ⟨he, hsame₂⟩
        exact ⟨hsame.excused he, hsame.trans hsame₂⟩
  · exact fun _ _ (h : False) => h.elim

/-- The step of the index when an entry is written, with the count of changed blocks. -/
structure Put (w w' : World) (pos val : UInt64) : Prop where
  cm : w'.cm = { w.cm with
    sects := w'.cm.sects, allocatedSects := w'.cm.allocatedSects
    nrChangedBlocks := if w.cm.version ≥ cowVersionChangedBlocks ∧ indexAt w pos.toNat = 0 then
      w.cm.nrChangedBlocks + 1 else w.cm.nrChangedBlocks }
  linked : w'.linked = w.linked
  extents : w'.extents = w.extents
  env : w'.env = w.env
  wf : Wf w'
  blank : Blank w → Blank w'
  index : ∀ p, p < 4096 * w.cm.totalSects →
    indexAt w' p = if p = pos.toNat then val else indexAt w p
  file : Wrote w.file w'.file 4096 (32768 * w.cm.totalSects)

theorem Put.same {w w' w'' : World} {val : UInt64} (h : Put w w' pos val) (h' : Same w' w'') :
    Put w w'' pos val where
  cm := by rw [h'.cm, h.cm]
  linked := h'.linked.trans h.linked
  extents := h'.extents.trans h.extents
  env := h'.env.trans h.env
  wf := h'.wf
  blank := h'.blank ∘ h.blank
  index := fun p hp => (h'.index p (by rw [h.cm]; exact hp)).trans (h.index p hp)
  file := h.file.trans h'.file le_rfl (by rw [h.cm])

theorem Put.excused {w w' : World} {val : UInt64} (h : Put w w' pos val) (he : Excused w') :
    Excused w := by
  unfold Excused at he ⊢
  rwa [h.cm, h.env] at he

theorem countChanged_eq (old : UInt64) (cm : CowManager) :
    countChanged old cm = { cm with
      nrChangedBlocks := if cm.version ≥ cowVersionChangedBlocks ∧ old = 0 then
        cm.nrChangedBlocks + 1 else cm.nrChangedBlocks } := by
  rw [countChanged]
  split <;> rfl

/-- An entry written into a section that is in memory. -/
theorem put_of_same {w₁ : World} {m : Nat → UInt64} (hsame : Same w w₁)
    (hpos : pos.toNat < 4096 * w.cm.totalSects)
    (hm : (w₁.cm.sect (pos.toNat / 4096)).mappings = some m) (val : UInt64) :
    Put w { w₁ with
      cm := (countChanged (m (pos.toNat % 4096)) w₁.cm).putSect (pos.toNat / 4096)
        (withEntry (w₁.cm.sect (pos.toNat / 4096)) m (pos.toNat % 4096) val) } pos val := by
  have hold : indexAt w pos.toNat = m (pos.toNat % 4096) := by
    rw [← hsame.index _ hpos, indexAt, CowSection.entry, hm]
  have hl := hsame.wf.live
  have hsects : ∀ j, (((countChanged (m (pos.toNat % 4096)) w₁.cm).putSect (pos.toNat / 4096)
      (withEntry (w₁.cm.sect (pos.toNat / 4096)) m (pos.toNat % 4096) val)).sect j) =
      if j = pos.toNat / 4096 then
        withEntry (w₁.cm.sect (pos.toNat / 4096)) m (pos.toNat % 4096) val
      else w₁.cm.sect j := by
    intro j
    rw [countChanged_eq]
    exact sect_putSect hl _ j _
  refine ⟨?_, hsame.linked, hsame.extents, hsame.env, ?_, ?_, ?_, hsame.file⟩
  · rw [hold, countChanged_eq]
    simp only [CowManager.putSect]
    rw [hsame.cm]
  · refine ⟨?_, ?_, ?_, ?_, ?_, ?_, ?_⟩
    · rw [countChanged_eq]
      simpa using hl
    · rw [countChanged_eq]
      exact hsame.wf.reach
    · rw [countChanged_eq]
      exact hsame.wf.sectSize
    · rw [countChanged_eq]
      exact hsame.wf.dataOffset
    · rw [countChanged_eq]
      exact hsame.wf.small
    · intro j m' hm'
      dsimp only at hm' ⊢
      rw [hsects j] at hm' ⊢
      split at hm' <;> rename_i hj
      · rw [if_pos hj]
        exact hsame.wf.cached _ m hm
      · rw [if_neg hj]
        exact hsame.wf.cached j m' hm'
    · intro j hj hd hm'
      dsimp only at hd hm' ⊢
      rw [hsects j] at hd hm'
      rw [countChanged_eq] at hj
      split at hm'
      · cases hm'
      · rename_i hne
        rw [if_neg hne] at hd
        exact hsame.wf.stored j hj hd hm'
  · intro hb
    refine (hsame.blank hb).step (by rw [countChanged_eq]; rfl) (fun p _ hd => ⟨?_, rfl⟩)
    dsimp only at hd
    rw [hsects] at hd
    split at hd <;> rename_i hp
    · rw [hp]
      exact hd
    · exact hd
  · intro p hp
    rw [← hsame.index p hp, indexAt, indexAt]
    dsimp only
    rw [hsects]
    by_cases hdiv : p / 4096 = pos.toNat / 4096
    · rw [if_pos hdiv, hdiv]
      simp only [CowSection.entry, withEntry, hm, Function.update_apply]
      congr 1
      simp only [eq_iff_iff]
      omega
    · rw [if_neg hdiv, if_neg (by rintro rfl; exact hdiv rfl)]
      rfl

theorem cowWriteMapping_wp (hwf : Wf w) (hpos : pos.toNat < 4096 * w.cm.totalSects) (val : UInt64) :
    wp (cowWriteMapping 12 pos val) w
      (fun _ w' => Put w w' pos val)
      (fun _ w' => Excused w ∧ (Same w w' ∨ Put w w' pos val)) := by
  have hi : pos.toNat / 4096 < w.cm.totalSects := by omega
  simp only [cowWriteMapping, wp_bind, wp_get, hwf.sectSize]
  apply wp_mono (bumpUsage_wp hwf hi)
  · rintro _ w₁ ⟨hsame, hlocal, hsect⟩
    have hi₁ : pos.toNat / 4096 < w₁.cm.totalSects := by rw [hsame.totalSects]; exact hi
    have hload : wp (if (w₁.cm.sect (pos.toNat / 4096)).mappings.isNone = true then
          (if (w₁.cm.sect (pos.toNat / 4096)).hasData = true then
            cowLoadSection 12 (pos.toNat / 4096) else cowAllocSection (pos.toNat / 4096) true)
          else pure ()) w₁
        (fun _ w' => Same w₁ w' ∧ (w'.cm.sect (pos.toNat / 4096)).mappings.isSome = true)
        (fun _ w' => Excused w₁ ∧ Same w₁ w') := by
      rw [wp_ite]
      split
      next hn =>
        rw [wp_ite]
        have hnone := Option.isNone_iff_eq_none.mp hn
        split
        next hd => exact loadSection_wp hsame.wf hi₁ hnone hd
        next hd => exact allocSection_wp hsame.wf hi₁ hnone (by simpa using hd)
      next hn => exact ⟨.refl hsame.wf, by simpa [Option.isSome_iff_ne_none] using hn⟩
    rw [wp_getSect hsame.wf.live]
    apply wp_mono hload
    · rintro _ w₂ ⟨hsame₂, hmapped⟩
      obtain ⟨m, hm⟩ := Option.isSome_iff_exists.mp hmapped
      have hput := put_of_same (hsame.trans hsame₂) hpos hm val
      rw [wp_getSect hsame₂.wf.live, hm]
      simp only [wp_bind, wp_modifyCm]
      rw [wp_setSect (by rw [countChanged_eq]; exact hsame₂.wf.live)]
      apply wp_mono (cleanupIfFull_wp hput.wf)
      · exact fun _ w₃ hsame₃ => hput.same hsame₃
      · exact fun e w₃ h => ⟨hput.excused h.1, .inr (hput.same h.2)⟩
    · rintro e w₂ ⟨he, hsame₂⟩
      exact ⟨hsame.excused he, .inl (hsame.trans hsame₂)⟩
  · exact fun _ _ (h : False) => h.elim

end ElastioSnap.Cow.Mapping
