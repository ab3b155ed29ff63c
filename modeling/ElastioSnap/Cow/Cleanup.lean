import ElastioSnap.Cow.Section

namespace ElastioSnap.Cow.Cleanup

open Lib.Bytes Lib.Outcome Manager FileIo Section

def kmalloc : CowM (Nat → UInt8) := do
  let w ← get
  alloc
  pure (packWords (w.env.junk w.clock))

def cowFileExtentsZeroFillAhead (ps : Nat) : CowM Unit := do
  let cm := (← get).cm
  let writeMax := cowBlockSize ps * 1024
  let currSize := cm.currPos.toNat * cowBlockSize ps % 2 ^ 64
  let writeAhead := min (wsub cm.fileMax.toNat currSize) writeMax
  let buf ← kmalloc
  fileWrite currSize writeAhead buf

def evictSection (ps i : Nat) : CowM Unit := do
  cowWriteSection ps i
  cowFreeSection i

def resetUsage (i : Nat) : CowM Unit := do
  let s ← getSect i
  setSect i { s with usage := 0 }

def syncSection (ps thresh i : Nat) : CowM Unit := do
  let s ← getSect i
  (if s.mappings.isSome = true ∧ (thresh = 0 ∨ s.usage ≤ thresh) then evictSection ps i else pure ())
  resetUsage i

/-- The loop over the sections: `n` of them are left from the `i`-th on. -/
def syncSections (ps thresh : Nat) : Nat → Nat → CowM Unit
  | 0, _ => pure ()
  | n + 1, i => do
      let cm := (← get).cm
      if thresh ≠ 0 ∧ cm.allocatedSects ≤ cm.allowedSects / 2 then pure ()
      else do
        syncSection ps thresh i
        syncSections ps thresh n (i + 1)

def cowSyncAndFreeSections (ps thresh : Nat) (fillAhead : Bool) : CowM Unit := do
  let cm := (← get).cm
  syncSections ps thresh cm.totalSects 0
  if fillAhead then onError (cowFileExtentsZeroFillAhead ps) (throw (.code .eio)) else pure ()

def maxUsage (cm : CowManager) : Nat → Nat
  | 0 => 0
  | n + 1 =>
      if (cm.sect n).usage > maxUsage cm n then (cm.sect n).usage else maxUsage cm n

def countSects (cm : CowManager) (p : CowSection → Bool) : Nat → Nat
  | 0 => 0
  | n + 1 => if p (cm.sect n) then countSects cm p n + 1 else countSects cm p n

/-- The search for the median, which halves the granularity until it is zero. -/
def searchThresh (cm : CowManager) : Nat → Nat → Nat → Nat
  | 0, _, thresh => thresh
  | fuel + 1, granularity, thresh =>
      if granularity = 0 then thresh
      else
        let less := countSects cm (fun s => decide (s.usage ≤ thresh)) cm.totalSects
        let greater := countSects cm (fun s => !decide (s.usage ≤ thresh)) cm.totalSects
        if greater > less then searchThresh cm fuel (granularity / 2) (thresh + granularity / 2)
        else if greater < less then
          searchThresh cm fuel (granularity / 2) (wsub thresh (granularity / 2))
        else thresh

def cowCleanupMappings (ps : Nat) : CowM Unit := do
  let cm := (← get).cm
  if cm.sects.isNone then throw .oops
  else do
    let thresh := maxUsage cm cm.totalSects / 2
    cowSyncAndFreeSections ps (searchThresh cm thresh thresh thresh) false

variable {w : World} {i : Nat}

/-- Writing a section out and dropping its pages moves its entries to the file. -/
theorem evictSection_wp (hwf : Wf w) (hi : i < w.cm.totalSects) (hm : (w.cm.sect i).mappings.isSome = true) :
    wp (evictSection 12 i) w
      (fun _ w' => Same w w' ∧ Local i w w' ∧
        w'.cm.sect i = { w.cm.sect i with mappings := none } ∧
        w'.cm.allocatedSects = w.cm.allocatedSects - 1)
      (fun _ w' => Excused w ∧ Same w w') := by
  obtain ⟨m, hm⟩ := Option.isSome_iff_exists.mp hm
  have hdata : (w.cm.sect i).hasData = true := hwf.cached i m hm
  have hmul : 4096 + 32768 * (i + 1) ≤ 4096 + 32768 * w.cm.totalSects :=
    Nat.add_le_add_left (Nat.mul_le_mul_left _ hi) _
  rw [evictSection, wp_bind, cowWriteSection]
  apply wp_mono (writeChunks_wp 8 0 hwf.live hm hwf.sectSize le_rfl
    (hmul.trans_lt hwf.small) (hwf.reach.imp_right hmul.trans))
  · rintro _ w₁ ⟨hlocal, halloc, hsect, hend, -, hdisk⟩
    have hl : w₁.cm.sects.isSome := by rw [hlocal.live]; exact hwf.live
    apply wp_mono (cowFreeSection_wp hl i)
    · rintro _ w₂ ⟨hlocal₂, hfile₂, hsect₂, halloc₂⟩
      have hboth := hlocal.trans hlocal₂
      rw [hsect] at hsect₂
      refine ⟨.of_local hwf hboth hi ?_ ?_ ?_ (fun hd => by simp [hsect₂, hdata] at hd), hboth, hsect₂, by rw [halloc₂, halloc]⟩
      · intro j hj
        rw [indexAt_section _ _ hj, indexAt_section _ _ hj, hsect₂]
        simp only [CowSection.entry, hdata, if_true, hm]
        rw [diskWord, hfile₂]
        exact hdisk j (by omega) (by omega)
      · intro m' hm'
        rw [hsect₂] at hm'
        cases hm'
      · intro _ _
        rw [hfile₂]
        exact (hend (by omega)).trans' (by omega)
    · exact fun _ _ (h : False) => h.elim
  · rintro e w₁ ⟨he, hlocal, halloc, hsect⟩
    refine ⟨he, .of_local hwf hlocal hi ?_ ?_ ?_ (fun hd => by simp [hsect, hdata] at hd)⟩
    · intro j hj
      rw [indexAt_section _ _ hj, indexAt_section _ _ hj, hsect]
      simp only [CowSection.entry, hm]
    · intro m' _
      rw [hsect]
      exact hdata
    · intro _ hm'
      rw [hsect, hm] at hm'
      cases hm'

theorem resetUsage_wp {E : Err → World → Prop} (hwf : Wf w) (hi : i < w.cm.totalSects) :
    wp (resetUsage i) w
      (fun _ w' => Same w w' ∧ Local i w w' ∧ w'.cm.sect i = { w.cm.sect i with usage := 0 } ∧
        w'.cm.allocatedSects = w.cm.allocatedSects) E := by
  rw [resetUsage, wp_bind, wp_getSect hwf.live, wp_setSect hwf.live]
  have hlocal : Local i w { w with cm := w.cm.putSect i { w.cm.sect i with usage := 0 } } :=
    .of_put hwf.live _ _ _
  have hsect := (sect_putSect hwf.live i i { w.cm.sect i with usage := 0 }).trans (if_pos rfl)
  refine ⟨.of_local hwf hlocal hi ?_ ?_ ?_ (fun hd => ⟨by rw [hsect] at hd; exact hd, rfl⟩),
    hlocal, hsect, rfl⟩
  · intro j hj
    rw [indexAt_section _ _ hj, indexAt_section _ _ hj, hsect]
    rfl
  · intro m hm
    rw [hsect] at hm ⊢
    exact hwf.cached i m hm
  · intro hd hm
    rw [hsect] at hd hm
    exact hwf.stored i hi hd hm

theorem syncSection_wp (thresh : Nat) (hwf : Wf w) (hi : i < w.cm.totalSects) :
    wp (syncSection 12 thresh i) w
      (fun _ w' => Same w w' ∧ Local i w w' ∧
        w'.cm.sect i = { w.cm.sect i with
          usage := 0
          mappings := if thresh = 0 ∨ (w.cm.sect i).usage ≤ thresh then none
            else (w.cm.sect i).mappings })
      (fun _ w' => Excused w ∧ Same w w') := by
  rw [syncSection, wp_bind, wp_getSect hwf.live, wp_bind, wp_ite]
  split
  next hevict =>
    apply wp_mono (evictSection_wp hwf hi hevict.1)
    · rintro _ w₁ ⟨hsame, hlocal, hsect, -⟩
      apply wp_mono (resetUsage_wp hsame.wf (by rw [hsame.totalSects]; exact hi))
      · rintro _ w₂ ⟨hsame₂, hlocal₂, hsect₂, -⟩
        refine ⟨hsame.trans hsame₂, hlocal.trans hlocal₂, ?_⟩
        rw [hsect₂, hsect, if_pos hevict.2]
      · exact fun _ _ (h : False) => h.elim
    · exact fun _ _ h => h
  next hkeep =>
    rw [wp_pure]
    apply wp_mono (resetUsage_wp hwf hi)
    · rintro _ w₁ ⟨hsame, hlocal, hsect, -⟩
      refine ⟨hsame, hlocal, ?_⟩
      rw [hsect]
      split
      next ht =>
        have hnone : ¬ (w.cm.sect i).mappings.isSome = true := fun h => hkeep ⟨h, ht⟩
        simpa using hnone
      next => rfl
    · exact fun _ _ (h : False) => h.elim

/-- The loop does not change the index, and with no threshold leaves no section in memory. -/
theorem syncSections_wp (thresh n i : Nat) (hwf : Wf w) (hn : i + n ≤ w.cm.totalSects) :
    wp (syncSections 12 thresh n i) w
      (fun _ w' => Same w w' ∧
        (∀ j, (w'.cm.sect j).hasData = (w.cm.sect j).hasData) ∧
        (∀ j, j < i → w'.cm.sect j = w.cm.sect j) ∧
        (thresh = 0 → ∀ j, i ≤ j → j < i + n → (w'.cm.sect j).mappings = none))
      (fun _ w' => Excused w ∧ Same w w') := by
  induction n generalizing i w with
  | zero =>
      rw [syncSections, wp_pure]
      exact ⟨.refl hwf, fun _ => rfl, fun _ _ => rfl, fun _ j h h' => by omega⟩
  | succ n ih =>
      have hi : i < w.cm.totalSects := by omega
      simp only [syncSections, wp_bind, wp_get, wp_ite, wp_pure]
      split
      next hstop =>
        exact ⟨.refl hwf, fun _ => trivial, fun _ _ => trivial, fun h => (hstop.1 h).elim⟩
      next hgo =>
        apply wp_mono (syncSection_wp thresh hwf hi)
        · rintro _ w₁ ⟨hsame, hlocal, hsect⟩
          apply wp_mono (ih (i + 1) hsame.wf (by rw [hsame.totalSects]; omega))
          · rintro _ w₂ ⟨hsame₂, hdata₂, hlow₂, hnone₂⟩
            refine ⟨hsame.trans hsame₂, ?_, ?_, ?_⟩
            · intro j
              rw [hdata₂ j]
              by_cases hj : j = i
              · rw [hj, hsect]
              · rw [hlocal.other j hj]
            · intro j hj
              rw [hlow₂ j (by omega), hlocal.other j (by omega)]
            · intro ht j hj hj'
              by_cases hji : j = i
              · rw [hji, hlow₂ i (by omega), hsect]
                exact if_pos (.inl ht)
              · exact hnone₂ ht j (by omega) (by omega)
          · rintro e w₂ ⟨he, hsame₂⟩
            exact ⟨hsame.excused he, hsame.trans hsame₂⟩
        · exact fun _ _ h => h

theorem cowCleanupMappings_wp (hwf : Wf w) :
    wp (cowCleanupMappings 12) w (fun _ w' => Same w w') (fun _ w' => Excused w ∧ Same w w') := by
  have hlive : w.cm.sects.isNone = false := by
    rw [Option.isNone_eq_false_iff]
    exact hwf.live
  simp only [cowCleanupMappings, cowSyncAndFreeSections, wp_bind, wp_get, wp_ite, hlive,
    Bool.false_eq_true, if_false, wp_pure]
  apply wp_mono (syncSections_wp _ _ 0 hwf (by omega))
  · exact fun _ _ h => h.1
  · exact fun _ _ h => h

end ElastioSnap.Cow.Cleanup
