import ElastioSnap.Cow.Cleanup

namespace ElastioSnap.Cow.Sweep

open Lib.Bytes Lib.Outcome Manager FileIo Section Cleanup

variable {ps i j n thresh : Nat} {w w' : World} {cm cm' : CowManager} {p q : CowSection → Bool}

def isCached (s : CowSection) : Bool := s.mappings.isSome

/-- The number of the sections that are in memory. -/
def cachedSects (cm : CowManager) : Nat := countSects cm isCached cm.totalSects

theorem countSects_congr (h : ∀ j, j < n → p (cm'.sect j) = p (cm.sect j)) :
    countSects cm' p n = countSects cm p n := by
  induction n with
  | zero => rfl
  | succ n ih =>
      rw [countSects, countSects, ih fun j hj => h j (by omega), h n (by omega)]

theorem countSects_le (h : ∀ j, j < n → p (cm.sect j) = true → q (cm.sect j) = true) :
    countSects cm p n ≤ countSects cm q n := by
  induction n with
  | zero => exact Nat.le_refl _
  | succ n ih =>
      have hn := ih fun j hj => h j (by omega)
      rw [countSects, countSects]
      split
      next hp =>
        rw [if_pos (h n (by omega) hp)]
        omega
      next => split <;> omega

theorem countSects_only (h : ∀ j, j < n → p (cm.sect j) = true → j = i) : countSects cm p n ≤ 1 := by
  induction n with
  | zero => exact Nat.zero_le _
  | succ n ih =>
      rw [countSects]
      split
      next hp =>
        have hnone : countSects cm p n = 0 := by
          have hlow : countSects cm p n ≤ countSects cm (fun _ => false) n := countSects_le fun j hj hpj => by
            have h₁ := h j (by omega) hpj
            have h₂ := h n (by omega) hp
            omega
          have hzero : ∀ m, countSects cm (fun _ => false) m = 0 := by
            intro m
            induction m with
            | zero => rfl
            | succ m ih => exact ih
          rw [hzero] at hlow
          omega
        omega
      next => exact ih fun j hj => h j (by omega)

theorem countSects_mono (cm : CowManager) (p : CowSection → Bool) (h : i ≤ n) : countSects cm p i ≤ countSects cm p n := by
  induction n with
  | zero => rw [Nat.le_zero.mp h]
  | succ n ih =>
      by_cases hi : i = n + 1
      · rw [hi]
      · have hn := ih (by omega)
        rw [countSects]
        split <;> omega

/-- The counts of two managers that differ in one section. -/
theorem countSects_one (h : ∀ j, j ≠ i → cm'.sect j = cm.sect j) (hi : i < n) :
    countSects cm' p n + (if p (cm.sect i) then 1 else 0) = countSects cm p n + if p (cm'.sect i) then 1 else 0 := by
  induction n with
  | zero => omega
  | succ n ih =>
      rw [countSects, countSects]
      by_cases hin : i = n
      · subst hin
        have hlow : countSects cm' p i = countSects cm p i :=
          countSects_congr fun j hj => by rw [h j (by omega)]
        rw [hlow]
        split <;> split <;> omega
      · have hn := ih (by omega)
        rw [h n fun he => hin he.symm]
        by_cases hp : p (cm.sect n) = true
        · rw [if_pos hp, if_pos hp]
          omega
        · rw [if_neg hp, if_neg hp]
          exact hn

section Transfers

variable {off len fuel left offset done k : Nat} {buf : Nat → UInt8}

-- a transfer leaves the manager alone

theorem keeps_tick : Preserves World.cm tick := fun _ => wp_tick rfl fun _ _ => rfl

theorem keeps_alloc : Preserves World.cm alloc := fun _ => wp_alloc rfl fun _ _ => rfl

theorem keeps_cowExtents : Preserves World.cm cowExtents :=
  preserves_get.bind fun w => by
    cases w.extents with
    | none => exact preserves_throw
    | some exts => exact preserves_pure

theorem keeps_fileWriteBlock : Preserves World.cm (fileWriteBlock buf fuel left offset done) := by
  induction fuel generalizing left offset done with
  | zero => exact preserves_pure
  | succ fuel ih =>
      rw [fileWriteBlock]
      refine keeps_cowExtents.bind fun exts => ?_
      split
      · exact preserves_throw
      · refine keeps_alloc.bind fun _ => keeps_alloc.bind fun _ => keeps_tick.bind fun _ =>
          (preserves_modify ?_).bind fun _ => preserves_pure.ite ih
        exact fun _ => rfl

theorem keeps_fileReadBlock : Preserves World.cm (fileReadBlock buf fuel left offset done) := by
  induction fuel generalizing buf left offset done with
  | zero => exact preserves_pure
  | succ fuel ih =>
      rw [fileReadBlock]
      refine keeps_cowExtents.bind fun exts => ?_
      split
      · exact preserves_throw
      · exact keeps_alloc.bind fun _ => keeps_alloc.bind fun _ => keeps_tick.bind fun _ =>
          preserves_get.bind fun _ => preserves_pure.ite ih

theorem keeps_fileWrite : Preserves World.cm (fileWrite off len buf) := by
  have hvfs : Preserves World.cm (vfsWrite off len buf) := by
    intro w
    unfold wp vfsWrite
    by_cases h : 2 ^ 63 ≤ off + len
    · rw [if_pos h]
    · rw [if_neg h]
      cases w.env.fault w.clock <;> rfl
  exact preserves_get.bind fun _ => hvfs.ite keeps_fileWriteBlock

theorem keeps_fileRead : Preserves World.cm (fileRead off len) :=
  preserves_get.bind fun _ =>
    (keeps_tick.bind fun _ => preserves_get.bind fun _ => preserves_pure.ite preserves_throw).ite keeps_fileReadBlock

theorem keeps_getSect : Preserves World.cm (getSect i) := by
  intro w
  unfold wp getSect
  cases w.cm.sects.isSome <;> rfl

theorem keeps_cowWriteSection : Preserves World.cm (cowWriteSection ps i) := by
  have hchunks : ∀ n k, Preserves World.cm (writeChunks ps i n k) := by
    intro n
    induction n with
    | zero => exact fun _ => preserves_pure
    | succ n ih =>
        intro k
        refine preserves_get.bind fun w => keeps_getSect.bind fun s => ?_
        cases s.mappings with
        | none => exact preserves_throw
        | some m => exact keeps_fileWrite.bind fun _ => ih _
  exact hchunks _ _

end Transfers

/-- The sections that a pass with a threshold writes out and frees, where it comes to them. -/
def evicts (thresh : Nat) (s : CowSection) : Bool := s.mappings.isSome && (thresh == 0 || decide (s.usage ≤ thresh))

/-- Whether the pass comes to a section: without a threshold to all of them, else as long as the cache
is more than half full. -/
def Reaches (cm : CowManager) (thresh j : Nat) : Prop :=
  thresh = 0 ∨ cm.allowedSects / 2 + countSects cm (evicts thresh) j < cm.allocatedSects

instance : Decidable (Reaches cm thresh j) := inferInstanceAs (Decidable (_ ∨ _))

/-- What the pass leaves of a section. -/
def swept (cm : CowManager) (thresh j : Nat) : CowSection :=
  if Reaches cm thresh j then
    { cm.sect j with usage := 0, mappings := if evicts thresh (cm.sect j) then none else (cm.sect j).mappings }
  else cm.sect j

/-- The pass has dealt with the sections below `i`. -/
structure Passed (thresh i : Nat) (cm cm' : CowManager) : Prop where
  rest : cm' = { cm with sects := cm'.sects, allocatedSects := cm'.allocatedSects }
  live : cm'.sects.isSome
  done : ∀ j, j < i → cm'.sect j = swept cm thresh j
  todo : ∀ j, i ≤ j → cm'.sect j = cm.sect j
  freed : cm'.allocatedSects + countSects cm (evicts thresh) i = cm.allocatedSects
  count : cm'.allocatedSects = cachedSects cm'

theorem Passed.refl (hl : cm.sects.isSome) (hcount : cm.allocatedSects = cachedSects cm) : Passed thresh 0 cm cm :=
  ⟨rfl, hl, fun _ h => by omega, fun _ _ => rfl, rfl, hcount⟩

/-- What the whole pass does to the manager: it has come to every section, or to enough of them. -/
structure Swept (thresh : Nat) (cm cm' : CowManager) : Prop where
  rest : cm' = { cm with sects := cm'.sects, allocatedSects := cm'.allocatedSects }
  live : cm'.sects.isSome
  sect : ∀ j, j < cm.totalSects → cm'.sect j = swept cm thresh j
  freed : (thresh ≠ 0 ∧ cm'.allocatedSects ≤ cm.allowedSects / 2 ∧ ∃ k, k ≤ cm.totalSects ∧
      cm'.allocatedSects + countSects cm (evicts thresh) k = cm.allocatedSects) ∨
    cm'.allocatedSects + countSects cm (evicts thresh) cm.totalSects = cm.allocatedSects
  count : cm'.allocatedSects = cachedSects cm'

/-- One round of the pass. -/
theorem syncSection_passed (hp : Passed thresh i cm w.cm) (hi : i < cm.totalSects) (hr : Reaches cm thresh i)
    (hcount : countSects cm (evicts thresh) (i + 1) ≤ cm.allocatedSects) :
    wp (syncSection ps thresh i) w (fun _ w' => Passed thresh (i + 1) cm w'.cm) (fun _ _ => True) := by
  have hsect : w.cm.sect i = cm.sect i := hp.todo i (Nat.le_refl i)
  have hlast : ∀ {cm₁ : CowManager} (x : CowSection), cm₁.sects.isSome →
      cm₁ = { cm with sects := cm₁.sects, allocatedSects := cm₁.allocatedSects } →
      (∀ j, j ≠ i → cm₁.sect j = w.cm.sect j) → x = swept cm thresh i →
      cm₁.allocatedSects + countSects cm (evicts thresh) (i + 1) = cm.allocatedSects →
      cm₁.allocatedSects + (if isCached (cm.sect i) then 1 else 0) =
        w.cm.allocatedSects + (if isCached x then 1 else 0) →
      Passed thresh (i + 1) cm (cm₁.putSect i x) := by
    intro cm₁ x hl hrest hother hx hfreed hcached
    have htotal : cm₁.totalSects = cm.totalSects := by rw [hrest]
    have htotal' : w.cm.totalSects = cm.totalSects := by rw [hp.rest]
    refine ⟨?_, by rw [isSome_putSect]; exact hl, fun j hj => ?_, fun j hj => ?_, hfreed, ?_⟩
    · conv_lhs => rw [CowManager.putSect, hrest]
      rfl
    · rw [sect_putSect hl]
      split
      next h => rw [h, hx]
      next h => rw [hother j h, hp.done j (by omega)]
    · rw [sect_putSect hl, if_neg (by omega), hother j (by omega), hp.todo j (by omega)]
    · have hone : countSects (cm₁.putSect i x) isCached cm.totalSects + _ = countSects w.cm isCached cm.totalSects + _ :=
        countSects_one (fun j hj => by rw [sect_putSect hl, if_neg hj, hother j hj]) hi
      have hold := hp.count
      rw [cachedSects, htotal'] at hold
      rw [sect_putSect hl, if_pos rfl, hsect] at hone
      change cm₁.allocatedSects = countSects (cm₁.putSect i x) isCached cm₁.totalSects
      rw [htotal]
      omega
  rw [syncSection, wp_bind, wp_getSect hp.live, hsect, wp_bind, wp_ite]
  by_cases he : evicts thresh (cm.sect i) = true
  · have hevict : (cm.sect i).mappings.isSome = true ∧ (thresh = 0 ∨ (cm.sect i).usage ≤ thresh) := by
      simpa [evicts] using he
    rw [countSects, if_pos he] at hcount
    rw [if_pos hevict, evictSection, wp_bind]
    refine wp_mono (keeps_cowWriteSection w) ?_ fun _ _ _ => trivial
    intro _ w₁ hcm
    have hl₁ : w₁.cm.sects.isSome := by rw [hcm]; exact hp.live
    refine wp_mono (cowFreeSection_wp (E := fun _ _ => True) hl₁ i) ?_ fun _ _ _ => trivial
    rintro _ w₂ ⟨hlocal, _, hsect₂, halloc⟩
    have hl₂ : w₂.cm.sects.isSome := by rw [hlocal.live]; exact hl₁
    rw [resetUsage, wp_bind, wp_getSect hl₂, wp_setSect hl₂]
    have hmapped : isCached (cm.sect i) = true := hevict.1
    refine hlast _ hl₂ ?_ (fun j hj => by rw [hlocal.other j hj, hcm]) ?_ ?_ ?_
    · rw [hlocal.cm, hcm]
      conv_lhs => rw [hp.rest]
    · rw [hsect₂, hcm, hsect, swept, if_pos hr, if_pos he]
    · have := hp.freed
      rw [halloc, hcm, countSects, if_pos he]
      omega
    · have := hp.freed
      rw [halloc, hcm, hsect₂, if_pos hmapped]
      simp only [isCached, Option.isSome_none, Bool.false_eq_true, if_false]
      omega
  · have hkeep : ¬((cm.sect i).mappings.isSome = true ∧ (thresh = 0 ∨ (cm.sect i).usage ≤ thresh)) := by
      simpa [evicts] using he
    rw [if_neg hkeep, wp_pure, resetUsage, wp_bind, wp_getSect hp.live, wp_setSect hp.live]
    refine hlast _ hp.live hp.rest (fun _ _ => rfl) ?_ ?_ ?_
    · rw [hsect, swept, if_pos hr, if_neg he]
    · rw [countSects, if_neg he]
      exact hp.freed
    · rw [hsect]
      rfl

/-- The pass stops where the cache is half empty. -/
theorem Passed.stop (hp : Passed thresh i cm cm') (hi : i ≤ cm.totalSects) (ht : thresh ≠ 0)
    (hhalf : cm'.allocatedSects ≤ cm.allowedSects / 2) : Swept thresh cm cm' where
  rest := hp.rest
  live := hp.live
  sect j hj := by
    by_cases hji : j < i
    · exact hp.done j hji
    · have hmono := countSects_mono cm (evicts thresh) (Nat.le_of_not_lt hji)
      have hfreed := hp.freed
      have hnot : ¬ Reaches cm thresh j := by
        rw [Reaches]
        omega
      rw [hp.todo j (Nat.le_of_not_lt hji), swept, if_neg hnot]
  freed := .inl ⟨ht, hhalf, i, hi, hp.freed⟩
  count := hp.count

theorem syncSections_swept (n i : Nat) (hn : i + n = cm.totalSects) (hp : Passed thresh i cm w.cm)
    (hcount : countSects cm (evicts thresh) cm.totalSects ≤ cm.allocatedSects) :
    wp (syncSections ps thresh n i) w (fun _ w' => Swept thresh cm w'.cm) (fun _ _ => True) := by
  induction n generalizing i w with
  | zero =>
      have hi : i = cm.totalSects := by omega
      subst hi
      exact ⟨hp.rest, hp.live, hp.done, .inr hp.freed, hp.count⟩
  | succ n ih =>
      have hallowed : w.cm.allowedSects = cm.allowedSects := by rw [hp.rest]
      simp only [syncSections, wp_bind, wp_get, wp_ite, wp_pure, hallowed]
      split
      next hstop => exact hp.stop (by omega) hstop.1 hstop.2
      next hgo =>
        have hr : Reaches cm thresh i := by
          have hfreed := hp.freed
          rw [Reaches]
          omega
        have hle := countSects_mono cm (evicts thresh) (show i + 1 ≤ cm.totalSects by omega)
        refine wp_mono (syncSection_passed hp (by omega) hr (by omega)) ?_ fun _ _ _ => trivial
        exact fun _ w₁ hp₁ => ih (i + 1) (by omega) hp₁

theorem evicts_le_cached : countSects cm (evicts thresh) n ≤ countSects cm isCached n := by
  refine countSects_le fun j _ h => ?_
  rw [evicts, Bool.and_eq_true] at h
  exact h.1

/-- The threshold of a cleanup. -/
def threshold (cm : CowManager) : Nat :=
  searchThresh cm (maxUsage cm cm.totalSects / 2) (maxUsage cm cm.totalSects / 2) (maxUsage cm cm.totalSects / 2)

theorem cowCleanupMappings_swept (hl : w.cm.sects.isSome) (hcount : w.cm.allocatedSects = cachedSects w.cm) :
    wp (cowCleanupMappings ps) w (fun _ w' => Swept (threshold w.cm) w.cm w'.cm) (fun _ _ => True) := by
  have hnone : w.cm.sects.isNone = false := by
    rw [Option.isNone_eq_false_iff]
    exact hl
  simp only [cowCleanupMappings, cowSyncAndFreeSections, wp_bind, wp_get, wp_ite, hnone, Bool.false_eq_true, if_false,
    wp_pure]
  refine wp_mono (syncSections_swept _ 0 (Nat.zero_add _) (.refl hl hcount) ?_) (fun _ _ h => h) fun _ _ h => h
  rw [hcount]
  exact evicts_le_cached

/-- A pass that leaves more than half of the cache has come to every section. -/
theorem Swept.whole (h : Swept thresh cm cm') (hover : cm.allowedSects / 2 < cm'.allocatedSects)
    (hj : j < cm.totalSects) : Reaches cm thresh j := by
  rcases h.freed with ⟨_, hhalf, _⟩ | hall
  · omega
  · have := countSects_mono cm (evicts thresh) (Nat.le_of_lt hj)
    rw [Reaches]
    omega

/-- What such a pass leaves in memory was used, and is counted as unused now. -/
theorem Swept.over (h : Swept thresh cm cm') (hover : cm.allowedSects / 2 < cm'.allocatedSects)
    (hj : j < cm.totalSects) :
    (cm'.sect j).usage = 0 ∧ (isCached (cm'.sect j) = true → isCached (cm.sect j) = true ∧ 0 < (cm.sect j).usage) := by
  have hsect := h.sect j hj
  rw [swept, if_pos (h.whole hover hj)] at hsect
  rw [hsect]
  refine ⟨rfl, fun hc => ?_⟩
  by_cases he : evicts thresh (cm.sect j) = true
  · rw [if_pos he] at hc
    cases hc
  · rw [if_neg he] at hc
    refine ⟨hc, ?_⟩
    simp only [evicts, Bool.and_eq_true, Bool.or_eq_true, beq_iff_eq, decide_eq_true_eq, not_and, not_or] at he
    have := he hc
    omega

theorem Swept.freed_le (h : Swept thresh cm cm') : cm'.allocatedSects ≤ cm.allocatedSects := by
  rcases h.freed with ⟨_, _, k, _, hk⟩ | hk <;> omega

/-- Where only one section was used before the pass, no other is left in memory, unless the cache is
half empty. -/
theorem Swept.lone (h : Swept thresh cm cm') (hover : cm.allowedSects / 2 < cm'.allocatedSects)
    (hcold : ∀ j, j ≠ i → j < cm.totalSects → isCached (cm.sect j) = true → (cm.sect j).usage = 0) :
    cm'.allocatedSects ≤ 1 := by
  have htotal : cm'.totalSects = cm.totalSects := by rw [h.rest]
  rw [h.count, cachedSects, htotal]
  refine countSects_only (i := i) fun j hj hc => ?_
  by_contra hne
  obtain ⟨hcached, hused⟩ := (h.over hover hj).2 hc
  have := hcold j hne hj hcached
  omega

end ElastioSnap.Cow.Sweep
