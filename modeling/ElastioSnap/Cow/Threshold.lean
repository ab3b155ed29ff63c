import ElastioSnap.Cow.Sweep

namespace ElastioSnap.Cow.Threshold

open Lib.Bytes Lib.Outcome Manager FileIo Section Cleanup Sweep

variable {ps i j n g t : Nat} {w w' : World} {cm : CowManager}

def less (cm : CowManager) (t : Nat) : Nat := countSects cm (fun s => decide (s.usage ≤ t)) cm.totalSects

def greater (cm : CowManager) (t : Nat) : Nat := countSects cm (fun s => !decide (s.usage ≤ t)) cm.totalSects

/-- The search has gone through `n` rounds, and has come to this granularity and this threshold. -/
inductive Searches (cm : CowManager) : Nat → Nat → Nat → Prop
  | start : Searches cm 0 (maxUsage cm cm.totalSects / 2) (maxUsage cm cm.totalSects / 2)
  | up {n g t : Nat} (h : Searches cm n g t) (hg : 0 < g) (hc : greater cm t > less cm t) :
      Searches cm (n + 1) (g / 2) (t + g / 2)
  | down {n g t : Nat} (h : Searches cm n g t) (hg : 0 < g) (hc : greater cm t < less cm t) :
      Searches cm (n + 1) (g / 2) (wsub t (g / 2))

/-- The search ends at this granularity and this threshold. -/
def Ends (cm : CowManager) (g t : Nat) : Prop := g = 0 ∨ greater cm t = less cm t

/-- The steps that are left do not take the threshold down to zero, nor up to the maximum. -/
structure Centred (cm : CowManager) (n g t : Nat) : Prop where
  rounds : n + g ≤ maxUsage cm cm.totalSects / 2
  low : g ≤ t
  pos : 0 < t
  high : t + g ≤ maxUsage cm cm.totalSects
  lt : t < maxUsage cm cm.totalSects

theorem maxUsage_lt (h : ∀ i, i < n → (cm.sect i).usage < 2 ^ 64) : maxUsage cm n < 2 ^ 64 := by
  induction n with
  | zero => exact Nat.two_pow_pos 64
  | succ n ih =>
      rw [maxUsage]
      split
      · exact h n (Nat.lt_succ_self n)
      · exact ih fun i hi => h i (Nat.lt_succ_of_lt hi)

theorem centred_start (hmax : 2 ≤ maxUsage cm cm.totalSects) :
    Centred cm 0 (maxUsage cm cm.totalSects / 2) (maxUsage cm cm.totalSects / 2) where
  rounds := (Nat.zero_add _).le
  low := le_rfl
  pos := Nat.div_pos hmax Nat.two_pos
  high := by omega
  lt := Nat.div_lt_self (by omega) Nat.one_lt_two

theorem Centred.up (h : Centred cm n g t) (hg : 0 < g) : Centred cm (n + 1) (g / 2) (t + g / 2) := by
  obtain ⟨hrounds, hlow, hpos, hhigh, hlt⟩ := h
  constructor <;> omega

/-- A step down is no larger than the threshold, so that the difference does not wrap. -/
theorem Centred.sub (h : Centred cm n g t) (hword : maxUsage cm cm.totalSects < 2 ^ 64) :
    wsub t (g / 2) = t - g / 2 := by
  have hlow := h.low
  have hlt := h.lt
  exact wsub_eq (by omega) (by omega)

theorem Centred.down (h : Centred cm n g t) (hword : maxUsage cm cm.totalSects < 2 ^ 64) (hg : 0 < g) :
    Centred cm (n + 1) (g / 2) (wsub t (g / 2)) := by
  rw [h.sub hword]
  obtain ⟨hrounds, hlow, hpos, hhigh, hlt⟩ := h
  constructor <;> omega

theorem Searches.centred (h : Searches cm n g t) (hmax : 2 ≤ maxUsage cm cm.totalSects)
    (hword : maxUsage cm cm.totalSects < 2 ^ 64) : Centred cm n g t := by
  induction h with
  | start => exact centred_start hmax
  | up _ hg _ ih => exact ih.up hg
  | down _ hg _ ih => exact ih.down hword hg

/-- The search goes on from where it has come to, and ends before the rounds run out. -/
theorem searchThresh_ends {fuel : Nat} (h : Searches cm n g t) (hfuel : g ≤ fuel) :
    ∃ n' g', Searches cm n' g' (searchThresh cm fuel g t) ∧ Ends cm g' (searchThresh cm fuel g t) := by
  induction fuel generalizing n g t with
  | zero => exact ⟨n, g, h, .inl (Nat.le_zero.mp hfuel)⟩
  | succ fuel ih =>
      rw [searchThresh]
      split
      next hg => exact ⟨n, g, h, .inl hg⟩
      next hg =>
        have hpos : 0 < g := Nat.pos_of_ne_zero hg
        have hhalf : g / 2 ≤ fuel := by omega
        dsimp only
        split
        next hc => exact ih (h.up hpos hc) hhalf
        next =>
          split
          next hc => exact ih (h.down hpos hc) hhalf
          next h₁ h₂ => exact ⟨n, g, h, .inr (Nat.le_antisymm (Nat.le_of_not_lt h₁) (Nat.le_of_not_lt h₂))⟩

theorem threshold_ends : ∃ n g, Searches cm n g (threshold cm) ∧ Ends cm g (threshold cm) :=
  searchThresh_ends .start le_rfl

section

/-- A section is left alone while another one is dealt with. -/
theorem preserves_setSect {x : CowSection} (hj : j ≠ i) : Preserves (fun w => w.cm.sect j) (setSect i x) := by
  intro w
  unfold wp setSect
  by_cases hl : w.cm.sects.isSome = true
  · simp only [hl, if_true]
    rw [sect_putSect hl, if_neg hj]
  · simp only [hl]
    rfl

theorem preserves_syncSection {thresh : Nat} (hj : j ≠ i) :
    Preserves (fun w => w.cm.sect j) (syncSection ps thresh i) := by
  have hkeep : ∀ {α : Type} {x : CowM α}, Preserves World.cm x → Preserves (fun w => w.cm.sect j) x :=
    fun h => h.comp fun cm => cm.sect j
  have hfree : Preserves (fun w => w.cm.sect j) (cowFreeSection i) :=
    (hkeep keeps_getSect).bind fun _ => (preserves_setSect hj).bind fun _ => preserves_modify fun _ => rfl
  have hevict : Preserves (fun w => w.cm.sect j) (evictSection ps i) :=
    (hkeep keeps_cowWriteSection).bind fun _ => hfree
  exact (hkeep keeps_getSect).bind fun _ => (hevict.ite preserves_pure).bind fun _ =>
    (hkeep keeps_getSect).bind fun _ => preserves_setSect hj

/-- A section that is used more than the threshold stays in memory. -/
theorem syncSection_keeps {thresh : Nat} (ht : thresh ≠ 0) (hu : thresh < (w.cm.sect i).usage) :
    wp (syncSection ps thresh i) w (fun _ w' => (w'.cm.sect i).mappings = (w.cm.sect i).mappings)
      (fun _ w' => (w'.cm.sect i).mappings = (w.cm.sect i).mappings) := by
  rw [syncSection, wp_bind]
  by_cases hl : w.cm.sects.isSome = true
  · rw [wp_getSect hl, wp_bind, if_neg fun h => by omega, wp_pure, resetUsage, wp_bind, wp_getSect hl, wp_setSect hl]
    change ((w.cm.putSect i _).sect i).mappings = _
    rw [sect_putSect hl, if_pos rfl]
  · unfold wp getSect
    simp only [hl]
    rfl

/-- Sections behind the one that the pass has come to are still used as they were. -/
theorem syncSections_keeps {thresh : Nat} (ht : thresh ≠ 0) (hu : j < i ∨ thresh < (w.cm.sect j).usage) :
    wp (syncSections ps thresh n i) w (fun _ w' => (w'.cm.sect j).mappings = (w.cm.sect j).mappings)
      (fun _ w' => (w'.cm.sect j).mappings = (w.cm.sect j).mappings) := by
  induction n generalizing i w with
  | zero => rfl
  | succ n ih =>
      rw [syncSections, wp_bind, wp_get, wp_ite]
      split
      · rfl
      · rw [wp_bind]
        by_cases hj : j = i
        · subst hj
          have husage := hu.resolve_left (Nat.lt_irrefl j)
          refine wp_mono (syncSection_keeps ht husage) (fun _ w₁ h₁ => ?_) fun _ _ h => h
          exact wp_mono (ih (.inl (Nat.lt_succ_self j))) (fun _ _ h => h.trans h₁) fun _ _ h => h.trans h₁
        · refine wp_mono (preserves_syncSection hj w) (fun _ w₁ h₁ => ?_) fun _ _ h =>
            congrArg CowSection.mappings h
          have h₁ : w₁.cm.sect j = w.cm.sect j := h₁
          have hnext : j < i + 1 ∨ thresh < (w₁.cm.sect j).usage := by
            rw [h₁]
            exact hu.imp_left Nat.lt_succ_of_lt
          refine wp_mono (ih hnext) (fun _ _ h => ?_) fun _ _ h => ?_
          · exact h.trans (congrArg CowSection.mappings h₁)
          · exact h.trans (congrArg CowSection.mappings h₁)

/-- A section that is used more than the threshold of the cleanup stays in memory. -/
theorem cleanup_keeps (ht : threshold w.cm ≠ 0) (hu : threshold w.cm < (w.cm.sect j).usage) :
    wp (cowCleanupMappings ps) w (fun _ w' => (w'.cm.sect j).mappings = (w.cm.sect j).mappings)
      (fun _ w' => (w'.cm.sect j).mappings = (w.cm.sect j).mappings) := by
  rw [cowCleanupMappings, wp_bind, wp_get, wp_ite]
  split
  · rfl
  · dsimp only
    rw [cowSyncAndFreeSections, wp_bind, wp_get, wp_bind]
    exact wp_mono (syncSections_keeps ht (.inr hu)) (fun _ _ h => h) fun _ _ h => h

end

/-- The search of a cleanup. -/
structure Sound (cm : CowManager) : Prop where
  /-- It ends. -/
  ends : ∃ n g, Searches cm n g (threshold cm) ∧ Ends cm g (threshold cm)
  /-- On the way there are no more rounds than half of the maximum, and no difference wraps. -/
  way : ∀ n g t, Searches cm n g t → n ≤ maxUsage cm cm.totalSects / 2 ∧ g / 2 ≤ t ∧ t < 2 ^ 64
  pos : 1 ≤ threshold cm
  lt : threshold cm < maxUsage cm cm.totalSects
  /-- Sections that are used most are not evicted. -/
  most : ∀ ps w j, w.cm = cm → (cm.sect j).usage = maxUsage cm cm.totalSects →
    wp (cowCleanupMappings ps) w (fun _ w' => (w'.cm.sect j).mappings = (cm.sect j).mappings)
      (fun _ w' => (w'.cm.sect j).mappings = (cm.sect j).mappings)

/-- The counters are words. -/
theorem threshold_sound (cm : CowManager) (hword : ∀ i, i < cm.totalSects → (cm.sect i).usage < 2 ^ 64)
    (hmax : 2 ≤ maxUsage cm cm.totalSects) : Sound cm := by
  have hlt := maxUsage_lt hword
  obtain ⟨n, g, hs, hends⟩ := threshold_ends
  have hc := hs.centred hmax hlt
  refine ⟨⟨n, g, hs, hends⟩, fun n g t h => ?_, hc.pos, hc.lt, ?_⟩
  · have hway := h.centred hmax hlt
    obtain ⟨hrounds, hlow, -, -, hless⟩ := hway
    refine ⟨?_, ?_, ?_⟩ <;> omega
  · rintro ps w j rfl hj
    exact cleanup_keeps (Nat.ne_of_gt hc.pos) (hj ▸ hc.lt)

/-- Two sections, of which one is used twice and the other three times. -/
def twoUsed : CowManager :=
  { CowManager.zero with totalSects := 2, sects := some fun i => ⟨true, i + 2, none⟩ }

theorem threshold_sound_two : Sound twoUsed := by
  refine threshold_sound twoUsed (fun i hi => ?_) (by decide)
  have hsmall : i < 2 := hi
  change i + 2 < 2 ^ 64
  omega

end ElastioSnap.Cow.Threshold
