import ElastioSnap.Cow.Sweep
import Mathlib.Tactic.Ring

namespace ElastioSnap.Cow.Eviction

open Lib.Bytes Lib.Outcome Manager FileIo Section Cleanup Sweep

variable {ps i j n k thresh : Nat} {w w' : World} {cm : CowManager} {m : Nat → UInt64}

/-- The entry of a section in its image on disk. -/
def imageWord (w : World) (i k : Nat) : UInt64 := wordAt w.file.bytes (cowHeaderSize + w.cm.sectSize * i * 8 + 8 * k)

/-- A manager of which the sections are in use, over a file that has room for the index. -/
structure Shape (ps : Nat) (w : World) : Prop where
  live : w.cm.sects.isSome
  sectSize : w.cm.sectSize = cowSectionSize ps
  reach : w.cm.filp = true ∨ cowHeaderSize + w.cm.sectSize * w.cm.totalSects * 8 ≤ w.file.size
  count : w.cm.allocatedSects = cachedSects w.cm

theorem block_eight (h12 : 12 ≤ ps) : 2 ^ ps = 8 * (2 ^ ps / 8) ∧ 2 ^ ps % 512 = 0 ∧ 0 < 2 ^ ps := by
  have h : 2 ^ 9 ∣ 2 ^ ps := Nat.pow_dvd_pow 2 (by omega)
  have hpos : 0 < 2 ^ ps := Nat.two_pow_pos ps
  omega

/-- The chunks of a section are written one behind the other. -/
theorem writeChunks_image (h12 : 12 ≤ ps) (hl : w.cm.sects.isSome) (hs : w.cm.sectSize = 2 ^ ps)
    (hm : (w.cm.sect i).mappings = some m)
    (hreach : w.cm.filp = true ∨ 4096 + 2 ^ ps * i * 8 + 2 ^ ps * (k + n) ≤ w.file.size) :
    wp (writeChunks ps i n k) w
      (fun _ w' => w'.cm = w.cm ∧ Wrote w.file w'.file (4096 + 2 ^ ps * i * 8 + 2 ^ ps * k) (2 ^ ps * n) ∧
        ∀ j, 2 ^ ps / 8 * k ≤ j → j < 2 ^ ps / 8 * (k + n) →
          wordAt w'.file.bytes (4096 + 2 ^ ps * i * 8 + 8 * j) = m j) (fun _ _ => True) := by
  obtain ⟨height, hsector, hpos⟩ := block_eight h12
  induction n generalizing k w with
  | zero => exact ⟨rfl, .refl _ _ _, fun j h h' => (by rw [Nat.add_zero] at h'; omega)⟩
  | succ n ih =>
      have hend : 2 ^ ps * (k + (n + 1)) = 2 ^ ps * k + 2 ^ ps * n + 2 ^ ps := by ring
      have hnext : 2 ^ ps * (k + 1) = 2 ^ ps * k + 2 ^ ps := Nat.mul_succ _ _
      have hlen : 2 ^ ps * (n + 1) = 2 ^ ps * n + 2 ^ ps := Nat.mul_succ _ _
      have hword : 2 ^ ps / 8 * (k + 1) = 2 ^ ps / 8 * k + 2 ^ ps / 8 := Nat.mul_succ _ _
      have hpage : 2 ^ ps * k = 8 * (2 ^ ps / 8 * k) := by
        conv_lhs => rw [height, Nat.mul_assoc]
      simp only [writeChunks, wp_bind, wp_get, wp_getSect hl, hm]
      have hoff : chunkOffset ps w.cm i k = 4096 + 2 ^ ps * i * 8 + 2 ^ ps * k := by
        rw [chunkOffset, hs]
        rfl
      rw [hoff]
      refine wp_mono (fileWrite_wp _ (cowBlockSize ps) _ fun _ => ⟨hsector, hpos⟩) ?_ fun _ _ _ => trivial
      rintro _ w₁ ⟨hw, hwrote, _, hbuf⟩
      rw [cowBlockSize] at hwrote hbuf
      have hcm : w₁.cm = w.cm := by rw [hw]
      have hbytes := hbuf (hreach.imp_right fun h => by omega)
      have hsize := hwrote.size
      have hreach₁ : w₁.cm.filp = true ∨ 4096 + 2 ^ ps * i * 8 + 2 ^ ps * (k + 1 + n) ≤ w₁.file.size := by
        rw [hcm]
        refine hreach.imp_right fun h => ?_
        rw [show k + 1 + n = k + (n + 1) by omega]
        omega
      refine wp_mono (ih (k := k + 1) (hcm ▸ hl) (hcm ▸ hs) (hcm ▸ hm) hreach₁) ?_ fun _ _ _ => trivial
      rintro _ w₂ ⟨hcm₂, hwrote₂, hrest⟩
      refine ⟨hcm₂.trans hcm, ⟨hsize.trans hwrote₂.size, fun p hp => ?_⟩, fun j hlo hhi => ?_⟩
      · rw [hwrote₂.outside p (by omega), hwrote.outside p (by omega)]
      · by_cases hj : j < 2 ^ ps / 8 * (k + 1)
        · have hsame : wordAt w₂.file.bytes (4096 + 2 ^ ps * i * 8 + 8 * j) =
              wordAt w₁.file.bytes (4096 + 2 ^ ps * i * 8 + 8 * j) :=
            wordAt_congr fun p hp hp' => hwrote₂.outside p (by omega)
          rw [hsame, ← wordAt_packWords m j]
          apply byteWord_congr
          intro b hb
          have h := hbytes (8 * j - 2 ^ ps * k + b) (by omega)
          rw [show 4096 + 2 ^ ps * i * 8 + 2 ^ ps * k + (8 * j - 2 ^ ps * k + b) =
            4096 + 2 ^ ps * i * 8 + 8 * j + b by omega] at h
          rw [h, mappingOffset, cowBlockSize]
          congr 1
          omega
        · exact hrest j (by omega) (by rw [show k + 1 + n = k + (n + 1) by omega]; exact hhi)

/-- What a round makes of one section and of its image. -/
structure Round (ps i : Nat) (w w' : World) : Prop where
  cm : w'.cm = { w.cm with sects := w'.cm.sects, allocatedSects := w'.cm.allocatedSects }
  live : w'.cm.sects.isSome
  other : ∀ j, j ≠ i → w'.cm.sect j = w.cm.sect j
  file : Wrote w.file w'.file (4096 + 2 ^ ps * i * 8) (2 ^ ps * 8)
  image : ∀ m, (w.cm.sect i).mappings = some m → (w'.cm.sect i).mappings = none →
    ∀ k, k < 2 ^ ps → wordAt w'.file.bytes (4096 + 2 ^ ps * i * 8 + 8 * k) = m k

theorem syncSection_round (h12 : 12 ≤ ps) (hl : w.cm.sects.isSome) (hs : w.cm.sectSize = 2 ^ ps)
    (hreach : w.cm.filp = true ∨ 4096 + 2 ^ ps * (i + 1) * 8 ≤ w.file.size) :
    wp (syncSection ps thresh i) w (fun _ w' => Round ps i w w') (fun _ _ => True) := by
  have hpage : 2 ^ ps * (i + 1) * 8 = 2 ^ ps * i * 8 + 2 ^ ps * 8 := by ring
  -- the image is written, if at all, before the usage is reset
  have hreset : ∀ {v : World}, v.cm.sects.isSome →
      v.cm = { w.cm with sects := v.cm.sects, allocatedSects := v.cm.allocatedSects } →
      (∀ j, j ≠ i → v.cm.sect j = w.cm.sect j) → Wrote w.file v.file (4096 + 2 ^ ps * i * 8) (2 ^ ps * 8) →
      (∀ m, (w.cm.sect i).mappings = some m → (v.cm.sect i).mappings = none →
        ∀ k, k < 2 ^ ps → wordAt v.file.bytes (4096 + 2 ^ ps * i * 8 + 8 * k) = m k) →
      wp (resetUsage i) v (fun _ w' => Round ps i w w') (fun _ _ => True) := by
    intro v hv hcm hother hfile himage
    rw [resetUsage, wp_bind, wp_getSect hv, wp_setSect hv]
    refine ⟨?_, by rw [isSome_putSect]; exact hv, fun j hj => ?_, hfile, fun m hm hnone => himage m hm ?_⟩
    · conv_lhs => rw [CowManager.putSect, hcm]
      rfl
    · rw [sect_putSect hv, if_neg hj, hother j hj]
    · rw [sect_putSect hv, if_pos rfl] at hnone
      exact hnone
  rw [syncSection, wp_bind, wp_getSect hl, wp_bind, wp_ite]
  split
  next hevict =>
    obtain ⟨m, hm⟩ := Option.isSome_iff_exists.mp hevict.1
    have hchunks : sectSizeBytes ps / cowBlockSize ps = 8 :=
      Nat.mul_div_cancel_left 8 (Nat.two_pow_pos ps)
    rw [evictSection, wp_bind, cowWriteSection, hchunks]
    refine wp_mono (writeChunks_image h12 hl hs hm (k := 0) (hreach.imp_right fun h => by omega)) ?_
      fun _ _ _ => trivial
    rintro _ w₁ ⟨hcm, hwrote, himage⟩
    have hl₁ : w₁.cm.sects.isSome := hcm ▸ hl
    refine wp_mono (cowFreeSection_wp (E := fun _ _ => True) hl₁ i) ?_ fun _ _ _ => trivial
    rintro _ w₂ ⟨hlocal, hfile, hsect, _⟩
    refine hreset (by rw [hlocal.live]; exact hl₁) ?_ (fun j hj => by rw [hlocal.other j hj, hcm]) ?_ ?_
    · rw [hlocal.cm, hcm]
    · rw [hfile]
      exact hwrote
    · intro m' hm' _ k hk
      rw [hm] at hm'
      cases hm'
      obtain ⟨height, _⟩ := block_eight h12
      rw [hfile]
      exact himage k (by omega) (by omega)
  next hkeep =>
    refine hreset hl rfl (fun _ _ => rfl) (.refl _ _ _) fun m hm hnone => ?_
    rw [hm] at hnone
    cases hnone

/-- A pass leaves the images of the sections that it frees, and touches none before the first. -/
theorem syncSections_images (h12 : 12 ≤ ps) (n i : Nat) (hl : w.cm.sects.isSome) (hs : w.cm.sectSize = 2 ^ ps)
    (hreach : w.cm.filp = true ∨ 4096 + 2 ^ ps * (i + n) * 8 ≤ w.file.size) :
    wp (syncSections ps thresh n i) w
      (fun _ w' => (∀ j, j < i → w'.cm.sect j = w.cm.sect j) ∧
        (∀ p, p < 4096 + 2 ^ ps * i * 8 → w'.file.bytes p = w.file.bytes p) ∧
        ∀ j m, i ≤ j → j < i + n → (w.cm.sect j).mappings = some m → (w'.cm.sect j).mappings = none →
          ∀ k, k < 2 ^ ps → wordAt w'.file.bytes (4096 + 2 ^ ps * j * 8 + 8 * k) = m k) (fun _ _ => True) := by
  induction n generalizing i w with
  | zero => exact ⟨fun _ _ => rfl, fun _ _ => rfl, fun j m h h' => by omega⟩
  | succ n ih =>
      have hpage : 2 ^ ps * (i + 1) * 8 = 2 ^ ps * i * 8 + 2 ^ ps * 8 := by ring
      have hend : 2 ^ ps * (i + (n + 1)) * 8 = 2 ^ ps * (i + 1) * 8 + 2 ^ ps * n * 8 := by ring
      have hend' : 2 ^ ps * (i + 1 + n) * 8 = 2 ^ ps * (i + 1) * 8 + 2 ^ ps * n * 8 := by ring
      simp only [syncSections, wp_bind, wp_get, wp_ite, wp_pure]
      split
      next =>
        refine ⟨fun _ _ => trivial, fun _ _ => trivial, fun j m _ _ hm hnone => ?_⟩
        rw [hm] at hnone
        cases hnone
      next =>
        refine wp_mono (syncSection_round h12 hl hs (hreach.imp_right fun h => by omega)) ?_ fun _ _ _ => trivial
        intro _ w₁ hround
        have hsize := hround.file.size
        refine wp_mono (ih (i + 1) hround.live (by rw [hround.cm]; exact hs) ?_) ?_ fun _ _ _ => trivial
        · rw [hround.cm]
          exact hreach.imp_right fun h => by omega
        · rintro _ w₂ ⟨hlow, hbytes, himages⟩
          refine ⟨fun j hj => ?_, fun p hp => ?_, fun j m hij hjn hm hnone k hk => ?_⟩
          · rw [hlow j (by omega), hround.other j (by omega)]
          · rw [hbytes p (by omega), hround.file.outside p (by omega)]
          · by_cases hj : j = i
            · subst hj
              rw [hlow j (by omega)] at hnone
              rw [← hround.image m hm hnone k hk]
              exact wordAt_congr fun p _ hp => hbytes p (by omega)
            · rw [← hround.other j hj] at hm
              exact himages j m (by omega) (by omega) hm hnone k hk

/-- A section was in memory, and is not any more. -/
def Evicted (w w' : World) (i : Nat) (m : Nat → UInt64) : Prop :=
  (w.cm.sect i).mappings = some m ∧ (w'.cm.sect i).mappings = none

/-- What a cleanup is for: the lesser-used half of the sections is written out and dropped, and all are
counted as unused. -/
structure Designed (w w' : World) : Prop where
  half : w'.cm.allocatedSects ≤ w'.cm.allowedSects / 2
  order : ∀ i j m, i < w.cm.totalSects → j < w.cm.totalSects → Evicted w w' i m → isCached (w'.cm.sect j) = true →
    (w.cm.sect i).usage ≤ (w.cm.sect j).usage
  unused : ∀ i, i < w.cm.totalSects → (w'.cm.sect i).usage = 0
  image : ∀ i m, i < w.cm.totalSects → Evicted w w' i m → ∀ k, k < w.cm.sectSize → imageWord w' i k = m k

/-- Enough sections are used no more than the approximate median says, those to which the pass does not come
any more are unused, and none of them is in memory where a section that was used is dropped. -/
structure Evenly (cm : CowManager) : Prop where
  enough : cm.allocatedSects ≤ cm.allowedSects / 2 + countSects cm (evicts (threshold cm)) cm.totalSects
  rest : ∀ j, j < cm.totalSects → ¬ Reaches cm (threshold cm) j → (cm.sect j).usage = 0
  order : ∀ i j, i < cm.totalSects → j < cm.totalSects → Reaches cm (threshold cm) i →
    evicts (threshold cm) (cm.sect i) = true → ¬ Reaches cm (threshold cm) j → isCached (cm.sect j) = true →
    (cm.sect i).usage = 0

theorem Evicted.of_swept {w w' : World} (h : Swept thresh w.cm w'.cm) (hi : i < w.cm.totalSects)
    (he : Evicted w w' i m) : Reaches w.cm thresh i ∧ evicts thresh (w.cm.sect i) = true := by
  have hsect := h.sect i hi
  obtain ⟨hm, hnone⟩ := he
  rw [swept] at hsect
  split at hsect
  next hr =>
    refine ⟨hr, ?_⟩
    by_contra hkeep
    rw [hsect, if_neg hkeep, hm] at hnone
    cases hnone
  next =>
    rw [hsect, hm] at hnone
    cases hnone

/-- A cleanup that succeeds does what it is for exactly if the counts of usage are even enough. -/
theorem cleanup_as_designed_iff (ps : Nat) (h12 : 12 ≤ ps) (w w' : World) (hs : Shape ps w)
    (hrun : cowCleanupMappings ps w = .ok () w') : Designed w w' ↔ Evenly w.cm := by
  have h : Swept (threshold w.cm) w.cm w'.cm :=
    wp_ok (Q := fun _ v => Swept (threshold w.cm) w.cm v.cm) (cowCleanupMappings_swept hs.live hs.count) hrun
  have hallowed : w'.cm.allowedSects = w.cm.allowedSects := by rw [h.rest]
  constructor
  · intro hd
    have hrest : ∀ j, j < w.cm.totalSects → ¬ Reaches w.cm (threshold w.cm) j → (w.cm.sect j).usage = 0 := by
      intro j hj hr
      have hsect := h.sect j hj
      rw [swept, if_neg hr] at hsect
      rw [← hsect]
      exact hd.unused j hj
    refine ⟨?_, hrest, fun i j hi hj hr he hrj hc => ?_⟩
    · have hhalf := hd.half
      rw [hallowed] at hhalf
      rcases h.freed with ⟨_, _, k, hk, hfreed⟩ | hfreed
      · have := countSects_mono w.cm (evicts (threshold w.cm)) hk
        omega
      · omega
    · obtain ⟨m, hm⟩ := Option.isSome_iff_exists.mp (Bool.and_eq_true_iff.mp he).1
      have hi' := h.sect i hi
      have hj' := h.sect j hj
      rw [swept, if_pos hr, if_pos he] at hi'
      rw [swept, if_neg hrj] at hj'
      have hle := hd.order i j m hi hj ⟨hm, by rw [hi']⟩ (by rw [hj']; exact hc)
      rw [hrest j hj hrj] at hle
      omega
  · intro he
    refine ⟨?_, fun i j m hi hj hev hc => ?_, fun i hi => ?_, fun i m hi hev k hk => ?_⟩
    · rw [hallowed]
      have := he.enough
      rcases h.freed with ⟨_, hhalf, _⟩ | hfreed
      · exact hhalf
      · omega
    · obtain ⟨hr, hevicts⟩ := hev.of_swept h hi
      have hj' := h.sect j hj
      by_cases hrj : Reaches w.cm (threshold w.cm) j
      · -- passed over, the section was used more than the threshold
        rw [swept, if_pos hrj] at hj'
        rw [hj'] at hc
        by_cases hej : evicts (threshold w.cm) (w.cm.sect j) = true
        · rw [if_pos hej] at hc
          cases hc
        · rw [if_neg hej] at hc
          have hcached : (w.cm.sect j).mappings.isSome = true := hc
          simp only [evicts, hcached, Bool.true_and, Bool.or_eq_true, beq_iff_eq, decide_eq_true_eq, not_or] at hej
          simp only [evicts, Bool.and_eq_true, Bool.or_eq_true, beq_iff_eq, decide_eq_true_eq] at hevicts
          omega
      · rw [swept, if_neg hrj] at hj'
        rw [hj'] at hc
        rw [he.order i j hi hj hr hevicts hrj hc]
        exact Nat.zero_le _
    · have hsect := h.sect i hi
      rw [swept] at hsect
      split at hsect
      next => rw [hsect]
      next hr =>
        rw [hsect]
        exact he.rest i hi hr
    · have hnone : w.cm.sects.isNone = false := by
        rw [Option.isNone_eq_false_iff]
        exact hs.live
      have himages : wp (cowCleanupMappings ps) w (fun _ w' => w'.cm.sectSize = w.cm.sectSize ∧ ∀ j m,
          j < w.cm.totalSects → Evicted w w' j m →
          ∀ k, k < 2 ^ ps → wordAt w'.file.bytes (4096 + 2 ^ ps * j * 8 + 8 * k) = m k) (fun _ _ => True) := by
        simp only [cowCleanupMappings, cowSyncAndFreeSections, wp_bind, wp_get, wp_ite, hnone, Bool.false_eq_true,
          if_false, wp_pure]
        have hreach := hs.reach
        rw [hs.sectSize] at hreach
        refine wp_mono (wp_and (syncSections_images h12 _ 0 hs.live hs.sectSize (by rw [Nat.zero_add]; exact hreach))
          (syncSections_swept _ 0 (Nat.zero_add _) (.refl hs.live hs.count) (by rw [hs.count]; exact evicts_le_cached)))
          ?_ fun _ _ _ => trivial
        intro _ w₁ ⟨⟨_, _, himage⟩, hswept⟩
        refine ⟨by rw [hswept.rest], fun j m hj hev => himage j m (Nat.zero_le _) (by omega) hev.1 hev.2⟩
      obtain ⟨hsize, himage⟩ := wp_ok himages hrun
      rw [imageWord, hsize, hs.sectSize]
      rw [hs.sectSize] at hk
      exact himage i m hi hev k hk

/-- A manager with two sections, each in memory and used so many times, where one is allowed. -/
def twoCached (usage : Nat) : World :=
  { cm := { CowManager.zero with
      filp := true
      dataOffset := 69632
      sectSize := 4096
      allocatedSects := 2
      totalSects := 2
      allowedSects := 1
      sects := some fun _ => ⟨true, usage, some fun _ => 7⟩ }
    file := .empty
    linked := true
    extents := none
    env := ⟨fun _ => none, fun _ => 0, fun _ _ => 0, fun _ => []⟩
    clock := 0 }

def afterCleanup (w : World) : World :=
  match cowCleanupMappings 12 w with
  | .ok _ w' | .error _ w' => w'

theorem twoCached_shape {usage : Nat} : Shape 12 (twoCached usage) := ⟨rfl, rfl, .inl rfl, rfl⟩

theorem twoCached_wf {usage : Nat} : Wf (twoCached usage) where
  live := rfl
  reach := .inl rfl
  sectSize := rfl
  dataOffset := by
    change 69632 = 4096 + 32768 * 2
    decide
  small := by
    change 4096 + 32768 * 2 < 2 ^ 63
    decide
  cached _ _ _ := rfl
  stored _ _ _ h := by cases (show some (fun _ => (7 : UInt64)) = none from h)

theorem cleanup_succeeds (hwf : Wf w) (hf : w.cm.filp = true) (he : w.env.Faultless) :
    ∃ w', cowCleanupMappings 12 w = .ok () w' := by
  have hrun : wp (cowCleanupMappings 12) w (fun _ _ => True) (fun _ _ => False) :=
    wp_mono (cowCleanupMappings_wp hwf) (fun _ _ _ => trivial) fun _ _ h => h.1 hf he
  obtain ⟨_, w', hok, _⟩ := wp_total hrun
  exact ⟨w', hok⟩

theorem cleanup_as_designed_once :
    ∃ w', cowCleanupMappings 12 (twoCached 1) = .ok () w' ∧ Designed (twoCached 1) w' := by
  obtain ⟨w', hok⟩ := cleanup_succeeds (@twoCached_wf 1) rfl fun _ => rfl
  refine ⟨w', hok, (cleanup_as_designed_iff 12 (Nat.le_refl _) _ _ twoCached_shape hok).mpr ⟨by decide, ?_, ?_⟩⟩
  · exact fun j _ h => absurd (.inl (by decide)) h
  · exact fun i j _ _ _ _ h _ => absurd (.inl (by decide)) h

/-- Sections that are all used more than half as often as the most used one stay where they are. -/
theorem cleanup_evicts_nothing : ¬ ∀ (ps : Nat) (w w' : World), 12 ≤ ps → Shape ps w →
    w.cm.allowedSects < w.cm.allocatedSects → cowCleanupMappings ps w = .ok () w' → Designed w w' := by
  intro h
  have hd := h 12 (twoCached 2) (afterCleanup (twoCached 2)) (Nat.le_refl _) twoCached_shape (by decide) rfl
  have hhalf := hd.half
  revert hhalf
  decide

end ElastioSnap.Cow.Eviction
