import ElastioSnap.Cow.FileIo

namespace ElastioSnap.Cow.Section

open Lib.Bytes Lib.Outcome Manager FileIo

def cowFreeSection (i : Nat) : CowM Unit := do
  let s ← getSect i
  setSect i { s with mappings := none }
  modifyCm fun cm => { cm with allocatedSects := cm.allocatedSects - 1 }

/-- The pages of a section, or null. -/
def getPages (zero : Bool) : CowM (Option (Nat → UInt64)) := fun w =>
  match w.env.fault w.clock with
  | none => .ok (some (if zero then fun _ => 0 else w.env.junk w.clock)) { w with clock := w.clock + 1 }
  | some _ => .ok none { w with clock := w.clock + 1 }

def cowAllocSection (i : Nat) (zero : Bool) : CowM Unit := do
  let pages ← getPages zero
  let s ← getSect i
  setSect i { s with mappings := pages }
  if pages.isNone then throw (.code .enomem)
  else do
    setSect i { s with mappings := pages, hasData := true }
    modifyCm fun cm => { cm with allocatedSects := cm.allocatedSects + 1 }

def sectSizeBytes (ps : Nat) : Nat := cowSectionSize ps * 8

def mappingOffset (ps k : Nat) : Nat := cowBlockSize ps / 8 * k

def chunkOffset (ps : Nat) (cm : CowManager) (i k : Nat) : Nat :=
  cowHeaderSize + cm.sectSize * i * 8 + cowBlockSize ps * k

def readChunks (ps i : Nat) : Nat → Nat → CowM Unit
  | 0, _ => pure ()
  | n + 1, k => do
      let cm := (← get).cm
      let buf ← fileRead (chunkOffset ps cm i k) (cowBlockSize ps)
      let s ← getSect i
      setSect i { s with
        mappings := s.mappings.map fun m =>
          splice m (mappingOffset ps k) (cowBlockSize ps / 8) (fun j => wordAt buf (8 * j)) }
      readChunks ps i n (k + 1)

def cowLoadSection (ps i : Nat) : CowM Unit :=
  onError
    (do
      cowAllocSection i false
      readChunks ps i (sectSizeBytes ps / cowBlockSize ps) 0)
    (do
      let s ← getSect i
      if s.mappings.isSome then cowFreeSection i else pure ())

def writeChunks (ps i : Nat) : Nat → Nat → CowM Unit
  | 0, _ => pure ()
  | n + 1, k => do
      let cm := (← get).cm
      let s ← getSect i
      match s.mappings with
      | none => throw .oops
      | some m => do
          fileWrite (chunkOffset ps cm i k) (cowBlockSize ps)
            (fun p => packWords m (8 * mappingOffset ps k + p))
          writeChunks ps i n (k + 1)

def cowWriteSection (ps i : Nat) : CowM Unit := writeChunks ps i (sectSizeBytes ps / cowBlockSize ps) 0

/-- The entry of the on-disk index at a block position. -/
def diskWord (w : World) (pos : Nat) : UInt64 := wordAt w.file.bytes (cowHeaderSize + 8 * pos)

/-- The index the manager stands for: what is in memory, else what is on disk, else nothing. -/
def indexAt (w : World) (pos : Nat) : UInt64 :=
  (w.cm.sect (pos / 4096)).entry (pos % 4096) (diskWord w pos)

structure Wf (w : World) : Prop where
  live : w.cm.sects.isSome
  reach : w.cm.filp = true ∨ 4096 + 32768 * w.cm.totalSects ≤ w.file.size
  sectSize : w.cm.sectSize = 4096
  dataOffset : w.cm.dataOffset = 4096 + 32768 * w.cm.totalSects
  small : 4096 + 32768 * w.cm.totalSects < 2 ^ 63
  cached : ∀ i m, (w.cm.sect i).mappings = some m → (w.cm.sect i).hasData = true
  stored : ∀ i, i < w.cm.totalSects → (w.cm.sect i).hasData = true →
    (w.cm.sect i).mappings = none → 4096 + 32768 * (i + 1) ≤ w.file.size

/-- Everything but the sections and the file is as before. -/
structure Kept (w w' : World) : Prop where
  cm : w'.cm = { w.cm with sects := w'.cm.sects, allocatedSects := w'.cm.allocatedSects }
  live : w'.cm.sects.isSome = w.cm.sects.isSome
  linked : w'.linked = w.linked
  extents : w'.extents = w.extents
  env : w'.env = w.env

theorem Kept.refl (w : World) : Kept w w := ⟨rfl, rfl, rfl, rfl, rfl⟩

theorem Kept.filp {w w' : World} (h : Kept w w') : w'.cm.filp = w.cm.filp := by rw [h.cm]

theorem Kept.sectSize {w w' : World} (h : Kept w w') : w'.cm.sectSize = w.cm.sectSize := by rw [h.cm]

theorem Kept.totalSects {w w' : World} (h : Kept w w') : w'.cm.totalSects = w.cm.totalSects := by
  rw [h.cm]

theorem Kept.dataOffset {w w' : World} (h : Kept w w') : w'.cm.dataOffset = w.cm.dataOffset := by
  rw [h.cm]

theorem Kept.currPos {w w' : World} (h : Kept w w') : w'.cm.currPos = w.cm.currPos := by rw [h.cm]

theorem Kept.excused {w w' : World} (h : Kept w w') (he : Excused w') : Excused w := by
  unfold Excused at he ⊢
  rwa [h.filp, h.env] at he

theorem Kept.trans {w w' w'' : World} (h : Kept w w') (h' : Kept w' w'') : Kept w w'' where
  cm := by rw [h'.cm, h.cm]
  live := h'.live.trans h.live
  linked := h'.linked.trans h.linked
  extents := h'.extents.trans h.extents
  env := h'.env.trans h.env

/-- A step on one section and its image on disk. -/
structure Local (i : Nat) (w w' : World) : Prop extends Kept w w' where
  other : ∀ j, j ≠ i → w'.cm.sect j = w.cm.sect j
  file : Wrote w.file w'.file (4096 + 32768 * i) 32768

theorem Local.refl (i : Nat) (w : World) : Local i w w := ⟨.refl w, fun _ _ => rfl, .refl _ _ _⟩

theorem Local.trans {i : Nat} {w w' w'' : World} (h : Local i w w') (h' : Local i w' w'') :
    Local i w w'' :=
  ⟨h.toKept.trans h'.toKept, fun j hj => (h'.other j hj).trans (h.other j hj),
    h.file.trans h'.file le_rfl le_rfl⟩

theorem Local.of_clock (i : Nat) (w : World) (c : Nat) : Local i w { w with clock := c } :=
  ⟨⟨rfl, rfl, rfl, rfl, rfl⟩, fun _ _ => rfl, .refl _ _ _⟩

theorem Local.of_put {i : Nat} {w : World} (hl : w.cm.sects.isSome) (x : CowSection) (n c : Nat) :
    Local i w { w with cm := { w.cm.putSect i x with allocatedSects := n }, clock := c } where
  cm := rfl
  live := isSome_putSect w.cm i x
  linked := rfl
  extents := rfl
  env := rfl
  other := fun j hj => (sect_putSect hl i j x).trans (if_neg hj)
  file := .refl _ _ _

/-- A section that was never in memory has no entries in the file. -/
def Blank (w : World) : Prop := ∀ pos, pos < 4096 * w.cm.totalSects →
  (w.cm.sect (pos / 4096)).hasData = false → diskWord w pos = 0

theorem Blank.step {w w' : World} (h : Blank w) (htotal : w'.cm.totalSects = w.cm.totalSects)
    (hstep : ∀ pos, pos < 4096 * w.cm.totalSects → (w'.cm.sect (pos / 4096)).hasData = false →
      (w.cm.sect (pos / 4096)).hasData = false ∧ diskWord w' pos = diskWord w pos) : Blank w' := by
  intro pos hpos hd
  rw [htotal] at hpos
  obtain ⟨hd', hdisk⟩ := hstep pos hpos hd
  rw [hdisk]
  exact h pos hpos hd'

/-- A step that changes how the index is stored, and not the index. -/
structure Same (w w' : World) : Prop extends Kept w w' where
  wf : Wf w'
  blank : Blank w → Blank w'
  index : ∀ pos, pos < 4096 * w.cm.totalSects → indexAt w' pos = indexAt w pos
  file : Wrote w.file w'.file 4096 (32768 * w.cm.totalSects)

theorem Same.refl {w : World} (h : Wf w) : Same w w :=
  ⟨.refl w, h, id, fun _ _ => rfl, .refl _ _ _⟩

theorem Same.trans {w w' w'' : World} (h : Same w w') (h' : Same w' w'') : Same w w'' where
  toKept := h.toKept.trans h'.toKept
  wf := h'.wf
  blank := h'.blank ∘ h.blank
  index := fun pos hpos =>
    (h'.index pos (by rw [h.totalSects]; exact hpos)).trans (h.index pos hpos)
  file := h.file.trans h'.file le_rfl (by rw [h.totalSects])

variable {w w' : World} {i : Nat}

theorem Wf.congr (hwf : Wf w) (hsects : w'.cm.sects = w.cm.sects)
    (htotal : w'.cm.totalSects = w.cm.totalSects) (hsize : w'.cm.sectSize = w.cm.sectSize)
    (hoff : w'.cm.dataOffset = w.cm.dataOffset) (hfile : w.file.size ≤ w'.file.size)
    (hreach : w'.cm.filp = true ∨ 4096 + 32768 * w.cm.totalSects ≤ w'.file.size) : Wf w' := by
  have hsect : ∀ i, w'.cm.sect i = w.cm.sect i := fun i => by rw [CowManager.sect, CowManager.sect, hsects]
  refine ⟨by rw [hsects]; exact hwf.live, by rw [htotal]; exact hreach, hsize.trans hwf.sectSize,
    by rw [hoff, htotal]; exact hwf.dataOffset, by rw [htotal]; exact hwf.small, ?_, ?_⟩
  · intro i m hm
    rw [hsect] at hm ⊢
    exact hwf.cached i m hm
  · intro i hi hd hm
    rw [hsect] at hd hm
    exact (hwf.stored i (by rw [← htotal]; exact hi) hd hm).trans hfile

theorem diskWord_congr {pos : Nat} (hpos : pos < 4096 * w.cm.totalSects)
    (hfile : ∀ p, 4096 ≤ p → p < 4096 + 32768 * w.cm.totalSects →
      w'.file.bytes p = w.file.bytes p) : diskWord w' pos = diskWord w pos :=
  wordAt_congr (fun p hp hp' => hfile p (by simp only [cowHeaderSize] at hp; omega)
    (by simp only [cowHeaderSize] at hp'; omega))

theorem Blank.congr (h : Blank w) (hsects : w'.cm.sects = w.cm.sects)
    (htotal : w'.cm.totalSects = w.cm.totalSects)
    (hfile : ∀ p, 4096 ≤ p → p < 4096 + 32768 * w.cm.totalSects →
      w'.file.bytes p = w.file.bytes p) : Blank w' := by
  refine h.step htotal (fun pos hpos hd => ⟨?_, diskWord_congr hpos hfile⟩)
  rwa [CowManager.sect, hsects] at hd

theorem indexAt_congr {pos : Nat} (hpos : pos < 4096 * w.cm.totalSects)
    (hsects : w'.cm.sects = w.cm.sects)
    (hfile : ∀ p, 4096 ≤ p → p < 4096 + 32768 * w.cm.totalSects →
      w'.file.bytes p = w.file.bytes p) : indexAt w' pos = indexAt w pos := by
  rw [indexAt, indexAt, diskWord_congr hpos hfile, CowManager.sect, CowManager.sect, hsects]

theorem diskWord_local (h : Local i w w') {pos : Nat} (hpos : pos / 4096 ≠ i) :
    diskWord w' pos = diskWord w pos :=
  wordAt_congr (fun p hp hp' => h.file.outside p (by simp only [cowHeaderSize] at hp hp'; omega))

theorem indexAt_local (h : Local i w w') {pos : Nat} (hpos : pos / 4096 ≠ i) :
    indexAt w' pos = indexAt w pos := by
  rw [indexAt, indexAt, h.other _ hpos, diskWord_local h hpos]

theorem Wf.of_local (hwf : Wf w) (h : Local i w w')
    (hcached : ∀ m, (w'.cm.sect i).mappings = some m → (w'.cm.sect i).hasData = true)
    (hstored : (w'.cm.sect i).hasData = true → (w'.cm.sect i).mappings = none →
      4096 + 32768 * (i + 1) ≤ w'.file.size) : Wf w' where
  live := h.live.trans hwf.live
  reach := by
    rw [h.filp, h.totalSects]
    exact hwf.reach.imp_right (fun hr => hr.trans h.file.size)
  sectSize := h.sectSize.trans hwf.sectSize
  dataOffset := by rw [h.dataOffset, h.totalSects, hwf.dataOffset]
  small := by rw [h.totalSects]; exact hwf.small
  cached := by
    intro j m hm
    by_cases hj : j = i
    · subst hj
      exact hcached m hm
    · rw [h.other j hj] at hm ⊢
      exact hwf.cached j m hm
  stored := by
    intro j hlt hd hm
    by_cases hj : j = i
    · subst hj
      exact hstored hd hm
    · rw [h.other j hj] at hd hm
      exact (hwf.stored j (by rw [← h.totalSects]; exact hlt) hd hm).trans h.file.size

/-- A step confined to one section keeps the index if that section's entries stay. -/
theorem Same.of_local (hwf : Wf w) (h : Local i w w') (hi : i < w.cm.totalSects)
    (hindex : ∀ j, j < 4096 → indexAt w' (4096 * i + j) = indexAt w (4096 * i + j))
    (hcached : ∀ m, (w'.cm.sect i).mappings = some m → (w'.cm.sect i).hasData = true)
    (hstored : (w'.cm.sect i).hasData = true → (w'.cm.sect i).mappings = none →
      4096 + 32768 * (i + 1) ≤ w'.file.size)
    (hblank : (w'.cm.sect i).hasData = false → (w.cm.sect i).hasData = false ∧ w'.file = w.file) :
    Same w w' where
  toKept := h.toKept
  wf := hwf.of_local h hcached hstored
  blank := by
    intro hb
    refine hb.step h.totalSects (fun pos _ hd => ?_)
    by_cases hp : pos / 4096 = i
    · rw [hp] at hd ⊢
      rw [diskWord, diskWord, (hblank hd).2]
      exact ⟨(hblank hd).1, rfl⟩
    · rw [h.other _ hp] at hd
      exact ⟨hd, diskWord_local h hp⟩
  index := by
    intro pos _
    by_cases hp : pos / 4096 = i
    · have hi := hindex (pos % 4096) (Nat.mod_lt _ (by decide))
      rwa [show 4096 * i + pos % 4096 = pos by rw [← hp]; exact Nat.div_add_mod pos 4096] at hi
    · exact indexAt_local h hp
  file := ⟨h.file.size, fun p hp => h.file.outside p (by omega)⟩

theorem Same.of_unchanged (hwf : Wf w) (h : Local i w w') (hi : i < w.cm.totalSects)
    (hfile : w'.file = w.file) (hsect : w'.cm.sect i = w.cm.sect i) : Same w w' := by
  refine .of_local hwf h hi ?_ ?_ ?_ (fun hd => ⟨by rw [← hsect]; exact hd, hfile⟩)
  · intro j hj
    rw [indexAt, indexAt, diskWord, diskWord, hfile, show (4096 * i + j) / 4096 = i by omega, hsect]
  · intro m hm
    rw [hsect] at hm ⊢
    exact hwf.cached i m hm
  · intro hd hm
    rw [hsect] at hd hm
    rw [hfile]
    exact hwf.stored i hi hd hm

theorem indexAt_section (w : World) (i : Nat) {j : Nat} (hj : j < 4096) :
    indexAt w (4096 * i + j) = (w.cm.sect i).entry j (diskWord w (4096 * i + j)) := by
  rw [indexAt, show (4096 * i + j) / 4096 = i by omega, show (4096 * i + j) % 4096 = j by omega]

theorem cowFreeSection_wp {E : Err → World → Prop} (hl : w.cm.sects.isSome) (i : Nat) :
    wp (cowFreeSection i) w
      (fun _ w' => Local i w w' ∧ w'.file = w.file ∧
        w'.cm.sect i = { w.cm.sect i with mappings := none } ∧
        w'.cm.allocatedSects = w.cm.allocatedSects - 1) E := by
  simp only [cowFreeSection, wp_bind, wp_getSect hl, wp_setSect hl, wp_modifyCm]
  exact ⟨.of_put hl _ _ _, trivial, (sect_putSect hl i i _).trans (if_pos rfl), rfl⟩

theorem getPages_wp {E : Err → World → Prop} (zero : Bool) :
    wp (getPages zero) w
      (fun pages w' => w' = { w with clock := w.clock + 1 } ∧
        (pages = none → Excused w) ∧ ∀ m, zero = true → pages = some m → m = fun _ => 0) E := by
  unfold wp getPages
  cases hf : w.env.fault w.clock with
  | some e => exact ⟨rfl, fun _ => .of_fault hf, fun m _ hm => by simp at hm⟩
  | none =>
      refine ⟨rfl, fun h => by simp at h, ?_⟩
      intro m hz hm
      rw [hz] at hm
      exact (Option.some.inj hm).symm

theorem cowAllocSection_wp (hl : w.cm.sects.isSome) (i : Nat) (zero : Bool)
    (hm : (w.cm.sect i).mappings = none) :
    wp (cowAllocSection i zero) w
      (fun _ w' => Local i w w' ∧ w'.file = w.file ∧
        w'.cm.allocatedSects = w.cm.allocatedSects + 1 ∧
        ∃ m, (zero = true → m = fun _ => 0) ∧
          w'.cm.sect i = { w.cm.sect i with hasData := true, mappings := some m })
      (fun _ w' => Excused w ∧ Local i w w' ∧ w'.file = w.file ∧
        w'.cm.allocatedSects = w.cm.allocatedSects ∧ w'.cm.sect i = w.cm.sect i) := by
  simp only [cowAllocSection, wp_bind]
  apply wp_mono (getPages_wp zero)
  · rintro pages w' ⟨rfl, hnone, hzero⟩
    rw [wp_getSect (by exact hl), wp_setSect (by exact hl)]
    cases pages with
    | none =>
        simp only [Option.isNone_none, if_true, wp_throw]
        refine ⟨hnone rfl, .of_put hl _ _ _, trivial, rfl, ?_⟩
        refine (sect_putSect hl i i _).trans ((if_pos rfl).trans ?_)
        rw [← hm]
    | some m =>
        simp only [Option.isNone_some, Bool.false_eq_true, if_false, wp_bind]
        rw [wp_setSect (by simpa using hl), wp_modifyCm]
        dsimp only
        rw [putSect_putSect]
        exact ⟨.of_put hl _ _ _, rfl, rfl, m, fun hz => hzero m hz rfl,
          (sect_putSect hl i i _).trans (if_pos rfl)⟩
  · exact fun _ _ h => h

theorem wordAt_chunk {b b' : Nat → UInt8} {off : Nat} (h : ∀ p, p < 4096 → b p = b' (off + p)) {j : Nat}
    (hj : j < 512) : wordAt b (8 * j) = wordAt b' (off + 8 * j) := by
  apply byteWord_congr
  intro k hk
  rw [h (8 * j + k) (by omega), Nat.add_assoc]

theorem diskWord_section (w : World) (i k j : Nat) :
    wordAt w.file.bytes (4096 + 32768 * i + 4096 * k + 8 * j) = diskWord w (4096 * i + (512 * k + j)) := by
  unfold diskWord
  congr 1
  simp only [cowHeaderSize]
  omega

theorem chunkOffset_eq (hs : w.cm.sectSize = 4096) (i k : Nat) :
    chunkOffset 12 w.cm i k = 4096 + 32768 * i + 4096 * k := by
  simp only [chunkOffset, cowHeaderSize, cowBlockSize_four_kib, hs]
  omega

theorem readChunks_wp (n k : Nat) {m : Nat → UInt64} (hl : w.cm.sects.isSome)
    (hm : (w.cm.sect i).mappings = some m) (hs : w.cm.sectSize = 4096)
    (hsize : w.cm.filp = true → 4096 + 32768 * i + 4096 * (k + n) ≤ w.file.size) :
    wp (readChunks 12 i n k) w
      (fun _ w' => Local i w w' ∧ w'.file = w.file ∧ w'.cm.allocatedSects = w.cm.allocatedSects ∧
        ∃ m', w'.cm.sect i = { w.cm.sect i with mappings := some m' } ∧
          (∀ j, j < 512 * k → m' j = m j) ∧
          ∀ j, 512 * k ≤ j → j < 512 * (k + n) → m' j = diskWord w (4096 * i + j))
      (fun _ w' => Excused w ∧ Local i w w' ∧ w'.file = w.file ∧
        w'.cm.allocatedSects = w.cm.allocatedSects ∧
        ∃ m', w'.cm.sect i = { w.cm.sect i with mappings := some m' }) := by
  induction n generalizing k m w with
  | zero =>
      simp only [readChunks, wp_pure]
      exact ⟨.refl i w, trivial, trivial, m, by rw [← hm], fun _ _ => rfl, fun j h h' => by omega⟩
  | succ n ih =>
      simp only [readChunks, wp_bind, wp_get, chunkOffset_eq hs, cowBlockSize_four_kib]
      apply wp_mono (fileRead_wp _ 4096 (by simp) (by omega)
        (fun hf => by have h := hsize hf; grind))
      · rintro buf w' ⟨hw, hbuf⟩
        rw [hw, wp_getSect (by exact hl), wp_setSect (by exact hl)]
        dsimp only
        rw [hm, Option.map_some]
        have hcopy : ∀ j, j < 512 → wordAt buf (8 * j) = diskWord w (4096 * i + (512 * k + j)) := by
          intro j hj
          rw [wordAt_chunk hbuf hj, diskWord_section]
        set m₁ := splice m (mappingOffset 12 k) (4096 / 8) (fun j => wordAt buf (8 * j)) with hm₁
        have hold : ∀ j, j < 512 * k → m₁ j = m j := fun j hj =>
          splice_outside _ _ (.inl (by simpa [mappingOffset] using hj))
        have hnew : ∀ j, 512 * k ≤ j → j < 512 * (k + 1) → m₁ j = diskWord w (4096 * i + j) := by
          intro j h h'
          obtain ⟨d, rfl⟩ := Nat.exists_eq_add_of_le h
          rw [← hcopy d (by omega), hm₁]
          exact splice_inside _ _ (by omega)
        set w₁ : World := { w with
          cm := w.cm.putSect i { w.cm.sect i with mappings := some m₁ }, clock := w'.clock } with hw₁
        have hlocal : Local i w w₁ := .of_put hl _ _ _
        have hsect : w₁.cm.sect i = { w.cm.sect i with mappings := some m₁ } :=
          (sect_putSect hl i i _).trans (if_pos rfl)
        apply wp_mono (@ih w₁ (k + 1) m₁ (by rw [hlocal.live]; exact hl) (by rw [hsect])
          (by rw [hlocal.sectSize]; exact hs) (by
            intro hf
            have h := hsize (by rw [← hlocal.filp]; exact hf)
            rw [show k + 1 + n = k + (n + 1) by omega]
            exact h))
        · rintro _ w'' ⟨hl'', hf'', ha'', m', hs'', hlo, hhi⟩
          refine ⟨hlocal.trans hl'', hf'', ha'', m', by rw [hs'', hsect], ?_, ?_⟩
          · intro j hj
            rw [hlo j (by omega), hold j hj]
          · intro j h h'
            by_cases hj : j < 512 * (k + 1)
            · rw [hlo j hj, hnew j h hj]
            · exact hhi j (by omega) (by omega)
        · rintro e w'' ⟨he, hl'', hf'', ha'', m', hs''⟩
          exact ⟨hlocal.excused he, hlocal.trans hl'', hf'', ha'', m', by rw [hs'', hsect]⟩
      · rintro e w' ⟨he, hw⟩
        rw [hw]
        exact ⟨he, .of_clock i w w'.clock, rfl, rfl, m, by rw [← hm]⟩

/-- A section read back from the file holds the words its image has there; a section
that cannot be read is as it was. -/
theorem cowLoadSection_wp (hl : w.cm.sects.isSome) (hm : (w.cm.sect i).mappings = none)
    (hd : (w.cm.sect i).hasData = true) (hs : w.cm.sectSize = 4096)
    (hsize : w.cm.filp = true → 4096 + 32768 * (i + 1) ≤ w.file.size) :
    wp (cowLoadSection 12 i) w
      (fun _ w' => Local i w w' ∧ w'.file = w.file ∧
        w'.cm.allocatedSects = w.cm.allocatedSects + 1 ∧
        ∃ m, w'.cm.sect i = { w.cm.sect i with mappings := some m } ∧
          ∀ j, j < 4096 → m j = diskWord w (4096 * i + j))
      (fun _ w' => Excused w ∧ Local i w w' ∧ w'.file = w.file ∧
        w'.cm.allocatedSects = w.cm.allocatedSects ∧ w'.cm.sect i = w.cm.sect i) := by
  rw [cowLoadSection, wp_onError, wp_bind]
  apply wp_mono (cowAllocSection_wp hl i false hm)
  · rintro _ w₁ ⟨hlocal, hfile, halloc, m, -, hsect⟩
    have hl₁ : w₁.cm.sects.isSome := by rw [hlocal.live]; exact hl
    apply wp_mono (@readChunks_wp w₁ i 8 0 m hl₁ (by rw [hsect]) (by rw [hlocal.sectSize]; exact hs)
      (by rw [hlocal.filp, hfile]; intro hf; have h := hsize hf; grind))
    · rintro _ w₂ ⟨hlocal₂, hfile₂, halloc₂, m', hsect₂, -, hall⟩
      refine ⟨hlocal.trans hlocal₂, hfile₂.trans hfile, halloc₂.trans halloc, m', ?_, ?_⟩
      · rw [hsect₂, hsect, ← hd]
      · intro j hj
        rw [hall j (by omega) (by omega), diskWord, diskWord, hfile]
    · rintro e w₂ ⟨he, hlocal₂, hfile₂, halloc₂, m', hsect₂⟩
      have hl₂ : w₂.cm.sects.isSome := by rw [hlocal₂.live]; exact hl₁
      rw [wp_bind, wp_getSect hl₂, hsect₂]
      simp only [Option.isSome_some, if_true]
      apply wp_mono (cowFreeSection_wp hl₂ i)
      · rintro _ w₃ ⟨hlocal₃, hfile₃, hsect₃, halloc₃⟩
        refine ⟨hlocal.excused he, (hlocal.trans hlocal₂).trans hlocal₃,
          hfile₃.trans (hfile₂.trans hfile), by omega, ?_⟩
        rw [hsect₃, hsect₂, hsect, ← hd, ← hm]
      · exact fun _ _ h => h
  · rintro e w₁ ⟨he, hlocal, hfile, halloc, hsect⟩
    rw [wp_bind, wp_getSect (by rw [hlocal.live]; exact hl), hsect, hm]
    simp only [Option.isSome_none, Bool.false_eq_true, if_false, wp_pure]
    exact ⟨he, hlocal, hfile, halloc, hsect⟩

theorem writeChunks_wp (n k : Nat) {m : Nat → UInt64} (hl : w.cm.sects.isSome)
    (hm : (w.cm.sect i).mappings = some m) (hs : w.cm.sectSize = 4096) (hk : k + n ≤ 8)
    (hsmall : 4096 + 32768 * (i + 1) < 2 ^ 63)
    (hsize : w.cm.filp = true ∨ 4096 + 32768 * (i + 1) ≤ w.file.size) :
    wp (writeChunks 12 i n k) w
      (fun _ w' => Local i w w' ∧ w'.cm.allocatedSects = w.cm.allocatedSects ∧
        w'.cm.sect i = w.cm.sect i ∧
        (0 < n → 4096 + 32768 * i + 4096 * (k + n) ≤ w'.file.size) ∧
        (∀ j, j < 512 * k → diskWord w' (4096 * i + j) = diskWord w (4096 * i + j)) ∧
        ∀ j, 512 * k ≤ j → j < 512 * (k + n) → diskWord w' (4096 * i + j) = m j)
      (fun _ w' => Excused w ∧ Local i w w' ∧ w'.cm.allocatedSects = w.cm.allocatedSects ∧
        w'.cm.sect i = w.cm.sect i) := by
  induction n generalizing k w with
  | zero =>
      simp only [writeChunks, wp_pure]
      exact ⟨.refl i w, trivial, trivial, fun h => by omega, fun _ _ => trivial, fun j h h' => by omega⟩
  | succ n ih =>
      simp only [writeChunks, wp_bind, wp_get, wp_getSect hl, hm, chunkOffset_eq hs,
        cowBlockSize_four_kib]
      apply wp_mono (fileWrite_wp _ 4096 _ (fun _ => ⟨by simp, by omega⟩))
      · rintro _ w₁ ⟨hw, hwrote, hfilp, hbuf⟩
        have hlocal : Local i w w₁ := by
          rw [hw]
          exact ⟨⟨rfl, rfl, rfl, rfl, rfl⟩, fun _ _ => rfl,
            hwrote.size, fun p hp => hwrote.outside p (by omega)⟩
        have hcm : w₁.cm = w.cm := by rw [hw]
        have hnew : ∀ j, 512 * k ≤ j → j < 512 * (k + 1) → diskWord w₁ (4096 * i + j) = m j := by
          intro j h h'
          obtain ⟨d, rfl⟩ := Nat.exists_eq_add_of_le h
          rw [← diskWord_section, ← wordAt_packWords m (512 * k + d)]
          apply byteWord_congr
          intro b hb
          have h := hbuf (hsize.imp_right (by omega)) (8 * d + b) (by omega)
          rw [Nat.add_assoc _ (8 * d) b, h]
          congr 1
          simp only [mappingOffset, cowBlockSize_four_kib]
          omega
        have hend : 4096 + 32768 * i + 4096 * (k + 1) ≤ w₁.file.size := by
          rcases hsize with hf | hsz
          · rw [(hfilp hf).2]
            have h := @end_le_write w.file (4096 + 32768 * i + 4096 * k) 4096
              (fun p => packWords m (8 * mappingOffset 12 k + p)) (by omega)
            grind
          · have h := hwrote.size
            grind
        apply wp_mono (@ih w₁ (k + 1) (by rw [hcm]; exact hl) (by rw [hcm]; exact hm)
          (by rw [hcm]; exact hs) (by omega)
          (by rw [hcm]; exact hsize.imp_right (fun h => h.trans hwrote.size)))
        · rintro _ w₂ ⟨hlocal₂, halloc₂, hsect₂, hend₂, hlo, hhi⟩
          refine ⟨hlocal.trans hlocal₂, by rw [halloc₂, hcm], by rw [hsect₂, hcm], ?_, ?_, ?_⟩
          · intro _
            have h := hlocal₂.file.size
            by_cases hn : 0 < n
            · have h' := hend₂ hn
              grind
            · grind
          · intro j hj
            rw [hlo j (by omega)]
            apply wordAt_congr
            intro p hp hp'
            simp only [cowHeaderSize] at hp hp'
            exact hwrote.outside p (by omega)
          · intro j h h'
            by_cases hj : j < 512 * (k + 1)
            · rw [hlo j hj, hnew j h hj]
            · exact hhi j (by grind) (by omega)
        · rintro e w₂ ⟨he, hlocal₂, halloc₂, hsect₂⟩
          exact ⟨hlocal.excused he, hlocal.trans hlocal₂, by rw [halloc₂, hcm], by rw [hsect₂, hcm]⟩
      · rintro e w₁ ⟨he, hw, hwrote⟩
        rw [hw]
        exact ⟨he (by grind), ⟨⟨rfl, rfl, rfl, rfl, rfl⟩, fun _ _ => rfl,
          hwrote.size, fun p hp => hwrote.outside p (by omega)⟩, rfl, rfl⟩

end ElastioSnap.Cow.Section
