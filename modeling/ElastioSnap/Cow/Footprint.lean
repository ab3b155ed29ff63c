import ElastioSnap.Cow.Regions

namespace ElastioSnap.Cow.Footprint

open Lib.Bytes Lib.Outcome Lib.Flags Manager FileIo Section Cleanup Header Mapping Lifecycle Data Regions

/-- The header is left alone: the file keeps its first page, and does not become shorter. -/
structure Spares (w w' : World) : Prop where
  size : w.file.size ≤ w'.file.size
  page : ∀ p, p < 4096 → w'.file.bytes p = w.file.bytes p

theorem spares_of_file {w w' : World} (h : w'.file = w.file) : Spares w w' :=
  ⟨by rw [h], fun p _ => by rw [h]⟩

instance : Std.Refl Spares := ⟨fun _ => spares_of_file rfl⟩

theorem Spares.trans {w w' w'' : World} (h : Spares w w') (h' : Spares w' w'') : Spares w w'' :=
  ⟨h.size.trans h'.size, fun p hp => (h'.page p hp).trans (h.page p hp)⟩

instance : Trans Spares Spares Spares := ⟨Spares.trans⟩

variable {ps i : Nat} {α : Type} {w w' : World}

theorem spares_of_wrote {off len : Nat} (h : Wrote w.file w'.file off len) (hoff : 4096 ≤ off) : Spares w w' :=
  ⟨h.size, fun p hp => h.outside p (.inl (by omega))⟩

theorem spares_modifyCm {f : CowManager → CowManager} : Relates Spares (modifyCm f) := fun _ => spares_of_file rfl

theorem spares_tick : Relates Spares tick :=
  fun _ => wp_tick (spares_of_file rfl) fun _ _ => spares_of_file rfl

theorem spares_alloc : Relates Spares alloc :=
  fun _ => wp_alloc (spares_of_file rfl) fun _ _ => spares_of_file rfl

theorem spares_getSect : Relates Spares (getSect i) := by
  intro w
  unfold wp getSect
  cases w.cm.sects.isSome <;> exact spares_of_file rfl

theorem spares_setSect {x : CowSection} : Relates Spares (setSect i x) := by
  intro w
  unfold wp setSect
  cases w.cm.sects.isSome <;> exact spares_of_file rfl

theorem spares_cowExtents : Relates Spares cowExtents :=
  relates_get.bind fun w => by
    cases w.extents with
    | none => exact relates_throw
    | some exts => exact relates_pure

theorem spares_fileWriteBlock {block : Nat → UInt8} {fuel left offset done : Nat} (hoff : 4096 ≤ offset) :
    Relates Spares (fileWriteBlock block fuel left offset done) := by
  induction fuel generalizing left offset done with
  | zero => exact relates_pure
  | succ fuel ih =>
      rw [fileWriteBlock]
      refine spares_cowExtents.bind fun exts => ?_
      split
      next => exact relates_throw
      next startSect _ =>
        refine spares_alloc.bind fun _ => spares_alloc.bind fun _ => spares_tick.bind fun _ =>
          (relates_modify ?_).bind fun _ => relates_pure.ite (ih (hoff.trans (Nat.le_add_right _ _)))
        intro w
        have hwrote : Wrote w.file _ offset _ := wrote_overwrite w.file (fun p => block (done * sectorSize + p))
          (Nat.le_refl (iterationsDone exts startSect left offset 0 * sectorSize))
        exact spares_of_wrote hwrote hoff

theorem spares_vfsWrite {off len : Nat} {buf : Nat → UInt8} (hoff : 4096 ≤ off) : Relates Spares (vfsWrite off len buf) := by
  intro w
  unfold wp vfsWrite
  by_cases h : 2 ^ 63 ≤ off + len
  · rw [if_pos h]
    exact spares_of_file rfl
  · rw [if_neg h]
    cases w.env.fault w.clock with
    | none => exact spares_of_wrote (wrote_write w.file buf le_rfl) hoff
    | some e => exact spares_of_wrote (wrote_write w.file buf (min_le_right _ _)) hoff

theorem spares_fileWrite {off len : Nat} {buf : Nat → UInt8} (hoff : 4096 ≤ off) :
    Relates Spares (fileWrite off len buf) :=
  relates_get.bind fun _ => (spares_vfsWrite hoff).ite (spares_fileWriteBlock hoff)

theorem spares_fileReadBlock {buf : Nat → UInt8} {fuel left offset done : Nat} :
    Relates Spares (fileReadBlock buf fuel left offset done) := by
  induction fuel generalizing buf left offset done with
  | zero => exact relates_pure
  | succ fuel ih =>
      rw [fileReadBlock]
      refine spares_cowExtents.bind fun exts => ?_
      split
      · exact relates_throw
      · exact spares_alloc.bind fun _ => spares_alloc.bind fun _ => spares_tick.bind fun _ =>
          relates_get.bind fun _ => relates_pure.ite ih

theorem spares_fileRead {off len : Nat} : Relates Spares (fileRead off len) :=
  relates_get.bind fun _ =>
    (spares_tick.bind fun _ => relates_get.bind fun _ => relates_pure.ite relates_throw).ite spares_fileReadBlock

theorem spares_cowFreeSection : Relates Spares (cowFreeSection i) :=
  spares_getSect.bind fun _ => spares_setSect.bind fun _ => spares_modifyCm

theorem spares_getPages {zero : Bool} : Relates Spares (getPages zero) := by
  intro w
  unfold wp getPages
  cases w.env.fault w.clock <;> exact spares_of_file rfl

theorem spares_cowAllocSection {zero : Bool} : Relates Spares (cowAllocSection i zero) :=
  spares_getPages.bind fun _ => spares_getSect.bind fun _ => spares_setSect.bind fun _ =>
    relates_throw.ite (spares_setSect.bind fun _ => spares_modifyCm)

theorem spares_readChunks {n k : Nat} : Relates Spares (readChunks ps i n k) := by
  induction n generalizing k with
  | zero => exact relates_pure
  | succ n ih =>
      exact relates_get.bind fun _ => spares_fileRead.bind fun _ => spares_getSect.bind fun _ =>
        spares_setSect.bind fun _ => ih

theorem spares_cowLoadSection : Relates Spares (cowLoadSection ps i) :=
  (spares_cowAllocSection.bind fun _ => spares_readChunks).onError
    (spares_getSect.bind fun _ => spares_cowFreeSection.ite relates_pure)

theorem chunkOffset_above (cm : CowManager) (k : Nat) : 4096 ≤ chunkOffset ps cm i k := by
  rw [chunkOffset, cowHeaderSize]
  omega

/-- The sections are written behind the header, wherever they are. -/
theorem spares_writeChunks {n k : Nat} : Relates Spares (writeChunks ps i n k) := by
  induction n generalizing k with
  | zero => exact relates_pure
  | succ n ih =>
      refine relates_get.bind fun w => spares_getSect.bind fun s => ?_
      cases s.mappings with
      | none => exact relates_throw
      | some m => exact (spares_fileWrite (chunkOffset_above w.cm k)).bind fun _ => ih

theorem spares_syncSections {thresh n : Nat} : Relates Spares (syncSections ps thresh n i) := by
  induction n generalizing i with
  | zero => exact relates_pure
  | succ n ih =>
      have hevict : Relates Spares (evictSection ps i) := spares_writeChunks.bind fun _ => spares_cowFreeSection
      have hreset : Relates Spares (resetUsage i) := spares_getSect.bind fun _ => spares_setSect
      refine relates_get.bind fun _ => relates_pure.ite ?_
      exact (spares_getSect.bind fun _ => (hevict.ite relates_pure).bind fun _ => hreset).bind fun _ => ih

theorem spares_cleanupIfFull : Relates Spares (cleanupIfFull ps) :=
  relates_get.bind fun _ => (relates_get.bind fun _ => relates_throw.ite (relates_get.bind fun _ =>
    spares_syncSections.bind fun _ => relates_pure)).ite relates_pure

theorem spares_bumpUsage : Relates Spares (bumpUsage i) :=
  spares_getSect.bind fun _ => spares_setSect

theorem spares_cowReadMapping {pos : UInt64} : Relates Spares (cowReadMapping ps pos) := by
  refine relates_get.bind fun _ => spares_bumpUsage.bind fun _ => spares_getSect.bind fun _ =>
    relates_pure.ite ((spares_cowLoadSection.ite relates_pure).bind fun _ => spares_getSect.bind fun s => ?_)
  cases s.mappings with
  | none => exact relates_throw
  | some m => exact spares_cleanupIfFull.bind fun _ => relates_pure

theorem spares_cowWriteMapping {pos val : UInt64} : Relates Spares (cowWriteMapping ps pos val) := by
  refine relates_get.bind fun _ => spares_bumpUsage.bind fun _ => spares_getSect.bind fun _ =>
    ((spares_cowLoadSection.ite spares_cowAllocSection).ite relates_pure).bind fun _ => spares_getSect.bind fun s => ?_
  cases s.mappings with
  | none => exact relates_throw
  | some m => exact spares_modifyCm.bind fun _ => spares_setSect.bind fun _ => spares_cleanupIfFull

/-- The next block of data lies behind the header, and within the longest file. -/
structure Ready (ps : Nat) (cm : CowManager) : Prop where
  low : 4096 ≤ cm.currPos.toNat * 2 ^ ps
  high : cm.currPos.toNat * 2 ^ ps ≤ 2 ^ 63

theorem Ready.congr {cm cm' : CowManager} (h : Ready ps cm) (hc : cm'.currPos = cm.currPos) : Ready ps cm' :=
  ⟨hc ▸ h.low, hc ▸ h.high⟩

theorem Ready.offset {cm : CowManager} (h : Ready ps cm) : 4096 ≤ cm.currPos.toNat * cowBlockSize ps % 2 ^ 64 := by
  have hhigh := h.high
  rw [cowBlockSize, Nat.mod_eq_of_lt (by omega)]
  exact h.low

theorem zeroFillAhead_spares (h : Ready ps w.cm) :
    wp (cowFileExtentsZeroFillAhead ps) w (fun _ w' => Spares w w') (fun _ w' => Spares w w') := by
  rw [cowFileExtentsZeroFillAhead, wp_bind, wp_get]
  exact ((relates_get.bind fun _ => spares_alloc.bind fun _ => relates_pure).bind fun _ => spares_fileWrite h.offset) w

theorem syncAndFreeSections_spares {thresh : Nat} {fillAhead : Bool} (h : fillAhead = true → Ready ps w.cm) :
    wp (cowSyncAndFreeSections ps thresh fillAhead) w (fun _ w' => Spares w w') (fun _ w' => Spares w w') := by
  rw [cowSyncAndFreeSections, wp_bind, wp_get, wp_bind]
  refine wp_mono (wp_and (spares_syncSections w) (preserves_syncSections (g := fixedPart) w)) ?_ fun _ _ hs => hs.1
  rintro _ w₁ ⟨hs, hfix⟩
  rw [wp_ite]
  split
  next htrue =>
    simp only [fixedPart, Prod.mk.injEq] at hfix
    have h₁ : Ready ps w₁.cm := (h htrue).congr hfix.2.1
    rw [wp_onError]
    exact wp_mono (zeroFillAhead_spares h₁) (fun _ _ h' => hs.trans h') fun _ _ h' => hs.trans h'
  next => exact hs

theorem cowWriteData_spares {buf : Nat → UInt8} (h : Ready ps w.cm) :
    wp (cowWriteData ps buf) w (fun _ w' => Spares w w') (fun _ w' => Spares w w') := by
  rw [cowWriteData, wp_bind, wp_get]
  exact relates_throw.ite ((spares_fileWrite h.offset).bind fun _ => spares_modifyCm) w

theorem cowWriteCurrent_spares {block : UInt64} {buf : Nat → UInt8} (h : Ready ps w.cm) :
    wp (cowWriteCurrent ps block buf) w (fun _ w' => Spares w w') (fun _ w' => Spares w w') := by
  have hfixed : ∀ {v : World}, fixedPart v = fixedPart w → Ready ps v.cm := by
    intro v hv
    simp only [fixedPart, Prod.mk.injEq] at hv
    exact h.congr hv.2.1
  rw [cowWriteCurrent, wp_bind]
  refine wp_mono (wp_and (spares_cowReadMapping w) (preserves_cowReadMapping (g := fixedPart) w)) ?_ fun _ _ hs => hs.1
  rintro v w₁ ⟨h₁, hfix₁⟩
  rw [wp_ite]
  split
  · exact h₁
  · rw [wp_bind, cowWriteCurrentMapping, wp_bind, wp_get]
    refine wp_mono (wp_and (spares_cowWriteMapping w₁) (preserves_cowWriteMapping (g := fixedPart) w₁)) ?_ fun _ _ hs => h₁.trans hs.1
    rintro _ w₂ ⟨h₂, hfix₂⟩
    have hboth := h₁.trans h₂
    exact wp_mono (cowWriteData_spares (hfixed (hfix₂.trans hfix₁))) (fun _ _ h₃ => hboth.trans h₃)
      fun _ _ h₃ => hboth.trans h₃

end ElastioSnap.Cow.Footprint
