import ElastioSnap.Cow.Index
import Mathlib.Data.Finset.Card

namespace ElastioSnap.Cow.Changed

open Lib.Bytes Lib.Outcome Lib.Flags Manager FileIo Section Lifecycle Mapping Sealing Data Start Reopen Index

/-- What the two tracers of a series do with its COW manager, and the transition between them. -/
inductive Track
  | writeCurrent (block : UInt64) (buf : Nat → UInt8)
  | writeFiller (pos : UInt64)
  | readMapping (pos : UInt64)
  | modifyCacheSize (cacheSize : Nat)
  | truncateToIndex
  | closeReopen

def Track.run : Track → CowM Unit
  | .writeCurrent block buf => cowWriteCurrent 12 block buf
  | .writeFiller pos => cowWriteFillerMapping 12 pos
  | .readMapping pos => do
      let _ ← cowReadMapping 12 pos
  | .modifyCacheSize cacheSize => cowModifyCacheSize 12 cacheSize
  | .truncateToIndex => cowTruncateToIndex
  | .closeReopen => do
      cowSyncAndClose 12
      cowReopen

def runTracks : List Track → CowM Unit
  | [] => pure ()
  | t :: ts => do
      t.run
      runTracks ts

def Track.InRange (totalSects : Nat) : Track → Prop
  | .writeCurrent block _ => block.toNat < 4096 * totalSects
  | .writeFiller pos => pos.toNat < 4096 * totalSects
  | .readMapping pos => pos.toNat < 4096 * totalSects
  | _ => True

/-- The block positions that have a mapping. -/
def mapped (w : World) : Finset Nat := (Finset.range (4096 * w.cm.totalSects)).filter (indexAt w · ≠ 0)

/-- The manager counts its changed blocks. -/
structure Exact (w : World) : Prop where
  live : Live w
  version : w.cm.version = cowVersionChangedBlocks
  memory : w.cm.totalSects * 24 ≤ vmallocMax
  count : w.cm.nrChangedBlocks.toNat = (mapped w).card

variable {w w' : World}

theorem mapped_congr (ht : w'.cm.totalSects = w.cm.totalSects)
    (hi : ∀ pos, pos < 4096 * w.cm.totalSects → indexAt w' pos = indexAt w pos) : mapped w' = mapped w := by
  ext pos
  simp only [mapped, Finset.mem_filter, Finset.mem_range, ht]
  constructor
  · rintro ⟨hpos, hne⟩
    exact ⟨hpos, hi pos hpos ▸ hne⟩
  · rintro ⟨hpos, hne⟩
    exact ⟨hpos, (hi pos hpos).symm ▸ hne⟩

/-- A value that is no zero maps its position, and no other. -/
theorem mapped_update {p : Nat} {val : UInt64} (ht : w'.cm.totalSects = w.cm.totalSects)
    (hi : ∀ pos, pos < 4096 * w.cm.totalSects → indexAt w' pos = if pos = p then val else indexAt w pos)
    (hp : p < 4096 * w.cm.totalSects) (hval : val ≠ 0) : mapped w' = insert p (mapped w) := by
  ext pos
  simp only [mapped, Finset.mem_insert, Finset.mem_filter, Finset.mem_range, ht]
  constructor
  · rintro ⟨hpos, hne⟩
    rw [hi pos hpos] at hne
    split at hne
    next heq => exact .inl heq
    next => exact .inr ⟨hpos, hne⟩
  · rintro (rfl | ⟨hpos, hne⟩)
    · refine ⟨hp, ?_⟩
      rw [hi pos hp, if_pos rfl]
      exact hval
    · refine ⟨hpos, ?_⟩
      rw [hi pos hpos]
      split
      · exact hval
      · exact hne

theorem mapped_card_le (w : World) : (mapped w).card ≤ 4096 * w.cm.totalSects :=
  (Finset.card_filter_le _ _).trans_eq (Finset.card_range _)

theorem Exact.same (h : Exact w) (hl : Live w') (hv : w'.cm.version = w.cm.version)
    (ht : w'.cm.totalSects = w.cm.totalSects) (hn : w'.cm.nrChangedBlocks = w.cm.nrChangedBlocks)
    (hi : ∀ pos, pos < 4096 * w.cm.totalSects → indexAt w' pos = indexAt w pos) : Exact w' where
  live := hl
  version := hv.trans h.version
  memory := by rw [ht]; exact h.memory
  count := by rw [hn, mapped_congr ht hi]; exact h.count

theorem Exact.steady (h : Exact w) (hs : Steady w w') : Exact w' := by
  refine h.same hs.live ?_ hs.totalSects ?_ hs.index <;> rw [hs.cm]

/-- The counter moves exactly if the position had no mapping. -/
theorem Exact.put (h : Exact w) {pos val : UInt64} (hp : Put w w' pos val) (hpos : pos.toNat < 4096 * w.cm.totalSects)
    (hval : val ≠ 0) : Exact w' := by
  have ht : w'.cm.totalSects = w.cm.totalSects := by rw [hp.cm]
  have hv : w'.cm.version = w.cm.version := by rw [hp.cm]
  refine ⟨h.live.of_put hp, hv.trans h.version, by rw [ht]; exact h.memory, ?_⟩
  have hn : w'.cm.nrChangedBlocks = if indexAt w pos.toNat = 0 then w.cm.nrChangedBlocks + 1 else w.cm.nrChangedBlocks := by
    have hle : cowVersionChangedBlocks ≤ cowVersionChangedBlocks := UInt64.le_refl _
    rw [hp.cm]
    simp only [h.version, ge_iff_le, hle, true_and]
  rw [hn, mapped_update ht hp.index hpos hval]
  split
  next hzero =>
    have hnew : pos.toNat ∉ mapped w := fun hm => (Finset.mem_filter.mp hm).2 hzero
    have hle := mapped_card_le w
    have hmem := h.memory
    have hone : (1 : UInt64).toNat = 1 := rfl
    rw [vmallocMax] at hmem
    rw [Finset.card_insert_of_notMem hnew, ← h.count, UInt64.toNat_add, hone, Nat.mod_eq_of_lt]
    rw [h.count]
    omega
  next hne =>
    have hold : pos.toNat ∈ mapped w := Finset.mem_filter.mpr ⟨Finset.mem_range.mpr hpos, hne⟩
    rw [Finset.insert_eq_of_mem hold]
    exact h.count

/-- What the counter is taken from. -/
def counterPart (w : World) : UInt64 × UInt64 := (w.cm.version, w.cm.nrChangedBlocks)

theorem cowWriteData_keeps {buf : Nat → UInt8} : Preserves counterPart (cowWriteData 12 buf) := by
  have hwrite : ∀ off, Preserves counterPart (fileWrite off 4096 buf) := by
    intro off w
    apply wp_mono (fileWrite_wp off 4096 buf fun _ => ⟨by decide, by decide⟩)
    · rintro _ w' ⟨hw, -⟩
      rw [hw]
      rfl
    · rintro e w' ⟨-, hw, -⟩
      rw [hw]
      rfl
  exact preserves_get.bind fun _ => preserves_throw.ite ((hwrite _).bind fun _ _ => rfl)

/-- A block is stored for the first time: its mapping, and then its data. -/
theorem writeCurrent_exact {block : UInt64} {buf : Nat → UInt8} (h : Exact w)
    (hblock : block.toNat < 4096 * w.cm.totalSects) :
    wp (cowWriteCurrent 12 block buf) w (fun _ w' => Exact w' ∧ Fixed w w') (fun _ _ => True) := by
  simp only [cowWriteCurrent, cowWriteCurrentMapping, wp_bind]
  apply wp_mono (cowReadMapping_wp h.live.wf hblock)
  · rintro v w₁ ⟨rfl, hsame⟩
    have hs : Steady w w₁ := .of_same h.live hsame
    rw [wp_ite]
    split
    next => exact ⟨h.steady hs, .of_steady hs⟩
    next =>
      have h₁ := h.steady hs
      have hblock₁ : block.toNat < 4096 * w₁.cm.totalSects := by rw [hs.totalSects]; exact hblock
      simp only [wp_bind, wp_get]
      apply wp_mono (cowWriteMapping_wp h₁.live.wf hblock₁ w₁.cm.currPos)
      · intro _ w₂ hput
        -- the data begins above the header, so the position is no zero
        have hpos : w₁.cm.currPos ≠ 0 := by
          intro hzero
          have habove := h₁.live.placed.above
          have hoff := h₁.live.wf.dataOffset
          have hnat : (0 : UInt64).toNat = 0 := rfl
          rw [hzero, hnat] at habove
          omega
        have h₂ := h₁.put hput hblock₁ hpos
        apply wp_mono (wp_and (cowWriteData_wp hput h₁.live.filp h₁.live.placed) (cowWriteData_keeps w₂))
        · rintro _ w₃ ⟨hstored, hkeeps⟩
          have hver := congrArg Prod.fst hkeeps
          have hnr := congrArg Prod.snd hkeeps
          refine ⟨h₂.same (h₁.live.of_stored hstored) hver ?_ hnr ?_, (Fixed.of_steady hs).trans (.of_stored hstored)⟩
          · rw [hstored.cm, hput.cm]
          · intro pos hp
            have ht : w₂.cm.totalSects = w₁.cm.totalSects := by rw [hput.cm]
            rw [ht] at hp
            rw [hstored.index pos hp, hput.index pos hp]
        · exact fun _ _ _ => trivial
      · exact fun _ _ _ => trivial
  · exact fun _ _ _ => trivial

/-- The file is cut to its header and its index, and the sections that are not in memory stay in it. -/
theorem truncateToIndex_exact (h : Exact w) :
    wp cowTruncateToIndex w (fun _ w' => Exact w' ∧ w'.cm.totalSects = w.cm.totalSects) (fun _ _ => True) := by
  simp only [cowTruncateToIndex, wp_bind, wp_modifyCm]
  refine wp_tick ?_ fun _ _ => trivial
  rw [wp_modify]
  have hwf := h.live.wf
  have hbytes : ∀ p, 4096 ≤ p → p < 4096 + 32768 * w.cm.totalSects →
      (w.file.truncate w.cm.dataOffset).bytes p = w.file.bytes p := by
    intro p _ hp
    exact if_pos (by rw [hwf.dataOffset]; exact hp)
  refine ⟨h.same ⟨?_, h.live.filp, h.live.linked, ⟨h.live.placed.above, h.live.placed.fits⟩⟩ rfl rfl rfl ?_, rfl⟩
  · refine ⟨hwf.live, .inl h.live.filp, hwf.sectSize, hwf.dataOffset, hwf.small, hwf.cached, fun i hi _ _ => ?_⟩
    change _ ≤ w.cm.dataOffset
    rw [hwf.dataOffset]
    have := Nat.mul_le_mul_left 32768 (Nat.succ_le_of_lt hi)
    exact Nat.add_le_add_left this _
  · exact fun pos hpos => indexAt_congr hpos rfl hbytes

theorem track_exact (t : Track) (h : Exact w) (ht : t.InRange w.cm.totalSects) :
    wp t.run w (fun _ w' => Exact w' ∧ w'.cm.totalSects = w.cm.totalSects) (fun _ _ => True) := by
  have steady : ∀ {w'}, Steady w w' → Exact w' ∧ w'.cm.totalSects = w.cm.totalSects :=
    fun hs => ⟨h.steady hs, hs.totalSects⟩
  cases t with
  | writeCurrent block buf =>
      exact wp_mono (writeCurrent_exact h ht) (fun _ _ hw => ⟨hw.1, hw.2.totalSects⟩) fun _ _ _ => trivial
  | writeFiller pos =>
      apply wp_mono (cowWriteMapping_wp h.live.wf ht 1)
      · exact fun _ w' hput => ⟨h.put hput ht (by decide), by rw [hput.cm]⟩
      · exact fun _ _ _ => trivial
  | readMapping pos =>
      rw [Track.run, wp_bind]
      apply wp_mono (cowReadMapping_wp h.live.wf ht)
      · rintro v w' ⟨-, hsame⟩
        exact steady (.of_same h.live hsame)
      · exact fun _ _ _ => trivial
  | modifyCacheSize cacheSize => exact wp_mono (cowModifyCacheSize_wp cacheSize h.live) (fun _ _ => steady) fun _ _ h => h
  | truncateToIndex => exact truncateToIndex_exact h
  | closeReopen => exact wp_mono (closeReopen_wp h.live) (fun _ _ => steady) fun _ _ _ => trivial

theorem runTracks_exact (ts : List Track) (h : Exact w) (hts : ∀ t ∈ ts, t.InRange w.cm.totalSects) :
    wp (runTracks ts) w (fun _ w' => Exact w') (fun _ _ => True) := by
  induction ts generalizing w with
  | nil => exact h
  | cons t ts ih =>
      rw [runTracks, wp_bind]
      apply wp_mono (track_exact t h (hts t List.mem_cons_self))
      · rintro _ w₁ ⟨h₁, htotal⟩
        exact ih h₁ fun u hu => htotal.symm ▸ hts u (List.mem_cons_of_mem _ hu)
      · exact fun _ _ _ => trivial

theorem exact_started {elements fileMax seqid : UInt64} {uuid : Fin 16 → UInt8}
    (h : Started elements fileMax seqid uuid w) : Exact w where
  live := .of_started h
  version := h.version
  memory := h.memory
  count := by
    have hnone : mapped w = ∅ := by
      ext pos
      simp only [mapped, Finset.mem_filter, indexAt, h.empty, Finset.notMem_empty, iff_false, not_and, not_not]
      exact fun _ => rfl
    rw [h.changed, hnone]
    rfl

/-- `nr_changed_blocks` is the number of block positions with a mapping, after every run on the manager
in which no operation fails. -/
theorem nr_changed_blocks_counts {elements fileMax seqid : UInt64} {cacheSize : Nat} {uuid : Fin 16 → UInt8}
    {w₀ : World} (hinit : cowInit 12 elements 4096 cacheSize fileMax uuid seqid w₀ = .ok () w) (ts : List Track)
    (hts : ∀ t ∈ ts, t.InRange w.cm.totalSects) (hrun : runTracks ts w = .ok () w') :
    w'.cm.nrChangedBlocks.toNat = (mapped w').card := by
  obtain ⟨hstarted, -⟩ := wp_ok (cowInit_wp elements fileMax seqid cacheSize uuid) hinit
  exact (wp_ok (runTracks_exact ts (exact_started hstarted) hts) hrun).count

/-- One block is stored and then tracked again, and another one is tracked. -/
def twoBlocks : List Track := [.writeCurrent 5 fun _ => 7, .writeFiller 5, .writeFiller 6]

theorem fillers_return (ps : List UInt64) (h : Exact w) (hn : w.env.Faultless)
    (hps : ∀ p ∈ ps, p.toNat < 4096 * w.cm.totalSects) :
    ∃ w', runTracks (ps.map Track.writeFiller) w = .ok () w' := by
  induction ps generalizing w with
  | nil => exact ⟨w, rfl⟩
  | cons p ps ih =>
      have hp := hps p List.mem_cons_self
      obtain ⟨_, w₁, hok, hput⟩ := wp_total (wp_mono (cowWriteMapping_wp h.live.wf hp 1) (fun _ _ hw => hw)
        fun _ _ he => he.1 h.live.filp hn)
      have ht : w₁.cm.totalSects = w.cm.totalSects := by rw [hput.cm]
      obtain ⟨w₂, hrest⟩ := ih (h.put hput hp (by decide)) (by rw [hput.env]; exact hn)
        fun q hq => ht.symm ▸ hps q (List.mem_cons_of_mem _ hq)
      refine ⟨w₂, ?_⟩
      have hrun : Track.run (.writeFiller p) w = .ok () w₁ := hok
      rw [List.map_cons, runTracks]
      change EStateM.bind _ _ w = _
      rw [EStateM.bind, hrun]
      exact hrest

theorem nr_changed_blocks_counts_two : ∃ w₁ w₂, cowInit 12 16 4096 1000000 1000000 (fun _ => 0) 1 calm = .ok () w₁ ∧
    runTracks twoBlocks w₁ = .ok () w₂ ∧ w₂.cm.nrChangedBlocks.toNat = (mapped w₂).card := by
  obtain ⟨w₁, hinit, hstarted, henv⟩ := cowInit_total (w := calm) 16 1000000 1 1000000 (fun _ => 0)
    (by rw [sectionTotal_eq]; decide) (by decide) (by decide) calm_faultless
  have htotal : w₁.cm.totalSects = 1 := by rw [hstarted.total, sectionTotal_eq]; decide
  have hn : w₁.env.Faultless := henv ▸ calm_faultless
  have hexact := exact_started hstarted
  have hnext : w₁.cm.currPos.toNat * 4096 = 36864 := by rw [hstarted.next, hstarted.wf.dataOffset, htotal]
  have hmax : w₁.cm.fileMax.toNat = 1000000 := by rw [hstarted.fileMax]; decide
  have hfive : (5 : UInt64).toNat < 4096 * w₁.cm.totalSects := by rw [htotal]; decide
  obtain ⟨_, w₂, hstore, h₂, hfixed⟩ := wp_total (wp_mono
    (wp_and (writeCurrent_exact hexact hfive)
      (cowWriteCurrent_wp hexact.live.wf hexact.live.filp hexact.live.placed hfive))
    (fun _ _ hw => hw.1) fun _ _ he => he.2 (by omega) (by omega) hn)
  have hrange : ∀ p ∈ ([5, 6] : List UInt64), p.toNat < 4096 * w₂.cm.totalSects := by
    intro p hp
    rw [hfixed.totalSects, htotal]
    simp only [List.mem_cons, List.not_mem_nil, or_false] at hp
    rcases hp with rfl | rfl
    · decide
    · decide
  obtain ⟨w₃, hrest⟩ := fillers_return [5, 6] h₂ (hfixed.env ▸ hn) hrange
  have hrun : runTracks twoBlocks w₁ = .ok () w₃ := by
    have hfirst : Track.run (.writeCurrent 5 fun _ => 7) w₁ = .ok () w₂ := hstore
    rw [twoBlocks, runTracks]
    change EStateM.bind _ _ w₁ = _
    rw [EStateM.bind, hfirst]
    exact hrest
  refine ⟨w₁, w₃, hinit, hrun, nr_changed_blocks_counts hinit twoBlocks (fun t ht => ?_) hrun⟩
  rw [htotal]
  simp only [twoBlocks, List.mem_cons, List.not_mem_nil, or_false] at ht
  rcases ht with rfl | rfl | rfl <;> simp [Track.InRange]

end ElastioSnap.Cow.Changed
