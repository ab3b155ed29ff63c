import ElastioSnap.Cow.Lifecycle
import ElastioSnap.Incremental.TracingMrf
import ElastioSnap.Snapshot.CowThread
import Mathlib.Data.List.TakeWhile

namespace ElastioSnap.Incremental.Positions

open Cow.Manager Cow.Lifecycle Snapshot.Tracking Snapshot.TraceBio Snapshot.Blocks Snapshot.CowThread IncTrace

/-- The manager that `__tracer_setup_cow` makes for a device, as `cow_init` and `cow_reload` lay it out. -/
def tracerSetupCow (ps : Nat) (d : Device) (cacheSize : Nat) (cm : CowManager) : CowManager :=
  layout ps (UInt64.ofNat (d.size / d.sectorsPerBlock)) (cowSectionSize ps) cacheSize cm

/-- The section of a block position is one of the array. -/
def InBounds (cm : CowManager) (pos : Nat) : Prop :=
  pos / cm.sectSize < cm.totalSects

instance (cm : CowManager) (pos : Nat) : Decidable (InBounds cm pos) :=
  inferInstanceAs (Decidable (_ < _))

/-- The loop of `snap_trace_bio`, by how many pages the queue takes at each round: the first sector and
the pages of each read clone. A round that fails ends it. -/
def readClones (d : Device) : List Nat → Nat → Nat → List (Nat × Nat)
  | [], _, _ => []
  | n :: cuts, startSect, pages =>
      if 0 < n ∧ n ≤ min pages bioMaxPages then
        (startSect, n) ::
          if n < pages then readClones d cuts (startSect + d.sectorsPerBlock * n) (pages - n) else []
      else []

/-- The positions at which `snap_handle_write_bio` stores the pages of a clone. -/
def snapHandleWriteBio (d : Device) (clone : Nat × Nat) : List Nat :=
  List.range' ((clone.1 - d.sectOff) / d.sectorsPerBlock) clone.2

/-- What leads to an access to the index: a traced write in snapshot or in incremental mode, or a
snapshot read. In snapshot mode the write is what is left of the bio after the split at `queue_max_sectors`. -/
inductive Request
  | snapWrite (sector sectors : Nat)
  | incWrite (cow : CowFile) (sector : Nat) (data : Payload)
  | snapRead (sector sectors : Nat)

/-- `tracing_mrf` decides to trace the write, or the read lies within the capacity of the snapshot device. -/
def Request.Accepted (d : Device) : Request → Prop
  | .snapWrite sector sectors => 0 < sectors ∧ d.sectOff ≤ sector ∧ sector < d.sectOff + d.size
  | .incWrite _ sector data => 0 < data.sectors ∧ d.sectOff ≤ sector ∧ sector < d.sectOff + d.size
  | .snapRead sector sectors => sector + sectors ≤ d.size

/-- A position that the request passes to the index, with some cut into clones or some allocations
of sector sets. -/
def Request.Passes (d : Device) (r : Request) (pos : Nat) : Prop :=
  match r with
  | .snapWrite sector sectors =>
      let w := newWrite d sector sectors
      ∃ cuts, ∃ clone ∈ readClones d cuts w.startSect w.pages, pos ∈ snapHandleWriteBio d clone
  | .incWrite cow sector data => ∃ alloc, ∃ x ∈ (incTraceBio d cow alloc sector data).1, pos ∈ incHandleSset d x
  | .snapRead sector sectors => pos ∈ blocks d sector sectors

/-- The sectors that a request is about, relative to the device. -/
def Request.Sector (d : Device) (r : Request) (s : Nat) : Prop :=
  match r with
  | .snapWrite sector sectors => ∃ t, sector ≤ t ∧ t < sector + sectors ∧ s = t - d.sectOff
  | .incWrite cow sector data => ∃ t, Tracks cow sector data t ∧ s = t - d.sectOff
  | .snapRead sector sectors => sector ≤ s ∧ s < sector + sectors

/-- How many sectors the sections have entries for. -/
def indexedSectors (ps : Nat) (d : Device) : Nat :=
  d.sectorsPerBlock * (2 ^ ps * ((d.size / d.sectorsPerBlock + 2 ^ ps - 1) / 2 ^ ps))

variable {ps : Nat} {d : Device} {cow : CowFile} {data : Payload} {r : Request} {cm : CowManager}
  {sector sectors pos startSect pages : Nat} {cuts : List Nat} {clone : Nat × Nat}

theorem getOrder_section : getOrder ps (cowSectionSize ps * 8) = 3 := by
  have hdiv : (cowSectionSize ps * 8 + pageSize ps - 1) / pageSize ps = 2 ^ 3 := by
    have hpos : 0 < pageSize ps := Nat.two_pow_pos ps
    rw [cowSectionSize, Nat.add_sub_assoc hpos, Nat.mul_add_div hpos, Nat.div_eq_of_lt (by omega)]
    rfl
  rw [getOrder, hdiv, Nat.clog_pow 2 3 (by omega)]

/-- The array has a section for each begun run of `2 ^ ps` blocks of the rounded-down size. -/
theorem totalSects_setup (cacheSize : Nat) (hd : d.sectorsPerBlock = sectorsPerBlock ps) (hs : d.size < 2 ^ 64)
    (h12 : 12 ≤ ps) (h16 : ps ≤ 16) :
    (tracerSetupCow ps d cacheSize cm).totalSects = (d.size / d.sectorsPerBlock + 2 ^ ps - 1) / 2 ^ ps := by
  have hspb : 8 ≤ d.sectorsPerBlock := by
    rw [hd, sectorsPerBlock, cowBlockSize, Nat.le_div_iff_mul_le (by decide)]
    exact Nat.le_trans (by decide) (Nat.pow_le_pow_right (by decide) h12)
  have hblocks : d.size / d.sectorsPerBlock < 2 ^ 61 :=
    Nat.div_lt_of_lt_mul (Nat.lt_of_lt_of_le hs (Nat.mul_le_mul_right (2 ^ 61) hspb))
  have hpage : 2 ^ ps ≤ 2 ^ 16 := Nat.pow_le_pow_right (by decide) h16
  have helems : (UInt64.ofNat (d.size / d.sectorsPerBlock)).toNat = d.size / d.sectorsPerBlock := by
    rw [UInt64.toNat_ofNat']
    exact Nat.mod_eq_of_lt (by omega)
  simp only [tracerSetupCow, layout, sectionTotal, getOrder_section, helems, numSegments, Nat.add_sub_cancel_left]
  rw [Nat.mod_eq_of_lt (by omega)]

/-- The clones begin at blocks and stay within what is to be read. -/
theorem readClones_within (h : clone ∈ readClones d cuts startSect pages) :
    ∃ m, clone.1 = startSect + d.sectorsPerBlock * m ∧ m + clone.2 ≤ pages := by
  induction cuts generalizing startSect pages with
  | nil => cases h
  | cons n cuts ih =>
      simp only [readClones] at h
      split at h
      next hn =>
        have hle : n ≤ pages := Nat.le_trans hn.2 (Nat.min_le_left _ _)
        rcases List.mem_cons.mp h with rfl | h
        · exact ⟨0, rfl, by omega⟩
        · split at h
          next =>
            obtain ⟨m, hm, hp⟩ := ih h
            exact ⟨n + m, by rw [hm, Nat.mul_add, Nat.add_assoc], by omega⟩
          next => cases h
      next => cases h

/-- Cut into single pages, the clones begin at every block. -/
theorem readClones_single {m : Nat} (hm : m < pages) :
    (startSect + d.sectorsPerBlock * m, 1) ∈ readClones d (List.replicate pages 1) startSect pages := by
  induction pages generalizing startSect m with
  | zero => omega
  | succ pages ih =>
      rw [List.replicate_succ, readClones, if_pos ⟨Nat.one_pos, by unfold bioMaxPages; omega⟩]
      cases m with
      | zero => exact List.mem_cons_self
      | succ m =>
          rw [if_pos (by omega), Nat.add_sub_cancel]
          have hmem : (startSect + d.sectorsPerBlock * 1 + d.sectorsPerBlock * m, 1) ∈ _ := ih (by omega)
          rw [Nat.add_assoc, ← Nat.mul_add, Nat.add_comm 1 m] at hmem
          exact List.mem_cons_of_mem _ hmem

theorem snapWrite_passes (ho : d.sectOff ≤ sector) (hn : 0 < sectors) :
    (Request.snapWrite sector sectors).Passes d pos ↔ d.Overlaps sector sectors pos := by
  rw [← TracingMrf.captures_newWrite ho hn, TracingMrf.Captures]
  simp only [Request.Passes]
  have hstart : (newWrite d sector sectors).startSect = d.sector ((sector - d.sectOff) / d.sectorsPerBlock) 0 :=
    startSect_eq
  have hblock (m : Nat) : (d.sector ((sector - d.sectOff) / d.sectorsPerBlock) 0 + d.sectorsPerBlock * m - d.sectOff) /
      d.sectorsPerBlock = (sector - d.sectOff) / d.sectorsPerBlock + m := by
    rw [sector_add]
    exact block_sector d.pos
  rw [hstart, sector_add, sector_succ, sector_le_iff, sector_le_iff]
  constructor
  · rintro ⟨cuts, clone, hc, hpos⟩
    obtain ⟨m, hm, hle⟩ := readClones_within hc
    rw [snapHandleWriteBio, hm, hblock, List.mem_range'_1] at hpos
    omega
  · rintro ⟨hlo, hhi⟩
    refine ⟨_, _, readClones_single (m := pos - (sector - d.sectOff) / d.sectorsPerBlock) (by omega), ?_⟩
    rw [snapHandleWriteBio, hblock, List.mem_range'_1]
    omega

theorem incWrite_passes (ho : d.sectOff ≤ sector) (hn : 0 < data.sectors) :
    (Request.incWrite cow sector data).Passes d pos ↔ ∃ t, Tracks cow sector data t ∧ d.block t = pos := by
  simp only [Request.Passes]
  constructor
  · rintro ⟨alloc, x, hx, hb⟩
    obtain ⟨r, hr, rfl⟩ := mem_incTraceBio hx
    have hpos := bioRanges_pos hn r hr
    rw [mem_incHandleSset (Nat.le_trans ho (bioRanges_from r hr hpos).1) hpos] at hb
    obtain ⟨t, hlo, hhi, hblock⟩ := hb
    exact ⟨t, inRanges_bio.mp ⟨r, hr, hlo, hhi⟩, hblock⟩
  · rintro ⟨t, ht, hblock⟩
    obtain ⟨r, hr, hlo, hhi⟩ := inRanges_bio.mpr ht
    have hpos := bioRanges_pos hn r hr
    refine ⟨fun _ => true, incMakeSset d r.1 r.2, incTraceBio_complete ?_ hr, ?_⟩
    · simp only [incTraceBio, decide_eq_false_iff_not, Nat.not_lt]
      rw [List.takeWhile_eq_self_iff.mpr fun _ _ => rfl, List.length_zipIdx]
    · rw [mem_incHandleSset (Nat.le_trans ho (bioRanges_from r hr hpos).1) hpos]
      exact ⟨t, hlo, hhi, hblock⟩

/-- A request passes the blocks of its sectors, and only them. -/
theorem passes_iff (h : r.Accepted d) : r.Passes d pos ↔ ∃ s, r.Sector d s ∧ s / d.sectorsPerBlock = pos := by
  cases r with
  | snapWrite sector sectors =>
      rw [snapWrite_passes h.2.1 h.1]
      constructor
      · exact fun ⟨t, hlo, hhi, hb⟩ => ⟨_, ⟨t, hlo, hhi, rfl⟩, hb⟩
      · rintro ⟨_, ⟨t, hlo, hhi, rfl⟩, hb⟩
        exact ⟨t, hlo, hhi, hb⟩
  | incWrite cow sector data =>
      rw [incWrite_passes h.2.1 h.1]
      constructor
      · exact fun ⟨t, ht, hb⟩ => ⟨_, ⟨t, ht, rfl⟩, hb⟩
      · rintro ⟨_, ⟨t, ht, rfl⟩, hb⟩
        exact ⟨t, ht, hb⟩
  | snapRead sector sectors =>
      simp only [Request.Passes, Request.Sector, blocks, List.mem_map, List.mem_range'_1]

/-- All positions of a request have a section exactly if no sector of it lies behind the last one that
has an entry. -/
theorem positions_in_bounds_iff (cacheSize : Nat) (cm : CowManager) (hd : d.sectorsPerBlock = sectorsPerBlock ps)
    (hs : d.size < 2 ^ 64) (h12 : 12 ≤ ps) (h16 : ps ≤ 16) (h : r.Accepted d) :
    (∀ pos, r.Passes d pos → InBounds (tracerSetupCow ps d cacheSize cm) pos) ↔
      ∀ s, r.Sector d s → s < indexedSectors ps d := by
  have hsect : (tracerSetupCow ps d cacheSize cm).sectSize = 2 ^ ps := rfl
  have hbound (s : Nat) : InBounds (tracerSetupCow ps d cacheSize cm) (s / d.sectorsPerBlock) ↔
      s < indexedSectors ps d := by
    rw [InBounds, totalSects_setup cacheSize hd hs h12 h16, hsect, Nat.div_lt_iff_lt_mul (Nat.two_pow_pos ps),
      Nat.div_lt_iff_lt_mul d.pos, indexedSectors, Nat.mul_comm d.sectorsPerBlock, Nat.mul_comm (2 ^ ps)]
  simp only [passes_iff h, ← hbound]
  constructor
  · exact fun hall s hr => hall _ ⟨s, hr, rfl⟩
  · rintro hall _ ⟨s, hr, rfl⟩
    exact hall s hr

/-- A device whose size is four sectors more than one section has entries for. -/
def tailed : Device where
  sectOff := 0
  size := 32772
  sectorsPerBlock := 8
  ignoreSnapErrors := false
  owned _ := false
  pos := eight_pos

theorem positions_in_bounds_iff_example : (Request.snapWrite 32760 8).Accepted tailed ∧
    ∀ pos, (Request.snapWrite 32760 8).Passes tailed pos → InBounds (tracerSetupCow 12 tailed 0 .zero) pos := by
  have haccepted : (Request.snapWrite 32760 8).Accepted tailed := ⟨by decide, by decide, by decide⟩
  refine ⟨haccepted, (positions_in_bounds_iff (r := .snapWrite 32760 8) 0 .zero
    (rfl : tailed.sectorsPerBlock = sectorsPerBlock 12) (by decide) (by decide) (by decide) haccepted).mpr ?_⟩
  intro s hs
  obtain ⟨t, _, hhi, hs⟩ := hs
  rw [hs]
  exact Nat.lt_of_le_of_lt (Nat.sub_le t 0) (Nat.lt_of_lt_of_le hhi (by decide))

/-- A write of the last sectors goes to a section behind the array, as a read of them does. -/
theorem position_out_of_bounds : ¬ ∀ (ps cacheSize : Nat) (d : Device) (cm : CowManager) (r : Request),
    d.sectorsPerBlock = sectorsPerBlock ps → d.size < 2 ^ 64 → 12 ≤ ps → ps ≤ 16 → r.Accepted d →
      ∀ pos, r.Passes d pos → InBounds (tracerSetupCow ps d cacheSize cm) pos := by
  intro h
  have hpass : (Request.snapWrite 32768 4).Passes tailed 4096 :=
    (snapWrite_passes (by decide) (by decide)).mpr ⟨32768, by decide, by decide, by decide⟩
  have hbound := h 12 0 tailed .zero (.snapWrite 32768 4) rfl (by decide) (by decide) (by decide)
    ⟨by decide, by decide, by decide⟩ 4096 hpass
  rw [InBounds, totalSects_setup 0 rfl (by decide) (by decide) (by decide)] at hbound
  exact absurd hbound (by decide)

end ElastioSnap.Incremental.Positions
