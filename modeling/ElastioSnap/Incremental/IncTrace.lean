import ElastioSnap.Snapshot.Blocks

namespace ElastioSnap.Incremental.IncTrace

open Snapshot.Tracking Snapshot.Blocks

/-- One segment of a bio: the inode that its page belongs to, if any, and its length in sectors. -/
structure Segment where
  inode : Option Nat
  sectors : Nat
  pos : 0 < sectors
  deriving Repr

theorem Segment.ext_iff {a b : Segment} : a.inode = b.inode ∧ a.sectors = b.sectors ↔ a = b := by
  cases a
  cases b
  simp only [Segment.mk.injEq]

instance : DecidableEq Segment := fun _ _ => decidable_of_iff _ Segment.ext_iff

/-- Only a bio that writes data has pages. -/
inductive Payload
  | discard (sectors : Nat)
  | writeZeroes (sectors : Nat)
  | pages (segs : List Segment)
  deriving DecidableEq, Repr

def Payload.sectors : Payload → Nat
  | .discard n => n
  | .writeZeroes n => n
  | .pages segs => (segs.map (·.sectors)).sum

def Payload.isDiscard : Payload → Bool
  | .discard _ => true
  | _ => false

/-- The COW file of a tracker: its inode, where it is on the tracked device. -/
structure CowFile where
  onBdev : Bool
  inode : Option Nat
  deriving DecidableEq, Repr

structure SectorSet where
  sect : Nat
  len : Nat
  deriving DecidableEq, Repr

def incMakeSset (d : Device) (sect len : Nat) : SectorSet := ⟨sect - d.sectOff, len⟩

/-- The loop over the segments: the runs of sectors whose pages are not the COW file's. -/
def ranges (cow : CowFile) : List Segment → Bool → Nat → Nat → List (Nat × Nat)
  | [], isInitialized, startSect, endSect =>
      if isInitialized && decide (0 < endSect - startSect) then [(startSect, endSect - startSect)] else []
  | seg :: segs, isInitialized, startSect, endSect =>
      if seg.inode ≠ cow.inode then
        ranges cow segs true (if isInitialized then startSect else endSect) (endSect + seg.sectors)
      else
        (if isInitialized && decide (0 < endSect - startSect) then [(startSect, endSect - startSect)] else []) ++
          ranges cow segs false startSect (endSect + seg.sectors)

def bioRanges (cow : CowFile) (sector : Nat) : Payload → List (Nat × Nat)
  | .pages segs =>
      if cow.onBdev then ranges cow segs false 0 sector else [(sector, (Payload.pages segs).sectors)]
  | .writeZeroes n => [(sector, n)]
  | .discard n => if cow.onBdev then [] else [(sector, n)]

/-- The sector sets that are queued, and whether the allocation of one failed. -/
def incTraceBio (d : Device) (cow : CowFile) (alloc : Nat → Bool) (sector : Nat) (data : Payload) :
    List SectorSet × Bool :=
  let wanted := (bioRanges cow sector data).map fun r => incMakeSset d r.1 r.2
  let made := wanted.zipIdx.takeWhile fun s => alloc s.2
  (made.map (·.1), decide (made.length < wanted.length))

/-- The blocks for which `inc_handle_sset` writes a mapping. -/
def incHandleSset (d : Device) (s : SectorSet) : List Nat :=
  let startBlock := s.sect / d.sectorsPerBlock
  let endBlock := (s.sect + s.len + d.sectorsPerBlock - 1) / d.sectorsPerBlock
  List.range' startBlock (endBlock - startBlock)

/-- A sector that a bio writes with a page that is not the COW file's. -/
def Writes (cow : CowFile) : List Segment → Nat → Nat → Prop
  | [], _, _ => False
  | seg :: segs, sector, t =>
      (sector ≤ t ∧ t < sector + seg.sectors ∧ seg.inode ≠ cow.inode) ∨ Writes cow segs (sector + seg.sectors) t

def InRanges (rs : List (Nat × Nat)) (t : Nat) : Prop :=
  ∃ r ∈ rs, r.1 ≤ t ∧ t < r.1 + r.2

variable {d : Device} {cow : CowFile} {segs : List Segment} {sector t b : Nat} {data : Payload}

@[simp] theorem inRanges_nil : ¬ InRanges [] t := fun ⟨_, hr, _⟩ => List.not_mem_nil hr

@[simp] theorem inRanges_append {rs rs' : List (Nat × Nat)} :
    InRanges (rs ++ rs') t ↔ InRanges rs t ∨ InRanges rs' t := by
  simp only [InRanges, List.mem_append, or_and_right, exists_or]

@[simp] theorem inRanges_singleton {r : Nat × Nat} : InRanges [r] t ↔ r.1 ≤ t ∧ t < r.1 + r.2 := by
  simp only [InRanges, List.mem_singleton, exists_eq_left]

/-- The run that is closed at the end of a loop round. -/
theorem inRanges_closed {isInitialized : Bool} {startSect endSect : Nat} :
    InRanges (if isInitialized && decide (0 < endSect - startSect) then [(startSect, endSect - startSect)] else []) t ↔
      isInitialized = true ∧ startSect ≤ t ∧ t < endSect := by
  split
  next hc =>
    rw [Bool.and_eq_true, decide_eq_true_eq] at hc
    rw [inRanges_singleton]
    constructor
    · exact fun ⟨hlo, hhi⟩ => ⟨hc.1, hlo, by omega⟩
    · exact fun ⟨_, hlo, hhi⟩ => ⟨hlo, by omega⟩
  next hc =>
    refine iff_of_false inRanges_nil fun ⟨hi, hlo, hhi⟩ => hc ?_
    rw [hi, Bool.true_and, decide_eq_true_eq]
    omega

/-- The loop has made sets of what lies behind it, except for the run that is still open. -/
theorem inRanges_ranges {isInitialized : Bool} {startSect endSect : Nat}
    (h : isInitialized = true → startSect ≤ endSect) :
    InRanges (ranges cow segs isInitialized startSect endSect) t ↔
      (isInitialized = true ∧ startSect ≤ t ∧ t < endSect) ∨ Writes cow segs endSect t := by
  induction segs generalizing isInitialized startSect endSect with
  | nil => simp only [ranges, inRanges_closed, Writes, or_false]
  | cons seg segs ih =>
      simp only [ranges, Writes]
      split
      next hne =>
        cases isInitialized with
        | false =>
            rw [if_neg Bool.false_ne_true, ih fun _ => Nat.le_add_right _ _]
            simp [hne]
        | true =>
            have hle := h rfl
            rw [if_pos rfl, ih fun _ => Nat.le_trans hle (Nat.le_add_right _ _), ← or_assoc]
            refine or_congr ?_ Iff.rfl
            simp only [true_and, hne, ne_eq, not_false_eq_true, and_true]
            omega
      next heq =>
        rw [not_not] at heq
        rw [inRanges_append, inRanges_closed, ih fun hf => absurd hf Bool.false_ne_true]
        simp [heq]

theorem writes_between (h : Writes cow segs sector t) : sector ≤ t ∧ t < sector + (segs.map (·.sectors)).sum := by
  induction segs generalizing sector with
  | nil => exact h.elim
  | cons seg segs ih =>
      rw [List.map_cons, List.sum_cons]
      rcases h with ⟨hlo, hhi, _⟩ | h
      · omega
      · have := ih h
        omega

theorem ranges_pos {isInitialized : Bool} {startSect endSect : Nat} :
    ∀ r ∈ ranges cow segs isInitialized startSect endSect, 0 < r.2 := by
  induction segs generalizing isInitialized startSect endSect with
  | nil =>
      intro r hr
      simp only [ranges] at hr
      split at hr <;> simp_all
  | cons seg segs ih =>
      intro r hr
      simp only [ranges] at hr
      split at hr
      · exact ih r hr
      · rcases List.mem_append.mp hr with hr | hr
        · split at hr <;> simp_all
        · exact ih r hr

/-- The sectors of a bio that incremental tracking is to record. -/
def Tracks (cow : CowFile) (sector : Nat) (data : Payload) (t : Nat) : Prop :=
  match data with
  | .pages segs => if cow.onBdev then Writes cow segs sector t else sector ≤ t ∧ t < sector + data.sectors
  | .writeZeroes n => sector ≤ t ∧ t < sector + n
  | .discard n => cow.onBdev = false ∧ sector ≤ t ∧ t < sector + n

theorem inRanges_bio : InRanges (bioRanges cow sector data) t ↔ Tracks cow sector data t := by
  cases data with
  | pages segs =>
      simp only [bioRanges, Tracks]
      split
      · rw [inRanges_ranges fun hf => absurd hf Bool.false_ne_true]
        simp
      · exact inRanges_singleton
  | writeZeroes n => exact inRanges_singleton
  | discard n => cases h : cow.onBdev <;> simp [bioRanges, Tracks, h]

theorem bioRanges_pos (hn : 0 < data.sectors) : ∀ r ∈ bioRanges cow sector data, 0 < r.2 := by
  intro r hr
  cases data with
  | pages segs =>
      simp only [bioRanges] at hr
      split at hr
      · exact ranges_pos r hr
      · rw [List.mem_singleton.mp hr]
        exact hn
  | writeZeroes n =>
      rw [List.mem_singleton.mp hr]
      exact hn
  | discard n =>
      simp only [bioRanges] at hr
      split at hr
      · cases hr
      · rw [List.mem_singleton.mp hr]
        exact hn

theorem tracks_between (h : Tracks cow sector data t) : sector ≤ t ∧ t < sector + data.sectors := by
  cases data with
  | pages segs =>
      simp only [Tracks] at h
      split at h
      · exact writes_between h
      · exact h
  | writeZeroes n => exact h
  | discard n => exact h.2

theorem bioRanges_from : ∀ r ∈ bioRanges cow sector data, 0 < r.2 → sector ≤ r.1 ∧ r.1 + r.2 ≤ sector + data.sectors := by
  intro r hr hpos
  have hfirst := tracks_between (inRanges_bio.mp ⟨r, hr, Nat.le_refl _, by omega⟩)
  have hlast := tracks_between (inRanges_bio.mp ⟨r, hr, (by omega : r.1 ≤ r.1 + r.2 - 1), by omega⟩)
  omega

/-- A sector set marks the blocks that it overlaps. -/
theorem mem_incHandleSset {sect len : Nat} (ho : d.sectOff ≤ sect) (hn : 0 < len) :
    b ∈ incHandleSset d (incMakeSset d sect len) ↔ d.Overlaps sect len b := by
  have hpos := d.pos
  simp only [incHandleSset, incMakeSset, List.mem_range'_1]
  have hle : (sect - d.sectOff) / d.sectorsPerBlock ≤
      (sect - d.sectOff + len + d.sectorsPerBlock - 1) / d.sectorsPerBlock := Nat.div_le_div_right (by omega)
  rw [Nat.add_sub_of_le hle, Nat.div_le_iff_le_mul_add_pred hpos, Nat.lt_iff_add_one_le,
    Nat.le_div_iff_mul_le hpos, Nat.add_one_mul]
  constructor
  · rintro ⟨hlo, hhi⟩
    by_cases hfirst : sect - d.sectOff ≤ d.sectorsPerBlock * b
    · refine ⟨d.sector b 0, ?_, ?_, block_sector hpos⟩
      · simp only [Device.sector]
        omega
      · simp only [Device.sector]
        rw [Nat.mul_comm] at hhi
        omega
    · refine ⟨sect, Nat.le_refl _, by omega, ?_⟩
      exact Nat.div_eq_of_lt_le (by rw [Nat.mul_comm]; omega) (by rw [Nat.add_one_mul, Nat.mul_comm]; omega)
  · rintro ⟨t, hlo, hhi, rfl⟩
    have hm := Nat.div_add_mod (t - d.sectOff) d.sectorsPerBlock
    have hr := Nat.mod_lt (t - d.sectOff) hpos
    simp only [Device.block]
    rw [Nat.mul_comm ((t - d.sectOff) / d.sectorsPerBlock)]
    omega

theorem mem_incTraceBio {alloc : Nat → Bool} {x : SectorSet}
    (h : x ∈ (incTraceBio d cow alloc sector data).1) :
    ∃ r ∈ bioRanges cow sector data, x = incMakeSset d r.1 r.2 := by
  simp only [incTraceBio, List.mem_map] at h
  obtain ⟨⟨y, j⟩, hm, rfl⟩ := h
  have hm := List.fst_mem_of_mem_zipIdx ((List.takeWhile_sublist _).subset hm)
  obtain ⟨r, hr, rfl⟩ := List.mem_map.mp hm
  exact ⟨r, hr, rfl⟩

/-- With no allocation failing, every run of sectors has its set. -/
theorem incTraceBio_complete {alloc : Nat → Bool}
    (h : (incTraceBio d cow alloc sector data).2 = false) {r : Nat × Nat} (hr : r ∈ bioRanges cow sector data) :
    incMakeSset d r.1 r.2 ∈ (incTraceBio d cow alloc sector data).1 := by
  simp only [incTraceBio, decide_eq_false_iff_not, Nat.not_lt] at h ⊢
  rw [← List.length_zipIdx (i := 0)] at h
  rw [(List.takeWhile_prefix _).eq_of_length_le h, List.zipIdx_map_fst]
  exact List.mem_map_of_mem hr

end ElastioSnap.Incremental.IncTrace
