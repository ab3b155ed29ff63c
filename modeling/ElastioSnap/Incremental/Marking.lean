import ElastioSnap.Cow.Start
import ElastioSnap.Incremental.IncTrace
import ElastioSnap.Snapshot.Machine

namespace ElastioSnap.Incremental.Marking

open Lib.Outcome Snapshot.Tracking IncTrace Cow.Manager Cow.FileIo Cow.Section Cow.Mapping Cow.Start
open Snapshot.Machine (disk)
open Cow.Lifecycle (cowInit)

/-- The loop of `inc_handle_sset` over its blocks. -/
def writeFillers : List Nat → CowM Unit
  | [] => pure ()
  | b :: bs => do
      cowWriteFillerMapping 12 (UInt64.ofNat b)
      writeFillers bs

def handleSsets (d : Device) : List SectorSet → CowM Unit
  | [] => pure ()
  | sset :: ssets => do
      writeFillers (incHandleSset d sset)
      handleSsets d ssets

/-- A sector of a segment that does not belong to a resident COW file. A bio that writes zeroes has no
pages of the file. -/
def Changed (resident : Bool) (inode : Nat) : List Segment → Nat → Nat → Prop
  | [], _, _ => False
  | seg :: segs, sector, t => (sector ≤ t ∧ t < sector + seg.sectors ∧ ¬ (resident = true ∧ seg.inode = some inode)) ∨
      Changed resident inode segs (sector + seg.sectors) t

def Writes (resident : Bool) (inode sector : Nat) (data : Payload) (t : Nat) : Prop :=
  match data with
  | .pages segs => Changed resident inode segs sector t
  | _ => sector ≤ t ∧ t < sector + data.sectors

/-- A write bio that `tracing_mrf` gives to `inc_trace_bio`. -/
structure Traced (d : Device) (sector : Nat) (data : Payload) : Prop where
  nonempty : 0 < data.sectors
  first : d.sectOff ≤ sector
  last : sector + data.sectors ≤ d.sectOff + d.size
  discard : data.isDiscard = false

/-- The entries of some blocks become nonzero, and nothing else changes about which are. -/
structure Marks (w w' : World) (P : Nat → Prop) : Prop where
  wf : Wf w'
  totalSects : w'.cm.totalSects = w.cm.totalSects
  filp : w'.cm.filp = w.cm.filp
  env : w'.env = w.env
  marked : ∀ b, b < 4096 * w.cm.totalSects → (indexAt w' b ≠ 0 ↔ indexAt w b ≠ 0 ∨ P b)

variable {d : Device} {w w' w'' : World} {P Q : Nat → Prop} {bs : List Nat} {ssets : List SectorSet} {b t sector inode : Nat}
  {resident : Bool} {segs : List Segment} {data : Payload} {alloc : Nat → Bool}

theorem Marks.refl (h : Wf w) : Marks w w fun _ => False :=
  ⟨h, rfl, rfl, rfl, fun _ _ => (or_false _).symm.to_iff⟩

theorem Marks.trans (h : Marks w w' P) (h' : Marks w' w'' Q) : Marks w w'' fun b => P b ∨ Q b where
  wf := h'.wf
  totalSects := h'.totalSects.trans h.totalSects
  filp := h'.filp.trans h.filp
  env := h'.env.trans h.env
  marked b hb := by rw [h'.marked b (by rw [h.totalSects]; exact hb), h.marked b hb, or_assoc]

theorem Marks.congr (h : Marks w w' P) (hpq : ∀ b, P b ↔ Q b) : Marks w w' Q :=
  ⟨h.wf, h.totalSects, h.filp, h.env, fun b hb => (h.marked b hb).trans (or_congr Iff.rfl (hpq b))⟩

theorem Marks.excused (h : Marks w w' P) (he : Excused w') : Excused w := by
  intro hf hn
  exact he (h.filp.trans hf) (h.env ▸ hn)

theorem cowWriteFillerMapping_wp (hwf : Wf w) (hb : b < 4096 * w.cm.totalSects) :
    wp (cowWriteFillerMapping 12 (UInt64.ofNat b)) w (fun _ w' => Marks w w' (· = b)) (fun _ _ => Excused w) := by
  have hsmall := hwf.small
  have hto : (UInt64.ofNat b).toNat = b := by
    rw [UInt64.toNat_ofNat']
    exact Nat.mod_eq_of_lt (by omega)
  apply wp_mono (cowWriteMapping_wp hwf (by rw [hto]; exact hb) 1)
  · intro _ w' hput
    refine ⟨hput.wf, by rw [hput.cm], by rw [hput.cm], hput.env, fun p hp => ?_⟩
    rw [hput.index p hp, hto]
    by_cases h : p = b
    · rw [if_pos h]
      exact iff_of_true (by decide) (.inr h)
    · rw [if_neg h]
      exact (or_iff_left h).symm
  · exact fun _ _ h => h.1

theorem writeFillers_wp (hwf : Wf w) (hbs : ∀ b ∈ bs, b < 4096 * w.cm.totalSects) :
    wp (writeFillers bs) w (fun _ w' => Marks w w' (· ∈ bs)) (fun _ _ => Excused w) := by
  induction bs generalizing w with
  | nil => exact (Marks.refl hwf).congr fun b => by simp
  | cons b bs ih =>
      rw [writeFillers, wp_bind]
      apply wp_mono (cowWriteFillerMapping_wp hwf (hbs b List.mem_cons_self))
      · intro _ w₁ h
        apply wp_mono (ih h.wf fun b' hb' => by rw [h.totalSects]; exact hbs b' (List.mem_cons_of_mem _ hb'))
        · exact fun _ w₂ h' => (h.trans h').congr fun b' => by simp
        · exact fun _ _ he => h.excused he
      · exact fun _ _ h => h

theorem handleSsets_wp (hwf : Wf w) (hs : ∀ sset ∈ ssets, ∀ b ∈ incHandleSset d sset, b < 4096 * w.cm.totalSects) :
    wp (handleSsets d ssets) w (fun _ w' => Marks w w' fun b => ∃ sset ∈ ssets, b ∈ incHandleSset d sset)
      (fun _ _ => Excused w) := by
  induction ssets generalizing w with
  | nil => exact (Marks.refl hwf).congr fun b => by simp
  | cons sset ssets ih =>
      rw [handleSsets, wp_bind]
      apply wp_mono (writeFillers_wp hwf (hs sset List.mem_cons_self))
      · intro _ w₁ h
        apply wp_mono (ih h.wf fun s' hs' b hb => by rw [h.totalSects]; exact hs s' (List.mem_cons_of_mem _ hs') b hb)
        · exact fun _ w₂ h' => (h.trans h').congr fun b' => by simp
        · exact fun _ _ he => h.excused he
      · exact fun _ _ h => h

theorem changed_resident : Changed true inode segs sector t ↔ IncTrace.Writes ⟨true, some inode⟩ segs sector t := by
  induction segs generalizing sector with
  | nil => rfl
  | cons seg segs ih => simp only [Changed, IncTrace.Writes, ih, true_and, ne_eq]

theorem changed_elsewhere :
    Changed false inode segs sector t ↔ sector ≤ t ∧ t < sector + (segs.map (·.sectors)).sum := by
  induction segs generalizing sector with
  | nil => simp [Changed]
  | cons seg segs ih =>
      simp only [Changed, ih, List.map_cons, List.sum_cons, Bool.false_eq_true, false_and, not_false_eq_true, and_true]
      omega

/-- The sectors that the loop of `inc_trace_bio` is to record are those that change. -/
theorem tracks_iff (hd : data.isDiscard = false) :
    Tracks ⟨resident, some inode⟩ sector data t ↔ Writes resident inode sector data t := by
  cases data with
  | pages segs =>
      cases resident with
      | true => exact changed_resident.symm
      | false => exact changed_elsewhere.symm
  | writeZeroes n => rfl
  | discard n => cases hd

theorem mem_incHandleSset_range {r : Nat × Nat} (h : Traced d sector data)
    (hr : r ∈ bioRanges ⟨resident, some inode⟩ sector data) :
    b ∈ incHandleSset d (incMakeSset d r.1 r.2) ↔ ∃ t, r.1 ≤ t ∧ t < r.1 + r.2 ∧ d.block t = b := by
  have hpos := bioRanges_pos h.nonempty r hr
  have hfrom := (bioRanges_from r hr hpos).1
  exact mem_incHandleSset (Nat.le_trans h.first hfrom) hpos

/-- Only changed blocks are in the sector sets. -/
theorem marked_changed (h : Traced d sector data)
    (hm : ∃ sset ∈ (incTraceBio d ⟨resident, some inode⟩ alloc sector data).1, b ∈ incHandleSset d sset) :
    ∃ t, d.block t = b ∧ Writes resident inode sector data t := by
  obtain ⟨sset, hs, hb⟩ := hm
  obtain ⟨r, hr, rfl⟩ := mem_incTraceBio hs
  obtain ⟨t, hlo, hhi, hblock⟩ := (mem_incHandleSset_range h hr).mp hb
  exact ⟨t, hblock, (tracks_iff h.discard).mp (inRanges_bio.mp ⟨r, hr, hlo, hhi⟩)⟩

/-- Every changed block is, if there was memory for them. -/
theorem changed_marked (h : Traced d sector data)
    (hok : (incTraceBio d ⟨resident, some inode⟩ alloc sector data).2 = false)
    (hc : ∃ t, d.block t = b ∧ Writes resident inode sector data t) :
    ∃ sset ∈ (incTraceBio d ⟨resident, some inode⟩ alloc sector data).1, b ∈ incHandleSset d sset := by
  obtain ⟨t, hblock, ht⟩ := hc
  obtain ⟨r, hr, hlo, hhi⟩ := inRanges_bio.mpr ((tracks_iff h.discard).mpr ht)
  exact ⟨_, incTraceBio_complete hok hr, (mem_incHandleSset_range h hr).mpr ⟨t, hlo, hhi, hblock⟩⟩

theorem writes_between (h : Writes resident inode sector data t) (hd : data.isDiscard = false) :
    sector ≤ t ∧ t < sector + data.sectors :=
  tracks_between ((tracks_iff hd).mpr h)

/-- Once the sector sets of a bio are handled without error, an entry that was nonzero still is, and
one that has become nonzero is that of a changed block. Every changed block has a nonzero entry, unless
the memory for a sector set was missing, which sets the fail state. -/
theorem marks_changed_blocks (hwf : Wf w) (h : Traced d sector data) (hsize : d.sectorsPerBlock ∣ d.size)
    (hindex : d.size / d.sectorsPerBlock ≤ 4096 * w.cm.totalSects) :
    wp (handleSsets d (incTraceBio d ⟨resident, some inode⟩ alloc sector data).1) w
      (fun _ w' => ∀ b, b < 4096 * w.cm.totalSects →
        (indexAt w b ≠ 0 → indexAt w' b ≠ 0) ∧
        (indexAt w' b ≠ 0 → indexAt w b ≠ 0 ∨ ∃ t, d.block t = b ∧ Writes resident inode sector data t) ∧
        ((incTraceBio d ⟨resident, some inode⟩ alloc sector data).2 = false →
          (∃ t, d.block t = b ∧ Writes resident inode sector data t) → indexAt w' b ≠ 0))
      (fun _ _ => Excused w) := by
  have hpos := d.pos
  refine wp_mono (handleSsets_wp hwf fun sset hs b hb => ?_) (fun _ w' hm b hb => ?_) fun _ _ h => h
  · obtain ⟨t, rfl, ht⟩ := marked_changed h ⟨sset, hs, hb⟩
    obtain ⟨hlo, hhi⟩ := writes_between ht h.discard
    have hfirst := h.first
    have hlast := h.last
    refine Nat.lt_of_lt_of_le ?_ hindex
    rw [Device.block, Nat.div_lt_iff_lt_mul hpos, Nat.div_mul_cancel hsize]
    omega
  · have hmb := hm.marked b hb
    exact ⟨fun h0 => hmb.mpr (.inl h0), fun h1 => (hmb.mp h1).imp_right (marked_changed h),
      fun hok hc => hmb.mpr (.inr (changed_marked h hok hc))⟩

/-- Eight sectors over the end of the first block. -/
def acrossBlocks : Payload := .pages [⟨none, 8, eight_pos⟩]

theorem acrossBlocks_traced : Traced disk 4 acrossBlocks := ⟨by decide, by decide, by decide, rfl⟩

theorem started_disk : ∃ w, cowInit 12 16 4096 0 1048576 (fun _ => 0) 1 calm = .ok () w ∧
    Started 16 1048576 1 (fun _ => 0) w ∧ w.cm.totalSects = 1 ∧ w.env = calm.env := by
  obtain ⟨w, hinit, hstarted, henv⟩ := cowInit_total (w := calm) 16 1048576 1 0 (fun _ => 0)
    (by rw [sectionTotal_eq]; decide) (by decide) (by decide) calm_faultless
  exact ⟨w, hinit, hstarted, by rw [hstarted.total, sectionTotal_eq]; decide, henv⟩

theorem indexAt_started {elements fileMax seqid : UInt64} {uuid : Fin 16 → UInt8}
    (h : Started elements fileMax seqid uuid w) : indexAt w b = 0 := by
  rw [indexAt, h.empty]
  rfl

theorem marks_across : ∃ w w', cowInit 12 16 4096 0 1048576 (fun _ => 0) 1 calm = .ok () w ∧
    handleSsets disk (incTraceBio disk ⟨true, some 7⟩ (fun _ => true) 4 acrossBlocks).1 w = .ok () w' ∧
    indexAt w' 1 ≠ 0 ∧ indexAt w' 2 = 0 := by
  obtain ⟨w, hinit, hstarted, htotal, henv⟩ := started_disk
  have h := @marks_changed_blocks disk w 4 7 true acrossBlocks (fun _ => true) hstarted.wf acrossBlocks_traced
    (by decide) (by rw [htotal]; decide)
  obtain ⟨_, w', hrun, hmarks⟩ := wp_total (wp_mono h (fun _ _ h => h)
    fun _ _ he => he hstarted.filp (by rw [henv]; exact calm_faultless))
  refine ⟨w, w', hinit, hrun, ?_, ?_⟩
  · exact (hmarks 1 (by omega)).2.2 (by decide) ⟨8, rfl, .inl ⟨by decide, by decide, by decide⟩⟩
  · refine Classical.byContradiction fun hne => ?_
    rcases (hmarks 2 (by omega)).2.1 hne with h0 | ⟨t, hblock, hw⟩
    · exact h0 (indexAt_started hstarted)
    · obtain ⟨hlo, hhi⟩ := writes_between hw rfl
      have ht : t < 12 := hhi
      have : t / 8 = 2 := hblock
      omega

/-- With no memory for its sector set the bio leaves no mark. -/
theorem change_unmarked : ¬ ∀ (d : Device) (w w' : World) (sector inode : Nat) (resident : Bool) (data : Payload)
    (alloc : Nat → Bool), Wf w → Traced d sector data → d.sectorsPerBlock ∣ d.size →
    d.size / d.sectorsPerBlock ≤ 4096 * w.cm.totalSects →
    handleSsets d (incTraceBio d ⟨resident, some inode⟩ alloc sector data).1 w = .ok () w' →
    ∀ b, b < 4096 * w.cm.totalSects →
      (indexAt w' b ≠ 0 ↔ indexAt w b ≠ 0 ∨ ∃ t, d.block t = b ∧ Writes resident inode sector data t) := by
  intro h
  obtain ⟨w, _, hstarted, htotal, _⟩ := started_disk
  have hmark := (h disk w w 4 7 true acrossBlocks (fun _ => false) hstarted.wf acrossBlocks_traced (by decide)
    (by rw [htotal]; decide) rfl 1 (by omega)).mpr (.inr ⟨8, rfl, .inl ⟨by decide, by decide, by decide⟩⟩)
  exact hmark (indexAt_started hstarted)

end ElastioSnap.Incremental.Marking
