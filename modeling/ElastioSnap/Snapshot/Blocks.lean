import ElastioSnap.Snapshot.TraceBio

namespace ElastioSnap.Snapshot.Blocks

open Queue Tracking TraceBio

variable {β : Type} {d : Device} {sector sectors b : Nat}

theorem startSect_eq : startSect d sector = d.sector ((sector - d.sectOff) / d.sectorsPerBlock) 0 := by
  simp only [startSect, roundDown, Device.sector]
  rw [Nat.mul_comm]
  omega

theorem endSect_eq : endSect d sector sectors =
    d.sector ((sector + sectors - d.sectOff + d.sectorsPerBlock - 1) / d.sectorsPerBlock) 0 := by
  simp only [endSect, roundUp, Device.sector]
  rw [Nat.mul_comm]
  omega

/-- The end of a block is the start of the next one. -/
theorem sector_succ : d.sector b d.sectorsPerBlock = d.sector (b + 1) 0 := by
  simp only [Device.sector, Nat.mul_succ]
  omega

theorem sector_le_iff {b' : Nat} : d.sector b 0 ≤ d.sector b' 0 ↔ b ≤ b' := by
  simp only [Device.sector, Nat.add_zero]
  rw [Nat.add_le_add_iff_left, Nat.mul_le_mul_left_iff d.pos]

theorem sector_add {n : Nat} : d.sector b 0 + d.sectorsPerBlock * n = d.sector (b + n) 0 := by
  simp only [Device.sector, Nat.mul_add]
  omega

theorem block_sector {o : Nat} (ho : o < d.sectorsPerBlock) : d.block (d.sector b o) = b := by
  simp only [Device.block, Device.sector]
  rw [Nat.add_assoc, Nat.add_sub_cancel_left, Nat.mul_add_div d.pos, Nat.div_eq_of_lt ho, Nat.add_zero]

/-- The pages counted before the loop reach exactly from the first sector to the last. -/
theorem pages_total (ho : d.sectOff ≤ sector) :
    startSect d sector + d.sectorsPerBlock * (newWrite d sector sectors).pages = endSect d sector sectors := by
  have hle : (sector - d.sectOff) / d.sectorsPerBlock ≤
      (sector + sectors - d.sectOff + d.sectorsPerBlock - 1) / d.sectorsPerBlock := by
    have := d.pos
    exact Nat.div_le_div_right (by omega)
  obtain ⟨n, hn⟩ := Nat.exists_eq_add_of_le hle
  have hpages : (newWrite d sector sectors).pages = n := by
    simp only [newWrite, startSect_eq, endSect_eq]
    rw [hn, ← sector_add, Nat.add_sub_cancel_left, Nat.mul_div_cancel_left n d.pos]
  rw [hpages, startSect_eq, endSect_eq, hn, sector_add]

/-- A block that a bio overlaps lies between the rounded ends of the bio. -/
theorem overlaps_between (ho : d.sectOff ≤ sector) (h : d.Overlaps sector sectors b) :
    startSect d sector ≤ d.sector b 0 ∧ d.sector b d.sectorsPerBlock ≤ endSect d sector sectors := by
  obtain ⟨t, ht, ht', rfl⟩ := h
  have := d.pos
  constructor
  · rw [startSect_eq, sector_le_iff]
    exact Nat.div_le_div_right (by omega)
  · rw [endSect_eq, sector_succ, sector_le_iff, Device.block, ← Nat.add_div_right _ d.pos]
    exact Nat.div_le_div_right (by omega)

/-- The sectors of a block that a write of some sectors leaves alone. -/
theorem overwrite_other {base content : Nat → β} {o : Nat} (ho : o < d.sectorsPerBlock)
    (h : ¬ d.Overlaps sector sectors b) :
    overwrite base sector sectors content (d.sector b o) = base (d.sector b o) :=
  if_neg fun hr => h ⟨d.sector b o, hr.1, hr.2, block_sector ho⟩

end ElastioSnap.Snapshot.Blocks
