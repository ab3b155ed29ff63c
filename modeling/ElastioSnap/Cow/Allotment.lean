import ElastioSnap.Cow.Budget
import ElastioSnap.Cow.Crash
import Mathlib.Data.UInt
import Mathlib.Order.Bounds.Basic

namespace ElastioSnap.Cow.Allotment

open Lib.Outcome Manager FileIo Header Lifecycle Data Budget

/-- The parameters of the module a new COW file depends on. -/
structure Params where
  cowMaxMemoryDefault : Nat
  cowFallocatePercentageDefault : UInt32

/-- `ALIGN` to the size of a page. -/
def align (ps : Nat) (x : UInt64) : UInt64 :=
  (x + UInt64.ofNat (pageSize ps - 1)) &&& ~~~UInt64.ofNat (pageSize ps - 1)

def sectorToBlock (ps : Nat) (sect : UInt64) : UInt64 := sect / UInt64.ofNat (cowBlockSize ps / sectorSize)

/-- The length of a COW file, for which so many megabytes are asked for. -/
def maxFileSize (ps : Nat) (percentage : UInt32) (size fallocatedSpace : UInt64) : UInt64 :=
  if fallocatedSpace = 0 then align ps (size * 512 * percentage.toUInt64 / 100)
  else align ps (fallocatedSpace * (1024 * 1024))

/-- What the device notes down of its COW file. -/
structure Allotted where
  sdCacheSize : Nat
  sdFallocSize : UInt64

/-- `__tracer_setup_cow_new`, by which a setup or a transition makes a COW file. -/
def tracerSetupCowNew (ps : Nat) (params : Params) (size fallocatedSpace : UInt64) (cacheSize : Nat)
    (uuid : Fin 16 → UInt8) (seqid : UInt64) : CowM Allotted := do
  let sdCacheSize := if cacheSize = 0 then params.cowMaxMemoryDefault else cacheSize
  let max := maxFileSize ps params.cowFallocatePercentageDefault size fallocatedSpace
  cowInit ps (sectorToBlock ps size) (cowSectionSize ps) sdCacheSize max uuid seqid
  pure { sdCacheSize := sdCacheSize, sdFallocSize := max / (1024 * 1024) }

/-- The bytes that are asked for: so many megabytes, or so many hundredths of the device. -/
def requested (percentage : UInt32) (size fallocatedSpace : UInt64) : Nat :=
  if fallocatedSpace = 0 then size.toNat * 512 * percentage.toNat / 100 else fallocatedSpace.toNat * 2 ^ 20

/-- A file that has so many bytes for its data is written nowhere behind them. -/
def Kept (ps : Nat) (fileMax : UInt64) : Prop :=
  ∀ (buf : Nat → UInt8) (w : World), w.cm.fileMax = fileMax → wp (cowWriteData ps buf) w
    (fun _ w' => w.cm.currPos.toNat * cowBlockSize ps % 2 ^ 64 + cowBlockSize ps ≤ fileMax.toNat ∧
      ∀ p, fileMax.toNat ≤ p → w'.file.bytes p = w.file.bytes p)
    (fun _ w' => ∀ p, fileMax.toNat ≤ p → w'.file.bytes p = w.file.bytes p)

variable {ps n : Nat} {x fileMax : UInt64} {w w' : World}

theorem and_not_mask (hn : n < 2 ^ 64) (hps : ps < 64) : n &&& (2 ^ 64 - 2 ^ ps) = n / 2 ^ ps * 2 ^ ps := by
  have hpos : 0 < 2 ^ ps := Nat.two_pow_pos ps
  have hmask : 2 ^ 64 - 2 ^ ps = 2 ^ 64 - (2 ^ ps - 1 + 1) := by omega
  have hlt : 2 ^ ps - 1 < 2 ^ 64 := by
    have h := Nat.pow_lt_pow_right (a := 2) (by decide) hps
    omega
  apply Nat.eq_of_testBit_eq
  intro i
  rw [hmask, Nat.testBit_and, Nat.testBit_two_pow_sub_succ hlt, Nat.testBit_two_pow_sub_one, Nat.testBit_mul_two_pow,
    Nat.testBit_div_two_pow]
  by_cases hi : ps ≤ i
  · rw [Nat.sub_add_cancel hi]
    by_cases h64 : i < 64
    · simp [hi, h64]
    · have hzero : n.testBit i = false := Nat.testBit_lt_two_pow (hn.trans_le (Nat.pow_le_pow_right (by decide) (by omega)))
      simp [hzero]
  · simp [hi, Nat.lt_of_not_le hi]

theorem align_toNat (hps : ps < 64) : (align ps x).toNat = (x.toNat + (2 ^ ps - 1)) % 2 ^ 64 / 2 ^ ps * 2 ^ ps := by
  have hlt : 2 ^ ps - 1 < 2 ^ 64 := by
    have h := Nat.pow_lt_pow_right (a := 2) (by decide) hps
    omega
  have hpos : 0 < 2 ^ ps := Nat.two_pow_pos ps
  have hmask : UInt64.size - 1 - (2 ^ ps - 1) = 2 ^ 64 - 2 ^ ps := by
    change 2 ^ 64 - 1 - (2 ^ ps - 1) = 2 ^ 64 - 2 ^ ps
    omega
  rw [align, pageSize, UInt64.toNat_and, UInt64.toNat_not, UInt64.toNat_add, UInt64.toNat_ofNat_of_lt' hlt, hmask,
    and_not_mask (Nat.mod_lt _ (by decide)) hps]

/-- Where nothing wraps the aligned size is the least that is large enough. -/
theorem align_least (hps : ps < 64) (hfits : x.toNat + (2 ^ ps - 1) < 2 ^ 64) :
    IsLeast {m | 2 ^ ps ∣ m ∧ x.toNat ≤ m} (align ps x).toNat := by
  have hpos : 0 < 2 ^ ps := Nat.two_pow_pos ps
  rw [align_toNat hps, Nat.mod_eq_of_lt hfits]
  have hdiv := Nat.div_add_mod (x.toNat + (2 ^ ps - 1)) (2 ^ ps)
  have hmod := Nat.mod_lt (x.toNat + (2 ^ ps - 1)) hpos
  rw [Nat.mul_comm] at hdiv
  refine ⟨⟨Nat.dvd_mul_left _ _, by omega⟩, ?_⟩
  rintro m ⟨⟨q, rfl⟩, hm⟩
  rw [Nat.mul_comm (2 ^ ps) q]
  apply Nat.mul_le_mul_right
  rw [← Nat.lt_succ_iff, Nat.div_lt_iff_lt_mul hpos, Nat.succ_mul, Nat.mul_comm q]
  omega

theorem align_dvd (hps : ps < 64) : 2 ^ ps ∣ (align ps x).toNat := by
  rw [align_toNat hps]
  exact Nat.dvd_mul_left _ _

theorem align_lt (x : UInt64) (hps : ps < 64) : (align ps x).toNat < x.toNat + 2 ^ ps := by
  have hpos : 0 < 2 ^ ps := Nat.two_pow_pos ps
  rw [align_toNat hps]
  have h := Nat.div_mul_le_self ((x.toNat + (2 ^ ps - 1)) % 2 ^ 64) (2 ^ ps)
  have h' := Nat.mod_le (x.toNat + (2 ^ ps - 1)) (2 ^ 64)
  omega

/-- The products fit into a word of the machine. -/
def Fits (percentage : UInt32) (size fallocatedSpace : UInt64) : Prop :=
  if fallocatedSpace = 0 then size.toNat * 512 * percentage.toNat < 2 ^ 64 else fallocatedSpace.toNat < 2 ^ 44

variable {percentage : UInt32} {size fallocatedSpace : UInt64}

theorem hundredth_toNat : (size * 512 * percentage.toUInt64 / 100).toNat =
    size.toNat * 512 * percentage.toNat % 2 ^ 64 / 100 := by
  rw [UInt64.toNat_div, UInt64.toNat_mul, UInt64.toNat_mul, UInt32.toNat_toUInt64]
  change size.toNat * 512 % 2 ^ 64 * percentage.toNat % 2 ^ 64 / 100 = _
  rw [Nat.mod_mul_mod]

theorem megabytes_toNat : (fallocatedSpace * (1024 * 1024)).toNat = fallocatedSpace.toNat * 2 ^ 20 % 2 ^ 64 := by
  rw [UInt64.toNat_mul]
  rfl

/-- A hundredth of what was cut off is more than a page. -/
theorem percent_least_iff (h16 : ps ≤ 16) :
    IsLeast {m | 2 ^ ps ∣ m ∧ size.toNat * 512 * percentage.toNat / 100 ≤ m}
      (align ps (size * 512 * percentage.toUInt64 / 100)).toNat ↔ size.toNat * 512 * percentage.toNat < 2 ^ 64 := by
  have hpage : 2 ^ ps ≤ 2 ^ 16 := Nat.pow_le_pow_right (by decide) h16
  have hsize : (size * 512 * percentage.toUInt64 / 100).toNat = _ := hundredth_toNat
  have hmod := Nat.mod_lt (size.toNat * 512 * percentage.toNat) (by decide : 0 < 2 ^ 64)
  constructor
  · intro h
    by_contra hover
    have hreach : size.toNat * 512 * percentage.toNat / 100 ≤ _ := h.1.2
    have hlt := align_lt (size * 512 * percentage.toUInt64 / 100) (show ps < 64 by omega)
    rw [hsize] at hlt
    generalize size.toNat * 512 * percentage.toNat = bytes at *
    omega
  · intro hfits
    rw [Nat.mod_eq_of_lt hfits] at hsize
    rw [← hsize]
    exact align_least (by omega) (by omega)

/-- What was cut off from a number of megabytes is more than all that is left. -/
theorem megabytes_least_iff (h16 : ps ≤ 16) :
    IsLeast {m | 2 ^ ps ∣ m ∧ fallocatedSpace.toNat * 2 ^ 20 ≤ m}
      (align ps (fallocatedSpace * (1024 * 1024))).toNat ↔ fallocatedSpace.toNat < 2 ^ 44 := by
  have hpage : 2 ^ ps ≤ 2 ^ 16 := Nat.pow_le_pow_right (by decide) h16
  constructor
  · intro h
    have hreach : fallocatedSpace.toNat * 2 ^ 20 ≤ _ := h.1.2
    have hlt := (align ps (fallocatedSpace * (1024 * 1024))).toNat_lt
    omega
  · intro hfits
    have hbytes : (fallocatedSpace * (1024 * 1024)).toNat = fallocatedSpace.toNat * 2 ^ 20 := by
      rw [megabytes_toNat]
      exact Nat.mod_eq_of_lt (by omega)
    rw [← hbytes]
    exact align_least (by omega) (by omega)

theorem maxFileSize_least_iff (h16 : ps ≤ 16) :
    IsLeast {m | pageSize ps ∣ m ∧ requested percentage size fallocatedSpace ≤ m}
      (maxFileSize ps percentage size fallocatedSpace).toNat ↔ Fits percentage size fallocatedSpace := by
  rw [maxFileSize, requested, Fits]
  split
  · exact percent_least_iff h16
  · exact megabytes_least_iff h16

theorem maxFileSize_dvd (hps : ps < 64) : 2 ^ ps ∣ (maxFileSize ps percentage size fallocatedSpace).toNat := by
  rw [maxFileSize]
  split
  · exact align_dvd hps
  · exact align_dvd hps

/-- Below a multiple of the size of a block there is space for a whole one. -/
theorem block_fits (pos : Nat) {max block : Nat} (hmax : block ∣ max) (hwrap : block ∣ 2 ^ 64)
    (hlt : pos * block % 2 ^ 64 < max) : pos * block % 2 ^ 64 + block ≤ max := by
  have hpos : block ∣ pos * block % 2 ^ 64 := (Nat.dvd_mod_iff hwrap).mpr (Nat.dvd_mul_left _ _)
  obtain ⟨q, hq⟩ := hpos
  obtain ⟨m, rfl⟩ := hmax
  rw [hq] at hlt ⊢
  have h : q + 1 ≤ m := Nat.lt_of_mul_lt_mul_left hlt
  calc
    block * q + block = block * (q + 1) := (Nat.mul_succ _ _).symm
    _ ≤ block * m := Nat.mul_le_mul_left _ h

theorem kept_of_dvd (h12 : 12 ≤ ps) (h64 : ps < 64) (h : 2 ^ ps ∣ fileMax.toNat) : Kept ps fileMax := by
  intro buf w hmax
  rw [cowWriteData, wp_bind, wp_get]
  dsimp only
  have hroom := block_fits w.cm.currPos.toNat h (pow_dvd_pow 2 h64.le)
  rw [cowBlockSize, hmax]
  generalize w.cm.currPos.toNat * 2 ^ ps % 2 ^ 64 = off at hroom ⊢
  rw [wp_ite]
  split
  · exact fun p _ => rfl
  next hlt =>
    rw [ge_iff_le, not_le] at hlt
    have hblock : 2 ^ ps % 512 = 0 ∧ 0 < 2 ^ ps :=
      ⟨Nat.mod_eq_zero_of_dvd (pow_dvd_pow 2 (by omega : 9 ≤ ps)), Nat.two_pow_pos ps⟩
    have hbehind : ∀ {w' : World}, Wrote w.file w'.file off (2 ^ ps) →
        ∀ p, fileMax.toNat ≤ p → w'.file.bytes p = w.file.bytes p :=
      fun hw p hp => hw.outside p (.inr ((hroom hlt).trans hp))
    rw [wp_bind]
    refine wp_mono (fileWrite_wp off (2 ^ ps) buf fun _ => hblock) ?_ ?_
    · intro _ w' hw
      rw [wp_modifyCm]
      exact ⟨hroom hlt, hbehind hw.2.1⟩
    · exact fun _ w' hw => hbehind hw.2.2

theorem cowInit_fileMax {elements seqid : UInt64} {sectSize cacheSize : Nat} {uuid : Fin 16 → UInt8} :
    wp (cowInit ps elements sectSize cacheSize fileMax uuid seqid) w (fun _ w' => w'.cm.fileMax = fileMax)
      fun _ _ => True := by
  have hheader : Preserves (fun w => w.cm.fileMax) (cowWriteHeader false) := by
    have hflags : Preserves (fun w => w.cm.fileMax)
      (modifyCm fun cm => { cm with flags := markClean false cm.flags }) := fun _ => rfl
    exact (Sweep.keeps_alloc.comp CowManager.fileMax).bind fun _ => hflags.bind fun _ => preserves_get.bind fun _ =>
      Sweep.keeps_fileWrite.comp CowManager.fileMax
  have hrest : Preserves (fun w => w.cm.fileMax) (do
      allocSects (sectionTotal ps elements sectSize)
      fileAllocate ps 0 fileMax.toNat
      cowWriteHeader false) :=
    (Protocol.allocSects_keeps fun _ _ _ _ => rfl).bind fun _ =>
      (keeps_fileAllocate.comp CowManager.fileMax).bind fun _ => hheader
  rw [cowInit, wp_bind]
  refine Protocol.allocManager_wp (fun _ => ?_) fun _ _ => trivial
  refine wp_onError_any (F := fun _ => True) ?_ fun _ => wp_const.mpr trivial
  rw [fileCreate, wp_bind, wp_bind]
  refine wp_tick ?_ fun _ _ => trivial
  rw [wp_modify, wp_bind, wp_modifyCm]
  exact wp_mono (hrest _) (fun _ _ h => h) fun _ _ _ => trivial

theorem setup_fileMax {params : Params} {cacheSize : Nat} {uuid : Fin 16 → UInt8} {seqid : UInt64} {a : Allotted}
    (h : tracerSetupCowNew ps params size fallocatedSpace cacheSize uuid seqid w = .ok a w') :
    w'.cm.fileMax = maxFileSize ps params.cowFallocatePercentageDefault size fallocatedSpace := by
  obtain ⟨_, w₁, hinit, hpure⟩ := bind_ok.mp h
  cases hpure
  exact wp_ok (Q := fun _ w' => w'.cm.fileMax = _) cowInit_fileMax hinit

/-- The file of a device that was set up is as large as was asked for, and is written nowhere behind that, if and only
if the size fits into a word. -/
theorem cow_limit_iff (ps : Nat) (h12 : 12 ≤ ps) (h16 : ps ≤ 16) (params : Params) (size fallocatedSpace seqid : UInt64)
    (cacheSize : Nat) (uuid : Fin 16 → UInt8) {w w' : World} {a : Allotted}
    (hsetup : tracerSetupCowNew ps params size fallocatedSpace cacheSize uuid seqid w = .ok a w') :
    (IsLeast {m | pageSize ps ∣ m ∧ requested params.cowFallocatePercentageDefault size fallocatedSpace ≤ m}
        w'.cm.fileMax.toNat ∧ Kept ps w'.cm.fileMax) ↔
      Fits params.cowFallocatePercentageDefault size fallocatedSpace := by
  rw [setup_fileMax hsetup, maxFileSize_least_iff h16]
  exact and_iff_left (kept_of_dvd h12 (by omega) (maxFileSize_dvd (by omega)))

def defaults : Params := { cowMaxMemoryDefault := 300 * 2 ^ 20, cowFallocatePercentageDefault := 10 }

/-- A device of 16 blocks is set up. -/
theorem setup_small (fallocatedSpace : UInt64)
    (hpos : 0 < (maxFileSize 12 10 128 fallocatedSpace).toNat) (hmax : (maxFileSize 12 10 128 fallocatedSpace).toNat < 2 ^ 63) :
    ∃ a w', tracerSetupCowNew 12 defaults 128 fallocatedSpace 0 (fun _ => 0) 1 Start.calm = .ok a w' := by
  obtain ⟨w', hinit, -⟩ := Start.cowInit_total (w := Start.calm) 16 (maxFileSize 12 10 128 fallocatedSpace) 1
    (300 * 2 ^ 20) (fun _ => 0) (by rw [Start.sectionTotal_eq]; decide) hpos hmax Start.calm_faultless
  exact ⟨_, w', bind_ok.mpr ⟨(), w', hinit, rfl⟩⟩

theorem cow_limit_fifty_megabytes : ∃ a w',
    tracerSetupCowNew 12 defaults 128 50 0 (fun _ => 0) 1 Start.calm = .ok a w' ∧
    IsLeast {m | pageSize 12 ∣ m ∧ requested 10 128 50 ≤ m} w'.cm.fileMax.toNat ∧ Kept 12 w'.cm.fileMax := by
  obtain ⟨a, w', hsetup⟩ := setup_small 50 (by decide) (by decide)
  refine ⟨a, w', hsetup, (cow_limit_iff 12 le_rfl (by decide) defaults 128 50 1 0 (fun _ => 0) hsetup).mpr ?_⟩
  rw [Fits]
  decide

/-- Where `2 ^ 44 + 1` megabytes are asked for, one megabyte is what there is. -/
theorem cow_limit_wraps : ∃ a w',
    tracerSetupCowNew 12 defaults 128 (2 ^ 44 + 1) 0 (fun _ => 0) 1 Start.calm = .ok a w' ∧
    w'.cm.fileMax.toNat = 2 ^ 20 ∧ requested 10 128 (2 ^ 44 + 1) = (2 ^ 44 + 1) * 2 ^ 20 ∧
    ¬ IsLeast {m | pageSize 12 ∣ m ∧ requested 10 128 (2 ^ 44 + 1) ≤ m} w'.cm.fileMax.toNat := by
  obtain ⟨a, w', hsetup⟩ := setup_small (2 ^ 44 + 1) (by decide) (by decide)
  have hmax : w'.cm.fileMax.toNat = 2 ^ 20 := by
    rw [setup_fileMax hsetup]
    decide
  have hreq : requested 10 128 (2 ^ 44 + 1) = (2 ^ 44 + 1) * 2 ^ 20 := by decide
  refine ⟨a, w', hsetup, hmax, hreq, fun h => ?_⟩
  have hle := h.1.2
  rw [hmax, hreq] at hle
  exact absurd hle (by decide)

end ElastioSnap.Cow.Allotment
