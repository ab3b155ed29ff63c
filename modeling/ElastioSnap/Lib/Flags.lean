import Mathlib.Data.Nat.Bitwise

namespace ElastioSnap.Lib.Flags

/-- A word of flags, each at a bit below 32. -/
def mask (k : Fin 32) : UInt32 := UInt32.ofNat (2 ^ k.val)

def hasFlag (f : UInt32) (k : Fin 32) : Bool := f.toNat.testBit k

def setFlag (f : UInt32) (k : Fin 32) : UInt32 := f ||| mask k

def clearFlag (f : UInt32) (k : Fin 32) : UInt32 := f &&& ~~~(mask k)

theorem toNat_mask (k : Fin 32) : (mask k).toNat = 2 ^ k.val := by
  rw [mask, UInt32.toNat_ofNat']
  exact Nat.mod_eq_of_lt (Nat.pow_lt_pow_right (by omega) k.isLt)

@[simp] theorem hasFlag_setFlag (f : UInt32) (k j : Fin 32) :
    hasFlag (setFlag f k) j = (hasFlag f j || decide (j = k)) := by
  simp only [hasFlag, setFlag, UInt32.toNat_or, Nat.testBit_or, toNat_mask, Nat.testBit_two_pow]
  congr 1
  simp only [Fin.ext_iff, eq_comm]

@[simp] theorem hasFlag_clearFlag (f : UInt32) (k j : Fin 32) :
    hasFlag (clearFlag f k) j = (hasFlag f j && !decide (j = k)) := by
  have hm : (~~~(mask k)).toNat = 2 ^ 32 - 1 - 2 ^ k.val := by
    rw [UInt32.toNat_not, toNat_mask]
    rfl
  simp only [hasFlag, clearFlag, UInt32.toNat_and, Nat.testBit_and, hm]
  congr 1
  rw [Nat.sub_sub, Nat.add_comm 1, Nat.testBit_two_pow_sub_succ
    (Nat.pow_lt_pow_right (by omega) k.isLt), Nat.testBit_two_pow]
  simp [j.isLt, Fin.ext_iff, eq_comm]

@[simp] theorem hasFlag_zero (k : Fin 32) : hasFlag 0 k = false := by
  simp [hasFlag]

end ElastioSnap.Lib.Flags
