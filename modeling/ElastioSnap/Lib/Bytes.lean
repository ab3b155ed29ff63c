import Mathlib.Algebra.GroupWithZero.Nat
import Mathlib.Data.Nat.Basic

namespace ElastioSnap.Lib.Bytes

/-- An array with the `count` entries from `first` on replaced by those of another. -/
def splice {α : Type} (a : Nat → α) (first count : Nat) (src : Nat → α) : Nat → α := fun p =>
  if first ≤ p ∧ p < first + count then src (p - first) else a p

theorem splice_outside {α : Type} (a : Nat → α) {first count p : Nat} (src : Nat → α)
    (h : p < first ∨ first + count ≤ p) : splice a first count src p = a p := by
  rw [splice, if_neg (by omega)]

theorem splice_inside {α : Type} (a : Nat → α) {first count k : Nat} (src : Nat → α)
    (h : k < count) : splice a first count src (first + k) = src k := by
  rw [splice, if_pos (by omega), Nat.add_sub_cancel_left]

/-- The content of a file: bytes at every offset, all zero from the end on. -/
@[ext] structure ByteFile where
  bytes : Nat → UInt8
  size : Nat
  tail : ∀ p, size ≤ p → bytes p = 0

def ByteFile.empty : ByteFile := ⟨fun _ => 0, 0, fun _ _ => rfl⟩

/-- A write past the end leaves a hole of zeros; a write of no bytes changes nothing. -/
def ByteFile.write (f : ByteFile) (off len : Nat) (buf : Nat → UInt8) : ByteFile where
  bytes := splice f.bytes off len buf
  size := if len = 0 then f.size else max f.size (off + len)
  tail := by
    intro p hp
    split at hp
    · rw [splice_outside _ _ (by omega)]
      exact f.tail p hp
    · rw [splice_outside _ _ (by omega)]
      exact f.tail p (by omega)

def ByteFile.truncate (f : ByteFile) (n : Nat) : ByteFile where
  bytes p := if p < n then f.bytes p else 0
  size := n
  tail := by
    intro p hp
    rw [if_neg (by omega)]

/-- Allocation of the range up to `n` without writing to it. -/
def ByteFile.extend (f : ByteFile) (n : Nat) : ByteFile where
  bytes := f.bytes
  size := max f.size n
  tail := fun p hp => f.tail p (by omega)

/-- A write to the blocks below the file, which cannot move its end. -/
def ByteFile.overwrite (f : ByteFile) (off len : Nat) (buf : Nat → UInt8) : ByteFile where
  bytes p := if off ≤ p ∧ p < off + len ∧ p < f.size then buf (p - off) else f.bytes p
  size := f.size
  tail := by
    intro p hp
    rw [if_neg (by omega)]
    exact f.tail p hp

theorem bytes_write_outside (f : ByteFile) {off len p : Nat} (buf : Nat → UInt8)
    (h : p < off ∨ off + len ≤ p) : (f.write off len buf).bytes p = f.bytes p :=
  splice_outside f.bytes buf h

theorem bytes_write_inside (f : ByteFile) {off len k : Nat} (buf : Nat → UInt8) (h : k < len) :
    (f.write off len buf).bytes (off + k) = buf k :=
  splice_inside f.bytes buf h

theorem size_le_write (f : ByteFile) (off len : Nat) (buf : Nat → UInt8) :
    f.size ≤ (f.write off len buf).size := by
  simp only [ByteFile.write]
  split <;> omega

theorem end_le_write (f : ByteFile) {off len : Nat} (buf : Nat → UInt8) (h : 0 < len) :
    off + len ≤ (f.write off len buf).size := by
  simp only [ByteFile.write]
  rw [if_neg (by omega)]
  omega

def wordByte (v : UInt64) (k : Nat) : UInt8 := UInt8.ofNat (v.toNat / 256 ^ k)

/-- Eight bytes as a little-endian word. -/
def byteWord (b : Nat → UInt8) : UInt64 :=
  UInt64.ofNat ((b 0).toNat + 256 * ((b 1).toNat + 256 * ((b 2).toNat + 256 * ((b 3).toNat +
    256 * ((b 4).toNat + 256 * ((b 5).toNat + 256 * ((b 6).toNat + 256 * (b 7).toNat)))))))

theorem byteWord_wordByte (v : UInt64) : byteWord (wordByte v) = v := by
  have hv : v.toNat < 2 ^ 64 := v.toNat_lt
  apply UInt64.toNat_inj.mp
  simp only [byteWord, wordByte, UInt8.toNat_ofNat', UInt64.toNat_ofNat']
  omega

theorem byteWord_congr {b b' : Nat → UInt8} (h : ∀ k, k < 8 → b k = b' k) : byteWord b = byteWord b' := by
  simp only [byteWord, h 0 (by omega), h 1 (by omega), h 2 (by omega), h 3 (by omega), h 4 (by omega),
    h 5 (by omega), h 6 (by omega), h 7 (by omega)]

theorem byteWord_zero : byteWord (fun _ => 0) = 0 := by decide

theorem wordByte_zero (k : Nat) : wordByte 0 k = 0 := by
  rw [wordByte, UInt64.toNat_zero, Nat.zero_div]
  rfl

/-- An array of words laid out in memory. -/
def packWords (m : Nat → UInt64) : Nat → UInt8 := fun p => wordByte (m (p / 8)) (p % 8)

/-- The word at byte offset `off` of a buffer. -/
def wordAt (b : Nat → UInt8) (off : Nat) : UInt64 := byteWord (fun k => b (off + k))

theorem wordAt_congr {b b' : Nat → UInt8} {off : Nat} (h : ∀ p, off ≤ p → p < off + 8 → b p = b' p) :
    wordAt b off = wordAt b' off :=
  byteWord_congr (fun k hk => h (off + k) (by omega) (by omega))

theorem wordAt_packWords (m : Nat → UInt64) (j : Nat) : wordAt (packWords m) (8 * j) = m j := by
  have hw : wordAt (packWords m) (8 * j) = byteWord (wordByte (m j)) := by
    apply byteWord_congr
    intro k hk
    have hd : (8 * j + k) / 8 = j := by omega
    have hm : (8 * j + k) % 8 = k := by omega
    rw [packWords, hd, hm]
  rw [hw, byteWord_wordByte]

theorem wordAt_zero {b : Nat → UInt8} {off : Nat} (h : ∀ p, off ≤ p → p < off + 8 → b p = 0) :
    wordAt b off = 0 := by
  have hc : wordAt b off = wordAt (fun _ => 0) off := wordAt_congr h
  rw [hc]
  exact byteWord_zero

/-- Thirty-two bit fields of a record laid out in memory. -/
def halfByte (v : UInt32) (k : Nat) : UInt8 := UInt8.ofNat (v.toNat / 256 ^ k)

def byteHalf (b : Nat → UInt8) : UInt32 :=
  UInt32.ofNat ((b 0).toNat + 256 * ((b 1).toNat + 256 * ((b 2).toNat + 256 * (b 3).toNat)))

theorem byteHalf_halfByte (v : UInt32) : byteHalf (halfByte v) = v := by
  have hv : v.toNat < 2 ^ 32 := v.toNat_lt
  apply UInt32.toNat_inj.mp
  simp only [byteHalf, halfByte, UInt8.toNat_ofNat', UInt32.toNat_ofNat']
  omega

theorem byteHalf_congr {b b' : Nat → UInt8} (h : ∀ k, k < 4 → b k = b' k) : byteHalf b = byteHalf b' := by
  simp only [byteHalf, h 0 (by omega), h 1 (by omega), h 2 (by omega), h 3 (by omega)]

/-- Subtraction of unsigned 64-bit integers. -/
def wsub (a b : Nat) : Nat := (a + 2 ^ 64 - b) % 2 ^ 64

theorem wsub_eq {a b : Nat} (h : b ≤ a) (ha : a < 2 ^ 64) : wsub a b = a - b := by
  unfold wsub
  omega

end ElastioSnap.Lib.Bytes
