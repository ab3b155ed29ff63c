import ElastioSnap.Cow.Header
import Mathlib.Data.Fintype.Basic

namespace ElastioSnap.UpdateImg

open Lib.Bytes Cow.Manager Cow.Header

def indexBufferSize : Nat := 8192

def enomem : Nat := 12

def einval : Nat := 22

/-- What the driver tells of the snapshot. -/
structure Info where
  uuid : Fin 16 → UInt8
  seqid : UInt64

/-- A call moves no more than `moved` bytes, and `errno` is what the program reads after it. -/
structure Answer where
  moved : Nat
  errno : Nat

/-- The answers of the system to the calls of one run, each of which is made at most once. -/
structure Calls where
  infoBuf : Bool
  info : Except Nat Info
  header : Answer
  mappings : Bool
  index : Nat → Answer
  read : Nat → Answer
  write : Nat → Answer

/-- The number of bytes read, which end where the file ends. -/
def pread (f : ByteFile) (len off : Nat) (a : Answer) : Nat := min a.moved (min len (f.size - off))

def copyBlock (ps : Nat) (calls : Calls) (snap : ByteFile) (block : Nat) (img : Nat → UInt8) :
    Nat × (Nat → UInt8) :=
  if pread snap (cowBlockSize ps) (block * cowBlockSize ps) (calls.read block) ≠ cowBlockSize ps then
    ((calls.read block).errno, img)
  else
    let bytes := min (calls.write block).moved (cowBlockSize ps)
    let img' := splice img (block * cowBlockSize ps) bytes fun p => snap.bytes (block * cowBlockSize ps + p)
    if bytes ≠ cowBlockSize ps then ((calls.write block).errno, img') else (0, img')

def verifyFiles (calls : Calls) (cow : ByteFile) : Nat :=
  if calls.infoBuf = false then enomem
  else match calls.info with
  | .error errno => errno
  | .ok info =>
      let ch := decode cow.bytes
      if pread cow 64 0 calls.header ≠ 64 then calls.header.errno
      else if ch.magic ≠ cowMagic then einval
      else if ch.uuid ≠ info.uuid then einval
      else if ch.seqid ≠ info.seqid - 1 then einval
      else 0

structure Merge where
  img : Nat → UInt8
  count : Nat
  errCount : Nat

def mergeBlock (ps : Nat) (calls : Calls) (snap : ByteFile) (block : Nat) (m : Merge) : Merge :=
  let r := copyBlock ps calls snap block m.img
  { img := r.2, count := m.count + 1, errCount := if r.1 ≠ 0 then m.errCount + 1 else m.errCount }

/-- The inner loop over the mappings of chunk `i`, from the `j`-th on. -/
def mergeBlocks (ps : Nat) (calls : Calls) (snap : ByteFile) (mappings : Nat → UInt64) (i : Nat) :
    Nat → Nat → Merge → Merge
  | 0, _, m => m
  | left + 1, j, m =>
      if mappings j = 0 then mergeBlocks ps calls snap mappings i left (j + 1) m
      else mergeBlocks ps calls snap mappings i left (j + 1)
        (mergeBlock ps calls snap (indexBufferSize * i + j) m)

def chunkOffset (i : Nat) : Nat := cowHeaderSize + indexBufferSize * 8 * i

/-- The outer loop, from chunk `i` on. -/
def mergeChunks (ps : Nat) (calls : Calls) (cow snap : ByteFile) (totalBlocks : Nat) :
    Nat → Nat → Nat → Merge → Nat × Merge
  | 0, _, _, m => (0, m)
  | left + 1, i, blocksDone, m =>
      let blocksToRead := min indexBufferSize (totalBlocks - blocksDone)
      if pread cow (blocksToRead * 8) (chunkOffset i) (calls.index i) ≠ blocksToRead * 8 then
        ((calls.index i).errno, m)
      else
        mergeChunks ps calls cow snap totalBlocks left (i + 1) (blocksDone + blocksToRead)
          (mergeBlocks ps calls snap (fun j => wordAt cow.bytes (chunkOffset i + 8 * j)) i blocksToRead 0 m)

def totalBlocks (ps : Nat) (snap : ByteFile) : Nat := (snap.size + cowBlockSize ps - 1) / cowBlockSize ps

def totalChunks (ps : Nat) (snap : ByteFile) : Nat := (totalBlocks ps snap + indexBufferSize - 1) / indexBufferSize

/-- The program from the check of its arguments on: its return value, and the image it leaves. -/
def main (ps : Nat) (calls : Calls) (cow snap : ByteFile) (img : Nat → UInt8) : Nat × (Nat → UInt8) :=
  let ret := verifyFiles calls cow
  if ret ≠ 0 then (ret, img)
  else if calls.mappings = false then (enomem, img)
  else
    let r := mergeChunks ps calls cow snap (totalBlocks ps snap) (totalChunks ps snap) 0 0 ⟨img, 0, 0⟩
    (r.1, r.2.img)

/-- What the shell sees of a return value. -/
def exitStatus (ret : Nat) : Nat := ret % 256

/-- The entry of a block in the index of the file. -/
def entry (cow : ByteFile) (b : Nat) : UInt64 := wordAt cow.bytes (cowHeaderSize + 8 * b)

def InBlock (ps b p : Nat) : Prop := b * cowBlockSize ps ≤ p ∧ p < (b + 1) * cowBlockSize ps

/-- The bytes that copying a block takes over, if it comes to that. -/
def Copies (ps : Nat) (calls : Calls) (snap : ByteFile) (b p : Nat) : Prop :=
  pread snap (cowBlockSize ps) (b * cowBlockSize ps) (calls.read b) = cowBlockSize ps ∧
    b * cowBlockSize ps ≤ p ∧ p < b * cowBlockSize ps + min (calls.write b).moved (cowBlockSize ps)

/-- The mappings of a chunk come in one piece. -/
def Readable (ps : Nat) (calls : Calls) (cow snap : ByteFile) (i : Nat) : Prop :=
  let len := min indexBufferSize (totalBlocks ps snap - indexBufferSize * i) * 8
  pread cow len (chunkOffset i) (calls.index i) = len

/-- The program has read the chunk and all before it. -/
def Reached (ps : Nat) (calls : Calls) (cow snap : ByteFile) (i : Nat) : Prop :=
  ∀ i' ≤ i, Readable ps calls cow snap i'

/-- The image has the bytes of the snapshot in every changed block, and is unchanged elsewhere. -/
def Complete (ps : Nat) (cow snap : ByteFile) (img img' : Nat → UInt8) : Prop :=
  (∀ b < totalBlocks ps snap, entry cow b ≠ 0 → ∀ p, InBlock ps b p → p < snap.size → img' p = snap.bytes p) ∧
    ∀ p, (¬ ∃ b < totalBlocks ps snap, entry cow b ≠ 0 ∧ InBlock ps b p ∧ p < snap.size) → img' p = img p

/-- The program stops with an error that the shell sees. -/
def GivesUp (ps : Nat) (calls : Calls) (cow snap : ByteFile) : Prop :=
  calls.mappings = false ∨ ∃ i < totalChunks ps snap, (∀ i' < i, Readable ps calls cow snap i') ∧
    ¬ Readable ps calls cow snap i ∧ exitStatus (calls.index i).errno ≠ 0

variable {ps b i j n left p : Nat} {calls : Calls} {cow snap : ByteFile} {img img' img'' : Nat → UInt8}
  {mappings : Nat → UInt64} {m : Merge} {S T : Nat → Prop}

/-- Some bytes of an image were replaced by those of the snapshot. -/
structure Took (snap : ByteFile) (S : Nat → Prop) (img img' : Nat → UInt8) : Prop where
  copied : ∀ p, S p → img' p = snap.bytes p
  kept : ∀ p, ¬ S p → img' p = img p

theorem Took.none (hS : ∀ p, ¬ S p) : Took snap S img img :=
  ⟨fun p hp => absurd hp (hS p), fun _ _ => rfl⟩

theorem Took.trans (h : Took snap S img img') (h' : Took snap T img' img'') :
    Took snap (fun p => S p ∨ T p) img img'' where
  copied p hp := by
    by_cases hT : T p
    · exact h'.copied p hT
    · rw [h'.kept p hT]
      exact h.copied p (hp.resolve_right hT)
  kept p hp := by
    rw [h'.kept p fun hT => hp (.inr hT)]
    exact h.kept p fun hS => hp (.inl hS)

theorem Took.congr (h : Took snap S img img') (hST : ∀ p, T p ↔ S p) : Took snap T img img' :=
  ⟨fun p hp => h.copied p ((hST p).mp hp), fun p hp => h.kept p fun hS => hp ((hST p).mpr hS)⟩

theorem blockSize_pos : 0 < cowBlockSize ps := Nat.two_pow_pos ps

theorem copyBlock_took : Took snap (Copies ps calls snap b) img (copyBlock ps calls snap b img).2 := by
  unfold copyBlock
  dsimp only
  split
  next hread => exact .none fun p hp => hread hp.1
  next hread =>
    rw [not_not] at hread
    generalize hbytes : min (calls.write b).moved (cowBlockSize ps) = bytes
    have hcopies : ∀ p, Copies ps calls snap b p ↔
        b * cowBlockSize ps ≤ p ∧ p < b * cowBlockSize ps + bytes := by
      intro p
      rw [Copies, hbytes]
      exact and_iff_right hread
    have htook : Took snap (Copies ps calls snap b) img
        (splice img (b * cowBlockSize ps) bytes fun p => snap.bytes (b * cowBlockSize ps + p)) := by
      refine ⟨fun p hp => ?_, fun p hp => ?_⟩
      · rw [splice, if_pos ((hcopies p).mp hp)]
        congr 1
        have := ((hcopies p).mp hp).1
        omega
      · rw [splice, if_neg fun h => hp ((hcopies p).mpr h)]
    split
    · exact htook
    · exact htook

theorem copies_inBlock (h : Copies ps calls snap b p) : InBlock ps b p ∧ p < snap.size := by
  obtain ⟨hread, hlo, hhi⟩ := h
  have hsize : b * cowBlockSize ps + cowBlockSize ps ≤ snap.size := by
    have hpos : 0 < cowBlockSize ps := blockSize_pos
    unfold pread at hread
    omega
  have hend : p < b * cowBlockSize ps + cowBlockSize ps :=
    hhi.trans_le (Nat.add_le_add_left (min_le_right _ _) _)
  exact ⟨⟨hlo, by rwa [Nat.succ_mul]⟩, hend.trans_le hsize⟩

theorem inBlock_unique {b' : Nat} (h : InBlock ps b p) (h' : InBlock ps b' p) : b = b' := by
  rw [← Nat.div_eq_of_lt_le h.1 h.2, ← Nat.div_eq_of_lt_le h'.1 h'.2]

theorem mergeBlocks_took :
    Took snap (fun p => ∃ k, j ≤ k ∧ k < j + left ∧ mappings k ≠ 0 ∧
      Copies ps calls snap (indexBufferSize * i + k) p) m.img
      (mergeBlocks ps calls snap mappings i left j m).img := by
  induction left generalizing j m with
  | zero => exact .none fun p ⟨k, hlo, hhi, _⟩ => by omega
  | succ left ih =>
      unfold mergeBlocks
      split
      next hzero =>
        refine ih.congr fun p => ⟨?_, ?_⟩
        · rintro ⟨k, hlo, hhi, hk, hc⟩
          have hne : j ≠ k := fun he => hk (he ▸ hzero)
          exact ⟨k, by omega, by omega, hk, hc⟩
        · rintro ⟨k, hlo, hhi, hk, hc⟩
          exact ⟨k, by omega, by omega, hk, hc⟩
      next hset =>
        have hfirst : Took snap (Copies ps calls snap (indexBufferSize * i + j)) m.img
            (mergeBlock ps calls snap (indexBufferSize * i + j) m).img := copyBlock_took
        refine (hfirst.trans ih).congr fun p => ⟨?_, ?_⟩
        · rintro ⟨k, hlo, hhi, hk, hc⟩
          by_cases he : j = k
          · subst he
            exact .inl hc
          · exact .inr ⟨k, by omega, by omega, hk, hc⟩
        · rintro (hc | ⟨k, hlo, hhi, hk, hc⟩)
          · exact ⟨j, le_rfl, by omega, hset, hc⟩
          · exact ⟨k, by omega, by omega, hk, hc⟩

/-- The chunk at which the program stops reading: the first that it cannot read, or the end. -/
structure Stops (ps : Nat) (calls : Calls) (cow snap : ByteFile) (i last n : Nat) : Prop where
  from_le : i ≤ n
  le_last : n ≤ last
  readable : ∀ k, i ≤ k → k < n → Readable ps calls cow snap k
  unreadable : n < last → ¬ Readable ps calls cow snap n

def Changed (ps : Nat) (calls : Calls) (cow snap : ByteFile) (lo hi p : Nat) : Prop :=
  ∃ b, lo ≤ b ∧ b < hi ∧ b < totalBlocks ps snap ∧ entry cow b ≠ 0 ∧ Copies ps calls snap b p

theorem entry_eq (i j : Nat) : wordAt cow.bytes (chunkOffset i + 8 * j) = entry cow (indexBufferSize * i + j) := by
  simp only [entry, chunkOffset, indexBufferSize]
  congr 1
  omega

theorem mergeChunks_spec (ps : Nat) (calls : Calls) (cow snap : ByteFile) (left i : Nat) (m : Merge) :
    ∃ n, Stops ps calls cow snap i (i + left) n ∧
      (mergeChunks ps calls cow snap (totalBlocks ps snap) left i
        (min (indexBufferSize * i) (totalBlocks ps snap)) m).1 =
          (if n < i + left then (calls.index n).errno else 0) ∧
      Took snap (Changed ps calls cow snap (indexBufferSize * i) (indexBufferSize * n)) m.img
        (mergeChunks ps calls cow snap (totalBlocks ps snap) left i
          (min (indexBufferSize * i) (totalBlocks ps snap)) m).2.img := by
  induction left generalizing i m with
  | zero =>
      refine ⟨i, ⟨le_rfl, le_rfl, fun k _ _ => by omega, fun h => absurd h (lt_irrefl i)⟩, ?_, ?_⟩
      · exact (if_neg (lt_irrefl i)).symm
      · refine .none fun p => ?_
        rintro ⟨b, hlo, hhi, -⟩
        omega
  | succ left ih =>
      have hread : min indexBufferSize (totalBlocks ps snap - min (indexBufferSize * i) (totalBlocks ps snap)) =
          min indexBufferSize (totalBlocks ps snap - indexBufferSize * i) := by omega
      simp only [mergeChunks, hread]
      split
      next hshort =>
        refine ⟨i, ⟨le_rfl, by omega, fun k _ _ => by omega, fun _ => hshort⟩, ?_, ?_⟩
        · rw [if_pos (by omega)]
        · refine .none fun p => ?_
          rintro ⟨b, hlo, hhi, -⟩
          omega
      next hfull =>
        rw [not_not] at hfull
        have hdone : min (indexBufferSize * i) (totalBlocks ps snap) +
            min indexBufferSize (totalBlocks ps snap - indexBufferSize * i) =
              min (indexBufferSize * (i + 1)) (totalBlocks ps snap) := by
          rw [Nat.mul_succ]
          omega
        rw [hdone]
        obtain ⟨n, hstops, hret, htook⟩ := ih (i + 1)
          (mergeBlocks ps calls snap (fun j => wordAt cow.bytes (chunkOffset i + 8 * j)) i
            (min indexBufferSize (totalBlocks ps snap - indexBufferSize * i)) 0 m)
        have hlast : i + 1 + left = i + (left + 1) := by omega
        rw [hlast] at hstops hret
        have hin := Nat.le_of_succ_le hstops.from_le
        refine ⟨n, ⟨hin, hstops.le_last, fun k hlo hhi => ?_, hstops.unreadable⟩, hret, ?_⟩
        · rcases Nat.eq_or_lt_of_le hlo with rfl | hlt
          · exact hfull
          · exact hstops.readable k hlt hhi
        · have hfrom := Nat.mul_le_mul_left indexBufferSize hstops.from_le
          rw [Nat.mul_succ] at hfrom
          refine (mergeBlocks_took.trans htook).congr fun p => ⟨?_, ?_⟩
          · rintro ⟨b, hlo, hhi, hb, he, hc⟩
            by_cases hnext : b < indexBufferSize * (i + 1)
            · rw [Nat.mul_succ] at hnext
              have hbk : indexBufferSize * i + (b - indexBufferSize * i) = b := by omega
              refine .inl ⟨b - indexBufferSize * i, Nat.zero_le _, by omega, ?_, ?_⟩
              · rw [entry_eq, hbk]
                exact he
              · rw [hbk]
                exact hc
            · exact .inr ⟨b, by omega, hhi, hb, he, hc⟩
          · rintro (⟨k, hlo, hhi, hk, hc⟩ | ⟨b, hlo, hhi, hb, he, hc⟩)
            · rw [entry_eq] at hk
              exact ⟨indexBufferSize * i + k, by omega, by omega, by omega, hk, hc⟩
            · exact ⟨b, by rw [Nat.mul_succ] at hlo; omega, hhi, hb, he, hc⟩

/-- The run of the whole loop, from the first chunk on. -/
theorem merge_spec (ps : Nat) (calls : Calls) (cow snap : ByteFile) (img : Nat → UInt8) :
    ∃ n, Stops ps calls cow snap 0 (totalChunks ps snap) n ∧
      (mergeChunks ps calls cow snap (totalBlocks ps snap) (totalChunks ps snap) 0 0 ⟨img, 0, 0⟩).1 =
        (if n < totalChunks ps snap then (calls.index n).errno else 0) ∧
      Took snap (Changed ps calls cow snap 0 (indexBufferSize * n)) img
        (mergeChunks ps calls cow snap (totalBlocks ps snap) (totalChunks ps snap) 0 0 ⟨img, 0, 0⟩).2.img := by
  have h := mergeChunks_spec ps calls cow snap (totalChunks ps snap) 0 ⟨img, 0, 0⟩
  simpa only [Nat.zero_add, Nat.mul_zero, Nat.zero_min] using h

theorem lt_totalChunks (h : b < totalBlocks ps snap) : b / indexBufferSize < totalChunks ps snap := by
  simp only [totalChunks, indexBufferSize]
  omega

/-- A chunk is among those read if and only if all up to it can be read. -/
theorem Stops.reached (h : Stops ps calls cow snap 0 (totalChunks ps snap) n) (hi : i < totalChunks ps snap) :
    i < n ↔ Reached ps calls cow snap i := by
  constructor
  · intro hn i' hi'
    exact h.readable i' (Nat.zero_le _) (hi'.trans_lt hn)
  · intro hr
    by_contra hn
    exact h.unreadable ((not_lt.mp hn).trans_lt hi) (hr n (not_lt.mp hn))

theorem Stops.givesUp (h : Stops ps calls cow snap 0 (totalChunks ps snap) n) (hm : calls.mappings = true) :
    GivesUp ps calls cow snap ↔ n < totalChunks ps snap ∧ exitStatus (calls.index n).errno ≠ 0 := by
  constructor
  · rintro (hf | ⟨i, hi, hbefore, hnot, he⟩)
    · rw [hm] at hf
      cases hf
    · have hni : n ≤ i := not_lt.mp fun hlt => hnot (((h.reached hi).mp hlt) i le_rfl)
      have hin : i ≤ n := not_lt.mp fun hlt => h.unreadable (hlt.trans hi) (hbefore n hlt)
      rw [le_antisymm hni hin]
      exact ⟨hi, he⟩
  · rintro ⟨hn, he⟩
    exact .inr ⟨n, hn, fun i hi => h.readable i (Nat.zero_le _) hi, h.unreadable hn, he⟩

theorem changed_inBlock {hi : Nat} (h : Changed ps calls cow snap 0 hi p) :
    ∃ b < totalBlocks ps snap, entry cow b ≠ 0 ∧ InBlock ps b p ∧ p < snap.size := by
  obtain ⟨b, _, _, hb, he, hc⟩ := h
  exact ⟨b, hb, he, copies_inBlock hc⟩

/-- An image in which nothing but the bytes that were copied has changed is complete if and only if
the other bytes of changed blocks were those of the snapshot already. -/
theorem complete_iff {hi : Nat} (h : Took snap (Changed ps calls cow snap 0 hi) img img') :
    Complete ps cow snap img img' ↔ ∀ b < totalBlocks ps snap, entry cow b ≠ 0 → ∀ p, InBlock ps b p →
      p < snap.size → (b < hi ∧ Copies ps calls snap b p) ∨ img p = snap.bytes p := by
  constructor
  · intro hcomplete b hb he p hp hs
    by_cases hch : Changed ps calls cow snap 0 hi p
    · obtain ⟨b', _, hhi, _, _, hc⟩ := hch
      obtain rfl := inBlock_unique hp (copies_inBlock hc).1
      exact .inl ⟨hhi, hc⟩
    · right
      rw [← h.kept p hch]
      exact hcomplete.1 b hb he p hp hs
  · intro hall
    refine ⟨fun b hb he p hp hs => ?_, fun p hp => h.kept p fun hch => hp (changed_inBlock hch)⟩
    by_cases hch : Changed ps calls cow snap 0 hi p
    · exact h.copied p hch
    · rw [h.kept p hch]
      exact (hall b hb he p hp hs).resolve_left fun hc => hch ⟨b, Nat.zero_le _, hc.1, hb, he, hc.2⟩

/-- The program reports success for a complete merge only, exactly if it gives up, or every byte of a
changed block that is not copied was the same in the image before. -/
theorem success_complete_iff (ps : Nat) (calls : Calls) (cow snap : ByteFile) (img : Nat → UInt8)
    (hv : verifyFiles calls cow = 0) :
    (exitStatus (main ps calls cow snap img).1 = 0 → Complete ps cow snap img (main ps calls cow snap img).2) ↔
      GivesUp ps calls cow snap ∨
        ∀ b < totalBlocks ps snap, entry cow b ≠ 0 → ∀ p, InBlock ps b p → p < snap.size →
          (Reached ps calls cow snap (b / indexBufferSize) ∧ Copies ps calls snap b p) ∨
            img p = snap.bytes p := by
  by_cases hm : calls.mappings = false
  · have hmain : main ps calls cow snap img = (enomem, img) := by simp [main, hv, hm]
    rw [hmain]
    exact iff_of_true (fun he => by cases he) (.inl (.inl hm))
  · rw [Bool.not_eq_false] at hm
    obtain ⟨n, hstops, hret, htook⟩ := merge_spec ps calls cow snap img
    have hmain : main ps calls cow snap img = ((if n < totalChunks ps snap then (calls.index n).errno else 0),
        (mergeChunks ps calls cow snap (totalBlocks ps snap) (totalChunks ps snap) 0 0 ⟨img, 0, 0⟩).2.img) := by
      simp [main, hv, hm, ← hret]
    have hreached : ∀ b < totalBlocks ps snap, (b < indexBufferSize * n ↔
        Reached ps calls cow snap (b / indexBufferSize)) := by
      intro b hb
      rw [← hstops.reached (lt_totalChunks hb)]
      rw [Nat.div_lt_iff_lt_mul (by decide), Nat.mul_comm]
    rw [hmain, hstops.givesUp hm]
    by_cases hn : n < totalChunks ps snap ∧ exitStatus (calls.index n).errno ≠ 0
    · dsimp only
      rw [if_pos hn.1]
      exact iff_of_true (fun he => absurd he hn.2) (.inl hn)
    · have hexit : exitStatus (if n < totalChunks ps snap then (calls.index n).errno else 0) = 0 := by
        split
        next hlt => exact not_not.mp fun he => hn ⟨hlt, he⟩
        next => rfl
      simp only [hexit, true_imp_iff, hn, false_or]
      rw [complete_iff htook]
      constructor
      · intro hall b hb he p hp hs
        exact (hall b hb he p hp hs).imp_left fun hc => ⟨(hreached b hb).mp hc.1, hc.2⟩
      · intro hall b hb he p hp hs
        exact (hall b hb he p hp hs).imp_left fun hc => ⟨(hreached b hb).mpr hc.1, hc.2⟩

/-- A file of one section with the given header and entries. -/
def cowFile (h : CowHeader) (entries : Nat → UInt64) : ByteFile where
  bytes p := if p < 4096 then h.encode p else if p < 36864 then packWords entries (p - 4096) else 0
  size := 36864
  tail p hp := by
    rw [if_neg (by omega), if_neg (by omega)]

theorem decode_cowFile (h : CowHeader) (entries : Nat → UInt64) : decode (cowFile h entries).bytes = h := by
  refine (decode_congr fun p hp => ?_).trans (decode_encode h)
  exact if_pos hp

/-- A snapshot of ones. -/
theorem ones_tail (size p : Nat) (hp : size ≤ p) : (if p < size then 1 else 0 : UInt8) = 0 :=
  if_neg (Nat.not_lt.mpr hp)

def ones (size : Nat) : ByteFile where
  bytes p := if p < size then 1 else 0
  size := size
  tail := ones_tail size

def header : CowHeader := ⟨cowMagic, 3, 9, 1048576, 1, fun _ => 0, 1, 1⟩

/-- No call fails, and none moves fewer bytes than there are. -/
def allMoved : Calls where
  infoBuf := true
  info := .ok ⟨fun _ => 0, 2⟩
  header := ⟨4096, 0⟩
  mappings := true
  index _ := ⟨65536, 0⟩
  read _ := ⟨4096, 0⟩
  write _ := ⟨4096, 0⟩

theorem verifyFiles_cowFile (entries : Nat → UInt64) : verifyFiles allMoved (cowFile header entries) = 0 := by
  simp only [verifyFiles, decode_cowFile]
  rfl

/-- The first of two blocks has changed. -/
theorem success_complete_iff_example :
    Complete 12 (cowFile header fun k => if k = 0 then 9 else 0) (ones 8192) (fun _ => 0)
      (main 12 allMoved (cowFile header fun k => if k = 0 then 9 else 0) (ones 8192) fun _ => 0).2 := by
  refine (success_complete_iff 12 allMoved _ (ones 8192) (fun _ => 0) (verifyFiles_cowFile _)).mpr ?_ ?_
  · refine .inr fun b hb he p hp hs => .inl ⟨fun i hi => ?_, ?_, hp.1, ?_⟩
    · have hb : b < 2 := hb
      obtain rfl : i = 0 := by
        have : b / indexBufferSize = 0 := Nat.div_eq_of_lt (by simp only [indexBufferSize]; omega)
        omega
      have htotal : totalBlocks 12 (ones 8192) = 2 := rfl
      simp [Readable, htotal, pread, chunkOffset, indexBufferSize, allMoved, cowFile]
      decide
    · have hb : b < 2 := hb
      simp only [pread, cowBlockSize_four_kib, allMoved, ones]
      omega
    · have h := hp.2
      simp only [cowBlockSize_four_kib, allMoved] at h ⊢
      omega
  · rw [main, verifyFiles_cowFile]
    rfl

/-- A snapshot of one sector: its only block cannot be read whole, and is left out. -/
theorem success_incomplete : ¬ ∀ (ps : Nat) (calls : Calls) (cow snap : ByteFile) (img : Nat → UInt8),
    snap.size % 512 = 0 → verifyFiles calls cow = 0 → exitStatus (main ps calls cow snap img).1 = 0 →
    Complete ps cow snap img (main ps calls cow snap img).2 := by
  intro h
  have hv := verifyFiles_cowFile fun k => if k = 0 then 9 else 0
  have hcomplete := h 12 allMoved (cowFile header fun k => if k = 0 then 9 else 0) (ones 512) (fun _ => 0) rfl hv
  have hmain : main 12 allMoved (cowFile header fun k => if k = 0 then 9 else 0) (ones 512) (fun _ => 0) =
      (0, fun _ => 0) := by
    rw [main, hv]
    rfl
  rw [hmain] at hcomplete
  have hbyte := (hcomplete rfl).1 0 (by decide) (by decide) 0 ⟨Nat.le_refl 0, by decide⟩ (by decide)
  exact absurd hbyte (by decide)

end ElastioSnap.UpdateImg
