import ElastioSnap.Cow.Footprint
import ElastioSnap.Lib.Runs
import Mathlib.Tactic.IntervalCases

namespace ElastioSnap.Cow.Protocol

open Lib.Bytes Lib.Outcome Lib.Flags Lib.Runs Manager FileIo Section Cleanup Header Mapping Lifecycle Data Regions Footprint

/-- What is done with a COW file, by the manager that has it or by one that is made for it. -/
inductive Act
  | init (elements fileMax seqid : UInt64) (cacheSize : Nat) (uuid : Fin 16 → UInt8)
  | reload (elements : UInt64) (cacheSize : Nat) (indexOnly : Bool)
  | reopen
  | readMapping (pos : UInt64)
  | writeMapping (pos val : UInt64)
  | writeCurrent (block : UInt64) (buf : Nat → UInt8)
  | modifyCacheSize (cacheSize : Nat)
  | truncateToIndex
  | syncAndClose
  | syncAndFree

def Act.run (ps : Nat) : Act → CowM Unit
  | .init elements fileMax seqid cacheSize uuid => cowInit ps elements (cowSectionSize ps) cacheSize fileMax uuid seqid
  | .reload elements cacheSize indexOnly => cowReload ps elements (cowSectionSize ps) cacheSize indexOnly
  | .reopen => cowReopen
  | .readMapping pos => do
      let _ ← cowReadMapping ps pos
  | .writeMapping pos val => cowWriteMapping ps pos val
  | .writeCurrent block buf => cowWriteCurrent ps block buf
  | .modifyCacheSize cacheSize => cowModifyCacheSize ps cacheSize
  | .truncateToIndex => cowTruncateToIndex
  | .syncAndClose => cowSyncAndClose ps
  | .syncAndFree => cowSyncAndFree ps

/-- A file has one manager, which is reopened after it was closed and closed while it is open. -/
def Act.enabled (w : World) : Act → Bool
  | .init .. | .reload .. => w.cm.sects.isNone
  | .reopen => w.cm.sects.isSome && !w.cm.filp
  | .truncateToIndex | .syncAndClose => w.cm.sects.isSome && w.cm.filp
  | _ => w.cm.sects.isSome

/-- `__cow_open_header` up to its own write. -/
def cowCheckHeader (indexOnly resetVmalloc : Bool) : CowM Unit := do
  alloc
  let ch := decode (← fileRead 0 cowHeaderSize)
  if ch.magic ≠ cowMagic then throw (.code .einval)
  else if hasFlag ch.flags cowClean = false then throw (.code .einval)
  else if hasFlag ch.flags cowIndexOnly ≠ indexOnly then throw (.code .einval)
  else modifyCm (restore ch resetVmalloc)

theorem cowOpenHeader_eq (indexOnly resetVmalloc : Bool) : cowOpenHeader indexOnly resetVmalloc =
    (do
      cowCheckHeader indexOnly resetVmalloc
      cowWriteHeader false) := by
  simp only [cowOpenHeader, cowCheckHeader, bind_assoc]
  congr 1
  funext _
  congr 1
  funext buf
  split
  · rfl
  · split
    · rfl
    · split <;> rfl

/-- The header write of an action, clean or dirty, and what comes before it. -/
def Act.beforeHeader (ps : Nat) : Act → Option (Bool × CowM Unit)
  | .init elements fileMax seqid cacheSize uuid => some (false, do
      allocManager
      fileCreate
      modifyCm fun cm => fresh ps fileMax uuid seqid (layout ps elements (cowSectionSize ps) cacheSize cm)
      allocSects (sectionTotal ps elements (cowSectionSize ps))
      fileAllocate ps 0 fileMax.toNat)
  | .reload elements cacheSize indexOnly => some (false, do
      allocManager
      fileOpen
      modifyCm (layout ps elements (cowSectionSize ps) cacheSize)
      cowCheckHeader indexOnly true)
  | .reopen => some (false, do
      fileOpen
      let cm := (← get).cm
      cowCheckHeader (hasFlag cm.flags cowIndexOnly) false)
  | .syncAndClose => some (true, cowSyncAndFreeSections ps 0 true)
  | .syncAndFree => some (true, cowSyncAndFreeSections ps 0 false)
  | _ => none

/-- A header write: whether it was a close, and the manager that it has written down. -/
structure Written where
  isClean : Bool
  cm : CowManager

def written (isClean : Bool) (cm : CowManager) : Written :=
  ⟨isClean, { cm with flags := markClean isClean cm.flags }⟩

/-- The first page of a file is a header. -/
def Holds (m : Written) (f : ByteFile) : Prop :=
  4096 ≤ f.size ∧ ∀ p, p < 4096 → f.bytes p = (headerOf m.cm).encode p

instance (m : Written) (f : ByteFile) : Decidable (Holds m f) :=
  inferInstanceAs (Decidable (4096 ≤ f.size ∧ ∀ p, p < 4096 → f.bytes p = (headerOf m.cm).encode p))

/-- The world that a computation leaves. -/
def left (r : EStateM.Result Err World Unit) : World :=
  match r with
  | .ok _ w => w
  | .error _ w => w

/-- The header write that an action completes, if it comes to it and all of it gets to the file. -/
def completed (ps : Nat) (a : Act) (w : World) : Option Written :=
  match a.beforeHeader ps with
  | none => none
  | some (isClean, x) =>
      match x w with
      | .ok _ w₁ =>
          if Holds (written isClean w₁.cm) (left (cowWriteHeader isClean w₁)).file then some (written isClean w₁.cm)
          else none
      | .error _ _ => none

/-- The action makes the file, or makes it anew, so that no header is left in it. -/
def emptied (a : Act) (w : World) : Bool :=
  match a with
  | .init .. =>
      match (do allocManager; fileCreate : CowM Unit) w with
      | .ok _ _ => true
      | .error _ _ => false
  | _ => false

/-- The last complete header write of the file after an action. -/
def lastAfter (ps : Nat) (a : Act) (w : World) (last : Option Written) : Option Written :=
  (completed ps a w).or (if emptied a w then none else last)

/-- The machine stops before a call: this call and all later ones do nothing. -/
def stopAt (w : World) (n : Nat) : World :=
  { w with env := { w.env with
      fault := fun k => if k < n then w.env.fault k else some .eio
      moved := fun k => if k < n then w.env.moved k else 0 } }

/-- A machine with one COW file, and the last complete header write of this file. -/
structure State where
  world : World
  last : Option Written

inductive Event
  | act (a : Act)
  /-- The machine crashes at a call made by an action, and keeps nothing but the file. -/
  | crash (a : Act) (n : Nat)

def step (ps : Nat) (s : State) : Event → Option State
  | .act a =>
      if a.enabled s.world then some ⟨left (a.run ps s.world), lastAfter ps a s.world s.last⟩ else none
  | .crash a n =>
      if a.enabled s.world then
        let v := stopAt s.world n
        let v' := left (a.run ps v)
        some {
          world := { v' with
            cm := .zero
            -- after the machine has stopped the file is not unlinked any more
            linked := if v'.clock ≤ n then v'.linked else s.world.linked || emptied a v
            extents := none
            env := s.world.env }
          last := lastAfter ps a v s.last }
      else none

/-- A machine without a COW file. -/
def State.start (env : Env) : State := ⟨⟨.zero, .empty, false, none, env, 0⟩, none⟩

/-- A device that a COW file is made for has blocks, and not too many for the bytes of a file. -/
def Sized (ps : Nat) : Event → Prop
  | .act (.init elements ..) | .crash (.init elements ..) _ => 0 < elements.toNat ∧ elements.toNat * 2 ^ ps < 2 ^ 63
  | _ => True

/-- A write that fails has written nothing. -/
def Atomic (env : Env) : Prop := ∀ n, env.fault n ≠ none → env.moved n = 0

/-- The header write of a close leaves the page as it was, or with the whole header in it. -/
def Untorn (ps : Nat) (a : Act) (w : World) : Prop :=
  ∀ x w₁, a.beforeHeader ps = some (true, x) → x w = .ok () w₁ →
    Spares w₁ (left (cowWriteHeader true w₁)) ∨ Holds (written true w₁.cm) (left (cowWriteHeader true w₁)).file

/-- No close leaves half of its header behind. -/
def Whole (ps : Nat) (s : State) : Event → Prop
  | .act a => Untorn ps a s.world
  | .crash a n => Untorn ps a (stopAt s.world n)

variable {ps n : Nat} {w w' : World} {last : Option Written} {m : Written} {isClean : Bool}

/-- A file whose first page has no header in it yet. -/
def Vacant (f : ByteFile) : Prop := ∀ p, p < 4096 → f.bytes p = 0

/-- A file that was not closed, if it has a header at all. -/
def Unclean (f : ByteFile) : Prop := hasFlag (decode f.bytes).flags cowClean = false

/-- What the first page of the file is known to be. -/
def Headed (ps : Nat) (f : ByteFile) : Option Written → Prop
  | none => Unclean f
  | some m => Holds m f ∧ hasFlag m.cm.flags cowClean = m.isClean ∧ Ready ps m.cm

theorem Unclean.congr {f f' : ByteFile} (h : Unclean f) (hp : ∀ p, p < 4096 → f'.bytes p = f.bytes p) : Unclean f' := by
  rw [Unclean, decode_congr hp]
  exact h

theorem Vacant.unclean {f : ByteFile} (h : Vacant f) : Unclean f := by
  have hzero : decode f.bytes = decode fun _ => 0 := decode_congr h
  rw [Unclean, hzero]
  rfl

theorem Headed.spares (h : Headed ps w.file last) (hs : Spares w w') : Headed ps w'.file last := by
  cases last with
  | none => exact Unclean.congr h hs.page
  | some m => exact ⟨⟨h.1.1.trans hs.size, fun p hp => (hs.page p hp).trans (h.1.2 p hp)⟩, h.2⟩

/-- The flag of a clean file is in the fourth byte. -/
theorem clean_byte (b : Nat → UInt8) : hasFlag (decode b).flags cowClean = decide ((b 4).toNat % 2 = 1) := by
  have hb : (b 4).toNat < 2 ^ 8 := (b 4).toNat_lt
  have hval : cowClean.val = 0 := rfl
  have hflags : (decode b).flags = byteHalf fun k => b (4 + k) := rfl
  have hfirst : b (4 + 0) = b 4 := rfl
  rw [hasFlag, hval, Nat.testBit_zero, hflags, byteHalf, UInt32.toNat_ofNat', hfirst]
  exact decide_eq_decide.mpr (by omega)

/-- The flags of a header are in its low bits. -/
theorem halfByte_clearFlag (f : UInt32) {i : Fin 32} {k : Nat} (hi : i.val < 8) (hk : 0 < k) (hk' : k < 4) :
    halfByte (clearFlag f i) k = halfByte f k := by
  have hbits : ∀ g : UInt32, (g.toNat / 256 ^ k) % 2 ^ 8 = (g.toNat >>> (8 * k)) % 2 ^ 8 := by
    intro g
    rw [Nat.shiftRight_eq_div_pow, Nat.pow_mul]
  apply UInt8.toNat_inj.mp
  rw [halfByte, halfByte, UInt8.toNat_ofNat', UInt8.toNat_ofNat', hbits, hbits]
  apply Nat.eq_of_testBit_eq
  intro j
  rw [Nat.testBit_mod_two_pow, Nat.testBit_mod_two_pow, Nat.testBit_shiftRight, Nat.testBit_shiftRight]
  by_cases hj : j < 8
  · have hflag := hasFlag_clearFlag f i ⟨8 * k + j, by omega⟩
    have hne : ¬ (⟨8 * k + j, by omega⟩ : Fin 32) = i := fun h => by
      have := congrArg Fin.val h
      dsimp only at this
      omega
    rw [decide_eq_false hne, Bool.not_false, Bool.and_true] at hflag
    rw [show (clearFlag f i).toNat.testBit (8 * k + j) = f.toNat.testBit (8 * k + j) from hflag]
  · simp only [hj, decide_false, Bool.false_and]

theorem headed_written (h : Holds (written isClean w.cm) w'.file) (hr : Ready ps w.cm) :
    Headed ps w'.file (some (written isClean w.cm)) := by
  refine ⟨h, ?_, hr.low, hr.high⟩
  simp only [written, markClean]
  cases isClean <;> simp

/-- The fields of a header are in its first sector, and the rest of its page is zero. -/
theorem encode_tail (h : CowHeader) {p : Nat} (hp : 512 ≤ p) : h.encode p = 0 := by
  rw [CowHeader.encode, if_neg (by omega), if_neg (by omega), if_neg (by omega), if_neg (by omega), if_neg (by omega),
    dif_neg (by omega), if_neg (by omega), if_neg (by omega)]

/-- Of a direct write from an offset on some whole sectors are in the file, and nothing else. -/
def InSectors (buf : Nat → UInt8) (offset : Nat) (f f' : ByteFile) : Prop :=
  f'.size = f.size ∧ ∃ len, len % 512 = 0 ∧ ∀ p, p < f.size → f'.bytes p =
    if offset ≤ p ∧ p < offset + len then buf (p - offset) else f.bytes p

theorem InSectors.refl (buf : Nat → UInt8) (offset : Nat) (f : ByteFile) : InSectors buf offset f f :=
  ⟨rfl, 0, rfl, fun p _ => by rw [if_neg (by omega)]⟩

theorem InSectors.after {f f' : ByteFile} {buf buf' : Nat → UInt8} {offset len : Nat} (hlen : len % 512 = 0)
    (h : InSectors buf' (offset + len) (f.overwrite offset len buf) f') (hbuf : ∀ p, buf' p = buf (len + p)) :
    InSectors buf offset f f' := by
  obtain ⟨hsize, len', hlen', hk⟩ := h
  refine ⟨hsize, len + len', by omega, fun p hp => ?_⟩
  rw [hk p hp, hbuf]
  simp only [ByteFile.overwrite]
  by_cases h₁ : offset + len ≤ p ∧ p < offset + len + len'
  · have hp' : len + (p - (offset + len)) = p - offset := by omega
    rw [if_pos h₁, if_pos (by omega), hp']
  · rw [if_neg h₁]
    by_cases h₂ : offset ≤ p ∧ p < offset + len
    · rw [if_pos ⟨h₂.1, h₂.2, hp⟩, if_pos (by omega)]
    · rw [if_neg (fun h => h₂ ⟨h.1, h.2.1⟩), if_neg (by omega)]

/-- However far a direct write comes, the sectors it was through with are written. -/
theorem fileWriteBlock_sectors (buf : Nat → UInt8) (fuel left offset done : Nat) :
    wp (fileWriteBlock buf fuel left offset done) w (fun _ _ => True)
      (fun _ w' => InSectors (fun p => buf (done * 512 + p)) offset w.file w'.file) := by
  induction fuel generalizing left offset done w with
  | zero => trivial
  | succ fuel ih =>
      simp only [fileWriteBlock, sectorSize, wp_bind]
      refine wp_cowExtents ?_ (.refl _ _ _)
      intro exts
      cases sectorByOffset exts offset with
      | none =>
          simp only [wp_throw]
          exact .refl _ _ _
      | some startSect =>
          simp only [wp_bind, wp_ite, wp_pure, wp_modify]
          refine wp_alloc (wp_alloc (wp_tick ?_ fun _ _ => .refl _ _ _) fun _ _ => .refl _ _ _) fun _ _ => .refl _ _ _
          split
          next => trivial
          next =>
            refine wp_mono (ih _ _ _) (fun _ _ h => h) fun _ w' h => h.after (Nat.mul_mod_left _ _) fun p => ?_
            rw [Nat.add_mul, Nat.add_assoc]

/-- A direct write of a header is complete with its first sector. -/
theorem holds_of_sectors {f f' : ByteFile} {h : CowHeader} (hm : Holds m f) (hs : InSectors h.encode 0 f f') :
    (∀ p, f'.bytes p = f.bytes p ∨ 4096 ≤ p) ∨ ∀ p, p < 4096 → f'.bytes p = h.encode p := by
  obtain ⟨-, len, hlen, hk⟩ := hs
  by_cases hzero : len = 0
  · left
    intro p
    by_cases hp : p < 4096
    · rw [hk p (hp.trans_le hm.1), if_neg (by omega)]
      exact .inl rfl
    · exact .inr (by omega)
  · right
    intro p hp
    rw [hk p (hp.trans_le hm.1), Nat.zero_add, Nat.sub_zero]
    split
    next => rfl
    next hout => rw [hm.2 p hp, encode_tail _ (by omega), encode_tail _ (by omega)]

theorem write_nothing (f : ByteFile) (off : Nat) (buf : Nat → UInt8) : f.write off 0 buf = f := by
  refine ByteFile.ext ?_ rfl
  funext p
  exact splice_outside f.bytes buf (by omega)

/-- In an open file a header is written from its first byte on. -/
theorem cowWriteHeader_open (hf : w.cm.filp = true) :
    wp (cowWriteHeader isClean) w (fun _ w' => Holds (written isClean w.cm) w'.file)
      (fun _ w' => ∃ k, k ≤ 4096 ∧ w'.file = w.file.write 0 k (headerOf (written isClean w.cm).cm).encode ∧
        (Atomic w.env → k = 0)) := by
  simp only [cowWriteHeader, wp_bind]
  refine wp_alloc ?_ fun _ _ => ⟨0, by decide, (write_nothing ..).symm, fun _ => rfl⟩
  rw [wp_modifyCm, wp_get, fileWrite, wp_bind, wp_get, wp_ite, if_pos hf]
  unfold wp vfsWrite
  rw [if_neg (by decide)]
  cases hfault : w.env.fault (w.clock + 1) with
  | none =>
      have hend : 0 + 4096 ≤ (w.file.write 0 4096 (headerOf (written isClean w.cm).cm).encode).size :=
        end_le_write _ _ (by decide)
      refine ⟨Nat.le_trans (Nat.le_of_eq (Nat.zero_add 4096).symm) hend, fun p hp => ?_⟩
      have hin : (w.file.write 0 4096 (headerOf (written isClean w.cm).cm).encode).bytes (0 + p) = _ :=
        bytes_write_inside _ _ hp
      rwa [Nat.zero_add] at hin
  | some e =>
      refine ⟨min (w.env.moved (w.clock + 1)) 4096, Nat.min_le_right _ _, rfl, fun hat => ?_⟩
      rw [hat _ (by rw [hfault]; exact Option.some_ne_none e), Nat.zero_min]

/-- In the sectors of a closed file a header is written as a whole or not at all. -/
theorem cowWriteHeader_closed (hf : w.cm.filp = false) (hm : Holds m w.file) :
    wp (cowWriteHeader isClean) w (fun _ w' => Holds (written isClean w.cm) w'.file)
      (fun _ w' => Spares w w' ∨ Holds (written isClean w.cm) w'.file) := by
  simp only [cowWriteHeader, wp_bind]
  refine wp_alloc ?_ fun _ _ => .inl (spares_of_file rfl)
  rw [wp_modifyCm, wp_get, fileWrite, wp_bind, wp_get, wp_ite, if_neg (by rw [hf]; exact Bool.false_ne_true)]
  apply wp_mono (wp_and (fileWriteBlock_wp _ 8 8 0 0 (by decide) le_rfl) (fileWriteBlock_sectors _ 8 8 0 0))
  · rintro _ w' ⟨⟨-, hwrote, hbuf⟩, -⟩
    refine ⟨hm.1.trans hwrote.size, fun p hp => ?_⟩
    simp only [Nat.zero_add, Nat.zero_mul] at hbuf
    exact hbuf p hp (hp.trans_le hm.1)
  · rintro e w' ⟨⟨-, hwrote⟩, hsect⟩
    simp only [Nat.zero_mul, Nat.zero_add] at hsect
    rcases holds_of_sectors hm hsect with h | h
    · exact .inl ⟨hwrote.size, fun p hp => (h p).resolve_right (by omega)⟩
    · exact .inr ⟨hm.1.trans hwrote.size, h⟩

/-- A header write that returns has written all of the header. -/
theorem cowWriteHeader_holds (hold : w.cm.filp = false → ∃ m, Holds m w.file) :
    wp (cowWriteHeader isClean) w (fun _ w' => Holds (written isClean w.cm) w'.file) (fun _ _ => True) := by
  cases hf : w.cm.filp with
  | true => exact wp_mono (cowWriteHeader_open hf) (fun _ _ h => h) fun _ _ _ => trivial
  | false =>
      obtain ⟨m, hm⟩ := hold hf
      exact wp_mono (cowWriteHeader_closed hf hm) (fun _ _ h => h) fun _ _ _ => trivial

theorem wp_left {x : CowM Unit} {P : World → Prop} (h : wp x w (fun _ => P) (fun _ => P)) : P (left (x w)) := by
  unfold wp at h
  rw [left.eq_def]
  cases hx : x w with
  | ok _ w' =>
      rw [hx] at h
      exact h
  | error e w' =>
      rw [hx] at h
      exact h

theorem spares_nothing {buf : Nat → UInt8} (h : w'.file = w.file.write 0 0 buf) : Spares w w' :=
  spares_of_file (h.trans (write_nothing ..))

/-- Where a write that fails has written nothing, a header is written as a whole or not at all. -/
theorem header_atomic (hat : Atomic w.env) (hold : w.cm.filp = false → ∃ m, Holds m w.file) :
    Spares w (left (cowWriteHeader isClean w)) ∨ Holds (written isClean w.cm) (left (cowWriteHeader isClean w)).file := by
  refine wp_left (P := fun w' => Spares w w' ∨ Holds (written isClean w.cm) w'.file) ?_
  cases hf : w.cm.filp with
  | true =>
      refine wp_mono (cowWriteHeader_open hf) (fun _ _ h => .inr h) ?_
      rintro _ w' ⟨k, _, hfile, hnothing⟩
      rw [hnothing hat] at hfile
      exact .inl (spares_nothing hfile)
  | false =>
      obtain ⟨m, hm⟩ := hold hf
      exact wp_mono (cowWriteHeader_closed hf hm) (fun _ _ h => .inr h) fun _ _ h => h

/-- A dirty header differs from the one before it at most in the byte of the flags. -/
def Renews (last : Option Written) (cm : CowManager) : Prop :=
  ∀ m, last = some m → ∀ p, p ≠ 4 → (headerOf m.cm).encode p = (headerOf (written false cm).cm).encode p

theorem renews_restore {cm : CowManager} {resetVmalloc : Bool} :
    Renews (some m) (restore (headerOf m.cm) resetVmalloc cm) := by
  intro m' hm' p hp
  cases hm'
  have hflags : ∀ k, 0 < k → k < 4 →
      halfByte (markClean false (restore (headerOf m.cm) resetVmalloc cm).flags) k = halfByte m.cm.flags k := by
    intro k hk hk'
    rw [markClean, if_neg Bool.false_ne_true, halfByte_clearFlag _ (by decide) hk hk', restore]
    dsimp only
    split
    · exact halfByte_clearFlag _ (by decide) hk hk'
    · rfl
  simp only [CowHeader.encode]
  by_cases hmagic : p < 4
  · rw [if_pos hmagic, if_pos hmagic]
    rfl
  · rw [if_neg hmagic, if_neg hmagic]
    by_cases hfour : p < 8
    · rw [if_pos hfour, if_pos hfour]
      exact (hflags (p - 4) (by omega) (by omega)).symm
    · rw [if_neg hfour, if_neg hfour]
      rfl

/-- Of a dirty header nothing is in the file, or all of it. -/
theorem Renews.whole {f : ByteFile} {cm : CowManager} {k : Nat} (h : Renews (some m) cm) (hm : Holds m f) (hk : k ≤ 4096) :
    f.write 0 k (headerOf (written false cm).cm).encode = f ∨
      Holds (written false cm) (f.write 0 k (headerOf (written false cm).cm).encode) := by
  have hsize : f.size ≤ (f.write 0 k (headerOf (written false cm).cm).encode).size := size_le_write f 0 k _
  by_cases hflags : k ≤ 4
  · left
    refine ByteFile.ext ?_ ?_
    · funext p
      by_cases hp : p < k
      · have hin : (f.write 0 k (headerOf (written false cm).cm).encode).bytes (0 + p) = _ := bytes_write_inside f _ hp
        rw [Nat.zero_add] at hin
        rw [hin, hm.2 p (by omega), h m rfl p (by omega)]
      · exact bytes_write_outside f _ (.inr (by omega))
    · have hlong := hm.1
      simp only [ByteFile.write]
      split
      · rfl
      · omega
  · right
    refine ⟨hm.1.trans hsize, fun p hp => ?_⟩
    by_cases hin : p < k
    · have hbyte : (f.write 0 k (headerOf (written false cm).cm).encode).bytes (0 + p) = _ := bytes_write_inside f _ hin
      rwa [Nat.zero_add] at hbyte
    · rw [bytes_write_outside f _ (.inr (by omega)), hm.2 p hp]
      exact h m rfl p (by omega)

/-- As far as a dirty header is written, the file is not clean. -/
theorem unclean_write {f : ByteFile} {cm : CowManager} {k : Nat} (h : Unclean f) :
    Unclean (f.write 0 k (headerOf (written false cm).cm).encode) := by
  rw [Unclean, clean_byte] at h ⊢
  by_cases hk : 4 < k
  · have hin : (f.write 0 k (headerOf (written false cm).cm).encode).bytes (0 + 4) = _ := bytes_write_inside f _ hk
    rw [Nat.zero_add] at hin
    rw [hin, ← clean_byte, decode_encode]
    simp [headerOf, written, markClean]
  · rw [bytes_write_outside f _ (.inr (by omega))]
    exact h

/-- A header write that makes a file dirty leaves the page as it was known to be, or writes all of the header. -/
theorem header_dirty (hf : w.cm.filp = true) (hh : Headed ps w.file last) (hr : Renews last w.cm) :
    Headed ps (left (cowWriteHeader false w)).file last ∨
      Holds (written false w.cm) (left (cowWriteHeader false w)).file := by
  refine wp_left (P := fun w' => Headed ps w'.file last ∨ Holds (written false w.cm) w'.file) ?_
  refine wp_mono (cowWriteHeader_open hf) (fun _ _ h => .inr h) ?_
  rintro _ w' ⟨k, hk, hfile, _⟩
  rw [hfile]
  cases last with
  | none => exact .inl (unclean_write hh)
  | some m =>
      refine (hr.whole hh.1 hk).imp_left fun hsame => ?_
      rw [hsame]
      exact hh

/-- The page of the file and the record of it move together. -/
theorem headed_after (hpage : Headed ps (left (cowWriteHeader isClean w)).file last ∨
      Holds (written isClean w.cm) (left (cowWriteHeader isClean w)).file) (hr : Ready ps w.cm) :
    Headed ps (left (cowWriteHeader isClean w)).file
      ((if Holds (written isClean w.cm) (left (cowWriteHeader isClean w)).file then some (written isClean w.cm)
        else none).or last) := by
  split
  next hholds => exact headed_written hholds hr
  next hnot => exact hpage.resolve_right hnot

/-- The file is only extended, or filled with zeros. -/
def Clears (w w' : World) : Prop := Vacant w.file → Vacant w'.file

instance : Std.Refl Clears := ⟨fun _ => id⟩

instance : Trans Clears Clears Clears := ⟨fun h h' => h' ∘ h⟩

theorem clears_of_file (h : w'.file = w.file) : Clears w w' := fun hv => h ▸ hv

theorem clears_fileWriteBlock {fuel l offset done : Nat} :
    Relates Clears (fileWriteBlock (fun _ => 0) fuel l offset done) := by
  induction fuel generalizing l offset done with
  | zero => exact relates_pure
  | succ fuel ih =>
      rw [fileWriteBlock]
      refine (preserves_get.bind fun w => ?_ : Preserves World.file cowExtents).relates (fun _ _ => clears_of_file)
        |>.bind fun exts => ?_
      · cases w.extents with
        | none => exact preserves_throw
        | some exts => exact preserves_pure
      · have ht : Relates Clears tick := fun _ => wp_tick (clears_of_file rfl) fun _ _ => clears_of_file rfl
        have ha : Relates Clears alloc := fun _ => wp_alloc (clears_of_file rfl) fun _ _ => clears_of_file rfl
        split
        · exact relates_throw
        · refine ha.bind fun _ => ha.bind fun _ => ht.bind fun _ => (relates_modify fun w hv p hp => ?_).bind fun _ =>
            relates_pure.ite ih
          simp only [ByteFile.overwrite]
          split
          · rfl
          · exact hv p hp

theorem clears_fileWrite {off len : Nat} : Relates Clears (fileWrite off len fun _ => 0) := by
  have hbytes : ∀ (f : ByteFile) (n : Nat), Vacant f → Vacant (f.write off n fun _ => 0) := by
    intro f n hv p hp
    simp only [ByteFile.write, splice]
    split
    · rfl
    · exact hv p hp
  refine relates_get.bind fun _ => Relates.ite (fun w => ?_) clears_fileWriteBlock
  unfold wp vfsWrite
  by_cases h : 2 ^ 63 ≤ off + len
  · rw [if_pos h]
    exact clears_of_file rfl
  · rw [if_neg h]
    cases w.env.fault w.clock with
    | none => exact hbytes w.file len
    | some e => exact hbytes w.file _

theorem clears_fileAllocate {offset length : Nat} : Relates Clears (fileAllocate ps offset length) := by
  have ht : Relates Clears tick := fun _ => wp_tick (clears_of_file rfl) fun _ _ => clears_of_file rfl
  have ha : Relates Clears alloc := fun _ => wp_alloc (clears_of_file rfl) fun _ _ => clears_of_file rfl
  have hreal : Relates Clears (realFallocate offset length) :=
    ht.bind fun _ => relates_throw.ite (relates_modify fun _ hv => hv)
  have hzero : ∀ off n k, Relates Clears (zeroPages ps off n k) := by
    intro off n
    induction n with
    | zero => exact fun _ => relates_pure
    | succ n ih => exact fun k => clears_fileWrite.bind fun _ => ih (k + 1)
  exact hreal.recover fun _ => Relates.ite
    (ha.bind fun _ => (clears_fileWrite.ite relates_pure).bind fun _ => hzero _ _ _) relates_throw

theorem allocSects_keeps {γ : Type} {g : World → γ} {total : Nat}
    (hg : ∀ (w : World) (flags : UInt32) (sects : Option (Nat → CowSection)) (c : Nat),
      g { w with cm := { w.cm with flags := flags, sects := sects }, clock := c } = g w) :
    Preserves g (allocSects total) := by
  intro w
  unfold wp allocSects
  split
  next h =>
    split at h
    next => cases h; exact hg w w.cm.flags _ _
    next =>
      split at h
      next => cases h; exact hg w _ _ _
      next => cases h
  next h =>
    split at h
    next => cases h
    next =>
      split at h
      next => cases h
      next => cases h; exact hg w _ w.cm.sects _

theorem clears_allocSects {total : Nat} : Relates Clears (allocSects total) :=
  Preserves.relates (g := World.file) (allocSects_keeps fun _ _ _ _ => rfl) fun _ _ => clears_of_file

/-- A manager whose data lies behind the header. -/
structure Able (ps : Nat) (cm : CowManager) : Prop extends Ready ps cm where
  data : 4096 ≤ cm.dataOffset

theorem Able.fixed (h : Able ps w.cm) (hfix : fixedPart w' = fixedPart w) : Able ps w'.cm := by
  simp only [fixedPart, Prod.mk.injEq] at hfix
  exact ⟨h.toReady.congr hfix.2.1, hfix.2.2.1 ▸ h.data⟩

/-- The sections are pages, of which the sum of the sizes may wrap without coming below the header. -/
theorem layout_data (elements : UInt64) (cacheSize : Nat) (cm : CowManager) (h12 : 12 ≤ ps) (h16 : ps ≤ 16) :
    4096 ≤ (layout ps elements (cowSectionSize ps) cacheSize cm).dataOffset := by
  change 4096 ≤ (4096 + sectionTotal ps elements (2 ^ ps) * (2 ^ ps * 8)) % 2 ^ 64
  generalize sectionTotal ps elements (2 ^ ps) = total
  interval_cases ps <;> omega

/-- The number of sections is rounded up, and nothing wraps. -/
theorem sectionTotal_ceil {elements : UInt64} (h12 : 12 ≤ ps) (h16 : ps ≤ 16) (hmax : elements.toNat * 2 ^ ps < 2 ^ 63) :
    sectionTotal ps elements (2 ^ ps) = (elements.toNat + 2 ^ ps - 1) / 2 ^ ps := by
  have hlow : 2 ^ 12 ≤ 2 ^ ps := Nat.pow_le_pow_right (by decide) h12
  have hhigh : 2 ^ ps ≤ 2 ^ 16 := Nat.pow_le_pow_right (by decide) h16
  have horder : getOrder ps (2 ^ ps * 8) = 3 := by
    have hdiv : (2 ^ ps * 8 + 2 ^ ps - 1) / 2 ^ ps = 8 := by
      rw [Nat.div_eq_of_lt_le] <;> omega
    rw [getOrder, pageSize, hdiv]
    exact Nat.clog_pow 2 3 (by decide)
  have hsmall : elements.toNat * 2 ^ 12 < 2 ^ 63 := (Nat.mul_le_mul_left _ hlow).trans_lt hmax
  rw [sectionTotal, horder, Nat.add_sub_cancel_left, numSegments, Nat.mod_eq_of_lt (by omega)]

/-- With pages of 4 to 64 KiB the data of a new file begins behind the header. -/
theorem ready_fresh {elements fileMax seqid : UInt64} {uuid : Fin 16 → UInt8} {cacheSize : Nat} {cm : CowManager}
    (h12 : 12 ≤ ps) (h16 : ps ≤ 16) (hpos : 0 < elements.toNat) (hmax : elements.toNat * 2 ^ ps < 2 ^ 63) :
    Ready ps (fresh ps fileMax uuid seqid (layout ps elements (cowSectionSize ps) cacheSize cm)) := by
  have hlow : 2 ^ 12 ≤ 2 ^ ps := Nat.pow_le_pow_right (by decide) h12
  have hhigh : 2 ^ ps ≤ 2 ^ 16 := Nat.pow_le_pow_right (by decide) h16
  have htotal := sectionTotal_ceil h12 h16 hmax
  have hsmall : elements.toNat * 2 ^ 12 < 2 ^ 63 := (Nat.mul_le_mul_left _ hlow).trans_lt hmax
  have hone : 1 ≤ (elements.toNat + 2 ^ ps - 1) / 2 ^ ps := (Nat.one_le_div_iff (by omega)).mpr (by omega)
  have hmul := Nat.div_mul_le_self (elements.toNat + 2 ^ ps - 1) (2 ^ ps)
  have hcurr : (fresh ps fileMax uuid seqid (layout ps elements (cowSectionSize ps) cacheSize cm)).currPos =
      UInt64.ofNat ((4096 + sectionTotal ps elements (2 ^ ps) * (2 ^ ps * 8)) % 2 ^ 64 / 2 ^ ps) := rfl
  rw [htotal] at hcurr
  generalize (elements.toNat + 2 ^ ps - 1) / 2 ^ ps = total at hone hmul hcurr
  have hsize : total * (2 ^ ps * 8) = total * 2 ^ ps * 8 := (Nat.mul_assoc _ _ _).symm
  have hfirst : 1 * 2 ^ ps ≤ total * 2 ^ ps := Nat.mul_le_mul_right _ hone
  rw [hsize, Nat.mod_eq_of_lt (by omega)] at hcurr
  have hle := Nat.div_mul_le_self (4096 + total * 2 ^ ps * 8) (2 ^ ps)
  have hlt := Nat.lt_div_mul_add (a := 4096 + total * 2 ^ ps * 8) (b := 2 ^ ps) (by omega)
  have hq : (4096 + total * 2 ^ ps * 8) / 2 ^ ps < 2 ^ 64 := (Nat.div_le_self _ _).trans_lt (by omega)
  constructor
  · rw [hcurr, UInt64.toNat_ofNat', Nat.mod_eq_of_lt hq]
    omega
  · rw [hcurr, UInt64.toNat_ofNat', Nat.mod_eq_of_lt hq]
    omega

/-- An open file is read if it is long enough. -/
theorem readHeader_wp (hf : w.cm.filp = true) :
    wp (fileRead 0 cowHeaderSize) w
      (fun buf w' => w' = { w with clock := w'.clock } ∧ ∀ p, p < 4096 → buf p = w.file.bytes p)
      (fun _ w' => w' = { w with clock := w'.clock } ∧ (4096 ≤ w.file.size → ¬ w.env.Faultless)) := by
  rw [fileRead, wp_bind, wp_get, wp_ite, if_pos hf, vfsRead, wp_bind]
  refine wp_tick ?_ fun e he => ⟨rfl, fun _ hn => by simp [hn w.clock] at he⟩
  rw [wp_bind, wp_get, wp_ite]
  split
  next =>
    exact ⟨rfl, fun p _ => congrArg w.file.bytes (Nat.zero_add p)⟩
  next hlong =>
    rw [Nat.zero_add] at hlong
    exact ⟨rfl, fun h => absurd h hlong⟩

/-- `__cow_open_header` accepts a header left by a close in the mode that is asked for, and nothing else. -/
theorem cowCheckHeader_wp {indexOnly resetVmalloc : Bool} (hf : w.cm.filp = true) (hh : Headed ps w.file last) :
    wp (cowCheckHeader indexOnly resetVmalloc) w
      (fun _ w' => (∃ m, last = some m ∧ m.isClean = true ∧ hasFlag m.cm.flags cowIndexOnly = indexOnly ∧
        w'.cm = restore (headerOf m.cm) resetVmalloc w.cm) ∧ w' = { w with cm := w'.cm, clock := w'.clock })
      (fun _ w' => w' = { w with clock := w'.clock } ∧
        (w.env.Faultless → ¬ ∃ m, last = some m ∧ m.isClean = true ∧ hasFlag m.cm.flags cowIndexOnly = indexOnly)) := by
  simp only [cowCheckHeader, wp_bind]
  refine wp_alloc ?_ fun e he => ⟨rfl, fun hn => by simp [hn w.clock] at he⟩
  have hread := readHeader_wp (w := { w with clock := w.clock + 1 }) hf
  apply wp_mono hread
  · rintro buf w' ⟨hw, hbuf⟩
    simp only [wp_ite, wp_throw, wp_modifyCm]
    cases last with
    | none =>
        have hdirty : hasFlag (decode buf).flags cowClean = false := by
          rw [decode_congr hbuf]
          exact hh
        -- without the magic number or with it the header is refused
        rw [if_pos hdirty, ite_self]
        refine ⟨by rw [hw], fun _ => ?_⟩
        rintro ⟨m, hm, -⟩
        cases hm
    | some m =>
        have hdec : decode buf = headerOf m.cm := by
          rw [← decode_encode (headerOf m.cm)]
          exact decode_congr fun p hp => (hbuf p hp).trans (hh.1.2 p hp)
        have hclean : hasFlag (headerOf m.cm).flags cowClean = m.isClean := hh.2.1
        have hmode : (headerOf m.cm).flags = m.cm.flags := rfl
        have hmagic : ¬ (headerOf m.cm).magic ≠ cowMagic := fun h => h rfl
        rw [hdec, if_neg hmagic, hclean, hmode]
        split
        next hdirty =>
          refine ⟨by rw [hw], fun _ => ?_⟩
          rintro ⟨m', hm', hc, -⟩
          cases hm'
          rw [hc] at hdirty
          cases hdirty
        next hc =>
          split
          next hother =>
            refine ⟨by rw [hw], fun _ => ?_⟩
            rintro ⟨m', hm', -, hm⟩
            cases hm'
            exact hother hm
          next hsame => exact ⟨⟨m, rfl, by simpa using hc, not_not.mp hsame, by rw [hw]⟩, by rw [hw]⟩
  · rintro e w' ⟨hw, he⟩
    refine ⟨by rw [hw], fun hn => ?_⟩
    rintro ⟨m, rfl, -⟩
    exact he hh.1.1 hn

theorem fileOpen_wp {E : Err → World → Prop} (herr : ∀ e v, v.file = w.file → E e v) :
    wp fileOpen w (fun _ w' => w' = { w with cm := { w.cm with filp := true }, clock := w.clock + 1 }) E := by
  rw [fileOpen, wp_bind]
  refine wp_tick ?_ fun _ _ => herr _ _ rfl
  rw [wp_bind, wp_get, wp_ite]
  split
  · exact rfl
  · exact herr _ _ rfl

/-- What an action finds when it comes to its header write. -/
structure Before (ps : Nat) (isClean : Bool) (w w' : World) (last : Option Written) : Prop where
  headed : Headed ps w'.file last
  able : Able ps w'.cm
  env : w'.env = w.env
  held : w'.cm.filp = false → ∃ m, Holds m w'.file
  opens : isClean = false → w'.cm.filp = true ∧ Renews last w'.cm

theorem held_of_headed (h : Headed ps w.file last) (hl : last ≠ none) : ∃ m, Holds m w.file := by
  cases last with
  | none => exact absurd rfl hl
  | some m => exact ⟨m, h.1⟩

/-- The sections are written below a header that stays. -/
theorem sync_before {fillAhead : Bool} (hh : Headed ps w.file last) (ha : Able ps w.cm) (hl : last ≠ none) :
    wp (cowSyncAndFreeSections ps 0 fillAhead) w (fun _ w' => Before ps true w w' last)
      (fun _ w' => Headed ps w'.file last) := by
  refine wp_mono (wp_and (syncAndFreeSections_spares fun _ => ha.toReady) (preserves_cowSyncAndFreeSections (g := fixedPart) w)) ?_
    fun _ _ h => hh.spares h.1
  intro _ w' ⟨hs, hfix⟩
  have hh' := hh.spares hs
  refine ⟨hh', ha.fixed hfix, ?_, fun _ => held_of_headed hh' hl, fun h => by cases h⟩
  simp only [fixedPart, Prod.mk.injEq] at hfix
  exact hfix.2.2.2.2.2.2.1

theorem check_before {v : World} {indexOnly resetVmalloc : Bool} (hf : v.cm.filp = true) (hfile : v.file = w.file)
    (henv : v.env = w.env) (hd : 4096 ≤ v.cm.dataOffset) (hh : Headed ps w.file last) :
    wp (cowCheckHeader indexOnly resetVmalloc) v (fun _ w' => Before ps false w w' last ∧ last ≠ none)
      (fun _ w' => Headed ps w'.file last) := by
  rw [← hfile] at hh
  apply wp_mono (cowCheckHeader_wp hf hh)
  · rintro _ w' ⟨⟨m, rfl, _, _, hcm⟩, hw⟩
    have hfilp : w'.cm.filp = true := by rw [hcm]; exact hf
    refine ⟨⟨by rw [hw]; exact hh, ?_, by rw [hw]; exact henv, fun h => ?_, fun _ => ⟨hfilp, ?_⟩⟩,
      Option.some_ne_none m⟩
    · rw [hcm]
      exact ⟨hh.2.2.congr rfl, hd⟩
    · rw [hfilp] at h
      cases h
    · rw [hcm]
      exact renews_restore
  · rintro e w' ⟨hw, -⟩
    rw [hw]
    exact hh

theorem allocManager_wp {Q : Unit → World → Prop} {E : Err → World → Prop}
    (hok : w.env.fault w.clock = none → Q () { w with cm := .zero, clock := w.clock + 1 })
    (herr : ∀ e, w.env.fault w.clock = some e → E .oops { w with clock := w.clock + 1 }) : wp allocManager w Q E := by
  unfold wp allocManager
  cases h : w.env.fault w.clock with
  | none => exact hok h
  | some e => exact herr e h

theorem emptied_init {elements fileMax seqid : UInt64} {cacheSize : Nat} {uuid : Fin 16 → UInt8} :
    emptied (.init elements fileMax seqid cacheSize uuid) w =
      ((w.env.fault w.clock).isNone && (w.env.fault (w.clock + 1)).isNone) := by
  change (match EStateM.bind allocManager (fun _ => fileCreate) w with
    | .ok _ _ => true
    | .error _ _ => false) = _
  rw [EStateM.bind, allocManager]
  cases h : w.env.fault w.clock with
  | some e => rfl
  | none =>
      dsimp only
      change (match EStateM.bind tick (fun _ => modify _) _ with
        | .ok _ _ => true
        | .error _ _ => false) = _
      rw [EStateM.bind, tick]
      dsimp only
      cases w.env.fault (w.clock + 1) <;> rfl

theorem init_before {elements fileMax seqid : UInt64} {cacheSize : Nat} {uuid : Fin 16 → UInt8} {x : CowM Unit}
    (hx : (Act.init elements fileMax seqid cacheSize uuid).beforeHeader ps = some (isClean, x)) (h12 : 12 ≤ ps)
    (h16 : ps ≤ 16) (hpos : 0 < elements.toNat) (hmax : elements.toNat * 2 ^ ps < 2 ^ 63)
    (hh : Headed ps w.file last) :
    wp x w
      (fun _ w' => Before ps isClean w w' (if emptied (.init elements fileMax seqid cacheSize uuid) w then none else last))
      (fun _ w' => Headed ps w'.file
        (if emptied (.init elements fileMax seqid cacheSize uuid) w then none else last)) := by
  cases hx
  rw [emptied_init, wp_bind]
  refine allocManager_wp (fun h₀ => ?_) fun e he => ?_
  · rw [h₀, fileCreate, wp_bind, wp_bind]
    cases h₁ : w.env.fault (w.clock + 1) with
    | some e =>
        unfold wp tick
        dsimp only
        rw [h₁]
        exact hh
    | none =>
        unfold wp tick
        dsimp only
        rw [h₁]
        dsimp only
        change wp _ _ _ _
        rw [wp_bind, wp_modifyCm]
        -- the file is new, and is only extended or filled with zeros
        have hvacant : Vacant ByteFile.empty := fun _ _ => rfl
        have hable : Able ps (fresh ps fileMax uuid seqid
            (layout ps elements (cowSectionSize ps) cacheSize { CowManager.zero with filp := true })) :=
          ⟨ready_fresh h12 h16 hpos hmax, layout_data elements cacheSize { CowManager.zero with filp := true } h12 h16⟩
        refine wp_mono (wp_and ((clears_allocSects.bind fun _ => clears_fileAllocate) _)
          (((allocSects_keeps (g := fixedPart) fun _ _ _ _ => rfl).bind fun _ => preserves_fileAllocate) _)) ?_
          fun _ _ h => (h.1 hvacant).unclean
        rintro _ w' ⟨hclears, hfix⟩
        have hable' := hable.fixed hfix
        simp only [fixedPart, Prod.mk.injEq] at hfix
        have hopen : w'.cm.filp = true := hfix.1
        refine ⟨(hclears hvacant).unclean, hable', hfix.2.2.2.2.2.2.1, fun h => ?_, fun _ => ⟨hopen, fun _ h => ?_⟩⟩
        · rw [hopen] at h
          cases h
        · cases h
  · rw [he]
    exact hh

/-- What comes before a header write leaves the page as it was, or empties it. -/
theorem before_wp {a : Act} {x : CowM Unit} (hx : a.beforeHeader ps = some (isClean, x)) (h12 : 12 ≤ ps)
    (h16 : ps ≤ 16) (hsized : Sized ps (.act a)) (he : a.enabled w = true) (hh : Headed ps w.file last)
    (hl : w.cm.sects.isSome = true → Able ps w.cm ∧ last ≠ none) :
    wp x w (fun _ w' => Before ps isClean w w' (if emptied a w then none else last))
      (fun _ w' => Headed ps w'.file (if emptied a w then none else last)) := by
  cases a with
  | init elements fileMax seqid cacheSize uuid => exact init_before hx h12 h16 hsized.1 hsized.2 hh
  | reload elements cacheSize indexOnly =>
      cases hx
      rw [wp_bind]
      refine allocManager_wp (fun _ => ?_) fun e _ => hh
      rw [wp_bind]
      refine wp_mono (fileOpen_wp (E := fun _ v => v.file = w.file) fun _ _ h => h) ?_ fun _ v hv => ?_
      · rintro _ v rfl
        rw [wp_bind, wp_modifyCm]
        exact wp_mono (check_before (w := w) rfl rfl rfl (layout_data elements cacheSize _ h12 h16) hh)
          (fun _ _ h => h.1) fun _ _ h => h
      · rw [hv]
        exact hh
  | reopen =>
      cases hx
      rw [wp_bind]
      refine wp_mono (fileOpen_wp (E := fun _ v => v.file = w.file) fun _ _ h => h) ?_ fun _ v hv => ?_
      · rintro _ v rfl
        rw [wp_bind, wp_get]
        have hlive : w.cm.sects.isSome = true := (Bool.and_eq_true_iff.mp he).1
        exact wp_mono (check_before (w := w) rfl rfl rfl (hl hlive).1.data hh) (fun _ _ h => h.1) fun _ _ h => h
      · rw [hv]
        exact hh
  | syncAndClose =>
      cases hx
      have hlive : w.cm.sects.isSome = true := (Bool.and_eq_true_iff.mp he).1
      exact sync_before hh (hl hlive).1 (hl hlive).2
  | syncAndFree =>
      cases hx
      exact sync_before hh (hl he).1 (hl he).2
  | readMapping | writeMapping | writeCurrent | modifyCacheSize | truncateToIndex => cases hx

theorem left_bind (x y : CowM Unit) (w : World) : left ((do x; y) w) =
    match x w with
    | .ok _ w' => left (y w')
    | .error _ w' => w' := by
  change left (EStateM.bind x (fun _ => y) w) = _
  rw [EStateM.bind]
  cases x w <;> rfl

/-- What comes after the header write, and the handler of a failure, do not write to the file. -/
theorem left_tail {x y : CowM Unit} (hy : Preserves World.file y) (w : World) :
    (left ((do x; y) w)).file = (left (x w)).file := by
  rw [left_bind]
  cases x w with
  | ok _ w' =>
      have h := hy w'
      unfold wp at h
      dsimp only
      cases hr : y w' with
      | ok _ v =>
          rw [hr] at h
          exact h
      | error _ v =>
          rw [hr] at h
          exact h
  | error _ w' => rfl

theorem left_onError {x g : CowM Unit} (hg : Preserves World.file g) (w : World) :
    (left (onError x g w)).file = (left (x w)).file := by
  rw [onError]
  cases x w with
  | ok _ w' => rfl
  | error _ w' =>
      have h := hg w'
      unfold wp at h
      dsimp only
      cases hr : g w' with
      | ok _ v =>
          rw [hr] at h
          exact h
      | error _ v =>
          rw [hr] at h
          exact h

theorem freeMembers_file : Preserves World.file cowFreeMembers := by
  intro w
  unfold wp cowFreeMembers
  cases w.cm.filp <;> rfl

theorem getCowFileExtents_keeps {γ : Type} {g : World → γ} (hg : ∀ (w : World) (x : Option (List Extent)) (c : Nat),
    g { w with extents := x, clock := c } = g w) : Preserves g getCowFileExtents := by
  intro w
  unfold wp getCowFileExtents
  cases w.cm.filp with
  | false => exact rfl
  | true =>
      rw [if_pos rfl]
      cases w.env.fault w.clock with
      | some e => exact hg w w.extents _
      | none =>
          dsimp only
          cases (w.env.fiemap w.clock).isEmpty with
          | true => exact hg w w.extents _
          | false => cases (w.env.fault (w.clock + 1)).isSome <;> exact hg w _ _

theorem run_file {a : Act} {x : CowM Unit} (hx : a.beforeHeader ps = some (isClean, x)) (w : World) :
    (left (a.run ps w)).file = (left ((do x; cowWriteHeader isClean) w)).file := by
  cases a with
  | init elements fileMax seqid cacheSize uuid =>
      cases hx
      rw [Act.run, cowInit, left_bind, bind_assoc, left_bind]
      cases allocManager w with
      | error _ w' => rfl
      | ok _ w' =>
          dsimp only
          rw [left_onError (by intro v; rfl)]
          simp only [bind_assoc]
  | reload elements cacheSize indexOnly =>
      cases hx
      rw [Act.run, cowReload, left_bind, bind_assoc, left_bind]
      cases allocManager w with
      | error _ w' => rfl
      | ok _ w' =>
          dsimp only
          rw [left_onError (by intro v; rfl), cowOpenHeader_eq]
          have htail := left_tail (y := allocSects (sectionTotal ps elements (cowSectionSize ps))) (allocSects_keeps fun _ _ _ _ => rfl)
            (x := do
              fileOpen
              modifyCm (layout ps elements (cowSectionSize ps) cacheSize)
              cowCheckHeader indexOnly true
              cowWriteHeader false) w'
          simp only [bind_assoc] at htail ⊢
          exact htail
  | reopen =>
      cases hx
      rw [Act.run, cowReopen, left_onError (by intro v; rfl)]
      simp only [cowOpenHeader_eq, bind_assoc]
  | syncAndClose =>
      cases hx
      rw [Act.run, cowSyncAndClose, left_onError freeMembers_file]
      have hclose : Preserves World.file (do getCowFileExtents; modifyCm fileClose) :=
        (getCowFileExtents_keeps fun _ _ _ => rfl).bind fun _ _ => rfl
      have htail := left_tail hclose w (x := do cowSyncAndFreeSections ps 0 true; cowWriteHeader true)
      simp only [bind_assoc] at htail ⊢
      exact htail
  | syncAndFree =>
      cases hx
      rw [Act.run, cowSyncAndFree, left_onError freeMembers_file]
      have htail := left_tail (y := modifyCm fun cm => { fileClose cm with sects := none }) (fun _ => rfl) w
        (x := do cowSyncAndFreeSections ps 0 false; cowWriteHeader true)
      simp only [bind_assoc] at htail ⊢
      exact htail
  | readMapping | writeMapping | writeCurrent | modifyCacheSize | truncateToIndex => cases hx

theorem truncateToIndex_headed (hh : Headed ps w.file last) (hd : 4096 ≤ w.cm.dataOffset) :
    wp cowTruncateToIndex w (fun _ w' => Headed ps w'.file last) (fun _ w' => Headed ps w'.file last) := by
  simp only [cowTruncateToIndex, wp_bind, wp_modifyCm]
  refine wp_tick ?_ fun _ _ => hh
  rw [wp_modify]
  have hpage : ∀ p, p < 4096 → (w.file.truncate w.cm.dataOffset).bytes p = w.file.bytes p :=
    fun p hp => if_pos (hp.trans_le hd)
  cases last with
  | none => exact Unclean.congr hh hpage
  | some m => exact ⟨⟨hd, fun p hp => (hpage p hp).trans (hh.1.2 p hp)⟩, hh.2⟩

/-- The page of the file is the last header that was written as a whole, after every action. -/
theorem act_headed (a : Act) (h12 : 12 ≤ ps) (h16 : ps ≤ 16) (hwhole : Untorn ps a w) (hsized : Sized ps (.act a))
    (he : a.enabled w = true) (hh : Headed ps w.file last)
    (hl : w.cm.sects.isSome = true → Able ps w.cm ∧ last ≠ none) :
    Headed ps (left (a.run ps w)).file (lastAfter ps a w last) := by
  cases hx : a.beforeHeader ps with
  | some r =>
      obtain ⟨isClean, x⟩ := r
      have hb := before_wp hx h12 h16 hsized he hh hl
      unfold wp at hb
      rw [run_file hx, left_bind, lastAfter, completed, hx]
      dsimp only
      cases hres : x w with
      | ok _ w' =>
          rw [hres] at hb
          refine headed_after ?_ hb.able.toReady
          cases isClean with
          | false =>
              obtain ⟨hf, hr⟩ := hb.opens rfl
              exact header_dirty hf hb.headed hr
          | true => exact (hwhole x w' hx hres).imp_left hb.headed.spares
      | error e w' =>
          rw [hres] at hb
          exact hb
  | none =>
      have hlast : lastAfter ps a w last = last := by
        rw [lastAfter, completed, hx]
        cases a with
        | init => cases hx
        | _ => rfl
      rw [hlast]
      cases a with
      | init | reload | reopen | syncAndClose | syncAndFree => cases hx
      | readMapping pos => exact hh.spares (wp_left ((spares_cowReadMapping.bind fun _ => relates_pure) w))
      | writeMapping pos val => exact hh.spares (wp_left (spares_cowWriteMapping w))
      | writeCurrent block buf => exact hh.spares (wp_left (cowWriteCurrent_spares (hl he).1.toReady))
      | modifyCacheSize cacheSize => exact hh
      | truncateToIndex =>
          have hlive : w.cm.sects.isSome = true := (Bool.and_eq_true_iff.mp he).1
          exact wp_left (P := fun v => Headed ps v.file last) (truncateToIndex_headed hh (hl hlive).1.data)

end ElastioSnap.Cow.Protocol
