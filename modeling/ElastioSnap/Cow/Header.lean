import ElastioSnap.Cow.Cleanup

namespace ElastioSnap.Cow.Header

open Lib.Bytes Lib.Outcome Lib.Flags Manager FileIo Section

def cowMagic : UInt32 := 4776

structure CowHeader where
  magic : UInt32
  flags : UInt32
  fpos : UInt64
  fsize : UInt64
  seqid : UInt64
  uuid : Fin 16 → UInt8
  version : UInt64
  nrChangedBlocks : UInt64

/-- The header as it is laid out in the first page of the file. -/
def CowHeader.encode (h : CowHeader) (p : Nat) : UInt8 :=
  if p < 4 then halfByte h.magic p
  else if p < 8 then halfByte h.flags (p - 4)
  else if p < 16 then wordByte h.fpos (p - 8)
  else if p < 24 then wordByte h.fsize (p - 16)
  else if p < 32 then wordByte h.seqid (p - 24)
  else if hp : p - 32 < 16 then h.uuid ⟨p - 32, hp⟩
  else if p < 56 then wordByte h.version (p - 48)
  else if p < 64 then wordByte h.nrChangedBlocks (p - 56)
  else 0

def decode (b : Nat → UInt8) : CowHeader where
  magic := byteHalf b
  flags := byteHalf (fun k => b (4 + k))
  fpos := wordAt b 8
  fsize := wordAt b 16
  seqid := wordAt b 24
  uuid := fun k => b (32 + k)
  version := wordAt b 48
  nrChangedBlocks := wordAt b 56

theorem decode_congr {b b' : Nat → UInt8} (h : ∀ p, p < 4096 → b p = b' p) : decode b = decode b' := by
  have hword : ∀ off, off ≤ 56 → wordAt b off = wordAt b' off :=
    fun off _ => wordAt_congr (fun p _ _ => h p (by omega))
  simp only [decode, hword 8 (by omega), hword 16 (by omega), hword 24 (by omega),
    hword 48 (by omega), hword 56 (by omega)]
  congr 1
  · exact byteHalf_congr (fun k _ => h k (by omega))
  · exact byteHalf_congr (fun k _ => h (4 + k) (by omega))
  · funext k
    exact h (32 + k) (by omega)

theorem decode_encode (h : CowHeader) : decode h.encode = h := by
  cases h with
  | mk magic flags fpos fsize seqid uuid version nrChangedBlocks =>
      simp only [decode, CowHeader.mk.injEq]
      refine ⟨?_, ?_, ?_, ?_, ?_, ?_, ?_, ?_⟩
      · rw [← byteHalf_halfByte magic]
        refine byteHalf_congr (fun k hk => ?_)
        simp only [CowHeader.encode, byteHalf_halfByte]
        rw [if_pos (by omega)]
      · rw [← byteHalf_halfByte flags]
        refine byteHalf_congr (fun k hk => ?_)
        simp only [CowHeader.encode, byteHalf_halfByte]
        rw [if_neg (by omega), if_pos (by omega), Nat.add_sub_cancel_left]
      · rw [← byteWord_wordByte fpos]
        refine byteWord_congr (fun k hk => ?_)
        simp only [CowHeader.encode, byteWord_wordByte]
        rw [if_neg (by omega), if_neg (by omega), if_pos (by omega), Nat.add_sub_cancel_left]
      · rw [← byteWord_wordByte fsize]
        refine byteWord_congr (fun k hk => ?_)
        simp only [CowHeader.encode, byteWord_wordByte]
        rw [if_neg (by omega), if_neg (by omega), if_neg (by omega), if_pos (by omega),
          Nat.add_sub_cancel_left]
      · rw [← byteWord_wordByte seqid]
        refine byteWord_congr (fun k hk => ?_)
        simp only [CowHeader.encode, byteWord_wordByte]
        rw [if_neg (by omega), if_neg (by omega), if_neg (by omega), if_neg (by omega),
          if_pos (by omega), Nat.add_sub_cancel_left]
      · funext k
        simp only [CowHeader.encode]
        rw [if_neg (by omega), if_neg (by omega), if_neg (by omega), if_neg (by omega),
          if_neg (by omega), dif_pos (by omega)]
        congr 1
        exact Fin.ext (Nat.add_sub_cancel_left 32 k)
      · rw [← byteWord_wordByte version]
        refine byteWord_congr (fun k hk => ?_)
        simp only [CowHeader.encode, byteWord_wordByte]
        rw [if_neg (by omega), if_neg (by omega), if_neg (by omega), if_neg (by omega),
          if_neg (by omega), dif_neg (by omega), if_pos (by omega), Nat.add_sub_cancel_left]
      · rw [← byteWord_wordByte nrChangedBlocks]
        refine byteWord_congr (fun k hk => ?_)
        simp only [CowHeader.encode, byteWord_wordByte]
        rw [if_neg (by omega), if_neg (by omega), if_neg (by omega), if_neg (by omega),
          if_neg (by omega), dif_neg (by omega), if_neg (by omega), if_pos (by omega),
          Nat.add_sub_cancel_left]

def headerOf (cm : CowManager) : CowHeader :=
  ⟨cowMagic, cm.flags, cm.currPos, cm.fileMax, cm.seqid, cm.uuid, cm.version, cm.nrChangedBlocks⟩

def markClean (isClean : Bool) (flags : UInt32) : UInt32 :=
  if isClean then setFlag flags cowClean else clearFlag flags cowClean

def cowWriteHeader (isClean : Bool) : CowM Unit := do
  alloc
  modifyCm fun cm => { cm with flags := markClean isClean cm.flags }
  let cm := (← get).cm
  fileWrite 0 cowHeaderSize (headerOf cm).encode

def restore (ch : CowHeader) (resetVmalloc : Bool) (cm : CowManager) : CowManager :=
  { cm with
    flags := if resetVmalloc then clearFlag ch.flags cowVmallocUpper else ch.flags
    currPos := ch.fpos
    fileMax := ch.fsize
    seqid := ch.seqid
    uuid := ch.uuid
    version := ch.version
    nrChangedBlocks := ch.nrChangedBlocks }

def cowOpenHeader (indexOnly resetVmalloc : Bool) : CowM Unit := do
  alloc
  let ch := decode (← fileRead 0 cowHeaderSize)
  if ch.magic ≠ cowMagic then throw (.code .einval)
  else if hasFlag ch.flags cowClean = false then throw (.code .einval)
  else if hasFlag ch.flags cowIndexOnly ≠ indexOnly then throw (.code .einval)
  else do
    modifyCm (restore ch resetVmalloc)
    cowWriteHeader false

/-- A header left by a close, in the mode asked for. -/
structure Opens (h : CowHeader) (indexOnly : Bool) : Prop where
  magic : h.magic = cowMagic
  clean : hasFlag h.flags cowClean = true
  mode : hasFlag h.flags cowIndexOnly = indexOnly

def diskHeader (w : World) : CowHeader := decode w.file.bytes

variable {w : World}

theorem cowWriteHeader_wp (isClean : Bool) (hsize : w.cm.filp = true ∨ 4096 ≤ w.file.size) :
    wp (cowWriteHeader isClean) w
      (fun _ w' => w' = { w with
          cm := { w.cm with flags := markClean isClean w.cm.flags }
          file := w'.file, clock := w'.clock } ∧
        Wrote w.file w'.file 0 4096 ∧ 4096 ≤ w'.file.size ∧ diskHeader w' = headerOf w'.cm)
      (fun _ w' => Excused w ∧ w' = { w with
          cm := { w.cm with flags := w'.cm.flags }
          file := w'.file, clock := w'.clock } ∧
        (w'.cm.flags = w.cm.flags ∨ w'.cm.flags = markClean isClean w.cm.flags) ∧
        Wrote w.file w'.file 0 4096) := by
  simp only [cowWriteHeader, wp_bind]
  apply wp_alloc
  · rw [wp_modifyCm, wp_get]
    apply wp_mono (fileWrite_wp 0 4096 _ (fun _ => ⟨by simp, by omega⟩))
    · rintro _ w' ⟨hw, hwrote, hfilp, hbuf⟩
      refine ⟨by rw [hw], hwrote, ?_, ?_⟩
      · rcases hsize with hf | hs
        · rw [(hfilp hf).2]
          exact (end_le_write _ _ (by omega)).trans' (by omega)
        · exact hs.trans hwrote.size
      · rw [diskHeader, show w'.cm = { w.cm with flags := markClean isClean w.cm.flags } by rw [hw],
          ← decode_encode (headerOf _)]
        apply decode_congr
        intro p hp
        have h := hbuf (hsize.imp_right (by simp)) p hp
        rwa [Nat.zero_add] at h
    · rintro e w' ⟨he, hw, hwrote⟩
      exact ⟨he (by omega), by rw [hw], .inr (by rw [hw]), hwrote⟩
  · exact fun e he => ⟨.of_fault he, rfl, .inl rfl, .refl _ _ _⟩

/-- A header is accepted if it was left by a close in the same mode, and then it is
dirty before the manager does anything else. -/
theorem cowOpenHeader_wp (indexOnly resetVmalloc : Bool) (hf : w.cm.filp = true)
    (hsize : 4096 ≤ w.file.size) :
    wp (cowOpenHeader indexOnly resetVmalloc) w
      (fun _ w' => Opens (diskHeader w) indexOnly ∧ w' = { w with
          cm := { restore (diskHeader w) resetVmalloc w.cm with
            flags := markClean false (restore (diskHeader w) resetVmalloc w.cm).flags }
          file := w'.file, clock := w'.clock } ∧
        Wrote w.file w'.file 0 4096 ∧ diskHeader w' = headerOf w'.cm)
      (fun _ w' => ¬ w.env.Faultless ∨ (¬ Opens (diskHeader w) indexOnly ∧ w' = { w with
        clock := w'.clock })) := by
  simp only [cowOpenHeader, wp_bind]
  apply wp_alloc
  · apply wp_mono (fileRead_wp 0 4096 (by simp) (by omega) (fun _ => by simpa using hsize))
    · rintro buf w' ⟨hw, hbuf⟩
      have hch : decode buf = diskHeader w := by
        apply decode_congr
        intro p hp
        simpa using hbuf p hp
      simp only [hch, wp_ite, wp_throw, wp_bind, wp_modifyCm]
      split
      next hmagic => exact .inr ⟨fun h => hmagic h.magic, by rw [hw]⟩
      next hmagic =>
        split
        next hclean => exact .inr ⟨fun h => by simp [h.clean] at hclean, by rw [hw]⟩
        next hclean =>
          split
          next hmode => exact .inr ⟨fun h => hmode h.mode, by rw [hw]⟩
          next hmode =>
            rw [hw]
            apply wp_mono (cowWriteHeader_wp false (.inl (by exact hf)))
            · rintro _ w'' ⟨hw'', hwrote, -, hdisk⟩
              refine ⟨⟨not_not.mp hmagic, by simpa using hclean, not_not.mp hmode⟩, ?_, hwrote, hdisk⟩
              rw [hw'']
            · rintro e w'' ⟨he, -⟩
              exact .inl (he hf)
    · rintro e w' ⟨he, -⟩
      exact .inl (he hf)
  · exact fun e he => .inl (fun h => by simp [h w.clock] at he)

end ElastioSnap.Cow.Header
