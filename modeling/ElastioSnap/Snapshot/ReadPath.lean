import ElastioSnap.Cow.Manager
import ElastioSnap.Snapshot.CowThread

namespace ElastioSnap.Snapshot.ReadPath

open Lib.Outcome Tracking CowThread
open Cow.Manager (Err sectorSize)

def cowBlockSize : Nat := 4096

/-- A segment of a bio: where its bytes are in its page, and how many. -/
structure Segment where
  offset : Nat
  len : Nat
  pos : 0 < len
  deriving DecidableEq

def total (segs : List Segment) : Nat :=
  (segs.map (·.len)).sum

/-- A read bio with its iterator: the segment it stands in, the bytes of it that are consumed, and the
bytes that are left. -/
structure ReadBio where
  sector : Nat
  size : Nat
  idx : Nat
  bvecDone : Nat
  segs : List Segment
  inside : size + bvecDone ≤ total (segs.drop idx)
  current : ∀ s, segs[idx]? = some s → bvecDone < s.len

/-- A byte in the page of a segment. -/
structure Dest where
  seg : Nat
  offset : Nat
  deriving DecidableEq

def Dest.add (p : Dest) (n : Nat) : Dest :=
  { p with offset := p.offset + n }

/-- What a loop over segments sees of one of them. -/
structure Part where
  dest : Dest
  len : Nat
  deriving DecidableEq

/-- `bio_for_each_segment`, from a segment on. -/
def iterParts : Nat → List Segment → Nat → Nat → List Part
  | _, [], _, _ => []
  | i, s :: rest, bvecDone, size =>
      if size = 0 then []
      else
        ⟨⟨i, s.offset + bvecDone⟩, min size (s.len - bvecDone)⟩ ::
          iterParts (i + 1) rest 0 (size - min size (s.len - bvecDone))

def forEachSegment (bio : ReadBio) : List Part :=
  iterParts bio.idx (bio.segs.drop bio.idx) bio.bvecDone bio.size

/-- `bio_for_each_segment_all`, from a segment on. -/
def forEachSegmentAll : Nat → List Segment → List Part
  | _, [] => []
  | i, s :: rest => ⟨⟨i, s.offset⟩, s.len⟩ :: forEachSegmentAll (i + 1) rest

/-- A round of the loop inside a segment: some bytes of one block, and where they belong. -/
structure Round where
  block : Nat
  blockOff : Nat
  dest : Dest
  len : Nat
  deriving DecidableEq

/-- The inner loop of `snap_read_bio_get_mode` over the bytes left of a segment, with the value of
`curr_end_byte` at its end. -/
def modeRounds (currEndByte : Nat) (dest : Dest) (left : Nat) : List Round × Nat :=
  if 0 < left then
    let n := min (cowBlockSize - currEndByte % cowBlockSize) left
    let r := modeRounds (currEndByte + n) (dest.add n) (left - n)
    (⟨currEndByte / cowBlockSize, currEndByte % cowBlockSize, dest, n⟩ :: r.1, r.2)
  else ([], currEndByte)
termination_by left
decreasing_by
  have : currEndByte % cowBlockSize < cowBlockSize := Nat.mod_lt _ (by decide)
  omega

def bioModeRounds : Nat → List Part → List Round
  | _, [] => []
  | currEndByte, p :: ps =>
      let r := modeRounds currEndByte p.dest p.len
      r.1 ++ bioModeRounds r.2 ps

/-- The inner loop of `snap_handle_read_bio` over the bytes left of a segment, with the value of
`cur_sect` at its end. -/
def overlayRounds (curSect : Nat) (dest : Dest) (left : Nat) : List Round × Nat :=
  if 0 < left then
    let blockOff := curSect * sectorSize % cowBlockSize
    let bytesToCopy := min left (cowBlockSize - blockOff)
    let r := overlayRounds (curSect + bytesToCopy / sectorSize) (dest.add bytesToCopy) (left - bytesToCopy)
    (⟨curSect * sectorSize / cowBlockSize, blockOff, dest, bytesToCopy⟩ :: r.1, r.2)
  else ([], curSect)
termination_by left
decreasing_by
  have : curSect * sectorSize % cowBlockSize < cowBlockSize := Nat.mod_lt _ (by decide)
  omega

def bioOverlayRounds : Nat → List Part → List Round
  | _, [] => []
  | curSect, p :: ps =>
      let r := overlayRounds curSect p.dest p.len
      r.1 ++ bioOverlayRounds r.2 ps

/-- The content of the pages, by segment and offset. -/
abbrev Pages (β : Type) := Nat → Nat → β

variable {β : Type}

def memcpy (dest : Dest) (len : Nat) (src : Nat → β) (pages : Pages β) : Pages β :=
  fun i o => if i = dest.seg ∧ dest.offset ≤ o ∧ o < dest.offset + len then src (o - dest.offset) else pages i o

/-- The block mappings, the bytes of the COW file and those of the base device. The n-th call that can
fail does so with `fault n`. -/
structure Store (β : Type) where
  mapping : Nat → Nat
  cowFile : Nat → β
  base : Nat → β
  fault : Nat → Option Err

/-- `copies` are the offsets and lengths of the `cow_read_data` calls. -/
structure ReadState (β : Type) where
  clock : Nat
  pages : Pages β
  copies : List (Nat × Nat)

abbrev ReadM (β α : Type) := EStateM Err (ReadState β) α

def call (store : Store β) : ReadM β Unit := fun s =>
  match store.fault s.clock with
  | some e => .error e { s with clock := s.clock + 1 }
  | none => .ok () { s with clock := s.clock + 1 }

def kzalloc (store : Store β) : ReadM β Bool := fun s =>
  .ok (store.fault s.clock).isNone { s with clock := s.clock + 1 }

def cowReadMapping (store : Store β) (block : Nat) : ReadM β Nat := do
  call store
  pure (store.mapping block)

def cowReadData (store : Store β) (dest : Dest) (blockPos blockOff len : Nat) : ReadM β Unit := do
  modify fun s => { s with copies := s.copies ++ [(blockOff, len)] }
  let readBuf ← kzalloc store
  if blockOff ≥ cowBlockSize then throw (.code .einval)
  else if readBuf = false then throw .oops
  else do
    call store
    modify fun s => { s with
      pages := memcpy dest len (fun p => store.cowFile (blockPos * cowBlockSize + (blockOff + p))) s.pages }

/-- The loop of `snap_read_bio_get_mode` over its rounds. -/
def getMode (store : Store β) : Mode → List Round → ReadM β Mode
  | startMode, [] => pure startMode
  | startMode, r :: rs => do
      let blockMapping ← cowReadMapping store r.block
      match startMode, blockMapping != 0 with
      | .none, true => getMode store .cowFile rs
      | .none, false => getMode store .baseDevice rs
      | .cowFile, false => pure .mixed
      | .baseDevice, true => pure .mixed
      | m, _ => getMode store m rs

def snapReadBioGetMode (store : Store β) (bio : ReadBio) : ReadM β Mode :=
  getMode store .none (bioModeRounds (bio.sector * sectorSize) (forEachSegment bio))

/-- The bytes from some place on the base device on, one segment after the other. -/
def readParts (base : Nat → β) : Nat → List Part → Pages β → Pages β
  | _, [], pages => pages
  | byte, p :: ps, pages => readParts base (byte + p.len) ps (memcpy p.dest p.len (fun n => base (byte + n)) pages)

def submitBioWait (store : Store β) (bio : ReadBio) : ReadM β Unit := do
  call store
  modify fun s => { s with pages := readParts store.base (bio.sector * sectorSize) (forEachSegment bio) s.pages }

/-- The loop over the rounds that overlays the live data with that of the COW file. -/
def overlayCow (store : Store β) : List Round → ReadM β Unit
  | [] => pure ()
  | r :: rs => do
      let blockMapping ← cowReadMapping store r.block
      (if blockMapping ≠ 0 then cowReadData store r.dest blockMapping r.blockOff r.len else pure ())
      overlayCow store rs

/-- What `snap_handle_read_bio` does in a mode. -/
def readWith (store : Store β) (bio : ReadBio) (mode : Mode) : ReadM β Unit := do
  (if mode ≠ .cowFile then submitBioWait store bio else pure ())
  (if mode ≠ .baseDevice then overlayCow store (bioOverlayRounds bio.sector (forEachSegmentAll 0 bio.segs)) else pure ())

def snapHandleReadBio (store : Store β) (bio : ReadBio) : ReadM β Unit := do
  let mode ← snapReadBioGetMode store bio
  readWith store bio mode

end ElastioSnap.Snapshot.ReadPath
