import ElastioSnap.Cow.Header
import ElastioSnap.Cow.Mapping

namespace ElastioSnap.Cow.Lifecycle

open Lib.Bytes Lib.Outcome Lib.Flags Manager FileIo Section Cleanup Header

/-- The file is closed even if it cannot be unlinked. -/
def cowFreeMembers : CowM Unit := fun w =>
  if w.cm.filp then
    .ok () { w with
      cm := { w.cm with sects := none, filp := false }
      linked := w.linked && (w.env.fault w.clock).isSome
      clock := w.clock + 1 }
  else .ok () { w with cm := { w.cm with sects := none } }

def fileClose (cm : CowManager) : CowManager := { cm with filp := false }

def cowSyncAndFree (ps : Nat) : CowM Unit :=
  onError
    (do
      cowSyncAndFreeSections ps 0 false
      cowWriteHeader true
      modifyCm fun cm => { fileClose cm with sects := none })
    cowFreeMembers

/-- With no extents found the device keeps those it had. -/
def getCowFileExtents : CowM Unit := fun w =>
  if w.cm.filp then
    match w.env.fault w.clock with
    | some e => .error (.code e) { w with clock := w.clock + 1 }
    | none =>
        let found := w.env.fiemap w.clock
        if found.isEmpty then .ok () { w with clock := w.clock + 1 }
        else if (w.env.fault (w.clock + 1)).isSome then
          .ok () { w with extents := none, clock := w.clock + 2 }
        else .ok () { w with extents := some found, clock := w.clock + 2 }
  else .error .oops w

def cowSyncAndClose (ps : Nat) : CowM Unit :=
  onError
    (do
      cowSyncAndFreeSections ps 0 true
      cowWriteHeader true
      getCowFileExtents
      modifyCm fileClose)
    cowFreeMembers

def fileOpen : CowM Unit := do
  tick
  (if (← get).linked then modifyCm fun cm => { cm with filp := true } else throw (.code (.other 2)))

def fileCreate : CowM Unit := do
  tick
  modify fun w => { w with file := ByteFile.empty, linked := true, cm := { w.cm with filp := true } }

def cowReopen : CowM Unit :=
  onError
    (do
      fileOpen
      let cm := (← get).cm
      cowOpenHeader (hasFlag cm.flags cowIndexOnly) false)
    (modifyCm fileClose)

def cowCalculateAllowedSects (ps cacheSize totalSects : Nat) : Nat :=
  if cacheSize ≤ totalSects * 24 then 0
  else (cacheSize - totalSects * 24) / (cowSectionSize ps * 8)

def allocManager : CowM Unit := fun w =>
  match w.env.fault w.clock with
  | none => .ok () { w with cm := .zero, clock := w.clock + 1 }
  | some _ => .error .oops { w with clock := w.clock + 1 }

def kmallocMax : Nat := 2 ^ 22

/-- A machine addresses fewer than `2 ^ 52` bytes of memory. -/
def vmallocMax : Nat := 2 ^ 52

def allocSects (totalSects : Nat) : CowM Unit := fun w =>
  if w.env.fault w.clock = none ∧ totalSects * 24 ≤ kmallocMax then
    .ok () { w with cm := { w.cm with sects := some fun _ => default }, clock := w.clock + 1 }
  else if w.env.fault (w.clock + 1) = none ∧ totalSects * 24 ≤ vmallocMax then
    .ok () { w with
      cm := { w.cm with
        flags := setFlag w.cm.flags cowVmallocUpper
        sects := some fun _ => default }
      clock := w.clock + 2 }
  else .error (.code .enomem) { w with
    cm := { w.cm with flags := setFlag w.cm.flags cowVmallocUpper }
    clock := w.clock + 2 }

def realFallocate (offset length : Nat) : CowM Unit := do
  tick
  if length = 0 ∨ 2 ^ 63 ≤ offset + length then throw (.code .einval)
  else modify fun w => { w with file := w.file.extend (offset + length) }

def zeroPages (ps offset : Nat) : Nat → Nat → CowM Unit
  | 0, _ => pure ()
  | n + 1, i => do
      fileWrite (offset + pageSize ps * i) (pageSize ps) (fun _ => 0)
      zeroPages ps offset n (i + 1)

def fileAllocate (ps offset length : Nat) : CowM Unit :=
  recover (realFallocate offset length) fun e =>
    if e = .code .eopnotsupp then do
      alloc
      let rest := (pageSize ps - offset % pageSize ps) % pageSize ps
      (if rest ≠ 0 then fileWrite offset rest (fun _ => 0) else pure ())
      zeroPages ps (offset + rest) (numSegments length ps) 0
    else throw e

def sectionTotal (ps : Nat) (elements : UInt64) (sectSize : Nat) : Nat :=
  numSegments elements.toNat (getOrder ps (sectSize * 8) + ps - 3)

/-- What a manager is before its file is read or written. -/
def layout (ps : Nat) (elements : UInt64) (sectSize cacheSize : Nat) (cm : CowManager) : CowManager :=
  let totalSects := sectionTotal ps elements sectSize
  { cm with
    allocatedSects := 0
    sectSize := sectSize
    logSectPages := getOrder ps (sectSize * 8)
    totalSects := totalSects
    allowedSects := cowCalculateAllowedSects ps cacheSize totalSects
    dataOffset := (cowHeaderSize + totalSects * (sectSize * 8)) % 2 ^ 64 }

def cowReload (ps : Nat) (elements : UInt64) (sectSize cacheSize : Nat) (indexOnly : Bool) :
    CowM Unit := do
  allocManager
  onError
    (do
      fileOpen
      modifyCm (layout ps elements sectSize cacheSize)
      cowOpenHeader indexOnly true
      allocSects (sectionTotal ps elements sectSize))
    (modifyCm fun _ => .zero)

def fresh (ps : Nat) (fileMax : UInt64) (uuid : Fin 16 → UInt8) (seqid : UInt64) (cm : CowManager) :
    CowManager :=
  { cm with
    version := cowVersionChangedBlocks
    nrChangedBlocks := 0
    flags := 0
    fileMax := fileMax
    seqid := seqid
    currPos := UInt64.ofNat (cm.dataOffset / cowBlockSize ps)
    uuid := uuid }

def cowInit (ps : Nat) (elements : UInt64) (sectSize cacheSize : Nat) (fileMax : UInt64)
    (uuid : Fin 16 → UInt8) (seqid : UInt64) : CowM Unit := do
  allocManager
  onError
    (do
      fileCreate
      modifyCm fun cm => fresh ps fileMax uuid seqid (layout ps elements sectSize cacheSize cm)
      allocSects (sectionTotal ps elements sectSize)
      fileAllocate ps 0 fileMax.toNat
      cowWriteHeader false)
    (modify fun w => { w with cm := .zero, linked := w.linked && !w.cm.filp })

def cowTruncateToIndex : CowM Unit := do
  modifyCm fun cm => { cm with flags := setFlag cm.flags cowIndexOnly }
  tick
  modify fun w => { w with file := w.file.truncate w.cm.dataOffset }

def cowModifyCacheSize (ps cacheSize : Nat) : CowM Unit :=
  modifyCm fun cm => { cm with allowedSects := cowCalculateAllowedSects ps cacheSize cm.totalSects }

end ElastioSnap.Cow.Lifecycle
