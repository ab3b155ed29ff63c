import ElastioSnap.Lib.Bytes
import ElastioSnap.Lib.Flags
import ElastioSnap.Lib.Outcome
import Mathlib.Data.Nat.Log

namespace ElastioSnap.Cow.Manager

open Lib.Bytes

/-- The page size is `2 ^ ps`. A block of the COW file is one page. -/
def pageSize (ps : Nat) : Nat := 2 ^ ps

def cowBlockSize (ps : Nat) : Nat := 2 ^ ps

def cowSectionSize (ps : Nat) : Nat := pageSize ps

abbrev sectorSize : Nat := 512

def sectorsPerBlock (ps : Nat) : Nat := cowBlockSize ps / sectorSize

abbrev cowHeaderSize : Nat := 4096

@[simp] theorem pageSize_four_kib : pageSize 12 = 4096 := rfl

@[simp] theorem cowBlockSize_four_kib : cowBlockSize 12 = 4096 := rfl

@[simp] theorem cowSectionSize_four_kib : cowSectionSize 12 = 4096 := rfl

@[simp] theorem sectorsPerBlock_four_kib : sectorsPerBlock 12 = 8 := rfl

def cowClean : Fin 32 := 0

def cowIndexOnly : Fin 32 := 1

def cowVmallocUpper : Fin 32 := 2

def cowVersionChangedBlocks : UInt64 := 1

/-- Division of an unsigned 64-bit integer, rounded up after a sum that may wrap. -/
def numSegments (x logSize : Nat) : Nat := (x + 2 ^ logSize - 1) % 2 ^ 64 / 2 ^ logSize

/-- Log of the number of pages that hold `size` bytes. -/
def getOrder (ps size : Nat) : Nat := Nat.clog 2 ((size + pageSize ps - 1) / pageSize ps)

structure CowSection where
  hasData : Bool
  usage : Nat
  mappings : Option (Nat → UInt64)

instance : Inhabited CowSection := ⟨⟨false, 0, none⟩⟩

/-- The entry of a section at offset `j`, which is `disk` in the section's image on disk. -/
def CowSection.entry (s : CowSection) (j : Nat) (disk : UInt64) : UInt64 :=
  match s.mappings with
  | some m => m j
  | none => if s.hasData then disk else 0

structure CowManager where
  filp : Bool
  flags : UInt32
  currPos : UInt64
  dataOffset : Nat
  fileMax : UInt64
  seqid : UInt64
  version : UInt64
  nrChangedBlocks : UInt64
  uuid : Fin 16 → UInt8
  logSectPages : Nat
  sectSize : Nat
  allocatedSects : Nat
  totalSects : Nat
  allowedSects : Nat
  sects : Option (Nat → CowSection)

def CowManager.zero : CowManager :=
  ⟨false, 0, 0, 0, 0, 0, 0, 0, fun _ => 0, 0, 0, 0, 0, 0, none⟩

structure Extent where
  logical : Nat
  physical : Nat
  length : Nat
  deriving DecidableEq

inductive Errno
  | enomem
  | eio
  | efault
  | einval
  | efbig
  | eopnotsupp
  | other (n : Nat)
  deriving DecidableEq

/-- A function of the manager returns an error code or dereferences a null pointer. -/
inductive Err
  | code (e : Errno)
  | oops
  deriving DecidableEq

/-- The answers of the allocator and of the file system to the calls made to them, by the
number of the call: whether it fails, how many bytes a failing transfer had moved, what an
allocation that is not zeroed contains, which extents the file has. -/
structure Env where
  fault : Nat → Option Errno
  moved : Nat → Nat
  junk : Nat → Nat → UInt64
  fiemap : Nat → List Extent

/-- The extents are null where there was no memory to keep them. -/
structure World where
  cm : CowManager
  file : ByteFile
  linked : Bool
  extents : Option (List Extent)
  env : Env
  clock : Nat

abbrev CowM := EStateM Err World

/-- No call to the allocator or to the file system ever fails. -/
def Env.Faultless (env : Env) : Prop := ∀ n, env.fault n = none

def modifyCm (f : CowManager → CowManager) : CowM Unit := modify fun w => { w with cm := f w.cm }

/-- One call that may fail. -/
def tick : CowM Unit := fun w =>
  match w.env.fault w.clock with
  | none => .ok () { w with clock := w.clock + 1 }
  | some e => .error (.code e) { w with clock := w.clock + 1 }

/-- An allocation made on the way, which is null where it fails. -/
def alloc : CowM Unit := fun w =>
  match w.env.fault w.clock with
  | none => .ok () { w with clock := w.clock + 1 }
  | some _ => .error (.code .enomem) { w with clock := w.clock + 1 }

/-- The section at an index; a null array has none. -/
def CowManager.sect (cm : CowManager) (i : Nat) : CowSection := (cm.sects.map (fun f => f i)).getD default

def CowManager.putSect (cm : CowManager) (i : Nat) (x : CowSection) : CowManager :=
  { cm with sects := cm.sects.map (fun f => Function.update f i x) }

def getSect (i : Nat) : CowM CowSection := fun w =>
  if w.cm.sects.isSome then .ok (w.cm.sect i) w else .error .oops w

def setSect (i : Nat) (x : CowSection) : CowM Unit := fun w =>
  if w.cm.sects.isSome then .ok () { w with cm := w.cm.putSect i x } else .error .oops w

theorem sect_putSect {cm : CowManager} (h : cm.sects.isSome) (i j : Nat) (x : CowSection) :
    (cm.putSect i x).sect j = if j = i then x else cm.sect j := by
  obtain ⟨f, hf⟩ := Option.isSome_iff_exists.mp h
  simp only [CowManager.sect, CowManager.putSect, hf, Option.map_some, Option.getD_some,
    Function.update_apply]

theorem putSect_putSect (cm : CowManager) (i : Nat) (x y : CowSection) :
    (cm.putSect i x).putSect i y = cm.putSect i y := by
  simp only [CowManager.putSect, Option.map_map, Function.comp_def, Function.update_idem]

@[simp] theorem isSome_putSect (cm : CowManager) (i : Nat) (x : CowSection) :
    (cm.putSect i x).sects.isSome = cm.sects.isSome := by
  simp [CowManager.putSect]

open Lib.Outcome

variable {w : World} {E : Err → World → Prop}

theorem wp_modifyCm {f : CowManager → CowManager} {Q : Unit → World → Prop} :
    wp (modifyCm f) w Q E ↔ Q () { w with cm := f w.cm } := Iff.rfl

theorem wp_tick {Q : Unit → World → Prop} (hok : Q () { w with clock := w.clock + 1 })
    (herr : ∀ e, w.env.fault w.clock = some e → E (.code e) { w with clock := w.clock + 1 }) :
    wp tick w Q E := by
  unfold wp tick
  cases h : w.env.fault w.clock with
  | none => exact hok
  | some e => exact herr e h

theorem wp_alloc {Q : Unit → World → Prop} (hok : Q () { w with clock := w.clock + 1 })
    (herr : ∀ e, w.env.fault w.clock = some e →
      E (.code .enomem) { w with clock := w.clock + 1 }) : wp alloc w Q E := by
  unfold wp alloc
  cases h : w.env.fault w.clock with
  | none => exact hok
  | some e => exact herr e h

theorem wp_getSect {Q : CowSection → World → Prop} {i : Nat} (h : w.cm.sects.isSome) :
    wp (getSect i) w Q E ↔ Q (w.cm.sect i) w := by
  simp only [wp, getSect, h, if_true]

theorem wp_setSect {Q : Unit → World → Prop} {i : Nat} {x : CowSection} (h : w.cm.sects.isSome) :
    wp (setSect i x) w Q E ↔ Q () { w with cm := w.cm.putSect i x } := by
  simp only [wp, setSect, h, if_true]

end ElastioSnap.Cow.Manager
