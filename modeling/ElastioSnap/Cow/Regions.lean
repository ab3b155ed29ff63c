import ElastioSnap.Cow.Index
import ElastioSnap.Lib.Extend
import Mathlib.Tactic.Ring

namespace ElastioSnap.Cow.Regions

open Lib.Bytes Lib.Outcome Lib.Extend Lib.Flags Manager FileIo Section Cleanup Header Mapping Lifecycle Data Index

/-- A part of the world that the transfers, the mappings and the headers leave alone. -/
class Lasting {γ : Type} (g : World → γ) : Prop where
  clock : ∀ w n, g { w with clock := n } = g w
  file : ∀ w f, g { w with file := f } = g w
  sections : ∀ w s n, s.isSome = w.cm.sects.isSome →
    g { w with cm := { w.cm with sects := s, allocatedSects := n } } = g w
  changed : ∀ w n, g { w with cm := { w.cm with nrChangedBlocks := n } } = g w
  marked : ∀ w b, g { w with cm := { w.cm with flags := markClean b w.cm.flags } } = g w

def fixedPart (w : World) : Bool × UInt64 × Nat × Nat × Nat × Bool × Env × Option (List Extent) :=
  (w.cm.filp, w.cm.currPos, w.cm.dataOffset, w.cm.sectSize, w.cm.totalSects, w.linked, w.env, w.extents)

instance : Lasting fixedPart := ⟨fun _ _ => rfl, fun _ _ => rfl, fun _ _ _ _ => rfl, fun _ _ => rfl, fun _ _ => rfl⟩

variable {ps i : Nat} {α : Type}

theorem preserves_modifyCm {γ : Type} {g : World → γ} {f : CowManager → CowManager}
    (h : ∀ w, g { w with cm := f w.cm } = g w) : Preserves g (modifyCm f) := h

section

variable {γ : Type} {g : World → γ}

theorem preserves_getSect : Preserves g (getSect i) := by
  intro w
  unfold wp getSect
  cases w.cm.sects.isSome <;> rfl

theorem preserves_cowExtents : Preserves g cowExtents :=
  preserves_get.bind fun w => by
    cases w.extents with
    | none => exact preserves_throw
    | some exts => exact preserves_pure

variable [Lasting g]

theorem preserves_tick : Preserves g tick :=
  fun w => wp_tick (Lasting.clock w _) fun _ _ => Lasting.clock w _

theorem preserves_alloc : Preserves g alloc :=
  fun w => wp_alloc (Lasting.clock w _) fun _ _ => Lasting.clock w _

theorem preserves_setSect {x : CowSection} : Preserves g (setSect i x) := by
  intro w
  unfold wp setSect
  cases w.cm.sects.isSome with
  | false => rfl
  | true => exact Lasting.sections w _ w.cm.allocatedSects (Option.isSome_map ..)

theorem preserves_fileWriteBlock {block : Nat → UInt8} {fuel left offset done : Nat} :
    Preserves g (fileWriteBlock block fuel left offset done) := by
  induction fuel generalizing left offset done with
  | zero => exact preserves_pure
  | succ fuel ih =>
      rw [fileWriteBlock]
      refine preserves_cowExtents.bind fun exts => ?_
      split
      · exact preserves_throw
      · refine preserves_alloc.bind fun _ => preserves_alloc.bind fun _ => preserves_tick.bind fun _ =>
          (preserves_modify ?_).bind fun _ => preserves_pure.ite ih
        exact fun w => Lasting.file w _

theorem preserves_fileReadBlock {buf : Nat → UInt8} {fuel left offset done : Nat} :
    Preserves g (fileReadBlock buf fuel left offset done) := by
  induction fuel generalizing buf left offset done with
  | zero => exact preserves_pure
  | succ fuel ih =>
      rw [fileReadBlock]
      refine preserves_cowExtents.bind fun exts => ?_
      split
      · exact preserves_throw
      · exact preserves_alloc.bind fun _ => preserves_alloc.bind fun _ => preserves_tick.bind fun _ =>
          preserves_get.bind fun _ => preserves_pure.ite ih

theorem preserves_vfsWrite {off len : Nat} {buf : Nat → UInt8} : Preserves g (vfsWrite off len buf) := by
  intro w
  unfold wp vfsWrite
  by_cases h : 2 ^ 63 ≤ off + len
  · rw [if_pos h]
  · rw [if_neg h]
    have hclock := Lasting.clock (g := g) w (w.clock + 1)
    cases w.env.fault w.clock <;> exact (Lasting.file _ _).trans hclock

theorem preserves_fileWrite {off len : Nat} {buf : Nat → UInt8} : Preserves g (fileWrite off len buf) :=
  preserves_get.bind fun _ => preserves_vfsWrite.ite preserves_fileWriteBlock

theorem preserves_fileRead {off len : Nat} : Preserves g (fileRead off len) :=
  preserves_get.bind fun _ =>
    (preserves_tick.bind fun _ => preserves_get.bind fun _ => preserves_pure.ite preserves_throw).ite
      preserves_fileReadBlock

theorem preserves_cowFreeSection : Preserves g (cowFreeSection i) :=
  preserves_getSect.bind fun _ => preserves_setSect.bind fun _ =>
    preserves_modifyCm fun w => Lasting.sections w w.cm.sects _ rfl

theorem preserves_getPages {zero : Bool} : Preserves g (getPages zero) := by
  intro w
  unfold wp getPages
  cases w.env.fault w.clock <;> exact Lasting.clock w _

theorem preserves_cowAllocSection {zero : Bool} : Preserves g (cowAllocSection i zero) :=
  preserves_getPages.bind fun _ => preserves_getSect.bind fun _ => preserves_setSect.bind fun _ =>
    preserves_throw.ite (preserves_setSect.bind fun _ => preserves_modifyCm fun w => Lasting.sections w w.cm.sects _ rfl)

theorem preserves_readChunks {n k : Nat} : Preserves g (readChunks ps i n k) := by
  induction n generalizing k with
  | zero => exact preserves_pure
  | succ n ih =>
      exact preserves_get.bind fun _ => preserves_fileRead.bind fun _ => preserves_getSect.bind fun _ =>
        preserves_setSect.bind fun _ => ih

theorem preserves_cowLoadSection : Preserves g (cowLoadSection ps i) :=
  (preserves_cowAllocSection.bind fun _ => preserves_readChunks).onError
    (preserves_getSect.bind fun _ => preserves_cowFreeSection.ite preserves_pure)

theorem preserves_writeChunks {n k : Nat} : Preserves g (writeChunks ps i n k) := by
  induction n generalizing k with
  | zero => exact preserves_pure
  | succ n ih =>
      refine preserves_get.bind fun _ => preserves_getSect.bind fun s => ?_
      cases s.mappings with
      | none => exact preserves_throw
      | some m => exact preserves_fileWrite.bind fun _ => ih

theorem preserves_syncSection {thresh : Nat} : Preserves g (syncSection ps thresh i) :=
  preserves_getSect.bind fun _ =>
    ((preserves_writeChunks.bind fun _ => preserves_cowFreeSection).ite preserves_pure).bind fun _ =>
      preserves_getSect.bind fun _ => preserves_setSect

theorem preserves_syncSections {thresh n : Nat} : Preserves g (syncSections ps thresh n i) := by
  induction n generalizing i with
  | zero => exact preserves_pure
  | succ n ih =>
      exact preserves_get.bind fun _ => preserves_pure.ite (preserves_syncSection.bind fun _ => ih)

theorem preserves_zeroFillAhead : Preserves g (cowFileExtentsZeroFillAhead ps) :=
  preserves_get.bind fun _ =>
    (preserves_get.bind fun _ => preserves_alloc.bind fun _ => preserves_pure).bind fun _ => preserves_fileWrite

theorem preserves_cowSyncAndFreeSections {thresh : Nat} {fillAhead : Bool} :
    Preserves g (cowSyncAndFreeSections ps thresh fillAhead) :=
  preserves_get.bind fun _ => preserves_syncSections.bind fun _ =>
    (preserves_zeroFillAhead.onError preserves_throw).ite preserves_pure

theorem preserves_cleanupIfFull : Preserves g (cleanupIfFull ps) :=
  preserves_get.bind fun _ =>
    (preserves_get.bind fun _ => preserves_throw.ite preserves_cowSyncAndFreeSections).ite preserves_pure

theorem preserves_bumpUsage : Preserves g (bumpUsage i) :=
  preserves_getSect.bind fun _ => preserves_setSect

theorem preserves_cowReadMapping {pos : UInt64} : Preserves g (cowReadMapping ps pos) := by
  refine preserves_get.bind fun _ => preserves_bumpUsage.bind fun _ => preserves_getSect.bind fun _ =>
    preserves_pure.ite ((preserves_cowLoadSection.ite preserves_pure).bind fun _ => preserves_getSect.bind fun s => ?_)
  cases s.mappings with
  | none => exact preserves_throw
  | some m => exact preserves_cleanupIfFull.bind fun _ => preserves_pure

theorem lasting_countChanged {old : UInt64} {w : World} : g { w with cm := countChanged old w.cm } = g w := by
  unfold countChanged
  split
  · exact Lasting.changed w _
  · rfl

theorem preserves_cowWriteMapping {pos val : UInt64} : Preserves g (cowWriteMapping ps pos val) := by
  refine preserves_get.bind fun _ => preserves_bumpUsage.bind fun _ => preserves_getSect.bind fun _ =>
    ((preserves_cowLoadSection.ite preserves_cowAllocSection).ite preserves_pure).bind fun _ =>
      preserves_getSect.bind fun s => ?_
  cases s.mappings with
  | none => exact preserves_throw
  | some m => exact (preserves_modifyCm fun _ => lasting_countChanged).bind fun _ => preserves_setSect.bind fun _ =>
      preserves_cleanupIfFull

theorem preserves_cowWriteHeader {isClean : Bool} : Preserves g (cowWriteHeader isClean) :=
  preserves_alloc.bind fun _ => (preserves_modifyCm fun w => Lasting.marked w _).bind fun _ => preserves_get.bind fun _ =>
    preserves_fileWrite

theorem preserves_cowWriteCurrentMapping {pos : UInt64} : Preserves g (cowWriteCurrentMapping ps pos) :=
  preserves_get.bind fun _ => preserves_cowWriteMapping

variable (hpos : ∀ w n, g { w with cm := { w.cm with currPos := n } } = g w)

include hpos

/-- A block of data moves the position of the next one. -/
theorem preserves_cowWriteData {buf : Nat → UInt8} : Preserves g (cowWriteData ps buf) :=
  preserves_get.bind fun _ => preserves_throw.ite
    (preserves_fileWrite.bind fun _ => preserves_modifyCm fun w => hpos w _)

theorem preserves_cowWriteCurrent {block : UInt64} {buf : Nat → UInt8} : Preserves g (cowWriteCurrent ps block buf) :=
  preserves_cowReadMapping.bind fun _ =>
    preserves_pure.ite (preserves_cowWriteCurrentMapping.bind fun _ => preserves_cowWriteData hpos)

end

/-- Where the sections are in the file. -/
def layoutPart (w : World) : Nat × Nat := (w.cm.sectSize, w.cm.totalSects)

/-- Where the sections and the data are in the file. -/
def placePart (w : World) : Nat × Nat × Nat := (w.cm.dataOffset, w.cm.sectSize, w.cm.totalSects)

instance : Lasting placePart := ⟨fun _ _ => rfl, fun _ _ => rfl, fun _ _ _ _ => rfl, fun _ _ => rfl, fun _ _ => rfl⟩

theorem place_of {x : CowM α} (h : Preserves fixedPart x) : Preserves placePart x :=
  h.comp fun g => (g.2.2.1, g.2.2.2.1, g.2.2.2.2.1)

theorem preserves_cowFreeMembers : Preserves placePart cowFreeMembers := by
  intro w
  unfold wp cowFreeMembers
  cases w.cm.filp <;> rfl

theorem preserves_getCowFileExtents : Preserves World.cm getCowFileExtents := by
  intro w
  unfold wp getCowFileExtents
  cases w.cm.filp with
  | false => rfl
  | true =>
      rw [if_pos rfl]
      cases w.env.fault w.clock with
      | some e => rfl
      | none =>
          dsimp only
          cases (w.env.fiemap w.clock).isEmpty with
          | true => rfl
          | false => cases (w.env.fault (w.clock + 1)).isSome <;> rfl

theorem preserves_cowSyncAndClose : Preserves placePart (cowSyncAndClose ps) := by
  have hextents : Preserves placePart getCowFileExtents :=
    preserves_getCowFileExtents.comp fun cm => (cm.dataOffset, cm.sectSize, cm.totalSects)
  exact (preserves_cowSyncAndFreeSections.bind fun _ => preserves_cowWriteHeader.bind fun _ => hextents.bind fun _ =>
    preserves_modifyCm fun _ => rfl).onError preserves_cowFreeMembers

theorem preserves_cowOpenHeader {indexOnly resetVmalloc : Bool} :
    Preserves placePart (cowOpenHeader indexOnly resetVmalloc) :=
  preserves_alloc.bind fun _ => preserves_fileRead.bind fun _ =>
    preserves_throw.ite (preserves_throw.ite (preserves_throw.ite
      ((preserves_modifyCm fun _ => rfl).bind fun _ => preserves_cowWriteHeader)))

theorem preserves_fileOpen : Preserves placePart fileOpen :=
  preserves_tick.bind fun _ => preserves_get.bind fun _ => (preserves_modifyCm fun _ => rfl).ite preserves_throw

theorem preserves_cowReopen : Preserves placePart cowReopen :=
  (preserves_fileOpen.bind fun _ => preserves_get.bind fun _ => preserves_cowOpenHeader).onError
    (preserves_modifyCm fun _ => rfl)

/-- An operation of the manager where pages are of any size. -/
def opRun (ps : Nat) : Op → CowM (List UInt64)
  | .readMapping pos => do
      let v ← cowReadMapping ps pos
      pure [v]
  | .writeMapping pos val => do
      cowWriteMapping ps pos val
      pure []
  | .writeCurrent block buf => do
      cowWriteCurrent ps block buf
      pure []
  | .modifyCacheSize cacheSize => do
      cowModifyCacheSize ps cacheSize
      pure []
  | .closeReopen => do
      cowSyncAndClose ps
      cowReopen
      pure []

theorem preserves_opRun (op : Op) : Preserves placePart (opRun ps op) := by
  cases op with
  | readMapping pos => exact preserves_cowReadMapping.bind fun _ => preserves_pure
  | writeMapping pos val => exact preserves_cowWriteMapping.bind fun _ => preserves_pure
  | writeCurrent block buf =>
      exact (preserves_cowWriteCurrent fun _ _ => rfl).bind fun _ => preserves_pure
  | modifyCacheSize cacheSize => exact (preserves_modifyCm fun _ => rfl).bind fun _ => preserves_pure
  | closeReopen => exact preserves_cowSyncAndClose.bind fun _ => preserves_cowReopen.bind fun _ => preserves_pure

/-- The file may also be closed for good; what is left to do then goes to the blocks of the file directly. -/
inductive Act
  | op (o : Op)
  | close

def Act.run (ps : Nat) : Act → CowM Unit
  | .op o => do
      let _ ← opRun ps o
  | .close => cowSyncAndClose ps

/-- The file may be written together with a record: the positions of the blocks of data that were given to
`file_write`, whether all of them, some or nothing got there. -/
abbrev StoreM := EStateM Err (World × List UInt64)

def storeWriteData (ps : Nat) (buf : Nat → UInt8) : StoreM Unit := do
  let cm := (← lift get).cm
  let currSize := cm.currPos.toNat * cowBlockSize ps % 2 ^ 64
  if currSize ≥ cm.fileMax.toNat then throw (.code .efbig)
  else do
    note fun w given => given ++ [w.cm.currPos]
    lift (fileWrite currSize (cowBlockSize ps) buf)
    lift (modifyCm fun cm => { cm with currPos := cm.currPos + 1 })

def storeWriteCurrent (ps : Nat) (block : UInt64) (buf : Nat → UInt8) : StoreM Unit := do
  let blockMapping ← lift (cowReadMapping ps block)
  if blockMapping ≠ 0 then pure ()
  else do
    lift (cowWriteCurrentMapping ps block)
    storeWriteData ps buf

/-- No other action gives a block of data to `file_write`. -/
def Act.stores (ps : Nat) : Act → StoreM Unit
  | .op (.writeCurrent block buf) => storeWriteCurrent ps block buf
  | a => lift (a.run ps)

def runActs (ps : Nat) : List Act → CowM Unit
  | [] => pure ()
  | a :: as => do
      a.run ps
      runActs ps as

def storeActs (ps : Nat) : List Act → StoreM Unit
  | [] => pure ()
  | a :: as => do
      a.stores ps
      storeActs ps as

/-- A run to its end or to the first failure, after which the manager is taken apart, with the positions of
the blocks that were given to `file_write`, by the action that failed too. -/
def runStores (ps : Nat) (as : List Act) (w : World) : List UInt64 × World :=
  match storeActs ps as (w, []) with
  | .ok _ s | .error _ s => (s.2, s.1)

theorem extends_writeData {buf : Nat → UInt8} : Extends (storeWriteData ps buf) (cowWriteData ps buf) :=
  extends_lift.bind fun _ => extends_throw.ite
    (Extends.bind (x := pure ()) extends_note fun _ => extends_lift.bind fun _ => extends_lift)

theorem run_writeCurrent {block : UInt64} {buf : Nat → UInt8} :
    (Act.op (.writeCurrent block buf)).run ps = cowWriteCurrent ps block buf := by
  simp only [Act.run, opRun, bind_assoc, pure_bind, bind_pure_unit]

theorem extends_act (a : Act) : Extends (a.stores ps) (a.run ps) := by
  cases a with
  | close => exact extends_lift
  | op o =>
      cases o with
      | writeCurrent block buf =>
          rw [run_writeCurrent]
          exact extends_lift.bind fun _ => extends_pure.ite (extends_lift.bind fun _ => extends_writeData)
      | _ => exact extends_lift

/-- The recorded run does what the run does. -/
theorem extends_acts (as : List Act) : Extends (storeActs ps as) (runActs ps as) := by
  induction as with
  | nil => exact extends_pure
  | cons a as ih => exact (extends_act a).bind fun _ => ih

theorem preserves_act (a : Act) : Preserves placePart (a.run ps) := by
  cases a with
  | op o => exact (preserves_opRun o).bind fun _ => preserves_pure
  | close => exact preserves_cowSyncAndClose

theorem preserves_acts {as : List Act} : Preserves placePart (runActs ps as) := by
  induction as with
  | nil => exact preserves_pure
  | cons a as ih => exact (preserves_act a).bind fun _ => ih

/-- What every recorded run comes to. -/
theorem runStores_of_wp {as : List Act} {w : World} {P : World × List UInt64 → Prop}
    (h : wp (storeActs ps as) (w, []) (fun _ => P) (fun _ => P)) : P ((runStores ps as w).2, (runStores ps as w).1) := by
  unfold wp at h
  rw [runStores]
  cases hs : storeActs ps as (w, []) <;> rwa [hs] at h

theorem layout_runStores {as : List Act} {w : World} : layoutPart (runStores ps as w).2 = layoutPart w := by
  have hplace : placePart (runStores ps as w).2 = placePart w :=
    runStores_of_wp (P := fun s => placePart s.1 = placePart w)
      ((extends_acts as).wp_iff (s := (w, [])) |>.mpr (preserves_acts w))
  exact congrArg Prod.snd hplace

/-- The extents of a file do not reach beyond the longest file. -/
def Within (exts : List Extent) : Prop := ∀ e ∈ exts, e.logical + e.length ≤ 2 ^ 63

structure Bounded (w : World) : Prop where
  kept : ∀ exts, w.extents = some exts → Within exts
  found : ∀ n, Within (w.env.fiemap n)

theorem Bounded.congr {w w' : World} (h : Bounded w) (hx : w'.extents = w.extents) (he : w'.env = w.env) :
    Bounded w' :=
  ⟨hx ▸ h.kept, he ▸ h.found⟩

theorem bounded_of_fixed {w w' : World} (h : Bounded w) (hw : fixedPart w' = fixedPart w) : Bounded w' := by
  simp only [fixedPart, Prod.mk.injEq] at hw
  exact h.congr hw.2.2.2.2.2.2.2 hw.2.2.2.2.2.2.1

/-- A transfer that succeeds lies within the longest file. -/
theorem fileWrite_below {off : Nat} {buf : Nat → UInt8} (h12 : 12 ≤ ps) {w : World} (hb : Bounded w) :
    wp (fileWrite off (2 ^ ps) buf) w (fun _ w' => fixedPart w' = fixedPart w ∧ off < 2 ^ 63) (fun _ _ => True) := by
  have hsect : 0 < 2 ^ ps / sectorSize :=
    Nat.div_pos (Nat.le_trans (by decide) (Nat.pow_le_pow_right (by decide) h12)) (by decide)
  suffices hlt : wp (fileWrite off (2 ^ ps) buf) w (fun _ _ => off < 2 ^ 63) (fun _ _ => True) from
    wp_mono (wp_and (preserves_fileWrite (g := fixedPart) w) hlt) (fun _ _ h => h) fun _ _ _ => trivial
  rw [fileWrite, wp_bind, wp_get, wp_ite]
  split
  · unfold wp vfsWrite
    by_cases h : 2 ^ 63 ≤ off + 2 ^ ps
    · rw [if_pos h]
      trivial
    · rw [if_neg h]
      cases w.env.fault w.clock with
      | none => exact Nat.lt_of_le_of_lt (Nat.le_add_right _ _) (Nat.lt_of_not_le h)
      | some e => trivial
  · obtain ⟨n, hn⟩ := Nat.exists_eq_succ_of_ne_zero (Nat.pos_iff_ne_zero.mp hsect)
    rw [hn, fileWriteBlock, wp_bind, cowExtents, wp_bind, wp_get]
    cases hx : w.extents with
    | none => trivial
    | some exts =>
        rw [wp_pure]
        cases hs : sectorByOffset exts off with
        | none => trivial
        | some startSect =>
            obtain ⟨e, he, _⟩ := Option.map_eq_some_iff.mp hs
            have hrange := List.find?_some he
            rw [decide_eq_true_eq] at hrange
            have hlt : off < 2 ^ 63 :=
              Nat.lt_of_lt_of_le hrange.2 (hb.kept exts hx e (List.mem_of_find?_eq_some he))
            exact wp_mono (wp_const.mpr hlt) (fun _ _ h => h) fun _ _ _ => trivial

/-- Positions of blocks from one on, each right after the last. Only the last may lie beyond the longest file. -/
inductive Consecutive (ps : Nat) : UInt64 → List UInt64 → Prop
  | nil {p : UInt64} : Consecutive ps p []
  | last {p : UInt64} : Consecutive ps p [p]
  | cons {p : UInt64} {qs : List UInt64} (below : p.toNat * 2 ^ ps % 2 ^ 64 < 2 ^ 63)
      (rest : Consecutive ps (p + 1) qs) : Consecutive ps p (p :: qs)

/-- An action goes on with the next position: it has given away the block at the one before, or no block. -/
structure Gives (ps : Nat) (s s' : World × List UInt64) : Prop where
  bounded : Bounded s'.1
  next : (s'.2 = s.2 ∧ s'.1.cm.currPos = s.1.cm.currPos) ∨
    (s'.2 = s.2 ++ [s.1.cm.currPos] ∧ s'.1.cm.currPos = s.1.cm.currPos + 1 ∧
      s.1.cm.currPos.toNat * 2 ^ ps % 2 ^ 64 < 2 ^ 63)

/-- An action that fails has given away the next block, or none. -/
def Gave (s s' : World × List UInt64) : Prop := s'.2 = s.2 ∨ s'.2 = s.2 ++ [s.1.cm.currPos]

/-- No block is given away, and the position of the next stays. -/
def Stays (w w' : World) : Prop := Bounded w' ∧ w'.cm.currPos = w.cm.currPos

theorem stays_of_fixed {w w' : World} (h : Bounded w) (hw : fixedPart w' = fixedPart w) : Stays w w' := by
  refine ⟨bounded_of_fixed h hw, ?_⟩
  simp only [fixedPart, Prod.mk.injEq] at hw
  exact hw.2.1

theorem storeWriteData_gives {buf : Nat → UInt8} (h12 : 12 ≤ ps) {s : World × List UInt64} (hb : Bounded s.1) :
    wp (storeWriteData ps buf) s (fun _ => Gives ps s) (fun _ => Gave s) := by
  simp only [storeWriteData, wp_bind, wp_lift, wp_get, wp_ite, wp_throw, wp_note]
  split
  · exact .inl rfl
  · refine wp_mono (fileWrite_below h12 hb) ?_ fun _ _ _ => .inr rfl
    rintro _ w₁ ⟨hfix, hlt⟩
    rw [wp_modifyCm]
    have hb₁ := bounded_of_fixed hb hfix
    simp only [fixedPart, Prod.mk.injEq] at hfix
    have hnext : w₁.cm.currPos + 1 = s.1.cm.currPos + 1 := by rw [hfix.2.1]
    exact ⟨hb₁.congr rfl rfl, .inr ⟨rfl, hnext, hlt⟩⟩

theorem storeWriteCurrent_gives {block : UInt64} {buf : Nat → UInt8} (h12 : 12 ≤ ps) {s : World × List UInt64}
    (hb : Bounded s.1) : wp (storeWriteCurrent ps block buf) s (fun _ => Gives ps s) (fun _ => Gave s) := by
  rw [storeWriteCurrent, wp_bind, wp_lift]
  refine wp_mono (preserves_cowReadMapping (g := fixedPart) s.1) ?_ fun _ _ _ => .inl rfl
  intro v w₁ h₁
  rw [wp_ite]
  split
  · have hstays := stays_of_fixed hb h₁
    exact ⟨hstays.1, .inl ⟨rfl, hstays.2⟩⟩
  · rw [wp_bind, wp_lift]
    refine wp_mono (preserves_cowWriteCurrentMapping (g := fixedPart) w₁) ?_ fun _ _ _ => .inl rfl
    intro _ w₂ h₂
    have hstays := stays_of_fixed hb (h₂.trans h₁)
    refine wp_mono (storeWriteData_gives h12 (s := (w₂, s.2)) hstays.1) ?_ ?_
    · rintro _ s₃ ⟨hb₃, hnext⟩
      simp only [hstays.2] at hnext
      exact ⟨hb₃, hnext⟩
    · intro _ s₃ hgave
      simp only [Gave, hstays.2] at hgave
      exact hgave

theorem wp_true {x : CowM α} {w : World} : wp x w (fun _ _ => True) (fun _ _ => True) := wp_const.mpr trivial

theorem getCowFileExtents_spec {w : World} (hb : Bounded w) :
    wp getCowFileExtents w
      (fun _ w' => w.cm.filp = true ∧ Bounded w' ∧ w'.cm = w.cm ∧ w'.file = w.file)
      (fun _ _ => True) := by
  unfold wp getCowFileExtents
  cases hf : w.cm.filp with
  | false => trivial
  | true =>
      rw [if_pos rfl]
      cases w.env.fault w.clock with
      | some e => trivial
      | none =>
          dsimp only
          cases (w.env.fiemap w.clock).isEmpty with
          | true => exact ⟨rfl, hb.congr rfl rfl, rfl, rfl⟩
          | false =>
              cases (w.env.fault (w.clock + 1)).isSome with
              | true => exact ⟨rfl, ⟨fun _ h => (by cases h), hb.found⟩, rfl, rfl⟩
              | false =>
                  refine ⟨rfl, ⟨fun exts h => ?_, hb.found⟩, rfl, rfl⟩
                  cases h
                  exact hb.found _

/-- Only an open file is closed; its header then has what the manager has. -/
theorem cowSyncAndClose_spec {w : World} (hb : Bounded w) :
    wp (cowSyncAndClose ps) w
      (fun _ w' => Bounded w' ∧ w'.cm.currPos = w.cm.currPos ∧ diskHeader w' = headerOf w'.cm ∧ 4096 ≤ w'.file.size)
      (fun _ _ => True) := by
  rw [cowSyncAndClose, wp_onError]
  refine wp_mono (E := fun _ _ => True) ?_ (fun _ _ h => h) fun _ _ _ => wp_true
  rw [wp_bind]
  refine wp_mono (preserves_cowSyncAndFreeSections (g := fixedPart) w) ?_ fun _ _ _ => trivial
  intro _ w₁ h₁
  rw [wp_bind]
  cases hf : w₁.cm.filp with
  | false =>
      refine wp_mono (preserves_cowWriteHeader (g := fixedPart) w₁) ?_ fun _ _ _ => trivial
      intro _ w₂ h₂
      rw [wp_bind]
      refine wp_mono (getCowFileExtents_spec (bounded_of_fixed (bounded_of_fixed hb h₁) h₂)) ?_ fun _ _ _ => trivial
      intro _ _ h₃
      simp only [fixedPart, Prod.mk.injEq] at h₂
      rw [h₂.1, hf] at h₃
      exact absurd h₃.1 Bool.false_ne_true
  | true =>
      refine wp_mono (wp_and (preserves_cowWriteHeader (g := fixedPart) w₁) (cowWriteHeader_wp true (.inl hf))) ?_ fun _ _ _ => trivial
      rintro _ w₂ ⟨h₂, _, _, hsize, hdisk⟩
      rw [wp_bind]
      refine wp_mono (getCowFileExtents_spec (bounded_of_fixed (bounded_of_fixed hb h₁) h₂)) ?_ fun _ _ _ => trivial
      rintro _ w₃ ⟨_, hb₃, hcm, hfile⟩
      rw [wp_modifyCm]
      simp only [fixedPart, Prod.mk.injEq] at h₁ h₂
      refine ⟨hb₃.congr rfl rfl, ?_, ?_, ?_⟩
      · change w₃.cm.currPos = _
        rw [hcm, h₂.2.1, h₁.2.1]
      · change decode w₃.file.bytes = headerOf w₃.cm
        rw [hfile, hcm]
        exact hdisk
      · change 4096 ≤ w₃.file.size
        rw [hfile]
        exact hsize

theorem cowReopen_spec {w : World} (hb : Bounded w) (hdisk : diskHeader w = headerOf w.cm)
    (hsize : 4096 ≤ w.file.size) :
    wp cowReopen w (fun _ w' => Bounded w' ∧ w'.cm.currPos = w.cm.currPos) (fun _ _ => True) := by
  rw [cowReopen, wp_onError]
  refine wp_mono (E := fun _ _ => True) ?_ (fun _ _ h => h) fun _ _ _ => wp_true
  rw [fileOpen, wp_bind, wp_bind]
  refine wp_tick ?_ fun _ _ => trivial
  rw [wp_bind, wp_get, wp_ite]
  split
  · rw [wp_modifyCm, wp_bind, wp_get]
    refine wp_mono (cowOpenHeader_wp _ false rfl hsize) ?_ fun _ _ _ => trivial
    rintro _ w' ⟨_, hw', _⟩
    rw [hw']
    refine ⟨hb.congr rfl rfl, ?_⟩
    have hpos : (diskHeader w).fpos = w.cm.currPos := by
      rw [hdisk]
      rfl
    exact hpos
  · trivial

/-- An action that stores no block leaves the position of the next one. -/
theorem run_stays {w : World} (hb : Bounded w) (a : Act) (ha : ∀ block buf, a ≠ .op (.writeCurrent block buf)) :
    wp (a.run ps) w (fun _ w' => Stays w w') (fun _ _ => True) := by
  have kept {α : Type} {x : CowM α} (h : Preserves fixedPart x) : wp x w (fun _ w' => Stays w w') (fun _ _ => True) :=
    wp_mono (h w) (fun _ _ hw => stays_of_fixed hb hw) fun _ _ _ => trivial
  cases a with
  | close => exact wp_mono (cowSyncAndClose_spec hb) (fun _ _ h => ⟨h.1, h.2.1⟩) fun _ _ h => h
  | op o =>
      cases o with
      | readMapping pos =>
          exact kept ((preserves_cowReadMapping.bind fun _ => preserves_pure).bind fun _ => preserves_pure)
      | writeMapping pos val =>
          exact kept ((preserves_cowWriteMapping.bind fun _ => preserves_pure).bind fun _ => preserves_pure)
      | modifyCacheSize cacheSize => exact ⟨hb.congr rfl rfl, rfl⟩
      | writeCurrent block buf => exact absurd rfl (ha block buf)
      | closeReopen =>
          rw [Act.run, wp_bind, opRun, wp_bind]
          refine wp_mono (cowSyncAndClose_spec hb) ?_ fun _ _ _ => trivial
          rintro _ w₁ ⟨hb₁, hpos, hdisk, hsize⟩
          rw [wp_bind]
          refine wp_mono (cowReopen_spec hb₁ hdisk hsize) ?_ fun _ _ _ => trivial
          rintro _ w₂ ⟨hb₂, hpos₂⟩
          exact ⟨hb₂, hpos₂.trans hpos⟩

theorem act_gives (h12 : 12 ≤ ps) {s : World × List UInt64} (hb : Bounded s.1) (a : Act) :
    wp (a.stores ps) s (fun _ => Gives ps s) (fun _ => Gave s) := by
  have lifted (ha : ∀ block buf, a ≠ .op (.writeCurrent block buf)) :
      wp (lift (a.run ps) : StoreM Unit) s (fun _ => Gives ps s) (fun _ => Gave s) := by
    rw [wp_lift]
    exact wp_mono (run_stays hb a ha) (fun _ _ h => ⟨h.1, .inl ⟨rfl, h.2⟩⟩) fun _ _ _ => .inl rfl
  cases a with
  | close => exact lifted fun _ _ h => by cases h
  | op o =>
      cases o with
      | writeCurrent block buf => exact storeWriteCurrent_gives h12 hb
      | _ => exact lifted fun _ _ h => by cases h

/-- A run gives away one block after the other. -/
theorem acts_consecutive (h12 : 12 ≤ ps) {as : List Act} {s : World × List UInt64} (hb : Bounded s.1) :
    wp (storeActs ps as) s (fun _ s' => ∃ qs, s'.2 = s.2 ++ qs ∧ Consecutive ps s.1.cm.currPos qs)
      (fun _ s' => ∃ qs, s'.2 = s.2 ++ qs ∧ Consecutive ps s.1.cm.currPos qs) := by
  induction as generalizing s with
  | nil => exact ⟨[], (List.append_nil _).symm, .nil⟩
  | cons a as ih =>
      rw [storeActs, wp_bind]
      refine wp_mono (act_gives h12 hb a) ?_ ?_
      · rintro _ s₁ ⟨hb₁, ⟨hgiven, hpos⟩ | ⟨hgiven, hpos, hbelow⟩⟩
        · rw [← hpos, ← hgiven]
          exact ih hb₁
        · have later : ∀ s' : World × List UInt64, (∃ qs, s'.2 = s₁.2 ++ qs ∧ Consecutive ps s₁.1.cm.currPos qs) →
              ∃ qs, s'.2 = s.2 ++ qs ∧ Consecutive ps s.1.cm.currPos qs := by
            rintro s' ⟨qs, hqs, hrest⟩
            refine ⟨s.1.cm.currPos :: qs, ?_, .cons hbelow (hpos ▸ hrest)⟩
            rw [hqs, hgiven, List.append_assoc, List.singleton_append]
          exact wp_mono (ih hb₁) (fun _ => later) fun _ => later
      · rintro _ s₁ (hgiven | hgiven)
        · exact ⟨[], by rw [hgiven, List.append_nil], .nil⟩
        · exact ⟨[s.1.cm.currPos], hgiven, .last⟩

theorem runStores_consecutive (h12 : 12 ≤ ps) {as : List Act} {w : World} (hb : Bounded w) :
    Consecutive ps w.cm.currPos (runStores ps as w).1 := by
  have hgiven : ∃ qs, (runStores ps as w).1 = [] ++ qs ∧ Consecutive ps w.cm.currPos qs :=
    runStores_of_wp (P := fun s => ∃ qs, s.2 = [] ++ qs ∧ Consecutive ps w.cm.currPos qs)
      (acts_consecutive h12 (s := (w, [])) hb)
  obtain ⟨qs, hqs, hrest⟩ := hgiven
  rw [List.nil_append] at hqs
  exact hqs ▸ hrest

/-- A manager that was just made. -/
structure Fresh (ps : Nat) (elements : UInt64) (w : World) : Prop where
  sectSize : w.cm.sectSize = 2 ^ ps
  dataOffset : w.cm.dataOffset = (4096 + w.cm.totalSects * (2 ^ ps * 8)) % 2 ^ 64
  currPos : w.cm.currPos = UInt64.ofNat (w.cm.dataOffset / 2 ^ ps)
  memory : w.cm.totalSects * 24 ≤ 2 ^ 52
  bounded : Bounded w

section

variable {γ : Type} {g : World → γ} [Lasting g]

theorem preserves_zeroPages {offset n k : Nat} : Preserves g (zeroPages ps offset n k) := by
  induction n generalizing k with
  | zero => exact preserves_pure
  | succ n ih => exact preserves_fileWrite.bind fun _ => ih

theorem preserves_fileAllocate {offset length : Nat} : Preserves g (fileAllocate ps offset length) := by
  have hreal : Preserves g (realFallocate offset length) := by
    refine preserves_tick.bind fun _ => preserves_throw.ite (preserves_modify ?_)
    exact fun w => Lasting.file w _
  refine hreal.recover fun e => Preserves.ite ?_ preserves_throw
  exact preserves_alloc.bind fun _ => (preserves_fileWrite.ite preserves_pure).bind fun _ => preserves_zeroPages

end

theorem allocSects_spec {total : Nat} {w : World} :
    wp (allocSects total) w (fun _ w' => fixedPart w' = fixedPart w ∧ total * 24 ≤ 2 ^ 52) (fun _ _ => True) := by
  unfold wp allocSects
  split
  next h =>
    split at h
    next hc =>
      cases h
      exact ⟨rfl, Nat.le_trans hc.2 (by decide)⟩
    next =>
      split at h
      next hc =>
        cases h
        exact ⟨rfl, hc.2⟩
      next => cases h
  next => trivial

theorem cowInit_fresh (elements fileMax seqid : UInt64) (cacheSize : Nat) (uuid : Fin 16 → UInt8) {w : World}
    (hb : Bounded w) :
    wp (cowInit ps elements (cowSectionSize ps) cacheSize fileMax uuid seqid) w
      (fun _ w' => Fresh ps elements w') (fun _ _ => True) := by
  rw [cowInit, wp_bind]
  unfold wp allocManager
  cases w.env.fault w.clock with
  | some e => trivial
  | none =>
      dsimp only
      change wp _ _ _ _
      rw [wp_onError]
      refine wp_mono (E := fun _ _ => True) ?_ (fun _ _ h => h) fun _ _ _ => wp_true
      rw [fileCreate, wp_bind, wp_bind]
      refine wp_tick ?_ fun _ _ => trivial
      rw [wp_modify, wp_bind, wp_modifyCm, wp_bind]
      refine wp_mono allocSects_spec ?_ fun _ _ _ => trivial
      rintro _ w₁ ⟨h₁, hmem⟩
      refine wp_mono ((preserves_fileAllocate.bind fun _ => preserves_cowWriteHeader (g := fixedPart)) w₁) ?_ fun _ _ _ => trivial
      intro _ w₂ h₂
      have h := h₂.trans h₁
      simp only [fixedPart, Prod.mk.injEq] at h
      obtain ⟨_, hcurr, hdata, hsize, htotal, _, henv, hext⟩ := h
      refine ⟨hsize, ?_, ?_, ?_, hb.congr hext henv⟩
      · rw [hdata, htotal]
        rfl
      · rw [hcurr, hdata]
        rfl
      · rw [htotal]
        exact hmem

def sectionRange (ps : Nat) (cm : CowManager) (i : Nat) : Nat × Nat := (chunkOffset ps cm i 0, sectSizeBytes ps)

def dataRange (ps : Nat) (pos : UInt64) : Nat × Nat := (pos.toNat * cowBlockSize ps % 2 ^ 64, cowBlockSize ps)

/-- The header, the images of the sections where `__cow_write_section` writes them, and the blocks of data that were
given to `file_write`, each with its offset and its length. -/
def regions (ps : Nat) (cm : CowManager) (stored : List UInt64) : List (Nat × Nat) :=
  (0, cowHeaderSize) :: ((List.range cm.totalSects).map (sectionRange ps cm) ++ stored.map (dataRange ps))

def Apart (r r' : Nat × Nat) : Prop := r.1 + r.2 ≤ r'.1 ∨ r'.1 + r'.2 ≤ r.1

theorem Consecutive.head {p q : UInt64} {qs : List UInt64} (h : Consecutive ps p (q :: qs)) : q = p := by
  cases h <;> rfl

theorem toNat_succ {a : UInt64} (h : a.toNat < 2 ^ 51) : (a + 1).toNat = a.toNat + 1 := by
  have hone : (1 : UInt64).toNat = 1 := rfl
  rw [UInt64.toNat_add, hone, Nat.mod_eq_of_lt (by omega)]

/-- With pages of 4 KiB the blocks are given away one behind the other. -/
theorem Consecutive.ascend {p : UInt64} {qs : List UInt64} (h : Consecutive 12 p qs) (hlow : p.toNat ≤ 2 ^ 51) :
    (∀ q ∈ qs, p.toNat ≤ q.toNat ∧ q.toNat ≤ 2 ^ 51) ∧ qs.Pairwise fun q q' => q.toNat < q'.toNat := by
  induction h with
  | nil => exact ⟨fun _ h => (by cases h), .nil⟩
  | last =>
      refine ⟨fun q hq => ?_, List.pairwise_singleton ..⟩
      rw [List.mem_singleton.mp hq]
      exact ⟨Nat.le_refl _, hlow⟩
  | @cons p qs hbelow _ ih =>
      have hsucc : (p + 1).toNat = p.toNat + 1 := toNat_succ (by omega)
      obtain ⟨hall, hpair⟩ := ih (by omega)
      constructor
      · intro q hq
        rcases List.mem_cons.mp hq with rfl | hq
        · exact ⟨Nat.le_refl _, hlow⟩
        · have := hall q hq
          omega
      · refine List.pairwise_cons.mpr ⟨fun q hq => ?_, hpair⟩
        have := hall q hq
        omega

variable {elements : UInt64} {w w' : World} {as : List Act}

theorem sectionRange_eq {cm : CowManager} (h : cm.sectSize = 2 ^ ps) :
    sectionRange ps cm i = (4096 + 2 ^ ps * 8 * i, 2 ^ ps * 8) := by
  simp only [sectionRange, chunkOffset, h, sectSizeBytes, cowSectionSize, pageSize, Nat.mul_zero, Nat.add_zero,
    Prod.mk.injEq, and_true]
  ring

/-- With larger pages the index does not end at the start of a page. -/
theorem index_end_unaligned {n m : Nat} (h13 : 13 ≤ ps) (h : 2 ^ ps ∣ m) : m ≠ 4096 + n * (2 ^ ps * 8) := by
  intro heq
  have hpage : 2 ^ 13 ≤ 2 ^ ps := Nat.pow_le_pow_right (by decide) h13
  have hdvd : 2 ^ ps ∣ n * (2 ^ ps * 8) := Dvd.intro_left (n * 8) (by ring)
  rw [heq, Nat.dvd_add_left hdvd] at h
  have := Nat.le_of_dvd (by decide) h
  omega

theorem regions_four_kib (hf : Fresh 12 elements w) :
    (regions 12 (runStores 12 as w).2.cm (runStores 12 as w).1).Pairwise Apart := by
  have hlayout : layoutPart (runStores 12 as w).2 = layoutPart w := layout_runStores
  simp only [layoutPart, Prod.mk.injEq] at hlayout
  have hmem := hf.memory
  have hdata : w.cm.dataOffset = 4096 + w.cm.totalSects * 32768 := by
    have h := hf.dataOffset
    omega
  have hcurr : w.cm.currPos.toNat = 1 + 8 * w.cm.totalSects := by
    rw [hf.currPos, hdata, UInt64.toNat_ofNat', Nat.mod_eq_of_lt (by omega)]
    omega
  have hgiven : Consecutive 12 w.cm.currPos (runStores 12 as w).1 := runStores_consecutive le_rfl hf.bounded
  obtain ⟨hall, hpair⟩ := hgiven.ascend (by omega)
  have hsection (i : Nat) : sectionRange 12 (runStores 12 as w).2.cm i = (4096 + 32768 * i, 32768) :=
    sectionRange_eq (hlayout.1.trans hf.sectSize)
  have hblock (q : UInt64) (hq : q ∈ (runStores 12 as w).1) : dataRange 12 q = (q.toNat * 4096, 4096) := by
    have := (hall q hq).2
    rw [dataRange, cowBlockSize_four_kib, Nat.mod_eq_of_lt (by omega)]
  rw [regions, List.pairwise_cons, List.pairwise_append, List.pairwise_map, List.pairwise_map]
  refine ⟨fun r hr => ?_, ?_, ?_, fun r hr r' hr' => ?_⟩
  · rcases List.mem_append.mp hr with hr | hr
    · obtain ⟨i, _, rfl⟩ := List.mem_map.mp hr
      rw [hsection, Apart, cowHeaderSize]
      omega
    · obtain ⟨q, hq, rfl⟩ := List.mem_map.mp hr
      have := (hall q hq).1
      rw [hblock q hq, Apart, cowHeaderSize]
      omega
  · refine List.Pairwise.imp (fun {i j} hij => ?_) List.pairwise_lt_range
    rw [hsection, hsection, Apart]
    omega
  · refine List.Pairwise.imp_of_mem (fun {q q'} hq hq' hlt => ?_) hpair
    rw [hblock q hq, hblock q' hq', Apart]
    omega
  · obtain ⟨i, hi, rfl⟩ := List.mem_map.mp hr
    obtain ⟨q, hq, rfl⟩ := List.mem_map.mp hr'
    have := (hall q hq).1
    rw [List.mem_range, hlayout.2] at hi
    rw [hsection, hblock q hq, Apart]
    omega

/-- With larger pages the first block of data begins in the page in which the index ends. -/
theorem first_block_overlaps {cm : CowManager} {q : UInt64} {qs : List UInt64} (h13 : 13 ≤ ps)
    (hf : Fresh ps elements w) (hsize : cm.sectSize = w.cm.sectSize) (htotal : cm.totalSects = w.cm.totalSects)
    (hq : q = w.cm.currPos) : ¬ (regions ps cm (q :: qs)).Pairwise Apart := by
  intro h
  have hpage : 2 ^ 13 ≤ 2 ^ ps := Nat.pow_le_pow_right (by decide) h13
  obtain ⟨hheader, hrest⟩ := List.pairwise_cons.mp h
  obtain ⟨_, _, hcross⟩ := List.pairwise_append.mp hrest
  have hless : w.cm.dataOffset < 2 ^ 64 := by
    rw [hf.dataOffset]
    exact Nat.mod_lt _ (by decide)
  have hle := Nat.div_mul_le_self w.cm.dataOffset (2 ^ ps)
  have hoff : dataRange ps q = (w.cm.dataOffset / 2 ^ ps * 2 ^ ps, 2 ^ ps) := by
    have hquot : w.cm.dataOffset / 2 ^ ps < 2 ^ 64 := Nat.lt_of_le_of_lt (Nat.div_le_self _ _) hless
    rw [dataRange, cowBlockSize, hq, hf.currPos, UInt64.toNat_ofNat', Nat.mod_eq_of_lt hquot,
      Nat.mod_eq_of_lt (Nat.lt_of_le_of_lt hle hless)]
  generalize hX : w.cm.dataOffset / 2 ^ ps * 2 ^ ps = X at hoff hle
  have hmul : 2 ^ ps ∣ X := hX ▸ Nat.dvd_mul_left _ _
  have hstart := hheader _ (List.mem_append_right _ (List.mem_map.mpr ⟨q, List.mem_cons_self, rfl⟩))
  rw [hoff, Apart] at hstart
  have hlow : 4096 ≤ X := by
    rcases hstart with hs | hs
    · rwa [Nat.zero_add] at hs
    · exact absurd hs (by omega)
  -- the end of the index is no multiple of a page
  have hend : X < 4096 + w.cm.totalSects * (2 ^ ps * 8) := by
    have hmod : w.cm.dataOffset ≤ 4096 + w.cm.totalSects * (2 ^ ps * 8) := hf.dataOffset ▸ Nat.mod_le _ _
    exact Nat.lt_of_le_of_ne (Nat.le_trans hle hmod) (index_end_unaligned h13 hmul)
  have hpos : 0 < 2 ^ ps * 8 := by omega
  have hi : (X - 4096) / (2 ^ ps * 8) < w.cm.totalSects := by
    rw [Nat.div_lt_iff_lt_mul hpos]
    omega
  have hapart := hcross _ (List.mem_map.mpr ⟨(X - 4096) / (2 ^ ps * 8), by rw [List.mem_range, htotal]; exact hi, rfl⟩) _
    (List.mem_map.mpr ⟨q, List.mem_cons_self, rfl⟩)
  have hdiv := Nat.div_add_mod (X - 4096) (2 ^ ps * 8)
  have hrem := Nat.mod_lt (X - 4096) hpos
  rw [sectionRange_eq (hsize.trans hf.sectSize), hoff, Apart] at hapart
  dsimp only at hapart
  omega

/-- The regions of the file are apart exactly if pages have 4 KiB, or no block of data was given to `file_write`. -/
theorem regions_apart_iff (ps : Nat) (h12 : 12 ≤ ps) (elements fileMax seqid : UInt64) (cacheSize : Nat)
    (uuid : Fin 16 → UInt8) (w w₁ : World) (hb : Bounded w) (as : List Act)
    (hinit : cowInit ps elements (cowSectionSize ps) cacheSize fileMax uuid seqid w = .ok () w₁) :
    (regions ps (runStores ps as w₁).2.cm (runStores ps as w₁).1).Pairwise Apart ↔
      ps = 12 ∨ (runStores ps as w₁).1 = [] := by
  have hf := wp_ok (cowInit_fresh elements fileMax seqid cacheSize uuid hb) hinit
  have hlayout : layoutPart (runStores ps as w₁).2 = layoutPart w₁ := layout_runStores
  simp only [layoutPart, Prod.mk.injEq] at hlayout
  constructor
  · intro h
    by_cases hps : ps = 12
    · exact .inl hps
    · right
      cases hs : (runStores ps as w₁).1 with
      | nil => rfl
      | cons q qs =>
          rw [hs] at h
          have hfirst : Consecutive ps w₁.cm.currPos (runStores ps as w₁).1 := runStores_consecutive h12 hf.bounded
          rw [hs] at hfirst
          exact absurd h (first_block_overlaps (by omega) hf hlayout.1 hlayout.2 hfirst.head)
  · rintro (rfl | hnone)
    · exact regions_four_kib hf
    · -- with no block there are only the header and the sections
      rw [hnone, regions, List.map_nil, List.append_nil, List.pairwise_cons, List.pairwise_map]
      have hsection (i : Nat) : sectionRange ps (runStores ps as w₁).2.cm i = (4096 + 2 ^ ps * 8 * i, 2 ^ ps * 8) :=
        sectionRange_eq (hlayout.1.trans hf.sectSize)
      constructor
      · intro r hr
        obtain ⟨i, _, rfl⟩ := List.mem_map.mp hr
        rw [hsection, Apart, cowHeaderSize]
        omega
      · refine List.Pairwise.imp (fun {i j} hij => ?_) List.pairwise_lt_range
        rw [hsection, hsection, Apart]
        have hle : 2 ^ ps * 8 * (i + 1) ≤ 2 ^ ps * 8 * j := Nat.mul_le_mul_left _ hij
        rw [Nat.mul_succ] at hle
        dsimp only
        omega

/-- A manager for sixteen blocks, made where no call fails. -/
def made (ps : Nat) : World :=
  match cowInit ps 16 (cowSectionSize ps) 1000000 1000000 (fun _ => 0) 1 Start.calm with
  | .ok _ w => w
  | .error _ w => w

theorem bounded_calm : Bounded Start.calm where
  kept exts h := by
    cases h
    exact fun _ he => absurd he List.not_mem_nil
  found _ _ he := absurd he List.not_mem_nil

def storeBlock : List Act := [.op (.writeCurrent 5 fun _ => 7)]

theorem regions_apart_iff_example :
    (regions 12 (runStores 12 storeBlock (made 12)).2.cm (runStores 12 storeBlock (made 12)).1).Pairwise Apart :=
  (regions_apart_iff 12 (Nat.le_refl 12) 16 1000000 1 1000000 (fun _ => 0) Start.calm (made 12) bounded_calm
    storeBlock rfl).mpr (.inl rfl)

/-- With pages of 8 KiB the first block goes over the end of the section. -/
theorem first_block_in_section : ¬ ∀ (ps : Nat), 12 ≤ ps → ∀ (elements fileMax seqid : UInt64) (cacheSize : Nat)
    (uuid : Fin 16 → UInt8) (w w₁ : World), Bounded w → ∀ as : List Act,
    cowInit ps elements (cowSectionSize ps) cacheSize fileMax uuid seqid w = .ok () w₁ →
      (regions ps (runStores ps as w₁).2.cm (runStores ps as w₁).1).Pairwise Apart := by
  intro h
  have hall := h 13 (by decide) 16 1000000 1 1000000 (fun _ => 0) Start.calm (made 13) bounded_calm storeBlock rfl
  have hregions : regions 13 (runStores 13 storeBlock (made 13)).2.cm (runStores 13 storeBlock (made 13)).1 =
      [(0, 4096), (4096, 65536), (65536, 8192)] := by decide +kernel
  rw [hregions] at hall
  obtain ⟨_, hrest⟩ := List.pairwise_cons.mp hall
  obtain ⟨hsect, _⟩ := List.pairwise_cons.mp hrest
  have := hsect _ List.mem_cons_self
  rw [Apart] at this
  omega

end ElastioSnap.Cow.Regions
