import ElastioSnap.Cow.Crash
import ElastioSnap.Incremental.Chain

namespace ElastioSnap.Incremental.Lineage

open Lib.Bytes Lib.Outcome Lib.Runs Lib.Flags Cow.Manager Cow.FileIo Cow.Header Cow.Cleanup Cow.Mapping Cow.Data
open Cow.Lifecycle Cow.Protocol
open Cow.Regions hiding Act Act.run
open Cow.Crash (Inv inv_act act_completed header_of_run lastAfter_ne cowOpenHeader_opens opened)
open Chain (Unhindered verifyFiles_iff seqid_before_iff)

/-- What a series has come to. -/
inductive Phase
  | active
  /-- In incremental mode, with a COW file that has not been cut down yet. -/
  | truncating
  /-- The next snapshot is there, and the COW file of the one before it has not been closed yet. -/
  | leaving (old : World)
  | dormant
  /-- The machine was shut down. There is a file, and no manager. -/
  | off

/-- The device of a series with its COW file, and the files that its transitions to snapshot mode left behind. -/
structure State where
  snapshot : Bool
  world : World
  phase : Phase
  left : List ByteFile

inductive Action
  /-- By the thread of the device that is left or of the one that is there, or by an ioctl. -/
  | act (old : Bool) (a : Act)
  | transitionInc
  | truncate
  | transitionSnap (fileMax : UInt64) (cacheSize : Nat) (env : Env)
  | syncAndFree
  | umount
  | mount
  | shutdown (env : Env)
  | reload (snapshot : Bool) (cacheSize : Nat)

/-- What an action leaves if it returns. -/
def returned (ps : Nat) (a : Act) (w : World) : Option World :=
  match a.run ps w with
  | .ok _ w' => some w'
  | .error .. => none

/-- What is done with a file while a device has it. -/
def plain : Act → Bool
  | .readMapping _ | .writeMapping _ _ | .writeCurrent _ _ | .modifyCacheSize _ => true
  | _ => false

/-- A machine on which nothing was done with a file yet. -/
def machine (env : Env) : World := (Cow.Protocol.State.start env).world

/-- What is left of a world on a machine that was started again. -/
def rebooted (env : Env) (w : World) : World := { machine env with file := w.file, linked := w.linked }

def State.side (s : State) : Bool → Option World
  | false =>
      match s.phase with
      | .dormant | .off => none
      | _ => some s.world
  | true =>
      match s.phase with
      | .leaving old => some old
      | _ => none

def State.put (s : State) (old : Bool) (w : World) : State :=
  if old then { s with phase := .leaving w } else { s with world := w }

def tracerActiveSnapToInc (s : State) : Option State :=
  match s.phase, s.snapshot with
  | .active, true => some { s with snapshot := false, phase := .truncating }
  | _, _ => none

/-- The new file gets the uuid of the old one and the sequence id after it. -/
def tracerActiveIncToSnap (ps : Nat) (elements : UInt64) (s : State) (fileMax : UInt64) (cacheSize : Nat) (env : Env) :
    Option State :=
  match s.phase, s.snapshot with
  | .active, false =>
      (returned ps (.init elements fileMax (s.world.cm.seqid + 1) cacheSize s.world.cm.uuid) (machine env)).map fun w =>
        { s with snapshot := true, world := w, phase := .leaving s.world }
  | _, _ => none

/-- Every call of a step returns without an error. -/
def step (ps : Nat) (elements : UInt64) (s : State) : Action → Option State
  | .act old a =>
      if plain a then (s.side old).bind fun w => (returned ps a w).map (s.put old) else none
  | .transitionInc => tracerActiveSnapToInc s
  | .truncate =>
      match s.phase with
      | .truncating => (returned ps .truncateToIndex s.world).map fun w => { s with world := w, phase := .active }
      | _ => none
  | .transitionSnap fileMax cacheSize env => tracerActiveIncToSnap ps elements s fileMax cacheSize env
  | .syncAndFree =>
      match s.phase with
      | .leaving old =>
          (returned ps .syncAndFree old).map fun w => { s with phase := .active, left := s.left ++ [w.file] }
      | _ => none
  | .umount =>
      match s.phase with
      | .active => (returned ps .syncAndClose s.world).map fun w => { s with world := w, phase := .dormant }
      | _ => none
  | .mount =>
      match s.phase with
      | .dormant => (returned ps .reopen s.world).map fun w => { s with world := w, phase := .active }
      | _ => none
  | .shutdown env =>
      match s.phase with
      | .dormant =>
          some { s with world := rebooted env s.world, phase := .off }
      | _ => none
  | .reload snapshot cacheSize =>
      match s.phase with
      | .off => (returned ps (.reload elements cacheSize (!snapshot)) s.world).map fun w =>
          { s with snapshot := snapshot, world := w, phase := .active }
      | _ => none

/-- A device that was set up. -/
def State.created (w : World) : State := ⟨true, w, .active, []⟩

inductive Begins (ps : Nat) (elements : UInt64) (uuid : Fin 16 → UInt8) : State → Prop
  | setup {env : Env} {w : World} {fileMax : UInt64} {cacheSize : Nat} (henv : ∀ n, Within (env.fiemap n))
      (h : returned ps (.init elements fileMax 1 cacheSize uuid) (machine env) = some w) :
      Begins ps elements uuid (.created w)

/-- The extents that a file system reports are extents of a file. -/
def Proper (_ : State) : Action → Prop
  | .transitionSnap _ _ env | .shutdown env => ∀ n, Within (env.fiemap n)
  | _ => True

/-- Pages of 4 to 64 KiB, and a device of as many blocks as a file can have. -/
structure Sized (ps : Nat) (elements : UInt64) : Prop where
  low : 12 ≤ ps
  high : ps ≤ 16
  pos : 0 < elements.toNat
  fits : elements.toNat * 2 ^ ps < 2 ^ 63

/-- The device has a COW manager. -/
def State.live (s : State) : Bool :=
  match s.phase with
  | .off => false
  | _ => true

/-- The COW files of the snapshots of a series, in their order. -/
def State.files (s : State) : List ByteFile :=
  match s.phase with
  | .leaving old => s.left ++ [old.file, s.world.file]
  | _ => s.left ++ [s.world.file]

variable {ps : Nat} {elements : UInt64} {uuid : Fin 16 → UInt8} {seqid : UInt64} {indexOnly isOpen : Bool} {a : Act}
  {w w' w₁ w₂ : World} {m : Written} {last : Option Written} {s s' s₀ : State}

theorem returned_iff : returned ps a w = some w' ↔ a.run ps w = .ok () w' := by
  rw [returned]
  cases hrun : a.run ps w with
  | ok _ v => simp
  | error e v => simp

/-- An action that returns leaves no half of a header behind. -/
theorem untorn_of_returned (h : Inv ps ⟨w, last⟩) (h12 : 12 ≤ ps) (h16 : ps ≤ 16)
    (hsized : Cow.Protocol.Sized ps (.act a)) (he : a.enabled w = true) (hok : a.run ps w = .ok () w') :
    Untorn ps a w := by
  intro x w₁ hx hbefore
  obtain ⟨v, hv⟩ := header_of_run hx hok
  obtain ⟨_, u, hu, hheader⟩ := bind_ok.mp hv
  rw [hbefore] at hu
  cases hu
  have hb := wp_ok (before_wp hx h12 h16 hsized he h.headed h.live) hbefore
  have hholds := wp_ok (cowWriteHeader_holds hb.held) hheader
  right
  rw [left.eq_def, hheader]
  exact hholds

theorem inv_returned (h : Inv ps ⟨w, last⟩) (h12 : 12 ≤ ps) (h16 : ps ≤ 16)
    (hsized : Cow.Protocol.Sized ps (.act a)) (he : a.enabled w = true) (hok : a.run ps w = .ok () w') :
    Inv ps ⟨w', lastAfter ps a w last⟩ := by
  have hinv := inv_act h a h12 h16 hsized (untorn_of_returned h h12 h16 hsized he hok) he
  rwa [left.eq_def, hok] at hinv

theorem diskHeader_headed (h : Inv ps ⟨w, some m⟩) : diskHeader w = headerOf m.cm := by
  rw [diskHeader, decode_congr h.headed.1.2, decode_encode]

/-- The pointers of a manager, the snapshot that it belongs to, and its mode. -/
def namePart (w : World) : Bool × Bool × (Fin 16 → UInt8) × UInt64 × Bool :=
  (w.cm.sects.isSome, w.cm.filp, w.cm.uuid, w.cm.seqid, hasFlag w.cm.flags cowIndexOnly)

theorem indexOnly_markClean (isClean : Bool) (flags : UInt32) :
    hasFlag (markClean isClean flags) cowIndexOnly = hasFlag flags cowIndexOnly := by
  have hne : decide (cowIndexOnly = cowClean) = false := by decide
  cases isClean <;> simp [markClean, hne]

instance : Lasting namePart where
  clock _ _ := rfl
  file _ _ := rfl
  sections _ _ _ h := congrArg (·, _) h
  changed _ _ := rfl
  marked w b := by simp only [namePart, indexOnly_markClean]

theorem preserves_plain (h : plain a = true) : Preserves namePart (a.run ps) := by
  cases a with
  | readMapping pos => exact preserves_cowReadMapping.bind fun _ => preserves_pure
  | writeMapping pos val => exact preserves_cowWriteMapping
  | modifyCacheSize cacheSize => exact fun _ => rfl
  | writeCurrent block buf => exact preserves_cowWriteCurrent fun _ _ => rfl
  | init | reload | reopen | truncateToIndex | syncAndClose | syncAndFree => cases h

theorem allocSects_name {total : Nat} :
    wp (allocSects total) w (fun _ w' => w'.file = w.file ∧ namePart w' =
      (true, w.cm.filp, w.cm.uuid, w.cm.seqid, hasFlag w.cm.flags cowIndexOnly)) fun _ _ => True := by
  have hne : decide (cowIndexOnly = cowVmallocUpper) = false := by decide
  unfold wp allocSects
  split
  next h =>
    split at h
    next =>
      cases h
      exact ⟨rfl, rfl⟩
    next =>
      split at h
      next =>
        cases h
        refine ⟨rfl, ?_⟩
        simp only [namePart, Option.isSome_some, hasFlag_setFlag, hne, Bool.or_false]
      next => cases h
  next => trivial

theorem cowInit_name {fileMax : UInt64} {cacheSize : Nat} :
    wp (cowInit ps elements (cowSectionSize ps) cacheSize fileMax uuid seqid) w
      (fun _ w' => namePart w' = (true, true, uuid, seqid, false) ∧ diskHeader w' = headerOf w'.cm) fun _ _ => True := by
  rw [cowInit, wp_bind]
  refine allocManager_wp (fun _ => ?_) fun _ _ => trivial
  rw [wp_onError]
  refine wp_mono (E := fun _ _ => True) ?_ (fun _ _ h => h) fun _ _ _ => wp_true
  rw [fileCreate, wp_bind, wp_bind]
  refine wp_tick ?_ fun _ _ => trivial
  rw [wp_modify, wp_bind, wp_modifyCm, wp_bind]
  refine wp_mono allocSects_name (fun _ w₁ h₁ => ?_) fun _ _ _ => trivial
  rw [wp_bind]
  refine wp_mono (preserves_fileAllocate (g := namePart) w₁) (fun _ w₂ h₂ => ?_) fun _ _ _ => trivial
  have hname := h₂.trans h₁.2
  have hf : w₂.cm.filp = true := congrArg (fun n => n.2.1) hname
  refine wp_mono (wp_and (preserves_cowWriteHeader (g := namePart) w₂) (cowWriteHeader_wp false (.inl hf))) ?_
    fun _ _ _ => trivial
  rintro _ w₃ ⟨h₃, hw, _, _, hdisk⟩
  refine ⟨h₃.trans (hname.trans ?_), hdisk⟩
  simp [fresh, layout]

/-- The header of a close tells the snapshot, and that it is clean. -/
theorem sealed_name {fillAhead : Bool} (h₁ : cowSyncAndFreeSections ps 0 fillAhead w = .ok () w₁)
    (h₂ : cowWriteHeader true w₁ = .ok () w₂) (hf : w.cm.filp = true) :
    namePart w₂ = namePart w ∧ diskHeader w₂ = headerOf w₂.cm ∧ hasFlag w₂.cm.flags cowClean = true := by
  have hname := wp_ok (preserves_cowSyncAndFreeSections (g := namePart) w) h₁
  have hf₁ : w₁.cm.filp = true := (congrArg (fun n => n.2.1) hname).trans hf
  have hwritten := wp_ok (preserves_cowWriteHeader (g := namePart) w₁) h₂
  obtain ⟨hw, _, _, hdisk⟩ := wp_ok (cowWriteHeader_wp true (.inl hf₁)) h₂
  refine ⟨hwritten.trans hname, hdisk, ?_⟩
  rw [hw, markClean, if_pos rfl, hasFlag_setFlag]
  simp

/-- A COW file whose header names a snapshot. -/
structure Labelled (ps : Nat) (uuid : Fin 16 → UInt8) (seqid : UInt64) (w : World) : Prop where
  sound : ∃ m, Inv ps ⟨w, some m⟩
  series : (diskHeader w).uuid = uuid
  number : (diskHeader w).seqid = seqid

/-- The manager of the file names the same snapshot. -/
structure Managed (ps : Nat) (uuid : Fin 16 → UInt8) (seqid : UInt64) (indexOnly isOpen : Bool) (w : World) : Prop
    extends Labelled ps uuid seqid w where
  name : namePart w = (true, isOpen, uuid, seqid, indexOnly)

theorem Managed.sects (h : Managed ps uuid seqid indexOnly isOpen w) : w.cm.sects.isSome = true :=
  congrArg (fun n => n.1) h.name

theorem Managed.filp (h : Managed ps uuid seqid indexOnly isOpen w) : w.cm.filp = isOpen :=
  congrArg (fun n => n.2.1) h.name

theorem Managed.cm_uuid (h : Managed ps uuid seqid indexOnly isOpen w) : w.cm.uuid = uuid :=
  congrArg (fun n => n.2.2.1) h.name

theorem Managed.cm_seqid (h : Managed ps uuid seqid indexOnly isOpen w) : w.cm.seqid = seqid :=
  congrArg (fun n => n.2.2.2.1) h.name

theorem Managed.mode (h : Managed ps uuid seqid indexOnly isOpen w) : hasFlag w.cm.flags cowIndexOnly = indexOnly :=
  congrArg (fun n => n.2.2.2.2) h.name

/-- The header was written by the manager. -/
theorem Managed.of_header (hs : ∃ m, Inv ps ⟨w, some m⟩) (hname : namePart w = (true, isOpen, uuid, seqid, indexOnly))
    (hdisk : diskHeader w = headerOf w.cm) : Managed ps uuid seqid indexOnly isOpen w := by
  refine ⟨⟨hs, ?_, ?_⟩, hname⟩
  · rw [hdisk]
    exact congrArg (fun n => n.2.2.1) hname
  · rw [hdisk]
    exact congrArg (fun n => n.2.2.2.1) hname

theorem Labelled.sound_after (h : Labelled ps uuid seqid w) (h12 : 12 ≤ ps) (h16 : ps ≤ 16)
    (he : a.enabled w = true) (hsized : Cow.Protocol.Sized ps (.act a)) (hempty : emptied a w = false)
    (hok : a.run ps w = .ok () w') : ∃ m, Inv ps ⟨w', some m⟩ := by
  obtain ⟨m, hm⟩ := h.sound
  have hinv := inv_returned hm h12 h16 hsized he hok
  have hlast : lastAfter ps a w (some m) ≠ none := lastAfter_ne (Option.some_ne_none m) hempty
  obtain ⟨m', hm'⟩ := Option.ne_none_iff_exists'.mp hlast
  rw [hm'] at hinv
  exact ⟨m', hinv⟩

/-- What writes no header leaves the one that is there. -/
theorem Labelled.kept (h : Labelled ps uuid seqid w) (h12 : 12 ≤ ps) (h16 : ps ≤ 16)
    (he : a.enabled w = true) (hsized : Cow.Protocol.Sized ps (.act a)) (hempty : emptied a w = false)
    (hx : a.beforeHeader ps = none) (hok : a.run ps w = .ok () w') : Labelled ps uuid seqid w' := by
  obtain ⟨m, hm⟩ := h.sound
  have hinv := inv_returned hm h12 h16 hsized he hok
  have hlast : lastAfter ps a w (some m) = some m := by
    rw [lastAfter, completed, hx, hempty]
    rfl
  rw [hlast] at hinv
  have hsame : diskHeader w' = diskHeader w := (diskHeader_headed hinv).trans (diskHeader_headed hm).symm
  exact ⟨⟨m, hinv⟩, hsame ▸ h.series, hsame ▸ h.number⟩

theorem Managed.plain (h : Managed ps uuid seqid indexOnly true w) (h12 : 12 ≤ ps) (h16 : ps ≤ 16)
    (ha : plain a = true) (hok : returned ps a w = some w') : Managed ps uuid seqid indexOnly true w' := by
  have hrun := returned_iff.mp hok
  have hkeeps : Preserves namePart (a.run ps) := preserves_plain ha
  have hname := wp_ok (hkeeps w) hrun
  refine ⟨?_, hname.trans h.name⟩
  cases a with
  | readMapping pos => exact h.toLabelled.kept (a := .readMapping pos) h12 h16 h.sects trivial rfl rfl hrun
  | writeMapping pos val => exact h.toLabelled.kept (a := .writeMapping pos val) h12 h16 h.sects trivial rfl rfl hrun
  | writeCurrent block buf => exact h.toLabelled.kept (a := .writeCurrent block buf) h12 h16 h.sects trivial rfl rfl hrun
  | modifyCacheSize n => exact h.toLabelled.kept (a := .modifyCacheSize n) h12 h16 h.sects trivial rfl rfl hrun
  | init | reload | reopen | truncateToIndex | syncAndClose | syncAndFree => cases ha

theorem Managed.cut (h : Managed ps uuid seqid indexOnly true w) (h12 : 12 ≤ ps) (h16 : ps ≤ 16)
    (hok : returned ps .truncateToIndex w = some w') : Managed ps uuid seqid true true w' := by
  have hrun := returned_iff.mp hok
  have he : Act.truncateToIndex.enabled w = true := Bool.and_eq_true_iff.mpr ⟨h.sects, h.filp⟩
  refine ⟨h.toLabelled.kept h12 h16 he trivial rfl rfl hrun, ?_⟩
  have hname : wp cowTruncateToIndex w (fun _ v => namePart v = (true, true, uuid, seqid, true)) fun _ _ => True := by
    rw [cowTruncateToIndex, wp_bind, wp_modifyCm, wp_bind]
    refine wp_tick ?_ fun _ _ => trivial
    rw [wp_modify]
    have hold := h.name
    simp only [namePart, Prod.mk.injEq] at hold ⊢
    refine ⟨hold.1, hold.2.1, hold.2.2.1, hold.2.2.2.1, ?_⟩
    simp
  have hcut := wp_ok hname hrun
  exact hcut

theorem Managed.close (h : Managed ps uuid seqid indexOnly true w) (h12 : 12 ≤ ps) (h16 : ps ≤ 16)
    (hok : returned ps .syncAndClose w = some w') : Managed ps uuid seqid indexOnly false w' := by
  have hrun := returned_iff.mp hok
  have he : Act.syncAndClose.enabled w = true := Bool.and_eq_true_iff.mpr ⟨h.sects, h.filp⟩
  have hsound := h.toLabelled.sound_after h12 h16 he trivial rfl hrun
  obtain ⟨_, w₁, h₁, hrest⟩ := bind_ok.mp (onError_ok hrun)
  obtain ⟨_, w₂, h₂, hrest⟩ := bind_ok.mp hrest
  obtain ⟨_, w₃, h₃, hclose⟩ := bind_ok.mp hrest
  obtain ⟨hname, hdisk, _⟩ := sealed_name h₁ h₂ h.filp
  have hcm := wp_ok (preserves_getCowFileExtents w₂) h₃
  have hfile := wp_ok (getCowFileExtents_keeps (g := World.file) (fun _ _ _ => rfl) w₂) h₃
  cases hclose
  have hold := hname.trans h.name
  refine .of_header hsound ?_ ?_
  · simp only [namePart, Prod.mk.injEq] at hold ⊢
    rw [hcm]
    exact ⟨hold.1, rfl, hold.2.2⟩
  · change decode w₃.file.bytes = headerOf (fileClose w₃.cm)
    rw [hfile, hcm]
    exact hdisk

/-- A COW file that says which snapshot it is of. -/
structure Names (uuid : Fin 16 → UInt8) (seqid : UInt64) (f : ByteFile) : Prop where
  page : 4096 ≤ f.size
  magic : (decode f.bytes).magic = cowMagic
  series : (decode f.bytes).uuid = uuid
  number : (decode f.bytes).seqid = seqid

/-- A file that was closed in incremental mode. -/
structure Sealed (uuid : Fin 16 → UInt8) (seqid : UInt64) (f : ByteFile) : Prop extends Names uuid seqid f where
  clean : hasFlag (decode f.bytes).flags cowClean = true
  indexOnly : hasFlag (decode f.bytes).flags cowIndexOnly = true

theorem Labelled.names (h : Labelled ps uuid seqid w) : Names uuid seqid w.file := by
  obtain ⟨m, hm⟩ := h.sound
  have hdisk : decode w.file.bytes = headerOf m.cm := diskHeader_headed hm
  refine ⟨hm.headed.1.1, ?_, h.series, h.number⟩
  rw [hdisk]
  rfl

theorem Managed.free (h : Managed ps uuid seqid true true w) (h12 : 12 ≤ ps) (h16 : ps ≤ 16)
    (hok : returned ps .syncAndFree w = some w') : Sealed uuid seqid w'.file := by
  have hrun := returned_iff.mp hok
  obtain ⟨m, hm⟩ := h.toLabelled.sound_after h12 h16 (a := .syncAndFree) h.sects trivial rfl hrun
  obtain ⟨_, w₁, h₁, hrest⟩ := bind_ok.mp (onError_ok hrun)
  obtain ⟨_, w₂, h₂, hfree⟩ := bind_ok.mp hrest
  obtain ⟨hname, hdisk, hclean⟩ := sealed_name h₁ h₂ h.filp
  cases hfree
  have hold := hname.trans h.name
  simp only [namePart, Prod.mk.injEq] at hold
  have hheader : decode w₂.file.bytes = headerOf w₂.cm := hdisk
  refine ⟨⟨hm.headed.1.1, ?_, ?_, ?_⟩, ?_, ?_⟩ <;> rw [hheader]
  · rfl
  · exact hold.2.2.1
  · exact hold.2.2.2.1
  · exact hclean
  · exact hold.2.2.2.2

/-- A header that is opened names the snapshot that the manager then has. -/
theorem opened_name {resetVmalloc : Bool} (h : Labelled ps uuid seqid w)
    (hok : cowOpenHeader indexOnly resetVmalloc w₁ = .ok () w₂) (hfile : w₁.file = w.file) (hf : w₁.cm.filp = true) :
    namePart w₂ = (w₁.cm.sects.isSome, true, uuid, seqid, indexOnly) ∧ diskHeader w₂ = headerOf w₂.cm := by
  have hne : decide (cowIndexOnly = cowClean) = false := by decide
  have hne' : decide (cowIndexOnly = cowVmallocUpper) = false := by decide
  obtain ⟨m, hm⟩ := h.sound
  have hheaded := hm.headed
  rw [← hfile] at hheaded
  obtain ⟨m', hlast, _, hmode, hcm, hholds, _⟩ := wp_ok (cowOpenHeader_opens indexOnly resetVmalloc hf hheaded) hok
  cases hlast
  have hdisk := diskHeader_headed hm
  refine ⟨?_, by rw [diskHeader, decode_congr hholds.2, decode_encode]⟩
  have hseries : m.cm.uuid = uuid := by
    rw [← h.series, hdisk]
    rfl
  have hnumber : m.cm.seqid = seqid := by
    rw [← h.number, hdisk]
    rfl
  have hflags : hasFlag (opened m resetVmalloc w₁.cm).flags cowIndexOnly = hasFlag m.cm.flags cowIndexOnly := by
    cases resetVmalloc <;> simp [opened, hne, hne']
  rw [namePart, hcm, hflags, hmode]
  simp only [opened, hf, hseries, hnumber]

theorem fileOpen_ok (h : fileOpen w = .ok () w₁) :
    w₁ = { w with cm := { w.cm with filp := true }, clock := w.clock + 1 } := by
  have hopen := wp_ok (fileOpen_wp (E := fun _ _ => True) fun _ _ _ => trivial) h
  exact hopen

theorem Managed.reopen (h : Managed ps uuid seqid indexOnly false w) (h12 : 12 ≤ ps) (h16 : ps ≤ 16)
    (hok : returned ps .reopen w = some w') : Managed ps uuid seqid indexOnly true w' := by
  have hrun := returned_iff.mp hok
  have he : Act.reopen.enabled w = true := Bool.and_eq_true_iff.mpr ⟨h.sects, by rw [h.filp]; rfl⟩
  have hsound := h.toLabelled.sound_after h12 h16 he trivial rfl hrun
  rw [Act.run, cowReopen] at hrun
  obtain ⟨_, w₁, h₁, hrest⟩ := bind_ok.mp (onError_ok hrun)
  have hw₁ := fileOpen_ok h₁
  subst hw₁
  obtain ⟨_, w₂, hget, hopen⟩ := bind_ok.mp hrest
  cases hget
  obtain ⟨hname, hdisk⟩ := opened_name h.toLabelled hopen rfl rfl
  refine .of_header hsound (hname.trans ?_) hdisk
  have hsects := h.sects
  have hmode := h.mode
  simp only at hsects hmode ⊢
  rw [hsects, hmode]

theorem Labelled.rebooted {env : Env} (h : Labelled ps uuid seqid w) (henv : ∀ n, Within (env.fiemap n)) :
    Labelled ps uuid seqid (Lineage.rebooted env w) := by
  obtain ⟨m, hm⟩ := h.sound
  refine ⟨⟨m, ⟨fun _ hx => (by cases hx), henv⟩, hm.headed, fun hs => (by cases hs)⟩, h.series, h.number⟩

theorem Labelled.reload {cacheSize : Nat} (h : Labelled ps uuid seqid w) (h12 : 12 ≤ ps) (h16 : ps ≤ 16)
    (hs : w.cm.sects.isNone = true) (hok : returned ps (.reload elements cacheSize indexOnly) w = some w') :
    Managed ps uuid seqid indexOnly true w' := by
  have hrun := returned_iff.mp hok
  have hsound := h.sound_after (a := .reload elements cacheSize indexOnly) h12 h16 hs trivial rfl hrun
  rw [Act.run, cowReload] at hrun
  obtain ⟨_, w₀, h₀, hrest⟩ := bind_ok.mp hrun
  obtain ⟨_, w₁, h₁, hrest⟩ := bind_ok.mp (onError_ok hrest)
  obtain ⟨_, w₂, h₂, hrest⟩ := bind_ok.mp hrest
  obtain ⟨_, w₃, h₃, halloc⟩ := bind_ok.mp hrest
  have hw₀ : w₀.file = w.file := by
    have hfile := wp_ok (allocManager_wp (Q := fun _ v => v.file = w.file) (E := fun _ _ => True) (fun _ => rfl)
      fun _ _ => trivial) h₀
    exact hfile
  have hw₁ := fileOpen_ok h₁
  cases h₂
  subst hw₁
  obtain ⟨hname, hdisk⟩ := opened_name h h₃ hw₀ rfl
  obtain ⟨hfile, hsects⟩ := wp_ok allocSects_name halloc
  simp only [namePart, Prod.mk.injEq] at hname
  obtain ⟨-, hf, huuid, hseqid, hmode⟩ := hname
  refine ⟨⟨hsound, ?_, ?_⟩, ?_⟩
  · change (decode w'.file.bytes).uuid = uuid
    rw [hfile, ← huuid]
    exact congrArg CowHeader.uuid hdisk
  · change (decode w'.file.bytes).seqid = seqid
    rw [hfile, ← hseqid]
    exact congrArg CowHeader.seqid hdisk
  · rw [hsects, hf, huuid, hseqid, hmode]

theorem managed_made {env : Env} {fileMax : UInt64} {cacheSize : Nat} (hp : Sized ps elements)
    (henv : ∀ n, Within (env.fiemap n))
    (hok : returned ps (.init elements fileMax seqid cacheSize uuid) (machine env) = some w) :
    Managed ps uuid seqid false true w := by
  have hrun := returned_iff.mp hok
  have hsized : Cow.Protocol.Sized ps (.act (.init elements fileMax seqid cacheSize uuid)) := ⟨hp.pos, hp.fits⟩
  have hstart : Inv ps ⟨machine env, none⟩ := Cow.Crash.inv_start henv
  have hinv := inv_returned hstart hp.low hp.high hsized rfl hrun
  obtain ⟨m, hm, -⟩ := act_completed (a := .init elements fileMax seqid cacheSize uuid) rfl hp.low hp.high hsized rfl
    hstart.headed hstart.live hrun
  rw [hm] at hinv
  obtain ⟨hname, hdisk⟩ := wp_ok cowInit_name hrun
  exact .of_header ⟨m, hinv⟩ hname hdisk

/-- What the device has of its snapshot, the `n`-th of the series. -/
def Present (ps : Nat) (uuid : Fin 16 → UInt8) (n : Nat) (s : State) : Prop :=
  match s.phase with
  | .active => Managed ps uuid (UInt64.ofNat n) (!s.snapshot) true s.world
  | .truncating => s.snapshot = false ∧ ∃ indexOnly, Managed ps uuid (UInt64.ofNat n) indexOnly true s.world
  | .leaving old => s.snapshot = true ∧ Managed ps uuid (UInt64.ofNat n) true true old ∧
      Managed ps uuid (UInt64.ofNat n + 1) false true s.world
  | .dormant => Managed ps uuid (UInt64.ofNat n) (!s.snapshot) false s.world
  | .off => Labelled ps uuid (UInt64.ofNat n) s.world ∧ s.world.cm.sects.isNone = true

/-- Every file that was left is that of its snapshot, and the device has the one after them. -/
structure Known (ps : Nat) (uuid : Fin 16 → UInt8) (s : State) : Prop where
  left : ∀ i f, s.left[i]? = some f → Sealed uuid (UInt64.ofNat (i + 1)) f
  present : Present ps uuid (s.left.length + 1) s

theorem Known.of_present (h : Known ps uuid s) (hleft : s'.left = s.left)
    (hp : Present ps uuid (s.left.length + 1) s') : Known ps uuid s' := by
  refine ⟨?_, ?_⟩ <;> rw [hleft]
  · exact h.left
  · exact hp

theorem Known.act {old : Bool} (h : Known ps uuid s) (hp : Sized ps elements)
    (hs : step ps elements s (.act old a) = some s') : Known ps uuid s' := by
  obtain ⟨ha, hs⟩ := Option.ite_none_right_eq_some.mp hs
  obtain ⟨w, hside, hs⟩ := Option.bind_eq_some_iff.mp hs
  obtain ⟨w', hok, rfl⟩ := Option.map_eq_some_iff.mp hs
  have hpresent := h.present
  cases hphase : s.phase with
  | active =>
      cases old <;> simp only [State.side, hphase, Option.some.injEq, reduceCtorEq] at hside
      subst hside
      simp only [Present, hphase] at hpresent
      refine h.of_present rfl ?_
      simp only [Present, State.put, Bool.false_eq_true, if_false, hphase]
      exact hpresent.plain hp.low hp.high ha hok
  | truncating =>
      cases old <;> simp only [State.side, hphase, Option.some.injEq, reduceCtorEq] at hside
      subst hside
      simp only [Present, hphase] at hpresent
      obtain ⟨hmode, indexOnly, hmanaged⟩ := hpresent
      refine h.of_present rfl ?_
      simp only [Present, State.put, Bool.false_eq_true, if_false, hphase]
      exact ⟨hmode, indexOnly, hmanaged.plain hp.low hp.high ha hok⟩
  | leaving u =>
      simp only [Present, hphase] at hpresent
      obtain ⟨hmode, hold, hnew⟩ := hpresent
      cases old <;> simp only [State.side, hphase, Option.some.injEq] at hside <;> subst hside
      · refine h.of_present rfl ?_
        simp only [Present, State.put, Bool.false_eq_true, if_false, hphase]
        exact ⟨hmode, hold, hnew.plain hp.low hp.high ha hok⟩
      · refine h.of_present rfl ?_
        simp only [Present, State.put, if_true]
        exact ⟨hmode, hold.plain hp.low hp.high ha hok, hnew⟩
  | dormant | off => cases old <;> simp [State.side, hphase] at hside

theorem ofNat_succ (n : Nat) : UInt64.ofNat n + 1 = UInt64.ofNat (n + 1) := (UInt64.ofNat_add n 1).symm

/-- The step is taken in the phase in which it can be, by an action that returns. -/
theorem Known.step {a : Action} (h : Known ps uuid s) (hp : Sized ps elements) (hc : Proper s a)
    (hs : step ps elements s a = some s') : Known ps uuid s' := by
  have hpresent := h.present
  cases a with
  | act old a => exact h.act hp hs
  | transitionInc =>
      simp only [Lineage.step, tracerActiveSnapToInc] at hs
      split at hs <;> cases hs
      next hphase _ =>
        simp only [Present, hphase] at hpresent
        exact h.of_present rfl ⟨rfl, _, hpresent⟩
  | truncate =>
      simp only [Lineage.step] at hs
      split at hs
      next hphase =>
        obtain ⟨w, hok, rfl⟩ := Option.map_eq_some_iff.mp hs
        simp only [Present, hphase] at hpresent
        obtain ⟨hmode, _, hmanaged⟩ := hpresent
        refine h.of_present rfl ?_
        simp only [Present, hmode]
        exact hmanaged.cut hp.low hp.high hok
      next => cases hs
  | transitionSnap fileMax cacheSize env =>
      simp only [Lineage.step, tracerActiveIncToSnap] at hs
      split at hs
      next hphase hmode =>
        obtain ⟨w, hok, rfl⟩ := Option.map_eq_some_iff.mp hs
        simp only [Present, hphase, hmode] at hpresent
        rw [hpresent.cm_uuid, hpresent.cm_seqid] at hok
        exact h.of_present rfl ⟨rfl, hpresent, managed_made hp hc hok⟩
      next => cases hs
  | syncAndFree =>
      simp only [Lineage.step] at hs
      split at hs
      next old hphase =>
        obtain ⟨w, hok, rfl⟩ := Option.map_eq_some_iff.mp hs
        simp only [Present, hphase] at hpresent
        obtain ⟨hmode, hold, hnew⟩ := hpresent
        refine ⟨fun i f hf => ?_, ?_⟩
        · rcases Lib.Table.append_some hf with hf | ⟨rfl, rfl⟩
          · exact h.left i f hf
          · exact hold.free hp.low hp.high hok
        · simp only [Present, hmode, List.length_append, List.length_singleton]
          rw [← ofNat_succ (s.left.length + 1)]
          exact hnew
      next => cases hs
  | umount =>
      simp only [Lineage.step] at hs
      split at hs
      next hphase =>
        obtain ⟨w, hok, rfl⟩ := Option.map_eq_some_iff.mp hs
        simp only [Present, hphase] at hpresent
        exact h.of_present rfl (hpresent.close hp.low hp.high hok)
      next => cases hs
  | mount =>
      simp only [Lineage.step] at hs
      split at hs
      next hphase =>
        obtain ⟨w, hok, rfl⟩ := Option.map_eq_some_iff.mp hs
        simp only [Present, hphase] at hpresent
        exact h.of_present rfl (hpresent.reopen hp.low hp.high hok)
      next => cases hs
  | shutdown env =>
      simp only [Lineage.step] at hs
      split at hs <;> cases hs
      next hphase =>
        simp only [Present, hphase] at hpresent
        exact h.of_present rfl ⟨hpresent.toLabelled.rebooted hc, rfl⟩
  | reload snapshot cacheSize =>
      simp only [Lineage.step] at hs
      split at hs
      next hphase =>
        obtain ⟨w, hok, rfl⟩ := Option.map_eq_some_iff.mp hs
        simp only [Present, hphase] at hpresent
        exact h.of_present rfl (hpresent.1.reload hp.low hp.high hpresent.2 hok)
      next => cases hs

theorem known_reach (hp : Sized ps elements) (h₀ : Begins ps elements uuid s₀)
    (h : Reach (step ps elements) Proper s₀ s) : Known ps uuid s := by
  refine h.invariant ?_ fun _ _ _ hk hc hs => hk.step hp hc hs
  cases h₀ with
  | setup henv hok => exact ⟨fun i f hf => (by cases hf), managed_made hp henv hok⟩

theorem Known.live (h : Known ps uuid s) (hl : s.live = true) :
    s.world.cm.uuid = uuid ∧ s.world.cm.seqid = UInt64.ofNat s.files.length := by
  have hpresent := h.present
  cases hphase : s.phase with
  | off => simp [State.live, hphase] at hl
  | active | dormant =>
      simp only [Present, hphase] at hpresent
      simp only [State.files, hphase, List.length_append, List.length_singleton]
      exact ⟨hpresent.cm_uuid, hpresent.cm_seqid⟩
  | truncating =>
      simp only [Present, hphase] at hpresent
      obtain ⟨-, _, hmanaged⟩ := hpresent
      simp only [State.files, hphase, List.length_append, List.length_singleton]
      exact ⟨hmanaged.cm_uuid, hmanaged.cm_seqid⟩
  | leaving old =>
      simp only [Present, hphase] at hpresent
      obtain ⟨-, -, hnew⟩ := hpresent
      simp only [State.files, hphase, List.length_append, List.length_cons, List.length_nil]
      exact ⟨hnew.cm_uuid, hnew.cm_seqid.trans (ofNat_succ _)⟩

/-- The files of a series are those of its snapshots, one after the other. -/
theorem Known.files (h : Known ps uuid s) {i : Nat} {f : ByteFile} (hf : s.files[i]? = some f) :
    Names uuid (UInt64.ofNat (i + 1)) f := by
  have hpresent := h.present
  have hlast : ∀ {w : World} {l : List ByteFile}, (l ++ [w.file])[i]? = some f → l = s.left →
      Labelled ps uuid (UInt64.ofNat (s.left.length + 1)) w → Names uuid (UInt64.ofNat (i + 1)) f := by
    intro w l hf hl hw
    rcases Lib.Table.append_some hf with hf | ⟨rfl, rfl⟩
    · rw [hl] at hf
      exact (h.left i f hf).toNames
    · rw [hl]
      exact hw.names
  cases hphase : s.phase with
  | active | dormant =>
      simp only [Present, hphase] at hpresent
      simp only [State.files, hphase] at hf
      exact hlast hf rfl hpresent.toLabelled
  | truncating =>
      simp only [Present, hphase] at hpresent
      obtain ⟨-, _, hmanaged⟩ := hpresent
      simp only [State.files, hphase] at hf
      exact hlast hf rfl hmanaged.toLabelled
  | off =>
      simp only [Present, hphase] at hpresent
      simp only [State.files, hphase] at hf
      exact hlast hf rfl hpresent.1
  | leaving old =>
      simp only [Present, hphase] at hpresent
      obtain ⟨-, hold, hnew⟩ := hpresent
      simp only [State.files, hphase] at hf
      rw [List.append_cons] at hf
      rcases Lib.Table.append_some hf with hf | ⟨rfl, rfl⟩
      · exact hlast hf rfl hold.toLabelled
      · rw [List.length_append, List.length_singleton, ← ofNat_succ]
        exact hnew.names

/-- The ids of the files tell the snapshots of a series and those of other series apart. -/
theorem seqids_name_snapshots (hp : Sized ps elements) (h₀ : Begins ps elements uuid s₀)
    (h : Reach (step ps elements) Proper s₀ s) (hlen : s.files.length < 2 ^ 64) :
    (∀ i f, s.left[i]? = some f → Sealed uuid (UInt64.ofNat (i + 1)) f) ∧
    (s.live = true → s.world.cm.uuid = uuid ∧ s.world.cm.seqid.toNat = s.files.length ∧
      ∀ calls, Unhindered calls ⟨s.world.cm.uuid, s.world.cm.seqid⟩ →
        (∀ i f, s.files[i]? = some f → (UpdateImg.verifyFiles calls f = 0 ↔ i + 2 = s.files.length)) ∧
        ∀ elements' uuid' t₀ t, Sized ps elements' → Begins ps elements' uuid' t₀ →
          Reach (step ps elements') Proper t₀ t → uuid' ≠ uuid → ∀ f ∈ t.files, UpdateImg.verifyFiles calls f ≠ 0) := by
  have hknown := known_reach hp h₀ h
  refine ⟨hknown.left, fun hl => ?_⟩
  obtain ⟨huuid, hseqid⟩ := hknown.live hl
  refine ⟨huuid, ?_, fun calls hcalls => ⟨fun i f hf => ?_, ?_⟩⟩
  · rw [hseqid, UInt64.toNat_ofNat', Nat.mod_eq_of_lt hlen]
  · have hnames := hknown.files hf
    rw [verifyFiles_iff hcalls hnames.page hnames.magic, hnames.series, hnames.number, huuid, hseqid,
      and_iff_right rfl]
    have hbefore := seqid_before_iff 0 (List.getElem?_eq_some_iff.mp hf).1 hlen
    rwa [UInt64.zero_add, UInt64.zero_add] at hbefore
  · intro elements' uuid' t₀ t hp' ht₀ ht hne f hf hzero
    obtain ⟨i, hi⟩ := List.getElem?_of_mem hf
    have hnames := (known_reach hp' ht₀ ht).files hi
    obtain ⟨hsame, -⟩ := (verifyFiles_iff hcalls hnames.page hnames.magic).mp hzero
    exact hne (hnames.series.symm.trans (hsame.trans huuid))

/-- A machine on which every call is answered. -/
def calm : Env := Cow.Start.calm.env

theorem calm_faultless : calm.Faultless := Cow.Start.calm_faultless

theorem calm_found : ∀ n, Within (calm.fiemap n) := fun _ _ h => by cases h

theorem sized_eight : Sized 12 8 := ⟨le_rfl, by decide, by decide, by decide⟩

/-- A file for a device of eight blocks. -/
def make (k : UInt8) (seqid : UInt64) : Act := .init 8 65536 seqid 65536 fun _ => k

def made (k : UInt8) (seqid : UInt64) : World := Cow.Protocol.left ((make k seqid).run 12 (machine calm))

theorem made_returned (k : UInt8) (seqid : UInt64) :
    returned 12 (make k seqid) (machine calm) = some (made k seqid) ∧
      Cow.Start.Started 8 65536 seqid (fun _ => k) (made k seqid) ∧ (made k seqid).env = calm := by
  obtain ⟨w, hok, hstarted, henv⟩ := Cow.Start.cowInit_total 8 65536 seqid 65536 (fun _ => k) (w := machine calm)
    (by decide) (by decide) (by decide) calm_faultless
  have hrun : (make k seqid).run 12 (machine calm) = .ok () w := by
    rw [make, Act.run, cowSectionSize_four_kib]
    exact hok
  have hw : made k seqid = w := by rw [made, hrun]; rfl
  rw [hw]
  exact ⟨returned_iff.mpr hrun, hstarted, henv⟩

theorem begins_made (k : UInt8) : Begins 12 8 (fun _ => k) (.created (made k 1)) :=
  .setup calm_found (made_returned k 1).1

/-- A dormant cycle between two changes, the next snapshot, and the machine is started again. -/
def twoSnapshots : List Action :=
  [.transitionInc, .truncate, .act false (.writeMapping 5 1), .umount, .mount, .act false (.writeMapping 6 1),
   .transitionSnap 65536 65536 calm, .act true (.writeMapping 7 1), .syncAndFree, .act false (.writeCurrent 5 fun _ => 7), .umount, .shutdown calm,
   .reload true 65536]

theorem proper_twoSnapshots (s : State) : Allowed (step 12 8) Proper s twoSnapshots :=
  .cons trivial fun _ => .cons trivial fun _ => .cons trivial fun _ => .cons trivial fun _ => .cons trivial fun _ =>
    .cons trivial fun _ => .cons calm_found fun _ => .cons trivial fun _ => .cons trivial fun _ => .cons trivial fun _ =>
    .cons trivial fun _ => .cons calm_found fun _ => .cons trivial fun _ => trivial

theorem seqids_name_snapshots_example : ∃ (s : State) (f : ByteFile) (calls : UpdateImg.Calls),
    s.left = [f] ∧ s.snapshot = true ∧ s.world.cm.seqid.toNat = 2 ∧ UpdateImg.verifyFiles calls f = 0 ∧
      UpdateImg.verifyFiles calls s.world.file ≠ 0 ∧ UpdateImg.verifyFiles calls (made 4 1).file ≠ 0 := by
  have h : (run (step 12 8) (.created (made 3 1)) twoSnapshots).map
      (fun s => (s.snapshot, s.live, s.left.length, s.files.length)) = some (true, true, 1, 2) := by decide +kernel
  obtain ⟨s, hs, hv⟩ := Option.map_eq_some_iff.mp h
  simp only [Prod.mk.injEq] at hv
  obtain ⟨hmode, hlive, hleft, hfiles⟩ := hv
  obtain ⟨f, hf⟩ := List.length_eq_one_iff.mp hleft
  have hreach := Reach.init.run hs (proper_twoSnapshots (.created (made 3 1)))
  obtain ⟨-, hnames⟩ := seqids_name_snapshots sized_eight (begins_made 3) hreach (by rw [hfiles]; decide)
  obtain ⟨-, hseqid, haccepts⟩ := hnames hlive
  obtain ⟨hown, hother⟩ := haccepts _ (Chain.allMoved_unhindered _)
  have hall : s.files = [f, s.world.file] := by
    cases hphase : s.phase with
    | leaving old => simp [State.files, hphase, hf] at hfiles
    | active | truncating | dormant | off => simp [State.files, hphase, hf]
  rw [hall] at hown
  refine ⟨s, f, _, hf, hmode, hseqid.trans hfiles, (hown 0 f rfl).mpr rfl, fun hzero => ?_, ?_⟩
  · exact absurd ((hown 1 _ rfl).mp hzero) (by simp)
  · have hne : (fun _ => 4 : Fin 16 → UInt8) ≠ fun _ => 3 := fun h => absurd (congrFun h 0) (by decide)
    exact hother 8 _ _ _ sized_eight (begins_made 4) .init hne _ (List.mem_singleton_self _)

/-- A run has come to the snapshot after the `n`-th, of which nothing was stored yet. -/
structure Turned (n : Nat) (s : State) : Prop where
  reach : Reach (step 12 8) Proper (.created (made 3 1)) s
  snapshot : s.snapshot = true
  active : s.phase = .active
  files : s.left.length = n
  started : ∃ seqid uuid, Cow.Start.Started 8 65536 seqid uuid s.world
  env : s.world.env = calm

theorem Turned.next {n : Nat} (h : Turned n s) : ∃ t, Turned (n + 1) t := by
  obtain ⟨seqid, uuid, hstarted⟩ := h.started
  have hn : s.world.env.Faultless := by
    rw [h.env]
    exact calm_faultless
  have hl : Cow.Reopen.Live s.world := .of_started hstarted
  obtain ⟨_, w₁, hw₁, ⟨htame, -⟩, -⟩ := wp_total (wp_mono (Tracker.truncate_tame hl) (fun _ _ h => h)
    fun _ _ he => he.2 hn)
  have hl₁ := htame.live hl
  obtain ⟨w₂, hw₂, hstarted₂, henv₂⟩ := Cow.Start.cowInit_total 8 65536 (w₁.cm.seqid + 1) 65536 w₁.cm.uuid
    (w := machine calm) (by decide) (by decide) (by decide) calm_faultless
  obtain ⟨_, w₃, hw₃, -⟩ := wp_total (wp_mono (Cow.Sealing.cowSyncAndFree_wp hl₁.wf (.inl hl₁.filp))
    (fun _ _ h => h) fun _ _ he => he hl₁.filp (by rw [htame.env]; exact hn))
  have htruncate : returned 12 .truncateToIndex s.world = some w₁ := returned_iff.mpr hw₁
  have hfree : returned 12 .syncAndFree w₁ = some w₃ := returned_iff.mpr hw₃
  have hinit : returned 12 (.init 8 65536 (w₁.cm.seqid + 1) 65536 w₁.cm.uuid) (machine calm) = some w₂ := by
    refine returned_iff.mpr ?_
    rw [Act.run, cowSectionSize_four_kib]
    exact hw₂
  have h₁ : step 12 8 s .transitionInc = some ⟨false, s.world, .truncating, s.left⟩ := by
    simp only [step, tracerActiveSnapToInc, h.active, h.snapshot]
  have h₂ : step 12 8 ⟨false, s.world, .truncating, s.left⟩ .truncate = some ⟨false, w₁, .active, s.left⟩ := by
    simp only [step, htruncate, Option.map_some]
  have h₃ : step 12 8 ⟨false, w₁, .active, s.left⟩ (.transitionSnap 65536 65536 calm) =
      some ⟨true, w₂, .leaving w₁, s.left⟩ := by
    simp only [step, tracerActiveIncToSnap, hinit, Option.map_some]
  have h₄ : step 12 8 ⟨true, w₂, .leaving w₁, s.left⟩ .syncAndFree =
      some ⟨true, w₂, .active, s.left ++ [w₃.file]⟩ := by
    simp only [step, hfree, Option.map_some]
  have hcut := (h.reach.next (a := .transitionInc) (by exact trivial) h₁).next (a := .truncate) (by exact trivial) h₂
  have hleft := (hcut.next (a := .transitionSnap 65536 65536 calm) (by exact calm_found) h₃).next (a := .syncAndFree)
    (by exact trivial) h₄
  refine ⟨_, hleft, rfl, rfl, ?_, ⟨_, _, hstarted₂⟩, henv₂⟩
  rw [List.length_append, h.files, List.length_singleton]

theorem exists_turned (n : Nat) : ∃ s, Turned n s := by
  induction n with
  | zero =>
      obtain ⟨-, hstarted, henv⟩ := made_returned 3 1
      exact ⟨_, .init, rfl, rfl, rfl, ⟨_, _, hstarted⟩, henv⟩
  | succ n ih =>
      obtain ⟨s, hs⟩ := ih
      exact hs.next

/-- There are only so many sequence ids. -/
theorem seqids_wrap : ¬ ∀ (ps : Nat) (elements : UInt64) (uuid : Fin 16 → UInt8) (s₀ s : State), Sized ps elements →
    Begins ps elements uuid s₀ → Reach (step ps elements) Proper s₀ s → s.live = true →
    s.world.cm.seqid.toNat = s.files.length := by
  intro h
  obtain ⟨s, hs⟩ := exists_turned (2 ^ 64)
  have hlive : s.live = true := by rw [State.live, hs.active]
  have hcount := h 12 8 _ _ s sized_eight (begins_made 3) hs.reach hlive
  have hfiles : s.files.length = s.left.length + 1 := by simp [State.files, hs.active]
  have hlt := s.world.cm.seqid.toNat_lt
  have hmany := hs.files
  omega

end ElastioSnap.Incremental.Lineage
