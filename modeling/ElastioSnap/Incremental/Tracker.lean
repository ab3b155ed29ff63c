import ElastioSnap.Cow.Index
import ElastioSnap.Incremental.Marking
import ElastioSnap.Snapshot.Storage

namespace ElastioSnap.Incremental.Tracker

open Lib.Runs Lib.Outcome Lib.Flags Snapshot.Tracking Snapshot.Blocks IncTrace Marking
open Cow.Manager (World CowM cowIndexOnly)
open Cow.Section (indexAt Blank)
open Cow.Reopen (Live Steady)
open Cow.Sealing (Sealed)
open Cow.Lifecycle (cowFreeMembers cowModifyCacheSize cowTruncateToIndex cowSyncAndClose cowReopen fileClose)
open Snapshot.Machine (ownBlocks disk)
open Snapshot.CopyBeforeWrite (Original ownBlocks_sector)
open Snapshot.Storage (Sector)

/-- A write bio and what it writes. -/
structure Bio where
  sector : Nat
  data : Payload
  content : Nat → Sector

/-- A tracer in incremental mode. The bios in flight are those that the original function got from it and
that have not changed the base device yet. -/
structure Tracer where
  fail : Bool
  isFailed : Bool
  ssets : List SectorSet
  inFlight : List Bio

def Tracer.new : Tracer := ⟨false, false, [], []⟩

/-- A tracer that has failed lets the bio pass. -/
def incTraceBio (d : Device) (cow : CowFile) (alloc : Nat → Bool) (bio : Bio) (dev : Tracer) : Tracer :=
  if dev.fail then { dev with inFlight := dev.inFlight ++ [bio] }
  else
    let r := IncTrace.incTraceBio d cow alloc bio.sector bio.data
    { dev with fail := r.2, ssets := dev.ssets ++ r.1, inFlight := dev.inFlight ++ [bio] }

/-- A tracer in incremental mode with the base device and the COW manager, whose file is closed while the device
is dormant. -/
structure State where
  dev : Tracer
  base : Nat → Sector
  world : World
  dormant : Bool

inductive Action
  | trace (bio : Bio) (alloc : Nat → Bool)
  /-- A bio in flight reaches the base device. -/
  | land (n : Nat)
  /-- The COW file is written. -/
  | own (sector sectors : Nat) (content : Nat → Sector)
  | look
  | handle
  | modifyCacheSize (cacheSize : Nat)
  | truncate
  /-- The filesystem is unmounted, and mounted again. -/
  | toDormant
  | toActive
  | failure

def land (bio : Bio) (base : Nat → Sector) : Nat → Sector :=
  overwrite base bio.sector bio.data.sectors bio.content

/-- What a call of the COW manager leaves, whether it failed or not. -/
def leaves (x : CowM Unit) (w : World) : World :=
  match x w with
  | .ok _ w' | .error _ w' => w'

/-- The latch of the fail state in `inc_sset_thread`. -/
def lookFail (s : State) : State :=
  if s.dev.fail && !s.dev.isFailed then
    { s with dev := { s.dev with isFailed := true }, world := leaves cowFreeMembers s.world }
  else s

/-- The rest of a round of `inc_sset_thread`: it takes the first sector set and handles it. -/
def incHandleSset (d : Device) (s : State) : Option State :=
  match s.dev.ssets with
  | [] => none
  | sset :: rest =>
      let dev := { s.dev with ssets := rest }
      if s.dev.isFailed then some { s with dev := dev }
      else
        match writeFillers (IncTrace.incHandleSset d sset) s.world with
        | .ok _ w => some { s with dev := dev, world := w }
        | .error _ w => some { s with dev := { dev with fail := true }, world := w }

/-- The sset thread has handled all it had when the file is closed. -/
def tracerActiveToDormant (s : State) : Option State :=
  if s.dormant || !s.dev.ssets.isEmpty then none
  else
    match cowSyncAndClose 12 s.world with
    | .ok _ w => some { s with world := w, dormant := true }
    | .error _ w => some { s with dev := { s.dev with fail := true }, world := w }

def tracerDormantToActive (s : State) : Option State :=
  if s.dormant then
    match cowReopen s.world with
    | .ok _ w => some { s with dev := { s.dev with isFailed := false }, world := w, dormant := false }
    | .error _ w => some { s with dev := { s.dev with fail := true }, world := w }
  else none

def tracerReconfigure (cacheSize : Nat) (s : State) : State :=
  if s.dormant then s else { s with world := leaves (cowModifyCacheSize 12 cacheSize) s.world }

def step (d : Device) (cow : CowFile) (s : State) : Action → Option State
  | .trace bio alloc => some { s with dev := incTraceBio d cow alloc bio s.dev }
  | .land n =>
      s.dev.inFlight[n]?.map fun bio =>
        { s with dev := { s.dev with inFlight := s.dev.inFlight.eraseIdx n }, base := land bio s.base }
  | .own sector sectors content =>
      if ownBlocks d sector sectors then some { s with base := overwrite s.base sector sectors content } else none
  | .look => if s.dormant then none else some (lookFail s)
  | .handle => if s.dormant then none else incHandleSset d s
  | .modifyCacheSize cacheSize => some (tracerReconfigure cacheSize s)
  | .truncate => if s.dormant then none else some { s with world := leaves cowTruncateToIndex s.world }
  | .toDormant => tracerActiveToDormant s
  | .toActive => tracerDormantToActive s
  | .failure => some { s with dev := { s.dev with fail := true } }

/-- What every step of the tracer keeps of the COW manager. -/
structure Carried (w w' : World) : Prop where
  totalSects : w'.cm.totalSects = w.cm.totalSects
  dataOffset : w'.cm.dataOffset = w.cm.dataOffset
  uuid : w'.cm.uuid = w.cm.uuid
  seqid : w'.cm.seqid = w.cm.seqid
  env : w'.env = w.env
  indexOnly : hasFlag w.cm.flags cowIndexOnly = true → hasFlag w'.cm.flags cowIndexOnly = true
  reach : w.cm.dataOffset ≤ w.file.size → w'.cm.dataOffset ≤ w'.file.size

/-- What it keeps of one whose file stays open. -/
structure Tame (w w' : World) : Prop extends Carried w w' where
  live : Live w → Live w'
  blank : Live w → Blank w → Blank w'

/-- A manager that was `v` when its file was closed. -/
structure Shut (v w : World) : Prop where
  live : Live v
  blank : Blank v
  sealed : ∃ u extents clock, Sealed true v u ∧ w = { u with cm := fileClose u.cm, extents := extents, clock := clock }

def Ready (dormant : Bool) (w : World) : Prop :=
  match dormant with
  | false => Live w ∧ Blank w
  | true => ∃ v, Shut v w

variable {d : Device} {cow : CowFile} {w w' w'' : World} {s t : State} {b : Nat} {bs : List Nat}

theorem leaves_of {x : CowM Unit} {Q : World → Prop} (h : wp x w (fun _ => Q) fun _ => Q) : Q (leaves x w) := by
  unfold leaves
  split
  next _ w' hx => exact wp_ok h hx
  next _ w' hx => exact wp_error h hx

theorem Carried.refl (w : World) : Carried w w :=
  ⟨rfl, rfl, rfl, rfl, rfl, id, id⟩

theorem Carried.trans (h : Carried w w') (h' : Carried w' w'') : Carried w w'' where
  totalSects := h'.totalSects.trans h.totalSects
  dataOffset := h'.dataOffset.trans h.dataOffset
  uuid := h'.uuid.trans h.uuid
  seqid := h'.seqid.trans h.seqid
  env := h'.env.trans h.env
  indexOnly := h'.indexOnly ∘ h.indexOnly
  reach := h'.reach ∘ h.reach

theorem Tame.refl (w : World) : Tame w w where
  toCarried := .refl w
  live := id
  blank _ := id

theorem Tame.trans (h : Tame w w') (h' : Tame w' w'') : Tame w w'' where
  toCarried := h.toCarried.trans h'.toCarried
  live := h'.live ∘ h.live
  blank hl := h'.blank (h.live hl) ∘ h.blank hl

theorem Tame.ready (h : Tame w w') (hr : Ready false w) : Ready false w' :=
  ⟨h.live hr.1, h.blank hr.1 hr.2⟩

theorem Tame.of_steady (h : Steady w w') : Tame w w' where
  live _ := h.live
  blank _ := h.blank
  totalSects := h.totalSects
  dataOffset := h.dataOffset
  uuid := by rw [h.cm]
  seqid := by rw [h.cm]
  env := h.env
  indexOnly hf := by rw [h.mode]; exact hf
  reach hr := by rw [h.dataOffset]; exact hr.trans h.size

theorem Tame.of_put {pos val : UInt64} (h : Cow.Mapping.Put w w' pos val) : Tame w w' where
  live hl := hl.of_put h
  blank _ := h.blank
  totalSects := by rw [h.cm]
  dataOffset := by rw [h.cm]
  uuid := by rw [h.cm]
  seqid := by rw [h.cm]
  env := h.env
  indexOnly hf := by rw [h.cm]; exact hf
  reach hr := by rw [h.cm]; exact hr.trans h.file.size

theorem writeFillers_tame (hl : Live w) (hbs : ∀ b ∈ bs, b < 4096 * w.cm.totalSects) :
    wp (writeFillers bs) w (fun _ w' => Tame w w') (fun _ _ => True) := by
  induction bs generalizing w with
  | nil => exact .refl w
  | cons b bs ih =>
      have hb := hbs b List.mem_cons_self
      have hsmall := hl.wf.small
      have hto : (UInt64.ofNat b).toNat = b := by
        rw [UInt64.toNat_ofNat']
        exact Nat.mod_eq_of_lt (by omega)
      rw [writeFillers, wp_bind]
      apply wp_mono (Cow.Mapping.cowWriteMapping_wp hl.wf (by rw [hto]; exact hb) 1)
      · intro _ w₁ hput
        have h := Tame.of_put hput
        apply wp_mono (ih (h.live hl) fun b' hb' => by rw [h.totalSects]; exact hbs b' (List.mem_cons_of_mem _ hb'))
        · exact fun _ w₂ h' => h.trans h'
        · exact fun _ _ _ => trivial
      · exact fun _ _ _ => trivial

/-- A truncation to the header and the index, or none. -/
theorem tame_cut {flags : UInt32} {clock : Nat} (hl : Live w) (cut : Bool)
    (hf : hasFlag flags cowIndexOnly = true) :
    Tame w { w with
      cm := { w.cm with flags := flags }, clock := clock
      file := if cut then w.file.truncate w.cm.dataOffset else w.file } where
  live _ := by
    have hwf := hl.wf
    refine ⟨⟨hwf.live, .inl hl.filp, hwf.sectSize, hwf.dataOffset, hwf.small, hwf.cached, fun i hi hd hm => ?_⟩,
      hl.filp, hl.linked, hl.placed.above, hl.placed.fits⟩
    cases cut with
    | false => exact hwf.stored i hi hd hm
    | true =>
        change _ ≤ w.cm.dataOffset
        rw [hwf.dataOffset]
        exact Nat.add_le_add_left (Nat.mul_le_mul_left 32768 (Nat.succ_le_of_lt hi)) _
  blank _ hb := by
    refine hb.congr rfl rfl fun p _ hp => ?_
    cases cut with
    | false => rfl
    | true => exact if_pos (by rw [hl.wf.dataOffset]; exact hp)
  totalSects := rfl
  dataOffset := rfl
  uuid := rfl
  seqid := rfl
  env := rfl
  indexOnly _ := hf
  reach hr := by
    cases cut with
    | false => exact hr
    | true => exact le_rfl

/-- The truncation leaves the header and the index, and says so in the flags. -/
theorem truncate_tame (hl : Live w) :
    wp cowTruncateToIndex w
      (fun _ w' => (Tame w w' ∧ ∀ b, b < 4096 * w.cm.totalSects → indexAt w' b = indexAt w b) ∧
        hasFlag w'.cm.flags cowIndexOnly = true ∧ w'.file.size = w'.cm.dataOffset)
      (fun _ w' => (Tame w w' ∧ ∀ b, b < 4096 * w.cm.totalSects → indexAt w' b = indexAt w b) ∧
        ¬ w.env.Faultless) := by
  have hf : hasFlag (setFlag w.cm.flags cowIndexOnly) cowIndexOnly = true := by simp
  simp only [cowTruncateToIndex, wp_bind, Cow.Manager.wp_modifyCm]
  refine Cow.Manager.wp_tick ?_ fun e he => ⟨⟨tame_cut hl false hf, fun b hb => ?_⟩, fun h => ?_⟩
  · rw [wp_modify]
    refine ⟨⟨tame_cut hl true hf, fun b hb => ?_⟩, hf, rfl⟩
    exact Cow.Section.indexAt_congr hb rfl fun p _ hp => if_pos (by rw [hl.wf.dataOffset]; exact hp)
  · exact Cow.Section.indexAt_congr hb rfl fun _ _ _ => rfl
  · rw [h w.clock] at he
    cases he

theorem Shut.carried (h : Shut w w') : Carried w w' := by
  obtain ⟨u, extents, clock, hu, rfl⟩ := h.sealed
  constructor
  case totalSects =>
    change u.cm.totalSects = w.cm.totalSects
    rw [hu.cm]
  case dataOffset =>
    change u.cm.dataOffset = w.cm.dataOffset
    rw [hu.cm]
  case uuid =>
    change u.cm.uuid = w.cm.uuid
    rw [hu.cm]
  case seqid =>
    change u.cm.seqid = w.cm.seqid
    rw [hu.cm]
  case env => exact hu.env
  case indexOnly =>
    intro hf
    change hasFlag u.cm.flags cowIndexOnly = true
    rw [hu.cm, hasFlag_setFlag, hf, Bool.true_or]
  case reach =>
    intro hr
    change u.cm.dataOffset ≤ u.file.size
    rw [hu.cm]
    exact hr.trans hu.size

theorem Shut.index (h : Shut w w') (hb : b < 4096 * w.cm.totalSects) : indexAt w' b = indexAt w b := by
  obtain ⟨u, extents, clock, hu, rfl⟩ := h.sealed
  exact hu.index b hb

theorem cowSyncAndClose_shut (hl : Live w) (hb : Blank w) :
    wp (cowSyncAndClose 12) w (fun _ w' => Shut w w') (fun _ _ => True) :=
  wp_mono (Cow.Sealing.cowSyncAndClose_wp hl.wf hl.filp hl.placed)
    (fun _ _ h => ⟨hl, hb, h.imp fun _ hu => ⟨_, _, hu⟩⟩) fun _ _ _ => trivial

theorem cowReopen_grows (hpage : 4096 ≤ w.file.size) :
    wp cowReopen w (fun _ w' => w.file.size ≤ w'.file.size) (fun _ _ => True) := by
  rw [cowReopen, wp_onError]
  simp only [Cow.Manager.wp_modifyCm, wp_bind, Cow.Lifecycle.fileOpen, wp_get]
  refine Cow.Manager.wp_tick ?_ fun _ _ => trivial
  rw [wp_ite]
  split
  next =>
    rw [Cow.Manager.wp_modifyCm]
    generalize hv : ({ w with clock := w.clock + 1, cm := { w.cm with filp := true } } : World) = v
    have hf : v.cm.filp = true := by rw [← hv]
    have hfile : v.file = w.file := by rw [← hv]
    apply wp_mono (Cow.Header.cowOpenHeader_wp _ false hf (by rw [hfile]; exact hpage))
    · rintro _ v' ⟨-, -, hwrote, -⟩
      rw [← hfile]
      exact hwrote.size
    · exact fun _ _ _ => trivial
  next =>
    rw [wp_throw]
    trivial

/-- A file that was closed is opened as it was. -/
theorem cowReopen_shut {v : World} (h : Shut v w) :
    wp cowReopen w (fun _ w' => Ready false w' ∧ Carried w w' ∧
      ∀ b, b < 4096 * w.cm.totalSects → indexAt w' b = indexAt w b) (fun _ _ => True) := by
  have hshut := h.carried
  have hindex := fun b => h.index (b := b)
  obtain ⟨u, extents, clock, hu, rfl⟩ := h.sealed
  apply wp_mono (wp_and (Cow.Reopen.cowReopen_wp h.live hu rfl) (cowReopen_grows (by exact hu.page)))
  · rintro _ w' ⟨hs, hsize⟩
    have hv := Tame.of_steady hs
    refine ⟨⟨hs.live, hs.blank h.blank⟩, ?_, fun b hb => ?_⟩
    · refine ⟨hv.totalSects.trans hshut.totalSects.symm, hv.dataOffset.trans hshut.dataOffset.symm,
        hv.uuid.trans hshut.uuid.symm, hv.seqid.trans hshut.seqid.symm, hv.env.trans hshut.env.symm, fun hf => ?_,
        fun hr => ?_⟩
      · rw [hs.mode]
        change hasFlag u.cm.flags cowIndexOnly = true at hf
        rw [hu.cm, hasFlag_setFlag, show decide (cowIndexOnly = Cow.Manager.cowClean) = false by decide,
          Bool.or_false] at hf
        exact hf
      · rw [hv.dataOffset, ← hshut.dataOffset]
        exact hr.trans hsize
    · rw [hshut.totalSects] at hb
      rw [hs.index b hb, hindex b hb]
  · exact fun _ _ _ => trivial

/-- The blocks of a device have entries in the index. -/
def Indexed (d : Device) (w : World) : Prop :=
  d.size ≤ d.sectorsPerBlock * (4096 * w.cm.totalSects)

/-- A block of a sector set that waits. -/
def Marked (d : Device) (dev : Tracer) (b : Nat) : Prop :=
  ∃ sset ∈ dev.ssets, b ∈ IncTrace.incHandleSset d sset

/-- A block that the tracer knows to be changed. -/
def Recorded (d : Device) (s : State) (b : Nat) : Prop :=
  indexAt s.world b ≠ 0 ∨ Marked d s.dev b

/-- A sector of a bio that is not the COW file's. -/
def Bio.Changes (resident : Bool) (inode : Nat) (bio : Bio) (x : Nat) : Prop :=
  Marking.Writes resident inode bio.sector bio.data x

/-- A step as the block layer and the filesystem make it: bios lie in the device and are not discards, and
pages of a COW file on the device go to its own blocks. -/
def Proper (d : Device) (resident : Bool) (inode : Nat) : Action → Prop
  | .trace bio _ => Traced d bio.sector bio.data ∧
      ∀ x, bio.sector ≤ x → x < bio.sector + bio.data.sectors → ¬ bio.Changes resident inode x →
        d.owned (d.block x) = true
  | _ => True

/-- The invariant of the tracer as long as it has not failed. -/
structure Tracking (d : Device) (s : State) : Prop where
  ready : Ready s.dormant s.world
  isFailed : s.dev.isFailed = false
  indexed : Indexed d s.world
  marked : ∀ b, Marked d s.dev b → b < 4096 * s.world.cm.totalSects

/-- The blocks that a step makes known as changed. -/
def Adds (d : Device) (resident : Bool) (inode : Nat) (a : Action) (b : Nat) : Prop :=
  match a with
  | .trace bio _ => ∃ x, d.block x = b ∧ bio.Changes resident inode x
  | _ => False

/-- What a step of a tracer that does not fail in it comes to. -/
structure Advances (d : Device) (P : Nat → Prop) (s t : State) : Prop where
  tracking : Tracking d t
  carried : Carried s.world t.world
  recorded : ∀ b, b < 4096 * s.world.cm.totalSects → (Recorded d t b ↔ Recorded d s b ∨ P b)

variable {resident : Bool} {inode : Nat} {P : Nat → Prop} {bio : Bio} {alloc : Nat → Bool}

theorem step_fails {a : Action} (hst : step d cow s a = some t) (hf : s.dev.fail = true) : t.dev.fail = true := by
  cases a with
  | trace bio alloc =>
      cases hst
      simp only [incTraceBio, hf, if_true]
  | land n =>
      obtain ⟨bio, -, rfl⟩ := Option.map_eq_some_iff.mp hst
      exact hf
  | own sector sectors content =>
      simp only [step] at hst
      split at hst
      · cases hst
        exact hf
      · cases hst
  | look =>
      simp only [step] at hst
      split at hst
      · cases hst
      · cases hst
        unfold lookFail
        split <;> exact hf
  | handle =>
      simp only [step, incHandleSset] at hst
      split at hst
      · cases hst
      · split at hst
        · cases hst
        · split at hst
          · cases hst
            exact hf
          · split at hst
            · cases hst
              exact hf
            · cases hst
              rfl
  | modifyCacheSize cacheSize =>
      cases hst
      unfold tracerReconfigure
      split <;> exact hf
  | truncate =>
      simp only [step] at hst
      split at hst
      · cases hst
      · cases hst
        exact hf
  | toDormant =>
      simp only [step, tracerActiveToDormant] at hst
      split at hst
      · cases hst
      · split at hst
        · cases hst
          exact hf
        · cases hst
          rfl
  | toActive =>
      simp only [step, tracerDormantToActive] at hst
      split at hst
      · split at hst
        · cases hst
          exact hf
        · cases hst
          rfl
      · cases hst
  | failure =>
      cases hst
      rfl

theorem intact_back {a : Action} (hst : step d cow s a = some t) (hf : t.dev.fail = false) : s.dev.fail = false := by
  by_contra hs
  rw [Bool.not_eq_false] at hs
  rw [step_fails hst hs] at hf
  cases hf

/-- A step that changes neither the queue nor the index. -/
theorem Tracking.still (h : Tracking d s) (hP : ∀ b, ¬ P b) (hf : t.dev.isFailed = false)
    (hq : t.dev.ssets = s.dev.ssets) (hr : Ready t.dormant t.world) (hc : Carried s.world t.world)
    (hi : ∀ b, b < 4096 * s.world.cm.totalSects → indexAt t.world b = indexAt s.world b) : Advances d P s t where
  tracking := by
    refine ⟨hr, hf, ?_, ?_⟩
    · rw [Indexed, hc.totalSects]
      exact h.indexed
    · rw [hc.totalSects]
      unfold Marked
      rw [hq]
      exact h.marked
  carried := hc
  recorded b hb := by
    rw [Recorded, Recorded, Marked, Marked, hi b hb, hq]
    exact (or_iff_left (hP b)).symm

/-- A step that leaves the COW manager alone. -/
theorem Tracking.aside (h : Tracking d s) (hP : ∀ b, ¬ P b) (hf : t.dev.isFailed = false)
    (hq : t.dev.ssets = s.dev.ssets) (hd : t.dormant = s.dormant) (hw : t.world = s.world) : Advances d P s t := by
  refine h.still hP hf hq ?_ ?_ ?_ <;> rw [hw]
  · rw [hd]
    exact h.ready
  · exact .refl _
  · exact fun _ _ => rfl

/-- A block that a bio changes has an entry in the index. -/
theorem changed_lt {x n : Nat} (hroom : d.size ≤ d.sectorsPerBlock * n) (ht : Traced d bio.sector bio.data)
    (hx : bio.Changes resident inode x) : d.block x < n := by
  obtain ⟨hlo, hhi⟩ := Marking.writes_between hx ht.discard
  have hfirst := ht.first
  have hlast := ht.last
  exact Nat.div_lt_of_lt_mul (by omega)

/-- A tracer that does not fail in it marks exactly what the bio changes. -/
theorem incTraceBio_marked {dev : Tracer} (hp : Traced d bio.sector bio.data)
    (hf : (incTraceBio d ⟨resident, some inode⟩ alloc bio dev).fail = false) (hs : dev.fail = false) (b : Nat) :
    Marked d (incTraceBio d ⟨resident, some inode⟩ alloc bio dev) b ↔
      Marked d dev b ∨ ∃ x, d.block x = b ∧ bio.Changes resident inode x := by
  have hok : (IncTrace.incTraceBio d ⟨resident, some inode⟩ alloc bio.sector bio.data).2 = false := by
    simpa only [incTraceBio, hs, Bool.false_eq_true, if_false] using hf
  simp only [Marked, incTraceBio, hs, Bool.false_eq_true, if_false, List.mem_append, or_and_right, exists_or]
  apply or_congr_right
  exact ⟨marked_changed hp, changed_marked hp hok⟩

theorem Tracking.trace (h : Tracking d s) (hp : Traced d bio.sector bio.data) (hs : s.dev.fail = false)
    (hf : (incTraceBio d ⟨resident, some inode⟩ alloc bio s.dev).fail = false) :
    Advances d (fun b => ∃ x, d.block x = b ∧ bio.Changes resident inode x) s
      { s with dev := incTraceBio d ⟨resident, some inode⟩ alloc bio s.dev } := by
  have hmarked := incTraceBio_marked hp hf hs
  constructor
  case tracking =>
    refine ⟨h.ready, ?_, h.indexed, fun b hb => ?_⟩
    · simp only [incTraceBio, hs, Bool.false_eq_true, if_false]
      exact h.isFailed
    · rcases (hmarked b).mp hb with hb | ⟨x, rfl, hx⟩
      · exact h.marked b hb
      · exact changed_lt h.indexed hp hx
  case carried => exact .refl _
  case recorded =>
    intro b _
    rw [Recorded, Recorded, or_assoc]
    exact or_congr_right (hmarked b)

theorem Tracking.awake (h : Tracking d s) (hd : ¬ s.dormant = true) : Ready false s.world := by
  rw [Bool.not_eq_true] at hd
  have hr := h.ready
  rw [hd] at hr
  exact hr

theorem Tracking.handle (h : Tracking d s) (hP : ∀ b, ¬ P b) (hd : ¬ s.dormant = true)
    (hst : incHandleSset d s = some t) (hf : t.dev.fail = false) : Advances d P s t := by
  have hr := h.awake hd
  simp only [incHandleSset] at hst
  split at hst
  next => cases hst
  next sset rest hq =>
    rw [h.isFailed, if_neg Bool.false_ne_true] at hst
    have hbs : ∀ b ∈ IncTrace.incHandleSset d sset, b < 4096 * s.world.cm.totalSects :=
      fun b hb => h.marked b ⟨sset, by rw [hq]; exact List.mem_cons_self, hb⟩
    have hrest : ∀ b, Marked d { s.dev with ssets := rest } b → Marked d s.dev b := by
      rintro b ⟨x, hx, hb⟩
      exact ⟨x, by rw [hq]; exact List.mem_cons_of_mem _ hx, hb⟩
    split at hst
    next _ w hw =>
      cases hst
      have hm := wp_ok (writeFillers_wp hr.1.wf hbs) hw
      have ht := wp_ok (writeFillers_tame hr.1 hbs) hw
      refine ⟨⟨?_, rfl, ?_, fun b hb => ?_⟩, ht.toCarried, fun b hb => ?_⟩
      · dsimp only
        rw [Bool.not_eq_true] at hd
        rw [hd]
        exact ht.ready hr
      · rw [Indexed, ht.totalSects]
        exact h.indexed
      · rw [ht.totalSects]
        exact h.marked b (hrest b hb)
      · rw [Recorded, Recorded, Marked, Marked, hm.marked b hb, hq]
        simp only [List.mem_cons, exists_eq_or_imp, or_assoc, hP b, or_false]
    next =>
      cases hst
      cases hf

/-- A step of the manager whose file stays open. -/
theorem Tracking.stays {w : World} (h : Tracking d s) (hP : ∀ b, ¬ P b) (hd : ¬ s.dormant = true) (ht : Tame s.world w)
    (hi : ∀ b, b < 4096 * s.world.cm.totalSects → indexAt w b = indexAt s.world b) :
    Advances d P s { s with world := w } := by
  refine h.still hP h.isFailed rfl ?_ ht.toCarried hi
  have hr := h.awake hd
  rw [Bool.not_eq_true] at hd
  dsimp only
  rw [hd]
  exact ht.ready hr

theorem Tracking.toDormant (h : Tracking d s) (hP : ∀ b, ¬ P b) (hst : tracerActiveToDormant s = some t)
    (hf : t.dev.fail = false) : Advances d P s t := by
  unfold tracerActiveToDormant at hst
  split at hst
  next => cases hst
  next hgo =>
    rw [Bool.or_eq_true, not_or] at hgo
    have hr := h.awake hgo.1
    split at hst
    next _ w hw =>
      cases hst
      have hshut := wp_ok (cowSyncAndClose_shut hr.1 hr.2) hw
      exact h.still hP h.isFailed rfl ⟨s.world, hshut⟩ hshut.carried fun b hb => hshut.index hb
    next =>
      cases hst
      cases hf

theorem Tracking.toActive (h : Tracking d s) (hP : ∀ b, ¬ P b) (hst : tracerDormantToActive s = some t)
    (hf : t.dev.fail = false) : Advances d P s t := by
  unfold tracerDormantToActive at hst
  split at hst
  next hd =>
    have hr := h.ready
    rw [hd] at hr
    obtain ⟨v, hshut⟩ := hr
    split at hst
    next _ w hw =>
      cases hst
      obtain ⟨hready, hcarried, hindex⟩ := wp_ok (cowReopen_shut hshut) hw
      exact h.still hP rfl rfl hready hcarried hindex
    next =>
      cases hst
      cases hf
  next => cases hst

theorem Tracking.step {a : Action} (h : Tracking d s) (hp : Proper d resident inode a)
    (hst : Tracker.step d ⟨resident, some inode⟩ s a = some t) (hf : t.dev.fail = false) :
    Advances d (Adds d resident inode a) s t := by
  have hs := intact_back hst hf
  cases a with
  | trace bio alloc =>
      cases hst
      exact h.trace hp.1 hs hf
  | land n =>
      obtain ⟨bio, -, rfl⟩ := Option.map_eq_some_iff.mp hst
      exact h.aside (fun _ => id) h.isFailed rfl rfl rfl
  | own sector sectors content =>
      simp only [Tracker.step] at hst
      split at hst
      · cases hst
        exact h.aside (fun _ => id) h.isFailed rfl rfl rfl
      · cases hst
  | look =>
      simp only [Tracker.step, lookFail, hs, Bool.false_and, Bool.false_eq_true, if_false] at hst
      split at hst
      · cases hst
      · cases hst
        exact h.aside (fun _ => id) h.isFailed rfl rfl rfl
  | handle =>
      simp only [Tracker.step] at hst
      split at hst
      · cases hst
      · exact h.handle (fun _ => id) ‹_› hst hf
  | modifyCacheSize cacheSize =>
      cases hst
      unfold tracerReconfigure
      split
      next => exact h.aside (fun _ => id) h.isFailed rfl rfl rfl
      next hd =>
        have hsteady : Steady s.world (leaves (cowModifyCacheSize 12 cacheSize) s.world) :=
          leaves_of (Cow.Reopen.cowModifyCacheSize_wp cacheSize (h.awake hd).1)
        exact h.stays (fun _ => id) hd (.of_steady hsteady) hsteady.index
  | truncate =>
      simp only [Tracker.step] at hst
      split at hst
      next => cases hst
      next hd =>
        cases hst
        have hcut : Tame s.world (leaves cowTruncateToIndex s.world) ∧ ∀ b, b < 4096 * s.world.cm.totalSects →
            indexAt (leaves cowTruncateToIndex s.world) b = indexAt s.world b :=
          leaves_of (wp_mono (truncate_tame (h.awake hd).1) (fun _ _ hw => hw.1) fun _ _ hw => hw.1)
        exact h.stays (fun _ => id) hd hcut.1 hcut.2
  | toDormant => exact h.toDormant (fun _ => id) hst hf
  | toActive => exact h.toActive (fun _ => id) hst hf
  | failure =>
      cases hst
      cases hf

/-- Whatever differs from an earlier content of the device, or is about to, is in blocks that are accounted
for. The blocks of the COW file are left out. -/
structure Accounts (d : Device) (b₀ : Nat → Sector) (R : Nat → Prop) (base : Nat → Sector) (inFlight : List Bio) :
    Prop where
  base : ∀ b, d.owned b = false → Original d b₀ base b ∨ R b
  inFlight : ∀ bio ∈ inFlight, ∀ b, d.Overlaps bio.sector bio.data.sectors b → d.owned b = false → R b

variable {b₀ base : Nat → Sector} {R R' : Nat → Prop} {inFlight : List Bio}

theorem Accounts.mono (h : Accounts d b₀ R base inFlight) (hR : ∀ b, R b → R' b) :
    Accounts d b₀ R' base inFlight where
  base b hb := (h.base b hb).imp_right (hR b)
  inFlight bio hm b ho hb := hR b (h.inFlight bio hm b ho hb)

theorem Accounts.overwrite {sector sectors : Nat} {content : Nat → Sector} (h : Accounts d b₀ R base inFlight)
    (hR : ∀ b, d.Overlaps sector sectors b → d.owned b = false → R b) :
    Accounts d b₀ R (overwrite base sector sectors content) inFlight where
  base b hb := by
    by_cases ho : d.Overlaps sector sectors b
    · exact .inr (hR b ho hb)
    · refine (h.base b hb).imp_left fun horig o hlt => ?_
      rw [overwrite_other hlt ho]
      exact horig o hlt
  inFlight := h.inFlight

theorem Accounts.land {n : Nat} (h : Accounts d b₀ R base inFlight) (hn : inFlight[n]? = some bio) :
    Accounts d b₀ R (land bio base) (inFlight.eraseIdx n) where
  base := (h.overwrite (h.inFlight bio (List.mem_of_getElem? hn))).base
  inFlight x hx := h.inFlight x (List.mem_of_mem_eraseIdx hx)

theorem Accounts.own {sector sectors : Nat} {content : Nat → Sector} (h : Accounts d b₀ R base inFlight)
    (ho : ownBlocks d sector sectors = true) :
    Accounts d b₀ R (Snapshot.Tracking.overwrite base sector sectors content) inFlight := by
  refine h.overwrite fun b hov hb => ?_
  rw [ownBlocks_sector ho hov] at hb
  cases hb

/-- A bio is in flight once the blocks it changes are accounted for. -/
theorem Accounts.send (h : Accounts d b₀ R base inFlight) (hp : Proper d resident inode (.trace bio alloc))
    (hR : ∀ b, (∃ x, d.block x = b ∧ bio.Changes resident inode x) → R b) :
    Accounts d b₀ R base (inFlight ++ [bio]) where
  base := h.base
  inFlight y hy b hov hb := by
    rcases List.mem_append.mp hy with hy | hy
    · exact h.inFlight y hy b hov hb
    · rw [List.mem_singleton.mp hy] at hov
      obtain ⟨x, hlo, hhi, rfl⟩ := hov
      refine hR _ ⟨x, rfl, ?_⟩
      by_contra hx
      rw [hp.2 x hlo hhi hx] at hb
      cases hb

theorem accounts_step {a : Action} (h : Accounts d b₀ R s.base s.dev.inFlight) (hp : Proper d resident inode a)
    (hst : step d ⟨resident, some inode⟩ s a = some t) (hR : ∀ b, R b → R' b)
    (hadds : ∀ b, Adds d resident inode a b → R' b) : Accounts d b₀ R' t.base t.dev.inFlight := by
  have h' := h.mono hR
  cases a with
  | trace bio alloc =>
      cases hst
      have hflight : (incTraceBio d ⟨resident, some inode⟩ alloc bio s.dev).inFlight = s.dev.inFlight ++ [bio] := by
        unfold incTraceBio
        split <;> rfl
      rw [hflight]
      exact h'.send hp hadds
  | land n =>
      obtain ⟨bio, hn, rfl⟩ := Option.map_eq_some_iff.mp hst
      exact h'.land hn
  | own sector sectors content =>
      simp only [step] at hst
      split at hst
      · cases hst
        exact h'.own ‹_›
      · cases hst
  | look =>
      simp only [step] at hst
      split at hst
      · cases hst
      · cases hst
        unfold lookFail
        split <;> exact h'
  | handle =>
      simp only [step, incHandleSset] at hst
      split at hst
      · cases hst
      · split at hst
        · cases hst
        · split at hst
          · cases hst
            exact h'
          · split at hst <;> cases hst <;> exact h'
  | modifyCacheSize cacheSize =>
      cases hst
      unfold tracerReconfigure
      split <;> exact h'
  | truncate =>
      simp only [step] at hst
      split at hst
      · cases hst
      · cases hst
        exact h'
  | toDormant =>
      simp only [step, tracerActiveToDormant] at hst
      split at hst
      · cases hst
      · split at hst <;> cases hst <;> exact h'
  | toActive =>
      simp only [step, tracerDormantToActive] at hst
      split at hst
      · split at hst <;> cases hst <;> exact h'
      · cases hst
  | failure =>
      cases hst
      exact h'

/-- A run of a tracer that has not failed. -/
structure Ran (d : Device) (resident : Bool) (inode : Nat) (s₀ : State) (as : List Action) (s : State) : Prop where
  advances : Advances d (fun b => ∃ a ∈ as, Adds d resident inode a b) s₀ s
  accounts : s₀.dev.inFlight = [] →
    Accounts d s₀.base (fun b => ∃ a ∈ as, Adds d resident inode a b) s.base s.dev.inFlight

/-- In a run that has not failed the tracer knows of exactly those blocks that it knew of at the start, and of
those that the bios traced meanwhile write, other than with pages of its own COW file. Only such blocks and
those of the COW file have changed on the base device. -/
theorem records_exactly {as : List Action} {s₀ : State} (h₀ : Tracking d s₀)
    (hproper : ∀ a ∈ as, Proper d resident inode a) (hrun : run (step d ⟨resident, some inode⟩) s₀ as = some s)
    (hf : s.dev.fail = false) :
    (∀ b, b < 4096 * s₀.world.cm.totalSects →
      (Recorded d s b ↔ Recorded d s₀ b ∨ ∃ a ∈ as, Adds d resident inode a b)) ∧
    (s₀.dev.inFlight = [] → ∀ b, d.owned b = false → (¬ ∃ a ∈ as, Adds d resident inode a b) →
      ∀ o, o < d.sectorsPerBlock → s.base (d.sector b o) = s₀.base (d.sector b o)) := by
  have hran : Ran d resident inode s₀ as s := by
    refine run_invariant (I := fun as s => (∀ a ∈ as, Proper d resident inode a) → s.dev.fail = false →
      Ran d resident inode s₀ as s) ?_ ?_ hrun hproper hf
    · intro _ _
      have hnone : ∀ b, ¬ ∃ a ∈ ([] : List Action), Adds d resident inode a b := by simp
      refine ⟨⟨h₀, .refl _, fun b _ => (or_iff_left (hnone b)).symm⟩, fun hnil => ?_⟩
      rw [hnil]
      exact ⟨fun _ _ => .inl fun _ _ => rfl, fun _ hm => by cases hm⟩
    · intro as s a t hs hstep hproper hft
      have hsplit : ∀ b, (∃ x ∈ as ++ [a], Adds d resident inode x b) ↔
          (∃ x ∈ as, Adds d resident inode x b) ∨ Adds d resident inode a b := by
        intro b
        simp only [List.mem_append, List.mem_singleton, or_and_right, exists_or, exists_eq_left]
      have hlast := hproper a (List.mem_append_right _ List.mem_cons_self)
      obtain ⟨hadv, hacc⟩ := hs (fun x hx => hproper x (List.mem_append_left _ hx)) (intact_back hstep hft)
      have hone := hadv.tracking.step hlast hstep hft
      refine ⟨⟨hone.tracking, hadv.carried.trans hone.carried, fun b hb => ?_⟩, fun hnil => ?_⟩
      · rw [hone.recorded b (by rw [hadv.carried.totalSects]; exact hb), hadv.recorded b hb, hsplit, or_assoc]
      · exact accounts_step (hacc hnil) hlast hstep (fun b hb => (hsplit b).mpr (.inl hb))
          fun b hb => (hsplit b).mpr (.inr hb)
  exact ⟨hran.advances.recorded, fun hnil b hb hno => ((hran.accounts hnil).base b hb).resolve_right hno⟩

/-- A write over the end of the first block. -/
def acrossBio : Bio := ⟨4, acrossBlocks, fun _ _ => 1⟩

theorem acrossBio_proper : Proper disk true 7 (.trace acrossBio fun _ => true) :=
  ⟨acrossBlocks_traced, fun _ hlo hhi hx => absurd (.inl ⟨hlo, hhi, by decide⟩) hx⟩

theorem tracking_started (h : Cow.Start.Started 16 1048576 1 (fun _ => 0) w) (ht : w.cm.totalSects = 1) :
    Tracking disk ⟨.new, base, w, false⟩ where
  ready := ⟨.of_started h, Cow.Reload.blank_started h⟩
  isFailed := rfl
  indexed := by
    rw [Indexed, ht]
    decide
  marked b := by
    rintro ⟨_, hm, _⟩
    cases hm

theorem records_exactly_example : ∃ (s₀ s : State),
    run (step disk ⟨true, some 7⟩) s₀ [.trace acrossBio fun _ => true, .land 0, .handle] = some s ∧
      indexAt s.world 1 ≠ 0 ∧ ¬ Recorded disk s 2 := by
  obtain ⟨w, -, hstarted, htotal, henv⟩ := started_disk
  have h₀ : Tracking disk ⟨.new, fun _ _ => 0, w, false⟩ := tracking_started hstarted htotal
  obtain ⟨_, w', hw', -⟩ := wp_total (wp_mono
    (@writeFillers_wp w (IncTrace.incHandleSset disk ⟨4, 8⟩) hstarted.wf (by rw [htotal]; decide))
    (fun _ _ h => h) fun _ _ he => he hstarted.filp (by rw [henv]; exact Cow.Start.calm_faultless))
  have hrun : run (step disk ⟨true, some 7⟩) ⟨.new, fun _ _ => 0, w, false⟩
      [.trace acrossBio fun _ => true, .land 0, .handle] =
      some ⟨⟨false, false, [], []⟩, land acrossBio fun _ _ => 0, w', false⟩ := by
    have hfirst : run (step disk ⟨true, some 7⟩) ⟨.new, fun _ _ => 0, w, false⟩ [.trace acrossBio fun _ => true, .land 0] =
        some ⟨⟨false, false, [⟨4, 8⟩], []⟩, land acrossBio fun _ _ => 0, w, false⟩ := rfl
    have hhandle : incHandleSset disk ⟨⟨false, false, [⟨4, 8⟩], []⟩, land acrossBio fun _ _ => 0, w, false⟩ =
        some ⟨⟨false, false, [], []⟩, land acrossBio fun _ _ => 0, w', false⟩ := by
      simp only [incHandleSset, hw', Bool.false_eq_true, if_false]
    have hsplit := @run_snoc State Action (step disk ⟨true, some 7⟩) ⟨.new, fun _ _ => 0, w, false⟩ .handle
      [.trace acrossBio fun _ => true, .land 0]
    rw [hfirst] at hsplit
    exact hsplit.trans hhandle
  have hproper : ∀ a ∈ [Action.trace acrossBio fun _ => true, .land 0, .handle], Proper disk true 7 a := by
    simp only [List.forall_mem_cons]
    exact ⟨acrossBio_proper, trivial, trivial, fun _ hm => by cases hm⟩
  obtain ⟨hrecorded, -⟩ := records_exactly h₀ hproper hrun rfl
  refine ⟨_, _, hrun, ?_, ?_⟩
  · have hone := (hrecorded 1 (by rw [htotal]; decide)).mpr
      (.inr ⟨_, List.mem_cons_self, 8, rfl, .inl ⟨by decide, by decide, by decide⟩⟩)
    refine hone.resolve_right ?_
    rintro ⟨_, hm, _⟩
    cases hm
  · intro htwo
    rcases (hrecorded 2 (by rw [htotal]; decide)).mp htwo with (h | ⟨_, hm, _⟩) | ⟨a, ha, hadds⟩
    · exact h (indexAt_started hstarted)
    · cases hm
    · simp only [List.mem_cons, List.not_mem_nil, or_false] at ha
      rcases ha with rfl | rfl | rfl
      · obtain ⟨x, hblock, hx⟩ := hadds
        obtain ⟨hlo, hhi⟩ := Marking.writes_between hx rfl
        have hx12 : x < 12 := hhi
        have hx2 : x / 8 = 2 := hblock
        omega
      · exact hadds
      · exact hadds

end ElastioSnap.Incremental.Tracker
