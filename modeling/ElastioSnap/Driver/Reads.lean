import ElastioSnap.Driver.Steps

namespace ElastioSnap.Driver.Reads

open Function (update)
open Lib.Runs State Setup Events Component Rows Tracing Effects Hooks Ioctls Mounts Steps
open Cow.Manager (Errno)

variable {env : Env} {native : Nat → Nat} {d d' : DriverState} {event : Event} {rows rows' : Table} {now i : Nat}
  {dev dev' : SnapDevice}

def wrapErrIo (ignoreSnapErrors : Bool) : Option Errno := if ignoreSnapErrors then none else some .eio

/-- A request is ended, or queued for the worker of the device. -/
inductive Mrf
  | ended (ret : Option Errno)
  | queued
  deriving DecidableEq

def eopnotsupp : Errno := .other 95

def snapMrf (dev : SnapDevice) (ignoreSnapErrors write : Bool) : Mrf :=
  if write then .ended (some eopnotsupp)
  else if dev.failCode.isSome then .ended (wrapErrIo ignoreSnapErrors)
  else if !dev.active then .ended (some ebusy)
  else if dev.ignoreRequests then .ended (some ebusy)
  else .queued

theorem snapMrf_queued {ignoreSnapErrors : Bool} (ha : dev.active = true) (hf : dev.failCode = none)
    (hi : dev.ignoreRequests = false) : snapMrf dev ignoreSnapErrors false = .queued := by
  simp [snapMrf, ha, hf, hi]

/-- The event does not make a dormant snapshot active again: neither a successful mount of the block device it
is on, nor an umount that failed after the snapshot was made dormant for it. -/
def NotReactivated (d : DriverState) : Event → Prop
  | .mount b true => ∀ i dev, d.row i = some dev → dev.snapshot = true → dev.active = false → dev.unverified = false →
      dev.failCode = none → dev.baseDev ≠ some b
  | .umount b false => ∀ i dev, d.row i = some dev → dev.snapshot = true → dev.active = true → dev.failCode = none →
      dev.baseDev ≠ some b
  | _ => True

/-- No snapshot ignores requests unless it has failed, or has been made dormant. -/
def Readable (rows : Table) : Prop := ∀ i dev, rows i = some dev → dev.failCode = none → dev.snapshot = true →
  dev.active = true ∨ dev.unverified = true → dev.ignoreRequests = false

theorem dormant_active (h : Dormant env now dev dev') (hf : dev'.failCode = none) : dev'.active = false := by
  cases h with
  | closed => rfl
  | failed => cases hf

theorem dormant_snapshot (h : Dormant env now dev dev') : dev'.snapshot = dev.snapshot := by
  cases h with
  | closed hdr => rw [hdr.eq]
  | failed hdr =>
      rw [hdr.eq]
      rfl

theorem reopened_snapshot (h : Reopened dev dev') : dev'.snapshot = dev.snapshot := by
  cases h <;> rfl

theorem readable_row (hs : Sound env d) (h : Readable d.row) (hc : NotReactivated d event)
    (hr : RowChange env now d.row event i (some dev)) (hf : dev.failCode = none) (hsnap : dev.snapshot = true)
    (ha : dev.active = true ∨ dev.unverified = true) : dev.ignoreRequests = false := by
  cases hr with
  | setup => rfl
  | reloadSnap => rfl
  | reloadInc => rfl
  | toInc => cases hsnap
  | toSnap => rfl
  | @reconfigure _ _ old hi => exact h i old hi hf hsnap ha
  | @umount _ b _ old old' _ hi hfo hao hb hd hch =>
      have hvo : old.unverified = false := by
        by_contra hvo
        rw [(hs.plain hi (Bool.eq_true_of_not_eq_false hvo)).1] at hao
        cases hao
      cases hch with
      | kept =>
          rw [dormant_active hd hf, (samePlace_dormant hd).unverified, hvo] at ha
          simp at ha
      | failed => cases hf
      | reopened hu hre =>
          -- the umount failed, and the snapshot is made active again
          subst hu
          rw [reopened_snapshot hre, dormant_snapshot hd] at hsnap
          exact absurd hb (hc i old hi hsnap hao hfo)
  | @mount _ b old _ hi hfo hao hvo hb hre =>
      rw [reopened_snapshot hre] at hsnap
      exact absurd hb (hc i old hi hsnap hao hvo hfo)
  | @verified _ _ _ _ _ _ _ _ old hi hfo hu => exact h i old hi hfo hsnap (.inr hu)
  | refused => cases hf
  | failure => cases hf
  | notice _ hfo =>
      simp only [cowFreeMembers] at hf
      rw [hf] at hfo
      cases hfo

theorem readable_step (hs : Sound env d) (h : Readable d.row) (hc : NotReactivated d event)
    (he : Effect env now d.row event rows') : Readable rows' := by
  cases he with
  | none => exact h
  | row hr =>
      intro j dev hj hf hsnap ha
      rcases update_cases hj with ⟨-, rfl⟩ | ⟨-, hj⟩
      · exact readable_row hs h hc hr hf hsnap ha
      · exact h j dev hj hf hsnap ha

theorem readable_reach (h : Reach (step env) NotReactivated (.start env native) d) : Sound env d ∧ Readable d.row := by
  refine h.invariant (I := fun d => Sound env d ∧ Readable d.row) ⟨sound_start, fun _ _ h => by cases h⟩ ?_
  rintro d event d' ⟨hs, hr⟩ hc hstep
  have hafter : After env native event d d' := step_after hs hstep
  exact ⟨hafter.sound, readable_step hs hr hc hafter.effect⟩

/-- While no dormant snapshot is made active again, an active snapshot queues the reads for its
worker. -/
theorem reads_queued {ignoreSnapErrors : Bool} (h : Reach (step env) NotReactivated (.start env native) d)
    (hi : d.row i = some dev) (ha : dev.active = true) (hs : dev.snapshot = true) (hf : dev.failCode = none) :
    snapMrf dev ignoreSnapErrors false = .queued :=
  snapMrf_queued ha hf ((readable_reach h).2 i dev hi hf hs (.inl ha))

/-- The second of two devices becomes an incremental. -/
def secondInc : List Event := [.setupSnap 0 "/dev/sda1" "/cow" 0, .setupSnap 1 "/dev/sda2" "/cow" 0, .transitionInc 1]

/-- An umount of the other device, which fails, does not disturb a snapshot. -/
theorem reads_queued_beside : ∃ d dev, Reach (step calm) NotReactivated (.start calm fun _ => 0) d ∧
    d.row 0 = some dev ∧ snapMrf dev false false = .queued := by
  have hfirst : (run (step calm) (.start calm fun _ => 0) secondInc).map (fun d =>
      ((d.row 0).map SnapDevice.baseDev, (d.row 1).map SnapDevice.snapshot)) = some (some (some 0), some false) := by
    decide +kernel
  have hsecond : (run (step calm) (.start calm fun _ => 0) (secondInc ++ [.umount 1 false])).map (fun d =>
      (d.row 0).map fun dev => (dev.active, dev.snapshot, dev.failCode.isNone)) = some (some (true, true, true)) := by
    decide +kernel
  obtain ⟨d, hd, hparts⟩ := Option.map_eq_some_iff.mp hfirst
  obtain ⟨d', hd', hdev⟩ := Option.map_eq_some_iff.mp hsecond
  rw [run_append, hd, Option.bind_some] at hd'
  simp only [Prod.mk.injEq] at hparts
  have hreach : Reach (step calm) NotReactivated (.start calm fun _ => 0) d :=
    Reach.init.run hd (.cons trivial fun _ => .cons trivial fun _ => .cons trivial fun _ => trivial)
  have hother : NotReactivated d (.umount 1 false) := by
    intro i dev hi hs _ _ hb
    rcases minor_of_two rfl (readable_reach hreach).1 hi with rfl | rfl
    · rw [hi, Option.map_some, hb] at hparts
      cases hparts.1
    · rw [hi, Option.map_some, hs] at hparts
      cases hparts.2
  have hreach' := hreach.run hd' (.cons hother fun _ => trivial)
  obtain ⟨dev, hrow, hflags⟩ := Option.map_eq_some_iff.mp hdev
  simp only [Prod.mk.injEq] at hflags
  exact ⟨d', dev, hreach', hrow,
    reads_queued hreach' hrow hflags.1 hflags.2.1 (Option.isNone_iff_eq_none.mp hflags.2.2)⟩

/-- A snapshot refuses reads after an umount of its block device has failed. -/
theorem reactivated_busy : ¬ ∀ (env : Env) (native : Nat → Nat) (events : List Event) (d : DriverState) (i : Nat)
    (dev : SnapDevice), run (step env) (.start env native) events = some d → d.row i = some dev → dev.active = true →
    dev.snapshot = true → dev.failCode = none → snapMrf dev false false = .queued := by
  intro h
  have hrun : run (step calm) (.start calm fun _ => 0) [.setupSnap 0 "/dev/sda1" "/cow" 0, .umount 0 false] =
      some (calmState (reactivatedSnap 0) 23) := by
    simp only [run, step_ok calm_setup, step_ok calm_umount, Option.bind_some]
  have hqueued := h _ _ _ _ 0 _ hrun calmState_row rfl rfl rfl
  cases hqueued

end ElastioSnap.Driver.Reads
