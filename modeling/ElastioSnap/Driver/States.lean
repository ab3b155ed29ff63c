import ElastioSnap.Driver.Steps

namespace ElastioSnap.Driver.States

open Function (update)
open Lib.Outcome State Setup Events Component Rows Tracing Effects Hooks Ioctls Mounts Steps

variable {env : Env} {native : Nat → Nat} {d d' : DriverState} {event : Event} {rows rows' : Table} {now i b : Nat}
  {dev dev' : SnapDevice} {new : Option SnapDevice}

/-- The number that `sd_state` is: the bits `SNAPSHOT`, `ACTIVE` and `UNVERIFIED`. -/
def sdState (dev : SnapDevice) : Nat := dev.snapshot.toNat + 2 * dev.active.toNat + 4 * dev.unverified.toNat

/-- The components of a device that has not failed, by the state it is in. -/
structure Fits (dev : SnapDevice) : Prop where
  active : dev.active = true → (∃ c, dev.cow = some c ∧ c.filp = true) ∧ dev.cowThread ≠ .absent
  dormant : dev.active = false → dev.unverified = false →
    (∀ c, dev.cow = some c → c.filp = false) ∧ dev.cowThread = .absent
  unverified : dev.unverified = true → dev.baseDev = none ∧ dev.cow = none
  gd : dev.gd = (dev.snapshot && !dev.unverified)
  queue : dev.queue = (dev.snapshot && !dev.unverified)
  mrfThread : dev.mrfThread = (dev.snapshot && !dev.unverified)

/-- There are six states, numbered from 0; a verified device is on its base device alone. -/
structure Settled (rows : Table) : Prop where
  state : ∀ {i : Nat} {dev : SnapDevice}, rows i = some dev → sdState dev ≤ 5
  fits : ∀ {i : Nat} {dev : SnapDevice}, rows i = some dev → dev.failCode = none → Fits dev
  alone : ∀ {i j : Nat} {dev dev' : SnapDevice} {b : Nat}, rows i = some dev → rows j = some dev' →
    dev.unverified = false → dev'.unverified = false → dev.baseDev = some b → dev'.baseDev = some b → i = j

theorem sdState_le : sdState dev ≤ 5 ↔ (dev.active = true → dev.unverified = false) := by
  cases h : dev.snapshot <;> cases ha : dev.active <;> cases hu : dev.unverified <;> simp [sdState, h, ha, hu]

/-- What a new row must be for the table to stay in order. -/
structure Enters (rows : Table) (i : Nat) (dev : SnapDevice) : Prop where
  state : dev.active = true → dev.unverified = false
  fits : dev.failCode = none → Fits dev
  base : ∀ b, dev.unverified = false → dev.baseDev = some b →
    Untraced rows b ∨ ∃ old, rows i = some old ∧ old.unverified = false ∧ old.baseDev = some b

theorem Settled.update (h : Settled rows) (hnew : ∀ dev, new = some dev → Enters rows i dev) : Settled (update rows i new) := by
  have hother : ∀ {j : Nat} {dev dev' : SnapDevice} {b : Nat}, new = some dev → rows j = some dev' → j ≠ i →
      dev.unverified = false → dev'.unverified = false → dev.baseDev = some b → dev'.baseDev = some b → False := by
    intro j dev dev' b hn hj hji hv hv' hb hb'
    rcases (hnew dev hn).base b hv hb with hun | ⟨old, hold, hvo, hbo⟩
    · exact hun j dev' hj hv' hb'
    · exact hji (h.alone hj hold hv' hvo hb' hbo)
  constructor
  case state =>
    intro j dev hj
    rcases update_cases hj with ⟨-, hn⟩ | ⟨-, hj⟩
    · exact sdState_le.mpr (hnew dev hn).state
    · exact h.state hj
  case fits =>
    intro j dev hj
    rcases update_cases hj with ⟨-, hn⟩ | ⟨-, hj⟩
    · exact (hnew dev hn).fits
    · exact h.fits hj
  case alone =>
    intro j k dev dev' b hj hk hv hv' hb hb'
    rcases update_cases hj with ⟨hji, hn⟩ | ⟨hji, hj⟩
    · rcases update_cases hk with ⟨hki, -⟩ | ⟨hki, hk⟩
      · rw [hji, hki]
      · exact (hother hn hk hki hv hv' hb hb').elim
    · rcases update_cases hk with ⟨-, hn⟩ | ⟨-, hk⟩
      · exact (hother hn hj hji hv' hv hb' hb).elim
      · exact h.alone hj hk hv hv' hb hb'

theorem fits_dormant (hv : dev.unverified = false) (hfit : Fits dev) (h : Dormant env now dev dev') :
    dev'.failCode = none → Fits dev' := by
  cases h with
  | @closed dev₁ hdr =>
      rw [hdr.eq]
      intro _
      constructor
      case active => exact fun h => by cases h
      case dormant =>
        refine fun _ _ => ⟨fun c hc => ?_, rfl⟩
        obtain ⟨c', -, rfl⟩ := Option.map_eq_some_iff.mp hc
        rfl
      case unverified => exact fun h => by rw [show dev.unverified = true from h] at hv; cases hv
      case gd => exact hfit.gd
      case queue => exact hfit.queue
      case mrfThread => exact hfit.mrfThread
  | failed => exact fun h => by cases h

theorem fits_reopened (hv : dev.unverified = false) (hfit : dev.failCode = none → Fits dev) (h : Reopened dev dev') :
    dev'.failCode = none → Fits dev' := by
  cases h with
  | active hc =>
      intro hf
      obtain ⟨c, hc⟩ := Option.isSome_iff_exists.mp hc
      have hold := hfit hf
      constructor
      case active =>
        intro _
        refine ⟨⟨{ c with filp := true }, ?_, rfl⟩, fun h => by cases h⟩
        rw [hc]
        rfl
      case dormant => exact fun h => by cases h
      case unverified => exact fun h => by cases h
      case gd => exact hold.gd.trans (by rw [hv])
      case queue => exact hold.queue.trans (by rw [hv])
      case mrfThread => exact hold.mrfThread.trans (by rw [hv])
  | failed => exact fun h => by cases h

theorem fits_checked {umounted : Bool} (hv : dev.unverified = false) (hfit : dev.failCode = none → Fits dev)
    (h : Checked dev umounted dev') : dev'.failCode = none → Fits dev' := by
  cases h with
  | kept => exact hfit
  | failed => exact fun h => by cases h
  | reopened _ h => exact fits_reopened hv hfit h

theorem fits_activeSnap {m size b c t : Nat} {path : Option Path} {cowPath : Path} {o : Option Ops} :
    Fits (activeSnap env m size b c path cowPath o t) where
  active _ := ⟨⟨_, rfl, rfl⟩, fun h => by cases h⟩
  dormant h := by cases h
  unverified h := by cases h
  gd := rfl
  queue := rfl
  mrfThread := rfl

theorem fits_unverified {m c : Nat} {isSnap : Bool} {p q : Path} : Fits (unverifiedDevice m c isSnap p q) where
  active h := by cases h
  dormant _ h := by cases h
  unverified _ := ⟨rfl, rfl⟩
  gd := by simp [unverifiedDevice, SnapDevice.zero]
  queue := by simp [unverifiedDevice, SnapDevice.zero]
  mrfThread := by simp [unverifiedDevice, SnapDevice.zero]

theorem fits_activeInc {m t : Nat} {old old' : SnapDevice} {o : Option Ops} (hold : Fits old) (ha : old.active = true)
    (hf : old'.failCode = none) (hdr : Drained old old') : Fits (activeInc m old' o t) where
  active _ := by
    obtain ⟨⟨c, hc, hfilp⟩, -⟩ := hold.active ha
    exact ⟨⟨c, (hdr.clean hf).2.trans hc, hfilp⟩, fun h => by cases h⟩
  dormant h := by cases h
  unverified h := by cases h
  gd := rfl
  queue := rfl
  mrfThread := rfl

theorem fits_reconfigured {c : Nat} (h : Fits dev) : Fits (reconfigured env c dev) where
  active ha := by
    replace ha : dev.active = true := ha
    obtain ⟨⟨cow, hcow, hfilp⟩, hthread⟩ := h.active ha
    refine ⟨⟨{ cow with allowedSects :=
      Cow.Lifecycle.cowCalculateAllowedSects env.ps (cacheOrDefault env c) cow.totalSects }, ?_, hfilp⟩, hthread⟩
    simp only [reconfigured, ha, hcow, if_true, Option.map_some]
  dormant ha hv := by
    replace ha : dev.active = false := ha
    simp only [reconfigured, ha, Bool.false_eq_true, if_false]
    exact h.dormant ha hv
  unverified hu := by
    refine ⟨(h.unverified hu).1, ?_⟩
    simp only [reconfigured, (h.unverified hu).2, Option.map_none, ite_self]
  gd := h.gd
  queue := h.queue
  mrfThread := h.mrfThread

/-- What an event puts into the table keeps it in order: one case for each way to change a row. -/
theorem enters_of_rowChange (h : Settled rows) (hc : RowChange env now rows event i (some dev)) : Enters rows i dev := by
  -- the device stays on the base device it is on
  have hstay : ∀ {old dev : SnapDevice}, rows i = some old → dev.unverified = old.unverified → dev.baseDev = old.baseDev →
      ∀ b, dev.unverified = false → dev.baseDev = some b →
        Untraced rows b ∨ ∃ old, rows i = some old ∧ old.unverified = false ∧ old.baseDev = some b := by
    intro old dev hold hu hb b hv hbb
    exact .inr ⟨old, hold, hu ▸ hv, hb ▸ hbb⟩
  have hverified : ∀ {old : SnapDevice}, rows i = some old → old.active = true → old.unverified = false :=
    fun hi ha => sdState_le.mp (h.state hi) ha
  cases hc with
  | setup hi hb =>
      refine ⟨fun _ => rfl, fun _ => fits_activeSnap, fun b _ hbb => .inl ?_⟩
      rw [← Option.some.inj hbb]
      exact hb
  | reloadSnap hi => exact ⟨(fun h => by cases h), fun _ => fits_unverified, fun _ h => by cases h⟩
  | reloadInc hi => exact ⟨(fun h => by cases h), fun _ => fits_unverified, fun _ h => by cases h⟩
  | toInc hi hf hs ha hc hdr =>
      have hv := hverified hi ha
      refine ⟨fun _ => rfl, fun hf' => fits_activeInc (h.fits hi hf) ha hf' hdr, ?_⟩
      apply hstay hi
      · exact hv.symm
      · simp only [activeInc]
        rw [hdr.eq]
  | toSnap hi hf hs ha hb =>
      exact ⟨fun _ => rfl, fun _ => fits_activeSnap, hstay hi (hverified hi ha).symm hb.symm⟩
  | reconfigure hi hf =>
      have hv := hverified hi
      exact ⟨hv, fun _ => fits_reconfigured (h.fits hi hf), hstay hi rfl rfl⟩
  | umount hi hf ha hb hd hc =>
      have hv := hverified hi ha
      have hdorm := samePlace_dormant hd
      have hplace := hdorm.trans (samePlace_checked (hdorm.unverified.trans hv) hc)
      refine ⟨fun _ => hplace.unverified.trans hv, ?_, hstay hi hplace.unverified hplace.baseDev⟩
      exact fits_checked (hdorm.unverified.trans hv) (fits_dormant hv (h.fits hi hf) hd) hc
  | mount hi hf ha hv hb hr =>
      have hplace := samePlace_reopened hv hr
      refine ⟨fun _ => hplace.unverified.trans hv, ?_, hstay hi hplace.unverified hplace.baseDev⟩
      exact fits_reopened hv (h.fits hi) hr
  | verified hi hf hu hb =>
      have hold := h.fits hi hf
      refine ⟨fun _ => rfl, fun _ => ?_, fun b _ hbb => .inl ?_⟩
      · constructor
        case active => exact fun _ => ⟨⟨_, rfl, rfl⟩, fun h => by cases h⟩
        case dormant => exact fun h => by cases h
        case unverified => exact fun h => by cases h
        all_goals simp [hold.gd, hold.queue, hold.mrfThread, hu, activeSnap, SnapDevice.zero]
      · rw [← Option.some.inj hbb]
        exact hb
  | refused hi hf hu => exact ⟨(fun h => by cases h), (fun h => by cases h), fun _ h => by cases h⟩
  | failure hi =>
      have hv := hverified hi
      exact ⟨hv, (fun h => by cases h), hstay hi rfl rfl⟩
  | notice hi hf =>
      have hv := hverified hi
      refine ⟨hv, fun h => ?_, hstay hi rfl rfl⟩
      simp only [cowFreeMembers] at h
      rw [h] at hf
      cases hf

theorem settled_step (h : Settled rows) (he : Effect env now rows event rows') : Settled rows' := by
  cases he with
  | none => exact h
  | row hc =>
      apply h.update
      rintro dev rfl
      exact enters_of_rowChange h hc

theorem settled_start : Settled (DriverState.start env native).row where
  state h := by cases h
  fits h := by cases h
  alone h := by cases h

/-- What holds of the table between two events, where no file system refuses to be frozen. -/
structure InOrder (env : Env) (d : DriverState) : Prop where
  sound : Sound env d
  live : Live d
  settled : Settled d.row

theorem inOrder_start : InOrder env (.start env native) := ⟨sound_start, (fun _ _ h => by cases h), settled_start⟩

theorem inOrder_step (hf : Freezes env) (h : InOrder env d) (hs : step env d event = some d') : InOrder env d' := by
  have hafter : After env (fun _ => 0) event d d' := step_after h.sound hs
  exact ⟨hafter.sound, hafter.live hf h.live, settled_step h.settled hafter.effect⟩

theorem inOrder_run {events : List Event} (hf : Freezes env)
    (h : Lib.Runs.run (step env) (.start env native) events = some d) : InOrder env d :=
  Lib.Runs.run_invariant (I := fun _ d => InOrder env d) inOrder_start (fun _ _ _ _ hi hs => inOrder_step hf hi hs) h

/-- After every event, the device of every pointer in the table is in one of the six states, with
the components of that state unless it has failed. -/
theorem device_states {events : List Event} (hf : Freezes env)
    (h : Lib.Runs.run (step env) (.start env native) events = some d) :
    (∀ i a, d.snapDevices i = some a → ∃ dev, d.devs a = some dev ∧ dev.minor = i ∧ sdState dev ≤ 5 ∧
      (dev.failCode = none → Fits dev)) ∧
    ∀ i j a c dev dev' b, d.snapDevices i = some a → d.devs a = some dev → d.snapDevices j = some c → d.devs c = some dev' →
      dev.unverified = false → dev'.unverified = false → dev.baseDev = some b → dev'.baseDev = some b → i = j := by
  have hin := inOrder_run hf h
  constructor
  · intro i a hi
    obtain ⟨dev, hrow⟩ := Option.isSome_iff_exists.mp (hin.live i a hi)
    refine ⟨dev, ?_, hin.sound.minor hrow, hin.settled.state hrow, hin.settled.fits hrow⟩
    rw [← row_of hi]
    exact hrow
  · intro i j a c dev dev' b hi hdev hj hdev' hv hv' hb hb'
    exact hin.settled.alone (row_eq_some.mpr ⟨a, hi, hdev⟩) (row_eq_some.mpr ⟨c, hj, hdev'⟩) hv hv' hb hb'

theorem device_states_cycle : ∃ d,
    Lib.Runs.run (step calm) (.start calm id) [.setupSnap 0 "/dev/sda1" "/cow" 0, .transitionInc 0, .umount 0 true,
      .mount 0 true, .setupSnap 1 "/dev/sda2" "/cow" 0, .transitionSnap 0, .failure 0 .eio] = some d ∧
    ((∀ i a, d.snapDevices i = some a → ∃ dev, d.devs a = some dev ∧ dev.minor = i ∧ sdState dev ≤ 5 ∧
      (dev.failCode = none → Fits dev)) ∧
    ∀ i j a c dev dev' b, d.snapDevices i = some a → d.devs a = some dev → d.snapDevices j = some c → d.devs c = some dev' →
      dev.unverified = false → dev'.unverified = false → dev.baseDev = some b → dev'.baseDev = some b → i = j) := by
  have hsome : (Lib.Runs.run (step calm) (.start calm id) [.setupSnap 0 "/dev/sda1" "/cow" 0, .transitionInc 0,
      .umount 0 true, .mount 0 true, .setupSnap 1 "/dev/sda2" "/cow" 0, .transitionSnap 0, .failure 0 .eio]).isSome = true := by
    decide +kernel
  obtain ⟨d, hd⟩ := Option.isSome_iff_exists.mp hsome
  exact ⟨d, hd, device_states (fun _ => rfl) hd⟩

end ElastioSnap.Driver.States
