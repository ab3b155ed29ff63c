import ElastioSnap.Driver.Transitions

namespace ElastioSnap.Driver.Mounts

open Function (update)
open Lib.Outcome State Setup Events Component Rows Tracing Effects Hooks Walk Setups Ioctls
open Cow.Manager (Errno Err)

variable {env : Env} {native : Nat → Nat} {d d' e : DriverState} {a b i k n : Nat} {dev dev' cur : SnapDevice}
  {ops : OpsState} {l : Local} {event : Event}

theorem tracerActiveToDormant_wp (hd : d.devs a = some dev) : wp (tracerActiveToDormant env a) d
    (fun _ d' => ∃ l, d' = d.put a l ∧ Dormant env d.clock dev l.dev) (Fails fun _ _ => False) := by
  simp only [tracerActiveToDormant]
  rw [wp_onDev hd]
  simp only [wp_bind, wp_attempt, wp_modifyDev]
  apply wp_weaken tracerDestroyCowThread_wp
  · rintro _ l₁ ⟨hdr, hle, hlt⟩
    apply wp_weaken tracerDestroyCow_close_wp
    · intro _ l₂ h₂
      refine ⟨_, rfl, ?_⟩
      dsimp only
      rw [h₂]
      exact .closed hdr
    · rintro c l₂ ⟨h₂, hfault⟩
      refine ⟨_, rfl, ?_⟩
      dsimp only
      rw [h₂]
      exact .failed hdr hlt hle hfault
  · exact fun _ _ h => h

theorem tracerDormantToActive_wp (hd : d.devs a = some dev) : wp (tracerDormantToActive env a) d
    (fun _ d' => ∃ l, d' = d.put a l ∧ Reopened dev l.dev) (Fails fun _ _ => False) := by
  simp only [tracerDormantToActive]
  rw [wp_onDev hd]
  simp only [wp_bind, wp_attempt, wp_modifyDev, wp_pure, tracerSetFailState]
  apply wp_weaken tracerSetupCow_reopen_wp
  · rintro _ l₁ ⟨h₁, hcow⟩
    apply wp_weaken tracerSetupCowThread_wp
    · intro _ l₂ h₂
      apply wp_weaken wakeUpProcess_wp
      · intro _ l₃ h₃
        refine ⟨_, rfl, ?_⟩
        dsimp only
        rw [h₃, h₂, h₁]
        exact .active hcow
      · exact fun _ _ h => h.elim
    · intro c l₂ h₂
      refine ⟨_, rfl, ?_⟩
      dsimp only
      rw [h₂, h₁]
      apply Reopened.failed
      rw [Option.map_map]
      rfl
  · rintro c l₁ ⟨h₁, hlim⟩
    refine ⟨_, rfl, ?_⟩
    dsimp only
    rw [h₁]
    exact .failed hlim

theorem samePlace_dormant (h : Dormant env n dev dev') : SamePlace dev dev' := by
  cases h with
  | closed hdr =>
      rw [hdr.eq]
      exact ⟨rfl, rfl, rfl, rfl, rfl⟩
  | failed hdr =>
      rw [hdr.eq]
      exact ⟨rfl, rfl, rfl, rfl, rfl⟩

theorem samePlace_reopened (hv : dev.unverified = false) (h : Reopened dev dev') : SamePlace dev dev' := by
  cases h with
  | active => exact ⟨rfl, hv.symm, rfl, rfl, rfl⟩
  | failed => exact ⟨rfl, rfl, rfl, rfl, rfl⟩

theorem samePlace_checked {umounted : Bool} (hv : dev.unverified = false) (h : Checked dev umounted dev') :
    SamePlace dev dev' := by
  cases h with
  | kept => exact ⟨rfl, rfl, rfl, rfl, rfl⟩
  | failed => exact ⟨rfl, rfl, rfl, rfl, rfl⟩
  | reopened _ h => exact samePlace_reopened hv h

theorem postUmountCheck_wp {umounted : Bool} (hd : d.devs a = some dev) (hv : dev.unverified = false) :
    wp (postUmountCheck env a umounted) d (fun _ d' => ∃ l, d' = d.put a l ∧ Checked dev umounted l.dev)
      (Fails fun _ _ => False) := by
  have hfail : ∀ (e : Errno) (n : Nat), wp (onDev a (tracerSetFailState e)) (d.atCall n)
      (fun _ d' => ∃ l, d' = d.put a l ∧ Checked dev umounted l.dev) (Fails fun _ _ => False) := by
    intro e n
    refine (wp_onDev (?_ : _ = some dev)).mpr ?_
    · exact hd
    · exact ⟨_, rfl, .failed⟩
  simp only [postUmountCheck, wp_bind, wp_getDev, hd, Option.some.injEq, forall_eq']
  cases umounted with
  | false =>
      simp only [Bool.not_false, if_true]
      cases dev.bdevPath with
      | none => trivial
      | some path =>
          simp only [wp_bind, wp_call]
          cases env.blkdevGetByPath d.clock path with
          | error e => exact hfail enodev _
          | ok c =>
              simp only [autoTransitionActive, wp_bind, wp_getDev]
              intro dev₀ hdev₀
              obtain rfl : dev = dev₀ := Option.some.inj (hd.symm.trans hdev₀)
              rw [hv, if_neg (by decide)]
              apply wp_weaken (tracerDormantToActive_wp hdev₀)
              · rintro _ d₁ ⟨l, rfl, hr⟩
                exact ⟨l, rfl, .reopened rfl hr⟩
              · exact fun _ _ h => h
  | true =>
      simp only [Bool.not_true, Bool.false_eq_true, if_false]
      cases dev.baseDev with
      | none => trivial
      | some b =>
          simp only [wp_bind, wp_call, wp_ite, wp_pure]
          split
          next => exact hfail .eio _
          next =>
            refine ⟨⟨dev, d.clock + 1⟩, ?_, .kept⟩
            simp only [DriverState.put, DriverState.atCall, ← hd, Function.update_eq_self]

theorem umountHook_wp {umounted : Bool} (hs : Sound env d) : wp (umountHook env b umounted) d
    (fun _ d' => Passed env (.umount b umounted) d d') (Fails fun _ d' => Passed env (.umount b umounted) d d') := by
  simp only [umountHook, handleBdevMountNowrite, wp_bind]
  let R : Nat → SnapDevice → Bool → Prop := fun _ dev r => r = (dev.active && dev.failCode.isNone && dev.baseDev == some b)
  have hp : ∀ (a : Nat) dev n,
      wp (pure (dev.active && dev.failCode.isNone && dev.baseDev == some b) : DriverM Bool) (d.atCall n)
        (fun r d' => (∃ m, n = m ∧ d' = d.atCall m) ∧ R a dev r) (Fails fun _ _ => False) :=
    fun a dev n => ⟨⟨n, rfl, rfl⟩, rfl⟩
  apply wp_weaken (tracerForEach_wp (fun _ => rfl) (fun h h' => h.trans h') hp)
  · rintro r d₁ ⟨⟨m, rfl, rfl⟩, hr⟩
    cases r with
    | none => exact .atCall hs
    | some a =>
        obtain ⟨i, dev, hi, hd, htest⟩ := hr
        have hrow : d.row i = some dev := row_eq_some.mpr ⟨a, hi, hd⟩
        replace htest := htest.symm
        simp only [Bool.and_eq_true, Option.isNone_iff_eq_none, beq_iff_eq] at htest
        obtain ⟨⟨hact, hf⟩, hb⟩ := htest
        have hv : dev.unverified = false := by
          by_contra hv
          rw [(hs.plain hrow (Bool.eq_true_of_not_eq_false hv)).1] at hact
          cases hact
        simp only [wp_bind, wp_pure]
        apply wp_weaken (tracerActiveToDormant_wp (d := d.atCall d.clock) hd)
        · rintro _ d₁ ⟨l₁, rfl, hdorm⟩
          have hplace := samePlace_dormant hdorm
          apply wp_weaken (postUmountCheck_wp put_devs (hplace.unverified.trans hv))
          · rintro _ d₂ ⟨l₂, rfl, hcheck⟩
            have hplace₂ := hplace.trans (samePlace_checked (hplace.unverified.trans hv) hcheck)
            rw [put_put]
            refine after_put (l := l₂) hs hi hd hplace₂ ?_ (.umount hrow hf hact hb hdorm hcheck)
            intro hu
            rw [hplace₂.unverified, hv] at hu
            cases hu
          · exact fun _ _ h => h.elim
        · exact fun _ _ h => h.elim
  · exact fun _ _ h => h.elim

/-- The table without the row of a device that is set up anew. -/
def vacated (env : Env) (d : DriverState) (a i : Nat) (dev : SnapDevice) : DriverState :=
  recalculated env { upd d a dev d.ops d.clock with snapDevices := update d.snapDevices i none }

theorem vacated_spec (hs : Sound env d) (hi : d.snapDevices i = some a) :
    Sound env (vacated env d a i dev) ∧ (vacated env d a i dev).row = update d.row i none ∧ Off a (vacated env d a i dev) := by
  have hoff : Off a (vacated env d a i dev) := by
    intro j hj
    rcases update_cases hj with ⟨-, hj⟩ | ⟨hji, hj⟩
    · cases hj
    · exact hji (hs.apart hj hi)
  have hrest := sound_remove (i := i) { upd d a dev d.ops d.clock with snapDevices := update d.snapDevices i none } hs
    (fun hj => Function.update_of_ne hj ..) (fun h => ?_) ?_ (fun hj h => ?_) rfl
  · exact ⟨hrest.1, hrest.2, hoff⟩
  · rcases update_cases h with ⟨-, h⟩ | ⟨hne, -⟩
    · cases h
    · exact absurd rfl hne
  · have hnone : update d.snapDevices i none i = none := Function.update_self ..
    simp only [DriverState.row, hnone, Option.bind_none]
  · apply Function.update_of_ne
    rintro rfl
    exact hj (hs.apart h hi)

theorem ready_vacated (hs : Sound env d) (hi : d.snapDevices i = some a) (hd : d.devs a = some dev')
    (hu : dev'.unverified = true) : Ready env d i a (vacated env d a i dev) := by
  obtain ⟨he, hrow, hoff⟩ := vacated_spec hs hi
  constructor
  case sound => exact he
  case off => exact hoff
  case lt => exact (hs.used hi).2.2.2
  case max => exact (hs.used hi).1
  case rows =>
    intro new
    rw [hrow, Function.update_idem]
  case hooks =>
    rw [hrow, hooked_keep]
    rw [row_eq_some.mpr ⟨a, hi, hd⟩]
    simp [hookOf, hu]
  case live =>
    intro hl j c hj
    rcases update_cases hj with ⟨-, hj⟩ | ⟨hji, hj⟩
    · cases hj
    · rw [hrow, Function.update_of_ne hji]
      exact hl j c hj

/-- A device that fails to be verified goes back to where it was, or is lost. -/
theorem backToUnverified_wp (path cowPath : Path) {c : Errno} {d₁ : DriverState} (hs : Sound env d)
    (hi : d.snapDevices i = some a)
    (hd : d.devs a = some dev) (hf : dev.failCode = none) (hu : dev.unverified = true)
    (hd₁ : d₁ = upd (vacated env d a i dev') a cur ops n ∨ d₁ = recalculated env (upd (vacated env d a i dev') a cur ops n))
    (ho : cur.origOps = none) (ht : cur.tracingOps = none) (hops : Freezes env → ops = d.ops) :
    wp (do
        tracerDestroy env a
        let _ ← attempt (tracerSetupUnverified env a i path cowPath dev.cacheSize dev.snapshot)
        onDev a (tracerSetFailState c)) d₁ (fun _ d' => Passed env (.mount b true) d d') (Fails fun _ _ => False) := by
  have hrow : d.row i = some dev := row_eq_some.mpr ⟨a, hi, hd⟩
  obtain ⟨he, herow, hoff⟩ := vacated_spec hs hi
  have hready : Ready env d i a (vacated env d a i dev') := ready_vacated hs hi hd hu
  have hlost : Passed env (.mount b true) d (vacated env d a i dev') := by
    constructor
    case sound => exact he
    case effect =>
      rw [herow]
      exact .row (.lost hrow hf hu)
    case hooking => exact fun _ => .same hready.hooks
    case live => exact fun _ => hready.live
  simp only [wp_bind]
  apply wp_weaken (destroyFailed_wp hoff hd₁ ho)
  · rintro _ d₂ ⟨f, ignored, k, rfl⟩
    have hu₁ : Untouched (vacated env d a i dev')
        (recalculated env (upd (vacated env d a i dev') a (stripped cur f ignored) ops k)) :=
      (untouched_upd hoff).trans untouched_recalculated
    have hg : Sound env (recalculated env (upd (vacated env d a i dev') a (stripped cur f ignored) ops k)) :=
      sound_recalculated he (untouched_upd hoff)
    have hgoff := hu₁.off hoff
    have hcur : (recalculated env (upd (vacated env d a i dev') a (stripped cur f ignored) ops k)).devs a =
      some (stripped cur f ignored) := Function.update_self ..
    have hself := upd_self hcur
    have hready₁ := hready.untouched hu₁ hg
    generalize hgdef : recalculated env (upd (vacated env d a i dev') a (stripped cur f ignored) ops k) = g at *
    rw [wp_attempt, ← hself]
    have ho₁ : (stripped cur f ignored).origOps = none := rfl
    have ht₁ : (stripped cur f ignored).tracingOps = none := ht
    apply wp_weaken (tracerSetupUnverified_wp hgoff ho₁ ht₁)
    · rintro _ d₃ ⟨m, rfl⟩
      rw [wp_onDev placed_devs, tracerSetFailState, wp_modifyDev, placed_put]
      refine .unhooked hready₁ (RowChange.refused (e := f.getD c) hrow hf hu)
        rfl rfl ⟨rfl, rfl, rfl⟩ ?_ ?_
      · simp [Hooks.hooked, hrow, hookOf, hu]
      · rw [← hgdef]
        exact hops
    · rintro e d₃ ⟨X, m, rfl⟩
      refine (wp_onDev (?_ : _ = some X)).mpr ?_
      · exact Function.update_self ..
      · rw [tracerSetFailState, wp_modifyDev]
        refine hlost.frame ⟨?_, ?_, ?_⟩ ?_ ?_
        · rw [← hgdef]
          rfl
        · intro j c hj
          have hc : c ≠ a := hoff.ne hj
          rw [← hgdef]
          exact (Function.update_of_ne hc ..).trans ((Function.update_of_ne hc ..).trans (Function.update_of_ne hc ..))
        · rw [← hgdef]
          exact Nat.le_refl _
        · intro j c hj
          rw [← hgdef]
          exact he.range hj
        · rw [← hgdef]
          exact hops
  · exact fun _ _ h => h

/-- The device that a verification makes, against what is known of it. -/
theorem verified_row {b s t : Nat} {p q : Path} {o : Option Ops} (hf : dev.failCode = none) :
    ({ activeSnap env i s b dev.cacheSize (some p) q o t with
      snapshot := dev.snapshot
      gd := dev.snapshot || dev.gd
      queue := dev.snapshot || dev.queue
      mrfThread := dev.snapshot || dev.mrfThread
      ignoreRequests := dev.ignoreRequests } : SnapDevice) =
    { withParts env dev.snapshot dev.cacheSize q (withBaseDev b p s { dev with
        minor := 0, active := true, unverified := false, bdevPath := none, cowPath := none }) with
      cowThread := .running
      minor := i
      origOps := o
      tracingOps := some t } := by
  cases h : dev.snapshot with
  | true => simp [withParts, withSnap, withCow, withBaseDev, activeSnap, SnapDevice.zero, hf]
  | false => simp [withParts, withCow, withBaseDev, activeSnap, SnapDevice.zero, hf]

theorem tracerUnverifiedToActive_wp (hs : Sound env d) (hi : d.snapDevices i = some a) (hd : d.devs a = some dev)
    (hf : dev.failCode = none) (hu : dev.unverified = true) :
    wp (tracerUnverifiedToActive env dev.snapshot a) d (fun _ d' => Passed env (.mount b true) d d')
      (Fails fun _ d' => Passed env (.mount b true) d d') := by
  have hrow : d.row i = some dev := row_eq_some.mpr ⟨a, hi, hd⟩
  have hmin : dev.minor = i := hs.minor hrow
  obtain ⟨-, ho, ht⟩ := hs.plain hrow hu
  simp only [tracerUnverifiedToActive, wp_bind, wp_getDev]
  intro dev₀ hdev₀
  obtain rfl : dev = dev₀ := Option.some.inj (hd.symm.trans hdev₀)
  cases dev.bdevPath with
  | none => trivial
  | some bdevPath =>
    cases dev.cowPath with
    | none => trivial
    | some relPath =>
        simp only [wp_bind]
        apply wp_weaken (tracerDestroyTracing_plain_wp hd ho)
        · rintro _ d₁ rfl
          rw [hmin, if_pos hi]
          change wp _ (vacated env d a i { dev with minor := 0 }) _ _
          obtain ⟨he, herow, hoff⟩ := vacated_spec hs hi
          refine (wp_onDev (?_ : _ = some { dev with minor := 0 })).mpr ?_
          · exact Function.update_self ..
          rw [wp_modifyDev, put_upd, wp_attempt]
          dsimp only
          have hsetup := setupDevice_wp (n := (vacated env d a i { dev with minor := 0 }).clock)
            { dev with minor := 0, active := true, unverified := false, bdevPath := none, cowPath := none } i
            dev.snapshot SnapDevice.cacheSize .reload bdevPath (by decide) he hoff ho ht
          apply wp_weaken hsetup
          · rintro _ d₂ ⟨c, p, s, q, o, t, ops, k, rfl, hb, hatt⟩
            have hfree : Untraced d.row c := by
              intro j cur hj hv
              by_cases hji : j = i
              · subst hji
                obtain rfl : dev = cur := Option.some.inj (hrow.symm.trans hj)
                rw [hu] at hv
                cases hv
              · apply hb j cur _ hv
                rw [herow, Function.update_of_ne hji]
                exact hj
            have hc := @RowChange.verified env d.clock d.row i b s c t (some p) q o dev hrow hf hu hfree
            rw [verified_row hf] at hc
            refine Passed.attached (b := c) (o := o) (t := t) (ready_vacated hs hi hd hu) hc rfl ?_ ?_ rfl rfl ?_ hatt
            · cases dev.snapshot <;> rfl
            · cases dev.snapshot <;> rfl
            · intro h hh
              simp [Hooks.hooked, hrow, hookOf, hu] at hh
          · rintro c d₂ ⟨cur, ops, k, hd₂, ho₂, ht₂, hops⟩
            have h : wp _ d₂ (fun _ d' => Passed env (.mount b true) d d') (Fails fun _ _ => False) :=
              backToUnverified_wp (c := c) bdevPath relPath hs hi hd hf hu hd₂ ho₂ ht₂ hops
            exact wp_weaken h (fun _ _ h => h) fun _ _ h => h.elim
        · exact fun _ _ h => h.elim

/-- What a mount does to a row does not depend on the number of calls made before. -/
theorem mount_later {m : Nat} {rows : Table} {new : Option SnapDevice} (h : RowChange env n rows (.mount b true) m new) :
    RowChange env k rows (.mount b true) m new := by
  cases h with
  | mount hi hf ha hu hb hr => exact .mount hi hf ha hu hb hr
  | verified hi hf hu hb => exact .verified hi hf hu hb
  | refused hi hf hu => exact .refused hi hf hu
  | lost hi hf hu => exact .lost hi hf hu

theorem passed_later (h : Passed env (.mount b true) (d.atCall n) d') : Passed env (.mount b true) d d' where
  sound := h.sound
  effect := by
    generalize hrows : d'.row = rows
    have heff := hrows ▸ h.effect
    cases heff with
    | none => exact .none
    | row hc => exact .row (mount_later hc)
  hooking := h.hooking
  live := h.live

theorem autoTransitionActive_wp (hs : Sound env d) (hi : d.snapDevices i = some a) (hd : d.devs a = some dev)
    (hf : dev.failCode = none) (ha : dev.active = false) (hb : dev.unverified = false → dev.baseDev = some b) :
    wp (autoTransitionActive env a) (d.atCall n) (fun _ d' => Passed env (.mount b true) d d')
      (Fails fun _ d' => Passed env (.mount b true) d d') := by
  have hrow : d.row i = some dev := row_eq_some.mpr ⟨a, hi, hd⟩
  simp only [autoTransitionActive, wp_bind, wp_getDev]
  intro dev₀ hdev₀
  obtain rfl : dev = dev₀ := Option.some.inj (hd.symm.trans hdev₀)
  cases hu : dev.unverified with
  | true =>
      have hspec : wp (tracerUnverifiedToActive env dev.snapshot a) (d.atCall n)
          (fun _ d' => Passed env (.mount b true) (d.atCall n) d')
          (Fails fun _ d' => Passed env (.mount b true) (d.atCall n) d') :=
        tracerUnverifiedToActive_wp (sound_atCall hs) hi hd hf hu
      have hverify := wp_weaken hspec (fun _ _ => passed_later) fun _ _ => passed_later
      simp only [if_true]
      cases hsnap : dev.snapshot with
      | true =>
          rw [hsnap] at hverify
          exact hverify
      | false =>
          rw [hsnap] at hverify
          exact hverify
  | false =>
      apply wp_weaken (tracerDormantToActive_wp hdev₀)
      · rintro _ d₁ ⟨l, rfl, hr⟩
        have hplace := samePlace_reopened hu hr
        refine after_put (l := l) hs hi hd hplace ?_ (.mount hrow hf ha hu (hb hu) hr)
        intro h
        rw [hplace.unverified, hu] at h
        cases h
      · exact fun _ _ h => h.elim

/-- What is known of a device that a mount of `b` makes active. -/
def Revives (b _a : Nat) (dev : SnapDevice) (r : Bool) : Prop :=
  r = true → dev.active = false ∧ dev.failCode = none ∧ (dev.unverified = false → dev.baseDev = some b)

theorem mountTest_wp (env : Env) (b : Nat) (d : DriverState) (a : Nat) (dev : SnapDevice) (n : Nat) :
    wp (if dev.active || dev.failCode.isSome then pure false
      else if dev.unverified then
        match dev.bdevPath with
        | none => throw .oops
        | some path => do
            match env.blkdevGetByPath (← call) path with
            | .error _ => pure false
            | .ok c => pure (c = b)
      else pure (dev.baseDev == some b) : DriverM Bool) (d.atCall n)
      (fun r d' => (∃ m, True ∧ d' = d.atCall m) ∧ Revives b a dev r) (Fails fun _ _ => False) := by
  split
  next => exact ⟨⟨n, trivial, rfl⟩, fun h => by cases h⟩
  next hact =>
    rw [Bool.or_eq_true, not_or, Bool.not_eq_true, Option.not_isSome_iff_eq_none] at hact
    split
    next hu =>
      cases dev.bdevPath with
      | none => trivial
      | some path =>
          simp only [wp_bind, wp_call]
          have hres : ∀ r : Bool, (∃ m, True ∧ (d.atCall n).atCall ((d.atCall n).clock + 1) = d.atCall m) ∧
              Revives b a dev r :=
            fun r => ⟨⟨n + 1, trivial, rfl⟩, fun _ => ⟨hact.1, hact.2, fun h => by rw [hu] at h; cases h⟩⟩
          cases env.blkdevGetByPath (d.atCall n).clock path with
          | error _ => exact hres false
          | ok c => exact hres _
    next => exact ⟨⟨n, trivial, rfl⟩, fun h => ⟨hact.1, hact.2, fun _ => beq_iff_eq.mp h⟩⟩

theorem mountHook_wp {mounted : Bool} (hs : Sound env d) : wp (mountHook env b mounted) d
    (fun _ d' => Passed env (.mount b mounted) d d') (Fails fun _ d' => Passed env (.mount b mounted) d d') := by
  cases mounted with
  | false => exact .atCall (n := d.clock) hs
  | true =>
      simp only [mountHook, if_true, handleBdevMountWritable, wp_bind]
      apply wp_weaken (tracerForEach_wp (T := fun _ _ => True) (fun _ => trivial) (fun _ _ => trivial)
        fun a dev n => mountTest_wp env b d a dev n)
      · rintro r d₁ ⟨⟨m, -, rfl⟩, hr⟩
        cases r with
        | none => exact .atCall hs
        | some a =>
            obtain ⟨i, dev, hi, hd, htest⟩ := hr
            obtain ⟨ha, hf, hb⟩ := htest rfl
            exact autoTransitionActive_wp hs hi hd hf ha hb
      · exact fun _ _ h => h.elim

end ElastioSnap.Driver.Mounts
