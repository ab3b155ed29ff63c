import ElastioSnap.Driver.Steps

namespace ElastioSnap.Driver.Disks

open Function (update)
open Lib.Outcome Lib.Runs State Setup Events Component Rows Tracing Effects Hooks Ioctls Steps

variable {env : Env} {native : Nat → Nat} {d d' : DriverState} {a n r : Nat}

/-- A verified device of the table is on the disk. -/
def Tracked (env : Env) (d : DriverState) (k : Nat) : Prop :=
  ∃ i dev b, d.row i = some dev ∧ dev.unverified = false ∧ dev.baseDev = some b ∧ env.disk b = k

/-- The operations of the disks are right for the devices in the table. -/
structure Right (env : Env) (native : Nat → Nat) (d : DriverState) : Prop where
  tracing : ∀ k, (d.ops.bdOps k).isTracing = true ↔ Tracked env d k
  saved : ∀ i dev b, d.row i = some dev → dev.unverified = false → dev.baseDev = some b →
    dev.origOps = some (.native (native (env.disk b)))
  restored : ∀ k, ¬ Tracked env d k → d.ops.bdOps k = .native (native k)
  installed : ∀ k t, d.ops.bdOps k = .copy t → (d.ops.refs t).isSome = true
  referred : ∀ i dev t, d.row i = some dev → dev.tracingOps = some t → (d.ops.refs t).isSome = true

theorem tracked_iff (hk : Hooked env native (hooked d.row) d.ops) {k : Nat} :
    Tracked env d k ↔ ∃ t, d.ops.bdOps k = .copy t := by
  constructor
  · rintro ⟨i, dev, b, hrow, hv, hb, rfl⟩
    obtain ⟨b', t, hb', ht, _⟩ := hk.device (hookOf_eq_some.mpr ⟨dev, hrow, hv, rfl⟩)
    obtain rfl : b = b' := Option.some.inj (hb.symm.trans hb')
    exact ⟨t, ht⟩
  · rintro ⟨t, ht⟩
    obtain ⟨i, h, b, hi, hb, hdisk⟩ := hk.traced ht
    obtain ⟨dev, hrow, hv, rfl⟩ := hookOf_eq_some.mp hi
    exact ⟨i, dev, b, hrow, hv, hb, hdisk⟩

theorem right_of_hooked (hk : Hooked env native (hooked d.row) d.ops) (hs : Sound env d) : Right env native d where
  tracing k := by
    rw [tracked_iff hk]
    cases d.ops.bdOps k with
    | native n => simp [Ops.isTracing]
    | copy t => simp [Ops.isTracing]
  saved i dev b hrow hv hb := by
    obtain ⟨b', t, hb', _, _, ho⟩ := hk.device (hookOf_eq_some.mpr ⟨dev, hrow, hv, rfl⟩)
    obtain rfl : b = b' := Option.some.inj (hb.symm.trans hb')
    exact ho
  restored k hn := by
    cases hops : d.ops.bdOps k with
    | native n => rw [hk.idle hops]
    | copy t => exact absurd ((tracked_iff hk).mpr ⟨t, hops⟩) hn
  installed k t ht := by
    obtain ⟨r, hr, _⟩ := hk.counted ht
    rw [hr]
    rfl
  referred i dev t hrow ht := by
    cases hv : dev.unverified with
    | true =>
        rw [(hs.plain hrow hv).2.2] at ht
        cases ht
    | false =>
        obtain ⟨b, u, _, hu, hut, _⟩ := hk.device (hookOf_eq_some.mpr ⟨dev, hrow, hv, rfl⟩)
        obtain rfl : t = u := Option.some.inj (ht.symm.trans hut)
        obtain ⟨r, hr, _⟩ := hk.counted hu
        rw [hr]
        rfl

/-- While no count of references is at its largest value, the disks are right after every event. -/
theorem disks_right (hf : Freezes env) (h : Reach (step env) (fun d _ => Room d.ops) (.start env native) d) :
    Right env native d := by
  have hinv : Sound env d ∧ Hooked env native (hooked d.row) d.ops := by
    refine h.invariant (I := fun d => Sound env d ∧ Hooked env native (hooked d.row) d.ops)
      ⟨sound_start, Hooked.start⟩ ?_
    rintro d event d' ⟨hs, hk⟩ hroom hstep
    have hafter : After env native event d d' := step_after hs hstep
    exact ⟨hafter.sound, hafter.hooked hf hroom hk⟩
  exact right_of_hooked hinv.2 hinv.1

/-- The snapshot of the other partition, which shares the tracing operations. -/
def otherSnap : SnapDevice := activeSnap calm 1 (2 ^ 20) 1 0 (some "/dev/sda2") "/cow" (some (.native 0)) 0

/-- The incremental that takes over from the snapshot of the first partition. -/
def calmInc : SnapDevice := activeInc 0 (calmSnap 0) (some (.native 0)) 0

/-- Both partitions have a device, and there are so many references to the tracing operations. -/
structure Shared (r a : Nat) (dev : SnapDevice) (d : DriverState) : Prop where
  table : d.snapDevices = update (update (fun _ => none) 1 (some 1)) 0 (some a)
  dev : d.devs a = some dev
  other : d.devs 1 = some otherSnap
  low : d.lowestMinor = 0
  high : d.highestMinor = 1
  ops : d.ops = ⟨update (fun _ => .native 0) 0 (.copy 0), update (fun _ => none) 0 (some r), 1⟩
  next : a < d.nextDev
  two : 1 < d.nextDev
  ne : a ≠ 1

section

theorem calm_answers : calm.maxSnapDevices = 2 ∧ (∀ n, calm.fault n = none) ∧ (∀ n, calm.freeze n = none) ∧
    (∀ n, calm.busy n = false) ∧ (∀ n, calm.notices n = false) ∧ (∀ n, calm.cowPathname n = "/cow") ∧
    (∀ b, calm.disk b = 0) ∧ (∀ n b, calm.writable n b = true) ∧ (∀ n b, calm.capacity n b = 2 ^ 20) ∧
    (∀ n path, calm.absolute n path = path) ∧
    ∀ n path, calm.blkdevGetByPath n path = .ok (if path = "/dev/sda1" then 0 else 1) :=
  ⟨rfl, fun _ => rfl, fun _ => rfl, fun _ => rfl, fun _ => rfl, fun _ => rfl, fun _ => rfl, fun _ _ => rfl,
    fun _ _ => rfl, fun _ _ => rfl, fun _ _ => rfl⟩

theorem openedCow_intact {size cacheSize : Nat} : (openedCow env size cacheSize).sects = true ∧
    (openedCow env size cacheSize).filp = true :=
  ⟨rfl, rfl⟩

attribute [local simp] bind EStateM.bind pure EStateM.pure get_apply modify_apply attempt onCode check tick call getDev onDev modifyDev devCall devTick
  DriverState.put tracerForEach findTracer DriverState.minorRange tracerSetupCow tracerSetupCowThread wakeUpProcess
  calm_answers calmSnap activeSnap SnapDevice.zero openedCow_intact List.range_succ verifyMinorInUseNotBusy tracerAlloc setMode
  tracerCopyBaseDev tracerSetupTracing minorRangeInclude findOrigFops getBdOps tracerOnOps tracingOpsGet setBdOps
  modifyOps tracerTransitionTracing tracerDestroyCowThread stopRequestQueue drainCowThread tracerDestroySnap kfree

theorem setup_shared (hd : d = calmState (calmSnap 0) 16) : wp (exec calm (.setupSnap 1 "/dev/sda2" "/cow" 0)) d
    (fun _ d' => Shared 2 0 (calmSnap 0) d') (fun _ _ => False) := by
  subst hd
  simp [wp, exec, ioctlSetup, verifyMinorAvailable, verifyBdevWritable, tracerSetupActiveSnap, tracerSetupBaseDev,
    bdevIsAlreadyTraced, tracerSetupCowPath, tracerSetupSnap, calmState]
  constructor
  case table => exact Function.update_comm (by decide) ..
  case dev => simp [update]
  case other => simp [update, otherSnap]
  case low => rfl
  case high => rfl
  case ops => simp
  case next => decide
  case two => decide
  case ne => decide

/-- A transition takes a reference for the new device, and drops none for the old one. -/
theorem toInc_shared (h : Shared r a (calmSnap 0) d) : wp (exec calm (.transitionInc 0)) d
    (fun _ d' => Shared ((r + 1) % 2 ^ 32) d.nextDev calmInc d') (fun _ _ => False) := by
  obtain ⟨devs, next, table, low, high, ops, clock⟩ := d
  obtain ⟨htable, hdev, hother, hlow, hhigh, hops, hnext, htwo, hne⟩ := h
  dsimp only at htable hdev hother hlow hhigh hops hnext htwo ⊢
  subst htable hlow hhigh hops
  have hnew : a ≠ next := Nat.ne_of_lt hnext
  have hnew' : next ≠ 1 := Nat.ne_of_gt htwo
  simp [wp, exec, ioctlTransitionInc, tracerActiveSnapToInc, tracerCopyCow, tracerCopyCowPath, cowTruncateToIndex,
    update, hdev, hnew, hnew.symm]
  constructor
  case table => simp
  case dev => simp [update, hnew.symm, calmInc, activeInc]
  case other => simp [update, hother, hnew'.symm, hne.symm]
  case low => rfl
  case high => rfl
  case ops => simp
  case next => exact Nat.lt_succ_self next
  case two => exact Nat.lt_succ_of_lt htwo
  case ne => exact hnew'

theorem toSnap_shared (h : Shared r a calmInc d) : wp (exec calm (.transitionSnap 0)) d
    (fun _ d' => Shared ((r + 1) % 2 ^ 32) d.nextDev (calmSnap 0) d') (fun _ _ => False) := by
  obtain ⟨devs, next, table, low, high, ops, clock⟩ := d
  obtain ⟨htable, hdev, hother, hlow, hhigh, hops, hnext, htwo, hne⟩ := h
  dsimp only at htable hdev hother hlow hhigh hops hnext htwo ⊢
  subst htable hlow hhigh hops
  have hnew : a ≠ next := Nat.ne_of_lt hnext
  have hnew' : next ≠ 1 := Nat.ne_of_gt htwo
  simp [wp, exec, ioctlTransitionSnap, tracerActiveIncToSnap, tracerSetupCowPath, tracerSetupSnap, tracerDestroyCowPath,
    tracerDestroyCow, closeCow, update, hdev, hnew, hnew.symm, calmInc, activeInc]
  constructor
  case table => simp
  case dev => simp [update, hnew.symm]
  case other => simp [update, hother, hnew'.symm, hne.symm]
  case low => rfl
  case high => rfl
  case ops => simp
  case next => exact Nat.lt_succ_self next
  case two => exact Nat.lt_succ_of_lt htwo
  case ne => exact hnew'

/-- With a single reference left the tracing operations are freed, though the disk has them. -/
theorem destroy_shared (h : Shared 1 a calmInc d) : wp (exec calm (.destroy 1)) d
    (fun _ d' => d'.ops.bdOps 0 = .copy 0 ∧ d'.ops.refs 0 = none) (fun _ _ => False) := by
  obtain ⟨devs, next, table, low, high, ops, clock⟩ := d
  obtain ⟨htable, hdev, hother, hlow, hhigh, hops, hnext, htwo, hne⟩ := h
  dsimp only at htable hdev hother hlow hhigh hops hnext htwo ⊢
  subst htable hlow hhigh hops
  have hnew : a ≠ next := Nat.ne_of_lt hnext
  simp [wp, exec, ioctlDestroy, tracerDestroy, tracerDestroyTracing, tracerShouldResetMrf, Ops.isTracing, freeMrfAndOps,
    tracingOpsPut, minorRangeRecalculate, tracerDestroyCowPath, tracerDestroyCow, closeCow, tracerDestroyBaseDev,
    update, hdev, hother, hne.symm, calmInc, activeInc, otherSnap]

end

theorem step_of_wp {event : Event} {P : DriverState → Prop}
    (h : wp (exec env event) d (fun _ d' => P d') (fun _ _ => False)) : ∃ d', step env d event = some d' ∧ P d' := by
  obtain ⟨_, d', hok, hp⟩ := wp_total h
  exact ⟨d', step_ok hok, hp⟩

/-- Two partitions of a disk have a device, the first changes its mode, and the other one is destroyed. -/
def sharedDisk : List Event :=
  [.setupSnap 0 "/dev/sda1" "/cow" 0, .setupSnap 1 "/dev/sda2" "/cow" 0, .transitionInc 0, .destroy 1]

theorem Shared.room {cur : SnapDevice} (h : Shared r a cur d) (hr : r + 1 < 2 ^ 32) : Room d.ops := by
  intro t r' ht
  rw [h.ops] at ht
  rcases update_cases (show update (fun _ => none) 0 (some r) t = some r' from ht) with ⟨-, h0⟩ | ⟨-, h0⟩
  · obtain rfl := Option.some.inj h0
    exact hr
  · cases h0

/-- The disk is traced for the device that is left, with a reference that the change of mode has left behind. -/
theorem disks_right_shared : ∃ d, run (step calm) (.start calm fun _ => 0) sharedDisk = some d ∧
    d.ops.refs 0 = some 2 ∧ Right calm (fun _ => 0) d := by
  have hrefs : (run (step calm) (.start calm fun _ => 0) sharedDisk).map (fun d => d.ops.refs 0) = some (some 2) := by
    decide +kernel
  obtain ⟨d, hd, hleft⟩ := Option.map_eq_some_iff.mp hrefs
  refine ⟨d, hd, hleft, disks_right (fun _ => rfl) ?_⟩
  obtain ⟨d₁, hfirst, h₁⟩ : ∃ d₁, step calm (.start calm fun _ => 0) (.setupSnap 0 "/dev/sda1" "/cow" 0) = some d₁ ∧
      d₁ = calmState (calmSnap 0) 16 := ⟨_, step_ok calm_setup, rfl⟩
  obtain ⟨d₂, hsecond, h₂⟩ := step_of_wp (setup_shared h₁)
  obtain ⟨d₃, hinc, h₃⟩ := step_of_wp (toInc_shared h₂)
  have hone : Room d₁.ops := by
    rw [h₁]
    exact calmState_room
  have hreach : Reach (step calm) (fun d _ => Room d.ops) (.start calm fun _ => 0) d₃ :=
    ((Reach.init.next start_room hfirst).next hone hsecond).next (h₂.room (by decide)) hinc
  have hdestroy : step calm d₃ (.destroy 1) = some d := by
    rw [sharedDisk, run, hfirst, Option.bind_some, run, hsecond, Option.bind_some, run, hinc, Option.bind_some,
      run_singleton] at hd
    exact hd
  exact hreach.next (h₃.room (by decide)) hdestroy

/-- A device goes back and forth between the two modes. -/
def cycles : Nat → List Event
  | 0 => []
  | n + 1 => .transitionInc 0 :: .transitionSnap 0 :: cycles n

theorem cycles_shared (n : Nat) (hr : r < 2 ^ 32) (h : Shared r a (calmSnap 0) d) :
    ∃ a' d', run (step calm) d (cycles n) = some d' ∧ Shared ((r + 2 * n) % 2 ^ 32) a' (calmSnap 0) d' := by
  induction n generalizing r a d with
  | zero =>
      refine ⟨a, d, rfl, ?_⟩
      rw [Nat.mul_zero, Nat.add_zero, Nat.mod_eq_of_lt hr]
      exact h
  | succ n ih =>
      obtain ⟨d₁, hinc, h₁⟩ := step_of_wp (toInc_shared h)
      obtain ⟨d₂, hsnap, h₂⟩ := step_of_wp (toSnap_shared h₁)
      obtain ⟨a', d', hrun, h'⟩ := ih (Nat.mod_lt _ (by decide)) h₂
      refine ⟨a', d', ?_, ?_⟩
      · simp only [cycles, run, hinc, hsnap, Option.bind_some]
        exact hrun
      · have hsum : (((r + 1) % 2 ^ 32 + 1) % 2 ^ 32 + 2 * n) % 2 ^ 32 = (r + 2 * (n + 1)) % 2 ^ 32 := by omega
        rw [← hsum]
        exact h'

/-- Each transition leaves a reference behind. -/
def leaks (n : Nat) : List Event :=
  .setupSnap 0 "/dev/sda1" "/cow" 0 :: .setupSnap 1 "/dev/sda2" "/cow" 0 :: (cycles n ++ [.transitionInc 0, .destroy 1])

/-- The count of the references has wrapped, and a single one is left. -/
theorem leaks_run (hn : (2 + 2 * n) % 2 ^ 32 = 0) : ∃ d, run (step calm) (.start calm fun _ => 0) (leaks n) = some d ∧
    d.ops.bdOps 0 = .copy 0 ∧ d.ops.refs 0 = none := by
  obtain ⟨d₀, hfirst, hd⟩ : ∃ d₀, step calm (.start calm fun _ => 0) (.setupSnap 0 "/dev/sda1" "/cow" 0) = some d₀ ∧
      d₀ = calmState (calmSnap 0) 16 := ⟨_, step_ok calm_setup, rfl⟩
  obtain ⟨d₁, hsetup, h₁⟩ := step_of_wp (setup_shared hd)
  obtain ⟨a, d₂, hcycles, h₂⟩ := cycles_shared n (by decide) h₁
  rw [hn] at h₂
  obtain ⟨d₃, hinc, h₃⟩ := step_of_wp (toInc_shared h₂)
  obtain ⟨d₄, hdestroy, h₄⟩ := step_of_wp (destroy_shared h₃)
  refine ⟨d₄, ?_, h₄⟩
  rw [leaks, run, hfirst, Option.bind_some, run, hsetup, Option.bind_some, run_append, hcycles,
    Option.bind_some, run, hinc, Option.bind_some, run, hdestroy, Option.bind_some, run]

/-- The tracing operations of a disk are freed under the last device on it. -/
theorem tracing_ops_freed : ¬ ∀ (env : Env) (native : Nat → Nat) (events : List Event) (d : DriverState), Freezes env →
    run (step env) (.start env native) events = some d → Right env native d := by
  intro h
  -- so many times that all transitions together wrap the count
  obtain ⟨n, hn⟩ : ∃ n, (2 + 2 * n) % 2 ^ 32 = 0 := ⟨2 ^ 31 - 1, by decide⟩
  obtain ⟨d, hrun, hops, hrefs⟩ := leaks_run hn
  have hinstalled := (h calm (fun _ => 0) _ d (fun _ => rfl) hrun).installed 0 0 hops
  rw [hrefs] at hinstalled
  cases hinstalled

end ElastioSnap.Driver.Disks
