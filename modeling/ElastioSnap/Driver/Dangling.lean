import ElastioSnap.Driver.Steps

namespace ElastioSnap.Driver.Dangling

open Function (update)
open Lib.Outcome Lib.Runs State Setup Events Component Rows Tracing Effects Hooks Ioctls Transitions Steps
open Cow.Manager (Errno)

variable {env : Env} {native : Nat → Nat} {d d' : DriverState} {a b k n t minor : Nat} {dev dev' : SnapDevice}
  {ops : OpsState} {o : Ops} {l : Local} {hooks : Nat → Option Hook}

/-- Every verified device has the tracing operations that are installed on its disk, and no two disks have the
same. Of the counts of references nothing is said. -/
structure OnDisks (env : Env) (native : Nat → Nat) (hooks : Nat → Option Hook) (ops : OpsState) : Prop where
  device : ∀ {i : Nat} {h : Hook}, hooks i = some h → ∃ b t, h.baseDev = some b ∧
    ops.bdOps (env.disk b) = .copy t ∧ h.tracingOps = some t ∧ h.origOps = some (.native (native (env.disk b)))
  apart : ∀ {k k' t : Nat}, ops.bdOps k = .copy t → ops.bdOps k' = .copy t → k = k'

theorem onDisks_of_hooked (h : Hooked env native hooks ops) : OnDisks env native hooks ops := ⟨h.device, h.apart⟩

/-- The worker of a dormant device makes two calls before it ends. -/
theorem tracerDestroyCowThread_running (h : l.dev.cowThread = .running) : wp (tracerDestroyCowThread env) l
    (fun _ l' => l'.clock = l.clock + 2 ∧ l'.dev.tracingOps = l.dev.tracingOps) (Fails fun _ _ => False) := by
  simp only [tracerDestroyCowThread, wp_bind, wp_get, h, ne_eq, reduceCtorEq, not_false_eq_true, if_true,
    stopRequestQueue, wp_modifyDev]
  apply wp_weaken drainCowThread_wp
  · rintro _ l₁ ⟨⟨hdev, -⟩, hclock⟩
    exact ⟨hclock, by rw [hdev]⟩
  · exact fun _ _ h => h

theorem flushBioRequests_clock (hd : d.devs a = some dev) : wp (flushBioRequests env a) d
    (fun _ d' => ∃ dev', dev'.tracingOps = dev.tracingOps ∧ d' = upd d a dev' d.ops (d.clock + 3))
    (Fails fun _ _ => False) := by
  have hrest : ∀ dev₁ : SnapDevice, dev₁.tracingOps = dev.tracingOps → wp (onDev a wakeUpProcess) (upd d a dev₁ d.ops (d.clock + 1))
      (fun _ d' => wp (onDev a (tracerDestroyCowThread env)) d'
        (fun _ d' => ∃ dev', dev'.tracingOps = dev.tracingOps ∧ d' = upd d a dev' d.ops (d.clock + 3))
        (Fails fun _ _ => False)) (Fails fun _ _ => False) := by
    intro dev₁ ht₁
    rw [wp_onDev upd_devs]
    simp only [wakeUpProcess, wp_bind, wp_get, wp_ite, wp_throw, wp_modifyDev]
    split
    next => trivial
    next =>
      rw [upd_put, wp_onDev upd_devs]
      apply wp_weaken (tracerDestroyCowThread_running rfl)
      · rintro _ l ⟨hl, ht₂⟩
        refine ⟨l.dev, ht₂.trans ht₁, ?_⟩
        rw [upd_put, hl]
        rfl
      · exact fun _ _ h => h
  simp only [flushBioRequests, wp_bind, wp_attempt]
  rw [wp_onDev hd]
  simp only [tracerSetupCowThread, wp_bind, wp_modifyDev]
  apply wp_devTick
  · exact hrest _ rfl
  · exact fun _ => hrest _ rfl

/-- What the answer to the freeze leaves of the table and of the disks. -/
def ended (env : Env) (d : DriverState) (b minor : Nat) (o : Option Ops) (e : Option Errno) :
    (Nat → Option Nat) × (Nat → Ops) :=
  match e with
  | some _ => (d.snapDevices, d.ops.bdOps)
  | none => (update d.snapDevices minor none, match o with
      | some new => update d.ops.bdOps (env.disk b) new
      | none => d.ops.bdOps)

theorem endTracing_exact (env : Env) (d : DriverState) (a b minor n : Nat) (dev : SnapDevice) (o : Option Ops) :
    wp (attempt (tracerTransitionTracing env a b o minor false)) (upd d a dev d.ops n)
      (fun _ d' => ∃ m, d' = { upd d a dev { d.ops with bdOps := (ended env d b minor o (env.freeze n)).2 } m with
        snapDevices := (ended env d b minor o (env.freeze n)).1 }) (Fails fun _ _ => False) := by
  simp only [tracerTransitionTracing, wp_attempt, wp_bind, wp_call]
  change wp (match env.freeze n with | some e => _ | none => _) _ _ _
  cases hf : env.freeze n with
  | some e => exact ⟨n + 1, rfl⟩
  | none =>
      cases o with
      | some new => exact ⟨n + 1, rfl⟩
      | none => exact ⟨n + 1, rfl⟩

theorem findTracer_reads {p : Nat → SnapDevice → DriverM Bool} (hp : ∀ a dev, Preserves id (p a dev)) (is : List Nat) :
    Preserves id (findTracer p is) := by
  induction is with
  | nil => exact preserves_pure
  | cons i is ih =>
      rw [findTracer]
      refine preserves_get.bind fun d => ?_
      cases d.snapDevices i with
      | none => exact ih
      | some a =>
          have hget : Preserves id (getDev a) := by
            intro s
            unfold wp getDev
            cases s.devs a <;> rfl
          exact hget.bind fun dev => (hp a dev).bind fun r => preserves_pure.ite ih

theorem tracerShouldResetMrf_reads : Preserves id (tracerShouldResetMrf env a) := by
  have hget : ∀ c, Preserves id (getDev c) := by
    intro c s
    unfold wp getDev
    cases s.devs c <;> rfl
  have hops : ∀ cur, Preserves id (getBdOps env cur) := by
    intro cur s
    unfold wp getBdOps
    cases cur.baseDev <;> rfl
  have hon : ∀ o skip, Preserves id (tracerOnOps env o skip) := fun o skip =>
    preserves_get.bind fun d => findTracer_reads
      (fun c cur => preserves_pure.ite ((hops cur).bind fun _ => preserves_pure)) d.minorRange
  refine (hget a).bind fun dev => (hops dev).bind fun ops => ?_
  refine preserves_pure.ite (preserves_get.bind fun d => preserves_pure.ite ((hon _ _).bind fun _ => preserves_pure))

/-- The table, the disks and the counts after the tracing of a verified device has ended. -/
def Ended (env : Env) (d : DriverState) (dev : SnapDevice) (b t : Nat) (o : Ops) (d' : DriverState) : Prop :=
  ∃ o' e r, d.ops.refs t = some r ∧
    (Shares env d.row d.ops b dev.minor → o' = none ∧ e = env.freeze d.clock) ∧
    (¬ Shares env d.row d.ops b dev.minor →
      o' = some o ∧ e = env.freeze (if dev.active then d.clock else d.clock + 3)) ∧
    d'.snapDevices = (ended env d b dev.minor o' e).1 ∧ d'.ops.bdOps = (ended env d b dev.minor o' e).2 ∧
    d'.ops.refs = update d.ops.refs t (if r = 1 then none else some ((r + (2 ^ 32 - 1)) % 2 ^ 32))

theorem tracerDestroyTracing_exact (hs : Sound env d) (hd : d.devs a = some dev)
    (hi : d.snapDevices dev.minor = some a) (hb : dev.baseDev = some b) (ht : dev.tracingOps = some t)
    (ho : dev.origOps = some o) (hcopy : d.ops.bdOps (env.disk b) = .copy t) :
    wp (tracerDestroyTracing env a) d (fun _ d' => Ended env d dev b t o d') (Fails fun _ _ => False) := by
  have hsome : dev.origOps.isSome = true := by
    rw [ho]
    rfl
  simp only [tracerDestroyTracing, wp_getDev, hd, Option.some.injEq, forall_eq', hsome, if_true, wp_bind, hb]
  -- what is left to do once the file system has answered
  have hrest : ∀ {dev₁ : SnapDevice} {o' : Option Ops} {e : Option Errno} {m : Nat},
      (Shares env d.row d.ops b dev.minor → o' = none ∧ e = env.freeze d.clock) →
      (¬ Shares env d.row d.ops b dev.minor →
        o' = some o ∧ e = env.freeze (if dev.active then d.clock else d.clock + 3)) →
      dev₁.tracingOps = some t →
      wp (freeMrfAndOps a)
        { upd d a dev₁ { d.ops with bdOps := (ended env d b dev.minor o' e).2 } m with
          snapDevices := (ended env d b dev.minor o' e).1 }
        (fun _ d₁ => wp (onDev a (modifyDev fun dev => { dev with minor := 0 })) d₁
          (fun _ d₂ => wp (minorRangeRecalculate env) d₂ (fun _ d' => Ended env d dev b t o d')
            (Fails fun _ _ => False)) (Fails fun _ _ => False)) (Fails fun _ _ => False) := by
    intro dev₁ o' e m hshares hlast ht₁
    simp only [freeMrfAndOps, wp_bind, wp_getDev]
    intro dev₂ hdev₂
    obtain rfl : dev₁ = dev₂ := Option.some.inj ((upd_devs (d := d) (n := m)).symm.trans hdev₂)
    simp only [ht₁, wp_bind, tracingOpsPut_wp]
    intro r hr
    refine (wp_onDev (?_ : _ = some dev₁)).mpr ?_
    · exact hdev₂
    rw [wp_modifyDev, wp_onDev put_devs, wp_modifyDev, minorRangeRecalculate_wp]
    exact ⟨o', e, r, hr, hshares, hlast, rfl, rfl, rfl⟩
  refine wp_mono (wp_and (tracerShouldResetMrf_wp hs hd hi hb) (tracerShouldResetMrf_reads d)) ?_ ?_
  · rintro r d₁ ⟨⟨-, hr⟩, hsame⟩
    obtain rfl : d₁ = d := hsame
    have hat : d₁ = upd d₁ a dev d₁.ops d₁.clock := by
      simp only [upd, ← hd, Function.update_eq_self]
    cases r with
    | true =>
        obtain ⟨-, hlast⟩ := hr
        have hend : ∀ {dev₁ : SnapDevice} {n : Nat}, n = (if dev.active then d₁.clock else d₁.clock + 3) →
            dev₁.tracingOps = some t →
            wp (attempt (tracerTransitionTracing env a b dev.origOps dev.minor false)) (upd d₁ a dev₁ d₁.ops n)
              (fun _ d₂ => wp (freeMrfAndOps a) d₂
                (fun _ d₃ => wp (onDev a (modifyDev fun dev => { dev with minor := 0 })) d₃
                  (fun _ d₄ => wp (minorRangeRecalculate env) d₄ (fun _ d' => Ended env d₁ dev b t o d')
                    (Fails fun _ _ => False)) (Fails fun _ _ => False)) (Fails fun _ _ => False))
              (Fails fun _ _ => False) := by
          intro dev₁ n hn ht₁
          apply wp_weaken (endTracing_exact ..)
          · rintro _ d₂ ⟨m, rfl⟩
            rw [ho]
            exact hrest (fun h => absurd h hlast) (fun _ => ⟨rfl, by rw [hn]⟩) ht₁
          · exact fun _ _ h => h
        simp only [if_true, wp_ite, wp_bind, wp_pure]
        split
        next hact =>
          have hact : dev.active = false := by simpa using hact
          apply wp_weaken (flushBioRequests_clock hd)
          · rintro _ d₂ ⟨dev₁, ht₁, rfl⟩
            exact hend (by rw [hact]; rfl) (ht₁.trans ht)
          · exact fun _ _ h => h
        next hact =>
          have hact : dev.active = true := by simpa using hact
          have h := hend (n := d₁.clock) (by rw [hact]; rfl) ht
          rwa [← hat] at h
    | false =>
        have hshares := hr (by rw [hcopy]; rfl)
        simp only [Bool.false_eq_true, if_false, wp_bind, wp_pure]
        have h := endTracing_exact env d₁ a b dev.minor d₁.clock dev none
        rw [← hat] at h
        apply wp_weaken h
        · rintro _ d₂ ⟨m, rfl⟩
          exact hrest (fun _ => ⟨rfl, rfl⟩) (fun h => absurd hshares h) ht
        · exact fun _ _ h => h
  · rintro e d₁ ⟨h, -⟩
    cases e with
    | code c => exact h.elim
    | oops => trivial

/-- The components of a device are destroyed without a look at the table or the disks. -/
theorem tracerDestroy_wp {P : (Nat → Option Nat) → OpsState → Prop}
    (h : wp (tracerDestroyTracing env a) d (fun _ d' => P d'.snapDevices d'.ops) (Fails fun _ _ => False)) :
    wp (tracerDestroy env a) d (fun _ d' => P d'.snapDevices d'.ops) (Fails fun _ _ => False) := by
  simp only [tracerDestroy, wp_bind]
  apply wp_weaken h
  · intro _ d₁ h₁
    cases hd₁ : d₁.devs a with
    | none =>
        unfold wp onDev
        rw [hd₁]
        trivial
    | some dev₁ =>
        rw [wp_onDev hd₁]
        simp only [wp_bind]
        apply wp_weaken (tracerDestroyCowThread_always _)
        · intro _ l₁ _
          simp only [tracerDestroySnap, tracerDestroyCowPath, wp_modifyDev]
          apply wp_weaken tracerDestroyCow_free_wp
          · intro _ l₂ _
            rw [tracerDestroyBaseDev, wp_modifyDev]
            exact h₁
          · exact fun _ _ h => h
        · exact fun _ _ h => h
  · exact fun _ _ h => h

/-- Nothing points to the device any more, and no disk to operations that the call freed. -/
structure Severed (a : Nat) (d d' : DriverState) : Prop where
  gone : ∀ i, d'.snapDevices i ≠ some a
  disks : ∀ k t, d'.ops.bdOps k = .copy t → d.ops.refs t ≠ none → d'.ops.refs t ≠ none

/-- The file system lets itself be frozen when the device is taken off its disk, and while the disk has other
devices the reference that is given back is not the last one. -/
structure Departs (env : Env) (d : DriverState) (dev : SnapDevice) (b t : Nat) : Prop where
  shared : Shares env d.row d.ops b dev.minor → env.freeze d.clock = none ∧ d.ops.refs t ≠ some 1
  last : ¬ Shares env d.row d.ops b dev.minor → env.freeze (if dev.active then d.clock else d.clock + 3) = none

theorem severed_plain {o : Option Ops} (hs : Sound env d) (hi : d.snapDevices minor = some a) (i : Nat) :
    (ended env d b minor o none).1 i ≠ some a := by
  intro h
  rcases update_cases (show update d.snapDevices minor none i = some a from h) with ⟨-, h⟩ | ⟨hne, h⟩
  · cases h
  · exact hne (hs.apart h hi)

/-- Destroying a verified device leaves nothing that dangles exactly if it departs in order. -/
theorem severed_iff (hs : Sound env d) (hk : OnDisks env native (hooked d.row) d.ops)
    (hi : d.snapDevices dev.minor = some a) (hcopy : d.ops.bdOps (env.disk b) = .copy t)
    (h : Ended env d dev b t (.native n) d') : Severed a d d' ↔ Departs env d dev b t := by
  obtain ⟨o', e, r, hr, hshares, hlast, htable, hdisks, hrefs⟩ := h
  constructor
  · intro hsev
    have he : e = none := by
      cases e with
      | none => rfl
      | some c =>
          have := hsev.gone dev.minor
          rw [htable] at this
          exact absurd hi this
    subst he
    constructor
    case shared =>
      intro hsh
      obtain ⟨rfl, he⟩ := hshares hsh
      refine ⟨he.symm, fun hone => ?_⟩
      obtain rfl := Option.some.inj (hr.symm.trans hone)
      refine hsev.disks (env.disk b) t (by rw [hdisks]; exact hcopy) (by rw [hr]; exact Option.some_ne_none 1) ?_
      rw [hrefs, Function.update_self, if_pos rfl]
    case last =>
      intro hsh
      exact (hlast hsh).2.symm
  · intro hdep
    have he : e = none := by
      by_cases hsh : Shares env d.row d.ops b dev.minor
      · rw [(hshares hsh).2, (hdep.shared hsh).1]
      · rw [(hlast hsh).2, hdep.last hsh]
    subst he
    refine ⟨fun i => by rw [htable]; exact severed_plain hs hi i, fun k u hk' hu => ?_⟩
    rw [hrefs]
    by_cases hut : u = t
    · subst hut
      rw [Function.update_self]
      by_cases hsh : Shares env d.row d.ops b dev.minor
      · rw [if_neg fun hone => (hdep.shared hsh).2 (by rw [hr, hone])]
        exact Option.some_ne_none _
      · -- no disk has the operations any more
        obtain ⟨rfl, -⟩ := hlast hsh
        rw [hdisks] at hk'
        rcases update_cases (show update d.ops.bdOps (env.disk b) (.native n) k = .copy u from hk') with ⟨-, h⟩ | ⟨hne, h⟩
        · cases h
        · exact absurd (hk.apart h hcopy) hne
    · rw [Function.update_of_ne hut]
      exact hu

theorem tracerDestroy_severs_iff (env : Env) (native : Nat → Nat) (d d' : DriverState) (a : Nat) (dev : SnapDevice)
    (hs : Sound env d) (hk : OnDisks env native (hooked d.row) d.ops) (hd : d.devs a = some dev)
    (hi : d.snapDevices dev.minor = some a) (hrun : tracerDestroy env a d = .ok () d') :
    Severed a d d' ↔ dev.unverified = true ∨
      ∃ b t, dev.baseDev = some b ∧ dev.tracingOps = some t ∧ Departs env d dev b t := by
  have hrow : d.row dev.minor = some dev := row_eq_some.mpr ⟨a, hi, hd⟩
  cases hv : dev.unverified with
  | true =>
      refine ⟨fun _ => .inl rfl, fun _ => ?_⟩
      obtain ⟨-, ho, -⟩ := hs.plain hrow hv
      have hwp : wp (tracerDestroyTracing env a) d
          (fun _ d' => d'.snapDevices = update d.snapDevices dev.minor none ∧ d'.ops = d.ops) (Fails fun _ _ => False) := by
        apply wp_weaken (tracerDestroyTracing_plain_wp hd ho)
        · rintro _ d₁ rfl
          refine ⟨?_, rfl⟩
          rw [if_pos hi]
          rfl
        · exact fun _ _ h => h
      obtain ⟨htable, hops⟩ := wp_ok (tracerDestroy_wp
        (P := fun table ops => table = update d.snapDevices dev.minor none ∧ ops = d.ops) hwp) hrun
      refine ⟨fun i => ?_, fun k t hcopy hlive => by rw [hops]; exact hlive⟩
      rw [htable]
      exact severed_plain (b := 0) (o := none) hs hi i
  | false =>
      obtain ⟨b, t, hb, hcopy, ht, ho⟩ := hk.device (hookOf_eq_some.mpr ⟨dev, hrow, hv, rfl⟩)
      replace hb : dev.baseDev = some b := hb
      replace ht : dev.tracingOps = some t := ht
      have hended := wp_ok (tracerDestroy_wp (P := fun table ops => Ended env d dev b t (.native (native (env.disk b)))
        { d with snapDevices := table, ops := ops }) (tracerDestroyTracing_exact hs hd hi hb ht ho hcopy)) hrun
      have hiff := severed_iff hs hk hi hcopy hended
      refine ⟨fun h => .inr ⟨b, t, hb, ht, hiff.mp ⟨h.gone, h.disks⟩⟩, fun h => ?_⟩
      obtain ⟨b', t', hb', ht', hdep⟩ := h.resolve_left Bool.false_ne_true
      obtain rfl := Option.some.inj (hb.symm.trans hb')
      obtain rfl := Option.some.inj (ht.symm.trans ht')
      have hsev := hiff.mpr hdep
      exact ⟨hsev.gone, hsev.disks⟩

theorem hooked_step {event : Event} (hs : Sound env d) (hf : Freezes env) (hroom : Room d.ops)
    (hk : Hooked env native (hooked d.row) d.ops) (hstep : step env d event = some d') :
    Sound env d' ∧ Hooked env native (hooked d'.row) d'.ops := by
  have hafter : After env native event d d' := step_after hs hstep
  exact ⟨hafter.sound, hafter.hooked hf hroom hk⟩

theorem calmState_hooked : Sound calm (calmState (calmSnap 0) 16) ∧
    Hooked calm (fun _ => 0) (hooked (calmState (calmSnap 0) 16).row) (calmState (calmSnap 0) 16).ops :=
  hooked_step sound_start (fun _ => rfl) start_room Hooked.start (step_ok calm_setup)

def destroyed (env : Env) (d : DriverState) : Option DriverState :=
  match tracerDestroy env 0 d with
  | .ok _ d' => some d'
  | .error _ _ => none

theorem tracerDestroy_ok (h : destroyed env d = some d') : tracerDestroy env 0 d = .ok () d' := by
  rw [destroyed] at h
  cases hrun : tracerDestroy env 0 d with
  | ok _ d₁ =>
      rw [hrun] at h
      rw [Option.some.inj h]
  | error e d₁ =>
      rw [hrun] at h
      cases h

/-- The second device on the disk. -/
def secondSetup : Event := .setupSnap 1 "/dev/sda2" "/cow" 0

/-- Of two devices on a disk the first is destroyed, and the other one stays on the disk. -/
theorem tracerDestroy_severs_shared : ∃ d d', step calm (calmState (calmSnap 0) 16) secondSetup = some d ∧
    tracerDestroy calm 0 d = .ok () d' ∧ d'.snapDevices 1 = some 1 ∧ (d'.ops.bdOps 0).isTracing = true ∧
    Severed 0 d d' := by
  have hplace : (step calm (calmState (calmSnap 0) 16) secondSetup).map (fun d => (d.snapDevices 0, d.ops.refs 0)) =
      some (some 0, some 2) := by decide +kernel
  have hdev : ((step calm (calmState (calmSnap 0) 16) secondSetup).bind fun d => d.devs 0).map (fun dev =>
      (dev.minor, dev.baseDev, dev.tracingOps)) = some (0, some 0, some 0) := by decide +kernel
  have hleft : ((step calm (calmState (calmSnap 0) 16) secondSetup).bind (destroyed calm)).map (fun d' =>
      (d'.snapDevices 1, (d'.ops.bdOps 0).isTracing)) = some (some 1, true) := by decide +kernel
  obtain ⟨d, hd, hfacts⟩ := Option.map_eq_some_iff.mp hplace
  rw [hd, Option.bind_some] at hdev hleft
  obtain ⟨dev, hdev, hparts⟩ := Option.map_eq_some_iff.mp hdev
  obtain ⟨d', hd', hother⟩ := Option.map_eq_some_iff.mp hleft
  simp only [Prod.mk.injEq] at hfacts hparts hother
  have hinv := hooked_step calmState_hooked.1 (fun _ => rfl) calmState_room calmState_hooked.2 hd
  have hdeparts : Departs calm d dev 0 0 := by
    refine ⟨fun _ => ⟨rfl, fun hone => ?_⟩, fun _ => rfl⟩
    rw [hfacts.2] at hone
    cases hone
  have hminor : d.snapDevices dev.minor = some 0 := by rw [hparts.1, hfacts.1]
  have hrun := tracerDestroy_ok hd'
  have hiff := tracerDestroy_severs_iff calm (fun _ => 0) d d' 0 dev hinv.1 (onDisks_of_hooked hinv.2) hdev hminor hrun
  exact ⟨d, d', hd, hrun, hother.1, hother.2, hiff.mpr (.inr ⟨0, 0, hparts.2.1, hparts.2.2, hdeparts⟩)⟩

/-- A device whose file system refuses to be frozen stays in the table, and its disk keeps the operations that
are freed. -/
theorem tracerDestroy_leaves_dangling : ¬ ∀ (env : Env) (native : Nat → Nat) (d d' : DriverState) (a : Nat)
    (dev : SnapDevice), Sound env d → OnDisks env native (hooked d.row) d.ops → d.devs a = some dev →
      d.snapDevices dev.minor = some a → tracerDestroy env a d = .ok () d' → Severed a d d' := by
  intro h
  obtain ⟨d', hrun, hstays⟩ : ∃ d', tracerDestroy { calm with freeze := fun _ => some .eio } 0
      (calmState (calmSnap 0) 16) = .ok () d' ∧ d'.snapDevices 0 = some 0 := ⟨_, rfl, rfl⟩
  have hk := onDisks_of_hooked calmState_hooked.2
  have hsev := h { calm with freeze := fun _ => some .eio } (fun _ => 0) (calmState (calmSnap 0) 16) d' 0 (calmSnap 0)
    (calmState_sound (by decide) rfl rfl) ⟨hk.device, hk.apart⟩ rfl rfl hrun
  exact hsev.gone 0 hstays

end ElastioSnap.Driver.Dangling
