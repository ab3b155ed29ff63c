import ElastioSnap.Driver.Disks

namespace ElastioSnap.Driver.References

open Function (update)
open Cow.Manager (Errno Err)
open Lib.Outcome Lib.Runs State Setup Events Component Rows Tracing Effects Hooks Ioctls Transitions Steps Disks

variable {env : Env} {native : Nat → Nat} {d d' : DriverState} {b m n t : Nat} {dev : SnapDevice} {rows : Table}
  {hooks : Nat → Option Hook} {h : Hook} {ops ops' : OpsState} {o : Option Ops} {event : Event}

/-- The minors of the devices of the table that have these tracing operations. -/
def holders (env : Env) (d : DriverState) (t : Nat) : Finset Nat :=
  (Finset.range env.maxSnapDevices).filter fun i => (d.row i).bind SnapDevice.tracingOps = some t

/-- Tracing operations are counted once for each device that has them, and are there as long as a device has them. -/
def Exact (env : Env) (d : DriverState) : Prop :=
  ∀ t, d.ops.refs t = if (holders env d t).card = 0 then none else some (holders env d t).card

/-- The event is a transition whose new device gets into the table. -/
def TakesOver (env : Env) (d : DriverState) : Event → Prop
  | .transitionInc minor => minor < env.maxSnapDevices ∧ env.busy d.clock = false ∧
      ∃ old dev a d', d.snapDevices minor = some old ∧ d.devs old = some dev ∧ dev.failCode = none ∧
        dev.snapshot = true ∧ dev.active = true ∧ snapToIncBegin env old (d.atCall (d.clock + 1)) = .ok a d'
  | .transitionSnap minor => minor < env.maxSnapDevices ∧ env.busy d.clock = false ∧
      ∃ old dev a d', d.snapDevices minor = some old ∧ d.devs old = some dev ∧ dev.failCode = none ∧
        dev.snapshot = false ∧ dev.active = true ∧ incToSnapBegin env old (d.atCall (d.clock + 1)) = .ok a d'
  | _ => False

/-- The counts, against the hooks of the devices. -/
def Balanced (env : Env) (hooks : Nat → Option Hook) (ops : OpsState) : Prop :=
  ∀ t, ops.refs t = if (users env hooks t).card = 0 then none else some (users env hooks t).card

theorem holders_eq_users (hs : Sound env d) : holders env d t = users env (hooked d.row) t := by
  ext i
  rw [mem_users, holders, Finset.mem_filter, Finset.mem_range, Option.bind_eq_some_iff]
  apply and_congr_right
  intro _
  constructor
  · rintro ⟨dev, hrow, ht⟩
    cases hv : dev.unverified with
    | true =>
        rw [(hs.plain hrow hv).2.2] at ht
        cases ht
    | false => exact ⟨_, hookOf_eq_some.mpr ⟨dev, hrow, hv, rfl⟩, ht⟩
  · rintro ⟨h, hh, ht⟩
    obtain ⟨dev, hrow, -, rfl⟩ := hookOf_eq_some.mp hh
    exact ⟨dev, hrow, ht⟩

theorem exact_iff_balanced (hs : Sound env d) : Exact env d ↔ Balanced env (hooked d.row) d.ops := by
  simp only [Exact, Balanced, holders_eq_users hs]

theorem not_mem_users (hm : hooks m = none) : m ∉ users env hooks t := by
  rw [mem_users]
  rintro ⟨-, h, hh, -⟩
  cases hm.symm.trans hh

theorem users_insert (hlt : m < env.maxSnapDevices) (ht : h.tracingOps = some t) :
    users env (update hooks m (some h)) t = insert m (users env hooks t) := by
  ext i
  rw [Finset.mem_insert, mem_users, mem_users]
  by_cases him : i = m
  · subst him
    rw [Function.update_self]
    exact ⟨fun _ => .inl rfl, fun _ => ⟨hlt, h, rfl, ht⟩⟩
  · rw [Function.update_of_ne him]
    exact ⟨.inr, fun hi => hi.resolve_left him⟩

theorem users_other (hm : hooks m = none) (ht : h.tracingOps ≠ some t) :
    users env (update hooks m (some h)) t = users env hooks t := by
  ext i
  rw [mem_users, mem_users]
  by_cases him : i = m
  · subst him
    rw [Function.update_self, hm]
    constructor
    · rintro ⟨-, h', hh, ht'⟩
      cases hh
      exact absurd ht' ht
    · rintro ⟨-, h', hh, -⟩
      cases hh
  · rw [Function.update_of_ne him]

/-- A minor that is free leaves room for one more reference. -/
theorem users_lt (hlt : m < env.maxSnapDevices) (hm : hooks m = none) : (users env hooks t).card < env.maxSnapDevices := by
  have hsub : users env hooks t ⊂ Finset.range env.maxSnapDevices := by
    refine (Finset.ssubset_iff_of_subset (Finset.filter_subset _ _)).mpr ⟨m, Finset.mem_range.mpr hlt, not_mem_users hm⟩
  calc (users env hooks t).card < (Finset.range env.maxSnapDevices).card := Finset.card_lt_card hsub
    _ = env.maxSnapDevices := Finset.card_range _

theorem Balanced.refs_eq {r : Nat} (hb : Balanced env hooks ops) (hr : ops.refs t = some r) : (users env hooks t).card = r := by
  have h := (hb t).symm.trans hr
  split at h
  next => cases h
  next => exact Option.some.inj h

theorem Balanced.room (hb : Balanced env hooks ops) (hmax : env.maxSnapDevices < 2 ^ 32) (hlt : m < env.maxSnapDevices)
    (hm : hooks m = none) : Room ops := by
  intro t r hr
  have hcard := users_lt (t := t) hlt hm
  rw [hb.refs_eq hr] at hcard
  omega

/-- A device that comes to a free minor is counted. -/
theorem Balanced.attach (hk : Hooked env native hooks ops) (hb : Balanced env hooks ops) (hmax : env.maxSnapDevices < 2 ^ 32)
    (hrows : hooked rows = hooks) (hlt : m < env.maxSnapDevices) (hm : hooks m = none)
    (ha : Attached env rows ops b o t ops') : Balanced env (update hooks m (some ⟨some b, o, some t⟩)) ops' := by
  have hmine : (users env (update hooks m (some ⟨some b, o, some t⟩)) t).card = (users env hooks t).card + 1 := by
    rw [users_insert hlt rfl, Finset.card_insert_of_notMem (not_mem_users hm)]
  have hother : ∀ u, u ≠ t → users env (update hooks m (some ⟨some b, o, some t⟩)) u = users env hooks u :=
    fun u hu => users_other hm fun h => hu (Option.some.inj h).symm
  intro u
  cases ha with
  | known hf =>
      cases hf with
      | shared hu hi hv hc hcu ht hr =>
          have hroom := hb.room hmax hlt hm t _ hr
          by_cases hut : u = t
          · subst hut
            rw [hmine, if_neg (Nat.succ_ne_zero _), hb.refs_eq hr]
            dsimp only
            rw [Function.update_self, Nat.mod_eq_of_lt hroom]
          · rw [hother u hut, ← hb u]
            exact Function.update_of_ne hut ..
  | made hf =>
      cases hf with
      | first hn =>
          by_cases hut : u = ops.nextOps
          · subst hut
            have hnone : users env hooks ops.nextOps = ∅ := by
              rw [Finset.eq_empty_iff_forall_notMem]
              intro i hi
              obtain ⟨-, h, hh, ht⟩ := mem_users.mp hi
              obtain ⟨c, w, -, hw, hw', -⟩ := hk.device hh
              rw [ht] at hw'
              cases hw'
              exact Nat.lt_irrefl _ (hk.bound hw)
            rw [hmine, hnone, if_neg (Nat.succ_ne_zero _)]
            exact Function.update_self ..
          · rw [hother u hut, ← hb u]
            exact Function.update_of_ne hut ..
      | lost hu hi hv hc hcu ht =>
          -- a verified device of the table has tracing operations
          have hhook := hookOf_eq_some.mpr ⟨_, hi, hv, rfl⟩
          obtain ⟨c, w, -, -, hw, -⟩ := hk.device ((congrFun hrows _).symm.trans hhook)
          cases ht.symm.trans hw

/-- A device that goes is no longer counted, and the operations go with the last one. -/
theorem Balanced.detach (hk : Hooked env native (hooked rows) ops) (hb : Balanced env (hooked rows) ops)
    (hmax : env.maxSnapDevices < 2 ^ 32) (hlt : m < env.maxSnapDevices) (hi : rows m = some dev) (hv : dev.unverified = false)
    (hd : Detached env rows dev ops b m ops') : Balanced env (update (hooked rows) m none) ops' := by
  have hhook : hooked rows m = some ⟨dev.baseDev, dev.origOps, dev.tracingOps⟩ := hookOf_eq_some.mpr ⟨dev, hi, hv, rfl⟩
  obtain ⟨c, t, -, -, ht, -⟩ := hk.device hhook
  replace ht : dev.tracingOps = some t := ht
  have hmem : m ∈ users env (hooked rows) t := mem_users.mpr ⟨hlt, _, hhook, ht⟩
  have hpos : 0 < (users env (hooked rows) t).card := Finset.card_pos.mpr ⟨m, hmem⟩
  have hle : (users env (hooked rows) t).card ≤ env.maxSnapDevices := by
    rw [← Finset.card_range env.maxSnapDevices]
    exact Finset.card_le_card (Finset.filter_subset _ _)
  have hr : ops.refs t = some (users env (hooked rows) t).card := by
    rw [hb t, if_neg (Nat.ne_of_gt hpos)]
  have hrefs : ops'.refs = update ops.refs t (if (users env (hooked rows) t).card = 1 then none
      else some ((users env (hooked rows) t).card - 1)) := by
    have hmod : ((users env (hooked rows) t).card + (2 ^ 32 - 1)) % 2 ^ 32 = (users env (hooked rows) t).card - 1 := by omega
    cases hd with
    | reset _ _ _ => simp only [ht, released, hr, Option.bind_some, hmod]
    | kept _ => simp only [ht, released, hr, Option.bind_some, hmod]
  intro u
  rw [hrefs, users_remove]
  by_cases hut : u = t
  · subst hut
    rw [Function.update_self, Finset.card_erase_of_mem hmem]
    by_cases hone : (users env (hooked rows) u).card = 1
    · rw [if_pos hone, hone, if_pos rfl]
    · rw [if_neg hone, if_neg (by omega)]
  · rw [Function.update_of_ne hut, hb u, Finset.erase_eq_of_notMem]
    rw [mem_users]
    rintro ⟨-, h, hh, hu⟩
    cases hhook.symm.trans hh
    exact hut (Option.some.inj (hu.symm.trans ht))

/-- The devices and the disks belong together, and the references to the tracing operations are counted. -/
structure Accounted (env : Env) (native : Nat → Nat) (d : DriverState) : Prop where
  sound : Sound env d
  hooked : Hooked env native (hooked d.row) d.ops
  balanced : Balanced env (Hooks.hooked d.row) d.ops

theorem accounted_start : Accounted env native (.start env native) where
  sound := sound_start
  hooked := Hooked.start
  balanced t := by
    have hnone : users env (Hooks.hooked (DriverState.start env native).row) t = ∅ := by
      rw [Finset.eq_empty_iff_forall_notMem]
      intro i hi
      obtain ⟨-, h, hh, -⟩ := mem_users.mp hi
      cases hh
    rw [hnone]
    rfl

theorem Accounted.calledOff (ha : Accounted env native d) (hf : Freezes env) (h : CalledOff env d d') :
    Accounted env native d' where
  sound := (h.passed (.destroy 0)).sound
  hooked := by
    rw [h.rows, h.ops hf]
    exact ha.hooked
  balanced := by
    rw [h.rows, h.ops hf]
    exact ha.balanced

/-- What an event does that is no transition. -/
theorem Accounted.passed (ha : Accounted env native d) (hf : Freezes env) (hmax : env.maxSnapDevices < 2 ^ 32)
    (hn : ∀ m, event ≠ .transitionInc m ∧ event ≠ .transitionSnap m) (h : Passed env event d d') : Accounted env native d' := by
  obtain ⟨hs, hk, hb⟩ := ha
  have hh := h.hooking hf
  suffices hboth : Hooked env native (Hooks.hooked d'.row) d'.ops ∧ Balanced env (Hooks.hooked d'.row) d'.ops from
    ⟨h.sound, hboth.1, hboth.2⟩
  generalize d'.row = rows at hh ⊢
  generalize d'.ops = ops at hh ⊢
  cases hh with
  | same hsame =>
      rw [hsame]
      exact ⟨hk, hb⟩
  | plain hi ho =>
      rw [hooked_plain hk hi ho]
      exact ⟨hk, hb⟩
  | attached hlt hh hm hr hatt =>
      rename_i m b t o dev around
      have hnone : Hooks.hooked d.row m = none := by
        cases hocc : Hooks.hooked d.row m with
        | none => rfl
        | some h' =>
            rcases (hm h' hocc).2 with he | he
            · exact absurd he (hn m).1
            · exact absurd he (hn m).2
      rw [hooked_update, hh]
      exact ⟨hk.attach (hb.room hmax hlt hnone) hr (fun h' hocc => (hm h' hocc).1) hatt,
        hb.attach hk hmax hr hlt hnone hatt⟩
  | detached hi hv hbase hdet =>
      rw [hooked_update]
      exact ⟨hk.detach (fun _ _ hj => row_lt hs hj) hi hv hbase hdet, hb.detach hk hmax (row_lt hs hi) hi hv hdet⟩

/-- A part that does not come to its end is the whole. -/
theorem wp_unfinished {α : Type} {x : DriverM α} {f : α → DriverM Unit} {Q : Unit → DriverState → Prop}
    {F : Errno → DriverState → Prop} (hx : wp x d (fun _ _ => True) (Fails F)) (hn : ¬ ∃ r d', x d = .ok r d') :
    wp (x >>= f) d Q (Fails F) := by
  rw [wp_bind]
  unfold wp at hx ⊢
  cases hrun : x d with
  | ok r d' => exact absurd ⟨r, d', hrun⟩ hn
  | error e d' =>
      rw [hrun] at hx
      exact hx

theorem verifyMinor_wp {Q : Nat → DriverState → Prop} {F : Errno → DriverState → Prop}
    (hF : ∀ n e, F e (d.atCall n))
    (hQ : ∀ a, m < env.maxSnapDevices → env.busy d.clock = false → d.snapDevices m = some a → Q a (d.atCall (d.clock + 1))) :
    wp (verifyMinorInUseNotBusy env m) d Q (Fails F) := by
  simp only [verifyMinorInUseNotBusy]
  split
  next => exact hF d.clock _
  next hlt =>
    simp only [wp_bind, wp_get]
    cases h : d.snapDevices m with
    | none => exact hF d.clock _
    | some a =>
        simp only [wp_bind, wp_call]
        split
        next => exact hF (d.clock + 1) _
        next hb => exact hQ a (Nat.lt_of_not_le hlt) (Bool.eq_false_iff.mpr hb) h

/-- A transition whose new device does not get into the table leaves the devices and the disks alone. -/
theorem transition_calledOff (hs : Sound env d) (he : event = .transitionInc m ∨ event = .transitionSnap m)
    (hn : ¬ TakesOver env d event) : wp (exec env event) d (fun _ d' => CalledOff env d d')
      (Fails fun _ d' => CalledOff env d d') := by
  rcases he with rfl | rfl
  · simp only [exec, ioctlTransitionInc, wp_bind]
    refine verifyMinor_wp (fun _ _ => calledOff_atCall hs) fun old hlt hb hi => ?_
    rw [wp_getDev]
    intro dev hd
    cases hf : dev.failCode with
    | some e => exact calledOff_atCall hs
    | none =>
        dsimp only
        rw [wp_ite]
        split
        next => exact calledOff_atCall hs
        next hmode =>
          simp only [Bool.or_eq_true, Bool.not_eq_true', not_or, Bool.not_eq_false] at hmode
          rw [tracerActiveSnapToInc_eq]
          refine wp_unfinished (wp_weaken (snapToIncBegin_wp hs hi hd) (fun _ _ _ => trivial) fun _ _ h => h) ?_
          rintro ⟨a, d', hrun⟩
          exact hn ⟨hlt, hb, old, dev, a, d', hi, hd, hf, hmode.1, hmode.2, hrun⟩
  · simp only [exec, ioctlTransitionSnap, wp_bind]
    refine verifyMinor_wp (fun _ _ => calledOff_atCall hs) fun old hlt hb hi => ?_
    rw [wp_getDev]
    intro dev hd
    rw [wp_ite]
    split
    next => exact calledOff_atCall hs
    next hf =>
      rw [wp_ite]
      split
      next => exact calledOff_atCall hs
      next hmode =>
        simp only [Bool.or_eq_true, Bool.not_eq_true', not_or, Bool.not_eq_false, Bool.not_eq_true] at hmode
        rw [tracerActiveIncToSnap_eq]
        refine wp_unfinished (wp_weaken (incToSnapBegin_wp hs hi hd) (fun _ _ _ => trivial) fun _ _ h => h) ?_
        rintro ⟨a, d', hrun⟩
        exact hn ⟨hlt, hb, old, dev, a, d', hi, hd, Option.not_isSome_iff_eq_none.mp hf, hmode.1, hmode.2, hrun⟩

theorem accounted_step (hf : Freezes env) (hmax : env.maxSnapDevices < 2 ^ 32) (ha : Accounted env native d)
    (hn : ¬ TakesOver env d event) (hstep : step env d event = some d') : Accounted env native d' := by
  by_cases he : ∃ m, event = .transitionInc m ∨ event = .transitionSnap m
  · obtain ⟨m, he⟩ := he
    have hwp := transition_calledOff ha.sound he hn
    unfold wp at hwp
    rw [step] at hstep
    cases hexec : exec env event d with
    | ok _ d₁ =>
        rw [hexec] at hstep hwp
        cases hstep
        exact ha.calledOff hf hwp
    | error e d₁ =>
        rw [hexec] at hstep hwp
        cases e with
        | code c =>
            cases hstep
            exact ha.calledOff hf hwp
        | oops => cases hstep
  · exact ha.passed hf hmax (fun m => not_or.mp fun h => he ⟨m, h⟩) (step_passed ha.sound hstep)

/-- While no transition puts a new device into the table, tracing operations have as many references as there are devices
of the table that have them, and are freed with the last of these. -/
theorem refs_exact (hf : Freezes env) (hmax : env.maxSnapDevices < 2 ^ 32)
    (h : Reach (step env) (fun d event => ¬ TakesOver env d event) (.start env native) d) : Exact env d := by
  have ha : Accounted env native d := h.invariant accounted_start fun _ _ _ ha hn hs => accounted_step hf hmax ha hn hs
  exact (exact_iff_balanced ha.sound).mpr ha.balanced

theorem calm_small : calm.maxSnapDevices < 2 ^ 32 := by
  rw [calm_answers.1]
  decide

/-- A transition at a minor that there is none of is refused, and one of two devices on a disk is destroyed. -/
def oneOfTwo : List Event :=
  [.setupSnap 0 "/dev/sda1" "/cow" 0, .setupSnap 1 "/dev/sda2" "/cow" 0, .transitionInc 2, .destroy 1]

theorem refs_exact_shared : ∃ d, run (step calm) (.start calm fun _ => 0) oneOfTwo = some d ∧ d.ops.refs 0 = some 1 ∧
    Exact calm d := by
  have hrefs : (run (step calm) (.start calm fun _ => 0) oneOfTwo).map (fun d => d.ops.refs 0) = some (some 1) := by
    decide +kernel
  obtain ⟨d, hd, hleft⟩ := Option.map_eq_some_iff.mp hrefs
  have hrefused : ∀ d', ¬ TakesOver calm d' (.transitionInc 2) := fun _ h => absurd h.1 (by decide)
  have hreach : Reach (step calm) (fun d event => ¬ TakesOver calm d event) (.start calm fun _ => 0) d :=
    Reach.init.run hd (.cons (fun h => h) fun _ => .cons (fun h => h) fun _ => .cons (hrefused _) fun _ =>
      .cons (fun h => h) fun _ => trivial)
  exact ⟨d, hd, hleft, refs_exact (fun _ => rfl) calm_small hreach⟩

/-- A snapshot that becomes incremental leaves its reference behind. -/
theorem transition_leaks_reference : ¬ ∀ (env : Env) (native : Nat → Nat) (events : List Event) (d : DriverState),
    Freezes env → env.maxSnapDevices < 2 ^ 32 → run (step env) (.start env native) events = some d → Exact env d := by
  intro h
  obtain ⟨d₀, hfirst, hd⟩ : ∃ d₀, step calm (.start calm fun _ => 0) (.setupSnap 0 "/dev/sda1" "/cow" 0) = some d₀ ∧
      d₀ = calmState (calmSnap 0) 16 := ⟨_, step_ok calm_setup, rfl⟩
  obtain ⟨d₁, hsetup, h₁⟩ := step_of_wp (setup_shared hd)
  obtain ⟨d₂, hinc, h₂⟩ := step_of_wp (toInc_shared h₁)
  have hrun : run (step calm) (.start calm fun _ => 0) [.setupSnap 0 "/dev/sda1" "/cow" 0,
      .setupSnap 1 "/dev/sda2" "/cow" 0, .transitionInc 0] = some d₂ := by
    rw [run, hfirst, Option.bind_some, run, hsetup, Option.bind_some, run, hinc, Option.bind_some, run]
  have hexact := h calm _ _ d₂ (fun _ => rfl) calm_small hrun 0
  have hrefs : d₂.ops.refs 0 = some 3 := by
    rw [h₂.ops]
    rfl
  -- but there are no three minors
  have hle : (holders calm d₂ 0).card ≤ 2 := by
    calc (holders calm d₂ 0).card ≤ (Finset.range calm.maxSnapDevices).card := Finset.card_le_card (Finset.filter_subset _ _)
      _ = 2 := Finset.card_range _
  rw [hrefs] at hexact
  split at hexact
  next => cases hexact
  next => rw [← Option.some.inj hexact] at hle; omega

end ElastioSnap.Driver.References
