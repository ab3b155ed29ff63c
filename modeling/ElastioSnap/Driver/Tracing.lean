import ElastioSnap.Driver.Rows

namespace ElastioSnap.Driver.Tracing

open Function (update)
open Lib.Outcome State Setup Component Rows
open Cow.Manager (Errno Err)

/-- Devices by minor. -/
abbrev Table := Nat → Option SnapDevice

variable {env : Env} {d : DriverState} {a b minor n : Nat} {dev : SnapDevice} {rows : Table} {ops ops' : OpsState}

/-- No file system refuses to be frozen. -/
def Freezes (env : Env) : Prop := ∀ n, env.freeze n = none

/-- A new state of one device and of the operations. -/
def upd (d : DriverState) (a : Nat) (dev : SnapDevice) (ops : OpsState) (n : Nat) : DriverState :=
  { d with devs := update d.devs a (some dev), ops := ops, clock := n }

@[simp] theorem upd_devs : (upd d a dev ops n).devs a = some dev := Function.update_self ..

@[simp] theorem upd_upd {dev' : SnapDevice} {m : Nat} :
    upd (upd d a dev ops n) a dev' ops' m = upd d a dev' ops' m := by
  simp only [upd, Function.update_idem]

@[simp] theorem upd_ops : (upd d a dev ops n).ops = ops := rfl

@[simp] theorem upd_put {l : Local} : (upd d a dev ops n).put a l = upd d a l.dev ops l.clock := by
  simp only [upd, DriverState.put, Function.update_idem]

@[simp] theorem upd_atCall {m : Nat} : (upd d a dev ops n).atCall m = upd d a dev ops m := rfl

theorem put_upd {l : Local} : d.put a l = upd d a l.dev d.ops l.clock := rfl

theorem untouched_upd (h : Off a d) : Untouched d (upd d a dev ops n) where
  table := rfl
  devs hi := Function.update_of_ne (h.ne hi) ..
  next := Nat.le_refl _

/-- How a device comes to its saved and its tracing operations: its disk has none yet, or they are
taken over from the first device found on it. -/
inductive Found (env : Env) (rows : Table) (ops : OpsState) (b : Nat) : Option Ops → Option Nat → OpsState → Prop
  | first {n : Nat} (h : ops.bdOps (env.disk b) = .native n) : Found env rows ops b (some (.native n)) none ops
  | shared {u i c t r : Nat} {cur : SnapDevice} (h : ops.bdOps (env.disk b) = .copy u) (hi : rows i = some cur)
      (hv : cur.unverified = false) (hc : cur.baseDev = some c) (hu : ops.bdOps (env.disk c) = .copy u)
      (ht : cur.tracingOps = some t) (hr : ops.refs t = some r) :
      Found env rows ops b cur.origOps (some t) { ops with refs := update ops.refs t (some ((r + 1) % 2 ^ 32)) }
  | lost {u i c : Nat} {cur : SnapDevice} (h : ops.bdOps (env.disk b) = .copy u) (hi : rows i = some cur)
      (hv : cur.unverified = false) (hc : cur.baseDev = some c) (hu : ops.bdOps (env.disk c) = .copy u)
      (ht : cur.tracingOps = none) : Found env rows ops b cur.origOps none ops

theorem tracerOnOps_wp {o : Ops} {skip : Option Nat}
    (hs : ∀ {i a : Nat}, d.snapDevices i = some a → d.lowestMinor ≤ i ∧ i ≤ d.highestMinor) :
    wp (tracerOnOps env o skip) d
      (fun r d' => (∃ m, d' = d.atCall m) ∧ match r with
        | some c => ∃ i cur b, d.snapDevices i = some c ∧ d.devs c = some cur ∧ cur.unverified = false ∧ skip ≠ some c ∧
            cur.baseDev = some b ∧ d.ops.bdOps (env.disk b) = o
        | none => ∀ i c, d.snapDevices i = some c → ∃ cur, d.devs c = some cur ∧
            (cur.unverified = false → skip ≠ some c → ∃ b, cur.baseDev = some b ∧ d.ops.bdOps (env.disk b) ≠ o))
      (Fails fun _ _ => False) := by
  let R : Nat → SnapDevice → Bool → Prop := fun c cur r =>
    if cur.unverified ∨ skip = some c then r = false
    else ∃ b, cur.baseDev = some b ∧ r = decide (d.ops.bdOps (env.disk b) = o)
  have hp : ∀ c cur n, wp
      (if cur.unverified ∨ skip = some c then pure false else do return (← getBdOps env cur) = o)
      (d.atCall n) (fun r d' => (∃ m, True ∧ d' = d.atCall m) ∧ R c cur r) (Fails fun _ _ => False) := by
    intro c cur n
    rw [wp_ite]
    split
    next h => exact ⟨⟨n, trivial, rfl⟩, by simp only [R, h, if_true]⟩
    next h =>
      simp only [wp_bind, wp_pure]
      unfold wp getBdOps
      cases hb : cur.baseDev with
      | none => trivial
      | some b =>
          refine ⟨⟨n, trivial, rfl⟩, ?_⟩
          simp only [R, h, if_false]
          exact ⟨b, hb, rfl⟩
  apply wp_weaken (tracerForEach_wp (fun _ => trivial) (fun _ _ => trivial) hp)
  · rintro r d' ⟨⟨m, -, hm⟩, hr⟩
    refine ⟨⟨m, hm⟩, ?_⟩
    cases r with
    | some c =>
        obtain ⟨i, cur, hi, hcur, hR⟩ := hr
        simp only [R] at hR
        split at hR
        next => cases hR
        next h =>
          obtain ⟨b, hb, ho⟩ := hR
          rw [not_or, Bool.not_eq_true] at h
          exact ⟨i, cur, b, hi, hcur, h.1, h.2, hb, of_decide_eq_true ho.symm⟩
    | none =>
        intro i c hi
        obtain ⟨cur, hcur, hR⟩ := hr i (mem_minorRange.mpr (hs hi)) c hi
        refine ⟨cur, hcur, fun hv hskip => ?_⟩
        simp only [R] at hR
        rw [if_neg (by simp [hv, hskip])] at hR
        obtain ⟨b, hb, ho⟩ := hR
        exact ⟨b, hb, of_decide_eq_false ho.symm⟩
  · exact fun _ _ h => h

theorem getBdOps_wp {Q : Ops → DriverState → Prop} {F : Errno → DriverState → Prop} :
    wp (getBdOps env dev) d Q (Fails F) ↔ ∀ b, dev.baseDev = some b → Q (d.ops.bdOps (env.disk b)) d := by
  unfold wp getBdOps
  cases dev.baseDev with
  | none => simp
  | some b => simp

theorem tracingOpsGet_wp {t : Nat} {Q : Unit → DriverState → Prop} {F : Errno → DriverState → Prop} :
    wp (tracingOpsGet t) d Q (Fails F) ↔ ∀ r, d.ops.refs t = some r →
      Q () { d with ops := { d.ops with refs := update d.ops.refs t (some ((r + 1) % 2 ^ 32)) } } := by
  unfold wp tracingOpsGet
  cases d.ops.refs t with
  | none => simp
  | some r => simp

theorem tracingOpsPut_wp {t : Nat} {Q : Unit → DriverState → Prop} {F : Errno → DriverState → Prop} :
    wp (tracingOpsPut t) d Q (Fails F) ↔ ∀ r, d.ops.refs t = some r →
      Q () { d with ops := { d.ops with
        refs := update d.ops.refs t (if r = 1 then none else some ((r + (2 ^ 32 - 1)) % 2 ^ 32)) } } := by
  unfold wp tracingOpsPut
  cases d.ops.refs t with
  | none => simp
  | some r => simp

theorem findOrigFops_wp (hoff : Off a d) (hd : d.devs a = some dev)
    (hs : ∀ {i a : Nat}, d.snapDevices i = some a → d.lowestMinor ≤ i ∧ i ≤ d.highestMinor) :
    wp (findOrigFops env a) d
      (fun _ d' => ∃ b o t ops n, d' = upd d a { dev with origOps := o, tracingOps := t } ops n ∧
        dev.baseDev = some b ∧ Found env d.row d.ops b o t ops)
      (Fails fun _ d' => ∃ o n, d' = upd d a { dev with origOps := o, tracingOps := none } d.ops n) := by
  simp only [findOrigFops, wp_bind, wp_getDev]
  intro dev₀ hdev₀
  obtain rfl : dev = dev₀ := Option.some.inj (hd.symm.trans hdev₀)
  rw [getBdOps_wp]
  intro b hb
  rw [wp_onDev hd, wp_modifyDev, put_upd]
  cases ho : d.ops.bdOps (env.disk b) with
  | native k =>
      simp only [wp_bind]
      apply wp_check
      · rw [upd_atCall, wp_onDev upd_devs, wp_modifyDev]
        exact ⟨b, _, none, d.ops, _, upd_put, hb, .first ho⟩
      · exact ⟨_, _, rfl⟩
  | copy u =>
      simp only [wp_bind]
      have hrange : ∀ {i c : Nat}, (upd d a { dev with tracingOps := none } d.ops d.clock).snapDevices i = some c →
          _ := fun {i c} h => hs (i := i) (a := c) h
      apply wp_weaken (tracerOnOps_wp hrange)
      · rintro r d₁ ⟨⟨m, rfl⟩, hr⟩
        cases r with
        | none =>
            simp only [wp_bind, wp_throw, fails_code]
            rw [upd_atCall, wp_onDev upd_devs, wp_modifyDev]
            exact ⟨none, m, upd_put⟩
        | some c =>
            obtain ⟨i, cur, b', hi, hcur, hv, -, hb', hu⟩ := hr
            have hne : c ≠ a := fun h => hoff i (h ▸ hi)
            have hcur' : d.devs c = some cur := by
              rw [← hcur]
              exact (Function.update_of_ne hne ..).symm
            have hrow : d.row i = some cur := row_eq_some.mpr ⟨c, hi, hcur'⟩
            simp only [wp_bind, wp_getDev]
            intro cur₁ hcur₁
            obtain rfl : cur = cur₁ := Option.some.inj (hcur.symm.trans hcur₁)
            cases ht : cur.tracingOps with
            | none =>
                dsimp only
                rw [upd_atCall, wp_onDev upd_devs, wp_modifyDev]
                exact ⟨b, _, none, d.ops, m, upd_put, hb, .lost ho hrow hv hb' hu ht⟩
            | some t =>
                simp only [wp_bind, tracingOpsGet_wp]
                intro r hr
                change wp (onDev a _) (upd d a { dev with tracingOps := none } _ m) _ _
                rw [wp_onDev upd_devs, wp_modifyDev]
                exact ⟨b, _, some t, _, m, upd_put, hb, .shared ho hrow hv hb' hu ht hr⟩
      · exact fun _ _ h => h.elim

/-- The tracing operations that were found, or new ones, are installed on the disk. -/
inductive Attached (env : Env) (rows : Table) (ops : OpsState) (b : Nat) : Option Ops → Nat → OpsState → Prop
  | known {o : Option Ops} {t : Nat} {ops₁ : OpsState} (h : Found env rows ops b o (some t) ops₁) :
      Attached env rows ops b o t { ops₁ with bdOps := update ops₁.bdOps (env.disk b) (.copy t) }
  | made {o : Option Ops} {ops₁ : OpsState} (h : Found env rows ops b o none ops₁) :
      Attached env rows ops b o ops₁.nextOps
        ⟨update ops₁.bdOps (env.disk b) (.copy ops₁.nextOps), update ops₁.refs ops₁.nextOps (some 1), ops₁.nextOps + 1⟩

/-- A device put into the table. -/
def placed (d : DriverState) (a : Nat) (dev : SnapDevice) (minor : Nat) (ops : OpsState) (n : Nat) : DriverState :=
  { upd d a dev ops n with
    snapDevices := update d.snapDevices minor (some a)
    lowestMinor := min d.lowestMinor minor
    highestMinor := max d.highestMinor minor }

@[simp] theorem placed_devs : (placed d a dev minor ops n).devs a = some dev :=
  Function.update_self ..

@[simp] theorem placed_put {l : Local} : (placed d a dev minor ops n).put a l = placed d a l.dev minor ops l.clock := by
  simp only [placed, upd, DriverState.put, Function.update_idem]

def recalculated (env : Env) (d : DriverState) : DriverState :=
  let used := (List.range env.maxSnapDevices).filter fun i => (d.snapDevices i).isSome
  { d with lowestMinor := used.foldl min (env.maxSnapDevices - 1), highestMinor := used.foldl max 0 }

theorem minorRangeRecalculate_wp {Q : Unit → DriverState → Prop} {F : Errno → DriverState → Prop} :
    wp (minorRangeRecalculate env) d Q (Fails F) ↔ Q () (recalculated env d) := Iff.rfl

/-- One reference less. -/
def released (ops : OpsState) : Option Nat → OpsState
  | some t => { ops with
      refs := update ops.refs t
        ((ops.refs t).bind fun r => if r = 1 then none else some ((r + (2 ^ 32 - 1)) % 2 ^ 32)) }
  | none => ops

theorem freeMrfAndOps_wp (hd : d.devs a = some dev) : wp (freeMrfAndOps a) d
    (fun _ d' => d' = upd d a { dev with tracingOps := none, origOps := none } (released d.ops dev.tracingOps) d.clock)
    (Fails fun _ _ => False) := by
  simp only [freeMrfAndOps, wp_bind, wp_getDev]
  intro dev₀ hdev₀
  obtain rfl : dev = dev₀ := Option.some.inj (hd.symm.trans hdev₀)
  cases ht : dev.tracingOps with
  | none =>
      dsimp only
      rw [wp_onDev hd, wp_modifyDev, put_upd]
      rfl
  | some t =>
      simp only [wp_bind, tracingOpsPut_wp]
      intro r hr
      refine (wp_onDev (?_ : _ = some dev)).mpr ?_
      · exact hd
      · rw [wp_modifyDev, put_upd, released, hr]
        rfl

/-- The error path of a device that did not get as far as the table. -/
theorem undoTracing_wp (dev : SnapDevice) {ops : OpsState} {n : Nat} {dev' : SnapDevice}
    (hdev : { dev' with minor := 0, origOps := none, tracingOps := none } =
      { dev with minor := 0, origOps := none, tracingOps := none })
    (hops : Freezes env → dev'.tracingOps = none ∧ ops = d.ops) :
    wp (do
        onDev a (modifyDev fun dev => { dev with minor := 0 })
        freeMrfAndOps a
        minorRangeRecalculate env) (upd d a dev' ops n)
      (fun _ d' => ∃ ops n, d' = recalculated env
          (upd d a { dev with minor := 0, origOps := none, tracingOps := none } ops n) ∧ (Freezes env → ops = d.ops))
      (Fails fun _ _ => False) := by
  have hcast : ∀ (ops : OpsState) (n : Nat),
      upd d a { dev' with minor := 0, tracingOps := none, origOps := none } ops n =
        upd d a { dev with minor := 0, origOps := none, tracingOps := none } ops n := fun _ _ => congrArg (upd d a · _ _) hdev
  simp only [wp_bind]
  rw [wp_onDev upd_devs, wp_modifyDev, upd_put]
  apply wp_weaken (freeMrfAndOps_wp upd_devs)
  · rintro _ d' rfl
    rw [minorRangeRecalculate_wp, upd_upd, hcast]
    refine ⟨_, _, rfl, fun hf => ?_⟩
    simp only [(hops hf).1, (hops hf).2, released, upd_ops]
  · exact fun _ _ h => h

theorem tracerTransitionTracing_wp {o : Option Ops} {start : Bool} :
    wp (tracerTransitionTracing env a b o minor start) d
      (fun _ d' => d' = { d with
        snapDevices := update d.snapDevices minor (if start then some a else none)
        ops := { d.ops with bdOps := match o with
          | some new => update d.ops.bdOps (env.disk b) new
          | none => d.ops.bdOps }
        clock := d.clock + 1 })
      (Fails fun _ d' => d' = d.atCall (d.clock + 1) ∧ env.freeze d.clock ≠ none) := by
  simp only [tracerTransitionTracing, wp_bind, wp_call]
  cases hf : env.freeze d.clock with
  | some e => exact ⟨rfl, fun h => by cases h⟩
  | none =>
      cases start with
      | true => cases o <;> rfl
      | false => cases o <;> rfl

theorem tracingOpsAlloc_wp (hd : d.devs a = some dev) : wp (tracingOpsAlloc env a) d
    (fun _ d' => ∃ n, d' = upd d a { dev with tracingOps := some d.ops.nextOps }
      { d.ops with refs := update d.ops.refs d.ops.nextOps (some 1), nextOps := d.ops.nextOps + 1 } n)
    (Fails fun _ d' => ∃ n, d' = d.atCall n) := by
  simp only [tracingOpsAlloc, wp_bind]
  apply wp_check
  · apply wp_check
    · simp only [wp_get, modifyOps, wp_modify]
      refine (wp_onDev (?_ : _ = some dev)).mpr ?_
      · exact hd
      · exact ⟨_, rfl⟩
    · exact ⟨_, rfl⟩
  · exact ⟨_, rfl⟩

theorem tracerSetupTracing_wp (hoff : Off a d) (hd : d.devs a = some dev) (ht : dev.tracingOps = none)
    (hs : ∀ {i a : Nat}, d.snapDevices i = some a → d.lowestMinor ≤ i ∧ i ≤ d.highestMinor) :
    wp (tracerSetupTracing env a minor) d
      (fun _ d' => ∃ b o t ops n, d' = placed d a { dev with minor := minor, origOps := o, tracingOps := some t } minor ops n ∧
        dev.baseDev = some b ∧ Attached env d.row d.ops b o t ops)
      (Fails fun _ d' => ∃ ops n, d' = recalculated env
          (upd d a { dev with minor := 0, origOps := none, tracingOps := none } ops n) ∧ (Freezes env → ops = d.ops)) := by
  let d₁ : DriverState := { d with lowestMinor := min d.lowestMinor minor, highestMinor := max d.highestMinor minor }
  have hs₁ : ∀ {i c : Nat}, (upd d₁ a { dev with minor := minor } d.ops d.clock).snapDevices i = some c →
      min d.lowestMinor minor ≤ i ∧ i ≤ max d.highestMinor minor := by
    intro i c h
    obtain ⟨hl, hh⟩ := hs (a := c) h
    omega
  have hrow : (upd d₁ a { dev with minor := minor } d.ops d.clock).row = d.row := (untouched_upd (d := d₁) hoff).rows
  rw [tracerSetupTracing, wp_onCode]
  refine wp_weaken (F := fun _ d' => ∃ o t ops n, d' = upd d₁ a { dev with minor := minor, origOps := o, tracingOps := t } ops n ∧
    (Freezes env → t = none ∧ ops = d.ops)) ?_ (fun _ _ h => h) ?_
  · simp only [wp_bind]
    rw [wp_onDev hd, wp_modifyDev]
    change wp _ (upd d₁ a { dev with minor := minor } d.ops d.clock) _ _
    have hnone : dev.tracingOps.isNone = true := by rw [ht]; rfl
    simp only [wp_getDev, upd_devs, Option.some.injEq, forall_eq', hnone, if_true]
    rw [wp_bind]
    have hfind : wp (findOrigFops env a) _ _ _ :=
      findOrigFops_wp (d := upd d₁ a { dev with minor := minor } d.ops d.clock) hoff upd_devs hs₁
    rw [hrow] at hfind
    apply wp_weaken hfind
    · rintro _ d₂ ⟨b, o, t, ops, n, rfl, hb, hfound⟩
      replace hb : dev.baseDev = some b := hb
      rw [upd_upd]
      cases t with
      | some t =>
          simp only [wp_bind, wp_getDev, upd_devs, Option.some.injEq, forall_eq', Option.isNone_some,
            Bool.false_eq_true, if_false, hb]
          apply wp_weaken tracerTransitionTracing_wp
          · rintro _ d₃ rfl
            exact ⟨b, o, t, _, n + 1, rfl, rfl, .known hfound⟩
          · rintro c d₃ ⟨rfl, hfreeze⟩
            exact ⟨o, some t, ops, n + 1, rfl, fun hf => absurd (hf _) hfreeze⟩
      | none =>
          simp only [wp_bind, wp_getDev, upd_devs, Option.some.injEq, forall_eq', Option.isNone_none, if_true]
          apply wp_weaken (tracingOpsAlloc_wp upd_devs)
          · rintro _ d₃ ⟨m, rfl⟩
            simp only [upd_upd, upd_devs, Option.some.injEq, forall_eq', hb]
            apply wp_weaken tracerTransitionTracing_wp
            · rintro _ d₄ rfl
              exact ⟨b, o, ops.nextOps, _, m + 1, rfl, rfl, .made hfound⟩
            · rintro c d₄ ⟨rfl, hfreeze⟩
              exact ⟨o, some ops.nextOps, _, m + 1, rfl, fun hf => absurd (hf _) hfreeze⟩
          · rintro c d₃ ⟨m, rfl⟩
            refine ⟨o, none, ops, m, rfl, fun hf => ⟨rfl, ?_⟩⟩
            cases hfound <;> rfl
    · rintro c d₂ ⟨o, n, rfl⟩
      exact ⟨o, none, d.ops, n, upd_upd, fun _ => ⟨rfl, rfl⟩⟩
  · rintro c d' ⟨o, t, ops, n, rfl, h⟩
    exact wp_weaken (undoTracing_wp (d := d₁) dev rfl h) (fun _ _ h => h) fun _ _ h => h.elim

theorem setupTracing_wp (hs : Sound env d) (hoff : Off a d) (ht : dev.tracingOps = none) :
    wp (tracerSetupTracing env a minor) (upd d a dev d.ops n)
      (fun _ d' => ∃ b o t ops n, d' = placed d a { dev with minor := minor, origOps := o, tracingOps := some t } minor ops n ∧
        dev.baseDev = some b ∧ Attached env d.row d.ops b o t ops)
      (Fails fun _ d' => ∃ ops n, d' = recalculated env
          (upd d a { dev with minor := 0, origOps := none, tracingOps := none } ops n) ∧ (Freezes env → ops = d.ops)) := by
  apply wp_weaken (tracerSetupTracing_wp (d := upd d a dev d.ops n) hoff upd_devs ht fun h => hs.range h)
  · rintro _ d' ⟨b, o, t, ops, n, rfl, hb, hatt⟩
    rw [(untouched_upd hoff).rows] at hatt
    exact ⟨b, o, t, ops, n, by simp only [placed, upd_upd]; rfl, hb, hatt⟩
  · rintro _ d' ⟨ops, n, rfl, hops⟩
    exact ⟨ops, n, by rw [upd_upd], hops⟩

/-- Another verified device of the table whose disk has the operations that the disk of `b` has. -/
def Shares (env : Env) (rows : Table) (ops : OpsState) (b minor : Nat) : Prop :=
  ∃ i cur c, i ≠ minor ∧ rows i = some cur ∧ cur.unverified = false ∧ cur.baseDev = some c ∧
    ops.bdOps (env.disk c) = ops.bdOps (env.disk b)

/-- The operations of the disk after a device was taken off it. -/
inductive Detached (env : Env) (rows : Table) (dev : SnapDevice) (ops : OpsState) (b minor : Nat) : OpsState → Prop
  | reset {u : Nat} {o : Ops} (h : ops.bdOps (env.disk b) = .copy u) (hn : ¬ Shares env rows ops b minor)
      (ho : dev.origOps = some o) : Detached env rows dev ops b minor
        (released { ops with bdOps := update ops.bdOps (env.disk b) o } dev.tracingOps)
  | kept (h : (ops.bdOps (env.disk b)).isTracing = true → Shares env rows ops b minor) :
      Detached env rows dev ops b minor (released ops dev.tracingOps)

theorem tracerShouldResetMrf_wp (hs : Sound env d) (hd : d.devs a = some dev) (hi : d.snapDevices dev.minor = some a)
    (hb : dev.baseDev = some b) : wp (tracerShouldResetMrf env a) d
      (fun r d' => (∃ m, d' = d.atCall m) ∧ match r with
        | true => (∃ u, d.ops.bdOps (env.disk b) = .copy u) ∧ ¬ Shares env d.row d.ops b dev.minor
        | false => (d.ops.bdOps (env.disk b)).isTracing = true → Shares env d.row d.ops b dev.minor)
      (Fails fun _ _ => False) := by
  simp only [tracerShouldResetMrf, wp_bind, wp_getDev, hd, Option.some.injEq, forall_eq', getBdOps_wp, hb]
  cases ho : d.ops.bdOps (env.disk b) with
  | native k =>
      simp only [Ops.isTracing, Bool.not_false, if_true, wp_pure]
      exact ⟨⟨d.clock, rfl⟩, fun h => by cases h⟩
  | copy u =>
      simp only [Ops.isTracing, Bool.not_true, Bool.false_eq_true, if_false, wp_bind, wp_get, hi, ne_eq,
        not_true_eq_false, wp_pure]
      apply wp_weaken (tracerOnOps_wp fun {i c} h => hs.range h)
      · rintro r d' ⟨hm, hr⟩
        refine ⟨hm, ?_⟩
        cases r with
        | none =>
            refine ⟨⟨u, rfl⟩, ?_⟩
            rintro ⟨i, cur, c, hne, hrow, hv, hc, heq⟩
            obtain ⟨e, he, hcur⟩ := row_eq_some.mp hrow
            obtain ⟨cur', hcur', hother⟩ := hr i e he
            obtain rfl : cur = cur' := Option.some.inj (hcur.symm.trans hcur')
            have hskip : some a ≠ some e := by
              intro h
              rw [← Option.some.inj h] at he
              exact hne (hs.apart he hi)
            obtain ⟨c', hc', hneq⟩ := hother hv hskip
            rw [hc] at hc'
            cases hc'
            exact hneq (heq.trans ho)
        | some e =>
            obtain ⟨i, cur, c, he, hcur, hv, hskip, hc, heq⟩ := hr
            refine fun _ => ⟨i, cur, c, ?_, row_eq_some.mpr ⟨e, he, hcur⟩, hv, hc, heq.trans ho.symm⟩
            rintro rfl
            exact hskip (hi.symm.trans he)
      · exact fun _ _ h => h

theorem flushBioRequests_wp (hd : d.devs a = some dev) : wp (flushBioRequests env a) d
    (fun _ d' => ∃ dev' n, d' = upd d a dev' d.ops n ∧ Drained { dev with cowThread := .running } dev')
    (Fails fun _ _ => False) := by
  simp only [flushBioRequests, wp_bind, wp_attempt]
  have hrest : ∀ (dev₁ : SnapDevice) (n : Nat), (∃ t, dev₁ = { dev with cowThread := t }) →
      wp (onDev a wakeUpProcess) (upd d a dev₁ d.ops n)
        (fun _ d' => wp (onDev a (tracerDestroyCowThread env)) d'
          (fun _ d' => ∃ dev' n, d' = upd d a dev' d.ops n ∧ Drained { dev with cowThread := .running } dev')
          (Fails fun _ _ => False)) (Fails fun _ _ => False) := by
    rintro dev₁ n ⟨t, rfl⟩
    rw [wp_onDev upd_devs]
    apply wp_weaken wakeUpProcess_wp
    · rintro _ ⟨dev₂, m⟩ h
      replace h : dev₂ = { dev with cowThread := .running } := h
      rw [upd_put, wp_onDev upd_devs]
      apply wp_weaken tracerDestroyCowThread_wp
      · rintro _ ⟨dev₃, k⟩ ⟨hdr, -⟩
        exact ⟨dev₃, k, upd_put, h ▸ hdr⟩
      · exact fun _ _ h => h
    · exact fun _ _ h => h
  rw [wp_onDev hd]
  apply wp_weaken tracerSetupCowThread_wp
  · rintro _ ⟨dev₁, n⟩ h
    exact hrest dev₁ n ⟨_, h⟩
  · rintro _ ⟨dev₁, n⟩ h
    exact hrest dev₁ n ⟨dev.cowThread, h⟩

/-- A device that has no saved operations is taken out of the table as it is. -/
theorem tracerDestroyTracing_plain_wp (hd : d.devs a = some dev) (ho : dev.origOps = none) :
    wp (tracerDestroyTracing env a) d
      (fun _ d' => d' = recalculated env { upd d a { dev with minor := 0 } d.ops d.clock with
        snapDevices := if d.snapDevices dev.minor = some a then update d.snapDevices dev.minor none else d.snapDevices })
      (Fails fun _ _ => False) := by
  have hnone : dev.origOps.isSome = false := by rw [ho]; rfl
  simp only [tracerDestroyTracing, wp_bind, wp_getDev, hd, Option.some.injEq, forall_eq', hnone,
    Bool.false_eq_true, if_false, wp_modify]
  by_cases h : d.snapDevices dev.minor = some a
  · simp only [h, if_true]
    refine (wp_onDev (?_ : _ = some dev)).mpr ?_
    · exact hd
    · rfl
  · simp only [h, if_false]
    rw [wp_onDev hd, wp_modifyDev, minorRangeRecalculate_wp]
    rfl

theorem endTracing_wp {o : Option Ops} : wp (attempt (tracerTransitionTracing env a b o minor false)) (upd d a dev d.ops n)
    (fun _ d' => ∃ table ops n, d' = { upd d a dev ops n with snapDevices := table } ∧
      (table = update d.snapDevices minor none ∨ (table = d.snapDevices ∧ ¬ Freezes env)) ∧
      (Freezes env → ops = { d.ops with bdOps := match o with
        | some new => update d.ops.bdOps (env.disk b) new
        | none => d.ops.bdOps }))
    (Fails fun _ _ => False) := by
  rw [wp_attempt]
  apply wp_weaken tracerTransitionTracing_wp
  · rintro _ d' rfl
    exact ⟨_, _, _, rfl, .inl rfl, fun _ => rfl⟩
  · rintro _ d' ⟨rfl, hf⟩
    exact ⟨d.snapDevices, d.ops, n + 1, rfl, .inr ⟨rfl, fun h => hf (h _)⟩, fun h => absurd (h _) hf⟩

/-- A device off its disk, before its own fields are cleared. -/
def Unhooked (env : Env) (d : DriverState) (a : Nat) (dev : SnapDevice) (b : Nat) (d' : DriverState) : Prop :=
  ∃ dev' table ops n, d' = { upd d a dev' ops n with snapDevices := table } ∧ dev'.tracingOps = dev.tracingOps ∧
    (table = update d.snapDevices dev.minor none ∨ (table = d.snapDevices ∧ ¬ Freezes env)) ∧
    (Freezes env → Detached env d.row dev d.ops b dev.minor (released ops dev.tracingOps))

/-- Unless the file system refuses to be frozen, a device of the table is taken out of it, and off
its disk. -/
theorem tracerDestroyTracing_hooked_wp (hs : Sound env d) (hd : d.devs a = some dev)
    (hi : d.snapDevices dev.minor = some a) (ho : dev.origOps.isSome) : wp (tracerDestroyTracing env a) d
      (fun _ d' => ∃ b dev' table ops n, d' = recalculated env { upd d a dev' ops n with snapDevices := table } ∧
        dev.baseDev = some b ∧
        (table = update d.snapDevices dev.minor none ∨ (table = d.snapDevices ∧ ¬ Freezes env)) ∧
        (Freezes env → Detached env d.row dev d.ops b dev.minor ops))
      (Fails fun _ _ => False) := by
  obtain ⟨o, ho⟩ := Option.isSome_iff_exists.mp ho
  have hsome : dev.origOps.isSome = true := by rw [ho]; rfl
  simp only [tracerDestroyTracing, wp_getDev, hd, Option.some.injEq, forall_eq', hsome, if_true, wp_bind]
  split
  next => trivial
  next b hb =>
    simp only [wp_bind]
    apply wp_weaken (tracerShouldResetMrf_wp hs hd hi hb)
    · rintro r d₁ ⟨⟨m, rfl⟩, hr⟩
      have hat : d.atCall m = upd d a dev d.ops m := by
        simp only [upd, DriverState.atCall, ← hd, Function.update_eq_self]
      rw [hat]
      refine wp_weaken (Q := fun _ d₁ => Unhooked env d a dev b d₁) (F := fun _ _ => False) ?_ ?_ fun _ _ h => h
      · cases r with
        | true =>
            obtain ⟨⟨u, hu⟩, hshare⟩ := hr
            have hend : ∀ (dev₁ : SnapDevice) (n : Nat), dev₁.tracingOps = dev.tracingOps →
                wp (attempt (tracerTransitionTracing env a b dev.origOps dev.minor false)) (upd d a dev₁ d.ops n)
                  (fun _ d₁ => Unhooked env d a dev b d₁) (Fails fun _ _ => False) := by
              intro dev₁ n ht
              apply wp_weaken endTracing_wp
              · rintro _ d₂ ⟨table, ops, n, rfl, htable, hops⟩
                refine ⟨dev₁, table, ops, n, rfl, ht, htable, fun hf => ?_⟩
                rw [hops hf, ho]
                exact .reset hu hshare ho
              · exact fun _ _ h => h
            simp only [if_true, wp_ite, wp_bind, wp_pure]
            split
            next =>
              apply wp_weaken (flushBioRequests_wp upd_devs)
              · rintro _ d₂ ⟨dev₁, n, rfl, hdr⟩
                rw [upd_upd]
                exact hend dev₁ n (by rw [hdr.eq])
              · exact fun _ _ h => h
            next => exact hend dev m rfl
        | false =>
            simp only [Bool.false_eq_true, if_false, wp_bind, wp_pure]
            apply wp_weaken endTracing_wp
            · rintro _ d₂ ⟨table, ops, n, rfl, htable, hops⟩
              refine ⟨dev, table, ops, n, rfl, rfl, htable, fun hf => ?_⟩
              rw [hops hf]
              exact .kept hr
            · exact fun _ _ h => h
      · rintro _ d₂ ⟨dev₁, table, ops, n, rfl, ht, htable, hops⟩
        have hd₁ : ({ upd d a dev₁ ops n with snapDevices := table } : DriverState).devs a = some dev₁ :=
          Function.update_self ..
        apply wp_weaken (freeMrfAndOps_wp hd₁)
        · rintro _ d' rfl
          rw [wp_onDev upd_devs, wp_modifyDev, minorRangeRecalculate_wp, upd_put, ht]
          refine ⟨b, { dev₁ with minor := 0, tracingOps := none, origOps := none }, table, _, n, ?_, hb, htable, hops⟩
          simp only [upd, Function.update_idem]
        · exact fun _ _ h => h
    · exact fun _ _ h => h

end ElastioSnap.Driver.Tracing
