import ElastioSnap.Driver.Ioctls

namespace ElastioSnap.Driver.Transitions

open Function (update)
open Lib.Outcome State Setup Events Component Rows Tracing Effects Hooks Walk Setups Ioctls
open Cow.Manager (Errno Err)

variable {env : Env} {native : Nat → Nat} {d d₁ d' : DriverState} {a b c i k m n t minor old : Nat} {dev cur : SnapDevice}
  {ops : OpsState} {o : Option Ops} {l : Local} {event : Event}

section

variable (env)

/-- The part of a transition in which it can still be called off. -/
def snapToIncBegin (old : Nat) : DriverM Nat := do
  let a ← tracerAlloc env
  onDev a (setMode false true false)
  let oldDev ← getDev old
  onDev a (do
    tracerCopyBaseDev oldDev
    tracerCopyCowPath oldDev
    tracerCopyCow oldDev)
  onCode
    (do
      onDev a (tracerSetupCowThread env)
      tracerSetupTracing env a oldDev.minor)
    (do
      onDev a (tracerDestroyCowThread env)
      kfree a)
  return a

def snapToIncCommit (old a : Nat) : DriverM Unit := do
  onDev old (tracerDestroyCowThread env)
  let oldDev ← getDev old
  onDev a (modifyDev fun dev => { dev with cow := oldDev.cow })
  match oldDev.failCode with
  | some e =>
      onDev a (do
        tracerSetFailState e
        wakeUpProcess)
      onDev old tracerDestroySnap
      kfree old
      throw (.code e)
  | none =>
      onDev a (do
        wakeUpProcess
        cowTruncateToIndex)
      onDev old tracerDestroySnap
      kfree old

def incToSnapBegin (old : Nat) : DriverM Nat := do
  let a ← tracerAlloc env
  onDev a (setMode true true false)
  let oldDev ← getDev old
  onDev a (tracerCopyBaseDev oldDev)
  onCode
    (do
      if oldDev.cow.isNone then throw .oops
      onDev a (do
        let dev := (← get).dev
        tracerSetupCow env dev.size dev.cacheSize .init
        tracerSetupCowPath env
        tracerSetupSnap env
        tracerSetupCowThread env)
      tracerSetupTracing env a oldDev.minor)
    (do
      onDev a (do
        tracerDestroyCowThread env
        tracerDestroySnap
        tracerDestroyCowPath
        tracerDestroyCow env .free)
      kfree a)
  return a

def incToSnapCommit (old a : Nat) : DriverM Unit := do
  onDev old (tracerDestroyCowThread env)
  onDev a wakeUpProcess
  onDev old (do
    tracerDestroyCowPath
    let _ ← attempt (tracerDestroyCow env .syncAndFree))
  kfree old

end

theorem tracerActiveSnapToInc_eq :
    tracerActiveSnapToInc env old = snapToIncBegin env old >>= snapToIncCommit env old := by
  simp only [tracerActiveSnapToInc, snapToIncBegin, bind_assoc, pure_bind]
  rfl

theorem tracerActiveIncToSnap_eq :
    tracerActiveIncToSnap env old = incToSnapBegin env old >>= incToSnapCommit env old := by
  simp only [tracerActiveIncToSnap, incToSnapBegin, bind_assoc, pure_bind]
  rfl

/-- A transition that was called off: the old device goes on. -/
structure CalledOff (env : Env) (d d' : DriverState) : Prop where
  passed : ∀ event, Passed env event d d'
  rows : d'.row = d.row
  ops : Freezes env → d'.ops = d.ops

theorem calledOff_atCall (hs : Sound env d) : CalledOff env d (d.atCall n) := ⟨fun _ => .atCall hs, rfl, fun _ => rfl⟩

/-- The new device did not take over, and is given up. -/
theorem dropNew_wp {x : DevM Unit} (hx : ∀ l, wp x l (fun _ _ => True) (Fails fun _ _ => False)) (hs : Sound env d)
    (hd₁ : d₁ = upd (allocated d n) d.nextDev dev ops k ∨ d₁ = recalculated env (upd (allocated d n) d.nextDev dev ops k))
    (hops : Freezes env → ops = d.ops) :
    wp (do onDev d.nextDev x; kfree d.nextDev) d₁ (fun _ d' => CalledOff env d d') (Fails fun _ _ => False) := by
  simp only [wp_bind]
  refine (wp_onDev (?_ : _ = some dev)).mpr ?_
  · rcases hd₁ with rfl | rfl <;> exact Function.update_self ..
  apply wp_weaken (hx ⟨dev, d₁.clock⟩)
  · intro _ l _
    rw [kfree_wp]
    have hd₂ : d₁.put d.nextDev l = upd (allocated d n) d.nextDev l.dev ops l.clock ∨
        d₁.put d.nextDev l = recalculated env (upd (allocated d n) d.nextDev l.dev ops l.clock) := by
      rcases hd₁ with rfl | rfl
      · exact .inl upd_put
      · right
        simp only [Tracing.recalculated, DriverState.put, upd, Function.update_idem]
    refine ⟨fun event => (after_failed event l.dev hs hd₂ hops).1, (after_failed (.destroy 0) l.dev hs hd₂ hops).2, fun hf => ?_⟩
    rw [← hops hf]
    rcases hd₁ with rfl | rfl <;> rfl
  · exact fun _ _ h => h

/-- The new device has taken the place of the old one, which is still there. -/
structure HandOver (d : DriverState) (minor old : Nat) (ops : OpsState) (new cur : SnapDevice) (d' : DriverState) : Prop where
  table : d'.snapDevices = update d.snapDevices minor (some d.nextDev)
  low : d'.lowestMinor = min d.lowestMinor minor
  high : d'.highestMinor = max d.highestMinor minor
  disks : d'.ops = ops
  next : d'.nextDev = d.nextDev + 1
  newDev : d'.devs d.nextDev = some new
  oldDev : d'.devs old = some cur
  rest : ∀ {c : Nat}, c ≠ d.nextDev → c ≠ old → d'.devs c = d.devs c

section HandOver

variable {new : SnapDevice}

theorem handOver_placed (new : SnapDevice) (minor : Nat) (ops : OpsState) (hold : old ≠ d.nextDev) (hd : d.devs old = some cur) :
    HandOver d minor old ops new cur (placed (allocated d n) d.nextDev new minor ops k) where
  table := rfl
  low := rfl
  high := rfl
  disks := rfl
  next := rfl
  newDev := Function.update_self ..
  oldDev := (Function.update_of_ne hold ..).trans ((Function.update_of_ne hold ..).trans hd)
  rest h _ := (Function.update_of_ne h ..).trans (Function.update_of_ne h ..)

theorem HandOver.onNew {x : DevM Unit} {Q : Unit → DriverState → Prop} {F : Errno → DriverState → Prop}
    (h : HandOver d minor old ops new cur d') (hold : old ≠ d.nextDev)
    (hx : ∀ n, wp x ⟨new, n⟩ (fun r l => ∀ d'', HandOver d minor old ops l.dev cur d'' → Q r d'')
      (Fails fun _ _ => False)) : wp (onDev d.nextDev x) d' Q (Fails F) := by
  rw [wp_onDev h.newDev]
  apply wp_weaken (hx d'.clock)
  · intro r l hl
    apply hl
    constructor
    case table => exact h.table
    case low => exact h.low
    case high => exact h.high
    case disks => exact h.disks
    case next => exact h.next
    case newDev => exact Function.update_self ..
    case oldDev => exact (Function.update_of_ne hold ..).trans h.oldDev
    case rest => exact fun hc ho => (Function.update_of_ne hc ..).trans (h.rest hc ho)
  · exact fun _ _ h => h.elim

theorem HandOver.onOld {x : DevM Unit} {Q : Unit → DriverState → Prop} {F : Errno → DriverState → Prop}
    (h : HandOver d minor old ops new cur d') (hold : old ≠ d.nextDev)
    (hx : ∀ n, wp x ⟨cur, n⟩ (fun r l => ∀ d'', HandOver d minor old ops new l.dev d'' → Q r d'')
      (Fails fun _ _ => False)) : wp (onDev old x) d' Q (Fails F) := by
  rw [wp_onDev h.oldDev]
  apply wp_weaken (hx d'.clock)
  · intro r l hl
    apply hl
    constructor
    case table => exact h.table
    case low => exact h.low
    case high => exact h.high
    case disks => exact h.disks
    case next => exact h.next
    case newDev => exact (Function.update_of_ne hold.symm ..).trans h.newDev
    case oldDev => exact Function.update_self ..
    case rest => exact fun hc ho => (Function.update_of_ne ho ..).trans (h.rest hc ho)
  · exact fun _ _ h => h.elim

/-- The old device, which the new one has taken the place of, is freed. -/
theorem HandOver.after (h : HandOver d minor old ops new cur d') (hold : old ≠ d.nextDev) (hs : Sound env d)
    (hi : d.snapDevices minor = some old)
    (hp : Passed env event d (placed (allocated d n) d.nextDev new minor ops k)) :
    Passed env event d (freed d' old) := by
  have hrange : ∀ {i c : Nat}, (placed (allocated d n) d.nextDev new minor ops k).snapDevices i = some c →
      d'.lowestMinor ≤ i ∧ i ≤ d'.highestMinor := by
    intro i c hi
    rw [h.low, h.high]
    exact hp.sound.range hi
  refine hp.frame ⟨h.table, ?_, h.next.ge⟩ hrange fun _ => h.disks
  intro j c hj
  rcases update_cases hj with ⟨-, hj⟩ | ⟨hjm, hj⟩
  · rw [← Option.some.inj hj]
    symm
    exact (Function.update_self ..).trans ((Function.update_of_ne hold.symm ..).trans h.newDev).symm
  · have hc : c ≠ d.nextDev := hs.fresh.ne hj
    have hco : c ≠ old := by
      rintro rfl
      exact hjm (hs.apart hj hi)
    calc (freed d' old).devs c = d'.devs c := Function.update_of_ne hco ..
      _ = d.devs c := h.rest hc hco
      _ = (allocated d n).devs c := by
        symm
        exact Function.update_of_ne hc ..
      _ = _ := by
        symm
        exact Function.update_of_ne hc ..

end HandOver

theorem tracerDestroyCowThread_always (l : Local) :
    wp (tracerDestroyCowThread env) l (fun _ _ => True) (Fails fun _ _ => False) :=
  wp_weaken tracerDestroyCowThread_wp (fun _ _ _ => trivial) fun _ _ h => h

theorem dropSnap_always (l : Local) : wp (do
      tracerDestroyCowThread env
      tracerDestroySnap
      tracerDestroyCowPath
      tracerDestroyCow env .free) l (fun _ _ => True) (Fails fun _ _ => False) := by
  simp only [wp_bind]
  apply wp_weaken (tracerDestroyCowThread_always l)
  · intro _ l₁ _
    simp only [tracerDestroySnap, tracerDestroyCowPath, wp_modifyDev]
    exact wp_weaken tracerDestroyCow_free_wp (fun _ _ _ => trivial) fun _ _ h => h
  · exact fun _ _ h => h

/-- The new device is set up as far as the table, or given up. -/
theorem takeOver_wp {setup cleanup : DevM Unit} {G : SnapDevice → Prop} (hs : Sound env d)
    (hsetup : wp setup ⟨dev, m⟩ (fun _ l => l.dev.tracingOps = none ∧ G l.dev) (Fails fun _ _ => True))
    (hcleanup : ∀ l, wp cleanup l (fun _ _ => True) (Fails fun _ _ => False)) :
    wp (onCode
        (do
          onDev d.nextDev setup
          tracerSetupTracing env d.nextDev minor)
        (do
          onDev d.nextDev cleanup
          kfree d.nextDev)) (upd (allocated d n) d.nextDev dev d.ops m)
      (fun _ d' => ∃ new b o t ops k, d' = placed (allocated d n) d.nextDev { new with
          minor := minor
          origOps := o
          tracingOps := some t } minor ops k ∧ G new ∧ new.baseDev = some b ∧ Attached env (allocated d n).row d.ops b o t ops)
      (Fails fun _ d' => CalledOff env d d') := by
  rw [wp_onCode]
  refine wp_weaken (F := fun _ d₂ => ∃ dev ops k, (d₂ = upd (allocated d n) d.nextDev dev ops k ∨
      d₂ = recalculated env (upd (allocated d n) d.nextDev dev ops k)) ∧ (Freezes env → ops = d.ops)) ?_ (fun _ _ h => h) ?_
  · rw [wp_bind, wp_onDev upd_devs]
    apply wp_weaken hsetup
    · rintro _ l ⟨ht, hg⟩
      rw [upd_put]
      apply wp_weaken (setupTracing_wp (sound_allocated hs) (off_allocated hs) ht)
      · rintro _ d' ⟨b, o, t, ops, k, rfl, hb, hatt⟩
        exact ⟨l.dev, b, o, t, ops, k, rfl, hg, hb, hatt⟩
      · rintro c d' ⟨ops, k, rfl, hops⟩
        exact ⟨_, ops, k, .inr rfl, hops⟩
    · rintro c l -
      exact ⟨l.dev, d.ops, l.clock, .inl upd_put, fun _ => rfl⟩
  · rintro c d₂ ⟨dev₁, ops, k, hd₂, hops⟩
    exact wp_weaken (dropNew_wp hcleanup hs hd₂ hops) (fun _ _ h => h) fun _ _ h => h.elim

theorem destroyOldSnap_wp {new : SnapDevice} {F : Errno → DriverState → Prop} (h : HandOver d minor old ops new cur d')
    (hold : old ≠ d.nextDev) (hs : Sound env d) (hi : d.snapDevices minor = some old)
    (hp : Passed env event d (placed (allocated d n) d.nextDev new minor ops k)) :
    wp (onDev old tracerDestroySnap) d' (fun _ d'' => Passed env event d (freed d'' old)) (Fails F) := by
  apply h.onOld hold
  intro m
  rw [tracerDestroySnap, wp_modifyDev]
  exact fun _ h' => h'.after hold hs hi hp

/-- The incremental in the table, before the worker of the old snapshot is gone. -/
def newInc (minor : Nat) (old : SnapDevice) (o : Option Ops) (t : Nat) : SnapDevice :=
  { SnapDevice.zero with
    minor := minor
    active := true
    size := old.size
    baseDev := old.baseDev
    bdevPath := old.bdevPath
    cow := old.cow
    cowPath := old.cowPath
    cacheSize := old.cacheSize
    cowThread := .created
    origOps := o
    tracingOps := some t }

theorem snapToIncBegin_wp (hs : Sound env d) (hi : d.snapDevices minor = some old) (hd : d.devs old = some dev) :
    wp (snapToIncBegin env old) (d.atCall n)
      (fun a d' => a = d.nextDev ∧ ∃ b o t ops k m, d' = placed (allocated d k) d.nextDev (newInc minor dev o t) minor ops m ∧
        dev.cow.isSome ∧ dev.baseDev = some b ∧ Attached env (allocated d k).row d.ops b o t ops)
      (Fails fun _ d' => CalledOff env d d') := by
  have hmin : dev.minor = minor := hs.minor (row_eq_some.mpr ⟨old, hi, hd⟩)
  have hold : old ≠ d.nextDev := hs.fresh.ne hi
  simp only [snapToIncBegin, wp_bind]
  apply wp_weaken (tracerAlloc_wp (d := d.atCall n))
  · rintro a d₁ ⟨rfl, k, rfl⟩
    change wp _ (allocated d k) _ _
    refine (wp_onDev (?_ : _ = some SnapDevice.zero)).mpr ?_
    · exact Function.update_self ..
    rw [setMode, wp_modifyDev, put_upd]
    simp only [wp_getDev]
    intro dev₀ hdev₀
    obtain rfl : dev = dev₀ := Option.some.inj
      (((Function.update_of_ne hold ..).trans ((Function.update_of_ne hold ..).trans hd)).symm.trans hdev₀)
    change wp _ (upd (allocated d k) d.nextDev _ _ _) _ _
    refine (wp_onDev upd_devs).mpr ?_
    simp only [wp_bind, tracerCopyBaseDev, tracerCopyCowPath, tracerCopyCow, wp_modifyDev, upd_put]
    cases hcow : dev.cow with
    | none => trivial
    | some c =>
        simp only [Option.isNone_some, Bool.false_eq_true, if_false, wp_modifyDev, hmin]
        change wp _ (upd (allocated d k) d.nextDev _ d.ops _) _ _
        let first : SnapDevice := { SnapDevice.zero with
          active := true
          size := dev.size
          baseDev := dev.baseDev
          bdevPath := dev.bdevPath
          cow := some c
          cowPath := dev.cowPath
          cacheSize := dev.cacheSize }
        have hthread : wp (tracerSetupCowThread env) ⟨first, k⟩
            (fun _ l => l.dev.tracingOps = none ∧ l.dev = { first with cowThread := .created }) (Fails fun _ _ => True) :=
          wp_weaken tracerSetupCowThread_wp (fun _ _ h => ⟨by rw [h]; rfl, h⟩) fun _ _ _ => trivial
        apply wp_weaken (takeOver_wp (G := fun new => new = { first with cowThread := .created }) hs hthread
          tracerDestroyCowThread_always)
        · rintro _ d₁ ⟨_, b, o, t, ops, m, rfl, rfl, hb, hatt⟩
          refine ⟨rfl, b, o, t, ops, k, m, ?_, rfl, hb, hatt⟩
          simp only [newInc, hcow, first]
        · exact fun _ _ h => h
  · rintro c d₁ ⟨k, rfl⟩
    exact calledOff_atCall hs

theorem snapToIncCommit_wp {k m : Nat} (hs : Sound env d) (hmax : minor < env.maxSnapDevices)
    (hi : d.snapDevices minor = some old) (hd : d.devs old = some dev) (hf : dev.failCode = none) (hsnap : dev.snapshot = true)
    (hact : dev.active = true) (hcow : dev.cow.isSome) (hb : dev.baseDev = some b)
    (hatt : Attached env (allocated d k).row d.ops b o t ops) :
    wp (snapToIncCommit env old d.nextDev) (placed (allocated d k) d.nextDev (newInc minor dev o t) minor ops m)
      (fun _ d' => Passed env (.transitionInc minor) d d') (Fails fun _ d' => Passed env (.transitionInc minor) d d') := by
  have hrow : d.row minor = some dev := row_eq_some.mpr ⟨old, hi, hd⟩
  have hold : old ≠ d.nextDev := hs.fresh.ne hi
  have h₁ := handOver_placed (n := k) (k := m) (newInc minor dev o t) minor ops hold hd
  simp only [snapToIncCommit, wp_bind]
  apply h₁.onOld hold
  intro n₁
  apply wp_weaken tracerDestroyCowThread_wp
  · rintro _ l₁ ⟨hdr, -⟩ d₂ h₂
    rw [wp_getDev]
    intro cur hcur
    obtain rfl : l₁.dev = cur := Option.some.inj (h₂.oldDev.symm.trans hcur)
    have hp : Passed env (.transitionInc minor) d
        (placed (allocated d k) d.nextDev (activeInc minor l₁.dev o t) minor ops m) := by
      have hb₁ : l₁.dev.baseDev = some b := by
        rw [hdr.eq]
        exact hb
      refine .attached (ready_allocated hs hmax) (.toInc hrow hf hsnap hact hcow hdr) rfl rfl hb₁ rfl rfl ?_ hatt
      intro h hh
      obtain ⟨cur, hcur, -, rfl⟩ := hookOf_eq_some.mp hh
      obtain rfl : dev = cur := Option.some.inj (hrow.symm.trans hcur)
      exact ⟨hb, .inl rfl⟩
    have hnew : activeInc minor l₁.dev o t = { newInc minor dev o t with
        failCode := l₁.dev.failCode
        cow := l₁.dev.cow
        cowThread := .running } := by
      rw [hdr.eq]
      rfl
    apply h₂.onNew hold
    intro n₂
    rw [wp_modifyDev]
    intro d₃ h₃
    cases hfail : l₁.dev.failCode with
    | some e =>
        rw [hnew, hfail] at hp
        simp only [wp_bind]
        apply h₃.onNew hold
        intro n₃
        simp only [wp_bind, tracerSetFailState, wp_modifyDev]
        apply wp_weaken wakeUpProcess_wp
        · intro _ l₂ hl₂ d₄ h₄
          rw [hl₂] at h₄
          exact destroyOldSnap_wp h₄ hold hs hi hp
        · exact fun _ _ h => h
    | none =>
        rw [hnew, hfail] at hp
        simp only [wp_bind]
        apply h₃.onNew hold
        intro n₃
        simp only [wp_bind]
        apply wp_weaken wakeUpProcess_wp
        · intro _ l₂ hl₂
          simp only [cowTruncateToIndex, wp_bind, wp_get]
          cases l₂.dev.cow with
          | none => trivial
          | some c₂ =>
              dsimp only
              rw [wp_ite]
              split
              next => trivial
              next =>
                rw [wp_pure]
                intro d₄ h₄
                rw [hl₂] at h₄
                exact destroyOldSnap_wp h₄ hold hs hi hp
        · exact fun _ _ h => h
  · exact fun _ _ h => h

theorem tracerActiveSnapToInc_wp (hs : Sound env d) (hmax : minor < env.maxSnapDevices) (hi : d.snapDevices minor = some old)
    (hd : d.devs old = some dev) (hf : dev.failCode = none) (hsnap : dev.snapshot = true) (hact : dev.active = true) :
    wp (tracerActiveSnapToInc env old) (d.atCall n) (fun _ d' => Passed env (.transitionInc minor) d d')
      (Fails fun _ d' => Passed env (.transitionInc minor) d d') := by
  rw [tracerActiveSnapToInc_eq, wp_bind]
  apply wp_weaken (snapToIncBegin_wp hs hi hd)
  · rintro _ d₁ ⟨rfl, b, o, t, ops, k, m, rfl, hcow, hb, hatt⟩
    exact snapToIncCommit_wp hs hmax hi hd hf hsnap hact hcow hb hatt
  · exact fun _ _ h => h.passed _

/-- The snapshot in the table, before its worker runs. -/
def newSnap (env : Env) (minor : Nat) (old : SnapDevice) (b : Nat) (cowPath : Path) (o : Option Ops) (t : Nat) : SnapDevice :=
  { activeSnap env minor old.size b 0 old.bdevPath cowPath o t with cowThread := .created }

theorem incToSnapBegin_wp (hs : Sound env d) (hi : d.snapDevices minor = some old) (hd : d.devs old = some dev) :
    wp (incToSnapBegin env old) (d.atCall n)
      (fun a d' => a = d.nextDev ∧ ∃ b q o t ops k m, d' = placed (allocated d k) d.nextDev (newSnap env minor dev b q o t) minor ops m ∧
        dev.baseDev = some b ∧ Attached env (allocated d k).row d.ops b o t ops)
      (Fails fun _ d' => CalledOff env d d') := by
  have hmin : dev.minor = minor := hs.minor (row_eq_some.mpr ⟨old, hi, hd⟩)
  have hold : old ≠ d.nextDev := hs.fresh.ne hi
  simp only [incToSnapBegin, wp_bind]
  apply wp_weaken (tracerAlloc_wp (d := d.atCall n))
  · rintro a d₁ ⟨rfl, k, rfl⟩
    change wp _ (allocated d k) _ _
    refine (wp_onDev (?_ : _ = some SnapDevice.zero)).mpr ?_
    · exact Function.update_self ..
    rw [setMode, wp_modifyDev, put_upd]
    simp only [wp_getDev]
    intro dev₀ hdev₀
    obtain rfl : dev = dev₀ := Option.some.inj
      (((Function.update_of_ne hold ..).trans ((Function.update_of_ne hold ..).trans hd)).symm.trans hdev₀)
    change wp _ (upd (allocated d k) d.nextDev _ _ _) _ _
    refine (wp_onDev upd_devs).mpr ?_
    rw [tracerCopyBaseDev, wp_modifyDev, upd_put]
    cases dev.cow with
    | none =>
        rw [wp_onCode]
        trivial
    | some c =>
        simp only [Option.isNone_some, Bool.false_eq_true, if_false, hmin]
        change wp _ (upd (allocated d k) d.nextDev _ d.ops _) _ _
        let first : SnapDevice := { SnapDevice.zero with
          snapshot := true
          active := true
          size := dev.size
          baseDev := dev.baseDev
          bdevPath := dev.bdevPath }
        let G : SnapDevice → Prop := fun new => ∃ q, new = { withSnap (withCow env 0 q first) with cowThread := .created }
        have hparts : wp (do
              let dev := (← get).dev
              tracerSetupCow env dev.size dev.cacheSize .init
              tracerSetupCowPath env
              tracerSetupSnap env
              tracerSetupCowThread env) ⟨first, k⟩ (fun _ l => l.dev.tracingOps = none ∧ G l.dev) (Fails fun _ _ => True) := by
          have h := setupParts_wp (l := ⟨first, k⟩) true 0 .init (x := pure ())
            (Q := fun l => l.dev.tracingOps = none ∧ G l.dev) (by decide) fun l q h => ⟨by rw [h]; rfl, q, h⟩
          refine wp_weaken (F := fun _ l => SameMode first l.dev) ?_ (fun _ _ h => h) fun _ _ _ => trivial
          simp only [wp_bind, if_true, wp_pure] at h
          simp only [wp_bind, wp_get]
          exact h
        apply wp_weaken (takeOver_wp (G := G) hs hparts dropSnap_always)
        · rintro _ d₁ ⟨_, b, o, t, ops, m, rfl, ⟨q, rfl⟩, hb, hatt⟩
          replace hb : dev.baseDev = some b := hb
          refine ⟨rfl, b, q, o, t, ops, k, m, ?_, hb, hatt⟩
          simp only [newSnap, activeSnap, withSnap, withCow, first, hb]
        · exact fun _ _ h => h
  · rintro c d₁ ⟨k, rfl⟩
    exact calledOff_atCall hs

theorem incToSnapCommit_wp {k m : Nat} {q : Path} (hs : Sound env d) (hmax : minor < env.maxSnapDevices)
    (hi : d.snapDevices minor = some old) (hd : d.devs old = some dev) (hf : dev.failCode = none)
    (hsnap : dev.snapshot = false) (hact : dev.active = true) (hb : dev.baseDev = some b)
    (hatt : Attached env (allocated d k).row d.ops b o t ops) :
    wp (incToSnapCommit env old d.nextDev) (placed (allocated d k) d.nextDev (newSnap env minor dev b q o t) minor ops m)
      (fun _ d' => Passed env (.transitionSnap minor) d d') (Fails fun _ d' => Passed env (.transitionSnap minor) d d') := by
  have hrow : d.row minor = some dev := row_eq_some.mpr ⟨old, hi, hd⟩
  have hold : old ≠ d.nextDev := hs.fresh.ne hi
  have hp : Passed env (.transitionSnap minor) d
      (placed (allocated d k) d.nextDev (activeSnap env minor dev.size b 0 dev.bdevPath q o t) minor ops m) := by
    refine .attached (ready_allocated hs hmax) (.toSnap hrow hf hsnap hact hb) rfl rfl rfl rfl rfl ?_ hatt
    intro h hh
    obtain ⟨cur, hcur, -, rfl⟩ := hookOf_eq_some.mp hh
    obtain rfl : dev = cur := Option.some.inj (hrow.symm.trans hcur)
    exact ⟨hb, .inr rfl⟩
  have h₁ := handOver_placed (n := k) (k := m) (newSnap env minor dev b q o t) minor ops hold hd
  simp only [incToSnapCommit, wp_bind]
  apply h₁.onOld hold
  intro n₁
  apply wp_weaken tracerDestroyCowThread_wp
  · rintro _ l₁ - d₂ h₂
    apply h₂.onNew hold
    intro n₂
    apply wp_weaken wakeUpProcess_wp
    · intro _ l₂ hl₂ d₃ h₃
      apply h₃.onOld hold
      intro n₃
      simp only [wp_bind, tracerDestroyCowPath, wp_modifyDev, wp_attempt, wp_pure]
      have hend : ∀ {l₃ : Local} {d₄ : DriverState}, HandOver d minor old ops l₂.dev l₃.dev d₄ →
          wp (kfree old) d₄ (fun _ d' => Passed env (.transitionSnap minor) d d')
            (Fails fun _ d' => Passed env (.transitionSnap minor) d d') := by
        intro l₃ d₄ h₄
        rw [kfree_wp]
        apply h₄.after hold hs hi
        rw [hl₂]
        exact hp
      apply wp_weaken tracerDestroyCow_sync_wp
      · exact fun _ l₃ _ d₄ h₄ => hend h₄
      · exact fun _ l₃ _ d₄ h₄ => hend h₄
    · exact fun _ _ h => h
  · exact fun _ _ h => h

theorem tracerActiveIncToSnap_wp (hs : Sound env d) (hmax : minor < env.maxSnapDevices) (hi : d.snapDevices minor = some old)
    (hd : d.devs old = some dev) (hf : dev.failCode = none) (hsnap : dev.snapshot = false) (hact : dev.active = true) :
    wp (tracerActiveIncToSnap env old) (d.atCall n) (fun _ d' => Passed env (.transitionSnap minor) d d')
      (Fails fun _ d' => Passed env (.transitionSnap minor) d d') := by
  rw [tracerActiveIncToSnap_eq, wp_bind]
  apply wp_weaken (incToSnapBegin_wp hs hi hd)
  · rintro _ d₁ ⟨rfl, b, q, o, t, ops, k, m, rfl, hb, hatt⟩
    exact incToSnapCommit_wp hs hmax hi hd hf hsnap hact hb hatt
  · exact fun _ _ h => h.passed _

theorem ioctlTransitionInc_wp (hs : Sound env d) : wp (ioctlTransitionInc env minor) d
    (fun _ d' => Passed env (.transitionInc minor) d d')
    (Fails fun _ d' => Passed env (.transitionInc minor) d d') := by
  simp only [ioctlTransitionInc, wp_bind]
  apply wp_weaken (verifyMinorInUseNotBusy_wp (d := d))
  · rintro a d₁ ⟨n, rfl, -, hmax, hi⟩
    simp only [wp_getDev]
    intro dev hd
    cases hf : dev.failCode with
    | some e => exact .atCall hs
    | none =>
        dsimp only
        rw [wp_ite]
        split
        next => exact .atCall hs
        next hmode =>
          simp only [Bool.or_eq_true, Bool.not_eq_true', not_or, Bool.not_eq_false] at hmode
          exact tracerActiveSnapToInc_wp hs hmax hi hd hf hmode.1 hmode.2
  · rintro c d₁ ⟨n, rfl⟩
    exact .atCall hs

theorem ioctlTransitionSnap_wp (hs : Sound env d) : wp (ioctlTransitionSnap env minor) d
    (fun _ d' => Passed env (.transitionSnap minor) d d')
    (Fails fun _ d' => Passed env (.transitionSnap minor) d d') := by
  simp only [ioctlTransitionSnap, wp_bind]
  apply wp_weaken (verifyMinorInUseNotBusy_wp (d := d))
  · rintro a d₁ ⟨n, rfl, -, hmax, hi⟩
    simp only [wp_getDev]
    intro dev hd
    rw [wp_ite]
    split
    next => exact .atCall hs
    next hf =>
      rw [wp_ite]
      split
      next => exact .atCall hs
      next hmode =>
        simp only [Bool.or_eq_true, Bool.not_eq_true', not_or, Bool.not_eq_false, Bool.not_eq_true] at hmode
        exact tracerActiveIncToSnap_wp hs hmax hi hd (Option.not_isSome_iff_eq_none.mp hf) hmode.1 hmode.2
  · rintro c d₁ ⟨n, rfl⟩
    exact .atCall hs

end ElastioSnap.Driver.Transitions
