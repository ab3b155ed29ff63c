import ElastioSnap.Driver.Parts
import ElastioSnap.Driver.Requests

namespace ElastioSnap.Driver.Minors

open Function (update)
open Lib.Outcome Lib.Extend Lib.Runs State Setup Events Component Rows Setups Transitions Steps Borrowed Requests Parts
open Cow.Manager (Errno Err)

section

variable {env : Env}

/-- The minor of a device is one of the table. -/
def Within (env : Env) (l : Local) : Prop := l.dev.minor < env.maxSnapDevices

/-- The minor of every device in memory is one of the table. -/
def Bounded (env : Env) (d : DriverState) : Prop := ∀ a dev, d.devs a = some dev → dev.minor < env.maxSnapDevices

variable {d : DriverState} {a b minor : Nat}

/-- What does not touch the memory of a device. -/
theorem keeps_same {α : Type} {x : DriverM α} (h : Preserves DriverState.devs x) : Keeps (Bounded env) x :=
  h.relates fun s t hst hs a dev hdev => hs a dev (by rw [← hst]; exact hdev)

theorem keeps_still {α : Type} {x : DriverM α} (h : Preserves still x) : Keeps (Bounded env) x :=
  keeps_same (h.comp DriverState.devs)

theorem bounded_update {dev : Option SnapDevice} (hb : Bounded env d) (hdev : ∀ x, dev = some x → x.minor < env.maxSnapDevices) :
    ∀ c x, update d.devs a dev c = some x → x.minor < env.maxSnapDevices := by
  intro c x hx
  rcases Hooks.update_cases hx with ⟨-, h⟩ | ⟨-, h⟩
  · exact hdev x h
  · exact hb c x h

theorem bounded_onDev {α : Type} {x : DevM α} (hx : Keeps (Within env) x) : Keeps (Bounded env) (onDev a x) := by
  rw [keeps_iff]
  intro d hb
  unfold wp onDev
  cases hd : d.devs a with
  | none => exact hb
  | some dev =>
      have hwp := keeps_iff.mp hx ⟨dev, d.clock⟩ (hb a dev hd)
      unfold wp at hwp
      dsimp only
      cases hrun : x ⟨dev, d.clock⟩ with
      | ok r l =>
          rw [hrun] at hwp
          exact bounded_update hb fun _ h => Option.some.inj h ▸ hwp
      | error e l =>
          rw [hrun] at hwp
          exact bounded_update hb fun _ h => Option.some.inj h ▸ hwp

theorem keeps_onDev {α : Type} {x : DevM α} (hx : Relates Stays x) : Keeps (Bounded env) (onDev a x) := by
  refine bounded_onDev (keeps_iff.mpr fun l hl => ?_)
  have hstay : ∀ {l' : Local}, Stays l l' → Within env l' := by
    intro l' h
    have hm : l'.dev.minor = l.dev.minor := congrArg Prod.fst h
    rw [Within, hm]
    exact hl
  exact wp_mono (hx l) (fun _ _ h => hstay h) fun _ _ h => hstay h

theorem keeps_setMinor (hm : minor < env.maxSnapDevices) :
    Keeps (Bounded env) (onDev a (modifyDev fun dev => { dev with minor := minor })) :=
  bounded_onDev fun _ _ => hm

/-- A device that was there had a minor of the table, so that there is a minor 0. -/
theorem keeps_clearMinor : Keeps (Bounded env) (onDev a (modifyDev fun dev => { dev with minor := 0 })) :=
  bounded_onDev fun _ hl => Nat.lt_of_le_of_lt (Nat.zero_le _) hl

theorem keeps_modest {α : Type} {x : DriverM α} (h : Relates (Held Modest) x) : Keeps (Bounded env) x := by
  have hkeep : ∀ {d d' : DriverState}, Held Modest d d' → Carries (Bounded env) d d' := by
    intro d d' hd hb c dev' hdev
    obtain ⟨dev, hdev, hmodest⟩ := hd c dev' hdev
    rw [hmodest.minor]
    exact hb c dev hdev
  exact fun d => wp_mono (h d) (fun _ _ hd => hkeep hd) fun _ _ hd => hkeep hd

theorem keeps_freeMrfAndOps : Keeps (Bounded env) (freeMrfAndOps a) := keeps_modest modest_freeMrfAndOps

theorem keeps_alloc (h : 0 < env.maxSnapDevices) : Keeps (Bounded env) (tracerAlloc env) := by
  refine (keeps_still still_check).bind fun _ => relates_get.bind fun d => Relates.bind ?_ fun _ => relates_pure
  intro d hb
  exact bounded_update hb fun _ hx => Option.some.inj hx ▸ h

theorem keeps_kfree : Keeps (Bounded env) (kfree a) := keeps_modest held_kfree

theorem keeps_recalculate : Keeps (Bounded env) (minorRangeRecalculate env) := keeps_same (preserves_modify fun _ => by rfl)

theorem keeps_include : Keeps (Bounded env) (minorRangeInclude minor) := keeps_same (preserves_modify fun _ => by rfl)

end

section

variable {env : Env} {d : DriverState} {a b minor : Nat} {i : Int}

/-- The index is one of the table. -/
def InTable (env : Env) (i : Int) : Prop := 0 ≤ i ∧ i < env.maxSnapDevices

/-- The devices have minors of the table, and the table was accessed by such minors. -/
def Proper (env : Env) (s : DriverState × List Int) : Prop := Bounded env s.1 ∧ ∀ i ∈ s.2, InTable env i

theorem inTable_of_lt (h : minor < env.maxSnapDevices) : InTable env minor :=
  ⟨Int.natCast_nonneg minor, Int.ofNat_lt.mpr h⟩

theorem proper_lift {α : Type} {x : DriverM α} (h : Keeps (Bounded env) x) : Keeps (Proper env) (lift x) :=
  keeps_lift (J := fun log => ∀ i ∈ log, InTable env i) h

theorem proper_same {α : Type} {x : DriverM α} (h : Preserves DriverState.devs x) : Keeps (Proper env) (lift x) :=
  proper_lift (keeps_same h)

theorem proper_still {α : Type} {x : DriverM α} (h : Preserves still x) : Keeps (Proper env) (lift x) :=
  proper_lift (keeps_still h)

theorem proper_dev {α : Type} {x : DevM α} (h : Relates Stays x) : Keeps (Proper env) (lift (onDev a x)) :=
  proper_lift (keeps_onDev h)

theorem proper_touch (h : InTable env i) : Keeps (Proper env) (touch i) :=
  keeps_note (J := fun log => ∀ i ∈ log, InTable env i) fun _ _ hu => List.forall_mem_cons.mpr ⟨h, hu⟩

theorem proper_get : Keeps (Proper env) (lift get : RequestM DriverState) := proper_lift relates_get

/-- A device that is read has a minor of the table. -/
theorem proper_getDev {α : Type} {f : SnapDevice → RequestM α}
    (h : ∀ dev, dev.minor < env.maxSnapDevices → Keeps (Proper env) (f dev)) :
    Keeps (Proper env) (lift (getDev a) >>= f) := by
  apply Keeps.bind_of (P := fun dev => dev.minor < env.maxSnapDevices)
  · rintro s ⟨hb, hlog⟩
    rw [wp_lift]
    unfold wp getDev
    cases hd : s.1.devs a with
    | none => exact ⟨hb, hlog⟩
    | some dev => exact ⟨⟨hb, hlog⟩, hb a dev hd⟩
  · exact h

theorem proper_shouldResetMrf : Keeps (Proper env) (seenShouldResetMrf env a) := by
  refine proper_getDev fun dev hm => (proper_still still_getBdOps).bind fun ops => ?_
  have hrest : Keeps (Proper env) (do
      touch dev.minor
      if (← lift get).snapDevices dev.minor ≠ some a then return false
      return (← lift (tracerOnOps env ops (some a))).isNone) := by
    have hend : Keeps (Proper env) (do return (← lift (tracerOnOps env ops (some a))).isNone) :=
      (proper_still still_tracerOnOps).bind fun _ => relates_pure
    exact (proper_touch (inTable_of_lt hm)).bind fun _ => proper_get.bind fun d => Relates.ite relates_pure hend
  exact Relates.ite relates_pure hrest

theorem proper_endTracing {o : Option Ops} {dev : SnapDevice} (hm : dev.minor < env.maxSnapDevices) :
    Keeps (Proper env) (do
      touch dev.minor
      let _ ← attempt (lift (tracerTransitionTracing env a b o dev.minor false))
      pure ()) :=
  (proper_touch (inTable_of_lt hm)).bind fun _ =>
    (relates_attempt (proper_same preserves_transitionTracing)).bind fun _ => relates_pure

theorem proper_destroyTracing : Keeps (Proper env) (seenDestroyTracing env a) := by
  refine proper_getDev fun dev hm => Relates.bind (Relates.ite ?_ ?_) fun _ =>
    (proper_lift keeps_clearMinor).bind fun _ => proper_lift keeps_recalculate
  · cases dev.baseDev with
    | none => exact relates_throw
    | some b =>
        refine proper_shouldResetMrf.bind fun r => Relates.bind ?_ fun _ => proper_lift keeps_freeMrfAndOps
        refine Relates.ite (Relates.ite ?_ ?_) ?_
        · exact (proper_lift (keeps_modest modest_flush)).bind fun _ => proper_endTracing hm
        · exact proper_endTracing hm
        · exact proper_endTracing hm
  · refine (proper_touch (inTable_of_lt hm)).bind fun _ => proper_same (preserves_modify fun d => ?_)
    split <;> rfl

theorem proper_setupTracingUnverified (hm : minor < env.maxSnapDevices) :
    Keeps (Proper env) (seenSetupTracingUnverified a minor) :=
  (proper_lift keeps_freeMrfAndOps).bind fun _ => (proper_lift keeps_include).bind fun _ =>
    (proper_lift (keeps_setMinor hm)).bind fun _ => (proper_touch (inTable_of_lt hm)).bind fun _ =>
      proper_same (preserves_modify fun _ => by rfl)

theorem proper_startTracing (hm : minor < env.maxSnapDevices) : Keeps (Proper env) (do
    let dev ← lift (getDev a)
    match dev.baseDev, dev.tracingOps with
    | some b, some t => do
        touch minor
        lift (tracerTransitionTracing env a b (some (.copy t)) minor true)
    | _, _ => throw .oops) := by
  refine proper_getDev fun dev _ => ?_
  cases dev.baseDev with
  | none => exact relates_throw
  | some b =>
      cases dev.tracingOps with
      | none => exact relates_throw
      | some t => exact (proper_touch (inTable_of_lt hm)).bind fun _ => proper_same preserves_transitionTracing

theorem proper_setupTracing (hm : minor < env.maxSnapDevices) : Keeps (Proper env) (seenSetupTracing env a minor) := by
  refine relates_onCode ?_ ((proper_lift keeps_clearMinor).bind fun _ => (proper_lift keeps_freeMrfAndOps).bind fun _ =>
    proper_lift keeps_recalculate)
  have hend := proper_startTracing (a := a) hm
  refine (proper_lift (keeps_setMinor hm)).bind fun _ => (proper_lift keeps_include).bind fun _ => proper_getDev fun dev _ =>
    Relates.ite ?_ relates_pure
  refine (proper_lift (keeps_modest modest_findOrigFops)).bind fun _ => proper_getDev fun dev _ => Relates.ite ?_ hend
  exact (proper_lift (keeps_modest modest_opsAlloc)).bind fun _ => hend

theorem proper_destroy : Keeps (Proper env) (seenDestroy env a) :=
  proper_destroyTracing.bind fun _ => proper_dev (stays_of meek_stripParts)

theorem proper_setupActiveSnap {bdevPath : Path} {cacheSize : Nat} (hm : minor < env.maxSnapDevices) :
    Keeps (Proper env) (seenSetupActiveSnap env a minor bdevPath cacheSize) := by
  refine (proper_dev stays_setMode).bind fun _ => relates_onCode ?_ proper_destroy
  refine (proper_lift (keeps_modest modest_setupBaseDev)).bind fun _ => (proper_dev ?_).bind fun _ => proper_setupTracing hm
  exact relates_get.bind fun l => (stays_of meek_setupCow).bind fun _ => (stays_of meek_setupCowPath).bind fun _ => (stays_of meek_wakeParts)

theorem proper_setupUnverified {bdevPath cowPath : Path} {cacheSize : Nat} {isSnap : Bool} (hm : minor < env.maxSnapDevices) :
    Keeps (Proper env) (seenSetupUnverified env a minor bdevPath cowPath cacheSize isSnap) := by
  refine (proper_dev stays_setMode).bind fun _ => (proper_dev (stays_modifyDev fun _ => by rfl)).bind fun _ =>
    relates_onCode ?_ proper_destroy
  exact (proper_still still_check).bind fun _ => (proper_dev (stays_modifyDev fun _ => by rfl)).bind fun _ =>
    (proper_still still_check).bind fun _ => (proper_dev (stays_modifyDev fun _ => by rfl)).bind fun _ =>
      proper_setupTracingUnverified hm

theorem modest_snapToIncCommit {old : Nat} : Relates (Held Modest) (snapToIncCommit env old a) := by
  refine (modest_dev meek_destroyCowThread).bind fun _ => (held_still still_getDev).bind fun oldDev =>
    (modest_dev (meek_modifyDev fun _ => by rfl)).bind fun _ => ?_
  have hsnap : Relates Meek tracerDestroySnap := meek_modifyDev fun _ => by rfl
  cases oldDev.failCode with
  | some e =>
      exact (modest_dev (meek_failState.bind fun _ => meek_wakeUp)).bind fun _ =>
        (modest_dev hsnap).bind fun _ => held_kfree.bind fun _ => relates_throw
  | none =>
      exact (modest_dev (meek_wakeUp.bind fun _ => meek_truncate)).bind fun _ =>
        (modest_dev hsnap).bind fun _ => held_kfree

theorem modest_incToSnapCommit {old : Nat} : Relates (Held Modest) (incToSnapCommit env old a) := by
  refine (modest_dev meek_destroyCowThread).bind fun _ => (modest_dev meek_wakeUp).bind fun _ =>
    (modest_dev ?_).bind fun _ => held_kfree
  exact (meek_modifyDev fun _ => by rfl).bind fun _ => (relates_attempt meek_destroyCow).bind fun _ => relates_pure

theorem proper_snapToInc (h0 : 0 < env.maxSnapDevices) : Keeps (Proper env) (seenSnapToInc env a) := by
  refine (proper_lift (keeps_alloc h0)).bind fun new => (proper_dev stays_setMode).bind fun _ => proper_getDev fun oldDev hm => ?_
  refine (proper_dev ?_).bind fun _ => Relates.bind (relates_onCode ?_ ?_) fun _ => proper_lift (keeps_modest modest_snapToIncCommit)
  · exact (stays_modifyDev fun _ => by rfl).bind fun _ => (stays_modifyDev fun _ => by rfl).bind fun _ => (stays_of meek_copyCow)
  · exact (proper_dev (stays_of meek_setupCowThread)).bind fun _ => proper_setupTracing hm
  · exact (proper_dev (stays_of meek_destroyCowThread)).bind fun _ => proper_lift keeps_kfree

theorem proper_incToSnap (h0 : 0 < env.maxSnapDevices) : Keeps (Proper env) (seenIncToSnap env a) := by
  refine (proper_lift (keeps_alloc h0)).bind fun new => (proper_dev stays_setMode).bind fun _ => proper_getDev fun oldDev hm => ?_
  refine (proper_dev (stays_modifyDev fun _ => by rfl)).bind fun _ => Relates.bind (relates_onCode ?_ ?_) fun _ =>
    proper_lift (keeps_modest modest_incToSnapCommit)
  · have hparts : Keeps (Proper env) (do
        lift (onDev new (do
          let dev := (← get).dev
          tracerSetupCow env dev.size dev.cacheSize .init
          tracerSetupCowPath env
          tracerSetupSnap env
          tracerSetupCowThread env))
        seenSetupTracing env new oldDev.minor) := by
      refine (proper_dev ?_).bind fun _ => proper_setupTracing hm
      exact relates_get.bind fun l => (stays_of meek_setupCow).bind fun _ => (stays_of meek_setupCowPath).bind fun _ =>
        (stays_of meek_setupSnap).bind fun _ => (stays_of meek_setupCowThread)
    exact Relates.ite (relates_throw.bind fun _ => hparts) hparts
  · refine (proper_dev ?_).bind fun _ => proper_lift keeps_kfree
    exact (stays_of meek_destroyCowThread).bind fun _ => (stays_modifyDev fun _ => by rfl).bind fun _ =>
      (stays_modifyDev fun _ => by rfl).bind fun _ => (stays_of meek_destroyCow)

/-- A minor that passes the check is one of the table. -/
theorem proper_available {α : Type} {f : Unit → RequestM α} (h : minor < env.maxSnapDevices → Keeps (Proper env) (f ())) :
    Keeps (Proper env) (seenMinorAvailable env minor >>= f) := by
  by_cases hm : env.maxSnapDevices ≤ minor
  · simp only [seenMinorAvailable, hm, if_true]
    exact fun _ hs => hs
  · have hlt := Nat.lt_of_not_le hm
    refine Relates.bind ?_ fun _ => h hlt
    simp only [seenMinorAvailable, hm, if_false]
    exact (proper_touch (inTable_of_lt hlt)).bind fun _ => proper_get.bind fun d => Relates.ite relates_throw relates_pure

theorem proper_inUse {α : Type} {f : Nat → RequestM α} (h : minor < env.maxSnapDevices → ∀ a, Keeps (Proper env) (f a)) :
    Keeps (Proper env) (seenMinorInUse env minor >>= f) := by
  by_cases hm : env.maxSnapDevices ≤ minor
  · simp only [seenMinorInUse, hm, if_true]
    exact fun _ hs => hs
  · have hlt := Nat.lt_of_not_le hm
    refine Relates.bind ?_ fun a => h hlt a
    simp only [seenMinorInUse, hm, if_false]
    refine (proper_touch (inTable_of_lt hlt)).bind fun _ => proper_get.bind fun d => ?_
    cases d.snapDevices minor with
    | none => exact relates_throw
    | some a => exact relates_pure

theorem proper_inUseNotBusy {α : Type} {f : Nat → RequestM α} (h : minor < env.maxSnapDevices → ∀ a, Keeps (Proper env) (f a)) :
    Keeps (Proper env) (seenMinorInUseNotBusy env minor >>= f) := by
  by_cases hm : env.maxSnapDevices ≤ minor
  · simp only [seenMinorInUseNotBusy, hm, if_true]
    exact fun _ hs => hs
  · have hlt := Nat.lt_of_not_le hm
    refine Relates.bind ?_ fun a => h hlt a
    simp only [seenMinorInUseNotBusy, hm, if_false]
    refine (proper_touch (inTable_of_lt hlt)).bind fun _ => proper_get.bind fun d => ?_
    cases d.snapDevices minor with
    | none => exact relates_throw
    | some a =>
        exact (proper_touch (inTable_of_lt hlt)).bind fun _ => (proper_still still_call).bind fun n =>
          Relates.ite relates_throw relates_pure

end

section

variable {env : Env} {word : Int → Option Nat} {native : Nat → Nat} {d d' : DriverState} {a b minor cacheSize : Nat}
  {event : Event}

theorem still_bdevWritable {path : Path} : Preserves still (verifyBdevWritable env path) := by
  refine still_call.bind fun n => ?_
  cases env.blkdevGetByPath n path with
  | error e => exact preserves_throw
  | ok b => exact preserves_pure

theorem proper_setup {bdevPath cowPath : Path} {isSnap isReload : Bool} :
    Keeps (Proper env) (seenSetup env minor bdevPath cowPath cacheSize isSnap isReload) := by
  refine proper_available fun hm => (proper_still still_bdevWritable).bind fun isMounted => ?_
  have hrest : Keeps (Proper env) (do
      let a ← lift (tracerAlloc env)
      onCode
        (if isSnap then
          if isMounted then seenSetupActiveSnap env a minor bdevPath cacheSize
          else seenSetupUnverified env a minor bdevPath cowPath cacheSize true
        else if !isMounted then seenSetupUnverified env a minor bdevPath cowPath cacheSize false
        else throw (.code .einval))
        (lift (kfree a))) := by
    refine (proper_lift (keeps_alloc (Nat.lt_of_le_of_lt (Nat.zero_le _) hm))).bind fun a =>
      relates_onCode ?_ (proper_lift keeps_kfree)
    refine Relates.ite (Relates.ite ?_ ?_) (Relates.ite ?_ relates_throw)
    · exact proper_setupActiveSnap hm
    · exact proper_setupUnverified hm
    · exact proper_setupUnverified hm
  exact Relates.ite (relates_throw.bind fun _ => hrest) hrest

theorem proper_ioctlDestroy : Keeps (Proper env) (seenIoctlDestroy env minor) :=
  proper_inUseNotBusy fun hm _ => (proper_touch (inTable_of_lt hm)).bind fun _ =>
    (proper_touch (inTable_of_lt hm)).bind fun _ => proper_destroy.bind fun _ => proper_lift keeps_kfree

theorem proper_transitionInc : Keeps (Proper env) (seenTransitionInc env minor) := by
  refine proper_inUseNotBusy fun hm a => (proper_touch (inTable_of_lt hm)).bind fun _ => proper_getDev fun dev _ => ?_
  have hrest : Keeps (Proper env) (seenSnapToInc env a) := proper_snapToInc (Nat.lt_of_le_of_lt (Nat.zero_le _) hm)
  cases dev.failCode with
  | some e => exact relates_throw
  | none => exact Relates.ite (relates_throw.bind fun _ => hrest) hrest

theorem proper_transitionSnap : Keeps (Proper env) (seenTransitionSnap env minor) := by
  refine proper_inUseNotBusy fun hm a => (proper_touch (inTable_of_lt hm)).bind fun _ => proper_getDev fun dev _ => ?_
  have hrest : Keeps (Proper env) (seenIncToSnap env a) := proper_incToSnap (Nat.lt_of_le_of_lt (Nat.zero_le _) hm)
  have hmode : Keeps (Proper env) (do
      if dev.snapshot || !dev.active then throw (.code .einval)
      seenIncToSnap env a) := Relates.ite (relates_throw.bind fun _ => hrest) hrest
  exact Relates.ite (relates_throw.bind fun _ => hmode) hmode

theorem proper_reconfigure : Keeps (Proper env) (seenReconfigure env minor cacheSize) := by
  refine proper_inUseNotBusy fun hm a => (proper_touch (inTable_of_lt hm)).bind fun _ => proper_getDev fun dev _ => ?_
  exact Relates.ite (relates_throw.bind fun _ => proper_dev (stays_of meek_reconfigure)) (proper_dev (stays_of meek_reconfigure))

theorem proper_info : Keeps (Proper env) (seenInfo env minor) :=
  proper_inUse fun hm _ => (proper_touch (inTable_of_lt hm)).bind fun _ => proper_getDev fun _ _ => relates_pure

/-- A computation that keeps the minors in the table while its accesses are watched, keeps them there. -/
theorem bounded_of_proper {α : Type} {x : DriverM α} {y : RequestM α} (h : Extends y x) (hy : Keeps (Proper env) y) :
    Keeps (Bounded env) x :=
  h.keeps (J := fun log => ∀ i ∈ log, InTable env i) [] (List.forall_mem_nil _) hy

theorem keeps_toDormant : Keeps (Bounded env) (tracerActiveToDormant env a) := by
  refine keeps_onDev ((stays_of meek_destroyCowThread).bind fun _ => (relates_attempt (stays_of meek_destroyCow)).bind fun r => ?_)
  cases r with
  | none => exact stays_modifyDev fun _ => by rfl
  | some e => exact (stays_of meek_failState)

theorem keeps_toActive : Keeps (Bounded env) (tracerDormantToActive env a) := by
  refine keeps_onDev ((relates_attempt ?_).bind fun r => ?_)
  · exact (stays_of meek_setupCow).bind fun _ => (stays_of meek_setupCowThread).bind fun _ => (stays_of meek_wakeUp).bind fun _ =>
      stays_modifyDev fun _ => by rfl
  · cases r with
    | none => exact relates_pure
    | some e => exact (stays_of meek_failState)

theorem keeps_verified {isSnap : Bool} : Keeps (Bounded env) (tracerUnverifiedToActive env isSnap a) := by
  apply Keeps.bind_of (P := fun dev => dev.minor < env.maxSnapDevices)
  · intro d hb
    unfold wp getDev
    cases hd : d.devs a with
    | none => exact hb
    | some dev => exact ⟨hb, hb a dev hd⟩
  · intro dev hm
    cases dev.bdevPath with
    | none => exact relates_throw
    | some bdevPath =>
        cases dev.cowPath with
        | none => exact relates_throw
        | some relPath =>
            refine (bounded_of_proper extends_destroyTracing proper_destroyTracing).bind fun _ =>
              (keeps_onDev (stays_modifyDev fun _ => by rfl)).bind fun _ => (relates_attempt ?_).bind fun r => ?_
            · refine (keeps_modest modest_setupBaseDev).bind fun _ => (keeps_onDev ?_).bind fun _ =>
                bounded_of_proper extends_setupTracing (proper_setupTracing hm)
              have hend : Relates Stays (do
                  tracerSetupCowThread env
                  wakeUpProcess) := (stays_of meek_setupCowThread).bind fun _ => (stays_of meek_wakeUp)
              exact relates_get.bind fun l => (stays_of meek_setupCow).bind fun _ => (stays_of meek_setupCowPath).bind fun _ =>
                Relates.ite ((stays_of meek_setupSnap).bind fun _ => hend) hend
            · cases r with
              | none => exact relates_pure
              | some e =>
                  exact (bounded_of_proper extends_destroy proper_destroy).bind fun _ =>
                    (relates_attempt (bounded_of_proper extends_setupUnverified (proper_setupUnverified hm))).bind fun _ =>
                      keeps_onDev (stays_of meek_failState)

theorem keeps_autoTransition : Keeps (Bounded env) (autoTransitionActive env a) :=
  (keeps_still still_getDev).bind fun _ => Relates.ite (Relates.ite keeps_verified keeps_verified) keeps_toActive

theorem keeps_postUmount {umounted : Bool} : Keeps (Bounded env) (postUmountCheck env a umounted) := by
  refine (keeps_still still_getDev).bind fun dev => Relates.ite ?_ ?_
  · cases dev.bdevPath with
    | none => exact relates_throw
    | some path =>
        refine (keeps_still still_call).bind fun n => ?_
        cases env.blkdevGetByPath n path with
        | error e => exact keeps_onDev (stays_of meek_failState)
        | ok b => exact keeps_autoTransition
  · cases dev.baseDev with
    | none => exact relates_throw
    | some b => exact (keeps_still still_call).bind fun n => Relates.ite (keeps_onDev (stays_of meek_failState)) relates_pure

theorem keeps_umount {umounted : Bool} : Keeps (Bounded env) (umountHook env b umounted) := by
  refine Relates.bind ((keeps_still (still_tracerForEach fun _ _ => preserves_pure)).bind fun found => ?_) fun r => ?_
  · cases found with
    | none => exact relates_pure
    | some a => exact keeps_toDormant.bind fun _ => relates_pure
  · cases r with
    | none => exact relates_pure
    | some a => exact keeps_postUmount

theorem keeps_mount {mounted : Bool} : Keeps (Bounded env) (mountHook env b mounted) := by
  refine Relates.ite ((keeps_still (still_tracerForEach fun _ dev => ?_)).bind fun found => ?_) relates_pure
  · refine Preserves.ite preserves_pure (Preserves.ite ?_ preserves_pure)
    cases dev.bdevPath with
    | none => exact preserves_throw
    | some path =>
        refine still_call.bind fun n => ?_
        cases env.blkdevGetByPath n path with
        | error e => exact preserves_pure
        | ok c => exact preserves_pure
  · cases found with
    | none => exact relates_pure
    | some a => exact keeps_autoTransition

theorem keeps_exec (event : Event) : Keeps (Bounded env) (exec env event) := by
  cases event with
  | setupSnap m p q c => exact bounded_of_proper extends_ioctlSetup proper_setup
  | reloadSnap m p q c => exact bounded_of_proper extends_ioctlSetup proper_setup
  | reloadInc m p q c => exact bounded_of_proper extends_ioctlSetup proper_setup
  | destroy m => exact bounded_of_proper extends_ioctlDestroy proper_ioctlDestroy
  | transitionInc m => exact bounded_of_proper extends_transitionInc proper_transitionInc
  | transitionSnap m => exact bounded_of_proper extends_transitionSnap proper_transitionSnap
  | reconfigure m c => exact bounded_of_proper extends_reconfigure proper_reconfigure
  | umount b umounted => exact keeps_umount
  | mount b mounted => exact keeps_mount
  | failure m e =>
      refine relates_get.bind fun d => ?_
      cases d.snapDevices m with
      | none => exact relates_pure
      | some a => exact keeps_onDev (stays_of meek_failState)
  | notice m =>
      refine relates_get.bind fun d => ?_
      cases d.snapDevices m with
      | none => exact relates_pure
      | some a =>
          refine keeps_onDev (stays_modifyDev fun dev => ?_)
          split <;> rfl

theorem bounded_step (hb : Bounded env d) (h : step env d event = some d') : Bounded env d' := by
  have hwp := keeps_iff.mp (keeps_exec event) d hb
  unfold wp at hwp
  rw [step] at h
  cases hexec : exec env event d with
  | ok _ d₁ =>
      rw [hexec] at h hwp
      cases h
      exact hwp
  | error e d₁ =>
      rw [hexec] at h hwp
      cases e with
      | code c =>
          cases h
          exact hwp
      | oops => cases h

theorem bounded_run {events : List Event} (h : run (step env) (.start env native) events = some d) : Bounded env d :=
  run_invariant (I := fun _ d => Bounded env d) (fun _ _ hdev => by cases hdev) (fun _ _ _ _ hb hs => bounded_step hb hs) h

end

section

variable {env : Env} {word : Int → Option Nat} {native : Nat → Nat} {d d' : DriverState} {m : Nat}

/-- A computation that does nothing but call the kernel, and may be told to give up. -/
def Quiet {α : Type} (x : DriverM α) : Prop :=
  ∀ d, wp x d (fun _ d' => ∃ n, d' = d.atCall n) (fun e d' => (∃ c, e = .code c) ∧ ∃ n, d' = d.atCall n)

theorem Quiet.bind {α β : Type} {x : DriverM α} {f : α → DriverM β} (hx : Quiet x) (hf : ∀ a, Quiet (f a)) :
    Quiet (x >>= f) := by
  intro d
  rw [wp_bind]
  refine wp_mono (hx d) ?_ fun _ _ h => h
  rintro a _ ⟨n, rfl⟩
  exact hf a (d.atCall n)

theorem quiet_pure {α : Type} {a : α} : Quiet (pure a) := fun d => ⟨d.clock, rfl⟩

theorem quiet_throw {α : Type} {c : Errno} : Quiet (throw (.code c) : DriverM α) := fun d => ⟨⟨c, rfl⟩, d.clock, rfl⟩

theorem quiet_call : Quiet call := fun d => ⟨d.clock + 1, rfl⟩

theorem quiet_check {e : Errno} : Quiet (check env e) := by
  refine quiet_call.bind fun n => ?_
  cases env.fault n with
  | none => exact quiet_pure
  | some c => exact quiet_throw

theorem quiet_getString {data : Option Path} : Quiet (getString env data) := by
  cases data with
  | none => exact quiet_throw
  | some path =>
      refine Quiet.bind (Quiet.bind (quiet_call.bind fun n => ?_) fun _ => quiet_pure) fun r => ?_
      · cases env.fault n with
        | none => exact quiet_pure
        | some c => exact quiet_throw
      · cases r with
        | none => exact quiet_throw
        | some path => exact quiet_pure

theorem quiet_getSetupParams {bdev cow : Option Path} : Quiet (getSetupParams env bdev cow) :=
  quiet_check.bind fun _ => quiet_getString.bind fun _ => quiet_getString.bind fun _ => quiet_pure

theorem quiet_getTransitionSnapParams {cow : Option Path} : Quiet (getTransitionSnapParams env cow) :=
  quiet_check.bind fun _ => quiet_getString

theorem check_eq {e : Errno} : check env e d = (match env.fault d.clock with
    | none => pure ()
    | some _ => throw (.code e) : DriverM Unit) (d.atCall (d.clock + 1)) := rfl

theorem check_passes {e : Errno} (hf : env.fault d.clock = none) : check env e d = .ok () (d.atCall (d.clock + 1)) := by
  rw [check_eq, hf]
  rfl

theorem check_fails {e c : Errno} (hf : env.fault d.clock = some c) :
    check env e d = .error (.code e) (d.atCall (d.clock + 1)) := by
  rw [check_eq, hf]
  rfl

theorem Quiet.preserves {α : Type} {x : DriverM α} (h : Quiet x) : Preserves DriverState.devs x := by
  refine fun d => wp_mono (h d) ?_ ?_
  · rintro _ _ ⟨n, rfl⟩
    rfl
  · rintro _ _ ⟨-, n, rfl⟩
    rfl

theorem preserves_getFree : Preserves DriverState.devs (getFreeMinor env) := by
  refine preserves_get.bind fun d => ?_
  cases (List.range env.maxSnapDevices).find? fun i => (d.snapDevices i).isNone with
  | none => exact preserves_throw
  | some i => exact preserves_pure

/-- Every access is by a minor of the table, and a request with another minor fails and has no effect on any device. -/
structure MinorChecked (env : Env) (word : Int → Option Nat) (d : DriverState) (req : Request) : Prop where
  accesses : ∀ i ∈ (resulting (ctrlIoctl env word req (d, []))).2, InTable env i
  refused : ∀ i, req.minor = some i → ¬ InTable env i →
    ∃ c n, ctrlIoctl env word req (d, []) = .error (.code c) (d.atCall n, [])

/-- The requests that get to the table before their minor is looked at. -/
def Unchecked (env : Env) (d : DriverState) : Request → Prop
  | .transitionInc minor => env.maxSnapDevices ≤ minor ∧ env.fault d.clock = none
  | .bioStats (some minor) => ¬ InTable env minor
  | _ => False

theorem resulting_of_wp {σ α : Type} {x : EStateM Err σ α} {s : σ} {P : σ → Prop}
    (h : wp x s (fun _ t => P t) (fun _ t => P t)) : P (resulting (x s)) := by
  unfold wp at h
  cases hx : x s with
  | ok a t =>
      rw [hx] at h
      exact h
  | error e t =>
      rw [hx] at h
      exact h

theorem le_of_not_inTable (h : ¬ InTable env m) : env.maxSnapDevices ≤ m :=
  Nat.le_of_not_lt fun hlt => h (inTable_of_lt hlt)

/-- What a request that is refused leaves behind. -/
def Refused (d : DriverState) (e : Err) (s : DriverState × List Int) : Prop := ∃ c n, e = .code c ∧ s = (d.atCall n, [])

theorem refused_after {α β : Type} {x : DriverM α} {f : α → RequestM β} {k : Nat} (hx : Quiet x)
    (hf : ∀ a n, wp (f a) (d.atCall n, []) (fun _ _ => False) (Refused d)) :
    wp (lift x >>= f) (d.atCall k, []) (fun _ _ => False) (Refused d) := by
  rw [wp_bind, wp_lift]
  refine wp_mono (hx (d.atCall k)) ?_ ?_
  · rintro a _ ⟨n, rfl⟩
    exact hf a n
  · rintro _ _ ⟨⟨c, rfl⟩, n, rfl⟩
    exact ⟨c, n, rfl, rfl⟩

theorem refused_available {α : Type} {f : Unit → RequestM α} {n : Nat} (h : env.maxSnapDevices ≤ m) :
    wp (seenMinorAvailable env m >>= f) (d.atCall n, []) (fun _ _ => False) (Refused d) := by
  simp only [seenMinorAvailable, h, if_true]
  exact ⟨.einval, n, rfl, rfl⟩

theorem refused_inUse {α : Type} {f : Nat → RequestM α} {n : Nat} (h : env.maxSnapDevices ≤ m) :
    wp (seenMinorInUse env m >>= f) (d.atCall n, []) (fun _ _ => False) (Refused d) := by
  simp only [seenMinorInUse, h, if_true]
  exact ⟨.einval, n, rfl, rfl⟩

theorem refused_inUseNotBusy {α : Type} {f : Nat → RequestM α} {n : Nat} (h : env.maxSnapDevices ≤ m) :
    wp (seenMinorInUseNotBusy env m >>= f) (d.atCall n, []) (fun _ _ => False) (Refused d) := by
  simp only [seenMinorInUseNotBusy, h, if_true]
  exact ⟨.einval, n, rfl, rfl⟩

/-- What is refused ends there. -/
theorem Refused.bind {α β : Type} {x : RequestM α} {f : α → RequestM β} {s : DriverState × List Int}
    (h : wp x s (fun _ _ => False) (Refused d)) : wp (x >>= f) s (fun _ _ => False) (Refused d) := by
  rw [wp_bind]
  exact wp_mono h (fun _ _ h => h.elim) fun _ _ h => h

/-- A request with a minor that is not one of the table is refused before the table is accessed. -/
theorem ctrlIoctl_refused (word : Int → Option Nat) {req : Request} {i : Int} (hn : ¬ Unchecked env d req)
    (hi : req.minor = some i)
    (hout : ¬ InTable env i) : wp (ctrlIoctl env word req) (d, []) (fun _ _ => False) (Refused d) := by
  cases req with
  | setupSnap m bdev cow c =>
      cases hi
      exact refused_after (k := d.clock) quiet_getSetupParams fun _ _ =>
        Refused.bind (refused_available (le_of_not_inTable hout))
  | reloadSnap m bdev cow c =>
      cases hi
      exact refused_after (k := d.clock) quiet_getSetupParams fun _ _ =>
        Refused.bind (refused_available (le_of_not_inTable hout))
  | reloadInc m bdev cow c =>
      cases hi
      exact refused_after (k := d.clock) quiet_getSetupParams fun _ _ =>
        Refused.bind (refused_available (le_of_not_inTable hout))
  | destroy m =>
      cases hi
      exact refused_after (k := d.clock) quiet_check fun _ _ => Refused.bind (refused_inUseNotBusy (le_of_not_inTable hout))
  | transitionInc m =>
      cases hi
      have hle := le_of_not_inTable hout
      cases hf : env.fault d.clock with
      | none => exact absurd ⟨hle, hf⟩ hn
      | some c =>
          simp only [ctrlIoctl, wp_bind, wp_lift]
          unfold wp
          rw [check_fails hf]
          exact ⟨_, d.clock + 1, rfl, rfl⟩
  | transitionSnap m cow =>
      cases hi
      exact refused_after (k := d.clock) quiet_getTransitionSnapParams fun _ _ =>
        Refused.bind (refused_inUseNotBusy (le_of_not_inTable hout))
  | reconfigure m c =>
      cases hi
      exact refused_after (k := d.clock) quiet_check fun _ _ => Refused.bind (refused_inUseNotBusy (le_of_not_inTable hout))
  | elastioSnapInfo m =>
      cases hi
      exact refused_after (k := d.clock) quiet_check fun _ _ => refused_after quiet_check fun _ _ =>
        Refused.bind (refused_inUse (le_of_not_inTable hout))
  | getFree => cases hi
  | invalid => cases hi
  | bioStats x =>
      obtain rfl : x = some i := hi
      exact absurd hout hn

/-- A request with a minor of the table accesses the table by such minors only. -/
theorem proper_ctrlIoctl (word : Int → Option Nat) {req : Request} (hin : ∀ i, req.minor = some i → InTable env i) :
    Keeps (Proper env) (ctrlIoctl env word req) := by
  cases req with
  | setupSnap m bdev cow c =>
      refine (proper_same quiet_getSetupParams.preserves).bind fun p => proper_setup.bind fun _ =>
        (proper_touch (hin m rfl)).bind fun _ => proper_get.bind fun d => ?_
      cases slot env word d m with
      | none => exact relates_throw.bind fun _ => relates_pure
      | some a => exact (proper_still (still_getDev.bind fun _ => preserves_pure)).bind fun _ => relates_pure
  | reloadSnap m bdev cow c =>
      exact (proper_same quiet_getSetupParams.preserves).bind fun p => proper_setup.bind fun _ => relates_pure
  | reloadInc m bdev cow c =>
      exact (proper_same quiet_getSetupParams.preserves).bind fun p => proper_setup.bind fun _ => relates_pure
  | destroy m => exact (proper_still still_check).bind fun _ => proper_ioctlDestroy.bind fun _ => relates_pure
  | transitionInc m =>
      have hend : Keeps (Proper env) (do
          seenTransitionInc env m
          return Answer.done) := proper_transitionInc.bind fun _ => relates_pure
      refine (proper_still still_check).bind fun _ => (proper_touch (hin m rfl)).bind fun _ => proper_get.bind fun d => ?_
      cases slot env word d m with
      | none => exact hend
      | some a =>
          exact (proper_touch (hin m rfl)).bind fun _ =>
            (proper_still (still_getDev.bind fun _ => preserves_pure)).bind fun _ => hend
  | transitionSnap m cow =>
      exact (proper_same quiet_getTransitionSnapParams.preserves).bind fun _ => proper_transitionSnap.bind fun _ => relates_pure
  | reconfigure m c => exact (proper_still still_check).bind fun _ => proper_reconfigure.bind fun _ => relates_pure
  | elastioSnapInfo m =>
      exact (proper_still still_check).bind fun _ => (proper_still still_check).bind fun _ => proper_info.bind fun _ =>
        (proper_still still_check).bind fun _ => relates_pure
  | getFree => exact (proper_same preserves_getFree).bind fun _ => (proper_still still_check).bind fun _ => relates_pure
  | invalid => exact relates_throw
  | bioStats x =>
      refine Relates.bind ?_ fun _ => relates_pure
      cases x with
      | none => exact relates_throw
      | some x =>
          refine (proper_touch (hin x rfl)).bind fun _ => proper_get.bind fun d => ?_
          cases slot env word d x with
          | none => exact relates_throw
          | some a => exact (proper_still still_getDev).bind fun _ => relates_pure

/-- An access that has been made stays on record. -/
def Seen (i : Int) (s : DriverState × List Int) : Prop := i ∈ s.2

theorem seen_lift {α : Type} {x : DriverM α} {i : Int} : Keeps (Seen i) (lift x) := keeps_lift_snd

theorem seen_touch {i j : Int} : Keeps (Seen i) (touch j) := fun _ hs => List.mem_cons_of_mem _ hs

theorem seen_transitionInc {i : Int} (h : env.maxSnapDevices ≤ m) : Keeps (Seen i) (seenTransitionInc env m) := by
  simp only [seenTransitionInc, seenMinorInUseNotBusy, h, if_true]
  exact fun _ hs => hs

/-- What comes after an access does not take it back. -/
theorem seen_after {α : Type} {x : RequestM α} {s : DriverState × List Int} {i : Int} (h : Keeps (Seen i) x) :
    wp (do touch i; x) s (fun _ t => Seen i t) (fun _ t => Seen i t) := by
  rw [wp_bind]
  exact keeps_iff.mp h _ List.mem_cons_self

theorem seen_slot (word : Int → Option Nat) {x i : Int} : Keeps (Seen i) (do
    match slot env word (← lift get) x with
    | none => throw (.code enodev)
    | some a => let _ ← lift (getDev a)) := by
  refine Relates.bind seen_lift fun d => ?_
  cases slot env word d x with
  | none => exact relates_throw
  | some a => exact seen_lift.bind fun _ => relates_pure

/-- A request that is not checked accesses the table by its minor. -/
theorem unchecked_accesses (word : Int → Option Nat) {req : Request} (h : Unchecked env d req) :
    ∃ i, req.minor = some i ∧ ¬ InTable env i ∧ i ∈ (resulting (ctrlIoctl env word req (d, []))).2 := by
  cases req with
  | transitionInc m =>
      obtain ⟨hle, hf⟩ := h
      refine ⟨m, rfl, fun hin => Nat.not_lt_of_le hle (Int.ofNat_lt.mp hin.2), resulting_of_wp (P := Seen m) ?_⟩
      have hend : Keeps (Seen m) (do
          seenTransitionInc env m
          return Answer.done) := (seen_transitionInc hle).bind fun _ => relates_pure
      simp only [ctrlIoctl]
      rw [wp_bind, wp_lift]
      unfold wp
      rw [check_passes hf]
      refine seen_after (Relates.bind seen_lift fun d => ?_)
      cases slot env word d m with
      | none => exact hend
      | some a => exact seen_touch.bind fun _ => seen_lift.bind fun _ => hend
  | bioStats x =>
      cases x with
      | none => exact h.elim
      | some x =>
          refine ⟨x, rfl, h, resulting_of_wp (P := Seen x) ?_⟩
          simp only [ctrlIoctl, paramSetBioStats]
          rw [wp_bind]
          exact wp_mono (seen_after (seen_slot word)) (fun _ _ h => h) fun _ _ h => h
  | _ => exact h.elim

/-- The requests of which the minor is checked, whatever has happened to the driver before. -/
theorem minors_checked_iff {req : Request} {events : List Event}
    (hrun : run (step env) (.start env native) events = some d) : MinorChecked env word d req ↔ ¬ Unchecked env d req := by
  constructor
  · intro hc hun
    obtain ⟨i, hi, hout, hmem⟩ := unchecked_accesses word hun
    exact hout (hc.accesses i hmem)
  · intro hn
    have hrefused : ∀ i, req.minor = some i → ¬ InTable env i →
        ∃ c n, ctrlIoctl env word req (d, []) = .error (.code c) (d.atCall n, []) := by
      intro i hi hout
      have hwp := ctrlIoctl_refused word hn hi hout
      unfold wp at hwp
      cases hx : ctrlIoctl env word req (d, []) with
      | ok a s =>
          rw [hx] at hwp
          exact hwp.elim
      | error e s =>
          rw [hx] at hwp
          obtain ⟨c, n, rfl, rfl⟩ := hwp
          exact ⟨c, n, rfl⟩
    refine ⟨?_, hrefused⟩
    by_cases hall : ∀ i, req.minor = some i → InTable env i
    · have hb : Proper env (d, []) := ⟨bounded_run hrun, List.forall_mem_nil _⟩
      have hp := keeps_iff.mp (proper_ctrlIoctl word hall) (d, []) hb
      exact (resulting_of_wp (P := Proper env) hp).2
    · obtain ⟨i, hi, hout⟩ : ∃ i, req.minor = some i ∧ ¬ InTable env i := by
        simpa only [not_forall, exists_prop] using hall
      obtain ⟨c, n, hx⟩ := hrefused i hi hout
      rw [hx]
      exact List.forall_mem_nil _

theorem minors_checked_setup : MinorChecked calm (fun _ => none) (calmState (calmSnap 0) 16) (.destroy 5) :=
  have hrun : run (step calm) (.start calm fun _ => 0) [.setupSnap 0 "/dev/sda1" "/cow" 0] =
      some (calmState (calmSnap 0) 16) := by
    rw [run, step_ok calm_setup, Option.bind_some, run]
  (minors_checked_iff hrun).mpr fun h => h

/-- A transition to incremental mode of a minor behind the table, and the statistics of minor -1. -/
theorem transition_reads_past_table : ¬ MinorChecked calm (fun _ => none) (.start calm fun _ => 0) (.transitionInc 2) ∧
    ¬ MinorChecked calm (fun _ => none) (.start calm fun _ => 0) (.bioStats (some (-1))) := by
  have hcase : ∀ req, Unchecked calm (.start calm fun _ => 0) req →
      ¬ MinorChecked calm (fun _ => none) (.start calm fun _ => 0) req := by
    intro req hun hc
    obtain ⟨i, -, hout, hmem⟩ := unchecked_accesses (fun _ => none) hun
    exact hout (hc.accesses i hmem)
  exact ⟨hcase _ ⟨Nat.le_refl 2, rfl⟩, hcase _ fun hin => absurd hin.1 (by decide)⟩

end

end ElastioSnap.Driver.Minors
