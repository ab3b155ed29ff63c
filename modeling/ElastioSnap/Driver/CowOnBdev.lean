import ElastioSnap.Driver.Residency

namespace ElastioSnap.Driver.CowOnBdev

open Function (update)
open Lib.Outcome Lib.Extend Lib.Runs State Setup Events Component Rows Setups Ioctls Transitions Mounts Steps Borrowed Parts
  Requests Minors Residency
open Cow.Manager (Errno Err)

section

variable {σ α β : Type} {I I' J J' K K' : σ → Prop} {x : EStateM Err σ α}

/-- From `I` the computation returns in `J`, or fails with a code in `K`. -/
def Takes (I : σ → Prop) (x : EStateM Err σ α) (J K : σ → Prop) : Prop :=
  ∀ s, I s → wp x s (fun _ t => J t) (Fails fun _ t => K t)

/-- A computation that does not fail with a code. -/
def Sure (x : EStateM Err σ α) : Prop := Takes (fun _ => True) x (fun _ => True) (fun _ => False)

theorem Takes.weaken (h : Takes I x J K) (hi : ∀ s, I' s → I s) (hj : ∀ s, J s → J' s) (hk : ∀ s, K s → K' s) :
    Takes I' x J' K' := fun s hs => wp_weaken (h s (hi s hs)) (fun _ t ht => hj t ht) fun _ t ht => hk t ht

theorem Takes.leave (h : Takes I x J K) (hk : ∀ s, K s → K' s) : Takes I x J K' :=
  h.weaken (fun _ hs => hs) (fun _ ht => ht) hk

theorem Takes.bind {f : α → EStateM Err σ β} (hx : Takes I x J K) (hf : ∀ a, Takes J (f a) J' K) :
    Takes I (x >>= f) J' K := by
  intro s hs
  rw [wp_bind]
  exact wp_mono (hx s hs) (fun a t ht => hf a t ht) fun _ _ h => h

theorem Takes.ite {c : Prop} [Decidable c] {y : EStateM Err σ α} (hx : Takes I x J K) (hy : Takes I y J K) :
    Takes I (if c then x else y) J K := by
  split
  · exact hx
  · exact hy

theorem takes_pure {a : α} : Takes I (pure a : EStateM Err σ α) I K := fun _ hs => hs

theorem takes_code {e : Errno} : Takes I (throw (.code e) : EStateM Err σ α) J I := fun _ hs => hs

theorem takes_oops : Takes I (throw .oops : EStateM Err σ α) J K := fun _ _ => trivial

theorem takes_attempt {x : EStateM Err σ Unit} {f : Option Errno → EStateM Err σ β} (hx : Takes I x J K)
    (hnone : Takes J (f none) J' K') (hsome : ∀ e, Takes K (f (some e)) J' K') : Takes I (attempt x >>= f) J' K' := by
  intro s hs
  rw [wp_bind, wp_attempt]
  exact wp_weaken (hx s hs) (fun _ t ht => hnone t ht) fun e t ht => hsome e t ht

theorem takes_onCode {x g : EStateM Err σ Unit} (hx : Takes I x J K) (hg : Takes K g K' K') : Takes I (onCode x g) J K' :=
  takes_attempt hx takes_pure fun _ => hg.bind fun _ => takes_code

theorem Takes.sure (h : Takes I x J K) (hs : Sure x) : Takes I x J K' := by
  intro s hi
  refine wp_mono (wp_and (h s hi) (hs s trivial)) (fun _ _ ht => ht.1) ?_
  intro e t ht
  cases e with
  | code c => exact ht.2.elim
  | oops => trivial

theorem takes_of_keeps (h : Keeps I x) : Takes I x I I := by
  intro s hs
  refine wp_mono (keeps_iff.mp h s hs) (fun _ _ ht => ht) ?_
  intro e t ht
  cases e with
  | code c => exact ht
  | oops => trivial

theorem Sure.bind {f : α → EStateM Err σ β} (hx : Sure x) (hf : ∀ a, Sure (f a)) : Sure (x >>= f) := Takes.bind hx hf

theorem sure_modify {f : σ → σ} : Sure (modify f : EStateM Err σ PUnit) := fun _ _ => trivial

theorem sure_get : Sure (get : EStateM Err σ σ) := fun _ _ => trivial

theorem sure_attempt {x : EStateM Err σ Unit} : Sure (attempt x) := by
  intro s _
  rw [wp_attempt]
  unfold wp
  cases x s with
  | ok _ t => trivial
  | error e t => cases e <;> trivial

end

section

variable {env : Env} {a : Nat}

theorem sure_onDev {α : Type} {x : DevM α} (h : Sure x) : Sure (onDev a x) := by
  intro d _
  cases hd : d.devs a with
  | none =>
      unfold wp onDev
      rw [hd]
      trivial
  | some dev => exact (wp_onDev hd).mpr (h ⟨dev, d.clock⟩ trivial)

theorem sure_getDev : Sure (getDev a) := by
  intro d _
  rw [wp_getDev]
  exact fun _ _ => trivial

theorem sure_getBdOps {dev : SnapDevice} : Sure (getBdOps env dev) := by
  intro d _
  unfold wp getBdOps
  cases dev.baseDev <;> trivial

theorem sure_findTracer {p : Nat → SnapDevice → DriverM Bool} (hp : ∀ a dev, Sure (p a dev)) (is : List Nat) :
    Sure (findTracer p is) := by
  induction is with
  | nil => exact takes_pure
  | cons i is ih =>
      refine sure_get.bind fun d => ?_
      cases d.snapDevices i with
      | none => exact ih
      | some a => exact sure_getDev.bind fun dev => (hp a dev).bind fun r => Takes.ite takes_pure ih

theorem sure_tracerOnOps {ops : Ops} {skip : Option Nat} : Sure (tracerOnOps env ops skip) :=
  sure_get.bind fun _ => sure_findTracer (fun _ _ => Takes.ite takes_pure (sure_getBdOps.bind fun _ => takes_pure)) _

theorem sure_shouldResetMrf : Sure (tracerShouldResetMrf env a) := by
  refine sure_getDev.bind fun dev => sure_getBdOps.bind fun ops => ?_
  have hend : Sure (do return (← tracerOnOps env ops (some a)).isNone : DriverM Bool) :=
    sure_tracerOnOps.bind fun _ => takes_pure
  exact Takes.ite takes_pure (sure_get.bind fun d => Takes.ite takes_pure hend)

theorem sure_wakeUp : Sure wakeUpProcess :=
  sure_get.bind fun _ => Takes.ite (Takes.bind takes_oops fun _ => sure_modify) sure_modify

theorem sure_destroyCowThread : Sure (tracerDestroyCowThread env) := fun l _ => tracerDestroyCowThread_always l

theorem sure_freeMrfAndOps : Sure (freeMrfAndOps a) := by
  have hput : ∀ {t : Nat}, Sure (tracingOpsPut t) := by
    intro t d _
    unfold wp tracingOpsPut
    cases d.ops.refs t <;> trivial
  refine sure_getDev.bind fun dev => ?_
  cases dev.tracingOps with
  | none => exact sure_onDev sure_modify
  | some t => exact hput.bind fun _ => sure_onDev sure_modify

theorem sure_destroyTracing : Sure (tracerDestroyTracing env a) := by
  refine sure_getDev.bind fun dev => Sure.bind (Takes.ite ?_ sure_modify) fun _ =>
    (sure_onDev sure_modify).bind fun _ => sure_modify
  cases dev.baseDev with
  | none => exact takes_oops
  | some b =>
      have hend : ∀ {o : Option Ops}, Sure (do
          let _ ← attempt (tracerTransitionTracing env a b o dev.minor false)
          pure () : DriverM Unit) := sure_attempt.bind fun _ => takes_pure
      have hflush : Sure (flushBioRequests env a) := sure_attempt.bind fun _ =>
        (sure_onDev sure_wakeUp).bind fun _ => sure_onDev sure_destroyCowThread
      refine sure_shouldResetMrf.bind fun r => Sure.bind ?_ fun _ => sure_freeMrfAndOps
      exact Takes.ite (Takes.ite (hflush.bind fun _ => hend) hend) hend

theorem sure_destroy : Sure (tracerDestroy env a) := by
  refine sure_destroyTracing.bind fun _ => sure_onDev (sure_destroyCowThread.bind fun _ => sure_modify.bind fun _ =>
    sure_modify.bind fun _ => Sure.bind ?_ fun _ => sure_modify)
  exact fun l _ => wp_weaken tracerDestroyCow_free_wp (fun _ _ _ => trivial) fun _ _ h => h

end

section

variable {env : Env} {a minor : Nat}

/-- A device is not verified by what is done to it, nor made active, and a failure is not forgotten. -/
structure Mild (dev dev' : SnapDevice) : Prop where
  unverified : dev'.unverified = dev.unverified
  active : dev'.active = true → dev.active = true
  failed : dev.failCode.isSome = true → dev'.failCode.isSome = true

instance : Std.Refl Mild := ⟨fun _ => ⟨rfl, fun h => h, fun h => h⟩⟩

instance : Trans Mild Mild Mild where
  trans h h' := ⟨h'.unverified.trans h.unverified, fun ha => h.active (h'.active ha), fun hf => h'.failed (h.failed hf)⟩

theorem mild_modest {dev dev' : SnapDevice} (h : Modest dev dev') : Mild dev dev' :=
  ⟨h.unverified, fun ha => h.active.symm.trans ha, h.failed⟩

theorem mild_of {α : Type} {x : DriverM α} (h : Relates (Held Modest) x) : Relates (Held Mild) x :=
  held_mono h fun _ _ hm => mild_modest hm

theorem mild_dev {α : Type} {y : DevM α} (h : Relates Meek y) : Relates (Held Mild) (onDev a y) := mild_of (modest_dev h)

theorem mild_setMinor : Relates (Held Mild) (onDev a (modifyDev fun dev => { dev with minor := minor })) :=
  held_onDev fun _ => ⟨rfl, fun h => h, fun h => h⟩

theorem mild_recalculate : Relates (Held Mild) (minorRangeRecalculate env) := held_same (preserves_modify fun _ => by rfl)

theorem mild_include : Relates (Held Mild) (minorRangeInclude minor) := held_same (preserves_modify fun _ => by rfl)

theorem mild_shouldResetMrf : Relates (Held Mild) (tracerShouldResetMrf env a) := by
  refine (held_still still_getDev).bind fun dev => (held_still still_getBdOps).bind fun ops => ?_
  have hend : Relates (Held Mild) (do return (← tracerOnOps env ops (some a)).isNone : DriverM Bool) :=
    (held_still still_tracerOnOps).bind fun _ => relates_pure
  exact Relates.ite relates_pure (relates_get.bind fun d => Relates.ite relates_pure hend)

theorem mild_destroyTracing : Relates (Held Mild) (tracerDestroyTracing env a) := by
  refine (held_still still_getDev).bind fun dev => Relates.bind (Relates.ite ?_ ?_) fun _ =>
    mild_setMinor.bind fun _ => mild_recalculate
  · cases dev.baseDev with
    | none => exact relates_throw
    | some b =>
        have hend : ∀ {o : Option Ops}, Relates (Held Mild) (do
            let _ ← attempt (tracerTransitionTracing env a b o dev.minor false)
            pure () : DriverM Unit) :=
          (relates_attempt (held_same preserves_transitionTracing)).bind fun _ => relates_pure
        refine mild_shouldResetMrf.bind fun r => Relates.bind ?_ fun _ => mild_of modest_freeMrfAndOps
        exact Relates.ite (Relates.ite ((mild_of modest_flush).bind fun _ => hend) hend) hend
  · refine held_same (preserves_modify fun d => ?_)
    split <;> rfl

theorem mild_destroy : Relates (Held Mild) (tracerDestroy env a) :=
  mild_destroyTracing.bind fun _ => mild_dev meek_stripParts

theorem mild_startTracing : Relates (Held Mild) (do
    let dev ← getDev a
    match dev.baseDev, dev.tracingOps with
    | some b, some t => tracerTransitionTracing env a b (some (.copy t)) minor true
    | _, _ => throw .oops) := by
  refine (held_still still_getDev).bind fun dev => ?_
  cases dev.baseDev with
  | none => exact relates_throw
  | some b =>
      cases dev.tracingOps with
      | none => exact relates_throw
      | some t => exact held_same preserves_transitionTracing

theorem mild_setupTracing : Relates (Held Mild) (tracerSetupTracing env a minor) := by
  refine relates_onCode ?_ (mild_setMinor.bind fun _ => (mild_of modest_freeMrfAndOps).bind fun _ => mild_recalculate)
  refine mild_setMinor.bind fun _ => mild_include.bind fun _ => (held_still still_getDev).bind fun dev =>
    Relates.ite ?_ relates_pure
  refine (mild_of modest_findOrigFops).bind fun _ => (held_still still_getDev).bind fun dev =>
    Relates.ite ?_ mild_startTracing
  exact (mild_of modest_opsAlloc).bind fun _ => mild_startTracing

theorem mild_setupTracingUnverified : Relates (Held Mild) (tracerSetupTracingUnverified a minor) :=
  (mild_of modest_freeMrfAndOps).bind fun _ => mild_include.bind fun _ => mild_setMinor.bind fun _ =>
    held_same (preserves_modify fun _ => by rfl)

theorem mild_toDormant : Relates (Held Mild) (tracerActiveToDormant env a) := by
  have hmild : ∀ {α : Type} {y : DevM α}, Relates Meek y → Relates (fun l l' => Mild l.dev l'.dev) y :=
    fun hy l => wp_mono (hy l) (fun _ _ h => mild_modest h.modest) fun _ _ h => mild_modest h.modest
  have : Trans (fun l l' : Local => Mild l.dev l'.dev) (fun l l' : Local => Mild l.dev l'.dev)
    (fun l l' : Local => Mild l.dev l'.dev) := ⟨fun h h' => Trans.trans h h'⟩
  refine held_onDev ((hmild meek_destroyCowThread).bind fun _ => (hmild (relates_attempt meek_destroyCow)).bind fun r => ?_)
  cases r with
  | none => exact fun l => ⟨rfl, (fun h => by cases h), fun h => h⟩
  | some e => exact hmild meek_failState

end

/-- The bit says where the COW file is, and the path starts from the mount point exactly if the bit is set. -/
structure Accurate (home : Home) : Prop where
  flag : home.flag = home.onBdev
  relative : home.relative = home.flag

/-- What holds of a device and its home between the events. -/
structure Good (home : Home) (dev : SnapDevice) : Prop where
  accurate : dev.unverified = false → Accurate home
  waiting : dev.unverified = true → dev.failCode = none → home.flag = false
  active : dev.active = true → dev.unverified = false

/-- The state of the devices that is kept, with one predicate for each of them. -/
def Fine (G : Nat → Home → SnapDevice → Prop) (s : DriverState × (Nat → Home)) : Prop :=
  ∀ c dev, s.1.devs c = some dev → G c (s.2 c) dev

/-- One device is worked on. -/
def During (a : Nat) (P : Home → SnapDevice → Prop) : DriverState × (Nat → Home) → Prop :=
  Fine (update (fun _ => Good) a P)

def Between : DriverState × (Nat → Home) → Prop := Fine fun _ => Good

/-- A predicate that what is mild does not touch. -/
def Soft (P : Home → SnapDevice → Prop) : Prop := ∀ home dev dev', Mild dev dev' → P home dev → P home dev'

/-- The COW file of a verified device can be opened at the place `on`. -/
def Ready (on : Bool) (home : Home) (dev : SnapDevice) : Prop := dev.unverified = false ∧ (home.flag = true → on = true)

/-- The COW file of a verified device is at the place `on`, as is said of it. -/
def Settled (on : Bool) (home : Home) (dev : SnapDevice) : Prop := dev.unverified = false ∧ home = ⟨on, on, on⟩

section

variable {env : Env} {on : Bool} {a b old minor cacheSize : Nat} {home : Home} {dev : SnapDevice} {d : DriverState}
  {s : DriverState × (Nat → Home)} {P P' K : Home → SnapDevice → Prop} {α β : Type}

theorem soft_good : Soft Good := by
  intro home dev dev' hm hg
  refine ⟨fun hv => hg.accurate (hm.unverified.symm.trans hv), fun hv hf => ?_, fun ha => ?_⟩
  · refine hg.waiting (hm.unverified.symm.trans hv) (Option.not_isSome_iff_eq_none.mp fun hs => ?_)
    have := hm.failed hs
    rw [hf] at this
    cases this
  · exact hm.unverified.trans (hg.active (hm.active ha))

theorem soft_ready : Soft (Ready on) := fun _ _ _ hm h => ⟨hm.unverified.trans h.1, h.2⟩

theorem soft_settled : Soft (Settled on) := fun _ _ _ hm h => ⟨hm.unverified.trans h.1, h.2⟩

theorem soft_true : Soft fun _ _ => True := fun _ _ _ _ _ => trivial

theorem Settled.good (h : Settled on home dev) : Good home dev := by
  obtain ⟨hv, rfl⟩ := h
  refine ⟨fun _ => ⟨rfl, rfl⟩, fun hu => ?_, fun _ => hv⟩
  rw [hv] at hu
  cases hu

theorem During.mono (h : During a P s) (hp : ∀ home dev, P home dev → P' home dev) : During a P' s := by
  intro c dev hdev
  have hc := h c dev hdev
  by_cases hca : c = a
  · subst hca
    rw [Function.update_self] at hc ⊢
    exact hp _ _ hc
  · rw [Function.update_of_ne hca] at hc ⊢
    exact hc

theorem During.self (h : During a P s) (hd : s.1.devs a = some dev) : P (s.2 a) dev := by
  have ha := h a dev hd
  rwa [Function.update_self] at ha

theorem During.between (h : During a P s) (hp : ∀ home dev, P home dev → Good home dev) : Between s := by
  intro c dev hdev
  have hc := h c dev hdev
  by_cases hca : c = a
  · subst hca
    rw [Function.update_self] at hc
    exact hp _ _ hc
  · rwa [Function.update_of_ne hca] at hc

theorem Between.during (h : Between s) (hp : ∀ dev, s.1.devs a = some dev → P (s.2 a) dev) : During a P s := by
  intro c dev hdev
  by_cases hca : c = a
  · subst hca
    rw [Function.update_self]
    exact hp dev hdev
  · rw [Function.update_of_ne hca]
    exact h c dev hdev

theorem fine_held {G : Nat → Home → SnapDevice → Prop} {homes : Nat → Home} {d' : DriverState} (hg : ∀ c, Soft (G c))
    (h : Fine G (d, homes)) (hd : Held Mild d d') : Fine G (d', homes) := by
  intro c dev' hdev'
  obtain ⟨dev, hdev, hm⟩ := hd c dev' hdev'
  exact hg c _ _ _ hm (h c dev hdev)

theorem keeps_mild {G : Nat → Home → SnapDevice → Prop} {x : DriverM α} (hg : ∀ c, Soft (G c)) (h : Relates (Held Mild) x) :
    Keeps (Fine G) (lift x) := by
  rw [keeps_iff]
  intro s hs
  rw [wp_lift]
  exact wp_mono (h s.1) (fun _ _ hd => fine_held hg hs hd) fun _ _ hd => fine_held hg hs hd

theorem takes_between {x : DriverM α} (h : Relates (Held Mild) x) : Takes Between (lift x) Between Between :=
  takes_of_keeps (keeps_mild (fun _ => soft_good) h)

/-- What is mild does not disturb the work on a device. -/
theorem takes_mild {x : DriverM α} (hp : Soft P) (h : Relates (Held Mild) x) :
    Takes (During a P) (lift x) (During a P) (During a P) := by
  refine takes_of_keeps (keeps_mild (fun c => ?_) h)
  by_cases hca : c = a
  · subst hca
    rw [Function.update_self]
    exact hp
  · rw [Function.update_of_ne hca]
    exact soft_good

theorem takes_onHome {y : HomeDevM α} (hy : Takes (fun l => P l.2 l.1.dev) y (fun l => P' l.2 l.1.dev) fun l => K l.2 l.1.dev) :
    Takes (During a P) (onHome a y) (During a P') (During a K) := by
  intro s hs
  have hput : ∀ {P : Home → SnapDevice → Prop} {l : Local × Home}, P l.2 l.1.dev →
      During a P (s.1.put a l.1, update s.2 a l.2) := by
    intro P l hl c dev hdev
    by_cases hca : c = a
    · subst hca
      obtain rfl := Option.some.inj (put_devs.symm.trans hdev)
      rw [Function.update_self]
      dsimp only
      rw [Function.update_self]
      exact hl
    · have hc := hs c dev ((put_devs_of_ne hca).symm.trans hdev)
      rw [Function.update_of_ne hca] at hc ⊢
      dsimp only
      rw [Function.update_of_ne hca]
      exact hc
  unfold wp onHome
  cases hd : s.1.devs a with
  | none => trivial
  | some dev =>
      have hwp := hy (⟨dev, s.1.clock⟩, s.2 a) (hs.self hd)
      unfold wp at hwp
      dsimp only
      cases hrun : y (⟨dev, s.1.clock⟩, s.2 a) with
      | ok r l =>
          rw [hrun] at hwp
          exact hput hwp
      | error e l =>
          rw [hrun] at hwp
          cases e with
          | code c => exact hput hwp
          | oops => trivial

theorem lift_onDev {x : DevM α} : (lift (onDev a x) : HomeM α) = onHome a (lift x) := by
  funext s
  unfold lift watch onDev onHome
  cases hd : s.1.devs a with
  | none => rfl
  | some dev =>
      dsimp only
      cases x ⟨dev, s.1.clock⟩ <;> simp only [Function.update_eq_self]

theorem takes_lifted {x : DevM α} (hx : ∀ home, Takes (fun l => P home l.dev) x (fun l => P' home l.dev) fun l => K home l.dev) :
    Takes (fun l : Local × Home => P l.2 l.1.dev) (lift x) (fun l => P' l.2 l.1.dev) fun l => K l.2 l.1.dev :=
  fun l hl => wp_lifted (hx l.2 l.1 hl)

theorem takes_dev {x : DevM α} (hx : ∀ home, Takes (fun l => P home l.dev) x (fun l => P' home l.dev) fun l => K home l.dev) :
    Takes (During a P) (lift (onDev a x)) (During a P') (During a K) := by
  rw [lift_onDev]
  exact takes_onHome (takes_lifted hx)

theorem takes_modify {f : SnapDevice → SnapDevice} (h : ∀ home dev, P home dev → P' home (f dev)) :
    Takes (During a P) (lift (onDev a (modifyDev f))) (During a P') (During a K) :=
  takes_dev fun home l hl => h home l.dev hl

/-- A device is freed, and with it what was done to it. -/
theorem takes_kfree : Takes (During a P) (lift (kfree a)) Between Between := by
  intro s hs c dev hdev
  by_cases hca : c = a
  · subst hca
    cases (Function.update_self ..).symm.trans hdev
  · have hc := hs c dev ((Function.update_of_ne hca ..).symm.trans hdev)
    rwa [Function.update_of_ne hca] at hc

theorem takes_meek {x : DevM α} (hp : Soft P) (h : Relates Meek x) :
    Takes (fun l : Local × Home => P l.2 l.1.dev) (lift x) (fun l => P l.2 l.1.dev) fun l => P l.2 l.1.dev := by
  refine takes_lifted fun home l hl => ?_
  have hmild : ∀ {l' : Local}, Meek l l' → P home l'.dev := fun hm => hp home _ _ (mild_modest hm.modest) hl
  refine wp_mono (h l) (fun _ _ hm => hmild hm) ?_
  intro e t hm
  cases e with
  | code c => exact hmild hm
  | oops => trivial

/-- A COW file is opened for a device whose bit is not set in vain. -/
theorem takes_setupCow {size : Nat} {method : OpenMethod} : Takes (fun l => Ready on l.2 l.1.dev)
    (homeSetupCow env on size cacheSize method)
    (fun l => l.1.dev.unverified = false ∧ l.2.flag = on ∧ l.2.onBdev = on) fun _ => True := by
  refine ((takes_meek soft_ready meek_setupCow).leave fun _ _ => trivial).bind fun _ => ?_
  rintro l ⟨hv, hflag⟩
  rw [wp_note]
  refine ⟨hv, ?_, rfl⟩
  cases hf : l.2.flag with
  | false => simp only [Bool.false_or]
  | true => simp only [Bool.true_or, hflag hf]

theorem takes_parts {size : Nat} {method : OpenMethod} {x : DevM Unit} (hx : Relates Meek x) :
    Takes (fun l => Ready on l.2 l.1.dev)
      (do
        homeSetupCow env on size cacheSize method
        homeSetupCowPath env
        lift x)
      (fun l => Settled on l.2 l.1.dev) fun _ => True := by
  refine takes_setupCow.bind fun _ => Takes.bind (J := fun l => Settled on l.2 l.1.dev) ?_ fun _ => ?_
  · have hsoft : Soft fun home dev => dev.unverified = false ∧ home.flag = on ∧ home.onBdev = on :=
      fun _ _ _ hm h => ⟨hm.unverified.trans h.1, h.2⟩
    refine ((takes_meek hsoft meek_setupCowPath).leave fun _ _ => trivial).bind fun _ => ?_
    rintro ⟨l, flag, onBdev, relative⟩ ⟨hv, hflag, hon⟩
    rw [wp_note]
    dsimp only at hflag hon
    subst hflag hon
    exact ⟨hv, rfl⟩
  · exact (takes_meek soft_settled hx).leave fun _ _ => trivial

/-- The device is set up from its base device to the tracing of its writes. -/
theorem takes_setupDev (size cache : SnapDevice → Nat) (method : OpenMethod) {x : DevM Unit} (hx : Relates Meek x) :
    Takes (During a (Ready on))
      (do
        onHome a (do
          let dev := (← lift get).dev
          homeSetupCow env on (size dev) (cache dev) method
          homeSetupCowPath env
          lift x)
        lift (tracerSetupTracing env a minor))
      (During a (Settled on)) (During a fun _ _ => True) := by
  refine Takes.bind (J := During a (Settled on))
    (takes_onHome (Takes.bind (J := fun l => Ready on l.2 l.1.dev) ?_ fun l => ?_)) fun _ => ?_
  · exact (takes_meek soft_ready relates_get).leave fun _ _ => trivial
  · exact takes_parts hx
  · exact (takes_mild soft_settled mild_setupTracing).leave fun _ h => h.mono fun _ _ _ => trivial

theorem sure_lift {σ τ : Type} {x : EStateM Err σ α} (h : Sure x) : Sure (lift x : EStateM Err (σ × τ) α) :=
  fun s _ => wp_lifted (h s.1 trivial)

theorem takes_destroy {K : DriverState × (Nat → Home) → Prop} :
    Takes (During a fun _ _ => True) (lift (tracerDestroy env a)) (During a fun _ _ => True) K :=
  (takes_mild soft_true mild_destroy).sure (sure_lift sure_destroy)

/-- A device that waits to be verified. -/
def Waiting (H : Home → Prop) (home : Home) (dev : SnapDevice) : Prop := H home ∧ dev.unverified = true ∧ dev.active = false

theorem soft_waiting {H : Home → Prop} : Soft (Waiting H) := by
  rintro home dev dev' hm ⟨hh, hv, ha⟩
  refine ⟨hh, hm.unverified.trans hv, Bool.eq_false_iff.mpr fun ha' => ?_⟩
  rw [hm.active ha'] at ha
  cases ha

theorem takes_setupUnverified {H : Home → Prop} {bdevPath cowPath : Path} {isSnap : Bool} :
    Takes (During a fun home _ => H home) (lift (tracerSetupUnverified env a minor bdevPath cowPath cacheSize isSnap))
      (During a (Waiting H)) (During a (Waiting H)) := by
  rw [tracerSetupUnverified, lift_bind]
  refine (takes_modify fun _ _ h => ⟨h, rfl, rfl⟩).bind fun _ => takes_mild soft_waiting ?_
  refine (mild_dev (meek_modifyDev fun _ => by rfl)).bind fun _ => relates_onCode ?_ mild_destroy
  exact (held_still still_check).bind fun _ => (mild_dev (meek_modifyDev fun _ => by rfl)).bind fun _ =>
    (held_still still_check).bind fun _ => (mild_dev (meek_modifyDev fun _ => by rfl)).bind fun _ => mild_setupTracingUnverified

theorem takes_setupActiveSnap {bdevPath : Path} : Takes (During a fun home _ => home = .zero)
    (homeSetupActiveSnap env on a minor bdevPath cacheSize) (During a (Settled on)) (During a fun _ _ => True) := by
  refine Takes.bind (J := During a (Ready on)) (takes_modify fun home _ h => ⟨rfl, fun hf => ?_⟩) fun _ =>
    takes_onCode (Takes.bind ?_ fun _ => takes_setupDev (fun dev => dev.size) (fun _ => cacheSize) .init meek_wakeParts) takes_destroy
  · rw [h] at hf
    cases hf
  · exact (takes_mild soft_ready (mild_of modest_setupBaseDev)).leave fun _ h => h.mono fun _ _ _ => trivial

/-- A new device is nowhere, and what is known of the home of another one stays known. -/
theorem homeAlloc_wp (old : Nat) {H : Home → Prop} (hs : Between s) (hh : H (s.2 old)) (hz : H .zero) :
    wp (homeAlloc env) s (fun a t => During a (fun home _ => home = .zero) t ∧ H (t.2 old)) (Fails fun _ t => Between t) := by
  simp only [homeAlloc, wp_bind]
  refine wp_lifted (wp_weaken tracerAlloc_wp ?_ ?_)
  · rintro a d₁ ⟨rfl, n, rfl⟩
    rw [wp_note, wp_pure]
    dsimp only
    constructor
    · intro c dev hdev
      by_cases hc : c = s.1.nextDev
      · subst hc
        rw [Function.update_self]
        exact Function.update_self ..
      · rw [Function.update_of_ne hc]
        dsimp only
        rw [Function.update_of_ne hc]
        exact hs c dev ((Function.update_of_ne hc ..).symm.trans hdev)
    · by_cases hc : old = s.1.nextDev
      · subst hc
        rwa [Function.update_self]
      · rwa [Function.update_of_ne hc]
  · rintro c d₁ ⟨n, rfl⟩
    exact hs

theorem takes_setup {bdevPath cowPath : Path} {isSnap isReload : Bool} :
    Takes Between (homeSetup env on minor bdevPath cowPath cacheSize isSnap isReload) Between Between := by
  have havailable : Relates (Held Mild) (verifyMinorAvailable env minor) := by
    have hend : Relates (Held Mild) (do
        if ((← get).snapDevices minor).isSome then throw (.code ebusy) : DriverM Unit) :=
      relates_get.bind fun d => Relates.ite relates_throw relates_pure
    exact Relates.ite (relates_throw.bind fun _ => hend) hend
  refine (takes_between havailable).bind fun _ => (takes_between (held_still still_bdevWritable)).bind fun isMounted => ?_
  have hwaiting : ∀ {a : Nat} {isSnap : Bool}, Takes (During a fun home _ => home = .zero)
      (lift (tracerSetupUnverified env a minor bdevPath cowPath cacheSize isSnap)) Between (During a fun _ _ => True) := by
    intro a isSnap
    refine takes_setupUnverified.weaken (fun _ h => h) (fun t h => h.between ?_) fun _ h => h.mono fun _ _ _ => trivial
    rintro home dev ⟨rfl, hv, ha⟩
    refine ⟨fun hu => ?_, fun _ _ => rfl, fun hact => ?_⟩
    · rw [hv] at hu
      cases hu
    · rw [ha] at hact
      cases hact
  have hrest : Takes Between (do
      let a ← homeAlloc env
      onCode
        (if isSnap then
          if isMounted then homeSetupActiveSnap env on a minor bdevPath cacheSize
          else lift (tracerSetupUnverified env a minor bdevPath cowPath cacheSize true)
        else if !isMounted then lift (tracerSetupUnverified env a minor bdevPath cowPath cacheSize false)
        else throw (.code .einval))
        (lift (kfree a))) Between Between := by
    intro s hs
    rw [wp_bind]
    refine wp_mono (homeAlloc_wp 0 (H := fun _ => True) hs trivial trivial) ?_ fun _ _ h => h
    rintro a t ⟨ht, -⟩
    refine takes_onCode (Takes.ite (Takes.ite ?_ hwaiting) (Takes.ite hwaiting ?_)) takes_kfree t ht
    · exact takes_setupActiveSnap.weaken (fun _ h => h) (fun _ h => h.between fun _ _ => Settled.good) fun _ h => h
    · exact takes_code.leave fun _ h => h.mono fun _ _ _ => trivial
  exact Takes.ite (takes_code.bind fun _ => hrest) hrest

/-- What the driver does to the devices leaves their homes alone. -/
theorem takes_lift_homes {I J K : DriverState × (Nat → Home) → Prop} {H : (Nat → Home) → Prop} {x : DriverM α}
    (h : Takes I (lift x) J K) : Takes (fun s => I s ∧ H s.2) (lift x) (fun s => J s ∧ H s.2) K := by
  rintro s ⟨hs, hh⟩
  have hx := h s hs
  rw [wp_lift] at hx ⊢
  exact wp_mono hx (fun _ _ ht => ⟨ht, hh⟩) fun _ _ ht => ht

/-- The new device of a transition, up to where the home of the old one is read. -/
theorem transition_wp {H : Home → Prop} {snapshot : Bool} {f : Nat → SnapDevice → HomeM Unit} (hz : H .zero)
    (hs : Between s) (hold : H (s.2 old))
    (hf : ∀ a oldDev t, During a (fun _ dev => dev.unverified = false) t → H (t.2 old) →
      wp (f a oldDev) t (fun _ t => Between t) (Fails fun _ t => Between t)) :
    wp (do
      let a ← homeAlloc env
      lift (onDev a (setMode snapshot true false))
      let oldDev ← lift (getDev old)
      f a oldDev) s (fun _ t => Between t) (Fails fun _ t => Between t) := by
  rw [wp_bind]
  refine wp_mono (homeAlloc_wp old hs hold hz) (fun a t ht => ?_) fun _ _ h => h
  have hsoft : Soft fun _ dev => dev.unverified = false := fun _ _ _ hm hv => hm.unverified.trans hv
  have hmode : Takes (During a fun home _ => home = .zero) (lift (onDev a (setMode snapshot true false)))
      (During a fun _ dev => dev.unverified = false) Between := by
    refine Takes.leave (K := During a Good) ?_ fun _ h => h.between fun _ _ hg => hg
    exact takes_modify fun _ _ _ => by rfl
  have hread : Takes (During a fun _ dev => dev.unverified = false) (lift (getDev old))
      (During a fun _ dev => dev.unverified = false) Between :=
    (takes_mild hsoft (held_still still_getDev)).sure (sure_lift sure_getDev)
  refine Takes.bind (takes_lift_homes (H := fun homes => H (homes old)) hmode) (fun _ =>
    (takes_lift_homes (H := fun homes => H (homes old)) hread).bind fun oldDev => ?_) t ht
  exact fun t ht => hf a oldDev t ht.1 ht.2

theorem homeSnapToInc_wp (hs : Between s) (hold : Accurate (s.2 old)) :
    wp (homeSnapToInc env old) s (fun _ t => Between t) (Fails fun _ t => Between t) := by
  rw [homeSnapToInc]
  refine transition_wp (H := Accurate) ⟨rfl, rfl⟩ hs hold fun a oldDev t ht hhome => ?_
  rw [wp_bind, wp_get]
  generalize t.2 old = home at hhome
  have hsoft : Soft fun home dev => dev.unverified = false ∧ Accurate home := fun _ _ _ hm h => ⟨hm.unverified.trans h.1, h.2⟩
  have hgood : ∀ {t}, During a (fun home dev => dev.unverified = false ∧ Accurate home) t → Between t := by
    intro t ht
    refine ht.between fun home dev h => ⟨fun _ => h.2, fun hu => ?_, fun _ => h.1⟩
    rw [h.1] at hu
    cases hu
  have hcopy : Takes (During a fun _ dev => dev.unverified = false)
      (onHome a (do
        homeCopyBaseDev oldDev home
        homeCopyCowPath oldDev home
        homeCopyCow oldDev home))
      (During a fun home dev => dev.unverified = false ∧ Accurate home) Between := by
    refine (takes_onHome (K := Good) ?_).leave fun _ h => h.between fun _ _ hg => hg
    intro l hv
    simp only [homeCopyBaseDev, homeCopyCowPath, homeCopyCow, tracerCopyBaseDev, tracerCopyCowPath, tracerCopyCow, modifyDev,
      wp_bind, wp_lift, wp_note, wp_ite, wp_throw, wp_modify]
    split
    · trivial
    · exact ⟨hv, hhome.flag, hhome.relative⟩
  refine Takes.bind hcopy (fun _ => Takes.bind
    (takes_onCode (K := During a fun home dev => dev.unverified = false ∧ Accurate home) ?_ ?_) fun _ =>
      (takes_mild hsoft (mild_of modest_snapToIncCommit)).weaken (fun _ h => h) (fun _ => hgood) fun _ => hgood) t ht
  · exact (takes_mild hsoft (mild_dev meek_setupCowThread)).bind fun _ => takes_mild hsoft mild_setupTracing
  · exact ((takes_mild hsoft (mild_dev meek_destroyCowThread)).leave fun _ => hgood).bind fun _ => takes_kfree

theorem homeIncToSnap_wp (hs : Between s) (hold : (s.2 old).flag = true → on = true) :
    wp (homeIncToSnap env on old) s (fun _ t => Between t) (Fails fun _ t => Between t) := by
  rw [homeIncToSnap]
  refine transition_wp (H := fun home => home.flag = true → on = true) (fun h => by cases h) hs hold
    fun a oldDev t ht hhome => ?_
  rw [wp_bind, wp_get]
  generalize t.2 old = home at hhome
  have hcopy : Takes (During a fun _ dev => dev.unverified = false) (onHome a (homeCopyBaseDev oldDev home))
      (During a (Ready on)) Between := by
    refine (takes_onHome (K := Good) ?_).leave fun _ h => h.between fun _ _ hg => hg
    intro l hv
    simp only [homeCopyBaseDev, tracerCopyBaseDev, modifyDev, wp_bind, wp_lift, wp_note, wp_modify]
    exact ⟨hv, hhome⟩
  have hgood : ∀ {t}, During a (Settled on) t → Between t := fun ht => ht.between fun _ _ => Settled.good
  have hdrop : Sure (do
      tracerDestroyCowThread env
      tracerDestroySnap
      tracerDestroyCowPath
      tracerDestroyCow env .free) := fun l _ => dropSnap_always l
  have hmeek : Relates Meek (do
      tracerDestroyCowThread env
      tracerDestroySnap
      tracerDestroyCowPath
      tracerDestroyCow env .free) :=
    meek_destroyCowThread.bind fun _ => (meek_modifyDev fun _ => by rfl).bind fun _ =>
      (meek_modifyDev fun _ => by rfl).bind fun _ => meek_destroyCow
  have hsnap : Relates Meek (do
      tracerSetupSnap env
      tracerSetupCowThread env) := meek_setupSnap.bind fun _ => meek_setupCowThread
  refine Takes.bind hcopy (fun _ => Takes.bind (takes_onCode (K := During a fun _ _ => True) ?_ ?_) fun _ =>
    (takes_mild soft_settled (mild_of modest_incToSnapCommit)).weaken (fun _ h => h) (fun _ => hgood) fun _ => hgood) t ht
  · cases oldDev.cow.isNone with
    | true => exact takes_oops.bind fun _ => takes_setupDev (fun dev => dev.size) (fun dev => dev.cacheSize) .init hsnap
    | false => exact takes_setupDev (fun dev => dev.size) (fun dev => dev.cacheSize) .init hsnap
  · exact ((takes_mild soft_true (mild_dev hmeek)).sure (sure_lift (sure_onDev hdrop))).bind fun _ => takes_kfree

/-- A device that could not be verified waits again, and has failed. -/
theorem takes_unverifiedToActive {isSnap : Bool} :
    Takes (During a fun home _ => home.flag = false) (homeUnverifiedToActive env on isSnap a) Between Between := by
  have hsoft : Soft fun home _ => home.flag = false := fun _ _ _ _ h => h
  have hgetDev : Takes (During a fun home _ => home.flag = false) (lift (getDev a)) (During a fun home _ => home.flag = false)
      Between := (takes_mild hsoft (held_still still_getDev)).sure (sure_lift sure_getDev)
  refine hgetDev.bind fun dev => ?_
  cases dev.bdevPath with
  | none => exact takes_oops
  | some bdevPath =>
      cases dev.cowPath with
      | none => exact takes_oops
      | some relPath =>
          refine Takes.bind (J := During a fun home _ => home.flag = false)
            ((takes_mild hsoft mild_destroyTracing).sure (sure_lift sure_destroyTracing)) fun _ =>
            Takes.bind (J := During a (Ready on)) ?_ fun _ => takes_attempt (J := During a (Settled on))
              (K := During a fun _ _ => True) ?_ ?_ fun e => ?_
          · refine Takes.leave (K := During a Good) ?_ fun _ h => h.between fun _ _ hg => hg
            refine takes_modify fun home _ hf => ⟨rfl, fun h => ?_⟩
            rw [hf] at h
            cases h
          · refine Takes.bind (J := During a (Ready on)) ?_ fun _ => ?_
            · exact (takes_mild soft_ready (mild_of modest_setupBaseDev)).leave fun _ h => h.mono fun _ _ _ => trivial
            · refine takes_setupDev (fun dev => dev.size) (fun dev => dev.cacheSize) .reload ?_
              cases isSnap with
              | true => exact meek_wakeParts
              | false => exact meek_setupCowThread.bind fun _ => meek_wakeUp
          · exact fun s hs => hs.between fun _ _ => Settled.good
          · refine takes_destroy.bind fun _ => takes_attempt (J := During a (Waiting fun _ => True))
              (K := During a (Waiting fun _ => True)) (takes_setupUnverified (H := fun _ => True)) ?_ fun _ => ?_
            all_goals
              refine Takes.weaken (J := During a Good) (K := During a Good) (takes_modify ?_) (fun _ h => h)
                (fun _ h => h.between fun _ _ hg => hg) fun _ h => h.between fun _ _ hg => hg
              rintro home dev ⟨-, hv, ha⟩
              refine ⟨fun hu => ?_, (fun _ hf => by cases hf), fun hact => ?_⟩
              · rw [hv] at hu
                cases hu
              · rw [ha] at hact
                cases hact

/-- The COW file is opened again where it was. -/
theorem takes_dormantToActive : Takes (During a (Settled on)) (homeDormantToActive env on a) Between Between := by
  refine Takes.weaken (J := During a (Settled on)) (K := During a (Settled on)) (takes_onHome ?_) (fun _ h => h)
    (fun _ h => h.between fun _ _ => Settled.good) fun _ h => h.between fun _ _ => Settled.good
  have hcow : Takes (fun l => Settled on l.2 l.1.dev) (homeSetupCow env on 0 0 .reopen) (fun l => Settled on l.2 l.1.dev)
      fun l => Settled on l.2 l.1.dev := by
    refine (takes_meek soft_settled meek_setupCow).bind fun _ => ?_
    rintro ⟨l, home⟩ ⟨hv, hhome⟩
    rw [wp_note]
    dsimp only at hhome ⊢
    subst hhome
    exact ⟨hv, by simp only [Bool.or_self]⟩
  have hrest : Takes (fun l => Settled on l.2 l.1.dev)
      (lift (do
        tracerSetupCowThread env
        wakeUpProcess
        modifyDev fun dev => { dev with active := true, unverified := false }) : HomeDevM Unit)
      (fun l => Settled on l.2 l.1.dev) fun l => Settled on l.2 l.1.dev := by
    rw [lift_bind, lift_bind]
    exact (takes_meek soft_settled meek_setupCowThread).bind fun _ => (takes_meek soft_settled meek_wakeUp).bind fun _ =>
      takes_lifted fun _ _ hl => ⟨rfl, hl.2⟩
  refine takes_attempt (hcow.bind fun _ => hrest) takes_pure fun e => takes_meek soft_settled meek_failState

/-- A device can be made active: it waits with the bit clear, or is settled. -/
def Prepared (on : Bool) (home : Home) (dev : SnapDevice) : Prop :=
  (dev.unverified = true → home.flag = false) ∧ (dev.unverified = false → home = ⟨on, on, on⟩)

theorem takes_getDev {J K : DriverState × (Nat → Home) → Prop} {f : SnapDevice → HomeM α}
    (hf : ∀ dev, Takes (During a fun home dev' => P home dev' ∧ dev' = dev) (f dev) J K) :
    Takes (During a P) (lift (getDev a) >>= f) J K := by
  intro s hs
  rw [wp_bind]
  refine wp_lifted (wp_getDev.mpr fun dev hdev => hf dev s fun c cur hcur => ?_)
  have hc := hs c cur hcur
  by_cases hca : c = a
  · subst hca
    rw [Function.update_self] at hc ⊢
    exact ⟨hc, Option.some.inj (hcur.symm.trans hdev)⟩
  · rw [Function.update_of_ne hca] at hc ⊢
    exact hc

theorem takes_autoTransition : Takes (During a (Prepared on)) (homeAutoTransitionActive env on a) Between Between := by
  refine takes_getDev fun dev => ?_
  cases hv : dev.unverified with
  | true =>
      have hclear : ∀ {isSnap : Bool}, Takes (During a fun home dev' => Prepared on home dev' ∧ dev' = dev)
          (homeUnverifiedToActive env on isSnap a) Between Between := by
        refine takes_unverifiedToActive.weaken (fun _ h => h.mono ?_) (fun _ h => h) fun _ h => h
        rintro home _ ⟨hp, rfl⟩
        exact hp.1 hv
      simp only [if_true]
      exact Takes.ite hclear hclear
  | false =>
      refine takes_dormantToActive.weaken (fun _ h => h.mono ?_) (fun _ h => h) fun _ h => h
      rintro home _ ⟨hp, rfl⟩
      exact ⟨hv, hp.2 hv⟩

theorem Settled.prepared (h : Settled on home dev) : Prepared on home dev := by
  refine ⟨fun hu => ?_, fun _ => h.2⟩
  rw [h.1] at hu
  cases hu

theorem takes_postUmount : Takes (During a (Settled on)) (homePostUmountCheck env on a false) Between Between := by
  have hgood : ∀ {t}, During a (Settled on) t → Between t := fun ht => ht.between fun _ _ => Settled.good
  refine takes_getDev fun dev => Takes.weaken (I := During a (Settled on)) ?_ (fun _ h => h.mono fun _ _ hp => hp.1)
    (fun _ h => h) fun _ h => h
  simp only [Bool.not_false, if_true]
  cases dev.bdevPath with
  | none => exact takes_oops
  | some path =>
      refine Takes.bind ((takes_mild soft_settled (held_still still_call)).leave fun _ => hgood) fun n => ?_
      cases env.blkdevGetByPath n path with
      | error e => exact (takes_mild soft_settled (mild_dev meek_failState)).weaken (fun _ h => h) (fun _ => hgood) fun _ => hgood
      | ok c => exact takes_autoTransition.weaken (fun _ h => h.mono fun _ _ => Settled.prepared) (fun _ h => h) fun _ h => h

theorem takes_umounted : Takes Between (homePostUmountCheck env on a true) Between Between := by
  refine (takes_between (held_still still_getDev)).bind fun dev => ?_
  simp only [Bool.not_true, Bool.false_eq_true, if_false]
  cases dev.baseDev with
  | none => exact takes_oops
  | some b =>
      exact (takes_between (held_still still_call)).bind fun n =>
        Takes.ite (takes_between (mild_dev meek_failState)) takes_pure

theorem wp_run {σ : Type} {x : EStateM Err σ α} {s : σ} {Q : α → σ → Prop} {F : Errno → σ → Prop} (h : wp x s Q (Fails F)) :
    wp x s (fun r t => Q r t ∧ x s = .ok r t) (Fails F) := by
  unfold wp at h ⊢
  cases hx : x s with
  | ok r t =>
      rw [hx] at h
      exact ⟨h, rfl⟩
  | error e t =>
      rw [hx] at h
      exact h

theorem Accurate.eq (h : Accurate home) (hon : on = home.onBdev) : home = ⟨on, on, on⟩ := by
  obtain ⟨flag, onBdev, relative⟩ := home
  obtain ⟨hflag, hrelative⟩ := h
  dsimp only at hflag hrelative hon
  subst hon hflag hrelative
  rfl

/-- The device that an umount makes dormant is a verified one. -/
theorem homeUmountHook_wp {umounted : Bool} (hs : Between s)
    (hon : umounted = false → ∀ a d', umountSearch b s.1 = .ok (some a) d' → on = (s.2 a).onBdev) :
    wp (homeUmountHook env on b umounted) s (fun _ t => Between t) (Fails fun _ t => Between t) := by
  rw [homeUmountHook, wp_bind]
  refine wp_lifted ?_
  let R : Nat → SnapDevice → Bool → Prop := fun _ dev r => r = true → dev.active = true
  have hp : ∀ (a : Nat) dev n,
      wp (pure (dev.active && dev.failCode.isNone && dev.baseDev == some b) : DriverM Bool) (s.1.atCall n)
        (fun r d' => (∃ m, True ∧ d' = s.1.atCall m) ∧ R a dev r) (Fails fun _ _ => False) := by
    refine fun a dev n => ⟨⟨n, trivial, rfl⟩, fun h => ?_⟩
    rw [Bool.and_eq_true, Bool.and_eq_true] at h
    exact h.1.1
  have hsearch := wp_run (tracerForEach_wp (T := fun _ _ => True) (fun _ => trivial) (fun _ _ => trivial) hp)
  refine wp_weaken hsearch ?_ fun _ _ h => h.elim
  rintro r d₁ ⟨⟨⟨m, -, rfl⟩, hr⟩, hrun⟩
  cases r with
  | none => exact hs
  | some a =>
      obtain ⟨i, dev, -, hdev, hact⟩ := hr
      have hgood := hs a dev hdev
      have hv := hgood.active (hact rfl)
      dsimp only
      cases umounted with
      | true =>
          rw [wp_bind]
          refine wp_mono (takes_between mild_toDormant _ ?_) (fun _ t ht => takes_umounted t ht) fun _ _ h => h
          exact hs
      | false =>
          have hsettled : During a (Settled on) (s.1.atCall m, s.2) := by
            refine Between.during hs fun cur hcur => ?_
            obtain rfl := Option.some.inj (hdev.symm.trans hcur)
            exact ⟨hv, (hgood.accurate hv).eq (hon rfl a _ hrun)⟩
          rw [wp_bind]
          refine wp_mono ((takes_mild soft_settled mild_toDormant).leave ?_ _ hsettled) (fun _ t ht => takes_postUmount t ht)
            fun _ _ h => h
          exact fun _ h => h.between fun _ _ => Settled.good

/-- A device that a mount makes active has not failed. -/
theorem homeMountHook_wp {mounted : Bool} (hs : Between s)
    (hon : mounted = true → ∀ a d' dev, mountSearch env b s.1 = .ok (some a) d' → s.1.devs a = some dev →
      dev.unverified = false → on = (s.2 a).onBdev) :
    wp (homeMountHook env on b mounted) s (fun _ t => Between t) (Fails fun _ t => Between t) := by
  cases mounted with
  | false => exact hs
  | true =>
      rw [homeMountHook, if_pos rfl, wp_bind]
      refine wp_lifted ?_
      have hsearch := wp_run (tracerForEach_wp (T := fun _ _ => True) (fun _ => trivial) (fun _ _ => trivial)
        fun a dev n => mountTest_wp env b s.1 a dev n)
      refine wp_weaken hsearch ?_ fun _ _ h => h.elim
      rintro r d₁ ⟨⟨⟨m, -, rfl⟩, hr⟩, hrun⟩
      cases r with
      | none => exact hs
      | some a =>
          obtain ⟨i, dev, -, hdev, hfail⟩ := hr
          have hgood := hs a dev hdev
          refine takes_autoTransition _ (Between.during hs fun cur hcur => ?_)
          obtain rfl := Option.some.inj (hdev.symm.trans hcur)
          exact ⟨fun hu => hgood.waiting hu (hfail rfl).2.1, fun hv => (hgood.accurate hv).eq (hon rfl a _ dev hrun hdev hv)⟩

theorem mild_notBusy : Relates (Held Mild) (do
    match (← get).snapDevices minor with
    | none => throw (.code enoent)
    | some a =>
        if env.busy (← call) then throw (.code ebusy)
        return a : DriverM Nat) := by
  refine relates_get.bind fun d => ?_
  cases d.snapDevices minor with
  | none => exact relates_throw
  | some a =>
      exact (held_still still_call).bind fun n => Relates.ite (relates_throw.bind fun _ => relates_pure) relates_pure

theorem mild_inUse : Relates (Held Mild) (verifyMinorInUseNotBusy env minor) :=
  Relates.ite (relates_throw.bind fun _ => mild_notBusy) mild_notBusy

theorem mild_ioctlDestroy : Relates (Held Mild) (ioctlDestroy env minor) :=
  mild_inUse.bind fun _ => mild_destroy.bind fun _ => held_kfree

theorem mild_reconfigure : Relates (Held Mild) (ioctlReconfigure env minor cacheSize) := by
  refine mild_inUse.bind fun a => (held_still still_getDev).bind fun dev => ?_
  exact Relates.ite (relates_throw.bind fun _ => mild_dev meek_reconfigure) (mild_dev meek_reconfigure)

theorem mild_failure {e : Errno} : Relates (Held Mild) (failDevice minor e) := by
  refine relates_get.bind fun d => ?_
  cases d.snapDevices minor with
  | none => exact relates_pure
  | some a => exact mild_dev meek_failState

theorem mild_notice : Relates (Held Mild) (noticeFailure minor) := by
  refine relates_get.bind fun d => ?_
  cases d.snapDevices minor with
  | none => exact relates_pure
  | some a =>
      refine mild_dev (meek_modifyDev fun dev => ?_)
      split <;> rfl

/-- A transition is begun on an active device, which is a verified one. -/
theorem homeTransitionInc_wp (hs : Between s) :
    wp (homeTransitionInc env minor) s (fun _ t => Between t) (Fails fun _ t => Between t) := by
  rw [homeTransitionInc, wp_bind]
  refine wp_lifted (wp_weaken verifyMinorInUseNotBusy_wp ?_ ?_)
  · rintro a d₁ ⟨n, rfl, -, -, -⟩
    rw [wp_bind]
    refine wp_lifted (wp_getDev.mpr fun dev hdev => ?_)
    have hgood := hs a dev hdev
    cases dev.failCode with
    | some e => exact hs
    | none =>
        dsimp only
        rw [wp_ite]
        split
        next => exact hs
        next hmode =>
          simp only [Bool.or_eq_true, Bool.not_eq_true', not_or, Bool.not_eq_false] at hmode
          exact homeSnapToInc_wp hs (hgood.accurate (hgood.active hmode.2))
  · rintro c d₁ ⟨n, rfl⟩
    exact hs

theorem homeTransitionSnap_wp (hs : Between s)
    (hon : ∀ a, s.1.snapDevices minor = some a → (s.2 a).flag = true → on = true) :
    wp (homeTransitionSnap env on minor) s (fun _ t => Between t) (Fails fun _ t => Between t) := by
  rw [homeTransitionSnap, wp_bind]
  refine wp_lifted (wp_weaken verifyMinorInUseNotBusy_wp ?_ ?_)
  · rintro a d₁ ⟨n, rfl, -, -, ha⟩
    rw [wp_bind]
    refine wp_lifted (wp_getDev.mpr fun dev hdev => ?_)
    rw [wp_ite]
    split
    next => exact hs
    next =>
      rw [wp_ite]
      split
      next => exact hs
      next => exact homeIncToSnap_wp hs (hon a ha)
  · rintro c d₁ ⟨n, rfl⟩
    exact hs

end

/-- The COW file of the event is where the bit of the device will say: a snapshot has its new COW file on the base
device if the incremental had, and a COW file that is opened again is where it was. -/
def Fitting (env : Env) (s : DriverState × (Nat → Home)) (event : Event × Bool) : Prop :=
  match event.1 with
  | .transitionSnap minor => ∀ a, s.1.snapDevices minor = some a → (s.2 a).flag = true → event.2 = true
  | .umount b false => ∀ a d', umountSearch b s.1 = .ok (some a) d' → event.2 = (s.2 a).onBdev
  | .mount b true => ∀ a d' dev, mountSearch env b s.1 = .ok (some a) d' → s.1.devs a = some dev → dev.unverified = false →
      event.2 = (s.2 a).onBdev
  | _ => True

/-- What is said of the COW file of each verified device of the table. -/
def FlagAccurate (s : DriverState × (Nat → Home)) : Prop :=
  ∀ i a dev, s.1.snapDevices i = some a → s.1.devs a = some dev → dev.unverified = false →
    ((s.2 a).flag = true ↔ (s.2 a).onBdev = true) ∧ ((s.2 a).relative = true ↔ (s.2 a).flag = true)

section

variable {env : Env} {on : Bool} {event : Event} {s t : DriverState × (Nat → Home)}

theorem homeExec_wp (hs : Between s) (hf : Fitting env s (event, on)) :
    wp (homeExec env on event) s (fun _ t => Between t) (Fails fun _ t => Between t) := by
  cases event with
  | setupSnap m p q c => exact takes_setup s hs
  | reloadSnap m p q c => exact takes_setup s hs
  | reloadInc m p q c => exact takes_setup s hs
  | destroy m => exact takes_between mild_ioctlDestroy s hs
  | transitionInc m => exact homeTransitionInc_wp hs
  | transitionSnap m => exact homeTransitionSnap_wp hs hf
  | reconfigure m c => exact takes_between mild_reconfigure s hs
  | umount b umounted =>
      refine homeUmountHook_wp hs ?_
      rintro rfl
      exact hf
  | mount b mounted =>
      refine homeMountHook_wp hs ?_
      rintro rfl
      exact hf
  | failure m e => exact takes_between mild_failure s hs
  | notice m => exact takes_between mild_notice s hs

theorem between_step {event : Event × Bool} (hs : Between s) (hf : Fitting env s event) (h : homeStep env s event = some t) :
    Between t := by
  obtain ⟨event, on⟩ := event
  have hwp := homeExec_wp hs hf
  rw [homeStep] at h
  unfold wp at hwp
  dsimp only at h
  cases hexec : homeExec env on event s with
  | ok r t₁ =>
      rw [hexec] at h hwp
      cases h
      exact hwp
  | error e t₁ =>
      rw [hexec] at h hwp
      cases e with
      | code c =>
          cases h
          exact hwp
      | oops => cases h

theorem Between.flagAccurate (h : Between s) : FlagAccurate s := by
  intro i a dev _ hdev hv
  have hacc := (h a dev hdev).accurate hv
  rw [hacc.relative, hacc.flag]
  exact ⟨Iff.rfl, Iff.rfl⟩

end

/-- The bit is accurate in every run whose COW files are where the bit will say. -/
theorem cow_on_bdev_accurate (env : Env) (native : Nat → Nat) (s : DriverState × (Nat → Home))
    (h : Reach (homeStep env) (Fitting env) (.start env native, fun _ => .zero) s) : FlagAccurate s :=
  Between.flagAccurate (h.invariant (fun _ _ hdev => by cases hdev) fun _ _ _ hs hf hstep => between_step hs hf hstep)

/-- A snapshot whose COW file is on the base device. -/
def onBdevSetup : Event × Bool := (.setupSnap 0 "/dev/sda1" "/cow" 0, true)

/-- The snapshot becomes an incremental, and then one whose COW file is on the base device too. -/
def stayedThere : List (Event × Bool) := [onBdevSetup, (.transitionInc 0, true), (.transitionSnap 0, true)]

theorem cow_on_bdev_accurate_kept : ∃ s, run (homeStep calm) (.start calm fun _ => 0, fun _ => .zero) stayedThere = some s ∧
    s.1.snapDevices 0 = some 2 ∧ s.2 2 = ⟨true, true, true⟩ ∧ FlagAccurate s := by
  have hparts : (run (homeStep calm) (.start calm fun _ => 0, fun _ => .zero) stayedThere).map (fun s =>
      (s.1.snapDevices 0, s.2 2)) = some (some 2, ⟨true, true, true⟩) := by decide +kernel
  obtain ⟨s, hs, hdev⟩ := Option.map_eq_some_iff.mp hparts
  simp only [Prod.mk.injEq] at hdev
  have hreach : Reach (homeStep calm) (Fitting calm) (.start calm fun _ => 0, fun _ => .zero) s :=
    Reach.init.run hs (.cons trivial fun _ => .cons trivial fun _ => .cons (fun _ _ _ => rfl) fun _ => trivial)
  exact ⟨s, hs, hdev.1, hdev.2, cow_on_bdev_accurate calm (fun _ => 0) s hreach⟩

/-- The snapshot becomes an incremental, and then one whose COW file is somewhere else. -/
def movedAway : List (Event × Bool) := [onBdevSetup, (.transitionInc 0, true), (.transitionSnap 0, false)]

/-- The bit that the new snapshot has from the incremental stays set. -/
theorem cow_on_bdev_stays_set : ¬ ∀ (env : Env) (native : Nat → Nat) (s : DriverState × (Nat → Home)),
    (∃ events, run (homeStep env) (.start env native, fun _ => .zero) events = some s) → FlagAccurate s := by
  intro h
  have hrun : (run (homeStep calm) (.start calm fun _ => 0, fun _ => .zero) movedAway).map (fun s =>
      (s.1.snapDevices 0, (s.1.devs 2).map SnapDevice.unverified, s.2 2)) = some (some 2, some false, ⟨true, false, true⟩) := by
    decide +kernel
  obtain ⟨s, hs, hparts⟩ := Option.map_eq_some_iff.mp hrun
  obtain ⟨hplace, hrest⟩ := Prod.mk.inj hparts
  obtain ⟨hdev, hhome⟩ := Prod.mk.inj hrest
  obtain ⟨dev, hdev, hv⟩ := Option.map_eq_some_iff.mp hdev
  have hflag := (h calm (fun _ => 0) s ⟨movedAway, hs⟩ 0 2 dev hplace hdev hv).1
  rw [hhome] at hflag
  exact absurd (hflag.mp rfl) (by decide)

end ElastioSnap.Driver.CowOnBdev
