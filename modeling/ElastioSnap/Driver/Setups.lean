import ElastioSnap.Driver.Walk

namespace ElastioSnap.Driver.Setups

open Function (update)
open Lib.Outcome State Setup Events Component Rows Tracing Effects Walk
open Cow.Manager (Errno Err)

variable {env : Env} {d : DriverState} {a b i n minor : Nat} {dev : SnapDevice} {l : Local}

/-- What `tracer_destroy` leaves of a device: the bits of its state, and what the end of its
worker has set. -/
def stripped (dev : SnapDevice) (f : Option Errno) (ignored : Bool) : SnapDevice :=
  { SnapDevice.zero with
    snapshot := dev.snapshot
    active := dev.active
    unverified := dev.unverified
    failCode := f
    ignoreRequests := ignored
    tracingOps := dev.tracingOps }

theorem stripParts_wp : wp (do
      tracerDestroyCowThread env
      tracerDestroySnap
      tracerDestroyCowPath
      tracerDestroyCow env .free
      tracerDestroyBaseDev) l
    (fun _ l' => ∃ f ignored, l'.dev = { stripped l.dev f ignored with minor := l.dev.minor, origOps := l.dev.origOps })
    (Fails fun _ _ => False) := by
  simp only [wp_bind]
  apply wp_weaken tracerDestroyCowThread_wp
  · rintro _ l₁ ⟨hdr, -⟩
    simp only [tracerDestroySnap, tracerDestroyCowPath, tracerDestroyBaseDev, wp_modifyDev]
    apply wp_weaken tracerDestroyCow_free_wp
    · intro _ l₂ h₂
      refine ⟨l₁.dev.failCode, l₁.dev.ignoreRequests, ?_⟩
      rw [h₂, hdr.eq]
      simp only [stripped, SnapDevice.zero]
    · exact fun _ _ h => h
  · exact fun _ _ h => h

/-- Destroying a device that never got as far as the table. -/
theorem tracerDestroy_off_wp (hoff : Off a d) (hd : d.devs a = some dev) (ho : dev.origOps = none) :
    wp (tracerDestroy env a) d
      (fun _ d' => ∃ f ignored n, d' = recalculated env (upd d a (stripped dev f ignored) d.ops n))
      (Fails fun _ _ => False) := by
  rw [tracerDestroy, wp_bind]
  apply wp_weaken (tracerDestroyTracing_plain_wp hd ho)
  · rintro _ d₁ rfl
    rw [if_neg (hoff _)]
    refine (wp_onDev (?_ : _ = some { dev with minor := 0 })).mpr ?_
    · exact Function.update_self ..
    · apply wp_weaken stripParts_wp
      · rintro _ l' ⟨f, ignored, h⟩
        refine ⟨f, ignored, l'.clock, ?_⟩
        have hl : l'.dev = stripped dev f ignored := by
          rw [h]
          simp only [ho, stripped, SnapDevice.zero]
        rw [← hl]
        simp only [recalculated, DriverState.put, upd, Function.update_idem]
      · exact fun _ _ h => h
  · exact fun _ _ h => h

theorem destroyFailed_wp {d₁ : DriverState} {ops : OpsState} (hoff : Off a d)
    (hd₁ : d₁ = upd d a dev ops n ∨ d₁ = recalculated env (upd d a dev ops n)) (ho : dev.origOps = none) :
    wp (tracerDestroy env a) d₁
      (fun _ d' => ∃ f ignored n, d' = recalculated env (upd d a (stripped dev f ignored) ops n))
      (Fails fun _ _ => False) := by
  rcases hd₁ with rfl | rfl
  · apply wp_weaken (tracerDestroy_off_wp (d := upd d a dev ops n) hoff upd_devs ho)
    · rintro _ d' ⟨f, ignored, n, rfl⟩
      exact ⟨f, ignored, n, by rw [upd_upd]; rfl⟩
    · exact fun _ _ h => h
  · apply wp_weaken (tracerDestroy_off_wp (d := recalculated env (upd d a dev ops n)) hoff (Function.update_self ..) ho)
    · rintro _ d' ⟨f, ignored, n, rfl⟩
      refine ⟨f, ignored, n, ?_⟩
      simp only [recalculated, upd, Function.update_idem]
    · exact fun _ _ h => h

theorem bdevIsAlreadyTraced_wp (hs : Sound env d) : wp (bdevIsAlreadyTraced b) d
    (fun r d' => (∃ m, d' = d.atCall m) ∧ (r = false → Untraced d.row b)) (Fails fun _ _ => False) := by
  simp only [bdevIsAlreadyTraced, wp_bind, wp_pure]
  let R : Nat → SnapDevice → Bool → Prop := fun _ dev r => r = (!dev.unverified && dev.baseDev == some b)
  have hp : ∀ (a : Nat) dev n, wp (pure (!dev.unverified && dev.baseDev == some b) : DriverM Bool) (d.atCall n)
      (fun r d' => (∃ m, n = m ∧ d' = d.atCall m) ∧ R a dev r) (Fails fun _ _ => False) :=
    fun a dev n => ⟨⟨n, rfl, rfl⟩, rfl⟩
  apply wp_weaken (tracerForEach_wp (fun _ => rfl) (fun h h' => h.trans h') hp)
  · rintro r d' ⟨⟨m, -, hm⟩, hr⟩
    refine ⟨⟨m, hm⟩, fun hnone => ?_⟩
    cases r with
    | some c => cases hnone
    | none =>
        intro j dev hj hv hb
        obtain ⟨c, hc, hdev⟩ := row_eq_some.mp hj
        obtain ⟨dev', hdev', htest⟩ := hr j (hs.mem_minorRange hc) c hc
        obtain rfl : dev = dev' := Option.some.inj (hdev.symm.trans hdev')
        simp [R, hv, hb] at htest
  · exact fun _ _ h => h

theorem tracerSetupBaseDev_wp {path : Path} (hs : Sound env d) (hoff : Off a d) (hd : d.devs a = some dev) :
    wp (tracerSetupBaseDev env a path) d
      (fun _ d' => ∃ b p s n, d' = upd d a { dev with baseDev := some b, bdevPath := some p, size := s } d.ops n ∧
        Untraced d.row b)
      (Fails fun _ d' => ∃ n, d' = upd d a { dev with baseDev := none, bdevPath := none, size := 0 } d.ops n) := by
  rw [tracerSetupBaseDev, wp_onCode]
  refine wp_weaken (F := fun _ d' => ∃ b n, d' = upd d a { dev with baseDev := b } d.ops n) ?_ (fun _ _ h => h) ?_
  · simp only [wp_bind, wp_call]
    cases env.blkdevGetByPath d.clock path with
    | error e =>
        refine ⟨dev.baseDev, d.clock + 1, ?_⟩
        simp only [upd, DriverState.atCall, ← hd, Function.update_eq_self]
    | ok b =>
        simp only [wp_bind]
        refine (wp_onDev (?_ : _ = some dev)).mpr ?_
        · exact hd
        rw [wp_modifyDev]
        apply wp_check
        · have hs₁ : Sound env (upd d a { dev with baseDev := some b } d.ops (d.clock + 1 + 1)) :=
            hs.untouched (untouched_upd hoff) fun h => hs.range h
          apply wp_weaken (bdevIsAlreadyTraced_wp hs₁)
          · rintro r d₁ ⟨⟨m, rfl⟩, hr⟩
            rw [(untouched_upd hoff).rows] at hr
            cases r with
            | true => exact ⟨some b, m, rfl⟩
            | false =>
                simp only [Bool.false_eq_true, if_false, wp_bind]
                apply wp_tick
                · rw [upd_atCall, upd_atCall, wp_onDev upd_devs, wp_modifyDev, upd_put]
                  exact ⟨b, _, _, _, rfl, hr rfl⟩
                · exact fun e => ⟨some b, _, rfl⟩
          · exact fun _ _ h => h.elim
        · exact ⟨some b, _, rfl⟩
  · rintro c d' ⟨b, n, rfl⟩
    rw [wp_onDev upd_devs, tracerDestroyBaseDev, wp_modifyDev, upd_put]
    exact ⟨n, rfl⟩

/-- The fields that the setup of the components of a device leaves alone. -/
structure SameMode (dev dev' : SnapDevice) : Prop where
  snapshot : dev'.snapshot = dev.snapshot
  active : dev'.active = dev.active
  unverified : dev'.unverified = dev.unverified
  origOps : dev'.origOps = dev.origOps
  tracingOps : dev'.tracingOps = dev.tracingOps

/-- The manager and the path of its file. -/
def withCow (env : Env) (cacheSize : Nat) (cowPath : Path) (dev : SnapDevice) : SnapDevice :=
  { dev with
    cacheSize := cacheOrDefault env cacheSize
    cow := some (openedCow env dev.size (cacheOrDefault env cacheSize))
    cowPath := some cowPath }

def withSnap (dev : SnapDevice) : SnapDevice := { dev with gd := true, queue := true, mrfThread := true }

/-- The components of a device with a new manager, up to what is done with its worker. -/
theorem setupParts_wp (isSnap : Bool) (cacheSize : Nat) (method : OpenMethod) {x : DevM Unit} {Q : Local → Prop}
    (hm : method ≠ .reopen)
    (hx : ∀ l' p, l'.dev = { (if isSnap then withSnap (withCow env cacheSize p l.dev) else withCow env cacheSize p l.dev) with
      cowThread := .created } → wp x l' (fun _ => Q) (Fails fun _ l' => SameMode l.dev l'.dev)) :
    wp (do
      tracerSetupCow env l.dev.size cacheSize method
      tracerSetupCowPath env
      if isSnap then tracerSetupSnap env
      tracerSetupCowThread env
      x) l (fun _ => Q) (Fails fun _ l' => SameMode l.dev l'.dev) := by
  have hthread : ∀ l₁ p, l₁.dev = (if isSnap then withSnap (withCow env cacheSize p l.dev) else withCow env cacheSize p l.dev) →
      wp (tracerSetupCowThread env) l₁ (fun _ l' => wp x l' (fun _ => Q) (Fails fun _ l' => SameMode l.dev l'.dev))
        (Fails fun _ l' => SameMode l.dev l'.dev) := by
    intro l₁ p h₁
    apply wp_weaken tracerSetupCowThread_wp
    · intro _ l₂ h₂
      exact hx l₂ p (by rw [h₂, h₁])
    · intro _ l₂ h₂
      rw [h₂, h₁]
      cases isSnap <;> exact ⟨rfl, rfl, rfl, rfl, rfl⟩
  simp only [wp_bind]
  apply wp_weaken (tracerSetupCow_wp hm)
  · intro _ l₁ h₁
    apply wp_weaken tracerSetupCowPath_wp
    · rintro _ l₂ ⟨p, h₂⟩
      have hcow : l₂.dev = withCow env cacheSize p l.dev := by
        rw [h₂, h₁]
        rfl
      cases isSnap with
      | false =>
          simp only [Bool.false_eq_true, if_false, wp_bind]
          exact hthread l₂ p hcow
      | true =>
          simp only [if_true, wp_bind]
          apply wp_weaken tracerSetupSnap_wp
          · intro _ l₃ h₃
            exact hthread l₃ p (by rw [h₃, hcow]; rfl)
          · intro _ l₃ h₃
            rw [h₃, hcow]
            exact ⟨rfl, rfl, rfl, rfl, rfl⟩
    · intro _ l₂ h₂
      rw [h₂, h₁]
      exact ⟨rfl, rfl, rfl, rfl, rfl⟩
  · intro _ l₁ h₁
    rw [h₁]
    exact ⟨rfl, rfl, rfl, rfl, rfl⟩

theorem wakeWorker_wp {dev : SnapDevice} (h : l.dev = { dev with cowThread := .created }) :
    wp wakeUpProcess l (fun _ l' => l'.dev = { dev with cowThread := .running }) (Fails fun _ _ => False) := by
  apply wp_weaken wakeUpProcess_wp
  · intro _ l₁ h₁
    rw [h₁, h]
  · exact fun _ _ h => h

/-- The device with the base device that was found for it. -/
def withBaseDev (b : Nat) (path : Path) (size : Nat) (dev : SnapDevice) : SnapDevice :=
  { dev with baseDev := some b, bdevPath := some path, size := size }

def withParts (env : Env) (isSnap : Bool) (cacheSize : Nat) (cowPath : Path) (dev : SnapDevice) : SnapDevice :=
  if isSnap then withSnap (withCow env cacheSize cowPath dev) else withCow env cacheSize cowPath dev

/-- A device that is out of the table gets all of its components, and is put into it. -/
theorem setupDevice_wp (dev : SnapDevice) (minor : Nat) (isSnap : Bool) (cache : SnapDevice → Nat) (method : OpenMethod)
    (path : Path) (hm : method ≠ .reopen) (hs : Sound env d) (hoff : Off a d) (ho : dev.origOps = none)
    (ht : dev.tracingOps = none) :
    wp (do
      tracerSetupBaseDev env a path
      onDev a (do
        let dev := (← get).dev
        tracerSetupCow env dev.size (cache dev) method
        tracerSetupCowPath env
        if isSnap then tracerSetupSnap env
        tracerSetupCowThread env
        wakeUpProcess)
      tracerSetupTracing env a minor) (upd d a dev d.ops n)
      (fun _ d' => ∃ b p s q o t ops k, d' = placed d a { withParts env isSnap (cache (withBaseDev b p s dev)) q
          (withBaseDev b p s dev) with
          cowThread := .running
          minor := minor
          origOps := o
          tracingOps := some t } minor ops k ∧
        Untraced d.row b ∧ Attached env d.row d.ops b o t ops)
      (Fails fun _ d' => ∃ dev' ops k, (d' = upd d a dev' ops k ∨ d' = recalculated env (upd d a dev' ops k)) ∧
        dev'.origOps = none ∧ dev'.tracingOps = none ∧ (Freezes env → ops = d.ops)) := by
  have hs₁ : Sound env (upd d a dev d.ops n) := hs.untouched (untouched_upd hoff) fun h => hs.range h
  simp only [wp_bind]
  apply wp_weaken (tracerSetupBaseDev_wp hs₁ hoff upd_devs)
  · rintro _ d₁ ⟨b, p, s, m, rfl, hb⟩
    rw [(untouched_upd hoff).rows] at hb
    change wp _ (upd (upd d a dev d.ops n) a (withBaseDev b p s dev) d.ops m) _ _
    rw [upd_upd, wp_onDev upd_devs]
    have hparts := setupParts_wp (l := ⟨withBaseDev b p s dev, m⟩) isSnap (cache (withBaseDev b p s dev)) method
      (x := wakeUpProcess)
      (Q := fun l => ∃ q, l.dev = { withParts env isSnap (cache (withBaseDev b p s dev)) q (withBaseDev b p s dev) with
        cowThread := .running }) hm fun l q h =>
          wp_weaken (wakeWorker_wp h) (fun _ _ h => ⟨q, h⟩) fun _ _ h => h.elim
    rw [wp_bind, wp_get]
    apply wp_weaken hparts
    · rintro _ l₁ ⟨q, h₁⟩
      have ht₁ : l₁.dev.tracingOps = none := by
        rw [h₁]
        cases isSnap <;> exact ht
      rw [upd_put]
      apply wp_weaken (setupTracing_wp hs hoff ht₁)
      · rintro _ d₂ ⟨c, o, t, ops, k, rfl, hc, hatt⟩
        have hcb : c = b := by
          rw [h₁] at hc
          cases isSnap <;> exact (Option.some.inj hc).symm
        rw [h₁]
        exact ⟨b, p, s, q, o, t, ops, k, rfl, hb, hcb ▸ hatt⟩
      · rintro c d₂ ⟨ops, k, rfl, hops⟩
        exact ⟨_, ops, k, .inr rfl, rfl, rfl, hops⟩
    · intro c l₁ h₁
      exact ⟨l₁.dev, d.ops, l₁.clock, .inl upd_put, h₁.origOps.trans ho, h₁.tracingOps.trans ht, fun _ => rfl⟩
  · rintro c d₁ ⟨m, rfl⟩
    exact ⟨_, d.ops, m, .inl upd_upd, ho, ht, fun _ => rfl⟩

theorem tracerSetupActiveSnap_wp {path : Path} {cacheSize : Nat} (hs : Sound env d) (hoff : Off a d)
    (hd : d.devs a = some .zero) : wp (tracerSetupActiveSnap env a minor path cacheSize) d
      (fun _ d' => ∃ s b p q o t ops n, d' = placed d a (activeSnap env minor s b cacheSize (some p) q o t) minor ops n ∧
        Untraced d.row b ∧ Attached env d.row d.ops b o t ops)
      (Fails fun _ d' => ∃ dev ops n, d' = recalculated env (upd d a dev ops n) ∧ (Freezes env → ops = d.ops)) := by
  simp only [tracerSetupActiveSnap, wp_bind]
  rw [wp_onDev hd, setMode, wp_modifyDev, put_upd, wp_onCode]
  have hsetup := setupDevice_wp (n := d.clock) { SnapDevice.zero with snapshot := true, active := true } minor true
    (fun _ => cacheSize) .init path (by decide) hs hoff rfl rfl
  apply wp_weaken hsetup
  · rintro _ d₁ ⟨b, p, s, q, o, t, ops, k, rfl, hb, hatt⟩
    exact ⟨s, b, p, q, o, t, ops, k, rfl, hb, hatt⟩
  · rintro c d₁ ⟨dev', ops, k, hd₁, ho, -, hops⟩
    apply wp_weaken (destroyFailed_wp hoff hd₁ ho)
    · rintro _ _ ⟨f, ignored, n, h⟩
      exact ⟨_, ops, n, h, hops⟩
    · exact fun _ _ h => h.elim

theorem tracerSetupTracingUnverified_wp (ht : dev.tracingOps = none) :
    wp (tracerSetupTracingUnverified a minor) (upd d a dev d.ops n)
      (fun _ d' => d' = placed d a { dev with tracingOps := none, origOps := none, minor := minor } minor d.ops n)
      (Fails fun _ _ => False) := by
  simp only [tracerSetupTracingUnverified, wp_bind]
  apply wp_weaken (freeMrfAndOps_wp upd_devs)
  · rintro _ d₁ rfl
    simp only [minorRangeInclude, wp_modify]
    refine (wp_onDev (?_ : _ = some { dev with tracingOps := none, origOps := none })).mpr ?_
    · exact Function.update_self ..
    · rw [wp_modifyDev, ht]
      simp only [placed, upd, DriverState.put, Function.update_idem]
      rfl
  · exact fun _ _ h => h

theorem tracerSetupUnverified_wp {path cowPath : Path} {cacheSize : Nat} {isSnap : Bool} (hoff : Off a d)
    (ho : dev.origOps = none) (ht : dev.tracingOps = none) :
    wp (tracerSetupUnverified env a minor path cowPath cacheSize isSnap) (upd d a dev d.ops n)
      (fun _ d' => ∃ n, d' = placed d a { dev with
        snapshot := isSnap
        active := false
        unverified := true
        cacheSize := cacheSize
        bdevPath := some path
        cowPath := some cowPath
        tracingOps := none
        origOps := none
        minor := minor } minor d.ops n)
      (Fails fun _ d' => ∃ dev n, d' = recalculated env (upd d a dev d.ops n)) := by
  have hdestroy : ∀ (dev' : SnapDevice) (n : Nat), dev'.origOps = none →
      wp (tracerDestroy env a) (upd d a dev' d.ops n)
        (fun _ d' => ∃ dev n, d' = recalculated env (upd d a dev d.ops n))
        (Fails fun _ d' => ∃ dev n, d' = recalculated env (upd d a dev d.ops n)) := by
    intro dev' n ho'
    apply wp_weaken (destroyFailed_wp hoff (.inl rfl) ho')
    · exact fun _ _ ⟨f, ignored, n, h⟩ => ⟨_, n, h⟩
    · exact fun _ _ h => h.elim
  simp only [tracerSetupUnverified, wp_bind]
  rw [wp_onDev upd_devs, setMode, wp_modifyDev, upd_put, wp_onDev upd_devs, wp_modifyDev, upd_put, wp_onCode]
  simp only [wp_bind]
  apply wp_check
  · rw [upd_atCall, wp_onDev upd_devs, wp_modifyDev, upd_put]
    apply wp_check
    · rw [upd_atCall, wp_onDev upd_devs, wp_modifyDev, upd_put]
      apply wp_weaken (tracerSetupTracingUnverified_wp (by exact ht))
      · rintro _ d' rfl
        exact ⟨_, rfl⟩
      · exact fun _ _ h => h.elim
    · rw [upd_atCall]
      exact hdestroy _ _ ho
  · rw [upd_atCall]
    exact hdestroy _ _ ho

end ElastioSnap.Driver.Setups
