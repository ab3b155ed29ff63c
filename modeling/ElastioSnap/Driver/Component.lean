import ElastioSnap.Driver.Events

namespace ElastioSnap.Driver.Component

open Lib.Outcome State Setup Events
open Cow.Manager (Errno Err)

variable {env : Env} {l : Local}

def limits (c : CowState) : Nat × Nat := (c.totalSects, c.allowedSects)

theorem cowFreeMembers_limits (dev : SnapDevice) : (cowFreeMembers dev).cow.map limits = dev.cow.map limits := by
  cases h : dev.cow <;> simp [cowFreeMembers, h, limits]

/-- A device whose worker is gone. If the device is not failed now, it was not before, and the
manager is as it was. -/
structure Drained (dev dev' : SnapDevice) : Prop where
  eq : dev' = { dev with
    failCode := dev'.failCode
    cow := dev'.cow
    ignoreRequests := dev'.ignoreRequests
    cowThread := .absent }
  clean : dev'.failCode = none → dev.failCode = none ∧ dev'.cow = dev.cow
  limits : dev'.cow.map limits = dev.cow.map limits
  ignores : dev'.ignoreRequests = (dev.ignoreRequests || (decide (dev.cowThread ≠ .absent) && dev.queue))

theorem drainCowThread_wp : wp (drainCowThread env) l
    (fun _ l' => (l'.dev = { l.dev with failCode := l'.dev.failCode, cow := l'.dev.cow } ∧
      (l'.dev.failCode = none → l.dev.failCode = none ∧ l'.dev.cow = l.dev.cow) ∧
      l'.dev.cow.map limits = l.dev.cow.map limits) ∧ l'.clock = l.clock + 2)
    (Fails fun _ _ => False) := by
  have hlast : ∀ (dev : SnapDevice) (n : Nat), (dev = l.dev ∨
      ∃ e, dev = { l.dev with failCode := some e }) →
      let dev' := if dev.failCode.isSome && env.notices n then cowFreeMembers dev else dev
      dev' = { l.dev with failCode := dev'.failCode, cow := dev'.cow } ∧
      (dev'.failCode = none → l.dev.failCode = none ∧ dev'.cow = l.dev.cow) ∧
      dev'.cow.map limits = l.dev.cow.map limits := by
    intro dev n hdev
    dsimp only
    split
    next hn =>
      have hf : dev.failCode.isSome := by
        rw [Bool.and_eq_true] at hn
        exact hn.1
      rcases hdev with rfl | ⟨e, rfl⟩
      · refine ⟨rfl, fun h => ?_, cowFreeMembers_limits _⟩
        simp only [cowFreeMembers] at h
        rw [h] at hf
        cases hf
      · exact ⟨rfl, (fun h => by cases h), cowFreeMembers_limits _⟩
    next =>
      rcases hdev with rfl | ⟨e, rfl⟩
      · exact ⟨rfl, fun h => ⟨h, rfl⟩, rfl⟩
      · exact ⟨rfl, (fun h => by cases h), rfl⟩
  simp only [drainCowThread, wp_bind, wp_devCall]
  cases env.fault l.clock with
  | none => exact ⟨hlast _ _ (.inl rfl), rfl⟩
  | some e => exact ⟨hlast _ _ (.inr ⟨_, rfl⟩), rfl⟩

theorem tracerDestroyCowThread_wp : wp (tracerDestroyCowThread env) l
    (fun _ l' => Drained l.dev l'.dev ∧ l.clock ≤ l'.clock ∧ l'.clock ≤ l.clock + 2)
    (Fails fun _ _ => False) := by
  simp only [tracerDestroyCowThread, wp_bind, wp_get, wp_ite]
  split
  next hthread =>
    have hign : decide (l.dev.cowThread ≠ .absent) = true := decide_eq_true hthread
    simp only [stopRequestQueue, wp_modifyDev]
    split
    next =>
      apply wp_weaken drainCowThread_wp
      · rintro _ l₁ ⟨⟨heq, hclean, hlim⟩, hclock⟩
        replace hclock : l₁.clock = l.clock + 2 := hclock
        refine ⟨⟨?_, hclean, hlim, ?_⟩, by omega, by omega⟩
        · dsimp only at heq ⊢
          rw [heq]
        · dsimp only at heq ⊢
          rw [heq, hign, Bool.true_and]
      · exact fun _ _ h => h
    next =>
      refine ⟨⟨rfl, fun h => ⟨h, rfl⟩, rfl, ?_⟩, Nat.le_refl _, Nat.le_add_right _ 2⟩
      dsimp only
      rw [hign, Bool.true_and]
  next hthread =>
    have habs : l.dev.cowThread = .absent := not_not.mp hthread
    refine ⟨⟨?_, fun h => ⟨h, rfl⟩, rfl, ?_⟩, Nat.le_refl _, Nat.le_add_right _ 2⟩
    · rw [← habs]
    · simp [habs]

theorem tracerDestroyCow_free_wp : wp (tracerDestroyCow env .free) l
    (fun _ l' => l'.dev = { l.dev with cow := none, cacheSize := 0 }) (Fails fun _ _ => False) := by
  simp only [tracerDestroyCow, wp_bind, wp_attempt, wp_get]
  cases h : l.dev.cow with
  | none => simp [h.symm]
  | some c => simp [closeCow]

/-- The manager is closed, or it is given up and the device keeps it in that state. -/
theorem tracerDestroyCow_close_wp : wp (tracerDestroyCow env .syncAndClose) l
    (fun _ l' => l'.dev = { l.dev with cow := l.dev.cow.map fun c => { c with filp := false }, cacheSize := 0 })
    (Fails fun _ l' => l'.dev = { cowFreeMembers l.dev with cacheSize := 0 } ∧ env.fault l.clock ≠ none) := by
  simp only [tracerDestroyCow, wp_bind, wp_attempt, wp_get]
  cases h : l.dev.cow with
  | none => simp [h]
  | some c =>
      simp only [closeCow, wp_bind, wp_ite, wp_throw]
      split
      next => trivial
      next =>
        simp only [wp_pure, wp_onCode, wp_modifyDev]
        simp only [devTick, wp_bind, wp_devCall]
        cases hf : env.fault l.clock with
        | none => rfl
        | some e => exact ⟨rfl, fun h => by cases h⟩

theorem tracerDestroyCow_sync_wp : wp (tracerDestroyCow env .syncAndFree) l
    (fun _ l' => l'.dev = { l.dev with cow := none, cacheSize := 0 })
    (Fails fun _ l' => l'.dev = { l.dev with cow := none, cacheSize := 0 }) := by
  simp only [tracerDestroyCow, wp_bind, wp_attempt, wp_get]
  cases h : l.dev.cow with
  | none => simp [h.symm]
  | some c =>
      simp only [closeCow, wp_bind, wp_ite, wp_throw]
      split
      next => trivial
      next =>
        simp only [wp_pure, wp_onCode, wp_modifyDev]
        apply wp_devTick
        · rfl
        · exact fun _ => rfl

theorem tracerSetupCow_wp {size cacheSize : Nat} {method : OpenMethod} (hm : method ≠ .reopen) :
    wp (tracerSetupCow env size cacheSize method) l
      (fun _ l' => l'.dev = { l.dev with
        cacheSize := cacheOrDefault env cacheSize
        cow := some (openedCow env size (cacheOrDefault env cacheSize)) })
      (Fails fun _ l' => l'.dev = { l.dev with cow := none, cacheSize := 0 }) := by
  have hfree : ∀ {e : Errno} {l₁ : Local}, (∃ n, l₁.dev = { l.dev with cacheSize := n }) →
      wp (tracerDestroyCow env .free) l₁ (fun _ l' => l'.dev = { l.dev with cow := none, cacheSize := 0 })
        (Fails fun _ l' => l'.dev = { l.dev with cow := none, cacheSize := 0 }) := by
    rintro e l₁ ⟨n, hn⟩
    apply wp_weaken tracerDestroyCow_free_wp
    · intro _ l₂ h₂
      rw [h₂, hn]
    · exact fun _ _ h => h.elim
  rw [tracerSetupCow, wp_onCode]
  simp only [wp_bind, wp_ite, hm, if_false]
  split
  next =>
    apply wp_devTick
    · simp only [wp_modifyDev]
      apply wp_devTick
      · rfl
      · exact fun e => hfree (e := e) ⟨_, rfl⟩
    · exact fun e => hfree (e := e) ⟨_, rfl⟩
  next =>
    simp only [wp_modifyDev]
    apply wp_devTick
    · rfl
    · exact fun e => hfree (e := e) ⟨_, rfl⟩

theorem tracerSetupCow_reopen_wp {size cacheSize : Nat} :
    wp (tracerSetupCow env size cacheSize .reopen) l
      (fun _ l' => l'.dev = { l.dev with cow := l.dev.cow.map fun c => { c with filp := true } } ∧ l.dev.cow.isSome)
      (Fails fun _ l' => l'.dev = { l.dev with cow := l'.dev.cow } ∧ l'.dev.cow.map limits = l.dev.cow.map limits) := by
  rw [tracerSetupCow, wp_onCode]
  simp only [wp_bind, ne_eq, reduceCtorEq, not_false_eq_true, if_true, wp_pure]
  apply wp_devTick
  · simp only [reopenCow, wp_bind, wp_get]
    cases h : l.dev.cow with
    | none => trivial
    | some c =>
        simp only [wp_bind, wp_onCode, wp_modifyDev]
        apply wp_devTick
        · exact ⟨rfl, rfl⟩
        · exact fun e => ⟨rfl, rfl⟩
  · exact fun e => ⟨rfl, rfl⟩

theorem tracerSetupCowPath_wp : wp (tracerSetupCowPath env) l
    (fun _ l' => ∃ p, l'.dev = { l.dev with cowPath := some p })
    (Fails fun _ l' => l'.dev = { l.dev with cowPath := none }) := by
  simp only [tracerSetupCowPath, wp_onCode, wp_bind, wp_devCall]
  cases env.fault l.clock with
  | none => exact ⟨_, rfl⟩
  | some e => exact rfl

theorem tracerSetupSnap_wp : wp (tracerSetupSnap env) l
    (fun _ l' => l'.dev = { l.dev with gd := true, queue := true, mrfThread := true })
    (Fails fun _ l' => l'.dev = { l.dev with gd := false, queue := false, mrfThread := false }) := by
  simp only [tracerSetupSnap, wp_onCode, wp_bind, wp_modifyDev, tracerDestroySnap]
  apply wp_devTick
  · apply wp_devTick
    · apply wp_devTick
      · apply wp_devTick
        · rfl
        · exact fun _ => rfl
      · exact fun _ => rfl
    · exact fun _ => rfl
  · exact fun _ => rfl

theorem tracerSetupCowThread_wp : wp (tracerSetupCowThread env) l
    (fun _ l' => l'.dev = { l.dev with cowThread := .created }) (Fails fun _ l' => l'.dev = l.dev) := by
  simp only [tracerSetupCowThread, wp_bind, wp_modifyDev]
  apply wp_devTick
  · rfl
  · exact fun _ => rfl

theorem wakeUpProcess_wp : wp wakeUpProcess l
    (fun _ l' => l'.dev = { l.dev with cowThread := .running }) (Fails fun _ _ => False) := by
  simp only [wakeUpProcess, wp_bind, wp_get, wp_ite, wp_throw, wp_modifyDev]
  split <;> trivial

end ElastioSnap.Driver.Component
