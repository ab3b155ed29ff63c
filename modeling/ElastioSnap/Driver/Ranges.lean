import ElastioSnap.Driver.Minors

namespace ElastioSnap.Driver.Ranges

open Function (update)
open Lib.Outcome Lib.Runs State Setup Events Component Rows Tracing Effects Walk Setups Ioctls Transitions Mounts Steps
open Borrowed Parts Minors
open Cow.Manager (Errno Err)

variable {env : Env} {native : Nat → Nat} {d d' : DriverState} {a b i k n old minor : Nat} {dev : SnapDevice} {ops : OpsState}
  {event : Event}

/-- The table, and the range of its minors. -/
def tablePart (d : DriverState) : (Nat → Option Nat) × Nat × Nat := (d.snapDevices, d.lowestMinor, d.highestMinor)

theorem tight_congr (ht : Tight env d) (h : tablePart d' = tablePart d) : Tight env d' := by
  obtain ⟨htable, hrange⟩ := Prod.mk.inj h
  obtain ⟨hlow, hhigh⟩ := Prod.mk.inj hrange
  refine ⟨?_, ?_⟩
  · rw [hlow, ← ht.1]
    simp only [recalculated, htable]
  · rw [hhigh, ← ht.2]
    simp only [recalculated, htable]

theorem tight_recalculated : Tight env (recalculated env d) := ⟨rfl, rfl⟩

theorem le_foldl_min_iff {is : List Nat} {x m : Nat} : m ≤ is.foldl min x ↔ m ≤ x ∧ ∀ i ∈ is, m ≤ i := by
  induction is generalizing x with
  | nil => simp
  | cons j is ih =>
      rw [List.foldl_cons, ih, le_min_iff, List.forall_mem_cons, and_assoc]

theorem foldl_max_le_iff {is : List Nat} {x m : Nat} : is.foldl max x ≤ m ↔ x ≤ m ∧ ∀ i ∈ is, i ≤ m := by
  induction is generalizing x with
  | nil => simp
  | cons j is ih =>
      rw [List.foldl_cons, ih, max_le_iff, List.forall_mem_cons, and_assoc]

/-- The minors of the devices in the table. -/
def used (env : Env) (table : Nat → Option Nat) : List Nat := (List.range env.maxSnapDevices).filter fun i => (table i).isSome

theorem mem_used {table : Nat → Option Nat} : i ∈ used env table ↔ i < env.maxSnapDevices ∧ (table i).isSome = true := by
  rw [used, List.mem_filter, List.mem_range]

theorem tight_iff : Tight env d ↔
    (used env d.snapDevices).foldl min (env.maxSnapDevices - 1) = d.lowestMinor ∧
      (used env d.snapDevices).foldl max 0 = d.highestMinor := Iff.rfl

theorem mem_used_update {table : Nat → Option Nat} (hm : minor < env.maxSnapDevices) :
    i ∈ used env (update table minor (some a)) ↔ i = minor ∨ i ∈ used env table := by
  rw [mem_used, mem_used]
  by_cases hi : i = minor
  · subst hi
    rw [Function.update_self]
    exact iff_of_true ⟨hm, rfl⟩ (.inl rfl)
  · rw [Function.update_of_ne hi, or_iff_right hi]

/-- The minor of a device that enters the table enters its range. -/
theorem tight_placed (ht : Tight env d) (hm : minor < env.maxSnapDevices) : Tight env (placed d a dev minor ops n) := by
  obtain ⟨hlow, hhigh⟩ := tight_iff.mp ht
  refine tight_iff.mpr ⟨?_, ?_⟩
  · change _ = min d.lowestMinor minor
    rw [← hlow]
    refine eq_of_forall_le_iff fun m => ?_
    rw [le_min_iff, le_foldl_min_iff, le_foldl_min_iff]
    constructor
    · rintro ⟨hx, h⟩
      exact ⟨⟨hx, fun i hi => h i ((mem_used_update hm).mpr (.inr hi))⟩, h minor ((mem_used_update hm).mpr (.inl rfl))⟩
    · rintro ⟨⟨hx, h⟩, hminor⟩
      refine ⟨hx, fun i hi => ?_⟩
      rcases (mem_used_update hm).mp hi with rfl | hi
      · exact hminor
      · exact h i hi
  · change _ = max d.highestMinor minor
    rw [← hhigh]
    refine eq_of_forall_ge_iff fun m => ?_
    rw [max_le_iff, foldl_max_le_iff, foldl_max_le_iff]
    constructor
    · rintro ⟨hx, h⟩
      exact ⟨⟨hx, fun i hi => h i ((mem_used_update hm).mpr (.inr hi))⟩, h minor ((mem_used_update hm).mpr (.inl rfl))⟩
    · rintro ⟨⟨hx, h⟩, hminor⟩
      refine ⟨hx, fun i hi => ?_⟩
      rcases (mem_used_update hm).mp hi with rfl | hi
      · exact hminor
      · exact h i hi

/-- After a computation, and where it fails with a code, the range is that of the table. -/
def Tightens {α : Type} (env : Env) (x : DriverM α) (d : DriverState) : Prop :=
  wp x d (fun _ d' => Tight env d') (Fails fun _ d' => Tight env d')

theorem tightens_of {α : Type} {x : DriverM α} (hx : Preserves tablePart x) (ht : Tight env d) : Tightens env x d := by
  refine wp_mono (hx d) (fun _ _ h => tight_congr ht h) fun e d' h => ?_
  cases e with
  | code c => exact tight_congr ht h
  | oops => trivial

/-- What is done afterwards does not touch the table. -/
theorem Tightens.rest {α β : Type} {x : DriverM α} {f : α → DriverM β} (hx : Tightens env x d)
    (hf : ∀ r, Preserves tablePart (f r)) : Tightens env (x >>= f) d :=
  wp_bind.mpr (wp_mono hx (fun r _ ht => tightens_of (hf r) ht) fun _ _ h => h)

theorem part_still {α : Type} {x : DriverM α} (hx : Preserves still x) : Preserves tablePart x := hx.comp tablePart

theorem part_onDev {α : Type} {x : DevM α} : Preserves tablePart (onDev a x) := by
  intro d
  unfold wp onDev
  cases d.devs a with
  | none => rfl
  | some dev =>
      dsimp only
      cases x ⟨dev, d.clock⟩ <;> rfl

theorem part_kfree : Preserves tablePart (kfree a) := fun _ => rfl

theorem part_snapToIncCommit : Preserves tablePart (snapToIncCommit env old a) := by
  refine part_onDev.bind fun _ => (part_still still_getDev).bind fun oldDev => part_onDev.bind fun _ => ?_
  cases oldDev.failCode with
  | some e => exact part_onDev.bind fun _ => part_onDev.bind fun _ => part_kfree.bind fun _ => preserves_throw
  | none => exact part_onDev.bind fun _ => part_onDev.bind fun _ => part_kfree

theorem part_incToSnapCommit : Preserves tablePart (incToSnapCommit env old a) :=
  part_onDev.bind fun _ => part_onDev.bind fun _ => part_onDev.bind fun _ => part_kfree

/-- A device outside the table, which may be put into it. -/
structure Outside (env : Env) (a : Nat) (d : DriverState) : Prop where
  off : Off a d
  range : ∀ {i c : Nat}, d.snapDevices i = some c → d.lowestMinor ≤ i ∧ i ≤ d.highestMinor
  tight : Tight env d
  bounded : Bounded env d
  bare : ∃ dev, d.devs a = some dev ∧ dev.tracingOps = none

theorem outside_allocated (hs : Sound env d) (ht : Tight env d) (hb : Bounded env d) (h0 : 0 < env.maxSnapDevices) :
    Outside env d.nextDev (allocated d n) where
  off := off_allocated hs
  range h := hs.range h
  tight := tight_congr ht rfl
  bounded := bounded_update hb fun _ hx => Option.some.inj hx ▸ h0
  bare := ⟨.zero, Function.update_self .., rfl⟩

/-- The new device is worked on. -/
theorem Outside.onDev {α β : Type} {x : DevM α} {f : α → DriverM β} {Q : β → DriverState → Prop} {F : Errno → DriverState → Prop}
    (h : Outside env a d) (hx : Relates Stays x) (hf : ∀ r d', Outside env a d' → wp (f r) d' Q (Fails F))
    (hF : ∀ e d', Tight env d' → F e d') : wp (onDev a x >>= f) d Q (Fails F) := by
  obtain ⟨dev, hd, hnone⟩ := h.bare
  rw [wp_bind, wp_onDev hd]
  refine wp_mono (hx ⟨dev, d.clock⟩) (fun r l hl => ?_) fun e l _ => ?_
  · have hseat : seat l.dev = seat dev := hl
    refine hf r _ ⟨h.off, h.range, tight_congr h.tight rfl, ?_, l.dev, put_devs, (Prod.mk.inj hseat).2.trans hnone⟩
    refine bounded_update h.bounded fun y hy => Option.some.inj hy ▸ ?_
    rw [(Prod.mk.inj hseat).1]
    exact h.bounded a dev hd
  · cases e with
    | code c => exact hF c _ (tight_congr h.tight rfl)
    | oops => trivial

theorem Outside.setupTracing (h : Outside env a d) (hm : minor < env.maxSnapDevices) :
    Tightens env (tracerSetupTracing env a minor) d := by
  obtain ⟨dev, hd, hnone⟩ := h.bare
  apply wp_weaken (tracerSetupTracing_wp h.off hd hnone h.range)
  · rintro _ _ ⟨b, o, t, ops, n, rfl, -⟩
    exact tight_placed h.tight hm
  · rintro _ _ ⟨ops, n, rfl, -⟩
    exact tight_recalculated

/-- What is called off afterwards is done outside the table. -/
theorem tightens_onCode {x g : DriverM Unit} (hx : Tightens env x d) (hg : Preserves tablePart g) :
    Tightens env (onCode x g) d := by
  refine wp_onCode.mpr (wp_mono hx (fun _ _ h => h) fun e d' h => ?_)
  cases e with
  | oops => trivial
  | code c => exact wp_weaken (tightens_of hg h) (fun _ _ h => h) fun _ _ h => h

theorem tightens_alloc {β : Type} {f : Nat → DriverM β} (hs : Sound env d) (ht : Tight env d) (hb : Bounded env d)
    (h0 : 0 < env.maxSnapDevices) (hf : ∀ n, Outside env d.nextDev (allocated d n) → Tightens env (f d.nextDev) (allocated d n)) :
    Tightens env (tracerAlloc env >>= f) d := by
  rw [Tightens, wp_bind]
  apply wp_weaken tracerAlloc_wp
  · rintro _ _ ⟨rfl, n, rfl⟩
    exact hf n (outside_allocated hs ht hb h0)
  · rintro c _ ⟨n, rfl⟩
    exact tight_congr ht rfl

theorem tightens_snapToInc (hs : Sound env d) (ht : Tight env d) (hb : Bounded env d) (h0 : 0 < env.maxSnapDevices) :
    Tightens env (tracerActiveSnapToInc env old) d := by
  rw [tracerActiveSnapToInc_eq]
  refine Tightens.rest ?_ fun _ => part_snapToIncCommit
  refine tightens_alloc (f := fun a => _) hs ht hb h0 fun n h => ?_
  refine h.onDev stays_setMode (fun _ d₁ h₁ => ?_) fun _ _ h => h
  rw [wp_bind, wp_getDev]
  intro oldDev hold
  refine h₁.onDev ?_ (fun _ d₂ h₂ => ?_) fun _ _ h => h
  · exact (stays_modifyDev fun _ => by rfl).bind fun _ => (stays_modifyDev fun _ => by rfl).bind fun _ => (stays_of meek_copyCow)
  · refine Tightens.rest (tightens_onCode ?_ (part_onDev.bind fun _ => part_kfree)) fun _ => preserves_pure
    refine h₂.onDev (stays_of meek_setupCowThread) (fun _ d₃ h₃ => ?_) fun _ _ h => h
    exact h₃.setupTracing (h₁.bounded old oldDev hold)

theorem tightens_incToSnap (hs : Sound env d) (ht : Tight env d) (hb : Bounded env d) (h0 : 0 < env.maxSnapDevices) :
    Tightens env (tracerActiveIncToSnap env old) d := by
  rw [tracerActiveIncToSnap_eq]
  refine Tightens.rest ?_ fun _ => part_incToSnapCommit
  refine tightens_alloc (f := fun a => _) hs ht hb h0 fun n h => ?_
  refine h.onDev stays_setMode (fun _ d₁ h₁ => ?_) fun _ _ h => h
  rw [wp_bind, wp_getDev]
  intro oldDev hold
  refine h₁.onDev (stays_modifyDev fun _ => by rfl) (fun _ d₂ h₂ => ?_) fun _ _ h => h
  refine Tightens.rest (tightens_onCode ?_ (part_onDev.bind fun _ => part_kfree)) fun _ => preserves_pure
  cases oldDev.cow.isNone with
  | true => trivial
  | false =>
      refine h₂.onDev ?_ (fun _ d₃ h₃ => h₃.setupTracing (h₁.bounded old oldDev hold)) fun _ _ h => h
      exact relates_get.bind fun l => (stays_of meek_setupCow).bind fun _ => (stays_of meek_setupCowPath).bind fun _ =>
        (stays_of meek_setupSnap).bind fun _ => (stays_of meek_setupCowThread)

theorem tightens_setup {path cowPath : Path} {cacheSize : Nat} {isSnap isReload : Bool} (hs : Sound env d) (ht : Tight env d) :
    Tightens env (ioctlSetup env minor path cowPath cacheSize isSnap isReload) d := by
  rw [Tightens]
  simp only [ioctlSetup, wp_bind]
  apply wp_weaken verifyMinorAvailable_wp
  · rintro _ d₁ ⟨rfl, hmax, -⟩
    simp only [verifyBdevWritable, wp_bind, wp_call]
    cases env.blkdevGetByPath d₁.clock path with
    | error e => exact tight_congr ht rfl
    | ok c =>
        simp only [wp_pure]
        split
        next => exact tight_congr ht rfl
        next =>
          simp only [wp_bind]
          apply wp_weaken (tracerAlloc_wp (d := d₁.atCall (d₁.clock + 1)))
          · rintro a d₂ ⟨rfl, n, rfl⟩
            change Tightens env _ (allocated d₁ n)
            have hs₁ : Sound env (allocated d₁ n) := sound_allocated hs
            have ht₁ : Tight env (allocated d₁ n) := tight_congr ht rfl
            have hoff : Off d₁.nextDev (allocated d₁ n) := off_allocated hs
            have hzero : (allocated d₁ n).devs d₁.nextDev = some .zero := Function.update_self ..
            have hunverified : ∀ {isSnap : Bool}, Tightens env (tracerSetupUnverified env d₁.nextDev minor path cowPath
                cacheSize isSnap) (allocated d₁ n) := by
              intro isSnap
              rw [Tightens, ← upd_self hzero]
              apply wp_weaken (tracerSetupUnverified_wp hoff rfl rfl)
              · rintro _ _ ⟨k, rfl⟩
                exact tight_placed ht₁ hmax
              · rintro _ _ ⟨dev, k, rfl⟩
                exact tight_recalculated
            refine tightens_onCode ?_ part_kfree
            cases isSnap with
            | true =>
                cases env.writable d₁.clock c with
                | true =>
                    apply wp_weaken (tracerSetupActiveSnap_wp hs₁ hoff hzero)
                    · rintro _ _ ⟨s, b, p, q, o, t, ops, k, rfl, -⟩
                      exact tight_placed ht₁ hmax
                    · rintro _ _ ⟨dev, ops, k, rfl, -⟩
                      exact tight_recalculated
                | false => exact hunverified
            | false =>
                cases env.writable d₁.clock c with
                | true => exact ht₁
                | false => exact hunverified
          · rintro c d₂ ⟨n, rfl⟩
            exact tight_congr ht rfl
  · rintro _ _ rfl
    exact ht

theorem tightens_inUse {α : Type} {f : Nat → DriverM α} (ht : Tight env d)
    (hf : ∀ a n, minor < env.maxSnapDevices → d.snapDevices minor = some a → Tightens env (f a) (d.atCall n)) :
    Tightens env (verifyMinorInUseNotBusy env minor >>= f) d := by
  rw [Tightens, wp_bind]
  apply wp_weaken (verifyMinorInUseNotBusy_wp (d := d))
  · rintro a _ ⟨n, rfl, -, hmax, hi⟩
    exact hf a n hmax hi
  · rintro _ _ ⟨n, rfl⟩
    exact tight_congr ht rfl

theorem tightens_destroyTracing (hs : Sound env d) (hi : d.snapDevices minor = some a) :
    Tightens env (tracerDestroyTracing env a) d := by
  cases hd : d.devs a with
  | none =>
      rw [Tightens]
      simp only [tracerDestroyTracing, wp_bind, wp_getDev]
      intro dev hdev
      cases hd.symm.trans hdev
  | some dev =>
      have hmin : dev.minor = minor := hs.minor (row_eq_some.mpr ⟨a, hi, hd⟩)
      cases ho : dev.origOps with
      | none =>
          apply wp_weaken (tracerDestroyTracing_plain_wp hd ho)
          · rintro _ _ rfl
            exact tight_recalculated
          · exact fun _ _ h => h.elim
      | some o =>
          apply wp_weaken (tracerDestroyTracing_hooked_wp hs hd (by rw [hmin]; exact hi) (by rw [ho]; rfl))
          · rintro _ _ ⟨b, dev', table, ops, n, rfl, -⟩
            exact tight_recalculated
          · exact fun _ _ h => h.elim

theorem tightens_ioctlDestroy (hs : Sound env d) (ht : Tight env d) : Tightens env (ioctlDestroy env minor) d := by
  refine tightens_inUse ht fun a n _ hi => ?_
  have hdestroy : Tightens env (tracerDestroy env a) (d.atCall n) :=
    Tightens.rest (tightens_destroyTracing (sound_atCall hs) hi) fun _ => part_onDev
  exact hdestroy.rest fun _ => part_kfree

theorem tightens_transitionInc (hs : Sound env d) (ht : Tight env d) (hb : Bounded env d) :
    Tightens env (ioctlTransitionInc env minor) d := by
  refine tightens_inUse ht fun a n hmax _ => ?_
  have hrest : Tightens env (tracerActiveSnapToInc env a) (d.atCall n) :=
    tightens_snapToInc (sound_atCall hs) (tight_congr ht rfl) hb (Nat.lt_of_le_of_lt (Nat.zero_le _) hmax)
  rw [Tightens, wp_bind, wp_getDev]
  intro dev _
  cases dev.failCode with
  | some e => exact tight_congr ht rfl
  | none =>
      dsimp only
      rw [wp_ite]
      split
      · exact tight_congr ht rfl
      · exact hrest

theorem tightens_transitionSnap (hs : Sound env d) (ht : Tight env d) (hb : Bounded env d) :
    Tightens env (ioctlTransitionSnap env minor) d := by
  refine tightens_inUse ht fun a n hmax _ => ?_
  have hrest : Tightens env (tracerActiveIncToSnap env a) (d.atCall n) :=
    tightens_incToSnap (sound_atCall hs) (tight_congr ht rfl) hb (Nat.lt_of_le_of_lt (Nat.zero_le _) hmax)
  rw [Tightens, wp_bind, wp_getDev]
  intro dev _
  rw [wp_ite]
  split
  · exact tight_congr ht rfl
  · rw [wp_ite]
    split
    · exact tight_congr ht rfl
    · exact hrest

theorem part_reconfigure {cacheSize : Nat} : Preserves tablePart (ioctlReconfigure env minor cacheSize) := by
  have huse : Preserves tablePart (verifyMinorInUseNotBusy env minor) := by
    refine Preserves.ite preserves_throw (preserves_get.bind fun d => ?_)
    cases d.snapDevices minor with
    | none => exact preserves_throw
    | some a => exact (part_still still_call).bind fun n => Preserves.ite preserves_throw preserves_pure
  refine huse.bind fun a => (part_still still_getDev).bind fun dev => Preserves.ite ?_ part_onDev
  exact preserves_throw.bind fun _ => part_onDev

/-- A device that is verified leaves the table, and is put into it again unless it is lost. -/
theorem tightens_verify {isSnap : Bool} (hs : Sound env d) (hi : d.snapDevices i = some a) (hd : d.devs a = some dev)
    (hu : dev.unverified = true) : Tightens env (tracerUnverifiedToActive env isSnap a) d := by
  have hrow : d.row i = some dev := row_eq_some.mpr ⟨a, hi, hd⟩
  have hmin : dev.minor = i := hs.minor hrow
  have hmax : i < env.maxSnapDevices := (hs.used hi).1
  obtain ⟨-, ho, ht⟩ := hs.plain hrow hu
  rw [Tightens]
  simp only [tracerUnverifiedToActive, wp_bind, wp_getDev]
  intro dev₀ hdev₀
  obtain rfl : dev = dev₀ := Option.some.inj (hd.symm.trans hdev₀)
  cases dev.bdevPath with
  | none => trivial
  | some bdevPath =>
    cases dev.cowPath with
    | none => trivial
    | some relPath =>
        simp only [wp_bind]
        apply wp_weaken (tracerDestroyTracing_plain_wp hd ho)
        · rintro _ d₁ rfl
          rw [hmin, if_pos hi]
          change wp _ (vacated env d a i { dev with minor := 0 }) _ _
          obtain ⟨he, -, hoff⟩ := vacated_spec hs hi
          have htight : Tight env (vacated env d a i { dev with minor := 0 }) := tight_recalculated
          refine (wp_onDev (?_ : _ = some { dev with minor := 0 })).mpr ?_
          · exact Function.update_self ..
          rw [wp_modifyDev, put_upd, wp_attempt]
          dsimp only
          have hsetup := setupDevice_wp (n := (vacated env d a i { dev with minor := 0 }).clock)
            { dev with minor := 0, active := true, unverified := false, bdevPath := none, cowPath := none } i
            isSnap SnapDevice.cacheSize .reload bdevPath (by decide) he hoff ho ht
          apply wp_weaken hsetup
          · rintro _ _ ⟨c, p, s, q, o, t, ops, k, rfl, -⟩
            exact tight_placed htight hmax
          · rintro c d₂ ⟨cur, ops, k, hd₂, ho₂, ht₂, -⟩
            simp only [wp_bind]
            apply wp_weaken (destroyFailed_wp hoff hd₂ ho₂)
            · rintro _ _ ⟨f, ignored, m, rfl⟩
              generalize hg : recalculated env (upd (vacated env d a i _) a (stripped cur f ignored) ops m) = g
              have htight' : Tight env g := hg ▸ tight_recalculated
              have hself : upd g a (stripped cur f ignored) g.ops g.clock = g :=
                upd_self (by rw [← hg]; exact Function.update_self ..)
              have hgoff : Off a g := by
                rw [← hg]
                exact hoff
              rw [wp_attempt, ← hself]
              have ho₁ : (stripped cur f ignored).origOps = none := rfl
              have ht₁ : (stripped cur f ignored).tracingOps = none := ht₂
              apply wp_weaken (tracerSetupUnverified_wp hgoff ho₁ ht₁)
              · rintro _ _ ⟨m, rfl⟩
                exact tightens_of part_onDev (tight_placed htight' hmax)
              · rintro _ _ ⟨X, m, rfl⟩
                exact tightens_of part_onDev tight_recalculated
            · exact fun _ _ h => h.elim
        · exact fun _ _ h => h.elim

theorem tightens_autoTransition (hs : Sound env d) (ht : Tight env d) (hi : d.snapDevices i = some a) :
    Tightens env (autoTransitionActive env a) d := by
  rw [Tightens, autoTransitionActive, wp_bind, wp_getDev]
  intro dev hd
  rw [wp_ite]
  split
  next hu =>
    have hverify : ∀ {isSnap : Bool}, Tightens env (tracerUnverifiedToActive env isSnap a) d := tightens_verify hs hi hd hu
    rw [wp_ite]
    split
    · exact hverify
    · exact hverify
  next => exact tightens_of part_onDev ht

theorem tightens_umount {umounted : Bool} (hs : Sound env d) (ht : Tight env d) :
    Tightens env (umountHook env b umounted) d := by
  rw [Tightens]
  simp only [umountHook, handleBdevMountNowrite, wp_bind]
  let R : Nat → SnapDevice → Bool → Prop := fun _ dev r => r = true → dev.active = true
  have hp : ∀ (a : Nat) dev n,
      wp (pure (dev.active && dev.failCode.isNone && dev.baseDev == some b) : DriverM Bool) (d.atCall n)
        (fun r d' => (∃ m, n = m ∧ d' = d.atCall m) ∧ R a dev r) (Fails fun _ _ => False) := by
    intro a dev n
    refine ⟨⟨n, rfl, rfl⟩, fun h => ?_⟩
    rw [Bool.and_eq_true, Bool.and_eq_true] at h
    exact h.1.1
  apply wp_weaken (tracerForEach_wp (fun _ => rfl) (fun h h' => h.trans h') hp)
  · rintro r d₁ ⟨⟨m, rfl, rfl⟩, hr⟩
    cases r with
    | none => exact tight_congr ht rfl
    | some a =>
        obtain ⟨i, dev, hi, hd, hact⟩ := hr
        have hv : dev.unverified = false := by
          by_contra hv
          have hoff := (hs.plain (row_eq_some.mpr ⟨a, hi, hd⟩) (Bool.eq_true_of_not_eq_false hv)).1
          rw [hact rfl] at hoff
          cases hoff
        simp only [wp_bind, wp_pure]
        apply wp_weaken (tracerActiveToDormant_wp (d := d.atCall d.clock) hd)
        · rintro _ _ ⟨l₁, rfl, hdorm⟩
          apply wp_weaken (postUmountCheck_wp put_devs ((samePlace_dormant hdorm).unverified.trans hv))
          · rintro _ _ ⟨l₂, rfl, -⟩
            exact tight_congr ht rfl
          · exact fun _ _ h => h.elim
        · exact fun _ _ h => h.elim
  · exact fun _ _ h => h.elim

theorem tightens_mount {mounted : Bool} (hs : Sound env d) (ht : Tight env d) : Tightens env (mountHook env b mounted) d := by
  cases mounted with
  | false => exact ht
  | true =>
      rw [Tightens]
      simp only [mountHook, if_true, handleBdevMountWritable, wp_bind]
      apply wp_weaken (tracerForEach_wp (T := fun _ _ => True) (fun _ => trivial) (fun _ _ => trivial)
        fun a dev n => mountTest_wp env b d a dev n)
      · rintro r d₁ ⟨⟨m, -, rfl⟩, hr⟩
        cases r with
        | none => exact tight_congr ht rfl
        | some a =>
            obtain ⟨i, dev, hi, -⟩ := hr
            exact tightens_autoTransition (sound_atCall hs) (tight_congr ht rfl) hi
      · exact fun _ _ h => h.elim

theorem part_found {m : Nat} {x : DevM Unit} : Preserves tablePart (do
    match (← get).snapDevices m with
    | none => pure ()
    | some a => onDev a x) := by
  refine preserves_get.bind fun d => ?_
  cases d.snapDevices m with
  | none => exact preserves_pure
  | some a => exact part_onDev

theorem tightens_exec (hs : Sound env d) (ht : Tight env d) (hb : Bounded env d) (event : Event) :
    Tightens env (exec env event) d := by
  cases event with
  | setupSnap m p q c => exact tightens_setup hs ht
  | reloadSnap m p q c => exact tightens_setup hs ht
  | reloadInc m p q c => exact tightens_setup hs ht
  | destroy m => exact tightens_ioctlDestroy hs ht
  | transitionInc m => exact tightens_transitionInc hs ht hb
  | transitionSnap m => exact tightens_transitionSnap hs ht hb
  | reconfigure m c => exact tightens_of part_reconfigure ht
  | umount b umounted => exact tightens_umount hs ht
  | mount b mounted => exact tightens_mount hs ht
  | failure m e => exact tightens_of part_found ht
  | notice m => exact tightens_of part_found ht

theorem step_tight (hs : Sound env d) (ht : Tight env d) (hb : Bounded env d) (h : step env d event = some d') :
    Tight env d' := by
  have hwp := tightens_exec hs ht hb event
  unfold Tightens wp at hwp
  rw [step] at h
  cases hexec : exec env event d with
  | ok _ d₁ =>
      rw [hexec] at h hwp
      cases h
      exact hwp
  | error e d₁ =>
      rw [hexec] at h hwp
      cases e with
      | code c =>
          cases h
          exact hwp
      | oops => cases h

theorem tight_start : Tight env (.start env native) := by
  have hnone : used env (DriverState.start env native).snapDevices = [] := by
    rw [used, List.filter_eq_nil_iff]
    exact fun _ _ h => by cases h
  rw [tight_iff, hnone]
  exact ⟨rfl, rfl⟩

/-- What the table is like in every state that a run of the module gets into. -/
structure Orderly (env : Env) (d : DriverState) : Prop where
  sound : Sound env d
  bounded : Bounded env d
  tight : Tight env d

theorem orderly_run {events : List Event} (h : run (step env) (.start env native) events = some d) : Orderly env d := by
  refine run_invariant (I := fun _ d => Orderly env d) ?_ ?_ h
  · exact ⟨sound_start, (fun _ _ hdev => by cases hdev), tight_start⟩
  · intro _ d event d' ho hs
    exact ⟨(step_passed ho.sound hs).sound, bounded_step ho.bounded hs, step_tight ho.sound ho.tight ho.bounded hs⟩

theorem foldl_min_mem (is : List Nat) (x : Nat) : is.foldl min x = x ∨ is.foldl min x ∈ is := by
  induction is generalizing x with
  | nil => exact .inl rfl
  | cons j is ih =>
      rw [List.foldl_cons]
      rcases ih (x := min x j) with h | h
      · rw [h]
        rcases min_choice x j with h' | h'
        · exact .inl h'
        · exact .inr (List.mem_cons.mpr (.inl h'))
      · exact .inr (List.mem_cons_of_mem j h)

theorem foldl_max_mem (is : List Nat) (x : Nat) : is.foldl max x = x ∨ is.foldl max x ∈ is := by
  induction is generalizing x with
  | nil => exact .inl rfl
  | cons j is ih =>
      rw [List.foldl_cons]
      rcases ih (x := max x j) with h | h
      · rw [h]
        rcases max_choice x j with h' | h'
        · exact .inl h'
        · exact .inr (List.mem_cons.mpr (.inl h'))
      · exact .inr (List.mem_cons_of_mem j h)

/-- The range of a table that has devices goes from the lowest of them to the highest. -/
theorem Orderly.range_used (ho : Orderly env d) (hi : d.snapDevices i = some a) :
    (d.snapDevices d.lowestMinor).isSome = true ∧ (d.snapDevices d.highestMinor).isSome = true := by
  obtain ⟨hlow, hhigh⟩ := tight_iff.mp ho.tight
  obtain ⟨hmax, hle, hge, -⟩ := ho.sound.used hi
  have hsome : (d.snapDevices i).isSome = true := by
    rw [hi]
    rfl
  constructor
  · rcases foldl_min_mem (used env d.snapDevices) (env.maxSnapDevices - 1) with h | h
    · rw [hlow] at h
      have heq : i = d.lowestMinor := by omega
      exact heq ▸ hsome
    · rw [hlow] at h
      exact (mem_used.mp h).2
  · rcases foldl_max_mem (used env d.snapDevices) 0 with h | h
    · rw [hhigh] at h
      have heq : i = d.highestMinor := by omega
      exact heq ▸ hsome
    · rw [hhigh] at h
      exact (mem_used.mp h).2

/-- The range of a table that has none goes from the last minor down to the first. -/
theorem Orderly.range_none (ho : Orderly env d) (hnone : ∀ i, d.snapDevices i = none) :
    d.lowestMinor = env.maxSnapDevices - 1 ∧ d.highestMinor = 0 := by
  obtain ⟨hlow, hhigh⟩ := tight_iff.mp ho.tight
  have hempty : used env d.snapDevices = [] := by
    rw [used, List.filter_eq_nil_iff]
    intro i _ h
    rw [hnone i] at h
    cases h
  rw [hempty] at hlow hhigh
  exact ⟨hlow.symm, hhigh.symm⟩

theorem Orderly.range_lt (ho : Orderly env d) (h0 : 0 < env.maxSnapDevices) :
    d.lowestMinor < env.maxSnapDevices ∧ d.highestMinor < env.maxSnapDevices := by
  obtain ⟨hlow, hhigh⟩ := tight_iff.mp ho.tight
  have hl : (used env d.snapDevices).foldl min (env.maxSnapDevices - 1) ≤ env.maxSnapDevices - 1 := foldl_min_le.1
  refine ⟨by omega, ?_⟩
  rcases foldl_max_mem (used env d.snapDevices) 0 with h | h
  · omega
  · rw [hhigh] at h
    exact (mem_used.mp h).1

end ElastioSnap.Driver.Ranges
