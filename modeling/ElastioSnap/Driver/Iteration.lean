import ElastioSnap.Driver.Passes
import ElastioSnap.Driver.References

namespace ElastioSnap.Driver.Iteration

open Function (update)
open Lib.Outcome Lib.Runs Lib.Scan State Setup Events Rows Disks Tracing Walk Steps Borrowed Minors Parts Ranges Passes
open Cow.Manager (Errno Err)

variable {env : Env} {d d' : DriverState} {a i m : Nat} {dev : SnapDevice} {α : Type}

/-- Of the table only one slot was touched, which was cleared if at all, and of the devices only one. -/
structure Clears (m a : Nat) (d d' : DriverState) : Prop where
  table : d'.snapDevices = d.snapDevices ∨ d'.snapDevices = update d.snapDevices m none
  devs : ∀ c, c ≠ a → d'.devs c = d.devs c

instance : Std.Refl (Clears m a) := ⟨fun _ => ⟨.inl rfl, fun _ _ => rfl⟩⟩

instance : Trans (Clears m a) (Clears m a) (Clears m a) where
  trans := by
    intro d d₁ d₂ h h'
    refine ⟨?_, fun c hc => (h'.devs c hc).trans (h.devs c hc)⟩
    rcases h.table with ht | ht <;> rcases h'.table with ht' | ht' <;> rw [ht', ht]
    · exact .inl rfl
    · exact .inr rfl
    · exact .inr rfl
    · exact .inr (Function.update_idem ..)

theorem clears_of {x : DriverM α} (h : Preserves (fun d : DriverState => (d.snapDevices, d.devs)) x) : Relates (Clears m a) x :=
  h.relates fun _ _ heq => ⟨.inl (Prod.mk.inj heq).1, fun _ _ => by rw [(Prod.mk.inj heq).2]⟩

theorem clears_still {x : DriverM α} (h : Preserves still x) : Relates (Clears m a) x :=
  clears_of (h.comp fun d => (d.snapDevices, d.devs))

theorem clears_onDev {x : DevM α} : Relates (Clears m a) (onDev a x) := by
  intro d
  unfold wp onDev
  cases d.devs a with
  | none => exact Std.Refl.refl d
  | some dev =>
      dsimp only
      cases x ⟨dev, d.clock⟩ <;> exact ⟨.inl rfl, fun c hc => Function.update_of_ne hc ..⟩

theorem clears_slot : Relates (Clears m a) (modify fun d => { d with snapDevices := update d.snapDevices m none } : DriverM Unit) :=
  fun _ => ⟨.inr rfl, fun _ _ => rfl⟩

theorem clears_tracingOpsPut {t : Nat} : Relates (Clears m a) (tracingOpsPut t) := by
  refine clears_of fun d => ?_
  unfold wp tracingOpsPut
  cases d.ops.refs t <;> rfl

theorem clears_freeMrfAndOps : Relates (Clears m a) (freeMrfAndOps a) := by
  refine (clears_still still_getDev).bind fun dev => ?_
  cases dev.tracingOps with
  | none => exact clears_onDev
  | some t => exact clears_tracingOpsPut.bind fun _ => clears_onDev

theorem clears_transitionTracing {b : Nat} {ops : Option Ops} :
    Relates (Clears m a) (tracerTransitionTracing env a b ops m false) := by
  refine (clears_still still_call).bind fun n => ?_
  cases env.freeze n with
  | some e => exact relates_throw
  | none =>
      refine Relates.bind ?_ fun _ => clears_slot
      cases ops with
      | none => exact relates_pure
      | some o => exact clears_of fun _ => rfl

theorem still_shouldResetMrf : Preserves still (tracerShouldResetMrf env a) := by
  refine still_getDev.bind fun dev => still_getBdOps.bind fun ops => ?_
  refine Preserves.ite preserves_pure (preserves_get.bind fun d => Preserves.ite preserves_pure ?_)
  exact still_tracerOnOps.bind fun _ => preserves_pure

theorem clears_flush : Relates (Clears m a) (flushBioRequests env a) :=
  (relates_attempt clears_onDev).bind fun _ => clears_onDev.bind fun _ => clears_onDev

theorem fails_of {F : Errno → DriverState → Prop} (h : ∀ c, F c d) (e : Err) : Fails F e d := by
  cases e with
  | code c => exact h c
  | oops => trivial

/-- A device that is taken off its disk leaves its own slot. -/
theorem clears_work {dev : SnapDevice} : Relates (Clears dev.minor a) (do
    (if dev.origOps.isSome then do
      match dev.baseDev with
      | none => throw .oops
      | some b =>
          (if ← tracerShouldResetMrf env a then do
            if !dev.active then flushBioRequests env a
            let _ ← attempt (tracerTransitionTracing env a b dev.origOps dev.minor false)
          else do
            let _ ← attempt (tracerTransitionTracing env a b none dev.minor false))
          freeMrfAndOps a
    else modify fun d =>
      if d.snapDevices dev.minor = some a then { d with snapDevices := update d.snapDevices dev.minor none } else d)
    onDev a (modifyDev fun dev => { dev with minor := 0 }) : DriverM Unit) := by
  have htransition : ∀ {b : Nat} {ops : Option Ops},
      Relates (Clears dev.minor a) (do let _ ← attempt (tracerTransitionTracing env a b ops dev.minor false)) :=
    (relates_attempt clears_transitionTracing).bind fun _ => relates_pure
  refine Relates.bind (Relates.ite ?_ ?_) fun _ => clears_onDev
  · cases dev.baseDev with
    | none => exact relates_throw
    | some b =>
        refine (clears_still still_shouldResetMrf).bind fun r => Relates.bind (Relates.ite ?_ htransition)
          fun _ => clears_freeMrfAndOps
        exact Relates.ite (clears_flush.bind fun _ => htransition) htransition
  · refine relates_modify fun d => ?_
    split
    · exact ⟨.inr rfl, fun _ _ => rfl⟩
    · exact Std.Refl.refl d

/-- Then the range is a new one. -/
theorem destroyTracing_clears (hd : d.devs a = some dev) :
    wp (tracerDestroyTracing env a) d (fun _ d' => Clears dev.minor a d d' ∧ Tight env d') (Fails fun _ _ => True) := by
  rw [tracerDestroyTracing, wp_bind, wp_getDev]
  intro dev' hd'
  obtain rfl : dev = dev' := Option.some.inj (hd.symm.trans hd')
  have hwp := @clears_work env a dev d
  rw [wp_bind] at hwp
  rw [wp_bind]
  refine wp_mono hwp (fun _ d₁ h => ?_) fun e _ _ => fails_of (fun _ => trivial) e
  rw [wp_bind]
  refine wp_mono h (fun _ d₂ h₂ => ?_) fun e _ _ => fails_of (fun _ => trivial) e
  exact ⟨⟨h₂.table, h₂.devs⟩, tight_recalculated⟩

theorem destroy_clears (hd : d.devs a = some dev) :
    wp (tracerDestroy env a) d (fun _ d' => Clears dev.minor a d d' ∧ Tight env d') (Fails fun _ _ => True) := by
  rw [tracerDestroy, wp_bind]
  refine wp_mono (destroyTracing_clears hd) (fun _ d₁ h => ?_) fun _ _ h => h
  refine wp_mono (wp_and (clears_onDev (m := dev.minor) d₁) (part_onDev d₁)) ?_ fun e _ _ => fails_of (fun _ => trivial) e
  exact fun _ d₂ h₂ => ⟨Trans.trans h.1 h₂.1, tight_congr h.2 h₂.2⟩

/-- What is left of the table while the module is unloaded. -/
structure Leftover (env : Env) (d : DriverState) (i : Nat) (u : DriverState) : Prop where
  table : ∀ j, i ≤ j → u.snapDevices j = d.snapDevices j
  devs : ∀ j c, i ≤ j → d.snapDevices j = some c → u.devs c = d.devs c
  within : ∀ j, (u.snapDevices j).isSome = true → (d.snapDevices j).isSome = true
  tight : Tight env u

theorem Leftover.ahead {u : DriverState} (h : Leftover env d i u) (ho : Orderly env d) : Ahead d i u where
  table := h.table
  range := by
    intro j _ hj
    obtain ⟨a, ha⟩ := Option.isSome_iff_exists.mp hj
    obtain ⟨b, hb⟩ := Option.isSome_iff_exists.mp (h.within j hj)
    exact h.tight.2 ▸ (recalculated_range ha (ho.sound.used hb).1).2
  high := by
    rw [← h.tight.2, ← ho.tight.2]
    refine foldl_max_le_iff.mpr ⟨Nat.zero_le _, fun j hj => ?_⟩
    obtain ⟨hmax, hsome⟩ := mem_used.mp hj
    obtain ⟨b, hb⟩ := Option.isSome_iff_exists.mp (h.within j hsome)
    exact (recalculated_range hb hmax).2

/-- Where the module is unloaded, a device is destroyed behind the loop only. -/
theorem exit_invariant (ho : Orderly env d) : Invariant d (exitAt env) (Leftover env d) where
  start := ⟨fun _ _ => rfl, fun _ _ _ _ => rfl, fun _ h => h, ho.tight⟩
  ahead h := h.ahead ho
  round := by
    intro i u h _
    rw [exitAt, wp_bind, wp_get]
    cases hi : u.snapDevices i with
    | none =>
        rw [wp_pure]
        exact fun _ => ⟨fun j hj => h.table j (by omega), fun j c hj => h.devs j c (by omega), h.within, h.tight⟩
    | some a =>
        have hia : d.snapDevices i = some a := (h.table i (Nat.le_refl i)).symm.trans hi
        cases hd : u.devs a with
        | none =>
            have hgone : wp (tracerDestroy env a) u (fun _ _ => False) (Fails fun _ _ => True) := by
              rw [tracerDestroy, wp_bind, tracerDestroyTracing, wp_bind, wp_getDev]
              intro dev hdev
              cases hd.symm.trans hdev
            rw [wp_bind]
            exact wp_mono hgone (fun _ _ h => h.elim) fun _ _ _ => trivial
        | some dev =>
            have hrow : d.row i = some dev := row_eq_some.mpr ⟨a, hia, (h.devs i a (Nat.le_refl i) hia).symm.trans hd⟩
            have hminor : dev.minor = i := ho.sound.minor hrow
            rw [wp_bind]
            refine wp_mono (destroy_clears hd) (fun _ v hv => ?_) fun _ _ _ => trivial
            obtain ⟨hclears, htight⟩ := hv
            rw [wp_pure]
            intro _
            have htable : ∀ j, j ≠ i → v.snapDevices j = u.snapDevices j := by
              intro j hj
              rcases hclears.table with ht | ht
              · rw [ht]
              · rw [ht, hminor, Function.update_of_ne hj]
            refine ⟨fun j hj => ?_, fun j c hj hc => ?_, fun j hj => h.within j ?_, htight⟩
            · exact (htable j (by omega)).trans (h.table j (by omega))
            · have hne : c ≠ a := by
                rintro rfl
                have hji := ho.sound.apart hc hia
                omega
              exact (hclears.devs c hne).trans (h.devs j c (by omega) hc)
            · rcases hclears.table with ht | ht
              · exact ht ▸ hj
              · rw [ht] at hj
                by_cases hji : j = dev.minor
                · rw [hji, Function.update_self] at hj
                  cases hj
                · rwa [Function.update_of_ne hji] at hj

/-- The tables and ranges that the driver gets to, also in the middle of a request. -/
inductive Reached (env : Env) : (Nat → Option Nat) × Nat × Nat → Prop
  | load : Reached env (fun _ => none, env.maxSnapDevices - 1, 0)
  | included {table : Nat → Option Nat} {low high m : Nat} (h : Reached env (table, low, high)) (hm : m < env.maxSnapDevices) :
      Reached env (table, min low m, max high m)
  | entered {table : Nat → Option Nat} {low high m a : Nat} (h : Reached env (table, low, high)) (hm : m < env.maxSnapDevices) :
      Reached env (update table m (some a), min low m, max high m)
  | cleared {table : Nat → Option Nat} {low high m : Nat} (h : Reached env (table, low, high)) :
      Reached env (update table m none, low, high)
  | recalculated {table : Nat → Option Nat} {low high : Nat} (h : Reached env (table, low, high)) :
      Reached env (table, (used env table).foldl min (env.maxSnapDevices - 1), (used env table).foldl max 0)

theorem foldl_max_lt {is : List Nat} (h0 : 0 < m) (h : ∀ i ∈ is, i < m) : is.foldl max 0 < m := by
  rcases foldl_max_mem is 0 with h' | h'
  · exact h'.symm ▸ h0
  · exact h _ h'

theorem Reached.ranged {x : (Nat → Option Nat) × Nat × Nat} (h : Reached env x) (h0 : 0 < env.maxSnapDevices)
    (hx : tablePart d = x) : Ranged env d := by
  induction h generalizing d with
  | load =>
      obtain ⟨htable, hrange⟩ := Prod.mk.inj hx
      obtain ⟨hlow, hhigh⟩ := Prod.mk.inj hrange
      refine ⟨fun hi => ?_, by omega, by omega⟩
      rw [htable] at hi
      cases hi
  | @included table low high m _ hm ih =>
      obtain ⟨htable, hrange⟩ := Prod.mk.inj hx
      obtain ⟨hlow, hhigh⟩ := Prod.mk.inj hrange
      have hr := ih (d := { d with lowestMinor := low, highestMinor := high }) (by rw [← htable]; rfl)
      have hl : low < env.maxSnapDevices := hr.low
      have hh : high < env.maxSnapDevices := hr.high
      refine ⟨fun hi => ?_, by omega, by omega⟩
      have hin : low ≤ _ ∧ _ ≤ high := hr.encloses hi
      omega
  | @entered table low high m a _ hm ih =>
      obtain ⟨htable, hrange⟩ := Prod.mk.inj hx
      obtain ⟨hlow, hhigh⟩ := Prod.mk.inj hrange
      have hr := ih (d := { d with snapDevices := table, lowestMinor := low, highestMinor := high }) rfl
      have hl : low < env.maxSnapDevices := hr.low
      have hh : high < env.maxSnapDevices := hr.high
      refine ⟨fun {i} hi => ?_, by omega, by omega⟩
      by_cases him : i = m
      · omega
      · rw [htable, Function.update_of_ne him] at hi
        have hin : low ≤ i ∧ i ≤ high := hr.encloses hi
        omega
  | @cleared table low high m _ ih =>
      obtain ⟨htable, hrange⟩ := Prod.mk.inj hx
      obtain ⟨hlow, hhigh⟩ := Prod.mk.inj hrange
      have hr := ih (d := { d with snapDevices := table }) (by rw [← hlow, ← hhigh]; rfl)
      refine ⟨fun {i} hi => ?_, hr.low, hr.high⟩
      by_cases him : i = m
      · rw [htable, him, Function.update_self] at hi
        cases hi
      · rw [htable, Function.update_of_ne him] at hi
        exact hr.encloses hi
  | @recalculated table low high _ ih =>
      obtain ⟨htable, hrange⟩ := Prod.mk.inj hx
      obtain ⟨hlow, hhigh⟩ := Prod.mk.inj hrange
      have hr := ih (d := { d with lowestMinor := low, highestMinor := high }) (by rw [← htable]; rfl)
      have hh : high < env.maxSnapDevices := hr.high
      have hmin : (used env table).foldl min (env.maxSnapDevices - 1) ≤ env.maxSnapDevices - 1 := foldl_min_le.1
      refine ⟨fun {i} hi => ?_, by omega, ?_⟩
      · have hin : low ≤ i ∧ i ≤ high := hr.encloses hi
        have hmem : i ∈ used env table := mem_used.mpr ⟨by omega, htable ▸ hi⟩
        rw [hlow, hhigh]
        exact ⟨foldl_min_le.2 i hmem, le_foldl_max.2 i hmem⟩
      · rw [hhigh]
        exact foldl_max_lt h0 fun j hj => (mem_used.mp hj).1

/-- Between two requests the table is one of these. -/
theorem Orderly.reached (ho : Orderly env d) : Reached env (tablePart d) := by
  have hprefix : ∀ n, n ≤ env.maxSnapDevices →
      ∃ low high, Reached env (fun i => if i < n then d.snapDevices i else none, low, high) := by
    intro n
    induction n with
    | zero => exact fun _ => ⟨_, _, .load⟩
    | succ n ih =>
        intro hn
        obtain ⟨low, high, h⟩ := ih (by omega)
        cases hd : d.snapDevices n with
        | none =>
            refine ⟨low, high, ?_⟩
            convert h using 2
            funext i
            by_cases hi : i = n
            · rw [hi, hd, if_neg (Nat.lt_irrefl n), ite_self]
            · exact if_congr (by omega) rfl rfl
        | some a =>
            refine ⟨min low n, max high n, ?_⟩
            convert h.entered (m := n) (a := a) (by omega) using 2
            funext i
            by_cases hi : i = n
            · rw [hi, hd, Function.update_self, if_pos (Nat.lt_succ_self n)]
            · rw [Function.update_of_ne hi]
              exact if_congr (by omega) rfl rfl
  obtain ⟨low, high, h⟩ := hprefix _ (Nat.le_refl _)
  have htable : (fun i => if i < env.maxSnapDevices then d.snapDevices i else none) = d.snapDevices := by
    funext i
    by_cases hi : i < env.maxSnapDevices
    · rw [if_pos hi]
    · rw [if_neg hi]
      by_contra hne
      obtain ⟨a, ha⟩ := Option.ne_none_iff_exists'.mp fun h => hne h.symm
      exact hi (ho.sound.used ha).1
  rw [htable] at h
  have hrange := h.recalculated
  obtain ⟨hlow, hhigh⟩ := tight_iff.mp ho.tight
  rwa [hlow, hhigh] at hrange

/-- A pass that comes to its end has been to every device once. -/
def Complete (d : DriverState) (body : Nat → DriverM (Option α)) : Prop :=
  ∀ d' t, forEach body (d, ⟨[], []⟩) = .ok none (d', t) → ∀ i, (d.snapDevices i).isSome = true → t.visited.count i = 1

/-- Every pass over a table with a range that the driver gets to is complete. One that its body does not leave reads
behind the table if there is no room there, so does the search for a free minor where there is none, and the
recalculation of the range does always. -/
theorem iteration_iff (env : Env) (native : Nat → Nat) (events : List Event) (d : DriverState)
    (h0 : 0 < env.maxSnapDevices) (hrun : run (step env) (.start env native) events = some d) :
    (∀ (α : Type) (body : Nat → DriverM (Option α)), Careful d body → Complete d body ∧
      (Fits env (traceOf (forEach body (d, ⟨[], []⟩))) ↔
        (Ends body d → 2 ≤ env.maxSnapDevices ∧ d.snapDevices (env.maxSnapDevices - 1) = none))) ∧
    Careful d (exitAt env) ∧
    (∀ u, Reached env (tablePart u) → ∀ (α : Type) (body : Nat → DriverM (Option α)), (∀ i, Preserves tablePart (body i)) →
      Complete u body ∧ (Fits env (traceOf (forEach body (u, ⟨[], []⟩))) ↔ (Ends body u → Roomy env u))) ∧
    (Fits env (traceOf (scanFreeMinor env (d, ⟨[], []⟩))) ↔ ∃ i, i < env.maxSnapDevices ∧ d.snapDevices i = none) ∧
    ¬ Fits env (traceOf (scanRecalculate env (d, ⟨[], []⟩))) := by
  have ho : Orderly env d := orderly_run hrun
  refine ⟨fun α body hc => ⟨?_, ?_⟩, ⟨_, exit_invariant ho⟩, fun u hu α body hpart => ⟨?_, ?_⟩, scanFreeMinor_fits_iff,
    scanRecalculate_not_fits⟩
  · exact fun _ _ hres _ hi => forEach_visits (Passes.Orderly.ranged ho h0) hc hres hi
  · rw [forEach_fits_iff ho h0 hc, Passes.Orderly.roomy_iff ho h0]
  · exact fun _ _ hres _ hi => forEach_visits (hu.ranged h0 rfl) ⟨_, invariant_of_part (hu.ranged h0 rfl) hpart⟩ hres hi
  · exact forEach_fits_of_part (hu.ranged h0 rfl) hpart

/-- With the first partition tracked and the second slot free. -/
theorem iteration_calm :
    Complete (calmState (calmSnap 0) 16) (exitAt calm) ∧
      Fits calm (traceOf (agentExit calm (calmState (calmSnap 0) 16, ⟨[], []⟩))) ∧
      Fits calm (traceOf (scanFreeMinor calm (calmState (calmSnap 0) 16, ⟨[], []⟩))) ∧
      ¬ Fits calm (traceOf (scanRecalculate calm (calmState (calmSnap 0) 16, ⟨[], []⟩))) := by
  have h0 : 0 < calm.maxSnapDevices := by
    rw [calm_answers.1]
    exact Nat.two_pos
  have hrun : run (step calm) (.start calm fun _ => 0) [.setupSnap 0 "/dev/sda1" "/cow" 0] =
      some (calmState (calmSnap 0) 16) := by
    rw [run, step_ok calm_setup]
    rfl
  obtain ⟨hpass, hexit, -, hfree, hrange⟩ := iteration_iff calm (fun _ => 0) _ _ h0 hrun
  obtain ⟨hcomplete, hfits⟩ := hpass _ _ hexit
  have hlast : (calmState (calmSnap 0) 16).snapDevices 1 = none := by decide
  refine ⟨hcomplete, hfits.mpr fun _ => ?_, hfree.mpr ⟨1, ?_, hlast⟩, hrange⟩
  · rw [calm_answers.1]
    exact ⟨Nat.le_refl 2, hlast⟩
  · rw [calm_answers.1]
    exact Nat.one_lt_two

/-- A table with one slot. -/
def oneSlot : Env := { calm with maxSnapDevices := 1 }

theorem one_slot_out_of_bounds : ¬ ∀ (env : Env) (native : Nat → Nat) (events : List Event) (d : DriverState),
    0 < env.maxSnapDevices → run (step env) (.start env native) events = some d →
      (∀ body : Nat → DriverM (Option Nat), Careful d body → Fits env (traceOf (forEach body (d, ⟨[], []⟩)))) ∧
      Fits env (traceOf (scanRecalculate env (d, ⟨[], []⟩))) := by
  intro h
  obtain ⟨hpass, -⟩ := h oneSlot (fun _ => 0) [] _ Nat.one_pos rfl
  have hr : Ranged oneSlot (.start oneSlot fun _ => 0) := ⟨(fun h => by cases h), Nat.one_pos, Nat.one_pos⟩
  have hcareful : Careful (.start oneSlot fun _ => 0) (searchAt fun _ _ => pure false) :=
    ⟨_, invariant_of_part hr fun _ => part_searchAt fun _ _ => preserves_pure⟩
  have hfetched : (traceOf (forEach (searchAt fun _ _ => pure false)
      (.start oneSlot fun _ => 0, ⟨[], []⟩))).fetched = [0, 1] := rfl
  have hone := hpass _ hcareful 1 (by rw [hfetched]; exact List.mem_cons_of_mem 0 (List.mem_singleton_self 1))
  exact Nat.lt_irrefl 1 hone

end ElastioSnap.Driver.Iteration
