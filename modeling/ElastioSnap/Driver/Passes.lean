import ElastioSnap.Driver.Ranges
import ElastioSnap.Lib.Scan

namespace ElastioSnap.Driver.Passes

open Function (update)
open Lib.Outcome Lib.Extend Lib.Runs Lib.Scan State Setup Events Rows Tracing Borrowed Parts Requests Minors Ranges
open Cow.Manager (Errno Err)

abbrev ScanM := EStateM Err (DriverState × Trace)

/-- `tracer_for_each`, which goes from the lowest minor to the highest. The body is run at an index, and may leave the loop. -/
def forEach {α : Type} (body : Nat → DriverM (Option α)) : ScanM (Option α) := do
  let d ← lift get
  loop (fun d i => decide (i ≤ d.highestMinor)) body (d.highestMinor + 1) d.lowestMinor

section

variable (env : Env)

/-- `tracer_for_each_full`, which goes over the whole table. -/
def forEachFull {σ α : Type} (body : Nat → EStateM Err σ (Option α)) : EStateM Err (σ × Trace) (Option α) :=
  loop (fun _ i => decide (i < env.maxSnapDevices)) body env.maxSnapDevices 0

def scanFreeMinor : ScanM Nat := do
  match ← forEachFull env (fun i => do return if ((← get).snapDevices i).isNone then some i else none) with
  | some i => return i
  | none => throw (.code enoent)

/-- The table, and the lowest and the highest minor found in it so far. -/
abbrev RangeM := EStateM Err (DriverState × Nat × Nat)

def recalculateAt (i : Nat) : RangeM (Option Unit) := do
  if ((← get).1.snapDevices i).isSome then
    modify fun s => (s.1, if i < s.2.1 then i else s.2.1, if i > s.2.2 then i else s.2.2)
  return none

def scanRecalculate : ScanM Unit := fun s =>
  match forEachFull env recalculateAt ((s.1, env.maxSnapDevices - 1, 0), s.2) with
  | .ok _ t => .ok () ({ t.1.1 with lowestMinor := t.1.2.1, highestMinor := t.1.2.2 }, t.2)
  | .error e t => .error e (t.1.1, t.2)

def exitAt (i : Nat) : DriverM (Option Unit) := do
  match (← get).snapDevices i with
  | none => return none
  | some a =>
      tracerDestroy env a
      return none

/-- The loop in which the devices are destroyed when the module is unloaded. -/
def agentExit : ScanM (Option Unit) := forEach (exitAt env)

end

/-- The body of a search for a device. -/
def searchAt (p : Nat → SnapDevice → DriverM Bool) (i : Nat) : DriverM (Option Nat) := do
  match (← get).snapDevices i with
  | none => return none
  | some a =>
      let dev ← getDev a
      return if ← p a dev then some a else none

variable {env : Env} {native : Nat → Nat} {d d' : DriverState} {a i j k m : Nat} {dev : SnapDevice} {t : Trace} {α : Type}

/-- The devices are in the range, and the range is in the table. -/
structure Ranged (env : Env) (d : DriverState) : Prop where
  encloses : ∀ {i : Nat}, (d.snapDevices i).isSome = true → d.lowestMinor ≤ i ∧ i ≤ d.highestMinor
  low : d.lowestMinor < env.maxSnapDevices
  high : d.highestMinor < env.maxSnapDevices

theorem Orderly.ranged (ho : Orderly env d) (h0 : 0 < env.maxSnapDevices) : Ranged env d where
  encloses hi := by
    obtain ⟨a, ha⟩ := Option.isSome_iff_exists.mp hi
    exact ho.sound.range ha
  low := (ho.range_lt h0).1
  high := (ho.range_lt h0).2

/-- What is ahead of a loop over `d` is as it was, in a range that did not grow. -/
structure Ahead (d : DriverState) (i : Nat) (u : DriverState) : Prop where
  table : ∀ j, i ≤ j → u.snapDevices j = d.snapDevices j
  range : ∀ j, i ≤ j → (u.snapDevices j).isSome = true → j ≤ u.highestMinor
  high : u.highestMinor ≤ d.highestMinor

/-- As long as the body goes on with the loop, it leaves what is ahead of it alone. -/
structure Invariant (d : DriverState) (body : Nat → DriverM (Option α)) (I : Nat → DriverState → Prop) : Prop where
  start : I d.lowestMinor d
  ahead : ∀ {i : Nat} {u : DriverState}, I i u → Ahead d i u
  round : ∀ {i : Nat} {u : DriverState}, I i u → i ≤ u.highestMinor →
    wp (body i) u (fun r v => r = none → I (i + 1) v) fun _ _ => True

def Careful (d : DriverState) (body : Nat → DriverM (Option α)) : Prop := ∃ I, Invariant d body I

/-- The header of a loop keeps to the table. -/
def Fits (env : Env) (t : Trace) : Prop := ∀ i ∈ t.fetched, i < env.maxSnapDevices

def traceOf {ε σ β : Type} : EStateM.Result ε (σ × Trace) β → Trace
  | .ok _ s => s.2
  | .error _ s => s.2

/-- The loop comes to its end, its body never leaves it. -/
def Ends (body : Nat → DriverM (Option α)) (d : DriverState) : Prop := ∃ s, forEach body (d, ⟨[], []⟩) = .ok none s

/-- There is no device, or there is a slot behind the last of them. -/
def Roomy (env : Env) (d : DriverState) : Prop :=
  d.highestMinor < d.lowestMinor ∨ d.highestMinor + 1 < env.maxSnapDevices

theorem invariant_of_part {body : Nat → DriverM (Option α)} (hr : Ranged env d) (h : ∀ i, Preserves tablePart (body i)) :
    Invariant d body fun _ u => tablePart u = tablePart d where
  start := rfl
  ahead hu := by
    obtain ⟨htable, hrange⟩ := Prod.mk.inj hu
    obtain ⟨-, hhigh⟩ := Prod.mk.inj hrange
    refine ⟨fun j _ => by rw [htable], fun j _ hj => ?_, hhigh.le⟩
    rw [htable] at hj
    rw [hhigh]
    exact (hr.encloses hj).2
  round hu _ := wp_mono (h _ _) (fun _ _ hv _ => hv.trans hu) fun _ _ _ => trivial

variable {I : Nat → DriverState → Prop} {body : Nat → DriverM (Option α)} {r : Option α} {left : Bool}

theorem forEach_wp (hc : Invariant d body I) :
    wp (forEach body) (d, ⟨[], []⟩)
      (fun r s' => ∃ k, Pass d.lowestMinor k r.isSome s'.2 ∧ (0 < k → d.lowestMinor + k ≤ d.highestMinor + 1) ∧
        (r = none → I (d.lowestMinor + k) s'.1 ∧ s'.1.highestMinor < d.lowestMinor + k))
      (fun _ s' => ∃ k, Pass d.lowestMinor k true s'.2 ∧ (0 < k → d.lowestMinor + k ≤ d.highestMinor + 1)) := by
  rw [forEach, wp_bind, wp_lift, wp_get]
  have hbelow : ∀ {k : Nat}, (∀ j, d.lowestMinor ≤ j → j < d.lowestMinor + k → j ≤ d.highestMinor) → 0 < k →
      d.lowestMinor + k ≤ d.highestMinor + 1 := by
    intro k hk hpos
    have hlast := hk (d.lowestMinor + k - 1) (by omega) (by omega)
    omega
  refine wp_mono (loop_wp (J := fun _ _ => True) (E := fun _ _ => True) (P := fun j => j ≤ d.highestMinor) hc.start ?_ ?_) ?_ ?_
  · exact fun i u hu hin => (of_decide_eq_true hin).trans (hc.ahead hu).high
  · exact fun i u hu hin => wp_mono (hc.round hu (of_decide_eq_true hin)) (fun _ _ h => ⟨h, fun _ _ => trivial⟩) fun _ _ h => h
  · rintro r s' ⟨⟨k, hpass, hk, hend⟩, -⟩
    refine ⟨k, hpass, hbelow hk, fun hr => ?_⟩
    obtain ⟨hI, hfuel⟩ := hend hr
    refine ⟨hI, ?_⟩
    rcases hfuel with rfl | hout
    · exact Nat.lt_of_le_of_lt (hc.ahead hI).high (Nat.lt_of_lt_of_le (Nat.lt_succ_self _) (Nat.le_add_left _ _))
    · exact Nat.lt_of_not_le (of_decide_eq_false hout)
  · rintro _ s' ⟨⟨k, hpass, hk⟩, -⟩
    exact ⟨k, hpass, hbelow hk⟩

variable {p : Nat → SnapDevice → DriverM Bool} {fuel : Nat} {u : DriverState}

theorem findTracer_cons {is : List Nat} : findTracer p (i :: is) u = match searchAt p i u with
    | .ok (some c) v => .ok (some c) v
    | .ok none v => findTracer p is v
    | .error e v => .error e v := by
  have hcons : findTracer p (i :: is) u = (match u.snapDevices i with
      | none => findTracer p is
      | some a => do
          let dev ← getDev a
          if ← p a dev then pure (some a) else findTracer p is) u := rfl
  have hsearch : searchAt p i u = (match u.snapDevices i with
      | none => pure none
      | some a => do
          let dev ← getDev a
          return if ← p a dev then some a else none : DriverM (Option Nat)) u := rfl
  rw [hcons, hsearch]
  cases u.snapDevices i with
  | none => rfl
  | some a =>
      dsimp only
      change EStateM.bind _ _ u = match EStateM.bind _ _ u with
        | .ok (some c) v => .ok (some c) v
        | .ok none v => findTracer p is v
        | .error e v => .error e v
      unfold EStateM.bind
      cases getDev a u with
      | error e v => rfl
      | ok dev v =>
          dsimp only
          change EStateM.bind _ _ v = match EStateM.bind _ _ v with
            | .ok (some c) v => .ok (some c) v
            | .ok none v => findTracer p is v
            | .error e v => .error e v
          unfold EStateM.bind
          cases p a dev v with
          | error e w => rfl
          | ok r w => cases r <;> rfl

theorem part_searchAt (hp : ∀ a dev, Preserves tablePart (p a dev)) : Preserves tablePart (searchAt p i) := by
  refine preserves_get.bind fun d => ?_
  cases d.snapDevices i with
  | none => exact preserves_pure
  | some a => exact (part_still still_getDev).bind fun dev => (hp a dev).bind fun r => preserves_pure

theorem erase_search (hp : ∀ a dev, Preserves tablePart (p a dev)) (hfuel : u.highestMinor < i + fuel) :
    erase (rounds (fun d i => decide (i ≤ d.highestMinor)) (searchAt p) fuel i (u, t)) =
      findTracer p ((List.range (u.highestMinor + 1)).drop i) u := by
  induction fuel generalizing i u t with
  | zero =>
      rw [List.drop_eq_nil_of_le (by rw [List.length_range]; omega)]
      rfl
  | succ fuel ih =>
      by_cases hi : i ≤ u.highestMinor
      · have hdrop : (List.range (u.highestMinor + 1)).drop i = i :: (List.range (u.highestMinor + 1)).drop (i + 1) := by
          rw [List.drop_eq_getElem_cons (by rw [List.length_range]; omega), List.getElem_range]
        have hpart := part_searchAt (i := i) hp u
        unfold wp at hpart
        rw [hdrop, findTracer_cons, rounds_in (decide_eq_true hi)]
        cases hres : searchAt p i u with
        | error e v => rfl
        | ok r v =>
            cases r with
            | some c => rfl
            | none =>
                rw [hres] at hpart
                have hhigh : v.highestMinor = u.highestMinor := (Prod.mk.inj (Prod.mk.inj hpart).2).2
                dsimp only
                rw [ih (by omega), hhigh]
      · rw [List.drop_eq_nil_of_le (by rw [List.length_range]; omega), rounds_out (decide_eq_false hi)]
        rfl

/-- But for what its header reads, a loop that searches for a device does what `tracerForEach` does. -/
theorem erase_forEach (hp : ∀ a dev, Preserves tablePart (p a dev)) :
    erase (forEach (searchAt p) (d, t)) = tracerForEach p d :=
  erase_search (u := d) hp (by dsimp only; omega)

/-- A pass that is not left comes to every device once. -/
theorem forEach_visits (hr : Ranged env d) (hc : Careful d body) (h : forEach body (d, ⟨[], []⟩) = .ok none (d', t))
    (hi : (d.snapDevices i).isSome = true) : t.visited.count i = 1 := by
  obtain ⟨I, hinv⟩ := hc
  obtain ⟨k, hpass, -, hend⟩ := wp_ok (forEach_wp hinv) h
  obtain ⟨hI, hlt⟩ := hend rfl
  have hahead := hinv.ahead hI
  have hmem : i ∈ t.visited := by
    refine hpass.mem_visited.mpr ⟨(hr.encloses hi).1, ?_⟩
    by_contra hnot
    have hle : d.lowestMinor + k ≤ i := Nat.le_of_not_lt hnot
    have hin : i ≤ d'.highestMinor := hahead.range i hle (by rw [hahead.table i hle]; exact hi)
    have hbehind : d'.highestMinor < d.lowestMinor + k := hlt
    omega
  exact List.count_eq_one_of_mem hpass.nodup hmem

/-- Where the loop comes to its end, the header has fetched what is behind the highest minor. -/
theorem pass_fits_iff (hr : Ranged env d) (hpass : Pass d.lowestMinor k left t)
    (hk : 0 < k → d.lowestMinor + k ≤ d.highestMinor + 1) (hend : left = false → d.highestMinor < d.lowestMinor + k) :
    Fits env t ↔ left = true ∨ Roomy env d := by
  have hlow := hr.low
  have hhigh := hr.high
  have hfit : Fits env t ↔ d.lowestMinor + k ≤ env.maxSnapDevices ∧ (left = false → d.lowestMinor + k < env.maxSnapDevices) :=
    hpass.fetched_lt_iff
  rw [hfit, Roomy]
  have hle : d.lowestMinor + k ≤ env.maxSnapDevices := by
    rcases Nat.eq_zero_or_pos k with rfl | hpos
    · exact hlow.le
    · exact (hk hpos).trans hhigh
  cases left with
  | true => exact iff_of_true ⟨hle, fun h => by cases h⟩ (.inl rfl)
  | false =>
      have hbehind := hend rfl
      simp only [hle, true_and, forall_const, Bool.false_eq_true, false_or]
      omega

/-- The header of a loop that is left keeps to the table, and that of a loop which comes to its end does where there is room. -/
theorem fits_iff_of_invariant (hr : Ranged env d) (hc : Invariant d body I)
    (hend : ∀ n u, I n u → u.highestMinor < n → d.highestMinor < n) :
    Fits env (traceOf (forEach body (d, ⟨[], []⟩))) ↔ (Ends body d → Roomy env d) := by
  have hwp := forEach_wp hc
  unfold wp at hwp
  rw [Ends]
  cases hres : forEach body (d, ⟨[], []⟩) with
  | error e s' =>
      rw [hres] at hwp
      obtain ⟨k, hpass, hk⟩ := hwp
      have hfit : Fits env s'.2 := (pass_fits_iff hr hpass hk fun h => by cases h).mpr (.inl rfl)
      exact iff_of_true hfit fun ⟨_, h⟩ => by cases h
  | ok r s' =>
      rw [hres] at hwp
      obtain ⟨k, hpass, hk, hlast⟩ := hwp
      cases r with
      | some x =>
          have hfit : Fits env s'.2 := (pass_fits_iff hr hpass hk fun h => by cases h).mpr (.inl rfl)
          exact iff_of_true hfit fun ⟨_, h⟩ => by cases h
      | none =>
          have hbehind := hend _ _ (hlast rfl).1 (hlast rfl).2
          have hfit : Fits env s'.2 ↔ Roomy env d := by
            rw [pass_fits_iff hr hpass hk fun _ => hbehind]
            exact or_iff_right fun h => by cases h
          exact hfit.trans ⟨fun h _ => h, fun h => h ⟨s', rfl⟩⟩

/-- Work that leaves the table alone, on whatever range. -/
theorem forEach_fits_of_part (hr : Ranged env d) (hpart : ∀ i, Preserves tablePart (body i)) :
    Fits env (traceOf (forEach body (d, ⟨[], []⟩))) ↔ (Ends body d → Roomy env d) := by
  refine fits_iff_of_invariant hr (invariant_of_part hr hpart) fun n u hu hlt => ?_
  have hhigh : u.highestMinor = d.highestMinor := (Prod.mk.inj (Prod.mk.inj hu).2).2
  exact hhigh ▸ hlt

/-- Where the range is that of the table, the loop cannot end before it. -/
theorem Orderly.behind {u : DriverState} {n : Nat} (ho : Orderly env d) (ha : Ahead d n u) (hlt : u.highestMinor < n) :
    d.highestMinor < n := by
  by_cases hnone : ∀ i, d.snapDevices i = none
  · rw [(ho.range_none hnone).2]
    exact Nat.lt_of_le_of_lt (Nat.zero_le _) hlt
  · obtain ⟨i, hi⟩ := not_forall.mp hnone
    obtain ⟨a, ha'⟩ := Option.ne_none_iff_exists'.mp hi
    by_contra hnot
    have hle : n ≤ d.highestMinor := Nat.le_of_not_lt hnot
    have hin := ha.range _ hle (by rw [ha.table _ hle]; exact (ho.range_used ha').2)
    omega

theorem forEach_fits_iff (ho : Orderly env d) (h0 : 0 < env.maxSnapDevices) (hc : Careful d body) :
    Fits env (traceOf (forEach body (d, ⟨[], []⟩))) ↔ (Ends body d → Roomy env d) := by
  obtain ⟨I, hinv⟩ := hc
  exact fits_iff_of_invariant (Passes.Orderly.ranged ho h0) hinv
    fun _ _ hI hlt => Passes.Orderly.behind ho (hinv.ahead hI) hlt

/-- There is room behind the devices while the last slot of the table is not the only one, and has no device. -/
theorem Orderly.roomy_iff (ho : Orderly env d) (h0 : 0 < env.maxSnapDevices) :
    Roomy env d ↔ 2 ≤ env.maxSnapDevices ∧ d.snapDevices (env.maxSnapDevices - 1) = none := by
  by_cases hnone : ∀ i, d.snapDevices i = none
  · obtain ⟨hlow, hhigh⟩ := ho.range_none hnone
    rw [Roomy, hlow, hhigh, and_iff_left (hnone _)]
    omega
  · obtain ⟨i, hi⟩ := not_forall.mp hnone
    obtain ⟨a, ha⟩ := Option.ne_none_iff_exists'.mp hi
    obtain ⟨hmax, hle, hge, -⟩ := ho.sound.used ha
    have hlast := (ho.range_used ha).2
    have hlt := (ho.range_lt h0).2
    rw [Roomy]
    constructor
    · intro h
      refine ⟨by omega, ?_⟩
      by_contra hsome
      obtain ⟨b, hb⟩ := Option.ne_none_iff_exists'.mp hsome
      obtain ⟨-, -, hin, -⟩ := ho.sound.used hb
      omega
    · rintro ⟨-, h⟩
      have hne : d.highestMinor ≠ env.maxSnapDevices - 1 := by
        intro heq
        rw [heq, h] at hlast
        cases hlast
      omega

/-- The header of the search for a free minor keeps to the table where it finds one. -/
theorem scanFreeMinor_wp (env : Env) (d : DriverState) : wp (scanFreeMinor env) (d, ⟨[], []⟩)
    (fun i s => s.1 = d ∧ (i < env.maxSnapDevices ∧ d.snapDevices i = none ∧ ∀ j, j < i → d.snapDevices j ≠ none) ∧ Fits env s.2)
    (fun e s => e = .code enoent ∧ s.1 = d ∧ (∀ i, i < env.maxSnapDevices → d.snapDevices i ≠ none) ∧ ¬ Fits env s.2) := by
  rw [scanFreeMinor, wp_bind, forEachFull]
  refine wp_mono (loop_wp (I := fun i u => u = d ∧ ∀ j, j < i → d.snapDevices j ≠ none)
    (J := fun i u => u = d ∧ i < env.maxSnapDevices ∧ d.snapDevices i = none ∧ ∀ j, j < i → d.snapDevices j ≠ none) (E := fun _ _ => False)
    (P := fun i => i < env.maxSnapDevices) ⟨rfl, fun _ h => by omega⟩ ?_ ?_) ?_ ?_
  · exact fun i u _ hin => of_decide_eq_true hin
  · rintro i u ⟨hstate, hused⟩ hin
    subst hstate
    rw [wp_bind, wp_get, wp_pure]
    cases hi : u.snapDevices i with
    | none =>
        refine ⟨(fun h => by cases h), fun x hx => ?_⟩
        obtain rfl : i = x := Option.some.inj hx
        exact ⟨rfl, of_decide_eq_true hin, hi, hused⟩
    | some a =>
        refine ⟨fun _ => ⟨rfl, fun j hj => ?_⟩, fun x hx => by cases hx⟩
        by_cases hji : j = i
        · rw [hji, hi]
          exact Option.some_ne_none a
        · exact hused j (by omega)
  · rintro r s' ⟨⟨k, hpass, hbelow, hend⟩, hfree⟩
    have hk : 0 < k → k ≤ env.maxSnapDevices := by
      intro hpos
      have hlast := hbelow (k - 1) (Nat.zero_le _) (by omega)
      omega
    cases r with
    | some i =>
        obtain ⟨hstate, hfound⟩ := hfree i rfl
        exact ⟨hstate, hfound, hpass.fetched_lt_iff.mpr ⟨by have := hpass.begun rfl; omega, fun h => by cases h⟩⟩
    | none =>
        obtain ⟨⟨hstate, hused⟩, hover⟩ := hend rfl
        have hall : env.maxSnapDevices ≤ 0 + k := by
          rcases hover with rfl | hout
          · omega
          · exact Nat.le_of_not_lt (of_decide_eq_false hout)
        refine ⟨rfl, hstate, fun i hi => hused i (by omega), fun hfits => ?_⟩
        have hlt := (hpass.fetched_lt_iff.mp hfits).2 rfl
        omega
  · exact fun _ _ h => h.2.elim

theorem scanFreeMinor_fits_iff :
    Fits env (traceOf (scanFreeMinor env (d, ⟨[], []⟩))) ↔ ∃ i, i < env.maxSnapDevices ∧ d.snapDevices i = none := by
  have hwp := scanFreeMinor_wp env d
  unfold wp at hwp
  cases hres : scanFreeMinor env (d, ⟨[], []⟩) with
  | ok i s =>
      rw [hres] at hwp
      obtain ⟨-, ⟨hi, hnone, -⟩, hfits⟩ := hwp
      exact iff_of_true hfits ⟨i, hi, hnone⟩
  | error e s =>
      rw [hres] at hwp
      exact iff_of_false hwp.2.2.2 fun ⟨i, hi, hnone⟩ => hwp.2.2.1 i hi hnone

/-- But for what its header reads, the loop does what `get_free_minor` does. -/
theorem erase_scanFreeMinor : erase (scanFreeMinor env (d, ⟨[], []⟩)) = getFreeMinor env d := by
  have hwp := scanFreeMinor_wp env d
  have hget : getFreeMinor env d = match (List.range env.maxSnapDevices).find? fun i => (d.snapDevices i).isNone with
      | some i => .ok i d
      | none => .error (.code enoent) d := by
    have hbind : getFreeMinor env d = (match (List.range env.maxSnapDevices).find? fun i => (d.snapDevices i).isNone with
      | some i => (pure i : DriverM Nat)
      | none => throw (Err.code enoent)) d := rfl
    rw [hbind]
    cases (List.range env.maxSnapDevices).find? fun i => (d.snapDevices i).isNone <;> rfl
  unfold wp at hwp
  cases hres : scanFreeMinor env (d, ⟨[], []⟩) with
  | ok i s =>
      rw [hres] at hwp
      obtain ⟨hstate, ⟨hi, hnone, hused⟩, -⟩ := hwp
      have hfind : (List.range env.maxSnapDevices).find? (fun i => (d.snapDevices i).isNone) = some i := by
        refine List.find?_range_eq_some.mpr ⟨by rw [hnone]; rfl, List.mem_range.mpr hi, fun j hj => ?_⟩
        obtain ⟨a, ha⟩ := Option.ne_none_iff_exists'.mp (hused j hj)
        rw [ha]
        rfl
      rw [hget, hfind, erase, hstate]
  | error e s =>
      rw [hres] at hwp
      obtain ⟨rfl, hstate, hused, -⟩ := hwp
      have hfind : (List.range env.maxSnapDevices).find? (fun i => (d.snapDevices i).isNone) = none := by
        refine List.find?_eq_none.mpr fun i hi hnone => ?_
        exact hused i (List.mem_range.mp hi) (Option.isNone_iff_eq_none.mp hnone)
      rw [hget, hfind, erase, hstate]

/-- What has been found of the range before an index. -/
def found (env : Env) (d : DriverState) (i : Nat) : Nat × Nat :=
  let used := (List.range i).filter fun j => (d.snapDevices j).isSome
  (used.foldl min (env.maxSnapDevices - 1), used.foldl max 0)

theorem found_succ : found env d (i + 1) =
    if (d.snapDevices i).isSome then (min (found env d i).1 i, max (found env d i).2 i) else found env d i := by
  simp only [found, List.range_succ, List.filter_append, List.filter_cons, List.filter_nil, List.foldl_append]
  split
  · rfl
  · rfl

/-- The range is computed from the whole table, and the header of the loop goes on to what is behind it. -/
theorem scanRecalculate_wp (env : Env) (d : DriverState) : wp (scanRecalculate env) (d, ⟨[], []⟩)
    (fun _ s => s.1 = recalculated env d ∧ ¬ Fits env s.2) fun _ _ => False := by
  have hloop : wp (forEachFull env recalculateAt) ((d, env.maxSnapDevices - 1, 0), ⟨[], []⟩)
      (fun _ s => s.1 = (d, found env d env.maxSnapDevices) ∧ ¬ Fits env s.2) fun _ _ => False := by
    refine wp_mono (loop_wp (I := fun i u => i ≤ env.maxSnapDevices ∧ u = (d, found env d i)) (J := fun _ _ => False)
      (E := fun _ _ => False) (P := fun i => i < env.maxSnapDevices) ⟨Nat.zero_le _, rfl⟩ ?_ ?_) ?_ ?_
    · exact fun i u _ hin => of_decide_eq_true hin
    · rintro i u ⟨-, hstate⟩ hin
      have hlt : i < env.maxSnapDevices := of_decide_eq_true hin
      rw [recalculateAt, wp_bind, wp_get, hstate]
      dsimp only
      rw [wp_ite]
      have hnext : ∀ {v : DriverState × Nat × Nat}, v = (d, found env d (i + 1)) →
          wp (pure none : RangeM (Option Unit)) v
            (fun r v => (r = none → i + 1 ≤ env.maxSnapDevices ∧ v = (d, found env d (i + 1))) ∧ ∀ x, r = some x → False)
            fun _ _ => False :=
        fun hv => ⟨fun _ => ⟨hlt, hv⟩, fun _ h => by cases h⟩
      split
      next hsome =>
        refine hnext (Prod.ext rfl ?_)
        rw [found_succ, if_pos hsome]
        refine Prod.ext ?_ ?_
        · dsimp only
          split <;> omega
        · dsimp only
          split <;> omega
      next hsome =>
        refine hnext (Prod.ext rfl ?_)
        rw [found_succ, if_neg hsome]
    · rintro r s' ⟨⟨k, hpass, -, hend⟩, hleft⟩
      cases r with
      | some x => exact (hleft x rfl).elim
      | none =>
          obtain ⟨⟨hle, hstate⟩, hover⟩ := hend rfl
          have hall : 0 + k = env.maxSnapDevices := by
            rcases hover with rfl | hout
            · exact Nat.zero_add _
            · exact Nat.le_antisymm hle (Nat.le_of_not_lt (of_decide_eq_false hout))
          refine ⟨hall ▸ hstate, fun hfits => ?_⟩
          have hlt := (hpass.fetched_lt_iff.mp hfits).2 rfl
          omega
    · exact fun _ _ h => h.2
  unfold wp at hloop
  unfold wp scanRecalculate
  cases hres : forEachFull env recalculateAt ((d, env.maxSnapDevices - 1, 0), ⟨[], []⟩) with
  | error e s =>
      rw [hres] at hloop
      exact hloop
  | ok r s =>
      rw [hres] at hloop
      obtain ⟨hstate, hnot⟩ := hloop
      refine ⟨?_, hnot⟩
      dsimp only
      rw [hstate]
      rfl

theorem scanRecalculate_not_fits : ¬ Fits env (traceOf (scanRecalculate env (d, ⟨[], []⟩))) := by
  have hwp := scanRecalculate_wp env d
  unfold wp at hwp
  cases hres : scanRecalculate env (d, ⟨[], []⟩) with
  | ok u s =>
      rw [hres] at hwp
      exact hwp.2
  | error e s =>
      rw [hres] at hwp
      exact hwp.elim

end ElastioSnap.Driver.Passes
