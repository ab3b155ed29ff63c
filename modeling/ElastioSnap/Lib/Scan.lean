import ElastioSnap.Lib.Extend
import Mathlib.Data.List.Range

namespace ElastioSnap.Lib.Scan

open Outcome Extend

/-- What a loop over a table has done: the elements that its header fetched, and those that its body was run at. -/
structure Trace where
  fetched : List Nat
  visited : List Nat

variable {ε σ α : Type}

def fetch (i : Nat) : EStateM ε (σ × Trace) Unit := note fun _ t => { t with fetched := t.fetched ++ [i] }

def visit (i : Nat) : EStateM ε (σ × Trace) Unit := note fun _ t => { t with visited := t.visited ++ [i] }

/-- The rounds from `i` on, not more than `fuel`. The header fetches the next element before it looks whether there
is one, and the body may leave the loop with a result. -/
def rounds (inside : σ → Nat → Bool) (body : Nat → EStateM ε σ (Option α)) :
    Nat → Nat → EStateM ε (σ × Trace) (Option α)
  | 0, _ => pure none
  | fuel + 1, i => do
      if inside (← lift get) i then
        visit i
        match ← lift (body i) with
        | some r => pure (some r)
        | none =>
            fetch (i + 1)
            rounds inside body fuel (i + 1)
      else pure none

def loop (inside : σ → Nat → Bool) (body : Nat → EStateM ε σ (Option α)) (fuel first : Nat) :
    EStateM ε (σ × Trace) (Option α) := do
  fetch first
  rounds inside body fuel first

theorem rounds_out {inside : σ → Nat → Bool} {body : Nat → EStateM ε σ (Option α)} {fuel i : Nat} {u : σ} {t : Trace}
    (h : inside u i = false) : rounds inside body (fuel + 1) i (u, t) = .ok none (u, t) := by
  rw [rounds]
  change (if inside u i = true then _ else _ : EStateM ε (σ × Trace) (Option α)) (u, t) = _
  rw [if_neg (by rw [h]; exact Bool.false_ne_true)]
  rfl

theorem rounds_in {inside : σ → Nat → Bool} {body : Nat → EStateM ε σ (Option α)} {fuel i : Nat} {u : σ} {t : Trace}
    (h : inside u i = true) : rounds inside body (fuel + 1) i (u, t) = match body i u with
      | .ok (some r) v => .ok (some r) (v, ⟨t.fetched, t.visited ++ [i]⟩)
      | .ok none v => rounds inside body fuel (i + 1) (v, ⟨t.fetched ++ [i + 1], t.visited ++ [i]⟩)
      | .error e v => .error e (v, ⟨t.fetched, t.visited ++ [i]⟩) := by
  rw [rounds]
  change (if inside u i = true then _ else _ : EStateM ε (σ × Trace) (Option α)) (u, t) = _
  rw [if_pos h]
  change EStateM.bind _ _ (u, (⟨t.fetched, t.visited ++ [i]⟩ : Trace)) = _
  simp only [EStateM.bind, lift, watch]
  cases body i u with
  | error e v => rfl
  | ok r v => cases r <;> rfl

/-- The rounds `i`, …, `i + k - 1` were begun, the last of which may have left the loop. -/
structure Went (i k : Nat) (left : Bool) (t t' : Trace) : Prop where
  visited : t'.visited = t.visited ++ List.range' i k
  fetched : t'.fetched = t.fetched ++ List.range' (i + 1) (if left then k - 1 else k)
  begun : left = true → 0 < k

variable {inside : σ → Nat → Bool} {body : Nat → EStateM ε σ (Option α)} {fuel i k : Nat} {s : σ × Trace} {t t' : Trace}
  {left : Bool}

theorem went_none : Went i 0 false t t := ⟨(List.append_nil _).symm, (List.append_nil _).symm, fun h => by cases h⟩

theorem went_left : Went i 1 true t { t with visited := t.visited ++ [i] } :=
  ⟨rfl, (List.append_nil _).symm, fun _ => Nat.one_pos⟩

theorem Went.cons (h : Went (i + 1) k left ⟨t.fetched ++ [i + 1], t.visited ++ [i]⟩ t') : Went i (k + 1) left t t' where
  visited := by
    rw [h.visited, List.append_assoc, List.range'_succ]
    rfl
  fetched := by
    rw [h.fetched, List.append_assoc]
    cases left with
    | false => rfl
    | true =>
        obtain ⟨m, rfl⟩ := Nat.exists_eq_succ_of_ne_zero (h.begun rfl).ne'
        rfl
  begun _ := Nat.succ_pos k

/-- The rule of the loop: an invariant of its header holds where the loop ends, unless the body has left it. -/
theorem rounds_wp {I : Nat → σ → Prop} {J : α → σ → Prop} {E : ε → σ → Prop} {P : Nat → Prop} (hI : I i s.1)
    (hP : ∀ i u, I i u → inside u i = true → P i)
    (hbody : ∀ i u, I i u → inside u i = true →
      wp (body i) u (fun r v => (r = none → I (i + 1) v) ∧ ∀ x, r = some x → J x v) E) :
    wp (rounds inside body fuel i) s
      (fun r s' => (∃ k, Went i k r.isSome s.2 s'.2 ∧ (∀ j, i ≤ j → j < i + k → P j) ∧
        (r = none → I (i + k) s'.1 ∧ (k = fuel ∨ inside s'.1 (i + k) = false))) ∧ ∀ x, r = some x → J x s'.1)
      (fun e s' => (∃ k, Went i k true s.2 s'.2 ∧ ∀ j, i ≤ j → j < i + k → P j) ∧ E e s'.1) := by
  induction fuel generalizing i s with
  | zero => exact ⟨⟨0, went_none, fun j hi hj => by omega, fun _ => ⟨hI, .inl rfl⟩⟩, fun _ h => by cases h⟩
  | succ fuel ih =>
      rw [rounds, wp_bind, wp_lift, wp_get, wp_ite]
      split
      next hin =>
        have hfirst : ∀ {k : Nat}, (∀ j, i + 1 ≤ j → j < i + 1 + k → P j) → ∀ j, i ≤ j → j < i + (k + 1) → P j := by
          intro k hk j hi hj
          by_cases hj' : j = i
          · exact hj' ▸ hP i s.1 hI hin
          · exact hk j (by omega) (by omega)
        have hone : ∀ j, i ≤ j → j < i + (0 + 1) → P j := hfirst fun j hi hj => by omega
        rw [visit, wp_bind, wp_note, wp_bind, wp_lift]
        refine wp_mono (hbody i s.1 hI hin) (fun r u hu => ?_) fun _ u hu => ?_
        · cases r with
          | some r => exact ⟨⟨1, went_left, hone, fun h => by cases h⟩, hu.2⟩
          | none =>
              dsimp only
              rw [fetch, wp_bind, wp_note]
              refine wp_mono (ih (hu.1 rfl)) ?_ ?_
              · rintro r s' ⟨⟨k, hwent, hk, hend⟩, hleft⟩
                refine ⟨⟨k + 1, hwent.cons, hfirst hk, fun h => ?_⟩, hleft⟩
                obtain ⟨hI', hend'⟩ := hend h
                rw [Nat.add_right_comm i 1 k] at hI' hend'
                exact ⟨hI', hend'.imp_left (congrArg Nat.succ)⟩
              · rintro _ s' ⟨⟨k, hwent, hk⟩, hE⟩
                exact ⟨⟨k + 1, hwent.cons, hfirst hk⟩, hE⟩
        · exact ⟨⟨1, went_left, hone⟩, hu⟩
      next hout =>
        exact ⟨⟨0, went_none, fun j hi hj => by omega, fun _ => ⟨hI, .inr (Bool.eq_false_iff.mpr hout)⟩⟩,
          fun _ h => by cases h⟩

/-- A pass over the table: `k` rounds from the first element on. -/
structure Pass (first k : Nat) (left : Bool) (t : Trace) : Prop where
  visited : t.visited = List.range' first k
  fetched : t.fetched = List.range' first (if left then k else k + 1)
  begun : left = true → 0 < k

theorem Went.pass (h : Went i k left ⟨[i], []⟩ t') : Pass i k left t' where
  visited := h.visited
  fetched := by
    rw [h.fetched]
    cases left with
    | false => rfl
    | true =>
        obtain ⟨m, rfl⟩ := Nat.exists_eq_succ_of_ne_zero (h.begun rfl).ne'
        rfl
  begun := h.begun

theorem loop_wp {I : Nat → σ → Prop} {J : α → σ → Prop} {E : ε → σ → Prop} {P : Nat → Prop} {u : σ} (hI : I i u)
    (hP : ∀ i u, I i u → inside u i = true → P i)
    (hbody : ∀ i u, I i u → inside u i = true →
      wp (body i) u (fun r v => (r = none → I (i + 1) v) ∧ ∀ x, r = some x → J x v) E) :
    wp (loop inside body fuel i) (u, ⟨[], []⟩)
      (fun r s' => (∃ k, Pass i k r.isSome s'.2 ∧ (∀ j, i ≤ j → j < i + k → P j) ∧
        (r = none → I (i + k) s'.1 ∧ (k = fuel ∨ inside s'.1 (i + k) = false))) ∧ ∀ x, r = some x → J x s'.1)
      (fun e s' => (∃ k, Pass i k true s'.2 ∧ ∀ j, i ≤ j → j < i + k → P j) ∧ E e s'.1) := by
  rw [loop, fetch, wp_bind, wp_note]
  refine wp_mono (rounds_wp hI hP hbody) ?_ ?_
  · rintro r s' ⟨⟨k, hwent, hk⟩, hleft⟩
    exact ⟨⟨k, hwent.pass, hk⟩, hleft⟩
  · rintro _ s' ⟨⟨k, hwent, hk⟩, hE⟩
    exact ⟨⟨k, hwent.pass, hk⟩, hE⟩

variable {first m : Nat}

theorem Pass.mem_visited (h : Pass first k left t) : i ∈ t.visited ↔ first ≤ i ∧ i < first + k := by
  rw [h.visited, List.mem_range'_1]

theorem Pass.nodup (h : Pass first k left t) : t.visited.Nodup := h.visited ▸ List.nodup_range'

/-- The header is within a bound where the loop was left below it, or ended below it. -/
theorem Pass.fetched_lt_iff (h : Pass first k left t) :
    (∀ i ∈ t.fetched, i < m) ↔ first + k ≤ m ∧ (left = false → first + k < m) := by
  rw [h.fetched]
  cases left with
  | true =>
      have hpos := h.begun rfl
      simp only [if_true, List.mem_range'_1, reduceCtorEq, false_implies, and_true]
      constructor
      · intro hall
        have hlast := hall (first + k - 1) (by omega)
        omega
      · rintro hle i ⟨-, hi⟩
        omega
  | false =>
      simp only [Bool.false_eq_true, if_false, List.mem_range'_1, forall_const]
      constructor
      · intro hall
        have hlast := hall (first + k) (by omega)
        omega
      · rintro hlt i ⟨-, hi⟩
        omega

end ElastioSnap.Lib.Scan
