import Mathlib.Data.List.Basic

namespace ElastioSnap.Lib.Precedence

variable {α : Type} {P P' Q Q' : α → Prop} {l pre post : List α} {x : α}

/-- The first member of a queue with one property has another one. -/
def First (P Q : α → Prop) : List α → Prop
  | [] => True
  | x :: xs => (P x → Q x) ∧ (¬ P x → First P Q xs)

theorem First.congr (h : First P Q l) (hP : ∀ x ∈ l, P' x ↔ P x) (hQ : ∀ x ∈ l, Q x → Q' x) : First P' Q' l := by
  induction l with
  | nil => trivial
  | cons x xs ih =>
      have hx := hP x List.mem_cons_self
      constructor
      · exact fun hp => hQ x List.mem_cons_self (h.1 (hx.mp hp))
      · intro hp
        exact ih (h.2 fun hp' => hp (hx.mpr hp')) (fun y hy => hP y (List.mem_cons_of_mem _ hy))
          fun y hy => hQ y (List.mem_cons_of_mem _ hy)

/-- A new last member matters only when none before it has the property. -/
theorem First.snoc (h : First P Q l) (hx : (∀ y ∈ l, ¬ P y) → P x → Q x) : First P Q (l ++ [x]) := by
  induction l with
  | nil => exact ⟨hx fun _ hy => (List.not_mem_nil hy).elim, fun _ => trivial⟩
  | cons y ys ih =>
      refine ⟨h.1, fun hy => ih (h.2 hy) fun hys => hx fun z hz => ?_⟩
      rcases List.mem_cons.mp hz with rfl | hz
      · exact hy
      · exact hys z hz

theorem First.erase (h : First P Q (pre ++ x :: post)) (hx : ¬ P x) : First P Q (pre ++ post) := by
  induction pre with
  | nil => exact h.2 hx
  | cons y ys ih => exact ⟨h.1, fun hy => ih (h.2 hy)⟩

theorem First.of_none (h : First P Q (pre ++ x :: post)) (hpre : ∀ y ∈ pre, ¬ P y) (hx : P x) : Q x := by
  induction pre with
  | nil => exact h.1 hx
  | cons y ys ih =>
      exact ih (h.2 (hpre y List.mem_cons_self)) fun z hz => hpre z (List.mem_cons_of_mem _ hz)

/-- A member may come to the front if no earlier one has the property along with it. -/
theorem First.move (h : First P Q (pre ++ x :: post)) (hx : ∀ y ∈ pre, ¬ (P y ∧ P x)) :
    First P Q (x :: (pre ++ post)) :=
  ⟨fun hp => h.of_none (fun y hy hpy => hx y hy ⟨hpy, hp⟩) hp, h.erase⟩

end ElastioSnap.Lib.Precedence
