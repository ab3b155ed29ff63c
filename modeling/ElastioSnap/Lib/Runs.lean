import Mathlib.Algebra.GroupWithZero.Nat
import Mathlib.Data.List.Induction

namespace ElastioSnap.Lib.Runs

variable {σ α : Type}

/-- A labelled system: a step takes an action, and `none` says that it is not enabled. -/
def run (step : σ → α → Option σ) : σ → List α → Option σ
  | s, [] => some s
  | s, a :: as => (step s a).bind fun t => run step t as

/-- The states of the runs that start at `s₀` and meet a condition at every step. -/
inductive Reach (step : σ → α → Option σ) (C : σ → α → Prop) (s₀ : σ) : σ → Prop
  | init : Reach step C s₀ s₀
  | next {s t : σ} {a : α} (h : Reach step C s₀ s) (hc : C s a) (hs : step s a = some t) :
      Reach step C s₀ t

/-- Every step of a run from `s` meets the condition in the state it starts from. -/
def Allowed (step : σ → α → Option σ) (C : σ → α → Prop) : σ → List α → Prop
  | _, [] => True
  | s, a :: as => C s a ∧ match step s a with
    | some t => Allowed step C t as
    | none => True

instance (step : σ → α → Option σ) (C : σ → α → Prop) [∀ s a, Decidable (C s a)] (s : σ) (as : List α) :
    Decidable (Allowed step C s as) :=
  match as with
  | [] => .isTrue trivial
  | a :: as =>
      have (t : σ) := instDecidableAllowed step C t as
      match h : step s a with
      | some t => decidable_of_iff (C s a ∧ Allowed step C t as) (by rw [Allowed, h])
      | none => decidable_of_iff (C s a ∧ True) (by rw [Allowed, h])

/-- How many steps of a run do more than wait. -/
def moves (step : σ → α → Option σ) (waits : σ → α → Bool) : σ → List α → Nat
  | _, [] => 0
  | s, a :: as => match step s a with
    | some t => (!waits s a).toNat + moves step waits t as
    | none => 0

variable {step : σ → α → Option σ} {C C' : σ → α → Prop} {s₀ s t : σ} {a : α} {as bs : List α}

theorem Reach.invariant {I : σ → Prop} (h : Reach step C s₀ s) (h₀ : I s₀)
    (hs : ∀ s a t, I s → C s a → step s a = some t → I t) : I s := by
  induction h with
  | init => exact h₀
  | next _ hc hstep ih => exact hs _ _ _ ih hc hstep

theorem Reach.mono (h : Reach step C s₀ s) (hc : ∀ s a, C s a → C' s a) : Reach step C' s₀ s := by
  induction h with
  | init => exact .init
  | next _ hcond hstep ih => exact ih.next (hc _ _ hcond) hstep

@[simp] theorem run_singleton : run step s [a] = step s a := by
  simp only [run]
  cases step s a <;> rfl

theorem run_append : run step s (as ++ bs) = (run step s as).bind fun t => run step t bs := by
  induction as generalizing s with
  | nil => rfl
  | cons a as ih =>
      simp only [List.cons_append, run]
      cases step s a with
      | none => rfl
      | some u => exact ih

theorem run_snoc : run step s (as ++ [a]) = (run step s as).bind fun t => step t a := by
  rw [run_append]
  congr 1
  funext t
  exact run_singleton

/-- A property of a run and of the state it ends in, from what one more step preserves. -/
theorem run_invariant {I : List α → σ → Prop} (h₀ : I [] s₀)
    (hs : ∀ as s a t, I as s → step s a = some t → I (as ++ [a]) t) (h : run step s₀ as = some s) :
    I as s := by
  induction as using List.reverseRecOn generalizing s with
  | nil =>
      cases h
      exact h₀
  | append_singleton as a ih =>
      rw [run_snoc] at h
      obtain ⟨t, ht, hstep⟩ := Option.bind_eq_some_iff.mp h
      exact hs as t a s (ih ht) hstep

theorem Allowed.cons (hc : C s a) (h : ∀ t, Allowed step C t as) : Allowed step C s (a :: as) := by
  refine ⟨hc, ?_⟩
  split
  next t _ => exact h t
  next => trivial

theorem Reach.run (hr : Reach step C s₀ s) (h : Runs.run step s as = some t) (ha : Allowed step C s as) :
    Reach step C s₀ t := by
  induction as generalizing s with
  | nil =>
      cases h
      exact hr
  | cons a as ih =>
      obtain ⟨u, hu, h⟩ := Option.bind_eq_some_iff.mp h
      simp only [Allowed, hu] at ha
      exact ih (hr.next ha.1 hu) h ha.2

/-- A system that another one simulates as long as it is intact: a step is matched by a step or by none. -/
theorem Reach.simulate {τ β : Type} {step' : τ → β → Option τ} {D : τ → β → Prop} {t₀ : τ} {Intact : σ → Prop}
    {R : σ → τ → Prop} (h : Reach step C s₀ s) (h₀ : R s₀ t₀)
    (hback : ∀ s a s', step s a = some s' → Intact s' → Intact s)
    (hstep : ∀ s a s' t, Reach step' D t₀ t → R s t → C s a → step s a = some s' → Intact s' →
      R s' t ∨ ∃ b t', D t b ∧ step' t b = some t' ∧ R s' t') (hi : Intact s) :
    ∃ t, Reach step' D t₀ t ∧ R s t := by
  induction h with
  | init => exact ⟨t₀, .init, h₀⟩
  | next _ hc hs ih =>
      obtain ⟨t, ht, hr⟩ := ih (hback _ _ _ hs hi)
      rcases hstep _ _ _ t ht hr hc hs hi with hr' | ⟨b, t', hd, hb, hr'⟩
      · exact ⟨t, ht, hr'⟩
      · exact ⟨t', ht.next hd hb, hr'⟩

/-- A rank bounds the length of a run if every step lowers it that does more than wait, and none raises it by
more than it is worth. -/
theorem moves_le {waits : σ → α → Bool} {rank : σ → Nat} {worth : α → Nat} {I : σ → Prop} (hi : I s)
    (hstep : ∀ s a t, I s → a ∈ as → step s a = some t → I t ∧ (!waits s a).toNat + rank t ≤ rank s + worth a)
    (h : Runs.run step s as = some t) : moves step waits s as + rank t ≤ rank s + (as.map worth).sum := by
  induction as generalizing s with
  | nil =>
      cases h
      exact Nat.le_of_eq (Nat.zero_add _)
  | cons a as ih =>
      obtain ⟨u, hu, h⟩ := Option.bind_eq_some_iff.mp h
      obtain ⟨hiu, hone⟩ := hstep s a u hi List.mem_cons_self hu
      have hrest := ih hiu (fun s b t hs hb => hstep s b t hs (List.mem_cons_of_mem _ hb)) h
      simp only [moves, hu, List.map_cons, List.sum_cons]
      omega

theorem reach_of_run (h : run step s₀ as = some s) (hc : ∀ s a, C s a) : Reach step C s₀ s :=
  run_invariant (I := fun _ t => Reach step C s₀ t) Reach.init
    (fun _ _ _ _ hr hstep => hr.next (hc _ _) hstep) h

end ElastioSnap.Lib.Runs
