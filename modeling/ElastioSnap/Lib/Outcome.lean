import Mathlib.Logic.Basic

namespace ElastioSnap.Lib.Outcome

variable {ε σ α β : Type}

/-- The computations are functions on a state that survives a failure. `wp x s Q E`
says what holds after `x` was started in `s`: `Q` where it returned, `E` where it failed. -/
def wp (x : EStateM ε σ α) (s : σ) (Q : α → σ → Prop) (E : ε → σ → Prop) : Prop :=
  match x s with
  | .ok a t => Q a t
  | .error e t => E e t

variable {x : EStateM ε σ α} {f : α → EStateM ε σ β} {s t : σ} {a : α} {e : ε}
  {Q Q' : α → σ → Prop} {R : β → σ → Prop} {E E' : ε → σ → Prop}

theorem get_apply : (get : EStateM ε σ σ) s = .ok s s := rfl

theorem modify_apply {g : σ → σ} : (modify g : EStateM ε σ PUnit) s = .ok ⟨⟩ (g s) := rfl

@[simp] theorem wp_pure : wp (pure a) s Q E ↔ Q a s := Iff.rfl

@[simp] theorem wp_throw : wp (throw e : EStateM ε σ α) s Q E ↔ E e s := Iff.rfl

@[simp] theorem wp_get {Q : σ → σ → Prop} : wp (get : EStateM ε σ σ) s Q E ↔ Q s s := Iff.rfl

@[simp] theorem wp_set {Q : PUnit → σ → Prop} : wp (set t : EStateM ε σ PUnit) s Q E ↔ Q ⟨⟩ t := Iff.rfl

@[simp] theorem wp_modify {g : σ → σ} {Q : PUnit → σ → Prop} :
    wp (modify g : EStateM ε σ PUnit) s Q E ↔ Q ⟨⟩ (g s) := Iff.rfl

@[simp] theorem wp_bind : wp (x >>= f) s R E ↔ wp x s (fun a t => wp (f a) t R E) E := by
  change wp (EStateM.bind x f) s R E ↔ _
  unfold wp EStateM.bind
  cases x s <;> rfl

@[simp] theorem wp_map {g : α → β} : wp (g <$> x) s R E ↔ wp x s (fun a t => R (g a) t) E := by
  change wp (EStateM.map g x) s R E ↔ _
  unfold wp EStateM.map
  cases x s <;> rfl

@[simp] theorem wp_ite {c : Prop} [Decidable c] {y : EStateM ε σ α} :
    wp (if c then x else y) s Q E ↔ if c then wp x s Q E else wp y s Q E := by
  split <;> rfl

theorem wp_mono (h : wp x s Q E) (hQ : ∀ a t, Q a t → Q' a t) (hE : ∀ e t, E e t → E' e t) :
    wp x s Q' E' := by
  unfold wp at h ⊢
  cases hx : x s with
  | ok a t => rw [hx] at h; exact hQ a t h
  | error e t => rw [hx] at h; exact hE e t h

theorem wp_and (h : wp x s Q E) (h' : wp x s Q' E') :
    wp x s (fun a t => Q a t ∧ Q' a t) (fun e t => E e t ∧ E' e t) := by
  unfold wp at h h' ⊢
  cases hx : x s with
  | ok a t => rw [hx] at h h'; exact ⟨h, h'⟩
  | error e t => rw [hx] at h h'; exact ⟨h, h'⟩

theorem wp_const {P : Prop} : wp x s (fun _ _ => P) (fun _ _ => P) ↔ P := by
  unfold wp
  cases x s <;> rfl

/-- A specification read off at a run that returned. -/
theorem wp_ok (h : wp x s Q E) (hx : x s = .ok a t) : Q a t := by
  unfold wp at h
  rw [hx] at h
  exact h

theorem wp_error (h : wp x s Q E) (hx : x s = .error e t) : E e t := by
  unfold wp at h
  rw [hx] at h
  exact h

/-- Where failure is excluded the computation returns. -/
theorem wp_total (h : wp x s Q (fun _ _ => False)) : ∃ a t, x s = .ok a t ∧ Q a t := by
  unfold wp at h
  cases hx : x s with
  | ok a t => rw [hx] at h; exact ⟨a, t, rfl, h⟩
  | error e t => rw [hx] at h; exact h.elim

/-- A handler that runs `g` on the state a failure leaves and fails with the same error. -/
def onError (x : EStateM ε σ α) (g : EStateM ε σ PUnit) : EStateM ε σ α := fun s =>
  match x s with
  | .ok a t => .ok a t
  | .error e t =>
      match g t with
      | .ok _ u => .error e u
      | .error e' u => .error e' u

theorem wp_onError {g : EStateM ε σ PUnit} :
    wp (onError x g) s Q E ↔ wp x s Q (fun e t => wp g t (fun _ u => E e u) E) := by
  unfold wp onError
  cases x s with
  | ok a t => rfl
  | error e t => dsimp only; cases g t <;> rfl

/-- What the handler brings about after every failure. -/
theorem wp_onError_any {g : EStateM ε σ PUnit} {F : σ → Prop} (hx : wp x s Q fun _ _ => True)
    (hg : ∀ t, wp g t (fun _ => F) (fun _ => F)) : wp (onError x g) s Q (fun _ => F) := by
  rw [wp_onError]
  exact wp_mono hx (fun _ _ h => h) fun _ t _ => hg t

theorem bind_ok {b : β} : (x >>= f) s = .ok b t ↔ ∃ a u, x s = .ok a u ∧ f a u = .ok b t := by
  change EStateM.bind x f s = _ ↔ _
  rw [EStateM.bind]
  cases x s with
  | ok a u =>
      constructor
      · exact fun h => ⟨a, u, rfl, h⟩
      · rintro ⟨_, _, h, hf⟩
        cases h
        exact hf
  | error e u =>
      constructor
      · intro h
        cases h
      · rintro ⟨_, _, h, _⟩
        cases h

/-- A computation that returned did not come to its handler. -/
theorem onError_ok {g : EStateM ε σ PUnit} (h : onError x g s = .ok a t) : x s = .ok a t := by
  rw [onError] at h
  cases hx : x s with
  | ok b u =>
      rw [hx] at h
      exact h
  | error e u =>
      rw [hx] at h
      dsimp only at h
      split at h <;> cases h

/-- A handler that takes over from a failure, on the state it leaves. -/
def recover (x : EStateM ε σ α) (h : ε → EStateM ε σ α) : EStateM ε σ α := fun s =>
  match x s with
  | .ok a t => .ok a t
  | .error e t => h e t

theorem wp_recover {h : ε → EStateM ε σ α} :
    wp (recover x h) s Q E ↔ wp x s Q (fun e t => wp (h e) t Q E) := by
  unfold wp recover
  cases x s <;> rfl

/-- A computation keeps a part of the state, also where it fails. -/
def Preserves {γ : Type} (g : σ → γ) (x : EStateM ε σ α) : Prop :=
  ∀ s, wp x s (fun _ t => g t = g s) (fun _ t => g t = g s)

variable {γ δ : Type} {g : σ → γ}

theorem Preserves.comp (h : Preserves g x) (f : γ → δ) : Preserves (fun s => f (g s)) x :=
  fun s => wp_mono (h s) (fun _ _ he => congrArg f he) (fun _ _ he => congrArg f he)

theorem preserves_pure : Preserves g (pure a : EStateM ε σ α) := fun _ => rfl

theorem preserves_throw : Preserves g (throw e : EStateM ε σ α) := fun _ => rfl

theorem preserves_get : Preserves g (get : EStateM ε σ σ) := fun _ => rfl

theorem preserves_modify {f : σ → σ} (h : ∀ s, g (f s) = g s) : Preserves g (modify f : EStateM ε σ PUnit) := h

theorem Preserves.bind (hx : Preserves g x) (hf : ∀ a, Preserves g (f a)) : Preserves g (x >>= f) := by
  intro s
  rw [wp_bind]
  exact wp_mono (hx s)
    (fun a t ht => wp_mono (hf a t) (fun _ _ h => h.trans ht) (fun _ _ h => h.trans ht)) fun _ _ h => h

theorem Preserves.ite {c : Prop} [Decidable c] {y : EStateM ε σ α} (hx : Preserves g x) (hy : Preserves g y) :
    Preserves g (if c then x else y) := by
  split
  · exact hx
  · exact hy

theorem Preserves.onError {h : EStateM ε σ PUnit} (hx : Preserves g x) (hh : Preserves g h) :
    Preserves g (Outcome.onError x h) := by
  intro s
  rw [wp_onError]
  exact wp_mono (hx s) (fun _ _ he => he)
    fun _ t ht => wp_mono (hh t) (fun _ _ h => h.trans ht) (fun _ _ h => h.trans ht)

theorem Preserves.recover {h : ε → EStateM ε σ α} (hx : Preserves g x) (hh : ∀ e, Preserves g (h e)) :
    Preserves g (Outcome.recover x h) := by
  intro s
  rw [wp_recover]
  exact wp_mono (hx s) (fun _ _ he => he)
    fun e t ht => wp_mono (hh e t) (fun _ _ h => h.trans ht) (fun _ _ h => h.trans ht)

/-- A computation takes a state only to related ones, also where it fails. -/
def Relates (R : σ → σ → Prop) (x : EStateM ε σ α) : Prop :=
  ∀ s, wp x s (fun _ t => R s t) (fun _ t => R s t)

theorem Preserves.relates (h : Preserves g x) {R : σ → σ → Prop} (hr : ∀ s t, g t = g s → R s t) : Relates R x :=
  fun s => wp_mono (h s) (fun _ t ht => hr s t ht) fun _ t ht => hr s t ht

variable {R : σ → σ → Prop}

theorem relates_pure [Std.Refl R] : Relates R (pure a : EStateM ε σ α) := fun s => Std.Refl.refl s

theorem relates_throw [Std.Refl R] : Relates R (throw e : EStateM ε σ α) := fun s => Std.Refl.refl s

theorem relates_get [Std.Refl R] : Relates R (get : EStateM ε σ σ) := fun s => Std.Refl.refl s

theorem relates_modify {f : σ → σ} (h : ∀ s, R s (f s)) : Relates R (modify f : EStateM ε σ PUnit) := h

theorem Relates.ite {c : Prop} [Decidable c] {y : EStateM ε σ α} (hx : Relates R x) (hy : Relates R y) :
    Relates R (if c then x else y) := by
  split
  · exact hx
  · exact hy

section

variable [Trans R R R]

theorem wp_relates_bind (hx : wp x s (fun _ t => R s t) (fun _ t => R s t)) (hf : ∀ a, Relates R (f a)) :
    wp (x >>= f) s (fun _ t => R s t) (fun _ t => R s t) := by
  rw [wp_bind]
  exact wp_mono hx
    (fun a t ht => wp_mono (hf a t) (fun _ _ h => Trans.trans ht h) (fun _ _ h => Trans.trans ht h)) fun _ _ h => h

theorem Relates.bind (hx : Relates R x) (hf : ∀ a, Relates R (f a)) : Relates R (x >>= f) :=
  fun s => wp_relates_bind (hx s) hf

theorem Relates.onError {h : EStateM ε σ PUnit} (hx : Relates R x) (hh : Relates R h) :
    Relates R (Outcome.onError x h) := by
  intro s
  rw [wp_onError]
  exact wp_mono (hx s) (fun _ _ he => he)
    fun _ t ht => wp_mono (hh t) (fun _ _ h => Trans.trans ht h) (fun _ _ h => Trans.trans ht h)

theorem Relates.recover {h : ε → EStateM ε σ α} (hx : Relates R x) (hh : ∀ e, Relates R (h e)) :
    Relates R (Outcome.recover x h) := by
  intro s
  rw [wp_recover]
  exact wp_mono (hx s) (fun _ _ he => he)
    fun e t ht => wp_mono (hh e t) (fun _ _ h => Trans.trans ht h) (fun _ _ h => Trans.trans ht h)

end

/-- A state that meets a condition is taken to one that meets it too. -/
def Carries (I : σ → Prop) (s t : σ) : Prop := I s → I t

variable {I : σ → Prop}

instance : Std.Refl (Carries I) := ⟨fun _ h => h⟩

instance : Trans (Carries I) (Carries I) (Carries I) := ⟨fun h h' hs => h' (h hs)⟩

/-- A computation keeps an invariant, also where it fails. -/
abbrev Keeps (I : σ → Prop) (x : EStateM ε σ α) : Prop := Relates (Carries I) x

theorem keeps_iff : Keeps I x ↔ ∀ s, I s → wp x s (fun _ t => I t) (fun _ t => I t) := by
  constructor
  · exact fun h s hs => wp_mono (h s) (fun _ _ ht => ht hs) fun _ _ ht => ht hs
  · intro h s
    unfold wp
    cases hx : x s with
    | ok a t => exact fun hs => wp_ok (h s hs) hx
    | error e t => exact fun hs => wp_error (h s hs) hx

/-- What is known of the result may be used in what follows. -/
theorem Keeps.bind_of {P : α → Prop} (hx : ∀ s, I s → wp x s (fun a t => I t ∧ P a) (fun _ t => I t))
    (hf : ∀ a, P a → Keeps I (f a)) : Keeps I (x >>= f) := by
  rw [keeps_iff]
  intro s hs
  rw [wp_bind]
  exact wp_mono (hx s hs) (fun a t ht => keeps_iff.mp (hf a ht.2) t ht.1) fun _ _ ht => ht

end ElastioSnap.Lib.Outcome
