import ElastioSnap.Lib.Outcome

namespace ElastioSnap.Lib.Extend

open Outcome

variable {ε σ τ α β : Type}

/-- A computation on the first part of a state, after which the second part is brought up to date. -/
def watch (f : σ → τ → τ) (x : EStateM ε σ α) : EStateM ε (σ × τ) α := fun s =>
  match x s.1 with
  | .ok a t => .ok a (t, f t s.2)
  | .error e t => .error e (t, f t s.2)

def lift (x : EStateM ε σ α) : EStateM ε (σ × τ) α := watch (fun _ u => u) x

def note (f : σ → τ → τ) : EStateM ε (σ × τ) Unit := modify fun s => (s.1, f s.1 s.2)

/-- The first part of the state a computation ends in. -/
def erase : EStateM.Result ε (σ × τ) α → EStateM.Result ε σ α
  | .ok a t => .ok a t.1
  | .error e t => .error e t.1

/-- A computation on the larger state does to its first part what `x` does. -/
def Extends (y : EStateM ε (σ × τ) α) (x : EStateM ε σ α) : Prop := ∀ s, erase (y s) = x s.1

variable {x : EStateM ε σ α} {y : EStateM ε (σ × τ) α} {f : σ → τ → τ} {s : σ × τ} {a : α} {e : ε}

theorem wp_watch {Q : α → σ × τ → Prop} {E : ε → σ × τ → Prop} :
    wp (watch f x) s Q E ↔ wp x s.1 (fun a t => Q a (t, f t s.2)) (fun e t => E e (t, f t s.2)) := by
  unfold wp watch
  cases x s.1 <;> rfl

@[simp] theorem wp_lift {Q : α → σ × τ → Prop} {E : ε → σ × τ → Prop} :
    wp (lift x) s Q E ↔ wp x s.1 (fun a t => Q a (t, s.2)) (fun e t => E e (t, s.2)) := wp_watch

@[simp] theorem wp_note {Q : Unit → σ × τ → Prop} {E : ε → σ × τ → Prop} :
    wp (note f) s Q E ↔ Q () (s.1, f s.1 s.2) := Iff.rfl

theorem extends_watch : Extends (watch f x) x := by
  intro s
  rw [watch]
  cases x s.1 <;> rfl

theorem extends_lift : Extends (lift x : EStateM ε (σ × τ) α) x := extends_watch

theorem extends_note : Extends (note f : EStateM ε (σ × τ) Unit) (pure ()) := fun _ => rfl

theorem extends_pure : Extends (pure a : EStateM ε (σ × τ) α) (pure a) := fun _ => rfl

theorem extends_throw : Extends (throw e : EStateM ε (σ × τ) α) (throw e) := fun _ => rfl

theorem Extends.bind {g : α → EStateM ε (σ × τ) β} {h : α → EStateM ε σ β} (hy : Extends y x)
    (hg : ∀ a, Extends (g a) (h a)) : Extends (y >>= g) (x >>= h) := by
  intro s
  have hs := hy s
  change erase (EStateM.bind y g s) = EStateM.bind x h s.1
  rw [EStateM.bind, EStateM.bind, ← hs]
  cases y s with
  | ok a t => exact hg a t
  | error e t => rfl

/-- What is noted at the end does not show. -/
theorem Extends.noted {x : EStateM ε σ Unit} {y : EStateM ε (σ × τ) Unit} (hy : Extends y x) :
    Extends (y >>= fun _ => note f) x := by
  intro s
  have hs := hy s
  change erase (EStateM.bind y _ s) = _
  rw [EStateM.bind, ← hs]
  cases y s <;> rfl

theorem Extends.ite {c : Prop} [Decidable c] {x' : EStateM ε σ α} {y' : EStateM ε (σ × τ) α} (hy : Extends y x)
    (hy' : Extends y' x') : Extends (if c then y else y') (if c then x else x') := by
  split
  · exact hy
  · exact hy'

theorem Extends.onError {g : EStateM ε (σ × τ) PUnit} {h : EStateM ε σ PUnit} (hy : Extends y x)
    (hg : Extends g h) : Extends (Outcome.onError y g) (Outcome.onError x h) := by
  intro s
  have hs := hy s
  rw [Outcome.onError, Outcome.onError, ← hs]
  cases y s with
  | ok a t => rfl
  | error e t =>
      have ht := hg t
      simp only [erase]
      rw [← ht]
      cases g t <;> rfl

theorem lift_bind {f : α → EStateM ε σ β} :
    (lift (x >>= f) : EStateM ε (σ × τ) β) = lift x >>= fun a => lift (f a) := by
  funext s
  have hx : (x >>= f) s.1 = EStateM.bind x f s.1 := rfl
  have hy : (lift x >>= fun a => lift (f a) : EStateM ε (σ × τ) β) s = EStateM.bind (lift x) (fun a => lift (f a)) s := rfl
  rw [hy]
  unfold lift watch
  rw [hx]
  unfold EStateM.bind
  dsimp only
  cases x s.1 <;> rfl

/-- A run of `x` is the first part of one on the larger state. -/
theorem Extends.ok (h : Extends y x) {u : τ} {s t : σ} (hx : x s = .ok a t) : ∃ v, y (s, u) = .ok a (t, v) := by
  have hs := h (s, u)
  dsimp only at hs
  rw [hx] at hs
  cases hy : y (s, u) with
  | ok b r =>
      rw [hy] at hs
      cases hs
      exact ⟨r.2, rfl⟩
  | error e r =>
      rw [hy] at hs
      cases hs

/-- What is said of the first part of the larger state only, is said of `x`. -/
theorem Extends.wp_iff (h : Extends y x) {Q : α → σ → Prop} {E : ε → σ → Prop} :
    wp y s (fun a t => Q a t.1) (fun e t => E e t.1) ↔ wp x s.1 Q E := by
  have hs := h s
  unfold wp
  rw [← hs]
  cases y s <;> rfl

variable {I : σ → Prop} {J : τ → Prop}

theorem keeps_lift (h : Keeps I x) : Keeps (fun s : σ × τ => I s.1 ∧ J s.2) (lift x) := by
  rw [keeps_iff]
  rintro s ⟨hs, hj⟩
  rw [wp_lift]
  exact wp_mono (keeps_iff.mp h s.1 hs) (fun _ _ ht => ⟨ht, hj⟩) fun _ _ ht => ⟨ht, hj⟩

theorem keeps_note (h : ∀ t u, J u → J (f t u)) : Keeps (fun s : σ × τ => I s.1 ∧ J s.2) (note f : EStateM ε (σ × τ) Unit) :=
  fun s hs => ⟨hs.1, h s.1 s.2 hs.2⟩

theorem keeps_lift_snd : Keeps (fun s : σ × τ => J s.2) (lift x) := by
  rw [keeps_iff]
  intro s hs
  rw [wp_lift]
  exact wp_const.mpr hs

/-- An invariant of the larger state gives one of its first part. -/
theorem Extends.keeps (h : Extends y x) (u : τ) (hu : J u) (hy : Keeps (fun s : σ × τ => I s.1 ∧ J s.2) y) : Keeps I x := by
  rw [keeps_iff]
  intro s hs
  have hwp := keeps_iff.mp hy (s, u) ⟨hs, hu⟩
  exact (h.wp_iff (s := (s, u))).mp (wp_mono hwp (fun _ _ ht => ht.1) fun _ _ ht => ht.1)

end ElastioSnap.Lib.Extend
