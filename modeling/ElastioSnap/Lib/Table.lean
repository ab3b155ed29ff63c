import Mathlib.Algebra.GroupWithZero.Nat
import Mathlib.Data.List.Basic

namespace ElastioSnap.Lib.Table

variable {α : Type} {l : List α} {a b c : α} {f : α → α} {p : α → Bool} {i j : Nat}

/-- An entry of a table after one entry was set. -/
theorem set_some (h : (l.set i a)[j]? = some b) : (i = j ∧ b = a) ∨ (i ≠ j ∧ l[j]? = some b) := by
  rw [List.getElem?_set] at h
  split at h
  next hij =>
    split at h
    next => exact .inl ⟨hij, (Option.some.inj h).symm⟩
    next => cases h
  next hij => exact .inr ⟨hij, h⟩

theorem set_self (h : l[i]? = some a) : (l.set i b)[i]? = some b :=
  List.getElem?_set_self (List.getElem?_eq_some_iff.mp h).1

theorem set_other (hij : i ≠ j) : (l.set i b)[j]? = l[j]? :=
  List.getElem?_set_ne hij

theorem modify_some (h : (l.modify i f)[j]? = some b) :
    (i = j ∧ ∃ a, l[j]? = some a ∧ b = f a) ∨ (i ≠ j ∧ l[j]? = some b) := by
  by_cases hij : i = j
  · subst hij
    rw [List.getElem?_modify_eq] at h
    obtain ⟨a, ha, hb⟩ := Option.map_eq_some_iff.mp h
    exact .inl ⟨rfl, a, ha, hb.symm⟩
  · rw [List.getElem?_modify_ne _ _ hij] at h
    exact .inr ⟨hij, h⟩

theorem modify_self (h : l[i]? = some a) : (l.modify i f)[i]? = some (f a) := by
  rw [List.getElem?_modify_eq, h]
  rfl

theorem modify_eq_set (h : l[i]? = some a) : l.modify i f = l.set i (f a) := by
  apply List.ext_getElem?
  intro j
  by_cases hij : i = j
  · subst hij
    rw [modify_self h, set_self h]
  · rw [List.getElem?_modify_ne _ _ hij, set_other hij]

/-- A map commutes with the change of one entry if it does so with the change. -/
theorem map_modify {β : Type} {g : α → β} {f' : β → β} (h : ∀ a, g (f a) = f' (g a)) :
    (l.modify i f).map g = (l.map g).modify i f' := by
  induction l generalizing i with
  | nil => cases i <;> rfl
  | cons a l ih =>
      cases i with
      | zero => simp only [List.modify_zero_cons, List.map_cons, h]
      | succ i => simp only [List.modify_succ_cons, List.map_cons, ih]

theorem append_some (h : (l ++ [a])[j]? = some b) : l[j]? = some b ∨ (j = l.length ∧ b = a) := by
  rw [List.getElem?_append] at h
  split at h
  next => exact .inl h
  next hl =>
    rw [List.getElem?_singleton] at h
    split at h
    next h0 => exact .inr ⟨by omega, (Option.some.inj h).symm⟩
    next => cases h

theorem append_old (h : l[j]? = some b) : (l ++ [a])[j]? = some b := by
  rw [List.getElem?_append_left (List.getElem?_eq_some_iff.mp h).1, h]

/-- Setting one entry moves a count by what that entry counted before and counts now. -/
theorem countP_set (h : l[i]? = some a) :
    (l.set i b).countP p + (p a).toNat = l.countP p + (p b).toNat := by
  induction l generalizing i with
  | nil => cases h
  | cons c cs ih =>
      cases i with
      | zero =>
          cases h
          rw [List.set_cons_zero, List.countP_cons, List.countP_cons]
          cases p a <;> cases p b <;> rfl
      | succ i =>
          have := ih h
          rw [List.set_cons_succ, List.countP_cons, List.countP_cons]
          omega

theorem countP_set_same (h : l[i]? = some a) (hp : p b = p a) : (l.set i b).countP p = l.countP p := by
  have := countP_set (b := b) (p := p) h
  rw [hp] at this
  omega

theorem countP_modify_same (h : l[i]? = some a) (hp : p (f a) = p a) :
    (l.modify i f).countP p = l.countP p := by
  rw [modify_eq_set h]
  exact countP_set_same h hp

theorem countP_snoc : (l ++ [a]).countP p = l.countP p + (p a).toNat := by
  rw [List.countP_append, List.countP_singleton]
  cases p a <;> rfl

/-- Setting one entry moves a sum by what that entry weighed before and weighs now. -/
theorem sum_set {f : α → Nat} (h : l[i]? = some a) :
    ((l.set i b).map f).sum + f a = (l.map f).sum + f b := by
  induction l generalizing i with
  | nil => cases h
  | cons c cs ih =>
      cases i with
      | zero =>
          cases h
          rw [List.set_cons_zero, List.map_cons, List.map_cons, List.sum_cons, List.sum_cons]
          omega
      | succ i =>
          have := ih h
          rw [List.set_cons_succ, List.map_cons, List.map_cons, List.sum_cons, List.sum_cons]
          omega

theorem sum_modify {f : α → α} {g : α → Nat} (h : l[i]? = some a) :
    ((l.modify i f).map g).sum + g a = (l.map g).sum + g (f a) := by
  rw [modify_eq_set h]
  exact sum_set h

theorem sum_snoc {f : α → Nat} : ((l ++ [a]).map f).sum = (l.map f).sum + f a := by
  rw [List.map_append, List.sum_append, List.map_singleton, List.sum_singleton]

end ElastioSnap.Lib.Table
