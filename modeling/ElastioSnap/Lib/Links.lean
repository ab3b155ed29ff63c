import Mathlib.Data.List.Nodup

namespace ElastioSnap.Lib.Links

open Function (update)

variable {α : Type} {next next' : α → Option α} {a b v : Option α} {x : α} {xs ys : List α}

/-- The pointers lead from the first one through the nodes of the list to the last one. -/
def Seg (next : α → Option α) : Option α → List α → Option α → Prop
  | a, [], b => a = b
  | a, x :: xs, b => a = some x ∧ Seg next (next x) xs b

@[simp] theorem seg_nil : Seg next a [] b ↔ a = b := Iff.rfl

@[simp] theorem seg_cons : Seg next a (x :: xs) b ↔ a = some x ∧ Seg next (next x) xs b := Iff.rfl

theorem seg_append : Seg next a (xs ++ ys) b ↔ ∃ c, Seg next a xs c ∧ Seg next c ys b := by
  induction xs generalizing a with
  | nil => simp
  | cons x xs ih =>
      rw [List.cons_append, seg_cons, ih]
      constructor
      · rintro ⟨ha, c, hc, hy⟩
        exact ⟨c, ⟨ha, hc⟩, hy⟩
      · rintro ⟨c, ⟨ha, hc⟩, hy⟩
        exact ⟨ha, c, hc, hy⟩

theorem seg_snoc : Seg next a (xs ++ [x]) b ↔ Seg next a xs (some x) ∧ next x = b := by
  rw [seg_append]
  constructor
  · rintro ⟨c, hc, rfl, hb⟩
    exact ⟨hc, hb⟩
  · rintro ⟨hc, hb⟩
    exact ⟨some x, hc, rfl, hb⟩

/-- Only the pointers of the nodes matter. -/
theorem Seg.congr (h : Seg next a xs b) (hn : ∀ x ∈ xs, next' x = next x) : Seg next' a xs b := by
  induction xs generalizing a with
  | nil => exact h
  | cons x xs ih =>
      obtain ⟨ha, hrest⟩ := h
      refine ⟨ha, ?_⟩
      rw [hn x List.mem_cons_self]
      exact ih hrest fun y hy => hn y (List.mem_cons_of_mem x hy)

theorem Seg.update [DecidableEq α] (h : Seg next a xs b) (hx : x ∉ xs) : Seg (update next x v) a xs b := by
  refine h.congr fun y hy => ?_
  have hne : y ≠ x := fun hyx => hx (hyx ▸ hy)
  exact Function.update_of_ne hne v next

/-- A pointer leads to its end on one way. -/
theorem Seg.unique (h : Seg next a xs none) (h' : Seg next a ys none) : xs = ys := by
  induction xs generalizing a ys with
  | nil =>
      cases ys with
      | nil => rfl
      | cons y ys =>
          obtain rfl : a = none := h
          cases h'.1
  | cons x xs ih =>
      obtain ⟨rfl, hrest⟩ := h
      cases ys with
      | nil => cases h'
      | cons y ys =>
          obtain ⟨hy, hrest'⟩ := h'
          obtain rfl := Option.some.inj hy
          rw [ih hrest hrest']

/-- A list that ends has no node twice. -/
theorem Seg.nodup (h : Seg next a xs none) : xs.Nodup := by
  induction xs generalizing a with
  | nil => exact List.nodup_nil
  | cons x xs ih =>
      refine List.nodup_cons.mpr ⟨fun hx => ?_, ih h.2⟩
      obtain ⟨pre, post, rfl⟩ := List.append_of_mem hx
      obtain ⟨c, -, rfl, hpost⟩ := seg_append.mp h.2
      -- from the node on the list would go on in two ways
      have heq : pre ++ x :: post = post := h.2.unique hpost
      have hlen := congrArg List.length heq
      rw [List.length_append, List.length_cons] at hlen
      omega

end ElastioSnap.Lib.Links
