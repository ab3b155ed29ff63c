import ElastioSnap.Driver.Hooks

namespace ElastioSnap.Driver.Walk

open Function (update)
open Lib.Outcome State Setup Events Component Rows Tracing Effects Hooks
open Cow.Manager (Errno Err)

variable {env : Env} {native : Nat → Nat} {d d' d'' : DriverState} {a b i n minor : Nat} {dev dev' : SnapDevice}
  {ops ops' : OpsState} {l : Local} {event : Event}

theorem foldl_min_le {is : List Nat} {x : Nat} : is.foldl min x ≤ x ∧ ∀ i ∈ is, is.foldl min x ≤ i := by
  induction is generalizing x with
  | nil => exact ⟨Nat.le_refl _, fun _ h => by cases h⟩
  | cons j is ih =>
      obtain ⟨h, hmem⟩ := ih (x := min x j)
      refine ⟨h.trans (Nat.min_le_left _ _), fun i hi => ?_⟩
      rcases List.mem_cons.mp hi with rfl | hi
      · exact h.trans (Nat.min_le_right _ _)
      · exact hmem i hi

theorem le_foldl_max {is : List Nat} {x : Nat} : x ≤ is.foldl max x ∧ ∀ i ∈ is, i ≤ is.foldl max x := by
  induction is generalizing x with
  | nil => exact ⟨Nat.le_refl _, fun _ h => by cases h⟩
  | cons j is ih =>
      obtain ⟨h, hmem⟩ := ih (x := max x j)
      refine ⟨(Nat.le_max_left _ _).trans h, fun i hi => ?_⟩
      rcases List.mem_cons.mp hi with rfl | hi
      · exact (Nat.le_max_right _ _).trans h
      · exact hmem i hi

theorem recalculated_range (hi : d.snapDevices i = some a) (hmax : i < env.maxSnapDevices) :
    (recalculated env d).lowestMinor ≤ i ∧ i ≤ (recalculated env d).highestMinor := by
  have hmem : i ∈ (List.range env.maxSnapDevices).filter fun i => (d.snapDevices i).isSome :=
    List.mem_filter.mpr ⟨List.mem_range.mpr hmax, by rw [hi]; rfl⟩
  exact ⟨foldl_min_le.2 i hmem, le_foldl_max.2 i hmem⟩

theorem untouched_recalculated : Untouched d (recalculated env d) := ⟨rfl, fun _ => rfl, Nat.le_refl _⟩

/-- Some device outside the table was worked on, and the range of minors may be a new one. -/
theorem sound_recalculated (hs : Sound env d) (h : Untouched d d') : Sound env (recalculated env d') := by
  apply hs.untouched (h.trans untouched_recalculated)
  intro i a hi
  have hmax := (hs.used hi).1
  rw [← h.table] at hi
  exact recalculated_range hi hmax

/-- A row is gone: its pointer was taken out of the table, or the device was freed. -/
theorem sound_remove (d' : DriverState) (hs : Sound env d) (ht : ∀ {j : Nat}, j ≠ i → d'.snapDevices j = d.snapDevices j)
    (hi : ∀ {c : Nat}, d'.snapDevices i = some c → d.snapDevices i = some c) (hnone : d'.row i = none)
    (hd : ∀ {j c : Nat}, j ≠ i → d.snapDevices j = some c → d'.devs c = d.devs c) (hn : d'.nextDev = d.nextDev) :
    Sound env (recalculated env d') ∧ (recalculated env d').row = update d.row i none := by
  have htable : ∀ {j c : Nat}, d'.snapDevices j = some c → d.snapDevices j = some c := by
    intro j c h
    by_cases hji : j = i
    · subst hji
      exact hi h
    · rw [ht hji] at h
      exact h
  have hrow : (recalculated env d').row = update d.row i none := by
    funext j
    by_cases hji : j = i
    · subst hji
      rw [Function.update_self]
      exact hnone
    · rw [Function.update_of_ne hji]
      exact row_congr (ht hji) fun c h => hd hji h
  refine ⟨?_, hrow⟩
  constructor
  case used =>
    intro j c h
    obtain ⟨hm, -, -, hlt⟩ := hs.used (htable h)
    obtain ⟨hl, hh⟩ := recalculated_range h hm
    exact ⟨hm, hl, hh, by rw [show (recalculated env d').nextDev = d.nextDev from hn]; exact hlt⟩
  case apart => exact fun h h' => hs.apart (htable h) (htable h')
  case minor =>
    intro j dev h
    rw [hrow] at h
    rcases update_cases h with ⟨-, h⟩ | ⟨-, h⟩
    · cases h
    · exact hs.minor h
  case plain =>
    intro j dev h
    rw [hrow] at h
    rcases update_cases h with ⟨-, h⟩ | ⟨-, h⟩
    · cases h
    · exact hs.plain h

theorem placed_row (hoff : Off a d) : (placed d a dev minor ops n).row = update d.row minor (some dev) := by
  funext j
  by_cases hj : j = minor
  · subst hj
    rw [Function.update_self]
    exact row_eq_some.mpr ⟨a, Function.update_self .., Function.update_self ..⟩
  · rw [Function.update_of_ne hj]
    apply row_congr
    · exact Function.update_of_ne hj ..
    · exact fun c hc => Function.update_of_ne (hoff.ne hc) ..

/-- A device enters the table at a minor, where another one may have been. -/
theorem sound_placed (hs : Sound env d) (hoff : Off a d) (hmax : minor < env.maxSnapDevices) (ha : a < d.nextDev)
    (hm : dev.minor = minor) (hp : dev.unverified = true → dev.active = false ∧ dev.origOps = none ∧ dev.tracingOps = none) :
    Sound env (placed d a dev minor ops n) := by
  have htable : ∀ {j c : Nat}, (placed d a dev minor ops n).snapDevices j = some c →
      (j = minor ∧ c = a) ∨ (j ≠ minor ∧ c ≠ a ∧ d.snapDevices j = some c) := by
    intro j c h
    rcases update_cases h with ⟨hj, h⟩ | ⟨hj, h⟩
    · exact .inl ⟨hj, (Option.some.inj h).symm⟩
    · exact .inr ⟨hj, hoff.ne h, h⟩
  constructor
  case used =>
    intro j c h
    rcases htable h with ⟨rfl, rfl⟩ | ⟨-, -, h⟩
    · exact ⟨hmax, Nat.min_le_right _ _, Nat.le_max_right _ _, ha⟩
    · obtain ⟨hjm, hl, hh, hlt⟩ := hs.used h
      exact ⟨hjm, (Nat.min_le_left _ _).trans hl, hh.trans (Nat.le_max_left _ _), hlt⟩
  case apart =>
    intro j j' c h h'
    rcases htable h with ⟨rfl, rfl⟩ | ⟨-, hc, h⟩
    · rcases htable h' with ⟨rfl, -⟩ | ⟨-, hc, -⟩
      · rfl
      · exact absurd rfl hc
    · rcases htable h' with ⟨-, rfl⟩ | ⟨-, -, h'⟩
      · exact absurd rfl hc
      · exact hs.apart h h'
  case minor =>
    intro j dev' h
    rw [placed_row hoff] at h
    rcases update_cases h with ⟨hj, hdev⟩ | ⟨-, hdev⟩
    · rw [← Option.some.inj hdev, hj]
      exact hm
    · exact hs.minor hdev
  case plain =>
    intro j dev' h
    rw [placed_row hoff] at h
    rcases update_cases h with ⟨-, h⟩ | ⟨-, h⟩
    · rw [← Option.some.inj h]
      exact hp
    · exact hs.plain h

theorem put_row (hs : Sound env d) (hi : d.snapDevices i = some a) : (d.put a l).row = update d.row i (some l.dev) := by
  funext j
  by_cases hj : j = i
  · subst hj
    rw [Function.update_self]
    exact row_eq_some.mpr ⟨a, hi, put_devs⟩
  · rw [Function.update_of_ne hj]
    apply row_congr
    · rfl
    · intro c hc
      apply put_devs_of_ne
      rintro rfl
      exact hj (hs.apart hc hi)

/-- A device of the table is worked on where it is. -/
theorem sound_put (hs : Sound env d) (hi : d.snapDevices i = some a) (hm : l.dev.minor = i)
    (hp : l.dev.unverified = true → l.dev.active = false ∧ l.dev.origOps = none ∧ l.dev.tracingOps = none) :
    Sound env (d.put a l) where
  used := hs.used
  apart := hs.apart
  minor h := by
    rw [put_row hs hi] at h
    rcases update_cases h with ⟨hj, hdev⟩ | ⟨-, hdev⟩
    · rw [← Option.some.inj hdev, hj]
      exact hm
    · exact hs.minor hdev
  plain h := by
    rw [put_row hs hi] at h
    rcases update_cases h with ⟨-, h⟩ | ⟨-, h⟩
    · rw [← Option.some.inj h]
      exact hp
    · exact hs.plain h

end ElastioSnap.Driver.Walk
