import ElastioSnap.Driver.Component

namespace ElastioSnap.Driver.Rows

open Function (update)
open Lib.Outcome State Setup Events Component
open Cow.Manager (Errno Err)

variable {env : Env} {d d' : DriverState} {a b i j minor n : Nat} {l : Local} {dev : SnapDevice}

/-- What the table is like between two events. A device that was freed while its pointer stayed in
the table has no row. -/
structure Sound (env : Env) (d : DriverState) : Prop where
  used : ∀ {i a : Nat}, d.snapDevices i = some a →
    i < env.maxSnapDevices ∧ d.lowestMinor ≤ i ∧ i ≤ d.highestMinor ∧ a < d.nextDev
  apart : ∀ {i j a : Nat}, d.snapDevices i = some a → d.snapDevices j = some a → i = j
  minor : ∀ {i : Nat} {dev : SnapDevice}, d.row i = some dev → dev.minor = i
  plain : ∀ {i : Nat} {dev : SnapDevice}, d.row i = some dev → dev.unverified = true →
    dev.active = false ∧ dev.origOps = none ∧ dev.tracingOps = none

/-- Every pointer in the table is that of a device that was not freed. -/
def Live (d : DriverState) : Prop := ∀ i a, d.snapDevices i = some a → (d.row i).isSome

/-- A device that is not in the table. -/
def Off (a : Nat) (d : DriverState) : Prop := ∀ i, d.snapDevices i ≠ some a

theorem row_eq_some : d.row i = some dev ↔ ∃ a, d.snapDevices i = some a ∧ d.devs a = some dev :=
  Option.bind_eq_some_iff

theorem row_of (h : d.snapDevices i = some a) : d.row i = d.devs a := by
  rw [DriverState.row, h, Option.bind_some]

theorem row_congr (ht : d'.snapDevices i = d.snapDevices i)
    (hd : ∀ a, d.snapDevices i = some a → d'.devs a = d.devs a) : d'.row i = d.row i := by
  rw [DriverState.row, DriverState.row, ht]
  cases h : d.snapDevices i with
  | none => rfl
  | some a => exact hd a h

/-- The table and the memory of every device in it are as before. -/
structure Untouched (d d' : DriverState) : Prop where
  table : d'.snapDevices = d.snapDevices
  devs : ∀ {i a : Nat}, d.snapDevices i = some a → d'.devs a = d.devs a
  next : d.nextDev ≤ d'.nextDev

theorem Untouched.trans {d'' : DriverState} (h : Untouched d d') (h' : Untouched d' d'') : Untouched d d'' where
  table := h'.table.trans h.table
  devs hi := (h'.devs (by rw [h.table]; exact hi)).trans (h.devs hi)
  next := Nat.le_trans h.next h'.next

theorem Untouched.rows (h : Untouched d d') : d'.row = d.row := by
  funext i
  exact row_congr (congrFun h.table i) fun _ hi => h.devs hi

theorem Untouched.off (h : Untouched d d') (ha : Off a d) : Off a d' := fun i => by
  rw [h.table]
  exact ha i

theorem Sound.untouched (hs : Sound env d) (h : Untouched d d')
    (hr : ∀ {i a : Nat}, d.snapDevices i = some a → d'.lowestMinor ≤ i ∧ i ≤ d'.highestMinor) : Sound env d' where
  used hi := by
    rw [h.table] at hi
    obtain ⟨hm, -, -, hn⟩ := hs.used hi
    exact ⟨hm, (hr hi).1, (hr hi).2, Nat.lt_of_lt_of_le hn h.next⟩
  apart hi hj := by
    rw [h.table] at hi hj
    exact hs.apart hi hj
  minor hi := by
    rw [h.rows] at hi
    exact hs.minor hi
  plain hi := by
    rw [h.rows] at hi
    exact hs.plain hi

theorem Sound.range (hs : Sound env d) (h : d.snapDevices i = some a) : d.lowestMinor ≤ i ∧ i ≤ d.highestMinor :=
  ⟨(hs.used h).2.1, (hs.used h).2.2.1⟩

theorem Sound.fresh (hs : Sound env d) : Off d.nextDev d := fun _ h => Nat.lt_irrefl _ (hs.used h).2.2.2

theorem Off.ne (h : Off a d) (hi : d.snapDevices i = some b) : b ≠ a := fun hb => h i (hb ▸ hi)

theorem mem_minorRange : i ∈ d.minorRange ↔ d.lowestMinor ≤ i ∧ i ≤ d.highestMinor := by
  rw [DriverState.minorRange, List.mem_drop_iff_getElem]
  simp only [List.getElem_range, List.length_range]
  constructor
  · rintro ⟨k, hk, rfl⟩
    omega
  · rintro ⟨hl, hh⟩
    exact ⟨i - d.lowestMinor, by omega, by omega⟩

theorem Sound.mem_minorRange (hs : Sound env d) (h : d.snapDevices i = some a) : i ∈ d.minorRange :=
  Rows.mem_minorRange.mpr (hs.range h)

@[simp] theorem atCall_row : (d.atCall n).row = d.row := rfl

@[simp] theorem atCall_atCall {m : Nat} : (d.atCall n).atCall m = d.atCall m := rfl

variable {p : Nat → SnapDevice → DriverM Bool} {R : Nat → SnapDevice → Bool → Prop} {T : Nat → Nat → Prop}

/-- What a search leaves behind: it made some calls, and found a device of the table that passes
the test, or every device of the table fails it. -/
def Searched (d : DriverState) (R : Nat → SnapDevice → Bool → Prop) (T : Nat → Nat → Prop) (is : List Nat) (n : Nat)
    (r : Option Nat) (d' : DriverState) : Prop :=
  (∃ m, T n m ∧ d' = d.atCall m) ∧ match r with
    | some a => ∃ i dev, d.snapDevices i = some a ∧ d.devs a = some dev ∧ R a dev true
    | none => ∀ i ∈ is, ∀ a, d.snapDevices i = some a → ∃ dev, d.devs a = some dev ∧ R a dev false

theorem findTracer_wp (hrefl : ∀ n, T n n) (htrans : ∀ {n m k}, T n m → T m k → T n k)
    (hp : ∀ a dev n, wp (p a dev) (d.atCall n) (fun r d' => (∃ m, T n m ∧ d' = d.atCall m) ∧ R a dev r)
      (Fails fun _ _ => False))
    (is : List Nat) (n : Nat) :
    wp (findTracer p is) (d.atCall n) (Searched d R T is n) (Fails fun _ _ => False) := by
  induction is generalizing n with
  | nil => exact ⟨⟨n, hrefl n, rfl⟩, fun _ h => by cases h⟩
  | cons i is ih =>
      simp only [findTracer, wp_bind, wp_get]
      have hsame : (d.atCall n).snapDevices = d.snapDevices := rfl
      rw [hsame]
      cases hi : d.snapDevices i with
      | none =>
          apply wp_weaken (ih n)
          · rintro r d' ⟨hm, hr⟩
            refine ⟨hm, ?_⟩
            cases r with
            | some _ => exact hr
            | none =>
                intro j hj a ha
                rcases List.mem_cons.mp hj with rfl | hj
                · rw [hi] at ha
                  cases ha
                · exact hr j hj a ha
          · exact fun _ _ h => h
      | some a =>
          simp only [wp_bind, wp_getDev]
          intro dev hdev
          apply wp_weaken (hp a dev n)
          · rintro r d' ⟨⟨m, hm, rfl⟩, hr⟩
            cases r with
            | true => exact ⟨⟨m, hm, rfl⟩, i, dev, hi, hdev, hr⟩
            | false =>
                apply wp_weaken (ih m)
                · rintro r d' ⟨⟨k, hk, rfl⟩, hrest⟩
                  refine ⟨⟨k, htrans hm hk, rfl⟩, ?_⟩
                  cases r with
                  | some _ => exact hrest
                  | none =>
                      intro j hj c hc
                      rcases List.mem_cons.mp hj with rfl | hj
                      · rw [hi] at hc
                        cases hc
                        exact ⟨dev, hdev, hr⟩
                      · exact hrest j hj c hc
                · exact fun _ _ h => h
          · exact fun _ _ h => h

theorem tracerForEach_wp (hrefl : ∀ n, T n n) (htrans : ∀ {n m k}, T n m → T m k → T n k)
    (hp : ∀ a dev n, wp (p a dev) (d.atCall n) (fun r d' => (∃ m, T n m ∧ d' = d.atCall m) ∧ R a dev r)
      (Fails fun _ _ => False)) :
    wp (tracerForEach p) d (Searched d R T d.minorRange d.clock) (Fails fun _ _ => False) := by
  simp only [tracerForEach, wp_bind, wp_get]
  exact findTracer_wp hrefl htrans hp d.minorRange d.clock

end ElastioSnap.Driver.Rows
