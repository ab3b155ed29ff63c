import Mathlib.Algebra.GroupWithZero.Nat
import Mathlib.Data.List.Basic

namespace ElastioSnap.Snapshot.Queue

/-- A bio on `sd_cow_bios`. Its size is in sectors, and `id` says which read clone or which snapshot
read it is. -/
structure Bio where
  isWrite : Bool
  sector : Nat
  size : Nat
  id : Nat
  deriving DecidableEq, Repr

def bioOverlap (bio1 bio2 : Bio) : Bool :=
  decide (max bio1.sector bio2.sector ≤ min (bio1.sector + bio1.size) (bio2.sector + bio2.size))

/-- The loop of `bio_queue_dequeue_delay_read`: the first overlapping write, with the read in its
place. -/
def delayRead (bio : Bio) : List Bio → Option (Bio × List Bio)
  | [] => none
  | tmp :: rest =>
      if tmp.isWrite && bioOverlap bio tmp then some (tmp, bio :: rest)
      else (delayRead bio rest).map fun r => (r.1, tmp :: r.2)

def bioQueueDequeueDelayRead : List Bio → Option (Bio × List Bio)
  | [] => none
  | bio :: rest =>
      if bio.isWrite then some (bio, rest)
      else (delayRead bio rest).getD (bio, rest)

/-- The write clones of a queue, first the one that was added first. -/
def clones (q : List Bio) : List Bio :=
  q.filter (·.isWrite)

variable {bio out : Bio} {q q' : List Bio}

@[simp] theorem clones_append (q q' : List Bio) : clones (q ++ q') = clones q ++ clones q' :=
  List.filter_append ..

theorem clones_write (h : bio.isWrite = true) : clones (bio :: q) = bio :: clones q :=
  List.filter_cons_of_pos h

theorem clones_read (h : bio.isWrite = false) : clones (bio :: q) = clones q :=
  List.filter_cons_of_neg (by simp [h])

@[simp] theorem mem_clones : bio ∈ clones q ↔ bio ∈ q ∧ bio.isWrite = true :=
  List.mem_filter

/-- Delaying a read takes one write clone out of its place and keeps the order of the others. -/
theorem delayRead_some (hb : bio.isWrite = false) (h : delayRead bio q = some (out, q')) :
    out.isWrite = true ∧ ∃ pre post, clones q = pre ++ out :: post ∧ clones q' = pre ++ post := by
  induction q generalizing q' with
  | nil => cases h
  | cons tmp rest ih =>
      simp only [delayRead] at h
      split at h
      next hc =>
        cases h
        have hw := (Bool.and_eq_true_iff.mp hc).1
        exact ⟨hw, [], clones rest, clones_write hw, clones_read hb⟩
      next =>
        obtain ⟨⟨w, r⟩, hr, he⟩ := Option.map_eq_some_iff.mp h
        cases he
        obtain ⟨hw, pre, post, hq, hq'⟩ := ih hr
        cases ht : tmp.isWrite with
        | true => exact ⟨hw, tmp :: pre, post, by rw [clones_write ht, hq, List.cons_append],
            by rw [clones_write ht, hq', List.cons_append]⟩
        | false => exact ⟨hw, pre, post, by rw [clones_read ht, hq], by rw [clones_read ht, hq']⟩

theorem dequeue_write (h : bioQueueDequeueDelayRead q = some (out, q')) (hw : out.isWrite = true) :
    ∃ pre post, clones q = pre ++ out :: post ∧ clones q' = pre ++ post := by
  cases q with
  | nil => cases h
  | cons bio rest =>
      simp only [bioQueueDequeueDelayRead] at h
      split at h
      next hb =>
        cases h
        exact ⟨[], clones q', clones_write hb, rfl⟩
      next hb =>
        rw [Bool.not_eq_true] at hb
        cases hd : delayRead bio rest with
        | none =>
            simp only [hd, Option.getD_none, Option.some.injEq, Prod.mk.injEq] at h
            rw [← h.1, hb] at hw
            cases hw
        | some r =>
            simp only [hd, Option.getD_some, Option.some.injEq] at h
            subst h
            rw [clones_read hb]
            exact (delayRead_some hb hd).2

theorem dequeue_read (h : bioQueueDequeueDelayRead q = some (out, q')) (hr : out.isWrite = false) :
    clones q' = clones q ∧ out ∈ q := by
  cases q with
  | nil => cases h
  | cons bio rest =>
      simp only [bioQueueDequeueDelayRead] at h
      split at h
      next hb =>
        cases h
        rw [hb] at hr
        cases hr
      next hb =>
        rw [Bool.not_eq_true] at hb
        cases hd : delayRead bio rest with
        | none =>
            simp only [hd, Option.getD_none, Option.some.injEq, Prod.mk.injEq] at h
            obtain ⟨rfl, rfl⟩ := h
            exact ⟨(clones_read hb).symm, List.mem_cons_self⟩
        | some r =>
            simp only [hd, Option.getD_some, Option.some.injEq] at h
            subst h
            rw [(delayRead_some hb hd).1] at hr
            cases hr

theorem delayRead_none (h : delayRead bio q = none) : ∀ w ∈ q, w.isWrite = true → bioOverlap bio w = false := by
  induction q with
  | nil => exact fun _ hw => (List.not_mem_nil hw).elim
  | cons tmp rest ih =>
      simp only [delayRead] at h
      split at h
      next => cases h
      next hc =>
        intro w hw hwr
        rcases List.mem_cons.mp hw with rfl | hw
        · simpa [hwr] using hc
        · exact ih (Option.map_eq_none_iff.mp h) w hw hwr

/-- The write that is taken is the first one that overlaps the read, and the read takes its place. -/
theorem delayRead_split (h : delayRead bio q = some (out, q')) : ∃ pre post, q = pre ++ out :: post ∧
    q' = pre ++ bio :: post ∧ out.isWrite = true ∧ bioOverlap bio out = true ∧
    ∀ w ∈ pre, w.isWrite = true → bioOverlap bio w = false := by
  induction q generalizing q' with
  | nil => cases h
  | cons tmp rest ih =>
      simp only [delayRead] at h
      split at h
      next hc =>
        cases h
        rw [Bool.and_eq_true] at hc
        exact ⟨[], rest, rfl, rfl, hc.1, hc.2, fun _ hw => (List.not_mem_nil hw).elim⟩
      next hc =>
        obtain ⟨⟨w, r⟩, hr, he⟩ := Option.map_eq_some_iff.mp h
        cases he
        obtain ⟨pre, post, rfl, rfl, hw, ho, hpre⟩ := ih hr
        refine ⟨tmp :: pre, post, rfl, rfl, hw, ho, fun w hm hwr => ?_⟩
        rcases List.mem_cons.mp hm with rfl | hm
        · simpa [hwr] using hc
        · exact hpre w hm hwr

/-- Either the head of the queue is dequeued, or a write that overlaps a read at the head. -/
theorem dequeue_cases (h : bioQueueDequeueDelayRead q = some (out, q')) :
    (q = out :: q' ∧ (out.isWrite = false → ∀ w ∈ q', w.isWrite = true → bioOverlap out w = false)) ∨
    ∃ bio pre post, q = bio :: (pre ++ out :: post) ∧ q' = pre ++ bio :: post ∧ bio.isWrite = false ∧
      out.isWrite = true ∧ bioOverlap bio out = true ∧ ∀ w ∈ pre, w.isWrite = true → bioOverlap bio w = false := by
  cases q with
  | nil => cases h
  | cons bio rest =>
      simp only [bioQueueDequeueDelayRead] at h
      split at h
      next hb =>
        cases h
        refine .inl ⟨rfl, fun hr => ?_⟩
        rw [hb] at hr
        cases hr
      next hb =>
        rw [Bool.not_eq_true] at hb
        cases hd : delayRead bio rest with
        | none =>
            rw [hd] at h
            cases h
            exact .inl ⟨rfl, fun _ => delayRead_none hd⟩
        | some r =>
            rw [hd] at h
            cases h
            obtain ⟨pre, post, rfl, rfl, hw, ho, hpre⟩ := delayRead_split hd
            exact .inr ⟨bio, pre, post, rfl, rfl, hb, hw, ho, hpre⟩

theorem dequeue_nil_iff : bioQueueDequeueDelayRead q = none ↔ q = [] := by
  cases q with
  | nil => exact ⟨fun _ => rfl, fun _ => rfl⟩
  | cons bio rest =>
      simp only [bioQueueDequeueDelayRead]
      split <;> simp

end ElastioSnap.Snapshot.Queue
