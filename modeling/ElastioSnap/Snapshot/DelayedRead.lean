import ElastioSnap.Snapshot.QueueOrder

namespace ElastioSnap.Snapshot.DelayedRead

open Lib.Runs Queue Tracking QueueOrder
open Machine (disk)

section

variable {β : Type} (d : Device) (clone : Nat → Clone β)

/-- The sector a clone was created with, relative to the device. -/
def start (w : Bio) : Nat :=
  (clone w.id).sect - d.sectOff

/-- The sector belongs to the clone by the sector and the size it was created with. -/
def Captures (w : Bio) (t : Nat) : Prop :=
  w.isWrite = true ∧ start d clone w ≤ t ∧ t < start d clone w + d.sectorsPerBlock * (clone w.id).pages

end

/-- The read of a write clone that is queued has left nothing of its size. -/
def Consumed (_ : History) : Op → Prop
  | .add true _ size => size = 0
  | _ => True

def InRead (r : Bio) (t : Nat) : Prop :=
  r.sector ≤ t ∧ t < r.sector + r.size

variable {β : Type} {d : Device} {clone : Nat → Clone β} {s t : History} {op : Op} {r w : Bio}

/-- The write clones that are queued have no size. -/
def Spent (q : List Bio) : Prop :=
  ∀ w ∈ q, w.isWrite = true → w.size = 0

theorem Spent.step (h : Spent s.cowBios) (hc : Consumed s op) (hst : step s op = some t) : Spent t.cowBios := by
  cases op with
  | add isWrite sector size =>
      cases hst
      intro w hw hwr
      rcases List.mem_append.mp hw with hw | hw
      · exact h w hw hwr
      · cases List.mem_singleton.mp hw
        cases hwr
        exact hc
  | dequeue =>
      obtain ⟨⟨bio, rest⟩, hd, rfl⟩ := Option.map_eq_some_iff.mp hst
      exact fun w hw => h w ((dequeue_mem hd).2 w hw)

theorem spent_reach (h : Reach QueueOrder.step Consumed .empty s) : Spent s.cowBios := by
  refine h.invariant (I := fun s => Spent s.cowBios) ?_ fun _ _ _ hs hc hst => hs.step hc hst
  intro w hw
  cases hw

/-- A bio of no size overlaps the read where it starts in it, or right behind it. -/
theorem overlap_spent (h : w.size = 0) :
    bioOverlap r w = true ↔ r.sector ≤ w.sector ∧ w.sector ≤ r.sector + r.size := by
  simp only [bioOverlap, h, decide_eq_true_eq]
  omega

/-- A read is returned past the clones that share a sector with it exactly when none of the queued
clones starts in the read or right behind it. -/
theorem read_waits_iff (h : Reach step Consumed .empty s) :
    (∀ r rest, bioQueueDequeueDelayRead s.cowBios = some (r, rest) → r.isWrite = false →
      ∀ w ∈ rest, ∀ t, InRead r t → ¬ Captures d clone w t) ↔
    ∀ r rest, s.cowBios = r :: rest → r.isWrite = false →
      (∃ w ∈ rest, ∃ t, InRead r t ∧ Captures d clone w t) →
      ∃ w ∈ rest, w.isWrite = true ∧ r.sector ≤ w.sector ∧ w.sector ≤ r.sector + r.size := by
  have hsp := spent_reach h
  constructor
  · intro hread r rest hq hr hcap
    have hsp' : Spent rest := fun w hw => hsp w (hq ▸ List.mem_cons_of_mem _ hw)
    cases hd : delayRead r rest with
    | none =>
        obtain ⟨w, hw, t, hin, hc⟩ := hcap
        have hde : bioQueueDequeueDelayRead s.cowBios = some (r, rest) := by
          rw [hq]
          simp only [bioQueueDequeueDelayRead, hr, hd, Option.getD_none, Bool.false_eq_true, if_false]
        exact absurd hc (hread r rest hde hr w hw t hin)
    | some p =>
        obtain ⟨pre, post, rfl, _, hw, ho, _⟩ := delayRead_split hd
        have hmem : p.1 ∈ pre ++ p.1 :: post := List.mem_append_right _ List.mem_cons_self
        exact ⟨p.1, hmem, hw, (overlap_spent (hsp' p.1 hmem hw)).mp ho⟩
  · intro hstart r rest hd hr w hw t hin hc
    rcases dequeue_cases hd with ⟨hq, hno⟩ | ⟨_, _, _, _, _, _, hwr, _⟩
    · obtain ⟨v, hv, hvw, hlo, hhi⟩ := hstart r rest hq hr ⟨w, hw, t, hin, hc⟩
      have hsize := hsp v (hq ▸ List.mem_cons_of_mem _ hv) hvw
      have hov := hno hr v hv hvw
      rw [(overlap_spent hsize).mpr ⟨hlo, hhi⟩] at hov
      cases hov
    · rw [hr] at hwr
      cases hwr

/-- A read that was added in front of a clone. -/
def readThenClone (sector size : Nat) : History :=
  ⟨[⟨false, sector, size, 0⟩, ⟨true, 0, 0, 1⟩], [⟨false, sector, size, 0⟩, ⟨true, 0, 0, 1⟩], []⟩

theorem reach_readThenClone (sector size : Nat) :
    Reach step Consumed .empty (readThenClone sector size) := by
  have h₀ : Reach step Consumed .empty .empty := .init
  exact (h₀.next (a := Op.add false sector size) trivial rfl).next (a := Op.add true 0 0) (by exact rfl) rfl

/-- A read of the first block waits for a clone of the first two. -/
theorem read_waits_first : Reach step Consumed .empty (readThenClone 0 8) ∧
    ∀ r rest, bioQueueDequeueDelayRead (readThenClone 0 8).cowBios = some (r, rest) → r.isWrite = false →
      ∀ w ∈ rest, ∀ t, InRead r t → ¬ Captures disk nested w t := by
  refine ⟨reach_readThenClone 0 8, (read_waits_iff (reach_readThenClone 0 8)).mpr fun r rest hq _ _ => ?_⟩
  cases hq
  exact ⟨_, List.mem_cons_self, rfl, Nat.le_refl 0, Nat.zero_le _⟩

/-- A read of the second block does not. -/
theorem read_overtakes : ¬ ∀ (d : Device) (clone : Nat → Clone Nat) (s : History),
    Reach step Consumed .empty s → ∀ r rest, bioQueueDequeueDelayRead s.cowBios = some (r, rest) →
      r.isWrite = false → ∀ w ∈ rest, ∀ t, InRead r t → ¬ Captures d clone w t := by
  intro h
  refine h disk nested _ (reach_readThenClone 8 8) ⟨false, 8, 8, 0⟩ [⟨true, 0, 0, 1⟩] rfl rfl ⟨true, 0, 0, 1⟩
    List.mem_cons_self 8 ?_ ?_
  · exact ⟨Nat.le_refl 8, by decide⟩
  · exact ⟨rfl, by decide, by decide⟩

end ElastioSnap.Snapshot.DelayedRead
