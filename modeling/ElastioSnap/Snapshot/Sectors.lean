import ElastioSnap.Snapshot.PointInTime

namespace ElastioSnap.Snapshot.Sectors

open Lib.Runs Lib.Table Queue Tracking TraceBio ReadComplete CowThread Machine Blocks Refs Capture Filing PointInTime

variable {β : Type} {d : Device} {b₀ : Nat → β} {s t : State β} {a : Action β} {k : Nat} {w : Write} {c : Clone β}
  {bio : Bio}

/-- A write clone comes from the completion handler that queues it, and leaves with the step that
handles it. -/
theorem cow_pending {act : CowAct} (hst : CowStep d s act t) (hb : bio ∈ pending t) : bio ∈ pending s := by
  have other : t.cowBios = s.cowBios → (∀ q, t.work ≠ .write q) → bio ∈ pending s := by
    intro hq ht
    have hcl : bio ∈ clones s.cowBios := by
      unfold pending at hb
      split at hb
      · exact absurd ‹_› (ht _)
      · exact hq ▸ hb
    unfold pending
    split
    · exact List.mem_cons_of_mem _ hcl
    · exact hcl
  cases hst with
  | take q rest hw hq hf =>
      rw [pending_of_dequeue hw]
      by_cases hqw : q.isWrite = true
      · obtain ⟨pre, post, hpre, hpost⟩ := dequeue_write hq hqw
        simp only [pending, hqw, if_true, hpost] at hb
        rw [hpre]
        rcases List.mem_cons.mp hb with rfl | hb
        · exact List.mem_append_right _ List.mem_cons_self
        · rcases List.mem_append.mp hb with hb | hb
          · exact List.mem_append_left _ hb
          · exact List.mem_append_right _ (List.mem_cons_of_mem _ hb)
      · rw [Bool.not_eq_true] at hqw
        simp only [pending, hqw, Bool.false_eq_true, if_false, (dequeue_read hq hqw).1] at hb
        exact hb
  | drop q rest hw hq hf =>
      rw [pending_of_dequeue hw]
      cases hqw : q.isWrite with
      | true =>
          obtain ⟨pre, post, hpre, hpost⟩ := dequeue_write hq hqw
          simp only [take, hqw, hf, processed, bioFreeClone, pending, hpost] at hb
          rw [hpre]
          rcases List.mem_append.mp hb with hb | hb
          · exact List.mem_append_left _ hb
          · exact List.mem_append_right _ (List.mem_cons_of_mem _ hb)
      | false =>
          simp only [take, hqw, hf, pending, (dequeue_read hq hqw).1] at hb
          exact hb
  | write handled q q' hw hc =>
      refine other ?_ (by simp [processed, bioFreeClone])
      simp only [processed, bioFreeClone, snapHandleWriteBio]
      split
      · rfl
      · split <;> rfl
  | mode q r hw hr =>
      refine other rfl fun q' => ?_
      dsimp only
      split <;> simp
  | base q m hw =>
      refine other rfl fun q' => ?_
      dsimp only
      split <;> simp
  | finish => exact other rfl (by simp [endRead])
  | exit hw => exact other rfl (by simp [hw])
  | _ => exact other rfl (by simp)

theorem step_pending (hst : Step d s a t) (hb : bio ∈ pending t) : bio ∈ pending s ∨
    ∃ k c w, s.clones[k]? = some c ∧ s.writes[c.tp]? = some w ∧ c.stage = .completed ∧
      bio = { isWrite := true, sector := resetSector d w c, size := c.left, id := k } := by
  cases hst with
  | tracer i w act _ hw hs =>
      obtain ⟨ha, hq⟩ := tracer_aside hs
      rw [pending_congr ha.work hq] at hb
      exact .inl hb
  | reader k c w act _ hk hw hs =>
      obtain ⟨ha, hq⟩ := reader_aside hs
      by_cases happ : act = .append
      · subst happ
        cases hs with
        | append hc =>
            have hm : bio ∈ pending s ∨
                bio = { isWrite := true, sector := resetSector d w c, size := c.left, id := k } := by
              simp only [pending, setClone, clones_append] at hb ⊢
              split at hb
              all_goals
                simp only [clones, List.filter_cons_of_pos, List.filter_nil, List.mem_cons, List.mem_append,
                  List.not_mem_nil, or_false] at hb ⊢
                tauto
            exact hm.imp_right fun h => ⟨k, c, w, hk, hw, hc, h⟩
      · rw [pending_congr ha.work (hq happ)] at hb
        exact .inl hb
  | cow act _ hs => exact .inl (cow_pending hs hb)
  | snapRead sector sectors pages hf =>
      have hcl : clones (s.cowBios ++ [⟨false, sector, sectors, s.reads.length⟩]) = clones s.cowBios := by
        rw [clones_append, clones_read rfl]
        exact List.append_nil _
      simp only [pending, hcl] at hb
      exact .inl hb
  | _ => exact .inl hb

/-- A write clone that is queued or handled has the sector of its clone, relative to the device. -/
structure Labelled (d : Device) (s : State β) : Prop where
  filed : Filed d s
  sector : ∀ bio ∈ pending s, ∃ c, s.clones[bio.id]? = some c ∧ c.stage.sent = true ∧ bio.sector = c.sect - d.sectOff

theorem Labelled.step (h : Labelled d s) (hst : Step d s a t) (hr : NoReuse s a) : Labelled d t where
  filed := h.filed.step hst hr
  sector bio hb := by
    have hk := step_kept h.filed.captures.sound hst
    have kept : ∀ {k : Nat} {c : Clone β}, s.clones[k]? = some c → c.stage.sent = true →
        bio.sector = c.sect - d.sectOff → ∃ c', t.clones[k]? = some c' ∧ c'.stage.sent = true ∧
          bio.sector = c'.sect - d.sectOff := by
      intro k c hc hs hsect
      obtain ⟨c', hc', ho⟩ := hk.clones k c hc hs
      exact ⟨c', hc', ho.sent, by rw [ho.sect, hsect]⟩
    rcases step_pending hst hb with hb | ⟨k, c, w, hc, hw, hstage, rfl⟩
    · obtain ⟨c, hc, hs, hsect⟩ := h.sector bio hb
      exact kept hc hs hsect
    · have hs : c.stage.sent = true := by rw [hstage]; rfl
      exact kept hc hs (h.filed.resetSector_eq hc hw hs)

theorem labelled_reach (h : Reach (Machine.step d) NoReuse (State.created b₀) s) : Labelled d s := by
  refine h.invariant ⟨filed_created b₀, ?_⟩ fun _ _ _ hs hc hstep => hs.step (step_of hstep) hc
  intro bio hb
  cases hb

/-- The pages go to the blocks they were read from. -/
theorem writePages_own {m n : Nat} {saved : Nat → Option (Nat → β)} (hm : c.sect = d.sector m 0)
    (hs : bio.sector = c.sect - d.sectOff) (b : Nat) : writePages d bio c n saved b =
      (saved b).or (if d.block c.sect ≤ b ∧ b < d.block c.sect + n then some fun o => c.data (d.sector b o) else none) := by
  have hblock : d.block c.sect = m := by rw [hm, block_sector d.pos]
  have hbio : bio.sector / d.sectorsPerBlock = m := by
    rw [hs]
    exact hblock
  simp only [writePages, hbio, hblock]
  by_cases hb : m ≤ b ∧ b < m + n
  · have hsect : ∀ o, c.sect + d.sectorsPerBlock * (b - m) + o = d.sector b o := by
      intro o
      rw [hm, sector_add, Nat.add_sub_cancel' hb.1]
      rfl
    simp only [hsect]
  · rw [if_neg hb, if_neg hb]

/-- A write clone that is queued, or handled, has the sector it was created with, relative to the
device, and `snap_handle_write_bio` stores each page under the block it was read from. -/
theorem queued_own_sector (h : Reach (step d) NoReuse (State.created b₀) s) (hb : bio ∈ pending s) :
    ∃ c, s.clones[bio.id]? = some c ∧ bio.sector = c.sect - d.sectOff ∧ ∀ n saved b, writePages d bio c n saved b =
      (saved b).or (if d.block c.sect ≤ b ∧ b < d.block c.sect + n then some fun o => c.data (d.sector b o)
        else none) := by
  have hl := labelled_reach h
  obtain ⟨c, hc, _, hs⟩ := hl.sector bio hb
  obtain ⟨m, hm⟩ := hl.filed.aligned bio.id c hc
  exact ⟨c, hc, hs, fun n saved => writePages_own hm hs⟩

/-- One clone of a write that two clones cover is captured and queued. -/
def firstClone : List (Action Nat) :=
  [.trace 0 16, .tracer 0 (.allocTp true), .tracer 0 (.makeClone (.made 1 1)), .tracer 0 (.addMap true), .tracer 0 .count,
    .tracer 0 .submit, .reader 0 (.complete true 0), .reader 0 .append, .reader 0 .receive, .reader 0 .put]

instance (s : State β) (a : Action β) : Decidable (NoReuse s a) :=
  match a with
  | .tracer i (.makeClone (.made addr _)) => inferInstanceAs (Decidable (∀ w ∈ s.writes[i]?, ∀ m ∈ w.bioSects, m.bio ≠ addr))
  | .tracer _ (.allocTp _) | .tracer _ (.makeClone .noBio) | .tracer _ (.makeClone (.noPage _)) | .tracer _ (.addMap _)
  | .tracer _ .count | .tracer _ .submit | .tracer _ .put | .tracer _ .setFail | .tracer _ .cleanUp | .cow _ | .trace ..
  | .reader .. | .mrfSubmit _ | .mrfExit | .direct .. | .snapRead .. | .failure | .stopTracing | .stopCow | .stopMrf
  | .free => .isTrue trivial

/-- The first clone is handled and freed, and the second one gets some address. -/
def secondClone (addr : Nat) : List (Action Nat) :=
  firstClone ++ [.cow .look, .cow .dequeue, .cow (.write 1), .tracer 0 (.makeClone (.made addr 1)),
    .tracer 0 (.addMap true), .tracer 0 .count, .tracer 0 .submit, .reader 1 (.complete true 0), .reader 1 .append]

theorem secondClone_after : run (Machine.step disk) (State.created fun _ => 0) (secondClone 2) =
    some (after disk (fun _ => 0) (secondClone 2)) :=
  rfl

/-- Two clones of a write have different addresses. -/
theorem queued_own_sector_second : ∃ bio ∈ pending (after disk (fun _ => 0) (secondClone 2)),
    ∃ c, (after disk (fun _ => 0) (secondClone 2)).clones[bio.id]? = some c ∧ bio.sector = 8 ∧
      bio.sector = c.sect - disk.sectOff := by
  have h := Reach.run (C := NoReuse) .init secondClone_after (by decide)
  obtain ⟨c, hc, hs, _⟩ := queued_own_sector h (show (⟨true, 8, 0, 1⟩ : Bio) ∈ pending _ from List.mem_cons_self)
  exact ⟨_, List.mem_cons_self, c, hc, rfl, hs⟩

theorem reusedAddress_after : run (Machine.step disk) (State.created fun _ => 0) (secondClone 1) =
    some (after disk (fun _ => 0) (secondClone 1)) :=
  rfl

/-- The second clone is queued with the sector of the first one. -/
theorem queued_stale_sector : ¬ ∀ (d : Device) (b₀ : Nat → Nat) (s : State Nat),
    Reach (step d) (fun _ _ => True) (State.created b₀) s → ∀ bio ∈ pending s,
      ∃ c, s.clones[bio.id]? = some c ∧ bio.sector = c.sect - d.sectOff ∧ ∀ n saved b, writePages d bio c n saved b =
        (saved b).or (if d.block c.sect ≤ b ∧ b < d.block c.sect + n then some fun o => c.data (d.sector b o)
          else none) := by
  intro h
  have hr := Reach.run (C := fun _ _ => True) .init reusedAddress_after (by decide)
  obtain ⟨c, hc, hs, _⟩ := h disk _ _ hr ⟨true, 0, 0, 1⟩ List.mem_cons_self
  cases hc
  exact absurd (show 0 = 8 from hs) (by decide)

end ElastioSnap.Snapshot.Sectors
