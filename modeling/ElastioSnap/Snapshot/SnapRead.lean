import ElastioSnap.Snapshot.PointInTime

namespace ElastioSnap.Snapshot.SnapRead

open Lib.Runs Lib.Table Queue Tracking TraceBio ReadComplete CowThread Machine Blocks Refs Capture Filing
  CopyBeforeWrite PointInTime

variable {β : Type} {d : Device} {b₀ : Nat → β} {s t : State β} {a : Action β} {i j k b : Nat} {w : Write}
  {c : Clone β} {bio : Bio} {r : SnapRead β}

def InRead (r : SnapRead β) (t : Nat) : Prop :=
  r.sector ≤ t ∧ t < r.sector + r.sectors

theorem mem_blocks {n : Nat} (h : InRead r n) : n / d.sectorsPerBlock ∈ blocks d r.sector r.sectors :=
  List.mem_map_of_mem (List.mem_range'_1.mpr h)

/-- The data holds what the device held at the creation, wherever it must. -/
def Right (d : Device) (b₀ : Nat → β) (r : SnapRead β) (must : Nat → Prop) (data : Nat → β) : Prop :=
  ∀ n, InRead r n → d.owned (n / d.sectorsPerBlock) = false → must (n / d.sectorsPerBlock) →
    data n = b₀ (d.sectOff + n)

/-- How far the cow thread is with a snapshot read: before the overlay the sectors of the unsaved
blocks are right, and at the end all of them. -/
def Reading (d : Device) (b₀ : Nat → β) (s : State β) : Prop :=
  match s.work with
  | .base bio m => ∃ r, s.reads[bio.id]? = some r ∧ m = snapReadBioGetMode d s r
  | .overlay bio data => ∃ r, s.reads[bio.id]? = some r ∧ Right d b₀ r (fun b => s.saved b = none) data
  | .finish bio ok data => ∃ r, s.reads[bio.id]? = some r ∧ ok = true ∧ Right d b₀ r (fun _ => True) data
  | _ => True

theorem sector_of (n : Nat) : d.sector (n / d.sectorsPerBlock) (n % d.sectorsPerBlock) = d.sectOff + n := by
  have := Nat.div_add_mod n d.sectorsPerBlock
  simp only [Device.sector]
  omega

theorem Original.at {data : Nat → β} {n : Nat} (h : Original d b₀ data (n / d.sectorsPerBlock)) :
    data (d.sectOff + n) = b₀ (d.sectOff + n) := by
  have := h (n % d.sectorsPerBlock) (Nat.mod_lt _ d.pos)
  rwa [sector_of] at this

theorem Reading.frame (h : Reading d b₀ s) (hw : t.work = s.work) (hs : t.saved = s.saved)
    (hr : ∀ (k : Nat) (r : SnapRead β), s.reads[k]? = some r → t.reads[k]? = some r) : Reading d b₀ t := by
  unfold Reading at h ⊢
  rw [hw]
  split at h
  · obtain ⟨r, hr', hm⟩ := h
    refine ⟨r, hr _ r hr', hm.trans ?_⟩
    simp only [snapReadBioGetMode, hs]
  · obtain ⟨r, hr', hd⟩ := h
    exact ⟨r, hr _ r hr', by rw [hs]; exact hd⟩
  · obtain ⟨r, hr', hd⟩ := h
    exact ⟨r, hr _ r hr', hd⟩
  · trivial

/-- The base device is read while nothing queued hides a submitted write of an unsaved block. -/
theorem right_base {m : Mode} (h : Point d b₀ s) (hw : s.work = .base bio m) (hr : s.reads[bio.id]? = some r)
    (hx : NotOvertaken d s (.cow (.base true))) :
    Right d b₀ r (fun b => s.saved b = none) fun n => s.base (d.sectOff + n) := by
  intro n hn ho hs
  refine Original.at (h.base _ ho hs fun q hq c hc hcv hsub => ?_)
  have hq' : q ∈ clones s.cowBios := by
    simp only [pending, hw] at hq
    exact hq
  exact hx bio m r hw hr q hq' c hc hsub n hn.1 hn.2 ho hs hcv

theorem right_overlay {data : Nat → β} (h : Point d b₀ s) (hd : Right d b₀ r (fun b => s.saved b = none) data) :
    Right d b₀ r (fun _ => True) (overlay d s.saved data) := by
  intro n hn ho _
  unfold overlay
  split
  next held hs =>
    rw [h.saved _ held hs ho _ (Nat.mod_lt _ d.pos), sector_of]
  next hs => exact hd n hn ho hs

theorem Reading.cow {act : CowAct} (h : Reading d b₀ s) (hp : Point d b₀ s) (hst : CowStep d s act t)
    (ht : t.fail = false) (hx : NotOvertaken d s (.cow act)) : Reading d b₀ t := by
  cases hst with
  | look | empty | write | finish => exact trivial
  | exit => exact h.frame rfl rfl fun _ _ => id
  | take bio rest hw hq hnf =>
      unfold Reading
      dsimp only
      by_cases hb : bio.isWrite = true
      · rw [if_pos hb]
        trivial
      · rw [if_neg hb]
        trivial
  | drop bio rest hw hq hfl =>
      rw [hp.notFailed] at hfl
      cases hfl
  | mode bio r hw hr =>
      unfold Reading
      dsimp only
      by_cases hm : snapReadBioGetMode d s r = .cowFile
      · rw [if_pos hm]
        refine ⟨r, hr, fun n hn _ hs => ?_⟩
        have hall := (readMode_fast _ _).1 hm _ (mem_blocks hn)
        rw [hs] at hall
        cases hall
      · rw [if_neg hm]
        exact ⟨r, hr, rfl⟩
  | base bio m hw =>
      unfold Reading at h ⊢
      rw [hw] at h
      obtain ⟨r, hr, hm⟩ := h
      have hright := right_base hp hw hr hx
      dsimp only
      by_cases hb : m = .baseDevice
      · rw [if_pos hb]
        refine ⟨r, hr, rfl, fun n hn ho _ => hright n hn ho ?_⟩
        have hall := (readMode_fast _ _).2 (hm.symm.trans hb) _ (mem_blocks hn)
        exact Option.not_isSome_iff_eq_none.mp (by rw [hall]; exact Bool.false_ne_true)
      · rw [if_neg hb]
        exact ⟨r, hr, hright⟩
  | overlay bio data hw =>
      unfold Reading at h
      rw [hw] at h
      obtain ⟨r, hr, hd⟩ := h
      exact ⟨r, hr, rfl, right_overlay hp hd⟩
  | error => cases ht

/-- Only the cow thread goes on with a read, and a read that arrives is a new one. -/
theorem step_reads (hst : Step d s a t) (ha : ∀ act, a ≠ .cow act) :
    t.work = s.work ∧ t.saved = s.saved ∧
      ∀ (k : Nat) (r : SnapRead β), s.reads[k]? = some r → t.reads[k]? = some r := by
  cases hst with
  | tracer i w act _ hw hs =>
      have h := (tracer_aside hs).1
      exact ⟨h.work, h.saved, fun k r hr => h.reads ▸ hr⟩
  | reader k c w act _ hk hw hs =>
      have h := (reader_aside hs).1
      exact ⟨h.work, h.saved, fun k r hr => h.reads ▸ hr⟩
  | cow act => exact absurd rfl (ha act)
  | refused | snapRead => exact ⟨rfl, rfl, fun _ _ hr => append_old hr⟩
  | _ => exact ⟨rfl, rfl, fun _ _ => id⟩

theorem Reading.step (h : Reading d b₀ s) (hp : Point d b₀ s) (hst : Step d s a t) (ht : t.fail = false)
    (hx : NotOvertaken d s a) : Reading d b₀ t := by
  by_cases ha : ∃ act, a = .cow act
  · obtain ⟨act, rfl⟩ := ha
    cases hst with
    | cow _ _ hs => exact h.cow hp hs ht hx
  · obtain ⟨hw, hs, hr⟩ := step_reads hst fun act he => ha ⟨act, he⟩
    exact h.frame hw hs hr

/-- A read that ended with success while the device had not failed got the content of the creation. -/
def Answered (d : Device) (b₀ : Nat → β) (r : SnapRead β) : Prop :=
  ∀ data, r.status = .ended true false data → Right d b₀ r (fun _ => True) data

theorem answered_append {rs : List (SnapRead β)} (h : ∀ q ∈ rs, Answered d b₀ q) (hr : Answered d b₀ r) :
    ∀ q ∈ rs ++ [r], Answered d b₀ q := by
  intro q hq
  rcases List.mem_append.mp hq with hq | hq
  · exact h q hq
  · rw [List.mem_singleton.mp hq]
    exact hr

theorem answered_modify {rs : List (SnapRead β)} {f : SnapRead β → SnapRead β} (h : ∀ q ∈ rs, Answered d b₀ q)
    (hr : ∀ q, rs[k]? = some q → Answered d b₀ (f q)) : ∀ q ∈ rs.modify k f, Answered d b₀ q := by
  intro q hq
  obtain ⟨n, hn⟩ := List.mem_iff_getElem?.mp hq
  rcases modify_some hn with ⟨rfl, p, hp, rfl⟩ | ⟨_, hn⟩
  · exact hr p hp
  · exact h q (List.mem_of_getElem? hn)

structure Serving (d : Device) (b₀ : Nat → β) (s : State β) : Prop where
  filed : Filed d s
  tracing : s.tracing = true
  latched : s.isFailed = true → s.fail = true
  point : s.fail = false → Point d b₀ s
  reading : s.fail = false → Reading d b₀ s
  answered : ∀ r ∈ s.reads, Answered d b₀ r

theorem cow_answered {act : CowAct} (h : Serving d b₀ s) (hst : CowStep d s act t) :
    ∀ r ∈ t.reads, Answered d b₀ r := by
  cases hst with
  | drop bio rest hw hq hfl =>
      have hf := h.latched hfl
      simp only [take, hfl]
      split
      · exact h.answered
      · exact h.answered
      · refine answered_modify h.answered fun q _ data he => ?_
        rw [hf] at he
        injection he with _ he
        cases he
      · exact h.answered
  | write handled bio c hw hc =>
      simp only [processed, bioFreeClone, snapHandleWriteBio]
      split
      · exact h.answered
      · split <;> exact h.answered
  | finish bio ok data hw =>
      refine answered_modify h.answered fun q hq data' he => ?_
      have hf : s.fail = false := by
        injection he
      have hread := h.reading hf
      unfold Reading at hread
      rw [hw] at hread
      obtain ⟨r, hr, _, hright⟩ := hread
      cases hr.symm.trans hq
      injection he with _ _ hd
      rw [← hd]
      exact hright
  | _ => exact h.answered

theorem step_answered (h : Serving d b₀ s) (hst : Step d s a t) : ∀ r ∈ t.reads, Answered d b₀ r := by
  cases hst with
  | tracer i w act _ hw hs =>
      rw [(tracer_aside hs).1.reads]
      exact h.answered
  | reader k c w act _ hk hw hs =>
      rw [(reader_aside hs).1.reads]
      exact h.answered
  | cow act _ hs => exact cow_answered h hs
  | refused =>
      refine answered_append h.answered fun data he => ?_
      injection he with _ he
      cases he
  | snapRead => exact answered_append h.answered fun data he => (by cases he)
  | _ => exact h.answered

theorem cow_latched {act : CowAct} (hst : CowStep d s act t) (h : s.isFailed = true → s.fail = true) :
    t.isFailed = true → t.fail = true := by
  have hk := (cow_frame hst).fail
  cases hst with
  | look =>
      intro ht
      rcases Bool.or_eq_true_iff.mp ht with ht | ht
      · exact h ht
      · exact ht
  | drop bio rest hw hq hfl => exact fun _ => hk (h hfl)
  | write handled bio c hw hc =>
      refine fun ht => hk (h ?_)
      simp only [processed, bioFreeClone, snapHandleWriteBio] at ht
      split at ht
      · exact ht
      · split at ht <;> exact ht
  | error => exact fun _ => rfl
  | _ => exact h

theorem step_latched (hst : Step d s a t) (hs : Sound s) (h : s.isFailed = true → s.fail = true) :
    t.isFailed = true → t.fail = true := by
  have hk := (step_kept hs hst).fail
  cases hst with
  | tracer i w act _ hw ht =>
      rw [(tracer_aside ht).1.isFailed]
      exact fun hf => hk (h hf)
  | reader k c w act _ hc hw ht =>
      rw [(reader_aside ht).1.isFailed]
      exact fun hf => hk (h hf)
  | cow act _ ht => exact cow_latched ht h
  | _ => exact fun hf => hk (h hf)

def stopsTracing : Action β → Bool
  | .stopTracing => true
  | _ => false

theorem step_traces (hst : Step d s a t) (ha : stopsTracing a = false) : t.tracing = s.tracing := by
  cases hst with
  | tracer i w act _ hw h => exact (tracer_base h).2
  | reader k c w act _ hc hw h => exact (reader_base h).2
  | cow act _ h => exact (cow_base h).2
  | stopTracing => cases ha
  | _ => rfl

theorem Serving.step (h : Serving d b₀ s) (hst : Step d s a t) (ha : stopsTracing a = false) (hr : NoReuse s a)
    (hx : InOrder d s a) (hv : NotOvertaken d s a) : Serving d b₀ t where
  filed := h.filed.step hst hr
  tracing := (step_traces hst ha).trans h.tracing
  latched := step_latched hst h.filed.captures.sound h.latched
  point hf := by
    have hs := not_failed (step_kept h.filed.captures.sound hst) hf
    exact (h.point hs).step h.filed hst hf h.tracing hx
  reading hf := by
    have hs := not_failed (step_kept h.filed.captures.sound hst) hf
    exact (h.reading hs).step (h.point hs) hst hf hv
  answered := step_answered h hst

theorem point_created : Point d b₀ (State.created b₀) where
  notFailed := rfl
  queued bio hm := by cases hm
  appended k c b hk := by cases hk
  saved b held hs := by cases hs
  first b _ _ := trivial
  data k c b hk := by cases hk
  base b _ _ _ _ _ := rfl

theorem serving_created : Serving d b₀ (State.created b₀) where
  filed := filed_created b₀
  tracing := rfl
  latched hf := by cases hf
  point _ := point_created
  reading _ := trivial
  answered r hr := by cases hr

/-- Active snapshot mode without the three orders of steps in which the content of the creation is
filed elsewhere, stored too late, or changed under the read. -/
def Undisturbed (d : Device) (s : State β) (a : Action β) : Prop :=
  NoReuse s a ∧ InOrder d s a ∧ NotOvertaken d s a

theorem serving_reach (h : Reach (Machine.step d) (fun s a => stopsTracing a = false ∧ Undisturbed d s a)
    (State.created b₀) s) : Serving d b₀ s :=
  h.invariant serving_created fun _ _ _ hs hc hstep => hs.step (step_of hstep) hc.1 hc.2.1 hc.2.2.1 hc.2.2.2

/-- In every run of active snapshot mode whose steps are undisturbed, a snapshot read that ended with
success while the device had not failed got, in every sector of a block not owned by the COW file, what
the base device held when the snapshot was created. -/
theorem snapshot_reads_point_in_time
    (h : Reach (step d) (fun s a => stopsTracing a = false ∧ Undisturbed d s a) (State.created b₀) s) :
    ∀ r ∈ s.reads, ∀ data, r.status = .ended true false data →
      ∀ n, r.sector ≤ n → n < r.sector + r.sectors → d.owned (n / d.sectorsPerBlock) = false →
        data n = b₀ (d.sectOff + n) := by
  intro r hr data he n hlo hhi ho
  exact (serving_reach h).answered r hr data he n ⟨hlo, hhi⟩ ho trivial

/-- At most one clone is queued when the cow thread takes a bio, none when it has read from the base
device, and each write is captured by a single clone. -/
def Sequential (s : State β) : Action β → Prop
  | .cow .dequeue => (clones s.cowBios).length ≤ 1
  | .cow (.base true) => clones s.cowBios = []
  | .tracer i (.makeClone (.made _ _)) => ∀ w ∈ s.writes[i]?, w.bioSects = []
  | .stopTracing => False
  | _ => True

theorem undisturbed_of_sequential (h : Sequential s a) : stopsTracing a = false ∧ Undisturbed d s a := by
  unfold Sequential at h
  split at h
  · refine ⟨rfl, trivial, fun bio rest pre post _ hcl older hm => ?_, trivial⟩
    rw [hcl, List.length_append, List.length_cons] at h
    have := List.length_pos_of_mem hm
    omega
  · refine ⟨rfl, trivial, trivial, fun bio m r _ _ q hq => ?_⟩
    rw [h] at hq
    cases hq
  · refine ⟨rfl, fun w hw m hm => ?_, trivial, trivial⟩
    rw [h w hw] at hm
    cases hm
  · exact h.elim
  · refine ⟨?_, ?_, ?_, ?_⟩
    · unfold stopsTracing
      split <;> simp_all
    · unfold NoReuse
      split <;> simp_all
    · unfold InOrder
      split <;> simp_all
    · unfold NotOvertaken
      split <;> simp_all

instance (s : State β) (a : Action β) : Decidable (Sequential s a) :=
  match a with
  | .cow .dequeue => inferInstanceAs (Decidable ((clones s.cowBios).length ≤ 1))
  | .cow (.base true) => inferInstanceAs (Decidable (clones s.cowBios = []))
  | .tracer i (.makeClone (.made _ _)) => inferInstanceAs (Decidable (∀ w ∈ s.writes[i]?, w.bioSects = []))
  | .stopTracing => .isFalse id
  | .cow .look | .cow (.write _) | .cow (.mode _) | .cow (.base false) | .cow (.overlay _) | .cow .finish
  | .cow .exit | .trace .. | .tracer _ (.allocTp _) | .tracer _ (.makeClone .noBio)
  | .tracer _ (.makeClone (.noPage _)) | .tracer _ (.addMap _) | .tracer _ .count | .tracer _ .submit
  | .tracer _ .put | .tracer _ .setFail | .tracer _ .cleanUp | .reader .. | .mrfSubmit _ | .mrfExit | .direct ..
  | .snapRead .. | .failure | .stopCow | .stopMrf | .free => .isTrue trivial

/-- A write that is captured, stored and submitted, and then a snapshot read of its block. -/
def readAfterWrite : List (Action Nat) :=
  captureRun ++ [.cow .look, .cow .dequeue, .cow (.write 1), .mrfSubmit fun _ => 1, .snapRead 0 8 fun _ => 2,
    .cow .look, .cow .dequeue, .cow (.mode true), .cow (.overlay true), .cow .finish]

theorem readAfterWrite_after :
    run (Machine.step disk) (State.created fun _ => 0) readAfterWrite = some (after disk (fun _ => 0) readAfterWrite) :=
  rfl

theorem readAfterWrite_reach : Reach (Machine.step disk) Sequential (State.created fun _ => 0)
    (after disk (fun _ => 0) readAfterWrite) :=
  Reach.run .init readAfterWrite_after (by decide)

theorem snapshot_reads_point_in_time_example :
    ∃ r ∈ (after disk (fun _ => 0) readAfterWrite).reads, ∃ data, r.status = .ended true false data ∧
      ∀ n < 8, data n = 0 := by
  have h := snapshot_reads_point_in_time (readAfterWrite_reach.mono fun _ _ => undisturbed_of_sequential)
  refine ⟨_, List.mem_cons_self, _, rfl, fun n hn => ?_⟩
  exact h _ List.mem_cons_self _ rfl n (Nat.zero_le n) (by simpa using hn) rfl

/-- Between the detection of the mode and the read from the base device, the block is captured and
overwritten. -/
def readBeforeWrite : List (Action Nat) :=
  [.snapRead 0 8 fun _ => 2, .cow .look, .cow .dequeue, .cow (.mode true)] ++ captureRun ++
    [.mrfSubmit fun _ => 1, .cow (.base true), .cow .finish]

theorem readBeforeWrite_after :
    run (Machine.step disk) (State.created fun _ => 0) readBeforeWrite =
      some (after disk (fun _ => 0) readBeforeWrite) :=
  rfl

theorem snapshot_read_overtaken : ¬ ∀ (d : Device) (b₀ : Nat → Nat) (s : State Nat),
    Reach (step d) (fun _ a => stopsTracing a = false) (State.created b₀) s →
    ∀ r ∈ s.reads, ∀ data, r.status = .ended true false data →
      ∀ n, r.sector ≤ n → n < r.sector + r.sectors → d.owned (n / d.sectorsPerBlock) = false →
        data n = b₀ (d.sectOff + n) := by
  intro h
  have hr : Reach (Machine.step disk) (fun _ a => stopsTracing a = false) (State.created fun _ => 0)
      (after disk (fun _ => 0) readBeforeWrite) := Reach.run .init readBeforeWrite_after (by decide)
  have hread : (1 : Nat) = 0 := h disk _ _ hr _ List.mem_cons_self _ rfl 0 (Nat.le_refl 0) (by decide) rfl
  exact absurd hread (by decide)

end ElastioSnap.Snapshot.SnapRead
