import ElastioSnap.Incremental.IncTrace

namespace ElastioSnap.Incremental.TracingMrf

open Snapshot.Tracking Snapshot.Blocks Snapshot.TraceBio IncTrace

/-- A row of `snap_devices`, as far as tracing reads it. -/
structure Tracer where
  dev : Device
  disk : Nat
  unverified : Bool
  fail : Bool
  snapshot : Bool
  cow : CowFile
  /-- `queue_max_sectors` of the base device. -/
  maxSectors : Nat
  maxPos : 0 < maxSectors

structure Bio where
  disk : Nat
  isWrite : Bool
  passthrough : Bool
  sector : Nat
  data : Payload
  deriving DecidableEq, Repr

/-- What goes wrong, by the sector at which the bio starts: memory is too low when the call begins,
something fails in it, or the allocation of a sector set does. -/
structure Env where
  memoryIsTooLow : Nat → Bool
  traceFails : Nat → Bool
  ssetAlloc : Nat → Nat → Bool

/-- The table, and what was handed on for each minor. -/
structure State where
  devices : List (Option Tracer)
  captured : List (Nat × Write)
  marked : List (Nat × SectorSet)

def State.start (devices : List (Option Tracer)) : State := ⟨devices, [], []⟩

def State.setFail (st : State) (i : Nat) : State :=
  { st with devices := st.devices.modify i (Option.map fun t => { t with fail := true }) }

def Tracer.Contains (t : Tracer) (sector : Nat) : Prop :=
  t.dev.sectOff ≤ sector ∧ sector < t.dev.sectOff + t.dev.size

instance (t : Tracer) (sector : Nat) : Decidable (t.Contains sector) :=
  inferInstanceAs (Decidable (_ ∧ _))

def tracerShouldTraceBio (t : Tracer) (bio : Bio) : Bool :=
  bio.isWrite && decide (0 < bio.data.sectors) && !t.fail && decide (t.Contains bio.sector)

/-- The loop of `tracing_mrf` over the table. -/
def findTracer (bio : Bio) : List (Option Tracer) → Nat → Option (Nat × Tracer)
  | [], _ => none
  | none :: ts, i => findTracer bio ts (i + 1)
  | some t :: ts, i =>
      if t.unverified ∨ t.disk ≠ bio.disk then findTracer bio ts (i + 1)
      -- with the passthrough flag the loop ends at the first device of the disk
      else if bio.passthrough then none
      else if tracerShouldTraceBio t bio then some (i, t)
      else findTracer bio ts (i + 1)

def bioNeedsCow (cow : CowFile) : Payload → Bool
  | .pages segs => !cow.onBdev || segs.any fun seg => decide (seg.inode ≠ cow.inode)
  | .writeZeroes _ => true
  | .discard _ => !cow.onBdev

def dropSegments : List Segment → Nat → List Segment
  | [], _ => []
  | seg :: segs, n =>
      if h : n < seg.sectors then { seg with sectors := seg.sectors - n, pos := Nat.sub_pos_of_lt h } :: segs
      else dropSegments segs (n - seg.sectors)

def dropPayload : Payload → Nat → Payload
  | .discard k, n => .discard (k - n)
  | .writeZeroes k, n => .writeZeroes (k - n)
  | .pages segs, n => .pages (dropSegments segs n)

/-- What `bio_split` leaves of a bio. -/
def rest (bio : Bio) (n : Nat) : Bio :=
  { bio with sector := bio.sector + n, data := dropPayload bio.data n }

/-- A bio that is larger than the queue takes is split: its front is traced in this call, and what
is left goes through `tracing_mrf` again. -/
def snapTraceBio (env : Env) (st : State) (i : Nat) (t : Tracer) (bio : Bio) : State × Option Bio :=
  if !bioNeedsCow t.cow bio.data then (st, none)
  else if env.memoryIsTooLow bio.sector then (st.setFail i, none)
  else
    let traced := { st with
      captured := (i, newWrite t.dev bio.sector (min bio.data.sectors t.maxSectors)) :: st.captured }
    (if env.traceFails bio.sector then traced.setFail i else traced,
      if t.maxSectors < bio.data.sectors then some (rest bio t.maxSectors) else none)

def incTrace (env : Env) (st : State) (i : Nat) (t : Tracer) (bio : Bio) : State :=
  let ssets := incTraceBio t.dev t.cow (env.ssetAlloc bio.sector) bio.sector bio.data
  let queued := { st with marked := ssets.1.map (fun s => (i, s)) ++ st.marked }
  if ssets.2 then queued.setFail i else queued

/-- One call, with the bio that it sends through the block layer again. -/
def tracingMrf (env : Env) (st : State) (bio : Bio) : State × Option Bio :=
  match findTracer bio st.devices 0 with
  | none => (st, none)
  | some (i, t) =>
      if t.snapshot then
        if bio.data.isDiscard then (st, none) else snapTraceBio env st i t bio
      else (incTrace env st i t bio, none)

variable {env : Env} {st st' : State} {bio bio' : Bio} {i k n : Nat} {t u : Tracer} {ts : List (Option Tracer)}
  {segs : List Segment} {cow : CowFile} {data : Payload} {sector s b : Nat}

theorem sum_dropSegments :
    ((dropSegments segs n).map (·.sectors)).sum = (segs.map (·.sectors)).sum - n := by
  induction segs generalizing n with
  | nil => simp [dropSegments]
  | cons seg segs ih =>
      simp only [dropSegments]
      split
      · simp only [List.map_cons, List.sum_cons]
        omega
      · rw [ih, List.map_cons, List.sum_cons]
        omega

@[simp] theorem sectors_dropPayload : (dropPayload data n).sectors = data.sectors - n := by
  cases data with
  | discard | writeZeroes => rfl
  | pages segs => exact sum_dropSegments

theorem writes_dropSegments :
    Writes cow (dropSegments segs n) (sector + n) s ↔ Writes cow segs sector s ∧ sector + n ≤ s := by
  induction segs generalizing n sector with
  | nil => simp [dropSegments, Writes]
  | cons seg segs ih =>
      simp only [dropSegments]
      split
      next h =>
        have htail : Writes cow segs (sector + seg.sectors) s → sector + n ≤ s :=
          fun hw => by have := writes_between hw; omega
        have hend : sector + n + (seg.sectors - n) = sector + seg.sectors := by omega
        simp only [Writes, hend]
        constructor
        · rintro (⟨hlo, hhi, hne⟩ | hw)
          · exact ⟨.inl ⟨by omega, hhi, hne⟩, hlo⟩
          · exact ⟨.inr hw, htail hw⟩
        · rintro ⟨⟨_, hhi, hne⟩ | hw, hle⟩
          · exact .inl ⟨hle, hhi, hne⟩
          · exact .inr hw
      next h =>
        have hstart : sector + n = sector + seg.sectors + (n - seg.sectors) := by omega
        rw [hstart, ih, ← hstart]
        simp only [Writes]
        constructor
        · exact fun h => ⟨.inr h.1, h.2⟩
        · rintro ⟨⟨_, hhi, _⟩ | hw, hle⟩
          · omega
          · exact ⟨hw, hle⟩

/-- What is left of a bio is to be tracked as before. -/
theorem tracks_drop : Tracks cow (sector + n) (dropPayload data n) s ↔ Tracks cow sector data s ∧ sector + n ≤ s := by
  cases data with
  | pages segs =>
      simp only [Tracks, dropPayload]
      split
      · exact writes_dropSegments
      · have : (dropPayload (.pages segs) n).sectors = _ := sectors_dropPayload
        simp only [dropPayload] at this
        omega
  | writeZeroes k =>
      simp only [Tracks, dropPayload]
      omega
  | discard k =>
      simp only [Tracks, dropPayload]
      constructor
      · rintro ⟨hc, hlo, hhi⟩
        exact ⟨⟨hc, by omega, by omega⟩, hlo⟩
      · rintro ⟨⟨hc, _, hhi⟩, hlo⟩
        exact ⟨hc, hlo, by omega⟩

theorem exists_writes (h : ∃ seg ∈ segs, seg.inode ≠ cow.inode) : ∃ s, Writes cow segs sector s := by
  induction segs generalizing sector with
  | nil => exact absurd h fun ⟨_, hm, _⟩ => List.not_mem_nil hm
  | cons seg segs ih =>
      obtain ⟨seg', hm, hne⟩ := h
      rcases List.mem_cons.mp hm with rfl | hm
      · have := seg'.pos
        exact ⟨sector, .inl ⟨Nat.le_refl _, by omega, hne⟩⟩
      · obtain ⟨s, hs⟩ := ih ⟨seg', hm, hne⟩
        exact ⟨s, .inr hs⟩

theorem writes_segment (h : Writes cow segs sector s) : ∃ seg ∈ segs, seg.inode ≠ cow.inode := by
  induction segs generalizing sector with
  | nil => exact h.elim
  | cons seg segs ih =>
      rcases h with ⟨_, _, hne⟩ | h
      · exact ⟨seg, List.mem_cons_self, hne⟩
      · obtain ⟨seg', hm, hne⟩ := ih h
        exact ⟨seg', List.mem_cons_of_mem _ hm, hne⟩

/-- A bio needs COW where one of its sectors is to be tracked. -/
theorem bioNeedsCow_iff (hn : 0 < data.sectors) : bioNeedsCow cow data = true ↔ ∃ s, Tracks cow sector data s := by
  cases data with
  | pages segs =>
      simp only [bioNeedsCow, Tracks]
      cases hc : cow.onBdev with
      | false => exact iff_of_true rfl ⟨sector, by simpa using hn⟩
      | true =>
          simp only [Bool.not_true, Bool.false_or, List.any_eq_true, decide_eq_true_eq, if_true]
          refine ⟨exists_writes, ?_⟩
          rintro ⟨_, hs⟩
          exact writes_segment hs
  | writeZeroes k => exact iff_of_true rfl ⟨sector, Nat.le_refl _, Nat.lt_add_of_pos_right hn⟩
  | discard k =>
      simp only [bioNeedsCow, Tracks]
      cases hc : cow.onBdev with
      | false => exact iff_of_true rfl ⟨sector, rfl, Nat.le_refl _, Nat.lt_add_of_pos_right hn⟩
      | true => simp

theorem tracingMrf_rest (h : tracingMrf env st bio = (st', some bio')) :
    ∃ n, 0 < n ∧ n < bio.data.sectors ∧ bio' = rest bio n := by
  simp only [tracingMrf] at h
  split at h
  next => cases h
  next i t _ =>
    split at h
    · split at h
      · cases h
      · simp only [snapTraceBio] at h
        split at h
        · cases h
        · split at h
          · cases h
          · simp only [Prod.mk.injEq] at h
            obtain ⟨_, h⟩ := h
            split at h
            next hlt =>
              cases h
              exact ⟨t.maxSectors, t.maxPos, hlt, rfl⟩
            next => cases h
    · cases h

theorem rest_sectors_lt (h : tracingMrf env st bio = (st', some bio')) :
    bio'.data.sectors < bio.data.sectors := by
  obtain ⟨n, hpos, hlt, rfl⟩ := tracingMrf_rest h
  simp only [rest, sectors_dropPayload]
  omega

/-- A bio goes through `tracing_mrf` until nothing is left of it. -/
def submitBio (env : Env) (st : State) (bio : Bio) : State :=
  match h : tracingMrf env st bio with
  | (st', none) => st'
  | (st', some bio') =>
      have := rest_sectors_lt h
      submitBio env st' bio'
  termination_by bio.data.sectors

/-- The calls of `tracing_mrf` that one bio leads to, each with the table it finds. -/
inductive Arrives (env : Env) (st : State) (bio : Bio) : State → Bio → Prop
  | first : Arrives env st bio st bio
  | again {st₁ st₂ : State} {bio₁ bio₂ : Bio} (h : Arrives env st bio st₁ bio₁)
      (hr : tracingMrf env st₁ bio₁ = (st₂, some bio₂)) : Arrives env st bio st₂ bio₂

theorem submitBio_done (h : tracingMrf env st bio = (st', none)) : submitBio env st bio = st' := by
  rw [submitBio]
  split
  next heq =>
    rw [h] at heq
    cases heq
    rfl
  next heq =>
    rw [h] at heq
    cases heq

theorem submitBio_again (h : tracingMrf env st bio = (st', some bio')) :
    submitBio env st bio = submitBio env st' bio' := by
  rw [submitBio]
  split
  next heq =>
    rw [h] at heq
    cases heq
  next heq =>
    rw [h] at heq
    cases heq
    rfl

theorem Arrives.submitBio_eq {st₁ : State} {bio₁ : Bio} (h : Arrives env st bio st₁ bio₁) :
    submitBio env st₁ bio₁ = submitBio env st bio := by
  induction h with
  | first => rfl
  | again _ hr ih => rw [← ih, submitBio_again hr]

/-- The first call comes first. -/
theorem Arrives.head {st₁ st₂ : State} {bio₁ bio₂ : Bio} (hr : tracingMrf env st bio = (st₁, some bio₁))
    (h : Arrives env st₁ bio₁ st₂ bio₂) : Arrives env st bio st₂ bio₂ := by
  induction h with
  | first => exact .again .first hr
  | again _ hr' ih => exact .again ih hr'

/-- What does not change on the way of a write, and what is left of it. -/
structure Remains (bio bio' : Bio) : Prop where
  disk : bio'.disk = bio.disk
  isWrite : bio'.isWrite = bio.isWrite
  passthrough : bio'.passthrough = bio.passthrough
  discard : bio'.data.isDiscard = bio.data.isDiscard
  tracks : ∀ (cow : CowFile) (s : Nat),
    Tracks cow bio'.sector bio'.data s ↔ Tracks cow bio.sector bio.data s ∧ bio'.sector ≤ s
  pos : 0 < bio'.data.sectors

theorem Remains.refl (h : 0 < bio.data.sectors) : Remains bio bio where
  disk := rfl
  isWrite := rfl
  passthrough := rfl
  discard := rfl
  tracks _ _ := ⟨fun h => ⟨h, (tracks_between h).1⟩, And.left⟩
  pos := h

theorem isDiscard_dropPayload : (dropPayload data n).isDiscard = data.isDiscard := by
  cases data <;> rfl

theorem remains_rest (h : n < bio.data.sectors) : Remains bio (rest bio n) where
  disk := rfl
  isWrite := rfl
  passthrough := rfl
  discard := isDiscard_dropPayload
  tracks _ _ := tracks_drop
  pos := by
    simp only [rest, sectors_dropPayload]
    omega

theorem Remains.trans {bio₁ bio₂ : Bio} (h : Remains bio bio₁) (h' : Remains bio₁ bio₂)
    (hle : bio₁.sector ≤ bio₂.sector) : Remains bio bio₂ where
  disk := h'.disk.trans h.disk
  isWrite := h'.isWrite.trans h.isWrite
  passthrough := h'.passthrough.trans h.passthrough
  discard := h'.discard.trans h.discard
  tracks cow s := by
    rw [h'.tracks, h.tracks]
    constructor
    · exact fun ⟨⟨ht, _⟩, hs⟩ => ⟨ht, hs⟩
    · exact fun ⟨ht, hs⟩ => ⟨⟨ht, Nat.le_trans hle hs⟩, hs⟩
  pos := h'.pos

theorem Arrives.remains {st₁ : State} {bio₁ : Bio} (h : Arrives env st bio st₁ bio₁) (hn : 0 < bio.data.sectors) :
    Remains bio bio₁ := by
  induction h with
  | first => exact .refl hn
  | again _ hr ih =>
      obtain ⟨n, _, hlt, rfl⟩ := tracingMrf_rest hr
      exact ih.trans (remains_rest hlt) (Nat.le_add_right _ _)

/-- A verified device of a disk that is not in the fail state. -/
structure Tracked (ts : List (Option Tracer)) (disk i : Nat) (t : Tracer) : Prop where
  row : ts[i]? = some (some t)
  verified : t.unverified = false
  ok : t.fail = false
  disk : t.disk = disk

/-- The devices of a disk have no sector in common. -/
def Disjoint (ts : List (Option Tracer)) (disk : Nat) : Prop :=
  ∀ (i j : Nat) (t u : Tracer) (s : Nat), Tracked ts disk i t → Tracked ts disk j u → t.Contains s → u.Contains s →
    i = j

theorem findTracer_some (h : findTracer bio ts k = some (i, t)) :
    ∃ m, i = m + k ∧ Tracked ts bio.disk m t ∧ t.Contains bio.sector := by
  induction ts generalizing k with
  | nil => cases h
  | cons o ts ih =>
      have hlater (h : findTracer bio ts (k + 1) = some (i, t)) :
          ∃ m, i = m + k ∧ Tracked (o :: ts) bio.disk m t ∧ t.Contains bio.sector := by
        obtain ⟨m, rfl, ht, hc⟩ := ih h
        exact ⟨m + 1, by omega, ⟨ht.row, ht.verified, ht.ok, ht.disk⟩, hc⟩
      cases o with
      | none => exact hlater h
      | some u =>
          simp only [findTracer] at h
          split at h
          next => exact hlater h
          next hu =>
            rw [not_or, Bool.not_eq_true, Decidable.not_not] at hu
            split at h
            next => cases h
            next =>
              split at h
              next hs =>
                cases h
                simp only [tracerShouldTraceBio, Bool.and_eq_true, Bool.not_eq_true', decide_eq_true_eq] at hs
                exact ⟨0, by omega, ⟨rfl, hu.1, hs.1.2, hu.2⟩, hs.2⟩
              next => exact hlater h

/-- With disjoint ranges the loop finds the device in whose range the bio starts. -/
theorem findTracer_tracked (hd : Disjoint ts bio.disk) (ht : Tracked ts bio.disk i t) (hc : t.Contains bio.sector)
    (hw : bio.isWrite = true) (hp : bio.passthrough = false) (hn : 0 < bio.data.sectors) :
    findTracer bio ts k = some (i + k, t) := by
  induction ts generalizing i k with
  | nil => cases ht.row
  | cons o ts ih =>
      have hlater (m : Nat) (hm : i = m + 1) : findTracer bio ts (k + 1) = some (i + k, t) := by
        subst hm
        have hd' : Disjoint ts bio.disk := fun i j t u s hi hj hti htj => Nat.succ.inj
          (hd (i + 1) (j + 1) t u s ⟨hi.row, hi.verified, hi.ok, hi.disk⟩ ⟨hj.row, hj.verified, hj.ok, hj.disk⟩ hti htj)
        rw [ih hd' ⟨ht.row, ht.verified, ht.ok, ht.disk⟩]
        congr 2
        omega
      cases i with
      | zero =>
          have hrow : o = some t := by simpa using ht.row
          subst hrow
          rw [findTracer, if_neg (by simp [ht.verified, ht.disk]), if_neg (by simp [hp]), if_pos
            (by simp [tracerShouldTraceBio, hw, hn, ht.ok, hc]), Nat.zero_add]
      | succ m =>
          cases o with
          | none => exact hlater m rfl
          | some u =>
              simp only [findTracer]
              split
              next => exact hlater m rfl
              next hu =>
                rw [not_or, Bool.not_eq_true, Decidable.not_not] at hu
                rw [if_neg (by simp [hp])]
                refine (if_neg fun hs => ?_).trans (hlater m rfl)
                simp only [tracerShouldTraceBio, Bool.and_eq_true, Bool.not_eq_true', decide_eq_true_eq] at hs
                have := hd _ 0 t u bio.sector ht ⟨rfl, hu.1, hs.1.2, hu.2⟩ hc hs.2
                omega

def Tracer.failed (t : Tracer) : Tracer := { t with fail := true }

/-- What one call leaves of the table: a row may have failed, nothing else happens to it. -/
structure Later (st st' : State) : Prop where
  rows : ∀ i : Nat, st'.devices[i]? = st.devices[i]? ∨
    st'.devices[i]? = (st.devices[i]?).map (Option.map Tracer.failed)
  captured : st.captured ⊆ st'.captured
  marked : st.marked ⊆ st'.marked

theorem Later.refl : Later st st :=
  ⟨fun _ => .inl rfl, List.Subset.refl _, List.Subset.refl _⟩

theorem Later.trans {st₁ st₂ : State} (h : Later st st₁) (h' : Later st₁ st₂) : Later st st₂ where
  rows i := by
    rcases h.rows i with h | h <;> rcases h'.rows i with h' | h' <;> rw [h', h]
    · exact .inl rfl
    · exact .inr rfl
    · exact .inr rfl
    · right
      rcases st.devices[i]? with _ | _ | t <;> rfl
  captured := List.Subset.trans h.captured h'.captured
  marked := List.Subset.trans h.marked h'.marked

theorem Later.setFail (h : Later st st') : Later st (st'.setFail k) := by
  refine h.trans ⟨fun i => ?_, List.Subset.refl _, List.Subset.refl _⟩
  rw [State.setFail, List.getElem?_modify]
  split
  · exact .inr rfl
  · left
    rcases st'.devices[i]? with _ | o <;> rfl

theorem Later.tracked {disk : Nat} (h : Later st st') (ht : Tracked st'.devices disk i t) :
    Tracked st.devices disk i t := by
  refine ⟨?_, ht.verified, ht.ok, ht.disk⟩
  rcases h.rows i with hr | hr
  · rw [← hr, ht.row]
  · rw [ht.row] at hr
    rcases h : st.devices[i]? with _ | _ | u <;> rw [h] at hr
    · cases hr
    · cases hr
    · cases hr
      exact absurd ht.ok (by simp [Tracer.failed])

theorem Later.disjoint {disk : Nat} (h : Later st st') (hd : Disjoint st.devices disk) :
    Disjoint st'.devices disk :=
  fun i j t u s ht hu => hd i j t u s (h.tracked ht) (h.tracked hu)

theorem not_tracked_setFail {disk : Nat} : ¬ Tracked (st.setFail i).devices disk i t := by
  intro ht
  have hr := ht.row
  rw [State.setFail, List.getElem?_modify_eq] at hr
  rcases h : st.devices[i]? with _ | _ | u <;> rw [h] at hr
  · cases hr
  · cases hr
  · cases hr
    exact absurd ht.ok (by simp)

theorem snapTraceBio_later : Later st (snapTraceBio env st i t bio).1 := by
  simp only [snapTraceBio]
  split
  · exact .refl
  · split
    · exact Later.refl.setFail
    · dsimp only
      have h : Later st { st with
          captured := (i, newWrite t.dev bio.sector (min bio.data.sectors t.maxSectors)) :: st.captured } :=
        ⟨fun _ => .inl rfl, List.subset_cons_self _ _, List.Subset.refl _⟩
      split
      · exact h.setFail
      · exact h

theorem incTrace_later : Later st (incTrace env st i t bio) := by
  simp only [incTrace]
  have h : Later st { st with marked :=
      (incTraceBio t.dev t.cow (env.ssetAlloc bio.sector) bio.sector bio.data).1.map (fun s => (i, s)) ++ st.marked } :=
    ⟨fun _ => .inl rfl, List.Subset.refl _, List.subset_append_right _ _⟩
  split
  · exact h.setFail
  · exact h

theorem tracingMrf_later {o : Option Bio} (h : tracingMrf env st bio = (st', o)) : Later st st' := by
  have hst : st' = (tracingMrf env st bio).1 := by rw [h]
  rw [hst, tracingMrf]
  split
  · exact .refl
  · split
    · split
      · exact .refl
      · exact snapTraceBio_later
    · exact incTrace_later

theorem Arrives.later {st₁ : State} {bio₁ : Bio} (h : Arrives env st bio st₁ bio₁) : Later st st₁ := by
  induction h with
  | first => exact .refl
  | again _ hr ih => exact ih.trans (tracingMrf_later hr)

theorem submitBio_later : Later st (submitBio env st bio) := by
  fun_induction submitBio env st bio with
  | case1 st bio st' h => exact tracingMrf_later h
  | case2 st bio st' bio' h _ ih => exact (tracingMrf_later h).trans ih

/-- The read clones of a traced write take in the block. -/
def Captures (d : Device) (w : Write) (b : Nat) : Prop :=
  w.startSect ≤ d.sector b 0 ∧ d.sector b d.sectorsPerBlock ≤ w.startSect + d.sectorsPerBlock * w.pages

/-- The block is captured where the device is in snapshot mode, and marked where it is not. -/
def Handled (st : State) (i : Nat) (t : Tracer) (b : Nat) : Prop :=
  if t.snapshot then ∃ w, (i, w) ∈ st.captured ∧ Captures t.dev w b
  else ∃ s, (i, s) ∈ st.marked ∧ b ∈ incHandleSset t.dev s

theorem Handled.later (h : Handled st i t b) (hl : Later st st') : Handled st' i t b := by
  unfold Handled at h ⊢
  split
  next hs =>
    rw [if_pos hs] at h
    obtain ⟨w, hw, hc⟩ := h
    exact ⟨w, hl.captured hw, hc⟩
  next hs =>
    rw [if_neg hs] at h
    obtain ⟨s, hs, hb⟩ := h
    exact ⟨s, hl.marked hs, hb⟩

/-- A traced write captures the blocks that it overlaps. -/
theorem captures_newWrite {d : Device} (ho : d.sectOff ≤ sector) (hn : 0 < n) :
    Captures d (newWrite d sector n) b ↔ d.Overlaps sector n b := by
  have hpos := d.pos
  have hstart : (newWrite d sector n).startSect = startSect d sector := rfl
  rw [Captures, hstart, pages_total ho, ← mem_incHandleSset ho hn, startSect_eq, endSect_eq, sector_succ, sector_le_iff,
    sector_le_iff]
  have hle : (sector - d.sectOff) / d.sectorsPerBlock ≤
      (sector - d.sectOff + n + d.sectorsPerBlock - 1) / d.sectorsPerBlock := Nat.div_le_div_right (by omega)
  have hsum : sector + n - d.sectOff = sector - d.sectOff + n := by omega
  simp only [incHandleSset, incMakeSset, List.mem_range'_1, Nat.add_sub_of_le hle, hsum, Nat.lt_iff_add_one_le]

/-- A write that is no discard, without the passthrough flag. -/
structure Bio.Traced (bio : Bio) : Prop where
  isWrite : bio.isWrite = true
  passthrough : bio.passthrough = false
  discard : bio.data.isDiscard = false

theorem Remains.traced (h : Remains bio bio') (hb : bio.Traced) : bio'.Traced :=
  ⟨h.isWrite.trans hb.isWrite, h.passthrough.trans hb.passthrough, h.discard.trans hb.discard⟩

theorem sectors_pos (h : Tracks cow bio.sector bio.data s) : 0 < bio.data.sectors := by
  have := tracks_between h
  omega

/-- A bio that starts in the range of a device in incremental mode is marked to its end. -/
theorem inc_handled (hd : Disjoint st.devices bio.disk) (hb : bio.Traced)
    (ht : Tracked (submitBio env st bio).devices bio.disk i t) (hm : t.snapshot = false)
    (hc : t.Contains bio.sector) (hs : Tracks t.cow bio.sector bio.data s) :
    Handled (submitBio env st bio) i t (t.dev.block s) := by
  have hcall : tracingMrf env st bio = (incTrace env st i t bio, none) := by
    rw [tracingMrf, findTracer_tracked hd (submitBio_later.tracked ht) hc hb.isWrite hb.passthrough (sectors_pos hs)]
    simp [hm]
  rw [submitBio_done hcall] at ht ⊢
  rw [incTrace] at ht ⊢
  split at ht
  next => exact absurd ht not_tracked_setFail
  next hall =>
    rw [if_neg hall, Handled, if_neg (by simp [hm])]
    obtain ⟨r, hr, hlo, hhi⟩ := inRanges_bio.mpr hs
    have hfrom := bioRanges_from r hr (by omega)
    have hset := incTraceBio_complete (Bool.eq_false_iff.mpr hall) hr
    refine ⟨_, List.mem_append_left _ (List.mem_map_of_mem hset), ?_⟩
    rw [mem_incHandleSset (Nat.le_trans hc.1 hfrom.1) (by omega)]
    exact ⟨s, hlo, hhi, rfl⟩

/-- A bio that starts in the range of a device in snapshot mode: its front is captured, and what the
queue does not take is submitted again. -/
theorem snap_call (hd : Disjoint st.devices bio.disk) (hb : bio.Traced)
    (ht : Tracked (submitBio env st bio).devices bio.disk i t) (hm : t.snapshot = true)
    (hc : t.Contains bio.sector) (hs : Tracks t.cow bio.sector bio.data s) :
    ∃ st', tracingMrf env st bio =
        (st', if t.maxSectors < bio.data.sectors then some (rest bio t.maxSectors) else none) ∧
      (i, newWrite t.dev bio.sector (min bio.data.sectors t.maxSectors)) ∈ st'.captured := by
  have hn := sectors_pos hs
  have hcall : tracingMrf env st bio = snapTraceBio env st i t bio := by
    rw [tracingMrf, findTracer_tracked hd (submitBio_later.tracked ht) hc hb.isWrite hb.passthrough hn]
    simp [hm, hb.discard]
  have hneeds := (bioNeedsCow_iff hn).mpr ⟨s, hs⟩
  rw [snapTraceBio, hneeds, Bool.not_true, if_neg Bool.false_ne_true] at hcall
  split at hcall
  next =>
    rw [submitBio_done hcall] at ht
    exact absurd ht not_tracked_setFail
  next =>
    refine ⟨_, hcall, ?_⟩
    split <;> exact List.mem_cons_self

theorem snap_front_handled (hd : Disjoint st.devices bio.disk) (hb : bio.Traced)
    (ht : Tracked (submitBio env st bio).devices bio.disk i t) (hm : t.snapshot = true)
    (hc : t.Contains bio.sector) (hs : Tracks t.cow bio.sector bio.data s)
    (ho : t.dev.Overlaps bio.sector (min bio.data.sectors t.maxSectors) b) :
    Handled (submitBio env st bio) i t b := by
  obtain ⟨st', hcall, hw⟩ := snap_call hd hb ht hm hc hs
  have hn := sectors_pos hs
  have hmax := t.maxPos
  have hfront : Handled st' i t b := by
    rw [Handled, if_pos hm]
    exact ⟨_, hw, (captures_newWrite hc.1 (by omega)).mpr ho⟩
  split at hcall
  next =>
    rw [submitBio_again hcall]
    exact hfront.later submitBio_later
  next =>
    rw [submitBio_done hcall]
    exact hfront

/-- Every later sector of the device that such a bio writes is captured too: the induction is on
the calls, each of which starts in the range of the device again. -/
theorem snap_handled {st : State} {bio : Bio} (hd : Disjoint st.devices bio.disk) (hb : bio.Traced)
    (ht : Tracked (submitBio env st bio).devices bio.disk i t) (hm : t.snapshot = true)
    (hc : t.Contains bio.sector) (hs : Tracks t.cow bio.sector bio.data s) (hin : t.Contains s) :
    Handled (submitBio env st bio) i t (t.dev.block s) := by
  have hbetween := tracks_between hs
  by_cases hfront : s < bio.sector + t.maxSectors
  · exact snap_front_handled hd hb ht hm hc hs ⟨s, hbetween.1, by omega, rfl⟩
  · obtain ⟨st', hcall, _⟩ := snap_call hd hb ht hm hc hs
    have hlt : t.maxSectors < bio.data.sectors := by omega
    have hr := remains_rest hlt
    rw [if_pos hlt] at hcall
    rw [submitBio_again hcall] at ht ⊢
    refine snap_handled ((tracingMrf_later hcall).disjoint hd) (hr.traced hb) ht hm ?_
      ((hr.tracks _ _).mpr ⟨hs, Nat.le_of_not_lt hfront⟩) hin
    exact ⟨Nat.le_trans hc.1 (Nat.le_add_right _ _), Nat.lt_of_le_of_lt (Nat.le_of_not_lt hfront) hin.2⟩
  termination_by bio.data.sectors
  decreasing_by
    have := t.maxPos
    simp only [rest, sectors_dropPayload]
    omega

/-- What one call captures and marks, by the device that the loop found for it. -/
structure Found (st : State) (bio : Bio) (i : Nat) (t : Tracer) : Prop where
  tracked : Tracked st.devices bio.disk i t
  contains : t.Contains bio.sector

@[simp] theorem captured_setFail : (st.setFail k).captured = st.captured := rfl

@[simp] theorem marked_setFail : (st.setFail k).marked = st.marked := rfl

theorem call_captured {o : Option Bio} {w : Write} (h : tracingMrf env st bio = (st', o))
    (hw : (i, w) ∈ st'.captured) :
    (i, w) ∈ st.captured ∨ ∃ t, Found st bio i t ∧ bioNeedsCow t.cow bio.data = true ∧
      w = newWrite t.dev bio.sector (min bio.data.sectors t.maxSectors) := by
  have hst : st' = (tracingMrf env st bio).1 := by rw [h]
  rw [hst, tracingMrf] at hw
  split at hw
  next => exact .inl hw
  next j t hfind =>
    obtain ⟨m, rfl, ht, hc⟩ := findTracer_some hfind
    split at hw
    · split at hw
      · exact .inl hw
      · rw [snapTraceBio] at hw
        split at hw
        next => exact .inl hw
        next hneeds =>
          split at hw
          next => exact .inl hw
          next =>
            have hmem : (i, w) ∈
                (j, newWrite t.dev bio.sector (min bio.data.sectors t.maxSectors)) :: st.captured := by
              dsimp only at hw
              split at hw <;> exact hw
            rcases List.mem_cons.mp hmem with heq | hmem
            · cases heq
              exact .inr ⟨t, ⟨ht, hc⟩, by simpa using hneeds, rfl⟩
            · exact .inl hmem
    · rw [incTrace] at hw
      split at hw <;> exact .inl hw

theorem call_marked {o : Option Bio} {x : SectorSet} (h : tracingMrf env st bio = (st', o))
    (hx : (i, x) ∈ st'.marked) :
    (i, x) ∈ st.marked ∨ ∃ t, Found st bio i t ∧ t.snapshot = false ∧
      x ∈ (incTraceBio t.dev t.cow (env.ssetAlloc bio.sector) bio.sector bio.data).1 := by
  have hst : st' = (tracingMrf env st bio).1 := by rw [h]
  rw [hst, tracingMrf] at hx
  split at hx
  next => exact .inl hx
  next j t hfind =>
    obtain ⟨m, rfl, ht, hc⟩ := findTracer_some hfind
    split at hx
    · split at hx
      · exact .inl hx
      · rw [snapTraceBio] at hx
        split at hx
        · exact .inl hx
        · split at hx
          · exact .inl hx
          · dsimp only at hx
            split at hx <;> exact .inl hx
    next hsnap =>
      have hmem : (i, x) ∈ (incTraceBio t.dev t.cow (env.ssetAlloc bio.sector) bio.sector bio.data).1.map
          (fun s => (j, s)) ++ st.marked := by
        rw [incTrace] at hx
        split at hx <;> exact hx
      rcases List.mem_append.mp hmem with hmem | hmem
      · obtain ⟨y, hy, heq⟩ := List.mem_map.mp hmem
        cases heq
        exact .inr ⟨t, ⟨ht, hc⟩, by simpa using hsnap, hy⟩
      · exact .inl hmem

/-- What was captured in the end, one of the calls captured. -/
theorem captured_arrival {w : Write} (hw : (i, w) ∈ (submitBio env st bio).captured) :
    (i, w) ∈ st.captured ∨ ∃ (st₁ : State) (bio₁ : Bio) (t : Tracer), Arrives env st bio st₁ bio₁ ∧
      Found st₁ bio₁ i t ∧ bioNeedsCow t.cow bio₁.data = true ∧
      w = newWrite t.dev bio₁.sector (min bio₁.data.sectors t.maxSectors) := by
  fun_induction submitBio env st bio with
  | case1 st bio st' h =>
      rcases call_captured h hw with hw | ⟨t, ht, hneeds, heq⟩
      · exact .inl hw
      · exact .inr ⟨st, bio, t, .first, ht, hneeds, heq⟩
  | case2 st bio st' bio' h _ ih =>
      rcases ih hw with hw | ⟨st₁, bio₁, t, ha, ht⟩
      · rcases call_captured h hw with hw | ⟨t, ht, hneeds, heq⟩
        · exact .inl hw
        · exact .inr ⟨st, bio, t, .first, ht, hneeds, heq⟩
      · exact .inr ⟨st₁, bio₁, t, .head h ha, ht⟩

theorem marked_arrival {x : SectorSet} (hx : (i, x) ∈ (submitBio env st bio).marked) :
    (i, x) ∈ st.marked ∨ ∃ (st₁ : State) (bio₁ : Bio) (t : Tracer), Arrives env st bio st₁ bio₁ ∧
      Found st₁ bio₁ i t ∧ t.snapshot = false ∧
      x ∈ (incTraceBio t.dev t.cow (env.ssetAlloc bio₁.sector) bio₁.sector bio₁.data).1 := by
  fun_induction submitBio env st bio with
  | case1 st bio st' h =>
      rcases call_marked h hx with hx | ⟨t, ht, hsnap, hmem⟩
      · exact .inl hx
      · exact .inr ⟨st, bio, t, .first, ht, hsnap, hmem⟩
  | case2 st bio st' bio' h _ ih =>
      rcases ih hx with hx | ⟨st₁, bio₁, t, ha, ht⟩
      · rcases call_marked h hx with hx | ⟨t, ht, hsnap, hmem⟩
        · exact .inl hx
        · exact .inr ⟨st, bio, t, .first, ht, hsnap, hmem⟩
      · exact .inr ⟨st₁, bio₁, t, .head h ha, ht⟩

/-- A call that starts in the range of the device comes no later than a sector of the block that is
to be tracked, or, in snapshot mode, starts in that block. -/
def Reached (env : Env) (st : State) (bio : Bio) (t : Tracer) (b : Nat) : Prop :=
  ∃ (st₁ : State) (bio₁ : Bio) (s : Nat), Arrives env st bio st₁ bio₁ ∧ t.Contains bio₁.sector ∧
    Tracks t.cow bio.sector bio.data s ∧ bio₁.sector ≤ s ∧
    (t.dev.block s = b ∨ (t.snapshot = true ∧ t.dev.block bio₁.sector = b))

theorem block_mono {d : Device} {s' : Nat} (h : s ≤ s') : d.block s ≤ d.block s' :=
  Nat.div_le_div_right (by omega)

theorem handled_of_reached (hd : Disjoint st.devices bio.disk) (hb : bio.Traced)
    (ht : Tracked (submitBio env st bio).devices bio.disk i t) (hin : t.Contains s)
    (hs : Tracks t.cow bio.sector bio.data s) (h : Reached env st bio t (t.dev.block s)) :
    Handled (submitBio env st bio) i t (t.dev.block s) := by
  obtain ⟨st₁, bio₁, s', ha, hc, hs', hle, hblock⟩ := h
  have hr := ha.remains (sectors_pos hs)
  have hd₁ : Disjoint st₁.devices bio₁.disk := hr.disk ▸ ha.later.disjoint hd
  have hs₁ := (hr.tracks t.cow s').mpr ⟨hs', hle⟩
  rw [← ha.submitBio_eq, ← hr.disk] at ht
  rw [← ha.submitBio_eq]
  cases hm : t.snapshot with
  | false =>
      rcases hblock with hblock | ⟨hsnap, _⟩
      · rw [← hblock]
        exact inc_handled hd₁ (hr.traced hb) ht hm hc hs₁
      · exact absurd (hsnap.symm.trans hm) (by decide)
  | true =>
      by_cases hfirst : bio₁.sector ≤ s
      · exact snap_handled hd₁ (hr.traced hb) ht hm hc ((hr.tracks t.cow s).mpr ⟨hs, hfirst⟩) hin
      · have hstart : t.dev.block bio₁.sector = t.dev.block s := by
          rcases hblock with hblock | ⟨_, hblock⟩
          · exact Nat.le_antisymm (hblock ▸ block_mono hle) (block_mono (by omega))
          · exact hblock
        have hpos := hr.pos
        have hmax := t.maxPos
        exact snap_front_handled hd₁ (hr.traced hb) ht hm hc hs₁
          ⟨bio₁.sector, Nat.le_refl _, by omega, hstart⟩

theorem reached_of_handled (ht : Tracked (submitBio env (.start ts) bio).devices bio.disk i t) (hin : t.Contains s)
    (hs : Tracks t.cow bio.sector bio.data s) (h : Handled (submitBio env (.start ts) bio) i t (t.dev.block s)) :
    Reached env (.start ts) bio t (t.dev.block s) := by
  -- the device that a call found is the one that did not fail
  have hsame {st₁ : State} {bio₁ : Bio} {u : Tracer} (ha : Arrives env (.start ts) bio st₁ bio₁)
      (hf : Found st₁ bio₁ i u) : u = t := by
    rw [← ha.submitBio_eq] at ht
    have := (submitBio_later.tracked ht).row
    rw [hf.tracked.row] at this
    exact Option.some.inj (Option.some.inj this)
  unfold Handled at h
  split at h
  next hsnap =>
    obtain ⟨w, hw, hcap⟩ := h
    rcases captured_arrival hw with hnil | ⟨st₁, bio₁, u, ha, hf, hneeds, rfl⟩
    · cases hnil
    · obtain rfl := hsame ha hf
      have hr := ha.remains (sectors_pos hs)
      have hpos := hr.pos
      have hmax := u.maxPos
      obtain ⟨s₁, hlo, _, hblock⟩ := (captures_newWrite hf.contains.1 (by omega)).mp hcap
      by_cases hfirst : bio₁.sector ≤ s
      · exact ⟨st₁, bio₁, s, ha, hf.contains, hs, hfirst, .inl rfl⟩
      · obtain ⟨s', hs'⟩ := (bioNeedsCow_iff hr.pos).mp hneeds
        have hs' := (hr.tracks u.cow s').mp hs'
        refine ⟨st₁, bio₁, s', ha, hf.contains, hs'.1, hs'.2, .inr ⟨hsnap, ?_⟩⟩
        exact Nat.le_antisymm (hblock ▸ block_mono hlo) (block_mono (by omega))
  next hsnap =>
    obtain ⟨x, hx, hmem⟩ := h
    rcases marked_arrival hx with hnil | ⟨st₁, bio₁, u, ha, hf, _, hx⟩
    · cases hnil
    · obtain rfl := hsame ha hf
      have hr := ha.remains (sectors_pos hs)
      obtain ⟨r, hrange, rfl⟩ := mem_incTraceBio hx
      have hpos := bioRanges_pos hr.pos r hrange
      have hfrom := bioRanges_from r hrange hpos
      rw [mem_incHandleSset (Nat.le_trans hf.contains.1 hfrom.1) hpos] at hmem
      obtain ⟨s', hlo, hhi, hblock⟩ := hmem
      have hs' := (hr.tracks u.cow s').mp (inRanges_bio.mp ⟨r, hrange, hlo, hhi⟩)
      exact ⟨st₁, bio₁, s', ha, hf.contains, hs'.1, hs'.2, .inl hblock⟩

/-- The blocks of the devices that a write is to be tracked in, in devices that do not fail over it. -/
def ToTrack (env : Env) (ts : List (Option Tracer)) (bio : Bio) (i : Nat) (t : Tracer) (b : Nat) : Prop :=
  Tracked (submitBio env (.start ts) bio).devices bio.disk i t ∧
    ∃ s, t.Contains s ∧ Tracks t.cow bio.sector bio.data s ∧ t.dev.block s = b

/-- A write is traced in every device that it reaches into exactly if a call that starts in the range of
the device reaches each block. -/
theorem write_traced_iff (env : Env) (ts : List (Option Tracer)) (bio : Bio) (hd : Disjoint ts bio.disk)
    (hb : bio.Traced) :
    (∀ (i : Nat) (t : Tracer) (b : Nat), ToTrack env ts bio i t b → Handled (submitBio env (.start ts) bio) i t b) ↔
      ∀ (i : Nat) (t : Tracer) (b : Nat), ToTrack env ts bio i t b → Reached env (.start ts) bio t b := by
  constructor
  · rintro h i t b ⟨ht, s, hin, hs, rfl⟩
    exact reached_of_handled ht hin hs (h i t _ ⟨ht, s, hin, hs, rfl⟩)
  · rintro h i t b ⟨ht, s, hin, hs, rfl⟩
    exact handled_of_reached hd hb ht hin hs (h i t _ ⟨ht, s, hin, hs, rfl⟩)

def faultless : Env where
  memoryIsTooLow _ := false
  traceFails _ := false
  ssetAlloc _ _ := true

/-- A device of two blocks that begins at sector 8 of its disk, with its COW file elsewhere. -/
def secondPart : Tracer where
  dev := { sectOff := 8, size := 16, sectorsPerBlock := 8, ignoreSnapErrors := false, owned := fun _ => false, pos := eight_pos }
  disk := 0
  unverified := false
  fail := false
  snapshot := true
  cow := ⟨false, none⟩
  maxSectors := 8
  maxPos := by decide

/-- A write through the device of the whole disk. -/
def wholeDiskWrite (sector sectors : Nat) : Bio := ⟨0, true, false, sector, .writeZeroes sectors⟩

theorem wholeDiskWrite_traced {sectors : Nat} : (wholeDiskWrite sector sectors).Traced := ⟨rfl, rfl, rfl⟩

theorem tracked_singleton {disk : Nat} (h : Tracked [some u] disk i t) : i = 0 ∧ t = u := by
  have hr := h.row
  cases i with
  | zero => exact ⟨rfl, Option.some.inj (Option.some.inj hr.symm)⟩
  | succ i => cases hr

theorem disjoint_singleton {disk : Nat} : Disjoint [some u] disk := fun _ _ _ _ _ hi hj _ _ =>
  (tracked_singleton hi).1.trans (tracked_singleton hj).1.symm

/-- The device of two blocks behind that one, in incremental mode. -/
def thirdPart : Tracer :=
  { secondPart with dev := { secondPart.dev with sectOff := 24 }, snapshot := false }

def twoParts : List (Option Tracer) := [some secondPart, some thirdPart]

theorem tracked_twoParts {disk : Nat} (h : Tracked twoParts disk i t) :
    (i = 0 ∧ t = secondPart) ∨ (i = 1 ∧ t = thirdPart) := by
  have hr := h.row
  rcases i with _ | _ | i
  · exact .inl ⟨rfl, Option.some.inj (Option.some.inj hr.symm)⟩
  · exact .inr ⟨rfl, Option.some.inj (Option.some.inj hr.symm)⟩
  · cases hr

theorem disjoint_twoParts {disk : Nat} : Disjoint twoParts disk := by
  have hapart : ∀ s, secondPart.Contains s → ¬ thirdPart.Contains s := by
    rintro s ⟨-, hhi⟩ ⟨hlo, -⟩
    exact absurd (Nat.lt_of_le_of_lt hlo hhi) (by decide)
  intro i j t u s hi hj ht hu
  rcases tracked_twoParts hi with ⟨rfl, rfl⟩ | ⟨rfl, rfl⟩ <;> rcases tracked_twoParts hj with ⟨rfl, rfl⟩ | ⟨rfl, rfl⟩
  · rfl
  · exact absurd hu (hapart s ht)
  · exact absurd ht (hapart s hu)
  · rfl

/-- A write through the first device and into the second one is split where the second one begins. -/
theorem write_traced_iff_example : Disjoint twoParts 0 ∧ (wholeDiskWrite 8 24).Traced ∧
    ∀ (i : Nat) (t : Tracer) (b : Nat), ToTrack faultless twoParts (wholeDiskWrite 8 24) i t b →
      Handled (submitBio faultless (.start twoParts) (wholeDiskWrite 8 24)) i t b := by
  refine ⟨disjoint_twoParts, wholeDiskWrite_traced,
    (write_traced_iff faultless _ _ disjoint_twoParts wholeDiskWrite_traced).mpr ?_⟩
  rintro i t b ⟨ht, s, hin, hs, rfl⟩
  rcases tracked_twoParts (submitBio_later.tracked ht) with ⟨rfl, rfl⟩ | ⟨rfl, rfl⟩
  · exact ⟨_, _, s, .first, by decide, hs, hs.1, .inl rfl⟩
  · obtain ⟨st₁, st₂, hfirst, hsecond⟩ : ∃ st₁ st₂,
        tracingMrf faultless (.start twoParts) (wholeDiskWrite 8 24) = (st₁, some (wholeDiskWrite 16 16)) ∧
        tracingMrf faultless st₁ (wholeDiskWrite 16 16) = (st₂, some (wholeDiskWrite 24 8)) := ⟨_, _, rfl, rfl⟩
    exact ⟨st₂, wholeDiskWrite 24 8, s, (Arrives.first.again hfirst).again hsecond, by decide, hs, hin.1, .inl rfl⟩

/-- A write that begins in front of the device and reaches into it passes by. -/
theorem write_untraced : ¬ ∀ (env : Env) (ts : List (Option Tracer)) (bio : Bio), Disjoint ts bio.disk → bio.Traced →
    ∀ (i : Nat) (t : Tracer) (b : Nat), ToTrack env ts bio i t b → Handled (submitBio env (.start ts) bio) i t b := by
  intro h
  have hcall : tracingMrf faultless (.start [some secondPart]) (wholeDiskWrite 0 16) = (.start [some secondPart], none) := rfl
  have hend := submitBio_done hcall
  have ht : Tracked (submitBio faultless (.start [some secondPart]) (wholeDiskWrite 0 16)).devices 0 0 secondPart := by
    rw [hend]
    exact ⟨rfl, rfl, rfl, rfl⟩
  have hh := h faultless [some secondPart] (wholeDiskWrite 0 16) disjoint_singleton wholeDiskWrite_traced 0 secondPart 0
    ⟨ht, 8, by decide, ⟨by decide, by decide⟩, rfl⟩
  rw [hend] at hh
  obtain ⟨w, hw, _⟩ := hh
  cases hw

end ElastioSnap.Incremental.TracingMrf
