import ElastioSnap.Snapshot.View

namespace ElastioSnap.Snapshot.SharedDisk

open Lib.Runs Lib.Table Queue Tracking TraceBio ReadComplete CowThread Machine SnapRead Sectors View

variable {β : Type}

/-- A device in snapshot mode. What the disk held when the snapshot was set up is kept beside it. -/
structure Tracer (β : Type) where
  dev : Device
  origin : Nat → β
  snap : State β

/-- One disk, and its devices by their minors. -/
structure Shared (β : Type) where
  base : Nat → β
  snapDevices : List (Option (Tracer β))

def Shared.start (base : Nat → β) (maxSnapDevices : Nat) : Shared β := ⟨base, List.replicate maxSnapDevices none⟩

/-- A device with the disk as it is. -/
def Tracer.onto (r : Tracer β) (base : Nat → β) : State β := { r.snap with base := base }

/-- The loop of `tracing_mrf` over the table. -/
def findTracer (sector sectors : Nat) : List (Option (Tracer β)) → Nat → Option (Nat × Tracer β)
  | [], _ => none
  | none :: rs, m => findTracer sector sectors rs (m + 1)
  | some r :: rs, m =>
      if r.snap.tracing && tracerShouldTraceBio r.dev sector sectors r.snap then some (m, r)
      else findTracer sector sectors rs (m + 1)

/-- A write of some sectors is not traced: no device traces it, or it needs no COW. -/
def passes (sector sectors : Nat) (rs : List (Option (Tracer β))) : Bool :=
  match findTracer sector sectors rs 0 with
  | none => true
  | some (_, r) => ownBlocks r.dev sector sectors

inductive Event (β : Type)
  | setup (m : Nat) (dev : Device)
  | destroy (m : Nat)
  /-- `tracing_mrf` has a write traced by the device that it finds. -/
  | trace (sector sectors : Nat)
  /-- `tracing_mrf` lets a write through, which changes the disk. -/
  | direct (sector sectors : Nat) (content : Nat → β)
  | device (m : Nat) (act : Action β)

/-- What `tracing_mrf` decides, so that no device does it by itself. -/
def arrives : Action β → Bool
  | .trace .. | .direct .. => true
  | _ => false

def move (s : Shared β) (m : Nat) (r : Tracer β) (a : Action β) : Option (Shared β) :=
  (Machine.step r.dev (r.onto s.base) a).map fun t => ⟨t.base, s.snapDevices.set m (some { r with snap := t })⟩

def step (s : Shared β) : Event β → Option (Shared β)
  | .setup m dev =>
      match s.snapDevices[m]? with
      | some none => some { s with snapDevices := s.snapDevices.set m (some ⟨dev, s.base, State.created s.base⟩) }
      | _ => none
  | .destroy m =>
      match s.snapDevices[m]? with
      | some (some r) => if r.snap.freed then some { s with snapDevices := s.snapDevices.set m none } else none
      | _ => none
  | .trace sector sectors =>
      (findTracer sector sectors s.snapDevices 0).bind fun (m, r) => move s m r (.trace sector sectors)
  | .direct sector sectors content =>
      if passes sector sectors s.snapDevices then
        some { s with base := overwrite s.base sector sectors content }
      else none
  | .device m act =>
      match s.snapDevices[m]? with
      | some (some r) => if arrives act then none else move s m r act
      | _ => none

def Contains (dev : Device) (n : Nat) : Prop :=
  dev.sectOff ≤ n ∧ n < dev.sectOff + dev.size

instance (dev : Device) (n : Nat) : Decidable (Contains dev n) := inferInstanceAs (Decidable (_ ∧ _))

def Apart (dev dev' : Device) : Prop :=
  ∀ n, Contains dev n → ¬ Contains dev' n

/-- A write stays in the partition to which it goes. -/
def Within (dev : Device) (sector sectors : Nat) : Prop :=
  (∃ n, Contains dev n ∧ sector ≤ n ∧ n < sector + sectors) →
    dev.sectOff ≤ sector ∧ sector + sectors ≤ dev.sectOff + dev.size

/-- The devices are partitions of the disk, and the work of each of them is undisturbed. -/
def Regular (s : Shared β) : Event β → Prop
  | .setup _ dev => ∀ (m : Nat) (r : Tracer β), s.snapDevices[m]? = some (some r) → Apart dev r.dev
  | .destroy _ => True
  | .trace sector sectors | .direct sector sectors _ =>
      ∀ (m : Nat) (r : Tracer β), s.snapDevices[m]? = some (some r) → Within r.dev sector sectors
  | .device m act => ∀ r, s.snapDevices[m]? = some (some r) → Undisturbed r.dev (r.onto s.base) act

/-- A device sees its own sectors. -/
def seen (dev : Device) (n : Nat) (x : β) : Option β := if Contains dev n then some x else none

variable {s s' : Shared β} {t u : State β} {d dev : Device} {r r' : Tracer β} {rs : List (Option (Tracer β))}
  {a : Action β} {e : Event β} {m m' k sector sectors : Nat} {base base' content : Nat → β}

theorem Apart.symm (h : Apart d dev) : Apart dev d := fun n hc hc' => h n hc' hc

theorem findTracer_some (h : findTracer sector sectors rs k = some (m, r)) :
    ∃ i, m = i + k ∧ rs[i]? = some (some r) ∧ r.snap.tracing = true ∧
      tracerShouldTraceBio r.dev sector sectors r.snap = true := by
  induction rs generalizing k with
  | nil => cases h
  | cons o rs ih =>
      have hlater (h : findTracer sector sectors rs (k + 1) = some (m, r)) :
          ∃ i, m = i + k ∧ (o :: rs)[i]? = some (some r) ∧ r.snap.tracing = true ∧
            tracerShouldTraceBio r.dev sector sectors r.snap = true := by
        obtain ⟨i, rfl, hi⟩ := ih h
        exact ⟨i + 1, by omega, hi⟩
      cases o with
      | none => exact hlater h
      | some q =>
          rw [findTracer] at h
          split at h
          next hq =>
            cases h
            exact ⟨0, by omega, rfl, Bool.and_eq_true_iff.mp hq⟩
          next => exact hlater h

theorem found (h : findTracer sector sectors rs 0 = some (m, r)) : rs[m]? = some (some r) ∧
    r.snap.tracing = true ∧ tracerShouldTraceBio r.dev sector sectors r.snap = true := by
  obtain ⟨i, hi, hrow⟩ := findTracer_some h
  rw [Nat.add_zero] at hi
  exact hi ▸ hrow

theorem findTracer_none (h : findTracer sector sectors rs k = none) (hm : rs[m]? = some (some r))
    (ht : r.snap.tracing = true) : tracerShouldTraceBio r.dev sector sectors r.snap = false := by
  induction rs generalizing k m with
  | nil => cases hm
  | cons o rs ih =>
      have hnext : findTracer sector sectors rs (k + 1) = none := by
        cases o with
        | none => exact h
        | some q =>
            rw [findTracer] at h
            split at h
            next => cases h
            next => exact h
      cases m with
      | succ m => exact ih hnext hm
      | zero =>
          cases hm
          rw [findTracer] at h
          split at h
          next => cases h
          next hq =>
            rw [ht, Bool.true_and] at hq
            exact Bool.not_eq_true _ ▸ hq

theorem shouldTrace_iff : tracerShouldTraceBio d sector sectors t = true ↔
    0 < sectors ∧ t.fail = false ∧ Contains d sector := by
  simp only [tracerShouldTraceBio, Contains, Bool.and_eq_true, bne_iff_ne, Bool.not_eq_true', decide_eq_true_eq,
    Nat.pos_iff_ne_zero, and_assoc]

/-- A write is traced with its sectors, which it keeps. -/
theorem step_write {i : Nat} {w' : Write} (h : Step d t a u) (hw' : u.writes[i]? = some w') :
    (∃ w ∈ t.writes, w'.sector = w.sector ∧ w'.sectors = w.sectors) ∨ a = .trace w'.sector w'.sectors := by
  have hold : ∀ {ws : List Write}, ws = t.writes → ws[i]? = some w' →
      ∃ w ∈ t.writes, w'.sector = w.sector ∧ w'.sectors = w.sectors :=
    fun hws hw' => ⟨w', List.mem_of_getElem? (hws ▸ hw'), rfl, rfl⟩
  have hset : ∀ {j : Nat} {w v : Write}, t.writes[j]? = some w → v.sector = w.sector → v.sectors = w.sectors →
      (t.writes.set j v)[i]? = some w' → ∃ w ∈ t.writes, w'.sector = w.sector ∧ w'.sectors = w.sectors := by
    intro j w v hw hsec hsecs hw'
    rcases set_some hw' with ⟨_, rfl⟩ | ⟨_, hw'⟩
    · exact ⟨w, List.mem_of_getElem? hw, hsec, hsecs⟩
    · exact hold rfl hw'
  cases h with
  | trace sector sectors =>
      rcases append_some hw' with hw' | ⟨_, rfl⟩
      · exact .inl (hold rfl hw')
      · exact .inr rfl
  | tracer j w act _ hw h =>
      left
      cases h with
      | submit k c =>
          refine hset hw ?_ ?_ hw'
          · exact Refs.advance_sector
          · exact Refs.advance_sectors
      | cleanUp =>
          have hws : (freeNewBio w t).writes = t.writes := by
            unfold freeNewBio
            split <;> rfl
          simp only [tpPut, hws] at hw'
          exact hset hw (by rfl) (by rfl) hw'
      | _ => exact hset hw (by rfl) (by rfl) hw'
  | reader k c w act _ hc hw h =>
      left
      cases h with
      | put => exact hset hw (by rfl) (by rfl) hw'
      | drop => exact hset hw (by rfl) (by rfl) hw'
      | _ => exact hold rfl hw'
  | cow act _ h => exact .inl (hold (cow_frame h).writes hw')
  | _ => exact .inl (hold rfl hw')

/-- What a device does by itself changes the disk only where it submits a write. -/
theorem own_base (h : Step d t a u) (ha : ∀ sector sectors content, a ≠ .direct sector sectors content) :
    u.base = t.base ∨ ∃ w ∈ t.writes, ∃ content, u.base = overwrite t.base w.sector w.sectors content := by
  cases h with
  | tracer i w act _ hw h => exact .inl (tracer_base h).1
  | reader k c w act _ hc hw h => exact .inl (reader_base h).1
  | cow act _ h => exact .inl (cow_base h).1
  | mrfSubmit content i rest w _ ho hw => exact .inr ⟨w, List.mem_of_getElem? hw, content, rfl⟩
  | direct sector sectors content => exact absurd rfl (ha _ _ _)
  | _ => exact .inl rfl

theorem traces_on (h : Step d t a u) (hu : u.tracing = true) : stopsTracing a = false := by
  cases h with
  | stopTracing => cases hu
  | _ => rfl

/-- Other sectors than those of the device are not seen. -/
theorem seen_overwrite (h : ∀ n, sector ≤ n → n < sector + sectors → ¬ Contains dev n) :
    onDisk (seen dev) (overwrite base sector sectors content) = onDisk (seen dev) base := by
  funext n
  simp only [onDisk, overwrite]
  split
  next hn =>
    have hout := h n hn.1 hn.2
    simp only [seen, if_neg hout]
  next => rfl

theorem view_onto (h : onDisk (seen r.dev) base = onDisk (seen r.dev) base') :
    view (seen r.dev) r.dev (r.onto base) = view (seen r.dev) r.dev (r.onto base') := by
  simp only [view, Tracer.onto, h]

/-- The runs of a device alone on its disk. -/
def Alone (r : Tracer β) (base : Nat → β) : Prop :=
  Reach (Machine.step r.dev) (fun s a => stopsTracing a = false ∧ Undisturbed r.dev s a)
    (State.created (onDisk (seen r.dev) r.origin)) (view (seen r.dev) r.dev (r.onto base))

theorem Alone.unseen (h : Alone r base) (hb : onDisk (seen r.dev) base' = onDisk (seen r.dev) base) : Alone r base' := by
  unfold Alone
  rw [view_onto hb]
  exact h

theorem Alone.step (h : Alone r base) (ha : stopsTracing a = false) (hu : Undisturbed r.dev (r.onto base) a)
    (hst : Machine.step r.dev (r.onto base) a = some t) : Alone { r with snap := t } t.base := by
  have hl : Labelled r.dev (view (seen r.dev) r.dev (r.onto base)) := labelled_reach (h.mono fun _ _ hc => hc.2.1)
  refine Reach.next (a := viewAction (seen r.dev) r.dev a) h ⟨?_, undisturbed_view hu⟩ ?_
  · rw [stopsTracing_view]
    exact ha
  · rw [step_view hl, hst]
    rfl

/-- The devices of the disk do not get into each other's way. -/
structure Peaceful (s : Shared β) : Prop where
  apart : ∀ (m m' : Nat) (r r' : Tracer β), s.snapDevices[m]? = some (some r) → s.snapDevices[m']? = some (some r') →
    m ≠ m' → Apart r.dev r'.dev
  inside : ∀ (m : Nat) (r : Tracer β), s.snapDevices[m]? = some (some r) → ∀ w ∈ r.snap.writes,
    ∀ n, w.sector ≤ n → n < w.sector + w.sectors → Contains r.dev n
  alone : ∀ (m : Nat) (r : Tracer β), s.snapDevices[m]? = some (some r) → r.snap.tracing = true → Alone r s.base

theorem apart_set (h : ∀ (i j : Nat) (q q' : Tracer β), rs[i]? = some (some q) → rs[j]? = some (some q') → i ≠ j →
      Apart q.dev q'.dev)
    (hr : ∀ (j : Nat) (q : Tracer β), m ≠ j → rs[j]? = some (some q) → Apart r.dev q.dev) :
    ∀ (i j : Nat) (q q' : Tracer β), (rs.set m (some r))[i]? = some (some q) →
      (rs.set m (some r))[j]? = some (some q') → i ≠ j → Apart q.dev q'.dev := by
  intro i j q q' hi hj hij
  rcases set_some hi with ⟨rfl, hq⟩ | ⟨hne, hi⟩ <;> rcases set_some hj with ⟨rfl, hq'⟩ | ⟨hne', hj⟩
  · exact absurd rfl hij
  · cases hq
    exact hr j q' hij hj
  · cases hq'
    exact (hr i q hne hi).symm
  · exact h i j q q' hi hj hij

theorem Peaceful.move (h : Peaceful s) (hm : s.snapDevices[m]? = some (some r))
    (ha : ∀ sector sectors content, a ≠ .direct sector sectors content) (hu : Undisturbed r.dev (r.onto s.base) a)
    (hin : ∀ sector sectors, a = .trace sector sectors → ∀ n, sector ≤ n → n < sector + sectors → Contains r.dev n)
    (hmove : move s m r a = some s') : Peaceful s' := by
  obtain ⟨t, hst, rfl⟩ := Option.map_eq_some_iff.mp hmove
  have hstep := step_of hst
  have hother : ∀ (m' : Nat) (r' : Tracer β), s.snapDevices[m']? = some (some r') → m ≠ m' →
      onDisk (seen r'.dev) t.base = onDisk (seen r'.dev) s.base := by
    intro m' r' hm' hne
    rcases own_base hstep ha with hb | ⟨w, hw, content, hb⟩
    · rw [hb]
      rfl
    · rw [hb]
      exact seen_overwrite fun n hlo hhi => h.apart m m' r r' hm hm' hne n (h.inside m r hm w hw n hlo hhi)
  constructor
  case apart => exact apart_set h.apart fun j q hne hj => h.apart m j r q hm hj hne
  case inside =>
    intro i q hi w' hw'
    rcases set_some hi with ⟨rfl, hq⟩ | ⟨_, hi⟩
    · cases hq
      obtain ⟨j, hj⟩ := List.mem_iff_getElem?.mp hw'
      rcases step_write hstep hj with ⟨w, hw, hsec, hsecs⟩ | rfl
      · rw [hsec, hsecs]
        exact h.inside m r hm w hw
      · exact hin _ _ rfl
    · exact h.inside i q hi w' hw'
  case alone =>
    intro i q hi ht
    rcases set_some hi with ⟨rfl, hq⟩ | ⟨hne, hi⟩
    · cases hq
      have hstop : stopsTracing a = false := traces_on hstep ht
      have htr : (r.onto s.base).tracing = true := step_tracing hstep ht
      exact (h.alone m r hm htr).step hstop hu hst
    · exact (h.alone i q hi ht).unseen (hother i q hi hne)

/-- A write that is let through goes to blocks of the COW file, or to a device that has failed or to no device. -/
theorem passes_direct (h : Peaceful s) (hp : passes sector sectors s.snapDevices = true) (hn : 0 < sectors)
    (hm : s.snapDevices[m]? = some (some r)) (ht : r.snap.tracing = true) (hc : Contains r.dev sector) :
    r.snap.fail = true ∨ ownBlocks r.dev sector sectors = true := by
  by_contra hno
  rw [not_or, Bool.not_eq_true] at hno
  have hshould : tracerShouldTraceBio r.dev sector sectors r.snap = true := shouldTrace_iff.mpr ⟨hn, hno.1, hc⟩
  cases hfind : findTracer sector sectors s.snapDevices 0 with
  | none =>
      rw [findTracer_none hfind hm ht] at hshould
      cases hshould
  | some p =>
      obtain ⟨j, q⟩ := p
      obtain ⟨hj, _, hq⟩ := found hfind
      simp only [passes, hfind] at hp
      by_cases hij : m = j
      · subst hij
        cases hm.symm.trans hj
        exact hno.2 hp
      · exact h.apart m j r q hm hj hij sector hc (shouldTrace_iff.mp hq).2.2

theorem Peaceful.direct (h : Peaceful s) (hp : passes sector sectors s.snapDevices = true)
    (hin : ∀ (m : Nat) (r : Tracer β), s.snapDevices[m]? = some (some r) → Within r.dev sector sectors) :
    Peaceful { s with base := overwrite s.base sector sectors content } where
  apart := h.apart
  inside := h.inside
  alone m r hm ht := by
    have halone := h.alone m r hm ht
    by_cases hout : ∀ n, sector ≤ n → n < sector + sectors → ¬ Contains r.dev n
    · exact halone.unseen (seen_overwrite hout)
    · obtain ⟨n, hlo, hhi, hcn⟩ : ∃ n, sector ≤ n ∧ n < sector + sectors ∧ Contains r.dev n := by
        by_contra hno
        exact hout fun n hlo hhi hc => hno ⟨n, hlo, hhi, hc⟩
      obtain ⟨hfirst, hlast⟩ := hin m r hm ⟨n, hcn, hlo, hhi⟩
      have hc : Contains r.dev sector := ⟨hfirst, by have := hcn.2; omega⟩
      have hpass := passes_direct h hp (by omega) hm ht hc
      have hst : Machine.step r.dev (r.onto s.base) (.direct sector sectors content) =
          some { r.onto s.base with base := overwrite s.base sector sectors content } := by
        refine if_pos ?_
        simp only [Tracer.onto, Bool.or_eq_true]
        exact hpass.imp_left Or.inl
      exact halone.step (a := .direct sector sectors content) rfl ⟨trivial, trivial, trivial⟩ hst

theorem Peaceful.step (h : Peaceful s) (hr : Regular s e) (hst : step s e = some s') : Peaceful s' := by
  cases e with
  | setup i dev =>
      simp only [SharedDisk.step] at hst
      split at hst
      next hi =>
        cases hst
        constructor
        case apart => exact apart_set h.apart fun j q _ hj => hr j q hj
        case inside =>
          intro m r hm w hw
          rcases set_some hm with ⟨rfl, hq⟩ | ⟨_, hm⟩
          · cases hq
            cases hw
          · exact h.inside m r hm w hw
        case alone =>
          intro m r hm ht
          rcases set_some hm with ⟨rfl, hq⟩ | ⟨_, hm⟩
          · cases hq
            exact .init
          · exact h.alone m r hm ht
      next => cases hst
  | destroy i =>
      simp only [SharedDisk.step] at hst
      split at hst
      next r hi =>
        split at hst
        next =>
          cases hst
          have hold : ∀ {m : Nat} {r : Tracer β}, (s.snapDevices.set i none)[m]? = some (some r) →
              s.snapDevices[m]? = some (some r) := by
            intro m r hm
            rcases set_some hm with ⟨_, hq⟩ | ⟨_, hm⟩
            · cases hq
            · exact hm
          exact ⟨fun m m' r r' hm hm' => h.apart m m' r r' (hold hm) (hold hm'),
            fun m r hm => h.inside m r (hold hm), fun m r hm => h.alone m r (hold hm)⟩
        next => cases hst
      next => cases hst
  | trace sector sectors =>
      obtain ⟨⟨i, r⟩, hfind, hmove⟩ := Option.bind_eq_some_iff.mp hst
      obtain ⟨hi, _, hshould⟩ := found hfind
      obtain ⟨hn, _, hc⟩ := shouldTrace_iff.mp hshould
      obtain ⟨hfirst, hlast⟩ := hr i r hi ⟨sector, hc, Nat.le_refl _, by omega⟩
      refine h.move (a := .trace sector sectors) hi (fun _ _ _ he => by cases he) ⟨trivial, trivial, trivial⟩ ?_ hmove
      intro sector' sectors' he n hlo hhi
      cases he
      exact ⟨by omega, by omega⟩
  | direct sector sectors content =>
      simp only [SharedDisk.step] at hst
      split at hst
      next hp =>
        cases hst
        exact h.direct hp hr
      next => cases hst
  | device i act =>
      simp only [SharedDisk.step] at hst
      split at hst
      next r hi =>
        split at hst
        next => cases hst
        next harr =>
          refine h.move hi ?_ (hr r hi) ?_ hst
          · rintro _ _ _ rfl
            exact harr rfl
          · rintro _ _ rfl
            exact absurd rfl harr
      next => cases hst

theorem peaceful_start (base : Nat → β) (maxSnapDevices : Nat) : Peaceful (Shared.start base maxSnapDevices) := by
  have hnone : ∀ {m : Nat} {r : Tracer β}, (Shared.start base maxSnapDevices).snapDevices[m]? ≠ some (some r) := by
    intro m r hm
    cases List.eq_of_mem_replicate (List.mem_of_getElem? hm)
  exact ⟨fun _ _ _ _ hm => absurd hm hnone, fun _ _ hm => absurd hm hnone, fun _ _ hm => absurd hm hnone⟩

def destroys (m : Nat) : Event β → Bool
  | .destroy i => i == m
  | _ => false

theorem move_row (hi : s.snapDevices[k]? = some (some r')) (hm : s.snapDevices[m]? = some (some r))
    (hmove : move s k r' a = some s') :
    ∃ q, s'.snapDevices[m]? = some (some q) ∧ q.dev = r.dev ∧ q.origin = r.origin := by
  obtain ⟨t, _, rfl⟩ := Option.map_eq_some_iff.mp hmove
  by_cases hk : k = m
  · subst hk
    cases hi.symm.trans hm
    exact ⟨_, set_self hi, rfl, rfl⟩
  · exact ⟨r, (set_other hk).trans hm, rfl, rfl⟩

/-- A minor keeps its device until that is destroyed. -/
theorem step_row (hm : s.snapDevices[m]? = some (some r)) (he : destroys m e = false) (hst : step s e = some s') :
    ∃ q, s'.snapDevices[m]? = some (some q) ∧ q.dev = r.dev ∧ q.origin = r.origin := by
  cases e with
  | setup i dev =>
      simp only [step] at hst
      split at hst
      next hi =>
        cases hst
        have hne : i ≠ m := by
          rintro rfl
          cases hi.symm.trans hm
        exact ⟨r, (set_other hne).trans hm, rfl, rfl⟩
      next => cases hst
  | destroy i =>
      have hne : i ≠ m := by simpa [destroys] using he
      simp only [step] at hst
      split at hst
      next q hi =>
        split at hst
        next =>
          cases hst
          exact ⟨r, (set_other hne).trans hm, rfl, rfl⟩
        next => cases hst
      next => cases hst
  | trace sector sectors =>
      obtain ⟨⟨i, q⟩, hfind, hmove⟩ := Option.bind_eq_some_iff.mp hst
      exact move_row (found hfind).1 hm hmove
  | direct sector sectors content =>
      simp only [step] at hst
      split at hst
      next =>
        cases hst
        exact ⟨r, hm, rfl, rfl⟩
      next => cases hst
  | device i act =>
      simp only [step] at hst
      split at hst
      next q hi =>
        split at hst
        next => cases hst
        next => exact move_row hi hm hst
      next => cases hst

/-- What a device alone on its disk would have read, it reads. -/
theorem Alone.answered {q : SnapRead β} {data : Nat → β} {n : Nat} (h : Alone r base) (hq : q ∈ r.snap.reads)
    (he : q.status = .ended true false data) (hlo : q.sector ≤ n) (hhi : n < q.sector + q.sectors)
    (hn : n < r.dev.size) (ho : r.dev.owned (n / r.dev.sectorsPerBlock) = false) :
    data n = r.origin (r.dev.sectOff + n) := by
  obtain ⟨q', hq', hsec, hsecs, he'⟩ := answered_view (g := seen r.dev) (d := r.dev) (s := r.onto base) hq he
  have hin : InRead q' n := ⟨hsec ▸ hlo, by rw [hsec, hsecs]; exact hhi⟩
  have hsame : onDevice (seen r.dev) r.dev data n = onDisk (seen r.dev) r.origin (r.dev.sectOff + n) :=
    (serving_reach h).answered q' hq' _ he' n hin ho trivial
  have hc : Contains r.dev (r.dev.sectOff + n) := ⟨Nat.le_add_right _ _, Nat.add_lt_add_left hn _⟩
  simp only [onDevice, onDisk, seen, if_pos hc] at hsame
  exact Option.some.inj hsame

/-- Several snapshots on one disk: whatever the other devices do, a device that traces answers the reads of its
snapshot with what the disk held when the snapshot was set up. -/
theorem shared_reads_point_in_time {n : Nat} {s₁ : Shared β} (h : Reach step Regular (Shared.start base n) s)
    (hdev : Regular s (.setup m dev)) (hsetup : step s (.setup m dev) = some s₁)
    (h' : Reach step (fun s e => Regular s e ∧ destroys m e = false) s₁ s') :
    ∃ r, s'.snapDevices[m]? = some (some r) ∧ r.dev = dev ∧ (r.snap.tracing = true →
      ∀ q ∈ r.snap.reads, ∀ data, q.status = .ended true false data →
        ∀ n, q.sector ≤ n → n < q.sector + q.sectors → n < dev.size →
          dev.owned (n / dev.sectorsPerBlock) = false → data n = s.base (dev.sectOff + n)) := by
  have hs : Peaceful s := h.invariant (peaceful_start base n) fun _ _ _ hp hc hst => hp.step hc hst
  have hs₁ : Peaceful s₁ := hs.step hdev hsetup
  have hrow : ∃ r, s₁.snapDevices[m]? = some (some r) ∧ r.dev = dev ∧ r.origin = s.base := by
    simp only [step] at hsetup
    split at hsetup
    next hm =>
      cases hsetup
      exact ⟨_, set_self hm, rfl, rfl⟩
    next => cases hsetup
  have hkept : Peaceful s' ∧ ∃ r, s'.snapDevices[m]? = some (some r) ∧ r.dev = dev ∧ r.origin = s.base := by
    refine h'.invariant (I := fun u => Peaceful u ∧
      ∃ r, u.snapDevices[m]? = some (some r) ∧ r.dev = dev ∧ r.origin = s.base) ⟨hs₁, hrow⟩ ?_
    rintro u e v ⟨hu, r, hm, hdev, horigin⟩ ⟨hc, he⟩ hst
    obtain ⟨q, hq, hqdev, hqorigin⟩ := step_row hm he hst
    exact ⟨hu.step hc hst, q, hq, hqdev.trans hdev, hqorigin.trans horigin⟩
  obtain ⟨hs', r, hm, rfl, horigin⟩ := hkept
  refine ⟨r, hm, rfl, fun ht q hq data he n hlo hhi hn ho => ?_⟩
  rw [← horigin]
  exact (hs'.alone m r hm ht).answered hq he hlo hhi hn ho

/-- Each device contains all of these sectors or none. -/
def keepsWithin (s : Shared β) (sector sectors : Nat) : Bool := s.snapDevices.all fun
  | none => true
  | some r => decide ((r.dev.sectOff ≤ sector ∧ sector + sectors ≤ r.dev.sectOff + r.dev.size) ∨
      sector + sectors ≤ r.dev.sectOff ∨ r.dev.sectOff + r.dev.size ≤ sector)

/-- A condition that is enough, and that can be computed. -/
def calm (s : Shared β) : Event β → Bool
  | .setup _ dev => s.snapDevices.all fun
      | none => true
      | some r => decide (dev.sectOff + dev.size ≤ r.dev.sectOff ∨ r.dev.sectOff + r.dev.size ≤ dev.sectOff)
  | .destroy _ => true
  | .trace sector sectors | .direct sector sectors _ => keepsWithin s sector sectors
  | .device m act =>
      match s.snapDevices[m]? with
      | some (some r) => decide (Sequential (r.onto s.base) act)
      | _ => true

theorem within_of_keepsWithin (h : keepsWithin s sector sectors = true) (hm : s.snapDevices[m]? = some (some r)) :
    Within r.dev sector sectors := by
  have hr := of_decide_eq_true (List.all_eq_true.mp h _ (List.mem_of_getElem? hm))
  rintro ⟨n, hc, hlo, hhi⟩
  unfold Contains at hc
  omega

theorem regular_of_calm (h : calm s e = true) : Regular s e := by
  cases e with
  | setup i dev =>
      intro m r hm n hc hc'
      have hr := of_decide_eq_true (List.all_eq_true.mp h _ (List.mem_of_getElem? hm))
      unfold Contains at hc hc'
      omega
  | destroy i => trivial
  | trace sector sectors => exact fun _ _ hm => within_of_keepsWithin h hm
  | direct sector sectors content => exact fun _ _ hm => within_of_keepsWithin h hm
  | device i act =>
      intro r hi
      simp only [calm, hi] at h
      exact (undisturbed_of_sequential (of_decide_eq_true h)).2

/-- The second device of the disk. -/
def secondDisk : Device := { disk with sectOff := 128 }

def asEvent (m sectOff : Nat) : Action Nat → Event Nat
  | .trace sector sectors => .trace (sectOff + sector) sectors
  | act => .device m act

/-- A snapshot of the first device, and a write to it. -/
def firstWrite : List (Event Nat) :=
  .setup 0 disk :: captureRun.map (asEvent 0 0) ++ [.device 0 (.mrfSubmit fun _ => 1)]

/-- Then one of the second device, a write to it and a read of its snapshot. -/
def secondRead : List (Event Nat) := readAfterWrite.map (asEvent 1 128)

def afterFirst : Shared Nat := (run step (Shared.start (fun _ => 0) 2) firstWrite).getD (Shared.start (fun _ => 0) 2)

def withSecond : Shared Nat := (step afterFirst (.setup 1 secondDisk)).getD afterFirst

def afterSecond : Shared Nat := (run step withSecond secondRead).getD withSecond

theorem firstWrite_after : run step (Shared.start (fun _ => 0) 2) firstWrite = some afterFirst := rfl

theorem withSecond_after : step afterFirst (.setup 1 secondDisk) = some withSecond := rfl

theorem secondRead_after : run step withSecond secondRead = some afterSecond := rfl

theorem shared_reads_point_in_time_example : afterSecond.base 128 = 1 ∧
    ∃ r, afterSecond.snapDevices[1]? = some (some r) ∧ ∃ q ∈ r.snap.reads, ∃ data,
      q.status = .ended true false data ∧ data 0 = 0 := by
  have hfirst : Reach step Regular (Shared.start (fun _ => 0) 2) afterFirst :=
    (Reach.run .init firstWrite_after (C := fun s e => calm s e = true) (by decide)).mono fun _ _ => regular_of_calm
  have hsecond : Reach step (fun s e => Regular s e ∧ destroys 1 e = false) withSecond afterSecond :=
    (Reach.run .init secondRead_after (C := fun s e => (calm s e && !destroys 1 e) = true) (by decide)).mono
      fun _ _ h => by
        rw [Bool.and_eq_true, Bool.not_eq_true'] at h
        exact ⟨regular_of_calm h.1, h.2⟩
  obtain ⟨r, hm, -, hreads⟩ := shared_reads_point_in_time hfirst (regular_of_calm (by decide)) withSecond_after hsecond
  refine ⟨rfl, r, hm, ?_⟩
  cases hm
  refine ⟨_, List.mem_cons_self, _, rfl, ?_⟩
  exact hreads rfl _ List.mem_cons_self _ rfl 0 (Nat.le_refl 0) (by decide) (by decide) rfl

end ElastioSnap.Snapshot.SharedDisk
