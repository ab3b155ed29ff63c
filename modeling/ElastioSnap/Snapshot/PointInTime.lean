import ElastioSnap.Lib.Precedence
import ElastioSnap.Snapshot.Filing
import ElastioSnap.Snapshot.CopyBeforeWrite

namespace ElastioSnap.Snapshot.PointInTime

open Lib.Runs Lib.Table Lib.Precedence Queue Tracking TraceBio ReadComplete CowThread Machine Blocks Refs Capture Filing
  CopyBeforeWrite

variable {β : Type} {d : Device} {b₀ : Nat → β} {s t : State β} {a : Action β} {i j k b : Nat} {w : Write}
  {c c' : Clone β} {bio : Bio}

/-- The write clones that are not stored yet: the one the cow thread has, and those queued. -/
def pending (s : State β) : List Bio :=
  match s.work with
  | .write bio => bio :: clones s.cowBios
  | _ => clones s.cowBios

def CoversBlock (d : Device) (s : State β) (b : Nat) (bio : Bio) : Prop :=
  ∃ c, s.clones[bio.id]? = some c ∧ c.Covers d b

def HoldsBlock (d : Device) (b₀ : Nat → β) (s : State β) (b : Nat) (bio : Bio) : Prop :=
  ∀ c, s.clones[bio.id]? = some c → Original d b₀ c.data b

/-- The cow thread does not take a clone while an older one that shares an unsaved block is queued. -/
def InOrder (d : Device) (s : State β) : Action β → Prop
  | .cow .dequeue => ∀ bio rest pre post, bioQueueDequeueDelayRead s.cowBios = some (bio, rest) →
      clones s.cowBios = pre ++ bio :: post → ∀ older ∈ pre, ∀ b, s.saved b = none →
        ¬ (CoversBlock d s b older ∧ CoversBlock d s b bio)
  | _ => True

/-- When the read from the base device completes, no queued clone of a write that is already submitted
covers an unsaved block of the snapshot read. -/
def NotOvertaken (d : Device) (s : State β) : Action β → Prop
  | .cow (.base true) => ∀ bio m r, s.work = .base bio m → s.reads[bio.id]? = some r →
      ∀ q ∈ clones s.cowBios, ∀ c, s.clones[q.id]? = some c → c.tp ∈ s.submitted →
        ∀ t, r.sector ≤ t → t < r.sector + r.sectors → d.owned (t / d.sectorsPerBlock) = false →
          s.saved (t / d.sectorsPerBlock) = none → ¬ c.Covers d (t / d.sectorsPerBlock)
  | _ => True

/-- Where the content from the creation of the snapshot is, for each block not owned by the COW file:
stored, or in the first pending clone of the block, or else still on the base device and in what is
being read from it. -/
structure Point (d : Device) (b₀ : Nat → β) (s : State β) : Prop where
  notFailed : s.isFailed = false
  queued : ∀ bio ∈ pending s, ∃ c, s.clones[bio.id]? = some c ∧ c.stage.appended = true ∧
    bio.sector = c.sect - d.sectOff
  appended : ∀ (k : Nat) (c : Clone β) (b : Nat), s.clones[k]? = some c → c.stage.appended = true → c.Covers d b →
    s.saved b ≠ none ∨ ∃ bio ∈ pending s, bio.id = k
  saved : ∀ b held, s.saved b = some held → d.owned b = false → ∀ o, o < d.sectorsPerBlock →
    held o = b₀ (d.sector b o)
  first : ∀ b, d.owned b = false → s.saved b = none → First (CoversBlock d s b) (HoldsBlock d b₀ s b) (pending s)
  data : ∀ (k : Nat) (c : Clone β) (b : Nat), s.clones[k]? = some c → c.stage.hasData = true → c.Covers d b →
    d.owned b = false → s.saved b = none → (∀ bio ∈ pending s, ¬ CoversBlock d s b bio) → Original d b₀ c.data b
  base : ∀ b, d.owned b = false → s.saved b = none →
    (∀ bio ∈ pending s, ∀ c, s.clones[bio.id]? = some c → c.Covers d b → c.tp ∉ s.submitted) →
    Original d b₀ s.base b

/-- A pending clone is the same clone after a step. -/
theorem Point.onward (h : Point d b₀ s) (hk : Kept s t) (hb : bio ∈ pending s) :
    ∃ c c', s.clones[bio.id]? = some c ∧ t.clones[bio.id]? = some c' ∧ c.stage.appended = true ∧
      bio.sector = c.sect - d.sectOff ∧ Onward c c' := by
  obtain ⟨c, hc, ha, hs⟩ := h.queued bio hb
  obtain ⟨c', hc', ho⟩ := hk.clones bio.id c hc (sent_of_appended ha)
  exact ⟨c, c', hc, hc', ha, hs, ho⟩

theorem Point.coversBlock_iff (h : Point d b₀ s) (hk : Kept s t) (hb : bio ∈ pending s) :
    CoversBlock d t b bio ↔ CoversBlock d s b bio := by
  obtain ⟨c, c', hc, hc', _, _, ho⟩ := h.onward hk hb
  constructor
  · rintro ⟨e, he, hcov⟩
    cases hc'.symm.trans he
    exact ⟨c, hc, ho.covers.mp hcov⟩
  · rintro ⟨e, he, hcov⟩
    cases hc.symm.trans he
    exact ⟨c', hc', ho.covers.mpr hcov⟩

theorem Point.holdsBlock (h : Point d b₀ s) (hk : Kept s t) (hb : bio ∈ pending s) (hh : HoldsBlock d b₀ s b bio) :
    HoldsBlock d b₀ t b bio := by
  obtain ⟨c, c', hc, hc', ha, _, ho⟩ := h.onward hk hb
  intro e he
  cases hc'.symm.trans he
  rw [(ho.hasData (hasData_of_appended ha)).2]
  exact hh c hc

theorem Point.first_kept (h : Point d b₀ s) (hk : Kept s t) (ho : d.owned b = false) (hs : s.saved b = none) :
    First (CoversBlock d t b) (HoldsBlock d b₀ t b) (pending s) :=
  (h.first b ho hs).congr (fun _ hb => h.coversBlock_iff hk hb) fun _ hb => h.holdsBlock hk hb

theorem Point.queued_kept (h : Point d b₀ s) (hk : Kept s t) (hb : bio ∈ pending s) :
    ∃ c, t.clones[bio.id]? = some c ∧ c.stage.appended = true ∧ bio.sector = c.sect - d.sectOff := by
  obtain ⟨c, c', hc, hc', ha, hs, ho⟩ := h.onward hk hb
  exact ⟨c', hc', ho.appended ha, by rw [ho.sect]; exact hs⟩

/-- A step that leaves the queue, the stored blocks and the base device alone. -/
theorem Point.frame (h : Point d b₀ s) (hk : Kept s t) (hnf : t.isFailed = s.isFailed)
    (hq : pending t = pending s) (hs : t.saved = s.saved) (hsub : t.submitted = s.submitted) (hb : t.base = s.base)
    (happ : ∀ (k : Nat) (c' : Clone β), t.clones[k]? = some c' → c'.stage.appended = true →
      ∃ c, s.clones[k]? = some c ∧ c.stage.appended = true ∧ c'.sect = c.sect ∧ c'.pages = c.pages)
    (hdata : ∀ (k : Nat) (c' : Clone β), t.clones[k]? = some c' → c'.stage.hasData = true →
      (∃ c, s.clones[k]? = some c ∧ c.stage.hasData = true ∧ c'.data = c.data ∧ c'.sect = c.sect ∧ c'.pages = c.pages)
      ∨ c'.data = s.base) : Point d b₀ t where
  notFailed := hnf.trans h.notFailed
  queued bio hm := h.queued_kept hk (hq ▸ hm)
  appended k c' b hc' ha hcov := by
    obtain ⟨c, hc, ha', hsect, hpages⟩ := happ k c' hc' ha
    rw [hq, hs]
    exact h.appended k c b hc ha' (by rw [Clone.Covers, ← hsect, ← hpages]; exact hcov)
  saved b held := hs ▸ h.saved b held
  first b ho hn := by
    rw [hq]
    exact h.first_kept hk ho (hs ▸ hn)
  data k c' b hc' hd hcov ho hn hno := by
    rw [hq] at hno
    rw [hs] at hn
    have hno' : ∀ bio ∈ pending s, ¬ CoversBlock d s b bio :=
      fun bio hm hcb => hno bio hm ((h.coversBlock_iff hk hm).mpr hcb)
    rcases hdata k c' hc' hd with ⟨c, hc, hd', hdat, hsect, hpages⟩ | hdat
    · rw [hdat]
      exact h.data k c b hc hd' (by rw [Clone.Covers, ← hsect, ← hpages]; exact hcov) ho hn hno'
    · rw [hdat]
      exact h.base b ho hn fun bio hm c hc hcv _ => hno' bio hm ⟨c, hc, hcv⟩
  base b ho hn hno := by
    rw [hb]
    rw [hs] at hn
    refine h.base b ho hn fun bio hm c hc hcv => ?_
    obtain ⟨e, c', he, hc', _, _, hon⟩ := h.onward hk hm
    cases he.symm.trans hc
    rw [← hon.tp, ← hsub]
    exact hno bio (hq ▸ hm) c' hc' (hon.covers.mpr hcv)

/-- A clone that is appended was appended before, unless this is the step that appends it. -/
theorem appended_origin (hst : Step d s a t) (ha : ∀ k, a ≠ .reader k .append) (hk : t.clones[k]? = some c')
    (hc' : c'.stage.appended = true) :
    ∃ c, s.clones[k]? = some c ∧ c.stage.appended = true ∧ c'.sect = c.sect ∧ c'.pages = c.pages := by
  have mod : ∀ {us : List (Clone β)} {k' : Nat} {stage : Stage},
      us = s.clones.modify k' (fun c => { c with stage := stage }) → stage.appended = false → us[k]? = some c' →
      ∃ c, s.clones[k]? = some c ∧ c.stage.appended = true ∧ c'.sect = c.sect ∧ c'.pages = c.pages := by
    intro us k' stage hu hs hk
    rw [hu] at hk
    rcases modify_some hk with ⟨_, c, _, rfl⟩ | ⟨_, hk⟩
    · rw [hs] at hc'
      cases hc'
    · exact ⟨c', hk, hc', rfl, rfl⟩
  rcases step_kinds hst with ⟨sector, sectors, _, _, _, rfl⟩ | ⟨i, w, act, _, hw, ht⟩ |
    ⟨k', c, w, act, rfl, hk', hw, hr⟩ | ⟨i, rest, content, w, _, _, _, rfl⟩ | ⟨_, hf⟩
  · exact ⟨c', hk, hc', rfl, rfl⟩
  · cases ht with
    | allocTp | noTp | noBio | addMap | noMap | put | setFail => exact ⟨c', hk, hc', rfl, rfl⟩
    | noPage | made =>
        rcases append_some hk with hk | ⟨_, rfl⟩
        · exact ⟨c', hk, hc', rfl, rfl⟩
        · cases hc'
    | count | submit => exact mod rfl rfl hk
    | cleanUp =>
        unfold freeNewBio at hk
        split at hk
        · exact mod rfl rfl hk
        · exact ⟨c', hk, hc', rfl, rfl⟩
  · have hset : ∀ {b : Clone β}, (s.clones.set k' b)[k]? = some c' → (k' = k ∧ c' = b) ∨ s.clones[k]? = some c' :=
      fun hk => (set_some hk).imp id fun h => h.2
    cases hr with
    | completed | failed | setFail | drop =>
        rcases hset hk with ⟨rfl, rfl⟩ | h
        · cases hc'
        · exact ⟨c', h, hc', rfl, rfl⟩
    | append hc => exact absurd rfl (ha k')
    | receive hc | put hc =>
        rcases hset hk with ⟨rfl, rfl⟩ | h
        · exact ⟨c, hk', by rw [hc]; rfl, rfl, rfl⟩
        · exact ⟨c', h, hc', rfl, rfl⟩
  · exact ⟨c', hk, hc', rfl, rfl⟩
  · exact ⟨c', hf.clones ▸ hk, hc', rfl, rfl⟩

/-- The same, for a step of which it is known what it does to the clones. -/
theorem Point.step_frame (h : Point d b₀ s) (hs : Sound s) (hst : Step d s a t) (ha : ∀ k, a ≠ .reader k .append)
    (hnf : t.isFailed = s.isFailed) (hq : pending t = pending s) (hsv : t.saved = s.saved)
    (hsub : t.submitted = s.submitted) (hb : t.base = s.base) : Point d b₀ t :=
  h.frame (step_kept hs hst) hnf hq hsv hsub hb (fun _ _ hk hc => appended_origin hst ha hk hc)
    fun _ _ hk hd => data_origin hst hk hd

theorem Point.append (h : Point d b₀ s) (hf : Filed d s) (hk : s.clones[k]? = some c)
    (hw : s.writes[c.tp]? = some w) (hst : Step d s (.reader k .append) t) (hc : c.stage = .completed)
    (ht : t = { setClone s k { c with stage := .queued } with
      cowBios := s.cowBios ++ [{ isWrite := true, sector := resetSector d w c, size := c.left, id := k }] }) :
    Point d b₀ t := by
  have hkept := step_kept hf.captures.sound hst
  have hq : pending t = pending s ++ [{ isWrite := true, sector := resetSector d w c, size := c.left, id := k }] := by
    subst ht
    simp only [pending, setClone, clones_append]
    split <;> rfl
  have hkt : t.clones[k]? = some { c with stage := .queued } := by
    subst ht
    exact set_self hk
  have hsent : c.stage.sent = true := by rw [hc]; rfl
  have hother : ∀ {k' : Nat} {b : Clone β}, k ≠ k' → t.clones[k']? = some b → s.clones[k']? = some b := by
    intro k' b hne hb
    subst ht
    exact (set_other hne).symm.trans hb
  have hs : t.saved = s.saved := by subst ht; rfl
  have hsub : t.submitted = s.submitted := by subst ht; rfl
  have hb : t.base = s.base := by subst ht; rfl
  have hold : ∀ {b : Nat}, (∀ bio ∈ pending t, ¬ CoversBlock d t b bio) → ∀ bio ∈ pending s, ¬ CoversBlock d s b bio :=
    fun hno bio hm hcb => hno bio (hq ▸ List.mem_append_left _ hm) ((h.coversBlock_iff hkept hm).mpr hcb)
  constructor
  case notFailed =>
    subst ht
    exact h.notFailed
  case queued =>
    intro bio hm
    rw [hq] at hm
    rcases List.mem_append.mp hm with hm | hm
    · exact h.queued_kept hkept hm
    · rw [List.mem_singleton.mp hm]
      exact ⟨_, hkt, rfl, hf.resetSector_eq hk hw hsent⟩
  case appended =>
    intro k' b n hbt ha hcov
    rw [hq, hs]
    by_cases hne : k = k'
    · subst hne
      exact .inr ⟨_, List.mem_append_right _ List.mem_cons_self, rfl⟩
    · exact (h.appended k' b n (hother hne hbt) ha hcov).imp_right
        fun hx => hx.imp fun bio hb => ⟨List.mem_append_left _ hb.1, hb.2⟩
  case saved =>
    intro b held hsv
    exact h.saved b held (hs ▸ hsv)
  case first =>
    intro b ho hn
    rw [hs] at hn
    rw [hq]
    refine (h.first_kept hkept ho hn).snoc fun hno hcb => ?_
    intro e he
    cases hkt.symm.trans he
    obtain ⟨e, he, hcov⟩ := hcb
    cases hkt.symm.trans he
    exact h.data k c b hk (by rw [hc]; rfl) hcov ho hn
      fun bio hm hcs => hno bio hm ((h.coversBlock_iff hkept hm).mpr hcs)
  case data =>
    intro k' b n hbt hd hcov ho hn hno
    rw [hs] at hn
    by_cases hne : k = k'
    · subst hne
      cases hkt.symm.trans hbt
      exact h.data k c n hk (by rw [hc]; rfl) hcov ho hn (hold hno)
    · exact h.data k' b n (hother hne hbt) hd hcov ho hn (hold hno)
  case base =>
    intro b ho hn hno
    rw [hs] at hn
    rw [hb]
    refine h.base b ho hn fun bio hm e he hcv => ?_
    obtain ⟨e', c', he', hct, _, _, hon⟩ := h.onward hkept hm
    cases he'.symm.trans he
    rw [← hon.tp, ← hsub]
    exact hno bio (hq ▸ List.mem_append_left _ hm) c' hct (hon.covers.mpr hcv)

/-- A change of the base device keeps the content where it is, if it changes no block for which only
the base device has it. -/
theorem Point.changed {base : Nat → β} {origs subs : List Nat} (h : Point d b₀ s)
    (hsub : ∀ i, i ∈ s.submitted → i ∈ subs)
    (hb : ∀ b, d.owned b = false → s.saved b = none →
      (∀ bio ∈ pending s, ∀ c, s.clones[bio.id]? = some c → c.Covers d b → c.tp ∉ subs) →
      ∀ o, o < d.sectorsPerBlock → base (d.sector b o) = s.base (d.sector b o)) :
    Point d b₀ { s with base := base, origBios := origs, submitted := subs } where
  notFailed := h.notFailed
  queued := h.queued
  appended := h.appended
  saved := h.saved
  first := h.first
  data := h.data
  base b ho hn hno o hlt := by
    refine (hb b ho hn hno o hlt).trans (h.base b ho hn (fun bio hm c hc hcv hin => ?_) o hlt)
    exact hno bio hm c hc hcv (hsub _ hin)

theorem Point.mrfSubmit {rest : List Nat} {content : Nat → β} (h : Point d b₀ s) (hc : Captures d s)
    (hf : s.fail = false) (ho : s.origBios = i :: rest) (hw : s.writes[i]? = some w) :
    Point d b₀ { s with
      origBios := rest
      submitted := s.submitted ++ [i]
      base := overwrite s.base w.sector w.sectors content } := by
  refine h.changed (fun j hj => List.mem_append_left _ hj) fun b hb hn hno o hlt => overwrite_other hlt fun hov => ?_
  rcases hc.released hw (List.mem_append_right _ (ho ▸ List.mem_cons_self)) with hfail | hcov
  · rw [hf] at hfail
    cases hfail
  · obtain ⟨k, c, hk, htp, ha, hcv⟩ := hcov b hov
    rcases h.appended k c b hk ha hcv with hs | ⟨bio, hm, rfl⟩
    · exact hs hn
    · exact hno bio hm c hk hcv (htp ▸ List.mem_append_right _ List.mem_cons_self)

theorem Point.direct {sector sectors : Nat} {content : Nat → β} (h : Point d b₀ s)
    (hown : ownBlocks d sector sectors = true) : Point d b₀ { s with base := overwrite s.base sector sectors content } := by
  refine h.changed (fun _ => id) fun b hb hn hno o hlt => overwrite_other hlt fun hov => ?_
  rw [ownBlocks_sector hown hov] at hb
  cases hb

/-- The pending clones in another order, with the first clone of each unsaved block still its first. -/
theorem Point.requeue {q : List Bio} {work : Work β} (h : Point d b₀ s)
    (hmem : ∀ bio, bio ∈ pending { s with cowBios := q, work := work } ↔ bio ∈ pending s)
    (hfirst : ∀ b, d.owned b = false → s.saved b = none →
      First (CoversBlock d s b) (HoldsBlock d b₀ s b) (pending { s with cowBios := q, work := work })) :
    Point d b₀ { s with cowBios := q, work := work } where
  notFailed := h.notFailed
  queued bio hm := h.queued bio ((hmem bio).mp hm)
  appended k c b hk ha hcov := by
    rcases h.appended k c b hk ha hcov with hs | ⟨bio, hm, hid⟩
    · exact .inl hs
    · exact .inr ⟨bio, (hmem bio).mpr hm, hid⟩
  saved := h.saved
  first := hfirst
  data k c b hk hd hcov ho hn hno := h.data k c b hk hd hcov ho hn fun bio hm => hno bio ((hmem bio).mpr hm)
  base b ho hn hno := h.base b ho hn fun bio hm => hno bio ((hmem bio).mpr hm)

theorem pending_of_dequeue (hw : s.work = .dequeue) : pending s = clones s.cowBios := by
  simp only [pending, hw]

theorem Point.takeWrite {rest : List Bio} (h : Point d b₀ s) (hw : s.work = .dequeue)
    (hq : bioQueueDequeueDelayRead s.cowBios = some (bio, rest)) (hb : bio.isWrite = true)
    (hord : InOrder d s (.cow .dequeue)) : Point d b₀ { s with cowBios := rest, work := .write bio } := by
  obtain ⟨pre, post, hpre, hpost⟩ := dequeue_write hq hb
  have hs : pending s = pre ++ bio :: post := (pending_of_dequeue hw).trans hpre
  have ht : pending { s with cowBios := rest, work := .write bio } = bio :: (pre ++ post) :=
    congrArg (List.cons bio) hpost
  refine h.requeue (fun x => ?_) fun b ho hn => ?_
  · rw [ht, hs]
    simp only [List.mem_cons, List.mem_append]
    constructor
    · rintro (h | h | h)
      · exact .inr (.inl h)
      · exact .inl h
      · exact .inr (.inr h)
    · rintro (h | h | h)
      · exact .inr (.inl h)
      · exact .inl h
      · exact .inr (.inr h)
  · rw [ht]
    have hfirst := h.first b ho hn
    rw [hs] at hfirst
    exact hfirst.move fun older hm => hord bio rest pre post hq hpre older hm b hn

/-- `cow_write_current` on every page of a clone that is filed under its own sector. -/
theorem writePages_eq {saved : Nat → Option (Nat → β)} (hal : ∃ m, c.sect = d.sector m 0)
    (hs : bio.sector = c.sect - d.sectOff) :
    (c.Covers d b → writePages d bio c c.pages saved b = (saved b).or (some fun o => c.data (d.sector b o))) ∧
    (¬ c.Covers d b → writePages d bio c c.pages saved b = saved b) := by
  obtain ⟨m, hm⟩ := hal
  have hbio : bio.sector / d.sectorsPerBlock = m := by
    rw [hs, hm]
    simp only [Device.sector, Nat.add_zero, Nat.add_sub_cancel_left]
    exact Nat.mul_div_cancel_left m d.pos
  have hcov : c.Covers d b ↔ m ≤ b ∧ b < m + c.pages := by
    rw [Clone.Covers, hm, sector_add, sector_succ, sector_le_iff, sector_le_iff, Nat.succ_le_iff]
  constructor
  · intro h
    rw [writePages, hbio, if_pos (hcov.mp h)]
    congr 2
    funext o
    congr 1
    obtain ⟨n, rfl⟩ := Nat.exists_eq_add_of_le (hcov.mp h).1
    rw [hm, Nat.add_sub_cancel_left, sector_add]
    rfl
  · intro h
    rw [writePages, hbio, if_neg fun hb => h (hcov.mpr hb), Option.or_none]

/-- The first pending clone is stored: its blocks that were not saved get its content. -/
theorem Point.write (h : Point d b₀ s) (frees : List Nat) (n : Nat) (hf : Filed d s) (hw : s.work = .write bio)
    (hc : s.clones[bio.id]? = some c) :
    Point d b₀ { s with
      saved := writePages d bio c c.pages s.saved
      work := .idle, processedCnt := n, freedBios := frees } := by
  have hs : pending s = bio :: clones s.cowBios := by simp only [pending, hw]
  have hmem : ∀ {x : Bio}, x ∈ clones s.cowBios → x ∈ pending s := fun hx => hs ▸ List.mem_cons_of_mem _ hx
  obtain ⟨e, he, ha, hsect⟩ := h.queued bio (hs ▸ List.mem_cons_self)
  cases hc.symm.trans he
  have hpages : ∀ b, (c.Covers d b → writePages d bio c c.pages s.saved b =
      (s.saved b).or (some fun o => c.data (d.sector b o))) ∧
      (¬ c.Covers d b → writePages d bio c c.pages s.saved b = s.saved b) :=
    fun b => writePages_eq (hf.aligned bio.id c hc) hsect
  have hnone : ∀ {b : Nat}, writePages d bio c c.pages s.saved b = none → s.saved b = none ∧ ¬ c.Covers d b := by
    intro b hn
    by_cases hcov : c.Covers d b
    · rw [(hpages b).1 hcov, Option.or_eq_none_iff] at hn
      cases hn.2
    · exact ⟨(hpages b).2 hcov ▸ hn, hcov⟩
  have hno : ∀ {b : Nat}, ¬ c.Covers d b → ¬ CoversBlock d s b bio := by
    rintro b hcov ⟨e, he, hce⟩
    cases hc.symm.trans he
    exact hcov hce
  constructor
  case notFailed => exact h.notFailed
  case queued => exact fun x hx => h.queued x (hmem hx)
  case appended =>
    intro k b n hk hap hcov
    by_cases hn : writePages d bio c c.pages s.saved n = none
    · obtain ⟨hns, hnc⟩ := hnone hn
      rcases h.appended k b n hk hap hcov with hsv | ⟨x, hx, rfl⟩
      · exact absurd hns hsv
      · rw [hs] at hx
        rcases List.mem_cons.mp hx with rfl | hx
        · cases hc.symm.trans hk
          exact absurd hcov hnc
        · exact .inr ⟨x, hx, rfl⟩
    · exact .inl hn
  case saved =>
    intro b held hsv ho o hlt
    by_cases hcov : c.Covers d b
    · have hp := (hpages b).1 hcov
      cases hold : s.saved b with
      | some held' =>
          rw [hold] at hp
          cases hp.symm.trans hsv
          exact h.saved b held hold ho o hlt
      | none =>
          rw [hold] at hp
          cases hp.symm.trans hsv
          have hfirst := h.first b ho hold
          rw [hs] at hfirst
          exact hfirst.1 ⟨c, hc, hcov⟩ c hc o hlt
    · exact h.saved b held ((hpages b).2 hcov ▸ hsv) ho o hlt
  case first =>
    intro b ho hn
    obtain ⟨hns, hnc⟩ := hnone hn
    have hfirst := h.first b ho hns
    rw [hs] at hfirst
    exact hfirst.2 (hno hnc)
  case data =>
    intro k e b hk hd hcov ho hn hall
    obtain ⟨hns, hnc⟩ := hnone hn
    refine h.data k e b hk hd hcov ho hns fun x hx => ?_
    rw [hs] at hx
    rcases List.mem_cons.mp hx with rfl | hx
    · exact hno hnc
    · exact hall x hx
  case base =>
    intro b ho hn hall
    obtain ⟨hns, hnc⟩ := hnone hn
    refine h.base b ho hns fun x hx => ?_
    rw [hs] at hx
    rcases List.mem_cons.mp hx with rfl | hx
    · intro e he hce
      cases hc.symm.trans he
      exact absurd hce hnc
    · exact hall x hx

/-- What the calls and the handlers leave to the cow thread. -/
structure Aside (s t : State β) : Prop where
  isFailed : t.isFailed = s.isFailed
  work : t.work = s.work
  saved : t.saved = s.saved
  submitted : t.submitted = s.submitted
  base : t.base = s.base
  reads : t.reads = s.reads

theorem tracer_aside {act : TraceAct} (hst : TraceStep d i w s act t) : Aside s t ∧ t.cowBios = s.cowBios := by
  cases hst with
  | cleanUp =>
      unfold freeNewBio
      split <;> exact ⟨⟨rfl, rfl, rfl, rfl, rfl, rfl⟩, rfl⟩
  | _ => exact ⟨⟨rfl, rfl, rfl, rfl, rfl, rfl⟩, rfl⟩

theorem reader_aside {act : ReadAct} (hst : ReadStep d k c w s act t) :
    Aside s t ∧ (act ≠ .append → t.cowBios = s.cowBios) := by
  cases hst with
  | append => exact ⟨⟨rfl, rfl, rfl, rfl, rfl, rfl⟩, fun h => absurd rfl h⟩
  | _ => exact ⟨⟨rfl, rfl, rfl, rfl, rfl, rfl⟩, fun _ => rfl⟩

theorem pending_congr (hw : t.work = s.work) (hq : t.cowBios = s.cowBios) : pending t = pending s := by
  simp only [pending, hw, hq]

theorem pending_other (hq : t.cowBios = s.cowBios) (hs : ∀ bio, s.work ≠ .write bio)
    (ht : ∀ bio, t.work ≠ .write bio) : pending t = pending s := by
  have : ∀ u : State β, (∀ bio, u.work ≠ .write bio) → pending u = clones u.cowBios := by
    intro u hu
    unfold pending
    split
    · exact absurd ‹_› (hu _)
    · rfl
  rw [this s hs, this t ht, hq]

theorem not_failed (hk : Kept s t) (ht : t.fail = false) : s.fail = false := by
  rw [Bool.eq_false_iff]
  intro hs
  rw [hk.fail hs] at ht
  cases ht

theorem Point.cow {act : CowAct} (h : Point d b₀ s) (hf : Filed d s) (hst : CowStep d s act t)
    (ht : t.fail = false) (hx : InOrder d s (.cow act)) : Point d b₀ t := by
  have hstep := Step.cow act t hst
  have hsf := not_failed (step_kept hf.captures.sound hstep) ht
  have frame := h.step_frame hf.captures.sound hstep (fun _ => nofun)
  cases hst with
  | look hw he =>
      refine frame ?_ (pending_other rfl (by simp [hw]) (by simp)) rfl rfl rfl
      simp only [hsf, Bool.or_false]
  | empty hw hq => exact frame rfl (pending_other rfl (by simp [hw]) (by simp)) rfl rfl rfl
  | take bio rest hw hq hnf =>
      by_cases hb : bio.isWrite = true
      · simp only [hb, if_true]
        exact h.takeWrite hw hq hb hx
      · rw [Bool.not_eq_true] at hb
        refine frame rfl ?_ rfl rfl rfl
        rw [pending_of_dequeue hw, ← (dequeue_read hq hb).1]
        simp only [pending, hb, Bool.false_eq_true, if_false]
  | drop bio rest hw hq hfl =>
      rw [h.notFailed] at hfl
      cases hfl
  | write handled bio c hw hc =>
      have hign : (d.ignoreSnapErrors && s.fail) = false := by rw [hsf, Bool.and_false]
      have hlt : ¬ handled < c.pages := by
        intro hlt
        simp only [processed, bioFreeClone, snapHandleWriteBio, hign, hlt, if_true, tracerSetFailState,
          Bool.false_eq_true, if_false] at ht
        cases ht
      have hmin : min handled c.pages = c.pages := Nat.min_eq_right (by omega)
      have hw' := h.write (bio.id :: s.freedBios) (s.processedCnt + 1) hf hw hc
      simp only [processed, bioFreeClone, snapHandleWriteBio, hign, hlt, if_false, hmin, Bool.false_eq_true]
      exact hw'
  | mode bio r hw hr =>
      refine frame rfl (pending_other rfl (by simp [hw]) fun x => ?_) rfl rfl rfl
      dsimp only
      split <;> simp
  | base bio m hw =>
      refine frame rfl (pending_other rfl (by simp [hw]) fun x => ?_) rfl rfl rfl
      dsimp only
      split <;> simp
  | overlay bio data hw => exact frame rfl (pending_other rfl (by simp [hw]) (by simp)) rfl rfl rfl
  | error => cases ht
  | finish bio ok data hw => exact frame rfl (pending_other rfl (by simp [hw]) (by simp [endRead])) rfl rfl rfl
  | exit hw => exact frame rfl (pending_other rfl (by simp [hw]) (by simp [hw])) rfl rfl rfl

theorem Point.step (h : Point d b₀ s) (hf : Filed d s) (hst : Step d s a t) (ht : t.fail = false)
    (htr : s.tracing = true) (hx : InOrder d s a) : Point d b₀ t := by
  have hsf := not_failed (step_kept hf.captures.sound hst) ht
  have frame := h.step_frame hf.captures.sound hst
  cases hst with
  | tracer i w act _ hw hs =>
      obtain ⟨ha, hq⟩ := tracer_aside hs
      exact frame (fun _ => nofun) ha.isFailed (pending_congr ha.work hq) ha.saved ha.submitted ha.base
  | reader k c w act _ hk hw hs =>
      by_cases happ : act = .append
      · subst happ
        have hstep := Step.reader k c w .append t hk hw hs
        cases hs with
        | append hc => exact h.append hf hk hw hstep hc rfl
      · obtain ⟨ha, hq⟩ := reader_aside hs
        refine frame (fun k' he => ?_) ha.isFailed (pending_congr ha.work (hq happ)) ha.saved ha.submitted ha.base
        cases he
        exact happ rfl
  | cow act _ hs => exact h.cow hf hs ht hx
  | mrfSubmit content i rest w he ho hw => exact h.mrfSubmit hf.captures hsf ho hw
  | direct sector sectors content hor =>
      rcases hor with hfl | hoff | hown
      · rw [hsf] at hfl
        cases hfl
      · rw [htr] at hoff
        cases hoff
      · exact h.direct hown
  | refused _ _ _ hfl =>
      rw [hsf] at hfl
      cases hfl
  | snapRead sector sectors pages hfl =>
      have hcl : clones (s.cowBios ++ [⟨false, sector, sectors, s.reads.length⟩]) = clones s.cowBios := by
        rw [clones_append, clones_read rfl]
        exact List.append_nil _
      refine frame (fun _ => nofun) rfl ?_ rfl rfl rfl
      simp only [pending, hcl]
  | failure => cases ht
  | trace | mrfExit | stopTracing | stopCow | stopMrf | free => exact frame (fun _ => nofun) rfl rfl rfl rfl rfl

end ElastioSnap.Snapshot.PointInTime
