import ElastioSnap.Snapshot.Machine

namespace ElastioSnap.Snapshot.Refs

open Lib.Runs Lib.Table Queue Tracking TraceBio ReadComplete CowThread Machine

variable {β : Type} {d : Device} {s t u : State β} {a : Action β} {i j k : Nat} {w : Write} {c : Clone β}

/-- How often an original bio was put on `sd_orig_bios`, counting those already submitted. -/
def releases (s : State β) (i : Nat) : Nat :=
  (s.submitted ++ s.origBios).count i

/-- A step for one write changes nothing that belongs to another one. -/
structure Apart (i : Nat) (s t : State β) : Prop where
  writes : ∀ j, j ≠ i → t.writes[j]? = s.writes[j]?
  length : t.writes.length = s.writes.length
  clones : ∀ (k : Nat) (c : Clone β), c.tp ≠ i → (t.clones[k]? = some c ↔ s.clones[k]? = some c)
  held : ∀ j, j ≠ i → t.clones.countP (·.holdsRef j) = s.clones.countP (·.holdsRef j)
  releases : ∀ j, j ≠ i → releases t j = releases s j

theorem Apart.trans (h : Apart i s t) (h' : Apart i t u) : Apart i s u where
  writes j hj := (h'.writes j hj).trans (h.writes j hj)
  length := h'.length.trans h.length
  clones k c hc := (h'.clones k c hc).trans (h.clones k c hc)
  held j hj := (h'.held j hj).trans (h.held j hj)
  releases j hj := (h'.releases j hj).trans (h.releases j hj)

theorem apart_setWrite : Apart i s (s.setWrite i w) where
  writes _ hj := set_other hj.symm
  length := List.length_set
  clones _ _ _ := Iff.rfl
  held _ _ := rfl
  releases _ _ := rfl

theorem apart_setClone {c' : Clone β} (hk : s.clones[k]? = some c) (hc : c.tp = i) (hc' : c'.tp = i) :
    Apart i s (setClone s k c') where
  writes _ _ := rfl
  length := rfl
  clones k' b hb := by
    by_cases hkk : k = k'
    · subst hkk
      rw [setClone, set_self hk, hk]
      constructor
      · intro h
        cases h
        exact absurd hc' hb
      · intro h
        cases h
        exact absurd hc hb
    · rw [setClone, set_other hkk]
  held j hj := by
    refine countP_set_same hk ?_
    have hij : (i == j) = false := by simpa using hj.symm
    simp only [Clone.holdsRef, hc, hc', hij, Bool.false_and]
  releases _ _ := rfl

theorem setStage_eq (stage : Stage) (hk : s.clones[k]? = some c) :
    s.setStage k stage = setClone s k { c with stage := stage } := by
  simp only [State.setStage, setClone, modify_eq_set hk]

theorem apart_append (hc : c.tp = i) : Apart i s { s with clones := s.clones ++ [c] } where
  writes _ _ := rfl
  length := rfl
  clones k' c' hc' := by
    constructor
    · intro h
      rcases append_some h with h | ⟨_, rfl⟩
      · exact h
      · exact absurd hc hc'
    · exact append_old
  held j hj := by
    have hc' : (c.tp == j) = false := by
      rw [hc]
      simpa using hj.symm
    simp only [countP_snoc, Clone.holdsRef, hc', Bool.false_and, Bool.toNat_false, Nat.add_zero]
  releases _ _ := rfl

theorem apart_tpPut : Apart i s (tpPut i w s) where
  writes _ hj := set_other hj.symm
  length := List.length_set
  clones _ _ _ := Iff.rfl
  held _ _ := rfl
  releases j hj := by
    simp only [releases, tpPut]
    split
    · rw [← List.append_assoc, List.count_append, List.count_singleton, if_neg (by simpa using hj.symm),
        Nat.add_zero]
    · rfl

/-- Where a call may still own a clone that it has not submitted. -/
def Pc.ownsNew : Pc → Bool
  | .addMap | .count | .submit | .setFail | .cleanUp => true
  | _ => false

def Pending (s : State β) (i : Nat) (w : Write) (stage : Stage) : Prop :=
  ∃ k c, w.newBio = some k ∧ s.clones[k]? = some c ∧ c.tp = i ∧ c.stage = stage ∧
    c.sect = w.startSect ∧ 0 < c.pages ∧ c.pages ≤ w.pages

/-- What the local variable `new_bio` is good for at each point of a call. -/
def NewBio (s : State β) (i : Nat) (w : Write) : Prop :=
  match w.pc with
  | .allocTp => w.newBio = none
  | .addMap | .count => Pending s i w .created
  | .submit => Pending s i w .counted
  | .setFail | .cleanUp =>
      ∀ k, w.newBio = some k → ∃ c, s.clones[k]? = some c ∧ c.tp = i ∧ c.stage = .created
  | _ => True

/-- The reference count of the tracing parameters: one for the call until it returns, and one for
each clone that has not dropped its own. -/
structure Call (s : State β) (i : Nat) (w : Write) : Prop where
  noTp : w.refs = none → w.pc = .allocTp ∨ w.pc = .setFail ∨ w.pc = .cleanUp ∨ w.pc = .returned
  start : w.pc = .allocTp → w.refs = none
  refs : ∀ n, w.refs = some n → n = (w.pc != .returned).toNat + s.clones.countP (·.holdsRef i)
  newBio : NewBio s i w
  released : releases s i = if w.refs = some 0 then 1 else 0

/-- A clone belongs to tracing parameters, and before it is submitted to the call as well. -/
def Owned (k : Nat) (c : Clone β) (w : Write) : Prop :=
  w.refs ≠ none ∧ (c.stage.isNew = true → w.newBio = some k ∧ Pc.ownsNew w.pc = true)

structure Sound (s : State β) : Prop where
  calls : ∀ i w, s.writes[i]? = some w → Call s i w
  clones : ∀ k c, s.clones[k]? = some c → ∃ w, s.writes[c.tp]? = some w ∧ Owned k c w
  known : ∀ i, s.writes.length ≤ i → releases s i = 0

theorem Pending.apart {stage : Stage} (h : Pending s j w stage) (ha : Apart i s t) (hj : j ≠ i) :
    Pending t j w stage := by
  obtain ⟨k, c, hk, hc, rfl, hrest⟩ := h
  exact ⟨k, c, hk, (ha.clones k c hj).mpr hc, rfl, hrest⟩

theorem NewBio.apart (h : NewBio s j w) (ha : Apart i s t) (hj : j ≠ i) : NewBio t j w := by
  unfold NewBio at h ⊢
  split at h
  · exact h
  · exact h.apart ha hj
  · exact h.apart ha hj
  · exact h.apart ha hj
  · intro k hk
    obtain ⟨c, hc, rfl, hs⟩ := h k hk
    exact ⟨c, (ha.clones k c hj).mpr hc, rfl, hs⟩
  · intro k hk
    obtain ⟨c, hc, rfl, hs⟩ := h k hk
    exact ⟨c, (ha.clones k c hj).mpr hc, rfl, hs⟩
  · trivial

theorem Call.apart (h : Call s j w) (ha : Apart i s t) (hj : j ≠ i) : Call t j w where
  noTp := h.noTp
  start := h.start
  refs n hn := by rw [ha.held j hj]; exact h.refs n hn
  newBio := h.newBio.apart ha hj
  released := (ha.releases j hj).trans h.released

/-- Where a call has tracing parameters for sure. -/
def Pc.inLoop : Pc → Bool
  | .makeClone | .addMap | .count | .submit | .put => true
  | _ => false

theorem Call.hasTp (h : Call s i w) (hpc : Pc.inLoop w.pc = true) : w.refs ≠ none := by
  intro hr
  rcases h.noTp hr with h | h | h | h <;> (rw [h] at hpc; cases hpc)

/-- A step for one write keeps the counts right if it keeps those of that write right. -/
theorem Sound.apart (h : Sound s) (ha : Apart i s t) (hw : t.writes[i]? = some w) (hc : Call t i w)
    (hcl : ∀ k c, t.clones[k]? = some c → c.tp = i → Owned k c w) : Sound t where
  calls j v hv := by
    by_cases hj : j = i
    · subst hj
      rw [hw] at hv
      cases hv
      exact hc
    · rw [ha.writes j hj] at hv
      exact (h.calls j v hv).apart ha hj
  clones k c hk := by
    by_cases hj : c.tp = i
    · exact ⟨w, hj ▸ hw, hcl k c hk hj⟩
    · obtain ⟨v, hv, ho⟩ := h.clones k c ((ha.clones k c hj).mp hk)
      exact ⟨v, (ha.writes _ hj).trans hv, ho⟩
  known j hj := by
    rw [ha.length] at hj
    have hi := (List.getElem?_eq_some_iff.mp hw).1
    rw [ha.length] at hi
    rw [ha.releases j (by omega)]
    exact h.known j hj

theorem Sound.congr (h : Sound s) (hw : t.writes = s.writes) (hc : t.clones = s.clones)
    (hr : ∀ i, releases t i = releases s i) : Sound t where
  calls i w hi := by
    rw [hw] at hi
    have hs := h.calls i w hi
    refine ⟨hs.noTp, hs.start, ?_, ?_, (hr i).trans hs.released⟩
    · rw [hc]
      exact hs.refs
    · have hn := hs.newBio
      unfold NewBio Pending at hn ⊢
      rw [hc]
      exact hn
  clones k c hk := by
    rw [hc] at hk
    obtain ⟨w, hi, ho⟩ := h.clones k c hk
    exact ⟨w, hw ▸ hi, ho⟩
  known i hi := by
    rw [hr]
    exact h.known i (hw ▸ hi)

theorem Sound.owned (h : Sound s) (hw : s.writes[i]? = some w) (hk : s.clones[k]? = some c) (hi : c.tp = i) :
    Owned k c w := by
  obtain ⟨v, hv, ho⟩ := h.clones k c hk
  rw [hi, hw] at hv
  cases hv
  exact ho

/-- The call moves on and touches neither its reference count nor a clone. -/
theorem Sound.setWrite {w' : Write} (h : Sound s) (hw : s.writes[i]? = some w) (hr : w'.refs = w.refs)
    (hlive : w.pc ≠ .returned) (hlive' : w'.pc ≠ .returned) (hstart : w'.pc ≠ .allocTp)
    (hno : w.refs = none → w'.pc = .setFail ∨ w'.pc = .cleanUp) (hn : NewBio s i w')
    (ho : ∀ k, w.newBio = some k → Pc.ownsNew w.pc = true → w'.newBio = some k ∧ Pc.ownsNew w'.pc = true) :
    Sound (s.setWrite i w') := by
  have hc := h.calls i w hw
  refine h.apart apart_setWrite (set_self hw) ⟨?_, ?_, ?_, hn, ?_⟩ ?_
  · intro hrefs
    rcases hno (hr ▸ hrefs) with hpc | hpc
    · exact .inr (.inl hpc)
    · exact .inr (.inr (.inl hpc))
  · exact fun hpc => absurd hpc hstart
  · intro n hrefs
    rw [hc.refs n (hr ▸ hrefs), bne_iff_ne.mpr hlive, bne_iff_ne.mpr hlive']
    rfl
  · rw [hr]
    exact hc.released
  · intro k c hk hi
    have hown := h.owned hw hk hi
    exact ⟨hr ▸ hown.1, fun hs => ho k (hown.2 hs).1 (hown.2 hs).2⟩

theorem releases_tpPut : releases (tpPut i w s) i = releases s i + if w.refs = some 1 then 1 else 0 := by
  simp only [releases, tpPut]
  split
  · rw [← List.append_assoc, List.count_append, List.count_singleton_self]
  · rfl

/-- Dropping a reference that is held, which releases the original bio if it was the last one. -/
theorem Call.put (hno : w.refs = none → w.pc = .allocTp ∨ w.pc = .setFail ∨ w.pc = .cleanUp ∨ w.pc = .returned)
    (hstart : w.pc = .allocTp → w.refs = none) (hn : NewBio s i w)
    (hr : ∀ n, w.refs = some n → n = (w.pc != .returned).toNat + s.clones.countP (·.holdsRef i) + 1)
    (hrel : releases s i = if w.refs = some 0 then 1 else 0) :
    Call (tpPut i w s) i { w with refs := w.refs.map (· - 1) } where
  noTp h := hno (Option.map_eq_none_iff.mp h)
  start h := by rw [hstart h]; rfl
  refs n h := by
    obtain ⟨m, hm, rfl⟩ := Option.map_eq_some_iff.mp h
    rw [hr m hm]
    rfl
  newBio := hn
  released := by
    rw [releases_tpPut, hrel]
    cases hw : w.refs with
    | none => rfl
    | some n =>
        have hpos := hr n hw
        obtain ⟨m, rfl⟩ : ∃ m, n = m + 1 := ⟨_, hpos⟩
        simp

theorem NewBio.keep {c' : Clone β} (h : NewBio s i w) (hk : s.clones[k]? = some c)
    (hc : c.stage.isNew = false) : NewBio (setClone s k c') i w := by
  have keep : ∀ (k' : Nat) (b : Clone β), s.clones[k']? = some b → b.stage.isNew = true →
      (setClone s k c').clones[k']? = some b := by
    intro k' b hb hs
    have hkk : k ≠ k' := by
      rintro rfl
      rw [hk] at hb
      cases hb
      rw [hc] at hs
      cases hs
    exact (set_other hkk).trans hb
  unfold NewBio at h ⊢
  split at h
  · exact h
  · obtain ⟨k', b, hk', hb, hi, hs, hrest⟩ := h
    exact ⟨k', b, hk', keep k' b hb (by rw [hs]; rfl), hi, hs, hrest⟩
  · obtain ⟨k', b, hk', hb, hi, hs, hrest⟩ := h
    exact ⟨k', b, hk', keep k' b hb (by rw [hs]; rfl), hi, hs, hrest⟩
  · obtain ⟨k', b, hk', hb, hi, hs, hrest⟩ := h
    exact ⟨k', b, hk', keep k' b hb (by rw [hs]; rfl), hi, hs, hrest⟩
  · intro k' hk'
    obtain ⟨b, hb, hi, hs⟩ := h k' hk'
    exact ⟨b, keep k' b hb (by rw [hs]; rfl), hi, hs⟩
  · intro k' hk'
    obtain ⟨b, hb, hi, hs⟩ := h k' hk'
    exact ⟨b, keep k' b hb (by rw [hs]; rfl), hi, hs⟩
  · trivial

/-- A completion handler moves on and keeps its reference. -/
theorem Sound.stage {c' : Clone β} (h : Sound s) (hk : s.clones[k]? = some c)
    (hw : s.writes[c.tp]? = some w) (htp : c'.tp = c.tp) (hh : c'.stage.holdsRef = c.stage.holdsRef)
    (hs : c.stage.isNew = false) (hn : c'.stage.isNew = false) : Sound (setClone s k c') := by
  have hc := h.calls c.tp w hw
  refine h.apart (apart_setClone hk rfl htp) hw ⟨hc.noTp, hc.start, ?_, hc.newBio.keep hk hs, hc.released⟩ ?_
  · intro n hrefs
    have hcount : (setClone s k c').clones.countP (·.holdsRef c.tp) = s.clones.countP (·.holdsRef c.tp) :=
      countP_set_same hk (by rw [Clone.holdsRef, Clone.holdsRef, htp, hh])
    rw [hcount]
    exact hc.refs n hrefs
  · intro k' b hb hi
    rcases set_some hb with ⟨rfl, rfl⟩ | ⟨_, hb⟩
    · exact ⟨(h.owned hw hk rfl).1, fun hst => by rw [hn] at hst; cases hst⟩
    · exact h.owned hw hb hi

/-- A completion handler drops the reference of its clone. -/
theorem Sound.dropRef {c' : Clone β} (h : Sound s) (hk : s.clones[k]? = some c)
    (hw : s.writes[c.tp]? = some w) (htp : c'.tp = c.tp) (hh : c.stage.holdsRef = true)
    (hh' : c'.stage.holdsRef = false) (hs : c.stage.isNew = false) (hn : c'.stage.isNew = false) :
    Sound (tpPut c.tp w (setClone s k c')) := by
  have hc := h.calls c.tp w hw
  have ha : Apart c.tp s (tpPut c.tp w (setClone s k c')) := (apart_setClone hk rfl htp).trans apart_tpPut
  refine h.apart ha (set_self hw) (Call.put hc.noTp hc.start (hc.newBio.keep hk hs) ?_ hc.released) ?_
  · intro n hrefs
    have hcount : (setClone s k c').clones.countP (·.holdsRef c.tp) + 1 =
        s.clones.countP (·.holdsRef c.tp) := by
      have := countP_set (b := c') (p := (·.holdsRef c.tp)) hk
      simp only [Clone.holdsRef, hh, hh', beq_self_eq_true, Bool.and_true, Bool.and_false, Bool.toNat_true,
        Bool.toNat_false, Nat.add_zero] at this
      exact this
    rw [Nat.add_assoc, hcount]
    exact hc.refs n hrefs
  · intro k' b hb hi
    have hown : ∀ b : Clone β, Owned k' b w → Owned k' b { w with refs := w.refs.map (· - 1) } :=
      fun b ho => ⟨fun hnone => ho.1 (Option.map_eq_none_iff.mp hnone), ho.2⟩
    rcases set_some hb with ⟨rfl, rfl⟩ | ⟨_, hb⟩
    · exact hown _ ⟨(h.owned hw hk rfl).1, fun hst => by rw [hn] at hst; cases hst⟩
    · exact hown _ (h.owned hw hb hi)

theorem Sound.free (h : Sound s) : Sound (bioFreeClone s k) :=
  h.congr rfl rfl fun _ => rfl

theorem Sound.reader {act : ReadAct} (h : Sound s) (hk : s.clones[k]? = some c)
    (hw : s.writes[c.tp]? = some w) (hst : ReadStep d k c w s act t) : Sound t := by
  cases hst with
  | completed left hc => exact h.stage hk hw rfl (by rw [hc]; rfl) (by rw [hc]; rfl) rfl
  | failed left hc => exact h.stage hk hw rfl (by rw [hc]; rfl) (by rw [hc]; rfl) rfl
  | append hc =>
      refine Sound.congr (s := setClone s k { c with stage := .queued }) ?_ rfl rfl fun _ => rfl
      exact h.stage hk hw rfl (by rw [hc]; rfl) (by rw [hc]; rfl) rfl
  | receive hc =>
      refine Sound.congr (s := setClone s k { c with stage := .received }) ?_ rfl rfl fun _ => rfl
      exact h.stage hk hw rfl (by rw [hc]; rfl) (by rw [hc]; rfl) rfl
  | put hc => exact h.dropRef hk hw rfl (by rw [hc]; rfl) rfl (by rw [hc]; rfl) rfl
  | setFail hc =>
      refine Sound.congr (s := setClone s k { c with stage := .failing }) ?_ rfl rfl fun _ => rfl
      exact h.stage hk hw rfl (by rw [hc]; rfl) (by rw [hc]; rfl) rfl
  | drop hc =>
      refine Sound.free ?_
      exact h.dropRef hk hw rfl (by rw [hc]; rfl) rfl (by rw [hc]; rfl) rfl

theorem Apart.congr (h : Apart i s t) (hw : u.writes = t.writes) (hc : u.clones = t.clones)
    (ho : u.origBios = t.origBios) (hs : u.submitted = t.submitted) : Apart i s u where
  writes j hj := by rw [hw, h.writes j hj]
  length := by rw [hw, h.length]
  clones k c hk := by rw [hc, h.clones k c hk]
  held j hj := by rw [hc, h.held j hj]
  releases j hj := by
    have hu : u.submitted ++ u.origBios = t.submitted ++ t.origBios := by rw [hs, ho]
    exact (congrArg (List.count j) hu).trans (h.releases j hj)

theorem Apart.free (h : Apart i s t) : Apart i s (bioFreeClone t k) :=
  h.congr rfl rfl rfl rfl

/-- A call that has tracing parameters takes a reference for a new clone. -/
theorem Sound.newClone {w' : Write} (h : Sound s) (hw : s.writes[i]? = some w) (hpc : w.pc = .makeClone)
    (hw' : w'.refs = w.refs.map (· + 1)) (hlive : w'.pc ≠ .returned) (hstart : w'.pc ≠ .allocTp)
    (hi : c.tp = i) (hh : c.stage.holdsRef = true)
    (hn : NewBio { s.setWrite i w' with clones := s.clones ++ [c] } i w')
    (ho : c.stage.isNew = true → w'.newBio = some s.clones.length ∧ Pc.ownsNew w'.pc = true) :
    Sound { s.setWrite i w' with clones := s.clones ++ [c] } := by
  have hc := h.calls i w hw
  have ha : Apart i s { s.setWrite i w' with clones := s.clones ++ [c] } :=
    apart_setWrite.trans (apart_append (s := s.setWrite i w') hi)
  obtain ⟨n, hrefs⟩ := Option.ne_none_iff_exists'.mp (hc.hasTp (by rw [hpc]; rfl))
  have hsome : w'.refs = some (n + 1) := by rw [hw', hrefs]; rfl
  refine h.apart ha (set_self hw) ⟨?_, fun hpc => absurd hpc hstart, ?_, hn, ?_⟩ ?_
  · intro hnone
    rw [hsome] at hnone
    cases hnone
  · intro m hm
    rw [hsome] at hm
    cases hm
    have hcount : (s.clones ++ [c]).countP (·.holdsRef i) = s.clones.countP (·.holdsRef i) + 1 := by
      rw [countP_snoc, Clone.holdsRef, hi, hh, beq_self_eq_true]
      rfl
    have hold := hc.refs n hrefs
    rw [hpc] at hold
    rw [hcount, bne_iff_ne.mpr hlive, hold]
    rfl
  · have hrel : releases { s.setWrite i w' with clones := s.clones ++ [c] } i = releases s i := rfl
    have hold := hc.refs n hrefs
    rw [hpc] at hold
    rw [hrel, hc.released, hsome, hrefs, if_neg (by rw [hold]; simp), if_neg (by simp)]
  · intro k b hb htp
    have hne : w'.refs ≠ none := by rw [hsome]; exact Option.some_ne_none _
    rcases append_some hb with hb | ⟨rfl, rfl⟩
    · refine ⟨hne, fun hs => ?_⟩
      have hown := ((h.owned hw hb htp).2 hs).2
      rw [hpc] at hown
      cases hown
    · exact ⟨hne, ho⟩

/-- The first step of a call: the tracing parameters, with the reference of the call. -/
theorem Sound.allocTp (h : Sound s) (hw : s.writes[i]? = some w) (hpc : w.pc = .allocTp) :
    Sound (s.setWrite i { w with pc := .makeClone, refs := some 1 }) := by
  have hc := h.calls i w hw
  have hnone : ∀ (k : Nat) (c : Clone β), s.clones[k]? = some c → c.tp ≠ i := by
    intro k c hk hi
    exact (h.owned hw hk hi).1 (hc.start hpc)
  have hzero : s.clones.countP (·.holdsRef i) = 0 := by
    rw [List.countP_eq_zero]
    intro c hc'
    obtain ⟨k, hk⟩ := List.mem_iff_getElem?.mp hc'
    have hne := hnone k c hk
    simp only [Clone.holdsRef, Bool.and_eq_true, beq_iff_eq]
    exact fun hand => hne hand.1
  refine h.apart apart_setWrite (set_self hw) ⟨?_, ?_, ?_, trivial, ?_⟩ ?_
  · intro hr
    cases hr
  · intro hpc
    cases hpc
  · intro n hn
    cases hn
    change 1 = 1 + s.clones.countP (·.holdsRef i)
    rw [hzero]
  · have hold := hc.released
    rw [hc.start hpc] at hold
    exact hold
  · intro k c hk hi
    exact absurd hi (hnone k c hk)

/-- A call counts or submits its new clone. -/
theorem Sound.restage {w' : Write} {c' : Clone β} (h : Sound s) (hw : s.writes[i]? = some w)
    (hk : s.clones[k]? = some c) (hi : c.tp = i) (hi' : c'.tp = i) (hh : c'.stage.holdsRef = c.stage.holdsRef)
    (hr : w'.refs = w.refs) (hsome : w.refs ≠ none) (hlive : w.pc ≠ .returned) (hlive' : w'.pc ≠ .returned)
    (hstart : w'.pc ≠ .allocTp) (hnew : w.newBio = some k)
    (hn : NewBio (setClone (s.setWrite i w') k c') i w')
    (ho : c'.stage.isNew = true → w'.newBio = some k ∧ Pc.ownsNew w'.pc = true) :
    Sound (setClone (s.setWrite i w') k c') := by
  have hc := h.calls i w hw
  have ha : Apart i s (setClone (s.setWrite i w') k c') :=
    apart_setWrite.trans (apart_setClone (s := s.setWrite i w') hk hi hi')
  refine h.apart ha (set_self hw) ⟨?_, fun hpc => absurd hpc hstart, ?_, hn, ?_⟩ ?_
  · exact fun hnone => absurd (hr ▸ hnone) hsome
  · intro n hn
    have hcount : (setClone (s.setWrite i w') k c').clones.countP (·.holdsRef i) = s.clones.countP (·.holdsRef i) :=
      countP_set_same hk (by rw [Clone.holdsRef, Clone.holdsRef, hi, hi', hh])
    rw [hcount, hc.refs n (hr ▸ hn), bne_iff_ne.mpr hlive, bne_iff_ne.mpr hlive']
  · rw [hr]
    exact hc.released
  · intro k' b hb htp
    refine ⟨hr ▸ hsome, fun hs => ?_⟩
    rcases set_some hb with ⟨rfl, rfl⟩ | ⟨hkk, hb⟩
    · exact ho hs
    · have hown := ((h.owned hw hb htp).2 hs).1
      rw [hnew] at hown
      exact absurd (Option.some.inj hown) hkk

/-- A call returns and drops its reference. -/
theorem Sound.ret (h : Sound s) (hw : s.writes[i]? = some w) (hlive : w.pc ≠ .returned) (ha : Apart i s t)
    (hwt : t.writes[i]? = some w) (hcount : t.clones.countP (·.holdsRef i) = s.clones.countP (·.holdsRef i))
    (hrel : releases t i = releases s i)
    (hold : ∀ (k : Nat) (c : Clone β), t.clones[k]? = some c → c.tp = i → w.refs ≠ none ∧ c.stage.isNew = false) :
    Sound (tpPut i { w with pc := .returned } t) := by
  have hc := h.calls i w hw
  refine h.apart (ha.trans apart_tpPut) (set_self hwt) (Call.put (fun _ => .inr (.inr (.inr rfl))) ?_ trivial ?_ ?_) ?_
  · intro hpc
    cases hpc
  · intro n hn
    change n = 0 + t.clones.countP (·.holdsRef i) + 1
    rw [hcount, hc.refs n hn, bne_iff_ne.mpr hlive, Bool.toNat_true]
    omega
  · rw [hrel]
    exact hc.released
  · intro k c hk hi
    obtain ⟨hsome, hnew⟩ := hold k c hk hi
    refine ⟨fun hnone => hsome (Option.map_eq_none_iff.mp hnone), fun hs => ?_⟩
    rw [hnew] at hs
    cases hs

theorem Sound.cleanUp (h : Sound s) (hw : s.writes[i]? = some w) (hpc : w.pc = .cleanUp) :
    Sound (tpPut i { w with pc := .returned } (freeNewBio w s)) := by
  have hlive : w.pc ≠ .returned := by simp [hpc]
  have hb := (h.calls i w hw).newBio
  unfold NewBio at hb
  rw [hpc] at hb
  obtain hk | ⟨k, hk⟩ := Option.eq_none_or_eq_some w.newBio
  · have hs : freeNewBio w s = s := by simp only [freeNewBio, hk]
    rw [hs]
    refine h.ret hw hlive ⟨fun _ _ => rfl, rfl, fun _ _ _ => Iff.rfl, fun _ _ => rfl, fun _ _ => rfl⟩ hw rfl rfl ?_
    intro k c hc hi
    have hown := h.owned hw hc hi
    refine ⟨hown.1, Bool.eq_false_iff.mpr fun hs => ?_⟩
    have hnew := (hown.2 hs).1
    rw [hk] at hnew
    cases hnew
  · obtain ⟨c, hc, hi, hs⟩ := hb k hk
    have hfree : freeNewBio w s = bioFreeClone (setClone s k { c with stage := .leaked }) k := by
      simp only [freeNewBio, hk, setStage_eq _ hc]
    have ha : Apart i s (setClone s k { c with stage := .leaked }) := apart_setClone hc hi hi
    rw [hfree]
    refine h.ret hw hlive ha.free hw ?_ rfl ?_
    · exact countP_set_same hc (by rw [Clone.holdsRef, Clone.holdsRef, hs]; rfl)
    · intro k' b hb' htp
      rcases set_some hb' with ⟨rfl, rfl⟩ | ⟨hkk, hb'⟩
      · exact ⟨(h.owned hw hc hi).1, rfl⟩
      · have hown := h.owned hw hb' htp
        refine ⟨hown.1, Bool.eq_false_iff.mpr fun hs => ?_⟩
        have hnew := (hown.2 hs).1
        rw [hk] at hnew
        exact hkk (Option.some.inj hnew)

theorem advance_pc (d : Device) (w : Write) (c : Clone β) :
    (advance d w c).pc = .makeClone ∨ (advance d w c).pc = .put := by
  unfold advance
  split
  · exact .inl rfl
  · exact .inr rfl

theorem advance_refs : (advance d w c).refs = w.refs := by
  unfold advance
  split <;> rfl

theorem advance_sector : (advance d w c).sector = w.sector := by
  unfold advance
  split <;> rfl

theorem advance_sectors : (advance d w c).sectors = w.sectors := by
  unfold advance
  split <;> rfl

theorem advance_newBio : (advance d w c).newBio = w.newBio := by
  unfold advance
  split <;> rfl

theorem advance_bioSects : (advance d w c).bioSects = w.bioSects := by
  unfold advance
  split <;> rfl

theorem Sound.tracer {act : TraceAct} (h : Sound s) (hw : s.writes[i]? = some w)
    (hst : TraceStep d i w s act t) : Sound t := by
  have hc := h.calls i w hw
  have hb := hc.newBio
  unfold NewBio at hb
  cases hst with
  | allocTp hpc => exact h.allocTp hw hpc
  | noTp hpc =>
      rw [hpc] at hb
      refine h.setWrite hw rfl (by simp [hpc]) (by simp) (by simp) (by simp) ?_ (by simp [hpc, Pc.ownsNew])
      intro k hk
      rw [hb] at hk
      cases hk
  | noBio hpc =>
      refine h.setWrite hw rfl (by simp [hpc]) (by simp) (by simp) (by simp) ?_ (by simp [hpc, Pc.ownsNew])
      intro k hk
      cases hk
  | noPage addr hpc =>
      refine Sound.free (h.newClone hw hpc rfl (by simp) (by simp) rfl rfl ?_ (by simp [Stage.isNew]))
      intro k hk
      cases hk
  | made addr n hpc _ hn hle =>
      refine h.newClone hw hpc rfl (by simp) (by simp) rfl rfl ?_ (by simp [Pc.ownsNew])
      exact ⟨s.clones.length, _, rfl, List.getElem?_concat_length, rfl, rfl, rfl, hn, hle⟩
  | addMap k c hpc hk hcl =>
      rw [hpc] at hb
      refine h.setWrite hw rfl (by simp [hpc]) (by simp) (by simp) ?_ hb (fun _ hk _ => ⟨hk, rfl⟩)
      exact fun hr => absurd hr (hc.hasTp (by rw [hpc]; rfl))
  | noMap hpc =>
      rw [hpc] at hb
      refine h.setWrite hw rfl (by simp [hpc]) (by simp) (by simp) (by simp) ?_ fun _ hk _ => ⟨hk, rfl⟩
      obtain ⟨k, c, hk, hcl, hi, hs, _⟩ := hb
      intro k' hk'
      rw [hk] at hk'
      cases hk'
      exact ⟨c, hcl, hi, hs⟩
  | count k hpc hk =>
      rw [hpc] at hb
      obtain ⟨k', c, hk', hcl, hi, hs, hsect, hn, hle⟩ := hb
      rw [hk] at hk'
      cases hk'
      refine Sound.congr (s := (s.setWrite i { w with pc := .submit }).setStage k .counted) ?_ rfl rfl fun _ => rfl
      rw [setStage_eq (s := s.setWrite i { w with pc := .submit }) _ hcl]
      refine h.restage hw hcl hi hi (by rw [hs]; rfl) rfl (h.owned hw hcl hi).1 (by simp [hpc]) (by simp) (by simp)
        hk ⟨k, _, hk, set_self hcl, hi, rfl, hsect, hn, hle⟩ fun _ => ⟨hk, rfl⟩
  | submit k c hpc hk hcl =>
      rw [hpc] at hb
      obtain ⟨k', c', hk', hcl', hi, hs, _⟩ := hb
      rw [hk] at hk'
      cases hk'
      rw [hcl] at hcl'
      cases hcl'
      rw [setStage_eq (s := s.setWrite i (advance d w c)) _ hcl]
      have hsome := (h.owned hw hcl hi).1
      have hadv := advance_pc d w c
      refine h.restage hw hcl hi hi (by rw [hs]; rfl) advance_refs hsome (by simp [hpc]) ?_ ?_ hk ?_ fun hs => by cases hs
      · rcases hadv with hadv | hadv <;> simp [hadv]
      · rcases hadv with hadv | hadv <;> simp [hadv]
      · unfold NewBio
        rcases hadv with hadv | hadv <;> (rw [hadv]; trivial)
  | put hpc =>
      refine h.ret hw (by simp [hpc]) ⟨fun _ _ => rfl, rfl, fun _ _ _ => Iff.rfl, fun _ _ => rfl, fun _ _ => rfl⟩
        hw rfl rfl ?_
      intro k c hk hi
      have hown := h.owned hw hk hi
      refine ⟨hown.1, Bool.eq_false_iff.mpr fun hs => ?_⟩
      have hpc' := (hown.2 hs).2
      rw [hpc] at hpc'
      cases hpc'
  | setFail hpc =>
      rw [hpc] at hb
      refine Sound.congr (s := s.setWrite i { w with pc := .cleanUp }) ?_ rfl rfl fun _ => rfl
      exact h.setWrite hw rfl (by simp [hpc]) (by simp) (by simp) (by simp) hb (fun _ hk _ => ⟨hk, rfl⟩)
  | cleanUp hpc => exact h.cleanUp hw hpc

theorem freeNewBio_writes : (freeNewBio w s).writes = s.writes := by
  unfold freeNewBio
  split <;> rfl

/-- The clone that `new_bio` points to before it is submitted belongs to the call. -/
theorem Sound.newBio_owned (h : Sound s) (hw : s.writes[i]? = some w) (hpc : Pc.ownsNew w.pc = true)
    (hk : w.newBio = some k) : ∃ c, s.clones[k]? = some c ∧ c.tp = i ∧ c.stage.isNew = true := by
  have hb := (h.calls i w hw).newBio
  unfold NewBio at hb
  cases h : w.pc <;> rw [h] at hpc hb
  case setFail | cleanUp =>
    obtain ⟨c, hc, hi, hs⟩ := hb k hk
    exact ⟨c, hc, hi, by rw [hs]; rfl⟩
  case addMap | count | submit =>
    obtain ⟨k', c, hk', hc, hi, hs, _⟩ := hb
    rw [hk] at hk'
    cases hk'
    exact ⟨c, hc, hi, by rw [hs]; rfl⟩
  all_goals cases hpc

theorem tracer_apart {act : TraceAct} (h : Sound s) (hw : s.writes[i]? = some w)
    (hst : TraceStep d i w s act t) : Apart i s t := by
  cases hst with
  | allocTp | noTp | noBio | addMap | noMap => exact apart_setWrite
  | noPage addr hpc =>
      refine Apart.congr (apart_setWrite.trans (apart_append (s := s.setWrite i _) ?_)) rfl rfl rfl rfl
      rfl
  | made addr n hpc => exact apart_setWrite.trans (apart_append (s := s.setWrite i _) rfl)
  | count k hpc hk =>
      obtain ⟨c, hc, hi, _⟩ := h.newBio_owned hw (by rw [hpc]; rfl) hk
      rw [setStage_eq (s := s.setWrite i _) _ hc]
      have ha : Apart i s (setClone (s.setWrite i { w with pc := .submit }) k { c with stage := .counted }) :=
        apart_setWrite.trans (apart_setClone (s := s.setWrite i _) hc hi hi)
      exact ha.congr rfl rfl rfl rfl
  | submit k c hpc hk hcl =>
      obtain ⟨c, hc, hi, _⟩ := h.newBio_owned hw (by rw [hpc]; rfl) hk
      rw [setStage_eq (s := s.setWrite i _) _ hc]
      exact apart_setWrite.trans (apart_setClone (s := s.setWrite i _) hc hi hi)
  | put => exact apart_tpPut
  | setFail =>
      have ha : Apart i s (s.setWrite i { w with pc := .cleanUp }) := apart_setWrite
      exact ha.congr rfl rfl rfl rfl
  | cleanUp hpc =>
      obtain hk | ⟨k, hk⟩ := Option.eq_none_or_eq_some w.newBio
      · have hs : freeNewBio w s = s := by simp only [freeNewBio, hk]
        rw [hs]
        exact apart_tpPut
      · obtain ⟨c, hc, hi, _⟩ := h.newBio_owned hw (by rw [hpc]; rfl) hk
        have hfree : freeNewBio w s = bioFreeClone (setClone s k { c with stage := .leaked }) k := by
          simp only [freeNewBio, hk, setStage_eq _ hc]
        have ha : Apart i s (setClone s k { c with stage := .leaked }) := apart_setClone hc hi hi
        rw [hfree]
        exact ha.free.trans apart_tpPut

theorem reader_apart {act : ReadAct} (hk : s.clones[k]? = some c) (hst : ReadStep d k c w s act t) :
    Apart c.tp s t := by
  have hset : ∀ c' : Clone β, c'.tp = c.tp → Apart c.tp s (setClone s k c') :=
    fun c' hc' => apart_setClone hk rfl hc'
  cases hst with
  | completed | failed => exact hset _ rfl
  | append =>
      have ha := hset { c with stage := .queued } rfl
      exact ha.congr rfl rfl rfl rfl
  | receive =>
      have ha := hset { c with stage := .received } rfl
      exact ha.congr rfl rfl rfl rfl
  | put => exact (hset { c with stage := .done } rfl).trans apart_tpPut
  | setFail =>
      have ha := hset { c with stage := .failing } rfl
      exact ha.congr rfl rfl rfl rfl
  | drop => exact ((hset { c with stage := .dropped } rfl).trans apart_tpPut).free

theorem Sound.trace (h : Sound s) (sector sectors : Nat) :
    Sound { s with writes := s.writes ++ [newWrite d sector sectors] } where
  calls i w hw := by
    rcases append_some hw with hw | ⟨rfl, rfl⟩
    · have hc := h.calls i w hw
      exact ⟨hc.noTp, hc.start, hc.refs, hc.newBio, hc.released⟩
    · refine ⟨fun _ => .inl rfl, fun _ => rfl, ?_, rfl, h.known _ (Nat.le_refl _)⟩
      intro n hn
      cases hn
  clones k c hk := by
    obtain ⟨w, hw, ho⟩ := h.clones k c hk
    exact ⟨w, append_old hw, ho⟩
  known i hi := by
    rw [List.length_append] at hi
    exact h.known i (Nat.le_of_add_right_le hi)

theorem releases_mrfSubmit {rest : List Nat} {b : Nat → β} (ho : s.origBios = i :: rest) :
    releases { s with origBios := rest, submitted := s.submitted ++ [i], base := b } j = releases s j := by
  simp only [releases, ho, List.count_append, List.count_cons, List.count_nil]
  omega

theorem Sound.step (h : Sound s) (hst : Step d s a t) : Sound t := by
  rcases step_kinds hst with ⟨sector, sectors, _, _, _, rfl⟩ | ⟨i, w, act, _, hw, ht⟩ |
    ⟨k, c, w, act, _, hk, hw, hr⟩ | ⟨i, rest, content, w, _, ho, _, rfl⟩ | ⟨_, hf⟩
  · exact h.trace sector sectors
  · exact h.tracer hw ht
  · exact h.reader hk hw hr
  · exact h.congr rfl rfl fun _ => releases_mrfSubmit ho
  · exact h.congr hf.writes hf.clones fun i => by rw [releases, releases, hf.submitted, hf.origBios]

theorem sound_created (b : Nat → β) : Sound (State.created b) where
  calls i w hw := by cases hw
  clones k c hk := by cases hk
  known i _ := rfl

end ElastioSnap.Snapshot.Refs
