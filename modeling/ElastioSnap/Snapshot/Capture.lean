import ElastioSnap.Snapshot.Blocks
import ElastioSnap.Snapshot.Refs

namespace ElastioSnap.Snapshot.Capture

open Lib.Runs Lib.Table Queue Tracking TraceBio ReadComplete CowThread Machine Blocks Refs

variable {β : Type} {d : Device} {s t u : State β} {a : Action β} {i j k b lo hi mid : Nat} {w : Write}
  {c c' : Clone β}

/-- A clone on its way keeps its range, and its content from the moment it was read. -/
structure Onward (c c' : Clone β) : Prop where
  tp : c'.tp = c.tp
  sect : c'.sect = c.sect
  pages : c'.pages = c.pages
  sent : c'.stage.sent = true
  hasData : c.stage.hasData = true → c'.stage.hasData = true ∧ c'.data = c.data
  appended : c.stage.appended = true → c'.stage.appended = true

theorem Onward.refl (h : c.stage.sent = true) : Onward c c :=
  ⟨rfl, rfl, rfl, h, fun hd => ⟨hd, rfl⟩, id⟩

theorem Onward.covers (h : Onward c c') : c'.Covers d b ↔ c.Covers d b := by
  rw [Clone.Covers, Clone.Covers, h.sect, h.pages]

/-- No step takes a submitted clone back, and none clears the fail code. -/
structure Kept (s t : State β) : Prop where
  clones : ∀ (k : Nat) (c : Clone β), s.clones[k]? = some c → c.stage.sent = true →
    ∃ c', t.clones[k]? = some c' ∧ Onward c c'
  fail : s.fail = true → t.fail = true

theorem kept_of_clones (hc : t.clones = s.clones) (hf : s.fail = true → t.fail = true) : Kept s t where
  clones _ c hk hs := ⟨c, hc ▸ hk, .refl hs⟩
  fail := hf

theorem kept_append (hc : t.clones = s.clones ++ [c]) (hf : s.fail = true → t.fail = true) : Kept s t where
  clones _ c hk hs := ⟨c, by rw [hc]; exact append_old hk, .refl hs⟩
  fail := hf

theorem kept_set (hk : s.clones[k]? = some c) (hc : t.clones = s.clones.set k c')
    (ho : c.stage.sent = true → Onward c c') (hf : s.fail = true → t.fail = true) : Kept s t where
  clones k' b hb hs := by
    rw [hc]
    by_cases hkk : k = k'
    · subst hkk
      rw [hk] at hb
      cases hb
      exact ⟨c', set_self hk, ho hs⟩
    · exact ⟨b, (set_other hkk).trans hb, .refl hs⟩
  fail := hf

theorem new_not_sent (hc : c.stage.isNew = true) : c.stage.sent = true → Onward c c' := by
  intro hs
  cases h : c.stage <;> simp [h, Stage.isNew, Stage.sent] at hc hs

theorem tracer_kept {act : TraceAct} (h : Sound s) (hw : s.writes[i]? = some w)
    (hst : TraceStep d i w s act t) : Kept s t := by
  cases hst with
  | allocTp | noTp | noBio | addMap | noMap | put => exact kept_of_clones rfl id
  | setFail => exact kept_of_clones rfl fun _ => rfl
  | noPage | made => exact kept_append rfl id
  | count k hpc hk =>
      obtain ⟨c, hc, _, hs⟩ := h.newBio_owned hw (by rw [hpc]; rfl) hk
      exact kept_set hc (modify_eq_set hc) (new_not_sent hs) id
  | submit k c hpc hk hcl =>
      obtain ⟨c, hc, _, hs⟩ := h.newBio_owned hw (by rw [hpc]; rfl) hk
      exact kept_set hc (modify_eq_set hc) (new_not_sent hs) id
  | cleanUp hpc =>
      unfold freeNewBio
      split
      next k hk =>
        obtain ⟨c, hc, _, hs⟩ := h.newBio_owned hw (by rw [hpc]; rfl) hk
        exact kept_set hc (modify_eq_set hc) (new_not_sent hs) id
      next => exact kept_of_clones rfl id

theorem reader_kept {act : ReadAct} (hk : s.clones[k]? = some c) (hst : ReadStep d k c w s act t) : Kept s t := by
  cases hst with
  | completed left hc =>
      exact kept_set hk rfl (fun _ => ⟨rfl, rfl, rfl, rfl, by simp [hc, Stage.hasData], by simp [hc, Stage.appended]⟩) id
  | failed left hc =>
      exact kept_set hk rfl (fun _ => ⟨rfl, rfl, rfl, rfl, by simp [hc, Stage.hasData], by simp [hc, Stage.appended]⟩) id
  | append | receive | put => exact kept_set hk rfl (fun _ => ⟨rfl, rfl, rfl, rfl, fun _ => ⟨rfl, rfl⟩, fun _ => rfl⟩) id
  | setFail hc =>
      refine kept_set hk rfl (fun _ => ⟨rfl, rfl, rfl, rfl, ?_, ?_⟩) fun _ => rfl
      · simp [hc, Stage.hasData]
      · simp [hc, Stage.appended]
  | drop hc =>
      exact kept_set hk rfl (fun _ => ⟨rfl, rfl, rfl, rfl, by simp [hc, Stage.hasData], by simp [hc, Stage.appended]⟩) id

theorem step_kept (h : Sound s) (hst : Step d s a t) : Kept s t := by
  rcases step_kinds hst with ⟨sector, sectors, _, _, _, rfl⟩ | ⟨i, w, act, _, hw, ht⟩ |
    ⟨k, c, w, act, _, hk, hw, hr⟩ | ⟨i, rest, content, w, _, ho, _, rfl⟩ | ⟨_, hf⟩
  · exact kept_of_clones rfl id
  · exact tracer_kept h hw ht
  · exact reader_kept hk hr
  · exact kept_of_clones rfl id
  · exact kept_of_clones hf.clones hf.fail

/-- The submitted clones of a write cover the blocks between two sectors. -/
def CoveredTo (d : Device) (s : State β) (i lo hi : Nat) : Prop :=
  ∀ b, lo ≤ d.sector b 0 → d.sector b d.sectorsPerBlock ≤ hi →
    ∃ (k : Nat) (c : Clone β), s.clones[k]? = some c ∧ c.tp = i ∧ c.stage.sent = true ∧ c.Covers d b

theorem CoveredTo.kept (h : CoveredTo d s i lo hi) (hk : Kept s t) : CoveredTo d t i lo hi := by
  intro b hlo hhi
  obtain ⟨k, c, hc, hi, hs, hcov⟩ := h b hlo hhi
  obtain ⟨c', hc', ho⟩ := hk.clones k c hc hs
  refine ⟨k, c', hc', ho.tp.trans hi, ho.sent, ?_⟩
  rw [Clone.Covers, ho.sect, ho.pages]
  exact hcov

theorem coveredTo_empty : CoveredTo d s i lo lo := by
  intro b hlo hhi
  have := d.pos
  simp only [Device.sector] at hlo hhi
  omega

/-- A clone that starts at a block extends what the clones before it cover. -/
theorem CoveredTo.extend {m n : Nat} (h : CoveredTo d s i lo (d.sector m 0)) (hk : s.clones[k]? = some c)
    (hi : c.tp = i) (hs : c.stage.sent = true) (hsect : c.sect = d.sector m 0) (hpages : c.pages = n) :
    CoveredTo d s i lo (d.sector (m + n) 0) := by
  intro b hlo hhi
  by_cases hb : b + 1 ≤ m
  · exact h b hlo (by rw [sector_succ, sector_le_iff]; exact hb)
  · refine ⟨k, c, hk, hi, hs, ?_⟩
    rw [Clone.Covers, hsect, hpages, sector_add]
    exact ⟨sector_le_iff.mpr (by omega), hhi⟩

/-- How far the loop of a call is: what it submitted reaches to where it goes on, and what is left
reaches to the end. -/
structure InLoop (d : Device) (s : State β) (i : Nat) (w : Write) : Prop where
  aligned : ∃ m, w.startSect = d.sector m 0
  rest : w.startSect + d.sectorsPerBlock * w.pages = endSect d w.sector w.sectors
  covered : CoveredTo d s i (startSect d w.sector) w.startSect

def Progress (d : Device) (s : State β) (i : Nat) (w : Write) : Prop :=
  match w.pc with
  | .allocTp | .makeClone | .addMap | .count | .submit => InLoop d s i w
  | .put => CoveredTo d s i (startSect d w.sector) (endSect d w.sector w.sectors)
  | .setFail => True
  | .cleanUp => s.fail = true
  | .returned => s.fail = true ∨ CoveredTo d s i (startSect d w.sector) (endSect d w.sector w.sectors)

theorem InLoop.kept (h : InLoop d s i w) (hk : Kept s t) : InLoop d t i w :=
  ⟨h.aligned, h.rest, h.covered.kept hk⟩

theorem Progress.kept (h : Progress d s i w) (hk : Kept s t) : Progress d t i w := by
  unfold Progress at h ⊢
  split at h
  · exact h.kept hk
  · exact h.kept hk
  · exact h.kept hk
  · exact h.kept hk
  · exact h.kept hk
  · exact CoveredTo.kept h hk
  · trivial
  · exact hk.fail h
  · exact h.imp hk.fail (·.kept hk)

/-- The call moves on within the round of its loop. -/
theorem InLoop.moved {w' : Write} (h : InLoop d s i w) (hk : Kept s t) (hs : w'.startSect = w.startSect)
    (hp : w'.pages = w.pages) (hsec : w'.sector = w.sector) (hsecs : w'.sectors = w.sectors) : InLoop d t i w' where
  aligned := hs ▸ h.aligned
  rest := by rw [hs, hp, hsec, hsecs, h.rest]
  covered := by
    rw [hs, hsec]
    exact h.covered.kept hk

/-- The submission of a clone, after which the loop goes on or the call puts its reference. -/
theorem progress_submit (h : InLoop d s i w) (hi : c.tp = i)
    (hsect : c.sect = w.startSect) (hle : c.pages ≤ w.pages) (hk : Kept s t)
    (ht : t.clones[k]? = some { c with stage := .submitted }) : Progress d t i (advance d w c) := by
  obtain ⟨m, hm⟩ := h.aligned
  have hcov : CoveredTo d t i (startSect d w.sector) (d.sector (m + c.pages) 0) := by
    refine CoveredTo.extend (c := { c with stage := .submitted }) ?_ ht hi rfl (hsect.trans hm) rfl
    rw [← hm]
    exact h.covered.kept hk
  have hend : w.startSect + d.sectorsPerBlock * c.pages = d.sector (m + c.pages) 0 := by
    rw [hm, sector_add]
  have hrest := h.rest
  by_cases hlt : c.pages < w.pages
  · rw [advance, if_pos hlt]
    have hsub : c.pages + (w.pages - c.pages) = w.pages := by omega
    refine InLoop.mk ⟨m + c.pages, hend⟩ ?_ ?_
    · change w.startSect + d.sectorsPerBlock * c.pages + d.sectorsPerBlock * (w.pages - c.pages) = _
      rw [Nat.add_assoc, ← Nat.mul_add, hsub]
      exact hrest
    · rw [← hend] at hcov
      exact hcov
  · rw [advance, if_neg hlt]
    have hp : c.pages = w.pages := by omega
    rw [← hend, hp, hrest] at hcov
    exact hcov

theorem tracer_progress {act : TraceAct} (h : Sound s) (hw : s.writes[i]? = some w) (hp : Progress d s i w)
    (hst : TraceStep d i w s act t) :
    ∃ w', t.writes[i]? = some w' ∧ w'.sector = w.sector ∧ w'.sectors = w.sectors ∧ Progress d t i w' := by
  have hk := tracer_kept h hw hst
  have hb := (h.calls i w hw).newBio
  unfold NewBio at hb
  unfold Progress at hp
  cases hst with
  | noTp | noBio | noPage | noMap => exact ⟨_, set_self hw, rfl, rfl, trivial⟩
  | allocTp hpc | made _ _ hpc | addMap _ _ hpc | count _ hpc =>
      rw [hpc] at hp
      exact ⟨_, set_self hw, rfl, rfl, InLoop.moved hp hk rfl rfl rfl rfl⟩
  | submit k c hpc hnew hcl =>
      rw [hpc] at hp hb
      obtain ⟨k', c', hnew', hcl', hi, _, hsect, _, hle⟩ := hb
      rw [hnew] at hnew'
      cases hnew'
      rw [hcl] at hcl'
      cases hcl'
      refine ⟨_, set_self hw, advance_sector, advance_sectors, ?_⟩
      exact progress_submit hp hi hsect hle hk (modify_self hcl)
  | put hpc =>
      rw [hpc] at hp
      exact ⟨_, set_self hw, rfl, rfl, .inr (CoveredTo.kept hp hk)⟩
  | setFail => exact ⟨_, set_self hw, rfl, rfl, rfl⟩
  | cleanUp hpc =>
      rw [hpc] at hp
      exact ⟨_, set_self (freeNewBio_writes ▸ hw), rfl, rfl, .inl (hk.fail hp)⟩

theorem Kept.refl : Kept s s :=
  kept_of_clones rfl id

theorem Progress.putRef {n : Option Nat} (h : Progress d s i w) : Progress d s i { w with refs := n } := by
  unfold Progress at h ⊢
  dsimp only
  cases hpc : w.pc with
  | allocTp | makeClone | addMap | count | submit =>
      rw [hpc] at h
      exact InLoop.moved h .refl rfl rfl rfl rfl
  | put | setFail | cleanUp | returned =>
      rw [hpc] at h
      exact h

theorem reader_progress {act : ReadAct} (hk : s.clones[k]? = some c) (hw : s.writes[c.tp]? = some w)
    (hp : Progress d s c.tp w) (hst : ReadStep d k c w s act t) :
    ∃ w', t.writes[c.tp]? = some w' ∧ w'.sector = w.sector ∧ w'.sectors = w.sectors ∧ Progress d t c.tp w' := by
  have hp' := hp.kept (reader_kept hk hst)
  have hput := hp'.putRef (n := w.refs.map (· - 1))
  cases hst with
  | put => exact ⟨_, set_self hw, rfl, rfl, hput⟩
  | drop => exact ⟨_, set_self hw, rfl, rfl, hput⟩
  | completed | failed | append | receive | setFail => exact ⟨w, hw, rfl, rfl, hp'⟩

/-- The clones whose reads failed, once the fail code is set. -/
def Stage.broken : Stage → Bool
  | .failing | .dropped => true
  | _ => false

def Broken (s : State β) : Prop :=
  ∀ (k : Nat) (c : Clone β), s.clones[k]? = some c → Stage.broken c.stage = true → s.fail = true

theorem Broken.append (h : Broken s) (hc : t.clones = s.clones ++ [c]) (hs : Stage.broken c.stage = false)
    (hf : s.fail = true → t.fail = true) : Broken t := by
  intro k b hb hbs
  rw [hc] at hb
  rcases append_some hb with hb | ⟨_, rfl⟩
  · exact hf (h k b hb hbs)
  · rw [hs] at hbs
    cases hbs

theorem Broken.modify {f : Clone β → Clone β} (h : Broken s) (hc : t.clones = s.clones.modify k f)
    (hs : ∀ c, Stage.broken (f c).stage = false) (hf : s.fail = true → t.fail = true) : Broken t := by
  intro k' b hb hbs
  rw [hc] at hb
  rcases modify_some hb with ⟨_, c, _, rfl⟩ | ⟨_, hb⟩
  · rw [hs c] at hbs
    cases hbs
  · exact hf (h k' b hb hbs)

theorem Broken.set (h : Broken s) (hc : t.clones = s.clones.set k c')
    (hs : Stage.broken c'.stage = true → t.fail = true) (hf : s.fail = true → t.fail = true) : Broken t := by
  intro k' b hb hbs
  rw [hc] at hb
  rcases set_some hb with ⟨_, rfl⟩ | ⟨_, hb⟩
  · exact hs hbs
  · exact hf (h k' b hb hbs)

theorem Broken.congr (h : Broken s) (hc : t.clones = s.clones) (hf : s.fail = true → t.fail = true) : Broken t := by
  intro k c hk hs
  exact hf (h k c (hc ▸ hk) hs)

theorem tracer_broken {act : TraceAct} (h : Broken s) (hst : TraceStep d i w s act t) : Broken t := by
  cases hst with
  | allocTp | noTp | noBio | addMap | noMap | put => exact h.congr rfl id
  | noPage | made => exact h.append rfl rfl id
  | count | submit => exact h.modify rfl (fun _ => rfl) id
  | setFail => exact h.congr rfl fun _ => rfl
  | cleanUp =>
      unfold freeNewBio
      split
      · exact h.modify rfl (fun _ => rfl) id
      · exact h.congr rfl id

theorem reader_broken {act : ReadAct} (h : Broken s) (hk : s.clones[k]? = some c)
    (hst : ReadStep d k c w s act t) : Broken t := by
  cases hst with
  | completed | failed | append | receive | put => exact h.set rfl (fun hs => by cases hs) id
  | setFail => exact h.set rfl (fun _ => rfl) fun _ => rfl
  | drop hc => exact h.set rfl (fun _ => h k c hk (by rw [hc]; rfl)) id

/-- Every call keeps count of its references and of what it covered. -/
structure Captures (d : Device) (s : State β) : Prop where
  sound : Sound s
  origin : ∀ (i : Nat) (w : Write), s.writes[i]? = some w → d.sectOff ≤ w.sector
  progress : ∀ (i : Nat) (w : Write), s.writes[i]? = some w → Progress d s i w
  broken : Broken s

theorem Captures.apart {w' : Write} (h : Captures d s) (ha : Apart i s t) (hk : Kept s t) (hs : Sound t)
    (hb : Broken t) (hw : s.writes[i]? = some w) (hw' : t.writes[i]? = some w') (hsec : w'.sector = w.sector)
    (hp : Progress d t i w') : Captures d t where
  sound := hs
  broken := hb
  origin j v hv := by
    by_cases hj : j = i
    · subst hj
      rw [hw'] at hv
      cases hv
      rw [hsec]
      exact h.origin j w hw
    · rw [ha.writes j hj] at hv
      exact h.origin j v hv
  progress j v hv := by
    by_cases hj : j = i
    · subst hj
      rw [hw'] at hv
      cases hv
      exact hp
    · rw [ha.writes j hj] at hv
      exact (h.progress j v hv).kept hk

theorem Captures.quiet (h : Captures d s) (hk : Kept s t) (hs : Sound t) (hw : t.writes = s.writes)
    (hc : t.clones = s.clones) : Captures d t where
  sound := hs
  broken := h.broken.congr hc hk.fail
  origin i w hi := h.origin i w (hw ▸ hi)
  progress i w hi := (h.progress i w (hw ▸ hi)).kept hk

theorem Captures.trace {sector sectors : Nat} (h : Captures d s) (ho : d.sectOff ≤ sector) :
    Captures d { s with writes := s.writes ++ [newWrite d sector sectors] } where
  sound := h.sound.trace sector sectors
  broken := h.broken
  origin i w hi := by
    rcases append_some hi with hi | ⟨_, rfl⟩
    · exact h.origin i w hi
    · exact ho
  progress i w hi := by
    rcases append_some hi with hi | ⟨_, rfl⟩
    · exact (h.progress i w hi).kept (kept_of_clones rfl id)
    · exact InLoop.mk ⟨_, startSect_eq⟩ (pages_total ho) coveredTo_empty

theorem Captures.step (h : Captures d s) (hst : Step d s a t) : Captures d t := by
  have hs := h.sound.step hst
  have hkept := step_kept h.sound hst
  rcases step_kinds hst with ⟨sector, sectors, _, _, ho, rfl⟩ | ⟨i, w, act, _, hw, ht⟩ |
    ⟨k, c, w, act, _, hk, hw, hr⟩ | ⟨i, rest, content, w, _, _, _, rfl⟩ | ⟨_, hf⟩
  · exact h.trace ho
  · obtain ⟨w', hw', hsec, _, hp⟩ := tracer_progress h.sound hw (h.progress i w hw) ht
    exact h.apart (tracer_apart h.sound hw ht) hkept hs (tracer_broken h.broken ht) hw hw' hsec hp
  · obtain ⟨w', hw', hsec, _, hp⟩ := reader_progress hk hw (h.progress _ w hw) hr
    exact h.apart (reader_apart hk hr) hkept hs (reader_broken h.broken hk hr) hw hw' hsec hp
  · exact h.quiet hkept hs rfl rfl
  · exact h.quiet hkept hs hf.writes hf.clones

theorem captures_created (b : Nat → β) : Captures d (State.created b) where
  sound := sound_created b
  broken k c hk := by cases hk
  origin i w hw := by cases hw
  progress i w hw := by cases hw

/-- A released bio was put once, by the last of its references. -/
theorem refs_of_released (h : Sound s) (hw : s.writes[i]? = some w) (hi : i ∈ s.submitted ++ s.origBios) :
    w.pc = .returned ∧ s.clones.countP (·.holdsRef i) = 0 := by
  have hc := h.calls i w hw
  have hpos : releases s i ≠ 0 := Nat.pos_iff_ne_zero.mp (List.count_pos_iff.mpr hi)
  have hrefs : w.refs = some 0 := by
    by_contra hne
    exact hpos (hc.released.trans (if_neg hne))
  have hz := hc.refs 0 hrefs
  constructor
  · by_contra hne
    rw [bne_iff_ne.mpr hne, Bool.toNat_true] at hz
    omega
  · omega

/-- An original bio is released only with all its blocks captured, or in the fail state. -/
theorem Captures.released (h : Captures d s) (hw : s.writes[i]? = some w) (hi : i ∈ s.submitted ++ s.origBios) :
    s.fail = true ∨ ∀ b, d.Overlaps w.sector w.sectors b →
      ∃ (k : Nat) (c : Clone β), s.clones[k]? = some c ∧ c.tp = i ∧ c.stage.appended = true ∧ c.Covers d b := by
  obtain ⟨hpc, hcount⟩ := refs_of_released h.sound hw hi
  have hp := h.progress i w hw
  unfold Progress at hp
  rw [hpc] at hp
  rcases hp with hf | hcov
  · exact .inl hf
  · by_cases hf : s.fail = true
    · exact .inl hf
    · refine .inr fun b hb => ?_
      obtain ⟨hlo, hhi⟩ := overlaps_between (h.origin i w hw) hb
      obtain ⟨k, c, hk, htp, hs, hc⟩ := hcov b hlo hhi
      refine ⟨k, c, hk, htp, ?_, hc⟩
      have hno : c.stage.holdsRef ≠ true := by
        intro hh
        refine List.countP_eq_zero.mp hcount c (List.mem_of_getElem? hk) ?_
        rw [Clone.holdsRef, htp, hh, beq_self_eq_true]
        rfl
      have hnb : Stage.broken c.stage ≠ true := fun hbr => hf (h.broken k c hk hbr)
      cases hst : c.stage <;> simp_all [Stage.holdsRef, Stage.sent, Stage.broken, Stage.appended]

end ElastioSnap.Snapshot.Capture
