import ElastioSnap.Snapshot.Capture

namespace ElastioSnap.Snapshot.Filing

open Lib.Runs Lib.Table Queue Tracking TraceBio ReadComplete CowThread Machine Blocks Refs Capture

variable {β : Type} {d : Device} {s t : State β} {a : Action β} {i j k : Nat} {w w' : Write} {c c' : Clone β}

/-- A new clone does not have the address of an earlier clone of the same write, which the cow thread
may have freed. -/
def NoReuse (s : State β) : Action β → Prop
  | .tracer i (.makeClone (.made addr _)) => ∀ w ∈ s.writes[i]?, ∀ m ∈ w.bioSects, m.bio ≠ addr
  | _ => True

/-- The map of the call finds the clone under its own sector. -/
def Finds (w : Write) (c : Clone β) : Prop :=
  (w.bioSects.find? fun m => m.bio == c.addr).map (·.sect) = some c.sect

/-- The clone was added to the map. -/
def InMap (w : Write) (c : Clone β) : Prop :=
  c.stage.sent = true ∨ c.stage = .counted ∨ (c.stage = .created ∧ w.pc = .count)

/-- What holds of the clones of one write. -/
structure Maps (s : State β) (i : Nat) (w : Write) : Prop where
  new : w.pc = .addMap → ∀ (k : Nat) (c : Clone β), w.newBio = some k → s.clones[k]? = some c →
    ∀ m ∈ w.bioSects, m.bio ≠ c.addr
  finds : ∀ (k : Nat) (c : Clone β), s.clones[k]? = some c → c.tp = i → InMap w c → Finds w c

theorem Maps.apart (h : Maps s j w) (hs : Sound s) (hw : s.writes[j]? = some w) (ha : Apart i s t) (hj : j ≠ i) :
    Maps t j w where
  new hpc k c hk hc := by
    obtain ⟨b, hb, htp, _⟩ := hs.newBio_owned hw (by rw [hpc]; rfl) hk
    have hbt := (ha.clones k b (htp ▸ hj)).mpr hb
    rw [hc] at hbt
    cases hbt
    exact h.new hpc k c hk hb
  finds k c hk hi := h.finds k c ((ha.clones k c (hi ▸ hj)).mp hk) hi

/-- The call moves on and the map stays as it is. -/
theorem Maps.setWrite (h : Maps s i w) (hb : w'.bioSects = w.bioSects) (hnew : w'.pc ≠ .addMap)
    (hcount : w'.pc ≠ .count) (hc : t.clones = s.clones) : Maps t i w' where
  new hpc := absurd hpc hnew
  finds k c hk hi hin := by
    rw [Finds, hb]
    refine h.finds k c (hc ▸ hk) hi ?_
    rcases hin with hs | hs | ⟨_, hpc⟩
    · exact .inl hs
    · exact .inr (.inl hs)
    · exact absurd hpc hcount

/-- One clone of the write moves on. -/
theorem Maps.setClone (h : Maps s i w) (hk : s.clones[k]? = some c) (hc : t.clones = s.clones.set k c')
    (hi : c.tp = i) (haddr : c'.addr = c.addr) (hsect : c'.sect = c.sect) (hb : w'.bioSects = w.bioSects)
    (hnew : w'.pc = w.pc ∨ w'.pc ≠ .addMap ∧ w'.pc ≠ .count) (hbio : w'.newBio = w.newBio)
    (hin : InMap w' c' → InMap w c) : Maps t i w' where
  new hpc k' b hk' hbt m hm := by
    have hpc' : w.pc = .addMap := by
      rcases hnew with hpc' | hpc'
      · rw [← hpc', hpc]
      · exact absurd hpc hpc'.1
    rw [hc] at hbt
    rw [hb] at hm
    rw [hbio] at hk'
    rcases set_some hbt with ⟨rfl, rfl⟩ | ⟨_, hbt⟩
    · rw [haddr]
      exact h.new hpc' k c hk' hk m hm
    · exact h.new hpc' k' b hk' hbt m hm
  finds k' b hbt htp hib := by
    rw [hc] at hbt
    rcases set_some hbt with ⟨rfl, rfl⟩ | ⟨_, hbt⟩
    · rw [Finds, hb, haddr, hsect]
      exact h.finds k c hk hi (hin hib)
    · rw [Finds, hb]
      refine h.finds k' b hbt htp ?_
      rcases hib with hs | hs | ⟨hs, hpc⟩
      · exact .inl hs
      · exact .inr (.inl hs)
      · rcases hnew with hpc' | hpc'
        · exact .inr (.inr ⟨hs, hpc' ▸ hpc⟩)
        · exact absurd hpc hpc'.2

theorem Maps.newClone (h : Maps s i w) (hc : t.clones = s.clones ++ [c]) (hb : w'.bioSects = w.bioSects)
    (hcount : w'.pc ≠ .count) (hs : c.stage.sent = false) (hs' : c.stage ≠ .counted)
    (hnew : w'.pc = .addMap → w'.newBio = some s.clones.length ∧ ∀ m ∈ w.bioSects, m.bio ≠ c.addr) :
    Maps t i w' where
  new hpc k b hk hbt m hm := by
    obtain ⟨hlen, hfresh⟩ := hnew hpc
    rw [hk] at hlen
    cases hlen
    rw [hc, List.getElem?_concat_length] at hbt
    cases hbt
    exact hfresh m (hb ▸ hm)
  finds k b hbt htp hin := by
    rw [hc] at hbt
    rw [Finds, hb]
    rcases append_some hbt with hbt | ⟨_, rfl⟩
    · refine h.finds k b hbt htp ?_
      rcases hin with hin | hin | ⟨_, hpc⟩
      · exact .inl hin
      · exact .inr (.inl hin)
      · exact absurd hpc hcount
    · rcases hin with hin | hin | ⟨_, hpc⟩
      · rw [hs] at hin
        cases hin
      · exact absurd hin hs'
      · exact absurd hpc hcount

/-- `tp_add` puts the new clone behind those already in the map. -/
theorem Maps.tpAdd (h : Maps s i w) (hs : Sound s) (hw : s.writes[i]? = some w) (hpc : w.pc = .addMap)
    (hk : w.newBio = some k) (hc : s.clones[k]? = some c) :
    Maps (tpAdd d i w c s) i { w with
      pc := .count
      bioSects := w.bioSects ++ [{ bio := c.addr, sect := c.sect, size := d.sectorsPerBlock * c.pages }] } where
  new hpc := by cases hpc
  finds k' b hb htp hin := by
    rw [Finds, List.find?_append]
    have hold : InMap w b → Finds w b := h.finds k' b hb htp
    rcases hin with hs' | hs' | ⟨hs', _⟩
    · obtain ⟨m, hm, hsect⟩ := Option.map_eq_some_iff.mp (hold (.inl hs'))
      rw [hm]
      exact congrArg some hsect
    · obtain ⟨m, hm, hsect⟩ := Option.map_eq_some_iff.mp (hold (.inr (.inl hs')))
      rw [hm]
      exact congrArg some hsect
    · have hkk := ((hs.owned hw hb htp).2 (by rw [hs']; rfl)).1
      rw [hk] at hkk
      cases hkk
      cases hc.symm.trans hb
      have hnone : w.bioSects.find? (fun m => m.bio == c.addr) = none := by
        rw [List.find?_eq_none]
        intro m hm
        simpa using h.new hpc k c hk hc m hm
      rw [hnone]
      simp

theorem tracer_maps {act : TraceAct} (h : Maps s i w) (hs : Sound s) (hw : s.writes[i]? = some w)
    (hst : TraceStep d i w s act t) (hr : NoReuse s (.tracer i act : Action β)) :
    ∃ w', t.writes[i]? = some w' ∧ Maps t i w' := by
  have hb := (hs.calls i w hw).newBio
  unfold NewBio at hb
  cases hst with
  | allocTp | noTp | noBio | noMap | setFail =>
      exact ⟨_, set_self hw, h.setWrite rfl (by simp) (by simp) rfl⟩
  | put => exact ⟨_, set_self hw, h.setWrite rfl (by simp) (by simp) rfl⟩
  | noPage addr hpc => exact ⟨_, set_self hw, h.newClone rfl rfl (by simp) rfl (by simp) (by simp)⟩
  | made addr n hpc =>
      exact ⟨_, set_self hw, h.newClone rfl rfl (by simp) rfl (by simp) fun _ => ⟨rfl, hr w hw⟩⟩
  | addMap k c hpc hk hc => exact ⟨_, set_self hw, h.tpAdd hs hw hpc hk hc⟩
  | count k hpc hk =>
      rw [hpc] at hb
      obtain ⟨k', c, hk', hc, hi, hst, _⟩ := hb
      rw [hk] at hk'
      cases hk'
      refine ⟨_, set_self hw, h.setClone hc (modify_eq_set hc) hi rfl rfl rfl (.inr (by simp)) rfl ?_⟩
      exact fun _ => .inr (.inr ⟨hst, hpc⟩)
  | submit k c hpc hk hc =>
      rw [hpc] at hb
      obtain ⟨k', c', hk', hc', hi, hst, _⟩ := hb
      rw [hk] at hk'
      cases hk'
      rw [hc] at hc'
      cases hc'
      refine ⟨_, set_self hw, h.setClone hc (modify_eq_set hc) hi rfl rfl advance_bioSects (.inr ?_) advance_newBio ?_⟩
      · rcases advance_pc d w c with ha | ha <;> simp [ha]
      · exact fun _ => .inr (.inl hst)
  | cleanUp hpc =>
      refine ⟨_, set_self (freeNewBio_writes ▸ hw), ?_⟩
      obtain hk | ⟨k, hk⟩ := Option.eq_none_or_eq_some w.newBio
      · exact h.setWrite rfl (by simp) (by simp) (by simp [freeNewBio, hk, tpPut])
      · rw [hpc] at hb
        obtain ⟨c, hc, hi, _⟩ := hb k hk
        have hset : (tpPut i { w with pc := .returned } (freeNewBio w s)).clones =
            s.clones.set k { c with stage := .leaked } := by
          simp only [tpPut, freeNewBio, hk, bioFreeClone, State.setStage, modify_eq_set hc]
        refine h.setClone hc hset hi rfl rfl rfl (.inr (by simp)) rfl ?_
        rintro (hs | hs | ⟨hs, _⟩) <;> cases hs

theorem reader_maps {act : ReadAct} (h : Maps s c.tp w) (hk : s.clones[k]? = some c)
    (hw : s.writes[c.tp]? = some w) (hst : ReadStep d k c w s act t) :
    ∃ w', t.writes[c.tp]? = some w' ∧ Maps t c.tp w' := by
  have hsent : c.stage.sent = true := by
    cases hst with
    | completed _ hc | failed _ hc | append hc | receive hc | put hc | setFail hc | drop hc => rw [hc]; rfl
  have hin : ∀ {v : Write} {b : Clone β}, InMap v b → InMap w c := fun _ => .inl hsent
  cases hst with
  | completed | failed | append | receive | setFail =>
      exact ⟨w, hw, h.setClone hk rfl rfl rfl rfl rfl (.inl rfl) rfl hin⟩
  | put | drop => exact ⟨_, set_self hw, h.setClone hk rfl rfl rfl rfl rfl (.inl rfl) rfl hin⟩

/-- Every clone starts at a block, and is found in the map of its write. -/
structure Filed (d : Device) (s : State β) : Prop where
  captures : Captures d s
  aligned : ∀ (k : Nat) (c : Clone β), s.clones[k]? = some c → ∃ m, c.sect = d.sector m 0
  maps : ∀ (i : Nat) (w : Write), s.writes[i]? = some w → Maps s i w

theorem Filed.apart {w' : Write} (h : Filed d s) (hc : Captures d t) (ha : Apart i s t)
    (hal : ∀ (k : Nat) (c : Clone β), t.clones[k]? = some c → ∃ m, c.sect = d.sector m 0)
    (hw' : t.writes[i]? = some w') (hm : Maps t i w') : Filed d t where
  captures := hc
  aligned := hal
  maps j v hv := by
    by_cases hj : j = i
    · subst hj
      rw [hw'] at hv
      cases hv
      exact hm
    · rw [ha.writes j hj] at hv
      exact (h.maps j v hv).apart h.captures.sound hv ha hj

theorem Filed.quiet (h : Filed d s) (hc : Captures d t) (hw : t.writes = s.writes) (hcl : t.clones = s.clones) :
    Filed d t where
  captures := hc
  aligned k c hk := h.aligned k c (hcl ▸ hk)
  maps i w hi := by
    have hm := h.maps i w (hw ▸ hi)
    refine ⟨?_, ?_⟩
    · rw [hcl]
      exact hm.new
    · rw [hcl]
      exact hm.finds

theorem step_aligned (h : Filed d s) (hst : Step d s a t) (hk : t.clones[k]? = some c) :
    ∃ m, c.sect = d.sector m 0 := by
  have mod : ∀ {us : List (Clone β)} {k' : Nat} {stage : Stage},
      us = s.clones.modify k' (fun c => { c with stage := stage }) → us[k]? = some c → ∃ m, c.sect = d.sector m 0 := by
    intro us k' stage hu hk
    rw [hu] at hk
    rcases modify_some hk with ⟨_, b, hb, rfl⟩ | ⟨_, hk⟩
    · exact h.aligned k b hb
    · exact h.aligned k c hk
  rcases step_kinds hst with ⟨sector, sectors, _, _, _, rfl⟩ | ⟨i, w, act, _, hw, ht⟩ |
    ⟨k', b, w, act, _, hk', hw, hr⟩ | ⟨i, rest, content, w, _, _, _, rfl⟩ | ⟨_, hf⟩
  · exact h.aligned k c hk
  · cases ht with
    | allocTp | noTp | noBio | addMap | noMap | put | setFail => exact h.aligned k c hk
    | noPage _ hpc | made _ _ hpc =>
        have hp := h.captures.progress i w hw
        unfold Progress at hp
        rw [hpc] at hp
        rcases append_some hk with hk | ⟨_, rfl⟩
        · exact h.aligned k c hk
        · exact hp.aligned
    | count | submit => exact mod rfl hk
    | cleanUp =>
        unfold freeNewBio at hk
        split at hk
        · exact mod rfl hk
        · exact h.aligned k c hk
  · have hset : ∀ {b' : Clone β}, (s.clones.set k' b')[k]? = some c → b'.sect = b.sect → ∃ m, c.sect = d.sector m 0 := by
      intro b' hk hb'
      rcases set_some hk with ⟨_, rfl⟩ | ⟨_, hk⟩
      · rw [hb']
        exact h.aligned k' b hk'
      · exact h.aligned k c hk
    cases hr with
    | completed | failed | append | receive | put | setFail | drop => exact hset hk rfl
  · exact h.aligned k c hk
  · exact h.aligned k c (hf.clones ▸ hk)

theorem Filed.step (h : Filed d s) (hst : Step d s a t) (hr : NoReuse s a) : Filed d t := by
  have hc := h.captures.step hst
  have hal : ∀ (k : Nat) (c : Clone β), t.clones[k]? = some c → ∃ m, c.sect = d.sector m 0 :=
    fun k c hk => step_aligned h hst hk
  rcases step_kinds hst with ⟨sector, sectors, _, _, _, rfl⟩ | ⟨i, w, act, rfl, hw, ht⟩ |
    ⟨k, c, w, act, _, hk, hw, hrd⟩ | ⟨i, rest, content, w, _, _, _, rfl⟩ | ⟨_, hf⟩
  · refine ⟨hc, hal, fun i w hi => ?_⟩
    rcases append_some hi with hi | ⟨rfl, rfl⟩
    · exact ⟨(h.maps i w hi).new, (h.maps i w hi).finds⟩
    · refine ⟨fun hpc => (by cases hpc), fun k c hk htp => ?_⟩
      obtain ⟨v, hv, _⟩ := h.captures.sound.clones k c hk
      have := (List.getElem?_eq_some_iff.mp hv).1
      omega
  · obtain ⟨w', hw', hm⟩ := tracer_maps (h.maps i w hw) h.captures.sound hw ht hr
    exact h.apart hc (tracer_apart h.captures.sound hw ht) hal hw' hm
  · obtain ⟨w', hw', hm⟩ := reader_maps (h.maps c.tp w hw) hk hw hrd
    exact h.apart hc (reader_apart hk hrd) hal hw' hm
  · exact h.quiet hc rfl rfl
  · exact h.quiet hc hf.writes hf.clones

theorem filed_created (b : Nat → β) : Filed d (State.created b) where
  captures := captures_created b
  aligned k c hk := by cases hk
  maps i w hw := by cases hw

/-- A clone is queued with the sector it was created with, relative to the device. -/
theorem Filed.resetSector_eq (h : Filed d s) (hk : s.clones[k]? = some c) (hw : s.writes[c.tp]? = some w)
    (hs : c.stage.sent = true) : resetSector d w c = c.sect - d.sectOff := by
  obtain ⟨m, hm, hsect⟩ := Option.map_eq_some_iff.mp ((h.maps c.tp w hw).finds k c hk rfl (.inl hs))
  rw [resetSector, hm, ← hsect]

end ElastioSnap.Snapshot.Filing
