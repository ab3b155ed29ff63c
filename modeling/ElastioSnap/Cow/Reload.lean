import ElastioSnap.Cow.Index

namespace ElastioSnap.Cow.Reload

open Lib.Bytes Lib.Outcome Lib.Flags Manager FileIo Section Header Lifecycle Mapping Sealing Data
open Start Reopen Index

variable {w w' : World}

/-- A manager made over a file that was sealed before: what the header tells is restored,
and no section is marked as having data. -/
structure Reloaded (elements : UInt64) (w w' : World) : Prop where
  filp : w'.cm.filp = true
  total : w'.cm.totalSects = sectionTotal 12 elements 4096
  sectSize : w'.cm.sectSize = 4096
  dataOffset : w'.cm.dataOffset = 4096 + 32768 * w'.cm.totalSects
  small : 4096 + 32768 * w'.cm.totalSects < 2 ^ 63
  currPos : w'.cm.currPos = (diskHeader w).fpos
  fileMax : w'.cm.fileMax = (diskHeader w).fsize
  seqid : w'.cm.seqid = (diskHeader w).seqid
  uuid : w'.cm.uuid = (diskHeader w).uuid
  version : w'.cm.version = (diskHeader w).version
  changed : w'.cm.nrChangedBlocks = (diskHeader w).nrChangedBlocks
  alive : w'.cm.sects.isSome
  empty : ∀ i, w'.cm.sect i = default
  linked : w'.linked = true
  env : w'.env = w.env
  size : w.file.size ≤ w'.file.size
  bytes : ∀ p, 4096 ≤ p → w'.file.bytes p = w.file.bytes p

theorem cowReload_wp (elements : UInt64) (cacheSize : Nat) (indexOnly : Bool) (hlinked : w.linked = true)
    (hpage : 4096 ≤ w.file.size) (hopens : Opens (diskHeader w) indexOnly) :
    wp (cowReload 12 elements 4096 cacheSize indexOnly) w
      (fun _ w' => Reloaded elements w w')
      (fun _ _ => sectionTotal 12 elements 4096 * 24 ≤ vmallocMax → ¬ w.env.Faultless) := by
  rw [cowReload, wp_bind]
  unfold wp allocManager
  cases hfault : w.env.fault w.clock with
  | some e => exact fun _ h => by simp [h w.clock] at hfault
  | none =>
      dsimp only
      change wp _ _ _ _
      rw [wp_onError, fileOpen]
      simp only [wp_modifyCm]
      rw [wp_bind, wp_bind]
      apply wp_tick
      · rw [wp_bind, wp_get, wp_ite, if_pos (by exact hlinked), wp_modifyCm, wp_bind, wp_modifyCm, wp_bind]
        generalize hu : ({ w with
          cm := layout 12 elements 4096 cacheSize { CowManager.zero with filp := true }
          clock := w.clock + 1 + 1 } : World) = u
        have hufile : u.file = w.file := by rw [← hu]
        have huenv : u.env = w.env := by rw [← hu]
        have hudisk : diskHeader u = diskHeader w := by rw [diskHeader, hufile]; rfl
        apply wp_mono (cowOpenHeader_wp indexOnly true (by rw [← hu]; rfl) (by rw [hufile]; exact hpage))
        · rintro _ v ⟨-, hv, hwrote, -⟩
          rw [hudisk] at hv
          rw [hufile] at hwrote
          apply wp_mono (allocSects_wp _)
          · rintro _ w' ⟨hmem, hw', -⟩
            have hcm : w'.cm = { restore (diskHeader w) true
                (layout 12 elements 4096 cacheSize { CowManager.zero with filp := true }) with
                flags := w'.cm.flags, sects := some fun _ => default } := by
              rw [hw', hv, ← hu]
            have hlen : 4096 + 32768 * sectionTotal 12 elements 4096 < 2 ^ 63 := by
              unfold vmallocMax at hmem
              omega
            have hfile : w'.file = v.file := by rw [hw']
            constructor
            case filp => rw [hcm]; rfl
            case total => rw [hcm]; rfl
            case sectSize => rw [hcm]; rfl
            case dataOffset =>
              rw [hcm]
              simp only [restore, layout, cowHeaderSize]
              omega
            case small => rw [hcm]; exact hlen
            case currPos => rw [hcm]; rfl
            case fileMax => rw [hcm]; rfl
            case seqid => rw [hcm]; rfl
            case uuid => rw [hcm]; rfl
            case version => rw [hcm]; rfl
            case changed => rw [hcm]; rfl
            case alive => rw [hcm]; rfl
            case empty => exact fun i => by rw [hcm]; rfl
            case linked => rw [hw', hv, ← hu]; exact hlinked
            case env => rw [hw', hv]; exact huenv
            case size => rw [hfile]; exact hwrote.size
            case bytes =>
              intro p hp
              rw [hfile]
              exact hwrote.outside p (.inr (by omega))
          · intro e w' he hmem
            have h := he hmem
            rwa [hv, huenv] at h
        · rintro e v (hn | ⟨hn, -⟩) _
          · rwa [← huenv]
          · rw [hudisk] at hn
            exact (hn hopens).elim
      · exact fun e he _ h => by simp [h (w.clock + 1)] at he

theorem step_blank (op : Op) (h : op.Step w w') (hb : Blank w) : Blank w' := by
  cases op with
  | writeMapping pos val => exact h.blank hb
  | writeCurrent block buf =>
      rw [Op.Step] at h
      split at h
      next =>
        obtain ⟨w₁, h₁, hstored⟩ := h
        exact hstored.blank (h₁.blank hb)
      next => exact h.blank hb
  | readMapping _ => exact h.blank hb
  | modifyCacheSize _ => exact h.blank hb
  | closeReopen => exact h.blank hb

theorem steps_blank {ops : List Op} (h : Steps w ops w') (hb : Blank w) : Blank w' := by
  induction ops generalizing w with
  | nil => rwa [show w' = w from h]
  | cons op ops ih =>
      obtain ⟨w₁, hstep, hrest⟩ := h
      exact ih hrest (step_blank op hstep hb)

/-- With no section in memory the file has the index. -/
theorem diskWord_of_unmapped {pos : Nat} (hb : Blank w) (hpos : pos < 4096 * w.cm.totalSects)
    (hm : (w.cm.sect (pos / 4096)).mappings = none) : diskWord w pos = indexAt w pos := by
  rw [indexAt, CowSection.entry, hm]
  cases hd : (w.cm.sect (pos / 4096)).hasData with
  | false => simpa using hb pos hpos hd
  | true => rfl

theorem sealed_disk {fillAhead : Bool} (h : Sealed fillAhead w w') (hb : Blank w) {pos : Nat}
    (hpos : pos < 4096 * w.cm.totalSects) : diskWord w' pos = indexAt w pos := by
  have htotal : w'.cm.totalSects = w.cm.totalSects := by rw [h.cm]
  rw [← h.index pos hpos]
  exact diskWord_of_unmapped (h.blank hb) (by rw [htotal]; exact hpos) (h.unmapped _ (by omega))

inductive Seal
  | syncAndFree
  | syncAndClose

def Seal.run : Seal → CowM Unit
  | .syncAndFree => cowSyncAndFree 12
  | .syncAndClose => cowSyncAndClose 12

theorem seal_ok (how : Seal) (hl : Live w) (h : how.run w = .ok () w') :
    ∃ fillAhead s, Sealed fillAhead w s ∧ w'.file = s.file ∧ w'.linked = true ∧ w'.env = w.env := by
  cases how with
  | syncAndFree =>
      obtain ⟨s, hs, rfl⟩ := wp_ok (cowSyncAndFree_wp hl.wf (.inl hl.filp)) h
      exact ⟨false, s, hs, rfl, hs.linked.trans hl.linked, hs.env⟩
  | syncAndClose =>
      obtain ⟨s, hs, hw'⟩ := wp_ok (cowSyncAndClose_wp hl.wf hl.filp hl.placed) h
      exact ⟨true, s, hs, by rw [hw'], by rw [hw']; exact hs.linked.trans hl.linked,
        by rw [hw']; exact hs.env⟩

/-- What the header carries from a sealed manager to the one that is made from its file. -/
structure Carried (w w' : World) : Prop where
  currPos : w'.cm.currPos = w.cm.currPos
  fileMax : w'.cm.fileMax = w.cm.fileMax
  seqid : w'.cm.seqid = w.cm.seqid
  uuid : w'.cm.uuid = w.cm.uuid
  version : w'.cm.version = w.cm.version
  changed : w'.cm.nrChangedBlocks = w.cm.nrChangedBlocks

/-- A reload after a seal always succeeds, with everything that is in the header and an
index that is empty, whatever the file has. -/
theorem reload_sealed {elements : UInt64} (cacheSize : Nat) (how : Seal) (hl : Live w)
    (htotal : w.cm.totalSects = sectionTotal 12 elements 4096)
    (hmem : w.cm.totalSects * 24 ≤ vmallocMax) (hmode : hasFlag w.cm.flags cowIndexOnly = false)
    (hn : w.env.Faultless) (hseal : how.run w = .ok () w') :
    ∃ v, cowReload 12 elements 4096 cacheSize false w' = .ok () v ∧ Carried w v ∧ Live v ∧
      Refines v (.empty w.cm.currPos) ∧ v.cm.totalSects = w.cm.totalSects ∧ v.env = w.env ∧
      ∀ pos, pos < 4096 * w.cm.totalSects → Blank w → diskWord v pos = indexAt w pos := by
  obtain ⟨fillAhead, s, hs, hfile, hlinked, henv⟩ := seal_ok how hl hseal
  have hdisk : diskHeader w' = headerOf { w.cm with flags := setFlag w.cm.flags cowClean } := by
    rw [diskHeader, hfile]
    refine hs.header.trans ?_
    rw [hs.cm]
    rfl
  have hopens : Opens (diskHeader w') false := by
    rw [hdisk]
    refine ⟨rfl, ?_, ?_⟩
    · simp [headerOf]
    · simp only [headerOf, hasFlag_setFlag, hmode, Bool.false_or]
      decide
  obtain ⟨_, v, hok, hv⟩ := wp_total (wp_mono (cowReload_wp elements cacheSize false hlinked
    (by rw [hfile]; exact hs.page) hopens) (fun _ _ h => h)
    (fun _ _ h => h (by rw [← htotal]; exact hmem) (by rw [henv]; exact hn)))
  have htotal' : v.cm.totalSects = w.cm.totalSects := hv.total.trans htotal.symm
  have hcurr : v.cm.currPos = w.cm.currPos := by rw [hv.currPos, hdisk]; rfl
  have hwf : Wf v := by
    refine ⟨hv.alive, .inl hv.filp, hv.sectSize, hv.dataOffset, hv.small, ?_, ?_⟩
    · intro i m hm
      rw [hv.empty] at hm
      cases hm
    · intro i _ hd
      rw [hv.empty] at hd
      cases hd
  refine ⟨v, hok, ⟨hcurr, ?_, ?_, ?_, ?_, ?_⟩, ⟨hwf, hv.filp, hv.linked, ?_, ?_⟩, ⟨?_, hcurr⟩,
    htotal', hv.env.trans henv, ?_⟩
  · rw [hv.fileMax, hdisk]; rfl
  · rw [hv.seqid, hdisk]; rfl
  · rw [hv.uuid, hdisk]; rfl
  · rw [hv.version, hdisk]; rfl
  · rw [hv.changed, hdisk]; rfl
  · rw [hv.dataOffset, htotal', hcurr, ← hl.wf.dataOffset]
    exact hl.placed.above
  · rw [hcurr]
    exact hl.placed.fits
  · intro pos _
    rw [indexAt, hv.empty]
    rfl
  · intro pos hpos hb
    rw [← sealed_disk hs hb hpos]
    have htotal₂ : s.cm.totalSects = w.cm.totalSects := by rw [hs.cm]
    exact diskWord_congr (by rw [htotal₂]; exact hpos) (fun p hp _ => by rw [hv.bytes p hp, hfile])

def Op.writes (pos : UInt64) : Op → Bool
  | .writeMapping p _ => p == pos
  | .writeCurrent p _ => p == pos
  | _ => false

/-- Every mapping reads as before, and further operations keep those they do not write, in
memory and, once the manager is sealed again, in the file. -/
structure Restores (w w' : World) : Prop extends Carried w w' where
  reads : ∀ pos v u, pos.toNat < 4096 * w.cm.totalSects → cowReadMapping 12 pos w = .ok v u →
    ∃ u', cowReadMapping 12 pos w' = .ok v u'
  writes : ∀ ops outs w₁ w₂ pos v u, (∀ op ∈ ops, op.InRange w.cm.totalSects) →
    runOps ops w' = .ok outs w₁ → cowSyncAndFree 12 w₁ = .ok () w₂ →
    pos.toNat < 4096 * w.cm.totalSects → (∀ op ∈ ops, Op.writes pos op = false) →
    cowReadMapping 12 pos w = .ok v u →
    (∃ u', cowReadMapping 12 pos w₁ = .ok v u') ∧ diskWord w₂ pos.toNat = v

theorem run_entry_unwritten (ops : List Op) (pos : UInt64) (s : Plain)
    (h : ∀ op ∈ ops, Op.writes pos op = false) : (s.run ops).entry pos.toNat = s.entry pos.toNat := by
  induction ops generalizing s with
  | nil => rfl
  | cons op ops ih =>
      rw [Plain.run, ih _ (fun o ho => h o (by simp [ho]))]
      have hop := h op (by simp)
      cases op with
      | writeMapping p val =>
          have hne : pos.toNat ≠ p.toNat := by
            intro heq
            rw [UInt64.toNat_inj.mp heq] at hop
            simp [Op.writes] at hop
          exact Function.update_of_ne hne _ _
      | writeCurrent p buf =>
          have hne : pos.toNat ≠ p.toNat := by
            intro heq
            rw [UInt64.toNat_inj.mp heq] at hop
            simp [Op.writes] at hop
          rw [Plain.step]
          split
          · exact Function.update_of_ne hne _ _
          · rfl
      | _ => rfl

/-- Reading is certain to succeed where no call fails. -/
theorem read_ok (hl : Live w) (hn : w.env.Faultless) {pos : UInt64}
    (hpos : pos.toNat < 4096 * w.cm.totalSects) :
    ∃ u, cowReadMapping 12 pos w = .ok (indexAt w pos.toNat) u := by
  obtain ⟨v, u, hok, rfl, -⟩ := wp_total (wp_mono (cowReadMapping_wp hl.wf hpos) (fun _ _ h => h)
    (fun _ _ h => h.1 hl.filp hn))
  exact ⟨u, hok⟩

theorem restores_of_empty {v : World} (hl : Live w) (hn : w.env.Faultless) (hb : Blank w)
    (hzero : ∀ pos, pos < 4096 * w.cm.totalSects → indexAt w pos = 0) (hc : Carried w v) (hlv : Live v)
    (hrv : Refines v (.empty w.cm.currPos)) (htotal : v.cm.totalSects = w.cm.totalSects)
    (henv : v.env = w.env)
    (hdisk : ∀ pos, pos < 4096 * w.cm.totalSects → Blank w → diskWord v pos = indexAt w pos) :
    Restores w v where
  toCarried := hc
  reads := by
    intro pos x u hpos hread
    obtain ⟨rfl, -⟩ := wp_ok (cowReadMapping_wp hl.wf hpos) hread
    have hpos' : pos.toNat < 4096 * v.cm.totalSects := by rw [htotal]; exact hpos
    obtain ⟨u', hu'⟩ := read_ok hlv (by rw [henv]; exact hn) hpos'
    refine ⟨u', ?_⟩
    rw [hu', hrv.entry _ hpos', hzero _ hpos]
    rfl
  writes := by
    intro ops outs w₁ w₂ pos x u hops hrun hseal hpos hunwritten hread
    obtain ⟨rfl, -⟩ := wp_ok (cowReadMapping_wp hl.wf hpos) hread
    obtain ⟨-, hl₁, hr₁, hfixed, hsteps⟩ := wp_ok (runOps_wp ops hlv hrv
      (fun op hop => by rw [htotal]; exact hops op hop)) hrun
    have hpos₁ : pos.toNat < 4096 * w₁.cm.totalSects := by
      rw [hfixed.totalSects, htotal]
      exact hpos
    have hentry : indexAt w₁ pos.toNat = 0 := by
      rw [hr₁.entry _ hpos₁, run_entry_unwritten ops pos _ hunwritten]
      rfl
    have hbv : Blank v := by
      intro p hp _
      rw [htotal] at hp
      rw [hdisk p hp hb, hzero p hp]
    obtain ⟨s, hs, rfl⟩ := wp_ok (cowSyncAndFree_wp hl₁.wf (.inl hl₁.filp)) hseal
    rw [hzero _ hpos]
    refine ⟨?_, ?_⟩
    · rw [← hentry]
      exact read_ok hl₁ (by rw [hfixed.env, henv]; exact hn) hpos₁
    · rw [← hentry]
      exact sealed_disk hs (steps_blank hsteps hbv) hpos₁

theorem blank_started {elements fileMax seqid : UInt64} {uuid : Fin 16 → UInt8}
    (h : Started elements fileMax seqid uuid w) : Blank w :=
  fun _ _ _ => wordAt_zero (fun p hp _ => h.zero p (by simp only [cowHeaderSize] at hp; omega))

/-- No section is marked when a manager is made from a sealed file, so its index comes back
exactly if there was nothing in it. -/
theorem reload_restores_iff {elements fileMax seqid : UInt64} {cacheSize : Nat} {uuid : Fin 16 → UInt8}
    {w₀ w₁ w₂ : World} {ops : List Op} {outs : List UInt64} (cacheSize' : Nat) (how : Seal)
    (hn : w.env.Faultless)
    (hinit : cowInit 12 elements 4096 cacheSize fileMax uuid seqid w = .ok () w₀)
    (hops : ∀ op ∈ ops, op.InRange w₀.cm.totalSects) (hrun : runOps ops w₀ = .ok outs w₁)
    (hseal : how.run w₁ = .ok () w₂) :
    ∃ w₃, cowReload 12 elements 4096 cacheSize' false w₂ = .ok () w₃ ∧
      (Restores w₁ w₃ ↔ ∀ pos, pos < 4096 * w₀.cm.totalSects →
        ((Plain.empty w₀.cm.currPos).run ops).entry pos = 0) := by
  obtain ⟨hstarted, henv⟩ := wp_ok (cowInit_wp elements fileMax seqid cacheSize uuid) hinit
  obtain ⟨-, hl, hr, hfixed, hsteps⟩ := wp_ok (runOps_wp ops (.of_started hstarted)
    (refines_started hstarted) hops) hrun
  have hb : Blank w₁ := steps_blank hsteps (blank_started hstarted)
  have hn₁ : w₁.env.Faultless := by rw [hfixed.env, henv]; exact hn
  obtain ⟨w₃, hok, hc, hl₃, hr₃, htotal, henv₃, hdisk⟩ := reload_sealed
    cacheSize' how hl (hfixed.totalSects.trans hstarted.total)
    (by rw [hfixed.totalSects]; exact hstarted.memory) (hfixed.mode.trans hstarted.mode) hn₁ hseal
  refine ⟨w₃, hok, ?_⟩
  rw [← hfixed.totalSects]
  constructor
  · intro hrestores pos hpos
    have hlt : pos < 2 ^ 64 := by
      have h := hl.wf.small
      omega
    have heq : (UInt64.ofNat pos).toNat = pos := by
      rw [UInt64.toNat_ofNat']
      exact Nat.mod_eq_of_lt hlt
    have hpos' : (UInt64.ofNat pos).toNat < 4096 * w₁.cm.totalSects := by rw [heq]; exact hpos
    obtain ⟨u, hu⟩ := read_ok hl hn₁ hpos'
    obtain ⟨u', hu'⟩ := hrestores.reads _ _ _ hpos' hu
    obtain ⟨hv, -⟩ := wp_ok (cowReadMapping_wp hl₃.wf (by rw [htotal]; exact hpos')) hu'
    rw [hr₃.entry _ (by rw [htotal]; exact hpos'), heq, hr.entry _ hpos] at hv
    exact hv
  · intro hzero
    exact restores_of_empty hl hn₁ hb (fun pos hpos => by rw [hr.entry _ hpos]; exact hzero pos hpos)
      hc hl₃ hr₃ htotal henv₃ hdisk

/-- A manager with one section on which no call fails, after mappings were written to it and
it was sealed. -/
theorem calm_sealed (ops : List Op) (hrange : ∀ op ∈ ops, op.InRange 1)
    (hcurrent : ops.countP Op.isCurrent = 0) : ∃ w₀ outs w₁ w₂,
    cowInit 12 16 4096 0 1048576 (fun _ => 0) 1 calm = .ok () w₀ ∧ w₀.cm.totalSects = 1 ∧
      runOps ops w₀ = .ok outs w₁ ∧ Seal.syncAndFree.run w₁ = .ok () w₂ := by
  obtain ⟨w₀, hinit, hstarted, henv⟩ := cowInit_total (w := calm) 16 1048576 1 0 (fun _ => 0)
    (by rw [sectionTotal_eq]; decide) (by decide) (by decide) calm_faultless
  have htotal : w₀.cm.totalSects = 1 := by rw [hstarted.total, sectionTotal_eq]; decide
  have hample : Ample w₀ ops := ⟨by omega, by rw [hcurrent]; exact hstarted.roomy⟩
  obtain ⟨outs, w₁, hrun, -, hl, -, hfixed, -⟩ := wp_total (wp_mono (runOps_wp ops
    (.of_started hstarted) (refines_started hstarted) (by rw [htotal]; exact hrange))
    (fun _ _ h => h) (fun _ _ h => h hample (by rw [henv]; exact calm_faultless)))
  obtain ⟨_, w₂, hseal, -⟩ := wp_total (wp_mono (cowSyncAndFree_wp hl.wf (.inl hl.filp))
    (fun _ _ h => h) (fun _ _ h => h hl.filp (by rw [hfixed.env, henv]; exact calm_faultless)))
  exact ⟨w₀, outs, w₁, w₂, hinit, htotal, hrun, hseal⟩

theorem reload_restores_iff_example : ∃ w₀ outs w₁ w₂ w₃,
    cowInit 12 16 4096 0 1048576 (fun _ => 0) 1 calm = .ok () w₀ ∧
      runOps [.writeMapping 5 7, .writeMapping 5 0] w₀ = .ok outs w₁ ∧
      Seal.syncAndFree.run w₁ = .ok () w₂ ∧
      cowReload 12 16 4096 0 false w₂ = .ok () w₃ ∧ Restores w₁ w₃ := by
  obtain ⟨w₀, outs, w₁, w₂, hinit, htotal, hrun, hseal⟩ :=
    calm_sealed [.writeMapping 5 7, .writeMapping 5 0] (by simp [Op.InRange]) rfl
  obtain ⟨w₃, hreload, hiff⟩ := reload_restores_iff 0 .syncAndFree calm_faultless hinit
    (by rw [htotal]; simp [Op.InRange]) hrun hseal
  refine ⟨w₀, outs, w₁, w₂, w₃, hinit, hrun, hseal, hreload, hiff.mpr ?_⟩
  intro pos _
  simp [Plain.run, Plain.step, Plain.empty]

/-- The mapping of one block is lost. -/
theorem reload_loses_mapping : ∃ w₀ outs w₁ w₂ w₃ u₁ u₃,
    cowInit 12 16 4096 0 1048576 (fun _ => 0) 1 calm = .ok () w₀ ∧
      runOps [.writeMapping 5 7] w₀ = .ok outs w₁ ∧ Seal.syncAndFree.run w₁ = .ok () w₂ ∧
      cowReload 12 16 4096 0 false w₂ = .ok () w₃ ∧
      cowReadMapping 12 5 w₁ = .ok 7 u₁ ∧ cowReadMapping 12 5 w₃ = .ok 0 u₃ ∧ ¬ Restores w₁ w₃ := by
  obtain ⟨w₀, outs, w₁, w₂, hinit, htotal, hrun, hseal⟩ :=
    calm_sealed [.writeMapping 5 7] (by simp [Op.InRange]) rfl
  obtain ⟨hstarted, henv⟩ := wp_ok (cowInit_wp 16 1048576 1 0 (fun _ => 0)) hinit
  obtain ⟨-, hl, hr, hfixed, -⟩ := wp_ok (runOps_wp [.writeMapping 5 7] (.of_started hstarted)
    (refines_started hstarted) (by rw [htotal]; simp [Op.InRange])) hrun
  have hn : w₁.env.Faultless := by rw [hfixed.env, henv]; exact calm_faultless
  have hpos : (5 : UInt64).toNat < 4096 * w₁.cm.totalSects := by
    rw [hfixed.totalSects, htotal]
    decide
  obtain ⟨w₃, hreload, -, hl₃, hr₃, htotal₃, henv₃, -⟩ := reload_sealed 0 .syncAndFree hl
    (hfixed.totalSects.trans hstarted.total) (by rw [hfixed.totalSects]; exact hstarted.memory)
    (hfixed.mode.trans hstarted.mode) hn hseal
  obtain ⟨u₁, hu₁⟩ := read_ok hl hn hpos
  obtain ⟨u₃, hu₃⟩ := read_ok hl₃ (by rw [henv₃]; exact hn) (by rw [htotal₃]; exact hpos)
  rw [hr.entry _ hpos] at hu₁
  rw [hr₃.entry _ (by rw [htotal₃]; exact hpos)] at hu₃
  refine ⟨w₀, outs, w₁, w₂, w₃, u₁, u₃, hinit, hrun, hseal, hreload, hu₁, hu₃, ?_⟩
  intro hrestores
  obtain ⟨u, hu⟩ := hrestores.reads 5 _ _ hpos hu₁
  rw [hu₃] at hu
  cases hu

end ElastioSnap.Cow.Reload
