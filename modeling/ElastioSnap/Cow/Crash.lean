import ElastioSnap.Cow.Protocol

namespace ElastioSnap.Cow.Crash

open Lib.Bytes Lib.Outcome Lib.Flags Lib.Runs Manager FileIo Section Cleanup Header Mapping Lifecycle Data Footprint Protocol
open Regions hiding Act Act.run

/-- The machine answers as it did, and an extent that it reports is one of a file. -/
structure Kin (w w' : World) : Prop where
  env : w'.env = w.env
  bounded : Bounded w → Bounded w'

instance : Std.Refl Kin := ⟨fun _ => ⟨rfl, id⟩⟩

instance : Trans Kin Kin Kin := ⟨fun h h' => ⟨h'.env.trans h.env, h'.bounded ∘ h.bounded⟩⟩

variable {ps : Nat} {α : Type} {w w' : World} {last : Option Written} {isClean : Bool}

theorem kin_congr (he : w'.env = w.env) (hx : w'.extents = w.extents) : Kin w w' := ⟨he, fun h => h.congr hx he⟩

theorem kin_of_fixed {x : CowM α} (h : Preserves fixedPart x) : Relates Kin x :=
  h.relates fun w w' hfix => by
    simp only [fixedPart, Prod.mk.injEq] at hfix
    exact kin_congr hfix.2.2.2.2.2.2.1 hfix.2.2.2.2.2.2.2

theorem kin_modifyCm {f : CowManager → CowManager} : Relates Kin (modifyCm f) := fun _ => kin_congr rfl rfl

theorem kin_allocManager : Relates Kin allocManager :=
  fun _ => allocManager_wp (fun _ => kin_congr rfl rfl) fun _ _ => kin_congr rfl rfl

theorem kin_fileCreate : Relates Kin fileCreate :=
  (kin_of_fixed preserves_tick).bind fun _ => relates_modify fun _ => kin_congr rfl rfl

theorem kin_fileOpen : Relates Kin fileOpen :=
  (kin_of_fixed preserves_tick).bind fun _ => relates_get.bind fun _ => kin_modifyCm.ite relates_throw

theorem kin_cowOpenHeader {indexOnly resetVmalloc : Bool} : Relates Kin (cowOpenHeader indexOnly resetVmalloc) :=
  (kin_of_fixed preserves_alloc).bind fun _ => (kin_of_fixed preserves_fileRead).bind fun _ =>
    relates_throw.ite (relates_throw.ite (relates_throw.ite
      (kin_modifyCm.bind fun _ => kin_of_fixed preserves_cowWriteHeader)))

theorem kin_cowFreeMembers : Relates Kin cowFreeMembers := by
  intro w
  unfold wp cowFreeMembers
  cases w.cm.filp <;> exact kin_congr rfl rfl

theorem kin_getCowFileExtents : Relates Kin getCowFileExtents := by
  intro w
  unfold wp getCowFileExtents
  cases w.cm.filp with
  | false => exact kin_congr rfl rfl
  | true =>
      rw [if_pos rfl]
      cases w.env.fault w.clock with
      | some e => exact kin_congr rfl rfl
      | none =>
          dsimp only
          cases (w.env.fiemap w.clock).isEmpty with
          | true => exact kin_congr rfl rfl
          | false =>
              cases (w.env.fault (w.clock + 1)).isSome with
              | true => exact ⟨rfl, fun hb => ⟨fun _ h => (by cases h), hb.found⟩⟩
              | false =>
                  refine ⟨rfl, fun hb => ⟨fun exts h => ?_, hb.found⟩⟩
                  cases h
                  exact hb.found _

theorem kin_cowWriteData {buf : Nat → UInt8} : Relates Kin (cowWriteData ps buf) :=
  relates_get.bind fun _ => relates_throw.ite ((kin_of_fixed preserves_fileWrite).bind fun _ => kin_modifyCm)

theorem allocSects_fixed {total : Nat} : Preserves fixedPart (allocSects total) := allocSects_keeps fun _ _ _ _ => rfl

theorem truncateToIndex_fixed : Preserves fixedPart cowTruncateToIndex :=
  (preserves_modifyCm fun _ => rfl).bind fun _ => preserves_tick.bind fun _ => preserves_modify fun _ => rfl

theorem kin_run (ps : Nat) (a : Act) : Relates Kin (a.run ps) := by
  cases a with
  | init elements fileMax seqid cacheSize uuid =>
      refine kin_allocManager.bind fun _ => Relates.onError (kin_fileCreate.bind fun _ => kin_modifyCm.bind fun _ =>
        kin_of_fixed ?_) (relates_modify fun _ => kin_congr rfl rfl)
      exact allocSects_fixed.bind fun _ => preserves_fileAllocate.bind fun _ => preserves_cowWriteHeader
  | reload elements cacheSize indexOnly =>
      exact kin_allocManager.bind fun _ => Relates.onError (kin_fileOpen.bind fun _ => kin_modifyCm.bind fun _ =>
        kin_cowOpenHeader.bind fun _ => kin_of_fixed allocSects_fixed) kin_modifyCm
  | reopen =>
      exact (kin_fileOpen.bind fun _ => relates_get.bind fun _ => kin_cowOpenHeader).onError kin_modifyCm
  | readMapping pos => exact kin_of_fixed (preserves_cowReadMapping.bind fun _ => preserves_pure)
  | writeMapping pos val => exact kin_of_fixed preserves_cowWriteMapping
  | writeCurrent block buf =>
      exact (kin_of_fixed preserves_cowReadMapping).bind fun _ => relates_pure.ite
        ((kin_of_fixed preserves_cowWriteCurrentMapping).bind fun _ => kin_cowWriteData)
  | modifyCacheSize cacheSize => exact fun _ => kin_congr rfl rfl
  | truncateToIndex => exact kin_of_fixed truncateToIndex_fixed
  | syncAndClose =>
      exact ((kin_of_fixed preserves_cowSyncAndFreeSections).bind fun _ => (kin_of_fixed preserves_cowWriteHeader).bind
        fun _ => kin_getCowFileExtents.bind fun _ => kin_modifyCm).onError kin_cowFreeMembers
  | syncAndFree =>
      exact ((kin_of_fixed preserves_cowSyncAndFreeSections).bind fun _ => (kin_of_fixed preserves_cowWriteHeader).bind
        fun _ => kin_modifyCm).onError kin_cowFreeMembers

theorem freeMembers_none (w : World) :
    wp cowFreeMembers w (fun _ w' => w'.cm.sects = none) (fun _ w' => w'.cm.sects = none) := by
  unfold wp cowFreeMembers
  cases w.cm.filp <;> rfl

/-- A block is stored below the end of the longest file, which is at a block. -/
theorem cowWriteData_able {buf : Nat → UInt8} (h12 : 12 ≤ ps) (h16 : ps ≤ 16) (hb : Bounded w) (ha : Able ps w.cm) :
    wp (cowWriteData ps buf) w (fun _ w' => Able ps w'.cm) (fun _ w' => Able ps w'.cm) := by
  rw [cowWriteData, wp_bind, wp_get, wp_ite]
  split
  · exact ha
  · rw [wp_bind]
    refine wp_mono (wp_and (fileWrite_below h12 hb) (preserves_fileWrite (g := fixedPart) w)) ?_ fun _ _ h => ha.fixed h.2
    rintro _ w₁ ⟨⟨hfix, hlt⟩, _⟩
    rw [wp_modifyCm]
    have h₁ := ha.fixed hfix
    simp only [fixedPart, Prod.mk.injEq] at hfix
    have hhigh := ha.high
    have hlow := h₁.low
    have hlow' := ha.low
    rw [cowBlockSize, Nat.mod_eq_of_lt (by omega)] at hlt
    have hpow : 2 ^ 12 ≤ 2 ^ ps := Nat.pow_le_pow_right (by decide) h12
    have hsmall : w.cm.currPos.toNat * 2 ^ 12 < 2 ^ 63 := (Nat.mul_le_mul_left _ hpow).trans_lt hlt
    have hnext : (w₁.cm.currPos + 1).toNat = w.cm.currPos.toNat + 1 := by
      rw [hfix.2.1]
      exact toNat_succ (by omega)
    refine ⟨⟨?_, ?_⟩, h₁.data⟩
    · change 4096 ≤ (w₁.cm.currPos + 1).toNat * 2 ^ ps
      rw [hnext, Nat.add_mul]
      omega
    · change (w₁.cm.currPos + 1).toNat * 2 ^ ps ≤ 2 ^ 63
      rw [hnext]
      have hend : 2 ^ 63 = 2 ^ (63 - ps) * 2 ^ ps := by
        rw [← Nat.pow_add]
        congr 1
        omega
      rw [hend] at hlt ⊢
      exact Nat.mul_le_mul_right _ (Nat.lt_of_mul_lt_mul_right hlt)

theorem able_of_fixed {x : CowM α} (h : Preserves fixedPart x) (ha : Able ps w.cm) :
    wp x w (fun _ w' => Able ps w'.cm) (fun _ w' => Able ps w'.cm) :=
  wp_mono (h w) (fun _ _ hfix => ha.fixed hfix) fun _ _ hfix => ha.fixed hfix

/-- What is not a header write to the file leaves the manager able. -/
theorem plain_able {a : Act} (hx : a.beforeHeader ps = none) (h12 : 12 ≤ ps) (h16 : ps ≤ 16) (hb : Bounded w)
    (ha : Able ps w.cm) : wp (a.run ps) w (fun _ w' => Able ps w'.cm) (fun _ w' => Able ps w'.cm) := by
  cases a with
  | init | reload | reopen | syncAndClose | syncAndFree => cases hx
  | readMapping pos => exact able_of_fixed (preserves_cowReadMapping.bind fun _ => preserves_pure) ha
  | writeMapping pos val => exact able_of_fixed preserves_cowWriteMapping ha
  | modifyCacheSize cacheSize => exact ⟨ha.toReady.congr rfl, ha.data⟩
  | truncateToIndex => exact able_of_fixed truncateToIndex_fixed ha
  | writeCurrent block buf =>
      rw [Act.run, cowWriteCurrent, wp_bind]
      refine wp_mono (preserves_cowReadMapping (g := fixedPart) w) ?_ fun _ _ h => ha.fixed h
      intro v w₁ h₁
      rw [wp_ite]
      split
      · exact ha.fixed h₁
      · rw [wp_bind]
        refine wp_mono (preserves_cowWriteCurrentMapping (g := fixedPart) w₁) ?_ fun _ _ h => ha.fixed (h.trans h₁)
        intro _ w₂ h₂
        have hfix := h₂.trans h₁
        exact cowWriteData_able h12 h16 (bounded_of_fixed hb hfix) (ha.fixed hfix)

/-- A header is opened only if it was written, and gives back a position that was written with it. -/
theorem openHeader_able {indexOnly resetVmalloc : Bool} (hf : w.cm.filp = true) (hd : 4096 ≤ w.cm.dataOffset)
    (hh : Headed ps w.file last) :
    wp (cowOpenHeader indexOnly resetVmalloc) w (fun _ w' => Able ps w'.cm ∧ last ≠ none)
      (fun _ w' => w'.cm = w.cm ∨ Able ps w'.cm) := by
  rw [cowOpenHeader_eq, wp_bind]
  refine wp_mono (wp_and (check_before hf rfl rfl hd hh) (cowCheckHeader_wp hf hh)) ?_ ?_
  · intro _ w₁ ⟨⟨hb, hl⟩, _⟩
    exact wp_mono (able_of_fixed preserves_cowWriteHeader hb.able) (fun _ _ h => ⟨h, hl⟩) fun _ _ h => .inr h
  · intro _ w₁ ⟨_, hw, _⟩
    left
    rw [hw]

theorem reload_lives {elements : UInt64} {cacheSize : Nat} {indexOnly : Bool} (h12 : 12 ≤ ps) (h16 : ps ≤ 16)
    (hh : Headed ps w.file last) (hn : w.cm.sects = none) :
    wp (cowReload ps elements (cowSectionSize ps) cacheSize indexOnly) w
      (fun _ w' => Able ps w'.cm ∧ last ≠ none) (fun _ w' => w'.cm.sects = none) := by
  rw [cowReload, wp_bind]
  refine allocManager_wp (fun _ => ?_) fun _ _ => hn
  refine wp_onError_any ?_ fun _ => rfl
  rw [wp_bind]
  refine wp_mono (fileOpen_wp (E := fun _ _ => True) fun _ _ _ => trivial) ?_ fun _ _ h => h
  rintro _ w₁ rfl
  rw [wp_bind, wp_modifyCm, wp_bind]
  refine wp_mono (openHeader_able rfl (layout_data elements cacheSize _ h12 h16) hh) ?_ fun _ _ _ => trivial
  rintro _ w₂ ⟨ha, hl⟩
  exact wp_mono (able_of_fixed allocSects_fixed ha) (fun _ _ h => ⟨h, hl⟩) fun _ _ _ => trivial

theorem reopen_able (hh : Headed ps w.file last) (ha : Able ps w.cm) :
    wp cowReopen w (fun _ w' => Able ps w'.cm) (fun _ w' => Able ps w'.cm) := by
  have hclose : ∀ {cm cm' : CowManager}, Able ps cm → cm'.currPos = cm.currPos → cm'.dataOffset = cm.dataOffset →
      Able ps cm' := fun h hc hd => ⟨h.toReady.congr hc, hd ▸ h.data⟩
  rw [cowReopen, wp_onError, wp_bind]
  refine wp_mono (wp_and (fileOpen_wp (E := fun _ _ => True) fun _ _ _ => trivial)
    (Preserves.bind (g := fun w => (w.cm.currPos, w.cm.dataOffset)) ((preserves_tick (g := fixedPart)).comp fun g => (g.2.1, g.2.2.1))
      (fun _ => preserves_get.bind fun _ => (preserves_modifyCm fun _ => rfl).ite preserves_throw) w)) ?_ ?_
  · rintro _ w₁ ⟨rfl, _⟩
    rw [wp_bind, wp_get]
    refine wp_mono (openHeader_able rfl ha.data hh) (fun _ _ h => h.1) fun _ w₂ h₂ => ?_
    rcases h₂ with hcm | h₂
    · change Able ps (fileClose w₂.cm)
      rw [hcm]
      exact hclose ha rfl rfl
    · exact hclose h₂ rfl rfl
  · rintro _ w₁ ⟨_, hkeep⟩
    simp only [Prod.mk.injEq] at hkeep
    exact hclose ha hkeep.1 hkeep.2

theorem syncAndClose_able (ha : Able ps w.cm) :
    wp (cowSyncAndClose ps) w (fun _ w' => Able ps w'.cm) (fun _ w' => w'.cm.sects = none) := by
  refine wp_onError_any ?_ freeMembers_none
  rw [wp_bind]
  refine wp_mono (preserves_cowSyncAndFreeSections (g := fixedPart) w) ?_ fun _ _ _ => trivial
  intro _ w₁ h₁
  rw [wp_bind]
  refine wp_mono (preserves_cowWriteHeader (g := fixedPart) w₁) ?_ fun _ _ _ => trivial
  intro _ w₂ h₂
  have ha₂ := ha.fixed (h₂.trans h₁)
  rw [wp_bind]
  refine wp_mono (getCowFileExtents_keeps (g := World.cm) (fun _ _ _ => rfl) w₂) ?_ fun _ _ _ => trivial
  intro _ w₃ h₃
  rw [wp_modifyCm, h₃]
  exact ⟨ha₂.toReady.congr rfl, ha₂.data⟩

theorem syncAndFree_none :
    wp (cowSyncAndFree ps) w (fun _ w' => w'.cm.sects = none) (fun _ w' => w'.cm.sects = none) := by
  refine wp_onError_any ?_ freeMembers_none
  rw [wp_bind]
  refine wp_mono wp_true ?_ fun _ _ _ => trivial
  intro _ w₁ _
  rw [wp_bind]
  exact wp_mono wp_true (fun _ _ _ => rfl) fun _ _ _ => trivial

theorem init_lives {elements fileMax seqid : UInt64} {cacheSize : Nat} {uuid : Fin 16 → UInt8} (h12 : 12 ≤ ps)
    (h16 : ps ≤ 16) (hpos : 0 < elements.toNat) (hmax : elements.toNat * 2 ^ ps < 2 ^ 63) (hn : w.cm.sects = none) :
    wp (cowInit ps elements (cowSectionSize ps) cacheSize fileMax uuid seqid) w (fun _ w' => Able ps w'.cm)
      (fun _ w' => w'.cm.sects = none) := by
  rw [cowInit, wp_bind]
  refine allocManager_wp (fun _ => ?_) fun _ _ => hn
  refine wp_onError_any ?_ fun _ => rfl
  rw [fileCreate, wp_bind, wp_bind]
  refine wp_tick ?_ fun _ _ => trivial
  rw [wp_modify, wp_bind, wp_modifyCm]
  refine wp_mono (able_of_fixed ?_ ?_) (fun _ _ h => h) fun _ _ _ => trivial
  · exact allocSects_fixed.bind fun _ => preserves_fileAllocate.bind fun _ => preserves_cowWriteHeader
  · exact ⟨ready_fresh h12 h16 hpos hmax, layout_data elements cacheSize { CowManager.zero with filp := true } h12 h16⟩

/-- An action that returns has written its header. -/
theorem header_of_run {a : Act} {x : CowM Unit} (hx : a.beforeHeader ps = some (isClean, x))
    (hok : a.run ps w = .ok () w') : ∃ v, (do x; cowWriteHeader isClean) w = .ok () v := by
  have hfirst : ∀ {x y : CowM Unit} {u : World}, (do x; y) u = .ok () w' → ∃ v, x u = .ok () v := by
    intro x y u h
    obtain ⟨_, v, hv, _⟩ := bind_ok.mp h
    exact ⟨v, hv⟩
  cases a with
  | init elements fileMax seqid cacheSize uuid =>
      obtain ⟨_, w₁, h₁, hrest⟩ := bind_ok.mp hok
      have hrest := onError_ok hrest
      cases hx
      simp only [bind_assoc]
      exact ⟨w', bind_ok.mpr ⟨_, w₁, h₁, hrest⟩⟩
  | reload elements cacheSize indexOnly =>
      obtain ⟨_, w₁, h₁, hrest⟩ := bind_ok.mp hok
      have hrest := onError_ok hrest
      cases hx
      have hopen : ∃ v, (do
          fileOpen
          modifyCm (layout ps elements (cowSectionSize ps) cacheSize)
          cowCheckHeader indexOnly true
          cowWriteHeader false : CowM Unit) w₁ = .ok () v := by
        refine hfirst (y := allocSects (sectionTotal ps elements (cowSectionSize ps))) ?_
        simp only [cowOpenHeader_eq, bind_assoc] at hrest ⊢
        exact hrest
      obtain ⟨v, hv⟩ := hopen
      simp only [bind_assoc]
      exact ⟨v, bind_ok.mpr ⟨_, w₁, h₁, hv⟩⟩
  | reopen =>
      rw [Act.run, cowReopen] at hok
      have hrest := onError_ok hok
      cases hx
      simp only [cowOpenHeader_eq] at hrest
      simp only [bind_assoc]
      exact ⟨w', hrest⟩
  | syncAndClose =>
      rw [Act.run, cowSyncAndClose] at hok
      have hrest := onError_ok hok
      cases hx
      refine hfirst (y := do getCowFileExtents; modifyCm fileClose) ?_
      simp only [bind_assoc]
      exact hrest
  | syncAndFree =>
      rw [Act.run, cowSyncAndFree] at hok
      have hrest := onError_ok hok
      cases hx
      refine hfirst (y := modifyCm fun cm => { fileClose cm with sects := none }) ?_
      simp only [bind_assoc]
      exact hrest
  | readMapping | writeMapping | writeCurrent | modifyCacheSize | truncateToIndex => cases hx

/-- The last header of a file is that of the last action that returned and writes one. -/
theorem act_completed {a : Act} {x : CowM Unit} (hx : a.beforeHeader ps = some (isClean, x)) (h12 : 12 ≤ ps)
    (h16 : ps ≤ 16) (hsized : Sized ps (.act a)) (he : a.enabled w = true)
    (hh : Headed ps w.file last) (hl : w.cm.sects.isSome = true → Able ps w.cm ∧ last ≠ none)
    (hok : a.run ps w = .ok () w') : ∃ m, lastAfter ps a w last = some m ∧ m.isClean = isClean := by
  obtain ⟨w₂, hboth⟩ := header_of_run hx hok
  obtain ⟨_, w₁, hbefore, hheader⟩ := bind_ok.mp hboth
  have hb := wp_ok (before_wp hx h12 h16 hsized he hh hl) hbefore
  have hholds := wp_ok (cowWriteHeader_holds hb.held) hheader
  have hcompleted : completed ps a w = some (written isClean w₁.cm) := by
    rw [completed, hx]
    dsimp only
    rw [hbefore]
    dsimp only
    rw [hheader]
    exact if_pos hholds
  exact ⟨_, by rw [lastAfter, hcompleted, Option.some_or], rfl⟩

theorem lastAfter_ne {a : Act} (hl : last ≠ none) (he : emptied a w = false) : lastAfter ps a w last ≠ none := by
  rw [lastAfter, he, if_neg Bool.false_ne_true]
  cases completed ps a w with
  | none => exact hl
  | some m => exact Option.some_ne_none m

/-- Where a failure leaves no manager, one that is left says that there was none. -/
theorem left_live {x : CowM Unit} {P : World → Prop} (h : wp x w (fun _ => P) (fun _ w' => w'.cm.sects = none))
    (hs : (left (x w)).cm.sects.isSome = true) : ∃ w', x w = .ok () w' ∧ P w' ∧ left (x w) = w' := by
  unfold wp at h
  rw [left.eq_def] at hs ⊢
  cases hx : x w with
  | ok _ w' =>
      rw [hx] at h
      exact ⟨w', rfl, h, rfl⟩
  | error e w' =>
      rw [hx] at h hs
      dsimp only at h hs
      rw [h] at hs
      cases hs

/-- A device that has a manager has a header in its file, and goes on above it. -/
theorem act_live {a : Act} (h12 : 12 ≤ ps) (h16 : ps ≤ 16) (hb : Bounded w)
    (hsized : Sized ps (.act a)) (he : a.enabled w = true) (hh : Headed ps w.file last)
    (hl : w.cm.sects.isSome = true → Able ps w.cm ∧ last ≠ none)
    (hs : (left (a.run ps w)).cm.sects.isSome = true) :
    Able ps (left (a.run ps w)).cm ∧ lastAfter ps a w last ≠ none := by
  cases a with
  | init elements fileMax seqid cacheSize uuid =>
      obtain ⟨w', hok, ha, hw⟩ := left_live (init_lives h12 h16 hsized.1 hsized.2 (Option.isNone_iff_eq_none.mp he)) hs
      obtain ⟨m, hm, _⟩ := act_completed (a := .init elements fileMax seqid cacheSize uuid) rfl h12 h16 hsized he
        hh hl hok
      refine ⟨hw ▸ ha, ?_⟩
      rw [hm]
      exact Option.some_ne_none m
  | reload elements cacheSize indexOnly =>
      obtain ⟨w', _, ⟨ha, hlast⟩, hw⟩ := left_live (reload_lives h12 h16 hh (Option.isNone_iff_eq_none.mp he)) hs
      exact ⟨hw ▸ ha, lastAfter_ne hlast rfl⟩
  | reopen =>
      obtain ⟨ha, hlast⟩ := hl (Bool.and_eq_true_iff.mp he).1
      exact ⟨wp_left (P := fun v => Able ps v.cm) (reopen_able hh ha), lastAfter_ne hlast rfl⟩
  | syncAndClose =>
      obtain ⟨ha, hlast⟩ := hl (Bool.and_eq_true_iff.mp he).1
      obtain ⟨w', _, ha', hw⟩ := left_live (syncAndClose_able ha) hs
      exact ⟨hw ▸ ha', lastAfter_ne hlast rfl⟩
  | syncAndFree =>
      have hnone : (left (Act.syncAndFree.run ps w)).cm.sects = none :=
        wp_left (P := fun v => v.cm.sects = none) syncAndFree_none
      rw [hnone] at hs
      cases hs
  | truncateToIndex =>
      obtain ⟨ha, hlast⟩ := hl (Bool.and_eq_true_iff.mp he).1
      exact ⟨wp_left (P := fun v => Able ps v.cm) (plain_able rfl h12 h16 hb ha), lastAfter_ne hlast rfl⟩
  | readMapping | writeMapping | writeCurrent | modifyCacheSize =>
      obtain ⟨ha, hlast⟩ := hl he
      exact ⟨wp_left (P := fun v => Able ps v.cm) (plain_able rfl h12 h16 hb ha), lastAfter_ne hlast rfl⟩

/-- What is kept by actions and by crashes: the file has the last header that was written as a whole. -/
structure Inv (ps : Nat) (s : State) : Prop where
  bounded : Bounded s.world
  headed : Headed ps s.world.file s.last
  live : s.world.cm.sects.isSome = true → Able ps s.world.cm ∧ s.last ≠ none

variable {s t : State} {ev : Event}

theorem inv_start {env : Env} (hfound : ∀ n, Within (env.fiemap n)) : Inv ps (.start env) where
  bounded := ⟨fun _ h => (by cases h), hfound⟩
  headed := Vacant.unclean fun _ _ => rfl
  live := fun h => by cases h

theorem inv_act (h : Inv ps s) (a : Act) (h12 : 12 ≤ ps) (h16 : ps ≤ 16) (hsized : Sized ps (.act a))
    (hwhole : Untorn ps a s.world) (he : a.enabled s.world = true) :
    Inv ps ⟨left (a.run ps s.world), lastAfter ps a s.world s.last⟩ := by
  have hkin := wp_left (P := Kin s.world) (kin_run ps a s.world)
  refine ⟨hkin.bounded h.bounded, ?_, ?_⟩
  · exact act_headed a h12 h16 hwhole hsized he h.headed h.live
  · exact act_live h12 h16 h.bounded hsized he h.headed h.live

/-- Until it stops a machine does what it would have done. -/
theorem inv_stopAt (h : Inv ps s) (n : Nat) : Inv ps ⟨stopAt s.world n, s.last⟩ where
  bounded := ⟨h.bounded.kept, h.bounded.found⟩
  headed := h.headed
  live := h.live

theorem inv_step (h : Inv ps s) (h12 : 12 ≤ ps) (h16 : ps ≤ 16) (hsized : Sized ps ev) (hwhole : Whole ps s ev)
    (hs : step ps s ev = some t) : Inv ps t := by
  cases ev with
  | act a =>
      rw [step] at hs
      split at hs
      next he =>
        cases hs
        exact inv_act h a h12 h16 hsized hwhole he
      next => cases hs
  | crash a n =>
      rw [step] at hs
      split at hs
      next he =>
        cases hs
        have hstop := inv_act (inv_stopAt h n) a h12 h16 (by cases a <;> exact hsized) hwhole (by cases a <;> exact he)
        exact ⟨⟨fun _ hx => (by cases hx), h.bounded.found⟩, hstop.headed, fun hsome => (by cases hsome)⟩
      next => cases hs

theorem inv_reach {env : Env} (h12 : 12 ≤ ps) (h16 : ps ≤ 16) (hfound : ∀ n, Within (env.fiemap n))
    (hr : Reach (step ps) (fun s e => Sized ps e ∧ Whole ps s e) (.start env) s) : Inv ps s :=
  hr.invariant (inv_start hfound) fun _ _ _ h hc hstep => inv_step h h12 h16 hc.1 hc.2 hstep

/-- The last complete header write of a file was a close in the mode asked for. -/
def Closed (indexOnly : Bool) (last : Option Written) : Prop :=
  ∃ m, last = some m ∧ m.isClean = true ∧ hasFlag m.cm.flags cowIndexOnly = indexOnly

/-- The manager that is opened from a header. -/
def opened (m : Written) (resetVmalloc : Bool) (cm : CowManager) : CowManager :=
  { cm with
    flags := clearFlag (if resetVmalloc then clearFlag m.cm.flags cowVmallocUpper else m.cm.flags) cowClean
    currPos := m.cm.currPos
    fileMax := m.cm.fileMax
    seqid := m.cm.seqid
    uuid := m.cm.uuid
    version := m.cm.version
    nrChangedBlocks := m.cm.nrChangedBlocks }

theorem opened_restore {resetVmalloc : Bool} {m : Written} {cm : CowManager} :
    written false (restore (headerOf m.cm) resetVmalloc cm) = ⟨false, opened m resetVmalloc cm⟩ := rfl

/-- An open that is refused, or that fails before its own header is in the file, leaves the file as it was. -/
theorem cowOpenHeader_opens {v : World} (indexOnly resetVmalloc : Bool) (hf : v.cm.filp = true)
    (hh : Headed ps v.file last) :
    wp (cowOpenHeader indexOnly resetVmalloc) v
      (fun _ v' => ∃ m, last = some m ∧ m.isClean = true ∧ hasFlag m.cm.flags cowIndexOnly = indexOnly ∧
        v'.cm = opened m resetVmalloc v.cm ∧ Holds ⟨false, v'.cm⟩ v'.file ∧
        (∀ p, 4096 ≤ p → v'.file.bytes p = v.file.bytes p) ∧ Headed ps v'.file (some ⟨false, v'.cm⟩))
      (fun _ v' => (v.env.Faultless → ¬ Closed indexOnly last) ∧ (v'.file = v.file ∨ Closed indexOnly last ∧
        ∃ cm, Headed ps v'.file (some ⟨false, cm⟩))) := by
  rw [cowOpenHeader_eq, wp_bind]
  refine wp_mono (cowCheckHeader_wp hf hh) ?_ ?_
  · rintro _ v₁ ⟨⟨m, hlast, hclean, hmode, hcm⟩, hv⟩
    subst hlast
    have hf₁ : v₁.cm.filp = true := by
      rw [hcm]
      exact hf
    have henv₁ : v₁.env = v.env := by rw [hv]
    have hfile₁ : v₁.file = v.file := by rw [hv]
    have hready : Ready ps v₁.cm := by
      rw [hcm]
      exact hh.2.2.congr rfl
    have hwritten : written false v₁.cm = ⟨false, opened m resetVmalloc v.cm⟩ := by
      rw [hcm]
      exact opened_restore
    refine wp_mono (wp_and (cowWriteHeader_wp false (.inl hf₁)) (cowWriteHeader_open hf₁)) ?_ ?_
    · rintro _ v' ⟨⟨hv', hwrote, _, _⟩, hholds⟩
      have hopened : (⟨false, v'.cm⟩ : Written) = ⟨false, opened m resetVmalloc v.cm⟩ := by
        rw [← hwritten, hv']
        rfl
      have hheaded := headed_written hholds hready
      rw [hwritten, ← hopened] at hholds hheaded
      refine ⟨m, rfl, hclean, hmode, congrArg Written.cm hopened, hholds, fun p hp => ?_, hheaded⟩
      rw [hwrote.outside p (.inr hp), hfile₁]
    · rintro e v' ⟨⟨hex, _⟩, k, hk, hfile, _⟩
      constructor
      · intro hn
        rw [Excused, henv₁] at hex
        exact absurd hn (hex hf₁)
      · have hr : Renews (some m) v₁.cm := by
          rw [hcm]
          exact renews_restore
        have hholds₁ : Holds m v₁.file := hfile₁ ▸ hh.1
        rcases hr.whole hholds₁ hk with hsame | hholds
        · exact .inl (hfile.trans (hsame.trans hfile₁))
        · exact .inr ⟨⟨m, rfl, hclean, hmode⟩, _, headed_written (hfile ▸ hholds) hready⟩
  · rintro e v' ⟨hv, hrefused⟩
    exact ⟨hrefused, .inl (by rw [hv])⟩

/-- A dirty header is not opened by any manager. -/
theorem cowOpenHeader_dirty {m : Written} (indexOnly resetVmalloc : Bool) (hm : m.isClean = false)
    (hf : w.cm.filp = true) (hh : Headed ps w.file (some m)) :
    wp (cowOpenHeader indexOnly resetVmalloc) w (fun _ _ => False) (fun _ w' => w'.file = w.file) := by
  rw [cowOpenHeader_eq, wp_bind]
  refine wp_mono (cowCheckHeader_wp hf hh) ?_ ?_
  · rintro _ _ ⟨⟨m', hm', hclean, _⟩, _⟩
    cases hm'
    rw [hm] at hclean
    cases hclean
  · rintro _ w' ⟨hw, _⟩
    rw [hw]

theorem dirty_refused {cm : CowManager} (indexOnly resetVmalloc : Bool) (hf : w.cm.filp = true)
    (hh : Headed ps w.file (some ⟨false, cm⟩)) :
    ∃ e w', cowOpenHeader indexOnly resetVmalloc w = .error e w' ∧ w'.file = w.file := by
  have hrefused := cowOpenHeader_dirty indexOnly resetVmalloc rfl hf hh
  cases hres : cowOpenHeader indexOnly resetVmalloc w with
  | ok _ w' => exact (wp_ok hrefused hres).elim
  | error e w' =>
      have hsame := wp_error hrefused hres
      exact ⟨e, w', rfl, hsame⟩

theorem open_header_protocol (h12 : 12 ≤ ps) (h16 : ps ≤ 16) {env : Env} (hfound : ∀ n, Within (env.fiemap n))
    (hr : Reach (step ps) (fun s e => Sized ps e ∧ Whole ps s e) (.start env) s) {v : World}
    (hfile : v.file = s.world.file) (hf : v.cm.filp = true) (indexOnly resetVmalloc : Bool) :
    (v.env.Faultless → ((∃ v', cowOpenHeader indexOnly resetVmalloc v = .ok () v') ↔ Closed indexOnly s.last)) ∧
    (∀ v', cowOpenHeader indexOnly resetVmalloc v = .ok () v' →
      ∃ m, s.last = some m ∧ m.isClean = true ∧ hasFlag m.cm.flags cowIndexOnly = indexOnly ∧
        v'.cm = opened m resetVmalloc v.cm ∧ Holds ⟨false, v'.cm⟩ v'.file ∧
        (∀ p, 4096 ≤ p → v'.file.bytes p = v.file.bytes p) ∧
        ∀ u : World, u.file = v'.file → u.cm.filp = true → ∀ indexOnly' resetVmalloc',
          ∃ e u', cowOpenHeader indexOnly' resetVmalloc' u = .error e u' ∧ u'.file = u.file) ∧
    ∀ e v', cowOpenHeader indexOnly resetVmalloc v = .error e v' → v'.file = v.file ∨ Closed indexOnly s.last ∧
      ∀ u : World, u.file = v'.file → u.cm.filp = true → ∀ indexOnly' resetVmalloc',
        ∃ e' u', cowOpenHeader indexOnly' resetVmalloc' u = .error e' u' ∧ u'.file = u.file := by
  have hh := (inv_reach h12 h16 hfound hr).headed
  rw [← hfile] at hh
  have hspec := cowOpenHeader_opens indexOnly resetVmalloc hf hh
  refine ⟨fun hn => ⟨?_, ?_⟩, fun v' hok => ?_, fun e v' herr => ?_⟩
  · rintro ⟨v', hok⟩
    obtain ⟨m, hlast, hclean, hmode, _⟩ := wp_ok hspec hok
    exact ⟨m, hlast, hclean, hmode⟩
  · intro hclosed
    cases hres : cowOpenHeader indexOnly resetVmalloc v with
    | ok _ v' => exact ⟨v', rfl⟩
    | error e v' => exact absurd hclosed ((wp_error hspec hres).1 hn)
  · obtain ⟨m, hlast, hclean, hmode, hcm, hholds, hrest, hdirty⟩ := wp_ok hspec hok
    exact ⟨m, hlast, hclean, hmode, hcm, hholds, hrest, fun u hu hfu indexOnly' resetVmalloc' =>
      dirty_refused indexOnly' resetVmalloc' hfu (hu ▸ hdirty)⟩
  · refine (wp_error hspec herr).2.imp_right fun ⟨hclosed, cm, hdirty⟩ => ⟨hclosed, ?_⟩
    exact fun u hu hfu indexOnly' resetVmalloc' => dirty_refused indexOnly' resetVmalloc' hfu (hu ▸ hdirty)

theorem untorn_of_atomic {a : Act} (h : Inv ps s) (h12 : 12 ≤ ps) (h16 : ps ≤ 16) (hat : Atomic s.world.env)
    (hsized : Sized ps (.act a)) (he : a.enabled s.world = true) : Untorn ps a s.world := by
  intro x w₁ hx hok
  have hb := wp_ok (before_wp hx h12 h16 hsized he h.headed h.live) hok
  exact header_atomic (hb.env.symm ▸ hat) hb.held

/-- A file for sixteen blocks. -/
def make : Act := .init 16 1000000 1 1000000 fun _ => 0

def store : Act := .writeCurrent 5 fun _ => 7

def returned (r : EStateM.Result Err World Unit) : Bool :=
  match r with
  | .ok _ _ => true
  | .error _ _ => false

theorem run_returned {r : EStateM.Result Err World Unit} (h : returned r = true) : r = .ok () (left r) := by
  cases r with
  | ok _ w => rfl
  | error e w => cases h

def after (s : State) (a : Act) : State := ⟨left (a.run 12 s.world), lastAfter 12 a s.world s.last⟩

/-- A file with one block of data, which has not been closed. -/
def stored (env : Env) : State := after (after (.start env) make) store

theorem step_after {a : Act} (he : a.enabled s.world = true) : step 12 s (.act a) = some (after s a) := if_pos he

theorem stored_reach {env : Env} (he : store.enabled (after (.start env) make).world = true) :
    Reach (step 12) (fun s e => Sized 12 e ∧ Whole 12 s e) (.start env) (stored env) := by
  have hmake : Sized 12 (.act make) ∧ Whole 12 (.start env) (.act make) :=
    ⟨by constructor <;> decide, fun _ _ hx => by cases hx⟩
  have hstore : Sized 12 (.act store) ∧ Whole 12 (after (.start env) make) (.act store) :=
    ⟨trivial, fun _ _ hx => by cases hx⟩
  have hmade : Reach (step 12) (fun s e => Sized 12 e ∧ Whole 12 s e) (.start env) (after (.start env) make) :=
    Reach.init.next hmake (step_after rfl)
  exact hmade.next hstore (step_after he)

/-- The header of the new file is dirty, and storing a block does not write it again. -/
theorem stored_dirty {env : Env} (hfound : ∀ n, Within (env.fiemap n))
    (hmade : returned (make.run 12 (State.start env).world) = true) :
    ∃ m, (stored env).last = some m ∧ m.isClean = false := by
  have hinv : Inv 12 (.start env) := inv_start hfound
  have hsized : Sized 12 (.act make) := by constructor <;> decide
  obtain ⟨m, hm, hdirty⟩ := act_completed (a := make) rfl le_rfl (by decide) hsized rfl hinv.headed hinv.live
    (run_returned hmade)
  exact ⟨m, hm, hdirty⟩

theorem closed_after (h : Inv 12 s) (he : Act.syncAndFree.enabled s.world = true)
    (hfree : returned (Act.syncAndFree.run 12 s.world) = true) :
    ∃ m, (after s .syncAndFree).last = some m ∧ m.isClean = true :=
  act_completed (a := .syncAndFree) rfl le_rfl (by decide) trivial he h.headed h.live (run_returned hfree)

theorem after_env (s : State) (a : Act) : (after s a).world.env = s.world.env :=
  (wp_left (P := Kin s.world) (kin_run 12 a s.world)).env

theorem found_nothing : ∀ n, Within (Start.calm.env.fiemap n) := fun _ _ h => by cases h

theorem stored_ready : ∃ s, Reach (step 12) (fun s e => Sized 12 e ∧ Whole 12 s e) (.start Start.calm.env) s ∧
    Atomic s.world.env ∧ Act.syncAndFree.enabled s.world = true ∧
    returned (Act.syncAndFree.run 12 s.world) = true := by
  refine ⟨stored Start.calm.env, stored_reach (by decide +kernel), ?_, by decide +kernel, by decide +kernel⟩
  rw [stored, after_env, after_env]
  exact fun _ _ => rfl

/-- A file is made, a block is stored in it, and it is closed and opened again. -/
theorem open_header_protocol_closed : ∃ s, Reach (step 12) (fun s e => Sized 12 e ∧ Whole 12 s e) (.start Start.calm.env) s ∧
    ∃ m v', s.last = some m ∧ cowOpenHeader (hasFlag m.cm.flags cowIndexOnly) true
      { Start.calm with cm := { CowManager.zero with filp := true }, file := s.world.file } = .ok () v' := by
  obtain ⟨s, hr, hat, he, hfree⟩ := stored_ready
  have hinv := inv_reach le_rfl (by decide) found_nothing hr
  have hwhole : Whole 12 s (.act .syncAndFree) := untorn_of_atomic hinv le_rfl (by decide) hat trivial he
  have hclosed : Reach (step 12) (fun s e => Sized 12 e ∧ Whole 12 s e) (.start Start.calm.env) (after s .syncAndFree) :=
    hr.next (a := .act .syncAndFree) ⟨trivial, hwhole⟩ (step_after he)
  obtain ⟨m, hm, hclean⟩ := closed_after hinv he hfree
  obtain ⟨v', hv'⟩ := ((open_header_protocol le_rfl (by decide) found_nothing hclosed
    (v := { Start.calm with cm := { CowManager.zero with filp := true }, file := (after s .syncAndFree).world.file })
    rfl rfl (hasFlag m.cm.flags cowIndexOnly) true).1 fun _ => rfl).mpr ⟨m, hm, hclean, rfl⟩
  exact ⟨_, hclosed, m, v', hm, hv'⟩

/-- The header of the close gets as far as its eighth byte. -/
def shortWrite : Env := { Start.calm.env with fault := fun n => if n = 17 then some .eio else none, moved := fun _ => 8 }

theorem step_crash {a : Act} {n : Nat} (he : a.enabled s.world = true) : ∃ t, step 12 s (.crash a n) = some t ∧
    t.last = lastAfter 12 a (stopAt s.world n) s.last ∧
    t.world.file = (left (a.run 12 (stopAt s.world n))).file ∧
    t.world.linked = (if (left (a.run 12 (stopAt s.world n))).clock ≤ n then (left (a.run 12 (stopAt s.world n))).linked
      else s.world.linked || emptied a (stopAt s.world n)) :=
  ⟨_, if_pos he, rfl, rfl, rfl⟩

/-- The position of the next block is not what the header of a close says. -/
def misses (w : World) : Bool :=
  match cowSyncAndFreeSections 12 0 false w with
  | .ok _ w₁ => (left (cowWriteHeader true w₁)).file.bytes 8 != (headerOf (written true w₁.cm).cm).encode 8
  | .error _ _ => true

theorem lastAfter_misses (h : misses w = true) : lastAfter 12 .syncAndFree w last = last := by
  have hnone : completed 12 .syncAndFree w = none := by
    simp only [misses] at h
    simp only [completed, Act.beforeHeader]
    cases hx : cowSyncAndFreeSections 12 0 false w with
    | error _ _ => rfl
    | ok _ w₁ =>
        rw [hx] at h
        dsimp only at h ⊢
        refine if_neg fun hholds => ?_
        rw [hholds.2 8 (by decide), bne_self_eq_false] at h
        cases h
  rw [lastAfter, hnone]
  rfl

/-- A short write, and the machine crashes before the file is unlinked. -/
theorem half_closed : ∃ s, Reach (step 12) (fun _ e => Sized 12 e) (.start shortWrite) s ∧ s.world.linked = true ∧
    (∃ m, s.last = some m ∧ m.isClean = false) ∧ returned (cowOpenHeader false true
      { Start.calm with cm := { CowManager.zero with filp := true }, file := s.world.file }) = true := by
  have hreach : Reach (step 12) (fun _ e => Sized 12 e) (.start shortWrite) (stored shortWrite) :=
    (stored_reach (by decide +kernel)).mono fun _ _ h => h.1
  obtain ⟨m, hm, hdirty⟩ := stored_dirty found_nothing (by decide +kernel)
  obtain ⟨t, ht, hlast, hfile, hlinked⟩ := step_crash (s := stored shortWrite) (a := .syncAndFree) (n := 18)
    (by decide +kernel)
  rw [lastAfter_misses (by decide +kernel)] at hlast
  refine ⟨t, hreach.next (a := .crash .syncAndFree 18) trivial ht, ?_, ⟨m, hlast.trans hm, hdirty⟩, ?_⟩
  · rw [hlinked]
    decide +kernel
  · rw [hfile]
    decide +kernel

/-- What the close has written is clean, and the rest of the header is that of before the block was stored. -/
theorem half_close_opens : ¬ ∀ ps : Nat, 12 ≤ ps → ps ≤ 16 → ∀ env : Env, (∀ n, Within (env.fiemap n)) → ∀ s : State,
    Reach (step ps) (fun _ e => Sized ps e) (.start env) s → s.world.linked = true → ∀ v : World,
    v.file = s.world.file → v.cm.filp = true → v.env.Faultless → ∀ indexOnly resetVmalloc,
      ((∃ v', cowOpenHeader indexOnly resetVmalloc v = .ok () v') ↔ Closed indexOnly s.last) := by
  intro h
  obtain ⟨s, hr, hlinked, ⟨m, hm, hdirty⟩, hopens⟩ := half_closed
  obtain ⟨m', hm', hclean, _⟩ := (h 12 le_rfl (by decide) shortWrite found_nothing s hr hlinked
    { Start.calm with cm := { CowManager.zero with filp := true }, file := s.world.file } rfl rfl (fun _ => rfl)
    false true).mp ⟨_, run_returned hopens⟩
  rw [hm] at hm'
  cases hm'
  rw [hdirty] at hclean
  cases hclean

end ElastioSnap.Cow.Crash
