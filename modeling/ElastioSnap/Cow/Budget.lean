import ElastioSnap.Cow.Start
import ElastioSnap.Cow.Sweep
import ElastioSnap.Lib.Extend
import Mathlib.Data.List.Chain

namespace ElastioSnap.Cow.Budget

open Lib.Outcome Lib.Extend Manager FileIo Section Cleanup Header Mapping Lifecycle Sweep

/-- The greatest number of sections that were allocated at a time, and of every cleanup whether it left
the cache over its limit. -/
structure Log where
  peak : Nat
  cleanups : List Bool

def Log.start : Log := ⟨0, []⟩

abbrev WatchM := EStateM Err (World × Log)

/-- The number of allocated sections has changed. -/
def seen (w : World) (l : Log) : Log := { l with peak := max l.peak w.cm.allocatedSects }

def overLimit (cm : CowManager) : Bool := decide (cm.allowedSects < cm.allocatedSects)

def cleanedUp (w : World) (l : Log) : Log := { l with cleanups := l.cleanups ++ [overLimit w.cm] }

def watchLoadSection (ps i : Nat) : WatchM Unit :=
  onError
    (do
      watch seen (cowAllocSection i false)
      lift (readChunks ps i (sectSizeBytes ps / cowBlockSize ps) 0))
    (do
      let s ← lift (getSect i)
      if s.mappings.isSome then watch seen (cowFreeSection i) else pure ())

def watchSyncSection (ps thresh i : Nat) : WatchM Unit := do
  let s ← lift (getSect i)
  (if s.mappings.isSome = true ∧ (thresh = 0 ∨ s.usage ≤ thresh) then do
    lift (cowWriteSection ps i)
    watch seen (cowFreeSection i)
  else pure ())
  lift (resetUsage i)

def watchSyncSections (ps thresh : Nat) : Nat → Nat → WatchM Unit
  | 0, _ => pure ()
  | n + 1, i => do
      let w ← lift get
      if thresh ≠ 0 ∧ w.cm.allocatedSects ≤ w.cm.allowedSects / 2 then pure ()
      else do
        watchSyncSection ps thresh i
        watchSyncSections ps thresh n (i + 1)

def watchCleanupMappings (ps : Nat) : WatchM Unit := do
  let w ← lift get
  if w.cm.sects.isNone then throw .oops
  else watchSyncSections ps (threshold w.cm) w.cm.totalSects 0

def watchCleanupIfFull (ps : Nat) : WatchM Unit := do
  let w ← lift get
  if w.cm.allocatedSects > w.cm.allowedSects then do
    watchCleanupMappings ps
    note cleanedUp
  else pure ()

def watchReadMapping (ps : Nat) (pos : UInt64) : WatchM UInt64 := do
  let w ← lift get
  let i := pos.toNat / w.cm.sectSize
  lift (bumpUsage i)
  let s ← lift (getSect i)
  if s.mappings.isNone = true ∧ s.hasData = false then pure 0
  else do
    (if s.mappings.isNone then watchLoadSection ps i else pure ())
    let s' ← lift (getSect i)
    match s'.mappings with
    | none => throw .oops
    | some m => do
        watchCleanupIfFull ps
        pure (m (pos.toNat % w.cm.sectSize))

def watchWriteMapping (ps : Nat) (pos val : UInt64) : WatchM Unit := do
  let w ← lift get
  let i := pos.toNat / w.cm.sectSize
  lift (bumpUsage i)
  let s ← lift (getSect i)
  (if s.mappings.isNone then
    (if s.hasData then watchLoadSection ps i else watch seen (cowAllocSection i true))
  else pure ())
  let s' ← lift (getSect i)
  match s'.mappings with
  | none => throw .oops
  | some m => do
      lift (modifyCm (countChanged (m (pos.toNat % w.cm.sectSize))))
      lift (setSect i (withEntry s' m (pos.toNat % w.cm.sectSize) val))
      watchCleanupIfFull ps

/-- The calls on the index. -/
inductive Call
  | read (pos : UInt64)
  | write (pos val : UInt64)

def Call.pos : Call → UInt64
  | .read pos => pos
  | .write pos _ => pos

def Call.run (ps : Nat) : Call → CowM Unit
  | .read pos => do
      let _ ← cowReadMapping ps pos
  | .write pos val => cowWriteMapping ps pos val

def Call.watched (ps : Nat) : Call → WatchM Unit
  | .read pos => do
      let _ ← watchReadMapping ps pos
  | .write pos val => watchWriteMapping ps pos val

def runCalls (ps : Nat) : List Call → CowM Unit
  | [] => pure ()
  | c :: cs => do
      c.run ps
      runCalls ps cs

def watchCalls (ps : Nat) : List Call → WatchM Unit
  | [] => pure ()
  | c :: cs => do
      c.watched ps
      watchCalls ps cs

variable {ps i n thresh : Nat} {pos val : UInt64}

theorem extends_loadSection : Extends (watchLoadSection ps i) (cowLoadSection ps i) :=
  (extends_watch.bind fun _ => extends_lift).onError
    (extends_lift.bind fun _ => extends_watch.ite extends_pure)

theorem extends_syncSection : Extends (watchSyncSection ps thresh i) (syncSection ps thresh i) :=
  extends_lift.bind fun _ => ((extends_lift.bind fun _ => extends_watch).ite extends_pure).bind fun _ => extends_lift

theorem extends_syncSections : Extends (watchSyncSections ps thresh n i) (syncSections ps thresh n i) := by
  induction n generalizing i with
  | zero => exact extends_pure
  | succ n ih => exact extends_lift.bind fun _ => extends_pure.ite (extends_syncSection.bind fun _ => ih)

theorem cowCleanupMappings_eq : cowCleanupMappings ps = (get >>= fun w : World =>
    if w.cm.sects.isNone then throw .oops else syncSections ps (threshold w.cm) w.cm.totalSects 0) := by
  funext w
  change (if w.cm.sects.isNone = true then _ else _ : CowM Unit) w = (if w.cm.sects.isNone = true then _ else _ : CowM Unit) w
  split
  next => rfl
  next =>
    change EStateM.bind (syncSections ps (threshold w.cm) w.cm.totalSects 0) (fun _ => pure ()) w = _
    rw [EStateM.bind]
    cases syncSections ps (threshold w.cm) w.cm.totalSects 0 w <;> rfl

theorem extends_cleanupIfFull : Extends (watchCleanupIfFull ps) (cleanupIfFull ps) := by
  have hcleanup : Extends (watchCleanupMappings ps) (cowCleanupMappings ps) := by
    rw [cowCleanupMappings_eq]
    exact extends_lift.bind fun _ => extends_throw.ite extends_syncSections
  exact extends_lift.bind fun _ => hcleanup.noted.ite extends_pure

theorem extends_readMapping : Extends (watchReadMapping ps pos) (cowReadMapping ps pos) := by
  refine extends_lift.bind fun _ => extends_lift.bind fun _ => extends_lift.bind fun _ => extends_pure.ite
    ((extends_loadSection.ite extends_pure).bind fun _ => extends_lift.bind fun s => ?_)
  cases s.mappings with
  | none => exact extends_throw
  | some m => exact extends_cleanupIfFull.bind fun _ => extends_pure

theorem extends_writeMapping : Extends (watchWriteMapping ps pos val) (cowWriteMapping ps pos val) := by
  refine extends_lift.bind fun _ => extends_lift.bind fun _ => extends_lift.bind fun _ =>
    ((extends_loadSection.ite extends_watch).ite extends_pure).bind fun _ => extends_lift.bind fun s => ?_
  cases s.mappings with
  | none => exact extends_throw
  | some m => exact extends_lift.bind fun _ => extends_lift.bind fun _ => extends_cleanupIfFull

/-- The watched calls do what the calls do. -/
theorem extends_calls (cs : List Call) : Extends (watchCalls ps cs) (runCalls ps cs) := by
  induction cs with
  | nil => exact extends_pure
  | cons c cs ih =>
      refine Extends.bind ?_ fun _ => ih
      cases c with
      | read pos => exact extends_readMapping.bind fun _ => extends_pure
      | write pos val => exact extends_writeMapping

/-- Only one section was worked on, and it is in memory as much as it was. -/
structure Held (i : Nat) (w w' : World) : Prop where
  rest : w'.cm = { w.cm with sects := w'.cm.sects }
  live : w'.cm.sects.isSome = w.cm.sects.isSome
  other : ∀ j, j ≠ i → w'.cm.sect j = w.cm.sect j
  same : isCached (w'.cm.sect i) = isCached (w.cm.sect i)

theorem held_of_cm {w w' : World} (h : w'.cm = w.cm) : Held i w w' :=
  ⟨by rw [h], by rw [h], fun _ _ => by rw [h], by rw [h]⟩

theorem Held.trans {w w' w'' : World} (h : Held i w w') (h' : Held i w' w'') : Held i w w'' where
  rest := by rw [h'.rest, h.rest]
  live := h'.live.trans h.live
  other j hj := (h'.other j hj).trans (h.other j hj)
  same := h'.same.trans h.same

instance : Std.Refl (Held i) := ⟨fun _ => held_of_cm rfl⟩

instance : Trans (Held i) (Held i) (Held i) := ⟨Held.trans⟩

theorem held_put {w : World} (hl : w.cm.sects.isSome) {x : CowSection}
    (h : isCached x = isCached (w.cm.sect i)) : Held i w { w with cm := w.cm.putSect i x } where
  rest := rfl
  live := isSome_putSect ..
  other j hj := by rw [sect_putSect hl, if_neg hj]
  same := by rw [sect_putSect hl, if_pos rfl, h]

theorem readChunks_held {k : Nat} {w : World} (hl : w.cm.sects.isSome) :
    wp (readChunks ps i n k) w (fun _ w' => Held i w w') (fun _ _ => True) := by
  induction n generalizing k w with
  | zero => exact held_of_cm rfl
  | succ n ih =>
      simp only [readChunks, wp_bind, wp_get]
      refine wp_mono (keeps_fileRead w) ?_ fun _ _ _ => trivial
      intro buf w₁ hcm
      have hl₁ : w₁.cm.sects.isSome := by rw [hcm]; exact hl
      rw [wp_getSect hl₁, wp_setSect hl₁]
      have hput : Held i w₁ _ := held_put hl₁ (i := i) (x := { w₁.cm.sect i with
        mappings := (w₁.cm.sect i).mappings.map fun m =>
          Lib.Bytes.splice m (mappingOffset ps k) (cowBlockSize ps / 8) fun j => Lib.Bytes.wordAt buf (8 * j) })
        (by simp only [isCached, Option.isSome_map])
      refine wp_mono (ih (by rw [isSome_putSect]; exact hl₁)) ?_ fun _ _ _ => trivial
      exact fun _ w₂ h₂ => ((held_of_cm hcm).trans hput).trans h₂

/-- A section is in memory now; all others are as before. -/
structure Touched (i : Nat) (w w' : World) : Prop where
  live : w'.cm.sects.isSome
  allowed : w'.cm.allowedSects = w.cm.allowedSects
  total : w'.cm.totalSects = w.cm.totalSects
  size : w'.cm.sectSize = w.cm.sectSize
  other : ∀ j, j ≠ i → w'.cm.sect j = w.cm.sect j
  mapped : isCached (w'.cm.sect i) = true
  count : w'.cm.allocatedSects = w.cm.allocatedSects + if isCached (w.cm.sect i) then 0 else 1

theorem Touched.held {w w' w'' : World} (h : Touched i w w') (h' : Held i w' w'') : Touched i w w'' where
  live := h'.live.trans h.live
  allowed := by rw [h'.rest]; exact h.allowed
  total := by rw [h'.rest]; exact h.total
  size := by rw [h'.rest]; exact h.size
  other j hj := (h'.other j hj).trans (h.other j hj)
  mapped := h'.same.trans h.mapped
  count := by rw [h'.rest]; exact h.count

theorem Touched.after {w w' w'' : World} (h : Held i w w') (h' : Touched i w' w'') : Touched i w w'' where
  live := h'.live
  allowed := by rw [h'.allowed, h.rest]
  total := by rw [h'.total, h.rest]
  size := by rw [h'.size, h.rest]
  other j hj := (h'.other j hj).trans (h.other j hj)
  mapped := h'.mapped
  count := by rw [h'.count, h.same, h.rest]

/-- The bound on the allocated sections that a section brought into memory leaves. -/
def Log.grown (l : Log) (w : World) : Log := { l with peak := max l.peak (w.cm.allocatedSects + 1) }

variable {w : World} {l l' : Log}

theorem watchAllocSection_wp {zero : Bool} (hl : w.cm.sects.isSome) (hm : (w.cm.sect i).mappings = none) :
    wp (watch seen (cowAllocSection i zero)) (w, l) (fun _ s => Touched i w s.1 ∧ s.2 = l.grown w) (fun _ _ => True) := by
  rw [wp_watch]
  refine wp_mono (cowAllocSection_wp hl i zero hm) ?_ fun _ _ _ => trivial
  intro _ w₁ ⟨hlocal, _, halloc, m, _, hsect⟩
  have hnone : isCached (w.cm.sect i) = false := by rw [isCached, hm]; rfl
  refine ⟨⟨?_, ?_, ?_, hlocal.sectSize, hlocal.other, ?_, ?_⟩, ?_⟩
  · rw [hlocal.live]
    exact hl
  · rw [hlocal.cm]
  · exact hlocal.totalSects
  · rw [hsect]
    rfl
  · rw [hnone]
    exact halloc
  · rw [seen, halloc, Log.grown]

theorem watchLoadSection_wp (hl : w.cm.sects.isSome) (hm : (w.cm.sect i).mappings = none) :
    wp (watchLoadSection ps i) (w, l) (fun _ s => Touched i w s.1 ∧ s.2 = l.grown w) (fun _ _ => True) := by
  rw [watchLoadSection, wp_onError, wp_bind]
  refine wp_mono (watchAllocSection_wp hl hm) ?_ fun _ _ _ => wp_const.mpr trivial
  intro _ s ⟨htouched, hlog⟩
  rw [wp_lift]
  refine wp_mono (readChunks_held htouched.live) ?_ fun _ _ _ => wp_const.mpr trivial
  exact fun _ w₁ hheld => ⟨htouched.held hheld, hlog⟩

theorem getSect_wp : wp (getSect i) w (fun _ w' => w' = w ∧ w.cm.sects.isSome) (fun _ _ => True) := by
  unfold wp getSect
  cases h : w.cm.sects.isSome with
  | false => trivial
  | true => exact ⟨rfl, rfl⟩

/-- What is freed is not allocated any more. -/
theorem cowFreeSection_below :
    wp (cowFreeSection i) w (fun _ w' => w'.cm.allocatedSects ≤ w.cm.allocatedSects) (fun _ _ => True) := by
  rw [cowFreeSection, wp_bind]
  refine wp_mono getSect_wp ?_ fun _ _ _ => trivial
  rintro _ _ ⟨rfl, hl⟩
  rw [wp_bind, wp_setSect hl, wp_modifyCm]
  exact Nat.sub_le _ _

theorem resetUsage_below :
    wp (resetUsage i) w (fun _ w' => w'.cm.allocatedSects = w.cm.allocatedSects) (fun _ _ => True) := by
  rw [resetUsage, wp_bind]
  refine wp_mono getSect_wp ?_ fun _ _ _ => trivial
  rintro _ _ ⟨rfl, hl⟩
  rw [wp_setSect hl]
  rfl

/-- A round notes nothing above what was allocated when it began. -/
theorem watchSyncSection_peak : wp (watchSyncSection ps thresh i) (w, l)
    (fun _ s => s.2.cleanups = l.cleanups ∧ s.2.peak ≤ max l.peak w.cm.allocatedSects ∧
      s.1.cm.allocatedSects ≤ w.cm.allocatedSects) (fun _ _ => True) := by
  simp only [watchSyncSection, wp_bind, wp_lift, wp_ite, wp_pure]
  refine wp_mono getSect_wp ?_ fun _ _ _ => trivial
  rintro x v ⟨rfl, _⟩
  split
  next =>
    refine wp_mono (keeps_cowWriteSection v) ?_ fun _ _ _ => trivial
    intro _ w₁ hcm
    rw [wp_watch]
    refine wp_mono cowFreeSection_below ?_ fun _ _ _ => trivial
    intro _ w₂ hfree
    refine wp_mono resetUsage_below ?_ fun _ _ _ => trivial
    intro _ w₃ hreset
    rw [hcm] at hfree
    refine ⟨rfl, ?_, Nat.le_trans (Nat.le_of_eq hreset) hfree⟩
    rw [seen]
    dsimp only
    omega
  next =>
    refine wp_mono resetUsage_below ?_ fun _ _ _ => trivial
    exact fun _ w₁ hreset => ⟨trivial, Nat.le_max_left _ _, Nat.le_of_eq hreset⟩

theorem watchSyncSections_peak (n i : Nat) : wp (watchSyncSections ps thresh n i) (w, l)
    (fun _ s => s.2.cleanups = l.cleanups ∧ s.2.peak ≤ max l.peak w.cm.allocatedSects) (fun _ _ => True) := by
  induction n generalizing i w l with
  | zero => exact ⟨rfl, Nat.le_max_left _ _⟩
  | succ n ih =>
      simp only [watchSyncSections, wp_bind, wp_lift, wp_get, wp_ite, wp_pure]
      split
      next => exact ⟨trivial, Nat.le_max_left _ _⟩
      next =>
        refine wp_mono watchSyncSection_peak ?_ fun _ _ _ => trivial
        rintro _ ⟨w₁, l₁⟩ ⟨hclean, hpeak, halloc⟩
        refine wp_mono (ih (i + 1)) ?_ fun _ _ _ => trivial
        rintro _ s ⟨hclean₂, hpeak₂⟩
        dsimp only at hclean hpeak halloc
        exact ⟨hclean₂.trans hclean, by omega⟩

/-- Between two calls the cache is within its limit, or over it by one section and with no use counted of
the sections in it. -/
structure Within (cm : CowManager) (w : World) (l : Log) : Prop where
  live : w.cm.sects.isSome
  allowed : w.cm.allowedSects = cm.allowedSects
  total : w.cm.totalSects = cm.totalSects
  size : w.cm.sectSize = cm.sectSize
  count : w.cm.allocatedSects = cachedSects w.cm
  limit : w.cm.allocatedSects ≤ w.cm.allowedSects + 1
  cold : w.cm.allowedSects < w.cm.allocatedSects → ∀ j, j < w.cm.totalSects → isCached (w.cm.sect j) = true →
    (w.cm.sect j).usage = 0
  peak : l.peak ≤ w.cm.allowedSects + 2
  last : l.cleanups.getLast? = some true → w.cm.allowedSects < w.cm.allocatedSects
  apart : 1 ≤ w.cm.allowedSects → l.cleanups.IsChain fun a b => ¬(a = true ∧ b = true)

variable {cm : CowManager}

/-- A section was brought into memory, and counted. -/
theorem Within.touched {w₁ : World} (h : Within cm w l) (hi : i < w.cm.totalSects) (ht : Touched i w w₁) :
    w₁.cm.allocatedSects = cachedSects w₁.cm := by
  have hone := countSects_one (p := isCached) ht.other hi
  have hold := h.count
  have hnew := ht.count
  rw [ht.mapped, if_pos rfl] at hone
  rw [cachedSects] at hold
  rw [cachedSects, ht.total]
  split at hone <;> rename_i hc
  · rw [if_pos hc] at hnew
    omega
  · rw [if_neg hc] at hnew
    omega

/-- A cleanup after a section was brought into memory. -/
theorem watchCleanupIfFull_wp {w₁ : World} (h : Within cm w l) (hi : i < w.cm.totalSects) (ht : Touched i w w₁)
    (hpeak : l'.peak ≤ w.cm.allowedSects + 2) (hlog : l'.cleanups = l.cleanups) :
    wp (watchCleanupIfFull ps) (w₁, l') (fun _ s => Within cm s.1 s.2) (fun _ _ => True) := by
  have hcount := h.touched hi ht
  have hallowed := ht.allowed
  have hlimit := h.limit
  have hmore : w₁.cm.allocatedSects ≤ w.cm.allocatedSects + 1 := by
    rw [ht.count]
    split <;> omega
  simp only [watchCleanupIfFull, wp_bind, wp_lift, wp_get, wp_ite, wp_pure]
  split
  next hfull =>
    have hnone : w₁.cm.sects.isNone = false := by
      rw [Option.isNone_eq_false_iff]
      exact ht.live
    have hswept : wp (watchSyncSections ps (threshold w₁.cm) w₁.cm.totalSects 0) (w₁, l')
        (fun _ s => Swept (threshold w₁.cm) w₁.cm s.1.cm) (fun _ _ => True) := by
      refine (extends_syncSections.wp_iff (s := (w₁, l')) (Q := fun _ t => Swept (threshold w₁.cm) w₁.cm t.cm)
        (E := fun _ _ => True)).mpr ?_
      refine syncSections_swept _ 0 (Nat.zero_add _) (.refl ht.live hcount) ?_
      rw [hcount]
      exact evicts_le_cached
    simp only [watchCleanupMappings, wp_bind, wp_lift, wp_get, wp_ite, hnone, Bool.false_eq_true, if_false, wp_note]
    refine wp_mono (wp_and hswept (watchSyncSections_peak _ 0)) ?_ fun _ _ _ => trivial
    rintro _ ⟨w₂, l₂⟩ ⟨hs, hclean, hpeak₂⟩
    dsimp only at hs hclean hpeak₂ ⊢
    have hallowed₂ : w₂.cm.allowedSects = w₁.cm.allowedSects := by rw [hs.rest]
    have htotal₂ : w₂.cm.totalSects = w₁.cm.totalSects := by rw [hs.rest]
    have hfreed := hs.freed_le
    -- over the limit before the call, the cache held nothing else that was used
    have hlone : w.cm.allowedSects < w.cm.allocatedSects → w₂.cm.allowedSects < w₂.cm.allocatedSects →
        w₂.cm.allocatedSects ≤ 1 := by
      intro hover hover₂
      refine hs.lone (i := i) (by omega) fun j hne hj hc => ?_
      rw [ht.other j hne] at hc ⊢
      exact h.cold hover j (ht.total ▸ hj) hc
    refine ⟨hs.live, ?_, ?_, ?_, hs.count, ?_, ?_, ?_, ?_, ?_⟩
    · rw [hallowed₂, hallowed, h.allowed]
    · rw [htotal₂, ht.total, h.total]
    · rw [hs.rest]
      exact ht.size.trans h.size
    · by_cases hover : w.cm.allowedSects < w.cm.allocatedSects
      · have := hlone hover
        omega
      · omega
    · intro hover j hj hc
      exact (hs.over (by omega) (htotal₂ ▸ hj)).1
    · rw [cleanedUp]
      dsimp only
      omega
    · simp [cleanedUp, overLimit]
    · intro hallow
      rw [cleanedUp, hclean, hlog]
      refine (h.apart (by omega)).append (List.isChain_singleton _) ?_
      rintro a ha b hb ⟨hat, hbt⟩
      rw [List.head?_singleton, Option.mem_some_iff] at hb
      rw [Option.mem_def, hat] at ha
      rw [← hb, overLimit, decide_eq_true_eq] at hbt
      have := hlone (h.last ha) hbt
      omega
  next hfit =>
    refine ⟨ht.live, hallowed.trans h.allowed, ht.total.trans h.total, ht.size.trans h.size, hcount, by omega,
      fun hover => by omega, by omega, fun hlast => ?_, fun hallow => ?_⟩
    · rw [hlog] at hlast
      have := h.last hlast
      have hnew := ht.count
      omega
    · rw [hlog]
      exact h.apart (by omega)

theorem bumpUsage_held (hl : w.cm.sects.isSome) :
    wp (bumpUsage i) w (fun _ w' => Held i w w') (fun _ _ => True) := by
  rw [bumpUsage, wp_bind, wp_getSect hl, wp_setSect hl]
  exact held_put hl rfl

theorem Held.touched {w₁ : World} (h : Held i w w₁) (hl : w.cm.sects.isSome) (hc : isCached (w.cm.sect i) = true) :
    Touched i w w₁ where
  live := h.live.trans hl
  allowed := by rw [h.rest]
  total := by rw [h.rest]
  size := by rw [h.rest]
  other := h.other
  mapped := h.same.trans hc
  count := by
    rw [if_pos hc, h.rest]
    rfl

/-- An entry is written into the section. -/
theorem Touched.entry {w₁ : World} (h : Touched i w w₁) {x : CowSection} (hx : isCached x = true) (old : UInt64) :
    Touched i w { w₁ with cm := (countChanged old w₁.cm).putSect i x } := by
  rw [countChanged_eq]
  refine ⟨?_, h.allowed, h.total, h.size, fun j hj => ?_, ?_, h.count⟩
  · rw [isSome_putSect]
    exact h.live
  · rw [sect_putSect (by exact h.live), if_neg hj]
    exact h.other j hj
  · rw [sect_putSect (by exact h.live), if_pos rfl]
    exact hx

/-- A section that is not in memory may be used as often as one likes. -/
theorem Within.held {w₁ : World} (h : Within cm w l) (hh : Held i w w₁) (hc : isCached (w.cm.sect i) = false) :
    Within cm w₁ l := by
  have hallowed : w₁.cm.allowedSects = w.cm.allowedSects := by rw [hh.rest]
  have htotal : w₁.cm.totalSects = w.cm.totalSects := by rw [hh.rest]
  have halloc : w₁.cm.allocatedSects = w.cm.allocatedSects := by rw [hh.rest]
  refine ⟨hh.live.trans h.live, hallowed.trans h.allowed, htotal.trans h.total, ?_, ?_, ?_, ?_, ?_, ?_, ?_⟩
  · rw [hh.rest]
    exact h.size
  · rw [halloc, h.count, cachedSects, cachedSects, htotal]
    refine (countSects_congr fun j _ => ?_).symm
    by_cases hj : j = i
    · rw [hj, hh.same]
    · rw [hh.other j hj]
  · rw [halloc, hallowed]
    exact h.limit
  · rw [halloc, hallowed, htotal]
    intro hover j hj hcj
    have hji : j ≠ i := by
      rintro rfl
      rw [hh.same, hc] at hcj
      cases hcj
    rw [hh.other j hji] at hcj ⊢
    exact h.cold hover j hj hcj
  · rw [hallowed]
    exact h.peak
  · rw [halloc, hallowed]
    exact h.last
  · rw [hallowed]
    exact h.apart

/-- A section is brought into memory where it is not there yet. -/
theorem fetch_wp {w₁ : World} {x : WatchM Unit} (h : Within cm w l) (hheld : Held i w w₁)
    (hx : (w₁.cm.sect i).mappings = none →
      wp x (w₁, l) (fun _ s => Touched i w₁ s.1 ∧ s.2 = l.grown w₁) (fun _ _ => True)) :
    wp (if (w₁.cm.sect i).mappings.isNone then x else pure ()) (w₁, l)
      (fun _ s => Touched i w s.1 ∧ s.2.peak ≤ w.cm.allowedSects + 2 ∧ s.2.cleanups = l.cleanups) (fun _ _ => True) := by
  have hpeak := h.peak
  have hlimit := h.limit
  have halloc : w₁.cm.allocatedSects = w.cm.allocatedSects := by rw [hheld.rest]
  rw [wp_ite]
  split
  next hnone =>
    refine wp_mono (hx (Option.isNone_iff_eq_none.mp hnone)) ?_ fun _ _ _ => trivial
    rintro _ ⟨w₂, l₂⟩ ⟨ht, hlog⟩
    dsimp only at ht hlog ⊢
    subst hlog
    refine ⟨ht.after hheld, ?_, rfl⟩
    rw [Log.grown]
    dsimp only
    omega
  next hsome =>
    refine ⟨hheld.touched h.live ?_, hpeak, rfl⟩
    rw [← hheld.same, isCached, Option.isSome_iff_ne_none]
    simpa using hsome

theorem watchReadMapping_wp (h : Within cm w l) (hi : pos.toNat / w.cm.sectSize < w.cm.totalSects) :
    wp (watchReadMapping ps pos) (w, l) (fun _ s => Within cm s.1 s.2) (fun _ _ => True) := by
  simp only [watchReadMapping, wp_bind, wp_lift, wp_get]
  refine wp_mono (bumpUsage_held h.live) ?_ fun _ _ _ => trivial
  intro _ w₁ hheld
  have hl₁ : w₁.cm.sects.isSome := hheld.live.trans h.live
  rw [wp_getSect hl₁, wp_ite]
  split
  next hnone =>
    rw [wp_pure]
    refine h.held hheld ?_
    rw [← hheld.same, isCached, Option.isSome_eq_false_iff]
    exact hnone.1
  next =>
    rw [wp_bind]
    refine wp_mono (fetch_wp h hheld (watchLoadSection_wp hl₁)) ?_ fun _ _ _ => trivial
    rintro _ ⟨w₂, l₂⟩ ⟨ht, hpeak, hlog⟩
    rw [wp_bind, wp_lift, wp_getSect ht.live]
    cases (w₂.cm.sect (pos.toNat / w.cm.sectSize)).mappings with
    | none => trivial
    | some m =>
        rw [wp_bind]
        exact watchCleanupIfFull_wp h hi ht hpeak hlog

theorem watchWriteMapping_wp (h : Within cm w l) (hi : pos.toNat / w.cm.sectSize < w.cm.totalSects) :
    wp (watchWriteMapping ps pos val) (w, l) (fun _ s => Within cm s.1 s.2) (fun _ _ => True) := by
  simp only [watchWriteMapping, wp_bind, wp_lift, wp_get]
  refine wp_mono (bumpUsage_held h.live) ?_ fun _ _ _ => trivial
  intro _ w₁ hheld
  have hl₁ : w₁.cm.sects.isSome := hheld.live.trans h.live
  rw [wp_getSect hl₁]
  refine wp_mono (fetch_wp h hheld fun hnone => ?_) ?_ fun _ _ _ => trivial
  · rw [wp_ite]
    split
    · exact watchLoadSection_wp hl₁ hnone
    · exact watchAllocSection_wp hl₁ hnone
  · rintro _ ⟨w₂, l₂⟩ ⟨ht, hpeak, hlog⟩
    rw [wp_getSect ht.live]
    cases (w₂.cm.sect (pos.toNat / w.cm.sectSize)).mappings with
    | none => trivial
    | some m =>
        simp only [wp_bind, wp_lift, wp_modifyCm]
        rw [wp_setSect (by rw [countChanged_eq]; exact ht.live)]
        exact watchCleanupIfFull_wp h hi (ht.entry rfl _) hpeak hlog

/-- The positions are those of the index. -/
def Call.InRange (cm : CowManager) (c : Call) : Prop := c.pos.toNat / cm.sectSize < cm.totalSects

instance (c : Call) : Decidable (c.InRange cm) := inferInstanceAs (Decidable (_ < _))

theorem watched_wp {c : Call} (h : Within cm w l) (hc : c.InRange cm) :
    wp (c.watched ps) (w, l) (fun _ s => Within cm s.1 s.2) (fun _ _ => True) := by
  rw [Call.InRange, ← h.size, ← h.total] at hc
  cases c with
  | read pos =>
      rw [Call.watched, wp_bind]
      exact watchReadMapping_wp h hc
  | write pos val => exact watchWriteMapping_wp h hc

theorem watchCalls_wp {cs : List Call} (h : Within cm w l) (hcs : ∀ c ∈ cs, c.InRange cm) :
    wp (watchCalls ps cs) (w, l) (fun _ s => Within cm s.1 s.2) (fun _ _ => True) := by
  induction cs generalizing w l with
  | nil => exact h
  | cons c cs ih =>
      rw [watchCalls, wp_bind]
      refine wp_mono (watched_wp h (hcs c List.mem_cons_self)) ?_ fun _ _ _ => trivial
      exact fun _ s hs => ih hs fun d hd => hcs d (List.mem_cons_of_mem _ hd)

/-- The array of sections, and the count of those that are allocated. -/
def cachePart (w : World) : Option (Nat → CowSection) × Nat := (w.cm.sects, w.cm.allocatedSects)

theorem keeps_zeroPages {offset k : Nat} : Preserves World.cm (zeroPages ps offset n k) := by
  induction n generalizing k with
  | zero => exact preserves_pure
  | succ n ih => exact keeps_fileWrite.bind fun _ => ih

theorem keeps_fileAllocate {offset length : Nat} : Preserves World.cm (fileAllocate ps offset length) := by
  have hreal : Preserves World.cm (realFallocate offset length) := by
    refine keeps_tick.bind fun _ => preserves_throw.ite (preserves_modify ?_)
    exact fun _ => rfl
  refine hreal.recover fun e => Preserves.ite ?_ preserves_throw
  exact keeps_alloc.bind fun _ => (keeps_fileWrite.ite preserves_pure).bind fun _ => keeps_zeroPages

theorem preserves_cowWriteHeader {isClean : Bool} : Preserves cachePart (cowWriteHeader isClean) := by
  have hcm : ∀ {α : Type} {x : CowM α}, Preserves World.cm x → Preserves cachePart x :=
    fun h => h.comp fun cm => (cm.sects, cm.allocatedSects)
  have hflags : Preserves cachePart (modifyCm fun cm => { cm with flags := markClean isClean cm.flags }) := fun _ => rfl
  exact (hcm keeps_alloc).bind fun _ => hflags.bind fun _ => preserves_get.bind fun _ => hcm keeps_fileWrite

theorem within_fresh (h : cachePart w = (some fun _ => default, 0)) : Within w.cm w .start := by
  obtain ⟨hs, ha⟩ := Prod.mk.inj h
  have hnone : ∀ j, isCached (w.cm.sect j) = false := by
    intro j
    rw [CowManager.sect, hs]
    rfl
  have hcount : ∀ n, countSects w.cm isCached n = 0 := by
    intro n
    induction n with
    | zero => rfl
    | succ n ih => rw [countSects, hnone, if_neg (by decide), ih]
  refine ⟨by rw [hs]; rfl, rfl, rfl, rfl, by rw [ha, cachedSects, hcount], by omega, fun hover => by omega,
    Nat.zero_le _, fun h => (by cases h), fun _ => .nil⟩

/-- A manager that was just made has no section in memory. -/
theorem cowInit_within (elements fileMax seqid : UInt64) (sectSize cacheSize : Nat) (uuid : Fin 16 → UInt8) :
    wp (cowInit ps elements sectSize cacheSize fileMax uuid seqid) w
      (fun _ w' => Within w'.cm w' .start) (fun _ _ => True) := by
  rw [cowInit, wp_bind]
  unfold wp allocManager
  cases w.env.fault w.clock with
  | some e => trivial
  | none =>
      dsimp only
      change wp _ _ _ _
      rw [wp_onError]
      refine wp_mono (E := fun _ _ => True) ?_ (fun _ _ h => h) fun _ _ _ => wp_const.mpr trivial
      rw [fileCreate, wp_bind, wp_bind]
      refine wp_tick ?_ fun _ _ => trivial
      rw [wp_modify, wp_bind, wp_modifyCm, wp_bind]
      refine wp_mono (Q := fun _ w' => cachePart w' = (some fun _ => default, 0)) (E := fun _ _ => True) ?_ ?_
        fun _ _ _ => trivial
      · unfold wp allocSects
        split
        next h =>
          split at h
          next =>
            cases h
            rfl
          next =>
            split at h
            next =>
              cases h
              rfl
            next => cases h
        next => trivial
      · intro _ w₁ hfresh
        have hfile : Preserves cachePart (fileAllocate ps 0 fileMax.toNat) :=
          keeps_fileAllocate.comp fun cm => (cm.sects, cm.allocatedSects)
        refine wp_mono ((hfile.bind fun _ => preserves_cowWriteHeader) w₁) ?_ fun _ _ _ => trivial
        exact fun _ w₂ h => within_fresh (h.trans hfresh)

/-- The cache keeps to its limit up to one section, up to two while a call is at work, and no two cleanups
in a row leave it over the limit. -/
theorem cache_within_budget (ps : Nat) (elements fileMax seqid : UInt64) (cacheSize : Nat) (uuid : Fin 16 → UInt8)
    (w w₁ w₂ : World) (cs : List Call)
    (hinit : cowInit ps elements (cowSectionSize ps) cacheSize fileMax uuid seqid w = .ok () w₁)
    (hcs : ∀ c ∈ cs, c.InRange w₁.cm) (hrun : runCalls ps cs w₁ = .ok () w₂) :
    w₂.cm.allocatedSects = cachedSects w₂.cm ∧ w₂.cm.allocatedSects ≤ w₁.cm.allowedSects + 1 ∧
      ∃ log, watchCalls ps cs (w₁, .start) = .ok () (w₂, log) ∧ log.peak ≤ w₁.cm.allowedSects + 2 ∧
        (1 ≤ w₁.cm.allowedSects → log.cleanups.IsChain fun a b => ¬(a = true ∧ b = true)) := by
  have hfresh : Within w₁.cm w₁ .start :=
    wp_ok (Q := fun _ w' => Within w'.cm w' .start) (cowInit_within elements fileMax seqid _ cacheSize uuid) hinit
  obtain ⟨log, hlog⟩ := (extends_calls cs).ok (u := Log.start) hrun
  have h : Within w₁.cm w₂ log := wp_ok (Q := fun _ s => Within w₁.cm s.1 s.2) (watchCalls_wp hfresh hcs) hlog
  refine ⟨h.count, ?_, log, hlog, ?_, ?_⟩
  · rw [← h.allowed]
    exact h.limit
  · rw [← h.allowed]
    exact h.peak
  · rw [← h.allowed]
    exact h.apart

/-- A manager for two sections, one of which may stay in memory. -/
def made : World :=
  match cowInit 12 8192 (cowSectionSize 12) 40000 200000 (fun _ => 0) 1 Start.calm with
  | .ok _ w | .error _ w => w

/-- Both sections are used twice before the second one is allocated. -/
def calls : List Call := [.write 5 7, .write 6 7, .read 4096, .write 4097 7, .read 5, .read 4097]

def outcome : Option (World × Log) :=
  match watchCalls 12 calls (made, .start) with
  | .ok _ s => some s
  | .error _ _ => none

theorem outcome_run {s : World × Log} (h : outcome = some s) :
    watchCalls 12 calls (made, .start) = .ok () s ∧ runCalls 12 calls made = .ok () s.1 := by
  have hext : Lib.Extend.erase (watchCalls 12 calls (made, .start)) = runCalls 12 calls made := extends_calls calls _
  rw [outcome] at h
  cases hrun : watchCalls 12 calls (made, .start) with
  | ok _ t =>
      rw [hrun] at h hext
      obtain rfl := Option.some.inj h
      exact ⟨rfl, hext.symm⟩
  | error e t =>
      rw [hrun] at h
      cases h

/-- The first cleanup evicts nothing, and the next one gets the cache below its limit. -/
theorem cache_within_budget_cleaned : ∃ w₂, runCalls 12 calls made = .ok () w₂ ∧ w₂.cm.allocatedSects = cachedSects w₂.cm ∧
    ∃ log, watchCalls 12 calls (made, .start) = .ok () (w₂, log) ∧ log.peak ≤ 3 ∧ log.cleanups = [true, false] ∧
      log.cleanups.IsChain fun a b => ¬(a = true ∧ b = true) := by
  have hcleaned : outcome.map (fun s => s.2.cleanups) = some [true, false] := by decide +kernel
  obtain ⟨s, hs, hcleanups⟩ := Option.map_eq_some_iff.mp hcleaned
  obtain ⟨hwatched, hrun⟩ := outcome_run hs
  have hallowed : made.cm.allowedSects = 1 := by decide +kernel
  have hrange : ∀ c ∈ calls, c.pos.toNat / made.cm.sectSize < made.cm.totalSects := by decide +kernel
  obtain ⟨hcount, -, log, hlog, hpeak, hapart⟩ :=
    cache_within_budget 12 8192 200000 1 40000 (fun _ => 0) Start.calm made s.1 calls rfl hrange hrun
  rw [hallowed] at hpeak hapart
  have hsame : s.2 = log := by
    have hs : s = (s.1, log) := (EStateM.Result.ok.inj (hwatched.symm.trans hlog)).2
    exact congrArg Prod.snd hs
  exact ⟨s.1, hrun, hcount, log, hlog, hpeak, hsame ▸ hcleanups, hapart le_rfl⟩

end ElastioSnap.Cow.Budget
