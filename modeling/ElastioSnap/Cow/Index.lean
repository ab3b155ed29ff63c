import ElastioSnap.Cow.Reopen

namespace ElastioSnap.Cow.Index

open Lib.Bytes Lib.Outcome Lib.Flags Manager FileIo Section Lifecycle Mapping Sealing Data Start Reopen

inductive Op
  | readMapping (pos : UInt64)
  | writeMapping (pos val : UInt64)
  | writeCurrent (block : UInt64) (buf : Nat → UInt8)
  | modifyCacheSize (cacheSize : Nat)
  | closeReopen

/-- An operation returns the mappings that it was asked for. -/
def Op.run : Op → CowM (List UInt64)
  | .readMapping pos => do
      let v ← cowReadMapping 12 pos
      pure [v]
  | .writeMapping pos val => do
      cowWriteMapping 12 pos val
      pure []
  | .writeCurrent block buf => do
      cowWriteCurrent 12 block buf
      pure []
  | .modifyCacheSize cacheSize => do
      cowModifyCacheSize 12 cacheSize
      pure []
  | .closeReopen => do
      cowSyncAndClose 12
      cowReopen
      pure []

def runOps : List Op → CowM (List UInt64)
  | [] => pure []
  | op :: ops => do
      let out ← op.run
      let outs ← runOps ops
      pure (out ++ outs)

/-- What the manager is for: an array of mappings, and the position that is mapped next. -/
structure Plain where
  entry : Nat → UInt64
  next : UInt64

def Plain.step (s : Plain) : Op → Plain
  | .writeMapping pos val => { s with entry := Function.update s.entry pos.toNat val }
  | .writeCurrent block _ =>
      if s.entry block.toNat = 0 then
        { entry := Function.update s.entry block.toNat s.next, next := s.next + 1 }
      else s
  | _ => s

def Plain.output (s : Plain) : Op → List UInt64
  | .readMapping pos => [s.entry pos.toNat]
  | _ => []

def Plain.run (s : Plain) : List Op → Plain
  | [] => s
  | op :: ops => (s.step op).run ops

def Plain.outputs (s : Plain) : List Op → List UInt64
  | [] => []
  | op :: ops => s.output op ++ (s.step op).outputs ops

def Op.InRange (totalSects : Nat) : Op → Prop
  | .readMapping pos => pos.toNat < 4096 * totalSects
  | .writeMapping pos _ => pos.toNat < 4096 * totalSects
  | .writeCurrent block _ => block.toNat < 4096 * totalSects
  | _ => True

def Op.isCurrent : Op → Bool
  | .writeCurrent _ _ => true
  | _ => false

variable {w w' w'' : World}

/-- What no operation on the manager changes. -/
structure Fixed (w w' : World) : Prop where
  totalSects : w'.cm.totalSects = w.cm.totalSects
  dataOffset : w'.cm.dataOffset = w.cm.dataOffset
  fileMax : w'.cm.fileMax = w.cm.fileMax
  seqid : w'.cm.seqid = w.cm.seqid
  uuid : w'.cm.uuid = w.cm.uuid
  version : w'.cm.version = w.cm.version
  mode : hasFlag w'.cm.flags cowIndexOnly = hasFlag w.cm.flags cowIndexOnly
  env : w'.env = w.env

theorem Fixed.refl (w : World) : Fixed w w := ⟨rfl, rfl, rfl, rfl, rfl, rfl, rfl, rfl⟩

theorem Fixed.trans (h : Fixed w w') (h' : Fixed w' w'') : Fixed w w'' :=
  ⟨h'.totalSects.trans h.totalSects, h'.dataOffset.trans h.dataOffset, h'.fileMax.trans h.fileMax,
    h'.seqid.trans h.seqid, h'.uuid.trans h.uuid, h'.version.trans h.version, h'.mode.trans h.mode,
    h'.env.trans h.env⟩

theorem Fixed.of_steady (h : Steady w w') : Fixed w w' := by
  refine ⟨?_, ?_, ?_, ?_, ?_, ?_, h.mode, h.env⟩ <;> rw [h.cm]

theorem Fixed.of_put {pos val : UInt64} (h : Put w w' pos val) : Fixed w w' := by
  refine ⟨?_, ?_, ?_, ?_, ?_, ?_, ?_, h.env⟩ <;> rw [h.cm]

theorem Fixed.of_stored {block : UInt64} {buf : Nat → UInt8} (h : Stored w w' block buf) :
    Fixed w w' := by
  refine ⟨?_, ?_, ?_, ?_, ?_, ?_, ?_, h.env⟩ <;> rw [h.cm]

/-- The manager stands for an array. -/
structure Refines (w : World) (s : Plain) : Prop where
  entry : ∀ pos, pos < 4096 * w.cm.totalSects → indexAt w pos = s.entry pos
  next : w.cm.currPos = s.next

theorem Refines.steady {s : Plain} (hr : Refines w s) (h : Steady w w') : Refines w' s where
  entry := fun pos hpos => (h.index pos (by rw [← h.totalSects]; exact hpos)).trans
    (hr.entry pos (by rw [← h.totalSects]; exact hpos))
  next := h.currPos.trans hr.next

theorem Refines.put {s : Plain} {pos val : UInt64} (hr : Refines w s) (h : Put w w' pos val) :
    Refines w' { s with entry := Function.update s.entry pos.toNat val } where
  entry := by
    intro p hp
    rw [h.cm] at hp
    rw [h.index p hp, hr.entry p hp]
    exact (Function.update_apply _ _ _ _).symm
  next := by
    rw [h.cm]
    exact hr.next

theorem Refines.stored {s : Plain} {block : UInt64} {buf : Nat → UInt8} (hr : Refines w s)
    (h : Stored w w' block buf) :
    Refines w' { entry := Function.update s.entry block.toNat s.next, next := s.next + 1 } where
  entry := by
    intro p hp
    rw [h.cm] at hp
    rw [h.index p hp, hr.entry p hp, hr.next]
    exact (Function.update_apply _ _ _ _).symm
  next := by
    rw [h.cm, ← hr.next]

theorem closeReopen_wp (hl : Live w) :
    wp (do cowSyncAndClose 12; cowReopen) w (fun _ w' => Steady w w')
      (fun _ _ => Roomy w → ¬ w.env.Faultless) := by
  rw [wp_bind]
  apply wp_mono (cowSyncAndClose_wp hl.wf hl.filp hl.placed)
  · rintro _ w₂ ⟨w₁, hsealed, hw₂⟩
    apply wp_mono (cowReopen_wp hl hsealed hw₂)
    · exact fun _ _ h => h
    · exact fun _ _ h _ => h
  · exact fun _ _ h => h

/-- What one operation does to the manager. -/
def Op.Step (w w' : World) : Op → Prop
  | .writeMapping pos val => Put w w' pos val
  | .writeCurrent block buf =>
      if indexAt w block.toNat = 0 then ∃ w₁, Steady w w₁ ∧ Stored w₁ w' block buf else Steady w w'
  | _ => Steady w w'

theorem op_wp (op : Op) (hl : Live w) (hop : op.InRange w.cm.totalSects) :
    wp op.run w
      (fun out w' => op.Step w w' ∧ ∀ s, Refines w s → out = s.output op)
      (fun _ _ => Roomy w →
        (op.isCurrent = true → w.cm.currPos.toNat * 4096 < w.cm.fileMax.toNat) →
        ¬ w.env.Faultless) := by
  cases op with
  | readMapping pos =>
      rw [Op.run, wp_bind]
      apply wp_mono (cowReadMapping_wp hl.wf hop)
      · rintro v w₁ ⟨rfl, hsame⟩
        rw [wp_pure]
        exact ⟨.of_same hl hsame, fun s hr => by rw [hr.entry _ hop]; rfl⟩
      · exact fun _ _ h _ _ => h.1 hl.filp
  | writeMapping pos val =>
      rw [Op.run, wp_bind]
      apply wp_mono (cowWriteMapping_wp hl.wf hop val)
      · exact fun _ w₁ hput => ⟨hput, fun _ _ => rfl⟩
      · exact fun _ _ h _ _ => h.1 hl.filp
  | writeCurrent block buf =>
      rw [Op.run, wp_bind]
      apply wp_mono (cowWriteCurrent_wp hl.wf hl.filp hl.placed hop)
      · intro _ w₁ h
        refine ⟨?_, fun _ _ => rfl⟩
        rw [Op.Step]
        split at h
        next hzero =>
          obtain ⟨w₂, hsame, hstored⟩ := h
          rw [if_pos hzero]
          exact ⟨w₂, .of_same hl hsame, hstored⟩
        next hne =>
          rw [if_neg hne]
          exact .of_same hl h
      · intro _ _ h hroom hfull
        exact h (hfull rfl) ((Nat.add_le_add_left (by decide : 4096 ≤ 2 ^ 22) _).trans_lt hroom)
  | modifyCacheSize cacheSize =>
      rw [Op.run, wp_bind]
      apply wp_mono (cowModifyCacheSize_wp cacheSize hl)
      · exact fun _ w₁ hsteady => ⟨hsteady, fun _ _ => rfl⟩
      · exact fun _ _ (h : False) => h.elim
  | closeReopen =>
      have h := closeReopen_wp hl
      rw [wp_bind] at h
      rw [Op.run, wp_bind]
      apply wp_mono h
      · intro _ w₁ h₁
        rw [wp_bind]
        apply wp_mono h₁
        · exact fun _ w₂ hsteady => ⟨hsteady, fun _ _ => rfl⟩
        · exact fun _ _ h hroom _ => h hroom
      · exact fun _ _ h hroom _ => h hroom

/-- One operation on the manager is one step of the array. -/
theorem step_refines {s : Plain} (op : Op) (hl : Live w) (hr : Refines w s)
    (hop : op.InRange w.cm.totalSects) (h : op.Step w w') :
    Live w' ∧ Refines w' (s.step op) ∧ Fixed w w' ∧
      w'.cm.currPos.toNat ≤ w.cm.currPos.toNat + if op.isCurrent then 1 else 0 := by
  have hcurr : ∀ n, Steady w w' → w'.cm.currPos.toNat ≤ w.cm.currPos.toNat + n := by
    intro n h
    rw [h.currPos]
    exact Nat.le_add_right _ _
  cases op with
  | writeMapping pos val => exact ⟨hl.of_put h, hr.put h, .of_put h, by rw [h.cm]; exact Nat.le_add_right _ _⟩
  | writeCurrent block buf =>
      rw [Op.Step] at h
      rw [Plain.step, ← hr.entry _ hop]
      split at h
      next hzero =>
        obtain ⟨w₁, h₁, hstored⟩ := h
        rw [if_pos hzero]
        exact ⟨h₁.live.of_stored hstored, (hr.steady h₁).stored hstored,
          (Fixed.of_steady h₁).trans (.of_stored hstored), by rw [hstored.next, h₁.currPos]; exact le_rfl⟩
      next hne =>
        rw [if_neg hne]
        exact ⟨h.live, hr.steady h, .of_steady h, hcurr _ h⟩
  | readMapping _ => exact ⟨h.live, hr.steady h, .of_steady h, hcurr _ h⟩
  | modifyCacheSize _ => exact ⟨h.live, hr.steady h, .of_steady h, hcurr _ h⟩
  | closeReopen => exact ⟨h.live, hr.steady h, .of_steady h, hcurr _ h⟩

/-- There is room for the blocks that a list of operations may store. -/
structure Ample (w : World) (ops : List Op) : Prop where
  room : 0 < ops.countP Op.isCurrent →
    (w.cm.currPos.toNat + ops.countP Op.isCurrent) * 4096 ≤ w.cm.fileMax.toNat
  long : (w.cm.currPos.toNat + ops.countP Op.isCurrent) * 4096 + 2 ^ 22 < 2 ^ 63

theorem Ample.roomy {ops : List Op} (h : Ample w ops) : Roomy w :=
  lt_of_le_of_lt (Nat.add_le_add_right (Nat.mul_le_mul_right _ (Nat.le_add_right _ _)) _) h.long

theorem Ample.tail {op : Op} {ops : List Op} (h : Ample w (op :: ops)) (hfixed : Fixed w w')
    (hcurr : w'.cm.currPos.toNat ≤ w.cm.currPos.toNat + if op.isCurrent then 1 else 0) :
    Ample w' ops := by
  have hle : w'.cm.currPos.toNat + ops.countP Op.isCurrent ≤
      w.cm.currPos.toNat + (op :: ops).countP Op.isCurrent := by
    rw [List.countP_cons]
    omega
  have hle' := Nat.mul_le_mul_right 4096 hle
  refine ⟨fun hpos => ?_, lt_of_le_of_lt (Nat.add_le_add_right hle' _) h.long⟩
  rw [hfixed.fileMax]
  exact hle'.trans (h.room (hpos.trans_le (by rw [List.countP_cons]; exact Nat.le_add_right _ _)))

def Steps (w : World) : List Op → World → Prop
  | [], w' => w' = w
  | op :: ops, w' => ∃ w₁, op.Step w w₁ ∧ Steps w₁ ops w'

/-- A run of operations is a run of the array. -/
theorem runOps_wp {s : Plain} (ops : List Op) (hl : Live w) (hr : Refines w s)
    (hops : ∀ op ∈ ops, op.InRange w.cm.totalSects) :
    wp (runOps ops) w
      (fun outs w' => outs = s.outputs ops ∧ Live w' ∧ Refines w' (s.run ops) ∧ Fixed w w' ∧ Steps w ops w')
      (fun _ _ => Ample w ops → ¬ w.env.Faultless) := by
  induction ops generalizing w s with
  | nil =>
      rw [runOps, wp_pure]
      exact ⟨rfl, hl, hr, .refl w, rfl⟩
  | cons op ops ih =>
      simp only [runOps, wp_bind]
      apply wp_mono (op_wp op hl (hops op (by simp)))
      · rintro out w₁ ⟨hstep, hout⟩
        obtain ⟨hl₁, hr₁, hfixed, hcurr⟩ := step_refines op hl hr (hops op (by simp)) hstep
        apply wp_mono (ih hl₁ hr₁ (fun o ho => by rw [hfixed.totalSects]; exact hops o (by simp [ho])))
        · rintro outs w₂ ⟨rfl, hl₂, hr₂, hfixed₂, hsteps₂⟩
          rw [wp_pure, hout s hr]
          exact ⟨rfl, hl₂, hr₂, hfixed.trans hfixed₂, w₁, hstep, hsteps₂⟩
        · intro _ _ h hample
          rw [← hfixed.env]
          exact h (hample.tail hfixed hcurr)
      · intro _ _ h hample
        refine h hample.roomy (fun hop => ?_)
        have hroom := hample.room (by rw [List.countP_cons, if_pos hop]; omega)
        rw [List.countP_cons, if_pos hop] at hroom
        omega

def Plain.empty (next : UInt64) : Plain := ⟨fun _ => 0, next⟩

theorem refines_started {elements fileMax seqid : UInt64} {uuid : Fin 16 → UInt8}
    (h : Started elements fileMax seqid uuid w) : Refines w (.empty w.cm.currPos) where
  entry := by
    intro pos _
    rw [indexAt, h.empty]
    rfl
  next := rfl

/-- The cached index is an array of mappings that starts out zero: whatever was cached,
evicted, written back or reopened on the way, a mapping read is the one last written. -/
theorem cow_index_refines_array {elements fileMax seqid : UInt64} {cacheSize : Nat}
    {uuid : Fin 16 → UInt8} (hinit : cowInit 12 elements 4096 cacheSize fileMax uuid seqid w = .ok () w')
    (ops : List Op) (hops : ∀ op ∈ ops, op.InRange w'.cm.totalSects) :
    (∀ outs w'', runOps ops w' = .ok outs w'' → outs = (Plain.empty w'.cm.currPos).outputs ops) ∧
      ((∀ op ∈ ops, op.isCurrent = false) → w'.env.Faultless →
        ∃ w'', runOps ops w' = .ok ((Plain.empty w'.cm.currPos).outputs ops) w'') := by
  obtain ⟨hstarted, -⟩ := wp_ok (cowInit_wp elements fileMax seqid cacheSize uuid) hinit
  have hrun := runOps_wp ops (.of_started hstarted) (refines_started hstarted) hops
  refine ⟨fun outs w'' hok => (wp_ok hrun hok).1, fun hcurr hn => ?_⟩
  cases hrest : runOps ops w' with
  | ok outs w'' => exact ⟨w'', by rw [(wp_ok hrun hrest).1]⟩
  | error e w'' =>
      have hzero : ops.countP Op.isCurrent = 0 := by simpa [List.countP_eq_zero] using hcurr
      have hample : Ample w' ops := ⟨by omega, by rw [hzero]; exact hstarted.roomy⟩
      exact (wp_error hrun hrest hample hn).elim

/-- A device of three sections without a cache, closed and reopened between its reads. -/
theorem cow_index_refines_array_example : ∃ w₁ w₂,
    cowInit 12 10000 4096 0 1048576 (fun _ => 0) 1 calm = .ok () w₁ ∧
      runOps [.writeMapping 5 7, .writeMapping 4100 9, .modifyCacheSize 100000, .readMapping 5,
        .closeReopen, .readMapping 4100, .readMapping 6] w₁ = .ok [7, 9, 0] w₂ := by
  obtain ⟨w₁, hinit, hstarted, henv⟩ := cowInit_total (w := calm) 10000 1048576 1 0 (fun _ => 0)
    (by rw [sectionTotal_eq]; decide) (by decide) (by decide) calm_faultless
  have htotal : w₁.cm.totalSects = 3 := by rw [hstarted.total, sectionTotal_eq]; decide
  obtain ⟨w₂, hrun⟩ := (cow_index_refines_array hinit
    [.writeMapping 5 7, .writeMapping 4100 9, .modifyCacheSize 100000, .readMapping 5,
      .closeReopen, .readMapping 4100, .readMapping 6]
    (by rw [htotal]; simp [Op.InRange])).2 (by simp [Op.isCurrent]) (by rw [henv]; exact calm_faultless)
  exact ⟨w₁, w₂, hinit, hrun⟩

end ElastioSnap.Cow.Index
