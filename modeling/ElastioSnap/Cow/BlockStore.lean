import ElastioSnap.Cow.Index

namespace ElastioSnap.Cow.BlockStore

open Lib.Bytes Lib.Outcome Manager FileIo Section Lifecycle Mapping Sealing Data Start Reopen Index

def Op.isStore : Op → Bool
  | .readMapping _ => true
  | .writeCurrent _ _ => true
  | .modifyCacheSize _ => true
  | _ => false

/-- What the store is for: it keeps what a block held when it was first written. -/
def firstWrite : List Op → Nat → Option (Nat → UInt8)
  | [], _ => none
  | .writeCurrent block buf :: ops, b => if b = block.toNat then some buf else firstWrite ops b
  | _ :: ops, b => firstWrite ops b

theorem firstWrite_cons (op : Op) (ops : List Op) (b : Nat) :
    firstWrite (op :: ops) b = (firstWrite [op] b).or (firstWrite ops b) := by
  cases op with
  | writeCurrent block buf =>
      simp only [firstWrite]
      split <;> rfl
  | _ => rfl

variable {w w' : World} {first : Nat → Option (Nat → UInt8)}

/-- A position of the file that holds a block, between the index and the next position. -/
structure Holds (w : World) (pos : UInt64) (buf : Nat → UInt8) : Prop where
  above : w.cm.dataOffset ≤ pos.toNat * 4096
  below : pos.toNat < w.cm.currPos.toNat
  allotted : (pos.toNat + 1) * 4096 ≤ w.cm.fileMax.toNat
  size : (pos.toNat + 1) * 4096 ≤ w.file.size
  data : ∀ p, p < 4096 → w.file.bytes (pos.toNat * 4096 + p) = buf p

structure Store (w : World) (first : Nat → Option (Nat → UInt8)) : Prop where
  live : Live w
  aligned : w.cm.fileMax.toNat % 4096 = 0
  unmapped : ∀ b, b < 4096 * w.cm.totalSects → first b = none → indexAt w b = 0
  mapped : ∀ b buf, b < 4096 * w.cm.totalSects → first b = some buf → Holds w (indexAt w b) buf
  fresh : ∀ b b', b < 4096 * w.cm.totalSects → b' < 4096 * w.cm.totalSects → b ≠ b' →
    indexAt w b ≠ 0 → indexAt w b ≠ indexAt w b'

theorem Holds.ne_zero {pos : UInt64} {buf : Nat → UInt8} (hwf : Wf w) (h : Holds w pos buf) : pos ≠ 0 := by
  rintro rfl
  have ha := h.above
  rw [hwf.dataOffset, show (0 : UInt64).toNat = 0 from rfl] at ha
  omega

theorem Holds.steady {pos : UInt64} {buf : Nat → UInt8} (h : Holds w pos buf) (hs : Steady w w') :
    Holds w' pos buf where
  above := by rw [hs.dataOffset]; exact h.above
  below := by rw [hs.currPos]; exact h.below
  allotted := by rw [hs.fileMax]; exact h.allotted
  size := h.size.trans hs.size
  data := by
    intro p hp
    have ha := h.above
    have hb := h.below
    rw [hs.data _ (ha.trans (Nat.le_add_right _ _)) (by grind)]
    exact h.data p hp

theorem Store.steady (h : Store w first) (hs : Steady w w') : Store w' first where
  live := hs.live
  aligned := by rw [hs.fileMax]; exact h.aligned
  unmapped := by
    intro b hb hn
    rw [hs.totalSects] at hb
    rw [hs.index b hb]
    exact h.unmapped b hb hn
  mapped := by
    intro b buf hb hm
    rw [hs.totalSects] at hb
    rw [hs.index b hb]
    exact (h.mapped b buf hb hm).steady hs
  fresh := by
    intro b b' hb hb' hne
    rw [hs.totalSects] at hb hb'
    rw [hs.index b hb, hs.index b' hb']
    exact h.fresh b b' hb hb' hne

theorem Holds.stored {pos block : UInt64} {buf buf' : Nat → UInt8} (hwf : Wf w) (h : Holds w pos buf)
    (hs : Stored w w' block buf') : Holds w' pos buf where
  above := by rw [hs.cm]; exact h.above
  below := by
    have hb := h.below
    rw [hs.next]
    omega
  allotted := by rw [hs.cm]; exact h.allotted
  size := h.size.trans hs.size
  data := by
    intro p hp
    have ha := h.above
    have hb := h.below
    rw [hwf.dataOffset] at ha
    rw [hs.others _ (ha.trans (Nat.le_add_right _ _)) (.inl (by grind))]
    exact h.data p hp

theorem Store.stored {block : UInt64} {buf : Nat → UInt8} (h : Store w first)
    (hzero : indexAt w block.toNat = 0) (hs : Stored w w' block buf) :
    Store w' (fun b => (first b).or (if b = block.toNat then some buf else none)) where
  live := h.live.of_stored hs
  aligned := by rw [hs.cm]; exact h.aligned
  unmapped := by
    intro b hb hn
    rw [hs.cm] at hb
    rw [Option.or_eq_none_iff] at hn
    rw [hs.index b hb, if_neg (by intro hbb; simp [hbb] at hn)]
    exact h.unmapped b hb hn.1
  mapped := by
    intro b buf' hb hm
    rw [hs.cm] at hb
    rw [hs.index b hb]
    by_cases hbb : b = block.toNat
    · have hnone : first b = none := by
        cases hf : first b with
        | none => rfl
        | some buf'' =>
            have hne := (h.mapped b buf'' hb hf).ne_zero h.live.wf
            rw [hbb, hzero] at hne
            exact (hne rfl).elim
      rw [hnone, Option.none_or, if_pos hbb] at hm
      cases hm
      rw [if_pos hbb]
      have hroom := hs.room
      have halign := h.aligned
      refine ⟨?_, ?_, ?_, ?_, hs.stored⟩
      · rw [hs.cm]
        exact h.live.placed.above
      · rw [hs.next]
        omega
      · rw [hs.cm]
        dsimp only
        omega
      · rw [Nat.add_mul, Nat.one_mul]
        exact hs.reach
    · rw [if_neg hbb, Option.or_none] at hm
      rw [if_neg hbb]
      exact (h.mapped b buf' hb hm).stored h.live.wf hs
  fresh := by
    intro b b' hb hb' hne
    rw [hs.cm] at hb hb'
    rw [hs.index b hb, hs.index b' hb']
    -- an entry made earlier is below the position that is mapped now
    have hold : ∀ c, c < 4096 * w.cm.totalSects → indexAt w c ≠ w.cm.currPos := by
      intro c hc hcurr
      cases hf : first c with
      | none =>
          have ha := h.live.placed.above
          rw [h.unmapped c hc hf] at hcurr
          rw [h.live.wf.dataOffset, ← hcurr, show (0 : UInt64).toNat = 0 from rfl] at ha
          omega
      | some buf' =>
          have hb := (h.mapped c buf' hc hf).below
          rw [hcurr] at hb
          omega
    by_cases hbb : b = block.toNat
    · rw [if_pos hbb, if_neg (by omega)]
      exact fun _ heq => hold b' hb' heq.symm
    · rw [if_neg hbb]
      by_cases hbb' : b' = block.toNat
      · rw [if_pos hbb']
        exact fun _ => hold b hb
      · rw [if_neg hbb']
        exact h.fresh b b' hb hb' hne

theorem Store.congr {first' : Nat → Option (Nat → UInt8)} (h : Store w first)
    (heq : ∀ b, b < 4096 * w.cm.totalSects → first' b = first b) : Store w first' where
  live := h.live
  aligned := h.aligned
  unmapped := fun b hb hn => h.unmapped b hb (by rw [← heq b hb]; exact hn)
  mapped := fun b buf hb hm => h.mapped b buf hb (by rw [← heq b hb]; exact hm)
  fresh := h.fresh

theorem Store.step (op : Op) (hstore : Op.isStore op = true) (h : Store w first)
    (hop : op.InRange w.cm.totalSects) (hs : op.Step w w') :
    Store w' (fun b => (first b).or (firstWrite [op] b)) := by
  cases op with
  | writeCurrent block buf =>
      rw [Op.Step] at hs
      split at hs
      next hzero =>
        obtain ⟨w₁, h₁, hstored⟩ := hs
        exact (h.steady h₁).stored (by rw [h₁.index _ hop]; exact hzero) hstored
      next hne =>
        refine (h.steady hs).congr (fun b hb => ?_)
        rw [hs.totalSects] at hb
        cases hf : first b with
        | some buf' => rfl
        | none =>
            have hbb : b ≠ block.toNat := by
              rintro rfl
              exact hne (h.unmapped _ hb hf)
            simp [firstWrite, hbb]
  | writeMapping _ _ => cases hstore
  | closeReopen => cases hstore
  | readMapping _ => exact (h.steady hs).congr (fun b _ => by simp [firstWrite])
  | modifyCacheSize _ => exact (h.steady hs).congr (fun b _ => by simp [firstWrite])

theorem Store.steps (ops : List Op) (hops : ∀ op ∈ ops, op.InRange w.cm.totalSects ∧ Op.isStore op = true)
    (h : Store w first) (hs : Steps w ops w') : Store w' (fun b => (first b).or (firstWrite ops b)) := by
  induction ops generalizing w first with
  | nil =>
      cases hs
      exact h.congr (fun b _ => Option.or_none)
  | cons op ops ih =>
      obtain ⟨w₁, hstep, hrest⟩ := hs
      obtain ⟨hop, hkind⟩ := hops op (by simp)
      have hr : Refines w ⟨indexAt w, w.cm.currPos⟩ := ⟨fun _ _ => rfl, rfl⟩
      have htotal : w₁.cm.totalSects = w.cm.totalSects :=
        (step_refines op h.live hr hop hstep).2.2.1.totalSects
      have hall := ih (fun o ho => by rw [htotal]; exact hops o (by simp [ho]))
        (h.step op hkind hop hstep) hrest
      refine hall.congr (fun b _ => ?_)
      rw [firstWrite_cons op ops b, Option.or_assoc]

theorem Store.of_started {elements fileMax seqid : UInt64} {uuid : Fin 16 → UInt8}
    (h : Started elements fileMax seqid uuid w) (halign : fileMax.toNat % 4096 = 0) :
    Store w (fun _ => none) where
  live := .of_started h
  aligned := by rw [h.fileMax]; exact halign
  unmapped := fun b hb _ => (refines_started h).entry b hb
  mapped := fun _ _ _ hm => by cases hm
  fresh := fun b _ hb _ _ hne => (hne ((refines_started h).entry b hb)).elim

/-- Whatever is written to a block later, or to others, the store keeps what the block held
at first, at a position of its own past the index and within the allotted file. -/
theorem first_write_wins {elements fileMax seqid : UInt64} {cacheSize : Nat} {uuid : Fin 16 → UInt8}
    {w₀ w₁ w₂ : World} {ops : List Op} {outs : List UInt64} {b p : UInt64}
    (hinit : cowInit 12 elements 4096 cacheSize fileMax uuid seqid w = .ok () w₀)
    (halign : fileMax.toNat % 4096 = 0)
    (hops : ∀ op ∈ ops, op.InRange w₀.cm.totalSects ∧ Op.isStore op = true)
    (hrun : runOps ops w₀ = .ok outs w₁) (hb : b.toNat < 4096 * w₀.cm.totalSects)
    (hread : cowReadMapping 12 b w₁ = .ok p w₂) :
    match firstWrite ops b.toNat with
    | none => p = 0
    | some buf => p ≠ 0 ∧ w₁.cm.dataOffset ≤ p.toNat * 4096 ∧ p.toNat < w₁.cm.currPos.toNat ∧
        (p.toNat + 1) * 4096 ≤ w₁.cm.fileMax.toNat ∧
        (∀ b' p' w₃, b'.toNat < 4096 * w₀.cm.totalSects → b' ≠ b →
          cowReadMapping 12 b' w₁ = .ok p' w₃ → p' ≠ p) ∧
        ∀ off got w₃, cowReadData 12 p off w₂ = .ok got w₃ →
          ∀ k, off + k < 4096 → got k = buf (off + k) := by
  obtain ⟨hstarted, -⟩ := wp_ok (cowInit_wp elements fileMax seqid cacheSize uuid) hinit
  obtain ⟨-, hl, -, hfixed, hsteps⟩ := wp_ok (runOps_wp ops (.of_started hstarted)
    (refines_started hstarted) (fun op hop => (hops op hop).1)) hrun
  have hstore := (Store.of_started hstarted halign).steps ops hops hsteps
  simp only [Option.none_or] at hstore
  rw [← hfixed.totalSects] at hb
  obtain ⟨rfl, hsame⟩ := wp_ok (cowReadMapping_wp hl.wf hb) hread
  cases hfirst : firstWrite ops b.toNat with
  | none => exact hstore.unmapped _ hb hfirst
  | some buf =>
      have hholds := hstore.mapped _ buf hb hfirst
      have hne := hholds.ne_zero hl.wf
      refine ⟨hne, hholds.above, hholds.below, hholds.allotted, ?_, ?_⟩
      · rintro b' p' w₃ hb' hbb hread'
        rw [← hfixed.totalSects] at hb'
        obtain ⟨rfl, -⟩ := wp_ok (cowReadMapping_wp hl.wf hb') hread'
        exact (hstore.fresh _ _ hb hb' (fun h => hbb (UInt64.toNat_inj.mp h.symm)) hne).symm
      · intro off got w₃ hdata k hk
        have hsteady := Steady.of_same hl hsame
        have hholds₂ := hholds.steady hsteady
        have hmax := w₂.cm.fileMax.toNat_lt
        have hfits := hholds₂.allotted
        obtain ⟨-, hgot⟩ := wp_ok (cowReadData_wp hsteady.live.filp (by omega)
          (by rw [← Nat.succ_mul]; exact hholds₂.size) (by omega)) hdata
        rw [hgot k hk]
        exact hholds₂.data _ hk

/-- Two blocks of a device with one section; the first is written twice. -/
theorem first_write_wins_example : ∃ w₀ w₁ w₂ p,
    cowInit 12 16 4096 0 1048576 (fun _ => 0) 1 calm = .ok () w₀ ∧
      runOps [.writeCurrent 3 (fun _ => 7), .writeCurrent 5 (fun _ => 8),
        .writeCurrent 3 (fun _ => 9)] w₀ = .ok [] w₁ ∧
      cowReadMapping 12 3 w₁ = .ok p w₂ ∧ p ≠ 0 ∧
      ∀ got w₃, cowReadData 12 p 1 w₂ = .ok got w₃ → got 0 = 7 := by
  obtain ⟨w₀, hinit, hstarted, henv⟩ := cowInit_total (w := calm) 16 1048576 1 0 (fun _ => 0)
    (by rw [sectionTotal_eq]; decide) (by decide) (by decide) calm_faultless
  have htotal : w₀.cm.totalSects = 1 := by rw [hstarted.total, sectionTotal_eq]; decide
  have hcurr : w₀.cm.currPos.toNat = 9 := by
    have h := hstarted.next
    rw [hstarted.wf.dataOffset, htotal] at h
    omega
  set ops : List Op := [.writeCurrent 3 (fun _ => 7), .writeCurrent 5 (fun _ => 8),
    .writeCurrent 3 (fun _ => 9)] with hops
  have hample : Ample w₀ ops := by
    refine ⟨fun _ => ?_, ?_⟩
    · rw [hcurr, hstarted.fileMax]
      decide
    · rw [hcurr]
      decide
  have hrange : ∀ op ∈ ops, op.InRange w₀.cm.totalSects ∧ Op.isStore op = true := by
    rw [htotal]
    simp [hops, Op.InRange, Op.isStore]
  have hwp := runOps_wp ops (.of_started hstarted) (refines_started hstarted)
    (fun op hop => (hrange op hop).1)
  obtain ⟨outs, w₁, hrun, hpost⟩ := wp_total (wp_mono hwp (fun _ _ h => h)
    (fun _ _ h => h hample (by rw [henv]; exact calm_faultless)))
  obtain ⟨houts, hl, -, hfixed, -⟩ := hpost
  have hb : (3 : UInt64).toNat < 4096 * w₁.cm.totalSects := by
    rw [hfixed.totalSects, htotal]
    decide
  obtain ⟨p, w₂, hread, -⟩ := wp_total (wp_mono (cowReadMapping_wp hl.wf hb) (fun _ _ h => h)
    (fun _ _ h => h.1 hl.filp (by rw [hfixed.env, henv]; exact calm_faultless)))
  have hall := first_write_wins hinit (by decide) hrange hrun (by rw [htotal]; decide) hread
  obtain ⟨hne, -, -, -, -, hdata⟩ := hall
  refine ⟨w₀, w₁, w₂, p, hinit, by rw [hrun, houts]; rfl, hread, hne, ?_⟩
  exact fun got w₃ hgot => hdata 1 got w₃ hgot 0 (by decide)

end ElastioSnap.Cow.BlockStore
