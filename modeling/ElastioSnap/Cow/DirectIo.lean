import ElastioSnap.Cow.FileIo

namespace ElastioSnap.Cow.DirectIo

open Lib.Bytes Lib.Outcome Manager FileIo

def InExtent (e : Extent) (p : Nat) : Prop := e.logical ≤ p ∧ p < e.logical + e.length

def extentAddress (e : Extent) (p : Nat) : Nat := e.physical + (p - e.logical)

/-- The extents of a file, in any order. Their ends are 64-bit offsets, and so no sum wraps that is formed on
the way through a covered range. -/
structure FileExtents (exts : List Extent) : Prop where
  aligned : ∀ e ∈ exts, 512 ∣ e.logical ∧ 512 ∣ e.physical ∧ 512 ∣ e.length
  ends : ∀ e ∈ exts, e.logical + e.length < 2 ^ 64 ∧ e.physical + e.length < 2 ^ 64
  logical : ∀ e ∈ exts, ∀ e' ∈ exts, ∀ p, InExtent e p → InExtent e' p → e = e'
  physical : ∀ e ∈ exts, ∀ e' ∈ exts, ∀ p p', InExtent e p → InExtent e' p' →
    extentAddress e p = extentAddress e' p' → e = e'

/-- The sectors of the device, and the buffer of the caller. -/
structure Memory where
  sectors : Nat → Nat → UInt8
  buf : Nat → UInt8

/-- The answers to the calls made for the bios by the number of the call: whether it fails. -/
structure Io where
  mem : Memory
  fault : Nat → Option Errno
  clock : Nat

/-- A call returns an error code, follows a pointer that leads nowhere, or has not come to its end after the
rounds that were allowed. -/
inductive Stop
  | code (e : Errno)
  | crash
  | unfinished

abbrev IoM := EStateM Stop Io

/-- What a local variable points to. One that was not set yet, or of which the object was freed, is stale
unless it happens to be null. -/
inductive Pointer
  | null
  | valid
  | stale
  deriving DecidableEq

/-- The label `out`: a bio that is left is freed, and its page through `pg`. -/
def out {α : Type} (newBio pg : Pointer) (ret : Errno) : IoM α :=
  match newBio, pg with
  | .null, _ => throw (.code ret)
  | .valid, .valid => throw (.code ret)
  | _, _ => throw .crash

/-- One call that goes to `out` where it fails. -/
def call (newBio pg : Pointer) (ret : Errno → Errno) : IoM Unit := fun d =>
  match d.fault d.clock with
  | none => .ok () { d with clock := d.clock + 1 }
  | some e => out newBio pg (ret e) { d with clock := d.clock + 1 }

def bioAlloc : IoM Unit := call .null .stale fun _ => .enomem

def allocPage : IoM Unit := call .valid .null fun _ => .enomem

def submitBioWait : IoM Unit := call .valid .valid id

/-- The rounds of the two functions. Each takes the sectors that follow one another on the device, with a bio
of one page, and ends with no bio left. The branch in which `bio_add_page` takes fewer bytes is left out: a new bio
has room for one page, and no more than that is added to it. -/
def blockIo (ps : Nat) (exts : List Extent) (transfer : Nat → Nat → Nat → Memory → Memory) :
    Nat → Nat → Nat → Nat → Pointer → IoM Unit
  | 0, _, _, _, _ => throw .unfinished
  | fuel + 1, left, offset, sectorsProcessed, newBio =>
      match sectorByOffset exts offset with
      | none => out newBio .stale .efault
      | some startSect => do
          bioAlloc
          allocPage
          let n := iterationsDone exts startSect left offset 0
          if sectorsPerBlock ps < n then
            throw .crash
          submitBioWait
          modify fun d => { d with mem := transfer startSect n sectorsProcessed d.mem }
          if n = left then
            pure ()
          else
            blockIo ps exts transfer fuel (left - n) (offset + n * sectorSize) (sectorsProcessed + n) .null

def writeSectors (startSect n sectorsProcessed : Nat) (m : Memory) : Memory :=
  { m with sectors := fun s b =>
      if startSect ≤ s ∧ s < startSect + n then m.buf ((sectorsProcessed + (s - startSect)) * sectorSize + b)
      else m.sectors s b }

def readSectors (startSect n sectorsProcessed : Nat) (m : Memory) : Memory :=
  { m with buf := splice m.buf (sectorsProcessed * sectorSize) (n * sectorSize) fun p =>
      m.sectors (startSect + p / sectorSize) (p % sectorSize) }

/-- `newBio` is what the uninitialised variable holds. -/
def fileWriteBlock (ps : Nat) (exts : List Extent) (newBio : Pointer) (offset len : Nat) : IoM Unit :=
  blockIo ps exts writeSectors len len offset 0 newBio

def fileReadBlock (ps : Nat) (exts : List Extent) (newBio : Pointer) (offset len : Nat) : IoM Unit :=
  blockIo ps exts readSectors len len offset 0 newBio

variable {ps offset len left start n done fuel s p q : Nat} {exts : List Extent} {newBio pg : Pointer} {d : Io}
  {transfer : Nat → Nat → Nat → Memory → Memory} {m m' : Memory}

theorem sectorByOffset_some (h : sectorByOffset exts p = some s) :
    ∃ e ∈ exts, InExtent e p ∧ s = extentAddress e p / 512 := by
  obtain ⟨e, he, hs⟩ := Option.map_eq_some_iff.mp h
  have hin := List.find?_some he
  exact ⟨e, List.mem_of_find?_eq_some he, by simpa only [InExtent, decide_eq_true_eq] using hin, hs.symm⟩

/-- No two sectors of the file lie in one sector of the device. -/
theorem sectorByOffset_inj (hx : FileExtents exts) (hp : sectorByOffset exts p = some s)
    (hq : sectorByOffset exts q = some s) : p / 512 = q / 512 := by
  obtain ⟨e, he, hep, rfl⟩ := sectorByOffset_some hp
  obtain ⟨e', he', heq, hs⟩ := sectorByOffset_some hq
  obtain ⟨hl, hph, hlen⟩ := hx.aligned e he
  obtain ⟨hl', hph', hlen'⟩ := hx.aligned e' he'
  simp only [InExtent, extentAddress] at hep heq hs
  -- the first bytes of the two sectors have one address
  have hsame : e = e' := by
    refine hx.physical e he e' he' (p / 512 * 512) (q / 512 * 512) ?_ ?_ ?_
    · simp only [InExtent]
      omega
    · simp only [InExtent]
      omega
    · simp only [extentAddress]
      omega
  subst hsame
  omega

theorem iterationsDone_run (hs : sectorByOffset exts offset = some (start + done)) {k : Nat}
    (hk : k < iterationsDone exts start left offset done - done) :
    sectorByOffset exts (offset + k * 512) = some (start + done + k) := by
  induction left generalizing offset done k with
  | zero =>
      rw [iterationsDone] at hk
      omega
  | succ left ih =>
      cases k with
      | zero => rwa [Nat.zero_mul, Nat.add_zero, Nat.add_zero]
      | succ k =>
          rw [iterationsDone] at hk
          split at hk
          next hc =>
            have h := ih hc.2 (k := k) (by omega)
            rw [sectorSize] at h
            rw [show offset + (k + 1) * 512 = offset + 512 + k * 512 by omega, h]
            congr 1
            omega
          next => omega

/-- Every sector of a range lies in some extent. -/
def Covers (exts : List Extent) (offset len : Nat) : Prop :=
  ∀ k, k < len → (sectorByOffset exts (offset + k * 512)).isSome

def Io.Faultless (d : Io) : Prop := ∀ n, d.fault n = none

theorem wp_call {Q : Unit → Io → Prop} {E : Stop → Io → Prop} {ret : Errno → Errno}
    (hok : d.fault d.clock = none → Q () { d with clock := d.clock + 1 })
    (herr : ∀ e, d.fault d.clock = some e →
      wp (out newBio pg (ret e)) { d with clock := d.clock + 1 } Q E) : wp (call newBio pg ret) d Q E := by
  unfold wp call
  cases h : d.fault d.clock with
  | none => exact hok h
  | some e => exact herr e h

/-- What holds of the memory after so many sectors holds at the end, where each round carries it on. -/
theorem blockIo_covered (newBio : Pointer) {I : Nat → Memory → Prop}
    (hstep : ∀ start n done m, done + n ≤ len →
      (∀ k, k < n → sectorByOffset exts (offset + (done + k) * 512) = some (start + k)) →
      I done m → I (done + n) (transfer start n done m))
    (hps : len ≤ sectorsPerBlock ps) (hcov : Covers exts offset len) (hpos : 0 < left) (hfuel : left ≤ fuel)
    (hlen : done + left = len) (hf : d.Faultless) (hi : I done d.mem) :
    wp (blockIo ps exts transfer fuel left (offset + done * 512) done newBio) d
      (fun _ d' => I len d'.mem ∧ d'.fault = d.fault) (fun _ _ => False) := by
  induction fuel generalizing left done newBio d with
  | zero => omega
  | succ fuel ih =>
      rw [blockIo]
      have hc := hcov done (by omega)
      cases hs : sectorByOffset exts (offset + done * 512) with
      | none =>
          rw [hs] at hc
          cases hc
      | some start =>
          obtain ⟨hlo, hhi⟩ := iterationsDone_bounds exts start left (offset + done * 512) 0 hpos
          have hrun := @iterationsDone_run (offset + done * 512) left start 0 exts hs
          simp only [wp_bind, wp_ite, wp_pure, wp_throw, wp_modify]
          generalize iterationsDone exts start left (offset + done * 512) 0 = n at hlo hhi hrun ⊢
          refine wp_call (fun _ => wp_call (fun _ => ?_) fun e he => ?_) fun e he => ?_
          · rw [if_neg (by omega)]
            refine wp_call (fun _ => ?_) fun e he => ?_
            · have hnext : I (done + n) (transfer start n done d.mem) := by
                refine hstep start n done d.mem (by omega) (fun k hk => ?_) hi
                rw [Nat.add_mul, ← Nat.add_assoc]
                exact hrun (k := k) (by omega)
              split
              next hn =>
                subst hn
                rw [hlen] at hnext
                exact ⟨hnext, rfl⟩
              next hn =>
                have h := @ih (left - n) (done + n)
                  { d with mem := transfer start n done d.mem, clock := d.clock + 1 + 1 + 1 } .null
                  (by omega) (by omega) (by omega) hf hnext
                rw [Nat.add_mul, ← Nat.add_assoc] at h
                exact h
            · rw [hf] at he
              cases he
          · rw [hf] at he
            cases he
          · rw [hf] at he
            cases he

/-- The bios that a call gets to work on before a sector is not covered. -/
def bios (exts : List Extent) : Nat → Nat → Nat → Nat
  | 0, _, _ => 0
  | fuel + 1, left, offset =>
      match sectorByOffset exts offset with
      | none => 0
      | some startSect =>
          let n := iterationsDone exts startSect left offset 0
          bios exts fuel (left - n) (offset + n * sectorSize) + 1

/-- Of the calls made for so many bios the first that fails, if any, is not one for a page. -/
def PagesSpared (d : Io) (bios : Nat) : Prop :=
  ∀ i, i < bios → (∀ k, k < 3 * i + 1 → d.fault (d.clock + k) = none) → d.fault (d.clock + (3 * i + 1)) = none

/-- What a range of a file is to the device: the parts of the buffer are found in the sectors to which the
extents map them. -/
def Holds (exts : List Extent) (offset : Nat) (m : Memory) (len : Nat) (buf : Nat → UInt8) : Prop :=
  ∀ k s b, k < len → b < 512 → sectorByOffset exts (offset + k * 512) = some s →
    m.sectors s b = buf (k * 512 + b)

/-- A sector of the device is none of those of a range. -/
def Beside (exts : List Extent) (offset len s : Nat) : Prop :=
  ∀ k, k < len → sectorByOffset exts (offset + k * 512) ≠ some s

theorem writeSectors_step (hx : FileExtents exts)
    (hrun : ∀ k, k < n → sectorByOffset exts (offset + (done + k) * 512) = some (start + k)) {m₀ : Memory}
    (h : m.buf = m₀.buf ∧ Holds exts offset m done m₀.buf ∧
      ∀ s, Beside exts offset done s → m.sectors s = m₀.sectors s) :
    (writeSectors start n done m).buf = m₀.buf ∧ Holds exts offset (writeSectors start n done m) (done + n) m₀.buf ∧
      ∀ s, Beside exts offset (done + n) s → (writeSectors start n done m).sectors s = m₀.sectors s := by
  obtain ⟨hbuf, hold, hbeside⟩ := h
  refine ⟨hbuf, fun k s b hk hb hs => ?_, fun s hs => ?_⟩
  · simp only [writeSectors]
    by_cases hkd : k < done
    · rw [if_neg, hold k s b hkd hb hs]
      intro hin
      have hmine := hrun (s - start) (by omega)
      rw [show start + (s - start) = s by omega] at hmine
      have := sectorByOffset_inj hx hs hmine
      omega
    · have hmine := hrun (k - done) (by omega)
      rw [show done + (k - done) = k by omega, hs] at hmine
      obtain rfl := Option.some.inj hmine
      rw [if_pos (by omega), hbuf, Nat.add_sub_cancel_left, show done + (k - done) = k by omega]
  · funext b
    simp only [writeSectors]
    rw [if_neg, hbeside s fun k hk => hs k (by omega)]
    intro hin
    refine hs (done + (s - start)) (by omega) ?_
    rw [hrun (s - start) (by omega), show start + (s - start) = s by omega]

theorem readSectors_step
    (hrun : ∀ k, k < n → sectorByOffset exts (offset + (done + k) * 512) = some (start + k)) {m₀ : Memory}
    (h : m.sectors = m₀.sectors ∧ Holds exts offset m₀ done m.buf) :
    (readSectors start n done m).sectors = m₀.sectors ∧
      Holds exts offset m₀ (done + n) (readSectors start n done m).buf := by
  obtain ⟨hsectors, hold⟩ := h
  refine ⟨hsectors, fun k s b hk hb hs => ?_⟩
  simp only [readSectors, sectorSize]
  by_cases hkd : k < done
  · rw [splice_outside _ _ (by omega), hold k s b hkd hb hs]
  · have hmine := hrun (k - done) (by omega)
    rw [show done + (k - done) = k by omega, hs] at hmine
    obtain rfl := Option.some.inj hmine
    rw [show k * 512 + b = done * 512 + ((k - done) * 512 + b) by omega, splice_inside _ _ (by omega), hsectors]
    congr 1 <;> omega

theorem fileWriteBlock_covered (hx : FileExtents exts) (hps : len ≤ sectorsPerBlock ps)
    (hcov : Covers exts offset len) (hpos : 0 < len) (hf : d.Faultless) :
    wp (fileWriteBlock ps exts newBio offset len) d
      (fun _ d' => Holds exts offset d'.mem len d.mem.buf ∧
        (∀ s, Beside exts offset len s → d'.mem.sectors s = d.mem.sectors s) ∧ d'.fault = d.fault)
      (fun _ _ => False) := by
  have hstep := fun start n done m (_ : done + n ≤ len) hrun =>
    @writeSectors_step offset start n done exts m hx hrun d.mem
  have h := blockIo_covered newBio hstep hps hcov hpos (Nat.le_refl _) (Nat.zero_add _) hf
    ⟨rfl, fun k _ _ hk => (by omega), fun _ _ => rfl⟩
  rw [Nat.zero_mul, Nat.add_zero] at h
  exact wp_mono h (fun _ _ h => ⟨h.1.2.1, h.1.2.2, h.2⟩) fun _ _ h => h

theorem fileReadBlock_covered (newBio : Pointer) (hps : len ≤ sectorsPerBlock ps)
    (hcov : Covers exts offset len) (hpos : 0 < len) (hf : d.Faultless) :
    wp (fileReadBlock ps exts newBio offset len) d
      (fun _ d' => d'.mem.sectors = d.mem.sectors ∧ Holds exts offset d.mem len d'.mem.buf) (fun _ _ => False) := by
  have hstep := fun start n done m (_ : done + n ≤ len) hrun =>
    @readSectors_step offset start n done exts m hrun d.mem
  have h := blockIo_covered newBio hstep hps hcov hpos (Nat.le_refl _) (Nat.zero_add _) hf
    ⟨rfl, fun k _ _ hk => (by omega)⟩
  rw [Nat.zero_mul, Nat.add_zero] at h
  exact wp_mono h (fun _ _ h => h.1) fun _ _ h => h

/-- A computation stops with an error code. -/
def Reports (x : IoM Unit) (d : Io) : Prop := ∃ e d', x d = .error (.code e) d'

theorem reports_iff {x : IoM Unit} : Reports x d ↔ wp x d (fun _ _ => False) fun e _ => ∃ c, e = .code c := by
  unfold Reports wp
  constructor
  · rintro ⟨e, d', h⟩
    rw [h]
    exact ⟨e, rfl⟩
  · intro h
    split at h
    next => exact h.elim
    next e d' hx =>
      obtain ⟨c, rfl⟩ := h
      exact ⟨c, d', hx⟩

theorem reports_passed {x : Unit → IoM Unit} {ret : Errno → Errno} (h : d.fault d.clock = none) :
    Reports (call newBio pg ret >>= x) d ↔ Reports (x ()) { d with clock := d.clock + 1 } := by
  rw [reports_iff, reports_iff, wp_bind]
  unfold wp call
  rw [h]

theorem reports_failed {x : Unit → IoM Unit} {ret : Errno → Errno} {e : Errno} (h : d.fault d.clock = some e) :
    Reports (call newBio pg ret >>= x) d ↔
      Reports (out newBio pg (ret e)) { d with clock := d.clock + 1 } := by
  rw [reports_iff, reports_iff, wp_bind]
  unfold wp call
  rw [h]
  cases newBio <;> cases pg <;> rfl

theorem reports_out {e : Errno} (h : pg ≠ .valid) : Reports (out newBio pg e) d ↔ newBio = .null := by
  rw [reports_iff]
  cases newBio with
  | null => exact ⟨fun _ => rfl, fun _ => ⟨e, rfl⟩⟩
  | valid =>
      cases pg with
      | valid => exact absurd rfl h
      | _ => exact ⟨fun ⟨_, h⟩ => (by cases h), fun h => (by cases h)⟩
  | stale => exact ⟨fun ⟨_, h⟩ => (by cases h), fun h => (by cases h)⟩

/-- After a round that went through, those that are left have to be spared. -/
theorem pagesSpared_succ (d' : Io) {r : Nat} (hfault : d'.fault = d.fault) (hclock : d'.clock = d.clock + 1 + 1 + 1)
    (h : ∀ k, k < 3 → d.fault (d.clock + k) = none) : PagesSpared d (r + 1) ↔ PagesSpared d' r := by
  rw [PagesSpared, PagesSpared, hfault, hclock]
  constructor
  · intro hd i hi hk
    have hnext := hd (i + 1) (by omega) fun k hlt => ?_
    · rw [show d.clock + 1 + 1 + 1 + (3 * i + 1) = d.clock + (3 * (i + 1) + 1) by omega]
      exact hnext
    · by_cases hk3 : k < 3
      · exact h k hk3
      · have := hk (k - 3) (by omega)
        rwa [show d.clock + 1 + 1 + 1 + (k - 3) = d.clock + k by omega] at this
  · intro hd i hi hk
    cases i with
    | zero => exact h 1 (by omega)
    | succ i =>
        have hnext := hd i (by omega) fun k hlt => ?_
        · rwa [show d.clock + 1 + 1 + 1 + (3 * i + 1) = d.clock + (3 * (i + 1) + 1) by omega] at hnext
        · have := hk (k + 3) (by omega)
          rwa [show d.clock + (k + 3) = d.clock + 1 + 1 + 1 + k by omega] at this

theorem blockIo_uncovered (hps : left ≤ sectorsPerBlock ps) (hpos : 0 < left) (hfuel : left ≤ fuel)
    (hun : ¬ Covers exts offset left) :
    Reports (blockIo ps exts transfer fuel left offset done newBio) d ↔
      ((sectorByOffset exts offset).isSome ∨ newBio = .null) ∧ PagesSpared d (bios exts fuel left offset) := by
  induction fuel generalizing left offset done newBio d with
  | zero => omega
  | succ fuel ih =>
      rw [blockIo, bios]
      cases hs : sectorByOffset exts offset with
      | none =>
          rw [reports_out (by decide)]
          exact ⟨fun h => ⟨.inr h, fun i hi => absurd hi (Nat.not_lt_zero i)⟩,
            fun h => h.1.resolve_left Bool.false_ne_true⟩
      | some start =>
          obtain ⟨hlo, hhi⟩ := iterationsDone_bounds exts start left offset 0 hpos
          have hrun := @iterationsDone_run offset left start 0 exts hs
          dsimp only
          generalize iterationsDone exts start left offset 0 = n at hlo hhi hrun ⊢
          have hn : n ≠ left := by
            rintro rfl
            refine hun fun k hk => ?_
            rw [hrun (by omega)]
            rfl
          simp only [Option.isSome_some, true_or, true_and]
          have hfirst : d.fault d.clock ≠ none → ∀ r, PagesSpared d r :=
            fun hne r i _ hk => absurd (hk 0 (by omega)) hne
          -- the second of the three calls of a round is the one for the page
          cases h0 : d.fault d.clock with
          | some e =>
              rw [bioAlloc, reports_failed h0]
              exact ⟨fun _ => hfirst (by rw [h0]; exact Option.some_ne_none e) _, fun _ => ⟨.enomem, _, rfl⟩⟩
          | none =>
              rw [bioAlloc, reports_passed h0]
              cases h1 : d.fault (d.clock + 1) with
              | some e =>
                  rw [allocPage, reports_failed h1]
                  constructor
                  · rintro ⟨_, _, h⟩
                    cases h
                  · intro h
                    have hpage := h 0 (by omega) fun k hk => (by
                      rwa [show k = 0 by omega, Nat.add_zero])
                    rw [show d.clock + (3 * 0 + 1) = d.clock + 1 by omega, h1] at hpage
                    cases hpage
              | none =>
                  rw [allocPage, reports_passed h1, if_neg (by omega)]
                  change Reports (do submitBioWait; _) _ ↔ _
                  cases h2 : d.fault (d.clock + 1 + 1) with
                  | some e =>
                      rw [submitBioWait, reports_failed h2]
                      refine ⟨fun _ i hi hk => ?_, fun _ => ⟨e, _, rfl⟩⟩
                      cases i with
                      | zero => exact h1
                      | succ i =>
                          have := hk 2 (by omega)
                          rw [show d.clock + 2 = d.clock + 1 + 1 by omega, h2] at this
                          cases this
                  | none =>
                      rw [submitBioWait, reports_passed h2, if_neg hn]
                      have hrest : ¬ Covers exts (offset + n * 512) (left - n) := by
                        intro hcov
                        refine hun fun k hk => ?_
                        by_cases hkn : k < n
                        · rw [hrun (by omega)]
                          rfl
                        · have h := hcov (k - n) (by omega)
                          rwa [show offset + n * 512 + (k - n) * 512 = offset + k * 512 by omega] at h
                      have hspared := pagesSpared_succ (d := d) (r := bios exts fuel (left - n) (offset + n * 512))
                        { d with mem := transfer start n done d.mem, clock := d.clock + 1 + 1 + 1 }
                        rfl rfl fun k hk => (by
                          rcases (show k = 0 ∨ k = 1 ∨ k = 2 by omega) with rfl | rfl | rfl
                          · exact h0
                          · exact h1
                          · exact h2)
                      refine Iff.trans ?_ hspared.symm
                      refine (ih
                        (d := { d with mem := transfer start n done d.mem, clock := d.clock + 1 + 1 + 1 })
                        (by omega) (by omega) (by omega) hrest).trans ?_
                      exact ⟨fun h => h.2, fun h => ⟨.inr rfl, h⟩⟩

/-- The byte that the device has where an extent puts a position of the file. -/
def Shows (exts : List Extent) (m : Memory) (p : Nat) (b : UInt8) : Prop :=
  ∃ e ∈ exts, InExtent e p ∧ m.sectors (extentAddress e p / 512) (extentAddress e p % 512) = b

theorem sectorByOffset_of_extent (hx : FileExtents exts) {e : Extent} (he : e ∈ exts) (hp : InExtent e p) :
    sectorByOffset exts p = some (extentAddress e p / 512) := by
  cases hs : sectorByOffset exts p with
  | none =>
      have h := List.find?_eq_none.mp (Option.map_eq_none_iff.mp hs) e he
      exact absurd (by simpa only [InExtent, decide_eq_true_eq] using hp) h
  | some s =>
      obtain ⟨e', he', hp', rfl⟩ := sectorByOffset_some hs
      rw [hx.logical e he e' he' p hp hp']

/-- A range of whole sectors that has one byte of a sector has its first byte. -/
theorem first_byte {first count o k b : Nat} (hfirst : 512 ∣ first) (hcount : 512 ∣ count) (ho : 512 ∣ o) (hb : b < 512)
    (hlo : first ≤ o + (k * 512 + b)) (hhi : o + (k * 512 + b) < first + count) :
    first ≤ o + k * 512 ∧ o + k * 512 < first + count := by
  omega

/-- A byte lies in its sector of the device where it lies in its sector of the file. -/
theorem extentAddress_part (hx : FileExtents exts) {e : Extent} {k b : Nat} (he : e ∈ exts) (hoff : 512 ∣ offset)
    (hb : b < 512) (hp : InExtent e (offset + (k * 512 + b))) :
    sectorByOffset exts (offset + k * 512) = some (extentAddress e (offset + (k * 512 + b)) / 512) ∧
      extentAddress e (offset + (k * 512 + b)) % 512 = b := by
  obtain ⟨hl, hph, hlen⟩ := hx.aligned e he
  have hfirst : InExtent e (offset + k * 512) := first_byte hl hlen hoff hb hp.1 hp.2
  have haddress : extentAddress e (offset + (k * 512 + b)) = extentAddress e (offset + k * 512) + b := by
    rw [extentAddress, extentAddress]
    have := hfirst.1
    omega
  have hsector : 512 ∣ extentAddress e (offset + k * 512) :=
    Nat.dvd_add hph (Nat.dvd_sub (Nat.dvd_add hoff (Nat.dvd_mul_left 512 k)) hl)
  rw [sectorByOffset_of_extent hx he hfirst, haddress, Option.some.injEq]
  omega

/-- The extents show the file that a write through the open file leaves. -/
theorem shows_write (hx : FileExtents exts) (hoff : 512 ∣ offset) (hholds : Holds exts offset m' len m.buf)
    (hbeside : ∀ s, Beside exts offset len s → m'.sectors s = m.sectors s) (f : ByteFile)
    (h : Shows exts m p (f.bytes p)) : Shows exts m' p ((f.write offset (len * 512) m.buf).bytes p) := by
  obtain ⟨e, he, hp, hbyte⟩ := h
  have hsector := sectorByOffset_of_extent hx he hp
  refine ⟨e, he, hp, ?_⟩
  by_cases hin : offset ≤ p ∧ p < offset + len * 512
  · obtain ⟨k, b, hb, rfl⟩ : ∃ k b, b < 512 ∧ p = offset + (k * 512 + b) :=
      ⟨(p - offset) / 512, (p - offset) % 512, Nat.mod_lt _ (by omega), by omega⟩
    obtain ⟨hs, hrest⟩ := extentAddress_part hx he hoff hb hp
    rw [bytes_write_inside f m.buf (by omega), hrest]
    exact hholds k _ b (by omega) hb hs
  · rw [bytes_write_outside f m.buf (by omega), hbeside, hbyte]
    intro k hk hmine
    have := sectorByOffset_inj hx hsector hmine
    omega

theorem vfsWrite_ok {off count : Nat} {buf : Nat → UInt8} {w w' : World} (hf : w.cm.filp = true)
    (h : fileWrite off count buf w = .ok () w') : w'.file = w.file.write off count buf :=
  (wp_ok (Q := fun _ w' => w'.cm = w'.cm ∧ w'.file = w.file.write off count buf)
    (wp_mono (fileWrite_wp off count buf fun h => by rw [hf] at h; cases h) (fun _ _ hw => ⟨rfl, (hw.2.2.1 hf).2⟩)
      fun _ _ h => h) h).2

theorem vfsRead_ok {off count : Nat} {data : Nat → UInt8} {w w' : World} (hf : w.cm.filp = true)
    (h : fileRead off count w = .ok data w') : ∀ k, data k = w.file.bytes (off + k) := by
  refine wp_ok (E := fun _ _ => True) (Q := fun data _ => ∀ k, data k = w.file.bytes (off + k)) ?_ h
  simp only [fileRead, wp_bind, wp_get, hf, if_true, vfsRead]
  refine wp_tick ?_ fun _ _ => trivial
  split
  · exact fun _ => rfl
  · trivial

/-- A write or a read of a range of the file through its extents is what it is through the open file, and it is
refused where the extents do not cover the range. `newBio` and `newBio'` are what the variable of the write and
that of the read hold before they are set. -/
structure AsThroughFile (ps : Nat) (exts : List Extent) (newBio newBio' : Pointer) (offset len : Nat) (d : Io) :
    Prop where
  write : Covers exts offset len → d.Faultless →
    ∃ d', fileWriteBlock ps exts newBio offset len d = .ok () d' ∧ Holds exts offset d'.mem len d.mem.buf ∧
      (∀ s, Beside exts offset len s → d'.mem.sectors s = d.mem.sectors s) ∧
      (512 ∣ offset → ∀ w w' p, w.cm.filp = true → fileWrite offset (len * 512) d.mem.buf w = .ok () w' →
        Shows exts d.mem p (w.file.bytes p) → Shows exts d'.mem p (w'.file.bytes p)) ∧
      ∀ buf, ∃ d'', fileReadBlock ps exts newBio' offset len { d' with mem := ⟨d'.mem.sectors, buf⟩ } = .ok () d'' ∧
        ∀ p, p < len * 512 → d''.mem.buf p = d.mem.buf p
  read : Covers exts offset len → d.Faultless →
    ∃ d', fileReadBlock ps exts newBio' offset len d = .ok () d' ∧ d'.mem.sectors = d.mem.sectors ∧
      (512 ∣ offset → ∀ w w' data p, w.cm.filp = true → fileRead offset (len * 512) w = .ok data w' →
        p < len * 512 → Shows exts d.mem (offset + p) (w.file.bytes (offset + p)) → d'.mem.buf p = data p)
  refused : ¬ Covers exts offset len →
    Reports (fileWriteBlock ps exts newBio offset len) d ∧ Reports (fileReadBlock ps exts newBio' offset len) d

/-- The two functions do what the open file does exactly if the range is covered, or else its first sector at
least, or the variables happen to be null; and no page is refused on the way to the first gap. -/
theorem direct_io_as_through_file_iff (ps : Nat) (exts : List Extent) (newBio newBio' : Pointer) (offset len : Nat)
    (d : Io) (hx : FileExtents exts) (hpos : 0 < len) (hps : len ≤ sectorsPerBlock ps) :
    AsThroughFile ps exts newBio newBio' offset len d ↔
      Covers exts offset len ∨
        ((sectorByOffset exts offset).isSome ∨ newBio = .null ∧ newBio' = .null) ∧
          PagesSpared d (bios exts len len offset) := by
  have huncovered := fun (transfer : Nat → Nat → Nat → Memory → Memory) (newBio : Pointer) =>
    @blockIo_uncovered ps offset len 0 len exts newBio d transfer hps hpos (Nat.le_refl _)
  have hread := fun (b : Io) (hcov : Covers exts offset len) (hf : b.Faultless) =>
    wp_total (fileReadBlock_covered newBio' (d := b) hps hcov hpos hf)
  constructor
  · intro h
    by_cases hcov : Covers exts offset len
    · exact .inl hcov
    · obtain ⟨hw, hr⟩ := h.refused hcov
      obtain ⟨hw, hspared⟩ := (huncovered writeSectors newBio hcov).mp hw
      have hr := ((huncovered readSectors newBio' hcov).mp hr).1
      exact .inr ⟨by tauto, hspared⟩
  · intro h
    refine ⟨fun hcov hf => ?_, fun hcov hf => ?_, fun hcov => ?_⟩
    · obtain ⟨_, d', hrun, hholds, hbeside, hfault⟩ :=
        wp_total (fileWriteBlock_covered hx hps hcov hpos hf)
      refine ⟨d', hrun, hholds, hbeside, fun hoff w w' p hfilp hwrite hp => ?_, fun buf => ?_⟩
      · rw [vfsWrite_ok hfilp hwrite]
        exact shows_write hx hoff hholds hbeside w.file hp
      · obtain ⟨_, d'', hrun', hsectors, hback⟩ := hread { d' with mem := ⟨d'.mem.sectors, buf⟩ } hcov
          (fun n => by rw [hfault]; exact hf n)
        refine ⟨d'', hrun', fun p hp => ?_⟩
        obtain ⟨s, hs⟩ := Option.isSome_iff_exists.mp (hcov (p / 512) (by omega))
        have hb := hback (p / 512) s (p % 512) (by omega) (Nat.mod_lt _ (by omega)) hs
        rw [hholds (p / 512) s (p % 512) (by omega) (Nat.mod_lt _ (by omega)) hs] at hb
        rw [show p = p / 512 * 512 + p % 512 by omega, hb]
    · obtain ⟨_, d', hrun, hsectors, hbuf⟩ := hread d hcov hf
      refine ⟨d', hrun, hsectors, fun hoff w w' data p hfilp hdata hp hshows => ?_⟩
      rw [vfsRead_ok hfilp hdata]
      obtain ⟨k, b, hb, rfl⟩ : ∃ k b, b < 512 ∧ p = k * 512 + b :=
        ⟨p / 512, p % 512, Nat.mod_lt _ (by omega), by omega⟩
      obtain ⟨e, he, hin, hbyte⟩ := hshows
      obtain ⟨hs, hrest⟩ := extentAddress_part hx he hoff hb hin
      rw [hrest] at hbyte
      rw [← hbyte, hbuf k _ b (by omega) hb hs]
    · obtain ⟨hfirst, hspared⟩ := h.resolve_left hcov
      exact ⟨(huncovered writeSectors newBio hcov).mpr ⟨by tauto, hspared⟩,
        (huncovered readSectors newBio' hcov).mpr ⟨by tauto, hspared⟩⟩

/-- A file in two pieces that the device has in the other order, the second one first in the list. -/
def twoPieces : List Extent := [⟨4096, 1048576, 512⟩, ⟨0, 2097152, 4096⟩]

def idle : Io := ⟨⟨fun _ _ => 0, fun _ => 7⟩, fun _ => none, 0⟩

theorem twoPieces_extents : FileExtents twoPieces := by
  refine ⟨by decide, by decide, fun e he e' he' p hp hp' => ?_, fun e he e' he' p p' hp hp' h => ?_⟩
  all_goals
    simp only [twoPieces, List.mem_cons, List.not_mem_nil, or_false] at he he'
    rcases he with rfl | rfl <;> rcases he' with rfl | rfl <;> simp only [InExtent, extentAddress] at * <;> omega

theorem direct_io_across_pieces : AsThroughFile 12 twoPieces .stale .stale 3584 2 idle :=
  (direct_io_as_through_file_iff 12 twoPieces .stale .stale 3584 2 idle twoPieces_extents (by decide)
    (by decide)).mpr (.inl (by
      intro k hk
      rcases (show k = 0 ∨ k = 1 by omega) with rfl | rfl <;> decide))

/-- Behind the end of the file the bio that was never allocated is freed. -/
theorem direct_io_frees_stale_bio : ¬ ∀ (ps : Nat) (exts : List Extent) (newBio newBio' : Pointer) (offset len : Nat)
    (d : Io), FileExtents exts → 0 < len → len ≤ sectorsPerBlock ps →
      AsThroughFile ps exts newBio newBio' offset len d := by
  intro h
  have hcov : ¬ Covers twoPieces 8192 1 := fun h => absurd (h 0 (by decide)) (by decide)
  obtain ⟨_, _, hrun⟩ := ((h 12 twoPieces .stale .stale 8192 1 idle twoPieces_extents (by decide)
    (by decide)).refused hcov).1
  cases hrun

end ElastioSnap.Cow.DirectIo
