import ElastioSnap.Cow.Crash
import ElastioSnap.Lib.Extend

namespace ElastioSnap.Cow.Ahead

open Lib.Bytes Lib.Outcome Lib.Flags Lib.Runs Lib.Extend Manager FileIo Section Cleanup Header Lifecycle Protocol Crash
open Regions hiding Act Act.run

/-- A write to the file that is asked for, and whether it fills the file ahead. -/
structure Asked where
  ahead : Bool
  offset : Nat
  len : Nat
  buf : Nat → UInt8

/-- The manager with the writes it has asked for, the last one first. -/
abbrev AskM := EStateM Err (World × List Asked)

def askedWrite (ahead : Bool) (off len : Nat) (buf : Nat → UInt8) : AskM Unit := do
  note fun _ log => ⟨ahead, off, len, buf⟩ :: log
  lift (fileWrite off len buf)

def askedWriteChunks (ps i : Nat) : Nat → Nat → AskM Unit
  | 0, _ => pure ()
  | n + 1, k => do
      let cm := (← lift get).cm
      let s ← lift (getSect i)
      match s.mappings with
      | none => throw .oops
      | some m => do
          askedWrite false (chunkOffset ps cm i k) (cowBlockSize ps)
            (fun p => packWords m (8 * mappingOffset ps k + p))
          askedWriteChunks ps i n (k + 1)

def askedWriteSection (ps i : Nat) : AskM Unit := askedWriteChunks ps i (sectSizeBytes ps / cowBlockSize ps) 0

def askedEvictSection (ps i : Nat) : AskM Unit := do
  askedWriteSection ps i
  lift (cowFreeSection i)

def askedSyncSection (ps thresh i : Nat) : AskM Unit := do
  let s ← lift (getSect i)
  (if s.mappings.isSome = true ∧ (thresh = 0 ∨ s.usage ≤ thresh) then askedEvictSection ps i else pure ())
  lift (resetUsage i)

def askedSyncSections (ps thresh : Nat) : Nat → Nat → AskM Unit
  | 0, _ => pure ()
  | n + 1, i => do
      let cm := (← lift get).cm
      if thresh ≠ 0 ∧ cm.allocatedSects ≤ cm.allowedSects / 2 then pure ()
      else do
        askedSyncSection ps thresh i
        askedSyncSections ps thresh n (i + 1)

def askedZeroFillAhead (ps : Nat) : AskM Unit := do
  let cm := (← lift get).cm
  let writeMax := cowBlockSize ps * 1024
  let currSize := cm.currPos.toNat * cowBlockSize ps % 2 ^ 64
  let writeAhead := min (wsub cm.fileMax.toNat currSize) writeMax
  let buf ← lift kmalloc
  askedWrite true currSize writeAhead buf

def askedSyncAndFreeSections (ps thresh : Nat) (fillAhead : Bool) : AskM Unit := do
  let cm := (← lift get).cm
  askedSyncSections ps thresh cm.totalSects 0
  if fillAhead then onError (askedZeroFillAhead ps) (throw (.code .eio)) else pure ()

def askedWriteHeader (isClean : Bool) : AskM Unit := do
  lift alloc
  lift (modifyCm fun cm => { cm with flags := markClean isClean cm.flags })
  let cm := (← lift get).cm
  askedWrite false 0 cowHeaderSize (headerOf cm).encode

def askedSyncAndClose (ps : Nat) : AskM Unit :=
  onError
    (do
      askedSyncAndFreeSections ps 0 true
      askedWriteHeader true
      lift getCowFileExtents
      lift (modifyCm fileClose))
    (lift cowFreeMembers)

section

variable {ps i thresh : Nat}

theorem extends_write {ahead : Bool} {off len : Nat} {buf : Nat → UInt8} :
    Extends (askedWrite ahead off len buf) (fileWrite off len buf) :=
  extends_note.bind fun _ => extends_lift

theorem extends_writeChunks {n k : Nat} : Extends (askedWriteChunks ps i n k) (writeChunks ps i n k) := by
  induction n generalizing k with
  | zero => exact extends_pure
  | succ n ih =>
      refine extends_lift.bind fun w => extends_lift.bind fun s => ?_
      cases s.mappings with
      | none => exact extends_throw
      | some m => exact extends_write.bind fun _ => ih

theorem extends_syncSection : Extends (askedSyncSection ps thresh i) (syncSection ps thresh i) :=
  extends_lift.bind fun _ =>
    ((extends_writeChunks.bind fun _ => extends_lift).ite extends_pure).bind fun _ => extends_lift

theorem extends_syncSections {n : Nat} : Extends (askedSyncSections ps thresh n i) (syncSections ps thresh n i) := by
  induction n generalizing i with
  | zero => exact extends_pure
  | succ n ih => exact extends_lift.bind fun _ => extends_pure.ite (extends_syncSection.bind fun _ => ih)

theorem extends_syncAndFreeSections {fillAhead : Bool} :
    Extends (askedSyncAndFreeSections ps thresh fillAhead) (cowSyncAndFreeSections ps thresh fillAhead) := by
  refine extends_lift.bind fun _ => extends_syncSections.bind fun _ => Extends.ite ?_ extends_pure
  exact Extends.onError (extends_lift.bind fun _ => extends_lift.bind fun _ => extends_write) extends_throw

/-- That the writes are written down does not change what is done. -/
theorem extends_syncAndClose : Extends (askedSyncAndClose ps) (cowSyncAndClose ps) := by
  refine Extends.onError (extends_syncAndFreeSections.bind fun _ => Extends.bind ?_ fun _ =>
    extends_lift.bind fun _ => extends_lift) extends_lift
  exact extends_lift.bind fun _ => extends_lift.bind fun _ => extends_lift.bind fun _ => extends_write

end

section

variable {ps i k n m size : Nat} {env : Env} {v w : World} {log : List Asked}

/-- The `n` calls from one on do not fail. -/
def Passes (env : Env) (clock n : Nat) : Prop := ∀ j, clock ≤ j → j < clock + n → env.fault j = none

theorem passes_zero {c : Nat} : Passes env c 0 := fun j hlo hhi => by omega

theorem Passes.add {c : Nat} (h : Passes env c m) (h' : Passes env (c + m) n) : Passes env c (m + n) := by
  intro j hlo hhi
  by_cases hj : j < c + m
  · exact h j hlo hj
  · exact h' j (by omega) (by omega)

theorem Passes.first {c : Nat} (h : Passes env c (m + n)) : Passes env c m := fun j hlo hhi => h j hlo (by omega)

theorem Passes.rest {c : Nat} (h : Passes env c (m + n)) : Passes env (c + m) n :=
  fun j hlo hhi => h j (by omega) (by omega)

theorem passes_one {c : Nat} : Passes env c 1 ↔ env.fault c = none := by
  constructor
  · exact fun h => h c le_rfl (Nat.lt_succ_self c)
  · intro h j hlo hhi
    obtain rfl : j = c := by omega
    exact h

/-- A write that does not fill ahead, and ends before the data. -/
def Inside (size : Nat) (a : Asked) : Prop := a.ahead = false ∧ a.offset + a.len ≤ size

/-- An open file takes a call for a write. -/
theorem askedWrite_wp {ahead : Bool} {off len : Nat} {buf : Nat → UInt8} (hf : v.cm.filp = true)
    (hlt : off + len < 2 ^ 63) :
    wp (askedWrite ahead off len buf) (v, log)
      (fun _ t => Passes v.env v.clock 1 ∧ t.1 = { v with file := t.1.file, clock := v.clock + 1 } ∧
        t.2 = ⟨ahead, off, len, buf⟩ :: log)
      (fun _ t => ¬ Passes v.env v.clock 1 ∧ t.2 = ⟨ahead, off, len, buf⟩ :: log) := by
  rw [askedWrite, wp_bind, wp_note, wp_lift, fileWrite, wp_bind, wp_get, hf, if_pos rfl]
  unfold wp vfsWrite
  rw [if_neg (Nat.not_le_of_lt hlt), passes_one]
  dsimp only
  cases hfault : v.env.fault v.clock with
  | none => exact ⟨rfl, rfl, rfl⟩
  | some e => exact ⟨(by simp), rfl⟩

/-- What a computation on the sections leaves after `n` calls, none of which failed. -/
structure Spent (n : Nat) (v w : World) : Prop where
  cm : w.cm = { v.cm with sects := w.cm.sects, allocatedSects := w.cm.allocatedSects }
  live : w.cm.sects.isSome = true
  env : w.env = v.env
  clock : w.clock = v.clock + n
  passes : Passes v.env v.clock n

theorem Spent.trans {u : World} (h : Spent n v w) (h' : Spent m w u) : Spent (n + m) v u where
  cm := by rw [h'.cm, h.cm]
  live := h'.live
  env := h'.env.trans h.env
  clock := by rw [h'.clock, h.clock, Nat.add_assoc]
  passes := h.passes.add (by rw [← h.clock, ← h.env]; exact h'.passes)

/-- A computation asks for the writes of the sections only, and fails only if one of `n` calls does. -/
def Asks (n size : Nat) (x : AskM Unit) (v : World) (Q : World → Prop) : Prop :=
  ∀ log, (∀ a ∈ log, Inside size a) → wp x (v, log)
    (fun _ t => Spent n v t.1 ∧ Q t.1 ∧ ∀ a ∈ t.2, Inside size a)
    (fun _ t => ¬ Passes v.env v.clock n ∧ ∀ a ∈ t.2, Inside size a)

theorem Asks.bind {x y : AskM Unit} {Q R : World → Prop} (hx : Asks n size x v Q)
    (hy : ∀ w, Spent n v w → Q w → Asks m size y w R) : Asks (n + m) size (do x; y) v R := by
  intro log hlog
  rw [wp_bind]
  refine wp_mono (hx log hlog) ?_ fun _ t h => ⟨fun hp => h.1 hp.first, h.2⟩
  rintro _ ⟨w, log'⟩ ⟨hspent, hq, hlog'⟩
  refine wp_mono (hy w hspent hq log' hlog') (fun _ t h => ⟨hspent.trans h.1, h.2⟩) fun _ t h => ⟨?_, h.2⟩
  intro hp
  refine h.1 ?_
  rw [hspent.clock, hspent.env]
  exact hp.rest

theorem asks_pure (hl : v.cm.sects.isSome = true) {Q : World → Prop} (h : Q v) : Asks 0 size (pure ()) v Q :=
  fun _ hlog => ⟨⟨rfl, hl, rfl, rfl, passes_zero⟩, h, hlog⟩

/-- The sections and the data lie one behind the other in the file, of which they are a small part. -/
structure Laid (ps : Nat) (cm : CowManager) : Prop where
  sectSize : cm.sectSize = 2 ^ ps
  dataOffset : cm.dataOffset = 4096 + cm.totalSects * (2 ^ ps * 8)
  small : cm.dataOffset < 2 ^ 63

theorem Laid.congr (h : Laid ps v.cm) (hp : placePart w = placePart v) : Laid ps w.cm := by
  simp only [placePart, Prod.mk.injEq] at hp
  obtain ⟨hdata, hsize, htotal⟩ := hp
  exact ⟨by rw [hsize, h.sectSize], by rw [hdata, htotal, h.dataOffset], by rw [hdata]; exact h.small⟩

theorem Spent.place (h : Spent n v w) : placePart w = placePart v := by
  rw [placePart, h.cm]
  rfl

/-- A chunk of a section ends before the data. -/
theorem Laid.chunk {cm : CowManager} (h : Laid ps cm) (hi : i < cm.totalSects) (hk : k < 8) :
    chunkOffset ps cm i k + cowBlockSize ps ≤ cm.dataOffset := by
  have hsect : (i + 1) * (2 ^ ps * 8) ≤ cm.totalSects * (2 ^ ps * 8) := Nat.mul_le_mul_right _ hi
  have hchunk : 2 ^ ps * (k + 1) ≤ 2 ^ ps * 8 := Nat.mul_le_mul_left _ hk
  calc chunkOffset ps cm i k + cowBlockSize ps = 4096 + i * (2 ^ ps * 8) + 2 ^ ps * (k + 1) := by
        rw [chunkOffset, h.sectSize, cowBlockSize]
        ring
    _ ≤ 4096 + (i + 1) * (2 ^ ps * 8) := by rw [Nat.add_one_mul]; omega
    _ ≤ cm.dataOffset := by rw [h.dataOffset]; omega

theorem asks_write {off len : Nat} {buf : Nat → UInt8} (hf : v.cm.filp = true) (hl : v.cm.sects.isSome = true)
    (hend : off + len ≤ size) (hsize : size < 2 ^ 63) :
    Asks 1 size (askedWrite false off len buf) v fun w => w.cm = v.cm := by
  intro log hlog
  have hall : ∀ a ∈ (⟨false, off, len, buf⟩ :: log : List Asked), Inside size a :=
    List.forall_mem_cons.mpr ⟨⟨rfl, hend⟩, hlog⟩
  refine wp_mono (askedWrite_wp hf (hend.trans_lt hsize)) ?_ ?_
  · rintro _ ⟨w, log'⟩ ⟨hpass, hw, hlog'⟩
    dsimp only at hw hlog' ⊢
    have hcm : w.cm = v.cm := by rw [hw]
    exact ⟨⟨by rw [hcm], by rw [hcm]; exact hl, by rw [hw], by rw [hw], hpass⟩, hcm, hlog' ▸ hall⟩
  · rintro _ ⟨w, log'⟩ ⟨hpass, hlog'⟩
    exact ⟨hpass, hlog' ▸ hall⟩

theorem asks_writeChunks (hf : v.cm.filp = true) (hl : v.cm.sects.isSome = true) (hla : Laid ps v.cm)
    (hi : i < v.cm.totalSects) (hm : (v.cm.sect i).mappings.isSome = true) (hk : k + n ≤ 8) :
    Asks n v.cm.dataOffset (askedWriteChunks ps i n k) v fun w => w.cm = v.cm := by
  induction n generalizing k v with
  | zero => exact asks_pure hl rfl
  | succ n ih =>
      obtain ⟨map, hmap⟩ := Option.isSome_iff_exists.mp hm
      have hfirst := hla.chunk (k := k) hi (by omega)
      intro log hlog
      rw [askedWriteChunks, wp_bind, wp_lift, wp_get, wp_bind, wp_lift, wp_getSect hl, hmap, Nat.add_comm n 1]
      refine Asks.bind (R := fun w => w.cm = v.cm) (asks_write hf hl hfirst hla.small) (fun w hspent hcm => ?_) log hlog
      have hrest := ih (v := w) (k := k + 1) (by rw [hcm]; exact hf) hspent.live (hla.congr hspent.place)
        (by rw [hcm]; exact hi) (by rw [hcm]; exact hm) (by omega)
      rwa [hcm] at hrest

/-- The writes that store a section, which is none unless it is in memory. -/
def stores (cm : CowManager) (i : Nat) : Nat := if (cm.sect i).mappings.isSome then 8 else 0

/-- The writes that store the `n` sections from one on. -/
def storesFrom (cm : CowManager) : Nat → Nat → Nat
  | 0, _ => 0
  | n + 1, i => stores cm i + storesFrom cm n (i + 1)

theorem storesFrom_congr {cm cm' : CowManager} (h : ∀ j, i ≤ j → cm'.sect j = cm.sect j) :
    storesFrom cm' n i = storesFrom cm n i := by
  induction n generalizing i with
  | zero => rfl
  | succ n ih => rw [storesFrom, storesFrom, stores, stores, h i le_rfl, ih fun j hj => h j (by omega)]

/-- The other sections are as they were. -/
def Others (i : Nat) (v w : World) : Prop := ∀ j, j ≠ i → w.cm.sect j = v.cm.sect j

theorem others_congr (h : w.cm = v.cm) : Others i w = Others i v := by
  funext u
  simp only [Others, h]

theorem asks_resetUsage (hl : v.cm.sects.isSome = true) : Asks 0 size (lift (resetUsage i)) v (Others i v) := by
  intro log hlog
  rw [wp_lift, resetUsage, wp_bind, wp_getSect hl, wp_setSect hl]
  refine ⟨⟨rfl, ?_, rfl, rfl, passes_zero⟩, fun j hj => ?_, hlog⟩
  · exact (isSome_putSect _ _ _).trans hl
  · exact (sect_putSect hl _ _ _).trans (if_neg hj)

theorem asks_freeSection (hl : v.cm.sects.isSome = true) (size : Nat) :
    Asks 0 size (lift (cowFreeSection i)) v (Others i v) := by
  intro log hlog
  rw [wp_lift, cowFreeSection, wp_bind, wp_getSect hl, wp_bind, wp_setSect hl, wp_modifyCm]
  refine ⟨⟨rfl, ?_, rfl, rfl, passes_zero⟩, fun j hj => ?_, hlog⟩
  · exact (isSome_putSect _ _ _).trans hl
  · exact (sect_putSect hl _ _ _).trans (if_neg hj)

theorem asks_evictSection (hf : v.cm.filp = true) (hl : v.cm.sects.isSome = true) (hla : Laid ps v.cm)
    (hi : i < v.cm.totalSects) (hm : (v.cm.sect i).mappings.isSome = true) :
    Asks 8 v.cm.dataOffset (askedEvictSection ps i) v (Others i v) := by
  have height : sectSizeBytes ps / cowBlockSize ps = 8 := Nat.mul_div_cancel_left 8 (Nat.two_pow_pos ps)
  have hwrite : Asks 8 v.cm.dataOffset (askedWriteSection ps i) v fun w => w.cm = v.cm := by
    rw [askedWriteSection, height]
    exact asks_writeChunks hf hl hla hi hm le_rfl
  refine Asks.bind (m := 0) hwrite fun w hspent hcm => ?_
  have hfree := asks_freeSection (i := i) hspent.live v.cm.dataOffset
  rwa [others_congr hcm] at hfree

/-- A section that is in memory is stored. -/
theorem asks_syncSection (hf : v.cm.filp = true) (hl : v.cm.sects.isSome = true) (hla : Laid ps v.cm)
    (hi : i < v.cm.totalSects) : Asks (stores v.cm i) v.cm.dataOffset (askedSyncSection ps 0 i) v (Others i v) := by
  have hmid : Asks (stores v.cm i) v.cm.dataOffset
      (if (v.cm.sect i).mappings.isSome = true ∧ (0 = 0 ∨ (v.cm.sect i).usage ≤ 0) then askedEvictSection ps i
      else pure ())
      v (Others i v) := by
    by_cases hm : (v.cm.sect i).mappings.isSome = true
    · rw [stores, if_pos hm, if_pos ⟨hm, .inl rfl⟩]
      exact asks_evictSection hf hl hla hi hm
    · rw [stores, if_neg hm, if_neg fun h => hm h.1]
      exact asks_pure hl fun _ _ => rfl
  intro log hlog
  rw [askedSyncSection, wp_bind, wp_lift, wp_getSect hl]
  refine Asks.bind (m := 0) (R := Others i v) hmid (fun w hspent hw log hlog => ?_) log hlog
  refine wp_mono (asks_resetUsage hspent.live log hlog) (fun _ t h => ⟨h.1, fun j hj => ?_, h.2.2⟩) fun _ _ h => h
  rw [h.2.1 j hj, hw j hj]

/-- The sections that are in memory are stored one after the other. -/
theorem asks_syncSections (hf : v.cm.filp = true) (hl : v.cm.sects.isSome = true) (hla : Laid ps v.cm)
    (hi : i + n ≤ v.cm.totalSects) :
    Asks (storesFrom v.cm n i) v.cm.dataOffset (askedSyncSections ps 0 n i) v fun _ => True := by
  induction n generalizing i v with
  | zero => exact asks_pure hl trivial
  | succ n ih =>
      intro log hlog
      rw [askedSyncSections, wp_bind, wp_lift, wp_get, if_neg fun h => h.1 rfl, storesFrom]
      refine Asks.bind (R := fun _ => True) (asks_syncSection hf hl hla (by omega)) (fun w hspent hw => ?_) log hlog
      have hcm := hspent.cm
      have hrest := ih (v := w) (i := i + 1) (by rw [hcm]; exact hf) hspent.live (hla.congr hspent.place)
        (by rw [hcm]; exact (by omega : i + 1 + n ≤ v.cm.totalSects))
      rw [storesFrom_congr fun j hj => hw j (by omega)] at hrest
      rw [hcm] at hrest
      exact hrest

end

section

variable {ps : Nat} {w : World}

def storing (cm : CowManager) : Nat := storesFrom cm cm.totalSects 0

def currSize (ps : Nat) (cm : CowManager) : Nat := cm.currPos.toNat * cowBlockSize ps % 2 ^ 64

/-- The write that fills the file ahead. Its memory is allocated after the sections were stored. -/
def fillOf (ps : Nat) (w : World) : Asked where
  ahead := true
  offset := currSize ps w.cm
  len := min (wsub w.cm.fileMax.toNat (currSize ps w.cm)) (cowBlockSize ps * 1024)
  buf := packWords (w.env.junk (w.clock + storing w.cm))

/-- Nothing fails before the file is filled ahead. -/
def Reaches (w : World) : Prop := Passes w.env w.clock (storing w.cm + 1)

/-- Besides the write that fills ahead the writes end before the data. -/
def Logged (ps : Nat) (w : World) (log : List Asked) : Prop :=
  (∀ a ∈ log, Inside w.cm.dataOffset a ∨ Reaches w ∧ a = fillOf ps w) ∧ (Reaches w → fillOf ps w ∈ log)

theorem wp_kmalloc {v : World} {Q : (Nat → UInt8) → World → Prop} {E : Err → World → Prop}
    (hok : v.env.fault v.clock = none → Q (packWords (v.env.junk v.clock)) { v with clock := v.clock + 1 })
    (herr : v.env.fault v.clock ≠ none → ∀ e w, E e w) : wp kmalloc v Q E := by
  rw [kmalloc, wp_bind, wp_get, wp_bind]
  unfold wp alloc
  cases hfault : v.env.fault v.clock with
  | none => exact hok hfault
  | some e => exact herr (by simp [hfault]) _ _

theorem askedWrite_log {ahead : Bool} {off len : Nat} {buf : Nat → UInt8} {v : World} {log : List Asked} :
    wp (askedWrite ahead off len buf) (v, log) (fun _ t => t.2 = ⟨ahead, off, len, buf⟩ :: log)
      (fun _ t => t.2 = ⟨ahead, off, len, buf⟩ :: log) := by
  rw [askedWrite, wp_bind, wp_note, wp_lift]
  exact wp_const.mpr rfl

/-- The memory for the write that fills ahead is the last that is asked for before. -/
theorem fill_logged {v : World} {log : List Asked} (h : Spent (storing w.cm) w v)
    (hlog : ∀ a ∈ log, Inside w.cm.dataOffset a) :
    wp (askedZeroFillAhead ps) (v, log) (fun _ t => Logged ps w t.2) (fun _ t => Logged ps w t.2) := by
  have hreach : Reaches w ↔ v.env.fault v.clock = none := by
    rw [← passes_one, h.env, h.clock]
    exact ⟨fun hr => hr.rest, fun hp => h.passes.add hp⟩
  have hcm := h.cm
  rw [askedZeroFillAhead, wp_bind, wp_lift, wp_get]
  dsimp only
  rw [wp_bind, wp_lift]
  refine wp_kmalloc (fun hfault => ?_) fun hfault _ _ => ?_
  · have hr : Reaches w := hreach.mpr hfault
    have hfill : (⟨true, currSize ps v.cm, min (wsub v.cm.fileMax.toNat (currSize ps v.cm)) (cowBlockSize ps * 1024),
        packWords (v.env.junk v.clock)⟩ : Asked) = fillOf ps w := by
      rw [fillOf, hcm, h.env, h.clock]
      rfl
    have hlogged : Logged ps w (fillOf ps w :: log) := by
      refine ⟨List.forall_mem_cons.mpr ⟨.inr ⟨hr, rfl⟩, fun a ha => .inl (hlog a ha)⟩, fun _ => ?_⟩
      exact List.mem_cons_self
    refine wp_mono askedWrite_log ?_ ?_
    · intro _ t ht
      rw [ht]
      exact hfill ▸ hlogged
    · intro _ t ht
      rw [ht]
      exact hfill ▸ hlogged
  · exact ⟨fun a ha => .inl (hlog a ha), fun hr => absurd (hreach.mp hr) hfault⟩

end

section

variable {ps : Nat} {w : World}

theorem logged_write {off len : Nat} {buf : Nat → UInt8} (h : off + len ≤ w.cm.dataOffset) :
    Keeps (fun t : World × List Asked => Logged ps w t.2) (askedWrite false off len buf) := by
  refine Relates.bind (fun t ht => ?_) fun _ => keeps_lift_snd
  exact ⟨List.forall_mem_cons.mpr ⟨.inl ⟨rfl, h⟩, ht.1⟩, fun hr => List.mem_cons_of_mem _ (ht.2 hr)⟩

/-- The writes that a close asks for. -/
def asked (ps : Nat) (w : World) : List Asked :=
  match askedSyncAndClose ps (w, []) with
  | .ok _ t => t.2
  | .error _ t => t.2

theorem close_logged (hf : w.cm.filp = true) (hl : w.cm.sects.isSome = true) (hla : Laid ps w.cm) :
    Logged ps w (asked ps w) := by
  have hheader : 0 + cowHeaderSize ≤ w.cm.dataOffset := by
    rw [hla.dataOffset, Nat.zero_add]
    exact Nat.le_add_right _ _
  have hsync : wp (askedSyncAndFreeSections ps 0 true) (w, []) (fun _ t => Logged ps w t.2)
      fun _ t => Logged ps w t.2 := by
    rw [askedSyncAndFreeSections, wp_bind, wp_lift, wp_get, wp_bind]
    refine wp_mono (asks_syncSections hf hl hla (Nat.zero_add _).le [] (List.forall_mem_nil _)) ?_ ?_
    · rintro _ ⟨v, log⟩ ⟨hspent, -, hlog⟩
      rw [if_pos rfl, wp_onError]
      exact fill_logged hspent hlog
    · rintro _ t ⟨hnot, hlog⟩
      exact ⟨fun a ha => .inl (hlog a ha), fun hr => absurd (Passes.first hr) hnot⟩
  have hrest : Keeps (fun t : World × List Asked => Logged ps w t.2) (do
      askedWriteHeader true
      lift getCowFileExtents
      lift (modifyCm fileClose)) := by
    refine Relates.bind ?_ fun _ => keeps_lift_snd.bind fun _ => keeps_lift_snd
    exact keeps_lift_snd.bind fun _ => keeps_lift_snd.bind fun _ => keeps_lift_snd.bind fun _ => logged_write hheader
  have hclose : wp (askedSyncAndClose ps) (w, []) (fun _ t => Logged ps w t.2) fun _ t => Logged ps w t.2 := by
    rw [askedSyncAndClose, wp_onError, wp_bind]
    have hfree : ∀ t : World × List Asked, Logged ps w t.2 → wp (lift cowFreeMembers : AskM Unit) t
        (fun _ u => Logged ps w u.2) fun _ u => Logged ps w u.2 := fun t => keeps_iff.mp keeps_lift_snd t
    refine wp_mono hsync (fun _ t ht => ?_) fun _ t ht => hfree t ht
    exact wp_mono (keeps_iff.mp hrest t ht) (fun _ _ h => h) fun _ u hu => hfree u hu
  unfold wp at hclose
  rw [asked]
  cases hx : askedSyncAndClose ps (w, []) with
  | ok _ t =>
      rw [hx] at hclose
      exact hclose
  | error _ t =>
      rw [hx] at hclose
      exact hclose

/-- A write stays in the space of the file, or in front of the data: in the index-only mode the space behind
was given back. What fills ahead is zero. -/
structure Confined (cm : CowManager) (a : Asked) : Prop where
  space : ∀ k, k < a.len → a.offset + k < cm.fileMax.toNat ∨ a.offset + k < cm.dataOffset
  index : hasFlag cm.flags cowIndexOnly = true → ∀ k, k < a.len → a.offset + k < cm.dataOffset
  zero : a.ahead = true → ∀ k, k < a.len → a.buf k = 0

theorem Inside.confined {cm : CowManager} {a : Asked} (h : Inside cm.dataOffset a) : Confined cm a where
  space := fun k hk => .inr (by have := h.2; omega)
  index := fun _ k hk => by have := h.2; omega
  zero := fun ha => absurd (h.1.symm.trans ha) Bool.false_ne_true

/-- Memory that the allocator has not cleared is zero as far as it is written. -/
def Zeroed (ps : Nat) (w : World) : Prop :=
  ∀ k, k < cowBlockSize ps * 1024 →
    (currSize ps w.cm < w.cm.fileMax.toNat → currSize ps w.cm + k < w.cm.fileMax.toNat) →
    packWords (w.env.junk (w.clock + storing w.cm)) k = 0

/-- There is space to fill ahead, in front of the end of the file or of the data. -/
def Spacious (ps : Nat) (cm : CowManager) : Prop :=
  currSize ps cm + cowBlockSize ps * 1024 ≤ cm.dataOffset ∨
    currSize ps cm < cm.fileMax.toNat ∧ (hasFlag cm.flags cowIndexOnly = true → cm.fileMax.toNat ≤ cm.dataOffset)

/-- The closes that do not fill ahead, because a call fails or the file is full to the byte, or may do so. -/
def Harmless (ps : Nat) (w : World) : Prop :=
  ¬ Reaches w ∨ currSize ps w.cm = w.cm.fileMax.toNat ∨ Spacious ps w.cm ∧ Zeroed ps w

/-- Where the bytes from `c` on lie which are `m` but do not go beyond `f`, unless `c` does: then the
difference wraps. -/
theorem fill_iff {c f d m : Nat} {p : Prop} {z : Nat → Prop} (hc : c < 2 ^ 64) (hf : f < 2 ^ 64) (hd : d < 2 ^ 63)
    (hm : 0 < m) (hmax : m < 2 ^ 63) : ((∀ k, k < min (wsub f c) m → c + k < f ∨ c + k < d) ∧
      (p → ∀ k, k < min (wsub f c) m → c + k < d) ∧ ∀ k, k < min (wsub f c) m → z k) ↔
    c = f ∨ (c + m ≤ d ∨ c < f ∧ (p → f ≤ d)) ∧ ∀ k, k < m → (c < f → c + k < f) → z k := by
  rcases lt_trichotomy c f with hlt | rfl | hgt
  · rw [wsub_eq hlt.le hf]
    constructor
    · rintro ⟨-, hindex, hzero⟩
      refine .inr ⟨?_, fun k hk hin => hzero k (lt_min (by have := hin hlt; omega) hk)⟩
      by_cases hroom : c + m ≤ d
      · exact .inl hroom
      · refine .inr ⟨hlt, fun hi => ?_⟩
        -- the last byte that is written
        have hlast := hindex hi (min (f - c) m - 1) (by omega)
        omega
    · rintro (rfl | ⟨hspace, hzero⟩)
      · exact absurd hlt (lt_irrefl _)
      · refine ⟨fun k hk => .inl (by omega), fun hi k hk => ?_, fun k hk => hzero k (by omega) fun _ => by omega⟩
        rcases hspace with h | ⟨-, h⟩
        · omega
        · have hfd := h hi
          omega
  · have hzero : wsub c c = 0 := by rw [wsub_eq le_rfl hf, Nat.sub_self]
    rw [hzero, Nat.zero_min]
    have hnone : ∀ {q : Nat → Prop} (k : Nat), k < 0 → q k := fun k hk => absurd hk (Nat.not_lt_zero k)
    exact ⟨fun _ => .inl rfl, fun _ => ⟨hnone, fun _ => hnone, hnone⟩⟩
  · have hwrap : wsub f c = 2 ^ 64 + f - c := by rw [wsub, Nat.mod_eq_of_lt (by omega), Nat.add_comm]
    rw [hwrap]
    constructor
    · rintro ⟨hspace, -, hzero⟩
      have hlast := hspace (min (2 ^ 64 + f - c) m - 1) (by omega)
      have hroom : c + m ≤ d := by omega
      exact .inr ⟨.inl hroom, fun k hk _ => hzero k (by omega)⟩
    · rintro (rfl | ⟨hspace, hzero⟩)
      · exact absurd hgt (lt_irrefl _)
      · have hroom : c + m ≤ d := hspace.resolve_right fun h => by omega
        refine ⟨fun k hk => .inr (by omega), fun _ k hk => by omega, fun k hk => hzero k (by omega) fun h => ?_⟩
        omega

theorem fill_confined_iff (h16 : ps ≤ 16) (hla : Laid ps w.cm) : Confined w.cm (fillOf ps w) ↔
    currSize ps w.cm = w.cm.fileMax.toNat ∨ Spacious ps w.cm ∧ Zeroed ps w := by
  have hblock : cowBlockSize ps ≤ 2 ^ 16 := Nat.pow_le_pow_right (by decide) h16
  have hiff := fill_iff (m := cowBlockSize ps * 1024) (p := hasFlag w.cm.flags cowIndexOnly = true)
    (z := fun k => packWords (w.env.junk (w.clock + storing w.cm)) k = 0)
    (Nat.mod_lt _ (by decide) : currSize ps w.cm < 2 ^ 64) w.cm.fileMax.toNat_lt hla.small
    (Nat.mul_pos (Nat.two_pow_pos ps) (by decide)) (by omega)
  refine Iff.trans ?_ hiff
  exact ⟨fun h => ⟨h.space, h.index, h.zero rfl⟩, fun h => ⟨h.1, h.2.1, fun _ => h.2.2⟩⟩

theorem asked_confined_iff (h16 : ps ≤ 16) (hf : w.cm.filp = true) (hl : w.cm.sects.isSome = true)
    (hla : Laid ps w.cm) : (∀ a ∈ asked ps w, Confined w.cm a) ↔ Harmless ps w := by
  obtain ⟨honly, hfill⟩ := close_logged hf hl hla
  constructor
  · intro h
    by_cases hr : Reaches w
    · exact .inr ((fill_confined_iff h16 hla).mp (h _ (hfill hr)))
    · exact .inl hr
  · intro h a ha
    rcases honly a ha with hin | ⟨hr, rfl⟩
    · exact hin.confined
    · exact (fill_confined_iff h16 hla).mpr (h.resolve_left fun hn => hn hr)

end

section

variable {ps : Nat} {w : World} {s t : State} {ev : Event}

/-- Where there is a manager its file is laid out. -/
def Settled (ps : Nat) (w : World) : Prop := w.cm.sects.isSome = true → Laid ps w.cm

/-- The blocks are those of a block device, whose bytes are numbered. -/
def OfDevice (ps : Nat) : Event → Prop
  | .act (.init elements ..) | .act (.reload elements ..)
  | .crash (.init elements ..) _ | .crash (.reload elements ..) _ =>
      elements.toNat * 2 ^ ps < 2 ^ 63
  | _ => True

theorem layout_laid {elements : UInt64} (cacheSize : Nat) (cm : CowManager) (h12 : 12 ≤ ps) (h16 : ps ≤ 16)
    (hmax : elements.toNat * 2 ^ ps < 2 ^ 63) : Laid ps (layout ps elements (cowSectionSize ps) cacheSize cm) := by
  have hlow : 2 ^ 12 ≤ 2 ^ ps := Nat.pow_le_pow_right (by decide) h12
  have hhigh : 2 ^ ps ≤ 2 ^ 16 := Nat.pow_le_pow_right (by decide) h16
  have hsmall : elements.toNat * 2 ^ 12 < 2 ^ 63 := (Nat.mul_le_mul_left _ hlow).trans_lt hmax
  have hmul := Nat.div_mul_le_self (elements.toNat + 2 ^ ps - 1) (2 ^ ps)
  have htotal : (layout ps elements (cowSectionSize ps) cacheSize cm).totalSects =
      (elements.toNat + 2 ^ ps - 1) / 2 ^ ps := sectionTotal_ceil h12 h16 hmax
  have hdata : (layout ps elements (cowSectionSize ps) cacheSize cm).dataOffset =
      (4096 + sectionTotal ps elements (2 ^ ps) * (2 ^ ps * 8)) % 2 ^ 64 := rfl
  rw [sectionTotal_ceil h12 h16 hmax] at hdata
  generalize (elements.toNat + 2 ^ ps - 1) / 2 ^ ps = total at hmul htotal hdata
  have hsize : total * (2 ^ ps * 8) = total * 2 ^ ps * 8 := (Nat.mul_assoc _ _ _).symm
  rw [hsize, Nat.mod_eq_of_lt (by omega)] at hdata
  refine ⟨rfl, ?_, ?_⟩
  · rw [hdata, htotal, hsize]
  · rw [hdata]
    omega

theorem settled_place {α : Type} {x : CowM α} (hx : Preserves placePart x) (h : Laid ps w.cm) :
    wp x w (fun _ w' => Settled ps w') (fun _ w' => Settled ps w') :=
  wp_mono (hx w) (fun _ _ hp _ => h.congr hp) fun _ _ hp _ => h.congr hp

theorem settled_none (h : w.cm.sects = none) : Settled ps w := fun hs => by
  rw [h] at hs
  cases hs

theorem init_laid {elements fileMax seqid : UInt64} {cacheSize : Nat} {uuid : Fin 16 → UInt8} (h12 : 12 ≤ ps)
    (h16 : ps ≤ 16) (hmax : elements.toNat * 2 ^ ps < 2 ^ 63) (hn : w.cm.sects = none) :
    wp (cowInit ps elements (cowSectionSize ps) cacheSize fileMax uuid seqid) w (fun _ w' => Settled ps w')
      (fun _ w' => Settled ps w') := by
  rw [cowInit, wp_bind]
  refine allocManager_wp (fun _ => ?_) fun _ _ => settled_none hn
  refine wp_onError_any (F := Settled ps) ?_ fun _ => settled_none rfl
  rw [fileCreate, wp_bind, wp_bind]
  refine wp_tick ?_ fun _ _ => trivial
  rw [wp_modify, wp_bind, wp_modifyCm]
  have hlaid := layout_laid cacheSize { CowManager.zero with filp := true } h12 h16 hmax
  refine wp_mono (settled_place (place_of ?_) ⟨hlaid.sectSize, hlaid.dataOffset, hlaid.small⟩) (fun _ _ h => h)
    fun _ _ _ => trivial
  exact allocSects_fixed.bind fun _ => preserves_fileAllocate.bind fun _ => preserves_cowWriteHeader

theorem reload_laid {elements : UInt64} {cacheSize : Nat} {indexOnly : Bool} (h12 : 12 ≤ ps) (h16 : ps ≤ 16)
    (hmax : elements.toNat * 2 ^ ps < 2 ^ 63) (hn : w.cm.sects = none) :
    wp (cowReload ps elements (cowSectionSize ps) cacheSize indexOnly) w (fun _ w' => Settled ps w')
      (fun _ w' => Settled ps w') := by
  rw [cowReload, wp_bind]
  refine allocManager_wp (fun _ => ?_) fun _ _ => settled_none hn
  refine wp_onError_any (F := Settled ps) ?_ fun _ => settled_none rfl
  rw [wp_bind]
  refine wp_mono wp_true (fun _ w₁ _ => ?_) fun _ _ h => h
  rw [wp_bind, wp_modifyCm]
  refine wp_mono (settled_place ?_ (layout_laid cacheSize w₁.cm h12 h16 hmax)) (fun _ _ h => h)
    fun _ _ _ => trivial
  exact preserves_cowOpenHeader.bind fun _ => place_of allocSects_fixed

theorem act_settled (a : Act) (h12 : 12 ≤ ps) (h16 : ps ≤ 16) (hdev : OfDevice ps (.act a))
    (he : a.enabled w = true) (h : Settled ps w) : Settled ps (left (a.run ps w)) := by
  have hplace : ∀ {x : CowM Unit}, Preserves placePart x → w.cm.sects.isSome = true → Settled ps (left (x w)) :=
    fun hx hl => wp_left (settled_place hx (h hl))
  cases a with
  | init elements fileMax seqid cacheSize uuid =>
      exact wp_left (init_laid h12 h16 hdev (Option.isNone_iff_eq_none.mp he))
  | reload elements cacheSize indexOnly =>
      exact wp_left (reload_laid h12 h16 hdev (Option.isNone_iff_eq_none.mp he))
  | reopen => exact hplace preserves_cowReopen (Bool.and_eq_true_iff.mp he).1
  | readMapping pos => exact hplace (preserves_cowReadMapping.bind fun _ => preserves_pure) he
  | writeMapping pos val => exact hplace preserves_cowWriteMapping he
  | writeCurrent block buf =>
      exact hplace (preserves_cowWriteCurrent fun _ _ => rfl) he
  | modifyCacheSize cacheSize =>
      exact hplace (x := cowModifyCacheSize ps cacheSize) (preserves_modifyCm fun _ => rfl) he
  | truncateToIndex => exact hplace (place_of truncateToIndex_fixed) (Bool.and_eq_true_iff.mp he).1
  | syncAndClose => exact hplace preserves_cowSyncAndClose (Bool.and_eq_true_iff.mp he).1
  | syncAndFree =>
      exact wp_left (P := Settled ps) (wp_mono syncAndFree_none (fun _ _ => settled_none) fun _ _ => settled_none)

theorem step_act {a : Act} (he : a.enabled s.world = true) (hrun : a.run ps s.world = .ok () w) :
    step ps s (.act a) = some ⟨w, lastAfter ps a s.world s.last⟩ := by
  rw [step, if_pos he, hrun]
  rfl

theorem step_settled (h12 : 12 ≤ ps) (h16 : ps ≤ 16) (h : Settled ps s.world) (hdev : OfDevice ps ev)
    (hs : step ps s ev = some t) : Settled ps t.world := by
  cases ev with
  | act a =>
      rw [step] at hs
      split at hs
      next he =>
        cases hs
        exact act_settled a h12 h16 hdev he h
      next => cases hs
  | crash a n =>
      rw [step] at hs
      split at hs
      next =>
        cases hs
        exact settled_none rfl
      next => cases hs

theorem reach_settled {env : Env} (h12 : 12 ≤ ps) (h16 : ps ≤ 16)
    (hr : Reach (step ps) (fun _ e => OfDevice ps e) (.start env) s) : Settled ps s.world :=
  hr.invariant (I := fun s => Settled ps s.world) (settled_none rfl) fun _ _ _ h hdev hs =>
    step_settled h12 h16 h hdev hs

/-- In every state that a file gets into, a close writes nothing but what it may, if and only if it is harmless. -/
theorem close_confined_iff {env : Env} (h12 : 12 ≤ ps) (h16 : ps ≤ 16)
    (hr : Reach (step ps) (fun _ e => OfDevice ps e) (.start env) s) (he : Act.syncAndClose.enabled s.world = true) :
    (∀ a ∈ asked ps s.world, Confined s.world.cm a) ↔ Harmless ps s.world := by
  obtain ⟨hl, hf⟩ := Bool.and_eq_true_iff.mp he
  exact asked_confined_iff h16 hf hl (reach_settled h12 h16 hr hl)

/-- A COW file of some size that was made for a device of 16 blocks on a machine on which no call fails. -/
theorem made_reached (fileMax : UInt64) (hpos : 0 < fileMax.toNat) (hmax : fileMax.toNat < 2 ^ 63) :
    ∃ s, Reach (step 12) (fun _ e => OfDevice 12 e) (.start Start.calm.env) s ∧
      Start.Started 16 fileMax 1 (fun _ => 0) s.world ∧ s.world.env = Start.calm.env := by
  have hdev : OfDevice 12 (.act (.init 16 fileMax 1 1000000 fun _ => 0)) := by
    change (16 : UInt64).toNat * 2 ^ 12 < 2 ^ 63
    decide
  obtain ⟨w, hinit, hstarted, henv⟩ := Start.cowInit_total (w := (State.start Start.calm.env).world) 16 fileMax 1
    1000000 (fun _ => 0) (by rw [Start.sectionTotal_eq]; decide) hpos hmax fun _ => rfl
  have hstep : step 12 (.start Start.calm.env) (.act (.init 16 fileMax 1 1000000 fun _ => 0)) = some _ :=
    step_act rfl hinit
  exact ⟨_, Reach.next .init hdev hstep, hstarted, henv⟩

theorem started_offset {fileMax : UInt64} (h : Start.Started 16 fileMax 1 (fun _ => 0) w) :
    w.cm.dataOffset = 36864 ∧ currSize 12 w.cm = 36864 := by
  have htotal : w.cm.totalSects = 1 := by
    rw [h.total, Start.sectionTotal_eq]
    decide
  have hdata : w.cm.dataOffset = 36864 := by rw [h.wf.dataOffset, htotal]
  refine ⟨hdata, ?_⟩
  rw [currSize, cowBlockSize_four_kib, h.next, hdata, Nat.mod_eq_of_lt (by decide)]

/-- The close of a new file fills what is left of it with the zeroes that the allocator gives. -/
theorem close_confined_fills : ∃ s, Reach (step 12) (fun _ e => OfDevice 12 e) (.start Start.calm.env) s ∧
    (∃ a ∈ asked 12 s.world, a.ahead = true ∧ a.offset = 36864 ∧ a.len = 963136) ∧
    ∀ a ∈ asked 12 s.world, Confined s.world.cm a := by
  obtain ⟨s, hr, hstarted, henv⟩ := made_reached 1000000 (by decide) (by decide)
  have he : Act.syncAndClose.enabled s.world = true := Bool.and_eq_true_iff.mpr ⟨hstarted.wf.live, hstarted.filp⟩
  have hcurr := (started_offset hstarted).2
  have hmax : s.world.cm.fileMax.toNat = 1000000 := by rw [hstarted.fileMax]; rfl
  have hzeroed : Zeroed 12 s.world := fun k _ _ => by
    rw [henv]
    exact wordByte_zero _
  have hreaches : Reaches s.world := fun j _ _ => by rw [henv]; rfl
  have hlen : (fillOf 12 s.world).len = 963136 := by
    rw [fillOf, hcurr, hmax]
    rfl
  have hlaid : Laid 12 s.world.cm := reach_settled le_rfl (by decide) hr hstarted.wf.live
  have hspace : Spacious 12 s.world.cm := by
    refine .inr ⟨by rw [hcurr, hmax]; decide, fun hindex => ?_⟩
    rw [hstarted.mode] at hindex
    cases hindex
  exact ⟨s, hr, ⟨_, (close_logged hstarted.filp hstarted.wf.live hlaid).2 hreaches, rfl, hcurr, hlen⟩,
    (close_confined_iff le_rfl (by decide) hr he).mpr (.inr (.inr ⟨hspace, hzeroed⟩))⟩

/-- An index-only file that is closed gets back what was given to the file system. -/
theorem close_writes_behind_index : ¬ ∀ (env : Env) (s : State),
    Reach (step 12) (fun _ e => OfDevice 12 e) (.start env) s → Act.syncAndClose.enabled s.world = true →
      ∀ a ∈ asked 12 s.world, Confined s.world.cm a := by
  intro h
  obtain ⟨s, hr, hstarted, henv⟩ := made_reached 1000000 (by decide) (by decide)
  have he : Act.truncateToIndex.enabled s.world = true := Bool.and_eq_true_iff.mpr ⟨hstarted.wf.live, hstarted.filp⟩
  obtain ⟨w, hw, hcm, henv'⟩ : ∃ w, cowTruncateToIndex s.world = .ok () w ∧
      w.cm = { s.world.cm with flags := setFlag s.world.cm.flags cowIndexOnly } ∧ w.env = Start.calm.env := by
    have hfault : s.world.env.fault s.world.clock = none := by rw [henv]; rfl
    have hwp : wp cowTruncateToIndex s.world (fun _ w => w.cm = { s.world.cm with
        flags := setFlag s.world.cm.flags cowIndexOnly } ∧ w.env = Start.calm.env) fun _ _ => False := by
      rw [cowTruncateToIndex, wp_bind, wp_modifyCm, wp_bind]
      refine wp_tick ⟨rfl, henv⟩ fun e he => ?_
      rw [hfault] at he
      cases he
    obtain ⟨_, w, hw, hcm, henv'⟩ := wp_total hwp
    exact ⟨w, hw, hcm, henv'⟩
  have hdev : OfDevice 12 (.act .truncateToIndex) := trivial
  have hr' := hr.next hdev (step_act he hw)
  have he' : Act.syncAndClose.enabled w = true := by
    rw [Act.enabled, hcm]
    exact he
  obtain ⟨hdata, hcurr⟩ := started_offset hstarted
  have hmax : s.world.cm.fileMax.toNat = 1000000 := by rw [hstarted.fileMax]; rfl
  rcases (close_confined_iff le_rfl (by decide) hr' he').mp (h _ _ hr' he') with hn | hfull | ⟨hspace, -⟩
  · exact hn fun j _ _ => by rw [henv']; rfl
  · have heq : currSize 12 w.cm = w.cm.fileMax.toNat := hfull
    rw [hcm] at heq
    exact absurd (hcurr.symm.trans (heq.trans hmax)) (by decide)
  · have hspace' : Spacious 12 w.cm := hspace
    rw [hcm] at hspace'
    rcases hspace' with hin | ⟨-, hfit⟩
    · have hin' : currSize 12 s.world.cm + 4096 * 1024 ≤ s.world.cm.dataOffset := hin
      omega
    · have hle : s.world.cm.fileMax.toNat ≤ s.world.cm.dataOffset := hfit (by simp)
      omega

end

end ElastioSnap.Cow.Ahead
