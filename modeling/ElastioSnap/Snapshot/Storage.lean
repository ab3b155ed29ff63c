import ElastioSnap.Cow.BlockStore
import ElastioSnap.Cow.Reload
import ElastioSnap.Snapshot.Drain
import ElastioSnap.Snapshot.Sectors
import ElastioSnap.Snapshot.SnapRead

namespace ElastioSnap.Snapshot.Storage

open Lib.Runs Lib.Table Lib.Outcome Queue Tracking TraceBio ReadComplete CowThread Machine Blocks Refs Filing
  Capture CopyBeforeWrite PointInTime Drain
open Cow.Manager (World CowM)
open Cow.Mapping (cowReadMapping)
open Cow.Data (cowReadData cowWriteCurrent)
open Cow.Lifecycle (cowInit cowFreeMembers cowModifyCacheSize)
open Cow.Reopen (Steady)
open Cow.Section (indexAt Blank)
open Cow.Index (Fixed)
open SnapRead (InRead)

/-- What a sector holds. -/
abbrev Sector := Fin 512 → UInt8

def sectorByte (p : Nat) : Fin 512 := ⟨p % 512, Nat.mod_lt _ (by decide)⟩

/-- What `cow_write_current` gets to store a block. -/
def blockBytes (held : Nat → Sector) : Nat → UInt8 := fun p => held (p / 512) (sectorByte p)

/-- A device in snapshot mode with its COW file. -/
structure Backed where
  snap : State Sector
  world : World

inductive Action
  | snap (a : Machine.Action Sector)
  /-- The ioctl that reconfigures the device. -/
  | modifyCacheSize (cacheSize : Nat)

/-- The loop of `snap_handle_write_bio` over the pages of a clone: how many of them the COW manager took. -/
def handlePages (data : Nat → Nat → Sector) (block : Nat) : Nat → Nat → World → Nat × World
  | 0, _, w => (0, w)
  | left + 1, page, w =>
      match cowWriteCurrent 12 (UInt64.ofNat (block + page)) (blockBytes (data page)) w with
      | .ok _ w' =>
          let r := handlePages data block left (page + 1) w'
          (r.1 + 1, r.2)
      | .error _ w' => (0, w')

/-- The sectors of the pages of a clone. -/
def pageOf (d : Device) (c : Clone Sector) (page : Nat) : Nat → Sector :=
  fun o => c.data (c.sect + d.sectorsPerBlock * page + o)

def snapHandleWriteBio (d : Device) (bio : Bio) (c : Clone Sector) (w : World) : Nat × World :=
  handlePages (pageOf d c) (bio.sector / d.sectorsPerBlock) c.pages 0 w

/-- The loop of `snap_read_bio_get_mode`, which asks the COW manager for the mapping of every block. -/
def snapReadBioGetMode : Mode → List Nat → CowM Mode
  | startMode, [] => pure startMode
  | startMode, b :: bs => do
      let mapping ← cowReadMapping 12 (UInt64.ofNat b)
      match startMode, mapping != 0 with
      | .none, true => snapReadBioGetMode .cowFile bs
      | .none, false => snapReadBioGetMode .baseDevice bs
      | .cowFile, false => pure .mixed
      | .baseDevice, true => pure .mixed
      | m, _ => snapReadBioGetMode m bs

/-- What the COW file holds for a sector, if its block is mapped. -/
def readSector (d : Device) (n : Nat) : CowM (Option Sector) := do
  let mapping ← cowReadMapping 12 (UInt64.ofNat (n / d.sectorsPerBlock))
  if mapping = 0 then pure none
  else do
    let buf ← cowReadData 12 mapping (n % d.sectorsPerBlock * 512)
    pure (some fun k => buf k)

/-- The second pass of `snap_handle_read_bio`, sector by sector. An error leaves the sectors read so far. -/
def overlaySectors (d : Device) : List Nat → (Nat → Sector) → World → Bool × (Nat → Sector) × World
  | [], data, w => (true, data, w)
  | n :: ns, data, w =>
      match readSector d n w with
      | .ok none w' => overlaySectors d ns data w'
      | .ok (some held) w' => overlaySectors d ns (Function.update data n held) w'
      | .error _ w' => (false, data, w')

/-- The steps of `snap_cow_thread` that use the COW manager, which decides how they go. -/
def snapCowThread (d : Device) (act : CowAct) (s : Backed) : Option Backed :=
  match act, s.snap.work with
  | .look, _ =>
      (CowThread.snapCowThread d .look s.snap).map fun t =>
        if s.snap.fail && !s.snap.isFailed then
          match cowFreeMembers s.world with
          | .ok _ w | .error _ w => ⟨t, w⟩
        else ⟨t, s.world⟩
  | .write handled, .write bio =>
      s.snap.clones[bio.id]?.bind fun c =>
        if d.ignoreSnapErrors && s.snap.fail then some ⟨processed s.snap bio.id, s.world⟩
        else
          let r := snapHandleWriteBio d bio c s.world
          if handled = r.1 then
            some ⟨processed (if r.1 < c.pages then tracerSetFailState s.snap else s.snap) bio.id, r.2⟩
          else none
  | .mode ok, .mode bio =>
      s.snap.reads[bio.id]?.bind fun r =>
        match snapReadBioGetMode .none (blocks d r.sector r.sectors) s.world, ok with
        | .ok .cowFile w, true => some ⟨{ s.snap with work := .overlay bio r.pages }, w⟩
        | .ok m w, true => some ⟨{ s.snap with work := .base bio m }, w⟩
        | .error _ w, false => some ⟨{ tracerSetFailState s.snap with work := .finish bio false r.pages }, w⟩
        | _, _ => none
  | .overlay ok, .overlay bio data =>
      s.snap.reads[bio.id]?.bind fun r =>
        match overlaySectors d (List.range' r.sector r.sectors) data s.world, ok with
        | (true, data', w), true => some ⟨{ s.snap with work := .finish bio true data' }, w⟩
        | (false, data', w), false =>
            some ⟨{ tracerSetFailState s.snap with work := .finish bio false data' }, w⟩
        | _, _ => none
  | act, _ => (CowThread.snapCowThread d act s.snap).map fun t => ⟨t, s.world⟩

def step (d : Device) (s : Backed) : Action → Option Backed
  | .snap (.cow act) => snapCowThread d act s
  | .snap a => (Machine.step d s.snap a).map fun t => ⟨t, s.world⟩
  | .modifyCacheSize cacheSize =>
      match cowModifyCacheSize 12 cacheSize s.world with
      | .ok _ w | .error _ w => some ⟨s.snap, w⟩

/-- A state with another one's part of the cow thread: its work, the reads it answers and what it stored. -/
def around (s t : State Sector) : State Sector :=
  { t with work := s.work, reads := s.reads, saved := s.saved }

variable {d : Device} {s t : State Sector} {i k : Nat} {w : Write} {c : Clone Sector}

theorem guarded_map {α : Type} {p q : Prop} [Decidable p] [Decidable q] {f : α → α} {x x' y y' : Option α}
    (hpq : p ↔ q) (hx : x = x'.map f) (hy : y = y'.map f) :
    (if p then x else y) = (if q then x' else y').map f := by
  by_cases hq : q
  · rw [if_pos (hpq.mpr hq), if_pos hq, hx]
  · rw [if_neg fun hp => hq (hpq.mp hp), if_neg hq, hy]

theorem clone_around (alloc : CloneAlloc) :
    bioMakeReadClone d alloc i w (around s t) = (bioMakeReadClone d alloc i w t).map (around s) := by
  cases alloc with
  | noBio => rfl
  | noPage addr => exact guarded_map Iff.rfl rfl rfl
  | made addr n => exact guarded_map Iff.rfl rfl rfl

theorem tracer_around (act : TraceAct) :
    snapTraceBio d act i w (around s t) = (snapTraceBio d act i w t).map (around s) := by
  have hnew : newBio w (around s t) = newBio w t := rfl
  unfold snapTraceBio
  split
  case h_1 | h_2 | h_5 | h_8 | h_9 | h_11 => rfl
  case h_3 => exact clone_around _
  case h_4 | h_7 =>
    rw [hnew]
    cases newBio w t <;> rfl
  case h_6 => cases w.newBio <;> rfl
  case h_10 =>
    unfold freeNewBio
    cases w.newBio <;> rfl

theorem reader_around (act : ReadAct) :
    onBioReadComplete d act k c w (around s t) = (onBioReadComplete d act k c w t).map (around s) := by
  unfold onBioReadComplete
  split
  case h_1 => exact guarded_map Iff.rfl rfl rfl
  all_goals rfl

theorem mrf_around {content : Nat → Sector} :
    snapMrfThread content (around s t) = (snapMrfThread content t).map (around s) := by
  have ho : (around s t).origBios = t.origBios := rfl
  simp only [snapMrfThread, ho]
  cases t.origBios with
  | nil => rfl
  | cons i rest =>
      have hw : (around s t).writes = t.writes := rfl
      simp only [hw]
      cases t.writes[i]? <;> rfl

/-- The calls, the handlers and the other threads do not look at what is the cow thread's. -/
theorem step_around {a : Machine.Action Sector} (hcow : ∀ act, a ≠ .cow act)
    (hread : ∀ sector sectors pages, a ≠ .snapRead sector sectors pages) :
    Machine.step d (around s t) a = (Machine.step d t a).map (around s) := by
  cases a with
  | trace sector sectors => exact guarded_map Iff.rfl rfl rfl
  | tracer i act =>
      simp only [Machine.step]
      change (t.writes[i]?.bind fun w => snapTraceBio d act i w (around s t)) = _
      cases t.writes[i]? with
      | none => rfl
      | some w => exact tracer_around act
  | reader k act =>
      simp only [Machine.step]
      change (t.clones[k]?.bind fun c => t.writes[c.tp]?.bind fun w => onBioReadComplete d act k c w (around s t)) = _
      cases t.clones[k]? with
      | none => rfl
      | some c =>
          dsimp only [Option.bind]
          cases t.writes[c.tp]? with
          | none => rfl
          | some w => exact reader_around act
  | cow act => exact absurd rfl (hcow act)
  | snapRead sector sectors pages => exact absurd rfl (hread sector sectors pages)
  | mrfSubmit content => exact guarded_map Iff.rfl rfl mrf_around
  | mrfExit => exact guarded_map Iff.rfl rfl rfl
  | direct sector sectors content => exact guarded_map Iff.rfl rfl rfl
  | failure => rfl
  | stopTracing => rfl
  | stopCow => exact guarded_map Iff.rfl rfl rfl
  | stopMrf => exact guarded_map Iff.rfl rfl rfl
  | free => exact guarded_map Iff.rfl rfl rfl

/-- The COW file, which started as `w₀`, serves the device: it holds what is saved, and has an index entry
for every block. -/
structure Serves (d : Device) (w₀ : World) (saved : Nat → Option (Nat → Sector)) (w : World) : Prop where
  store : Cow.BlockStore.Store w fun b => (saved b).map blockBytes
  blank : Blank w
  fixed : Fixed w₀ w
  room : d.size ≤ d.sectorsPerBlock * (4096 * w.cm.totalSects)

section

variable {saved : Nat → Option (Nat → Sector)} {w₀ w w' : World} {b n : Nat} {data : Nat → Sector}

theorem Serves.steady (h : Serves d w₀ saved w) (hs : Steady w w') : Serves d w₀ saved w' where
  store := h.store.steady hs
  blank := hs.blank h.blank
  fixed := h.fixed.trans (.of_steady hs)
  room := by rw [hs.totalSects]; exact h.room

/-- The number of a block that has an entry does not overflow. -/
theorem Serves.toNat (h : Serves d w₀ saved w) (hb : b < 4096 * w.cm.totalSects) : (UInt64.ofNat b).toNat = b := by
  have ha := h.store.live.placed.above
  have hf := h.store.live.placed.fits
  rw [h.store.live.wf.dataOffset] at ha
  rw [UInt64.toNat_ofNat']
  exact Nat.mod_eq_of_lt (by omega)

theorem Serves.entry (h : Serves d w₀ saved w) (hb : b < 4096 * w.cm.totalSects) :
    indexAt w b = 0 ↔ saved b = none := by
  constructor
  · intro hz
    cases hs : saved b with
    | none => rfl
    | some held =>
        have hm := h.store.mapped b (blockBytes held) hb (by rw [hs]; rfl)
        exact absurd hz (hm.ne_zero h.store.live.wf)
  · exact fun hs => h.store.unmapped b hb (by rw [hs]; rfl)

theorem Serves.room_of (h : Serves d w₀ saved w) (hn : n < d.size) : n / d.sectorsPerBlock < 4096 * w.cm.totalSects :=
  Nat.div_lt_of_lt_mul (hn.trans_le h.room)

theorem cowReadMapping_serves (h : Serves d w₀ saved w) (hb : b < 4096 * w.cm.totalSects) :
    wp (cowReadMapping 12 (UInt64.ofNat b)) w
      (fun v w' => v = indexAt w b ∧ Steady w w') (fun _ _ => ¬ w.env.Faultless) := by
  have hn := h.toNat hb
  apply wp_mono (Cow.Mapping.cowReadMapping_wp h.store.live.wf (by rw [hn]; exact hb))
  · rintro v w' ⟨rfl, hs⟩
    exact ⟨by rw [hn], .of_same h.store.live hs⟩
  · exact fun _ _ he => he.1 h.store.live.filp

theorem cowWriteCurrent_serves (h : Serves d w₀ saved w) (hb : b < 4096 * w.cm.totalSects) (held : Nat → Sector) :
    wp (cowWriteCurrent 12 (UInt64.ofNat b) (blockBytes held)) w
      (fun _ w' => Serves d w₀ (fun n => (saved n).or (if n = b then some held else none)) w' ∧
        w'.cm.totalSects = w.cm.totalSects) (fun _ _ => True) := by
  have hn := h.toNat hb
  have hl := h.store.live
  apply wp_mono (Cow.Data.cowWriteCurrent_wp hl.wf hl.filp hl.placed (by rw [hn]; exact hb))
  · intro _ w' hw
    rw [hn] at hw
    split at hw
    next hz =>
      obtain ⟨w₁, hsame, hstored⟩ := hw
      have hs := Steady.of_same hl hsame
      have htotal : w'.cm.totalSects = w.cm.totalSects := by rw [hstored.cm]; exact hs.totalSects
      refine ⟨⟨?_, hstored.blank (hs.blank h.blank), (h.fixed.trans (.of_steady hs)).trans (.of_stored hstored),
        by rw [htotal]; exact h.room⟩, htotal⟩
      refine ((h.store.steady hs).stored (by rw [hn, hs.index b hb]; exact hz) hstored).congr fun n _ => ?_
      rw [hn]
      cases saved n with
      | some held' => rfl
      | none => split <;> rfl
    next hne =>
      have hs := Steady.of_same hl hw
      refine ⟨?_, hs.totalSects⟩
      have hsaved : (fun n => (saved n).or (if n = b then some held else none)) = saved := by
        funext n
        by_cases hnb : n = b
        · obtain ⟨held', hh⟩ := Option.ne_none_iff_exists'.mp fun hnone => hne ((h.entry hb).mpr hnone)
          rw [hnb, hh]
          rfl
        · rw [if_neg hnb, Option.or_none]
      rw [hsaved]
      exact h.steady hs
  · exact fun _ _ _ => trivial

theorem handlePages_le {pages : Nat → Nat → Sector} {left page : Nat} :
    (handlePages pages b left page w).1 ≤ left := by
  induction left generalizing page w with
  | zero => exact le_rfl
  | succ left ih =>
      simp only [handlePages]
      split
      · exact Nat.succ_le_succ ih
      · exact Nat.zero_le _

/-- When all pages are taken, each block holds its page unless it was stored before. -/
theorem handlePages_serves {pages : Nat → Nat → Sector} {left page : Nat} (h : Serves d w₀ saved w)
    (hb : b + page + left ≤ 4096 * w.cm.totalSects) (hall : (handlePages pages b left page w).1 = left) :
    Serves d w₀ (fun n => (saved n).or (if b + page ≤ n ∧ n < b + page + left then some (pages (n - b)) else none))
      (handlePages pages b left page w).2 := by
  induction left generalizing page w saved with
  | zero =>
      have hsaved : (fun n => (saved n).or
          (if b + page ≤ n ∧ n < b + page + 0 then some (pages (n - b)) else none)) = saved := by
        funext n
        rw [if_neg (by omega), Option.or_none]
      rw [hsaved]
      exact h
  | succ left ih =>
      have hone := cowWriteCurrent_serves h (b := b + page) (by omega) (pages page)
      simp only [handlePages] at hall ⊢
      split
      next _ w' hw =>
        rw [hw] at hall
        obtain ⟨hs, htotal⟩ := wp_ok hone hw
        have hrest := ih hs (by rw [htotal]; omega) (Nat.succ.inj hall)
        convert hrest using 1
        funext n
        rw [Option.or_assoc]
        congr 1
        by_cases hn : n = b + page
        · subst hn
          rw [if_pos (by omega), if_pos rfl, Option.some_or, Nat.add_sub_cancel_left]
        · rw [if_neg hn, Option.none_or]
          congr 1
          exact propext (by omega)
      next _ w' hw =>
        rw [hw] at hall
        cases hall

theorem readMode_serves {m : Mode} (h : Serves d w₀ saved w) (bs : List Nat)
    (hb : ∀ b ∈ bs, b < 4096 * w.cm.totalSects) :
    wp (snapReadBioGetMode m bs) w
      (fun m' w' => m' = readMode (fun b => (saved b).isSome) m bs ∧ Serves d w₀ saved w')
      (fun _ _ => ¬ w.env.Faultless) := by
  induction bs generalizing m w with
  | nil => exact ⟨rfl, h⟩
  | cons b bs ih =>
      rw [snapReadBioGetMode, wp_bind]
      have hbb := hb b List.mem_cons_self
      apply wp_mono (cowReadMapping_serves h hbb)
      · rintro v w' ⟨rfl, hs⟩
        have hrest : ∀ m, wp (snapReadBioGetMode m bs) w'
            (fun m' w' => m' = readMode (fun b => (saved b).isSome) m bs ∧ Serves d w₀ saved w')
            (fun _ _ => ¬ w.env.Faultless) := by
          intro m
          rw [← hs.env]
          exact ih (h.steady hs) fun c hc => by rw [hs.totalSects]; exact hb c (List.mem_cons_of_mem _ hc)
        have hmapped : (indexAt w b != 0) = (saved b).isSome := by
          have he := h.entry hbb
          cases hsb : saved b with
          | none => rw [he.mpr hsb]; rfl
          | some held => rw [bne_iff_ne.mpr fun hz => by rw [he.mp hz] at hsb; cases hsb]; rfl
        rw [hmapped]
        cases hsb : (saved b).isSome with
        | true =>
            cases m with
            | none | cowFile | mixed =>
                simp only [readMode, hsb]
                exact hrest _
            | baseDevice =>
                simp only [readMode, hsb]
                exact ⟨rfl, h.steady hs⟩
        | false =>
            cases m with
            | none | baseDevice | mixed =>
                simp only [readMode, hsb]
                exact hrest _
            | cowFile =>
                simp only [readMode, hsb]
                exact ⟨rfl, h.steady hs⟩
      · exact fun _ _ he => he

/-- The byte of a sector inside the bytes of its block. -/
theorem blockBytes_at (held : Nat → Sector) (o : Nat) (k : Fin 512) : blockBytes held (o * 512 + k) = held o k := by
  have hk := k.isLt
  have hdiv : (o * 512 + k) / 512 = o := by omega
  have hmod : sectorByte (o * 512 + k) = k := Fin.ext (show (o * 512 + k) % 512 = k by omega)
  rw [blockBytes, hdiv, hmod]

theorem steady_clock (hl : Cow.Reopen.Live w) (clock : Nat) : Steady w { w with clock := clock } where
  live := ⟨hl.wf.congr rfl rfl rfl rfl le_rfl (.inl hl.filp), hl.filp, hl.linked, hl.placed.above, hl.placed.fits⟩
  cm := rfl
  mode := rfl
  env := rfl
  blank := id
  index _ _ := rfl
  size := le_rfl
  data _ _ _ := rfl

theorem readSector_serves (h : Serves d w₀ saved w) (h8 : d.sectorsPerBlock = 8) (hn : n < d.size) :
    wp (readSector d n) w
      (fun held w' => held = (saved (n / d.sectorsPerBlock)).map (fun f => f (n % d.sectorsPerBlock)) ∧
        Serves d w₀ saved w' ∧ w'.cm.totalSects = w.cm.totalSects) (fun _ _ => ¬ w.env.Faultless) := by
  rw [readSector, wp_bind]
  have hb := h.room_of hn
  apply wp_mono (cowReadMapping_serves h hb)
  · rintro v w' ⟨rfl, hs⟩
    rw [wp_ite]
    split
    next hz =>
      rw [(h.entry hb).mp hz]
      exact ⟨rfl, h.steady hs, hs.totalSects⟩
    next hne =>
      obtain ⟨held, hh⟩ := Option.ne_none_iff_exists'.mp fun hnone => hne ((h.entry hb).mpr hnone)
      have hm := (h.store.mapped _ (blockBytes held) hb (by rw [hh]; rfl)).steady hs
      have hmax := w'.cm.fileMax.toNat_lt
      have hfits := hm.allotted
      have hmod := Nat.mod_lt n d.pos
      rw [wp_bind]
      apply wp_mono (Cow.Data.cowReadData_wp hs.live.filp (by omega) (by rw [← Nat.succ_mul]; exact hm.size)
        (by omega))
      · rintro buf w'' ⟨hw, hbuf⟩
        have hread : Steady w' w'' := by
          rw [hw]
          exact steady_clock hs.live _
        refine ⟨?_, (h.steady hs).steady hread, hread.totalSects.trans hs.totalSects⟩
        rw [hh, Option.map_some]
        congr 1
        funext k
        have hk := k.isLt
        rw [hbuf k (by omega), hm.data _ (by omega), blockBytes_at]
      · exact fun _ _ he => hs.env ▸ he
  · exact fun _ _ he => he

theorem overlaySectors_serves {ns : List Nat} (h : Serves d w₀ saved w) (data : Nat → Sector)
    (h8 : d.sectorsPerBlock = 8) (hn : ∀ n ∈ ns, n < d.size) (hok : (overlaySectors d ns data w).1 = true) :
    Serves d w₀ saved (overlaySectors d ns data w).2.2 ∧
      ∀ n, (overlaySectors d ns data w).2.1 n = if n ∈ ns then overlay d saved data n else data n := by
  induction ns generalizing data w with
  | nil => exact ⟨h, fun n => by rw [if_neg List.not_mem_nil]; rfl⟩
  | cons n ns ih =>
      have hone := readSector_serves h h8 (hn n List.mem_cons_self)
      have hrest : ∀ m ∈ ns, m < d.size := fun m hm => hn m (List.mem_cons_of_mem _ hm)
      simp only [overlaySectors] at hok ⊢
      split
      next w' hw =>
        rw [hw] at hok
        obtain ⟨hnone, hs, -⟩ := wp_ok hone hw
        obtain ⟨hserves, hdata⟩ := ih hs _ hrest hok
        refine ⟨hserves, fun m => (hdata m).trans ?_⟩
        by_cases hmn : m = n
        · subst hmn
          have hover : overlay d saved data m = data m := by
            rw [overlay, Option.map_eq_none_iff.mp hnone.symm]
          rw [hover, ite_self, ite_self]
        · simp only [List.mem_cons, hmn, false_or]
      next held w' hw =>
        rw [hw] at hok
        obtain ⟨hsome, hs, -⟩ := wp_ok hone hw
        obtain ⟨hserves, hdata⟩ := ih hs _ hrest hok
        obtain ⟨f, hf, hheld⟩ := Option.map_eq_some_iff.mp hsome.symm
        refine ⟨hserves, fun m => (hdata m).trans ?_⟩
        by_cases hmn : m = n
        · subst hmn
          have hover : ∀ data, overlay d saved data m = held := fun data => by rw [overlay, hf]; exact hheld
          rw [hover, hover, if_pos List.mem_cons_self, Function.update_self, ite_self]
        · have hover : overlay d saved (Function.update data n held) m = overlay d saved data m := by
            rw [overlay, overlay, Function.update_of_ne hmn]
          simp only [List.mem_cons, hmn, false_or, hover, Function.update_of_ne hmn]
      next _ w' hw =>
        rw [hw] at hok
        cases hok

end

/-- The data that answer a read, compared where it asked for them. -/
def SameData (r : SnapRead Sector) (data data' : Nat → Sector) : Prop :=
  ∀ n, InRead r n → data n = data' n

inductive SameStatus (r : SnapRead Sector) : ReadStatus Sector → ReadStatus Sector → Prop
  | waiting : SameStatus r .waiting .waiting
  | ended (ok failed : Bool) {data data' : Nat → Sector} (h : SameData r data data') :
      SameStatus r (.ended ok failed data) (.ended ok failed data')

/-- A read of one machine and the read of the other one that it stands for. -/
structure SameRead (r r' : SnapRead Sector) : Prop where
  sector : r.sector = r'.sector
  sectors : r.sectors = r'.sectors
  pages : r.pages = r'.pages
  status : SameStatus r' r.status r'.status

structure SameReads (rs rs' : List (SnapRead Sector)) : Prop where
  length : rs.length = rs'.length
  same : ∀ (k : Nat) (r r' : SnapRead Sector), rs[k]? = some r → rs'[k]? = some r' → SameRead r r'

inductive SameWork (reads : List (SnapRead Sector)) : Work Sector → Work Sector → Prop
  | same (work : Work Sector) : SameWork reads work work
  | finish (bio : Bio) (ok : Bool) {data data' : Nat → Sector} {r : SnapRead Sector}
      (hr : reads[bio.id]? = some r) (h : SameData r data data') :
      SameWork reads (.finish bio ok data) (.finish bio ok data')

/-- The device with its COW file stands for the device that keeps what it saved. -/
structure Matches (d : Device) (w₀ : World) (s : Backed) (t : State Sector) : Prop where
  snap : s.snap = around s.snap t
  work : SameWork t.reads s.snap.work t.work
  reads : SameReads s.snap.reads t.reads
  serves : Serves d w₀ t.saved s.world

variable {w₀ : World}

theorem SameRead.refl (r : SnapRead Sector) : SameRead r r where
  sector := rfl
  sectors := rfl
  pages := rfl
  status := by
    cases r.status with
    | waiting => exact .waiting
    | ended ok failed data => exact .ended ok failed fun _ _ => rfl

theorem SameReads.append {rs rs' : List (SnapRead Sector)} (h : SameReads rs rs') (r : SnapRead Sector) :
    SameReads (rs ++ [r]) (rs' ++ [r]) where
  length := by rw [List.length_append, List.length_append, h.length]
  same k q q' hq hq' := by
    have hlen := h.length
    rcases append_some hq with hold | ⟨hk, rfl⟩
    · have hlt := (List.getElem?_eq_some_iff.mp hold).1
      rcases append_some hq' with hold' | ⟨hk', rfl⟩
      · exact h.same k q q' hold hold'
      · omega
    · rcases append_some hq' with hold' | ⟨_, rfl⟩
      · have hlt := (List.getElem?_eq_some_iff.mp hold').1
        omega
      · exact .refl _

/-- A read of one of them is ended as the one it stands for is. -/
theorem SameReads.modify {rs rs' : List (SnapRead Sector)} {f g : SnapRead Sector → SnapRead Sector} {n : Nat}
    (h : SameReads rs rs')
    (hf : ∀ r r', rs[n]? = some r → rs'[n]? = some r' → SameRead r r' → SameRead (f r) (g r')) :
    SameReads (rs.modify n f) (rs'.modify n g) where
  length := by rw [List.length_modify, List.length_modify, h.length]
  same k q q' hq hq' := by
    rcases modify_some hq with ⟨rfl, p, hp, rfl⟩ | ⟨hk, hq⟩
    · rcases modify_some hq' with ⟨_, p', hp', rfl⟩ | ⟨hk, _⟩
      · exact hf p p' hp hp' (h.same _ p p' hp hp')
      · exact absurd rfl hk
    · rcases modify_some hq' with ⟨hk', _⟩ | ⟨_, hq'⟩
      · exact absurd hk' hk
      · exact h.same k q q' hq hq'

theorem SameWork.eq {reads : List (SnapRead Sector)} {work work' : Work Sector} (h : SameWork reads work work')
    (hw : ∀ bio ok data, work ≠ .finish bio ok data) : work' = work := by
  cases h with
  | same => rfl
  | finish bio ok => exact absurd rfl (hw bio ok _)

theorem Matches.fail {s : Backed} (h : Matches d w₀ s t) : s.snap.fail = t.fail := by rw [h.snap]; rfl

/-- A step that leaves the cow thread's part alone. -/
theorem Matches.aside {s s' : Backed} {a : Machine.Action Sector} (h : Matches d w₀ s t) (hcow : ∀ act, a ≠ .cow act)
    (hread : ∀ sector sectors pages, a ≠ .snapRead sector sectors pages)
    (hstep : (Machine.step d s.snap a).map (fun u => Backed.mk u s.world) = some s') :
    ∃ t', Machine.step d t a = some t' ∧ Matches d w₀ s' t' := by
  obtain ⟨u, hu, rfl⟩ := Option.map_eq_some_iff.mp hstep
  rw [h.snap, step_around hcow hread] at hu
  obtain ⟨t', ht', rfl⟩ := Option.map_eq_some_iff.mp hu
  have hself := step_around (d := d) (s := t) (t := t) hcow hread
  change Machine.step d t a = _ at hself
  rw [ht'] at hself
  have hback : t' = around t t' := Option.some.inj hself
  have hreads : t'.reads = t.reads := by rw [hback]; rfl
  refine ⟨t', ht', rfl, ?_, ?_, ?_⟩
  · rw [hreads, show t'.work = t.work by rw [hback]; rfl]
    exact h.work
  · rw [hreads]
    exact h.reads
  · rw [show t'.saved = t.saved by rw [hback]; rfl]
    exact h.serves

theorem Matches.snapRead {s s' : Backed} {sector sectors : Nat} {pages : Nat → Sector} (h : Matches d w₀ s t)
    (hstep : (Machine.step d s.snap (.snapRead sector sectors pages)).map (fun u => Backed.mk u s.world) = some s') :
    ∃ t', Machine.step d t (.snapRead sector sectors pages) = some t' ∧ Matches d w₀ s' t' := by
  have hlen := h.reads.length
  have hwork : ∀ r : SnapRead Sector, SameWork (t.reads ++ [r]) s.snap.work t.work := by
    intro r
    cases hw : s.snap.work with
    | finish bio ok data =>
        have hsame := h.work
        rw [hw] at hsame
        generalize t.work = v at hsame
        cases hsame with
        | same => exact .same _
        | finish _ _ hr hd => exact .finish bio ok (append_old hr) hd
    | _ =>
        rw [h.work.eq (by rw [hw]; nofun), hw]
        exact .same _
  obtain ⟨u, hu, rfl⟩ := Option.map_eq_some_iff.mp hstep
  simp only [Machine.step] at hu ⊢
  rw [h.fail] at hu
  split at hu
  next hf =>
    cases hu
    rw [if_pos hf]
    refine ⟨_, rfl, ?_, hwork _, ?_, h.serves⟩
    · rw [h.snap]; rfl
    · exact h.reads.append _
  next hf =>
    cases hu
    rw [if_neg hf]
    refine ⟨_, rfl, ?_, hwork _, ?_, h.serves⟩
    · rw [h.snap, around]
      simp only [hlen, around]
    · exact h.reads.append _

section

variable {s s' : Backed} {t : State Sector}

/-- The reads are the same as far as the cow thread looks at them. -/
theorem SameReads.find {rs rs' : List (SnapRead Sector)} {n : Nat} {r : SnapRead Sector} (h : SameReads rs rs')
    (hr : rs[n]? = some r) : ∃ r', rs'[n]? = some r' ∧ SameRead r r' := by
  have hlt := (List.getElem?_eq_some_iff.mp hr).1
  rw [h.length] at hlt
  exact ⟨rs'[n], List.getElem?_eq_getElem hlt, h.same n r _ hr (List.getElem?_eq_getElem hlt)⟩

theorem Matches.look (h : Matches d w₀ s t) (hnf : s.snap.fail = false) (hstep : snapCowThread d .look s = some s') :
    ∃ t', CowThread.snapCowThread d .look t = some t' ∧ Matches d w₀ s' t' := by
  obtain ⟨u, hu, hs⟩ := Option.map_eq_some_iff.mp hstep
  rw [hnf] at hs
  cases hs
  cases snapCowThread_step hu with
  | look hw he =>
      have hwt : t.work = .idle := (h.work.eq (by rw [hw]; nofun)).trans hw
      have het : t.cowExited = false := by rw [h.snap] at he; exact he
      refine ⟨{ t with isFailed := t.isFailed || t.fail, work := .dequeue }, ?_, ?_, .same _, h.reads, h.serves⟩
      · simp only [CowThread.snapCowThread, hwt, het, Bool.false_eq_true, if_false]
      · rw [h.snap]; rfl
  | error _ _ _ hact => simp at hact

theorem Matches.dequeue (h : Matches d w₀ s t) (hq : t.isFailed = false)
    (hstep : snapCowThread d .dequeue s = some s') :
    ∃ t', CowThread.snapCowThread d .dequeue t = some t' ∧ Matches d w₀ s' t' := by
  obtain ⟨u, hu, rfl⟩ := Option.map_eq_some_iff.mp hstep
  have hbios : s.snap.cowBios = t.cowBios := by rw [h.snap]; rfl
  have hfail : s.snap.isFailed = false := by rw [h.snap]; exact hq
  cases snapCowThread_step hu with
  | empty hw hnil =>
      have hwt : t.work = .dequeue := (h.work.eq (by rw [hw]; nofun)).trans hw
      rw [hbios] at hnil
      refine ⟨{ t with work := .idle }, ?_, ?_, .same _, h.reads, h.serves⟩
      · simp only [CowThread.snapCowThread, hwt, dequeue_nil_iff.mpr hnil]
      · rw [h.snap]; rfl
  | take bio rest hw hd =>
      have hwt : t.work = .dequeue := (h.work.eq (by rw [hw]; nofun)).trans hw
      rw [hbios] at hd
      refine ⟨{ t with cowBios := rest, work := if bio.isWrite then .write bio else .mode bio }, ?_, ?_, .same _,
        h.reads, h.serves⟩
      · simp only [CowThread.snapCowThread, hwt, hd, take, hq]
        cases bio.isWrite <;> rfl
      · rw [h.snap]; rfl
  | drop bio rest hw hd hf =>
      rw [hfail] at hf
      cases hf
  | error _ _ _ hact => simp at hact

theorem Matches.exit (h : Matches d w₀ s t) (hstep : snapCowThread d .exit s = some s') :
    ∃ t', CowThread.snapCowThread d .exit t = some t' ∧ Matches d w₀ s' t' := by
  obtain ⟨u, hu, rfl⟩ := Option.map_eq_some_iff.mp hstep
  cases snapCowThread_step hu with
  | exit hw he hs hq hn =>
      have hwt : t.work = .idle := (h.work.eq (by rw [hw]; nofun)).trans hw
      rw [h.snap] at he hs hq hn
      simp only [around] at he hs hq hn
      refine ⟨{ t with cowExited := true }, ?_, ?_, h.work, h.reads, h.serves⟩
      · simp only [CowThread.snapCowThread, hwt, he, hs, hq, hn, List.isEmpty_nil, Bool.not_false, Bool.and_self,
          beq_self_eq_true, if_true]
      · rw [h.snap]; rfl
  | error _ _ _ hact => simp at hact

theorem Matches.base {ok : Bool} (h : Matches d w₀ s t) (hstep : snapCowThread d (.base ok) s = some s')
    (hs' : s'.snap.fail = false) : ∃ t', CowThread.snapCowThread d (.base ok) t = some t' ∧ Matches d w₀ s' t' := by
  obtain ⟨u, hu, rfl⟩ := Option.map_eq_some_iff.mp hstep
  cases hw : s.snap.work with
  | base bio m =>
      have hwt : t.work = .base bio m := (h.work.eq (by rw [hw]; nofun)).trans hw
      simp only [CowThread.snapCowThread, hw] at hu
      obtain ⟨r, hr, rfl⟩ := Option.map_eq_some_iff.mp hu
      obtain ⟨r', hr', -⟩ := h.reads.find hr
      cases ok with
      | false => cases hs'
      | true =>
          have hbase : s.snap.base = t.base := by rw [h.snap]; rfl
          simp only [CowThread.snapCowThread, hwt, hr', Option.map_some, if_true]
          refine ⟨_, rfl, ?_⟩
          by_cases hm : m = .baseDevice
          · rw [if_pos hm, if_pos hm]
            exact ⟨by rw [h.snap]; rfl, by rw [hbase]; exact .same _, h.reads, h.serves⟩
          · rw [if_neg hm, if_neg hm]
            exact ⟨by rw [h.snap]; rfl, by rw [hbase]; exact .same _, h.reads, h.serves⟩
  | _ =>
      simp only [CowThread.snapCowThread, hw] at hu
      cases hu

theorem Matches.finish (h : Matches d w₀ s t) (hstep : snapCowThread d .finish s = some s') :
    ∃ t', CowThread.snapCowThread d .finish t = some t' ∧ Matches d w₀ s' t' := by
  obtain ⟨u, hu, rfl⟩ := Option.map_eq_some_iff.mp hstep
  cases hw : s.snap.work with
  | finish bio ok data =>
      simp only [CowThread.snapCowThread, hw] at hu
      cases hu
      have hfail := h.fail
      obtain ⟨data', hwt, hdata⟩ : ∃ data', t.work = .finish bio ok data' ∧
          ∀ r, t.reads[bio.id]? = some r → SameData r data data' := by
        have hsame := h.work
        rw [hw] at hsame
        generalize t.work = v at hsame
        cases hsame with
        | same => exact ⟨data, rfl, fun _ _ _ _ => rfl⟩
        | finish _ _ hr hd =>
            refine ⟨_, rfl, fun r hr' => ?_⟩
            cases hr.symm.trans hr'
            exact hd
      simp only [CowThread.snapCowThread, hwt]
      refine ⟨_, rfl, by rw [h.snap]; rfl, .same _, ?_, h.serves⟩
      refine h.reads.modify fun r r' _ hr' hrr => ⟨hrr.sector, hrr.sectors, hrr.pages, ?_⟩
      dsimp only
      rw [hfail]
      exact .ended _ _ (hdata r' hr')
  | _ =>
      simp only [CowThread.snapCowThread, hw] at hu
      cases hu

/-- The mode is the one that the saved blocks give. -/
theorem Matches.mode {ok : Bool} (h : Matches d w₀ s t) (hi : Inside d t)
    (hstep : snapCowThread d (.mode ok) s = some s') (hs' : s'.snap.fail = false) :
    ∃ t', CowThread.snapCowThread d (.mode ok) t = some t' ∧ Matches d w₀ s' t' := by
  cases hw : s.snap.work with
  | mode bio =>
      have hwt : t.work = .mode bio := (h.work.eq (by rw [hw]; nofun)).trans hw
      simp only [snapCowThread, hw] at hstep
      obtain ⟨r, hr, hstep⟩ := Option.bind_eq_some_iff.mp hstep
      obtain ⟨r', hr', hsame⟩ := h.reads.find hr
      have hspec := readMode_serves (m := .none) h.serves (blocks d r.sector r.sectors) fun b hb => by
        obtain ⟨n, hn, rfl⟩ := List.mem_map.mp hb
        have hle := hi.reads bio.id r' hr'
        rw [← hsame.sector, ← hsame.sectors] at hle
        exact h.serves.room_of ((List.mem_range'_1.mp hn).2.trans_le hle)
      have hmode : CowThread.snapReadBioGetMode d t r' =
          readMode (fun b => (t.saved b).isSome) .none (blocks d r.sector r.sectors) := by
        rw [CowThread.snapReadBioGetMode, hsame.sector, hsame.sectors]
      cases hm : snapReadBioGetMode .none (blocks d r.sector r.sectors) s.world with
      | error e w =>
          rw [hm] at hstep
          cases ok with
          | true => cases hstep
          | false =>
              cases hstep
              cases hs'
      | ok m w =>
          rw [hm] at hstep
          obtain ⟨he, hserves⟩ := wp_ok hspec hm
          cases ok with
          | false => cases m <;> cases hstep
          | true =>
              simp only [CowThread.snapCowThread, hwt, hr', Option.map_some, if_true, hmode, ← he]
              cases m with
              | cowFile =>
                  cases hstep
                  exact ⟨_, rfl, by rw [h.snap]; rfl, by rw [← hsame.pages]; exact .same _, h.reads, hserves⟩
              | _ =>
                  cases hstep
                  exact ⟨_, rfl, by rw [h.snap]; rfl, .same _, h.reads, hserves⟩
  | _ =>
      simp only [snapCowThread, CowThread.snapCowThread, hw] at hstep
      cases hstep

theorem Matches.overlay {ok : Bool} (h : Matches d w₀ s t) (hi : Inside d t) (h8 : d.sectorsPerBlock = 8)
    (hstep : snapCowThread d (.overlay ok) s = some s') (hs' : s'.snap.fail = false) :
    ∃ t', CowThread.snapCowThread d (.overlay ok) t = some t' ∧ Matches d w₀ s' t' := by
  cases hw : s.snap.work with
  | overlay bio data =>
      have hwt : t.work = .overlay bio data := (h.work.eq (by rw [hw]; nofun)).trans hw
      simp only [snapCowThread, hw] at hstep
      obtain ⟨r, hr, hstep⟩ := Option.bind_eq_some_iff.mp hstep
      obtain ⟨r', hr', hsame⟩ := h.reads.find hr
      have hspec := overlaySectors_serves h.serves data h8 fun n hn => by
        have hle := hi.reads bio.id r' hr'
        rw [← hsame.sector, ← hsame.sectors] at hle
        exact (List.mem_range'_1.mp hn).2.trans_le hle
      cases ho : overlaySectors d (List.range' r.sector r.sectors) data s.world with
      | mk got rest =>
          obtain ⟨data', w⟩ := rest
          rw [ho] at hspec hstep
          cases ok with
          | false =>
              cases got with
              | true => cases hstep
              | false =>
                  cases hstep
                  cases hs'
          | true =>
              cases got with
              | false => cases hstep
              | true =>
                  cases hstep
                  obtain ⟨hserves, hdata⟩ := hspec rfl
                  simp only [CowThread.snapCowThread, hwt]
                  refine ⟨_, rfl, by rw [h.snap]; rfl, .finish bio true hr' fun n hn => ?_, h.reads, hserves⟩
                  have hin : n ∈ List.range' r.sector r.sectors := by
                    rw [List.mem_range'_1, hsame.sector, hsame.sectors]
                    exact hn
                  exact (hdata n).trans (if_pos hin)
  | _ =>
      simp only [snapCowThread, CowThread.snapCowThread, hw] at hstep
      cases hstep

/-- Every page of a clone goes to a block that has an index entry. -/
theorem Matches.room (h : Matches d w₀ s t) (hf : Filed d t) (hi : Inside d t) (hq : Queued d t) {bio : Bio}
    (hw : t.work = .write bio) (hc : t.clones[bio.id]? = some c) :
    bio.sector / d.sectorsPerBlock + c.pages ≤ 4096 * s.world.cm.totalSects := by
  obtain ⟨e, he, -, hsect⟩ := hq.queued bio (by simp only [pending, hw]; exact List.mem_cons_self)
  cases hc.symm.trans he
  obtain ⟨m, hm⟩ := hf.aligned bio.id c hc
  have hle := hi.clones bio.id c hc
  have hroom := h.serves.room
  rw [hm] at hle hsect
  simp only [Device.sector, Nat.add_zero, Nat.add_sub_cancel_left] at hle hsect
  rw [hsect, Nat.mul_div_cancel_left m d.pos]
  refine Nat.le_of_mul_le_mul_left (Nat.le_trans ?_ hroom) d.pos
  rw [Nat.mul_add]
  omega

theorem Matches.write {handled : Nat} (h : Matches d w₀ s t) (hf : Filed d t) (hi : Inside d t) (hq : Queued d t)
    (hnf : s.snap.fail = false) (hstep : snapCowThread d (.write handled) s = some s') (hs' : s'.snap.fail = false) :
    ∃ t', CowThread.snapCowThread d (.write handled) t = some t' ∧ Matches d w₀ s' t' := by
  cases hw : s.snap.work with
  | write bio =>
      have hwt : t.work = .write bio := (h.work.eq (by rw [hw]; nofun)).trans hw
      have hign : (d.ignoreSnapErrors && s.snap.fail) = false := by rw [hnf, Bool.and_false]
      have hignt : (d.ignoreSnapErrors && t.fail) = false := by rw [← h.fail]; exact hign
      have hclones : s.snap.clones = t.clones := by rw [h.snap]; rfl
      simp only [snapCowThread, hw, hign, Bool.false_eq_true, if_false] at hstep
      obtain ⟨c, hc, hstep⟩ := Option.bind_eq_some_iff.mp hstep
      rw [hclones] at hc
      split at hstep
      next hhandled =>
        cases hstep
        have hall : (snapHandleWriteBio d bio c s.world).1 = c.pages := by
          by_cases hlt : (snapHandleWriteBio d bio c s.world).1 < c.pages
          · rw [if_pos hlt] at hs'
            cases hs'
          · exact Nat.le_antisymm handlePages_le (not_lt.mp hlt)
        have hserves := handlePages_serves h.serves (h.room hf hi hq hwt hc) hall
        have hlt : ¬ c.pages < c.pages := Nat.lt_irrefl _
        have ht' : CowThread.snapCowThread d (.write handled) t =
            some (processed { t with saved := writePages d bio c c.pages t.saved } bio.id) := by
          simp only [CowThread.snapCowThread, hwt, hc, Option.map_some, CowThread.snapHandleWriteBio, hignt, hhandled,
            hall, Bool.false_eq_true, if_false, hlt, Nat.min_self]
        have hif : (if (snapHandleWriteBio d bio c s.world).1 < c.pages then tracerSetFailState s.snap else s.snap) =
            s.snap := if_neg (by rw [hall]; exact hlt)
        rw [hif]
        exact ⟨_, ht', by rw [h.snap]; rfl, .same _, h.reads, hserves⟩
      next => cases hstep
  | _ =>
      simp only [snapCowThread, CowThread.snapCowThread, hw] at hstep
      cases hstep

theorem Matches.cow {act : CowAct} (h : Matches d w₀ s t) (hf : Filed d t) (hi : Inside d t) (hq : Queued d t)
    (h8 : d.sectorsPerBlock = 8) (hnf : s.snap.fail = false) (hstep : snapCowThread d act s = some s')
    (hs' : s'.snap.fail = false) : ∃ t', CowThread.snapCowThread d act t = some t' ∧ Matches d w₀ s' t' := by
  cases act with
  | look => exact h.look hnf hstep
  | dequeue => exact h.dequeue hq.notFailed hstep
  | write handled => exact h.write hf hi hq hnf hstep hs'
  | mode ok => exact h.mode hi hstep hs'
  | base ok => exact h.base hstep hs'
  | overlay ok => exact h.overlay hi h8 hstep hs'
  | finish => exact h.finish hstep
  | exit => exact h.exit hstep

theorem Matches.snapStep {a : Machine.Action Sector} (h : Matches d w₀ s t) (hf : Filed d t) (hi : Inside d t)
    (hq : Queued d t) (h8 : d.sectorsPerBlock = 8) (hnf : s.snap.fail = false) (hstep : step d s (.snap a) = some s')
    (hs' : s'.snap.fail = false) : ∃ t', Machine.step d t a = some t' ∧ Matches d w₀ s' t' := by
  cases a with
  | cow act => exact h.cow hf hi hq h8 hnf hstep hs'
  | snapRead sector sectors pages => exact h.snapRead hstep
  | _ => exact h.aside nofun nofun hstep

theorem Matches.modifyCacheSize {cacheSize : Nat} (h : Matches d w₀ s t)
    (hstep : step d s (.modifyCacheSize cacheSize) = some s') : Matches d w₀ s' t := by
  have hspec := Cow.Reopen.cowModifyCacheSize_wp (E := fun _ _ => False) cacheSize h.serves.store.live
  simp only [step] at hstep
  split at hstep
  next _ w hw =>
    cases hstep
    have hs := wp_ok hspec hw
    exact ⟨h.snap, h.work, h.reads, h.serves.steady hs⟩
  next _ w hw => exact (wp_error hspec hw).elim

theorem cow_fails {act : CowAct} (hstep : snapCowThread d act s = some s') (hf : s.snap.fail = true) :
    s'.snap.fail = true := by
  have plain : ∀ {u : State Sector}, CowThread.snapCowThread d act s.snap = some u → u.fail = true :=
    fun hu => step_fails (.cow _ _ (snapCowThread_step hu)) hf
  have mapped : (CowThread.snapCowThread d act s.snap).map (fun u => Backed.mk u s.world) = some s' →
      s'.snap.fail = true := by
    intro hm
    obtain ⟨u, hu, rfl⟩ := Option.map_eq_some_iff.mp hm
    exact plain hu
  unfold snapCowThread at hstep
  split at hstep
  next =>
    obtain ⟨u, hu, rfl⟩ := Option.map_eq_some_iff.mp hstep
    split
    · split <;> exact plain hu
    · exact plain hu
  next =>
    obtain ⟨c, -, hstep⟩ := Option.bind_eq_some_iff.mp hstep
    split at hstep
    · cases hstep
      exact hf
    · dsimp only at hstep
      split at hstep
      next =>
        cases hstep
        dsimp only [processed, bioFreeClone]
        split
        · rfl
        · exact hf
      next => cases hstep
  next =>
    obtain ⟨r, -, hstep⟩ := Option.bind_eq_some_iff.mp hstep
    split at hstep
    next =>
      cases hstep
      exact hf
    next =>
      cases hstep
      exact hf
    next =>
      cases hstep
      rfl
    next => cases hstep
  next =>
    obtain ⟨r, -, hstep⟩ := Option.bind_eq_some_iff.mp hstep
    split at hstep
    next =>
      cases hstep
      exact hf
    next =>
      cases hstep
      rfl
    next => cases hstep
  next => exact mapped hstep

/-- The device has not failed before either. -/
theorem intact_back {a : Action} (hstep : step d s a = some s') (hs' : s'.snap.fail = false) :
    s.snap.fail = false := by
  by_contra hf
  rw [Bool.not_eq_false] at hf
  have hfail : s'.snap.fail = true := by
    unfold step at hstep
    split at hstep
    next => exact cow_fails hstep hf
    next =>
      obtain ⟨u, hu, rfl⟩ := Option.map_eq_some_iff.mp hstep
      exact step_fails (step_of hu) hf
    next =>
      split at hstep
      all_goals
        cases hstep
        exact hf
  rw [hs'] at hfail
  cases hfail

end

/-- A condition on the steps of the device, which does not depend on what is stored or read. -/
def OfSnap (C : State Sector → Machine.Action Sector → Prop) (s : Backed) : Action → Prop
  | .snap a => C s.snap a
  | .modifyCacheSize _ => True

/-- A device that is set up with a new COW file. -/
def Backed.created (b₀ : Nat → Sector) (w : World) : Backed where
  snap := State.created b₀
  world := w

/-- A run of the abstract device in which nothing failed. -/
structure Intact (d : Device) (t : State Sector) : Prop where
  filed : Filed d t
  inside : Inside d t
  queued : t.fail = false → Queued d t

theorem intact_created (b₀ : Nat → Sector) : Intact d (State.created b₀) :=
  ⟨filed_created b₀, inside_created b₀, fun _ => queued_created b₀⟩

theorem Intact.step {a : Machine.Action Sector} {t' : State Sector} (h : Intact d t)
    (hsize : d.sectorsPerBlock ∣ d.size) (hin : InDevice d a) (hr : NoReuse t a) (hst : Step d t a t') :
    Intact d t' where
  filed := h.filed.step hst hr
  inside := h.inside.step h.filed.captures hsize hst hin
  queued hf := (h.queued (not_failed (step_kept h.filed.captures.sound hst) hf)).step h.filed hst hf

theorem intact_reach {C : State Sector → Machine.Action Sector → Prop} {b₀ : Nat → Sector} {t : State Sector}
    (hsize : d.sectorsPerBlock ∣ d.size) (hC : ∀ s a, C s a → InDevice d a ∧ NoReuse s a)
    (h : Reach (Machine.step d) C (State.created b₀) t) : Intact d t := by
  refine h.invariant (intact_created b₀) fun s a t hs hc hstep => ?_
  obtain ⟨hin, hr⟩ := hC s a hc
  exact hs.step hsize hin hr (step_of hstep)

theorem serves_created {elements fileMax seqid : UInt64} {cacheSize : Nat} {uuid : Fin 16 → UInt8} {w : World}
    (hinit : cowInit 12 elements 4096 cacheSize fileMax uuid seqid w = .ok () w₀)
    (halign : fileMax.toNat % 4096 = 0) (h8 : d.sectorsPerBlock = 8) (hsize : d.size = 8 * elements.toNat)
    (hfits : d.size < 2 ^ 64) : Serves d w₀ (fun _ => none) w₀ := by
  obtain ⟨hstarted, -⟩ := wp_ok (Cow.Start.cowInit_wp elements fileMax seqid cacheSize uuid) hinit
  refine ⟨.of_started hstarted halign, Cow.Reload.blank_started hstarted, .refl w₀, ?_⟩
  have htotal := hstarted.total
  rw [Cow.Start.sectionTotal_eq, Cow.Manager.numSegments] at htotal
  rw [h8, hsize, htotal]
  omega

theorem matches_reach {C : State Sector → Machine.Action Sector → Prop} {b₀ : Nat → Sector} {s : Backed}
    (h8 : d.sectorsPerBlock = 8) (hsize : d.sectorsPerBlock ∣ d.size) (hserves : Serves d w₀ (fun _ => none) w₀)
    (hC : ∀ s a, C s a → InDevice d a ∧ NoReuse s a) (haround : ∀ s t a, C (around s t) a → C t a)
    (h : Reach (step d) (OfSnap C) (.created b₀ w₀) s) (hf : s.snap.fail = false) :
    ∃ t, Reach (Machine.step d) C (State.created b₀) t ∧ Matches d w₀ s t := by
  have hstart : Matches d w₀ (.created b₀ w₀) (State.created b₀) :=
    ⟨rfl, .same _, ⟨rfl, fun _ _ _ hr => by cases hr⟩, hserves⟩
  refine h.simulate hstart (fun _ _ _ => intact_back) ?_ hf
  intro s a s' t ht hm hc hstep hs'
  cases a with
  | snap a =>
      right
      have hi := intact_reach hsize hC ht
      have hnf := intact_back hstep hs'
      obtain ⟨t', ht', hm'⟩ := hm.snapStep hi.filed hi.inside (hi.queued (hm.fail ▸ hnf)) h8 hnf hstep hs'
      refine ⟨a, t', haround s.snap t a ?_, ht', hm'⟩
      rw [← hm.snap]
      exact hc
  | modifyCacheSize cacheSize => exact .inl (hm.modifyCacheSize hstep)

/-- The steps in which a device that has not failed leaves the COW file alone. -/
def Unstored (s : State Sector) : Machine.Action Sector → Bool
  | .cow (.write _) | .cow (.mode _) | .cow (.overlay _) => false
  | _ => !s.fail

theorem step_unstored {a : Machine.Action Sector} {w : World} (hu : Unstored s a = true)
    (hstep : Machine.step d s a = some t) : step d ⟨s, w⟩ (.snap a) = some ⟨t, w⟩ := by
  cases a with
  | cow act =>
      cases act with
      | look =>
          simp only [Unstored, Bool.not_eq_true'] at hu
          simp only [Machine.step] at hstep
          simp only [step, snapCowThread, hstep, Option.map_some, hu, Bool.false_and, Bool.false_eq_true, if_false]
      | write | mode | overlay => cases hu
      | _ =>
          simp only [Machine.step] at hstep
          simp only [step, snapCowThread, hstep, Option.map_some]
  | _ => exact congrArg (Option.map fun u => Backed.mk u w) hstep

theorem reach_unstored {C : State Sector → Machine.Action Sector → Prop} {b₀ : Nat → Sector} {w : World}
    (h : Reach (Machine.step d) (fun s a => C s a ∧ Unstored s a = true) (State.created b₀) t) :
    Reach (step d) (OfSnap C) (.created b₀ w) ⟨t, w⟩ := by
  induction h with
  | init => exact .init
  | next _ hc hstep ih => exact ih.next (a := .snap _) hc.1 (step_unstored hc.2 hstep)

/-- The device that keeps its blocks in the COW file, through the cached index, does what the device does
that keeps what it saved: in every run that starts with a new COW file and has not failed, the rest of the
state is the same, the reads got the same sectors, and the COW manager gives for every sector of the device
what is saved of it. -/
theorem storage_refines {elements fileMax seqid : UInt64} {cacheSize : Nat} {uuid : Fin 16 → UInt8}
    {w : World} {b₀ : Nat → Sector} {s : Backed}
    (hinit : cowInit 12 elements 4096 cacheSize fileMax uuid seqid w = .ok () w₀)
    (halign : fileMax.toNat % 4096 = 0) (h8 : d.sectorsPerBlock = 8) (hsize : d.size = 8 * elements.toNat)
    (hfits : d.size < 2 ^ 64)
    (h : Reach (step d) (OfSnap fun s a => InDevice d a ∧ NoReuse s a) (.created b₀ w₀) s) (hf : s.snap.fail = false) :
    ∃ t, Reach (Machine.step d) (fun s a => InDevice d a ∧ NoReuse s a) (State.created b₀) t ∧
      s.snap = around s.snap t ∧ SameReads s.snap.reads t.reads ∧
      ∀ n < d.size, (w₀.env.Faultless → ∃ held w', readSector d n s.world = .ok held w') ∧
        ∀ held w', readSector d n s.world = .ok held w' →
          held = (t.saved (n / d.sectorsPerBlock)).map fun block => block (n % d.sectorsPerBlock) := by
  have hdvd : d.sectorsPerBlock ∣ d.size := by
    rw [h8, hsize]
    exact Nat.dvd_mul_right 8 _
  obtain ⟨t, ht, hm⟩ := matches_reach h8 hdvd (serves_created hinit halign h8 hsize hfits) (fun _ _ hc => hc)
    (fun _ _ _ hc => hc) h hf
  refine ⟨t, ht, hm.snap, hm.reads, fun n hn => ?_⟩
  have hspec := readSector_serves hm.serves h8 hn
  constructor
  · intro hfaultless
    obtain ⟨held, w', hread, -⟩ := wp_total (wp_mono hspec (fun _ _ h => h)
      fun _ _ he => he (by rw [hm.serves.fixed.env]; exact hfaultless))
    exact ⟨held, w', hread⟩
  · exact fun held w' hread => (wp_ok hspec hread).1

instance (d : Device) (a : Machine.Action Sector) : Decidable (InDevice d a) :=
  match a with
  | .trace sector sectors => inferInstanceAs (Decidable (sector + sectors ≤ d.sectOff + d.size))
  | .snapRead sector sectors _ => inferInstanceAs (Decidable (sector + sectors ≤ d.size))
  | .tracer .. | .reader .. | .cow _ | .mrfSubmit _ | .mrfExit | .direct .. | .failure | .stopTracing | .stopCow
  | .stopMrf | .free => .isTrue trivial

def zeroes : Nat → Sector := fun _ _ => 0

/-- A write whose block is read and handed to the cow thread. -/
def toWrite : List (Machine.Action Sector) :=
  captureRun ++ [.cow .look, .cow .dequeue]

theorem toWrite_after : run (Machine.step disk) (State.created zeroes) toWrite = some (after disk zeroes toWrite) :=
  rfl

theorem toWrite_reach :
    Reach (Machine.step disk) (fun s a => (InDevice disk a ∧ SnapRead.Sequential s a) ∧ Unstored s a = true)
    (State.created zeroes) (after disk zeroes toWrite) :=
  Reach.run .init toWrite_after (by decide)

/-- The state once the block is stored. -/
def written : State Sector := processed (after disk zeroes toWrite) 0

/-- The first block of the device is stored in a new COW file. -/
theorem written_reach : ∃ w₀ w₁ : World,
    cowInit 12 16 4096 0 1048576 (fun _ => 0) 1 Cow.Start.calm = .ok () w₀ ∧ w₀.env.Faultless ∧
    Serves disk w₀ (fun n => if n = 0 then some fun _ _ => 0 else none) w₁ ∧
    Reach (step disk) (OfSnap fun s a => InDevice disk a ∧ SnapRead.Sequential s a) (.created zeroes w₀) ⟨written, w₁⟩ := by
  obtain ⟨w₀, hinit, hstarted, henv⟩ := Cow.Start.cowInit_total (w := Cow.Start.calm) 16 1048576 1 0 (fun _ => 0)
    (by rw [Cow.Start.sectionTotal_eq]; decide) (by decide) (by decide) Cow.Start.calm_faultless
  have hserves : Serves disk w₀ (fun _ => none) w₀ := serves_created hinit (by decide) rfl rfl (by decide)
  have hl := hserves.store.live
  have hfaultless : w₀.env.Faultless := by rw [henv]; exact Cow.Start.calm_faultless
  have htotal : w₀.cm.totalSects = 1 := by rw [hstarted.total, Cow.Start.sectionTotal_eq]; decide
  have hcurr : w₀.cm.currPos.toNat * 4096 = 36864 := by
    rw [hstarted.next, hstarted.wf.dataOffset, htotal]
  have hspec : wp (cowWriteCurrent 12 (UInt64.ofNat 0) (blockBytes fun _ _ => 0)) w₀ _ _ :=
    Cow.Data.cowWriteCurrent_wp hl.wf hl.filp hl.placed (by rw [htotal]; decide)
  obtain ⟨_, w₁, hw₁, -⟩ := wp_total (wp_mono hspec (fun _ _ h => h) fun _ _ h =>
    h (by rw [hcurr, hstarted.fileMax]; decide) (by rw [hcurr]; decide) hfaultless)
  have hwork : (after disk zeroes toWrite).work = .write ⟨true, 0, 0, 0⟩ := rfl
  obtain ⟨c, hc, hpages, hdata⟩ : ∃ c, (after disk zeroes toWrite).clones[0]? = some c ∧ c.pages = 1 ∧
      pageOf disk c 0 = fun _ _ => 0 := ⟨_, rfl, rfl, rfl⟩
  have hhandled : snapHandleWriteBio disk ⟨true, 0, 0, 0⟩ c w₀ = (1, w₁) := by
    simp only [snapHandleWriteBio, hpages, handlePages, hdata, Nat.zero_div, Nat.add_zero, hw₁]
  have hstep : step disk ⟨after disk zeroes toWrite, w₀⟩ (.snap (.cow (.write 1))) = some ⟨written, w₁⟩ := by
    simp only [step, snapCowThread, hwork, hc, Option.bind_some, hhandled, hpages]
    rfl
  have hone := wp_ok (cowWriteCurrent_serves hserves (b := 0) (by rw [htotal]; decide) fun _ _ => 0) hw₁
  exact ⟨w₀, w₁, hinit, hfaultless, hone.1,
    (reach_unstored (w := w₀) toWrite_reach).next (a := .snap _) (by exact ⟨trivial, trivial⟩) hstep⟩

theorem storage_refines_example : ∃ (s : Backed) (t : State Sector), s.snap.processedCnt = 1 ∧
    s.snap = around s.snap t ∧ ∃ held w', readSector disk 0 s.world = .ok held w' ∧
      held = (t.saved 0).map fun block => block 0 := by
  obtain ⟨w₀, w₁, hinit, hfaultless, -, hreach⟩ := written_reach
  have hlabelled : Reach (step disk) (OfSnap fun s a => InDevice disk a ∧ NoReuse s a) (.created zeroes w₀)
      ⟨written, w₁⟩ := by
    refine hreach.mono fun s a hc => ?_
    cases a with
    | snap a => exact ⟨hc.1, (SnapRead.undisturbed_of_sequential (d := disk) hc.2).2.1⟩
    | modifyCacheSize cacheSize => trivial
  obtain ⟨t, -, hsnap, -, hread⟩ := storage_refines hinit (by decide) rfl rfl (by decide) hlabelled rfl
  obtain ⟨henough, hheld⟩ := hread 0 (by decide)
  obtain ⟨held, w', hok⟩ := henough hfaultless
  exact ⟨_, t, rfl, hsnap, held, w', hok, hheld held w' hok⟩

/-- In a sequential run a read of the snapshot that is answered from the base device and the COW file, while
the device has not failed, gets what the base device held when the snapshot was created. -/
theorem stored_reads_point_in_time {elements fileMax seqid : UInt64} {cacheSize : Nat} {uuid : Fin 16 → UInt8}
    {w : World} {b₀ : Nat → Sector} {s : Backed}
    (hinit : cowInit 12 elements 4096 cacheSize fileMax uuid seqid w = .ok () w₀)
    (halign : fileMax.toNat % 4096 = 0) (h8 : d.sectorsPerBlock = 8) (hsize : d.size = 8 * elements.toNat)
    (hfits : d.size < 2 ^ 64)
    (h : Reach (step d) (OfSnap fun s a => InDevice d a ∧ SnapRead.Sequential s a) (.created b₀ w₀) s)
    (hf : s.snap.fail = false) :
    ∀ r ∈ s.snap.reads, ∀ data, r.status = .ended true false data →
      ∀ n, r.sector ≤ n → n < r.sector + r.sectors → d.owned (n / d.sectorsPerBlock) = false →
        data n = b₀ (d.sectOff + n) := by
  intro r hr data he n hlo hhi ho
  have hdvd : d.sectorsPerBlock ∣ d.size := by
    rw [h8, hsize]
    exact Nat.dvd_mul_right 8 _
  obtain ⟨t, ht, hm⟩ := matches_reach h8 hdvd (serves_created hinit halign h8 hsize hfits)
    (fun s a hc => ⟨hc.1, (SnapRead.undisturbed_of_sequential (d := d) hc.2).2.1⟩) (fun _ _ _ hc => hc) h hf
  have hserving := SnapRead.serving_reach (ht.mono fun _ _ hc => SnapRead.undisturbed_of_sequential hc.2)
  obtain ⟨k, hk⟩ := List.mem_iff_getElem?.mp hr
  obtain ⟨r', hr', hsame⟩ := hm.reads.find hk
  have hstatus := hsame.status
  rw [he] at hstatus
  generalize hs : r'.status = status at hstatus
  cases hstatus with
  | ended _ _ hdata =>
      have hin : InRead r' n := ⟨hsame.sector ▸ hlo, by rw [← hsame.sector, ← hsame.sectors]; exact hhi⟩
      rw [hdata n hin]
      exact hserving.answered r' (List.mem_of_getElem? hr') _ hs n hin ho trivial

/-- On a faultless machine every sector is read. -/
theorem overlaySectors_total {saved : Nat → Option (Nat → Sector)} {w₀ w : World} {ns : List Nat} {data : Nat → Sector}
    (h : Serves d w₀ saved w) (h8 : d.sectorsPerBlock = 8) (hn : ∀ n ∈ ns, n < d.size) (hf : w₀.env.Faultless) :
    (overlaySectors d ns data w).1 = true := by
  induction ns generalizing data w with
  | nil => rfl
  | cons n ns ih =>
      obtain ⟨held, w', hread, -, hs, -⟩ := wp_total (wp_mono (readSector_serves h h8 (hn n List.mem_cons_self))
        (fun _ _ h => h) fun _ _ he => he (by rw [h.fixed.env]; exact hf))
      have hrest : ∀ m ∈ ns, m < d.size := fun m hm => hn m (List.mem_cons_of_mem _ hm)
      rw [overlaySectors, hread]
      cases held with
      | none => exact ih hs hrest
      | some block => exact ih hs hrest

/-- The write of ones that was captured is submitted, and its block is read from the snapshot. -/
def toMode : List (Machine.Action Sector) :=
  [.mrfSubmit fun _ _ => 1, .snapRead 0 8 fun _ _ => 2, .cow .look, .cow .dequeue]

def readStored : State Sector := (run (Machine.step disk) written toMode).getD written

theorem toMode_reach {w₀ w₁ : World}
    (h : Reach (step disk) (OfSnap fun s a => InDevice disk a ∧ SnapRead.Sequential s a) (.created zeroes w₀) ⟨written, w₁⟩) :
    Reach (step disk) (OfSnap fun s a => InDevice disk a ∧ SnapRead.Sequential s a) (.created zeroes w₀)
      ⟨readStored, w₁⟩ := by
  have h₁ := h.next (a := .snap (.mrfSubmit fun _ _ => 1)) (by exact ⟨trivial, trivial⟩) (step_unstored rfl rfl)
  have h₂ := h₁.next (a := .snap (.snapRead 0 8 fun _ _ => 2)) (by exact ⟨by decide, trivial⟩) (step_unstored rfl rfl)
  have h₃ := h₂.next (a := .snap (.cow .look)) (by exact ⟨trivial, trivial⟩) (step_unstored rfl rfl)
  exact h₃.next (a := .snap (.cow .dequeue)) (by exact ⟨trivial, Nat.zero_le 1⟩) (step_unstored rfl rfl)

/-- The base device has been overwritten, and the block comes from the COW file. -/
theorem stored_reads_point_in_time_example : ∃ (s : Backed) (r : SnapRead Sector) (data : Nat → Sector),
    s.snap.base 0 = (fun _ => 1) ∧ r ∈ s.snap.reads ∧ r.status = .ended true false data ∧ ∀ n < 8, data n = zeroes n := by
  obtain ⟨w₀, w₁, hinit, hfaultless, hserves, hreach⟩ := written_reach
  have hread := toMode_reach hreach
  obtain ⟨m, w₂, hw₂, hm, hserves₂⟩ := wp_total (wp_mono
    (readMode_serves (m := .none) hserves (blocks disk 0 8) (by
      have hroom : 128 ≤ 8 * (4096 * w₁.cm.totalSects) := hserves.room
      intro b hb
      obtain ⟨n, hn, rfl⟩ : ∃ n < 8, n / 8 = b := by simpa [blocks, disk] using hb
      omega))
    (fun _ _ h => h) fun _ _ h => h (by rw [hserves.fixed.env]; exact hfaultless))
  have hcow : m = .cowFile := hm.trans rfl
  rw [hcow] at hw₂
  have hwork : readStored.work = .mode ⟨false, 0, 8, 0⟩ := rfl
  have hfound : readStored.reads[0]? = some ⟨0, 8, fun _ _ => 2, .waiting⟩ := rfl
  have hmode : step disk ⟨readStored, w₁⟩ (.snap (.cow (.mode true))) =
      some ⟨{ readStored with work := .overlay ⟨false, 0, 8, 0⟩ fun _ _ => 2 }, w₂⟩ := by
    simp only [step, snapCowThread, hwork, hfound, Option.bind_some, hw₂]
  have hall : (overlaySectors disk (List.range' 0 8) (fun _ _ => 2) w₂).1 = true :=
    overlaySectors_total hserves₂ rfl (by decide) hfaultless
  generalize hres : overlaySectors disk (List.range' 0 8) (fun _ _ => 2) w₂ = res at hall
  obtain ⟨ok, data, w₃⟩ := res
  cases hall
  have hoverlay : step disk ⟨{ readStored with work := .overlay ⟨false, 0, 8, 0⟩ fun _ _ => 2 }, w₂⟩
      (.snap (.cow (.overlay true))) = some ⟨{ readStored with work := .finish ⟨false, 0, 8, 0⟩ true data }, w₃⟩ := by
    simp only [step, snapCowThread, hfound, Option.bind_some, hres]
  have hfinish : step disk ⟨{ readStored with work := .finish ⟨false, 0, 8, 0⟩ true data }, w₃⟩ (.snap (.cow .finish)) =
      some ⟨endRead { readStored with work := .idle } 0 true data, w₃⟩ := step_unstored rfl rfl
  have hended := ((hread.next (a := .snap _) (by exact ⟨trivial, trivial⟩) hmode).next (a := .snap _)
    (by exact ⟨trivial, trivial⟩) hoverlay).next (a := .snap (.cow .finish)) (by exact ⟨trivial, trivial⟩) hfinish
  have hr : (⟨0, 8, fun _ _ => 2, .ended true false data⟩ : SnapRead Sector) ∈
      (endRead { readStored with work := .idle } 0 true data).reads := List.mem_cons_self
  exact ⟨⟨endRead { readStored with work := .idle } 0 true data, w₃⟩, _, data, rfl, hr, rfl, fun n hn =>
    stored_reads_point_in_time hinit (by decide) rfl rfl (by decide) hended rfl _ hr data rfl n (Nat.zero_le n)
      (by simpa using hn) rfl⟩

end ElastioSnap.Snapshot.Storage
