import ElastioSnap.Cow.Sealing
import ElastioSnap.Incremental.Tracker
import ElastioSnap.Snapshot.Teardown
import ElastioSnap.UpdateImg

namespace ElastioSnap.Incremental.Series

open Lib.Runs Lib.Outcome Lib.Flags Lib.Bytes Snapshot.Tracking Snapshot.TraceBio Snapshot.ReadComplete
  Snapshot.CowThread Snapshot.Blocks Snapshot.PointInTime IncTrace Tracker
open Cow.Manager (World cowClean cowIndexOnly)
open Cow.Header (diskHeader headerOf cowMagic)
open Cow.Section (indexAt diskWord Blank)
open Cow.Lifecycle (cowInit cowTruncateToIndex cowSyncAndFree)
open Snapshot.Machine (Step step_of ownBlocks disk)
open Snapshot.Capture (Kept step_kept)
open Snapshot.CopyBeforeWrite (Original Guarded sent_of_appended ownBlocks_sector)
open Snapshot.Filing (NoReuse)
open Snapshot.Drain (Queued InDevice HandedOver)
open Snapshot.Storage (Sector sectorByte Backed Serves Matches Intact OfSnap)
open Snapshot.Teardown (tracer_flags reader_flags cow_flags)
open UpdateImg (Info Calls)

/-- A device from the creation of a snapshot to the creation of the next one of its series. -/
inductive Phase
  | active (old : Backed)
  /-- The tracer for incremental mode has taken over, while the cow thread of the snapshot goes on. -/
  | handover (old : Backed) (inc : Tracer)
  | tracking (inc : Tracker.State) (truncated : Bool)
  /-- The next snapshot has taken over, while the sset thread goes on. -/
  | leaving (inc : Tracker.State) (truncated : Bool) (next : Backed)
  /-- The COW file is closed, and the next snapshot is as it was created. -/
  | closed (failed truncated : Bool) (world : World) (next : Backed)

inductive Action
  | snap (a : Snapshot.Storage.Action)
  | toInc
  | inc (a : Tracker.Action)
  | wake
  /-- The next snapshot gets a COW file in the given surroundings. -/
  | toSnap (fileMax : UInt64) (cacheSize : Nat) (w : World)
  | free

/-- The filesystem is frozen, so that the writes traced so far have got to the base device. -/
def frozen (s : State Sector) : Bool := (List.range s.writes.length).all fun i => s.submitted.contains i

/-- What happens to a snapshot other than its end. -/
def ofSnap : Snapshot.Storage.Action → Bool
  | .snap .stopTracing => false
  | _ => true

/-- What happens to it when another tracer sees the writes. -/
def ofOld (d : Device) : Snapshot.Storage.Action → Bool
  | .snap (.direct sector sectors _) => ownBlocks d sector sectors
  | a => ofSnap a

/-- What happens to a tracer before its thread is woken up. -/
def ofMrf : Tracker.Action → Bool
  | .trace .. | .land _ | .own .. | .failure => true
  | _ => false

def ofThread : Tracker.Action → Bool
  | .look | .handle | .failure => true
  | _ => false

def truncates : Tracker.Action → World → Bool
  | .truncate, w =>
      match cowTruncateToIndex w with
      | .ok .. => true
      | .error .. => false
  | _, _ => false

def beneath (old : Backed) (base : Nat → Sector) : Backed := { old with snap := { old.snap with base := base } }

/-- The call of `tracer_active_snap_to_inc`, up to the new tracing function. -/
def tracerActiveSnapToInc (old : Backed) : Option Phase :=
  if old.snap.fail || !frozen old.snap then none
  else some (.handover { old with snap := { old.snap with tracing := false } } .new)

/-- The rest of it: the old cow thread has exited, and a failure of its device is passed on. -/
def wakeUpProcess (old : Backed) (inc : Tracer) : Option Phase :=
  if old.snap.cowExited then
    some (.tracking ⟨{ inc with fail := inc.fail || old.snap.fail }, old.snap.base, old.world, false⟩ false)
  else none

/-- The call of `tracer_active_inc_to_snap`, up to the new tracing function. -/
def tracerActiveIncToSnap (d : Device) (fileMax : UInt64) (cacheSize : Nat) (w : World) (s : Tracker.State)
    (truncated : Bool) : Option Phase :=
  if s.dev.fail || s.dormant || !s.dev.inFlight.isEmpty then none
  else
    match cowInit 12 (UInt64.ofNat (d.size / d.sectorsPerBlock)) 4096 cacheSize fileMax s.world.cm.uuid
        (s.world.cm.seqid + 1) w with
    | .ok _ w' => some (.leaving s truncated (.created s.base w'))
    | .error .. => none

/-- The rest of it, once the sset thread has exited. -/
def tracerDestroyCowSyncAndFree (s : Tracker.State) (truncated : Bool) (next : Backed) : Option Phase :=
  if s.dev.ssets.isEmpty then
    match cowSyncAndFree 12 s.world with
    | .ok _ w => some (.closed s.dev.fail truncated w next)
    | .error _ w => some (.closed true truncated w next)
  else none

def step (d : Device) (cow : CowFile) : Phase → Action → Option Phase
  | .active old, .snap a => if ofSnap a then (Snapshot.Storage.step d old a).map .active else none
  | .active old, .toInc => tracerActiveSnapToInc old
  | .handover old inc, .snap a =>
      if ofOld d a then (Snapshot.Storage.step d old a).map fun old' => .handover old' inc else none
  | .handover old inc, .inc a =>
      if ofMrf a then
        (Tracker.step d cow ⟨inc, old.snap.base, old.world, false⟩ a).map fun s => .handover (beneath old s.base) s.dev
      else none
  | .handover old inc, .wake => wakeUpProcess old inc
  | .tracking s truncated, .inc a =>
      (Tracker.step d cow s a).map fun s' => .tracking s' (truncated || truncates a s.world)
  | .tracking s truncated, .toSnap fileMax cacheSize w => tracerActiveIncToSnap d fileMax cacheSize w s truncated
  | .leaving s truncated next, .inc a =>
      if ofThread a then (Tracker.step d cow s a).map fun s' => .leaving s' truncated next else none
  | .leaving s truncated next, .free => tracerDestroyCowSyncAndFree s truncated next
  | _, _ => none

/-- Some device of the series has failed. -/
def Phase.failed : Phase → Bool
  | .active old => old.snap.fail
  | .handover old inc => old.snap.fail || inc.fail
  | .tracking s _ | .leaving s _ _ => s.dev.fail
  | .closed failed _ _ _ => failed

/-- The steps as the block layer and the filesystem make them, in runs in which the allocator does not give a clone
the address of an earlier one of its write, which neither of the two ensures. A COW file gets whole pages. -/
def Proper (d : Device) (resident : Bool) (inode : Nat) : Phase → Action → Prop
  | .active old, .snap a | .handover old _, .snap a => OfSnap (fun s a => InDevice d a ∧ NoReuse s a) old a
  | _, .inc a => Tracker.Proper d resident inode a
  | _, .toSnap fileMax _ _ => fileMax.toNat % 4096 = 0
  | _, _ => True

variable {d : Device} {w₀ : World} {b₀ : Nat → Sector} {old old' : Backed} {inc : Tracer} {t t' : State Sector}
  {b : Nat} {s s' : Tracker.State} {x y : Phase} {resident : Bool} {inode : Nat}

/-- A device that is traced, with its cow thread at work. -/
structure Awake (t : State Sector) : Prop where
  tracing : t.tracing = true
  cowStop : t.cowStop = false
  cowExited : t.cowExited = false

theorem awake_created (b₀ : Nat → Sector) : Awake (State.created b₀) := ⟨rfl, rfl, rfl⟩

theorem Awake.step {a : Snapshot.Machine.Action Sector} (h : Awake t) (hst : Step d t a t')
    (ha : ofSnap (.snap a) = true) : Awake t' := by
  have same : Snapshot.Teardown.SameFlags t t' → Awake t' := fun hf =>
    ⟨hf.tracing.trans h.tracing, hf.cowStop.trans h.cowStop, hf.cowExited.trans h.cowExited⟩
  cases hst with
  | tracer i w act _ hw hs => exact same (tracer_flags hs)
  | reader k c w act _ hk hw hs => exact same (reader_flags hs)
  | cow act _ hs =>
      refine same (cow_flags hs ?_)
      rintro rfl
      cases hs with
      | exit hw he hx hq =>
          rw [h.cowStop] at hx
          cases hx
      | error _ _ _ hact => simp at hact
  | stopTracing => cases ha
  | stopCow htr =>
      rw [h.tracing] at htr
      cases htr
  | _ => exact ⟨h.tracing, h.cowStop, h.cowExited⟩

/-- A clone of the block was handed to the cow thread. -/
def Appended (d : Device) (t : State Sector) (b : Nat) : Prop :=
  ∃ (k : Nat) (c : Clone Sector), t.clones[k]? = some c ∧ c.stage.appended = true ∧ c.Covers d b

theorem Appended.kept (h : Appended d t b) (hk : Kept t t') : Appended d t' b := by
  obtain ⟨k, c, hc, ha, hcov⟩ := h
  obtain ⟨c', hc', ho⟩ := hk.clones k c hc (sent_of_appended ha)
  exact ⟨k, c', hc', ho.appended ha, ho.covers.mpr hcov⟩

/-- A device with its COW file, and the device that keeps what it saved. -/
structure Held (d : Device) (w₀ : World) (b₀ : Nat → Sector) (old : Backed) (t : State Sector) : Prop where
  same : Matches d w₀ old t
  intact : Intact d t
  guarded : Guarded d b₀ t

theorem Held.snap {a : Snapshot.Machine.Action Sector} (h : Held d w₀ b₀ old t) (h8 : d.sectorsPerBlock = 8)
    (hsize : d.sectorsPerBlock ∣ d.size) (hin : InDevice d a) (hr : NoReuse old.snap a)
    (hstep : Snapshot.Storage.step d old (.snap a) = some old') (hf : old'.snap.fail = false) :
    ∃ t', Held d w₀ b₀ old' t' ∧ Step d t a t' := by
  have hnf := Snapshot.Storage.intact_back hstep hf
  obtain ⟨t', ht', hm⟩ := h.same.snapStep h.intact.filed h.intact.inside (h.intact.queued (h.same.fail ▸ hnf)) h8 hnf
    hstep hf
  have hst := step_of ht'
  have hreuse : NoReuse t a := by
    rw [h.same.snap] at hr
    exact hr
  exact ⟨t', ⟨hm, h.intact.step hsize hin hreuse hst, h.guarded.step hst⟩, hst⟩

theorem Held.modifyCacheSize {cacheSize : Nat} (h : Held d w₀ b₀ old t)
    (hstep : Snapshot.Storage.step d old (.modifyCacheSize cacheSize) = some old') : Held d w₀ b₀ old' t :=
  ⟨h.same.modifyCacheSize hstep, h.intact, h.guarded⟩

/-- What was written since the snapshot is with the cow thread or with the new tracer. -/
structure Handover (d : Device) (w₀ : World) (b₀ : Nat → Sector) (old : Backed) (inc : Tracer) (t : State Sector) :
    Prop where
  held : Held d w₀ b₀ old t
  handed : HandedOver t
  isFailed : inc.isFailed = false
  marked : ∀ b, Marked d inc b → b < 4096 * w₀.cm.totalSects
  accounts : Accounts d b₀ (fun b => Appended d t b ∨ Marked d inc b) old.snap.base inc.inFlight

theorem Held.fail (h : Held d w₀ b₀ old t) : t.fail = old.snap.fail := h.same.fail.symm

theorem Held.base (h : Held d w₀ b₀ old t) : old.snap.base = t.base := by rw [h.same.snap]; rfl

theorem frozen_submitted (h : frozen t = true) : ∀ i < t.writes.length, i ∈ t.submitted := by
  intro i hi
  rw [frozen, List.all_eq_true] at h
  exact List.contains_iff_mem.mp (h i (List.mem_range.mpr hi))

theorem handover_start (h : Held d w₀ b₀ old t) (hw : Awake t) (h8 : d.sectorsPerBlock = 8)
    (hsize : d.sectorsPerBlock ∣ d.size) (hstep : tracerActiveSnapToInc old = some x) :
    ∃ old' t', x = .handover old' .new ∧ Handover d w₀ b₀ old' .new t' := by
  unfold tracerActiveSnapToInc at hstep
  split at hstep
  next => cases hstep
  next hgo =>
    cases hstep
    simp only [Bool.or_eq_true, Bool.not_eq_true', not_or, Bool.not_eq_true, Bool.not_eq_false] at hgo
    obtain ⟨hf, hfrozen⟩ := hgo
    have hcontent := h.guarded.content (h.fail.trans hf) hw.tracing
    have hbase := h.base
    rw [h.same.snap] at hfrozen
    obtain ⟨t', ht', hst⟩ := h.snap (a := .stopTracing) h8 hsize trivial trivial rfl hf
    cases hst
    refine ⟨_, _, rfl, ht', ⟨rfl, frozen_submitted hfrozen, fun he => ?_⟩, rfl, fun b => ?_, fun b hb => ?_, ?_⟩
    · exact absurd (he.symm.trans hw.cowExited) (by decide)
    · rintro ⟨_, hm, _⟩
      cases hm
    · rw [hbase]
      refine (hcontent.base b hb).imp_right ?_
      rintro ⟨k, c, hk, ha, hcov, _⟩
      exact .inl ⟨k, c, hk, ha, hcov⟩
    · exact fun _ hm => by cases hm

/-- The snapshot goes on: what it still does to the base device was captured. -/
theorem Handover.snap {a : Snapshot.Machine.Action Sector} (h : Handover d w₀ b₀ old inc t)
    (h8 : d.sectorsPerBlock = 8) (hsize : d.sectorsPerBlock ∣ d.size) (ha : ofOld d (.snap a) = true)
    (hin : InDevice d a) (hr : NoReuse old.snap a)
    (hstep : Snapshot.Storage.step d old (.snap a) = some old') (hf : old'.snap.fail = false) :
    ∃ t', Handover d w₀ b₀ old' inc t' := by
  obtain ⟨t', ht', hst⟩ := h.held.snap h8 hsize hin hr hstep hf
  have hsound := h.held.guarded.captures.sound
  have hk := step_kept hsound hst
  have hft := ht'.fail.trans hf
  refine ⟨t', ht', h.handed.step hsound hst hft, h.isFailed, h.marked, ?_⟩
  have hacc : Accounts d b₀ (fun b => Appended d t' b ∨ Marked d inc b) t.base inc.inFlight := by
    rw [← h.held.base]
    exact h.accounts.mono fun b hb => hb.imp_left (·.kept hk)
  rw [ht'.base]
  cases hst with
  | mrfSubmit content i rest w _ ho hw =>
      refine hacc.overwrite fun b hov hb => .inl ?_
      rcases h.held.guarded.captures.released hw (List.mem_append_right _ (ho ▸ List.mem_cons_self)) with hfail | hcov
      · rw [h.held.fail, Snapshot.Storage.intact_back hstep hf] at hfail
        cases hfail
      · obtain ⟨k, c, hc, -, hap, hcv⟩ := hcov b hov
        exact ⟨k, c, hc, hap, hcv⟩
  | direct sector sectors content _ => exact hacc.own ha
  | tracer i w act _ hw hs => exact (h.handed.no_tracer hsound hw hs).elim
  | reader k c w act _ hc hw hs => exact (h.handed.no_reader hsound hc hw hs).elim
  | cow act _ hs =>
      rw [(Snapshot.Machine.cow_base hs).1]
      exact hacc
  | _ => exact hacc

theorem Handover.modifyCacheSize {cacheSize : Nat} (h : Handover d w₀ b₀ old inc t)
    (hstep : Snapshot.Storage.step d old (.modifyCacheSize cacheSize) = some old') :
    Handover d w₀ b₀ old' inc t where
  held := h.held.modifyCacheSize hstep
  handed := h.handed
  isFailed := h.isFailed
  marked := h.marked
  accounts := by
    rw [(h.held.modifyCacheSize hstep).base, ← h.held.base]
    exact h.accounts

/-- A write to the base device below the snapshot, which does not trace it any more. -/
theorem Handover.written (h : Handover d w₀ b₀ old inc t) (h8 : d.sectorsPerBlock = 8)
    (hsize : d.sectorsPerBlock ∣ d.size) (hf : old.snap.fail = false) (sector sectors : Nat) (content : Nat → Sector) :
    ∃ t', Held d w₀ b₀ (beneath old (overwrite old.snap.base sector sectors content)) t' ∧ HandedOver t' ∧
      ∀ b, Appended d t b → Appended d t' b := by
  have htr : old.snap.tracing = false := by
    rw [h.held.same.snap]
    exact h.handed.tracing
  have hguard : (old.snap.fail || !old.snap.tracing || ownBlocks d sector sectors) = true := by
    rw [hf, htr]
    rfl
  have hstep : Snapshot.Storage.step d old (.snap (.direct sector sectors content)) =
      some (beneath old (overwrite old.snap.base sector sectors content)) := by
    simp only [Snapshot.Storage.step, Snapshot.Machine.step, if_pos hguard]
    rfl
  obtain ⟨t', ht', hst⟩ := h.held.snap (a := .direct sector sectors content) h8 hsize trivial trivial hstep hf
  have hsound := h.held.guarded.captures.sound
  exact ⟨t', ht', h.handed.step hsound hst (ht'.fail.trans hf), fun b hb => hb.kept (step_kept hsound hst)⟩

theorem Handover.track {a : Tracker.Action} (h : Handover d w₀ b₀ old inc t) (h8 : d.sectorsPerBlock = 8)
    (hsize : d.sectorsPerBlock ∣ d.size) (hroom : Indexed d w₀) (ha : ofMrf a = true)
    (hp : Tracker.Proper d resident inode a) (hf : old.snap.fail = false)
    (hstep : Tracker.step d ⟨resident, some inode⟩ ⟨inc, old.snap.base, old.world, false⟩ a = some s)
    (hfs : s.dev.fail = false) : ∃ t', Handover d w₀ b₀ (beneath old s.base) s.dev t' := by
  have hfi : inc.fail = false := Tracker.intact_back hstep hfs
  cases a with
  | trace bio alloc =>
      cases hstep
      have hmarked := incTraceBio_marked hp.1 hfs hfi
      have hflags : (Tracker.incTraceBio d ⟨resident, some inode⟩ alloc bio inc).isFailed = inc.isFailed := by
        unfold Tracker.incTraceBio
        split <;> rfl
      refine ⟨t, h.held, h.handed, hflags.trans h.isFailed, fun b hb => ?_, ?_⟩
      · rcases (hmarked b).mp hb with hb | ⟨x, rfl, hx⟩
        · exact h.marked b hb
        · exact changed_lt hroom hp.1 hx
      · exact accounts_step (s := ⟨inc, old.snap.base, old.world, false⟩) h.accounts hp rfl
          (fun b hb => hb.imp_right fun hm => (hmarked b).mpr (.inl hm))
          fun b hb => .inr ((hmarked b).mpr (.inr hb))
  | land n =>
      have hacc := accounts_step (s := ⟨inc, old.snap.base, old.world, false⟩) h.accounts hp hstep (fun _ => id)
        fun _ => False.elim
      obtain ⟨bio, hn, rfl⟩ := Option.map_eq_some_iff.mp hstep
      obtain ⟨t', ht', hover, happ⟩ := h.written h8 hsize hf bio.sector bio.data.sectors bio.content
      exact ⟨t', ht', hover, h.isFailed, h.marked, hacc.mono fun b hb => hb.imp_left (happ b)⟩
  | own sector sectors content =>
      have hacc := accounts_step (s := ⟨inc, old.snap.base, old.world, false⟩) h.accounts hp hstep (fun _ => id)
        fun _ => False.elim
      simp only [Tracker.step] at hstep
      split at hstep
      · cases hstep
        obtain ⟨t', ht', hover, happ⟩ := h.written h8 hsize hf sector sectors content
        exact ⟨t', ht', hover, h.isFailed, h.marked, hacc.mono fun b hb => hb.imp_left (happ b)⟩
      · cases hstep
  | failure =>
      cases hstep
      cases hfs
  | look | handle | modifyCacheSize | truncate | toDormant | toActive => cases ha

/-- What the COW file is from its creation on. -/
structure SameFile (w₀ w : World) : Prop where
  totalSects : w.cm.totalSects = w₀.cm.totalSects
  uuid : w.cm.uuid = w₀.cm.uuid
  seqid : w.cm.seqid = w₀.cm.seqid

/-- The tracer in incremental mode knows what was written since the snapshot. -/
structure Follows (d : Device) (w₀ : World) (b₀ : Nat → Sector) (s : Tracker.State) (truncated : Bool) : Prop where
  tracking : Tracking d s
  file : SameFile w₀ s.world
  accounts : Accounts d b₀ (fun b => b < 4096 * w₀.cm.totalSects → Recorded d s b) s.base s.dev.inFlight
  cut : truncated = true →
    hasFlag s.world.cm.flags cowIndexOnly = true ∧ s.world.cm.dataOffset ≤ s.world.file.size

/-- When the cow thread has exited all that was handed to it is in the index. -/
theorem Handover.wake (h : Handover d w₀ b₀ old inc t) (hstep : wakeUpProcess old inc = some x)
    (hf : x.failed = false) : ∃ s, x = .tracking s false ∧ Follows d w₀ b₀ s false := by
  unfold wakeUpProcess at hstep
  split at hstep
  next hx =>
    cases hstep
    simp only [Phase.failed, Bool.or_eq_false_iff] at hf
    have hserves := h.held.same.serves
    have htotal := hserves.fixed.totalSects
    have hexited : t.cowExited = true := by
      rw [h.held.same.snap] at hx
      exact hx
    obtain ⟨hidle, hnone⟩ := h.handed.drained hexited
    have hpending : pending t = [] := by simp only [pending, hidle, hnone]
    have hqueued := h.held.intact.queued (h.held.fail.trans hf.2)
    refine ⟨_, rfl, ⟨⟨hserves.store.live, hserves.blank⟩, h.isFailed, ?_, fun b hb => ?_⟩,
      ⟨htotal, hserves.fixed.uuid, hserves.fixed.seqid⟩, h.accounts.mono fun b hb hlt => ?_, fun ht => by cases ht⟩
    · exact hserves.room
    · rw [htotal]
      exact h.marked b hb
    · rcases hb with ⟨k, c, hk, ha, hcov⟩ | hm
      · left
        rw [← htotal] at hlt
        rw [Ne, hserves.entry hlt]
        refine (hqueued.appended k c b hk ha hcov).resolve_right ?_
        rintro ⟨bio, hbio, -⟩
        rw [hpending] at hbio
        cases hbio
      · exact .inr hm
  next => cases hstep

theorem Follows.step {a : Tracker.Action} {truncated : Bool} (h : Follows d w₀ b₀ s truncated)
    (hp : Tracker.Proper d resident inode a) (hstep : Tracker.step d ⟨resident, some inode⟩ s a = some s')
    (hf : s'.dev.fail = false) : Follows d w₀ b₀ s' (truncated || truncates a s.world) := by
  have hadv := h.tracking.step hp hstep hf
  have hcarried := hadv.carried
  have htotal := h.file.totalSects
  refine ⟨hadv.tracking, ⟨hcarried.totalSects.trans htotal, hcarried.uuid.trans h.file.uuid,
    hcarried.seqid.trans h.file.seqid⟩, ?_, fun ht => ?_⟩
  · refine accounts_step h.accounts hp hstep (fun b hb hlt => ?_) fun b hb hlt => ?_
    · exact (hadv.recorded b (by rw [htotal]; exact hlt)).mpr (.inl (hb hlt))
    · exact (hadv.recorded b (by rw [htotal]; exact hlt)).mpr (.inr hb)
  · rcases Bool.or_eq_true_iff.mp ht with ht | ht
    · exact ⟨hcarried.indexOnly (h.cut ht).1, hcarried.reach (h.cut ht).2⟩
    · cases a with
      | truncate =>
          simp only [Tracker.step] at hstep
          split at hstep
          next => cases hstep
          next hd =>
            cases hstep
            simp only [truncates] at ht
            split at ht
            next _ w hw =>
              obtain ⟨-, hflag, hsize⟩ := wp_ok (truncate_tame (h.tracking.awake hd).1) hw
              have hleaves : leaves cowTruncateToIndex s.world = w := by simp only [leaves, hw]
              rw [hleaves]
              exact ⟨hflag, hsize.ge⟩
            next => cases ht
      | _ => cases ht

/-- The thread writes no sectors, and runs only as long as the device is active. -/
theorem thread_base {cow : CowFile} {a : Tracker.Action} (ha : ofThread a = true)
    (hstep : Tracker.step d cow s a = some s') : s'.base = s.base ∧ s'.dormant = s.dormant := by
  cases a with
  | look =>
      simp only [Tracker.step] at hstep
      split at hstep
      · cases hstep
      · cases hstep
        unfold lookFail
        split <;> exact ⟨rfl, rfl⟩
  | handle =>
      simp only [Tracker.step, Tracker.incHandleSset] at hstep
      split at hstep
      · cases hstep
      · split at hstep
        · cases hstep
        · split at hstep
          · cases hstep
            exact ⟨rfl, rfl⟩
          · split at hstep <;> cases hstep <;> exact ⟨rfl, rfl⟩
  | failure =>
      cases hstep
      exact ⟨rfl, rfl⟩
  | trace | land | own | modifyCacheSize | truncate | toDormant | toActive => cases ha

theorem thread_truncates {a : Tracker.Action} {w : World} (ha : ofThread a = true) : truncates a w = false := by
  cases a with
  | truncate => cases ha
  | _ => rfl

/-- A snapshot as it is created, with a new COW file. -/
structure Fresh (d : Device) (base : Nat → Sector) (x : Backed) : Prop where
  snap : x.snap = State.created base
  init : ∃ (fileMax seqid : UInt64) (cacheSize : Nat) (uuid : Fin 16 → UInt8) (w : World), fileMax.toNat % 4096 = 0 ∧
    cowInit 12 (UInt64.ofNat (d.size / d.sectorsPerBlock)) 4096 cacheSize fileMax uuid seqid w = .ok () x.world

/-- The next snapshot of a series, made of what the base device holds. -/
structure Succeeds (d : Device) (w₀ : World) (base : Nat → Sector) (next : Backed) : Prop where
  fresh : Fresh d base next
  uuid : next.world.cm.uuid = w₀.cm.uuid
  seqid : next.world.cm.seqid = w₀.cm.seqid + 1

theorem Follows.toSnap {truncated : Bool} {fileMax : UInt64} {cacheSize : Nat} {w : World}
    (h : Follows d w₀ b₀ s truncated) (halign : fileMax.toNat % 4096 = 0)
    (hstep : tracerActiveIncToSnap d fileMax cacheSize w s truncated = some x) :
    ∃ next, x = .leaving s truncated next ∧ s.dormant = false ∧ Succeeds d w₀ s.base next := by
  unfold tracerActiveIncToSnap at hstep
  split at hstep
  next => cases hstep
  next hgo =>
    simp only [Bool.or_eq_true, not_or, Bool.not_eq_true] at hgo
    split at hstep
    next _ w' hw =>
      cases hstep
      obtain ⟨hstarted, -⟩ := wp_ok (Cow.Start.cowInit_wp _ fileMax _ cacheSize _) hw
      refine ⟨_, rfl, hgo.1.2, ⟨rfl, fileMax, _, cacheSize, _, w, halign, hw⟩, hstarted.uuid.trans h.file.uuid, ?_⟩
      rw [← h.file.seqid]
      exact hstarted.seqid
    next => cases hstep

/-- The file of changed blocks of the next snapshot. -/
structure Changes (d : Device) (w₀ : World) (b₀ start : Nat → Sector) (truncated : Bool) (w : World) : Prop where
  entries : ∀ b, b < 4096 * w₀.cm.totalSects → d.owned b = false →
    Original d b₀ start b ∨ UpdateImg.entry w.file b ≠ 0
  magic : (diskHeader w).magic = cowMagic
  uuid : (diskHeader w).uuid = w₀.cm.uuid
  seqid : (diskHeader w).seqid = w₀.cm.seqid
  clean : hasFlag (diskHeader w).flags cowClean = true
  page : 4096 ≤ w.file.size
  cut : truncated = true →
    hasFlag (diskHeader w).flags cowIndexOnly = true ∧ 4096 + 32768 * w₀.cm.totalSects ≤ w.file.size

/-- When the sset thread has exited all is in the index, and the index goes to the file. -/
theorem Follows.free {truncated : Bool} {next : Backed} (h : Follows d w₀ b₀ s truncated)
    (hd : s.dormant = false) (hstep : tracerDestroyCowSyncAndFree s truncated next = some x)
    (hf : x.failed = false) :
    ∃ w, x = .closed false truncated w next ∧ Changes d w₀ b₀ s.base truncated w := by
  obtain ⟨hl, hblank⟩ := h.tracking.awake (by rw [hd]; exact Bool.false_ne_true)
  unfold tracerDestroyCowSyncAndFree at hstep
  split at hstep
  next hempty =>
    split at hstep
    next _ w hw =>
      cases hstep
      obtain ⟨v, hv, rfl⟩ := wp_ok (Cow.Sealing.cowSyncAndFree_wp hl.wf (.inl hl.filp)) hw
      have htotal := h.file.totalSects
      have hdisk : diskHeader v = headerOf { s.world.cm with flags := setFlag s.world.cm.flags cowClean } := by
        rw [hv.header, hv.cm]
        rfl
      change s.dev.fail = false at hf
      rw [hf]
      refine ⟨_, rfl, fun b hb ho => ?_, ?_, ?_, ?_, ?_, hv.page, fun ht => ⟨?_, ?_⟩⟩
      · refine (h.accounts.base b ho).imp_right fun hrec => ?_
        have hb' : b < 4096 * s.world.cm.totalSects := by rw [htotal]; exact hb
        change diskWord v b ≠ 0
        rw [Cow.Reload.sealed_disk hv hblank hb']
        refine (hrec hb).resolve_right ?_
        rintro ⟨_, hm, _⟩
        rw [List.isEmpty_iff.mp hempty] at hm
        cases hm
      · change (diskHeader v).magic = cowMagic
        rw [hdisk]
        rfl
      · change (diskHeader v).uuid = w₀.cm.uuid
        rw [hdisk]
        exact h.file.uuid
      · change (diskHeader v).seqid = w₀.cm.seqid
        rw [hdisk]
        exact h.file.seqid
      · change hasFlag (diskHeader v).flags cowClean = true
        rw [hdisk]
        simp [headerOf]
      · change hasFlag (diskHeader v).flags cowIndexOnly = true
        rw [hdisk]
        simp only [headerOf, hasFlag_setFlag, (h.cut ht).1, Bool.true_or]
      · have hreach := (h.cut ht).2.trans hv.size
        rw [hl.wf.dataOffset, htotal] at hreach
        exact hreach
    next =>
      cases hstep
      cases hf
  next => cases hstep

/-- What holds of each phase of a series in which no device has failed. -/
def Inv (d : Device) (w₀ : World) (b₀ : Nat → Sector) : Phase → Prop
  | .active old => ∃ t, Held d w₀ b₀ old t ∧ Awake t
  | .handover old inc => ∃ t, Handover d w₀ b₀ old inc t
  | .tracking s truncated => Follows d w₀ b₀ s truncated
  | .leaving s truncated next => Follows d w₀ b₀ s truncated ∧ s.dormant = false ∧ Succeeds d w₀ s.base next
  | .closed _ truncated w next => ∃ start, Changes d w₀ b₀ start truncated w ∧ Succeeds d w₀ start next

theorem step_back {cow : CowFile} {a : Action} (hstep : step d cow x a = some y) (hf : y.failed = false) :
    x.failed = false := by
  unfold step at hstep
  split at hstep
  next =>
    split at hstep
    · obtain ⟨old', hold, rfl⟩ := Option.map_eq_some_iff.mp hstep
      exact Snapshot.Storage.intact_back hold hf
    · cases hstep
  next old =>
    unfold tracerActiveSnapToInc at hstep
    split at hstep
    next => cases hstep
    next hgo =>
      simp only [Bool.or_eq_true, not_or, Bool.not_eq_true] at hgo
      exact hgo.1
  next =>
    split at hstep
    · obtain ⟨old', hold, rfl⟩ := Option.map_eq_some_iff.mp hstep
      simp only [Phase.failed, Bool.or_eq_false_iff] at hf ⊢
      exact ⟨Snapshot.Storage.intact_back hold hf.1, hf.2⟩
    · cases hstep
  next =>
    split at hstep
    · obtain ⟨s, hs, rfl⟩ := Option.map_eq_some_iff.mp hstep
      simp only [Phase.failed, Bool.or_eq_false_iff] at hf ⊢
      exact ⟨hf.1, Tracker.intact_back hs hf.2⟩
    · cases hstep
  next old inc =>
    unfold wakeUpProcess at hstep
    split at hstep
    next =>
      cases hstep
      simp only [Phase.failed, Bool.or_eq_false_iff] at hf ⊢
      exact hf.symm
    next => cases hstep
  next =>
    obtain ⟨s, hs, rfl⟩ := Option.map_eq_some_iff.mp hstep
    exact Tracker.intact_back hs hf
  next =>
    unfold tracerActiveIncToSnap at hstep
    split at hstep
    next => cases hstep
    next hgo =>
      simp only [Bool.or_eq_true, not_or, Bool.not_eq_true] at hgo
      exact hgo.1.1
  next =>
    split at hstep
    · obtain ⟨s, hs, rfl⟩ := Option.map_eq_some_iff.mp hstep
      exact Tracker.intact_back hs hf
    · cases hstep
  next =>
    unfold tracerDestroyCowSyncAndFree at hstep
    split at hstep
    next =>
      split at hstep
      next =>
        cases hstep
        exact hf
      next =>
        cases hstep
        cases hf
    next => cases hstep
  next => cases hstep

theorem Inv.step {a : Action} (h8 : d.sectorsPerBlock = 8) (hsize : d.sectorsPerBlock ∣ d.size)
    (hroom : Indexed d w₀) (h : Inv d w₀ b₀ x) (hp : Proper d resident inode x a)
    (hstep : Series.step d ⟨resident, some inode⟩ x a = some y) (hf : y.failed = false) : Inv d w₀ b₀ y := by
  unfold Series.step at hstep
  split at hstep
  next old a =>
    obtain ⟨t, ht, hawake⟩ := h
    split at hstep
    next ha =>
      obtain ⟨old', hold, rfl⟩ := Option.map_eq_some_iff.mp hstep
      cases a with
      | snap a =>
          obtain ⟨t', ht', hst⟩ := ht.snap h8 hsize hp.1 hp.2 hold hf
          exact ⟨t', ht', hawake.step hst ha⟩
      | modifyCacheSize cacheSize => exact ⟨t, ht.modifyCacheSize hold, hawake⟩
    next => cases hstep
  next old =>
    obtain ⟨t, ht, hawake⟩ := h
    obtain ⟨old', t', rfl, hover⟩ := handover_start ht hawake h8 hsize hstep
    exact ⟨t', hover⟩
  next old inc a =>
    obtain ⟨t, ht⟩ := h
    split at hstep
    next ha =>
      obtain ⟨old', hold, rfl⟩ := Option.map_eq_some_iff.mp hstep
      simp only [Phase.failed, Bool.or_eq_false_iff] at hf
      cases a with
      | snap a => exact ht.snap h8 hsize ha hp.1 hp.2 hold hf.1
      | modifyCacheSize cacheSize => exact ⟨t, ht.modifyCacheSize hold⟩
    next => cases hstep
  next old inc a =>
    obtain ⟨t, ht⟩ := h
    split at hstep
    next ha =>
      obtain ⟨s, hs, rfl⟩ := Option.map_eq_some_iff.mp hstep
      simp only [Phase.failed, Bool.or_eq_false_iff] at hf
      exact ht.track h8 hsize hroom ha hp hf.1 hs hf.2
    next => cases hstep
  next old inc =>
    obtain ⟨t, ht⟩ := h
    obtain ⟨s, rfl, hs⟩ := ht.wake hstep hf
    exact hs
  next s truncated a =>
    obtain ⟨s', hs, rfl⟩ := Option.map_eq_some_iff.mp hstep
    exact Follows.step h hp hs hf
  next s truncated fileMax cacheSize w =>
    obtain ⟨next, rfl, hnext⟩ := Follows.toSnap h hp hstep
    exact ⟨h, hnext⟩
  next s truncated next a =>
    split at hstep
    next ha =>
      obtain ⟨s', hs, rfl⟩ := Option.map_eq_some_iff.mp hstep
      have hfollows := h.1.step hp hs hf
      rw [thread_truncates ha, Bool.or_false] at hfollows
      obtain ⟨hbase, hdormant⟩ := thread_base ha hs
      refine ⟨hfollows, ?_⟩
      rw [hbase, hdormant]
      exact h.2
    next => cases hstep
  next s truncated next =>
    obtain ⟨w, rfl, hw⟩ := h.1.free h.2.1 hstep hf
    exact ⟨s.base, hw, h.2.2⟩
  next => cases hstep

/-- A device of whole blocks of eight sectors. -/
structure Whole (d : Device) : Prop where
  eight : d.sectorsPerBlock = 8
  blocks : 8 ∣ d.size
  fits : d.size < 2 ^ 64

theorem Whole.dvd (h : Whole d) : d.sectorsPerBlock ∣ d.size := by
  rw [h.eight]
  exact h.blocks

theorem Fresh.serves (h : Fresh d b₀ old) (hd : Whole d) : Serves d old.world (fun _ => none) old.world := by
  obtain ⟨fileMax, seqid, cacheSize, uuid, w, halign, hinit⟩ := h.init
  have hsize : d.size = 8 * (UInt64.ofNat (d.size / d.sectorsPerBlock)).toNat := by
    have hdiv := hd.blocks
    have hfits := hd.fits
    rw [hd.eight, UInt64.toNat_ofNat']
    omega
  exact Snapshot.Storage.serves_created hinit halign hd.eight hsize hd.fits

theorem Fresh.held (h : Fresh d b₀ old) (hd : Whole d) : Held d old.world b₀ old (State.created b₀) where
  same := by
    refine ⟨?_, ?_, ?_, h.serves hd⟩ <;> rw [h.snap]
    · rfl
    · exact .same _
    · exact ⟨rfl, fun _ _ _ hr => by cases hr⟩
  intact := Snapshot.Storage.intact_created b₀
  guarded := ⟨Snapshot.Capture.captures_created b₀, fun _ _ => Snapshot.CopyBeforeWrite.content_created⟩

theorem inv_reach (hd : Whole d) (hfresh : Fresh d b₀ old)
    (h : Reach (step d ⟨resident, some inode⟩) (Proper d resident inode) (.active old) x) (hf : x.failed = false) :
    Inv d old.world b₀ x := by
  refine h.invariant (I := fun x => x.failed = false → Inv d old.world b₀ x)
    (fun _ => ⟨_, hfresh.held hd, awake_created b₀⟩) ?_ hf
  intro x a y hx hc hstep hf
  exact (hx (step_back hstep hf)).step hd.eight hd.dvd (hfresh.serves hd).room hc hstep hf

end ElastioSnap.Incremental.Series
