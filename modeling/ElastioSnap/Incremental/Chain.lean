import ElastioSnap.Incremental.Series

namespace ElastioSnap.Incremental.Chain

open Lib.Runs Lib.Outcome Lib.Bytes Lib.Flags Snapshot.Tracking Series
open Cow.Manager (World cowClean cowIndexOnly)
open Cow.Header (diskHeader)
open Snapshot.Machine (disk)
open Snapshot.CopyBeforeWrite (Original)
open Snapshot.Storage (Sector sectorByte Backed zeroes)
open Tracker (land leaves acrossBio acrossBio_proper writeFillers_tame truncate_tame)
open UpdateImg (Info Calls)

variable {d e : Device} {w₀ : World} {b₀ : Nat → Sector} {b : Nat} {resident : Bool} {inode : Nat}
  {first last live next : Backed}

/-- What a device holds, as a file. -/
def contents (d : Device) (data : Nat → Sector) : ByteFile where
  bytes p := if p < d.size * 512 then data (d.sectOff + p / 512) (sectorByte p) else 0
  size := d.size * 512
  tail _ hp := if_neg (Nat.not_lt.mpr hp)

/-- What `tracer_elastio_snap_info` tells of a snapshot as far as the program looks at it. -/
def tracerElastioSnapInfo (x : Backed) : Info := ⟨x.world.cm.uuid, x.world.cm.seqid⟩

/-- Every call does all it is asked for. -/
structure Unhindered (calls : Calls) (info : Info) : Prop where
  infoBuf : calls.infoBuf = true
  info : calls.info = .ok info
  header : 64 ≤ calls.header.moved
  mappings : calls.mappings = true
  index : ∀ i, 65536 ≤ (calls.index i).moved
  read : ∀ b, 4096 ≤ (calls.read b).moved
  write : ∀ b, 4096 ≤ (calls.write b).moved

section

variable {calls : Calls} {info : Info} {cow snap : ByteFile}

theorem totalBlocks_eq (h : 4096 ∣ snap.size) : UpdateImg.totalBlocks 12 snap * 4096 = snap.size := by
  obtain ⟨n, hn⟩ := h
  rw [UpdateImg.totalBlocks, Cow.Manager.cowBlockSize_four_kib, hn]
  omega

/-- A program that nothing hinders copies every changed block of a snapshot of whole blocks. -/
theorem merge_whole (img : Nat → UInt8) (hv : UpdateImg.verifyFiles calls cow = 0) (hu : Unhindered calls info)
    (hsnap : 4096 ∣ snap.size) (hcow : 4096 + 8 * UpdateImg.totalBlocks 12 snap ≤ cow.size) :
    (UpdateImg.main 12 calls cow snap img).1 = 0 ∧
      UpdateImg.Complete 12 cow snap img (UpdateImg.main 12 calls cow snap img).2 := by
  have htotal := totalBlocks_eq hsnap
  obtain ⟨n, hstops, hret, htook⟩ := UpdateImg.merge_spec 12 calls cow snap img
  have hend : ¬ n < UpdateImg.totalChunks 12 snap := by
    intro hlt
    refine hstops.unreadable hlt ?_
    have hmoved := hu.index n
    simp only [UpdateImg.Readable, UpdateImg.pread, UpdateImg.chunkOffset, UpdateImg.indexBufferSize,
      UpdateImg.totalChunks, Cow.Manager.cowHeaderSize] at hlt ⊢
    omega
  have hmain : UpdateImg.main 12 calls cow snap img = (0, (UpdateImg.mergeChunks 12 calls cow snap
      (UpdateImg.totalBlocks 12 snap) (UpdateImg.totalChunks 12 snap) 0 0 ⟨img, 0, 0⟩).2.img) := by
    rw [if_neg hend] at hret
    simp [UpdateImg.main, hv, hu.mappings, hret]
  rw [hmain]
  refine ⟨rfl, (UpdateImg.complete_iff htook).mpr fun b hb _ p hp _ => .inl ⟨?_, ?_, hp.1, ?_⟩⟩
  · have hchunk := UpdateImg.lt_totalChunks hb
    have hn : b / UpdateImg.indexBufferSize < n := hchunk.trans_le (not_lt.mp hend)
    rw [Nat.mul_comm]
    exact (Nat.div_lt_iff_lt_mul (by decide)).mp hn
  · have hmoved := hu.read b
    simp only [UpdateImg.pread, Cow.Manager.cowBlockSize_four_kib]
    omega
  · have hmoved := hu.write b
    have hhi := hp.2
    rw [Cow.Manager.cowBlockSize_four_kib] at hhi ⊢
    omega

/-- The program accepts a file exactly for the snapshot after the one it was made for. -/
theorem verifyFiles_iff (hu : Unhindered calls info) (hpage : 4096 ≤ cow.size)
    (hmagic : (Cow.Header.decode cow.bytes).magic = Cow.Header.cowMagic) :
    UpdateImg.verifyFiles calls cow = 0 ↔ (Cow.Header.decode cow.bytes).uuid = info.uuid ∧
      (Cow.Header.decode cow.bytes).seqid = info.seqid - 1 := by
  have hmoved := hu.header
  have hread : UpdateImg.pread cow 64 0 calls.header = 64 := by
    rw [UpdateImg.pread]
    omega
  simp only [UpdateImg.verifyFiles, hu.infoBuf, hu.info, hread, hmagic, ne_eq, not_true_eq_false, if_false,
    Bool.true_eq_false]
  split
  next hne => exact iff_of_false (by decide) fun h => hne h.1
  next hsame =>
    split
    next hne => exact iff_of_false (by decide) fun h => hne h.2
    next hseqid => exact iff_of_true rfl ⟨not_not.mp hsame, not_not.mp hseqid⟩

theorem verifyFiles_changes {start : Nat → Sector} {truncated : Bool} {w : World}
    (h : Changes d w₀ b₀ start truncated w) (hnext : Succeeds d w₀ start next)
    (hu : Unhindered calls (tracerElastioSnapInfo next)) : UpdateImg.verifyFiles calls w.file = 0 := by
  refine (verifyFiles_iff hu h.page h.magic).mpr ⟨h.uuid.trans hnext.uuid.symm, ?_⟩
  have hseqid := h.seqid
  rw [diskHeader] at hseqid
  rw [hseqid, tracerElastioSnapInfo, hnext.seqid, UInt64.add_sub_cancel]

end

theorem contents_inside {data : Nat → Sector} {p : Nat} (h : p < d.size * 512) :
    (contents d data).bytes p = data (d.sectOff + p / 512) (sectorByte p) := if_pos h

/-- Two devices that agree on a block have the same bytes there. -/
theorem contents_original {start : Nat → Sector} {p : Nat} (h8 : d.sectorsPerBlock = 8) (h : Original d b₀ start b)
    (hp : UpdateImg.InBlock 12 b p) : (contents d start).bytes p = (contents d b₀).bytes p := by
  obtain ⟨hlo, hhi⟩ := hp
  rw [Cow.Manager.cowBlockSize_four_kib] at hlo hhi
  have hsector : d.sectOff + p / 512 = d.sector b (p / 512 - 8 * b) := by
    rw [Device.sector, h8]
    omega
  have ho := h (p / 512 - 8 * b) (by rw [h8]; omega)
  simp only [contents]
  rw [hsector, ho]

/-- What a whole turn of a series leaves behind. -/
theorem closed_inv {file : World} {truncated : Bool} (hd : Whole d) (hfresh : Fresh d b₀ first)
    (h : Reach (step d ⟨resident, some inode⟩) (Proper d resident inode) (.active first)
      (.closed false truncated file next)) :
    Changes d first.world b₀ next.snap.base truncated file ∧ Succeeds d first.world next.snap.base next := by
  obtain ⟨start, hch, hnext⟩ := inv_reach hd hfresh h rfl
  have hbase : next.snap.base = start := by
    rw [hnext.fresh.snap]
    rfl
  rw [hbase]
  exact ⟨hch, hnext⟩

section

variable {start : Nat → Sector} {w : World} {calls : Calls} {img out : Nat → UInt8}

/-- The program accepts the file that was cut down to its index, and reads all of the index. -/
theorem changes_merge (img : Nat → UInt8) (hd : Whole d) (hfresh : Fresh d b₀ first)
    (hch : Changes d first.world b₀ start true w) (hnext : Succeeds d first.world start next)
    (hcalls : Unhindered calls (tracerElastioSnapInfo next)) :
    (UpdateImg.main 12 calls w.file (contents d start) img).1 = 0 ∧
      UpdateImg.Complete 12 w.file (contents d start) img (UpdateImg.main 12 calls w.file (contents d start) img).2 := by
  have hroom := (hfresh.serves hd).room
  have hcut := (hch.cut rfl).2
  have hblocks := hd.blocks
  rw [hd.eight] at hroom
  have hdiv : 4096 ∣ (contents d start).size := by
    simp only [contents]
    omega
  have htotal := totalBlocks_eq hdiv
  have hsize : (contents d start).size = d.size * 512 := rfl
  exact merge_whole img (verifyFiles_changes hch hnext hcalls) hcalls hdiv (by omega)

theorem complete_keeps {cow snap : ByteFile} {p : Nat} (hc : UpdateImg.Complete 12 cow snap img out)
    (he : UpdateImg.entry cow b = 0) (hp : UpdateImg.InBlock 12 b p) : out p = img p := by
  refine hc.2 p ?_
  rintro ⟨b', -, hne, hp', -⟩
  rw [UpdateImg.inBlock_unique hp hp'] at he
  exact hne he

/-- A block that has changed is copied, and one that has not is the same in the image already. -/
theorem complete_updates {p : Nat} (hd : Whole d) (hfresh : Fresh d b₀ first)
    (hch : Changes d first.world b₀ start true w) (hc : UpdateImg.Complete 12 w.file (contents d start) img out)
    (hb : d.owned b = false) (himg : ∀ p, UpdateImg.InBlock 12 b p → img p = (contents d b₀).bytes p)
    (hp : UpdateImg.InBlock 12 b p) : out p = (contents d start).bytes p := by
  have hroom := (hfresh.serves hd).room
  have hblocks := hd.blocks
  rw [hd.eight] at hroom
  have hsize : (contents d start).size = d.size * 512 := rfl
  by_cases hlt : p < (contents d start).size
  · have htotal : UpdateImg.totalBlocks 12 (contents d start) * 4096 = (contents d start).size :=
      totalBlocks_eq (by rw [hsize]; omega)
    have hblock : b < UpdateImg.totalBlocks 12 (contents d start) := by
      have hlo := hp.1
      rw [Cow.Manager.cowBlockSize_four_kib] at hlo
      omega
    by_cases he : UpdateImg.entry w.file b = 0
    · have horig := (hch.entries b (by omega) hb).resolve_right fun hne => hne he
      rw [complete_keeps hc he hp, himg p hp, contents_original hd.eight horig hp]
    · exact hc.1 b hblock he p hp hlt
  · have hzero : ∀ data, (contents d data).bytes p = 0 := fun data => (contents d data).tail p (not_lt.mp hlt)
    rw [hc.2 p, himg p hp, hzero, hzero]
    rintro ⟨b', -, -, -, hp'⟩
    exact hlt hp'

end

/-- The file that a device leaves behind between two snapshots of a series turns an image of the first one into
an image of the second one, in every block that is not the COW file's. What is not in its index stays as it
is. -/
theorem series_updates_image {file : World} {calls : Calls} (img : Nat → UInt8) (hd : Whole d)
    (hfresh : Fresh d b₀ first)
    (h : Reach (step d ⟨resident, some inode⟩) (Proper d resident inode) (.active first) (.closed false true file next))
    (hcalls : Unhindered calls (tracerElastioSnapInfo next)) :
    (UpdateImg.main 12 calls file.file (contents d next.snap.base) img).1 = 0 ∧
      (∀ b, d.owned b = false → (∀ p, UpdateImg.InBlock 12 b p → img p = (contents d b₀).bytes p) →
        ∀ p, UpdateImg.InBlock 12 b p → (UpdateImg.main 12 calls file.file (contents d next.snap.base) img).2 p =
          (contents d next.snap.base).bytes p) ∧
      ∀ b, UpdateImg.entry file.file b = 0 → ∀ p, UpdateImg.InBlock 12 b p →
        (UpdateImg.main 12 calls file.file (contents d next.snap.base) img).2 p = img p := by
  obtain ⟨hch, hnext⟩ := closed_inv hd hfresh h
  obtain ⟨hret, hc⟩ := changes_merge img hd hfresh hch hnext hcalls
  refine ⟨hret, fun b hb himg p hp => ?_, fun b he p hp => ?_⟩
  · exact complete_updates hd hfresh hch hc hb himg hp
  · exact complete_keeps hc he hp

def allMoved (info : Info) : Calls where
  infoBuf := true
  info := .ok info
  header := ⟨4096, 0⟩
  mappings := true
  index _ := ⟨65536, 0⟩
  read _ := ⟨4096, 0⟩
  write _ := ⟨4096, 0⟩

theorem allMoved_unhindered (info : Info) : Unhindered (allMoved info) info where
  infoBuf := rfl
  info := rfl
  header := Nat.le_of_ble_eq_true rfl
  mappings := rfl
  index _ := le_rfl
  read _ := le_rfl
  write _ := le_rfl

/-- A series up to the sector set of a write that the tracer got during the handover. -/
def tracked (w : World) : Tracker.State :=
  ⟨⟨false, false, [⟨4, 8⟩], []⟩, land acrossBio zeroes, w, false⟩

theorem tracked_reach (w : World) : Reach (step disk ⟨true, some 7⟩) (Proper disk true 7)
    (.active (.created zeroes w)) (.tracking (tracked w) false) := by
  have h₀ : Reach (step disk ⟨true, some 7⟩) (Proper disk true 7) (.active (.created zeroes w))
      (.active (.created zeroes w)) := .init
  have h₁ := h₀.next (a := .toInc) (by exact trivial) rfl
  have h₂ := h₁.next (a := .inc (.trace acrossBio fun _ => true)) (by exact acrossBio_proper) rfl
  have h₃ := h₂.next (a := .inc (.land 0)) (by exact trivial) rfl
  have h₄ := h₃.next (a := .snap (.snap .stopCow)) (by exact ⟨trivial, trivial⟩) rfl
  have h₅ := h₄.next (a := .snap (.snap (.cow .exit))) (by exact ⟨trivial, trivial⟩) rfl
  exact h₅.next (a := .wake) (by exact trivial) rfl

theorem contents_zeroes (p : Nat) : 0 = (contents disk zeroes).bytes p := by
  simp only [contents, zeroes, ite_self]

/-- The second block of the device once the write has got there. -/
theorem contents_land : (contents disk (land acrossBio zeroes)).bytes 4096 = 1 := by
  have hlt : 4096 < disk.size * 512 := by simp [disk]
  have hsector : disk.sectOff + 4096 / 512 = 8 := by simp [disk]
  have hland : land acrossBio zeroes 8 = fun _ => 1 := rfl
  rw [contents_inside hlt, hsector, hland]

theorem disk_whole : Whole disk := ⟨rfl, ⟨16, rfl⟩, by decide⟩

theorem closed_reach : ∃ (w₀ file : World) (next : Backed), Fresh disk zeroes (.created zeroes w₀) ∧
    next.snap.base = land acrossBio zeroes ∧ Reach (step disk ⟨true, some 7⟩) (Proper disk true 7)
      (.active (.created zeroes w₀)) (.closed false true file next) := by
  obtain ⟨w₀, hinit, hstarted, htotal, henv⟩ := Marking.started_disk
  have hfaultless : w₀.env.Faultless := by rw [henv]; exact Cow.Start.calm_faultless
  have hl : Cow.Reopen.Live w₀ := .of_started hstarted
  have hbs : ∀ b ∈ IncTrace.incHandleSset disk ⟨4, 8⟩, b < 4096 * w₀.cm.totalSects := by
    rw [htotal]
    decide
  obtain ⟨_, w₁, hw₁, -⟩ := wp_total (wp_mono (Marking.writeFillers_wp hstarted.wf hbs) (fun _ _ h => h)
    fun _ _ he => he hstarted.filp hfaultless)
  have ht₁ := wp_ok (writeFillers_tame hl hbs) hw₁
  obtain ⟨_, w₂, hw₂, ⟨ht₂, -⟩, -⟩ := wp_total (wp_mono (truncate_tame (ht₁.live hl)) (fun _ _ h => h)
    fun _ _ he => he.2 (by rw [ht₁.env]; exact hfaultless))
  obtain ⟨w₃, hw₃, -⟩ := Cow.Start.cowInit_total (w := Cow.Start.calm) 16 1048576 (w₂.cm.seqid + 1) 0 w₂.cm.uuid
    (by rw [Cow.Start.sectionTotal_eq]; decide) (by decide) (by decide) Cow.Start.calm_faultless
  have hl₂ := ht₂.live (ht₁.live hl)
  obtain ⟨_, w₄, hw₄, -⟩ := wp_total (wp_mono (Cow.Sealing.cowSyncAndFree_wp hl₂.wf (.inl hl₂.filp)) (fun _ _ h => h)
    fun _ _ he => he hl₂.filp (by rw [ht₂.env, ht₁.env]; exact hfaultless))
  have hhandle : step disk ⟨true, some 7⟩ (.tracking (tracked w₀) false) (.inc .handle) =
      some (.tracking ⟨.new, land acrossBio zeroes, w₁, false⟩ false) := by
    simp only [step, Tracker.step, Tracker.incHandleSset, tracked, hw₁, truncates, Bool.false_eq_true, if_false,
      Option.map_some, Bool.or_false]
    rfl
  have htruncate : step disk ⟨true, some 7⟩ (.tracking ⟨.new, land acrossBio zeroes, w₁, false⟩ false) (.inc .truncate) =
      some (.tracking ⟨.new, land acrossBio zeroes, w₂, false⟩ true) := by
    simp only [step, Tracker.step, truncates, leaves, hw₂, Bool.false_eq_true, if_false, Option.map_some, Bool.or_true]
  have hsnap : step disk ⟨true, some 7⟩ (.tracking ⟨.new, land acrossBio zeroes, w₂, false⟩ true)
      (.toSnap 1048576 0 Cow.Start.calm) =
      some (.leaving ⟨.new, land acrossBio zeroes, w₂, false⟩ true (.created (land acrossBio zeroes) w₃)) := by
    have helements : UInt64.ofNat (disk.size / disk.sectorsPerBlock) = 16 := rfl
    simp only [step, tracerActiveIncToSnap, helements, hw₃]
    rfl
  have hfree : step disk ⟨true, some 7⟩
      (.leaving ⟨.new, land acrossBio zeroes, w₂, false⟩ true (.created (land acrossBio zeroes) w₃)) .free =
      some (.closed false true w₄ (.created (land acrossBio zeroes) w₃)) := by
    simp only [step, tracerDestroyCowSyncAndFree, hw₄]
    rfl
  have hreach := ((((tracked_reach w₀).next (by exact trivial) hhandle).next (by exact trivial) htruncate).next
    (by exact rfl) hsnap).next (by exact trivial) hfree
  exact ⟨w₀, w₄, _, ⟨rfl, 1048576, 1, 0, fun _ => 0, Cow.Start.calm, rfl, hinit⟩, rfl, hreach⟩

theorem series_updates_image_example : ∃ (cow : ByteFile) (calls : Calls),
    (UpdateImg.main 12 calls cow (contents disk (land acrossBio zeroes)) fun _ => 0).1 = 0 ∧
    (UpdateImg.main 12 calls cow (contents disk (land acrossBio zeroes)) fun _ => 0).2 4096 = 1 := by
  obtain ⟨w₀, file, next, hfresh, hnext, hreach⟩ := closed_reach
  have hupdate := series_updates_image (fun _ => 0) disk_whole hfresh hreach (allMoved_unhindered _)
  rw [hnext] at hupdate
  have hblock : UpdateImg.InBlock 12 1 4096 := by simp [UpdateImg.InBlock]
  exact ⟨file.file, _, hupdate.1, (hupdate.2.1 1 rfl (fun p _ => contents_zeroes p) 4096 hblock).trans contents_land⟩

/-- One turn of a series: the COW file that a snapshot leaves behind, and the snapshot that follows. -/
structure Turn where
  device : Device
  resident : Bool
  inode : Nat
  file : World
  next : Backed

/-- The same range of a disk, whatever blocks of it the COW file has. -/
structure SameRange (d e : Device) : Prop where
  sectOff : e.sectOff = d.sectOff
  size : e.size = d.size
  sectorsPerBlock : e.sectorsPerBlock = d.sectorsPerBlock

/-- The turns of a series from its first snapshot to its last one, in which no device failed. -/
inductive Turns (d : Device) (first : Backed) : List Turn → Backed → Prop
  | created : Turns d first [] first
  | turn {turns : List Turn} {last : Backed} (t : Turn) (h : Turns d first turns last) (hd : SameRange d t.device)
      (hr : Reach (step t.device ⟨t.resident, some t.inode⟩) (Proper t.device t.resident t.inode) (.active last)
        (.closed false true t.file t.next)) : Turns d first (turns ++ [t]) t.next

/-- The image after a run of the program for the turn. -/
def updated (calls : Turn → Calls) (img : Nat → UInt8) (t : Turn) : Nat → UInt8 :=
  (UpdateImg.main 12 (calls t) t.file.file (contents t.device t.next.snap.base) img).2

variable {turns : List Turn}

theorem SameRange.whole (h : SameRange d e) (hd : Whole d) : Whole e where
  eight := h.sectorsPerBlock.trans hd.eight
  blocks := by rw [h.size]; exact hd.blocks
  fits := by rw [h.size]; exact hd.fits

theorem SameRange.fresh {x : Backed} (h : SameRange d e) : Fresh e b₀ x ↔ Fresh d b₀ x := by
  constructor <;> intro hx
  · refine ⟨hx.snap, ?_⟩
    rw [← h.size, ← h.sectorsPerBlock]
    exact hx.init
  · refine ⟨hx.snap, ?_⟩
    rw [h.size, h.sectorsPerBlock]
    exact hx.init

theorem SameRange.contents (h : SameRange d e) (data : Nat → Sector) :
    Chain.contents e data = Chain.contents d data := by
  ext p
  · simp only [Chain.contents, h.size, h.sectOff]
  · simp only [Chain.contents, h.size]

theorem Turns.fresh (h : Turns d first turns last) (hd : Whole d) (hfresh : Fresh d b₀ first) :
    Fresh d last.snap.base last := by
  induction h with
  | created =>
      rw [hfresh.snap]
      exact hfresh
  | turn t _ hrange hr ih =>
      have hnext := (closed_inv (hrange.whole hd) (hrange.fresh.mpr ih) hr).2
      exact hrange.fresh.mp hnext.fresh

/-- An image that is brought up to date after every turn of a series is one of the last snapshot, in every block
that was no COW file's. -/
theorem turns_update_image {img : Nat → UInt8} (calls : Turn → Calls) (hd : Whole d) (hfresh : Fresh d b₀ first)
    (h : Turns d first turns last) (hcalls : ∀ t ∈ turns, Unhindered (calls t) (tracerElastioSnapInfo t.next))
    (hb : ∀ t ∈ turns, t.device.owned b = false)
    (himg : ∀ p, UpdateImg.InBlock 12 b p → img p = (contents d b₀).bytes p) :
    ∀ p, UpdateImg.InBlock 12 b p → turns.foldl (updated calls) img p = (contents d last.snap.base).bytes p := by
  induction h with
  | created =>
      rw [hfresh.snap]
      exact himg
  | @turn turns last t h hrange hr ih =>
      have hbefore := ih (fun u hu => hcalls u (List.mem_append_left _ hu)) fun u hu => hb u (List.mem_append_left _ hu)
      have hmem : t ∈ turns ++ [t] := List.mem_append_right _ List.mem_cons_self
      have hstart := hrange.fresh.mpr (h.fresh hd hfresh)
      intro p hp
      rw [List.foldl_append, List.foldl_cons, List.foldl_nil, ← hrange.contents]
      obtain ⟨hch, hnext⟩ := closed_inv (hrange.whole hd) hstart hr
      obtain ⟨-, hc⟩ := changes_merge (turns.foldl (updated calls) img) (hrange.whole hd) hstart hch hnext
        (hcalls t hmem)
      exact complete_updates (hrange.whole hd) hstart hch hc (hb t hmem) (by rw [hrange.contents]; exact hbefore) hp

/-- A series of one turn. -/
theorem one_turn : ∃ (first : Backed) (t : Turn), Fresh disk zeroes first ∧ Turns disk first [t] t.next ∧
    t.device = disk ∧ t.next.snap.base = land acrossBio zeroes := by
  obtain ⟨w₀, file, next, hfresh, hnext, hreach⟩ := closed_reach
  exact ⟨_, ⟨disk, true, 7, file, next⟩, hfresh, Turns.created.turn _ ⟨rfl, rfl, rfl⟩ hreach, rfl, hnext⟩

theorem turns_update_image_example : ∃ (t : Turn) (calls : Turn → Calls),
    t.next.snap.base = land acrossBio zeroes ∧ [t].foldl (updated calls) (fun _ => 0) 4096 = 1 := by
  obtain ⟨first, t, hfresh, hturns, hdevice, hnext⟩ := one_turn
  have hblock : UpdateImg.InBlock 12 1 4096 := by simp [UpdateImg.InBlock]
  have himg := turns_update_image (fun t => allMoved (tracerElastioSnapInfo t.next)) disk_whole hfresh hturns
    (fun t _ => allMoved_unhindered _) (fun u hu => by rw [List.mem_singleton.mp hu, hdevice]; rfl)
    (fun p _ => contents_zeroes p) 4096 hblock
  rw [hnext, contents_land] at himg
  exact ⟨t, _, hnext, himg⟩

/-- What the COW file that a turn left behind tells of itself. -/
structure Left (w₀ : World) (i : Nat) (file : World) : Prop where
  magic : (diskHeader file).magic = Cow.Header.cowMagic
  uuid : (diskHeader file).uuid = w₀.cm.uuid
  seqid : (diskHeader file).seqid = w₀.cm.seqid + UInt64.ofNat i
  clean : hasFlag (diskHeader file).flags cowClean = true
  indexOnly : hasFlag (diskHeader file).flags cowIndexOnly = true
  page : 4096 ≤ file.file.size

/-- The sequence ids of a series count its snapshots. -/
theorem Turns.ids (h : Turns d first turns last) (hd : Whole d) (hfresh : Fresh d b₀ first) :
    last.world.cm.uuid = first.world.cm.uuid ∧
      last.world.cm.seqid = first.world.cm.seqid + UInt64.ofNat turns.length ∧
      ∀ i t, turns[i]? = some t → Left first.world i t.file := by
  induction h with
  | created => exact ⟨rfl, (UInt64.add_zero _).symm, fun i t ht => by cases ht⟩
  | @turn turns last t h hrange hr ih =>
      obtain ⟨huuid, hseqid, hleft⟩ := ih
      obtain ⟨hch, hnext⟩ := closed_inv (hrange.whole hd) (hrange.fresh.mpr (h.fresh hd hfresh)) hr
      refine ⟨hnext.uuid.trans huuid, ?_, fun i u hu => ?_⟩
      · rw [hnext.seqid, hseqid, List.length_append, List.length_singleton, UInt64.ofNat_add, UInt64.add_assoc]
        rfl
      · rcases Lib.Table.append_some hu with hu | ⟨hi, rfl⟩
        · exact hleft i u hu
        · have hcut := hch.cut rfl
          rw [hi]
          exact ⟨hch.magic, hch.uuid.trans huuid, hch.seqid.trans hseqid, hch.clean, hcut.1, hch.page⟩

theorem seqid_before_iff (seqid : UInt64) {i n : Nat} (hi : i ≤ n) (hn : n < 2 ^ 64) :
    seqid + UInt64.ofNat i = seqid + UInt64.ofNat n - 1 ↔ i + 1 = n := by
  have hone : (1 : UInt64).toNat = 1 := rfl
  rw [← UInt64.toNat_inj, UInt64.toNat_sub, UInt64.toNat_add, UInt64.toNat_add, UInt64.toNat_ofNat',
    UInt64.toNat_ofNat', hone]
  have hlt := seqid.toNat_lt
  omega

/-- Of the files that the turns of a series left behind, all of which are sealed indexes, the program accepts
for the live snapshot the last one only. -/
theorem accepts_predecessor_iff {calls : Calls} {i : Nat} {t : Turn} (hd : Whole d) (hfresh : Fresh d b₀ first)
    (h : Turns d first turns last) (hlen : turns.length < 2 ^ 64) (hrange : SameRange d e)
    (hlive : Reach (step e ⟨resident, some inode⟩) (Proper e resident inode) (.active last) (.active live))
    (hf : live.snap.fail = false) (ht : turns[i]? = some t)
    (hcalls : Unhindered calls (tracerElastioSnapInfo live)) :
    hasFlag (diskHeader t.file).flags cowClean = true ∧ hasFlag (diskHeader t.file).flags cowIndexOnly = true ∧
      (UpdateImg.verifyFiles calls t.file.file = 0 ↔ i + 1 = turns.length) := by
  obtain ⟨huuid, hseqid, hleft⟩ := h.ids hd hfresh
  have hfile := hleft i t ht
  obtain ⟨u, hheld, -⟩ := inv_reach (hrange.whole hd) (hrange.fresh.mpr (h.fresh hd hfresh)) hlive hf
  have hfixed := hheld.same.serves.fixed
  refine ⟨hfile.clean, hfile.indexOnly, ?_⟩
  have hi := (List.getElem?_eq_some_iff.mp ht).1
  have hids : (Cow.Header.decode t.file.file.bytes).uuid = (tracerElastioSnapInfo live).uuid := by
    have hsame : (diskHeader t.file).uuid = live.world.cm.uuid := by rw [hfile.uuid, hfixed.uuid, huuid]
    exact hsame
  rw [verifyFiles_iff hcalls hfile.page hfile.magic, and_iff_right hids]
  have hown := hfile.seqid
  rw [diskHeader] at hown
  rw [hown, tracerElastioSnapInfo, hfixed.seqid, hseqid]
  exact seqid_before_iff _ hi.le hlen

theorem accepts_predecessor_iff_example : ∃ (t : Turn) (calls : Calls),
    hasFlag (diskHeader t.file).flags cowIndexOnly = true ∧ UpdateImg.verifyFiles calls t.file.file = 0 := by
  obtain ⟨first, t, hfresh, hturns, -, -⟩ := one_turn
  have hlive : t.next.snap.fail = false := by
    rw [(hturns.fresh disk_whole hfresh).snap]
    rfl
  have hreach : Reach (step disk ⟨true, some 7⟩) (Proper disk true 7) (.active t.next) (.active t.next) := .init
  have hfirst : [t][0]? = some t := rfl
  obtain ⟨-, hindex, hiff⟩ := accepts_predecessor_iff disk_whole hfresh hturns (by simp) ⟨rfl, rfl, rfl⟩ hreach hlive
    hfirst (allMoved_unhindered _)
  exact ⟨t, _, hindex, hiff.mpr rfl⟩

end ElastioSnap.Incremental.Chain
