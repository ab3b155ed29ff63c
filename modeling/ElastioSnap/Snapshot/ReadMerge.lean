import ElastioSnap.Snapshot.ReadPasses
import Mathlib.Data.List.Nodup

namespace ElastioSnap.Snapshot.ReadMerge

open Lib.Outcome Tracking CowThread ReadPath ReadPasses
open Cow.Manager (Err sectorSize)

variable {β : Type} {store : Store β} {bio : ReadBio} {s t u : ReadState β} {pages : Pages β} {byte i n m : Nat}
  {dest : Dest} {ps : List Part} {segs : List Segment} {r : Round} {rs : List Round} {vs : List Visit} {v : Visit}
  {src src' : Visit → Option β} {startMode mode : Mode}

/-- The stored content of a visited byte, if its block has a mapping. -/
def fromCow (store : Store β) (v : Visit) : Option β :=
  if store.mapping v.1 ≠ 0 then some (store.cowFile (store.mapping v.1 * cowBlockSize + v.2.1)) else none

def fromBase (store : Store β) (v : Visit) : Option β :=
  some (store.base (v.1 * cowBlockSize + v.2.1))

/-- What a snapshot read is to give for a byte. -/
def merged (store : Store β) (v : Visit) : β :=
  if store.mapping v.1 ≠ 0 then store.cowFile (store.mapping v.1 * cowBlockSize + v.2.1)
  else store.base (v.1 * cowBlockSize + v.2.1)

def setByte (p : Dest) (x : β) (pages : Pages β) : Pages β :=
  memcpy p 1 (fun _ => x) pages

/-- One byte after the other is set, where there is something to set it to. -/
def fill (src : Visit → Option β) (vs : List Visit) (pages : Pages β) : Pages β :=
  vs.foldl (fun pages v => match src v with
    | some x => setByte v.2.2 x pages
    | none => pages) pages

theorem setByte_at {p q : Dest} {x : β} : setByte p x pages q.seg q.offset = if q = p then x else pages q.seg q.offset := by
  simp only [setByte, memcpy]
  by_cases h : q = p
  · subst h
    rw [if_pos ⟨rfl, Nat.le_refl _, Nat.lt_succ_self _⟩, if_pos rfl]
  · rw [if_neg h, if_neg]
    rintro ⟨hs, hlo, hhi⟩
    refine h ?_
    obtain ⟨i, o⟩ := q
    obtain ⟨j, o'⟩ := p
    simp only at hs hlo hhi
    rw [hs, show o = o' by omega]

theorem fill_append {ws : List Visit} : fill src (vs ++ ws) pages = fill src ws (fill src vs pages) :=
  List.foldl_append

theorem fill_none (h : ∀ v ∈ vs, src v = none) : fill src vs pages = pages := by
  induction vs generalizing pages with
  | nil => rfl
  | cons v vs ih =>
      rw [fill, List.foldl_cons, h v List.mem_cons_self]
      exact ih fun w hw => h w (List.mem_cons_of_mem _ hw)

theorem fill_other {p : Dest} (h : ∀ v ∈ vs, v.2.2 ≠ p) : fill src vs pages p.seg p.offset = pages p.seg p.offset := by
  induction vs generalizing pages with
  | nil => rfl
  | cons v vs ih =>
      rw [fill, List.foldl_cons]
      refine (ih fun w hw => h w (List.mem_cons_of_mem _ hw)).trans ?_
      cases src v with
      | none => rfl
      | some x => exact setByte_at.trans (if_neg (h v List.mem_cons_self).symm)

/-- A byte that is visited once has what the visit gives it. -/
theorem fill_at (hn : (vs.map (·.2.2)).Nodup) (hv : v ∈ vs) :
    fill src vs pages v.2.2.seg v.2.2.offset = (src v).getD (pages v.2.2.seg v.2.2.offset) := by
  induction vs generalizing pages with
  | nil => cases hv
  | cons w vs ih =>
      rw [List.map_cons, List.nodup_cons] at hn
      rw [fill, List.foldl_cons]
      rcases List.mem_cons.mp hv with rfl | hv
      · refine (fill_other fun w hw he => hn.1 (List.mem_map.mpr ⟨w, hw, he⟩)).trans ?_
        cases src v with
        | none => rfl
        | some x => exact setByte_at.trans (if_pos rfl)
      · have hne : v.2.2 ≠ w.2.2 := fun he => hn.1 (List.mem_map.mpr ⟨v, hv, he⟩)
        refine (ih hn.2 hv).trans ?_
        congr 1
        cases src w with
        | none => rfl
        | some x => exact setByte_at.trans (if_neg hne)

/-- Copying some bytes is setting one after the other. -/
theorem memcpy_fill {f : Nat → β} {g : Nat → Nat × Nat} (h : ∀ k < n, src ((g k).1, (g k).2, dest.add k) = some (f k)) :
    memcpy dest n f pages = fill src ((List.range n).map fun k => ((g k).1, (g k).2, dest.add k)) pages := by
  induction n with
  | zero =>
      funext i o
      exact if_neg (by omega)
  | succ n ih =>
      rw [List.range_succ, List.map_append, fill_append, ← ih fun k hk => h k (Nat.lt_succ_of_lt hk)]
      simp only [List.map_cons, List.map_nil, fill, List.foldl_cons, List.foldl_nil, h n (Nat.lt_succ_self n)]
      funext i o
      simp only [setByte, memcpy, Dest.add]
      grind

/-- Nothing is put in place. -/
structure Quiet (s t : ReadState β) : Prop where
  pages : t.pages = s.pages
  copies : t.copies = s.copies

/-- Some call can fail. -/
def Faulty (store : Store β) : Prop :=
  ∃ n, store.fault n ≠ none

theorem call_wp : wp (call store) s (fun _ t => Quiet s t) (fun _ t => Quiet s t ∧ Faulty store) := by
  unfold wp call
  cases h : store.fault s.clock with
  | none => exact ⟨rfl, rfl⟩
  | some e => exact ⟨⟨rfl, rfl⟩, _, by rw [h]; exact Option.some_ne_none e⟩

theorem cowReadMapping_wp {block : Nat} : wp (cowReadMapping store block) s
    (fun m t => m = store.mapping block ∧ Quiet s t) (fun _ t => Quiet s t ∧ Faulty store) := by
  rw [cowReadMapping, wp_bind]
  exact wp_mono call_wp (fun _ t h => ⟨rfl, h⟩) fun _ _ h => h

/-- Every copy that was made takes bytes of one block. -/
def Within (s t : ReadState β) : Prop :=
  ∃ new, t.copies = s.copies ++ new ∧ ∀ c ∈ new, c.1 + c.2 ≤ cowBlockSize

theorem Quiet.within (h : Quiet s t) : Within s t :=
  ⟨[], by rw [h.copies, List.append_nil], fun _ hc => (List.not_mem_nil hc).elim⟩

theorem Within.trans (h : Within s t) (h' : Within t u) : Within s u := by
  obtain ⟨new, hnew, hin⟩ := h
  obtain ⟨new', hnew', hin'⟩ := h'
  refine ⟨new ++ new', by rw [hnew', hnew, List.append_assoc], fun c hc => ?_⟩
  rcases List.mem_append.mp hc with hc | hc
  · exact hin c hc
  · exact hin' c hc

theorem Quiet.trans (h : Quiet s t) (h' : Quiet t u) : Quiet s u :=
  ⟨h'.pages.trans h.pages, h'.copies.trans h.copies⟩

theorem getMode_wp : wp (getMode store startMode rs) s
    (fun m t => m = readMode (fun b => store.mapping b != 0) startMode (rs.map (·.block)) ∧ Quiet s t)
    (fun _ t => Quiet s t ∧ Faulty store) := by
  induction rs generalizing startMode s with
  | nil => exact ⟨by rw [List.map_nil, readMode], rfl, rfl⟩
  | cons r rs ih =>
      rw [getMode, wp_bind]
      refine wp_mono cowReadMapping_wp (fun m t h => ?_) fun _ _ h => h
      obtain ⟨rfl, ht⟩ := h
      have next : ∀ mode, wp (getMode store mode rs) t
          (fun m u => m = readMode (fun b => store.mapping b != 0) mode (rs.map (·.block)) ∧ Quiet s u)
          (fun _ u => Quiet s u ∧ Faulty store) :=
        fun mode => wp_mono ih (fun _ _ h => ⟨h.1, ht.trans h.2⟩) fun _ _ h => ⟨ht.trans h.1, h.2⟩
      simp only [List.map_cons, readMode]
      cases startMode <;> cases store.mapping r.block != 0
      case cowFile.false | baseDevice.true => exact ⟨rfl, ht⟩
      all_goals exact next _

theorem kzalloc_wp : wp (kzalloc store) s (fun present t => Quiet s t ∧ (present = false → Faulty store)) fun _ _ => False := by
  refine ⟨⟨rfl, rfl⟩, fun h => ⟨s.clock, fun hn => ?_⟩⟩
  rw [hn] at h
  cases h

theorem cowReadData_wp {dest : Dest} {blockPos blockOff len : Nat} (hoff : blockOff < cowBlockSize)
    (h : blockOff + len ≤ cowBlockSize) : wp (cowReadData store dest blockPos blockOff len) s
      (fun _ t => Within s t ∧ t.pages =
        memcpy dest len (fun p => store.cowFile (blockPos * cowBlockSize + (blockOff + p))) s.pages)
      (fun _ t => Within s t ∧ Faulty store) := by
  have hcopy : ∀ {t : ReadState β}, t.copies = s.copies ++ [(blockOff, len)] → Within s t := fun ht =>
    ⟨_, ht, fun c hc => by rw [List.mem_singleton.mp hc]; exact h⟩
  simp only [cowReadData, wp_bind, wp_modify]
  refine wp_mono kzalloc_wp (fun present t ht => ?_) fun _ _ h => h.elim
  simp only [wp_ite, wp_throw, if_neg (Nat.not_le.mpr hoff)]
  split
  next hp => exact ⟨hcopy ht.1.copies, ht.2 hp⟩
  next =>
    rw [wp_bind]
    refine wp_mono call_wp (fun _ u hu => ⟨hcopy (hu.copies.trans ht.1.copies), ?_⟩) fun _ u hu =>
      ⟨hcopy (hu.1.copies.trans ht.1.copies), hu.2⟩
    dsimp only
    rw [hu.pages, ht.1.pages]

/-- The rounds stay inside their blocks. -/
def Fits (rs : List Round) : Prop :=
  ∀ r ∈ rs, r.blockOff < cowBlockSize ∧ r.blockOff + r.len ≤ cowBlockSize

/-- The overlay sets the bytes whose blocks have mappings. -/
theorem overlayCow_wp (h : Fits rs) : wp (overlayCow store rs) s
    (fun _ t => Within s t ∧ t.pages = fill (fromCow store) (visits rs) s.pages)
    (fun _ t => Within s t ∧ Faulty store) := by
  induction rs generalizing s with
  | nil => exact ⟨Quiet.within ⟨rfl, rfl⟩, rfl⟩
  | cons r rs ih =>
      have hrest : Fits rs := fun r' hr => h r' (List.mem_cons_of_mem _ hr)
      obtain ⟨hoff, hlen⟩ := h r List.mem_cons_self
      rw [overlayCow, wp_bind]
      refine wp_mono cowReadMapping_wp (fun m t ht => ?_) fun _ _ h => ⟨h.1.within, h.2⟩
      obtain ⟨rfl, ht⟩ := ht
      rw [wp_bind, wp_ite]
      have done : ∀ {u : ReadState β}, Within s u → u.pages = fill (fromCow store) (Round.visits r) s.pages →
          wp (overlayCow store rs) u
            (fun _ t => Within s t ∧ t.pages = fill (fromCow store) (visits (r :: rs)) s.pages)
            (fun _ t => Within s t ∧ Faulty store) := by
        intro u hu hp
        refine wp_mono (ih hrest) (fun _ t ht => ⟨hu.trans ht.1, ?_⟩) fun _ t ht => ⟨hu.trans ht.1, ht.2⟩
        rw [ht.2, hp, ← fill_append]
        rfl
      split
      next hm =>
        refine wp_mono (cowReadData_wp hoff hlen) (fun _ u hu => ?_) fun _ u hu => ⟨ht.within.trans hu.1, hu.2⟩
        refine done (ht.within.trans hu.1) ?_
        rw [hu.2, ht.pages]
        exact memcpy_fill (g := fun k => (r.block, r.blockOff + k)) fun k _ => if_pos hm
      next hm =>
        refine done ht.within ?_
        rw [ht.pages, fill_none]
        intro v hv
        obtain ⟨k, _, rfl⟩ := List.mem_map.mp hv
        exact if_neg hm

theorem readParts_fill : readParts store.base byte ps pages = fill (fromBase store) (inRow byte ps) pages := by
  induction ps generalizing byte pages with
  | nil => rfl
  | cons p ps ih =>
      rw [readParts, ih, inRow, fill_append]
      congr 1
      refine memcpy_fill (g := fun k => ((byte + k) / cowBlockSize, (byte + k) % cowBlockSize)) fun k _ => ?_
      simp only [fromBase, Nat.div_add_mod']

theorem submitBioWait_wp : wp (submitBioWait store bio) s
    (fun _ t => t.pages = fill (fromBase store) (modeVisits bio) s.pages ∧ Within s t)
    (fun _ t => Within s t ∧ Faulty store) := by
  rw [submitBioWait, wp_bind]
  refine wp_mono call_wp (fun _ t ht => ?_) fun _ _ h => ⟨h.1.within, h.2⟩
  rw [wp_modify]
  refine ⟨?_, ht.within⟩
  rw [modeVisits, bioModeRounds_visits, ← ht.pages, readParts_fill]

theorem overlayRounds_fits {curSect left : Nat} : Fits (overlayRounds curSect dest left).1 := by
  induction curSect, dest, left using overlayRounds.induct with
  | case1 curSect dest left hpos blockOff n ih =>
      rw [overlayRounds, if_pos hpos]
      have hlt : blockOff < cowBlockSize := Nat.mod_lt _ (by decide)
      have hn : n ≤ cowBlockSize - blockOff := Nat.min_le_right ..
      intro r hr
      rcases List.mem_cons.mp hr with rfl | hr
      · refine ⟨hlt, ?_⟩
        change blockOff + n ≤ cowBlockSize
        omega
      · exact ih r hr
  | case2 curSect dest left hpos =>
      rw [overlayRounds, if_neg hpos]
      exact fun r hr => (List.not_mem_nil hr).elim

theorem bioOverlayRounds_fits {curSect : Nat} : Fits (bioOverlayRounds curSect ps) := by
  induction ps generalizing curSect with
  | nil => exact fun r hr => (List.not_mem_nil hr).elim
  | cons p ps ih =>
      intro r hr
      rcases List.mem_append.mp hr with hr | hr
      · exact overlayRounds_fits r hr
      · exact ih r hr

theorem places_from : ∀ p ∈ places i segs, i ≤ p.seg := by
  induction segs generalizing i with
  | nil => exact fun p hp => (List.not_mem_nil hp).elim
  | cons s rest ih =>
      intro p hp
      rcases List.mem_append.mp hp with hp | hp
      · obtain ⟨k, _, rfl⟩ := List.mem_map.mp hp
        exact Nat.le_refl i
      · exact Nat.le_of_succ_le (ih p hp)

theorem places_nodup : (places i segs).Nodup := by
  induction segs generalizing i with
  | nil => exact .nil
  | cons s rest ih =>
      refine List.nodup_append.mpr ⟨?_, ih, fun p hp q hq he => ?_⟩
      · refine List.Nodup.map (fun a b hab => ?_) List.nodup_range
        have := congrArg Dest.offset hab
        simp only [Dest.add] at this
        omega
      · obtain ⟨k, _, rfl⟩ := List.mem_map.mp hp
        have hi := places_from q hq
        rw [← he] at hi
        exact Nat.not_succ_le_self i hi

theorem described_places : (described bio).map (·.2.2) = ReadBio.places bio := by
  refine List.ext_getElem (by simp [described]) fun k _ _ => ?_
  simp [described]

theorem described_nodup (h : bio.size = total bio.segs) : ((described bio).map (·.2.2)).Nodup := by
  rw [described_places, places_all h]
  exact places_nodup

/-- The mode pass looks at the block of every byte. -/
theorem visit_block (hv : v ∈ visits rs) : v.1 ∈ rs.map (·.block) := by
  obtain ⟨r, hr, hv⟩ := List.mem_flatMap.mp hv
  obtain ⟨k, _, rfl⟩ := List.mem_map.mp hv
  exact List.mem_map_of_mem hr

/-- What a mode is right for. -/
def Suits (store : Store β) (bio : ReadBio) (mode : Mode) : Prop :=
  (mode = .cowFile → ∀ v ∈ described bio, store.mapping v.1 ≠ 0) ∧
    (mode = .baseDevice → ∀ v ∈ described bio, store.mapping v.1 = 0)

theorem snapReadBioGetMode_wp : wp (snapReadBioGetMode store bio) s (fun m t => Suits store bio m ∧ Quiet s t)
    (fun _ t => Quiet s t ∧ Faulty store) := by
  refine wp_mono getMode_wp (fun m t h => ⟨?_, h.2⟩) fun _ _ h => h
  obtain ⟨rfl, -⟩ := h
  have hfast := readMode_fast (fun b => store.mapping b != 0)
    ((bioModeRounds (bio.sector * sectorSize) (forEachSegment bio)).map (·.block))
  constructor
  · intro hm v hv
    rw [← modeVisits_eq] at hv
    simpa using hfast.1 hm v.1 (visit_block hv)
  · intro hm v hv
    rw [← modeVisits_eq] at hv
    simpa using hfast.2 hm v.1 (visit_block hv)

/-- Whatever suitable mode is taken, every byte gets what is to be merged for it. -/
theorem readWith_wp (hsize : bio.size = total bio.segs) (hlen : ∀ s ∈ bio.segs, sectorSize ∣ s.len)
    (hmode : Suits store bio mode) : wp (readWith store bio mode) s
      (fun _ t => (∀ v ∈ described bio, t.pages v.2.2.seg v.2.2.offset = merged store v) ∧ Within s t)
      (fun _ t => Within s t ∧ Faulty store) := by
  have hnodup := described_nodup hsize
  have hover : visits (bioOverlayRounds bio.sector (forEachSegmentAll 0 bio.segs)) = described bio := by
    rw [← modeVisits_eq]
    exact (overlayVisits_eq_iff hsize).mpr fun s hs => hlen s (List.dropLast_subset _ hs)
  have hoverlay : ∀ {t : ReadState β}, wp (overlayCow store (bioOverlayRounds bio.sector (forEachSegmentAll 0 bio.segs))) t
      (fun _ u => Within t u ∧ u.pages = fill (fromCow store) (described bio) t.pages)
      (fun _ u => Within t u ∧ Faulty store) := by
    intro t
    rw [← hover]
    exact overlayCow_wp bioOverlayRounds_fits
  rw [readWith, wp_bind, wp_ite]
  split
  next hcow =>
    refine wp_mono submitBioWait_wp (fun _ t ht => ?_) fun _ _ h => h
    obtain ⟨hbase, hwithin⟩ := ht
    rw [modeVisits_eq] at hbase
    rw [wp_ite]
    split
    next hdev =>
      refine wp_mono hoverlay (fun _ u hu => ⟨fun v hv => ?_, hwithin.trans hu.1⟩) fun _ u hu =>
        ⟨hwithin.trans hu.1, hu.2⟩
      rw [hu.2, fill_at hnodup hv, hbase, fill_at hnodup hv]
      simp only [fromCow, fromBase, merged]
      split <;> rfl
    next hdev =>
      refine ⟨fun v hv => ?_, hwithin⟩
      rw [hbase, fill_at hnodup hv, merged, hmode.2 (not_not.mp hdev) v hv]
      rfl
  next hcow =>
    have hc : mode = .cowFile := not_not.mp hcow
    rw [wp_pure, wp_ite, if_pos (by rw [hc]; decide)]
    refine wp_mono hoverlay (fun _ u hu => ⟨fun v hv => ?_, hu.1⟩) fun _ u hu => hu
    have hm := hmode.1 hc v hv
    rw [hu.2, fill_at hnodup hv, merged, fromCow, if_pos hm, if_pos hm]
    rfl

/-- A snapshot read that succeeds has filled each byte of the bio from the COW file if the block of the
byte has a mapping, and from the base device if not. The mode MIXED would have given the same, and all
copies from the COW file stay within a block, also where the read fails, which takes a call that fails. -/
theorem read_merges (hsize : bio.size = total bio.segs) (hlen : ∀ s ∈ bio.segs, sectorSize ∣ s.len) :
    (described bio).map (·.2.2) = places 0 bio.segs ∧
    wp (snapHandleReadBio store bio) s
      (fun _ t => (∀ v ∈ described bio, t.pages v.2.2.seg v.2.2.offset = merged store v) ∧ Within s t ∧
        ∀ u u', readWith store bio .mixed u = .ok () u' → ∀ v ∈ described bio,
          u'.pages v.2.2.seg v.2.2.offset = t.pages v.2.2.seg v.2.2.offset)
      (fun _ t => Within s t ∧ Faulty store) := by
  refine ⟨described_places.trans (places_all hsize), ?_⟩
  rw [snapHandleReadBio, wp_bind]
  refine wp_mono snapReadBioGetMode_wp (fun m t ht => ?_) fun _ _ h => ⟨h.1.within, h.2⟩
  obtain ⟨hm, ht⟩ := ht
  refine wp_mono (readWith_wp hsize hlen hm) (fun _ t' ht' => ⟨ht'.1, ht.within.trans ht'.2, ?_⟩)
    fun _ _ h => ⟨ht.within.trans h.1, h.2⟩
  intro u u' hu v hv
  have hmixed : Suits store bio .mixed := ⟨nofun, nofun⟩
  rw [(wp_ok (readWith_wp hsize hlen hmixed) hu).1 v hv, ht'.1 v hv]

/-- The first block is stored at position 5 of the COW file and every call succeeds. -/
def firstStored : Store Nat where
  mapping b := if b = 0 then 5 else 0
  cowFile := id
  base _ := 0
  fault _ := none

/-- Two segments over the end of the first block. -/
def acrossBlocks : ReadBio where
  sector := 7
  size := 1024
  idx := 0
  bvecDone := 0
  segs := [⟨100, 512, by decide⟩, ⟨0, 512, by decide⟩]
  inside := by decide
  current s hs := by
    cases hs
    decide

theorem read_merges_across : ∃ t, snapHandleReadBio firstStored acrossBlocks ⟨0, fun _ _ => 1, []⟩ = .ok () t ∧
    ∀ v ∈ described acrossBlocks, t.pages v.2.2.seg v.2.2.offset = merged firstStored v := by
  have h := (@read_merges _ firstStored acrossBlocks ⟨0, fun _ _ => 1, []⟩ rfl (by decide)).2
  obtain ⟨_, t, ht, hread, _⟩ := wp_total (wp_mono h (fun _ _ h => h) fun _ _ h => h.2.elim fun n hn => hn rfl)
  exact ⟨t, ht, hread⟩

end ElastioSnap.Snapshot.ReadMerge
