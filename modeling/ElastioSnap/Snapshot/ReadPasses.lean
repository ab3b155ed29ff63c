import ElastioSnap.Snapshot.ReadPath

namespace ElastioSnap.Snapshot.ReadPasses

open ReadPath
open Cow.Manager (sectorSize)

/-- A visited byte: its block, where in the block, and where it belongs. -/
abbrev Visit := Nat × Nat × Dest

/-- Some bytes in a row, from an address and a place on. -/
def range (byte : Nat) (dest : Dest) (n : Nat) : List Visit :=
  (List.range n).map fun k => ((byte + k) / cowBlockSize, (byte + k) % cowBlockSize, dest.add k)

def Round.visits (r : Round) : List Visit :=
  (List.range r.len).map fun k => (r.block, r.blockOff + k, r.dest.add k)

def visits (rs : List Round) : List Visit :=
  rs.flatMap Round.visits

/-- The places of a list of parts, with addresses in a row from one on. -/
def inRow : Nat → List Part → List Visit
  | _, [] => []
  | byte, p :: ps => range byte p.dest p.len ++ inRow (byte + p.len) ps

variable {byte curSect n m i left size bvecDone : Nat} {dest : Dest} {ps : List Part} {segs : List Segment} {r : Round}
  {bio : ReadBio}

theorem range_add : range byte dest (n + m) = range byte dest n ++ range (byte + n) (dest.add n) m := by
  simp only [range, List.range_add, List.map_append, List.map_map, Function.comp_def, Dest.add, Nat.add_assoc]

/-- A round stays inside its block. -/
theorem visits_round (h : byte % cowBlockSize + n ≤ cowBlockSize) :
    Round.visits ⟨byte / cowBlockSize, byte % cowBlockSize, dest, n⟩ = range byte dest n := by
  refine List.map_congr_left fun k hk => ?_
  have hk : k < n := List.mem_range.mp hk
  simp only [cowBlockSize] at h ⊢
  rw [show (byte + k) / 4096 = byte / 4096 by omega, show (byte + k) % 4096 = byte % 4096 + k by omega]

theorem sector_offset : curSect * sectorSize % cowBlockSize % sectorSize = 0 := by
  simp only [sectorSize, cowBlockSize]
  omega

theorem block_rest (hb : n < cowBlockSize) (hs : n % sectorSize = 0) : (cowBlockSize - n) % sectorSize = 0 := by
  simp only [sectorSize, cowBlockSize] at *
  omega

theorem next_sector (h : n % sectorSize = 0) : (curSect + n / sectorSize) * sectorSize = curSect * sectorSize + n := by
  simp only [sectorSize] at *
  omega

theorem sectors_split (hle : n ≤ left) (h : n % sectorSize = 0) :
    curSect + n / sectorSize + (left - n) / sectorSize = curSect + left / sectorSize := by
  simp only [sectorSize] at *
  omega

/-- The rounds of the mode pass over a segment visit its bytes in a row. -/
theorem modeRounds_spec (byte : Nat) (dest : Dest) (left : Nat) : visits (modeRounds byte dest left).1 = range byte dest left ∧
    (modeRounds byte dest left).2 = byte + left := by
  induction byte, dest, left using modeRounds.induct with
  | case1 byte dest left hpos n ih =>
      rw [modeRounds, if_pos hpos]
      have hle : n ≤ left := Nat.min_le_right ..
      have hlt : byte % cowBlockSize < cowBlockSize := Nat.mod_lt _ (by decide)
      have hin : byte % cowBlockSize + n ≤ cowBlockSize := by
        have : n ≤ cowBlockSize - byte % cowBlockSize := Nat.min_le_left ..
        omega
      constructor
      · change Round.visits _ ++ visits _ = _
        rw [visits_round hin, ih.1, ← range_add, Nat.add_sub_of_le hle]
      · change (modeRounds (byte + n) (dest.add n) (left - n)).2 = _
        rw [ih.2]
        omega
  | case2 byte dest left hpos =>
      rw [modeRounds, if_neg hpos]
      cases Nat.eq_zero_of_not_pos hpos
      exact ⟨rfl, rfl⟩

/-- So do those of the overlay. Behind the segment it goes on at a whole sector. -/
theorem overlayRounds_spec (curSect : Nat) (dest : Dest) (left : Nat) :
    visits (overlayRounds curSect dest left).1 = range (curSect * sectorSize) dest left ∧
    (overlayRounds curSect dest left).2 = curSect + left / sectorSize := by
  induction curSect, dest, left using overlayRounds.induct with
  | case1 curSect dest left hpos blockOff n ih =>
      rw [overlayRounds, if_pos hpos]
      have hle : n ≤ left := Nat.min_le_left ..
      have hlt : blockOff < cowBlockSize := Nat.mod_lt _ (by decide)
      have hin : blockOff + n ≤ cowBlockSize := by
        have : n ≤ cowBlockSize - blockOff := Nat.min_le_right ..
        omega
      -- a round that does not end the segment reaches the end of its block
      have hwhole : n = left ∨ n % sectorSize = 0 := by
        by_cases h : left ≤ cowBlockSize - blockOff
        · exact .inl (Nat.min_eq_left h)
        · have hn : n = cowBlockSize - blockOff := Nat.min_eq_right (by omega)
          exact .inr (hn ▸ block_rest hlt sector_offset)
      have hnext : visits (overlayRounds (curSect + n / sectorSize) (dest.add n) (left - n)).1 =
          range (curSect * sectorSize + n) (dest.add n) (left - n) := by
        rcases hwhole with h | h
        · rw [ih.1, h, Nat.sub_self]
          simp only [range, List.range_zero, List.map_nil]
        · rw [ih.1, next_sector h]
      constructor
      · change Round.visits _ ++ visits _ = _
        rw [visits_round hin]
        exact (congrArg _ hnext).trans (by rw [← range_add, Nat.add_sub_of_le hle])
      · change (overlayRounds (curSect + n / sectorSize) (dest.add n) (left - n)).2 = _
        rw [ih.2]
        rcases hwhole with h | h
        · rw [h, Nat.sub_self]
          simp
        · exact sectors_split hle h
  | case2 curSect dest left hpos =>
      rw [overlayRounds, if_neg hpos]
      cases Nat.eq_zero_of_not_pos hpos
      exact ⟨rfl, by simp⟩

theorem visits_append {rs rs' : List Round} : visits (rs ++ rs') = visits rs ++ visits rs' :=
  List.flatMap_append

theorem bioModeRounds_visits : visits (bioModeRounds byte ps) = inRow byte ps := by
  induction ps generalizing byte with
  | nil => rfl
  | cons p ps ih =>
      have h := modeRounds_spec byte p.dest p.len
      rw [bioModeRounds, visits_append, h.1, h.2, ih, inRow]

/-- The places of a list of parts, with addresses that go on at a whole sector behind each part. -/
def bySectors : Nat → List Part → List Visit
  | _, [] => []
  | curSect, p :: ps => range (curSect * sectorSize) p.dest p.len ++ bySectors (curSect + p.len / sectorSize) ps

theorem bioOverlayRounds_visits : visits (bioOverlayRounds curSect ps) = bySectors curSect ps := by
  induction ps generalizing curSect with
  | nil => rfl
  | cons p ps ih =>
      have h := overlayRounds_spec curSect p.dest p.len
      rw [bioOverlayRounds, visits_append, h.1, h.2, ih, bySectors]

@[simp] theorem length_range : (range byte dest n).length = n := by
  simp [range]

/-- The bytes of a segment determine the address they start from. -/
theorem range_inj {byte' : Nat} (hn : 0 < n) (h : range byte dest n = range byte' dest n) : byte = byte' := by
  obtain ⟨k, rfl⟩ := Nat.exists_eq_succ_of_ne_zero (Nat.pos_iff_ne_zero.mp hn)
  simp only [range, List.range_succ_eq_map, List.map_cons, List.cons.injEq, Prod.mk.injEq, Nat.add_zero] at h
  rw [← Nat.div_add_mod byte cowBlockSize, h.1.1, h.1.2.1, Nat.div_add_mod]

/-- Addresses by whole sectors are addresses in a row as long as every segment ends at a whole sector. -/
theorem bySectors_eq_iff : bySectors curSect (forEachSegmentAll i segs) = inRow byte (forEachSegmentAll i segs) ↔
    segs = [] ∨ (curSect * sectorSize = byte ∧ ∀ s ∈ segs.dropLast, sectorSize ∣ s.len) := by
  induction segs generalizing curSect byte i with
  | nil => simp [forEachSegmentAll, bySectors, inRow]
  | cons s rest ih =>
      simp only [forEachSegmentAll, bySectors, inRow, reduceCtorEq, false_or]
      constructor
      · intro h
        obtain ⟨hs, hr⟩ := List.append_inj h (by simp)
        have hb := range_inj s.pos hs
        refine ⟨hb, fun t ht => ?_⟩
        rcases ih.mp hr with rfl | ⟨hnext, hrest⟩
        · cases ht
        · cases rest with
          | nil => cases ht
          | cons u rest =>
              rcases List.mem_cons.mp ht with rfl | ht
              · simp only [sectorSize] at hb hnext ⊢
                omega
              · exact hrest t ht
      · rintro ⟨rfl, hall⟩
        rw [ih.mpr]
        cases rest with
        | nil => exact .inl rfl
        | cons u rest =>
            have hdvd := hall s List.mem_cons_self
            refine .inr ⟨?_, fun t ht => hall t (List.mem_cons_of_mem _ ht)⟩
            simp only [sectorSize] at hdvd ⊢
            omega

/-- All bytes of some segments in their order. -/
def places : Nat → List Segment → List Dest
  | _, [] => []
  | i, s :: rest => (List.range s.len).map (Dest.add ⟨i, s.offset⟩) ++ places (i + 1) rest

/-- The bytes that the iterator of a bio stands for. -/
def ReadBio.places (bio : ReadBio) : List Dest :=
  ((ReadPasses.places bio.idx (bio.segs.drop bio.idx)).drop bio.bvecDone).take bio.size

/-- The range that the sector and the size of a bio describe. -/
def described (bio : ReadBio) : List Visit :=
  (ReadBio.places bio).mapIdx fun k p =>
    ((bio.sector * sectorSize + k) / cowBlockSize, (bio.sector * sectorSize + k) % cowBlockSize, p)

/-- What `snap_read_bio_get_mode` visits if it is not ended early. -/
def modeVisits (bio : ReadBio) : List Visit :=
  visits (bioModeRounds (bio.sector * sectorSize) (forEachSegment bio))

/-- What the loop of `snap_handle_read_bio` visits. -/
def overlayVisits (bio : ReadBio) : List Visit :=
  visits (bioOverlayRounds bio.sector (forEachSegmentAll 0 bio.segs))

def Part.places (p : Part) : List Dest :=
  (List.range p.len).map p.dest.add

theorem length_places : (places i segs).length = total segs := by
  induction segs generalizing i with
  | nil => rfl
  | cons s rest ih => simp [places, ih, total]

theorem dest_add {k : Nat} : (dest.add n).add k = dest.add (n + k) := by
  simp only [Dest.add, Nat.add_assoc]

theorem drop_range {k : Nat} : ((List.range n).map dest.add).drop k = (List.range (n - k)).map (dest.add k).add := by
  refine List.ext_getElem (by simp) fun j _ _ => ?_
  simp [dest_add]

theorem take_range {k : Nat} : ((List.range n).map dest.add).take k = (List.range (min k n)).map dest.add := by
  refine List.ext_getElem (by simp) fun j _ _ => ?_
  simp

/-- The parts that the iterator gives are the bytes it stands for. -/
theorem iterParts_places (hin : size + bvecDone ≤ total segs) (hcur : ∀ s ∈ segs.head?, bvecDone < s.len) :
    (iterParts i segs bvecDone size).flatMap Part.places = ((places i segs).drop bvecDone).take size := by
  induction segs generalizing i bvecDone size with
  | nil => simp [iterParts, places]
  | cons s rest ih =>
      have hlt : bvecDone < s.len := hcur s rfl
      rw [iterParts, places]
      split
      next h0 => simp [h0]
      next hne =>
        simp only [total, List.map_cons, List.sum_cons] at hin
        have hsize : size - min size (s.len - bvecDone) + 0 ≤ total rest := by
          simp only [total]
          omega
        have hrest := ih (i := i + 1) hsize fun u _ => u.pos
        rw [List.flatMap_cons, hrest, List.drop_append_of_le_length (by simp; omega), List.take_append, drop_range,
          take_range, List.drop_zero]
        simp only [Part.places, List.length_map, List.length_range]
        congr 2
        omega

theorem mapIdx_row {f : Nat → Dest → Visit} (hf : f = fun k p => ((byte + k) / cowBlockSize, (byte + k) % cowBlockSize, p)) :
    (ps.flatMap Part.places).mapIdx f = inRow byte ps := by
  subst hf
  induction ps generalizing byte with
  | nil => rfl
  | cons p ps ih =>
      rw [List.flatMap_cons, List.mapIdx_append, inRow, ← ih]
      congr 1
      · refine List.ext_getElem (by simp [Part.places]) fun j _ _ => ?_
        simp [Part.places, range]
      · congr 1
        funext j q
        simp only [Part.places, List.length_map, List.length_range]
        rw [Nat.add_comm j, Nat.add_assoc]

theorem modeVisits_eq : modeVisits bio = described bio := by
  rw [modeVisits, bioModeRounds_visits, described, ReadBio.places, ← iterParts_places bio.inside, mapIdx_row rfl]
  · rfl
  · intro s hs
    refine bio.current s ?_
    rwa [← List.head?_drop]

theorem forEachSegmentAll_len : (forEachSegmentAll i segs).map (·.len) = segs.map (·.len) := by
  induction segs generalizing i with
  | nil => rfl
  | cons s rest ih => rw [forEachSegmentAll, List.map_cons, ih, List.map_cons]

theorem length_bySectors : (bySectors curSect ps).length = (ps.map (·.len)).sum := by
  induction ps generalizing curSect with
  | nil => rfl
  | cons p ps ih => simp [bySectors, ih]

/-- An iterator that goes over all bytes goes over all segments. -/
theorem iterParts_all : iterParts i segs 0 (total segs) = forEachSegmentAll i segs := by
  induction segs generalizing i with
  | nil => rfl
  | cons s rest ih =>
      have hpos := s.pos
      have htotal : total (s :: rest) = s.len + total rest := by simp [total]
      rw [iterParts, if_neg (by omega), forEachSegmentAll, ← ih, Nat.sub_zero, htotal,
        Nat.min_eq_right (Nat.le_add_right ..), Nat.add_sub_cancel_left]
      rfl

theorem total_pos (h : segs ≠ []) : 0 < total segs := by
  obtain ⟨s, rest, rfl⟩ := List.exists_cons_of_ne_nil h
  have := s.pos
  simp only [total, List.map_cons, List.sum_cons]
  omega

/-- Such an iterator has consumed nothing. -/
theorem iterator_start (h : bio.size = total bio.segs) : bio.bvecDone = 0 ∧ (bio.idx = 0 ∨ bio.segs = []) := by
  have hin := bio.inside
  have hsum : total (bio.segs.take bio.idx) + total (bio.segs.drop bio.idx) = total bio.segs := by
    simp only [total]
    rw [← List.sum_append, ← List.map_append, List.take_append_drop]
  have htake : bio.segs.take bio.idx = [] := by
    by_contra hne
    have := total_pos hne
    omega
  exact ⟨by omega, List.take_eq_nil_iff.mp htake⟩

theorem forEachSegment_all (h : bio.size = total bio.segs) : forEachSegment bio = forEachSegmentAll 0 bio.segs := by
  obtain ⟨hdone, hidx | hnil⟩ := iterator_start h
  · rw [forEachSegment, hidx, List.drop_zero, hdone, h, iterParts_all]
  · simp [forEachSegment, hnil, iterParts, forEachSegmentAll]

theorem places_all (h : bio.size = total bio.segs) : ReadBio.places bio = places 0 bio.segs := by
  obtain ⟨hdone, hidx | hnil⟩ := iterator_start h
  · rw [ReadBio.places, hidx, hdone, List.drop_zero, List.drop_zero, h, List.take_of_length_le]
    exact Nat.le_of_eq length_places
  · simp [ReadBio.places, hnil, places]

theorem overlayVisits_eq_iff (h : bio.size = total bio.segs) :
    overlayVisits bio = modeVisits bio ↔ ∀ s ∈ bio.segs.dropLast, sectorSize ∣ s.len := by
  rw [overlayVisits, modeVisits, bioOverlayRounds_visits, bioModeRounds_visits, forEachSegment_all h, bySectors_eq_iff,
    and_iff_right rfl]
  refine or_iff_right_of_imp fun hnil => ?_
  rw [hnil]
  exact fun s hs => (List.not_mem_nil hs).elim

/-- The two passes visit the same bytes, those of the range that the bio describes, exactly when the
iterator stands for all bytes of the segments and each segment but the last ends at a whole sector. -/
theorem passes_agree_iff : (overlayVisits bio = modeVisits bio ∧ modeVisits bio = described bio) ↔
    bio.size = total bio.segs ∧ ∀ s ∈ bio.segs.dropLast, sectorSize ∣ s.len := by
  rw [and_iff_left modeVisits_eq]
  constructor
  · intro h
    have hsize : bio.size = total bio.segs := by
      have hlen := congrArg List.length h
      rw [modeVisits_eq, overlayVisits, bioOverlayRounds_visits, length_bySectors, described, List.length_mapIdx,
        ReadBio.places, List.length_take, List.length_drop, length_places, forEachSegmentAll_len] at hlen
      have hin := bio.inside
      simp only [total] at hin hlen ⊢
      omega
    exact ⟨hsize, (overlayVisits_eq_iff hsize).mp h⟩
  · exact fun ⟨hsize, hall⟩ => (overlayVisits_eq_iff hsize).mpr hall

/-- The second half of a read of two pages, as a split leaves it. -/
def secondHalf : ReadBio where
  sector := 8
  size := 4096
  idx := 1
  bvecDone := 0
  segs := [⟨0, 4096, by decide⟩, ⟨0, 4096, by decide⟩]
  inside := by decide
  current s hs := by
    cases hs
    decide

/-- The overlay starts at the first page, which is not the request's. -/
theorem passes_disagree : ¬ ∀ bio : ReadBio, sectorSize ∣ total bio.segs → sectorSize ∣ bio.size →
    overlayVisits bio = modeVisits bio ∧ modeVisits bio = described bio := by
  intro h
  have hlen := congrArg List.length (h secondHalf (by decide) (by decide)).1
  rw [overlayVisits, bioOverlayRounds_visits, length_bySectors, modeVisits, bioModeRounds_visits] at hlen
  exact absurd hlen (by simp [secondHalf, forEachSegmentAll, forEachSegment, iterParts, inRow])

end ElastioSnap.Snapshot.ReadPasses
