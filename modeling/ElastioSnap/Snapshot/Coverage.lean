import ElastioSnap.Snapshot.Machine
import ElastioSnap.Snapshot.Blocks

namespace ElastioSnap.Snapshot.Coverage

open Queue Tracking TraceBio Blocks
open Machine (disk)

section

variable {β : Type} (d : Device) (room : Nat → Nat) (base : Nat → β)

def sectorSize : Nat := 512

/-- A page of the driver holds one block. -/
def pageSize : Nat :=
  sectorSize * d.sectorsPerBlock

/-- The pages that `bio_add_page` takes of those it is offered, when the bio has room for some. -/
def addPages : Nat → Nat → Nat
  | 0, _ => 0
  | _ + 1, 0 => 0
  | n + 1, r + 1 => addPages n r + 1

def makeReadClone (i : Nat) (w : Write) : Clone β where
  addr := i
  tp := 0
  sect := w.startSect
  pages := addPages (min w.pages bioMaxPages) (room i)
  stage := .completed
  left := 0
  data := base

/-- The retry loop of `snap_trace_bio`, with the clones that it submits. The i-th bio has room for
`room i` pages. -/
def retryLoop : Nat → Nat → Write → Option (List (Clone β))
  | 0, _, _ => none
  | fuel + 1, i, w =>
      let c := makeReadClone room base i w
      if c.pages < w.pages then (retryLoop fuel (i + 1) (advance d w c)).map (c :: ·)
      else some [c]

def traceClones (fuel sector sectors : Nat) : Option (List (Clone β)) :=
  retryLoop d room base fuel 0 (newWrite d sector sectors)

structure Segment (β : Type) where
  bvLen : Nat
  page : Nat → β

/-- The pages of a clone, from the first sector of each. -/
def segments (c : Clone β) : List (Segment β) :=
  (List.range c.pages).map fun p => ⟨pageSize d, fun o => c.data (c.sect + d.sectorsPerBlock * p + o)⟩

/-- The loop of `snap_handle_write_bio`, with what it passes to `cow_write_current`. -/
def handleSegments : Nat → List (Segment β) → List (Nat × (Nat → β))
  | _, [] => []
  | endBlock, s :: rest =>
      (List.range' endBlock (s.bvLen / pageSize d)).map (fun b => (b, s.page)) ++
        handleSegments (endBlock + s.bvLen / pageSize d) rest

/-- A completed clone, with its own sector. -/
def handleClone (c : Clone β) : List (Nat × (Nat → β)) :=
  handleSegments d ((c.sect - d.sectOff) / d.sectorsPerBlock) (segments d c)

/-- A block with what the base device holds in it. -/
def held (b : Nat) : Nat × (Nat → β) :=
  (b, fun o => base (d.sector b o))

/-- Clones that cover some blocks one after the other. -/
def Tiles (d : Device) (base : Nat → β) : Nat → Nat → List (Clone β) → Prop
  | _, p, [] => p = 0
  | m, p, c :: cs => c.sect = d.sector m 0 ∧ 0 < c.pages ∧ c.pages ≤ min p bioMaxPages ∧ c.data = base ∧
      Tiles d base (m + c.pages) (p - c.pages) cs

end

variable {β : Type} {d : Device} {room : Nat → Nat} {base : Nat → β} {w : Write} {c : Clone β} {cs : List (Clone β)}
  {i m p n r b t sector sectors : Nat}

theorem pageSize_pos : 0 < pageSize d :=
  Nat.mul_pos (by decide) d.pos

theorem addPages_eq : addPages n r = min n r := by
  induction n generalizing r with
  | zero => simp only [addPages, Nat.zero_min]
  | succ n ih =>
      cases r with
      | zero => simp only [addPages, Nat.min_zero]
      | succ r => rw [addPages, ih, Nat.succ_min_succ]

/-- Every round of the loop that does not end it leaves fewer pages. -/
theorem retryLoop_tiles (hroom : ∀ i, 0 < room i) (hs : w.startSect = d.sector b 0) (hp : 0 < w.pages) :
    ∃ cs, (∀ fuel, w.pages ≤ fuel → retryLoop d room base fuel i w = some cs) ∧ Tiles d base b w.pages cs := by
  induction hn : w.pages using Nat.strongRecOn generalizing w b i with
  | ind p ih =>
      subst hn
      have hpos : 0 < bioMaxPages := by decide
      have hr := hroom i
      have hpages : (makeReadClone room base i w).pages = min (min w.pages bioMaxPages) (room i) := addPages_eq
      have hone : 0 < (makeReadClone room base i w).pages := by omega
      have hle : (makeReadClone room base i w).pages ≤ min w.pages bioMaxPages := by omega
      by_cases hlt : (makeReadClone room base i w).pages < w.pages
      · have hadv : advance d w (makeReadClone room base i w) = { w with
            pc := .makeClone
            startSect := w.startSect + d.sectorsPerBlock * (makeReadClone room base i w).pages
            pages := w.pages - (makeReadClone room base i w).pages } := if_pos hlt
        obtain ⟨cs, hcs, ht⟩ := ih (w.pages - (makeReadClone room base i w).pages) (by omega)
          (w := advance d w (makeReadClone room base i w)) (b := b + (makeReadClone room base i w).pages) (i := i + 1)
          (by rw [hadv, hs, sector_add]) (by rw [hadv]; exact Nat.sub_pos_of_lt hlt) (by rw [hadv])
        refine ⟨makeReadClone room base i w :: cs, fun fuel hf => ?_, hs, hone, hle, rfl, ht⟩
        obtain ⟨f, rfl⟩ := Nat.exists_eq_succ_of_ne_zero (show fuel ≠ 0 by omega)
        simp only [retryLoop, hlt, if_true]
        rw [hcs f (by omega)]
        rfl
      · have heq : (makeReadClone room base i w).pages = w.pages := by omega
        refine ⟨[makeReadClone room base i w], fun fuel hf => ?_, hs, hone, hle, rfl, ?_⟩
        · obtain ⟨f, rfl⟩ := Nat.exists_eq_succ_of_ne_zero (show fuel ≠ 0 by omega)
          simp only [retryLoop, hlt, if_false]
        · rw [heq]
          exact Nat.sub_self _

/-- The clones cover the blocks, each from where the one before it ends. -/
theorem Tiles.covers (h : Tiles d base m p cs) :
    ∀ t, (∃ c ∈ cs, c.sect ≤ t ∧ t < c.sect + d.sectorsPerBlock * c.pages) ↔ d.sector m 0 ≤ t ∧ t < d.sector (m + p) 0 := by
  induction cs generalizing m p with
  | nil =>
      cases h
      intro t
      constructor
      · rintro ⟨c, hc, _⟩
        cases hc
      · rintro ⟨hlo, hhi⟩
        rw [Nat.add_zero] at hhi
        omega
  | cons c cs ih =>
      obtain ⟨hs, hpos, hle, _, ht⟩ := h
      intro t
      have hrest := ih ht t
      rw [show m + c.pages + (p - c.pages) = m + p by omega] at hrest
      have hlast : d.sector (m + c.pages) 0 ≤ d.sector (m + p) 0 := sector_le_iff.mpr (by omega)
      have hfirst : d.sector m 0 ≤ d.sector (m + c.pages) 0 := sector_le_iff.mpr (by omega)
      simp only [List.mem_cons, exists_eq_or_imp, hrest]
      rw [hs, sector_add]
      omega

theorem Tiles.le_sect (h : Tiles d base m p cs) : ∀ c ∈ cs, d.sector m 0 ≤ c.sect := by
  induction cs generalizing m p with
  | nil => exact fun c hc => (List.not_mem_nil hc).elim
  | cons c cs ih =>
      obtain ⟨hs, hpos, hle, _, ht⟩ := h
      intro c' hc
      rcases List.mem_cons.mp hc with rfl | hc
      · exact Nat.le_of_eq hs.symm
      · exact Nat.le_trans (sector_le_iff.mpr (by omega)) (ih ht c' hc)

theorem Tiles.disjoint (h : Tiles d base m p cs) :
    cs.Pairwise fun c c' => c.sect + d.sectorsPerBlock * c.pages ≤ c'.sect := by
  induction cs generalizing m p with
  | nil => exact .nil
  | cons c cs ih =>
      obtain ⟨hs, hpos, hle, _, ht⟩ := h
      refine List.pairwise_cons.mpr ⟨fun c' hc => ?_, ih ht⟩
      rw [hs, sector_add]
      exact ht.le_sect c' hc

/-- The pages of a clone go to the blocks from its own one on. -/
theorem handleSegments_eq {f : Nat → Nat → β} : handleSegments d b
    ((List.range' m n).map fun p => ⟨pageSize d, f p⟩) = (List.range n).map fun k => (b + k, f (m + k)) := by
  induction n generalizing b m with
  | zero => rfl
  | succ n ih =>
      rw [List.range'_succ, List.map_cons, handleSegments, Nat.div_self pageSize_pos, ih, List.range_succ_eq_map,
        List.map_cons, List.map_map]
      refine congrArg (List.cons _) (List.map_congr_left fun k _ => ?_)
      simp only [Function.comp_apply, Nat.add_assoc, Nat.add_comm 1 k]

theorem handleClone_eq (hs : c.sect = d.sector m 0) (hd : c.data = base) :
    handleClone d c = (List.range' m c.pages).map (held d base) := by
  have hblock : (c.sect - d.sectOff) / d.sectorsPerBlock = m := by
    rw [hs]
    exact block_sector d.pos
  rw [handleClone, segments, hblock, List.range_eq_range', handleSegments_eq, List.range'_eq_map_range, List.map_map]
  refine List.map_congr_left fun k _ => ?_
  simp only [Function.comp_apply, held, hs, hd, sector_add, Nat.zero_add]
  rfl

theorem Tiles.handled (h : Tiles d base m p cs) :
    cs.flatMap (handleClone d) = (List.range' m p).map (held d base) := by
  induction cs generalizing m p with
  | nil =>
      cases h
      rfl
  | cons c cs ih =>
      obtain ⟨hs, hpos, hle, hd, ht⟩ := h
      rw [List.flatMap_cons, handleClone_eq hs hd, ih ht, ← List.map_append, List.range'_append_1]
      congr 2
      omega

theorem newWrite_pages (sectors : Nat) (ho : d.sectOff ≤ sector) :
    d.sector ((sector - d.sectOff) / d.sectorsPerBlock + (newWrite d sector sectors).pages) 0 = endSect d sector sectors := by
  rw [← sector_add, ← startSect_eq]
  exact pages_total ho

/-- The blocks between the rounded ends of a bio are those that it overlaps. -/
theorem overlaps_iff (ho : d.sectOff ≤ sector) (hn : 0 < sectors) : d.Overlaps sector sectors b ↔
    (sector - d.sectOff) / d.sectorsPerBlock ≤ b ∧
      b < (sector - d.sectOff) / d.sectorsPerBlock + (newWrite d sector sectors).pages := by
  have hend := newWrite_pages sectors ho
  have hpos := d.pos
  constructor
  · intro h
    obtain ⟨hlo, hhi⟩ := overlaps_between ho h
    rw [startSect_eq, sector_le_iff] at hlo
    rw [← hend, sector_succ, sector_le_iff] at hhi
    omega
  · rintro ⟨hlo, hhi⟩
    have hle : b + 1 ≤ (sector + sectors - d.sectOff + d.sectorsPerBlock - 1) / d.sectorsPerBlock := by
      rw [endSect_eq] at hend
      exact Nat.le_trans hhi (sector_le_iff.mp (Nat.le_of_eq hend))
    rw [Nat.le_div_iff_mul_le hpos, Nat.succ_mul, Nat.mul_comm] at hle
    rcases Nat.le_total sector (d.sector b 0) with hb | hb
    · refine ⟨d.sector b 0, hb, ?_, block_sector hpos⟩
      simp only [Device.sector] at hb ⊢
      omega
    · refine ⟨sector, Nat.le_refl _, by omega, Nat.le_antisymm hlo ?_⟩
      rw [Device.block, Nat.le_div_iff_mul_le hpos, Nat.mul_comm]
      simp only [Device.sector] at hb
      omega

theorem Tiles.chain (h : Tiles d base m p cs) : cs.IsChain fun c c' => c'.sect = c.sect + d.sectorsPerBlock * c.pages := by
  induction cs generalizing m p with
  | nil => exact .nil
  | cons c cs ih =>
      obtain ⟨hs, _, _, _, ht⟩ := h
      cases cs with
      | nil => exact .singleton c
      | cons c' cs =>
          refine List.isChain_cons_cons.mpr ⟨?_, ih ht⟩
          rw [ht.1, hs, sector_add]

theorem Tiles.pages (h : Tiles d base m p cs) : ∀ c ∈ cs, 0 < c.pages ∧ c.pages ≤ bioMaxPages := by
  induction cs generalizing m p with
  | nil => exact fun c hc => (List.not_mem_nil hc).elim
  | cons c cs ih =>
      obtain ⟨_, hpos, hle, _, ht⟩ := h
      intro c' hc
      rcases List.mem_cons.mp hc with rfl | hc
      · exact ⟨hpos, Nat.le_trans hle (Nat.min_le_right ..)⟩
      · exact ih ht c' hc

/-- A sector lies between two block bounds when its block does. -/
theorem between_iff : d.sector m 0 ≤ t ∧ t < d.sector (m + p) 0 ↔
    d.sectOff ≤ t ∧ m ≤ d.block t ∧ d.block t < m + p := by
  have hpos := d.pos
  simp only [Device.sector, Device.block, Nat.add_zero, Nat.le_div_iff_mul_le hpos, Nat.div_lt_iff_lt_mul hpos,
    Nat.mul_comm _ d.sectorsPerBlock]
  omega

/-- For every sequence of capacities the retry loop ends. Its clones cover disjoint ranges one after
the other, together the blocks that the bio overlaps, and `snap_handle_write_bio` on all of them passes
each of these blocks once, with what was read from it. -/
theorem clones_cover_exactly (hroom : ∀ i, 0 < room i) (ho : d.sectOff ≤ sector) (hn : 0 < sectors) :
    ∃ cs, (∃ n, ∀ fuel, n ≤ fuel → traceClones d room base fuel sector sectors = some cs) ∧
      (∀ c ∈ cs, 0 < c.pages ∧ c.pages ≤ bioMaxPages) ∧
      cs.IsChain (fun c c' => c'.sect = c.sect + d.sectorsPerBlock * c.pages) ∧
      cs.Pairwise (fun c c' => c.sect + d.sectorsPerBlock * c.pages ≤ c'.sect) ∧
      (∀ t, (∃ c ∈ cs, c.sect ≤ t ∧ t < c.sect + d.sectorsPerBlock * c.pages) ↔
        d.sectOff ≤ t ∧ d.Overlaps sector sectors (d.block t)) ∧
      (cs.flatMap (handleClone d)).Pairwise (fun x y => x.1 < y.1) ∧
      ∀ b page, (b, page) ∈ cs.flatMap (handleClone d) ↔
        d.Overlaps sector sectors b ∧ page = fun o => base (d.sector b o) := by
  have hover : ∀ b, d.Overlaps sector sectors b ↔ (sector - d.sectOff) / d.sectorsPerBlock ≤ b ∧
      b < (sector - d.sectOff) / d.sectorsPerBlock + (newWrite d sector sectors).pages := fun b => overlaps_iff ho hn
  have hp : 0 < (newWrite d sector sectors).pages := by
    have := (hover (d.block sector)).mp ⟨sector, Nat.le_refl _, by omega, rfl⟩
    simp only [Device.block] at this
    omega
  obtain ⟨cs, hcs, ht⟩ := retryLoop_tiles (i := 0) hroom startSect_eq hp
  refine ⟨cs, ⟨_, hcs⟩, ht.pages, ht.chain, ht.disjoint, fun t => ?_, ?_, fun b page => ?_⟩
  · rw [ht.covers t, between_iff, hover]
  · rw [ht.handled, List.pairwise_map]
    exact List.pairwise_lt_range'
  · rw [ht.handled, hover]
    simp only [List.mem_map, List.mem_range'_1, held, Prod.mk.injEq]
    constructor
    · rintro ⟨b', hb', rfl, rfl⟩
      exact ⟨hb', rfl⟩
    · rintro ⟨hb, rfl⟩
      exact ⟨b, hb, rfl, rfl⟩

/-- Two blocks, of which each clone holds one. -/
theorem clones_cover_two_blocks : ∃ cs, (∃ n, ∀ fuel, n ≤ fuel →
      traceClones disk (fun _ => 1) (fun t => t) fuel 3 10 = some cs) ∧
    ∀ b page, (b, page) ∈ cs.flatMap (handleClone disk) ↔ disk.Overlaps 3 10 b ∧ page = fun o => disk.sector b o := by
  obtain ⟨cs, hcs, _, _, _, _, _, hpages⟩ := @clones_cover_exactly _ disk (fun _ => 1) (fun t => t) 3 10
    (fun _ => Nat.one_pos) (by decide) (by decide)
  exact ⟨cs, hcs, hpages⟩

end ElastioSnap.Snapshot.Coverage
