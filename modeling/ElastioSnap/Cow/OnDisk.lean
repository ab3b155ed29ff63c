import ElastioSnap.Cow.Protocol
import ElastioSnap.Cow.Reload

namespace ElastioSnap.Cow.OnDisk

open Lib.Bytes Lib.Outcome Lib.Flags Manager FileIo Section Header Lifecycle Sealing Data Reopen Footprint Protocol

variable {v w w' : World}

/-- The file of `w` has what the manager `v` knows: its nonzero entries in the index, and its blocks. -/
structure Shows (v w : World) : Prop where
  index : ∀ pos, pos < 4096 * v.cm.totalSects → indexAt v pos ≠ 0 → diskWord w pos = indexAt v pos
  data : ∀ p, v.cm.dataOffset ≤ p → p < v.cm.currPos.toNat * 4096 → w.file.bytes p = v.file.bytes p

/-- What a manager knows is on disk unless the file says that it was not closed. -/
def Safe (v w : World) : Prop := Unclean w.file ∨ Shows v w

/-- Nothing behind the header has changed. -/
def SameBody (w w' : World) : Prop := ∀ p, 4096 ≤ p → w'.file.bytes p = w.file.bytes p

theorem sameBody_of_file (h : w'.file = w.file) : SameBody w w' := fun p _ => by rw [h]

/-- The header and the index lie below the data. -/
theorem live_above (hl : Live v) : 4096 ≤ v.cm.dataOffset := by
  rw [hl.wf.dataOffset]
  omega

theorem live_ready (hl : Live v) : Ready 12 v.cm where
  low := Nat.le_trans (live_above hl) hl.placed.above
  high := Nat.le_of_lt hl.placed.fits

theorem live_env (h : Live w) (e : Env) : Live { w with env := e } where
  wf := ⟨h.wf.live, h.wf.reach, h.wf.sectSize, h.wf.dataOffset, h.wf.small, h.wf.cached, h.wf.stored⟩
  filp := h.filp
  linked := h.linked
  placed := ⟨h.placed.above, h.placed.fits⟩

theorem Shows.body (h : Shows v w) (hl : Live v) (hs : SameBody w w') : Shows v w' where
  index pos hpos hne := by
    rw [← h.index pos hpos hne]
    exact wordAt_congr fun k hk _ => hs k (Nat.le_trans (Nat.le_add_right 4096 (8 * pos)) hk)
  data p hp hlt := (hs p ((live_above hl).trans hp)).trans (h.data p hp hlt)

theorem flushed_shows {fillAhead : Bool} (hl : Live v) (h : Flushed fillAhead v w) : Shows v w where
  index pos hpos hne := by
    have hi : pos / 4096 < v.cm.totalSects := Nat.div_lt_of_lt_mul hpos
    rw [← h.index pos hpos] at hne ⊢
    rw [indexAt, CowSection.entry, h.unmapped _ hi] at hne ⊢
    cases hd : (w.cm.sect (pos / 4096)).hasData with
    | true => rfl
    | false => simp [hd] at hne
  data p hp hlt := by
    rw [hl.wf.dataOffset] at hp
    exact h.outside p (.inr hp) (.inr hlt)

theorem cowWriteHeader_body {isClean : Bool} (hf : w.cm.filp = true) :
    wp (cowWriteHeader isClean) w (fun _ w' => SameBody w w') (fun _ w' => SameBody w w') :=
  wp_mono (cowWriteHeader_wp isClean (.inl hf)) (fun _ _ h p hp => h.2.1.outside p (.inr (by omega)))
    fun _ _ h p hp => h.2.2.2.outside p (.inr (by omega))

theorem cowWriteHeader_unclean (hf : w.cm.filp = true) :
    wp (cowWriteHeader false) w (fun _ w' => Unclean w'.file) (fun _ _ => True) := by
  refine wp_mono (cowWriteHeader_wp false (.inl hf)) ?_ fun _ _ _ => trivial
  rintro _ w' ⟨hw, -, -, hdisk⟩
  have hflags : (decode w'.file.bytes).flags = w'.cm.flags := congrArg CowHeader.flags hdisk
  rw [Unclean, hflags, hw]
  simp [markClean]

/-- A new file says that it is in use. -/
theorem cowInit_unclean {elements fileMax seqid : UInt64} {cacheSize : Nat} {uuid : Fin 16 → UInt8} :
    wp (cowInit 12 elements 4096 cacheSize fileMax uuid seqid) w (fun _ w' => Unclean w'.file) (fun _ _ => True) := by
  rw [cowInit, wp_bind]
  refine allocManager_wp (fun _ => ?_) fun _ _ => trivial
  rw [wp_onError, fileCreate]
  simp only [wp_bind, wp_modify, wp_const]
  refine wp_tick ?_ fun _ _ => trivial
  rw [wp_modifyCm]
  refine wp_mono (Start.allocSects_wp _) ?_ fun _ _ _ => trivial
  rintro _ w₁ ⟨-, hw₁, -⟩
  refine wp_mono (Start.fileAllocate_wp _ (by rw [hw₁]; rfl) (by rw [hw₁]; exact fun _ => rfl)) ?_ fun _ _ _ => trivial
  rintro _ w₂ ⟨hw₂, -⟩
  exact cowWriteHeader_unclean (by rw [hw₂, hw₁]; rfl)

/-- However a close ends, a file that says that it was closed has all that the manager knew. -/
theorem cowSyncAndClose_safe (hl : Live v) (hu : Unclean v.file) :
    wp (cowSyncAndClose 12) v (fun _ w => Shows v w) (fun _ w => Safe v w) := by
  rw [cowSyncAndClose, wp_onError]
  have hfree : ∀ u, Safe v u → wp cowFreeMembers u (fun _ w => Safe v w) (fun _ w => Safe v w) := fun u hs =>
    have hfile : ∀ w : World, w.file = u.file → Safe v w := fun w hw =>
      hs.imp (fun h => by rw [hw]; exact h) fun h => h.body hl (sameBody_of_file hw)
    wp_mono (freeMembers_file u) (fun _ w => hfile w) fun _ w => hfile w
  refine wp_mono (?_ : wp _ v (fun _ w => Shows v w) (fun _ w => Safe v w)) (fun _ _ h => h) fun _ u hs => hfree u hs
  rw [wp_bind]
  refine wp_mono (wp_and (cowSyncAndFreeSections_wp true hl.wf fun _ => ⟨hl.filp, hl.placed⟩)
    (syncAndFreeSections_spares fun _ => live_ready hl)) ?_ fun _ w hs => .inl (hu.congr hs.2.page)
  rintro _ w₁ ⟨hflushed, -⟩
  have h₁ := flushed_shows hl hflushed
  rw [wp_bind]
  refine wp_mono (cowWriteHeader_body (by rw [hflushed.filp]; exact hl.filp)) ?_ fun _ _ hs => .inr (h₁.body hl hs)
  intro _ w₂ h₂
  have h₂ := h₁.body hl h₂
  rw [wp_bind]
  refine wp_mono (getCowFileExtents_keeps (g := World.file) (fun _ _ _ => rfl) w₂) ?_
    fun _ _ hs => .inr (h₂.body hl (sameBody_of_file hs))
  intro _ w₃ h₃
  rw [wp_modifyCm]
  exact h₂.body hl (sameBody_of_file h₃)

theorem cowCheckHeader_file {indexOnly resetVmalloc : Bool} (hf : w.cm.filp = true) :
    wp (cowCheckHeader indexOnly resetVmalloc) w (fun _ w' => w'.file = w.file ∧ w'.cm.filp = true)
      (fun _ w' => w'.file = w.file) := by
  simp only [cowCheckHeader, wp_bind]
  refine wp_alloc ?_ fun _ _ => rfl
  refine wp_mono (readHeader_wp (w := { w with clock := w.clock + 1 }) hf) ?_ fun _ w' hw => by rw [hw.1]
  rintro buf w' ⟨hw, -⟩
  have hfile : w'.file = w.file := by rw [hw]
  simp only [wp_ite, wp_throw, wp_modifyCm]
  split
  · exact hfile
  · split
    · exact hfile
    · split
      · exact hfile
      · exact ⟨hfile, by rw [hw]; exact hf⟩

/-- A file that is opened again is changed in its header only, and if this succeeds it says that it was not closed. -/
theorem cowReopen_body :
    wp cowReopen w (fun _ w' => SameBody w w' ∧ Unclean w'.file) (fun _ w' => SameBody w w') := by
  rw [cowReopen, wp_onError, wp_bind]
  refine wp_mono (fileOpen_wp (E := fun _ u => u.file = w.file) fun _ _ h => h) ?_ fun _ u hu => by
    rw [wp_modifyCm]
    exact sameBody_of_file hu
  rintro _ u rfl
  rw [wp_bind, wp_get, cowOpenHeader_eq, wp_bind]
  refine wp_mono (cowCheckHeader_file rfl) ?_ fun _ u hu => by
    rw [wp_modifyCm]
    exact sameBody_of_file hu
  rintro _ u ⟨hfile, hf⟩
  have hsame : SameBody w u := sameBody_of_file hfile
  refine wp_mono (wp_and (cowWriteHeader_body hf) (cowWriteHeader_unclean hf)) ?_ fun _ u' hu => by
    rw [wp_modifyCm]
    exact fun p hp => (hu.1 p hp).trans (hsame p hp)
  rintro _ u' ⟨hbody, hunclean⟩
  exact ⟨fun p hp => (hbody p hp).trans (hsame p hp), hunclean⟩

end ElastioSnap.Cow.OnDisk
