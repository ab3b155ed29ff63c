import ElastioSnap.Cow.Manager

namespace ElastioSnap.Cow.FileIo

open Lib.Bytes Lib.Outcome Manager

def sectorByOffset (exts : List Extent) (offset : Nat) : Option Nat :=
  (exts.find? (fun e => decide (e.logical ≤ offset ∧ offset < e.logical + e.length))).map
    (fun e => (e.physical + (offset - e.logical)) / sectorSize)

def cowExtents : CowM (List Extent) := do
  match (← get).extents with
  | some exts => pure exts
  | none => throw .oops

/-- The inner loop of the direct path: how many of the `left` sectors one bio takes, which
are those that follow each other on the device. -/
def iterationsDone (exts : List Extent) (startSect : Nat) : Nat → Nat → Nat → Nat
  | 0, _, done => done
  | left + 1, offset, done =>
      if left ≠ 0 ∧ sectorByOffset exts (offset + sectorSize) = some (startSect + (done + 1)) then
        iterationsDone exts startSect left (offset + sectorSize) (done + 1)
      else done + 1

/-- The device sectors written are those the extents give the file, so the write is
stated on the file. Every round takes a sector, and the first argument bounds the rounds. -/
def fileWriteBlock (block : Nat → UInt8) : Nat → Nat → Nat → Nat → CowM Unit
  | 0, _, _, _ => pure ()
  | fuel + 1, left, offset, sectorsProcessed => do
      let exts ← cowExtents
      match sectorByOffset exts offset with
      | none => throw (.code .efault)
      | some startSect =>
          alloc
          alloc
          let n := iterationsDone exts startSect left offset 0
          tick
          modify fun w => { w with
            file := w.file.overwrite offset (n * sectorSize)
              (fun p => block (sectorsProcessed * sectorSize + p)) }
          if n = left then pure ()
          else fileWriteBlock block fuel (left - n) (offset + n * sectorSize) (sectorsProcessed + n)

def fileReadBlock (buf : Nat → UInt8) : Nat → Nat → Nat → Nat → CowM (Nat → UInt8)
  | 0, _, _, _ => pure buf
  | fuel + 1, left, offset, sectorsProcessed => do
      let exts ← cowExtents
      match sectorByOffset exts offset with
      | none => throw (.code .efault)
      | some startSect =>
          alloc
          alloc
          let n := iterationsDone exts startSect left offset 0
          tick
          let file := (← get).file
          let buf' := splice buf (sectorsProcessed * sectorSize) (n * sectorSize)
            (fun p => file.bytes (offset + p))
          if n = left then pure buf'
          else fileReadBlock buf' fuel (left - n) (offset + n * sectorSize) (sectorsProcessed + n)

def vfsRead (off len : Nat) : CowM (Nat → UInt8) := do
  tick
  let file := (← get).file
  if off + len ≤ file.size then pure (fun p => file.bytes (off + p)) else throw (.code .eio)

/-- No file is as long as `2 ^ 63` bytes. -/
def vfsWrite (off len : Nat) (buf : Nat → UInt8) : CowM Unit := fun w =>
  if 2 ^ 63 ≤ off + len then .error (.code .einval) w
  else match w.env.fault w.clock with
  | none => .ok () { w with clock := w.clock + 1, file := w.file.write off len buf }
  | some e => .error (.code e)
      { w with clock := w.clock + 1, file := w.file.write off (min (w.env.moved w.clock) len) buf }

/-- A manager whose file is closed reads and writes the blocks of the file directly. -/
def fileRead (off len : Nat) : CowM (Nat → UInt8) := do
  if (← get).cm.filp then vfsRead off len
  else fileReadBlock (fun _ => 0) (len / sectorSize) (len / sectorSize) off 0

def fileWrite (off len : Nat) (buf : Nat → UInt8) : CowM Unit := do
  if (← get).cm.filp then vfsWrite off len buf
  else fileWriteBlock buf (len / sectorSize) (len / sectorSize) off 0

variable {w : World}

theorem wp_cowExtents {Q : List Extent → World → Prop} {E : Err → World → Prop} (hok : ∀ exts, Q exts w)
    (herr : E .oops w) : wp cowExtents w Q E := by
  rw [cowExtents, wp_bind, wp_get]
  cases w.extents with
  | none => exact herr
  | some exts => exact hok exts

theorem iterationsDone_bounds (exts : List Extent) (startSect left offset done : Nat) (h : 0 < left) :
    done < iterationsDone exts startSect left offset done ∧
      iterationsDone exts startSect left offset done ≤ done + left := by
  induction left generalizing offset done with
  | zero => omega
  | succ left ih =>
      rw [iterationsDone]
      split
      next hc =>
        have hi := ih (offset + sectorSize) (done + 1) (by omega)
        omega
      next hc => omega

/-- A failure has an excuse: some call failed, or the file was closed and its extents
were used. -/
def Excused (w : World) : Prop := w.cm.filp = true → ¬ w.env.Faultless

theorem Excused.of_fault {n : Nat} {e : Errno} (h : w.env.fault n = some e) : Excused w := by
  intro _ hn
  simp [hn n] at h

theorem fileReadBlock_wp (buf : Nat → UInt8) (fuel left offset done : Nat) (hpos : 0 < left)
    (hfuel : left ≤ fuel) :
    wp (fileReadBlock buf fuel left offset done) w
      (fun buf' w' => w' = { w with clock := w'.clock } ∧
        (∀ p, p < done * 512 → buf' p = buf p) ∧
        ∀ p, p < left * 512 → buf' (done * 512 + p) = w.file.bytes (offset + p))
      (fun _ w' => w' = { w with clock := w'.clock }) := by
  induction fuel generalizing buf left offset done w with
  | zero => omega
  | succ fuel ih =>
      simp only [fileReadBlock, sectorSize, wp_bind]
      refine wp_cowExtents ?_ rfl
      intro exts
      cases hs : sectorByOffset exts offset with
      | none => simp only [wp_throw]
      | some startSect =>
          obtain ⟨hlo, hhi⟩ := iterationsDone_bounds exts startSect left offset 0 hpos
          simp only [wp_bind, wp_get, wp_ite, wp_pure]
          refine wp_alloc (wp_alloc (wp_tick ?_ ?_) ?_) ?_
          · dsimp only
            generalize iterationsDone exts startSect left offset 0 = n at hlo hhi ⊢
            split
            next hn =>
              subst hn
              exact ⟨rfl, fun p hp => splice_outside _ _ (by omega), fun p hp => splice_inside _ _ hp⟩
            next hn =>
              apply wp_mono (ih _ (left - n) (offset + n * 512) (done + n) (by omega) (by omega))
              · rintro buf' w' ⟨hw, hold, hnew⟩
                refine ⟨hw, ?_, ?_⟩
                · intro p hp
                  have hp' : p < (done + n) * 512 :=
                    hp.trans_le (Nat.mul_le_mul_right 512 (Nat.le_add_right done n))
                  rw [hold p hp']
                  exact splice_outside _ _ (by omega)
                · intro p hp
                  by_cases hpn : p < n * 512
                  · rw [hold _ (by omega)]
                    exact splice_inside _ _ hpn
                  · have h := hnew (p - n * 512) (by omega)
                    rw [show (done + n) * 512 + (p - n * 512) = done * 512 + p by omega] at h
                    rw [h, show offset + n * 512 + (p - n * 512) = offset + p by omega]
              · intro e w' hw
                exact hw
          · intro e he
            rfl
          · intro e he
            rfl
          · intro e he
            rfl

/-- What a write to a range of the file leaves alone, whether it was completed or not. -/
structure Wrote (f f' : ByteFile) (off len : Nat) : Prop where
  size : f.size ≤ f'.size
  outside : ∀ p, p < off ∨ off + len ≤ p → f'.bytes p = f.bytes p

theorem Wrote.refl (f : ByteFile) (off len : Nat) : Wrote f f off len := ⟨le_rfl, fun _ _ => rfl⟩

theorem Wrote.trans {f f' f'' : ByteFile} {off len off' len' : Nat} (h : Wrote f f' off len)
    (h' : Wrote f' f'' off' len') (hlo : off ≤ off') (hhi : off' + len' ≤ off + len) :
    Wrote f f'' off len :=
  ⟨h.size.trans h'.size, fun p hp => (h'.outside p (by omega)).trans (h.outside p hp)⟩

theorem wrote_write (f : ByteFile) {off len n : Nat} (buf : Nat → UInt8) (h : n ≤ len) :
    Wrote f (f.write off n buf) off len :=
  ⟨size_le_write f off n buf, fun _ hp => bytes_write_outside f buf (by omega)⟩

theorem wrote_overwrite (f : ByteFile) {off len n : Nat} (buf : Nat → UInt8) (h : n ≤ len) :
    Wrote f (f.overwrite off n buf) off len := by
  refine ⟨le_rfl, fun p hp => ?_⟩
  simp only [ByteFile.overwrite]
  rw [if_neg (by omega)]

theorem fileWriteBlock_wp (buf : Nat → UInt8) (fuel left offset done : Nat) (hpos : 0 < left)
    (hfuel : left ≤ fuel) :
    wp (fileWriteBlock buf fuel left offset done) w
      (fun _ w' => w' = { w with clock := w'.clock, file := w'.file } ∧
        Wrote w.file w'.file offset (left * 512) ∧
        ∀ p, p < left * 512 → offset + p < w.file.size →
          w'.file.bytes (offset + p) = buf (done * 512 + p))
      (fun _ w' => w' = { w with clock := w'.clock, file := w'.file } ∧
        Wrote w.file w'.file offset (left * 512)) := by
  induction fuel generalizing left offset done w with
  | zero => omega
  | succ fuel ih =>
      simp only [fileWriteBlock, sectorSize, wp_bind]
      refine wp_cowExtents ?_ ⟨rfl, Wrote.refl _ _ _⟩
      intro exts
      cases hs : sectorByOffset exts offset with
      | none =>
          simp only [wp_throw]
          exact ⟨trivial, Wrote.refl _ _ _⟩
      | some startSect =>
          obtain ⟨hlo, hhi⟩ := iterationsDone_bounds exts startSect left offset 0 hpos
          simp only [wp_bind, wp_ite, wp_pure, wp_modify]
          refine wp_alloc (wp_alloc (wp_tick ?_ ?_) ?_) ?_
          · dsimp only
            generalize iterationsDone exts startSect left offset 0 = n at hlo hhi ⊢
            have hmine : ∀ p, p < n * 512 → offset + p < w.file.size →
                (w.file.overwrite offset (n * 512) fun p => buf (done * 512 + p)).bytes (offset + p) =
                  buf (done * 512 + p) := by
              intro p hp hp'
              simp only [ByteFile.overwrite]
              rw [if_pos (by omega), Nat.add_sub_cancel_left]
            have hfirst : Wrote w.file (w.file.overwrite offset (n * 512) fun p => buf (done * 512 + p))
                offset (left * 512) := wrote_overwrite _ _ (by omega)
            split
            next hn =>
              subst hn
              exact ⟨rfl, hfirst, hmine⟩
            next hn =>
              apply wp_mono (ih (left - n) (offset + n * 512) (done + n) (by omega) (by omega))
              · rintro _ w' ⟨hw, hwrote, hnew⟩
                refine ⟨hw, hfirst.trans hwrote (by omega) (by omega), ?_⟩
                intro p hp hp'
                by_cases hpn : p < n * 512
                · rw [hwrote.outside _ (by omega), hmine p hpn hp']
                · have h := hnew (p - n * 512) (by omega) (by simp only [ByteFile.overwrite]; omega)
                  rw [show offset + n * 512 + (p - n * 512) = offset + p by omega] at h
                  rw [h, show (done + n) * 512 + (p - n * 512) = done * 512 + p by omega]
              · rintro e w' ⟨hw, hwrote⟩
                exact ⟨hw, hfirst.trans hwrote (by omega) (by omega)⟩
          all_goals
            intro e he
            exact ⟨rfl, Wrote.refl _ _ _⟩

theorem fileRead_wp (off len : Nat) (hlen : len % 512 = 0) (hpos : 0 < len)
    (hs : w.cm.filp = true → off + len ≤ w.file.size) :
    wp (fileRead off len) w
      (fun buf w' => w' = { w with clock := w'.clock } ∧
        ∀ p, p < len → buf p = w.file.bytes (off + p))
      (fun _ w' => Excused w ∧ w' = { w with clock := w'.clock }) := by
  simp only [fileRead, sectorSize, wp_bind, wp_get, wp_ite]
  split
  next hf =>
    simp only [vfsRead, wp_bind, wp_get]
    apply wp_tick
    · simp only [hs hf, if_true, wp_pure, true_and]
      exact fun _ _ => trivial
    · exact fun e he => ⟨.of_fault he, rfl⟩
  next hf =>
    apply wp_mono (fileReadBlock_wp _ (len / 512) (len / 512) off 0
      (by omega) le_rfl)
    · rintro buf w' ⟨hw, -, hbuf⟩
      refine ⟨hw, fun p hp => ?_⟩
      have h := hbuf p (by omega)
      rwa [Nat.zero_mul, Nat.zero_add] at h
    · exact fun e w' hw => ⟨fun h => (hf h).elim, hw⟩

theorem fileWrite_wp (off len : Nat) (buf : Nat → UInt8)
    (hlen : w.cm.filp = false → len % 512 = 0 ∧ 0 < len) :
    wp (fileWrite off len buf) w
      (fun _ w' => w' = { w with clock := w'.clock, file := w'.file } ∧
        Wrote w.file w'.file off len ∧
        (w.cm.filp = true → off + len < 2 ^ 63 ∧ w'.file = w.file.write off len buf) ∧
        (w.cm.filp = true ∨ off + len ≤ w.file.size →
          ∀ p, p < len → w'.file.bytes (off + p) = buf p))
      (fun _ w' => (off + len < 2 ^ 63 → Excused w) ∧
        w' = { w with clock := w'.clock, file := w'.file } ∧ Wrote w.file w'.file off len) := by
  simp only [fileWrite, sectorSize, wp_bind, wp_get, wp_ite]
  split
  next hf =>
    unfold wp vfsWrite
    by_cases hlong : 2 ^ 63 ≤ off + len
    · rw [if_pos hlong]
      exact ⟨fun h => by omega, rfl, Wrote.refl _ _ _⟩
    · rw [if_neg hlong]
      cases h : w.env.fault w.clock with
      | none =>
          exact ⟨rfl, wrote_write _ _ le_rfl, fun _ => ⟨by omega, rfl⟩,
            fun _ p hp => bytes_write_inside _ _ hp⟩
      | some e => exact ⟨fun _ => .of_fault h, rfl, wrote_write _ _ (min_le_right _ _)⟩
  next hf =>
    have hl := hlen (by simpa using hf)
    have hm : len / 512 * 512 = len := by omega
    apply wp_mono (fileWriteBlock_wp buf (len / 512) (len / 512) off 0
      (by omega) le_rfl)
    · rintro _ w' ⟨hw, hwrote, hbuf⟩
      rw [hm] at hwrote hbuf
      refine ⟨hw, hwrote, fun h => (hf h).elim, fun hsize p hp => ?_⟩
      have h := hbuf p hp (by have := hsize.resolve_left hf; omega)
      rwa [Nat.zero_mul, Nat.zero_add] at h
    · rintro e w' ⟨hw, hwrote⟩
      rw [hm] at hwrote
      exact ⟨fun _ h => (hf h).elim, hw, hwrote⟩

end ElastioSnap.Cow.FileIo
