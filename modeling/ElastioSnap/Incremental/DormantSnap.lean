import ElastioSnap.Incremental.Dormancy

namespace ElastioSnap.Incremental.DormantSnap

open Lib.Outcome Snapshot.Tracking Snapshot.CowThread Snapshot.PointInTime
open Series (Held Whole Awake ofSnap)
open Cow.Manager (World)
open Cow.Section (indexAt)
open Cow.Lifecycle (cowModifyCacheSize)
open Cow.Footprint
open Cow.OnDisk (live_env live_ready)
open Snapshot.Machine (Step)
open Snapshot.Filing (NoReuse)
open Snapshot.Drain (InDevice)
open Snapshot.Storage
open Dormancy (Phase Quiet Ordered)

variable {d : Device} {b₀ : Nat → Sector} {w w' w₀ : World} {s s' : Backed} {t t' : State Sector} {b n : Nat}
  {phase : Phase} {saved : Nat → Option (Nat → Sector)}

/-- What the snapshot saved is from its creation. -/
def Genuine (d : Device) (b₀ : Nat → Sector) (t : State Sector) : Prop :=
  ∀ b held, t.saved b = some held → d.owned b = false → ∀ o, o < d.sectorsPerBlock → held o = b₀ (d.sector b o)

/-- A snapshot whose blocks are those of its creation. -/
def Keeps (d : Device) (b₀ : Nat → Sector) (s : Backed) : Prop :=
  Whole d ∧ ∃ (w₀ : World) (t : State Sector), Held d w₀ b₀ s t ∧ Genuine d b₀ t

/-- One that is traced. -/
def Saves (d : Device) (b₀ : Nat → Sector) (s : Backed) : Prop :=
  Whole d ∧ ∃ (w₀ : World) (t : State Sector), Held d w₀ b₀ s t ∧ Point d b₀ t ∧ Awake t

theorem Saves.keeps (h : Saves d b₀ s) : Keeps d b₀ s :=
  let ⟨hd, w₀, t, hheld, hpoint, _⟩ := h
  ⟨hd, w₀, t, hheld, hpoint.saved⟩

theorem serves_env {saved : Nat → Option (Nat → Sector)} (h : Serves d w₀ saved w) (e : Cow.Manager.Env) :
    Serves d { w₀ with env := e } saved { w with env := e } where
  store := {
    live := live_env h.store.live e
    aligned := h.store.aligned
    unmapped := h.store.unmapped
    mapped := fun b buf hb hs =>
      have hm := h.store.mapped b buf hb hs
      ⟨hm.above, hm.below, hm.allotted, hm.size, hm.data⟩
    fresh := h.store.fresh }
  blank := h.blank
  fixed := ⟨h.fixed.totalSects, h.fixed.dataOffset, h.fixed.fileMax, h.fixed.seqid, h.fixed.uuid, h.fixed.version,
    h.fixed.mode, rfl⟩
  room := h.room

theorem held_env (h : Held d w₀ b₀ s t) (e : Cow.Manager.Env) :
    Held d { w₀ with env := e } b₀ { s with world := { s.world with env := e } } t where
  same := ⟨h.same.snap, h.same.work, h.same.reads, serves_env h.same.serves e⟩
  intact := h.intact
  guarded := h.guarded

/-- The thread has nothing to do. -/
def Rests (t : State Sector) : Prop := t.cowBios = [] ∧ (t.work = .idle ∨ t.work = .dequeue)

theorem Rests.matched (h : Rests s.snap) (hm : Matches d w₀ s t) : Rests t := by
  have hwork : t.work = s.snap.work := hm.work.eq fun bio ok data hw => by
    rcases h.2 with h | h <;> rw [h] at hw <;> cases hw
  rw [Rests, hwork]
  refine ⟨?_, h.2⟩
  have hs := h.1
  rw [hm.snap] at hs
  exact hs

theorem Rests.pending (h : Rests t) : pending t = [] := by
  obtain ⟨hbios, hwork | hwork⟩ := h <;> rw [Snapshot.PointInTime.pending, hwork] <;> simp only [hbios] <;> rfl

/-- With nothing queued no step gives the thread something to do. -/
theorem Rests.step {a : Snapshot.Machine.Action Sector} (h : Rests t) (hph : phase ≠ .active)
    (ha : phase.allows (.snap a) = true) (hq : Quiet phase (.snap (.snap a))) (hst : Step d t a t')
    (hf : t'.fail = false) : Rests t' ∧ t'.saved = t.saved := by
  obtain ⟨hbios, hwork⟩ := h
  have hbusy : ∀ {P : Prop} {work : Work Sector}, t.work = work → work ≠ .idle → work ≠ .dequeue → P := by
    intro P work hw hi hd
    rcases hwork with h | h <;> rw [h] at hw
    · exact absurd hw.symm hi
    · exact absurd hw.symm hd
  cases hst with
  | tracer i w act _ hw hs =>
      obtain ⟨haside, hb⟩ := tracer_aside hs
      exact ⟨⟨hb.trans hbios, by rw [haside.work]; exact hwork⟩, haside.saved⟩
  | reader k c w act _ hk hw hs =>
      obtain ⟨haside, hb⟩ := reader_aside hs
      refine ⟨⟨(hb ?_).trans hbios, by rw [haside.work]; exact hwork⟩, haside.saved⟩
      rintro rfl
      exact hph hq
  | cow act _ hs =>
      cases hs with
      | look => exact ⟨⟨hbios, .inr rfl⟩, rfl⟩
      | empty => exact ⟨⟨hbios, .inl rfl⟩, rfl⟩
      | take bio rest hw hd =>
          rw [hbios] at hd
          cases hd
      | drop bio rest hw hd =>
          rw [hbios] at hd
          cases hd
      | write _ _ _ hw | mode _ _ hw | base _ _ hw | overlay _ _ hw | finish _ _ _ hw => exact hbusy hw nofun nofun
      | error => cases hf
      | exit => cases ha
  | refused | snapRead => exact absurd (of_decide_eq_true ha) hph
  | stopTracing | stopCow | stopMrf | mrfExit | free => cases ha
  | _ => exact ⟨⟨hbios, hwork⟩, rfl⟩

/-- With nothing to do the thread leaves the COW file alone. -/
theorem Rests.unstored {a : Snapshot.Storage.Action} (h : Rests s.snap) (hf : s.snap.fail = false)
    (hph : phase ≠ .active) (ha : phase.allows a = true) (hstep : Snapshot.Storage.step d s a = some s') :
    ∃ m u, a = .snap m ∧ Unstored s.snap m = true ∧ Snapshot.Machine.step d s.snap m = some u ∧ s' = ⟨u, s.world⟩ := by
  have plain : ∀ m : Snapshot.Machine.Action Sector, Unstored s.snap m = true →
      (Snapshot.Machine.step d s.snap m).map (fun u => Backed.mk u s.world) = some s' →
      ∃ m' u, Snapshot.Storage.Action.snap m = .snap m' ∧ Unstored s.snap m' = true ∧
        Snapshot.Machine.step d s.snap m' = some u ∧ s' = ⟨u, s.world⟩ := by
    intro m hu hm
    obtain ⟨u, hs, rfl⟩ := Option.map_eq_some_iff.mp hm
    exact ⟨m, u, rfl, hu, hs, rfl⟩
  have hunstored : (!s.snap.fail) = true := by rw [hf]; rfl
  cases a with
  | modifyCacheSize cacheSize => exact absurd (of_decide_eq_true ha) hph
  | snap m =>
      cases m with
      | cow act =>
          obtain ⟨-, hwork⟩ := h
          cases act with
          | look =>
              obtain ⟨u, hu, hs⟩ := Option.map_eq_some_iff.mp hstep
              rw [hf] at hs
              cases hs
              exact ⟨_, u, rfl, hunstored, hu, rfl⟩
          | write | mode | overlay =>
              rcases hwork with hw | hw <;>
                simp only [Snapshot.Storage.step, Snapshot.Storage.snapCowThread, Snapshot.CowThread.snapCowThread,
                  hw] at hstep <;>
                cases hstep
          | dequeue | base | finish | exit => exact plain _ hunstored hstep
      | _ => exact plain _ hunstored hstep

/-- A block that a clone has to itself lies in the device. -/
theorem covered_lt (h : Held d w₀ b₀ s t) (hd : Whole d) {k : Nat} {c : Clone Sector} (hc : t.clones[k]? = some c)
    (hcov : c.Covers d b) : b < 4096 * s.world.cm.totalSects := by
  have hin := h.intact.inside.clones k c hc
  have hroom := h.same.serves.room
  have hlast := hcov.2
  rw [hd.eight] at hin hroom
  simp only [Device.sector, hd.eight] at hlast
  omega

theorem inOrder_held {a : Snapshot.Machine.Action Sector} (h : Held d w₀ b₀ s t) (hd : Whole d)
    (ho : Ordered d s (.snap a)) : InOrder d t a := by
  have hsnap := h.same.snap
  have hbios : s.snap.cowBios = t.cowBios := by rw [hsnap]; rfl
  have hclones : s.snap.clones = t.clones := by rw [hsnap]; rfl
  cases a with
  | cow act =>
      cases act with
      | dequeue =>
          intro bio rest pre post hdeq hpre older hm b hs
          rw [← hbios] at hdeq hpre
          rintro ⟨⟨c, hc, hcov⟩, hbio⟩
          have hz := (h.same.serves.entry (covered_lt h hd hc hcov)).mpr hs
          refine ho bio rest pre post hdeq hpre older hm b hz ⟨⟨c, ?_, hcov⟩, ?_⟩
          · rw [hclones]
            exact hc
          · rw [CoversBlock, hclones]
            exact hbio
      | _ => trivial
  | _ => trivial

/-- The tracing goes on, whatever happens to the COW file. -/
theorem Saves.step {a : Snapshot.Storage.Action} (h : Saves d b₀ s) (ha : phase.allows a = true)
    (hp : OfSnap (fun s a => InDevice d a ∧ NoReuse s a) s a) (ho : Ordered d s a)
    (hstep : Snapshot.Storage.step d s a = some s') (hf : s'.snap.fail = false) : Saves d b₀ s' := by
  obtain ⟨hd, w₀, t, hheld, hpoint, hawake⟩ := h
  cases a with
  | modifyCacheSize cacheSize => exact ⟨hd, w₀, t, hheld.modifyCacheSize hstep, hpoint, hawake⟩
  | snap a =>
      obtain ⟨t', ht', hst⟩ := hheld.snap hd.eight hd.dvd hp.1 hp.2 hstep hf
      have hof : ofSnap (.snap a) = true := by
        cases a with
        | stopTracing => cases ha
        | _ => rfl
      have hpoint' := hpoint.step hheld.intact.filed hst (ht'.fail.trans hf) hawake.tracing (inOrder_held hheld hd ho)
      exact ⟨hd, w₀, t', ht', hpoint', hawake.step hst hof⟩

/-- Without the thread what is saved stays as it is. -/
theorem Keeps.step {a : Snapshot.Machine.Action Sector} (h : Keeps d b₀ s) (hr : Rests s.snap)
    (hph : phase ≠ .active) (ha : phase.allows (.snap a) = true) (hq : Quiet phase (.snap (.snap a)))
    (hp : InDevice d a ∧ NoReuse s.snap a) (hstep : Snapshot.Storage.step d s (.snap a) = some s')
    (hf : s'.snap.fail = false) : Keeps d b₀ s' := by
  obtain ⟨hd, w₀, t, hheld, hgenuine⟩ := h
  obtain ⟨t', ht', hst⟩ := hheld.snap hd.eight hd.dvd hp.1 hp.2 hstep hf
  obtain ⟨-, hsaved⟩ := (hr.matched hheld.same).step hph ha hq hst (ht'.fail.trans hf)
  refine ⟨hd, w₀, t', ht', ?_⟩
  rw [Genuine, hsaved]
  exact hgenuine

/-- A block of a submitted write has an entry, and what it held is where the entry says. -/
theorem Keeps.wrote {i : Nat} {x : Write} (h : Keeps d b₀ s) (hr : Rests s.snap)
    (hf : s.snap.fail = false) (hi : i ∈ s.snap.submitted) (hx : s.snap.writes[i]? = some x)
    (hov : d.Overlaps x.sector x.sectors b) : b < 4096 * s.world.cm.totalSects ∧
      ∃ held, Cow.BlockStore.Holds s.world (indexAt s.world b) (blockBytes held) ∧
        (d.owned b = false → ∀ o, o < d.sectorsPerBlock → held o = b₀ (d.sector b o)) := by
  obtain ⟨hd, w₀, t, hheld, hgenuine⟩ := h
  have hft := hheld.fail.trans hf
  have hsub : s.snap.submitted = t.submitted := by rw [hheld.same.snap]; rfl
  have hwrites : s.snap.writes = t.writes := by rw [hheld.same.snap]; rfl
  rw [hsub] at hi
  rw [hwrites] at hx
  rcases hheld.guarded.captures.released hx (List.mem_append_left _ hi) with hfail | hcov
  · rw [hft] at hfail
    cases hfail
  · obtain ⟨k, c, hc, -, happ, hcovers⟩ := hcov b hov
    have hlt := covered_lt hheld hd hc hcovers
    rcases (hheld.intact.queued hft).appended k c b hc happ hcovers with hs | ⟨bio, hbio, -⟩
    · obtain ⟨held, hsaved⟩ := Option.ne_none_iff_exists'.mp hs
      exact ⟨hlt, held, hheld.same.serves.store.mapped b (blockBytes held) hlt (by rw [hsaved]; rfl),
        hgenuine b held hsaved⟩
    · rw [(hr.matched hheld.same).pending] at hbio
      cases hbio

theorem spares_ok {α : Type} {x : Cow.Manager.CowM α} {y : α} (h : Relates Spares x) (hx : x w = .ok y w') :
    Spares w w' := by
  have hs := wp_ok (h w) hx
  exact hs

theorem spares_error {α : Type} {x : Cow.Manager.CowM α} {e : Cow.Manager.Err} (h : Relates Spares x)
    (hx : x w = .error e w') : Spares w w' := by
  have hs := wp_error (h w) hx
  exact hs

theorem spares_cowReadData {blockPos : UInt64} {blockOff : Nat} :
    Relates Spares (Cow.Data.cowReadData 12 blockPos blockOff) :=
  have hkzalloc : Relates Spares Cow.Data.kzalloc := fun _ => spares_of_file rfl
  hkzalloc.bind fun _ =>
    relates_throw.ite (relates_throw.ite (spares_fileRead.bind fun _ => relates_pure))

theorem spares_readMode {m : Snapshot.Tracking.Mode} {bs : List Nat} : Relates Spares (snapReadBioGetMode m bs) := by
  induction bs generalizing m with
  | nil => exact relates_pure
  | cons b bs ih =>
      refine spares_cowReadMapping.bind fun mapping => ?_
      split
      · exact ih
      · exact ih
      · exact relates_pure
      · exact relates_pure
      · exact ih

theorem spares_readSector {n : Nat} : Relates Spares (readSector d n) :=
  spares_cowReadMapping.bind fun _ => relates_pure.ite (spares_cowReadData.bind fun _ => relates_pure)

theorem overlaySectors_spares {ns : List Nat} {data : Nat → Sector} : Spares w (overlaySectors d ns data w).2.2 := by
  induction ns generalizing data w with
  | nil => exact spares_of_file rfl
  | cons n ns ih =>
      rw [overlaySectors]
      split
      next w₁ hw => exact (spares_ok spares_readSector hw).trans ih
      next held w₁ hw => exact (spares_ok spares_readSector hw).trans ih
      next _ w₁ hw => exact spares_error spares_readSector hw

theorem handlePages_spares {pages : Nat → Nat → Sector} {left page : Nat} (h : Serves d w₀ saved w)
    (hb : b + page + left ≤ 4096 * w.cm.totalSects) : Spares w (handlePages pages b left page w).2 := by
  induction left generalizing page w saved with
  | zero => exact spares_of_file rfl
  | succ left ih =>
      have hone : wp (Cow.Data.cowWriteCurrent 12 (UInt64.ofNat (b + page)) (blockBytes (pages page))) w _ _ :=
        cowWriteCurrent_spares (live_ready h.store.live)
      rw [handlePages]
      split
      next _ w₁ hw =>
        obtain ⟨hs, htotal⟩ := wp_ok (cowWriteCurrent_serves h (b := b + page) (by omega) (pages page)) hw
        exact (wp_ok hone hw).trans (ih hs (by rw [htotal]; omega))
      next _ w₁ hw =>
        have hspares := wp_error hone hw
        exact hspares

/-- While the device is traced the header is left alone, even in a step in which something fails. -/
theorem spares_held {a : Snapshot.Storage.Action} (h : Held d w₀ b₀ s t) (hf : s.snap.fail = false)
    (hstep : Snapshot.Storage.step d s a = some s') : Spares s.world s'.world := by
  have plain : ∀ x : Option (State Sector), x.map (fun u => Backed.mk u s.world) = some s' →
      Spares s.world s'.world := by
    intro x hx
    obtain ⟨u, -, rfl⟩ := Option.map_eq_some_iff.mp hx
    exact spares_of_file rfl
  cases a with
  | modifyCacheSize cacheSize =>
      have hspec : Relates Spares (cowModifyCacheSize 12 cacheSize) := spares_modifyCm
      simp only [Snapshot.Storage.step] at hstep
      split at hstep
      next _ w hw =>
        cases hstep
        exact spares_ok hspec hw
      next _ w hw =>
        cases hstep
        exact spares_error hspec hw
  | snap a =>
      cases a with
      | cow act =>
          simp only [Snapshot.Storage.step, Snapshot.Storage.snapCowThread] at hstep
          split at hstep
          next =>
            obtain ⟨u, -, rfl⟩ := Option.map_eq_some_iff.mp hstep
            rw [hf]
            exact spares_of_file rfl
          next handled bio hw =>
            obtain ⟨c, hc, hstep⟩ := Option.bind_eq_some_iff.mp hstep
            rw [hf, Bool.and_false, if_neg Bool.false_ne_true] at hstep
            split at hstep
            next =>
              cases hstep
              have hwt : t.work = .write bio := by
                refine (h.same.work.eq fun _ _ _ hfinish => ?_).trans hw
                rw [hw] at hfinish
                cases hfinish
              have hct : t.clones[bio.id]? = some c := by
                rw [h.same.snap] at hc
                exact hc
              have hroom := h.same.room h.intact.filed h.intact.inside (h.intact.queued (h.fail.trans hf)) hwt hct
              exact handlePages_spares h.same.serves (by rw [Nat.add_zero]; exact hroom)
            next => cases hstep
          next ok bio hw =>
            obtain ⟨r, -, hstep⟩ := Option.bind_eq_some_iff.mp hstep
            cases hm : snapReadBioGetMode .none (blocks d r.sector r.sectors) s.world with
            | ok m w =>
                have hspares := spares_ok spares_readMode hm
                rw [hm] at hstep
                cases ok <;> cases m <;> cases hstep <;> exact hspares
            | error e w =>
                have hspares := spares_error spares_readMode hm
                rw [hm] at hstep
                cases ok <;> cases hstep
                exact hspares
          next ok bio data hw =>
            obtain ⟨r, -, hstep⟩ := Option.bind_eq_some_iff.mp hstep
            have hspares : Spares s.world (overlaySectors d (List.range' r.sector r.sectors) data s.world).2.2 :=
              overlaySectors_spares
            generalize overlaySectors d (List.range' r.sector r.sectors) data s.world = res at hstep hspares
            obtain ⟨got, data', w⟩ := res
            cases got <;> cases ok <;> cases hstep <;> exact hspares
          next => exact plain _ hstep
      | failure | stopTracing =>
          cases hstep
          exact spares_of_file rfl
      | _ => exact plain _ hstep

end ElastioSnap.Incremental.DormantSnap
