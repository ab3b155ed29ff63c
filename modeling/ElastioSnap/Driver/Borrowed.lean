import ElastioSnap.Cow.Start
import ElastioSnap.Driver.Steps
import ElastioSnap.Lib.Extend

namespace ElastioSnap.Driver.Borrowed

open Function (update)
open Lib.Outcome Lib.Extend State Setup Events Component Rows Tracing Effects Setups Ioctls Transitions Steps
open Cow.Manager (Errno Err World)

variable {env : Env} {d d' : DriverState} {a b c k m n t minor old : Nat} {dev dev' : SnapDevice} {ops : OpsState}

/-- A COW manager in memory: the device it points back to, and what it holds together with its file. -/
structure Manager where
  dev : Nat
  world : World

/-- The managers, and which of them a device has. -/
structure Heap where
  cow : Nat → Option Nat
  managers : Nat → Option Manager
  next : Nat

abbrev HeapM := EStateM Err (DriverState × Heap)

/-- The manager of `src` becomes that of `dest` too, and points back to it. -/
def copyCow (src dest : Nat) (h : Heap) : Heap :=
  match h.cow src with
  | none => h
  | some m => { h with
      cow := update h.cow dest (some m)
      managers := update h.managers m ((h.managers m).map fun x => { x with dev := dest }) }

def newCow (a : Nat) (world : World) (h : Heap) : Heap where
  cow := update h.cow a (some h.next)
  managers := update h.managers h.next (some ⟨a, world⟩)
  next := h.next + 1

def freeCow (a : Nat) (h : Heap) : Heap :=
  match h.cow a with
  | none => h
  | some m => { h with cow := update h.cow a none, managers := update h.managers m none }

def freeDev (a : Nat) (h : Heap) : Heap := { h with cow := update h.cow a none }

section

variable (env)

def heapSnapToInc (old : Nat) : HeapM Nat := do
  let a ← lift (tracerAlloc env)
  lift (onDev a (setMode false true false))
  let oldDev ← lift (getDev old)
  watch (fun _ => copyCow old a) (onDev a (do
    tracerCopyBaseDev oldDev
    tracerCopyCowPath oldDev
    tracerCopyCow oldDev))
  onCode
    (do
      lift (onDev a (tracerSetupCowThread env))
      lift (tracerSetupTracing env a oldDev.minor))
    (do
      lift (onDev a (tracerDestroyCowThread env))
      watch (fun _ => freeDev a) (kfree a))
  return a

/-- `opened` is what `cow_init` makes of a new manager and its file, by the number of the call. -/
def heapIncToSnap (opened : Nat → World) (old : Nat) : HeapM Nat := do
  let a ← lift (tracerAlloc env)
  lift (onDev a (setMode true true false))
  let oldDev ← lift (getDev old)
  lift (onDev a (tracerCopyBaseDev oldDev))
  onCode
    (do
      if oldDev.cow.isNone then throw .oops
      lift (onDev a (do
        let dev := (← get).dev
        tracerSetupCow env dev.size dev.cacheSize .init))
      note (fun d => newCow a (opened d.clock))
      lift (onDev a (do
        tracerSetupCowPath env
        tracerSetupSnap env
        tracerSetupCowThread env))
      lift (tracerSetupTracing env a oldDev.minor))
    (do
      lift (onDev a (do
        tracerDestroyCowThread env
        tracerDestroySnap
        tracerDestroyCowPath))
      watch (fun _ => freeCow a) (onDev a (tracerDestroyCow env .free))
      watch (fun _ => freeDev a) (kfree a))
  return a

end

/-- Work on a device can be done in parts. -/
theorem onDev_bind {α β : Type} {x : DevM α} {f : α → DevM β} :
    onDev a (x >>= f) = onDev a x >>= fun r => onDev a (f r) := by
  funext d
  have hx : ∀ l, (x >>= f) l = EStateM.bind x f l := fun _ => rfl
  have hy : (onDev a x >>= fun r => onDev a (f r)) d = EStateM.bind (onDev a x) (fun r => onDev a (f r)) d := rfl
  rw [hy]
  unfold EStateM.bind onDev
  cases hd : d.devs a with
  | none => rfl
  | some dev =>
      dsimp only
      rw [hx]
      unfold EStateM.bind
      cases x ⟨dev, d.clock⟩ with
      | error e l => rfl
      | ok r l =>
          simp only [put_devs, put_clock]
          cases f r l with
          | ok r' l' => simp only [put_put]
          | error e l' => simp only [put_put]

section

variable {σ τ : Type} {x g : EStateM Err σ Unit} {y y' : EStateM Err (σ × τ) Unit}

theorem extends_attempt (h : Extends y x) : Extends (attempt y) (attempt x) := by
  intro s
  have hs := h s
  unfold attempt
  rw [← hs]
  cases y s with
  | ok _ t => rfl
  | error e t => cases e <;> rfl

theorem extends_onCode (h : Extends y x) (h' : Extends y' g) : Extends (onCode y y') (onCode x g) := by
  refine (extends_attempt h).bind fun r => ?_
  cases r with
  | none => exact extends_pure
  | some e => exact h'.bind fun _ => extends_throw

end

/-- The second state is not read by a computation on the first. -/
theorem wp_lifted {σ τ α : Type} {x : EStateM Err σ α} {s : σ × τ} {Q : α → σ × τ → Prop} {F : Errno → σ × τ → Prop}
    (hx : wp x s.1 (fun r t => Q r (t, s.2)) (Fails fun c t => F c (t, s.2))) : wp (lift x) s Q (Fails F) := by
  rw [wp_lift]
  refine wp_mono hx (fun _ _ h => h) ?_
  intro e t ht
  cases e with
  | code c => exact ht
  | oops => trivial

theorem extends_snapToInc : Extends (heapSnapToInc env old) (snapToIncBegin env old) :=
  extends_lift.bind fun _ => extends_lift.bind fun _ => extends_lift.bind fun _ => extends_watch.bind fun _ =>
    (extends_onCode (extends_lift.bind fun _ => extends_lift) (extends_lift.bind fun _ => extends_watch)).bind
      fun _ => extends_pure

theorem extends_noted {σ τ α : Type} {f : σ → τ → τ} {x : EStateM Err σ α} {y : EStateM Err (σ × τ) α} (h : Extends y x) :
    Extends (do note f; y) x := (extends_note (f := f)).bind fun _ => h

theorem incToSnapParts {p : DevM Unit} : onDev a (do
      let dev := (← get).dev
      tracerSetupCow env dev.size dev.cacheSize .init
      p) = (do
    onDev a (do
      let dev := (← get).dev
      tracerSetupCow env dev.size dev.cacheSize .init)
    onDev a p) := by
  rw [← onDev_bind]
  simp only [bind_assoc]

theorem incToSnapCleanup {p q r s : DevM Unit} : onDev a (do p; q; r; s) = (do
    onDev a (do p; q; r)
    onDev a s) := by
  rw [← onDev_bind]
  simp only [bind_assoc]

theorem extends_incToSnap {opened : Nat → World} :
    Extends (heapIncToSnap env opened old) (incToSnapBegin env old) := by
  rw [heapIncToSnap, incToSnapBegin]
  refine extends_lift.bind fun a => extends_lift.bind fun _ => extends_lift.bind fun oldDev => extends_lift.bind fun _ =>
    (extends_onCode ?_ ?_).bind fun _ => extends_pure
  · rw [incToSnapParts]
    simp only [bind_assoc]
    cases oldDev.cow.isNone
    · exact extends_lift.bind fun _ => extends_noted (extends_lift.bind fun _ => extends_lift)
    · exact extends_throw.bind fun _ => extends_lift.bind fun _ => extends_noted (extends_lift.bind fun _ => extends_lift)
  · rw [incToSnapCleanup, bind_assoc]
    exact extends_lift.bind fun _ => extends_watch.bind fun _ => extends_watch

/-- The table has just these minors. -/
def Tight (env : Env) (d : DriverState) : Prop :=
  (recalculated env d).lowestMinor = d.lowestMinor ∧ (recalculated env d).highestMinor = d.highestMinor

/-- A live count of references is that of an object that was allocated, and it has not wrapped. -/
def Counted (ops : OpsState) : Prop := ∀ t r, ops.refs t = some r → t < ops.nextOps ∧ 0 < r ∧ r < 2 ^ 32

/-- All but the memory that the transition took for itself is as before. -/
structure Kept (d d' : DriverState) : Prop where
  table : d'.snapDevices = d.snapDevices
  low : d'.lowestMinor = d.lowestMinor
  high : d'.highestMinor = d.highestMinor
  disks : d'.ops.bdOps = d.ops.bdOps
  refs : d'.ops.refs = d.ops.refs
  devs : ∀ c, c ≠ d.nextDev → d'.devs c = d.devs c

/-- The new device is being made, off the table. -/
structure Building (d : DriverState) (dev : SnapDevice) (d' : DriverState) : Prop where
  table : d'.snapDevices = d.snapDevices
  low : d'.lowestMinor = d.lowestMinor
  high : d'.highestMinor = d.highestMinor
  ops : d'.ops = d.ops
  devs : ∀ c, c ≠ d.nextDev → d'.devs c = d.devs c
  self : d'.devs d.nextDev = some dev

theorem Building.kept (h : Building d dev d') : Kept d d' :=
  ⟨h.table, h.low, h.high, by rw [h.ops], by rw [h.ops], h.devs⟩

theorem Building.put {l : Local} (h : Building d dev d') : Building d l.dev (d'.put d.nextDev l) where
  table := h.table
  low := h.low
  high := h.high
  ops := h.ops
  devs c hc := (put_devs_of_ne hc).trans (h.devs c hc)
  self := put_devs

theorem building_allocated : Building d .zero (allocated d n) :=
  ⟨rfl, rfl, rfl, rfl, fun _ hc => Function.update_of_ne hc .., Function.update_self ..⟩

theorem Kept.put {l : Local} (h : Kept d d') : Kept d (d'.put d.nextDev l) :=
  ⟨h.table, h.low, h.high, h.disks, h.refs, fun c hc => (put_devs_of_ne hc).trans (h.devs c hc)⟩

theorem Kept.freed (h : Kept d d') : Kept d (freed d' d.nextDev) :=
  ⟨h.table, h.low, h.high, h.disks, h.refs, fun c hc => (Function.update_of_ne hc ..).trans (h.devs c hc)⟩

theorem kept_atCall : Kept d (d.atCall n) := ⟨rfl, rfl, rfl, rfl, rfl, fun _ _ => rfl⟩

/-- A reference that was taken and given back does not show. -/
theorem released_found {rows : Table} {b : Nat} {o : Option Ops} {t : Option Nat} (hc : Counted d.ops)
    (h : Found env rows d.ops b o t ops) : (released ops t).bdOps = d.ops.bdOps ∧ (released ops t).refs = d.ops.refs := by
  cases h with
  | first _ => exact ⟨rfl, rfl⟩
  | lost _ _ _ _ _ _ => exact ⟨rfl, rfl⟩
  | @shared u i c t r cur _ _ _ _ _ _ hr =>
      refine ⟨rfl, ?_⟩
      obtain ⟨-, hpos, hlt⟩ := hc t r hr
      simp only [released, Function.update_self, Option.bind_some, Function.update_idem]
      funext x
      by_cases hx : x = t
      · subst hx
        rw [Function.update_self, hr]
        by_cases hwrap : r + 1 = 2 ^ 32
        · rw [hwrap, Nat.mod_self, if_neg (by decide), Option.some.injEq]
          omega
        · rw [Nat.mod_eq_of_lt (show r + 1 < 2 ^ 32 by omega), if_neg (by omega), Option.some.injEq]
          omega
      · exact Function.update_of_ne hx ..

theorem released_made (hc : Counted d.ops) (hrefs : ops.refs = d.ops.refs) (hnext : ops.nextOps = d.ops.nextOps) :
    (released { ops with refs := update ops.refs ops.nextOps (some 1), nextOps := ops.nextOps + 1 }
      (some ops.nextOps)).refs = d.ops.refs := by
  simp only [released, Function.update_self, Option.bind_some, if_true, Function.update_idem]
  funext x
  by_cases hx : x = ops.nextOps
  · subst hx
    rw [Function.update_self]
    cases hr : d.ops.refs ops.nextOps with
    | none => rfl
    | some r =>
        have := (hc _ r hr).1
        omega
  · rw [Function.update_of_ne hx, hrefs]

/-- The range that is recalculated is that of the table. -/
theorem kept_recalculated (ht : Tight env d) (htable : d'.snapDevices = d.snapDevices)
    (hdisks : d'.ops.bdOps = d.ops.bdOps) (hrefs : d'.ops.refs = d.ops.refs)
    (hdevs : ∀ c, c ≠ d.nextDev → d'.devs c = d.devs c) : Kept d (recalculated env d') := by
  refine ⟨htable, ?_, ?_, hdisks, hrefs, hdevs⟩
  · rw [← ht.1]
    simp only [recalculated, htable]
  · rw [← ht.2]
    simp only [recalculated, htable]

theorem Building.setupTracing (hb : Building d dev d') (hs : Sound env d) (htight : Tight env d) (hc : Counted d.ops)
    (hnone : dev.tracingOps = none) : wp (tracerSetupTracing env d.nextDev minor) d' (fun _ _ => True)
      (Fails fun _ d'' => Kept d d'' ∧ ∃ dev, d''.devs d.nextDev = some dev) := by
  let d₁ : DriverState := { d' with lowestMinor := min d'.lowestMinor minor, highestMinor := max d'.highestMinor minor }
  have hoff : Off d.nextDev d₁ := fun i hi => hs.fresh i (by rw [← hb.table]; exact hi)
  have hrange : ∀ {i c : Nat}, (upd d₁ d.nextDev { dev with minor := minor } d'.ops d'.clock).snapDevices i = some c →
      min d'.lowestMinor minor ≤ i ∧ i ≤ max d'.highestMinor minor := by
    intro i c hi
    obtain ⟨hlo, hhi⟩ := hs.range (i := i) (a := c) (by rw [← hb.table]; exact hi)
    rw [hb.low, hb.high]
    omega
  rw [tracerSetupTracing, wp_onCode]
  refine wp_weaken (Q := fun _ _ => True) (F := fun _ d'' => ∃ (o : Option Ops) (t : Option Nat) (ops : OpsState) (n : Nat),
    d'' = upd d₁ d.nextDev { dev with minor := minor, origOps := o, tracingOps := t } ops n ∧
      (released ops t).bdOps = d.ops.bdOps ∧ (released ops t).refs = d.ops.refs) ?_ (fun _ _ _ => trivial) ?_
  · simp only [wp_bind]
    rw [wp_onDev hb.self, wp_modifyDev]
    change wp _ (upd d₁ d.nextDev { dev with minor := minor } d'.ops d'.clock) _ _
    have hisNone : dev.tracingOps.isNone = true := by
      rw [hnone]
      rfl
    simp only [wp_getDev, upd_devs, Option.some.injEq, forall_eq', hisNone, if_true]
    rw [wp_bind]
    apply wp_weaken (findOrigFops_wp (d := upd d₁ d.nextDev { dev with minor := minor } d'.ops d'.clock) hoff upd_devs hrange)
    · rintro _ d₂ ⟨b, o, t, ops, n, rfl, hbase, hfound⟩
      replace hbase : dev.baseDev = some b := hbase
      rw [upd_ops, hb.ops] at hfound
      have hreleased := released_found hc hfound
      rw [upd_upd]
      cases t with
      | some t =>
          simp only [wp_bind, wp_getDev, upd_devs, Option.some.injEq, forall_eq', Option.isNone_some,
            Bool.false_eq_true, if_false, hbase]
          apply wp_weaken tracerTransitionTracing_wp
          · exact fun _ _ _ => trivial
          · rintro c d₃ ⟨rfl, -⟩
            exact ⟨o, some t, ops, n + 1, rfl, hreleased⟩
      | none =>
          have hops : ops = d.ops := by
            cases hfound <;> rfl
          subst hops
          simp only [wp_bind, wp_getDev, upd_devs, Option.some.injEq, forall_eq', Option.isNone_none, if_true]
          apply wp_weaken (tracingOpsAlloc_wp upd_devs)
          · rintro _ d₃ ⟨m, rfl⟩
            simp only [upd_upd, upd_devs, Option.some.injEq, forall_eq', hbase]
            apply wp_weaken tracerTransitionTracing_wp
            · exact fun _ _ _ => trivial
            · rintro c d₄ ⟨rfl, -⟩
              exact ⟨o, some d.ops.nextOps, _, m + 1, rfl, rfl, released_made hc rfl rfl⟩
          · rintro c d₃ ⟨m, rfl⟩
            exact ⟨o, none, d.ops, m, rfl, rfl, rfl⟩
    · rintro c d₂ ⟨o, n, rfl⟩
      rw [upd_ops, hb.ops, upd_upd]
      exact ⟨o, none, d.ops, n, rfl, rfl, rfl⟩
  · rintro c d₂ ⟨o, t, ops, n, rfl, hdisks, hrefs⟩
    simp only [wp_bind]
    rw [wp_onDev upd_devs, wp_modifyDev, upd_put]
    apply wp_weaken (freeMrfAndOps_wp upd_devs)
    · rintro _ d₃ rfl
      rw [minorRangeRecalculate_wp, upd_upd]
      refine ⟨kept_recalculated htight hb.table hdisks hrefs fun c hc => ?_, _, Function.update_self ..⟩
      exact (Function.update_of_ne hc ..).trans (hb.devs c hc)
    · exact fun _ _ h => h.elim

section

variable {α : Type} {h h' : Heap} {s : DriverState × Heap} {x : DevM α} {Q : α → DriverState × Heap → Prop}
  {F : Errno → DriverState × Heap → Prop}

theorem Building.onDev (hb : Building d dev s.1)
    (hx : wp x ⟨dev, s.1.clock⟩ (fun r l => ∀ d', Building d l.dev d' → Q r (d', s.2))
      (Fails fun c l => ∀ d', Building d l.dev d' → F c (d', s.2))) : wp (lift (onDev d.nextDev x)) s Q (Fails F) := by
  refine wp_lifted ((wp_onDev hb.self).mpr ?_)
  exact wp_weaken hx (fun _ _ h => h _ hb.put) fun _ _ h => h _ hb.put

theorem wp_watched {x : DriverM α} {f : DriverState → Heap → Heap}
    (hx : wp x s.1 (fun r t => Q r (t, f t s.2)) (Fails fun c t => F c (t, f t s.2))) :
    wp (watch f x) s Q (Fails F) := by
  rw [wp_watch]
  refine wp_mono hx (fun _ _ h => h) ?_
  intro e t ht
  cases e with
  | code c => exact ht
  | oops => trivial

/-- The new device is worked on where it is given up. -/
theorem Kept.onDev {x : DevM Unit} {f : DriverState → Heap → Heap} {R : Unit → DriverState × Heap → Prop}
    (hk : Kept d s.1) (hself : ∃ dev, s.1.devs d.nextDev = some dev)
    (hx : ∀ l, wp x l (fun _ _ => True) (Fails fun _ _ => False))
    (hR : ∀ d', Kept d d' → (∃ dev, d'.devs d.nextDev = some dev) → R () (d', f d' s.2)) :
    wp (watch f (State.onDev d.nextDev x)) s R (Fails F) := by
  obtain ⟨dev, hself⟩ := hself
  refine wp_watched ((wp_onDev hself).mpr (wp_weaken (hx _) ?_ fun _ _ h => h.elim))
  exact fun _ l _ => hR _ hk.put ⟨_, put_devs⟩

end

/-- Where memory for a device is refused, nothing has happened yet. -/
theorem tracerAlloc_refused {e : Errno} {Q : Nat → DriverState → Prop} {F : Errno → DriverState → Prop}
    (hf : env.fault d.clock = some e) (hF : ∀ c, F c (d.atCall (d.clock + 1))) : wp (tracerAlloc env) d Q (Fails F) := by
  simp only [tracerAlloc, check, wp_bind, wp_call, hf]
  exact hF _

theorem tracerAlloc_granted {Q : Nat → DriverState → Prop} {F : Errno → DriverState → Prop}
    (hf : env.fault d.clock = none) (hQ : Q d.nextDev (allocated d (d.clock + 1))) :
    wp (tracerAlloc env) d Q (Fails F) := by
  simp only [tracerAlloc, check, wp_bind, wp_call, hf]
  exact hQ

theorem copyCow_manager {x : Manager} {h : Heap} (hcow : h.cow a = some m) (hx : h.managers m = some x) :
    (copyCow a b h).managers m = some { x with dev := b } := by
  simp only [copyCow, hcow, Function.update_self, hx, Option.map_some]

/-- All managers but the one that the transition made for itself are as before. -/
structure HeapKept (a : Nat) (h h' : Heap) : Prop where
  cow : ∀ c, c ≠ a → h'.cow c = h.cow c
  managers : ∀ m, m < h.next → h'.managers m = h.managers m
  mine : ∀ m, h'.cow a = some m → m = h.next

variable {h h' : Heap}

theorem HeapKept.refl (hnone : h.cow a = none) : HeapKept a h h :=
  ⟨fun _ _ => rfl, fun _ _ => rfl, fun _ hm => by rw [hnone] at hm; cases hm⟩

theorem HeapKept.newCow {world : World} : HeapKept a h (newCow a world h) where
  cow _ hc := Function.update_of_ne hc ..
  managers _ hm := Function.update_of_ne (by omega) ..
  mine _ hm := by
    have hself : (Borrowed.newCow a world h).cow a = some h.next := Function.update_self ..
    exact (Option.some.inj (hself.symm.trans hm)).symm

theorem HeapKept.freeCow (hk : HeapKept a h h') : HeapKept a h (freeCow a h') := by
  unfold Borrowed.freeCow
  cases hm : h'.cow a with
  | none => exact hk
  | some m =>
      have := hk.mine m hm
      refine ⟨fun c hc => (Function.update_of_ne hc ..).trans (hk.cow c hc), fun m' hm' => ?_, fun _ hn => ?_⟩
      · exact (Function.update_of_ne (by omega) ..).trans (hk.managers m' hm')
      · cases (Function.update_self ..).symm.trans hn

theorem HeapKept.freeDev (hk : HeapKept a h h') : HeapKept a h (freeDev a h') where
  cow c hc := (Function.update_of_ne hc ..).trans (hk.cow c hc)
  managers := hk.managers
  mine _ hm := by cases (Function.update_self ..).symm.trans hm

/-- The transition to incremental mode that is called off has taken the back pointer along. -/
theorem heapSnapToInc_fails (old : Nat) (h : Heap) (hs : Sound env d) (htight : Tight env d) (hc : Counted d.ops)
    (hgrant : env.fault d.clock = none) : wp (heapSnapToInc env old) (d, h) (fun _ _ => True)
      (Fails fun _ s' => Kept d s'.1 ∧ s'.2 = freeDev d.nextDev (copyCow old d.nextDev h)) := by
  simp only [heapSnapToInc, wp_bind]
  apply wp_lifted
  apply tracerAlloc_granted hgrant
  apply building_allocated.onDev (s := (allocated d (d.clock + 1), h))
  rw [setMode, wp_modifyDev]
  intro d₁ h₁
  apply wp_lifted
  rw [wp_getDev]
  intro oldDev _
  apply wp_watched
  rw [wp_onDev h₁.self]
  simp only [wp_bind, tracerCopyBaseDev, tracerCopyCowPath, tracerCopyCow, wp_modifyDev]
  cases oldDev.cow with
  | none => trivial
  | some c =>
      simp only [Option.isNone_some, Bool.false_eq_true, if_false, wp_modifyDev, wp_pure]
      rw [wp_onCode]
      have h₂ := h₁.put (l := ⟨{ SnapDevice.zero with
        active := true
        size := oldDev.size
        baseDev := oldDev.baseDev
        bdevPath := oldDev.bdevPath
        cowPath := oldDev.cowPath
        cow := some c
        cacheSize := oldDev.cacheSize }, d₁.clock⟩)
      refine wp_weaken (Q := fun _ _ => True) (F := fun _ s => (Kept d s.1 ∧ ∃ dev, s.1.devs d.nextDev = some dev) ∧
        s.2 = copyCow old d.nextDev h) ?_ (fun _ _ _ => trivial) ?_
      · rw [wp_bind]
        apply h₂.onDev
        refine wp_weaken tracerSetupCowThread_wp (fun _ l hl d₃ h₃ => ?_) fun _ l _ d₃ h₃ => ?_
        · apply wp_lifted
          refine wp_weaken (h₃.setupTracing hs htight hc ?_) (fun _ _ _ => trivial) fun _ _ h => ⟨h, rfl⟩
          rw [hl]
          rfl
        · exact ⟨⟨h₃.kept, _, h₃.self⟩, rfl⟩
      · rintro e s ⟨⟨hk, hself⟩, hheap⟩
        rw [wp_bind]
        refine Kept.onDev hk hself tracerDestroyCowThread_always fun d₄ hk₄ _ => ?_
        apply wp_watched
        rw [kfree_wp]
        exact ⟨hk₄.freed, by rw [hheap]⟩

/-- The transition to snapshot mode that is called off leaves nothing behind. -/
theorem heapIncToSnap_fails (opened : Nat → World) (old : Nat) (hs : Sound env d) (htight : Tight env d) (hc : Counted d.ops)
    (hnone : h.cow d.nextDev = none) (hgrant : env.fault d.clock = none) :
    wp (heapIncToSnap env opened old) (d, h) (fun _ _ => True)
      (Fails fun _ s' => Kept d s'.1 ∧ HeapKept d.nextDev h s'.2) := by
  simp only [heapIncToSnap, wp_bind]
  apply wp_lifted
  apply tracerAlloc_granted hgrant
  apply building_allocated.onDev (s := (allocated d (d.clock + 1), h))
  rw [setMode, wp_modifyDev]
  intro d₁ h₁
  apply wp_lifted
  rw [wp_getDev]
  intro oldDev _
  apply h₁.onDev
  rw [tracerCopyBaseDev, wp_modifyDev]
  intro d₂ h₂
  rw [wp_onCode]
  refine wp_weaken (Q := fun _ _ => True) (F := fun _ s => (Kept d s.1 ∧ ∃ dev, s.1.devs d.nextDev = some dev) ∧
    HeapKept d.nextDev h s.2) ?_ (fun _ _ _ => trivial) ?_
  · cases oldDev.cow with
    | none => trivial
    | some c =>
        simp only [Option.isNone_some, Bool.false_eq_true, if_false, wp_bind]
        apply h₂.onDev
        simp only [wp_bind, wp_get]
        refine wp_weaken (tracerSetupCow_wp (by decide)) (fun _ l hl d₃ h₃ => ?_)
          fun _ l _ d₃ h₃ => ⟨⟨h₃.kept, _, h₃.self⟩, .refl hnone⟩
        rw [wp_note]
        apply h₃.onDev
        refine wp_weaken (?_ : wp _ _ (fun _ l => l.dev.tracingOps = none) (Fails fun _ _ => True))
          (fun _ l ht d₄ h₄ => ?_) fun _ l _ d₄ h₄ => ⟨⟨h₄.kept, _, h₄.self⟩, .newCow⟩
        · simp only [wp_bind]
          refine wp_weaken tracerSetupCowPath_wp (fun _ l₁ hl₁ => ?_) fun _ _ _ => trivial
          obtain ⟨p, hl₁⟩ := hl₁
          refine wp_weaken tracerSetupSnap_wp (fun _ l₂ hl₂ => ?_) fun _ _ _ => trivial
          refine wp_weaken tracerSetupCowThread_wp (fun _ l₃ hl₃ => ?_) fun _ _ _ => trivial
          rw [hl₃, hl₂, hl₁, hl]
          rfl
        · apply wp_lifted
          exact wp_weaken (h₄.setupTracing hs htight hc ht) (fun _ _ _ => trivial) fun _ _ h => ⟨h, .newCow⟩
  · rintro e s ⟨⟨hk, hself⟩, hheap⟩
    simp only [wp_bind]
    refine Kept.onDev (f := fun _ u => u) hk hself ?_ fun d₄ hk₄ hself₄ => ?_
    · intro l
      simp only [wp_bind]
      apply wp_weaken (tracerDestroyCowThread_always l)
      · intro _ l₁ _
        simp only [tracerDestroySnap, tracerDestroyCowPath, wp_modifyDev]
      · exact fun _ _ h => h
    · refine Kept.onDev hk₄ hself₄ (fun l => ?_) fun d₅ hk₅ _ => ?_
      · exact wp_weaken tracerDestroyCow_free_wp (fun _ _ _ => trivial) fun _ _ h => h
      · apply wp_watched
        rw [kfree_wp]
        exact ⟨hk₅.freed, hheap.freeCow.freeDev⟩

inductive Direction
  | toInc
  | toSnap
  deriving DecidableEq

/-- What a transition does as long as it can be called off. -/
def heapTransition (env : Env) (opened : Nat → World) (old : Nat) : Direction → HeapM Nat
  | .toInc => heapSnapToInc env old
  | .toSnap => heapIncToSnap env opened old

/-- A device in the table, with a manager that points back to it. -/
structure InPlace (env : Env) (s : DriverState × Heap) (old : Nat) : Prop where
  sound : Sound env s.1
  tight : Tight env s.1
  counted : Counted s.1.ops
  place : ∃ minor, s.1.snapDevices minor = some old
  manager : ∃ m x, s.2.cow old = some m ∧ m < s.2.next ∧ s.2.managers m = some x ∧ x.dev = old
  fresh : s.2.cow s.1.nextDev = none

/-- The table, the disks and the old device with its manager and the file are as before. -/
structure Unchanged (old : Nat) (s s' : DriverState × Heap) : Prop where
  table : s'.1.snapDevices = s.1.snapDevices
  low : s'.1.lowestMinor = s.1.lowestMinor
  high : s'.1.highestMinor = s.1.highestMinor
  disks : s'.1.ops.bdOps = s.1.ops.bdOps
  refs : s'.1.ops.refs = s.1.ops.refs
  device : s'.1.devs old = s.1.devs old
  cow : s'.2.cow old = s.2.cow old
  manager : ∀ m, s.2.cow old = some m → s'.2.managers m = s.2.managers m

/-- A transition that is called off has changed nothing exactly if it is one to snapshot mode, or there was no
memory for the new device. -/
theorem called_off_changes_nothing_iff (env : Env) (opened : Nat → World) (dir : Direction) (old : Nat)
    (s s' : DriverState × Heap) (e : Errno) (hin : InPlace env s old)
    (hrun : heapTransition env opened old dir s = .error (.code e) s') :
    Unchanged old s s' ↔ dir = .toSnap ∨ env.fault s.1.clock ≠ none := by
  obtain ⟨d, h⟩ := s
  obtain ⟨minor, hplace⟩ := hin.place
  have hold : old ≠ d.nextDev := hin.sound.fresh.ne hplace
  obtain ⟨m, x, hcow, hm, hx, hback⟩ := hin.manager
  have hkept : ∀ {t : DriverState}, Kept d t → ∀ u : Heap, u.cow old = h.cow old →
      (∀ m, h.cow old = some m → u.managers m = h.managers m) → Unchanged old (d, h) (t, u) :=
    fun hk _ hu hu' => ⟨hk.table, hk.low, hk.high, hk.disks, hk.refs, hk.devs old hold, hu, hu'⟩
  cases hf : env.fault d.clock with
  | some c =>
      refine ⟨fun _ => .inr (Option.some_ne_none c), fun _ => ?_⟩
      have hwp : wp (heapTransition env opened old dir) (d, h) (fun _ _ => True)
          (Fails fun _ s' => s' = (d.atCall (d.clock + 1), h)) := by
        cases dir with
        | toInc =>
            simp only [heapTransition, heapSnapToInc, wp_bind]
            exact wp_lifted (tracerAlloc_refused hf fun _ => rfl)
        | toSnap =>
            simp only [heapTransition, heapIncToSnap, wp_bind]
            exact wp_lifted (tracerAlloc_refused hf fun _ => rfl)
      have hs' := wp_error hwp hrun
      rw [fails_code] at hs'
      subst hs'
      exact hkept kept_atCall h rfl fun _ _ => rfl
  | none =>
      simp only [ne_eq, not_true_eq_false, or_false]
      cases dir with
      | toSnap =>
          refine ⟨fun _ => rfl, fun _ => ?_⟩
          have hfails := heapIncToSnap_fails opened old hin.sound hin.tight hin.counted hin.fresh hf
          obtain ⟨hk, hh⟩ := wp_error hfails hrun
          refine hkept hk s'.2 (hh.cow old hold) fun m' hm' => hh.managers m' ?_
          obtain rfl := Option.some.inj (hcow.symm.trans hm')
          exact hm
      | toInc =>
          refine ⟨fun hu => ?_, fun hdir => by cases hdir⟩
          have hfails := heapSnapToInc_fails old h hin.sound hin.tight hin.counted hf
          obtain ⟨-, hh⟩ := wp_error hfails hrun
          -- the manager points to the device that was freed
          have hmanager := hu.manager m hcow
          rw [hh, hx] at hmanager
          have hmanager := (copyCow_manager hcow hx).symm.trans hmanager
          have hdev := congrArg Manager.dev (Option.some.inj hmanager)
          exact absurd (hback.symm.trans hdev.symm) hold

/-- The machine on which the call after the first one fails. -/
def noThread : Env := { calm with fault := fun n => if n = 1 then some .enomem else none }

/-- A device at minor 0 whose manager points back to it. -/
def oneManager (dev : SnapDevice) : DriverState × Heap :=
  (calmState dev 0, ⟨update (fun _ => none) 0 (some 0), update (fun _ => none) 0 (some ⟨0, Cow.Start.calm⟩), 1⟩)

theorem oneManager_inPlace (hmin : dev.minor = 0) (hv : dev.unverified = false) :
    InPlace noThread (oneManager dev) 0 where
  sound := calmState_sound (by decide) hmin hv
  tight := ⟨rfl, rfl⟩
  counted t r h := by
    rcases Hooks.update_cases (show update (fun _ => none) 0 (some 1) t = some r from h) with ⟨rfl, hr⟩ | ⟨-, hr⟩
    · obtain rfl := Option.some.inj hr
      exact ⟨Nat.one_pos, Nat.one_pos, by decide⟩
    · cases hr
  place := ⟨0, rfl⟩
  manager := ⟨0, ⟨0, Cow.Start.calm⟩, rfl, Nat.one_pos, rfl, rfl⟩
  fresh := rfl

def resulting {ε σ α : Type} : EStateM.Result ε σ α → σ
  | .ok _ s => s
  | .error _ s => s

def calmInc : SnapDevice := { calmSnap 0 with snapshot := false }

theorem called_off_changes_nothing_toSnap : ∃ s',
    heapTransition noThread (fun _ => Cow.Start.calm) 0 .toSnap (oneManager calmInc) = .error (.code .enomem) s' ∧
      Unchanged 0 (oneManager calmInc) s' :=
  ⟨resulting (heapTransition noThread (fun _ => Cow.Start.calm) 0 .toSnap (oneManager calmInc)), rfl,
    (called_off_changes_nothing_iff noThread (fun _ => Cow.Start.calm) .toSnap 0 _ _ .enomem (oneManager_inPlace rfl rfl)
      rfl).mpr (.inl rfl)⟩

/-- The manager of a snapshot that could not be made incremental points to a device that was freed. -/
theorem called_off_leaves_back_pointer : ¬ ∀ (env : Env) (opened : Nat → World) (dir : Direction) (old : Nat)
    (s s' : DriverState × Heap) (e : Errno), InPlace env s old →
      heapTransition env opened old dir s = .error (.code e) s' → Unchanged old s s' := by
  intro h
  have hu := h noThread (fun _ => Cow.Start.calm) .toInc 0 (oneManager (calmSnap 0))
    (resulting (heapTransition noThread (fun _ => Cow.Start.calm) 0 .toInc (oneManager (calmSnap 0)))) .enomem
    (oneManager_inPlace rfl rfl) rfl
  have hmanager := hu.manager 0 rfl
  have hdev := congrArg (Option.map Manager.dev) hmanager
  revert hdev
  decide

end ElastioSnap.Driver.Borrowed
