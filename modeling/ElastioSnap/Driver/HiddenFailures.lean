import ElastioSnap.Driver.Dismantled

namespace ElastioSnap.Driver.HiddenFailures

open Lib.Outcome Lib.Runs Handovers Dismantled Cow.Manager Cow.Lifecycle
open Cow.Protocol (left)

variable {ps : Nat} {w w' : World} {t t' : Device × World} {a : Work} {stop old : Bool} {s s' s₀ : State} {x : Action}

/-- A failure of the device that was left can be seen. -/
def Shows (f : Finished) : Prop := f.oldFailed = true → f.isError = true ∨ f.newFailed = true ∨ f.clean = false

/-- The thread has seen the failure of its device. -/
def noticed (dev : Device) : Bool := decide (dev.cowThread.map Thread.isFailed = some true)

/-- The old device of a transition to snapshot mode has failed, and its thread does not know. -/
def unnoticed (s : State) : Bool :=
  match s.doing with
  | .snapTraced old _ => old.fail && !noticed old
  | _ => false

def Noticed (s : State) : Action → Prop
  | .stopThread => unnoticed s = false
  | _ => True

instance (s : State) (x : Action) : Decidable (Noticed s x) :=
  match x with
  | .stopThread => inferInstanceAs (Decidable (_ = false))
  | .work .. | .transitionInc | .traceInc _ | .transitionSnap | .traceSnap .. | .readFailState | .truncate | .warn
  | .syncAndFree | .seeUmount | .umount | .syncAndClose | .umounted _ | .seeMount | .mount _ | .reconfigure _
  | .destroy _ | .free => .isTrue trivial

/-- A thread that knows of the failure has dismantled the COW manager. -/
def Latched (t : Device × World) : Prop := noticed t.1 = true → t.2.cm.sects = none

theorem none_congr (hh : heldPart w' = heldPart w) (h : w.cm.sects = none) : w'.cm.sects = none := by
  rw [← Option.isNone_iff_eq_none, ← Option.not_isSome, (Prod.mk.inj hh).1, h]
  rfl

theorem Latched.held (h : Latched t) (hh : heldPart w' = heldPart t.2) : Latched (t.1, w') :=
  fun hn => none_congr hh (h hn)

theorem latched_of_thread {dev : Device} (h : noticed dev = false) : Latched (dev, w) := by
  intro hn
  cases h.symm.trans hn

theorem work_none (hr : a.run ps stop t = some t') (h : t.2.cm.sects = none) : t'.2.cm.sects = none := by
  obtain ⟨hw, -⟩ := work_cases hr
  cases hw with
  | latched _ hs => exact hs
  | went _ hw => exact none_congr hw.held h

theorem Latched.work (h : Latched t) (hr : a.run ps stop t = some t') : Latched t' := by
  obtain ⟨hw, -⟩ := work_cases hr
  cases hw with
  | latched _ hs => exact fun _ => hs
  | went _ hw =>
      intro hn
      refine none_congr hw.held (h ?_)
      rwa [noticed, hw.latch] at hn

/-- What is known of the old device of a transition. -/
def Known (s : State) : Prop :=
  match s.doing with
  | .incTraced old => Latched (old, s.world)
  | .incWoken oldFailed | .incWarns oldFailed => oldFailed = false
  | .snapTraced old cow => Latched (old, cow)
  | .snapStopped oldFailed cow => oldFailed = true → cow.cm.sects = none
  | _ => True

structure Shown (s : State) : Prop where
  shows : ∀ f ∈ s.finished, Shows f
  latched : Latched (s.dev, s.world)

structure Inv (s : State) : Prop extends Shown s where
  known : Known s

theorem Shown.finish {f : Finished} (h : Shown s) (hf : Shows f) : Inv (s.finish f) where
  shows := by
    intro g hg
    rcases List.mem_append.mp hg with hg | hg
    · exact h.shows g hg
    · obtain rfl := List.mem_singleton.mp hg
      exact hf
  latched := h.latched
  known := trivial

theorem Inv.put (h : Inv s) (ht : s.side old = some t) (hr : a.run ps stop t = some t') : Inv (s.put old t') := by
  obtain ⟨dev, world, doing, umounts, checks, mounts, finished⟩ := s
  cases old with
  | true =>
      cases doing with
      | incTraced o =>
          cases ht
          have hkeep : world.cm.sects = none → t'.2.cm.sects = none := work_none hr
          exact ⟨⟨h.shows, fun hn => hkeep (h.latched hn)⟩, Latched.work h.known hr⟩
      | snapTraced o cow =>
          cases ht
          exact ⟨⟨h.shows, h.latched⟩, Latched.work h.known hr⟩
      | _ => cases ht
  | false =>
      cases ht
      have hl := h.latched.work hr
      cases doing with
      | incTraced o =>
          have hkeep : world.cm.sects = none → t'.2.cm.sects = none := work_none hr
          exact ⟨⟨h.shows, hl⟩, fun hn => hkeep (h.known hn)⟩
      | _ => exact ⟨⟨h.shows, hl⟩, h.known⟩

theorem Inv.stopThread (h : Inv s) (hc : Noticed s .stopThread) (hs : tracerDestroyCowThread s = some s') : Inv s' := by
  obtain ⟨dev, world, doing, umounts, checks, mounts, finished⟩ := s
  cases doing with
  | incTraced o =>
      obtain ⟨_, hs⟩ := Option.ite_none_right_eq_some.mp hs
      cases hs
      exact ⟨⟨h.shows, h.latched⟩, trivial⟩
  | snapTraced o cow =>
      obtain ⟨_, hs⟩ := Option.ite_none_right_eq_some.mp hs
      cases hs
      refine ⟨⟨h.shows, latched_of_thread rfl⟩, fun hf => h.known ?_⟩
      have hn : (o.fail && !noticed o) = false := hc
      rw [show o.fail = true from hf, Bool.true_and, Bool.not_eq_false'] at hn
      exact hn
  | toDormant =>
      obtain ⟨_, hs⟩ := Option.ite_none_right_eq_some.mp hs
      cases hs
      exact ⟨⟨h.shows, latched_of_thread rfl⟩, trivial⟩
  | _ => cases hs

theorem Inv.traceInc {ok : Bool} (h : Inv s) : Inv (tracerActiveSnapToInc s ok) := by
  cases ok with
  | true => exact ⟨⟨h.shows, latched_of_thread rfl⟩, h.latched⟩
  | false => exact h.toShown.finish fun _ => .inl rfl

theorem Inv.traceSnap {elements fileMax : UInt64} {cacheSize : Nat} {ok : Bool} (h : Inv s) :
    Inv (tracerActiveIncToSnap ps s elements fileMax cacheSize w ok) := by
  unfold tracerActiveIncToSnap
  split
  next =>
    split
    next => exact ⟨⟨h.shows, latched_of_thread rfl⟩, h.latched⟩
    next => exact h.toShown.finish fun _ => .inl rfl
  next => exact h.toShown.finish fun _ => .inl rfl

theorem Inv.readFailState {f : Bool} (h : Inv s) : Inv (readFailState s f) := by
  unfold Handovers.readFailState
  split
  next => exact Shown.finish ⟨h.shows, latched_of_thread rfl⟩ fun _ => .inl rfl
  next hf => exact ⟨⟨h.shows, latched_of_thread rfl⟩, Bool.eq_false_iff.mpr hf⟩

theorem Inv.truncate {f : Bool} (h : Inv s) (hf : f = false) : Inv (truncateToIndex s f) := by
  obtain rfl := hf
  unfold truncateToIndex
  split
  next =>
    split
    next w hw =>
      have hh := wp_ok (preserves_cowTruncateToIndex s.world) hw
      exact Shown.finish ⟨h.shows, h.latched.held hh⟩ nofun
    next w hw =>
      have hh := wp_error (preserves_cowTruncateToIndex s.world) hw
      exact ⟨⟨h.shows, h.latched.held hh⟩, rfl⟩
  next => exact ⟨⟨h.shows, h.latched⟩, trivial⟩

theorem Inv.warn {f : Bool} (h : Inv s) (hf : f = false) : Inv (warnTruncation s f) := by
  obtain rfl := hf
  unfold warnTruncation
  split
  next => exact h.toShown.finish nofun
  next => exact ⟨⟨h.shows, h.latched⟩, trivial⟩

theorem Inv.syncAndFree {f : Bool} {cow : World} (h : Inv s) (hf : f = true → cow.cm.sects = none) :
    Inv (tracerDestroyCowSyncAndFree ps s f cow) := by
  unfold tracerDestroyCowSyncAndFree
  split
  next hp =>
    refine h.toShown.finish fun hn => ?_
    have hsome := (Bool.and_eq_true_iff.mp hp).1
    rw [hf hn] at hsome
    cases hsome
  next => exact ⟨⟨h.shows, h.latched⟩, trivial⟩

theorem Inv.syncAndClose (h : Inv s) : Inv (tracerDestroyCowSyncAndClose ps s) := by
  unfold tracerDestroyCowSyncAndClose
  split
  next hp =>
    have hthread : noticed s.dev = false := by
      refine Bool.eq_false_iff.mpr fun hn => ?_
      have hsome := (Bool.and_eq_true_iff.mp hp).1
      rw [h.latched hn] at hsome
      cases hsome
    split
    next => exact ⟨⟨h.shows, latched_of_thread hthread⟩, trivial⟩
    next => exact ⟨⟨h.shows, latched_of_thread hthread⟩, trivial⟩
  next => exact ⟨⟨h.shows, h.latched⟩, trivial⟩

theorem Inv.mount {ok : Bool} (h : Inv s) (hi : s.doing = .idle) : Inv (tracerDormantToActive s ok) := by
  have hidle : ∀ {dev : Device} {w : World}, Latched (dev, w) → Inv { s with dev := dev, world := w } := by
    intro dev w hl
    refine ⟨⟨h.shows, hl⟩, ?_⟩
    rw [Known, hi]
    trivial
  unfold tracerDormantToActive
  split
  next =>
    split
    next => exact hidle (latched_of_thread rfl)
    next => exact hidle (latched_of_thread rfl)
  next w hw =>
    have hsome := wp_error cowReopen_held hw
    refine hidle fun hn => ?_
    rw [← Option.isNone_iff_eq_none, ← Option.not_isSome, hsome, h.latched hn]
    rfl

theorem Inv.reconfigure {cacheSize : Nat} (h : Inv s) (hi : s.doing = .idle) :
    Inv (tracerReconfigure ps cacheSize s) := by
  unfold tracerReconfigure
  split
  next =>
    refine ⟨⟨h.shows, h.latched.held rfl⟩, ?_⟩
    rw [Known, hi]
    trivial
  next => exact h

theorem Inv.destroy {last : Bool} (h : Inv s) : Inv (tracerDestroy s last) := by
  refine ⟨⟨h.shows, ?_⟩, trivial⟩
  rw [tracerDestroy]
  split
  next => exact latched_of_thread rfl
  next => exact h.latched

theorem Inv.step (h : Inv s) (hc : Noticed s x) (hs : Step ps s x s') : Inv s' := by
  have hknown := h.known
  cases hs with
  | faults | transitionInc | transitionSnap | umount => exact ⟨⟨h.shows, h.latched⟩, trivial⟩
  | work ht _ hr => exact h.put ht hr
  | traceInc => exact h.traceInc
  | traceSnap => exact h.traceSnap
  | stopThread hs => exact h.stopThread hc hs
  | readFailState => exact h.readFailState
  | truncate hi =>
      rw [Known, hi] at hknown
      exact h.truncate hknown
  | warn hi =>
      rw [Known, hi] at hknown
      exact h.warn hknown
  | syncAndFree hi =>
      rw [Known, hi] at hknown
      exact h.syncAndFree hknown
  | syncAndClose => exact h.syncAndClose
  | mount ok n hi => exact Inv.mount (s := { s with mounts := n }) ⟨⟨h.shows, h.latched⟩, h.known⟩ hi
  | reconfigure _ hi => exact h.reconfigure hi
  | destroy => exact h.destroy
  | free => exact ⟨⟨h.shows, latched_of_thread rfl⟩, trivial⟩
  | seeUmount | seeMount | umounted => exact ⟨⟨h.shows, h.latched⟩, h.known⟩

theorem inv_begins (h : Begins ps s) : Inv s := by
  cases h <;> exact ⟨⟨nofun, latched_of_thread rfl⟩, trivial⟩

/-- A transition to snapshot mode does not look at the fail state of the old device again. Where the thread has
noticed a failure the ioctl does not come to its end. -/
theorem transition_shows_failure (h₀ : Begins ps s₀) (h : Reach (step ps) Noticed s₀ s) :
    ∀ f ∈ s.finished, f.oldFailed = true → f.isError = true ∨ f.newFailed = true ∨ f.clean = false :=
  (h.invariant (inv_begins h₀) fun _ _ _ hs hc hstep => hs.step hc (step_of hstep)).shows

def toSnap : List Action :=
  [.transitionSnap, .traceSnap 8 65536 65536 Cow.Start.calm true, .stopThread, .syncAndFree]

/-- Two transitions, and one whose old device fails. -/
def failsAtLast : List Action := toInc ++ writeFive ++ toSnap ++ writeFive ++
  [.transitionInc, .traceInc true, .work true .fails, .stopThread, .readFailState]

theorem transition_shows_failure_example : ∃ s, run (step 12) (.created true setUp) failsAtLast = some s ∧
    s.finished = [⟨false, false, false, false⟩, ⟨false, false, false, true⟩, ⟨true, true, true, false⟩] ∧
    ∀ f ∈ s.finished, f.oldFailed = true → f.isError = true ∨ f.newFailed = true ∨ f.clean = false := by
  have h : (run (step 12) (.created true setUp) failsAtLast).map (·.finished) =
      some [⟨false, false, false, false⟩, ⟨false, false, false, true⟩, ⟨true, true, true, false⟩] := by
    decide +kernel
  have ha : Allowed (step 12) Noticed (.created true setUp) failsAtLast := by decide +kernel
  obtain ⟨s, hs, hfin⟩ := Option.map_eq_some_iff.mp h
  exact ⟨s, hs, hfin, transition_shows_failure begins_setUp (Reach.init.run hs ha)⟩

/-- A sector set is not made for a bio while the thread is at its last one. -/
def failsUnnoticed : List Action := toInc ++
  [.work false (.enqueue [.writeFillerMapping 5]), .work false .wait, .work false .look, .transitionSnap,
   .work false .fails, .traceSnap 8 65536 65536 Cow.Start.calm true, .work true .handle, .stopThread, .syncAndFree]

theorem transition_hides_failure : ∃ s₀ as s, Begins 12 s₀ ∧ run (step 12) s₀ as = some s ∧
    ∃ f ∈ s.finished, f.oldFailed = true ∧ f.isError = false ∧ f.newFailed = false ∧ f.clean = true := by
  have h : (run (step 12) (.created true setUp) failsUnnoticed).map (·.finished) =
      some [⟨false, false, false, false⟩, ⟨false, true, false, true⟩] := by decide +kernel
  obtain ⟨s, hs, hfin⟩ := Option.map_eq_some_iff.mp h
  refine ⟨_, _, s, begins_setUp, hs, ⟨false, true, false, true⟩, ?_, rfl, rfl, rfl, rfl⟩
  rw [hfin]
  exact List.mem_cons_of_mem _ List.mem_cons_self

end ElastioSnap.Driver.HiddenFailures
