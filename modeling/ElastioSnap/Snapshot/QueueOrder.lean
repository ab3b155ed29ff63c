import ElastioSnap.Snapshot.Machine

namespace ElastioSnap.Snapshot.QueueOrder

open Lib.Runs Lib.Table Queue Tracking CowThread
open Machine (disk)

/-- What is done with `sd_cow_bios`. The n-th bio that is added has the number n for its `id`. -/
inductive Op
  | add (isWrite : Bool) (sector size : Nat)
  | dequeue
  deriving DecidableEq, Repr

/-- The queue, with the bios that were ever added and those dequeued, in their order. -/
structure History where
  added : List Bio
  cowBios : List Bio
  dequeued : List Bio
  deriving DecidableEq, Repr

def History.empty : History :=
  ⟨[], [], []⟩

def bioQueueAdd (bio : Bio) (q : List Bio) : List Bio :=
  q ++ [bio]

def step (s : History) : Op → Option History
  | .add isWrite sector size =>
      let bio : Bio := ⟨isWrite, sector, size, s.added.length⟩
      some { s with added := s.added ++ [bio], cowBios := bioQueueAdd bio s.cowBios }
  | .dequeue => (bioQueueDequeueDelayRead s.cowBios).map fun r =>
      { s with cowBios := r.2, dequeued := s.dequeued ++ [r.1] }

section

variable {β : Type} (d : Device) (clone : Nat → Clone β)

/-- `snap_handle_write_bio` passes a page of the clone for the block to `cow_write_current`. -/
def Covers (bio : Bio) (b : Nat) : Prop :=
  bio.isWrite = true ∧ bio.sector / d.sectorsPerBlock ≤ b ∧ b < bio.sector / d.sectorsPerBlock + (clone bio.id).pages

instance (bio : Bio) (b : Nat) : Decidable (Covers d clone bio b) :=
  inferInstanceAs (Decidable (_ ∧ _ ∧ _))

/-- The page for a block. -/
def page (bio : Bio) (b : Nat) : Nat → β :=
  fun o => (clone bio.id).data ((clone bio.id).sect + d.sectorsPerBlock * (b - bio.sector / d.sectorsPerBlock) + o)

/-- What the blocks hold after `cow_write_current` on all pages of the clones, in the order in which
they are dequeued. -/
def stored (bios : List Bio) : Nat → Option (Nat → β) :=
  bios.foldl (fun saved bio => if bio.isWrite then writePages d bio (clone bio.id) (clone bio.id).pages saved else saved)
    fun _ => none

/-- No write shares a block with the first later write that overlaps the read at the head. -/
def KeepsOrder (s : History) : Op → Prop
  | .dequeue => ∀ bio pre tmp post, s.cowBios = bio :: (pre ++ tmp :: post) → bio.isWrite = false → tmp.isWrite = true →
      bioOverlap bio tmp = true → (∀ w ∈ pre, w.isWrite = true → bioOverlap bio w = false) →
      ∀ w ∈ pre, ∀ b, ¬ (Covers d clone w b ∧ Covers d clone tmp b)
  | .add .. => True

end

variable {β : Type} {d : Device} {clone : Nat → Clone β} {s t : History} {op : Op} {bio older : Bio} {b n i j : Nat}

/-- Of two clones that share a block the one added first is dequeued first. -/
structure Ordered (d : Device) (clone : Nat → Clone β) (s : History) : Prop where
  ids : ∀ (i : Nat) (bio : Bio), s.added[i]? = some bio → bio.id = i
  sorted : (clones s.cowBios).Pairwise fun x y => x.id < y.id
  somewhere : ∀ bio ∈ s.added, bio.isWrite = true → bio ∈ clones s.cowBios ∨ bio ∈ s.dequeued
  queued : ∀ bio ∈ s.cowBios, bio ∈ s.added
  dequeued : ∀ bio ∈ s.dequeued, bio ∈ s.added
  order : ∀ (n : Nat) (bio : Bio), s.dequeued[n]? = some bio → ∀ older ∈ s.added, older.id < bio.id →
    (∃ b, Covers d clone older b ∧ Covers d clone bio b) → ∃ m < n, s.dequeued[m]? = some older

theorem Ordered.id_lt (h : Ordered d clone s) (hb : bio ∈ s.added) : bio.id < s.added.length := by
  obtain ⟨i, hi⟩ := List.mem_iff_getElem?.mp hb
  rw [h.ids i bio hi]
  exact (List.getElem?_eq_some_iff.mp hi).1

theorem Ordered.add (h : Ordered d clone s) (isWrite : Bool) (sector size : Nat) :
    Ordered d clone { s with
      added := s.added ++ [⟨isWrite, sector, size, s.added.length⟩]
      cowBios := bioQueueAdd ⟨isWrite, sector, size, s.added.length⟩ s.cowBios } where
  ids i bio hi := by
    rcases append_some hi with hi | ⟨rfl, rfl⟩
    · exact h.ids i bio hi
    · rfl
  sorted := by
    simp only [bioQueueAdd, clones_append]
    refine List.pairwise_append.mpr ⟨h.sorted, ?_, fun x hx y hy => ?_⟩
    · exact (List.pairwise_singleton _ _).filter _
    · rw [List.mem_singleton.mp (List.mem_of_mem_filter hy)]
      exact h.id_lt (h.queued x (mem_clones.mp hx).1)
  somewhere bio hb hw := by
    simp only [bioQueueAdd, clones_append, List.mem_append]
    rcases List.mem_append.mp hb with hb | hb
    · exact (h.somewhere bio hb hw).imp .inl id
    · exact .inl (.inr (mem_clones.mpr ⟨hb, hw⟩))
  queued bio hb := by
    rcases List.mem_append.mp hb with hb | hb
    · exact List.mem_append_left _ (h.queued bio hb)
    · exact List.mem_append_right _ hb
  dequeued bio hb := List.mem_append_left _ (h.dequeued bio hb)
  order n bio hn older ho hlt hs := by
    rcases List.mem_append.mp ho with ho | ho
    · exact h.order n bio hn older ho hlt hs
    · rw [List.mem_singleton.mp ho] at hlt
      have := h.id_lt (h.dequeued bio (List.mem_of_getElem? hn))
      exact absurd hlt (by simp only; omega)

/-- No older clone that shares a block with the dequeued one is left in the queue. -/
theorem Ordered.none_left {rest : List Bio} (h : Ordered d clone s) (hk : KeepsOrder d clone s .dequeue)
    (hd : bioQueueDequeueDelayRead s.cowBios = some (bio, rest)) (ho : older ∈ clones s.cowBios)
    (hlt : older.id < bio.id) : ¬ (Covers d clone older b ∧ Covers d clone bio b) := by
  rintro ⟨hco, hcb⟩
  have hsort := h.sorted
  rcases dequeue_cases hd with ⟨hq, _⟩ | ⟨r, pre, post, hq, _, hr, hw, hov, hpre⟩
  · rw [hq, clones_write hcb.1] at ho hsort
    rcases List.mem_cons.mp ho with rfl | ho
    · exact Nat.lt_irrefl _ hlt
    · have := List.rel_of_pairwise_cons hsort ho
      omega
  · rw [hq, clones_read hr, clones_append, clones_write hw] at ho hsort
    rcases List.mem_append.mp ho with ho | ho
    · exact hk r pre bio post hq hr hw hov hpre older (mem_clones.mp ho).1 b ⟨hco, hcb⟩
    · rcases List.mem_cons.mp ho with rfl | ho
      · exact Nat.lt_irrefl _ hlt
      · have := List.rel_of_pairwise_cons (List.pairwise_append.mp hsort).2.1 ho
        omega

theorem dequeue_sublist {q rest : List Bio} (hd : bioQueueDequeueDelayRead q = some (bio, rest)) :
    (clones rest).Sublist (clones q) ∧ ∀ w ∈ clones q, w ∈ clones rest ∨ w = bio := by
  cases hb : bio.isWrite with
  | true =>
      obtain ⟨pre, post, hpre, hpost⟩ := dequeue_write hd hb
      rw [hpre, hpost]
      refine ⟨(List.Sublist.refl pre).append (List.sublist_cons_self bio post), fun w hw => ?_⟩
      rcases List.mem_append.mp hw with hw | hw
      · exact .inl (List.mem_append_left _ hw)
      · rcases List.mem_cons.mp hw with rfl | hw
        · exact .inr rfl
        · exact .inl (List.mem_append_right _ hw)
  | false =>
      rw [(dequeue_read hd hb).1]
      exact ⟨.refl _, fun w hw => .inl hw⟩

theorem dequeue_mem {q rest : List Bio} (hd : bioQueueDequeueDelayRead q = some (bio, rest)) :
    bio ∈ q ∧ ∀ w ∈ rest, w ∈ q := by
  rcases dequeue_cases hd with ⟨rfl, _⟩ | ⟨r, pre, post, rfl, rfl, _⟩
  · exact ⟨List.mem_cons_self, fun w hw => List.mem_cons_of_mem _ hw⟩
  · simp only [List.mem_cons, List.mem_append]
    exact ⟨by tauto, fun w hw => by tauto⟩

theorem Ordered.dequeue {rest : List Bio} (h : Ordered d clone s) (hk : KeepsOrder d clone s .dequeue)
    (hd : bioQueueDequeueDelayRead s.cowBios = some (bio, rest)) :
    Ordered d clone { s with cowBios := rest, dequeued := s.dequeued ++ [bio] } where
  ids := h.ids
  sorted := h.sorted.sublist (dequeue_sublist hd).1
  somewhere w hw hwr := by
    rcases h.somewhere w hw hwr with hw | hw
    · rcases (dequeue_sublist hd).2 w hw with hw | rfl
      · exact .inl hw
      · exact .inr (List.mem_append_right _ List.mem_cons_self)
    · exact .inr (List.mem_append_left _ hw)
  queued w hw := h.queued w ((dequeue_mem hd).2 w hw)
  dequeued w hw := by
    rcases List.mem_append.mp hw with hw | hw
    · exact h.dequeued w hw
    · rw [List.mem_singleton.mp hw]
      exact h.queued bio (dequeue_mem hd).1
  order n w hn older ho hlt hs := by
    have old : ∀ m < s.dequeued.length, s.dequeued[m]? = some older →
        ∃ m < s.dequeued.length, (s.dequeued ++ [bio])[m]? = some older :=
      fun m hm he => ⟨m, hm, (List.getElem?_append_left hm).trans he⟩
    rcases append_some hn with hn | ⟨rfl, rfl⟩
    · obtain ⟨m, hm, he⟩ := h.order n w hn older ho hlt hs
      have hlen := (List.getElem?_eq_some_iff.mp hn).1
      exact ⟨m, hm, (List.getElem?_append_left (by omega)).trans he⟩
    · obtain ⟨b, hb⟩ := hs
      rcases h.somewhere older ho hb.1.1 with hq | hq
      · exact absurd hb (h.none_left hk hd hq hlt)
      · obtain ⟨m, hm⟩ := List.mem_iff_getElem?.mp hq
        exact old m (List.getElem?_eq_some_iff.mp hm).1 hm

theorem Ordered.step (h : Ordered d clone s) (hk : KeepsOrder d clone s op) (hst : step s op = some t) :
    Ordered d clone t := by
  cases op with
  | add isWrite sector size =>
      cases hst
      exact h.add isWrite sector size
  | dequeue =>
      obtain ⟨⟨bio, rest⟩, hd, rfl⟩ := Option.map_eq_some_iff.mp hst
      exact h.dequeue hk hd

theorem ordered_empty : Ordered d clone .empty where
  ids i bio hi := by cases hi
  sorted := .nil
  somewhere bio hb := by cases hb
  queued bio hb := by cases hb
  dequeued bio hb := by cases hb
  order n bio hn := by cases hn

theorem ordered_reach (h : Reach QueueOrder.step (KeepsOrder d clone) .empty s) : Ordered d clone s :=
  h.invariant ordered_empty fun _ _ _ hs hc hstep => hs.step hc hstep

/-- The first clone that is dequeued for a block is the one that is kept. -/
theorem stored_snoc {bios : List Bio} : stored d clone (bios ++ [bio]) b =
    (stored d clone bios b).or (if Covers d clone bio b then some (page d clone bio b) else none) := by
  simp only [stored, List.foldl_append, List.foldl_cons, List.foldl_nil, Covers]
  by_cases hw : bio.isWrite = true
  · simp only [hw, if_true, true_and]
    rfl
  · simp only [hw, if_false, false_and, Bool.false_eq_true, Option.or_none]

/-- What is stored for a block is the page of a clone before which none that covers the block was
dequeued. -/
theorem stored_first {bios : List Bio} : (stored d clone bios b = none ∧ ∀ w ∈ bios, ¬ Covers d clone w b) ∨
    ∃ (n : Nat) (bio : Bio), bios[n]? = some bio ∧ Covers d clone bio b ∧ stored d clone bios b = some (page d clone bio b) ∧
      ∀ m < n, ∀ w : Bio, bios[m]? = some w → ¬ Covers d clone w b := by
  induction bios using List.reverseRecOn with
  | nil => exact .inl ⟨rfl, fun _ hw => (List.not_mem_nil hw).elim⟩
  | append_singleton bios bio ih =>
      rw [stored_snoc]
      rcases ih with ⟨hn, hnone⟩ | ⟨n, first, hfirst, hcov, hst, hbefore⟩
      · rw [hn, Option.none_or]
        by_cases hc : Covers d clone bio b
        · rw [if_pos hc]
          refine .inr ⟨bios.length, bio, List.getElem?_concat_length, hc, rfl, fun m hm w hw => ?_⟩
          rw [List.getElem?_append_left hm] at hw
          exact hnone w (List.mem_of_getElem? hw)
        · rw [if_neg hc]
          refine .inl ⟨rfl, fun w hw => ?_⟩
          rcases List.mem_append.mp hw with hw | hw
          · exact hnone w hw
          · rw [List.mem_singleton.mp hw]
            exact hc
      · have hlen := (List.getElem?_eq_some_iff.mp hfirst).1
        rw [hst]
        refine .inr ⟨n, first, append_old hfirst, hcov, rfl, fun m hm w hw => hbefore m hm w ?_⟩
        rwa [List.getElem?_append_left (by omega)] at hw

/-- In every run in which no dequeue takes a write past an earlier one of the same block, clones that
share a block are dequeued in the order in which they were added, and the content that is kept for a
block is that of the clone added first. -/
theorem captures_in_order (h : Reach step (KeepsOrder d clone) .empty s) :
    (∀ (i j : Nat) (older bio : Bio), i < j → s.added[i]? = some older → s.added[j]? = some bio →
      (∃ b, Covers d clone older b ∧ Covers d clone bio b) →
      ∀ n : Nat, s.dequeued[n]? = some bio → ∃ m < n, s.dequeued[m]? = some older) ∧
    ∀ b, ∀ w ∈ s.dequeued, Covers d clone w b → ∃ (i : Nat) (first : Bio), s.added[i]? = some first ∧ Covers d clone first b ∧
      (∀ j < i, ∀ older : Bio, s.added[j]? = some older → ¬ Covers d clone older b) ∧
      stored d clone s.dequeued b = some (page d clone first b) := by
  have ho := ordered_reach h
  have hids : ∀ {i : Nat} {bio : Bio}, s.added[i]? = some bio → bio.id = i := fun {i bio} hi => ho.ids i bio hi
  constructor
  · intro i j older bio hij hi hj hs n hn
    exact ho.order n bio hn older (List.mem_of_getElem? hi) (by rw [hids hi, hids hj]; exact hij) hs
  · intro b w hw hcov
    rcases stored_first (d := d) (b := b) with ⟨_, hnone⟩ |
      ⟨n, first, hfirst, hc, hst, hbefore⟩
    · exact absurd hcov (hnone w hw)
    · obtain ⟨i, hi⟩ := List.mem_iff_getElem?.mp (ho.dequeued first (List.mem_of_getElem? hfirst))
      refine ⟨i, first, hi, hc, fun j hj older hjo hco => ?_, hst⟩
      obtain ⟨m, hm, he⟩ := ho.order n first hfirst older (List.mem_of_getElem? hjo)
        (by rw [hids hi, hids hjo]; exact hj) ⟨b, hco, hc⟩
      exact hbefore m hm older he hco

/-- Clones from the first sector on, each with a page more. -/
def nested (n : Nat) : Clone Nat where
  addr := n
  tp := 0
  sect := 0
  pages := n + 1
  stage := .queued
  left := 8 * (n + 1)
  data _ := n

theorem keepsOrder_write {clone : Nat → Clone Nat} {h : History} {w : Bio} {q : List Bio} (hq : h.cowBios = w :: q)
    (hw : w.isWrite = true) : KeepsOrder disk clone h .dequeue := by
  intro r pre tmp post hs hr
  rw [hq] at hs
  cases hs
  rw [hw] at hr
  cases hr

/-- A read with three clones: the first one is elsewhere, the second one in the read, and the third one, which has a block
with each of them, is added when the second one has passed the read. -/
def waiting : History := ⟨[⟨false, 0, 8, 0⟩, ⟨true, 24, 0, 1⟩, ⟨true, 0, 0, 2⟩],
  [⟨false, 0, 8, 0⟩, ⟨true, 24, 0, 1⟩, ⟨true, 0, 0, 2⟩], []⟩

def passed : History := ⟨waiting.added ++ [⟨true, 16, 0, 3⟩],
  [⟨false, 0, 8, 0⟩, ⟨true, 16, 0, 3⟩], [⟨true, 0, 0, 2⟩, ⟨true, 24, 0, 1⟩]⟩

theorem waiting_keepsOrder : KeepsOrder disk nested waiting .dequeue := by
  intro r pre tmp post hq hr hw ho hno w hpre b hboth
  obtain ⟨rfl, hrest⟩ := List.cons.inj hq
  have hin : ∀ v ∈ pre ++ tmp :: post, v = ⟨true, 24, 0, 1⟩ ∨ v = ⟨true, 0, 0, 2⟩ := by
    rw [← hrest]
    simp
  rcases hin tmp (List.mem_append_right _ List.mem_cons_self) with rfl | rfl
  · exact absurd ho (by decide)
  · rcases hin w (List.mem_append_left _ hpre) with rfl | rfl
    · obtain ⟨⟨-, hlo, -⟩, -, -, hhi⟩ := hboth
      have hlo' : 3 ≤ b := hlo
      have hhi' : b < 0 + 3 := hhi
      omega
    · exact absurd (hno _ hpre rfl) (by decide)

theorem passed_keepsOrder : KeepsOrder disk nested passed .dequeue := by
  intro r pre tmp post hq hr hw ho
  obtain ⟨rfl, hrest⟩ := List.cons.inj hq
  have hin : ∀ v ∈ pre ++ tmp :: post, v = ⟨true, 16, 0, 3⟩ := by
    rw [← hrest]
    simp
  rw [hin tmp (List.mem_append_right _ List.mem_cons_self)] at ho
  exact absurd ho (by decide)

/-- The clone that has passed the read was stored before the one that shares a block with it. -/
theorem captures_in_order_delayed : ∃ s, Reach step (KeepsOrder disk nested) .empty s ∧
    s.dequeued[2]? = some ⟨false, 0, 8, 0⟩ ∧ s.dequeued[3]? = some ⟨true, 16, 0, 3⟩ ∧
    ∃ m < 3, s.dequeued[m]? = some ⟨true, 0, 0, 2⟩ := by
  have h₀ : Reach step (KeepsOrder disk nested) .empty waiting := ((Reach.init.next (a := Op.add false 0 8) trivial rfl).next
    (a := Op.add true 24 0) trivial rfl).next (a := Op.add true 0 0) trivial rfl
  have h₁ : Reach step (KeepsOrder disk nested) .empty passed := ((h₀.next (a := Op.dequeue) waiting_keepsOrder rfl).next
    (a := Op.add true 16 0) trivial rfl).next (a := Op.dequeue) (keepsOrder_write rfl rfl) rfl
  have h := (h₁.next (a := Op.dequeue) passed_keepsOrder rfl).next (a := Op.dequeue) (keepsOrder_write rfl rfl) rfl
  refine ⟨_, h, rfl, rfl, ?_⟩
  exact (captures_in_order h).1 2 3 _ _ (by decide) rfl rfl ⟨2, by decide, by decide⟩ 3 rfl

/-- A read that overlaps the second clone takes it past the first one. -/
theorem capture_overtaken : ¬ ∀ (d : Device) (clone : Nat → Clone Nat) (s : History),
    Reach step (fun _ _ => True) .empty s →
    (∀ (i j : Nat) (older bio : Bio), i < j → s.added[i]? = some older → s.added[j]? = some bio →
      (∃ b, Covers d clone older b ∧ Covers d clone bio b) →
      ∀ n : Nat, s.dequeued[n]? = some bio → ∃ m < n, s.dequeued[m]? = some older) ∧
    ∀ b, ∀ w ∈ s.dequeued, Covers d clone w b → ∃ (i : Nat) (first : Bio), s.added[i]? = some first ∧
      Covers d clone first b ∧ (∀ j < i, ∀ older : Bio, s.added[j]? = some older → ¬ Covers d clone older b) ∧
      stored d clone s.dequeued b = some (page d clone first b) := by
  intro h
  have hr : run step .empty [.add false 17 1, .add true 0 16, .add true 0 24, .dequeue] = some
      ⟨[⟨false, 17, 1, 0⟩, ⟨true, 0, 16, 1⟩, ⟨true, 0, 24, 2⟩], [⟨true, 0, 16, 1⟩, ⟨false, 17, 1, 0⟩],
        [⟨true, 0, 24, 2⟩]⟩ := by
    decide
  obtain ⟨m, hm, _⟩ := (h disk nested _ (reach_of_run hr fun _ _ => trivial)).1 1 2 _ _ (by decide) rfl rfl
    ⟨0, by decide, by decide⟩ 0 rfl
  exact Nat.not_lt_zero m hm

end ElastioSnap.Snapshot.QueueOrder
