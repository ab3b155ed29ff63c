import ElastioSnap.Lib.Links
import ElastioSnap.Snapshot.Queue

namespace ElastioSnap.Snapshot.BioLinks

open Function (update)
open Lib.Links
open Queue (Bio bioOverlap)

structure BioList where
  head : Option Nat
  tail : Option Nat

/-- A queue, and the pointers `bi_next` of the bios, which are known by their addresses. -/
structure BioQueue where
  bios : BioList
  biNext : Nat → Option Nat

def bioListInit (q : BioQueue) : BioQueue := { q with bios := ⟨none, none⟩ }

def bioListAdd (q : BioQueue) (bio : Nat) : BioQueue :=
  let biNext := update q.biNext bio none
  match q.bios.tail with
  | some tail => ⟨⟨q.bios.head, some bio⟩, update biNext tail (some bio)⟩
  | none => ⟨⟨some bio, some bio⟩, biNext⟩

def bioListPop (q : BioQueue) : Option Nat × BioQueue :=
  match q.bios.head with
  | none => (none, q)
  | some bio =>
      let head := q.biNext bio
      (some bio, ⟨⟨head, if head.isNone then none else q.bios.tail⟩, update q.biNext bio none⟩)

def bioQueueAdd (q : BioQueue) (bio : Nat) : BioQueue := bioListAdd q bio

def bioQueueDequeue (q : BioQueue) : Option Nat × BioQueue := bioListPop q

/-- The write `tmp` is taken out of the list, and the read `bio` comes into its place. -/
def takePlace (q : BioQueue) (bio : Nat) (prev : Option Nat) (tmp : Nat) : BioQueue :=
  let q := match prev with
    | some prev => { q with biNext := update q.biNext prev (some bio) }
    | none => { q with bios := { q.bios with head := some bio } }
  let q := if q.bios.tail = some tmp then { q with bios := { q.bios with tail := some bio } } else q
  let q := { q with biNext := update q.biNext bio (q.biNext tmp) }
  { q with biNext := update q.biNext tmp none }

variable (bioOf : Nat → Bio)

/-- The loop over the list, which goes on as long as `fuel` lasts. -/
def delayLoop (bio : Nat) : Nat → Option Nat → Option Nat → BioQueue → Option (Nat × BioQueue)
  | 0, _, _, _ => none
  | fuel + 1, prev, tmp, q =>
      match tmp with
      | none => some (bio, q)
      | some tmp =>
          if (bioOf tmp).isWrite && bioOverlap (bioOf bio) (bioOf tmp) then some (tmp, takePlace q bio prev tmp)
          else delayLoop bio fuel (some tmp) (q.biNext tmp) q

/-- The direction of a null pointer cannot be read. -/
def bioQueueDequeueDelayRead (fuel : Nat) (q : BioQueue) : Option (Nat × BioQueue) :=
  match bioListPop q with
  | (none, _) => none
  | (some bio, q) =>
      if (bioOf bio).isWrite then some (bio, q) else delayLoop bioOf bio fuel none q.bios.head q

/-- The queue is this list: the last node that is reachable from the head is the tail. -/
structure Lists (q : BioQueue) (xs : List Nat) : Prop where
  seg : Seg q.biNext q.bios.head xs none
  tail : q.bios.tail = xs.getLast?

variable {bioOf} {q q' : BioQueue} {xs pre post rest : List Nat} {bio w : Nat} {fuel : Nat}

theorem lists_init : Lists (bioListInit q) [] := ⟨rfl, rfl⟩

theorem Lists.unique {ys : List Nat} (h : Lists q xs) (h' : Lists q ys) : xs = ys := h.seg.unique h'.seg

theorem Lists.tail_none (h : Lists q xs) : q.bios.tail = none ↔ xs = [] := by
  rw [h.tail, List.getLast?_eq_none_iff]

/-- A bio that is not in the queue is added at its end. -/
theorem Lists.add (h : Lists q xs) (hx : bio ∉ xs) : Lists (bioQueueAdd q bio) (xs ++ [bio]) := by
  have hseg : Seg (update q.biNext bio none) q.bios.head xs none := h.seg.update hx
  have htail := h.tail
  have hlast : (xs ++ [bio]).getLast? = some bio := by simp
  rcases List.eq_nil_or_concat' xs with rfl | ⟨ys, last, rfl⟩
  · simp only [bioQueueAdd, bioListAdd, htail, List.getLast?_nil]
    exact ⟨⟨rfl, by simp⟩, rfl⟩
  · have hold : q.bios.tail = some last := by simpa using htail
    simp only [bioQueueAdd, bioListAdd, hold]
    have hys : last ∉ ys := fun hm => (List.nodup_append.mp h.seg.nodup).2.2 last hm last List.mem_cons_self rfl
    have hne : bio ≠ last := fun he => hx (he ▸ List.mem_append_right ys List.mem_cons_self)
    rw [seg_snoc] at hseg
    refine ⟨?_, hlast.symm⟩
    rw [seg_snoc, seg_snoc]
    refine ⟨⟨hseg.1.update hys, Function.update_self ..⟩, ?_⟩
    dsimp only
    rw [Function.update_of_ne hne, Function.update_self]

theorem Lists.pop_nil (h : Lists q []) : bioQueueDequeue q = (none, q) := by
  have hhead : q.bios.head = none := h.seg
  rw [bioQueueDequeue, bioListPop, hhead]

/-- The first bio is removed, and the others remain. -/
theorem Lists.pop (h : Lists q (bio :: rest)) : ∃ q', bioQueueDequeue q = (some bio, q') ∧ Lists q' rest ∧
    q'.biNext bio = none := by
  have hhead : q.bios.head = some bio := h.seg.1
  have hx : bio ∉ rest := (List.nodup_cons.mp h.seg.nodup).1
  refine ⟨_, by rw [bioQueueDequeue, bioListPop, hhead], ⟨h.seg.2.update hx, ?_⟩, Function.update_self ..⟩
  cases rest with
  | nil =>
      have hnext : q.biNext bio = none := h.seg.2
      rw [hnext]
      rfl
  | cons y ys =>
      have hnext : q.biNext bio = some y := h.seg.2.1
      rw [hnext]
      exact h.tail

/-- The list behind the node that is taken out. -/
theorem seg_place {next : Nat → Option Nat} {v : Option Nat} (h : Seg next (some w) (w :: post) none)
    (hw : w ∉ post) (hx : bio ∉ w :: post) :
    Seg (update (update next bio (next w)) w v) (some bio) (bio :: post) none := by
  have hne : bio ≠ w := fun he => hx (he ▸ List.mem_cons_self)
  refine ⟨rfl, ?_⟩
  rw [Function.update_of_ne hne, Function.update_self]
  exact (h.2.update fun hm => hx (List.mem_cons_of_mem w hm)).update hw

theorem last_place (pre : List Nat) (bio : Nat) (hw : w ∉ post) : (if (pre ++ w :: post).getLast? = some w then some bio
    else (pre ++ w :: post).getLast?) = (pre ++ bio :: post).getLast? := by
  rcases List.eq_nil_or_concat' post with rfl | ⟨ys, last, rfl⟩
  · simp
  · have hne : last ≠ w := fun he => hw (he ▸ List.mem_append_right ys List.mem_cons_self)
    have hlast : ∀ y, (pre ++ y :: (ys ++ [last])).getLast? = some last := by simp [List.getLast?_cons]
    rw [hlast, hlast, if_neg fun he => hne (Option.some.inj he)]

theorem takePlace_first : takePlace q bio none w =
    ⟨⟨some bio, if q.bios.tail = some w then some bio else q.bios.tail⟩,
      update (update q.biNext bio (q.biNext w)) w none⟩ := by
  unfold takePlace
  dsimp only
  split <;> rfl

theorem takePlace_behind {p : Nat} (hp : w ≠ p) : takePlace q bio (some p) w =
    ⟨⟨q.bios.head, if q.bios.tail = some w then some bio else q.bios.tail⟩,
      update (update (update q.biNext p (some bio)) bio (q.biNext w)) w none⟩ := by
  have hnext : update q.biNext p (some bio) w = q.biNext w := Function.update_of_ne hp ..
  unfold takePlace
  dsimp only
  split <;> (dsimp only; rw [hnext])

/-- A bio that is not in the list takes the place of one that is. -/
theorem Lists.takePlace (h : Lists q (pre ++ w :: post)) (hx : bio ∉ pre ++ w :: post) :
    Lists (takePlace q bio pre.getLast? w) (pre ++ bio :: post) ∧ (takePlace q bio pre.getLast? w).biNext w = none := by
  obtain ⟨hseg, htail⟩ := h
  have hnodup := hseg.nodup
  have hw : w ∉ post := (List.nodup_cons.mp (List.nodup_append.mp hnodup).2.1).1
  have hx' : bio ∉ w :: post := fun hm => hx (List.mem_append_right pre hm)
  have hlast := last_place pre bio hw
  rw [← htail] at hlast
  rcases List.eq_nil_or_concat' pre with rfl | ⟨ps, p, rfl⟩
  · rw [List.getLast?_nil, takePlace_first]
    have hhead : q.bios.head = some w := hseg.1
    rw [List.nil_append, hhead] at hseg
    exact ⟨⟨seg_place hseg hw hx', hlast⟩, Function.update_self ..⟩
  · rw [List.getLast?_concat]
    have hapart : ∀ y ∈ ps ++ [p], y ≠ w := fun y hy he =>
      (List.nodup_append.mp hnodup).2.2 y hy w List.mem_cons_self he
    have hp : w ≠ p := (hapart p (by simp)).symm
    rw [takePlace_behind hp]
    obtain ⟨c, hpre, hpost⟩ := seg_append.mp hseg
    obtain rfl : c = some w := hpost.1
    rw [seg_snoc] at hpre
    have hps : p ∉ ps := fun hm => (List.nodup_append.mp (List.nodup_append.mp hnodup).1).2.2 p hm p List.mem_cons_self rfl
    have hpp : p ∉ w :: post := fun hm => (List.nodup_append.mp hnodup).2.2 p (by simp) p hm rfl
    have hxp : bio ≠ p := fun he => hx (he ▸ List.mem_append_left _ (by simp))
    refine ⟨⟨?_, hlast⟩, Function.update_self ..⟩
    rw [seg_append]
    refine ⟨some bio, ?_, ?_⟩
    · rw [seg_snoc]
      refine ⟨?_, ?_⟩
      · refine ((hpre.1.update hps).update fun hm => hx ?_).update fun hm => hapart w ?_ rfl
        · simp [hm]
        · simp [hm]
      · dsimp only
        rw [Function.update_of_ne hp.symm, Function.update_of_ne hxp.symm, Function.update_self]
    · have hstart : Seg (update q.biNext p (some bio)) (some w) (w :: post) none := hpost.update hpp
      have hplace := seg_place (v := none) hstart hw hx'
      rwa [Function.update_of_ne hp] at hplace

/-- A write that overlaps the bio. -/
def Hits (bioOf : Nat → Bio) (bio tmp : Nat) : Prop :=
  (bioOf tmp).isWrite = true ∧ bioOverlap (bioOf bio) (bioOf tmp) = true

/-- What is dequeued, of a list that begins with the bio: the bio, if it is a write or no write overlaps it, or the
first write that does, whose position the bio takes. -/
inductive Delayed (bioOf : Nat → Bio) (bio : Nat) (rest : List Nat) : Nat → List Nat → Prop
  | first (h : (bioOf bio).isWrite = true ∨ ∀ tmp ∈ rest, ¬ Hits bioOf bio tmp) : Delayed bioOf bio rest bio rest
  | delayed {pre post : List Nat} {w : Nat} (hr : (bioOf bio).isWrite = false) (hrest : rest = pre ++ w :: post)
      (hw : Hits bioOf bio w) (hpre : ∀ tmp ∈ pre, ¬ Hits bioOf bio tmp) : Delayed bioOf bio rest w (pre ++ bio :: post)

/-- The loop goes through the rest of the list, and ends with it at the latest. -/
theorem delayLoop_spec (h : Lists q (pre ++ rest)) (hx : bio ∉ pre ++ rest) (hr : (bioOf bio).isWrite = false)
    (hpre : ∀ tmp ∈ pre, ¬ Hits bioOf bio tmp) (hfuel : rest.length < fuel) (hnull : q.biNext bio = none) :
    ∃ w q' ys, delayLoop bioOf bio fuel pre.getLast? rest.head? q = some (w, q') ∧ Lists q' ys ∧ q'.biNext w = none ∧
      Delayed bioOf bio (pre ++ rest) w ys := by
  induction rest generalizing pre fuel with
  | nil =>
      obtain ⟨n, rfl⟩ := Nat.exists_eq_add_one_of_ne_zero (Nat.ne_of_gt hfuel)
      refine ⟨bio, q, _, rfl, h, hnull, .first (.inr ?_)⟩
      rwa [List.append_nil]
  | cons tmp rest ih =>
      obtain ⟨n, rfl⟩ := Nat.exists_eq_add_one_of_ne_zero (Nat.ne_of_gt (Nat.zero_lt_of_lt hfuel))
      rw [List.head?_cons, delayLoop]
      by_cases hit : Hits bioOf bio tmp
      · obtain ⟨hlists, hnext⟩ := h.takePlace hx
        refine ⟨tmp, _, _, ?_, hlists, hnext, .delayed hr rfl hit hpre⟩
        rw [if_pos (Bool.and_eq_true_iff.mpr hit)]
      · have hnext : q.biNext tmp = rest.head? := by
          obtain ⟨c, -, -, hrest⟩ := seg_append.mp h.seg
          cases rest with
          | nil => exact hrest
          | cons y ys => exact hrest.1
        rw [if_neg fun hc => hit (Bool.and_eq_true_iff.mp hc), hnext]
        have hshift : pre ++ tmp :: rest = (pre ++ [tmp]) ++ rest := by rw [List.append_assoc, List.singleton_append]
        have hlast : (pre ++ [tmp]).getLast? = some tmp := List.getLast?_concat
        rw [hshift] at h hx ⊢
        rw [← hlast]
        refine ih h hx (fun y hy => ?_) (Nat.lt_of_succ_lt_succ hfuel)
        rcases List.mem_append.mp hy with hy | hy
        · exact hpre y hy
        · exact List.mem_singleton.mp hy ▸ hit

theorem delayLoop_mono {prev tmp : Option Nat} {r : Nat × BioQueue} {more : Nat}
    (h : delayLoop bioOf bio fuel prev tmp q = some r) (hle : fuel ≤ more) :
    delayLoop bioOf bio more prev tmp q = some r := by
  induction fuel generalizing prev tmp more with
  | zero => cases h
  | succ fuel ih =>
      obtain ⟨n, rfl⟩ := Nat.exists_eq_add_one_of_ne_zero (Nat.ne_of_gt (Nat.zero_lt_of_lt hle))
      cases tmp with
      | none => exact h
      | some tmp =>
          rw [delayLoop] at h ⊢
          split at h
          next hc => rwa [if_pos hc]
          next hc =>
            rw [if_neg hc]
            exact ih h (Nat.le_of_succ_le_succ hle)

theorem dequeueDelayRead_mono {r : Nat × BioQueue} {more : Nat} (h : bioQueueDequeueDelayRead bioOf fuel q = some r)
    (hle : fuel ≤ more) : bioQueueDequeueDelayRead bioOf more q = some r := by
  unfold bioQueueDequeueDelayRead at h ⊢
  cases hpop : bioListPop q with
  | mk bio q₁ =>
      rw [hpop] at h
      cases bio with
      | none => cases h
      | some bio =>
          dsimp only at h ⊢
          split at h
          next hw => rwa [if_pos hw]
          next hw =>
            rw [if_neg hw]
            exact delayLoop_mono h hle

/-- A queue that is not empty gives a bio, after no more rounds than it has bios. -/
theorem Lists.delayRead (h : Lists q (bio :: rest)) : ∃ w q' ys,
    (∀ fuel, rest.length < fuel → bioQueueDequeueDelayRead bioOf fuel q = some (w, q')) ∧ Lists q' ys ∧
      q'.biNext w = none ∧ Delayed bioOf bio rest w ys := by
  obtain ⟨q₁, hpop, hlists, hnull⟩ := h.pop
  have hx : bio ∉ rest := (List.nodup_cons.mp h.seg.nodup).1
  have hpop' : bioListPop q = (some bio, q₁) := hpop
  simp only [bioQueueDequeueDelayRead, hpop']
  cases hw : (bioOf bio).isWrite with
  | true => exact ⟨bio, q₁, rest, fun _ _ => rfl, hlists, hnull, .first (.inl hw)⟩
  | false =>
      have hhead : q₁.bios.head = rest.head? := by
        cases rest with
        | nil => exact hlists.seg
        | cons y ys => exact hlists.seg.1
      obtain ⟨w, q', ys, hloop, hlists', hnext, hdelayed⟩ := delayLoop_spec (hlists : Lists q₁ ([] ++ rest)) hx hw
        (fun _ hm => absurd hm List.not_mem_nil) (Nat.lt_succ_self rest.length) hnull
      rw [hhead]
      exact ⟨w, q', ys, fun fuel hfuel => delayLoop_mono hloop hfuel, hlists', hnext, hdelayed⟩

theorem delayRead_place {b out : Bio} {front back : List Bio} (hw : out.isWrite = true) (ho : bioOverlap b out = true)
    (hfront : ∀ tmp ∈ front, ¬ (tmp.isWrite = true ∧ bioOverlap b tmp = true)) :
    Queue.delayRead b (front ++ out :: back) = some (out, front ++ b :: back) := by
  induction front with
  | nil => rw [List.nil_append, Queue.delayRead, hw, ho, Bool.and_self, if_pos rfl, List.nil_append]
  | cons tmp front ih =>
      have htmp : ¬ (tmp.isWrite && bioOverlap b tmp) = true := fun hc =>
        hfront tmp List.mem_cons_self (Bool.and_eq_true_iff.mp hc)
      rw [List.cons_append, Queue.delayRead, if_neg htmp, ih fun y hy => hfront y (List.mem_cons_of_mem tmp hy)]
      rfl

theorem delayRead_misses {b : Bio} {xs : List Bio} (h : ∀ tmp ∈ xs, ¬ (tmp.isWrite = true ∧ bioOverlap b tmp = true)) :
    Queue.delayRead b xs = none := by
  induction xs with
  | nil => rfl
  | cons tmp xs ih =>
      have htmp : ¬ (tmp.isWrite && bioOverlap b tmp) = true := fun hc =>
        h tmp List.mem_cons_self (Bool.and_eq_true_iff.mp hc)
      rw [Queue.delayRead, if_neg htmp, ih fun y hy => h y (List.mem_cons_of_mem tmp hy)]
      rfl

/-- The pointers do to the list of the bios what the queue that is such a list does. -/
theorem Delayed.queue {ys : List Nat} (h : Delayed bioOf bio rest w ys) :
    Queue.bioQueueDequeueDelayRead ((bio :: rest).map bioOf) = some (bioOf w, ys.map bioOf) := by
  rw [List.map_cons, Queue.bioQueueDequeueDelayRead]
  cases h with
  | first h =>
      by_cases hw : (bioOf bio).isWrite = true
      · rw [if_pos hw]
      · have hnone : Queue.delayRead (bioOf bio) (rest.map bioOf) = none := by
          refine delayRead_misses fun tmp htmp => ?_
          obtain ⟨y, hy, rfl⟩ := List.mem_map.mp htmp
          exact h.resolve_left hw y hy
        rw [if_neg hw, hnone]
        rfl
  | @delayed pre post w hr hrest hw hpre =>
      have hplace : Queue.delayRead (bioOf bio) (rest.map bioOf) =
          some (bioOf w, pre.map bioOf ++ bioOf bio :: post.map bioOf) := by
        rw [hrest, List.map_append, List.map_cons]
        refine delayRead_place hw.1 hw.2 fun tmp htmp => ?_
        obtain ⟨y, hy, rfl⟩ := List.mem_map.mp htmp
        exact hpre y hy
      rw [if_neg (Bool.eq_false_iff.mp hr), hplace, List.map_append, List.map_cons]
      rfl

/-- The bio is in the queue. -/
def Queued (q : BioQueue) (bio : Nat) : Prop := ∃ xs, Lists q xs ∧ bio ∈ xs

/-- The queues that come about. A bio is not added while it is in the queue, and may be another one, at the same
address, when it is added again. -/
inductive Reached : BioQueue → Prop
  | init {q : BioQueue} : Reached (bioListInit q)
  | add {q : BioQueue} {bio : Nat} (h : Reached q) (hnew : ¬ Queued q bio) : Reached (bioQueueAdd q bio)
  | dequeue {q : BioQueue} (h : Reached q) : Reached (bioQueueDequeue q).2
  | delayRead {q q' : BioQueue} {bioOf : Nat → Bio} {fuel w : Nat} (h : Reached q)
      (hd : bioQueueDequeueDelayRead bioOf fuel q = some (w, q')) : Reached q'

theorem Reached.lists (h : Reached q) : ∃ xs, Lists q xs := by
  induction h with
  | init => exact ⟨[], lists_init⟩
  | add h hnew ih =>
      obtain ⟨xs, hxs⟩ := ih
      exact ⟨_, hxs.add fun hm => hnew ⟨xs, hxs, hm⟩⟩
  | dequeue h ih =>
      obtain ⟨xs, hxs⟩ := ih
      cases xs with
      | nil => exact ⟨[], hxs.pop_nil ▸ hxs⟩
      | cons bio rest =>
          obtain ⟨q', hpop, hlists, -⟩ := hxs.pop
          exact ⟨rest, hpop ▸ hlists⟩
  | @delayRead q q' bioOf fuel w h hd ih =>
      obtain ⟨xs, hxs⟩ := ih
      cases xs with
      | nil =>
          have hpop : bioListPop q = (none, q) := hxs.pop_nil
          rw [bioQueueDequeueDelayRead, hpop] at hd
          cases hd
      | cons bio rest =>
          obtain ⟨_, _, ys, hrun, hlists, -, -⟩ := hxs.delayRead
          have hlong := dequeueDelayRead_mono hd (Nat.le_max_left fuel (rest.length + 1))
          rw [hrun _ (Nat.le_max_right fuel (rest.length + 1))] at hlong
          cases hlong
          exact ⟨ys, hlists⟩

/-- What an operation does to a queue with these bios. -/
structure Operates (q : BioQueue) (xs : List Nat) : Prop where
  add : ∀ bio, bio ∉ xs → Lists (bioQueueAdd q bio) (xs ++ [bio])
  dequeue : match xs with
    | [] => bioQueueDequeue q = (none, q)
    | bio :: rest => ∃ q', bioQueueDequeue q = (some bio, q') ∧ Lists q' rest
  delayRead : ∀ bioOf, match xs with
    | [] => True
    | bio :: rest => ∃ w q' ys, (∀ fuel, rest.length < fuel → bioQueueDequeueDelayRead bioOf fuel q = some (w, q')) ∧
        Lists q' ys ∧ Delayed bioOf bio rest w ys

/-- The queue is always a list that ends with its tail, of which an operation takes what it returns and nothing else. -/
theorem queue_operates (h : Reached q) :
    ∃ xs, Lists q xs ∧ xs.Nodup ∧ (q.bios.tail = none ↔ xs = []) ∧ Operates q xs := by
  obtain ⟨xs, hxs⟩ := h.lists
  refine ⟨xs, hxs, hxs.seg.nodup, hxs.tail_none, fun bio hx => hxs.add hx, ?_, fun bioOf => ?_⟩
  · cases xs with
    | nil => exact hxs.pop_nil
    | cons bio rest =>
        obtain ⟨q', hpop, hlists, -⟩ := hxs.pop
        exact ⟨q', hpop, hlists⟩
  · cases xs with
    | nil => trivial
    | cons bio rest =>
        obtain ⟨w, q', ys, hrun, hlists, -, hdelayed⟩ := hxs.delayRead
        exact ⟨w, q', ys, hrun, hlists, hdelayed⟩

/-- A read, and a write that overlaps it. -/
def readAndWrite (bio : Nat) : Bio := ⟨bio == 1, 0, 8, bio⟩

theorem queue_operates_delayed : ∃ xs, Lists
    (takePlace (bioListPop (bioQueueAdd (bioQueueAdd (bioListInit ⟨⟨none, none⟩, fun _ => none⟩) 0) 1)).2 0 none 1) xs ∧
      xs.Nodup := by
  have hempty : ∀ {q : BioQueue} {bio : Nat}, ¬ Queued (bioListInit q) bio := by
    rintro q bio ⟨xs, hxs, hm⟩
    rw [hxs.unique lists_init] at hm
    exact absurd hm List.not_mem_nil
  have hone : Reached (bioQueueAdd (bioListInit ⟨⟨none, none⟩, fun _ => none⟩) 0) := Reached.init.add hempty
  have htwo : ¬ Queued (bioQueueAdd (bioListInit ⟨⟨none, none⟩, fun _ => none⟩) 0) 1 := by
    rintro ⟨xs, hxs, hm⟩
    rw [hxs.unique (lists_init.add List.not_mem_nil)] at hm
    exact absurd hm (by decide)
  obtain ⟨xs, hxs, hnodup, -⟩ := queue_operates ((hone.add htwo).delayRead
    (rfl : bioQueueDequeueDelayRead readAndWrite 5 _ = some (1, _)))
  exact ⟨xs, hxs, hnodup⟩

end ElastioSnap.Snapshot.BioLinks
