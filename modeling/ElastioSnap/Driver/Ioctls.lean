import ElastioSnap.Driver.Setups

namespace ElastioSnap.Driver.Ioctls

open Function (update)
open Lib.Outcome State Setup Events Component Rows Tracing Effects Hooks Walk Setups
open Cow.Manager (Errno Err)

variable {env : Env} {native : Nat → Nat} {d d₁ d' : DriverState} {a b i k n t minor : Nat} {dev old : SnapDevice}
  {ops : OpsState} {o : Option Ops} {l : Local} {event : Event}

/-- What an event leads to. -/
structure After (env : Env) (native : Nat → Nat) (event : Event) (d d' : DriverState) : Prop where
  sound : Sound env d'
  effect : Effect env d.clock d.row event d'.row
  hooked : Freezes env → Room d.ops → Hooked env native (hooked d.row) d.ops → Hooked env native (hooked d'.row) d'.ops
  live : Freezes env → Live d → Live d'

/-- What an event does to the devices on the disks, and to the operations of these. -/
inductive Hooking (env : Env) (rows : Table) (event : Event) (ops : OpsState) : Table → OpsState → Prop
  | same {rows' : Table} (h : hooked rows' = hooked rows) : Hooking env rows event ops rows' ops
  | plain {m : Nat} {dev : SnapDevice} (hi : rows m = some dev) (ho : dev.origOps = none) :
      Hooking env rows event ops (update rows m none) ops
  | attached {m b t : Nat} {o : Option Ops} {dev : SnapDevice} {around : Table} {ops' : OpsState}
      (hmax : m < env.maxSnapDevices) (hh : hookOf (some dev) = some ⟨some b, o, some t⟩)
      (hm : ∀ h, hooked rows m = some h → h.baseDev = some b ∧ (event = .transitionInc m ∨ event = .transitionSnap m))
      (hr : hooked around = hooked rows) (h : Attached env around ops b o t ops') :
      Hooking env rows event ops (update rows m (some dev)) ops'
  | detached {m b : Nat} {dev : SnapDevice} {ops' : OpsState} (hi : rows m = some dev) (hv : dev.unverified = false)
      (hb : dev.baseDev = some b) (h : Detached env rows dev ops b m ops') :
      Hooking env rows event ops (update rows m none) ops'

/-- What an event does. -/
structure Passed (env : Env) (event : Event) (d d' : DriverState) : Prop where
  sound : Sound env d'
  effect : Effect env d.clock d.row event d'.row
  hooking : Freezes env → Hooking env d.row event d.ops d'.row d'.ops
  live : Freezes env → Live d → Live d'

theorem live_untouched (hl : Live d) (h : Untouched d d') : Live d' := by
  intro i a hi
  rw [h.table] at hi
  rw [h.rows]
  exact hl i a hi

theorem Passed.refl (hs : Sound env d) : Passed env event d d := ⟨hs, .none, fun _ => .same rfl, fun _ h => h⟩

/-- What happens outside the table afterwards. -/
theorem Passed.frame {e : DriverState} (h : Passed env event d e) (hu : Untouched e d')
    (hr : ∀ {i a : Nat}, e.snapDevices i = some a → d'.lowestMinor ≤ i ∧ i ≤ d'.highestMinor)
    (hops : Freezes env → d'.ops = e.ops) : Passed env event d d' where
  sound := h.sound.untouched hu hr
  effect := by
    rw [hu.rows]
    exact h.effect
  hooking hf := by
    rw [hu.rows, hops hf]
    exact h.hooking hf
  live hf hl := live_untouched (h.live hf hl) hu

theorem Passed.atCall (hs : Sound env d) : Passed env event d (d.atCall n) :=
  (Passed.refl hs).frame ⟨rfl, fun _ => rfl, Nat.le_refl _⟩ (fun h => hs.range h) fun _ => rfl

def freed (d : DriverState) (a : Nat) : DriverState := { d with devs := update d.devs a none }

theorem untouched_freed (hoff : Off a d) : Untouched d (freed d a) :=
  ⟨rfl, fun hi => Function.update_of_ne (hoff.ne hi) .., Nat.le_refl _⟩

/-- Memory for a device, which is not in the table. -/
def allocated (d : DriverState) (n : Nat) : DriverState :=
  { d with devs := update d.devs d.nextDev (some .zero), nextDev := d.nextDev + 1, clock := n }

theorem untouched_allocated (hs : Sound env d) : Untouched d (allocated d n) where
  table := rfl
  devs hi := Function.update_of_ne (hs.fresh.ne hi) ..
  next := Nat.le_succ _

theorem sound_allocated (hs : Sound env d) : Sound env (allocated d n) :=
  hs.untouched (untouched_allocated hs) fun h => hs.range h

theorem off_allocated (hs : Sound env d) : Off d.nextDev (allocated d n) := hs.fresh

theorem tracerAlloc_wp : wp (tracerAlloc env) d (fun a d' => a = d.nextDev ∧ ∃ n, d' = allocated d n)
    (Fails fun _ d' => ∃ n, d' = d.atCall n) := by
  simp only [tracerAlloc, wp_bind]
  apply wp_check
  · exact ⟨rfl, _, rfl⟩
  · exact ⟨_, rfl⟩

theorem untouched_failed (hs : Sound env d) :
    Untouched d (upd (allocated d n) d.nextDev dev ops minor) :=
  (untouched_allocated hs).trans (untouched_upd (off_allocated hs))

/-- A state in which a device can be put into the table at a minor. Off that minor, the table is
as it was before the event. -/
structure Ready (env : Env) (d : DriverState) (minor a : Nat) (e : DriverState) : Prop where
  sound : Sound env e
  off : Off a e
  lt : a < e.nextDev
  max : minor < env.maxSnapDevices
  rows : ∀ new, update e.row minor new = update d.row minor new
  hooks : hooked e.row = hooked d.row
  live : Live d → Live e

theorem Ready.untouched {e e' : DriverState} (h : Ready env d minor a e) (hu : Untouched e e') (hs : Sound env e') :
    Ready env d minor a e' where
  sound := hs
  off := hu.off h.off
  lt := Nat.lt_of_lt_of_le h.lt hu.next
  max := h.max
  rows new := by rw [hu.rows, h.rows]
  hooks := by rw [hu.rows, h.hooks]
  live hl := live_untouched (h.live hl) hu

theorem row_allocated (hs : Sound env d) : (allocated d n).row = d.row := (untouched_allocated hs).rows

theorem ready_allocated (hs : Sound env d) (hmax : minor < env.maxSnapDevices) :
    Ready env d minor d.nextDev (allocated d n) where
  sound := sound_allocated hs
  off := off_allocated hs
  lt := Nat.lt_succ_self _
  max := hmax
  rows _ := by rw [row_allocated hs]
  hooks := by rw [row_allocated hs]
  live hl := live_untouched hl (untouched_allocated hs)

theorem Ready.placed_row {e : DriverState} (hr : Ready env d minor a e) :
    (placed e a dev minor ops k).row = update d.row minor (some dev) := by
  rw [Walk.placed_row hr.off, hr.rows]

/-- A device enters the table. -/
theorem Passed.place {e : DriverState} (hr : Ready env d minor a e)
    (hc : RowChange env d.clock d.row event minor (some dev)) (hmin : dev.minor = minor)
    (hp : dev.unverified = true → dev.active = false ∧ dev.origOps = none ∧ dev.tracingOps = none)
    (hk : Freezes env → Hooking env d.row event d.ops (update d.row minor (some dev)) ops) {k : Nat} :
    Passed env event d (placed e a dev minor ops k) := by
  have hrows : (placed e a dev minor ops k).row = update d.row minor (some dev) := hr.placed_row
  constructor
  case sound => exact sound_placed hr.sound hr.off hr.max hr.lt hmin hp
  case effect =>
    rw [hrows]
    exact .row hc
  case hooking =>
    rw [hrows]
    exact hk
  case live =>
    intro _ hl j c hj
    rw [hrows, ← hr.rows]
    rcases update_cases hj with ⟨rfl, -⟩ | ⟨hjm, hj⟩
    · rw [Function.update_self]
      rfl
    · rw [Function.update_of_ne hjm]
      exact hr.live hl j c hj

/-- A device enters the table, and the disk it is on is traced. -/
theorem Passed.attached {e : DriverState} (hr : Ready env d minor a e)
    (hc : RowChange env d.clock d.row event minor (some dev)) (hmin : dev.minor = minor) (hv : dev.unverified = false)
    (hb : dev.baseDev = some b) (ho : dev.origOps = o) (ht : dev.tracingOps = some t)
    (hm : ∀ h, Hooks.hooked d.row minor = some h → h.baseDev = some b ∧
      (event = .transitionInc minor ∨ event = .transitionSnap minor))
    (hatt : Attached env e.row d.ops b o t ops) {k : Nat} :
    Passed env event d (placed e a dev minor ops k) := by
  apply Passed.place hr hc hmin
  · intro h
    rw [hv] at h
    cases h
  · intro _
    refine .attached hr.max ?_ hm hr.hooks hatt
    rw [hookOf_eq_some.mpr ⟨dev, rfl, hv, rfl⟩, hb, ho, ht]

/-- A device enters the table that is on no disk, at a minor where there was none either. -/
theorem Passed.unhooked {e : DriverState} (hr : Ready env d minor a e)
    (hc : RowChange env d.clock d.row event minor (some dev)) (hmin : dev.minor = minor) (hv : dev.unverified = true)
    (hp : dev.active = false ∧ dev.origOps = none ∧ dev.tracingOps = none) (hm : Hooks.hooked d.row minor = none)
    (hops : Freezes env → ops = d.ops) {k : Nat} : Passed env event d (placed e a dev minor ops k) := by
  apply Passed.place hr hc hmin fun _ => hp
  intro hf
  have hnone : hookOf (some dev) = none := by simp [hookOf, hv]
  rw [hops hf]
  exact .same (hooked_keep (hnone.trans hm.symm))

theorem verifyMinorAvailable_wp : wp (verifyMinorAvailable env minor) d
    (fun _ d' => d' = d ∧ minor < env.maxSnapDevices ∧ d.snapDevices minor = none)
    (Fails fun _ d' => d' = d) := by
  simp only [verifyMinorAvailable]
  split
  next => exact rfl
  next hlt =>
    simp only [wp_bind, wp_pure, wp_get, wp_ite, wp_throw, fails_code]
    split
    next => trivial
    next h => exact ⟨trivial, Nat.lt_of_not_le hlt, Option.not_isSome_iff_eq_none.mp h⟩

theorem sound_atCall (hs : Sound env d) : Sound env (d.atCall n) :=
  hs.untouched ⟨rfl, fun _ => rfl, Nat.le_refl _⟩ fun h => hs.range h

theorem kfree_wp {Q : Unit → DriverState → Prop} {F : Errno → DriverState → Prop} :
    wp (kfree a) d Q (Fails F) ↔ Q () (freed d a) := Iff.rfl

/-- What is left of a device whose setup failed. -/
theorem after_failed (event : Event) (dev : SnapDevice) (hs : Sound env d) {d₁ : DriverState} {k : Nat}
    (h₁ : d₁ = upd (allocated d n) d.nextDev dev ops k ∨
      d₁ = recalculated env (upd (allocated d n) d.nextDev dev ops k)) (hops : Freezes env → ops = d.ops) :
    Passed env event d (freed d₁ d.nextDev) ∧ (freed d₁ d.nextDev).row = d.row := by
  have hu : Untouched d (upd (allocated d n) d.nextDev dev ops k) := untouched_failed hs
  rcases h₁ with rfl | rfl
  · have hfreed := hu.trans (untouched_freed (hu.off hs.fresh))
    exact ⟨(Passed.refl hs).frame hfreed (fun h => hs.range h) hops, hfreed.rows⟩
  · have hu' : Untouched d (recalculated env (upd (allocated d n) d.nextDev dev ops k)) := hu.trans untouched_recalculated
    have hs' := sound_recalculated hs hu
    have hfreed := hu'.trans (untouched_freed (hu'.off hs.fresh))
    refine ⟨(Passed.refl hs).frame hfreed (fun {i a} h => ?_) hops, hfreed.rows⟩
    exact recalculated_range h (hs.used h).1

theorem upd_self (hd : d.devs a = some dev) : upd d a dev d.ops d.clock = d := by
  simp only [upd, ← hd, Function.update_eq_self]

/-- A request was granted, which changes the row of its minor. -/
def Granted (env : Env) (event : Event) (minor : Nat) (d d' : DriverState) : Prop :=
  Passed env event d d' ∧ ∃ dev, RowChange env d.clock d.row event minor (some dev) ∧
    d'.row = update d.row minor (some dev)

theorem ioctlSetup_wp {path cowPath : Path} {cacheSize : Nat} {isSnap isReload : Bool} (hs : Sound env d)
    (hevent : ∀ b p q s o t, d.row minor = none → Untraced d.row b → isReload = false → isSnap = true →
      RowChange env d.clock d.row event minor (some (activeSnap env minor s b cacheSize (some p) q o t)))
    (hreload : d.row minor = none → isReload = true →
      RowChange env d.clock d.row event minor (some (unverifiedDevice minor cacheSize isSnap path cowPath))) :
    wp (ioctlSetup env minor path cowPath cacheSize isSnap isReload) d (fun _ d' => Granted env event minor d d')
      (Fails fun _ d' => Passed env event d d' ∧ d'.row = d.row) := by
  simp only [ioctlSetup, wp_bind]
  apply wp_weaken verifyMinorAvailable_wp
  · rintro _ d₁ ⟨rfl, hmax, hnone⟩
    have hrow : d₁.row minor = none := by
      rw [DriverState.row, hnone]
      rfl
    have hhook : Hooks.hooked d₁.row minor = none := by
      rw [Hooks.hooked, hrow]
      rfl
    simp only [verifyBdevWritable, wp_bind, wp_call]
    cases env.blkdevGetByPath d₁.clock path with
    | error e => exact ⟨.atCall hs, rfl⟩
    | ok c =>
        simp only [wp_pure]
        split
        next => exact ⟨.atCall hs, rfl⟩
        next hmode =>
          simp only [wp_bind]
          apply wp_weaken (tracerAlloc_wp (d := d₁.atCall (d₁.clock + 1)))
          · rintro a d₂ ⟨rfl, n, rfl⟩
            rw [wp_onCode]
            change wp _ (allocated d₁ n) _ _
            refine wp_weaken (F := fun _ d₂ => ∃ dev ops k, (d₂ = upd (allocated d₁ n) d₁.nextDev dev ops k ∨
              d₂ = recalculated env (upd (allocated d₁ n) d₁.nextDev dev ops k)) ∧ (Freezes env → ops = d₁.ops))
              ?_ (fun _ _ h => h) ?_
            · have hs₁ : Sound env (allocated d₁ n) := sound_allocated hs
              have hoff : Off d₁.nextDev (allocated d₁ n) := off_allocated hs
              have hzero : (allocated d₁ n).devs d₁.nextDev = some .zero := Function.update_self ..
              have hself := upd_self hzero
              have hready : Ready env d₁ minor d₁.nextDev (allocated d₁ n) := ready_allocated hs hmax
              have hunverified : isReload = true →
                  wp (tracerSetupUnverified env d₁.nextDev minor path cowPath cacheSize isSnap) (allocated d₁ n)
                    (fun _ d' => Granted env event minor d₁ d')
                    (Fails fun _ d₂ => ∃ dev ops k, (d₂ = upd (allocated d₁ n) d₁.nextDev dev ops k ∨
                      d₂ = recalculated env (upd (allocated d₁ n) d₁.nextDev dev ops k)) ∧ (Freezes env → ops = d₁.ops)) := by
                intro hr
                rw [← hself]
                apply wp_weaken (tracerSetupUnverified_wp hoff rfl rfl)
                · rintro _ d₂ ⟨k, rfl⟩
                  refine ⟨?_, _, hreload hrow hr, hready.placed_row⟩
                  exact .unhooked hready (hreload hrow hr) rfl rfl ⟨rfl, rfl, rfl⟩ hhook fun _ => rfl
                · rintro c d₂ ⟨dev, k, rfl⟩
                  exact ⟨dev, d₁.ops, k, .inr (by rw [hself]; rfl), fun _ => rfl⟩
              cases hw : env.writable d₁.clock c with
              | true =>
                  have hr : isReload = false := by
                    rw [hw] at hmode
                    cases isReload <;> simp_all
                  cases isSnap with
                  | true =>
                      simp only [if_true]
                      apply wp_weaken (tracerSetupActiveSnap_wp hs₁ hoff hzero)
                      · rintro _ d₂ ⟨s, b, p, q, o, t, ops, k, rfl, hb, hatt⟩
                        rw [row_allocated hs] at hb
                        have hc := hevent b p q s o t hrow hb hr rfl
                        refine ⟨.attached hready hc rfl rfl rfl rfl rfl ?_ hatt, _, hc, hready.placed_row⟩
                        intro h hh
                        rw [hhook] at hh
                        cases hh
                      · rintro e d₂ ⟨dev, ops, k, rfl, hops⟩
                        exact ⟨dev, ops, k, .inr rfl, hops⟩
                  | false => exact ⟨_, _, _, .inl hself.symm, fun _ => rfl⟩
              | false =>
                  have hr : isReload = true := by
                    rw [hw] at hmode
                    cases isReload <;> simp_all
                  cases isSnap with
                  | true => exact hunverified hr
                  | false => exact hunverified hr
            · rintro c d₂ ⟨dev, ops, k, hd₂, hops⟩
              exact after_failed _ _ hs hd₂ hops
          · rintro c d₂ ⟨n, rfl⟩
            exact ⟨.atCall hs, rfl⟩
  · rintro _ _ rfl
    exact ⟨.refl hs, rfl⟩

theorem verifyMinorInUseNotBusy_wp : wp (verifyMinorInUseNotBusy env minor) d
    (fun a d' => ∃ n, d' = d.atCall n ∧ d.clock ≤ n ∧ minor < env.maxSnapDevices ∧ d.snapDevices minor = some a)
    (Fails fun _ d' => ∃ n, d' = d.atCall n) := by
  simp only [verifyMinorInUseNotBusy]
  split
  next => exact ⟨d.clock, rfl⟩
  next hlt =>
    simp only [wp_bind, wp_get]
    cases h : d.snapDevices minor with
    | none => exact ⟨d.clock, rfl⟩
    | some a =>
        simp only [wp_bind, wp_call]
        split
        next => exact ⟨d.clock + 1, rfl⟩
        next => exact ⟨d.clock + 1, rfl, Nat.le_succ _, Nat.lt_of_not_le hlt, rfl⟩

theorem row_lt (hs : Sound env d) (h : d.row i = some dev) : i < env.maxSnapDevices := by
  obtain ⟨a, ha, -⟩ := row_eq_some.mp h
  exact (hs.used ha).1

/-- A device without saved operations was on no disk. -/
theorem hooked_plain (hk : Hooked env native (hooked d.row) ops) (hi : d.row i = some dev) (ho : dev.origOps = none) :
    hooked (update d.row i none) = hooked d.row := by
  apply hooked_keep
  cases hh : hookOf (d.row i) with
  | none => rfl
  | some h =>
      obtain ⟨cur, hcur, -, rfl⟩ := hookOf_eq_some.mp hh
      obtain rfl : dev = cur := Option.some.inj (hi.symm.trans hcur)
      obtain ⟨b, t, -, -, -, horig⟩ := hk.device hh
      cases ho.symm.trans horig

theorem Passed.after (hs : Sound env d) (h : Passed env event d d') : After env native event d d' where
  sound := h.sound
  effect := h.effect
  hooked hf hroom hk := by
    generalize hrows : d'.row = rows
    generalize hops : d'.ops = ops
    have hh := h.hooking hf
    rw [hrows, hops] at hh
    cases hh with
    | same hsame => exact hsame ▸ hk
    | plain hi ho => exact (hooked_plain hk hi ho) ▸ hk
    | attached hmax hh hm hr hatt =>
        rw [hooked_update, hh]
        exact hk.attach hroom hr (fun h hh => (hm h hh).1) hatt
    | detached hi hv hb hdet =>
        rw [hooked_update]
        exact hk.detach (fun _ _ hj => row_lt hs hj) hi hv hb hdet
  live := h.live

/-- What is left after a device was taken out of the table and off its disk, and freed. -/
theorem after_removed (d' : DriverState) (hs : Sound env d) (hi : d.snapDevices minor = some a)
    (ht : ∀ {j : Nat}, j ≠ minor → d'.snapDevices j = d.snapDevices j)
    (hm : d'.snapDevices minor = none ∨ (d'.snapDevices minor = some a ∧ ¬ Freezes env)) (ha : d'.devs a = none)
    (hd : ∀ {c : Nat}, c ≠ a → d'.devs c = d.devs c) (hn : d'.nextDev = d.nextDev)
    (hc : RowChange env d.clock d.row event minor none)
    (hk : Freezes env → Hooking env d.row event d.ops (update d.row minor none) d'.ops) :
    Passed env event d (recalculated env d') := by
  have hnone : d'.row minor = none := by
    rw [DriverState.row]
    rcases hm with h | ⟨h, -⟩
    · rw [h]
      rfl
    · rw [h]
      exact ha
  have hsub : ∀ {c : Nat}, d'.snapDevices minor = some c → d.snapDevices minor = some c := by
    intro c h
    rcases hm with h' | ⟨h', -⟩
    · rw [h'] at h
      cases h
    · rw [hi, ← h', h]
  have hdevs : ∀ {j c : Nat}, j ≠ minor → d.snapDevices j = some c → d'.devs c = d.devs c := by
    intro j c hj h
    apply hd
    rintro rfl
    exact hj (hs.apart h hi)
  obtain ⟨hs', hrow⟩ := sound_remove d' hs ht hsub hnone hdevs hn
  constructor
  case sound => exact hs'
  case effect =>
    rw [hrow]
    exact .row hc
  case hooking =>
    rw [hrow]
    exact hk
  case live =>
    intro hf hl j c hj
    by_cases hjm : j = minor
    · subst hjm
      rcases hm with h | ⟨-, h⟩
      · cases hj.symm.trans h
      · exact absurd hf h
    · rw [hrow, Function.update_of_ne hjm]
      exact hl j c ((ht hjm).symm.trans hj)

theorem ioctlDestroy_wp (hs : Sound env d) : wp (ioctlDestroy env minor) d
    (fun _ d' => Passed env (.destroy minor) d d') (Fails fun _ d' => Passed env (.destroy minor) d d') := by
  simp only [ioctlDestroy, wp_bind]
  apply wp_weaken (verifyMinorInUseNotBusy_wp (d := d))
  · rintro a d₁ ⟨n, rfl, -, hmax, hi⟩
    simp only [tracerDestroy, wp_bind]
    cases hd : d.devs a with
    | none =>
        simp only [tracerDestroyTracing, wp_bind, wp_getDev]
        intro dev hdev
        cases hd.symm.trans hdev
    | some dev =>
        have hrow : d.row minor = some dev := row_eq_some.mpr ⟨a, hi, hd⟩
        have hmin : dev.minor = minor := hs.minor hrow
        -- the device is stripped and freed
        have hfree : ∀ (table : Nat → Option Nat) (dev₁ : SnapDevice) (ops : OpsState) (k : Nat),
            (table = update d.snapDevices minor none ∨ (table = d.snapDevices ∧ ¬ Freezes env)) →
            (Freezes env → Hooking env d.row (.destroy minor) d.ops (update d.row minor none) ops) →
            wp (onDev a (do
                tracerDestroyCowThread env
                tracerDestroySnap
                tracerDestroyCowPath
                tracerDestroyCow env .free
                tracerDestroyBaseDev)) (recalculated env { upd d a dev₁ ops k with snapDevices := table })
              (fun _ d₂ => wp (kfree a) d₂ (fun _ d' => Passed env (.destroy minor) d d')
                (Fails fun _ d' => Passed env (.destroy minor) d d'))
              (Fails fun _ d' => Passed env (.destroy minor) d d') := by
          intro table dev₁ ops k htable hk
          refine (wp_onDev (?_ : _ = some dev₁)).mpr ?_
          · exact Function.update_self ..
          apply wp_weaken stripParts_wp
          · intro _ l' _
            rw [kfree_wp]
            refine after_removed (freed ((_ : DriverState).put a l') a) hs hi ?_ ?_ ?_ ?_ rfl (.destroy hrow) hk
            · intro j hj
              rcases htable with rfl | ⟨rfl, -⟩
              · exact Function.update_of_ne hj ..
              · rfl
            · rcases htable with rfl | ⟨rfl, hf⟩
              · exact .inl (Function.update_self ..)
              · exact .inr ⟨hi, hf⟩
            · exact Function.update_self ..
            · intro c hc
              exact (Function.update_of_ne hc ..).trans ((Function.update_of_ne hc ..).trans (Function.update_of_ne hc ..))
          · exact fun _ _ h => h.elim
        cases ho : dev.origOps.isSome with
        | false =>
            rw [Option.isSome_eq_false_iff, Option.isNone_iff_eq_none] at ho
            apply wp_weaken (tracerDestroyTracing_plain_wp (d := d.atCall n) hd ho)
            · rintro _ d₁ rfl
              rw [hmin, show (d.atCall n).snapDevices minor = some a from hi, if_pos rfl]
              apply hfree _ _ _ _ (.inl rfl)
              exact fun _ => .plain hrow ho
            · exact fun _ _ h => h.elim
        | true =>
            have hv : dev.unverified = false := by
              by_contra hv
              rw [(hs.plain hrow (Bool.eq_true_of_not_eq_false hv)).2.1] at ho
              cases ho
            have hi' : (d.atCall n).snapDevices dev.minor = some a := by
              rw [hmin]
              exact hi
            apply wp_weaken (tracerDestroyTracing_hooked_wp (d := d.atCall n) (sound_atCall hs) hd hi' ho)
            · rintro _ d₁ ⟨b, dev₁, table, ops, k, rfl, hb, htable, hdet⟩
              rw [hmin] at htable hdet
              apply hfree table dev₁ ops k htable
              exact fun hf => .detached hrow hv hb (hdet hf)
            · exact fun _ _ h => h.elim
  · rintro c d₁ ⟨n, rfl⟩
    exact .atCall hs

/-- The fields that say where a device is. -/
structure SamePlace (dev dev' : SnapDevice) : Prop where
  minor : dev'.minor = dev.minor
  unverified : dev'.unverified = dev.unverified
  baseDev : dev'.baseDev = dev.baseDev
  origOps : dev'.origOps = dev.origOps
  tracingOps : dev'.tracingOps = dev.tracingOps

theorem SamePlace.trans {dev' dev'' : SnapDevice} (h : SamePlace dev dev') (h' : SamePlace dev' dev'') : SamePlace dev dev'' where
  minor := h'.minor.trans h.minor
  unverified := h'.unverified.trans h.unverified
  baseDev := h'.baseDev.trans h.baseDev
  origOps := h'.origOps.trans h.origOps
  tracingOps := h'.tracingOps.trans h.tracingOps

/-- A device of the table is worked on where it is. -/
theorem after_put (hs : Sound env d) (hi : d.snapDevices i = some a) (hd : d.devs a = some dev)
    (hp : SamePlace dev l.dev) (hact : l.dev.unverified = true → l.dev.active = false)
    (hc : RowChange env d.clock d.row event i (some l.dev)) : Passed env event d (d.put a l) := by
  have hrow : d.row i = some dev := row_eq_some.mpr ⟨a, hi, hd⟩
  constructor
  case sound =>
    apply sound_put hs hi (hp.minor.trans (hs.minor hrow))
    intro hu
    rw [hp.origOps, hp.tracingOps]
    exact ⟨hact hu, (hs.plain hrow (hp.unverified.symm.trans hu)).2⟩
  case effect =>
    rw [put_row hs hi]
    exact .row hc
  case hooking =>
    intro _
    rw [put_row hs hi]
    refine .same (hooked_keep ?_)
    rw [hrow]
    simp only [hookOf, Option.bind_some, hp.unverified, hp.baseDev, hp.origOps, hp.tracingOps]
  case live =>
    intro _ hl j c hj
    rw [put_row hs hi]
    by_cases hji : j = i
    · subst hji
      rw [Function.update_self]
      rfl
    · rw [Function.update_of_ne hji]
      exact hl j c hj

theorem tracerReconfigure_wp {cacheSize : Nat} : wp (tracerReconfigure env cacheSize) l
    (fun _ l' => l'.dev = reconfigured env cacheSize l.dev) (Fails fun _ _ => False) := by
  simp only [tracerReconfigure, wp_bind, wp_modifyDev, wp_get, reconfigured]
  cases ha : l.dev.active with
  | false => rfl
  | true =>
      simp only [if_true]
      cases hc : l.dev.cow with
      | none => trivial
      | some c => rfl

theorem ioctlReconfigure_wp {cacheSize : Nat} (hs : Sound env d) : wp (ioctlReconfigure env minor cacheSize) d
    (fun _ d' => Granted env (.reconfigure minor cacheSize) minor d d')
    (Fails fun _ d' => Passed env (.reconfigure minor cacheSize) d d' ∧ d'.row = d.row) := by
  simp only [ioctlReconfigure, wp_bind]
  apply wp_weaken (verifyMinorInUseNotBusy_wp (d := d))
  · rintro a d₁ ⟨n, rfl, -, -, hi⟩
    simp only [wp_getDev]
    intro dev hd
    split
    next => exact ⟨.atCall hs, rfl⟩
    next hf =>
      have hf' : dev.failCode = none := Option.not_isSome_iff_eq_none.mp hf
      have hrow : d.row minor = some dev := row_eq_some.mpr ⟨a, hi, hd⟩
      rw [wp_onDev hd]
      apply wp_weaken tracerReconfigure_wp
      · intro _ l' hl
        have hc : RowChange env d.clock d.row (.reconfigure minor cacheSize) minor (some l'.dev) := by
          rw [hl]
          exact .reconfigure hrow hf'
        refine ⟨after_put (l := l') hs hi hd ?_ ?_ hc, _, hc, put_row (d := d) (l := l') hs hi⟩
        · rw [hl]
          exact ⟨rfl, rfl, rfl, rfl, rfl⟩
        · rw [hl]
          exact fun hu => (hs.plain hrow hu).1
      · exact fun _ _ h => h.elim
  · rintro c d₁ ⟨n, rfl⟩
    exact ⟨.atCall hs, rfl⟩

theorem failDevice_wp {e : Errno} (hs : Sound env d) : wp (failDevice minor e) d
    (fun _ d' => Passed env (.failure minor e) d d') (Fails fun _ d' => Passed env (.failure minor e) d d') := by
  simp only [failDevice, wp_bind, wp_get]
  cases hi : d.snapDevices minor with
  | none => exact .atCall hs
  | some a =>
      cases hd : d.devs a with
      | none =>
          dsimp only
          unfold wp onDev
          rw [hd]
          trivial
      | some dev =>
          have hrow : d.row minor = some dev := row_eq_some.mpr ⟨a, hi, hd⟩
          dsimp only
          rw [wp_onDev hd, tracerSetFailState, wp_modifyDev]
          exact after_put hs hi hd ⟨rfl, rfl, rfl, rfl, rfl⟩ (fun hu => (hs.plain hrow hu).1) (.failure hrow)

theorem noticeFailure_wp (hs : Sound env d) : wp (noticeFailure minor) d
    (fun _ d' => Passed env (.notice minor) d d') (Fails fun _ d' => Passed env (.notice minor) d d') := by
  simp only [noticeFailure, wp_bind, wp_get]
  cases hi : d.snapDevices minor with
  | none => exact .atCall hs
  | some a =>
      cases hd : d.devs a with
      | none =>
          dsimp only
          unfold wp onDev
          rw [hd]
          trivial
      | some dev =>
          have hrow : d.row minor = some dev := row_eq_some.mpr ⟨a, hi, hd⟩
          dsimp only
          rw [wp_onDev hd, wp_modifyDev]
          by_cases hf : dev.cowThread = .running ∧ dev.failCode.isSome
          · rw [if_pos hf]
            exact after_put hs hi hd ⟨rfl, rfl, rfl, rfl, rfl⟩ (fun hu => (hs.plain hrow hu).1) (.notice hrow hf.2)
          · rw [if_neg hf, put_upd, upd_self hd]
            exact .atCall (n := d.clock) hs

end ElastioSnap.Driver.Ioctls
