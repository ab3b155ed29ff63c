import ElastioSnap.Driver.Steps

namespace ElastioSnap.Driver.CacheSize

open Function (update)
open Lib.Outcome Lib.Runs State Setup Events Component Rows Tracing Effects Hooks Ioctls Mounts Steps
open Cow.Manager (Errno Err)
open Cow.Lifecycle (cowCalculateAllowedSects)

/-- The cache sizes that were asked for, by minor: the last one, and for a dormant device the last one before it
became dormant. -/
structure Requests where
  last : Nat → Nat
  before : Nat → Nat

def Requests.none : Requests := ⟨fun _ => 0, fun _ => 0⟩

def request : Event → (Nat → Nat) → Nat → Nat
  | .setupSnap m _ _ c, last => update last m c
  | .reloadSnap m _ _ c, last => update last m c
  | .reloadInc m _ _ c, last => update last m c
  | .reconfigure m c, last => update last m c
  | _, last => last

def asleep (rows : Table) (i : Nat) : Bool := (rows i).any fun dev => !dev.active && !dev.unverified

def Requests.next (rows : Table) (last : Nat → Nat) (req : Requests) : Requests where
  last := last
  before i := if asleep rows i then req.before i else last i

/-- A step of the driver, with the cache sizes that were asked for at each minor. A request that was refused does
not count. -/
def requestStep (env : Env) (s : DriverState × Requests) (event : Event) : Option (DriverState × Requests) :=
  match exec env event s.1 with
  | .ok _ d' => some (d', s.2.next s.1.row (request event s.2.last))
  | .error (.code _) d' => some (d', s.2.next s.1.row s.2.last)
  | .error .oops _ => none

variable {env : Env} {native : Nat → Nat} {d d' : DriverState} {event : Event} {rows rows' : Table} {i now r : Nat}
  {dev dev' : SnapDevice} {new : Option SnapDevice} {req : Requests}

/-- The limit of the manager and the reported size are those of a request. -/
structure Agrees (env : Env) (r : Nat) (dev : SnapDevice) : Prop where
  limit : ∃ t, dev.cow.map limits = some (t, cowCalculateAllowedSects env.ps (cacheOrDefault env r) t)
  reported : cacheOrDefault env dev.cacheSize = cacheOrDefault env r

/-- A dormant device has the limit that it had, and the size that was asked for since. -/
structure Rests (env : Env) (before last : Nat) (dev : SnapDevice) : Prop where
  limit : ∃ t, dev.cow.map limits = some (t, cowCalculateAllowedSects env.ps (cacheOrDefault env before) t)
  kept : dev.cacheSize = 0 ∨ dev.cacheSize = last

/-- An active device works with the size that was asked for, and a device that is not verified yet
has kept it. -/
structure Cached (env : Env) (rows : Table) (req : Requests) : Prop where
  active : ∀ {i : Nat} {dev : SnapDevice}, rows i = some dev → dev.active = true → Agrees env (req.last i) dev
  waiting : ∀ {i : Nat} {dev : SnapDevice}, rows i = some dev → dev.unverified = true → dev.failCode = none →
    dev.cacheSize = req.last i
  dormant : ∀ {i : Nat} {dev : SnapDevice}, rows i = some dev → dev.active = false → dev.unverified = false →
    dev.failCode = none → Rests env (req.before i) (req.last i) dev

/-- The request allows as many sections as the one before the device became dormant, and where none has been made
since, it is for the default. -/
structure Resumes (env : Env) (before last : Nat) (dev : SnapDevice) : Prop where
  limit : ∀ c, dev.cow = some c → cowCalculateAllowedSects env.ps (cacheOrDefault env before) c.totalSects =
    cowCalculateAllowedSects env.ps (cacheOrDefault env last) c.totalSects
  unasked : dev.cacheSize = 0 → cacheOrDefault env last = cacheOrDefault env 0

/-- The event does not lose the size that was asked for at a minor: where it would be set back to
the default, it is the default, and what was asked of a dormant device that becomes active is what it has. -/
def KeepsCache (env : Env) (s : DriverState × Requests) : Event → Prop
  | .transitionSnap m => ∀ dev, s.1.row m = some dev → dev.active = true → dev.snapshot = false → dev.failCode = none →
      cacheOrDefault env (s.2.last m) = cacheOrDefault env 0
  | .umount b umounted => (umounted = true ∧ ∀ n, s.1.clock ≤ n → n ≤ s.1.clock + 2 → env.fault n = none) ∨
      ∀ i dev, s.1.row i = some dev → dev.active = true → dev.failCode = none → dev.baseDev = some b →
        cacheOrDefault env (s.2.last i) = cacheOrDefault env 0
  | .mount b true => ∀ i dev, s.1.row i = some dev → dev.active = false → dev.unverified = false → dev.failCode = none →
      dev.baseDev = some b → Resumes env (s.2.before i) (s.2.last i) dev
  | _ => True

theorem cacheOrDefault_idem : cacheOrDefault env (cacheOrDefault env r) = cacheOrDefault env r := by
  simp only [cacheOrDefault]
  split <;> simp_all

theorem Agrees.congr (h : Agrees env r dev) (hl : dev'.cow.map limits = dev.cow.map limits)
    (hc : dev'.cacheSize = dev.cacheSize) : Agrees env r dev' where
  limit := by
    rw [hl]
    exact h.limit
  reported := by
    rw [hc]
    exact h.reported

/-- The reported size is set back to the default. -/
theorem Agrees.reset (h : Agrees env r dev) (hl : dev'.cow.map limits = dev.cow.map limits) (hc : dev'.cacheSize = 0)
    (hr : cacheOrDefault env r = cacheOrDefault env 0) : Agrees env r dev' where
  limit := by
    rw [hl]
    exact h.limit
  reported := by rw [hc, hr]

theorem agrees_opened {size c : Nat} (hc : dev.cow = some (openedCow env size (cacheOrDefault env c)))
    (hs : dev.cacheSize = cacheOrDefault env c) : Agrees env c dev where
  limit := ⟨_, by rw [hc]; rfl⟩
  reported := by rw [hs, cacheOrDefault_idem]

theorem Agrees.same {r' : Nat} (h : Agrees env r dev) (hr : cacheOrDefault env r' = cacheOrDefault env r) :
    Agrees env r' dev where
  limit := by
    rw [hr]
    exact h.limit
  reported := by rw [hr, h.reported]

theorem Rests.agrees {before : Nat} (h : Rests env before r dev) (hr : Resumes env before r dev) : Agrees env r dev where
  limit := by
    obtain ⟨t, ht⟩ := h.limit
    obtain ⟨c, hc, hlim⟩ := Option.map_eq_some_iff.mp ht
    obtain rfl : c.totalSects = t := congrArg Prod.fst hlim
    exact ⟨c.totalSects, by rw [ht, hr.limit c hc]⟩
  reported := by
    rcases h.kept with h0 | hlast
    · rw [h0, hr.unasked h0]
    · rw [hlast]

theorem dormant_limits (h : Dormant env now dev dev') : dev'.cow.map limits = dev.cow.map limits := by
  cases h with
  | closed hdr =>
      rw [← hdr.limits, Option.map_map]
      rfl
  | failed hdr =>
      rw [← hdr.limits]
      exact cowFreeMembers_limits _

theorem dormant_cacheSize (h : Dormant env now dev dev') : dev'.cacheSize = 0 := by
  cases h <;> rfl

/-- A device that stays active when it is to go dormant has failed in one of the first three calls. -/
theorem dormant_closed (h : Dormant env now dev dev') (hok : ∀ n, now ≤ n → n ≤ now + 2 → env.fault n = none) :
    dev'.active = false := by
  cases h with
  | closed => rfl
  | failed _ hle hn hf => exact absurd (hok _ hn hle) hf

theorem reopened_limits (h : Reopened dev dev') : dev'.cow.map limits = dev.cow.map limits ∧ dev'.cacheSize = dev.cacheSize := by
  cases h with
  | active =>
      rw [Option.map_map]
      exact ⟨rfl, rfl⟩
  | failed h => exact ⟨h, rfl⟩

theorem checked_limits {umounted : Bool} (h : Checked dev umounted dev') :
    dev'.cow.map limits = dev.cow.map limits ∧ dev'.cacheSize = dev.cacheSize := by
  cases h with
  | kept => exact ⟨rfl, rfl⟩
  | failed => exact ⟨rfl, rfl⟩
  | reopened _ h => exact reopened_limits h

theorem checked_active {umounted : Bool} (hu : umounted = true) (h : Checked dev umounted dev') :
    dev'.active = dev.active := by
  cases h with
  | kept => rfl
  | failed => rfl
  | reopened hf => cases hu.symm.trans hf

theorem request_other {last : Nat → Nat} {j : Nat} (hr : RowChange env now rows event i new) (hj : j ≠ i) :
    request event last j = last j := by
  cases hr with
  | setup | reloadSnap | reloadInc | reconfigure => exact Function.update_of_ne hj ..
  | _ => rfl

theorem asleep_iff : asleep rows i = true ↔ ∃ dev, rows i = some dev ∧ dev.active = false ∧ dev.unverified = false := by
  simp [asleep, Option.any_eq_true]

theorem before_awake {last : Nat → Nat} (h : rows i = some dev) (ha : dev.active = true) :
    (req.next rows last).before i = last i := by
  refine if_neg fun hasleep => ?_
  obtain ⟨old, hold, hn, -⟩ := asleep_iff.mp hasleep
  obtain rfl := Option.some.inj (h.symm.trans hold)
  rw [ha] at hn
  cases hn

theorem before_asleep {last : Nat → Nat} (h : rows i = some dev) (ha : dev.active = false)
    (hv : dev.unverified = false) : (req.next rows last).before i = req.before i :=
  if_pos (asleep_iff.mpr ⟨dev, h, ha, hv⟩)

/-- What is known of a device and of the requests at its minor. -/
structure Known (env : Env) (before last : Nat) (dev : SnapDevice) : Prop where
  active : dev.active = true → Agrees env last dev
  waiting : dev.unverified = true → dev.failCode = none → dev.cacheSize = last
  dormant : dev.active = false → dev.unverified = false → dev.failCode = none → Rests env before last dev

theorem Cached.known (h : Cached env rows req) (hi : rows i = some dev) : Known env (req.before i) (req.last i) dev :=
  ⟨h.active hi, h.waiting hi, h.dormant hi⟩

theorem known_active {before : Nat} (ha : dev.active = true) (hv : dev.unverified = false) (h : Agrees env r dev) :
    Known env before r dev where
  active := fun _ => h
  waiting := fun hu => by
    rw [hv] at hu
    cases hu
  dormant := fun hn => by
    rw [ha] at hn
    cases hn

theorem known_failed {before : Nat} (hf : dev.failCode ≠ none) (h : dev.active = true → Agrees env r dev) :
    Known env before r dev :=
  ⟨h, fun _ hn => absurd hn hf, fun _ _ hn => absurd hn hf⟩

theorem unverified_of_active (hs : Sound env d) (hi : d.row i = some dev) (ha : dev.active = true) :
    dev.unverified = false := by
  refine Bool.eq_false_iff.mpr fun hu => ?_
  rw [(hs.plain hi hu).1] at ha
  cases ha

theorem row_known (hs : Sound env d) (h : Cached env d.row req) (hc : KeepsCache env (d, req) event)
    (hr : RowChange env d.clock d.row event i (some dev)) :
    Known env ((req.next d.row (request event req.last)).before i) (request event req.last i) dev := by
  cases hr with
  | setup =>
      rw [request, Function.update_self]
      exact known_active rfl rfl (agrees_opened rfl rfl)
  | reloadSnap | reloadInc =>
      rw [request, Function.update_self]
      exact ⟨(fun h => by cases h), fun _ _ => rfl, fun _ h => by cases h⟩
  | toInc hi hf hsnap ha hcow hdr =>
      refine known_active rfl rfl ((h.active hi ha).congr hdr.limits ?_)
      simp only [activeInc]
      rw [hdr.eq]
  | toSnap hi hf hsnap ha hb =>
      have hdefault := hc _ hi ha hsnap hf
      exact known_active rfl rfl ((agrees_opened rfl rfl).same hdefault)
  | @reconfigure m c old hi hf =>
      rw [request, Function.update_self]
      refine ⟨fun ha => ?_, fun _ _ => rfl, fun ha hv _ => ?_⟩
      · replace ha : old.active = true := ha
        obtain ⟨t, ht⟩ := (h.active hi ha).limit
        obtain ⟨cow, hcow, hlim⟩ := Option.map_eq_some_iff.mp ht
        refine ⟨⟨cow.totalSects, ?_⟩, rfl⟩
        simp only [reconfigured, ha, hcow, if_true, Option.map_some, limits]
      · replace ha : old.active = false := ha
        rw [before_asleep hi ha hv]
        refine ⟨?_, .inr rfl⟩
        rw [reconfigured, ha, if_neg Bool.false_ne_true]
        exact (h.dormant hi ha hv hf).limit
  | @umount _ b _ old old₁ _ hi hf ha hb hd hch =>
      have hv := unverified_of_active hs hi ha
      have hplace := samePlace_dormant hd
      have hplace' := hplace.trans (samePlace_checked (hplace.unverified.trans hv) hch)
      obtain ⟨hl, hcache⟩ := checked_limits hch
      replace hl := hl.trans (dormant_limits hd)
      replace hcache := hcache.trans (dormant_cacheSize hd)
      refine ⟨fun hact => ?_, fun hu => ?_, fun _ _ _ => ?_⟩
      · rcases hc with ⟨hu, hok⟩ | hdefault
        · rw [checked_active hu hch, dormant_closed hd hok] at hact
          cases hact
        · exact (h.active hi ha).reset hl hcache (hdefault _ _ hi ha hf hb)
      · rw [hplace'.unverified, hv] at hu
        cases hu
      · rw [before_awake hi ha]
        refine ⟨?_, .inl hcache⟩
        rw [hl]
        exact (h.active hi ha).limit
  | mount hi hf ha hv hb hre =>
      have hag := (h.dormant hi ha hv hf).agrees (hc _ _ hi ha hv hf hb)
      cases hre with
      | active hopen =>
          refine known_active rfl rfl (hag.congr ?_ rfl)
          rw [Option.map_map]
          rfl
      | failed hl => exact known_failed (Option.some_ne_none _) fun hact => hag.congr hl rfl
  | @verified _ b _ _ _ _ _ _ dev hi hf hu hb =>
      have hwait : request (.mount b true) req.last i = dev.cacheSize := (h.waiting hi hu hf).symm
      rw [hwait]
      exact known_active rfl rfl (agrees_opened rfl rfl)
  | refused hi hf hu => exact known_failed (Option.some_ne_none _) fun hact => by cases hact
  | failure hi => exact known_failed (Option.some_ne_none _) fun ha => (h.active hi ha).congr rfl rfl
  | notice hi hf =>
      refine known_failed (fun hn => ?_) fun ha => (h.active hi ha).congr (cowFreeMembers_limits _) rfl
      simp only [cowFreeMembers] at hn
      rw [hn] at hf
      cases hf

/-- A row that stays as it is, at a minor of which nothing was asked. -/
theorem known_still {last : Nat → Nat} (h : Cached env d.row req) (hi : d.row i = some dev) (hl : last i = req.last i) :
    Known env ((req.next d.row last).before i) (last i) dev := by
  have hk := h.known hi
  rw [hl]
  refine ⟨hk.active, hk.waiting, fun ha hv => ?_⟩
  rw [before_asleep hi ha hv]
  exact hk.dormant ha hv

theorem cached_of_known {rows : Table} (h : ∀ {i : Nat} {dev : SnapDevice}, rows i = some dev →
    Known env (req.before i) (req.last i) dev) : Cached env rows req :=
  ⟨fun hi => (h hi).active, fun hi => (h hi).waiting, fun hi => (h hi).dormant⟩

theorem cached_effect (hs : Sound env d) (h : Cached env d.row req) (hc : KeepsCache env (d, req) event)
    (hr : RowChange env d.clock d.row event i new) :
    Cached env (update d.row i new) (req.next d.row (request event req.last)) := by
  refine cached_of_known fun {j} {dev} hj => ?_
  rcases update_cases hj with ⟨rfl, rfl⟩ | ⟨hji, hj⟩
  · exact row_known hs h hc hr
  · exact known_still h hj (request_other hr hji)

/-- The rows stay as they are, and nothing is asked. -/
theorem cached_still (h : Cached env d.row req) : Cached env d.row (req.next d.row req.last) :=
  cached_of_known fun hi => known_still h hi rfl

/-- An event that asks for no size. -/
theorem cached_other (hs : Sound env d) (h : Cached env d.row req) (hc : KeepsCache env (d, req) event)
    (hreq : request event req.last = req.last) (he : Effect env d.clock d.row event rows') :
    Cached env rows' (req.next d.row req.last) := by
  cases he with
  | none => exact cached_still h
  | row hr =>
      rw [← hreq]
      exact cached_effect hs h hc hr

theorem cached_ok (hs : Sound env d) (h : Cached env d.row req) (hc : KeepsCache env (d, req) event)
    (he : Effect env d.clock d.row event d'.row) (hd : Done env d event d') :
    Cached env d'.row (req.next d.row (request event req.last)) := by
  cases event with
  | setupSnap | reloadSnap | reloadInc | reconfigure =>
      obtain ⟨dev, hr, hrows⟩ := hd
      rw [hrows]
      exact cached_effect hs h hc hr
  | _ => exact cached_other hs h hc rfl he

theorem cached_error (hs : Sound env d) (h : Cached env d.row req) (hc : KeepsCache env (d, req) event)
    (he : Effect env d.clock d.row event d'.row) (hu : Undone d event d') :
    Cached env d'.row (req.next d.row req.last) := by
  cases event with
  | setupSnap | reloadSnap | reloadInc | reconfigure =>
      rw [show d'.row = d.row from hu]
      exact cached_still h
  | _ => exact cached_other hs h hc rfl he

theorem cached_step {s s' : DriverState × Requests} (hs : Sound env s.1) (h : Cached env s.1.row s.2)
    (hc : KeepsCache env s event) (hstep : requestStep env s event = some s') : Sound env s'.1 ∧ Cached env s'.1.row s'.2 := by
  have hwp : wp (exec env event) s.1 (fun _ d' => Passed env event s.1 d' ∧ Done env s.1 event d')
      (Fails fun _ d' => Passed env event s.1 d' ∧ Undone s.1 event d') := exec_wp hs event
  unfold wp at hwp
  rw [requestStep] at hstep
  cases hexec : exec env event s.1 with
  | ok _ d₁ =>
      rw [hexec] at hstep hwp
      cases hstep
      exact ⟨hwp.1.sound, cached_ok hs h hc hwp.1.effect hwp.2⟩
  | error e d₁ =>
      rw [hexec] at hstep hwp
      cases e with
      | code c =>
          cases hstep
          exact ⟨hwp.1.sound, cached_error hs h hc hwp.1.effect hwp.2⟩
      | oops => cases hstep

theorem cached_reach {s : DriverState × Requests}
    (h : Reach (requestStep env) (KeepsCache env) (.start env native, .none) s) :
    Sound env s.1 ∧ Cached env s.1.row s.2 := by
  refine h.invariant (I := fun s => Sound env s.1 ∧ Cached env s.1.row s.2) ⟨sound_start, ?_⟩ ?_
  · exact cached_of_known fun h => by cases h
  · rintro s event s' ⟨hs, hr⟩ hc hstep
    exact cached_step hs hr hc hstep

/-- An active device works with the cache size that was last asked for, and reports it. -/
theorem cache_kept {s : DriverState × Requests}
    (h : Reach (requestStep env) (KeepsCache env) (.start env native, .none) s)
    (hi : s.1.row i = some dev) (ha : dev.active = true) :
    (∃ c, dev.cow = some c ∧
      c.allowedSects = cowCalculateAllowedSects env.ps (cacheOrDefault env (s.2.last i)) c.totalSects) ∧
    (tracerElastioSnapInfo env dev).cacheSize = cacheOrDefault env (s.2.last i) := by
  have hag := (cached_reach h).2.active hi ha
  refine ⟨?_, hag.reported⟩
  obtain ⟨t, ht⟩ := hag.limit
  obtain ⟨c, hcow, hlim⟩ := Option.map_eq_some_iff.mp ht
  refine ⟨c, hcow, ?_⟩
  rw [limits, Prod.mk.injEq] at hlim
  rw [hlim.1]
  exact hlim.2

/-- After the first setup nothing is written to the block devices any more. -/
def quiet : Env := { calm with writable := fun n _ => decide (n < 16) }

/-- A snapshot becomes an incremental, which is asked for the default again. -/
def backToDefault : List Event := [.setupSnap 0 "/dev/sda1" "/cow" 5, .transitionInc 0, .reconfigure 0 0]

def intoDormancy : List Event := [.transitionSnap 0, .umount 0 true]

def outOfDormancy : List Event := [.mount 0 true, .reconfigure 0 7]

/-- The size is asked for after a change of mode and back and after the device was dormant. -/
theorem cache_kept_cycle : ∃ s dev, Reach (requestStep quiet) (KeepsCache quiet) (.start quiet fun _ => 0, .none) s ∧
    s.1.row 0 = some dev ∧ (tracerElastioSnapInfo quiet dev).cacheSize = 7 := by
  have hfirst : (run (requestStep quiet) (.start quiet fun _ => 0, .none) backToDefault).map (fun s => s.2.last 0) =
      some 0 := by decide +kernel
  have hsecond : (run (requestStep quiet) (.start quiet fun _ => 0, .none) (backToDefault ++ intoDormancy)).map (fun s =>
      (s.2.last 0, s.2.before 0, (s.1.row 1).isSome)) = some (0, 0, false) := by decide +kernel
  have hthird : (run (requestStep quiet) (.start quiet fun _ => 0, .none) (backToDefault ++ intoDormancy ++
      outOfDormancy)).map (fun s => (s.2.last 0, (s.1.row 0).map SnapDevice.active)) = some (7, some true) := by
    decide +kernel
  obtain ⟨s, hs, hdefault⟩ := Option.map_eq_some_iff.mp hfirst
  obtain ⟨t, ht, hpaused⟩ := Option.map_eq_some_iff.mp hsecond
  obtain ⟨u, hu, hlast⟩ := Option.map_eq_some_iff.mp hthird
  rw [run_append, ht, Option.bind_some] at hu
  rw [run_append, hs, Option.bind_some] at ht
  simp only [Prod.mk.injEq] at hpaused hlast
  have hreach : Reach (requestStep quiet) (KeepsCache quiet) (.start quiet fun _ => 0, .none) t := by
    refine (Reach.init.run hs (.cons trivial fun _ => .cons trivial fun _ => .cons trivial fun _ => trivial)).run ht ?_
    refine .cons (fun _ _ _ _ _ => ?_) fun _ => .cons (.inl ⟨rfl, fun _ _ _ => rfl⟩) fun _ => trivial
    rw [hdefault]
  have hreach' : Reach (requestStep quiet) (KeepsCache quiet) (.start quiet fun _ => 0, .none) u := by
    refine hreach.run hu (.cons (fun i dev hi _ _ _ _ => ?_) fun _ => .cons trivial fun _ => trivial)
    have hzero : i = 0 := by
      rcases minor_of_two rfl (cached_reach hreach).1 hi with h0 | h1
      · exact h0
      · rw [h1] at hi
        rw [hi] at hpaused
        cases hpaused.2.2
    rw [hzero, hpaused.1, hpaused.2.1]
    exact ⟨fun _ _ => rfl, fun _ => rfl⟩
  obtain ⟨dev, hdev, ha⟩ := Option.map_eq_some_iff.mp hlast.2
  refine ⟨u, dev, hreach', hdev, ?_⟩
  rw [(cache_kept hreach' hdev ha).2, hlast.1]
  rfl

/-- After an umount that failed, the default is reported again. -/
theorem cache_lost : ¬ ∀ (env : Env) (native : Nat → Nat) (events : List Event) (s : DriverState × Requests) (i : Nat)
    (dev : SnapDevice), run (requestStep env) (.start env native, .none) events = some s → s.1.row i = some dev →
    dev.active = true → (∃ c, dev.cow = some c ∧
      c.allowedSects = cowCalculateAllowedSects env.ps (cacheOrDefault env (s.2.last i)) c.totalSects) ∧
    (tracerElastioSnapInfo env dev).cacheSize = cacheOrDefault env (s.2.last i) := by
  intro h
  have hrun : ∃ s, run (requestStep calm) (.start calm fun _ => 0, .none)
      [.setupSnap 0 "/dev/sda1" "/cow" 5, .umount 0 false] = some s ∧ s.1 = calmState (reactivatedSnap 5) 23 ∧
        s.2.last 0 = 5 := by
    simp only [run, requestStep, calm_setup, calm_umount, Option.bind_some, request]
    exact ⟨_, rfl, rfl, rfl⟩
  obtain ⟨s, hs, hstate, hlast⟩ := hrun
  have hrow : s.1.row 0 = some (reactivatedSnap 5) := by rw [hstate, calmState_row]
  have hreported := (h _ _ _ _ 0 _ hs hrow rfl).2
  rw [hlast] at hreported
  simp [tracerElastioSnapInfo, cacheOrDefault, reactivatedSnap, calm] at hreported

end ElastioSnap.Driver.CacheSize
