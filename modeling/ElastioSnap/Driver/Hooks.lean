import ElastioSnap.Driver.Effects
import Mathlib.Data.Finset.Card

namespace ElastioSnap.Driver.Hooks

open Function (update)
open State Tracing

variable {env : Env} {native : Nat → Nat} {ops ops' : OpsState} {rows : Table} {a b k m n t : Nat}

/-- What a verified device keeps of the disk it is on. -/
structure Hook where
  baseDev : Option Nat
  origOps : Option Ops
  tracingOps : Option Nat

def hookOf (row : Option SnapDevice) : Option Hook :=
  row.bind fun dev => if dev.unverified then none else some ⟨dev.baseDev, dev.origOps, dev.tracingOps⟩

def hooked (rows : Table) : Nat → Option Hook := fun i => hookOf (rows i)

variable {hooks : Nat → Option Hook} {h : Hook}

/-- The minors of the devices that have a reference to tracing operations. -/
def users (env : Env) (hooks : Nat → Option Hook) (t : Nat) : Finset Nat :=
  (Finset.range env.maxSnapDevices).filter fun i => (hooks i).bind Hook.tracingOps = some t

/-- The operations of the disks against the devices on them. -/
structure Hooked (env : Env) (native : Nat → Nat) (hooks : Nat → Option Hook) (ops : OpsState) : Prop where
  idle : ∀ {k n : Nat}, ops.bdOps k = .native n → n = native k
  traced : ∀ {k t : Nat}, ops.bdOps k = .copy t → ∃ i h b, hooks i = some h ∧ h.baseDev = some b ∧ env.disk b = k
  device : ∀ {i : Nat} {h : Hook}, hooks i = some h → ∃ b t, h.baseDev = some b ∧
    ops.bdOps (env.disk b) = .copy t ∧ h.tracingOps = some t ∧ h.origOps = some (.native (native (env.disk b)))
  apart : ∀ {k k' t : Nat}, ops.bdOps k = .copy t → ops.bdOps k' = .copy t → k = k'
  counted : ∀ {k t : Nat}, ops.bdOps k = .copy t → ∃ r, ops.refs t = some r ∧ (users env hooks t).card ≤ r
  small : ∀ {t r : Nat}, ops.refs t = some r → r < 2 ^ 32
  bound : ∀ {k t : Nat}, ops.bdOps k = .copy t → t < ops.nextOps

theorem update_cases {α : Type} {f : Nat → α} {v w : α} (h : update f a v k = w) : (k = a ∧ v = w) ∨ (k ≠ a ∧ f k = w) := by
  by_cases hka : k = a
  · subst hka
    rw [Function.update_self] at h
    exact .inl ⟨rfl, h⟩
  · rw [Function.update_of_ne hka] at h
    exact .inr ⟨hka, h⟩

/-- No count of references is at its largest value. -/
def Room (ops : OpsState) : Prop := ∀ t r, ops.refs t = some r → r + 1 < 2 ^ 32

theorem hookOf_eq_some {row : Option SnapDevice} : hookOf row = some h ↔ ∃ dev, row = some dev ∧ dev.unverified = false ∧
    h = ⟨dev.baseDev, dev.origOps, dev.tracingOps⟩ := by
  rw [hookOf, Option.bind_eq_some_iff]
  constructor
  · rintro ⟨dev, hrow, hdev⟩
    split at hdev
    next => cases hdev
    next hu => exact ⟨dev, hrow, Bool.eq_false_iff.mpr hu, (Option.some.inj hdev).symm⟩
  · rintro ⟨dev, hrow, hu, rfl⟩
    exact ⟨dev, hrow, by simp [hu]⟩

theorem hooked_update {new : Option SnapDevice} : hooked (update rows m new) = update (hooked rows) m (hookOf new) := by
  funext i
  by_cases hi : i = m
  · subst hi
    simp only [hooked, Function.update_self]
  · simp only [hooked, Function.update_of_ne hi]

theorem hooked_keep {new : Option SnapDevice} (hnew : hookOf new = hookOf (rows m)) :
    hooked (update rows m new) = hooked rows := by
  rw [hooked_update, hnew]
  exact Function.update_eq_self m (hooked rows)

theorem mem_users {i : Nat} : i ∈ users env hooks t ↔
    i < env.maxSnapDevices ∧ ∃ h, hooks i = some h ∧ h.tracingOps = some t := by
  rw [users, Finset.mem_filter, Finset.mem_range, Option.bind_eq_some_iff]

theorem Hooked.start : Hooked env native (hooked fun _ => none) ⟨fun k => .native (native k), fun _ => none, 0⟩ where
  idle h := (Ops.native.inj h).symm
  traced h := by cases h
  device h := by cases h
  apart h := by cases h
  counted h := by cases h
  small h := by cases h
  bound h := by cases h

theorem users_update (hne : (h.tracingOps = some t → ∃ h', hooks m = some h' ∧ h'.tracingOps = some t)) :
    users env (update hooks m (some h)) t ⊆ users env hooks t := by
  intro i hi
  obtain ⟨hlt, h', hh', ht⟩ := mem_users.mp hi
  by_cases him : i = m
  · subst him
    rw [Function.update_self] at hh'
    cases hh'
    obtain ⟨h'', hh'', ht''⟩ := hne ht
    exact mem_users.mpr ⟨hlt, h'', hh'', ht''⟩
  · rw [Function.update_of_ne him] at hh'
    exact mem_users.mpr ⟨hlt, h', hh', ht⟩

theorem users_update_le {new : Option Hook} : (users env (update hooks m new) t).card ≤ (users env hooks t).card + 1 := by
  apply (Finset.card_le_card (t := insert m (users env hooks t)) ?_).trans (Finset.card_insert_le _ _)
  intro i hi
  obtain ⟨hlt, h', hh', ht⟩ := mem_users.mp hi
  by_cases him : i = m
  · exact Finset.mem_insert.mpr (.inl him)
  · rw [Function.update_of_ne him] at hh'
    exact Finset.mem_insert_of_mem (mem_users.mpr ⟨hlt, h', hh', ht⟩)

theorem users_remove : users env (update hooks m none) t = (users env hooks t).erase m := by
  ext i
  rw [Finset.mem_erase, mem_users, mem_users]
  by_cases him : i = m
  · subst him
    simp
  · simp [him]

/-- A device on a disk that is traced already shares the tracing operations; its reference is
counted. -/
theorem Hooked.share (hk : Hooked env native hooks ops) (hroom : Room ops)
    (hm : ∀ h, hooks m = some h → h.baseDev = some b) (ht : ops.bdOps (env.disk b) = .copy t) {r : Nat}
    (hr : ops.refs t = some r) : Hooked env native
      (update hooks m (some ⟨some b, some (.native (native (env.disk b))), some t⟩))
      { ops with bdOps := update ops.bdOps (env.disk b) (.copy t), refs := update ops.refs t (some ((r + 1) % 2 ^ 32)) } := by
  have hsame : update ops.bdOps (env.disk b) (.copy t) = ops.bdOps := by
    rw [← ht]
    exact Function.update_eq_self _ _
  have hmod : (r + 1) % 2 ^ 32 = r + 1 := Nat.mod_eq_of_lt (hroom t r hr)
  rw [hsame, hmod]
  constructor
  case idle => exact hk.idle
  case apart => exact hk.apart
  case bound => exact hk.bound
  case traced =>
    intro k u hu
    obtain ⟨i, h, c, hi, hc, hdisk⟩ := hk.traced hu
    by_cases him : i = m
    · subst him
      have hcb : c = b := Option.some.inj (hc.symm.trans (hm h hi))
      exact ⟨i, _, b, Function.update_self .., rfl, hcb ▸ hdisk⟩
    · exact ⟨i, h, c, (Function.update_of_ne him ..).trans hi, hc, hdisk⟩
  case device =>
    intro i h hi
    rcases update_cases hi with ⟨-, hi⟩ | ⟨-, hi⟩
    · cases hi
      exact ⟨b, t, rfl, ht, rfl, rfl⟩
    · exact hk.device hi
  case counted =>
    intro k u hu
    obtain ⟨r', hr', hle⟩ := hk.counted hu
    by_cases hut : u = t
    · subst hut
      rw [hr] at hr'
      cases hr'
      exact ⟨r + 1, Function.update_self .., users_update_le.trans (Nat.add_le_add_right hle 1)⟩
    · refine ⟨r', (Function.update_of_ne hut ..).trans hr', (Finset.card_le_card (users_update ?_)).trans hle⟩
      intro h
      exact absurd (Option.some.inj h).symm hut
  case small =>
    intro u r' hr'
    rcases update_cases hr' with ⟨-, hr'⟩ | ⟨-, hr'⟩
    · cases hr'
      exact hroom t r hr
    · exact hk.small hr'

/-- The first device on a disk gets tracing operations of its own. -/
theorem Hooked.first (hk : Hooked env native hooks ops) (hm : ∀ h, hooks m = some h → h.baseDev = some b)
    (hn : ops.bdOps (env.disk b) = .native n) : Hooked env native
      (update hooks m (some ⟨some b, some (.native n), some ops.nextOps⟩))
      ⟨update ops.bdOps (env.disk b) (.copy ops.nextOps), update ops.refs ops.nextOps (some 1), ops.nextOps + 1⟩ := by
  obtain rfl := hk.idle hn
  have hempty : hooks m = none := by
    cases h : hooks m with
    | none => rfl
    | some h' =>
        obtain ⟨c, t, hc, ht, -⟩ := hk.device h
        rw [hm h' h] at hc
        cases hc
        rw [hn] at ht
        cases ht
  have hold : ∀ {k t : Nat}, update ops.bdOps (env.disk b) (.copy ops.nextOps) k = .copy t →
      (k = env.disk b ∧ t = ops.nextOps) ∨ (k ≠ env.disk b ∧ ops.bdOps k = .copy t ∧ t ≠ ops.nextOps) := by
    intro k t h
    rcases update_cases h with ⟨hkb, h⟩ | ⟨hkb, h⟩
    · exact .inl ⟨hkb, (Ops.copy.inj h).symm⟩
    · exact .inr ⟨hkb, h, (hk.bound h).ne⟩
  have hother : ∀ {i : Nat} {h : Hook}, hooks i = some h → ∀ c, h.baseDev = some c → env.disk c ≠ env.disk b := by
    intro i h hi c hc heq
    obtain ⟨c', t, hc', ht, -⟩ := hk.device hi
    rw [hc] at hc'
    cases hc'
    rw [heq, hn] at ht
    cases ht
  constructor
  case idle =>
    intro k n h
    rcases update_cases h with ⟨-, h⟩ | ⟨-, h⟩
    · cases h
    · exact hk.idle h
  case traced =>
    intro k t h
    rcases hold h with ⟨rfl, -⟩ | ⟨hkb, h, -⟩
    · exact ⟨m, _, b, Function.update_self .., rfl, rfl⟩
    · obtain ⟨i, h', c, hi, hc, hdisk⟩ := hk.traced h
      have him : i ≠ m := by
        rintro rfl
        rw [hempty] at hi
        cases hi
      exact ⟨i, h', c, (Function.update_of_ne him ..).trans hi, hc, hdisk⟩
  case device =>
    intro i h hi
    rcases update_cases hi with ⟨-, hi⟩ | ⟨-, hi⟩
    · cases hi
      exact ⟨b, ops.nextOps, rfl, Function.update_self .., rfl, rfl⟩
    · obtain ⟨c, t, hc, ht, hrest⟩ := hk.device hi
      exact ⟨c, t, hc, (Function.update_of_ne (hother hi c hc) ..).trans ht, hrest⟩
  case apart =>
    intro k k' t h h'
    rcases hold h with ⟨rfl, rfl⟩ | ⟨-, h, hne⟩
    · rcases hold h' with ⟨rfl, -⟩ | ⟨-, -, hne⟩
      · rfl
      · exact absurd rfl hne
    · rcases hold h' with ⟨-, rfl⟩ | ⟨-, h', -⟩
      · exact absurd rfl hne
      · exact hk.apart h h'
  case counted =>
    intro k t h
    rcases hold h with ⟨-, rfl⟩ | ⟨-, h, hne⟩
    · refine ⟨1, Function.update_self .., Finset.card_le_one_iff_subset_singleton.mpr ⟨m, ?_⟩⟩
      intro i hi
      obtain ⟨-, h', hh', ht⟩ := mem_users.mp hi
      rw [Finset.mem_singleton]
      by_contra him
      rw [Function.update_of_ne him] at hh'
      obtain ⟨c, u, -, hu, hu', -⟩ := hk.device hh'
      rw [ht] at hu'
      cases hu'
      exact Nat.lt_irrefl _ (hk.bound hu)
    · obtain ⟨r, hr, hle⟩ := hk.counted h
      refine ⟨r, (Function.update_of_ne hne ..).trans hr, (Finset.card_le_card (users_update ?_)).trans hle⟩
      intro heq
      exact absurd (Option.some.inj heq).symm hne
  case small =>
    intro t r hr
    rcases update_cases hr with ⟨-, hr⟩ | ⟨-, hr⟩
    · cases hr
      decide
    · exact hk.small hr
  case bound =>
    intro k t h
    rcases hold h with ⟨-, rfl⟩ | ⟨-, h, -⟩
    · exact Nat.lt_succ_self _
    · exact Nat.lt_succ_of_lt (hk.bound h)

theorem Hooked.attach {o : Option Ops} (hk : Hooked env native hooks ops) (hroom : Room ops) (hrows : hooked rows = hooks)
    (hm : ∀ h, hooks m = some h → h.baseDev = some b) (ha : Attached env rows ops b o t ops') :
    Hooked env native (update hooks m (some ⟨some b, o, some t⟩)) ops' := by
  have hshared : ∀ {u i c : Nat} {cur : SnapDevice}, ops.bdOps (env.disk b) = .copy u → rows i = some cur →
      cur.unverified = false → cur.baseDev = some c → ops.bdOps (env.disk c) = .copy u →
      cur.tracingOps = some u ∧ cur.origOps = some (.native (native (env.disk b))) := by
    intro u i c cur hu hi hv hc hcu
    have hhook : hooks i = some ⟨cur.baseDev, cur.origOps, cur.tracingOps⟩ := by
      rw [← hrows]
      exact hookOf_eq_some.mpr ⟨cur, hi, hv, rfl⟩
    obtain ⟨c', u', hc', hu', ht', ho'⟩ := hk.device hhook
    obtain rfl : c = c' := Option.some.inj (hc.symm.trans hc')
    rw [hcu] at hu'
    cases hu'
    rw [hk.apart hcu hu] at ho'
    exact ⟨ht', ho'⟩
  cases ha with
  | known hf =>
      cases hf with
      | shared hu hi hv hc hcu ht hr =>
          obtain ⟨ht', ho'⟩ := hshared hu hi hv hc hcu
          obtain rfl := Option.some.inj (ht.symm.trans ht')
          rw [ho']
          exact hk.share hroom hm hu hr
  | made hf =>
      cases hf with
      | first hn => exact hk.first hm hn
      | lost hu hi hv hc hcu ht =>
          cases (hshared hu hi hv hc hcu).1.symm.trans ht

theorem users_remove_le : (users env (update hooks m none) t).card ≤ (users env hooks t).card := by
  rw [users_remove]
  exact Finset.card_le_card (Finset.erase_subset _ _)

/-- The last device on a disk gives it its own operations back. -/
theorem Hooked.last {r' : Option Nat} (hk : Hooked env native hooks ops) (hm : hooks m = some h) (hb : h.baseDev = some b)
    (ht : ops.bdOps (env.disk b) = .copy t) (hr' : ∀ r, r' = some r → r < 2 ^ 32)
    (haway : ∀ i h' c, i ≠ m → hooks i = some h' → h'.baseDev = some c → env.disk c ≠ env.disk b) :
    Hooked env native (update hooks m none)
      { ops with bdOps := update ops.bdOps (env.disk b) (.native (native (env.disk b))), refs := update ops.refs t r' } := by
  have hold : ∀ {k u : Nat}, update ops.bdOps (env.disk b) (.native (native (env.disk b))) k = .copy u →
      k ≠ env.disk b ∧ ops.bdOps k = .copy u := by
    intro k u h
    rcases update_cases h with ⟨-, h⟩ | h
    · cases h
    · exact h
  constructor
  case idle =>
    intro k n h
    rcases update_cases h with ⟨hkb, hn⟩ | ⟨-, hn⟩
    · rw [hkb]
      exact (Ops.native.inj hn).symm
    · exact hk.idle hn
  case traced =>
    intro k u h
    obtain ⟨hkb, h⟩ := hold h
    obtain ⟨i, h', c, hi, hc, hdisk⟩ := hk.traced h
    have him : i ≠ m := by
      rintro rfl
      cases hm.symm.trans hi
      cases hb.symm.trans hc
      exact hkb hdisk.symm
    exact ⟨i, h', c, (Function.update_of_ne him ..).trans hi, hc, hdisk⟩
  case device =>
    intro i h' hi
    rcases update_cases hi with ⟨-, hi⟩ | ⟨him, hi⟩
    · cases hi
    · obtain ⟨c, u, hc, hu, hrest⟩ := hk.device hi
      exact ⟨c, u, hc, (Function.update_of_ne (haway i h' c him hi hc) ..).trans hu, hrest⟩
  case apart => exact fun h h' => hk.apart (hold h).2 (hold h').2
  case counted =>
    intro k u h
    obtain ⟨hkb, h⟩ := hold h
    obtain ⟨r, hr, hle⟩ := hk.counted h
    have hut : u ≠ t := fun hut => hkb (hk.apart h (hut ▸ ht))
    exact ⟨r, (Function.update_of_ne hut ..).trans hr, users_remove_le.trans hle⟩
  case small =>
    intro u r h
    rcases update_cases h with ⟨-, h⟩ | ⟨-, h⟩
    · exact hr' r h
    · exact hk.small h
  case bound => exact fun h => hk.bound (hold h).2

/-- A device leaves a disk to another one, and its reference is put. -/
theorem Hooked.leave {h' : Hook} {c i r : Nat} (hk : Hooked env native hooks ops) (hm : hooks m = some h)
    (hb : h.baseDev = some b) (hmem : m ∈ users env hooks t) (hr : ops.refs t = some r)
    (hle : (users env hooks t).card ≤ r) (him : i ≠ m) (hi : hooks i = some h') (hc : h'.baseDev = some c)
    (hdisk : env.disk c = env.disk b) :
    Hooked env native (update hooks m none) { ops with refs := update ops.refs t (some (r - 1)) } := by
  constructor
  case idle => exact hk.idle
  case apart => exact hk.apart
  case bound => exact hk.bound
  case traced =>
    intro k u hu
    obtain ⟨j, g, c', hj, hc', hdisk'⟩ := hk.traced hu
    by_cases hjm : j = m
    · subst hjm
      cases hm.symm.trans hj
      obtain rfl : b = c' := Option.some.inj (hb.symm.trans hc')
      exact ⟨i, h', c, (Function.update_of_ne him ..).trans hi, hc, hdisk.trans hdisk'⟩
    · exact ⟨j, g, c', (Function.update_of_ne hjm ..).trans hj, hc', hdisk'⟩
  case device =>
    intro j g hj
    rcases update_cases hj with ⟨-, hj⟩ | ⟨-, hj⟩
    · cases hj
    · exact hk.device hj
  case counted =>
    intro k u hu
    by_cases hut : u = t
    · subst hut
      refine ⟨r - 1, Function.update_self .., ?_⟩
      rw [users_remove, Finset.card_erase_of_mem hmem]
      exact Nat.sub_le_sub_right hle 1
    · obtain ⟨r', hr', hle'⟩ := hk.counted hu
      exact ⟨r', (Function.update_of_ne hut ..).trans hr', users_remove_le.trans hle'⟩
  case small =>
    intro u r' hu
    rcases update_cases hu with ⟨-, hu⟩ | ⟨-, hu⟩
    · have := hk.small hr
      rw [← Option.some.inj hu]
      omega
    · exact hk.small hu

/-- The disk of the last device on it gets its own operations back, and the tracing operations
lose the reference of the device that goes. -/
theorem Hooked.detach {dev : SnapDevice} (hk : Hooked env native (hooked rows) ops)
    (hmax : ∀ i dev, rows i = some dev → i < env.maxSnapDevices) (hm : rows m = some dev)
    (hv : dev.unverified = false) (hb : dev.baseDev = some b)
    (hd : Detached env rows dev ops b m ops') : Hooked env native (update (hooked rows) m none) ops' := by
  have hhook : hooked rows m = some ⟨dev.baseDev, dev.origOps, dev.tracingOps⟩ := hookOf_eq_some.mpr ⟨dev, hm, hv, rfl⟩
  obtain ⟨b', t, hb', ht, htr, horig⟩ := hk.device hhook
  obtain rfl : b = b' := Option.some.inj (hb.symm.trans hb')
  replace htr : dev.tracingOps = some t := htr
  replace horig : dev.origOps = some (.native (native (env.disk b))) := horig
  obtain ⟨r, hr, hle⟩ := hk.counted ht
  have hmem : m ∈ users env (hooked rows) t := mem_users.mpr ⟨hmax m dev hm, _, hhook, htr⟩
  cases hd with
  | reset hu hn ho =>
      cases horig.symm.trans ho
      simp only [htr, released, hr, Option.bind_some]
      apply hk.last hhook hb ht
      · intro r' h
        split at h
        next => cases h
        next =>
          rw [← Option.some.inj h]
          exact Nat.mod_lt _ (by decide)
      · -- another device on the same disk would be found by the test for one
        intro i h' c him hi hc hdisk
        obtain ⟨cur, hcur, hv', rfl⟩ := hookOf_eq_some.mp hi
        exact hn ⟨i, cur, c, him, hcur, hv', hc, by rw [hdisk]⟩
  | kept hs =>
      obtain ⟨i, cur, c, him, hi, hcv, hc, hdisk⟩ := hs (by rw [ht]; rfl)
      have hcur : hooked rows i = some ⟨cur.baseDev, cur.origOps, cur.tracingOps⟩ := hookOf_eq_some.mpr ⟨cur, hi, hcv, rfl⟩
      have hctr : cur.tracingOps = some t := by
        obtain ⟨c', u, hc', hu, hu', -⟩ := hk.device hcur
        obtain rfl : c = c' := Option.some.inj (hc.symm.trans hc')
        rw [hdisk, ht] at hu
        cases hu
        exact hu'
      have himem : i ∈ users env (hooked rows) t := mem_users.mpr ⟨hmax i cur hi, _, hcur, hctr⟩
      have htwo : 1 < (users env (hooked rows) t).card := Finset.one_lt_card.mpr ⟨i, himem, m, hmem, him⟩
      have hmod : (r + (2 ^ 32 - 1)) % 2 ^ 32 = r - 1 := by
        have := hk.small hr
        omega
      simp only [htr, released, hr, Option.bind_some, if_neg (show r ≠ 1 by omega), hmod]
      exact hk.leave hhook hb hmem hr hle him hcur hc (hk.apart (hdisk.trans ht) ht)

end ElastioSnap.Driver.Hooks
