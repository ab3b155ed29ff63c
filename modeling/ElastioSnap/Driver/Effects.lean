import ElastioSnap.Driver.Tracing

namespace ElastioSnap.Driver.Effects

open Function (update)
open State Setup Events Component Rows Tracing
open Cow.Manager (Errno Err)

variable {env : Env} {d : DriverState} {a b i n minor : Nat} {dev : SnapDevice} {ops : OpsState} {rows : Table}

/-- A device that a setup, a transition or a reactivation has made active, with a new manager. -/
def activeSnap (env : Env) (minor size b cacheSize : Nat) (path : Option Path) (cowPath : Path) (o : Option Ops) (t : Nat) :
    SnapDevice :=
  { SnapDevice.zero with
    minor := minor
    snapshot := true
    active := true
    size := size
    baseDev := some b
    bdevPath := path
    cow := some (openedCow env size (cacheOrDefault env cacheSize))
    cowPath := some cowPath
    cacheSize := cacheOrDefault env cacheSize
    cowThread := .running
    gd := true
    queue := true
    mrfThread := true
    origOps := o
    tracingOps := some t }

def unverifiedDevice (minor cacheSize : Nat) (isSnap : Bool) (path cowPath : Path) : SnapDevice :=
  { SnapDevice.zero with
    minor := minor
    snapshot := isSnap
    unverified := true
    bdevPath := some path
    cowPath := some cowPath
    cacheSize := cacheSize }

/-- The incremental that takes over from a snapshot, which its worker has left as `old`. -/
def activeInc (minor : Nat) (old : SnapDevice) (o : Option Ops) (t : Nat) : SnapDevice :=
  { SnapDevice.zero with
    minor := minor
    active := true
    failCode := old.failCode
    size := old.size
    baseDev := old.baseDev
    bdevPath := old.bdevPath
    cow := old.cow
    cowPath := old.cowPath
    cacheSize := old.cacheSize
    cowThread := .running
    origOps := o
    tracingOps := some t }

def reconfigured (env : Env) (cacheSize : Nat) (dev : SnapDevice) : SnapDevice :=
  { dev with
    cacheSize := cacheSize
    cow := if dev.active then dev.cow.map fun c => { c with
        allowedSects := Cow.Lifecycle.cowCalculateAllowedSects env.ps (cacheOrDefault env cacheSize) c.totalSects }
      else dev.cow }

/-- The ways in which a device gets out of its active state; `now` counts the calls made before. -/
inductive Dormant (env : Env) (now : Nat) (dev : SnapDevice) : SnapDevice → Prop
  | closed {dev₁ : SnapDevice} (h : Drained dev dev₁) : Dormant env now dev
      { dev₁ with cow := dev₁.cow.map fun c => { c with filp := false }, cacheSize := 0, active := false }
  | failed {dev₁ : SnapDevice} {e : Errno} {n : Nat} (h : Drained dev dev₁) (hle : n ≤ now + 2) (hn : now ≤ n)
      (hf : env.fault n ≠ none) : Dormant env now dev
      { cowFreeMembers dev₁ with cacheSize := 0, failCode := some e }

/-- The ways in which the reactivation of a dormant device ends. -/
inductive Reopened (dev : SnapDevice) : SnapDevice → Prop
  | active (h : dev.cow.isSome) : Reopened dev { dev with
      cow := dev.cow.map fun c => { c with filp := true }
      cowThread := .running
      active := true
      unverified := false }
  | failed {cow : Option CowState} {e : Errno} (h : cow.map limits = dev.cow.map limits) : Reopened dev { dev with
      cow := cow
      failCode := some e }

/-- What the check after an umount does to a device that was made dormant for it. -/
inductive Checked (dev : SnapDevice) (umounted : Bool) : SnapDevice → Prop
  | kept : Checked dev umounted dev
  | failed {e : Errno} : Checked dev umounted { dev with failCode := some (dev.failCode.getD e) }
  | reopened {dev' : SnapDevice} (hu : umounted = false) (h : Reopened dev dev') : Checked dev umounted dev'

/-- No verified device of the table has this base device. -/
def Untraced (rows : Table) (b : Nat) : Prop :=
  ∀ j dev, rows j = some dev → dev.unverified = false → dev.baseDev ≠ some b

/-- The ways in which an event changes the row of a minor. -/
inductive RowChange (env : Env) (now : Nat) (rows : Table) : Event → Nat → Option SnapDevice → Prop
  | setup {m c s b t : Nat} {p q cowPath : Path} {path : Option Path} {o : Option Ops} (hi : rows m = none)
      (hb : Untraced rows b) :
      RowChange env now rows (.setupSnap m p q c) m (some (activeSnap env m s b c path cowPath o t))
  | reloadSnap {m c : Nat} {p q : Path} (hi : rows m = none) :
      RowChange env now rows (.reloadSnap m p q c) m (some (unverifiedDevice m c true p q))
  | reloadInc {m c : Nat} {p q : Path} (hi : rows m = none) :
      RowChange env now rows (.reloadInc m p q c) m (some (unverifiedDevice m c false p q))
  | destroy {m : Nat} {dev : SnapDevice} (hi : rows m = some dev) : RowChange env now rows (.destroy m) m none
  | toInc {m t : Nat} {o : Option Ops} {old old' : SnapDevice} (hi : rows m = some old) (hf : old.failCode = none)
      (hs : old.snapshot = true) (ha : old.active = true) (hc : old.cow.isSome) (hdr : Drained old old') :
      RowChange env now rows (.transitionInc m) m (some (activeInc m old' o t))
  | toSnap {m b t : Nat} {o : Option Ops} {cowPath : Path} {old : SnapDevice} (hi : rows m = some old)
      (hf : old.failCode = none) (hs : old.snapshot = false) (ha : old.active = true) (hb : old.baseDev = some b) :
      RowChange env now rows (.transitionSnap m) m (some (activeSnap env m old.size b 0 old.bdevPath cowPath o t))
  | reconfigure {m c : Nat} {dev : SnapDevice} (hi : rows m = some dev) (hf : dev.failCode = none) :
      RowChange env now rows (.reconfigure m c) m (some (reconfigured env c dev))
  | umount {i b : Nat} {umounted : Bool} {dev dev₁ dev₂ : SnapDevice} (hi : rows i = some dev)
      (hf : dev.failCode = none) (ha : dev.active = true) (hb : dev.baseDev = some b)
      (hd : Dormant env now dev dev₁) (hc : Checked dev₁ umounted dev₂) :
      RowChange env now rows (.umount b umounted) i (some dev₂)
  | mount {i b : Nat} {dev dev' : SnapDevice} (hi : rows i = some dev) (hf : dev.failCode = none)
      (ha : dev.active = false) (hu : dev.unverified = false) (hb : dev.baseDev = some b) (hr : Reopened dev dev') :
      RowChange env now rows (.mount b true) i (some dev')
  | verified {i b s c t : Nat} {path : Option Path} {cowPath : Path} {o : Option Ops} {dev : SnapDevice}
      (hi : rows i = some dev) (hf : dev.failCode = none) (hu : dev.unverified = true) (hb : Untraced rows c) :
      RowChange env now rows (.mount b true) i (some { activeSnap env i s c dev.cacheSize path cowPath o t with
        snapshot := dev.snapshot
        gd := dev.snapshot || dev.gd
        queue := dev.snapshot || dev.queue
        mrfThread := dev.snapshot || dev.mrfThread
        ignoreRequests := dev.ignoreRequests })
  | refused {i b : Nat} {p q : Path} {e : Errno} {ignored : Bool} {dev : SnapDevice} (hi : rows i = some dev)
      (hf : dev.failCode = none) (hu : dev.unverified = true) :
      RowChange env now rows (.mount b true) i (some { unverifiedDevice i dev.cacheSize dev.snapshot p q with
        failCode := some e
        ignoreRequests := ignored })
  | lost {i b : Nat} {dev : SnapDevice} (hi : rows i = some dev) (hf : dev.failCode = none)
      (hu : dev.unverified = true) : RowChange env now rows (.mount b true) i none
  | failure {m : Nat} {e : Errno} {dev : SnapDevice} (hi : rows m = some dev) :
      RowChange env now rows (.failure m e) m (some { dev with failCode := some (dev.failCode.getD e) })
  | notice {m : Nat} {dev : SnapDevice} (hi : rows m = some dev) (hf : dev.failCode.isSome) :
      RowChange env now rows (.notice m) m (some (cowFreeMembers dev))

/-- An event changes at most one row. -/
inductive Effect (env : Env) (now : Nat) (rows : Table) (event : Event) : Table → Prop
  | none : Effect env now rows event rows
  | row {i : Nat} {new : Option SnapDevice} (h : RowChange env now rows event i new) :
      Effect env now rows event (update rows i new)

end ElastioSnap.Driver.Effects
