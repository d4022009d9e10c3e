import DevMgr.Daemon.Platform

/-!
# Enforcement of the disabled entries

The sweep and the hotplug callback re-apply an entry to the device found for it.
A device is found by its key or by the path it was last seen at, in the
enumeration first and then in sysfs. Before each write the guard is asked again.
-/

open DevMgr.Core

namespace DevMgr.Daemon
open Bytes Program

inductive HotplugEvent.Action where
  | added
  | removed
  | changed
  deriving DecidableEq

structure HotplugEvent where
  action : HotplugEvent.Action
  device : Device

def needsApply (entry : DisabledDeviceEntry) (device : Device) : Bool :=
  if entry.mechanism = str "authorized" then device.status ≠ .disabled
  else device.boundDriver.isSome

def Allowed {W : Type} (P : Platform W) (s : State W) (path : Str) : Prop :=
  (evaluateDisable (P.facts s.world) path).allowed = true

def FoundFor (entry : DisabledDeviceEntry) (device : Device) : Prop :=
  matchesDevice entry.key device = true ∨ entry.lastSysfsPath = device.sysfsPath

instance (entry : DisabledDeviceEntry) (device : Device) : Decidable (FoundFor entry device) :=
  inferInstanceAs (Decidable (_ ∨ _))

/-- The matching ladder: the enumeration by key or stored path, then the stored path in sysfs. -/
def locate (all : List Device) (entry : DisabledDeviceEntry) : Prog daemon (Option Device) := do
  match all.find? fun device => FoundFor entry device with
  | some device => return some device
  | none =>
    if entry.lastSysfsPath = [] then return none
    if ¬ (← call (S := daemon) (.isDirectory entry.lastSysfsPath)) then return none
    return some (← deviceFromSysfs entry.lastSysfsPath)

def reapplyLocked (entry : DisabledDeviceEntry) (device : Device) : Prog daemon Unit := do
  match ← (setEnabled (some ⟨entry, device⟩) device.sysfsPath false []).run with
  | .error _ => return
  | .ok _ =>
    if entry.lastSysfsPath ≠ device.sysfsPath then
      let _ ← (setLastSysfsPath entry.key device.sysfsPath).run
    if entry.guardSuspended then
      let _ ← (setGuardSuspended entry.key false).run

def maybeReapply (entry : DisabledDeviceEntry) (device : Device) : Prog daemon Unit := do
  if ¬ needsApply entry device then return
  match ← probe.run with
  | .error _ => return
  | .ok facts =>
    if ¬ (evaluateDisable facts device.sysfsPath).allowed then
      let _ ← (setGuardSuspended entry.key true).run
    else locked (reapplyLocked entry device)

def enumerated : Prog daemon (List Device) := do
  match ← enumerate.run with
  | .error _ => return []
  | .ok all => return all

def sweepEntry (all : List Device) (entry : DisabledDeviceEntry) : Prog daemon Unit := do
  match ← locate all entry with
  | none => return
  | some device => maybeReapply entry device

def sweep : Prog daemon Unit := do
  let all ← enumerated
  forEach (← entries) (sweepEntry all)

def onHotplug (event : HotplugEvent) : Prog daemon Unit := do
  if event.action = .removed then return
  match ← findFor event.device with
  | none => return
  | some entry => maybeReapply entry event.device

section BehindGuard
variable {α : Type} (entry : DisabledDeviceEntry) (device : Device) (done : α) (failed : Error → α)
  (refused : GuardVerdict → Prog daemon α) (write : Prog daemon α)

/-- What is done for a device in the desired state, when the prober fails, when the guard refuses,
and when it lets the write go. -/
def behindGuard : Prog daemon α := do
  if ¬ needsApply entry device then return done
  match ← probe.run with
  | .error error => return failed error
  | .ok facts =>
    let verdict := evaluateDisable facts device.sysfsPath
    if ¬ verdict.allowed then refused verdict else write

end BehindGuard

theorem maybeReapply_eq (entry : DisabledDeviceEntry) (device : Device) :
    maybeReapply entry device = behindGuard entry device () (fun _ => ())
      (fun _ => do let _ ← (setGuardSuspended entry.key true).run)
      (locked (reapplyLocked entry device)) := rfl

theorem wp_behindGuard {α G : Type} {pre : Op → G → Prop} {next : (o : Op) → o.Ret → G → G}
    {Q : α → G → Prop} {g : G} {entry : DisabledDeviceEntry} {device : Device} {done : α}
    {failed : Error → α} {refused : GuardVerdict → Prog daemon α} {write : Prog daemon α}
    (hdone : needsApply entry device = false → Q done g) (hpre : pre .probe g)
    (hfailed : ∀ error, Q (failed error) (next .probe (.error error) g))
    (hrefused : ∀ facts, (evaluateDisable facts device.sysfsPath).allowed = false →
      Wp (S := daemon) pre next (refused (evaluateDisable facts device.sysfsPath)) Q
        (next .probe (.ok facts) g))
    (hwrite : ∀ facts, (evaluateDisable facts device.sysfsPath).allowed = true →
      Wp (S := daemon) pre next write Q (next .probe (.ok facts) g)) :
    Wp (S := daemon) pre next (behindGuard entry device done failed refused write) Q g := by
  unfold behindGuard
  by_cases hneeds : needsApply entry device = true
  · rw [if_neg (not_not.mpr hneeds)]
    refine wp_bind.mpr (wp_probe.mpr ⟨hpre, fun result => ?_⟩)
    cases result with
    | error error => exact hfailed error
    | ok facts =>
      dsimp only
      by_cases hallowed : (evaluateDisable facts device.sysfsPath).allowed = true
      · rw [if_neg (not_not.mpr hallowed)]
        exact hwrite facts hallowed
      · rw [if_pos hallowed]
        exact hrefused facts (by simpa using hallowed)
  · rw [if_pos hneeds]
    exact hdone (by simpa using hneeds)

theorem sees_enumerated : Only Op.Sees enumerated := by
  refine only_bind (only_call.mpr trivial) fun result => ?_
  cases result <;> exact only_pure _

theorem sees_locate (all : List Device) (entry : DisabledDeviceEntry) :
    Only Op.Sees (locate all entry) := by
  unfold locate
  split
  · exact only_pure _
  · split_ifs
    · exact only_pure _
    · refine only_bind (only_call.mpr trivial) fun present => ?_
      split_ifs
      · exact only_bind (sees_deviceFromSysfs _) fun _ => only_pure _
      · exact only_pure _

theorem total_locate (all : List Device) (entry : DisabledDeviceEntry) :
    Total (locate all entry) := by
  unfold locate
  split
  · exact total_pure _
  · split_ifs
    · exact total_pure _
    · refine total_bind (total_call _) fun present => ?_
      split_ifs
      · exact total_bind (total_deviceFromSysfs _) fun _ => total_pure _
      · exact total_pure _

theorem returns_locate (all : List Device) (entry : DisabledDeviceEntry) :
    Returns (fun found => ∀ device, found = some device → FoundFor entry device)
      (locate all entry) := by
  unfold locate
  split
  · rename_i device hfound
    exact fun _ h => Option.some.inj h ▸ by simpa using List.find?_some hfound
  · split_ifs
    · exact nofun
    · refine returns_then fun present => ?_
      split_ifs
      · exact returns_bind (returns_deviceFromSysfs _) fun device hpath _ h =>
          .inr (Option.some.inj h ▸ hpath.symm)
      · exact nofun

section Only
variable {allowed : Op → Prop} {entry : DisabledDeviceEntry} {device : Device}

theorem only_behindGuard {α : Type} {done : α} {failed : Error → α}
    {refused : GuardVerdict → Prog daemon α} {write : Prog daemon α} (hprobe : allowed .probe)
    (hrefused : ∀ verdict, Only allowed (refused verdict)) (hwrite : Only allowed write) :
    Only allowed (behindGuard entry device done failed refused write) :=
  wp_behindGuard (fun _ => trivial) hprobe (fun _ => trivial) (fun _ _ => hrefused _) fun _ _ =>
    hwrite

theorem only_recorded {α : Type} {a : α}
    (hpath : allowed (.setLastSysfsPath entry.key device.sysfsPath))
    (hsuspended : allowed (.setGuardSuspended entry.key false)) :
    Only allowed (do
      if entry.lastSysfsPath ≠ device.sysfsPath then
        let _ ← (setLastSysfsPath entry.key device.sysfsPath).run
      if entry.guardSuspended then
        let _ ← (setGuardSuspended entry.key false).run
      return a : Prog daemon α) := by
  dsimp only
  split_ifs
  · exact only_bind (only_setLastSysfsPath hpath) fun _ =>
      only_bind (only_setGuardSuspended hsuspended) fun _ => only_pure _
  · exact only_bind (only_setLastSysfsPath hpath) fun _ => only_pure _
  · exact only_bind (only_setGuardSuspended hsuspended) fun _ => only_pure _
  · exact only_pure _

theorem only_reapplyLocked
    (hdisable : allowed (.setEnabled (some ⟨entry, device⟩) device.sysfsPath false []))
    (hpath : allowed (.setLastSysfsPath entry.key device.sysfsPath))
    (hsuspended : allowed (.setGuardSuspended entry.key false)) :
    Only allowed (reapplyLocked entry device) := by
  refine only_bind (only_call.mpr hdisable) fun result => ?_
  cases result with
  | error _ => exact only_pure _
  | ok _ => exact only_recorded hpath hsuspended

variable (hprobe : allowed .probe) (hlock : allowed .lock) (hunlock : allowed .unlock)
  (hdisable : ∀ behalf path, allowed (.setEnabled behalf path false []))
  (hpath : ∀ key path, allowed (.setLastSysfsPath key path))
  (hsuspended : ∀ key suspended, allowed (.setGuardSuspended key suspended))

include hprobe hlock hunlock hdisable hpath hsuspended

theorem only_maybeReapply (entry : DisabledDeviceEntry) (device : Device) :
    Only allowed (maybeReapply entry device) := by
  rw [maybeReapply_eq]
  refine only_behindGuard hprobe
    (fun _ => only_bind (only_setGuardSuspended (hsuspended _ _)) fun _ => only_pure _) ?_
  exact only_locked hlock hunlock (only_reapplyLocked (hdisable _ _) (hpath _ _) (hsuspended _ _))

theorem only_sweepEntry (hsees : ∀ o, o.Sees → allowed o) (all : List Device)
    (entry : DisabledDeviceEntry) : Only allowed (sweepEntry all entry) := by
  refine only_bind ((sees_locate all entry).mono hsees) fun found => ?_
  cases found with
  | none => exact only_pure _
  | some device =>
    exact only_maybeReapply hprobe hlock hunlock hdisable hpath hsuspended entry device

theorem only_sweep (hsees : ∀ o, o.Sees → allowed o) : Only allowed sweep :=
  only_bind (sees_enumerated.mono hsees) fun all =>
    only_bind (only_call.mpr (hsees _ trivial)) fun _ => only_forEach
      (only_sweepEntry hprobe hlock hunlock hdisable hpath hsuspended hsees all) _

theorem only_onHotplug (hfind : ∀ device, allowed (.findFor device)) (event : HotplugEvent) :
    Only allowed (onHotplug event) := by
  unfold onHotplug
  split_ifs
  · exact only_pure _
  · refine only_bind (only_call.mpr (hfind _)) fun found => ?_
    cases found with
    | none => exact only_pure _
    | some entry =>
      exact only_maybeReapply hprobe hlock hunlock hdisable hpath hsuspended entry event.device

end Only

end DevMgr.Daemon
