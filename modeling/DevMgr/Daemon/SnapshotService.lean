import DevMgr.Daemon.Enforcement
import DevMgr.Library.FileTree

/-!
# The snapshot service

The service captures the entries and the modprobe files the daemon owns, and
restores them: it takes a safety snapshot, writes the entries and the files back,
enables the devices whose entry has gone and re-applies the entries that are
there now.
-/

open DevMgr.Core

namespace DevMgr.Daemon
open Bytes Program

def kConfigLevelNote : Str :=
  str "config-level: takes effect on next boot/hotplug; loaded modules are not unloaded"

def isDevmgrOwned (fileName : Str) : Bool :=
  str "devmgr-" <+: fileName ∧ str ".conf" <:+ fileName

/-- What a devmgr-owned file is called, an entry of the modprobe directory itself. -/
def OwnedName (name : Str) : Prop := FileTree.Plain name ∧ isDevmgrOwned name = true

def containsKey (entries : List DisabledDeviceEntry) (key : DeviceKey) : Bool :=
  entries.any fun e => e.key = key

def resolvePathFor (e : DisabledDeviceEntry) (all : List Device) : Prog daemon Str := do
  match all.find? fun device => FoundFor e device with
  | some device => return device.sysfsPath
  | none =>
    if e.lastSysfsPath = [] then return []
    if ¬ (← call (S := daemon) (.isDirectory e.lastSysfsPath)) then return []
    return e.lastSysfsPath

def readModprobeFiles : List (Str × Bool) → Prog daemon (StringMap Str)
  | [] => return ∅
  | (name, regular) :: rest => do
    if ¬ regular ∨ ¬ isDevmgrOwned name then readModprobeFiles rest
    else
      let content ← call (S := daemon) (.readModprobe name)
      let files ← readModprobeFiles rest
      return files.insert name content

def capturePayload : Prog daemon SnapshotPayload := do
  let entries ← entries
  let names ← call (S := daemon) .modprobeNames
  return { entries, modprobeFiles := ← readModprobeFiles names }

def storePut (payload : SnapshotPayload) (trigger : SnapshotTrigger) (reason : SnapshotReason) :
    Verb Str := ExceptT.mk do
  let now ← call (S := daemon) .nowUtc
  call (S := daemon) (.putSnapshot payload trigger reason now) >>= orRaise

def create (trigger : SnapshotTrigger) (reason : SnapshotReason) : Verb Str := do
  storePut (← capturePayload) trigger reason

def removeModprobeFiles (target : SnapshotPayload) :
    List (Str × Str) → Prog daemon (List RestoreItemOutcome) :=
  collect fun (name, _) => do
    if name ∈ target.modprobeFiles then return []
    let error ← call (S := daemon) (.removeModprobe name)
    return [{
      subject := name
      action := str "modprobe-remove"
      status := if error.isSome then str "failed" else str "ok"
      detail := error.getD kConfigLevelNote }]

def writeModprobeFiles (pre : SnapshotPayload) :
    List (Str × Str) → Prog daemon (List RestoreItemOutcome) :=
  collect fun (name, content) => do
    if pre.modprobeFiles[name]? = some content then return []
    let written ← call (S := daemon) (.writeModprobe name content)
    return [{
      subject := name
      action := str "modprobe-write"
      status := match written with | .ok _ => str "ok" | .error _ => str "failed"
      detail := match written with | .ok _ => kConfigLevelNote | .error error => error.message }]

def writeBackModprobe (pre target : SnapshotPayload) : Prog daemon (List RestoreItemOutcome) := do
  let removed ← removeModprobeFiles target pre.modprobeFiles.toList
  let written ← writeModprobeFiles pre target.modprobeFiles.toList
  return removed ++ written

def reEnableOne (e : DisabledDeviceEntry) (all : List Device) : Prog daemon RestoreItemOutcome := do
  let path ← resolvePathFor e all
  if path = [] then
    return {
      subject := e.lastSysfsPath
      action := str "re-enable"
      status := str "device-absent"
      detail := str "device not present; nothing to re-enable" }
  match ← (setEnabled none path true e.lastDriver).run with
  | .ok _ => return { subject := path, action := str "re-enable", status := str "ok", detail := [] }
  | .error error =>
    return {
      subject := path
      action := str "re-enable"
      status := str "failed"
      detail := error.message }

def reEnableRemoved (pre target : SnapshotPayload) : Prog daemon (List RestoreItemOutcome) := do
  let all ← enumerated
  collect (fun e => do
    if containsKey target.entries e.key then return []
    return [← reEnableOne e all]) pre.entries

def reApplyOutcome (device : Device) (status detail : Str) : RestoreItemOutcome where
  subject := device.sysfsPath
  action := str "re-apply-disable"
  status := status
  detail := detail

def reApplyOne (entry : DisabledDeviceEntry) (device : Device) :
    Prog daemon RestoreItemOutcome := do
  if ¬ needsApply entry device then
    return reApplyOutcome device (str "ok") (str "already in desired state")
  match ← probe.run with
  | .error error =>
    return reApplyOutcome device (str "failed") (str "criticality probe failed: " ++ error.message)
  | .ok facts =>
    let verdict := evaluateDisable facts device.sysfsPath
    if ¬ verdict.allowed then
      match ← (setGuardSuspended entry.key true).run with
      | .error _ =>
        return reApplyOutcome device (str "failed")
          (str "guard refused (" ++ verdict.reason ++ str ") and suspension not persisted")
      | .ok _ => return reApplyOutcome device (str "guard-refused") verdict.reason
    else
      match ← (setEnabled (some ⟨entry, device⟩) device.sysfsPath false []).run with
      | .error error => return reApplyOutcome device (str "failed") error.message
      | .ok _ =>
        if entry.lastSysfsPath ≠ device.sysfsPath then
          let _ ← (setLastSysfsPath entry.key device.sysfsPath).run
        if entry.guardSuspended then
          let _ ← (setGuardSuspended entry.key false).run
        return reApplyOutcome device (str "ok") []

def reApplyEntry (all : List Device) (e : DisabledDeviceEntry) :
    Prog daemon (List RestoreItemOutcome) := do
  match ← locate all e with
  | none =>
    return [{
      subject := e.lastSysfsPath
      action := str "re-apply-disable"
      status := str "device-absent"
      detail := str "device not present; enforcement re-applies on hotplug" }]
  | some device => return [← reApplyOne e device]

def reApplyRestored : Prog daemon (List RestoreItemOutcome) := do
  let all ← enumerated
  collect (reApplyEntry all) (← entries)

def restore (id : Str) : Verb RestoreOutcome := do
  let snap ← ExceptT.mk (call (S := daemon) (.readSnapshot id))
  let pre ← capturePayload
  let safety ← storePut pre .auto { verb := str "SnapshotRestore", subject := id }
  ExceptT.mk (call (S := daemon) (.replaceAll snap.payload.entries) >>= orRaise)
  let files ← writeBackModprobe pre snap.payload
  let enabled ← reEnableRemoved pre snap.payload
  let applied ← reApplyRestored
  return { snapshotId := id, safetySnapshotId := safety, items := files ++ enabled ++ applied }

def reApplyWrite (entry : DisabledDeviceEntry) (device : Device) :
    Prog daemon RestoreItemOutcome := do
  match ← (setEnabled (some ⟨entry, device⟩) device.sysfsPath false []).run with
  | .error error => return reApplyOutcome device (str "failed") error.message
  | .ok _ =>
    if entry.lastSysfsPath ≠ device.sysfsPath then
      let _ ← (setLastSysfsPath entry.key device.sysfsPath).run
    if entry.guardSuspended then
      let _ ← (setGuardSuspended entry.key false).run
    return reApplyOutcome device (str "ok") []

def reApplyRefused (entry : DisabledDeviceEntry) (device : Device) (verdict : GuardVerdict) :
    Prog daemon RestoreItemOutcome := do
  match ← (setGuardSuspended entry.key true).run with
  | .error _ =>
    return reApplyOutcome device (str "failed")
      (str "guard refused (" ++ verdict.reason ++ str ") and suspension not persisted")
  | .ok _ => return reApplyOutcome device (str "guard-refused") verdict.reason

theorem reApplyOne_eq (entry : DisabledDeviceEntry) (device : Device) :
    reApplyOne entry device = behindGuard entry device
      (reApplyOutcome device (str "ok") (str "already in desired state"))
      (fun error => reApplyOutcome device (str "failed")
        (str "criticality probe failed: " ++ error.message))
      (reApplyRefused entry device) (reApplyWrite entry device) := rfl

section Only
variable {allowed : Op → Prop}

theorem sees_readModprobeFiles (names : List (Str × Bool)) :
    Only Op.Sees (readModprobeFiles names) := by
  induction names with
  | nil => exact only_pure _
  | cons name names ih =>
    rw [readModprobeFiles]
    split_ifs
    · exact ih
    · exact only_bind (only_call.mpr trivial) fun _ => only_bind ih fun _ => only_pure _

theorem sees_capturePayload : Only Op.Sees capturePayload :=
  only_bind (only_call.mpr trivial) fun _ => only_bind (only_call.mpr trivial) fun _ =>
    only_bind (sees_readModprobeFiles _) fun _ => only_pure _

theorem only_storePut {payload : SnapshotPayload} {trigger : SnapshotTrigger}
    {reason : SnapshotReason} (hnow : allowed .nowUtc)
    (hput : ∀ now, allowed (.putSnapshot payload trigger reason now)) :
    Only allowed (storePut payload trigger reason).run :=
  only_bind (only_call.mpr hnow) fun _ => only_bind (only_call.mpr (hput _)) fun _ => only_orRaise _

theorem only_create {trigger : SnapshotTrigger} {reason : SnapshotReason}
    (hsees : ∀ o, o.Sees → allowed o)
    (hput : ∀ payload now, allowed (.putSnapshot payload trigger reason now)) :
    Only allowed (create trigger reason).run :=
  only_step (only_lift (sees_capturePayload.mono hsees)) fun _ =>
    only_storePut (hsees _ trivial) (hput _)

theorem only_writeBackModprobe {pre target : SnapshotPayload}
    (hremove : ∀ name, allowed (.removeModprobe name))
    (hwrite : ∀ name content, allowed (.writeModprobe name content)) :
    Only allowed (writeBackModprobe pre target) := by
  refine only_bind (only_collect (fun (name, _) => ?_) _) fun _ =>
    only_bind (only_collect (fun (name, content) => ?_) _) fun _ => only_pure _
  · dsimp only
    split_ifs
    · exact only_pure _
    · exact only_bind (only_call.mpr (hremove _)) fun _ => only_pure _
  · dsimp only
    split_ifs
    · exact only_pure _
    · exact only_bind (only_call.mpr (hwrite _ _)) fun _ => only_pure _

theorem sees_resolvePathFor (e : DisabledDeviceEntry) (all : List Device) :
    Only Op.Sees (resolvePathFor e all) := by
  unfold resolvePathFor
  split
  · exact only_pure _
  · split_ifs
    · exact only_pure _
    · refine only_bind (only_call.mpr trivial) fun present => ?_
      split_ifs <;> exact only_pure _

theorem only_reEnableRemoved {pre target : SnapshotPayload} (hsees : ∀ o, o.Sees → allowed o)
    (henable : ∀ path hint, allowed (.setEnabled none path true hint)) :
    Only allowed (reEnableRemoved pre target) := by
  refine only_bind (sees_enumerated.mono hsees) fun all => only_collect (fun e => ?_) _
  split_ifs
  · exact only_pure _
  · refine only_bind (only_bind ((sees_resolvePathFor e all).mono hsees) fun path => ?_) fun _ =>
      only_pure _
    split_ifs
    · exact only_pure _
    · refine only_bind (only_call.mpr (henable _ _)) fun result => ?_
      cases result <;> exact only_pure _

theorem only_reApplyWrite {entry : DisabledDeviceEntry} {device : Device}
    (hdisable : allowed (.setEnabled (some ⟨entry, device⟩) device.sysfsPath false []))
    (hpath : allowed (.setLastSysfsPath entry.key device.sysfsPath))
    (hsuspended : allowed (.setGuardSuspended entry.key false)) :
    Only allowed (reApplyWrite entry device) := by
  refine only_bind (only_call.mpr hdisable) fun result => ?_
  cases result with
  | error _ => exact only_pure _
  | ok _ => exact only_recorded hpath hsuspended

theorem only_reApplyRefused {entry : DisabledDeviceEntry} {device : Device} {verdict : GuardVerdict}
    (h : allowed (.setGuardSuspended entry.key true)) :
    Only allowed (reApplyRefused entry device verdict) := by
  refine only_bind (only_setGuardSuspended h) fun result => ?_
  cases result <;> exact only_pure _

section ReApply
variable (hsees : ∀ o, o.Sees → allowed o) (hprobe : allowed .probe)
  (hdisable : ∀ behalf path, allowed (.setEnabled behalf path false []))
  (hpath : ∀ key path, allowed (.setLastSysfsPath key path))
  (hsuspended : ∀ key suspended, allowed (.setGuardSuspended key suspended))

include hsees hprobe hdisable hpath hsuspended

theorem only_reApplyEntry (all : List Device) (e : DisabledDeviceEntry) :
    Only allowed (reApplyEntry all e) := by
  refine only_bind ((sees_locate all e).mono hsees) fun found => ?_
  cases found with
  | none => exact only_pure _
  | some device =>
    refine only_bind ?_ fun _ => only_pure _
    rw [reApplyOne_eq]
    exact only_behindGuard hprobe (fun _ => only_reApplyRefused (hsuspended _ _))
      (only_reApplyWrite (hdisable _ _) (hpath _ _) (hsuspended _ _))

theorem only_reApplyRestored : Only allowed reApplyRestored :=
  only_bind (sees_enumerated.mono hsees) fun all => only_bind (only_call.mpr (hsees _ trivial))
    fun _ => only_collect (only_reApplyEntry hsees hprobe hdisable hpath hsuspended all) _

end ReApply

end Only

theorem total_removeModprobeFiles (target : SnapshotPayload) (files : List (Str × Str)) :
    Total (removeModprobeFiles target files) := by
  refine total_collect (fun file => ?_) _
  dsimp only
  split_ifs
  · exact total_pure _
  · exact total_bind (total_call _) fun _ => total_pure _

theorem total_writeModprobeFiles (pre : SnapshotPayload) (files : List (Str × Str)) :
    Total (writeModprobeFiles pre files) := by
  refine total_collect (fun file => ?_) _
  dsimp only
  split_ifs
  · exact total_pure _
  · exact total_bind (total_call _) fun _ => total_pure _

theorem total_writeBackModprobe (pre target : SnapshotPayload) :
    Total (writeBackModprobe pre target) :=
  total_bind (total_removeModprobeFiles _ _) fun _ =>
    total_bind (total_writeModprobeFiles _ _) fun _ =>
      total_pure _

theorem total_enumerated : Total enumerated :=
  total_bind (total_call _) fun found => by cases found <;> exact total_pure _

end DevMgr.Daemon
