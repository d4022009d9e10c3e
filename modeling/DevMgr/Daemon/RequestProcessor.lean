import DevMgr.Daemon.SnapshotService

/-!
# The verbs of the request processor

Every mutating verb validates its arguments, asks the guard where it can take
something away, asks the authority, and then acts under the apply mutex, behind
an automatic snapshot. The guard is asked before the authority and outside the
mutex.
-/

open DevMgr.Core

namespace DevMgr.Daemon
open Bytes Program

namespace validation

def kCallerMaxLength : ℕ := 255

def kNameMaxLength : ℕ := 63

def kPathMaxLength : ℕ := 4096

def kSnapshotIdMaxLength : ℕ := 64

def kSnapshotLabelMaxLength : ℕ := 128

def isAlnum (c : UInt8) : Bool := isDigit c || (65 ≤ c && c ≤ 90) || (97 ≤ c && c ≤ 122)

def isPrint (c : UInt8) : Bool := 32 ≤ c && c ≤ 126

def invalid (message : String) : Result Unit := makeError .invalidArgs (str message)

def caller (value : Str) : Result Unit :=
  if value = [] then invalid "empty caller"
  else if kCallerMaxLength < value.length then invalid "caller too long"
  else .ok ()

def name (value what : Str) : Result Unit :=
  if value = [] then makeError .invalidArgs (str "empty " ++ what ++ str " name")
  else if kNameMaxLength < value.length then
    makeError .invalidArgs (what ++ str " name too long")
  else if ¬ value.all fun c => isAlnum c || c = 95 || c = 45 then
    makeError .invalidArgs (str "invalid " ++ what ++ str " name")
  else .ok ()

def sysfsPath (value : Str) : Result Unit :=
  if value = [] then invalid "empty sysfs path"
  else if kPathMaxLength < value.length then invalid "sysfs path too long"
  else if 0 ∈ value then invalid "sysfs path contains NUL"
  else .ok ()

def snapshotId (value : Str) : Result Unit :=
  if value = [] then invalid "empty snapshot id"
  else if kSnapshotIdMaxLength < value.length then invalid "snapshot id too long"
  else if ¬ value.all fun c => isDigit c || (97 ≤ c && c ≤ 102) then
    invalid "invalid snapshot id"
  else .ok ()

def snapshotLabel (value : Str) : Result Unit :=
  if kSnapshotLabelMaxLength < value.length then invalid "snapshot label too long"
  else if ¬ value.all fun c => isPrint c || c &&& 0x80 ≠ 0 then invalid "invalid snapshot label"
  else .ok ()

end validation

def components (path : Str) : List Str :=
  let names := (path.splitOn 47).filter (· ≠ [])
  (if path.head? = some 47 then [[47]] else []) ++ names ++
    (if names ≠ [] ∧ path.getLast? = some 47 then [[]] else [])

def stripCommon : List Str → List Str → List Str × List Str
  | a :: as, b :: bs => if a = b then stripCommon as bs else (a :: as, b :: bs)
  | as, bs => (as, bs)

def levelsUp (base : List Str) : ℤ :=
  (base.map fun b => if b = str ".." then -1 else if b = [] ∨ b = str "." then 0 else 1).sum

def lexicallyRelative (path base : Str) : Str :=
  if (path.head? = some 47) ≠ (base.head? = some 47) then []
  else
    let (a, b) := stripCommon (components path) (components base)
    if a = [] ∧ b = [] then str "."
    else
      let n := levelsUp b
      if n = 0 ∧ (a.head?.getD [] = []) then str "."
      else if 0 ≤ n then [47].intercalate (List.replicate n.toNat (str "..") ++ a)
      else []

variable (sysfsRoot : Str)

def canonicalContained (sysfsPath : Str) : Verb Str := do
  match ← call (S := daemon) (.weaklyCanonical sysfsPath) with
  | none => throw ⟨.notFound, str "cannot resolve " ++ sysfsPath⟩
  | some canonical =>
    let root ← call (S := daemon) (.weaklyCanonical sysfsRoot)
    let rel := lexicallyRelative canonical (root.getD [])
    if root.isNone ∨ rel = [] ∨ str ".." <+: rel then
      throw ⟨.notFound, str "path outside sysfs root: " ++ sysfsPath⟩
    if ¬ (← call (S := daemon) (.isDirectory canonical)) then
      throw ⟨.notFound, str "device no longer present: " ++ sysfsPath⟩
    return canonical

def kActionSetDeviceEnabled : Str := str "org.devmgr.set-device-enabled"

def kActionManageModules : Str := str "org.devmgr.manage-modules"

def kActionManageDrivers : Str := str "org.devmgr.manage-drivers"

def kActionManageSnapshots : Str := str "org.devmgr.manage-snapshots"

def validate (result : Result Unit) : Verb Unit := ExceptT.mk (pure result)

def authorize (caller action : Str) : Verb Unit := do
  let authorized ← ExceptT.mk (call (S := daemon) (.checkAuthorized caller action))
  if ¬ authorized then throw ⟨.permission, str "authorization denied"⟩

def guardDisable (canonical : Str) : Verb Unit := do
  let facts ← probe
  let verdict := evaluateDisable facts canonical
  if ¬ verdict.allowed then throw ⟨.conflict, verdict.reason⟩

def snapshotBefore (verb : String) (subject : Str) : Verb Unit := ExceptT.mk do
  match ← (create .auto { verb := str verb, subject }).run with
  | .ok _ => return .ok ()
  | .error error =>
    return makeError .io (str "snapshot before " ++ str verb ++ str " failed (" ++ error.message ++
      str "); mutation refused")

def actLocked {α : Type} (verb : String) (subject : Str) (action : Verb α) : Verb α :=
  ExceptT.mk (locked (ExceptT.run do
    snapshotBefore verb subject
    action))

def applyDisable (canonical : Str) : Verb Unit := do
  let all ← enumerated
  let key ← match all.find? fun d => d.sysfsPath = canonical with
    | some device => pure (makePresentKey device all)
    | none => makeDeviceKey <$> deviceFromSysfs canonical
  let applied ← setEnabled none canonical false []
  let now ← call (S := daemon) .nowUtc
  ExceptT.mk (call (S := daemon) (.upsert {
    key
    mechanism := if applied.isSome then str "unbind" else str "authorized"
    lastDriver := applied.getD []
    lastSysfsPath := canonical
    disabledAtUtc := now
    guardSuspended := false }) >>= orRaise)

/-- The entry of the device is deleted first, found by the stored path or by its key. -/
def applyEnable (canonical : Str) : Verb Unit := do
  let probed ← if ← call (S := daemon) (.isDirectory canonical) then
    some <$> deviceFromSysfs canonical
    else pure none
  let found := (← entries).find? fun e =>
    e.lastSysfsPath = canonical ∨ probed.any fun device => matchesDevice e.key device
  match found with
  | none => discard (setEnabled none canonical true [])
  | some e =>
    ExceptT.mk (call (S := daemon) (.remove e.key) >>= orRaise)
    discard (setEnabled none canonical true e.lastDriver)

def setDeviceEnabled (caller sysfsPath : Str) (enabled : Bool) : Verb Unit := do
  validate (validation.caller caller)
  validate (validation.sysfsPath sysfsPath)
  let canonical ← canonicalContained sysfsRoot sysfsPath
  if ¬ enabled then guardDisable canonical
  authorize caller kActionSetDeviceEnabled
  actLocked "SetDeviceEnabled" canonical
    (if enabled then applyEnable canonical else applyDisable canonical)

def bindDriver (caller sysfsPath driverName : Str) : Verb Unit := do
  validate (validation.caller caller)
  validate (validation.sysfsPath sysfsPath)
  validate (validation.name driverName (str "driver"))
  let canonical ← canonicalContained sysfsRoot sysfsPath
  authorize caller kActionManageDrivers
  actLocked "BindDriver" canonical
    (ExceptT.mk (call (S := daemon) (.bindDriver canonical driverName)))

def unbindDriver (caller sysfsPath : Str) : Verb Unit := do
  validate (validation.caller caller)
  validate (validation.sysfsPath sysfsPath)
  let canonical ← canonicalContained sysfsRoot sysfsPath
  guardDisable canonical
  authorize caller kActionManageDrivers
  actLocked "UnbindDriver" canonical (ExceptT.mk (call (S := daemon) (.unbindDriver canonical)))

def listDisabledDevices : Prog daemon (List DisabledDeviceEntry) := entries

def loadModule (caller name : Str) : Verb Unit := do
  validate (validation.caller caller)
  validate (validation.name name (str "module"))
  authorize caller kActionManageModules
  actLocked "LoadModule" name (ExceptT.mk (call (S := daemon) (.loadModule name)))

def guardModuleUnload (name : Str) : Verb Unit := do
  let loaded ← ExceptT.mk (call (S := daemon) .listLoadedModules)
  match loaded.find? fun m => m.name = name with
  | none => throw ⟨.notFound, str "module '" ++ name ++ str "' not loaded"⟩
  | some mod =>
    let affected ← ExceptT.mk (call (S := daemon) (.devicesUsingModule name))
    let facts ← probe
    let verdict := evaluateModuleUnload facts {
      affectedDevicePaths := affected
      holders := mod.holders
      refCount := mod.refCount }
    if ¬ verdict.allowed then throw ⟨.conflict, verdict.reason⟩

def unloadModule (caller name : Str) : Verb Unit := do
  validate (validation.caller caller)
  validate (validation.name name (str "module"))
  guardModuleUnload name
  authorize caller kActionManageModules
  actLocked "UnloadModule" name (ExceptT.mk (call (S := daemon) (.unloadModule name)))

def snapshotList : Verb (List SnapshotMeta) := ExceptT.mk (call (S := daemon) .listSnapshots)

def diffPayloads (baseId targetId : Str) : Verb (SnapshotPayload × SnapshotPayload) := do
  let base ← ExceptT.mk (call (S := daemon) (.readSnapshot baseId))
  if targetId = [] then return (base.payload, ← capturePayload)
  let target ← ExceptT.mk (call (S := daemon) (.readSnapshot targetId))
  return (base.payload, target.payload)

def snapshotDiff (baseId targetId : Str) : Verb (SnapshotPayload × SnapshotPayload) := do
  validate (validation.snapshotId baseId)
  if targetId = [] then ExceptT.mk (locked (diffPayloads baseId targetId).run)
  else
    validate (validation.snapshotId targetId)
    diffPayloads baseId targetId

def snapshotCreate (caller label : Str) : Verb Str := do
  validate (validation.caller caller)
  validate (validation.snapshotLabel label)
  authorize caller kActionManageSnapshots
  ExceptT.mk (locked (create .manual { verb := [], subject := label }).run)

def snapshotRestore (caller id : Str) : Verb RestoreOutcome := do
  validate (validation.caller caller)
  validate (validation.snapshotId id)
  authorize caller kActionManageSnapshots
  ExceptT.mk (locked (restore id).run)

def snapshotDelete (caller id : Str) : Verb Unit := do
  validate (validation.caller caller)
  validate (validation.snapshotId id)
  authorize caller kActionManageSnapshots
  ExceptT.mk (locked (call (S := daemon) (.removeSnapshot id)))

inductive Request where
  | setDeviceEnabled (caller sysfsPath : Str) (enabled : Bool)
  | bindDriver (caller sysfsPath driverName : Str)
  | unbindDriver (caller sysfsPath : Str)
  | listDisabledDevices
  | loadModule (caller name : Str)
  | unloadModule (caller name : Str)
  | snapshotList
  | snapshotDiff (baseId targetId : Str)
  | snapshotCreate (caller label : Str)
  | snapshotRestore (caller id : Str)
  | snapshotDelete (caller id : Str)

def serve : Request → Prog daemon Unit
  | .setDeviceEnabled caller sysfsPath enabled =>
    discard (setDeviceEnabled sysfsRoot caller sysfsPath enabled).run
  | .bindDriver caller sysfsPath driverName =>
    discard (bindDriver sysfsRoot caller sysfsPath driverName).run
  | .unbindDriver caller sysfsPath => discard (unbindDriver sysfsRoot caller sysfsPath).run
  | .listDisabledDevices => discard listDisabledDevices
  | .loadModule caller name => discard (loadModule caller name).run
  | .unloadModule caller name => discard (unloadModule caller name).run
  | .snapshotList => discard snapshotList.run
  | .snapshotDiff baseId targetId => discard (snapshotDiff baseId targetId).run
  | .snapshotCreate caller label => discard (snapshotCreate caller label).run
  | .snapshotRestore caller id => discard (snapshotRestore caller id).run
  | .snapshotDelete caller id => discard (snapshotDelete caller id).run

section Only
variable {allowed : Op → Prop}

theorem only_validate (result : Result Unit) : Only allowed (validate result).run := only_pure _

theorem only_throw {α : Type} (error : Error) : Only allowed (throw error : Verb α).run :=
  only_pure _

theorem only_done {α : Type} (a : α) : Only allowed (pure a : Verb α).run := only_pure _

variable {sysfsRoot}

theorem sees_canonicalContained (sysfsPath : Str) :
    Only Op.Sees (canonicalContained sysfsRoot sysfsPath).run := by
  refine only_step (only_lift (only_call.mpr trivial)) fun canonical => ?_
  cases canonical with
  | none => exact only_throw _
  | some canonical =>
    refine only_step (only_lift (only_call.mpr trivial)) fun root => ?_
    have hpresent : Only Op.Sees (do
        if ¬ (← call (S := daemon) (.isDirectory canonical)) then
          throw ⟨.notFound, str "device no longer present: " ++ sysfsPath⟩
        return canonical : Verb Str).run := by
      refine only_step (only_lift (only_call.mpr trivial)) fun present => ?_
      dsimp only
      split_ifs
      · exact only_done _
      · exact only_step (only_throw _) fun _ => only_done _
    dsimp only
    split_ifs
    · exact only_step (only_throw _) fun _ => hpresent
    · exact hpresent

theorem only_authorize {caller action : Str} (h : allowed (.checkAuthorized caller action)) :
    Only allowed (authorize caller action).run := by
  refine only_step (only_call.mpr h) fun authorized => ?_
  split_ifs
  · exact only_done _
  · exact only_throw _

variable {verb : String} {subject : Str}

theorem only_snapshotBefore (hsees : ∀ o, o.Sees → allowed o)
    (hput : ∀ payload now, allowed
      (.putSnapshot payload .auto { verb := str verb, subject } now)) :
    Only allowed (snapshotBefore verb subject).run := by
  refine only_bind (only_create hsees hput) fun result => ?_
  cases result <;> exact only_pure _

theorem only_actLocked {α : Type} {action : Verb α} (hlock : allowed .lock)
    (hunlock : allowed .unlock) (hsees : ∀ o, o.Sees → allowed o)
    (hput : ∀ payload now, allowed (.putSnapshot payload .auto { verb := str verb, subject } now))
    (haction : Only allowed action.run) : Only allowed (actLocked verb subject action).run :=
  only_locked hlock hunlock (only_step (only_snapshotBefore hsees hput) fun _ => haction)

theorem only_applyDisable {canonical : Str} (hsees : ∀ o, o.Sees → allowed o)
    (hdisable : allowed (.setEnabled none canonical false []))
    (hupsert : ∀ entry, allowed (.upsert entry)) :
    Only allowed (applyDisable canonical).run := by
  refine only_step (only_lift (sees_enumerated.mono hsees)) fun all => ?_
  have hrest : ∀ key, Only allowed (do
      let applied ← setEnabled none canonical false []
      let now ← call (S := daemon) .nowUtc
      ExceptT.mk (call (S := daemon) (.upsert {
        key
        mechanism := if applied.isSome then str "unbind" else str "authorized"
        lastDriver := applied.getD []
        lastSysfsPath := canonical
        disabledAtUtc := now
        guardSuspended := false }) >>= orRaise) : Verb Unit).run := fun key =>
    only_step (only_call.mpr hdisable) fun _ =>
      only_step (only_lift (only_call.mpr (hsees _ trivial)))
      fun _ => only_bind (only_call.mpr (hupsert _)) fun _ => only_orRaise _
  split
  · exact only_step (only_done _) hrest
  · exact only_step (only_map (only_lift ((sees_deviceFromSysfs _).mono hsees))) hrest

theorem only_applyEnable {canonical : Str} (hsees : ∀ o, o.Sees → allowed o)
    (henable : ∀ hint, allowed (.setEnabled none canonical true hint))
    (hremove : ∀ key, allowed (.remove key)) : Only allowed (applyEnable canonical).run := by
  refine only_step (only_lift (only_call.mpr (hsees _ trivial))) fun present => ?_
  have hrest : ∀ probed : Option Device, Only allowed (do
      let found := (← entries).find? fun e =>
        e.lastSysfsPath = canonical ∨ probed.any fun device => matchesDevice e.key device
      match found with
      | none => discard (setEnabled none canonical true [])
      | some e =>
        ExceptT.mk (call (S := daemon) (.remove e.key) >>= orRaise)
        discard (setEnabled none canonical true e.lastDriver) : Verb Unit).run := by
    intro probed
    refine only_step (only_lift (only_call.mpr (hsees _ trivial))) fun entries => ?_
    dsimp only
    split
    · exact only_map (only_call.mpr (henable _))
    · exact only_step (only_bind (only_call.mpr (hremove _)) fun _ => only_orRaise _) fun _ =>
        only_map (only_call.mpr (henable _))
  split_ifs
  · exact only_step (only_map (only_lift ((sees_deviceFromSysfs _).mono hsees))) hrest
  · exact only_step (only_done _) hrest

theorem only_guardDisable {canonical : Str} (hprobe : allowed .probe) :
    Only allowed (guardDisable canonical).run := by
  refine only_step (only_call.mpr hprobe) fun facts => ?_
  dsimp only
  split_ifs
  · exact only_done _
  · exact only_throw _

theorem only_setDeviceEnabled {caller sysfsPath : Str} {enabled : Bool}
    (hsees : ∀ o, o.Sees → allowed o)
    (hprobe : allowed .probe) (hauthorize : ∀ action, allowed (.checkAuthorized caller action))
    (hlock : allowed .lock) (hunlock : allowed .unlock)
    (hput : ∀ payload trigger reason now, allowed (.putSnapshot payload trigger reason now))
    (hwrite : ∀ path hint, allowed (.setEnabled none path enabled hint))
    (hupsert : ∀ entry, allowed (.upsert entry)) (hremove : ∀ key, allowed (.remove key)) :
    Only allowed (setDeviceEnabled sysfsRoot caller sysfsPath enabled).run := by
  refine only_step (only_validate _) fun _ => only_step (only_validate _) fun _ =>
    only_step ((sees_canonicalContained _).mono hsees) fun canonical => ?_
  have hact : ∀ action : Verb Unit, Only allowed action.run → Only allowed (do
      authorize caller kActionSetDeviceEnabled
      actLocked "SetDeviceEnabled" canonical action : Verb Unit).run := fun action haction =>
    only_step (only_authorize (hauthorize _)) fun _ =>
      only_actLocked hlock hunlock hsees (fun _ _ => hput _ _ _ _) haction
  cases enabled with
  | true => exact hact _ (only_applyEnable hsees (hwrite _) hremove)
  | false =>
    exact only_step (only_guardDisable hprobe) fun _ =>
      hact _ (only_applyDisable hsees (hwrite _ _) hupsert)

end Only

end DevMgr.Daemon
