import DevMgr.Core.CriticalDeviceGuard
import DevMgr.Daemon.StateStore
import DevMgr.Library.Threads

/-!
# The daemon's operations

The services of the daemon are programs over the operations of the interfaces
they are given (device enumerator, controller, prober, driver manager, authority,
snapshot store), of the state store, of the apply mutex and of the file system.
What an interface does is a `Platform` over a machine state of any type; the
state store and the mutex are the daemon's own. The two threads of the daemon are
the one that serves the bus, after the startup sweep, and the hotplug monitor.
-/

open DevMgr.Core

namespace DevMgr.Daemon
open Bytes Program

/-- The entry a write enforces, and the device it was found to belong to. The controller is not
told: this records on whose behalf a write is made. -/
structure Enforced where
  entry : DisabledDeviceEntry
  device : Device

inductive Op where
  | enumerate
  | probe
  | setEnabled (behalf : Option Enforced) (sysfsPath : Str) (enabled : Bool) (hint : Str)
  | bindDriver (sysfsPath driverName : Str)
  | unbindDriver (sysfsPath : Str)
  | loadModule (name : Str)
  | unloadModule (name : Str)
  | listLoadedModules
  | devicesUsingModule (name : Str)
  | checkAuthorized (caller action : Str)
  | weaklyCanonical (path : Str)
  | isDirectory (path : Str)
  | pathExists (path : Str)
  | firstLine (path : Str)
  | nowUtc
  | lock
  | unlock
  | entries
  | findFor (device : Device)
  | upsert (entry : DisabledDeviceEntry)
  | remove (key : DeviceKey)
  | replaceAll (entries : List DisabledDeviceEntry)
  | setGuardSuspended (key : DeviceKey) (suspended : Bool)
  | setLastSysfsPath (key : DeviceKey) (path : Str)
  | putSnapshot (payload : SnapshotPayload) (trigger : SnapshotTrigger) (reason : SnapshotReason)
    (createdAtUtc : Int64)
  | readSnapshot (id : Str)
  | listSnapshots
  | removeSnapshot (id : Str)
  | modprobeNames
  | readModprobe (name : Str)
  | writeModprobe (name content : Str)
  | removeModprobe (name : Str)

/-- Where `none` can be returned for a `Result`, it stands for an exception. -/
@[reducible] def Op.Ret : Op → Type
  | .enumerate => Result (List Device)
  | .probe => Result CriticalityFacts
  | .setEnabled .. => Result (Option Str)
  | .bindDriver .. | .unbindDriver _ | .loadModule _ | .unloadModule _ => Result Unit
  | .listLoadedModules => Result (List LoadedModule)
  | .devicesUsingModule _ => Result (List Str)
  | .checkAuthorized .. => Result Bool
  | .weaklyCanonical _ => Option Str
  | .isDirectory _ | .pathExists _ => Bool
  | .firstLine _ => Str
  | .nowUtc => Int64
  | .lock | .unlock => Unit
  | .entries => List DisabledDeviceEntry
  | .findFor _ => Option DisabledDeviceEntry
  | .upsert _ | .remove _ | .replaceAll _ | .setGuardSuspended .. | .setLastSysfsPath .. =>
    Option (Result Unit)
  | .putSnapshot .. => Option (Result Str)
  | .readSnapshot _ => Result Snapshot
  | .listSnapshots => Result (List SnapshotMeta)
  | .removeSnapshot _ => Result Unit
  | .modprobeNames => List (Str × Bool)
  | .readModprobe _ => Str
  | .writeModprobe .. => Result Unit
  | .removeModprobe _ => Option Str

abbrev daemon : Interface := ⟨Op, Op.Ret⟩

abbrev Verb (α : Type) := ExceptT Error (Prog daemon) α

/-- What the interfaces do in a machine state. The prober fails or reports the facts as they are. -/
structure Platform (W : Type) where
  facts : W → CriticalityFacts
  probeError : W → Option Error
  enumerate : W → Result (List Device)
  setEnabled : W → Str → Bool → Str → Result (Option Str) × W
  bindDriver : W → Str → Str → Result Unit × W
  unbindDriver : W → Str → Result Unit × W
  loadModule : W → Str → Result Unit × W
  unloadModule : W → Str → Result Unit × W
  listLoadedModules : W → Result (List LoadedModule)
  devicesUsingModule : W → Str → Result (List Str)
  checkAuthorized : W → Str → Str → Result Bool
  weaklyCanonical : W → Str → Option Str
  isDirectory : W → Str → Bool
  pathExists : W → Str → Bool
  firstLine : W → Str → Str
  nowUtc : W → Int64
  writeState : W → Str → Result Unit × W
  putSnapshot : W → SnapshotPayload → SnapshotTrigger → SnapshotReason → Int64 →
    Option (Result Str) × W
  readSnapshot : W → Str → Result Snapshot × W
  listSnapshots : W → Result (List SnapshotMeta) × W
  removeSnapshot : W → Str → Result Unit × W
  modprobeNames : W → List (Str × Bool)
  readModprobe : W → Str → Str
  writeModprobe : W → Str → Str → Result Unit × W
  removeModprobe : W → Str → Option Str × W

inductive Thread where
  | bus
  | monitor
  deriving DecidableEq

structure State (W : Type) where
  world : W
  entries : List DisabledDeviceEntry
  holder : Option Thread

variable {W : Type} (J : Json.Codec) (P : Platform W)

def Platform.probe (w : W) : Result CriticalityFacts :=
  match P.probeError w with
  | some error => .error error
  | none => .ok (P.facts w)

namespace State

/-- Changes the entries in memory and writes them. Text that is no UTF-8 makes the writer throw. -/
def save (s : State W) (entries : List DisabledDeviceEntry) : Option (Result Unit) × State W :=
  let doc := StateStore.document entries
  if ¬ doc.isText then (none, { s with entries })
  else
    let (result, world) := P.writeState s.world (J.dumpIndented doc)
    (some result, { s with world, entries })

def updateEntry (s : State W) (key : DeviceKey) (f : DisabledDeviceEntry → DisabledDeviceEntry) :
    Option (Result Unit) × State W :=
  match StateStore.update key f s.entries with
  | some entries => s.save J P entries
  | none => (some (makeError .notFound (str "no entry for key")), s)

def act {α : Type} (s : State W) (r : α × W) : α × State W := (r.1, { s with world := r.2 })

end State

def respond (t : Thread) : (o : Op) → State W → o.Ret × State W
  | .enumerate, s => (P.enumerate s.world, s)
  | .probe, s => (P.probe s.world, s)
  | .setEnabled _ path enabled hint, s => s.act (P.setEnabled s.world path enabled hint)
  | .bindDriver path driverName, s => s.act (P.bindDriver s.world path driverName)
  | .unbindDriver path, s => s.act (P.unbindDriver s.world path)
  | .loadModule name, s => s.act (P.loadModule s.world name)
  | .unloadModule name, s => s.act (P.unloadModule s.world name)
  | .listLoadedModules, s => (P.listLoadedModules s.world, s)
  | .devicesUsingModule name, s => (P.devicesUsingModule s.world name, s)
  | .checkAuthorized caller action, s => (P.checkAuthorized s.world caller action, s)
  | .weaklyCanonical path, s => (P.weaklyCanonical s.world path, s)
  | .isDirectory path, s => (P.isDirectory s.world path, s)
  | .pathExists path, s => (P.pathExists s.world path, s)
  | .firstLine path, s => (P.firstLine s.world path, s)
  | .nowUtc, s => (P.nowUtc s.world, s)
  | .lock, s => ((), { s with holder := some t })
  | .unlock, s => ((), { s with holder := none })
  | .entries, s => (s.entries, s)
  | .findFor device, s => (StateStore.findFor device s.entries, s)
  | .upsert entry, s => s.save J P (StateStore.upsert entry s.entries)
  | .remove key, s => s.save J P (StateStore.remove key s.entries)
  | .replaceAll entries, s => s.save J P entries
  | .setGuardSuspended key suspended, s =>
    s.updateEntry J P key fun e => { e with guardSuspended := suspended }
  | .setLastSysfsPath key path, s => s.updateEntry J P key fun e => { e with lastSysfsPath := path }
  | .putSnapshot payload trigger reason createdAtUtc, s =>
    s.act (P.putSnapshot s.world payload trigger reason createdAtUtc)
  | .readSnapshot id, s => s.act (P.readSnapshot s.world id)
  | .listSnapshots, s => s.act (P.listSnapshots s.world)
  | .removeSnapshot id, s => s.act (P.removeSnapshot s.world id)
  | .modprobeNames, s => (P.modprobeNames s.world, s)
  | .readModprobe name, s => (P.readModprobe s.world name, s)
  | .writeModprobe name content, s => s.act (P.writeModprobe s.world name content)
  | .removeModprobe name, s => s.act (P.removeModprobe s.world name)

def handle (t : Thread) (o : Op) (s : State W) : Option (o.Ret × State W) :=
  match o with
  | .lock => if s.holder = none then some (respond J P t .lock s) else none
  | o => some (respond J P t o s)

section Change
variable {t : Thread} {s : State W}

@[simp] theorem save_entries (entries : List DisabledDeviceEntry) :
    (s.save J P entries).2.entries = entries := by
  unfold State.save
  dsimp only
  split_ifs <;> rfl

theorem updateEntry_map {β : Type} {g : DisabledDeviceEntry → β} {key : DeviceKey}
    {f : DisabledDeviceEntry → DisabledDeviceEntry} (hf : ∀ e, g (f e) = g e) :
    (s.updateEntry J P key f).2.entries.map g = s.entries.map g := by
  unfold State.updateEntry
  cases hupdate : StateStore.update key f s.entries with
  | none => rfl
  | some entries =>
    rw [save_entries]
    exact update_map (fun e _ => hf e) hupdate

variable {J P} in
theorem handle_state {o : Op} {r : o.Ret} {s' : State W} (h : handle J P t o s = some (r, s')) :
    s' = (respond J P t o s).2 := by
  cases o with
  | lock =>
    simp only [handle] at h
    split_ifs at h
    exact (congrArg Prod.snd (Option.some.inj h)).symm
  | _ => exact (congrArg Prod.snd (Option.some.inj h)).symm

end Change

def enumerate : Verb (List Device) := ExceptT.mk (call (S := daemon) .enumerate)

def probe : Verb CriticalityFacts := ExceptT.mk (call (S := daemon) .probe)

def setEnabled (behalf : Option Enforced) (sysfsPath : Str) (enabled : Bool) (hint : Str) :
    Verb (Option Str) := ExceptT.mk (call (S := daemon) (.setEnabled behalf sysfsPath enabled hint))

def findFor (device : Device) : Prog daemon (Option DisabledDeviceEntry) :=
  call (S := daemon) (.findFor device)

def entries : Prog daemon (List DisabledDeviceEntry) := call (S := daemon) .entries

def setGuardSuspended (key : DeviceKey) (suspended : Bool) : Verb Unit :=
  ExceptT.mk (call (S := daemon) (.setGuardSuspended key suspended) >>= orRaise)

def setLastSysfsPath (key : DeviceKey) (path : Str) : Verb Unit :=
  ExceptT.mk (call (S := daemon) (.setLastSysfsPath key path) >>= orRaise)

def locked {α : Type} (body : Prog daemon α) : Prog daemon α :=
  call (S := daemon) .lock >>= fun _ => body.ending .unlock

def child (dir name : Str) : Str := dir ++ 47 :: name

def attr (dir name : Str) : Prog daemon Str := do
  let v ← call (S := daemon) (.firstLine (child dir name))
  return if str "0x" <+: v then v.drop 2 else v

def linkName (path : Str) : Prog daemon Str := do
  let target ← call (S := daemon) (.weaklyCanonical path)
  return target.elim [] lastSegment

def busTypeFromPath (dir : Str) : Prog daemon BusType := do
  let bus ← linkName (child dir (str "subsystem"))
  return if bus = str "usb" then .usb
    else if bus = str "pci" then .pci
    else if bus = str "platform" then .platform
    else if bus = str "virtio" then .virtio
    else .other

def attrOr (dir name other : Str) : Prog daemon Str := do
  let v ← attr dir name
  if v = [] then attr dir other else return v

def driverOf (dir : Str) : Prog daemon (Option Str) := do
  let link := child dir (str "driver")
  if ¬ (← call (S := daemon) (.pathExists link)) then return none
  let driver ← linkName link
  return if driver = [] then none else some driver

def deviceFromSysfs (canonical : Str) : Prog daemon Device := do
  let bus ← busTypeFromPath canonical
  let vendorId ← attrOr canonical (str "idVendor") (str "vendor")
  let productId ← attrOr canonical (str "idProduct") (str "device")
  let serial ← attr canonical (str "serial")
  let authorized ← if bus = .usb then attr canonical (str "authorized") else pure []
  let boundDriver ← driverOf canonical
  return {
    bus, vendorId, productId, serial, boundDriver
    sysfsPath := canonical
    status := if authorized = str "0" then .disabled else .active }

theorem wp_probe {G : Type} {pre : Op → G → Prop} {next : (o : Op) → o.Ret → G → G}
    {Q : Result CriticalityFacts → G → Prop} {g : G} :
    Wp (S := daemon) pre next probe.run Q g ↔ pre .probe g ∧ ∀ r, Q r (next .probe r g) :=
      Iff.rfl

def Op.Sees : Op → Prop
  | .enumerate | .listLoadedModules | .devicesUsingModule _ | .weaklyCanonical _ | .isDirectory _
  | .pathExists _ | .firstLine _ | .nowUtc | .entries | .modprobeNames | .readModprobe _ => True
  | _ => False

def Op.Reads (o : Op) : Prop :=
  o.Sees ∨ o = .probe ∨ (∃ device, o = .findFor device) ∨
  ∃ caller action, o = .checkAuthorized caller action

theorem respond_reads {t : Thread} (o : Op) (s : State W) (h : o.Reads) :
    (respond J P t o s).2 = s := by
  rcases h with h | rfl | ⟨device, rfl⟩ | ⟨caller, action, rfl⟩
  · cases o <;> first | rfl | exact h.elim
  · rfl
  · rfl
  · rfl

section Only
variable {allowed : Op → Prop} {key : DeviceKey}

theorem only_setLastSysfsPath {path : Str} (h : allowed (.setLastSysfsPath key path)) :
    Only allowed (setLastSysfsPath key path).run :=
  only_bind (only_call.mpr h) fun _ => only_orRaise _

theorem only_setGuardSuspended {suspended : Bool} (h : allowed (.setGuardSuspended key suspended)) :
    Only allowed (setGuardSuspended key suspended).run :=
  only_bind (only_call.mpr h) fun _ => only_orRaise _

theorem only_locked {α : Type} {body : Prog daemon α} (hlock : allowed .lock)
    (hunlock : allowed .unlock) (hbody : Only allowed body) : Only allowed (locked body) :=
  only_bind (only_call.mpr hlock) fun _ => only_ending hunlock hbody

theorem sees_attr (dir name : Str) : Only Op.Sees (attr dir name) :=
  only_bind (only_call.mpr trivial) fun _ => only_pure _

theorem sees_linkName (path : Str) : Only Op.Sees (linkName path) :=
  only_bind (only_call.mpr trivial) fun _ => only_pure _

theorem sees_attrOr (dir name other : Str) : Only Op.Sees (attrOr dir name other) := by
  refine only_bind (sees_attr dir name) fun v => ?_
  split_ifs
  · exact sees_attr dir other
  · exact only_pure _

theorem sees_driverOf (dir : Str) : Only Op.Sees (driverOf dir) := by
  refine only_bind (only_call.mpr trivial) fun present => ?_
  split_ifs
  · exact only_bind (sees_linkName _) fun _ => only_pure _
  · exact only_pure _

theorem sees_deviceFromSysfs (canonical : Str) : Only Op.Sees (deviceFromSysfs canonical) := by
  refine only_bind (only_bind (sees_linkName _) fun _ => only_pure _) fun bus => ?_
  refine only_bind (sees_attrOr ..) fun _ => only_bind (sees_attrOr ..) fun _ => ?_
  refine only_bind (sees_attr ..) fun _ => ?_
  split_ifs
  · exact only_bind (sees_attr ..) fun _ => only_bind (sees_driverOf _) fun _ => only_pure _
  · exact only_bind (only_pure _) fun _ => only_bind (sees_driverOf _) fun _ => only_pure _

end Only

theorem returns_deviceFromSysfs (canonical : Str) :
    Returns (fun device => device.sysfsPath = canonical) (deviceFromSysfs canonical) := by
  refine returns_then fun bus => returns_then fun _ => returns_then fun _ =>
    returns_then fun _ => ?_
  split_ifs <;> exact returns_then fun _ => returns_then fun _ => rfl

theorem total_attr (dir name : Str) : Total (attr dir name) :=
  total_bind (total_call _) fun _ => total_pure _

theorem total_linkName (path : Str) : Total (linkName path) :=
  total_bind (total_call _) fun _ => total_pure _

theorem total_attrOr (dir name other : Str) : Total (attrOr dir name other) := by
  refine total_bind (total_attr dir name) fun v => ?_
  split_ifs
  · exact total_attr dir other
  · exact total_pure _

theorem total_driverOf (dir : Str) : Total (driverOf dir) := by
  refine total_bind (total_call _) fun present => ?_
  split_ifs
  · exact total_bind (total_linkName _) fun _ => total_pure _
  · exact total_pure _

theorem total_deviceFromSysfs (canonical : Str) : Total (deviceFromSysfs canonical) := by
  refine total_bind (total_bind (total_linkName _) fun _ => total_pure _) fun bus => ?_
  refine total_bind (total_attrOr _ _ _) fun _ => total_bind (total_attrOr _ _ _) fun _ => ?_
  refine total_bind (total_attr _ _) fun _ => ?_
  split_ifs
  · exact total_bind (total_attr _ _) fun _ => total_bind (total_driverOf _) fun _ => total_pure _
  · exact total_bind (total_pure _) fun _ => total_bind (total_driverOf _) fun _ => total_pure _

end DevMgr.Daemon
