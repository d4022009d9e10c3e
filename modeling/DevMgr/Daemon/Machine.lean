import DevMgr.Daemon.SnapshotPut
import DevMgr.Daemon.SnapshotService

/-!
# A machine with files

The directories the daemon writes to, beside hardware of any kind: the state
file, the snapshots and the modprobe files, each written the way the stores write
them. How a file call ends is told by the number of calls before it. Under the
modprobe directory there can also be names of what is no regular file.
-/

open DevMgr.Core

namespace DevMgr.Daemon
open Bytes Program

/-- How the file calls of one moment end. -/
structure Faults where
  snapshots : Env
  stateWrite : Option WriteFault
  modprobeWrite : Option WriteFault
  modprobeRemove : Option Str

def Faults.none : Faults := ⟨.quiet, .none, .none, .none⟩

structure Machine (H : Type) where
  hardware : H
  stateDir : Directory
  snapshots : Directory
  modprobeDir : Directory
  irregular : List Str
  calls : ℕ

variable {H : Type}

namespace Machine

def onHardware {α : Type} (w : Machine H) (r : α × H) : α × Machine H :=
  (r.1, { w with hardware := r.2 })

def writeState (faults : ℕ → Faults) (w : Machine H) (content : Str) :
    Result Unit × Machine H :=
  let env := { (faults w.calls).snapshots with dir := str "/var/lib/devmgrd" }
  let (result, stateDir) :=
    atomicWriteFile env (faults w.calls).stateWrite w.stateDir (str "state.json") content
  (result, { w with stateDir, calls := w.calls + 1 })

def putSnapshot (J : Json.Codec) (faults : ℕ → Faults) (w : Machine H) (payload : SnapshotPayload)
    (trigger : SnapshotTrigger) (reason : SnapshotReason) (createdAtUtc : Int64) :
    Option (Result Str) × Machine H :=
  match put J (faults w.calls).snapshots w.snapshots payload trigger reason createdAtUtc with
  | .error _ => (none, { w with calls := w.calls + 1 })
  | .ok (result, snapshots) => (some result, { w with snapshots, calls := w.calls + 1 })

def readSnapshot (J : Json.Codec) (faults : ℕ → Faults) (w : Machine H) (id : Str) :
    Result Snapshot × Machine H :=
  let (result, snapshots) := read J (faults w.calls).snapshots w.snapshots id
  (result, { w with snapshots, calls := w.calls + 1 })

def writeModprobe (faults : ℕ → Faults) (w : Machine H) (name content : Str) :
    Result Unit × Machine H :=
  let env := { (faults w.calls).snapshots with dir := str "/etc/modprobe.d" }
  let (result, modprobeDir) :=
    atomicWriteFile env (faults w.calls).modprobeWrite w.modprobeDir name content
  (result, { w with
    modprobeDir
    irregular := w.irregular.filter (· ∉ modprobeDir)
    calls := w.calls + 1 })

def removeModprobe (faults : ℕ → Faults) (w : Machine H) (name : Str) :
    Option Str × Machine H :=
  match (faults w.calls).modprobeRemove with
  | some message => (some message, { w with calls := w.calls + 1 })
  | none => (none, { w with modprobeDir := w.modprobeDir.erase name, calls := w.calls + 1 })

/-- The platform of the machine: the files as above, anything else as the hardware has it. -/
def platform (J : Json.Codec) (P : Platform H) (faults : ℕ → Faults) :
    Platform (Machine H) where
  facts w := P.facts w.hardware
  probeError w := P.probeError w.hardware
  enumerate w := P.enumerate w.hardware
  setEnabled w path enabled hint := w.onHardware (P.setEnabled w.hardware path enabled hint)
  bindDriver w path driverName := w.onHardware (P.bindDriver w.hardware path driverName)
  unbindDriver w path := w.onHardware (P.unbindDriver w.hardware path)
  loadModule w name := w.onHardware (P.loadModule w.hardware name)
  unloadModule w name := w.onHardware (P.unloadModule w.hardware name)
  listLoadedModules w := P.listLoadedModules w.hardware
  devicesUsingModule w name := P.devicesUsingModule w.hardware name
  checkAuthorized w caller action := P.checkAuthorized w.hardware caller action
  weaklyCanonical w path := P.weaklyCanonical w.hardware path
  isDirectory w path := P.isDirectory w.hardware path
  pathExists w path := P.pathExists w.hardware path
  firstLine w path := P.firstLine w.hardware path
  nowUtc w := P.nowUtc w.hardware
  writeState := writeState faults
  putSnapshot := putSnapshot J faults
  readSnapshot := readSnapshot J faults
  listSnapshots w :=
    let (metas, snapshots) := list J (faults w.calls).snapshots w.snapshots
    (.ok metas, { w with snapshots, calls := w.calls + 1 })
  removeSnapshot w id :=
    let (result, snapshots) := remove J (faults w.calls).snapshots w.snapshots id
    (result, { w with snapshots, calls := w.calls + 1 })
  modprobeNames w := w.modprobeDir.keys.map (·, true) ++ w.irregular.map (·, false)
  readModprobe w name := w.modprobeDir[name]?.getD []
  writeModprobe := writeModprobe faults
  removeModprobe := removeModprobe faults

abbrev respond (J : Json.Codec) (P : Platform H) (faults : ℕ → Faults) (t : Thread) :
    (o : Op) → State (Machine H) → o.Ret × State (Machine H) :=
  Daemon.respond J (platform J P faults) t

end Machine

section Calls
variable {J : Json.Codec} {faults : ℕ → Faults} {w : Machine H}

theorem readSnapshot_stored {id : Str} {snap : Snapshot} (h : stored J w.snapshots id = some snap) :
    Machine.readSnapshot J faults w id = (.ok snap, { w with calls := w.calls + 1 }) := by
  rw [Machine.readSnapshot, read, readLocked_stored h]

theorem putSnapshot_ok {payload : SnapshotPayload} {trigger : SnapshotTrigger}
    {reason : SnapshotReason} {now : Int64} {result : Result Str} {d : Directory}
    (h : put J (faults w.calls).snapshots w.snapshots payload trigger reason now = .ok
      (result, d)) :
    Machine.putSnapshot J faults w payload trigger reason now =
      (some result, { w with snapshots := d, calls := w.calls + 1 }) := by
  rw [Machine.putSnapshot, h]

theorem writeState_ok (content : Str) (h : (faults w.calls).stateWrite = none) :
    (Machine.writeState faults w content).1 = .ok () := by
  unfold Machine.writeState
  rw [h]
  rfl

end Calls

def ownedFiles (d : Directory) : StringMap Str :=
  d.filterMap fun name content => if isDevmgrOwned name then some content else none

@[simp] theorem ownedFiles_getElem? {d : Directory} {name : Str} :
    (ownedFiles d)[name]? = if isDevmgrOwned name then d[name]? else none := by
  rw [ownedFiles, Std.ExtTreeMap.getElem?_filterMap']
  cases d[name]? <;> simp

def captured (s : State (Machine H)) : SnapshotPayload :=
  ⟨s.entries, ownedFiles s.world.modprobeDir⟩

section Capture
variable {J : Json.Codec} {P : Platform H} {faults : ℕ → Faults} {t : Thread}
  {s : State (Machine H)}

theorem leaves_readModprobeFiles (names : List (Str × Bool)) :
    Leaves (Machine.respond J P faults t) (readModprobeFiles names) s
      fun files s' => s' = s ∧ ∀ name, files[name]? =
        if (name, true) ∈ names ∧ isDevmgrOwned name then
          some (s.world.modprobeDir[name]?.getD [])
        else none := by
  induction names with
  | nil => simp [readModprobeFiles]
  | cons file names ih =>
    obtain ⟨first, regular⟩ := file
    rw [readModprobeFiles]
    split_ifs with hskip
    · refine ih.mono fun files s' hread => ⟨hread.1, fun name => ?_⟩
      rw [hread.2]
      refine if_congr (and_congr_left fun howned => ?_) rfl rfl
      have hne : (name, true) ≠ (first, regular) := by
        rintro ⟨rfl, rfl⟩
        simp [howned] at hskip
      rw [List.mem_cons, or_iff_right hne]
    · refine leaves_bind.mpr (leaves_call.mpr (leaves_bind.mpr (ih.mono fun files s' hread => ?_)))
      refine leaves_pure.mpr ⟨hread.1, fun name => ?_⟩
      have hfirst : regular = true ∧ isDevmgrOwned first = true := by simpa using hskip
      rw [Std.ExtTreeMap.getElem?_insert, hread.2]
      by_cases hname : name = first
      · subst hname
        simp [hfirst]
        rfl
      · simp [hname, Ne.symm hname]

theorem leaves_ownedFiles {names : List (Str × Bool)}
    (hnames : ∀ name, (name, true) ∈ names ↔ name ∈ s.world.modprobeDir) :
    Leaves (Machine.respond J P faults t) (readModprobeFiles names) s
      fun files s' => files = ownedFiles s.world.modprobeDir ∧ s' = s := by
  refine (leaves_readModprobeFiles names).mono fun files s' ⟨hs, hfiles⟩ => ⟨?_, hs⟩
  refine Std.ExtTreeMap.ext_getElem? fun name => ?_
  rw [hfiles, ownedFiles_getElem?]
  by_cases hmem : name ∈ s.world.modprobeDir
  · simp [hnames, hmem]
  · simp [hnames, hmem]

theorem leaves_capturePayload : Leaves (Machine.respond J P faults t) capturePayload s
    fun payload s' => payload = captured s ∧ s' = s := by
  refine leaves_bind.mpr (leaves_call.mpr (leaves_bind.mpr (leaves_call.mpr (leaves_bind.mpr ?_))))
  refine (leaves_ownedFiles fun name => ?_).mono fun files s' ⟨hfiles, hs⟩ =>
    leaves_pure.mpr ⟨congrArg (SnapshotPayload.mk s.entries) hfiles, hs⟩
  simp [Machine.respond, Daemon.respond, Machine.platform]

theorem total_readModprobeFiles (names : List (Str × Bool)) : Total (readModprobeFiles names) := by
  induction names with
  | nil => exact total_pure _
  | cons file names ih =>
    rw [readModprobeFiles]
    split_ifs
    · exact ih
    · exact total_bind (total_call _) fun _ => total_bind ih fun _ => total_pure _

theorem run_capturePayload :
    (run (Machine.respond J P faults t) capturePayload s).value = some (captured s) ∧
      (run (Machine.respond J P faults t) capturePayload s).state = s := by
  obtain ⟨payload, hvalue⟩ := run_total (Machine.respond J P faults t) (s := s)
    (show Total capturePayload from total_bind (total_call _) fun _ => total_bind (total_call _)
      fun _ => total_bind (total_readModprobeFiles _) fun _ => total_pure _)
  obtain ⟨rfl, hstate⟩ := leaves_capturePayload payload hvalue
  exact ⟨hvalue, hstate⟩

end Capture

end DevMgr.Daemon
