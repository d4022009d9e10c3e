import DevMgr.Core.Models

/-!
# Snapshots

What a snapshot holds (the disabled entries and the modprobe files by name),
its metadata, and the serialized forms of a trigger. Health is derived by the
store when it reads a file and is never written.
-/

namespace DevMgr.Core
open Bytes

def kSnapshotFormatVersion : Int32 := 1

inductive SnapshotTrigger where
  | manual
  | auto
  deriving DecidableEq, Repr

def SnapshotTrigger.toStr : SnapshotTrigger → Str
  | .manual => str "manual"
  | .auto => str "auto"

def snapshotTriggerFrom (text : Str) : Option SnapshotTrigger :=
  if text = str "manual" then some .manual
  else if text = str "auto" then some .auto
  else none

@[simp] theorem snapshotTriggerFrom_toStr (t : SnapshotTrigger) :
    snapshotTriggerFrom t.toStr = some t := by
  cases t <;> decide

structure SnapshotReason where
  verb : Str
  subject : Str
  deriving DecidableEq

inductive SnapshotHealth where
  | ok
  | corrupt
  | unsupported
  deriving DecidableEq, Repr

structure SnapshotPayload where
  entries : List DisabledDeviceEntry
  modprobeFiles : StringMap Str

structure SnapshotMeta where
  id : Str
  parent : Option Str
  createdAtUtc : Int64
  trigger : SnapshotTrigger
  reason : SnapshotReason
  health : SnapshotHealth
  entryCount : ℕ
  modprobeFileCount : ℕ
  deriving DecidableEq

/-- The map from ids to metadata, which keeps the first entry of every id. -/
def byId (metas : List SnapshotMeta) (id : Str) : Option SnapshotMeta :=
  metas.find? fun m => m.id = id

theorem byId_id {metas : List SnapshotMeta} {id : Str} {m : SnapshotMeta}
    (h : byId metas id = some m) : m.id = id := by
  simpa using List.find?_some h

theorem byId_mem {metas : List SnapshotMeta} {id : Str} {m : SnapshotMeta}
    (h : byId metas id = some m) : m ∈ metas := List.mem_of_find?_eq_some h

theorem byId_isSome {metas : List SnapshotMeta} {m : SnapshotMeta} (h : m ∈ metas) :
    ∃ m', byId metas m.id = some m' := by
  rw [← Option.isSome_iff_exists]
  exact List.find?_isSome.mpr ⟨m, h, by simp⟩

theorem byId_none {metas : List SnapshotMeta} {id : Str} : byId metas id = none ↔
    ∀ m ∈ metas, m.id ≠ id := by
  simp [byId]

theorem byId_of_nodup {metas : List SnapshotMeta} (hnodup : (metas.map SnapshotMeta.id).Nodup)
    {m : SnapshotMeta} (hm : m ∈ metas) : byId metas m.id = some m := by
  obtain ⟨m', hm'⟩ := byId_isSome hm
  rw [hm', List.inj_on_of_nodup_map hnodup (byId_mem hm') hm (byId_id hm')]

structure Snapshot where
  info : SnapshotMeta
  payload : SnapshotPayload

structure RestoreItemOutcome where
  subject : Str
  action : Str
  status : Str
  detail : Str
  deriving DecidableEq

structure RestoreOutcome where
  snapshotId : Str
  safetySnapshotId : Str
  items : List RestoreItemOutcome

end DevMgr.Core
