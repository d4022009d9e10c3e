import DevMgr.Core.SnapshotModels
import DevMgr.Library.Json.Value

/-!
# Disabled entries and snapshot payloads as JSON

The members of an object stand in the order the library keeps them in. Reading
back what was written gives the entry or the payload unchanged.
-/

open DevMgr.Core

namespace DevMgr.Daemon
open Bytes

def entryToJson (e : DisabledDeviceEntry) : Json :=
  .obj [
    (str "bus", .string e.key.bus),
    (str "disabled_at_utc", .int e.disabledAtUtc.toInt),
    (str "guard_suspended", .bool e.guardSuspended),
    (str "last_driver", .string e.lastDriver),
    (str "last_sysfs_path", .string e.lastSysfsPath),
    (str "mechanism", .string e.mechanism),
    (str "position", .string e.key.position),
    (str "product_id", .string e.key.productId),
    (str "serial", .string e.key.serial),
    (str "vendor_id", .string e.key.vendorId)]

def entryFromJson (j : Json) : Except Json.Exception DisabledDeviceEntry := do
  let bus ← (← j.atKey (str "bus")).getString
  let vendorId ← (← j.atKey (str "vendor_id")).getString
  let productId ← (← j.atKey (str "product_id")).getString
  let serial ← (← j.atKey (str "serial")).getString
  let position ← (← j.atKey (str "position")).getString
  let mechanism ← (← j.atKey (str "mechanism")).getString
  let lastDriver ← (← j.atKey (str "last_driver")).getString
  let lastSysfsPath ← (← j.atKey (str "last_sysfs_path")).getString
  let disabledAtUtc ← (← j.atKey (str "disabled_at_utc")).getInt64
  let guardSuspended ← (← j.atKey (str "guard_suspended")).getBool
  return {
    key := { bus, vendorId, productId, serial, position }
    mechanism, lastDriver, lastSysfsPath, disabledAtUtc, guardSuspended }

def payloadToJson (payload : SnapshotPayload) : Json :=
  .obj [
    (str "entries", .arr (payload.entries.map entryToJson)),
    (str "modprobe_files", .ofStringMap payload.modprobeFiles)]

def payloadFromJson (j : Json) : Except Json.Exception SnapshotPayload := do
  let entries ← (← j.atKey (str "entries")).items.mapM entryFromJson
  let modprobeFiles ← (← j.atKey (str "modprobe_files")).getStringMap
  return { entries, modprobeFiles }

theorem entryFromJson_toJson (e : DisabledDeviceEntry) : entryFromJson (entryToJson e) = .ok e := by
  have htime : Int64.ofInt e.disabledAtUtc.toInt = e.disabledAtUtc := Int64.ofInt_toInt _
  change Except.ok (DisabledDeviceEntry.mk e.key e.mechanism e.lastDriver e.lastSysfsPath
    (Int64.ofInt e.disabledAtUtc.toInt) e.guardSuspended) = .ok e
  rw [htime]

theorem mapM_entryFromJson (l : List DisabledDeviceEntry) :
    (l.map entryToJson).mapM entryFromJson = .ok l := by
  induction l with
  | nil => rfl
  | cons e l ih =>
    rw [List.map_cons, List.mapM_cons, entryFromJson_toJson, ih]
    rfl

theorem payloadFromJson_toJson (p : SnapshotPayload) :
    payloadFromJson (payloadToJson p) = .ok p := by
  have hentries := mapM_entryFromJson p.entries
  have hfiles := Json.getStringMap_ofStringMap p.modprobeFiles
  change (do
    let entries ← (p.entries.map entryToJson).mapM entryFromJson
    let modprobeFiles ← (Json.ofStringMap p.modprobeFiles).getStringMap
    return SnapshotPayload.mk entries modprobeFiles) = _
  rw [hentries, hfiles]
  rfl

theorem int64_canonical (n : Int64) : (Json.int n.toInt).Canonical := by
  have hlow := Int64.le_toInt n
  have hhigh := Int64.toInt_lt n
  exact ⟨hlow, by omega⟩

theorem entryToJson_canonical (e : DisabledDeviceEntry) : (entryToJson e).Canonical :=
  ⟨keySorted_of_keys (by simp only [List.map]; decide), trivial, int64_canonical _, trivial,
    trivial, trivial, trivial, trivial, trivial,
    trivial, trivial, trivial⟩

theorem payloadToJson_canonical (p : SnapshotPayload) : (payloadToJson p).Canonical := by
  refine ⟨keySorted_of_keys (by simp only [List.map]; decide),
    (Json.canonicalElements_iff _).mpr ?_, Json.ofStringMap_canonical _, trivial⟩
  simp only [List.mem_map]
  rintro _ ⟨e, _, rfl⟩
  exact entryToJson_canonical e

end DevMgr.Daemon
