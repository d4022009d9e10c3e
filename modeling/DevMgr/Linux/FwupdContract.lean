import DevMgr.Core.UpdateModels
import Mathlib.Data.UInt

/-!
# What fwupd says

The replies of fwupd are dictionaries of variants. A key that is missing and a
key of another type read the same.
-/

open DevMgr.Core

namespace DevMgr.Linux.Fwupd
open Bytes

inductive Variant where
  | string (s : Str)
  | uint32 (n : UInt32)
  | uint64 (n : UInt64)
  | boolean (b : Bool)
  | strings (l : List Str)
  | other

abbrev Dict := StringMap Variant

def Variant.string? : Variant → Option Str
  | .string s => some s
  | _ => none

def Variant.uint32? : Variant → Option UInt32
  | .uint32 n => some n
  | _ => none

def Variant.uint64? : Variant → Option UInt64
  | .uint64 n => some n
  | _ => none

def Variant.strings? : Variant → Option (List Str)
  | .strings l => some l
  | _ => none

def get {α : Type} (as : Variant → Option α) (d : Dict) (key : String) : Option α :=
  d[str key]?.bind as

def kDeviceFlagUpdatable : UInt64 := 2 ^ 1
def kDeviceFlagSupported : UInt64 := 2 ^ 5
def kDeviceFlagNeedsReboot : UInt64 := 2 ^ 8
def kReleaseFlagIsUpgrade : UInt64 := 2 ^ 2
def kUpdateStatePending : UInt32 := 1
def kUpdateStateSuccess : UInt32 := 2
def kUpdateStateFailed : UInt32 := 3
def kUpdateStateNeedsReboot : UInt32 := 4

structure ParsedDevice where
  deviceId : Str
  name : Str
  vendor : Str
  version : Str
  facts : DeviceUpdateFacts

def parseDevice (dict : Dict) : Option ParsedDevice :=
  let deviceId := (get Variant.string? dict "DeviceId").getD []
  if deviceId = [] then none
  else (get Variant.string? dict "Version").map fun version =>
    let flags := (get Variant.uint64? dict "Flags").getD 0
    { deviceId
      name := (get Variant.string? dict "Name").getD (str "(unnamed device)")
      vendor := (get Variant.string? dict "Vendor").getD []
      version
      facts :=
        { updatable := flags &&& kDeviceFlagUpdatable != 0
          supported := flags &&& kDeviceFlagSupported != 0
          needsRebootAfterUpdate := flags &&& kDeviceFlagNeedsReboot != 0 } }

def parseLocations (dict : Dict) : List Str :=
  match get Variant.strings? dict "Locations" with
  | some (loc :: locs) => loc :: locs
  | _ =>
    match get Variant.string? dict "Uri" with
    | some (c :: uri) => [c :: uri]
    | _ => []

def parseRelease (dict : Dict) : Option ReleaseInfo :=
  (get Variant.string? dict "Version").map fun version =>
    { version
      summary := (get Variant.string? dict "Summary").getD []
      remoteId := (get Variant.string? dict "RemoteId").getD []
      checksum := (get Variant.string? dict "Checksum").getD []
      locations := parseLocations dict
      localCab := false
      sizeBytes := (get Variant.uint64? dict "Size").getD 0
      isUpgrade := (get Variant.uint64? dict "Flags").getD 0 &&& kReleaseFlagIsUpgrade != 0
      installDurationSec := get Variant.uint32? dict "InstallDuration" }

def isNothingToDo (name : Str) : Bool := name = str "org.freedesktop.fwupd.NothingToDo"

def mapError (name message : Str) : Error where
  code :=
    if name = str "org.freedesktop.fwupd.AuthFailed" then .permission
    else if name = str "org.freedesktop.fwupd.NothingToDo" ∨
      name = str "org.freedesktop.fwupd.VersionNewer" then .conflict
    else if name = str "org.freedesktop.fwupd.NeedsUserAction" then .busy
    else .io
  message :=
    (if name = [] then str "fwupd" else name) ++
      (if message = [] then str ": unknown error" else str ": " ++ message)

def dispositionFromUpdateState (state : UInt32) : InstallDisposition :=
  if state = kUpdateStateNeedsReboot then .needsReboot
  else if state = kUpdateStatePending then .scheduled
  else .completed

def kInterface : Str := str "org.freedesktop.fwupd"

def statusNames : List Str :=
  [str "unknown", str "idle", str "loading", str "decompressing", str "device-restart",
    str "device-write",
    str "device-verify", str "scheduling", str "downloading", str "device-read", str "device-erase",
    str "waiting-for-auth", str "device-busy", str "shutdown", str "waiting-for-user"]

def statusName (status : UInt32) : Str := statusNames.getD status.toNat (str "unknown")

theorem disposition_needsReboot_iff {state : UInt32} :
    dispositionFromUpdateState state = .needsReboot ↔ state = kUpdateStateNeedsReboot := by
  unfold dispositionFromUpdateState
  split_ifs with hreboot hpending
  · exact iff_of_true rfl hreboot
  · exact iff_of_false nofun hreboot
  · exact iff_of_false nofun hreboot

theorem disposition_scheduled_iff {state : UInt32} :
    dispositionFromUpdateState state = .scheduled ↔ state = kUpdateStatePending := by
  unfold dispositionFromUpdateState
  split_ifs with hreboot hpending
  · simp [hreboot, kUpdateStateNeedsReboot, kUpdateStatePending]
  · exact iff_of_true rfl hpending
  · exact iff_of_false nofun hpending

theorem disposition_completed_iff {state : UInt32} :
    dispositionFromUpdateState state = .completed ↔
      state ≠ kUpdateStateNeedsReboot ∧ state ≠ kUpdateStatePending := by
  unfold dispositionFromUpdateState
  split_ifs with hreboot hpending
  · exact iff_of_false nofun fun h => h.1 hreboot
  · exact iff_of_false nofun fun h => h.2 hpending
  · exact iff_of_true rfl ⟨hreboot, hpending⟩

end DevMgr.Linux.Fwupd
