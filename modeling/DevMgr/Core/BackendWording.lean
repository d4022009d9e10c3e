import DevMgr.Core.Models

/-!
# Backends and why they cannot serve
-/

namespace DevMgr.Core
open Bytes

inductive BackendId where
  | devmgrd
  | fwupd
  | dkms
  deriving DecidableEq

inductive UnavailabilityKind where
  | absent
  | unreachable
  | notPermitted
  | unsupported
  deriving DecidableEq

def kindFor : Error.Code → UnavailabilityKind
  | .notFound => .absent
  | .permission => .notPermitted
  | .unsupported => .unsupported
  | .io | .network | .busy | .conflict | .invalidArgs => .unreachable

def backendName : BackendId → Str
  | .devmgrd => str "Device service"
  | .fwupd => str "Firmware updates"
  | .dkms => str "DKMS status"

def unavailabilityText : BackendId → UnavailabilityKind → Str
  | .devmgrd, .unreachable => str "Device service unavailable — showing read-only system state."
  | .fwupd, .unreachable =>
      str "Firmware updates unavailable — the fwupd service is not responding."
  | .dkms, .absent => str "DKMS status unavailable — DKMS is not installed on this system."
  | backend, _ => backendName backend ++ str " unavailable — this cannot be read right now."

def backendForProvider (providerId : Str) : Option BackendId :=
  if providerId = str "fwupd" then some .fwupd
  else if providerId = str "dkms" then some .dkms
  else none

theorem backendForProvider_ne_devmgrd (providerId : Str) :
    backendForProvider providerId ≠ some .devmgrd := by
  unfold backendForProvider
  split_ifs <;> exact nofun

end DevMgr.Core
