import DevMgr.Core.Models
import Mathlib.Data.Int.Notation

/-!
# Updates

What an update provider reports and what an install comes to.
-/

namespace DevMgr.Core
open Bytes

inductive InstallDisposition where
  | completed
  | scheduled
  | needsReboot
  | needsUserAction
  deriving DecidableEq

structure InstallOutcome where
  disposition : InstallDisposition
  needsReboot : Bool
  observedVersion : Option Str
  message : Str
  deriving DecidableEq

structure ReleaseRef where
  remoteId : Str
  checksum : Str
  deriving DecidableEq

structure DeviceUpdateFacts where
  updatable : Bool
  supported : Bool
  needsRebootAfterUpdate : Bool
  deriving DecidableEq

structure ReleaseInfo where
  version : Str
  summary : Str
  remoteId : Str
  checksum : Str
  locations : List Str
  localCab : Bool
  sizeBytes : UInt64
  isUpgrade : Bool
  installDurationSec : Option UInt32
  deriving DecidableEq

structure UpdateCandidate where
  providerId : Str
  id : Str
  displayName : Str
  currentVersion : Str
  candidateVersion : Option Str
  facts : DeviceUpdateFacts
  releases : List ReleaseInfo
  details : List (Str × Str)
  deriving DecidableEq

structure ProviderAvailability where
  available : Bool
  version : Option Str
  error : Option Error
  notices : List Str
  deriving DecidableEq

structure UpdateProviderState where
  providerId : Str
  availability : ProviderAvailability
  candidates : List UpdateCandidate
  refreshError : Option Error
  deriving DecidableEq

structure ProgressUpdate where
  percent : ℤ
  stage : Str
  deriving DecidableEq

structure PendingAction where
  providerId : Str
  deviceId : Str
  deviceName : Str
  disposition : InstallDisposition
  version : Str
  deriving DecidableEq

end DevMgr.Core
