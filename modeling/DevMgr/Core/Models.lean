import DevMgr.Library.StringMap

/-!
# Devices, driver modules and errors

The core data types of the daemon as its headers declare them. Device names,
modaliases and properties are display data that no modelled function reads.
-/

namespace DevMgr.Core
open Bytes

inductive Error.Code where
  | permission
  | notFound
  | busy
  | io
  | network
  | unsupported
  | conflict
  | invalidArgs
  deriving DecidableEq, Repr

structure Error where
  code : Error.Code
  message : Str
  deriving DecidableEq, Repr

abbrev Result (α : Type) := Except Error α

def makeError {α : Type} (code : Error.Code) (message : Str) : Result α :=
  .error ⟨code, message⟩

inductive DeviceStatus where
  | active
  | disabled
  | transitioning
  | error
  | unknown
  deriving DecidableEq, Repr

inductive BusType where
  | pci
  | usb
  | platform
  | virtio
  | other
  deriving DecidableEq, Repr

structure Device where
  bus : BusType
  sysfsPath : Str
  vendorId : Str
  productId : Str
  serial : Str
  status : DeviceStatus
  boundDriver : Option Str
  deriving DecidableEq, Repr

structure LoadedModule where
  name : Str
  sizeBytes : UInt64
  refCount : ℤ
  holders : List Str
  deriving DecidableEq, Repr

/-- Tiered identity: the serial tuple when the serial is not empty, otherwise the position
validated by vendor and product. -/
structure DeviceKey where
  bus : Str
  vendorId : Str
  productId : Str
  serial : Str
  position : Str
  deriving DecidableEq, Repr

structure DisabledDeviceEntry where
  key : DeviceKey
  mechanism : Str
  lastDriver : Str
  lastSysfsPath : Str
  disabledAtUtc : Int64
  guardSuspended : Bool
  deriving DecidableEq

end DevMgr.Core
