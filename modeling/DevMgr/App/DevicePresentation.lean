import DevMgr.App.DeviceService
import Mathlib.Data.List.DropRight

/-!
# How a device reads

The label of a device is the first of several sources that gives one: a name that
is not the kernel's position, the hardware database, what the device says of
itself, a category behind the vendor. The position and the ids stand in the
identity beside it.
-/

open DevMgr.Core

namespace DevMgr.App
open Bytes

namespace DevicePresentation

def find (value : Str) (c : UInt8) (pos : ℕ) : Option ℕ :=
  ((value.drop pos).idxOf? c).map (pos + ·)

def rfind (value : Str) (c : UInt8) : Option ℕ :=
  (value.reverse.idxOf? c).map fun i => value.length - 1 - i

def substr (value : Str) (pos count : ℕ) : Str := (value.drop pos).take count

def trimmed (value : Str) : Str := (value.rdropWhile isSpace).dropWhile isSpace

def equalsIgnoringCase (a b : Str) : Bool := a.length = b.length ∧ a.map toLower = b.map toLower

def isHexDigit (c : UInt8) : Bool := isDigit c || (65 ≤ c && c ≤ 70) || (97 ≤ c && c ≤ 102)

def isHexRun (value : Str) (digits : ℕ) : Bool := value.length = digits ∧ value.all isHexDigit

def isDigitRun (value : Str) : Bool := value ≠ [] ∧ value.all isDigit

def kPciDomainDigits : ℕ := 4
def kPciBusDigits : ℕ := 2
def kPciSlotDigits : ℕ := 2
def kPciFunctionDigits : ℕ := 1
def kProductIdDigits : ℕ := 4

def looksLikePciAddress (value : Str) : Bool :=
  match find value 58 0 with
  | none => false
  | some firstColon =>
    match find value 58 (firstColon + 1) with
    | none => false
    | some secondColon =>
      match find value 46 (secondColon + 1) with
      | none => false
      | some dot =>
        isHexRun (substr value 0 firstColon) kPciDomainDigits &&
        isHexRun (substr value (firstColon + 1) (secondColon - firstColon - 1)) kPciBusDigits &&
        isHexRun (substr value (secondColon + 1) (dot - secondColon - 1)) kPciSlotDigits &&
        isHexRun (value.drop (dot + 1)) kPciFunctionDigits

/-- The loop over the ports, and the test behind it that some are left where it ends. -/
def portsRun (ports : Str) : Bool :=
  if ports = [] then false
  else match find ports 46 0 with
    | none => isDigitRun ports
    | some dot => if isDigitRun (substr ports 0 dot) then portsRun (ports.drop (dot + 1)) else false
termination_by ports.length
decreasing_by
  have hpos := List.length_pos_of_ne_nil ‹ports ≠ []›
  rw [List.length_drop]
  omega

def looksLikeUsbPosition (value : Str) : Bool :=
  if str "usb" <+: value then isDigitRun (value.drop 3)
  else match find value 45 0 with
    | none => false
    | some dash =>
      if dash = 0 then false
      else if isDigitRun (substr value 0 dash) then portsRun (value.drop (dash + 1)) else false

def nameIsPositional (device : Device) : Bool :=
  let position := lastSegment device.sysfsPath
  if device.name = [] then true
  else if position ≠ [] ∧ device.name = position then true
  else looksLikePciAddress device.name || looksLikeUsbPosition device.name

def kLegalSuffixes : List Str := [
  str "Incorporated", str "Inc.", str "Inc",
  str "Corporation", str "Corp.", str "Corp",
  str "Company", str "Co.", str "Co",
  str "Limited", str "Ltd.", str "Ltd",
  str "GmbH", str "LLC", str "AG",
  str "S.A.", str "B.V."]

def bracketedAlias (vendor : Str) : Str :=
  if vendor.length ≤ 2 ∨ vendor.getLast? ≠ some 93 then []
  else match rfind vendor 91 with
    | none => []
    | some opening =>
      if vendor.length - 1 ≤ opening + 1 then []
      else substr vendor (opening + 1) (vendor.length - opening - 2)

def endsInSuffix (vendor suffix : Str) : Bool :=
  if vendor.length ≤ suffix.length then false
  else
    let boundary := vendor[vendor.length - suffix.length - 1]?
    (boundary = some 32 ∨ boundary = some 44) ∧
      equalsIgnoringCase (vendor.drop (vendor.length - suffix.length)) suffix

def dropLegalSuffix (vendor : Str) : Str × Bool :=
  let vendor := vendor.rdropWhile fun c => c = 44 || isSpace c
  match kLegalSuffixes.find? (endsInSuffix vendor) with
  | none => (vendor, false)
  | some hit => (vendor.take (vendor.length - hit.length), true)

def dropLegalSuffixes : ℕ → Str → Str
  | 0, vendor => vendor
  | passes + 1, vendor =>
    let (vendor, dropped) := dropLegalSuffix vendor
    if dropped then dropLegalSuffixes passes vendor else vendor

def kMaxPasses : ℕ := 4

def shortVendor (vendor : Str) : Str :=
  let vendor := trimmed vendor
  let shortForm := bracketedAlias vendor
  if shortForm ≠ [] then shortForm else trimmed (dropLegalSuffixes kMaxPasses vendor)

def withVendor (vendor rest : Str) : Str :=
  if vendor = [] then rest
  else if equalsIgnoringCase (rest.take (min vendor.length rest.length)) vendor then rest
  else vendor ++ str " " ++ rest

def cleanSelfReportedModel (model productId : Str) : Str :=
  let model := trimmed (model.map fun c => if c = 95 then 32 else c)
  if model = [] then []
  else if equalsIgnoringCase model productId then []
  else if isHexRun model kProductIdDigits then []
  else model

end DevicePresentation

open DevicePresentation

def kVendorFromDatabase : Str := str "ID_VENDOR_FROM_DATABASE"
def kModelFromDatabase : Str := str "ID_MODEL_FROM_DATABASE"
def kSelfReportedModel : Str := str "ID_MODEL"
def kPciSubclassFromDatabase : Str := str "ID_PCI_SUBCLASS_FROM_DATABASE"
def kPciClassFromDatabase : Str := str "ID_PCI_CLASS_FROM_DATABASE"

def Device.property (device : Device) (key : Str) : Str := (device.properties[key]?).getD []

def displayBus : BusType → Str
  | .pci => str "PCI"
  | .usb => str "USB"
  | .platform => str "Platform"
  | .virtio => str "Virtio"
  | .other => str "Other"

def busToString : BusType → Str
  | .pci => str "Pci"
  | .usb => str "Usb"
  | .platform => str "Platform"
  | .virtio => str "Virtio"
  | .other => str "Other"

def displayDeviceIdentity (device : Device) : Str :=
  let ids := if device.vendorId ≠ [] ∨ device.productId ≠ [] then
    device.vendorId ++ str ":" ++ device.productId
    else []
  let position := lastSegment device.sysfsPath
  if ids = [] then position
  else if position = [] then ids
  else ids ++ str " · " ++ position

def categoryOf (device : Device) : Option Str :=
  ([kPciSubclassFromDatabase, kPciClassFromDatabase].map fun key => trimmed
    (device.property key)).find? (· ≠ [])

def displayDeviceName (device : Device) : Str :=
  if ¬ nameIsPositional device then device.name
  else
    let catalogued := trimmed (device.property kModelFromDatabase)
    let self := cleanSelfReportedModel (device.property kSelfReportedModel) device.productId
    let vendor := shortVendor (device.property kVendorFromDatabase)
    if catalogued ≠ [] then catalogued
    else if self ≠ [] then self
    else match categoryOf device with
      | some category => withVendor vendor category
      | none =>
        if vendor ≠ [] then vendor ++ str " device"
        else if displayDeviceIdentity device ≠ [] then displayBus device.bus ++ str " device"
        else if device.name = [] then str "(unknown device)"
        else device.name

end DevMgr.App
