import DevMgr.Core.CriticalDeviceGuard
import DevMgr.Core.Models

/-!
# How load-bearing a component is

The tier of a device is the verdict of the guard. The tier of a module is decided
by a list of names that are compared exactly, then by what holds the module.
-/

namespace DevMgr.Core
open Bytes

inductive Criticality where
  | ordinary
  | important
  | essential
  deriving DecidableEq, Repr

def kEssentialModules : List Str := [
  str "ahci", str "btrfs", str "dm-crypt", str "dm-mod", str "ext4", str "f2fs", str "libata",
  str "md-mod", str "nvme", str "scsi_mod", str "sd_mod", str "xfs",
  str "atkbd", str "evdev", str "hid", str "i8042", str "usbhid",
  str "amdgpu", str "drm", str "drm_kms_helper", str "i915", str "nouveau",
  str "ehci_hcd", str "ohci_hcd", str "pci", str "pcieport", str "usbcore", str "xhci_hcd"]

def kSecurityModules : List Str :=
  [str "apparmor", str "ima", str "integrity", str "lockdown", str "selinux"]

def classifyDevice (facts : CriticalityFacts) (sysfsPath : Str) : Criticality :=
  if (evaluateDisable facts sysfsPath).allowed then .ordinary else .essential

def classifyModule (name : Str) (refCount : ℤ) (holders : List Str) : Criticality :=
  if name ∈ kEssentialModules then .essential
  else if holders ≠ [] ∨ 0 < refCount then .important
  else if name ∈ kSecurityModules then .important
  else .ordinary

theorem classifyModule_essential {name : Str} (refCount : ℤ) (holders : List Str) :
    classifyModule name refCount holders = .essential ↔ name ∈ kEssentialModules := by
  rw [classifyModule]
  split_ifs with hlisted <;> simp [hlisted]

theorem classifyModule_security {name : Str} {refCount : ℤ} {holders : List Str}
    (hname : name ∈ kSecurityModules) : classifyModule name refCount holders = .important := by
  have hapart : ∀ n ∈ kSecurityModules, n ∉ kEssentialModules := by decide
  simp [classifyModule, hapart name hname, hname]

theorem classifyModule_congr {name name' : Str} {refCount : ℤ} {holders : List Str}
    (hessential : name ∈ kEssentialModules ↔ name' ∈ kEssentialModules)
    (hsecurity : name ∈ kSecurityModules ↔ name' ∈ kSecurityModules) :
    classifyModule name refCount holders = classifyModule name' refCount holders := by
  simp only [classifyModule, hessential, hsecurity]

end DevMgr.Core
