import DevMgr.Daemon.Platform

/-!
# What identifies a device in sysfs

The identity of a device is read from a few attributes of its directory and from
its subsystem link. As long as these stay the same, so does the identity.
-/

open DevMgr.Core

namespace DevMgr.Daemon
open Bytes Program

variable {W : Type}

namespace Platform
variable (P : Platform W) (w : W) (dir : Str)

def attr (name : Str) : Str :=
  let v := P.firstLine w (child dir name)
  if str "0x" <+: v then v.drop 2 else v

def attrOr (name other : Str) : Str :=
  if P.attr w dir name = [] then P.attr w dir other else P.attr w dir name

def busAt : BusType :=
  let bus := ((P.weaklyCanonical w (child dir (str "subsystem"))).elim [] lastSegment)
  if bus = str "usb" then .usb
  else if bus = str "pci" then .pci
  else if bus = str "platform" then .platform
  else if bus = str "virtio" then .virtio
  else .other

def identityAt : Device where
  bus := P.busAt w dir
  sysfsPath := dir
  vendorId := P.attrOr w dir (str "idVendor") (str "vendor")
  productId := P.attrOr w dir (str "idProduct") (str "device")
  serial := P.attr w dir (str "serial")
  status := .unknown
  boundDriver := none

def statusAt : DeviceStatus :=
  if P.busAt w dir = .usb ∧ P.attr w dir (str "authorized") = str "0" then .disabled else .active

def driverAt : Option Str :=
  let driver := (P.weaklyCanonical w (child dir (str "driver"))).elim [] lastSegment
  if P.pathExists w (child dir (str "driver")) ∧ driver ≠ [] then some driver else none

def deviceAt : Device :=
  { P.identityAt w dir with status := P.statusAt w dir, boundDriver := P.driverAt w dir }

def identityAttributes : List Str :=
  [str "idVendor", str "vendor", str "idProduct", str "device", str "serial"]

structure SameAt (w w' : W) : Prop where
  directory : P.isDirectory w' dir = P.isDirectory w dir
  subsystem : P.weaklyCanonical w' (child dir (str "subsystem")) =
    P.weaklyCanonical w (child dir (str "subsystem"))
  attributes : ∀ name ∈ identityAttributes, P.firstLine w' (child dir name) = P.firstLine w
      (child dir name)

variable {P w dir} {w' w'' : W}

theorem SameAt.refl : P.SameAt dir w w := ⟨rfl, rfl, fun _ _ => rfl⟩

theorem SameAt.trans (h : P.SameAt dir w w') (h' : P.SameAt dir w' w'') : P.SameAt dir w w'' :=
  ⟨h'.directory.trans h.directory, h'.subsystem.trans h.subsystem,
    fun name hname => (h'.attributes name hname).trans (h.attributes name hname)⟩

theorem SameAt.attr {name : Str} (h : P.SameAt dir w w') (hname : name ∈ identityAttributes) :
    P.attr w' dir name = P.attr w dir name := by
  unfold Platform.attr
  rw [h.attributes name hname]

theorem SameAt.attrOr {name other : Str} (h : P.SameAt dir w w') (hname : name ∈ identityAttributes)
    (hother : other ∈ identityAttributes) : P.attrOr w' dir name other =
      P.attrOr w dir name other := by
  unfold Platform.attrOr
  rw [h.attr hname, h.attr hother]

end Platform

section Sysfs
variable {J : Json.Codec} {P : Platform W} {t : Thread} {s : State W} {dir : Str}

theorem leaves_attr {name : Str} {Q : Str → State W → Prop} :
    Leaves (S := daemon) (respond J P t) (attr dir name) s Q ↔ Q (P.attr s.world dir name) s :=
  leaves_bind.trans (leaves_call.trans leaves_pure)

theorem leaves_attrOr {name other : Str} {Q : Str → State W → Prop} :
    Leaves (S := daemon) (respond J P t) (attrOr dir name other) s Q ↔
      Q (P.attrOr s.world dir name other) s := by
  refine leaves_bind.trans (leaves_attr.trans ?_)
  unfold Platform.attrOr
  split_ifs
  · exact leaves_attr
  · exact leaves_pure

theorem leaves_busTypeFromPath {Q : BusType → State W → Prop} :
    Leaves (S := daemon) (respond J P t) (busTypeFromPath dir) s Q ↔
    Q (P.busAt s.world dir) s := by
  refine leaves_bind.trans (leaves_bind.trans (leaves_call.trans (leaves_pure.trans ?_)))
  exact leaves_pure

theorem leaves_reads {α : Type} {p : Prog daemon α} (hp : Only Op.Reads p) :
    Leaves (respond J P t) p s fun _ s' => s' = s := fun _ _ => run_reads _ (respond_reads J P) hp s

theorem leaves_linkName {path : Str} {Q : Str → State W → Prop} :
    Leaves (S := daemon) (respond J P t) (linkName path) s Q ↔
      Q ((P.weaklyCanonical s.world path).elim [] lastSegment) s :=
  leaves_bind.trans (leaves_call.trans leaves_pure)

theorem leaves_driverOf {Q : Option Str → State W → Prop} :
    Leaves (S := daemon) (respond J P t) (driverOf dir) s Q ↔ Q (P.driverAt s.world dir) s := by
  refine leaves_bind.trans (leaves_call.trans ?_)
  change Leaves (S := daemon) (respond J P t)
    (if ¬ P.pathExists s.world (child dir (str "driver")) = true then _ else _) s Q ↔ _
  unfold Platform.driverAt
  by_cases hlink : P.pathExists s.world (child dir (str "driver")) = true
  · rw [if_neg (not_not.mpr hlink)]
    refine leaves_bind.trans (leaves_linkName.trans (leaves_pure.trans ?_))
    simp [hlink]
  · rw [if_pos hlink]
    refine leaves_pure.trans ?_
    simp [hlink]

theorem leaves_deviceAt {Q : Device → State W → Prop} :
    Leaves (S := daemon) (respond J P t) (deviceFromSysfs dir) s Q ↔
    Q (P.deviceAt s.world dir) s := by
  refine leaves_bind.trans (leaves_busTypeFromPath.trans ?_)
  refine leaves_bind.trans (leaves_attrOr.trans (leaves_bind.trans (leaves_attrOr.trans ?_)))
  refine leaves_bind.trans (leaves_attr.trans ?_)
  have hrest : ∀ authorized : Str, Leaves (S := daemon) (respond J P t)
      (driverOf dir >>= fun boundDriver =>
      pure {
        bus := P.busAt s.world dir
        vendorId := P.attrOr s.world dir (str "idVendor") (str "vendor")
        productId := P.attrOr s.world dir (str "idProduct") (str "device")
        serial := P.attr s.world dir (str "serial")
        boundDriver
        sysfsPath := dir
        status := if authorized = str "0" then .disabled else .active }) s Q ↔
      Q { P.deviceAt s.world dir with status := if authorized = str "0" then .disabled
        else .active } s :=
    fun _ => leaves_bind.trans (leaves_driverOf.trans leaves_pure)
  dsimp only
  by_cases husb : P.busAt s.world dir = .usb
  · rw [if_pos husb]
    refine leaves_bind.trans (leaves_attr.trans ((hrest _).trans ?_))
    simp [Platform.deviceAt, Platform.statusAt, husb]
  · rw [if_neg husb]
    refine leaves_bind.trans (leaves_pure.trans ((hrest _).trans ?_))
    have hblank : ([] : Str) ≠ str "0" := by decide
    simp [Platform.deviceAt, Platform.statusAt, husb, hblank]

theorem leaves_deviceFromSysfs :
    Leaves (respond J P t) (deviceFromSysfs dir) s fun device s' =>
      s' = s ∧ SameIdentity (P.identityAt s.world dir) device :=
  leaves_deviceAt.mpr ⟨rfl, rfl, rfl, rfl, rfl, rfl⟩

end Sysfs

theorem Platform.SameAt.identityAt {P : Platform W} {w w' : W} {dir : Str} (h : P.SameAt dir w w') :
    P.identityAt w' dir = P.identityAt w dir := by
  unfold Platform.identityAt Platform.busAt
  rw [h.subsystem, h.attrOr, h.attrOr, h.attr] <;> simp [Platform.identityAttributes]

end DevMgr.Daemon
