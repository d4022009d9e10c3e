import DevMgr.App.DeviceService
import DevMgr.Core.Sha256

/-!
# Devices as udev reports them

A device is identified by the FNV-1a hash of its subsystem, its sysfs path, its
vendor, its product and its serial. The vendor and the product come from the
properties udev stores or, where these say nothing, from attributes in sysfs. A
remove event comes when the attributes are gone.
-/

open DevMgr.Core hiding Device

namespace DevMgr.Linux
open Bytes App

structure UdevNode where
  subsystem : Option Str
  syspath : Option Str
  sysname : Option Str
  driver : Option Str
  properties : StringMap Str
  attributes : StringMap Str

structure UdevDevice extends UdevNode where
  parent : Option UdevNode

def fnv1a64 (s : Str) : UInt64 :=
  s.foldl (fun h c => (h ^^^ c.toUInt64) * 1099511628211) 14695981039346656037

def hex16 (h : UInt64) : Str :=
  (List.range 16).map fun i => Sha256.kHex.getD (h.toNat / 16 ^ (15 - i) % 16) 48

def identityKey (subsystem syspath vendor product serial : Str) : Str :=
  subsystem ++ 0x1f :: syspath ++ 0x1f :: vendor ++ 58 :: product ++ 0x1f :: serial

def stableId (subsystem syspath vendor product serial : Str) : Str :=
  str "dev-" ++ hex16 (fnv1a64 (identityKey subsystem syspath vendor product serial))

def busFor (subsystem : Str) : BusType :=
  if subsystem = str "pci" then .pci
  else if subsystem = str "usb" then .usb
  else if subsystem = str "platform" then .platform
  else if subsystem = str "virtio" then .virtio
  else .other

def strip0x (v : Str) : Str :=
  if str "0x" <+: v ∨ str "0X" <+: v then v.drop 2 else v

def firstNonEmptyLazy (getters : List (Option Str)) : Str :=
  ((getters.filterMap fun hit => hit).find? fun hit => hit ≠ []).getD []

namespace UdevNode
variable (d : UdevNode)

def prop (k : String) : Option Str := d.properties[str k]?

def attr (k : String) : Option Str := d.attributes[str k]?

def vendorFor : Str := firstNonEmptyLazy [d.prop "ID_VENDOR_ID", d.attr "idVendor", d.attr "vendor"]

def productFor : Str :=
  firstNonEmptyLazy [d.prop "ID_MODEL_ID", d.attr "idProduct", d.attr "device"]

def serialFor : Str := firstNonEmptyLazy [d.prop "ID_SERIAL_SHORT", d.prop "ID_SERIAL"]

def keyFor : Str :=
  identityKey (d.subsystem.getD []) (d.syspath.getD []) d.vendorFor d.productFor d.serialFor

def idFor : Str :=
  stableId (d.subsystem.getD []) (d.syspath.getD []) d.vendorFor d.productFor d.serialFor

end UdevNode

def mapDevice (d : UdevDevice) : Device where
  id := d.idFor
  bus := busFor (d.subsystem.getD [])
  sysfsPath := d.syspath.getD []
  name := firstNonEmptyLazy
    [d.prop "ID_MODEL_FROM_DATABASE", d.prop "ID_MODEL", d.attr "product", d.sysname]
  modalias := firstNonEmptyLazy [d.prop "MODALIAS", d.attr "modalias"]
  vendorId := strip0x d.vendorFor
  productId := strip0x d.productFor
  serial := d.serialFor
  boundDriver := d.driver
  status :=
    if busFor (d.subsystem.getD []) = .usb ∧ (d.attr "authorized").getD
      [] = str "0" then .disabled
    else .active
  parent := d.parent.map UdevNode.idFor
  properties := d.properties
  errorNote := none

def kSubsystems : List Str := [str "pci", str "usb", str "platform", str "virtio"]

def actionFromString (action : Option Str) : Option Daemon.HotplugEvent.Action :=
  match action with
  | none => none
  | some a =>
    if a = str "add" then some .added
    else if a = str "remove" then some .removed
    else if a ∈ [str "change", str "bind", str "unbind", str "move", str "online",
      str "offline"] then
      some .changed
    else none

def received (d : UdevDevice) (action : Option Str) : Option HotplugEvent :=
  match d.subsystem, actionFromString action with
  | some subsystem, some action => if subsystem ∈ kSubsystems then some ⟨action, mapDevice d⟩
      else none
  | _, _ => none

theorem eq_of_hexDigits {k n m : ℕ} (hn : n < 16 ^ k) (hm : m < 16 ^ k)
    (h : ∀ i < k, n / 16 ^ i % 16 = m / 16 ^ i % 16) : n = m := by
  induction k generalizing n m with
  | zero =>
    rw [pow_zero] at hn hm
    omega
  | succ k ih =>
    have hlow : n % 16 = m % 16 := by simpa using h 0 k.succ_pos
    have hhigh : n / 16 = m / 16 := by
      refine ih (by omega) (by omega) fun i hi => ?_
      rw [Nat.div_div_eq_div_mul, Nat.div_div_eq_div_mul, ← pow_succ']
      exact h (i + 1) (Nat.succ_lt_succ hi)
    omega

theorem hexDigit_injective :
    ∀ a < 16, ∀ b < 16, Sha256.kHex.getD a 48 = Sha256.kHex.getD b 48 → a = b := by
  decide

theorem hex16_injective : Function.Injective hex16 := by
  intro h h' heq
  have hdigits : ∀ i < 16, h.toNat / 16 ^ i % 16 = h'.toNat / 16 ^ i % 16 := by
    intro i hi
    refine hexDigit_injective _ (Nat.mod_lt _ (by norm_num)) _ (Nat.mod_lt _ (by norm_num)) ?_
    have hat := List.map_inj_left.mp heq (15 - i) (List.mem_range.mpr (by omega))
    rwa [show 15 - (15 - i) = i by omega] at hat
  exact UInt64.toNat_inj.mp (eq_of_hexDigits h.toNat_lt h'.toNat_lt hdigits)

theorem stableId_eq_iff {a b v p s a' b' v' p' s' : Str} :
    stableId a b v p s = stableId a' b' v' p' s' ↔
      fnv1a64 (identityKey a b v p s) = fnv1a64 (identityKey a' b' v' p' s') := by
  unfold stableId
  rw [List.append_cancel_left_eq]
  exact hex16_injective.eq_iff

def FromProperty (property : Option Str) (attributes : List (Option Str)) : Prop :=
  property.getD [] ≠ [] ∨ ∀ hit ∈ attributes, hit.getD [] = []

def Lasting (d : UdevNode) : Prop :=
  FromProperty (d.prop "ID_VENDOR_ID") [d.attr "idVendor", d.attr "vendor"] ∧
  FromProperty (d.prop "ID_MODEL_ID") [d.attr "idProduct", d.attr "device"]

/-- Udev still has the properties that identify the device, sysfs has nothing of it any more. -/
structure Removed (d r : UdevNode) : Prop where
  subsystem : r.subsystem = d.subsystem
  syspath : r.syspath = d.syspath
  properties : ∀ k ∈ ["ID_VENDOR_ID", "ID_MODEL_ID", "ID_SERIAL_SHORT", "ID_SERIAL"],
      r.prop k = d.prop k
  attributes : ∀ k, r.attr k = none

theorem firstNonEmptyLazy_cons (hit : Option Str) (getters : List (Option Str)) :
    firstNonEmptyLazy (hit :: getters) =
      if hit.getD [] = [] then firstNonEmptyLazy getters else hit.getD [] := by
  cases hit with
  | none => rfl
  | some hit =>
    by_cases hempty : hit = []
    · simp [firstNonEmptyLazy, hempty]
    · simp [firstNonEmptyLazy, hempty]

theorem firstNonEmptyLazy_eq_nil {getters : List (Option Str)} :
    firstNonEmptyLazy getters = [] ↔ ∀ hit ∈ getters, hit.getD [] = [] := by
  induction getters with
  | nil => simp [firstNonEmptyLazy]
  | cons hit getters ih =>
    rw [firstNonEmptyLazy_cons, List.forall_mem_cons]
    by_cases hempty : hit.getD [] = []
    · rw [if_pos hempty, ih]
      simp [hempty]
    · rw [if_neg hempty]
      simp [hempty]

theorem firstNonEmptyLazy_property (property : Option Str) :
    firstNonEmptyLazy [property, none, none] = property.getD [] := by
  rw [firstNonEmptyLazy_cons]
  split_ifs with hempty
  · rw [hempty]
    rfl
  · rfl

theorem fromProperty_iff {property : Option Str} {a a' : Option Str} :
    FromProperty property [a, a'] ↔
      (firstNonEmptyLazy [property, a, a']).length ≤
        (firstNonEmptyLazy [property, none, none]).length := by
  rw [firstNonEmptyLazy_property, firstNonEmptyLazy_cons, FromProperty]
  split_ifs with hempty
  · rw [hempty, List.length_nil, Nat.le_zero, List.length_eq_zero_iff, firstNonEmptyLazy_eq_nil]
    simp
  · simp [hempty]

theorem FromProperty.eq {property : Option Str} {a a' : Option Str}
    (h : FromProperty property [a, a']) :
    firstNonEmptyLazy [property, a, a'] = firstNonEmptyLazy [property, none, none] := by
  rw [firstNonEmptyLazy_property, firstNonEmptyLazy_cons]
  split_ifs with hempty
  · rw [hempty]
    exact firstNonEmptyLazy_eq_nil.mpr (h.resolve_left (not_not.mpr hempty))
  · rfl

theorem length_firstNonEmptyLazy_le {property : Option Str} {a a' : Option Str} :
    (firstNonEmptyLazy [property, none, none]).length ≤
      (firstNonEmptyLazy [property, a, a']).length := by
  rw [firstNonEmptyLazy_property, firstNonEmptyLazy_cons]
  split_ifs with hempty
  · simp [hempty]
  · exact le_refl _

section Removal
variable {d r : UdevDevice} (h : Removed d.toUdevNode r.toUdevNode)
include h

theorem Removed.vendorFor :
    r.vendorFor = firstNonEmptyLazy [d.prop "ID_VENDOR_ID", none, none] := by
  rw [UdevNode.vendorFor, h.attributes, h.attributes, h.properties "ID_VENDOR_ID" (by simp)]

theorem Removed.productFor :
    r.productFor = firstNonEmptyLazy [d.prop "ID_MODEL_ID", none, none] := by
  rw [UdevNode.productFor, h.attributes, h.attributes, h.properties "ID_MODEL_ID" (by simp)]

theorem Removed.serialFor : r.serialFor = d.serialFor := by
  rw [UdevNode.serialFor, h.properties "ID_SERIAL_SHORT" (by simp),
    h.properties "ID_SERIAL" (by simp)]
  rfl

theorem Removed.keyFor_eq_iff : r.keyFor = d.keyFor ↔ Lasting d.toUdevNode := by
  constructor
  · intro hkey
    have hlength := congrArg List.length hkey
    have hvendor : r.vendorFor.length ≤ d.vendorFor.length := by
      rw [h.vendorFor]
      exact length_firstNonEmptyLazy_le
    have hproduct : r.productFor.length ≤ d.productFor.length := by
      rw [h.productFor]
      exact length_firstNonEmptyLazy_le
    simp only [UdevNode.keyFor, identityKey, h.subsystem, h.syspath, h.serialFor,
      List.length_append,
      List.length_cons] at hlength
    refine ⟨fromProperty_iff.mpr ?_, fromProperty_iff.mpr ?_⟩
    · rw [← h.vendorFor]
      change d.vendorFor.length ≤ _
      omega
    · rw [← h.productFor]
      change d.productFor.length ≤ _
      omega
  · rintro ⟨hvendor, hproduct⟩
    rw [UdevNode.keyFor, h.subsystem, h.syspath, h.serialFor, h.vendorFor,
      h.productFor, ← hvendor.eq,
      ← hproduct.eq]
    rfl

theorem Removed.id_eq_iff :
    (mapDevice r).id = (mapDevice d).id ↔
      Lasting d.toUdevNode ∨ r.keyFor ≠ d.keyFor ∧ fnv1a64 r.keyFor = fnv1a64 d.keyFor := by
  refine stableId_eq_iff.trans ?_
  change fnv1a64 r.keyFor = fnv1a64 d.keyFor ↔ _
  rw [← h.keyFor_eq_iff]
  by_cases hkey : r.keyFor = d.keyFor
  · simp [hkey]
  · simp [hkey]

end Removal

theorem received_remove {d : UdevDevice}
    (h : ∃ subsystem ∈ kSubsystems, d.subsystem = some subsystem) :
    received d (some (str "remove")) = some ⟨.removed, mapDevice d⟩ := by
  obtain ⟨subsystem, hmem, hsubsystem⟩ := h
  have haction : actionFromString (some (str "remove")) = some .removed := by decide
  rw [received, hsubsystem, haction]
  exact if_pos hmem

/-- A remove event takes its device out of the model exactly when sysfs gave no part of the identity
the device came with, or the hash does not tell the difference. -/
theorem remove_erases_iff (model : Model) (d r : UdevDevice)
    (hremoved : Removed d.toUdevNode r.toUdevNode)
    (hmodeled : ∃ subsystem ∈ kSubsystems, d.subsystem = some subsystem)
    (hmodel : model[(mapDevice d).id]?.map Device.id = some (mapDevice d).id) :
    (∃ event, received r (some (str "remove")) = some event ∧
      event.device.id = (mapDevice d).id ∧
        applyDelta model event = ([.removed (mapDevice d).id], model.erase (mapDevice d).id)) ↔
      Lasting d.toUdevNode ∨ r.keyFor ≠ d.keyFor ∧ fnv1a64 r.keyFor = fnv1a64 d.keyFor := by
  obtain ⟨prev, hprev, hid⟩ := Option.map_eq_some_iff.mp hmodel
  rw [← hremoved.id_eq_iff, received_remove (hremoved.subsystem ▸ hmodeled)]
  constructor
  · rintro ⟨event, hevent, heq, -⟩
    rw [← Option.some.inj hevent] at heq
    exact heq
  · intro heq
    refine ⟨_, rfl, heq, ?_⟩
    simp only [applyDelta, if_pos, heq, hprev, hid]

section Devices

def usbKeyboard : UdevDevice where
  subsystem := some (str "usb")
  syspath := some (str "/sys/devices/usb1/1-4")
  sysname := some (str "1-4")
  driver := some (str "usb")
  properties :=
    .ofList [(str "ID_MODEL_ID", str "c31c"), (str "ID_SERIAL", str "Logitech_Keyboard"),
    (str "ID_VENDOR_ID", str "046d")]
  attributes := .ofList [(str "idProduct", str "c31c"), (str "idVendor", str "046d")]
  parent := none

def pciCard : UdevDevice where
  subsystem := some (str "pci")
  syspath := some (str "/sys/devices/pci0000:00/0000:00:1f.6")
  sysname := some (str "0000:00:1f.6")
  driver := some (str "e1000e")
  properties := .ofList [(str "ID_MODEL_FROM_DATABASE", str "Ethernet Connection")]
  attributes := .ofList [(str "device", str "0x1533"), (str "vendor", str "0x8086")]
  parent := none

def UdevDevice.gone (d : UdevDevice) : UdevDevice := { d with attributes := ∅ }

theorem UdevDevice.removed_gone (d : UdevDevice) : Removed d.toUdevNode d.gone.toUdevNode :=
  ⟨rfl, rfl, fun _ _ => rfl, fun _ => Std.ExtTreeMap.getElem?_empty⟩

theorem mapDevice_in_model (d : UdevDevice) :
    ((∅ : Model).insert (mapDevice d).id (mapDevice d))[(mapDevice d).id]?.map Device.id =
      some (mapDevice d).id := by
  rw [Std.ExtTreeMap.getElem?_insert_self, Option.map_some]

theorem remove_erases_keyboard :
    ∃ event, received usbKeyboard.gone (some (str "remove")) = some event ∧
    event.device.id = (mapDevice usbKeyboard).id ∧
    applyDelta ((∅ : Model).insert (mapDevice usbKeyboard).id (mapDevice usbKeyboard)) event =
      ([.removed (mapDevice usbKeyboard).id],
        ((∅ : Model).insert (mapDevice usbKeyboard).id (mapDevice usbKeyboard)).erase
          (mapDevice usbKeyboard).id) :=
  (remove_erases_iff _ usbKeyboard usbKeyboard.gone usbKeyboard.removed_gone
    ⟨str "usb", by decide, rfl⟩ (mapDevice_in_model usbKeyboard)).mpr
    (.inl ⟨.inl (by decide), .inl (by decide)⟩)

set_option maxRecDepth 20000 in
theorem remove_misses_card :
    ¬ ∀ (model : Model) (d r : UdevDevice), Removed d.toUdevNode r.toUdevNode →
    (∃ subsystem ∈ kSubsystems, d.subsystem = some subsystem) →
    model[(mapDevice d).id]?.map Device.id = some (mapDevice d).id →
    ∃ event, received r (some (str "remove")) = some event ∧
      event.device.id = (mapDevice d).id ∧
      applyDelta model event = ([.removed (mapDevice d).id], model.erase (mapDevice d).id) := by
  intro hall
  obtain ⟨event, hevent, hid, -⟩ := hall _ pciCard pciCard.gone pciCard.removed_gone
    ⟨str "pci", by decide, rfl⟩ (mapDevice_in_model pciCard)
  rw [received_remove ⟨str "pci", by decide, rfl⟩] at hevent
  rw [← Option.some.inj hevent] at hid
  revert hid
  decide

end Devices

end DevMgr.Linux
