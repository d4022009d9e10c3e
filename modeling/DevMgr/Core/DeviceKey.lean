import DevMgr.Core.Models
import Mathlib.Data.List.Nodup
import Mathlib.Data.List.TakeWhile

/-!
# Device keys

A key recognises its device by the serial tuple when it has a serial, and
otherwise by the position validated by vendor and product. What a key recognises
never contradicts it. Among the present devices a fresh key recognises its own
one and no other, since a serial that clones share is dropped from it.
-/

namespace DevMgr.Core
open Bytes

def lastSegment (path : Str) : Str := (path.reverse.takeWhile (· ≠ 47)).reverse

def keyBusString : BusType → Str
  | .usb => str "usb"
  | .pci => str "pci"
  | .platform => str "platform"
  | .virtio => str "virtio"
  | .other => str "other"

def positionFor (_bus : BusType) (sysfsPath : Str) : Str := lastSegment sysfsPath

def makeDeviceKey (device : Device) : DeviceKey where
  bus := keyBusString device.bus
  vendorId := device.vendorId
  productId := device.productId
  serial := device.serial
  position := positionFor device.bus device.sysfsPath

def makePresentKey (device : Device) (present : List Device) : DeviceKey :=
  let key := makeDeviceKey device
  if key.serial = [] then key
  else
    let cloned := present.any fun d =>
      d.sysfsPath ≠ device.sysfsPath ∧ keyBusString d.bus = key.bus ∧
        d.vendorId = key.vendorId ∧
        d.productId = key.productId ∧ d.serial = key.serial
    if cloned then { key with serial := [] } else key

def matchesDevice (key : DeviceKey) (device : Device) : Bool :=
  if keyBusString device.bus ≠ key.bus then false
  else if key.serial ≠ [] then
    device.vendorId = key.vendorId ∧ device.productId = key.productId ∧
    device.serial = key.serial
  else
    positionFor device.bus device.sysfsPath = key.position ∧ device.vendorId = key.vendorId ∧
      device.productId = key.productId

structure SameIdentity (d d' : Device) : Prop where
  bus : d'.bus = d.bus
  sysfsPath : d'.sysfsPath = d.sysfsPath
  vendorId : d'.vendorId = d.vendorId
  productId : d'.productId = d.productId
  serial : d'.serial = d.serial

instance (d d' : Device) : Decidable (SameIdentity d d') :=
  decidable_of_iff (d'.bus = d.bus ∧ d'.sysfsPath = d.sysfsPath ∧ d'.vendorId = d.vendorId ∧
      d'.productId = d.productId ∧ d'.serial = d.serial)
    ⟨fun h => ⟨h.1, h.2.1, h.2.2.1, h.2.2.2.1, h.2.2.2.2⟩,
      fun h => ⟨h.bus, h.sysfsPath, h.vendorId, h.productId, h.serial⟩⟩

theorem SameIdentity.symm {d d' : Device} (h : SameIdentity d d') : SameIdentity d' d :=
  ⟨h.bus.symm, h.sysfsPath.symm, h.vendorId.symm, h.productId.symm, h.serial.symm⟩

theorem SameIdentity.trans {d d' d'' : Device} (h : SameIdentity d d') (h' : SameIdentity d' d'') :
    SameIdentity d d'' :=
  ⟨h'.bus.trans h.bus, h'.sysfsPath.trans h.sysfsPath, h'.vendorId.trans h.vendorId,
    h'.productId.trans h.productId, h'.serial.trans h.serial⟩

theorem matchesDevice_congr {key : DeviceKey} {d d' : Device} (h : SameIdentity d d') :
    matchesDevice key d' = matchesDevice key d := by
  unfold matchesDevice
  rw [h.bus, h.sysfsPath, h.vendorId, h.productId, h.serial]

/-- Some device would be recognised by both keys. -/
def Overlaps (key key' : DeviceKey) : Prop :=
  ∃ device, matchesDevice key device = true ∧ matchesDevice key' device = true

theorem matchesDevice_tuple {key : DeviceKey} {device : Device}
    (h : matchesDevice key device = true) :
    key.bus = keyBusString device.bus ∧ key.vendorId = device.vendorId ∧
      key.productId = device.productId ∧ (key.serial ≠ [] → key.serial = device.serial) ∧
      (key.serial = [] → key.position = positionFor device.bus device.sysfsPath) := by
  unfold matchesDevice at h
  split_ifs at h with hbus hserial
  · simp only [decide_eq_true_eq] at h
    exact ⟨(not_not.mp hbus).symm, h.1.symm, h.2.1.symm, fun _ => h.2.2.symm,
      fun h' => absurd h' hserial⟩
  · simp only [decide_eq_true_eq] at h
    exact ⟨(not_not.mp hbus).symm, h.2.1.symm, h.2.2.symm, fun h' => absurd h' hserial,
      fun _ => h.1.symm⟩

theorem Overlaps.agrees {key key' : DeviceKey} (h : Overlaps key key') :
    key.bus = key'.bus ∧ key.vendorId = key'.vendorId ∧ key.productId = key'.productId ∧
      (key.serial ≠ [] → key'.serial ≠ [] → key.serial = key'.serial) ∧
      (key.serial = [] → key'.serial = [] → key.position = key'.position) := by
  obtain ⟨device, hkey, hkey'⟩ := h
  obtain ⟨hbus, hvendor, hproduct, hserial, hposition⟩ := matchesDevice_tuple hkey
  obtain ⟨hbus', hvendor', hproduct', hserial', hposition'⟩ := matchesDevice_tuple hkey'
  exact ⟨hbus.trans hbus'.symm, hvendor.trans hvendor'.symm, hproduct.trans hproduct'.symm,
    fun h h' => (hserial h).trans (hserial' h').symm,
    fun h h' => (hposition h).trans (hposition' h').symm⟩

def Contradicts (key : DeviceKey) (device : Device) : Prop :=
  keyBusString device.bus ≠ key.bus ∨
  device.vendorId ≠ [] ∧ device.vendorId ≠ key.vendorId ∨
  device.productId ≠ [] ∧ device.productId ≠ key.productId ∨
  key.serial ≠ [] ∧ device.serial ≠ [] ∧ device.serial ≠ key.serial

instance (key : DeviceKey) (device : Device) : Decidable (Contradicts key device) :=
  inferInstanceAs (Decidable (_ ∨ _))

theorem not_contradicts_of_matches {key : DeviceKey} {device : Device}
    (h : matchesDevice key device = true) : ¬ Contradicts key device := by
  unfold matchesDevice at h
  split_ifs at h with hbus hserial
  · simp only [decide_eq_true_eq] at h
    obtain ⟨hvendor, hproduct, hserial'⟩ := h
    simp [Contradicts, not_not.mp hbus, hvendor, hproduct, hserial']
  · simp only [decide_eq_true_eq] at h
    obtain ⟨_, hvendor, hproduct⟩ := h
    simp [Contradicts, not_not.mp hbus, hvendor, hproduct, not_not.mp hserial]

theorem keyBusString_injective : Function.Injective keyBusString := by
  intro bus bus' h
  cases bus <;> cases bus' <;> first | rfl | exact absurd h (by decide)

theorem matchesDevice_iff {key : DeviceKey} {device : Device} : matchesDevice key device = true ↔
    key.bus = keyBusString device.bus ∧ key.vendorId = device.vendorId ∧
      key.productId = device.productId ∧ (key.serial ≠ [] → key.serial = device.serial) ∧
      (key.serial = [] → key.position = positionFor device.bus device.sysfsPath) := by
  refine ⟨matchesDevice_tuple, fun ⟨hbus, hvendor, hproduct, hserial, hposition⟩ => ?_⟩
  unfold matchesDevice
  rw [if_neg (not_not.mpr hbus.symm)]
  split_ifs with h
  · simp [hvendor, hproduct, hserial h]
  · simp [hvendor, hproduct, hposition (not_not.mp h)]

/-- The keys differ in what both go by, or one of them can be no device's. -/
def Apart (key key' : DeviceKey) : Prop :=
  key.bus ≠ key'.bus ∨ key.vendorId ≠ key'.vendorId ∨ key.productId ≠ key'.productId ∨
  (key.serial ≠ [] ∧ key'.serial ≠ [] ∧ key.serial ≠ key'.serial) ∨
  (key.serial = [] ∧ key'.serial = [] ∧ key.position ≠ key'.position) ∨
  (∀ bus, keyBusString bus ≠ key.bus) ∨
  (key.serial = [] ∧ (47 : UInt8) ∈ key.position) ∨
  (key'.serial = [] ∧ (47 : UInt8) ∈ key'.position)

theorem not_mem_lastSegment (path : Str) : (47 : UInt8) ∉ lastSegment path := fun hmem => by
  simpa using List.mem_takeWhile_imp (List.mem_reverse.mp hmem)

theorem lastSegment_of_not_mem {position : Str} (h : (47 : UInt8) ∉ position) :
    lastSegment position = position := by
  have hall : position.reverse.takeWhile (· ≠ 47) = position.reverse :=
    List.takeWhile_eq_self_iff.mpr fun c hc => by
      simpa using fun heq : c = 47 => h (heq ▸ List.mem_reverse.mp hc)
  rw [lastSegment, hall, List.reverse_reverse]

theorem apart_iff {key key' : DeviceKey} : Apart key key' ↔ ¬ Overlaps key key' := by
  constructor
  · intro hapart hoverlaps
    obtain ⟨hbus, hvendor, hproduct, hserial, hposition⟩ := hoverlaps.agrees
    obtain ⟨device, hkey, hkey'⟩ := hoverlaps
    obtain ⟨hbus₁, _, _, _, hposition₁⟩ := matchesDevice_tuple hkey
    obtain ⟨_, _, _, _, hposition₂⟩ := matchesDevice_tuple hkey'
    rcases hapart with h | h | h | ⟨h, h', hne⟩ | ⟨h, h', hne⟩ | h |
      ⟨h, hslash⟩ | ⟨h, hslash⟩
    · exact h hbus
    · exact h hvendor
    · exact h hproduct
    · exact hne (hserial h h')
    · exact hne (hposition h h')
    · exact h device.bus hbus₁.symm
    · exact not_mem_lastSegment _ (hposition₁ h ▸ hslash)
    · exact not_mem_lastSegment _ (hposition₂ h ▸ hslash)
  · intro hnone
    by_contra hapart
    unfold Apart at hapart
    push Not at hapart
    obtain ⟨hbus, hvendor, hproduct, hserial, hposition, ⟨bus, hname⟩, hplain, hplain'⟩ :=
      hapart
    -- the device has the serial of the one that has one, and the place of the one that has none
    let device : Device :=
      { bus, vendorId := key.vendorId, productId := key.productId
        sysfsPath := if key.serial = [] then key.position else key'.position
        serial := if key.serial = [] then key'.serial else key.serial
        status := .active, boundDriver := none }
    refine hnone ⟨device,
      matchesDevice_iff.mpr ⟨hname.symm, rfl, rfl, fun h => ?_, fun h => ?_⟩,
      matchesDevice_iff.mpr ⟨hbus ▸ hname.symm, hvendor.symm, hproduct.symm,
        fun h => ?_, fun h => ?_⟩⟩
    · exact (if_neg h).symm
    · change key.position = lastSegment (if key.serial = [] then key.position else key'.position)
      rw [if_pos h, lastSegment_of_not_mem (hplain h)]
    · change key'.serial = if key.serial = [] then key'.serial else key.serial
      split_ifs with hempty
      · rfl
      · exact (hserial hempty h).symm
    · change key'.position = lastSegment (if key.serial = [] then key.position else key'.position)
      split_ifs with hempty
      · rw [lastSegment_of_not_mem (hplain hempty), hposition hempty h]
      · rw [lastSegment_of_not_mem (hplain' h)]

def Cloned (device : Device) (present : List Device) : Prop :=
  ∃ d ∈ present, d.sysfsPath ≠ device.sysfsPath ∧ d.bus = device.bus ∧
    d.vendorId = device.vendorId ∧
    d.productId = device.productId ∧ d.serial = device.serial

theorem makePresentKey_serial (device : Device) (present : List Device) :
    Cloned device present ∧ makePresentKey device present = { makeDeviceKey device with
      serial := [] } ∨
    (device.serial = [] ∨ ¬ Cloned device present) ∧
      makePresentKey device present = makeDeviceKey device := by
  have hcloned : (present.any fun d => d.sysfsPath ≠ device.sysfsPath ∧
      keyBusString d.bus = (makeDeviceKey device).bus ∧
      d.vendorId = (makeDeviceKey device).vendorId ∧
      d.productId = (makeDeviceKey device).productId ∧
      d.serial = (makeDeviceKey device).serial) = true ↔
      Cloned device present := by
    rw [List.any_eq_true]
    simp only [decide_eq_true_eq, Cloned, makeDeviceKey, keyBusString_injective.eq_iff]
  unfold makePresentKey
  dsimp only
  split_ifs with hserial hany
  · exact .inr ⟨.inl hserial, rfl⟩
  · exact .inl ⟨hcloned.mp hany, rfl⟩
  · exact .inr ⟨.inr (hcloned.not.mp hany), rfl⟩

/-- Where no two devices share a path, or a bus and a position, a fresh key recognises exactly the
device it was made for. -/
theorem fresh_key_identifies {present : List Device}
    (hpaths : (present.map fun d => d.sysfsPath).Nodup)
    (hpositions : (present.map fun d => (d.bus, lastSegment d.sysfsPath)).Nodup) {d d' : Device}
    (hd : d ∈ present) (hd' : d' ∈ present) :
    matchesDevice (makePresentKey d present) d' = true ↔ d' = d := by
  have hposition : d'.bus = d.bus → lastSegment d'.sysfsPath = lastSegment d.sysfsPath →
      d' = d :=
    fun hbus hsegment => List.inj_on_of_nodup_map hpositions hd' hd (Prod.ext hbus hsegment)
  constructor
  · intro hmatch
    obtain ⟨hbus, hvendor, hproduct, hserial, hplace⟩ := matchesDevice_iff.mp hmatch
    rcases makePresentKey_serial d present with ⟨_, hkey⟩ | ⟨hunique, hkey⟩
    · rw [hkey] at hbus hplace
      exact hposition (keyBusString_injective hbus.symm) (hplace rfl).symm
    · rw [hkey] at hbus hvendor hproduct hserial hplace
      by_cases hempty : d.serial = []
      · exact hposition (keyBusString_injective hbus.symm) (hplace hempty).symm
      · by_contra hne
        have hpath : d'.sysfsPath ≠ d.sysfsPath := fun heq =>
          hne (List.inj_on_of_nodup_map hpaths hd' hd heq)
        exact hunique.resolve_left hempty ⟨d', hd', hpath, keyBusString_injective hbus.symm,
          hvendor.symm, hproduct.symm, (hserial hempty).symm⟩
  · rintro rfl
    rw [matchesDevice_iff]
    rcases makePresentKey_serial d' present with ⟨_, hkey⟩ | ⟨_, hkey⟩
    · rw [hkey]
      exact ⟨rfl, rfl, rfl, fun h => absurd rfl h, fun _ => rfl⟩
    · rw [hkey]
      exact ⟨rfl, rfl, rfl, fun _ => rfl, fun _ => rfl⟩

def stick (port : Str) : Device where
  bus := .usb
  sysfsPath := str "/sys/devices/pci0000:00/usb1/" ++ port
  vendorId := str "0951"
  productId := str "1666"
  serial := str "60A44C"
  status := .active
  boundDriver := some (str "usb")

theorem fresh_key_of_clone :
    matchesDevice (makePresentKey (stick (str "1-1")) [stick (str "1-1"), stick (str "1-2")])
      (stick (str "1-1")) = true ∧
    ¬ matchesDevice (makePresentKey (stick (str "1-1")) [stick (str "1-1"), stick (str "1-2")])
      (stick (str "1-2")) = true := by
  have hkey : ∀ d' ∈ [stick (str "1-1"), stick (str "1-2")],
      matchesDevice (makePresentKey (stick (str "1-1")) [stick (str "1-1"), stick (str "1-2")]) d' =
        true ↔ d' = stick (str "1-1") := fun d' hd' =>
    fresh_key_identifies (by decide) (by decide) (by decide) hd'
  exact ⟨(hkey _ (by decide)).mpr rfl, (hkey _ (by decide)).not.mpr (by decide)⟩

end DevMgr.Core
