import DevMgr.Daemon.Bench
import DevMgr.Daemon.SysfsIdentity
import DevMgr.Linux.UdevDevice

/-!
# The two builders of a device

The enumerator makes a device of what udev tells, the daemon makes one of the
attributes in sysfs, and a key made from the one has to recognise the other. They
identify the device alike exactly where udev's value of each field is what the
attributes show: nothing else makes up for a property that says something else,
for a composed serial, or for the prefix that only one of the two drops.
-/

open DevMgr.Core hiding Device

namespace DevMgr.Linux
open Bytes Program
open Daemon hiding HotplugEvent

variable {W : Type}

def ShowsValue (line value : Str) : Prop :=
  line = str "0x" ++ value ∨ line = value ∧ ¬ str "0x" <+: line

def NoDigits (line : Str) : Prop := line = [] ∨ line = str "0x"

structure IdShown (value first second : Str) : Prop where
  shown : ¬ NoDigits first → ShowsValue first value
  blank : NoDigits first → ShowsValue second value

theorem showsValue_iff {line value : Str} :
    ShowsValue line value ↔ (if str "0x" <+: line then line.drop 2 else line) = value := by
  unfold ShowsValue
  split_ifs with hlead
  · obtain ⟨rest, hrest⟩ := hlead
    have hdrop : line.drop 2 = rest := by rw [← hrest, List.drop_left' (by decide)]
    rw [hdrop, ← hrest, List.append_cancel_left_eq]
    simp
  · have hne : line ≠ str "0x" ++ value := fun h => hlead ⟨value, h.symm⟩
    simp [hne, hlead]

theorem noDigits_iff {line : Str} :
    NoDigits line ↔ (if str "0x" <+: line then line.drop 2 else line) = [] := by
  rw [← showsValue_iff]
  unfold NoDigits ShowsValue
  constructor
  · rintro (rfl | rfl)
    · exact .inr ⟨rfl, by decide⟩
    · exact .inl rfl
  · rintro (h | ⟨h, _⟩)
    · exact .inr h
    · exact .inl h

theorem idShown_iff {P : Platform W} {w : W} {dir name other value : Str} :
    IdShown value (P.firstLine w (child dir name)) (P.firstLine w (child dir other)) ↔
      value = P.attrOr w dir name other := by
  have hattr : ∀ name, ShowsValue (P.firstLine w (child dir name)) value ↔
      P.attr w dir name = value :=
    fun _ => showsValue_iff
  have hblank : NoDigits (P.firstLine w (child dir name)) ↔ P.attr w dir name = [] := noDigits_iff
  rw [Platform.attrOr]
  split_ifs with hempty
  · rw [eq_comm, ← hattr]
    exact ⟨fun h => h.blank (hblank.mpr hempty),
      fun h => ⟨fun hdigits => absurd (hblank.mpr hempty) hdigits, fun _ => h⟩⟩
  · rw [eq_comm, ← hattr]
    exact ⟨fun h => h.shown (hblank.not.mpr hempty),
      fun h => ⟨fun _ => h, fun hdigits => absurd (hblank.mp hdigits) hempty⟩⟩

/-- The id udev goes by, its property or else the first attribute that is not empty, is the one the
lines of the two attributes show. -/
structure IdAgrees (property first second : Option Str) (firstLine secondLine : Str) : Prop where
  ofProperty : property.getD [] ≠ [] → IdShown (strip0x (property.getD [])) firstLine secondLine
  ofFirst : property.getD [] = [] → first.getD [] ≠ [] →
    IdShown (strip0x (first.getD [])) firstLine secondLine
  ofSecond : property.getD [] = [] → first.getD [] = [] →
    IdShown (strip0x (second.getD [])) firstLine secondLine

structure SerialAgrees (short composed : Option Str) (line : Str) : Prop where
  ofShort : short.getD [] ≠ [] → ShowsValue line (short.getD [])
  ofComposed : short.getD [] = [] → ShowsValue line (composed.getD [])

theorem firstNonEmptyLazy_single (hit : Option Str) : firstNonEmptyLazy [hit] = hit.getD [] := by
  rw [firstNonEmptyLazy_cons]
  split_ifs with hempty
  · rw [hempty]
    rfl
  · rfl

theorem idAgrees_iff {property first second : Option Str} {firstLine secondLine : Str} :
    IdAgrees property first second firstLine secondLine ↔
      IdShown (strip0x (firstNonEmptyLazy [property, first, second])) firstLine secondLine := by
  rw [firstNonEmptyLazy_cons, firstNonEmptyLazy_cons, firstNonEmptyLazy_single]
  by_cases hproperty : property.getD [] = []
  · rw [if_pos hproperty]
    by_cases hfirst : first.getD [] = []
    · rw [if_pos hfirst]
      exact ⟨fun h => h.ofSecond hproperty hfirst,
        fun h => ⟨fun hp => absurd hproperty hp, fun _ hf => absurd hfirst hf, fun _ _ => h⟩⟩
    · rw [if_neg hfirst]
      exact ⟨fun h => h.ofFirst hproperty hfirst,
        fun h => ⟨fun hp => absurd hproperty hp, fun _ _ => h, fun _ hf => absurd hf hfirst⟩⟩
  · rw [if_neg hproperty]
    exact ⟨fun h => h.ofProperty hproperty,
      fun h => ⟨fun _ => h, fun hp => absurd hp hproperty, fun hp => absurd hp hproperty⟩⟩

theorem serialAgrees_iff {short composed : Option Str} {line : Str} :
    SerialAgrees short composed line ↔ ShowsValue line (firstNonEmptyLazy [short, composed]) := by
  rw [firstNonEmptyLazy_cons, firstNonEmptyLazy_single]
  by_cases hshort : short.getD [] = []
  · rw [if_pos hshort]
    exact ⟨fun h => h.ofComposed hshort, fun h => ⟨fun hs => absurd hshort hs, fun _ => h⟩⟩
  · rw [if_neg hshort]
    exact ⟨fun h => h.ofShort hshort, fun h => ⟨fun _ => h, fun hs => absurd hs hshort⟩⟩

/-- What sysfs has at the path is the device udev reports, on a bus that is modelled. -/
structure SameDevice (P : Platform W) (w : W) (path : Str) (x : UdevDevice) : Prop where
  syspath : x.syspath = some path
  subsystem : ∃ subsystem ∈ kSubsystems, x.subsystem = some subsystem ∧
    (P.weaklyCanonical w (child path (str "subsystem"))).elim [] lastSegment = subsystem

structure IdsAgree (P : Platform W) (w : W) (path : Str) (x : UdevNode) : Prop where
  vendor : IdAgrees (x.prop "ID_VENDOR_ID") (x.attr "idVendor") (x.attr "vendor")
    (P.firstLine w (child path (str "idVendor"))) (P.firstLine w (child path (str "vendor")))
  product : IdAgrees (x.prop "ID_MODEL_ID") (x.attr "idProduct") (x.attr "device")
    (P.firstLine w (child path (str "idProduct"))) (P.firstLine w (child path (str "device")))

def SerialsAgree (P : Platform W) (w : W) (path : Str) (x : UdevNode) : Prop :=
  SerialAgrees (x.prop "ID_SERIAL_SHORT") (x.prop "ID_SERIAL")
    (P.firstLine w (child path (str "serial")))

def SerialKept (x : UdevDevice) (present : List Core.Device) : Prop :=
  ((x.prop "ID_SERIAL_SHORT").getD [] ≠ [] ∨ (x.prop "ID_SERIAL").getD [] ≠ []) ∧
    ¬ Cloned (mapDevice x).toDevice present

section Builders
variable {J : Json.Codec} {P : Platform W} {t : Thread} {s : State W} {path : Str} {x : UdevDevice}

theorem busAt_eq {w : W} (h : SameDevice P w path x) : P.busAt w path = (mapDevice x).bus := by
  obtain ⟨subsystem, hmem, hsubsystem, hlink⟩ := h.subsystem
  unfold Platform.busAt mapDevice
  rw [hlink, hsubsystem, Option.getD_some]
  simp only [kSubsystems, List.mem_cons, List.not_mem_nil, or_false] at hmem
  rcases hmem with rfl | rfl | rfl | rfl <;> rfl

theorem idsAgree_iff {w : W} : IdsAgree P w path x.toUdevNode ↔
    (mapDevice x).vendorId = (P.identityAt w path).vendorId ∧
      (mapDevice x).productId = (P.identityAt w path).productId := by
  constructor
  · rintro ⟨hvendor, hproduct⟩
    exact ⟨idShown_iff.mp (idAgrees_iff.mp hvendor), idShown_iff.mp (idAgrees_iff.mp hproduct)⟩
  · rintro ⟨hvendor, hproduct⟩
    exact ⟨idAgrees_iff.mpr (idShown_iff.mpr hvendor),
      idAgrees_iff.mpr (idShown_iff.mpr hproduct)⟩

theorem serialsAgree_iff {w : W} : SerialsAgree P w path x.toUdevNode ↔
    (mapDevice x).serial = (P.identityAt w path).serial := by
  rw [SerialsAgree, serialAgrees_iff, showsValue_iff, eq_comm]
  rfl

theorem sameIdentity_iff {w : W} (h : SameDevice P w path x) :
    SameIdentity (mapDevice x).toDevice (P.identityAt w path) ↔
      IdsAgree P w path x.toUdevNode ∧ SerialsAgree P w path x.toUdevNode := by
  rw [idsAgree_iff, serialsAgree_iff]
  constructor
  · intro hsame
    exact ⟨⟨hsame.vendorId.symm, hsame.productId.symm⟩, hsame.serial.symm⟩
  · rintro ⟨⟨hvendor, hproduct⟩, hserial⟩
    have hpath : path = (mapDevice x).sysfsPath := by rw [mapDevice, h.syspath, Option.getD_some]
    exact ⟨busAt_eq h, hpath, hvendor.symm, hproduct.symm, hserial.symm⟩

theorem serialKept_iff {present : List Core.Device} : SerialKept x present ↔
    (mapDevice x).serial ≠ [] ∧ ¬ Cloned (mapDevice x).toDevice present := by
  have hserial : (mapDevice x).serial = [] ↔
      (x.prop "ID_SERIAL_SHORT").getD [] = [] ∧ (x.prop "ID_SERIAL").getD [] = [] := by
    change firstNonEmptyLazy _ = [] ↔ _
    rw [firstNonEmptyLazy_eq_nil]
    simp
  exact and_congr_left fun _ => not_and_or.symm.trans hserial.not.symm

theorem matches_identityAt_iff {w : W} (h : SameDevice P w path x) (present : List Core.Device) :
    matchesDevice (makePresentKey (mapDevice x).toDevice present) (P.identityAt w path) = true ↔
      IdsAgree P w path x.toUdevNode ∧
        (SerialKept x present → SerialsAgree P w path x.toUdevNode) := by
  have hpath : path = (mapDevice x).sysfsPath := by rw [mapDevice, h.syspath, Option.getD_some]
  have hbus : keyBusString (mapDevice x).bus = keyBusString (P.identityAt w path).bus :=
    congrArg keyBusString (busAt_eq h).symm
  have hplace : positionFor (mapDevice x).bus (mapDevice x).sysfsPath =
      positionFor (P.identityAt w path).bus (P.identityAt w path).sysfsPath :=
    congrArg lastSegment hpath.symm
  rw [matchesDevice_iff, idsAgree_iff, serialsAgree_iff, serialKept_iff]
  rcases makePresentKey_serial (mapDevice x).toDevice present with
    ⟨hcloned, hkey⟩ | ⟨hunique, hkey⟩
  · rw [hkey]
    constructor
    · rintro ⟨_, hvendor, hproduct, _⟩
      exact ⟨⟨hvendor, hproduct⟩, fun hkept => absurd hcloned hkept.2⟩
    · rintro ⟨⟨hvendor, hproduct⟩, _⟩
      exact ⟨hbus, hvendor, hproduct, fun hserial => absurd rfl hserial, fun _ => hplace⟩
  · rw [hkey]
    constructor
    · rintro ⟨_, hvendor, hproduct, hserial, _⟩
      exact ⟨⟨hvendor, hproduct⟩, fun hkept => hserial hkept.1⟩
    · rintro ⟨⟨hvendor, hproduct⟩, hserial⟩
      refine ⟨hbus, hvendor, hproduct, fun hnonempty => ?_, fun _ => hplace⟩
      exact hserial ⟨hnonempty, hunique.resolve_left hnonempty⟩

end Builders

/-- The same key fields need the ids and the serial to agree, being recognised needs the serial only
where the key has one. -/
theorem builders_agree_iff (J : Json.Codec) (P : Platform W) (t : Thread) (s : State W) {path : Str}
    {x : UdevDevice} (h : SameDevice P s.world path x) :
    ∃ device, (run (respond J P t) (deviceFromSysfs path) s).value = some device ∧
      ((SameIdentity (mapDevice x).toDevice device ∧ ∀ present,
          matchesDevice (makePresentKey (mapDevice x).toDevice present) device = true) ↔
        IdsAgree P s.world path x.toUdevNode ∧ SerialsAgree P s.world path x.toUdevNode) ∧
      ∀ present, matchesDevice (makePresentKey (mapDevice x).toDevice present) device = true ↔
        IdsAgree P s.world path x.toUdevNode ∧
          (SerialKept x present → SerialsAgree P s.world path x.toUdevNode) := by
  obtain ⟨device, hdevice⟩ := run_total (respond J P t) (total_deviceFromSysfs path) s
  obtain ⟨_, hidentity⟩ := leaves_deviceFromSysfs device hdevice
  have hmatches : ∀ present,
      matchesDevice (makePresentKey (mapDevice x).toDevice present) device = true ↔
        IdsAgree P s.world path x.toUdevNode ∧
          (SerialKept x present → SerialsAgree P s.world path x.toUdevNode) := by
    intro present
    rw [matchesDevice_congr hidentity, matches_identityAt_iff h]
  refine ⟨device, hdevice, ?_, hmatches⟩
  constructor
  · rintro ⟨hsame, _⟩
    exact (sameIdentity_iff h).mp (hsame.trans hidentity.symm)
  · rintro ⟨hids, hserials⟩
    refine ⟨((sameIdentity_iff h).mpr ⟨hids, hserials⟩).trans hidentity, fun present => ?_⟩
    exact (hmatches present).mpr ⟨hids, fun _ => hserials⟩

def usbBench : Platform Bench :=
  { Bench.platform with
    weaklyCanonical := fun _ path =>
      if lastSegment path = str "subsystem" then some (str "/sys/bus/usb") else some path }

def atPort (port : Str) (attributes : List (Str × Str)) : State Bench where
  world := ⟨[], attributes.map fun (name, line) => (child port name, line), []⟩
  entries := []
  holder := none

def usbStick : UdevDevice where
  subsystem := some (str "usb")
  syspath := some (str "/sys/devices/usb1/1-2")
  sysname := some (str "1-2")
  driver := some (str "usb")
  properties :=
    .ofList [(str "ID_MODEL_ID", str "1666"), (str "ID_SERIAL", str "Kingston_DT_60A44C"),
    (str "ID_SERIAL_SHORT", str "60A44C"), (str "ID_VENDOR_ID", str "0951")]
  attributes := .ofList [(str "idProduct", str "1666"), (str "idVendor", str "0951"),
    (str "serial", str "60A44C")]
  parent := none

def stickPlugged : State Bench := atPort (str "/sys/devices/usb1/1-2")
  [(str "idVendor", str "0951"), (str "idProduct", str "1666"), (str "serial", str "60A44C")]

theorem stick_recognised : ∃ device,
    (run (respond Json.reference usbBench .bus) (deviceFromSysfs (str "/sys/devices/usb1/1-2"))
      stickPlugged).value = some device ∧ SameIdentity (mapDevice usbStick).toDevice device := by
  have hsame : SameDevice usbBench stickPlugged.world (str "/sys/devices/usb1/1-2") usbStick :=
    ⟨rfl, str "usb", by decide, rfl, by decide⟩
  obtain ⟨device, hdevice, hagree, _⟩ :=
    builders_agree_iff Json.reference usbBench .bus stickPlugged hsame
  refine ⟨device, hdevice, (hagree.mpr ⟨?_, ?_⟩).1⟩
  · rw [idsAgree_iff]
    decide
  · rw [serialsAgree_iff]
    decide

def keyboardPlugged : State Bench := atPort (str "/sys/devices/usb1/1-4")
  [(str "idVendor", str "046d"), (str "idProduct", str "c31c")]

theorem keyboard_not_recognised :
    SameDevice usbBench keyboardPlugged.world (str "/sys/devices/usb1/1-4") usbKeyboard ∧
    ∃ device, (run (respond Json.reference usbBench .bus)
        (deviceFromSysfs (str "/sys/devices/usb1/1-4")) keyboardPlugged).value = some device ∧
      ¬ SameIdentity (mapDevice usbKeyboard).toDevice device ∧
      matchesDevice (makePresentKey (mapDevice usbKeyboard).toDevice []) device = false := by
  refine ⟨⟨rfl, str "usb", by decide, rfl, by decide⟩, ?_⟩
  obtain ⟨device, hdevice⟩ := run_total (respond Json.reference usbBench .bus)
    (total_deviceFromSysfs (str "/sys/devices/usb1/1-4")) keyboardPlugged
  obtain ⟨_, hidentity⟩ := leaves_deviceFromSysfs device hdevice
  refine ⟨device, hdevice, fun hsame => ?_, ?_⟩
  · exact absurd (hsame.trans hidentity.symm) (by decide)
  · rw [matchesDevice_congr hidentity]
    decide

end DevMgr.Linux
