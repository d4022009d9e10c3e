import DevMgr.Linux.SysfsDeviceController

/-!
# A bench port

One device at a port, as the kernel shows and switches it: its bus, what its
`authorized` attribute reads where it has one, the driver that is bound and the
override that is set. Probing binds the driver of the override, or the generic one.
-/

open DevMgr.Core

namespace DevMgr.Linux
open Bytes Daemon

structure Port where
  bus : BusType
  authorized : Option Str
  driver : Option Str
  override : Str

namespace Port

def path : Str := str "/sys/devices/p0"

def busPath (w : Port) : Str := str "/sys/bus/" ++ keyBusString w.bus

def driverPath (w : Port) (driver : Str) : Str := child (child w.busPath (str "drivers")) driver

def device (w : Port) : Device where
  bus := w.bus
  sysfsPath := path
  vendorId := str "8086"
  productId := str "15f3"
  serial := []
  status := if w.bus = .usb ∧ w.authorized = some (str "0") then .disabled else .active
  boundDriver := w.driver

def sysfs : Sysfs Port where
  readSymlink w link := if link = child path (str "driver") then w.driver.map w.driverPath else none
  openError _ _ := none
  write w attr value :=
    if attr = authorizedOf path then (true, { w with authorized := some value })
    else if attr = overrideOf path then (true, { w with override := value })
    else if attr = probeOf w.busPath then
      (true, { w with driver := some (if w.override = [] then str "generic" else w.override) })
    else if w.driver.any fun driver => attr = unbindOf w.busPath driver then
      (true, { w with driver := none })
    else (false, w)

def unknown {α : Type} : Result α := makeError .notFound []

def platform : Platform Port where
  facts _ := ⟨[], [], [], []⟩
  probeError _ := none
  enumerate w := .ok [w.device]
  setEnabled w _ _ _ := (unknown, w)
  bindDriver w _ _ := (unknown, w)
  unbindDriver w _ := (unknown, w)
  loadModule w _ := (unknown, w)
  unloadModule w _ := (unknown, w)
  listLoadedModules _ := .ok []
  devicesUsingModule _ _ := .ok []
  checkAuthorized _ _ _ := .ok true
  weaklyCanonical w link :=
    if link = child path (str "subsystem") then some w.busPath
    else if link = child path (str "driver") then some ((w.driver.map w.driverPath).getD link)
    else some link
  isDirectory w dir := dir = str "/sys" ∨ dir = path ∨ dir = w.busPath
  pathExists w file :=
    file = authorizedOf path ∧ w.authorized.isSome ∨ file = overrideOf path ∨
      file = child path (str "driver") ∧ w.driver.isSome
  firstLine w file := if file = authorizedOf path then w.authorized.getD [] else []
  nowUtc _ := 0
  writeState w _ := (.ok (), w)
  putSnapshot w _ _ _ _ := (some (.ok []), w)
  readSnapshot w _ := (unknown, w)
  listSnapshots w := (.ok [], w)
  removeSnapshot w _ := (unknown, w)
  modprobeNames _ := []
  readModprobe _ _ := []
  writeModprobe w _ _ := (.ok (), w)
  removeModprobe w _ := (none, w)

theorem write_unbind {w w' : Port} {bus driver value : Str}
    (h : sysfs.write w (unbindOf bus driver) value = (true, w')) : w' = { w with
      driver := none } := by
  have hne : ∀ file, ¬ 47 :: str "unbind" <:+ file → unbindOf bus driver ≠ file :=
    fun file hfile heq => hfile (heq ▸ List.suffix_append ..)
  have hprobe : unbindOf bus driver ≠ probeOf w.busPath := hne _ fun hunbind =>
    absurd (List.suffix_of_suffix_length_le hunbind (List.suffix_append ..) (by decide)) (by decide)
  change (if unbindOf bus driver = authorizedOf path then _ else _) = _ at h
  rw [if_neg (hne _ (by decide)), if_neg (hne _ (by decide)), if_neg hprobe] at h
  split_ifs at h
  · exact (Prod.mk.inj h).2.symm
  · exact absurd (Prod.mk.inj h).1 (by decide)

abbrev switched : Platform (Attributed Port) := controlled sysfs platform (str "/sys")

theorem behind_switched : Behind sysfs platform (str "/sys") switched id :=
  behind_controlled _ _ _ (fun _ _ => rfl) fun _ _ _ _ _ => rfl

def idle (w : Port) (entries : List DisabledDeviceEntry) : State (Attributed Port) :=
  ⟨⟨w, []⟩, entries, none⟩

def card : Port := ⟨.pci, none, some (str "igc"), []⟩

end Port

end DevMgr.Linux
