import DevMgr.Daemon.Platform
import DevMgr.Library.Json.RoundTrip

/-!
# A bench machine

The smallest machine the daemon runs on: devices that can be enumerated and
switched, the attributes sysfs shows, and the paths that count as keyboards while
they are switched on. Every write succeeds; nothing is kept of the snapshots.
-/

open DevMgr.Core

namespace DevMgr.Daemon
open Bytes

structure Bench where
  devices : List Device
  attributes : List (Str × Str)
  keyboards : List Str

namespace Bench

def facts (w : Bench) : CriticalityFacts where
  rootBackingPaths := []
  bootBackingPaths := []
  keyboardPaths := w.keyboards.filter fun path =>
    w.devices.any fun d => d.sysfsPath = path ∧ d.status ≠ .disabled
  pointerPaths := []

def switch (w : Bench) (path : Str) (enabled : Bool) : Bench where
  devices := w.devices.map fun d =>
    if d.sysfsPath = path then { d with status := if enabled then .active else .disabled } else d
  attributes := w.attributes
  keyboards := w.keyboards

def unknown {α : Type} : Result α := makeError .notFound []

def platform : Platform Bench where
  facts := facts
  probeError _ := none
  enumerate w := .ok w.devices
  setEnabled w path enabled _ := (.ok none, w.switch path enabled)
  bindDriver w path _ := (.ok (), w.switch path true)
  unbindDriver w path := (.ok (), w.switch path false)
  loadModule w _ := (.ok (), w)
  unloadModule w _ := (.ok (), w)
  listLoadedModules _ := .ok []
  devicesUsingModule _ _ := .ok []
  checkAuthorized _ _ _ := .ok true
  weaklyCanonical _ path := some path
  isDirectory w path := path = str "/sys" ∨ w.devices.any fun d => d.sysfsPath = path
  pathExists _ _ := false
  firstLine w path := (w.attributes.lookup path).getD []
  nowUtc _ := 0
  writeState w _ := (.ok (), w)
  putSnapshot w _ _ _ _ := (some (.ok []), w)
  readSnapshot w _ := (unknown, w)
  listSnapshots w := (.ok [], w)
  removeSnapshot w _ := (unknown, w)
  modprobeNames _ := []
  readModprobe _ _ := []
  writeModprobe w _ _ := (.ok (), w)
  removeModprobe w _ := (none, w)

def idle (w : Bench) (entries : List DisabledDeviceEntry) : State Bench := ⟨w, entries, none⟩

def keyboard (port : String) : Device where
  bus := .usb
  sysfsPath := str "/sys/devices/usb1/" ++ str port
  vendorId := str "046d"
  productId := str "c31c"
  serial := []
  status := .active
  boundDriver := none

def keyboardEntry (port : String) : DisabledDeviceEntry where
  key := ⟨str "usb", str "046d", str "c31c", [], str port⟩
  mechanism := str "authorized"
  lastDriver := []
  lastSysfsPath := str "/sys/devices/usb1/" ++ str port
  disabledAtUtc := 0
  guardSuspended := false

def twoKeyboards : Bench where
  devices := [keyboard "1-3", keyboard "1-4"]
  attributes := []
  keyboards := [str "/sys/devices/usb1/1-3", str "/sys/devices/usb1/1-4"]

def usbPlatform : Platform Bench :=
  { platform with
    weaklyCanonical := fun _ path =>
      if lastSegment path = str "subsystem" then some (str "/sys/bus/usb") else some path }

def keyboardAttached : Bench where
  devices := [keyboard "1-4"]
  attributes := [
    (child (keyboard "1-4").sysfsPath (str "idVendor"), str "046d"),
    (child (keyboard "1-4").sysfsPath (str "idProduct"), str "c31c")]
  keyboards := []

def mouseEntry (port : String) : DisabledDeviceEntry :=
  { keyboardEntry port with key := ⟨str "usb", str "046d", str "c077", str "A1", str port⟩ }

def mouse (port : String) : Device :=
  { keyboard port with productId := str "c077", serial := str "A1" }

end Bench

end DevMgr.Daemon
