import DevMgr.App.Refresh

/-!
# The desired state in the model

A refresh lays the disabled entries of the daemon over what it has enumerated. A
hotplug event reaches the model as the enumerator would report the device, with
nothing laid over it.
-/

open DevMgr.Core

namespace DevMgr.App
open Bytes Daemon

structure ErrorEvent where
  source : Str
  message : Str

structure Refreshed where
  model : Model
  errors : List ErrorEvent
  events : List DeviceEvent
  observed : Option (Option Error)

def refresh (model : Model) (enumerated : Result (List Device))
    (channel : Option (Result (List DisabledDeviceEntry))) : Refreshed :=
  match enumerated with
  | .error e => ⟨model, [⟨str "enumerate", e.message⟩], [], none⟩
  | .ok devices =>
    match channel with
    | none =>
      let (events, model') := applyEnumeration model devices
      ⟨model', [], events, none⟩
    | some (.ok disabled) =>
      let (events, model') := applyEnumeration model (applyDisabledOverlay devices disabled)
      ⟨model', [], events, some none⟩
    | some (.error e) =>
      let (events, model') := applyEnumeration model devices
      ⟨model',
        [⟨str "disabled-overlay",
        str "Could not refresh devices; showing the previous result."⟩],
        events, some (some e)⟩

variable {model : Model} {devices : List Device} {entries : List DisabledDeviceEntry}

def suspendedNote : Str := str "disabled — enforcement suspended (guard refused re-apply)"

/-- A device as it was reported, beside the one of its id that the overlay was laid over: no entry
is found for that one and they are the same, or they differ in status and note at most, and the
reported one is disabled and has the note that goes with the entry. -/
def LooksOverlaid (entries : List DisabledDeviceEntry) (kept device : Device) : Prop :=
  match entries.find? fun entry => FoundFor entry kept.toDevice with
  | none => device = kept
  | some entry =>
    { device with status := kept.status, errorNote := kept.errorNote } = kept ∧
    device.status = .disabled ∧
    device.errorNote = if entry.guardSuspended then some suspendedNote else kept.errorNote

instance (entries : List DisabledDeviceEntry) (kept device : Device) :
    Decidable (LooksOverlaid entries kept device) := by
  unfold LooksOverlaid
  split <;> infer_instance

theorem overlayDevice_id (entries : List DisabledDeviceEntry) (device : Device) :
    (overlayDevice entries device).id = device.id := by
  unfold overlayDevice
  split <;> rfl

theorem overlayDevice_eq_iff {kept device : Device} :
    overlayDevice entries kept = device ↔ LooksOverlaid entries kept device := by
  unfold overlayDevice LooksOverlaid
  cases entries.find? fun entry => FoundFor entry kept.toDevice with
  | none => exact eq_comm
  | some entry =>
    constructor
    · intro h
      subst h
      exact ⟨rfl, rfl, rfl⟩
    · rintro ⟨hrest, hstatus, hnote⟩
      rw [← hrest] at hnote ⊢
      change { device with
        status := .disabled
        errorNote := if entry.guardSuspended then some suspendedNote else kept.errorNote } = device
      rw [← hnote, ← hstatus]

theorem refresh_getElem? (id : Str) :
    (refresh model (.ok devices) (some (.ok entries))).model[id]? =
      (devices.find? fun d => d.id = id).map (overlayDevice entries) := by
  refine (applyEnumeration_getElem? model (applyDisabledOverlay devices entries) id).trans ?_
  rw [applyDisabledOverlay, List.find?_map]
  congr 2
  funext d
  rw [Function.comp_apply, overlayDevice_id]

theorem applyDelta_eq_self_iff {event : HotplugEvent} (haction : event.action ≠ .removed) :
    (applyDelta model event).2 = model ↔ model[event.device.id]? = some event.device := by
  have hstate : event.state = some event.device := if_neg haction
  constructor
  · intro h
    have hlookup := applyDelta_getElem? model event event.device.id
    rwa [h, if_pos rfl, hstate] at hlookup
  · intro h
    refine Std.ExtTreeMap.ext_getElem? fun id => ?_
    rw [applyDelta_getElem?, hstate]
    split_ifs with hid
    · rw [← hid, h]
    · rfl

theorem applyDelta_refresh_kept {event : HotplugEvent} (haction : event.action ≠ .removed)
    {kept : Device} (hkept : (devices.find? fun d => d.id = event.device.id) = some kept) :
    (applyDelta (refresh model (.ok devices) (some (.ok entries))).model event).2 =
        (refresh model (.ok devices) (some (.ok entries))).model ↔
      LooksOverlaid entries kept event.device := by
  rw [applyDelta_eq_self_iff haction, refresh_getElem?, hkept, Option.map_some, Option.some_inj]
  exact overlayDevice_eq_iff

/-- A hotplug event with a device as it was enumerated leaves the refreshed model as it is exactly
when the device looks as the overlay made it look. -/
theorem refreshed_model_kept_iff (model : Model) (devices : List Device)
    (entries : List DisabledDeviceEntry) (event : HotplugEvent) (hmem : event.device ∈ devices)
    (haction : event.action ≠ .removed) :
    (applyDelta (refresh model (.ok devices) (some (.ok entries))).model event).2 =
        (refresh model (.ok devices) (some (.ok entries))).model ↔
      ∃ kept, (devices.find? fun d => d.id = event.device.id) = some kept ∧
        LooksOverlaid entries kept event.device := by
  have hfound : (devices.find? fun d => d.id = event.device.id).isSome := by
    rw [List.find?_isSome]
    exact ⟨event.device, hmem, decide_eq_true rfl⟩
  obtain ⟨kept, hkept⟩ := Option.isSome_iff_exists.mp hfound
  rw [applyDelta_refresh_kept haction hkept, hkept]
  simp

section Keyboard
open Session (keyboard)

def switchedOff : Device := { keyboard with status := .disabled }

theorem refreshed_disabled_kept :
    (applyDelta (refresh ∅ (.ok [switchedOff]) (some (.ok [Bench.keyboardEntry "1-4"]))).model
        ⟨.added, switchedOff⟩).2 =
      (refresh ∅ (.ok [switchedOff]) (some (.ok [Bench.keyboardEntry "1-4"]))).model :=
  (refreshed_model_kept_iff ∅ [switchedOff] [Bench.keyboardEntry "1-4"] ⟨.added, switchedOff⟩
    (List.mem_singleton.mpr rfl) nofun).mpr ⟨switchedOff, by simp, by decide⟩

/-- The keyboard is disabled, is plugged in again and bound by the kernel. -/
theorem bound_keyboard_shown : ¬ ∀ model devices entries (event : HotplugEvent),
    event.device ∈ devices →
    event.action ≠ .removed →
    (applyDelta (refresh model (.ok devices) (some (.ok entries))).model event).2 =
      (refresh model (.ok devices) (some (.ok entries))).model := by
  intro hall
  have hkept : ([keyboard].find? fun d => d.id = keyboard.id) = some keyboard := by simp
  have hshown := hall ∅ [keyboard] [Bench.keyboardEntry "1-4"] ⟨.added, keyboard⟩
      (List.mem_singleton.mpr rfl) nofun
  have hoverlaid : LooksOverlaid [Bench.keyboardEntry "1-4"] keyboard keyboard := by
    refine (applyDelta_refresh_kept ?_ hkept).mp hshown
    exact nofun
  revert hoverlaid
  decide

end Keyboard

end DevMgr.App
