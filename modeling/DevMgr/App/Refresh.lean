import DevMgr.App.DeviceService
import DevMgr.Daemon.Bench
import DevMgr.Library.Observed
import DevMgr.Library.Run
import Mathlib.Logic.Function.Basic

/-!
# Refreshes and hotplug events

A refresh enumerates on a worker and comes to the model later, as a whole. Hotplug
events wait for their debounce timer, the last one for each device, and are applied
one at a time by the timer's thread. Both are observations, made in one order and
applied in another.
-/

open DevMgr.Core

namespace DevMgr.App
open Bytes Observed Run

structure Refresh where
  stamp : ℕ
  snapshot : List Device
  deriving DecidableEq

structure Pending where
  stamp : ℕ
  event : HotplugEvent

/-- The stamps count the observations. What was last applied and last observed of a device is kept
beside the service. -/
structure Session where
  model : Model
  refreshes : List Refresh
  pending : StringMap Pending
  flushing : Option Pending
  clock : ℕ
  shown : Str → Stamped (Option Device)
  latest : Str → Stamped (Option Device)

def Refresh.seen (refresh : Refresh) (id : Str) : Stamped (Option Device) :=
  ⟨refresh.stamp, refresh.snapshot.find? fun d => d.id = id⟩

def Pending.seen (pending : Pending) : Stamped (Option Device) :=
  ⟨pending.stamp, pending.event.state⟩

def Pending.id (pending : Pending) : Str := pending.event.device.id

inductive Action where
  | enumerate (devices : List Device) (disabled : Option (List DisabledDeviceEntry))
  | applyEnumeration (refresh : Refresh)
  | onEvent (event : HotplugEvent)
  | flush (id : Str)
  | applyDelta

namespace Session

def start (model : Model) : Session where
  model
  refreshes := []
  pending := ∅
  flushing := none
  clock := 0
  shown id := ⟨0, model[id]?⟩
  latest id := ⟨0, model[id]?⟩

def enumerate (s : Session) (devices : List Device) (disabled : Option (List DisabledDeviceEntry)) :
    Session :=
  let refresh : Refresh := ⟨s.clock + 1, disabled.elim devices (applyDisabledOverlay devices)⟩
  { s with
    refreshes := refresh :: s.refreshes
    clock := s.clock + 1
    latest := refresh.seen }

def finish (s : Session) (refresh : Refresh) : Session :=
  { s with
    model := (App.applyEnumeration s.model refresh.snapshot).2
    refreshes := s.refreshes.erase refresh
    shown := fun id => (s.shown id).newer (refresh.seen id) }

def onEvent (s : Session) (event : HotplugEvent) : Session :=
  let pending : Pending := ⟨s.clock + 1, event⟩
  { s with
    pending := s.pending.insert pending.id pending
    clock := s.clock + 1
    latest := Function.update s.latest pending.id pending.seen }

def flush (s : Session) (id : Str) : Session :=
  match s.pending[id]? with
  | none => s
  | some pending => { s with pending := s.pending.erase id, flushing := some pending }

def applyDelta (s : Session) (pending : Pending) : Session :=
  { s with
    model := (App.applyDelta s.model pending.event).2
    flushing := none
    shown := Function.update s.shown pending.id ((s.shown pending.id).newer pending.seen) }

/-- Any number of workers refresh; one thread flushes. -/
def step (s : Session) : Action → Option Session
  | .enumerate devices disabled => some (s.enumerate devices disabled)
  | .applyEnumeration refresh => if refresh ∈ s.refreshes then some (s.finish refresh) else none
  | .onEvent event => some (s.onEvent event)
  | .flush id => if s.flushing.isNone then some (s.flush id) else none
  | .applyDelta => s.flushing.map s.applyDelta

def Quiet (s : Session) : Prop := s.refreshes = [] ∧ s.pending = ∅ ∧ s.flushing = none

def waiting (s : Session) (id : Str) : Set (Stamped (Option Device)) :=
  { o | (∃ refresh ∈ s.refreshes, refresh.seen id = o) ∨
    (∃ pending, s.pending[id]? = some pending ∧ pending.seen = o) ∨
    ∃ pending, s.flushing = some pending ∧ pending.id = id ∧ pending.seen = o }

def view (s : Session) (id : Str) : View (Option Device) where
  clock := s.clock
  value := s.model[id]?
  shown := s.shown id
  latest := s.latest id
  waiting := s.waiting id

/-- What is applied is not older, for any device it changes, than what has been applied of it. -/
def Timely (s : Session) : Action → Session → Prop
  | .applyEnumeration refresh, _ => ∀ id, (s.view id).Timely (refresh.seen id)
  | .applyDelta, _ => ∀ pending, s.flushing = some pending →
      (s.view pending.id).Timely pending.seen
  | _, _ => True

structure Sound (s : Session) : Prop where
  views : ∀ id, (s.view id).Sound
  keys : ∀ (id : Str) pending, s.pending[id]? = some pending → pending.id = id

variable {s s' : Session}

theorem step_applyEnumeration {refresh : Refresh} (h : refresh ∈ s.refreshes) :
    s.step (.applyEnumeration refresh) = some (s.finish refresh) := if_pos h

theorem step_flush {id : Str} (h : s.flushing = none) : s.step (.flush id) = some (s.flush id) :=
  if_pos (Option.isNone_iff_eq_none.mpr h)

theorem sound_start (model : Model) : (start model).Sound := by
  refine ⟨fun id => ?_, fun id pending h => ?_⟩
  · have hempty : (start model).waiting id = ∅ := by
      ext o
      simp [waiting, start]
    rw [view, hempty]
    exact .start _
  · simp [start] at h

theorem Sound.enumerate (h : s.Sound) (devices : List Device)
    (disabled : Option (List DisabledDeviceEntry)) : (s.enumerate devices disabled).Sound := by
  refine ⟨fun id => (h.views id).observe rfl (.inl ⟨_, List.mem_cons_self, rfl⟩) ?_, h.keys⟩
  rintro o (⟨refresh, hrefresh, rfl⟩ | hrest)
  · rcases List.mem_cons.mp hrefresh with rfl | hold
    · exact .inl rfl
    · exact .inr (.inl ⟨refresh, hold, rfl⟩)
  · exact .inr (.inr hrest)

theorem Sound.finish (h : s.Sound) {refresh : Refresh} (hmem : refresh ∈ s.refreshes)
    (htimely : ∀ id, (s.view id).Timely (refresh.seen id)) : (s.finish refresh).Sound := by
  refine ⟨fun id => ?_, h.keys⟩
  have hvalue : (s.finish refresh).model[id]? = (refresh.seen id).value :=
    applyEnumeration_getElem? s.model refresh.snapshot id
  rw [view, hvalue]
  refine (h.views id).apply (.inl ⟨refresh, hmem, rfl⟩) (htimely id) ?_ ?_
  · rintro o (⟨r, hr, rfl⟩ | hrest)
    · exact .inl ⟨r, List.mem_of_mem_erase hr, rfl⟩
    · exact .inr hrest
  · rintro o (⟨r, hr, rfl⟩ | hrest)
    · by_cases hsame : r = refresh
      · exact .inl (by rw [hsame])
      · exact .inr (.inl ⟨r, (List.mem_erase_of_ne hsame).mpr hr, rfl⟩)
    · exact .inr (.inr hrest)

theorem pending_insert {pending : StringMap Pending} {p : Pending} {id : Str} :
    (pending.insert p.id p)[id]? = if p.id = id then some p else pending[id]? := by
  rw [Std.ExtTreeMap.getElem?_insert]
  simp

theorem Sound.onEvent (h : s.Sound) (event : HotplugEvent) : (s.onEvent event).Sound := by
  let p : Pending := ⟨s.clock + 1, event⟩
  have hpending : ∀ id : Str, (s.onEvent event).pending[id]? = if p.id = id then some p
      else s.pending[id]? :=
    fun _ => pending_insert
  refine ⟨fun id => ?_, fun id pending hlookup => ?_⟩
  · by_cases hid : p.id = id
    · have hlatest : (s.onEvent event).latest id = p.seen := by
        rw [← hid]
        exact Function.update_self ..
      rw [view, hlatest]
      refine (h.views id).observe rfl (.inr (.inl ⟨p, by rw [hpending, if_pos hid], rfl⟩)) ?_
      rintro o (hrefresh | ⟨pending, hlookup, rfl⟩ | hflushing)
      · exact .inr (.inl hrefresh)
      · rw [hpending, if_pos hid] at hlookup
        exact .inl (congrArg Pending.seen (Option.some.inj hlookup).symm)
      · exact .inr (.inr (.inr hflushing))
    · have hlatest : (s.onEvent event).latest id = s.latest id :=
        Function.update_of_ne (Ne.symm hid) ..
      have hwaiting : (s.onEvent event).waiting id = s.waiting id := by
        ext o
        simp only [waiting, hpending, if_neg hid]
        rfl
      rw [view, hlatest, hwaiting]
      exact (h.views id).later (Nat.le_succ _)
  · rw [hpending] at hlookup
    split_ifs at hlookup with hid
    · rw [← Option.some.inj hlookup, hid]
    · exact h.keys id pending hlookup

theorem Sound.flush (h : s.Sound) (id : Str) (hidle : s.flushing = none) : (s.flush id).Sound := by
  unfold Session.flush
  cases hp : s.pending[id]? with
  | none => exact h
  | some p =>
    dsimp only
    have hid : p.id = id := h.keys id p hp
    have hpending : ∀ id' : Str, (s.pending.erase id)[id']? = if id = id' then none
        else s.pending[id']? := by
      intro id'
      rw [Std.ExtTreeMap.getElem?_erase]
      simp
    refine ⟨fun id' => ?_, fun id' pending hlookup => ?_⟩
    · have hwaiting : waiting { s with pending := s.pending.erase id, flushing := some p } id' =
          s.waiting id' := by
        ext o
        simp only [waiting, hpending, hidle]
        by_cases heq : id = id'
        · subst heq
          simp [hp, hid]
        · have hother : p.id ≠ id' := hid ▸ heq
          simp [heq, hother]
      rw [view, hwaiting]
      exact h.views id'
    · rw [hpending] at hlookup
      split_ifs at hlookup
      exact h.keys id' pending hlookup

theorem Sound.applyDelta (h : s.Sound) {pending : Pending} (hflushing : s.flushing = some pending)
    (htimely : (s.view pending.id).Timely pending.seen) : (s.applyDelta pending).Sound := by
  have hvalue : ∀ id : Str, (s.applyDelta pending).model[id]? =
      if pending.id = id then pending.event.state else s.model[id]? :=
    applyDelta_getElem? s.model pending.event
  refine ⟨fun id => ?_, h.keys⟩
  by_cases hid : pending.id = id
  · subst hid
    have hshown : (s.applyDelta pending).shown pending.id =
        (s.shown pending.id).newer pending.seen :=
      Function.update_self ..
    rw [view, hvalue, if_pos rfl, hshown]
    refine (h.views pending.id).apply (.inr (.inr ⟨pending, hflushing, rfl, rfl⟩)) htimely ?_ ?_
    · rintro o (hrefresh | hpending | ⟨_, hnone, _⟩)
      · exact .inl hrefresh
      · exact .inr (.inl hpending)
      · exact absurd hnone nofun
    · rintro o (hrefresh | hpending | ⟨p, hp, _, rfl⟩)
      · exact .inr (.inl hrefresh)
      · exact .inr (.inr (.inl hpending))
      · exact .inl (congrArg Pending.seen (Option.some.inj (hp.symm.trans hflushing)))
  · have hshown : (s.applyDelta pending).shown id = s.shown id :=
      Function.update_of_ne (Ne.symm hid) ..
    have hwaiting : (s.applyDelta pending).waiting id = s.waiting id := by
      ext o
      simp [waiting, hflushing, Session.applyDelta, hid]
    rw [view, hvalue, if_neg hid, hshown, hwaiting]
    exact h.views id

theorem Sound.step {a : Action} (h : s.Sound) (hstep : s.step a = some s')
    (htimely : s.Timely a s') :
    s'.Sound := by
  cases a with
  | enumerate devices disabled => exact Option.some.inj hstep ▸ h.enumerate devices disabled
  | applyEnumeration refresh =>
    obtain ⟨hmem, hs'⟩ := Option.ite_none_right_eq_some.mp hstep
    exact Option.some.inj hs' ▸ h.finish hmem htimely
  | onEvent event => exact Option.some.inj hstep ▸ h.onEvent event
  | flush id =>
    obtain ⟨hidle, hs'⟩ := Option.ite_none_right_eq_some.mp hstep
    exact Option.some.inj hs' ▸ h.flush id (Option.isNone_iff_eq_none.mp hidle)
  | applyDelta =>
    obtain ⟨pending, hflushing, rfl⟩ := Option.map_eq_some_iff.mp hstep
    exact h.applyDelta hflushing (htimely pending hflushing)

theorem waiting_of_quiet (hquiet : s.Quiet) (id : Str) (o : Stamped (Option Device)) :
    o ∉ s.waiting id := by
  obtain ⟨hrefreshes, hpending, hflushing⟩ := hquiet
  simp [waiting, hrefreshes, hpending, hflushing]

/-- The model holds of each device what was last observed among all that has been applied, and in
the end what was last observed of it. -/
theorem model_keeps_latest {model : Model} {actions : List Action}
    (hrun : runSome step (start model) actions = some s)
    (htimely : MeetsSome step Timely (start model) actions) :
    (∀ id : Str, s.model[id]? = (s.shown id).value) ∧
    (s.Quiet → ∀ id : Str, s.model[id]? = (s.latest id).value) := by
  have hsound : s.Sound := runSome_invariant (I := Sound) step
    (fun _ _ _ h hstep ht => h.step hstep ht) (sound_start model) hrun htimely
  exact ⟨fun id => (hsound.views id).value,
    fun hquiet id => (hsound.views id).at_rest (waiting_of_quiet hquiet id)⟩

section Runs

def keyboard : Device where
  toDevice := Daemon.Bench.keyboard "1-4"
  id := str "usb-1-4"
  name := str "Keyboard"
  modalias := []
  parent := none
  properties := ∅
  errorNote := none

def unplugged : HotplugEvent := ⟨.removed, keyboard⟩

theorem model_keeps_removal : ∃ s, runSome step (start ∅)
    [.enumerate [keyboard] none, .applyEnumeration ⟨1, [keyboard]⟩, .onEvent unplugged,
      .flush keyboard.id, .applyDelta] = some s ∧ s.Quiet ∧ s.model[keyboard.id]? = none := by
  have hrun : (runSome step (start ∅)
      [.enumerate [keyboard] none, .applyEnumeration ⟨1, [keyboard]⟩, .onEvent unplugged,
        .flush keyboard.id, .applyDelta]).any (fun s => decide (s.refreshes = [] ∧
          s.pending.isEmpty ∧
          s.flushing.isNone ∧ (s.latest keyboard.id).value = none)) = true := by
    decide
  obtain ⟨s, hs, hfinal⟩ := (Option.any_eq_true _ _).mp hrun
  obtain ⟨hrefreshes, hpending, hflushing, hlatest⟩ := of_decide_eq_true hfinal
  have hquiet : s.Quiet := ⟨hrefreshes, Std.ExtTreeMap.isEmpty_iff.mp hpending,
    Option.isNone_iff_eq_none.mp hflushing⟩
  have hbefore :
      ∀ s', (((start ∅).enumerate [keyboard] none).finish ⟨1, [keyboard]⟩).onEvent
        unplugged = s' →
      ∀ pending, (s'.flush keyboard.id).flushing = some pending →
        ((s'.flush keyboard.id).view pending.id).Timely pending.seen := by
    rintro s' rfl pending hpending
    have hp : pending = ⟨2, unplugged⟩ := (Option.some.inj hpending).symm
    subst hp
    exact .inl (by decide)
  have htimely : MeetsSome step Timely (start ∅)
      [.enumerate [keyboard] none, .applyEnumeration ⟨1, [keyboard]⟩, .onEvent unplugged,
        .flush keyboard.id, .applyDelta] := by
    refine meetsSome_cons step rfl trivial
      (meetsSome_cons step (step_applyEnumeration (List.mem_singleton.mpr rfl)) ?_
        (meetsSome_cons step rfl trivial (meetsSome_cons step (step_flush rfl) trivial ?_)))
    · exact fun _ => .inl (Nat.zero_le _)
    · exact fun _ _ => ⟨hbefore _ rfl, trivial⟩
  exact ⟨s, hs, hquiet, ((model_keeps_latest hs htimely).2 hquiet keyboard.id).trans hlatest⟩

theorem refresh_resurrects : ¬ ∀ model actions s, runSome step (start model) actions = some s →
    s.Quiet → ∀ id : Str, s.model[id]? = (s.latest id).value := by
  intro hlatest
  have hrun : (runSome step (start ∅)
      [.enumerate [keyboard] none, .onEvent unplugged, .flush keyboard.id, .applyDelta,
        .applyEnumeration ⟨1, [keyboard]⟩]).any (fun s => decide (s.refreshes = [] ∧
          s.pending.isEmpty ∧
          s.flushing.isNone ∧
          s.model[keyboard.id]? ≠ (s.latest keyboard.id).value)) = true := by
    decide
  obtain ⟨s, hs, hfinal⟩ := (Option.any_eq_true _ _).mp hrun
  obtain ⟨hrefreshes, hpending, hflushing, hdiffers⟩ := of_decide_eq_true hfinal
  exact hdiffers (hlatest _ _ s hs
    ⟨hrefreshes, Std.ExtTreeMap.isEmpty_iff.mp hpending, Option.isNone_iff_eq_none.mp hflushing⟩
    keyboard.id)

end Runs

end Session

end DevMgr.App
