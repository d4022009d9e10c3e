import DevMgr.Daemon.Bench
import DevMgr.Daemon.EnforcementTurns

/-!
# What enforcement disables

A device found by its key never contradicts it. A device found by the stored path
alone may: nothing compares it with the key before it is disabled. So enforcement
respects the keys exactly when no write is due for a stranger at a stored path.
-/

open DevMgr.Core

namespace DevMgr.Daemon
open Bytes Program

variable {W : Type} (J : Json.Codec) (P : Platform W) (t : Thread)

def Op.enforced : Op → Option Enforced
  | .setEnabled behalf _ false _ => behalf
  | _ => none

/-- The operation disables no device for an entry whose key it contradicts. -/
def Op.Respects (o : Op) : Prop := ∀ b, o.enforced = some b →
    ¬ Contradicts b.entry.key b.device

def Due (s : State W) (entry : DisabledDeviceEntry) (device : Device) : Prop :=
  needsApply entry device = true ∧ P.probeError s.world = none ∧
    (evaluateDisable (P.facts s.world) device.sysfsPath).allowed = true

instance (s : State W) (entry : DisabledDeviceEntry) (device : Device) :
    Decidable (Due P s entry device) := inferInstanceAs (Decidable (_ ∧ _))

/-- No write is due for a stranger at the stored path of the entry. -/
def SparesStranger (s : State W) (entry : DisabledDeviceEntry) (device : Device) : Prop :=
  entry.lastSysfsPath = device.sysfsPath → Contradicts entry.key device →
  ¬ Due P s entry device

def SparesFound (all : List Device) (entry : DisabledDeviceEntry) (s : State W) : Prop :=
  ∀ device, (run (respond J P t) (locate all entry) s).value = some (some device) →
    SparesStranger P s entry device

variable {J P t} {s : State W}

theorem respects_of_minor {o : Op} (h : o.Minor) : o.Respects := by
  intro b hb
  unfold Op.enforced at hb
  split at hb
  · exact h.elim
  · exact absurd hb (by simp)

theorem respects_setEnabled {entry : DisabledDeviceEntry} {device : Device} {path hint : Str} :
    (Op.setEnabled (some ⟨entry, device⟩) path false hint).Respects ↔
      ¬ Contradicts entry.key device := by
  simp [Op.Respects, Op.enforced]

section Turn
variable {all : List Device} {entry : DisabledDeviceEntry} {device : Device}

theorem due_respects_iff (h : FoundFor entry device) :
    (needsApply entry device = true → P.probeError s.world = none →
      (Allowed P s device.sysfsPath →
        (Op.setEnabled (some ⟨entry, device⟩) device.sysfsPath false []).Respects) ∧
      (¬ Allowed P s device.sysfsPath → (Op.setGuardSuspended entry.key true).Respects)) ↔
    SparesStranger P s entry device := by
  constructor
  · intro hrespects _ hcontradicts ⟨hneeds, hprobe, hallowed⟩
    exact respects_setEnabled.mp ((hrespects hneeds hprobe).1 hallowed) hcontradicts
  · refine fun hspares hneeds hprobe => ⟨fun hallowed => ?_, fun _ => nofun⟩
    refine respects_setEnabled.mpr fun hcontradicts => ?_
    -- a stranger is not found by the key
    have hstored := h.resolve_left fun hmatches => not_contradicts_of_matches hmatches hcontradicts
    exact hspares hstored hcontradicts ⟨hneeds, hprobe, hallowed⟩

theorem respects_turn {α : Type} {turn : DisabledDeviceEntry → Prog daemon α}
    (h : Enforces J P t all turn) :
    (run (respond J P t) (turn entry) s).All Op.Respects ↔ SparesFound J P t all entry s := by
  rw [h Op.Respects (fun _ => respects_of_minor)]
  refine forall₂_congr fun device hlocated => ?_
  exact due_respects_iff (run_returns _ (returns_locate all entry) hlocated device rfl)

end Turn

theorem respects_sweep :
    (run (respond J P t) sweep s).All Op.Respects ↔
      Along (respond J P t) (sweepEntry (present P s)) (SparesFound J P t (present P s))
        s.entries s := by
  have hcall : run (respond J P t) entries s = ⟨[.entries], some s.entries, s⟩ := rfl
  rw [sweep, all_bind_single run_enumerated,
    and_iff_right (respects_of_minor (o := .enumerate) trivial),
    all_bind_single hcall, and_iff_right (respects_of_minor (o := .entries) trivial), all_forEach]
  exact along_congr fun _ _ => respects_turn enforces_sweepEntry

theorem respects_reApplyRestored :
    (run (respond J P t) reApplyRestored s).All Op.Respects ↔
      Along (respond J P t) (reApplyEntry (present P s)) (SparesFound J P t (present P s))
        s.entries s := by
  have hcall : run (respond J P t) entries s = ⟨[.entries], some s.entries, s⟩ := rfl
  rw [reApplyRestored, all_bind_single run_enumerated,
    and_iff_right (respects_of_minor (o := .enumerate) trivial), all_bind_single hcall,
    and_iff_right (respects_of_minor (o := .entries) trivial), all_collect]
  exact along_congr fun _ _ => respects_turn enforces_reApplyEntry

theorem respects_onHotplug (event : HotplugEvent) :
    (run (respond J P t) (onHotplug event) s).All Op.Respects ↔
      (event.action ≠ .removed →
        ∀ entry, StateStore.findFor event.device s.entries = some entry →
        SparesStranger P s entry event.device) := by
  unfold onHotplug
  by_cases hremoved : event.action = .removed
  · rw [if_pos hremoved]
    exact iff_of_true all_pure fun h => absurd hremoved h
  · have hfind : run (respond J P t) (findFor event.device) s =
        ⟨[.findFor event.device], some (StateStore.findFor event.device s.entries), s⟩ := rfl
    rw [if_neg hremoved, all_bind_single hfind,
      and_iff_right (respects_of_minor (o := .findFor event.device) trivial)]
    cases hentry : StateStore.findFor event.device s.entries with
    | none => exact iff_of_true all_pure fun _ _ h => absurd h (by simp)
    | some entry =>
      have hfound : FoundFor entry event.device := by
        simpa [FoundFor, or_comm] using List.find?_some hentry
      dsimp only
      rw [all_maybeReapply (fun _ => respects_of_minor), due_respects_iff hfound]
      exact ⟨fun h _ _ he => Option.some.inj he ▸ h, fun h => h hremoved entry rfl⟩

variable (J P)

/-- Sweep, hotplug and restore disable no stranger exactly when no write is due for one that stands
at the stored path of an entry when its turn comes. -/
theorem enforcement_respects_iff (s : State W) :
    ((run (respond J P .bus) sweep s).All Op.Respects ↔
      Along (respond J P .bus) (sweepEntry (present P s)) (SparesFound J P .bus (present P s))
        s.entries s) ∧
    (∀ event : HotplugEvent, (run (respond J P .monitor) (onHotplug event) s).All Op.Respects ↔
      (event.action ≠ .removed →
        ∀ entry, StateStore.findFor event.device s.entries = some entry →
        SparesStranger P s entry event.device)) ∧
    ((run (respond J P .bus) reApplyRestored s).All Op.Respects ↔
      Along (respond J P .bus) (reApplyEntry (present P s)) (SparesFound J P .bus (present P s))
        s.entries s) :=
  ⟨respects_sweep, respects_onHotplug, respects_reApplyRestored⟩

def movedIn : Device where
  bus := .usb
  sysfsPath := str "/sys/devices/usb1/1-2"
  vendorId := str "0951"
  productId := str "1666"
  serial := str "60A4"
  status := .active
  boundDriver := none

def movedOut : DisabledDeviceEntry where
  key := ⟨str "usb", str "046d", str "c31c", str "A1", str "1-2"⟩
  mechanism := str "authorized"
  lastDriver := []
  lastSysfsPath := str "/sys/devices/usb1/1-2"
  disabledAtUtc := 0
  guardSuspended := false

theorem sweep_disables_stranger :
    ¬ (run (respond Json.reference Bench.platform .bus) sweep
      (Bench.idle ⟨[movedIn], [], []⟩ [movedOut])).All Op.Respects := by
  rw [respects_sweep]
  intro h
  have hdue : Due Bench.platform
      (Bench.idle ⟨[movedIn], [], []⟩ [movedOut]) movedOut movedIn := by
    decide
  exact h.1 movedIn rfl (by decide) (by decide) hdue

end DevMgr.Daemon
