import DevMgr.Daemon.SnapshotService

/-!
# The turn of an entry

The sweep and the re-apply step of a restore take one entry after the other and
do the same in its turn: the device found for it is disabled when the guard lets
it go, and otherwise the entry is suspended.
-/

open DevMgr.Core

namespace DevMgr.Daemon
open Bytes Program

variable {W : Type} (J : Json.Codec) (P : Platform W) (t : Thread)

def present (s : State W) : List Device := (P.enumerate s.world).toOption.getD []

def Located (all : List Device) (entry : DisabledDeviceEntry) (s : State W)
    (device : Device) : Prop :=
  (run (respond J P t) (locate all entry) s).value = some (some device)

def Op.Minor : Op → Prop
  | .setEnabled _ _ false _ | .setGuardSuspended _ true => False
  | _ => True

def Enforces {α : Type} (all : List Device) (turn : DisabledDeviceEntry → Prog daemon α) :
    Prop :=
  ∀ (Q : Op → Prop), (∀ o : Op, o.Minor → Q o) → ∀ entry s,
    (run (respond J P t) (turn entry) s).All Q ↔ ∀ device, Located J P t all entry s device →
      needsApply entry device = true → P.probeError s.world = none →
        (Allowed P s device.sysfsPath →
          Q (.setEnabled (some ⟨entry, device⟩) device.sysfsPath false [])) ∧
        (¬ Allowed P s device.sysfsPath → Q (.setGuardSuspended entry.key true))

variable {J P t} {s : State W} {Q : Op → Prop} {entry : DisabledDeviceEntry} {device : Device}

theorem run_enumerated :
    run (respond J P t) enumerated s = ⟨[.enumerate], some (present P s), s⟩ := by
  have hcall : run (respond J P t) enumerate.run s = ⟨[.enumerate],
      some (P.enumerate s.world), s⟩ :=
    rfl
  rw [enumerated, run_bind, hcall, present]
  cases P.enumerate s.world <;> rfl

theorem leaves_present : Leaves (respond J P t) enumerated s fun all s' =>
  all = present P s ∧ s' = s := by
  intro all hall
  rw [run_enumerated] at hall ⊢
  exact ⟨(Option.some.inj hall).symm, rfl⟩

theorem minor_of_sees {o : Op} (h : o.Sees) : o.Minor := by
  cases o <;> first | exact h.elim | trivial

theorem all_locked {α : Type} {body : Prog daemon α} :
    (run (respond J P t) (locked body) s).All Q ↔
      Q .lock ∧ (run (respond J P t) body { s with holder := some t }).All Q ∧ Q .unlock := by
  have hlock : run (respond J P t) (call (S := daemon) .lock) s =
      ⟨[.lock], some (), { s with holder := some t }⟩ := rfl
  rw [locked, all_bind_single hlock, all_ending]

section BehindGuard
variable {α : Type} {done : α} {failed : Error → α} {refused : GuardVerdict → Prog daemon α}
  {write : Prog daemon α}

theorem all_behindGuard (hprobe : Q .probe) :
    (run (respond J P t) (behindGuard entry device done failed refused write) s).All Q ↔
      (needsApply entry device = true → P.probeError s.world = none →
        (Allowed P s device.sysfsPath → (run (respond J P t) write s).All Q) ∧
        (¬ Allowed P s device.sysfsPath → (run (respond J P t)
          (refused (evaluateDisable (P.facts s.world) device.sysfsPath)) s).All Q)) := by
  have hcall : run (respond J P t) probe.run s = ⟨[.probe], some (P.probe s.world), s⟩ := rfl
  unfold behindGuard
  by_cases hneeds : needsApply entry device = true
  · rw [if_neg (not_not.mpr hneeds), all_bind_single hcall, Platform.probe, and_iff_right hprobe]
    cases hprobed : P.probeError s.world with
    | some error => exact iff_of_true all_pure (by simp)
    | none =>
      dsimp only
      unfold Allowed
      by_cases hallowed : (evaluateDisable (P.facts s.world) device.sysfsPath).allowed = true
      · rw [if_neg (not_not.mpr hallowed)]
        simp [hneeds, hallowed]
      · rw [if_pos hallowed]
        simp [hneeds, hallowed]
  · rw [if_pos hneeds]
    exact iff_of_true all_pure fun h => absurd h hneeds

theorem run_behindGuard_refused (hneeds : needsApply entry device = true)
    (hprobe : P.probeError s.world = none) (hrefused : ¬ Allowed P s device.sysfsPath) :
    (run (respond J P t) (behindGuard entry device done failed refused write) s).state =
      (run (respond J P t)
        (refused (evaluateDisable (P.facts s.world) device.sysfsPath)) s).state := by
  have hcall : run (respond J P t) probe.run s = ⟨[.probe], some (P.probe s.world), s⟩ := rfl
  unfold behindGuard
  rw [if_neg (not_not.mpr hneeds), run_bind, hcall, Platform.probe, hprobe]
  unfold Allowed at hrefused
  simp only [Ran.andThen]
  rw [if_pos hrefused]

end BehindGuard

section Turns
variable {all : List Device}

theorem run_locate_state : (run (respond J P t) (locate all entry) s).state = s :=
  run_reads _ (respond_reads J P) ((sees_locate all entry).mono fun _ => .inl) s

theorem all_located {α : Type} {f : Option Device → Prog daemon α} (hsees : ∀ o : Op, o.Sees → Q o)
    (hnone : (run (respond J P t) (f none) s).All Q) :
    (run (respond J P t) (locate all entry >>= f) s).All Q ↔
      ∀ device, Located J P t all entry s device →
      (run (respond J P t) (f (some device)) s).All Q := by
  rw [all_bind, and_iff_right (all_only ((sees_locate all entry).mono hsees) s), run_locate_state]
  refine ⟨fun h device hlocated => h _ hlocated, fun h found hvalue => ?_⟩
  cases found with
  | none => exact hnone
  | some device => exact h device hvalue

theorem all_write {α : Type} {f : Result (Option Str) → Prog daemon α}
    (hf : ∀ result s, (run (respond J P t) (f result) s).All Q) :
    (run (respond J P t)
      ((setEnabled (some ⟨entry, device⟩) device.sysfsPath false []).run >>= f) s).All Q ↔
      Q (.setEnabled (some ⟨entry, device⟩) device.sysfsPath false []) := by
  rw [all_bind]
  exact (and_iff_left fun result _ => hf result _).trans all_call

theorem all_suspend {α : Type} {f : Result Unit → Prog daemon α}
    (hf : ∀ result s, (run (respond J P t) (f result) s).All Q) :
    (run (respond J P t) ((setGuardSuspended entry.key true).run >>= f) s).All Q ↔
      Q (.setGuardSuspended entry.key true) := by
  rw [all_bind]
  refine (and_iff_left fun result _ => hf result _).trans (all_bind.trans ?_)
  exact (and_iff_left fun result _ => all_only (only_orRaise result) _).trans all_call

theorem all_guarded {α : Type} {done : α} {failed : Error → α}
    {refused : GuardVerdict → Prog daemon α} {write : Prog daemon α} (hprobe : Q .probe)
    (hwrite : (run (respond J P t) write s).All Q ↔
      Q (.setEnabled (some ⟨entry, device⟩) device.sysfsPath false []))
    (hrefused : ∀ verdict, (run (respond J P t) (refused verdict) s).All Q ↔
      Q (.setGuardSuspended entry.key true)) :
    (run (respond J P t) (behindGuard entry device done failed refused write) s).All Q ↔
      (needsApply entry device = true → P.probeError s.world = none →
        (Allowed P s device.sysfsPath →
          Q (.setEnabled (some ⟨entry, device⟩) device.sysfsPath false [])) ∧
        (¬ Allowed P s device.sysfsPath → Q (.setGuardSuspended entry.key true))) := by
  rw [all_behindGuard hprobe, hwrite, hrefused]

theorem all_maybeReapply (hminor : ∀ o : Op, o.Minor → Q o) :
    (run (respond J P t) (maybeReapply entry device) s).All Q ↔
      (needsApply entry device = true → P.probeError s.world = none →
        (Allowed P s device.sysfsPath →
          Q (.setEnabled (some ⟨entry, device⟩) device.sysfsPath false [])) ∧
        (¬ Allowed P s device.sysfsPath → Q (.setGuardSuspended entry.key true))) := by
  rw [maybeReapply_eq]
  refine all_guarded (hminor .probe trivial) ?_ fun _ => all_suspend fun _ _ => all_pure
  rw [all_locked, and_iff_right (hminor .lock trivial), and_iff_left (hminor .unlock trivial)]
  refine all_write fun result s => ?_
  cases result with
  | error error => exact all_pure
  | ok applied =>
    exact all_only (only_recorded (hminor (.setLastSysfsPath ..) trivial)
      (hminor (.setGuardSuspended _ false) trivial)) _

theorem enforces_sweepEntry : Enforces J P t all (sweepEntry all) := by
  intro Q hminor entry s
  refine Iff.trans (all_located (fun o ho => hminor o (minor_of_sees ho)) ?_)
    (forall₂_congr fun device _ => ?_)
  · exact all_pure
  · exact all_maybeReapply hminor

theorem enforces_reApplyEntry : Enforces J P t all (reApplyEntry all) := by
  intro Q hminor entry s
  refine Iff.trans (all_located (fun o ho => hminor o (minor_of_sees ho)) ?_)
    (forall₂_congr fun device _ => ?_)
  · exact all_pure
  dsimp only
  rw [all_bind, reApplyOne_eq]
  refine (and_iff_left fun outcome _ => all_pure).trans ?_
  refine all_guarded (hminor .probe trivial) (all_write fun result s => ?_) fun _ =>
    all_suspend fun result s => ?_
  · cases result with
    | error error => exact all_pure
    | ok applied =>
      exact all_only (only_recorded (hminor (.setLastSysfsPath ..) trivial)
        (hminor (.setGuardSuspended _ false) trivial)) _
  · cases result <;> exact all_pure

end Turns

end DevMgr.Daemon
