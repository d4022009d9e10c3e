import DevMgr.App.PendingUpdates
import DevMgr.Linux.FwupdUpdateProvider

/-!
# Whether a reboot is shown as pending

The message of an install says that a reboot is required when the device says so
or when the recorded state does; what the application keeps goes by the recorded
state alone.
-/

open DevMgr.Core

namespace DevMgr.App
open Bytes Run Linux

namespace Updates
variable {providers : List UpdateProvider} {s s' : Updates} {a : Action} {key : Str × Str}

def RebootEntry (s : Updates) (key : Str × Str) : Prop :=
  ∃ a ∈ s.pending, pendingKey a = key ∧ a.disposition = .needsReboot

/-- Nothing takes the entry out on evidence, and no later report or install of the device has
another disposition. -/
def Standing (key : Str × Str) (_ : Updates) : Action → Updates → Prop
  | .eraseUnreported w, _ => ∀ p since actions,
      w.reconcile = some ⟨p, true, .reported since [] actions⟩ → key.1 = p →
      key ∈ reportedKeys p actions
  | .upsertReported w, _ => ∀ p e since action left actions,
      w.reconcile = some ⟨p, e, .reported since (action :: left) actions⟩ →
        (p, action.deviceId) = key →
        action.disposition = .needsReboot
  | .recordInstall w, _ => ∀ stamp outcome, w.stage = .returned stamp (.ok outcome) →
      (w.providerId, w.candidateId) = key →
        outcome.disposition = .completed ∨ outcome.disposition = .needsReboot
  | _, _ => True

theorem RebootEntry.upsert {pending : List PendingAction} {action : PendingAction}
    (h : ∃ a ∈ pending, pendingKey a = key ∧ a.disposition = .needsReboot)
    (haction : pendingKey action = key → action.disposition = .needsReboot) :
    ∃ a ∈ upsertPending pending action, pendingKey a = key ∧
    a.disposition = .needsReboot := by
  by_cases hkey : pendingKey action = key
  · exact ⟨action, .head _, hkey, haction hkey⟩
  · obtain ⟨a, hmem, ha, hreboot⟩ := h
    refine ⟨a, .tail _ (List.mem_filter.mpr ⟨hmem, decide_eq_true ?_⟩), ha, hreboot⟩
    exact fun hsame => hkey (hsame.symm.trans ha)

theorem RebootEntry.erase {pending : List PendingAction} {p : Str} {reported : List (Str × Str)}
    (h : ∃ a ∈ pending, pendingKey a = key ∧ a.disposition = .needsReboot)
    (hreported : key.1 = p → key ∈ reported) :
    ∃ a ∈ erasePendingNotIn pending p reported, pendingKey a = key ∧
    a.disposition = .needsReboot := by
  obtain ⟨a, hmem, ha, hreboot⟩ := h
  refine ⟨a, List.mem_filter.mpr ⟨hmem, decide_eq_true ?_⟩, ha, hreboot⟩
  rintro ⟨hprovider, hunreported⟩
  exact hunreported (ha ▸ hreported (ha ▸ hprovider))

theorem RebootEntry.record {w : Install} {stamp : ℕ} {outcome : Result InstallOutcome}
    (h : s.RebootEntry key) (hw : w.stage = .returned stamp outcome)
    (hc : Standing key s (.recordInstall w) s') :
    (s.recordInstall w stamp outcome).RebootEntry key := by
  cases outcome with
  | error e => exact h
  | ok outcome =>
    rw [RebootEntry, recordInstall_pending]
    by_cases hcompleted : outcome.disposition = .completed
    · rw [if_pos hcompleted]
      exact h
    · rw [if_neg hcompleted]
      exact RebootEntry.upsert h fun hkey => (hc stamp outcome hw hkey).resolve_left hcompleted

theorem RebootEntry.step (h : s.RebootEntry key) (hstep : s.step providers a = some s')
    (hc : Standing key s a s') : s'.RebootEntry key := by
  cases step_cases hstep with
  | refreshUpdates => exact h
  | enumerate _ _ _ =>
    obtain ⟨_, _, -, -, hpending, -⟩ := enumerate_spec (s := s) _ _ _ _
    rw [RebootEntry, hpending]
    exact h
  | pendingActions _ _ => exact h
  | pendingReply _ _ =>
    unfold pendingReply
    split <;> exact h
  | @upsertReported w p e since action left actions _ hw =>
    exact RebootEntry.upsert h fun hkey => hc p e since action left actions hw hkey
  | eraseUnreported _ hw => exact RebootEntry.erase h fun hp => hc _ _ _ hw hp
  | keepUnreported _ _ => exact h
  | store _ _ _ => exact h
  | installUpdate providerId candidateId release =>
    unfold installUpdate
    split_ifs <;> exact h
  | submit _ _ => exact h
  | refuse _ _ => exact h
  | startInstall _ _ =>
    unfold startInstall
    split
    · exact h
    · split_ifs <;> exact h
  | installReturned _ _ => exact h
  | recordInstall _ hw => exact h.record hw hc
  | releaseInstall _ _ => exact h

/-- Once an install with this outcome has been recorded, a reboot is shown as pending for as long as
the entry stands. -/
def ShowsReboot (deviceId : Str) (outcome : InstallOutcome) : Prop :=
  ∀ providers before s w stamp, runSome (step providers) start before = some s →
    w ∈ s.installs →
    w.candidateId = deviceId → w.stage = .returned stamp (.ok outcome) →
    ∀ after s' rebootPending,
      runSome (step providers) (s.recordInstall w stamp (.ok outcome)) after = some s' →
      MeetsSome (step providers) (Standing (w.providerId, deviceId))
        (s.recordInstall w stamp (.ok outcome))
        after →
      rebootPendingEffective s'.pending rebootPending = true

def fwupdTask (deviceId : Str) (stage : InstallStage) : Install :=
  ⟨str "fwupd", deviceId, ⟨[], []⟩, stage⟩

theorem installed_from_start (deviceId : Str) (outcome : InstallOutcome) :
    ∃ s, runSome (step fwupd) start
        [.installUpdate (str "fwupd") deviceId ⟨[], []⟩,
          .submit (fwupdTask deviceId .claimed) true,
          .startInstall (fwupdTask deviceId .submitted),
          .installReturned (fwupdTask deviceId .running) (.ok outcome)] = some s ∧
      fwupdTask deviceId (.returned 1 (.ok outcome)) ∈ s.installs ∧ s.pending = [] := by
  refine ⟨_, (runSome_cons _).mpr ⟨_, step_of (.installUpdate ..),
    (runSome_cons _).mpr ⟨_, step_of (.submit (.head _) rfl),
    (runSome_cons _).mpr ⟨_, step_of (.startInstall (.head _) rfl),
    (runSome_cons _).mpr ⟨_, step_of (.installReturned (.head _) rfl), rfl⟩⟩⟩⟩,
    .head _, rfl⟩

theorem showsReboot_iff {deviceId : Str} {outcome : InstallOutcome} :
    ShowsReboot deviceId outcome ↔ outcome.disposition = .needsReboot := by
  constructor
  · intro h
    obtain ⟨s, hrun, hmem, hpending⟩ := installed_from_start deviceId outcome
    have heffective := h fwupd _ s _ 1 hrun hmem rfl rfl [] _ none rfl trivial
    rw [recordInstall_pending, hpending] at heffective
    by_cases hcompleted : outcome.disposition = .completed
    · rw [if_pos hcompleted] at heffective
      cases heffective
    · rw [if_neg hcompleted] at heffective
      simpa [rebootPendingEffective, upsertPending, installedAction] using heffective
  · rintro hreboot providers before s w stamp - - rfl hw after s' rebootPending hrun hstanding
    have hentry : (s.recordInstall w stamp (.ok outcome)).RebootEntry (w.providerId,
        w.candidateId) := by
      rw [RebootEntry, recordInstall_pending, if_neg (by simp [hreboot])]
      exact ⟨_, .head _, rfl, hreboot⟩
    obtain ⟨action, haction, -, hdisposition⟩ := runSome_invariant
      (I := fun s => s.RebootEntry (w.providerId, w.candidateId)) (step providers)
      (fun _ _ _ h hstep hc => h.step hstep hc) hentry hrun hstanding
    unfold rebootPendingEffective
    rw [Bool.or_eq_true, List.any_eq_true]
    exact .inl ⟨action, haction, decide_eq_true hdisposition⟩

/-- An install whose message requires a reboot makes the application say so exactly when
needs-reboot is the recorded state. -/
theorem reboot_shown_iff (getResults : Fwupd.Call Fwupd.Dict)
    (getDevices : Fwupd.Call (List Fwupd.Dict))
    (deviceId : Str) (preDevice : Fwupd.ParsedDevice) (outcome : InstallOutcome)
    (hfinal : Fwupd.finalize getResults getDevices deviceId preDevice = .ok outcome)
    (_ : outcome.needsReboot = true) :
    ShowsReboot deviceId outcome ↔
    Fwupd.recorded getResults = some Fwupd.kUpdateStateNeedsReboot := by
  obtain ⟨state, freshDevice, hstate, -, rfl⟩ := Fwupd.finalize_ok_iff.mp hfinal
  rw [showsReboot_iff]
  change Fwupd.dispositionFromUpdateState state = .needsReboot ↔ _
  rw [Fwupd.disposition_needsReboot_iff]
  rcases Fwupd.resultsState_ok_iff.mp hstate with hrecorded | ⟨hnothing, hsuccess⟩
  · rw [hrecorded, Option.some_inj]
  · rw [Fwupd.recorded_of_nothing hnothing, hsuccess]
    exact ⟨fun h => absurd h (by decide), nofun⟩

section Devices
open Fwupd (Dict Variant ParsedDevice finalize outcomeOf)

def rebootingDevice : ParsedDevice :=
  ⟨str "a1", str "Dock", [], str "1.0", ⟨true, true, true⟩⟩

def recordedState (state : UInt32) : Fwupd.Call Dict :=
  .ok (.ofList [(str "UpdateState", Variant.uint32 state)])

theorem recorded_reboot_shown :
    ShowsReboot (str "a1") (outcomeOf .needsReboot rebootingDevice none) :=
  (reboot_shown_iff (recordedState Fwupd.kUpdateStateNeedsReboot) (.ok [])
    (str "a1") rebootingDevice _
    (by rfl) (by rfl)).mpr (by rfl)

theorem flagged_reboot_not_shown : ¬ ∀ getResults getDevices deviceId preDevice outcome,
    finalize getResults getDevices deviceId preDevice = .ok outcome →
      outcome.needsReboot = true →
      ShowsReboot deviceId outcome := by
  intro hall
  have hshows := hall (recordedState Fwupd.kUpdateStateSuccess) (.ok []) (str "a1") rebootingDevice
    (outcomeOf .completed rebootingDevice none) (by rfl) (by rfl)
  exact absurd (showsReboot_iff.mp hshows) nofun

end Devices

end Updates

end DevMgr.App
