import DevMgr.Core.UpdateModels
import DevMgr.Library.Observed
import DevMgr.Library.Run
import Mathlib.Logic.Function.Basic

/-!
# Updates in the application

Workers refresh the updates, any number at a time: each asks every provider in
turn, reconciles the pending actions with what the provider reports, and in the
end stores what it has built. Installs run beside them, through a gate. Every lock
is held for one step.
-/

open DevMgr.Core

namespace DevMgr.App
open Bytes Observed

structure UpdateProvider where
  providerId : Str
  installs : Bool
  deriving DecidableEq

inductive UpdatesEvent where
  | taskCompleted (taskId : Str) (ok : Bool) (message : Str)
  | updatesRefreshed
  | updatesChanged
  deriving DecidableEq

def pendingKey (a : PendingAction) : Str × Str := (a.providerId, a.deviceId)

def upsertPending (pending : List PendingAction) (action : PendingAction) : List PendingAction :=
  action :: pending.filter fun a => pendingKey a ≠ pendingKey action

def erasePendingNotIn (pending : List PendingAction) (providerId : Str)
    (reported : List (Str × Str)) :
    List PendingAction :=
  pending.filter fun a => ¬ (a.providerId = providerId ∧ pendingKey a ∉ reported)

/-- `rebootPending` is what the system says, where it says something. -/
def rebootPendingEffective (pending : List PendingAction) (rebootPending : Option Bool) : Bool :=
  (pending.any fun a => a.disposition = .needsReboot) || rebootPending.getD false

def lastGoodCandidates (snapshot : List UpdateProviderState) (providerId : Str) :
    List UpdateCandidate :=
  ((snapshot.find? fun st => st.providerId = providerId).map (·.candidates)).getD []

def installedAction (providerId candidateId : Str) (outcome : InstallOutcome) : PendingAction where
  providerId
  deviceId := candidateId
  deviceName := candidateId
  disposition := outcome.disposition
  version := outcome.observedVersion.getD []

inductive Stage where
  | due
  | querying (since : ℕ)
  | reported (since : ℕ) (left actions : List PendingAction)
  deriving DecidableEq

structure Reconcile where
  providerId : Str
  enumerated : Bool
  stage : Stage
  deriving DecidableEq

structure Built where
  stamp : ℕ
  origin : ℕ
  state : UpdateProviderState
  deriving DecidableEq

structure UpdatesRefresh where
  built : List Built
  reconcile : Option Reconcile
  deriving DecidableEq

inductive InstallStage where
  | claimed
  | submitted
  | running
  | returned (stamp : ℕ) (outcome : Result InstallOutcome)
  | recorded
  deriving DecidableEq

structure Install where
  providerId : Str
  candidateId : Str
  release : ReleaseRef
  stage : InstallStage
  deriving DecidableEq

def Install.taskId (w : Install) : Str := str "install-update:" ++ w.candidateId

/-- Beside the facade stand a clock, the time an install returned that an entry comes from, and for
each provider what is shown and what was built last, and the same of the candidates enumerated. -/
structure Updates where
  pending : List PendingAction
  snapshot : List UpdateProviderState
  installActive : Bool
  refreshes : List UpdatesRefresh
  installs : List Install
  published : List UpdatesEvent
  clock : ℕ
  seeds : Str × Str → Option ℕ
  shown : ℕ → Stamped (Option UpdateProviderState)
  latest : ℕ → Stamped (Option UpdateProviderState)
  shownCandidates : ℕ → Stamped (List UpdateCandidate)
  latestCandidates : ℕ → Stamped (List UpdateCandidate)

namespace Updates

inductive Action where
  | refreshUpdates
  | enumerate (w : UpdatesRefresh) (availability : ProviderAvailability)
      (candidates : Result (List UpdateCandidate))
  | pendingActions (w : UpdatesRefresh)
  | pendingReply (w : UpdatesRefresh) (reply : Result (List PendingAction))
  | upsertReported (w : UpdatesRefresh)
  | eraseUnreported (w : UpdatesRefresh)
  | store (w : UpdatesRefresh)
  | installUpdate (providerId candidateId : Str) (release : ReleaseRef)
  | submit (w : Install) (accepted : Bool)
  | startInstall (w : Install)
  | installReturned (w : Install) (outcome : Result InstallOutcome)
  | recordInstall (w : Install)
  | releaseInstall (w : Install)

def start : Updates where
  pending := []
  snapshot := []
  installActive := false
  refreshes := []
  installs := []
  published := []
  clock := 0
  seeds _ := none
  shown _ := ⟨0, none⟩
  latest _ := ⟨0, none⟩
  shownCandidates _ := ⟨0, []⟩
  latestCandidates _ := ⟨0, []⟩

variable (providers : List UpdateProvider) (s : Updates)

def replace (w w' : UpdatesRefresh) : Updates := { s with refreshes := w' :: s.refreshes.erase w }

def candidatesAt (i : ℕ) : List UpdateCandidate := (s.snapshot[i]?.map (·.candidates)).getD []

/-- An entry that is not there any more comes from no install. -/
def setPending (pending : List PendingAction) : Updates :=
  { s with
    pending
    seeds := fun key => if key ∈ pending.map pendingKey then s.seeds key else none }

def build (w : UpdatesRefresh) (origin : ℕ) (state : UpdateProviderState)
    (reconcile : Option Reconcile) :
    Updates :=
  { s.replace w ⟨w.built ++ [⟨s.clock + 1, origin, state⟩], reconcile⟩ with
    clock := s.clock + 1
    latest := Function.update s.latest w.built.length ⟨s.clock + 1, some state⟩ }

def retain (w : UpdatesRefresh) (providerId : Str) (availability : ProviderAvailability)
    (refreshError : Option Error) (reconcile : Option Reconcile) : Updates :=
  s.build w (s.shownCandidates w.built.length).stamp
    ⟨providerId, availability, lastGoodCandidates s.snapshot providerId, refreshError⟩ reconcile

def enumerate (w : UpdatesRefresh) (provider : UpdateProvider) (availability : ProviderAvailability)
    (candidates : Result (List UpdateCandidate)) : Updates :=
  if ¬ availability.available then s.retain w provider.providerId availability none none
  else match candidates with
    | .ok candidates =>
      { s.build w (s.clock + 1) ⟨provider.providerId, availability, candidates, none⟩
          (some ⟨provider.providerId, true, .due⟩) with
        latestCandidates :=
          Function.update s.latestCandidates w.built.length ⟨s.clock + 1, candidates⟩ }
    | .error e =>
      s.retain w provider.providerId availability (some e)
        (some ⟨provider.providerId, false, .due⟩)

def pendingReply (w : UpdatesRefresh) (r : Reconcile) (since : ℕ)
    (reply : Result (List PendingAction)) :
    Updates :=
  match reply with
  | .error _ => s.replace w ⟨w.built, none⟩
  | .ok actions =>
      s.replace w ⟨w.built, some { r with stage := .reported since actions actions }⟩

def reportedKeys (providerId : Str) (actions : List PendingAction) : List (Str × Str) :=
  actions.map fun a => (providerId, a.deviceId)

def store (w : UpdatesRefresh) : Updates :=
  { s with
    snapshot := w.built.map (·.state)
    refreshes := s.refreshes.erase w
    published := s.published ++ [.updatesRefreshed]
    shown := fun i => match w.built[i]? with
      | none => s.shown i
      | some b => (s.shown i).newer ⟨b.stamp, some b.state⟩
    shownCandidates := fun i => match w.built[i]? with
      | none => s.shownCandidates i
      | some b => (s.shownCandidates i).newer ⟨b.origin, b.state.candidates⟩ }

def installUpdate (providerId candidateId : Str) (release : ReleaseRef) : Updates :=
  if s.installActive then
    { s with published := s.published ++
        [.taskCompleted (str "install-update:" ++ candidateId) false
          (str "another update is already in progress")] }
  else
    { s with
      installActive := true
      installs := ⟨providerId, candidateId, release, .claimed⟩ :: s.installs }

def advance (w : Install) (stage : InstallStage) : Updates :=
  { s with installs := { w with stage } :: s.installs.erase w }

def publish (events : List UpdatesEvent) : Updates := { s with published := s.published ++ events }

def releaseInstall (w : Install) : Updates :=
  { s with installActive := false, installs := s.installs.erase w }

def startInstall (w : Install) : Updates :=
  match providers.find? fun p => p.providerId = w.providerId with
  | none =>
    (s.advance w .recorded).publish
      [.taskCompleted w.taskId false (str "update provider not found: " ++ w.providerId)]
  | some provider =>
    if provider.installs then s.advance w .running
    else (s.advance w .recorded).publish
      [.taskCompleted w.taskId false (str "provider is status-only: " ++ w.providerId)]

def seed (w : Install) (stamp : ℕ) (outcome : InstallOutcome) : Updates :=
  { s with
    pending := upsertPending s.pending (installedAction w.providerId w.candidateId outcome)
    seeds := Function.update s.seeds (w.providerId, w.candidateId) (some stamp) }

def recordInstall (w : Install) (stamp : ℕ) (outcome : Result InstallOutcome) : Updates :=
  match outcome with
  | .error e =>
    (s.advance w .recorded).publish [.taskCompleted w.taskId false e.message, .updatesChanged]
  | .ok outcome =>
    ((if outcome.disposition = .completed then s else s.seed w stamp outcome).advance
      w .recorded).publish
      [.taskCompleted w.taskId true outcome.message, .updatesChanged]

def refreshStep (w : UpdatesRefresh) : Action → Option Updates
  | .enumerate _ availability candidates =>
    match w.reconcile, providers[w.built.length]? with
    | none, some provider => some (s.enumerate w provider availability candidates)
    | _, _ => none
  | .pendingActions _ =>
    match w.reconcile with
    | some ⟨providerId, enumerated, .due⟩ =>
      some { s.replace w ⟨w.built,
        some ⟨providerId, enumerated, .querying (s.clock + 1)⟩⟩ with
        clock := s.clock + 1 }
    | _ => none
  | .pendingReply _ reply =>
    match w.reconcile with
    | some ⟨providerId, enumerated, .querying since⟩ =>
      some (s.pendingReply w ⟨providerId, enumerated, .querying since⟩ since reply)
    | _ => none
  | .upsertReported _ =>
    match w.reconcile with
    | some ⟨providerId, enumerated, .reported since (action :: left) actions⟩ =>
      some ((s.replace w ⟨w.built,
        some ⟨providerId, enumerated, .reported since left actions⟩⟩).setPending
        (upsertPending s.pending { action with providerId }))
    | _ => none
  | .eraseUnreported _ =>
    match w.reconcile with
    | some ⟨providerId, enumerated, .reported _ [] actions⟩ =>
      some (if enumerated then
        (s.replace w ⟨w.built, none⟩).setPending
          (erasePendingNotIn s.pending providerId (reportedKeys providerId actions))
      else s.replace w ⟨w.built, none⟩)
    | _ => none
  | .store _ => if w.reconcile = none ∧ w.built.length = providers.length then
      some (s.store w) else none
  | _ => none

def installStep (w : Install) : Action → Option Updates
  | .submit _ accepted =>
    match w.stage with
    | .claimed => some (if accepted then s.advance w .submitted else s.releaseInstall w)
    | _ => none
  | .startInstall _ =>
    match w.stage with
    | .submitted => some (s.startInstall providers w)
    | _ => none
  | .installReturned _ outcome =>
    match w.stage with
    | .running => some { s.advance w (.returned (s.clock + 1) outcome) with clock := s.clock + 1 }
    | _ => none
  | .recordInstall _ =>
    match w.stage with
    | .returned stamp outcome => some (s.recordInstall w stamp outcome)
    | _ => none
  | .releaseInstall _ =>
    match w.stage with
    | .recorded => some (s.releaseInstall w)
    | _ => none
  | _ => none

def step (a : Action) : Option Updates :=
  match a with
  | .refreshUpdates => some { s with refreshes := ⟨[], none⟩ :: s.refreshes }
  | .installUpdate providerId candidateId release =>
      some (s.installUpdate providerId candidateId release)
  | .enumerate w _ _ | .pendingActions w | .pendingReply w _ | .upsertReported w |
      .eraseUnreported w
  | .store w => if w ∈ s.refreshes then s.refreshStep providers w a else none
  | .submit w _ | .startInstall w | .installReturned w _ | .recordInstall w | .releaseInstall w =>
    if w ∈ s.installs then s.installStep providers w a else none

inductive Step : Action → Updates → Prop
  | refreshUpdates : Step .refreshUpdates { s with refreshes := ⟨[], none⟩ :: s.refreshes }
  | enumerate {w : UpdatesRefresh} {availability : ProviderAvailability}
      {candidates : Result (List UpdateCandidate)} {provider : UpdateProvider} :
      w ∈ s.refreshes → w.reconcile = none → providers[w.built.length]? = some provider →
      Step (.enumerate w availability candidates) (s.enumerate w provider availability candidates)
  | pendingActions {w : UpdatesRefresh} {p : Str} {e : Bool} :
      w ∈ s.refreshes → w.reconcile = some ⟨p, e, .due⟩ →
      Step (.pendingActions w)
        { s.replace w ⟨w.built, some ⟨p, e, .querying (s.clock + 1)⟩⟩ with
          clock := s.clock + 1 }
  | pendingReply {w : UpdatesRefresh} {p : Str} {e : Bool} {since : ℕ}
      {reply : Result (List PendingAction)} :
      w ∈ s.refreshes → w.reconcile = some ⟨p, e, .querying since⟩ →
      Step (.pendingReply w reply) (s.pendingReply w ⟨p, e, .querying since⟩ since reply)
  | upsertReported {w : UpdatesRefresh} {p : Str} {e : Bool} {since : ℕ} {action : PendingAction}
      {left actions : List PendingAction} :
      w ∈ s.refreshes →
      w.reconcile = some ⟨p, e, .reported since (action :: left) actions⟩ →
      Step (.upsertReported w)
        ((s.replace w ⟨w.built, some ⟨p, e, .reported since left actions⟩⟩).setPending
          (upsertPending s.pending { action with providerId := p }))
  | eraseUnreported {w : UpdatesRefresh} {p : Str} {since : ℕ} {actions : List PendingAction} :
      w ∈ s.refreshes → w.reconcile = some ⟨p, true, .reported since [] actions⟩ →
      Step (.eraseUnreported w)
        ((s.replace w ⟨w.built, none⟩).setPending
          (erasePendingNotIn s.pending p (reportedKeys p actions)))
  | keepUnreported {w : UpdatesRefresh} {p : Str} {since : ℕ} {actions : List PendingAction} :
      w ∈ s.refreshes → w.reconcile = some ⟨p, false, .reported since [] actions⟩ →
      Step (.eraseUnreported w) (s.replace w ⟨w.built, none⟩)
  | store {w : UpdatesRefresh} :
      w ∈ s.refreshes → w.reconcile = none → w.built.length = providers.length →
      Step (.store w) (s.store w)
  | installUpdate (providerId candidateId : Str) (release : ReleaseRef) :
      Step (.installUpdate providerId candidateId release)
        (s.installUpdate providerId candidateId release)
  | submit {w : Install} : w ∈ s.installs → w.stage = .claimed →
      Step (.submit w true) (s.advance w .submitted)
  | refuse {w : Install} : w ∈ s.installs → w.stage = .claimed →
      Step (.submit w false) (s.releaseInstall w)
  | startInstall {w : Install} : w ∈ s.installs → w.stage = .submitted →
      Step (.startInstall w) (s.startInstall providers w)
  | installReturned {w : Install} {outcome : Result InstallOutcome} :
      w ∈ s.installs → w.stage = .running →
      Step (.installReturned w outcome)
        { s.advance w (.returned (s.clock + 1) outcome) with clock := s.clock + 1 }
  | recordInstall {w : Install} {stamp : ℕ} {outcome : Result InstallOutcome} :
      w ∈ s.installs → w.stage = .returned stamp outcome →
      Step (.recordInstall w) (s.recordInstall w stamp outcome)
  | releaseInstall {w : Install} : w ∈ s.installs → w.stage = .recorded →
      Step (.releaseInstall w) (s.releaseInstall w)

variable {providers s} {s' : Updates} {a : Action}

theorem step_cases (h : s.step providers a = some s') : s.Step providers a s' := by
  cases a with
  | refreshUpdates => exact Option.some.inj h ▸ .refreshUpdates
  | installUpdate providerId candidateId release =>
    exact Option.some.inj h ▸ .installUpdate providerId candidateId release
  | enumerate w availability candidates =>
    obtain ⟨hmem, h⟩ := Option.ite_none_right_eq_some.mp h
    simp only [refreshStep] at h
    split at h
    · rename_i hreconcile hprovider
      exact Option.some.inj h ▸ .enumerate hmem hreconcile hprovider
    · cases h
  | pendingActions w =>
    obtain ⟨hmem, h⟩ := Option.ite_none_right_eq_some.mp h
    simp only [refreshStep] at h
    split at h
    · rename_i hreconcile
      exact Option.some.inj h ▸ .pendingActions hmem hreconcile
    · cases h
  | pendingReply w reply =>
    obtain ⟨hmem, h⟩ := Option.ite_none_right_eq_some.mp h
    simp only [refreshStep] at h
    split at h
    · rename_i hreconcile
      exact Option.some.inj h ▸ .pendingReply hmem hreconcile
    · cases h
  | upsertReported w =>
    obtain ⟨hmem, h⟩ := Option.ite_none_right_eq_some.mp h
    simp only [refreshStep] at h
    split at h
    · rename_i hreconcile
      exact Option.some.inj h ▸ .upsertReported hmem hreconcile
    · cases h
  | eraseUnreported w =>
    obtain ⟨hmem, h⟩ := Option.ite_none_right_eq_some.mp h
    simp only [refreshStep] at h
    split at h
    · rename_i enumerated _ _ hreconcile
      cases enumerated with
      | true => exact Option.some.inj h ▸ .eraseUnreported hmem hreconcile
      | false => exact Option.some.inj h ▸ .keepUnreported hmem hreconcile
    · cases h
  | store w =>
    obtain ⟨hmem, h⟩ := Option.ite_none_right_eq_some.mp h
    obtain ⟨⟨hidle, hbuilt⟩, h⟩ := Option.ite_none_right_eq_some.mp h
    exact Option.some.inj h ▸ .store hmem hidle hbuilt
  | submit w accepted =>
    obtain ⟨hmem, h⟩ := Option.ite_none_right_eq_some.mp h
    simp only [installStep] at h
    split at h
    · rename_i hstage
      cases accepted with
      | true => exact Option.some.inj h ▸ .submit hmem hstage
      | false => exact Option.some.inj h ▸ .refuse hmem hstage
    · cases h
  | startInstall w =>
    obtain ⟨hmem, h⟩ := Option.ite_none_right_eq_some.mp h
    simp only [installStep] at h
    split at h
    · rename_i hstage
      exact Option.some.inj h ▸ .startInstall hmem hstage
    · cases h
  | installReturned w outcome =>
    obtain ⟨hmem, h⟩ := Option.ite_none_right_eq_some.mp h
    simp only [installStep] at h
    split at h
    · rename_i hstage
      exact Option.some.inj h ▸ .installReturned hmem hstage
    · cases h
  | recordInstall w =>
    obtain ⟨hmem, h⟩ := Option.ite_none_right_eq_some.mp h
    simp only [installStep] at h
    split at h
    · rename_i hstage
      exact Option.some.inj h ▸ .recordInstall hmem hstage
    · cases h
  | releaseInstall w =>
    obtain ⟨hmem, h⟩ := Option.ite_none_right_eq_some.mp h
    simp only [installStep] at h
    split at h
    · rename_i hstage
      exact Option.some.inj h ▸ .releaseInstall hmem hstage
    · cases h

theorem step_of (h : s.Step providers a s') : s.step providers a = some s' := by
  cases h with
  | refreshUpdates => rfl
  | installUpdate => rfl
  | enumerate hmem hidle hprovider => simp [step, refreshStep, hmem, hidle, hprovider]
  | pendingActions hmem hw => simp [step, refreshStep, hmem, hw]
  | pendingReply hmem hw => simp [step, refreshStep, hmem, hw]
  | upsertReported hmem hw => simp [step, refreshStep, hmem, hw]
  | eraseUnreported hmem hw => simp [step, refreshStep, hmem, hw]
  | keepUnreported hmem hw => simp [step, refreshStep, hmem, hw]
  | store hmem hidle hbuilt => simp [step, refreshStep, hmem, hidle, hbuilt]
  | submit hmem hw => simp [step, installStep, hmem, hw]
  | refuse hmem hw => simp [step, installStep, hmem, hw]
  | startInstall hmem hw => simp [step, installStep, hmem, hw]
  | installReturned hmem hw => simp [step, installStep, hmem, hw]
  | recordInstall hmem hw => simp [step, installStep, hmem, hw]
  | releaseInstall hmem hw => simp [step, installStep, hmem, hw]

theorem mem_replace {w w' r : UpdatesRefresh} (h : r ∈ (s.replace w w').refreshes) :
    r = w' ∨ r ∈ s.refreshes :=
  (List.mem_cons.mp h).imp_right List.mem_of_mem_erase

theorem recordInstall_pending (w : Install) (stamp : ℕ) (outcome : InstallOutcome) :
    (s.recordInstall w stamp (.ok outcome)).pending =
      if outcome.disposition = .completed then s.pending
      else upsertPending s.pending (installedAction w.providerId w.candidateId outcome) := by
  unfold recordInstall
  by_cases hcompleted : outcome.disposition = .completed
  · simp only [if_pos hcompleted]
    rfl
  · simp only [if_neg hcompleted]
    rfl

theorem enumerate_spec (w : UpdatesRefresh) (provider : UpdateProvider)
    (availability : ProviderAvailability) (candidates : Result (List UpdateCandidate)) :
    ∃ b reconcile, (s.enumerate w provider availability candidates).refreshes =
        (s.replace w ⟨w.built ++ [b], reconcile⟩).refreshes ∧
      (reconcile = none ∨ ∃ e, reconcile = some ⟨provider.providerId, e, .due⟩) ∧
      (s.enumerate w provider availability candidates).pending = s.pending ∧
      (s.enumerate w provider availability candidates).seeds = s.seeds := by
  unfold enumerate
  by_cases havailable : availability.available = true
  · rw [if_neg (not_not.mpr havailable)]
    cases candidates with
    | ok candidates => exact ⟨_, _, rfl, .inr ⟨true, rfl⟩, rfl, rfl⟩
    | error e => exact ⟨_, _, rfl, .inr ⟨false, rfl⟩, rfl, rfl⟩
  · rw [if_pos havailable]
    exact ⟨_, _, rfl, .inl rfl, rfl, rfl⟩

end Updates

end DevMgr.App
