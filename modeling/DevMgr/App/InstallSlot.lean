import DevMgr.App.Updates
import DevMgr.Library.Exclusive
import Mathlib.Data.Nat.Notation
import Mathlib.Logic.Relation

/-!
# The install slot

`installUpdate` claims the slot on the caller's thread and hands the install to
the scheduler, which may refuse it. The task that runs it releases the slot on
every way out; where there is no task, the call itself does.
-/

open DevMgr.Core

namespace DevMgr.App
open Bytes Relation

structure InstallRequest where
  providerId : Str
  candidateId : Str
  release : ReleaseRef

def InstallRequest.taskId (r : InstallRequest) : Str := str "install-update:" ++ r.candidateId

inductive InstallEvent where
  | taskProgress (taskId : Str) (update : ProgressUpdate)
  | taskCompleted (taskId : Str) (ok : Bool) (message : Str)
  | updatesChanged

def InstallEvent.completedTask? : InstallEvent → Option Str
  | .taskCompleted taskId _ _ => some taskId
  | _ => none

def InstallRequest.completion (r : InstallRequest) : Result InstallOutcome → List InstallEvent
  | .ok outcome => [.taskCompleted r.taskId true outcome.message, .updatesChanged]
  | .error e => [.taskCompleted r.taskId false e.message, .updatesChanged]

def InstallRequest.seed (r : InstallRequest) (pending : List PendingAction) :
    Result InstallOutcome → List PendingAction
  | .ok outcome =>
    if outcome.disposition = .completed then pending
    else upsertPending pending (installedAction r.providerId r.candidateId outcome)
  | .error _ => pending

/-- Where a call is: in `installUpdate` up to `away`, `threw` or `queued`, then in its task. -/
inductive CallPhase where
  | outside
  | turnedAway
  | away
  | claimed
  | refused
  | threw
  | queued
  | installing
  | answered (outcome : Result InstallOutcome)
  | completed
  | done

namespace CallPhase

def Holding : CallPhase → Prop
  | .claimed | .refused | .queued | .installing | .answered _ | .completed => True
  | _ => False

def QueuedOrRunning : CallPhase → Prop
  | .queued | .installing | .answered _ | .completed => True
  | _ => False

def FoundTaken : CallPhase → Prop
  | .turnedAway | .away => True
  | _ => False

def HasFuture : CallPhase → Prop
  | .away | .queued | .installing | .answered _ | .completed | .done => True
  | _ => False

def Asked : CallPhase → Prop
  | .installing | .answered _ | .completed | .done => True
  | _ => False

def published : CallPhase → Bool
  | .away | .completed | .done => true
  | _ => false

def left : CallPhase → ℕ
  | .queued => 3
  | .installing => 2
  | .answered _ => 1
  | _ => 0

theorem left_pos {phase : CallPhase} (hfuture : phase.HasFuture)
    (hpublished : ¬ phase.published = true) : 0 < phase.left := by
  cases phase with
  | queued | installing | answered _ => exact Nat.succ_pos _
  | away | completed | done => exact absurd rfl hpublished
  | outside | turnedAway | claimed | refused | threw => exact hfuture.elim

theorem FoundTaken.not_asked {phase : CallPhase} (h : phase.FoundTaken) : ¬ phase.Asked := by
  cases phase with
  | turnedAway | away => exact id
  | outside | claimed | refused | threw | queued | installing | answered _ | completed | done =>
    exact h.elim

end CallPhase

/-- `asked` lists the calls for which a provider has been asked to install. -/
structure InstallSlot where
  installActive : Bool
  pending : List PendingAction
  published : List (ℕ × InstallEvent)
  asked : List ℕ
  calls : ℕ → CallPhase

namespace InstallSlot

def start : InstallSlot := ⟨false, [], [], [], fun _ => .outside⟩

variable (s : InstallSlot)

def move (call : ℕ) (phase : CallPhase) : InstallSlot :=
  { s with calls := Function.update s.calls call phase }

def publish (call : ℕ) (events : List InstallEvent) : InstallSlot :=
  { s with published := s.published ++ events.map fun e => (call, e) }

def completions (call : ℕ) : List Str :=
  s.published.filterMap fun e => if e.1 = call then e.2.completedTask? else none

inductive Step (providers : List UpdateProvider) (requests : ℕ → InstallRequest) :
    InstallSlot → InstallSlot → Prop
  | find_taken {s call} (houtside : s.calls call = .outside) (htaken : s.installActive = true) :
      Step providers requests s (s.move call .turnedAway)
  | turn_away {s call} (hturned : s.calls call = .turnedAway) :
      Step providers requests s ((s.move call .away).publish call
        [.taskCompleted (requests call).taskId false (str "another update is already in progress")])
  | claim {s call} (houtside : s.calls call = .outside) (hfree : s.installActive = false) :
      Step providers requests s { s.move call .claimed with installActive := true }
  | submit {s call} (hclaimed : s.calls call = .claimed) : Step providers requests s
      (s.move call .queued)
  | submit_throws {s call} (hclaimed : s.calls call = .claimed) :
      Step providers requests s (s.move call .refused)
  | rethrow {s call} (hrefused : s.calls call = .refused) :
      Step providers requests s { s.move call .threw with installActive := false }
  | not_found {s call} (hqueued : s.calls call = .queued)
      (hfind : providers.find? (fun p => p.providerId = (requests call).providerId) = none) :
      Step providers requests s
        ((s.move call .completed).publish call [.taskCompleted (requests call).taskId
        false (str "update provider not found: " ++ (requests call).providerId)])
  | status_only {s call provider} (hqueued : s.calls call = .queued)
      (hfind : providers.find? (fun p => p.providerId = (requests call).providerId) = some provider)
      (hinstalls : provider.installs = false) :
      Step providers requests s
        ((s.move call .completed).publish call [.taskCompleted (requests call).taskId
        false (str "provider is status-only: " ++ (requests call).providerId)])
  | install {s call provider} (hqueued : s.calls call = .queued)
      (hfind : providers.find? (fun p => p.providerId = (requests call).providerId) = some provider)
      (hinstalls : provider.installs = true) :
      Step providers requests s { s.move call .installing with asked := s.asked ++ [call] }
  | progress {s call} (update : ProgressUpdate) (hinstalling : s.calls call = .installing) :
      Step providers requests s (s.publish call [.taskProgress (requests call).taskId update])
  | answer {s call} (outcome : Result InstallOutcome) (hinstalling : s.calls call = .installing) :
      Step providers requests s (s.move call (.answered outcome))
  | complete {s call outcome} (hanswered : s.calls call = .answered outcome) :
      Step providers requests s { (s.move call .completed).publish call
        ((requests call).completion outcome) with
        pending := (requests call).seed s.pending outcome }
  | release {s call} (hcompleted : s.calls call = .completed) :
      Step providers requests s { s.move call .done with installActive := false }

variable {s} {s' : InstallSlot} {providers : List UpdateProvider} {requests : ℕ → InstallRequest}

structure Sound (requests : ℕ → InstallRequest) (s : InstallSlot) : Prop where
  slot : Exclusive CallPhase.Holding s.installActive s.calls
  once : ∀ call, s.completions call = if (s.calls call).published then
    [(requests call).taskId] else []
  asked : ∀ call ∈ s.asked, (s.calls call).Asked

theorem sound_start : start.Sound requests :=
  ⟨.start (by simp [CallPhase.Holding]), fun _ => rfl, nofun⟩

theorem completions_publish (call call' : ℕ) (events : List InstallEvent) :
    (s.publish call events).completions call' =
      s.completions call' ++ if call = call' then events.filterMap (·.completedTask?) else [] := by
  unfold completions publish
  rw [List.filterMap_append, List.filterMap_map]
  by_cases heq : call = call'
  · simp [heq]
  · simp [heq]

theorem Sound.asked_move (h : s.Sound requests) {call : ℕ} {phase : CallPhase}
    (hasked : (s.calls call).Asked → phase.Asked) :
    ∀ call' ∈ s.asked, ((s.move call phase).calls call').Asked := fun call' hcall' =>
  (Function.forall_update_iff s.calls fun call' phase => call' ∈ s.asked → phase.Asked).mpr
    ⟨fun hcall => hasked (h.asked call hcall), fun call' _ => h.asked call'⟩ call' hcall'

theorem Sound.once_move (h : s.Sound requests) {call : ℕ} {phase : CallPhase}
    (hpublished : phase.published = (s.calls call).published) (call' : ℕ) :
    s.completions call' = if ((s.move call phase).calls call').published then
      [(requests call').taskId] else [] :=
  (Function.forall_update_iff s.calls fun call' phase =>
    s.completions call' = if phase.published then [(requests call').taskId] else []).mpr
      ⟨hpublished ▸ h.once call, fun call' _ => h.once call'⟩ call'

theorem Sound.once_publish (h : s.Sound requests) {call : ℕ} {phase : CallPhase}
    {events : List InstallEvent}
    (hbefore : (s.calls call).published = false) (hafter : phase.published = true)
    (hevents : events.filterMap (·.completedTask?) = [(requests call).taskId]) (call' : ℕ) :
    ((s.move call phase).publish call events).completions call' =
      if ((s.move call phase).calls call').published then [(requests call').taskId] else [] := by
  rw [completions_publish]
  change s.completions call' ++ _ = _
  by_cases heq : call = call'
  · subst heq
    have hmoved : (s.move call phase).calls call = phase := Function.update_self ..
    rw [h.once call, if_neg (by simp [hbefore]), if_pos rfl, hmoved, if_pos hafter,
      hevents, List.nil_append]
  · have hmoved : (s.move call phase).calls call' = s.calls call' :=
      Function.update_of_ne (Ne.symm heq) ..
    rw [h.once call', if_neg heq, hmoved, List.append_nil]

theorem Sound.move (h : s.Sound requests) {call : ℕ} {phase : CallPhase}
    (hholding : phase.Holding ↔ (s.calls call).Holding)
    (hpublished : phase.published = (s.calls call).published)
    (hasked : (s.calls call).Asked → phase.Asked) : (s.move call phase).Sound requests :=
  ⟨h.slot.move hholding, h.once_move hpublished, h.asked_move hasked⟩

theorem Sound.publish (h : s.Sound requests) {call : ℕ} {phase : CallPhase}
    {events : List InstallEvent} (hholding : phase.Holding ↔ (s.calls call).Holding)
    (hbefore : (s.calls call).published = false)
    (hafter : phase.published = true) (hasked : (s.calls call).Asked → phase.Asked)
    (hevents : events.filterMap (·.completedTask?) = [(requests call).taskId]) :
    ((s.move call phase).publish call events).Sound requests :=
  ⟨h.slot.move hholding, h.once_publish hbefore hafter hevents, h.asked_move hasked⟩

theorem Sound.claim (h : s.Sound requests) {call : ℕ} (houtside : s.calls call = .outside)
    (hfree : s.installActive = false) :
    ({ s.move call .claimed with installActive := true } : InstallSlot).Sound requests := by
  have hslot := h.slot
  rw [hfree] at hslot
  refine ⟨hslot.claim trivial, h.once_move ?_, h.asked_move ?_⟩
  · rw [houtside]
    rfl
  · rw [houtside]
    exact nofun

theorem Sound.release (h : s.Sound requests) {call : ℕ} {phase : CallPhase}
    (hholding : (s.calls call).Holding)
    (hphase : ¬ phase.Holding) (hpublished : phase.published = (s.calls call).published)
    (hasked : (s.calls call).Asked → phase.Asked) :
    ({ s.move call phase with installActive := false } : InstallSlot).Sound requests :=
  ⟨h.slot.release hholding hphase, h.once_move hpublished, h.asked_move hasked⟩

theorem completion_task (r : InstallRequest) (outcome : Result InstallOutcome) :
    (r.completion outcome).filterMap (·.completedTask?) = [r.taskId] := by
  cases outcome <;> rfl

theorem Sound.step (h : s.Sound requests) (hstep : Step providers requests s s') :
    s'.Sound requests := by
  cases hstep with
  | find_taken houtside htaken =>
    refine h.move ?_ ?_ ?_ <;> rw [houtside]
    · exact Iff.rfl
    · rfl
    · exact nofun
  | turn_away hturned =>
    refine h.publish ?_ ?_ rfl ?_ rfl <;> rw [hturned]
    · exact Iff.rfl
    · rfl
    · exact nofun
  | claim houtside hfree => exact h.claim houtside hfree
  | submit hclaimed =>
    refine h.move ?_ ?_ ?_ <;> rw [hclaimed]
    · exact Iff.rfl
    · rfl
    · exact nofun
  | submit_throws hclaimed =>
    refine h.move ?_ ?_ ?_ <;> rw [hclaimed]
    · exact Iff.rfl
    · rfl
    · exact nofun
  | rethrow hrefused =>
    refine h.release ?_ nofun ?_ ?_ <;> rw [hrefused]
    · trivial
    · rfl
    · exact nofun
  | not_found hqueued hfind =>
    refine h.publish ?_ ?_ rfl (fun _ => trivial) rfl <;> rw [hqueued]
    · exact Iff.rfl
    · rfl
  | status_only hqueued hfind hinstalls =>
    refine h.publish ?_ ?_ rfl (fun _ => trivial) rfl <;> rw [hqueued]
    · exact Iff.rfl
    · rfl
  | @install call provider hqueued hfind hinstalls =>
    have hmove : (s.move call .installing).Sound requests := by
      refine h.move ?_ ?_ (fun _ => trivial) <;> rw [hqueued]
      · exact Iff.rfl
      · rfl
    refine ⟨hmove.slot, hmove.once, fun call' hcall' => ?_⟩
    rcases List.mem_append.mp hcall' with hold | hnew
    · exact hmove.asked call' hold
    · rw [List.mem_singleton.mp hnew]
      exact (congrArg CallPhase.Asked (Function.update_self call _ s.calls)).mpr trivial
  | @progress call update hinstalling =>
    refine ⟨h.slot, fun call' => ?_, h.asked⟩
    rw [completions_publish, h.once call']
    by_cases heq : call = call'
    · rw [if_pos heq]
      exact List.append_nil _
    · rw [if_neg heq]
      exact List.append_nil _
  | answer outcome hinstalling =>
    refine h.move ?_ ?_ (fun _ => trivial) <;> rw [hinstalling]
    · exact Iff.rfl
    · rfl
  | @complete call outcome hanswered =>
    have hpublish :
        ((s.move call .completed).publish call ((requests call).completion outcome)).Sound
          requests := by
      refine h.publish ?_ ?_ rfl (fun _ => trivial) (completion_task _ _) <;> rw [hanswered]
      · exact Iff.rfl
      · rfl
    exact ⟨hpublish.slot, hpublish.once, hpublish.asked⟩
  | release hcompleted =>
    refine h.release ?_ nofun ?_ (fun _ => trivial) <;> rw [hcompleted]
    · trivial
    · rfl

theorem sound_run (h : ReflTransGen (Step providers requests) start s) : s.Sound requests := by
  induction h with
  | refl => exact sound_start
  | tail _ hstep ih => exact ih.step hstep

theorem step_left {call : ℕ} (h : 0 < (s.calls call).left) :
    ∃ s', Step providers requests s s' ∧ (s'.calls call).left < (s.calls call).left := by
  have hmoved : ∀ phase, (s.move call phase).calls call = phase :=
    fun phase => Function.update_self ..
  cases hphase : s.calls call with
  | queued =>
    cases hfind : providers.find? (fun p => p.providerId = (requests call).providerId) with
    | none => exact ⟨_, .not_found hphase hfind,
        (congrArg CallPhase.left (hmoved _)).trans_lt (by decide)⟩
    | some provider =>
      cases hinstalls : provider.installs with
      | false =>
        exact ⟨_, .status_only hphase hfind hinstalls,
          (congrArg CallPhase.left (hmoved _)).trans_lt (by decide)⟩
      | true => exact ⟨_, .install hphase hfind hinstalls,
          (congrArg CallPhase.left (hmoved _)).trans_lt (by decide)⟩
  | installing =>
    exact ⟨_, .answer (makeError .io []) hphase,
      (congrArg CallPhase.left (hmoved _)).trans_lt Nat.one_lt_two⟩
  | answered outcome =>
      exact ⟨_, .complete hphase, (congrArg CallPhase.left (hmoved _)).trans_lt Nat.one_pos⟩
  | _ =>
    rw [hphase] at h
    exact absurd h (Nat.lt_irrefl 0)

/-- One install at a time, one event for each call that returns a future, and no provider for a call
that finds the slot taken. The slot is taken exactly while a call holds it. -/
theorem installs_serialized (h : ReflTransGen (Step providers requests) start s) :
    (∀ call call', s.calls call = .installing → s.calls call' = .installing →
      call = call') ∧
      (∀ call, (s.calls call).HasFuture → s.completions call = [(requests call).taskId] ∨
        s.completions call = [] ∧
          ∃ s', Step providers requests s s' ∧ (s'.calls call).left < (s.calls call).left) ∧
      (∀ call, s.calls call = .done → s.completions call = [(requests call).taskId]) ∧
      (∀ call, (s.calls call).FoundTaken → call ∉ s.asked) ∧
      (s.installActive = true ↔ ∃ call, (s.calls call).Holding) := by
  have hsound := sound_run h
  refine ⟨fun call call' hcall hcall' => ?_, fun call hfuture => ?_, fun call hdone => ?_,
    fun call hfound hasked => ?_, hsound.slot.taken_iff⟩
  · refine hsound.slot.alone call call' ?_ ?_
    · rw [hcall]
      trivial
    · rw [hcall']
      trivial
  · have honce := hsound.once call
    by_cases hpublished : (s.calls call).published = true
    · exact .inl (honce.trans (if_pos hpublished))
    · have hleft := CallPhase.left_pos hfuture hpublished
      exact .inr ⟨honce.trans (if_neg hpublished), step_left hleft⟩
  · have honce := hsound.once call
    rw [hdone] at honce
    exact honce
  · exact hfound.not_asked (hsound.asked call hasked)

def twoRequests (call : ℕ) : InstallRequest :=
  ⟨str "fake", if call = 0 then str "a1" else str "a2", ⟨str "r", str "c"⟩⟩

def oneProvider : List UpdateProvider := [⟨str "fake", true⟩]

theorem second_turned_away : ∃ s : InstallSlot, s.calls 0 = .installing ∧ s.calls 1 = .away ∧
    s.completions 1 = [str "install-update:a2"] ∧ 1 ∉ s.asked := by
  have hrun : ReflTransGen (Step oneProvider twoRequests) start _ :=
    .head (@.claim _ _ _ 0 rfl rfl)
      (.head (@.submit _ _ _ 0 rfl) (.head (@.install _ _ _ 0 _ rfl rfl rfl)
      (.head (@.find_taken _ _ _ 1 rfl rfl) (.single (@.turn_away _ _ _ 1 rfl)))))
  obtain ⟨-, hfuture, -, hasked, -⟩ := installs_serialized hrun
  refine ⟨_, rfl, rfl, ?_, hasked 1 trivial⟩
  rcases hfuture 1 trivial with hone | ⟨-, s', -, hleft⟩
  · exact hone
  · exact absurd hleft (Nat.not_lt_zero _)

theorem taken_before_queued :
    ¬ ∀ providers requests s, ReflTransGen (Step providers requests) start s →
    (∀ call, ¬ (s.calls call).QueuedOrRunning) → s.installActive = false := by
  intro hall
  have hclaimed := hall oneProvider twoRequests _ (.single (@.claim _ _ _ 0 rfl rfl))
  refine absurd (hclaimed fun call hrunning => ?_) nofun
  by_cases heq : call = 0
  · rw [heq] at hrunning
    exact hrunning
  · have hmoved : (start.move 0 .claimed).calls call = .outside := Function.update_of_ne heq ..
    exact (congrArg CallPhase.QueuedOrRunning hmoved).mp hrunning

end InstallSlot

end DevMgr.App
