import DevMgr.App.Refresh
import DevMgr.Runtime.Outstanding
import Mathlib.Logic.Function.Basic
import Mathlib.Logic.Relation

/-!
# The hotplug service

The monitor's thread puts the last event of each device among the pending ones and
has a flush scheduled for it; the timer's thread flushes. `stop` cancels what it
can and waits for the rest. The scheduler has a lock of its own, so the timer's
thread takes out what is due also while the service is locked.
-/

open DevMgr.Core

namespace DevMgr.App
open Bytes Relation DevMgr.Runtime

namespace HotplugService

abbrev Arrival := App.HotplugEvent × ℕ

structure PendingEvent where
  arrival : Arrival
  handle : ℕ

inductive Flush where
  | taking (handle : ℕ) (id : Str)
  | applying (handle : ℕ) (arrival : Option Arrival)
  | resolving (handle : ℕ)
  | notifying

/-- Who holds the service's lock for longer than a step: an `onEvent` between `cancel` and
`schedule`, or a `stop` with the handles it has still to cancel. -/
inductive Holder where
  | nobody
  | reader (id : Str)
  | stop (call : ℕ) (left : List ℕ)

inductive StopPhase where
  | outside
  | monitorStopped
  | cancelling
  | waiting
  | returned

end HotplugService

open HotplugService in
/-- `batch` is what the timer's thread has taken out of the queue and has still to call. Beside the
service stand the events received and applied and the handles whose schedule has been resolved. -/
structure HotplugService where
  now : ℕ
  timer : DelayedScheduler Str
  batch : List (ℕ × Str)
  flush : Option Flush
  holder : Holder
  stops : ℕ → StopPhase
  monitoring : Bool
  pending : StringMap PendingEvent
  outstandingFlushes : ℤ
  model : Model
  received : List App.HotplugEvent
  applied : List Arrival
  resolved : List ℕ

namespace HotplugService

def start (model : Model) : HotplugService where
  now := 0
  timer := .start
  batch := []
  flush := none
  holder := .nobody
  stops _ := .outside
  monitoring := true
  pending := ∅
  outstandingFlushes := 0
  model
  received := []
  applied := []
  resolved := []

section Updates
variable (s : HotplugService)

def cancel (handle : ℕ) : HotplugService :=
  if s.timer.cancels handle then
    { s with
      timer := s.timer.cancel handle
      outstandingFlushes := s.outstandingFlushes - 1
      resolved := handle :: s.resolved }
  else s

def arrive (event : App.HotplugEvent) : Arrival := (event, s.received.length)

def onEvent (event : App.HotplugEvent) : HotplugService :=
  let id := event.device.id
  match s.pending[id]? with
  | some pending =>
    { s.cancel pending.handle with
      pending := s.pending.insert id ⟨s.arrive event, pending.handle⟩
      received := s.received ++ [event]
      holder := .reader id }
  | none =>
    { s with
      pending := s.pending.insert id ⟨s.arrive event, 0⟩
      received := s.received ++ [event]
      holder := .reader id }

def schedule (due : ℕ) (id : Str) (pending : PendingEvent) : HotplugService :=
  { s with
    outstandingFlushes := s.outstandingFlushes + 1
    timer := s.timer.schedule due id
    pending := s.pending.insert id { pending with handle := s.timer.nextId }
    holder := .nobody }

def dequeue : HotplugService :=
  { s with
    timer := s.timer.collect s.now
    batch := (s.timer.ready s.now).map fun t => (t.id, t.fn) }

def take (handle : ℕ) (id : Str) : HotplugService :=
  { s with
    flush := some (.applying handle (s.pending[id]?.map (·.arrival)))
    pending := s.pending.erase id }

def apply (handle : ℕ) : Option Arrival → HotplugService
  | some arrival =>
    { s with
      flush := some (.resolving handle)
      model := (applyDelta s.model arrival.1).2
      applied := s.applied ++ [arrival] }
  | none => { s with flush := some (.resolving handle) }

def resolve (handle : ℕ) : HotplugService :=
  { s with
    flush := some .notifying
    outstandingFlushes := s.outstandingFlushes - 1
    resolved := handle :: s.resolved }

def goTo (call : ℕ) (phase : StopPhase) : HotplugService :=
  { s with stops := Function.update s.stops call phase }

def pendingHandles : List ℕ := s.pending.toList.map fun p => p.2.handle

end Updates

inductive Step (window : ℕ) : HotplugService → HotplugService → Prop
  | tick {s} : Step window s { s with now := s.now + 1 }
  | onEvent {s event} (hmonitoring : s.monitoring = true) (hfree : s.holder = .nobody) :
      Step window s (s.onEvent event)
  | schedule {s id pending asked} (hreader : s.holder = .reader id)
      (hpending : s.pending[id]? = some pending)
      (hasked : asked ≤ s.now) : Step window s (s.schedule (asked + window) id pending)
  | dequeue {s} (hbatch : s.batch = []) (hidle : s.flush = none) : Step window s s.dequeue
  | call {s handle id rest} (hbatch : s.batch = (handle, id) :: rest) (hidle : s.flush = none) :
      Step window s { s with batch := rest, flush := some (.taking handle id) }
  | take {s handle id} (hflush : s.flush = some (.taking handle id)) (hfree : s.holder = .nobody) :
      Step window s (s.take handle id)
  | apply {s handle arrival} (hflush : s.flush = some (.applying handle arrival)) :
      Step window s (s.apply handle arrival)
  | resolve {s handle} (hflush : s.flush = some (.resolving handle)) (hfree : s.holder = .nobody) :
      Step window s (s.resolve handle)
  | notify {s} (hflush : s.flush = some .notifying) : Step window s { s with flush := none }
  | stop_monitor {s call} (houtside : s.stops call = .outside)
      (hreader : ∀ id, s.holder ≠ .reader id) :
      Step window s { s.goTo call .monitorStopped with monitoring := false }
  | stop_lock {s call left} (hstopped : s.stops call = .monitorStopped) (hfree : s.holder = .nobody)
      (hleft : left.Perm s.pendingHandles) :
      Step window s { s.goTo call .cancelling with holder := .stop call left }
  | stop_cancel {s call handle left} (hholder : s.holder = .stop call (handle :: left)) :
      Step window s { s.cancel handle with holder := .stop call left }
  | stop_clear {s call} (hholder : s.holder = .stop call []) :
      Step window s { s.goTo call .waiting with pending := ∅, holder := .nobody }
  | stop_return {s call} (hwaiting : s.stops call = .waiting) (hfree : s.holder = .nobody)
      (hdone : s.outstandingFlushes = 0) : Step window s (s.goTo call .returned)

variable {s s' : HotplugService} {window : ℕ}

def Flush.handles : Flush → List ℕ
  | .taking handle _ | .applying handle _ | .resolving handle => [handle]
  | .notifying => []

/-- The schedules neither cancelled nor finished. -/
def unresolved (s : HotplugService) : List ℕ :=
  s.timer.handles ++ (s.batch.map (·.1) ++ (s.flush.map Flush.handles).getD [])

structure Accounted (s : HotplugService) : Prop where
  handles : (0 :: (s.unresolved ++ s.resolved)).Perm (List.range s.timer.nextId)
  count : s.outstandingFlushes = s.unresolved.length

theorem accounted_start (model : Model) : (start model).Accounted := ⟨.refl _, rfl⟩

theorem accounted_iff :
    s.Accounted ↔ Outstanding s.unresolved s.resolved s.timer.nextId s.outstandingFlushes :=
  ⟨fun h => ⟨h.handles, h.count⟩, fun h => ⟨h.handles, h.count⟩⟩

theorem Accounted.timer_nodup (h : s.Accounted) : s.timer.handles.Nodup :=
  (List.nodup_append.mp (List.nodup_append.mp (accounted_iff.mp h).nodup).1).1

theorem Accounted.keep (h : s.Accounted) (hunresolved : s'.unresolved.Perm s.unresolved)
    (hresolved : s'.resolved = s.resolved) (hnext : s'.timer.nextId = s.timer.nextId)
    (hcount : s'.outstandingFlushes = s.outstandingFlushes) : s'.Accounted := by
  rw [accounted_iff, hresolved, hnext, hcount]
  exact (accounted_iff.mp h).perm hunresolved

theorem Accounted.settle (h : s.Accounted) (handle : ℕ)
    (hunresolved : s.unresolved.Perm (handle :: s'.unresolved))
    (hresolved : s'.resolved = handle :: s.resolved) (hnext : s'.timer.nextId = s.timer.nextId)
    (hcount : s'.outstandingFlushes = s.outstandingFlushes - 1) : s'.Accounted := by
  rw [accounted_iff, hresolved, hnext, hcount]
  exact (accounted_iff.mp h).settle hunresolved

theorem Accounted.cancel (h : s.Accounted) (handle : ℕ) : (s.cancel handle).Accounted := by
  unfold HotplugService.cancel
  split_ifs with hcancels
  · refine h.settle handle ?_ rfl rfl rfl
    exact (DelayedScheduler.cancel_perm h.timer_nodup hcancels).append_right _
  · exact h

theorem Accounted.onEvent (h : s.Accounted) (event : App.HotplugEvent) :
    (s.onEvent event).Accounted := by
  unfold HotplugService.onEvent
  dsimp only
  split
  · rename_i pending _
    exact ⟨(h.cancel pending.handle).handles, (h.cancel pending.handle).count⟩
  · exact ⟨h.handles, h.count⟩

theorem Accounted.schedule (h : s.Accounted) (due : ℕ) (id : Str) (pending : PendingEvent) :
    (s.schedule due id pending).Accounted := by
  have hunresolved : (s.schedule due id pending).unresolved.Perm (s.timer.nextId :: s.unresolved) :=
    (DelayedScheduler.schedule_handles due id).append_right _
  exact accounted_iff.mpr ((accounted_iff.mp h).schedule hunresolved)

theorem dequeue_unresolved (hbatch : s.batch = []) (hidle : s.flush = none) :
    s.dequeue.unresolved.Perm s.unresolved := by
  have hbefore : s.unresolved = s.timer.handles := by simp [unresolved, hbatch, hidle]
  have hafter : s.dequeue.unresolved = (s.timer.collect s.now).handles ++ (s.timer.ready s.now).map
      (·.id) := by
    simp [unresolved, dequeue, hidle, Function.comp_def]
  rw [hbefore, hafter]
  exact (DelayedScheduler.collect_handles s.now).symm

theorem Accounted.step (h : s.Accounted) (hstep : Step window s s') : s'.Accounted := by
  cases hstep with
  | onEvent hmonitoring hfree => exact h.onEvent _
  | schedule hreader hpending hasked => exact h.schedule _ _ _
  | dequeue hbatch hidle => exact h.keep (dequeue_unresolved hbatch hidle) rfl rfl rfl
  | @call handle id rest hbatch hidle =>
    have hbefore : s.unresolved = s.timer.handles ++ handle :: rest.map (·.1) := by
      simp [unresolved, hbatch, hidle]
    refine h.keep ?_ rfl rfl rfl
    rw [hbefore]
    exact (List.perm_append_singleton handle (rest.map (·.1))).append_left s.timer.handles
  | take hflush hfree =>
    refine h.keep (.of_eq ?_) rfl rfl rfl
    simp [unresolved, take, hflush, Flush.handles]
  | @apply handle arrival hflush =>
    have hbefore : s.unresolved = s.timer.handles ++ (s.batch.map (·.1) ++ [handle]) := by
      simp [unresolved, hflush, Flush.handles]
    cases arrival with
    | none => exact h.keep (.of_eq hbefore.symm) rfl rfl rfl
    | some arrival => exact h.keep (.of_eq hbefore.symm) rfl rfl rfl
  | @resolve handle hflush hfree =>
    have hbefore : s.unresolved = (s.timer.handles ++ s.batch.map (·.1)) ++ [handle] := by
      simp [unresolved, hflush, Flush.handles]
    have hafter : (s.resolve handle).unresolved = s.timer.handles ++ s.batch.map (·.1) := by
      simp [unresolved, resolve, Flush.handles]
    refine h.settle handle ?_ rfl rfl rfl
    rw [hbefore, hafter]
    exact List.perm_append_singleton ..
  | notify hflush =>
    refine h.keep (.of_eq ?_) rfl rfl rfl
    simp [unresolved, hflush, Flush.handles]
  | stop_cancel hholder => exact ⟨(h.cancel _).handles, (h.cancel _).count⟩
  | _ => exact ⟨h.handles, h.count⟩

structure Stopping (s : HotplugService) : Prop where
  stopped : ∀ call, s.stops call ≠ .outside → s.monitoring = false
  reader : ∀ id, s.holder = .reader id → s.monitoring = true
  locked : ∀ call left, s.holder = .stop call left → s.stops call ≠ .outside
  cleared : ∀ call, s.stops call = .waiting ∨ s.stops call = .returned → s.pending = ∅

theorem stopping_start (model : Model) : (start model).Stopping :=
  ⟨fun _ h => absurd rfl h, nofun, nofun, fun _ h => h.elim nofun nofun⟩

theorem cancel_eq (handle : ℕ) : ∃ timer outstandingFlushes resolved,
    s.cancel handle = { s with timer, outstandingFlushes, resolved } := by
  unfold cancel
  split_ifs with hcancels
  · exact ⟨_, _, _, rfl⟩
  · exact ⟨_, _, _, rfl⟩

theorem goTo_self (call : ℕ) (phase : StopPhase) : (s.goTo call phase).stops call = phase :=
  Function.update_self ..

theorem goTo_other {call call' : ℕ} (h : call ≠ call') (phase : StopPhase) :
    (s.goTo call' phase).stops call = s.stops call := Function.update_of_ne h ..

theorem Stopping.goTo (h : s.Stopping) {call : ℕ} {phase : StopPhase} (hphase : phase ≠ .outside)
    (hmonitoring : s.monitoring = false)
    (hcleared : phase = .waiting ∨ phase = .returned → s.pending = ∅) :
    (s.goTo call phase).Stopping where
  stopped _ _ := hmonitoring
  reader := h.reader
  locked call' left hholder := (Function.forall_update_iff s.stops fun call' phase =>
    s.holder = .stop call' left → phase ≠ .outside).mpr
    ⟨fun _ => hphase, fun call' _ => h.locked call' left⟩ call' hholder
  cleared := (Function.forall_update_iff s.stops fun _ phase =>
    phase = .waiting ∨ phase = .returned → s.pending = ∅).mpr ⟨hcleared,
    fun call' _ => h.cleared call'⟩

theorem onEvent_eq (event : App.HotplugEvent) : ∃ timer outstandingFlushes resolved pending,
    s.onEvent event = { s with
      timer, outstandingFlushes, resolved, pending
      received := s.received ++ [event]
      holder := .reader event.device.id } := by
  unfold onEvent
  dsimp only
  split
  · rename_i pending _
    obtain ⟨timer, outstandingFlushes, resolved, heq⟩ := s.cancel_eq pending.handle
    rw [heq]
    exact ⟨_, _, _, _, rfl⟩
  · exact ⟨_, _, _, _, rfl⟩

theorem Stopping.outside (h : s.Stopping) (hmonitoring : s.monitoring = true) (call : ℕ) :
    s.stops call = .outside := by
  by_contra hstopped
  exact absurd (hmonitoring.symm.trans (h.stopped call hstopped)) nofun

theorem Stopping.of_monitoring (h : s.Stopping) (hmonitoring : s.monitoring = true)
    (hstops : s'.stops = s.stops)
    (hmonitoring' : s'.monitoring = true) (hholder : ∀ call left, s'.holder ≠ .stop call left) :
    s'.Stopping := by
  have houtside : ∀ call, s'.stops call = .outside :=
    fun call => (congrFun hstops call).trans (h.outside hmonitoring call)
  refine ⟨fun call hcall => absurd (houtside call) hcall, fun _ _ => hmonitoring',
    fun call left hcall => absurd hcall (hholder call left), fun call hcall => ?_⟩
  rw [houtside call] at hcall
  exact hcall.elim nofun nofun

theorem Stopping.step (h : s.Stopping) (hstep : Step window s s') : s'.Stopping := by
  cases hstep with
  | @onEvent event hmonitoring hfree =>
    obtain ⟨timer, outstandingFlushes, resolved, pending, heq⟩ := s.onEvent_eq event
    rw [heq]
    exact h.of_monitoring hmonitoring rfl hmonitoring nofun
  | schedule hreader hpending hasked =>
    exact h.of_monitoring (h.reader _ hreader) rfl (h.reader _ hreader) nofun
  | @take handle id hflush hfree =>
    refine ⟨h.stopped, h.reader, h.locked, fun call hcall => ?_⟩
    change s.pending.erase id = ∅
    rw [h.cleared call hcall]
    exact Std.ExtTreeMap.erase_empty
  | @apply handle arrival hflush =>
    cases arrival with
    | none => exact ⟨h.stopped, h.reader, h.locked, h.cleared⟩
    | some arrival => exact ⟨h.stopped, h.reader, h.locked, h.cleared⟩
  | @stop_monitor call houtside hreader =>
    have hmonitorless : ({ s with monitoring := false } : HotplugService).Stopping :=
      ⟨fun _ _ => rfl, fun id hid => absurd hid (hreader id), h.locked, h.cleared⟩
    exact hmonitorless.goTo nofun rfl (fun hphase => hphase.elim nofun nofun)
  | @stop_lock call left hstopped hfree hleft =>
    have hmonitoring : s.monitoring = false := h.stopped call (by rw [hstopped]; exact nofun)
    have hmoved : (s.goTo call .cancelling).Stopping := h.goTo nofun hmonitoring fun hphase =>
      hphase.elim nofun nofun
    refine ⟨hmoved.stopped, nofun, fun call' left' hholder => ?_, hmoved.cleared⟩
    cases hholder
    change (s.goTo call .cancelling).stops call ≠ .outside
    rw [goTo_self]
    exact nofun
  | @stop_cancel call handle left hholder =>
    obtain ⟨timer, outstandingFlushes, resolved, heq⟩ := s.cancel_eq handle
    rw [heq]
    refine ⟨h.stopped, nofun, fun call' left' hholder' => ?_, h.cleared⟩
    cases hholder'
    exact h.locked call _ hholder
  | @stop_clear call hholder =>
    have hempty : ({ s with pending := ∅, holder := .nobody } : HotplugService).Stopping :=
      ⟨h.stopped, nofun, nofun, fun _ _ => rfl⟩
    exact hempty.goTo nofun (h.stopped call (h.locked call _ hholder)) fun _ => rfl
  | @stop_return call hwaiting hfree hdone =>
    have hmonitoring : s.monitoring = false := h.stopped call (by rw [hwaiting]; exact nofun)
    exact h.goTo nofun hmonitoring fun _ => h.cleared call (.inl hwaiting)
  | _ => exact ⟨h.stopped, h.reader, h.locked, h.cleared⟩

structure Rested (s : HotplugService) : Prop where
  monitoring : s.monitoring = false
  unresolved : s.unresolved = []
  idle : s.flush = none

theorem Rested.step (h : s.Rested) (hstopping : s.Stopping) (hstep : Step window s s') :
    s'.Rested := by
  have htimer : s.timer.handles = [] := (List.append_eq_nil_iff.mp h.unresolved).1
  have hbatch : s.batch = [] := by
    have hrest := (List.append_eq_nil_iff.mp h.unresolved).2
    exact List.map_eq_nil_iff.mp (List.append_eq_nil_iff.mp hrest).1
  cases hstep with
  | onEvent hmonitoring hfree => exact absurd (hmonitoring.symm.trans h.monitoring) nofun
  | schedule hreader hpending hasked =>
      exact absurd ((hstopping.reader _ hreader).symm.trans h.monitoring) nofun
  | dequeue hbatch hidle =>
    have hnil := dequeue_unresolved hbatch hidle
    rw [h.unresolved] at hnil
    exact ⟨h.monitoring, hnil.eq_nil, h.idle⟩
  | call hcalled hidle => exact absurd (hbatch.symm.trans hcalled) nofun
  | take hflush hfree => exact absurd (h.idle.symm.trans hflush) nofun
  | apply hflush => exact absurd (h.idle.symm.trans hflush) nofun
  | resolve hflush hfree => exact absurd (h.idle.symm.trans hflush) nofun
  | notify hflush => exact absurd (h.idle.symm.trans hflush) nofun
  | @stop_cancel call handle left hholder =>
    have hkept : s.cancel handle = s := if_neg (by simp [DelayedScheduler.cancels, htimer])
    rw [hkept]
    exact ⟨h.monitoring, h.unresolved, h.idle⟩
  | stop_monitor houtside hreader => exact ⟨rfl, h.unresolved, h.idle⟩
  | _ => exact ⟨h.monitoring, h.unresolved, h.idle⟩

/-- A `stop` that returns does not find the timer's thread about to notify. -/
def Calm (s s' : HotplugService) : Prop :=
  ∀ call, s.stops call = .waiting → s'.stops call = .returned →
  s.flush = some .notifying → False

theorem idle_of_resolved (h : s.unresolved = [])
    (hnotifying : s.flush = some .notifying → False) : s.flush = none := by
  have hflush := (List.append_eq_nil_iff.mp (List.append_eq_nil_iff.mp h).2).2
  cases hphase : s.flush with
  | none => rfl
  | some phase =>
    rw [hphase] at hflush
    cases phase with
    | notifying => exact (hnotifying hphase).elim
    | _ => cases hflush

theorem rested_step (hstopping : s.Stopping) (haccounted : s.Accounted)
    (h : ∀ call, s.stops call = .returned → s.Rested) (hstep : Step window s s')
    (hcalm : s.Calm s') :
    ∀ call, s'.stops call = .returned → s'.Rested := by
  intro call hreturned
  by_cases hbefore : s.stops call = .returned
  · exact (h call hbefore).step hstopping hstep
  · have hmoved : ∀ call' phase, phase ≠ .returned →
        (s.goTo call' phase).stops call ≠ .returned := by
      intro call' phase hphase
      by_cases heq : call = call'
      · rw [heq, goTo_self]
        exact hphase
      · rw [goTo_other heq]
        exact hbefore
    cases hstep with
    | onEvent hmonitoring hfree =>
      obtain ⟨timer, outstandingFlushes, resolved, pending, heq⟩ := s.onEvent_eq _
      rw [heq] at hreturned
      exact absurd hreturned hbefore
    | @apply handle arrival hflush =>
      cases arrival with
      | none => exact absurd hreturned hbefore
      | some arrival => exact absurd hreturned hbefore
    | stop_monitor houtside hreader => exact absurd hreturned (hmoved _ _ nofun)
    | stop_lock hstopped hfree hleft => exact absurd hreturned (hmoved _ _ nofun)
    | @stop_cancel call' handle left hholder =>
      obtain ⟨timer, outstandingFlushes, resolved, heq⟩ := s.cancel_eq handle
      rw [heq] at hreturned
      exact absurd hreturned hbefore
    | stop_clear hholder => exact absurd hreturned (hmoved _ _ nofun)
    | @stop_return call' hwaiting hfree hdone =>
      have hself : call = call' := by
        by_contra hne
        exact hbefore ((goTo_other hne _).symm.trans hreturned)
      have hnil := (accounted_iff.mp haccounted).none_left hdone
      subst hself
      exact ⟨hstopping.stopped call (by rw [hwaiting]; exact nofun), hnil,
        idle_of_resolved hnil (hcalm call hwaiting hreturned)⟩
    | _ => exact absurd hreturned hbefore

theorem sound_run {model : Model} (h : ReflTransGen (Step window) (start model) s) :
    s.Accounted ∧ s.Stopping := by
  induction h with
  | refl => exact ⟨accounted_start model, stopping_start model⟩
  | tail _ hstep ih => exact ⟨ih.1.step hstep, ih.2.step hstep⟩

theorem rested_run {model : Model}
    (h : ReflTransGen (fun s s' => Step window s s' ∧ s.Calm s') (start model) s) :
    (s.Accounted ∧ s.Stopping) ∧ ∀ call, s.stops call = .returned → s.Rested := by
  induction h with
  | refl => exact ⟨⟨accounted_start model, stopping_start model⟩, nofun⟩
  | tail _ hstep ih =>
    obtain ⟨⟨haccounted, hstopping⟩, hrested⟩ := ih
    exact ⟨⟨haccounted.step hstep.1, hstopping.step hstep.1⟩,
      rested_step hstopping haccounted hrested hstep.1 hstep.2⟩

/-- The counter is the number of schedules neither cancelled nor finished, each is resolved once,
and when a `stop` has returned, all are: nothing is pending, no flush runs, and none will. -/
theorem stop_bars {model : Model} (h : ReflTransGen (Step window) (start model) s) :
    s.outstandingFlushes = s.unresolved.length ∧
      (∀ handle, 0 < handle → handle < s.timer.nextId →
        s.unresolved.count handle + s.resolved.count handle = 1) ∧
      (ReflTransGen (fun s s' => Step window s s' ∧ s.Calm s') (start model) s →
        ∀ call, s.stops call = .returned → s.pending = ∅ ∧
          (∀ handle, 0 < handle → handle < s.timer.nextId → s.resolved.count handle = 1) ∧
          ∀ s', ReflTransGen (Step window) s s' → s'.flush = none ∧ s'.unresolved = []) := by
  obtain ⟨haccounted, hstopping⟩ := sound_run h
  have hcount : ∀ handle, 0 < handle → handle < s.timer.nextId →
      s.unresolved.count handle + s.resolved.count handle = 1 := fun handle hpos hlt =>
    (accounted_iff.mp haccounted).once hpos hlt
  refine ⟨haccounted.count, hcount, fun hrun call hreturned => ?_⟩
  have hrested := (rested_run hrun).2 call hreturned
  refine ⟨hstopping.cleared call (.inr hreturned), fun handle hpos hlt => ?_,
    fun s' hlater => ?_⟩
  · have hone := hcount handle hpos hlt
    rw [hrested.unresolved] at hone
    simpa using hone
  · have hkept : s'.Stopping ∧ s'.Rested := by
      induction hlater with
      | refl => exact ⟨hstopping, hrested⟩
      | tail _ hstep ih => exact ⟨ih.1.step hstep, ih.2.step ih.1 hstep⟩
    exact ⟨hkept.2.idle, hkept.2.unresolved⟩

section Runs
open Session (keyboard unplugged)

theorem stop_cancels : ∃ s : HotplugService, s.stops 0 = .returned ∧ s.pending = ∅ ∧
    s.resolved = [1] := by
  have hrun : ReflTransGen (fun s s' => Step 1 s s' ∧ s.Calm s') (start ∅) _ :=
    .head ⟨@.onEvent _ _ unplugged rfl rfl, nofun⟩
      (.head ⟨@.schedule _ _ _ _ 0 rfl Std.ExtTreeMap.getElem?_insert_self (Nat.zero_le _),
        nofun⟩
        (.head ⟨@.stop_monitor _ _ 0 rfl nofun, nofun⟩
          (.head ⟨@.stop_lock _ _ 0 [1] rfl rfl (by decide), nofun⟩
            (.head ⟨@.stop_cancel _ _ 0 _ _ rfl, nofun⟩
              (.head ⟨@.stop_clear _ _ 0 rfl, nofun⟩
                (.single ⟨@.stop_return _ _ 0 rfl rfl rfl, fun _ _ _ => nofun⟩))))))
  have hbars := (stop_bars (hrun.lift id fun _ _ h => h.1)).2.2 hrun 0 rfl
  exact ⟨_, rfl, hbars.1, rfl⟩

/-- A stop returns between the last unlock of the flush and its notification. -/
theorem stop_returns_beside_flush :
    ¬ ∀ window model s, ReflTransGen (Step window) (start model) s →
    ∀ call, s.stops call = .returned → s.flush = none := by
  intro hall
  have hrun : ReflTransGen (Step 1) (start ∅) _ :=
    .head (@.onEvent _ _ unplugged rfl rfl)
      (.head (@.schedule _ _ _ _ 0 rfl Std.ExtTreeMap.getElem?_insert_self (Nat.zero_le _))
        (.head .tick (.head (.dequeue rfl rfl) (.head (.call rfl rfl) (.head (.take rfl rfl)
          (.head (.apply rfl) (.head (@.resolve _ _ 1 rfl rfl)
            (.head (@.stop_monitor _ _ 0 rfl nofun)
              (.head (@.stop_lock _ _ 0 [] rfl rfl (by decide))
                (.head (@.stop_clear _ _ 0 rfl)
                  (.single (@.stop_return _ _ 0 rfl rfl rfl))))))))))))
  exact absurd (hall 1 ∅ _ hrun 0 rfl) nofun

end Runs

end HotplugService

end DevMgr.App
