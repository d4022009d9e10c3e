import DevMgr.Runtime.DelayedScheduler
import DevMgr.Runtime.TimerThread

/-!
# The scheduler that its clients reason with

For the services that schedule, the scheduler is one queue with the handles in it. As
long as the counter of the handles has not gone round, the thread and its two
containers do what that queue does.
-/

namespace DevMgr.Runtime.TimerThread
open Run

variable {α : Type}

def Entry.timer (entry : Entry α) : Timer α := ⟨entry.due, entry.id, entry.fn⟩

namespace State

def scheduler (s : State α) : DelayedScheduler α :=
  ⟨s.queue.map Entry.timer, s.issued.length + 1⟩

variable {s s' : State α} {a : Action α} {due handle : ℕ} {fn : α}

theorem scheduler_schedule (hid : s.nextId = s.issued.length + 1) :
    (s.schedule due fn).scheduler = s.scheduler.schedule due fn := by
  have hqueue : (emplace s.queue ⟨s.nodes, due, s.nextId, fn⟩).map Entry.timer =
      (s.scheduler.schedule due fn).queue := by
    rw [emplace, DelayedScheduler.schedule, List.map_append, List.map_cons, hid]
    simp only [scheduler, List.takeWhile_map, List.dropWhile_map]
    rfl
  have hlength : (s.issued ++ [s.nextId]).length = s.issued.length + 1 := List.length_append
  change DelayedScheduler.mk ((emplace s.queue ⟨s.nodes, due, s.nextId, fn⟩).map Entry.timer)
    ((s.issued ++ [s.nextId]).length + 1) = s.scheduler.schedule due fn
  rw [hqueue, hlength]
  rfl

theorem Sound.scheduler_cancels (h : s.Sound) : s.cancels handle = s.scheduler.cancels handle := by
  rw [cancels, DelayedScheduler.cancels, Bool.eq_iff_iff, Option.isSome_iff_exists,
    decide_eq_true_eq]
  simp only [h.linked, DelayedScheduler.handles, scheduler, List.map_map, List.mem_map]
  constructor
  · rintro ⟨node, entry, hentry, hid, -⟩
    exact ⟨entry, hentry, hid⟩
  · rintro ⟨entry, hentry, hid⟩
    exact ⟨entry.node, entry, hentry, hid, rfl⟩

theorem Sound.scheduler_cancel (h : s.Sound) (handle : ℕ) :
    (s.cancel handle).scheduler = s.scheduler.cancel handle := by
  have hqueue : (s.cancel handle).queue = s.queue.filter (·.id ≠ handle) := by
    rw [State.cancel]
    cases hfound : s.index handle with
    | none =>
      symm
      apply List.filter_eq_self.mpr
      intro entry hentry
      have hother : entry.id ≠ handle := by
        intro hid
        have hsome := (h.linked handle entry.node).mpr ⟨entry, hentry, hid, rfl⟩
        rw [hfound] at hsome
        cases hsome
      exact decide_eq_true hother
    | some node =>
      obtain ⟨first, hfirst, hid, hnode⟩ := (h.linked handle node).mp hfound
      apply List.filter_congr
      intro entry hentry
      have hsame : entry.node = node ↔ entry.id = handle := by
        constructor
        · intro hentryNode
          have heq := List.inj_on_of_nodup_map h.nodup hentry hfirst (hentryNode.trans hnode.symm)
          rw [heq, hid]
        · intro hentryId
          have hsome := (h.linked handle entry.node).mpr ⟨entry, hentry, hentryId, rfl⟩
          exact Option.some.inj (hsome.symm.trans hfound)
      simp [hsame]
  have hissued : (s.cancel handle).issued = s.issued := by
    rw [State.cancel]
    split <;> rfl
  rw [scheduler, DelayedScheduler.cancel, hqueue, hissued]
  simp only [scheduler, List.filter_map]
  rfl

theorem scheduler_collect : s.collect.worker.ahead.map Entry.timer = s.scheduler.ready s.clock ∧
    s.collect.scheduler = s.scheduler.collect s.clock := by
  have hready : (takeReady s.clock s.queue s.index).1 = s.queue.takeWhile _ :=
    takeReady_ready s.index s.clock
  have hqueue : (takeReady s.clock s.queue s.index).2.1 = s.queue.dropWhile _ :=
    takeReady_queue s.index s.clock
  constructor
  · change (takeReady s.clock s.queue s.index).1.map Entry.timer = _
    rw [hready, DelayedScheduler.ready, scheduler, List.takeWhile_map]
    rfl
  · change DelayedScheduler.mk ((takeReady s.clock s.queue s.index).2.1.map Entry.timer) _ = _
    rw [hqueue, DelayedScheduler.collect, scheduler, List.dropWhile_map]
    rfl

/-- Every step is one of the scheduler that the clients reason with, or changes nothing for them. -/
def Simulates (s : State α) (a : Action α) (s' : State α) : Prop :=
  (∃ due fn, a = .schedule due fn ∧ s'.scheduler = s.scheduler.schedule due fn) ∨
  (∃ handle, a = .cancel handle ∧ s.cancels handle = s.scheduler.cancels handle ∧
    s'.scheduler = s.scheduler.cancel handle) ∨
  (s'.worker.ahead.map Entry.timer = s.scheduler.ready s.clock ∧
    s'.scheduler = s.scheduler.collect s.clock) ∨
  s'.scheduler = s.scheduler

theorem Sound.simulates (h : s.Sound) (hstep : s.step a = some s') (hrange : s'.InRange) :
    s.Simulates a s' := by
  obtain ⟨due, fn, ha, rfl⟩ | ⟨handle, ha, rfl⟩ | ⟨-, rfl⟩ | ⟨entry, rest, -, rfl⟩ |
    haside := step_cases hstep
  · have hlength : (s.schedule due fn).issued.length = s.issued.length + 1 := List.length_append
    rw [InRange, hlength] at hrange
    exact .inl ⟨due, fn, ha, scheduler_schedule (by rw [h.next, Nat.mod_eq_of_lt hrange])⟩
  · exact .inr (.inl ⟨handle, ha, h.scheduler_cancels, h.scheduler_cancel handle⟩)
  · exact .inr (.inr (.inl scheduler_collect))
  · exact .inr (.inr (.inr rfl))
  · rw [haside.same]
    exact .inr (.inr (.inr rfl))

theorem simulates_run (actions : List (Action α)) :
    MeetsSome step (fun s a s' => s'.InRange → s.Simulates a s') start actions :=
  meetsSome_of_sound (fun _ _ _ hs hstep hrange _ => hs.simulates hstep hrange) actions

end State

end DevMgr.Runtime.TimerThread
