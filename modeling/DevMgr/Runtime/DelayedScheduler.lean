import Mathlib.Data.List.Basic
import Mathlib.Data.Nat.Notation

/-!
# The delayed scheduler

A queue of callbacks ordered by the time they are due, each with a handle. A
callback is cancelled only as long as it is queued.
-/

namespace DevMgr.Runtime

structure Timer (α : Type) where
  due : ℕ
  id : ℕ
  fn : α

/-- `index_` holds the handles of the queue, so the queue says what it does. -/
structure DelayedScheduler (α : Type) where
  queue : List (Timer α)
  nextId : ℕ

namespace DelayedScheduler
variable {α : Type}

def start : DelayedScheduler α := ⟨[], 1⟩

variable (s : DelayedScheduler α)

def handles : List ℕ := s.queue.map (·.id)

def schedule (due : ℕ) (fn : α) : DelayedScheduler α where
  queue := s.queue.takeWhile (·.due ≤ due) ++ ⟨due, s.nextId, fn⟩ :: s.queue.dropWhile
      (·.due ≤ due)
  nextId := s.nextId + 1

def cancels (handle : ℕ) : Bool := handle ∈ s.handles

def cancel (handle : ℕ) : DelayedScheduler α :=
  { s with queue := s.queue.filter (·.id ≠ handle) }

def ready (now : ℕ) : List (Timer α) := s.queue.takeWhile (·.due ≤ now)

def collect (now : ℕ) : DelayedScheduler α :=
  { s with queue := s.queue.dropWhile (·.due ≤ now) }

variable {s}

theorem schedule_perm (due : ℕ) (fn : α) :
    (s.schedule due fn).queue.Perm (⟨due, s.nextId, fn⟩ :: s.queue) := by
  have h := List.takeWhile_append_dropWhile (p := fun t : Timer α => t.due ≤ due) (l := s.queue)
  calc
    (s.schedule due fn).queue.Perm (⟨due, s.nextId, fn⟩ ::
        (s.queue.takeWhile (·.due ≤ due) ++ s.queue.dropWhile (·.due ≤ due))) :=
          List.perm_middle
    _ = ⟨due, s.nextId, fn⟩ :: s.queue := by rw [h]

theorem schedule_handles (due : ℕ) (fn : α) :
    (s.schedule due fn).handles.Perm (s.nextId :: s.handles) :=
  (schedule_perm due fn).map _

theorem ready_append_collect (now : ℕ) : s.ready now ++ (s.collect now).queue = s.queue :=
  List.takeWhile_append_dropWhile

theorem collect_handles (now : ℕ) :
    s.handles.Perm ((s.collect now).handles ++ (s.ready now).map (·.id)) := by
  have hsplit : s.handles = (s.ready now).map (·.id) ++ (s.collect now).handles := by
    rw [handles, ← ready_append_collect now, List.map_append]
    rfl
  rw [hsplit]
  exact List.perm_append_comm

theorem mem_cancel {handle : ℕ} {t : Timer α} : t ∈ (s.cancel handle).queue ↔
    t ∈ s.queue ∧ t.id ≠ handle := by
  simp [cancel]

theorem cancel_handles (handle : ℕ) :
    (s.cancel handle).handles = s.handles.filter (· ≠ handle) := by
  simp [cancel, handles, List.filter_map, Function.comp_def]

theorem cancel_perm (hnodup : s.handles.Nodup) {handle : ℕ} (h : s.cancels handle = true) :
    s.handles.Perm (handle :: (s.cancel handle).handles) := by
  have herase : s.handles.erase handle = s.handles.filter (· ≠ handle) := by
    rw [hnodup.erase_eq_filter]
    exact List.filter_congr fun id _ => by by_cases heq : id = handle <;> simp [heq]
  rw [cancel_handles, ← herase]
  exact List.perm_cons_erase (of_decide_eq_true h)

end DelayedScheduler

end DevMgr.Runtime
