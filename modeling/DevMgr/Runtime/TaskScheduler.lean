import Mathlib.Data.List.Nodup
import Mathlib.Data.Nat.Notation
import Mathlib.Logic.Function.Basic
import Mathlib.Logic.Relation

/-!
# The task scheduler

A queue of jobs under one mutex, a fixed number of workers that sleep on a
condition variable, and a destructor that drains the queue and joins them. A
submit takes the mutex once; its notification comes after the mutex is released.
Jobs are numbered in the order of the submit calls.
-/

namespace DevMgr.Runtime
open Relation

inductive Worker where
  | checking
  | asleep
  | running (job : ℕ)
  | left
  deriving DecidableEq

inductive Destructor where
  | unstarted
  | notifying
  | joining
  | returned
  deriving DecidableEq

/-- `notifies` counts the submits that have queued their job and not yet notified. Of the jobs,
`accepted`, `refused`, `started` and `completed` list the numbers in their order. -/
structure TaskScheduler (n : ℕ) where
  queue : List ℕ
  stopping : Bool
  workers : Fin n → Worker
  destructor : Destructor
  notifies : ℕ
  next : ℕ
  accepted : List ℕ
  refused : List ℕ
  started : List ℕ
  completed : List ℕ

namespace TaskScheduler

def workerCount (threadCount : ℕ) : ℕ := if threadCount = 0 then 1 else threadCount

def start {n : ℕ} : TaskScheduler n :=
  ⟨[], false, fun _ => .checking, .unstarted, 0, 0, [], [], [], []⟩

variable {n : ℕ}

section Updates
variable (s : TaskScheduler n)

def put (w : Fin n) (worker : Worker) : TaskScheduler n :=
  { s with workers := Function.update s.workers w worker }

def refuse : TaskScheduler n := { s with next := s.next + 1, refused := s.refused ++ [s.next] }

def accept : TaskScheduler n :=
  { s with
    queue := s.queue ++ [s.next]
    notifies := s.notifies + 1
    next := s.next + 1
    accepted := s.accepted ++ [s.next] }

def take (w : Fin n) (job : ℕ) (rest : List ℕ) : TaskScheduler n :=
  { s.put w (.running job) with queue := rest, started := s.started ++ [job] }

def finish (w : Fin n) (job : ℕ) : TaskScheduler n :=
  { s.put w .checking with completed := s.completed ++ [job] }

end Updates

def woken : Worker → Worker
  | .asleep => .checking
  | worker => worker

inductive Step : TaskScheduler n → TaskScheduler n → Prop
  | submit_refused {s} (hstopping : s.stopping = true) : Step s s.refuse
  | submit {s} (hstopping : s.stopping = false) : Step s s.accept
  | notify_one {s w} (hnotifies : 0 < s.notifies) (hasleep : s.workers w = .asleep) :
      Step s { s.put w .checking with notifies := s.notifies - 1 }
  | notify_nobody {s} (hnotifies : 0 < s.notifies) (hawake : ∀ w, s.workers w ≠ .asleep) :
      Step s { s with notifies := s.notifies - 1 }
  | wait {s w} (hchecking : s.workers w = .checking) (hstopping : s.stopping = false)
      (hqueue : s.queue = []) : Step s (s.put w .asleep)
  | wake {s w} (hasleep : s.workers w = .asleep) : Step s (s.put w .checking)
  | leave {s w} (hchecking : s.workers w = .checking) (hstopping : s.stopping = true)
      (hqueue : s.queue = []) : Step s (s.put w .left)
  | take {s w job rest} (hchecking : s.workers w = .checking) (hqueue : s.queue = job :: rest) :
      Step s (s.take w job rest)
  | finish {s w job} (hrunning : s.workers w = .running job) : Step s (s.finish w job)
  | stop {s} (hdestructor : s.destructor = .unstarted) :
      Step s { s with stopping := true, destructor := .notifying }
  | notify_all {s} (hdestructor : s.destructor = .notifying) :
      Step s { s with destructor := .joining, workers := fun w => woken (s.workers w) }
  | join {s} (hdestructor : s.destructor = .joining) (hleft : ∀ w, s.workers w = .left) :
      Step s { s with destructor := .returned }

structure Sound (s : TaskScheduler n) : Prop where
  order : s.started ++ s.queue = s.accepted
  fresh : (∀ job ∈ s.accepted, job < s.next) ∧ ∀ job ∈ s.refused, job < s.next
  once : s.accepted.Nodup
  apart : ∀ job ∈ s.refused, job ∉ s.accepted
  done : ∀ job ∈ s.started, job ∈ s.completed ∨ ∃ w, s.workers w = .running job
  left : ∀ w, s.workers w = .left → s.stopping = true ∧ s.queue = []
  joined : s.destructor = .returned → ∀ w, s.workers w = .left

variable {s s' : TaskScheduler n}

theorem put_self (w : Fin n) (worker : Worker) : (s.put w worker).workers w = worker :=
  Function.update_self ..

theorem put_other {w w' : Fin n} (h : w' ≠ w) (worker : Worker) :
    (s.put w worker).workers w' = s.workers w' := Function.update_of_ne h ..

theorem sound_start : (start : TaskScheduler n).Sound :=
  ⟨rfl, ⟨nofun, nofun⟩, .nil, nofun, nofun, nofun, nofun⟩

theorem Sound.put (h : s.Sound) {w : Fin n} (worker : Worker)
    (hidle : s.workers w = .checking ∨ s.workers w = .asleep)
    (hleft : worker = .left → s.stopping = true ∧ s.queue = []) : (s.put w worker).Sound where
  order := h.order
  fresh := h.fresh
  once := h.once
  apart := h.apart
  done job hjob := by
    refine (h.done job hjob).imp_right ?_
    rintro ⟨w', hw'⟩
    have hne : w' ≠ w := by
      intro heq
      rw [heq] at hw'
      simp [hw'] at hidle
    exact ⟨w', (put_other hne worker).trans hw'⟩
  left w' hw' := by
    by_cases heq : w' = w
    · subst heq
      rw [put_self] at hw'
      exact hleft hw'
    · rw [put_other heq] at hw'
      exact h.left w' hw'
  joined hreturned := by
    rw [h.joined hreturned w] at hidle
    simp at hidle

theorem Sound.accept (h : s.Sound) (hstopping : s.stopping = false) : s.accept.Sound where
  order := by
    change s.started ++ (s.queue ++ [s.next]) = s.accepted ++ [s.next]
    rw [← List.append_assoc, h.order]
  fresh := by
    refine ⟨fun job hjob => ?_, fun job hjob => Nat.lt_succ_of_lt (h.fresh.2 job hjob)⟩
    rcases List.mem_append.mp hjob with hold | hnew
    · exact Nat.lt_succ_of_lt (h.fresh.1 job hold)
    · exact List.mem_singleton.mp hnew ▸ Nat.lt_succ_self _
  once := by
    refine List.nodup_append.mpr ⟨h.once, List.nodup_singleton _,
      fun job hjob job' hjob' heq => ?_⟩
    have hlt := h.fresh.1 job hjob
    rw [heq, List.mem_singleton.mp hjob'] at hlt
    exact absurd hlt (Nat.lt_irrefl _)
  apart job hjob hmem := by
    rcases List.mem_append.mp hmem with hold | hnew
    · exact h.apart job hjob hold
    · have hlt := h.fresh.2 job hjob
      rw [List.mem_singleton.mp hnew] at hlt
      exact Nat.lt_irrefl _ hlt
  done := h.done
  left w hw := absurd ((h.left w hw).1.symm.trans hstopping) nofun
  joined := h.joined

theorem Sound.refuse (h : s.Sound) : s.refuse.Sound where
  order := h.order
  fresh := by
    refine ⟨fun job hjob => Nat.lt_succ_of_lt (h.fresh.1 job hjob), fun job hjob => ?_⟩
    rcases List.mem_append.mp hjob with hold | hnew
    · exact Nat.lt_succ_of_lt (h.fresh.2 job hold)
    · exact List.mem_singleton.mp hnew ▸ Nat.lt_succ_self _
  once := h.once
  apart job hjob hmem := by
    rcases List.mem_append.mp hjob with hold | hnew
    · exact h.apart job hold hmem
    · have hlt := h.fresh.1 job hmem
      rw [List.mem_singleton.mp hnew] at hlt
      exact Nat.lt_irrefl _ hlt
  done := h.done
  left := h.left
  joined := h.joined

theorem Sound.take (h : s.Sound) {w : Fin n} {job : ℕ} {rest : List ℕ}
    (hchecking : s.workers w = .checking) (hqueue : s.queue = job :: rest) :
    (s.take w job rest).Sound where
  order := by
    have horder := h.order
    rw [hqueue] at horder
    change (s.started ++ [job]) ++ rest = s.accepted
    rw [List.append_assoc]
    exact horder
  fresh := h.fresh
  once := h.once
  apart := h.apart
  done job' hjob' := by
    rcases List.mem_append.mp hjob' with hold | hnew
    · refine (h.done job' hold).imp_right ?_
      rintro ⟨w', hw'⟩
      have hne : w' ≠ w := by
        intro heq
        rw [heq, hchecking] at hw'
        cases hw'
      exact ⟨w', (put_other hne _).trans hw'⟩
    · rw [List.mem_singleton.mp hnew]
      exact .inr ⟨w, put_self w _⟩
  left w' hw' := by
    by_cases heq : w' = w
    · subst heq
      exact absurd ((put_self w' _).symm.trans hw') nofun
    · have hempty := (h.left w' ((put_other heq _).symm.trans hw')).2
      exact absurd (hqueue.symm.trans hempty) nofun
  joined hreturned := absurd (hchecking.symm.trans (h.joined hreturned w)) nofun

theorem Sound.finish (h : s.Sound) {w : Fin n} {job : ℕ} (hrunning : s.workers w = .running job) :
    (s.finish w job).Sound where
  order := h.order
  fresh := h.fresh
  once := h.once
  apart := h.apart
  done job' hjob' := by
    rcases h.done job' hjob' with hdone | ⟨w', hw'⟩
    · exact .inl (List.mem_append_left _ hdone)
    · by_cases heq : w' = w
      · rw [heq, hrunning] at hw'
        cases hw'
        exact .inl (List.mem_append_right _ (List.mem_singleton.mpr rfl))
      · exact .inr ⟨w', (put_other heq _).trans hw'⟩
  left w' hw' := by
    by_cases heq : w' = w
    · subst heq
      exact absurd ((put_self w' _).symm.trans hw') nofun
    · exact h.left w' ((put_other heq _).symm.trans hw')
  joined hreturned := absurd (hrunning.symm.trans (h.joined hreturned w)) nofun

theorem woken_eq_running {worker : Worker} {job : ℕ} : woken worker = .running job ↔
    worker = .running job := by
  cases worker <;> simp [woken]

theorem woken_eq_left {worker : Worker} : woken worker = .left ↔ worker = .left := by
  cases worker <;> simp [woken]

theorem Sound.notify_all (h : s.Sound) :
    ({ s with destructor := .joining, workers := fun w => woken (s.workers w) } :
      TaskScheduler n).Sound where
  order := h.order
  fresh := h.fresh
  once := h.once
  apart := h.apart
  done job hjob := (h.done job hjob).imp_right fun ⟨w, hw⟩ => ⟨w, woken_eq_running.mpr hw⟩
  left w hw := h.left w (woken_eq_left.mp hw)
  joined := nofun

theorem Sound.step (h : s.Sound) (hstep : Step s s') : s'.Sound := by
  cases hstep with
  | submit_refused hstopping => exact h.refuse
  | submit hstopping => exact h.accept hstopping
  | notify_one hnotifies hasleep =>
    have hput := h.put .checking (.inr hasleep) nofun
    exact ⟨hput.order, hput.fresh, hput.once, hput.apart, hput.done, hput.left, hput.joined⟩
  | notify_nobody hnotifies hawake => exact ⟨h.order, h.fresh, h.once, h.apart,
      h.done, h.left, h.joined⟩
  | wait hchecking hstopping hqueue => exact h.put .asleep (.inl hchecking) nofun
  | wake hasleep => exact h.put .checking (.inr hasleep) nofun
  | leave hchecking hstopping hqueue => exact h.put .left (.inl hchecking) fun _ =>
      ⟨hstopping, hqueue⟩
  | take hchecking hqueue => exact h.take hchecking hqueue
  | finish hrunning => exact h.finish hrunning
  | stop hdestructor =>
    exact ⟨h.order, h.fresh, h.once, h.apart, h.done,
      fun w hw => ⟨rfl, (h.left w hw).2⟩, nofun⟩
  | notify_all hdestructor => exact h.notify_all
  | join hdestructor hleft => exact ⟨h.order, h.fresh, h.once, h.apart, h.done,
      h.left, fun _ => hleft⟩

theorem sound_run (h : ReflTransGen Step start s) : s.Sound := by
  induction h with
  | refl => exact sound_start
  | tail _ hstep ih => exact ih.step hstep

/-- The destructor waits for no sleeper, and a queued job is about to be seen by somebody. -/
structure Awake (s : TaskScheduler n) : Prop where
  joining : s.destructor = .joining → s.stopping = true ∧ ∀ w, s.workers w ≠ .asleep
  stopping : s.destructor ≠ .unstarted → s.stopping = true
  queued : s.queue ≠ [] → s.notifies = 0 →
      ∃ w, s.workers w ≠ .asleep ∧ s.workers w ≠ .left

theorem Awake.put (h : s.Awake) {w : Fin n} {worker : Worker}
    (hasleep : worker = .asleep → s.stopping = false)
    (hqueue : s.queue ≠ [] → worker ≠ .asleep ∧ worker ≠ .left) :
    (s.put w worker).Awake where
  joining hjoining := by
    obtain ⟨hstopping, hawake⟩ := h.joining hjoining
    refine ⟨hstopping, fun w' hw' => ?_⟩
    by_cases heq : w' = w
    · subst heq
      rw [put_self] at hw'
      exact absurd (hstopping.symm.trans (hasleep hw')) nofun
    · exact hawake w' ((put_other heq worker).symm.trans hw')
  stopping := h.stopping
  queued hne hnotifies := by
    refine ⟨w, ?_⟩
    rw [put_self]
    exact hqueue hne

theorem woken_ne_asleep (worker : Worker) : woken worker ≠ .asleep := by
  cases worker <;> simp [woken]

theorem Awake.step (hn : 0 < n) (hsound : s.Sound) (h : s.Awake) (hstep : Step s s') :
    s'.Awake := by
  cases hstep with
  | submit_refused hstopping => exact ⟨h.joining, h.stopping, h.queued⟩
  | submit hstopping =>
      exact ⟨h.joining, h.stopping, fun _ hnotifies => absurd hnotifies (Nat.succ_ne_zero _)⟩
  | @notify_one w hnotifies hasleep =>
    have hput : (s.put w .checking).Awake := h.put nofun fun _ => ⟨nofun, nofun⟩
    refine ⟨hput.joining, hput.stopping, fun hqueue _ => ⟨w, ?_⟩⟩
    change (s.put w .checking).workers w ≠ .asleep ∧ (s.put w .checking).workers w ≠ .left
    rw [put_self]
    exact ⟨nofun, nofun⟩
  | notify_nobody hnotifies hawake =>
    refine ⟨h.joining, h.stopping, fun hqueue _ => ⟨⟨0, hn⟩, hawake _, fun hleft => ?_⟩⟩
    exact hqueue (hsound.left _ hleft).2
  | wait hchecking hstopping hqueue => exact h.put (fun _ => hstopping) fun hne => absurd hqueue hne
  | wake hasleep => exact h.put nofun fun _ => ⟨nofun, nofun⟩
  | leave hchecking hstopping hqueue => exact h.put nofun fun hne => absurd hqueue hne
  | @take w job rest hchecking hqueue =>
    have hput : (s.put w (.running job)).Awake := h.put nofun fun _ => ⟨nofun, nofun⟩
    refine ⟨hput.joining, hput.stopping, fun _ hnotifies => ?_⟩
    exact hput.queued (by simp [TaskScheduler.put, hqueue]) hnotifies
  | @finish w job hrunning =>
    have hput : (s.put w .checking).Awake := h.put nofun fun _ => ⟨nofun, nofun⟩
    exact ⟨hput.joining, hput.stopping, hput.queued⟩
  | stop hdestructor => exact ⟨nofun, fun _ => rfl, h.queued⟩
  | notify_all hdestructor =>
    refine ⟨fun _ => ⟨h.stopping (by simp [hdestructor]), fun w => woken_ne_asleep _⟩,
      fun _ => h.stopping (by simp [hdestructor]), fun hqueue hnotifies => ?_⟩
    obtain ⟨w, hasleep, hleft⟩ := h.queued hqueue hnotifies
    exact ⟨w, woken_ne_asleep _, fun hw => hleft (woken_eq_left.mp hw)⟩
  | join hdestructor hleft =>
      exact ⟨nofun, fun _ => h.stopping (by simp [hdestructor]), h.queued⟩

theorem awake_run (hn : 0 < n) {s : TaskScheduler n} (h : ReflTransGen Step start s) : s.Awake := by
  induction h with
  | refl => exact ⟨nofun, fun hne => absurd rfl hne, fun hne => absurd rfl hne⟩
  | tail hrun hstep ih => exact ih.step hn (sound_run hrun) hstep

/-- Jobs are started in the order they were accepted in, each once and no refused one, and all of
them are completed when the destructor returns. Until then nobody sleeps through a wake-up. -/
theorem accepted_run_once {threadCount : ℕ} {s : TaskScheduler (workerCount threadCount)}
    (h : ReflTransGen Step start s) :
    s.started <+: s.accepted ∧ s.started.Nodup ∧
      (∀ job ∈ s.refused, job ∉ s.accepted ∧ job ∉ s.queue ∧ job ∉ s.started) ∧
      (s.destructor = .returned →
        (∀ job ∈ s.accepted, job ∈ s.completed) ∧ ∀ w, s.workers w = .left) ∧
      s.Awake := by
  have hsound := sound_run h
  have hstarted : s.started <+: s.accepted := ⟨s.queue, hsound.order⟩
  have hpos : 0 < workerCount threadCount := by
    unfold workerCount
    split_ifs with hzero
    · exact Nat.one_pos
    · exact Nat.pos_of_ne_zero hzero
  refine ⟨hstarted, hsound.once.sublist hstarted.sublist, fun job hjob => ?_, fun hreturned => ?_,
    awake_run hpos h⟩
  · have hapart := hsound.apart job hjob
    rw [← hsound.order] at hapart ⊢
    exact ⟨hapart, fun hmem => hapart (List.mem_append_right _ hmem),
      fun hmem => hapart (List.mem_append_left _ hmem)⟩
  · have hleft := hsound.joined hreturned
    have hqueue := (hsound.left ⟨0, hpos⟩ (hleft _)).2
    refine ⟨fun job hjob => ?_, hleft⟩
    rw [← hsound.order, hqueue, List.append_nil] at hjob
    rcases hsound.done job hjob with hdone | ⟨w, hw⟩
    · exact hdone
    · exact absurd ((hleft w).symm.trans hw) nofun

def drained : TaskScheduler (workerCount 0) :=
  let running := start.accept.take ⟨0, Nat.one_pos⟩ 0 []
  let stopping := { running with stopping := true, destructor := .notifying }
  let finished := stopping.refuse.finish ⟨0, Nat.one_pos⟩ 0
  let joining :=
    { finished with destructor := .joining, workers := fun w => woken (finished.workers w) }
  { joining.put ⟨0, Nat.one_pos⟩ .left with destructor := .returned }

theorem drained_run_once : drained.refused = [1] ∧
    ∀ job ∈ drained.accepted, job ∈ drained.completed := by
  have hleft : ∀ w, drained.workers w = .left := by decide
  have hrun : ReflTransGen Step start drained := by
    refine .head (.submit rfl) (.head (.take (w := ⟨0, Nat.one_pos⟩) rfl rfl) ?_)
    refine .head (.stop rfl)
      (.head (.submit_refused rfl) (.head (.finish (w := ⟨0, Nat.one_pos⟩) rfl) ?_))
    exact .head (.notify_all rfl)
      (.head (.leave (w := ⟨0, Nat.one_pos⟩) rfl rfl rfl) (.single (.join rfl hleft)))
  exact ⟨rfl, ((accepted_run_once hrun).2.2.2.1 rfl).1⟩

end TaskScheduler

end DevMgr.Runtime
