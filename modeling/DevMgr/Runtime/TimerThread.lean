import DevMgr.Library.Run
import Mathlib.Algebra.Group.Nat.Defs
import Mathlib.Data.List.Nodup
import Mathlib.Data.List.Pairwise
import Mathlib.Data.List.Range
import Mathlib.Data.List.TakeWhile
import Mathlib.Logic.Function.Basic

/-!
# The thread of the delayed scheduler

Behind the scheduler stand a multimap of the callbacks by the time they are due, an
index from the handles to its nodes, and a thread that takes what is due and runs it
without the lock. Any thread may schedule and cancel at any time, the worker too while
it is inside a callback, and after a shutdown as before it.
-/

namespace DevMgr.Runtime.TimerThread
open Run

structure Entry (α : Type) where
  node : ℕ
  due : ℕ
  id : ℕ
  fn : α

inductive Worker (α : Type) where
  | looking
  | between (rest : List (Entry α))
  | inside (entry : Entry α) (rest : List (Entry α))
  | left

def Worker.ahead {α : Type} : Worker α → List (Entry α)
  | .between rest | .inside _ rest => rest
  | _ => []

/-- Beside the scheduler stand a clock, the number of nodes so far, the handles that were issued,
those that were cancelled, the batches that were taken, and what has begun to run, with the time of
it. -/
structure State (α : Type) where
  queue : List (Entry α)
  index : ℕ → Option ℕ
  nextId : ℕ
  stopping : Bool
  joinStarted : Bool
  joined : Bool
  worker : Worker α
  clock : ℕ
  nodes : ℕ
  issued : List ℕ
  cancelled : List ℕ
  batches : List (List (Entry α))
  started : List (Entry α × ℕ)

inductive Action (α : Type) where
  | schedule (due : ℕ) (fn : α)
  | cancel (handle : ℕ)
  | shutdown (selfCall : Bool)
  | join
  | tick (now : ℕ)
  | leave
  | collect
  | begin
  | finish
  | relock

variable {α : Type}

def start : State α where
  queue := []
  index _ := none
  nextId := 1
  stopping := false
  joinStarted := false
  joined := false
  worker := .looking
  clock := 0
  nodes := 0
  issued := []
  cancelled := []
  batches := []
  started := []

def Before (a b : Entry α) : Prop := a.due < b.due ∨ a.due = b.due ∧ a.id < b.id

def emplace (queue : List (Entry α)) (entry : Entry α) : List (Entry α) :=
  queue.takeWhile (·.due ≤ entry.due) ++ entry :: queue.dropWhile (·.due ≤ entry.due)

def emplaceIndex (index : ℕ → Option ℕ) (handle node : ℕ) : ℕ → Option ℕ :=
  if (index handle).isSome then index else Function.update index handle (some node)

def takeReady (now : ℕ) : List (Entry α) → (ℕ → Option ℕ) →
    List (Entry α) × List (Entry α) × (ℕ → Option ℕ)
  | [], index => ([], [], index)
  | entry :: queue, index =>
    if entry.due ≤ now then
      let (ready, rest) := takeReady now queue (Function.update index entry.id none)
      (entry :: ready, rest)
    else ([], entry :: queue, index)

def isInside : Worker α → Bool
  | .inside _ _ => true
  | _ => false

def hasLeft : Worker α → Bool
  | .left => true
  | _ => false

namespace State

variable (s : State α)

def schedule (due : ℕ) (fn : α) : State α :=
  { s with
    queue := emplace s.queue ⟨s.nodes, due, s.nextId, fn⟩
    index := emplaceIndex s.index s.nextId s.nodes
    nextId := (s.nextId + 1) % 2 ^ 64
    nodes := s.nodes + 1
    issued := s.issued ++ [s.nextId] }

def cancels (handle : ℕ) : Bool := (s.index handle).isSome

def cancel (handle : ℕ) : State α :=
  match s.index handle with
  | none => s
  | some node =>
    { s with
      queue := s.queue.filter (·.node ≠ node)
      index := Function.update s.index handle none
      cancelled := handle :: s.cancelled }

def shutdown (selfCall : Bool) : State α :=
  { s with stopping := true, joinStarted := s.joinStarted || !selfCall }

def collect : State α :=
  let (ready, queue, index) := takeReady s.clock s.queue s.index
  { s with queue, index, worker := .between ready, batches := s.batches ++ [ready] }

def begin (entry : Entry α) (rest : List (Entry α)) : State α :=
  { s with worker := .inside entry rest, started := s.started ++ [(entry, s.clock)] }

/-- A shutdown from inside a callback is the worker's own. -/
def step : Action α → Option (State α)
  | .schedule due fn => some (s.schedule due fn)
  | .cancel handle => some (s.cancel handle)
  | .shutdown selfCall => if selfCall → isInside s.worker then some (s.shutdown selfCall)
      else none
  | .join => if s.joinStarted ∧ hasLeft s.worker then some { s with joined := true } else none
  | .tick now => if s.clock ≤ now then some { s with clock := now } else none
  | .leave =>
    match s.worker with
    | .looking => if s.stopping then some { s with worker := .left } else none
    | _ => none
  | .collect =>
    match s.worker with
    | .looking =>
      if s.stopping = false ∧ (s.queue.head?.any fun entry => entry.due ≤ s.clock) then
        some s.collect else none
    | _ => none
  | .begin =>
    match s.worker with
    | .between (entry :: rest) =>
      some (s.begin entry rest)
    | _ => none
  | .finish =>
    match s.worker with
    | .inside _ rest => some { s with worker := .between rest }
    | _ => none
  | .relock =>
    match s.worker with
    | .between [] => some { s with worker := .looking }
    | _ => none

def dequeued : List (Entry α) := s.batches.flatten

/-- The index and the queue hold the same handles, no handle is issued twice, and of the issued ones
each is queued, cancelled or dequeued. What has begun is what was dequeued, in its order, and was
due. -/
structure Exact : Prop where
  linked : ∀ handle node, s.index handle = some node ↔
      ∃ entry ∈ s.queue, entry.id = handle ∧ entry.node = node
  distinct : (s.queue.map (·.id)).Nodup ∧ (s.queue.map (·.node)).Nodup
  fresh : s.issued.Pairwise (· < ·)
  accepted : ∀ handle ∈ s.cancelled, handle ∉ s.started.map (·.1.id)
  refused : ∀ handle, s.cancels handle = false →
    handle ∉ s.issued ∨ handle ∈ s.dequeued.map (·.id) ∨ handle ∈ s.cancelled
  once : (s.started.map (·.1.id)).Nodup
  due : ∀ run ∈ s.started, run.1.due ≤ run.2
  batches : ∀ batch ∈ s.batches, batch.Pairwise Before
  order : s.started.map Prod.fst <+: s.dequeued

structure Excludes (a : Action α) (s' : State α) : Prop where
  exact : s'.Exact
  remembered : s.cancelled ⊆ s'.cancelled
  cancelled : ∀ handle, a = .cancel handle → s.cancels handle = true → handle ∈ s'.cancelled

variable {s} {s' : State α} {a : Action α} {queue : List (Entry α)} {index : ℕ → Option ℕ}
  {entry : Entry α} {due handle : ℕ} {fn : α}

theorem takeReady_ready (index : ℕ → Option ℕ) (now : ℕ) :
    (takeReady now queue index).1 = queue.takeWhile (·.due ≤ now) := by
  induction queue generalizing index with
  | nil => rfl
  | cons entry queue ih =>
    rw [takeReady, List.takeWhile_cons]
    by_cases hdue : entry.due ≤ now
    · simp [hdue, ih]
    · simp [hdue]

theorem takeReady_queue (index : ℕ → Option ℕ) (now : ℕ) :
    (takeReady now queue index).2.1 = queue.dropWhile (·.due ≤ now) := by
  induction queue generalizing index with
  | nil => rfl
  | cons entry queue ih =>
    rw [takeReady, List.dropWhile_cons]
    by_cases hdue : entry.due ≤ now
    · simp [hdue, ih]
    · simp [hdue]

theorem takeReady_index (now : ℕ) : (takeReady now queue index).2.2 handle =
    if handle ∈ (queue.takeWhile (·.due ≤ now)).map (·.id) then none else index handle := by
  induction queue generalizing index with
  | nil => rfl
  | cons entry queue ih =>
    rw [takeReady, List.takeWhile_cons]
    by_cases hdue : entry.due ≤ now
    · simp only [hdue, decide_true, if_true, ih, List.map_cons, List.mem_cons]
      by_cases hhandle : handle = entry.id
      · simp [hhandle]
      · simp [hhandle]
    · simp [hdue]

theorem emplace_perm : (emplace queue entry).Perm (entry :: queue) := by
  have h :=
    List.takeWhile_append_dropWhile (p := fun e : Entry α => e.due ≤ entry.due) (l := queue)
  calc
    (emplace queue entry).Perm (entry :: (queue.takeWhile (·.due ≤ entry.due) ++
        queue.dropWhile (·.due ≤ entry.due))) := List.perm_middle
    _ = entry :: queue := by rw [h]

theorem Before.trans {a b c : Entry α} (hab : Before a b) (hbc : Before b c) : Before a c := by
  unfold Before at *
  omega

theorem emplace_sorted (hsorted : queue.Pairwise Before) (hnew : ∀ e ∈ queue, e.id < entry.id) :
    (emplace queue entry).Pairwise Before := by
  induction queue with
  | nil => exact List.pairwise_singleton _ _
  | cons e queue ih =>
    obtain ⟨hfirst, hrest⟩ := List.pairwise_cons.mp hsorted
    have hid := hnew e List.mem_cons_self
    rw [emplace, List.takeWhile_cons, List.dropWhile_cons]
    by_cases hdue : e.due ≤ entry.due
    · simp only [hdue, decide_true, if_true, List.cons_append]
      apply List.pairwise_cons.mpr
      refine ⟨fun e' he' => ?_, ih hrest fun e' he' => hnew e' (List.mem_cons_of_mem _ he')⟩
      obtain rfl | hold := List.mem_cons.mp (emplace_perm.mem_iff.mp he')
      · unfold Before
        omega
      · exact hfirst e' hold
    · have hlater : Before entry e := .inl (Nat.lt_of_not_le hdue)
      simp only [hdue, decide_false, Bool.false_eq_true, if_false, List.nil_append]
      apply List.pairwise_cons.mpr
      refine ⟨fun e' he' => ?_, hsorted⟩
      obtain rfl | hold := List.mem_cons.mp he'
      · exact hlater
      · exact Before.trans hlater (hfirst e' hold)

theorem perm_filter_node (hnodup : (queue.map (·.node)).Nodup) (hentry : entry ∈ queue) :
    queue.Perm (entry :: queue.filter (·.node ≠ entry.node)) := by
  induction queue with
  | nil => cases hentry
  | cons e queue ih =>
    obtain ⟨hfirst, hrest⟩ := List.nodup_cons.mp hnodup
    by_cases hsame : e.node = entry.node
    · have hother : ∀ e' ∈ queue, e'.node ≠ entry.node := by
        intro e' he' heq
        exact hfirst (List.mem_map.mpr ⟨e', he', heq.trans hsame.symm⟩)
      have hkeep : queue.filter (·.node ≠ entry.node) = queue :=
        List.filter_eq_self.mpr fun e' he' => decide_eq_true (hother e' he')
      obtain rfl : entry = e := (List.mem_cons.mp hentry).resolve_right fun hmem =>
        hother entry hmem rfl
      rw [List.filter_cons_of_neg (by simp), hkeep]
    · have hmem : entry ∈ queue :=
        (List.mem_cons.mp hentry).resolve_left fun heq => hsame (congrArg Entry.node heq.symm)
      rw [List.filter_cons_of_pos (by simpa using hsame)]
      exact ((ih hrest hmem).cons e).trans (List.Perm.swap entry e _)

def Linked (queue : List (Entry α)) (index : ℕ → Option ℕ) : Prop :=
  ∀ handle node, index handle = some node ↔
  ∃ entry ∈ queue, entry.id = handle ∧ entry.node = node

theorem Linked.insert (h : Linked queue index) {queue' : List (Entry α)}
    (hperm : queue'.Perm (entry :: queue)) (hnew : ∀ e ∈ queue, e.id ≠ entry.id) : Linked queue'
      (Function.update index entry.id (some entry.node)) := by
  intro handle node
  rw [Function.update_apply]
  simp only [hperm.mem_iff, List.mem_cons, exists_eq_or_imp]
  split_ifs with hsame
  · subst hsame
    constructor
    · intro hnode
      exact .inl ⟨rfl, Option.some.inj hnode⟩
    · rintro (⟨-, hnode⟩ | ⟨e, he, hother, -⟩)
      · exact congrArg some hnode
      · exact absurd hother (hnew e he)
  · rw [h, or_iff_right_of_imp]
    intro hfirst
    exact absurd hfirst.1.symm hsame

theorem Linked.erase (h : Linked queue index) {queue' : List (Entry α)}
    (hperm : queue.Perm (entry :: queue'))
    (hids : (queue.map (·.id)).Nodup) : Linked queue' (Function.update index entry.id none) := by
  intro handle node
  rw [Function.update_apply]
  split_ifs with hsame
  · rw [(hperm.map _).nodup_iff, List.map_cons, List.nodup_cons] at hids
    constructor
    · nofun
    · rintro ⟨e, he, hid, -⟩
      exact absurd (List.mem_map.mpr ⟨e, he, hid.trans hsame⟩) hids.1
  · rw [h]
    simp only [hperm.mem_iff, List.mem_cons, exists_eq_or_imp]
    apply or_iff_right_of_imp
    intro hfirst
    exact absurd hfirst.1.symm hsame

theorem Linked.takeReady (h : Linked queue index) (hids : (queue.map (·.id)).Nodup) (now : ℕ) :
    Linked (queue.dropWhile (·.due ≤ now)) (TimerThread.takeReady now queue index).2.2 := by
  have hsplit :=
    List.takeWhile_append_dropWhile (p := fun e : Entry α => e.due ≤ now) (l := queue)
  have hdrop := List.dropWhile_sublist (l := queue) (fun e => e.due ≤ now)
  rw [← hsplit, List.map_append] at hids
  have hapart := (List.nodup_append.mp hids).2.2
  intro handle node
  rw [takeReady_index]
  split_ifs with hready
  · constructor
    · nofun
    · rintro ⟨e, he, hid, -⟩
      exact absurd hid.symm (hapart handle hready e.id (List.mem_map_of_mem he))
  · rw [h]
    constructor
    · rintro ⟨e, he, rfl, rfl⟩
      rw [← hsplit] at he
      obtain htaken | hrest := List.mem_append.mp he
      · exact absurd (List.mem_map_of_mem htaken) hready
      · exact ⟨e, hrest, rfl, rfl⟩
    · rintro ⟨e, he, hid, hnode⟩
      exact ⟨e, hdrop.mem he, hid, hnode⟩

def InRange : Prop := s.issued.length < 2 ^ 64

structure Sound (s : State α) : Prop where
  counted : s.issued = List.range' 1 s.issued.length
  next : s.nextId = (s.issued.length + 1) % 2 ^ 64
  sorted : s.queue.Pairwise Before
  linked : ∀ handle node, s.index handle = some node ↔
      ∃ entry ∈ s.queue, entry.id = handle ∧ entry.node = node
  nodup : (s.queue.map (·.node)).Nodup
  nodes : ∀ entry ∈ s.queue, entry.node < s.nodes
  parts : s.issued.Perm (s.queue.map (·.id) ++ s.cancelled ++ s.dequeued.map (·.id))
  ran : s.started.map Prod.fst ++ s.worker.ahead = s.dequeued
  ready : ∀ entry ∈ s.worker.ahead, entry.due ≤ s.clock
  due : ∀ run ∈ s.started, run.1.due ≤ run.2
  batches : ∀ batch ∈ s.batches, batch.Pairwise Before

theorem sound_start : (start : State α).Sound where
  counted := rfl
  next := by simp [start]
  sorted := .nil
  linked := by simp [start]
  nodup := .nil
  nodes := nofun
  parts := .refl _
  ran := rfl
  ready := nofun
  due := nofun
  batches := nofun

theorem Sound.increasing (h : s.Sound) : s.issued.Pairwise (· < ·) := by
  rw [h.counted]
  exact List.pairwise_lt_range'

theorem Sound.unique (h : s.Sound) :
    (s.queue.map (·.id) ++ s.cancelled ++ s.dequeued.map (·.id)).Nodup :=
  h.parts.nodup_iff.mp (h.increasing.imp Nat.ne_of_lt)

theorem Sound.queue_ids (h : s.Sound) : (s.queue.map (·.id)).Nodup :=
  (List.nodup_append.mp (List.nodup_append.mp h.unique).1).1

theorem Sound.issued_queue (h : s.Sound) (hentry : entry ∈ s.queue) : entry.id ∈ s.issued := by
  rw [h.parts.mem_iff, List.append_assoc]
  exact List.mem_append_left _ (List.mem_map_of_mem hentry)

theorem Sound.schedule (h : s.Sound) (hrange : (s.schedule due fn).InRange) :
    (s.schedule due fn).Sound := by
  have hlength : (s.schedule due fn).issued.length = s.issued.length + 1 := List.length_append
  have hid : s.nextId = s.issued.length + 1 := by
    rw [InRange, hlength] at hrange
    rw [h.next, Nat.mod_eq_of_lt hrange]
  have hold : ∀ handle ∈ s.issued, handle < s.nextId := by
    intro handle hhandle
    rw [h.counted, List.mem_range'_1] at hhandle
    omega
  have hnew : ∀ entry ∈ s.queue, entry.id < s.nextId :=
    fun entry hentry => hold _ (h.issued_queue hentry)
  have hfree : s.index s.nextId = none := by
    cases hfound : s.index s.nextId with
    | none => rfl
    | some node =>
      obtain ⟨entry, hentry, hsame, -⟩ := (h.linked _ _).mp hfound
      exact absurd (hnew entry hentry) (by omega)
  have hindex : (s.schedule due fn).index = Function.update s.index s.nextId (some s.nodes) :=
    if_neg (by simp [hfree])
  have hperm : (s.schedule due fn).queue.Perm (⟨s.nodes, due, s.nextId, fn⟩ :: s.queue) :=
    emplace_perm
  constructor
  · change s.issued ++ [s.nextId] = List.range' 1 (s.issued ++ [s.nextId]).length
    rw [List.length_append, List.length_singleton, List.range'_concat, ← h.counted, hid]
    simp [Nat.add_comm]
  · change (s.nextId + 1) % 2 ^ 64 = ((s.issued ++ [s.nextId]).length + 1) % 2 ^ 64
    rw [List.length_append, List.length_singleton, hid]
  · exact emplace_sorted h.sorted hnew
  · rw [hindex]
    exact Linked.insert h.linked hperm fun e he => (hnew e he).ne
  · rw [(hperm.map _).nodup_iff, List.map_cons, List.nodup_cons]
    refine ⟨fun hmem => ?_, h.nodup⟩
    obtain ⟨entry, hentry, hnode⟩ := List.mem_map.mp hmem
    exact absurd (h.nodes entry hentry) (by rw [hnode]; exact lt_irrefl _)
  · intro entry hentry
    obtain rfl | hentry := List.mem_cons.mp (hperm.mem_iff.mp hentry)
    · exact Nat.lt_succ_self _
    · exact Nat.lt_succ_of_lt (h.nodes entry hentry)
  · have hids := hperm.map (·.id)
    rw [List.map_cons] at hids
    change (s.issued ++ [s.nextId]).Perm
      ((s.schedule due fn).queue.map (·.id) ++ s.cancelled ++ s.dequeued.map (·.id))
    have hfirst := (List.perm_append_singleton s.nextId s.issued).trans (h.parts.cons s.nextId)
    exact hfirst.trans ((hids.symm.append_right _).append_right _)
  · exact h.ran
  · exact h.ready
  · exact h.due
  · exact h.batches

theorem Sound.cancel (h : s.Sound) (handle : ℕ) : (s.cancel handle).Sound := by
  cases hfound : s.index handle with
  | none =>
    have hsame : s.cancel handle = s := by rw [State.cancel, hfound]
    rw [hsame]
    exact h
  | some node =>
    obtain ⟨entry, hentry, rfl, rfl⟩ := (h.linked _ _).mp hfound
    have hcancel : s.cancel entry.id =
        { s with
          queue := s.queue.filter (·.node ≠ entry.node)
          index := Function.update s.index entry.id none
          cancelled := entry.id :: s.cancelled } := by
      rw [State.cancel, hfound]
    have hperm := perm_filter_node h.nodup hentry
    have hsub := List.filter_sublist (l := s.queue) (p := fun e => e.node ≠ entry.node)
    rw [hcancel]
    refine ⟨h.counted, h.next, h.sorted.sublist hsub, ?_, h.nodup.sublist (hsub.map _),
      fun e he => h.nodes e (hsub.mem he), ?_, h.ran, h.ready, h.due, h.batches⟩
    · exact Linked.erase h.linked hperm h.queue_ids
    · have hids := hperm.map (·.id)
      rw [List.map_cons] at hids
      apply h.parts.trans
      apply List.Perm.append_right
      exact (hids.append_right _).trans List.perm_middle.symm

theorem Sound.collect (h : s.Sound) (hworker : s.worker.ahead = []) : s.collect.Sound := by
  have hsplit :=
    List.takeWhile_append_dropWhile (p := fun e : Entry α => e.due ≤ s.clock) (l := s.queue)
  have hcollect : s.collect =
      { s with
        queue := s.queue.dropWhile (·.due ≤ s.clock)
        index := (takeReady s.clock s.queue s.index).2.2
        worker := .between (s.queue.takeWhile (·.due ≤ s.clock))
        batches := s.batches ++ [s.queue.takeWhile (·.due ≤ s.clock)] } := by
    rw [State.collect, ← takeReady_ready s.index, ← takeReady_queue s.index]
  have hdequeued : s.collect.dequeued = s.dequeued ++ s.queue.takeWhile (·.due ≤ s.clock) := by
    rw [hcollect, dequeued, dequeued, List.flatten_append, List.flatten_singleton]
  have hdrop := List.dropWhile_sublist (l := s.queue) (fun e => e.due ≤ s.clock)
  have htake := List.takeWhile_sublist (l := s.queue) (fun e => e.due ≤ s.clock)
  constructor
  · rw [hcollect]
    exact h.counted
  · rw [hcollect]
    exact h.next
  · rw [hcollect]
    exact h.sorted.sublist hdrop
  · rw [hcollect]
    exact Linked.takeReady h.linked h.queue_ids s.clock
  · rw [hcollect]
    exact h.nodup.sublist (hdrop.map _)
  · rw [hcollect]
    exact fun e he => h.nodes e (hdrop.mem he)
  · rw [hdequeued, hcollect]
    apply h.parts.trans
    rw [List.perm_iff_count]
    intro handle
    conv_lhs => rw [← hsplit]
    simp only [List.map_append, List.count_append]
    omega
  · rw [hdequeued, ← h.ran, hworker, List.append_nil, hcollect]
    rfl
  · rw [hcollect]
    intro e he
    simpa using List.mem_takeWhile_imp he
  · rw [hcollect]
    exact h.due
  · rw [hcollect]
    intro batch hbatch
    obtain hold | hnew := List.mem_append.mp hbatch
    · exact h.batches batch hold
    · rw [List.mem_singleton.mp hnew]
      exact h.sorted.sublist htake

theorem Sound.begin (h : s.Sound) {rest : List (Entry α)}
    (hworker : s.worker = .between (entry :: rest)) :
    (s.begin entry rest).Sound := by
  have hran := h.ran
  have hready := h.ready
  rw [hworker] at hran hready
  refine ⟨h.counted, h.next, h.sorted, h.linked, h.nodup, h.nodes, h.parts, ?_,
    fun e he => hready e (List.mem_cons_of_mem _ he), ?_, h.batches⟩
  · calc
      (s.begin entry rest).started.map Prod.fst ++ rest = s.started.map Prod.fst ++
        entry :: rest := by
        simp [State.begin]
      _ = s.dequeued := hran
  · intro run hrun
    obtain hold | hnew := List.mem_append.mp hrun
    · exact h.due run hold
    · rw [List.mem_singleton.mp hnew]
      exact hready entry List.mem_cons_self

structure Aside (s s' : State α) : Prop where
  same : s' = { s with
    stopping := s'.stopping
    joinStarted := s'.joinStarted
    joined := s'.joined
    worker := s'.worker
    clock := s'.clock }
  ahead : s'.worker.ahead = s.worker.ahead
  clock : s.clock ≤ s'.clock

theorem Sound.aside (h : s.Sound) (hstep : s.Aside s') : s'.Sound := by
  have hahead := hstep.ahead
  have hclock := hstep.clock
  rw [hstep.same]
  refine ⟨h.counted, h.next, h.sorted, h.linked, h.nodup, h.nodes, h.parts, ?_, fun e he => ?_,
    h.due, h.batches⟩
  · exact hahead ▸ h.ran
  · exact (h.ready e (hahead ▸ he)).trans hclock

theorem step_cases (hstep : s.step a = some s') :
    (∃ due fn, a = .schedule due fn ∧ s' = s.schedule due fn) ∨
    (∃ handle, a = .cancel handle ∧ s' = s.cancel handle) ∨
    (s.worker.ahead = [] ∧ s' = s.collect) ∨
    (∃ entry rest, s.worker = .between (entry :: rest) ∧ s' = s.begin entry rest) ∨
    s.Aside s' := by
  cases a with
  | schedule due fn => exact .inl ⟨due, fn, rfl, (Option.some.inj hstep).symm⟩
  | cancel handle => exact .inr (.inl ⟨handle, rfl, (Option.some.inj hstep).symm⟩)
  | shutdown selfCall =>
    obtain ⟨-, hs'⟩ := Option.ite_none_right_eq_some.mp hstep
    obtain rfl := Option.some.inj hs'
    exact .inr (.inr (.inr (.inr ⟨rfl, rfl, le_rfl⟩)))
  | tick now =>
    obtain ⟨hnow, hs'⟩ := Option.ite_none_right_eq_some.mp hstep
    obtain rfl := Option.some.inj hs'
    exact .inr (.inr (.inr (.inr ⟨rfl, rfl, hnow⟩)))
  | join =>
    obtain ⟨-, hs'⟩ := Option.ite_none_right_eq_some.mp hstep
    obtain rfl := Option.some.inj hs'
    exact .inr (.inr (.inr (.inr ⟨rfl, rfl, le_rfl⟩)))
  | leave =>
    cases hworker : s.worker with
    | looking =>
      rw [State.step, hworker] at hstep
      obtain ⟨-, hs'⟩ := Option.ite_none_right_eq_some.mp hstep
      obtain rfl := Option.some.inj hs'
      exact .inr (.inr (.inr (.inr ⟨rfl, by rw [hworker]; rfl, le_rfl⟩)))
    | left | between rest | inside entry rest => simp [State.step, hworker] at hstep
  | collect =>
    cases hworker : s.worker with
    | looking =>
      rw [State.step, hworker] at hstep
      obtain ⟨-, hs'⟩ := Option.ite_none_right_eq_some.mp hstep
      exact .inr (.inr (.inl ⟨rfl, (Option.some.inj hs').symm⟩))
    | left | between rest | inside entry rest => simp [State.step, hworker] at hstep
  | begin =>
    cases hworker : s.worker with
    | between rest =>
      cases rest with
      | nil => simp [State.step, hworker] at hstep
      | cons entry rest =>
        rw [State.step, hworker] at hstep
        exact .inr (.inr (.inr (.inl ⟨entry, rest, rfl, (Option.some.inj hstep).symm⟩)))
    | looking | left | inside entry rest => simp [State.step, hworker] at hstep
  | finish =>
    cases hworker : s.worker with
    | inside entry rest =>
      rw [State.step, hworker] at hstep
      obtain rfl := Option.some.inj hstep
      exact .inr (.inr (.inr (.inr ⟨rfl, by rw [hworker]; rfl, le_rfl⟩)))
    | looking | left | between rest => simp [State.step, hworker] at hstep
  | relock =>
    cases hworker : s.worker with
    | between rest =>
      cases rest with
      | nil =>
        rw [State.step, hworker] at hstep
        obtain rfl := Option.some.inj hstep
        exact .inr (.inr (.inr (.inr ⟨rfl, by rw [hworker]; rfl, le_rfl⟩)))
      | cons entry rest => simp [State.step, hworker] at hstep
    | looking | left | inside entry rest => simp [State.step, hworker] at hstep

theorem Sound.step (h : s.Sound) (hstep : s.step a = some s') (hrange : s'.InRange) : s'.Sound := by
  obtain ⟨due, fn, -, rfl⟩ | ⟨handle, -, rfl⟩ | ⟨hahead, rfl⟩ |
    ⟨entry, rest, hworker, rfl⟩ | haside :=
    step_cases hstep
  · exact h.schedule hrange
  · exact h.cancel handle
  · exact h.collect hahead
  · exact h.begin hworker
  · exact h.aside haside

theorem step_issued (hstep : s.step a = some s') : s.issued.length ≤ s'.issued.length := by
  obtain ⟨due, fn, -, rfl⟩ | ⟨handle, -, rfl⟩ | ⟨-, rfl⟩ | ⟨entry, rest, -, rfl⟩ |
    haside := step_cases hstep
  · exact (List.sublist_append_left _ _).length_le
  · rw [State.cancel]
    split <;> rfl
  · rfl
  · rfl
  · rw [haside.same]

theorem step_cancelled (hstep : s.step a = some s') : s.cancelled ⊆ s'.cancelled := by
  obtain ⟨due, fn, -, rfl⟩ | ⟨handle, -, rfl⟩ | ⟨-, rfl⟩ | ⟨entry, rest, -, rfl⟩ |
    haside := step_cases hstep
  · exact List.Subset.refl _
  · rw [State.cancel]
    split
    · exact List.Subset.refl _
    · exact List.subset_cons_self _ _
  · exact List.Subset.refl _
  · exact List.Subset.refl _
  · rw [haside.same]
    exact List.Subset.refl _

theorem Sound.exact (h : s.Sound) : s.Exact := by
  have hunique := h.unique
  have hstarted : (s.started.map (·.1.id)).Sublist (s.dequeued.map (·.id)) := by
    rw [← h.ran, List.map_append, List.map_map]
    exact List.sublist_append_left _ _
  refine ⟨h.linked, ⟨h.queue_ids, h.nodup⟩, h.increasing, fun handle hcancelled hran => ?_,
    fun handle hnot => ?_,
    ?_, h.due, h.batches, ⟨_, h.ran⟩⟩
  · exact (List.nodup_append.mp hunique).2.2 handle (List.mem_append_right _ hcancelled) handle
      (hstarted.mem hran) rfl
  · by_cases hissued : handle ∈ s.issued
    · rw [h.parts.mem_iff, List.mem_append, List.mem_append] at hissued
      obtain (hqueued | hcancelled) | hdequeued := hissued
      · obtain ⟨entry, hentry, hid⟩ := List.mem_map.mp hqueued
        have hfound := (h.linked handle entry.node).mpr ⟨entry, hentry, hid, rfl⟩
        rw [cancels, hfound] at hnot
        cases hnot
      · exact .inr (.inr hcancelled)
      · exact .inr (.inl hdequeued)
    · exact .inl hissued
  · exact (List.nodup_append.mp hunique).2.1.sublist hstarted

theorem meetsSome_of_sound {C : State α → Action α → State α → Prop}
    (hstep : ∀ s a s', s.Sound → s.step a = some s' → s'.InRange → s'.Sound → C s a s')
    (actions : List (Action α)) : MeetsSome step (fun s a s' => s'.InRange →
      C s a s') start actions := by
  apply meetsSome_of_invariant (I := fun s : State α => s.InRange → s.Sound)
    (C := fun _ _ _ => True) step _
    (fun _ => sound_start) (meetsSome_true step actions)
  rintro s a s' hs htake -
  have hbefore : s'.InRange → s.Sound := fun hrange => hs ((step_issued htake).trans_lt hrange)
  refine ⟨fun hrange => (hbefore hrange).step htake hrange, fun hrange => ?_⟩
  exact hstep s a s' (hbefore hrange) htake hrange ((hbefore hrange).step htake hrange)

/-- As long as fewer than `2 ^ 64` callbacks have been scheduled, a callback that a cancel has found
never begins, one that a cancel has missed was taken, cancelled or never there, and what begins was
due. -/
theorem cancel_excludes_run (actions : List (Action α)) :
    MeetsSome step (fun s a s' => s'.InRange → s.Excludes a s') start actions := by
  apply meetsSome_of_sound
  intro s a s' _ hstep _ hs'
  refine ⟨hs'.exact, step_cancelled hstep, ?_⟩
  intro handle ha hcancels
  subst ha
  obtain rfl := Option.some.inj hstep
  obtain ⟨node, hnode⟩ := Option.isSome_iff_exists.mp hcancels
  rw [State.cancel, hnode]
  exact List.mem_cons_self

theorem schedules_issued (fn : α) (n k : ℕ) (hnext : s.nextId = (k + 1) % 2 ^ 64) :
    ∃ s', runSome step s (List.replicate n (.schedule 0 fn)) = some s' ∧
      s'.issued = s.issued ++ (List.range' k n).map fun i => (i + 1) % 2 ^ 64 := by
  induction n generalizing s k with
  | zero => exact ⟨s, rfl, by simp⟩
  | succ n ih =>
    have hlater : (s.schedule 0 fn).nextId = (k + 1 + 1) % 2 ^ 64 := by
      change (s.nextId + 1) % 2 ^ 64 = _
      rw [hnext, Nat.mod_add_mod]
    obtain ⟨s', hrun, hissued⟩ := ih (k + 1) hlater
    refine ⟨s', (runSome_cons step).mpr ⟨s.schedule 0 fn, rfl, hrun⟩, ?_⟩
    rw [hissued, List.range'_succ, List.map_cons, ← hnext]
    exact List.append_assoc ..

theorem handles_go_round : ∃ s : State Unit,
    runSome step start (List.replicate (2 ^ 64 + 1) (.schedule 0 ())) = some s ∧
      s.issued[0]? = some 1 ∧ s.issued[2 ^ 64]? = some 1 ∧ ¬ s.Exact := by
  obtain ⟨s, hrun, hissued⟩ :=
    schedules_issued (s := (start : State Unit)) () (2 ^ 64 + 1) 0 rfl
  have hhandle : ∀ i < 2 ^ 64 + 1, s.issued[i]? = some ((i + 1) % 2 ^ 64) := by
    intro i hi
    have hcall : (List.range' 0 (2 ^ 64 + 1))[i]? = some i := by
      rw [List.getElem?_range' hi, Nat.zero_add, Nat.one_mul]
    have hstart : (start : State Unit).issued = [] := rfl
    rw [hissued, hstart, List.nil_append, List.getElem?_map, hcall, Option.map_some]
  have hfirst : s.issued[0]? = some 1 := hhandle 0 (by omega)
  have hagain : s.issued[2 ^ 64]? = some 1 := by
    rw [hhandle (2 ^ 64) (by omega), Nat.add_mod_left]
    rfl
  refine ⟨s, hrun, hfirst, hagain, fun h => ?_⟩
  obtain ⟨hbound, hone⟩ := List.getElem?_eq_some_iff.mp hfirst
  obtain ⟨hbound', hone'⟩ := List.getElem?_eq_some_iff.mp hagain
  have hless := List.pairwise_iff_getElem.mp h.fresh 0 (2 ^ 64) hbound hbound' (by omega)
  rw [hone, hone'] at hless
  exact Nat.lt_irrefl 1 hless

end State

end DevMgr.Runtime.TimerThread
