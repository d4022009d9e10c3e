import DevMgr.App.BackendStatus
import DevMgr.Runtime.Outstanding
import Mathlib.Data.List.Range
import Mathlib.Logic.Relation

/-!
# The status line

A message has a clear scheduled for it, and the next message cancels that clear if it
can. A clear that was dequeued before it could be cancelled runs, and compares its
generation to see that a later message stands there. The destructor cancels what it can
and waits for the rest. The scheduler has a lock of its own, so the timer's thread takes
out what is due also while the line is locked.
-/

namespace DevMgr.App
open Bytes Relation DevMgr.Runtime

namespace StatusLineVM

structure Clear where
  generation : ℕ
  message : ℕ

inductive Fired where
  | firing (handle : ℕ) (clear : Clear)
  | notifying (cleared : Bool)

inductive Destructor where
  | unstarted
  | resetting
  | unsubscribed
  | waiting
  | returned
  deriving DecidableEq

end StatusLineVM

open StatusLineVM in
/-- `batch` is what the timer's thread has taken out of the queue and has still to call, `setting`
is a `setMessage` between `cancel` and `schedule`, and others wait for the lock or have only to
post. Beside the line stand the number of messages, the messages that were erased, each behind the
one the clear was scheduled for, the handles whose schedule has been resolved, and those that other
clients of the scheduler have got. -/
structure StatusLineVM where
  now : ℕ
  timer : DelayedScheduler Clear
  batch : List (ℕ × Clear)
  fired : Option Fired
  setting : Bool
  entering : ℕ
  leaving : ℕ
  destructor : Destructor
  text : Str
  severity : StatusSeverity
  clearHandle : ℕ
  generation : ℕ
  outstandingClears : ℤ
  messages : ℕ
  erased : List (ℕ × ℕ)
  resolved : List ℕ
  others : List ℕ

namespace StatusLineVM

def start : StatusLineVM where
  now := 0
  timer := .start
  batch := []
  fired := none
  setting := false
  entering := 0
  leaving := 0
  destructor := .unstarted
  text := []
  severity := .ok
  clearHandle := 0
  generation := 0
  outstandingClears := 0
  messages := 0
  erased := []
  resolved := []
  others := []

section Updates
variable (s : StatusLineVM)

/-- `if (clearHandle_ != 0 && timer_.cancel(clearHandle_)) --outstandingClears_` -/
def cancelClear : StatusLineVM :=
  if s.clearHandle ≠ 0 ∧ s.timer.cancels s.clearHandle then
    { s with
      timer := s.timer.cancel s.clearHandle
      outstandingClears := s.outstandingClears - 1
      resolved := s.clearHandle :: s.resolved }
  else s

def setMessage (message : Str) (severity : StatusSeverity) : StatusLineVM :=
  { s.cancelClear with
    text := message
    severity
    setting := true
    entering := s.entering - 1
    messages := s.messages + 1 }

def myGeneration : ℕ := (s.generation + 1) % 2 ^ 64

def schedule (due : ℕ) : StatusLineVM :=
  { s with
    generation := s.myGeneration
    outstandingClears := s.outstandingClears + 1
    timer := s.timer.schedule due ⟨s.myGeneration, s.messages⟩
    clearHandle := s.timer.nextId
    setting := false
    leaving := s.leaving + 1 }

def dequeue : StatusLineVM :=
  { s with
    timer := s.timer.collect s.now
    batch := (s.timer.ready s.now).map fun t => (t.id, t.fn) }

def erase (message : ℕ) : StatusLineVM :=
  { s with
    text := []
    severity := .ok
    clearHandle := 0
    erased := s.erased ++ [(message, s.messages)] }

def onClearFired (handle : ℕ) (clear : Clear) : StatusLineVM :=
  let current := clear.generation = s.generation
  { (if current then s.erase clear.message else s) with
    fired := some (.notifying current)
    outstandingClears := s.outstandingClears - 1
    resolved := handle :: s.resolved }

def other : StatusLineVM :=
  { s with
    timer := { s.timer with nextId := s.timer.nextId + 1 }
    others := s.timer.nextId :: s.others }

def bar : StatusLineVM :=
  { s.cancelClear with generation := s.myGeneration, destructor := .waiting }

end Updates

/-- A subscription is reset when no handler runs any more; the handlers are what calls
`setMessage`. -/
inductive Step (ttl : ℕ) : StatusLineVM → StatusLineVM → Prop
  | tick {s} : Step ttl s { s with now := s.now + 1 }
  | other {s} : Step ttl s s.other
  | enter {s} (hsubscribed : s.destructor = .unstarted ∨ s.destructor = .resetting) :
      Step ttl s { s with entering := s.entering + 1 }
  | setMessage {s message severity} (hentering : 0 < s.entering) (hfree : s.setting = false) :
      Step ttl s (s.setMessage message severity)
  | schedule {s asked} (hsetting : s.setting = true) (hasked : asked ≤ s.now) :
      Step ttl s (s.schedule (asked + ttl))
  | post {s} (hleaving : 0 < s.leaving) : Step ttl s { s with leaving := s.leaving - 1 }
  | dequeue {s} (hbatch : s.batch = []) (hidle : s.fired = none) : Step ttl s s.dequeue
  | call {s handle clear rest} (hbatch : s.batch = (handle, clear) :: rest)
      (hidle : s.fired = none) :
      Step ttl s { s with batch := rest, fired := some (.firing handle clear) }
  | fire {s handle clear} (hfired : s.fired = some (.firing handle clear))
      (hfree : s.setting = false) :
      Step ttl s (s.onClearFired handle clear)
  | notify {s cleared} (hfired : s.fired = some (.notifying cleared)) :
      Step ttl s { s with fired := none }
  | destroy {s} (hunstarted : s.destructor = .unstarted) : Step ttl s { s with
      destructor := .resetting }
  | reset {s} (hresetting : s.destructor = .resetting) (hentering : s.entering = 0)
      (hfree : s.setting = false)
      (hleaving : s.leaving = 0) : Step ttl s { s with destructor := .unsubscribed }
  | bar {s} (hunsubscribed : s.destructor = .unsubscribed) (hfree : s.setting = false) :
      Step ttl s s.bar
  | destroyed {s} (hwaiting : s.destructor = .waiting) (hfree : s.setting = false)
      (hdone : s.outstandingClears = 0) :
      Step ttl s { s with destructor := .returned }

variable {s s' : StatusLineVM} {ttl : ℕ}

theorem cancelClear_eq : ∃ timer outstandingClears resolved,
    s.cancelClear = { s with timer, outstandingClears, resolved } ∧
    ∀ t ∈ timer.queue, t ∈ s.timer.queue := by
  unfold cancelClear
  split_ifs with hcancels
  · exact ⟨_, _, _, rfl, fun t ht => (DelayedScheduler.mem_cancel.mp ht).1⟩
  · exact ⟨_, _, _, rfl, fun t ht => ht⟩

theorem onClearFired_eq (handle : ℕ) (clear : Clear) : ∃ text severity clearHandle erased,
    s.onClearFired handle clear = { s with
      text, severity, clearHandle, erased
      fired := some (.notifying (clear.generation = s.generation))
      outstandingClears := s.outstandingClears - 1
      resolved := handle :: s.resolved } ∧
    (erased = s.erased ∨ clear.generation = s.generation ∧
      erased = s.erased ++ [(clear.message, s.messages)]) := by
  unfold onClearFired
  dsimp only
  split_ifs with hcurrent
  · exact ⟨_, _, _, _, rfl, .inr ⟨hcurrent, rfl⟩⟩
  · exact ⟨_, _, _, _, rfl, .inl rfl⟩

def Fired.handles : Fired → List ℕ
  | .firing handle _ => [handle]
  | .notifying _ => []

def unresolved (s : StatusLineVM) : List ℕ :=
  s.timer.handles ++ (s.batch.map (·.1) ++ (s.fired.map Fired.handles).getD [])

def scheduled (s : StatusLineVM) : List ℕ :=
  (List.range s.timer.nextId).filter fun handle => handle ≠ 0 ∧ handle ∉ s.others

def Accounted (s : StatusLineVM) : Prop :=
  Outstanding s.unresolved (s.resolved ++ s.others) s.timer.nextId s.outstandingClears

theorem Accounted.count_scheduled (h : s.Accounted) :
    s.outstandingClears = (s.scheduled.filter (· ∉ s.resolved)).length := by
  rw [Outstanding.count_eq h, scheduled, List.filter_filter]
  congr 3
  funext handle
  rw [Bool.eq_iff_iff, Bool.and_eq_true]
  simp only [decide_eq_true_eq, List.mem_append]
  tauto

theorem Accounted.timer_nodup (h : s.Accounted) : s.timer.handles.Nodup :=
  (List.nodup_append.mp (List.nodup_append.mp h.nodup).1).1

theorem Accounted.cancelClear (h : s.Accounted) : s.cancelClear.Accounted := by
  unfold StatusLineVM.cancelClear
  split_ifs with hcancels
  · apply Outstanding.settle h
    exact (DelayedScheduler.cancel_perm h.timer_nodup hcancels.2).append_right _
  · exact h

theorem Accounted.schedule (h : s.Accounted) (due : ℕ) : (s.schedule due).Accounted := by
  apply Outstanding.schedule h
  exact (DelayedScheduler.schedule_handles due _).append_right _

theorem dequeue_unresolved (hbatch : s.batch = []) (hidle : s.fired = none) :
    s.dequeue.unresolved.Perm s.unresolved := by
  have hbefore : s.unresolved = s.timer.handles := by simp [unresolved, hbatch, hidle]
  have hafter : s.dequeue.unresolved = (s.timer.collect s.now).handles ++ (s.timer.ready s.now).map
      (·.id) := by
    simp [unresolved, dequeue, hidle, Function.comp_def]
  rw [hbefore, hafter]
  exact (DelayedScheduler.collect_handles s.now).symm

theorem onClearFired_unresolved {handle : ℕ} {clear : Clear}
    (hfired : s.fired = some (.firing handle clear)) :
    s.unresolved.Perm (handle :: (s.onClearFired handle clear).unresolved) := by
  have hbefore : s.unresolved = (s.timer.handles ++ s.batch.map (·.1)) ++ [handle] := by
    simp [unresolved, hfired, Fired.handles]
  have hafter : (s.onClearFired handle clear).unresolved = s.timer.handles ++
      s.batch.map (·.1) := by
    unfold onClearFired
    dsimp only
    split_ifs <;> simp [unresolved, Fired.handles, erase]
  rw [hbefore, hafter]
  exact List.perm_append_singleton ..

theorem Accounted.step (h : s.Accounted) (hstep : Step ttl s s') : s'.Accounted := by
  cases hstep with
  | other => exact Outstanding.other h
  | setMessage hentering hfree => exact h.cancelClear
  | schedule hsetting hasked => exact h.schedule _
  | dequeue hbatch hidle => exact Outstanding.perm h (dequeue_unresolved hbatch hidle)
  | @call handle clear rest hbatch hidle =>
    have hbefore : s.unresolved = s.timer.handles ++ handle :: rest.map (·.1) := by
      simp [unresolved, hbatch, hidle]
    apply Outstanding.perm h
    rw [hbefore]
    exact (List.perm_append_singleton handle (rest.map (·.1))).append_left s.timer.handles
  | @fire handle clear hfired hfree =>
    have hsettled := Outstanding.settle h (onClearFired_unresolved hfired)
    obtain ⟨text, severity, clearHandle, erased, heq, -⟩ := s.onClearFired_eq handle clear
    rw [heq] at hsettled ⊢
    exact hsettled
  | notify hfired =>
    apply Outstanding.perm h
    rw [unresolved, unresolved, hfired]
    rfl
  | bar hunsubscribed hfree => exact h.cancelClear
  | _ => exact h

/-- The counter of the generations has not gone round. -/
def InRange (s : StatusLineVM) : Prop := s.messages + 1 < 2 ^ 64

def clears (s : StatusLineVM) : List Clear :=
  s.timer.queue.map (·.fn) ++ (s.batch.map (·.2) ++
    match s.fired with
    | some (.firing _ clear) => [clear]
    | _ => [])

def barred (s : StatusLineVM) : Bool := s.destructor = .waiting ∨ s.destructor = .returned

structure Numbered (s : StatusLineVM) : Prop where
  current : s.generation + s.setting.toNat = s.messages + s.barred.toNat
  clears : ∀ clear ∈ s.clears, clear.generation = clear.message ∧ clear.message ≤ s.messages
  erased : ∀ pair ∈ s.erased, pair.2 = pair.1

def Closed (s : StatusLineVM) : Prop :=
  s.destructor = .unsubscribed ∨ s.barred = true → s.entering = 0 ∧
  s.setting = false ∧ s.leaving = 0

theorem Closed.step (h : s.Closed) (hstep : Step ttl s s') : s'.Closed := by
  have hopen : 0 < s.entering ∨ s.setting = true →
      ¬ (s.destructor = .unsubscribed ∨ s.barred = true) := by
    rintro hbusy hclosed
    obtain ⟨hentering, hsetting, -⟩ := h hclosed
    obtain hpos | hset := hbusy
    · omega
    · rw [hsetting] at hset
      cases hset
  cases hstep with
  | @enter hsubscribed =>
    intro hclosed
    obtain hunstarted | hresetting := hsubscribed
    · simp [barred, hunstarted] at hclosed
    · simp [barred, hresetting] at hclosed
  | @setMessage message severity hentering hfree =>
    obtain ⟨timer, outstandingClears, resolved, heq, -⟩ := s.cancelClear_eq
    rw [StatusLineVM.setMessage, heq]
    exact fun hclosed => absurd hclosed (hopen (.inl hentering))
  | schedule hsetting hasked => exact fun hclosed => absurd hclosed (hopen (.inr hsetting))
  | post hleaving =>
    intro hclosed
    obtain ⟨hentering, hsetting, hnone⟩ := h hclosed
    exact ⟨hentering, hsetting, by dsimp only; omega⟩
  | @fire handle clear hfired hfree =>
    obtain ⟨text, severity, clearHandle, erased, heq, -⟩ := s.onClearFired_eq handle clear
    rw [heq]
    exact h
  | destroy hunstarted =>
    intro hclosed
    simp [barred] at hclosed
  | reset hresetting hentering hfree hleaving => exact fun _ => ⟨hentering, hfree, hleaving⟩
  | bar hunsubscribed hfree =>
    obtain ⟨timer, outstandingClears, resolved, heq, -⟩ := s.cancelClear_eq
    rw [StatusLineVM.bar, heq]
    exact fun _ => h (.inl hunsubscribed)
  | destroyed hwaiting hfree hdone => exact fun _ => h (.inr (by simp [barred, hwaiting]))
  | _ => exact h

theorem InRange.before (hrange : s'.InRange) (hstep : Step ttl s s') : s.InRange := by
  cases hstep with
  | setMessage hentering hfree =>
    have hmore : s.messages + 1 + 1 < 2 ^ 64 := hrange
    rw [InRange]
    omega
  | @fire handle clear hfired hfree =>
    obtain ⟨text, severity, clearHandle, erased, heq, -⟩ := s.onClearFired_eq handle clear
    rw [heq] at hrange
    exact hrange
  | bar hunsubscribed hfree =>
    obtain ⟨timer, outstandingClears, resolved, heq, -⟩ := s.cancelClear_eq
    rw [StatusLineVM.bar, heq] at hrange
    exact hrange
  | _ => exact hrange

theorem mem_clears {clear : Clear} : clear ∈ s.clears ↔
    (∃ t ∈ s.timer.queue, t.fn = clear) ∨ (∃ call ∈ s.batch, call.2 = clear) ∨
      ∃ handle, s.fired = some (.firing handle clear) := by
  unfold clears
  rw [List.mem_append, List.mem_append, List.mem_map, List.mem_map]
  apply or_congr_right
  apply or_congr_right
  cases s.fired with
  | none => simp
  | some fired =>
    cases fired with
    | firing handle other => simp [eq_comm]
    | notifying cleared => simp

theorem Numbered.keep (h : s.Numbered)
    (hcurrent : s'.generation + s'.setting.toNat = s'.messages + s'.barred.toNat)
    (hclears : ∀ clear ∈ s'.clears, clear ∈ s.clears) (hmessages : s.messages ≤ s'.messages)
    (herased : s'.erased = s.erased) : s'.Numbered where
  current := hcurrent
  clears clear hclear :=
    ⟨(h.clears clear (hclears clear hclear)).1,
      (h.clears clear (hclears clear hclear)).2.trans hmessages⟩
  erased := by
    rw [herased]
    exact h.erased

theorem Numbered.schedule (h : s.Numbered) (hclosed : s.Closed) (hsetting : s.setting = true)
    (hrange : s.InRange) (due : ℕ) : (s.schedule due).Numbered := by
  have hcurrent := h.current
  have hopen : s.barred = false := by
    by_contra hbarred
    have hquiet := hclosed (.inr (Bool.eq_true_of_not_eq_false hbarred))
    rw [hquiet.2.1] at hsetting
    cases hsetting
  rw [hsetting, hopen] at hcurrent
  have hnew : s.myGeneration = s.messages := by
    rw [InRange] at hrange
    simp only [Bool.toNat_true, Bool.toNat_false] at hcurrent
    rw [myGeneration, hcurrent, Nat.mod_eq_of_lt (by omega)]
    rfl
  refine ⟨?_, fun clear hclear => ?_, h.erased⟩
  · change s.myGeneration + 0 = s.messages + s.barred.toNat
    rw [hnew, hopen]
    rfl
  · obtain ⟨t, ht, rfl⟩ | hrest := mem_clears.mp hclear
    · obtain rfl | hold := List.mem_cons.mp ((DelayedScheduler.schedule_perm due _).mem_iff.mp ht)
      · exact ⟨hnew, le_rfl⟩
      · exact h.clears _ (mem_clears.mpr (.inl ⟨t, hold, rfl⟩))
    · exact h.clears clear (mem_clears.mpr (.inr hrest))

theorem Numbered.fire (h : s.Numbered) {handle : ℕ} {clear : Clear}
    (hfired : s.fired = some (.firing handle clear))
    (hfree : s.setting = false) : (s.onClearFired handle clear).Numbered := by
  have hcurrent := h.current
  rw [hfree] at hcurrent
  obtain ⟨hown, hle⟩ := h.clears clear (mem_clears.mpr (.inr (.inr ⟨handle, hfired⟩)))
  obtain ⟨text, severity, clearHandle, erased, heq, herased⟩ := s.onClearFired_eq handle clear
  rw [heq]
  refine ⟨h.current, fun other hother => h.clears other ?_, fun pair hpair => ?_⟩
  · obtain hqueue | hbatch | ⟨_, hnone⟩ := mem_clears.mp hother
    · exact mem_clears.mpr (.inl hqueue)
    · exact mem_clears.mpr (.inr (.inl hbatch))
    · cases hnone
  · obtain hsame | ⟨hmatch, hmore⟩ := herased
    · exact h.erased pair (hsame ▸ hpair)
    · rw [hmore] at hpair
      obtain hold | hnew := List.mem_append.mp hpair
      · exact h.erased pair hold
      · rw [List.mem_singleton.mp hnew]
        simp only [Bool.toNat_false] at hcurrent
        dsimp only
        omega

theorem clears_sub (hqueue : ∀ t ∈ s'.timer.queue, t ∈ s.timer.queue) (hbatch : s'.batch = s.batch)
    (hfired : s'.fired = s.fired) (clear : Clear) (hclear : clear ∈ s'.clears) :
    clear ∈ s.clears := by
  obtain ⟨t, ht, heq⟩ | hrest := mem_clears.mp hclear
  · exact mem_clears.mpr (.inl ⟨t, hqueue t ht, heq⟩)
  · rw [hbatch, hfired] at hrest
    exact mem_clears.mpr (.inr hrest)

theorem dequeue_clears (clear : Clear) (hclear : clear ∈ s.dequeue.clears) :
    clear ∈ s.clears := by
  have hsplit := DelayedScheduler.ready_append_collect (s := s.timer) s.now
  obtain ⟨t, ht, heq⟩ | ⟨call, hcall, heq⟩ | hfired := mem_clears.mp hclear
  · exact mem_clears.mpr (.inl ⟨t, hsplit ▸ List.mem_append_right _ ht, heq⟩)
  · obtain ⟨t, ht, rfl⟩ := List.mem_map.mp hcall
    exact mem_clears.mpr (.inl ⟨t, hsplit ▸ List.mem_append_left _ ht, heq⟩)
  · exact mem_clears.mpr (.inr (.inr hfired))

theorem Numbered.setMessage (h : s.Numbered) (hfree : s.setting = false) (message : Str)
    (severity : StatusSeverity) :
    (s.setMessage message severity).Numbered := by
  obtain ⟨timer, outstandingClears, resolved, heq, hsub⟩ := s.cancelClear_eq
  have hcurrent := h.current
  rw [hfree, Bool.toNat_false] at hcurrent
  rw [StatusLineVM.setMessage, heq]
  refine h.keep ?_ (clears_sub hsub rfl rfl) (Nat.le_succ _) rfl
  change s.generation + 1 = s.messages + 1 + s.barred.toNat
  omega

theorem Numbered.bar (h : s.Numbered) (hunsubscribed : s.destructor = .unsubscribed)
    (hfree : s.setting = false) (hrange : s.InRange) : s.bar.Numbered := by
  obtain ⟨timer, outstandingClears, resolved, heq, hsub⟩ := s.cancelClear_eq
  have hcurrent := h.current
  simp only [hfree, barred, hunsubscribed, Bool.toNat_false, reduceCtorEq, or_self,
    decide_false] at hcurrent
  rw [InRange] at hrange
  rw [StatusLineVM.bar, heq]
  refine h.keep ?_ (clears_sub hsub rfl rfl) le_rfl rfl
  change s.myGeneration + s.setting.toNat = s.messages + 1
  rw [myGeneration, hfree, Bool.toNat_false, Nat.mod_eq_of_lt (by omega)]
  omega

theorem Numbered.step (h : s.Numbered) (hclosed : s.Closed) (hstep : Step ttl s s')
    (hrange : s'.InRange) :
    s'.Numbered := by
  have hcurrent := h.current
  have hbefore := hrange.before hstep
  cases hstep with
  | setMessage hentering hfree => exact h.setMessage hfree _ _
  | schedule hsetting hasked => exact h.schedule hclosed hsetting hrange _
  | dequeue hbatch hidle => exact h.keep hcurrent dequeue_clears le_rfl rfl
  | @call handle clear rest hbatch hidle =>
    refine h.keep hcurrent ?_ le_rfl rfl
    intro other hother
    obtain hqueue | ⟨call, hcall, heq⟩ | ⟨_, hfired⟩ := mem_clears.mp hother
    · exact mem_clears.mpr (.inl hqueue)
    · exact mem_clears.mpr (.inr (.inl ⟨call, hbatch ▸ List.mem_cons_of_mem _ hcall, heq⟩))
    · cases hfired
      exact mem_clears.mpr (.inr (.inl ⟨(handle, clear), hbatch ▸ List.mem_cons_self, rfl⟩))
  | fire hfired hfree => exact h.fire hfired hfree
  | notify hfired =>
    refine h.keep hcurrent ?_ le_rfl rfl
    intro other hother
    obtain hqueue | hbatch | ⟨_, hnone⟩ := mem_clears.mp hother
    · exact mem_clears.mpr (.inl hqueue)
    · exact mem_clears.mpr (.inr (.inl hbatch))
    · cases hnone
  | destroy hunstarted =>
    refine h.keep ?_ (fun _ => id) le_rfl rfl
    simpa [barred, hunstarted] using hcurrent
  | reset hresetting hentering hfree hleaving =>
    refine h.keep ?_ (fun _ => id) le_rfl rfl
    simpa [barred, hresetting] using hcurrent
  | bar hunsubscribed hfree => exact h.bar hunsubscribed hfree hbefore
  | destroyed hwaiting hfree hdone =>
    refine h.keep ?_ (fun _ => id) le_rfl rfl
    simpa [barred, hwaiting] using hcurrent
  | _ => exact ⟨hcurrent, h.clears, h.erased⟩

structure Rested (s : StatusLineVM) : Prop where
  unresolved : s.unresolved = []
  idle : s.fired = none

/-- The destructor does not return while the timer's thread is about to notify. -/
def Calm (s s' : StatusLineVM) : Prop :=
  s.destructor = .waiting → s'.destructor = .returned →
  ∀ cleared, s.fired ≠ some (.notifying cleared)

theorem Closed.returned (h : s.Closed) (hreturned : s.destructor = .returned) :
    s.entering = 0 ∧ s.setting = false ∧ s.leaving = 0 :=
  h (.inr (by simp [barred, hreturned]))

theorem Rested.step (h : s.Rested) (hclosed : s.Closed) (hreturned : s.destructor = .returned)
    (hstep : Step ttl s s') : s'.Rested ∧ s'.destructor = .returned := by
  obtain ⟨hentering, hsetting, hleaving⟩ := hclosed.returned hreturned
  have hbatch : s.batch = [] := by
    have hrest := (List.append_eq_nil_iff.mp h.unresolved).2
    exact List.map_eq_nil_iff.mp (List.append_eq_nil_iff.mp hrest).1
  cases hstep with
  | enter hsubscribed => simp [hreturned] at hsubscribed
  | setMessage hpos hfree => omega
  | schedule hset hasked => exact absurd (hsetting.symm.trans hset) nofun
  | post hpos => omega
  | dequeue hempty hidle =>
    have hnil := dequeue_unresolved hempty hidle
    rw [h.unresolved] at hnil
    exact ⟨⟨hnil.eq_nil, h.idle⟩, hreturned⟩
  | call hcalled hidle => exact absurd (hbatch.symm.trans hcalled) nofun
  | fire hfired hfree => exact absurd (h.idle.symm.trans hfired) nofun
  | notify hfired => exact absurd (h.idle.symm.trans hfired) nofun
  | destroy hother | reset hother | bar hother | destroyed hother =>
      exact absurd (hreturned.symm.trans hother) nofun
  | tick | other => exact ⟨⟨h.unresolved, h.idle⟩, hreturned⟩

theorem rested_of_done (h : s.Accounted) (hdone : s.outstandingClears = 0)
    (hcalm : ∀ cleared, s.fired ≠ some (.notifying cleared)) : s.Rested := by
  have hnone := Outstanding.none_left h hdone
  have hfired := (List.append_eq_nil_iff.mp (List.append_eq_nil_iff.mp hnone).2).2
  refine ⟨hnone, ?_⟩
  cases hphase : s.fired with
  | none => rfl
  | some fired =>
    cases fired with
    | firing handle clear => simp [hphase, Fired.handles] at hfired
    | notifying cleared => exact absurd hphase (hcalm cleared)

theorem rested_step (haccounted : s.Accounted) (hclosed : s.Closed)
    (h : s.destructor = .returned → s.Rested) (hstep : Step ttl s s') (hcalm : s.Calm s') :
    s'.destructor = .returned → s'.Rested := by
  intro hreturned
  by_cases hbefore : s.destructor = .returned
  · exact ((h hbefore).step hclosed hbefore hstep).1
  · cases hstep with
    | setMessage hentering hfree =>
      obtain ⟨timer, outstandingClears, resolved, heq, -⟩ := s.cancelClear_eq
      rw [StatusLineVM.setMessage, heq] at hreturned
      exact absurd hreturned hbefore
    | @fire handle clear hfired hfree =>
      obtain ⟨text, severity, clearHandle, erased, heq, -⟩ := s.onClearFired_eq handle clear
      rw [heq] at hreturned
      exact absurd hreturned hbefore
    | destroy | reset | bar => cases hreturned
    | destroyed hwaiting hfree hdone =>
      have hrested := rested_of_done haccounted hdone (hcalm hwaiting rfl)
      exact ⟨hrested.unresolved, hrested.idle⟩
    | _ => exact absurd hreturned hbefore

theorem start_accounted : start.Accounted := Outstanding.start

theorem start_numbered : start.Numbered := ⟨rfl, nofun, nofun⟩

theorem start_closed : start.Closed := by
  intro hclosed
  simp [start, barred] at hclosed

theorem sound_run (h : ReflTransGen (Step ttl) start s) :
    s.Accounted ∧ s.Closed ∧ (s.InRange → s.Numbered) := by
  induction h with
  | refl => exact ⟨start_accounted, start_closed, fun _ => start_numbered⟩
  | tail _ hstep ih =>
    obtain ⟨haccounted, hclosed, hnumbered⟩ := ih
    refine ⟨haccounted.step hstep, hclosed.step hstep, fun hrange => ?_⟩
    exact (hnumbered (hrange.before hstep)).step hclosed hstep hrange

theorem rested_run (h : ReflTransGen (fun s s' => Step ttl s s' ∧ s.Calm s') start s) :
    s.destructor = .returned → s.Rested := by
  induction h with
  | refl => nofun
  | tail hrun hstep ih =>
    obtain ⟨haccounted, hclosed, -⟩ := sound_run (hrun.lift id fun _ _ h => h.1)
    exact rested_step haccounted hclosed ih hstep.1 hstep.2

theorem rested_for_good (hreach : ReflTransGen (Step ttl) start s) (hrested : s.Rested)
    (hreturned : s.destructor = .returned) (h : ReflTransGen (Step ttl) s s') :
    s'.Rested ∧ s'.destructor = .returned := by
  induction h with
  | refl => exact ⟨hrested, hreturned⟩
  | tail hlater hstep ih =>
    obtain ⟨hrest, hdone⟩ := ih
    exact hrest.step (sound_run (hreach.trans hlater)).2.1 hdone hstep

/-- The counter is the number of the clears scheduled and neither cancelled nor finished, what a
clear erased is its own message, and when the destructor has returned, no clear runs and none
will. -/
theorem clears_barred (h : ReflTransGen (Step ttl) start s) :
    s.outstandingClears = (s.scheduled.filter (· ∉ s.resolved)).length ∧
      (s.InRange → ∀ pair ∈ s.erased, pair.2 = pair.1) ∧
      (ReflTransGen (fun s s' => Step ttl s s' ∧ s.Calm s') start s →
        s.destructor = .returned →
        ∀ s', ReflTransGen (Step ttl) s s' → s'.fired = none ∧ s'.unresolved = []) := by
  obtain ⟨haccounted, -, hnumbered⟩ := sound_run h
  refine ⟨haccounted.count_scheduled, fun hrange => (hnumbered hrange).erased,
    fun hrun hreturned s' hlater => ?_⟩
  have hrested := rested_run hrun hreturned
  obtain ⟨hrest, -⟩ := rested_for_good h hrested hreturned hlater
  exact ⟨hrest.idle, hrest.unresolved⟩

def added : Str := str "usb device added: Mouse"

theorem destructor_cancels : ∃ s : StatusLineVM, s.destructor = .returned ∧ s.resolved = [1] ∧
    s.fired = none := by
  have hrun : ReflTransGen (fun s s' => Step 5000 s s' ∧ s.Calm s') start _ :=
    .head ⟨.enter (.inl rfl), nofun⟩
      (.head ⟨@.setMessage _ _ added .info Nat.one_pos rfl, nofun⟩
        (.head ⟨@.schedule _ _ 0 rfl le_rfl, nofun⟩
          (.head ⟨.post Nat.one_pos, nofun⟩
            (.head ⟨.destroy rfl, nofun⟩
              (.head ⟨.reset rfl rfl rfl rfl, nofun⟩
                (.head ⟨.bar rfl rfl, nofun⟩
                  (.single ⟨.destroyed rfl rfl rfl, fun _ _ => nofun⟩)))))))
  have hbarred := (clears_barred (hrun.lift id fun _ _ h => h.1)).2.2 hrun rfl _ .refl
  exact ⟨_, rfl, rfl, hbarred.1⟩

/-- The destructor returns between the unlock of a clear and its notification. -/
theorem destructor_returns_beside_clear : ¬ ∀ ttl s, ReflTransGen (Step ttl) start s →
    s.destructor = .returned → s.fired = none := by
  intro hall
  have hrun : ReflTransGen (Step 1) start _ :=
    .head (.enter (.inl rfl))
      (.head (@.setMessage _ _ added .info Nat.one_pos rfl)
        (.head (@.schedule _ _ 0 rfl le_rfl)
          (.head (.post Nat.one_pos)
            (.head .tick (.head (.dequeue rfl rfl) (.head (.call rfl rfl) (.head (.fire rfl rfl)
              (.head (.destroy rfl)
                (.head (.reset rfl rfl rfl rfl)
                  (.head (.bar rfl rfl) (.single (.destroyed rfl rfl rfl))))))))))))
  exact absurd (hall 1 _ hrun rfl) nofun

end StatusLineVM

end DevMgr.App
