import Mathlib.Algebra.BigOperators.Group.Finset.Basic
import Mathlib.Data.Fintype.Basic
import Mathlib.Data.Nat.Notation
import Mathlib.Logic.Function.Basic
import Mathlib.Logic.Relation

/-!
# The event bus

A publish takes a snapshot of the handlers and invokes them one after another
without the lock; handlers use the bus themselves. An unsubscribe waits for the
invocations of its handler, unless it is called by one of them. A subscription is
reset once, by one thread.
-/

namespace DevMgr.Runtime
open Relation

structure Entry (Thread : Type) where
  inFlight : ℕ
  running : List Thread
  removed : Bool

/-- What a thread is in, on its stack: the handlers a publish has still to come to, the handler of
an entry, or the wait of an unsubscribe. -/
inductive Frame where
  | publishing (targets : List ℕ)
  | invoking (id : ℕ)
  | waiting (id : ℕ)
  deriving DecidableEq

def Calling : List Frame → Prop
  | [] | .invoking _ :: _ => True
  | _ => False

/-- `returned` lists the entries whose unsubscribe has returned, with the thread that had called
it. -/
structure EventBus (Event Thread : Type) where
  nextId : ℕ
  entries : ℕ → Entry Thread
  handlers : Event → List ℕ
  subscriptions : ℕ → Option Event
  threads : Thread → List Frame
  returned : List (ℕ × Thread)

namespace EventBus
variable {Event Thread : Type}

inductive Action (Event Thread : Type) where
  | subscribe (t : Thread) (event : Event)
  | publish (t : Thread) (event : Event)
  | beginInvoke (t : Thread)
  | skip (t : Thread)
  | endInvoke (t : Thread)
  | throw (t : Thread)
  | published (t : Thread)
  | unsubscribe (t : Thread) (id : ℕ)
  | drained (t : Thread)

def start : EventBus Event Thread :=
  ⟨1, fun _ => ⟨0, [], false⟩, fun _ => [], fun _ => none, fun _ => [], []⟩

section Updates
variable (s : EventBus Event Thread)

def goTo [DecidableEq Thread] (t : Thread) (stack : List Frame) : EventBus Event Thread :=
  { s with threads := Function.update s.threads t stack }

def subscribe [DecidableEq Event] (event : Event) : EventBus Event Thread :=
  { s with
    nextId := s.nextId + 1
    entries := Function.update s.entries s.nextId ⟨0, [], false⟩
    handlers := Function.update s.handlers event (s.handlers event ++ [s.nextId])
    subscriptions := Function.update s.subscriptions s.nextId (some event) }

def beginInvoke (t : Thread) (id : ℕ) : EventBus Event Thread :=
  { s with
    entries := Function.update s.entries id
      { s.entries id with
        inFlight := (s.entries id).inFlight + 1
        running := (s.entries id).running ++ [t] } }

def endInvoke [DecidableEq Thread] (t : Thread) (id : ℕ) : EventBus Event Thread :=
  { s with
    entries := Function.update s.entries id
      { s.entries id with
        inFlight := (s.entries id).inFlight - 1
        running := (s.entries id).running.erase t } }

def reset (id : ℕ) : EventBus Event Thread :=
  { s with subscriptions := Function.update s.subscriptions id none }

def remove [DecidableEq Event] (event : Event) (id : ℕ) : EventBus Event Thread :=
  { s with
    entries := Function.update s.entries id { s.entries id with removed := true }
    handlers := Function.update s.handlers event ((s.handlers event).erase id) }

def returns (t : Thread) (id : ℕ) : EventBus Event Thread :=
  { s with returned := s.returned ++ [(id, t)] }

def invocations (t : Thread) (id : ℕ) : ℕ := (s.threads t).count (.invoking id)

end Updates

inductive Step [DecidableEq Event] [DecidableEq Thread] : EventBus Event Thread →
    Action Event Thread → EventBus Event Thread → Prop
  | subscribe {s t event} (hcalling : Calling (s.threads t)) : Step s (.subscribe t event)
      (s.subscribe event)
  | publish {s t event} (hcalling : Calling (s.threads t)) :
      Step s (.publish t event) (s.goTo t (.publishing (s.handlers event) :: s.threads t))
  | beginInvoke {s t id targets stack} (hstack : s.threads t = .publishing (id :: targets) :: stack)
      (hpresent : (s.entries id).removed = false) :
      Step s (.beginInvoke t)
        ((s.beginInvoke t id).goTo t (.invoking id :: .publishing targets :: stack))
  | skip {s t id targets stack} (hstack : s.threads t = .publishing (id :: targets) :: stack)
      (hremoved : (s.entries id).removed = true) : Step s (.skip t)
        (s.goTo t (.publishing targets :: stack))
  | endInvoke {s t id stack} (hstack : s.threads t = .invoking id :: stack) :
      Step s (.endInvoke t) ((s.endInvoke t id).goTo t stack)
  | throw {s t id targets stack}
      (hstack : s.threads t = .invoking id :: .publishing targets :: stack) :
      Step s (.throw t) ((s.endInvoke t id).goTo t stack)
  | published {s t stack} (hstack : s.threads t = .publishing [] :: stack) :
      Step s (.published t) (s.goTo t stack)
  | unsubscribe_unknown {s t event id} (hcalling : Calling (s.threads t))
      (hsubscribed : s.subscriptions id = some event)
      (hunknown : id ∉ s.handlers event) : Step s (.unsubscribe t id) ((s.reset id).returns t id)
  | unsubscribe_own {s t event id} (hcalling : Calling (s.threads t))
      (hsubscribed : s.subscriptions id = some event)
      (hknown : id ∈ s.handlers event) (hown : t ∈ (s.entries id).running) :
      Step s (.unsubscribe t id) (((s.reset id).remove event id).returns t id)
  | unsubscribe {s t event id} (hcalling : Calling (s.threads t))
      (hsubscribed : s.subscriptions id = some event)
      (hknown : id ∈ s.handlers event) (hother : t ∉ (s.entries id).running) :
      Step s (.unsubscribe t id)
        (((s.reset id).remove event id).goTo t (.waiting id :: s.threads t))
  | drained {s t id stack} (hstack : s.threads t = .waiting id :: stack)
      (hdrained : (s.entries id).inFlight = 0) :
      Step s (.drained t) ((s.returns t id).goTo t stack)

variable {s s' : EventBus Event Thread} {a : Action Event Thread}

theorem beginInvoke_removed (t : Thread) (id id' : ℕ) :
    ((s.beginInvoke t id).entries id').removed = (s.entries id').removed := by
  by_cases heq : id' = id
  · simp [beginInvoke, heq]
  · simp [beginInvoke, heq]

theorem reset_self (id : ℕ) : (s.reset id).subscriptions id = none := Function.update_self ..

section
variable [DecidableEq Event]

theorem remove_removed {event : Event} {id : ℕ} :
    ((s.remove event id).entries id).removed = true := by
  simp [remove]

theorem subscribe_entries {id : ℕ} (h : id < s.nextId) (event : Event) :
    (s.subscribe event).entries id = s.entries id := Function.update_of_ne h.ne ..

theorem mem_subscribe {id : ℕ} {event' : Event} (h : id ∈ s.handlers event') (event : Event) :
    id ∈ (s.subscribe event).handlers event' := by
  change id ∈ Function.update s.handlers event (s.handlers event ++ [s.nextId]) event'
  by_cases heq : event' = event
  · rw [heq, Function.update_self]
    exact List.mem_append_left _ (heq ▸ h)
  · rw [Function.update_of_ne heq]
    exact h

end

variable [DecidableEq Thread]

def Below (n : ℕ) : Frame → Prop
  | .publishing targets => ∀ id ∈ targets, id < n
  | .invoking id | .waiting id => id < n

structure Sound (s : EventBus Event Thread) : Prop where
  running : ∀ t id, (s.entries id).running.count t = s.invocations t id
  inFlight : ∀ id, (s.entries id).inFlight = (s.entries id).running.length
  handlers : ∀ event, ∀ id ∈ s.handlers event, id < s.nextId
  frames : ∀ t, ∀ frame ∈ s.threads t, Below s.nextId frame
  subscribed : ∀ id event, s.subscriptions id = some event → id < s.nextId ∧
      id ∈ s.handlers event
  waiting : ∀ t id, .waiting id ∈ s.threads t → (s.entries id).removed = true
  returned : ∀ p ∈ s.returned, p.1 < s.nextId ∧ (s.entries p.1).removed = true

theorem sound_start : (start : EventBus Event Thread).Sound :=
  ⟨fun _ _ => rfl, fun _ => rfl, nofun, nofun, nofun, nofun, nofun⟩

theorem Sound.inFlight_eq [Fintype Thread] (h : s.Sound) (id : ℕ) :
    (s.entries id).inFlight = ∑ t, s.invocations t id := by
  have hcard := Multiset.sum_count_eq_card (s := Finset.univ)
      (m := ((s.entries id).running : Multiset Thread))
    fun t _ => Finset.mem_univ t
  rw [Multiset.coe_card, ← h.inFlight id] at hcard
  rw [← hcard]
  exact Finset.sum_congr rfl fun t _ => (Multiset.coe_count t _).trans (h.running t id)

theorem Below.mono {n m : ℕ} (hle : n ≤ m) {frame : Frame} (h : Below n frame) :
    Below m frame := by
  cases frame with
  | publishing targets => exact fun id hid => (h id hid).trans_le hle
  | invoking id => exact Nat.lt_of_lt_of_le h hle
  | waiting id => exact Nat.lt_of_lt_of_le h hle

theorem goTo_self (t : Thread) (stack : List Frame) : (s.goTo t stack).threads t = stack :=
  Function.update_self ..

theorem goTo_other {t t' : Thread} (h : t' ≠ t) (stack : List Frame) :
    (s.goTo t stack).threads t' = s.threads t' :=
  Function.update_of_ne h ..

theorem invocations_goTo_self (t : Thread) (stack : List Frame) (id : ℕ) :
    (s.goTo t stack).invocations t id = stack.count (.invoking id) :=
  congrArg (List.count (Frame.invoking id)) (goTo_self (s := s) t stack)

theorem invocations_goTo_other {t t' : Thread} (h : t' ≠ t) (stack : List Frame) (id : ℕ) :
    (s.goTo t stack).invocations t' id = s.invocations t' id :=
  congrArg (List.count (Frame.invoking id)) (goTo_other (s := s) h stack)

theorem invocations_goTo_le {t : Thread} {stack : List Frame} {id : ℕ}
    (hle : stack.count (.invoking id) ≤ s.invocations t id) (t' : Thread) :
    (s.goTo t stack).invocations t' id ≤ s.invocations t' id := by
  by_cases ht : t' = t
  · rw [ht, invocations_goTo_self]
    exact hle
  · rw [invocations_goTo_other ht]

theorem Sound.move (h : s.Sound) {entries : ℕ → Entry Thread} {t : Thread} {stack : List Frame}
    (hrunning : ∀ t' id, (entries id).running.count t' = (s.goTo t stack).invocations t' id)
    (hinFlight : ∀ id, (entries id).inFlight = (entries id).running.length)
    (hremoved : ∀ id, (s.entries id).removed = true → (entries id).removed = true)
    (hframes : ∀ frame ∈ stack, Below s.nextId frame)
    (hwaiting : ∀ id, .waiting id ∈ stack → (entries id).removed = true) :
    (({ s with entries } : EventBus Event Thread).goTo t stack).Sound where
  running := hrunning
  inFlight := hinFlight
  handlers := h.handlers
  frames :=
    (Function.forall_update_iff s.threads fun _ stack => ∀ frame ∈ stack,
      Below s.nextId frame).mpr
    ⟨hframes, fun t' _ => h.frames t'⟩
  subscribed := h.subscribed
  waiting := (Function.forall_update_iff s.threads fun _ stack =>
    ∀ id, .waiting id ∈ stack → (entries id).removed = true).mpr
      ⟨hwaiting, fun t' _ id hid => hremoved id (h.waiting t' id hid)⟩
  returned p hp := ⟨(h.returned p hp).1, hremoved p.1 (h.returned p hp).2⟩

theorem Sound.goTo (h : s.Sound) {t : Thread} {stack : List Frame}
    (hcount : ∀ id, stack.count (.invoking id) = s.invocations t id)
    (hframes : ∀ frame ∈ stack, Below s.nextId frame)
    (hwaiting : ∀ id, .waiting id ∈ stack → (s.entries id).removed = true) :
    (s.goTo t stack).Sound := by
  refine h.move (fun t' id => ?_) h.inFlight (fun _ => id) hframes hwaiting
  rw [h.running]
  by_cases ht : t' = t
  · rw [ht, invocations_goTo_self, hcount]
  · rw [invocations_goTo_other ht]

theorem Sound.frames_cons (h : s.Sound) {t : Thread} {frame : Frame} {stack : List Frame}
    (hstack : s.threads t = frame :: stack) : Below s.nextId frame ∧
    ∀ frame ∈ stack, Below s.nextId frame := by
  have hframes := h.frames t
  rw [hstack] at hframes
  exact List.forall_mem_cons.mp hframes

theorem Sound.waiting_tail (h : s.Sound) {t : Thread} {frame : Frame} {stack : List Frame}
    (hstack : s.threads t = frame :: stack) (id : ℕ) (hid : .waiting id ∈ stack) :
    (s.entries id).removed = true := by
  refine h.waiting t id ?_
  rw [hstack]
  exact List.mem_cons_of_mem _ hid

theorem Sound.reset (h : s.Sound) (id : ℕ) : (s.reset id).Sound where
  running := h.running
  inFlight := h.inFlight
  handlers := h.handlers
  frames := h.frames
  subscribed := (Function.forall_update_iff s.subscriptions fun id subscription =>
    ∀ event, subscription = some event → id < s.nextId ∧ id ∈ s.handlers event).mpr
      ⟨nofun, fun id _ => h.subscribed id⟩
  waiting := h.waiting
  returned := h.returned

section
variable [DecidableEq Event]

theorem Sound.subscribe (h : s.Sound) (event : Event) : (s.subscribe event).Sound where
  running t :=
    (Function.forall_update_iff s.entries fun id entry => entry.running.count t =
      s.invocations t id).mpr
    ⟨(List.count_eq_zero_of_not_mem fun hmem => Nat.lt_irrefl _ (h.frames t _ hmem)).symm,
      fun id _ => h.running t id⟩
  inFlight :=
    (Function.forall_update_iff s.entries fun _ entry => entry.inFlight = entry.running.length).mpr
      ⟨rfl, fun id _ => h.inFlight id⟩
  handlers :=
    (Function.forall_update_iff s.handlers fun _ ids => ∀ id ∈ ids, id < s.nextId + 1).mpr
      ⟨fun id hid => (List.mem_append.mp hid).elim
        (fun hold => Nat.lt_succ_of_lt (h.handlers event id hold))
        fun hnew => Nat.lt_succ_of_le (List.mem_singleton.mp hnew).le,
        fun event' _ id hid => Nat.lt_succ_of_lt (h.handlers event' id hid)⟩
  frames t frame hframe := (h.frames t frame hframe).mono (Nat.le_succ _)
  subscribed id event' hid := by
    change Function.update s.subscriptions s.nextId (some event) id = some event' at hid
    by_cases hnew : id = s.nextId
    · rw [hnew, Function.update_self] at hid
      obtain rfl := Option.some.inj hid
      refine ⟨Nat.lt_succ_of_le hnew.le, ?_⟩
      change id ∈ Function.update s.handlers event (s.handlers event ++ [s.nextId]) event
      rw [hnew, Function.update_self]
      exact List.mem_append_right _ (List.mem_singleton.mpr rfl)
    · rw [Function.update_of_ne hnew] at hid
      obtain ⟨hlt, hmem⟩ := h.subscribed id event' hid
      exact ⟨Nat.lt_succ_of_lt hlt, mem_subscribe hmem event⟩
  waiting t id hid := by
    rw [subscribe_entries (h.frames t _ hid)]
    exact h.waiting t id hid
  returned p hp := by
    obtain ⟨hlt, hremoved⟩ := h.returned p hp
    exact ⟨Nat.lt_succ_of_lt hlt,
      (congrArg Entry.removed (subscribe_entries hlt event)).trans hremoved⟩

theorem Sound.remove (h : s.Sound) {event : Event} {id : ℕ} (hreset : s.subscriptions id = none) :
    (s.remove event id).Sound where
  running t :=
    (Function.forall_update_iff s.entries fun id entry => entry.running.count t =
      s.invocations t id).mpr
    ⟨h.running t id, fun id _ => h.running t id⟩
  inFlight :=
    (Function.forall_update_iff s.entries fun _ entry => entry.inFlight = entry.running.length).mpr
      ⟨h.inFlight id, fun id _ => h.inFlight id⟩
  handlers := (Function.forall_update_iff s.handlers fun _ ids => ∀ id ∈ ids, id < s.nextId).mpr
    ⟨fun id hid => h.handlers event id (List.mem_of_mem_erase hid),
      fun event' _ => h.handlers event'⟩
  frames := h.frames
  subscribed id' event' hid' := by
    obtain ⟨hlt, hmem⟩ := h.subscribed id' event' hid'
    have hne : id' ≠ id := by
      rintro rfl
      exact absurd (hreset.symm.trans hid') nofun
    refine ⟨hlt, ?_⟩
    change id' ∈ Function.update s.handlers event ((s.handlers event).erase id) event'
    by_cases heq : event' = event
    · rw [heq, Function.update_self]
      exact (List.mem_erase_of_ne hne).mpr (heq ▸ hmem)
    · rw [Function.update_of_ne heq]
      exact hmem
  waiting t := (Function.forall_update_iff s.entries fun id entry =>
    .waiting id ∈ s.threads t → entry.removed = true).mpr ⟨fun _ => rfl,
    fun id _ => h.waiting t id⟩
  returned p hp := ⟨(h.returned p hp).1, (Function.forall_update_iff s.entries fun id entry =>
    p.1 = id → entry.removed = true).mpr ⟨fun _ => rfl, fun id _ hid =>
      hid ▸ (h.returned p hp).2⟩ p.1 rfl⟩

end

theorem Sound.returns (h : s.Sound) {t : Thread} {id : ℕ} (hlt : id < s.nextId)
    (hremoved : (s.entries id).removed = true) : (s.returns t id).Sound where
  running := h.running
  inFlight := h.inFlight
  handlers := h.handlers
  frames := h.frames
  subscribed := h.subscribed
  waiting := h.waiting
  returned :=
    List.forall_mem_append.mpr ⟨h.returned, List.forall_mem_singleton.mpr ⟨hlt, hremoved⟩⟩

theorem count_publishing (targets : List ℕ) (stack : List Frame) (id : ℕ) :
    (Frame.publishing targets :: stack).count (.invoking id) = stack.count (.invoking id) := by
  simp

theorem count_waiting (id' : ℕ) (stack : List Frame) (id : ℕ) :
    (Frame.waiting id' :: stack).count (.invoking id) = stack.count (.invoking id) := by
  simp

theorem count_invoking_of_ne {id id' : ℕ} (h : id' ≠ id) (stack : List Frame) :
    (Frame.invoking id :: stack).count (.invoking id') = stack.count (.invoking id') := by
  simp [h.symm]

theorem endInvoke_removed (t : Thread) (id id' : ℕ) :
    ((s.endInvoke t id).entries id').removed = (s.entries id').removed := by
  by_cases heq : id' = id
  · simp [endInvoke, heq]
  · simp [endInvoke, heq]

theorem Sound.beginInvoke (h : s.Sound) {t : Thread} {id : ℕ} {targets : List ℕ}
    {stack : List Frame} (hstack : s.threads t = .publishing (id :: targets) :: stack) :
    ((s.beginInvoke t id).goTo t (.invoking id :: .publishing targets :: stack)).Sound := by
  obtain ⟨htargets, hframes⟩ := h.frames_cons hstack
  have hcount : ∀ id', s.invocations t id' = stack.count (.invoking id') := by
    intro id'
    rw [invocations, hstack, count_publishing]
  refine h.move (fun t' => ?_) ?_ (fun id' => ?_) ?_ fun id' hid' => ?_
  · refine (Function.forall_update_iff s.entries fun id' entry => entry.running.count t' =
      (s.goTo t (.invoking id :: .publishing targets :: stack)).invocations t' id').mpr ⟨?_,
      fun id' hne => ?_⟩
    · rw [List.count_append, h.running]
      by_cases ht : t' = t
      · rw [ht, invocations_goTo_self, List.count_singleton_self, List.count_cons_self,
          count_publishing, hcount]
      · rw [invocations_goTo_other ht, List.count_eq_zero_of_not_mem (by simp [ht])]
        rfl
    · rw [h.running]
      by_cases ht : t' = t
      · rw [ht, invocations_goTo_self, count_invoking_of_ne hne, count_publishing, hcount]
      · rw [invocations_goTo_other ht]
  · exact (Function.forall_update_iff s.entries fun _ entry => entry.inFlight =
      entry.running.length).mpr
      ⟨by simp [h.inFlight id], fun id _ => h.inFlight id⟩
  · exact (beginInvoke_removed t id id').trans
  · simp only [List.forall_mem_cons]
    exact ⟨htargets id List.mem_cons_self,
      fun id' hid' => htargets id' (List.mem_cons_of_mem _ hid'), hframes⟩
  · have hold : .waiting id' ∈ stack := by simpa using hid'
    exact (beginInvoke_removed t id id').trans (h.waiting_tail hstack id' hold)

theorem Sound.endInvoke (h : s.Sound) {t : Thread} {id : ℕ} {stack : List Frame}
    (hstack : ∀ id', s.invocations t id' = (Frame.invoking id :: stack).count (.invoking id'))
    (hsub : ∀ frame ∈ stack, frame ∈ s.threads t) :
    ((s.endInvoke t id).goTo t stack).Sound := by
  have hself : (s.entries id).running.count t = stack.count (.invoking id) + 1 := by
    rw [h.running, hstack, List.count_cons_self]
  have hmem : t ∈ (s.entries id).running := List.count_pos_iff.mp (by omega)
  refine h.move (fun t' => ?_) ?_ (fun id' => ?_)
    (fun frame hframe => h.frames t frame (hsub frame hframe))
    fun id' hid' => ?_
  · refine (Function.forall_update_iff s.entries fun id' entry => entry.running.count t' =
      (s.goTo t stack).invocations t' id').mpr ⟨?_, fun id' hne => ?_⟩
    · by_cases ht : t' = t
      · rw [ht, invocations_goTo_self, List.count_erase_self, hself, Nat.add_sub_cancel]
      · rw [invocations_goTo_other ht, List.count_erase_of_ne ht, h.running]
    · rw [h.running]
      by_cases ht : t' = t
      · rw [ht, invocations_goTo_self, hstack, count_invoking_of_ne hne]
      · rw [invocations_goTo_other ht]
  · refine (Function.forall_update_iff s.entries fun _ entry => entry.inFlight =
      entry.running.length).mpr
      ⟨?_, fun id _ => h.inFlight id⟩
    rw [List.length_erase_of_mem hmem, h.inFlight]
  · exact (endInvoke_removed t id id').trans
  · exact (endInvoke_removed t id id').trans (h.waiting t id' (hsub _ hid'))

variable [DecidableEq Event]

theorem Sound.step (h : s.Sound) (hstep : Step s a s') : s'.Sound := by
  cases hstep with
  | subscribe hcalling => exact h.subscribe _
  | @publish t event hcalling =>
    refine h.goTo (fun id => count_publishing ..)
      (List.forall_mem_cons.mpr ⟨h.handlers event, h.frames t⟩) ?_
    exact fun id hid => h.waiting t id (by simpa using hid)
  | beginInvoke hstack hpresent => exact h.beginInvoke hstack
  | @skip t id targets stack hstack hremoved =>
    obtain ⟨htargets, hframes⟩ := h.frames_cons hstack
    refine h.goTo (fun id' => ?_) (List.forall_mem_cons.mpr ⟨fun id' hid' => ?_, hframes⟩)
      fun id' hid' => ?_
    · rw [invocations, hstack, count_publishing, count_publishing]
    · exact htargets id' (List.mem_cons_of_mem _ hid')
    · exact h.waiting_tail hstack id' (by simpa using hid')
  | endInvoke hstack =>
    refine h.endInvoke (fun id' => ?_) fun frame hframe => ?_
    · rw [invocations, hstack]
    · rw [hstack]
      exact List.mem_cons_of_mem _ hframe
  | throw hstack =>
    refine h.endInvoke (fun id' => ?_) fun frame hframe => ?_
    · rw [invocations, hstack, List.count_cons, count_publishing, List.count_cons]
    · rw [hstack]
      exact List.mem_cons_of_mem _ (List.mem_cons_of_mem _ hframe)
  | @published t stack hstack =>
    refine h.goTo (fun id' => ?_) (h.frames_cons hstack).2 (h.waiting_tail hstack)
    rw [invocations, hstack, count_publishing]
  | unsubscribe_unknown hcalling hsubscribed hunknown =>
      exact absurd (h.subscribed _ _ hsubscribed).2 hunknown
  | @unsubscribe_own t event id hcalling hsubscribed hknown hown =>
    have hremove : ((s.reset id).remove event id).Sound := (h.reset id).remove (reset_self id)
    exact hremove.returns (h.subscribed _ _ hsubscribed).1 remove_removed
  | @unsubscribe t event id hcalling hsubscribed hknown hother =>
    have hremove : ((s.reset id).remove event id).Sound := (h.reset id).remove (reset_self id)
    refine hremove.goTo (fun id' => count_waiting ..) ?_ fun id' hid' => ?_
    · exact List.forall_mem_cons.mpr ⟨(h.subscribed _ _ hsubscribed).1, h.frames t⟩
    · rcases List.mem_cons.mp hid' with hnew | hold
      · rw [Frame.waiting.inj hnew]
        exact remove_removed
      · exact hremove.waiting t id' hold
  | @drained t id stack hstack hdrained =>
    obtain ⟨hlt, hframes⟩ := h.frames_cons hstack
    have hremoved : (s.entries id).removed = true := h.waiting t id (hstack ▸ List.mem_cons_self)
    refine (h.returns hlt hremoved).goTo (fun id' => ?_) hframes (h.waiting_tail hstack)
    change _ = s.invocations t id'
    rw [invocations, hstack, count_waiting]

theorem removed_step (hstep : Step s a s') {id : ℕ} (hlt : id < s.nextId)
    (hremoved : (s.entries id).removed = true) : (s'.entries id).removed = true := by
  have hremove : ∀ event id', ((s.remove event id').entries id).removed = true := by
    intro event id'
    by_cases heq : id = id'
    · simp [remove, heq]
    · simpa [remove, heq] using hremoved
  cases hstep with
  | subscribe hcalling => rw [subscribe_entries hlt]; exact hremoved
  | beginInvoke hstack hpresent => exact (beginInvoke_removed ..).trans hremoved
  | endInvoke hstack => exact (endInvoke_removed ..).trans hremoved
  | throw hstack => exact (endInvoke_removed ..).trans hremoved
  | @unsubscribe_own t event id' hcalling hsubscribed hknown hown => exact hremove event id'
  | @unsubscribe t event id' hcalling hsubscribed hknown hother => exact hremove event id'
  | _ => exact hremoved

theorem invocations_step (hstep : Step s a s') {id : ℕ} (hremoved : (s.entries id).removed = true)
    (t : Thread) :
    s'.invocations t id ≤ s.invocations t id := by
  cases hstep with
  | publish hcalling => exact invocations_goTo_le (count_publishing ..).le t
  | @beginInvoke t' id' targets stack hstack hpresent =>
    have hne : id ≠ id' := by
      rintro rfl
      exact absurd (hremoved.symm.trans hpresent) nofun
    refine invocations_goTo_le (s := s.beginInvoke t' id') ?_ t
    rw [count_invoking_of_ne hne, count_publishing]
    exact (congrArg (List.count _) hstack).trans (count_publishing ..) |>.ge
  | @skip t' id' targets stack hstack hremoved' =>
    refine invocations_goTo_le ?_ t
    rw [invocations, hstack, count_publishing, count_publishing]
  | @endInvoke t' id' stack hstack =>
    refine invocations_goTo_le (s := s.endInvoke t' id') ?_ t
    exact ((List.sublist_cons_self _ _).count_le _).trans (congrArg (List.count _) hstack).ge
  | @throw t' id' targets stack hstack =>
    refine invocations_goTo_le (s := s.endInvoke t' id') ?_ t
    have hsub : stack.Sublist (.invoking id' :: .publishing targets :: stack) :=
      (List.sublist_cons_self _ _).trans (List.sublist_cons_self _ _)
    exact (hsub.count_le _).trans (congrArg (List.count _) hstack).ge
  | published hstack =>
    refine invocations_goTo_le ?_ t
    rw [invocations, hstack, count_publishing]
  | @unsubscribe t' event id' hcalling hsubscribed hknown hother =>
    exact invocations_goTo_le (s := (s.reset id').remove event id') (count_waiting ..).le t
  | @drained t' id' stack hstack hdrained =>
    refine invocations_goTo_le (s := s.returns t' id') ?_ t
    exact ((List.sublist_cons_self _ _).count_le _).trans (congrArg (List.count _) hstack).ge
  | _ => exact Nat.le_refl _

abbrev Next (s s' : EventBus Event Thread) : Prop := ∃ a, Step s a s'

/-- Whoever unsubscribes inside the handler is the only one inside it. -/
def Alone (s : EventBus Event Thread) : Action Event Thread → Prop
  | .unsubscribe t id => 0 < s.invocations t id → ∀ t' ≠ t, s.invocations t' id = 0
  | _ => True

def Barred (s : EventBus Event Thread) : Prop :=
  ∀ p ∈ s.returned, ∀ t ≠ p.2, s.invocations t p.1 = 0

theorem Barred.step (hsound : s.Sound) (h : s.Barred) (hstep : Step s a s') (halone : s.Alone a) :
    s'.Barred := by
  have hkept : ∀ p ∈ s.returned, ∀ t ≠ p.2, s'.invocations t p.1 = 0 := fun p hp t ht =>
    Nat.eq_zero_of_le_zero
      ((invocations_step hstep (hsound.returned p hp).2 t).trans (h p hp t ht).le)
  have hadd : ∀ t id, (∀ t' ≠ t, s'.invocations t' id = 0) →
      ∀ p ∈ s.returned ++ [(id, t)], ∀ t' ≠ p.2, s'.invocations t' p.1 = 0 :=
        fun t id hnew =>
    List.forall_mem_append.mpr ⟨hkept, List.forall_mem_singleton.mpr hnew⟩
  cases hstep with
  | unsubscribe_unknown hcalling hsubscribed hunknown =>
    exact absurd (hsound.subscribed _ _ hsubscribed).2 hunknown
  | @unsubscribe_own t event id hcalling hsubscribed hknown hown =>
    refine hadd t id (halone ?_)
    rw [← hsound.running]
    exact List.count_pos_iff.mpr hown
  | @drained t id stack hstack hdrained =>
    have hnobody : (s.entries id).running = [] :=
      List.length_eq_zero_iff.mp ((hsound.inFlight id).symm.trans hdrained)
    refine hadd t id fun t' ht' => ?_
    rw [invocations_goTo_other ht']
    change s.invocations t' id = 0
    rw [← hsound.running, hnobody]
    rfl
  | _ => exact hkept

theorem sound_run (h : ReflTransGen Next start s) : s.Sound := by
  induction h with
  | refl => exact sound_start
  | tail _ hstep ih =>
    obtain ⟨a, hstep⟩ := hstep
    exact ih.step hstep

theorem removed_run (h : s.Sound) {id : ℕ} (hlt : id < s.nextId)
    (hremoved : (s.entries id).removed = true)
    (hrun : ReflTransGen Next s s') : s'.Sound ∧ id < s'.nextId ∧
    (s'.entries id).removed = true := by
  induction hrun with
  | refl => exact ⟨h, hlt, hremoved⟩
  | tail _ hstep ih =>
    obtain ⟨a, hstep⟩ := hstep
    refine ⟨ih.1.step hstep, ?_, removed_step hstep ih.2.1 ih.2.2⟩
    cases hstep with
    | subscribe hcalling => exact Nat.lt_succ_of_lt ih.2.1
    | _ => exact ih.2.1

theorem barred_run (h : ReflTransGen (fun s s' => ∃ a, Step s a s' ∧ s.Alone a) start s) :
    s.Sound ∧ s.Barred := by
  induction h with
  | refl => exact ⟨sound_start, nofun⟩
  | tail _ hstep ih =>
    obtain ⟨a, hstep, halone⟩ := hstep
    exact ⟨ih.1.step hstep, ih.2.step ih.1 hstep halone⟩

/-- When an unsubscribe has returned, its handler runs on no other thread and is not begun again, as
long as nobody unsubscribes inside a handler that another thread is inside too. The counter is
always right. -/
theorem unsubscribe_bars [Fintype Thread] (h : ReflTransGen Next start s) :
    (∀ id, (s.entries id).inFlight = ∑ t, s.invocations t id) ∧
      (ReflTransGen (fun s s' => ∃ a, Step s a s' ∧ s.Alone a) start s →
        ∀ id t, (id, t) ∈ s.returned →
        (∀ t' ≠ t, s.invocations t' id = 0) ∧
          (s.invocations t id = 0 → (s.entries id).inFlight = 0) ∧
          ∀ s' a s'', ReflTransGen Next s s' → Step s' a s'' →
            ∀ t', s''.invocations t' id ≤ s'.invocations t' id) := by
  have hsound := sound_run h
  refine ⟨hsound.inFlight_eq, fun hrun id t hreturned => ?_⟩
  have hbarred := (barred_run hrun).2 (id, t) hreturned
  obtain ⟨hlt, hremoved⟩ := hsound.returned (id, t) hreturned
  refine ⟨hbarred, fun hself => ?_, fun s' a s'' hlater hstep => ?_⟩
  · rw [hsound.inFlight_eq]
    refine Finset.sum_eq_zero fun t' _ => ?_
    by_cases ht : t' = t
    · rw [ht, hself]
    · exact hbarred t' ht
  · exact invocations_step hstep (removed_run hsound hlt hremoved hlater).2.2

theorem waits_for_invocation : ∃ s : EventBus Unit (Fin 2), (1, 1) ∈ s.returned ∧
    (s.entries 1).inFlight = 0 := by
  have hrun : ReflTransGen (fun s s' => ∃ a, Step s a s' ∧ s.Alone a)
      (start : EventBus Unit (Fin 2)) _ :=
    .head ⟨_, @.subscribe _ _ _ _ _ 0 () trivial, trivial⟩
      (.head ⟨_, @.publish _ _ _ _ _ 0 () trivial, trivial⟩
        (.head ⟨_, .beginInvoke (t := 0) rfl rfl, trivial⟩
          (.head ⟨_, @.unsubscribe _ _ _ _ _ 1 _ 1 trivial rfl (by decide) (by decide),
            fun hown => absurd hown (by decide)⟩
            (.head ⟨_, .endInvoke (t := 0) rfl, trivial⟩
              (.single ⟨_, .drained (t := 1) rfl rfl, trivial⟩)))))
  have hnext : ReflTransGen Next (start : EventBus Unit (Fin 2)) _ :=
    hrun.lift id fun _ _ h => h.imp fun _ h => h.1
  have hbars := (unsubscribe_bars hnext).2 hrun 1 1 (by decide)
  exact ⟨_, by decide, hbars.2.1 (by decide)⟩

theorem returns_beside_invocation : ¬ ∀ s : EventBus Unit (Fin 2), ReflTransGen Next start s →
    ∀ id t, (id, t) ∈ s.returned → ∀ t' ≠ t, s.invocations t' id = 0 := by
  intro hall
  have hrun : ReflTransGen Next (start : EventBus Unit (Fin 2)) _ :=
    .head ⟨_, @.subscribe _ _ _ _ _ 0 () trivial⟩
      (.head ⟨_, @.publish _ _ _ _ _ 0 () trivial⟩
      (.head ⟨_, .beginInvoke (t := 0) rfl rfl⟩ (.head ⟨_, @.publish _ _ _ _ _ 1 () trivial⟩
        (.head ⟨_, .beginInvoke (t := 1) rfl rfl⟩
          (.single
            ⟨_, @.unsubscribe_own _ _ _ _ _ 0 _ 1 trivial rfl (by decide) (by decide)⟩)))))
  exact absurd (hall _ hrun 1 0 (by decide) 1 (by decide)) (by decide)

end EventBus

end DevMgr.Runtime
