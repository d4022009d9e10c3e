import DevMgr.App.HotplugService

/-!
# Debounced events

An event waits under its device's id until a flush takes it, a later one takes its
place. As long as nobody stops the service, every event that waits has a flush to
come, so the last one of each device reaches the model.
-/

open DevMgr.Core

namespace DevMgr.App
open Bytes Relation DevMgr.Runtime

namespace HotplugService
variable {s s' : HotplugService} {window : ℕ} {model : Model}

def untaken (s : HotplugService) : List (ℕ × Str) :=
  s.timer.queue.map (fun t => (t.id, t.fn)) ++ (s.batch ++
    match s.flush with
    | some (.taking handle id) => [(handle, id)]
    | _ => [])

def taken (s : HotplugService) : List Arrival :=
  match s.flush with
  | some (.applying _ (some arrival)) => [arrival]
  | _ => []

def ofDevice (id : Str) (arrivals : List Arrival) : List Arrival :=
  arrivals.filter fun a => a.1.device.id = id

def receivedFor (s : HotplugService) (id : Str) : List Arrival := ofDevice id s.received.zipIdx

def appliedFor (s : HotplugService) (id : Str) : List Arrival := ofDevice id s.applied

def waitingFor (s : HotplugService) (id : Str) : List Arrival :=
  (s.pending[id]?.map (·.arrival)).toList

/-- What is applied, about to be, or waits, in this order. -/
def onTheWay (s : HotplugService) (id : Str) : List Arrival :=
  ofDevice id (s.applied ++ s.taken) ++ s.waitingFor id

structure Debounced (model : Model) (s : HotplugService) : Prop where
  keyed : ∀ (id : Str) (pending : PendingEvent), s.pending[id]? = some pending →
      pending.arrival.1.device.id = id
  order : ∀ id, (s.onTheWay id).Sublist (s.receivedFor id)
  latest : ∀ id, (s.onTheWay id).getLast? = (s.receivedFor id).getLast?
  live : ∀ (id : Str) (pending : PendingEvent), s.pending[id]? = some pending →
    s.holder = .reader id ∨ (pending.handle, id) ∈ s.untaken
  model : ∀ id, s.model[id]? = match (s.appliedFor id).getLast? with
    | none => model[id]?
    | some arrival => arrival.1.state

theorem debounced_start (model : Model) : (start model).Debounced model where
  keyed id pending h := by simp [start] at h
  order id := .refl _
  latest id := rfl
  live id pending h := by simp [start] at h
  model id := rfl

theorem ofDevice_append (id : Str) (l r : List Arrival) :
    ofDevice id (l ++ r) = ofDevice id l ++ ofDevice id r :=
  List.filter_append ..

theorem ofDevice_self {id : Str} {arrival : Arrival} (h : arrival.1.device.id = id) :
    ofDevice id [arrival] = [arrival] :=
  List.filter_cons_of_pos (decide_eq_true h)

theorem ofDevice_other {id : Str} {arrival : Arrival} (h : arrival.1.device.id ≠ id) :
    ofDevice id [arrival] = [] :=
  List.filter_cons_of_neg (by simpa using h)

theorem Debounced.keep (h : s.Debounced model) (hpending : s'.pending = s.pending)
    (hpassed : s'.applied ++ s'.taken = s.applied ++ s.taken) (hreceived : s'.received = s.received)
    (happlied : s'.applied = s.applied) (hmodel : s'.model = s.model)
    (hlive : ∀ id handle, s.holder = .reader id ∨ (handle, id) ∈ s.untaken →
      s'.holder = .reader id ∨ (handle, id) ∈ s'.untaken) : s'.Debounced model where
  keyed := by
    rw [hpending]
    exact h.keyed
  order id := by
    rw [onTheWay, waitingFor, receivedFor, hpending, hpassed, hreceived]
    exact h.order id
  latest id := by
    rw [onTheWay, waitingFor, receivedFor, hpending, hpassed, hreceived]
    exact h.latest id
  live id pending hid := by
    rw [hpending] at hid
    exact hlive id pending.handle (h.live id pending hid)
  model id := by
    rw [appliedFor, hmodel, happlied]
    exact h.model id

theorem untaken_nodup (h : s.Accounted) : (s.untaken.map (·.1)).Nodup := by
  have hsub : (s.untaken.map (·.1)).Sublist s.unresolved := by
    simp only [untaken, unresolved, List.map_append, List.map_map, Function.comp_def]
    refine .append (.refl _) (.append (.refl _) ?_)
    cases hflush : s.flush with
    | none => exact .refl _
    | some phase =>
      cases phase with
      | taking handle id => exact .refl _
      | _ => exact List.nil_sublist _
  exact hsub.nodup (List.nodup_append.mp (accounted_iff.mp h).nodup).1

theorem untaken_device (h : s.Accounted) {handle : ℕ} {id id' : Str}
    (hid : (handle, id) ∈ s.untaken) (hid' : (handle, id') ∈ s.untaken) : id = id' :=
  congrArg Prod.snd (List.inj_on_of_nodup_map (untaken_nodup h) hid hid' rfl)

theorem untaken_cancel {handle handle' : ℕ} {id : Str} (hne : handle' ≠ handle)
    (h : (handle', id) ∈ s.untaken) :
    (handle', id) ∈ (s.cancel handle).untaken := by
  unfold HotplugService.cancel
  split_ifs with hcancels
  · rcases List.mem_append.mp h with hqueued | hrest
    · obtain ⟨t, ht, heq⟩ := List.mem_map.mp hqueued
      refine List.mem_append_left _
        (List.mem_map.mpr ⟨t, DelayedScheduler.mem_cancel.mpr ⟨ht, ?_⟩, heq⟩)
      rintro rfl
      exact hne (congrArg Prod.fst heq).symm
    · exact List.mem_append_right _ hrest
  · exact h

theorem Debounced.arrive (h : s.Debounced model) {event : App.HotplugEvent} {handle : ℕ}
    {t : HotplugService}
    (htaken : t.taken = s.taken) (happlied : t.applied = s.applied) (hmodel : t.model = s.model)
    (huntaken : ∀ (id : Str) (pending : PendingEvent), id ≠ event.device.id →
      s.pending[id]? = some pending →
      (pending.handle, id) ∈ t.untaken) :
    ({ t with
        pending := s.pending.insert event.device.id ⟨s.arrive event, handle⟩
        received := s.received ++ [event]
        holder := .reader event.device.id } : HotplugService).Debounced model := by
  have hreceived : ∀ id, ofDevice id (s.received ++ [event]).zipIdx =
      s.receivedFor id ++ ofDevice id [s.arrive event] := by
    intro id
    rw [List.zipIdx_append, ofDevice_append]
    simp [receivedFor, HotplugService.arrive]
  have hself : (s.pending.insert event.device.id ⟨s.arrive event, handle⟩)[event.device.id]? =
      some ⟨s.arrive event, handle⟩ := Std.ExtTreeMap.getElem?_insert_self
  have hother : ∀ id, id ≠ event.device.id →
      (s.pending.insert event.device.id ⟨s.arrive event, handle⟩)[id]? = s.pending[id]? := by
    intro id hne
    simp [Std.ExtTreeMap.getElem?_insert, hne.symm]
  have harrive : ofDevice event.device.id [s.arrive event] = [s.arrive event] := ofDevice_self rfl
  have hway : ∀ id, ofDevice id (t.applied ++ t.taken) = ofDevice id (s.applied ++ s.taken) := by
    intro id
    rw [happlied, htaken]
  refine ⟨fun id pending hid => ?_, fun id => ?_, fun id => ?_,
    fun id pending hid => ?_, fun id => ?_⟩
  · by_cases heq : id = event.device.id
    · rw [heq, hself] at hid
      cases hid
      exact heq.symm
    · rw [hother id heq] at hid
      exact h.keyed id pending hid
  · change (ofDevice id (t.applied ++ t.taken) ++ (Option.map PendingEvent.arrival
      (s.pending.insert event.device.id ⟨s.arrive event, handle⟩)[id]?).toList).Sublist
        (ofDevice id (s.received ++ [event]).zipIdx)
    rw [hway, hreceived]
    by_cases heq : id = event.device.id
    · rw [heq, hself, harrive]
      exact ((List.sublist_append_left _ _).trans (h.order _)).append (.refl _)
    · rw [hother id heq, ofDevice_other (Ne.symm heq), List.append_nil]
      exact h.order id
  · change (ofDevice id (t.applied ++ t.taken) ++ (Option.map PendingEvent.arrival
      (s.pending.insert event.device.id ⟨s.arrive event, handle⟩)[id]?).toList).getLast? =
        (ofDevice id (s.received ++ [event]).zipIdx).getLast?
    rw [hway, hreceived]
    by_cases heq : id = event.device.id
    · rw [heq, hself, harrive, List.getLast?_concat]
      exact List.getLast?_concat
    · rw [hother id heq, ofDevice_other (Ne.symm heq), List.append_nil]
      exact h.latest id
  · by_cases heq : id = event.device.id
    · rw [heq]
      exact .inl rfl
    · rw [hother id heq] at hid
      exact .inr (huntaken id pending heq hid)
  · rw [appliedFor, happlied, hmodel]
    exact h.model id

theorem cancel_taken (handle : ℕ) : (s.cancel handle).taken = s.taken := by
  obtain ⟨timer, outstandingFlushes, resolved, heq⟩ := s.cancel_eq handle
  rw [heq]
  rfl

theorem Debounced.onEvent (h : s.Debounced model) (haccounted : s.Accounted)
    (hfree : s.holder = .nobody)
    (event : App.HotplugEvent) : (s.onEvent event).Debounced model := by
  have hlive : ∀ (id : Str) (pending : PendingEvent), s.pending[id]? = some pending →
      (pending.handle, id) ∈ s.untaken := by
    intro id pending hid
    refine (h.live id pending hid).resolve_left ?_
    rw [hfree]
    exact nofun
  unfold HotplugService.onEvent
  dsimp only
  split
  · rename_i before hbefore
    obtain ⟨timer, outstandingFlushes, resolved, heq⟩ := s.cancel_eq before.handle
    refine h.arrive (cancel_taken _) (by rw [heq]) (by rw [heq]) fun id pending hne hid => ?_
    refine untaken_cancel ?_ (hlive id pending hid)
    intro hsame
    have hfirst := hlive id pending hid
    rw [hsame] at hfirst
    exact hne (untaken_device haccounted hfirst (hlive _ before hbefore))
  · exact h.arrive rfl rfl rfl fun id pending _ hid => hlive id pending hid

theorem untaken_schedule {due : ℕ} {id : Str} {pending : PendingEvent} {p : ℕ × Str} :
    p ∈ (s.schedule due id pending).untaken ↔ p = (s.timer.nextId, id) ∨ p ∈ s.untaken := by
  have hperm : (s.schedule due id pending).untaken.Perm ((s.timer.nextId, id) :: s.untaken) :=
    ((DelayedScheduler.schedule_perm due id).map fun t => (t.id, t.fn)).append_right _
  rw [hperm.mem_iff, List.mem_cons]

theorem Debounced.schedule (h : s.Debounced model) {id : Str} {pending : PendingEvent}
    (hreader : s.holder = .reader id) (hpending : s.pending[id]? = some pending) (due : ℕ) :
    (s.schedule due id pending).Debounced model := by
  have hself : (s.schedule due id pending).pending[id]? = some { pending with
    handle := s.timer.nextId } :=
    Std.ExtTreeMap.getElem?_insert_self
  have hother : ∀ id', id' ≠ id →
      (s.schedule due id pending).pending[id']? = s.pending[id']? := by
    intro id' hne
    simp [HotplugService.schedule, Std.ExtTreeMap.getElem?_insert, hne.symm]
  have hwaiting : ∀ id', (s.schedule due id pending).waitingFor id' = s.waitingFor id' := by
    intro id'
    by_cases heq : id' = id
    · rw [heq, waitingFor, waitingFor, hself, hpending]
      rfl
    · rw [waitingFor, waitingFor, hother id' heq]
  refine ⟨fun id' pending' hid' => ?_, fun id' => ?_, fun id' => ?_,
    fun id' pending' hid' => .inr ?_, h.model⟩
  · by_cases heq : id' = id
    · rw [heq, hself] at hid'
      cases hid'
      rw [heq]
      exact h.keyed id pending hpending
    · rw [hother id' heq] at hid'
      exact h.keyed id' pending' hid'
  · rw [onTheWay, hwaiting]
    exact h.order id'
  · rw [onTheWay, hwaiting]
    exact h.latest id'
  · by_cases heq : id' = id
    · rw [heq, hself] at hid'
      cases hid'
      rw [heq]
      exact untaken_schedule.mpr (.inl rfl)
    · rw [hother id' heq] at hid'
      refine untaken_schedule.mpr (.inr ((h.live id' pending' hid').resolve_left ?_))
      rw [hreader]
      exact fun hsame => heq (Holder.reader.inj hsame).symm

theorem Debounced.take (h : s.Debounced model) {handle : ℕ} {id : Str}
    (hflush : s.flush = some (.taking handle id)) : (s.take handle id).Debounced model := by
  have hgone : (s.take handle id).pending[id]? = none := Std.ExtTreeMap.getElem?_erase_self
  have hother : ∀ id', id' ≠ id → (s.take handle id).pending[id']? = s.pending[id']? := by
    intro id' hne
    simp [HotplugService.take, Std.ExtTreeMap.getElem?_erase, hne.symm]
  have htaken : (s.take handle id).taken = s.waitingFor id := by
    unfold waitingFor HotplugService.take taken
    cases s.pending[id]? with
    | none => rfl
    | some pending => rfl
  have hnone : s.taken = [] := by simp [taken, hflush]
  have hway : ∀ id', (s.take handle id).onTheWay id' = s.onTheWay id' := by
    intro id'
    rw [onTheWay, onTheWay, htaken, hnone, List.append_nil, ofDevice_append]
    change ofDevice id' s.applied ++ _ ++ _ = _
    by_cases heq : id' = id
    · rw [heq, waitingFor, waitingFor, hgone]
      cases hpending : s.pending[id]? with
      | none => simp [ofDevice]
      | some pending =>
        have hkeyed : ofDevice id [pending.arrival] = [pending.arrival] :=
          ofDevice_self (h.keyed id pending hpending)
        simp [hkeyed]
    · rw [waitingFor, waitingFor, waitingFor, hother id' heq]
      cases hpending : s.pending[id]? with
      | none => simp [ofDevice]
      | some pending =>
        have hkeyed : ofDevice id' [pending.arrival] = [] := by
          refine ofDevice_other ?_
          rw [h.keyed id pending hpending]
          exact Ne.symm heq
        simp [hkeyed]
  refine ⟨fun id' pending hid' => ?_, fun id' => ?_, fun id' => ?_,
    fun id' pending hid' => ?_, h.model⟩
  · by_cases heq : id' = id
    · rw [heq, hgone] at hid'
      cases hid'
    · rw [hother id' heq] at hid'
      exact h.keyed id' pending hid'
  · rw [hway]
    exact h.order id'
  · rw [hway]
    exact h.latest id'
  · by_cases heq : id' = id
    · rw [heq, hgone] at hid'
      cases hid'
    · rw [hother id' heq] at hid'
      refine (h.live id' pending hid').imp_right fun hmem => ?_
      have hbefore : s.untaken = s.timer.queue.map (fun t => (t.id, t.fn)) ++
          (s.batch ++ [(handle, id)]) := by
        simp [untaken, hflush]
      have hafter : (s.take handle id).untaken = s.timer.queue.map (fun t => (t.id, t.fn)) ++
          (s.batch ++ []) := by
        simp [untaken, HotplugService.take]
      rw [hbefore, ← List.append_assoc, List.mem_append, List.mem_singleton] at hmem
      rw [hafter, List.append_nil]
      exact hmem.resolve_right fun hsame => heq (congrArg Prod.snd hsame)

theorem Debounced.apply (h : s.Debounced model) {handle : ℕ} {arrival : Option Arrival}
    (hflush : s.flush = some (.applying handle arrival)) :
    (s.apply handle arrival).Debounced model := by
  have huntaken : s.untaken = s.timer.queue.map (fun t => (t.id, t.fn)) ++ (s.batch ++ []) := by
    simp [untaken, hflush]
  cases arrival with
  | none =>
    have hnone : s.taken = [] := by simp [taken, hflush]
    refine h.keep rfl ?_ rfl rfl rfl fun id handle' hlive => ?_
    · rw [hnone]
      rfl
    · rw [huntaken] at hlive
      exact hlive
  | some arrival =>
    have htaken : s.taken = [arrival] := by simp [taken, hflush]
    have hpassed : (s.apply handle (some arrival)).applied ++
        (s.apply handle (some arrival)).taken =
        s.applied ++ s.taken := by
      rw [htaken]
      exact List.append_nil _
    refine ⟨h.keyed, fun id => ?_, fun id => ?_, fun id pending hid => ?_, fun id => ?_⟩
    · rw [onTheWay, hpassed]
      exact h.order id
    · rw [onTheWay, hpassed]
      exact h.latest id
    · have hlive := h.live id pending hid
      rw [huntaken] at hlive
      exact hlive
    · change (applyDelta s.model arrival.1).2[id]? = _
      rw [applyDelta_getElem?, appliedFor]
      change _ = match (ofDevice id (s.applied ++ [arrival])).getLast? with
        | none => model[id]?
        | some arrival => arrival.1.state
      rw [ofDevice_append]
      by_cases heq : arrival.1.device.id = id
      · rw [if_pos heq, ofDevice_self heq, List.getLast?_concat]
      · rw [if_neg heq, ofDevice_other heq, List.append_nil]
        exact h.model id

theorem Debounced.step (h : s.Debounced model) (haccounted : s.Accounted) (hstopping : s.Stopping)
    (hstep : Step window s s') (houtside : ∀ call, s'.stops call = .outside) :
    s'.Debounced model := by
  cases hstep with
  | tick => exact h.keep rfl rfl rfl rfl rfl fun _ _ => id
  | onEvent hmonitoring hfree => exact h.onEvent haccounted hfree _
  | schedule hreader hpending hasked => exact h.schedule hreader hpending _
  | dequeue hbatch hidle =>
    refine h.keep rfl (by simp [taken, dequeue]) rfl rfl rfl fun id handle hlive =>
      hlive.imp_right ?_
    have hsplit := DelayedScheduler.ready_append_collect (s := s.timer) s.now
    simp only [untaken, dequeue, hbatch, hidle, List.append_nil]
    rw [← hsplit, List.map_append, List.mem_append, List.mem_append]
    exact Or.symm
  | call hbatch hidle =>
    refine h.keep rfl (by simp [taken, hidle]) rfl rfl rfl fun id handle hlive => hlive.imp_right ?_
    simp only [untaken, hbatch, hidle, List.append_nil, List.mem_append, List.mem_cons,
      List.not_mem_nil, or_false]
    exact Or.imp_right Or.symm
  | take hflush hfree => exact h.take hflush
  | apply hflush => exact h.apply hflush
  | resolve hflush hfree =>
    refine h.keep rfl (by simp [taken, resolve, hflush]) rfl rfl rfl fun id handle hlive =>
      hlive.imp_right ?_
    simp [untaken, resolve, hflush]
  | notify hflush =>
    refine h.keep rfl (by simp [taken, hflush]) rfl rfl rfl fun id handle hlive =>
      hlive.imp_right ?_
    simp [untaken, hflush]
  | @stop_monitor call hcall hreader =>
    have hmoved := (goTo_self call _).symm.trans (houtside call)
    cases hmoved
  | @stop_lock call left hstopped hfree hleft =>
    have hmoved := (goTo_self call _).symm.trans (houtside call)
    cases hmoved
  | @stop_cancel call handle left hholder =>
    obtain ⟨timer, outstandingFlushes, resolved, heq⟩ := s.cancel_eq handle
    rw [heq] at houtside
    exact absurd (houtside call) (hstopping.locked call _ hholder)
  | @stop_clear call hholder =>
    have hmoved := (goTo_self call _).symm.trans (houtside call)
    cases hmoved
  | @stop_return call hwaiting hfree hdone =>
    have hmoved := (goTo_self call _).symm.trans (houtside call)
    cases hmoved

theorem outside_of_step (hstopping : s.Stopping) (hstep : Step window s s')
    (houtside : ∀ call, s'.stops call = .outside) (call : ℕ) : s.stops call = .outside := by
  cases hstep with
  | onEvent hmonitoring hfree => exact hstopping.outside hmonitoring call
  | @apply handle arrival hflush =>
    cases arrival with
    | none => exact houtside call
    | some arrival => exact houtside call
  | @stop_monitor call' hcall hreader =>
      exact absurd ((goTo_self call' _).symm.trans (houtside call')) nofun
  | @stop_lock call' left hstopped hfree hleft =>
      exact absurd ((goTo_self call' _).symm.trans (houtside call')) nofun
  | @stop_cancel call' handle left hholder =>
    obtain ⟨timer, outstandingFlushes, resolved, heq⟩ := s.cancel_eq handle
    rw [heq] at houtside
    exact houtside call
  | @stop_clear call' hholder =>
      exact absurd ((goTo_self call' _).symm.trans (houtside call')) nofun
  | @stop_return call' hwaiting hfree hdone =>
      exact absurd ((goTo_self call' _).symm.trans (houtside call')) nofun
  | _ => exact houtside call

theorem debounced_run (h : ReflTransGen (Step window) (start model) s)
    (houtside : ∀ call, s.stops call = .outside) :
    s.Debounced model := by
  induction h with
  | refl => exact debounced_start model
  | tail hrun hstep ih =>
    obtain ⟨haccounted, hstopping⟩ := sound_run hrun
    exact (ih (outside_of_step hstopping hstep houtside)).step haccounted hstopping hstep houtside

structure Quiet (s : HotplugService) : Prop where
  queue : s.timer.queue = []
  batch : s.batch = []
  idle : s.flush = none
  unlocked : s.holder = .nobody

theorem Quiet.onTheWay (hquiet : s.Quiet) (h : s.Debounced model) (id : Str) :
    s.onTheWay id = s.appliedFor id := by
  have htaken : s.taken = [] := by simp [taken, hquiet.idle]
  have huntaken : s.untaken = [] := by simp [untaken, hquiet.queue, hquiet.batch, hquiet.idle]
  have hwaiting : s.waitingFor id = [] := by
    cases hpending : s.pending[id]? with
    | none => simp [waitingFor, hpending]
    | some pending =>
      have hlive := h.live id pending hpending
      rw [hquiet.unlocked, huntaken] at hlive
      exact hlive.elim nofun nofun
  rw [HotplugService.onTheWay, htaken, hwaiting, List.append_nil, List.append_nil, appliedFor]

/-- Of every device the events are applied in the order they came in, each once at most, and when
both threads are at rest the last one has been: the model says of the device what its last event
says. -/
theorem debounce_keeps_latest (h : ReflTransGen (Step window) (start model) s)
    (houtside : ∀ call, s.stops call = .outside) (id : Str) :
    (s.appliedFor id).Sublist (s.receivedFor id) ∧ (s.appliedFor id).Nodup ∧
      (s.Quiet → (s.appliedFor id).getLast? = (s.receivedFor id).getLast? ∧
        s.model[id]? = match (s.receivedFor id).getLast? with
          | none => model[id]?
          | some arrival => arrival.1.state) := by
  have hdebounced := debounced_run h houtside
  have hsub : (s.appliedFor id).Sublist (s.receivedFor id) := by
    refine .trans ?_ (hdebounced.order id)
    rw [onTheWay, ofDevice_append, List.append_assoc]
    exact List.sublist_append_left _ _
  have hnodup : (s.receivedFor id).Nodup := by
    refine .filter _ (.of_map Prod.snd ?_)
    rw [List.zipIdx_map_snd]
    exact List.nodup_range'
  refine ⟨hsub, hsub.nodup hnodup, fun hquiet => ?_⟩
  have hlast : (s.appliedFor id).getLast? = (s.receivedFor id).getLast? := by
    rw [← hquiet.onTheWay hdebounced]
    exact hdebounced.latest id
  refine ⟨hlast, ?_⟩
  rw [← hlast]
  exact hdebounced.model id

section Runs
open Session (keyboard unplugged)

def plugged : App.HotplugEvent := ⟨.added, keyboard⟩

theorem early_flush_removes :
    ∃ s : HotplugService, s.Quiet ∧ s.received = [plugged, unplugged] ∧
    s.model[keyboard.id]? = none := by
  have hrun : ReflTransGen (Step 1) (start ∅) _ :=
    .head (@.onEvent _ _ plugged rfl rfl)
      (.head (@.schedule _ _ _ _ 0 rfl Std.ExtTreeMap.getElem?_insert_self (Nat.zero_le _))
        (.head .tick (.head (.dequeue rfl rfl) (.head (@.onEvent _ _ unplugged rfl rfl)
          (.head (@.schedule _ _ keyboard.id ⟨(unplugged, 1), 1⟩ 0 rfl rfl (Nat.zero_le _))
            (.head (.call rfl rfl)
              (.head (.take rfl rfl) (.head (.apply rfl) (.head (@.resolve _ _ 1 rfl rfl)
              (.head (.notify rfl)
                (.head (.dequeue rfl rfl) (.head (.call rfl rfl) (.head (.take rfl rfl)
                (.head (.apply rfl)
                  (.head (@.resolve _ _ 2 rfl rfl) (.single (.notify rfl)))))))))))))))))
  have hquiet :=
    ((debounce_keeps_latest hrun (fun _ => rfl) keyboard.id).2.2 ⟨rfl, rfl, rfl, rfl⟩).2
  exact ⟨_, ⟨rfl, rfl, rfl, rfl⟩, rfl, hquiet⟩

end Runs

end HotplugService

end DevMgr.App
