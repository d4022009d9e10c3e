import DevMgr.Daemon.Enforcement
import DevMgr.Library.Run

/-!
# The device model of the application

The application keeps the devices by their ids. An enumeration takes the place of
the whole model, a hotplug event changes the device it is about.
-/

open DevMgr.Core

namespace DevMgr.App
open Bytes Daemon Run

structure Device extends Core.Device where
  id : Str
  name : Str
  modalias : Str
  parent : Option Str
  properties : StringMap Str
  errorNote : Option Str
  deriving DecidableEq

structure HotplugEvent where
  action : Daemon.HotplugEvent.Action
  device : Device
  deriving DecidableEq

inductive DeviceEvent where
  | removed (id : Str)
  | added (device : Device)
  | changed (device : Device)

abbrev Model := StringMap Device

def overlayDevice (entries : List DisabledDeviceEntry) (device : Device) : Device :=
  match entries.find? fun entry => FoundFor entry device.toDevice with
  | none => device
  | some entry =>
    { device with
      status := .disabled
      errorNote :=
        if entry.guardSuspended then
          some (str "disabled — enforcement suspended (guard refused re-apply)")
        else device.errorNote }

def applyDisabledOverlay (devices : List Device) (entries : List DisabledDeviceEntry) :
    List Device :=
  devices.map (overlayDevice entries)

def applyEnumeration (model : Model) (snapshot : List Device) : List DeviceEvent × Model :=
  let next : Model := snapshot.foldl (fun next d => next.insertIfNew d.id d) ∅
  let removed := model.toList.filterMap fun (key, d) => if key ∈ next then none
      else some (.removed d.id)
  let added := snapshot.filterMap fun d => if d.id ∈ model then none else some (.added d)
  let changed := snapshot.filterMap fun d =>
    match model[d.id]? with
    | none => none
    | some prev => if prev = d then none else some (.changed d)
  (removed ++ added ++ changed, next)

def applyDelta (model : Model) (event : HotplugEvent) : List DeviceEvent × Model :=
  let key := event.device.id
  if event.action = .removed then
    match model[key]? with
    | none => ([], model)
    | some prev => ([.removed prev.id], model.erase key)
  else match model[key]? with
    | none => ([.added event.device], model.insert key event.device)
    | some prev =>
      if prev = event.device then ([], model)
      else ([.changed event.device], model.insert key event.device)

def HotplugEvent.state (event : HotplugEvent) : Option Device :=
  if event.action = .removed then none else some event.device

theorem applyEnumeration_getElem? (model : Model) (snapshot : List Device) (id : Str) :
    (applyEnumeration model snapshot).2[id]? = snapshot.find? fun d => d.id = id := by
  have hfold :
      ∀ next : Model, (snapshot.foldl (fun next d => next.insertIfNew d.id d) next)[id]? =
      next[id]?.or (snapshot.find? fun d => d.id = id) := by
    induction snapshot with
    | nil => simp
    | cons d snapshot ih =>
      intro next
      rw [List.foldl_cons, ih, Std.ExtTreeMap.getElem?_insertIfNew, List.find?_cons]
      by_cases hid : d.id = id
      · subst hid
        by_cases hmem : d.id ∈ next
        · simp [hmem]
        · simp [hmem]
      · simp [hid]
  exact (hfold ∅).trans (by simp)

theorem applyDelta_getElem? (model : Model) (event : HotplugEvent) (id : Str) :
    (applyDelta model event).2[id]? = if event.device.id = id then event.state else model[id]? := by
  unfold applyDelta HotplugEvent.state
  dsimp only
  by_cases haction : event.action = .removed
  · rw [if_pos haction, if_pos haction]
    split
    · rename_i hnone
      by_cases hid : event.device.id = id
      · rw [if_pos hid, ← hid, hnone]
      · rw [if_neg hid]
    · simp [Std.ExtTreeMap.getElem?_erase]
  · rw [if_neg haction, if_neg haction]
    split
    · simp [Std.ExtTreeMap.getElem?_insert]
    · rename_i prev hprev
      by_cases hsame : prev = event.device
      · rw [if_pos hsame]
        by_cases hid : event.device.id = id
        · rw [if_pos hid, ← hid, hprev, hsame]
        · rw [if_neg hid]
      · rw [if_neg hsame]
        simp [Std.ExtTreeMap.getElem?_insert]

def DeviceEvent.id : DeviceEvent → Str
  | .removed id => id
  | .added device => device.id
  | .changed device => device.id

def DeviceEvent.left : DeviceEvent → Option Device
  | .removed _ => none
  | .added device => some device
  | .changed device => some device

def DeviceEvent.apply (view : Model) : DeviceEvent → Model
  | .removed id => view.erase id
  | .added device => view.insert device.id device
  | .changed device => view.insert device.id device

def Keyed (model : Model) : Prop := ∀ (key : Str) d, model[key]? = some d → d.id = key

def removedBy (model : Model) (snapshot : List Device) : List Str :=
  model.toList.filterMap fun (key, d) => if key ∈ (applyEnumeration model snapshot).2 then none
  else some d.id

def addedBy (model : Model) (snapshot : List Device) : List DeviceEvent :=
  snapshot.filterMap fun d => if d.id ∈ model then none else some (.added d)

def changedBy (model : Model) (snapshot : List Device) : List DeviceEvent :=
  snapshot.filterMap fun d =>
    match model[d.id]? with
    | none => none
    | some prev => if prev = d then none else some (.changed d)

/-- Applied in their order the events turn one model into the other, with one event at most for each
device and none for a device that stays as it is. -/
structure Delta (model : Model) (events : List DeviceEvent) (model' : Model) : Prop where
  applied : events.foldl DeviceEvent.apply model = model'
  once : (events.map DeviceEvent.id).Nodup
  needed : ∀ e ∈ events, model[e.id]? ≠ model'[e.id]?

variable {model model' : Model} {snapshot : List Device}

theorem applyEnumeration_events (model : Model) (snapshot : List Device) :
    (applyEnumeration model snapshot).1 =
      (removedBy model snapshot).map .removed ++ addedBy model snapshot ++
        changedBy model snapshot := by
  have hremoved : (removedBy model snapshot).map DeviceEvent.removed = model.toList.filterMap
      fun (key, d) =>
      if key ∈ (applyEnumeration model snapshot).2 then none else some (.removed d.id) := by
    unfold removedBy
    rw [List.map_filterMap]
    apply List.filterMap_congr
    intro (key, d) _
    dsimp only
    split_ifs <;> rfl
  rw [hremoved]
  rfl

theorem apply_getElem? (view : Model) (e : DeviceEvent) (id : Str) :
    (e.apply view)[id]? = if e.id = id then e.left else view[id]? := by
  cases e with
  | removed removed =>
    rw [DeviceEvent.apply, Std.ExtTreeMap.getElem?_erase]
    by_cases hid : removed = id <;> simp [DeviceEvent.id, DeviceEvent.left, hid]
  | added d | changed d =>
    rw [DeviceEvent.apply, Std.ExtTreeMap.getElem?_insert]
    by_cases hid : d.id = id <;> simp [DeviceEvent.id, DeviceEvent.left, hid]

theorem foldl_apply {events : List DeviceEvent} (hleft : ∀ e ∈ events, model'[e.id]? = e.left)
    (hrest : ∀ id ∉ events.map DeviceEvent.id, model'[id]? = model[id]?) :
    events.foldl DeviceEvent.apply model = model' := by
  induction events generalizing model with
  | nil =>
    apply Std.ExtTreeMap.ext_getElem?
    intro id
    exact (hrest id List.not_mem_nil).symm
  | cons e events ih =>
    apply ih
    · intro e' he'
      exact hleft e' (List.mem_cons_of_mem _ he')
    · intro id hid
      rw [apply_getElem?]
      by_cases hfirst : e.id = id
      · rw [if_pos hfirst, ← hfirst]
        exact hleft e List.mem_cons_self
      · rw [if_neg hfirst]
        apply hrest
        rw [List.map_cons, List.mem_cons, not_or]
        exact ⟨Ne.symm hfirst, hid⟩

theorem find?_of_distinct (hdistinct : (snapshot.map (·.id)).Nodup) {d : Device}
    (hd : d ∈ snapshot) :
    (snapshot.find? fun d' => d'.id = d.id) = some d := by
  cases hfound : snapshot.find? fun d' => d'.id = d.id with
  | none =>
    have hmiss := List.find?_eq_none.mp hfound d hd
    simp at hmiss
  | some d' =>
    have hid : d'.id = d.id := by simpa using List.find?_some hfound
    rw [List.inj_on_of_nodup_map hdistinct (List.mem_of_find?_eq_some hfound) hd hid]

theorem mem_removedBy (hkeyed : Keyed model) {id : Str} :
    id ∈ removedBy model snapshot ↔
    id ∈ model ∧ (applyEnumeration model snapshot).2[id]? = none := by
  unfold removedBy
  rw [List.mem_filterMap]
  constructor
  · intro ⟨(key, d), hmem, hd⟩
    obtain ⟨hgone, hid⟩ := Option.ite_none_left_eq_some.mp hd
    have hkey : model[key]? = some d := Std.ExtTreeMap.mem_toList_iff_getElem?_eq_some.mp hmem
    have heq : key = id := (hkeyed key d hkey).symm.trans (Option.some.inj hid)
    subst heq
    refine ⟨?_, Std.ExtTreeMap.getElem?_eq_none hgone⟩
    rw [Std.ExtTreeMap.mem_iff_isSome_getElem?, hkey]
    rfl
  · intro ⟨hmem, hnone⟩
    obtain ⟨d, hd⟩ :=
      Option.isSome_iff_exists.mp (Std.ExtTreeMap.mem_iff_isSome_getElem?.mp hmem)
    refine ⟨(id, d), Std.ExtTreeMap.mem_toList_iff_getElem?_eq_some.mpr hd, ?_⟩
    have hgone : id ∉ (applyEnumeration model snapshot).2 := by
      rw [Std.ExtTreeMap.mem_iff_isSome_getElem?, hnone]
      simp
    dsimp only
    rw [if_neg hgone, hkeyed id d hd]

theorem mem_addedBy {e : DeviceEvent} :
    e ∈ addedBy model snapshot ↔ ∃ d ∈ snapshot, model[d.id]? = none ∧ e = .added d := by
  unfold addedBy
  rw [List.mem_filterMap]
  constructor
  · intro ⟨d, hd, he⟩
    obtain ⟨hnew, he⟩ := Option.ite_none_left_eq_some.mp he
    exact ⟨d, hd, Std.ExtTreeMap.getElem?_eq_none hnew, (Option.some.inj he).symm⟩
  · intro ⟨d, hd, hnone, he⟩
    refine ⟨d, hd, ?_⟩
    have hnew : d.id ∉ model := by
      rw [Std.ExtTreeMap.mem_iff_isSome_getElem?, hnone]
      simp
    rw [if_neg hnew, he]

theorem mem_changedBy {e : DeviceEvent} :
    e ∈ changedBy model snapshot ↔
      ∃ d ∈ snapshot, ∃ prev, model[d.id]? = some prev ∧ prev ≠ d ∧ e = .changed d := by
  unfold changedBy
  rw [List.mem_filterMap]
  constructor
  · intro ⟨d, hd, he⟩
    cases hprev : model[d.id]? with
    | none =>
      rw [hprev] at he
      cases he
    | some prev =>
      rw [hprev] at he
      obtain ⟨hdiffers, he⟩ := Option.ite_none_left_eq_some.mp he
      exact ⟨d, hd, prev, hprev, hdiffers, (Option.some.inj he).symm⟩
  · intro ⟨d, hd, prev, hprev, hdiffers, he⟩
    refine ⟨d, hd, ?_⟩
    rw [hprev, he]
    exact if_neg hdiffers

theorem enumeration_event (hkeyed : Keyed model) (hdistinct : (snapshot.map (·.id)).Nodup)
    {removed : List Str} (hremoved : removed.Perm (removedBy model snapshot)) {e : DeviceEvent}
    (he : e ∈ removed.map .removed ++ addedBy model snapshot ++ changedBy model snapshot) :
    (applyEnumeration model snapshot).2[e.id]? = e.left ∧ model[e.id]? ≠ e.left := by
  rcases List.mem_append.mp he with hfirst | hchanged
  · rcases List.mem_append.mp hfirst with hgone | hadded
    · obtain ⟨id, hid, rfl⟩ := List.mem_map.mp hgone
      obtain ⟨hmem, hnone⟩ := (mem_removedBy hkeyed).mp (hremoved.mem_iff.mp hid)
      refine ⟨hnone, ?_⟩
      intro hmissing
      rw [Std.ExtTreeMap.mem_iff_isSome_getElem?] at hmem
      rw [DeviceEvent.id, DeviceEvent.left] at hmissing
      simp [hmissing] at hmem
    · obtain ⟨d, hd, hnone, rfl⟩ := mem_addedBy.mp hadded
      have hnew :=
        (applyEnumeration_getElem? model snapshot d.id).trans (find?_of_distinct hdistinct hd)
      refine ⟨hnew, ?_⟩
      rw [DeviceEvent.id, hnone]
      exact nofun
  · obtain ⟨d, hd, prev, hprev, hdiffers, rfl⟩ := mem_changedBy.mp hchanged
    have hnew :=
      (applyEnumeration_getElem? model snapshot d.id).trans (find?_of_distinct hdistinct hd)
    refine ⟨hnew, ?_⟩
    rw [DeviceEvent.id, hprev]
    exact fun h => hdiffers (Option.some.inj h)

theorem removedBy_nodup (hkeyed : Keyed model) (snapshot : List Device) :
    (removedBy model snapshot).Nodup := by
  unfold removedBy
  rw [List.Nodup, List.pairwise_filterMap]
  apply (keySorted_toList model).imp_of_mem
  intro (key, d) (later, d') hmem hmem' hlt id hid id' hid' heq
  obtain ⟨_, hid⟩ := Option.ite_none_left_eq_some.mp hid
  obtain ⟨_, hid'⟩ := Option.ite_none_left_eq_some.mp hid'
  have hkey := hkeyed key d (Std.ExtTreeMap.mem_toList_iff_getElem?_eq_some.mp hmem)
  have hlater := hkeyed later d' (Std.ExtTreeMap.mem_toList_iff_getElem?_eq_some.mp hmem')
  have hsame : key = later := by
    rw [← hkey, ← hlater, Option.some.inj hid, Option.some.inj hid', heq]
  rw [hsame] at hlt
  simp at hlt

theorem filterMap_ids_nodup {f : Device → Option DeviceEvent}
    (hdistinct : (snapshot.map (·.id)).Nodup) (hf : ∀ d e, f d = some e → e.id = d.id) :
    ((snapshot.filterMap f).map DeviceEvent.id).Nodup := by
  rw [List.Nodup, List.pairwise_map, List.pairwise_filterMap]
  apply (List.pairwise_map.mp hdistinct).imp
  intro d d' hne e he e' he'
  rw [hf d e he, hf d' e' he']
  exact hne

theorem enumeration_once (hkeyed : Keyed model) (hdistinct : (snapshot.map (·.id)).Nodup)
    {removed : List Str} (hremoved : removed.Perm (removedBy model snapshot)) :
    ((removed.map DeviceEvent.removed ++ addedBy model snapshot ++ changedBy model snapshot).map
      DeviceEvent.id).Nodup := by
  have hids : (removed.map DeviceEvent.removed).map DeviceEvent.id = removed := by
    rw [List.map_map]
    exact List.map_id removed
  have hadded : ((addedBy model snapshot).map DeviceEvent.id).Nodup := by
    apply filterMap_ids_nodup hdistinct
    intro d e he
    obtain ⟨_, he⟩ := Option.ite_none_left_eq_some.mp he
    rw [← Option.some.inj he, DeviceEvent.id]
  have hchanged : ((changedBy model snapshot).map DeviceEvent.id).Nodup := by
    apply filterMap_ids_nodup hdistinct
    intro d e he
    split at he
    · cases he
    · obtain ⟨_, he⟩ := Option.ite_none_left_eq_some.mp he
      rw [← Option.some.inj he, DeviceEvent.id]
  have hgone : ∀ id ∈ removed, id ∈ model ∧
      (applyEnumeration model snapshot).2[id]? = none := fun id hid =>
    (mem_removedBy hkeyed).mp (hremoved.mem_iff.mp hid)
  have hnew : ∀ d ∈ snapshot, (applyEnumeration model snapshot).2[d.id]? = some d := fun d hd =>
    (applyEnumeration_getElem? model snapshot d.id).trans (find?_of_distinct hdistinct hd)
  rw [List.map_append, List.map_append, hids, List.nodup_append', List.nodup_append']
  refine ⟨⟨hremoved.nodup_iff.mpr (removedBy_nodup hkeyed snapshot), hadded, ?_⟩,
    hchanged, ?_⟩
  · intro id hid hmem
    obtain ⟨e, he, rfl⟩ := List.mem_map.mp hmem
    obtain ⟨d, hd, _, rfl⟩ := mem_addedBy.mp he
    exact nomatch (hgone _ hid).2.symm.trans (hnew d hd)
  · intro id hid hmem
    obtain ⟨e, he, rfl⟩ := List.mem_map.mp hmem
    obtain ⟨d, hd, prev, hprev, _, rfl⟩ := mem_changedBy.mp he
    rcases List.mem_append.mp hid with hremoved | hadded
    · exact nomatch (hgone _ hremoved).2.symm.trans (hnew d hd)
    · obtain ⟨e', he', hid'⟩ := List.mem_map.mp hadded
      obtain ⟨d', _, hnone, rfl⟩ := mem_addedBy.mp he'
      rw [DeviceEvent.id] at hid'
      rw [hid'] at hnone
      exact nomatch hnone.symm.trans hprev

theorem enumeration_rest (hkeyed : Keyed model) {removed : List Str}
    (hremoved : removed.Perm (removedBy model snapshot)) {id : Str}
    (hid : id ∉ (removed.map DeviceEvent.removed ++ addedBy model snapshot ++
      changedBy model snapshot).map DeviceEvent.id) :
    (applyEnumeration model snapshot).2[id]? = model[id]? := by
  have hevent : ∀ e, e ∈ removed.map .removed ++ addedBy model snapshot ++
      changedBy model snapshot →
      e.id ≠ id := by
    intro e he heq
    exact hid (List.mem_map.mpr ⟨e, he, heq⟩)
  have hnew := applyEnumeration_getElem? model snapshot id
  cases hfound : snapshot.find? fun d => d.id = id with
  | none =>
    rw [hfound] at hnew
    by_cases hmem : id ∈ model
    · have hgone : id ∈ removed :=
        hremoved.mem_iff.mpr ((mem_removedBy hkeyed).mpr ⟨hmem, hnew⟩)
      refine absurd rfl (hevent (.removed id) ?_)
      exact List.mem_append_left _ (List.mem_append_left _ (List.mem_map_of_mem hgone))
    · rw [hnew, Std.ExtTreeMap.getElem?_eq_none hmem]
  | some d =>
    have hd : d ∈ snapshot := List.mem_of_find?_eq_some hfound
    have heq : d.id = id := by simpa using List.find?_some hfound
    subst heq
    rw [hnew, hfound]
    cases hprev : model[d.id]? with
    | none =>
      refine absurd rfl (hevent (.added d) ?_)
      exact List.mem_append_left _
        (List.mem_append_right _ (mem_addedBy.mpr ⟨d, hd, hprev, rfl⟩))
    | some prev =>
      by_cases hsame : prev = d
      · rw [hsame]
      · refine absurd rfl (hevent (.changed d) ?_)
        exact List.mem_append_right _ (mem_changedBy.mpr ⟨d, hd, prev, hprev, hsame, rfl⟩)

theorem delta_applyEnumeration (hkeyed : Keyed model) (hdistinct : (snapshot.map (·.id)).Nodup)
    {removed : List Str} (hremoved : removed.Perm (removedBy model snapshot)) :
    Delta model (removed.map .removed ++ addedBy model snapshot ++ changedBy model snapshot)
      (applyEnumeration model snapshot).2 where
  applied :=
    foldl_apply (fun _ he => (enumeration_event hkeyed hdistinct hremoved he).1) fun _ hid =>
      enumeration_rest hkeyed hremoved hid
  once := enumeration_once hkeyed hdistinct hremoved
  needed e he := by
    obtain ⟨hnew, hold⟩ := enumeration_event hkeyed hdistinct hremoved he
    rw [hnew]
    exact hold

theorem delta_nil (model : Model) : Delta model [] model :=
  ⟨List.foldl_nil, List.nodup_nil, fun _ he => absurd he List.not_mem_nil⟩

theorem delta_single {e : DeviceEvent} (hdiffers : model[e.id]? ≠ e.left) :
    Delta model [e] (e.apply model) := by
  refine ⟨rfl, List.nodup_singleton _, ?_⟩
  intro e' he'
  rw [List.mem_singleton.mp he', apply_getElem?, if_pos rfl]
  exact hdiffers

theorem delta_applyDelta (hkeyed : Keyed model) (event : HotplugEvent) :
    Delta model (applyDelta model event).1 (applyDelta model event).2 := by
  unfold applyDelta
  dsimp only
  by_cases haction : event.action = .removed
  · rw [if_pos haction]
    cases hprev : model[event.device.id]? with
    | none => exact delta_nil model
    | some prev =>
      have hid : prev.id = event.device.id := hkeyed _ prev hprev
      have hdelta : Delta model [.removed prev.id] (model.erase prev.id) := by
        apply delta_single
        rw [DeviceEvent.id, hid, hprev]
        exact nofun
      rw [hid] at hdelta
      dsimp only
      rw [hid]
      exact hdelta
  · rw [if_neg haction]
    cases hprev : model[event.device.id]? with
    | none =>
      apply delta_single (e := .added event.device)
      rw [DeviceEvent.id, hprev]
      exact nofun
    | some prev =>
      dsimp only
      by_cases hsame : prev = event.device
      · rw [if_pos hsame]
        exact delta_nil model
      · rw [if_neg hsame]
        apply delta_single (e := .changed event.device)
        rw [DeviceEvent.id, hprev]
        exact fun h => hsame (Option.some.inj h)

/-- The removals are published in the order of a hash map, which is any. -/
inductive Operation where
  | applyEnumeration (snapshot : List Device) (removed : List Str)
  | applyDelta (event : HotplugEvent)

structure Followed where
  model : Model
  view : Model

def Operation.events (model : Model) : Operation → List DeviceEvent
  | .applyEnumeration snapshot removed =>
    removed.map .removed ++ addedBy model snapshot ++ changedBy model snapshot
  | .applyDelta event => (App.applyDelta model event).1

def Operation.Distinct (operation : Operation) : Prop :=
  ∀ snapshot removed, operation = .applyEnumeration snapshot removed →
  (snapshot.map (·.id)).Nodup

namespace Followed

def publish (s : Followed) (events : List DeviceEvent) (model : Model) : Followed :=
  ⟨model, events.foldl DeviceEvent.apply s.view⟩

def step (s : Followed) (operation : Operation) : Option Followed :=
  match operation with
  | .applyEnumeration snapshot removed =>
    if removed.Perm (removedBy s.model snapshot) then
      some (s.publish (operation.events s.model) (App.applyEnumeration s.model snapshot).2)
    else none
  | .applyDelta event =>
      some (s.publish (operation.events s.model) (App.applyDelta s.model event).2)

/-- The events are the difference, and whoever follows them has the model. -/
structure Faithful (s : Followed) (operation : Operation) (s' : Followed) : Prop where
  delta : Delta s.model (operation.events s.model) s'.model
  view : s'.view = s'.model

theorem keyed_of_delta {events : List DeviceEvent} (hkeyed : Keyed model)
    (hdelta : Delta model events model') :
    Keyed model' := by
  rw [← hdelta.applied]
  clear hdelta
  induction events generalizing model with
  | nil => exact hkeyed
  | cons e events ih =>
    apply ih
    intro key d hd
    rw [apply_getElem?] at hd
    by_cases hid : e.id = key
    · rw [if_pos hid] at hd
      cases e with
      | removed _ => cases hd
      | added _ | changed _ => rw [← Option.some.inj hd, ← hid, DeviceEvent.id]
    · rw [if_neg hid] at hd
      exact hkeyed key d hd

theorem step_faithful {s s' : Followed} {operation : Operation} (hkeyed : Keyed s.model)
    (hview : s.view = s.model)
    (hstep : s.step operation = some s') (hdistinct : operation.Distinct) :
    Keyed s'.model ∧ Faithful s operation s' := by
  have hdelta : Delta s.model (operation.events s.model) s'.model ∧
      s'.view = (operation.events s.model).foldl DeviceEvent.apply s.view := by
    cases operation with
    | applyEnumeration snapshot removed =>
      obtain ⟨hremoved, hs'⟩ := Option.ite_none_right_eq_some.mp hstep
      obtain rfl := Option.some.inj hs'
      exact ⟨delta_applyEnumeration hkeyed (hdistinct snapshot removed rfl) hremoved, rfl⟩
    | applyDelta event =>
      obtain rfl := Option.some.inj hstep
      exact ⟨delta_applyDelta hkeyed event, rfl⟩
  obtain ⟨hdelta, hs'⟩ := hdelta
  refine ⟨keyed_of_delta hkeyed hdelta, hdelta, ?_⟩
  rw [hs', hview]
  exact hdelta.applied

section Camera

def camera (name : String) : Device where
  bus := .usb
  sysfsPath := str "/sys/devices/usb1/1-2"
  vendorId := str "046d"
  productId := str "0825"
  serial := []
  status := .active
  boundDriver := some (str "usb")
  id := str "usb-1-2"
  name := str name
  modalias := []
  parent := none
  properties := ∅
  errorNote := none

def cameraRun : List Operation :=
  [.applyEnumeration [camera "Camera"] [], .applyDelta ⟨.changed, camera "Webcam"⟩,
    .applyEnumeration [] [str "usb-1-2"]]

end Camera

end Followed

end DevMgr.App
