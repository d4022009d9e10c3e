import DevMgr.App.DeviceListVM
import DevMgr.Library.Run

/-!
# The device list and the changes of the model

The threads that change the model announce each change to the view: its snapshot is
stale, and one rebuild is posted for as many changes as come before it starts. The
thread of the interface claims the snapshot before it fetches the devices, so a
change in between leaves the snapshot stale again.
-/

open DevMgr.Core

namespace DevMgr.App
open Bytes Run DeviceListVM

inductive Ui where
  | idle
  | clearing
  | claiming
  | fetching
  | probing
  | building
  deriving DecidableEq

/-- The devices of the service, here in the order of their keys. The hash map lists them in any
order. -/
def devicesOf (model : Model) : List Device := model.toList.map Prod.snd

/-- The first three are the application's. Handlers of events are counted by what they do next:
`pending` ones are to store that the snapshot is stale, `exchanging` ones to look whether a rebuild
is queued, `posting` ones to post theirs, and `posted` closures wait. Beside the view stand whether
it has been asked for rows, and what it was told of the daemon when it last built them. -/
structure DeviceListRun where
  model : Model
  criticalityFacts : Option CriticalityFacts
  daemonAvailability : Option Error
  vm : DeviceListVM
  rebuildQueued : Bool
  pending : ℕ
  exchanging : ℕ
  posting : ℕ
  posted : ℕ
  ui : Ui
  touched : Bool
  told : Option Error

namespace DeviceListRun

inductive Action where
  | applyEnumeration (snapshot : List Device)
  | applyDelta (event : HotplugEvent)
  | reprobe (facts : Option CriticalityFacts)
  | observe (error : Option Error)
  | invalidate
  | exchange
  | post
  | runClosure
  | clear
  | rebuild
  | setFilter (filter : Str)
  | claim
  | fetch (devices : List Device)
  | probe
  | build

def emptyView : DeviceListVM where
  toRows := clearRows
  filter := []
  snapshot := .empty
  facts := none
  snapshotValid := false
  selected := 0

def start (model : Model) (criticalityFacts : Option CriticalityFacts)
    (daemonAvailability : Option Error) :
    DeviceListRun where
  model
  criticalityFacts
  daemonAvailability
  vm := emptyView
  rebuildQueued := false
  pending := 0
  exchanging := 0
  posting := 0
  posted := 0
  ui := .idle
  touched := false
  told := none

variable (order : LabelSort) (s : DeviceListRun)

def change (result : List DeviceEvent × Model) : DeviceListRun :=
  { s with
    model := result.2
    pending := s.pending + result.1.length
    touched := s.touched || !result.1.isEmpty }

def invalidate : DeviceListRun :=
  { s with
    vm := { s.vm with snapshotValid := false }
    pending := s.pending - 1
    exchanging := s.exchanging + 1 }

def exchange : DeviceListRun :=
  { s with
    rebuildQueued := true
    exchanging := s.exchanging - 1
    posting := if s.rebuildQueued then s.posting else s.posting + 1 }

def post : DeviceListRun := { s with posting := s.posting - 1, posted := s.posted + 1 }

def runClosure : DeviceListRun := { s with posted := s.posted - 1, ui := .clearing }

def clear : DeviceListRun := { s with rebuildQueued := false, ui := .claiming }

def enter (filter : Str) : DeviceListRun :=
  { s with vm := { s.vm with filter := filter }, ui := .claiming, touched := true }

def claim : DeviceListRun :=
  { s with
    vm := { s.vm with snapshotValid := true }
    ui := if s.vm.snapshotValid then .building else .fetching }

def fetch (devices : List Device) : DeviceListRun :=
  { s with
    vm := { s.vm with snapshot := ⟨devices, devices.map haystackFor, rfl⟩ }
    ui := .probing }

def probe : DeviceListRun :=
  { s with vm := { s.vm with facts := s.criticalityFacts }, ui := .building }

def build : DeviceListRun :=
  { s with
    vm := s.vm.showRows order s.daemonAvailability s.vm.selectedDeviceId (s.vm.filter.map toLower)
    ui := .idle
    told := s.daemonAvailability }

def step : Action → Option DeviceListRun
  | .applyEnumeration snapshot => some (s.change (applyEnumeration s.model snapshot))
  | .applyDelta event => some (s.change (applyDelta s.model event))
  | .reprobe facts => some { s with criticalityFacts := facts }
  | .observe error => some { s with daemonAvailability := error }
  | .invalidate => if 0 < s.pending then some s.invalidate else none
  | .exchange => if 0 < s.exchanging then some s.exchange else none
  | .post => if 0 < s.posting then some s.post else none
  | .runClosure => if s.ui = .idle ∧ 0 < s.posted then some s.runClosure else none
  | .clear => if s.ui = .clearing then some s.clear else none
  | .rebuild => if s.ui = .idle then some (s.enter s.vm.filter) else none
  | .setFilter filter => if s.ui = .idle then some (s.enter filter) else none
  | .claim => if s.ui = .claiming then some s.claim else none
  | .fetch devices => if s.ui = .fetching ∧ devices.Perm (devicesOf s.model) then
      some (s.fetch devices) else none
  | .probe => if s.ui = .probing then some s.probe else none
  | .build => if s.ui = .building then some (s.build order) else none

structure Quiet : Prop where
  pending : s.pending = 0
  exchanging : s.exchanging = 0
  posting : s.posting = 0
  posted : s.posted = 0
  ui : s.ui = .idle

/-- The rows are those that a rebuild of any view with this filter gives which fetches the model
now. -/
def Current : Prop :=
  ∃ facade : Facade, facade.devices.Perm (devicesOf s.model) ∧
    facade.criticalityFacts = s.vm.facts ∧
    facade.daemonAvailability = s.told ∧
    ∀ vm : DeviceListVM, vm.filter = s.vm.filter → vm.snapshotValid = false →
      (vm.rebuild facade order).toRows = s.vm.toRows

/-- One closure is queued at most, and at rest a view that was ever asked for rows shows those of
the model. -/
structure Prompt : Prop where
  once : s.posted ≤ 1
  current : s.Quiet → s.touched = true → s.Current order

def Coming : Prop := 0 < s.pending ∨ 0 < s.exchanging ∨ s.rebuildQueued = true

structure Tracked : Prop where
  queued : s.posting + s.posted + (if s.ui = .clearing then 1 else 0) = if s.rebuildQueued then 1
      else 0
  current : s.vm.snapshotValid = true → s.ui ≠ .fetching → s.pending = 0 →
    s.vm.snapshot.devices.Perm (devicesOf s.model)
  stale : s.touched = true → s.vm.snapshotValid = false → s.Coming ∨ s.ui = .claiming
  shown : s.ui = .idle → (s.touched = true → s.Coming) ∨
    s.vm.toRows = s.vm.buildRows order s.told (s.vm.filter.map toLower)

variable {order s} {s' : DeviceListRun} {a : Action}

theorem tracked_start (model : Model) (facts : Option CriticalityFacts) (error : Option Error) :
    (start model facts error).Tracked order where
  queued := rfl
  current h := nomatch h
  stale h := nomatch h
  shown _ := .inl (fun h => nomatch h)

theorem applyEnumeration_silent {model : Model} {snapshot : List Device}
    (h : (applyEnumeration model snapshot).1 = []) :
    (applyEnumeration model snapshot).2 = model := by
  rw [applyEnumeration_events, List.append_eq_nil_iff, List.append_eq_nil_iff,
    List.map_eq_nil_iff] at h
  obtain ⟨⟨hremoved, hadded⟩, hchanged⟩ := h
  apply Std.ExtTreeMap.ext_getElem?
  intro id
  have hnext := applyEnumeration_getElem? model snapshot id
  cases hfound : snapshot.find? fun d => d.id = id with
  | none =>
    rw [hfound] at hnext
    rw [hnext]
    cases hmodel : model[id]? with
    | none => rfl
    | some d =>
      have hgone := List.filterMap_eq_nil_iff.mp hremoved _
        (Std.ExtTreeMap.mem_toList_iff_getElem?_eq_some.mpr hmodel)
      simp [Std.ExtTreeMap.mem_iff_isSome_getElem?, hnext] at hgone
  | some d =>
    have hd := List.mem_of_find?_eq_some hfound
    obtain rfl : d.id = id := by simpa using List.find?_some hfound
    rw [hnext, hfound]
    cases hmodel : model[d.id]? with
    | none =>
      have hnew := mem_addedBy.mpr ⟨d, hd, hmodel, rfl⟩
      rw [hadded] at hnew
      cases hnew
    | some prev =>
      by_cases hsame : prev = d
      · rw [hsame]
      · have hother := mem_changedBy.mpr ⟨d, hd, prev, hmodel, hsame, rfl⟩
        rw [hchanged] at hother
        cases hother

theorem applyDelta_silent {model : Model} {event : HotplugEvent}
    (h : (applyDelta model event).1 = []) :
    (applyDelta model event).2 = model := by
  unfold applyDelta at h ⊢
  dsimp only at h ⊢
  by_cases haction : event.action = .removed
  · rw [if_pos haction] at h ⊢
    cases hprev : model[event.device.id]? with
    | none => rfl
    | some prev => simp [hprev] at h
  · rw [if_neg haction] at h ⊢
    cases hprev : model[event.device.id]? with
    | none => simp [hprev] at h
    | some prev =>
      by_cases hsame : prev = event.device
      · simp [hsame]
      · simp [hprev, hsame] at h

theorem devicesOf_distinct {model : Model} (hkeyed : Keyed model) :
    ((devicesOf model).map (·.id)).Nodup := by
  rw [devicesOf, List.map_map, List.Nodup, List.pairwise_map]
  apply (keySorted_toList model).imp_of_mem
  intro (key, d) (later, d') hmem hmem' hlt heq
  have hkey := hkeyed key d (Std.ExtTreeMap.mem_toList_iff_getElem?_eq_some.mp hmem)
  have hlater := hkeyed later d' (Std.ExtTreeMap.mem_toList_iff_getElem?_eq_some.mp hmem')
  have hsame : key = later := hkey.symm.trans (Eq.trans heq hlater)
  rw [hsame] at hlt
  simp at hlt

theorem keyed_applyEnumeration (model : Model) (snapshot : List Device) :
    Keyed (applyEnumeration model snapshot).2 := by
  intro key d hd
  rw [applyEnumeration_getElem?] at hd
  simpa using List.find?_some hd

theorem keyed_applyDelta {model : Model} (hkeyed : Keyed model) (event : HotplugEvent) :
    Keyed (applyDelta model event).2 := by
  intro key d hd
  rw [applyDelta_getElem?] at hd
  by_cases hid : event.device.id = key
  · rw [if_pos hid, HotplugEvent.state] at hd
    obtain ⟨-, hd⟩ := Option.ite_none_left_eq_some.mp hd
    rw [← Option.some.inj hd, hid]
  · rw [if_neg hid] at hd
    exact hkeyed key d hd

theorem keyed_step (hkeyed : Keyed s.model) (hstep : s.step order a = some s') :
    Keyed s'.model := by
  cases a with
  | applyEnumeration snapshot =>
      exact Option.some.inj hstep ▸ keyed_applyEnumeration s.model snapshot
  | applyDelta event => exact Option.some.inj hstep ▸ keyed_applyDelta hkeyed event
  | reprobe facts => exact Option.some.inj hstep ▸ hkeyed
  | observe error => exact Option.some.inj hstep ▸ hkeyed
  | invalidate | exchange | post | runClosure | clear | rebuild | setFilter filter |
      claim | fetch devices
  | probe | build =>
    obtain ⟨-, hs'⟩ := Option.ite_none_right_eq_some.mp hstep
    exact Option.some.inj hs' ▸ hkeyed

theorem fetched_distinct {model : Model} (hkeyed : Keyed model) (facts : Option CriticalityFacts)
    (error : Option Error) (actions : List Action) :
    MeetsSome (step order) (fun _ a _ => ∀ devices, a = .fetch devices →
      (devices.map (·.id)).Nodup)
      (start model facts error) actions := by
  apply meetsSome_of_invariant (I := fun s => Keyed s.model) (C := fun _ _ _ => True)
    (step order) _ hkeyed
    (meetsSome_true (step order) actions)
  rintro s a s' hs hstep -
  refine ⟨keyed_step hs hstep, fun devices ha => ?_⟩
  subst ha
  obtain ⟨⟨-, hdevices⟩, -⟩ := Option.ite_none_right_eq_some.mp hstep
  exact (hdevices.map _).nodup_iff.mpr (devicesOf_distinct hs)

theorem Tracked.unqueued (h : s.Tracked order) (hui : s.ui ≠ .clearing) :
    s.posting + s.posted = if s.rebuildQueued then 1 else 0 := by
  have hqueued := h.queued
  rwa [if_neg hui] at hqueued

theorem Tracked.change (h : s.Tracked order) {result : List DeviceEvent × Model}
    (hsilent : result.1 = [] → result.2 = s.model) : (s.change result).Tracked order := by
  by_cases hnil : result.1 = []
  · have hsame : s.change result = s := by simp [DeviceListRun.change, hnil, hsilent hnil]
    rw [hsame]
    exact h
  · have hcoming : (s.change result).Coming :=
      .inl (Nat.add_pos_right _ (List.length_pos_of_ne_nil hnil))
    refine ⟨h.queued, fun _ _ hpending => ?_, fun _ _ => .inl hcoming,
      fun _ => .inl fun _ => hcoming⟩
    have hzero : s.pending + result.1.length = 0 := hpending
    have hpos := List.length_pos_of_ne_nil hnil
    omega

theorem Tracked.invalidate (h : s.Tracked order) : s.invalidate.Tracked order where
  queued := h.queued
  current hvalid := nomatch hvalid
  stale _ _ := .inl (.inr (.inl (Nat.succ_pos _)))
  shown _ := .inl fun _ => .inr (.inl (Nat.succ_pos _))

theorem Tracked.exchange (h : s.Tracked order) : s.exchange.Tracked order where
  queued := by
    have hqueued := h.queued
    change (if s.rebuildQueued then s.posting else s.posting + 1) + s.posted +
      (if s.ui = .clearing then 1 else 0) = 1
    split_ifs at hqueued ⊢ <;> omega
  current := h.current
  stale _ _ := .inl (.inr (.inr rfl))
  shown _ := .inl fun _ => .inr (.inr rfl)

theorem Tracked.post (h : s.Tracked order) (hposting : 0 < s.posting) : s.post.Tracked order where
  queued := by
    have hqueued := h.queued
    change s.posting - 1 + (s.posted + 1) + (if s.ui = .clearing then 1 else 0) =
      if s.rebuildQueued then 1 else 0
    omega
  current := h.current
  stale := h.stale
  shown := h.shown

theorem Tracked.runClosure (h : s.Tracked order) (hui : s.ui = .idle) (hposted : 0 < s.posted) :
    s.runClosure.Tracked order where
  queued := by
    have hqueued := h.unqueued (by rw [hui]; nofun)
    change s.posting + (s.posted - 1) + 1 = if s.rebuildQueued then 1 else 0
    omega
  current hvalid _ := h.current hvalid (by rw [hui]; nofun)
  stale htouched hstale := .inl ((h.stale htouched hstale).resolve_right (by rw [hui]; nofun))
  shown hidle := nomatch hidle

theorem Tracked.clear (h : s.Tracked order) (hui : s.ui = .clearing) : s.clear.Tracked order where
  queued := by
    have hqueued := h.queued
    rw [hui, if_pos rfl] at hqueued
    change s.posting + s.posted + 0 = 0
    split_ifs at hqueued
    omega
  current hvalid _ := h.current hvalid (by rw [hui]; nofun)
  stale _ _ := .inr rfl
  shown hidle := nomatch hidle

theorem Tracked.enter (h : s.Tracked order) (hui : s.ui = .idle) (filter : Str) :
    (s.enter filter).Tracked order where
  queued := h.unqueued (by rw [hui]; nofun)
  current hvalid _ := h.current hvalid (by rw [hui]; nofun)
  stale _ _ := .inr rfl
  shown hidle := nomatch hidle

theorem Tracked.claim (h : s.Tracked order) (hui : s.ui = .claiming) : s.claim.Tracked order where
  queued := by
    have hother : s.claim.ui ≠ .clearing := by
      unfold DeviceListRun.claim
      dsimp only
      split_ifs <;> nofun
    rw [if_neg hother]
    exact h.unqueued (by rw [hui]; nofun)
  current _ hfetched := by
    have hvalid : s.vm.snapshotValid = true := by
      by_contra hstale
      exact hfetched (if_neg hstale)
    exact h.current hvalid (by rw [hui]; nofun)
  stale _ hstale := nomatch hstale
  shown hidle := by
    have hother : s.claim.ui ≠ .idle := by
      unfold DeviceListRun.claim
      dsimp only
      split_ifs <;> nofun
    exact absurd hidle hother

theorem Tracked.fetch (h : s.Tracked order) (hui : s.ui = .fetching) {devices : List Device}
    (hdevices : devices.Perm (devicesOf s.model)) : (s.fetch devices).Tracked order where
  queued := h.unqueued (by rw [hui]; nofun)
  current _ _ _ := hdevices
  stale htouched hstale := .inl ((h.stale htouched hstale).resolve_right (by rw [hui]; nofun))
  shown hidle := nomatch hidle

theorem Tracked.probe (h : s.Tracked order) (hui : s.ui = .probing) : s.probe.Tracked order where
  queued := h.unqueued (by rw [hui]; nofun)
  current hvalid _ := h.current hvalid (by rw [hui]; nofun)
  stale htouched hstale := .inl ((h.stale htouched hstale).resolve_right (by rw [hui]; nofun))
  shown hidle := nomatch hidle

theorem Tracked.build (h : s.Tracked order) (hui : s.ui = .building) :
    (s.build order).Tracked order where
  queued := h.unqueued (by rw [hui]; nofun)
  current hvalid _ := h.current hvalid (by rw [hui]; nofun)
  stale htouched hstale := .inl ((h.stale htouched hstale).resolve_right (by rw [hui]; nofun))
  shown _ := .inr rfl

theorem Tracked.step (h : s.Tracked order) (hstep : s.step order a = some s') :
    s'.Tracked order := by
  cases a with
  | applyEnumeration snapshot => exact Option.some.inj hstep ▸ h.change applyEnumeration_silent
  | applyDelta event => exact Option.some.inj hstep ▸ h.change applyDelta_silent
  | reprobe facts => exact Option.some.inj hstep ▸ ⟨h.queued, h.current, h.stale, h.shown⟩
  | observe error => exact Option.some.inj hstep ▸ ⟨h.queued, h.current, h.stale, h.shown⟩
  | invalidate =>
    obtain ⟨-, hs'⟩ := Option.ite_none_right_eq_some.mp hstep
    exact Option.some.inj hs' ▸ h.invalidate
  | exchange =>
    obtain ⟨-, hs'⟩ := Option.ite_none_right_eq_some.mp hstep
    exact Option.some.inj hs' ▸ h.exchange
  | post =>
    obtain ⟨hposting, hs'⟩ := Option.ite_none_right_eq_some.mp hstep
    exact Option.some.inj hs' ▸ h.post hposting
  | runClosure =>
    obtain ⟨⟨hui, hposted⟩, hs'⟩ := Option.ite_none_right_eq_some.mp hstep
    exact Option.some.inj hs' ▸ h.runClosure hui hposted
  | clear =>
    obtain ⟨hui, hs'⟩ := Option.ite_none_right_eq_some.mp hstep
    exact Option.some.inj hs' ▸ h.clear hui
  | rebuild =>
    obtain ⟨hui, hs'⟩ := Option.ite_none_right_eq_some.mp hstep
    exact Option.some.inj hs' ▸ h.enter hui s.vm.filter
  | setFilter filter =>
    obtain ⟨hui, hs'⟩ := Option.ite_none_right_eq_some.mp hstep
    exact Option.some.inj hs' ▸ h.enter hui filter
  | claim =>
    obtain ⟨hui, hs'⟩ := Option.ite_none_right_eq_some.mp hstep
    exact Option.some.inj hs' ▸ h.claim hui
  | fetch devices =>
    obtain ⟨⟨hui, hdevices⟩, hs'⟩ := Option.ite_none_right_eq_some.mp hstep
    exact Option.some.inj hs' ▸ h.fetch hui hdevices
  | probe =>
    obtain ⟨hui, hs'⟩ := Option.ite_none_right_eq_some.mp hstep
    exact Option.some.inj hs' ▸ h.probe hui
  | build =>
    obtain ⟨hui, hs'⟩ := Option.ite_none_right_eq_some.mp hstep
    exact Option.some.inj hs' ▸ h.build hui

theorem current_of_shown (hdevices : s.vm.snapshot.devices.Perm (devicesOf s.model))
    (hshown : s.vm.toRows = s.vm.buildRows order s.told (s.vm.filter.map toLower)) :
    s.Current order := by
  refine ⟨⟨s.vm.snapshot.devices, s.vm.facts, s.told⟩, hdevices, rfl, rfl,
    fun vm hfilter hstale => ?_⟩
  obtain ⟨-, hfresh⟩ := claimSnapshot_fresh vm ⟨s.vm.snapshot.devices, s.vm.facts, s.told⟩
  obtain ⟨hsnapshot, hfacts⟩ := hfresh hstale
  rw [rebuild_toRows, hshown, buildRows_eq, buildRows_eq, hsnapshot, hfacts, hfilter]

theorem Tracked.prompt (h : s.Tracked order) : s.Prompt order where
  once := by
    have hqueued := h.queued
    split_ifs at hqueued <;> omega
  current hquiet htouched := by
    have hfree : s.rebuildQueued = false := by
      have hqueued := h.unqueued (by rw [hquiet.ui]; nofun)
      rw [hquiet.posting, hquiet.posted] at hqueued
      by_contra hrebuild
      simp [hrebuild] at hqueued
    have hdone : ¬ s.Coming := by
      simp [Coming, hquiet.pending, hquiet.exchanging, hfree]
    have hvalid : s.vm.snapshotValid = true := by
      by_contra hstale
      obtain hcoming | hclaiming := h.stale htouched (Bool.eq_false_of_not_eq_true hstale)
      · exact hdone hcoming
      · rw [hquiet.ui] at hclaiming
        cases hclaiming
    apply current_of_shown
    · exact h.current hvalid (by rw [hquiet.ui]; nofun) hquiet.pending
    · exact (h.shown hquiet.ui).resolve_left fun hcoming => hdone (hcoming htouched)

/-- After every step of every run one closure is queued at most, and at rest no change of the model
and no filter is missing from the rows. -/
theorem updates_kept (order : LabelSort) (model : Model) (facts : Option CriticalityFacts)
    (error : Option Error) (actions : List Action) :
    MeetsSome (step order) (fun _ _ s => s.Prompt order) (start model facts error) actions :=
  meetsSome_of_invariant (I := fun s => s.Tracked order) (C := fun _ _ _ => True) (step order)
    (fun _ _ _ h hstep _ => ⟨h.step hstep, (h.step hstep).prompt⟩)
    (tracked_start model facts error) (meetsSome_true (step order) actions)

theorem untouched_shows_nothing :
    runSome (step stableSort) (start {(str "1-1", mouse (str "1-1"))} none none) [] =
      some (start {(str "1-1", mouse (str "1-1"))} none none) ∧
    (start {(str "1-1", mouse (str "1-1"))} none none).Quiet ∧
    ¬ (start {(str "1-1", mouse (str "1-1"))} none none).Current stableSort := by
  refine ⟨rfl, ⟨rfl, rfl, rfl, rfl, rfl⟩, ?_⟩
  rintro ⟨facade, hdevices, -, -, hrebuild⟩
  obtain ⟨-, hfresh⟩ := claimSnapshot_fresh emptyView facade
  have hsnapshot : (emptyView.rebuild facade stableSort).snapshot.devices = [mouse (str "1-1")] :=
    (hfresh rfl).1.trans (List.perm_singleton.mp hdevices)
  have hids : ((emptyView.rebuild facade stableSort).snapshot.devices.map (·.id)).Nodup := by
    rw [hsnapshot]
    exact List.nodup_singleton _
  have hshown := rebuild_shown hids
  have honce := hshown.once (mouse (str "1-1")) (by rw [hsnapshot]; exact List.mem_singleton_self _)
  have hlisted : Listed emptyView.filter (mouse (str "1-1")) := List.nil_infix
  rw [hrebuild emptyView rfl rfl, if_pos hlisted] at honce
  cases honce

theorem enter_undisturbed (filter : Str) {devices : List Device}
    (hstale : s.vm.snapshotValid = false) (hdevices : devices.Perm (devicesOf s.model)) :
    runSome (step order) (s.enter filter) [.claim, .fetch devices, .probe, .build] =
      some { s with
        vm := s.vm.setFilter ⟨devices, s.criticalityFacts, s.daemonAvailability⟩ order filter
        ui := .idle
        touched := true
        told := s.daemonAvailability } := by
  have hclaim : ({ s.vm with filter := filter }).claimSnapshot
      ⟨devices, s.criticalityFacts, s.daemonAvailability⟩ =
      { ({ s.vm with filter := filter }).refreshSnapshot
          ⟨devices, s.criticalityFacts, s.daemonAvailability⟩ with snapshotValid := true } := by
    rw [claimSnapshot, if_neg (by simp [hstale])]
  have hfetching : (s.enter filter).claim.ui = .fetching := if_neg (by simp [enter, hstale])
  rw [DeviceListVM.setFilter, DeviceListVM.rebuild, hclaim]
  simp only [runSome_cons]
  exact ⟨(s.enter filter).claim, rfl, (s.enter filter).claim.fetch devices,
    if_pos ⟨hfetching, hdevices⟩, _, rfl, _, rfl, rfl⟩

/-- With nothing in between, the steps of a rebuild are the rebuild of the view model, and those
behind a new filter the setting of it. -/
theorem rebuild_undisturbed {devices : List Device} (hui : s.ui = .idle)
    (hstale : s.vm.snapshotValid = false) (hdevices : devices.Perm (devicesOf s.model)) :
    let facade : Facade := ⟨devices, s.criticalityFacts, s.daemonAvailability⟩
    let built (vm : DeviceListVM) : DeviceListRun :=
      { s with vm, ui := .idle, touched := true, told := s.daemonAvailability }
    runSome (step order) s [.rebuild, .claim, .fetch devices, .probe, .build] =
        some (built (s.vm.rebuild facade order)) ∧
      ∀ filter, runSome (step order) s [.setFilter filter, .claim, .fetch devices, .probe, .build] =
        some (built (s.vm.setFilter facade order filter)) := by
  constructor
  · exact (runSome_cons _).mpr ⟨s.enter s.vm.filter, if_pos hui,
      enter_undisturbed s.vm.filter hstale hdevices⟩
  · intro filter
    exact (runSome_cons _).mpr ⟨s.enter filter, if_pos hui,
      enter_undisturbed filter hstale hdevices⟩

end DeviceListRun

end DevMgr.App
