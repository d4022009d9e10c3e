import DevMgr.App.DevicePresentation
import DevMgr.Core.Criticality
import DevMgr.Library.Buckets

/-!
# The rows of the device list

The view shows the devices that its filter matches under a heading for each bus.
Five vectors are indexed by one row number, and a row of a device stands in all of
them. What is typed into the filter is looked for in a text of each device that is
computed once for a snapshot.
-/

open DevMgr.Core

namespace DevMgr.App
open Bytes Buckets

def haystackFor (d : Device) : Str :=
  (displayDeviceName d ++ str " " ++ d.name ++ str " " ++ d.vendorId ++ str ":" ++
    d.productId ++ str " " ++
    busToString d.bus).map toLower

/-- `std::ranges::sort` by the label. It does not say in which order it leaves equal labels. -/
structure LabelSort where
  sort : List (Str × Device) → List (Str × Device)
  perm : ∀ l, (sort l).Perm l
  sorted : ∀ l, (sort l).Pairwise fun a b => a.1 ≤ b.1

structure Snapshot where
  devices : List Device
  haystacks : List Str
  aligned : haystacks = devices.map haystackFor

def Snapshot.empty : Snapshot := ⟨[], [], rfl⟩

structure Facade where
  devices : List Device
  criticalityFacts : Option CriticalityFacts
  daemonAvailability : Option Error

structure Rows where
  rows : List Str
  rowIds : List (Option Str)
  rowStatus : List (Option DeviceStatus)
  rowName : List (Option Str)
  rowCriticality : List (Option Criticality)
  deriving DecidableEq

structure DeviceListVM extends Rows where
  filter : Str
  snapshot : Snapshot
  facts : Option CriticalityFacts
  snapshotValid : Bool
  selected : ℤ

namespace DeviceListVM

def kOrder : List BusType := [.pci, .usb, .platform, .virtio, .other]

def clearRows : Rows := ⟨[], [], [], [], []⟩

def pushNonDeviceRow (r : Rows) (text : Str) : Rows where
  rows := r.rows ++ [text]
  rowIds := r.rowIds ++ [none]
  rowStatus := r.rowStatus ++ [none]
  rowName := r.rowName ++ [none]
  rowCriticality := r.rowCriticality ++ [none]

def deviceText (label identity : Str) : Str :=
  str "  " ++ label ++ if identity = [] then [] else str "  (" ++ identity ++ str ")"

def criticalityOf (facts : Option CriticalityFacts) (d : Device) : Criticality :=
  match facts with
  | some facts => classifyDevice facts d.sysfsPath
  | none => .ordinary

def pushDeviceRow (facts : Option CriticalityFacts) (r : Rows) : Str × Device → Rows
  | (label, d) =>
    { rows := r.rows ++ [deviceText label (displayDeviceIdentity d)]
      rowIds := r.rowIds ++ [some d.id]
      rowStatus := r.rowStatus ++ [some d.status]
      rowName := r.rowName ++ [some label]
      rowCriticality := r.rowCriticality ++ [some (criticalityOf facts d)] }

def headerText (bus : BusType) : Str := str "── " ++ displayBus bus ++ str " ──"

def appendRows (order : LabelSort) (facts : Option CriticalityFacts) (r : Rows) (bus : BusType)
    (group : List Device) : Rows :=
  if group = [] then r
  else
    let labelled := order.sort (group.map fun d => (displayDeviceName d, d))
    labelled.foldl (pushDeviceRow facts) (pushNonDeviceRow r (headerText bus))

def matching (needle : Str) (snapshot : Snapshot) : List Device :=
  ((snapshot.devices.zip snapshot.haystacks).filter fun (_, haystack) => needle = [] ∨
    needle <:+: haystack).map
    Prod.fst

def groups (needle : Str) (snapshot : Snapshot) : List (List Device) :=
  fill kOrder.length (fun d => kOrder.idxOf d.bus) (matching needle snapshot)

variable (vm : DeviceListVM) (facade : Facade) (order : LabelSort)

def valueAt {α : Type} (column : List (Option α)) (row : ℤ) : Option α :=
  if row < 0 ∨ column.length ≤ row then none else (column[row.toNat]?).join

def selectedDeviceId : Option Str := valueAt vm.rowIds vm.selected

def refreshSnapshot : DeviceListVM :=
  { vm with
    snapshot := ⟨facade.devices, facade.devices.map haystackFor, rfl⟩
    facts := facade.criticalityFacts }

/-- `if (!snapshotValid_.exchange(true)) refreshSnapshot()` -/
def claimSnapshot : DeviceListVM :=
  if vm.snapshotValid then vm else { vm.refreshSnapshot facade with snapshotValid := true }

def buildRows (daemonAvailability : Option Error) (needle : Str) : Rows :=
  let rows := (kOrder.zip (groups needle vm.snapshot)).foldl
    (fun r (bus, group) => appendRows order vm.facts r bus group) clearRows
  if rows.rows = [] ∧ daemonAvailability = none then pushNonDeviceRow rows (str "(no devices)")
    else rows

def restoreSelection (r : Rows) (keep : Option Str) (selected : ℤ) : ℤ :=
  let selected := match keep with
    | some id => if some id ∈ r.rowIds then (r.rowIds.idxOf (some id) : ℤ) else selected
    | none => selected
  max 0 (min (r.rows.length - 1) selected)

def showRows (daemonAvailability : Option Error) (keep : Option Str) (needle : Str) :
    DeviceListVM :=
  let rows := vm.buildRows order daemonAvailability needle
  { vm with toRows := rows, selected := restoreSelection rows keep vm.selected }

def rebuild : DeviceListVM :=
  let keep := vm.selectedDeviceId
  let needle := vm.filter.map toLower
  (vm.claimSnapshot facade).showRows order facade.daemonAvailability keep needle

def setFilter (filter : Str) : DeviceListVM := rebuild { vm with filter := filter } facade order

inductive Entry where
  | header (bus : BusType)
  | placeholder
  | device (d : Device)

def Entry.text : Entry → Str
  | .header bus => headerText bus
  | .placeholder => str "(no devices)"
  | .device d => deviceText (displayDeviceName d) (displayDeviceIdentity d)

def Entry.device? : Entry → Option Device
  | .device d => some d
  | _ => none

def project (facts : Option CriticalityFacts) (entries : List Entry) : Rows where
  rows := entries.map Entry.text
  rowIds := entries.map fun e => e.device?.map (·.id)
  rowStatus := entries.map fun e => e.device?.map (·.status)
  rowName := entries.map fun e => e.device?.map displayDeviceName
  rowCriticality := entries.map fun e => e.device?.map (criticalityOf facts)

def groupEntries (bus : BusType) (group : List Device) : List Entry :=
  if group = [] then [] else .header bus :: group.map .device

def tableEntries (group : BusType → List Device) (available : Bool) : List Entry :=
  let entries := kOrder.flatMap fun bus => groupEntries bus (group bus)
  if entries = [] ∧ available then [.placeholder] else entries

variable {vm facade order} {facts : Option CriticalityFacts}

theorem project_header (entries : List Entry) (bus : BusType) :
    pushNonDeviceRow (project facts entries) (headerText bus) = project facts
      (entries ++ [.header bus]) := by
  simp [pushNonDeviceRow, project, Entry.text, Entry.device?]

theorem project_device (entries : List Entry) (d : Device) :
    pushDeviceRow facts (project facts entries) (displayDeviceName d, d) =
      project facts (entries ++ [.device d]) := by
  simp [pushDeviceRow, project, Entry.text, Entry.device?]

theorem foldl_pushDeviceRow (entries : List Entry) {labelled : List (Str × Device)}
    (hlabel : ∀ l ∈ labelled, l.1 = displayDeviceName l.2) :
    labelled.foldl (pushDeviceRow facts) (project facts entries) =
      project facts (entries ++ (labelled.map Prod.snd).map .device) := by
  induction labelled generalizing entries with
  | nil => simp
  | cons l labelled ih =>
    obtain ⟨label, d⟩ := l
    obtain rfl : label = displayDeviceName d := hlabel _ List.mem_cons_self
    rw [List.foldl_cons, project_device, ih _ fun l hl => hlabel l (List.mem_cons_of_mem _ hl)]
    simp

def sortedGroup (order : LabelSort) (group : List Device) : List Device :=
  (order.sort (group.map fun d => (displayDeviceName d, d))).map Prod.snd

theorem labelled_label (group : List Device) :
    ∀ l ∈ order.sort (group.map fun d => (displayDeviceName d, d)),
    l.1 = displayDeviceName l.2 := by
  intro l hl
  obtain ⟨d, _, rfl⟩ := List.mem_map.mp ((order.perm _).mem_iff.mp hl)
  rfl

theorem sortedGroup_perm (group : List Device) : (sortedGroup order group).Perm group := by
  have hperm := (order.perm (group.map fun d => (displayDeviceName d, d))).map Prod.snd
  rwa [List.map_map, List.map_id''] at hperm
  intro d
  rfl

theorem sortedGroup_sorted (group : List Device) :
    (sortedGroup order group).Pairwise fun a b => displayDeviceName a ≤ displayDeviceName b := by
  apply List.pairwise_map.mpr
  apply (order.sorted _).imp_of_mem
  intro a b ha hb hle
  rwa [← labelled_label group a ha, ← labelled_label group b hb]

theorem appendRows_project (entries : List Entry) (bus : BusType) (group : List Device) :
    appendRows order facts (project facts entries) bus group =
      project facts (entries ++ groupEntries bus (sortedGroup order group)) := by
  have hnil : sortedGroup order group = [] ↔ group = [] := by
    rw [← List.length_eq_zero_iff, (sortedGroup_perm group).length_eq, List.length_eq_zero_iff]
  rw [appendRows, groupEntries]
  by_cases hgroup : group = []
  · rw [if_pos hgroup, if_pos (hnil.mpr hgroup), List.append_nil]
  · rw [if_neg hgroup, if_neg (hnil.not.mpr hgroup), project_header]
    dsimp only
    rw [foldl_pushDeviceRow _ (labelled_label group), List.append_assoc]
    rfl

def Listed (filter : Str) (d : Device) : Prop := filter.map toLower <:+: haystackFor d

instance (filter : Str) (d : Device) : Decidable (Listed filter d) :=
  inferInstanceAs (Decidable (_ <:+: _))

theorem matching_eq (filter : Str) (snapshot : Snapshot) :
    matching (filter.map toLower) snapshot = snapshot.devices.filter fun d => Listed filter d := by
  have hempty : ∀ needle text : Str, (needle = [] ∨ needle <:+: text) ↔ needle <:+: text := by
    intro needle text
    rw [or_iff_right_iff_imp]
    rintro rfl
    exact List.nil_infix
  rw [matching, snapshot.aligned, ← List.map_prod_left_eq_zip, List.filter_map, List.map_map]
  simp only [hempty]
  exact List.map_id _

def busGroup (filter : Str) (devices : List Device) (bus : BusType) : List Device :=
  devices.filter fun d => d.bus = bus ∧ Listed filter d

theorem mem_kOrder (bus : BusType) : bus ∈ kOrder := by
  cases bus <;> decide

theorem kOrder_nodup : kOrder.Nodup := by decide

theorem groups_eq (filter : Str) (snapshot : Snapshot) :
    groups (filter.map toLower) snapshot = kOrder.map (busGroup filter snapshot.devices) := by
  have hslot : ∀ i (hi : i < kOrder.length) (bus : BusType), kOrder.idxOf bus = i ↔
      bus = kOrder[i] := by
    intro i hi bus
    constructor
    · rintro rfl
      exact (List.getElem_idxOf hi).symm
    · rintro rfl
      exact kOrder_nodup.idxOf_getElem i hi
  rw [groups, fill_eq, matching_eq]
  apply List.ext_getElem
  · simp
  · intro i hi hi'
    have hlt : i < kOrder.length := by simpa using hi'
    simp only [List.getElem_map, List.getElem_range, busGroup, List.filter_filter]
    apply List.filter_congr
    intro d _
    simp [hslot i hlt d.bus]

theorem foldl_appendRows (filter : Str) (devices : List Device) (entries : List Entry)
    (buses : List BusType) :
    (buses.zip (buses.map (busGroup filter devices))).foldl
        (fun r (bus, group) => appendRows order facts r bus group) (project facts entries) =
      project facts (entries ++ buses.flatMap fun bus =>
        groupEntries bus (sortedGroup order (busGroup filter devices bus))) := by
  induction buses generalizing entries with
  | nil => simp
  | cons bus buses ih =>
    rw [List.map_cons, List.zip_cons_cons, List.foldl_cons]
    dsimp only
    rw [appendRows_project, ih, List.flatMap_cons, List.append_assoc]

theorem buildRows_eq (daemonAvailability : Option Error) (filter : Str) :
    vm.buildRows order daemonAvailability (filter.map toLower) =
      project vm.facts
        (tableEntries (fun bus => sortedGroup order (busGroup filter vm.snapshot.devices bus))
        daemonAvailability.isNone) := by
  have hstart : clearRows = project vm.facts [] := rfl
  rw [buildRows, groups_eq, hstart, foldl_appendRows, List.nil_append, tableEntries]
  simp only [project, List.map_eq_nil_iff, Option.isNone_iff_eq_none]
  split_ifs with hempty
  · rw [hempty.1]
    rfl
  · rfl

structure RowOf (facts : Option CriticalityFacts) (r : Rows) (i : ℕ) (device : Option Device) :
    Prop where
  text : ∀ d ∈ device,
      r.rows[i]? = some (deviceText (displayDeviceName d) (displayDeviceIdentity d))
  id : r.rowIds[i]? = some (device.map (·.id))
  status : r.rowStatus[i]? = some (device.map (·.status))
  name : r.rowName[i]? = some (device.map displayDeviceName)
  criticality : r.rowCriticality[i]? = some (device.map (criticalityOf facts))

/-- The rows show the devices that the filter matches, each once, in groups by bus. -/
structure Shown (devices : List Device) (filter : Str) (facts : Option CriticalityFacts)
    (available : Bool) (r : Rows) : Prop where
  aligned : r.rowIds.length = r.rows.length ∧ r.rowStatus.length = r.rows.length ∧
    r.rowName.length = r.rows.length ∧ r.rowCriticality.length = r.rows.length
  described : ∀ i < r.rows.length, ∃ device : Option Device,
    (∀ d ∈ device, d ∈ devices ∧ Listed filter d) ∧ RowOf facts r i device
  once : ∀ d ∈ devices, r.rowIds.count (some d.id) = if Listed filter d then 1 else 0
  only : ∀ id, some id ∈ r.rowIds → ∃ d ∈ devices, d.id = id ∧ Listed filter d
  grouped : ∃ group : BusType → List Device,
    (∀ bus, (group bus).Perm (busGroup filter devices bus)) ∧
    (∀ bus, (group bus).Pairwise fun a b => displayDeviceName a ≤ displayDeviceName b) ∧
    r = project facts (tableEntries group available)

theorem project_row {entries : List Entry} {i : ℕ} {e : Entry} (he : entries[i]? = some e) :
    RowOf facts (project facts entries) i e.device? where
  text d hd := by
    cases e with
    | device d' =>
      obtain rfl : d' = d := Option.some.inj hd
      simp [project, he, Entry.text]
    | header bus => contradiction
    | placeholder => contradiction
  id := by simp [project, he]
  status := by simp [project, he]
  name := by simp [project, he]
  criticality := by simp [project, he]

theorem valueAt_some {α : Type} {column : List (Option α)} {i : ℕ} {value : Option α}
    (h : column[i]? = some value) : valueAt column i = value := by
  have hlt := (List.getElem?_eq_some_iff.mp h).1
  rw [valueAt, if_neg (by omega), Int.toNat_natCast, h]
  rfl

theorem groupEntries_devices (bus : BusType) (group : List Device) :
    (groupEntries bus group).filterMap Entry.device? = group := by
  rw [groupEntries]
  split_ifs with hgroup
  · rw [hgroup]
    rfl
  · rw [List.filterMap_cons]
    simp only [Entry.device?, List.filterMap_map, Function.comp_def, List.filterMap_some]

theorem tableEntries_devices (group : BusType → List Device) (available : Bool) :
    (tableEntries group available).filterMap Entry.device? = kOrder.flatMap group := by
  have hall : (kOrder.flatMap fun bus => groupEntries bus (group bus)).filterMap Entry.device? =
      kOrder.flatMap group := by
    rw [List.filterMap_flatMap]
    simp only [groupEntries_devices]
  rw [tableEntries]
  split_ifs with hempty
  · rw [← hall, hempty.1]
    rfl
  · exact hall

theorem project_rowIds_count (entries : List Entry) (id : Str) :
    (project facts entries).rowIds.count (some id) =
      ((entries.filterMap Entry.device?).map (·.id)).count id := by
  induction entries with
  | nil => rfl
  | cons e entries ih =>
    have hcons : (project facts (e :: entries)).rowIds =
        e.device?.map (·.id) :: (project facts entries).rowIds := rfl
    rw [hcons, List.count_cons, ih, List.filterMap_cons]
    cases e.device? with
    | none => simp
    | some d => simp [List.count_cons]

variable {filter : Str} {devices : List Device} {group : BusType → List Device}

theorem mem_groups (hgroup : ∀ bus, (group bus).Perm (busGroup filter devices bus)) {d : Device} :
    d ∈ kOrder.flatMap group ↔ d ∈ devices ∧ Listed filter d := by
  simp [List.mem_flatMap, (hgroup _).mem_iff, busGroup, mem_kOrder]

theorem groups_nodup (hgroup : ∀ bus, (group bus).Perm (busGroup filter devices bus))
    (hids : (devices.map (·.id)).Nodup) : ((kOrder.flatMap group).map (·.id)).Nodup := by
  have hdevices : devices.Nodup := List.Nodup.of_map _ hids
  have hbus : ∀ bus, ∀ d ∈ group bus, d.bus = bus := by
    intro bus d hd
    have hmem := (hgroup bus).mem_iff.mp hd
    simp only [busGroup, List.mem_filter, decide_eq_true_eq] at hmem
    exact hmem.2.1
  apply List.Nodup.map_on
  · intro d hd d' hd' hsame
    exact List.inj_on_of_nodup_map hids ((mem_groups hgroup).mp hd).1
      ((mem_groups hgroup).mp hd').1 hsame
  · apply List.nodup_flatMap.mpr
    constructor
    · intro bus _
      exact (hgroup bus).nodup_iff.mpr (hdevices.filter _)
    · apply kOrder_nodup.imp
      intro bus bus' hne d hd hd'
      exact hne ((hbus bus d hd).symm.trans (hbus bus' d hd'))

theorem shown_of_groups {available : Bool} (hids : (devices.map (·.id)).Nodup)
    (hgroup : ∀ bus, (group bus).Perm (busGroup filter devices bus))
    (hsorted : ∀ bus, (group bus).Pairwise fun a b => displayDeviceName a ≤
      displayDeviceName b) :
    Shown devices filter facts available (project facts (tableEntries group available)) where
  aligned := by simp [project]
  described i hi := by
    have hlt : i < (tableEntries group available).length := by simpa [project] using hi
    have he := List.getElem?_eq_getElem hlt
    refine ⟨_, fun d hd => ?_, project_row he⟩
    have hmem := List.mem_filterMap.mpr ⟨_, List.getElem_mem hlt, hd⟩
    rw [tableEntries_devices] at hmem
    exact (mem_groups hgroup).mp hmem
  once d hd := by
    have hnodup := groups_nodup hgroup hids
    rw [project_rowIds_count, tableEntries_devices]
    split_ifs with hlisted
    · apply List.count_eq_one_of_mem hnodup
      exact List.mem_map_of_mem ((mem_groups hgroup).mpr ⟨hd, hlisted⟩)
    · apply List.count_eq_zero_of_not_mem
      intro hmem
      obtain ⟨d', hd', hsame⟩ := List.mem_map.mp hmem
      obtain ⟨hdevice, hlisted'⟩ := (mem_groups hgroup).mp hd'
      exact hlisted (List.inj_on_of_nodup_map hids hdevice hd hsame ▸ hlisted')
  only id hid := by
    have hpos := List.count_pos_iff.mpr hid
    rw [project_rowIds_count, tableEntries_devices] at hpos
    obtain ⟨d, hd, hsame⟩ := List.mem_map.mp (List.count_pos_iff.mp hpos)
    obtain ⟨hdevice, hlisted⟩ := (mem_groups hgroup).mp hd
    exact ⟨d, hdevice, hsame, hlisted⟩
  grouped := ⟨group, hgroup, hsorted, rfl⟩

structure SelectionKept (vm vm' : DeviceListVM) : Prop where
  kept : ∀ id, vm.selectedDeviceId = some id → some id ∈ vm'.rowIds →
      vm'.selectedDeviceId = some id
  inside : vm'.rows ≠ [] → 0 ≤ vm'.selected ∧ vm'.selected < vm'.rows.length
  outside : vm'.rows = [] → vm'.selected = 0

theorem restoreSelection_found {r : Rows} {id : Str} {selected : ℤ}
    (hlength : r.rowIds.length = r.rows.length)
    (hid : some id ∈ r.rowIds) : restoreSelection r (some id) selected = r.rowIds.idxOf
      (some id) := by
  have hlt := List.idxOf_lt_length_of_mem hid
  simp only [restoreSelection, if_pos hid]
  omega

theorem restoreSelection_inside {r : Rows} {keep : Option Str} {selected : ℤ} :
    (r.rows ≠ [] → 0 ≤ restoreSelection r keep selected ∧
      restoreSelection r keep selected < r.rows.length) ∧
      (r.rows = [] → restoreSelection r keep selected = 0) := by
  rw [← List.length_eq_zero_iff, ← List.length_pos_iff]
  unfold restoreSelection
  dsimp only
  constructor
  · intro hpos
    omega
  · intro hzero
    simp only [hzero]
    omega

theorem claimSnapshot_fresh (vm : DeviceListVM) (facade : Facade) :
    (vm.claimSnapshot facade).snapshotValid = true ∧
      (vm.snapshotValid = false →
        (vm.claimSnapshot facade).snapshot.devices = facade.devices ∧
          (vm.claimSnapshot facade).facts = facade.criticalityFacts) := by
  unfold claimSnapshot refreshSnapshot
  split_ifs with hvalid
  · simp [hvalid]
  · simp

theorem rebuild_toRows : (vm.rebuild facade order).toRows =
    (vm.claimSnapshot facade).buildRows order facade.daemonAvailability (vm.filter.map toLower) :=
  rfl

theorem rebuild_shown (hids : ((vm.rebuild facade order).snapshot.devices.map (·.id)).Nodup) :
    Shown (vm.rebuild facade order).snapshot.devices vm.filter (vm.rebuild facade order).facts
      facade.daemonAvailability.isNone (vm.rebuild facade order).toRows := by
  rw [rebuild_toRows, buildRows_eq]
  apply shown_of_groups hids
  · intro bus
    exact sortedGroup_perm _
  · intro bus
    exact sortedGroup_sorted _

theorem rebuild_selection : SelectionKept vm (vm.rebuild facade order) := by
  have hlength : (vm.rebuild facade order).rowIds.length =
      (vm.rebuild facade order).rows.length := by
    rw [rebuild_toRows, buildRows_eq]
    simp [project]
  constructor
  · intro id hkeep hid
    have hselected : (vm.rebuild facade order).selected =
        (vm.rebuild facade order).rowIds.idxOf (some id) := by
      have hrestored : (vm.rebuild facade order).selected = restoreSelection
          (vm.rebuild facade order).toRows
          vm.selectedDeviceId (vm.claimSnapshot facade).selected := rfl
      rw [hrestored, hkeep]
      exact restoreSelection_found hlength hid
    have hlt := List.idxOf_lt_length_of_mem hid
    rw [selectedDeviceId, hselected]
    apply valueAt_some
    rw [List.getElem?_eq_getElem hlt, List.getElem_idxOf]
  · exact restoreSelection_inside.1
  · exact restoreSelection_inside.2

/-- Each device the filter matches has one row and no other device has one, in groups by bus that
are sorted by their labels; all vectors speak of the same device at each row, and the selection
stays. -/
theorem rebuild_rows (vm : DeviceListVM) (facade : Facade) (order : LabelSort)
    (hids : ((vm.rebuild facade order).snapshot.devices.map (·.id)).Nodup) :
    Shown (vm.rebuild facade order).snapshot.devices vm.filter (vm.rebuild facade order).facts
      facade.daemonAvailability.isNone (vm.rebuild facade order).toRows ∧
    SelectionKept vm (vm.rebuild facade order) :=
  ⟨rebuild_shown hids, rebuild_selection⟩

def stableSort : LabelSort where
  sort l := l.insertionSort fun a b => a.1 ≤ b.1
  perm := List.perm_insertionSort _
  sorted l := by
    have hpairwise := List.pairwise_insertionSort (fun a b : Str × Device => a.1 ≤ b.1) l
    exact hpairwise

def mouse (id : Str) : Device where
  id
  bus := .usb
  name := str "Logitech Mouse"
  sysfsPath := str "/sys/devices/pci0000:00/usb1/" ++ id
  vendorId := str "046d"
  productId := str "c077"
  serial := []
  status := .active
  boundDriver := some (str "usbhid")
  modalias := []
  parent := none
  properties := ∅
  errorNote := none

def opened : DeviceListVM where
  toRows := clearRows
  filter := str "mouse"
  snapshot := .empty
  facts := none
  snapshotValid := false
  selected := 0

theorem rebuild_rows_mice :
    Shown [mouse (str "1-1"), mouse (str "1-2")] (str "mouse") none true
      (opened.rebuild ⟨[mouse (str "1-1"), mouse (str "1-2")], none,
        none⟩ stableSort).toRows ∧
    SelectionKept opened
      (opened.rebuild ⟨[mouse (str "1-1"), mouse (str "1-2")], none, none⟩ stableSort) :=
  rebuild_rows opened ⟨[mouse (str "1-1"), mouse (str "1-2")], none,
    none⟩ stableSort (by decide)

end DeviceListVM

end DevMgr.App
