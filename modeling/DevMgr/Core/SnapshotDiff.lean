import DevMgr.Core.SnapshotModels
import Mathlib.Tactic.SplitIfs

/-!
# What changed between two payloads

The rows of a diff come in three groups: devices by their labels, modules by the
directives of all modprobe files together, and the files themselves where they
appear, disappear or change without their own directives changing.
-/

namespace DevMgr.Core
open Bytes

def kDiffKindDevice : Str := str "device"
def kDiffKindModule : Str := str "module"
def kDiffKindModprobe : Str := str "modprobe"
def kDiffStateEnabled : Str := str "enabled"
def kDiffStateAbsent : Str := str "absent"
def kDiffStatePresent : Str := str "present"
def kDiffStateBlacklisted : Str := str "blacklisted"
def kDiffStateEdited : Str := str "present, contents differ"

structure SnapshotDiffEntry where
  kind : Str
  key : Str
  before : Str
  after : Str
  deriving DecidableEq

structure SnapshotDiff where
  baseId : Str
  targetId : Str
  entries : List SnapshotDiffEntry

def SnapshotDiff.identical (diff : SnapshotDiff) : Bool := diff.entries.isEmpty

abbrev ModuleStates := StringMap Str

def tokenize (line : Str) : List Str := tokens (before (str "#") line)

def appendState (state part : Str) : Str :=
  (if state = [] then [] else state ++ str ", ") ++ part

def joinFrom (tokens : List Str) (first : ℕ) : Str :=
  (tokens.drop first).foldl
    (fun joined token => (if joined = [] then [] else joined ++ str " ") ++ token) []

def ModuleStates.append (states : ModuleStates) (module part : Str) : ModuleStates :=
  states.insert module (appendState (states.getD module []) part)

def collectDirective (states : ModuleStates) (line : Str) : ModuleStates :=
  let tokens := tokenize line
  match tokens with
  | keyword :: module :: rest =>
    if keyword = str "blacklist" then states.append module kDiffStateBlacklisted
    else if keyword = str "options" ∧ rest ≠ [] then
      states.append module (str "options: " ++ joinFrom tokens 2)
    else if keyword = str "install" ∧ rest ≠ [] then
      states.append module (str "install: " ++ joinFrom tokens 2)
    else states
  | _ => states

def collectDirectives (content : Str) (states : ModuleStates) : ModuleStates :=
  (lines content).foldl collectDirective states

def moduleStates (files : StringMap Str) : ModuleStates :=
  files.toList.foldl (fun states file => collectDirectives file.2 states) ∅

def fileModuleStates (content : Str) : ModuleStates := collectDirectives content ∅

def deviceEntryLabel (entry : DisabledDeviceEntry) : Str :=
  let key := entry.key
  if key.position = [] ∧ key.vendorId = [] ∧ key.productId = [] then
    if entry.lastSysfsPath = [] then str "unknown device" else entry.lastSysfsPath
  else
    let bus := if key.bus = [] then str "device" else key.bus
    let product :=
      if key.vendorId ≠ [] ∨ key.productId ≠ [] then str " " ++ key.vendorId ++
        str ":" ++ key.productId
      else []
    let place :=
      if key.position ≠ [] then str " @" ++ key.position
      else if entry.lastSysfsPath ≠ [] then str " @" ++ entry.lastSysfsPath
      else []
    let serial := if key.serial ≠ [] then str " #" ++ key.serial else []
    bus ++ product ++ place ++ serial

def deviceEntryState (entry : DisabledDeviceEntry) : Str :=
  if entry.mechanism = [] then str "disabled" else str "disabled (" ++ entry.mechanism ++ str ")"

def deviceStates (entries : List DisabledDeviceEntry) : StringMap Str :=
  entries.foldl
    (fun states entry => states.insert (deviceEntryLabel entry) (deviceEntryState entry)) ∅

def stateOr (states : StringMap Str) (key fallback : Str) : Str := states[key]?.getD fallback

def diffStates (kind fallback : Str) (before after : StringMap Str) : List SnapshotDiffEntry :=
  (unionKeys before after).filterMap fun key =>
    let b := stateOr before key fallback
    let a := stateOr after key fallback
    if b = a then none else some ⟨kind, key, b, a⟩

def diffDevices (base target : SnapshotPayload) : List SnapshotDiffEntry :=
  diffStates kDiffKindDevice kDiffStateEnabled (deviceStates base.entries)
    (deviceStates target.entries)

def diffModules (base target : SnapshotPayload) : List SnapshotDiffEntry :=
  diffStates kDiffKindModule kDiffStateAbsent (moduleStates base.modprobeFiles)
    (moduleStates target.modprobeFiles)

def diffModprobeFile (before after : StringMap Str) (name : Str) : Option SnapshotDiffEntry :=
  match before[name]?, after[name]? with
  | some b, some a =>
    if b = a then none
    else if fileModuleStates b ≠ fileModuleStates a then none
    else some ⟨kDiffKindModprobe, name, kDiffStatePresent, kDiffStateEdited⟩
  | b, a =>
    some ⟨kDiffKindModprobe, name, if b.isSome then kDiffStatePresent else kDiffStateAbsent,
      if a.isSome then kDiffStatePresent else kDiffStateAbsent⟩

def diffModprobeFiles (base target : SnapshotPayload) : List SnapshotDiffEntry :=
  (unionKeys base.modprobeFiles target.modprobeFiles).filterMap
    (diffModprobeFile base.modprobeFiles target.modprobeFiles)

def diffPayloads (base target : SnapshotPayload) : SnapshotDiff where
  baseId := []
  targetId := []
  entries := diffDevices base target ++ diffModules base target ++ diffModprobeFiles base target

theorem diffModprobeFile_none {before after : StringMap Str} {name : Str} :
    diffModprobeFile before after name = none ↔
    ∃ b a, before[name]? = some b ∧ after[name]? = some a ∧
      (fileModuleStates b = fileModuleStates a → b = a) := by
  unfold diffModprobeFile
  cases before[name]? with
  | none => simp
  | some b =>
    cases after[name]? with
    | none => simp
    | some a =>
      by_cases hsame : b = a
      · simp [hsame]
      · by_cases hmoved : fileModuleStates b = fileModuleStates a
        · simp [hsame, hmoved]
        · simp [hsame, hmoved]

theorem diffModprobeFiles_nil {base target : SnapshotPayload} :
    diffModprobeFiles base target = [] ↔
      (∀ name : Str, name ∈ base.modprobeFiles ↔ name ∈ target.modprobeFiles) ∧
      ∀ (name : Str) b a, base.modprobeFiles[name]? = some b →
        target.modprobeFiles[name]? = some a →
        fileModuleStates b = fileModuleStates a → b = a := by
  unfold diffModprobeFiles
  rw [List.filterMap_eq_nil_iff]
  simp only [mem_unionKeys, diffModprobeFile_none]
  refine ⟨fun h => ⟨fun name => ⟨fun hb => ?_, fun ha => ?_⟩, fun name b a hb ha => ?_⟩,
    fun h name => ?_⟩
  · obtain ⟨_, a, _, ha, _⟩ := h name (.inl hb)
    exact Std.ExtTreeMap.mem_iff_isSome_getElem?.mpr (by rw [ha]; rfl)
  · obtain ⟨b, _, hb, _, _⟩ := h name (.inr ha)
    exact Std.ExtTreeMap.mem_iff_isSome_getElem?.mpr (by rw [hb]; rfl)
  · obtain ⟨b', a', hb', ha', hunmoved⟩ :=
      h name (.inl (Std.ExtTreeMap.mem_iff_isSome_getElem?.mpr (by rw [hb]; rfl)))
    obtain rfl : b = b' := Option.some.inj (hb.symm.trans hb')
    obtain rfl : a = a' := Option.some.inj (ha.symm.trans ha')
    exact hunmoved
  · intro hname
    have hboth : name ∈ base.modprobeFiles ∧ name ∈ target.modprobeFiles :=
      ⟨hname.elim id (h.1 name).mpr, hname.elim (h.1 name).mp id⟩
    obtain ⟨b, hb⟩ :=
      Option.isSome_iff_exists.mp (Std.ExtTreeMap.mem_iff_isSome_getElem?.mp hboth.1)
    obtain ⟨a, ha⟩ :=
      Option.isSome_iff_exists.mp (Std.ExtTreeMap.mem_iff_isSome_getElem?.mp hboth.2)
    exact ⟨b, a, hb, ha, h.2 name b a hb ha⟩

/-- The bytes of the file have changed without its directives. -/
def SnapshotDiffEntry.Edited (row : SnapshotDiffEntry) : Prop :=
  row.kind = kDiffKindModprobe ∧ row.after = kDiffStateEdited

instance (row : SnapshotDiffEntry) : Decidable row.Edited := inferInstanceAs (Decidable (_ ∧ _))

def SnapshotDiffEntry.swap (row : SnapshotDiffEntry) : SnapshotDiffEntry :=
  if row.Edited then row else ⟨row.kind, row.key, row.after, row.before⟩

structure Group (kind : Str) (rows : List SnapshotDiffEntry) : Prop where
  kind : ∀ row ∈ rows, row.kind = kind
  sorted : rows.Pairwise fun row later => compare row.key later.key = .lt

structure Tabular (entries : List SnapshotDiffEntry) : Prop where
  groups : ∃ devices modules files, entries = devices ++ modules ++ files ∧
    Group kDiffKindDevice devices ∧ Group kDiffKindModule modules ∧
    Group kDiffKindModprobe files
  differ : ∀ row ∈ entries, row.before ≠ row.after

theorem group_filterMap {kind : Str} {keys : List Str} {f : Str → Option SnapshotDiffEntry}
    (hkeys : keys.Pairwise fun key later => compare key later = .lt)
    (hf : ∀ key row, f key = some row → row.kind = kind ∧ row.key = key) :
    Group kind (keys.filterMap f) := by
  constructor
  · intro row hrow
    obtain ⟨key, _, hkey⟩ := List.mem_filterMap.mp hrow
    exact (hf key row hkey).1
  · apply List.Pairwise.filterMap f _ hkeys
    intro key later hlt row hrow row' hrow'
    rw [(hf key row hrow).2, (hf later row' hrow').2]
    exact hlt

theorem diffState_some {kind key b a : Str} {row : SnapshotDiffEntry}
    (h : (if b = a then none else some ⟨kind, key, b, a⟩) = some row) : b ≠ a ∧
    row = ⟨kind, key, b, a⟩ := by
  obtain ⟨hdiffers, hrow⟩ := Option.ite_none_left_eq_some.mp h
  exact ⟨hdiffers, (Option.some.inj hrow).symm⟩

theorem diffStates_group (kind fallback : Str) (before after : StringMap Str) :
    Group kind (diffStates kind fallback before after) := by
  apply group_filterMap (unionKeys_sorted before after)
  intro key row h
  obtain ⟨_, rfl⟩ := diffState_some h
  exact ⟨rfl, rfl⟩

theorem diffStates_differ {kind fallback : Str} {before after : StringMap Str} :
    ∀ row ∈ diffStates kind fallback before after, row.before ≠ row.after := by
  intro row hrow
  obtain ⟨key, _, hkey⟩ := List.mem_filterMap.mp hrow
  obtain ⟨hdiffers, rfl⟩ := diffState_some hkey
  exact hdiffers

theorem diffStates_swap {kind : Str} (hkind : kind ≠ kDiffKindModprobe) (fallback : Str)
    (before after : StringMap Str) :
    diffStates kind fallback after before = (diffStates kind fallback before after).map
      (·.swap) := by
  unfold diffStates
  rw [List.map_filterMap, unionKeys_comm]
  apply List.filterMap_congr
  intro key _
  dsimp only
  by_cases hsame : stateOr before key fallback = stateOr after key fallback
  · rw [if_pos hsame, if_pos hsame.symm, Option.map_none]
  · rw [if_neg hsame, if_neg (Ne.symm hsame), Option.map_some, SnapshotDiffEntry.swap,
      if_neg fun hedited => hkind hedited.1]

theorem diffStates_self (kind fallback : Str) (states : StringMap Str) :
    diffStates kind fallback states states = [] := by
  apply List.filterMap_eq_nil_iff.mpr
  intro key _
  exact if_pos rfl

theorem diffModprobeFile_shape {before after : StringMap Str} {name : Str} {row : SnapshotDiffEntry}
    (h : diffModprobeFile before after name = some row) : row.kind = kDiffKindModprobe ∧
    row.key = name := by
  unfold diffModprobeFile at h
  split at h
  · obtain ⟨_, h⟩ := Option.ite_none_left_eq_some.mp h
    obtain ⟨_, h⟩ := Option.ite_none_left_eq_some.mp h
    obtain rfl := Option.some.inj h
    exact ⟨rfl, rfl⟩
  · obtain rfl := Option.some.inj h
    exact ⟨rfl, rfl⟩

theorem diffModprobeFile_differ {before after : StringMap Str} {name : Str}
    {row : SnapshotDiffEntry}
    (hname : name ∈ unionKeys before after) (h : diffModprobeFile before after name = some row) :
    row.before ≠ row.after := by
  rw [mem_unionKeys, Std.ExtTreeMap.mem_iff_isSome_getElem?,
    Std.ExtTreeMap.mem_iff_isSome_getElem?] at hname
  have habsent : kDiffStateAbsent ≠ kDiffStatePresent := by decide
  have hedited : kDiffStatePresent ≠ kDiffStateEdited := by decide
  unfold diffModprobeFile at h
  cases hb : before[name]? with
  | none =>
    cases ha : after[name]? with
    | none => simp [hb, ha] at hname
    | some a =>
      rw [hb, ha] at h
      obtain rfl := Option.some.inj h
      exact habsent
  | some b =>
    cases ha : after[name]? with
    | none =>
      rw [hb, ha] at h
      obtain rfl := Option.some.inj h
      exact habsent.symm
    | some a =>
      rw [hb, ha] at h
      obtain ⟨_, h⟩ := Option.ite_none_left_eq_some.mp h
      obtain ⟨_, h⟩ := Option.ite_none_left_eq_some.mp h
      obtain rfl := Option.some.inj h
      exact hedited

theorem diffModprobeFile_swap (before after : StringMap Str) (name : Str) :
    diffModprobeFile after before name = (diffModprobeFile before after name).map (·.swap) := by
  unfold diffModprobeFile
  cases before[name]? with
  | none => cases after[name]? <;> rfl
  | some b =>
    cases after[name]? with
    | none => rfl
    | some a =>
      by_cases hsame : b = a
      · simp [hsame]
      · by_cases hmoved : fileModuleStates b = fileModuleStates a
        · simp [hsame, Ne.symm hsame, hmoved, SnapshotDiffEntry.swap, SnapshotDiffEntry.Edited]
        · simp [hsame, Ne.symm hsame, hmoved, Ne.symm hmoved]

theorem diffModprobeFiles_self (payload : SnapshotPayload) :
    diffModprobeFiles payload payload = [] := by
  apply diffModprobeFiles_nil.mpr
  refine ⟨fun name => Iff.rfl, fun name b a hb ha _ => ?_⟩
  exact Option.some.inj (hb.symm.trans ha)

theorem tabular_diffPayloads (base target : SnapshotPayload) :
    Tabular (diffPayloads base target).entries := by
  constructor
  · refine ⟨diffDevices base target, diffModules base target, diffModprobeFiles base target, rfl,
      diffStates_group .., diffStates_group .., ?_⟩
    apply group_filterMap (unionKeys_sorted ..)
    intro name row h
    exact diffModprobeFile_shape h
  · intro row hrow
    rcases List.mem_append.mp hrow with hstates | hfile
    · rcases List.mem_append.mp hstates with hdevice | hmodule
      · exact diffStates_differ row hdevice
      · exact diffStates_differ row hmodule
    · obtain ⟨name, hname, h⟩ := List.mem_filterMap.mp hfile
      exact diffModprobeFile_differ hname h

/-- A diff is a table sorted by kind and key, the other way round it is the table of the exchanged
rows, and of a payload against itself it is empty. -/
theorem diff_antisymmetric (base target : SnapshotPayload) :
    Tabular (diffPayloads base target).entries ∧
    (diffPayloads target base).entries = (diffPayloads base target).entries.map (·.swap) ∧
    (diffPayloads base base).entries = [] := by
  have hfiles : diffModprobeFiles target base = (diffModprobeFiles base target).map (·.swap) := by
    unfold diffModprobeFiles
    rw [List.map_filterMap, unionKeys_comm]
    apply List.filterMap_congr
    intro name _
    exact diffModprobeFile_swap ..
  refine ⟨tabular_diffPayloads base target, ?_, ?_⟩
  · simp only [diffPayloads, List.map_append, hfiles]
    congr 1
    congr 1
    · exact diffStates_swap (by decide) ..
    · exact diffStates_swap (by decide) ..
  · have hdevices : diffDevices base base = [] := diffStates_self ..
    have hmodules : diffModules base base = [] := diffStates_self ..
    simp only [diffPayloads, hdevices, hmodules, diffModprobeFiles_self, List.append_nil]

end DevMgr.Core
