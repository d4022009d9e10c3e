import DevMgr.Core.SnapshotDiff
import DevMgr.Library.Joining

/-!
# What a diff without rows hides

A diff is empty where the two payloads show the same labels with the same
mechanisms, where their modprobe lines, read over all files together, say the
same of every module, and where a file of the same name changes only together
with what its own lines say. It does not tell the keys behind a label, nor the
file a line stands in.
-/

namespace DevMgr.Core
open Bytes Joining

def AllValues (p : Str → Prop) (states : StringMap Str) : Prop :=
  ∀ (key : Str) v, states[key]? = some v → p v

theorem allValues_empty {p : Str → Prop} : AllValues p ∅ := by
  simp [AllValues]

theorem AllValues.insert {p : Str → Prop} {states : StringMap Str} {key v : Str}
    (h : AllValues p states) (hv : p v) : AllValues p (states.insert key v) := by
  intro key' v' hlookup
  rw [Std.ExtTreeMap.getElem?_insert] at hlookup
  split_ifs at hlookup with hkey
  · exact Option.some.inj hlookup ▸ hv
  · exact h key' v' hlookup

def OfDirectives (v : Str) : Prop :=
  v.head? ∈ [(str "blacklisted").head?, (str "options").head?, (str "install").head?]

instance (v : Str) : Decidable (OfDirectives v) := inferInstanceAs (Decidable (_ ∈ _))

theorem OfDirectives.appendState {state part : Str} (hstate : state = [] ∨ OfDirectives state)
    (hpart : OfDirectives part) : OfDirectives (appendState state part) := by
  unfold Core.appendState
  split_ifs with hempty
  · exact hpart
  · have hfirst : (state ++ str ", " ++ part).head? = state.head? := by
      rw [List.append_assoc, List.head?_append_of_ne_nil _ hempty]
    unfold OfDirectives
    rw [hfirst]
    exact hstate.resolve_left hempty

theorem AllValues.append {states : ModuleStates} {module part : Str}
    (h : AllValues OfDirectives states) (hpart : OfDirectives part) :
    AllValues OfDirectives (states.append module part) := by
  refine h.insert (.appendState ?_ hpart)
  rw [Std.ExtTreeMap.getD_eq_getD_getElem?]
  cases hlookup : states[module]? with
  | none => exact .inl rfl
  | some v => exact .inr (h module v hlookup)

theorem AllValues.collectDirective {states : ModuleStates} (h : AllValues OfDirectives states)
    (line : Str) : AllValues OfDirectives (collectDirective states line) := by
  have hleads : ∀ (s t : Str), s ≠ [] → OfDirectives s → OfDirectives (s ++ t) :=
    fun s t hs h => by
    unfold OfDirectives
    rwa [List.head?_append_of_ne_nil _ hs]
  unfold Core.collectDirective
  dsimp only
  split
  · split_ifs
    · exact h.append (by decide)
    · exact h.append (hleads _ _ (by decide) (by decide))
    · exact h.append (hleads _ _ (by decide) (by decide))
    · exact h
  · exact h

theorem AllValues.collectDirectives {states : ModuleStates} (h : AllValues OfDirectives states)
    (content : Str) : AllValues OfDirectives (collectDirectives content states) :=
  List.foldlRecOn (lines content) _ h fun _ ih line _ => ih.collectDirective line

theorem moduleStates_ofDirectives (files : StringMap Str) :
    AllValues OfDirectives (moduleStates files) :=
  List.foldlRecOn files.toList _ allValues_empty fun _ ih file _ => ih.collectDirectives file.2

theorem moduleStates_ne_absent (files : StringMap Str) (module : Str) :
    (moduleStates files)[module]? ≠ some kDiffStateAbsent := fun h =>
  absurd (moduleStates_ofDirectives files module _ h) (by decide)

theorem deviceEntryState_ne_enabled (entry : DisabledDeviceEntry) :
    deviceEntryState entry ≠ kDiffStateEnabled := by
  unfold deviceEntryState
  split_ifs
  · decide
  · intro h
    have hfirst := congrArg List.head? h
    rw [List.append_assoc, List.head?_append_of_ne_nil _ (by decide)] at hfirst
    exact absurd hfirst (by decide)

theorem deviceStates_getElem? (entries : List DisabledDeviceEntry) (label : Str) :
    (deviceStates entries)[label]? =
      (entries.reverse.find? fun e => deviceEntryLabel e = label).map deviceEntryState := by
  have hfold : ∀ (entries : List DisabledDeviceEntry),
      deviceStates entries = entries.reverse.foldr
        (fun e states => states.insert (deviceEntryLabel e) (deviceEntryState e)) ∅ :=
          fun entries =>
    (List.foldr_reverse ..).symm
  rw [hfold]
  induction entries.reverse with
  | nil => simp
  | cons e rest ih =>
    rw [List.foldr_cons, Std.ExtTreeMap.getElem?_insert, ih, List.find?_cons]
    by_cases hlabel : deviceEntryLabel e = label
    · simp [hlabel]
    · simp [hlabel]

theorem deviceStates_ne_enabled (entries : List DisabledDeviceEntry) (label : Str) :
    (deviceStates entries)[label]? ≠ some kDiffStateEnabled := by
  rw [deviceStates_getElem?]
  intro h
  obtain ⟨entry, _, hstate⟩ := Option.map_eq_some_iff.mp h
  exact deviceEntryState_ne_enabled entry hstate

/-- What a modprobe line says of a module. -/
def lineSays (module line : Str) : Option Str :=
  match tokens (before (str "#") line) with
  | keyword :: name :: rest =>
    if name = module then
      if keyword = str "blacklist" then some (str "blacklisted")
      else if rest = [] then none
      else if keyword = str "options" then some (str "options: " ++ (str " ").intercalate rest)
      else if keyword = str "install" then some (str "install: " ++ (str " ").intercalate rest)
      else none
    else none
  | _ => none

def fileSays (module content : Str) : List Str := (lines content).filterMap (lineSays module)

def filesSay (module : Str) (files : StringMap Str) : List Str :=
  files.toList.flatMap fun file => fileSays module file.2

def reading (said : List Str) : Str := (str ", ").intercalate said

theorem fileSays_ne_nil (module content : Str) :
    ∀ said ∈ fileSays module content, said ≠ [] := by
  intro said hsaid
  obtain ⟨line, _, hline⟩ := List.mem_filterMap.mp hsaid
  unfold lineSays at hline
  split at hline
  · split_ifs at hline
    · exact Option.some.inj hline ▸ by decide
    · exact Option.some.inj hline ▸ List.append_ne_nil_of_left_ne_nil (by decide) _
    · exact Option.some.inj hline ▸ List.append_ne_nil_of_left_ne_nil (by decide) _
  · cases hline

theorem append_getD (states : ModuleStates) (module name part : Str) :
    (states.append name part).getD module [] =
      if name = module then appendState (states.getD module []) part
      else states.getD module [] := by
  unfold ModuleStates.append
  rw [Std.ExtTreeMap.getD_insert]
  by_cases hname : name = module
  · rw [if_pos hname, hname, if_pos (by simp)]
  · rw [if_neg hname, if_neg (by simpa using hname)]

theorem collectDirective_getD (states : ModuleStates) (module line : Str) :
    (collectDirective states line).getD module [] =
      (lineSays module line).toList.foldl appendState (states.getD module []) := by
  unfold collectDirective lineSays tokenize
  dsimp only
  rcases htokens : tokens (before (str "#") line) with _ | ⟨keyword, _ | ⟨name, rest⟩⟩
  · rfl
  · rfl
  · have hrest : ∀ token ∈ rest, token ≠ [] := fun token htoken => by
      have hmem : token ∈ tokens (before (str "#") line) := by simp [htokens, htoken]
      simpa using (List.mem_filter.mp hmem).2
    have hjoin : joinFrom (keyword :: name :: rest) 2 = (str " ").intercalate rest :=
      foldl_joined hrest
    simp only [hjoin]
    by_cases hname : name = module
    · rw [if_pos hname]
      by_cases hblack : keyword = str "blacklist"
      · rw [if_pos hblack, if_pos hblack, append_getD, if_pos hname]
        rfl
      rw [if_neg hblack, if_neg hblack]
      by_cases hempty : rest = []
      · rw [if_neg fun h => h.2 hempty, if_neg fun h => h.2 hempty, if_pos hempty]
        rfl
      rw [if_neg hempty]
      by_cases hoptions : keyword = str "options"
      · rw [if_pos ⟨hoptions, hempty⟩, if_pos hoptions, append_getD, if_pos hname]
        rfl
      rw [if_neg fun h => hoptions h.1, if_neg hoptions]
      by_cases hinstall : keyword = str "install"
      · rw [if_pos ⟨hinstall, hempty⟩, if_pos hinstall, append_getD, if_pos hname]
        rfl
      · rw [if_neg fun h => hinstall h.1, if_neg hinstall]
        rfl
    · rw [if_neg hname]
      split_ifs
      · rw [append_getD, if_neg hname]
        rfl
      · rw [append_getD, if_neg hname]
        rfl
      · rw [append_getD, if_neg hname]
        rfl
      · rfl

theorem collectDirectives_getD (states : ModuleStates) (module content : Str) :
    (collectDirectives content states).getD module [] =
      (fileSays module content).foldl appendState (states.getD module []) := by
  unfold collectDirectives fileSays
  induction lines content generalizing states with
  | nil => rfl
  | cons line rest ih =>
    rw [List.foldl_cons, ih, collectDirective_getD]
    cases hline : lineSays module line with
    | none => rw [List.filterMap_cons_none hline]; rfl
    | some said => rw [List.filterMap_cons_some hline]; rfl

theorem fileModuleStates_getD (module content : Str) :
    (fileModuleStates content).getD module [] = reading (fileSays module content) := by
  rw [fileModuleStates, collectDirectives_getD, Std.ExtTreeMap.getD_empty]
  exact foldl_joined (fileSays_ne_nil module content)

theorem filesSay_ne_nil (module : Str) (files : StringMap Str) :
    ∀ said ∈ filesSay module files, said ≠ [] := by
  intro said hsaid
  obtain ⟨file, _, hsaid⟩ := List.mem_flatMap.mp hsaid
  exact fileSays_ne_nil module file.2 said hsaid

theorem moduleStates_getD (module : Str) (files : StringMap Str) :
    (moduleStates files).getD module [] = reading (filesSay module files) := by
  have hfold : ∀ (list : List (Str × Str)) (states : ModuleStates),
      (list.foldl (fun states file => collectDirectives file.2 states) states).getD module [] =
        (list.flatMap fun file => fileSays module file.2).foldl appendState
          (states.getD module []) := by
    intro list
    induction list with
    | nil => exact fun _ => rfl
    | cons file rest ih =>
      intro states
      rw [List.foldl_cons, ih, collectDirectives_getD, List.flatMap_cons, List.foldl_append]
  rw [moduleStates, hfold, Std.ExtTreeMap.getD_empty]
  exact foldl_joined (filesSay_ne_nil module files)

theorem states_eq_iff {states states' : ModuleStates} (h : AllValues OfDirectives states)
    (h' : AllValues OfDirectives states') :
    states = states' ↔ ∀ module : Str, states.getD module [] = states'.getD module [] := by
  have hne : ∀ {states : ModuleStates}, AllValues OfDirectives states →
      ∀ module : Str, states[module]? ≠ some [] := fun h module hmodule =>
    absurd (h module _ hmodule) (by decide)
  refine ⟨fun heq module => heq ▸ rfl, fun hreads => ?_⟩
  refine eq_of_getD_unionKeys (hne h) (hne h') fun module _ => ?_
  simpa only [Std.ExtTreeMap.getD_eq_getD_getElem?] using hreads module

/-- The entry that stands for its label: the last one with it. -/
def Shows (entries : List DisabledDeviceEntry) (e : DisabledDeviceEntry) : Prop :=
  ∃ earlier later, entries = earlier ++ e :: later ∧
    ∀ x ∈ later, deviceEntryLabel x ≠ deviceEntryLabel e

theorem Shows.mem {entries : List DisabledDeviceEntry} {e : DisabledDeviceEntry}
    (h : Shows entries e) : e ∈ entries := by
  obtain ⟨earlier, later, rfl, _⟩ := h
  simp

theorem shows_iff {entries : List DisabledDeviceEntry} {e : DisabledDeviceEntry} :
    Shows entries e ↔
      entries.reverse.find? (fun x => deviceEntryLabel x = deviceEntryLabel e) = some e := by
  rw [List.find?_eq_some_iff_append]
  constructor
  · rintro ⟨earlier, later, rfl, hlater⟩
    refine ⟨by simp, later.reverse, earlier.reverse, by simp, fun x hx => ?_⟩
    simpa using hlater x (List.mem_reverse.mp hx)
  · rintro ⟨_, later, earlier, hsplit, hlater⟩
    refine ⟨earlier.reverse, later.reverse, ?_, fun x hx => ?_⟩
    · rw [← List.reverse_reverse entries, hsplit]
      simp
    · simpa using hlater x (List.mem_reverse.mp hx)

theorem deviceStates_eq_some {entries : List DisabledDeviceEntry} {label state : Str} :
    (deviceStates entries)[label]? = some state ↔
      ∃ e, Shows entries e ∧ deviceEntryLabel e = label ∧ deviceEntryState e = state := by
  rw [deviceStates_getElem?, Option.map_eq_some_iff]
  constructor
  · rintro ⟨e, hfind, hstate⟩
    have hlabel : deviceEntryLabel e = label := by simpa using List.find?_some hfind
    subst hlabel
    exact ⟨e, shows_iff.mpr hfind, rfl, hstate⟩
  · rintro ⟨e, hshows, rfl, hstate⟩
    exact ⟨e, shows_iff.mp hshows, hstate⟩

theorem deviceEntryState_inj {e e' : DisabledDeviceEntry} :
    deviceEntryState e = deviceEntryState e' ↔ e.mechanism = e'.mechanism := by
  refine ⟨fun h => ?_, fun h => by rw [deviceEntryState, deviceEntryState, h]⟩
  have hlonger : ∀ mechanism : Str,
      str "disabled" ≠ str "disabled (" ++ mechanism ++ str ")" := fun mechanism heq => by
    have hlength := congrArg List.length heq
    rw [List.append_assoc, List.length_append] at hlength
    exact absurd hlength (Nat.ne_of_lt (Nat.lt_of_lt_of_le (by decide) (Nat.le_add_right _ _)))
  unfold deviceEntryState at h
  split_ifs at h with hempty hempty' hempty'
  · rw [hempty, hempty']
  · exact absurd h (hlonger _)
  · exact absurd h.symm (hlonger _)
  · exact List.append_cancel_left (List.append_cancel_right h)

def LabelShown (entries : List DisabledDeviceEntry) (label mechanism : Str) : Prop :=
  ∃ e, Shows entries e ∧ deviceEntryLabel e = label ∧ e.mechanism = mechanism

theorem deviceStates_eq_iff {entries entries' : List DisabledDeviceEntry} :
    deviceStates entries = deviceStates entries' ↔
      ∀ label mechanism, LabelShown entries label mechanism ↔
        LabelShown entries' label mechanism := by
  have hcarry : ∀ {entries entries' : List DisabledDeviceEntry},
      deviceStates entries = deviceStates entries' → ∀ label mechanism,
      LabelShown entries label mechanism → LabelShown entries' label mechanism := by
    rintro entries entries' heq label mechanism ⟨e, hshows, hlabel, hmechanism⟩
    have hstate := deviceStates_eq_some.mpr ⟨e, hshows, hlabel, rfl⟩
    rw [heq] at hstate
    obtain ⟨e', hshows', hlabel', hstate'⟩ := deviceStates_eq_some.mp hstate
    exact ⟨e', hshows', hlabel', (deviceEntryState_inj.mp hstate').trans hmechanism⟩
  have hstates : ∀ {entries entries' : List DisabledDeviceEntry},
      (∀ label mechanism, LabelShown entries label mechanism →
        LabelShown entries' label mechanism) → ∀ (label state : Str),
      (deviceStates entries)[label]? = some state →
        (deviceStates entries')[label]? = some state := by
    intro entries entries' hshown label state hstate
    obtain ⟨e, hshows, hlabel, hstate⟩ := deviceStates_eq_some.mp hstate
    obtain ⟨e', hshows', hlabel', hmechanism⟩ :=
      hshown label e.mechanism ⟨e, hshows, hlabel, rfl⟩
    exact deviceStates_eq_some.mpr
      ⟨e', hshows', hlabel', (deviceEntryState_inj.mpr hmechanism).trans hstate⟩
  refine ⟨fun heq label mechanism => ⟨hcarry heq label mechanism,
    hcarry heq.symm label mechanism⟩, fun h => Std.ExtTreeMap.ext_getElem? fun label => ?_⟩
  refine Option.ext fun state => ⟨?_, ?_⟩
  · exact hstates (fun label mechanism => (h label mechanism).mp) label state
  · exact hstates (fun label mechanism => (h label mechanism).mpr) label state

/-- What the three groups of rows compare comes out the same. -/
structure Unlisted (base target : SnapshotPayload) : Prop where
  labels : ∀ label mechanism, LabelShown base.entries label mechanism ↔
    LabelShown target.entries label mechanism
  directives : ∀ module, reading (filesSay module base.modprobeFiles) =
    reading (filesSay module target.modprobeFiles)
  names : ∀ name : Str, name ∈ base.modprobeFiles ↔ name ∈ target.modprobeFiles
  unmoved : ∀ (name : Str) b a, base.modprobeFiles[name]? = some b →
    target.modprobeFiles[name]? = some a →
    (∀ module, reading (fileSays module b) = reading (fileSays module a)) → b = a

theorem fileModuleStates_eq_iff {b a : Str} : fileModuleStates b = fileModuleStates a ↔
    ∀ module, reading (fileSays module b) = reading (fileSays module a) := by
  have hvalues : ∀ content, AllValues OfDirectives (fileModuleStates content) := fun content =>
    allValues_empty.collectDirectives content
  rw [states_eq_iff (hvalues b) (hvalues a)]
  simp only [fileModuleStates_getD]

theorem moduleStates_eq_iff {files files' : StringMap Str} :
    moduleStates files = moduleStates files' ↔
    ∀ module, reading (filesSay module files) = reading (filesSay module files') := by
  rw [states_eq_iff (moduleStates_ofDirectives files) (moduleStates_ofDirectives files')]
  simp only [moduleStates_getD]

theorem diffStates_nil {kind fallback : Str} {before after : StringMap Str}
    (hbefore : ∀ key : Str, before[key]? ≠ some fallback)
    (hafter : ∀ key : Str, after[key]? ≠ some fallback) :
    diffStates kind fallback before after = [] ↔ before = after := by
  unfold diffStates
  rw [List.filterMap_eq_nil_iff]
  refine ⟨fun h => eq_of_getD_unionKeys hbefore hafter fun key hkey => ?_, ?_⟩
  · have hrow := h key hkey
    dsimp only at hrow
    by_contra hdiffers
    exact Option.some_ne_none _ ((if_neg hdiffers).symm.trans hrow)
  · rintro rfl key _
    exact if_pos rfl

theorem identical_iff {base target : SnapshotPayload} :
    (diffPayloads base target).identical = true ↔ Unlisted base target := by
  have hdevices : diffDevices base target = [] ↔ _ := diffStates_nil
    (deviceStates_ne_enabled base.entries) (deviceStates_ne_enabled target.entries)
  have hmodules : diffModules base target = [] ↔ _ := diffStates_nil
    (moduleStates_ne_absent base.modprobeFiles) (moduleStates_ne_absent target.modprobeFiles)
  rw [SnapshotDiff.identical, diffPayloads, List.isEmpty_iff, List.append_eq_nil_iff,
    List.append_eq_nil_iff, hdevices, hmodules, diffModprobeFiles_nil, deviceStates_eq_iff,
    moduleStates_eq_iff]
  simp only [fileModuleStates_eq_iff]
  constructor
  · intro h
    exact ⟨h.1.1, h.1.2, h.2.1, h.2.2⟩
  · intro h
    exact ⟨⟨h.labels, h.directives⟩, h.names, h.unmoved⟩

def LinesMoved (base target : SnapshotPayload) (module name : Str) : Prop :=
  ∃ b a, base.modprobeFiles[name]? = some b ∧ target.modprobeFiles[name]? = some a ∧
    reading (fileSays module b) ≠ reading (fileSays module a)

/-- Two files have exchanged lines about one module. -/
def DirectivesMoved (base target : SnapshotPayload) : Prop :=
  ∃ module name name', name ≠ name' ∧ LinesMoved base target module name ∧
    LinesMoved base target module name'

theorem filesSay_eq (module : Str) (files : StringMap Str) :
    filesSay module files =
      files.keys.flatMap fun name => fileSays module (files.getD name []) := by
  rw [filesSay, toList_eq_map_keys files [], List.flatMap_map]

theorem Unlisted.moved_elsewhere {base target : SnapshotPayload} (h : Unlisted base target)
    {module name : Str} (hmoved : LinesMoved base target module name) :
    ∃ name', name ≠ name' ∧ LinesMoved base target module name' := by
  obtain ⟨b, a, hb, ha, hdiffers⟩ := hmoved
  have hpresent : ∀ {files : StringMap Str} {name' : Str}, name' ∈ files →
      files[name']? = some (files.getD name' []) := fun {files name'} hname' => by
    obtain ⟨content, hcontent⟩ :=
      Option.isSome_iff_exists.mp (Std.ExtTreeMap.mem_iff_isSome_getElem?.mp hname')
    rw [Std.ExtTreeMap.getD_eq_getD_getElem?, hcontent, Option.getD_some]
  by_contra hnone
  have hkept : ∀ name' ∈ base.modprobeFiles.keys, name ≠ name' →
      reading (fileSays module (base.modprobeFiles.getD name' [])) =
        reading (fileSays module (target.modprobeFiles.getD name' [])) := by
    intro name' hname' hother
    have hbase := Std.ExtTreeMap.mem_keys.mp hname'
    by_contra hdiffers'
    exact hnone ⟨name', hother, _, _, hpresent hbase, hpresent ((h.names name').mp hbase),
      hdiffers'⟩
  have hkey : name ∈ base.modprobeFiles.keys :=
    Std.ExtTreeMap.mem_keys.mpr (Std.ExtTreeMap.mem_iff_isSome_getElem?.mpr (by rw [hb]; rfl))
  obtain ⟨before, after, hsplit⟩ := List.append_of_mem hkey
  have hnodup : (before ++ name :: after).Nodup := hsplit ▸ Std.ExtTreeMap.nodup_keys
  have hapart := List.nodup_middle.mp hnodup
  have hother : ∀ name' ∈ before ++ after, name ≠ name' := fun name' hname' heq =>
    (List.nodup_cons.mp hapart).1 (heq ▸ hname')
  have hall := h.directives module
  rw [filesSay_eq, filesSay_eq, ← keys_congr h.names, hsplit] at hall
  have hsame := intercalate_flatMap_at (fun _ => fileSays_ne_nil module _)
    (fun _ => fileSays_ne_nil module _)
    (fun name' hname' => hkept name' (by simp [hsplit, hname']) (hother name' (by simp [hname'])))
    (fun name' hname' => hkept name' (by simp [hsplit, hname']) (hother name' (by simp [hname'])))
    hall
  rw [Std.ExtTreeMap.getD_eq_getD_getElem?, Std.ExtTreeMap.getD_eq_getD_getElem?, hb, ha] at hsame
  exact hdiffers hsame

theorem files_eq_iff {base target : SnapshotPayload} (h : Unlisted base target) :
    base.modprobeFiles = target.modprobeFiles ↔ ¬ DirectivesMoved base target := by
  constructor
  · rintro heq ⟨module, name, _, _, ⟨b, a, hb, ha, hdiffers⟩, _⟩
    rw [heq, ha] at hb
    exact hdiffers (Option.some.inj hb ▸ rfl)
  · intro hunmoved
    refine Std.ExtTreeMap.ext_getElem? fun name => ?_
    cases hb : base.modprobeFiles[name]? with
    | none =>
      have hmissing : name ∉ target.modprobeFiles := fun ha => by
        have hpresent := Std.ExtTreeMap.mem_iff_isSome_getElem?.mp ((h.names name).mpr ha)
        rw [hb] at hpresent
        cases hpresent
      exact (Std.ExtTreeMap.getElem?_eq_none hmissing).symm
    | some b =>
      have hpresent : name ∈ target.modprobeFiles :=
        (h.names name).mp (Std.ExtTreeMap.mem_iff_isSome_getElem?.mpr (by rw [hb]; rfl))
      obtain ⟨a, ha⟩ :=
        Option.isSome_iff_exists.mp (Std.ExtTreeMap.mem_iff_isSome_getElem?.mp hpresent)
      have hsame : ∀ module, reading (fileSays module b) = reading (fileSays module a) := by
        intro module
        by_contra hdiffers
        have hmoved : LinesMoved base target module name := ⟨b, a, hb, ha, hdiffers⟩
        obtain ⟨name', hother, hmoved'⟩ := h.moved_elsewhere hmoved
        exact hunmoved ⟨module, name, name', hother, hmoved, hmoved'⟩
      rw [ha, h.unmoved name b a hb ha hsame]

def SameDisabled (base target : SnapshotPayload) : Prop :=
  ∀ key mechanism, (∃ e ∈ base.entries, e.key = key ∧ e.mechanism = mechanism) ↔
    ∃ e ∈ target.entries, e.key = key ∧ e.mechanism = mechanism

/-- An entry the others lack, whose label stands for a later entry or for another key of theirs. -/
def Hidden (entries others : List DisabledDeviceEntry) : Prop :=
  ∃ e ∈ entries, (∀ x ∈ others, x.key = e.key → x.mechanism ≠ e.mechanism) ∧
    (¬ Shows entries e ∨ ∃ x, Shows others x ∧ deviceEntryLabel x = deviceEntryLabel e ∧
      x.mechanism = e.mechanism ∧ x.key ≠ e.key)

theorem hidden_iff {entries others : List DisabledDeviceEntry}
    (h : ∀ label mechanism, LabelShown entries label mechanism →
      LabelShown others label mechanism) :
    Hidden entries others ↔
      ∃ e ∈ entries, ∀ x ∈ others, x.key = e.key → x.mechanism ≠ e.mechanism := by
  refine ⟨fun ⟨e, he, hlacks, _⟩ => ⟨e, he, hlacks⟩,
    fun ⟨e, he, hlacks⟩ => ⟨e, he, hlacks, ?_⟩⟩
  by_cases hshows : Shows entries e
  · obtain ⟨x, hx, hlabel, hmechanism⟩ :=
      h (deviceEntryLabel e) e.mechanism ⟨e, hshows, rfl, rfl⟩
    exact .inr ⟨x, hx, hlabel, hmechanism, fun hkey => hlacks x hx.mem hkey hmechanism⟩
  · exact .inl hshows

theorem sameDisabled_iff {base target : SnapshotPayload} (h : Unlisted base target) :
    SameDisabled base target ↔
      ¬ Hidden base.entries target.entries ∧ ¬ Hidden target.entries base.entries := by
  rw [hidden_iff fun label mechanism => (h.labels label mechanism).mp,
    hidden_iff fun label mechanism => (h.labels label mechanism).mpr]
  unfold SameDisabled
  push Not
  refine ⟨fun h => ⟨fun e he => ?_, fun e he => ?_⟩, fun h key mechanism => ⟨?_, ?_⟩⟩
  · exact (h e.key e.mechanism).mp ⟨e, he, rfl, rfl⟩
  · exact (h e.key e.mechanism).mpr ⟨e, he, rfl, rfl⟩
  · rintro ⟨e, he, rfl, rfl⟩
    exact h.1 e he
  · rintro ⟨e, he, rfl, rfl⟩
    exact h.2 e he

/-- An empty diff means equal files and the same devices exactly when it hides neither lines that
two files have exchanged nor an entry behind a label. -/
theorem diff_sound_iff (base target : SnapshotPayload) :
    ((diffPayloads base target).identical = true →
      base.modprobeFiles = target.modprobeFiles ∧ SameDisabled base target) ↔
    ¬ (Unlisted base target ∧ (DirectivesMoved base target ∨
      Hidden base.entries target.entries ∨ Hidden target.entries base.entries)) := by
  rw [identical_iff, not_and, not_or, not_or]
  exact forall_congr' fun h => and_congr (files_eq_iff h) (sameDisabled_iff h)

def filesOnly (files : List (Str × Str)) : SnapshotPayload := ⟨[], .ofList files compare⟩

theorem diff_hides_exchange : ¬ ∀ base target : SnapshotPayload,
    (diffPayloads base target).identical = true →
      base.modprobeFiles = target.modprobeFiles ∧ SameDisabled base target := by
  intro hsound
  let x := str "blacklist x\n"
  let y := str "blacklist y\n"
  have hequal := hsound (filesOnly [(str "devmgr-a.conf", x), (str "devmgr-b.conf", y)])
    (filesOnly [(str "devmgr-a.conf", y), (str "devmgr-b.conf", x)]) (by decide)
  exact absurd hequal.1 (by decide)

end DevMgr.Core
