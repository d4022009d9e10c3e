import DevMgr.Core.UpdateModels
import DevMgr.Library.LinkedTree

/-!
# The status of DKMS modules

A scan of the DKMS tree, five levels deep. The state of a module for a kernel is
read off the outputs of its build and what is installed for that kernel.
-/

open DevMgr.Core

namespace DevMgr.Linux.Dkms
open Bytes LinkedTree
open FileTree (Place)

def kKoExts : List Str := [str ".ko", str ".ko.xz", str ".ko.gz", str ".ko.zst"]

def isModuleFile (name : Str) : Bool :=
  kKoExts.any fun ext => ext.length < name.length && ext.isSuffixOf name

variable (files : Tree)

def collectModuleBasenames (archDir : Place) : List Str :=
  if files.isDirectory (archDir ++ [str "module"]) then
    (files.realFiles (archDir ++ [str "module"])).filter (isModuleFile ·)
  else []

def moduleOutputBasenames (kernelDir : Place) : List Str :=
  (files.realDirs kernelDir).flatMap fun arch => collectModuleBasenames files (kernelDir ++ [arch])

def anyBasenameInstalled (installedDir : Place) (names : List Str) : Bool :=
  names.any fun name => files.exists (installedDir ++ [name])

def updatesDir (modulesRoot : Place) (kernel : Str) : Place :=
  modulesRoot ++ [kernel, str "updates", str "dkms"]

def kernelState (kernelDir : Place) (kernel : Str) (modulesRoot : Place) : Str :=
  let basenames := moduleOutputBasenames files kernelDir
  if basenames = [] then str "unknown — build residue or unsupported layout"
  else
    let kernelPresent := files.isDirectory (modulesRoot ++ [kernel])
    let installed := anyBasenameInstalled files (updatesDir modulesRoot kernel) basenames
    (if installed then str "built + installed" else str "built") ++
      (if kernelPresent then [] else str " — kernel absent")

def isVersionMetaSubdir (name : Str) : Bool := name = str "source" || name = str "build"

def kernelDirs (verPath : Place) : List Str := (files.realDirs verPath).filter fun name =>
  ¬ isVersionMetaSubdir name

def collectKernelDetails (verPath modulesRoot : Place) : List (Str × Str) :=
  (kernelDirs files verPath).map fun kernel =>
    (kernel, kernelState files (verPath ++ [kernel]) kernel modulesRoot)

def notBuilt : Str × Str := (str "(no kernel)", str "added — not built")

def makeCandidate (module version : Str) : UpdateCandidate where
  providerId := str "dkms"
  id := str "dkms:" ++ module ++ str "/" ++ version
  displayName := module
  currentVersion := version
  candidateVersion := none
  facts := ⟨false, false, false⟩
  releases := []
  details := []

def collectVersions (modPath : Place) (module : Str) (modulesRoot : Place) : List UpdateCandidate :=
  (files.realDirs modPath).map fun version =>
    let details := collectKernelDetails files (modPath ++ [version]) modulesRoot
    { makeCandidate module version with details := if details = [] then [notBuilt] else details }

def enumerate (dkmsRoot modulesRoot : Place) : List UpdateCandidate :=
  (files.realDirs dkmsRoot).flatMap fun module =>
    collectVersions files (dkmsRoot ++ [module]) module modulesRoot

def Built (kernelDir : Place) (file : Str) : Prop :=
  ∃ arch ∈ files.realDirs kernelDir, files.entry (kernelDir ++ [arch])
    (str "module") = some .dir ∧
    file ∈ files.realFiles (kernelDir ++ [arch, str "module"]) ∧ isModuleFile file = true

def Linked (kernelDir : Place) (file : Str) : Prop :=
  ∃ arch ∈ files.realDirs kernelDir, files.entry (kernelDir ++ [arch])
    (str "module") = some .link ∧
    files.isDirectory (kernelDir ++ [arch, str "module"]) = true ∧
    file ∈ files.realFiles (kernelDir ++ [arch, str "module"]) ∧ isModuleFile file = true

/-- A module file is installed in some form, whatever the form it was built in. -/
def Installed (modulesRoot : Place) (kernel file : Str) : Prop :=
  ∃ base ext ext', base ≠ [] ∧ ext ∈ kKoExts ∧ ext' ∈ kKoExts ∧ file = base ++ ext ∧
    files.exists (updatesDir modulesRoot kernel ++ [base ++ ext']) = true

inductive KernelState where
  | unknown
  | built
  | installed
  deriving DecidableEq

def KernelState.text : KernelState → Bool → Str
  | .unknown, absent =>
    str "unknown — build residue or unsupported layout" ++ if absent then
      str " — kernel absent" else []
  | .built, absent => str "built" ++ if absent then str " — kernel absent" else []
  | .installed, absent => str "built + installed" ++ if absent then str " — kernel absent" else []

/-- What the layout of the two trees makes of a kernel directory. -/
def StateMatches (modulesRoot kernelDir : Place) (kernel state : Str) : Prop :=
  ∃ (s : KernelState) (absent : Bool), state = s.text absent ∧
    (s = .installed ↔ ∃ file, Built files kernelDir file ∧
      Installed files modulesRoot kernel file) ∧
    (s = .unknown ↔ ∀ file, ¬ Built files kernelDir file) ∧
    (absent = true ↔ ¬ files.isDirectory (modulesRoot ++ [kernel]) = true)

def versionDirs (dkmsRoot : Place) : List (Str × Str) :=
  (files.realDirs dkmsRoot).flatMap fun module =>
    (files.realDirs (dkmsRoot ++ [module])).map fun version => (module, version)

structure VersionMatches (dkmsRoot modulesRoot : Place) (registered : Str × Str)
    (candidate : UpdateCandidate) :
    Prop where
  id : candidate.id = str "dkms:" ++ registered.1 ++ str "/" ++ registered.2
  added : kernelDirs files (dkmsRoot ++ [registered.1, registered.2]) = [] →
      candidate.details = [notBuilt]
  states : kernelDirs files (dkmsRoot ++ [registered.1, registered.2]) ≠ [] →
    List.Forall₂ (fun kernel detail => detail.1 = kernel ∧
        StateMatches files modulesRoot
          (dkmsRoot ++ [registered.1, registered.2, kernel]) kernel detail.2)
      (kernelDirs files (dkmsRoot ++ [registered.1, registered.2])) candidate.details

variable {files} {dkmsRoot modulesRoot kernelDir : Place} {kernel : Str}

theorem parts_of_moduleFile {name : Str} (h : isModuleFile name = true) :
    ∃ base ext, base ≠ [] ∧ ext ∈ kKoExts ∧ name = base ++ ext := by
  obtain ⟨ext, hext, hname⟩ := List.any_eq_true.mp h
  obtain ⟨hlength, hsuffix⟩ := Bool.and_eq_true_iff.mp hname
  obtain ⟨base, rfl⟩ := List.isSuffixOf_iff_suffix.mp hsuffix
  refine ⟨base, ext, ?_, hext, rfl⟩
  intro hbase
  rw [hbase] at hlength
  simp at hlength

theorem mem_basenames {file : Str} :
    file ∈ moduleOutputBasenames files kernelDir ↔ Built files kernelDir file ∨
    Linked files kernelDir file := by
  have harch : ∀ arch ∈ files.realDirs kernelDir,
      (file ∈ collectModuleBasenames files (kernelDir ++ [arch]) ↔
      (files.entry (kernelDir ++ [arch]) (str "module") = some .dir ∨
        files.entry (kernelDir ++ [arch]) (str "module") = some .link ∧
          files.isDirectory (kernelDir ++ [arch, str "module"]) = true) ∧
      file ∈ files.realFiles (kernelDir ++ [arch, str "module"]) ∧
      isModuleFile file = true) := by
    intro arch hmem
    have hpath : kernelDir ++ [arch, str "module"] = kernelDir ++ [arch] ++ [str "module"] := by
      simp
    obtain ⟨place, -, -, hreal⟩ := real_of_entry (mem_realDirs.mp hmem).2 (by decide)
    have hdir : files.isDirectory (kernelDir ++ [arch] ++ [str "module"]) = true ↔ _ :=
      isDirectory_entry (Option.isSome_of_eq_some hreal)
    rw [hpath, ← hdir]
    unfold collectModuleBasenames
    split_ifs with h
    · rw [List.mem_filter]
      exact ⟨fun hfile => ⟨h, hfile⟩, fun hfile => hfile.2⟩
    · exact ⟨nofun, fun hfile => absurd hfile.1 h⟩
  unfold moduleOutputBasenames Built Linked
  rw [List.mem_flatMap]
  constructor
  · intro h
    obtain ⟨arch, hmem, hfile⟩ := h
    obtain ⟨hdir | ⟨hlink, hdir⟩, hin, hmodule⟩ := (harch arch hmem).mp hfile
    · exact .inl ⟨arch, hmem, hdir, hin, hmodule⟩
    · exact .inr ⟨arch, hmem, hlink, hdir, hin, hmodule⟩
  · intro h
    obtain ⟨arch, hmem, hdir, hin, hmodule⟩ | ⟨arch, hmem, hlink, hdir, hin, hmodule⟩ := h
    · exact ⟨arch, hmem, (harch arch hmem).mpr ⟨.inl hdir, hin, hmodule⟩⟩
    · exact ⟨arch, hmem, (harch arch hmem).mpr ⟨.inr ⟨hlink, hdir⟩, hin, hmodule⟩⟩

theorem built_moduleFile {file : Str} (h : Built files kernelDir file) :
    isModuleFile file = true := by
  obtain ⟨_, _, _, _, hmodule⟩ := h
  exact hmodule

theorem installed_of_exact {file : Str} (hfile : isModuleFile file = true)
    (h : files.exists (updatesDir modulesRoot kernel ++ [file]) = true) :
    Installed files modulesRoot kernel file := by
  obtain ⟨base, ext, hbase, hext, rfl⟩ := parts_of_moduleFile hfile
  exact ⟨base, ext, ext, hbase, hext, hext, rfl, h⟩

theorem anyBasenameInstalled_iff : anyBasenameInstalled files (updatesDir modulesRoot kernel)
      (moduleOutputBasenames files kernelDir) = true ↔
    ∃ file, (Built files kernelDir file ∨ Linked files kernelDir file) ∧
      files.exists (updatesDir modulesRoot kernel ++ [file]) = true := by
  unfold anyBasenameInstalled
  rw [List.any_eq_true]
  simp only [mem_basenames]

theorem text_injective {s s' : KernelState} {absent absent' : Bool}
    (h : s.text absent = s'.text absent') :
    s = s' ∧ absent = absent' := by
  revert h
  cases s <;> cases s' <;> cases absent <;> cases absent' <;> decide

/-- The scan goes by the layout for a kernel directory: it is no residue of a kernel that is gone or
of links, and of its files, if any is installed in some form, one is installed under the name it was
built with. -/
structure Ordinary (files : Tree) (modulesRoot kernelDir : Place) (kernel : Str) : Prop where
  unbuilt : (∀ file, ¬ Built files kernelDir file) →
    (∀ file, ¬ Linked files kernelDir file) ∧
    files.isDirectory (modulesRoot ++ [kernel]) = true
  sameForm : ∀ file, Built files kernelDir file → Installed files modulesRoot kernel file →
    ∃ file', (Built files kernelDir file' ∨ Linked files kernelDir file') ∧
      files.exists (updatesDir modulesRoot kernel ++ [file']) = true
  linked : ∀ file, Linked files kernelDir file →
      files.exists (updatesDir modulesRoot kernel ++ [file]) = true →
    ∃ file', Built files kernelDir file' ∧ Installed files modulesRoot kernel file'

theorem kernelState_text (files : Tree) (kernelDir : Place) (kernel : Str) (modulesRoot : Place) :
    ∃ s absent, kernelState files kernelDir kernel modulesRoot = KernelState.text s absent ∧
    (s = .unknown ↔ ∀ file, ¬ Built files kernelDir file ∧
      ¬ Linked files kernelDir file) ∧
    (s = .installed ↔ ∃ file, (Built files kernelDir file ∨ Linked files kernelDir file) ∧
      files.exists (updatesDir modulesRoot kernel ++ [file]) = true) ∧
    (absent = true ↔
      s ≠ .unknown ∧ ¬ files.isDirectory (modulesRoot ++ [kernel]) = true) := by
  have hempty : moduleOutputBasenames files kernelDir = [] ↔
      ∀ file, ¬ Built files kernelDir file ∧ ¬ Linked files kernelDir file := by
    rw [List.eq_nil_iff_forall_not_mem]
    simp only [mem_basenames, not_or]
  rw [← hempty, ← anyBasenameInstalled_iff]
  unfold kernelState
  by_cases hnone : moduleOutputBasenames files kernelDir = []
  · refine ⟨.unknown, false, by simp [hnone, KernelState.text], by simp [hnone], ?_, by simp⟩
    simp [hnone, anyBasenameInstalled]
  · have hsuffix : (if files.isDirectory (modulesRoot ++ [kernel]) = true then []
        else str " — kernel absent") =
        if (!files.isDirectory (modulesRoot ++ [kernel])) = true then str " — kernel absent"
          else [] := by
      cases files.isDirectory (modulesRoot ++ [kernel]) <;> rfl
    simp only [if_neg hnone]
    rw [hsuffix]
    by_cases hinstalled : anyBasenameInstalled files (updatesDir modulesRoot kernel)
        (moduleOutputBasenames files kernelDir) = true
    · exact ⟨.installed,
        _, by rw [if_pos hinstalled]; rfl, by simp [hnone], by simp [hinstalled], by simp⟩
    · exact ⟨.built,
        _, by rw [if_neg hinstalled]; rfl, by simp [hnone], by simp [hinstalled], by simp⟩

theorem kernelState_matches_iff :
    StateMatches files modulesRoot kernelDir kernel
      (kernelState files kernelDir kernel modulesRoot) ↔
      Ordinary files modulesRoot kernelDir kernel := by
  obtain ⟨s, absent, htext, hunknown, hinstalled, habsent⟩ :=
    kernelState_text files kernelDir kernel modulesRoot
  constructor
  · intro h
    obtain ⟨s', absent', htext', hinstalled', hunknown', habsent'⟩ := h
    obtain ⟨rfl, rfl⟩ := text_injective (htext.symm.trans htext')
    constructor
    · intro hnone
      have hs := hunknown'.mpr hnone
      refine ⟨fun file => (hunknown.mp hs file).2, ?_⟩
      by_contra hgone
      exact (habsent.mp (habsent'.mpr hgone)).1 hs
    · intro file hbuilt hform
      exact hinstalled.mp (hinstalled'.mpr ⟨file, hbuilt, hform⟩)
    · intro file hlinked hexact
      exact hinstalled'.mp (hinstalled.mpr ⟨file, .inr hlinked, hexact⟩)
  · intro h
    refine ⟨s, absent, htext, ?_, ?_, ?_⟩
    · rw [hinstalled]
      constructor
      · intro hfound
        obtain ⟨file, hbuilt | hlinked, hexact⟩ := hfound
        · exact ⟨file, hbuilt, installed_of_exact (built_moduleFile hbuilt) hexact⟩
        · exact h.linked file hlinked hexact
      · intro hfound
        obtain ⟨file, hbuilt, hform⟩ := hfound
        exact h.sameForm file hbuilt hform
    · rw [hunknown]
      exact ⟨fun hall file => (hall file).1,
        fun hnone file => ⟨hnone file, (h.unbuilt hnone).1 file⟩⟩
    · rw [habsent]
      constructor
      · exact fun hgone => hgone.2
      · intro hgone
        refine ⟨?_, hgone⟩
        intro hs
        exact hgone (h.unbuilt fun file => (hunknown.mp hs file).1).2

theorem enumerate_eq :
    enumerate files dkmsRoot modulesRoot = (versionDirs files dkmsRoot).map fun registered =>
    { makeCandidate registered.1 registered.2 with
      details :=
        if collectKernelDetails files (dkmsRoot ++ [registered.1, registered.2]) modulesRoot =
          [] then [notBuilt]
        else collectKernelDetails files
          (dkmsRoot ++ [registered.1, registered.2]) modulesRoot } := by
  unfold enumerate versionDirs
  rw [List.map_flatMap]
  congr 1
  funext module
  unfold collectVersions
  rw [List.map_map]
  simp [Function.comp_def]

theorem kernelDetails_match_iff {verPath : Place} {kernels : List Str} :
    List.Forall₂ (fun kernel detail => detail.1 = kernel ∧
        StateMatches files modulesRoot (verPath ++ [kernel]) kernel detail.2) kernels
      (kernels.map fun kernel => (kernel,
        kernelState files (verPath ++ [kernel]) kernel modulesRoot)) ↔
    ∀ kernel ∈ kernels, Ordinary files modulesRoot (verPath ++ [kernel]) kernel := by
  induction kernels with
  | nil => simp
  | cons kernel kernels ih =>
    rw [List.map_cons, List.forall₂_cons, List.forall_mem_cons, ih, kernelState_matches_iff]
    simp

theorem version_matches_iff {registered : Str × Str} {details : List (Str × Str)}
    (hdetails : details = collectKernelDetails files
      (dkmsRoot ++ [registered.1, registered.2]) modulesRoot) :
    VersionMatches files dkmsRoot modulesRoot registered
        { makeCandidate registered.1 registered.2 with
          details := if details = [] then [notBuilt] else details } ↔
      ∀ kernel ∈ kernelDirs files (dkmsRoot ++ [registered.1, registered.2]),
        Ordinary files modulesRoot (dkmsRoot ++ [registered.1, registered.2, kernel]) kernel := by
  have hpath : ∀ kernel, dkmsRoot ++ [registered.1, registered.2, kernel] =
      dkmsRoot ++ [registered.1, registered.2] ++ [kernel] := by simp
  have hempty : details = [] ↔
      kernelDirs files (dkmsRoot ++ [registered.1, registered.2]) = [] := by
    rw [hdetails]
    exact List.map_eq_nil_iff
  simp only [hpath]
  rw [← kernelDetails_match_iff]
  constructor
  · intro h
    by_cases hnone : kernelDirs files (dkmsRoot ++ [registered.1, registered.2]) = []
    · rw [hnone]
      exact .nil
    · have hstates := h.states hnone
      simp only [hpath] at hstates
      rw [if_neg fun h => hnone (hempty.mp h), hdetails] at hstates
      exact hstates
  · intro h
    constructor
    · rfl
    · intro hnone
      exact if_pos (hempty.mpr hnone)
    · intro hsome
      simp only [hpath]
      rw [if_neg fun h => hsome (hempty.mp h), hdetails]
      exact h

/-- A scan reports what the layout says exactly when every kernel directory is ordinary. -/
theorem enumerate_matches_iff (files : Tree) (dkmsRoot modulesRoot : Place) :
    List.Forall₂ (VersionMatches files dkmsRoot modulesRoot) (versionDirs files dkmsRoot)
        (enumerate files dkmsRoot modulesRoot) ↔
      ∀ registered ∈ versionDirs files dkmsRoot,
        ∀ kernel ∈ kernelDirs files (dkmsRoot ++ [registered.1, registered.2]),
          Ordinary files modulesRoot (dkmsRoot ++ [registered.1, registered.2, kernel]) kernel := by
  rw [enumerate_eq, List.forall₂_map_right_iff, List.forall₂_same]
  constructor
  · intro h registered hmem
    exact (version_matches_iff rfl).mp (h registered hmem)
  · intro h registered hmem
    exact (version_matches_iff rfl).mpr (h registered hmem)

section Compressed

def dkms (below : List Str) : Place := str "dkms" :: below

def modules (below : List Str) : Place := str "modules" :: below

def compressedTree : Tree := ofNodes
  [(dkms [], .dir), (dkms [str "z"], .dir), (dkms [str "z", str "1"], .dir),
    (dkms [str "z", str "1", str "k"], .dir),
    (dkms [str "z", str "1", str "k", str "x86"], .dir),
    (dkms [str "z", str "1", str "k", str "x86", str "module"], .dir),
    (dkms [str "z", str "1", str "k", str "x86", str "module", str "z.ko"], .file),
    (modules [], .dir), (modules [str "k"], .dir), (modules [str "k", str "updates"], .dir),
    (modules [str "k", str "updates", str "dkms"], .dir),
    (modules [str "k", str "updates", str "dkms", str "z.ko.zst"], .file)]

theorem compressed_module_mismatch : ¬ ∀ (files : Tree) (dkmsRoot modulesRoot : Place),
    List.Forall₂ (VersionMatches files dkmsRoot modulesRoot) (versionDirs files dkmsRoot)
      (enumerate files dkmsRoot modulesRoot) := by
  intro hall
  have hversions : versionDirs compressedTree (dkms []) = [(str "z", str "1")] := by decide
  have hscan : enumerate compressedTree (dkms []) (modules []) =
      [{ makeCandidate (str "z") (str "1") with
        details := [(str "k", KernelState.text .built false)] }] := by
    decide
  have hkernels : kernelDirs compressedTree (dkms [] ++ [str "z", str "1"]) = [str "k"] := by decide
  have h := hall compressedTree (dkms []) (modules [])
  rw [hversions, hscan, List.forall₂_cons] at h
  have hstates := h.1.states (by rw [hkernels]; exact List.cons_ne_nil _ _)
  rw [hkernels, List.forall₂_cons] at hstates
  obtain ⟨s, absent, htext, hinstalled, -⟩ := hstates.1.2
  have hsame : KernelState.text .built false = s.text absent := htext
  obtain ⟨rfl, -⟩ := text_injective hsame
  refine absurd (hinstalled.mpr ⟨str "z.ko", ⟨str "x86", ?_⟩, str "z", str ".ko",
    str ".ko.zst", ?_⟩) (by decide)
  · decide
  · decide

end Compressed

end DevMgr.Linux.Dkms
