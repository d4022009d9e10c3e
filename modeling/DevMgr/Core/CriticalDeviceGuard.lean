import DevMgr.Core.Models
import DevMgr.Library.FileTree

/-!
# The critical-device guard

The guard refuses to disable a device whose subtree holds a device backing the
root or the boot file system, or every keyboard, or every pointer. It compares
strings; for absolute paths this is the comparison of their components. A module
unload asks it about one affected device after the other, although all of them
go at once. For the backing devices this is enough. For keyboards and pointers
it is not: several affected devices can take away together what none of them
takes away alone.
-/

namespace DevMgr.Core
open Bytes

structure CriticalityFacts where
  rootBackingPaths : List Str
  bootBackingPaths : List Str
  keyboardPaths : List Str
  pointerPaths : List Str
  deriving DecidableEq

structure GuardVerdict where
  allowed : Bool
  reason : Str

structure ModuleUnloadFacts where
  affectedDevicePaths : List Str
  holders : List Str
  refCount : ℤ

def isUnder (path target : Str) : Bool :=
  if target = [] ∨ path.length < target.length then false
  else if ¬ target <+: path then false
  else path.length = target.length || path[target.length]? = some 47

def anyUnder (paths : List Str) (target : Str) : Bool := paths.any fun p => isUnder p target

def wouldRemoveAll (paths : List Str) (target : Str) : Bool :=
  if paths = [] then false else paths.all fun p => isUnder p target

def evaluateDisable (facts : CriticalityFacts) (targetSysfsPath : Str) : GuardVerdict :=
  if anyUnder facts.rootBackingPaths targetSysfsPath then
    ⟨false, str "backs the root filesystem"⟩
  else if anyUnder facts.bootBackingPaths targetSysfsPath then
    ⟨false, str "backs the boot filesystem"⟩
  else if wouldRemoveAll facts.keyboardPaths targetSysfsPath then
    ⟨false, str "would disable the only keyboard"⟩
  else if wouldRemoveAll facts.pointerPaths targetSysfsPath then
    ⟨false, str "would disable the only pointer"⟩
  else ⟨true, []⟩

/-- The names in one text. No separator follows names that are all empty. -/
def joinHolders (holders : List Str) : Str :=
  holders.foldl (fun names h => (if names = [] then names else names ++ str ", ") ++ h) []

def evaluateAffected (facts : CriticalityFacts) : List Str → GuardVerdict
  | [] => ⟨true, []⟩
  | path :: rest =>
    let verdict := evaluateDisable facts path
    if ¬ verdict.allowed then ⟨false, str "module backs a critical device: " ++ verdict.reason⟩
    else evaluateAffected facts rest

def evaluateModuleUnload (facts : CriticalityFacts) (module : ModuleUnloadFacts) : GuardVerdict :=
  if module.holders ≠ [] then ⟨false, str "in use by " ++ joinHolders module.holders⟩
  else if 0 < module.refCount then
    ⟨false, str "in use (refcount " ++ decimal module.refCount.toNat ++ str ")"⟩
  else evaluateAffected facts module.affectedDevicePaths

/-- The path is the target or lies inside it. An empty target names no device. -/
def AtOrUnder (path target : Str) : Prop :=
  target ≠ [] ∧ (path = target ∨ target ++ [47] <+: path)

theorem isUnder_iff {path target : Str} : isUnder path target = true ↔ AtOrUnder path target := by
  unfold isUnder AtOrUnder
  by_cases hlead : target <+: path
  · have hlen := hlead.length_le
    obtain ⟨rest, rfl⟩ := hlead
    by_cases hempty : target = []
    · simp [hempty]
    · cases rest with
      | nil => simp [hempty]
      | cons c rest =>
        have hnext : target ++ [47] <+: target ++ c :: rest ↔ c = 47 := by
          rw [List.prefix_append_right_inj, List.cons_prefix_cons]
          simp [eq_comm]
        simp [hempty, hnext]
  · have hpath : path ≠ target := by
      rintro rfl
      exact hlead List.prefix_rfl
    have hnext : ¬ target ++ [47] <+: path := fun h => hlead ((List.prefix_append _ _).trans h)
    simp [hlead, hpath, hnext]

instance (path target : Str) : Decidable (AtOrUnder path target) :=
  decidable_of_iff _ isUnder_iff

def Spares (paths : List Str) (target : Str) : Prop :=
  paths ≠ [] → ∃ p ∈ paths, ¬ AtOrUnder p target

theorem wouldRemoveAll_eq_false {paths : List Str} {target : Str} :
    wouldRemoveAll paths target = false ↔ Spares paths target := by
  simp only [wouldRemoveAll, Spares]
  split_ifs with hnil
  · simp [hnil]
  · simp [hnil, ← isUnder_iff]

theorem anyUnder_eq_false {paths : List Str} {target : Str} :
    anyUnder paths target = false ↔ ∀ p ∈ paths, ¬ AtOrUnder p target := by
  simp [anyUnder, ← isUnder_iff]

/-- What the guard allows: no backing device goes, and a keyboard and a pointer are left. -/
structure Harmless (facts : CriticalityFacts) (target : Str) : Prop where
  root : ∀ p ∈ facts.rootBackingPaths, ¬ AtOrUnder p target
  boot : ∀ p ∈ facts.bootBackingPaths, ¬ AtOrUnder p target
  keyboard : Spares facts.keyboardPaths target
  pointer : Spares facts.pointerPaths target

theorem evaluateDisable_allowed {facts : CriticalityFacts} {target : Str} :
    (evaluateDisable facts target).allowed = true ↔ Harmless facts target := by
  have hparts : Harmless facts target ↔ anyUnder facts.rootBackingPaths target = false ∧
      anyUnder facts.bootBackingPaths target = false ∧
      wouldRemoveAll facts.keyboardPaths target = false ∧
      wouldRemoveAll facts.pointerPaths target = false := by
    rw [anyUnder_eq_false, anyUnder_eq_false, wouldRemoveAll_eq_false, wouldRemoveAll_eq_false]
    exact ⟨fun h => ⟨h.root, h.boot, h.keyboard, h.pointer⟩,
      fun ⟨hr, hb, hk, hp⟩ => ⟨hr, hb, hk, hp⟩⟩
  rw [hparts, evaluateDisable]
  split_ifs with hroot hboot hkeyboard hpointer
  · simp [hroot]
  · simp [hboot]
  · simp [hkeyboard]
  · simp [hpointer]
  · simp [hroot, hboot, hkeyboard, hpointer]

instance (facts : CriticalityFacts) (target : Str) : Decidable (Harmless facts target) :=
  decidable_of_iff _ evaluateDisable_allowed

def pathNames (path : Str) : List Str := (FileTree.components path).tail

structure CanonicalPath (path : Str) : Prop where
  rooted : path.head? = some 47
  filled : [] ∉ pathNames path

def Below (path target : Str) : Prop := pathNames target <+: pathNames path

instance (path : Str) : Decidable (CanonicalPath path) :=
  decidable_of_iff (path.head? = some 47 ∧ [] ∉ pathNames path)
    ⟨fun h => ⟨h.1, h.2⟩, fun h => ⟨h.rooted, h.filled⟩⟩

instance (path target : Str) : Decidable (Below path target) :=
  inferInstanceAs (Decidable (_ <+: _))

theorem components_absolute {path : Str} (h : path.head? = some 47) :
    FileTree.components path = [] :: pathNames path := by
  obtain ⟨rest, rfl⟩ := List.head?_eq_some_iff.mp h
  rw [pathNames, FileTree.components_rooted, List.tail_cons]

theorem CanonicalPath.ne_nil {path : Str} (h : CanonicalPath path) : path ≠ [] := by
  rintro rfl
  exact absurd h.rooted (by simp)

theorem atOrUnder_iff_below {path target : Str} (hpath : path.head? = some 47)
    (htarget : CanonicalPath target) : AtOrUnder path target ↔ Below path target := by
  rw [AtOrUnder, and_iff_right htarget.ne_nil, ← FileTree.components_prefix_iff,
    components_absolute hpath, components_absolute htarget.rooted, List.cons_prefix_cons,
    and_iff_right rfl, Below]

def Endangers (facts : CriticalityFacts) (target : Str) : Prop :=
  (∃ p ∈ facts.rootBackingPaths ++ facts.bootBackingPaths, Below p target) ∨
  (facts.keyboardPaths ≠ [] ∧ ∀ p ∈ facts.keyboardPaths, Below p target) ∨
  (facts.pointerPaths ≠ [] ∧ ∀ p ∈ facts.pointerPaths, Below p target)

instance (facts : CriticalityFacts) (target : Str) : Decidable (Endangers facts target) :=
  inferInstanceAs (Decidable (_ ∨ _))

structure CriticalityFacts.Canonical (facts : CriticalityFacts) : Prop where
  backing : ∀ p ∈ facts.rootBackingPaths ++ facts.bootBackingPaths, CanonicalPath p
  keyboard : ∀ p ∈ facts.keyboardPaths, CanonicalPath p
  pointer : ∀ p ∈ facts.pointerPaths, CanonicalPath p

theorem not_spares_iff {paths : List Str} {target : Str} (hpaths : ∀ p ∈ paths, CanonicalPath p)
    (htarget : CanonicalPath target) :
    ¬ Spares paths target ↔ paths ≠ [] ∧ ∀ p ∈ paths, Below p target := by
  rw [Spares, Classical.not_imp]
  refine and_congr_right fun _ => ?_
  simp only [not_exists, not_and, not_not]
  exact forall₂_congr fun p hp => atOrUnder_iff_below (hpaths p hp).rooted htarget

theorem evaluateDisable_refuses {facts : CriticalityFacts} {target : Str} (hfacts : facts.Canonical)
    (htarget : CanonicalPath target) :
    (evaluateDisable facts target).allowed = false ↔ Endangers facts target := by
  have hbacking : (∃ p ∈ facts.rootBackingPaths ++ facts.bootBackingPaths, Below p target) ↔
      ¬ ((∀ p ∈ facts.rootBackingPaths, ¬ AtOrUnder p target) ∧
        ∀ p ∈ facts.bootBackingPaths, ¬ AtOrUnder p target) := by
    rw [← List.forall_mem_append]
    simp only [not_forall, not_not, exists_prop]
    exact exists_congr fun p => and_congr_right fun hp =>
      (atOrUnder_iff_below (hfacts.backing p hp).rooted htarget).symm
  rw [← Bool.not_eq_true, evaluateDisable_allowed, Endangers, hbacking,
    ← not_spares_iff hfacts.keyboard htarget, ← not_spares_iff hfacts.pointer htarget,
    ← not_and_or, ← not_and_or]
  refine not_congr ⟨fun h => ⟨⟨h.root, h.boot⟩, h.keyboard, h.pointer⟩, fun h => ?_⟩
  exact ⟨h.1.1, h.1.2, h.2.1, h.2.2⟩

theorem Endangers.ancestor {facts : CriticalityFacts} {target ancestor : Str}
    (h : Endangers facts target) (habove : Below target ancestor) : Endangers facts ancestor := by
  rcases h with ⟨p, hp, hunder⟩ | ⟨hne, hall⟩ | ⟨hne, hall⟩
  · exact .inl ⟨p, hp, habove.trans hunder⟩
  · exact .inr (.inl ⟨hne, fun p hp => habove.trans (hall p hp)⟩)
  · exact .inr (.inr ⟨hne, fun p hp => habove.trans (hall p hp)⟩)

structure AddsBacking (facts facts' : CriticalityFacts) : Prop where
  root : facts.rootBackingPaths ⊆ facts'.rootBackingPaths
  boot : facts.bootBackingPaths ⊆ facts'.bootBackingPaths
  keyboard : facts'.keyboardPaths = facts.keyboardPaths
  pointer : facts'.pointerPaths = facts.pointerPaths

theorem Harmless.of_addsBacking {facts facts' : CriticalityFacts} {target : Str}
    (h : AddsBacking facts facts') (hharmless : Harmless facts' target) :
    Harmless facts target where
  root p hp := hharmless.root p (h.root hp)
  boot p hp := hharmless.boot p (h.boot hp)
  keyboard := h.keyboard ▸ hharmless.keyboard
  pointer := h.pointer ▸ hharmless.pointer

/-- The guard is the ancestor rule on components. What it refuses it refuses together with all
ancestors, and goes on refusing with more backing paths. -/
theorem evaluateDisable_by_components {facts : CriticalityFacts} {target : Str}
    (hfacts : facts.Canonical) (htarget : CanonicalPath target) :
    ((evaluateDisable facts target).allowed = false ↔ Endangers facts target) ∧
    ((evaluateDisable facts target).allowed = false →
      (∀ ancestor, CanonicalPath ancestor → Below target ancestor →
        (evaluateDisable facts ancestor).allowed = false) ∧
      ∀ facts', AddsBacking facts facts' →
      (evaluateDisable facts' target).allowed = false) := by
  refine ⟨evaluateDisable_refuses hfacts htarget,
    fun hrefused => ⟨fun ancestor hancestor habove => ?_,
    fun facts' hadds => ?_⟩⟩
  · rw [evaluateDisable_refuses hfacts hancestor]
    exact ((evaluateDisable_refuses hfacts htarget).mp hrefused).ancestor habove
  · rw [← Bool.not_eq_true, evaluateDisable_allowed] at hrefused ⊢
    exact fun hharmless => hrefused (hharmless.of_addsBacking hadds)

def tenthPort : CriticalityFacts where
  rootBackingPaths := [str "/sys/devices/pci0000:00/usb1/1-10/1-10:1.0/host7/block/sdb"]
  bootBackingPaths := []
  keyboardPaths := []
  pointerPaths := []

theorem tenth_port_guarded :
    (evaluateDisable tenthPort (str "/sys/devices/pci0000:00/usb1/1-10")).allowed = false ∧
    (evaluateDisable tenthPort (str "/sys/devices/pci0000:00/usb1")).allowed = false ∧
    ¬ (evaluateDisable tenthPort (str "/sys/devices/pci0000:00/usb1/1-1")).allowed = false := by
  have hfacts : tenthPort.Canonical := ⟨by decide, nofun, nofun⟩
  have hport := evaluateDisable_by_components hfacts
    (show CanonicalPath (str "/sys/devices/pci0000:00/usb1/1-10") by decide)
  have hsibling := evaluateDisable_by_components hfacts
    (show CanonicalPath (str "/sys/devices/pci0000:00/usb1/1-1") by decide)
  have hrefused := hport.1.mpr (by decide)
  exact ⟨hrefused, (hport.2 hrefused).1 _ (by decide) (by decide),
    hsibling.1.not.mpr (by decide)⟩

theorem evaluateAffected_allowed {facts : CriticalityFacts} {paths : List Str} :
    (evaluateAffected facts paths).allowed = true ↔ ∀ path ∈ paths, Harmless facts path := by
  induction paths with
  | nil => simp [evaluateAffected]
  | cons path rest ih =>
    rw [evaluateAffected, List.forall_mem_cons, ← evaluateDisable_allowed, ← ih]
    split_ifs with hrefused
    · simp [hrefused]
    · simp only [Bool.not_eq_true] at hrefused
      simp [hrefused]

theorem evaluateModuleUnload_allowed {facts : CriticalityFacts} {module : ModuleUnloadFacts} :
    (evaluateModuleUnload facts module).allowed = true ↔ module.holders = [] ∧
      module.refCount ≤ 0 ∧
      ∀ path ∈ module.affectedDevicePaths, Harmless facts path := by
  rw [← evaluateAffected_allowed, evaluateModuleUnload]
  split_ifs with hheld hused
  · simp [hheld]
  · simp [hused]
  · simp [not_not.mp hheld, Int.not_lt.mp hused]

def Removed (targets : List Str) (path : Str) : Prop :=
  ∃ target ∈ targets, AtOrUnder path target

/-- With all the targets gone, every backing device is left, and a keyboard and a pointer are if
there were any. -/
structure JointlySafe (facts : CriticalityFacts) (targets : List Str) : Prop where
  root : ∀ p ∈ facts.rootBackingPaths, ¬ Removed targets p
  boot : ∀ p ∈ facts.bootBackingPaths, ¬ Removed targets p
  keyboard : facts.keyboardPaths ≠ [] → ∃ p ∈ facts.keyboardPaths, ¬ Removed targets p
  pointer : facts.pointerPaths ≠ [] → ∃ p ∈ facts.pointerPaths, ¬ Removed targets p

/-- The targets take away every path together and none of them does alone. -/
structure Split (paths targets : List Str) : Prop where
  nonempty : paths ≠ []
  together : ∀ p ∈ paths, Removed targets p
  alone : ∀ target ∈ targets, ∃ p ∈ paths, ¬ AtOrUnder p target

theorem left_iff_not_split {paths targets : List Str}
    (h : ∀ target ∈ targets, Spares paths target) :
    (paths ≠ [] → ∃ p ∈ paths, ¬ Removed targets p) ↔ ¬ Split paths targets := by
  constructor
  · rintro hleft ⟨hne, htogether, _⟩
    obtain ⟨p, hp, hstays⟩ := hleft hne
    exact hstays (htogether p hp)
  · intro hsplit hne
    by_contra hgone
    simp only [not_exists, not_and, not_not] at hgone
    exact hsplit ⟨hne, hgone, fun target htarget => h target htarget hne⟩

theorem jointlySafe_iff {facts : CriticalityFacts} {targets : List Str}
    (h : ∀ target ∈ targets, Harmless facts target) :
    JointlySafe facts targets ↔
      ¬ Split facts.keyboardPaths targets ∧ ¬ Split facts.pointerPaths targets := by
  rw [← left_iff_not_split fun target htarget => (h target htarget).keyboard,
    ← left_iff_not_split fun target htarget => (h target htarget).pointer]
  refine ⟨fun hsafe => ⟨hsafe.keyboard, hsafe.pointer⟩, fun ⟨hkeyboard, hpointer⟩ => ?_⟩
  refine ⟨fun p hp => ?_, fun p hp => ?_, hkeyboard, hpointer⟩
  · rintro ⟨target, htarget, hunder⟩
    exact (h target htarget).root p hp hunder
  · rintro ⟨target, htarget, hunder⟩
    exact (h target htarget).boot p hp hunder

/-- The guard is safe for the devices jointly unless it lets a module go whose devices split the
keyboards or the pointers between them. -/
theorem unload_jointly_safe_iff (facts : CriticalityFacts) (module : ModuleUnloadFacts) :
    ((evaluateModuleUnload facts module).allowed = true →
      JointlySafe facts module.affectedDevicePaths) ↔
    (module.holders = [] → module.refCount ≤ 0 →
      (∀ path ∈ module.affectedDevicePaths, (evaluateDisable facts path).allowed = true) →
        ¬ Split facts.keyboardPaths module.affectedDevicePaths ∧
          ¬ Split facts.pointerPaths module.affectedDevicePaths) := by
  simp only [evaluateModuleUnload_allowed, evaluateDisable_allowed]
  constructor
  · intro hsafe hheld hused hharmless
    exact (jointlySafe_iff hharmless).mp (hsafe ⟨hheld, hused, hharmless⟩)
  · rintro hsplit ⟨hheld, hused, hharmless⟩
    exact (jointlySafe_iff hharmless).mpr (hsplit hheld hused hharmless)

def firstKeyboard : Str := str "/sys/devices/pci0000:00/0000:00:14.0/usb1/1-3/1-3:1.0"

def secondKeyboard : Str := str "/sys/devices/pci0000:00/0000:00:14.0/usb1/1-4/1-4:1.0"

def twoKeyboards : CriticalityFacts where
  rootBackingPaths := [str "/sys/devices/pci0000:00/0000:00:17.0/ata1"]
  bootBackingPaths := []
  keyboardPaths := [firstKeyboard ++ str "/input/input5", secondKeyboard ++ str "/input/input6"]
  pointerPaths := []

def keyboardModule : ModuleUnloadFacts where
  affectedDevicePaths := [firstKeyboard, secondKeyboard]
  holders := []
  refCount := 0

theorem unload_takes_both_keyboards :
    (evaluateModuleUnload twoKeyboards keyboardModule).allowed = true ∧
      ¬ JointlySafe twoKeyboards keyboardModule.affectedDevicePaths := by
  refine ⟨by decide, fun hsafe => ?_⟩
  obtain ⟨p, hp, hstays⟩ := hsafe.keyboard (by decide)
  have hgone : ∀ p ∈ twoKeyboards.keyboardPaths,
      ∃ target ∈ keyboardModule.affectedDevicePaths, AtOrUnder p target := by decide
  exact hstays (hgone p hp)

end DevMgr.Core
