import DevMgr.Core.CriticalDeviceGuard
import DevMgr.Core.DeviceKey
import DevMgr.Library.Leaves
import Mathlib.Data.FinEnum
import Mathlib.Data.Set.Finite.List

/-!
# The criticality prober

One pass over the mounts expands the block devices of the root and the boot file
systems to their leaves through the `slaves` directories, and one over the input
devices finds keyboards and pointers. The expansion is a recursion that nothing
bounds; on a finite graph without cycles it ends, and the facts hold exactly the
canonical paths of the leaves. The guard then refuses all of their ancestors.
-/

open DevMgr.Core

namespace DevMgr.Linux
open Bytes

/-- The file system as the prober reads it. -/
structure Layout where
  /-- `fs::canonical`, none where it fails. -/
  canonical : Str → Option Str
  isDirectory : Str → Bool
  /-- The names in a directory that can be read, in the order of the iterator. -/
  entries : Str → Option (List Str)
  /-- The contents of a file that can be opened. -/
  readFile : Str → Option Str
  absolute : ∀ path real, canonical path = some real → real.head? = some 47

variable (F : Layout)

def kKeyQ : ℕ := 16
def kKeyP : ℕ := 25
def kBitsPerWord : ℕ := 64

def readFirstLine (path : Str) : Str :=
  ((F.readFile path).bind fun text => (lines text).head?).getD []

def hexValue (c : UInt8) : Option ℕ :=
  if 48 ≤ c ∧ c ≤ 57 then some (c.toNat - 48)
  else if 97 ≤ c ∧ c ≤ 102 then some (c.toNat - 87)
  else if 65 ≤ c ∧ c ≤ 70 then some (c.toNat - 55)
  else none

def readHex (word : Str) : UInt64 :=
  let negative := word.head? = some 45
  let unsigned := if negative ∨ word.head? = some 43 then word.drop 1 else word
  let digits := if str "0x" <+: unsigned ∨ str "0X" <+: unsigned then unsigned.drop 2
      else unsigned
  let value :=
    ((digits.map hexValue).takeWhile Option.isSome).foldl (fun n digit => 16 * n + digit.getD 0) 0
  if 2 ^ 64 ≤ value then UInt64.ofNat (2 ^ 64 - 1)
  else if negative then -UInt64.ofNat value
  else UInt64.ofNat value

def bitSet (hexWords : Str) (bit : ℕ) : Bool :=
  let words := tokens hexWords
  let wordIdx := bit / kBitsPerWord
  if words.length ≤ wordIdx then false
  else (readHex (words.getD (words.length - 1 - wordIdx) [])).toNat.testBit (bit % kBitsPerWord)

def isKeyboard (keyBits : Str) : Bool :=
  keyBits ≠ [] && (List.range' kKeyQ (kKeyP + 1 - kKeyQ)).all fun code => bitSet keyBits code

def isPointer (relBits : Str) : Bool := relBits ≠ [] && bitSet relBits 0 && bitSet relBits 1

def collectInput (classInput : Str) (facts : CriticalityFacts) (name : Str) : CriticalityFacts :=
  if ¬ str "input" <+: name then facts
  else
    match F.canonical (FileTree.join classInput name) with
    | none => facts
    | some real =>
      let keyBits := readFirstLine F (FileTree.join real (str "capabilities/key"))
      let relBits := readFirstLine F (FileTree.join real (str "capabilities/rel"))
      { facts with
        keyboardPaths := if isKeyboard keyBits then facts.keyboardPaths ++ [real]
            else facts.keyboardPaths
        pointerPaths := if isPointer relBits then facts.pointerPaths ++ [real]
            else facts.pointerPaths }

def collectInputFacts (classInput : Str) (facts : CriticalityFacts) : CriticalityFacts :=
  if F.isDirectory classInput then
    ((F.entries classInput).getD []).foldl (collectInput F classInput) facts
  else facts

/-- Without a result when the levels of recursion run out. -/
def expandBlock (classBlock : Str) : ℕ → Str → Option (List Str)
  | 0, _ => none
  | levels + 1, name =>
    let dir := FileTree.join classBlock name
    let slaves := FileTree.join dir (str "slaves")
    -- a directory that cannot be read is not empty, and the iterator finds nothing in it
    if F.isDirectory slaves = true ∧ F.entries slaves ≠ some [] then
      (((F.entries slaves).getD []).mapM (expandBlock classBlock levels)).map List.flatten
    else some (F.canonical dir).toList

inductive Bucket where
  | root
  | boot
  deriving DecidableEq

def bucketOf (target : Str) : Option Bucket :=
  if target = str "/boot" ∨ target = str "/boot/efi" then some .boot
  else if target = str "/" then some .root
  else none

def addBacking (facts : CriticalityFacts) : Bucket → List Str → CriticalityFacts
  | .root, paths => { facts with rootBackingPaths := facts.rootBackingPaths ++ paths }
  | .boot, paths => { facts with bootBackingPaths := facts.bootBackingPaths ++ paths }

def mountOf (line : Str) : Option (Bucket × Str) :=
  match tokens line with
  | source :: target :: _ =>
    match bucketOf target with
    | none => none
    | some bucket =>
      if source.head? ≠ some 47 then none
      else (F.canonical source).map fun node => (bucket, lastSegment node)
  | _ => none

def collectLine (classBlock : Str) (levels : ℕ) (facts : CriticalityFacts) (line : Str) :
    Option CriticalityFacts :=
  match mountOf F line with
  | none => some facts
  | some (bucket, name) => (expandBlock F classBlock levels name).map (addBacking facts bucket)

def collectStorageFacts (classBlock : Str) (levels : ℕ) (mounts : Str) (facts : CriticalityFacts) :
    Option CriticalityFacts :=
  (lines mounts).foldlM (collectLine F classBlock levels) facts

def sortUnique (v : List Str) : List Str := (v.mergeSort fun a b => (compare a b).isLE).dedup

def sortFacts (facts : CriticalityFacts) : CriticalityFacts where
  rootBackingPaths := sortUnique facts.rootBackingPaths
  bootBackingPaths := sortUnique facts.bootBackingPaths
  keyboardPaths := sortUnique facts.keyboardPaths
  pointerPaths := sortUnique facts.pointerPaths

def classBlockDir (sysfsRoot : Str) : Str := FileTree.join sysfsRoot (str "class/block")

def classInputDir (sysfsRoot : Str) : Str := FileTree.join sysfsRoot (str "class/input")

def probe (sysfsRoot mountsPath : Str) (levels : ℕ) : Option (Result CriticalityFacts) :=
  match F.readFile mountsPath with
  | none => some (makeError .io (str "cannot read " ++ mountsPath))
  | some mounts =>
    (collectStorageFacts F (classBlockDir sysfsRoot) levels mounts ⟨[], [], [], []⟩).map
      fun storage =>
      .ok (sortFacts (collectInputFacts F (classInputDir sysfsRoot) storage))

def slavesDir (classBlock name : Str) : Str :=
  FileTree.join (FileTree.join classBlock name) (str "slaves")

def slavesOf (classBlock name : Str) : List Str :=
  if F.isDirectory (slavesDir classBlock name) then (F.entries (slavesDir classBlock name)).getD []
    else []

def IsLeaf (classBlock name : Str) : Prop :=
  F.isDirectory (slavesDir classBlock name) = true →
  F.entries (slavesDir classBlock name) = some []

instance (classBlock name : Str) : Decidable (IsLeaf F classBlock name) :=
  inferInstanceAs (Decidable (_ → _))

def MountedAt (mounts : Str) (targets : List Str) (device : Str) : Prop :=
  ∃ line ∈ lines mounts, ∃ source target rest node, tokens line = source :: target :: rest ∧
    target ∈ targets ∧ source.head? = some 47 ∧ F.canonical source = some node ∧
    device = lastSegment node

/-- The canonical path of a leaf that is reached through slaves from a device mounted there. -/
def Carries (classBlock mounts : Str) (targets : List Str) (path : Str) : Prop :=
  ∃ device leaf, MountedAt F mounts targets device ∧
    Relation.ReflTransGen (Leaves.Step (slavesOf F classBlock)) device leaf ∧
    IsLeaf F classBlock leaf ∧ F.canonical (FileTree.join classBlock leaf) = some path

def Bucket.targets : Bucket → List Str
  | .root => [str "/"]
  | .boot => [str "/boot", str "/boot/efi"]

def Bucket.paths (facts : CriticalityFacts) : Bucket → List Str
  | .root => facts.rootBackingPaths
  | .boot => facts.bootBackingPaths

variable {F} {classBlock : Str}

theorem bucketOf_iff {target : Str} {bucket : Bucket} :
    bucketOf target = some bucket ↔ target ∈ bucket.targets := by
  have hdistinct : str "/boot" ≠ str "/" ∧ str "/boot/efi" ≠ str "/" := by decide
  unfold bucketOf
  cases bucket with
  | root =>
    simp only [Bucket.targets, List.mem_singleton]
    split_ifs with hboot hroot
    · refine ⟨nofun, ?_⟩
      rintro rfl
      exact (hboot.elim (Ne.symm hdistinct.1) (Ne.symm hdistinct.2)).elim
    · simp [hroot]
    · simp [hroot]
  | boot =>
    simp only [Bucket.targets, List.mem_cons, List.not_mem_nil, or_false]
    split_ifs with hboot hroot
    · simp [hboot]
    · simp [hboot]
    · simp [hboot]

theorem mountOf_iff {line device : Str} {bucket : Bucket} :
    mountOf F line = some (bucket, device) ↔ ∃ source target rest node,
      tokens line = source :: target :: rest ∧ target ∈ bucket.targets ∧
      source.head? = some 47 ∧
      F.canonical source = some node ∧ device = lastSegment node := by
  unfold mountOf
  constructor
  · intro h
    split at h
    · rename_i source target rest hfields
      split at h
      · exact absurd h nofun
      · rename_i found hfound
        split_ifs at h with hsource
        obtain ⟨node, hnode, hpair⟩ := Option.map_eq_some_iff.mp h
        obtain ⟨rfl, rfl⟩ := Prod.mk.inj hpair
        exact ⟨source, target, rest, node, hfields, bucketOf_iff.mp hfound,
          not_not.mp hsource, hnode, rfl⟩
    · exact absurd h nofun
  · rintro ⟨source, target, rest, node, hfields, htarget, hsource, hnode, rfl⟩
    rw [hfields]
    simp only [bucketOf_iff.mpr htarget, hsource, hnode, ne_eq, not_true_eq_false, if_false,
      Option.map_some]

def leafPaths (F : Layout) (classBlock name : Str) : List Str :=
  if IsLeaf F classBlock name then (F.canonical (FileTree.join classBlock name)).toList else []

theorem slavesOf_leaf {name : Str} (h : IsLeaf F classBlock name) :
    slavesOf F classBlock name = [] := by
  unfold slavesOf
  split_ifs with hdir
  · rw [h hdir]
    rfl
  · rfl

theorem expandBlock_eq (levels : ℕ) (name : Str) : expandBlock F classBlock levels name =
    Leaves.expand (slavesOf F classBlock) (leafPaths F classBlock) levels name := by
  induction levels generalizing name with
  | zero => rfl
  | succ levels ih =>
    have hbelow : expandBlock F classBlock levels =
        Leaves.expand (slavesOf F classBlock) (leafPaths F classBlock) levels := funext ih
    have hleaf : IsLeaf F classBlock name ↔
        ¬ (F.isDirectory (slavesDir classBlock name) = true ∧
        F.entries (slavesDir classBlock name) ≠ some []) := by
      rw [IsLeaf, not_and, not_not]
    rw [expandBlock, Leaves.expand, hbelow]
    by_cases h : IsLeaf F classBlock name
    · have hguard := hleaf.mp h
      rw [slavesDir] at hguard
      rw [if_neg hguard, if_pos (slavesOf_leaf h), leafPaths, if_pos h]
    · have hguard := not_not.mp (hleaf.not.mp h)
      have hslaves : slavesOf F classBlock name = (F.entries (slavesDir classBlock name)).getD [] :=
        if_pos hguard.1
      rw [slavesDir] at hguard hslaves
      rw [if_pos hguard, ← hslaves]
      split_ifs with hnone
      · rw [hnone, leafPaths, if_neg h]
        rfl
      · rfl

theorem below_iff {device path : Str} :
    Leaves.Below (slavesOf F classBlock) (leafPaths F classBlock) device path ↔
      ∃ leaf, Relation.ReflTransGen (Leaves.Step (slavesOf F classBlock)) device leaf ∧
        IsLeaf F classBlock leaf ∧ F.canonical (FileTree.join classBlock leaf) = some path := by
  refine exists_congr fun leaf => and_congr_right fun _ => ?_
  rw [leafPaths]
  constructor
  · rintro ⟨_, hpath⟩
    split_ifs at hpath with hleaf
    · exact ⟨hleaf, Option.mem_toList.mp hpath⟩
    · exact absurd hpath List.not_mem_nil
  · rintro ⟨hleaf, hpath⟩
    rw [if_pos hleaf]
    exact ⟨slavesOf_leaf hleaf, Option.mem_toList.mpr hpath⟩

theorem mem_addBacking {facts : CriticalityFacts} {found bucket : Bucket}
    {paths : List Str} {path : Str} :
    path ∈ bucket.paths (addBacking facts found paths) ↔
      path ∈ bucket.paths facts ∨ found = bucket ∧ path ∈ paths := by
  cases found <;> cases bucket <;> simp [addBacking, Bucket.paths]

theorem collectLines_mem {levels : ℕ} (ls : List Str) (facts : CriticalityFacts)
    (htotal : ∀ name, ∃ l, expandBlock F classBlock levels name = some l) :
    ∃ facts', ls.foldlM (collectLine F classBlock levels) facts = some facts' ∧
      ∀ (bucket : Bucket) path, path ∈ bucket.paths facts' ↔ path ∈ bucket.paths facts ∨
        ∃ line ∈ ls, ∃ device, mountOf F line = some (bucket, device) ∧
          Leaves.Below (slavesOf F classBlock) (leafPaths F classBlock) device path := by
  induction ls generalizing facts with
  | nil => exact ⟨facts, rfl, fun bucket path => by simp⟩
  | cons line ls ih =>
    rw [List.foldlM_cons, collectLine]
    cases hmount : mountOf F line with
    | none =>
      obtain ⟨facts', hrest, hmem⟩ := ih facts
      refine ⟨facts', hrest, fun bucket path => (hmem bucket path).trans ?_⟩
      simp [hmount]
    | some mount =>
      obtain ⟨found, name⟩ := mount
      obtain ⟨l, hl⟩ := htotal name
      obtain ⟨facts', hrest, hmem⟩ := ih (addBacking facts found l)
      have hbelow : ∀ path, path ∈ l ↔
          Leaves.Below (slavesOf F classBlock) (leafPaths F classBlock) name path := fun path =>
        Leaves.mem_expand (expandBlock_eq levels name ▸ hl)
      refine ⟨facts', ?_, fun bucket path => (hmem bucket path).trans ?_⟩
      · simp only [hl, Option.map_some]
        exact hrest
      · rw [mem_addBacking, hbelow, or_assoc, List.exists_mem_cons_iff, hmount]
        refine or_congr_right (or_congr_left ?_)
        constructor
        · rintro ⟨rfl, hpath⟩
          exact ⟨name, rfl, hpath⟩
        · rintro ⟨device, hpair, hpath⟩
          obtain ⟨rfl, rfl⟩ := Prod.mk.inj (Option.some.inj hpair)
          exact ⟨rfl, hpath⟩

theorem collectInputFacts_paths (classInput : Str) (facts : CriticalityFacts) (bucket : Bucket) :
    bucket.paths (collectInputFacts F classInput facts) = bucket.paths facts := by
  have hone : ∀ facts name, bucket.paths (collectInput F classInput facts name) =
      bucket.paths facts := by
    intro facts name
    unfold collectInput
    split_ifs
    · split
      · rfl
      · cases bucket <;> rfl
    · rfl
  unfold collectInputFacts
  split_ifs
  · induction (F.entries classInput).getD [] generalizing facts with
    | nil => rfl
    | cons name names ih => rw [List.foldl_cons, ih, hone]
  · rfl

theorem mem_sortFacts {facts : CriticalityFacts} {bucket : Bucket} {path : Str} :
    path ∈ bucket.paths (sortFacts facts) ↔ path ∈ bucket.paths facts := by
  have hsort : ∀ {v : List Str}, path ∈ sortUnique v ↔ path ∈ v := by
    intro v
    rw [sortUnique, List.mem_dedup, List.mem_mergeSort]
  cases bucket <;> exact hsort

/-- The facts are exact, and the guard refuses what their paths lie at or below. -/
structure Protects (F : Layout) (classBlock mounts : Str) (facts : CriticalityFacts) : Prop where
  carried : ∀ (bucket : Bucket) path,
    path ∈ bucket.paths facts ↔ Carries F classBlock mounts bucket.targets path
  refuses : ∀ (bucket : Bucket) path target, Carries F classBlock mounts bucket.targets path →
    CanonicalPath target → Below path target → (evaluateDisable facts target).allowed = false

theorem protects_of_carried {mounts : Str} {facts : CriticalityFacts}
    (h : ∀ (bucket : Bucket) path,
      path ∈ bucket.paths facts ↔ Carries F classBlock mounts bucket.targets path) :
    Protects F classBlock mounts facts := by
  refine ⟨h, fun bucket path target hcarries htarget hbelow => ?_⟩
  have hrooted : path.head? = some 47 := by
    obtain ⟨_, _, _, _, _, hpath⟩ := hcarries
    exact F.absolute _ _ hpath
  have hgoes : AtOrUnder path target := (atOrUnder_iff_below hrooted htarget).mpr hbelow
  have hmem := (h bucket path).mpr hcarries
  rw [← Bool.not_eq_true, evaluateDisable_allowed]
  intro hharmless
  cases bucket with
  | root => exact hharmless.root path hmem hgoes
  | boot => exact hharmless.boot path hmem hgoes

def mirrorSlaves : Str := str "/sys/class/block/dm-0/slaves"

def mirrorLink (path : Str) : Option Str :=
  if path = str "/dev/mapper/root" then some (str "/dev/dm-0")
  else if path = str "/sys/class/block/sda2" then
    some (str "/sys/devices/pci0000:00/0000:00:17.0/ata1/block/sda/sda2")
  else if path = str "/sys/class/block/sdb2" then
    some (str "/sys/devices/pci0000:00/0000:00:17.0/ata2/block/sdb/sdb2")
  else none

def mirror : Layout where
  canonical := mirrorLink
  isDirectory path := path = mirrorSlaves
  entries _ := some [str "sda2", str "sdb2"]
  readFile _ := some (str "proc /proc proc rw 0 0\n/dev/mapper/root / ext4 rw 0 0\n")
  absolute path real h := by
    unfold mirrorLink at h
    split_ifs at h <;> exact Option.some.inj h ▸ by decide

theorem mirror_slaves {name : Str} (h : slavesOf mirror (str "/sys/class/block") name ≠ []) :
    slavesDir (str "/sys/class/block") name = mirrorSlaves := by
  unfold slavesOf at h
  split_ifs at h with hdir
  · exact of_decide_eq_true hdir
  · exact absurd rfl h

theorem mirror_finite : {name | slavesOf mirror (str "/sys/class/block") name ≠ []}.Finite := by
  refine (List.finite_length_le UInt8 mirrorSlaves.length).subset fun name hname => ?_
  have hslaves : str "slaves" ≠ [] ∧ (str "slaves").head? ≠ some 47 := by decide
  change name.length ≤ mirrorSlaves.length
  rw [← mirror_slaves hname]
  simp only [slavesDir, FileTree.join, if_neg hslaves.2]
  split_ifs <;> simp <;> omega

theorem mirror_acyclic (name : Str) :
    ¬ Relation.TransGen (Leaves.Step (slavesOf mirror (str "/sys/class/block"))) name name := by
  intro hcycle
  obtain ⟨next, hnext, _⟩ := (Relation.TransGen.head'_iff).mp hcycle
  obtain ⟨last, _, hlast⟩ := (Relation.TransGen.tail'_iff).mp hcycle
  have hslave : name ∈ [str "sda2", str "sdb2"] := by
    unfold Leaves.Step slavesOf at hlast
    split_ifs at hlast
    · exact hlast
    · exact absurd hlast List.not_mem_nil
  have hpartition : ∀ n ∈ [str "sda2", str "sdb2"],
      slavesDir (str "/sys/class/block") n ≠ mirrorSlaves := by
    decide
  exact hpartition name hslave (mirror_slaves (List.ne_nil_of_mem hnext))

end DevMgr.Linux
