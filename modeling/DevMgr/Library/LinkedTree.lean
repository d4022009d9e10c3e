import DevMgr.Library.FileTree

/-!
# A tree of files with links

What a scan of directories asks the file system. A path may lead through links
to a place of its own; the entries of a directory are what `lstat` says of them.
-/

namespace DevMgr.LinkedTree
open Bytes FileTree

inductive Kind where
  | file
  | dir
  | link
  | other
  deriving DecidableEq

/-- `kind` and `list` are of a place, `real` says where a path leads when all its links are
followed. A directory that cannot be opened lists nothing. -/
structure Tree where
  kind : Place → Option Kind
  list : Place → List Str
  real : Place → Option Place
  real_entry : ∀ {path place name}, real path = some place →
      kind (place ++ [name]) ≠ some .link →
    real (path ++ [name]) = if (kind (place ++ [name])).isSome then some (place ++ [name]) else none

variable (tree : Tree)

def Tree.entry (path : Place) (name : Str) : Option Kind :=
  (tree.real path).bind fun place => tree.kind (place ++ [name])

def Tree.isDirectory (path : Place) : Bool := (tree.real path).bind tree.kind = some .dir

def Tree.exists (path : Place) : Bool := (tree.real path).isSome

def Tree.listing (path : Place) : List Str := ((tree.real path).map tree.list).getD []

def Tree.realDirs (path : Place) : List Str := (tree.listing path).filter fun name =>
  tree.entry path name = some .dir

def Tree.realFiles (path : Place) : List Str := (tree.listing path).filter fun name =>
  tree.entry path name = some .file

variable {tree} {path : Place} {name : Str}

theorem real_of_entry {kind : Kind} (h : tree.entry path name = some kind) (hlink : kind ≠ .link) :
    ∃ place, tree.real path = some place ∧ tree.kind (place ++ [name]) = some kind ∧
      tree.real (path ++ [name]) = some (place ++ [name]) := by
  obtain ⟨place, hplace, hkind⟩ := Option.bind_eq_some_iff.mp h
  refine ⟨place, hplace, hkind, ?_⟩
  rw [tree.real_entry hplace (by rw [hkind]; exact fun heq => hlink (Option.some.inj heq)), hkind]
  rfl

theorem isDirectory_entry (hpath : (tree.real path).isSome) :
    tree.isDirectory (path ++ [name]) = true ↔ tree.entry path name = some .dir ∨
      tree.entry path name = some .link ∧ tree.isDirectory (path ++ [name]) = true := by
  obtain ⟨place, hplace⟩ := Option.isSome_iff_exists.mp hpath
  have hentry : tree.entry path name = tree.kind (place ++ [name]) := by
    unfold Tree.entry
    rw [hplace]
    rfl
  by_cases hlink : tree.kind (place ++ [name]) = some .link
  · simp [hentry, hlink]
  · have hreal := tree.real_entry hplace hlink
    rw [hentry]
    unfold Tree.isDirectory
    rw [hreal]
    cases hkind : tree.kind (place ++ [name]) with
    | none => simp
    | some kind =>
      rw [hkind] at hlink
      simp [hkind, hlink]

theorem mem_realDirs : name ∈ tree.realDirs path ↔ name ∈ tree.listing path ∧
    tree.entry path name = some .dir := by
  simp [Tree.realDirs]

def ofNodes (nodes : List (Place × Kind)) : Tree where
  kind place := nodes.lookup place
  list place := nodes.filterMap fun node => if node.1.dropLast = place then
    node.1.getLast? else none
  real path := if nodes.lookup path = none ∨ nodes.lookup path = some .link then none
      else some path
  real_entry := by
    intro path place name hplace hlink
    have hsame : place = path := by
      split_ifs at hplace
      exact (Option.some.inj hplace).symm
    subst hsame
    cases hkind : nodes.lookup (place ++ [name]) with
    | none => simp
    | some kind =>
      rw [hkind] at hlink
      simp [hlink]

end DevMgr.LinkedTree
