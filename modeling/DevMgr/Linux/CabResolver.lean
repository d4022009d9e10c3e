import DevMgr.Core.UpdateModels
import DevMgr.Library.FileTree

/-!
# The local file of a release

The locations of a release are tried in their order. The first that can be a
local path is opened, once and without following a link, and its size checked.
-/

open DevMgr.Core

namespace DevMgr.Linux
open Bytes FileTree

structure RemoteRef where
  id : Str
  kind : Str
  filenameCache : Str

structure CabFile where
  path : Str
  sizeBytes : UInt64

/-- What stands at a path, its last link not followed. -/
inductive PathEntry where
  | unopenable
  | symlink
  | special
  | regular (size : UInt64)

structure CabFiles where
  weaklyCanonical : Str → Option Str
  entry : Str → PathEntry

/-- `open` with `O_NOFOLLOW` and `fstat`: what is opened is a regular file of some size, or no
regular file. -/
def CabFiles.openFile (files : CabFiles) (path : Str) : Option (Option UInt64) :=
  match files.entry path with
  | .unopenable | .symlink => none
  | .special => some none
  | .regular size => some (some size)

def pathElements (path : Str) : List Str :=
  let names := (components path).filter (· ≠ [])
  (if path.head? = some 47 then [[47]] else []) ++ names ++
    (if names ≠ [] ∧ path.getLast? = some 47 then [[]] else [])

def isAbsolute (path : Str) : Bool := path.head? = some 47

def mismatch : List Str → List Str → List Str × List Str
  | a :: as, b :: bs => if a = b then mismatch as bs else (a :: as, b :: bs)
  | as, bs => (as, bs)

def pathAppend (path element : Str) : Str := if path = [] then element else join path element

def lexicallyRelative (path base : Str) : Str :=
  if isAbsolute path ≠ isAbsolute base then []
  else
    let (a, b) := mismatch (pathElements path) (pathElements base)
    if a = [] ∧ b = [] then str "."
    else
      let n : Int := (b.map fun p =>
        if p = str ".." then -1 else if p ≠ [] ∧ p ≠ str "." then 1 else 0).sum
      if n = 0 ∧ (a.head?.getD []) = [] then str "."
      else if 0 ≤ n then ((List.replicate n.toNat (str "..")) ++ a).foldl pathAppend []
      else []

def kHardCapBytes : UInt64 := 512 * 1024 * 1024

def kFileScheme : Str := str "file://"

def findRemote (remotes : List RemoteRef) (id : Str) : Option RemoteRef :=
  remotes.find? fun r => r.id = id

def candidatePath (loc : Str) (remotes : List RemoteRef) (remoteId : Str) : Str :=
  if loc = [] then []
  else if kFileScheme <+: loc then loc.drop kFileScheme.length
  else if str "://" <:+: loc then []
  else if loc.head? = some 47 then loc
  else match findRemote remotes remoteId with
    | none => []
    | some remote => if remote.kind = str "directory" then join remote.filenameCache loc else []

def escapesRoot (files : CabFiles) (candidate root : Str) : Bool :=
  match files.weaklyCanonical candidate, files.weaklyCanonical root with
  | some canon, some canonRoot =>
    let rel := lexicallyRelative canon canonRoot
    rel = [] || str ".." <+: rel
  | _, _ => true

def relativeEscapeError (files : CabFiles) (loc path : Str) (remotes : List RemoteRef)
    (remoteId : Str) :
    Option Str :=
  if loc.head? = some 47 ∨ kFileScheme <+: loc then none
  else
    let escapes := match findRemote remotes remoteId with
      | none => true
      | some remote => escapesRoot files path remote.filenameCache
    if escapes then some (str "cab location escapes remote directory: " ++ loc) else none

def openAndValidate (files : CabFiles) (path : Str) (expectedSizeBytes : UInt64) : Result CabFile :=
  match files.openFile path with
  | none => makeError .notFound (str "cannot open firmware file: " ++ path)
  | some none => makeError .unsupported (str "firmware location is not a regular file: " ++ path)
  | some (some size) =>
    let cap :=
      if 0 < expectedSizeBytes then min (expectedSizeBytes + expectedSizeBytes / 2) kHardCapBytes
      else kHardCapBytes
    if size = 0 ∨ cap < size then
      makeError .unsupported (str "firmware file size out of bounds: " ++ path)
    else .ok ⟨path, size⟩

def isLocallyResolvable (locations : List Str) (remotes : List RemoteRef) (remoteId : Str) : Bool :=
  locations.any fun loc => candidatePath loc remotes remoteId ≠ []

def resolveAndOpenCab (files : CabFiles) (locations : List Str) (remotes : List RemoteRef)
    (remoteId : Str) (expectedSizeBytes : UInt64) : Result CabFile :=
  match locations.find? fun loc => candidatePath loc remotes remoteId ≠ [] with
  | none =>
      makeError .unsupported (str "no locally-resolvable firmware location (run `fwupdmgr update`)")
  | some loc =>
    let path := candidatePath loc remotes remoteId
    match relativeEscapeError files loc path remotes remoteId with
    | some escape => makeError .unsupported escape
    | none => openAndValidate files path expectedSizeBytes

def sizeCap (expectedSizeBytes : UInt64) : UInt64 :=
  if 0 < expectedSizeBytes then min (expectedSizeBytes + expectedSizeBytes / 2) kHardCapBytes
  else kHardCapBytes

theorem openAndValidate_eq (files : CabFiles) (path : Str) (expected : UInt64) :
    openAndValidate files path expected =
      match files.entry path with
      | .unopenable | .symlink => makeError .notFound (str "cannot open firmware file: " ++ path)
      | .special =>
        makeError .unsupported (str "firmware location is not a regular file: " ++ path)
      | .regular size =>
        if size = 0 ∨ sizeCap expected < size then
          makeError .unsupported (str "firmware file size out of bounds: " ++ path)
        else .ok ⟨path, size⟩ := by
  unfold openAndValidate CabFiles.openFile
  cases files.entry path <;> rfl

theorem openAndValidate_ok_iff {files : CabFiles} {path : Str} {expected : UInt64} {cab : CabFile} :
    openAndValidate files path expected = .ok cab ↔
      ∃ size, files.entry path = .regular size ∧ size ≠ 0 ∧ size ≤ sizeCap expected ∧
        cab = ⟨path, size⟩ := by
  rw [openAndValidate_eq]
  cases files.entry path with
  | unopenable => simp [makeError]
  | symlink => simp [makeError]
  | special => simp [makeError]
  | regular size =>
    dsimp only
    by_cases hbounds : size = 0 ∨ sizeCap expected < size
    · rw [if_pos hbounds]
      refine iff_of_false nofun fun ⟨size', hsize, hpos, hcap, _⟩ => ?_
      obtain rfl := PathEntry.regular.inj hsize
      exact hbounds.elim hpos (UInt64.not_lt.mpr hcap)
    · rw [if_neg hbounds]
      rw [not_or, UInt64.not_lt] at hbounds
      constructor
      · intro h
        exact ⟨size, rfl, hbounds.1, hbounds.2, (Except.ok.inj h).symm⟩
      · rintro ⟨size', hsize, _, _, rfl⟩
        obtain rfl := PathEntry.regular.inj hsize
        rfl

end DevMgr.Linux
