import Mathlib.Data.Fintype.Card
import DevMgr.Core.Models

/-!
# The store directory and its two file idioms

A directory maps file names to contents. `atomicWriteFile` writes a temporary
file and renames it over its target, `quarantineFile` moves a file aside under
a name nobody has. What the operating system decides (the order in which a
directory is listed, the clock, and which of the calls fail) is an `Env`, chosen
afresh for every operation.
-/

open DevMgr.Core

namespace DevMgr.Daemon
open Bytes

abbrev Directory := StringMap Str

inductive SyncFault where
  | open
  | sync
  | close

def SyncFault.error (path : Str) : SyncFault → Error
  | .open => ⟨.io, str "open for fsync failed: " ++ path⟩
  | .sync => ⟨.io, str "fsync failed: " ++ path⟩
  | .close => ⟨.io, str "close failed: " ++ path⟩

/-- Where a write gives up. The temporary file it could not remove either is `left`. -/
inductive WriteFault where
  | open
  | write (left : Option Str)
  | sync (fault : SyncFault) (left : Option Str)
  | rename (message : Str) (left : Option Str)
  | syncDir (fault : SyncFault)

/-- The unspecified order of a directory iterator. -/
structure ScanOrder where
  names : Directory → List Str
  perm : ∀ d, (names d).Perm d.keys

def ScanOrder.sorted : ScanOrder := ⟨Std.ExtTreeMap.keys, fun _ => .rfl⟩

structure Env where
  dir : Str
  order : ScanOrder
  time : Str → ℕ
  docWrite : Option WriteFault
  headWrite : Option WriteFault
  renames : Str → Bool
  unlinkError : Str → Option Str

def Env.quiet : Env where
  dir := str "/var/lib/devmgrd/snapshots"
  order := .sorted
  time _ := 0
  docWrite := none
  headWrite := none
  renames _ := true
  unlinkError _ := none

variable (e : Env)

def Env.path (name : Str) : Str := e.dir ++ str "/" ++ name

def tmpName (fileName : Str) : Str := fileName ++ str ".tmp"

def dropTmp (d : Directory) (fileName : Str) : Option Str → Directory
  | none => d.erase (tmpName fileName)
  | some left => d.insert (tmpName fileName) left

def renamed (d : Directory) (fileName content : Str) : Directory :=
  (d.erase (tmpName fileName)).insert fileName content

def atomicWriteFile (fault : Option WriteFault) (d : Directory) (fileName content : Str) :
    Result Unit × Directory :=
  let tmp := e.path (tmpName fileName)
  match fault with
  | some .open => (makeError .io (str "cannot write " ++ tmp), d)
  | some (.write left) => (makeError .io (str "write failed: " ++ tmp), dropTmp d fileName left)
  | some (.sync fault left) => (.error (fault.error tmp), dropTmp d fileName left)
  | some (.rename message left) =>
    (makeError .io (str "rename failed: " ++ message), dropTmp d fileName left)
  | some (.syncDir fault) => (.error (fault.error e.dir), renamed d fileName content)
  | none => (.ok (), renamed d fileName content)

def candidate (base : Str) : ℕ → Str
  | 0 => base
  | n + 1 => base ++ 46 :: decimal (n + 1)

def freeName (d : Directory) (base : Str) : ℕ → ℕ → Str
  | 0, n => candidate base n
  | fuel + 1, n => if candidate base n ∈ d then freeName d base fuel (n + 1) else candidate base n

def badBase (fileName : Str) : Str := fileName ++ str ".bad-" ++ decimal (e.time fileName)

/-- The directory has too few names to occupy every candidate, so its size is fuel enough. -/
def quarantineName (d : Directory) (fileName : Str) : Str :=
  freeName d (badBase e fileName) d.size 0

/-- A rename that fails is swallowed; the name is returned all the same. -/
def quarantineFile (d : Directory) (fileName : Str) : Str × Directory :=
  let badName := quarantineName e d fileName
  match d[fileName]? with
  | some content =>
    (badName, if e.renames fileName then (d.erase fileName).insert badName content else d)
  | none => (badName, d)

/-- `fs::remove` with its error code: a missing file is no error. -/
def unlink (d : Directory) (name : Str) : Option Str × Directory :=
  match e.unlinkError name with
  | some message => (some message, d)
  | none => (none, d.erase name)

variable {e} {d : Directory}

theorem mem_congr {d' : Directory} {name : Str} (h : d'[name]? = d[name]?) :
    name ∈ d' ↔ name ∈ d := by
  rw [Std.ExtTreeMap.mem_iff_isSome_getElem?, Std.ExtTreeMap.mem_iff_isSome_getElem?, h]

theorem dropTmp_other {fileName name : Str} (hne : name ≠ tmpName fileName) (left : Option Str) :
    (dropTmp d fileName left)[name]? = d[name]? := by
  cases left <;> simp [dropTmp, Std.ExtTreeMap.getElem?_erase, Std.ExtTreeMap.getElem?_insert,
    hne.symm]

theorem renamed_other {fileName name : Str} (hne : name ≠ fileName)
    (htmp : name ≠ tmpName fileName) (content : Str) :
    (renamed d fileName content)[name]? = d[name]? := by
  simp [renamed, Std.ExtTreeMap.getElem?_erase, Std.ExtTreeMap.getElem?_insert, hne.symm, htmp.symm]

@[simp] theorem renamed_self (fileName content : Str) :
    (renamed d fileName content)[fileName]? = some content := by
  simp [renamed]

def lands : Option WriteFault → Bool
  | none | some (.syncDir _) => true
  | some _ => false

theorem atomicWriteFile_cases (fault : Option WriteFault) (d : Directory) (fileName content : Str) :
    (lands fault = true ∧
      ∃ r, atomicWriteFile e fault d fileName content = (r, renamed d fileName content) ∧
        (r = .ok () ↔ fault = none)) ∨
    (lands fault = false ∧
      ∃ error d', atomicWriteFile e fault d fileName content = (.error error, d') ∧
        ∀ name, name ≠ tmpName fileName → d'[name]? = d[name]?) := by
  match fault with
  | some .open => exact .inr ⟨rfl, _, _, rfl, fun _ _ => rfl⟩
  | some (.write left) => exact .inr ⟨rfl, _, _, rfl, fun _ h => dropTmp_other h left⟩
  | some (.sync fault left) => exact .inr ⟨rfl, _, _, rfl, fun _ h => dropTmp_other h left⟩
  | some (.rename message left) => exact .inr ⟨rfl, _, _, rfl, fun _ h => dropTmp_other h left⟩
  | some (.syncDir fault) => exact .inl ⟨rfl, _, rfl, by simp⟩
  | none => exact .inl ⟨rfl, _, rfl, by simp⟩

theorem candidate_injective (base : Str) : Function.Injective (candidate base) := by
  intro m n h
  cases m with
  | zero =>
    cases n with
    | zero => rfl
    | succ n => simp [candidate] at h
  | succ m =>
    cases n with
    | zero => simp [candidate] at h
    | succ n => simpa [candidate, decimal_injective.eq_iff] using h

theorem freeName_mem (d : Directory) (base : Str) (fuel n : ℕ) (h : freeName d base fuel n ∈ d) :
    ∀ k, n ≤ k → k ≤ n + fuel → candidate base k ∈ d := by
  induction fuel generalizing n with
  | zero =>
    intro k hnk hk
    obtain rfl : k = n := by omega
    exact h
  | succ fuel ih =>
    rw [freeName] at h
    split_ifs at h with hn
    · intro k hnk hk
      rcases Nat.eq_or_lt_of_le hnk with rfl | hlt
      · exact hn
      · exact ih (n + 1) h k hlt (by omega)
    · exact absurd h hn

theorem quarantineName_not_mem (e : Env) (d : Directory) (fileName : Str) :
    quarantineName e d fileName ∉ d := by
  intro h
  have hall := freeName_mem d (badBase e fileName) d.size 0 h
  have hsub : (List.range (d.size + 1)).map (candidate (badBase e fileName)) ⊆ d.keys := by
    intro name hname
    obtain ⟨k, hk, rfl⟩ := List.mem_map.mp hname
    have hmem := hall k (Nat.zero_le k) (by simp at hk; omega)
    exact Std.ExtTreeMap.mem_keys.mpr hmem
  have hnodup : ((List.range (d.size + 1)).map (candidate (badBase e fileName))).Nodup :=
    List.nodup_range.map (candidate_injective _)
  have hle := (hnodup.subperm hsub).length_le
  simp [Std.ExtTreeMap.length_keys] at hle

end DevMgr.Daemon
