import Mathlib.Data.Nat.Notation
import Mathlib.Logic.Function.Basic

/-!
# A disk that loses power

A name of a directory is bound to a file or to nothing. The content of a file is durable
once it is synced, the bindings are once the directory is: before that a crash can put a
name back to any binding it had since, and can leave anything in a file. A rename is
atomic, so its target is bound to the file it had or to the one it gets.
-/

namespace DevMgr

structure Disk.File (C : Type) where
  content : C
  synced : Bool

structure Disk (N C : Type) where
  now : N → Option (Disk.File C)
  /-- The bindings of a name that were given up since the directory was synced. -/
  before : N → List (Option (Disk.File C))

namespace Disk
variable {N C : Type}

inductive Op (N C : Type) where
  | fill (n : N) (c : C)
  | sync (n : N)
  | rename (source target : N)
  | unlink (n : N)
  | syncDir

def rest (contents : N → Option C) : Disk N C where
  now n := (contents n).map fun c => ⟨c, true⟩
  before _ := []

def shows (d : Disk N C) (n : N) : Option C := (d.now n).map File.content

def versions (d : Disk N C) (n : N) : List (Option (File C)) := d.now n :: d.before n

/-- What a binding can be after a crash. -/
inductive Leaves : Option (File C) → Option C → Prop where
  | missing : Leaves none none
  | synced (c : C) : Leaves (some ⟨c, true⟩) (some c)
  | torn (c c' : C) : Leaves (some ⟨c, false⟩) (some c')

def Survives (d : Disk N C) (left : N → Option C) : Prop :=
  ∀ n, ∃ b ∈ d.versions n, Leaves b (left n)

section Run
variable [DecidableEq N]

def bind (d : Disk N C) (n : N) (b : Option (File C)) : Disk N C where
  now := Function.update d.now n b
  before := Function.update d.before n (d.now n :: d.before n)

def apply (d : Disk N C) : Op N C → Disk N C
  | .fill n c => d.bind n (some ⟨c, false⟩)
  | .sync n =>
    { d with now := Function.update d.now n ((d.now n).map fun f => { f with synced := true }) }
  | .rename source target =>
    match d.now source with
    | some f => (d.bind source none).bind target (some f)
    | none => d
  | .unlink n => d.bind n none
  | .syncDir => { d with before := fun _ => [] }

def run (ops : List (Op N C)) (d : Disk N C) : Disk N C := ops.foldl apply d

end Run

def Within (A : Option (File C) → Prop) (n : N) (d : Disk N C) : Prop :=
  ∀ b ∈ d.versions n, A b

def Op.Touches (n : N) : Op N C → Prop
  | .fill m _ | .sync m | .unlink m => m = n
  | .rename source target => source = n ∨ target = n
  | .syncDir => False

section Names
variable {A B : Option (File C) → Prop} {d : Disk N C} {n m : N}

theorem Within.imp (h : Within A n d) (hAB : ∀ b, A b → B b) : Within B n d :=
  fun b hb => hAB b (h b hb)

theorem Within.now (h : Within A n d) : A (d.now n) := h _ List.mem_cons_self

theorem within_rest {contents : N → Option C} :
    Within A n (rest contents) ↔ A ((contents n).map fun c => ⟨c, true⟩) :=
  List.forall_mem_singleton

theorem Survives.leaves {left : N → Option C} (hleft : d.Survives left) (h : Within A n d) :
    ∃ b, A b ∧ Leaves b (left n) := by
  obtain ⟨b, hb, hleaves⟩ := hleft n
  exact ⟨b, h b hb, hleaves⟩

@[simp] theorem shows_rest (contents : N → Option C) (n : N) :
    (rest contents).shows n = contents n := by
  cases h : contents n <;> simp [shows, rest, h]

theorem survives_shows (d : Disk N C) : d.Survives d.shows := by
  intro n
  refine ⟨d.now n, List.mem_cons_self, ?_⟩
  rw [shows]
  match d.now n with
  | none => exact .missing
  | some ⟨c, true⟩ => exact .synced c
  | some ⟨c, false⟩ => exact .torn c c

variable [DecidableEq N]

@[simp] theorem now_bind_self (b : Option (File C)) : (d.bind n b).now n = b :=
  Function.update_self ..

@[simp] theorem shows_sync (m n : N) : (d.apply (.sync m)).shows n = d.shows n := by
  rw [shows, shows, apply]
  by_cases hn : n = m
  · subst hn
    simp only [Function.update_self, Option.map_map]
    rfl
  · simp only [Function.update_of_ne hn]

theorem now_bind_other (hne : n ≠ m) (b : Option (File C)) : (d.bind m b).now n = d.now n :=
  Function.update_of_ne hne ..

theorem within_bind_self {b : Option (File C)} : Within A n (d.bind n b) ↔
    A b ∧ Within A n d := by
  simp [Within, versions, bind]

theorem within_bind_other (hne : n ≠ m) {b : Option (File C)} :
    Within A n (d.bind m b) ↔ Within A n d := by
  simp [Within, versions, bind, Function.update_of_ne hne]

variable {op : Op N C} {ops : List (Op N C)}

theorem apply_untouched (hop : ¬ op.Touches n) :
    (d.apply op).now n = d.now n ∧ (Within A n d → Within A n (d.apply op)) := by
  cases op with
  | fill m c | unlink m =>
    exact ⟨now_bind_other (Ne.symm hop) _, (within_bind_other (Ne.symm hop)).mpr⟩
  | sync m =>
    have hne : n ≠ m := Ne.symm hop
    refine ⟨Function.update_of_ne hne .., fun h => ?_⟩
    simpa [Within, versions, apply, Function.update_of_ne hne] using h
  | rename source target =>
    obtain ⟨hsource, htarget⟩ := not_or.mp hop
    rw [apply]
    cases d.now source with
    | none => exact ⟨rfl, id⟩
    | some f =>
      refine ⟨?_, fun h => ?_⟩
      · rw [now_bind_other (Ne.symm htarget), now_bind_other (Ne.symm hsource)]
      · rwa [within_bind_other (Ne.symm htarget), within_bind_other (Ne.symm hsource)]
  | syncDir => exact ⟨rfl, fun h => List.forall_mem_singleton.mpr h.now⟩

theorem within_rename {source : N} (hne : n ≠ source) (h : Within A n d)
    (hsource : ∀ f, d.now source = some f → A (some f)) :
    Within A n (d.apply (.rename source n)) := by
  rw [apply]
  cases hnow : d.now source with
  | none => exact h
  | some f => exact within_bind_self.mpr ⟨hsource f hnow, (within_bind_other hne).mpr h⟩

theorem within_unlink (h : Within A n d) (hnone : A none) : Within A n (d.apply (.unlink n)) :=
  within_bind_self.mpr ⟨hnone, h⟩

theorem within_syncDir : Within A n (d.apply .syncDir) ↔ A (d.now n) := List.forall_mem_singleton

theorem run_append (later : List (Op N C)) : run (ops ++ later) d = run later (run ops d) :=
  List.foldl_append

def Along (P : Disk N C → Prop) : List (Op N C) → Disk N C → Prop
  | [], d => P d
  | op :: ops, d => P d ∧ Along P ops (d.apply op)

theorem Along.take {P : Disk N C → Prop} (h : Along P ops d) (k : ℕ) :
    P (run (ops.take k) d) := by
  induction ops generalizing d k with
  | nil => simpa [run, Along] using h
  | cons op ops ih =>
    cases k with
    | zero => exact h.1
    | succ k => exact ih h.2 k

theorem Along.last {P : Disk N C → Prop} (h : Along P ops d) : P (run ops d) := by
  have htake := h.take ops.length
  rwa [List.take_length] at htake

theorem along_append {P : Disk N C → Prop} {later : List (Op N C)} :
    Along P (ops ++ later) d ↔ Along P ops d ∧ Along P later (run ops d) := by
  induction ops generalizing d with
  | nil =>
    cases later with
    | nil => exact and_self_iff.symm
    | cons op later => exact ⟨fun h => ⟨h.1, h⟩, fun h => h.2⟩
  | cons op ops ih =>
    rw [List.cons_append, Along, Along, ih, and_assoc]
    rfl

theorem Along.snoc {P : Disk N C → Prop} (h : Along P ops d) (hop : P ((run ops d).apply op)) :
    Along P (ops ++ [op]) d :=
  along_append.mpr ⟨h, h.last, hop⟩

theorem Along.and {P Q : Disk N C → Prop} (hP : Along P ops d) (hQ : Along Q ops d) :
    Along (fun d => P d ∧ Q d) ops d := by
  induction ops generalizing d with
  | nil => exact ⟨hP, hQ⟩
  | cons op ops ih => exact ⟨⟨hP.1, hQ.1⟩, ih hP.2 hQ.2⟩

theorem Along.imp {P Q : Disk N C → Prop} (h : Along P ops d) (hPQ : ∀ d, P d → Q d) :
    Along Q ops d := by
  induction ops generalizing d with
  | nil => exact hPQ d h
  | cons op ops ih => exact ⟨hPQ d h.1, ih h.2⟩

theorem along_forall {α : Sort*} {P : α → Disk N C → Prop} :
    Along (fun d => ∀ a, P a d) ops d ↔ ∀ a, Along (P a) ops d := by
  induction ops generalizing d with
  | nil => rfl
  | cons op ops ih =>
    rw [Along, ih]
    exact forall_and.symm

theorem along_untouched (hops : ∀ op ∈ ops, ¬ op.Touches n) (h : Within A n d) :
    Along (Within A n) ops d := by
  induction ops generalizing d with
  | nil => exact h
  | cons op ops ih =>
    exact ⟨h, ih (fun later hlater => hops later (List.mem_cons_of_mem _ hlater))
      ((apply_untouched (hops op List.mem_cons_self)).2 h)⟩

end Names

end Disk

end DevMgr
