import Mathlib.Data.List.Basic

/-!
# Sorting into buckets

One pass appends each element to the bucket of its slot. An element whose slot is
behind the last bucket goes nowhere.
-/

namespace DevMgr.Buckets

variable {α : Type*} {n : ℕ} {slot : α → ℕ}

def put (slot : α → ℕ) (buckets : List (List α)) (x : α) : List (List α) :=
  buckets.modify (slot x) (· ++ [x])

def fill (n : ℕ) (slot : α → ℕ) (l : List α) : List (List α) :=
  l.foldl (put slot) (List.replicate n [])

theorem foldl_put_getElem? (buckets : List (List α)) (l : List α) (i : ℕ) :
    (l.foldl (put slot) buckets)[i]? = buckets[i]?.map (· ++ l.filter fun x => slot x = i) := by
  induction l generalizing buckets with
  | nil => simp
  | cons x l ih =>
    rw [List.foldl_cons, ih, put, List.getElem?_modify]
    by_cases hslot : slot x = i
    · simp [hslot, Function.comp_def]
    · simp [hslot]

theorem fill_eq (l : List α) : fill n slot l = (List.range n).map fun i =>
  l.filter fun x => slot x = i := by
  apply List.ext_getElem?
  intro i
  rw [fill, foldl_put_getElem?, List.getElem?_map]
  by_cases hi : i < n
  · simp [hi]
  · simp [hi]

end DevMgr.Buckets
