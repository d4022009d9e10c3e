import Mathlib.Computability.Language

/-!
# Words between separators

Words over classes of symbols and lists of words with a separator between them, as
languages. Where no word holds the separator, the first one that is found in a text
is where the first word ends, so the text is decided by one search after another.
-/

namespace DevMgr.Grammar
open Computability

variable {α : Type*} {p : α → Prop} {c : α} {w : List α}

def one (p : α → Prop) : Language α := {w | ∃ c, p c ∧ w = [c]}

def many (p : α → Prop) : Language α := one p * (one p)∗

theorem mem_one_pow {n : ℕ} : w ∈ one p ^ n ↔ w.length = n ∧ ∀ c ∈ w, p c := by
  induction n generalizing w with
  | zero =>
    rw [pow_zero, Language.mem_one, List.length_eq_zero_iff]
    exact ⟨fun h => ⟨h, by simp [h]⟩, And.left⟩
  | succ n ih =>
    rw [pow_succ', Language.mem_mul]
    constructor
    · rintro ⟨_, ⟨c, hc, rfl⟩, rest, hrest, rfl⟩
      obtain ⟨hlength, hall⟩ := ih.mp hrest
      exact ⟨by simp [hlength], List.forall_mem_cons.mpr ⟨hc, hall⟩⟩
    · rintro ⟨hlength, hall⟩
      cases w with
      | nil => cases hlength
      | cons c rest =>
        obtain ⟨hc, hrest⟩ := List.forall_mem_cons.mp hall
        exact ⟨[c], ⟨c, hc, rfl⟩, rest, ih.mpr ⟨Nat.succ.inj hlength, hrest⟩, rfl⟩

theorem mem_one_kstar : w ∈ (one p)∗ ↔ ∀ c ∈ w, p c := by
  rw [Language.kstar_eq_iSup_pow, Language.mem_iSup]
  simp only [mem_one_pow]
  exact ⟨fun ⟨_, _, hall⟩ => hall, fun hall => ⟨w.length, rfl, hall⟩⟩

theorem mem_many : w ∈ many p ↔ w ≠ [] ∧ ∀ c ∈ w, p c := by
  rw [many, Language.mem_mul]
  constructor
  · rintro ⟨_, ⟨c, hc, rfl⟩, rest, hrest, rfl⟩
    exact ⟨List.cons_ne_nil c rest, List.forall_mem_cons.mpr ⟨hc, mem_one_kstar.mp hrest⟩⟩
  · rintro ⟨hne, hall⟩
    cases w with
    | nil => exact absurd rfl hne
    | cons c rest =>
      obtain ⟨hc, hrest⟩ := List.forall_mem_cons.mp hall
      exact ⟨[c], ⟨c, hc, rfl⟩, rest, mem_one_kstar.mpr hrest, rfl⟩

def separated (A : Language α) (c : α) : Language α := A * ({[c]} * A)∗

theorem separated_eq {A : Language α} : separated A c = A + A * ({[c]} * separated A c) := by
  calc
    separated A c = A * (1 + {[c]} * A * ({[c]} * A)∗) := by
      rw [Language.one_add_self_mul_kstar_eq_kstar, separated]
    _ = A + A * ({[c]} * separated A c) := by
      rw [mul_add, mul_one, mul_assoc {[c]}, separated]

section Separators
variable [DecidableEq α] {A B : Language α} {i : ℕ}

theorem idxOf?_iff_append : w.idxOf? c = some i ↔
    ∃ a b, w = a ++ c :: b ∧ c ∉ a ∧ a.length = i := by
  rw [List.idxOf?_eq_some_iff]
  constructor
  · rintro ⟨hlt, hat, hbefore⟩
    refine ⟨w.take i, w.drop (i + 1), ?_, fun hmem => ?_, List.length_take_of_le hlt.le⟩
    · rw [← hat, ← List.drop_eq_getElem_cons, List.take_append_drop]
    · obtain ⟨j, hj, heq⟩ := List.mem_iff_getElem.mp hmem
      rw [List.length_take] at hj
      rw [List.getElem_take] at heq
      exact hbefore j (by omega) heq
  · rintro ⟨a, b, rfl, hfree, rfl⟩
    refine ⟨by simp, by simp, fun j hj heq => ?_⟩
    rw [List.getElem_append_left hj] at heq
    exact hfree (heq ▸ List.getElem_mem hj)

theorem mem_behind (hfree : ∀ w ∈ A, c ∉ w) : w ∈ A * ({[c]} * B) ↔
    ∃ i, w.idxOf? c = some i ∧ w.take i ∈ A ∧ w.drop (i + 1) ∈ B := by
  simp only [Language.mem_mul]
  constructor
  · rintro ⟨a, ha, _, ⟨_, rfl, b, hb, rfl⟩, rfl⟩
    refine ⟨a.length, idxOf?_iff_append.mpr ⟨a, b, rfl, hfree a ha, rfl⟩, ?_, ?_⟩
    · rw [List.take_left]
      exact ha
    · simpa using hb
  · rintro ⟨i, hi, hbefore, hafter⟩
    obtain ⟨a, b, rfl, -, rfl⟩ := idxOf?_iff_append.mp hi
    rw [List.take_left] at hbefore
    exact ⟨a, hbefore, c :: b, ⟨[c], rfl, b, by simpa using hafter, rfl⟩, rfl⟩

theorem mem_separated_last (hlast : w.idxOf? c = none) : w ∈ separated A c ↔ w ∈ A := by
  rw [separated_eq, Language.mem_add]
  apply or_iff_left
  rintro ⟨a, -, _, ⟨_, rfl, b, -, rfl⟩, rfl⟩
  rw [List.idxOf?_eq_none_iff] at hlast
  exact hlast (List.mem_append_right a List.mem_cons_self)

theorem mem_separated_split (hfree : ∀ w ∈ A, c ∉ w) (hi : w.idxOf? c = some i) :
    w ∈ separated A c ↔ w.take i ∈ A ∧ w.drop (i + 1) ∈ separated A c := by
  have hword : w ∉ A := by
    intro hw
    obtain ⟨a, b, rfl, -, -⟩ := idxOf?_iff_append.mp hi
    exact hfree _ hw (List.mem_append_right a List.mem_cons_self)
  rw [separated_eq, Language.mem_add, or_iff_right hword, mem_behind hfree, ← separated_eq]
  constructor
  · rintro ⟨j, hj, hsplit⟩
    obtain rfl := Option.some.inj (hi.symm.trans hj)
    exact hsplit
  · intro hsplit
    exact ⟨i, hi, hsplit⟩

theorem nil_notMem_separated (hA : [] ∉ A) : [] ∉ separated A c := by
  rw [mem_separated_last List.idxOf?_nil]
  exact hA

end Separators

end DevMgr.Grammar
