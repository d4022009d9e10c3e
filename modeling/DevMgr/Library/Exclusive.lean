import Mathlib.Data.Bool.Basic
import Mathlib.Logic.Function.Basic

/-!
# A flag with one holder

Parties test and set a flag. In some of their phases they hold it: the flag is set
exactly while somebody holds it, and nobody holds it beside another.
-/

namespace DevMgr

variable {ι α : Type}

structure Exclusive (Holding : α → Prop) (taken : Bool) (parties : ι → α) : Prop where
  taken_iff : taken = true ↔ ∃ i, Holding (parties i)
  alone : ∀ i j, Holding (parties i) → Holding (parties j) → i = j

namespace Exclusive
variable {Holding : α → Prop} {taken : Bool} {parties : ι → α}

theorem start {a : α} (ha : ¬ Holding a) : Exclusive Holding false (fun _ : ι => a) :=
  ⟨⟨nofun, fun ⟨_, h⟩ => absurd h ha⟩, fun _ _ h => absurd h ha⟩

theorem taken_of (h : Exclusive Holding taken parties) {i : ι} (hi : Holding (parties i)) :
    taken = true :=
  h.taken_iff.mpr ⟨i, hi⟩

theorem nobody (h : Exclusive Holding false parties) (i : ι) : ¬ Holding (parties i) :=
  fun hi => Bool.false_ne_true (h.taken_of hi)

variable [DecidableEq ι]

theorem move (h : Exclusive Holding taken parties) {i : ι} {a : α}
    (ha : Holding a ↔ Holding (parties i)) :
    Exclusive Holding taken (Function.update parties i a) := by
  have hsame : ∀ j, Holding (Function.update parties i a j) ↔ Holding (parties j) := by
    intro j
    by_cases heq : j = i
    · rw [heq, Function.update_self]
      exact ha
    · rw [Function.update_of_ne heq]
  refine ⟨h.taken_iff.trans (exists_congr fun j => (hsame j).symm), fun j k hj hk => ?_⟩
  exact h.alone j k ((hsame j).mp hj) ((hsame k).mp hk)

theorem claim (h : Exclusive Holding false parties) {i : ι} {a : α} (ha : Holding a) :
    Exclusive Holding true (Function.update parties i a) := by
  have honly : ∀ j, Holding (Function.update parties i a j) → j = i := by
    intro j hj
    by_contra heq
    rw [Function.update_of_ne heq] at hj
    exact h.nobody j hj
  refine ⟨⟨fun _ => ⟨i, ?_⟩, fun _ => rfl⟩,
    fun j k hj hk => (honly j hj).trans (honly k hk).symm⟩
  rw [Function.update_self]
  exact ha

theorem release (h : Exclusive Holding taken parties) {i : ι} {a : α} (hi : Holding (parties i))
    (ha : ¬ Holding a) : Exclusive Holding false (Function.update parties i a) := by
  have hnobody : ∀ j, ¬ Holding (Function.update parties i a j) := by
    intro j hj
    by_cases heq : j = i
    · rw [heq, Function.update_self] at hj
      exact ha hj
    · rw [Function.update_of_ne heq] at hj
      exact heq (h.alone j i hj hi)
  exact ⟨⟨nofun, fun ⟨j, hj⟩ => absurd hj (hnobody j)⟩,
    fun j _ hj => absurd hj (hnobody j)⟩

end Exclusive

end DevMgr
