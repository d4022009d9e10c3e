import Mathlib.Data.Set.Card
import Mathlib.Logic.Relation
import Mathlib.Order.CompletePartialOrder

/-!
# The leaves of an acyclic graph

Every vertex lists its successors; one without successors is a leaf and has
values. The recursion visits every path and never looks at what it has visited,
so it needs more levels than any path has vertices with successors. Whatever it
returns are the values of the leaves that can be reached.
-/

namespace DevMgr.Leaves

variable {ι β : Type} (next : ι → List ι) (value : ι → List β)

/-- The values below a vertex, without a result when the levels run out. -/
def expand : ℕ → ι → Option (List β)
  | 0, _ => none
  | levels + 1, i =>
    if next i = [] then some (value i)
    else ((next i).mapM (expand levels)).map List.flatten

def Step (i j : ι) : Prop := j ∈ next i

def Below (i : ι) (b : β) : Prop :=
  ∃ leaf, Relation.ReflTransGen (Step next) i leaf ∧ next leaf = [] ∧ b ∈ value leaf

theorem mapM_isSome {α : Type} {f : α → Option β} {l : List α} :
    (l.mapM f).isSome ↔ ∀ a ∈ l, (f a).isSome := by
  induction l with
  | nil => simp
  | cons a l ih =>
    rw [List.mapM_cons, List.forall_mem_cons, ← ih]
    cases f a with
    | none => simp
    | some b => cases l.mapM f <;> simp

theorem mem_mapM_flatten {α : Type} {f : α → Option (List β)} {l : List α} {r : List (List β)}
    (h : l.mapM f = some r) {b : β} : b ∈ r.flatten ↔
    ∃ a ∈ l, ∃ part, f a = some part ∧ b ∈ part := by
  induction l generalizing r with
  | nil =>
    obtain rfl := Option.some.inj h
    simp
  | cons a l ih =>
    rw [List.mapM_cons, Option.bind_eq_bind, Option.bind_eq_some_iff] at h
    obtain ⟨part, hpart, h⟩ := h
    rw [Option.bind_eq_bind, Option.bind_eq_some_iff] at h
    obtain ⟨parts, hparts, h⟩ := h
    obtain rfl := Option.some.inj h
    rw [List.flatten_cons, List.mem_append, ih hparts, List.exists_mem_cons_iff, hpart]
    simp

variable {next value}

theorem mem_expand {levels : ℕ} {i : ι} {l : List β} (h : expand next value levels i = some l)
    {b : β} :
    b ∈ l ↔ Below next value i b := by
  induction levels generalizing i l with
  | zero => exact absurd h nofun
  | succ levels ih =>
    rw [expand] at h
    split_ifs at h with hleaf
    · obtain rfl := Option.some.inj h
      refine ⟨fun hb => ⟨i, .refl, hleaf, hb⟩, fun ⟨leaf, hreach, _, hb⟩ => ?_⟩
      rcases hreach.cases_head with rfl | ⟨j, hj, _⟩
      · exact hb
      · rw [Step, hleaf] at hj
        exact absurd hj List.not_mem_nil
    · obtain ⟨parts, hparts, rfl⟩ := Option.map_eq_some_iff.mp h
      rw [mem_mapM_flatten hparts]
      constructor
      · rintro ⟨j, hj, part, hpart, hb⟩
        obtain ⟨leaf, hreach, hend, hb⟩ := (ih hpart).mp hb
        exact ⟨leaf, .head hj hreach, hend, hb⟩
      · rintro ⟨leaf, hreach, hend, hb⟩
        rcases hreach.cases_head with rfl | ⟨j, hj, hrest⟩
        · exact absurd hend hleaf
        · have hsome : ((next i).mapM (expand next value levels)).isSome := by rw [hparts]; rfl
          obtain ⟨part, hpart⟩ := Option.isSome_iff_exists.mp (mapM_isSome.mp hsome j hj)
          exact ⟨j, hj, part, hpart, (ih hpart).mpr ⟨leaf, hrest, hend, hb⟩⟩

def inner (next : ι → List ι) (i : ι) : Set ι :=
  {k | next k ≠ [] ∧ Relation.ReflTransGen (Step next) i k}

theorem inner_ssubset (hacyclic : ∀ i, ¬ Relation.TransGen (Step next) i i) {i j : ι}
    (hij : Step next i j) : inner next j ⊂ inner next i := by
  have hi : i ∈ inner next i := ⟨List.ne_nil_of_mem hij, .refl⟩
  have hsubset : inner next j ⊆ inner next i := fun k hk => ⟨hk.1, .head hij hk.2⟩
  refine (Set.ssubset_iff_of_subset hsubset).mpr ⟨i, hi, fun hback => ?_⟩
  exact hacyclic i (Relation.TransGen.head' hij hback.2)

section Finite
variable (hfinite : {i | next i ≠ []}.Finite) (hacyclic : ∀ i, ¬ Relation.TransGen (Step next) i i)

include hfinite hacyclic

theorem expand_isSome {levels : ℕ} {i : ι} (h : (inner next i).ncard < levels) :
    (expand next value levels i).isSome := by
  induction levels generalizing i with
  | zero => exact absurd h (Nat.not_lt_zero _)
  | succ levels ih =>
    rw [expand]
    split_ifs with hleaf
    · rfl
    · rw [Option.isSome_map, mapM_isSome]
      intro j hj
      have hless : (inner next j).ncard < (inner next i).ncard :=
        Set.ncard_lt_ncard (inner_ssubset hacyclic hj) (hfinite.subset fun _ hk => hk.1)
      exact ih (by omega)

theorem expand_total {levels : ℕ} (h : {i | next i ≠ []}.ncard < levels) (i : ι) :
    ∃ l, expand next value levels i = some l := by
  have hle : (inner next i).ncard ≤ {i | next i ≠ []}.ncard :=
    Set.ncard_le_ncard (fun _ hk => hk.1) hfinite
  exact Option.isSome_iff_exists.mp (expand_isSome hfinite hacyclic (by omega))

end Finite

end DevMgr.Leaves
