import Mathlib.Data.List.Induction

/-!
# Texts joined by a separator

Texts without an empty one among them, joined one after the other, read as the
two halves of the list joined. What stands between the same texts can be told
from the whole.
-/

namespace DevMgr.Joining

variable {α ι : Type} (sep : List α)

def joined (u v : List α) : List α := if u = [] then v else if v = [] then u else u ++ sep ++ v

variable {sep} {u v w : List α} {xs ys : List (List α)}

theorem length_lt_joined (hu : u ≠ []) : w.length < (u ++ sep ++ w).length ∧
    w.length < (w ++ sep ++ u).length := by
  have hpos := List.length_pos_iff.mpr hu
  simp only [List.length_append]
  omega

theorem joined_left_cancel (h : joined sep u v = joined sep u w) : v = w := by
  unfold joined at h
  by_cases hu : u = []
  · rwa [if_pos hu, if_pos hu] at h
  · rw [if_neg hu, if_neg hu] at h
    split_ifs at h with hv hw hw
    · rw [hv, hw]
    · exact absurd (congrArg List.length h) (Nat.ne_of_lt (length_lt_joined hw).2)
    · exact absurd (congrArg List.length h) (Nat.ne_of_gt (length_lt_joined hv).2)
    · exact List.append_cancel_left h

theorem joined_right_cancel (h : joined sep v u = joined sep w u) : v = w := by
  unfold joined at h
  by_cases hu : u = []
  · simp only [if_pos hu] at h
    split_ifs at h with hv hw hw
    · rw [hv, hw]
    · rw [hv, ← h, hu]
    · rw [hw, h, hu]
    · exact h
  · simp only [if_neg hu] at h
    split_ifs at h with hv hw hw
    · rw [hv, hw]
    · exact absurd (congrArg List.length h) (Nat.ne_of_lt (length_lt_joined hw).1)
    · exact absurd (congrArg List.length h) (Nat.ne_of_gt (length_lt_joined hv).1)
    · exact List.append_cancel_right (List.append_cancel_right h)

theorem intercalate_eq_nil_iff (hxs : ∀ x ∈ xs, x ≠ []) :
    sep.intercalate xs = [] ↔ xs = [] := by
  cases xs with
  | nil => simp
  | cons x xs =>
    have hx := hxs x List.mem_cons_self
    cases xs with
    | nil => simpa using hx
    | cons y xs => simp [List.intercalate_cons_cons, hx]

theorem intercalate_append (hxs : ∀ x ∈ xs, x ≠ []) (hys : ∀ y ∈ ys, y ≠ []) :
    sep.intercalate (xs ++ ys) = joined sep (sep.intercalate xs) (sep.intercalate ys) := by
  unfold joined
  simp only [intercalate_eq_nil_iff hxs, intercalate_eq_nil_iff hys]
  induction xs with
  | nil => rfl
  | cons x xs ih =>
    rw [if_neg (List.cons_ne_nil x xs), List.cons_append]
    by_cases hy : ys = []
    · rw [if_pos hy, hy, List.append_nil]
    · have ih' := ih fun x hx => hxs x (List.mem_cons_of_mem _ hx)
      rw [if_neg hy] at ih' ⊢
      rw [List.intercalate_cons_of_ne_nil (by simp [hy]), ih']
      by_cases hxs' : xs = []
      · rw [if_pos hxs', hxs', List.intercalate_singleton]
      · rw [if_neg hxs', List.intercalate_cons_of_ne_nil hxs']
        simp only [List.append_assoc]

theorem foldl_joined (hxs : ∀ x ∈ xs, x ≠ []) :
    xs.foldl (fun u x => (if u = [] then [] else u ++ sep) ++ x) [] = sep.intercalate xs := by
  induction xs using List.reverseRecOn with
  | nil => rfl
  | append_singleton xs x ih =>
    have hx : x ≠ [] := hxs x (by simp)
    have hlast : ∀ y ∈ [x], y ≠ [] := fun y hy => List.mem_singleton.mp hy ▸ hx
    have hfirst : ∀ y ∈ xs, y ≠ [] := fun y hy => hxs y (List.mem_append_left _ hy)
    rw [List.foldl_append, ih hfirst, intercalate_append hfirst hlast, List.intercalate_singleton]
    unfold joined
    rw [List.foldl_cons, List.foldl_nil]
    split_ifs
    · rfl
    · rfl

theorem intercalate_flatMap_congr {f g : ι → List (List α)} {ks : List ι}
    (hf : ∀ k, ∀ x ∈ f k, x ≠ []) (hg : ∀ k, ∀ x ∈ g k, x ≠ [])
    (h : ∀ k ∈ ks, sep.intercalate (f k) = sep.intercalate (g k)) :
    sep.intercalate (ks.flatMap f) = sep.intercalate (ks.flatMap g) := by
  have hall : ∀ {f : ι → List (List α)} (ks : List ι), (∀ k, ∀ x ∈ f k, x ≠ []) →
      ∀ x ∈ ks.flatMap f, x ≠ [] := fun ks hf x hx => by
    obtain ⟨k, _, hx⟩ := List.mem_flatMap.mp hx
    exact hf k x hx
  induction ks with
  | nil => rfl
  | cons k ks ih =>
    rw [List.flatMap_cons, List.flatMap_cons, intercalate_append (hf k) (hall ks hf),
      intercalate_append (hg k) (hall ks hg), h k List.mem_cons_self,
      ih fun k hk => h k (List.mem_cons_of_mem _ hk)]

theorem intercalate_flatMap_at {f g : ι → List (List α)} {before after : List ι} {k : ι}
    (hf : ∀ k, ∀ x ∈ f k, x ≠ []) (hg : ∀ k, ∀ x ∈ g k, x ≠ [])
    (hbefore : ∀ k ∈ before, sep.intercalate (f k) = sep.intercalate (g k))
    (hafter : ∀ k ∈ after, sep.intercalate (f k) = sep.intercalate (g k))
    (h : sep.intercalate ((before ++ k :: after).flatMap f) =
      sep.intercalate ((before ++ k :: after).flatMap g)) :
    sep.intercalate (f k) = sep.intercalate (g k) := by
  have hsplit : ∀ {f : ι → List (List α)}, (∀ k, ∀ x ∈ f k, x ≠ []) →
      sep.intercalate ((before ++ k :: after).flatMap f) =
        joined sep (sep.intercalate (before.flatMap f))
          (joined sep (sep.intercalate (f k)) (sep.intercalate (after.flatMap f))) := fun hf => by
    have hall : ∀ ks : List ι, ∀ x ∈ ks.flatMap _, x ≠ [] := fun ks x hx => by
      obtain ⟨k, _, hx⟩ := List.mem_flatMap.mp hx
      exact hf k x hx
    rw [List.flatMap_append, intercalate_append (hall before) (hall (k :: after)),
      List.flatMap_cons, intercalate_append (hf k) (hall after)]
  rw [hsplit hf, hsplit hg, intercalate_flatMap_congr hf hg hbefore,
    intercalate_flatMap_congr hf hg hafter] at h
  exact joined_right_cancel (joined_left_cancel h)

end DevMgr.Joining
