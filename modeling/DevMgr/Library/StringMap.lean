import Mathlib.Data.List.Sort
import DevMgr.Library.Bytes

/-!
# Maps keyed by byte strings

`std::map<std::string, V>` is the extensional tree map of the standard library
under the byte order, so two maps with the same bindings are equal. Its binding
list is the iteration order of the C++ container, and the map is rebuilt from
that list without loss in either direction.
-/

namespace DevMgr.Bytes

abbrev StringMap (V : Type) := Std.ExtTreeMap Str V compare

variable {V : Type}

def KeySorted (l : List (Str × V)) : Prop := l.Pairwise fun a b => compare a.1 b.1 = .lt

theorem keySorted_of_keys {l : List (Str × V)}
    (h : (l.map Prod.fst).Pairwise fun a b => compare a b = .lt) : KeySorted l :=
  List.pairwise_map.mp h

theorem keySorted_toList (m : StringMap V) : KeySorted m.toList :=
  Std.ExtTreeMap.ordered_keys_toList

theorem KeySorted.distinct {l : List (Str × V)} (hl : KeySorted l) :
    l.Pairwise fun a b => ¬ compare a.1 b.1 = .eq :=
  hl.imp fun h => by simp [h]

theorem KeySorted.nodup {l : List (Str × V)} (hl : KeySorted l) : l.Nodup :=
  hl.imp fun {a b} h hab => by simp [hab] at h

theorem getElem?_ofList {l : List (Str × V)} (hl : KeySorted l) (k : Str) (v : V) :
    (Std.ExtTreeMap.ofList l compare)[k]? = some v ↔ (k, v) ∈ l := by
  constructor
  · intro h
    by_cases hk : (l.map Prod.fst).contains k = true
    · obtain ⟨⟨k', w⟩, hmem, hkw⟩ := List.mem_map.mp (List.contains_iff_mem.mp hk)
      simp only at hkw
      subst k'
      have hw : (Std.ExtTreeMap.ofList l compare)[k]? = some w :=
        Std.ExtTreeMap.getElem?_ofList_of_mem Std.ReflCmp.compare_self hl.distinct hmem
      rw [h, Option.some.injEq] at hw
      rwa [hw]
    · have hn : (Std.ExtTreeMap.ofList l compare)[k]? = none :=
        Std.ExtTreeMap.getElem?_ofList_of_contains_eq_false (by simpa using hk)
      rw [hn] at h
      exact absurd h (by simp)
  · exact Std.ExtTreeMap.getElem?_ofList_of_mem Std.ReflCmp.compare_self hl.distinct

theorem ofList_toList (m : StringMap V) : Std.ExtTreeMap.ofList m.toList compare = m := by
  apply Std.ExtTreeMap.ext_getElem?
  intro k
  apply Option.ext
  intro v
  rw [getElem?_ofList (keySorted_toList m), Std.ExtTreeMap.mem_toList_iff_getElem?_eq_some]

theorem toList_ofList {l : List (Str × V)} (hl : KeySorted l) :
    (Std.ExtTreeMap.ofList l compare : StringMap V).toList = l := by
  have hs := keySorted_toList (Std.ExtTreeMap.ofList l compare : StringMap V)
  have hp : (Std.ExtTreeMap.ofList l compare : StringMap V).toList.Perm l := by
    rw [List.perm_ext_iff_of_nodup hs.nodup hl.nodup]
    rintro ⟨k, v⟩
    rw [Std.ExtTreeMap.mem_toList_iff_getElem?_eq_some, getElem?_ofList hl]
  refine hp.eq_of_pairwise (fun a b _ _ hab hba => ?_) hs hl
  have hno : compare b.1 a.1 ≠ .lt := Std.OrientedCmp.not_lt_of_lt hab
  exact absurd hba hno

def unionKeys (m m' : StringMap V) : List Str :=
  (Std.ExtTreeSet.ofList (m.keys ++ m'.keys) compare).toList

@[simp] theorem mem_unionKeys {m m' : StringMap V} {k : Str} :
    k ∈ unionKeys m m' ↔ k ∈ m ∨ k ∈ m' := by
  rw [unionKeys, Std.ExtTreeSet.mem_toList, Std.ExtTreeSet.mem_ofList, List.contains_iff_mem,
    List.mem_append, Std.ExtTreeMap.mem_keys, Std.ExtTreeMap.mem_keys]

theorem unionKeys_sorted (m m' : StringMap V) :
    (unionKeys m m').Pairwise fun a b => compare a b = .lt :=
  Std.ExtTreeSet.ordered_toList

theorem unionKeys_comm (m m' : StringMap V) : unionKeys m m' = unionKeys m' m := by
  unfold unionKeys
  congr 1
  apply Std.ExtTreeSet.ext_mem
  intro k
  simp only [Std.ExtTreeSet.mem_ofList, List.contains_iff_mem, List.mem_append, or_comm]

theorem toList_eq_map_keys (m : StringMap V) (fallback : V) :
    m.toList = m.keys.map fun k => (k, m.getD k fallback) := by
  rw [← Std.ExtTreeMap.map_fst_toList_eq_keys, List.map_map]
  refine (List.map_id _).symm.trans (List.map_congr_left ?_)
  rintro ⟨k, v⟩ hmem
  have hvalue := Std.ExtTreeMap.mem_toList_iff_getElem?_eq_some.mp hmem
  simp [Std.ExtTreeMap.getD_eq_getD_getElem?, hvalue]

theorem keys_congr {m m' : StringMap V} (h : ∀ k : Str, k ∈ m ↔ k ∈ m') :
    m.keys = m'.keys := by
  have hperm : m.keys.Perm m'.keys := by
    rw [List.perm_ext_iff_of_nodup Std.ExtTreeMap.nodup_keys Std.ExtTreeMap.nodup_keys]
    intro k
    rw [Std.ExtTreeMap.mem_keys, Std.ExtTreeMap.mem_keys, h k]
  refine hperm.eq_of_pairwise (fun a b _ _ hab hba => ?_) Std.ExtTreeMap.ordered_keys
    Std.ExtTreeMap.ordered_keys
  have hno : compare b a ≠ .lt := Std.OrientedCmp.not_lt_of_lt hab
  exact absurd hba hno

theorem eq_of_getD_unionKeys {m m' : StringMap V} {fallback : V}
    (hm : ∀ k : Str, m[k]? ≠ some fallback) (hm' : ∀ k : Str, m'[k]? ≠ some fallback)
    (h : ∀ k ∈ unionKeys m m', m[k]?.getD fallback = m'[k]?.getD fallback) : m = m' := by
  refine Std.ExtTreeMap.ext_getElem? fun k => ?_
  by_cases hk : k ∈ unionKeys m m'
  · have hvalue := h k hk
    cases hb : m[k]? with
    | none =>
      cases ha : m'[k]? with
      | none => rfl
      | some a =>
        rw [hb, ha] at hvalue
        exact absurd (ha.trans (congrArg some hvalue.symm)) (hm' k)
    | some b =>
      cases ha : m'[k]? with
      | none =>
        rw [hb, ha] at hvalue
        exact absurd (hb.trans (congrArg some hvalue)) (hm k)
      | some a =>
        rw [hb, ha] at hvalue
        exact congrArg some hvalue
  · rw [mem_unionKeys, not_or] at hk
    rw [Std.ExtTreeMap.getElem?_eq_none hk.1, Std.ExtTreeMap.getElem?_eq_none hk.2]

end DevMgr.Bytes
