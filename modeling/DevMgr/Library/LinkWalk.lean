import Mathlib.Data.List.Nodup
import Mathlib.Logic.Relation

/-!
# Walking a chain of links

Records are found by key and each may name the key of a next one. The walk takes
every key once, so it ends on a repeated key, on a key without a record or on a
record without a next. It visits exactly the records reachable along the links
as soon as its fuel exceeds the number of keys that have one.
-/

namespace DevMgr.LinkWalk

variable {ι α : Type} [DecidableEq ι] (lookup : ι → Option α) (next : α → Option ι)

/-- The records visited from a key and the keys taken, with those already taken before. -/
def walk : ℕ → List ι → ι → List α × List ι
  | 0, taken, _ => ([], taken)
  | fuel + 1, taken, i =>
    if i ∈ taken then ([], taken)
    else
      match lookup i with
      | none => ([], i :: taken)
      | some a =>
        match next a with
        | none => ([a], i :: taken)
        | some j =>
          let (visited, taken') := walk fuel (i :: taken) j
          (a :: visited, taken')

def Link (i j : ι) : Prop := ∃ a, lookup i = some a ∧ next a = some j

variable {lookup next}

theorem walk_taken {fuel : ℕ} {taken : List ι} {i : ι} (hi : i ∈ taken) :
    walk lookup next fuel taken i = ([], taken) := by
  cases fuel with
  | zero => rfl
  | succ fuel => rw [walk, if_pos hi]

theorem walk_none {fuel : ℕ} {taken : List ι} {i : ι} (hi : i ∉ taken) (h : lookup i = none) :
    walk lookup next (fuel + 1) taken i = ([], i :: taken) := by
  rw [walk, if_neg hi]
  simp only [h]

theorem walk_last {fuel : ℕ} {taken : List ι} {i : ι} {a : α} (hi : i ∉ taken)
    (h : lookup i = some a) (hn : next a = none) :
    walk lookup next (fuel + 1) taken i = ([a], i :: taken) := by
  rw [walk, if_neg hi]
  simp only [h, hn]

theorem walk_next {fuel : ℕ} {taken : List ι} {i j : ι} {a : α} (hi : i ∉ taken)
    (h : lookup i = some a) (hn : next a = some j) :
    walk lookup next (fuel + 1) taken i =
      (a :: (walk lookup next fuel (i :: taken) j).1,
        (walk lookup next fuel (i :: taken) j).2) := by
  rw [walk, if_neg hi]
  simp only [h, hn]

theorem walk_subset (fuel : ℕ) (taken : List ι) (i : ι) :
    taken ⊆ (walk lookup next fuel taken i).2 := by
  induction fuel generalizing taken i with
  | zero => exact fun _ h => h
  | succ fuel ih =>
    by_cases hi : i ∈ taken
    · rw [walk_taken hi]
      exact fun _ h => h
    · cases ha : lookup i with
      | none => rw [walk_none hi ha]; exact fun _ h => List.mem_cons_of_mem _ h
      | some a =>
        cases hn : next a with
        | none => rw [walk_last hi ha hn]; exact fun _ h => List.mem_cons_of_mem _ h
        | some j =>
          rw [walk_next hi ha hn]
          exact fun _ h => ih (i :: taken) j (List.mem_cons_of_mem _ h)

theorem start_taken (fuel : ℕ) (taken : List ι) (i : ι) :
    i ∈ (walk lookup next (fuel + 1) taken i).2 := by
  by_cases hi : i ∈ taken
  · rwa [walk_taken hi]
  · cases ha : lookup i with
    | none => rw [walk_none hi ha]; exact List.mem_cons_self
    | some a =>
      cases hn : next a with
      | none => rw [walk_last hi ha hn]; exact List.mem_cons_self
      | some j => rw [walk_next hi ha hn]; exact walk_subset _ _ _ List.mem_cons_self

theorem taken_visited (fuel : ℕ) (taken : List ι) (i : ι) :
    ∀ x ∈ (walk lookup next fuel taken i).2, x ∈ taken ∨ lookup x = none ∨
      ∃ a ∈ (walk lookup next fuel taken i).1, lookup x = some a := by
  induction fuel generalizing taken i with
  | zero => exact fun x hx => .inl hx
  | succ fuel ih =>
    by_cases hi : i ∈ taken
    · rw [walk_taken hi]
      exact fun x hx => .inl hx
    · cases ha : lookup i with
      | none =>
        rw [walk_none hi ha]
        rintro x hx
        rcases List.mem_cons.mp hx with rfl | hx
        · exact .inr (.inl ha)
        · exact .inl hx
      | some a =>
        cases hn : next a with
        | none =>
          rw [walk_last hi ha hn]
          rintro x hx
          rcases List.mem_cons.mp hx with rfl | hx
          · exact .inr (.inr ⟨a, List.mem_cons_self, ha⟩)
          · exact .inl hx
        | some j =>
          rw [walk_next hi ha hn]
          rintro x hx
          rcases ih (i :: taken) j x hx with hx | hx | ⟨b, hb, hx⟩
          · rcases List.mem_cons.mp hx with rfl | hx
            · exact .inr (.inr ⟨a, List.mem_cons_self, ha⟩)
            · exact .inl hx
          · exact .inr (.inl hx)
          · exact .inr (.inr ⟨b, List.mem_cons_of_mem _ hb, hx⟩)

section Keyed
variable {key : α → ι} (hkey : ∀ i a, lookup i = some a → key a = i)

include hkey

theorem walk_visited (fuel : ℕ) (taken : List ι) (i : ι) :
    ∀ a ∈ (walk lookup next fuel taken i).1, lookup (key a) = some a ∧ key a ∉ taken ∧
      key a ∈ (walk lookup next fuel taken i).2 ∧
      Relation.ReflTransGen (Link lookup next) i (key a) := by
  induction fuel generalizing taken i with
  | zero => simp [walk]
  | succ fuel ih =>
    by_cases hi : i ∈ taken
    · rw [walk_taken hi]
      simp
    · cases ha : lookup i with
      | none => rw [walk_none hi ha]; simp
      | some a =>
        have hka := hkey i a ha
        cases hn : next a with
        | none =>
          rw [walk_last hi ha hn]
          intro b hb
          obtain rfl := List.mem_singleton.mp hb
          rw [hka]
          exact ⟨ha, hi, List.mem_cons_self, .refl⟩
        | some j =>
          rw [walk_next hi ha hn]
          intro b hb
          rcases List.mem_cons.mp hb with rfl | hb
          · rw [hka]
            exact ⟨ha, hi, walk_subset _ _ _ List.mem_cons_self, .refl⟩
          · obtain ⟨hlook, hfree, htaken, hreach⟩ := ih (i :: taken) j b hb
            exact ⟨hlook, fun h => hfree (List.mem_cons_of_mem _ h), htaken,
              .head ⟨a, ha, hn⟩ hreach⟩

theorem walk_nodup (fuel : ℕ) (taken : List ι) (i : ι) :
    ((walk lookup next fuel taken i).1.map key).Nodup := by
  induction fuel generalizing taken i with
  | zero => simp [walk]
  | succ fuel ih =>
    by_cases hi : i ∈ taken
    · rw [walk_taken hi]
      simp
    · cases ha : lookup i with
      | none => rw [walk_none hi ha]; simp
      | some a =>
        cases hn : next a with
        | none => rw [walk_last hi ha hn]; simp
        | some j =>
          rw [walk_next hi ha hn, List.map_cons, List.nodup_cons]
          refine ⟨?_, ih _ _⟩
          rw [hkey i a ha]
          intro hmem
          obtain ⟨b, hb, hbi⟩ := List.mem_map.mp hmem
          exact (walk_visited hkey fuel (i :: taken) j b hb).2.1 (hbi ▸ List.mem_cons_self)

end Keyed

section Fuel
variable {keys : List ι} (hkeys : ∀ i a, lookup i = some a → i ∈ keys)

include hkeys

theorem free_lt {taken : List ι} {i : ι} {a : α} (hi : i ∉ taken) (ha : lookup i = some a) :
    (keys.filter (· ∉ i :: taken)).length < (keys.filter (· ∉ taken)).length := by
  have hmem : i ∈ keys.filter (· ∉ taken) := by simpa using ⟨hkeys i a ha, hi⟩
  have hfilter : keys.filter (· ∉ i :: taken) = (keys.filter (· ∉ taken)).filter
      (· ≠ i) := by
    rw [List.filter_filter]
    congr 1
    funext x
    simp [List.mem_cons, not_or]
  rw [hfilter]
  exact List.length_filter_lt_length_iff_exists.mpr ⟨i, hmem, by simp⟩

theorem walk_closed (next : α → Option ι) (fuel : ℕ) (taken : List ι) (i : ι)
    (hfuel : (keys.filter (· ∉ taken)).length < fuel) :
    ∀ x ∈ (walk lookup next fuel taken i).2, x ∈ taken ∨
      ∀ j, Link lookup next x j → j ∈ (walk lookup next fuel taken i).2 := by
  induction fuel generalizing taken i with
  | zero => exact absurd hfuel (Nat.not_lt_zero _)
  | succ fuel ih =>
    by_cases hi : i ∈ taken
    · rw [walk_taken hi]
      exact fun x hx => .inl hx
    · cases ha : lookup i with
      | none =>
        rw [walk_none hi ha]
        rintro x hx
        rcases List.mem_cons.mp hx with rfl | hx
        · exact .inr fun j ⟨b, hb, _⟩ => absurd (ha.symm.trans hb) (by simp)
        · exact .inl hx
      | some a =>
        cases hn : next a with
        | none =>
          rw [walk_last hi ha hn]
          rintro x hx
          rcases List.mem_cons.mp hx with rfl | hx
          · refine .inr fun j ⟨b, hb, hj⟩ => ?_
            rw [ha] at hb
            rw [← Option.some.inj hb, hn] at hj
            exact absurd hj (by simp)
          · exact .inl hx
        | some j =>
          have hlt := free_lt hkeys hi ha
          have hstart : j ∈ (walk lookup next fuel (i :: taken) j).2 := by
            cases fuel with
            | zero => omega
            | succ fuel => exact start_taken fuel _ j
          rw [walk_next hi ha hn]
          rintro x hx
          rcases ih (i :: taken) j (by omega) x hx with hx | hx
          · rcases List.mem_cons.mp hx with rfl | hx
            · refine .inr fun k ⟨b, hb, hk⟩ => ?_
              rw [ha] at hb
              rw [← Option.some.inj hb, hn] at hk
              rwa [← Option.some.inj hk]
            · exact .inl hx
          · exact .inr hx

theorem reachable_taken {fuel : ℕ} {i x : ι} (hfuel : keys.length < fuel)
    (hx : Relation.ReflTransGen (Link lookup next) i x) :
    x ∈ (walk lookup next fuel [] i).2 := by
  have hclosed := walk_closed hkeys next fuel [] i (by simpa using hfuel)
  induction hx with
  | refl =>
    cases fuel with
    | zero => omega
    | succ fuel => exact start_taken fuel [] i
  | tail _ hlink ih =>
    rcases hclosed _ ih with h | h
    · exact absurd h (by simp)
    · exact h _ hlink

end Fuel

/-- A run of the walk to its end: on a taken key, a key without a record or a last record. -/
inductive Walks (lookup : ι → Option α) (next : α → Option ι) :
    List ι → ι → List α → List ι → Prop where
  | repeated {taken : List ι} {i : ι} (hi : i ∈ taken) : Walks lookup next taken i [] taken
  | dangling {taken : List ι} {i : ι} (hi : i ∉ taken) (ha : lookup i = none) :
      Walks lookup next taken i [] (i :: taken)
  | last {taken : List ι} {i : ι} {a : α} (hi : i ∉ taken) (ha : lookup i = some a)
      (hn : next a = none) : Walks lookup next taken i [a] (i :: taken)
  | onward {taken taken' : List ι} {i j : ι} {a : α} {visited : List α} (hi : i ∉ taken)
      (ha : lookup i = some a) (hn : next a = some j)
      (hrest : Walks lookup next (i :: taken) j visited taken') :
      Walks lookup next taken i (a :: visited) taken'

omit [DecidableEq ι] in
theorem Walks.unique {taken : List ι} {i : ι} {v w : List α} {t u : List ι}
    (h : Walks lookup next taken i v t) (h' : Walks lookup next taken i w u) : v = w ∧ t = u := by
  induction h generalizing w u with
  | repeated hi => cases h' <;> first | exact ⟨rfl, rfl⟩ | contradiction
  | dangling hi ha =>
    cases h' with
    | repeated hi' => exact absurd hi' hi
    | dangling _ _ => exact ⟨rfl, rfl⟩
    | last _ ha' _ => exact absurd (ha.symm.trans ha') nofun
    | onward _ ha' _ _ => exact absurd (ha.symm.trans ha') nofun
  | last hi ha hn =>
    cases h' with
    | repeated hi' => exact absurd hi' hi
    | dangling _ ha' => exact absurd (ha'.symm.trans ha) nofun
    | last _ ha' _ =>
      obtain rfl := Option.some.inj (ha.symm.trans ha')
      exact ⟨rfl, rfl⟩
    | onward _ ha' hn' _ =>
      obtain rfl := Option.some.inj (ha.symm.trans ha')
      exact absurd (hn.symm.trans hn') nofun
  | onward hi ha hn _ ih =>
    cases h' with
    | repeated hi' => exact absurd hi' hi
    | dangling _ ha' => simp [ha] at ha'
    | last _ ha' hn' =>
      obtain rfl := Option.some.inj (ha.symm.trans ha')
      simp [hn] at hn'
    | onward _ ha' hn' hrest =>
      obtain rfl := Option.some.inj (ha.symm.trans ha')
      obtain rfl := Option.some.inj (hn.symm.trans hn')
      obtain ⟨rfl, rfl⟩ := ih hrest
      exact ⟨rfl, rfl⟩

omit [DecidableEq ι] in
theorem Walks.frame {taken taken' : List ι} {i : ι} {visited : List α} {t : List ι}
    (h : Walks lookup next taken i visited t)
    (hsame : ∀ x, Relation.ReflTransGen (Link lookup next) i x →
      (x ∈ taken ↔ x ∈ taken')) :
    ∃ t', Walks lookup next taken' i visited t' := by
  induction h generalizing taken' with
  | repeated hi => exact ⟨_, .repeated ((hsame _ .refl).mp hi)⟩
  | dangling hi ha => exact ⟨_, .dangling (fun h => hi ((hsame _ .refl).mpr h)) ha⟩
  | last hi ha hn => exact ⟨_, .last (fun h => hi ((hsame _ .refl).mpr h)) ha hn⟩
  | onward hi ha hn _ ih =>
    rename_i taken _ i j a _ _
    have hahead : ∀ x, Relation.ReflTransGen (Link lookup next) j x →
        (x ∈ i :: taken ↔ x ∈ i :: taken') := fun x hx => by
      simp only [List.mem_cons, hsame x (.head ⟨a, ha, hn⟩ hx)]
    obtain ⟨t', ht'⟩ := ih hahead
    exact ⟨t', .onward (fun h => hi ((hsame _ .refl).mpr h)) ha hn ht'⟩

section Chain
variable {key : α → ι} (hkey : ∀ i a, lookup i = some a → key a = i)

include hkey

omit [DecidableEq ι] in
theorem Walks.chain {taken t : List ι} {i : ι} {visited : List α}
    (h : Walks lookup next taken i visited t) :
    visited.IsChain (fun a b => next a = some (key b)) ∧
      (∀ a, visited.head? = some a → lookup i = some a) ∧
      (visited = [] → i ∈ taken ∨ lookup i = none) ∧
      ∀ a, visited.getLast? = some a → ∀ j, next a = some j →
        lookup j = none ∨ j ∈ taken ∨ j ∈ visited.map key := by
  induction h with
  | repeated hi => simp [hi]
  | dangling hi ha => simp [ha]
  | last hi ha hn => simp [ha, hn]
  | onward hi ha hn hrest ih =>
    rename_i taken _ i j a visited
    obtain ⟨hchain, hfirst, hempty, hstop⟩ := ih
    cases visited with
    | nil =>
      have hnext : j = i ∨ j ∈ taken ∨ lookup j = none := by
        rcases hempty rfl with h | h
        · rcases List.mem_cons.mp h with h | h
          · exact .inl h
          · exact .inr (.inl h)
        · exact .inr (.inr h)
      refine ⟨.singleton _, by simp [ha], by simp, fun b hb k hk => ?_⟩
      obtain rfl : a = b := by simpa using hb
      obtain rfl := Option.some.inj (hn.symm.trans hk)
      rcases hnext with rfl | h | h
      · exact .inr (.inr (by simp [hkey _ a ha]))
      · exact .inr (.inl h)
      · exact .inl h
    | cons b visited =>
      have hb : lookup j = some b := hfirst b rfl
      refine ⟨.cons_cons (by rw [hn, hkey j b hb]) hchain, by
        simp [ha], by simp, fun c hc k hk => ?_⟩
      have hc' : (b :: visited).getLast? = some c := by simpa using hc
      rcases hstop c hc' k hk with h | h | h
      · exact .inl h
      · rcases List.mem_cons.mp h with rfl | h
        · exact .inr (.inr (by simp [hkey _ a ha]))
        · exact .inr (.inl h)
      · exact .inr (.inr (List.mem_cons_of_mem _ h))

end Chain

section Fuel
variable {keys : List ι} (hkeys : ∀ i a, lookup i = some a → i ∈ keys)

include hkeys

theorem walk_walks (next : α → Option ι) (fuel : ℕ) (taken : List ι) (i : ι)
    (hfuel : (keys.filter (· ∉ taken)).length < fuel) :
    Walks lookup next taken i (walk lookup next fuel taken i).1
      (walk lookup next fuel taken i).2 := by
  induction fuel generalizing taken i with
  | zero => exact absurd hfuel (Nat.not_lt_zero _)
  | succ fuel ih =>
    by_cases hi : i ∈ taken
    · rw [walk_taken hi]
      exact .repeated hi
    · cases ha : lookup i with
      | none =>
        rw [walk_none hi ha]
        exact .dangling hi ha
      | some a =>
        cases hn : next a with
        | none =>
          rw [walk_last hi ha hn]
          exact .last hi ha hn
        | some j =>
          have hlt := free_lt hkeys hi ha
          rw [walk_next hi ha hn]
          exact .onward hi ha hn (ih (i :: taken) j (by omega))

theorem walk_ends (next : α → Option ι) {fuel : ℕ} (taken : List ι) (i : ι)
    (hfuel : keys.length < fuel) :
    Walks lookup next taken i (walk lookup next fuel taken i).1
      (walk lookup next fuel taken i).2 :=
  walk_walks hkeys next fuel taken i (Nat.lt_of_le_of_lt (List.length_filter_le _ _) hfuel)

end Fuel

def Path {κ : Type} (r : κ → κ → Prop) : κ → List κ → κ → Prop
  | i, [], j => i = j
  | i, x :: rest, j => x = i ∧ ∃ k, r i k ∧ Path r k rest j

section Path
variable {κ : Type} {r : κ → κ → Prop}

theorem Path.drop {i j k : κ} {l : List κ} (h : Path r i l j) (hk : k ∈ l) :
    ∃ rest, Path r k rest j ∧ rest <:+ l := by
  induction l generalizing i with
  | nil => exact absurd hk (by simp)
  | cons x rest ih =>
    obtain ⟨rfl, y, hr, hrest⟩ := h
    rcases List.mem_cons.mp hk with rfl | hk
    · exact ⟨k :: rest, ⟨rfl, y, hr, hrest⟩, List.suffix_rfl⟩
    · obtain ⟨short, hshort, hsuffix⟩ := ih hrest hk
      exact ⟨short, hshort, hsuffix.trans (List.suffix_cons x rest)⟩

theorem exists_path_nodup {i j : κ} (h : Relation.ReflTransGen r i j) :
    ∃ l, Path r i l j ∧ l.Nodup ∧ j ∉ l := by
  classical
  induction h using Relation.ReflTransGen.head_induction_on with
  | refl => exact ⟨[], rfl, List.nodup_nil, by simp⟩
  | head hr _ ih =>
    rename_i i k _
    obtain ⟨l, hl, hnodup, hj⟩ := ih
    by_cases hij : i = j
    · exact ⟨[], hij, List.nodup_nil, by simp⟩
    · by_cases hi : i ∈ l
      · obtain ⟨rest, hrest, hsuffix⟩ := hl.drop hi
        exact ⟨rest, hrest, hnodup.sublist hsuffix.sublist, fun h => hj (hsuffix.subset h)⟩
      · refine ⟨i :: l, ⟨rfl, k, hr, hl⟩, List.nodup_cons.mpr ⟨hi, hnodup⟩, ?_⟩
        simpa [Ne.symm hij] using hj

theorem Path.mono {s : κ → κ → Prop} {i j : κ} {l : List κ} (h : Path r i l j)
    (hs : ∀ x y, r x y → s x y) : Path s i l j := by
  induction l generalizing i with
  | nil => exact h
  | cons x rest ih =>
    obtain ⟨hx, y, hr, hrest⟩ := h
    exact ⟨hx, y, hs i y hr, ih hrest⟩

theorem Path.reachable {s : κ → κ → Prop} {i j : κ} {l : List κ} (h : Path r i l j)
    (hs : ∀ x ∈ l, ∀ y, r x y → s x y) : Relation.ReflTransGen s i j := by
  induction l generalizing i with
  | nil => exact h ▸ .refl
  | cons x rest ih =>
    obtain ⟨rfl, y, hr, hrest⟩ := h
    exact .head (hs x List.mem_cons_self y hr)
      (ih hrest fun z hz => hs z (List.mem_cons_of_mem _ hz))

end Path

def Acyclic {ι : Type} (r : ι → ι → Prop) : Prop := ∀ i, ¬ Relation.TransGen r i i

section Acyclic
variable {κ : Type} {r s : κ → κ → Prop}

theorem Acyclic.mono (hr : Acyclic r) (h : ∀ i j, s i j → r i j) : Acyclic s :=
  fun i hi => hr i (Relation.TransGen.mono h i i hi)

theorem Acyclic.of_rank (rank : κ → ℕ) (h : ∀ i j, r i j → rank j < rank i) :
    Acyclic r := by
  have hlt : ∀ i j, Relation.TransGen r i j → rank j < rank i := by
    intro i j hij
    induction hij with
    | single hr => exact h _ _ hr
    | tail _ hr ih => exact Nat.lt_trans (h _ _ hr) ih
  exact fun i hi => Nat.lt_irrefl _ (hlt i i hi)

theorem path_split {a b : κ} (h : ∀ i j, s i j → r i j ∨ i = a ∧ j = b) {i j : κ}
    (hij : Relation.TransGen s i j) : Relation.TransGen r i j ∨
      Relation.ReflTransGen r i a ∧ Relation.ReflTransGen r b j := by
  induction hij with
  | single hs =>
    rcases h _ _ hs with hr | ⟨rfl, rfl⟩
    · exact .inl (.single hr)
    · exact .inr ⟨.refl, .refl⟩
  | tail _ hs ih =>
    rcases h _ _ hs with hr | ⟨rfl, rfl⟩
    · rcases ih with hold | ⟨hto, hfrom⟩
      · exact .inl (hold.tail hr)
      · exact .inr ⟨hto, hfrom.tail hr⟩
    · rcases ih with hold | ⟨hto, _⟩
      · exact .inr ⟨hold.to_reflTransGen, .refl⟩
      · exact .inr ⟨hto, .refl⟩

theorem Acyclic.insert {a b : κ} (hr : Acyclic r) (h : ∀ i j, s i j → r i j ∨ i = a ∧ j = b)
    (hab : ¬ Relation.ReflTransGen r b a) : Acyclic s := by
  intro i hi
  rcases path_split h hi with hold | ⟨hto, hfrom⟩
  · exact hr i hold
  · exact hab (hfrom.trans hto)

end Acyclic

end DevMgr.LinkWalk
