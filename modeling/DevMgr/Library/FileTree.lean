import DevMgr.Library.StringMap
import Mathlib.Data.List.TakeWhile

/-!
# Paths in a tree of files

Directories and regular files, without links. A path is what a system call is
given: bytes up to the first zero, with slashes, `.` and `..`; a place, the names
from the root down, is where it leads. A path that leads through something that
is no directory leads nowhere.
-/

namespace DevMgr.FileTree
open Bytes

abbrev Place := List Str

/-- What a directory entry can be called. -/
structure Plain (name : Str) : Prop where
  nonempty : name ≠ []
  notSelf : name ≠ str "."
  notParent : name ≠ str ".."
  noSlash : (47 : UInt8) ∉ name
  noZero : (0 : UInt8) ∉ name

def cString (path : Str) : Str := path.takeWhile (· ≠ 0)

def components (path : Str) : List Str := path.splitOn 47

def enter (p : Place) (component : Str) : Place :=
  if component = [] ∨ component = str "." then p
  else if component = str ".." then p.dropLast
  else p ++ [component]

variable (dirs : List Place)

def IsDir (p : Place) : Prop := p = [] ∨ p ∈ dirs

instance (p : Place) : Decidable (IsDir dirs p) := inferInstanceAs (Decidable (_ ∨ _))

def walk : Place → List Str → Option Place
  | p, [] => some p
  | p, component :: rest => if IsDir dirs p then walk (enter p component) rest else none

def resolve (path : Str) : Option Place :=
  if cString path = [] then none else walk dirs [] (components (cString path))

def missing : List Place → Place → List Str → List Place
  | _, _, [] => []
  | dirs, p, component :: rest =>
    let q := enter p component
    if IsDir dirs q then missing dirs q rest else q :: missing (dirs ++ [q]) q rest

def slot (path : Str) : Option Place :=
  (resolve dirs path).filter fun p => ¬ IsDir dirs p

def join (dir name : Str) : Str :=
  if name.head? = some 47 then name
  else if dir = [] ∨ dir.getLast? = some 47 then dir ++ name
  else dir ++ 47 :: name

variable {dirs} {p root : Place} {name path dir : Str}

theorem enter_plain (h : Plain name) : enter p name = p ++ [name] := by
  rw [enter, if_neg (not_or.mpr ⟨h.nonempty, h.notSelf⟩), if_neg h.notParent]

theorem components_plain (h : Plain name) : components name = [name] :=
  List.splitOn_eq_singleton h.noSlash

theorem components_append_slash (path rest : Str) :
    components (path ++ 47 :: rest) = components path ++ components rest :=
  List.splitOn_append_cons_self ..

theorem components_injective : Function.Injective components :=
  Function.LeftInverse.injective fun path => @List.intercalate_splitOn _ path _ _ 47

theorem mem_components {c : Str} {byte : UInt8} (hc : c ∈ components path) (hbyte : byte ∈ c) :
    byte ∈ path ∧ byte ≠ 47 := by
  unfold components at hc
  induction path generalizing c with
  | nil =>
    rw [List.splitOn_nil, List.mem_singleton] at hc
    rw [hc] at hbyte
    exact absurd hbyte List.not_mem_nil
  | cons x path ih =>
    rw [List.splitOn_cons_eq_if_modifyHead] at hc
    split_ifs at hc with hx
    · rcases List.mem_cons.mp hc with rfl | hc
      · exact absurd hbyte (by simp)
      · exact ⟨List.mem_cons_of_mem _ (ih hc hbyte).1, (ih hc hbyte).2⟩
    · obtain ⟨first, rest, hsplit⟩ := List.exists_cons_of_ne_nil (List.splitOn_ne_nil 47 path)
      rw [hsplit] at ih hc
      rcases List.mem_cons.mp hc with rfl | hc
      · rcases List.mem_cons.mp hbyte with rfl | hbyte
        · exact ⟨List.mem_cons_self .., by simpa using hx⟩
        · have hfirst := ih (List.mem_cons_self ..) hbyte
          exact ⟨List.mem_cons_of_mem _ hfirst.1, hfirst.2⟩
      · have hrest := ih (List.mem_cons_of_mem _ hc) hbyte
        exact ⟨List.mem_cons_of_mem _ hrest.1, hrest.2⟩

theorem components_prefix_iff {target : Str} :
    components target <+: components path ↔ path = target ∨ target ++ [47] <+: path := by
  constructor
  · rintro ⟨more, hmore⟩
    by_cases hnil : more = []
    · rw [hnil, List.append_nil] at hmore
      exact .inl (components_injective hmore).symm
    · have hplain : ∀ c ∈ more, (47 : UInt8) ∉ c := fun c hc hslash =>
        (mem_components (hmore ▸ List.mem_append_right _ hc) hslash).2 rfl
      have hrest : components ([47].intercalate more) = more :=
        List.splitOn_intercalate 47 hplain hnil
      have hpath : target ++ 47 :: [47].intercalate more = path :=
        components_injective (by rw [components_append_slash, hrest, hmore])
      exact .inr
        ⟨[47].intercalate more, by rw [List.append_assoc, List.singleton_append, hpath]⟩
  · rintro (rfl | ⟨rest, rfl⟩)
    · exact List.prefix_rfl
    · rw [List.append_assoc, List.singleton_append, components_append_slash]
      exact List.prefix_append ..

theorem components_rooted (rest : Str) : components (47 :: rest) = [] :: components rest :=
  components_append_slash [] rest

theorem walk_append (cs cs' : List Str) :
    walk dirs p (cs ++ cs') = (walk dirs p cs).bind fun q => walk dirs q cs' := by
  induction cs generalizing p with
  | nil => rfl
  | cons c cs ih =>
    simp only [List.cons_append, walk, ih]
    split_ifs <;> rfl

theorem isDir_append {made : List Place} (h : IsDir dirs p) : IsDir (dirs ++ made) p :=
  h.imp_right (List.mem_append_left made)

theorem missing_take {cs : List Str} (n : ℕ) :
    missing (dirs ++ (missing dirs p cs).take n) p cs = (missing dirs p cs).drop n := by
  induction cs generalizing dirs p n with
  | nil => simp [missing]
  | cons c cs ih =>
    by_cases hq : IsDir dirs (enter p c)
    · rw [missing, missing, if_pos hq, if_pos (isDir_append hq)]
      exact ih n
    · have hfirst : missing dirs p (c :: cs) =
          enter p c :: missing (dirs ++ [enter p c]) (enter p c) cs := if_neg hq
      cases n with
      | zero => simp
      | succ n =>
        have hmade : IsDir (dirs ++ (missing dirs p (c :: cs)).take (n + 1)) (enter p c) :=
          .inr (by simp [hfirst])
        rw [missing, if_pos hmade, hfirst, List.take_succ_cons, List.drop_succ_cons,
          List.append_cons]
        exact ih n

theorem missing_nil_iff {cs : List Str} (hp : IsDir dirs p) :
    missing dirs p cs = [] ↔ ∃ root, walk dirs p cs = some root ∧ IsDir dirs root := by
  induction cs generalizing p with
  | nil => simpa [missing, walk] using hp
  | cons c cs ih =>
    by_cases hq : IsDir dirs (enter p c)
    · rw [missing, walk, if_pos hq, if_pos hp]
      exact ih hq
    · rw [missing, walk, if_neg hq, if_pos hp]
      refine iff_of_false (List.cons_ne_nil _ _) fun ⟨root, hroot, hdir⟩ => hq ?_
      cases cs with
      | nil => exact Option.some.inj hroot ▸ hdir
      | cons c' cs =>
        rw [walk] at hroot
        rw [if_neg hq] at hroot
        cases hroot

theorem cString_of_not_mem (h : (0 : UInt8) ∉ path) : cString path = path :=
  List.takeWhile_eq_self_iff.mpr fun c hc => by simpa using fun heq : c = 0 => h (heq ▸ hc)

theorem cString_append_of_mem (h : (0 : UInt8) ∈ path) (rest : Str) :
    cString (path ++ rest) = cString path := by
  induction path with
  | nil => exact absurd h (by simp)
  | cons c path ih =>
    unfold cString at ih ⊢
    by_cases hc : c = 0
    · simp [hc]
    · have hmem : (0 : UInt8) ∈ path := (List.mem_cons.mp h).resolve_left (Ne.symm hc)
      simpa [hc] using ih hmem

theorem walk_plain {cs : List Str} (h : walk dirs p cs = some root) (hp : ∀ c ∈ p, Plain c)
    (hcs : ∀ c ∈ cs, (47 : UInt8) ∉ c ∧ (0 : UInt8) ∉ c) : ∀ c ∈ root, Plain c := by
  induction cs generalizing p with
  | nil => exact Option.some.inj h ▸ hp
  | cons c cs ih =>
    rw [walk] at h
    split_ifs at h
    refine ih h (fun c' hc' => ?_) fun c' hc' => hcs c' (List.mem_cons_of_mem _ hc')
    unfold enter at hc'
    split_ifs at hc' with hself hparent
    · exact hp c' hc'
    · exact hp c' (List.dropLast_subset p hc')
    · rcases List.mem_append.mp hc' with hc' | hc'
      · exact hp c' hc'
      · obtain rfl := List.mem_singleton.mp hc'
        obtain ⟨hslash, hzero⟩ := hcs c' (List.mem_cons_self ..)
        exact ⟨fun h => hself (.inl h), fun h => hself (.inr h), hparent, hslash, hzero⟩

theorem resolve_plain (h : resolve dirs path = some p) : ∀ c ∈ p, Plain c := by
  unfold resolve at h
  split_ifs at h
  refine walk_plain h nofun fun c hc =>
    ⟨fun hslash => (mem_components hc hslash).2 rfl, fun hzero => ?_⟩
  have hkept := List.mem_takeWhile_imp (mem_components hc hzero).1
  exact absurd hkept (by simp)

theorem slot_eq_some : slot dirs path = some p ↔ resolve dirs path = some p ∧
    ¬ IsDir dirs p := by
  simp [slot, Option.filter_eq_some_iff]

theorem walk_join (hplain : Plain name) (hroot : walk dirs [] (components dir) = some root)
    (h : walk dirs [] (components (dir ++ 47 :: name)) = some p) : p = root ++ [name] := by
  rw [components_append_slash, walk_append, hroot, components_plain hplain,
    Option.bind_some, walk] at h
  split_ifs at h
  exact (enter_plain hplain ▸ Option.some.inj h).symm

theorem Plain.join_noZero (h : Plain name) (hdir : (0 : UInt8) ∉ dir) :
    (0 : UInt8) ∉ dir ++ 47 :: name := by
  simp [hdir, h.noZero]

theorem slot_join (hplain : Plain name) (hroot : resolve dirs dir = some root)
    (hdir : IsDir dirs root) (hslot : slot dirs (join dir name) = some p) : p = root ++ [name] := by
  obtain ⟨hp, hpdir⟩ := slot_eq_some.mp hslot
  have hhead : name.head? ≠ some 47 := fun h => hplain.noSlash (List.mem_of_head? h)
  by_cases hzero : (0 : UInt8) ∈ dir
  · have hcut : cString (join dir name) = cString dir := by
      rw [join, if_neg hhead]
      split_ifs with hends
      · exact cString_append_of_mem hzero name
      · exact cString_append_of_mem hzero (47 :: name)
    have hsame : resolve dirs (join dir name) = resolve dirs dir := by
      rw [resolve, resolve, hcut]
    rw [hsame, hroot] at hp
    exact absurd (Option.some.inj hp ▸ hdir) hpdir
  · unfold resolve at hroot hp
    split_ifs at hroot hp with hdirEmpty hjoined
    rw [cString_of_not_mem hzero] at hroot hdirEmpty
    rw [join, if_neg hhead] at hp
    by_cases hslash : dir.getLast? = some 47
    · obtain ⟨parent, rfl⟩ := List.getLast?_eq_some_iff.mp hslash
      rw [if_pos (.inr hslash), List.append_assoc, List.singleton_append, cString_of_not_mem] at hp
      · refine walk_join hplain ?_ hp
        rw [components_append_slash, walk_append] at hroot
        obtain ⟨q, hq, hroot⟩ := Option.bind_eq_some_iff.mp hroot
        rw [hq]
        have hself : IsDir dirs q ∧ q = root := by simpa [components, walk, enter] using hroot
        rw [hself.2]
      · exact hplain.join_noZero fun h => hzero (List.mem_append_left _ h)
    · rw [if_neg (not_or.mpr ⟨hdirEmpty, hslash⟩), cString_of_not_mem] at hp
      · exact walk_join hplain hroot hp
      · exact hplain.join_noZero hzero

/-- The directories and the regular files with their contents. -/
structure Tree where
  dirs : List Place
  files : Std.ExtTreeMap Place Str compare
  plain : ∀ p ∈ files, ∀ name ∈ p, Plain name
  apart : ∀ p ∈ files, ¬ IsDir dirs p

namespace Tree
variable (T : Tree)

def content (path : Str) : Option Str := (resolve T.dirs path).bind fun p => T.files[p]?

def names (p : Place) : List (Str × Bool) :=
  let inside (q : Place) : Option Str := if q.dropLast = p then q.getLast? else none
  (T.files.keys.filterMap inside).map (·, true) ++ (T.dirs.filterMap inside).map (·, false)

def Has (path : Str) : Prop := ∃ root ∈ resolve T.dirs path, IsDir T.dirs root

instance (path : Str) : Decidable (T.Has path) :=
  inferInstanceAs (Decidable (∃ root ∈ resolve T.dirs path, IsDir T.dirs root))

def missing (path : Str) : List Place := FileTree.missing T.dirs [] (components (cString path))

def blocker (path : Str) : Option Place := (T.missing path).find? (· ∈ T.files)

def makeable (path : Str) : List Place := (T.missing path).takeWhile (· ∉ T.files)

/-- Of the directories on the way all are made, or as many as the system lets it make. -/
def createDirectories (stop : Option ℕ) (path : Str) : Tree where
  dirs := T.dirs ++ match stop with
    | none => T.makeable path
    | some n => (T.makeable path).take n
  files := T.files
  plain := T.plain
  apart p hp hdir := by
    have hfree : p ∉ T.makeable path := fun hmade => by
      simpa [hp] using List.mem_takeWhile_imp hmade
    rcases hdir with hroot | hmem
    · exact T.apart p hp (.inl hroot)
    · rcases List.mem_append.mp hmem with hmem | hmade
      · exact T.apart p hp (.inr hmem)
      · split at hmade
        · exact hfree hmade
        · exact hfree (List.mem_of_mem_take hmade)

def create (path content : Str) : Tree :=
  match h : slot T.dirs path with
  | none => T
  | some p => { T with
    files := T.files.insert p content
    plain := fun q hq => by
      rcases Std.ExtTreeMap.mem_insert.mp hq with heq | hq
      · exact Std.LawfulEqCmp.eq_of_compare heq ▸ resolve_plain (slot_eq_some.mp h).1
      · exact T.plain q hq
    apart := fun q hq => by
      rcases Std.ExtTreeMap.mem_insert.mp hq with heq | hq
      · exact Std.LawfulEqCmp.eq_of_compare heq ▸ (slot_eq_some.mp h).2
      · exact T.apart q hq }

def erase (p : Place) : Tree where
  dirs := T.dirs
  files := T.files.erase p
  plain q hq := T.plain q (Std.ExtTreeMap.mem_of_mem_erase hq)
  apart q hq := T.apart q (Std.ExtTreeMap.mem_of_mem_erase hq)

variable {T}

@[simp] theorem create_dirs (content : Str) : (T.create path content).dirs = T.dirs := by
  unfold create
  split <;> rfl

@[simp] theorem erase_dirs : (T.erase p).dirs = T.dirs := rfl

theorem missing_append {T' : Tree} {path : Str} {n : ℕ}
    (h : T'.dirs = T.dirs ++ (T.missing path).take n) :
    T'.missing path = (T.missing path).drop n := by
  rw [missing, h]
  exact missing_take n

theorem makeable_eq_take (path : Str) :
    T.makeable path = (T.missing path).take (T.makeable path).length :=
  (List.prefix_iff_eq_take.mp (List.takeWhile_prefix _))

theorem has_iff (hpath : cString path ≠ []) : T.Has path ↔ T.missing path = [] := by
  rw [missing, missing_nil_iff (.inl rfl), Has, resolve, if_neg hpath]
  rfl

theorem Has.makeable_nil (h : T.Has path) : T.makeable path = [] := by
  have hpath : cString path ≠ [] := fun hempty => by
    obtain ⟨root, hroot, _⟩ := h
    rw [resolve, if_pos hempty] at hroot
    cases hroot
  rw [makeable, (has_iff hpath).mp h, List.takeWhile_nil]

@[simp] theorem createDirectories_files (stop : Option ℕ) (path : Str) :
    (T.createDirectories stop path).files = T.files := rfl

theorem createDirectories_zero (path : Str) : T.createDirectories (some 0) path = T := by
  cases T
  simp [createDirectories]

theorem createDirectories_dirs (stop : Option ℕ) (path : Str) :
    ∃ n, (T.createDirectories stop path).dirs = T.dirs ++ (T.makeable path).take n := by
  cases stop with
  | none => exact ⟨(T.makeable path).length, by rw [List.take_length]; rfl⟩
  | some n => exact ⟨n, rfl⟩

theorem Has.createDirectories_dirs {path : Str} (h : T.Has path) (stop : Option ℕ) :
    (T.createDirectories stop path).dirs = T.dirs := by
  obtain ⟨n, hn⟩ := T.createDirectories_dirs stop path
  rw [hn, h.makeable_nil, List.take_nil, List.append_nil]

theorem blocker_none {path : Str} (h : (T.createDirectories none path).Has path) :
    T.blocker path = none := by
  have hpath : cString path ≠ [] := fun hempty => by
    obtain ⟨root, hroot, _⟩ := h
    rw [resolve, if_pos hempty] at hroot
    cases hroot
  have hmissing := (has_iff hpath).mp h
  rw [missing_append (congrArg (T.dirs ++ ·) (makeable_eq_take path))] at hmissing
  have hall : T.makeable path = T.missing path := by
    rw [makeable_eq_take, List.take_of_length_le (List.drop_eq_nil_iff.mp hmissing)]
  rw [blocker, List.find?_eq_none]
  intro p hp
  rw [← hall] at hp
  simpa using List.mem_takeWhile_imp hp

theorem makeable_append {T' : Tree} {path : Str} {n : ℕ}
    (hdirs : T'.dirs = T.dirs ++ (T.makeable path).take n)
    (hblocker : ∀ p, T.blocker path = some p → p ∈ T'.files) :
    T'.makeable path <+: (T.makeable path).drop n := by
  have hsplit : T.missing path = T.makeable path ++ (T.missing path).dropWhile (· ∉ T.files) :=
    List.takeWhile_append_dropWhile.symm
  have hmissing : T'.missing path = (T.makeable path).drop n ++
      (T.missing path).dropWhile (· ∉ T.files) := by
    rw [makeable_eq_take, List.take_take] at hdirs
    rw [missing_append hdirs]
    nth_rewrite 1 [hsplit]
    rw [List.drop_append_of_le_length (Nat.min_le_right _ _)]
    congr 1
    rcases Nat.le_total n (T.makeable path).length with hle | hle
    · rw [Nat.min_eq_left hle]
    · rw [Nat.min_eq_right hle, List.drop_length, List.drop_eq_nil_of_le hle]
  have hstop : ((T.missing path).dropWhile (· ∉ T.files)).takeWhile (· ∉ T'.files) = [] := by
    cases hrest : (T.missing path).dropWhile (· ∉ T.files) with
    | nil => rfl
    | cons p rest =>
      have hp : T.blocker path = some p := by
        rw [blocker, List.find?_eq_head?_dropWhile_not]
        simpa only [decide_not, List.head?_cons] using congrArg List.head? hrest
      rw [List.takeWhile_cons_of_neg (by simpa using hblocker p hp)]
  rw [makeable, hmissing, List.takeWhile_append, hstop]
  split_ifs
  · rw [List.append_nil]
  · exact List.takeWhile_prefix _

theorem create_other {content : Str} (h : slot T.dirs path ≠ some p) :
    (T.create path content).files[p]? = T.files[p]? := by
  unfold create
  split
  · rfl
  · next q hq =>
    have hne : q ≠ p := fun heq => h (heq ▸ hq)
    simp [Std.ExtTreeMap.getElem?_insert, hne]

theorem erase_other {q : Place} (h : q ≠ p) : (T.erase p).files[q]? = T.files[q]? := by
  simp [erase, Std.ExtTreeMap.getElem?_erase, h.symm]

theorem names_plain (h : (name, true) ∈ T.names p) : Plain name := by
  obtain ⟨q, hq, hname⟩ :
    ∃ q ∈ T.files.keys, (if q.dropLast = p then q.getLast? else none) = some name := by
    simpa [names] using h
  split_ifs at hname
  exact T.plain q (Std.ExtTreeMap.mem_keys.mp hq) name (List.mem_of_getLast? hname)

end Tree

end DevMgr.FileTree
