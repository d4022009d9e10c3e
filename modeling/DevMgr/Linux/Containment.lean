import DevMgr.Daemon.Enabling
import DevMgr.Linux.CabResolver
import DevMgr.Linux.SysfsDeviceController

/-!
# What counts as inside a directory

Three checks ask whether a canonical path lies under a root. Each makes the path
relative to the root and looks at the text of that: two dots at its start stand for
a way up, and for a name that happens to begin with them.
-/

open DevMgr.Core

namespace DevMgr.Linux
open Bytes Daemon Program

def names (path : Str) : List Str := (FileTree.components path).filter (· ≠ [])

structure Canonical (path : Str) : Prop where
  absolute : path.head? = some 47
  noSelf : str "." ∉ names path
  noParent : str ".." ∉ names path

def Inside (path root : Str) : Prop := names root <+: names path

instance (path root : Str) : Decidable (Inside path root) := inferInstanceAs (Decidable (_ <+: _))

/-- Below the root the way goes through a name that begins with two dots. -/
def DotsBelow (path root : Str) : Prop :=
  ∃ name more, names path = names root ++ name :: more ∧ str ".." <+: name

variable {path root : Str}

theorem mem_names {name : Str} (h : name ∈ names path) :
    name ≠ [] ∧ (47 : UInt8) ∉ name := by
  obtain ⟨hmem, hne⟩ := List.mem_filter.mp h
  refine ⟨of_decide_eq_true hne, ?_⟩
  intro hslash
  exact (FileTree.mem_components hmem hslash).2 rfl

theorem pathElements_absolute (h : path.head? = some 47) :
    ∃ last, (last = [] ∨ last = [[]]) ∧ pathElements path = [47] :: (names path ++ last) := by
  refine ⟨if names path ≠ [] ∧ path.getLast? = some 47 then [[]] else [], ?_, ?_⟩
  · split_ifs
    · exact .inr rfl
    · exact .inl rfl
  · unfold pathElements
    rw [if_pos h]
    rfl

theorem mismatch_append (common as bs : List Str) :
    mismatch (common ++ as) (common ++ bs) = mismatch as bs := by
  induction common with
  | nil => rfl
  | cons name common ih =>
    rw [List.cons_append, List.cons_append, mismatch, if_pos rfl, ih]

theorem stripCommon_eq (as bs : List Str) : stripCommon as bs = mismatch as bs := by
  induction as generalizing bs with
  | nil => cases bs <;> rfl
  | cons a as ih =>
    cases bs with
    | nil => rfl
    | cons b bs =>
      rw [stripCommon, mismatch, ih]

theorem mismatch_outside {as bs : List Str} {last : List Str} (hlast : last = [] ∨ last = [[]])
    (last' : List Str) (hbs : ∀ b ∈ bs, b ≠ []) (h : ¬ bs <+: as) :
    ∃ name more, (mismatch (as ++ last) (bs ++ last')).2 = name :: more ∧ name ∈ bs ∧
    more ⊆ bs ++ last' := by
  induction bs generalizing as with
  | nil => exact absurd List.nil_prefix h
  | cons b bs ih =>
    have hb : b ≠ [] := hbs b List.mem_cons_self
    cases as with
    | nil =>
      have hhead : (mismatch ([] ++ last) (b :: bs ++ last')).2 = b :: (bs ++ last') := by
        rcases hlast with rfl | rfl
        · rfl
        · rw [List.nil_append, List.cons_append, mismatch, if_neg (Ne.symm hb)]
      exact ⟨b, bs ++ last', hhead, List.mem_cons_self, List.subset_cons_self ..⟩
    | cons a as =>
      by_cases hsame : a = b
      · subst hsame
        have hrest : ¬ bs <+: as := by
          intro hprefix
          exact h (List.cons_prefix_cons.mpr ⟨rfl, hprefix⟩)
        obtain ⟨name, more, hmore, hname, hsubset⟩ :=
          ih (fun b' hb' => hbs b' (List.mem_cons_of_mem _ hb')) hrest
        refine ⟨name, more, ?_, List.mem_cons_of_mem _ hname, ?_⟩
        · rw [List.cons_append, List.cons_append, mismatch, if_pos rfl]
          exact hmore
        · exact fun e he => List.mem_cons_of_mem _ (hsubset he)
      · refine ⟨b, bs ++ last', ?_, List.mem_cons_self, List.subset_cons_self ..⟩
        rw [List.cons_append, List.cons_append, mismatch, if_neg hsame]

def Leads (name text : Str) : Prop := text = name ∨ name ++ [47] <+: text

theorem Leads.dots_iff {name text : Str} (h : Leads name text) (hne : name ≠ [])
    (hself : name ≠ str ".")
    (hslash : (47 : UInt8) ∉ name) : str ".." <+: text ↔ str ".." <+: name := by
  have hdots : str ".." = [46, 46] := by decide
  have hdot : str "." = [46] := by decide
  rw [hdots]
  rw [hdot] at hself
  rcases h with rfl | ⟨rest, rfl⟩
  · exact Iff.rfl
  · match name with
    | [] => exact absurd rfl hne
    | [c] =>
      simp only [List.mem_singleton] at hslash
      simp
    | c :: c' :: name => simp

def Joins (joined : List Str → Str) : Prop :=
  ∀ name rest, name ≠ [] → (47 : UInt8) ∉ name → (∀ e ∈ rest, e.head? ≠ some 47) →
  Leads name (joined (name :: rest))

theorem joins_intercalate : Joins fun elements => [47].intercalate elements := by
  intro name rest _ _ _
  cases rest with
  | nil => exact .inl (by simp)
  | cons e rest =>
    right
    refine ⟨[47].intercalate (e :: rest), ?_⟩
    simp

theorem join_leads {dir name : Str} (hname : name.head? ≠ some 47) :
    dir <+: FileTree.join dir name := by
  unfold FileTree.join
  rw [if_neg hname]
  split_ifs
  · exact List.prefix_append ..
  · exact List.prefix_append ..

theorem foldl_pathAppend_leads {elements : List Str} {dir : Str}
    (h : ∀ e ∈ elements, e.head? ≠ some 47) :
    dir <+: elements.foldl pathAppend dir := by
  induction elements generalizing dir with
  | nil => exact List.prefix_rfl
  | cons e elements ih =>
    have hfirst : dir <+: pathAppend dir e := by
      unfold pathAppend
      split_ifs with hempty
      · rw [hempty]
        exact List.nil_prefix
      · exact join_leads (h e List.mem_cons_self)
    exact hfirst.trans (ih fun e' he' => h e' (List.mem_cons_of_mem _ he'))

theorem joins_pathAppend : Joins fun elements => elements.foldl pathAppend [] := by
  intro name rest hne hslash hrest
  change Leads name (rest.foldl pathAppend (pathAppend [] name))
  have hstart : pathAppend [] name = name := if_pos rfl
  rw [hstart]
  cases rest with
  | nil => exact .inl rfl
  | cons e rest =>
    right
    have hlast : name.getLast? ≠ some 47 := by
      intro hlast
      exact hslash (List.mem_of_getLast? hlast)
    have hsecond : pathAppend name e = name ++ 47 :: e := by
      rw [pathAppend, if_neg hne, FileTree.join, if_neg (hrest e List.mem_cons_self),
        if_neg (not_or.mpr ⟨hne, hlast⟩)]
    have htail : pathAppend name e <+: rest.foldl pathAppend (pathAppend name e) :=
      foldl_pathAppend_leads fun e' he' => hrest e' (List.mem_cons_of_mem _ he')
    refine List.IsPrefix.trans ?_ htail
    rw [hsecond]
    exact ⟨e, by simp⟩

def relativeWith (joined : List Str → Str) (stripped : List Str × List Str) : Str :=
  if stripped.1 = [] ∧ stripped.2 = [] then str "."
  else if levelsUp stripped.2 = 0 ∧ stripped.1.head?.getD [] = [] then str "."
  else if 0 ≤ levelsUp stripped.2 then
    joined (List.replicate (levelsUp stripped.2).toNat (str "..") ++ stripped.1)
  else []

theorem relative_daemon (hpath : path.head? = some 47) (hroot : root.head? = some 47) :
    Daemon.lexicallyRelative path root =
      relativeWith (fun elements => [47].intercalate elements)
        (mismatch (pathElements path) (pathElements root)) := by
  rw [Daemon.lexicallyRelative, stripCommon_eq, if_neg (by simp [hpath, hroot])]
  rfl

theorem relative_cab (hpath : path.head? = some 47) (hroot : root.head? = some 47) :
    lexicallyRelative path root =
      relativeWith (fun elements => elements.foldl pathAppend [])
        (mismatch (pathElements path) (pathElements root)) := by
  have hlevels : ∀ l : List Str, (l.map fun p => if p = str ".." then (-1 : ℤ)
      else if p ≠ [] ∧ p ≠ str "." then 1 else 0).sum = levelsUp l := by
    intro l
    unfold levelsUp
    congr 1
    apply List.map_congr_left
    intro p _
    split_ifs with hup hnamed hblank hblank
    · rfl
    · exact absurd hblank (not_or.mpr hnamed)
    · rfl
    · rfl
    · exact absurd (not_or.mp hblank) hnamed
  have habsolute : isAbsolute path = isAbsolute root := by
    simp [isAbsolute, hpath, hroot]
  unfold lexicallyRelative relativeWith
  rw [if_neg (not_not.mpr habsolute)]
  simp only [hlevels]

def Accepted (rel : Str) : Prop := rel ≠ [] ∧ ¬ str ".." <+: rel

instance (rel : Str) : Decidable (Accepted rel) := inferInstanceAs (Decidable (_ ∧ _))

theorem levelsUp_cons (name : Str) (more : List Str) :
    levelsUp (name :: more) = (if name = str ".." then -1 else if name = [] ∨
      name = str "." then 0 else 1) +
      levelsUp more := by
  simp [levelsUp]

theorem levelsUp_nonneg {l : List Str} (h : str ".." ∉ l) : 0 ≤ levelsUp l := by
  induction l with
  | nil => decide
  | cons name l ih =>
    rw [List.mem_cons, not_or] at h
    have hrest := ih h.2
    rw [levelsUp_cons, if_neg (Ne.symm h.1)]
    split_ifs <;> omega

theorem mismatch_suffix (as bs : List Str) : (mismatch as bs).1 <:+ as := by
  induction as generalizing bs with
  | nil => cases bs <;> exact List.suffix_rfl
  | cons a as ih =>
    cases bs with
    | nil => exact List.suffix_rfl
    | cons b bs =>
      rw [mismatch]
      split_ifs
      · exact (ih bs).trans (List.suffix_cons a as)
      · exact List.suffix_rfl

theorem not_slash_led {last : List Str} (hlast : last = [] ∨ last = [[]]) {e : Str}
    (he : e ∈ names path ++ last) : e.head? ≠ some 47 := by
  intro hslash
  rcases List.mem_append.mp he with hname | hend
  · exact (mem_names hname).2 (List.mem_of_head? hslash)
  · rcases hlast with rfl | rfl
    · cases hend
    · rw [List.mem_singleton.mp hend] at hslash
      cases hslash

variable {joined : List Str → Str}

theorem not_accepted_outside (hjoins : Joins joined) (hpath : path.head? = some 47)
    (hroot : Canonical root) (houtside : ¬ Inside path root) :
    ¬ Accepted (relativeWith joined (mismatch (pathElements path) (pathElements root))) := by
  obtain ⟨last, hlast, helements⟩ := pathElements_absolute hpath
  obtain ⟨last', hlast', helements'⟩ := pathElements_absolute hroot.absolute
  have hstrip : mismatch (pathElements path) (pathElements root) =
      mismatch (names path ++ last) (names root ++ last') := by
    rw [helements, helements', mismatch, if_pos rfl]
  obtain ⟨name, more, hrest, hname, hmore⟩ :=
    mismatch_outside hlast last' (fun b hb => (mem_names hb).1) houtside
  have hplain : str ".." ∉ more := by
    intro hmem
    rcases List.mem_append.mp (hmore hmem) with hnames | hend
    · exact hroot.noParent hnames
    · rcases hlast' with rfl | rfl
      · cases hend
      · exact absurd (List.mem_singleton.mp hend) (by decide)
  have hup : name ≠ str ".." := fun h => hroot.noParent (h ▸ hname)
  have hself : name ≠ str "." := fun h => hroot.noSelf (h ▸ hname)
  have hlevels : 0 < levelsUp (name :: more) := by
    have hmoreLevels := levelsUp_nonneg hplain
    rw [levelsUp_cons, if_neg hup, if_neg (not_or.mpr ⟨(mem_names hname).1, hself⟩)]
    omega
  rw [hstrip, relativeWith, hrest, if_neg (by simp), if_neg (by omega), if_pos hlevels.le]
  obtain ⟨k, hk⟩ : ∃ k, (levelsUp (name :: more)).toNat = k + 1 :=
    ⟨(levelsUp (name :: more)).toNat - 1, by omega⟩
  rw [hk, List.replicate_succ, List.cons_append]
  intro haccepted
  apply haccepted.2
  have hleads : Leads (str "..") (joined (str ".." ::
      (List.replicate k (str "..") ++
        (mismatch (names path ++ last) (names root ++ last')).1))) := by
    apply hjoins _ _ (by decide) (by decide)
    intro e he
    rcases List.mem_append.mp he with hdots | hleft
    · rw [(List.mem_replicate.mp hdots).2]
      decide
    · exact not_slash_led hlast ((mismatch_suffix _ _).subset hleft)
  rcases hleads with htext | htext
  · rw [htext]
  · exact (List.prefix_append _ _).trans htext

theorem relativeWith_self {last last' : List Str} (hlast : last = [] ∨ last = [[]])
    (hlast' : last' = [] ∨ last' = [[]]) : relativeWith joined
      (mismatch last last') = str "." := by
  rcases hlast with rfl | rfl
  · rcases hlast' with rfl | rfl <;> rfl
  · rcases hlast' with rfl | rfl <;> rfl

theorem relativeWith_below {last' : List Str} {name : Str} (hlast' : last' = [] ∨ last' = [[]])
    (hne : name ≠ [])
    (rest : List Str) : relativeWith joined (mismatch (name :: rest) last') = joined
      (name :: rest) := by
  have hpair : mismatch (name :: rest) last' = (name :: rest, last') := by
    rcases hlast' with rfl | rfl
    · rfl
    · rw [mismatch, if_neg hne]
  have hlevels : levelsUp last' = 0 := by
    rcases hlast' with rfl | rfl <;> decide
  rw [hpair, relativeWith, hlevels, if_neg (by simp), if_neg (by simp [hne]), if_pos le_rfl]
  rfl

theorem dotsBelow_iff {name : Str} {rest : List Str}
    (hnames : names root ++ name :: rest = names path) :
    DotsBelow path root ↔ str ".." <+: name := by
  constructor
  · intro ⟨name', rest', hnames', hprefix⟩
    rw [← hnames, List.append_right_inj] at hnames'
    obtain ⟨rfl, _⟩ := List.cons.inj hnames'
    exact hprefix
  · exact fun h => ⟨name, rest, hnames.symm, h⟩

theorem accepted_iff (hjoins : Joins joined) (hpath : Canonical path) (hroot : Canonical root) :
    Accepted (relativeWith joined (mismatch (pathElements path) (pathElements root))) ↔
      Inside path root ∧ ¬ DotsBelow path root := by
  by_cases hinside : Inside path root
  · obtain ⟨more, hmore⟩ := hinside
    obtain ⟨last, hlast, helements⟩ := pathElements_absolute hpath.absolute
    obtain ⟨last', hlast', helements'⟩ := pathElements_absolute hroot.absolute
    have hstrip : mismatch (pathElements path) (pathElements root) = mismatch
        (more ++ last) last' := by
      rw [helements, helements', mismatch, if_pos rfl, ← hmore, List.append_assoc,
        mismatch_append]
    rw [hstrip]
    cases more with
    | nil =>
      rw [List.nil_append, relativeWith_self hlast hlast']
      constructor
      · intro _
        refine ⟨⟨[], hmore⟩, ?_⟩
        intro ⟨name, rest, hnames, _⟩
        rw [← hmore, List.append_right_inj] at hnames
        cases hnames
      · exact fun _ => ⟨by decide, by decide⟩
    | cons name rest =>
      have hmem : name ∈ names path := by
        rw [← hmore]
        exact List.mem_append_right _ List.mem_cons_self
      obtain ⟨hne, hslash⟩ := mem_names hmem
      have hleads : Leads name (joined (name :: (rest ++ last))) := by
        have hled : ∀ e ∈ names path ++ last, e.head? ≠ some 47 :=
          fun e => not_slash_led hlast
        apply hjoins _ _ hne hslash
        intro e he
        apply hled
        rw [← hmore]
        simp only [List.mem_append, List.mem_cons] at he ⊢
        exact he.imp_left fun h => .inr (.inr h)
      have hdots := hleads.dots_iff hne (fun h => hpath.noSelf (h ▸ hmem)) hslash
      have htext : joined (name :: (rest ++ last)) ≠ [] := by
        intro hempty
        rcases hleads with htext | htext
        · exact hne (htext.symm.trans hempty)
        · rw [hempty, List.prefix_nil] at htext
          simp at htext
      rw [List.cons_append, relativeWith_below hlast' hne, Accepted, hdots, dotsBelow_iff hmore]
      exact ⟨fun h => ⟨⟨_, hmore⟩, h.2⟩, fun h => ⟨htext, h.2⟩⟩
  · exact iff_of_false (not_accepted_outside hjoins hpath.absolute hroot hinside) fun h =>
      hinside h.1

variable {W : Type} {J : Json.Codec} {P : Platform W} {t : Thread} {s : State W}
  {sysfsRoot sysfsPath : Str}

def outsideRoot (sysfsPath : Str) : Error :=
  ⟨.notFound, str "path outside sysfs root: " ++ sysfsPath⟩

theorem outsideRoot_ne_absent :
    (⟨.notFound, str "device no longer present: " ++ sysfsPath⟩ : Error) ≠
      outsideRoot sysfsPath := by
  intro h
  have htext := List.append_cancel_right (congrArg Error.message h)
  revert htext
  decide

theorem canonicalContained_outside_iff (hpath : P.weaklyCanonical s.world sysfsPath = some path)
    (hroot : P.weaklyCanonical s.world sysfsRoot = some root) :
    Leaves (respond J P t) (canonicalContained sysfsRoot sysfsPath).run s fun r _ =>
      r = .error (outsideRoot sysfsPath) ↔ ¬ Accepted (Daemon.lexicallyRelative path root) := by
  refine leaves_step.mpr (leaves_lift.mpr (leaves_call.mpr ?_))
  simp only [respond, hpath]
  refine leaves_step.mpr (leaves_lift.mpr (leaves_call.mpr ?_))
  simp only [respond, hroot, Option.isNone_some, Bool.false_eq_true, Option.getD_some, false_or]
  by_cases hrel : Daemon.lexicallyRelative path root = [] ∨
      str ".." <+: Daemon.lexicallyRelative path root
  · rw [if_pos hrel]
    refine leaves_step.mpr (leaves_throw.mpr (iff_of_true rfl ?_))
    intro haccepted
    exact hrel.elim haccepted.1 haccepted.2
  · rw [if_neg hrel]
    rw [not_or] at hrel
    refine leaves_step.mpr (leaves_lift.mpr (leaves_call.mpr ?_))
    dsimp only
    by_cases hdirectory : (respond J P t (.isDirectory path) s).1 = true
    · rw [if_neg (not_not.mpr hdirectory)]
      refine leaves_done.mpr (iff_of_false ?_ (not_not.mpr hrel))
      intro h
      cases h
    · rw [if_pos hdirectory]
      refine leaves_step.mpr (leaves_throw.mpr (iff_of_false ?_ (not_not.mpr hrel)))
      exact fun h => outsideRoot_ne_absent (Except.error.inj h)

theorem canonicalDevice_outside_iff {k : W} (hpath : P.weaklyCanonical k sysfsPath = some path)
    (hroot : P.weaklyCanonical k sysfsRoot = some root) :
    canonicalDevice P sysfsRoot k sysfsPath = .error (outsideRoot sysfsPath) ↔
      ¬ Accepted (Daemon.lexicallyRelative path root) := by
  have hcontained : isContained path root = true ↔
      Accepted (Daemon.lexicallyRelative path root) := by
    simp [isContained, Accepted]
  unfold canonicalDevice
  simp only [hpath, hroot, Option.any_some, hcontained]
  by_cases haccepted : Accepted (Daemon.lexicallyRelative path root)
  · rw [if_neg (not_not.mpr haccepted)]
    refine iff_of_false ?_ (not_not.mpr haccepted)
    by_cases hdirectory : P.isDirectory k path = true
    · rw [if_neg (not_not.mpr hdirectory)]
      exact nofun
    · rw [if_pos hdirectory]
      exact fun h => outsideRoot_ne_absent (Except.error.inj h)
  · rw [if_pos haccepted]
    exact iff_of_true rfl haccepted

theorem escapesRoot_iff {files : CabFiles} {candidate directory : Str}
    (hpath : files.weaklyCanonical candidate = some path)
    (hroot : files.weaklyCanonical directory = some root) :
    escapesRoot files candidate directory = true ↔ ¬ Accepted (lexicallyRelative path root) := by
  simp [escapesRoot, hpath, hroot, Accepted, Classical.or_iff_not_imp_left]

/-- Each check takes the path for an outside one exactly when it is not inside. -/
structure Exact (path root : Str) : Prop where
  canonicalContained :
      ∀ {W : Type} (J : Json.Codec) (P : Platform W) (t : Thread)
        (s : State W) sysfsRoot sysfsPath,
    P.weaklyCanonical s.world sysfsPath = some path →
    P.weaklyCanonical s.world sysfsRoot = some root →
    Leaves (respond J P t) (canonicalContained sysfsRoot sysfsPath).run s fun r _ =>
      r = .error (outsideRoot sysfsPath) ↔ ¬ Inside path root
  canonicalDevice : ∀ {K : Type} (P : Platform K) k sysfsRoot sysfsPath,
    P.weaklyCanonical k sysfsPath = some path → P.weaklyCanonical k sysfsRoot = some root →
    (canonicalDevice P sysfsRoot k sysfsPath = .error (outsideRoot sysfsPath) ↔
      ¬ Inside path root)
  escapesRoot : ∀ files candidate directory,
    files.weaklyCanonical candidate = some path → files.weaklyCanonical directory = some root →
    (escapesRoot files candidate directory = true ↔ ¬ Inside path root)

/-- The checks are exact unless, below the root, the path goes through a name that begins with two
dots. -/
theorem containment_exact_iff (hpath : Canonical path) (hroot : Canonical root) :
    Exact path root ↔ ¬ DotsBelow path root := by
  have hdaemon : Accepted (Daemon.lexicallyRelative path root) ↔ Inside path root ∧
      ¬ DotsBelow path root := by
    rw [relative_daemon hpath.absolute hroot.absolute]
    exact accepted_iff joins_intercalate hpath hroot
  have hcab : Accepted (lexicallyRelative path root) ↔ Inside path root ∧
      ¬ DotsBelow path root := by
    rw [relative_cab hpath.absolute hroot.absolute]
    exact accepted_iff joins_pathAppend hpath hroot
  constructor
  · intro hexact hdots
    have hinside : Inside path root := by
      obtain ⟨name, more, hnames, _⟩ := hdots
      exact ⟨name :: more, hnames.symm⟩
    let files : CabFiles := ⟨some, fun _ => .unopenable⟩
    have hverdict := hexact.escapesRoot files path root rfl rfl
    have hcheck : escapesRoot files path root = true ↔
        ¬ Accepted (lexicallyRelative path root) :=
      escapesRoot_iff rfl rfl
    rw [hcheck, hcab] at hverdict
    exact hverdict.mp (fun h => h.2 hdots) hinside
  · intro hdots
    have hsame : Inside path root ∧ ¬ DotsBelow path root ↔ Inside path root :=
      and_iff_left hdots
    rw [hsame] at hdaemon hcab
    refine ⟨?_, ?_, ?_⟩
    · intro W J P t s sysfsRoot sysfsPath hcanonical hcanonicalRoot
      rw [← hdaemon]
      exact canonicalContained_outside_iff hcanonical hcanonicalRoot
    · intro K P k sysfsRoot sysfsPath hcanonical hcanonicalRoot
      rw [← hdaemon]
      exact canonicalDevice_outside_iff hcanonical hcanonicalRoot
    · intro files candidate directory hcanonical hcanonicalRoot
      rw [← hcab]
      exact escapesRoot_iff hcanonical hcanonicalRoot

theorem canonical_of_decide
    (h : path.head? = some 47 ∧ str "." ∉ names path ∧ str ".." ∉ names path) :
    Canonical path := ⟨h.1, h.2.1, h.2.2⟩

def port : Str := str "/sys/devices/usb1/1-2"

theorem port_exact : Exact port (str "/sys") ∧ Inside port (str "/sys") := by
  have hroot : names (str "/sys") = [str "sys"] := by decide
  have hport : names port = [str "sys", str "devices", str "usb1", str "1-2"] := by decide
  refine ⟨(containment_exact_iff (canonical_of_decide (by decide))
    (canonical_of_decide (by decide))).mpr ?_, by decide⟩
  intro ⟨name, more, hnames, hdots⟩
  rw [hport, hroot] at hnames
  obtain ⟨rfl, _⟩ := List.cons.inj (List.cons.inj hnames).2
  revert hdots
  decide

theorem dotted_name_outside : ¬ ∀ path root, Canonical path → Canonical root →
    Exact path root := by
  intro hall
  have hexact := hall (str "/cabs/..fw.cab") (str "/cabs") (canonical_of_decide (by decide))
    (canonical_of_decide (by decide))
  have hverdict := hexact.escapesRoot ⟨some, fun _ => .unopenable⟩ _ _ rfl rfl
  revert hverdict
  decide

end DevMgr.Linux
