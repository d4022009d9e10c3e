import DevMgr.Daemon.Restore

/-!
# Where a restore writes

The modprobe files stand in a tree of files beside a machine of any kind. The
tree is told apart by the places a file was created, replaced or removed at; a
restore takes its file names from the stored snapshot as they are, and a name
with a slash leads out of the modprobe directory. A modprobe directory that is
missing is made first, as far as that can be done.
-/

open DevMgr.Core

namespace DevMgr.Daemon
open Bytes FileTree Program

/-- How the calls on the tree end, where the tree does not decide it: how many directories can be
made before one fails, and what the writing and the removing do. -/
structure TreeFaults where
  mkdir : Option ℕ
  write : Option WriteFault
  remove : Option Str

structure Rooted (W : Type) where
  below : W
  tree : Tree
  touched : List Place
  calls : ℕ

variable {W : Type}

namespace Rooted

def dropTmp (T : Tree) (path : Str) (tmp : Place) : Option Str → Tree
  | none => T.erase tmp
  | some left => T.create path left

/-- `atomicWriteFile` in a tree, with the places it touched. That the directory cannot be made is
not looked at; a file cannot replace a directory. -/
def atomicWriteFile (faults : TreeFaults) (T : Tree) (dir fileName content : Str) :
    Result Unit × Tree × List Place :=
  let T := T.createDirectories faults.mkdir dir
  let tmpPath := join dir (tmpName fileName)
  match slot T.dirs tmpPath with
  | none => (makeError .io (str "cannot write " ++ tmpPath), T, [])
  | some tmp =>
    match faults.write with
    | some .open => (makeError .io (str "cannot write " ++ tmpPath), T, [])
    | some (.write left) =>
      (makeError .io (str "write failed: " ++ tmpPath), dropTmp T tmpPath tmp left, [tmp])
    | some (.sync fault left) => (.error (fault.error tmpPath), dropTmp T tmpPath tmp left, [tmp])
    | some (.rename message left) =>
      (makeError .io (str "rename failed: " ++ message), dropTmp T tmpPath tmp left, [tmp])
    | fault =>
      match slot T.dirs (join dir fileName) with
      | none => (makeError .io (str "rename failed: Is a directory"), T.erase tmp, [tmp])
      | some file =>
        (match fault with
          | some (.syncDir fault) => .error (fault.error dir)
          | _ => if T.Has dir then .ok () else .error (SyncFault.open.error dir),
          (T.erase tmp).create (join dir fileName) content, [tmp, file])

def remove (fault : Option Str) (T : Tree) (path : Str) : Option Str × Tree × List Place :=
  match fault, slot T.dirs path with
  | some message, _ => (some message, T, [])
  | none, none => (none, T, [])
  | none, some p => (none, T.erase p, if p ∈ T.files then [p] else [])

def onBelow {α : Type} (w : Rooted W) (r : α × W) : α × Rooted W :=
  (r.1, { w with below := r.2 })

def onTree {α : Type} (w : Rooted W) (r : α × Tree × List Place) : α × Rooted W :=
  (r.1, { w with tree := r.2.1, touched := r.2.2 ++ w.touched, calls := w.calls + 1 })

def platform (P : Platform W) (dir : Str) (faults : ℕ → Str → TreeFaults) :
    Platform (Rooted W) where
  facts w := P.facts w.below
  probeError w := P.probeError w.below
  enumerate w := P.enumerate w.below
  setEnabled w path enabled hint := w.onBelow (P.setEnabled w.below path enabled hint)
  bindDriver w path driverName := w.onBelow (P.bindDriver w.below path driverName)
  unbindDriver w path := w.onBelow (P.unbindDriver w.below path)
  loadModule w name := w.onBelow (P.loadModule w.below name)
  unloadModule w name := w.onBelow (P.unloadModule w.below name)
  listLoadedModules w := P.listLoadedModules w.below
  devicesUsingModule w name := P.devicesUsingModule w.below name
  checkAuthorized w caller action := P.checkAuthorized w.below caller action
  weaklyCanonical w path := P.weaklyCanonical w.below path
  isDirectory w path := P.isDirectory w.below path
  pathExists w path := P.pathExists w.below path
  firstLine w path := P.firstLine w.below path
  nowUtc w := P.nowUtc w.below
  writeState w text := w.onBelow (P.writeState w.below text)
  putSnapshot w payload trigger reason now :=
    w.onBelow (P.putSnapshot w.below payload trigger reason now)
  readSnapshot w id := w.onBelow (P.readSnapshot w.below id)
  listSnapshots w := w.onBelow (P.listSnapshots w.below)
  removeSnapshot w id := w.onBelow (P.removeSnapshot w.below id)
  modprobeNames w :=
    match resolve w.tree.dirs dir with
    | none => []
    | some root => if IsDir w.tree.dirs root then w.tree.names root else []
  readModprobe w name := (w.tree.content (join dir name)).getD []
  writeModprobe w name content :=
    w.onTree (atomicWriteFile (faults w.calls name) w.tree dir name content)
  removeModprobe w name := w.onTree (remove (faults w.calls name).remove w.tree (join dir name))

abbrev respond (J : Json.Codec) (P : Platform W) (dir : Str) (faults : ℕ → Str → TreeFaults)
    (t : Thread) : (o : Op) → State (Rooted W) → o.Ret × State (Rooted W) :=
  Daemon.respond J (platform P dir faults) t

end Rooted

variable (dirs : List Place) (dir : Str)

def writtenPlaces (name : Str) : List Place :=
  match slot dirs (join dir (tmpName name)) with
  | none => []
  | some tmp => tmp :: (slot dirs (join dir name)).toList

def Op.places : Op → List Place
  | .writeModprobe name _ => writtenPlaces dirs dir name
  | .removeModprobe name => (slot dirs (join dir name)).toList
  | _ => []

/-- `devmgr-*.conf` or its temporary file, directly in the modprobe directory as it is when it has
been made. -/
def OwnedPlace (T : Tree) (p : Place) : Prop :=
  let dirs := (T.createDirectories none dir).dirs
  ∃ root name, resolve dirs dir = some root ∧ IsDir dirs root ∧ OwnedName name ∧
    (p = root ++ [name] ∨ p = root ++ [tmpName name])

variable {dirs dir}

theorem OwnedPlace.blocker_none {T : Tree} {p : Place} (h : OwnedPlace dir T p) :
    T.blocker dir = none := by
  obtain ⟨root, _, hroot, hdir, _⟩ := h
  exact Tree.blocker_none ⟨root, hroot, hdir⟩

theorem dropTmp_kept {T : Tree} {path : Str} {tmp p : Place} (htmp : slot T.dirs path = some tmp)
    (left : Option Str) (hp : p ≠ tmp) :
    (Rooted.dropTmp T path tmp left).files[p]? = T.files[p]? := by
  cases left with
  | none => exact Tree.erase_other hp
  | some left => exact Tree.create_other fun h => hp (Option.some.inj (h.symm.trans htmp))

theorem dropTmp_dirs {T : Tree} {path : Str} {tmp : Place} (left : Option Str) :
    (Rooted.dropTmp T path tmp left).dirs = T.dirs := by
  cases left with
  | none => rfl
  | some left => exact Tree.create_dirs left

structure ChangedAt (places : List Place) (T T' : Tree) : Prop where
  dirs : T'.dirs = T.dirs
  kept : ∀ p ∉ places, T'.files[p]? = T.files[p]?

theorem ChangedAt.refl (places : List Place) (T : Tree) : ChangedAt places T T :=
  ⟨rfl, fun _ _ => rfl⟩

theorem changedAt_dropTmp {T : Tree} {path : Str} {tmp : Place} (htmp : slot T.dirs path = some tmp)
    (left : Option Str) : ChangedAt [tmp] T (Rooted.dropTmp T path tmp left) :=
  ⟨dropTmp_dirs left, fun _ hp => dropTmp_kept htmp left (List.ne_of_not_mem_cons hp)⟩

theorem atomicWriteFile_changed (dir : Str) (faults : TreeFaults) (T : Tree)
    (fileName content : Str) :
    let made := T.createDirectories faults.mkdir dir
    let ran := Rooted.atomicWriteFile faults T dir fileName content
    ChangedAt ran.2.2 made ran.2.1 ∧ ran.2.2 ⊆ writtenPlaces made.dirs dir fileName ∧
      (faults.write = none → ran.2.2 = writtenPlaces made.dirs dir fileName) := by
  unfold Rooted.atomicWriteFile writtenPlaces
  dsimp only
  generalize T.createDirectories faults.mkdir dir = T
  cases htmp : slot T.dirs (join dir (tmpName fileName)) with
  | none => exact ⟨.refl _ _, List.nil_subset _, fun _ => rfl⟩
  | some tmp =>
    have hmoved : ∀ r : Result Unit, let ran := match slot T.dirs (join dir fileName) with
        | none => (makeError .io (str "rename failed: Is a directory"), T.erase tmp, [tmp])
        | some file => (r, (T.erase tmp).create (join dir fileName) content, [tmp, file])
        ChangedAt ran.2.2 T ran.2.1 ∧
          ran.2.2 = tmp :: (slot T.dirs (join dir fileName)).toList := by
      intro r
      cases hfile : slot T.dirs (join dir fileName) with
      | none =>
          exact ⟨⟨rfl, fun p hp => Tree.erase_other (List.ne_of_not_mem_cons hp)⟩, rfl⟩
      | some file =>
        refine ⟨⟨Tree.create_dirs _, fun p hp => ?_⟩, rfl⟩
        simp only [List.mem_cons, List.not_mem_nil, or_false, not_or] at hp
        rw [Tree.create_other, Tree.erase_other hp.1]
        exact fun h => hp.2 (Option.some.inj (h.symm.trans hfile))
    match faults.write with
    | some .open => exact ⟨.refl _ _, List.nil_subset _, nofun⟩
    | some (.write left) => exact ⟨changedAt_dropTmp htmp left, by simp, nofun⟩
    | some (.sync _ left) => exact ⟨changedAt_dropTmp htmp left, by simp, nofun⟩
    | some (.rename _ left) => exact ⟨changedAt_dropTmp htmp left, by simp, nofun⟩
    | some (.syncDir fault) =>
      obtain ⟨hchanged, hplaces⟩ := hmoved (.error (fault.error dir))
      exact ⟨hchanged, hplaces ▸ List.Subset.refl _, nofun⟩
    | none =>
      obtain ⟨hchanged, hplaces⟩ :=
        hmoved (if T.Has dir then .ok () else .error (SyncFault.open.error dir))
      exact ⟨hchanged, hplaces ▸ List.Subset.refl _, fun _ => hplaces⟩

theorem remove_changed (fault : Option Str) (T : Tree) (path : Str) :
    let ran := Rooted.remove fault T path
    ChangedAt ran.2.2 T ran.2.1 ∧ ran.2.2 ⊆ (slot T.dirs path).toList := by
  unfold Rooted.remove
  cases fault with
  | some message => exact ⟨.refl _ _, List.nil_subset _⟩
  | none =>
    cases slot T.dirs path with
    | none => exact ⟨.refl _ _, List.nil_subset _⟩
    | some p =>
      dsimp only
      split_ifs with hp
      · exact ⟨⟨rfl, fun q hq => Tree.erase_other (List.ne_of_not_mem_cons hq)⟩, by simp⟩
      · refine ⟨⟨rfl, fun q _ => ?_⟩, List.nil_subset _⟩
        by_cases hq : q = p
        · rw [hq, Std.ExtTreeMap.getElem?_eq_none hp]
          simp [Tree.erase]
        · exact Tree.erase_other hq

/-- Between the two states files were created, replaced or removed at owned places only, and
directories made only on the way to the modprobe directory. -/
structure OnlyOwned (dir : Str) (s s' : State (Rooted W)) : Prop where
  touched : ∃ places, s'.world.touched = places ++ s.world.touched ∧
    ∀ p ∈ places, OwnedPlace dir s.world.tree p
  kept : ∀ p, ¬ OwnedPlace dir s.world.tree p →
    s'.world.tree.files[p]? = s.world.tree.files[p]?
  made : ∃ stop, s'.world.tree.dirs = (s.world.tree.createDirectories stop dir).dirs

def Op.Owned (dir : Str) (T : Tree) (o : Op) : Prop :=
  ∀ stop, ∀ p ∈ o.places (T.createDirectories stop dir).dirs dir, OwnedPlace dir T p

section Run
variable {J : Json.Codec} {P : Platform W} {faults : ℕ → Str → TreeFaults} {t : Thread}
  {s s₀ : State (Rooted W)}

def Op.OnTree : Op → Prop
  | .writeModprobe .. | .removeModprobe _ => True
  | _ => False

theorem save_tree (entries : List DisabledDeviceEntry) :
    (s.save J (Rooted.platform P dir faults) entries).2.world.touched = s.world.touched ∧
      (s.save J (Rooted.platform P dir faults) entries).2.world.tree = s.world.tree := by
  unfold State.save
  dsimp only
  split_ifs <;> exact ⟨rfl, rfl⟩

theorem updateEntry_tree (key : DeviceKey) (f : DisabledDeviceEntry → DisabledDeviceEntry) :
    (s.updateEntry J (Rooted.platform P dir faults) key f).2.world.touched = s.world.touched ∧
      (s.updateEntry J (Rooted.platform P dir faults) key f).2.world.tree = s.world.tree := by
  unfold State.updateEntry
  split
  · exact save_tree _
  · exact ⟨rfl, rfl⟩

theorem respond_below {o : Op} (h : ¬ o.OnTree) :
    (Rooted.respond J P dir faults t o s).2.world.touched = s.world.touched ∧
      (Rooted.respond J P dir faults t o s).2.world.tree = s.world.tree := by
  have hsave := @save_tree W dir J P faults s
  have hupdate := @updateEntry_tree W dir J P faults s
  cases o with
  | writeModprobe name content => exact absurd trivial h
  | removeModprobe name => exact absurd trivial h
  | upsert entry => exact hsave (StateStore.upsert entry s.entries)
  | remove key => exact hsave (StateStore.remove key s.entries)
  | replaceAll entries => exact hsave entries
  | setGuardSuspended key suspended => exact hupdate key _
  | setLastSysfsPath key path => exact hupdate key _
  | _ => exact ⟨rfl, rfl⟩

theorem OnlyOwned.refl : OnlyOwned dir s s :=
  ⟨⟨[], rfl, nofun⟩, fun _ _ => rfl, some 0, by rw [Tree.createDirectories_zero]⟩

theorem OnlyOwned.congr {s' s'' : State (Rooted W)} (h : OnlyOwned dir s s')
    (hsame : s''.world.touched = s'.world.touched ∧ s''.world.tree = s'.world.tree) :
    OnlyOwned dir s s'' := by
  constructor
  · exact hsame.1 ▸ h.touched
  · exact hsame.2 ▸ h.kept
  · exact hsame.2 ▸ h.made

theorem OnlyOwned.made_on {s' : State (Rooted W)} (h : OnlyOwned dir s s') (stop : Option ℕ) :
    ∃ stop', (s'.world.tree.createDirectories stop dir).dirs =
      (s.world.tree.createDirectories stop' dir).dirs := by
  obtain ⟨first, hfirst⟩ := h.made
  obtain ⟨n, hn⟩ := s.world.tree.createDirectories_dirs first dir
  obtain ⟨k, hk⟩ := s'.world.tree.createDirectories_dirs stop dir
  have hdirs := hfirst.trans hn
  have hblocker : ∀ p, s.world.tree.blocker dir = some p → p ∈ s'.world.tree.files := by
    intro p hp
    have hforeign : ¬ OwnedPlace dir s.world.tree p := fun howned => by
      rw [howned.blocker_none] at hp
      cases hp
    have hthere : p ∈ s.world.tree.files := by simpa using List.find?_some hp
    rw [Std.ExtTreeMap.mem_iff_isSome_getElem?] at hthere ⊢
    rwa [h.kept p hforeign]
  obtain ⟨more, hmore⟩ := Tree.makeable_append hdirs hblocker
  have htake : (s'.world.tree.makeable dir).take k =
      ((s.world.tree.makeable dir).drop n).take
        (min k (s'.world.tree.makeable dir).length) := by
    rw [← hmore, List.take_append_of_le_length (Nat.min_le_right _ _), List.take_eq_take_min]
  refine ⟨some (n + min k (s'.world.tree.makeable dir).length), ?_⟩
  rw [hk, hdirs, htake, List.append_assoc, ← List.take_add]
  rfl

theorem respond_onlyOwned (h : OnlyOwned dir s₀ s) {o : Op} (ho : o.Owned dir s₀.world.tree) :
    OnlyOwned dir s₀ (Rooted.respond J P dir faults t o s).2 := by
  have hon : ∀ {T : Tree} {places : List Place} {s' : State (Rooted W)} {stop : Option ℕ},
      T = s.world.tree.createDirectories stop dir → ChangedAt places T s'.world.tree →
      places ⊆ o.places T.dirs dir → s'.world.touched = places ++ s.world.touched →
      OnlyOwned dir s₀ s' := by
    rintro T places s' stop rfl hchanged hsub hlog
    obtain ⟨before, hbefore, howned⟩ := h.touched
    obtain ⟨stop', hstop⟩ := h.made_on stop
    have hplaces : ∀ p ∈ places, OwnedPlace dir s₀.world.tree p := fun p hp =>
      ho stop' p (hstop ▸ hsub hp)
    refine ⟨⟨places ++ before, by rw [hlog, hbefore, List.append_assoc], fun p hp => ?_⟩,
      fun p hp => ?_, stop', hchanged.dirs.trans hstop⟩
    · exact (List.mem_append.mp hp).elim (hplaces p) (howned p)
    · exact (hchanged.kept p fun hmem => hp (hplaces p hmem)).trans (h.kept p hp)
  by_cases htree : o.OnTree
  · cases o <;> first | exact htree.elim | skip
    · next name content =>
      obtain ⟨hchanged, hsub, _⟩ := atomicWriteFile_changed dir
        (faults s.world.calls name) s.world.tree name content
      exact hon rfl hchanged hsub rfl
    · next name =>
      obtain ⟨hchanged, hsub⟩ :=
        remove_changed (faults s.world.calls name).remove s.world.tree (join dir name)
      exact hon (s.world.tree.createDirectories_zero dir).symm hchanged hsub rfl
  · exact h.congr (respond_below htree)

theorem run_onlyOwned {α : Type} (p : Prog daemon α) (h : OnlyOwned dir s₀ s)
    (howned : (run (Rooted.respond J P dir faults t) p s).All (Op.Owned dir s₀.world.tree)) :
    OnlyOwned dir s₀ (run (Rooted.respond J P dir faults t) p s).state := by
  induction p generalizing s with
  | pure a => exact h
  | raise => exact h
  | op o k ih =>
    refine ih _ (respond_onlyOwned h (howned o (List.mem_cons_self ..))) fun o' ho' => ?_
    exact howned o' (List.mem_cons_of_mem _ ho')

structure Grown (s s' : State (Rooted W)) : Prop where
  touched : s.world.touched <:+ s'.world.touched
  dirs : s.world.tree.dirs <+: s'.world.tree.dirs

theorem Grown.trans {s' s'' : State (Rooted W)} (h : Grown s s') (h' : Grown s' s'') :
    Grown s s'' := ⟨h.touched.trans h'.touched, h.dirs.trans h'.dirs⟩

theorem respond_grown (o : Op) : Grown s (Rooted.respond J P dir faults t o s).2 := by
  by_cases htree : o.OnTree
  · cases o <;> first | exact htree.elim | skip
    · next name content =>
      obtain ⟨hchanged, _⟩ := atomicWriteFile_changed dir
        (faults s.world.calls name) s.world.tree name content
      exact ⟨List.suffix_append _ _, _, hchanged.dirs.symm⟩
    · next name =>
      obtain ⟨hchanged, _⟩ :=
        remove_changed (faults s.world.calls name).remove s.world.tree (join dir name)
      exact ⟨List.suffix_append _ _, [], (List.append_nil _).trans hchanged.dirs.symm⟩
  · obtain ⟨htouched, hsame⟩ :
        (Rooted.respond J P dir faults t o s).2.world.touched = s.world.touched ∧
          (Rooted.respond J P dir faults t o s).2.world.tree = s.world.tree :=
      respond_below htree
    exact ⟨⟨[], htouched.symm⟩, [], by rw [hsame, List.append_nil]⟩

theorem run_grown {α : Type} (p : Prog daemon α) :
    Grown s (run (Rooted.respond J P dir faults t) p s).state := by
  induction p generalizing s with
  | pure a => exact ⟨List.suffix_rfl, List.prefix_rfl⟩
  | raise => exact ⟨List.suffix_rfl, List.prefix_rfl⟩
  | op o k ih => exact (respond_grown o).trans (ih _)

theorem run_dirs {α : Type} (p : Prog daemon α)
    (h : (run (Rooted.respond J P dir faults t) p s).All fun o : Op =>
      ∀ name content, o ≠ .writeModprobe name content) :
    (run (Rooted.respond J P dir faults t) p s).state.world.tree.dirs = s.world.tree.dirs := by
  induction p generalizing s with
  | pure a => rfl
  | raise => rfl
  | op o k ih =>
    refine (ih _ fun o' ho' => h o' (List.mem_cons_of_mem _ ho')).trans ?_
    have ho := h o (List.mem_cons_self ..)
    by_cases htree : o.OnTree
    · cases o <;> first | exact htree.elim | skip
      · next name content => exact absurd rfl (ho name content)
      · next name =>
        exact (remove_changed (faults s.world.calls name).remove s.world.tree
          (join dir name)).1.dirs
    · exact congrArg Tree.dirs (respond_below htree).2

def faultsBut (name : Str) (stop : Option ℕ) : ℕ → Str → TreeFaults := fun _ other =>
  if other = name then ⟨stop, none, some []⟩ else ⟨some 0, some .open, some []⟩

theorem faultsBut_self (name : Str) (stop : Option ℕ) {n : ℕ} :
    (faultsBut name stop n name).mkdir = stop ∧ (faultsBut name stop n name).write = none := by
  unfold faultsBut
  rw [if_pos rfl]
  exact ⟨rfl, rfl⟩

def Op.WritesOnly (J : Json.Codec) (P : Platform W) (dir : Str) (faults : ℕ → Str → TreeFaults)
    (t : Thread) (name : Str) (o : Op) : Prop :=
  (∃ content, o = .writeModprobe name content) ∨
    ∀ s, (Rooted.respond J P dir faults t o s).2.world.tree = s.world.tree

theorem writesOnly_faultsBut {name : Str} {stop : Option ℕ} (o : Op) :
    o.WritesOnly J P dir (faultsBut name stop) t name := by
  refine or_iff_not_imp_left.mpr fun ho s => ?_
  by_cases htree : o.OnTree
  · cases o <;> first | exact htree.elim | skip
    · next other content =>
      have hother : other ≠ name := fun heq => ho ⟨content, heq ▸ rfl⟩
      have hfaults : faultsBut name stop s.world.calls other = ⟨some 0, some .open, some []⟩ :=
        if_neg hother
      change (Rooted.atomicWriteFile (faultsBut name stop s.world.calls other) s.world.tree dir
        other content).2.1 = s.world.tree
      rw [hfaults, Rooted.atomicWriteFile]
      dsimp only
      rw [Tree.createDirectories_zero]
      split <;> rfl
    · next other =>
      have hfault : (faultsBut name stop s.world.calls other).remove = some [] := by
        unfold faultsBut
        split_ifs <;> rfl
      change (Rooted.remove (faultsBut name stop s.world.calls other).remove s.world.tree
        (join dir other)).2.1 = s.world.tree
      rw [hfault]
      rfl
  · exact (respond_below htree).2

theorem respond_writes (name content : Str) {stop : Option ℕ}
    (hname : ∀ n, (faults n name).mkdir = stop ∧ (faults n name).write = none) :
    let made := s.world.tree.createDirectories stop dir
    let s' := (Rooted.respond J P dir faults t (.writeModprobe name content) s).2
    s'.world.touched = writtenPlaces made.dirs dir name ++ s.world.touched ∧
      s'.world.tree.dirs = made.dirs := by
  obtain ⟨hmkdir, hfault⟩ := hname s.world.calls
  obtain ⟨hchanged, _, hplaces⟩ := atomicWriteFile_changed dir
    (faults s.world.calls name) s.world.tree name content
  have hall := hplaces hfault
  rw [hmkdir] at hchanged hall
  exact ⟨congrArg (· ++ s.world.touched) hall, hchanged.dirs⟩

theorem run_writes {α : Type} (p : Prog daemon α) {name content : Str} {stop : Option ℕ}
    (hname : ∀ n, (faults n name).mkdir = stop ∧ (faults n name).write = none)
    (honly : (run (Rooted.respond J P dir faults t) p s).All (Op.WritesOnly J P dir faults t name))
    (hissued : .writeModprobe name content ∈ (run (Rooted.respond J P dir faults t) p s).issued) :
    let made := s.world.tree.createDirectories stop dir
    let s' := (run (Rooted.respond J P dir faults t) p s).state
    (∃ places, s'.world.touched = places ++ s.world.touched ∧
      writtenPlaces made.dirs dir name ⊆ places) ∧ made.dirs <+: s'.world.tree.dirs := by
  induction p generalizing s with
  | pure a => exact absurd hissued List.not_mem_nil
  | raise => exact absurd hissued List.not_mem_nil
  | op o k ih =>
    by_cases hwrite : ∃ content, o = .writeModprobe name content
    · obtain ⟨content, rfl⟩ := hwrite
      obtain ⟨htouched, hdirs⟩ :=
        respond_writes (J := J) (P := P) (t := t) (s := s) name content hname
      set s' := (Rooted.respond J P dir faults t (.writeModprobe name content) s).2
      have hgrown : Grown s' (run (Rooted.respond J P dir faults t)
          (k (Rooted.respond J P dir faults t (.writeModprobe name content) s).1) s').state :=
        run_grown _
      obtain ⟨more, hmore⟩ := hgrown.touched
      refine ⟨⟨more ++ writtenPlaces (s.world.tree.createDirectories stop dir).dirs dir name,
        ?_, List.subset_append_right _ _⟩, hdirs ▸ hgrown.dirs⟩
      rw [List.append_assoc, ← htouched]
      exact hmore.symm
    · have hidle := (honly o (List.mem_cons_self ..)).resolve_left hwrite s
      have hrest := (List.mem_cons.mp hissued).resolve_left fun heq =>
        hwrite ⟨content, heq.symm⟩
      obtain ⟨⟨places, hplaces, hsub⟩, hdirs⟩ :=
        ih _ (s := (Rooted.respond J P dir faults t o s).2)
          (fun o' ho' => honly o' (List.mem_cons_of_mem _ ho')) hrest
      rw [hidle] at hsub hdirs
      have hgrown : Grown s (Rooted.respond J P dir faults t o s).2 := respond_grown o
      obtain ⟨before, hbefore⟩ := hgrown.touched
      refine ⟨⟨places ++ before, ?_, List.Subset.trans hsub (List.subset_append_left _ _)⟩,
        hdirs⟩
      rw [List.append_assoc, hbefore]
      exact hplaces

end Run

section Capture
variable {J : Json.Codec} {P : Platform W} {t : Thread} {s : State W}

def capturedFiles (P : Platform W) (w : W) : List (Str × Bool) → StringMap Str
  | [] => ∅
  | (name, regular) :: rest =>
    if ¬ regular ∨ ¬ isDevmgrOwned name then capturedFiles P w rest
    else (capturedFiles P w rest).insert name (P.readModprobe w name)

def capturedOn (P : Platform W) (s : State W) : SnapshotPayload :=
  ⟨s.entries, capturedFiles P s.world (P.modprobeNames s.world)⟩

theorem run_capturedFiles (names : List (Str × Bool)) :
    (run (respond J P t) (readModprobeFiles names) s).value =
      some (capturedFiles P s.world names) ∧
      (run (respond J P t) (readModprobeFiles names) s).state = s := by
  induction names with
  | nil => exact ⟨rfl, rfl⟩
  | cons file names ih =>
    obtain ⟨name, regular⟩ := file
    rw [readModprobeFiles, capturedFiles]
    split_ifs
    · exact ih
    · have hread : run (respond J P t) (call (S := daemon) (.readModprobe name)) s =
          ⟨[.readModprobe name], some (P.readModprobe s.world name), s⟩ := rfl
      rw [run_bind, hread, Ran.andThen]
      dsimp only
      rw [run_bind, Ran.andThen, ih.1, ih.2]
      exact ⟨rfl, rfl⟩

theorem run_capturedOn : (run (respond J P t) capturePayload s).value = some (capturedOn P s) ∧
    (run (respond J P t) capturePayload s).state = s := by
  obtain ⟨hvalue, hstate⟩ := run_capturedFiles (J := J) (P := P) (t := t) (s := s)
    (P.modprobeNames s.world)
  have hrun : run (respond J P t) capturePayload s =
      let ran := run (respond J P t) (readModprobeFiles (P.modprobeNames s.world) >>= fun files =>
        pure ⟨s.entries, files⟩) s
      ⟨.entries :: .modprobeNames :: ran.issued, ran.value, ran.state⟩ := rfl
  rw [hrun, run_bind, Ran.andThen, hvalue, hstate]
  exact ⟨rfl, rfl⟩

theorem capturedFiles_congr {W' : Type} {P' : Platform W'} {w : W} {w' : W'}
    (h : ∀ name, P.readModprobe w name = P'.readModprobe w' name) (names : List (Str × Bool)) :
    capturedFiles P w names = capturedFiles P' w' names := by
  induction names with
  | nil => rfl
  | cons file names ih =>
    obtain ⟨name, regular⟩ := file
    rw [capturedFiles, capturedFiles, ih, h]

theorem mem_capturedFiles {w : W} {names : List (Str × Bool)} {name : Str}
    (h : name ∈ capturedFiles P w names) : (name, true) ∈ names ∧
    isDevmgrOwned name = true := by
  induction names with
  | nil => exact absurd h (by simp [capturedFiles])
  | cons file names ih =>
    obtain ⟨first, regular⟩ := file
    rw [capturedFiles] at h
    split_ifs at h with hskip
    · exact ⟨List.mem_cons_of_mem _ (ih h).1, (ih h).2⟩
    · rcases Std.ExtTreeMap.mem_insert.mp h with heq | h
      · obtain rfl := Std.LawfulEqCmp.eq_of_compare heq
        rw [not_or, not_not, not_not] at hskip
        exact ⟨hskip.1 ▸ List.mem_cons_self .., hskip.2⟩
      · exact ⟨List.mem_cons_of_mem _ (ih h).1, (ih h).2⟩

end Capture

theorem plain_tmpName {name : Str} (h : Plain name) : Plain (tmpName name) := by
  have hlength : (tmpName name).length = name.length + 4 := by rw [tmpName, List.length_append]; rfl
  have hne : ∀ other : Str, other.length < 4 → tmpName name ≠ other := by
    rintro other hlt rfl
    omega
  refine ⟨hne [] (by decide), hne _ (by decide), hne _ (by decide), ?_, ?_⟩
  · exact fun hmem => (List.mem_append.mp hmem).elim h.noSlash (by decide)
  · exact fun hmem => (List.mem_append.mp hmem).elim h.noZero (by decide)

theorem writtenPlaces_owned {T : Tree} {root : Place} {name : Str} (howned : OwnedName name)
    (hroot : resolve T.dirs dir = some root) (hdir : IsDir T.dirs root) (stop : Option ℕ) :
    ∀ p ∈ writtenPlaces (T.createDirectories stop dir).dirs dir name, OwnedPlace dir T p := by
  have hsame : ∀ stop, (T.createDirectories stop dir).dirs = T.dirs := fun stop =>
    Tree.Has.createDirectories_dirs ⟨root, hroot, hdir⟩ stop
  intro p hp
  unfold writtenPlaces at hp
  rw [hsame] at hp
  refine ⟨root, name, by rw [hsame, hroot], by rwa [hsame], howned, ?_⟩
  split at hp
  · exact absurd hp List.not_mem_nil
  · next tmp htmp =>
    rcases List.mem_cons.mp hp with rfl | hp
    · exact .inr (slot_join (plain_tmpName howned.1) hroot hdir htmp)
    · exact .inl (slot_join howned.1 hroot hdir (Option.mem_toList.mp hp))

theorem owned_below {T : Tree} {o : Op} (h : ¬ o.OnTree) : o.Owned dir T := by
  cases o with
  | writeModprobe name content => exact absurd trivial h
  | removeModprobe name => exact absurd trivial h
  | _ => exact fun _ p hp => absurd hp List.not_mem_nil

section WriteBack
variable {σ : Type} {respond : (o : Op) → σ → o.Ret × σ} {s : σ} {Q : Op → Prop}

theorem all_removeModprobeFiles {pre target : SnapshotPayload}
    (hpre : ∀ name ∈ pre.modprobeFiles, Q (.removeModprobe name)) :
    (run (S := daemon) respond (removeModprobeFiles target pre.modprobeFiles.toList) s).All Q := by
  refine all_collect.mpr (along_iff_turns.mpr fun file s' hturn => ?_)
  obtain ⟨name, content⟩ := file
  have hfile := Std.ExtTreeMap.mem_toList_iff_getElem?_eq_some.mp hturn.mem
  have hmem : name ∈ pre.modprobeFiles :=
    Std.ExtTreeMap.mem_iff_isSome_getElem?.mpr (by rw [hfile]; rfl)
  dsimp only
  split_ifs
  · exact all_pure
  · exact all_bind.mpr ⟨all_call.mpr (hpre name hmem), fun _ _ => all_pure⟩

theorem all_writeModprobeFiles {pre : SnapshotPayload} (files : List (Str × Str)) :
    (run (S := daemon) respond (writeModprobeFiles pre files) s).All Q ↔
      ∀ file ∈ files, pre.modprobeFiles[file.1]? ≠ some file.2 →
      Q (.writeModprobe file.1 file.2) := by
  induction files generalizing s with
  | nil => exact iff_of_true all_pure nofun
  | cons file files ih =>
    obtain ⟨name, content⟩ := file
    rw [writeModprobeFiles, collect, List.forall_mem_cons]
    by_cases hsame : pre.modprobeFiles[name]? = some content
    · simp only [if_pos hsame]
      refine all_bind.trans ⟨fun h => ⟨fun hne => absurd hsame hne, ?_⟩,
        fun h => ⟨all_pure, ?_⟩⟩
      · exact ih.mp (all_bind.mp (h.2 [] rfl)).1
      · exact fun _ _ => all_bind.mpr ⟨ih.mpr h.2, fun _ _ => all_pure⟩
    · simp only [if_neg hsame]
      refine all_bind.trans ⟨fun h => ?_, fun h => ⟨?_, ?_⟩⟩
      · exact ⟨fun _ => all_call.mp (all_bind.mp h.1).1, ih.mp (all_bind.mp (h.2 _ rfl)).1⟩
      · exact all_bind.mpr ⟨all_call.mpr (h.1 hsame), fun _ _ => all_pure⟩
      · exact fun _ _ => all_bind.mpr ⟨ih.mpr h.2, fun _ _ => all_pure⟩

theorem all_writeBackModprobe {pre target : SnapshotPayload}
    (hpre : ∀ name ∈ pre.modprobeFiles, Q (.removeModprobe name)) :
    (run (S := daemon) respond (writeBackModprobe pre target) s).All Q ↔
      ∀ name content, target.modprobeFiles[name]? = some content →
        pre.modprobeFiles[name]? ≠ some content → Q (.writeModprobe name content) := by
  obtain ⟨removed, hremoved⟩ := run_total respond
    (total_removeModprobeFiles target pre.modprobeFiles.toList) s
  have hwrites : ∀ s : σ, (run (S := daemon) respond
      (writeModprobeFiles pre target.modprobeFiles.toList) s).All Q ↔ _ := fun s =>
    (all_writeModprobeFiles _).trans ⟨fun h name content hfile =>
      h (name, content) (Std.ExtTreeMap.mem_toList_iff_getElem?_eq_some.mpr hfile),
      fun h file hfile =>
        h file.1 file.2 (Std.ExtTreeMap.mem_toList_iff_getElem?_eq_some.mp hfile)⟩
  refine all_bind.trans ⟨fun h => ?_,
    fun h => ⟨all_removeModprobeFiles hpre, fun _ _ => ?_⟩⟩
  · exact (hwrites _).mp (all_bind.mp (h.2 removed hremoved)).1
  · exact all_bind.mpr ⟨(hwrites _).mpr h, fun _ _ => all_pure⟩

end WriteBack

section Restore
variable {J : Json.Codec} {P : Platform W} {faults : ℕ → Str → TreeFaults} {t : Thread}
  {s : State (Rooted W)} {Q : Op → Prop}

def TreeFaults.none : ℕ → Str → TreeFaults := fun _ _ => ⟨.none, .none, .none⟩

/-- A restore comes to write this snapshot's files back: it is read, the safety snapshot is taken
and the state file written. -/
def WritesBack (J : Json.Codec) (P : Platform W) (dir : Str) (s : State (Rooted W)) (id : Str)
    (snap : Snapshot) : Prop :=
  let pre := capturedOn (Rooted.platform P dir .none) s
  let (read, w₁) := P.readSnapshot s.world.below id
  let (safety, w₂) := P.putSnapshot w₁ pre .auto ⟨str "SnapshotRestore", id⟩ (P.nowUtc w₁)
  let document := StateStore.document snap.payload.entries
  read = .ok snap ∧ (∃ safetyId, safety = some (.ok safetyId)) ∧ document.isText = true ∧
    (P.writeState w₂ (J.dumpIndented document)).1 = .ok ()

theorem writesBack_of {id safety : Str} {snap : Snapshot} {w₁ w₂ : W}
    (hread : P.readSnapshot s.world.below id = (.ok snap, w₁))
    (hput : P.putSnapshot w₁ (capturedOn (Rooted.platform P dir .none) s) .auto
      ⟨str "SnapshotRestore", id⟩ (P.nowUtc w₁) = (some (.ok safety), w₂))
    (htext : (StateStore.document snap.payload.entries).isText = true)
    (hwrite : (P.writeState w₂ (J.dumpIndented (StateStore.document snap.payload.entries))).1 =
      .ok ()) :
    WritesBack J P dir s id snap := by
  have hstate : (P.putSnapshot w₁ (capturedOn (Rooted.platform P dir .none) s) .auto
      ⟨str "SnapshotRestore", id⟩ (P.nowUtc w₁)).2 = w₂ := congrArg Prod.snd hput
  unfold WritesBack
  rw [hread]
  exact ⟨rfl, ⟨safety, congrArg Prod.fst hput⟩, htext, hstate ▸ hwrite⟩

/-- Every name of a snapshot that is written back leads to an owned file, or nowhere, however much
of the modprobe directory can be made. -/
def NamesOwned (J : Json.Codec) (P : Platform W) (dir : Str) (s : State (Rooted W)) (id : Str) :
    Prop :=
  ∀ snap, WritesBack J P dir s id snap → ∀ name ∈ snap.payload.modprobeFiles, ∀ stop,
    ∀ p ∈ writtenPlaces (s.world.tree.createDirectories stop dir).dirs dir name,
      OwnedPlace dir s.world.tree p

/-- Where files are written back, no directory has to be made for them. -/
def DirKept (J : Json.Codec) (P : Platform W) (dir : Str) (s : State (Rooted W))
    (id : Str) : Prop :=
  ∀ snap, WritesBack J P dir s id snap → ∀ name ∈ snap.payload.modprobeFiles,
    s.world.tree.makeable dir = []

theorem mem_capturedOn {name : Str}
    (h : name ∈ (capturedOn (Rooted.platform P dir faults) s).modprobeFiles) :
    OwnedName name ∧ s.world.tree.Has dir := by
  obtain ⟨hname, howned⟩ := mem_capturedFiles h
  change (name, true) ∈ (match resolve s.world.tree.dirs dir with
    | none => []
    | some root => if IsDir s.world.tree.dirs root then s.world.tree.names root else []) at hname
  cases hroot : resolve s.world.tree.dirs dir with
  | none =>
    rw [hroot] at hname
    exact absurd hname List.not_mem_nil
  | some root =>
    simp only [hroot] at hname
    split_ifs at hname with hdir
    · exact ⟨⟨Tree.names_plain hname, howned⟩, root, hroot, hdir⟩
    · exact absurd hname List.not_mem_nil

theorem captured_places_owned {name : Str}
    (h : name ∈ (capturedOn (Rooted.platform P dir faults) s).modprobeFiles) (stop : Option ℕ) :
    ∀ p ∈ writtenPlaces (s.world.tree.createDirectories stop dir).dirs dir name,
      OwnedPlace dir s.world.tree p := by
  obtain ⟨howned, root, hroot, hdir⟩ := mem_capturedOn h
  exact writtenPlaces_owned howned hroot hdir stop

theorem captured_removed_owned {name : Str}
    (h : name ∈ (capturedOn (Rooted.platform P dir faults) s).modprobeFiles) :
    (Op.removeModprobe name).Owned dir s.world.tree := by
  obtain ⟨howned, root, hroot, hdir⟩ := mem_capturedOn h
  have hsame : ∀ stop, (s.world.tree.createDirectories stop dir).dirs = s.world.tree.dirs :=
    fun stop => Tree.Has.createDirectories_dirs ⟨root, hroot, hdir⟩ stop
  intro stop p hp
  rw [hsame] at hp
  exact ⟨root, name, by rw [hsame, hroot], by rwa [hsame], howned,
    .inl (slot_join howned.1 hroot hdir (Option.mem_toList.mp hp))⟩

theorem all_quiet {α : Type} {p : Prog daemon α} (hbelow : ∀ o : Op, ¬ o.OnTree → Q o)
    (h : Only (fun o : Op => ¬ o.OnTree) p) : (run (Rooted.respond J P dir faults t) p s).All Q :=
  all_only (h.mono hbelow) s

theorem sees_below (o : Op) (h : o.Sees) : ¬ o.OnTree := by
  cases o <;> first | exact id | exact h.elim

theorem all_writeBack (hbelow : ∀ o : Op, ¬ o.OnTree → Q o) {snapshotId safety : Str}
    {pre target : SnapshotPayload} (hpre : ∀ name ∈ pre.modprobeFiles, Q (.removeModprobe name)) :
    (run (Rooted.respond J P dir faults t) (writeBack snapshotId safety pre target).run s).All Q ↔
      ((s.save J (Rooted.platform P dir faults) target.entries).1 = some (.ok ()) →
        ∀ name content, target.modprobeFiles[name]? = some content →
          pre.modprobeFiles[name]? ≠ some content → Q (.writeModprobe name content)) := by
  have hrun : run (Rooted.respond J P dir faults t)
      (ExceptT.run (ExceptT.mk (call (S := daemon) (.replaceAll target.entries) >>= orRaise))) s =
        ⟨[.replaceAll target.entries], (s.save J (Rooted.platform P dir faults) target.entries).1,
          (s.save J (Rooted.platform P dir faults) target.entries).2⟩ := by
    rw [ExceptT.run_mk, run_bind, run_call, Ran.andThen]
    dsimp only
    rw [run_orRaise]
    rfl
  unfold writeBack
  rw [all_step, hrun]
  refine ⟨fun h hsaved => ?_, fun h => ⟨all_single.mpr (hbelow _ id), fun u hsaved => ?_⟩⟩
  · exact (all_writeBackModprobe hpre).mp (all_lift.mp (all_step.mp (h.2 () hsaved)).1)
  · refine all_step.mpr ⟨all_lift.mpr ((all_writeBackModprobe hpre).mpr (h hsaved)),
      fun _ _ => ?_⟩
    refine all_quiet hbelow (only_step (only_lift (only_reEnableRemoved sees_below fun _ _ => id))
      fun _ => only_step (only_lift ?_) fun _ => only_pure _)
    exact only_reApplyRestored sees_below id (fun _ _ => id) (fun _ _ => id) fun _ _ => id

theorem run_storePutOn {P' : Platform W} {s : State W} (payload : SnapshotPayload)
    (trigger : SnapshotTrigger) (reason : SnapshotReason) :
    let called := P'.putSnapshot s.world payload trigger reason (P'.nowUtc s.world)
    (run (respond J P' t) (storePut payload trigger reason).run s).value = called.1 ∧
      (run (respond J P' t) (storePut payload trigger reason).run s).state =
        { s with world := called.2 } := by
  intro called
  have hrun : run (respond J P' t) (storePut payload trigger reason).run s =
      let ran := run (respond J P' t) (orRaise called.1) { s with world := called.2 }
      ⟨.nowUtc :: .putSnapshot payload trigger reason (P'.nowUtc s.world) :: ran.issued,
        ran.value, ran.state⟩ := rfl
  rw [hrun, run_orRaise]
  exact ⟨rfl, rfl⟩

theorem save_ok_iff {P' : Platform W} {s : State W} {entries : List DisabledDeviceEntry} :
    (s.save J P' entries).1 = some (.ok ()) ↔ (StateStore.document entries).isText = true ∧
      (P'.writeState s.world (J.dumpIndented (StateStore.document entries))).1 = .ok () := by
  unfold State.save
  dsimp only
  split_ifs with htext
  · exact ⟨fun h => ⟨htext, Option.some.inj h⟩, fun h => congrArg some h.2⟩
  · exact iff_of_false (by simp) fun h => htext h.1

theorem all_restore (hbelow : ∀ o : Op, ¬ o.OnTree → Q o) {id : Str}
    (hpre : ∀ name ∈ (capturedOn (Rooted.platform P dir .none) s).modprobeFiles,
      Q (.removeModprobe name)) :
    (run (Rooted.respond J P dir faults t) (restore id).run s).All Q ↔
      ∀ snap, WritesBack J P dir s id snap → ∀ name content,
        snap.payload.modprobeFiles[name]? = some content →
        (capturedOn (Rooted.platform P dir .none) s).modprobeFiles[name]? ≠ some content →
        Q (.writeModprobe name content) := by
  set pre := capturedOn (Rooted.platform P dir .none) s with hpre_eq
  set s₁ : State (Rooted W) := { s with world := { s.world with
    below := (P.readSnapshot s.world.below id).2 } } with hs₁
  have hread : run (Rooted.respond J P dir faults t)
      (ExceptT.mk (call (S := daemon) (.readSnapshot id))).run s =
        ⟨[.readSnapshot id], some (P.readSnapshot s.world.below id).1, s₁⟩ := rfl
  have hfiles : ∀ names, capturedFiles (Rooted.platform P dir faults) s₁.world names =
      capturedFiles (Rooted.platform P dir .none) s.world names := capturedFiles_congr fun _ => rfl
  have hsame : capturedOn (Rooted.platform P dir faults) s₁ = pre :=
    congrArg (SnapshotPayload.mk s.entries) (hfiles _)
  obtain ⟨hvalue, hstate⟩ :=
    run_capturedOn (J := J) (P := Rooted.platform P dir faults) (t := t)
    (s := s₁)
  rw [hsame] at hvalue
  have hcaptured := run_lift (S := daemon) (Rooted.respond J P dir faults t) (ε := Error) hvalue
  have hsees : (run (Rooted.respond J P dir faults t)
      (ExceptT.run (liftM capturePayload : Verb SnapshotPayload)) s₁).All Q :=
    all_lift.mpr (all_quiet hbelow (sees_capturePayload.mono sees_below))
  obtain ⟨hput, hputState⟩ := run_storePutOn (J := J) (t := t)
    (s := s₁) pre .auto ⟨str "SnapshotRestore", id⟩
  rw [restore_eq, all_step, hread]
  refine ⟨fun h snap hsnap => ?_,
    fun h => ⟨all_single.mpr (hbelow _ nofun), fun snap hsnap => ?_⟩⟩
  · obtain ⟨hok, ⟨safety, hsafety⟩, hsaved⟩ := hsnap
    have hrest :=
      (all_step_ok hsees hcaptured.1 (hcaptured.2.trans hstate)).mp (h.2 snap (congrArg some hok))
    have hwrites := (all_step.mp hrest).2 safety (hput.trans hsafety)
    rw [hputState] at hwrites
    exact (all_writeBack hbelow hpre).mp hwrites (save_ok_iff.mpr hsaved)
  · refine (all_step_ok hsees hcaptured.1 (hcaptured.2.trans hstate)).mpr ?_
    refine all_step.mpr ⟨all_quiet hbelow (only_storePut nofun fun _ => nofun),
      fun safety hsafety => ?_⟩
    rw [hputState]
    refine (all_writeBack hbelow hpre).mpr fun hsaved => ?_
    exact h snap ⟨Option.some.inj hsnap, ⟨safety, hput.symm.trans hsafety⟩,
      save_ok_iff.mp hsaved⟩

theorem restore_writes {id name content : Str} {snap : Snapshot}
    (hsnap : WritesBack J P dir s id snap)
    (hfile : snap.payload.modprobeFiles[name]? = some content)
    (hnew : (capturedOn (Rooted.platform P dir .none) s).modprobeFiles[name]? ≠ some content) :
    .writeModprobe name content ∈
      (run (Rooted.respond J P dir faults t) (restore id).run s).issued := by
  rw [mem_issued_iff, all_restore (Q := (· ≠ .writeModprobe name content))
    (fun o ho heq => ho (heq ▸ trivial)) fun _ _ => nofun]
  exact fun hnone => hnone snap hsnap name content hfile hnew rfl

abbrev restored (J : Json.Codec) (P : Platform W) (dir : Str) (t : Thread) (s : State (Rooted W))
    (id : Str) (faults : ℕ → Str → TreeFaults) : State (Rooted W) :=
  (run (Rooted.respond J P dir faults t) (restore id).run s).state

theorem restore_owned {id : Str} (h : NamesOwned J P dir s id) (faults : ℕ → Str → TreeFaults) :
    OnlyOwned dir s (restored J P dir t s id faults) := by
  refine run_onlyOwned _ .refl ?_
  refine (all_restore (fun _ => owned_below) fun _ => captured_removed_owned).mpr ?_
  intro snap hsnap name content hfile _
  exact h snap hsnap name (Std.ExtTreeMap.mem_iff_isSome_getElem?.mpr (by rw [hfile]; rfl))

theorem namesOwned_of {id : Str}
    (h : ∀ faults, ∃ places, (restored J P dir t s id faults).world.touched =
      places ++ s.world.touched ∧ ∀ p ∈ places, OwnedPlace dir s.world.tree p) :
    NamesOwned J P dir s id := by
  intro snap hsnap name hname stop p hp
  obtain ⟨content, hfile⟩ := Option.isSome_iff_exists.mp
    (Std.ExtTreeMap.mem_iff_isSome_getElem?.mp hname)
  by_cases hsame : (capturedOn (Rooted.platform P dir .none) s).modprobeFiles[name]? = some content
  · have hmem : name ∈ (capturedOn (Rooted.platform P dir .none) s).modprobeFiles :=
      Std.ExtTreeMap.mem_iff_isSome_getElem?.mpr (by rw [hsame]; rfl)
    exact captured_places_owned hmem stop p hp
  · have hissued : .writeModprobe name content ∈
        (run (Rooted.respond J P dir (faultsBut name stop) t) (restore id).run s).issued :=
      restore_writes hsnap hfile hsame
    obtain ⟨⟨places, hplaces, hsub⟩, _⟩ := run_writes (restore id).run
      (fun _ => faultsBut_self name stop) (fun o _ => writesOnly_faultsBut o) hissued
    obtain ⟨places', hplaces', howned⟩ := h (faultsBut name stop)
    obtain rfl : places' = places := List.append_cancel_right (hplaces'.symm.trans hplaces)
    exact howned p (hsub hp)

theorem dirKept_iff {id : Str} (h : NamesOwned J P dir s id) :
    (∀ faults, (restored J P dir t s id faults).world.tree.dirs = s.world.tree.dirs) ↔
      DirKept J P dir s id := by
  constructor
  · intro hsame snap hsnap name hname
    obtain ⟨content, hfile⟩ := Option.isSome_iff_exists.mp
      (Std.ExtTreeMap.mem_iff_isSome_getElem?.mp hname)
    by_cases hthere : s.world.tree.Has dir
    · exact hthere.makeable_nil
    · have hnew : (capturedOn (Rooted.platform P dir .none) s).modprobeFiles[name]? ≠
          some content := fun hsame => by
        have hmem : name ∈ (capturedOn (Rooted.platform P dir .none) s).modprobeFiles :=
          Std.ExtTreeMap.mem_iff_isSome_getElem?.mpr (by rw [hsame]; rfl)
        exact hthere (mem_capturedOn hmem).2
      have hissued : .writeModprobe name content ∈
          (run (Rooted.respond J P dir (faultsBut name none) t) (restore id).run s).issued :=
        restore_writes hsnap hfile hnew
      obtain ⟨_, hmade⟩ := run_writes (restore id).run
        (fun _ => faultsBut_self name none) (fun o _ => writesOnly_faultsBut o) hissued
      have hlength := (hsame (faultsBut name none) ▸ hmade).length_le
      have hnone : (s.world.tree.makeable dir).length = 0 := by
        simpa [Tree.createDirectories] using hlength
      exact List.length_eq_zero_iff.mp hnone
  · intro hkept faults
    by_cases hmakeable : s.world.tree.makeable dir = []
    · obtain ⟨stop, hstop⟩ := (restore_owned (t := t) h faults).made
      obtain ⟨n, hn⟩ := s.world.tree.createDirectories_dirs stop dir
      rw [hstop, hn, hmakeable, List.take_nil, List.append_nil]
    · refine run_dirs _
        ((all_restore (Q := fun o => ∀ name content, o ≠ .writeModprobe name content)
        (fun o ho name content heq => ho (heq ▸ trivial)) fun _ _ _ _ heq => by cases heq).mpr
          fun snap hsnap name content hfile _ => ?_)
      have hname : name ∈ snap.payload.modprobeFiles :=
        Std.ExtTreeMap.mem_iff_isSome_getElem?.mpr (by rw [hfile]; rfl)
      exact absurd (hkept snap hsnap name hname) hmakeable

theorem restore_owned_iff (id : Str) :
    ((∀ faults, OnlyOwned dir s (restored J P dir t s id faults) ∧
        (restored J P dir t s id faults).world.tree.dirs = s.world.tree.dirs) ↔
      NamesOwned J P dir s id ∧ DirKept J P dir s id) ∧
    ((∀ faults, OnlyOwned dir s (restored J P dir t s id faults)) ↔
      NamesOwned J P dir s id) := by
  have hnames : (∀ faults, OnlyOwned dir s (restored J P dir t s id faults)) ↔
      NamesOwned J P dir s id :=
    ⟨fun h => namesOwned_of fun faults => (h faults).touched,
      fun h faults => restore_owned h faults⟩
  refine ⟨?_, hnames⟩
  rw [forall_and, hnames]
  exact and_congr_right fun h => dirKept_iff h

end Restore

def roguePayload : SnapshotPayload :=
  ⟨[], Std.ExtTreeMap.ofList [(str "../rogue.conf", [])] compare⟩

theorem roguePayload_text : (payloadToJson roguePayload).isText = true :=
  single_text (ascii_of_all (by decide)) nofun

def rogueStore : Directory :=
  perform Json.reference ∅ (.quiet, .put roguePayload .manual noReason 0)

theorem rogue_fits : FitsGate Json.reference ∅ roguePayload .manual noReason 0 :=
  fits_of_small (by simp [headLocked]) (by decide) (by decide)

def etcTree : Tree where
  dirs := [[str "etc"], [str "etc", str "modprobe.d"]]
  files := ∅
  plain _ hp := absurd hp Std.ExtTreeMap.not_mem_empty
  apart _ hp := absurd hp Std.ExtTreeMap.not_mem_empty

def rogueState (snapshots : Directory) : State (Rooted (Machine Bench)) where
  world := ⟨⟨⟨[], [], []⟩, ∅, snapshots, ∅, [], 0⟩, etcTree, [], 0⟩
  entries := []
  holder := none

def benchMachine : Platform (Machine Bench) :=
  Machine.platform Json.reference Bench.platform fun _ => Faults.none

theorem rogue_captured (d : Directory) :
    capturedOn (Rooted.platform benchMachine (str "/etc/modprobe.d") .none) (rogueState d) =
      emptyPayload := by
  have hnames : (Rooted.platform benchMachine (str "/etc/modprobe.d") .none).modprobeNames
      (rogueState d).world = [] := by
    change (match resolve etcTree.dirs (str "/etc/modprobe.d") with
      | none => []
      | some root => if IsDir etcTree.dirs root then etcTree.names root else []) = []
    decide
  rw [capturedOn, hnames]
  rfl

theorem rogue_writesBack {d : Directory} {id : Str} {snap : Snapshot}
    (hstored : stored Json.reference d id = some snap) (hentries : snap.payload.entries = [])
    (hhead : ∀ id, headLocked d = some id → validUtf8 id = true) (hid : validUtf8 id = true) :
    WritesBack Json.reference benchMachine (str "/etc/modprobe.d") (rogueState d) id snap := by
  have hread : benchMachine.readSnapshot (rogueState d).world.below id =
      (.ok snap, { (rogueState d).world.below with calls := 1 }) :=
    @readSnapshot_stored Bench Json.reference (fun _ => Faults.none) (rogueState d).world.below id
      snap hstored
  have hverb : validUtf8 (str "SnapshotRestore") = true := by decide
  obtain ⟨d', hput⟩ : ∃ d', put Json.reference .quiet d emptyPayload .auto
      ⟨str "SnapshotRestore", id⟩ 0 = .ok (.ok (payloadId Json.reference emptyPayload), d') :=
    put_succeeds ⟨rfl, rfl⟩ emptyPayload_text hhead ⟨hverb, hid⟩
  have hsafety : benchMachine.putSnapshot { (rogueState d).world.below with
    calls := 1 } emptyPayload
      .auto ⟨str "SnapshotRestore", id⟩ 0 = (some (.ok (payloadId Json.reference emptyPayload)),
        { (rogueState d).world.below with snapshots := d', calls := 2 }) :=
    @putSnapshot_ok Bench Json.reference (fun _ => Faults.none)
      { (rogueState d).world.below with calls := 1 } emptyPayload .auto
        ⟨str "SnapshotRestore", id⟩ 0
      _ d' hput
  have htext : (StateStore.document snap.payload.entries).isText = true := by
    rw [hentries]
    decide
  have hcaptured := rogue_captured d
  exact writesBack_of hread (hcaptured ▸ hsafety) htext (writeState_ok _ rfl)

theorem rogue_only {s : State (Rooted (Machine Bench))} {id : Str} {snap : Snapshot}
    (hsnap : WritesBack Json.reference benchMachine (str "/etc/modprobe.d") s id snap)
    (hpayload : snap.payload = roguePayload)
    (hcaptured : capturedOn (Rooted.platform benchMachine (str "/etc/modprobe.d") .none) s =
      emptyPayload) :
    (run (Rooted.respond Json.reference benchMachine (str "/etc/modprobe.d") .none .bus)
      (restore id).run s).All (Op.WritesOnly Json.reference benchMachine (str "/etc/modprobe.d")
        .none .bus (str "../rogue.conf")) := by
  refine (all_restore (fun o ho => .inr fun s => (respond_below ho).2)
    fun name hname => ?_).mpr ?_
  · rw [hcaptured] at hname
    exact absurd hname Std.ExtTreeMap.not_mem_empty
  · intro snap' hsnap' name content hname _
    obtain rfl : snap' = snap := Except.ok.inj (hsnap'.1.symm.trans hsnap.1)
    have honlyName : name = str "../rogue.conf" := by
      rw [hpayload] at hname
      have hmem := (getElem?_ofList (List.pairwise_singleton ..) name content).mp hname
      exact congrArg Prod.fst (List.mem_singleton.mp hmem)
    exact .inl ⟨content, by rw [honlyName]⟩

theorem etc_kept (stop : Option ℕ) :
    (etcTree.createDirectories stop (str "/etc/modprobe.d")).dirs = etcTree.dirs := by
  have hthere : etcTree.Has (str "/etc/modprobe.d") := by decide
  exact hthere.createDirectories_dirs stop

theorem rogue_unowned :
    ¬ OwnedPlace (str "/etc/modprobe.d") etcTree [str "etc", str "rogue.conf"] := by
  rintro ⟨root, name, hroot, _, _, hplace⟩
  have hmodprobe : resolve etcTree.dirs (str "/etc/modprobe.d") =
      some [str "etc", str "modprobe.d"] := by
    decide
  rw [etc_kept, hmodprobe] at hroot
  obtain rfl := Option.some.inj hroot
  have hlength : ∀ other : Str, [str "etc", str "rogue.conf"] ≠
      [str "etc", str "modprobe.d"] ++ [other] :=
    fun other h => absurd (congrArg List.length h) (by simp)
  exact hplace.elim (hlength name) (hlength (tmpName name))

theorem rogue_touches {d : Directory} {id : Str} {snap : Snapshot}
    (hstored : stored Json.reference d id = some snap) (hpayload : snap.payload = roguePayload)
    (hhead : ∀ id, headLocked d = some id → validUtf8 id = true) (hid : validUtf8 id = true) :
    ¬ OnlyOwned (str "/etc/modprobe.d") (rogueState d)
      (restored Json.reference benchMachine (str "/etc/modprobe.d") .bus
        (rogueState d) id .none) := by
  intro howned
  have hsnap := rogue_writesBack hstored (by rw [hpayload]; rfl) hhead hid
  have hfile : snap.payload.modprobeFiles[str "../rogue.conf"]? = some [] := by
    rw [hpayload]
    decide
  have hcaptured := rogue_captured d
  have hnew : (capturedOn (Rooted.platform benchMachine (str "/etc/modprobe.d") .none)
      (rogueState d)).modprobeFiles[str "../rogue.conf"]? ≠ some [] := by
    rw [hcaptured]
    exact nofun
  obtain ⟨⟨places, hplaces, hsub⟩, _⟩ :=
    run_writes (restore id).run (fun _ => ⟨rfl, rfl⟩) (rogue_only hsnap hpayload hcaptured)
      (restore_writes hsnap hfile hnew)
  obtain ⟨places', hplaces', hall⟩ := howned.touched
  obtain rfl : places' = places := List.append_cancel_right (hplaces'.symm.trans hplaces)
  have hmem : [str "etc", str "rogue.conf"] ∈
      writtenPlaces etcTree.dirs (str "/etc/modprobe.d") (str "../rogue.conf") := by
    decide
  exact rogue_unowned (hall _ (hsub ((etc_kept none).symm ▸ hmem)))

theorem restore_climbs_out :
    (∃ snap, (read Json.reference .quiet rogueStore (payloadId Json.reference roguePayload)).1 =
      .ok snap) ∧
      ¬ OnlyOwned (str "/etc/modprobe.d") (rogueState rogueStore)
        (restored Json.reference benchMachine (str "/etc/modprobe.d") .bus (rogueState rogueStore)
          (payloadId Json.reference roguePayload) .none) := by
  obtain ⟨hhead, hstored⟩ := put_alone (J := Json.reference) (d := rogueStore)
    rfl roguePayload_text ⟨by decide, by decide⟩ rogue_fits
  exact ⟨⟨_, read_iff.mpr hstored⟩,
    rogue_touches hstored rfl (parent_text hhead) (digest_text _)⟩

end DevMgr.Daemon
