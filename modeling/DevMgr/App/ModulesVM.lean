import DevMgr.Core.Models
import DevMgr.Library.Run
import DevMgr.Library.StringMap

/-!
# The list of modules and their signatures

The view lists what the kernel has loaded, with a cell for the signature of each
module. A worker reads the signatures of the modules that have no cell yet and
posts them to the user interface, where they are merged. A cell once read is kept
through every change of the modules, so a view is up to date after a change only
where no cell has become stale.
-/

open DevMgr.Core

namespace DevMgr.App
open Bytes Run

structure Driver where
  isSigned : Bool
  signer : Option Str

def signatureLabel (d : Driver) : Str :=
  if ¬ d.isSigned then str "NO"
  else match d.signer with
    | some (c :: signer) => str "yes (" ++ (c :: signer) ++ str ")"
    | _ => str "yes"

def signatureCellFor (info : Result Driver) : Str :=
  match info with
  | .ok d => signatureLabel d
  | .error _ => str "?"

inductive ModuleRow where
  | listed (module : LoadedModule) (signature : Str)
  | placeholder (text : Str)

def ModuleRow.name : ModuleRow → Option Str
  | .listed m _ => some m.name
  | .placeholder _ => none

structure Fill where
  id : ℕ
  left : List Str
  cells : List (Str × Str)
  posted : Bool

inductive Post where
  | rebuild
  | merge (id : ℕ) (cells : List (Str × Str))

def Post.cells : Post → List (Str × Str)
  | .rebuild => []
  | .merge _ cells => cells

/-- How far the last event has come: announced, processed, followed by a call that waits for a fill,
or by one whose fill is merged. -/
inductive Phase where
  | unchanged
  | announced
  | processed
  | called (id : ℕ)
  | covered
  deriving DecidableEq

def Phase.waits : Phase → Bool
  | .called _ | .covered => true
  | _ => false

/-- The first three are the facade's; `daemonAvailability` is whether it has an error of the daemon
to report. `posting` handlers have found no rebuild queued and not posted theirs yet. Beside the
view stand the phase of the last event, what `moduleDetail` has given since it, and the number of
fills. -/
structure ModulesVM where
  loaded : Result (List LoadedModule)
  moduleDetail : Str → Result Driver
  daemonAvailability : Bool
  filter : Str
  snapshot : List LoadedModule
  rows : List ModuleRow
  selected : ℤ
  signatureCell : StringMap Str
  rebuildQueued : Bool
  posting : ℕ
  posts : List Post
  sigFill : Option Fill
  phase : Phase
  since : List (Str → Result Driver)
  fills : ℕ

namespace ModulesVM

inductive Action where
  | change (loaded : Result (List LoadedModule)) (moduleDetail : Str → Result Driver)
      (daemonAvailability : Bool)
  | publish
  | postRebuild
  | runPost
  | rebuild
  | setFilter (filter : Str)
  | fillSignatures
  | readNext
  | postMerge
  | endFill

def start (loaded : Result (List LoadedModule)) (moduleDetail : Str → Result Driver)
    (daemonAvailability : Bool) :
    ModulesVM where
  loaded
  moduleDetail
  daemonAvailability
  filter := []
  snapshot := []
  rows := []
  selected := 0
  signatureCell := ∅
  rebuildQueued := false
  posting := 0
  posts := []
  sigFill := none
  phase := .unchanged
  since := [moduleDetail]
  fills := 0

variable (s : ModulesVM)

def selectedModule : Option Str :=
  if s.selected < 0 then none else (s.rows[s.selected.toNat]?).bind ModuleRow.name

def restoreSelection (rowNames : List (Option Str)) (keep : Option Str) (current : ℤ) : ℤ :=
  let current := match keep with
    | some name => if some name ∈ rowNames then (rowNames.idxOf (some name) : ℤ) else current
    | none => current
  max 0 (min current (rowNames.length - 1))

def listing : List LoadedModule :=
  (s.loaded.toOption.getD []).insertionSort fun a b => a.name ≤ b.name

def cellOf (name : Str) : Str := (s.signatureCell[name]?).getD (str "…")

def moduleRows : List ModuleRow :=
  (s.snapshot.filter fun m => s.filter <:+: m.name.map toLower).map fun m =>
    .listed m (s.cellOf m.name)

def rowsOf : List ModuleRow :=
  if s.moduleRows.isEmpty ∧ (s.filter ≠ [] ∨ ¬ s.daemonAvailability) then
    [.placeholder (if s.filter = [] then str "(no modules)" else str "(no matches)")]
  else s.moduleRows

def rebuild : ModulesVM :=
  let s' : ModulesVM := { s with snapshot := s.listing }
  let rows := s'.rowsOf
  { s' with
    rows
    selected := if rows.isEmpty then 0
        else restoreSelection (rows.map ModuleRow.name) s.selectedModule s.selected }

def queued (id : ℕ) (posts : List Post) : Bool :=
  posts.any fun
    | .merge i _ => i = id
    | .rebuild => false

def mergeCells (signatureCell : StringMap Str) (cells : List (Str × Str)) : StringMap Str :=
  cells.foldl (fun m cell => m.insert cell.1 cell.2) signatureCell

def uncached : List Str := (s.snapshot.map (·.name)).filter fun name =>
  ¬ s.signatureCell.contains name

def call (phase : Phase) : ModulesVM :=
  { s with phase := if s.phase = .processed then phase else s.phase }

def merged (fill : Fill) : Bool := fill.posted && !queued fill.id s.posts

def fillSignatures : ModulesVM :=
  match s.sigFill with
  | some fill => s.call (if s.merged fill then .covered else .called fill.id)
  | none =>
    if s.uncached.isEmpty then s.call .covered
    else { s.call (.called (s.fills + 1)) with
      sigFill := some ⟨s.fills + 1, s.uncached, [], false⟩
      fills := s.fills + 1 }

def readNext : Option ModulesVM :=
  match s.sigFill with
  | some ⟨id, name :: left, cells, false⟩ =>
    some { s with
      sigFill :=
        some ⟨id, left, cells ++ [(name, signatureCellFor (s.moduleDetail name))], false⟩ }
  | _ => none

def postMerge : Option ModulesVM :=
  match s.sigFill with
  | some ⟨id, [], cells, false⟩ =>
    some { s with sigFill := some ⟨id, [], cells, true⟩, posts := s.posts ++ [.merge id cells] }
  | _ => none

def endFill : Option ModulesVM :=
  match s.sigFill with
  | some ⟨_, _, _, true⟩ => some { s with sigFill := none }
  | _ => none

def publish : ModulesVM :=
  { s with
    phase := .announced
    since := [s.moduleDetail]
    rebuildQueued := true
    posting := if s.rebuildQueued then s.posting else s.posting + 1 }

def runRebuild (rest : List Post) : ModulesVM :=
  { s with
    posts := rest
    rebuildQueued := false
    phase := if s.phase = .announced then .processed else s.phase }

def runMerge (id : ℕ) (cells : List (Str × Str)) (rest : List Post) : ModulesVM :=
  { s with
    posts := rest
    signatureCell := mergeCells s.signatureCell cells
    phase := if s.phase = .called id then .covered else s.phase }

def step : Action → Option ModulesVM
  | .change loaded moduleDetail daemonAvailability =>
    some { s with loaded, moduleDetail, daemonAvailability, since := moduleDetail :: s.since }
  | .publish => some s.publish
  | .postRebuild =>
    if s.posting = 0 then none
    else some { s with posting := s.posting - 1, posts := s.posts ++ [.rebuild] }
  | .runPost =>
    match s.posts with
    | [] => none
    | .rebuild :: rest => some (s.runRebuild rest).rebuild
    | .merge id cells :: rest => some (s.runMerge id cells rest).rebuild
  | .rebuild => some s.rebuild
  | .setFilter filter => some { s with filter := filter.map toLower }.rebuild
  | .fillSignatures => some s.fillSignatures
  | .readNext => s.readNext
  | .postMerge => s.postMerge
  | .endFill => s.endFill

/-- A cell that `moduleDetail` has given for the module since the last event. -/
def Fresh (name cell : Str) : Prop :=
  ∃ moduleDetail ∈ s.since, cell = signatureCellFor (moduleDetail name)

def reading (id : ℕ) : Option Fill := s.sigFill.filter fun fill => fill.id = id && !fill.posted

def inHand : List (Str × Str) :=
  ((s.sigFill.filter fun fill => !fill.posted).map Fill.cells).getD []

/-- A cell that is shown for the module or on its way to be. -/
def Held (name cell : Str) : Prop :=
  s.signatureCell[name]? = some cell ∨ (name, cell) ∈ s.posts.flatMap Post.cells ∨
  (name, cell) ∈ s.inHand

def UpToDate (name : Str) : Prop := ∀ cell, s.Held name cell → s.Fresh name cell

def Cached (name : Str) : Prop := (s.signatureCell[name]?).isSome = true

def upTo (id : ℕ) : List Post → List (Str × Str)
  | [] => []
  | .rebuild :: rest => upTo id rest
  | .merge i cells :: rest => if i = id then cells else cells ++ upTo id rest

def Comes (id : ℕ) (name : Str) : Prop :=
  s.Cached name ∨ name ∈ (upTo id s.posts).map Prod.fst ∨
    ∃ fill, s.reading id = some fill ∧ (name ∈ fill.cells.map Prod.fst ∨ name ∈ fill.left)

/-- Where the last event has been processed and a fill that was called for since is merged, every
listed module shows a cell that has been read since. -/
structure SignedFresh : Prop where
  cells : s.phase = .covered →
      ∀ m ∈ s.snapshot, ∃ cell, s.signatureCell[m.name]? = some cell ∧ s.Fresh m.name cell
  rows : s.phase = .covered → ∀ m signature, .listed m signature ∈ s.rows →
      s.Fresh m.name signature

def Action.rebuilds : Action → Bool
  | .rebuild | .setFilter _ | .runPost => true
  | _ => false

/-- No cell of a listed module is stale when the signatures are filled after an event, and a call
that joins a running fill leaves no module out; from then on no further module is listed, but with a
cell that is not stale. -/
structure Kept (s : ModulesVM) (a : Action) : Prop where
  current : a = .fillSignatures → s.phase = .processed → ∀ m ∈ s.snapshot, s.UpToDate m.name
  joined : a = .fillSignatures → s.phase = .processed → ∀ fill, s.sigFill = some fill →
      ∀ m ∈ s.snapshot,
    if s.merged fill then s.Cached m.name else s.Comes fill.id m.name
  listed : a.rebuilds = true → s.phase.waits = true → ∀ m ∈ s.listing,
    m.name ∈ s.snapshot.map (·.name) ∨ s.Cached m.name ∧ s.UpToDate m.name

variable {s} {s' : ModulesVM} {a : Action} {name cell : Str} {id : ℕ} {posts rest : List Post}
  {cells : List (Str × Str)}

theorem mergeCells_cases {m : StringMap Str} (h : (mergeCells m cells)[name]? = some cell) :
    m[name]? = some cell ∨ (name, cell) ∈ cells := by
  induction cells generalizing m with
  | nil => exact .inl h
  | cons first cells ih =>
    obtain hm | hmem := ih h
    · rw [Std.ExtTreeMap.getElem?_insert] at hm
      split_ifs at hm with heq
      · right
        obtain ⟨name', cell'⟩ := first
        obtain rfl := Std.compare_eq_iff_eq.mp heq
        obtain rfl := Option.some.inj hm
        exact List.mem_cons_self
      · exact .inl hm
    · exact .inr (List.mem_cons_of_mem _ hmem)

theorem mergeCells_cached {m : StringMap Str}
    (h : (m[name]?).isSome = true ∨ name ∈ cells.map Prod.fst) :
    ((mergeCells m cells)[name]?).isSome = true := by
  induction cells generalizing m with
  | nil => simpa [mergeCells] using h
  | cons first cells ih =>
    apply ih
    rw [Std.ExtTreeMap.getElem?_insert]
    by_cases heq : compare first.1 name = .eq
    · simp [heq]
    · rw [if_neg heq]
      obtain hm | hmem := h
      · exact .inl hm
      · right
        rw [List.map_cons, List.mem_cons] at hmem
        exact hmem.resolve_left fun h => heq (Std.compare_eq_iff_eq.mpr h.symm)

theorem queued_append (later : List Post) :
    queued id (posts ++ later) = (queued id posts || queued id later) :=
  List.any_append

theorem upTo_append (later : List Post) :
    upTo id (posts ++ later) = if queued id posts then upTo id posts
    else upTo id posts ++ upTo id later := by
  induction posts with
  | nil => rfl
  | cons post posts ih =>
    cases post with
    | rebuild => exact ih
    | merge i cells =>
      by_cases hi : i = id
      · simp [upTo, queued, hi]
      · have hqueued : queued id (.merge i cells :: posts) = queued id posts := by
          simp [queued, hi]
        rw [List.cons_append, upTo, upTo, if_neg hi, if_neg hi, ih, hqueued]
        split_ifs
        · rfl
        · rw [List.append_assoc]

structure Tracked (s : ModulesVM) : Prop where
  current : s.moduleDetail ∈ s.since
  postIds : ∀ id, queued id s.posts = true → id ≤ s.fills
  fillId : ∀ fill, s.sigFill = some fill → fill.id ≤ s.fills
  unposted : ∀ fill, s.sigFill = some fill → fill.posted = false →
      queued fill.id s.posts = false
  waiting : ∀ id, s.phase = .called id → queued id s.posts = true ∨
      (s.reading id).isSome = true
  fresh : s.phase.waits = true → ∀ m ∈ s.snapshot, s.UpToDate m.name
  comes : ∀ id, s.phase = .called id → ∀ m ∈ s.snapshot, s.Comes id m.name
  cached : s.phase = .covered → ∀ m ∈ s.snapshot, s.Cached m.name

def RowsCurrent (s : ModulesVM) : Prop :=
  ∀ m signature, .listed m signature ∈ s.rows → m ∈ s.snapshot ∧
  signature = s.cellOf m.name

theorem tracked_start (loaded : Result (List LoadedModule)) (moduleDetail : Str → Result Driver)
    (daemonAvailability : Bool) : (start loaded moduleDetail daemonAvailability).Tracked where
  current := List.mem_singleton_self _
  postIds _ h := nomatch h
  fillId _ h := nomatch h
  unposted _ h := nomatch h
  waiting _ h := nomatch h
  fresh h := nomatch h
  comes _ h := nomatch h
  cached h := nomatch h

theorem reading_eq {fill : Fill} : s.reading id = some fill ↔ s.sigFill = some fill ∧
    fill.id = id ∧ fill.posted = false := by
  unfold reading
  rw [Option.filter_eq_some_iff]
  simp

theorem reading_none (h : ∀ fill, s.sigFill = some fill → fill.posted = true) :
    s.reading id = none := by
  cases hreading : s.reading id with
  | none => rfl
  | some fill =>
    obtain ⟨hfill, -, hposted⟩ := reading_eq.mp hreading
    rw [h fill hfill] at hposted
    cases hposted

theorem reading_unique {fill other : Fill} (hfill : s.sigFill = some fill)
    (h : s.reading id = some other) :
    other = fill ∧ fill.id = id := by
  obtain ⟨hother, hid, -⟩ := reading_eq.mp h
  obtain rfl := Option.some.inj (hfill.symm.trans hother)
  exact ⟨rfl, hid⟩

theorem Comes.merged_or_posted (h : s.Comes id name) (hnone : s.reading id = none) :
    s.Cached name ∨ name ∈ (upTo id s.posts).map Prod.fst := by
  obtain hcached | hupto | ⟨fill, hfill, -⟩ := h
  · exact .inl hcached
  · exact .inr hupto
  · rw [hnone] at hfill
    cases hfill

theorem mem_uncached {m : LoadedModule} (hm : m ∈ s.snapshot) (hcached : ¬ s.Cached m.name) :
    m.name ∈ s.uncached := by
  apply List.mem_filter.mpr
  refine ⟨List.mem_map_of_mem hm, ?_⟩
  unfold Cached at hcached
  rw [← Std.ExtTreeMap.contains_eq_isSome_getElem?] at hcached
  simpa using hcached

theorem Tracked.signedFresh (h : s.Tracked) (hrows : s.RowsCurrent) : s.SignedFresh := by
  have hcells : s.phase = .covered → ∀ m ∈ s.snapshot,
      ∃ cell, s.signatureCell[m.name]? = some cell ∧ s.Fresh m.name cell := by
    intro hphase m hm
    obtain ⟨cell, hcell⟩ := Option.isSome_iff_exists.mp (h.cached hphase m hm)
    exact ⟨cell, hcell, h.fresh (by rw [hphase]; rfl) m hm cell (.inl hcell)⟩
  refine ⟨hcells, ?_⟩
  intro hphase m signature hrow
  obtain ⟨hm, rfl⟩ := hrows m signature hrow
  obtain ⟨cell, hcell, hfresh⟩ := hcells hphase m hm
  rw [cellOf, hcell]
  exact hfresh

theorem rebuild_rowsCurrent : s.rebuild.RowsCurrent := by
  intro m signature hrow
  have hmem : .listed m signature ∈ ({ s with snapshot := s.listing } : ModulesVM).rowsOf := hrow
  unfold rowsOf at hmem
  split_ifs at hmem
  · simp at hmem
  · simp at hmem
  · obtain ⟨m', hm', heq⟩ := List.mem_map.mp hmem
    injection heq with hm hsignature
    subst hm
    exact ⟨(List.mem_filter.mp hm').1, hsignature.symm⟩

theorem Tracked.rebuild (h : s.Tracked)
    (hlisted : s.phase.waits = true → ∀ m ∈ s.listing,
      m.name ∈ s.snapshot.map (·.name) ∨ s.Cached m.name ∧ s.UpToDate m.name) :
      s.rebuild.Tracked where
  current := h.current
  postIds := h.postIds
  fillId := h.fillId
  unposted := h.unposted
  waiting := h.waiting
  fresh := by
    intro hwaits m hm
    obtain hold | ⟨-, hfresh⟩ := hlisted hwaits m hm
    · exact List.forall_mem_map.mpr (h.fresh hwaits) m.name hold
    · exact hfresh
  comes := by
    intro id hphase m hm
    have hphase' : s.phase = .called id := hphase
    obtain hold | ⟨hcached, -⟩ := hlisted (by rw [hphase']; rfl) m hm
    · exact List.forall_mem_map.mpr (h.comes id hphase) m.name hold
    · exact .inl hcached
  cached := by
    intro hphase m hm
    have hphase' : s.phase = .covered := hphase
    obtain hold | ⟨hcached, -⟩ := hlisted (by rw [hphase']; rfl) m hm
    · exact List.forall_mem_map.mpr (h.cached hphase) m.name hold
    · exact hcached

theorem Tracked.change (h : s.Tracked) (loaded : Result (List LoadedModule))
    (moduleDetail : Str → Result Driver) (daemonAvailability : Bool) :
    ({ s with loaded, moduleDetail, daemonAvailability, since := moduleDetail :: s.since } :
      ModulesVM).Tracked where
  current := List.mem_cons_self
  postIds := h.postIds
  fillId := h.fillId
  unposted := h.unposted
  waiting := h.waiting
  fresh := by
    intro hwaits m hm cell hheld
    obtain ⟨since, hsince, hcell⟩ := h.fresh hwaits m hm cell hheld
    exact ⟨since, List.mem_cons_of_mem _ hsince, hcell⟩
  comes := h.comes
  cached := h.cached

theorem Tracked.publish (h : s.Tracked) : s.publish.Tracked where
  current := List.mem_singleton_self _
  postIds := h.postIds
  fillId := h.fillId
  unposted := h.unposted
  waiting _ hphase := nomatch hphase
  fresh hwaits := nomatch hwaits
  comes _ hphase := nomatch hphase
  cached hphase := nomatch hphase

theorem Tracked.postRebuild (h : s.Tracked) :
    ({ s with posting := s.posting - 1, posts := s.posts ++ [.rebuild] } : ModulesVM).Tracked := by
  have hqueued : ∀ id, queued id (s.posts ++ [.rebuild]) = queued id s.posts := by
    intro id
    rw [queued_append]
    exact Bool.or_false _
  have hupTo : ∀ id, upTo id (s.posts ++ [.rebuild]) = upTo id s.posts := by
    intro id
    rw [upTo_append]
    split_ifs
    · rfl
    · exact List.append_nil _
  constructor
  · exact h.current
  · intro id hid
    exact h.postIds id (by rwa [hqueued] at hid)
  · exact h.fillId
  · intro fill hfill hposted
    exact (hqueued _).trans (h.unposted fill hfill hposted)
  · intro id hphase
    exact (h.waiting id hphase).imp_left fun hid => (hqueued id).trans hid
  · intro hwaits m hm cell hheld
    apply h.fresh hwaits m hm cell
    obtain hshown | hpost | hhand := hheld
    · exact .inl hshown
    · refine .inr (.inl ?_)
      rw [List.flatMap_append] at hpost
      simpa [Post.cells] using hpost
    · exact .inr (.inr hhand)
  · intro id hphase m hm
    have hcomes := h.comes id hphase m hm
    unfold Comes at hcomes ⊢
    rwa [hupTo]
  · exact h.cached

theorem runRebuild_held (hposts : s.posts = .rebuild :: rest)
    (h : (s.runRebuild rest).Held name cell) :
    s.Held name cell := by
  unfold Held
  rw [hposts]
  exact h

theorem runRebuild_phase : (s.runRebuild rest).phase = if s.phase = .announced then .processed
    else s.phase := rfl

theorem runRebuild_waits : (s.runRebuild rest).phase.waits = s.phase.waits := by
  rw [runRebuild_phase]
  split_ifs with hphase
  · rw [hphase]
    rfl
  · rfl

theorem Tracked.runRebuild (h : s.Tracked) (hposts : s.posts = .rebuild :: rest) :
    (s.runRebuild rest).Tracked := by
  have hqueued : ∀ id, queued id s.posts = queued id rest := by
    intro id
    rw [hposts]
    rfl
  have hupTo : ∀ id, upTo id s.posts = upTo id rest := by
    intro id
    rw [hposts]
    rfl
  have hphase : ∀ phase, (s.runRebuild rest).phase = phase → phase ≠ .processed →
      s.phase = phase := by
    intro phase heq hne
    rw [runRebuild_phase] at heq
    split_ifs at heq
    · exact absurd heq.symm hne
    · exact heq
  constructor
  · exact h.current
  · intro id hid
    exact h.postIds id (by rwa [hqueued])
  · exact h.fillId
  · intro fill hfill hposted
    exact (hqueued _).symm.trans (h.unposted fill hfill hposted)
  · intro id hid
    exact (h.waiting id (hphase _ hid nofun)).imp_left fun hq => (hqueued id).symm.trans hq
  · intro hwaits m hm cell hheld
    rw [runRebuild_waits] at hwaits
    exact h.fresh hwaits m hm cell (runRebuild_held hposts hheld)
  · intro id hid m hm
    have hcomes := h.comes id (hphase _ hid nofun) m hm
    unfold Comes at hcomes ⊢
    rwa [hupTo] at hcomes
  · intro hcovered
    exact h.cached (hphase _ hcovered nofun)

theorem runMerge_held (hposts : s.posts = .merge id cells :: rest)
    (h : (s.runMerge id cells rest).Held name cell) :
    s.Held name cell := by
  unfold Held
  rw [hposts, List.flatMap_cons, List.mem_append]
  obtain hshown | hpost | hhand := h
  · obtain hold | hnew := mergeCells_cases hshown
    · exact .inl hold
    · exact .inr (.inl (.inl hnew))
  · exact .inr (.inl (.inr hpost))
  · exact .inr (.inr hhand)

theorem runMerge_phase :
    (s.runMerge id cells rest).phase = if s.phase = .called id then .covered else s.phase := rfl

theorem runMerge_waits : (s.runMerge id cells rest).phase.waits = s.phase.waits := by
  rw [runMerge_phase]
  split_ifs with hphase
  · rw [hphase]
    rfl
  · rfl

theorem Tracked.runMerge (h : s.Tracked) (hposts : s.posts = .merge id cells :: rest) :
    (s.runMerge id cells rest).Tracked := by
  have hqueued : ∀ k, queued k s.posts = (decide (id = k) || queued k rest) := by
    intro k
    rw [hposts]
    rfl
  have hupTo : ∀ k, upTo k s.posts = if id = k then cells else cells ++ upTo k rest := by
    intro k
    rw [hposts]
    rfl
  -- a call that waits for this merge has none to wait for any more
  have hphase : ∀ k, (s.runMerge id cells rest).phase = .called k →
      s.phase = .called k ∧ id ≠ k := by
    intro k hk
    rw [runMerge_phase] at hk
    split_ifs at hk with hid
    refine ⟨hk, ?_⟩
    intro heq
    exact hid (heq ▸ hk)
  constructor
  · exact h.current
  · intro k hk
    have hrest : queued k rest = true := hk
    apply h.postIds k
    rw [hqueued, hrest, Bool.or_true]
  · exact h.fillId
  · intro fill hfill hposted
    have hnone := h.unposted fill hfill hposted
    rw [hqueued, Bool.or_eq_false_iff] at hnone
    exact hnone.2
  · intro k hk
    obtain ⟨hk, hne⟩ := hphase k hk
    refine (h.waiting k hk).imp_left ?_
    intro hq
    rw [hqueued, decide_eq_false hne, Bool.false_or] at hq
    exact hq
  · intro hwaits m hm cell hheld
    rw [runMerge_waits] at hwaits
    exact h.fresh hwaits m hm cell (runMerge_held hposts hheld)
  · intro k hk m hm
    obtain ⟨hk, hne⟩ := hphase k hk
    obtain hcached | hupto | hreading := h.comes k hk m hm
    · exact .inl (mergeCells_cached (.inl hcached))
    · rw [hupTo, if_neg hne, List.map_append, List.mem_append] at hupto
      obtain hcells | hlater := hupto
      · exact .inl (mergeCells_cached (.inr hcells))
      · exact .inr (.inl hlater)
    · exact .inr (.inr hreading)
  · intro hcovered m hm
    rw [runMerge_phase] at hcovered
    split_ifs at hcovered with hid
    · obtain hcached | hupto | ⟨fill, hfill, -⟩ := h.comes id hid m hm
      · exact mergeCells_cached (.inl hcached)
      · rw [hupTo, if_pos rfl] at hupto
        exact mergeCells_cached (.inr hupto)
      · obtain ⟨hsome, rfl, hposted⟩ := reading_eq.mp hfill
        have hnone := h.unposted fill hsome hposted
        rw [hqueued] at hnone
        simp at hnone
    · exact mergeCells_cached (.inl (h.cached hcovered m hm))

theorem call_phase (phase : Phase) : (s.call phase).phase = if s.phase = .processed then phase
    else s.phase := rfl

theorem Tracked.call (h : s.Tracked) {phase : Phase}
    (hwaiting : ∀ id, phase = .called id → queued id s.posts = true ∨
      (s.reading id).isSome = true)
    (hfresh : s.phase = .processed → ∀ m ∈ s.snapshot, s.UpToDate m.name)
    (hcomes : s.phase = .processed → ∀ id, phase = .called id →
      ∀ m ∈ s.snapshot, s.Comes id m.name)
    (hcached : s.phase = .processed → phase = .covered →
      ∀ m ∈ s.snapshot, s.Cached m.name) :
    (s.call phase).Tracked := by
  by_cases hprocessed : s.phase = .processed
  · have hphase : (s.call phase).phase = phase := by rw [call_phase, if_pos hprocessed]
    exact ⟨h.current, h.postIds, h.fillId, h.unposted, fun id hid => hwaiting id (hphase ▸ hid),
      fun _ => hfresh hprocessed, fun id hid => hcomes hprocessed id (hphase ▸ hid),
      fun hcovered => hcached hprocessed (hphase ▸ hcovered)⟩
  · have hsame : s.call phase = s := by
      unfold ModulesVM.call
      rw [if_neg hprocessed]
    rw [hsame]
    exact h

theorem Tracked.begin (h : s.Tracked) (hnone : s.sigFill = none)
    (hfresh : s.phase = .processed → ∀ m ∈ s.snapshot, s.UpToDate m.name) :
    ({ s.call (.called (s.fills + 1)) with
      sigFill := some ⟨s.fills + 1, s.uncached, [], false⟩
      fills := s.fills + 1 } : ModulesVM).Tracked := by
  have hreading : ∀ id, s.reading id = none := by
    intro id
    apply reading_none
    rw [hnone]
    exact nofun
  have hfill : ∀ {fill}, some (⟨s.fills + 1, s.uncached, [], false⟩ : Fill) = some fill →
      fill = ⟨s.fills + 1, s.uncached, [], false⟩ := fun heq => (Option.some.inj heq).symm
  have hphase : ∀ id, (s.call (.called (s.fills + 1))).phase = .called id →
      s.phase = .processed ∧ id = s.fills + 1 ∨ s.phase = .called id := by
    intro id hid
    rw [call_phase] at hid
    split_ifs at hid with hprocessed
    · injection hid with hid
      exact .inl ⟨hprocessed, hid.symm⟩
    · exact .inr hid
  constructor
  · exact h.current
  · intro id hid
    exact (h.postIds id hid).trans (Nat.le_succ _)
  · intro fill heq
    rw [hfill heq]
  · intro fill heq _
    rw [hfill heq, ← Bool.not_eq_true]
    intro hqueued
    have hle := h.postIds _ hqueued
    dsimp only at hle
    omega
  · intro id hid
    obtain ⟨-, rfl⟩ | hcalled := hphase id hid
    · exact .inr (by simp [reading])
    · refine .inl ((h.waiting id hcalled).resolve_right ?_)
      rw [hreading]
      exact nofun
  · intro hwaits m hm cell hheld
    have hheld' : s.Held m.name cell := by
      obtain hshown | hpost | hhand := hheld
      · exact .inl hshown
      · exact .inr (.inl hpost)
      · cases hhand
    have hwaits' : (s.call (.called (s.fills + 1))).phase.waits = true := hwaits
    rw [call_phase] at hwaits'
    split_ifs at hwaits' with hprocessed
    · exact hfresh hprocessed m hm cell hheld'
    · exact h.fresh hwaits' m hm cell hheld'
  · intro id hid m hm
    obtain ⟨-, rfl⟩ | hcalled := hphase id hid
    · by_cases hcached : s.Cached m.name
      · exact .inl hcached
      · exact .inr
          (.inr ⟨_, reading_eq.mpr ⟨rfl, rfl, rfl⟩, .inr (mem_uncached hm hcached)⟩)
    · obtain hcached | hupto := (h.comes id hcalled m hm).merged_or_posted (hreading id)
      · exact .inl hcached
      · exact .inr (.inl hupto)
  · intro hcovered m hm
    have hcovered' : (s.call (.called (s.fills + 1))).phase = .covered := hcovered
    rw [call_phase] at hcovered'
    split_ifs at hcovered'
    exact h.cached hcovered' m hm

theorem Tracked.fillSignatures (h : s.Tracked) (hkept : s.Kept .fillSignatures) :
    s.fillSignatures.Tracked := by
  have hno : ∀ id, Phase.covered ≠ .called id := nofun
  unfold ModulesVM.fillSignatures
  cases hfill : s.sigFill with
  | some fill =>
    dsimp only
    have hjoined := fun hprocessed => hkept.joined rfl hprocessed fill hfill
    cases hmerged : s.merged fill with
    | true =>
      rw [if_pos rfl]
      refine h.call (fun id hid => (hno id hid).elim) (hkept.current rfl)
        (fun _ id hid => (hno id hid).elim) ?_
      intro hprocessed _ m hm
      have hcached := hjoined hprocessed m hm
      rwa [if_pos hmerged] at hcached
    | false =>
      rw [if_neg Bool.false_ne_true]
      refine h.call ?_ (hkept.current rfl) ?_ (fun _ => nofun)
      · intro id hid
        injection hid with hid
        subst hid
        unfold merged at hmerged
        cases hposted : fill.posted with
        | true =>
          rw [hposted] at hmerged
          exact .inl (by simpa using hmerged)
        | false => exact .inr (Option.isSome_of_eq_some (reading_eq.mpr ⟨hfill, rfl, hposted⟩))
      · intro hprocessed id hid m hm
        injection hid with hid
        subst hid
        have hcomes := hjoined hprocessed m hm
        rwa [hmerged, if_neg Bool.false_ne_true] at hcomes
  | none =>
    dsimp only
    split_ifs with hempty
    · refine h.call (fun id hid => (hno id hid).elim) (hkept.current rfl)
        (fun _ id hid => (hno id hid).elim) ?_
      intro _ _ m hm
      by_contra hcached
      have hmem : m.name ∈ s.uncached := mem_uncached hm hcached
      rw [List.isEmpty_iff.mp hempty] at hmem
      cases hmem
    · exact h.begin hfill (hkept.current rfl)

theorem readNext_inv (hstep : s.readNext = some s') : ∃ id name left cells,
    s.sigFill = some ⟨id, name :: left, cells, false⟩ ∧
    s' = { s with
      sigFill :=
        some ⟨id, left, cells ++ [(name, signatureCellFor (s.moduleDetail name))],
        false⟩ } := by
  unfold ModulesVM.readNext at hstep
  split at hstep
  · exact ⟨_, _, _, _, ‹_›, (Option.some.inj hstep).symm⟩
  · cases hstep

theorem postMerge_inv (hstep : s.postMerge = some s') :
    ∃ id cells, s.sigFill = some ⟨id, [], cells, false⟩ ∧
    s' = { s with
      sigFill := some ⟨id, [], cells, true⟩
      posts := s.posts ++ [.merge id cells] } := by
  unfold ModulesVM.postMerge at hstep
  split at hstep
  · exact ⟨_, _, ‹_›, (Option.some.inj hstep).symm⟩
  · cases hstep

theorem endFill_inv (hstep : s.endFill = some s') :
    (∃ fill, s.sigFill = some fill ∧ fill.posted = true) ∧
    s' = { s with sigFill := none } := by
  unfold ModulesVM.endFill at hstep
  split at hstep
  · exact ⟨⟨_, ‹_›, rfl⟩, (Option.some.inj hstep).symm⟩
  · cases hstep

theorem Tracked.readNext (h : s.Tracked) (hstep : s.readNext = some s') : s'.Tracked := by
  obtain ⟨k, name, left, cells, hfill, rfl⟩ := readNext_inv hstep
  have hnew :
      ∀ {fill}, some (⟨k, left, cells ++ [(name, signatureCellFor (s.moduleDetail name))],
        false⟩ : Fill) =
      some fill →
      fill = ⟨k, left, cells ++ [(name, signatureCellFor (s.moduleDetail name))], false⟩ :=
    fun heq => (Option.some.inj heq).symm
  constructor
  · exact h.current
  · exact h.postIds
  · intro fill heq
    have hle := h.fillId _ hfill
    rwa [hnew heq]
  · intro fill heq _
    have hnone := h.unposted _ hfill rfl
    rwa [hnew heq]
  · intro id hid
    apply (h.waiting id hid).imp_right
    intro hreading
    obtain ⟨fill, hfill'⟩ := Option.isSome_iff_exists.mp hreading
    obtain ⟨-, rfl⟩ := reading_unique hfill hfill'
    exact Option.isSome_of_eq_some (reading_eq.mpr ⟨rfl, rfl, rfl⟩)
  · intro hwaits m hm cell hheld
    obtain hshown | hpost | hhand := hheld
    · exact h.fresh hwaits m hm cell (.inl hshown)
    · exact h.fresh hwaits m hm cell (.inr (.inl hpost))
    · have hmem : (m.name, cell) ∈ cells ++ [(name, signatureCellFor (s.moduleDetail name))] :=
        hhand
      obtain hold | hread := List.mem_append.mp hmem
      · apply h.fresh hwaits m hm cell
        right; right
        unfold inHand
        rw [hfill]
        exact hold
      · rw [List.mem_singleton, Prod.mk.injEq] at hread
        obtain ⟨rfl, rfl⟩ := hread
        exact ⟨s.moduleDetail, h.current, rfl⟩
  · intro id hid m hm
    obtain hcached | hupto | ⟨fill, hfill', hmem⟩ := h.comes id hid m hm
    · exact .inl hcached
    · exact .inr (.inl hupto)
    · obtain ⟨rfl, rfl⟩ := reading_unique hfill hfill'
      refine .inr (.inr ⟨_, reading_eq.mpr ⟨rfl, rfl, rfl⟩, ?_⟩)
      rw [List.map_append, List.mem_append]
      obtain hread | hleft := hmem
      · exact .inl (.inl hread)
      · obtain hfirst | hlater := List.mem_cons.mp hleft
        · exact .inl (.inr (by rw [hfirst]; exact List.mem_singleton_self _))
        · exact .inr hlater
  · exact h.cached

theorem Tracked.postMerge (h : s.Tracked) (hstep : s.postMerge = some s') : s'.Tracked := by
  obtain ⟨k, cells, hfill, rfl⟩ := postMerge_inv hstep
  have hqueued : ∀ id, queued id (s.posts ++ [.merge k cells]) =
      (queued id s.posts || decide (k = id)) := by
    intro id
    rw [queued_append]
    exact congrArg _ (Bool.or_false _)
  have hunposted : queued k s.posts = false := h.unposted _ hfill rfl
  constructor
  · exact h.current
  · intro id hid
    rw [hqueued, Bool.or_eq_true] at hid
    obtain hold | hnew := hid
    · exact h.postIds id hold
    · rw [← of_decide_eq_true hnew]
      exact h.fillId _ hfill
  · intro fill heq
    have hle := h.fillId _ hfill
    rwa [← Option.some.inj heq]
  · intro fill heq hposted
    rw [← Option.some.inj heq] at hposted
    cases hposted
  · intro id hid
    left
    rw [hqueued, Bool.or_eq_true]
    obtain hold | hreading := h.waiting id hid
    · exact .inl hold
    · obtain ⟨fill, hfill'⟩ := Option.isSome_iff_exists.mp hreading
      exact .inr (decide_eq_true (reading_unique hfill hfill').2)
  · intro hwaits m hm cell hheld
    apply h.fresh hwaits m hm cell
    obtain hshown | hpost | hhand := hheld
    · exact .inl hshown
    · rw [List.flatMap_append, List.mem_append] at hpost
      obtain hold | hnew := hpost
      · exact .inr (.inl hold)
      · right; right
        unfold inHand
        rw [hfill]
        have hcells : (m.name, cell) ∈ cells := by simpa [Post.cells] using hnew
        exact hcells
    · cases hhand
  · intro id hid m hm
    obtain hcached | hupto | ⟨fill, hfill', hmem⟩ := h.comes id hid m hm
    · exact .inl hcached
    · right; left
      rw [upTo_append]
      split_ifs
      · exact hupto
      · rw [List.map_append, List.mem_append]
        exact .inl hupto
    · obtain ⟨rfl, rfl⟩ := reading_unique hfill hfill'
      right; left
      rw [upTo_append, hunposted, if_neg Bool.false_ne_true, List.map_append, List.mem_append]
      right
      simpa [upTo] using hmem
  · exact h.cached

theorem Tracked.endFill (h : s.Tracked) (hstep : s.endFill = some s') : s'.Tracked := by
  obtain ⟨⟨fill, hfill, hposted⟩, rfl⟩ := endFill_inv hstep
  have hreading : ∀ id, s.reading id = none := by
    intro id
    apply reading_none
    intro other hother
    obtain rfl := Option.some.inj (hfill.symm.trans hother)
    exact hposted
  constructor
  · exact h.current
  · exact h.postIds
  · exact nofun
  · exact nofun
  · intro id hid
    apply (h.waiting id hid).imp_right
    rw [hreading]
    exact nofun
  · intro hwaits m hm cell hheld
    apply h.fresh hwaits m hm cell
    obtain hshown | hpost | hhand := hheld
    · exact .inl hshown
    · exact .inr (.inl hpost)
    · cases hhand
  · intro id hid m hm
    obtain hcached | hupto := (h.comes id hid m hm).merged_or_posted (hreading id)
    · exact .inl hcached
    · exact .inr (.inl hupto)
  · exact h.cached

theorem Tracked.step (h : s.Tracked) (hrows : s.RowsCurrent) (hkept : s.Kept a)
    (hstep : s.step a = some s') :
    s'.Tracked ∧ s'.RowsCurrent := by
  have hsame : ∀ {t : ModulesVM}, t.snapshot = s.snapshot → t.rows = s.rows →
      t.signatureCell = s.signatureCell →
      t.RowsCurrent := by
    intro t hsnapshot hrow hcells
    unfold RowsCurrent cellOf
    rw [hsnapshot, hrow, hcells]
    exact hrows
  cases a with
  | change loaded moduleDetail daemonAvailability =>
    obtain rfl := Option.some.inj hstep
    exact ⟨h.change loaded moduleDetail daemonAvailability, hrows⟩
  | publish =>
    obtain rfl := Option.some.inj hstep
    exact ⟨h.publish, hrows⟩
  | postRebuild =>
    obtain ⟨-, hstep⟩ := Option.ite_none_left_eq_some.mp hstep
    obtain rfl := Option.some.inj hstep
    exact ⟨h.postRebuild, hrows⟩
  | runPost =>
    unfold ModulesVM.step at hstep
    dsimp only at hstep
    split at hstep
    · cases hstep
    · rename_i rest hposts
      obtain rfl := Option.some.inj hstep
      refine ⟨(h.runRebuild hposts).rebuild ?_, rebuild_rowsCurrent⟩
      intro hwaits m hm
      rw [runRebuild_waits] at hwaits
      obtain hold | ⟨hcached, hfresh⟩ := hkept.listed rfl hwaits m hm
      · exact .inl hold
      · exact .inr ⟨hcached, fun cell hheld => hfresh cell (runRebuild_held hposts hheld)⟩
    · rename_i id cells rest hposts
      obtain rfl := Option.some.inj hstep
      refine ⟨(h.runMerge hposts).rebuild ?_, rebuild_rowsCurrent⟩
      intro hwaits m hm
      rw [runMerge_waits] at hwaits
      obtain hold | ⟨hcached, hfresh⟩ := hkept.listed rfl hwaits m hm
      · exact .inl hold
      · exact .inr ⟨mergeCells_cached (.inl hcached),
          fun cell hheld => hfresh cell (runMerge_held hposts hheld)⟩
  | rebuild =>
    obtain rfl := Option.some.inj hstep
    exact ⟨h.rebuild (hkept.listed rfl), rebuild_rowsCurrent⟩
  | setFilter filter =>
    obtain rfl := Option.some.inj hstep
    have hfiltered : ({ s with filter := filter.map toLower } : ModulesVM).Tracked :=
      ⟨h.current, h.postIds, h.fillId, h.unposted, h.waiting, h.fresh, h.comes, h.cached⟩
    exact ⟨hfiltered.rebuild (hkept.listed rfl), rebuild_rowsCurrent⟩
  | fillSignatures =>
    obtain rfl := Option.some.inj hstep
    refine ⟨h.fillSignatures hkept, ?_⟩
    unfold ModulesVM.fillSignatures
    split
    · exact hsame rfl rfl rfl
    · split_ifs
      · exact hsame rfl rfl rfl
      · exact hsame rfl rfl rfl
  | readNext =>
    refine ⟨h.readNext hstep, ?_⟩
    obtain ⟨-, -, -, -, -, rfl⟩ := readNext_inv hstep
    exact hsame rfl rfl rfl
  | postMerge =>
    refine ⟨h.postMerge hstep, ?_⟩
    obtain ⟨-, -, -, rfl⟩ := postMerge_inv hstep
    exact hsame rfl rfl rfl
  | endFill =>
    refine ⟨h.endFill hstep, ?_⟩
    obtain ⟨-, rfl⟩ := endFill_inv hstep
    exact hsame rfl rfl rfl

/-- In runs that keep to these conditions the signatures are fresh after every change. -/
theorem signatures_fresh (loaded : Result (List LoadedModule)) (moduleDetail : Str → Result Driver)
    (daemonAvailability : Bool) {actions : List Action}
    (hkept : MeetsSome step (fun s a _ => s.Kept a)
      (start loaded moduleDetail daemonAvailability) actions) :
    MeetsSome step (fun _ _ s' => s'.SignedFresh)
      (start loaded moduleDetail daemonAvailability) actions := by
  refine meetsSome_of_invariant (I := fun s => s.Tracked ∧ s.RowsCurrent) step ?_
    ⟨tracked_start loaded moduleDetail daemonAvailability, nofun⟩ hkept
  intro s a s' h hstep hc
  obtain ⟨htracked, hrows⟩ := h.1.step h.2 hc hstep
  exact ⟨⟨htracked, hrows⟩, htracked.signedFresh hrows⟩

section Replaced

def dummy : LoadedModule := ⟨str "dummy", 0, 0, []⟩

def signedBuild (_ : Str) : Result Driver := .ok ⟨true, none⟩

def noBuild (_ : Str) : Result Driver := makeError .notFound (str "no such module")

def refill : List Action := [.fillSignatures, .readNext, .postMerge, .endFill, .runPost]

theorem dummy_signed :
    (runSome step (start (.ok [dummy]) signedBuild false)
      ([.publish, .postRebuild, .runPost] ++ refill)).map (·.phase) =
      some .covered ∧
    MeetsSome step (fun _ _ s' => s'.SignedFresh) (start (.ok [dummy]) signedBuild false)
      ([.publish, .postRebuild, .runPost] ++ refill) := by
  refine ⟨rfl, signatures_fresh _ _ _ ?_⟩
  have hquiet : ∀ {s : ModulesVM} {a : Action}, a ≠ .fillSignatures → s.phase.waits = false →
      s.Kept a := by
    intro s a ha hwaits
    exact ⟨fun h => absurd h ha, fun h => absurd h ha,
      fun _ h => absurd h (by rw [hwaits]; exact Bool.false_ne_true)⟩
  refine meetsSome_cons _ rfl (hquiet nofun rfl) (meetsSome_cons _ rfl (hquiet nofun rfl)
    (meetsSome_cons _ rfl (hquiet nofun rfl) (meetsSome_cons _ rfl ?_
    (meetsSome_cons _ rfl ⟨nofun, nofun, nofun⟩ (meetsSome_cons _ rfl ⟨nofun, nofun, nofun⟩
    (meetsSome_cons _ rfl ⟨nofun, nofun, nofun⟩
    (meetsSome_cons _ rfl ⟨nofun, nofun, ?_⟩ trivial)))))))
  · refine ⟨?_, fun _ _ => nofun, nofun⟩
    intro _ _ m _ cell hheld
    obtain hshown | hpost | hhand := hheld
    · have hnone : (∅ : StringMap Str)[m.name]? = none := Std.ExtTreeMap.getElem?_empty
      exact absurd (hnone.symm.trans hshown) nofun
    · cases hpost
    · cases hhand
  · exact fun _ _ m hm => .inl (List.mem_map_of_mem hm)

theorem replaced_module_stale : ¬ ∀ loaded moduleDetail daemonAvailability actions,
    MeetsSome step (fun _ _ s' => s'.SignedFresh)
      (start loaded moduleDetail daemonAvailability) actions := by
  intro hall
  have h := hall (.ok [dummy]) noBuild false (.rebuild :: refill ++
    [.change (.ok [dummy]) signedBuild false, .publish, .postRebuild, .runPost, .fillSignatures])
  have hfresh := (h _ rfl).2 _ rfl |>.2 _ rfl |>.2 _ rfl |>.2 _ rfl |>.2 _ rfl |>.2 _ rfl
    |>.2 _ rfl |>.2 _ rfl
    |>.2 _ rfl |>.2 _ rfl |>.1
  obtain ⟨cell, hcell, since, hsince, heq⟩ := hfresh.cells rfl dummy (List.mem_singleton_self _)
  obtain rfl : since = signedBuild := List.mem_singleton.mp hsince
  have hkept : some (str "?") = some cell := hcell
  rw [heq] at hkept
  revert hkept
  decide

end Replaced

end ModulesVM

end DevMgr.App
