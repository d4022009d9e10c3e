import DevMgr.Core.SnapshotDiff
import DevMgr.Library.FileTree
import DevMgr.Library.Run

/-!
# The restore preview

A preview is requested on the UI thread, its diff is fetched by a worker and kept
by the facade, and a closure posted to the UI thread ends the waiting. The closure
does not say which request it belongs to.
-/

open DevMgr.Core

namespace DevMgr.App
open Bytes Run

def kindColumn (kind : Str) : Str := kind ++ List.replicate (9 - kind.length) 32

def diffEntryLine (entry : SnapshotDiffEntry) : Str :=
  (kindColumn (FileTree.cString entry.kind) ++ FileTree.cString entry.key ++ str ": " ++
    FileTree.cString entry.before ++ str " -> " ++ FileTree.cString entry.after).take 255

def entryLines (diff : SnapshotDiff) : List Str :=
  if diff.identical then [str "No differences."] else diff.entries.map diffEntryLine

def restorePreviewChangeLines : Option SnapshotDiff → List Str
  | none => [str "What will change is unavailable — the diff could not be computed."]
  | some diff =>
    if diff.identical then
      [str "This snapshot already matches the current state; nothing would change."]
    else str "Differences (snapshot -> current state):" :: (entryLines diff).map (str "  " ++ ·) ++
      [str "Restoring re-applies the snapshot side of every row above."]

def restorePreviewConvergenceNote : Str :=
  str
    "Convergence may be partial: the critical-device guard can refuse individual items. The restore still completes and reports every item."

inductive DiffWorker where
  | fetching (id : Str)
  | stored (id : Str)
  deriving DecidableEq

/-- `waiting` is a request in `lastDiff_.wait()`, where the UI thread does nothing else. Beside the
facade stands the snapshot its cached diff was fetched for. -/
structure Preview where
  previewId : Option Str
  previewPending : Bool
  waiting : Option Str
  worker : Option DiffWorker
  diff : Option SnapshotDiff
  fetched : Option Str
  posted : ℕ

inductive Shown where
  | unrequested
  | computing
  | unavailable
  | diff (d : SnapshotDiff)

namespace Preview

inductive Action where
  | requestPreview (id : Str)
  | refreshSnapshotDiff
  | store (reply : Result (List SnapshotDiffEntry))
  | publish
  | runClosure

def start : Preview where
  previewId := none
  previewPending := false
  waiting := none
  worker := none
  diff := none
  fetched := none
  posted := 0

def shown (s : Preview) : Shown :=
  match s.previewId with
  | none => .unrequested
  | some _ =>
    if s.previewPending then .computing
    else match s.diff with
      | none => .unavailable
      | some d => .diff d

def diffLines (s : Preview) : List Str :=
  match s.shown with
  | .unrequested => [str "(no diff requested)"]
  | .computing => [str "Computing differences..."]
  | .unavailable => [str "Differences are unavailable for this snapshot."]
  | .diff d => entryLines d

def previewLines (context : Str → List Str) (s : Preview) : List Str :=
  match s.previewId with
  | none => [str "Select a snapshot to preview its restore."]
  | some id =>
    [str "Restore snapshot " ++ id.take 12 ++ str "?"] ++ context id ++ [[]] ++
      if s.previewPending then [str "Computing what will change..."]
      else restorePreviewChangeLines s.diff ++ [[], restorePreviewConvergenceNote]

def requestPreview (s : Preview) (id : Str) : Preview :=
  { s with previewId := some id, previewPending := true, waiting := some id }

def startWorker (s : Preview) (id : Str) : Preview :=
  { s with waiting := none, worker := some (.fetching id) }

def store (s : Preview) (id : Str) (reply : Result (List SnapshotDiffEntry)) : Preview :=
  { s with
    worker := some (.stored id)
    diff := match reply with
      | .ok entries => some ⟨id, [], entries⟩
      | .error _ => none
    fetched := some id }

def publish (s : Preview) : Preview := { s with worker := none, posted := s.posted + 1 }

def runClosure (s : Preview) : Preview := { s with posted := s.posted - 1, previewPending := false }

def step (s : Preview) : Action → Option Preview
  | .requestPreview id => if s.waiting = none then some (s.requestPreview id) else none
  | .refreshSnapshotDiff =>
    match s.waiting, s.worker with
    | some id, none => some (s.startWorker id)
    | _, _ => none
  | .store reply =>
    match s.worker with
    | some (.fetching id) => some (s.store id reply)
    | _ => none
  | .publish =>
    match s.worker with
    | some (.stored _) => some s.publish
    | _ => none
  | .runClosure => if s.waiting = none ∧ 0 < s.posted then some s.runClosure else none

/-- What is shown belongs to the snapshot it is shown for. -/
def Consistent (s : Preview) : Prop :=
  match s.shown with
  | .diff d => s.previewId = some d.baseId
  | .unavailable => s.fetched = s.previewId
  | _ => True

/-- While a fetch runs, no closure of an earlier one is executed, unless both are for one
snapshot. -/
def InTurn (s : Preview) : Action → Preview → Prop
  | .runClosure, _ => ∀ id, s.worker = some (.fetching id) → s.fetched = some id
  | _, _ => True

structure Sound (s : Preview) : Prop where
  waiting : ∀ id, s.waiting = some id → s.previewId = some id ∧ s.previewPending = true
  fetching : ∀ id, s.waiting = none → s.worker = some (.fetching id) → s.previewId = some id
  fetched : s.waiting = none → (∀ id, s.worker ≠ some (.fetching id)) →
      s.fetched = s.previewId
  base : ∀ d, s.diff = some d → s.fetched = some d.baseId
  settled : s.previewPending = false → s.fetched = s.previewId

variable {s s' : Preview} {a : Action}

theorem Sound.consistent_iff (h : s.Sound) :
    s.Consistent ↔ ∀ id, s.previewId = some id → s.previewPending = false →
    s.fetched = some id := by
  unfold Consistent shown
  cases hid : s.previewId with
  | none => simp
  | some id =>
    cases hpending : s.previewPending with
    | true => simp
    | false =>
      cases hdiff : s.diff with
      | none => simp
      | some d => simp [h.base d hdiff, eq_comm]

theorem sound_start : start.Sound :=
  ⟨nofun, nofun, fun _ _ => rfl, nofun, fun _ => rfl⟩

theorem Sound.requestPreview (h : s.Sound) (id : Str) : (s.requestPreview id).Sound :=
  ⟨fun _ hid => ⟨hid, rfl⟩, nofun, nofun, h.base, nofun⟩

theorem Sound.startWorker (h : s.Sound) {id : Str} (hwaiting : s.waiting = some id) :
    (s.startWorker id).Sound := by
  obtain ⟨hid, hpending⟩ := h.waiting id hwaiting
  refine ⟨nofun, fun id' _ hworker => ?_, fun _ hnone => absurd rfl (hnone id),
    h.base, fun hsettled => ?_⟩
  · cases hworker
    exact hid
  · exact absurd (hpending.symm.trans hsettled) nofun

theorem Sound.store (h : s.Sound) {id : Str} (hworker : s.worker = some (.fetching id))
    (reply : Result (List SnapshotDiffEntry)) : (s.store id reply).Sound := by
  have hfetched : s.waiting = none → (s.store id reply).fetched = s.previewId :=
    fun hwaiting => (h.fetching id hwaiting hworker).symm
  refine ⟨h.waiting, nofun, fun hwaiting _ => hfetched hwaiting, fun d hd => ?_,
    fun hsettled => ?_⟩
  · cases reply with
    | error e => cases hd
    | ok entries =>
      cases hd
      rfl
  · cases hwaiting : s.waiting with
    | none => exact hfetched hwaiting
    | some id' => exact absurd ((h.waiting id' hwaiting).2.symm.trans hsettled) nofun

theorem Sound.publish (h : s.Sound) {id : Str} (hworker : s.worker = some (.stored id)) :
    s.publish.Sound :=
  ⟨h.waiting, nofun, fun hwaiting _ => h.fetched hwaiting fun _ hid' =>
    absurd (hworker.symm.trans hid') nofun, h.base, h.settled⟩

theorem Sound.runClosure (h : s.Sound) (hwaiting : s.waiting = none)
    (hturn : s.InTurn .runClosure s.runClosure) : s.runClosure.Sound := by
  refine ⟨fun id hid => absurd (hwaiting.symm.trans hid) nofun, h.fetching, h.fetched,
    h.base, fun _ => ?_⟩
  by_cases hfetching : ∃ id, s.worker = some (.fetching id)
  · obtain ⟨id, hworker⟩ := hfetching
    exact (hturn id hworker).trans (h.fetching id hwaiting hworker).symm
  · exact h.fetched hwaiting fun id hworker => hfetching ⟨id, hworker⟩

theorem Sound.step (h : s.Sound) (hstep : s.step a = some s') (hturn : s.InTurn a s') :
    s'.Sound := by
  cases a with
  | requestPreview id =>
    obtain ⟨-, hs'⟩ := Option.ite_none_right_eq_some.mp hstep
    exact Option.some.inj hs' ▸ h.requestPreview id
  | refreshSnapshotDiff =>
    simp only [Preview.step] at hstep
    split at hstep
    · rename_i hwaiting _
      exact Option.some.inj hstep ▸ h.startWorker hwaiting
    · cases hstep
  | store reply =>
    simp only [Preview.step] at hstep
    split at hstep
    · rename_i hworker
      exact Option.some.inj hstep ▸ h.store hworker reply
    · cases hstep
  | publish =>
    simp only [Preview.step] at hstep
    split at hstep
    · rename_i hworker
      exact Option.some.inj hstep ▸ h.publish hworker
    · cases hstep
  | runClosure =>
    obtain ⟨⟨hwaiting, -⟩, hs'⟩ := Option.ite_none_right_eq_some.mp hstep
    exact Option.some.inj hs' ▸ h.runClosure hwaiting hturn

theorem Sound.consistent (h : s.Sound) : s.Consistent :=
  h.consistent_iff.mpr fun _ hid hsettled => (h.settled hsettled).trans hid

theorem inTurn_of_consistent (h : s.Sound) (hstep : s.step a = some s')
    (hconsistent : s'.Consistent) :
    s.InTurn a s' := by
  cases a with
  | runClosure =>
    obtain ⟨⟨hwaiting, -⟩, hs'⟩ := Option.ite_none_right_eq_some.mp hstep
    obtain rfl := Option.some.inj hs'
    intro id hworker
    have hid := h.fetching id hwaiting hworker
    unfold Consistent shown at hconsistent
    change (match (match s.previewId with
      | none => Shown.unrequested
      | some _ => match s.diff with
        | none => .unavailable
        | some d => .diff d) with
      | .diff d => s.previewId = some d.baseId
      | .unavailable => s.fetched = s.previewId
      | _ => True) at hconsistent
    rw [hid] at hconsistent
    cases hdiff : s.diff with
    | none =>
      rw [hdiff] at hconsistent
      exact hconsistent
    | some d =>
      rw [hdiff] at hconsistent
      exact (h.base d hdiff).trans hconsistent.symm
  | _ => trivial

/-- In a run every state shows the preview of the snapshot it names exactly when every closure is
executed in its turn. -/
theorem previews_consistent_iff (actions : List Action) :
    MeetsSome step (fun _ _ s' => s'.Consistent) start actions ↔
    MeetsSome step InTurn start actions :=
  meetsSome_congr (I := Sound) step (fun _ _ _ h hstep =>
    ⟨⟨inTurn_of_consistent h hstep, fun hturn => (h.step hstep hturn).consistent⟩,
      fun hturn => h.step hstep hturn⟩) sound_start

theorem preview_of_another_snapshot :
    ¬ ∀ actions, MeetsSome step (fun _ _ s' => s'.Consistent) start actions := by
  intro hall
  have h := hall [.requestPreview (str "a"), .refreshSnapshotDiff, .store (.ok []), .publish,
    .requestPreview (str "b"), .refreshSnapshotDiff, .runClosure]
  have hshown : some (str "b") = some (str "a") :=
    (h _ rfl).2 _ rfl |>.2 _ rfl |>.2 _ rfl |>.2 _ rfl |>.2 _ rfl |>.2 _ rfl |>.1
  exact absurd hshown (by decide)

end Preview

end DevMgr.App
