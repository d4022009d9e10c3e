import DevMgr.Core.SnapshotModels

/-!
# How a restore is told

The summary counts the items by their status and leaves zeros out, and the
guidance has a line for every item that did not end well. Where the statuses are
those the service gives, the counts of the summary add up to all the items.
-/

namespace DevMgr.Core
open Bytes

def kSnapshotShortIdLength : ℕ := 12

def snapshotShortId (id : Str) : Str := id.take kSnapshotShortIdLength

def kStatusOk : Str := str "ok"

def kStatusGuardRefused : Str := str "guard-refused"

def kStatusFailed : Str := str "failed"

def kStatusDeviceAbsent : Str := str "device-absent"

structure StatusCounts where
  ok : ℕ
  refused : ℕ
  failed : ℕ
  absent : ℕ
  deriving DecidableEq

def StatusCounts.add (c : StatusCounts) (item : RestoreItemOutcome) : StatusCounts :=
  if item.status = kStatusOk then { c with ok := c.ok + 1 }
  else if item.status = kStatusGuardRefused then { c with refused := c.refused + 1 }
  else if item.status = kStatusFailed then { c with failed := c.failed + 1 }
  else if item.status = kStatusDeviceAbsent then { c with absent := c.absent + 1 }
  else c

def countStatuses (items : List RestoreItemOutcome) : StatusCounts :=
  items.foldl .add ⟨0, 0, 0, 0⟩

def restoreSummary (outcome : RestoreOutcome) : Str :=
  let counts := countStatuses outcome.items
  str "Restored " ++ snapshotShortId outcome.snapshotId ++ str ": " ++
    (if outcome.items = [] then str "no changes needed"
    else decimal counts.ok ++ str " ok" ++
      (if 0 < counts.refused then str ", " ++ decimal counts.refused ++ str " guard-refused"
        else []) ++
      (if 0 < counts.failed then str ", " ++ decimal counts.failed ++ str " failed" else []) ++
      (if 0 < counts.absent then str ", " ++ decimal counts.absent ++ str " device-absent"
        else [])) ++
    str "; safety snapshot " ++ snapshotShortId outcome.safetySnapshotId

def restoreRecoveryCommand (outcome : RestoreOutcome) : Str :=
  str "devmgr snapshot restore " ++ snapshotShortId outcome.safetySnapshotId

def guidanceLine (item : RestoreItemOutcome) : Str :=
  str "  " ++ item.status ++ str "  " ++ item.subject ++ str " (" ++ item.action ++ str ")" ++
    (if item.detail = [] then [] else str ": " ++ item.detail)

def restoreGuidanceLines (outcome : RestoreOutcome) : List Str :=
  let unconverged := outcome.items.filterMap fun item =>
    if item.status = kStatusOk then none else some (guidanceLine item)
  if unconverged = [] then []
  else
    [str "Restore of " ++ snapshotShortId outcome.snapshotId ++ str " left " ++
      decimal unconverged.length ++
      (if unconverged.length = 1 then str " item unconverged:" else str " items unconverged:")] ++
    unconverged ++
    [str "The state from before this restore is kept as safety snapshot " ++
      snapshotShortId outcome.safetySnapshotId ++ str ".",
    str "To go back, run: " ++ restoreRecoveryCommand outcome]

def kStatuses : List Str := [kStatusOk, kStatusGuardRefused, kStatusFailed, kStatusDeviceAbsent]

def StatusCounts.total (c : StatusCounts) : ℕ := c.ok + c.refused + c.failed + c.absent

theorem statuses_nodup : kStatuses.Nodup := by decide

theorem add_eq (c : StatusCounts) (item : RestoreItemOutcome) : c.add item =
    ⟨c.ok + (if item.status = kStatusOk then 1 else 0),
      c.refused + (if item.status = kStatusGuardRefused then 1 else 0),
      c.failed + (if item.status = kStatusFailed then 1 else 0),
      c.absent + (if item.status = kStatusDeviceAbsent then 1 else 0)⟩ := by
  have hdistinct := statuses_nodup
  simp only [kStatuses, List.nodup_cons, List.mem_cons, not_or] at hdistinct
  unfold StatusCounts.add
  by_cases hok : item.status = kStatusOk
  · simp [hok, hdistinct]
  · by_cases hrefused : item.status = kStatusGuardRefused
    · simp [hrefused, hdistinct, Ne.symm hdistinct.1.1]
    · by_cases hfailed : item.status = kStatusFailed
      · simp [hfailed, hdistinct, Ne.symm hdistinct.1.2.1, Ne.symm hdistinct.2.1.1]
      · simp only [hok, hrefused, hfailed, if_false, Nat.add_zero]
        split_ifs with habsent
        · rfl
        · rfl

theorem countStatuses_eq (items : List RestoreItemOutcome) :
    countStatuses items =
      ⟨items.countP fun item => item.status = kStatusOk,
        items.countP fun item => item.status = kStatusGuardRefused,
        items.countP fun item => item.status = kStatusFailed,
        items.countP fun item => item.status = kStatusDeviceAbsent⟩ := by
  have hcount : ∀ c : StatusCounts, items.foldl .add c =
      ⟨c.ok + items.countP fun item => item.status = kStatusOk,
        c.refused + items.countP fun item => item.status = kStatusGuardRefused,
        c.failed + items.countP fun item => item.status = kStatusFailed,
        c.absent + items.countP fun item => item.status = kStatusDeviceAbsent⟩ := by
    induction items with
    | nil => exact fun c => rfl
    | cons item items ih =>
      intro c
      rw [List.foldl_cons, ih, add_eq]
      simp only [List.countP_cons, decide_eq_true_eq, StatusCounts.mk.injEq]
      exact ⟨by omega, by omega, by omega, by omega⟩
  rw [countStatuses, hcount]
  simp

theorem add_total {c : StatusCounts} {item : RestoreItemOutcome} (h : item.status ∈ kStatuses) :
    (c.add item).total = c.total + 1 := by
  simp only [kStatuses, List.mem_cons, List.not_mem_nil, or_false] at h
  unfold StatusCounts.add StatusCounts.total
  split_ifs with hok hrefused hfailed habsent
  · dsimp only
    omega
  · dsimp only
    omega
  · dsimp only
    omega
  · dsimp only
    omega
  · exact absurd h (by simp [hok, hrefused, hfailed, habsent])

theorem countStatuses_total {items : List RestoreItemOutcome}
    (h : ∀ item ∈ items, item.status ∈ kStatuses) :
    (countStatuses items).total = items.length := by
  have hfold : ∀ c : StatusCounts, (items.foldl .add c).total = c.total + items.length := by
    induction items with
    | nil => exact fun c => rfl
    | cons item items ih =>
      intro c
      rw [List.foldl_cons, ih fun other hother => h other (List.mem_cons_of_mem _ hother),
        add_total (h item List.mem_cons_self), List.length_cons]
      omega
  exact (hfold _).trans (Nat.zero_add _)

def StatusCounts.shown (c : StatusCounts) : List (ℕ × Str) :=
  (c.ok, kStatusOk) :: [(c.refused, kStatusGuardRefused), (c.failed, kStatusFailed),
    (c.absent, kStatusDeviceAbsent)].filter fun count => 0 < count.1

theorem shown_subset (c : StatusCounts) :
    c.shown ⊆ [(c.ok, kStatusOk), (c.refused, kStatusGuardRefused),
    (c.failed, kStatusFailed), (c.absent, kStatusDeviceAbsent)] :=
  List.cons_subset_cons _ (List.filter_subset_self _)

theorem shown_sum (c : StatusCounts) : (c.shown.map Prod.fst).sum = c.total := by
  have hfilter : ∀ counts : List (ℕ × Str),
      ((counts.filter fun count => 0 < count.1).map Prod.fst).sum = (counts.map Prod.fst).sum := by
    intro counts
    induction counts with
    | nil => rfl
    | cons count counts ih =>
      by_cases hzero : 0 < count.1
      · rw [List.filter_cons_of_pos (by simpa using hzero), List.map_cons, List.map_cons,
          List.sum_cons, List.sum_cons, ih]
      · rw [List.filter_cons_of_neg (by simpa using hzero), List.map_cons, List.sum_cons, ih]
        omega
  rw [StatusCounts.shown, List.map_cons, List.sum_cons, hfilter, StatusCounts.total]
  simp only [List.map_cons, List.map_nil, List.sum_cons, List.sum_nil]
  omega

theorem restoreSummary_eq {outcome : RestoreOutcome} (h : outcome.items ≠ []) :
    restoreSummary outcome = str "Restored " ++ snapshotShortId outcome.snapshotId ++ str ": " ++
      (str ", ").intercalate ((countStatuses outcome.items).shown.map fun count =>
        decimal count.1 ++ str " " ++ count.2) ++
      str "; safety snapshot " ++ snapshotShortId outcome.safetySnapshotId := by
  rw [restoreSummary, if_neg h]
  generalize countStatuses outcome.items = counts
  have hok : str " ok" = str " " ++ kStatusOk := by decide
  have hrefused : str " guard-refused" = str " " ++ kStatusGuardRefused := by decide
  have hfailed : str " failed" = str " " ++ kStatusFailed := by decide
  have habsent : str " device-absent" = str " " ++ kStatusDeviceAbsent := by decide
  rw [hok, hrefused, hfailed, habsent, StatusCounts.shown]
  by_cases h1 : 0 < counts.refused <;> by_cases h2 : 0 < counts.failed <;>
    by_cases h3 : 0 < counts.absent <;>
    simp [h1, h2, h3, List.intercalate]

/-- What the summary shows are the numbers of items with a status, and they add up to all items. -/
def SummaryAddsUp (outcome : RestoreOutcome) : Prop :=
  ∃ shown : List (ℕ × Str), (outcome.items ≠ [] →
      restoreSummary outcome = str "Restored " ++ snapshotShortId outcome.snapshotId ++ str ": " ++
        (str ", ").intercalate (shown.map fun count => decimal count.1 ++ str " " ++ count.2) ++
        str "; safety snapshot " ++ snapshotShortId outcome.safetySnapshotId) ∧
    (∀ count ∈ shown, count.1 = outcome.items.countP fun item => item.status = count.2) ∧
    (shown.map Prod.fst).sum = outcome.items.length

theorem summary_addsUp {outcome : RestoreOutcome}
    (h : ∀ item ∈ outcome.items, item.status ∈ kStatuses) : SummaryAddsUp outcome := by
  refine ⟨(countStatuses outcome.items).shown, restoreSummary_eq, fun count hcount => ?_, ?_⟩
  · have hmem := shown_subset _ hcount
    rw [countStatuses_eq] at hmem
    simp only [List.mem_cons, List.not_mem_nil, or_false] at hmem
    rcases hmem with rfl | rfl | rfl | rfl <;> rfl
  · rw [shown_sum, countStatuses_total h]

def unconverged (items : List RestoreItemOutcome) : List RestoreItemOutcome :=
  items.filter fun item => item.status ≠ kStatusOk

theorem guidance_lines (items : List RestoreItemOutcome) :
    (items.filterMap fun item => if item.status = kStatusOk then none
      else some (guidanceLine item)) =
      (unconverged items).map guidanceLine := by
  induction items with
  | nil => rfl
  | cons item items ih =>
    rw [unconverged, List.filterMap_cons]
    by_cases hok : item.status = kStatusOk
    · rw [List.filter_cons_of_neg (by simpa using hok)]
      simp only [hok, if_true]
      exact ih
    · rw [List.filter_cons_of_pos (by simpa using hok)]
      simp only [hok, if_false, List.map_cons]
      rw [ih]
      rfl

/-- The guidance is empty, or has one line for each item that did not end well, in their order. -/
def GuidanceListsAll (outcome : RestoreOutcome) : Prop :=
  (unconverged outcome.items = [] ∧ restoreGuidanceLines outcome = []) ∨
  unconverged outcome.items ≠ [] ∧ ∃ first last last', restoreGuidanceLines outcome =
    first :: (unconverged outcome.items).map guidanceLine ++ [last, last']

theorem guidance_listsAll (outcome : RestoreOutcome) : GuidanceListsAll outcome := by
  rw [GuidanceListsAll, restoreGuidanceLines, guidance_lines]
  by_cases hnone : unconverged outcome.items = []
  · exact .inl ⟨hnone, by rw [hnone]; rfl⟩
  · refine .inr ⟨hnone, ?_⟩
    rw [if_neg (by simpa using hnone)]
    exact ⟨_, _, _, rfl⟩

end DevMgr.Core
