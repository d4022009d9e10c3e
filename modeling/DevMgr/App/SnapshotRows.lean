import DevMgr.Core.SnapshotHistory
import DevMgr.Core.SnapshotJson
import DevMgr.Core.SnapshotPresentation
import DevMgr.Library.Printf

/-!
# The rows of the snapshot list

A row shows the short id, the local time, the trigger and the reason of a snapshot
in columns of fixed size. The columns count bytes: an id is cut after twelve of
them and a reason after thirty.
-/

open DevMgr.Core

namespace DevMgr.App.SnapshotRows
open Bytes Printf

/-- `localtime_r` and `strftime` in a buffer of twenty bytes, none where one of them fails. -/
structure LocalTime where
  format : Int64 → Option Str
  ascii : ∀ t text, format t = some text → ∀ c ∈ text, c < 0x80

def localDateTime (z : LocalTime) (utcSeconds : Int64) : Str := (z.format utcSeconds).getD (str "?")

def reasonCell (m : SnapshotMeta) : Str :=
  if m.reason.verb = [] then m.reason.subject
  else if m.reason.subject = [] then m.reason.verb
  else m.reason.verb ++ str " " ++ m.reason.subject

def markerFor (m : SnapshotMeta) : Str := if m.health = .ok then [] else m.health.toStr

def formatRow (z : LocalTime) (m : SnapshotMeta) : Str :=
  snprintf 128 [
    .string 12 (some 12) (snapshotShortId m.id), .literal (str " "),
    .string 16 (some 16) (localDateTime z m.createdAtUtc), .literal (str " "),
    .string 6 (some 6) m.trigger.toStr, .literal (str " "),
    .string 30 (some 30) (reasonCell m), .literal (str " "),
    .string 0 none (markerFor m)]

def filterHaystack (m : SnapshotMeta) : Str :=
  (m.id ++ str " " ++ m.trigger.toStr ++ str " " ++ reasonCell m).map toLower

def chainIndents (tipDepth : ℕ) (groupOpen : Bool) : List SnapshotChainRow → List ℕ
  | [] => []
  | row :: chain =>
    let tip := if groupOpen then tipDepth else row.depth
    (tip - row.depth) :: chainIndents tip (!row.chainStart) chain

def chainMarkers (row : SnapshotChainRow) : Str :=
  let marks := (if row.chainStart then [str "chain start"] else []) ++
    (if row.head then [str "HEAD"] else []) ++ if row.lastGood then [str "last good"] else []
  if marks = [] then [] else str "  [" ++ (str ", ").intercalate marks ++ str "]"

def kIndentPerLevel : ℕ := 2
def kMaxIndentLevels : ℕ := 4

def rowText (z : LocalTime) (historyView : Bool) (row : SnapshotChainRow) (indent : ℕ) : Str :=
  if historyView then
    List.replicate (min indent kMaxIndentLevels * kIndentPerLevel) 32 ++ formatRow z row.info ++
      chainMarkers row
  else formatRow z row.info

def matchesNeedle (needle : Str) (m : SnapshotMeta) : Bool := needle <:+: filterHaystack m

def emptyStateRow (filter : Str) (daemonAvailability : Bool) : List Str :=
  if filter ≠ [] then [str "No snapshots match \"" ++ filter ++ str "\""]
  else if ¬ daemonAvailability then [str "(no snapshots)"]
  else []

def rows (z : LocalTime) (historyView : Bool) (filter : Str) (daemonAvailability : Bool)
    (metas : List SnapshotMeta) : List Str :=
  let chain := buildSnapshotChain metas
  let listed := (chain.zip (chainIndents 0 false chain)).filter fun row =>
    matchesNeedle (filter.map toLower) row.1.info
  if listed = [] then emptyStateRow filter daemonAvailability
  else listed.map fun row => rowText z historyView row.1 row.2

structure TextMeta (m : SnapshotMeta) : Prop where
  id : validUtf8 m.id = true
  verb : validUtf8 m.reason.verb = true
  subject : validUtf8 m.reason.subject = true

theorem reasonCell_valid {m : SnapshotMeta} (h : TextMeta m) : validUtf8 (reasonCell m) = true := by
  have hblank : validUtf8 (str " ") = true := by decide
  unfold reasonCell
  split_ifs
  · exact h.subject
  · exact h.verb
  · exact validUtf8_concat (validUtf8_concat h.verb hblank) h.subject

theorem localDateTime_ascii (z : LocalTime) (t : Int64) :
    ∀ c ∈ localDateTime z t, c < 0x80 := by
  rw [localDateTime]
  cases h : z.format t with
  | none => exact ascii_of_all (by decide)
  | some text => exact z.ascii t text h

theorem trigger_ascii (t : SnapshotTrigger) : ∀ c ∈ t.toStr, c < 0x80 := by
  cases t <;> exact ascii_of_all (by decide)

theorem markerFor_ascii (m : SnapshotMeta) : ∀ c ∈ markerFor m, c < 0x80 := by
  unfold markerFor
  split_ifs
  · simp
  · cases m.health <;> exact ascii_of_all (by decide)

def rowParts (z : LocalTime) (m : SnapshotMeta) : List Part :=
  column 12 ⟨Printf.cString m.id, 12⟩ ++ whole (str " ") ::
  column 16 ⟨Printf.cString (localDateTime z m.createdAtUtc), 16⟩ ++ whole (str " ") ::
  column 6 ⟨Printf.cString m.trigger.toStr, 6⟩ ++ whole (str " ") ::
  column 30 ⟨Printf.cString (reasonCell m), 30⟩ ++ [whole (str " "),
    whole (Printf.cString (markerFor m))]

theorem formatRow_parts (z : LocalTime) (m : SnapshotMeta) :
    formatRow z m = (bytes (rowParts z m)).take 127 := by
  have hid : (Printf.cString (snapshotShortId m.id)).take 12 = (Printf.cString m.id).take 12 := by
    rw [snapshotShortId, cString_take, kSnapshotShortIdLength, List.take_take, Nat.min_self]
  simp [formatRow, snprintf, rowParts, bytes_column, Piece.render, padded, hid]

def RowWhole (m : SnapshotMeta) : Prop :=
  Boundary 12 (Printf.cString m.id) ∧ Boundary 30 (Printf.cString (reasonCell m))

theorem rowParts_valid {m : SnapshotMeta} (z : LocalTime) (h : TextMeta m) :
    ∀ p ∈ rowParts z m, validUtf8 p.text = true := by
  have hblank : validUtf8 (str " ") = true := by decide
  have htime := validUtf8_ascii (cString_ascii (localDateTime_ascii z m.createdAtUtc))
  have htrigger := validUtf8_ascii (cString_ascii (trigger_ascii m.trigger))
  have hmarker := validUtf8_ascii (cString_ascii (markerFor_ascii m))
  have hid := cString_valid h.id
  have hreason := cString_valid (reasonCell_valid h)
  simp [rowParts, column, whole, spaces_valid, hblank, htime, htrigger, hmarker, hid, hreason]

theorem formatRow_valid {m : SnapshotMeta} (z : LocalTime) (h : TextMeta m) :
    validUtf8 (formatRow z m) = true ↔ RowWhole m := by
  have hblank : ∀ c ∈ str " ", c < 0x80 := ascii_of_all (by decide)
  have htime := boundary_ascii (cString_ascii (localDateTime_ascii z m.createdAtUtc))
  have htrigger := boundary_ascii (cString_ascii (trigger_ascii m.trigger))
  have hone : (str " ").length = 1 := by decide
  rw [formatRow_parts, ← Nat.sub_zero 127, validUtf8_iff_fits (rowParts_valid z h), rowParts]
  simp only [List.append_assoc, List.cons_append, fits_column, fits_ascii hblank,
    shown_mk, max_take, hone,
    fits_ascii (cString_ascii (markerFor_ascii m)), fits_nil, htime, htrigger, RowWhole,
    true_and, and_true]
  exact Iff.rfl

theorem chainMarkers_ascii (row : SnapshotChainRow) : ∀ c ∈ chainMarkers row, c < 0x80 := by
  unfold chainMarkers
  cases row.chainStart <;> cases row.head <;> cases row.lastGood <;> exact ascii_of_all (by decide)

theorem rowText_valid (z : LocalTime) (historyView : Bool) (row : SnapshotChainRow) (indent : ℕ) :
    validUtf8 (rowText z historyView row indent) = true ↔
    validUtf8 (formatRow z row.info) = true := by
  unfold rowText
  split_ifs
  · rw [validUtf8_before (chainMarkers_ascii row), validUtf8_after (spaces_valid _)]
  · exact Iff.rfl

theorem chainIndents_length (tipDepth : ℕ) (groupOpen : Bool) (chain : List SnapshotChainRow) :
    (chainIndents tipDepth groupOpen chain).length = chain.length := by
  induction chain generalizing tipDepth groupOpen with
  | nil => rfl
  | cons row chain ih => rw [chainIndents, List.length_cons, ih, List.length_cons]

theorem mem_indented {metas : List SnapshotMeta} {m : SnapshotMeta} :
    (∃ row ∈ (buildSnapshotChain metas).zip (chainIndents 0 false (buildSnapshotChain metas)),
      row.1.info = m) ↔ m ∈ metas := by
  have hfirst :
      ((buildSnapshotChain metas).zip (chainIndents 0 false (buildSnapshotChain metas))).map
        Prod.fst =
      buildSnapshotChain metas := List.map_fst_zip (chainIndents_length _ _ _).ge
  have hinfo : (buildSnapshotChain metas).map SnapshotChainRow.info = metas := chainRows_info _ _ _
  conv_rhs => rw [← hinfo, ← hfirst, List.map_map]
  simp only [List.mem_map, Function.comp_apply]

theorem emptyStateRow_valid {filter : Str} (hfilter : validUtf8 filter = true)
    (daemonAvailability : Bool) :
    ∀ row ∈ emptyStateRow filter daemonAvailability, validUtf8 row = true := by
  have hlead : validUtf8 (str "No snapshots match \"") = true := by decide
  have hlast : ∀ c ∈ str "\"", c < 0x80 := ascii_of_all (by decide)
  unfold emptyStateRow
  split_ifs
  · intro row hrow
    rw [List.mem_singleton.mp hrow, validUtf8_before hlast, validUtf8_after hlead]
    exact hfilter
  · simp
  · intro row hrow
    rw [List.mem_singleton.mp hrow]
    decide

theorem rows_valid (z : LocalTime) (historyView : Bool) {filter : Str}
    (hfilter : validUtf8 filter = true)
    (daemonAvailability : Bool) {metas : List SnapshotMeta} (hmetas : ∀ m ∈ metas, TextMeta m) :
    (∀ row ∈ rows z historyView filter daemonAvailability metas, validUtf8 row = true) ↔
      ∀ m ∈ metas, matchesNeedle (filter.map toLower) m = true → RowWhole m := by
  have hrow :
      ∀ row ∈ (buildSnapshotChain metas).zip (chainIndents 0 false (buildSnapshotChain metas)),
      validUtf8 (rowText z historyView row.1 row.2) = true ↔ RowWhole row.1.info :=
        fun row hmem => by
    rw [rowText_valid, formatRow_valid z (hmetas _ (mem_indented.mp ⟨row, hmem, rfl⟩))]
  simp only [rows]
  split_ifs with hnone
  · refine iff_of_true (emptyStateRow_valid hfilter _) fun m hm hmatch => ?_
    obtain ⟨row, hmem, rfl⟩ := mem_indented.mpr hm
    have hlisted := List.filter_eq_nil_iff.mp hnone row hmem
    exact absurd hmatch hlisted
  · constructor
    · intro h m hm hmatch
      obtain ⟨row, hmem, rfl⟩ := mem_indented.mpr hm
      rw [← hrow row hmem]
      exact h _ (List.mem_map_of_mem (List.mem_filter.mpr ⟨hmem, hmatch⟩))
    · intro h text htext
      obtain ⟨row, hlisted, rfl⟩ := List.mem_map.mp htext
      obtain ⟨hmem, hmatch⟩ := List.mem_filter.mp hlisted
      rw [hrow row hmem]
      exact h _ (mem_indented.mp ⟨row, hmem, rfl⟩) hmatch

end DevMgr.App.SnapshotRows
