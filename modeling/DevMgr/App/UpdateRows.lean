import DevMgr.Core.UpdateModels
import DevMgr.Library.Printf

/-!
# The rows of the update list

A row shows the provider, the name, two versions and a marker. The name and the
versions are cut after a number of bytes, and the buffer cuts the row where the
provider's name is long.
-/

open DevMgr.Core

namespace DevMgr.App.UpdateRows
open Bytes Printf

def formatRow (provider name current candidate marker : Str) : Str :=
  snprintf 128 [
    .string 6 none provider, .literal (str " "),
    .string 30 (some 30) name, .literal (str " "),
    .string 12 (some 12) current, .literal (str " -> "),
    .string 12 (some 12) candidate, .literal (str " "),
    .string 0 none marker]

def hasLocalRelease (c : UpdateCandidate) : Bool := c.releases.any ReleaseInfo.localCab

def remoteOnly (c : UpdateCandidate) : Bool := c.releases ≠ [] && !hasLocalRelease c

def markerFor (c : UpdateCandidate) (providerId : Str) (pending : List PendingAction) : Str :=
  if pending.any fun p => p.providerId = providerId ∧ p.deviceId = c.id ∧
    p.disposition = .needsReboot then
    str "reboot required"
  else if remoteOnly c then str "external download"
  else []

def allProvidersAvailable (snapshot : List UpdateProviderState) : Bool :=
  snapshot.all fun s => s.availability.available

def candidateRow (pending : List PendingAction) (state : UpdateProviderState)
    (c : UpdateCandidate) : Str :=
  formatRow state.providerId c.displayName c.currentVersion (c.candidateVersion.getD (str "-"))
    (markerFor c state.providerId pending)

def rows (pending : List PendingAction) (snapshot : List UpdateProviderState) : List Str :=
  let listed := snapshot.flatMap fun state => state.candidates.map (candidateRow pending state)
  if listed ≠ [] then listed
  else if snapshot = [] then [str "(checking for updates)"]
  else if allProvidersAvailable snapshot then [str "(no updates available)"]
  else []

theorem markerFor_ascii (c : UpdateCandidate) (providerId : Str) (pending : List PendingAction) :
    ∀ b ∈ markerFor c providerId pending, b < 0x80 := by
  unfold markerFor
  split_ifs
  · exact ascii_of_all (by decide)
  · exact ascii_of_all (by decide)
  · simp

structure TextCandidate (state : UpdateProviderState) (c : UpdateCandidate) : Prop where
  provider : validUtf8 state.providerId = true
  name : validUtf8 c.displayName = true
  current : validUtf8 c.currentVersion = true
  candidate : ∀ v, c.candidateVersion = some v → validUtf8 v = true

theorem TextCandidate.shown {state : UpdateProviderState} {c : UpdateCandidate}
    (h : TextCandidate state c) :
    validUtf8 (c.candidateVersion.getD (str "-")) = true := by
  cases hv : c.candidateVersion with
  | none => decide
  | some v => exact h.candidate v hv

def behindProvider (provider : Str) : ℕ := max 6 (Printf.cString provider).length

/-- No text of the row ends within a code point, at its column or at the end of the buffer. -/
def RowWhole (provider name current candidate : Str) : Prop :=
  Boundary 127 (Printf.cString provider) ∧
  Boundary (min 30 (127 - (behindProvider provider + 1))) (Printf.cString name) ∧
  Boundary (min 12 (127 - (behindProvider provider + 32))) (Printf.cString current) ∧
  Boundary (min 12 (127 - (behindProvider provider + 48))) (Printf.cString candidate)

instance (provider name current candidate : Str) :
    Decidable (RowWhole provider name current candidate) :=
  inferInstanceAs (Decidable (_ ∧ _ ∧ _ ∧ _))

def rowParts (provider name current candidate marker : Str) : List Part :=
  column 6 (whole (Printf.cString provider)) ++ whole (str " ") ::
  column 30 ⟨Printf.cString name, 30⟩ ++ whole (str " ") ::
  column 12 ⟨Printf.cString current, 12⟩ ++ whole (str " -> ") ::
  column 12 ⟨Printf.cString candidate, 12⟩ ++ [whole (str " "), whole (Printf.cString marker)]

theorem formatRow_parts (provider name current candidate marker : Str) :
    formatRow provider name current candidate marker =
      (bytes (rowParts provider name current candidate marker)).take 127 := by
  simp [formatRow, snprintf, rowParts, bytes_column, Piece.render, padded]

theorem formatRow_valid {provider name current candidate marker : Str}
    (hprovider : validUtf8 provider = true)
    (hname : validUtf8 name = true) (hcurrent : validUtf8 current = true)
    (hcandidate : validUtf8 candidate = true) (hmarker : ∀ c ∈ marker, c < 0x80) :
    validUtf8 (formatRow provider name current candidate marker) = true ↔
      RowWhole provider name current candidate := by
  have hblank : ∀ c ∈ str " ", c < 0x80 := ascii_of_all (by decide)
  have harrow : ∀ c ∈ str " -> ", c < 0x80 := ascii_of_all (by decide)
  have hshown := cString_ascii hmarker
  have hone : (str " ").length = 1 := by decide
  have hfour : (str " -> ").length = 4 := by decide
  have hvalid : ∀ p ∈ rowParts provider name current candidate marker,
      validUtf8 p.text = true := by
    simp [rowParts, column, whole, spaces_valid, validUtf8_ascii hblank, validUtf8_ascii harrow,
      validUtf8_ascii hshown, cString_valid hprovider, cString_valid hname, cString_valid hcurrent,
      cString_valid hcandidate]
  rw [formatRow_parts, ← Nat.sub_zero 127, validUtf8_iff_fits hvalid, rowParts]
  simp only [List.append_assoc, List.cons_append, fits_column, fits_ascii hblank, fits_ascii harrow,
    fits_ascii hshown, fits_nil, shown_mk, shown_whole, max_take, hone, hfour,
    RowWhole, behindProvider,
    and_true]
  rw [whole, boundary_whole]
  simp only [Nat.zero_add, Nat.add_assoc]

theorem candidateRow_valid (pending : List PendingAction) {state : UpdateProviderState}
    {c : UpdateCandidate}
    (h : TextCandidate state c) : validUtf8 (candidateRow pending state c) = true ↔
      RowWhole state.providerId c.displayName c.currentVersion
        (c.candidateVersion.getD (str "-")) :=
  formatRow_valid h.provider h.name h.current h.shown (markerFor_ascii c state.providerId pending)

theorem rows_valid (pending : List PendingAction) {snapshot : List UpdateProviderState}
    (h : ∀ state ∈ snapshot, ∀ c ∈ state.candidates, TextCandidate state c) :
    (∀ row ∈ rows pending snapshot, validUtf8 row = true) ↔
    ∀ state ∈ snapshot, ∀ c ∈ state.candidates,
      RowWhole state.providerId c.displayName c.currentVersion
        (c.candidateVersion.getD (str "-")) := by
  have hlisted :
      (∀ row ∈ snapshot.flatMap fun state => state.candidates.map (candidateRow pending state),
      validUtf8 row = true) ↔ ∀ state ∈ snapshot, ∀ c ∈ state.candidates,
        RowWhole state.providerId c.displayName c.currentVersion
          (c.candidateVersion.getD (str "-")) := by
    simp only [List.forall_mem_flatMap, List.forall_mem_map]
    refine forall₂_congr fun state hstate => forall₂_congr fun c hc => ?_
    exact candidateRow_valid pending (h state hstate c hc)
  simp only [rows]
  split_ifs with hsome hnone hall
  · exact hlisted
  · rw [← hlisted]
    have hempty := not_not.mp hsome
    simp only [hempty]
    refine iff_of_true (fun row hrow => ?_) (by simp)
    rw [List.mem_singleton.mp hrow]
    decide
  · rw [← hlisted]
    have hempty := not_not.mp hsome
    simp only [hempty]
    refine iff_of_true (fun row hrow => ?_) (by simp)
    rw [List.mem_singleton.mp hrow]
    decide
  · rw [← hlisted, not_not.mp hsome]

end DevMgr.App.UpdateRows
