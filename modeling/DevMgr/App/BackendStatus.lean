import DevMgr.Core.BackendWording
import Mathlib.Logic.Function.Basic

/-!
# The status of the backends

One note a backend, which every observation replaces. What is observed goes to the
log only where the kind of the note changes.
-/

open DevMgr.Core

namespace DevMgr.App
open Bytes

inductive StatusSeverity where
  | ok
  | success
  | warning
  | danger
  | info
  deriving DecidableEq

structure BackendNote where
  backend : BackendId
  kind : UnavailabilityKind
  text : Str
  diagnostic : Str
  role : StatusSeverity
  deriving DecidableEq

def noteRole (kind : UnavailabilityKind) (blocksAttemptedVerb : Bool) : StatusSeverity :=
  if blocksAttemptedVerb then .warning
  else match kind with
    | .unreachable | .notPermitted => .warning
    | .absent | .unsupported => .info

def makeNote (backend : BackendId) (kind : UnavailabilityKind) (diagnostic : Str)
    (blocksAttemptedVerb : Bool) : BackendNote where
  backend
  kind
  text := unavailabilityText backend kind
  diagnostic
  role := noteRole kind blocksAttemptedVerb

def logName : BackendId → Str
  | .devmgrd => str "devmgrd"
  | .fwupd => str "fwupd"
  | .dkms => str "dkms"

def kindLabel : UnavailabilityKind → Str
  | .absent => str "absent"
  | .unreachable => str "unreachable"
  | .notPermitted => str "not permitted"
  | .unsupported => str "unsupported"

structure StatusEntry where
  kind : UnavailabilityKind
  diagnostic : Str
  deriving DecidableEq

def StatusEntry.ofError (e : Error) : StatusEntry := ⟨kindFor e.code, e.message⟩

/-- `warnings` are the lines of the log. What was logged last of a backend is the kind of its
entry. -/
structure BackendStatus where
  entries : BackendId → Option StatusEntry
  logged : BackendId → Option UnavailabilityKind
  warnings : List Str
  logged_eq : ∀ backend, logged backend = (entries backend).map (·.kind)

namespace BackendStatus

def start : BackendStatus := ⟨fun _ => none, fun _ => none, [], fun _ => rfl⟩

def warning (backend : BackendId) (e : Error) : Str :=
  logName backend ++ str " unavailable (" ++ kindLabel (kindFor e.code) ++ str "): " ++ e.message

theorem update_logged (s : BackendStatus) (backend : BackendId) (entry : Option StatusEntry)
    (other : BackendId) : Function.update s.logged backend (entry.map (·.kind)) other =
      (Function.update s.entries backend entry other).map (·.kind) := by
  by_cases h : other = backend
  · subst h
    rw [Function.update_self, Function.update_self]
  · rw [Function.update_of_ne h, Function.update_of_ne h, s.logged_eq]

def observe (s : BackendStatus) (backend : BackendId) (error : Option Error) : BackendStatus :=
  match error with
  | none =>
    ⟨Function.update s.entries backend none, Function.update s.logged backend none, s.warnings,
      s.update_logged backend none⟩
  | some e =>
    if hlogged : s.logged backend = some (kindFor e.code) then
      ⟨Function.update s.entries backend (some (.ofError e)), s.logged,
        s.warnings, fun other => by
        rw [← s.update_logged backend (some (.ofError e))]
        by_cases h : other = backend
        · rw [h, Function.update_self, hlogged]
          rfl
        · rw [Function.update_of_ne h]⟩
    else
      ⟨Function.update s.entries backend (some (.ofError e)),
        Function.update s.logged backend (some (kindFor e.code)), s.warnings ++ [warning backend e],
        s.update_logged backend (some (.ofError e))⟩

def noteFor (s : BackendStatus) (backend : BackendId) (blocksAttemptedVerb : Bool) :
    Option BackendNote :=
  (s.entries backend).map fun entry =>
    makeNote backend entry.kind entry.diagnostic blocksAttemptedVerb

variable (s : BackendStatus) (backend : BackendId) (error : Option Error)

theorem observe_entries :
    (s.observe backend error).entries = Function.update s.entries backend (error.map .ofError) := by
  unfold observe
  cases error with
  | none => rfl
  | some e =>
    dsimp only
    split_ifs <;> rfl

theorem observe_self : (s.observe backend error).entries backend = error.map .ofError := by
  rw [observe_entries, Function.update_self]

theorem observe_other {other : BackendId} (h : other ≠ backend) :
    (s.observe backend error).entries other = s.entries other := by
  rw [observe_entries, Function.update_of_ne h]

end BackendStatus

end DevMgr.App
