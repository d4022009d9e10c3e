import DevMgr.Core.SnapshotPresentation
import DevMgr.Daemon.SnapshotListing

/-!
# The commands of devmgr

A command line comes to one request, or to an exit code and what is said on the
error stream. Where it names a snapshot, any prefix will do that a single row of
the daemon's listing begins with.
-/

open DevMgr.Core

namespace DevMgr.Cli
open Bytes
open Sha256 (kHex)

inductive ExitCode where
  | usage
  | notFound
  | notAuthorized
  | unreachable
  | failed
  deriving DecidableEq

abbrev Answer := Except (ExitCode × Str)

inductive Request where
  | list
  | history
  | create (label : Str)
  | diff (base target : Str)
  | preview (id : Str)
  | restore (id : Str)
  | delete (id : Str)
  deriving DecidableEq

def kUnreachableMarkers : List Str :=
  [str "systemd1.unitmasked", str "systemd1.nosuchunit", str "systemd1.unitinactive",
    str "dbus.error.serviceunknown", str "dbus.error.namehasnoowner", str "dbus.error.noreply",
    str "dbus.error.spawn.", str "dbus.error.noserver", str "dbus.error.disconnected",
    str "helper devmgrd is not available", str "is masked", str "devmgrd.service not found",
    str "activation via systemd failed", str "failed to activate service",
    str "was not provided by any .service files",
    str "disconnected from message bus without replying",
    str "failed to connect to socket", str "could not connect to bus"]

def isDaemonUnavailableError (e : Error) : Bool :=
  match e.code with
  | .busy => true
  | .io => kUnreachableMarkers.any fun marker => marker <:+: e.message.map toLower
  | _ => false

def exitCodeFor (e : Error) : ExitCode :=
  match e.code with
  | .permission => .notAuthorized
  | .notFound => .notFound
  | .invalidArgs => .usage
  | .busy | .io => if isDaemonUnavailableError e then .unreachable else .failed
  | _ => .failed

def reportError (e : Error) : ExitCode × Str :=
  (exitCodeFor e, str "devmgr: " ++ e.message ++ str "\n")

def kUsageText : Str :=
  str "usage: devmgr [--bus system|session] snapshot <command>\n" ++
  str "  list [--json]              list snapshots (short id, date, trigger, reason)\n" ++
  str "  history [--json]           list snapshots as a parent chain (HEAD, last good marked)\n" ++
  str "  create [--label <text>]    take a manual snapshot, print its id\n" ++
  str
    "  diff <a> [<b>] [--json]    show what changed between <a> and <b> (<b> omitted = live state)\n" ++
  str
    "  restore [--preview] <id>   restore a snapshot, or --preview to show the change without restoring\n" ++
  str "  delete <id>                delete a snapshot (id may be any unique prefix)\n"

def usage (said : Str) : ExitCode × Str := (.usage, said ++ kUsageText)

def unexpectedArgument (a : Str) : Str := str "devmgr: unexpected argument '" ++ a ++ str "'\n"

def matching (metas : List SnapshotMeta) (idPrefix : Str) : List Str :=
  (metas.map (·.id)).filter fun id => idPrefix.isPrefixOf id

def resolveId (metas : Result (List SnapshotMeta)) (idPrefix : Str) : Answer Str :=
  match metas with
  | .error e => .error (reportError e)
  | .ok metas =>
    match matching metas idPrefix with
    | [] => .error (.notFound, str "devmgr: no snapshot matches id '" ++ idPrefix ++ str "'\n")
    | [id] => .ok id
    | found =>
        .error (.notFound, str "devmgr: id '" ++ idPrefix ++ str "' is ambiguous, matches:\n" ++
        found.flatMap fun id => str "  " ++ id ++ str "\n")

def splitArgs (flag : Str) : List Str → Except Str (Bool × List Str)
  | [] => .ok (false, [])
  | a :: rest =>
    if a = flag then (splitArgs flag rest).map fun args => (true, args.2)
    else if (str "--").isPrefixOf a then .error (unexpectedArgument a)
    else (splitArgs flag rest).map fun args => (args.1, a :: args.2)

def noArgs (request : Request) (rest : List Str) : Answer Request :=
  match rest.find? fun a => a ≠ str "--json" with
  | none => .ok request
  | some a => .error (usage (unexpectedArgument a))

def createArgs (label : Str) : List Str → Answer Request
  | [] => .ok (.create label)
  | [a] => if a = str "--label" then .error (usage (str "devmgr: --label needs a value\n"))
    else .error (usage (unexpectedArgument a))
  | a :: value :: rest =>
    if a = str "--label" then createArgs value rest else .error (usage (unexpectedArgument a))

def doDiff (metas : ℕ → Result (List SnapshotMeta)) (rest : List Str) : Answer Request :=
  match splitArgs (str "--json") rest with
  | .error said => .error (usage said)
  | .ok (_, [base]) => (resolveId (metas 0) base).map fun base => .diff base []
  | .ok (_, [base, target]) => do
    let base ← resolveId (metas 0) base
    let target ← resolveId (metas 1) target
    return .diff base target
  | .ok _ => .error (.usage, str "usage: devmgr snapshot diff <a> [<b>]\n")

def doRestore (metas : Result (List SnapshotMeta)) (rest : List Str) : Answer Request :=
  match splitArgs (str "--preview") rest with
  | .error said => .error (usage said)
  | .ok (preview, [idPrefix]) =>
    if idPrefix = [] then .error (.usage, str "usage: devmgr snapshot restore [--preview] <id>\n")
    else (resolveId metas idPrefix).map fun id => if preview then .preview id else .restore id
  | .ok _ => .error (.usage, str "usage: devmgr snapshot restore [--preview] <id>\n")

def doDelete (metas : Result (List SnapshotMeta)) (rest : List Str) : Answer Request :=
  match rest with
  | [idPrefix] =>
    if idPrefix = [] then .error (.usage, str "usage: devmgr snapshot delete <id>\n")
    else (resolveId metas idPrefix).map .delete
  | _ => .error (.usage, str "usage: devmgr snapshot delete <id>\n")

def run (metas : ℕ → Result (List SnapshotMeta)) : List Str → Answer Request
  | command :: verb :: rest =>
    if command ≠ str "snapshot" then .error (usage [])
    else if verb = str "list" then noArgs .list rest
    else if verb = str "history" then noArgs .history rest
    else if verb = str "create" then createArgs [] rest
    else if verb = str "diff" then doDiff metas rest
    else if verb = str "restore" then doRestore (metas 0) rest
    else if verb = str "delete" then doDelete (metas 0) rest
    else .error (usage (str "devmgr: unknown snapshot command '" ++ verb ++ str "'\n"))
  | _ => .error (usage [])

/-- It is the only id in the listing that begins with the prefix, in however many rows. -/
structure OnlyMatch (metas : List SnapshotMeta) (idPrefix id : Str) : Prop where
  listed : id ∈ metas.map (·.id)
  begins : idPrefix <+: id
  only : ∀ id' ∈ metas.map (·.id), idPrefix <+: id' → id' = id

structure Resolves (metas : List SnapshotMeta) (idPrefix : Str) : Prop where
  unique : ∀ id, resolveId (.ok metas) idPrefix = .ok id ↔ OnlyMatch metas idPrefix id
  named : (∀ id, ¬ OnlyMatch metas idPrefix id) →
      ∃ said, resolveId (.ok metas) idPrefix = .error (.notFound, said) ∧
    ∀ id ∈ metas.map (·.id), idPrefix <+: id → str "  " ++ id ++ str "\n" <:+: said

def Shared (metas : List SnapshotMeta) (id : Str) : Prop := 1 < (metas.map (·.id)).count id

def recoveryArgs (outcome : RestoreOutcome) : List Str :=
  (tokens (restoreRecoveryCommand outcome)).drop 1

/-- The command goes back to the safety snapshot, where its short id stands for it alone. -/
def Recovers (metas : List SnapshotMeta) (outcome : RestoreOutcome) : Prop :=
  OnlyMatch metas (snapshotShortId outcome.safetySnapshotId) outcome.safetySnapshotId →
    run (fun _ => .ok metas) (recoveryArgs outcome) = .ok (.restore outcome.safetySnapshotId)

variable {metas : List SnapshotMeta} {idPrefix id : Str}

theorem mem_matching : id ∈ matching metas idPrefix ↔ id ∈ metas.map (·.id) ∧
    idPrefix <+: id := by
  unfold matching
  rw [List.mem_filter, List.isPrefixOf_iff_prefix]

theorem matching_of_onlyMatch (h : OnlyMatch metas idPrefix id) :
    matching metas idPrefix = List.replicate ((metas.map (·.id)).count id) id := by
  have hall : ∀ id' ∈ matching metas idPrefix, id' = id := by
    intro id' hmem
    obtain ⟨hlisted, hbegins⟩ := mem_matching.mp hmem
    exact h.only id' hlisted hbegins
  rw [List.eq_replicate_of_mem hall]
  congr 1
  unfold matching
  rw [← List.countP_eq_length_filter, List.count]
  apply List.countP_congr
  intro id' hmem
  rw [List.isPrefixOf_iff_prefix, beq_iff_eq]
  exact ⟨h.only id' hmem, fun heq => heq ▸ h.begins⟩

theorem onlyMatch_of_matching (h : matching metas idPrefix = [id]) :
    OnlyMatch metas idPrefix id := by
  have hmem : ∀ id', id' ∈ metas.map (·.id) ∧ idPrefix <+: id' ↔ id' = id := by
    intro id'
    rw [← mem_matching, h, List.mem_singleton]
  obtain ⟨hlisted, hbegins⟩ := (hmem id).mpr rfl
  exact ⟨hlisted, hbegins, fun id' hlisted' hbegins' => (hmem id').mp ⟨hlisted', hbegins'⟩⟩

theorem resolveId_ok_iff : resolveId (.ok metas) idPrefix = .ok id ↔
    matching metas idPrefix = [id] := by
  unfold resolveId
  dsimp only
  split
  · rename_i hnone
    simp [hnone]
  · rename_i id' hone
    simp [hone]
  · rename_i hmany
    exact ⟨nofun, fun h => absurd h (hmany id)⟩

theorem resolveId_only_iff (h : OnlyMatch metas idPrefix id) :
    resolveId (.ok metas) idPrefix = .ok id ↔ ¬ Shared metas id := by
  have hpos : 0 < (metas.map (·.id)).count id := List.count_pos_iff.mpr h.listed
  rw [resolveId_ok_iff, matching_of_onlyMatch h]
  unfold Shared
  constructor
  · intro hone
    have hlength := congrArg List.length hone
    rw [List.length_replicate, List.length_singleton] at hlength
    omega
  · intro hshared
    have hcount : (metas.map (·.id)).count id = 1 := by omega
    rw [hcount]
    rfl

theorem resolveId_refused (h : ∀ id, matching metas idPrefix ≠ [id]) :
    ∃ said, resolveId (.ok metas) idPrefix = .error (.notFound, said) ∧
      ∀ id ∈ matching metas idPrefix, str "  " ++ id ++ str "\n" <:+: said := by
  unfold resolveId
  dsimp only
  split
  · rename_i hnone
    rw [hnone]
    exact ⟨_, rfl, nofun⟩
  · rename_i id hone
    exact absurd hone (h id)
  · refine ⟨_, rfl, ?_⟩
    intro id hmem
    apply List.IsInfix.trans _ (List.suffix_append _ _).isInfix
    obtain ⟨before, after, hfound⟩ := List.append_of_mem hmem
    rw [hfound, List.flatMap_append, List.flatMap_cons]
    exact ⟨_, _, (List.append_assoc _ _ _)⟩

theorem mem_shortId {data : Str} {c : UInt8} (h : c ∈ snapshotShortId (sha256Hex data)) :
    c ∈ kHex :=
  sha256Hex_mem (List.mem_of_mem_take h)

theorem shortId_ne_nil (data : Str) : snapshotShortId (sha256Hex data) ≠ [] := by
  intro h
  have hlength := congrArg List.length h
  rw [snapshotShortId, List.length_take, sha256Hex_length] at hlength
  simp [kSnapshotShortIdLength] at hlength

theorem shortId_no_flag (data : Str) : ¬ str "--" <+: snapshotShortId (sha256Hex data) := by
  intro h
  have hdash : (45 : UInt8) ∈ kHex := mem_shortId (h.subset (by decide))
  revert hdash
  decide

theorem recoveryArgs_eq {outcome : RestoreOutcome} {data : Str}
    (h : outcome.safetySnapshotId = sha256Hex data) :
    recoveryArgs outcome = [str "snapshot", str "restore",
      snapshotShortId outcome.safetySnapshotId] := by
  have hplain : ∀ c ∈ snapshotShortId (sha256Hex data), isSpace c = false := by
    intro c hc
    have hhex : kHex.all (fun c => !isSpace c) = true := by decide
    have hspace := List.all_eq_true.mp hhex c (mem_shortId hc)
    rwa [Bool.not_eq_true'] at hspace
  have hwords : str "devmgr snapshot restore " = str "devmgr snapshot restore" ++ [32] := by decide
  have hfixed : (str "devmgr snapshot restore").splitOnP isSpace =
      [str "devmgr", str "snapshot", str "restore"] := by decide
  unfold recoveryArgs restoreRecoveryCommand tokens
  rw [h, hwords, List.append_assoc, List.singleton_append,
    List.splitOnP_append_cons _ _ (by decide), hfixed,
    List.splitOnP_eq_singleton hplain, List.filter_append]
  have hshort : [snapshotShortId (sha256Hex data)].filter (· ≠ []) =
      [snapshotShortId (sha256Hex data)] := by
    simp [shortId_ne_nil]
  rw [hshort]
  rfl

theorem run_restore (metas : Result (List SnapshotMeta)) (data : Str) :
    run (fun _ => metas) [str "snapshot", str "restore", snapshotShortId (sha256Hex data)] =
      (resolveId metas (snapshotShortId (sha256Hex data))).map .restore := by
  have hflag : snapshotShortId (sha256Hex data) ≠ str "--preview" := by
    intro h
    apply shortId_no_flag data
    rw [h]
    decide
  have hdash : (str "--").isPrefixOf (snapshotShortId (sha256Hex data)) = false := by
    rw [← Bool.not_eq_true, List.isPrefixOf_iff_prefix]
    exact shortId_no_flag data
  have hsplit : splitArgs (str "--preview") [snapshotShortId (sha256Hex data)] =
      .ok (false, [snapshotShortId (sha256Hex data)]) := by
    simp [splitArgs, hflag, hdash, Except.map]
  have hrestore : run (fun _ => metas) [str "snapshot", str "restore",
      snapshotShortId (sha256Hex data)] =
      doRestore metas [snapshotShortId (sha256Hex data)] := rfl
  rw [hrestore]
  unfold doRestore
  rw [hsplit]
  simp [shortId_ne_nil]

theorem recovers_iff {outcome : RestoreOutcome} {data : Str}
    (h : outcome.safetySnapshotId = sha256Hex data) :
    Recovers metas outcome ↔
      (OnlyMatch metas (snapshotShortId outcome.safetySnapshotId) outcome.safetySnapshotId →
        ¬ Shared metas outcome.safetySnapshotId) := by
  unfold Recovers
  rw [recoveryArgs_eq h]
  apply forall_congr'
  intro honly
  rw [← resolveId_only_iff honly, h, run_restore]
  cases hresolve : resolveId (.ok metas) (snapshotShortId (sha256Hex data)) with
  | error e => exact ⟨nofun, nofun⟩
  | ok id => simp [Except.map]

/-- A prefix is resolved exactly when the id it stands for has one row, and so is the command that
is printed after a restore. -/
theorem resolves_iff (metas : List SnapshotMeta) (idPrefix : Str)
    (outcome : RestoreOutcome) (data : Str) (hsafety : outcome.safetySnapshotId = sha256Hex data) :
    (Resolves metas idPrefix ↔ ∀ id, OnlyMatch metas idPrefix id → ¬ Shared metas id) ∧
    (Recovers metas outcome ↔
      (OnlyMatch metas (snapshotShortId outcome.safetySnapshotId) outcome.safetySnapshotId →
        ¬ Shared metas outcome.safetySnapshotId)) := by
  refine ⟨?_, recovers_iff hsafety⟩
  constructor
  · intro h id honly
    exact (resolveId_only_iff honly).mp ((h.unique id).mpr honly)
  · intro h
    constructor
    · intro id
      constructor
      · intro hok
        exact onlyMatch_of_matching (resolveId_ok_iff.mp hok)
      · intro honly
        exact (resolveId_only_iff honly).mpr (h id honly)
    · intro hnone
      obtain ⟨said, hrefused, hnamed⟩ :=
        resolveId_refused fun id hone => hnone id (onlyMatch_of_matching hone)
      exact ⟨said, hrefused,
        fun id hlisted hbegins => hnamed id (mem_matching.mpr ⟨hlisted, hbegins⟩)⟩

section Copies
open Daemon

def safety : RestoreOutcome := ⟨str "5d41", sha256Hex [], []⟩

def amongOthers : List SnapshotMeta :=
  [bestEffortMeta none (str "5d41"), bestEffortMeta none (sha256Hex []),
    bestEffortMeta none (str "5d41")]

theorem amongOthers_ids : amongOthers.map (·.id) = [str "5d41", sha256Hex [], str "5d41"] := rfl

theorem safety_resolves :
    Resolves amongOthers (snapshotShortId (sha256Hex [])) ∧ Recovers amongOthers safety := by
  have hother : sha256Hex [] ≠ str "5d41" := by
    intro h
    have hlength := congrArg List.length h
    rw [sha256Hex_length] at hlength
    exact absurd hlength (by decide)
  have hshared : ¬ Shared amongOthers (sha256Hex []) := by
    unfold Shared
    rw [amongOthers_ids, List.count_cons_of_ne hother.symm, List.count_cons_self,
      List.count_cons_of_ne hother.symm]
    decide
  have honly : ∀ id, OnlyMatch amongOthers (snapshotShortId (sha256Hex [])) id →
      id = sha256Hex [] := by
    intro id h
    have hlisted := h.listed
    rw [amongOthers_ids] at hlisted
    have hcases : id = str "5d41" ∨ id = sha256Hex [] := by
      obtain hid | hid | hid | hnone := by simpa only [List.mem_cons] using hlisted
      · exact .inl hid
      · exact .inr hid
      · exact .inl hid
      · exact absurd hnone List.not_mem_nil
    obtain rfl | rfl := hcases
    · -- the prefix has twelve characters, this id has four
      have hle := h.begins.length_le
      rw [snapshotShortId, List.length_take, sha256Hex_length] at hle
      have hlength : (str "5d41").length = 4 := by decide
      simp only [kSnapshotShortIdLength] at hle
      omega
    · rfl
  obtain ⟨hresolves, hrecovers⟩ :=
    resolves_iff amongOthers (snapshotShortId (sha256Hex [])) safety [] rfl
  refine ⟨hresolves.mpr ?_, hrecovers.mpr fun _ => hshared⟩
  intro id h
  rw [honly id h]
  exact hshared

def copyName (id : Str) (digit : UInt8) : Str := snapshotFileName id ++ str ".bad-" ++ [digit]

theorem copyName_row {d : Directory} {id : Str} {digit : UInt8} (hdot : (46 : UInt8) ∉ id)
    (hdigit : digit = 48 ∨ digit = 49)
    (hparse : parseFile Json.reference d (copyName id digit) = none) :
    rowOfName Json.reference d (copyName id digit) = some { bestEffortMeta none id with
      health := .corrupt } := by
  have hlast : (copyName id digit).getLast? = some digit := List.getLast?_concat
  refine quarantined_row hdot ?_ hparse
  obtain rfl | rfl := hdigit
  · exact not_skipped_of_last hlast (by decide) (by decide)
  · exact not_skipped_of_last hlast (by decide) (by decide)

def copies (id : Str) : Directory :=
  ((∅ : Directory).insert (copyName id 48) []).insert (copyName id 49) []

theorem copyName_inj {id : Str} {digit digit' : UInt8} : copyName id digit = copyName id digit' ↔
    digit = digit' := by
  unfold copyName
  rw [List.append_cancel_left_eq, List.singleton_inj]

theorem mem_copies {id name : Str} : name ∈ copies id ↔ name = copyName id 48 ∨
    name = copyName id 49 := by
  unfold copies
  rw [Std.ExtTreeMap.mem_insert, Std.ExtTreeMap.mem_insert, Std.compare_eq_iff_eq,
    Std.compare_eq_iff_eq]
  simp only [Std.ExtTreeMap.not_mem_empty, or_false]
  rw [or_comm, eq_comm, eq_comm (b := name)]

theorem copies_row {id name : Str} (hdot : (46 : UInt8) ∉ id) (hname : name ∈ copies id) :
    rowOfName Json.reference (copies id) name = some { bestEffortMeta none id with
      health := .corrupt } := by
  have hparse : parseFile Json.reference (copies id) name = none := by
    have hfile : (copies id)[name]? = some [] := by
      unfold copies
      rw [Std.ExtTreeMap.getElem?_insert, Std.ExtTreeMap.getElem?_insert]
      obtain rfl | rfl := mem_copies.mp hname
      · simp
      · simp
    rw [parseFile, hfile]
    decide
  obtain rfl | rfl := mem_copies.mp hname
  · exact copyName_row hdot (.inl rfl) hparse
  · exact copyName_row hdot (.inr rfl) hparse

theorem copies_listed {id : Str} (hdot : (46 : UInt8) ∉ id) :
    (list Json.reference .quiet (copies id)).1.map (·.id) = [id, id] := by
  have hhead : headLocked (copies id) = none := by
    have hnone : str "HEAD" ∉ copies id := by
      rw [mem_copies]
      intro h
      obtain h | h := h
      · have hlast := congrArg List.getLast? h
        rw [copyName, List.getLast?_concat] at hlast
        exact absurd hlast (by decide)
      · have hlast := congrArg List.getLast? h
        rw [copyName, List.getLast?_concat] at hlast
        exact absurd hlast (by decide)
    rw [headLocked, Std.ExtTreeMap.getElem?_eq_none hnone]
  have hsize : (copies id).size = 2 := by
    simp [copies, Std.ExtTreeMap.size_insert, copyName_inj]
  have hrows : rows Json.reference Env.quiet.order (copies id) =
      List.replicate 2 { bestEffortMeta none id with health := .corrupt } := by
    unfold rows
    have hall : ∀ name ∈ Env.quiet.order.names (copies id), rowOfName Json.reference
        (copies id) name =
        (some ∘ fun _ => { bestEffortMeta none id with health := .corrupt }) name := by
      intro name hname
      exact copies_row hdot ((order_mem _).mp hname)
    rw [List.filterMap_congr hall, List.filterMap_eq_map, List.map_const',
      (Env.quiet.order.perm _).length_eq, Std.ExtTreeMap.length_keys, hsize]
  rw [(list_rows _ _).1, hrows, hhead]
  rfl

theorem copies_unresolved : ¬ ∀ (J : Json.Codec) (e : Env) (d : Directory) (idPrefix : Str),
    Resolves (list J e d).1 idPrefix := by
  intro hall
  have hdot : (46 : UInt8) ∉ sha256Hex [] := sha256Hex_not_mem (by decide)
  have hlisted := copies_listed hdot
  have honly : OnlyMatch (list Json.reference .quiet (copies (sha256Hex []))).1
      (snapshotShortId (sha256Hex []))
      (sha256Hex []) := by
    refine ⟨by rw [hlisted]; exact List.mem_cons_self, List.take_prefix _ _, ?_⟩
    intro id hid _
    rw [hlisted] at hid
    simpa using hid
  have hresolves :=
    hall Json.reference .quiet (copies (sha256Hex [])) (snapshotShortId (sha256Hex []))
  apply (resolveId_only_iff honly).mp ((hresolves.unique _).mpr honly)
  unfold Shared
  rw [hlisted]
  simp

end Copies

end DevMgr.Cli
