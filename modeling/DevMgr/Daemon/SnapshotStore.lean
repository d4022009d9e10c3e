import Mathlib.Data.List.Sort
import DevMgr.Core.Sha256
import DevMgr.Library.LinkWalk
import DevMgr.Daemon.AtomicFile
import DevMgr.Daemon.EntryJson

/-!
# The JSON snapshot store

One file `<id>.json` a snapshot, named by the hash of its payload, and a `HEAD`
file that names the most recent one. Every public call takes the directory it
finds and returns the directory it leaves; `put` can also end in an exception of
the JSON library, which leaves the directory as it was. The chain walk of
`orderNewestFirst` recurses on fuel, one more than the number of documents.
-/

open DevMgr.Core

namespace DevMgr.Daemon
open Bytes

def kJsonMaxBytes : ℕ := 2 ^ 20

def kKeepAutoSnapshots : ℕ := 20

variable (J : Json.Codec) (e : Env) (d : Directory)

def canonicalPayload (payload : SnapshotPayload) : Str := J.dump (payloadToJson payload)

def payloadId (payload : SnapshotPayload) : Str := sha256Hex (canonicalPayload J payload)

def snapshotFileName (id : Str) : Str := id ++ str ".json"

def idFromFileName (name : Str) : Str := before (str ".json") name

def stringField (doc : Option Json) (key : Str) : Option Str :=
  match doc.bind fun j => j.member? key with
  | some (.string s) => some s
  | _ => none

def bestEffortMeta (doc : Option Json) (fallbackId : Str) : SnapshotMeta :=
  let reason := some ((doc.bind fun j => j.member? (str "reason")).getD .null)
  { id := (stringField doc (str "id")).getD fallbackId
    parent := stringField doc (str "parent")
    createdAtUtc := match doc.bind fun j => j.member? (str "createdAtUtc") with
      | some (.int n) => Int64.ofInt n
      | _ => 0
    trigger := (snapshotTriggerFrom ((stringField doc (str "trigger")).getD [])).getD .auto
    reason := {
      verb := (stringField reason (str "verb")).getD []
      subject := (stringField reason (str "subject")).getD [] }
    health := .ok
    entryCount := 0
    modprobeFileCount := 0 }

/-- `none` is the discarded value: the file is missing, too large or not JSON. -/
def parseFile (name : Str) : Option Json :=
  match d[name]? with
  | none => none
  | some content => if kJsonMaxBytes < content.length then none else J.parse content

inductive Inspection where
  | damaged (what : Str)
  | newer
  | healthy (snap : Snapshot)

def inspect (id : Str) (doc : Option Json) : Inspection :=
  match doc.bind fun j => j.member? (str "formatVersion") with
  | some (.int formatVersion) =>
    if kSnapshotFormatVersion < Int32.ofInt formatVersion then .newer
    else
      match (doc.getD .null).atKey (str "payload") >>= payloadFromJson with
      | .error _ => .damaged (str "is corrupt")
      | .ok payload =>
        let info := bestEffortMeta doc id
        if payloadId J payload ≠ id ∨ info.id ≠ id then
          .damaged (str "failed its integrity check")
        else
          .healthy {
            info := { info with
              health := .ok
              entryCount := payload.entries.length
              modprobeFileCount := payload.modprobeFiles.size }
            payload }
  | _ => .damaged (str "is corrupt")

def quarantineAndFail {α : Type} (id what : Str) : Result α × Directory :=
  let (bad, d') := quarantineFile e d (snapshotFileName id)
  (makeError .io (str "snapshot " ++ id ++ str " " ++ what ++ str ", quarantined as " ++ bad), d')

def missingSnapshotError {α : Type} (id : Str) : Result α :=
  let badPrefix := snapshotFileName id ++ str ".bad-"
  match (e.order.names d).find? fun other => badPrefix <+: other with
  | some quarantined =>
    makeError .io (str "snapshot " ++ id ++ str " is corrupt, quarantined as " ++ quarantined)
  | none => makeError .notFound (str "no snapshot " ++ id)

def readLocked (id : Str) : Result Snapshot × Directory :=
  if snapshotFileName id ∉ d then (missingSnapshotError e d id, d)
  else
    match inspect J id (parseFile J d (snapshotFileName id)) with
    | .damaged what => quarantineAndFail e d id what
    | .newer =>
      (makeError .unsupported
        (str "snapshot " ++ id ++ str " has a newer formatVersion; not touching it"), d)
    | .healthy snap => (.ok snap, d)

def read (id : Str) : Result Snapshot × Directory := readLocked J e d id

/-- An empty file and a missing one both mean that nothing has been stored yet. -/
def headLocked : Option Str :=
  match d[str "HEAD"]? with
  | none => none
  | some content => if firstToken content = [] then none else some (firstToken content)

def head : Result (Option Str) := .ok (headLocked d)

def scanOneLocked (id : Str) : SnapshotMeta × Directory :=
  match readLocked J e d id with
  | (.ok snap, d') => (snap.info, d')
  | (.error error, d') =>
    if error.code = .unsupported then
      ({ bestEffortMeta (parseFile J d' (snapshotFileName id)) id with health := .unsupported }, d')
    else ({ bestEffortMeta (some .null) id with health := .corrupt }, d')

def Skipped (name : Str) : Prop := name = str "HEAD" ∨ str ".tmp" <:+ name

def Quarantined (name : Str) : Prop := str ".bad-" <:+: name

instance : DecidablePred Skipped := fun _ => inferInstanceAs (Decidable (_ ∨ _))

instance : DecidablePred Quarantined := fun _ => inferInstanceAs (Decidable (_ <:+: _))

def scanName (name : Str) : Option SnapshotMeta × Directory :=
  if Skipped name then (none, d)
  else if Quarantined name then
    (some { bestEffortMeta (parseFile J d name) (idFromFileName name) with health := .corrupt }, d)
  else if ¬ str ".json" <:+ name then (none, d)
  else
    let (row, d') := scanOneLocked J e d (idFromFileName name)
    (some row, d')

def scanNames : List Str → Directory → List SnapshotMeta × Directory
  | [], d => ([], d)
  | name :: names, d =>
    let (row, d') := scanName J e d name
    let (rows, d'') := scanNames names d'
    (row.toList ++ rows, d'')

/-- The names are collected before any of the files is read. -/
def scanLocked : List SnapshotMeta × Directory := scanNames J e (e.order.names d) d

def chainOf (metas : List SnapshotMeta) : Option Str → List SnapshotMeta × List Str
  | none => ([], [])
  | some id => LinkWalk.walk (byId metas) SnapshotMeta.parent (metas.length + 1) [] id

def orderNewestFirst (metas : List SnapshotMeta) (headId : Option Str) : List SnapshotMeta :=
  let (ordered, taken) := chainOf metas headId
  let rest := metas.filter fun m => m.id ∉ taken
  ordered ++ rest.insertionSort fun a b => b.createdAtUtc ≤ a.createdAtUtc

def list : List SnapshotMeta × Directory :=
  let (metas, d') := scanLocked J e d
  (orderNewestFirst metas (headLocked d'), d')

def pruneRows : List SnapshotMeta → ℕ → Directory → Directory
  | [], _, d => d
  | m :: ms, autosSeen, d =>
    if m.health ≠ .ok ∨ m.trigger ≠ .auto then pruneRows ms autosSeen d
    else if autosSeen + 1 ≤ kKeepAutoSnapshots then pruneRows ms (autosSeen + 1) d
    else pruneRows ms (autosSeen + 1) (unlink e d (snapshotFileName m.id)).2

def pruneLocked : Directory :=
  let headId := headLocked d
  let (metas, d') := scanLocked J e d
  pruneRows e (orderNewestFirst metas headId) 0 d'

def snapshotDocument (id : Str) (parent : Option Str) (payload : SnapshotPayload)
    (trigger : SnapshotTrigger) (reason : SnapshotReason) (createdAtUtc : Int64) : Json :=
  .obj [
    (str "createdAtUtc", .int createdAtUtc.toInt),
    (str "formatVersion", .int kSnapshotFormatVersion.toInt),
    (str "id", .string id),
    (str "parent", match parent with | some p => .string p | none => .null),
    (str "payload", payloadToJson payload),
    (str "reason", .obj [
      (str "subject", .string reason.subject),
      (str "verb", .string reason.verb)]),
    (str "trigger", .string trigger.toStr)]

def headContent (id : Str) : Str := id ++ [10]

def putHead (headId : Option Str) (id : Str) (isNew : Bool) (d : Directory) :
    Result Str × Directory :=
  if headId ≠ some id then
    match atomicWriteFile e e.headWrite d (str "HEAD") (headContent id) with
    | (.error error, d') => (.error error, d')
    | (.ok (), d') => (.ok id, if isNew then pruneLocked J e d' else d')
  else (.ok id, if isNew then pruneLocked J e d else d)

def put (payload : SnapshotPayload) (trigger : SnapshotTrigger) (reason : SnapshotReason)
    (createdAtUtc : Int64) : Except Json.Exception (Result Str × Directory) :=
  if ¬ (payloadToJson payload).isText then .error .typeError
  else
    let id := payloadId J payload
    let headId := headLocked d
    if headId = some id then .ok (.ok id, d)
    else if snapshotFileName id ∈ d then .ok (putHead J e headId id false d)
    else
      let doc := snapshotDocument id headId payload trigger reason createdAtUtc
      if ¬ doc.isText then .error .typeError
      else
        match atomicWriteFile e e.docWrite d (snapshotFileName id) (J.dumpIndented doc) with
        | (.error error, d') => .ok (.error error, d')
        | (.ok (), d') => .ok (putHead J e headId id true d')

def removeHead (id : Str) (snap : Snapshot) : Result Unit × Directory :=
  if headLocked d = some id then
    let next := snap.info.parent.getD []
    atomicWriteFile e e.headWrite d (str "HEAD") (if next = [] then [] else headContent next)
  else (.ok (), d)

def remove (id : Str) : Result Unit × Directory :=
  match readLocked J e d id with
  | (.error error, d') => (.error error, d')
  | (.ok snap, d') =>
    match removeHead e d' id snap with
    | (.error error, d') => (.error error, d')
    | (.ok (), d') =>
      match unlink e d' (snapshotFileName id) with
      | (some message, d') => (makeError .io (str "delete failed: " ++ message), d')
      | (none, d') => (.ok (), d')

inductive Call where
  | put (payload : SnapshotPayload) (trigger : SnapshotTrigger) (reason : SnapshotReason)
    (createdAtUtc : Int64)
  | list
  | read (id : Str)
  | remove (id : Str)
  | head

def perform (c : Env × Call) : Directory :=
  match c.2 with
  | .put payload trigger reason createdAtUtc =>
    match put J c.1 d payload trigger reason createdAtUtc with
    | .error _ => d
    | .ok (_, d') => d'
  | .list => (list J c.1 d).2
  | .read id => (read J c.1 d id).2
  | .remove id => (remove J c.1 d id).2
  | .head => d

end DevMgr.Daemon
