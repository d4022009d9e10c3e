import DevMgr.Core.SnapshotDiff
import DevMgr.Library.Json.RoundTrip

/-!
# The wire shapes of snapshots

A list of metadata, a diff and the outcome of a restore go over the bus as JSON.
Each decoder gives back what its encoder was given. The lookups of a decoder are
guarded by a handler, with one exception: the marker of a diff is read outside.
-/

namespace DevMgr.Core
open Bytes

def SnapshotHealth.toStr : SnapshotHealth → Str
  | .ok => str "ok"
  | .corrupt => str "corrupt"
  | .unsupported => str "unsupported"

def metaToJson (m : SnapshotMeta) : Json :=
  .obj [
    (str "corrupt", .bool (m.health ≠ .ok)),
    (str "createdAtUtc", .int m.createdAtUtc.toInt),
    (str "entryCount", .int m.entryCount),
    (str "health", .string m.health.toStr),
    (str "id", .string m.id),
    (str "modprobeFileCount", .int m.modprobeFileCount),
    (str "parent", match m.parent with | some parent => .string parent | none => .null),
    (str "reason",
      .obj [(str "subject", .string m.reason.subject), (str "verb", .string m.reason.verb)]),
    (str "trigger", .string m.trigger.toStr)]

def listDocument (metas : List SnapshotMeta) : Json := .arr (metas.map metaToJson)

def diffEntryToJson (e : SnapshotDiffEntry) : Json :=
  .obj [(str "after", .string e.after), (str "before", .string e.before),
    (str "key", .string e.key),
    (str "kind", .string e.kind)]

def diffDocument (diff : SnapshotDiff) : Json :=
  .obj [
    (str "baseId", .string diff.baseId),
    (str "differences", .bool (!diff.identical)),
    (str "entries", .arr (diff.entries.map diffEntryToJson)),
    (str "targetId", .string diff.targetId)]

def itemToJson (i : RestoreItemOutcome) : Json :=
  .obj [(str "action", .string i.action), (str "detail", .string i.detail),
    (str "status", .string i.status), (str "subject", .string i.subject)]

def outcomeDocument (outcome : RestoreOutcome) : Json :=
  .obj [
    (str "items", .arr (outcome.items.map itemToJson)),
    (str "safetySnapshotId", .string outcome.safetySnapshotId),
    (str "snapshotId", .string outcome.snapshotId)]

variable (J : Json.Codec)

def dumped (doc : Json) : Except Json.Exception Str :=
  if doc.isText then .ok (J.dump doc) else .error .typeError

def snapshotListToJson (metas : List SnapshotMeta) : Except Json.Exception Str :=
  dumped J (listDocument metas)

def snapshotDiffToJson (diff : SnapshotDiff) : Except Json.Exception Str :=
  dumped J (diffDocument diff)

def restoreOutcomeToJson (outcome : RestoreOutcome) : Except Json.Exception Str :=
  dumped J (outcomeDocument outcome)

def stringAt (j : Json) (key : Str) : Except Json.Exception Str := do
  (← j.atKey key).getString

def getSize : Json → Except Json.Exception ℕ
  | .int n => .ok (n % 2 ^ 64).toNat
  | .float bits => .ok (Json.truncate bits % 2 ^ 64).toNat
  | _ => .error .typeError

def boolOr (j : Json) (key : Str) (fallback : Bool) : Except Json.Exception Bool :=
  match j.member? key with
  | some v => v.getBool
  | none => .ok fallback

def parentFrom : Json → Option Str
  | .string parent => some parent
  | _ => none

def healthFrom (text : Str) : SnapshotHealth :=
  if text = str "corrupt" then .corrupt
  else if text = str "unsupported" then .unsupported
  else .ok

def metaFromJson (j : Json) : Except Json.Exception SnapshotMeta := do
  let id ← stringAt j (str "id")
  let parent ← j.atKey (str "parent")
  let createdAtUtc ← (← j.atKey (str "createdAtUtc")).getInt64
  let trigger ← stringAt j (str "trigger")
  let verb ← stringAt (← j.atKey (str "reason")) (str "verb")
  let subject ← stringAt (← j.atKey (str "reason")) (str "subject")
  let health ← stringAt j (str "health")
  let entryCount ← getSize (← j.atKey (str "entryCount"))
  let modprobeFileCount ← getSize (← j.atKey (str "modprobeFileCount"))
  return {
    id := id
    parent := parentFrom parent
    createdAtUtc := createdAtUtc
    trigger := (snapshotTriggerFrom trigger).getD .auto
    reason := ⟨verb, subject⟩
    health := healthFrom health
    entryCount := entryCount
    modprobeFileCount := modprobeFileCount }

def diffEntryFromJson (j : Json) : Except Json.Exception SnapshotDiffEntry := do
  let kind ← stringAt j (str "kind")
  let key ← stringAt j (str "key")
  let before ← stringAt j (str "before")
  let after ← stringAt j (str "after")
  return { kind, key, before, after }

def diffBody (doc : Json) : Except Json.Exception SnapshotDiff := do
  let baseId ← stringAt doc (str "baseId")
  let targetId ← stringAt doc (str "targetId")
  let entries ← (← doc.atKey (str "entries")).items.mapM diffEntryFromJson
  return { baseId, targetId, entries }

def itemFromJson (j : Json) : Except Json.Exception RestoreItemOutcome := do
  let subject ← stringAt j (str "subject")
  let action ← stringAt j (str "action")
  let status ← stringAt j (str "status")
  let detail ← stringAt j (str "detail")
  return { subject, action, status, detail }

def outcomeBody (doc : Json) : Except Json.Exception RestoreOutcome := do
  let snapshotId ← stringAt doc (str "snapshotId")
  let safetySnapshotId ← stringAt doc (str "safetySnapshotId")
  let items ← (← doc.atKey (str "items")).items.mapM itemFromJson
  return { snapshotId, safetySnapshotId, items }

variable (what : Str → Str)

def guarded {α : Type} (malformed text : Str) (body : Except Json.Exception α) : Result α :=
  match body with
  | .ok out => .ok out
  | .error _ => makeError .io (malformed ++ str ": " ++ what text)

def snapshotListFromJson (text : Str) : Except Json.Exception (Result (List SnapshotMeta)) :=
  let malformed := str "malformed snapshot list JSON"
  match J.parse text with
  | some (.arr elements) => .ok (guarded what malformed text (elements.mapM metaFromJson))
  | _ => .ok (makeError .io malformed)

def checkMarker (doc : Json) (out : SnapshotDiff) : Except Json.Exception (Result SnapshotDiff) :=
  do
  let marker ← boolOr doc (str "differences") (!out.identical)
  if marker = out.identical then
    return makeError .io (str "snapshot diff JSON contradicts its differences marker")
  return .ok out

def snapshotDiffFromJson (text : Str) : Except Json.Exception (Result SnapshotDiff) :=
  let malformed := str "malformed snapshot diff JSON"
  match J.parse text with
  | some (.obj members) =>
    match guarded what malformed text (diffBody (.obj members)) with
    | .error error => .ok (.error error)
    | .ok out => checkMarker (.obj members) out
  | _ => .ok (makeError .io malformed)

def restoreOutcomeFromJson (text : Str) : Except Json.Exception (Result RestoreOutcome) :=
  let malformed := str "malformed restore outcome JSON"
  match J.parse text with
  | some (.obj members) => .ok (guarded what malformed text (outcomeBody (.obj members)))
  | _ => .ok (makeError .io malformed)

section Lists
variable {α : Type} {encode : α → Json} {decode : Json → Except Json.Exception α}

theorem mapM_decode {l : List α} (h : ∀ a ∈ l, decode (encode a) = .ok a) :
    (l.map encode).mapM decode = .ok l := by
  induction l with
  | nil => rfl
  | cons a l ih =>
    rw [List.map_cons, List.mapM_cons, h a List.mem_cons_self,
      ih fun b hb => h b (List.mem_cons_of_mem _ hb)]
    rfl

theorem arr_canonical {l : List α} (h : ∀ a ∈ l, (encode a).Canonical) :
    (Json.arr (l.map encode)).Canonical := by
  refine (Json.canonicalElements_iff _).mpr ?_
  simp only [List.mem_map]
  rintro _ ⟨a, ha, rfl⟩
  exact h a ha

theorem arr_text {l : List α} (h : ∀ a ∈ l, (encode a).isText = true) :
    (Json.arr (l.map encode)).isText = true := by
  rw [Json.isText, Json.isTextElements_iff]
  simp only [List.mem_map]
  rintro _ ⟨a, ha, rfl⟩
  exact h a ha

end Lists

/-- Both counts are those of a `std::size_t`. -/
structure SnapshotMeta.Sized (m : SnapshotMeta) : Prop where
  entryCount : m.entryCount < 2 ^ 64
  modprobeFileCount : m.modprobeFileCount < 2 ^ 64

theorem getSize_nat {n : ℕ} (h : n < 2 ^ 64) : getSize (.int n) = .ok n := by
  rw [getSize]
  exact congrArg Except.ok (by omega)

@[simp] theorem healthFrom_toStr (health : SnapshotHealth) : healthFrom health.toStr = health := by
  cases health <;> decide

theorem metaFromJson_toJson {m : SnapshotMeta} (h : m.Sized) :
    metaFromJson (metaToJson m) = .ok m := by
  have htime : Int64.ofInt m.createdAtUtc.toInt = m.createdAtUtc := Int64.ofInt_toInt _
  have hparent : parentFrom (match m.parent with | some parent => .string parent | none => .null) =
      m.parent := by
    cases m.parent <;> rfl
  change (do
    let entryCount ← getSize (.int m.entryCount)
    let modprobeFileCount ← getSize (.int m.modprobeFileCount)
    return SnapshotMeta.mk m.id _ (Int64.ofInt m.createdAtUtc.toInt)
      ((snapshotTriggerFrom m.trigger.toStr).getD .auto) m.reason
        (healthFrom m.health.toStr) entryCount
      modprobeFileCount) = _
  rw [getSize_nat h.entryCount, getSize_nat h.modprobeFileCount, htime, snapshotTriggerFrom_toStr,
    healthFrom_toStr, hparent]
  rfl

theorem diffEntryFromJson_toJson (e : SnapshotDiffEntry) :
    diffEntryFromJson (diffEntryToJson e) = .ok e := rfl

theorem itemFromJson_toJson (i : RestoreItemOutcome) : itemFromJson (itemToJson i) = .ok i := rfl

theorem diffBody_document (diff : SnapshotDiff) : diffBody (diffDocument diff) = .ok diff := by
  change (do
    let entries ← (diff.entries.map diffEntryToJson).mapM diffEntryFromJson
    return SnapshotDiff.mk diff.baseId diff.targetId entries) = _
  rw [mapM_decode fun e _ => diffEntryFromJson_toJson e]
  rfl

theorem outcomeBody_document (outcome : RestoreOutcome) :
    outcomeBody (outcomeDocument outcome) = .ok outcome := by
  change (do
    let items ← (outcome.items.map itemToJson).mapM itemFromJson
    return RestoreOutcome.mk outcome.snapshotId outcome.safetySnapshotId items) = _
  rw [mapM_decode fun i _ => itemFromJson_toJson i]
  rfl

def SnapshotMeta.strings (m : SnapshotMeta) : List Str :=
  m.id :: m.reason.verb :: m.reason.subject :: m.parent.toList

def SnapshotDiff.strings (diff : SnapshotDiff) : List Str :=
  diff.baseId :: diff.targetId :: diff.entries.flatMap fun e => [e.kind, e.key, e.before, e.after]

def RestoreOutcome.strings (outcome : RestoreOutcome) : List Str :=
  outcome.snapshotId :: outcome.safetySnapshotId ::
    outcome.items.flatMap fun i => [i.subject, i.action, i.status, i.detail]

def AllText (strings : List Str) : Prop := ∀ s ∈ strings, validUtf8 s = true

theorem metaToJson_text {m : SnapshotMeta} (h : AllText m.strings) :
    (metaToJson m).isText = true := by
  have hparent : (match m.parent with | some parent => Json.string parent | none => .null).isText =
      true := by
    cases hp : m.parent with
    | none => rfl
    | some parent => exact h parent (by simp [SnapshotMeta.strings, hp])
  have hid : validUtf8 m.id = true := h _ (by simp [SnapshotMeta.strings])
  have hverb : validUtf8 m.reason.verb = true := h _ (by simp [SnapshotMeta.strings])
  have hsubject : validUtf8 m.reason.subject = true := h _ (by simp [SnapshotMeta.strings])
  have hhealth : validUtf8 m.health.toStr = true := by cases m.health <;> decide
  have htrigger : validUtf8 m.trigger.toStr = true := by cases m.trigger <;> decide
  have hkeys :
      ∀ key ∈ [str "corrupt", str "createdAtUtc", str "entryCount", str "health", str "id",
      str "modprobeFileCount", str "parent", str "reason", str "subject",
      str "verb", str "trigger"],
      validUtf8 key = true := by decide
  simp only [List.forall_mem_cons] at hkeys
  simp only [metaToJson, Json.isText, Json.isTextMembers, hparent, hid, hverb, hsubject, hhealth,
    htrigger, hkeys, Bool.and_self]

theorem listDocument_text {metas : List SnapshotMeta} (h : ∀ m ∈ metas, AllText m.strings) :
    (listDocument metas).isText = true :=
  arr_text fun m hm => metaToJson_text (h m hm)

theorem diffDocument_text {diff : SnapshotDiff} (h : AllText diff.strings) :
    (diffDocument diff).isText = true := by
  have hentries : Json.isTextElements (diff.entries.map diffEntryToJson) = true := by
    refine arr_text fun e he => ?_
    have hfields : ∀ s ∈ [e.kind, e.key, e.before, e.after], validUtf8 s = true := fun s hs =>
      h s (List.mem_cons_of_mem _ (List.mem_cons_of_mem _ (List.mem_flatMap.mpr ⟨e, he, hs⟩)))
    have hkeys : ∀ key ∈ [str "after", str "before", str "key", str "kind"],
        validUtf8 key = true := by
      decide
    simp only [List.forall_mem_cons] at hfields hkeys
    simp only [diffEntryToJson, Json.isText, Json.isTextMembers, hfields, hkeys, Bool.and_self]
  have hbase : validUtf8 diff.baseId = true := h _ (by simp [SnapshotDiff.strings])
  have htarget : validUtf8 diff.targetId = true := h _ (by simp [SnapshotDiff.strings])
  have hkeys : ∀ key ∈ [str "baseId", str "differences", str "entries", str "targetId"],
      validUtf8 key = true := by decide
  simp only [List.forall_mem_cons] at hkeys
  simp only [diffDocument, Json.isText, Json.isTextMembers, hentries, hkeys, hbase, htarget,
    Bool.and_self]

theorem outcomeDocument_text {outcome : RestoreOutcome} (h : AllText outcome.strings) :
    (outcomeDocument outcome).isText = true := by
  have hitems : Json.isTextElements (outcome.items.map itemToJson) = true := by
    refine arr_text fun i hi => ?_
    have hfields : ∀ s ∈ [i.subject, i.action, i.status, i.detail], validUtf8 s = true :=
      fun s hs =>
      h s (List.mem_cons_of_mem _ (List.mem_cons_of_mem _ (List.mem_flatMap.mpr ⟨i, hi, hs⟩)))
    have hkeys : ∀ key ∈ [str "action", str "detail", str "status", str "subject"],
        validUtf8 key = true := by decide
    simp only [List.forall_mem_cons] at hfields hkeys
    simp only [itemToJson, Json.isText, Json.isTextMembers, hfields, hkeys, Bool.and_self]
  have hsnapshot : validUtf8 outcome.snapshotId = true := h _ (by simp [RestoreOutcome.strings])
  have hsafety : validUtf8 outcome.safetySnapshotId = true := h _ (by simp [RestoreOutcome.strings])
  have hkeys : ∀ key ∈ [str "items", str "safetySnapshotId", str "snapshotId"],
      validUtf8 key = true := by decide
  simp only [List.forall_mem_cons] at hkeys
  simp only [outcomeDocument, Json.isText, Json.isTextMembers, hitems, hkeys, hsnapshot, hsafety,
    Bool.and_self]

theorem count_canonical {n : ℕ} (h : n < 2 ^ 64) : (Json.int n).Canonical :=
  ⟨by omega, by exact_mod_cast h⟩

theorem metaToJson_canonical {m : SnapshotMeta} (h : m.Sized) : (metaToJson m).Canonical := by
  have hparent :
      (match m.parent with | some parent => Json.string parent | none => .null).Canonical := by
    cases m.parent <;> trivial
  have htime : (Json.int m.createdAtUtc.toInt).Canonical :=
    ⟨Int64.le_toInt _, by have hhigh := Int64.toInt_lt m.createdAtUtc; omega⟩
  have hreason : (Json.obj [(str "subject", .string m.reason.subject),
      (str "verb", .string m.reason.verb)]).Canonical :=
    ⟨keySorted_of_keys (by simp only [List.map]; decide), trivial, trivial, trivial⟩
  exact ⟨keySorted_of_keys (by simp only [List.map]; decide), trivial, htime,
    count_canonical h.entryCount, trivial, trivial, count_canonical h.modprobeFileCount,
    hparent, hreason,
    trivial, trivial⟩

theorem listDocument_canonical {metas : List SnapshotMeta} (h : ∀ m ∈ metas, m.Sized) :
    (listDocument metas).Canonical :=
  arr_canonical fun m hm => metaToJson_canonical (h m hm)

theorem diffDocument_canonical (diff : SnapshotDiff) : (diffDocument diff).Canonical := by
  have hentries : (Json.arr (diff.entries.map diffEntryToJson)).Canonical :=
    arr_canonical fun e _ =>
      ⟨keySorted_of_keys (by simp only [List.map]; decide), trivial, trivial,
        trivial, trivial, trivial⟩
  exact ⟨keySorted_of_keys (by simp only [List.map]; decide), trivial, trivial, hentries, trivial,
    trivial⟩

theorem outcomeDocument_canonical (outcome : RestoreOutcome) :
    (outcomeDocument outcome).Canonical := by
  have hitems : (Json.arr (outcome.items.map itemToJson)).Canonical :=
    arr_canonical fun i _ =>
      ⟨keySorted_of_keys (by simp only [List.map]; decide), trivial, trivial,
        trivial, trivial, trivial⟩
  exact ⟨keySorted_of_keys (by simp only [List.map]; decide), hitems, trivial, trivial, trivial⟩

def Survives {α : Type} (written : Except Json.Exception Str)
    (reading : Str → Except Json.Exception (Result α)) (value : α) : Prop :=
  ∃ text, written = .ok text ∧ reading text = .ok (.ok value)

theorem dumped_ok {doc : Json} (h : doc.isText = true) : dumped J doc = .ok (J.dump doc) := if_pos h

section Diffs
variable {J : Json.Codec} {what : Str → Str} {text : Str} {members : List (Str × Json)}

theorem snapshotDiffFromJson_parsed {out : SnapshotDiff}
    (hparse : J.parse text = some (.obj members)) (hbody : diffBody (.obj members) = .ok out) :
    snapshotDiffFromJson J what text = checkMarker (.obj members) out := by
  rw [snapshotDiffFromJson, hparse]
  simp only [hbody, guarded]

theorem snapshotDiffFromJson_refused {exception : Json.Exception}
    (hparse : J.parse text = some (.obj members))
    (hbody : diffBody (.obj members) = .error exception) :
    snapshotDiffFromJson J what text =
      .ok (makeError .io (str "malformed snapshot diff JSON: " ++ what text)) := by
  rw [snapshotDiffFromJson, hparse]
  simp only [hbody, guarded, makeError]
  rfl

end Diffs

theorem wire_round_trip :
    (∀ metas : List SnapshotMeta, (∀ m ∈ metas, AllText m.strings ∧ m.Sized) →
      Survives (snapshotListToJson J metas) (snapshotListFromJson J what) metas) ∧
    (∀ diff : SnapshotDiff, AllText diff.strings →
      Survives (snapshotDiffToJson J diff) (snapshotDiffFromJson J what) diff) ∧
    ∀ outcome : RestoreOutcome, AllText outcome.strings →
      Survives (restoreOutcomeToJson J outcome) (restoreOutcomeFromJson J what) outcome := by
  refine ⟨fun metas h => ?_, fun diff h => ?_, fun outcome h => ?_⟩
  · have htext := listDocument_text fun m hm => (h m hm).1
    refine ⟨_, dumped_ok J htext, ?_⟩
    rw [snapshotListFromJson, J.parse_dump _ htext (listDocument_canonical fun m hm => (h m hm).2)]
    simp only [listDocument]
    rw [mapM_decode fun m hm => metaFromJson_toJson (h m hm).2]
    rfl
  · have htext := diffDocument_text h
    refine ⟨_, dumped_ok J htext, ?_⟩
    have hparse := J.parse_dump _ htext (diffDocument_canonical diff)
    have hdiffers : ¬ (!diff.identical) = diff.identical := by simp
    exact (snapshotDiffFromJson_parsed hparse (diffBody_document diff)).trans (if_neg hdiffers)
  · have htext := outcomeDocument_text h
    refine ⟨_, dumped_ok J htext, ?_⟩
    rw [restoreOutcomeFromJson, J.parse_dump _ htext (outcomeDocument_canonical outcome)]
    change Except.ok (guarded what _ _ (outcomeBody (outcomeDocument outcome))) = _
    rw [outcomeBody_document]
    rfl

def sampleMeta : SnapshotMeta where
  id := str "86a3"
  parent := some []
  createdAtUtc := 1780000100
  trigger := .manual
  reason := ⟨[], str "before experiment"⟩
  health := .corrupt
  entryCount := 2
  modprobeFileCount := 1

def sampleDiff : SnapshotDiff :=
  ⟨str "86a3", [],
    [⟨kDiffKindModule, str "nouveau", kDiffStateAbsent, kDiffStateBlacklisted⟩]⟩

def sampleOutcome : RestoreOutcome :=
  ⟨str "86a3", str "193d", [⟨str "devmgr-a.conf", str "modprobe-write", str "ok", []⟩]⟩

theorem wire_round_trip_samples :
    Survives (snapshotListToJson Json.reference [sampleMeta])
      (snapshotListFromJson Json.reference id) [sampleMeta] ∧
    Survives (snapshotDiffToJson Json.reference sampleDiff)
      (snapshotDiffFromJson Json.reference id) sampleDiff ∧
    Survives (restoreOutcomeToJson Json.reference sampleOutcome)
      (restoreOutcomeFromJson Json.reference id) sampleOutcome := by
  obtain ⟨hlist, hdiff, houtcome⟩ := wire_round_trip Json.reference id
  refine ⟨hlist _ fun m hm => ?_, hdiff _ ?_, houtcome _ ?_⟩
  · obtain rfl := List.mem_singleton.mp hm
    exact ⟨by unfold AllText; decide, by decide, by decide⟩
  · unfold AllText
    decide
  · unfold AllText
    decide

section Lookups

theorem bind_ok {α β : Type} {x : Except Json.Exception α} {f : α → Except Json.Exception β} :
    (∃ b, (x >>= f) = .ok b) ↔ ∃ a, x = .ok a ∧ ∃ b, f a = .ok b := by
  cases x with
  | error exception => simp [bind, Except.bind]
  | ok a => simp [bind, Except.bind]

theorem mapM_ok {α β : Type} {f : α → Except Json.Exception β} {l : List α} :
    (∃ r, l.mapM f = .ok r) ↔ ∀ a ∈ l, ∃ b, f a = .ok b := by
  induction l with
  | nil => simp [pure, Except.pure]
  | cons a l ih =>
    rw [List.mapM_cons, bind_ok, List.forall_mem_cons, ← ih]
    constructor
    · rintro ⟨b, hb, hrest⟩
      obtain ⟨r, hr, _⟩ := bind_ok.mp hrest
      exact ⟨⟨b, hb⟩, r, hr⟩
    · rintro ⟨⟨b, hb⟩, r, hr⟩
      exact ⟨b, hb, bind_ok.mpr ⟨r, hr, _, rfl⟩⟩

variable {j : Json} {key : Str}

theorem atKey_ok {v : Json} : j.atKey key = .ok v ↔ j.member? key = some v := by
  cases j with
  | obj members =>
    unfold Json.atKey Json.member?
    dsimp only
    split
    · rename_i w hw
      rw [hw, Except.ok.injEq, Option.some.injEq]
    · rename_i hnone
      rw [hnone]
      exact ⟨nofun, nofun⟩
  | _ => simp [Json.atKey, Json.member?]

theorem stringAt_ok : (∃ s, stringAt j key = .ok s) ↔
    ∃ s, j.member? key = some (.string s) := by
  rw [stringAt, bind_ok]
  constructor
  · rintro ⟨v, hv, s, hs⟩
    cases v with
    | string s => exact ⟨s, atKey_ok.mp hv⟩
    | _ => simp [Json.getString] at hs
  · rintro ⟨s, hs⟩
    exact ⟨_, atKey_ok.mpr hs, s, rfl⟩

end Lookups

def StringsAt (j : Json) (keys : List Str) : Prop :=
  ∀ key ∈ keys, ∃ s, j.member? key = some (.string s)

structure DiffShaped (doc : Json) : Prop where
  ids : StringsAt doc [str "baseId", str "targetId"]
  entries : ∃ entries, doc.member? (str "entries") = some entries ∧
    ∀ e ∈ entries.items, StringsAt e [str "kind", str "key", str "before", str "after"]

theorem diffEntryFromJson_ok {j : Json} : (∃ e, diffEntryFromJson j = .ok e) ↔
    StringsAt j [str "kind", str "key", str "before", str "after"] := by
  simp only [StringsAt, List.forall_mem_cons, List.not_mem_nil, ← stringAt_ok]
  constructor
  · intro h
    obtain ⟨kind, hkind, h⟩ := bind_ok.mp h
    obtain ⟨key, hkey, h⟩ := bind_ok.mp h
    obtain ⟨before, hbefore, h⟩ := bind_ok.mp h
    obtain ⟨after, hafter, _⟩ := bind_ok.mp h
    exact ⟨⟨kind, hkind⟩, ⟨key, hkey⟩, ⟨before, hbefore⟩,
      ⟨after, hafter⟩, nofun⟩
  · rintro ⟨⟨kind, hkind⟩, ⟨key, hkey⟩, ⟨before, hbefore⟩, ⟨after, hafter⟩, _⟩
    refine ⟨⟨kind, key, before, after⟩, ?_⟩
    rw [diffEntryFromJson, hkind, hkey, hbefore, hafter]
    rfl

theorem diffBody_ok {doc : Json} : (∃ out, diffBody doc = .ok out) ↔ DiffShaped doc := by
  constructor
  · intro h
    obtain ⟨baseId, hbase, h⟩ := bind_ok.mp h
    obtain ⟨targetId, htarget, h⟩ := bind_ok.mp h
    obtain ⟨entries, hentries, h⟩ := bind_ok.mp h
    obtain ⟨l, hl, _⟩ := bind_ok.mp h
    refine ⟨?_, entries, atKey_ok.mp hentries, fun e he => ?_⟩
    · simp only [StringsAt, List.forall_mem_cons, List.not_mem_nil, ← stringAt_ok]
      exact ⟨⟨baseId, hbase⟩, ⟨targetId, htarget⟩, nofun⟩
    · exact diffEntryFromJson_ok.mp (mapM_ok.mp ⟨l, hl⟩ e he)
  · rintro ⟨hids, entries, hentries, hshaped⟩
    simp only [StringsAt, List.forall_mem_cons, List.not_mem_nil, ← stringAt_ok] at hids
    obtain ⟨⟨baseId, hbase⟩, ⟨targetId, htarget⟩, _⟩ := hids
    obtain ⟨l, hl⟩ := mapM_ok.mpr fun e he => diffEntryFromJson_ok.mpr (hshaped e he)
    refine ⟨⟨baseId, targetId, l⟩, ?_⟩
    rw [diffBody, hbase, htarget, atKey_ok.mpr hentries]
    change (entries.items.mapM diffEntryFromJson >>= _) = _
    rw [hl]
    rfl

def Answers {α : Type} (r : Except Json.Exception (Result α)) : Prop :=
  (∃ a, r = .ok (.ok a)) ∨ ∃ error, r = .ok (.error error) ∧ error.code = .io

theorem guarded_answers {α : Type} (malformed text : Str) (body : Except Json.Exception α) :
    Answers (Except.ok (guarded what malformed text body) : Except Json.Exception (Result α)) := by
  cases body with
  | error exception => exact .inr ⟨_, rfl, rfl⟩
  | ok a => exact .inl ⟨a, rfl⟩

theorem snapshotListFromJson_answers (text : Str) : Answers (snapshotListFromJson J what text) := by
  unfold snapshotListFromJson
  dsimp only
  split
  · exact guarded_answers what _ _ _
  · exact .inr ⟨_, rfl, rfl⟩

theorem restoreOutcomeFromJson_answers (text : Str) :
    Answers (restoreOutcomeFromJson J what text) := by
  unfold restoreOutcomeFromJson
  dsimp only
  split
  · exact guarded_answers what _ _ _
  · exact .inr ⟨_, rfl, rfl⟩

theorem checkMarker_cases (doc : Json) (out : SnapshotDiff) :
    (doc.member? (str "differences") = none ∧ checkMarker doc out = .ok (.ok out)) ∨
    (doc.member? (str "differences") = some (.bool (!out.identical)) ∧
      checkMarker doc out = .ok (.ok out)) ∨
    (doc.member? (str "differences") = some (.bool out.identical) ∧ checkMarker doc out =
      .ok (makeError .io (str "snapshot diff JSON contradicts its differences marker"))) ∨
    ∃ v, doc.member? (str "differences") = some v ∧ (∀ b, v ≠ .bool b) ∧
      checkMarker doc out = .error .typeError := by
  have hdiffers : ¬ (!out.identical) = out.identical := by simp
  unfold checkMarker boolOr
  cases hmarker : doc.member? (str "differences") with
  | none => exact .inl ⟨rfl, if_neg hdiffers⟩
  | some v =>
    cases v with
    | bool b =>
      by_cases hb : b = out.identical
      · subst hb
        exact .inr (.inr (.inl ⟨rfl, if_pos rfl⟩))
      · have hnot : b = !out.identical := Bool.eq_not.mpr hb
        subst hnot
        exact .inr (.inl ⟨rfl, if_neg hdiffers⟩)
    | _ => exact .inr (.inr (.inr ⟨_, rfl, nofun, rfl⟩))

/-- A text that reads as a diff up to its marker, which is no truth value. -/
def OddMarker (J : Json.Codec) (text : Str) : Prop :=
  ∃ doc, J.parse text = some doc ∧ DiffShaped doc ∧
    ∃ v, doc.member? (str "differences") = some v ∧ ∀ b, v ≠ .bool b

theorem DiffShaped.obj {doc : Json} (h : DiffShaped doc) : ∃ members, doc = .obj members := by
  obtain ⟨_, hentries, _⟩ := h.entries
  cases doc with
  | obj members => exact ⟨members, rfl⟩
  | _ => exact absurd hentries nofun

theorem snapshotDiffFromJson_answers_iff (text : Str) :
    Answers (snapshotDiffFromJson J what text) ↔ ¬ OddMarker J text := by
  constructor
  · rintro hanswers ⟨doc, hparse, hshaped, v, hv, hodd⟩
    obtain ⟨members, rfl⟩ := hshaped.obj
    obtain ⟨out, hout⟩ := diffBody_ok.mpr hshaped
    rw [snapshotDiffFromJson_parsed hparse hout] at hanswers
    rcases checkMarker_cases (.obj members) out with
      ⟨hnone, _⟩ | ⟨hbool, _⟩ | ⟨hbool, _⟩ | ⟨_, _, _, hthrown⟩
    · exact absurd (hnone.symm.trans hv) nofun
    · exact hodd _ (Option.some.inj (hv.symm.trans hbool))
    · exact hodd _ (Option.some.inj (hv.symm.trans hbool))
    · rw [hthrown] at hanswers
      rcases hanswers with ⟨_, h⟩ | ⟨_, h, _⟩ <;> exact absurd h nofun
  · intro hodd
    by_cases hobj : ∃ members, J.parse text = some (.obj members)
    · obtain ⟨members, hparse⟩ := hobj
      cases hbody : diffBody (.obj members) with
      | error exception => exact .inr ⟨_, snapshotDiffFromJson_refused hparse hbody, rfl⟩
      | ok out =>
        rw [snapshotDiffFromJson_parsed hparse hbody]
        rcases checkMarker_cases (.obj members) out with
          ⟨_, h⟩ | ⟨_, h⟩ | ⟨_, h⟩ | ⟨v, hv, hnot, _⟩
        · exact .inl ⟨out, h⟩
        · exact .inl ⟨out, h⟩
        · exact .inr ⟨_, h, rfl⟩
        · exact absurd ⟨_, hparse, diffBody_ok.mp ⟨out, hbody⟩, v, hv, hnot⟩ hodd
    · unfold snapshotDiffFromJson
      dsimp only
      split
      · rename_i members hparse
        exact absurd ⟨members, hparse⟩ hobj
      · exact .inr ⟨_, rfl, rfl⟩

/-- The marker of a document that was accepted, if it has one, is a truth value that agrees with the
entries. -/
def MarkerAgrees (J : Json.Codec) (text : Str) (diff : SnapshotDiff) : Prop :=
  ∀ doc v, J.parse text = some doc → doc.member? (str "differences") = some v →
    v = .bool (!diff.entries.isEmpty)

theorem marker_agrees {text : Str} {diff : SnapshotDiff}
    (h : snapshotDiffFromJson J what text = .ok (.ok diff)) : MarkerAgrees J text diff := by
  intro doc v hparse hv
  obtain ⟨members, rfl⟩ : ∃ members, doc = .obj members := by
    cases doc with
    | obj members => exact ⟨members, rfl⟩
    | _ => exact absurd hv nofun
  cases hbody : diffBody (.obj members) with
  | error exception =>
    rw [snapshotDiffFromJson_refused hparse hbody] at h
    exact absurd (Except.ok.inj h) nofun
  | ok out =>
    rw [snapshotDiffFromJson_parsed hparse hbody] at h
    rcases checkMarker_cases (.obj members) out with
      ⟨hnone, _⟩ | ⟨hbool, hok⟩ | ⟨_, hio⟩ | ⟨_, _, _, hthrown⟩
    · exact absurd (hnone.symm.trans hv) nofun
    · rw [hok] at h
      obtain rfl := Except.ok.inj (Except.ok.inj h)
      exact Option.some.inj (hv.symm.trans hbool)
    · rw [hio] at h
      exact absurd (Except.ok.inj h) nofun
    · rw [hthrown] at h
      exact absurd h nofun

/-- The decoders answer every text, and an accepted diff agrees with its marker, exactly when the
text is none with an odd marker. -/
theorem wire_decoders_total_iff (text : Str) :
    (Answers (snapshotListFromJson J what text) ∧ Answers (snapshotDiffFromJson J what text) ∧
      Answers (restoreOutcomeFromJson J what text) ∧
      ∀ diff, snapshotDiffFromJson J what text = .ok (.ok diff) → MarkerAgrees J text diff) ↔
    ¬ OddMarker J text := by
  rw [← snapshotDiffFromJson_answers_iff J what text]
  refine ⟨fun h => h.2.1, fun h => ?_⟩
  exact ⟨snapshotListFromJson_answers J what text, h, restoreOutcomeFromJson_answers J what text,
    fun diff hdiff => marker_agrees J what hdiff⟩

def oddDocument : Json :=
  .obj [(str "baseId", .string []), (str "differences", .int 1), (str "entries", .arr []),
    (str "targetId", .string [])]

theorem odd_marker_throws :
    snapshotDiffFromJson Json.reference id (Json.reference.dump oddDocument) =
      .error .typeError := by
  have hparse : Json.reference.parse (Json.reference.dump oddDocument) = some oddDocument :=
    Json.reference.parse_dump _ (by decide)
      ⟨keySorted_of_keys (by simp only [List.map]; decide), trivial,
        ⟨by decide, by decide⟩, trivial,
        trivial, trivial⟩
  have hbody : diffBody oddDocument = .ok ⟨[], [], []⟩ := rfl
  rw [oddDocument] at hparse hbody ⊢
  rw [snapshotDiffFromJson_parsed hparse hbody]
  rfl

end DevMgr.Core
