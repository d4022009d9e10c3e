import DevMgr.Core.Sha256Nat
import DevMgr.Daemon.SnapshotEffects
import DevMgr.Library.Json.RoundTrip

/-!
# What a put leaves for the next read

A put that returns an id promises the file of that id. It keeps the promise when
it writes the file itself and the document stays below the reader's size gate,
and when it finds a file that already reads back to the same payload. It never
looks into a file it finds, and returns the id `HEAD` names without looking for
a file at all.
-/

open DevMgr.Core

namespace DevMgr.Daemon
open Bytes

variable {J : Json.Codec} {e e' : Env} {d d' : Directory} {payload : SnapshotPayload}
  {trigger : SnapshotTrigger} {reason : SnapshotReason} {createdAtUtc : Int64} {id : Str}

theorem read_iff {snap : Snapshot} : (read J e d id).1 = .ok snap ↔ stored J d id = some snap :=
  ⟨fun h => (readLocked_ok (Prod.ext h rfl)).1, fun h => by rw [read, readLocked_stored h]⟩

theorem put_dedupe (htext : (payloadToJson payload).isText = true)
    (hhead : headLocked d = some (payloadId J payload)) :
    put J e d payload trigger reason createdAtUtc = .ok (.ok (payloadId J payload), d) := by
  simp only [put, htext, not_true_eq_false, if_false, if_pos hhead]

theorem put_found (hwrite : e.headWrite = none) (htext : (payloadToJson payload).isText = true)
    (hhead : headLocked d ≠ some (payloadId J payload))
    (hmem : snapshotFileName (payloadId J payload) ∈ d) :
    put J e d payload trigger reason createdAtUtc = .ok (.ok (payloadId J payload),
      renamed d (str "HEAD") (headContent (payloadId J payload))) := by
  simp only [put, htext, not_true_eq_false, if_false, if_neg hhead, if_pos hmem, putHead,
    if_pos hhead, hwrite]
  rfl

theorem perform_put_ok {result : Result Str}
    (h : put J e d payload trigger reason createdAtUtc = .ok (result, d')) :
    perform J d (e, .put payload trigger reason createdAtUtc) = d' := by
  simp only [perform, h]

theorem put_new (hdisk : e.docWrite = none ∧ e.headWrite = none)
    (htext : (payloadToJson payload).isText = true)
    (hhead : headLocked d ≠ some (payloadId J payload))
    (hmem : snapshotFileName (payloadId J payload) ∉ d)
    (hdoc : (putDocument J d payload trigger reason createdAtUtc).isText = true) :
    put J e d payload trigger reason createdAtUtc = .ok (.ok (payloadId J payload),
      pruneLocked J e (renamed (written J d payload trigger reason createdAtUtc) (str "HEAD")
        (headContent (payloadId J payload)))) := by
  rw [putDocument] at hdoc
  simp only [put, htext, hdoc, not_true_eq_false, if_false, if_neg hhead, if_neg hmem, putHead,
    if_pos hhead, hdisk.1, hdisk.2, if_pos]
  rfl

theorem put_succeeds (hdisk : e.docWrite = none ∧ e.headWrite = none)
    (htext : (payloadToJson payload).isText = true)
    (hparent : ∀ id, headLocked d = some id → validUtf8 id = true)
    (hreason : validUtf8 reason.verb = true ∧ validUtf8 reason.subject = true) :
    ∃ d', put J e d payload trigger reason createdAtUtc = .ok
      (.ok (payloadId J payload), d') := by
  by_cases hhead : headLocked d = some (payloadId J payload)
  · exact ⟨_, put_dedupe htext hhead⟩
  · by_cases hmem : snapshotFileName (payloadId J payload) ∈ d
    · exact ⟨_, put_found hdisk.2 htext hhead hmem⟩
    · exact ⟨_, put_new hdisk htext hhead hmem
        (snapshotDocument_text (digest_text _) hparent htext hreason)⟩

theorem put_alone (hd : d = perform J ∅ (.quiet, .put payload trigger reason createdAtUtc))
    (htext : (payloadToJson payload).isText = true)
    (hreason : validUtf8 reason.verb = true ∧ validUtf8 reason.subject = true)
    (hfits : FitsGate J ∅ payload trigger reason createdAtUtc) :
    headLocked d = some (payloadId J payload) ∧
      stored J d (payloadId J payload) =
        some (putSnapshot J ∅ payload trigger reason createdAtUtc) := by
  have hput : put J .quiet ∅ payload trigger reason createdAtUtc = _ :=
    put_new ⟨rfl, rfl⟩ htext (by simp [headLocked]) (by simp)
      (snapshotDocument_text (digest_text _) (by simp [headLocked]) htext hreason)
  obtain ⟨_, hhead, _, _, hnew⟩ := put_ok hput
  rw [hd, perform_put_ok hput]
  exact ⟨hhead, by rw [hnew (by simp) (by simp [headLocked]), if_pos hfits]⟩

theorem document_length (id : Str) (parent : Option Str) (payload : SnapshotPayload)
    (trigger : SnapshotTrigger) (reason : SnapshotReason) :
    (Json.reference.dumpIndented (snapshotDocument id parent payload trigger reason 0)).length ≤
      500 + 6 * id.length + 6 * (parent.getD []).length + 6 * reason.verb.length +
        6 * reason.subject.length +
          (Json.print Json.indented 1 (payloadToJson payload)).length := by
  have hid := Json.quote_length id
  have hparent := Json.quote_length (parent.getD [])
  have hverb := Json.quote_length reason.verb
  have hsubject := Json.quote_length reason.subject
  have hwords :
      ∀ word ∈ [str "createdAtUtc", str "formatVersion", str "id", str "parent", str "payload",
      str "reason", str "subject", str "verb", str "trigger"], (Json.quote word).length ≤ 15 := by
        decide
  have htrigger : (Json.quote trigger.toStr).length ≤ 15 := by cases trigger <;> decide
  have hnumbers : (Json.printInteger (Int64.toInt 0)).length ≤ 1 ∧
      (Json.printInteger kSnapshotFormatVersion.toInt).length ≤ 1 := by decide
  have hline : ∀ depth, (Json.indented.line depth).length = 2 * depth + 1 := fun depth => by
    simp [Json.indented]
  have hafter : Json.indented.afterKey.length = 1 := rfl
  have hnull : (str "null").length = 4 := rfl
  change (Json.print Json.indented 0 _).length ≤ _
  simp only [List.forall_mem_cons] at hwords
  cases parent with
  | none =>
    simp only [snapshotDocument, Json.print, Json.printMembers, List.length_append,
      List.length_cons,
      List.length_nil, hline, hafter, Nat.zero_add]
    omega
  | some parent =>
    rw [Option.getD_some] at hparent ⊢
    simp only [snapshotDocument, Json.print, Json.printMembers, List.length_append,
      List.length_cons,
      List.length_nil, hline, hafter, Nat.zero_add]
    omega

theorem fits_of_small {d : Directory} {payload : SnapshotPayload} {trigger : SnapshotTrigger}
    {reason : SnapshotReason} (hhead : ((headLocked d).getD []).length ≤ 64)
    (hreason : reason.verb.length ≤ 64 ∧ reason.subject.length ≤ 64)
    (hpayload : (Json.print Json.indented 1 (payloadToJson payload)).length ≤ 10000) :
    FitsGate Json.reference d payload trigger reason 0 := by
  have hid : (payloadId Json.reference payload).length = 64 := sha256Hex_length _
  have hlength :=
    document_length (payloadId Json.reference payload) (headLocked d) payload trigger reason
  have hmax : kJsonMaxBytes = 1048576 := rfl
  refine hlength.trans ?_
  rw [hmax]
  omega

theorem head_length {payload : SnapshotPayload} (h : headLocked d = some (payloadId J payload)) :
    ((headLocked d).getD []).length ≤ 64 := by
  rw [h]
  exact (sha256Hex_length _).le

def emptyPayload : SnapshotPayload := ⟨[], ∅⟩

def modprobePayload : SnapshotPayload :=
  ⟨[], Std.ExtTreeMap.ofList [(str "devmgr-a.conf", [])] compare⟩

def noReason : SnapshotReason := ⟨[], []⟩

theorem single_toList (name content : Str) :
    (Std.ExtTreeMap.ofList [(name, content)] compare : StringMap Str).toList = [(name, content)] :=
      rfl

theorem single_text {name content : Str} (hname : ∀ c ∈ name, c < 0x80)
    (hcontent : ∀ c ∈ content, c < 0x80) :
    (payloadToJson ⟨[], Std.ExtTreeMap.ofList [(name, content)] compare⟩).isText = true := by
  have hkeys : validUtf8 (str "entries") = true ∧ validUtf8 (str "modprobe_files") = true := by
    decide
  simp only [payloadToJson, Json.ofStringMap, single_toList, List.map_nil,
    List.map_cons, Json.isText,
    Json.isTextMembers, Json.isTextElements, hkeys, validUtf8_ascii hname, validUtf8_ascii hcontent,
    Bool.and_self]

theorem emptyPayload_text : (payloadToJson emptyPayload).isText = true := by decide

theorem modprobePayload_text : (payloadToJson modprobePayload).isText = true :=
  single_text (ascii_of_all (by decide)) nofun

theorem emptyPayload_id : payloadId Json.reference emptyPayload =
    str "86a3af784fac3f10161849dcedbd4f9b2cde038f856d41a23a56d3056f4912db" := by
  rw [payloadId, sha256Hex_eq_natDigest]
  decide +kernel

theorem modprobePayload_id : payloadId Json.reference modprobePayload =
    str "193dada869e2f8f2103b7b17460cc5f3ee74d10225c29342c6e09eb87fee528e" := by
  rw [payloadId, sha256Hex_eq_natDigest]
  decide +kernel

def putEmpty : Env × Call := (.quiet, .put emptyPayload .manual noReason 0)

def firstStore : Directory := perform Json.reference ∅ putEmpty

theorem first_put : put Json.reference .quiet ∅ emptyPayload .manual noReason 0 =
    .ok (.ok (payloadId Json.reference emptyPayload), firstStore) := by
  have hput : put Json.reference .quiet ∅ emptyPayload .manual noReason 0 = _ :=
    put_new ⟨rfl, rfl⟩ emptyPayload_text (by simp [headLocked]) (by simp)
      (snapshotDocument_text (digest_text _) (by simp [headLocked]) emptyPayload_text (by decide))
  rw [firstStore, putEmpty, perform_put_ok hput]
  exact hput

theorem first_put_fits : FitsGate Json.reference ∅ emptyPayload .manual noReason 0 :=
  fits_of_small (by simp [headLocked]) (by decide) (by decide)

def putModprobe : Env × Call := (.quiet, .put modprobePayload .manual noReason 0)

theorem payloadIds_ne :
    payloadId Json.reference modprobePayload ≠ payloadId Json.reference emptyPayload := by
  rw [emptyPayload_id, modprobePayload_id]
  decide

theorem firstStore_history :
    headLocked firstStore = some (payloadId Json.reference emptyPayload) ∧
    stored Json.reference firstStore (payloadId Json.reference emptyPayload) =
      some (putSnapshot Json.reference ∅ emptyPayload .manual noReason 0) ∧
    ∀ id, snapshotFileName id ∈ firstStore → id = payloadId Json.reference emptyPayload := by
  obtain ⟨_, hhead, _, _, hnew⟩ := put_ok first_put
  refine ⟨hhead, ?_, fun id hid => ?_⟩
  · rw [hnew (by simp) (by simp [headLocked]), if_pos first_put_fits]
  · rcases (put_effect first_put).present id hid with hmem | ⟨heq, _⟩
    · exact absurd hmem (by simp)
    · exact heq

def secondStore : Directory := perform Json.reference firstStore putModprobe

theorem second_put_fits :
    FitsGate Json.reference firstStore modprobePayload .manual noReason 0 :=
  fits_of_small (head_length firstStore_history.1) (by decide) (by decide)

theorem second_put_new :
    headLocked firstStore ≠ some (payloadId Json.reference modprobePayload) ∧
    snapshotFileName (payloadId Json.reference modprobePayload) ∉ firstStore := by
  obtain ⟨hhead, _, honly⟩ := firstStore_history
  refine ⟨fun h => payloadIds_ne (Option.some.inj (h.symm.trans hhead)), fun h => ?_⟩
  exact payloadIds_ne (honly _ h)

theorem parent_text {p : SnapshotPayload} {d : Directory}
    (h : headLocked d = some (payloadId Json.reference p)) :
    ∀ id, headLocked d = some id → validUtf8 id = true := by
  intro id hid
  rw [h] at hid
  exact Option.some.inj hid ▸ digest_text _

theorem second_put : put Json.reference .quiet firstStore modprobePayload .manual noReason 0 =
    .ok (.ok (payloadId Json.reference modprobePayload), secondStore) := by
  have hput : put Json.reference .quiet firstStore modprobePayload .manual noReason 0 = _ :=
    put_new ⟨rfl, rfl⟩ modprobePayload_text second_put_new.1 second_put_new.2
      (snapshotDocument_text (digest_text _) (parent_text firstStore_history.1) modprobePayload_text
        (by decide))
  rw [secondStore, putModprobe, perform_put_ok hput]
  exact hput

def danglingHead : Directory :=
  Std.ExtTreeMap.ofList
    [(str "HEAD",
    headContent (str "86a3af784fac3f10161849dcedbd4f9b2cde038f856d41a23a56d3056f4912db"))]
    compare

theorem danglingHead_head :
    headLocked danglingHead = some (payloadId Json.reference emptyPayload) := by
  rw [emptyPayload_id]
  decide

theorem put_read_iff (h : put J e d payload trigger reason createdAtUtc = .ok (.ok id, d')) :
    (∃ snap, (read J e' d' id).1 = .ok snap ∧ snap.payload = payload) ↔
      (snapshotFileName id ∈ d → ∃ snap, stored J d id = some snap ∧
        snap.payload = payload) ∧
      (snapshotFileName id ∉ d →
        headLocked d ≠ some id ∧ FitsGate J d payload trigger reason createdAtUtc) := by
  obtain ⟨_, _, hfound, hdangling, hnew⟩ := put_ok h
  simp only [read_iff]
  by_cases hmem : snapshotFileName id ∈ d
  · simp [hfound hmem, hmem]
  · by_cases hhead : headLocked d = some id
    · simp [hdangling hmem hhead, hmem, hhead]
    · by_cases hfits : FitsGate J d payload trigger reason createdAtUtc
      · simp [hnew hmem hhead, hmem, hhead, hfits, putSnapshot, newSnapshot]
      · simp [hnew hmem hhead, hmem, hhead, hfits]

theorem put_read_second : ∃ snap,
    (read Json.reference .quiet secondStore (payloadId Json.reference modprobePayload)).1 =
      .ok snap ∧ snap.payload = modprobePayload :=
  (put_read_iff second_put).mpr
    ⟨fun hmem => absurd hmem second_put_new.2, fun _ => ⟨second_put_new.1, second_put_fits⟩⟩

theorem put_read_danglingHead :
    put Json.reference .quiet danglingHead emptyPayload .manual noReason 0 =
        .ok (.ok (payloadId Json.reference emptyPayload), danglingHead) ∧
      ¬ ∃ snap,
      (read Json.reference .quiet danglingHead (payloadId Json.reference emptyPayload)).1 =
        .ok snap ∧ snap.payload = emptyPayload := by
  refine ⟨put_dedupe emptyPayload_text danglingHead_head, ?_⟩
  rintro ⟨snap, hread, _⟩
  have hmem := mem_of_stored (read_iff.mp hread)
  rw [emptyPayload_id] at hmem
  revert hmem
  decide

end DevMgr.Daemon
