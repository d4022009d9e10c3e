import DevMgr.Daemon.SnapshotOrder

/-!
# What the calls do to the history

The history of a directory is its `HEAD` and its stored snapshots. `put` may move
`HEAD` to the hash of its payload, adds at most the snapshot it was given and
prunes only automatic snapshots other than `HEAD`; `remove` takes away at most
the snapshot it names and moves `HEAD` to its parent first. All of this holds
whichever of the writes fail.
-/

open DevMgr.Core

namespace DevMgr.Daemon
open Bytes

variable {J : Json.Codec} {e : Env} {d d' : Directory}

theorem digest_not_mem {id data : Str} {c : UInt8} (hid : sha256Hex data = id)
    (hc : c ∉ Sha256.kHex) :
    c ∉ id := hid ▸ sha256Hex_not_mem hc

theorem idFromFileName_digest {id : Str} (hid : (46 : UInt8) ∉ id) :
    idFromFileName (snapshotFileName id) = id := by
  have h := before_append (p := str "json") [] hid
  rwa [List.append_nil] at h

theorem digest_token (data : Str) :
    firstToken (headContent (sha256Hex data)) = sha256Hex data := by
  have hspaces : (Sha256.kHex.all fun c => !isSpace c) = true := by decide
  have hspace : ∀ c ∈ Sha256.kHex, isSpace c = false := fun c hc => by
    simpa using List.all_eq_true.mp hspaces c hc
  exact firstToken_line fun c hc => hspace c (sha256Hex_mem hc)

theorem digest_ne_nil (data : Str) : sha256Hex data ≠ [] := by
  intro h
  have hlen := sha256Hex_length data
  rw [h] at hlen
  exact absurd hlen (by decide)

theorem digest_text (data : Str) : validUtf8 (sha256Hex data) = true := by
  have hascii : ∀ c ∈ Sha256.kHex, c < 0x80 := ascii_of_all (by decide)
  exact validUtf8_ascii fun c hc => hascii c (sha256Hex_mem hc)

def newSnapshot (id : Str) (parent : Option Str) (payload : SnapshotPayload)
    (trigger : SnapshotTrigger) (reason : SnapshotReason) (createdAtUtc : Int64) : Snapshot where
  info := {
    id, parent, createdAtUtc, trigger, reason
    health := .ok
    entryCount := payload.entries.length
    modprobeFileCount := payload.modprobeFiles.size }
  payload := payload

section Document
variable {id : Str} {parent : Option Str} {payload : SnapshotPayload} {trigger : SnapshotTrigger}
  {reason : SnapshotReason} {createdAtUtc : Int64}

theorem snapshotDocument_canonical :
    (snapshotDocument id parent payload trigger reason createdAtUtc).Canonical := by
  refine ⟨keySorted_of_keys (by simp only [List.map]; decide), int64_canonical _,
    ⟨by decide, by decide⟩, trivial,
    ?_, payloadToJson_canonical payload,
    ⟨keySorted_of_keys (by simp only [List.map]; decide), trivial, trivial, trivial⟩,
    trivial, trivial⟩
  cases parent <;> trivial

theorem snapshotDocument_text (hid : validUtf8 id = true)
    (hparent : ∀ p, parent = some p → validUtf8 p = true)
    (hpayload : (payloadToJson payload).isText = true)
    (hreason : validUtf8 reason.verb = true ∧ validUtf8 reason.subject = true) :
    (snapshotDocument id parent payload trigger reason createdAtUtc).isText = true := by
  have hkeys : validUtf8 (str "createdAtUtc") && validUtf8 (str "formatVersion") &&
      validUtf8 (str "id") && validUtf8 (str "parent") && validUtf8 (str "payload") &&
      validUtf8 (str "reason") && validUtf8 (str "subject") && validUtf8 (str "trigger") &&
      validUtf8 (str "verb") := by decide
  have htrigger : validUtf8 trigger.toStr = true := by cases trigger <;> decide
  simp only [Bool.and_eq_true] at hkeys
  cases parent with
  | none => simp [snapshotDocument, Json.isText, Json.isTextMembers, hkeys, hid, hpayload, hreason,
      htrigger]
  | some p => simp [snapshotDocument, Json.isText, Json.isTextMembers, hkeys,
      hid, hpayload, hreason,
      htrigger, hparent p rfl]

theorem bestEffortMeta_document (fallbackId : Str) :
    bestEffortMeta
      (some (snapshotDocument id parent payload trigger reason createdAtUtc)) fallbackId =
      { id, parent, createdAtUtc, trigger, reason
        health := .ok, entryCount := 0, modprobeFileCount := 0 } := by
  have htime : Int64.ofInt createdAtUtc.toInt = createdAtUtc := Int64.ofInt_toInt _
  have htrigger := snapshotTriggerFrom_toStr trigger
  have hparent : stringField (some (snapshotDocument id parent payload trigger reason createdAtUtc))
      (str "parent") = parent := by
    cases parent <;> rfl
  have hmeta : bestEffortMeta
      (some (snapshotDocument id parent payload trigger reason createdAtUtc))
      fallbackId = SnapshotMeta.mk id (stringField
        (some (snapshotDocument id parent payload trigger reason createdAtUtc)) (str "parent"))
        (Int64.ofInt createdAtUtc.toInt) ((snapshotTriggerFrom trigger.toStr).getD .auto) reason
        .ok 0 0 := rfl
  rw [hmeta, hparent, htime, htrigger]
  rfl

theorem inspect_document (hid : payloadId J payload = id) :
    inspect J id (some (snapshotDocument id parent payload trigger reason createdAtUtc)) =
      .healthy (newSnapshot id parent payload trigger reason createdAtUtc) := by
  have hversion : ((some (snapshotDocument id parent payload trigger reason createdAtUtc)).bind
      fun j => j.member? (str "formatVersion")) = some (.int kSnapshotFormatVersion.toInt) := rfl
  have hpayload : (((some (snapshotDocument id parent payload trigger reason createdAtUtc)).getD
      .null).atKey (str "payload") >>= payloadFromJson) = .ok payload :=
        payloadFromJson_toJson payload
  have hold : ¬ kSnapshotFormatVersion < Int32.ofInt kSnapshotFormatVersion.toInt := by decide
  simp only [inspect, hversion, hpayload, if_neg hold, bestEffortMeta_document, hid]
  simp [newSnapshot]

theorem stored_document
    (htext : (snapshotDocument id parent payload trigger reason createdAtUtc).isText = true)
    (hid : payloadId J payload = id)
    (hfile : d[snapshotFileName id]? =
      some (J.dumpIndented (snapshotDocument id parent payload trigger reason createdAtUtc))) :
    stored J d id =
      if (J.dumpIndented
        (snapshotDocument id parent payload trigger reason createdAtUtc)).length ≤
          kJsonMaxBytes
      then some (newSnapshot id parent payload trigger reason createdAtUtc) else none := by
  have hparse := J.parse_dumpIndented _ htext snapshotDocument_canonical
  rw [stored, parseFile, hfile]
  split_ifs with hfits
  · simp only [if_neg (Nat.not_lt.mpr hfits), hparse, inspect_document hid]
  · simp only [if_pos (Nat.not_le.mp hfits)]
    rfl

end Document

theorem headLocked_headContent {d : Directory} {p : SnapshotPayload}
    (h : d[str "HEAD"]? = some (headContent (payloadId J p))) :
    headLocked d = some (payloadId J p) := by
  rw [headLocked, h]
  simp only [payloadId, digest_token, if_neg (digest_ne_nil (canonicalPayload J p))]

theorem headLocked_renamed (p : SnapshotPayload) (d : Directory) :
    headLocked (renamed d (str "HEAD") (headContent (payloadId J p))) = some (payloadId J p) :=
  headLocked_headContent (renamed_self _ _)

theorem putHead_cases {headId : Option Str} (p : SnapshotPayload)
    (hne : headId ≠ some (payloadId J p)) (isNew : Bool) (d : Directory) :
    ∃ d', OnlyAside d d' ∧
      headLocked d' = (if lands e.headWrite then some (payloadId J p) else headLocked d) ∧
      ((lands e.headWrite = true ∧ putHead J e headId (payloadId J p) isNew d =
          (.ok (payloadId J p), if isNew then pruneLocked J e d' else d')) ∨
        ∃ error, putHead J e headId (payloadId J p) isNew d = (.error error, d')) := by
  rw [putHead, if_pos hne]
  rcases atomicWriteFile_cases (e := e) e.headWrite d (str "HEAD") (headContent (payloadId J p))
    with ⟨hlands, r, hr, _⟩ | ⟨hlands, error, d', herror, hother⟩
  · refine ⟨renamed d (str "HEAD") (headContent (payloadId J p)), onlyAside_head _, ?_, ?_⟩
    · rw [hlands, headLocked_renamed]
      rfl
    · rw [hr]
      cases r with
      | ok u => exact .inl ⟨hlands, rfl⟩
      | error error => exact .inr ⟨error, rfl⟩
  · refine ⟨d', onlyAside_tmp hother, ?_, .inr ⟨error, by rw [herror]⟩⟩
    rw [hlands, headLocked_congr (hother _ (head_ne_tmp _))]
    rfl

section Put
variable {payload : SnapshotPayload} {trigger : SnapshotTrigger} {reason : SnapshotReason}
  {createdAtUtc : Int64} {result : Result Str}

def putDocument (J : Json.Codec) (d : Directory) (payload : SnapshotPayload)
    (trigger : SnapshotTrigger) (reason : SnapshotReason) (createdAtUtc : Int64) : Json :=
  snapshotDocument (payloadId J payload) (headLocked d) payload trigger reason createdAtUtc

/-- The document stays below the size gate of the reader. -/
def FitsGate (J : Json.Codec) (d : Directory) (payload : SnapshotPayload)
    (trigger : SnapshotTrigger) (reason : SnapshotReason) (createdAtUtc : Int64) : Prop :=
  (J.dumpIndented (putDocument J d payload trigger reason createdAtUtc)).length ≤ kJsonMaxBytes

instance : Decidable (FitsGate J d payload trigger reason createdAtUtc) :=
  inferInstanceAs (Decidable (_ ≤ _))

def putSnapshot (J : Json.Codec) (d : Directory) (payload : SnapshotPayload)
    (trigger : SnapshotTrigger) (reason : SnapshotReason) (createdAtUtc : Int64) : Snapshot :=
  newSnapshot (payloadId J payload) (headLocked d) payload trigger reason createdAtUtc

@[simp] theorem putSnapshot_parent :
    (putSnapshot J d payload trigger reason createdAtUtc).info.parent = headLocked d := rfl

@[simp] theorem putSnapshot_trigger :
    (putSnapshot J d payload trigger reason createdAtUtc).info.trigger = trigger := rfl

def written (J : Json.Codec) (d : Directory) (payload : SnapshotPayload)
    (trigger : SnapshotTrigger) (reason : SnapshotReason) (createdAtUtc : Int64) : Directory :=
  renamed d (snapshotFileName (payloadId J payload))
    (J.dumpIndented (putDocument J d payload trigger reason createdAtUtc))

theorem put_cases (h : put J e d payload trigger reason createdAtUtc = .ok (result, d')) :
    (headLocked d = some (payloadId J payload) ∧
      result = .ok (payloadId J payload) ∧ d' = d) ∨
    (headLocked d ≠ some (payloadId J payload) ∧
      snapshotFileName (payloadId J payload) ∈ d ∧
      putHead J e (headLocked d) (payloadId J payload) false d = (result, d')) ∨
    (headLocked d ≠ some (payloadId J payload) ∧
      snapshotFileName (payloadId J payload) ∉ d ∧
      (putDocument J d payload trigger reason createdAtUtc).isText = true ∧
      ((∃ error, result = .error error ∧ headLocked d' = headLocked d ∧ OnlyAside d d') ∨
        (∃ error, result = .error error ∧ lands e.docWrite = true ∧ e.docWrite ≠ none ∧
          d' = written J d payload trigger reason createdAtUtc) ∨
        (e.docWrite = none ∧ putHead J e (headLocked d) (payloadId J payload) true
          (written J d payload trigger reason createdAtUtc) = (result, d')))) := by
  unfold put at h
  dsimp only at h
  split_ifs at h with htext hhead hmem hdoc
  · obtain ⟨rfl, rfl⟩ := Prod.mk.inj (Except.ok.inj h)
    exact .inl ⟨hhead, rfl, rfl⟩
  · exact .inr (.inl ⟨hhead, hmem, Except.ok.inj h⟩)
  · refine .inr (.inr ⟨hhead, hmem, hdoc, ?_⟩)
    rcases atomicWriteFile_cases (e := e) e.docWrite d (snapshotFileName (payloadId J payload))
      (J.dumpIndented (putDocument J d payload trigger reason createdAtUtc))
      with ⟨hlands, r, hr, hnone⟩ | ⟨_, error, d'', herror, hother⟩
    · rw [putDocument] at hr
      rw [hr] at h
      cases r with
      | ok u => exact .inr (.inr ⟨hnone.mp rfl, Except.ok.inj h⟩)
      | error error =>
        obtain ⟨rfl, rfl⟩ := Prod.mk.inj (Except.ok.inj h)
        refine .inr (.inl ⟨error, rfl, hlands, fun hdoc => ?_, rfl⟩)
        rw [hdoc] at hr
        exact absurd (congrArg Prod.fst hr) (by simp [atomicWriteFile])
    · rw [putDocument] at herror
      rw [herror] at h
      obtain ⟨rfl, rfl⟩ := Prod.mk.inj (Except.ok.inj h)
      exact .inl ⟨error, rfl, headLocked_congr (hother _ (head_ne_tmp _)), onlyAside_tmp hother⟩

structure HeadEffect (J : Json.Codec) (d d' : Directory) (id : Str) (result : Result Str) :
    Prop where
  head : headLocked d' = headLocked d ∨ headLocked d' = some id
  others : ∀ x, stored J d' x = stored J d x ∨ snapshotFileName x ∉ d' ∧
      headLocked d' ≠ some x ∧
    ∃ snap, stored J d x = some snap ∧ snap.info.trigger = .auto
  self : stored J d' id = stored J d id
  present : ∀ x, snapshotFileName x ∈ d' → snapshotFileName x ∈ d
  ok : ∀ x, result = .ok x → x = id ∧ headLocked d' = some id

theorem headEffect_same {id : Str} (hfiles : ∀ x, d'[snapshotFileName x]? = d[snapshotFileName x]?)
    (hhead : headLocked d' = headLocked d ∨ headLocked d' = some id)
    (hok : ∀ x, result = .ok x → x = id ∧ headLocked d' = some id) :
    HeadEffect J d d' id result :=
  ⟨hhead, fun x => .inl (stored_congr (hfiles x)), stored_congr (hfiles id),
    fun x => (mem_congr (hfiles x)).mp, hok⟩

theorem putHead_effect {headId : Option Str} {isNew : Bool}
    (hne : headId ≠ some (payloadId J payload))
    (h : putHead J e headId (payloadId J payload) isNew d = (result, d')) :
    HeadEffect J d d' (payloadId J payload) result := by
  obtain ⟨d2, haside, hmoved, ⟨hlands, hput⟩ | ⟨error, hput⟩⟩ :=
    putHead_cases (e := e) payload hne isNew d
  · have hfiles := haside.file
    have hhead : headLocked d2 = some (payloadId J payload) := by rw [hmoved, if_pos hlands]
    rw [hput] at h
    obtain ⟨rfl, rfl⟩ := Prod.mk.inj h
    cases isNew with
    | false => exact headEffect_same hfiles (.inr hhead) fun x hx =>
        ⟨(Except.ok.inj hx).symm, hhead⟩
    | true =>
      obtain ⟨hphead, hpresent, hstored⟩ := pruneLocked_effect (J := J) e d2
      have hmoved : headLocked (pruneLocked J e d2) = some (payloadId J payload) :=
        hphead.trans hhead
      refine ⟨.inr hmoved, fun x => ?_, ?_, fun x hx => (mem_congr (hfiles x)).mp (hpresent x hx),
        fun x hx => ⟨(Except.ok.inj hx).symm, hmoved⟩⟩
      · rw [← stored_congr (hfiles x)]
        rcases hstored x with hx | ⟨hx, hnot, hauto⟩
        · exact .inl hx
        · exact .inr ⟨hx, by rwa [← hphead] at hnot, hauto⟩
      · rw [← stored_congr (hfiles (payloadId J payload))]
        rcases hstored (payloadId J payload) with hx | ⟨_, hnot, _⟩
        · exact hx
        · exact absurd hhead hnot
  · rw [hput] at h
    obtain ⟨rfl, rfl⟩ := Prod.mk.inj h
    refine headEffect_same haside.file ?_ fun x hx => absurd hx (by simp)
    rw [hmoved]
    split_ifs
    · exact .inr rfl
    · exact .inl rfl

theorem written_effect
    (htext : (putDocument J d payload trigger reason createdAtUtc).isText = true) :
    headLocked (written J d payload trigger reason createdAtUtc) = headLocked d ∧
    (∀ x, x ≠ payloadId J payload →
      (written J d payload trigger reason createdAtUtc)[snapshotFileName x]? =
        d[snapshotFileName x]?) ∧
    stored J (written J d payload trigger reason createdAtUtc) (payloadId J payload) =
      if FitsGate J d payload trigger reason createdAtUtc
      then some (putSnapshot J d payload trigger reason createdAtUtc) else none := by
  refine ⟨headLocked_congr (renamed_other (snapshotFileName_ne_head _).symm (head_ne_tmp _) _),
    fun x hx => renamed_other (snapshotFileName_inj.not.mpr hx) (snapshotFileName_ne_tmp x _) _,
      ?_⟩
  exact stored_document htext rfl (renamed_self _ _)

/-- What a put changes: `HEAD` may move to the id of the payload, a missing file may appear with the
new snapshot in it, and pruning may take automatic snapshots away that `HEAD` does not name. -/
structure PutEffect (J : Json.Codec) (d d' : Directory) (payload : SnapshotPayload)
    (trigger : SnapshotTrigger) (reason : SnapshotReason) (createdAtUtc : Int64) : Prop where
  head : headLocked d' = headLocked d ∨ headLocked d' = some (payloadId J payload)
  other : ∀ x, x ≠ payloadId J payload → stored J d' x = stored J d x ∨
    snapshotFileName x ∉ d' ∧ headLocked d' ≠ some x ∧
      ∃ snap, stored J d x = some snap ∧ snap.info.trigger = .auto
  existing : snapshotFileName (payloadId J payload) ∈ d →
    stored J d' (payloadId J payload) = stored J d (payloadId J payload)
  fresh : snapshotFileName (payloadId J payload) ∉ d →
      stored J d' (payloadId J payload) = none ∨
    headLocked d ≠ some (payloadId J payload) ∧ stored J d' (payloadId J payload) =
      some (putSnapshot J d payload trigger reason createdAtUtc)
  present : ∀ x, snapshotFileName x ∈ d' → snapshotFileName x ∈ d ∨
    x = payloadId J payload ∧ (FitsGate J d payload trigger reason createdAtUtc →
      stored J d' x = some (putSnapshot J d payload trigger reason createdAtUtc))
  moved : headLocked d' = some (payloadId J payload) →
      headLocked d = some (payloadId J payload) ∨
    snapshotFileName (payloadId J payload) ∈ d ∨
      (FitsGate J d payload trigger reason createdAtUtc → stored J d' (payloadId J payload) =
        some (putSnapshot J d payload trigger reason createdAtUtc))

theorem putEffect_kept (h : Kept J d d') :
    PutEffect J d d' payload trigger reason createdAtUtc where
  head := .inl h.head
  other x _ := .inl (h.stored x)
  existing _ := h.stored _
  fresh hmem := .inl (by rw [h.stored, stored_missing (Std.ExtTreeMap.getElem?_eq_none hmem)])
  present x hx := .inl (h.present x hx)
  moved hx := .inl (h.head.symm.trans hx)

theorem putEffect_existing (hmem : snapshotFileName (payloadId J payload) ∈ d)
    (h : HeadEffect J d d' (payloadId J payload) result) :
    PutEffect J d d' payload trigger reason createdAtUtc where
  head := h.head
  other x _ := h.others x
  existing _ := h.self
  fresh hnot := absurd hmem hnot
  present x hx := .inl (h.present x hx)
  moved _ := .inr (.inl hmem)

theorem putEffect_written (hid : headLocked d ≠ some (payloadId J payload))
    (hmem : snapshotFileName (payloadId J payload) ∉ d)
    (htext : (putDocument J d payload trigger reason createdAtUtc).isText = true)
    (h : HeadEffect J (written J d payload trigger reason createdAtUtc) d' (payloadId J payload)
      result) :
    PutEffect J d d' payload trigger reason createdAtUtc := by
  obtain ⟨hhead, hfiles, hnew⟩ := written_effect htext
  have hfits : FitsGate J d payload trigger reason createdAtUtc →
      stored J d' (payloadId J payload) =
      some (putSnapshot J d payload trigger reason createdAtUtc) := by
    intro hfits
    rw [h.self, hnew, if_pos hfits]
  refine ⟨by rw [← hhead]; exact h.head, fun x hx => ?_, fun h => absurd h hmem, fun _ => ?_,
    fun x hx => ?_, fun _ => .inr (.inr hfits)⟩
  · rw [← stored_congr (hfiles x hx)]
    exact h.others x
  · rw [h.self, hnew]
    split_ifs
    · exact .inr ⟨hid, rfl⟩
    · exact .inl rfl
  · by_cases hid : x = payloadId J payload
    · subst x
      exact .inr ⟨rfl, hfits⟩
    · exact .inl ((mem_congr (hfiles x hid)).mp (h.present x hx))

theorem put_effect (h : put J e d payload trigger reason createdAtUtc = .ok (result, d')) :
    PutEffect J d d' payload trigger reason createdAtUtc := by
  rcases put_cases h with ⟨_, _, rfl⟩ | ⟨hhead, hmem, hput⟩ |
    ⟨hhead, hmem, htext,
      ⟨error, _, hsame, haside⟩ | ⟨error, rfl, _, _, rfl⟩ | ⟨_, hput⟩⟩
  · exact putEffect_kept (.refl _)
  · exact putEffect_existing hmem (putHead_effect hhead hput)
  · exact putEffect_kept (.of_eq hsame haside.file)
  · have hsame : HeadEffect J (written J d payload trigger reason createdAtUtc)
        (written J d payload trigger reason createdAtUtc) (payloadId J payload) (.error error) :=
      headEffect_same (fun _ => rfl) (.inl rfl) fun x hx => absurd hx (by simp)
    exact putEffect_written hhead hmem htext hsame
  · exact putEffect_written hhead hmem htext (putHead_effect hhead hput)

theorem put_ok {id : Str} (h : put J e d payload trigger reason createdAtUtc = .ok (.ok id, d')) :
    id = payloadId J payload ∧ headLocked d' = some id ∧
    (snapshotFileName id ∈ d → stored J d' id = stored J d id) ∧
    (snapshotFileName id ∉ d → headLocked d = some id → stored J d' id = none) ∧
    (snapshotFileName id ∉ d → headLocked d ≠ some id → stored J d' id =
      if FitsGate J d payload trigger reason createdAtUtc
      then some (putSnapshot J d payload trigger reason createdAtUtc) else none) := by
  rcases put_cases h with ⟨hhead, hid, rfl⟩ | ⟨hhead, hmem, hput⟩ |
    ⟨hhead, hmem, htext, ⟨error, herror, _⟩ | ⟨error, herror, _⟩ | ⟨_, hput⟩⟩
  · obtain rfl := Except.ok.inj hid
    exact ⟨rfl, hhead, fun _ => rfl,
      fun hmem _ => stored_missing (Std.ExtTreeMap.getElem?_eq_none hmem),
      fun _ hne => absurd hhead hne⟩
  · have heffect := putHead_effect hhead hput
    obtain ⟨rfl, hmoved⟩ := heffect.ok id rfl
    exact ⟨rfl, hmoved, fun _ => heffect.self, fun hnot => absurd hmem hnot,
      fun hnot => absurd hmem hnot⟩
  · exact absurd herror (by simp)
  · exact absurd herror (by simp)
  · have heffect := putHead_effect hhead hput
    obtain ⟨rfl, hmoved⟩ := heffect.ok id rfl
    refine ⟨rfl, hmoved, fun h => absurd h hmem, fun _ h => absurd h hhead, fun _ _ => ?_⟩
    rw [heffect.self, (written_effect htext).2.2]

end Put

def parentHead (snap : Snapshot) : Option Str :=
  let next := snap.info.parent.getD []
  let token := firstToken (if next = [] then [] else headContent next)
  if token = [] then none else some token

theorem parentHead_none {snap : Snapshot} (h : snap.info.parent = none) :
    parentHead snap = none := by
  rw [parentHead, h]
  rfl

theorem parentHead_payloadId {snap : Snapshot} {p : SnapshotPayload}
    (h : snap.info.parent = some (payloadId J p)) : parentHead snap = some (payloadId J p) := by
  have hne : payloadId J p ≠ [] := digest_ne_nil _
  have htoken : firstToken (headContent (payloadId J p)) = payloadId J p := digest_token _
  simp only [parentHead, h, Option.getD_some, if_neg hne, htoken]

theorem parentHead_stored {snap parent : Snapshot} {id : Str} (h : snap.info.parent = some id)
    (hparent : stored J d id = some parent) : parentHead snap = some id := by
  obtain rfl : payloadId J parent.payload = id := stored_hash hparent
  exact parentHead_payloadId h

structure RemoveEffect (J : Json.Codec) (d d' : Directory) (id : Str) (result : Result Unit) :
    Prop where
  other : ∀ x, x ≠ id → stored J d' x = stored J d x
  self : stored J d' id = stored J d id ∨ result = .ok () ∧ stored J d' id = none
  head : headLocked d' = headLocked d ∨ headLocked d = some id ∧
    ∃ snap, stored J d id = some snap ∧ headLocked d' = parentHead snap
  moved : result = .ok () → headLocked d = some id →
    ∃ snap, stored J d id = some snap ∧ headLocked d' = parentHead snap
  gone : result = .ok () → snapshotFileName id ∉ d'
  present : ∀ x, snapshotFileName x ∈ d' → snapshotFileName x ∈ d

theorem unlink_cases (name : Str) :
    (∃ message, e.unlinkError name = some message ∧ unlink e d name = (some message, d)) ∨
      e.unlinkError name = none ∧ unlink e d name = (none, d.erase name) := by
  unfold unlink
  split
  · rename_i message hsome
    exact .inl ⟨message, hsome, rfl⟩
  · rename_i hnone
    exact .inr ⟨hnone, rfl⟩

theorem headLocked_removed {snap : Snapshot} (d : Directory) :
    headLocked (renamed d (str "HEAD")
      (if snap.info.parent.getD [] = [] then [] else headContent (snap.info.parent.getD []))) =
      parentHead snap := by
  rw [headLocked, renamed_self]
  rfl

theorem removeEffect_error {d2 : Directory} {id : Str} {error : Error}
    (hfiles : ∀ x, stored J d2 x = stored J d x)
    (hpresent : ∀ x, snapshotFileName x ∈ d2 → snapshotFileName x ∈ d)
    (hhead : headLocked d2 = headLocked d ∨ headLocked d = some id ∧
      ∃ snap, stored J d id = some snap ∧ headLocked d2 = parentHead snap) :
    RemoveEffect J d d2 id (.error error) where
  other x _ := hfiles x
  self := .inl (hfiles id)
  head := hhead
  moved hok := absurd hok (by simp)
  gone hok := absurd hok (by simp)
  present := hpresent

theorem headLocked_erase (d : Directory) (id : Str) :
    headLocked (d.erase (snapshotFileName id)) = headLocked d := by
  refine headLocked_congr ?_
  simp [Std.ExtTreeMap.getElem?_erase, snapshotFileName_ne_head id]

theorem removeEffect_erased {d2 : Directory} {id : Str} {snap : Snapshot}
    (hsnap : stored J d id = some snap)
    (hfiles : ∀ x, d2[snapshotFileName x]? = d[snapshotFileName x]?)
    (hhead : headLocked d ≠ some id ∧ headLocked d2 = headLocked d ∨
      headLocked d = some id ∧ headLocked d2 = parentHead snap) :
    RemoveEffect J d (d2.erase (snapshotFileName id)) id (.ok ()) := by
  have herased := headLocked_erase d2 id
  have hother : ∀ x, x ≠ id →
      (d2.erase (snapshotFileName id))[snapshotFileName x]? = d[snapshotFileName x]? := by
    intro x hx
    rw [← hfiles x]
    simp [Std.ExtTreeMap.getElem?_erase, (snapshotFileName_inj.not.mpr hx.symm)]
  refine ⟨fun x hx => stored_congr (hother x hx),
    .inr ⟨rfl, stored_missing (by simp)⟩, ?_, ?_,
    fun _ => by simp, ?_⟩
  · rw [herased]
    rcases hhead with ⟨_, hsame⟩ | ⟨hid, hparent⟩
    · exact .inl hsame
    · exact .inr ⟨hid, snap, hsnap, hparent⟩
  · intro _ hid
    rw [herased]
    rcases hhead with ⟨hne, _⟩ | ⟨_, hparent⟩
    · exact absurd hid hne
    · exact ⟨snap, hsnap, hparent⟩
  · intro x hx
    by_cases hid : x = id
    · subst x
      exact absurd hx (by simp)
    · exact (mem_congr (hother x hid)).mp hx

theorem removeHead_cases (e : Env) (d : Directory) (id : Str) (snap : Snapshot) :
    ∃ result d', removeHead e d id snap = (result, d') ∧ OnlyAside d d' ∧
      ((headLocked d ≠ some id ∧ headLocked d' = headLocked d) ∨
        (headLocked d = some id ∧ lands e.headWrite = true ∧ headLocked d' = parentHead snap ∧
          (result = .ok () ↔ e.headWrite = none)) ∨
        (headLocked d' = headLocked d ∧ ∃ error, result = .error error)) := by
  by_cases hhead : headLocked d = some id
  · rcases atomicWriteFile_cases (e := e) e.headWrite d (str "HEAD")
      (if snap.info.parent.getD [] = [] then [] else headContent (snap.info.parent.getD []))
      with ⟨hlands, r, hr, hnone⟩ | ⟨_, error, d', herror, hother⟩
    · refine ⟨r, _, ?_, onlyAside_head _,
        .inr (.inl ⟨hhead, hlands, headLocked_removed d, hnone⟩)⟩
      rw [removeHead, if_pos hhead, ← hr]
    · refine ⟨_, d', ?_, onlyAside_tmp hother,
        .inr (.inr ⟨headLocked_congr (hother _ (head_ne_tmp _)), error, rfl⟩)⟩
      rw [removeHead, if_pos hhead, ← herror]
  · exact ⟨.ok (), d, by rw [removeHead, if_neg hhead], fun _ _ => rfl, .inl ⟨hhead, rfl⟩⟩

theorem remove_cases {id : Str} {result : Result Unit} (h : remove J e d id = (result, d')) :
    (∃ error, result = .error error ∧ d' = (readLocked J e d id).2) ∨
    ∃ snap r d2, stored J d id = some snap ∧ removeHead e d id snap = (r, d2) ∧
      ((∃ error, result = .error error ∧ d' = d2 ∧
          (r = .ok () → e.unlinkError (snapshotFileName id) ≠ none)) ∨
        (r = .ok () ∧ e.unlinkError (snapshotFileName id) = none ∧ result = .ok () ∧
          d' = d2.erase (snapshotFileName id))) := by
  unfold remove at h
  rcases hread : readLocked J e d id with ⟨error | snap, d1⟩
  · rw [hread] at h
    obtain ⟨rfl, rfl⟩ := Prod.mk.inj h
    exact .inl ⟨error, rfl, rfl⟩
  obtain ⟨hsnap, rfl⟩ := readLocked_ok hread
  refine .inr ⟨snap, (removeHead e d1 id snap).1, (removeHead e d1 id snap).2, hsnap, rfl, ?_⟩
  rcases hmove : removeHead e d1 id snap with ⟨error | u, d2⟩
  · simp only [hread, hmove] at h
    obtain ⟨rfl, rfl⟩ := Prod.mk.inj h
    exact .inl ⟨error, rfl, rfl, fun hok => absurd hok (by simp)⟩
  · simp only [hread, hmove] at h
    rcases unlink_cases (e := e) (d := d2) (snapshotFileName id) with
      ⟨message, hsome, hunlink⟩ | ⟨hnone, hunlink⟩
    · simp only [hunlink] at h
      obtain ⟨rfl, rfl⟩ := Prod.mk.inj h
      exact .inl ⟨_, rfl, rfl, fun _ => by simp [hsome]⟩
    · simp only [hunlink] at h
      obtain ⟨rfl, rfl⟩ := Prod.mk.inj h
      exact .inr ⟨rfl, hnone, rfl, rfl⟩

theorem remove_effect {id : Str} {result : Result Unit} (h : remove J e d id = (result, d')) :
    RemoveEffect J d d' id result := by
  rcases remove_cases h with ⟨error, rfl, rfl⟩ | ⟨snap, r, d2, hsnap, hmove, hend⟩
  · have hkept := kept_readLocked (J := J) e d id
    exact removeEffect_error hkept.stored hkept.present (.inl hkept.head)
  obtain ⟨r', d2', hmove', haside, hhead⟩ := removeHead_cases e d id snap
  obtain ⟨rfl, rfl⟩ := Prod.mk.inj (hmove.symm.trans hmove')
  rcases hend with ⟨error, rfl, rfl, _⟩ | ⟨hok, _, rfl, rfl⟩
  · refine removeEffect_error (fun x => stored_congr (haside.file x))
      (fun x => (mem_congr (haside.file x)).mp) ?_
    rcases hhead with ⟨_, hsame⟩ | ⟨hid, _, hparent, _⟩ | ⟨hsame, _⟩
    · exact .inl hsame
    · exact .inr ⟨hid, snap, hsnap, hparent⟩
    · exact .inl hsame
  · refine removeEffect_erased hsnap haside.file ?_
    rcases hhead with hne | ⟨hid, _, hparent, _⟩ | ⟨_, error, herror⟩
    · exact .inl hne
    · exact .inr ⟨hid, hparent⟩
    · exact absurd (hok.symm.trans herror) (by simp)

end DevMgr.Daemon
