import DevMgr.Daemon.RequestProcessor
import DevMgr.Daemon.Restore

/-!
# When a snapshot can be taken

The serializer throws on a string that is no UTF-8, and nothing on the way from
the disk to it looks at the bytes: a snapshot is taken, or refused with an error,
exactly where all that goes into its payload and into its document is text.
-/

open DevMgr.Core

namespace DevMgr.Daemon
open Bytes Program

variable {H : Type} {J : Json.Codec} {P : Platform H} {faults : ℕ → Faults} {t : Thread}
  {s : State (Machine H)}

structure TextEntry (e : DisabledDeviceEntry) : Prop where
  bus : validUtf8 e.key.bus = true
  vendorId : validUtf8 e.key.vendorId = true
  productId : validUtf8 e.key.productId = true
  serial : validUtf8 e.key.serial = true
  position : validUtf8 e.key.position = true
  mechanism : validUtf8 e.mechanism = true
  lastDriver : validUtf8 e.lastDriver = true
  lastSysfsPath : validUtf8 e.lastSysfsPath = true

theorem entryToJson_text {e : DisabledDeviceEntry} : (entryToJson e).isText = true ↔
    TextEntry e := by
  have hkeys : validUtf8 (str "bus") && validUtf8 (str "disabled_at_utc") &&
      validUtf8 (str "guard_suspended") && validUtf8 (str "last_driver") &&
      validUtf8 (str "last_sysfs_path") && validUtf8 (str "mechanism") &&
      validUtf8 (str "position") && validUtf8 (str "product_id") && validUtf8 (str "serial") &&
      validUtf8 (str "vendor_id") := by decide
  simp only [Bool.and_eq_true] at hkeys
  simp only [entryToJson, Json.isText, Json.isTextMembers, hkeys, Bool.true_and, Bool.and_true,
    Bool.and_eq_true]
  constructor
  · rintro ⟨hbus, hdriver, hpath, hmechanism, hposition, hproduct, hserial, hvendor⟩
    exact ⟨hbus, hvendor, hproduct, hserial, hposition, hmechanism, hdriver, hpath⟩
  · intro h
    exact ⟨h.bus, h.lastDriver, h.lastSysfsPath, h.mechanism, h.position, h.productId, h.serial,
      h.vendorId⟩

theorem ofStringMap_text {m : StringMap Str} : (Json.ofStringMap m).isText = true ↔
    ∀ name content, m[name]? = some content → validUtf8 name = true ∧
    validUtf8 content = true := by
  simp only [Json.ofStringMap, Json.isText, Json.isTextMembers_iff,
    List.forall_mem_map, Prod.forall,
    Std.ExtTreeMap.mem_toList_iff_getElem?_eq_some]

theorem payloadToJson_text {p : SnapshotPayload} : (payloadToJson p).isText = true ↔
    (∀ e ∈ p.entries, TextEntry e) ∧
    ∀ name content, p.modprobeFiles[name]? = some content →
      validUtf8 name = true ∧ validUtf8 content = true := by
  have hkeys : validUtf8 (str "entries") && validUtf8 (str "modprobe_files") := by decide
  simp only [Bool.and_eq_true] at hkeys
  simp only [payloadToJson, Json.isText, Json.isTextMembers, hkeys, Bool.true_and, Bool.and_true,
    Bool.and_eq_true, Json.isTextElements_iff, List.forall_mem_map, entryToJson_text]
  exact and_congr_right fun _ => ofStringMap_text

theorem snapshotDocument_text_iff {id : Str} {parent : Option Str} {payload : SnapshotPayload}
    {trigger : SnapshotTrigger} {reason : SnapshotReason} {createdAtUtc : Int64}
    (hid : validUtf8 id = true) (hpayload : (payloadToJson payload).isText = true) :
    (snapshotDocument id parent payload trigger reason createdAtUtc).isText = true ↔
      (∀ p, parent = some p → validUtf8 p = true) ∧
        validUtf8 reason.verb = true ∧ validUtf8 reason.subject = true := by
  refine ⟨fun h => ?_, fun h => snapshotDocument_text hid h.1 hpayload h.2⟩
  simp only [snapshotDocument, Json.isText, Json.isTextMembers, Bool.and_eq_true] at h
  obtain ⟨_, _, _, ⟨_, hparent⟩, _, ⟨_, ⟨_, hsubject⟩, ⟨_, hverb⟩, _⟩, _⟩ := h
  refine ⟨fun p hp => ?_, hverb, hsubject⟩
  rw [hp] at hparent
  exact hparent

def DocumentText (J : Json.Codec) (d : Directory) (payload : SnapshotPayload)
    (reason : SnapshotReason) : Prop :=
  headLocked d = some (payloadId J payload) ∨ snapshotFileName (payloadId J payload) ∈ d ∨
    (∀ id, headLocked d = some id → validUtf8 id = true) ∧
      validUtf8 reason.verb = true ∧ validUtf8 reason.subject = true

theorem put_returns_iff {e : Env} {d : Directory} {payload : SnapshotPayload}
    {trigger : SnapshotTrigger} {reason : SnapshotReason} {createdAtUtc : Int64} :
    (∃ r, put J e d payload trigger reason createdAtUtc = .ok r) ↔
      (payloadToJson payload).isText = true ∧ DocumentText J d payload reason := by
  by_cases htext : (payloadToJson payload).isText = true
  · simp only [htext, true_and, DocumentText]
    by_cases hhead : headLocked d = some (payloadId J payload)
    · exact ⟨fun _ => .inl hhead, fun _ => ⟨_, put_dedupe htext hhead⟩⟩
    · by_cases hmem : snapshotFileName (payloadId J payload) ∈ d
      · refine ⟨fun _ => .inr (.inl hmem), fun _ => ?_⟩
        simp only [put, htext, not_true_eq_false, if_false, if_neg hhead, if_pos hmem]
        exact ⟨_, rfl⟩
      · have hdoc :=
          @snapshotDocument_text_iff (payloadId J payload) (headLocked d) payload trigger
            reason createdAtUtc (digest_text _) htext
        rw [or_iff_right hhead, or_iff_right hmem, ← hdoc]
        simp only [put, htext, not_true_eq_false, if_false, if_neg hhead, if_neg hmem]
        by_cases hwritten : (snapshotDocument (payloadId J payload) (headLocked d) payload trigger
          reason createdAtUtc).isText = true
        · rw [if_neg (not_not.mpr hwritten)]
          refine ⟨fun _ => hwritten, fun _ => ?_⟩
          split <;> exact ⟨_, rfl⟩
        · simp [hwritten]
  · simp [put, htext]

/-- All that goes into a snapshot of the state is text. -/
structure Snapshottable (J : Json.Codec) (s : State (Machine H)) (reason : SnapshotReason) :
    Prop where
  entries : ∀ e ∈ s.entries, TextEntry e
  files : ∀ name content, isDevmgrOwned name = true →
      s.world.modprobeDir[name]? = some content →
    validUtf8 name = true ∧ validUtf8 content = true
  document : DocumentText J s.world.snapshots (captured s) reason

theorem captured_text : (payloadToJson (captured s)).isText = true ↔
    (∀ e ∈ s.entries, TextEntry e) ∧ ∀ name content, isDevmgrOwned name = true →
      s.world.modprobeDir[name]? = some content → validUtf8 name = true ∧
      validUtf8 content = true := by
  rw [payloadToJson_text]
  refine and_congr_right fun _ => forall₂_congr fun name content => ?_
  rw [captured, ownedFiles_getElem?]
  split_ifs with howned <;> simp [howned]

/-- The program comes to its end: nothing in it throws. -/
def Ends {α : Type} (J : Json.Codec) (P : Platform H) (faults : ℕ → Faults)
    (t : Thread) (p : Verb α) (s : State (Machine H)) : Prop :=
  ∃ result, (run (Machine.respond J P faults t) p.run s).value = some result

theorem storePut_ends {payload : SnapshotPayload} {trigger : SnapshotTrigger}
    {reason : SnapshotReason} : Ends J P faults t (storePut payload trigger reason) s ↔
      ∃ r, put J (faults s.world.calls).snapshots s.world.snapshots payload trigger reason
        (P.nowUtc s.world.hardware) = .ok r := by
  constructor
  · rintro ⟨result, hresult⟩
    obtain ⟨d, hput, _⟩ := leaves_storePut result hresult
    exact ⟨_, hput⟩
  · rintro ⟨⟨result, d⟩, hput⟩
    exact ⟨result, (run_storePut hput).1⟩

theorem create_ends {trigger : SnapshotTrigger} {reason : SnapshotReason} :
    Ends J P faults t (create trigger reason) s ↔ Snapshottable J s reason := by
  obtain ⟨hcaptured, hstate⟩ := @run_capturePayload H J P faults t s
  have hrun : (run (Machine.respond J P faults t) (create trigger reason).run s).SameEnd _ :=
    run_step _ (run_lift _ hcaptured).1 ((run_lift _ hcaptured).2.trans hstate)
  rw [Ends, hrun.value]
  change Ends J P faults t (storePut (captured s) trigger reason) s ↔ _
  rw [storePut_ends, put_returns_iff, captured_text]
  exact ⟨fun ⟨⟨hentries, hfiles⟩, hdocument⟩ => ⟨hentries, hfiles, hdocument⟩,
    fun h => ⟨⟨h.entries, h.files⟩, h.document⟩⟩

theorem snapshotBefore_ends {verb : String} {subject : Str} :
    Ends J P faults t (snapshotBefore verb subject) s ↔
    Snapshottable J s ⟨str verb, subject⟩ := by
  rw [← @create_ends H J P faults t s .auto]
  constructor
  · rintro ⟨result, hresult⟩
    obtain ⟨created, hcreated, _⟩ := (run_bind_value _).mp hresult
    exact ⟨created, hcreated⟩
  · rintro ⟨created, hcreated⟩
    cases created with
    | ok id => exact ⟨.ok (), (run_bind_value _).mpr ⟨.ok id, hcreated, rfl⟩⟩
    | error error => exact ⟨_, (run_bind_value _).mpr ⟨.error error, hcreated, rfl⟩⟩

/-- The label is put into the reason of the document, and validating it does not make it text. -/
theorem snapshotting_ends_iff (J : Json.Codec) (P : Platform H) (faults : ℕ → Faults) (t : Thread)
    (s : State (Machine H)) :
    (∀ label, validation.snapshotLabel label = .ok () →
      (Ends J P faults t (create .manual ⟨[], label⟩) s ↔
        Snapshottable J s ⟨[], label⟩)) ∧
    ∀ verb subject,
      Ends J P faults t (snapshotBefore verb subject) s ↔
      Snapshottable J s ⟨str verb, subject⟩ :=
  ⟨fun _ _ => create_ends, fun _ _ => snapshotBefore_ends⟩

def bare (modprobeDir : Directory) : State (Machine Bench) where
  world := ⟨⟨[], [], []⟩, ∅, ∅, modprobeDir, [], 0⟩
  entries := []
  holder := none

def latinComment : Directory :=
  (∅ : Directory).insert (str "devmgr-blacklist.conf") (str "# caf" ++ [0xE9])

theorem latin_bytes_throw :
    (validation.snapshotLabel (str "nightly") = .ok () ∧
      ¬ Ends Json.reference Bench.platform (fun _ => .none) .bus
        (create .manual ⟨[], str "nightly"⟩) (bare latinComment) ∧
      ¬ Ends Json.reference Bench.platform (fun _ => .none) .bus
        (snapshotBefore "LoadModule" (str "usbhid")) (bare latinComment)) ∧
    validation.snapshotLabel (str "caf" ++ [0xE9]) = .ok () ∧
      ¬ Ends Json.reference Bench.platform (fun _ => .none) .bus
        (create .manual ⟨[], str "caf" ++ [0xE9]⟩) (bare ∅) := by
  have hfile : ∀ reason, ¬ Snapshottable Json.reference (bare latinComment) reason := by
    intro reason h
    have htext := h.files (str "devmgr-blacklist.conf") _ (by decide)
      Std.ExtTreeMap.getElem?_insert_self
    exact absurd htext.2 (by decide)
  have hlabel : ¬ Snapshottable Json.reference (bare ∅) ⟨[], str "caf" ++ [0xE9]⟩ := by
    intro h
    rcases h.document with hhead | hmem | ⟨_, _, hsubject⟩
    · exact absurd hhead (by simp [headLocked, bare])
    · exact absurd hmem (by simp [bare])
    · exact absurd hsubject (by decide)
  refine ⟨⟨by decide, ?_, ?_⟩, by decide, ?_⟩
  · rw [create_ends]
    exact hfile _
  · rw [snapshotBefore_ends]
    exact hfile _
  · rw [create_ends]
    exact hlabel

end DevMgr.Daemon
