import DevMgr.Daemon.Restore

/-!
# Restoring and undoing it

A restore of a snapshot the service has taken reaches its payload, and a restore of
the safety snapshot the payload captured before. The safety snapshot is stored under
the hash of that payload, so a snapshot already there with another payload of the
same hash takes its place.
-/

open DevMgr.Core

namespace DevMgr.Daemon
open Bytes Program

variable {H : Type} {J : Json.Codec} {P : Platform H} {faults faults' : ℕ → Faults}
  {t t' t₀ : Thread} {s : State (Machine H)}

/-- The snapshot was produced by `create`, from a payload captured in some state. -/
def Created (J : Json.Codec) (P : Platform H) (t : Thread) (id : Str) (payload : SnapshotPayload) :
    Prop :=
  ∃ (faults : ℕ → Faults) (s : State (Machine H)) (trigger : SnapshotTrigger)
    (reason : SnapshotReason), captured s = payload ∧
      (run (Machine.respond J P faults t) (create trigger reason).run s).value = some (.ok id)

theorem captured_owned {name : Str} (h : name ∈ (captured s).modprobeFiles) :
    isDevmgrOwned name = true := by
  by_contra howned
  rw [Std.ExtTreeMap.mem_iff_isSome_getElem?, captured, ownedFiles_getElem?, if_neg howned] at h
  exact absurd h (by simp)

theorem Restored.safety_payload {id : Str} {outcome : RestoreOutcome} {s' : State (Machine H)}
    {found : Snapshot} (h : Restored J s id outcome s')
    (hsole : ∀ found, stored J s.world.snapshots (payloadId J (captured s)) = some found →
      found.payload = captured s)
    (hfound : stored J s'.world.snapshots outcome.safetySnapshotId = some found) :
    found.payload = captured s := by
  obtain ⟨e, now, hput⟩ := h.safety
  obtain ⟨hid, _, hold, hdangling, hnew⟩ := put_ok hput
  rw [hid] at hfound hold hdangling hnew
  by_cases hmem : snapshotFileName (payloadId J (captured s)) ∈ s.world.snapshots
  · exact hsole found ((hold hmem).symm.trans hfound)
  · by_cases hhead : headLocked s.world.snapshots = some (payloadId J (captured s))
    · exact absurd ((hdangling hmem hhead).symm.trans hfound) (by simp)
    · have hwritten := (hnew hmem hhead).symm.trans hfound
      split_ifs at hwritten
      exact Option.some.inj hwritten ▸ rfl

theorem Created.restored {id : Str} {snap : Snapshot} {outcome : RestoreOutcome}
    (hcreated : Created J P t₀ id snap.payload)
    (hstored : stored J s.world.snapshots id = some snap)
    (hrun : (run (Machine.respond J P faults t) (restore id).run s).value = some (.ok outcome))
    (hitems : NoneFailed outcome.items) :
    SamePayload (captured (run (Machine.respond J P faults t) (restore id).run s).state)
      snap.payload := by
  obtain ⟨found, hfound, hreached⟩ := (leaves_restore id _ hrun outcome rfl).reached
  obtain rfl := Option.some.inj (hstored.symm.trans hfound)
  obtain ⟨_, s₀, _, _, hcaptured, _⟩ := hcreated
  exact hreached (fun name hmem => captured_owned (hcaptured ▸ hmem)) hitems

/-- The safety snapshot may be restored in any later state in which it reads as it did. -/
theorem restore_undoable {id : Str} {snap : Snapshot} {outcome : RestoreOutcome}
    (hcreated : Created J P t₀ id snap.payload)
    (hstored : stored J s.world.snapshots id = some snap)
    (hrun : (run (Machine.respond J P faults t) (restore id).run s).value = some (.ok outcome))
    (hitems : NoneFailed outcome.items) :
    let s₁ := (run (Machine.respond J P faults t) (restore id).run s).state
    SamePayload (captured s₁) snap.payload ∧
      ((∀ found, stored J s.world.snapshots (payloadId J (captured s)) = some found →
        found.payload = captured s) →
      ∀ s₂ outcome', stored J s₂.world.snapshots outcome.safetySnapshotId =
          stored J s₁.world.snapshots outcome.safetySnapshotId →
        (run (Machine.respond J P faults' t') (restore outcome.safetySnapshotId).run s₂).value =
          some (.ok outcome') → NoneFailed outcome'.items →
        SamePayload
          (captured (run (Machine.respond J P faults' t')
            (restore outcome.safetySnapshotId).run s₂).state) (captured s)) := by
  intro s₁
  refine ⟨hcreated.restored hstored hrun hitems,
    fun hsole s₂ outcome' hkept hrun' hitems' => ?_⟩
  obtain ⟨found, hfound, hreached⟩ := (leaves_restore _ _ hrun' outcome' rfl).reached
  have hpayload :=
    (leaves_restore id _ hrun outcome rfl).safety_payload hsole (hkept.symm.trans hfound)
  rw [hpayload] at hreached
  exact hreached (fun name => captured_owned) hitems'

def noFaults : ℕ → Faults := fun _ => .none

theorem leaves_writeBackModprobe_ok (pre target : SnapshotPayload) :
    Leaves (Machine.respond J P noFaults t) (writeBackModprobe pre target) s
      fun items _ => NoneFailed items := by
  have hok : ¬ str "ok" = str "failed" := by decide
  refine leaves_bind.mpr ((leaves_collect (fun file s => ?_) _).mono fun removed s₁ hremoved =>
    leaves_bind.mpr ((leaves_collect (fun file s => ?_) _).mono fun written s₂ hwritten =>
      leaves_pure.mpr (noneFailed_append.mpr ⟨hremoved, hwritten⟩)))
  · dsimp only
    split_ifs
    · exact leaves_pure.mpr nofun
    · exact leaves_bind.mpr (leaves_call.mpr (leaves_pure.mpr (List.forall_mem_singleton.mpr hok)))
  · dsimp only
    split_ifs
    · exact leaves_pure.mpr nofun
    · exact leaves_bind.mpr (leaves_call.mpr (leaves_pure.mpr (List.forall_mem_singleton.mpr hok)))

theorem run_enumerated_some :
    ∃ all, (run (Machine.respond J P faults t) enumerated s).value = some all ∧
    (run (Machine.respond J P faults t) enumerated s).state = s := by
  obtain ⟨all, hall⟩ := run_total (Machine.respond J P faults t) total_enumerated s
  exact ⟨all, hall,
    run_reads _ (fun o s ho => respond_reads J _ o s (.inl ho)) sees_enumerated s⟩

theorem run_reEnableRemoved_none {pre : SnapshotPayload} (target : SnapshotPayload)
    (hpre : pre.entries = []) :
    (run (Machine.respond J P faults t) (reEnableRemoved pre target) s).value = some [] ∧
      (run (Machine.respond J P faults t) (reEnableRemoved pre target) s).state = s := by
  obtain ⟨all, hvalue, hstate⟩ := run_enumerated_some (J := J) (P := P) (t := t) (s := s)
  unfold reEnableRemoved
  rw [run_bind, Ran.andThen, hvalue, hstate, hpre]
  exact ⟨rfl, rfl⟩

theorem run_reApplyRestored_none (hs : s.entries = []) :
    (run (Machine.respond J P faults t) reApplyRestored s).value = some [] ∧
      (run (Machine.respond J P faults t) reApplyRestored s).state = s := by
  obtain ⟨all, hvalue, hstate⟩ := run_enumerated_some (J := J) (P := P) (t := t) (s := s)
  have hentries : run (Machine.respond J P faults t) entries s = ⟨[.entries], some [], s⟩ := by
    rw [← hs]
    rfl
  unfold reApplyRestored
  rw [run_bind, Ran.andThen, hvalue, hstate]
  dsimp only
  rw [run_bind, Ran.andThen, hentries]
  exact ⟨rfl, rfl⟩

theorem run_writeBack_ok (id safety : Str) {pre target : SnapshotPayload}
    (hpre : pre.entries = []) (htarget : target.entries = []) :
    ∃ outcome,
    (run (Machine.respond J P noFaults t) (writeBack id safety pre target).run s).value =
      some (.ok outcome) ∧ NoneFailed outcome.items := by
  have htext : (StateStore.document target.entries).isText = true := by
    rw [htarget]
    decide
  have hsaved : (s.save J (Machine.platform J P noFaults) target.entries).1 = some (.ok ()) := by
    rw [save_text htext]
    exact congrArg some (writeState_ok _ rfl)
  have hreplace : run (Machine.respond J P noFaults t)
      (ExceptT.mk (call (S := daemon) (.replaceAll target.entries) >>= orRaise)).run s =
        let called := s.save J (Machine.platform J P noFaults) target.entries
        let ran := run (Machine.respond J P noFaults t) (orRaise called.1) called.2
        ⟨.replaceAll target.entries :: ran.issued, ran.value, ran.state⟩ := rfl
  dsimp only at hreplace
  rw [run_orRaise, hsaved] at hreplace
  set s₁ := (s.save J (Machine.platform J P noFaults) target.entries).2 with hs₁
  obtain ⟨files, hfiles⟩ :=
    run_total (Machine.respond J P noFaults t) (total_writeBackModprobe pre target) s₁
  set s₂ := (run (Machine.respond J P noFaults t) (writeBackModprobe pre target) s₁).state with
    hs₂
  have hentries : s₂.entries = [] :=
    (leaves_writeBackModprobe_kept pre target files hfiles).1.trans
      ((save_entries J _ _).trans htarget)
  obtain ⟨henabled, henabledState⟩ := run_reEnableRemoved_none (J := J) (P := P) (t := t)
    (s := s₂) target hpre
  obtain ⟨happlied, happliedState⟩ := run_reApplyRestored_none (J := J) (P := P)
    (t := t) hentries
  have hend : (run (Machine.respond J P noFaults t) (writeBack id safety pre target).run s).SameEnd
      (run (Machine.respond J P noFaults t) (ExceptT.run (pure
        { snapshotId := id, safetySnapshotId := safety, items := files ++ [] ++ [] } :
        Verb RestoreOutcome)) s₂) :=
    (run_step _ (by rw [hreplace]) (by rw [hreplace])).trans <|
      (run_step _ (run_lift _ hfiles).1 (run_lift _ hfiles).2).trans <|
      (run_step _ (run_lift _ henabled).1 ((run_lift _ henabled).2.trans henabledState)).trans <|
      run_step _ (run_lift _ happlied).1 ((run_lift _ happlied).2.trans happliedState)
  refine ⟨_, hend.value, ?_⟩
  rw [List.append_nil, List.append_nil]
  exact leaves_writeBackModprobe_ok pre target files hfiles

theorem restore_succeeds {id safety : Str} {snap : Snapshot} {d : Directory}
    (hstored : stored J s.world.snapshots id = some snap)
    (hput : TakesSafety J P noFaults s id safety d)
    (hs : s.entries = []) (hsnap : snap.payload.entries = []) :
    let s₁ := (run (Machine.respond J P noFaults t) (restore id).run s).state
    ∃ outcome, (run (Machine.respond J P noFaults t) (restore id).run s).value =
      some (.ok outcome) ∧
      NoneFailed outcome.items ∧ outcome.safetySnapshotId = safety ∧
      s₁.world.snapshots = d := by
  intro s₁
  have hend := run_restore (t := t) hstored hput
  have hpre : (captured s).entries = [] := hs
  obtain ⟨outcome, hvalue, hitems⟩ :=
    run_writeBack_ok (J := J) (P := P) (t := t) (s := withSafety s d)
      id safety hpre hsnap
  obtain ⟨hsafety, hsnapshots, _⟩ := leaves_writeBack (J := J) (P := P) (t := t)
    (s := withSafety s d) rfl _ hvalue outcome rfl
  refine ⟨outcome, hend.value.trans hvalue, hitems, hsafety, ?_⟩
  exact (congrArg (fun s => s.world.snapshots) hend.state).trans hsnapshots

theorem created_of_put {payload : SnapshotPayload} {trigger : SnapshotTrigger}
    {reason : SnapshotReason} {id : Str} {d : Directory} (hcaptured : captured s = payload)
    (hput : put J (faults s.world.calls).snapshots s.world.snapshots payload trigger reason
      (P.nowUtc s.world.hardware) = .ok (.ok id, d)) : Created J P t id payload := by
  obtain ⟨hvalue, hstate⟩ := run_capturePayload (J := J) (P := P) (t := t) (s := s)
  rw [hcaptured] at hvalue
  have hend := run_step (S := daemon) (Machine.respond J P faults t) (ε := Error)
    (x := liftM capturePayload) (f := fun payload => storePut payload trigger reason)
    (run_lift _ hvalue).1 ((run_lift _ hvalue).2.trans hstate)
  exact ⟨faults, s, trigger, reason, hcaptured, hend.value.trans (run_storePut (t := t) hput).1⟩

def oneFile (content : Str) : StringMap Str :=
  Std.ExtTreeMap.ofList [(str "devmgr-a.conf", content)] compare

theorem oneFile_toList (content : Str) :
    (oneFile content).toList = [(str "devmgr-a.conf", content)] :=
  single_toList _ content

theorem ownedName_oneFile {content name : Str} (h : name ∈ oneFile content) : OwnedName name := by
  have hname : name ∈ (oneFile content).keys := Std.ExtTreeMap.mem_keys.mpr h
  rw [← Std.ExtTreeMap.map_fst_toList_eq_keys, oneFile_toList] at hname
  obtain rfl : name = str "devmgr-a.conf" := List.mem_singleton.mp hname
  exact ⟨⟨by decide, by decide, by decide, by decide, by decide⟩, by decide⟩

theorem ownedFiles_oneFile (content : Str) : ownedFiles (oneFile content) = oneFile content := by
  refine Std.ExtTreeMap.ext_getElem? fun name => ?_
  rw [ownedFiles_getElem?]
  split_ifs with howned
  · rfl
  · exact (Std.ExtTreeMap.getElem?_eq_none fun hmem => howned (ownedName_oneFile hmem).2).symm

theorem oneFile_inj {c c' : Str} (h : oneFile c = oneFile c') : c = c' := by
  have hlist := congrArg Std.ExtTreeMap.toList h
  rw [oneFile_toList, oneFile_toList] at hlist
  simpa using hlist

theorem oneFile_text {content : Str} (h : ∀ c ∈ content, c < 0x80) :
    (payloadToJson ⟨[], oneFile content⟩).isText = true :=
      single_text (ascii_of_all (by decide)) h

theorem oneFile_fits (content : Str) (h : content.length ≤ 1000) :
    FitsGate Json.reference ∅ ⟨[], oneFile content⟩ .manual noReason 0 := by
  refine fits_of_small (by simp [headLocked]) (by decide) ?_
  have hquoted := Json.quote_length content
  have hwords : ∀ word ∈ [str "entries", str "modprobe_files", str "devmgr-a.conf"],
      (Json.quote word).length ≤ 20 := by decide
  have hline : ∀ depth, (Json.indented.line depth).length = 2 * depth + 1 := fun depth => by
    simp [Json.indented]
  have hafter : Json.indented.afterKey.length = 1 := rfl
  unfold payloadToJson
  simp only [Json.ofStringMap, oneFile_toList, List.map_nil, List.map_cons,
    Json.print, Json.printMembers,
    List.length_append, List.length_cons, List.length_nil, hline, hafter]
  simp only [List.forall_mem_cons] at hwords
  omega

theorem run_undo {id : Str} {snap : Snapshot} (hcreated : Created J P t₀ id snap.payload)
    (hstored : stored J s.world.snapshots id = some snap) (hs : s.entries = [])
    (hsnap : snap.payload.entries = []) (htext : (payloadToJson (captured s)).isText = true)
    (htext' : (payloadToJson snap.payload).isText = true) (hid : validUtf8 id = true)
    (hhead : ∀ x, headLocked s.world.snapshots = some x → validUtf8 x = true)
    (hreads : ∀ d, TakesSafety J P noFaults s id (payloadId J (captured s)) d →
      ∃ found, stored J d (payloadId J (captured s)) = some found ∧
      found.payload.entries = []) :
    let s₁ := (run (Machine.respond J P noFaults t) (restore id).run s).state
    ∃ outcome outcome', (run (Machine.respond J P noFaults t) (restore id).run s).value =
      some (.ok outcome) ∧
      NoneFailed outcome.items ∧ outcome.safetySnapshotId = payloadId J (captured s) ∧
      (run (Machine.respond J P noFaults t) (restore outcome.safetySnapshotId).run s₁).value =
        some (.ok outcome') ∧ NoneFailed outcome'.items := by
  intro s₁
  have hverb : validUtf8 (str "SnapshotRestore") = true := by decide
  obtain ⟨d, hput⟩ : ∃ d, TakesSafety J P noFaults s id (payloadId J (captured s)) d :=
    put_succeeds ⟨rfl, rfl⟩ htext hhead ⟨hverb, hid⟩
  obtain ⟨found, hfound, hentries⟩ := hreads d hput
  obtain ⟨outcome, hvalue, hitems, hsafety, hsnapshots⟩ :=
    restore_succeeds (t := t) hstored hput hs hsnap
  have hreached := hcreated.restored hstored hvalue hitems
  have hs₁ : s₁.entries = [] := by
    have hsettled := hreached.entries
    rw [hsnap] at hsettled
    exact List.map_eq_nil_iff.mp hsettled
  have hcaptured : captured s₁ = snap.payload :=
    congrArg₂ SnapshotPayload.mk (hs₁.trans hsnap.symm) hreached.files
  obtain ⟨_, hheadAfter, _⟩ := put_ok hput
  obtain ⟨d', hput'⟩ : ∃ d', TakesSafety J P noFaults s₁ (payloadId J (captured s))
      (payloadId J (captured s₁)) d' := by
    refine put_succeeds ⟨rfl, rfl⟩ (hcaptured ▸ htext') (fun x hx => ?_)
      ⟨hverb, digest_text _⟩
    rw [hsnapshots, hheadAfter] at hx
    exact Option.some.inj hx ▸ digest_text _
  obtain ⟨outcome', hvalue', hitems', -, -⟩ := restore_succeeds (t := t)
    (hsnapshots.symm ▸ hfound) hput' hs₁ hentries
  exact ⟨outcome, outcome', hvalue, hitems, hsafety, hsafety.symm ▸ hvalue', hitems'⟩

def benchState (files snapshots : Directory) : State (Machine Bench) where
  world := ⟨⟨[], [], []⟩, ∅, snapshots, files, [], 0⟩
  entries := []
  holder := none

@[simp] theorem benchState_snapshots (files snapshots : Directory) :
    (benchState files snapshots).world.snapshots = snapshots := rfl

theorem captured_benchState (content : Str) (d : Directory) :
    captured (benchState (oneFile content) d) = ⟨[], oneFile content⟩ :=
  congrArg (SnapshotPayload.mk []) (ownedFiles_oneFile content)

theorem created_alone {payload : SnapshotPayload} {files : Directory}
    (hfiles : captured (benchState files ∅) = payload)
    (htext : (payloadToJson payload).isText = true) :
    Created Json.reference Bench.platform .bus (payloadId Json.reference payload) payload := by
  obtain ⟨d, hput⟩ :
    ∃ d, put Json.reference (noFaults 0).snapshots ∅ payload .manual noReason 0 =
      .ok (.ok (payloadId Json.reference payload), d) :=
    put_succeeds ⟨rfl, rfl⟩ htext (by simp [headLocked]) ⟨by decide, by decide⟩
  exact created_of_put (P := Bench.platform) (s := benchState files ∅) hfiles hput

theorem created_emptyPayload :
    Created Json.reference Bench.platform .bus
      (payloadId Json.reference emptyPayload) emptyPayload := by
  have hnone : ownedFiles ∅ = ∅ := Std.ExtTreeMap.ext_getElem? fun name => by simp
  have hfiles : captured (benchState ∅ ∅) = emptyPayload :=
    congrArg (SnapshotPayload.mk []) hnone
  exact created_alone hfiles emptyPayload_text

theorem modprobePayload_entries : modprobePayload.entries = [] := rfl

theorem safety_put_fits : FitsGate Json.reference firstStore modprobePayload .auto
    ⟨str "SnapshotRestore", payloadId Json.reference emptyPayload⟩ 0 :=
  fits_of_small (head_length firstStore_history.1) ⟨by decide, (sha256Hex_length _).le⟩
    (by decide)

theorem reads_after_put {d d' : Directory} {e : Env} {payload : SnapshotPayload}
    {trigger : SnapshotTrigger} {reason : SnapshotReason} {createdAtUtc : Int64} {id : Str}
    (hput : put J e d payload trigger reason createdAtUtc = .ok (.ok id, d'))
    (hmem : snapshotFileName (payloadId J payload) ∉ d)
    (hhead : headLocked d ≠ some (payloadId J payload))
    (hfits : FitsGate J d payload trigger reason createdAtUtc) :
    ∃ found, stored J d' (payloadId J payload) = some found ∧ found.payload = payload := by
  obtain ⟨rfl, _, _, _, hwritten⟩ := put_ok hput
  have hread := hwritten hmem hhead
  rw [if_pos hfits] at hread
  exact ⟨_, hread, rfl⟩

theorem restore_undone : ∃ outcome outcome',
    let s := benchState (oneFile []) firstStore
    let s₁ := (run (Machine.respond Json.reference Bench.platform noFaults .bus)
      (restore (payloadId Json.reference emptyPayload)).run s).state
    (run (Machine.respond Json.reference Bench.platform noFaults .bus)
      (restore (payloadId Json.reference emptyPayload)).run s).value = some (.ok outcome) ∧
    (run (Machine.respond Json.reference Bench.platform noFaults .bus)
      (restore outcome.safetySnapshotId).run s₁).value = some (.ok outcome') ∧
    SamePayload (captured s₁) emptyPayload ∧
    SamePayload (captured (run (Machine.respond Json.reference Bench.platform noFaults .bus)
      (restore outcome.safetySnapshotId).run s₁).state) (captured s) := by
  set s := benchState (oneFile []) firstStore with hs
  have hsnapshots : s.world.snapshots = firstStore := benchState_snapshots _ _
  obtain ⟨snap, hstored, hpayload⟩ : ∃ snap, stored Json.reference s.world.snapshots
      (payloadId Json.reference emptyPayload) = some snap ∧ snap.payload = emptyPayload := by
    rw [hsnapshots]
    exact ⟨_, firstStore_history.2.1, rfl⟩
  have hcreated : Created Json.reference Bench.platform .bus (payloadId Json.reference emptyPayload)
      snap.payload := by
    rw [hpayload]
    exact created_emptyPayload
  have hnone : emptyPayload.entries = [] := rfl
  have hempty := emptyPayload_text
  rw [← hpayload] at hnone hempty
  have hcaptured : captured s = modprobePayload := captured_benchState [] firstStore
  have hnew := second_put_new
  have hhead := parent_text firstStore_history.1
  have hfits := safety_put_fits
  rw [← hsnapshots] at hnew hhead hfits
  obtain ⟨outcome, outcome', hrun, hitems, hsafety, hrun', hitems'⟩ :=
    run_undo (t := .bus) (s := s) hcreated
      hstored rfl hnone (hcaptured ▸ modprobePayload_text) hempty
        (digest_text _) hhead fun d hput => by
        have hnow : Bench.platform.nowUtc s.world.hardware = 0 := rfl
        unfold TakesSafety at hput
        rw [hcaptured, hnow] at hput
        obtain ⟨found, hfound, hpayload⟩ := reads_after_put hput hnew.2 hnew.1 hfits
        rw [hcaptured]
        exact ⟨found, hfound, hpayload ▸ modprobePayload_entries⟩
  obtain ⟨hreached, hundo⟩ := restore_undoable hcreated hstored hrun hitems
  rw [hpayload] at hreached
  refine ⟨outcome, outcome', hrun, hrun', hreached,
    hundo (fun found hfound => ?_) _ _ rfl hrun' hitems'⟩
  rw [hcaptured] at hfound
  exact absurd (mem_of_stored hfound) hnew.2

def lettersOf {n : ℕ} (f : Fin n → Bool) : Str := List.ofFn fun i => if f i then 97 else 98

theorem lettersOf_inj {n : ℕ} {f g : Fin n → Bool} (h : lettersOf f = lettersOf g) : f = g := by
  have hletters := List.ofFn_injective h
  funext i
  have hi : (if f i then (97 : UInt8) else 98) = if g i then 97 else 98 := congrFun hletters i
  revert hi
  cases f i <;> cases g i <;> decide

theorem lettersOf_ascii {n : ℕ} (f : Fin n → Bool) : ∀ c ∈ lettersOf f, c < 0x80 := by
  intro c hc
  obtain ⟨i, rfl⟩ := List.mem_ofFn.mp hc
  split_ifs <;> decide

theorem lettersOf_length {n : ℕ} (f : Fin n → Bool) : (lettersOf f).length = n :=
  List.length_ofFn

theorem undo_collides : ¬ ∀ (s : State (Machine Bench)) id snap outcome outcome',
    Created Json.reference Bench.platform .bus id snap.payload →
    stored Json.reference s.world.snapshots id = some snap →
    (run (Machine.respond Json.reference Bench.platform noFaults .bus) (restore id).run s).value =
      some (.ok outcome) → NoneFailed outcome.items →
    let s₁ :=
      (run (Machine.respond Json.reference Bench.platform noFaults .bus) (restore id).run s).state
    (run (Machine.respond Json.reference Bench.platform noFaults .bus)
      (restore outcome.safetySnapshotId).run s₁).value = some (.ok outcome') →
      NoneFailed outcome'.items →
    SamePayload (captured (run (Machine.respond Json.reference Bench.platform noFaults .bus)
      (restore outcome.safetySnapshotId).run s₁).state) (captured s) := by
  intro hall
  obtain ⟨f, g, hne, hcollide⟩ := exists_sha256Hex_eq (n := 257) (by decide) fun f =>
    canonicalPayload Json.reference ⟨[], oneFile (lettersOf f)⟩
  have hid : payloadId Json.reference ⟨[], oneFile (lettersOf g)⟩ =
      payloadId Json.reference ⟨[], oneFile (lettersOf f)⟩ := hcollide.symm
  have htext := fun f : Fin 257 → Bool => oneFile_text (lettersOf_ascii f)
  have hfits := oneFile_fits (lettersOf f) (by rw [lettersOf_length]; decide)
  obtain ⟨d, hd⟩ : ∃ d, d = perform Json.reference ∅
      (.quiet, .put ⟨[], oneFile (lettersOf f)⟩ .manual noReason 0) := ⟨_, rfl⟩
  obtain ⟨hhead, hstored⟩ := put_alone hd (htext f) ⟨by decide, by decide⟩ hfits
  generalize hsnap : putSnapshot Json.reference ∅ ⟨[],
      oneFile (lettersOf f)⟩ .manual noReason 0 = snap at hstored
  have hpayload : snap.payload = ⟨[], oneFile (lettersOf f)⟩ := by
    rw [← hsnap]
    rfl
  have hcreated : Created Json.reference Bench.platform .bus
      (payloadId Json.reference ⟨[], oneFile (lettersOf f)⟩) snap.payload := by
    rw [hpayload]
    exact created_alone (captured_benchState _ ∅) (htext f)
  have hcaptured := captured_benchState (lettersOf g) d
  obtain ⟨outcome, outcome', hrun, hitems, hsafety, hrun', hitems'⟩ := run_undo (t := .bus)
    (s := benchState (oneFile (lettersOf g)) d) hcreated hstored rfl (by rw [hpayload])
    (hcaptured ▸ htext g) (hpayload ▸ htext f) (digest_text _)
      (parent_text hhead) fun d' hput => by
      unfold TakesSafety at hput
      rw [hcaptured, hid] at hput ⊢
      obtain ⟨_, _, hkept, _⟩ := put_ok hput
      exact ⟨snap, (hkept (mem_of_stored hstored)).trans hstored, by rw [hpayload]⟩
  have hundone := hall _ _ snap outcome outcome' hcreated hstored hrun hitems hrun' hitems'
  have hrestored := leaves_restore _ _ hrun outcome rfl
  obtain ⟨_, _, hput⟩ := hrestored.safety
  obtain ⟨hsafetyId, _, hkept, _⟩ := put_ok hput
  rw [hcaptured, hid] at hsafetyId
  rw [hsafetyId] at hkept
  obtain ⟨found, hfound, hreached⟩ := (leaves_restore _ _ hrun' outcome' rfl).reached
  rw [hsafetyId] at hfound
  obtain rfl := Option.some.inj (hfound.symm.trans ((hkept (mem_of_stored hstored)).trans hstored))
  have howned : ∀ name ∈ found.payload.modprobeFiles, isDevmgrOwned name = true := by
    obtain ⟨_, s₀, _, _, hfiles, _⟩ := hcreated
    exact fun name hmem => captured_owned (hfiles ▸ hmem)
  have hfiles := (hreached howned hitems').files.symm.trans hundone.files
  rw [hpayload, hcaptured] at hfiles
  exact hne (lettersOf_inj (oneFile_inj hfiles))

end DevMgr.Daemon
