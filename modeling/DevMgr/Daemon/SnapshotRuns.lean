import DevMgr.Daemon.SnapshotPut
import DevMgr.Library.Run

/-!
# Invariants of the store over whole runs

Runs of put, list, read, remove and head start from an empty directory, and
every call has its own environment, so that any of its writes may fail. Three
invariants hold under a condition on the calls: a manual snapshot stays until it
is removed, `HEAD` names a readable snapshot, and the parent links form no
cycle. Two puts and two removals are enough to break each of them.
-/

open DevMgr.Core

namespace DevMgr.Daemon
open Bytes

variable {J : Json.Codec} {e : Env} {d : Directory}

abbrev runCalls (J : Json.Codec) : Directory → List (Env × Call) → Directory :=
  Run.runAll (perform J)

theorem perform_put (payload : SnapshotPayload) (trigger : SnapshotTrigger)
    (reason : SnapshotReason) (createdAtUtc : Int64) :
    PutEffect J d (perform J d (e, .put payload trigger reason createdAtUtc)) payload trigger reason
      createdAtUtc := by
  simp only [perform]
  split
  · exact putEffect_kept (.refl d)
  · rename_i h
    exact put_effect h

theorem perform_remove (id : Str) :
    RemoveEffect J d (perform J d (e, .remove id)) id (remove J e d id).1 :=
  remove_effect rfl

theorem perform_list : Kept J d (perform J d (e, .list)) := (list_rows e d).2

theorem perform_read (id : Str) : Kept J d (perform J d (e, .read id)) := kept_readLocked e d id

def removeEmpty : Env × Call := (.quiet, .remove (payloadId Json.reference emptyPayload))

def removeModprobe : Env × Call := (.quiet, .remove (payloadId Json.reference modprobePayload))

theorem canonicalPayload_injective {p q : SnapshotPayload} (hp : (payloadToJson p).isText = true)
    (hq : (payloadToJson q).isText = true)
    (h : canonicalPayload J p = canonicalPayload J q) : p = q := by
  have hdoc : payloadToJson p = payloadToJson q :=
    J.dump_injective hp (payloadToJson_canonical p) hq (payloadToJson_canonical q) h
  have hread := payloadFromJson_toJson p
  rw [hdoc, payloadFromJson_toJson] at hread
  exact (Except.ok.inj hread).symm

theorem payload_identity (J : Json.Codec) {p q : SnapshotPayload}
    (hp : (payloadToJson p).isText = true) (hq : (payloadToJson q).isText = true) :
    payloadFromJson (payloadToJson p) = .ok p ∧
    (canonicalPayload J p = canonicalPayload J q → p = q) ∧
    (Set.InjOn sha256Hex {canonicalPayload J p, canonicalPayload J q} →
      ∀ e d trigger reason time id d₁ e' d' trigger' reason' time' id' d₂,
        put J e d p trigger reason time = .ok (.ok id, d₁) →
        put J e' d' q trigger' reason' time' = .ok (.ok id', d₂) → (id = id' ↔ p = q)) := by
  refine ⟨payloadFromJson_toJson p, canonicalPayload_injective hp hq, fun hinj => ?_⟩
  intro e d trigger reason time id d₁ e' d' trigger' reason' time' id' d₂ hput hput'
  obtain rfl := (put_ok hput).1
  obtain rfl := (put_ok hput').1
  constructor
  · intro hid
    exact canonicalPayload_injective hp hq (hinj (by simp) (by simp) hid)
  · rintro rfl
    rfl

theorem payload_identity_puts :
    payloadId Json.reference modprobePayload = payloadId Json.reference emptyPayload ↔
      modprobePayload = emptyPayload := by
  refine (payload_identity Json.reference modprobePayload_text emptyPayload_text).2.2 ?_
    _ _ _ _ _ _ _ _ _ _ _ _ _ _ second_put first_put
  have hids : sha256Hex (canonicalPayload Json.reference modprobePayload) ≠
      sha256Hex (canonicalPayload Json.reference emptyPayload) := payloadIds_ne
  rintro x (rfl | rfl) y (rfl | rfl) hxy
  · rfl
  · exact absurd hxy hids
  · exact absurd hxy hids.symm
  · rfl

theorem secondStore_history :
    headLocked secondStore = some (payloadId Json.reference modprobePayload) ∧
    stored Json.reference secondStore (payloadId Json.reference modprobePayload) =
      some (putSnapshot Json.reference firstStore modprobePayload .manual noReason 0) ∧
    stored Json.reference secondStore (payloadId Json.reference emptyPayload) =
      some (putSnapshot Json.reference ∅ emptyPayload .manual noReason 0) := by
  obtain ⟨_, hhead, _, _, hnew⟩ := put_ok second_put
  obtain ⟨_, hfirst, _⟩ := firstStore_history
  refine ⟨hhead, ?_, ?_⟩
  · rw [hnew second_put_new.2 second_put_new.1, if_pos second_put_fits]
  · rcases (put_effect second_put).other _ payloadIds_ne.symm with
      hsame | ⟨_, _, snap, hsnap, hauto⟩
    · rw [hsame, hfirst]
    · rw [hfirst] at hsnap
      rw [← Option.some.inj hsnap] at hauto
      exact absurd hauto (by simp)

theorem remove_quiet {id : Str} {snap : Snapshot} (h : stored J d id = some snap) :
    (remove J .quiet d id).1 = .ok () := by
  have hmove : (removeHead .quiet d id snap).1 = .ok () := by
    unfold removeHead
    split_ifs <;> rfl
  rw [remove, readLocked_stored h]
  simp only
  rw [← Prod.eta (removeHead .quiet d id snap), hmove]
  rfl

def orphanStore : Directory := perform Json.reference secondStore removeEmpty

theorem orphanStore_history :
    headLocked orphanStore = some (payloadId Json.reference modprobePayload) ∧
    stored Json.reference orphanStore (payloadId Json.reference modprobePayload) =
      some (putSnapshot Json.reference firstStore modprobePayload .manual noReason 0) ∧
    snapshotFileName (payloadId Json.reference emptyPayload) ∉ orphanStore := by
  obtain ⟨hhead, hsecond, hfirst⟩ := secondStore_history
  have heffect : RemoveEffect Json.reference secondStore orphanStore
      (payloadId Json.reference emptyPayload) _ := perform_remove (e := .quiet) _
  refine ⟨?_, by
    rw [heffect.other _ payloadIds_ne, hsecond], heffect.gone (remove_quiet hfirst)⟩
  rcases heffect.head with hsame | ⟨hfirst, _⟩
  · rw [hsame, hhead]
  · exact absurd (Option.some.inj (hhead.symm.trans hfirst)) payloadIds_ne

def emptiedStore : Directory := perform Json.reference orphanStore removeModprobe

theorem emptiedStore_history :
    headLocked emptiedStore = some (payloadId Json.reference emptyPayload) ∧
    stored Json.reference emptiedStore (payloadId Json.reference emptyPayload) = none := by
  obtain ⟨hhead, hsecond, hfirst⟩ := orphanStore_history
  have heffect : RemoveEffect Json.reference orphanStore emptiedStore
      (payloadId Json.reference modprobePayload) _ := perform_remove (e := .quiet) _
  obtain ⟨snap, hsnap, hmoved⟩ := heffect.moved (remove_quiet hsecond) hhead
  obtain rfl := Option.some.inj (hsecond.symm.trans hsnap)
  refine ⟨?_, ?_⟩
  · rw [hmoved]
    refine parentHead_payloadId (p := emptyPayload) ?_
    rw [putSnapshot_parent, firstStore_history.1]
  · rw [heffect.other _ payloadIds_ne.symm,
      stored_missing (Std.ExtTreeMap.getElem?_eq_none hfirst)]

def Removes (J : Json.Codec) (id : Str) (d : Directory) (c : Env × Call) : Prop :=
  c.2 = .remove id ∧ (remove J c.1 d id).1 = .ok ()

/-- A manual put finds a readable manual snapshot under its id or writes one the reader accepts. -/
def ManualSafe (J : Json.Codec) (d : Directory) (payload : SnapshotPayload)
    (reason : SnapshotReason) (createdAtUtc : Int64) : Prop :=
  (snapshotFileName (payloadId J payload) ∈ d →
    ∃ snap, stored J d (payloadId J payload) = some snap ∧ snap.info.trigger = .manual) ∧
  (snapshotFileName (payloadId J payload) ∉ d → headLocked d ≠ some (payloadId J payload) ∧
    FitsGate J d payload .manual reason createdAtUtc)

theorem manual_kept {id : Str} {snap : Snapshot} {c : Env × Call}
    (hsnap : stored J d id = some snap)
    (hmanual : snap.info.trigger = .manual) (hkeep : ¬ Removes J id d c) :
    stored J (perform J d c) id = some snap := by
  obtain ⟨e, c⟩ := c
  rw [← hsnap]
  cases c with
  | put payload trigger reason createdAtUtc =>
    have heffect := perform_put (J := J) (e := e) (d := d) payload trigger reason createdAtUtc
    by_cases hid : id = payloadId J payload
    · subst id
      exact heffect.existing (mem_of_stored hsnap)
    · rcases heffect.other id hid with h | ⟨_, _, snap', hsnap', hauto⟩
      · exact h
      · rw [hsnap] at hsnap'
        rw [← Option.some.inj hsnap', hmanual] at hauto
        exact absurd hauto (by simp)
  | list => exact perform_list.stored id
  | read x => exact (perform_read x).stored id
  | remove x =>
    have heffect := perform_remove (J := J) (e := e) (d := d) x
    by_cases hid : id = x
    · subst id
      rcases heffect.self with h | ⟨hok, _⟩
      · exact h
      · exact absurd ⟨rfl, hok⟩ hkeep
    · exact heffect.other id hid
  | head => rfl

theorem manual_put_persists {before after : List (Env × Call)} {payload : SnapshotPayload}
    {reason : SnapshotReason} {createdAtUtc : Int64} {id : Str} {d' : Directory}
    (hput : put J e (runCalls J ∅ before) payload .manual reason createdAtUtc = .ok (.ok id, d'))
    (hsafe : ManualSafe J (runCalls J ∅ before) payload reason createdAtUtc)
    (hkeep : Run.Meets (perform J) (fun d c => ¬ Removes J id d c) d' after) (e' : Env) :
    ∃ snap, (read J e' (runCalls J d' after) id).1 = .ok snap := by
  obtain ⟨rfl, _, hfound, _, hnew⟩ := put_ok hput
  have hstart : ∃ snap, stored J d' (payloadId J payload) = some snap ∧
      snap.info.trigger = .manual := by
    by_cases hmem : snapshotFileName (payloadId J payload) ∈ runCalls J ∅ before
    · rw [hfound hmem]
      exact hsafe.1 hmem
    · obtain ⟨hhead, hfits⟩ := hsafe.2 hmem
      rw [hnew hmem hhead, if_pos hfits]
      exact ⟨_, rfl, rfl⟩
  obtain ⟨snap, hsnap, hmanual⟩ := hstart
  have hstep : ∀ d c, stored J d (payloadId J payload) = some snap →
      ¬ Removes J (payloadId J payload) d c →
      stored J (perform J d c) (payloadId J payload) = some snap :=
    fun _ _ hs hk => manual_kept hs hmanual hk
  have hend : stored J (runCalls J d' after) (payloadId J payload) = some snap :=
    Run.runAll_invariant (perform J) hstep hsnap hkeep
  exact ⟨snap, read_iff.mpr hend⟩

theorem manual_put_persists_first : ∃ snap,
    (read Json.reference .quiet (runCalls Json.reference firstStore [putModprobe])
      (payloadId Json.reference emptyPayload)).1 = .ok snap := by
  have hput : put Json.reference .quiet
      (runCalls Json.reference ∅ []) emptyPayload .manual noReason 0 =
    .ok (.ok (payloadId Json.reference emptyPayload), firstStore) := first_put
  have hkeep : Run.Meets (perform Json.reference)
      (fun d c => ¬ Removes Json.reference (payloadId Json.reference emptyPayload) d c) firstStore
      [putModprobe] := ⟨fun hremoves => absurd hremoves.1 (by simp [putModprobe]), trivial⟩
  refine manual_put_persists hput ⟨fun hmem => absurd hmem ?_,
    fun _ => ⟨?_, first_put_fits⟩⟩ hkeep
    .quiet
  · simp
  · simp [headLocked]

theorem emptiedStore_run : runCalls Json.reference ∅
    [putEmpty, putModprobe, removeEmpty, removeModprobe] = emptiedStore := by
  rw [runCalls, Run.runAll_cons, Run.runAll_cons, Run.runAll_cons, Run.runAll_cons, Run.runAll_nil,
    emptiedStore, orphanStore, secondStore, firstStore]

theorem manual_put_lost :
    put Json.reference .quiet
        (runCalls Json.reference ∅ [putEmpty, putModprobe, removeEmpty, removeModprobe])
        emptyPayload .manual noReason 0 =
      .ok (.ok (payloadId Json.reference emptyPayload), emptiedStore) ∧
    ¬ ∃ snap, (read Json.reference .quiet (runCalls Json.reference emptiedStore [])
      (payloadId Json.reference emptyPayload)).1 = .ok snap := by
  obtain ⟨hhead, hnone⟩ := emptiedStore_history
  rw [emptiedStore_run]
  refine ⟨put_dedupe emptyPayload_text hhead, ?_⟩
  rintro ⟨snap, hread⟩
  rw [runCalls, Run.runAll_nil] at hread
  have hsnap := read_iff.mp hread
  rw [hnone] at hsnap
  exact absurd hsnap (by simp)

def Sound (J : Json.Codec) (d : Directory) : Prop :=
  ∀ id, snapshotFileName id ∈ d → ∃ snap, stored J d id = some snap

def HeadStored (J : Json.Codec) (d : Directory) : Prop :=
  ∀ id, headLocked d = some id → ∃ snap, stored J d id = some snap

/-- Puts stay below the size gate, and a snapshot `HEAD` names is removed only while its parent is
another stored snapshot or none. -/
def KeepsHead (J : Json.Codec) (d : Directory) (c : Env × Call) : Prop :=
  match c.2 with
  | .put payload trigger reason createdAtUtc => FitsGate J d payload trigger reason createdAtUtc
  | .remove id => headLocked d = some id → ∀ snap parent, stored J d id = some snap →
      snap.info.parent = some parent → parent ≠ id ∧ ∃ snap', stored J d parent = some snap'
  | _ => True

theorem Sound.kept {d' : Directory} (h : Sound J d) (hk : Kept J d d') : Sound J d' := by
  intro id hid
  rw [hk.stored]
  exact h id (hk.present id hid)

theorem HeadStored.kept {d' : Directory} (h : HeadStored J d) (hk : Kept J d d') :
    HeadStored J d' := by
  intro id hid
  rw [hk.stored]
  exact h id (hk.head.symm.trans hid)

section Put
variable {d' : Directory} {payload : SnapshotPayload} {trigger : SnapshotTrigger}
  {reason : SnapshotReason} {createdAtUtc : Int64}
  (heffect : PutEffect J d d' payload trigger reason createdAtUtc)
  (hfits : FitsGate J d payload trigger reason createdAtUtc)

include heffect hfits

theorem headStored_put (hs : Sound J d) (h : HeadStored J d) : HeadStored J d' := by
  intro id hid
  by_cases hput : id = payloadId J payload
  · subst id
    by_cases hmem : snapshotFileName (payloadId J payload) ∈ d
    · rw [heffect.existing hmem]
      exact hs _ hmem
    · rcases heffect.moved hid with hold | hold | hnew
      · obtain ⟨snap, hsnap⟩ := h _ hold
        exact absurd (mem_of_stored hsnap) hmem
      · exact absurd hold hmem
      · exact ⟨_, hnew hfits⟩
  · have hold : headLocked d = some id := by
      rcases heffect.head with hsame | hmoved
      · exact hsame.symm.trans hid
      · rw [hid] at hmoved
        exact absurd (Option.some.inj hmoved) hput
    rcases heffect.other id hput with hsame | ⟨_, hgone, _⟩
    · rw [hsame]
      exact h id hold
    · exact absurd hid hgone

theorem sound_put (hs : Sound J d) : Sound J d' := by
  intro id hid
  rcases heffect.present id hid with hmem | ⟨rfl, hnew⟩
  · by_cases hput : id = payloadId J payload
    · subst id
      rw [heffect.existing hmem]
      exact hs _ hmem
    · rcases heffect.other id hput with hsame | ⟨hgone, _⟩
      · rw [hsame]
        exact hs id hmem
      · exact absurd hid hgone
  · exact ⟨_, hnew hfits⟩

end Put

section Remove
variable {d' : Directory} {id : Str} {result : Result Unit}
  (heffect : RemoveEffect J d d' id result)

include heffect

theorem sound_remove (hs : Sound J d) : Sound J d' := by
  intro x hx
  by_cases hid : x = id
  · subst x
    rcases heffect.self with hsame | ⟨hok, _⟩
    · rw [hsame]
      exact hs id (heffect.present id hx)
    · exact absurd hx (heffect.gone hok)
  · rw [heffect.other x hid]
    exact hs x (heffect.present x hx)

theorem headStored_remove (h : HeadStored J d)
    (hparent : headLocked d = some id → ∀ snap parent, stored J d id = some snap →
      snap.info.parent = some parent → parent ≠ id ∧
      ∃ snap', stored J d parent = some snap') :
    HeadStored J d' := by
  intro x hx
  have hsame : headLocked d' = headLocked d → x ≠ id →
      ∃ snap, stored J d' x = some snap := by
    intro hhead hne
    rw [heffect.other x hne]
    exact h x (hhead.symm.trans hx)
  have hmoved : headLocked d = some id → (∃ snap, stored J d id = some snap ∧
      headLocked d' = parentHead snap) → ∃ snap, stored J d' x = some snap := by
    rintro hid ⟨snap, hsnap, hnext⟩
    cases hp : snap.info.parent with
    | none =>
      rw [parentHead_none hp, hx] at hnext
      exact absurd hnext (by simp)
    | some parent =>
      obtain ⟨hne, snap', hsnap'⟩ := hparent hid snap parent hsnap hp
      rw [parentHead_stored hp hsnap', hx] at hnext
      obtain rfl := Option.some.inj hnext
      exact ⟨snap', by rw [heffect.other x hne, hsnap']⟩
  by_cases hid : x = id
  · subst x
    rcases heffect.self with hself | ⟨hok, _⟩
    · rcases heffect.head with hhead | ⟨hhead, hnext⟩
      · rw [hself]
        exact h id (hhead.symm.trans hx)
      · exact hmoved hhead hnext
    · rcases heffect.head with hhead | ⟨hhead, hnext⟩
      · have hold := hhead.symm.trans hx
        exact hmoved hold (heffect.moved hok hold)
      · exact hmoved hhead hnext
  · rcases heffect.head with hhead | ⟨hhead, hnext⟩
    · exact hsame hhead hid
    · exact hmoved hhead hnext

end Remove

theorem keepsHead_step {c : Env × Call} (h : Sound J d ∧ HeadStored J d) (hc : KeepsHead J d c) :
    Sound J (perform J d c) ∧ HeadStored J (perform J d c) := by
  obtain ⟨hs, hh⟩ := h
  obtain ⟨e, c⟩ := c
  cases c with
  | put payload trigger reason createdAtUtc =>
    have heffect := perform_put (J := J) (e := e) (d := d) payload trigger reason createdAtUtc
    exact ⟨sound_put heffect hc hs, headStored_put heffect hc hs hh⟩
  | list => exact ⟨hs.kept perform_list, hh.kept perform_list⟩
  | read id => exact ⟨hs.kept (perform_read id), hh.kept (perform_read id)⟩
  | remove id =>
    have heffect := perform_remove (J := J) (e := e) (d := d) id
    exact ⟨sound_remove heffect hs, headStored_remove heffect hh hc⟩
  | head => exact ⟨hs, hh⟩

theorem empty_sound : Sound J ∅ := fun id hid => absurd hid (by simp)

theorem empty_headStored : HeadStored J ∅ := fun id hid => absurd hid (by simp [headLocked])

theorem head_never_dangles {calls : List (Env × Call)}
    (h : Run.Meets (perform J) (KeepsHead J) ∅ calls) (e : Env) (id : Str)
    (hid : head (runCalls J ∅ calls) = .ok (some id)) :
    snapshotFileName id ∈ runCalls J ∅ calls ∧
      ∃ snap, (read J e (runCalls J ∅ calls) id).1 = .ok snap := by
  have hstep : ∀ d c, Sound J d ∧ HeadStored J d → KeepsHead J d c →
      Sound J (perform J d c) ∧ HeadStored J (perform J d c) :=
        fun _ _ hi hc => keepsHead_step hi hc
  obtain ⟨_, hh⟩ := Run.runAll_invariant (perform J) hstep ⟨empty_sound, empty_headStored⟩ h
  obtain ⟨snap, hsnap⟩ := hh id (Except.ok.inj hid)
  exact ⟨mem_of_stored hsnap, snap, read_iff.mpr hsnap⟩

theorem secondStore_parent {snap : Snapshot} {parent : Str}
    (hsnap : stored Json.reference secondStore
      (payloadId Json.reference modprobePayload) = some snap)
    (hparent : snap.info.parent = some parent) :
    parent = payloadId Json.reference emptyPayload := by
  rw [secondStore_history.2.1] at hsnap
  rw [← Option.some.inj hsnap, putSnapshot_parent, firstStore_history.1] at hparent
  exact (Option.some.inj hparent).symm

theorem head_never_dangles_shortened :
    snapshotFileName (payloadId Json.reference emptyPayload) ∈
        runCalls Json.reference ∅ [putEmpty, putModprobe, removeModprobe] ∧
      ∃ snap, (read Json.reference .quiet
        (runCalls Json.reference ∅ [putEmpty, putModprobe, removeModprobe])
        (payloadId Json.reference emptyPayload)).1 = .ok snap := by
  obtain ⟨hhead, hsecond, hfirst⟩ := secondStore_history
  have hrun : runCalls Json.reference ∅ [putEmpty, putModprobe, removeModprobe] =
      perform Json.reference secondStore removeModprobe := by
    rw [runCalls, Run.runAll_cons, Run.runAll_cons, Run.runAll_cons, Run.runAll_nil, secondStore,
      firstStore]
  have heffect : RemoveEffect Json.reference secondStore
      (perform Json.reference secondStore removeModprobe)
      (payloadId Json.reference modprobePayload) _ := perform_remove (e := .quiet) _
  obtain ⟨snap, hsnap, hmoved⟩ := heffect.moved (remove_quiet hsecond) hhead
  have hparent : snap.info.parent = some (payloadId Json.reference emptyPayload) := by
    rw [← Option.some.inj (hsecond.symm.trans hsnap), putSnapshot_parent, firstStore_history.1]
  have hleft : head (runCalls Json.reference ∅ [putEmpty, putModprobe, removeModprobe]) =
      .ok (some (payloadId Json.reference emptyPayload)) := by
    rw [hrun, head, hmoved, parentHead_payloadId hparent]
  have hkeeps : KeepsHead Json.reference secondStore removeModprobe := by
    intro _ snap' parent hsnap' hparent'
    obtain rfl := secondStore_parent hsnap' hparent'
    exact ⟨payloadIds_ne.symm, _, hfirst⟩
  have hmeets : Run.Meets (perform Json.reference) (KeepsHead Json.reference) ∅
      [putEmpty, putModprobe, removeModprobe] :=
    ⟨first_put_fits, second_put_fits, hkeeps, trivial⟩
  exact head_never_dangles hmeets .quiet _ hleft

theorem head_dangles :
    head (runCalls Json.reference ∅ [putEmpty, putModprobe, removeEmpty, removeModprobe]) =
      .ok (some (payloadId Json.reference emptyPayload)) ∧
    ¬ ∃ snap, (read Json.reference .quiet
      (runCalls Json.reference ∅ [putEmpty, putModprobe, removeEmpty, removeModprobe])
      (payloadId Json.reference emptyPayload)).1 = .ok snap := by
  obtain ⟨hhead, hnone⟩ := emptiedStore_history
  rw [emptiedStore_run]
  refine ⟨congrArg Except.ok hhead, ?_⟩
  rintro ⟨snap, hread⟩
  have hsnap := read_iff.mp hread
  rw [hnone] at hsnap
  exact absurd hsnap (by simp)

def ParentLink (J : Json.Codec) (d : Directory) (id parent : Str) : Prop :=
  ∃ snap, stored J d id = some snap ∧ snap.info.parent = some parent

/-- A put that writes a new file does not return to a snapshot `HEAD` descends from. -/
def NoReturn (J : Json.Codec) (d : Directory) (c : Env × Call) : Prop :=
  match c.2 with
  | .put payload _ _ _ => snapshotFileName (payloadId J payload) ∉ d →
      ∀ id, headLocked d = some id →
      id ≠ payloadId J payload → ¬ Relation.ReflTransGen (ParentLink J d) id
        (payloadId J payload)
  | _ => True

theorem acyclic_of_stored {d' : Directory} (h : LinkWalk.Acyclic (ParentLink J d))
    (hstored : ∀ id snap, stored J d' id = some snap → stored J d id = some snap) :
    LinkWalk.Acyclic (ParentLink J d') :=
  h.mono fun id _ ⟨snap, hsnap, hp⟩ => ⟨snap, hstored id snap hsnap, hp⟩

theorem stored_of_unchanged {d' : Directory} {id : Str} {snap : Snapshot}
    (h : stored J d' id = stored J d id ∨ snapshotFileName id ∉ d')
    (hsnap : stored J d' id = some snap) : stored J d id = some snap := by
  rcases h with hsame | hgone
  · rwa [← hsame]
  · exact absurd (mem_of_stored hsnap) hgone

theorem acyclic_put {d' : Directory} {payload : SnapshotPayload} {trigger : SnapshotTrigger}
    {reason : SnapshotReason} {createdAtUtc : Int64}
    (heffect : PutEffect J d d' payload trigger reason createdAtUtc)
    (h : LinkWalk.Acyclic (ParentLink J d))
    (hnew : snapshotFileName (payloadId J payload) ∉ d → ∀ id, headLocked d = some id →
      id ≠ payloadId J payload → ¬ Relation.ReflTransGen (ParentLink J d) id
        (payloadId J payload)) :
    LinkWalk.Acyclic (ParentLink J d') := by
  have hother : ∀ id snap, id ≠ payloadId J payload → stored J d' id = some snap →
      stored J d id = some snap :=
    fun id snap hid hsnap => stored_of_unchanged ((heffect.other id hid).imp_right And.left) hsnap
  have hold : (∀ snap, stored J d' (payloadId J payload) = some snap →
      stored J d (payloadId J payload) = some snap) → LinkWalk.Acyclic (ParentLink J d') := by
    intro hself
    refine acyclic_of_stored h fun id snap hsnap => ?_
    by_cases hid : id = payloadId J payload
    · subst id
      exact hself snap hsnap
    · exact hother id snap hid hsnap
  by_cases hmem : snapshotFileName (payloadId J payload) ∈ d
  · exact hold fun snap hsnap => by rwa [← heffect.existing hmem]
  · rcases heffect.fresh hmem with hnone | ⟨hhead, hsnap⟩
    · exact hold fun snap hsnap => absurd (hnone.symm.trans hsnap) (by simp)
    · cases hp : headLocked d with
      | none =>
        refine h.mono fun id parent ⟨snap', hsnap', hparent⟩ => ?_
        by_cases hid : id = payloadId J payload
        · subst id
          rw [hsnap] at hsnap'
          obtain rfl := Option.some.inj hsnap'
          exact absurd (hp.symm.trans hparent) (by simp)
        · exact ⟨snap', hother id snap' hid hsnap', hparent⟩
      | some top =>
        have hne : top ≠ payloadId J payload := fun heq => hhead (heq ▸ hp)
        refine h.insert (a := payloadId J payload) (b := top)
          (fun id parent ⟨snap', hsnap', hparent⟩ => ?_) (hnew hmem top hp hne)
        by_cases hid : id = payloadId J payload
        · subst id
          rw [hsnap] at hsnap'
          obtain rfl := Option.some.inj hsnap'
          exact .inr ⟨rfl, (Option.some.inj (hp.symm.trans hparent)).symm⟩
        · exact .inl ⟨snap', hother id snap' hid hsnap', hparent⟩

theorem noReturn_step {c : Env × Call} (h : LinkWalk.Acyclic (ParentLink J d))
    (hc : NoReturn J d c) : LinkWalk.Acyclic (ParentLink J (perform J d c)) := by
  obtain ⟨e, c⟩ := c
  cases c with
  | put payload trigger reason createdAtUtc => exact acyclic_put (perform_put _ _ _ _) h hc
  | list => exact acyclic_of_stored h fun id snap hsnap => by rwa [← perform_list.stored id]
  | read x => exact acyclic_of_stored h fun id snap hsnap => by rwa [← (perform_read x).stored id]
  | remove x =>
    have heffect := perform_remove (J := J) (e := e) (d := d) x
    refine acyclic_of_stored h fun id snap hsnap => ?_
    by_cases hid : id = x
    · subst id
      rcases heffect.self with hsame | ⟨_, hnone⟩
      · rwa [← hsame]
      · exact absurd (hnone.symm.trans hsnap) (by simp)
    · rwa [← heffect.other id hid]
  | head => exact h

theorem empty_acyclic : LinkWalk.Acyclic (ParentLink J ∅) := by
  intro id hid
  obtain ⟨_, ⟨snap, hsnap, _⟩, _⟩ := Relation.TransGen.head'_iff.mp hid
  exact absurd (mem_of_stored hsnap) (by simp)

theorem parents_acyclic {calls : List (Env × Call)}
    (h : Run.Meets (perform J) (NoReturn J) ∅ calls) :
    LinkWalk.Acyclic (ParentLink J (runCalls J ∅ calls)) := by
  have hstep : ∀ d c, LinkWalk.Acyclic (ParentLink J d) → NoReturn J d c →
      LinkWalk.Acyclic (ParentLink J (perform J d c)) := fun _ _ hi hc => noReturn_step hi hc
  exact Run.runAll_invariant (perform J) hstep empty_acyclic h

theorem parents_acyclic_second :
    LinkWalk.Acyclic
      (ParentLink Json.reference (runCalls Json.reference ∅ [putEmpty, putModprobe])) := by
  have hfirstPut : NoReturn Json.reference ∅ putEmpty :=
    fun _ id hid => absurd hid (by simp [headLocked])
  suffices hsecondPut : NoReturn Json.reference firstStore putModprobe from
    parents_acyclic ⟨hfirstPut, hsecondPut, trivial⟩
  intro _ id hid hne hreach
  obtain ⟨hhead, hfirst, _⟩ := firstStore_history
  obtain rfl : id = payloadId Json.reference emptyPayload :=
    Option.some.inj (hid.symm.trans hhead)
  rcases Relation.ReflTransGen.cases_head hreach with
    heq | ⟨parent, ⟨snap, hsnap, hparent⟩, _⟩
  · exact hne heq
  · obtain rfl := Option.some.inj (hfirst.symm.trans hsnap)
    exact absurd hparent (by simp [headLocked])

def cyclicStore : Directory := perform Json.reference orphanStore putEmpty

theorem cyclicStore_run : runCalls Json.reference ∅
    [putEmpty, putModprobe, removeEmpty, putEmpty] = cyclicStore := by
  rw [runCalls, Run.runAll_cons, Run.runAll_cons, Run.runAll_cons, Run.runAll_cons, Run.runAll_nil,
    cyclicStore, orphanStore, secondStore, firstStore]

theorem third_put_fits : FitsGate Json.reference orphanStore emptyPayload .manual noReason 0 :=
  fits_of_small (head_length orphanStore_history.1) (by decide) (by decide)

theorem third_put : put Json.reference .quiet orphanStore emptyPayload .manual noReason 0 =
    .ok (.ok (payloadId Json.reference emptyPayload), cyclicStore) := by
  obtain ⟨hhead, _, hfirst⟩ := orphanStore_history
  have hne : headLocked orphanStore ≠ some (payloadId Json.reference emptyPayload) :=
    fun h => payloadIds_ne (Option.some.inj (hhead.symm.trans h))
  have hput : put Json.reference .quiet orphanStore emptyPayload .manual noReason 0 = _ :=
    put_new ⟨rfl, rfl⟩ emptyPayload_text hne hfirst
      (snapshotDocument_text (digest_text _) (parent_text hhead) emptyPayload_text (by decide))
  rw [cyclicStore, putEmpty, perform_put_ok hput]
  exact hput

theorem parents_cycle :
    Relation.TransGen (ParentLink Json.reference
        (runCalls Json.reference ∅ [putEmpty, putModprobe, removeEmpty, putEmpty]))
      (payloadId Json.reference emptyPayload) (payloadId Json.reference emptyPayload) := by
  obtain ⟨hhead, hsecond, hfirst⟩ := orphanStore_history
  have hne : headLocked orphanStore ≠ some (payloadId Json.reference emptyPayload) :=
    fun h => payloadIds_ne (Option.some.inj (hhead.symm.trans h))
  obtain ⟨_, _, _, _, hnew⟩ := put_ok third_put
  have hempty := hnew hfirst hne
  rw [if_pos third_put_fits] at hempty
  have hmodprobe : stored Json.reference cyclicStore (payloadId Json.reference modprobePayload) =
      some (putSnapshot Json.reference firstStore modprobePayload .manual noReason 0) := by
    rcases (put_effect third_put).other _ payloadIds_ne with hsame | ⟨_, _, snap, hsnap, hauto⟩
    · rw [hsame, hsecond]
    · rw [hsecond] at hsnap
      rw [← Option.some.inj hsnap] at hauto
      exact absurd hauto (by simp)
  rw [cyclicStore_run]
  have hup : ParentLink Json.reference cyclicStore (payloadId Json.reference emptyPayload)
      (payloadId Json.reference modprobePayload) := by
    refine ⟨_, hempty, ?_⟩
    rw [putSnapshot_parent, hhead]
  have hdown : ParentLink Json.reference cyclicStore (payloadId Json.reference modprobePayload)
      (payloadId Json.reference emptyPayload) := by
    refine ⟨_, hmodprobe, ?_⟩
    rw [putSnapshot_parent, firstStore_history.1]
  exact .tail (.single hup) hdown

end DevMgr.Daemon
