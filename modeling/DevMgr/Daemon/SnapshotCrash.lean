import DevMgr.Daemon.Durability
import DevMgr.Daemon.SnapshotFormats
import DevMgr.Daemon.SnapshotPruning

/-!
# A crash in a put

A put writes the document, moves `HEAD` and prunes, each step behind the directory sync of
the one before. At a crash the store is at the end of one of the three: the document may be
there, then `HEAD` may name it, then files behind the bound may be missing. Each of these
is a store from which the same put goes on to the same `HEAD`.
-/

open DevMgr.Core

namespace DevMgr.Daemon
open Bytes

section Ops
variable (J : Json.Codec) (e : Env) (d : Directory)

def pruneOps : List SnapshotMeta → ℕ → List DiskOp
  | [], _ => []
  | m :: ms, autosSeen =>
    if m.health ≠ .ok ∨ m.trigger ≠ .auto then pruneOps ms autosSeen
    else if autosSeen + 1 ≤ kKeepAutoSnapshots then pruneOps ms (autosSeen + 1)
    else if e.unlinkError (snapshotFileName m.id) = none then
      .unlink (snapshotFileName m.id) :: pruneOps ms (autosSeen + 1)
    else pruneOps ms (autosSeen + 1)

def pruneLockedOps : List DiskOp :=
  pruneOps e (orderNewestFirst (scanLocked J e d).1 (headLocked d)) 0

def putHeadOps (headId : Option Str) (id : Str) (isNew : Bool) : List DiskOp :=
  if headId ≠ some id then
    writeOps e.headWrite (str "HEAD") (headContent id) ++
      match atomicWriteFile e e.headWrite d (str "HEAD") (headContent id) with
      | (.error _, _) => []
      | (.ok (), d') => if isNew then pruneLockedOps J e d' else []
  else if isNew then pruneLockedOps J e d else []

def putOps (payload : SnapshotPayload) (trigger : SnapshotTrigger) (reason : SnapshotReason)
    (createdAtUtc : Int64) : List DiskOp :=
  let id := payloadId J payload
  let headId := headLocked d
  if headId = some id then []
  else if snapshotFileName id ∈ d then putHeadOps J e d headId id false
  else
    let doc := snapshotDocument id headId payload trigger reason createdAtUtc
    writeOps e.docWrite (snapshotFileName id) (J.dumpIndented doc) ++
      match atomicWriteFile e e.docWrite d (snapshotFileName id) (J.dumpIndented doc) with
      | (.error _, _) => []
      | (.ok (), d') => putHeadOps J e d' headId id true

/-- The disk at a crash after `k` operations of a put. -/
def putCrashed (payload : SnapshotPayload) (trigger : SnapshotTrigger) (reason : SnapshotReason)
    (createdAtUtc : Int64) (k : ℕ) : Volume :=
  Disk.run ((putOps J e d payload trigger reason createdAtUtc).take k)
    (.rest fun name : Str => d[name]?)

def Undamaged : Prop :=
  ∀ id, snapshotFileName id ∈ d →
  ∀ what, inspect J id (parseFile J d (snapshotFileName id)) ≠ .damaged what

def HeadReadable : Prop := ∀ id, headLocked d = some id → ∃ snap, stored J d id = some snap

end Ops

section Restart
variable (J : Json.Codec) (e : Env) (d : Directory) (payload : SnapshotPayload)
  (trigger : SnapshotTrigger) (reason : SnapshotReason) (createdAtUtc : Int64)

def MayPrune (id : Str) : Prop :=
  snapshotFileName (payloadId J payload) ∉ d ∧
    id ∈ surplus J e (published J d payload trigger reason createdAtUtc)

/-- A listed row is that of a file as it was before, or the complete new document's. -/
def WholeRow (left : Directory) (row : SnapshotMeta) : Prop :=
  ∃ name ∈ left, rowOfName J left name = some row ∧
    (left[name]? = d[name]? ∨ name = snapshotFileName (payloadId J payload) ∧
      stored J left (payloadId J payload) =
        some (putSnapshot J d payload trigger reason createdAtUtc))

structure Consistent (left : Directory) : Prop where
  head : headLocked left = headLocked d ∨ headLocked left = some (payloadId J payload)
  readable : HeadReadable J left
  kept : ∀ id snap, stored J d id = some snap →
    stored J left id = some snap ∨ MayPrune J e d payload trigger reason createdAtUtc id
  undamaged : Undamaged J left
  rows : ∀ e' row, row ∈ (list J e' left).1 →
      WholeRow J d payload trigger reason createdAtUtc left row
  again : ∀ e', e'.docWrite = none → e'.headWrite = none → ∃ d₁ d₂,
    put J e' d payload trigger reason createdAtUtc = .ok (.ok (payloadId J payload), d₁) ∧
    put J e' left payload trigger reason createdAtUtc = .ok (.ok (payloadId J payload), d₂) ∧
    headLocked d₂ = headLocked d₁

/-- Whatever a crash leaves of the store is consistent, wherever a put is cut off or fails. -/
def CrashConsistent : Prop :=
  ∀ e k left,
    (putCrashed J e d payload trigger reason createdAtUtc k).Survives
      (fun name : Str => left[name]?) →
    Consistent J e d payload trigger reason createdAtUtc left

end Restart

def durable (content : Option Str) : Option (Disk.File Str) := content.map (⟨·, true⟩)

theorem durable_leaves {content left : Option Str} (h : Disk.Leaves (durable content) left) :
    left = content := by
  cases content with
  | none =>
    cases h
    rfl
  | some c =>
    cases h
    rfl

def Ordinary (file name : Str) : Prop := ¬ Skipped name ∧ name ≠ file

section Phases
variable (d : Directory) (file : Str) (document : Option Str) (id : Str) (Gone : Str → Prop)

structure Writing (disk : Volume) : Prop where
  ordinary : ∀ name, Ordinary file name → disk.Within (· = durable d[name]?) name
  head : disk.Within (· = durable d[str "HEAD"]?) (str "HEAD")
  file : disk.Within (fun b => b = durable d[file]? ∨ b = durable document) file

structure Moving (disk : Volume) : Prop where
  ordinary : ∀ name, Ordinary file name → disk.Within (· = durable d[name]?) name
  head : disk.Within (fun b => b = durable d[str "HEAD"]? ∨ b = durable (some (headContent id)))
      (str "HEAD")
  file : disk.Within (· = durable document) file

structure Pruning (disk : Volume) : Prop where
  ordinary : ∀ name, Ordinary file name →
    disk.Within (fun b => b = durable d[name]? ∨ b = none ∧ Gone name) name
  head : disk.Within (· = durable (some (headContent id))) (str "HEAD")
  file : disk.Within (· = durable document) file

def WritePhase (disk : Volume) : Prop :=
  Writing d file document disk ∨ Moving d file document id disk ∨
  Pruning d file document id Gone disk

end Phases

section Stages
variable {d : Directory} {file : Str} {document : Option Str} {id content : Str} {Gone : Str → Prop}
  {disk : Volume}

theorem Ordinary.ne_head {name : Str} (h : Ordinary file name) : name ≠ str "HEAD" :=
  fun heq => h.1 (.inl heq)

theorem Ordinary.ne_tmp {name : Str} (h : Ordinary file name) (other : Str) :
    name ≠ tmpName other :=
  fun heq => h.1 (.inr ⟨other, heq.symm⟩)

theorem writing_rest : Writing d file document (.rest fun name : Str => d[name]?) :=
  ⟨fun _ _ => Disk.within_rest.mpr rfl, Disk.within_rest.mpr rfl,
    Disk.within_rest.mpr (.inl rfl)⟩

theorem moving_rest : Moving d file d[file]? id (.rest fun name : Str => d[name]?) :=
  ⟨fun _ _ => Disk.within_rest.mpr rfl, Disk.within_rest.mpr (.inl rfl),
    Disk.within_rest.mpr rfl⟩

theorem along_document (fault : Option WriteFault) (hfile : ¬ Skipped file)
    (h : Writing d file (some content) disk) :
    Disk.Along (Writing d file (some content)) (writeOps fault file content) disk := by
  have hhead : str "HEAD" ≠ file := fun heq => hfile (.inl heq.symm)
  have hordinary : Disk.Along (fun disk => ∀ name, Ordinary file name →
      disk.Within (· = durable d[name]?) name)
      (writeOps fault file content) disk := by
    refine Disk.along_forall.mpr fun name => Disk.along_forall.mpr fun hname => ?_
    exact Disk.along_untouched (untouched_write fault hname.2 (hname.ne_tmp file))
      (h.ordinary name hname)
  have hkept :=
    Disk.along_untouched (@untouched_write _ _ content fault hhead (head_ne_tmp file)) h.head
  have hnew := @along_write _ _ _ content fault h.file (.inr rfl)
  exact (hordinary.and (hkept.and hnew)).imp fun _ ⟨h₁, h₂, h₃⟩ => ⟨h₁, h₂, h₃⟩

theorem moving_of_written (hfile : ¬ Skipped file) (h : Writing d file (some content) disk) :
    Moving d file (some content) id (Disk.run (writeOps none file content) disk) := by
  obtain ⟨hordinary, hhead, _⟩ := (along_document none hfile h).last
  refine ⟨hordinary, hhead.imp fun _ => .inl, ?_⟩
  exact (settled_write content).imp fun _ hb => hb.trans (now_write ..)

theorem along_head (fault : Option WriteFault) (hfile : ¬ Skipped file)
    (h : Moving d file document id disk) :
    Disk.Along (Moving d file document id) (writeOps fault (str "HEAD") (headContent id)) disk := by
  have hne : file ≠ str "HEAD" := fun heq => hfile (.inl heq)
  have htmp : file ≠ tmpName (str "HEAD") := fun heq => hfile (.inr ⟨str "HEAD", heq.symm⟩)
  have hordinary : Disk.Along (fun disk => ∀ name, Ordinary file name →
      disk.Within (· = durable d[name]?) name)
      (writeOps fault (str "HEAD") (headContent id)) disk := by
    refine Disk.along_forall.mpr fun name => Disk.along_forall.mpr fun hname => ?_
    exact Disk.along_untouched (untouched_write fault hname.ne_head (hname.ne_tmp _))
      (h.ordinary name hname)
  have hkept := Disk.along_untouched (@untouched_write _ _ (headContent id) fault hne htmp) h.file
  have hnew := @along_write _ _ _ (headContent id) fault h.head (.inr rfl)
  exact (hordinary.and (hnew.and hkept)).imp fun _ ⟨h₁, h₂, h₃⟩ => ⟨h₁, h₂, h₃⟩

theorem pruning_of_moved (hfile : ¬ Skipped file) (h : Moving d file document id disk) :
    Pruning d file document id Gone
      (Disk.run (writeOps none (str "HEAD") (headContent id)) disk) := by
  obtain ⟨hordinary, _, hdocument⟩ := (along_head none hfile h).last
  refine ⟨fun name hname => (hordinary name hname).imp fun _ => .inl, ?_, hdocument⟩
  exact (settled_write (headContent id)).imp fun _ hb => hb.trans (now_write ..)

theorem along_unlinks {ops : List DiskOp}
    (hops : ∀ op ∈ ops, ∃ name, op = .unlink name ∧ Ordinary file name ∧ Gone name)
    (h : Pruning d file document id Gone disk) :
    Disk.Along (Pruning d file document id Gone) ops disk := by
  induction ops generalizing disk with
  | nil => exact h
  | cons op ops ih =>
    obtain ⟨⟨gone, rfl, hgone, hentitled⟩, hlater⟩ := List.forall_mem_cons.mp hops
    refine ⟨h, ih hlater ⟨fun name hname => ?_, ?_, ?_⟩⟩
    · by_cases heq : name = gone
      · subst heq
        exact Disk.within_unlink (h.ordinary name hname) (.inr ⟨rfl, hentitled⟩)
      · exact (@Disk.apply_untouched _ _ _ _ _ _ (.unlink gone) (Ne.symm heq)).2
          (h.ordinary name hname)
    · exact (@Disk.apply_untouched _ _ _ _ _ _ (.unlink gone) hgone.ne_head).2 h.head
    · exact (@Disk.apply_untouched _ _ _ _ _ _ (.unlink gone) hgone.2).2 h.file

end Stages

section Put
variable {J : Json.Codec} {e : Env} {d left : Directory} {payload : SnapshotPayload}
  {trigger : SnapshotTrigger} {reason : SnapshotReason} {createdAtUtc : Int64}

theorem mem_pruneOps {op : DiskOp} (rows : List SnapshotMeta) (n : ℕ) (h : op ∈ pruneOps e rows n) :
    ∃ m ∈ (rows.filter AutoRow).drop (kKeepAutoSnapshots - n), op = .unlink
      (snapshotFileName m.id) := by
  induction rows generalizing n with
  | nil => exact absurd h List.not_mem_nil
  | cons m ms ih =>
    rw [pruneOps] at h
    by_cases hauto : AutoRow m
    · rw [if_neg (by rintro (h | h); exacts [h hauto.1, h hauto.2])] at h
      rw [List.filter_cons_of_pos (by simpa using hauto)]
      by_cases hkeep : n + 1 ≤ kKeepAutoSnapshots
      · have hdrop : kKeepAutoSnapshots - n = (kKeepAutoSnapshots - (n + 1)) + 1 := by omega
        rw [if_pos hkeep] at h
        rw [hdrop, List.drop_succ_cons]
        exact ih (n + 1) h
      · have hdrop : kKeepAutoSnapshots - n = 0 := by omega
        have hdrop' : kKeepAutoSnapshots - (n + 1) = 0 := by omega
        rw [if_neg hkeep] at h
        rw [hdrop, List.drop_zero]
        have hlater : op ∈ pruneOps e ms (n + 1) → _ := ih (n + 1)
        rw [hdrop', List.drop_zero] at hlater
        have hgone : op = .unlink (snapshotFileName m.id) ∨ op ∈ pruneOps e ms (n + 1) := by
          split_ifs at h
          · exact List.mem_cons.mp h
          · exact .inr h
        rcases hgone with rfl | hop
        · exact ⟨m, List.mem_cons_self, rfl⟩
        · obtain ⟨m', hm', hop⟩ := hlater hop
          exact ⟨m', List.mem_cons_of_mem _ hm', hop⟩
    · have hexempt : m.health ≠ .ok ∨ m.trigger ≠ .auto := by
        by_contra hnot
        exact hauto (by simpa [AutoRow] using hnot)
      rw [if_pos hexempt] at h
      rw [List.filter_cons_of_neg (by simpa using hauto)]
      exact ih n h

theorem mem_pruneLockedOps {op : DiskOp} (h : op ∈ pruneLockedOps J e d) :
    ∃ id ∈ surplus J e d, op = .unlink (snapshotFileName id) := by
  rw [pruneLockedOps, (scanLocked_rows e d).1, ← (list_rows e d).1] at h
  obtain ⟨m, hm, rfl⟩ := mem_pruneOps _ 0 h
  exact ⟨m.id, List.mem_map.mpr ⟨m, hm, rfl⟩, rfl⟩

def finalDocument (J : Json.Codec) (d : Directory) (payload : SnapshotPayload)
    (trigger : SnapshotTrigger) (reason : SnapshotReason) (createdAtUtc : Int64) : Option Str :=
  if snapshotFileName (payloadId J payload) ∈ d then d[snapshotFileName (payloadId J payload)]?
  else some (J.dumpIndented (putDocument J d payload trigger reason createdAtUtc))

def PrunedName (J : Json.Codec) (e : Env) (d : Directory) (payload : SnapshotPayload)
    (trigger : SnapshotTrigger) (reason : SnapshotReason) (createdAtUtc : Int64)
    (name : Str) : Prop :=
  ∃ id, name = snapshotFileName id ∧ MayPrune J e d payload trigger reason createdAtUtc id

abbrev PutPhase (J : Json.Codec) (e : Env) (d : Directory) (payload : SnapshotPayload)
    (trigger : SnapshotTrigger) (reason : SnapshotReason) (createdAtUtc : Int64) : Volume → Prop :=
  WritePhase d (snapshotFileName (payloadId J payload))
    (finalDocument J d payload trigger reason createdAtUtc)
    (payloadId J payload) (PrunedName J e d payload trigger reason createdAtUtc)

theorem phase_writing {file : Str} {document : Option Str} {id : Str} {Gone : Str → Prop}
    {disk : Volume} {ops : List DiskOp} (h : Disk.Along (Writing d file document) ops disk) :
    Disk.Along (WritePhase d file document id Gone) ops disk := h.imp fun _ => .inl

theorem phase_moving {file : Str} {document : Option Str} {id : Str} {Gone : Str → Prop}
    {disk : Volume} {ops : List DiskOp} (h : Disk.Along (Moving d file document id) ops disk) :
    Disk.Along (WritePhase d file document id Gone) ops disk := h.imp fun _ => .inr ∘ .inl

theorem phase_pruning {file : Str} {document : Option Str} {id : Str} {Gone : Str → Prop}
    {disk : Volume} {ops : List DiskOp}
    (h : Disk.Along (Pruning d file document id Gone) ops disk) :
    Disk.Along (WritePhase d file document id Gone) ops disk := h.imp fun _ => .inr ∘ .inr

theorem along_putHead {isNew : Bool} {disk : Volume} {d' : Directory}
    (hne : headLocked d ≠ some (payloadId J payload))
    (hprune : isNew = true →
      ∀ op ∈ pruneLockedOps J e (renamed d' (str "HEAD") (headContent (payloadId J payload))),
      ∃ name, op = .unlink name ∧ Ordinary (snapshotFileName (payloadId J payload)) name ∧
        PrunedName J e d payload trigger reason createdAtUtc name)
    (h : Moving d (snapshotFileName (payloadId J payload))
      (finalDocument J d payload trigger reason createdAtUtc)
      (payloadId J payload) disk) :
    Disk.Along (PutPhase J e d payload trigger reason createdAtUtc)
      (putHeadOps J e d' (headLocked d) (payloadId J payload) isNew) disk := by
  have hskip := not_skipped_file (payloadId J payload)
  have hmoving := @phase_moving _ _ _ _ (PrunedName J e d payload trigger reason createdAtUtc) _ _
    (along_head e.headWrite hskip h)
  rw [putHeadOps, if_pos hne]
  refine Disk.along_append.mpr ⟨hmoving, ?_⟩
  cases hwrite : e.headWrite with
  | some fault =>
    obtain ⟨error, d'', herror⟩ := atomicWriteFile_fault (e := e) fault d' (str "HEAD")
      (headContent (payloadId J payload))
    rw [herror]
    rw [hwrite] at hmoving
    exact hmoving.last
  | none =>
    have hpruning :=
      @pruning_of_moved _ _ _ _ (PrunedName J e d payload trigger reason createdAtUtc) _ hskip h
    have hwritten : atomicWriteFile e none d' (str "HEAD") (headContent (payloadId J payload)) =
        (.ok (), renamed d' (str "HEAD") (headContent (payloadId J payload))) := rfl
    rw [hwritten]
    dsimp only
    split_ifs with hnew
    · exact phase_pruning (along_unlinks (hprune hnew) hpruning)
    · exact .inr (.inr hpruning)

theorem prunes_ordinary (hmem : snapshotFileName (payloadId J payload) ∉ d) :
    ∀ op ∈ pruneLockedOps J e (published J d payload trigger reason createdAtUtc),
      ∃ name, op = .unlink name ∧ Ordinary (snapshotFileName (payloadId J payload)) name ∧
        PrunedName J e d payload trigger reason createdAtUtc name := by
  intro op hop
  obtain ⟨id, hid, rfl⟩ := mem_pruneLockedOps hop
  refine ⟨_, rfl, ⟨not_skipped_file id, ?_⟩, id, rfl, hmem, hid⟩
  intro heq
  obtain rfl := snapshotFileName_inj.mp heq
  exact surplus_ne_head hid (headLocked_renamed payload _)

theorem along_put :
    Disk.Along (PutPhase J e d payload trigger reason createdAtUtc)
      (putOps J e d payload trigger reason createdAtUtc) (.rest fun name : Str => d[name]?) := by
  have hskip := not_skipped_file (payloadId J payload)
  rw [putOps]
  dsimp only
  split_ifs with hhead hmem
  · exact .inl writing_rest
  · refine along_putHead hhead (fun h => absurd h Bool.false_ne_true) ?_
    rw [finalDocument, if_pos hmem]
    exact moving_rest
  · have hdocument : finalDocument J d payload trigger reason createdAtUtc =
        some (J.dumpIndented (putDocument J d payload trigger reason createdAtUtc)) := if_neg hmem
    have hwriting :=
      @along_document d _ (J.dumpIndented (putDocument J d payload trigger reason createdAtUtc)) _
        e.docWrite hskip writing_rest
    rw [PutPhase, hdocument]
    refine Disk.along_append.mpr ⟨phase_writing hwriting, ?_⟩
    cases hwrite : e.docWrite with
    | some fault =>
      obtain ⟨error, d'', herror⟩ := atomicWriteFile_fault (e := e) fault d
        (snapshotFileName (payloadId J payload))
        (J.dumpIndented (putDocument J d payload trigger reason createdAtUtc))
      rw [putDocument] at herror
      rw [herror]
      rw [hwrite] at hwriting
      exact .inl hwriting.last
    | none =>
      have hmoving := @moving_of_written d _ (payloadId J payload)
        (J.dumpIndented (putDocument J d payload trigger reason createdAtUtc)) _ hskip writing_rest
      rw [← hdocument] at hmoving ⊢
      exact along_putHead hhead (fun _ => prunes_ordinary hmem) hmoving

end Put

structure Restarted (d : Directory) (file : Str) (document : Option Str) (id : Str)
    (Gone : Str → Prop) (left : Directory) : Prop where
  head : left[str "HEAD"]? = d[str "HEAD"]? ∨
    left[str "HEAD"]? = some (headContent id) ∧ left[file]? = document
  document : left[file]? = d[file]? ∨ left[file]? = document
  ordinary : ∀ name, Ordinary file name → left[name]? = d[name]? ∨
    left[name]? = none ∧ Gone name ∧ left[str "HEAD"]? = some (headContent id)

theorem restarted_of_phase {d left : Directory} {file id : Str} {document : Option Str}
    {Gone : Str → Prop} {disk : Volume} (h : WritePhase d file document id Gone disk)
    (hleft : disk.Survives fun name : Str => left[name]?) :
    Restarted d file document id Gone left := by
  rcases h with h | h | h
  · refine ⟨.inl ?_, ?_, fun name hname => .inl ?_⟩
    · obtain ⟨_, rfl, hleaves⟩ := hleft.leaves h.head
      exact durable_leaves hleaves
    · obtain ⟨_, rfl | rfl, hleaves⟩ := hleft.leaves h.file
      · exact .inl (durable_leaves hleaves)
      · exact .inr (durable_leaves hleaves)
    · obtain ⟨_, rfl, hleaves⟩ := hleft.leaves (h.ordinary name hname)
      exact durable_leaves hleaves
  · obtain ⟨_, rfl, hfile⟩ := hleft.leaves h.file
    refine ⟨?_, .inr (durable_leaves hfile), fun name hname => .inl ?_⟩
    · obtain ⟨_, rfl | rfl, hleaves⟩ := hleft.leaves h.head
      · exact .inl (durable_leaves hleaves)
      · exact .inr ⟨durable_leaves hleaves, durable_leaves hfile⟩
    · obtain ⟨_, rfl, hleaves⟩ := hleft.leaves (h.ordinary name hname)
      exact durable_leaves hleaves
  · obtain ⟨_, rfl, hfile⟩ := hleft.leaves h.file
    obtain ⟨_, rfl, hhead⟩ := hleft.leaves h.head
    refine ⟨.inr ⟨durable_leaves hhead, durable_leaves hfile⟩, .inr (durable_leaves hfile),
      fun name hname => ?_⟩
    obtain ⟨_, rfl | ⟨rfl, hgone⟩, hleaves⟩ := hleft.leaves (h.ordinary name hname)
    · exact .inl (durable_leaves hleaves)
    · exact .inr ⟨@durable_leaves none _ hleaves, hgone, durable_leaves hhead⟩

section Consistent
variable {J : Json.Codec} {e : Env} {d left : Directory} {payload : SnapshotPayload}
  {trigger : SnapshotTrigger} {reason : SnapshotReason} {createdAtUtc : Int64}

/-- A put of text that fits the gate into a store it may start from. -/
structure PutReady (J : Json.Codec) (d : Directory) (payload : SnapshotPayload)
    (trigger : SnapshotTrigger) (reason : SnapshotReason) (createdAtUtc : Int64) : Prop where
  head : HeadReadable J d
  undamaged : Undamaged J d
  payloadText : (payloadToJson payload).isText = true
  reasonText : validUtf8 reason.verb = true ∧ validUtf8 reason.subject = true
  fits : FitsGate J d payload trigger reason createdAtUtc

theorem HeadReadable.text (h : HeadReadable J d) (id : Str) (hid : headLocked d = some id) :
    validUtf8 id = true := by
  obtain ⟨snap, hsnap⟩ := h id hid
  rw [← stored_hash hsnap]
  exact digest_text _

theorem stored_final (hs : PutReady J d payload trigger reason createdAtUtc)
    (hmem : snapshotFileName (payloadId J payload) ∉ d)
    (hfile : left[snapshotFileName (payloadId J payload)]? =
      finalDocument J d payload trigger reason createdAtUtc) :
    stored J left (payloadId J payload) =
      some (putSnapshot J d payload trigger reason createdAtUtc) := by
  have htext : (putDocument J d payload trigger reason createdAtUtc).isText = true :=
    snapshotDocument_text (digest_text _) hs.head.text hs.payloadText hs.reasonText
  rw [finalDocument, if_neg hmem] at hfile
  have hfits := hs.fits
  rw [FitsGate, putDocument] at hfits
  rw [stored_document htext rfl hfile, if_pos hfits]
  rfl

section Left
variable (hs : PutReady J d payload trigger reason createdAtUtc)
  (hleft : Restarted d (snapshotFileName (payloadId J payload))
    (finalDocument J d payload trigger reason createdAtUtc) (payloadId J payload)
    (PrunedName J e d payload trigger reason createdAtUtc) left)
include hs hleft

theorem document_left :
    left[snapshotFileName (payloadId J payload)]? = d[snapshotFileName (payloadId J payload)]? ∨
    snapshotFileName (payloadId J payload) ∉ d ∧
      stored J left (payloadId J payload) =
        some (putSnapshot J d payload trigger reason createdAtUtc) := by
  by_cases hmem : snapshotFileName (payloadId J payload) ∈ d
  · refine .inl ?_
    have hfinal : finalDocument J d payload trigger reason createdAtUtc =
        d[snapshotFileName (payloadId J payload)]? := if_pos hmem
    rcases hleft.document with h | h
    · exact h
    · exact h.trans hfinal
  · rcases hleft.document with h | h
    · exact .inl h
    · exact .inr ⟨hmem, stored_final hs hmem h⟩

theorem stored_left {id : Str} {snap : Snapshot} (h : stored J d id = some snap) :
    stored J left id = some snap ∨ MayPrune J e d payload trigger reason createdAtUtc id ∧
      left[str "HEAD"]? = some (headContent (payloadId J payload)) := by
  by_cases hid : id = payloadId J payload
  · subst hid
    rcases document_left hs hleft with hsame | ⟨hmem, _⟩
    · exact .inl ((stored_congr hsame).trans h)
    · exact absurd (mem_of_stored h) hmem
  · have hordinary : Ordinary (snapshotFileName (payloadId J payload)) (snapshotFileName id) :=
      ⟨not_skipped_file id, snapshotFileName_inj.not.mpr hid⟩
    rcases hleft.ordinary _ hordinary with hsame | ⟨_, ⟨id', hname, hprune⟩, hhead⟩
    · exact .inl ((stored_congr hsame).trans h)
    · obtain rfl := snapshotFileName_inj.mp hname
      exact .inr ⟨hprune, hhead⟩

omit hs in
theorem headLocked_left : headLocked left = headLocked d ∨
    headLocked left = some (payloadId J payload) ∧
    left[snapshotFileName (payloadId J payload)]? =
      finalDocument J d payload trigger reason createdAtUtc := by
  rcases hleft.head with h | ⟨h, hdocument⟩
  · exact .inl (headLocked_congr h)
  · exact .inr ⟨headLocked_headContent h, hdocument⟩

theorem undamaged_left : Undamaged J left := by
  intro id hmem what
  by_cases hid : id = payloadId J payload
  · subst hid
    rcases document_left hs hleft with hsame | ⟨_, hstored⟩
    · rw [parseFile_congr hsame]
      exact hs.undamaged _ ((mem_congr hsame).mp hmem) what
    · rw [stored_inspect hstored]
      exact nofun
  · have hordinary : Ordinary (snapshotFileName (payloadId J payload)) (snapshotFileName id) :=
      ⟨not_skipped_file id, snapshotFileName_inj.not.mpr hid⟩
    rcases hleft.ordinary _ hordinary with hsame | ⟨hgone, _⟩
    · rw [parseFile_congr hsame]
      exact hs.undamaged _ ((mem_congr hsame).mp hmem) what
    · rw [Std.ExtTreeMap.mem_iff_isSome_getElem?, hgone] at hmem
      exact absurd hmem (by simp)

theorem row_left {e' : Env} {row : SnapshotMeta} (h : row ∈ (list J e' left).1) :
    WholeRow J d payload trigger reason createdAtUtc left row := by
  rw [(list_rows e' left).1] at h
  obtain ⟨name, hmem, hrow⟩ := mem_rows.mp (mem_of_mem_order h)
  refine ⟨name, hmem, hrow, ?_⟩
  by_cases hname : name = snapshotFileName (payloadId J payload)
  · subst hname
    rcases document_left hs hleft with hsame | ⟨_, hstored⟩
    · exact .inl hsame
    · exact .inr ⟨rfl, hstored⟩
  · have hskip : ¬ Skipped name := by
      intro hskip
      rw [rowOfName, if_pos hskip] at hrow
      exact absurd hrow (by simp)
    rcases hleft.ordinary name ⟨hskip, hname⟩ with hsame | ⟨hgone, _⟩
    · exact .inl hsame
    · rw [Std.ExtTreeMap.mem_iff_isSome_getElem?, hgone] at hmem
      exact absurd hmem (by simp)

theorem readable_left (hfound : snapshotFileName (payloadId J payload) ∈ d →
    ∃ snap, stored J d (payloadId J payload) = some snap) : HeadReadable J left := by
  intro id hid
  rcases headLocked_left hleft with hsame | ⟨hmoved, hdocument⟩
  · obtain ⟨snap, hsnap⟩ := hs.head id (hsame.symm.trans hid)
    rcases stored_left hs hleft hsnap with hkept | ⟨⟨hmem, _⟩, hhead⟩
    · exact ⟨snap, hkept⟩
    · -- a deletion only happens once `HEAD` names the payload, which had no file before
      have hmoved : headLocked left = some (payloadId J payload) := headLocked_headContent hhead
      obtain rfl : payloadId J payload = id := Option.some.inj (hmoved.symm.trans hid)
      exact absurd (mem_of_stored hsnap) hmem
  · obtain rfl : payloadId J payload = id := Option.some.inj (hmoved.symm.trans hid)
    by_cases hmem : snapshotFileName (payloadId J payload) ∈ d
    · obtain ⟨snap, hsnap⟩ := hfound hmem
      refine ⟨snap, (stored_congr ?_).trans hsnap⟩
      rw [hdocument, finalDocument, if_pos hmem]
    · exact ⟨_, stored_final hs hmem hdocument⟩

theorem again_left (hfound : snapshotFileName (payloadId J payload) ∈ d →
    ∃ snap, stored J d (payloadId J payload) = some snap) {e' : Env}
    (hdisk : e'.docWrite = none ∧ e'.headWrite = none) :
    ∃ d₁ d₂, put J e' d payload trigger reason createdAtUtc = .ok
      (.ok (payloadId J payload), d₁) ∧
      put J e' left payload trigger reason createdAtUtc = .ok (.ok (payloadId J payload), d₂) ∧
      headLocked d₂ = headLocked d₁ := by
  obtain ⟨d₁, hfirst⟩ :=
    @put_succeeds _ _ _ _ trigger _ createdAtUtc hdisk hs.payloadText hs.head.text
      hs.reasonText
  obtain ⟨d₂, hagain⟩ := @put_succeeds _ _ _ _ trigger _ createdAtUtc hdisk hs.payloadText
    (readable_left hs hleft hfound).text hs.reasonText
  exact ⟨d₁, d₂, hfirst, hagain, (put_ok hagain).2.1.trans (put_ok hfirst).2.1.symm⟩

end Left

theorem crashConsistent_of_found (hs : PutReady J d payload trigger reason createdAtUtc)
    (hfound : snapshotFileName (payloadId J payload) ∈ d →
      ∃ snap, stored J d (payloadId J payload) = some snap) :
    CrashConsistent J d payload trigger reason createdAtUtc := by
  intro e k left hsurvives
  have hleft := restarted_of_phase ((along_put (e := e)).take k) hsurvives
  exact {
    head := (headLocked_left hleft).imp_right And.left
    readable := readable_left hs hleft hfound
    kept := fun id snap h => (stored_left hs hleft h).imp_right And.left
    undamaged := undamaged_left hs hleft
    rows := fun e' row h => row_left hs hleft h
    again := fun e' hdoc hhead => again_left hs hleft hfound ⟨hdoc, hhead⟩ }

theorem shows_pruneRows (rows : List SnapshotMeta) (n : ℕ) {disk : Volume} (h : Shows disk d) :
    Shows (Disk.run (pruneOps e rows n) disk) (pruneRows e rows n d) := by
  induction rows generalizing n d disk with
  | nil => exact h
  | cons m ms ih =>
    rw [pruneOps, pruneRows]
    split_ifs with hexempt hkeep herror
    · exact ih n h
    · exact ih (n + 1) h
    · rw [unlink, herror]
      exact ih (n + 1) (shows_unlink h)
    · obtain ⟨message, hmessage⟩ := Option.ne_none_iff_exists'.mp herror
      rw [unlink, hmessage]
      exact ih (n + 1) h

theorem scanNames_undamaged (h : Undamaged J d) (names : List Str) :
    (scanNames J e names d).2 = d := by
  have hread : ∀ id, (readLocked J e d id).2 = d := by
    intro id
    by_cases hmem : snapshotFileName id ∈ d
    · rcases readLocked_cases J e d id with
        ⟨_, _, hread⟩ | ⟨_, _, _, hread⟩ | ⟨what, hwhat, _⟩
      · rw [hread]
      · rw [hread]
      · exact absurd hwhat (h id hmem what)
    · rw [readLocked, if_pos hmem]
  have hname : ∀ name, (scanName J e d name).2 = d := by
    intro name
    rw [scanName]
    split_ifs with hskip hbad hjson
    · rfl
    · rfl
    · exact (scanOneLocked_row e d _).2.trans (hread _)
    · rfl
  induction names with
  | nil => rfl
  | cons name names ih => simp only [scanNames, hname, ih]

theorem shows_pruneLocked (h : Undamaged J d) {disk : Volume} (hshows : Shows disk d) :
    Shows (Disk.run (pruneLockedOps J e d) disk) (pruneLocked J e d) := by
  have hscan : (scanLocked J e d).2 = d := scanNames_undamaged h _
  have hprune : pruneLocked J e d =
      pruneRows e (orderNewestFirst (scanLocked J e d).1 (headLocked d)) 0 (scanLocked J e d).2 :=
        rfl
  rw [hprune, hscan]
  exact shows_pruneRows _ 0 hshows

theorem undamaged_published (hs : PutReady J d payload trigger reason createdAtUtc)
    (hmem : snapshotFileName (payloadId J payload) ∉ d) :
    Undamaged J (published J d payload trigger reason createdAtUtc) := by
  have hdocument :
      (published J d payload trigger reason createdAtUtc)[snapshotFileName (payloadId J payload)]? =
      finalDocument J d payload trigger reason createdAtUtc := by
    rw [published, renamed_other (snapshotFileName_ne_head _) (snapshotFileName_ne_tmp _ _),
      written,
      renamed_self, finalDocument, if_neg hmem]
  have hleft : Restarted d (snapshotFileName (payloadId J payload))
      (finalDocument J d payload trigger reason createdAtUtc) (payloadId J payload)
      (PrunedName J .quiet d payload trigger reason createdAtUtc)
      (published J d payload trigger reason createdAtUtc) := by
    refine ⟨.inr ⟨renamed_self _ _, hdocument⟩, .inr hdocument, fun name hname => .inl ?_⟩
    rw [published, renamed_other hname.ne_head (hname.ne_tmp _), written,
      renamed_other hname.2 (hname.ne_tmp _)]
  exact undamaged_left hs hleft

theorem shows_putHead {id : Str} {headId : Option Str} {isNew : Bool} {disk : Volume}
    (hprune : isNew = true → headId ≠ some id ∧
      Undamaged J (renamed d (str "HEAD") (headContent id)))
    (h : Shows disk d) :
    Shows (Disk.run (putHeadOps J e d headId id isNew) disk) (putHead J e headId id isNew d).2 := by
  have hwrite := @shows_write _ _ (headContent id) e e.headWrite (str "HEAD") h
  rw [putHeadOps, putHead]
  by_cases hhead : headId ≠ some id
  · rw [if_pos hhead, if_pos hhead, Disk.run_append]
    cases hfault : e.headWrite with
    | some fault =>
      obtain ⟨error, d', herror⟩ :=
        atomicWriteFile_fault (e := e) fault d (str "HEAD") (headContent id)
      rw [hfault, herror] at hwrite
      rw [herror]
      exact hwrite
    | none =>
      have hwritten : atomicWriteFile e none d (str "HEAD") (headContent id) =
          (.ok (), renamed d (str "HEAD") (headContent id)) := rfl
      rw [hfault, hwritten] at hwrite
      rw [hwritten]
      cases isNew with
      | false => exact hwrite
      | true => exact shows_pruneLocked (hprune rfl).2 hwrite
  · rw [if_neg hhead, if_neg hhead]
    cases isNew with
    | false => exact h
    | true => exact absurd (hprune rfl).1 hhead

theorem shows_put {result : Result Str} {d' : Directory}
    (hs : PutReady J d payload trigger reason createdAtUtc)
    (h : put J e d payload trigger reason createdAtUtc = .ok (result, d')) :
    Shows (Disk.run (putOps J e d payload trigger reason createdAtUtc)
      (.rest fun name : Str => d[name]?)) d' := by
  rw [put] at h
  rw [putOps]
  dsimp only at h ⊢
  split_ifs at h ⊢ with htext hhead hmem hdoc
  · obtain ⟨_, rfl⟩ := Prod.mk.inj (Except.ok.inj h)
    exact shows_rest d
  · have hput := @shows_putHead J e _ (payloadId J payload) (headLocked d) false _
        (fun h => absurd h Bool.false_ne_true)
      (shows_rest d)
    rw [Except.ok.inj h] at hput
    exact hput
  · rw [Disk.run_append]
    have hwrite := @shows_write _ _
      (J.dumpIndented
        (snapshotDocument (payloadId J payload) (headLocked d) payload trigger reason createdAtUtc))
      e e.docWrite (snapshotFileName (payloadId J payload)) (shows_rest d)
    cases hfault : e.docWrite with
    | some fault =>
      obtain ⟨error, d'', herror⟩ :=
        atomicWriteFile_fault (e := e) fault d (snapshotFileName (payloadId J payload))
          (J.dumpIndented (snapshotDocument (payloadId J payload)
            (headLocked d) payload trigger reason createdAtUtc))
      rw [hfault, herror] at h hwrite
      obtain ⟨_, rfl⟩ := Prod.mk.inj (Except.ok.inj h)
      rw [herror]
      exact hwrite
    | none =>
      have hwritten : atomicWriteFile e none d (snapshotFileName (payloadId J payload))
          (J.dumpIndented (snapshotDocument (payloadId J payload)
            (headLocked d) payload trigger reason createdAtUtc)) =
          (.ok (), written J d payload trigger reason createdAtUtc) := rfl
      rw [hfault, hwritten] at h hwrite
      rw [hwritten]
      have hput := @shows_putHead J e _ (payloadId J payload) (headLocked d) true _
        (fun _ => ⟨‹_›, undamaged_published hs hmem⟩) hwrite
      dsimp only at h
      rw [Except.ok.inj h] at hput
      exact hput

theorem found_of_crashConsistent (hs : PutReady J d payload trigger reason createdAtUtc)
    (h : CrashConsistent J d payload trigger reason createdAtUtc)
    (hmem : snapshotFileName (payloadId J payload) ∈ d) :
    ∃ snap, stored J d (payloadId J payload) = some snap := by
  obtain ⟨d', hput⟩ :=
    @put_succeeds _ .quiet _ _ trigger _ createdAtUtc ⟨rfl, rfl⟩ hs.payloadText
      hs.head.text hs.reasonText
  obtain ⟨_, hhead, hsame, _⟩ := put_ok hput
  have hshows := shows_put hs hput
  have hleft : (putCrashed J .quiet d payload trigger reason createdAtUtc
      (putOps J .quiet d payload trigger reason createdAtUtc).length).Survives (fun name : Str =>
        d'[name]?) := by
    simp only [← hshows _, putCrashed, List.take_length]
    exact Disk.survives_shows _
  obtain ⟨snap, hsnap⟩ := (h .quiet _ d' hleft).readable _ hhead
  exact ⟨snap, (hsame hmem).symm.trans hsnap⟩

theorem put_crash_consistent_iff (hs : PutReady J d payload trigger reason createdAtUtc) :
    CrashConsistent J d payload trigger reason createdAtUtc ↔
      (snapshotFileName (payloadId J payload) ∈ d →
        ∃ snap, stored J d (payloadId J payload) = some snap) :=
  ⟨found_of_crashConsistent hs, crashConsistent_of_found hs⟩

end Consistent

theorem ready_firstStore :
    PutReady Json.reference firstStore modprobePayload .manual noReason 0 where
  head id hid := by
    obtain ⟨hhead, hfirst, _⟩ := firstStore_history
    obtain rfl := Option.some.inj (hhead.symm.trans hid)
    exact ⟨_, hfirst⟩
  undamaged id hmem what hwhat := by
    obtain ⟨_, hfirst, honly⟩ := firstStore_history
    obtain rfl := honly id hmem
    rw [stored_inspect hfirst] at hwhat
    cases hwhat
  payloadText := modprobePayload_text
  reasonText := by decide
  fits := second_put_fits

theorem put_crash_consistent_second :
    CrashConsistent Json.reference firstStore modprobePayload .manual noReason 0 :=
  (put_crash_consistent_iff ready_firstStore).mpr fun hmem => absurd hmem second_put_new.2

def newerStore : Directory :=
  (∅ : Directory).insert (snapshotFileName (payloadId Json.reference emptyPayload))
    (versionText 2)

theorem newerStore_headless : headLocked newerStore = none := by
  simp [headLocked, newerStore, snapshotFileName_ne_head]

theorem newerStore_newer : inspect Json.reference (payloadId Json.reference emptyPayload)
    (parseFile Json.reference newerStore
      (snapshotFileName (payloadId Json.reference emptyPayload))) = .newer := by
  have hfits : ¬ kJsonMaxBytes < (versionText 2).length := by decide
  rw [parseFile, newerStore, Std.ExtTreeMap.getElem?_insert_self]
  dsimp only
  rw [if_neg hfits, versionText_parsed ⟨by decide, by decide⟩]
  rfl

theorem ready_newerStore : PutReady Json.reference newerStore emptyPayload .manual noReason 0 where
  head id hid := absurd hid (by simp [newerStore_headless])
  undamaged id hmem what hwhat := by
    have hid : id = payloadId Json.reference emptyPayload := by
      rcases Std.ExtTreeMap.mem_insert.mp hmem with heq | hnone
      · exact (snapshotFileName_inj.mp (Std.LawfulEqCmp.eq_of_compare heq)).symm
      · exact absurd hnone Std.ExtTreeMap.not_mem_empty
    rw [hid, newerStore_newer] at hwhat
    exact absurd hwhat (by simp)
  payloadText := emptyPayload_text
  reasonText := by decide
  fits := fits_of_small (by simp [newerStore_headless]) (by decide) (by decide)

theorem put_adopts_newer : PutReady Json.reference newerStore emptyPayload .manual noReason 0 ∧
    ¬ CrashConsistent Json.reference newerStore emptyPayload .manual noReason 0 := by
  refine ⟨ready_newerStore, fun h => ?_⟩
  obtain ⟨snap, hsnap⟩ := found_of_crashConsistent ready_newerStore h (by simp [newerStore])
  rw [stored, newerStore_newer] at hsnap
  exact absurd hsnap (by simp)

end DevMgr.Daemon
