import DevMgr.Core.SnapshotHistory
import DevMgr.Daemon.SnapshotListing

/-!
# The head of the history view

The history view marks the first listed snapshot that nobody names as its parent,
the store keeps `HEAD` in a file. In a store nobody else writes to, every name is
`HEAD`, a write in progress, a document or the quarantined copy of one, and the
two heads agree exactly while `HEAD` has a row and no stored snapshot names it as
its parent. A put that returns to an earlier payload breaks this, and so can a
removal and a write that fails half-way.
-/

open DevMgr.Core

namespace DevMgr.Daemon
open Bytes

variable {J : Json.Codec} {e : Env} {d d' : Directory}

inductive Known (J : Json.Codec) (d : Directory) (name : Str) : Prop where
  | aside (h : Skipped name)
  | document (p : SnapshotPayload) (hname : name = snapshotFileName (payloadId J p))
    (h : parseFile J d name = none ∨ ∃ snap, stored J d (payloadId J p) = some snap)
  | evidence (p : SnapshotPayload) (hskip : ¬ Skipped name) (hbad : Quarantined name)
    (hjson : ¬ str ".json" <:+ name) (hid : idFromFileName name = payloadId J p)
    (h : parseFile J d name = none)

def Untampered (J : Json.Codec) (d : Directory) : Prop := ∀ name ∈ d, Known J d name

def Shown (d : Directory) (id : Str) : Prop :=
  ∃ name ∈ d, ¬ Skipped name ∧ idFromFileName name = id

theorem payloadId_dot (p : SnapshotPayload) : (46 : UInt8) ∉ payloadId J p :=
  sha256Hex_not_mem (by decide)

theorem idFromFileName_payloadId (p : SnapshotPayload) :
    idFromFileName (snapshotFileName (payloadId J p)) = payloadId J p :=
  idFromFileName_digest (payloadId_dot p)

theorem Known.congr {name : Str} (h : Known J d name) (hsame : d'[name]? = d[name]?) :
    Known J d' name := by
  cases h with
  | aside h => exact .aside h
  | document p hname h =>
    subst name
    refine .document p rfl ?_
    rwa [parseFile_congr hsame, stored_congr hsame]
  | evidence p hskip hbad hjson hid h =>
    exact .evidence p hskip hbad hjson hid (by rw [parseFile_congr hsame, h])

theorem Untampered.of_eq (h : Untampered J d)
    (hnames : ∀ name ∈ d', d'[name]? = d[name]? ∨ Known J d' name) : Untampered J d' := by
  intro name hmem
  rcases hnames name hmem with hsame | hknown
  · exact (h name ((mem_congr hsame).mp hmem)).congr hsame
  · exact hknown

theorem Untampered.aside (h : Untampered J d) (haside : OnlyAside d d') : Untampered J d' := by
  refine h.of_eq fun name _ => ?_
  by_cases hskip : Skipped name
  · exact .inr (.aside hskip)
  · exact .inl (haside name hskip)

theorem Shown.aside {id : Str} (h : Shown d id) (haside : OnlyAside d d') : Shown d' id := by
  obtain ⟨name, hmem, hskip, hid⟩ := h
  exact ⟨name, (mem_congr (haside name hskip)).mpr hmem, hskip, hid⟩

theorem known_document {id : Str} (h : Known J d (snapshotFileName id)) :
    ∃ p, id = payloadId J p ∧
      (parseFile J d (snapshotFileName id) = none ∨ ∃ snap, stored J d id = some snap) := by
  cases h with
  | aside h => exact absurd h (not_skipped_file id)
  | document p hname h =>
    obtain rfl := snapshotFileName_inj.mp hname
    exact ⟨p, rfl, h⟩
  | evidence p _ _ hjson _ _ => exact absurd (json_suffix id) hjson

theorem shown_payloadId {id : Str} (h : Untampered J d) (hshown : Shown d id) :
    ∃ p, id = payloadId J p := by
  obtain ⟨name, hmem, hskip, rfl⟩ := hshown
  cases h name hmem with
  | aside h => exact absurd h hskip
  | document p hname _ =>
    subst name
    exact ⟨p, idFromFileName_payloadId p⟩
  | evidence p _ _ _ hid _ => exact ⟨p, hid⟩

theorem known_row {name : Str} (h : Known J d name) (hskip : ¬ Skipped name) :
    ∃ m, rowOfName J d name = some m ∧ m.id = idFromFileName name ∧
      ∀ parent, m.parent = some parent → ParentLink J d m.id parent := by
  cases h with
  | aside h => exact absurd h hskip
  | document p hname h =>
    subst name
    refine ⟨_, rowOfName_digest (payloadId_dot p), ?_⟩
    rw [idFromFileName_payloadId]
    rcases h with hnone | ⟨snap, hsnap⟩
    · have hdamaged : inspect J (payloadId J p)
          (parseFile J d (snapshotFileName (payloadId J p))) =
          .damaged (str "is corrupt") := by
        rw [hnone]
        rfl
      rw [rowOf_damaged hdamaged]
      exact ⟨rfl, fun parent hparent => absurd hparent
        (by simp [bestEffortMeta, stringField, Json.member?])⟩
    · rw [rowOf_stored hsnap, stored_id hsnap]
      exact ⟨rfl, fun parent hparent => ⟨snap, hsnap, hparent⟩⟩
  | evidence p hskip' hbad hjson hid h =>
    refine ⟨badRow J d name, by rw [rowOfName, if_neg hskip, if_pos hbad], ?_⟩
    rw [badRow, h]
    exact ⟨rfl, fun parent hparent => absurd hparent (by simp [bestEffortMeta, stringField])⟩

theorem row_of_shown (h : Untampered J d) {id : Str} (hshown : Shown d id) (o : ScanOrder) :
    ∃ m, byId (rows J o d) id = some m := by
  obtain ⟨name, hmem, hskip, rfl⟩ := hshown
  obtain ⟨m, hrow, hid, _⟩ := known_row (h name hmem) hskip
  rw [← hid]
  exact byId_isSome (mem_rows.mpr ⟨name, hmem, hrow⟩)

theorem not_skipped_of_row {name : Str} {m : SnapshotMeta} (h : rowOfName J d name = some m) :
    ¬ Skipped name := by
  intro hskip
  rw [rowOfName, if_pos hskip] at h
  exact absurd h (by simp)

theorem parent_of_row (h : Untampered J d) {o : ScanOrder} {m : SnapshotMeta} {parent : Str}
    (hm : m ∈ rows J o d) (hparent : m.parent = some parent) : ParentLink J d m.id parent := by
  obtain ⟨name, hmem, hrow⟩ := mem_rows.mp hm
  obtain ⟨m', hrow', _, hlink⟩ := known_row (h name hmem) (not_skipped_of_row hrow)
  obtain rfl := Option.some.inj (hrow.symm.trans hrow')
  exact hlink parent hparent

def Unclaimed (J : Json.Codec) (d : Directory) (id : Str) : Prop := ∀ x, ¬ ParentLink J d x id

def Tip (J : Json.Codec) (d : Directory) : Prop :=
  ∀ id, headLocked d = some id → Shown d id ∧ Unclaimed J d id

/-- The head marker is on one row, that of `HEAD`, and on none in an empty listing. -/
def MarksHead (headId : Option Str) (listed : List SnapshotMeta) : Prop :=
  (∀ id, headId = some id → ∃ row,
    (buildSnapshotChain listed).filter SnapshotChainRow.head = [row] ∧ row.info.id = id) ∧
  (listed = [] → (buildSnapshotChain listed).filter SnapshotChainRow.head = [])

theorem marksHead_of_tip (h : Untampered J d) (htip : Tip J d) (e : Env) :
    MarksHead (headLocked d) (list J e d).1 := by
  rw [(list_rows e d).1]
  refine ⟨fun id hid => ?_, fun hnil => by rw [hnil]; rfl⟩
  obtain ⟨hshown, hunclaimed⟩ := htip id hid
  obtain ⟨m, hm⟩ := row_of_shown h hshown e.order
  obtain ⟨ms, horder, _⟩ := order_head hm
  have hfirst : m.id ∉ claimedAsParent (m :: ms) := by
    rw [byId_id hm, claimedAsParent, List.mem_filterMap]
    rintro ⟨a, ha, hparent⟩
    refine hunclaimed a.id (parent_of_row h (o := e.order) ?_ hparent)
    rw [← horder] at ha
    exact mem_of_mem_order ha
  obtain ⟨row, hrow, hinfo⟩ := head_first hfirst
  rw [hid, horder]
  exact ⟨row, hrow, by rw [hinfo, byId_id hm]⟩

structure Settled (J : Json.Codec) (d d' : Directory) : Prop where
  kept : Kept J d d'
  untampered : Untampered J d → Untampered J d'
  shown : Untampered J d → ∀ id, Shown d id → Shown d' id

theorem Settled.refl (d : Directory) : Settled J d d := ⟨.refl d, id, fun _ _ => id⟩

theorem Settled.trans {d'' : Directory} (h : Settled J d d') (h' : Settled J d' d'') :
    Settled J d d'' :=
  ⟨h.kept.trans h'.kept, fun hu => h'.untampered (h.untampered hu),
    fun hu id hid => h'.shown (h.untampered hu) id (h.shown hu id hid)⟩

theorem Settled.aside (hhead : headLocked d' = headLocked d) (h : OnlyAside d d') :
    Settled J d d' :=
  ⟨.of_eq hhead h.file, fun hu => hu.aside h, fun _ _ hid => hid.aside h⟩

theorem known_bad {p : SnapshotPayload} {name : Str}
    (hname : name = quarantineName e d (snapshotFileName (payloadId J p)))
    (hparse : parseFile J d' name = none) :
    Known J d' name ∧ ¬ Skipped name ∧ idFromFileName name = payloadId J p := by
  obtain ⟨q, n, hdigit⟩ := quarantineName_digit e d (snapshotFileName (payloadId J p))
  obtain ⟨rest, happend⟩ := quarantineName_append e d (snapshotFileName (payloadId J p))
  rw [← hname] at hdigit happend
  have hskip : ¬ Skipped name := by
    rintro (h | h)
    · exact head_ne_bad (e := e) (d := d) _ (h.symm.trans hname)
    · exact not_suffix_of_digit (t := str ".tm") hdigit rfl h
  have hid : idFromFileName name = payloadId J p := by
    rw [happend, List.append_assoc]
    exact before_append (p := str "json") _ (payloadId_dot p)
  refine ⟨.evidence p hskip ?_ (not_suffix_of_digit (t := str ".jso") hdigit rfl) hid hparse,
    hskip, hid⟩
  exact ⟨_, _, happend.symm⟩

theorem settled_moved {id what content : Str} (hfile : d[snapshotFileName id]? = some content)
    (h : inspect J id (parseFile J d (snapshotFileName id)) = .damaged what)
    (hkept : Kept J d ((d.erase (snapshotFileName id)).insert
      (quarantineName e d (snapshotFileName id)) content)) :
    Settled J d ((d.erase (snapshotFileName id)).insert
      (quarantineName e d (snapshotFileName id)) content) := by
  have hmem : snapshotFileName id ∈ d := by
    rw [Std.ExtTreeMap.mem_iff_isSome_getElem?, hfile]
    rfl
  have hbad : Untampered J d →
      ∃ p, id = payloadId J p ∧ parseFile J ((d.erase (snapshotFileName id)).insert
      (quarantineName e d (snapshotFileName id)) content) (quarantineName e d
        (snapshotFileName id)) =
        none := by
    intro hu
    obtain ⟨p, hid, hnone | ⟨snap, hsnap⟩⟩ := known_document (hu _ hmem)
    · refine ⟨p, hid, ?_⟩
      rw [← hnone]
      exact parseFile_congr (by rw [Std.ExtTreeMap.getElem?_insert_self, hfile])
    · rw [stored, h] at hsnap
      exact absurd hsnap (by simp)
  have hother : ∀ name, name ≠ quarantineName e d (snapshotFileName id) →
      name ≠ snapshotFileName id →
      ((d.erase (snapshotFileName id)).insert
        (quarantineName e d (snapshotFileName id)) content)[name]? =
        d[name]? := by
    intro name hne hname
    simp [Std.ExtTreeMap.getElem?_insert, Std.ExtTreeMap.getElem?_erase, hne.symm, hname.symm]
  refine ⟨hkept, fun hu => hu.of_eq fun name hname => ?_, fun hu x hx => ?_⟩
  · obtain ⟨p, rfl, hparse⟩ := hbad hu
    by_cases hne : name = quarantineName e d (snapshotFileName (payloadId J p))
    · exact .inr (hne ▸ (known_bad rfl hparse).1)
    · refine .inl (hother name hne ?_)
      rintro rfl
      rw [Std.ExtTreeMap.mem_iff_isSome_getElem?] at hname
      simp [Ne.symm hne] at hname
  · obtain ⟨p, rfl, hparse⟩ := hbad hu
    obtain ⟨name, hname, hskip, rfl⟩ := hx
    by_cases hfileName : name = snapshotFileName (payloadId J p)
    · obtain ⟨_, hskip', hid⟩ := known_bad (e := e) (d := d) rfl hparse
      refine ⟨_, by simp, hskip', ?_⟩
      rw [hid, hfileName, idFromFileName_payloadId]
    · have hne : name ≠ quarantineName e d (snapshotFileName (payloadId J p)) := by
        rintro rfl
        exact quarantineName_not_mem _ _ _ hname
      exact ⟨name, (mem_congr (hother name hne hfileName)).mpr hname, hskip, rfl⟩

theorem settled_quarantineFile {id what : Str}
    (h : inspect J id (parseFile J d (snapshotFileName id)) = .damaged what) :
    Settled J d (quarantineFile e d (snapshotFileName id)).2 := by
  have hkept : Kept J d (quarantineFile e d (snapshotFileName id)).2 :=
    kept_quarantineFile (by rw [stored, h])
  cases hfile : d[snapshotFileName id]? with
  | none =>
    simp only [quarantineFile, hfile]
    exact .refl d
  | some content =>
    simp only [quarantineFile, hfile] at hkept ⊢
    split_ifs at hkept ⊢ with hrenames
    · exact settled_moved hfile h hkept
    · exact .refl d

theorem settled_readLocked (id : Str) : Settled J d (readLocked J e d id).2 := by
  rcases readLocked_cases J e d id with ⟨snap, _, hread⟩ | ⟨_, error, _, hread⟩ |
    ⟨what, hwhat, error, d', _, hread, rfl | rfl⟩
  · rw [hread]
    exact .refl d
  · rw [hread]
    exact .refl d
  · rw [hread]
    exact .refl _
  · rw [hread]
    exact settled_quarantineFile hwhat

theorem settled_scanName (name : Str) : Settled J d (scanName J e d name).2 := by
  unfold scanName
  split_ifs
  · exact .refl d
  · exact .refl d
  · dsimp only
    rw [(scanOneLocked_row e d _).2]
    exact settled_readLocked _
  · exact .refl d

theorem settled_scanNames (names : List Str) : Settled J d (scanNames J e names d).2 := by
  induction names generalizing d with
  | nil => exact .refl d
  | cons name names ih => exact (settled_scanName name).trans ih

theorem untampered_pruneLocked (h : Untampered J d) : Untampered J (pruneLocked J e d) := by
  have hscan : Untampered J (scanLocked J e d).2 := (settled_scanNames _).untampered h
  refine hscan.of_eq fun name hname => .inl ?_
  rcases pruneRows_cases (e := e) (orderNewestFirst (scanLocked J e d).1 (headLocked d)) name 0
    (scanLocked J e d).2 with hsame | hgone
  · exact hsame
  · rw [Std.ExtTreeMap.mem_iff_isSome_getElem?, pruneLocked, hgone] at hname
    exact absurd hname (by simp)

theorem shown_pruneLocked (h : Untampered J d) {id : Str} (hhead : headLocked d = some id)
    (hshown : Shown d id) : Shown (pruneLocked J e d) id := by
  have hsettled : Settled J d (scanLocked J e d).2 := settled_scanNames _
  obtain ⟨m, hm⟩ := row_of_shown h hshown e.order
  obtain ⟨ms, horder, hms⟩ := order_head hm
  have hprune : pruneLocked J e d = pruneRows e (m :: ms) 0 (scanLocked J e d).2 := by
    simp only [pruneLocked, (scanLocked_rows e d).1, hhead, horder]
  obtain ⟨name, hmem, hskip, rfl⟩ := hsettled.shown h id hshown
  refine ⟨name, ?_, hskip, rfl⟩
  rw [hprune]
  refine (mem_congr ?_).mpr hmem
  cases hsettled.untampered h name hmem with
  | aside h => exact absurd h hskip
  | document p hname _ =>
    subst name
    rw [idFromFileName_payloadId] at hms
    exact pruneRows_first hms _
  | evidence p _ _ hjson _ _ =>
    refine pruneRows_keeps (fun a _ _ _ hname => hjson ?_) 0 _
    rw [hname]
    exact json_suffix _

theorem tip_same (h : Tip J d) (hhead : headLocked d' = headLocked d)
    (hshown : ∀ id, Shown d id → Shown d' id)
    (hlinks : ∀ x parent, ParentLink J d' x parent → ParentLink J d x parent) : Tip J d' := by
  intro id hid
  obtain ⟨hs, hun⟩ := h id (hhead.symm.trans hid)
  exact ⟨hshown id hs, fun x hx => hun x (hlinks x id hx)⟩

theorem tip_moved {id : Str} (hhead : headLocked d' = some id) (hshown : Shown d' id)
    (hunclaimed : Unclaimed J d' id) : Tip J d' := by
  intro x hx
  obtain rfl := Option.some.inj (hhead.symm.trans hx)
  exact ⟨hshown, hunclaimed⟩

theorem parentLink_stored {x parent : Str} (hsame : stored J d' x = stored J d x)
    (h : ParentLink J d' x parent) : ParentLink J d x parent := by
  obtain ⟨snap, hsnap, hparent⟩ := h
  exact ⟨snap, hsame ▸ hsnap, hparent⟩

theorem parentLink_pruned {x parent : Str} (h : ParentLink J (pruneLocked J e d) x parent) :
    ParentLink J d x parent := by
  obtain ⟨snap, hsnap, hparent⟩ := h
  rcases (pruneLocked_effect (J := J) e d).2.2 x with hsame | ⟨hgone, _⟩
  · exact ⟨snap, hsame ▸ hsnap, hparent⟩
  · exact absurd (mem_of_stored hsnap) hgone

theorem Settled.tip (h : Settled J d d') (hu : Untampered J d) (htip : Tip J d) : Tip J d' :=
  tip_same htip h.kept.head (h.shown hu) fun x _ => parentLink_stored (h.kept.stored x)

section Put
variable {payload : SnapshotPayload} {trigger : SnapshotTrigger} {reason : SnapshotReason}
  {createdAtUtc : Int64} {result : Result Str}

theorem shown_document {p : SnapshotPayload} (h : snapshotFileName (payloadId J p) ∈ d) :
    Shown d (payloadId J p) :=
  ⟨_, h, not_skipped_file _, idFromFileName_payloadId p⟩

theorem untampered_putHead {isNew : Bool} (hne : headLocked d ≠ some (payloadId J payload))
    (hu : Untampered J d)
    (h : putHead J e (headLocked d) (payloadId J payload) isNew d = (result, d')) :
    Untampered J d' := by
  obtain ⟨d2, haside, _, ⟨_, hput⟩ | ⟨error, hput⟩⟩ :=
    putHead_cases (e := e) payload hne isNew d
  · rw [hput] at h
    obtain ⟨_, rfl⟩ := Prod.mk.inj h
    cases isNew with
    | false => exact hu.aside haside
    | true => exact untampered_pruneLocked (hu.aside haside)
  · rw [hput] at h
    obtain ⟨_, rfl⟩ := Prod.mk.inj h
    exact hu.aside haside

theorem tip_putHead {isNew : Bool} (hne : headLocked d ≠ some (payloadId J payload))
    (hu : Untampered J d) (hmem : snapshotFileName (payloadId J payload) ∈ d)
    (hmoves : lands e.headWrite = true → Unclaimed J d (payloadId J payload))
    (hstays : lands e.headWrite = false → Tip J d)
    (h : putHead J e (headLocked d) (payloadId J payload) isNew d = (result, d')) : Tip J d' := by
  obtain ⟨d2, haside, hhead, hput⟩ := putHead_cases (e := e) payload hne isNew d
  have hshown2 : Shown d2 (payloadId J payload) := (shown_document hmem).aside haside
  have hlinks : ∀ x parent, ParentLink J d2 x parent → ParentLink J d x parent :=
    fun x _ => parentLink_stored (stored_congr (haside.file x))
  have htip2 : Tip J d2 := by
    cases hlands : lands e.headWrite with
    | true =>
      rw [hlands] at hhead
      exact tip_moved hhead hshown2 fun x hx => hmoves hlands x (hlinks x _ hx)
    | false =>
      rw [hlands] at hhead
      exact tip_same (hstays hlands) hhead (fun _ hs => hs.aside haside) hlinks
  rcases hput with ⟨hlands, hput⟩ | ⟨error, hput⟩
  · rw [hput] at h
    obtain ⟨_, rfl⟩ := Prod.mk.inj h
    cases isNew with
    | false => exact htip2
    | true =>
      rw [hlands] at hhead
      have hpruned : headLocked (pruneLocked J e d2) = some (payloadId J payload) :=
        (pruneLocked_effect (J := J) e d2).1.trans hhead
      exact tip_moved hpruned (shown_pruneLocked (hu.aside haside) hhead hshown2)
        fun x hx => (htip2 _ hhead).2 x (parentLink_pruned hx)
  · rw [hput] at h
    obtain ⟨_, rfl⟩ := Prod.mk.inj h
    exact htip2

theorem known_written
    (htext : (putDocument J d payload trigger reason createdAtUtc).isText = true) :
    Known J (written J d payload trigger reason createdAtUtc)
      (snapshotFileName (payloadId J payload)) := by
  refine .document payload rfl ?_
  by_cases hfits : FitsGate J d payload trigger reason createdAtUtc
  · exact .inr ⟨_, by rw [(written_effect htext).2.2, if_pos hfits]⟩
  · refine .inl ?_
    have hlarge : kJsonMaxBytes <
        (J.dumpIndented (putDocument J d payload trigger reason createdAtUtc)).length :=
      Nat.lt_of_not_le hfits
    simp only [parseFile, written, renamed_self, if_pos hlarge]

theorem untampered_written (hu : Untampered J d)
    (htext : (putDocument J d payload trigger reason createdAtUtc).isText = true) :
    Untampered J (written J d payload trigger reason createdAtUtc) := by
  refine hu.of_eq fun name _ => ?_
  by_cases hskip : Skipped name
  · exact .inr (.aside hskip)
  · by_cases hfile : name = snapshotFileName (payloadId J payload)
    · exact .inr (hfile ▸ known_written htext)
    · refine .inl (renamed_other hfile ?_ _)
      rintro rfl
      exact hskip (.inr ⟨_, rfl⟩)

theorem shown_written {id : Str} (h : Shown d id) :
    Shown (written J d payload trigger reason createdAtUtc) id := by
  obtain ⟨name, hmem, hskip, hid⟩ := h
  refine ⟨name, ?_, hskip, hid⟩
  by_cases hfile : name = snapshotFileName (payloadId J payload)
  · subst name
    rw [Std.ExtTreeMap.mem_iff_isSome_getElem?, written, renamed_self]
    rfl
  · refine (mem_congr (renamed_other hfile ?_ _)).mpr hmem
    rintro rfl
    exact hskip (.inr ⟨_, rfl⟩)

theorem parentLink_written {x parent : Str}
    (htext : (putDocument J d payload trigger reason createdAtUtc).isText = true)
    (h : ParentLink J (written J d payload trigger reason createdAtUtc) x parent) :
    ParentLink J d x parent ∨
      headLocked d = some parent ∧ FitsGate J d payload trigger reason createdAtUtc := by
  obtain ⟨_, hfiles, hnew⟩ := written_effect htext
  by_cases hx : x = payloadId J payload
  · subst x
    obtain ⟨snap, hsnap, hparent⟩ := h
    rw [hnew] at hsnap
    split_ifs at hsnap with hfits
    rw [← Option.some.inj hsnap, putSnapshot_parent] at hparent
    exact .inr ⟨hparent, hfits⟩
  · exact .inl (parentLink_stored (stored_congr (hfiles x hx)) h)

/-- If the put gets as far as moving `HEAD`, nobody names its payload as parent, and if it leaves a
new document without moving `HEAD`, then `HEAD` is empty or the reader rejects the document. -/
structure PutKeepsTip (J : Json.Codec) (e : Env) (d : Directory) (payload : SnapshotPayload)
    (trigger : SnapshotTrigger) (reason : SnapshotReason) (createdAtUtc : Int64) : Prop where
  moves : snapshotFileName (payloadId J payload) ∈ d ∨ e.docWrite = none →
    lands e.headWrite = true → Unclaimed J d (payloadId J payload)
  stays : snapshotFileName (payloadId J payload) ∉ d → lands e.docWrite = true →
    e.docWrite ≠ none ∨ lands e.headWrite = false →
      headLocked d = none ∨ ¬ FitsGate J d payload trigger reason createdAtUtc

theorem tip_written (htip : Tip J d)
    (htext : (putDocument J d payload trigger reason createdAtUtc).isText = true)
    (hstays : headLocked d = none ∨ ¬ FitsGate J d payload trigger reason createdAtUtc) :
    Tip J (written J d payload trigger reason createdAtUtc) := by
  refine tip_same htip (written_effect htext).1 (fun _ => shown_written) fun x parent hlink => ?_
  rcases parentLink_written htext hlink with hold | ⟨hhead, hfits⟩
  · exact hold
  · rcases hstays with hnone | hlarge
    · exact absurd (hhead.symm.trans hnone) (by simp)
    · exact absurd hfits hlarge

theorem untampered_put (hu : Untampered J d)
    (h : put J e d payload trigger reason createdAtUtc = .ok (result, d')) : Untampered J d' := by
  rcases put_cases h with ⟨_, _, rfl⟩ | ⟨hne, _, hput⟩ |
    ⟨hne, _, htext, ⟨error, _, _, haside⟩ | ⟨error, _, _, _, rfl⟩ | ⟨_, hput⟩⟩
  · exact hu
  · exact untampered_putHead hne hu hput
  · exact hu.aside haside
  · exact untampered_written hu htext
  · rw [← (written_effect htext).1] at hput hne
    exact untampered_putHead hne (untampered_written hu htext) hput

theorem tip_put (hu : Untampered J d) (htip : Tip J d)
    (hkeeps : headLocked d ≠ some (payloadId J payload) →
      PutKeepsTip J e d payload trigger reason createdAtUtc)
    (h : put J e d payload trigger reason createdAtUtc = .ok (result, d')) : Tip J d' := by
  rcases put_cases h with ⟨_, _, rfl⟩ | ⟨hne, hmem, hput⟩ |
    ⟨hne, hmem, htext, ⟨error, _, hhead, haside⟩ | ⟨error, _, hlands, hdoc, rfl⟩ |
      ⟨hdoc, hput⟩⟩
  · exact htip
  · exact tip_putHead hne hu hmem ((hkeeps hne).moves (.inl hmem)) (fun _ => htip) hput
  · exact (Settled.aside hhead haside).tip hu htip
  · exact tip_written htip htext ((hkeeps hne).stays hmem hlands (.inl hdoc))
  · have hhead := (written_effect htext).1
    have hnew : snapshotFileName (payloadId J payload) ∈
        written J d payload trigger reason createdAtUtc := by
      rw [Std.ExtTreeMap.mem_iff_isSome_getElem?, written, renamed_self]
      rfl
    rw [← hhead] at hput hne
    refine tip_putHead hne (untampered_written hu htext) hnew (fun hlands x hlink => ?_)
      (fun hlands => ?_) hput
    · rcases parentLink_written htext hlink with hold | ⟨hself, _⟩
      · exact (hkeeps (hhead ▸ hne)).moves (.inr hdoc) hlands x hold
      · exact hne (hhead.trans hself)
    · exact tip_written htip htext
        ((hkeeps (hhead ▸ hne)).stays hmem (by rw [hdoc]; rfl) (.inr hlands))

end Put

theorem untampered_erase (h : Untampered J d) (name : Str) : Untampered J (d.erase name) := by
  refine h.of_eq fun other hother => .inl ?_
  have hne : other ≠ name := by
    rintro rfl
    exact absurd hother (by simp)
  simp [Std.ExtTreeMap.getElem?_erase, hne.symm]

theorem shown_erase {id other : Str} (hid : (46 : UInt8) ∉ id) (hne : other ≠ id)
    (h : Shown d other) :
    Shown (d.erase (snapshotFileName id)) other := by
  obtain ⟨name, hmem, hskip, rfl⟩ := h
  have hname : name ≠ snapshotFileName id := by
    rintro rfl
    exact hne (idFromFileName_digest hid)
  refine ⟨name, (mem_congr ?_).mpr hmem, hskip, rfl⟩
  simp [Std.ExtTreeMap.getElem?_erase, hname.symm]

theorem parentLink_erase {id x parent : Str}
    (h : ParentLink J (d.erase (snapshotFileName id)) x parent) : x ≠ id ∧
    ParentLink J d x parent := by
  have hx : x ≠ id := by
    rintro rfl
    obtain ⟨snap, hsnap, _⟩ := h
    exact absurd (mem_of_stored hsnap) (by simp)
  refine ⟨hx, parentLink_stored (stored_congr ?_) h⟩
  simp [Std.ExtTreeMap.getElem?_erase, snapshotFileName_inj, hx.symm]

/-- A removal that moves `HEAD` finishes, and moves it to a parent that has a row and that no other
stored snapshot names. -/
structure RemoveKeepsTip (J : Json.Codec) (e : Env) (d : Directory) (id parent : Str) : Prop where
  moved : e.headWrite = none
  removed : e.unlinkError (snapshotFileName id) = none
  other : parent ≠ id
  shown : Shown d parent
  alone : ∀ x, ParentLink J d x parent → x = id

theorem untampered_remove {id : Str} {result : Result Unit} (hu : Untampered J d)
    (h : remove J e d id = (result, d')) : Untampered J d' := by
  rcases remove_cases h with ⟨error, _, rfl⟩ | ⟨snap, r, d2, _, hmove, hend⟩
  · exact (settled_readLocked id).untampered hu
  obtain ⟨r', d2', hmove', haside, _⟩ := removeHead_cases e d id snap
  obtain ⟨rfl, rfl⟩ := Prod.mk.inj (hmove.symm.trans hmove')
  rcases hend with ⟨error, _, rfl, _⟩ | ⟨_, _, _, rfl⟩
  · exact hu.aside haside
  · exact untampered_erase (hu.aside haside) _

theorem tip_remove {id : Str} {result : Result Unit} (hu : Untampered J d) (htip : Tip J d)
    (hkeeps : headLocked d = some id → lands e.headWrite = true → ∀ parent,
      ParentLink J d id parent → RemoveKeepsTip J e d id parent)
    (h : remove J e d id = (result, d')) : Tip J d' := by
  rcases remove_cases h with ⟨error, _, rfl⟩ | ⟨snap, r, d2, hsnap, hmove, hend⟩
  · exact (settled_readLocked id).tip hu htip
  obtain ⟨r', d2', hmove', haside, hhead⟩ := removeHead_cases e d id snap
  obtain ⟨rfl, rfl⟩ := Prod.mk.inj (hmove.symm.trans hmove')
  have hdot : (46 : UInt8) ∉ id := stored_hash hsnap ▸ payloadId_dot snap.payload
  rcases hhead with ⟨hne, hsame⟩ | ⟨hid, hlands, hparent, hok⟩ | ⟨hsame, error, herror⟩
  · -- `HEAD` is another snapshot and keeps its row
    have htip2 : Tip J d2 := (Settled.aside hsame haside).tip hu htip
    rcases hend with ⟨error, _, rfl, _⟩ | ⟨_, _, _, rfl⟩
    · exact htip2
    · intro x hx
      rw [headLocked_erase] at hx
      obtain ⟨hshown, hunclaimed⟩ := htip2 x hx
      have hxid : x ≠ id := fun heq => hne (by rw [← hsame, hx, heq])
      exact ⟨shown_erase hdot hxid hshown, fun y hy => hunclaimed y (parentLink_erase hy).2⟩
  · cases hp : snap.info.parent with
    | none =>
      -- nothing is left to be the head
      rw [parentHead_none hp] at hparent
      rcases hend with ⟨error, _, rfl, _⟩ | ⟨_, _, _, rfl⟩
      · exact fun x hx => absurd (hparent.symm.trans hx) (by simp)
      · exact fun x hx =>
          absurd (hparent.symm.trans ((headLocked_erase d2 id).symm.trans hx)) (by simp)
    | some parent =>
      have hkeep := hkeeps hid hlands parent ⟨snap, hsnap, hp⟩
      obtain ⟨p, rfl⟩ := shown_payloadId hu hkeep.shown
      rw [parentHead_payloadId hp] at hparent
      rcases hend with ⟨error, _, rfl, hfail⟩ | ⟨_, _, _, rfl⟩
      · exact absurd hkeep.removed (hfail (hok.mpr hkeep.moved))
      · refine tip_moved ((headLocked_erase d2 id).trans hparent)
          (shown_erase hdot hkeep.other (hkeep.shown.aside haside)) fun x hx => ?_
        obtain ⟨hxid, hlink⟩ := parentLink_erase hx
        exact hxid (hkeep.alone x (parentLink_stored (stored_congr (haside.file x)) hlink))
  · -- the move of `HEAD` failed, and with it the removal
    rcases hend with ⟨error', _, rfl, _⟩ | ⟨hok, _, _, _⟩
    · exact (Settled.aside hsame haside).tip hu htip
    · exact absurd (hok.symm.trans herror) (by simp)

/-- A step that keeps the tip of the history. Only puts and removals can fail to. -/
def KeepsTip (J : Json.Codec) (d : Directory) (c : Env × Call) : Prop :=
  match c.2 with
  | .put payload trigger reason createdAtUtc => headLocked d ≠ some (payloadId J payload) →
      PutKeepsTip J c.1 d payload trigger reason createdAtUtc
  | .remove id => headLocked d = some id → lands c.1.headWrite = true → ∀ parent,
      ParentLink J d id parent → RemoveKeepsTip J c.1 d id parent
  | _ => True

theorem untampered_step {c : Env × Call} (hu : Untampered J d) : Untampered J (perform J d c) := by
  obtain ⟨e, c⟩ := c
  cases c with
  | put payload trigger reason createdAtUtc =>
    simp only [perform]
    split
    · exact hu
    · rename_i h
      exact untampered_put hu h
  | list => exact (settled_scanNames (e.order.names d)).untampered hu
  | read id => exact (settled_readLocked id).untampered hu
  | remove id => exact untampered_remove hu rfl
  | head => exact hu

theorem untampered_run (calls : List (Env × Call)) : Untampered J (runCalls J ∅ calls) := by
  have hempty : Untampered J (∅ : Directory) := fun name hname => absurd hname (by simp)
  have hall : Run.Meets (perform J) (fun _ _ => True) ∅ calls := Run.meets_true _ _
  exact Run.runAll_invariant (perform J) (fun _ _ hu _ => untampered_step hu) hempty hall

theorem tip_step {c : Env × Call} (hu : Untampered J d) (htip : Tip J d) (hc : KeepsTip J d c) :
    Tip J (perform J d c) := by
  obtain ⟨e, c⟩ := c
  cases c with
  | put payload trigger reason createdAtUtc =>
    simp only [perform]
    split
    · exact htip
    · rename_i h
      exact tip_put hu htip hc h
  | list => exact (settled_scanNames (e.order.names d)).tip hu htip
  | read id => exact (settled_readLocked id).tip hu htip
  | remove id => exact tip_remove hu htip hc rfl
  | head => exact htip

theorem head_marked {calls : List (Env × Call)} (h : Run.Meets (perform J) (KeepsTip J) ∅ calls)
    (e : Env) : MarksHead (headLocked (runCalls J ∅ calls)) (list J e (runCalls J ∅ calls)).1 := by
  have hstep : ∀ d c, Untampered J d ∧ Tip J d → KeepsTip J d c →
      Untampered J (perform J d c) ∧ Tip J (perform J d c) :=
    fun _ _ hi hc => ⟨untampered_step hi.1, tip_step hi.1 hi.2 hc⟩
  have hempty : Untampered J (∅ : Directory) ∧ Tip J (∅ : Directory) :=
    ⟨untampered_run [], fun id hid => absurd hid (by simp [headLocked])⟩
  obtain ⟨hu, htip⟩ := Run.runAll_invariant (perform J) hstep hempty h
  exact marksHead_of_tip hu htip e

theorem head_marked_second :
    MarksHead (headLocked (runCalls Json.reference ∅ [putEmpty, putModprobe]))
      (list Json.reference .quiet (runCalls Json.reference ∅ [putEmpty, putModprobe])).1 := by
  have hfirstPut : KeepsTip Json.reference ∅ putEmpty := by
    refine fun _ => ⟨fun _ _ x hchild => ?_, fun _ _ _ => .inl (by simp [headLocked])⟩
    obtain ⟨snap, hsnap, _⟩ := hchild
    exact absurd (mem_of_stored hsnap) (by simp)
  have hsecondPut : KeepsTip Json.reference firstStore putModprobe := by
    refine fun _ => ⟨fun _ _ x hchild => ?_, fun _ _ h => ?_⟩
    · obtain ⟨snap, hsnap, hparent⟩ := hchild
      obtain ⟨_, hfirst, honly⟩ := firstStore_history
      obtain rfl := honly x (mem_of_stored hsnap)
      obtain rfl := Option.some.inj (hfirst.symm.trans hsnap)
      exact absurd hparent (by simp [headLocked])
    · rcases h with h | h
      · exact absurd rfl h
      · exact absurd h (by decide)
  have hmeets : Run.Meets (perform Json.reference) (KeepsTip Json.reference) ∅
      [putEmpty, putModprobe] := ⟨hfirstPut, hsecondPut, trivial⟩
  exact head_marked hmeets .quiet

def returnedStore : Directory := perform Json.reference secondStore putEmpty

theorem returnedStore_run :
    runCalls Json.reference ∅ [putEmpty, putModprobe, putEmpty] = returnedStore := by
  rw [runCalls, Run.runAll_cons, Run.runAll_cons, Run.runAll_cons, Run.runAll_nil, returnedStore,
    secondStore, firstStore]

theorem return_put : put Json.reference .quiet secondStore emptyPayload .manual noReason 0 =
    .ok (.ok (payloadId Json.reference emptyPayload), returnedStore) := by
  obtain ⟨hhead, _, hfirst⟩ := secondStore_history
  have hne : headLocked secondStore ≠ some (payloadId Json.reference emptyPayload) :=
    fun h => payloadIds_ne (Option.some.inj (hhead.symm.trans h))
  have hput : put Json.reference .quiet secondStore emptyPayload .manual noReason 0 = _ :=
    put_found rfl emptyPayload_text hne (mem_of_stored hfirst)
  rw [returnedStore, putEmpty, perform_put_ok hput]
  exact hput

theorem returnedStore_history :
    headLocked returnedStore = some (payloadId Json.reference emptyPayload) ∧
    stored Json.reference returnedStore (payloadId Json.reference modprobePayload) =
      some (putSnapshot Json.reference firstStore modprobePayload .manual noReason 0) ∧
    stored Json.reference returnedStore (payloadId Json.reference emptyPayload) =
      some (putSnapshot Json.reference ∅ emptyPayload .manual noReason 0) := by
  obtain ⟨_, hsecond, hfirst⟩ := secondStore_history
  obtain ⟨_, hhead, hfound, _⟩ := put_ok return_put
  refine ⟨hhead, ?_, by rw [hfound (mem_of_stored hfirst), hfirst]⟩
  rcases (put_effect return_put).other _ payloadIds_ne with hsame | ⟨_, _, snap, hsnap, hauto⟩
  · rw [hsame, hsecond]
  · rw [hsecond] at hsnap
    rw [← Option.some.inj hsnap] at hauto
    exact absurd hauto (by simp)

theorem head_unmarked :
    ¬ MarksHead (headLocked (runCalls Json.reference ∅ [putEmpty, putModprobe, putEmpty]))
      (list Json.reference .quiet
        (runCalls Json.reference ∅ [putEmpty, putModprobe, putEmpty])).1 := by
  have hu : Untampered Json.reference returnedStore := returnedStore_run ▸ untampered_run _
  obtain ⟨hhead, hmodprobe, hempty⟩ := returnedStore_history
  rw [returnedStore_run, hhead, (list_rows _ _).1, hhead]
  rintro ⟨hmarks, _⟩
  obtain ⟨row, hrow, hid⟩ := hmarks _ rfl
  obtain ⟨hmarked, hheadRow⟩ := List.mem_filter.mp (hrow ▸ List.mem_singleton_self row)
  refine head_unclaimed hmarked hheadRow ?_
  have hclaims :
      (putSnapshot Json.reference firstStore modprobePayload .manual noReason 0).info.parent =
      some (payloadId Json.reference emptyPayload) := by
    rw [putSnapshot_parent, firstStore_history.1]
  have hlisted := (mem_rows (o := Env.quiet.order)).mpr
    ⟨_, mem_of_stored hmodprobe, rowOfName_stored hmodprobe⟩
  rw [hid, claimedAsParent, List.mem_filterMap]
  refine ⟨_, mem_orderNewestFirst.mpr (.inr ⟨hlisted, ?_⟩), hclaims⟩
  obtain ⟨m, hm⟩ := row_of_shown hu (shown_document (mem_of_stored hempty)) Env.quiet.order
  have hparent : m.parent = none := by
    cases hp : m.parent with
    | none => rfl
    | some parent =>
      obtain ⟨snap, hsnap, hsnapParent⟩ := parent_of_row hu (byId_mem hm) hp
      rw [byId_id hm, hempty] at hsnap
      rw [← Option.some.inj hsnap] at hsnapParent
      exact absurd hsnapParent (by simp [headLocked])
  rw [chainOf, LinkWalk.walk_last (by simp) hm hparent]
  exact fun hmem => payloadIds_ne (List.mem_singleton.mp hmem)

end DevMgr.Daemon
