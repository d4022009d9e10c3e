import DevMgr.Daemon.SnapshotListing

/-!
# Documents of a newer format

A document of a newer format is refused and left alone by every operation of the
store, however often it is called, as long as it is recognised: its version is
above the supported one after the conversion to `int`, and its file passes the
size gate. It is listed exactly when its file is read as a document and no other
row takes its place on the chain from `HEAD`.
-/

open DevMgr.Core

namespace DevMgr.Daemon
open Bytes

variable {J : Json.Codec} {e : Env} {d d' : Directory} {id : Str}

def Newer (J : Json.Codec) (d : Directory) (id : Str) : Prop :=
  inspect J id (parseFile J d (snapshotFileName id)) = .newer

theorem newer_congr (h : d'[snapshotFileName id]? = d[snapshotFileName id]?) :
    Newer J d' id ↔ Newer J d id := by
  rw [Newer, Newer, parseFile_congr h]

theorem Newer.mem (h : Newer J d id) : snapshotFileName id ∈ d := by
  by_contra hmem
  rw [Newer, parseFile, Std.ExtTreeMap.getElem?_eq_none hmem] at h
  exact absurd h (by simp [inspect])

theorem Newer.not_stored (h : Newer J d id) : stored J d id = none := by rw [stored, h]

theorem readLocked_newer_iff : (∀ e, ∃ error, (readLocked J e d id).1 = .error error ∧
    error.code = .unsupported) ↔ Newer J d id := by
  constructor
  · intro h
    obtain ⟨error, herror, hcode⟩ := h .quiet
    rcases readLocked_cases J .quiet d id with ⟨snap, _, hread⟩ | ⟨hnewer, _⟩ |
      ⟨_, _, error', _, hcode', hread, _⟩
    · rw [hread] at herror
      exact absurd herror (by simp)
    · exact hnewer
    · rw [hread] at herror
      exact absurd (Except.error.inj herror ▸ hcode) hcode'
  · intro h e
    rcases readLocked_cases J e d id with ⟨snap, hhealthy, _⟩ | ⟨_, error, hcode, hread⟩ |
      ⟨what, hdamaged, _⟩
    · exact absurd (h.symm.trans hhealthy) (by simp)
    · exact ⟨error, by rw [hread], hcode⟩
    · exact absurd (h.symm.trans hdamaged) (by simp)

section Keeps
variable (h : Newer J d id)

include h

theorem readLocked_keeps_newer (e : Env) (other : Str) :
    (readLocked J e d other).2[snapshotFileName id]? = d[snapshotFileName id]? := by
  rcases readLocked_cases J e d other with ⟨snap, _, hread⟩ | ⟨_, error, _, hread⟩ |
    ⟨what, hdamaged, error, d', _, hread, rfl | rfl⟩
  · rw [hread]
  · rw [hread]
  · rw [hread]
  · have hne : id ≠ other := by
      rintro rfl
      exact absurd (h.symm.trans hdamaged) (by simp)
    rw [hread]
    exact quarantineFile_other (snapshotFileName_inj.not.mpr hne) (snapshotFileName_ne_bad id _)

theorem scanName_keeps_newer (e : Env) (name : Str) :
    (scanName J e d name).2[snapshotFileName id]? = d[snapshotFileName id]? := by
  unfold scanName
  split_ifs
  · rfl
  · rfl
  · dsimp only
    rw [(scanOneLocked_row e d _).2]
    exact readLocked_keeps_newer h e _
  · rfl

theorem scanNames_keeps_newer (e : Env) (names : List Str) :
    (scanNames J e names d).2[snapshotFileName id]? = d[snapshotFileName id]? := by
  induction names generalizing d with
  | nil => rfl
  | cons name names ih =>
    have hname := scanName_keeps_newer h e name
    exact (ih ((newer_congr hname).mpr h)).trans hname

theorem pruneLocked_keeps_newer (e : Env) :
    (pruneLocked J e d)[snapshotFileName id]? = d[snapshotFileName id]? := by
  have hrows := (scanLocked_rows (J := J) e d).1
  have hscan : (scanLocked J e d).2[snapshotFileName id]? = d[snapshotFileName id]? :=
    scanNames_keeps_newer h e _
  unfold pruneLocked
  rw [pruneRows_keeps ?_ 0 _, hscan]
  intro m hm hok _ hfile
  rw [hrows] at hm
  obtain ⟨snap, hsnap, _⟩ := mem_rows_ok (mem_of_mem_order hm) hok
  rw [← snapshotFileName_inj.mp hfile, h.not_stored] at hsnap
  exact absurd hsnap (by simp)

theorem putHead_keeps_newer (e : Env) (headId : Option Str) (other : Str) (isNew : Bool) :
    (putHead J e headId other isNew d).2[snapshotFileName id]? = d[snapshotFileName id]? := by
  have hprune : ∀ d', d'[snapshotFileName id]? = d[snapshotFileName id]? →
      (if isNew then pruneLocked J e d' else d')[snapshotFileName id]? =
        d[snapshotFileName id]? := by
    intro d' hsame
    split_ifs
    · exact (pruneLocked_keeps_newer ((newer_congr hsame).mpr h) e).trans hsame
    · exact hsame
  unfold putHead
  by_cases hne : headId ≠ some other
  · rw [if_pos hne]
    rcases atomicWriteFile_cases (e := e) e.headWrite d (str "HEAD") (headContent other) with
      ⟨_, r, hr, _⟩ | ⟨_, error, d', herror, hother⟩
    · rw [hr]
      have hsame : (renamed d (str "HEAD") (headContent other))[snapshotFileName id]? =
          d[snapshotFileName id]? := (onlyAside_head (headContent other)).file id
      cases r with
      | error error => exact hsame
      | ok u => exact hprune _ hsame
    · rw [herror]
      exact hother _ (snapshotFileName_ne_tmp id _)
  · rw [if_neg hne]
    exact hprune d rfl

theorem perform_put_keeps_newer (payload : SnapshotPayload) (trigger : SnapshotTrigger)
    (reason : SnapshotReason) (createdAtUtc : Int64) :
    (perform J d (e, .put payload trigger reason createdAtUtc))[snapshotFileName id]? =
      d[snapshotFileName id]? := by
  unfold perform
  dsimp only
  cases hput : put J e d payload trigger reason createdAtUtc with
  | error exception => rfl
  | ok ran =>
    obtain ⟨result, d'⟩ := ran
    rcases put_cases hput with ⟨_, _, rfl⟩ | ⟨_, _, hhead⟩ | ⟨_, hmem, _, hwritten⟩
    · rfl
    · have hkept := putHead_keeps_newer h e (headLocked d) (payloadId J payload) false
      rwa [hhead] at hkept
    · have hne : snapshotFileName id ≠ snapshotFileName (payloadId J payload) := by
        rintro heq
        exact hmem (heq ▸ h.mem)
      have hsame : (written J d payload trigger reason createdAtUtc)[snapshotFileName id]? =
          d[snapshotFileName id]? := renamed_other hne (snapshotFileName_ne_tmp id _) _
      rcases hwritten with ⟨_, _, _, haside⟩ | ⟨_, _, _, _, rfl⟩ | ⟨_, hhead⟩
      · exact haside.file id
      · exact hsame
      · have hkept := putHead_keeps_newer ((newer_congr hsame).mpr h) e (headLocked d)
          (payloadId J payload) true
        rw [hhead] at hkept
        exact hkept.trans hsame

theorem perform_remove_keeps_newer (other : Str) :
    (perform J d (e, .remove other))[snapshotFileName id]? = d[snapshotFileName id]? := by
  change (remove J e d other).2[snapshotFileName id]? = _
  rcases hremove : remove J e d other with ⟨result, d'⟩
  rcases remove_cases hremove with ⟨_, _, rfl⟩ | ⟨snap, r, d2, hsnap, hmove, hend⟩
  · exact readLocked_keeps_newer h e other
  obtain ⟨r', d2', hmove', haside, _⟩ := removeHead_cases e d other snap
  obtain ⟨rfl, rfl⟩ := Prod.mk.inj (hmove.symm.trans hmove')
  rcases hend with ⟨_, _, rfl, _⟩ | ⟨_, _, _, rfl⟩
  · exact haside.file id
  · have hne : snapshotFileName other ≠ snapshotFileName id := by
      intro heq
      rw [snapshotFileName_inj.mp heq, h.not_stored] at hsnap
      exact absurd hsnap (by simp)
    change (d2.erase (snapshotFileName other))[snapshotFileName id]? = d[snapshotFileName id]?
    rw [← haside.file id]
    simp [Std.ExtTreeMap.getElem?_erase, hne]

theorem perform_keeps_newer (c : Env × Call) :
    (perform J d c)[snapshotFileName id]? = d[snapshotFileName id]? := by
  obtain ⟨e, call⟩ := c
  cases call with
  | put payload trigger reason createdAtUtc =>
      exact perform_put_keeps_newer h payload trigger reason _
  | list => exact scanNames_keeps_newer h e _
  | read other => exact readLocked_keeps_newer h e other
  | remove other => exact perform_remove_keeps_newer h other
  | head => rfl

theorem runCalls_keeps_newer (calls : List (Env × Call)) :
    (runCalls J d calls)[snapshotFileName id]? = d[snapshotFileName id]? := by
  induction calls generalizing d with
  | nil => rfl
  | cons c calls ih =>
    have hc := perform_keeps_newer h c
    exact (ih ((newer_congr hc).mpr h)).trans hc

end Keeps

/-- No other row has the id of this one, if that id is on the chain. -/
def RowUnique (J : Json.Codec) (d : Directory) (m : SnapshotMeta) : Prop :=
  OnChain J d m.id → ∀ name ∈ d, ∀ m', rowOfName J d name = some m' →
  m'.id = m.id → m' = m

theorem listed_iff {m : SnapshotMeta} :
    (∀ e, m ∈ (list J e d).1) ↔ (∃ name ∈ d, rowOfName J d name = some m) ∧
    RowUnique J d m := by
  constructor
  · intro h
    have hlisted : ∀ o, m ∈ orderNewestFirst (rows J o d) (headLocked d) := fun o => by
      have ho := h { Env.quiet with order := o }
      rwa [(list_rows _ d).1] at ho
    refine ⟨mem_rows.mp (mem_of_mem_order (hlisted .sorted)),
      fun hchain name hname m' hrow hid => ?_⟩
    by_contra hne
    obtain ⟨o, ho⟩ := lost_row hname hrow hid.symm hchain (Ne.symm hne)
    exact ho (hlisted o)
  · rintro ⟨hrow, hunique⟩ e
    have hm : m ∈ rows J e.order d := mem_rows.mpr hrow
    rw [(list_rows e d).1]
    by_cases htaken : m.id ∈ (chainOf (rows J e.order d) (headLocked d)).2
    · obtain ⟨a, ha, hid⟩ := visited_of_taken hm htaken
      obtain ⟨name, hname, harow⟩ := mem_rows.mp (byId_mem (chainOf_visited ha).1)
      obtain rfl := hunique (hid ▸ onChain_of_visited ha) name hname a harow hid
      exact mem_orderNewestFirst.mpr (.inl ha)
    · exact mem_orderNewestFirst.mpr (.inr ⟨hm, htaken⟩)

structure FutureDocument (J : Json.Codec) (d : Directory) (id content : Str) (doc : Json)
    (formatVersion : ℤ) : Prop where
  file : d[snapshotFileName id]? = some content
  parsed : J.parse content = some doc
  version : doc.member? (str "formatVersion") = some (.int formatVersion)
  newer : kSnapshotFormatVersion.toInt < formatVersion

def futureRow (doc : Json) (id : Str) : SnapshotMeta :=
  { bestEffortMeta (some doc) id with health := .unsupported }

/-- It is refused, listed as unsupported, and stays as it is in every run. -/
structure LeftAlone (J : Json.Codec) (d : Directory) (id content : Str) (doc : Json) : Prop where
  read : ∀ e, ∃ error, (read J e d id).1 = .error error ∧ error.code = .unsupported
  remove : ∀ e, ∃ error, (remove J e d id).1 = .error error ∧ error.code = .unsupported
  listed : ∀ e, futureRow doc id ∈ (list J e d).1
  kept : ∀ calls, (runCalls J d calls)[snapshotFileName id]? = some content

section Future
variable {content : Str} {doc : Json} {formatVersion : ℤ}

theorem FutureDocument.parseFile_eq (h : FutureDocument J d id content doc formatVersion) :
    parseFile J d (snapshotFileName id) = if kJsonMaxBytes < content.length then none
    else some doc := by
  rw [parseFile, h.file]
  exact congrArg (ite _ none) h.parsed

theorem FutureDocument.newer_iff (h : FutureDocument J d id content doc formatVersion) :
    Newer J d id ↔ content.length ≤ kJsonMaxBytes ∧
      kSnapshotFormatVersion < Int32.ofInt formatVersion := by
  rw [Newer, h.parseFile_eq]
  by_cases hsize : kJsonMaxBytes < content.length
  · rw [if_pos hsize]
    exact iff_of_false (by simp [inspect]) fun hfits => absurd hfits.1 (Nat.not_le.mpr hsize)
  · rw [if_neg hsize]
    simp only [inspect, Option.bind_some, h.version]
    refine ⟨fun hinspect => ⟨Nat.not_lt.mp hsize, ?_⟩, fun hfits => by rw [if_pos hfits.2]⟩
    by_contra hold
    rw [if_neg hold] at hinspect
    split at hinspect
    · exact absurd hinspect (by simp)
    · split_ifs at hinspect

theorem future_left_alone_iff (h : FutureDocument J d id content doc formatVersion) :
    LeftAlone J d id content doc ↔
      content.length ≤ kJsonMaxBytes ∧ kSnapshotFormatVersion < Int32.ofInt formatVersion ∧
        (∃ name ∈ d, rowOfName J d name = some (futureRow doc id)) ∧
        RowUnique J d (futureRow doc id) := by
  rw [← and_assoc, ← h.newer_iff, ← listed_iff]
  refine ⟨fun hleft => ⟨readLocked_newer_iff.mp hleft.read, hleft.listed⟩,
    fun ⟨hnewer, hlisted⟩ => ?_⟩
  refine ⟨readLocked_newer_iff.mpr hnewer, fun e => ?_, hlisted, fun calls => ?_⟩
  · obtain ⟨error, herror, hcode⟩ := readLocked_newer_iff.mpr hnewer e
    rcases hread : readLocked J e d id with ⟨result, d'⟩
    rw [hread] at herror
    refine ⟨error, ?_, hcode⟩
    simp only [remove, hread, show result = .error error from herror]
  · exact (runCalls_keeps_newer hnewer calls).trans h.file

theorem future_row (h : FutureDocument J d id content doc formatVersion) (hnewer : Newer J d id)
    (hdot : (46 : UInt8) ∉ id) : rowOfName J d (snapshotFileName id) =
      some (futureRow doc id) := by
  have hfits : ¬ kJsonMaxBytes < content.length := Nat.not_lt.mpr (h.newer_iff.mp hnewer).1
  have hparse : parseFile J d (snapshotFileName id) = some doc := by
    rw [h.parseFile_eq, if_neg hfits]
  have hinspect : inspect J id (some doc) = .newer := hparse ▸ hnewer
  rw [rowOfName_digest hdot, rowOf, hparse, hinspect]
  rfl

end Future

def versionDocument (formatVersion : ℤ) : Json := .obj [(str "formatVersion", .int formatVersion)]

def versionText (formatVersion : ℤ) : Str :=
  Json.reference.dumpIndented (versionDocument formatVersion)

theorem versionText_parsed {formatVersion : ℤ} (h : (Json.int formatVersion).Canonical) :
    Json.reference.parse (versionText formatVersion) = some (versionDocument formatVersion) := by
  have htext : (versionDocument formatVersion).isText = true := by
    have hkey : validUtf8 (str "formatVersion") = true := by decide
    simp [versionDocument, Json.isText, Json.isTextMembers, hkey]
  exact Json.reference.parse_dumpIndented _ htext ⟨List.pairwise_singleton .., h, trivial⟩

def versionStore (formatVersion : ℤ) : Directory :=
  Std.ExtTreeMap.ofList [(snapshotFileName (str "f"), versionText formatVersion)] compare

theorem versionStore_two :
    FutureDocument Json.reference (versionStore 2) (str "f") (versionText 2)
      (versionDocument 2) 2 :=
  ⟨by decide, versionText_parsed ⟨by decide, by decide⟩, rfl, by decide⟩

theorem version_two_left_alone :
    LeftAlone Json.reference (versionStore 2) (str "f") (versionText 2) (versionDocument 2) := by
  have hfits : (versionText 2).length ≤ kJsonMaxBytes := by decide
  have hnewer := versionStore_two.newer_iff.mpr ⟨hfits, by decide⟩
  have hheadless : headLocked (versionStore 2) = none := by decide
  refine (future_left_alone_iff versionStore_two).mpr ⟨hfits, by decide,
    ⟨_, hnewer.mem, future_row versionStore_two hnewer (by decide)⟩, ?_⟩
  rintro ⟨top, htop, _⟩
  exact absurd (hheadless.symm.trans htop) (by simp)

theorem wrapped_version_renamed :
    FutureDocument Json.reference (versionStore 4294967297) (str "f") (versionText 4294967297)
        (versionDocument 4294967297) 4294967297 ∧
      (perform Json.reference (versionStore 4294967297) (.quiet, .read (str "f")))[
        snapshotFileName (str "f")]? = none :=
  ⟨⟨by decide, versionText_parsed ⟨by decide, by decide⟩, rfl, by decide⟩, by decide⟩

end DevMgr.Daemon
