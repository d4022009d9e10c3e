import DevMgr.Daemon.SnapshotRuns

/-!
# What a listing loses

A listing owes a row to every readable snapshot, to every file of a newer format
and to every quarantined file. It pays them all, in whatever order the directory
is read, exactly when no two files with different rows carry one id on the chain
from `HEAD`, when newer and quarantined files are recognised as what they are,
and when a readable snapshot off the chain is reached under one name only. Any
quarantined copy of a snapshot on the chain is enough to lose a row.
-/

open DevMgr.Core

namespace DevMgr.Daemon
open Bytes

variable {J : Json.Codec} {d : Directory}

/-- The file is within the size gate, and what is left of its format in an `int` is above the
supported one. -/
def SeenNewer (J : Json.Codec) (d : Directory) (name : Str) : Prop :=
  ∃ content doc, ∃ formatVersion : ℤ, d[name]? = some content ∧
    content.length ≤ kJsonMaxBytes ∧
      J.parse content = some doc ∧ doc.member? (str "formatVersion") = some (.int formatVersion) ∧
      1 < formatVersion.bmod (2 ^ 32)

/-- The document claims a format above the supported one, by its number or by what is left of the
number in an `int`. -/
def NewerFormat (J : Json.Codec) (d : Directory) (id : Str) : Prop :=
  SeenNewer J d (snapshotFileName id) ∨
  ∃ content doc, ∃ formatVersion : ℤ, d[snapshotFileName id]? = some content ∧
    J.parse content = some doc ∧ doc.member? (str "formatVersion") = some (.int formatVersion) ∧
      1 < formatVersion

/-- The health under which a file has to appear. -/
inductive Owed (J : Json.Codec) (d : Directory) : Str → SnapshotHealth → Prop where
  | readable (id : Str) (snap : Snapshot) (h : stored J d id = some snap) :
    Owed J d (snapshotFileName id) .ok
  | newer (id : Str) (h : NewerFormat J d id) : Owed J d (snapshotFileName id) .unsupported
  | quarantined (name : Str) (hmem : name ∈ d) (h : Quarantined name) : Owed J d name .corrupt

def ListsAll (J : Json.Codec) (d : Directory) (listed : List SnapshotMeta) : Prop :=
  (∀ name health, Owed J d name health →
    ∃ m, rowOfName J d name = some m ∧ m.health = health ∧ m ∈ listed) ∧
  ∀ id snap, stored J d id = some snap →
    listed.countP (fun m => m.id = id ∧ m.health = .ok) = 1

def RowLink (J : Json.Codec) (d : Directory) (id parent : Str) : Prop :=
  ∃ name ∈ d, ∃ m, rowOfName J d name = some m ∧ m.id = id ∧ m.parent = some parent

def OnChain (J : Json.Codec) (d : Directory) (id : Str) : Prop :=
  ∃ top, headLocked d = some top ∧ Relation.ReflTransGen (RowLink J d) top id

/-- One row for each id on the chain. -/
def ChainUnique (J : Json.Codec) (d : Directory) : Prop :=
  ∀ name ∈ d, ∀ name' ∈ d, ∀ m m', rowOfName J d name = some m →
    rowOfName J d name' = some m' →
    m.id = m'.id → OnChain J d m.id → m = m'

/-- Files of a newer format and quarantined ones are taken for what they are: the names give them
away, and where `.json` stands in a name twice, the file that is read for it is of a newer format
too. -/
structure Listable (J : Json.Codec) (d : Directory) : Prop where
  newer : ∀ id, NewerFormat J d id → ¬ str ".bad-" <:+: snapshotFileName id ∧
    SeenNewer J d (before (str ".json") (snapshotFileName id) ++ str ".json")
  quarantined : ∀ name ∈ d, str ".bad-" <:+: name → ¬ str ".tmp" <:+ name
  unique : ChainUnique J d
  alone : ∀ id snap, stored J d id = some snap → ¬ OnChain J d id →
    ∀ name ∈ d, rowOfName J d name = some snap.info → name = snapshotFileName id

theorem owed_mem {name : Str} {health : SnapshotHealth} (h : Owed J d name health) :
    name ∈ d := by
  cases h with
  | readable id snap h => exact mem_of_stored h
  | newer id h =>
    by_contra hmem
    have hnone := Std.ExtTreeMap.getElem?_eq_none hmem
    obtain ⟨content, hcontent⟩ : ∃ content, d[snapshotFileName id]? = some content := by
      obtain ⟨content, _, _, hcontent, _⟩ | ⟨content, _, _, hcontent, _⟩ := h
      · exact ⟨content, hcontent⟩
      · exact ⟨content, hcontent⟩
    exact absurd (hnone.symm.trans hcontent) nofun
  | quarantined name hmem h => exact hmem

theorem parseFile_some_iff {name : Str} {doc : Json} : parseFile J d name = some doc ↔
    ∃ content, d[name]? = some content ∧ content.length ≤ kJsonMaxBytes ∧
    J.parse content = some doc := by
  unfold parseFile
  split
  · rename_i hnone
    simp [hnone]
  · rename_i content hcontent
    rw [hcontent]
    by_cases hsize : kJsonMaxBytes < content.length
    · simp [if_pos hsize, Nat.not_le.mpr hsize]
    · simp [if_neg hsize, Nat.not_lt.mp hsize]

theorem newer_int (formatVersion : ℤ) :
    kSnapshotFormatVersion < Int32.ofInt formatVersion ↔ 1 < formatVersion.bmod (2 ^ 32) := by
  rw [Int32.lt_iff_toInt_lt, Int32.toInt_ofInt]
  rfl

theorem inspect_newer_iff {id : Str} {parsed : Option Json} : inspect J id parsed = .newer ↔
    ∃ doc, ∃ formatVersion : ℤ, parsed = some doc ∧
      doc.member? (str "formatVersion") = some (.int formatVersion) ∧
      1 < formatVersion.bmod (2 ^ 32) := by
  constructor
  · intro h
    unfold inspect at h
    split at h
    · rename_i formatVersion hversion
      obtain ⟨doc, rfl, hmember⟩ := Option.bind_eq_some_iff.mp hversion
      split_ifs at h with hnewer
      · exact ⟨doc, formatVersion, rfl, hmember, (newer_int formatVersion).mp hnewer⟩
      · split at h
        · cases h
        · dsimp only at h
          split_ifs at h
    · cases h
  · rintro ⟨doc, formatVersion, rfl, hmember, hnewer⟩
    rw [inspect, Option.bind_some, hmember]
    exact if_pos ((newer_int formatVersion).mpr hnewer)

theorem seenNewer_iff {id : Str} :
    SeenNewer J d (snapshotFileName id) ↔
    inspect J id (parseFile J d (snapshotFileName id)) = .newer := by
  rw [inspect_newer_iff]
  simp only [parseFile_some_iff, SeenNewer]
  constructor
  · rintro ⟨content, doc, formatVersion, hcontent, hsize, hparse, hmember, hnewer⟩
    exact ⟨doc, formatVersion, ⟨content, hcontent, hsize, hparse⟩, hmember, hnewer⟩
  · rintro ⟨doc, formatVersion, ⟨content, hcontent, hsize, hparse⟩, hmember, hnewer⟩
    exact ⟨content, doc, formatVersion, hcontent, hsize, hparse, hmember, hnewer⟩

theorem rowOf_unsupported_iff {id : Str} :
    (rowOf J d id).health = .unsupported ↔ SeenNewer J d (snapshotFileName id) := by
  rw [seenNewer_iff, rowOf]
  cases hinspect : inspect J id (parseFile J d (snapshotFileName id)) with
  | damaged what => simp
  | newer => simp
  | healthy snap =>
    have hstored : stored J d id = some snap := by rw [stored, hinspect]
    simp [stored_health hstored]

theorem newer_row_iff {id : Str} :
    (∃ m, rowOfName J d (snapshotFileName id) = some m ∧ m.health = .unsupported) ↔
      ¬ str ".bad-" <:+: snapshotFileName id ∧
        SeenNewer J d (before (str ".json") (snapshotFileName id) ++ str ".json") := by
  have hrow : SeenNewer J d (before (str ".json") (snapshotFileName id) ++ str ".json") ↔
      (rowOf J d (idFromFileName (snapshotFileName id))).health = .unsupported :=
    rowOf_unsupported_iff.symm
  rw [hrow, rowOfName, if_neg (not_skipped_file id)]
  by_cases hbad : Quarantined (snapshotFileName id)
  · have hinfix : str ".bad-" <:+: snapshotFileName id := hbad
    simp [if_pos hbad, badRow, hinfix]
  · have hinfix : ¬ str ".bad-" <:+: snapshotFileName id := hbad
    simp [if_neg hbad, json_suffix id, hinfix]

theorem skipped_of_quarantined {name : Str} (h : str ".bad-" <:+: name) : Skipped name ↔
    str ".tmp" <:+ name := by
  refine or_iff_right ?_
  rintro rfl
  exact absurd h (by decide)

theorem quarantined_row_iff {name : Str} (h : str ".bad-" <:+: name) :
    (∃ m, rowOfName J d name = some m ∧ m.health = .corrupt) ↔ ¬ str ".tmp" <:+ name := by
  rw [← skipped_of_quarantined h, rowOfName]
  by_cases hskip : Skipped name
  · simp [hskip]
  · have hbad : Quarantined name := h
    simp [if_pos hbad, badRow, hskip]

theorem rowOfName_file {name : Str} (hskip : ¬ Skipped name) (hbad : ¬ Quarantined name)
    (hjson : str ".json" <:+ name) :
    rowOfName J d (snapshotFileName (idFromFileName name)) = rowOfName J d name := by
  have hid : idFromFileName (snapshotFileName (idFromFileName name)) = idFromFileName name :=
    before_before hjson.isInfix
  simp only [rowOfName, if_neg (not_skipped_file _), if_neg (not_quarantined_file hjson hbad),
    json_suffix, hid, if_neg hskip, if_neg hbad, hjson]

theorem file_not_quarantined {id : Str} (hid : (46 : UInt8) ∉ id) :
    ¬ Quarantined (snapshotFileName id) := by
  intro h
  have hlead := leads_of_infix (p := str "bad-") (r := str "json") hid (by decide) h
  exact absurd hlead (by decide)

theorem rowOfName_digest {id : Str} (hdot : (46 : UInt8) ∉ id) :
    rowOfName J d (snapshotFileName id) = some (rowOf J d id) := by
  simp only [rowOfName, if_neg (not_skipped_file id), if_neg (file_not_quarantined hdot),
    json_suffix,
    not_true_eq_false, if_false, idFromFileName_digest hdot]

theorem rowOfName_stored {id : Str} {snap : Snapshot} (h : stored J d id = some snap) :
    rowOfName J d (snapshotFileName id) = some snap.info := by
  rw [rowOfName_digest (digest_not_mem (stored_hash h) (by decide)), rowOf_stored h]

theorem owed_or_damaged {name : Str} {m : SnapshotMeta} (hmem : name ∈ d)
    (h : rowOfName J d name = some m) :
    (∃ name', Owed J d name' m.health ∧ rowOfName J d name' = some m) ∨
      m = { bestEffortMeta (some .null) m.id with health := .corrupt } := by
  have hrow := h
  unfold rowOfName at h
  split_ifs at h with hskip hbad hjson
  · obtain rfl := Option.some.inj h
    exact .inl ⟨name, .quarantined name hmem hbad, hrow⟩
  · obtain rfl := Option.some.inj h
    have hfile := rowOfName_file (J := J) (d := d) hskip hbad hjson
    rw [hrow] at hfile
    unfold rowOf
    cases hinspect : inspect J (idFromFileName name)
      (parseFile J d (snapshotFileName (idFromFileName name))) with
    | damaged what => exact .inr rfl
    | newer =>
      rw [rowOf, hinspect] at hfile
      exact .inl ⟨_, .newer _ (.inl (seenNewer_iff.mpr hinspect)), hfile⟩
    | healthy snap =>
      have hsnap : stored J d (idFromFileName name) = some snap := by rw [stored, hinspect]
      rw [rowOf, hinspect] at hfile
      refine .inl ⟨snapshotFileName (idFromFileName name), ?_, hfile⟩
      rw [stored_health hsnap]
      exact .readable _ snap hsnap

theorem damaged_eq {m m' : SnapshotMeta}
    (h : m = { bestEffortMeta (some .null) m.id with health := .corrupt })
    (h' : m' = { bestEffortMeta (some .null) m'.id with health := .corrupt }) (hid : m.id = m'.id) :
    m = m' := by
  rw [h, h', hid]

theorem keys_nodup (d : Directory) : d.keys.Nodup := Std.ExtTreeMap.nodup_keys

def ScanOrder.leading (names : List Str) (hnodup : names.Nodup) : ScanOrder where
  names d := names.filter (· ∈ d) ++ d.keys.filter (· ∉ names)
  perm d := by
    rw [List.perm_ext_iff_of_nodup ?_ (keys_nodup d)]
    · intro name
      simp only [List.mem_append, List.mem_filter, Std.ExtTreeMap.mem_keys, decide_eq_true_eq]
      by_cases hname : name ∈ names <;> simp [hname]
    · refine List.Nodup.append (hnodup.filter _) ((keys_nodup d).filter _) ?_
      intro name hlead hrest
      simp only [List.mem_filter, decide_eq_true_eq] at hlead hrest
      exact hrest.2 hlead.1

theorem rows_leading {names : List Str} {ms : List SnapshotMeta} (hnodup : names.Nodup)
    (hmem : ∀ name ∈ names, name ∈ d) (hms : names.map (rowOfName J d) = ms.map some) :
    ∃ rest, rows J (.leading names hnodup) d = ms ++ rest := by
  have hall : names.filter (· ∈ d) = names := List.filter_eq_self.mpr (by simpa using hmem)
  have hrows : names.filterMap (rowOfName J d) = ms := by
    have hmap : names.filterMap (rowOfName J d) = (names.map (rowOfName J d)).filterMap id := by
      rw [List.filterMap_map]
      rfl
    rw [hmap, hms]
    simp
  refine ⟨(d.keys.filter (· ∉ names)).filterMap (rowOfName J d), ?_⟩
  simp only [rows, ScanOrder.leading, hall, List.filterMap_append, hrows]

theorem byId_leading {ms rest : List SnapshotMeta} {m : SnapshotMeta}
    (hnodup : (ms.map SnapshotMeta.id).Nodup) (hm : m ∈ ms) : byId (ms ++ rest) m.id = some m := by
  induction ms with
  | nil => exact absurd hm (by simp)
  | cons a ms ih =>
    rw [List.map_cons, List.nodup_cons] at hnodup
    rcases List.mem_cons.mp hm with rfl | hm
    · simp [byId]
    · have hne : a.id ≠ m.id := fun heq => hnodup.1 (heq ▸ List.mem_map_of_mem hm)
      rw [List.cons_append, byId, List.find?_cons_of_neg (by simpa using hne)]
      exact ih hnodup.2 hm

theorem path_rows {top id : Str} {l : List Str} (h : LinkWalk.Path (RowLink J d) top l id) :
    ∃ (names : List Str) (ms : List SnapshotMeta), (∀ name ∈ names, name ∈ d) ∧
      names.map (rowOfName J d) = ms.map some ∧
      ms.map SnapshotMeta.id = l ∧
      LinkWalk.Path (fun i k => ∃ m ∈ ms, m.id = i ∧ m.parent = some k) top l id := by
  induction l generalizing top with
  | nil => exact ⟨[], [], by simp, rfl, rfl, h⟩
  | cons x rest ih =>
    obtain ⟨rfl, y, ⟨name, hname, m, hrow, hid, hparent⟩, hrest⟩ := h
    obtain ⟨names, ms, hmem, hms, hids, hpath⟩ := ih hrest
    refine ⟨name :: names, m :: ms, ?_, by rw [List.map_cons, List.map_cons, hrow, hms],
      by rw [List.map_cons, hid, hids], rfl, y, ⟨m, List.mem_cons_self, hid, hparent⟩, ?_⟩
    · simpa [hname] using hmem
    · exact hpath.mono fun i k ⟨m', hm', hlink⟩ => ⟨m', List.mem_cons_of_mem _ hm', hlink⟩

theorem rowLink_of_byId {o : ScanOrder} {i k : Str}
    (h : LinkWalk.Link (byId (rows J o d)) SnapshotMeta.parent i k) : RowLink J d i k := by
  obtain ⟨m, hm, hparent⟩ := h
  obtain ⟨name, hmem, hrow⟩ := mem_rows.mp (byId_mem hm)
  exact ⟨name, hmem, m, hrow, byId_id hm, hparent⟩

theorem onChain_of_visited {o : ScanOrder} {m : SnapshotMeta}
    (h : m ∈ (chainOf (rows J o d) (headLocked d)).1) : OnChain J d m.id := by
  obtain ⟨_, _, top, htop, hreach⟩ := chainOf_visited h
  exact ⟨top, htop, Relation.ReflTransGen.mono (fun _ _ => rowLink_of_byId) _ _ hreach⟩

theorem visited_of_taken {o : ScanOrder} {m : SnapshotMeta} (hm : m ∈ rows J o d)
    (h : m.id ∈ (chainOf (rows J o d) (headLocked d)).2) :
    ∃ a ∈ (chainOf (rows J o d) (headLocked d)).1, a.id = m.id := by
  cases htop : headLocked d with
  | none => rw [htop] at h; exact absurd h (by simp [chainOf])
  | some top =>
    rw [htop] at h
    obtain ⟨a, ha⟩ := byId_isSome hm
    rcases LinkWalk.taken_visited _ _ _ _ h with hno | hno | ⟨b, hb, hbid⟩
    · exact absurd hno (by simp)
    · exact absurd (ha.symm.trans hno) (by simp)
    · exact ⟨b, hb, byId_id hbid⟩

theorem taken_of_reachable {metas : List SnapshotMeta} {top id : Str}
    (h : Relation.ReflTransGen (LinkWalk.Link (byId metas) SnapshotMeta.parent) top id) :
    id ∈ (chainOf metas (some top)).2 := by
  have hkeys : ∀ i a, byId metas i = some a → i ∈ metas.map SnapshotMeta.id := fun i a ha =>
    byId_id ha ▸ List.mem_map_of_mem (byId_mem ha)
  exact LinkWalk.reachable_taken hkeys (by simp) h

theorem lost_row {name' : Str} {m m' : SnapshotMeta} (hmem' : name' ∈ d)
    (hrow' : rowOfName J d name' = some m') (hid : m.id = m'.id) (hchain : OnChain J d m.id)
    (hne : m ≠ m') : ∃ o, m ∉ orderNewestFirst (rows J o d) (headLocked d) := by
  obtain ⟨top, htop, hreach⟩ := hchain
  obtain ⟨l, hpath, hnodup, hlast⟩ := LinkWalk.exists_path_nodup hreach
  obtain ⟨names, ms, hmem, hms, hids, hlinks⟩ := path_rows hpath
  have hms' : (names ++ [name']).map (rowOfName J d) = (ms ++ [m']).map some := by
    rw [List.map_append, List.map_append, hms, List.map_singleton, List.map_singleton, hrow']
  have hidsNodup : ((ms ++ [m']).map SnapshotMeta.id).Nodup := by
    rw [List.map_append, hids, List.map_singleton, ← hid, List.nodup_append]
    refine ⟨hnodup, List.nodup_singleton _, fun a ha b hb => ?_⟩
    rw [List.mem_singleton.mp hb]
    rintro rfl
    exact hlast ha
  have hnamesNodup : (names ++ [name']).Nodup := by
    refine List.Nodup.of_map (rowOfName J d) ?_
    rw [hms']
    exact (List.Nodup.of_map _ hidsNodup).map (Option.some_injective _)
  have hnamesMem : ∀ n ∈ names ++ [name'], n ∈ d := by
    intro n hn
    rcases List.mem_append.mp hn with hn | hn
    · exact hmem n hn
    · rwa [List.mem_singleton.mp hn]
  obtain ⟨rest, hrows⟩ := rows_leading hnamesNodup hnamesMem hms'
  refine ⟨.leading _ hnamesNodup, fun hlisted => ?_⟩
  have hfirst : byId (rows J (.leading _ hnamesNodup) d) m.id = some m' := by
    rw [hrows, hid]
    exact byId_leading hidsNodup (by simp)
  have htaken : m.id ∈ (chainOf (rows J (.leading _ hnamesNodup) d) (headLocked d)).2 := by
    rw [htop]
    refine taken_of_reachable
      (hlinks.reachable fun x _ y ⟨a, ha, hax, hparent⟩ => ⟨a, ?_, hparent⟩)
    rw [hrows, ← hax]
    exact byId_leading hidsNodup (List.mem_append_left _ ha)
  rcases mem_orderNewestFirst.mp hlisted with hvisited | hrest
  · exact hne (Option.some.inj ((chainOf_visited hvisited).1.symm.trans hfirst))
  · exact hrest.2 htaken

theorem listed_of_unique (hunique : ChainUnique J d) {o : ScanOrder} {m : SnapshotMeta}
    (hm : m ∈ rows J o d) : m ∈ orderNewestFirst (rows J o d) (headLocked d) := by
  by_cases htaken : m.id ∈ (chainOf (rows J o d) (headLocked d)).2
  · obtain ⟨a, ha, hid⟩ := visited_of_taken hm htaken
    obtain ⟨name, hmem, hrow⟩ := mem_rows.mp hm
    obtain ⟨name', hmem', hrow'⟩ := mem_rows.mp (byId_mem (chainOf_visited ha).1)
    have heq := hunique name' hmem' name hmem a m hrow' hrow hid (onChain_of_visited ha)
    exact mem_orderNewestFirst.mpr (.inl (heq ▸ ha))
  · exact mem_orderNewestFirst.mpr (.inr ⟨hm, htaken⟩)

theorem taken_of_onChain (hunique : ChainUnique J d) {o : ScanOrder} {id : Str}
    (hchain : OnChain J d id) : id ∈ (chainOf (rows J o d) (headLocked d)).2 := by
  obtain ⟨top, htop, hreach⟩ := hchain
  rw [htop]
  refine taken_of_reachable ?_
  induction hreach with
  | refl => exact .refl
  | tail hbefore hlink ih =>
    obtain ⟨name, hmem, m, hrow, hid, hparent⟩ := hlink
    refine ih.tail ⟨m, ?_, hparent⟩
    obtain ⟨a, ha⟩ := byId_isSome (mem_rows.mpr ⟨name, hmem, hrow⟩ : m ∈ rows J o d)
    obtain ⟨name', hmem', hrow'⟩ := mem_rows.mp (byId_mem ha)
    have heq := hunique name hmem name' hmem' m a hrow hrow' (byId_id ha).symm
      ⟨top, htop, hid.symm ▸ hbefore⟩
    rw [← hid, ha, heq]

def isRowOf (id : Str) (m : SnapshotMeta) : Bool := m.id = id ∧ m.health = .ok

theorem countP_eq_one_iff {α : Type} {l : List α} (hl : l.Nodup) {q : α → Bool} {a : α} (ha : a ∈ l)
    (hq : q a = true) : l.countP q = 1 ↔ ∀ b ∈ l, q b = true → b = a := by
  rw [List.countP_eq_length_filter]
  have hmem : a ∈ l.filter q := List.mem_filter.mpr ⟨ha, hq⟩
  constructor
  · intro h b hb hqb
    obtain ⟨c, hc⟩ := List.length_eq_one_iff.mp h
    have hb' : b ∈ l.filter q := List.mem_filter.mpr ⟨hb, hqb⟩
    rw [hc, List.mem_singleton] at hmem hb'
    rw [hb', hmem]
  · intro h
    refine le_antisymm ?_ (List.length_pos_of_mem hmem)
    have hsub : l.filter q ⊆ [a] := fun b hb => by
      obtain ⟨hb, hqb⟩ := List.mem_filter.mp hb
      exact List.mem_singleton.mpr (h b hb hqb)
    exact ((hl.filter q).subperm hsub).length_le

theorem count_taken {metas : List SnapshotMeta} {headId : Option Str} {m : SnapshotMeta}
    (hm : m ∈ orderNewestFirst metas headId) (hok : m.health = .ok)
    (htaken : m.id ∈ (chainOf metas headId).2) :
    (orderNewestFirst metas headId).countP (isRowOf m.id) = 1 := by
  have hvisited : m ∈ (chainOf metas headId).1 :=
    (mem_orderNewestFirst.mp hm).resolve_right fun h => h.2 htaken
  have hnodup : ((chainOf metas headId).1.map SnapshotMeta.id).Nodup := by
    cases headId with
    | none => simp [chainOf]
    | some top => exact LinkWalk.walk_nodup (fun _ _ => byId_id) _ _ _
  have hchain : (chainOf metas headId).1.countP (isRowOf m.id) = 1 := by
    rw [countP_eq_one_iff (List.Nodup.of_map _ hnodup) hvisited (by simp [isRowOf, hok])]
    intro b hb hrow
    have hid : b.id = m.id := by
      simp only [isRowOf, decide_eq_true_eq] at hrow
      exact hrow.1
    exact List.inj_on_of_nodup_map hnodup hb hvisited hid
  rw [orderNewestFirst_eq, List.countP_append, hchain, (List.perm_insertionSort _ _).countP_eq]
  have hrest : (metas.filter fun a => a.id ∉ (chainOf metas headId).2).countP
      (isRowOf m.id) = 0 := by
    rw [List.countP_eq_zero]
    intro b hb hrow
    simp only [isRowOf, decide_eq_true_eq] at hrow
    have hfree := List.of_mem_filter hb
    rw [hrow.1] at hfree
    simp [htaken] at hfree
  rw [hrest]

theorem count_free {metas : List SnapshotMeta} {headId : Option Str} {id : Str}
    (hfree : id ∉ (chainOf metas headId).2) :
    (orderNewestFirst metas headId).countP (isRowOf id) = metas.countP (isRowOf id) := by
  have hchain : (chainOf metas headId).1.countP (isRowOf id) = 0 := by
    rw [List.countP_eq_zero]
    intro b hb hrow
    simp only [isRowOf, decide_eq_true_eq] at hrow
    exact hfree (hrow.1 ▸ (chainOf_visited hb).2.1)
  rw [orderNewestFirst_eq, List.countP_append, hchain, (List.perm_insertionSort _ _).countP_eq,
    Nat.zero_add, List.countP_filter]
  refine List.countP_congr fun b _ => ?_
  simp only [isRowOf, Bool.and_eq_true, decide_eq_true_eq, and_iff_left_iff_imp]
  rintro ⟨rfl, _⟩
  exact hfree

theorem row_of_stored {id : Str} {snap : Snapshot} (h : stored J d id = some snap) {name : Str}
    (hmem : name ∈ d) : (rowOfName J d name).any (isRowOf id) = true ↔
      rowOfName J d name = some snap.info := by
  cases hrow : rowOfName J d name with
  | none => simp
  | some m =>
    simp only [Option.any_some, isRowOf, decide_eq_true_eq, Option.some.injEq]
    constructor
    · rintro ⟨hid, hok⟩
      have hm : m ∈ rows J .sorted d := mem_rows.mpr ⟨name, hmem, hrow⟩
      obtain ⟨snap', hsnap', hinfo⟩ := mem_rows_ok hm hok
      rw [hid, h] at hsnap'
      rw [← hinfo, Option.some.inj hsnap']
    · rintro rfl
      exact ⟨stored_id h, stored_health h⟩

theorem count_rows {o : ScanOrder} {id : Str} {snap : Snapshot} (h : stored J d id = some snap) :
    (rows J o d).countP (isRowOf id) = 1 ↔
      ∀ name ∈ d, rowOfName J d name = some snap.info → name = snapshotFileName id := by
  have hmem := mem_of_stored h
  have hnodup : (o.names d).Nodup := (o.perm d).nodup_iff.mpr (keys_nodup d)
  have hcount : (rows J o d).countP (isRowOf id) =
      (o.names d).countP fun name => (rowOfName J d name).any (isRowOf id) := by
    rw [rows, List.countP_filterMap]
    refine List.countP_congr fun name _ => ?_
    cases rowOfName J d name <;> rfl
  rw [hcount, countP_eq_one_iff hnodup ((order_mem o).mpr hmem)
    ((row_of_stored h hmem).mpr (rowOfName_stored h))]
  constructor
  · exact fun hall name hname hrow =>
      hall name ((order_mem o).mpr hname) ((row_of_stored h hname).mpr hrow)
  · exact fun hall name hname hrow =>
      hall name ((order_mem o).mp hname) ((row_of_stored h ((order_mem o).mp hname)).mp hrow)

theorem Listable.recognised (h : Listable J d) {name : Str} {health : SnapshotHealth}
    (howed : Owed J d name health) :
    ∃ m, rowOfName J d name = some m ∧ m.health = health := by
  cases howed with
  | readable id snap hsnap => exact ⟨snap.info, rowOfName_stored hsnap, stored_health hsnap⟩
  | newer id hnewer => exact newer_row_iff.mpr (h.newer id hnewer)
  | quarantined _ hmem hbad => exact (quarantined_row_iff hbad).mpr (h.quarantined name hmem hbad)

theorem listsAll_of_listable (h : Listable J d) (o : ScanOrder) :
    ListsAll J d (orderNewestFirst (rows J o d) (headLocked d)) := by
  refine ⟨fun name health howed => ?_, fun id snap hsnap => ?_⟩
  · obtain ⟨m, hrow, hhealth⟩ := h.recognised howed
    exact ⟨m, hrow, hhealth,
      listed_of_unique h.unique (mem_rows.mpr ⟨name, owed_mem howed, hrow⟩)⟩
  · have hm : snap.info ∈ rows J o d :=
      mem_rows.mpr ⟨_, mem_of_stored hsnap, rowOfName_stored hsnap⟩
    have hid := stored_id hsnap
    by_cases htaken : id ∈ (chainOf (rows J o d) (headLocked d)).2
    · have hcount := count_taken (listed_of_unique h.unique hm) (stored_health hsnap)
        (hid.symm ▸ htaken)
      rwa [hid] at hcount
    · have hoff : ¬ OnChain J d id := fun hchain => htaken (taken_of_onChain h.unique hchain)
      have hcount : (rows J o d).countP (isRowOf id) = 1 :=
        (count_rows hsnap).mpr (h.alone id snap hsnap hoff)
      rw [← count_free htaken] at hcount
      exact hcount

section Listed
variable (h : ∀ o, ListsAll J d (orderNewestFirst (rows J o d) (headLocked d)))

include h

theorem owed_unique {name name' : Str} {m m' : SnapshotMeta} (howed : Owed J d name m.health)
    (hrow : rowOfName J d name = some m) (hmem' : name' ∈ d) (hrow' : rowOfName J d name' = some m')
    (hid : m.id = m'.id) (hchain : OnChain J d m.id) : m = m' := by
  by_contra hne
  obtain ⟨o, ho⟩ := lost_row hmem' hrow' hid hchain hne
  obtain ⟨a, ha, _, hlisted⟩ := (h o).1 name m.health howed
  rw [hrow, Option.some.injEq] at ha
  exact ho (ha ▸ hlisted)

theorem unique_of_listsAll : ChainUnique J d := by
  intro name hmem name' hmem' m m' hrow hrow' hid hchain
  rcases owed_or_damaged hmem hrow with ⟨n, howed, hn⟩ | hdamaged
  · exact owed_unique h howed hn hmem' hrow' hid hchain
  · rcases owed_or_damaged hmem' hrow' with ⟨n, howed, hn⟩ | hdamaged'
    · exact (owed_unique h howed hn hmem hrow hid.symm (hid ▸ hchain)).symm
    · exact damaged_eq hdamaged hdamaged' hid

theorem listable_of_listsAll : Listable J d := by
  have hrecognised : ∀ name health, Owed J d name health →
      ∃ m, rowOfName J d name = some m ∧ m.health = health := by
    intro name health howed
    obtain ⟨m, hrow, hhealth, _⟩ := (h .sorted).1 name health howed
    exact ⟨m, hrow, hhealth⟩
  refine ⟨fun id hnewer => ?_, fun name hmem hbad => ?_, unique_of_listsAll h,
    fun id snap hsnap hoff => ?_⟩
  · exact newer_row_iff.mp (hrecognised _ _ (.newer id hnewer))
  · exact (quarantined_row_iff hbad).mp (hrecognised _ _ (.quarantined name hmem hbad))
  · have hm : snap.info ∈ rows J .sorted d :=
      mem_rows.mpr ⟨_, mem_of_stored hsnap, rowOfName_stored hsnap⟩
    have hfree : id ∉ (chainOf (rows J .sorted d) (headLocked d)).2 := by
      intro htaken
      rw [← stored_id hsnap] at htaken
      obtain ⟨a, ha, hid⟩ := visited_of_taken hm htaken
      rw [stored_id hsnap] at hid
      exact hoff (hid ▸ onChain_of_visited ha)
    have hcount := (h .sorted).2 id snap hsnap
    exact (count_rows hsnap).mp ((count_free hfree).symm.trans hcount)

end Listed

theorem list_loses_nothing_iff (J : Json.Codec) (d : Directory) :
    (∀ e, ListsAll J d (list J e d).1) ↔ Listable J d := by
  constructor
  · intro h
    refine listable_of_listsAll fun o => ?_
    have hlist := h { Env.quiet with order := o }
    rwa [(list_rows _ d).1] at hlist
  · intro h e
    rw [(list_rows e d).1]
    exact listsAll_of_listable h e.order

theorem not_skipped_of_last {name : Str} {c : UInt8} (hlast : name.getLast? = some c)
    (hhead : c ≠ 68) (htmp : c ≠ 112) : ¬ Skipped name := by
  intro h
  obtain h | ⟨name', h⟩ := h
  · rw [h] at hlast
    exact hhead (Option.some.inj hlast).symm
  · rw [← h, getLast?_append_literal name' (c := 112) (by decide)] at hlast
    exact htmp (Option.some.inj hlast).symm

theorem quarantined_row {id millis : Str} (hdot : (46 : UInt8) ∉ id)
    (hskip : ¬ Skipped (snapshotFileName id ++ str ".bad-" ++ millis))
    (hparse : parseFile J d (snapshotFileName id ++ str ".bad-" ++ millis) = none) :
    rowOfName J d (snapshotFileName id ++ str ".bad-" ++ millis) =
      some { bestEffortMeta none id with health := .corrupt } := by
  have hbad : Quarantined (snapshotFileName id ++ str ".bad-" ++ millis) :=
    ⟨snapshotFileName id, millis, rfl⟩
  have hid : idFromFileName (snapshotFileName id ++ str ".bad-" ++ millis) = id := by
    unfold snapshotFileName
    rw [List.append_assoc]
    exact before_append (p := str "json") (str ".bad-" ++ millis) hdot
  rw [rowOfName, if_neg hskip, if_pos hbad, badRow, hid, hparse]

def badNameOf (id : Str) : Str := snapshotFileName id ++ str ".bad-0"

theorem badNameOf_ne {id name : Str} {c : UInt8} (hname : name.getLast? = some c) (hc : c ≠ 48) :
    name ≠ badNameOf id := by
  rintro rfl
  rw [badNameOf, getLast?_append_literal _ (c := 48) (by decide)] at hname
  exact hc (Option.some.inj hname).symm

theorem badNameOf_ne_file (id id' : Str) : snapshotFileName id' ≠ badNameOf id :=
  badNameOf_ne (getLast?_append_literal _ (c := 110) (by decide)) (by decide)

theorem badNameOf_ne_head (id : Str) : str "HEAD" ≠ badNameOf id :=
  badNameOf_ne (c := 68) (by decide) (by decide)

theorem badNameOf_ne_tmp (id name : Str) : tmpName name ≠ badNameOf id :=
  badNameOf_ne (getLast?_append_literal name (c := 112) (by decide)) (by decide)

theorem badNameOf_eq (id : Str) : badNameOf id = snapshotFileName id ++ str ".bad-" ++ str "0" := by
  rw [badNameOf, List.append_assoc]
  rfl

theorem badNameOf_quarantined (id : Str) : Quarantined (badNameOf id) :=
  ⟨snapshotFileName id, str "0", (badNameOf_eq id).symm⟩

theorem badNameOf_row {id : Str} (hdot : (46 : UInt8) ∉ id)
    (hparse : parseFile J d (badNameOf id) = none) :
    rowOfName J d (badNameOf id) = some { bestEffortMeta none id with health := .corrupt } := by
  have hskip : ¬ Skipped (badNameOf id) :=
    not_skipped_of_last (getLast?_append_literal _ (c := 48) (by decide)) (by decide) (by decide)
  rw [badNameOf_eq] at hskip hparse ⊢
  exact quarantined_row hdot hskip hparse

def badName : Str := badNameOf (payloadId Json.reference emptyPayload)

def twinStore : Directory := firstStore.insert badName []

theorem parseFile_blank {d : Directory} {name : Str} (h : d[name]? = some []) :
    parseFile Json.reference d name = none := by
  rw [parseFile, h]
  decide

theorem badName_row : rowOfName Json.reference twinStore badName =
    some { bestEffortMeta none (payloadId Json.reference emptyPayload) with
      health := .corrupt } := by
  have hparse : parseFile Json.reference twinStore badName = none :=
    parseFile_blank Std.ExtTreeMap.getElem?_insert_self
  exact badNameOf_row (sha256Hex_not_mem (by decide)) hparse

theorem list_loses_twin :
    ¬ ListsAll Json.reference twinStore (list Json.reference .quiet twinStore).1 := by
  rintro ⟨hlisted, _⟩
  obtain ⟨hhead, hsnap, _⟩ := firstStore_history
  have hfile : snapshotFileName (payloadId Json.reference emptyPayload) ≠ badName :=
    badNameOf_ne_file _ _
  have hhead' : headLocked twinStore = some (payloadId Json.reference emptyPayload) := by
    rw [← hhead]
    refine headLocked_congr ?_
    have hne : str "HEAD" ≠ badName := badNameOf_ne_head _
    simp [twinStore, Std.ExtTreeMap.getElem?_insert, hne.symm]
  have hsnap' : stored Json.reference twinStore (payloadId Json.reference emptyPayload) =
      some (putSnapshot Json.reference ∅ emptyPayload .manual noReason 0) := by
    rw [← hsnap]
    refine stored_congr ?_
    simp [twinStore, Std.ExtTreeMap.getElem?_insert, hfile.symm]
  have hbad : Owed Json.reference twinStore badName .corrupt :=
    .quarantined _ (by simp [twinStore]) (badNameOf_quarantined _)
  obtain ⟨m, hrow, hok, hm⟩ := hlisted _ _ (.readable _ _ hsnap')
  obtain ⟨m', hrow', hcorrupt, hm'⟩ := hlisted _ _ hbad
  rw [rowOfName_stored hsnap', Option.some.injEq] at hrow
  rw [badName_row, Option.some.injEq] at hrow'
  have hid : m.id = payloadId Json.reference emptyPayload := by rw [← hrow]; rfl
  have hid' : m'.id = payloadId Json.reference emptyPayload := by rw [← hrow']; rfl
  rw [(list_rows _ _).1, hhead'] at hm hm'
  obtain ⟨a, ha⟩ := byId_isSome (mem_of_mem_order hm)
  rw [hid] at ha
  obtain ⟨ms, horder, hms⟩ := order_head ha
  rw [horder] at hm hm'
  have hfirst : m = a := (List.mem_cons.mp hm).resolve_right fun h => hms m h hid
  have hfirst' : m' = a := (List.mem_cons.mp hm').resolve_right fun h => hms m' h hid'
  rw [hfirst, ← hfirst', hcorrupt] at hok
  exact absurd hok (by simp)

end DevMgr.Daemon
