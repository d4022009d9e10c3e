import DevMgr.Daemon.SnapshotFiles

/-!
# What a scan lists

Scanning reads the files one after another and quarantines the damaged ones as it
goes. None of that shows in its rows: the row of a name is a function of the
directory the scan started in, so the scan is a `filterMap` over the names. The
rows are then ordered by the chain walk from `HEAD`, which drops a row only when
another row with its id stands on the chain.
-/

open DevMgr.Core

namespace DevMgr.Daemon
open Bytes

variable {J : Json.Codec} {e : Env} {d d' : Directory}

def rowOf (J : Json.Codec) (d : Directory) (id : Str) : SnapshotMeta :=
  match inspect J id (parseFile J d (snapshotFileName id)) with
  | .damaged _ => { bestEffortMeta (some .null) id with health := .corrupt }
  | .newer =>
    { bestEffortMeta (parseFile J d (snapshotFileName id)) id with health := .unsupported }
  | .healthy snap => snap.info

def badRow (J : Json.Codec) (d : Directory) (name : Str) : SnapshotMeta :=
  { bestEffortMeta (parseFile J d name) (idFromFileName name) with health := .corrupt }

def rowOfName (J : Json.Codec) (d : Directory) (name : Str) : Option SnapshotMeta :=
  if Skipped name then none
  else if Quarantined name then some (badRow J d name)
  else if ¬ str ".json" <:+ name then none
  else some (rowOf J d (idFromFileName name))

theorem rowOf_congr {id : Str} (h : d'[snapshotFileName id]? = d[snapshotFileName id]?) :
    rowOf J d' id = rowOf J d id := by
  rw [rowOf, rowOf, parseFile_congr h]

theorem rowOf_damaged {id what : Str}
    (h : inspect J id (parseFile J d (snapshotFileName id)) = .damaged what) :
    rowOf J d id = { bestEffortMeta (some .null) id with health := .corrupt } := by
  rw [rowOf, h]

theorem rowOf_missing {id : Str} (h : d[snapshotFileName id]? = none) :
    rowOf J d id = { bestEffortMeta (some .null) id with health := .corrupt } := by
  rw [rowOf, parseFile, h]
  rfl

theorem rowOf_stored {id : Str} {snap : Snapshot} (h : stored J d id = some snap) :
    rowOf J d id = snap.info := by
  rw [rowOf, stored_inspect h]

theorem rowOf_ok {id : Str} (h : (rowOf J d id).health = .ok) :
    ∃ snap, stored J d id = some snap ∧ snap.info = rowOf J d id := by
  unfold rowOf at h ⊢
  unfold stored
  split at h
  · exact absurd h (by simp)
  · exact absurd h (by simp)
  · rename_i snap hinspect
    exact ⟨snap, by rw [hinspect], rfl⟩

theorem scanOneLocked_row (e : Env) (d : Directory) (id : Str) :
    (scanOneLocked J e d id).1 = rowOf J d id ∧
      (scanOneLocked J e d id).2 = (readLocked J e d id).2 := by
  unfold scanOneLocked
  rcases readLocked_cases J e d id with
    ⟨snap, hinspect, hread⟩ | ⟨hinspect, error, hcode, hread⟩ |
    ⟨what, hinspect, error, d', hcode, hread, _⟩
  · rw [hread, rowOf, hinspect]
    exact ⟨rfl, rfl⟩
  · rw [hread, rowOf, hinspect]
    simp [hcode]
  · rw [hread, rowOf, hinspect]
    simp [hcode]

structure SameRows (J : Json.Codec) (d d' : Directory) : Prop where
  row : ∀ id, rowOf J d' id = rowOf J d id
  bad : ∀ name, name ∈ d → Quarantined name → d'[name]? = d[name]?

theorem SameRows.refl (d : Directory) : SameRows J d d := ⟨fun _ => rfl, fun _ _ _ => rfl⟩

theorem SameRows.trans {d'' : Directory} (h : SameRows J d d') (h' : SameRows J d' d'') :
    SameRows J d d'' := by
  refine ⟨fun id => (h'.row id).trans (h.row id), fun name hmem hbad => ?_⟩
  have hmem' : name ∈ d' := by
    rw [Std.ExtTreeMap.mem_iff_isSome_getElem?, h.bad name hmem hbad]
    exact Std.ExtTreeMap.mem_iff_isSome_getElem?.mp hmem
  rw [h'.bad name hmem' hbad, h.bad name hmem hbad]

theorem sameRows_quarantineFile {id what : Str} (hid : ¬ Quarantined (snapshotFileName id))
    (h : inspect J id (parseFile J d (snapshotFileName id)) = .damaged what) :
    SameRows J d (quarantineFile e d (snapshotFileName id)).2 := by
  refine ⟨fun x => ?_, fun name hmem hbad => ?_⟩
  · by_cases hx : x = id
    · subst x
      rcases quarantineFile_self (e := e) (d := d) (snapshotFileName_ne_bad id _) with hself | hself
      · exact rowOf_congr hself
      · rw [rowOf_missing hself, rowOf_damaged h]
    · exact rowOf_congr (quarantineFile_other (snapshotFileName_inj.not.mpr hx)
        (snapshotFileName_ne_bad x _))
  · refine quarantineFile_other ?_ ?_
    · rintro rfl
      exact hid hbad
    · rintro rfl
      exact quarantineName_not_mem _ _ _ hmem

theorem sameRows_readLocked {id : Str} (hid : ¬ Quarantined (snapshotFileName id)) :
    SameRows J d (readLocked J e d id).2 := by
  rcases readLocked_cases J e d id with ⟨snap, _, hread⟩ | ⟨_, error, _, hread⟩ |
    ⟨what, hwhat, error, d', _, hread, rfl | rfl⟩
  · rw [hread]
    exact .refl d
  · rw [hread]
    exact .refl d
  · rw [hread]
    exact .refl _
  · rw [hread]
    exact sameRows_quarantineFile hid hwhat

theorem not_quarantined_file {name : Str} (hjson : str ".json" <:+ name)
    (hname : ¬ Quarantined name) : ¬ Quarantined (snapshotFileName (idFromFileName name)) :=
  fun h => hname (h.trans (before_leads hjson.isInfix).isInfix)

theorem scanName_row (e : Env) (d : Directory) (name : Str) :
    (scanName J e d name).1 = rowOfName J d name ∧ SameRows J d (scanName J e d name).2 ∧
      Kept J d (scanName J e d name).2 := by
  unfold scanName rowOfName
  split_ifs with hskip hbad hjson
  · exact ⟨rfl, .refl d, .refl d⟩
  · exact ⟨rfl, .refl d, .refl d⟩
  · obtain ⟨hrow, hdir⟩ := scanOneLocked_row (J := J) e d (idFromFileName name)
    dsimp only
    rw [hrow, hdir]
    exact ⟨rfl, sameRows_readLocked (not_quarantined_file hjson hbad), kept_readLocked e d _⟩
  · exact ⟨rfl, .refl d, .refl d⟩

theorem rowOfName_congr (h : SameRows J d d') {name : Str} (hmem : name ∈ d) :
    rowOfName J d' name = rowOfName J d name := by
  unfold rowOfName
  split_ifs with hskip hbad hjson
  · rfl
  · rw [badRow, badRow, parseFile_congr (h.bad name hmem hbad)]
  · rw [h.row]
  · rfl

theorem scanNames_rows (e : Env) {names : List Str} (hnames : ∀ name ∈ names, name ∈ d)
    (h : SameRows J d d') (hk : Kept J d d') :
    (scanNames J e names d').1 = names.filterMap (rowOfName J d) ∧
      Kept J d (scanNames J e names d').2 := by
  induction names generalizing d' with
  | nil => exact ⟨rfl, hk⟩
  | cons name names ih =>
    obtain ⟨hrow, hsame, hkept⟩ := scanName_row (J := J) e d' name
    obtain ⟨hrows, hrest⟩ := ih (fun n hn => hnames n (List.mem_cons_of_mem _ hn))
      (h.trans hsame) (hk.trans hkept)
    have hname := rowOfName_congr h (hnames name List.mem_cons_self)
    simp only [scanNames, hrow, hrows, hname]
    refine ⟨?_, hrest⟩
    rw [List.filterMap_cons]
    cases rowOfName J d name <;> rfl

theorem sameRows_scanNames (e : Env) (names : List Str) (d : Directory) :
    SameRows J d (scanNames J e names d).2 := by
  induction names generalizing d with
  | nil => exact .refl d
  | cons name names ih =>
    obtain ⟨_, hsame, _⟩ := scanName_row (J := J) e d name
    exact hsame.trans (ih _)

theorem scanLocked_newer {id : Str}
    (h : inspect J id (parseFile J d (snapshotFileName id)) = .newer) :
    snapshotFileName id ∈ (scanLocked J e d).2 := by
  by_contra hgone
  have hrow : rowOf J (scanLocked J e d).2 id = rowOf J d id :=
    (sameRows_scanNames e (e.order.names d) d).row id
  have hhealth := congrArg SnapshotMeta.health hrow
  rw [rowOf_missing (Std.ExtTreeMap.getElem?_eq_none hgone), rowOf, h] at hhealth
  exact absurd hhealth (by simp)

theorem order_mem (o : ScanOrder) {name : Str} : name ∈ o.names d ↔ name ∈ d := by
  rw [(o.perm d).mem_iff, Std.ExtTreeMap.mem_keys]

def rows (J : Json.Codec) (o : ScanOrder) (d : Directory) : List SnapshotMeta :=
  (o.names d).filterMap (rowOfName J d)

theorem scanLocked_rows (e : Env) (d : Directory) :
    (scanLocked J e d).1 = rows J e.order d ∧ Kept J d (scanLocked J e d).2 :=
  scanNames_rows e (fun _ => (order_mem e.order).mp) (.refl d) (.refl d)

theorem list_rows (e : Env) (d : Directory) :
    (list J e d).1 = orderNewestFirst (rows J e.order d) (headLocked d) ∧
      Kept J d (list J e d).2 := by
  obtain ⟨hrows, hkept⟩ := scanLocked_rows (J := J) e d
  simp only [list, hrows, hkept.head]
  exact ⟨trivial, hkept⟩

theorem mem_rows {o : ScanOrder} {m : SnapshotMeta} :
    m ∈ rows J o d ↔ ∃ name ∈ d, rowOfName J d name = some m := by
  simp [rows, List.mem_filterMap, order_mem]

end DevMgr.Daemon
