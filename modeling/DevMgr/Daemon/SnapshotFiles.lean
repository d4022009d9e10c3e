import DevMgr.Daemon.SnapshotStore

/-!
# What a directory stores

`stored J d id` is the snapshot a read of `id` would return, a function of the
one file `<id>.json`. Names of snapshots, of `HEAD`, of temporary files and of
quarantined files never meet, so every elementary change of the directory is
invisible to all the snapshots whose file it does not touch.
-/

open DevMgr.Core

namespace DevMgr.Daemon
open Bytes

variable {J : Json.Codec} {e : Env} {d d' : Directory}

theorem snapshotFileName_inj {a b : Str} : snapshotFileName a = snapshotFileName b ↔ a = b := by
  simp [snapshotFileName]

theorem json_suffix (id : Str) : str ".json" <:+ snapshotFileName id := ⟨id, rfl⟩

theorem ne_of_not_suffix {p s t : Str} (hs : p <:+ s) (ht : ¬ p <:+ t) : s ≠ t := by
  rintro rfl
  exact ht hs

theorem snapshotFileName_ne_head (id : Str) : snapshotFileName id ≠ str "HEAD" :=
  ne_of_not_suffix (json_suffix id) (by decide)

theorem not_json_suffix_tmp (name : Str) : ¬ str ".json" <:+ tmpName name := by
  rintro ⟨p, hp⟩
  have hlast := congrArg List.getLast? hp
  rw [tmpName, getLast?_append_literal p (c := 110) (by decide),
    getLast?_append_literal name (c := 112) (by decide)] at hlast
  exact absurd hlast (by decide)

theorem snapshotFileName_ne_tmp (id name : Str) : snapshotFileName id ≠ tmpName name :=
  ne_of_not_suffix (json_suffix id) (not_json_suffix_tmp name)

theorem head_ne_tmp (name : Str) : str "HEAD" ≠ tmpName name := by
  intro h
  have hlast := congrArg List.getLast? h
  rw [tmpName, getLast?_append_literal name (c := 112) (by decide)] at hlast
  exact absurd hlast (by decide)

theorem not_skipped_file (id : Str) : ¬ Skipped (snapshotFileName id) := by
  rintro (h | h)
  · exact snapshotFileName_ne_head id h
  · obtain ⟨p, hp⟩ := h
    exact snapshotFileName_ne_tmp id p hp.symm

theorem quarantineName_candidate (e : Env) (d : Directory) (name : Str) :
    ∃ n, quarantineName e d name = candidate (badBase e name) n := by
  have hfree : ∀ fuel k, ∃ n, freeName d (badBase e name) fuel k = candidate
      (badBase e name) n := by
    intro fuel
    induction fuel with
    | zero => exact fun k => ⟨k, rfl⟩
    | succ fuel ih =>
      intro k
      rw [freeName]
      split_ifs
      · exact ih (k + 1)
      · exact ⟨k, rfl⟩
  exact hfree d.size 0

theorem quarantineName_digit (e : Env) (d : Directory) (name : Str) :
    ∃ p n, quarantineName e d name = p ++ decimal n := by
  obtain ⟨n, hn⟩ := quarantineName_candidate e d name
  rw [hn]
  cases n with
  | zero => exact ⟨_, _, rfl⟩
  | succ n => exact ⟨badBase e name ++ [46], n + 1, by simp [candidate]⟩

theorem quarantineName_append (e : Env) (d : Directory) (name : Str) :
    ∃ rest, quarantineName e d name = name ++ str ".bad-" ++ rest := by
  obtain ⟨n, hn⟩ := quarantineName_candidate e d name
  rw [hn]
  cases n with
  | zero => exact ⟨_, rfl⟩
  | succ n => exact ⟨_, List.append_assoc _ _ _⟩

theorem snapshotFileName_ne_bad (id name : Str) :
    snapshotFileName id ≠ quarantineName e d name := by
  obtain ⟨p, n, hbad⟩ := quarantineName_digit e d name
  exact ne_of_not_suffix (json_suffix id) (not_suffix_of_digit (t := str ".jso") hbad rfl)

theorem head_ne_bad (name : Str) : str "HEAD" ≠ quarantineName e d name := by
  obtain ⟨p, n, hbad⟩ := quarantineName_digit e d name
  exact ne_of_not_suffix List.suffix_rfl (not_suffix_of_digit (t := str "HEA") hbad rfl)

def stored (J : Json.Codec) (d : Directory) (id : Str) : Option Snapshot :=
  match inspect J id (parseFile J d (snapshotFileName id)) with
  | .healthy snap => some snap
  | _ => none

theorem parseFile_congr {name name' : Str} (h : d'[name']? = d[name]?) :
    parseFile J d' name' = parseFile J d name := by
  rw [parseFile, parseFile, h]

theorem stored_congr {id : Str} (h : d'[snapshotFileName id]? = d[snapshotFileName id]?) :
    stored J d' id = stored J d id := by
  rw [stored, stored, parseFile_congr h]

theorem stored_missing {id : Str} (h : d[snapshotFileName id]? = none) : stored J d id = none := by
  rw [stored, parseFile, h]
  rfl

theorem mem_of_stored {id : Str} {snap : Snapshot} (h : stored J d id = some snap) :
    snapshotFileName id ∈ d := by
  by_contra hmem
  rw [stored_missing (Std.ExtTreeMap.getElem?_eq_none hmem)] at h
  exact absurd h (by simp)

theorem inspect_healthy {id : Str} {doc : Option Json} {snap : Snapshot}
    (h : inspect J id doc = .healthy snap) :
    payloadId J snap.payload = id ∧ snap.info.id = id ∧
      snap.info.health = .ok := by
  unfold inspect at h
  split at h
  · split_ifs at h
    split at h
    · exact absurd h (by simp)
    · dsimp only at h
      split_ifs at h with hcheck
      simp only [ne_eq, not_or, not_not] at hcheck
      obtain rfl := Inspection.healthy.inj h
      exact ⟨hcheck.1, hcheck.2, rfl⟩
  · exact absurd h (by simp)

theorem stored_inspect {id : Str} {snap : Snapshot} (h : stored J d id = some snap) :
    inspect J id (parseFile J d (snapshotFileName id)) = .healthy snap := by
  unfold stored at h
  split at h
  · rename_i heq
    rw [heq, Option.some.inj h]
  · exact absurd h (by simp)

theorem stored_id {id : Str} {snap : Snapshot} (h : stored J d id = some snap) :
    snap.info.id = id := (inspect_healthy (stored_inspect h)).2.1

theorem stored_health {id : Str} {snap : Snapshot} (h : stored J d id = some snap) :
    snap.info.health = .ok := (inspect_healthy (stored_inspect h)).2.2

theorem stored_hash {id : Str} {snap : Snapshot} (h : stored J d id = some snap) :
    payloadId J snap.payload = id := (inspect_healthy (stored_inspect h)).1

theorem missingSnapshotError_code (e : Env) (d : Directory) (id : Str) :
    ∃ error, missingSnapshotError (α := Snapshot) e d id = .error error ∧
      error.code ≠ .unsupported := by
  unfold missingSnapshotError
  dsimp only
  split
  · exact ⟨_, rfl, by simp⟩
  · exact ⟨_, rfl, by simp⟩

theorem readLocked_cases (J : Json.Codec) (e : Env) (d : Directory) (id : Str) :
    (∃ snap, inspect J id (parseFile J d (snapshotFileName id)) = .healthy snap ∧
      readLocked J e d id = (.ok snap, d)) ∨
    (inspect J id (parseFile J d (snapshotFileName id)) = .newer ∧
      ∃ error, error.code = .unsupported ∧ readLocked J e d id = (.error error, d)) ∨
    (∃ what, inspect J id (parseFile J d (snapshotFileName id)) = .damaged what ∧
      ∃ error d', error.code ≠ .unsupported ∧ readLocked J e d id = (.error error, d') ∧
        (d' = d ∨ d' = (quarantineFile e d (snapshotFileName id)).2)) := by
  unfold readLocked
  split_ifs with hmem
  · split
    · rename_i what hinspect
      exact .inr (.inr ⟨what, hinspect, _, _, by simp, rfl, .inr rfl⟩)
    · rename_i hinspect
      exact .inr (.inl ⟨hinspect, _, rfl, rfl⟩)
    · rename_i snap hinspect
      exact .inl ⟨snap, hinspect, rfl⟩
  · obtain ⟨error, herror, hcode⟩ := missingSnapshotError_code e d id
    have hparse : parseFile J d (snapshotFileName id) = none := by
      rw [parseFile, Std.ExtTreeMap.getElem?_eq_none hmem]
    exact .inr (.inr ⟨_, by rw [hparse]; rfl, error, d, hcode, by rw [herror], .inl rfl⟩)

theorem readLocked_stored {id : Str} {snap : Snapshot} (h : stored J d id = some snap) :
    readLocked J e d id = (.ok snap, d) := by
  have hinspect := stored_inspect h
  rcases readLocked_cases J e d id with ⟨s, hs, hread⟩ | ⟨hnew, _⟩ | ⟨what, hbad, _⟩
  · rw [hinspect] at hs
    rw [hread, Inspection.healthy.inj hs]
  · rw [hinspect] at hnew
    exact absurd hnew (by simp)
  · rw [hinspect] at hbad
    exact absurd hbad (by simp)

theorem readLocked_ok {id : Str} {snap : Snapshot} (h : readLocked J e d id = (.ok snap, d')) :
    stored J d id = some snap ∧ d' = d := by
  rcases readLocked_cases J e d id with ⟨s, hs, hread⟩ | ⟨_, error, _, hread⟩ |
    ⟨_, _, error, d'', _, hread, _⟩
  · rw [hread] at h
    obtain ⟨hsnap, hd⟩ := Prod.mk.inj h
    exact ⟨by rw [stored, hs, Except.ok.inj hsnap], hd.symm⟩
  · rw [hread] at h
    exact absurd (congrArg Prod.fst h) (by simp)
  · rw [hread] at h
    exact absurd (congrArg Prod.fst h) (by simp)

/-- `HEAD` and the stored snapshots are the same in both directories, and no snapshot file is new:
what a call leaves that only reads, and quarantines what it finds damaged. -/
structure Kept (J : Json.Codec) (d d' : Directory) : Prop where
  head : headLocked d' = headLocked d
  stored : ∀ id, stored J d' id = stored J d id
  present : ∀ id, snapshotFileName id ∈ d' → snapshotFileName id ∈ d

theorem Kept.refl (d : Directory) : Kept J d d := ⟨rfl, fun _ => rfl, fun _ h => h⟩

theorem Kept.trans {d'' : Directory} (h : Kept J d d') (h' : Kept J d' d'') : Kept J d d'' :=
  ⟨h'.head.trans h.head, fun id => (h'.stored id).trans (h.stored id),
    fun id hid => h.present id (h'.present id hid)⟩

theorem headLocked_congr (h : d'[str "HEAD"]? = d[str "HEAD"]?) : headLocked d' = headLocked d := by
  rw [headLocked, headLocked, h]

theorem Kept.of_eq (hhead : headLocked d' = headLocked d)
    (hfiles : ∀ id, d'[snapshotFileName id]? = d[snapshotFileName id]?) : Kept J d d' := by
  refine ⟨hhead, fun id => stored_congr (hfiles id), fun id hid => ?_⟩
  rw [Std.ExtTreeMap.mem_iff_isSome_getElem?] at hid ⊢
  rwa [← hfiles id]

def OnlyAside (d d' : Directory) : Prop := ∀ name, ¬ Skipped name → d'[name]? = d[name]?

theorem OnlyAside.file (h : OnlyAside d d') (id : Str) :
    d'[snapshotFileName id]? = d[snapshotFileName id]? := h _ (not_skipped_file id)

theorem onlyAside_tmp {name : Str} (h : ∀ other, other ≠ tmpName name → d'[other]? = d[other]?) :
    OnlyAside d d' := by
  intro other hskip
  refine h other ?_
  rintro rfl
  exact hskip (.inr ⟨name, rfl⟩)

theorem onlyAside_head (content : Str) : OnlyAside d (renamed d (str "HEAD") content) := by
  intro other hskip
  refine renamed_other ?_ ?_ content
  · rintro rfl
    exact hskip (.inl rfl)
  · rintro rfl
    exact hskip (.inr ⟨str "HEAD", rfl⟩)

theorem quarantineFile_other {name other : Str} (hne : other ≠ name)
    (hbad : other ≠ quarantineName e d name) :
    (quarantineFile e d name).2[other]? = d[other]? := by
  unfold quarantineFile
  split
  · split_ifs
    · simp [Std.ExtTreeMap.getElem?_erase, Std.ExtTreeMap.getElem?_insert, hne.symm, hbad.symm]
    · rfl
  · rfl

theorem quarantineFile_self {name : Str} (hbad : name ≠ quarantineName e d name) :
    (quarantineFile e d name).2[name]? = d[name]? ∨
    (quarantineFile e d name).2[name]? = none := by
  unfold quarantineFile
  split
  · split_ifs
    · exact .inr (by simp [hbad.symm])
    · exact .inl rfl
  · exact .inl rfl

theorem kept_quarantineFile {id : Str} (h : stored J d id = none) :
    Kept J d (quarantineFile e d (snapshotFileName id)).2 := by
  have hother : ∀ name, name ≠ snapshotFileName id →
      name ≠ quarantineName e d (snapshotFileName id) →
      (quarantineFile e d (snapshotFileName id)).2[name]? = d[name]? :=
    fun name hne hbad => quarantineFile_other hne hbad
  refine ⟨headLocked_congr (hother _ (snapshotFileName_ne_head id).symm (head_ne_bad _)),
    ?_, ?_⟩
  · intro x
    by_cases hx : x = id
    · subst x
      rcases quarantineFile_self (e := e) (d := d) (snapshotFileName_ne_bad id _) with hself | hself
      · exact stored_congr hself
      · rw [stored_missing hself, h]
    · exact stored_congr (hother _ (snapshotFileName_inj.not.mpr hx) (snapshotFileName_ne_bad x _))
  · intro x hmem
    by_cases hx : x = id
    · subst x
      rcases quarantineFile_self (e := e) (d := d) (snapshotFileName_ne_bad id _) with hself | hself
      · rw [Std.ExtTreeMap.mem_iff_isSome_getElem?] at hmem ⊢
        rwa [← hself]
      · rw [Std.ExtTreeMap.mem_iff_isSome_getElem?, hself] at hmem
        exact absurd hmem (by simp)
    · rw [Std.ExtTreeMap.mem_iff_isSome_getElem?] at hmem ⊢
      rwa [← hother _ (snapshotFileName_inj.not.mpr hx) (snapshotFileName_ne_bad x _)]

theorem kept_readLocked (e : Env) (d : Directory) (id : Str) :
    Kept J d (readLocked J e d id).2 := by
  rcases readLocked_cases J e d id with ⟨snap, _, hread⟩ | ⟨_, error, _, hread⟩ |
    ⟨what, hwhat, error, d', _, hread, rfl | rfl⟩
  · rw [hread]
    exact .refl d
  · rw [hread]
    exact .refl d
  · rw [hread]
    exact .refl _
  · rw [hread]
    exact kept_quarantineFile (by rw [stored, hwhat])

end DevMgr.Daemon
