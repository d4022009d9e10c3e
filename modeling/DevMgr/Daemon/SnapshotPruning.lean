import Mathlib.Data.Finset.Card
import DevMgr.Daemon.SnapshotListing

/-!
# What pruning keeps

Pruning goes through the automatic rows of the listing and takes away the files of
those behind the first twenty. It deletes nothing else. The bound on the files holds
when every automatic snapshot has its row and no deletion fails: a file whose row is
taken by another one with its id is neither counted nor deleted.
-/

open DevMgr.Core

namespace DevMgr.Daemon
open Bytes

section Defs
variable (J : Json.Codec) (e : Env) (d : Directory)

def IsAuto (id : Str) : Prop := ∃ snap, stored J d id = some snap ∧ snap.info.trigger = .auto

instance (id : Str) : Decidable (IsAuto J d id) :=
  decidable_of_iff ((stored J d id).any (fun snap => snap.info.trigger = .auto) = true)
    (by simp [IsAuto, Option.any_eq_true])

def autoIds : Finset Str := ((d.keys.map idFromFileName).filter (IsAuto J d)).toFinset

def AutoRow (m : SnapshotMeta) : Prop := m.health = .ok ∧ m.trigger = .auto

instance (m : SnapshotMeta) : Decidable (AutoRow m) := inferInstanceAs (Decidable (_ ∧ _))

def autoRows : List SnapshotMeta := (list J e d).1.filter AutoRow

def surplus : List Str := ((autoRows J e d).drop kKeepAutoSnapshots).map SnapshotMeta.id

def Goes (id : Str) : Prop := id ∈ surplus J e d ∧ e.unlinkError (snapshotFileName id) = none

instance (id : Str) : Decidable (Goes J e d id) := inferInstanceAs (Decidable (_ ∧ _))

/-- Pruning has kept the bound and deleted only what it may. What is deleted is missing from the
directory the scan leaves. -/
structure PrunedWell (d' : Directory) : Prop where
  bound : (autoIds J d').card ≤ kKeepAutoSnapshots
  only : ∀ name ∈ (scanLocked J e d).2, name ∉ d' →
    ∃ id, name = snapshotFileName id ∧ IsAuto J d id ∧ headLocked d ≠ some id
  manual : ∀ id snap, stored J d id = some snap → snap.info.trigger = .manual →
    stored J d' id = some snap
  newer : ∀ id, inspect J id (parseFile J d (snapshotFileName id)) = .newer →
    snapshotFileName id ∈ d'
  quarantined : ∀ name ∈ (scanLocked J e d).2, Quarantined name → name ∈ d'
  order : (autoRows J e d).Pairwise fun m m' => IsAuto J d' m'.id → IsAuto J d' m.id

end Defs

variable {J : Json.Codec} {e : Env} {d d' : Directory}

theorem IsAuto.mem {id : Str} (h : IsAuto J d id) : snapshotFileName id ∈ d := by
  obtain ⟨snap, hsnap, _⟩ := h
  exact mem_of_stored hsnap

theorem IsAuto.file {id : Str} (h : IsAuto J d id) : idFromFileName (snapshotFileName id) = id := by
  obtain ⟨snap, hsnap, _⟩ := h
  exact idFromFileName_digest (digest_not_mem (stored_hash hsnap) (by decide))

@[simp] theorem mem_autoIds {id : Str} : id ∈ autoIds J d ↔ IsAuto J d id := by
  simp only [autoIds, List.mem_toFinset, List.mem_filter, List.mem_map, Std.ExtTreeMap.mem_keys,
    decide_eq_true_eq, and_iff_right_iff_imp]
  exact fun h => ⟨_, h.mem, h.file⟩

theorem list_head {m : SnapshotMeta} (hm : m ∈ (list J e d).1) (hhead : headLocked d = some m.id) :
    ∃ first ms, (list J e d).1 = first :: ms ∧ ∀ m' ∈ ms, m'.id ≠ m.id := by
  rw [(list_rows e d).1] at hm ⊢
  obtain ⟨first, hfirst⟩ := byId_isSome (mem_of_mem_order hm)
  rw [hhead]
  exact ⟨first, order_head hfirst⟩

theorem isAuto_of_row {m : SnapshotMeta} (hm : m ∈ autoRows J e d) : IsAuto J d m.id := by
  obtain ⟨hlisted, hrow⟩ := List.mem_filter.mp hm
  obtain ⟨hok, hauto⟩ := of_decide_eq_true hrow
  rw [(list_rows e d).1] at hlisted
  obtain ⟨snap, hsnap, hinfo⟩ := mem_rows_ok (mem_of_mem_order hlisted) hok
  exact ⟨snap, hsnap, hinfo ▸ hauto⟩

theorem surplus_row {id : Str} (h : id ∈ surplus J e d) :
    ∃ m ∈ autoRows J e d, m.id = id := by
  obtain ⟨m, hm, hid⟩ := List.mem_map.mp h
  exact ⟨m, List.mem_of_mem_drop hm, hid⟩

theorem surplus_ne_head {id : Str} (h : id ∈ surplus J e d) : headLocked d ≠ some id := by
  intro hhead
  obtain ⟨m, hm, rfl⟩ := List.mem_map.mp h
  obtain ⟨first, ms, hlist, hms⟩ :=
    list_head (List.mem_filter.mp (List.mem_of_mem_drop hm)).1 hhead
  rw [autoRows, hlist, List.filter_cons] at hm
  have hrest : m ∈ ms.filter AutoRow := by
    split at hm
    · exact List.mem_of_mem_drop hm
    · exact List.mem_of_mem_drop hm
  exact hms m (List.mem_filter.mp hrest).1 rfl

theorem unlink_getElem? {name other : Str} : (unlink e d name).2[other]? =
    if other = name ∧ e.unlinkError name = none then none else d[other]? := by
  unfold unlink
  cases e.unlinkError name with
  | some message => simp
  | none =>
    by_cases hother : other = name
    · simp [hother]
    · simp [Std.ExtTreeMap.getElem?_erase, hother, Ne.symm hother]

theorem pruneRows_getElem? (rows : List SnapshotMeta) (n : ℕ) (d : Directory) (name : Str) :
    (pruneRows e rows n d)[name]? =
      if (∃ m ∈ (rows.filter AutoRow).drop (kKeepAutoSnapshots - n),
        name = snapshotFileName m.id) ∧
        e.unlinkError name = none then none else d[name]? := by
  induction rows generalizing n d with
  | nil => simp [pruneRows]
  | cons m ms ih =>
    rw [pruneRows]
    by_cases hauto : AutoRow m
    · rw [if_neg (by rintro (h | h); exacts [h hauto.1, h hauto.2]),
        List.filter_cons_of_pos (by simpa using hauto)]
      by_cases hkeep : n + 1 ≤ kKeepAutoSnapshots
      · have hdrop : kKeepAutoSnapshots - n = (kKeepAutoSnapshots - (n + 1)) + 1 := by omega
        rw [if_pos hkeep, ih, hdrop, List.drop_succ_cons]
      · rw [if_neg hkeep]
        have hdrop : kKeepAutoSnapshots - n = 0 := by omega
        have hdrop' : kKeepAutoSnapshots - (n + 1) = 0 := by omega
        rw [ih, hdrop, hdrop', List.drop_zero, List.drop_zero, unlink_getElem?]
        by_cases hname : name = snapshotFileName m.id
        · -- the file of this row, which a later row may name again
          have hhere : ∃ m' ∈ m :: ms.filter AutoRow, name = snapshotFileName m'.id :=
            ⟨m, List.mem_cons_self, hname⟩
          by_cases hgone : e.unlinkError name = none
          · have hgone' : e.unlinkError (snapshotFileName m.id) = none := hname ▸ hgone
            have hunlinked : name = snapshotFileName m.id ∧
                e.unlinkError (snapshotFileName m.id) = none := ⟨hname, hgone'⟩
            rw [if_pos hunlinked, ite_self, if_pos ⟨hhere, hgone⟩]
          · have hgone' : ¬ e.unlinkError (snapshotFileName m.id) = none := hname ▸ hgone
            rw [if_neg (not_and_of_not_right _ hgone), if_neg (not_and_of_not_right _ hgone'),
              if_neg (not_and_of_not_right _ hgone)]
        · rw [if_neg fun h : name = _ ∧ _ => hname h.1]
          exact if_congr (and_congr_left fun _ => by simp [hname]) rfl rfl
    · have hexempt : m.health ≠ .ok ∨ m.trigger ≠ .auto := by
        by_contra hnot
        exact hauto (by simpa [AutoRow] using hnot)
      rw [if_pos hexempt, ih, List.filter_cons_of_neg (by simpa using hauto)]

theorem pruneLocked_getElem? (name : Str) : (pruneLocked J e d)[name]? =
    if (∃ id ∈ surplus J e d, name = snapshotFileName id) ∧
      e.unlinkError name = none then none
    else (scanLocked J e d).2[name]? := by
  have hprune : pruneLocked J e d = pruneRows e (list J e d).1 0 (scanLocked J e d).2 := by
    rw [(list_rows e d).1, ← (scanLocked_rows e d).1]
    rfl
  have hids : (∃ m ∈ (autoRows J e d).drop kKeepAutoSnapshots, name = snapshotFileName m.id) ↔
      ∃ id ∈ surplus J e d, name = snapshotFileName id := by
    simp only [surplus, List.mem_map, exists_exists_and_eq_and]
  rw [hprune, pruneRows_getElem?, Nat.sub_zero]
  exact if_congr (and_congr_left fun _ => hids) rfl rfl

theorem pruneLocked_file (id : Str) : (pruneLocked J e d)[snapshotFileName id]? =
    if Goes J e d id then none else (scanLocked J e d).2[snapshotFileName id]? := by
  rw [pruneLocked_getElem?]
  refine if_congr (and_congr_left fun _ => ?_) rfl rfl
  simp [snapshotFileName_inj]

theorem Goes.isAuto {id : Str} (h : Goes J e d id) : IsAuto J d id := by
  obtain ⟨m, hm, rfl⟩ := surplus_row h.1
  exact isAuto_of_row hm

theorem pruneLocked_stored (id : Str) : stored J (pruneLocked J e d) id =
    if Goes J e d id then none else stored J d id := by
  split_ifs with hgoes
  · exact stored_missing (by rw [pruneLocked_file, if_pos hgoes])
  · rw [← (scanLocked_rows e d).2.stored]
    exact stored_congr (by rw [pruneLocked_file, if_neg hgoes])

theorem pruneLocked_isAuto {id : Str} :
    IsAuto J (pruneLocked J e d) id ↔ IsAuto J d id ∧ ¬ Goes J e d id := by
  unfold IsAuto
  rw [pruneLocked_stored]
  split_ifs with hgoes <;> simp [hgoes]

theorem autoIds_pruneLocked :
    autoIds J (pruneLocked J e d) = (autoIds J d).filter fun id => ¬ Goes J e d id := by
  ext id
  rw [Finset.mem_filter, mem_autoIds, mem_autoIds, pruneLocked_isAuto]

/-- The condition for pruning to keep its promises, on the directory it finds. -/
structure Prunable (J : Json.Codec) (e : Env) (d : Directory) : Prop where
  bound : ((autoIds J d).filter fun id => ¬ Goes J e d id).card ≤ kKeepAutoSnapshots
  order : (autoRows J e d).Pairwise fun m m' => ¬ Goes J e d m'.id → ¬ Goes J e d m.id

theorem pruneLocked_gone {name : Str} (hmem : name ∈ (scanLocked J e d).2)
    (hgone : name ∉ pruneLocked J e d) : ∃ id, Goes J e d id ∧
    name = snapshotFileName id := by
  by_contra hno
  have hkept : (pruneLocked J e d)[name]? = (scanLocked J e d).2[name]? := by
    rw [pruneLocked_getElem?, if_neg]
    rintro ⟨⟨id, hid, rfl⟩, hunlink⟩
    exact hno ⟨id, ⟨hid, hunlink⟩, rfl⟩
  exact hgone ((mem_congr hkept).mpr hmem)

theorem pruneLocked_keeps_file {id : Str} (hid : snapshotFileName id ∈ (scanLocked J e d).2)
    (hgoes : ¬ Goes J e d id) : snapshotFileName id ∈ pruneLocked J e d := by
  by_contra hgone
  obtain ⟨id', hgoes', heq⟩ := pruneLocked_gone hid hgone
  exact hgoes (snapshotFileName_inj.mp heq ▸ hgoes')

theorem prunedWell_iff : PrunedWell J e d (pruneLocked J e d) ↔ Prunable J e d := by
  have horder : ((autoRows J e d).Pairwise fun m m' =>
      IsAuto J (pruneLocked J e d) m'.id → IsAuto J (pruneLocked J e d) m.id) ↔
      (autoRows J e d).Pairwise fun m m' => ¬ Goes J e d m'.id → ¬ Goes J e d m.id := by
    refine List.Pairwise.iff_of_mem fun hm hm' => ?_
    simp only [pruneLocked_isAuto, isAuto_of_row hm, isAuto_of_row hm', true_and]
  constructor
  · intro h
    exact ⟨autoIds_pruneLocked ▸ h.bound, horder.mp h.order⟩
  · intro h
    refine ⟨autoIds_pruneLocked ▸ h.bound, ?_, ?_, ?_, ?_, horder.mpr h.order⟩
    · intro name hmem hgone
      obtain ⟨id, hgoes, rfl⟩ := pruneLocked_gone hmem hgone
      exact ⟨id, rfl, hgoes.isAuto, surplus_ne_head hgoes.1⟩
    · intro id snap hsnap hmanual
      have hgoes : ¬ Goes J e d id := by
        intro hgoes
        obtain ⟨snap', hsnap', hauto⟩ := hgoes.isAuto
        rw [hsnap, Option.some.injEq] at hsnap'
        rw [← hsnap', hmanual] at hauto
        exact absurd hauto (by simp)
      rw [pruneLocked_stored, if_neg hgoes, hsnap]
    · intro id hnewer
      refine pruneLocked_keeps_file (scanLocked_newer hnewer) fun hgoes => ?_
      obtain ⟨snap, hsnap, _⟩ := hgoes.isAuto
      rw [stored, hnewer] at hsnap
      exact absurd hsnap (by simp)
    · intro name hmem hbad
      by_contra hgone
      obtain ⟨id, hgoes, rfl⟩ := pruneLocked_gone hmem hgone
      obtain ⟨snap, hsnap, _⟩ := hgoes.isAuto
      exact file_not_quarantined (digest_not_mem (stored_hash hsnap) (by decide)) hbad

def leading (J : Json.Codec) (e : Env) (d : Directory) : List Str :=
  ((autoRows J e d).take kKeepAutoSnapshots).map SnapshotMeta.id

/-- At most twenty automatic snapshots are stored, or all of them are listed and none behind the
bound resists its deletion. -/
def Bounded (J : Json.Codec) (e : Env) (d : Directory) : Prop :=
  (autoIds J d).card ≤ kKeepAutoSnapshots ∨
    (∀ id ∈ autoIds J d, id ∈ (autoRows J e d).map SnapshotMeta.id) ∧
      ∀ id ∈ surplus J e d, e.unlinkError (snapshotFileName id) = none

theorem autoRows_ids :
    (autoRows J e d).map SnapshotMeta.id = leading J e d ++ surplus J e d := by
  rw [leading, surplus, ← List.map_append, List.take_append_drop]

theorem autoRows_ids_subset :
    ((autoRows J e d).map SnapshotMeta.id).toFinset ⊆ autoIds J d := by
  intro id hid
  obtain ⟨m, hm, rfl⟩ := List.mem_map.mp (List.mem_toFinset.mp hid)
  exact mem_autoIds.mpr (isAuto_of_row hm)

section OneRowEach
variable (hnodup : ((autoRows J e d).map SnapshotMeta.id).Nodup)

include hnodup

theorem leading_stays {id : Str} (hid : id ∈ leading J e d) : ¬ Goes J e d id := by
  rw [autoRows_ids, List.nodup_append] at hnodup
  exact fun hgoes => hnodup.2.2 id hid id hgoes.1 rfl

theorem leading_card : (leading J e d).toFinset.card = (leading J e d).length := by
  rw [autoRows_ids, List.nodup_append] at hnodup
  exact List.toFinset_card_of_nodup hnodup.1

theorem bounded_of_prunable (h : Prunable J e d) : Bounded J e d := by
  by_cases hfew : (autoIds J d).card ≤ kKeepAutoSnapshots
  · exact .inl hfew
  have hlong : kKeepAutoSnapshots ≤ (autoRows J e d).length := by
    by_contra hshort
    have hnone : surplus J e d = [] := by
      rw [surplus, List.drop_eq_nil_of_le (by omega), List.map_nil]
    have hall : (autoIds J d).filter (fun id => ¬ Goes J e d id) = autoIds J d :=
      Finset.filter_true_of_mem fun id _ hgoes => by simp [Goes, hnone] at hgoes
    exact hfew (hall ▸ h.bound)
  have hlen : (leading J e d).toFinset.card = kKeepAutoSnapshots := by
    rw [leading_card hnodup, leading, List.length_map, List.length_take, min_eq_left hlong]
  have hsub : (leading J e d).toFinset ⊆ (autoIds J d).filter fun id => ¬ Goes J e d id := by
    intro id hid
    have hlead := List.mem_toFinset.mp hid
    refine Finset.mem_filter.mpr ⟨autoRows_ids_subset (e := e) ?_, leading_stays hnodup hlead⟩
    rw [autoRows_ids]
    exact List.mem_toFinset.mpr (List.mem_append_left _ hlead)
  -- the twenty leading snapshots fill the bound, so nothing else is left
  have heq := Finset.eq_of_subset_of_card_le hsub (hlen.symm ▸ h.bound)
  have hleft : ∀ id ∈ autoIds J d, ¬ Goes J e d id → id ∈ leading J e d := by
    intro id hid hgoes
    rw [← List.mem_toFinset, heq]
    exact Finset.mem_filter.mpr ⟨hid, hgoes⟩
  refine .inr ⟨fun id hid => ?_, fun id hid => ?_⟩
  · rw [autoRows_ids]
    by_cases hgoes : Goes J e d id
    · exact List.mem_append_right _ hgoes.1
    · exact List.mem_append_left _ (hleft id hid hgoes)
  · by_contra hstuck
    obtain ⟨m, hm, rfl⟩ := surplus_row hid
    have hlead := hleft m.id (mem_autoIds.mpr (isAuto_of_row hm)) fun hgoes => hstuck hgoes.2
    rw [autoRows_ids, List.nodup_append] at hnodup
    exact hnodup.2.2 m.id hlead m.id hid rfl

theorem prunable_of_bounded (h : Bounded J e d) : Prunable J e d := by
  have hall : ∀ id ∈ surplus J e d, Goes J e d id := by
    intro id hid
    rcases h with hfew | ⟨_, hunlink⟩
    · have hlen : (autoRows J e d).length ≤ kKeepAutoSnapshots := by
        have hcard := Finset.card_le_card (autoRows_ids_subset (J := J) (e := e) (d := d))
        rw [List.toFinset_card_of_nodup hnodup, List.length_map] at hcard
        exact hcard.trans hfew
      rw [surplus, List.drop_eq_nil_of_le hlen] at hid
      exact absurd hid (by simp)
    · exact ⟨hid, hunlink id hid⟩
  constructor
  · rcases h with hfew | ⟨hlisted, _⟩
    · exact (Finset.card_filter_le _ _).trans hfew
    · have hsub : (autoIds J d).filter (fun id => ¬ Goes J e d id) ⊆
          (leading J e d).toFinset := by
        intro id hid
        obtain ⟨hauto, hgoes⟩ := Finset.mem_filter.mp hid
        have hrow := hlisted id hauto
        rw [autoRows_ids, List.mem_append] at hrow
        exact List.mem_toFinset.mpr (hrow.resolve_right fun hsur => hgoes (hall id hsur))
      refine (Finset.card_le_card hsub).trans ?_
      rw [leading_card hnodup, leading, List.length_map, List.length_take]
      exact min_le_left _ _
  · rw [← List.take_append_drop kKeepAutoSnapshots (autoRows J e d), List.pairwise_append]
    have hfirst : ∀ m ∈ (autoRows J e d).take kKeepAutoSnapshots, ¬ Goes J e d m.id :=
      fun m hm => leading_stays hnodup (List.mem_map_of_mem hm)
    have hbehind : ∀ m ∈ (autoRows J e d).drop kKeepAutoSnapshots, Goes J e d m.id :=
      fun m hm => hall m.id (List.mem_map_of_mem hm)
    refine ⟨?_, ?_, fun m hm m' _ _ => hfirst m hm⟩
    · exact List.pairwise_of_forall_mem_list fun m hm _ _ _ => hfirst m hm
    · exact List.pairwise_of_forall_mem_list fun _ _ m' hm' hstay => absurd (hbehind m' hm') hstay

theorem prunable_iff_bounded : Prunable J e d ↔ Bounded J e d :=
  ⟨bounded_of_prunable hnodup, prunable_of_bounded hnodup⟩

end OneRowEach

theorem autoRows_nodup (halone : ∀ id snap, stored J d id = some snap →
    ∀ name ∈ d, rowOfName J d name = some snap.info → name = snapshotFileName id) :
    ((autoRows J e d).map SnapshotMeta.id).Nodup := by
  rw [List.nodup_iff_count_le_one]
  intro id
  by_cases hrow : id ∈ (autoRows J e d).map SnapshotMeta.id
  · obtain ⟨m, hm, rfl⟩ := List.mem_map.mp hrow
    obtain ⟨hlisted, hauto⟩ := List.mem_filter.mp hm
    obtain ⟨snap, hsnap, _⟩ := isAuto_of_row hm
    have hcount : (list J e d).1.countP (isRowOf m.id) = 1 := by
      rw [(list_rows e d).1] at hlisted ⊢
      by_cases htaken : m.id ∈ (chainOf (rows J e.order d) (headLocked d)).2
      · exact count_taken hlisted (of_decide_eq_true hauto).1 htaken
      · exact (count_free htaken).trans ((count_rows hsnap).mpr (halone m.id snap hsnap))
    rw [List.count_eq_countP, List.countP_map, autoRows, List.countP_filter, ← hcount]
    refine List.countP_mono_left fun a _ ha => ?_
    simp only [Function.comp, Bool.and_eq_true, beq_iff_eq, decide_eq_true_eq] at ha
    simp [isRowOf, ha.1, ha.2.1]
  · rw [List.count_eq_zero_of_not_mem hrow]
    exact Nat.zero_le 1

theorem row_quarantined {name : Str} {m : SnapshotMeta} (hbad : Quarantined name)
    (h : rowOfName J d name = some m) : m.health = .corrupt := by
  unfold rowOfName at h
  split_ifs at h
  · exact (Option.some.inj h) ▸ rfl

variable {payload : SnapshotPayload} {trigger : SnapshotTrigger} {reason : SnapshotReason}
  {createdAtUtc : Int64} {id : Str}

def published (J : Json.Codec) (d : Directory) (payload : SnapshotPayload)
    (trigger : SnapshotTrigger) (reason : SnapshotReason) (createdAtUtc : Int64) : Directory :=
  renamed (written J d payload trigger reason createdAtUtc) (str "HEAD")
    (headContent (payloadId J payload))

theorem put_prunes (h : put J e d payload trigger reason createdAtUtc = .ok (.ok id, d'))
    (hmem : snapshotFileName id ∉ d) (hhead : headLocked d ≠ some id) :
    d' = pruneLocked J e (published J d payload trigger reason createdAtUtc) := by
  obtain ⟨rfl, _⟩ := put_ok h
  rcases put_cases h with ⟨hself, _⟩ | ⟨_, hself, _⟩ |
    ⟨_, _, htext, ⟨error, herror, _⟩ | ⟨error, herror, _⟩ | ⟨hdoc, hput⟩⟩
  · exact absurd hself hhead
  · exact absurd hself hmem
  · exact absurd herror (by simp)
  · exact absurd herror (by simp)
  · rw [putHead, if_pos hhead] at hput
    cases hwrite : e.headWrite with
    | none =>
      rw [hwrite] at hput
      exact (Prod.mk.inj hput).2.symm
    | some fault =>
      rw [hwrite] at hput
      cases fault <;> exact absurd (Prod.mk.inj hput).1 (by simp)

theorem put_prunes_well_iff
    (h : put J e d payload trigger reason createdAtUtc = .ok (.ok id, d'))
    (hmem : snapshotFileName id ∉ d) (hhead : headLocked d ≠ some id) :
    (PrunedWell J e (published J d payload trigger reason createdAtUtc) d' ↔
      Prunable J e (published J d payload trigger reason createdAtUtc)) ∧
    (((autoRows J e (published J d payload trigger reason createdAtUtc)).map
        SnapshotMeta.id).Nodup →
      (Prunable J e (published J d payload trigger reason createdAtUtc) ↔
        Bounded J e (published J d payload trigger reason createdAtUtc))) := by
  rw [put_prunes h hmem hhead]
  exact ⟨prunedWell_iff, prunable_iff_bounded⟩

def autoPayload (c : UInt8) : SnapshotPayload :=
  ⟨[], Std.ExtTreeMap.ofList [(str "devmgr-" ++ c :: str ".conf", [])] compare⟩

def autoId (c : UInt8) : Str := payloadId Json.reference (autoPayload c)

def autoDocument (c : UInt8) : Json :=
  snapshotDocument (autoId c) none (autoPayload c) .auto noReason 0

def letters : List UInt8 := str "abcdefghijklmnopqrstu"

theorem autoId_heads : letters.map (fun c => (autoId c).take 2) =
    [str "19", str "4f", str "e9", str "9d", str "33", str "f3", str "a7", str "4e", str "bb",
      str "76", str "56", str "c1", str "22", str "85", str "cf", str "ec", str "9f", str "c5",
      str "0e", str "10", str "d3"] := by
  simp only [autoId, payloadId, sha256Hex_eq_natDigest]
  decide +kernel

theorem autoId_nodup : (letters.map autoId).Nodup := by
  refine List.Nodup.of_map (List.take 2) ?_
  rw [List.map_map]
  change (letters.map fun c => (autoId c).take 2).Nodup
  rw [autoId_heads]
  decide

theorem autoDocument_fits {c : UInt8} (hc : c ∈ letters) :
    (Json.reference.dumpIndented (autoDocument c)).length ≤ kJsonMaxBytes := by
  have hpayloads : (letters.all fun c =>
      (Json.print Json.indented 1 (payloadToJson (autoPayload c))).length ≤ 1000) = true := by
        decide
  have hlength := document_length (autoId c) none (autoPayload c) .auto noReason
  have hid : (autoId c).length = 64 := sha256Hex_length _
  have hpayload := of_decide_eq_true (List.all_eq_true.mp hpayloads c hc)
  have hmax : kJsonMaxBytes = 1048576 := rfl
  refine hlength.trans ?_
  rw [hid, hmax]
  change 500 + 6 * 64 + 6 * 0 + 6 * 0 + 6 * 0 + _ ≤ _
  omega

theorem autoPayload_text {c : UInt8} (hc : c ∈ letters) :
    (payloadToJson (autoPayload c)).isText = true := by
  have hnames : (letters.all fun c => (str "devmgr-" ++ c :: str ".conf").all fun b => b < 0x80) =
      true := by
    decide
  exact single_text (ascii_of_all (List.all_eq_true.mp hnames c hc)) nofun

theorem autoDocument_text {c : UInt8} (hc : c ∈ letters) : (autoDocument c).isText = true :=
  snapshotDocument_text (digest_text _) (by simp) (autoPayload_text hc) (by decide)

def fullStore : Directory :=
  Std.ExtTreeMap.ofList (letters.tail.map fun c =>
    (snapshotFileName (autoId c), Json.reference.dumpIndented (autoDocument c))) compare

def fullTwinStore : Directory := fullStore.insert (badNameOf (autoId 97)) []

structure Full (d : Directory) : Prop where
  files : ∀ c ∈ letters.tail,
    d[snapshotFileName (autoId c)]? = some (Json.reference.dumpIndented (autoDocument c))
  names : ∀ name ∈ d, name = badNameOf (autoId 97) ∨
    ∃ c ∈ letters.tail, name = snapshotFileName (autoId c)

theorem autoId_inj {c c' : UInt8} (hc : c ∈ letters) (hc' : c' ∈ letters)
    (h : autoId c = autoId c') : c = c' := List.inj_on_of_nodup_map autoId_nodup hc hc' h

theorem fullStore_full : Full fullStore := by
  have hdistinct : (letters.tail.map fun c => (snapshotFileName (autoId c),
      Json.reference.dumpIndented (autoDocument c))).Pairwise
        fun a b => ¬ compare a.1 b.1 = .eq := by
    rw [List.pairwise_map]
    have hnodup : letters.tail.Nodup := by decide
    refine List.Pairwise.imp_of_mem (fun hc hc' hne heq => hne ?_) hnodup
    exact autoId_inj (List.mem_of_mem_tail hc) (List.mem_of_mem_tail hc')
      (snapshotFileName_inj.mp (Std.LawfulEqOrd.eq_of_compare heq))
  constructor
  · intro c hc
    exact Std.ExtTreeMap.getElem?_ofList_of_mem Std.ReflCmp.compare_self hdistinct
      (List.mem_map_of_mem hc)
  · intro name hname
    rw [fullStore, Std.ExtTreeMap.mem_ofList, List.contains_iff_mem, List.map_map] at hname
    obtain ⟨c, hc, rfl⟩ := List.mem_map.mp hname
    exact .inr ⟨c, hc, rfl⟩

theorem fullTwinStore_full : Full fullTwinStore := by
  constructor
  · intro c hc
    rw [fullTwinStore, Std.ExtTreeMap.getElem?_insert, if_neg, fullStore_full.files c hc]
    simpa using (badNameOf_ne_file _ _).symm
  · intro name hname
    rw [fullTwinStore, Std.ExtTreeMap.mem_insert] at hname
    rcases hname with hname | hname
    · exact .inl (Std.LawfulEqOrd.eq_of_compare hname).symm
    · exact fullStore_full.names name hname

def fullPublished (d : Directory) : Directory :=
  published Json.reference d (autoPayload 97) .auto noReason 0

section Full
variable {d : Directory} (h : Full d)

include h

theorem Full.headless : headLocked d = none := by
  have hmem : str "HEAD" ∉ d := by
    intro hmem
    rcases h.names _ hmem with hbad | ⟨c, _, hfile⟩
    · exact badNameOf_ne_head _ hbad
    · exact snapshotFileName_ne_head _ hfile.symm
  rw [headLocked, Std.ExtTreeMap.getElem?_eq_none hmem]

theorem Full.free : snapshotFileName (autoId 97) ∉ d := by
  intro hmem
  rcases h.names _ hmem with hbad | ⟨c, hc, hfile⟩
  · exact badNameOf_ne_file _ _ hbad
  · obtain rfl := autoId_inj (by decide) (List.mem_of_mem_tail hc) (snapshotFileName_inj.mp hfile)
    exact absurd hc (by decide)

theorem Full.put (e : Env) (hdisk : e.docWrite = none ∧ e.headWrite = none) :
    put Json.reference e d (autoPayload 97) .auto noReason 0 =
      .ok (.ok (autoId 97), pruneLocked Json.reference e (fullPublished d)) := by
  refine put_new hdisk (autoPayload_text (by decide)) (by simp [h.headless]) h.free ?_
  rw [putDocument, h.headless]
  exact autoDocument_text (by decide)

theorem Full.published_file {c : UInt8} (hc : c ∈ letters) :
    (fullPublished d)[snapshotFileName (autoId c)]? =
      some (Json.reference.dumpIndented (autoDocument c)) := by
  rw [fullPublished, published, renamed_other (snapshotFileName_ne_head _)
    (snapshotFileName_ne_tmp _ _), written]
  by_cases hlast : c = 97
  · subst hlast
    rw [putDocument, h.headless]
    exact renamed_self _ _
  · have hne : snapshotFileName (autoId c) ≠
        snapshotFileName (payloadId Json.reference (autoPayload 97)) :=
      fun heq => hlast (autoId_inj hc (by decide) (snapshotFileName_inj.mp heq))
    rw [renamed_other hne (snapshotFileName_ne_tmp _ _)]
    refine h.files c ?_
    rcases List.mem_cons.mp hc with rfl | hc
    · exact absurd rfl hlast
    · exact hc

theorem Full.published_names {name : Str} (hmem : name ∈ fullPublished d) :
    name = str "HEAD" ∨ (name = badNameOf (autoId 97) ∧ name ∈ d) ∨
      ∃ c ∈ letters, name = snapshotFileName (autoId c) := by
  by_cases hhead : name = str "HEAD"
  · exact .inl hhead
  by_cases hlast : name = snapshotFileName (autoId 97)
  · exact .inr (.inr ⟨97, by decide, hlast⟩)
  have hold : name ∈ d := by
    simp only [fullPublished, published, written, renamed, Std.ExtTreeMap.mem_insert,
      Std.ExtTreeMap.mem_erase] at hmem
    rcases hmem with heq | ⟨_, heq | ⟨_, hold⟩⟩
    · exact absurd (Std.LawfulEqOrd.eq_of_compare heq).symm hhead
    · exact absurd (Std.LawfulEqOrd.eq_of_compare heq).symm hlast
    · exact hold
  rcases h.names name hold with hbad | ⟨c, hc, hfile⟩
  · exact .inr (.inl ⟨hbad, hold⟩)
  · exact .inr (.inr ⟨c, List.mem_of_mem_tail hc, hfile⟩)

theorem Full.stored {c : UInt8} (hc : c ∈ letters) :
    stored Json.reference (fullPublished d) (autoId c) =
      some (newSnapshot (autoId c) none (autoPayload c) .auto noReason 0) := by
  rw [stored_document (autoDocument_text hc) rfl (h.published_file hc)]
  exact if_pos (autoDocument_fits hc)

theorem Full.isAuto {c : UInt8} (hc : c ∈ letters) :
    IsAuto Json.reference (fullPublished d) (autoId c) :=
  ⟨_, h.stored hc, rfl⟩

theorem Full.card : kKeepAutoSnapshots < (autoIds Json.reference (fullPublished d)).card := by
  have hsub : (letters.map autoId).toFinset ⊆ autoIds Json.reference (fullPublished d) := by
    intro id hid
    obtain ⟨c, hc, rfl⟩ := List.mem_map.mp (List.mem_toFinset.mp hid)
    exact mem_autoIds.mpr (h.isAuto hc)
  have hcard := Finset.card_le_card hsub
  rw [List.toFinset_card_of_nodup autoId_nodup, List.length_map] at hcard
  exact hcard

theorem Full.row {c : UInt8} (hc : c ∈ letters) :
    rowOfName Json.reference (fullPublished d) (snapshotFileName (autoId c)) =
      some (newSnapshot (autoId c) none (autoPayload c) .auto noReason 0).info :=
  rowOfName_stored (h.stored hc)

theorem Full.nodup (e : Env) :
    ((autoRows Json.reference e (fullPublished d)).map SnapshotMeta.id).Nodup := by
  refine autoRows_nodup fun id snap hsnap name hmem hrow => ?_
  rcases h.published_names hmem with rfl | ⟨rfl, _⟩ | ⟨c, hc, rfl⟩
  · rw [rowOfName, if_pos (.inl rfl)] at hrow
    exact absurd hrow (by simp)
  · have hhealth := row_quarantined (badNameOf_quarantined _) hrow
    rw [stored_health hsnap] at hhealth
    exact absurd hhealth (by simp)
  · rw [h.row hc, Option.some.injEq] at hrow
    rw [← stored_id hsnap, ← hrow]
    rfl

end Full

theorem full_listed {e : Env} {c : UInt8} (hc : c ∈ letters) :
    autoId c ∈ (autoRows Json.reference e (fullPublished fullStore)).map SnapshotMeta.id := by
  have hfull := fullStore_full
  have hnames : ∀ name ∈ fullPublished fullStore, ∀ m,
      rowOfName Json.reference (fullPublished fullStore) name = some m →
        name = snapshotFileName m.id := by
    intro name hmem m hrow
    rcases hfull.published_names hmem with rfl | ⟨rfl, hold⟩ | ⟨c, hc, rfl⟩
    · rw [rowOfName, if_pos (.inl rfl)] at hrow
      exact absurd hrow (by simp)
    · rw [fullStore, Std.ExtTreeMap.mem_ofList, List.contains_iff_mem, List.map_map] at hold
      obtain ⟨c, _, hfile⟩ := List.mem_map.mp hold
      exact absurd hfile (badNameOf_ne_file _ _)
    · rw [hfull.row hc, Option.some.injEq] at hrow
      rw [← hrow]
      rfl
  have hunique : ChainUnique Json.reference (fullPublished fullStore) := by
    intro name hmem name' hmem' m m' hrow hrow' hid _
    have hname := hnames name hmem m hrow
    have hname' := hnames name' hmem' m' hrow'
    rw [hname] at hrow
    rw [hname', ← hid] at hrow'
    exact Option.some.inj (hrow.symm.trans hrow')
  refine List.mem_map.mpr ⟨(newSnapshot (autoId c) none (autoPayload c) .auto noReason 0).info,
    List.mem_filter.mpr ⟨?_, decide_eq_true ⟨rfl, rfl⟩⟩, rfl⟩
  rw [(list_rows e _).1]
  exact listed_of_unique hunique
    (mem_rows.mpr ⟨_, mem_of_stored (hfull.stored hc), hfull.row hc⟩)

theorem put_prunes_full : PrunedWell Json.reference .quiet (fullPublished fullStore)
    (pruneLocked Json.reference .quiet (fullPublished fullStore)) := by
  have hfull := fullStore_full
  have hiff := put_prunes_well_iff (hfull.put .quiet ⟨rfl, rfl⟩) hfull.free
    (by simp [hfull.headless])
  refine hiff.1.mpr ((hiff.2 (hfull.nodup _)).mpr (.inr ⟨fun id hid => ?_, fun _ _ => rfl⟩))
  rcases hfull.published_names (mem_autoIds.mp hid).mem with
    hhead | ⟨hbad, _⟩ | ⟨c, hc, hfile⟩
  · exact absurd hhead (snapshotFileName_ne_head id)
  · exact absurd hbad (badNameOf_ne_file _ _)
  · exact snapshotFileName_inj.mp hfile ▸ full_listed hc

def twinRow (id : Str) : SnapshotMeta := { bestEffortMeta none id with health := .corrupt }

theorem twinRow_id (id : Str) : (twinRow id).id = id := rfl

def twinEnv : Env :=
  { Env.quiet with order := .leading [badNameOf (autoId 97)] (List.nodup_singleton _) }

theorem twin_unlisted : autoId 97 ∉
    (autoRows Json.reference twinEnv (fullPublished fullTwinStore)).map SnapshotMeta.id := by
  have hbad : (fullPublished fullTwinStore)[badNameOf (autoId 97)]? = some [] := by
    rw [fullPublished, published,
      renamed_other (badNameOf_ne_head _).symm (badNameOf_ne_tmp _ _).symm, written,
      renamed_other (badNameOf_ne_file _ _).symm (badNameOf_ne_tmp _ _).symm, fullTwinStore]
    exact Std.ExtTreeMap.getElem?_insert_self
  have hrow : rowOfName Json.reference (fullPublished fullTwinStore) (badNameOf (autoId 97)) =
      some (twinRow (autoId 97)) := by
    refine badNameOf_row (sha256Hex_not_mem (by decide)) ?_
    rw [parseFile, hbad]
    decide
  have hmem : badNameOf (autoId 97) ∈ fullPublished fullTwinStore := by
    rw [Std.ExtTreeMap.mem_iff_isSome_getElem?, hbad]
    rfl
  obtain ⟨rest, hrows⟩ : ∃ rest, rows Json.reference twinEnv.order
    (fullPublished fullTwinStore) =
      [twinRow (autoId 97)] ++ rest :=
    rows_leading (List.nodup_singleton _) (fun name hname => List.mem_singleton.mp hname ▸ hmem)
      (by rw [List.map_singleton, hrow]; rfl)
  have hfirst : byId (rows Json.reference twinEnv.order (fullPublished fullTwinStore)) (autoId 97) =
      some (twinRow (autoId 97)) := by
    rw [hrows, byId, List.singleton_append, List.find?_cons_of_pos]
    exact decide_eq_true (twinRow_id _)
  obtain ⟨ms, hlist, hms⟩ := order_head hfirst
  intro hlast
  obtain ⟨m, hm, hid⟩ := List.mem_map.mp hlast
  obtain ⟨hlisted, hauto⟩ := List.mem_filter.mp hm
  have hhead : headLocked (fullPublished fullTwinStore) = some (autoId 97) := headLocked_renamed _ _
  rw [(list_rows _ _).1, hhead, hlist] at hlisted
  rcases List.mem_cons.mp hlisted with rfl | hlisted
  · exact absurd (of_decide_eq_true hauto).1 (by simp [twinRow])
  · exact hms m hlisted hid

theorem put_keeps_twenty_one :
    put Json.reference twinEnv fullTwinStore (autoPayload 97) .auto noReason 0 =
        .ok (.ok (autoId 97), pruneLocked Json.reference twinEnv (fullPublished fullTwinStore)) ∧
      snapshotFileName (autoId 97) ∉ fullTwinStore ∧
      headLocked fullTwinStore ≠ some (autoId 97) ∧
      ¬ PrunedWell Json.reference twinEnv (fullPublished fullTwinStore)
        (pruneLocked Json.reference twinEnv (fullPublished fullTwinStore)) := by
  have hfull := fullTwinStore_full
  refine ⟨hfull.put _ ⟨rfl, rfl⟩, hfull.free, by simp [hfull.headless], fun hwell => ?_⟩
  rcases bounded_of_prunable (hfull.nodup _) (prunedWell_iff.mp hwell) with hfew | ⟨hlisted, _⟩
  · exact absurd hfew (Nat.not_le.mpr hfull.card)
  · exact twin_unlisted (hlisted _ (mem_autoIds.mpr (hfull.isAuto (by decide))))

end DevMgr.Daemon
