import DevMgr.Daemon.SnapshotScan

/-!
# The order of a listing, and pruning

The rows of the chain from `HEAD` come first, one for each id, and the rest
follows by age. A row is missing from the listing only when a row with its id
stands on the chain. Pruning goes through the same order and takes away
automatic snapshots behind the first twenty, never the one `HEAD` names.
-/

open DevMgr.Core

namespace DevMgr.Daemon
open Bytes

variable {J : Json.Codec} {e : Env} {d d' : Directory}

theorem orderNewestFirst_eq (metas : List SnapshotMeta) (headId : Option Str) :
    orderNewestFirst metas headId = (chainOf metas headId).1 ++
      (metas.filter fun m => m.id ∉ (chainOf metas headId).2).insertionSort
        fun a b => b.createdAtUtc ≤ a.createdAtUtc := rfl

theorem mem_orderNewestFirst {metas : List SnapshotMeta} {headId : Option Str} {m : SnapshotMeta} :
    m ∈ orderNewestFirst metas headId ↔
      m ∈ (chainOf metas headId).1 ∨ m ∈ metas ∧ m.id ∉ (chainOf metas headId).2 := by
  simp [orderNewestFirst_eq, List.mem_insertionSort]

theorem chainOf_visited {metas : List SnapshotMeta} {headId : Option Str} {m : SnapshotMeta}
    (hm : m ∈ (chainOf metas headId).1) :
    byId metas m.id = some m ∧ m.id ∈ (chainOf metas headId).2 ∧
      ∃ h, headId = some h ∧ Relation.ReflTransGen
        (LinkWalk.Link (byId metas) SnapshotMeta.parent) h m.id := by
  cases headId with
  | none => simp [chainOf] at hm
  | some h =>
    obtain ⟨hlook, _, htaken, hreach⟩ :=
      LinkWalk.walk_visited (fun _ _ => byId_id) _ _ _ m hm
    exact ⟨hlook, htaken, h, rfl, hreach⟩

theorem mem_of_mem_order {metas : List SnapshotMeta} {headId : Option Str} {m : SnapshotMeta}
    (hm : m ∈ orderNewestFirst metas headId) : m ∈ metas := by
  rcases mem_orderNewestFirst.mp hm with h | h
  · exact byId_mem (chainOf_visited h).1
  · exact h.1

theorem order_head {metas : List SnapshotMeta} {h : Str} {m : SnapshotMeta}
    (hm : byId metas h = some m) :
    ∃ ms, orderNewestFirst metas (some h) = m :: ms ∧ ∀ m' ∈ ms, m'.id ≠ h := by
  have hid := byId_id hm
  have htaken : h ∈ (chainOf metas (some h)).2 := LinkWalk.start_taken _ _ _
  have hnodup : ((chainOf metas (some h)).1.map SnapshotMeta.id).Nodup :=
    LinkWalk.walk_nodup (fun _ _ => byId_id) _ _ _
  have hfirst : ∃ tail, (chainOf metas (some h)).1 = m :: tail := by
    have hfree : h ∉ ([] : List Str) := by simp
    cases hp : m.parent with
    | none => exact ⟨[], by rw [chainOf, LinkWalk.walk_last hfree hm hp]⟩
    | some p => exact ⟨_, by rw [chainOf, LinkWalk.walk_next hfree hm hp]⟩
  obtain ⟨tail, htail⟩ := hfirst
  refine ⟨_, by rw [orderNewestFirst_eq, htail, List.cons_append], fun m' hm' => ?_⟩
  rcases List.mem_append.mp hm' with hm' | hm'
  · rw [htail, List.map_cons, List.nodup_cons, hid] at hnodup
    exact fun h' => hnodup.1 (h' ▸ List.mem_map_of_mem hm')
  · have hrest := List.of_mem_filter ((List.mem_insertionSort _).mp hm')
    rintro rfl
    simp [htaken] at hrest

theorem chainOf_walks (metas : List SnapshotMeta) (h : Str) :
    LinkWalk.Walks (byId metas) SnapshotMeta.parent [] h
      (chainOf metas (some h)).1 (chainOf metas (some h)).2 := by
  have hkeys : ∀ i a, byId metas i = some a → i ∈ metas.map SnapshotMeta.id := fun i a ha =>
    List.mem_map.mpr ⟨a, byId_mem ha, byId_id ha⟩
  exact LinkWalk.walk_ends hkeys _ _ _ (by simp)

theorem chainOf_nodup (metas : List SnapshotMeta) (headId : Option Str) :
    ((chainOf metas headId).1.map SnapshotMeta.id).Nodup := by
  cases headId with
  | none => simp [chainOf]
  | some h => exact LinkWalk.walk_nodup (fun _ _ => byId_id) _ _ _

theorem taken_iff {metas : List SnapshotMeta} (hnodup : (metas.map SnapshotMeta.id).Nodup)
    {headId : Option Str} {m : SnapshotMeta} (hm : m ∈ metas) :
    m.id ∈ (chainOf metas headId).2 ↔ m ∈ (chainOf metas headId).1 := by
  constructor
  · intro htaken
    cases headId with
    | none => simp [chainOf] at htaken
    | some h =>
      rcases LinkWalk.taken_visited _ _ _ m.id htaken with hold | hnone | ⟨a, ha, hlook⟩
      · simp at hold
      · rw [byId_of_nodup hnodup hm] at hnone
        simp at hnone
      · rw [byId_of_nodup hnodup hm] at hlook
        rwa [Option.some.inj hlook]
  · exact fun hm' => (chainOf_visited hm').2.1

def newerFirst (a b : SnapshotMeta) : Prop := b.createdAtUtc ≤ a.createdAtUtc

instance : DecidableRel newerFirst :=
  fun a b => inferInstanceAs (Decidable (b.createdAtUtc ≤ a.createdAtUtc))

instance : Std.Total newerFirst := ⟨fun a b => Int64.le_total b.createdAtUtc a.createdAtUtc⟩

instance : IsTrans SnapshotMeta newerFirst := ⟨fun _ _ _ hab hbc => Int64.le_trans hbc hab⟩

theorem order_parts (metas : List SnapshotMeta) (headId : Option Str) :
    orderNewestFirst metas headId = (chainOf metas headId).1 ++
      (metas.filter fun m => m.id ∉ (chainOf metas headId).2).insertionSort newerFirst := rfl

theorem ties_kept (rest : List SnapshotMeta) (t : Int64) :
    (rest.insertionSort newerFirst).filter (fun m => m.createdAtUtc = t) =
      rest.filter fun m => m.createdAtUtc = t := by
  have hties : (rest.filter fun m => m.createdAtUtc = t).Pairwise newerFirst := by
    apply List.pairwise_of_forall_mem_list
    intro a ha b hb
    have hat : a.createdAtUtc = t := by simpa using List.of_mem_filter ha
    have hbt : b.createdAtUtc = t := by simpa using List.of_mem_filter hb
    rw [newerFirst, hat, hbt]
    exact Int64.le_refl t
  have hsub := (List.sublist_insertionSort hties List.filter_sublist).filter
    fun m : SnapshotMeta => decide (m.createdAtUtc = t)
  have hperm := (List.perm_insertionSort newerFirst rest).filter
    fun m : SnapshotMeta => decide (m.createdAtUtc = t)
  rw [List.filter_filter] at hsub
  simp only [Bool.and_self] at hsub
  exact (hsub.eq_of_length hperm.length_eq.symm).symm

theorem rest_eq {metas : List SnapshotMeta} (hnodup : (metas.map SnapshotMeta.id).Nodup)
    (headId : Option Str) : (metas.filter fun m => m.id ∉ (chainOf metas headId).2) =
      metas.filter fun m => m ∉ (chainOf metas headId).1 := by
  apply List.filter_congr
  intro m hm
  rw [decide_eq_decide, taken_iff hnodup hm]

theorem order_perm {metas : List SnapshotMeta} (hnodup : (metas.map SnapshotMeta.id).Nodup)
    (headId : Option Str) : (orderNewestFirst metas headId).Perm metas := by
  have hchain : (chainOf metas headId).1.Perm
      (metas.filter fun m => m ∈ (chainOf metas headId).1) := by
    refine (List.perm_ext_iff_of_nodup ((chainOf_nodup metas headId).of_map _)
      ((hnodup.of_map _).filter _)).mpr fun m => ?_
    rw [List.mem_filter, decide_eq_true_eq]
    exact ⟨fun h => ⟨byId_mem (chainOf_visited h).1, h⟩, fun h => h.2⟩
  have hrest := List.perm_insertionSort newerFirst
    (metas.filter fun m => m ∉ (chainOf metas headId).1)
  rw [order_parts, rest_eq hnodup]
  refine (hchain.append hrest).trans ?_
  simpa using List.filter_append_perm (fun m => decide (m ∈ (chainOf metas headId).1)) metas

theorem chain_first (metas : List SnapshotMeta) (headId : Option Str) :
    (chainOf metas headId).1.head? = headId.bind (byId metas) := by
  cases headId with
  | none => rfl
  | some h =>
    have hwalk := chainOf_walks metas h
    generalize (chainOf metas (some h)).1 = chain, (chainOf metas (some h)).2 = taken at hwalk
    cases hwalk with
    | repeated hi => simp at hi
    | dangling _ ha => simp [ha]
    | last _ ha _ => simp [ha]
    | onward _ ha _ _ => simp [ha]

theorem chain_links (metas : List SnapshotMeta) (headId : Option Str) :
    (chainOf metas headId).1.IsChain (fun a b => a.parent = some b.id) ∧
      ∀ last, (chainOf metas headId).1.getLast? = some last → ∀ p, last.parent = some p →
        (∀ m ∈ metas, m.id ≠ p) ∨ p ∈ (chainOf metas headId).1.map SnapshotMeta.id := by
  cases headId with
  | none => simp [chainOf]
  | some h =>
    obtain ⟨hchain, _, _, hstop⟩ := (chainOf_walks metas h).chain fun _ _ => byId_id
    refine ⟨hchain, fun last hlast p hp => ?_⟩
    rcases hstop last hlast p hp with hnone | htaken | hmem
    · exact .inl (byId_none.mp hnone)
    · simp at htaken
    · exact .inr hmem

/-- No row is lost: the chain from the head, link by link, then the others by age, ties as they
stood. -/
theorem orderNewestFirst_lossless (metas : List SnapshotMeta) (headId : Option Str)
    (hnodup : (metas.map SnapshotMeta.id).Nodup) :
    (orderNewestFirst metas headId).Perm metas ∧
    ∃ chain rest, orderNewestFirst metas headId = chain ++ rest ∧
      (∀ h, headId = some h →
        ∃ taken, LinkWalk.Walks (byId metas) SnapshotMeta.parent [] h chain taken) ∧
      chain.head? = headId.bind (byId metas) ∧
      chain.IsChain (fun a b => a.parent = some b.id) ∧
      (chain.map SnapshotMeta.id).Nodup ∧
      (∀ last, chain.getLast? = some last → ∀ p, last.parent = some p →
        (∀ m ∈ metas, m.id ≠ p) ∨ p ∈ chain.map SnapshotMeta.id) ∧
      rest.Pairwise (fun a b => b.createdAtUtc ≤ a.createdAtUtc) ∧
      ∀ t, rest.filter (fun m => m.createdAtUtc = t) =
        metas.filter fun m => m ∉ chain ∧ m.createdAtUtc = t := by
  obtain ⟨hlinks, hstop⟩ := chain_links metas headId
  refine ⟨order_perm hnodup headId, (chainOf metas headId).1, _, order_parts metas headId, ?_,
    chain_first metas headId, hlinks, chainOf_nodup metas headId, hstop,
    List.pairwise_insertionSort newerFirst _, fun t => ?_⟩
  · rintro h rfl
    exact ⟨_, chainOf_walks metas h⟩
  · rw [ties_kept, rest_eq hnodup, List.filter_filter]
    apply List.filter_congr
    intro m _
    simp [and_comm]

theorem orderNewestFirst_cycle :
    let a : SnapshotMeta := ⟨str "a", some (str "b"), 1, .auto, ⟨[], []⟩, .ok, 0, 0⟩
    let b : SnapshotMeta := ⟨str "b", some (str "a"), 2, .auto, ⟨[], []⟩, .ok, 0, 0⟩
    let c : SnapshotMeta := ⟨str "c", none, 3, .auto, ⟨[], []⟩, .ok, 0, 0⟩
    (orderNewestFirst [c, b, a] (some (str "a"))).Perm [c, b, a] :=
  (orderNewestFirst_lossless _ (some (str "a")) (by decide)).1

theorem unlink_other {name other : Str} (hne : other ≠ name) :
    (unlink e d name).2[other]? = d[other]? := by
  unfold unlink
  split
  · rfl
  · simp [Std.ExtTreeMap.getElem?_erase, hne.symm]

theorem unlink_self (name : Str) :
    (unlink e d name).2[name]? = d[name]? ∨ (unlink e d name).2[name]? = none := by
  unfold unlink
  split
  · exact .inl rfl
  · exact .inr (by simp)

theorem pruneRows_keeps {rows : List SnapshotMeta} {name : Str}
    (h : ∀ m ∈ rows, m.health = .ok → m.trigger = .auto → name ≠ snapshotFileName m.id)
    (n : ℕ) (d : Directory) : (pruneRows e rows n d)[name]? = d[name]? := by
  induction rows generalizing n d with
  | nil => rfl
  | cons m ms ih =>
    have hms := ih fun m' hm' => h m' (List.mem_cons_of_mem _ hm')
    rw [pruneRows]
    split_ifs with hexempt hkeep
    · exact hms n d
    · exact hms (n + 1) d
    · have hauto : m.health = .ok ∧ m.trigger = .auto := by simpa using hexempt
      rw [hms, unlink_other (h m List.mem_cons_self hauto.1 hauto.2)]

theorem pruneRows_cases (rows : List SnapshotMeta) (name : Str) (n : ℕ) (d : Directory) :
    (pruneRows e rows n d)[name]? = d[name]? ∨ (pruneRows e rows n d)[name]? = none := by
  induction rows generalizing n d with
  | nil => exact .inl rfl
  | cons m ms ih =>
    rw [pruneRows]
    split_ifs
    · exact ih n d
    · exact ih (n + 1) d
    · rcases ih (n + 1) (unlink e d (snapshotFileName m.id)).2 with h | h
      · by_cases hname : name = snapshotFileName m.id
        · subst name
          rw [h]
          exact unlink_self _
        · rw [h, unlink_other hname]
          exact .inl rfl
      · exact .inr h

theorem pruneRows_first {m : SnapshotMeta} {ms : List SnapshotMeta} {h : Str}
    (hms : ∀ m' ∈ ms, m'.id ≠ h) (d : Directory) :
    (pruneRows e (m :: ms) 0 d)[snapshotFileName h]? = d[snapshotFileName h]? := by
  have hrest : ∀ m' ∈ ms, m'.health = .ok → m'.trigger = .auto →
      snapshotFileName h ≠ snapshotFileName m'.id :=
    fun m' hm' _ _ heq => hms m' hm' (snapshotFileName_inj.mp heq).symm
  rw [pruneRows]
  split_ifs with hexempt hkeep
  · exact pruneRows_keeps hrest 0 d
  · exact pruneRows_keeps hrest 1 d
  · exact absurd hkeep (by decide)

theorem mem_rows_ok {o : ScanOrder} {m : SnapshotMeta} (hm : m ∈ rows J o d)
    (hok : m.health = .ok) :
    ∃ snap, stored J d m.id = some snap ∧ snap.info = m := by
  obtain ⟨name, _, hname⟩ := mem_rows.mp hm
  unfold rowOfName at hname
  split_ifs at hname with hskip hbad hjson
  · rw [← Option.some.inj hname] at hok
    exact absurd hok (by simp [badRow])
  · obtain rfl := Option.some.inj hname
    obtain ⟨snap, hsnap, hinfo⟩ := rowOf_ok hok
    have hid := stored_id hsnap
    rw [hinfo] at hid
    exact ⟨snap, by rw [hid, hsnap], hinfo⟩

theorem pruneLocked_effect (e : Env) (d : Directory) :
    headLocked (pruneLocked J e d) = headLocked d ∧
    (∀ id, snapshotFileName id ∈ pruneLocked J e d → snapshotFileName id ∈ d) ∧
    ∀ id, stored J (pruneLocked J e d) id = stored J d id ∨
      snapshotFileName id ∉ pruneLocked J e d ∧ headLocked d ≠ some id ∧
        ∃ snap, stored J d id = some snap ∧ snap.info.trigger = .auto := by
  obtain ⟨hrows, hkept⟩ := scanLocked_rows (J := J) e d
  have hprune : pruneLocked J e d = pruneRows e
      (orderNewestFirst (rows J e.order d) (headLocked d)) 0 (scanLocked J e d).2 := by
    simp only [pruneLocked, hrows]
  rw [hprune]
  refine ⟨?_, fun id hid => ?_, fun id => ?_⟩
  · rw [headLocked_congr (pruneRows_keeps
      (fun m _ _ _ => (snapshotFileName_ne_head m.id).symm) 0 _), hkept.head]
  · refine hkept.present id ?_
    rw [Std.ExtTreeMap.mem_iff_isSome_getElem?] at hid ⊢
    rcases pruneRows_cases (e := e) (orderNewestFirst (rows J e.order d) (headLocked d))
      (snapshotFileName id) 0 (scanLocked J e d).2 with h | h
    · rwa [← h]
    · rw [h] at hid
      exact absurd hid (by simp)
  · by_cases hgone : ∃ m ∈ orderNewestFirst (rows J e.order d) (headLocked d),
        m.health = .ok ∧ m.trigger = .auto ∧ id = m.id
    · obtain ⟨m, hm, hok, hauto, rfl⟩ := hgone
      obtain ⟨snap, hsnap, hinfo⟩ := mem_rows_ok (mem_of_mem_order hm) hok
      by_cases hhead : headLocked d = some m.id
      · obtain ⟨m', hm'⟩ := byId_isSome (mem_of_mem_order hm)
        obtain ⟨ms, horder, hms⟩ := order_head hm'
        rw [hhead, horder, stored_congr (pruneRows_first hms _), hkept.stored]
        exact .inl rfl
      · rcases pruneRows_cases (e := e) (orderNewestFirst (rows J e.order d) (headLocked d))
          (snapshotFileName m.id) 0 (scanLocked J e d).2 with h | h
        · exact .inl (by rw [stored_congr h, hkept.stored])
        · refine .inr ⟨?_, hhead, snap, hsnap, by rw [hinfo, hauto]⟩
          rw [Std.ExtTreeMap.mem_iff_isSome_getElem?, h]
          simp
    · refine .inl ?_
      rw [stored_congr (pruneRows_keeps (fun m hm hok hauto heq => ?_) 0 _), hkept.stored]
      exact hgone ⟨m, hm, hok, hauto, snapshotFileName_inj.mp heq⟩

end DevMgr.Daemon
