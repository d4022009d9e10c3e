import DevMgr.Core.SnapshotModels
import DevMgr.Library.LinkWalk

/-!
# The history view

Every listed snapshot becomes a row with derived markers: whether it starts a
chain, whether it is the head, whether it is the newest good one, and how deep it
stands. The head is the first row that no listed snapshot names as its parent,
so at most one row is marked.
-/

namespace DevMgr.Core
open Bytes

structure SnapshotChainRow where
  info : SnapshotMeta
  chainStart : Bool
  head : Bool
  lastGood : Bool
  depth : ℕ

/-- The number of listed ancestors, up to a pruned one or a repeated id. -/
def depthOf (metas : List SnapshotMeta) (m : SnapshotMeta) : ℕ :=
  match m.parent with
  | none => 0
  | some parent =>
    (LinkWalk.walk (byId metas) SnapshotMeta.parent (metas.length + 1) [m.id] parent).1.length

def claimedAsParent (metas : List SnapshotMeta) : List Str := metas.filterMap SnapshotMeta.parent

def chainRows (metas : List SnapshotMeta) : List SnapshotMeta → Bool → Bool →
    List SnapshotChainRow
  | [], _, _ => []
  | m :: ms, headTaken, lastGoodTaken =>
    let head := !headTaken && m.id ∉ claimedAsParent metas
    let lastGood := !lastGoodTaken && m.health = .ok
    { info := m
      chainStart := m.parent.all fun parent => (byId metas parent).isNone
      head, lastGood
      depth := depthOf metas m } ::
      chainRows metas ms (headTaken || head) (lastGoodTaken || lastGood)

def buildSnapshotChain (metas : List SnapshotMeta) : List SnapshotChainRow :=
  chainRows metas metas false false

variable {metas : List SnapshotMeta}

theorem chainRows_info (ms : List SnapshotMeta) (headTaken lastGoodTaken : Bool) :
    (chainRows metas ms headTaken lastGoodTaken).map SnapshotChainRow.info = ms := by
  induction ms generalizing headTaken lastGoodTaken with
  | nil => rfl
  | cons m ms ih => simp [chainRows, ih]

theorem head_unclaimed {ms : List SnapshotMeta} {headTaken lastGoodTaken : Bool}
    {row : SnapshotChainRow} (hrow : row ∈ chainRows metas ms headTaken lastGoodTaken)
    (hhead : row.head = true) : row.info.id ∉ claimedAsParent metas := by
  induction ms generalizing headTaken lastGoodTaken with
  | nil => exact absurd hrow (by simp [chainRows])
  | cons m ms ih =>
    rcases List.mem_cons.mp hrow with rfl | hrow
    · simp only [Bool.and_eq_true, decide_eq_true_eq] at hhead
      exact hhead.2
    · exact ih hrow

theorem head_taken (ms : List SnapshotMeta) (lastGoodTaken : Bool) :
    (chainRows metas ms true lastGoodTaken).filter SnapshotChainRow.head = [] := by
  induction ms generalizing lastGoodTaken with
  | nil => rfl
  | cons m ms ih => simp [chainRows, ih]

theorem head_first {m : SnapshotMeta} {ms : List SnapshotMeta}
    (h : m.id ∉ claimedAsParent (m :: ms)) :
    ∃ row, (buildSnapshotChain (m :: ms)).filter SnapshotChainRow.head = [row] ∧
    row.info = m := by
  have hunclaimed : decide (m.id ∉ claimedAsParent (m :: ms)) = true := decide_eq_true h
  rw [buildSnapshotChain, chainRows]
  simp only [Bool.not_false, Bool.true_and, Bool.or_true, hunclaimed]
  rw [List.filter_cons_of_pos rfl, head_taken]
  exact ⟨_, rfl, rfl⟩

theorem lastGood_taken (ms : List SnapshotMeta) (headTaken : Bool) :
    (chainRows metas ms headTaken true).filter SnapshotChainRow.lastGood = [] := by
  induction ms generalizing headTaken with
  | nil => rfl
  | cons m ms ih => simp [chainRows, ih]

theorem head_once (ms : List SnapshotMeta) (headTaken lastGoodTaken : Bool) :
    ((chainRows metas ms headTaken lastGoodTaken).filter SnapshotChainRow.head).length ≤ 1 := by
  induction ms generalizing headTaken lastGoodTaken with
  | nil => simp [chainRows]
  | cons m ms ih =>
    by_cases hhead : (!headTaken && decide (m.id ∉ claimedAsParent metas)) = true
    · simp only [chainRows, hhead, Bool.or_true, List.filter_cons_of_pos, head_taken]
      simp
    · have hskip : (!headTaken && decide (m.id ∉ claimedAsParent metas)) = false := by
        simpa using hhead
      simp only [chainRows, hskip, Bool.false_eq_true, not_false_eq_true, List.filter_cons_of_neg]
      apply ih

theorem lastGood_once (ms : List SnapshotMeta) (headTaken lastGoodTaken : Bool) :
    ((chainRows metas ms headTaken lastGoodTaken).filter SnapshotChainRow.lastGood).length ≤
      1 := by
  induction ms generalizing headTaken lastGoodTaken with
  | nil => simp [chainRows]
  | cons m ms ih =>
    by_cases hgood : (!lastGoodTaken && decide (m.health = .ok)) = true
    · simp only [chainRows, hgood, Bool.or_true, List.filter_cons_of_pos, lastGood_taken]
      simp
    · have hskip : (!lastGoodTaken && decide (m.health = .ok)) = false := by simpa using hgood
      simp only [chainRows, hskip, Bool.false_eq_true, not_false_eq_true, List.filter_cons_of_neg]
      apply ih

theorem lastGood_iff {ms : List SnapshotMeta} {headTaken lastGoodTaken : Bool} {i : ℕ}
    {row : SnapshotChainRow} (hrow : (chainRows metas ms headTaken lastGoodTaken)[i]? = some row) :
    row.lastGood = true ↔ lastGoodTaken = false ∧ row.info.health = .ok ∧
      ∀ j < i, ∀ m, ms[j]? = some m → m.health ≠ .ok := by
  induction ms generalizing headTaken lastGoodTaken i with
  | nil => simp [chainRows] at hrow
  | cons m ms ih =>
    rw [chainRows] at hrow
    cases i with
    | zero =>
      obtain rfl := Option.some.inj hrow
      simp
    | succ i =>
      rw [List.getElem?_cons_succ] at hrow
      rw [ih hrow]
      constructor
      · rintro ⟨htaken, hok, hbefore⟩
        have hm : lastGoodTaken = false ∧ m.health ≠ .ok := by
          rw [Bool.or_eq_false_iff, Bool.and_eq_false_iff, Bool.not_eq_false'] at htaken
          obtain ⟨hfree, htaken' | hsick⟩ := htaken
          · exact absurd (hfree.symm.trans htaken') nofun
          · exact ⟨hfree, of_decide_eq_false hsick⟩
        refine ⟨hm.1, hok, fun j hj m' hm' => ?_⟩
        cases j with
        | zero =>
          obtain rfl : m = m' := by simpa using hm'
          exact hm.2
        | succ j => exact hbefore j (by omega) m' (by simpa using hm')
      · rintro ⟨rfl, hok, hbefore⟩
        have hm : m.health ≠ .ok := hbefore 0 (by omega) m (by simp)
        exact ⟨by
          simp [hm], hok, fun j hj m' hm' => hbefore (j + 1) (by omega) m' (by simpa using hm')⟩

theorem chainRows_mem {ms : List SnapshotMeta} {headTaken lastGoodTaken : Bool}
    {row : SnapshotChainRow} (hrow : row ∈ chainRows metas ms headTaken lastGoodTaken) :
    row.info ∈ ms ∧ row.depth = depthOf metas row.info ∧
      row.chainStart = row.info.parent.all fun parent => (byId metas parent).isNone := by
  induction ms generalizing headTaken lastGoodTaken with
  | nil => exact absurd hrow (by simp [chainRows])
  | cons m ms ih =>
    rcases List.mem_cons.mp hrow with rfl | hrow
    · exact ⟨List.mem_cons_self, rfl, rfl⟩
    · exact ⟨List.mem_cons_of_mem _ (ih hrow).1, (ih hrow).2⟩

theorem chainStart_iff {row : SnapshotChainRow} (hrow : row ∈ buildSnapshotChain metas) :
    row.chainStart = true ↔ row.info.parent = none ∨
      ∃ p, row.info.parent = some p ∧ ∀ m ∈ metas, m.id ≠ p := by
  rw [(chainRows_mem hrow).2.2]
  cases hp : row.info.parent with
  | none => simp
  | some p => simp [← byId_none]

def ParentLink (metas : List SnapshotMeta) (i j : Str) : Prop :=
  ∃ m ∈ metas, m.id = i ∧ m.parent = some j

theorem link_parentLink {i j : Str} (h : LinkWalk.Link (byId metas) SnapshotMeta.parent i j) :
    ParentLink metas i j := by
  obtain ⟨m, hm, hj⟩ := h
  exact ⟨m, byId_mem hm, byId_id hm, hj⟩

theorem depthOf_walks (metas : List SnapshotMeta) {m : SnapshotMeta} {p : Str}
    (hp : m.parent = some p) :
    ∃ visited taken, LinkWalk.Walks (byId metas) SnapshotMeta.parent [m.id] p visited taken ∧
      depthOf metas m = visited.length := by
  have hkeys : ∀ i a, byId metas i = some a → i ∈ metas.map SnapshotMeta.id := fun i a ha =>
    List.mem_map.mpr ⟨a, byId_mem ha, byId_id ha⟩
  have hfuel : (metas.map SnapshotMeta.id).length < metas.length + 1 := by simp
  exact ⟨_, _, LinkWalk.walk_ends hkeys _ _ _ hfuel, by rw [depthOf, hp]⟩

theorem depthOf_start {m : SnapshotMeta} (h : ∀ p, m.parent = some p → byId metas p = none) :
    depthOf metas m = 0 := by
  cases hp : m.parent with
  | none => rw [depthOf, hp]
  | some p =>
    obtain ⟨visited, taken, hwalk, hdepth⟩ := depthOf_walks metas hp
    cases hwalk with
    | repeated _ => exact hdepth
    | dangling _ _ => exact hdepth
    | last _ ha _ => simp [h p hp] at ha
    | onward _ ha _ _ => simp [h p hp] at ha

theorem depthOf_parent (hacyclic : LinkWalk.Acyclic (ParentLink metas)) {m q : SnapshotMeta}
    {p : Str} (hm : m ∈ metas) (hp : m.parent = some p) (hq : byId metas p = some q) :
    depthOf metas m = depthOf metas q + 1 := by
  have hid := byId_id hq
  have hmp : ParentLink metas m.id p := ⟨m, hm, rfl, hp⟩
  have hfree : p ∉ [m.id] := by
    intro h
    rw [List.mem_singleton.mp h] at hmp
    exact hacyclic _ (.single hmp)
  obtain ⟨visited, taken, hwalk, hdepth⟩ := depthOf_walks metas hp
  cases hwalk with
  | repeated hi => exact absurd hi hfree
  | dangling _ ha => simp [hq] at ha
  | last _ ha hn =>
    obtain rfl := Option.some.inj (hq.symm.trans ha)
    rw [hdepth, depthOf, hn]
    rfl
  | onward _ ha hn hrest =>
    obtain rfl := Option.some.inj (hq.symm.trans ha)
    rename_i r visited _
    obtain ⟨visited', taken', hwalk', hdepth'⟩ := depthOf_walks metas hn
    have hahead :
        ∀ x, Relation.ReflTransGen (LinkWalk.Link (byId metas) SnapshotMeta.parent) r x →
        (x ∈ [p, m.id] ↔ x ∈ [q.id]) := by
      intro x hx
      have hne : x ≠ m.id := by
        rintro rfl
        have hback : Relation.ReflTransGen (ParentLink metas) r m.id :=
          Relation.ReflTransGen.mono (fun _ _ => link_parentLink) _ _ hx
        have hpr : ParentLink metas p r := link_parentLink ⟨q, hq, hn⟩
        exact hacyclic m.id (.head' hmp (.head hpr hback))
      simp [hne, hid]
    obtain ⟨taken'', hwalk''⟩ := hrest.frame hahead
    obtain ⟨rfl, _⟩ := hwalk''.unique hwalk'
    rw [hdepth, hdepth', List.length_cons]

theorem row_of_meta {m : SnapshotMeta} (hm : m ∈ metas) :
    ∃ row ∈ buildSnapshotChain metas, row.info = m := by
  rw [← List.mem_map, buildSnapshotChain, chainRows_info]
  exact hm

theorem depth_start (hacyclic : LinkWalk.Acyclic (ParentLink metas)) {row : SnapshotChainRow}
    (hrow : row ∈ buildSnapshotChain metas) : row.depth = 0 ↔ row.chainStart = true := by
  obtain ⟨hmem, hdepth, hstart⟩ := chainRows_mem hrow
  cases hlook : row.info.parent.bind (byId metas) with
  | none =>
    have hnone : ∀ p, row.info.parent = some p → byId metas p = none := fun p hp => by
      rwa [hp, Option.bind_some] at hlook
    have htrue : row.chainStart = true := by
      rw [hstart, Option.all_eq_true]
      exact fun p hp => by rw [hnone p hp]; rfl
    rw [hdepth, depthOf_start hnone, htrue]
    simp
  | some q =>
    obtain ⟨p, hp, hq⟩ := Option.bind_eq_some_iff.mp hlook
    have hfalse : row.chainStart = false := by
      rw [hstart, hp]
      simp [hq]
    rw [hdepth, depthOf_parent hacyclic hmem hp hq, hfalse]
    simp

theorem parentRow_of_parent {row : SnapshotChainRow} (hrow : row ∈ buildSnapshotChain metas)
    (hstart : row.chainStart = false) :
    ∃ parentRow ∈ buildSnapshotChain metas, row.info.parent = some parentRow.info.id := by
  rw [(chainRows_mem hrow).2.2] at hstart
  cases hp : row.info.parent with
  | none => simp [hp] at hstart
  | some p =>
    obtain ⟨q, hq⟩ : ∃ q, byId metas p = some q := by
      rw [hp] at hstart
      exact Option.isSome_iff_exists.mp (by simpa using hstart)
    obtain ⟨parentRow, hparentRow, rfl⟩ := row_of_meta (byId_mem hq)
    exact ⟨parentRow, hparentRow, by rw [byId_id hq]⟩

theorem depth_parentRow (hnodup : (metas.map SnapshotMeta.id).Nodup)
    (hacyclic : LinkWalk.Acyclic (ParentLink metas)) {row parentRow : SnapshotChainRow}
    (hrow : row ∈ buildSnapshotChain metas) (hparentRow : parentRow ∈ buildSnapshotChain metas)
    (hp : row.info.parent = some parentRow.info.id) : row.depth = parentRow.depth + 1 := by
  obtain ⟨hmem, hdepth, _⟩ := chainRows_mem hrow
  obtain ⟨hparent, hparentDepth, _⟩ := chainRows_mem hparentRow
  rw [hdepth, hparentDepth, depthOf_parent hacyclic hmem hp (byId_of_nodup hnodup hparent)]

theorem buildSnapshotChain_wellDefined (metas : List SnapshotMeta) :
    (∀ m ∈ metas, ∀ p, m.parent = some p → ∃ visited taken,
      LinkWalk.Walks (byId metas) SnapshotMeta.parent [m.id] p visited taken ∧
        depthOf metas m = visited.length) ∧
    (buildSnapshotChain metas).map SnapshotChainRow.info = metas ∧
    (buildSnapshotChain metas).length = metas.length ∧
    ((buildSnapshotChain metas).filter SnapshotChainRow.head).length ≤ 1 ∧
    ((buildSnapshotChain metas).filter SnapshotChainRow.lastGood).length ≤ 1 ∧
    (∀ (i : ℕ) (row : SnapshotChainRow), (buildSnapshotChain metas)[i]? = some row →
      (row.lastGood = true ↔
      row.info.health = .ok ∧ ∀ j < i, ∀ m : SnapshotMeta, metas[j]? = some m →
      m.health ≠ .ok)) ∧
    (∀ row ∈ buildSnapshotChain metas, (row.chainStart = true ↔
      row.info.parent = none ∨ ∃ p, row.info.parent = some p ∧
      ∀ m ∈ metas, m.id ≠ p)) ∧
    ((metas.map SnapshotMeta.id).Nodup → LinkWalk.Acyclic (ParentLink metas) →
      ∀ row ∈ buildSnapshotChain metas, (row.depth = 0 ↔ row.chainStart = true) ∧
        (row.chainStart = false → ∃ parentRow ∈ buildSnapshotChain metas,
          row.info.parent = some parentRow.info.id) ∧
        ∀ parentRow ∈ buildSnapshotChain metas,
          row.info.parent = some parentRow.info.id → row.depth = parentRow.depth + 1) := by
  have hinfo : (buildSnapshotChain metas).map SnapshotChainRow.info = metas := chainRows_info _ _ _
  refine ⟨fun m _ p hp => depthOf_walks metas hp, hinfo, ?_, head_once _ _ _, lastGood_once _ _ _,
    fun i row hrow => ?_, fun row => chainStart_iff, fun hnodup hacyclic row hrow => ?_⟩
  · rw [← List.length_map SnapshotChainRow.info, hinfo]
  · simpa using lastGood_iff hrow
  · exact ⟨depth_start hacyclic hrow, parentRow_of_parent hrow,
      fun _ hparentRow hp => depth_parentRow hnodup hacyclic hrow hparentRow hp⟩

def chained : List SnapshotMeta :=
  [⟨str "c", some (str "b"), 2, .auto, ⟨[], []⟩, .ok, 0, 0⟩,
   ⟨str "b", some (str "a"), 1, .auto, ⟨[], []⟩, .ok, 0, 0⟩]

theorem chained_acyclic : LinkWalk.Acyclic (ParentLink chained) := by
  apply LinkWalk.Acyclic.of_rank fun id => if id = str "c" then 2 else if id = str "b" then 1 else 0
  rintro i j ⟨m, hm, rfl, hj⟩
  simp only [chained, List.mem_cons, List.not_mem_nil, or_false] at hm
  rcases hm with rfl | rfl
  · obtain rfl := Option.some.inj hj
    decide
  · obtain rfl := Option.some.inj hj
    decide

theorem chained_wellDefined : ∀ row ∈ buildSnapshotChain chained,
    row.depth = 0 ↔ row.chainStart = true := fun row hrow =>
  ((buildSnapshotChain_wellDefined chained).2.2.2.2.2.2.2 (by decide) chained_acyclic row hrow).1

end DevMgr.Core
