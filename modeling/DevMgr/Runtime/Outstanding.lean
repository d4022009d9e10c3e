import DevMgr.Runtime.DelayedScheduler
import Mathlib.Data.Int.Notation
import Mathlib.Data.List.Nodup
import Mathlib.Data.List.Range

/-!
# Counting what is outstanding

A client of the scheduler counts what it has scheduled until it is resolved: by a
cancel that finds it, or when its callback has run. Every handle is on one side, so
the counter is zero when no callback of the client is queued or on its way.
-/

namespace DevMgr.Runtime

structure Outstanding (unresolved resolved : List ℕ) (nextId : ℕ) (count : ℤ) : Prop where
  handles : (0 :: (unresolved ++ resolved)).Perm (List.range nextId)
  count : count = unresolved.length

namespace Outstanding
variable {unresolved unresolved' resolved : List ℕ} {nextId : ℕ} {count : ℤ}

theorem start : Outstanding [] [] 1 0 := ⟨.refl _, rfl⟩

theorem nodup (h : Outstanding unresolved resolved nextId count) : (unresolved ++ resolved).Nodup :=
  (List.nodup_cons.mp (h.handles.nodup_iff.mpr List.nodup_range)).2

theorem perm (h : Outstanding unresolved resolved nextId count)
    (hperm : unresolved'.Perm unresolved) :
    Outstanding unresolved' resolved nextId count where
  handles := ((hperm.append_right _).cons 0).trans h.handles
  count := by rw [h.count, hperm.length_eq]

theorem settle (h : Outstanding unresolved resolved nextId count) {handle : ℕ}
    (hperm : unresolved.Perm (handle :: unresolved')) :
    Outstanding unresolved' (handle :: resolved) nextId (count - 1) where
  handles := by
    have hmove : (unresolved' ++ handle :: resolved).Perm (unresolved ++ resolved) :=
      List.perm_middle.trans (hperm.symm.append_right _)
    exact (hmove.cons 0).trans h.handles
  count := by
    rw [h.count, hperm.length_eq, List.length_cons]
    omega

theorem schedule (h : Outstanding unresolved resolved nextId count)
    (hperm : unresolved'.Perm (nextId :: unresolved)) :
    Outstanding unresolved' resolved (nextId + 1) (count + 1) where
  handles := by
    rw [List.range_succ]
    calc
      (0 :: (unresolved' ++ resolved)).Perm (0 :: nextId :: (unresolved ++ resolved)) :=
        (hperm.append_right _).cons 0
      List.Perm _ (nextId :: 0 :: (unresolved ++ resolved)) := .swap ..
      List.Perm _ (nextId :: List.range nextId) := h.handles.cons _
      List.Perm _ (List.range nextId ++ [nextId]) := (List.perm_append_singleton ..).symm
  count := by
    rw [h.count, hperm.length_eq, List.length_cons]
    omega

theorem other {others : List ℕ} (h : Outstanding unresolved (resolved ++ others) nextId count) :
    Outstanding unresolved (resolved ++ nextId :: others) (nextId + 1) count where
  handles := by
    have hresolved := (h.schedule (.refl _)).settle (.refl _)
    exact ((List.perm_middle.append_left unresolved).cons 0).trans hresolved.handles
  count := h.count

theorem once (h : Outstanding unresolved resolved nextId count) {handle : ℕ} (hpos : 0 < handle)
    (hlt : handle < nextId) : unresolved.count handle + resolved.count handle = 1 := by
  have hperm := h.handles.count_eq handle
  rw [List.count_cons_of_ne hpos.ne, List.count_append] at hperm
  rw [hperm, List.count_eq_one_of_mem List.nodup_range (List.mem_range.mpr hlt)]

theorem count_eq (h : Outstanding unresolved resolved nextId count) :
    count = ((List.range nextId).filter fun handle => handle ≠ 0 ∧
      handle ∉ resolved).length := by
  obtain ⟨hzero, hnodup⟩ := List.nodup_cons.mp (h.handles.nodup_iff.mpr List.nodup_range)
  have hopen : unresolved.filter (fun handle => handle ≠ 0 ∧ handle ∉ resolved) =
      unresolved := by
    apply List.filter_eq_self.mpr
    intro handle hhandle
    have hne : handle ≠ 0 := fun heq => hzero (List.mem_append_left _ (heq ▸ hhandle))
    exact decide_eq_true ⟨hne, List.disjoint_of_nodup_append hnodup hhandle⟩
  have hdone : resolved.filter (fun handle => handle ≠ 0 ∧ handle ∉ resolved) = [] := by
    apply List.filter_eq_nil_iff.mpr
    intro handle hhandle hkept
    exact (of_decide_eq_true hkept).2 hhandle
  have hlength := (h.handles.filter fun handle => handle ≠ 0 ∧ handle ∉ resolved).length_eq
  rw [List.filter_cons_of_neg (by simp), List.filter_append, hopen, hdone,
    List.append_nil] at hlength
  rw [h.count, hlength]

theorem none_left (h : Outstanding unresolved resolved nextId count) (hzero : count = 0) :
    unresolved = [] := by
  have hlength := h.count
  rw [hzero] at hlength
  exact List.length_eq_zero_iff.mp (Int.natCast_eq_zero.mp hlength.symm)

end Outstanding

end DevMgr.Runtime
