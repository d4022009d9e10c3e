import DevMgr.Library.Program

/-!
# Histories of a program

A history lists the operations a program has issued with what they returned,
whatever that was. A precondition over histories that `Wp` establishes holds
before every operation of every history.
-/

namespace DevMgr.Program

variable {S : Interface} {α : Type}

abbrev Event (S : Interface) := (o : S.Op) × S.Ret o

abbrev History (S : Interface) := List (Event S)

def record (o : S.Op) (r : S.Ret o) (h : History S) : History S := h ++ [⟨o, r⟩]

inductive Happens : Prog S α → History S → Prop
  | start (p : Prog S α) : Happens p []
  | issue {o : S.Op} {k : S.Ret o → Prog S α} {r : S.Ret o} {h : History S} :
      Happens (k r) h → Happens (.op o k) (⟨o, r⟩ :: h)

inductive Yields : Prog S α → History S → α → Prop
  | value (a : α) : Yields (.pure a) [] a
  | issue {o : S.Op} {k : S.Ret o → Prog S α} {r : S.Ret o} {h : History S} {a : α} :
      Yields (k r) h a → Yields (.op o k) (⟨o, r⟩ :: h) a

/-- Whatever has happened before it, every operation is issued for good. -/
def Always (good : S.Op → History S → Prop) (p : Prog S α) : Prop :=
  ∀ before o r later, Happens p (before ++ ⟨o, r⟩ :: later) → good o before

section Wp
variable {good : S.Op → History S → Prop} {Q : α → History S → Prop} {p : Prog S α} {h : History S}

theorem happens_good {before later : History S} {o : S.Op} {r : S.Ret o} (hp : Wp good record p Q h)
    (hhappens : Happens p (before ++ ⟨o, r⟩ :: later)) : good o (h ++ before) := by
  induction before generalizing p h with
  | nil =>
    cases hhappens with
    | issue _ =>
      rw [List.append_nil]
      exact hp.1
  | cons event before ih =>
    cases hhappens with
    | issue hrest =>
      have hgood := ih (hp.2 _) hrest
      rwa [record, List.append_assoc, List.singleton_append] at hgood

theorem always_of_wp (hp : Wp good record p Q []) : Always good p :=
  fun _ _ _ _ hhappens => happens_good hp hhappens

theorem wp_yields (p : Prog S α) (h : History S) :
    Wp (fun _ _ => True) record p (fun a h' => ∃ since, h' = h ++ since ∧
      Yields p since a) h := by
  induction p generalizing h with
  | pure a => exact ⟨[], (List.append_nil h).symm, .value a⟩
  | raise => trivial
  | op o k ih =>
    refine ⟨trivial, fun r => (ih r (record o r h)).mono fun a h' hr => ?_⟩
    obtain ⟨since, rfl, hyields⟩ := hr
    exact ⟨⟨o, r⟩ :: since, by simp [record], .issue hyields⟩

end Wp

end DevMgr.Program
