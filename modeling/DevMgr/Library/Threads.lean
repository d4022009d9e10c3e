import Mathlib.Logic.Function.Basic
import Mathlib.Tactic.SplitIfs
import DevMgr.Library.Program
import DevMgr.Library.Run

/-!
# Threads that check before they act

Threads share a state and take turns, one operation at a time; an operation that
is not possible now (a lock somebody holds) blocks its thread, and the
environment may change the state in between. A thread obtains evidence by one
operation and acts on it by a later one. If every program acts on evidence only,
then an action is justified in the very state it is taken in, provided that no
step in between takes away what a pending action rests on.
-/

namespace DevMgr.Program

variable {S : Interface} {T σ τ α : Type}

structure Config (S : Interface) (T σ : Type) where
  shared : σ
  rest : T → Prog S Unit

inductive Action (S : Interface) (T σ : Type) where
  | start (t : T) (p : Prog S Unit)
  | step (t : T)
  | environment (s : σ)

def Prog.ended : Prog S α → Bool
  | .op _ _ => false
  | _ => true

def take [DecidableEq T] (handle : T → (o : S.Op) → σ → Option (S.Ret o × σ)) (c : Config S T σ) :
    Action S T σ → Option (Config S T σ)
  | .start t p => if (c.rest t).ended then some { c with rest := Function.update c.rest t p }
      else none
  | .step t =>
    match c.rest t with
    | .op o k => (handle t o c.shared).map fun (r, s) => ⟨s, Function.update c.rest t (k r)⟩
    | _ => none
  | .environment s => some { c with shared := s }

def Config.initial (s : σ) : Config S T σ := ⟨s, fun _ => .pure ()⟩

section Evidence
variable (acts : T → S.Op → τ → Prop) (checks : S.Op → Bool)
  (evidence : (o : S.Op) → S.Ret o → τ → Prop)

def Pending (t : T) (x : τ) : Prog S α → Prop
  | .op o k => acts t o x ∨ checks o = false ∧ ∃ r, Pending t x (k r)
  | _ => False

/-- The program acts only on what its last check gave evidence for, at first on what it is given. -/
def Backed (t : T) (p : Prog S α) (Q : α → (τ → Prop) → Prop) (given : τ → Prop) : Prop :=
  Wp (fun o E => ∀ x, acts t o x → E x) (fun o r E => if checks o then evidence o r
    else E) p Q given

variable {acts checks evidence} {t : T} {x : τ} {given : τ → Prop}

theorem backed_op {o : S.Op} {k : S.Ret o → Prog S α} {Q : α → (τ → Prop) → Prop} :
    Backed acts checks evidence t (.op o k) Q given ↔ (∀ x, acts t o x → given x) ∧
      ∀ r, Backed acts checks evidence t (k r) Q (if checks o then evidence o r else given) :=
        Iff.rfl

theorem backed_pending {p : Prog S α} {Q : α → (τ → Prop) → Prop}
    (h : Backed acts checks evidence t p Q given)
    (hpending : Pending acts checks t x p) : given x := by
  induction p generalizing given with
  | pure a => exact absurd hpending (by simp [Pending])
  | raise => exact absurd hpending (by simp [Pending])
  | op o k ih =>
    rcases hpending with hacts | ⟨hchecks, r, hlater⟩
    · exact h.1 x hacts
    · have hr := (backed_op.mp h).2 r
      rw [if_neg (by simp [hchecks])] at hr
      exact ih r hr hlater

variable (acts checks evidence)

theorem backed_only {p : Prog S α}
    (h : Only (fun o => checks o = false ∧ ∀ x, acts t o x → given x) p) :
    Backed acts checks evidence t p (fun _ E => E = given) given := by
  induction p with
  | pure a => rfl
  | raise => trivial
  | op o k ih =>
    refine ⟨h.1.2, fun r => ?_⟩
    simp only [h.1.1, Bool.false_eq_true, if_false]
    exact ih r (h.2 r)

theorem backed_idle {p : Prog S α} (h : Only (fun o => ∀ x, ¬ acts t o x) p) :
    Backed acts checks evidence t p (fun _ _ => True) given := by
  induction p generalizing given with
  | pure a => trivial
  | raise => trivial
  | op o k ih => exact ⟨fun x hx => absurd hx (h.1 x), fun r => ih r (h.2 r)⟩

theorem backed_forEach {ι : Type} {body : ι → Prog S Unit}
    (hbody : ∀ x given, Backed acts checks evidence t (body x) (fun _ _ => True) given)
    (xs : List ι) (given : τ → Prop) :
    Backed acts checks evidence t (forEach xs body) (fun _ _ => True) given := by
  induction xs generalizing given with
  | nil => trivial
  | cons x xs ih => exact wp_bind.mpr ((hbody x given).mono fun _ given _ => ih given)

theorem backed_collect {ι : Type} {body : ι → Prog S (List α)}
    (hbody : ∀ x given, Backed acts checks evidence t (body x) (fun _ _ => True) given)
    (xs : List ι) (given : τ → Prop) :
    Backed acts checks evidence t (collect body xs) (fun _ _ => True) given := by
  induction xs generalizing given with
  | nil => trivial
  | cons x xs ih =>
    exact wp_bind.mpr ((hbody x given).mono fun _ given _ =>
      wp_bind.mpr ((ih given).mono fun _ _ _ => trivial))

end Evidence

section Runs
variable (handle : T → (o : S.Op) → σ → Option (S.Ret o × σ)) (acts : T → S.Op → τ → Prop)
  (checks : S.Op → Bool) (holds : σ → τ → Prop)

/-- Nothing that a pending action rests on, before and behind the step, is lost in the step. -/
def KeepsPending (c c' : Config S T σ) : Prop :=
  ∀ t x, Pending acts checks t x (c.rest t) → Pending acts checks t x (c'.rest t) →
    holds c.shared x → holds c'.shared x

variable (starts : T → Prog S Unit → Prop)

def KeepsStep (c : Config S T σ) (a : Action S T σ) (c' : Config S T σ) : Prop :=
  (∀ t p, a = .start t p → starts t p) ∧ KeepsPending acts checks holds c c'

variable {handle acts checks holds starts} {evidence : (o : S.Op) → S.Ret o → τ → Prop}

structure Justified (acts : T → S.Op → τ → Prop) (checks : S.Op → Bool)
    (evidence : (o : S.Op) → S.Ret o → τ → Prop) (holds : σ → τ → Prop)
    (c : Config S T σ) : Prop where
  backed : ∀ t, ∃ given, Backed acts checks evidence t (c.rest t) (fun _ _ => True) given
  pending : ∀ t x, Pending acts checks t x (c.rest t) → holds c.shared x

theorem justified_initial (s : σ) :
    Justified acts checks evidence holds (Config.initial s : Config S T σ) :=
  ⟨fun _ => ⟨fun _ => False, trivial⟩,
    fun _ _ h => absurd h (by simp [Config.initial, Pending])⟩

section Step
variable [DecidableEq T] {c c' : Config S T σ}
  (hsound : ∀ t o s r s', checks o = true → handle t o s = some (r, s') →
    ∀ x, evidence o r x → holds s' x)

include hsound

theorem justified_operation {t : T} (h : Justified acts checks evidence holds c)
    (hkeeps : KeepsPending acts checks holds c c') (htake : take handle c (.step t) = some c') :
    Justified acts checks evidence holds c' := by
  cases hrest : c.rest t with
  | pure a => simp [take, hrest] at htake
  | raise => simp [take, hrest] at htake
  | op o k =>
    simp only [take, hrest, Option.map_eq_some_iff] at htake
    obtain ⟨⟨r, s'⟩, hhandle, rfl⟩ := htake
    obtain ⟨given, hgiven⟩ := h.backed t
    rw [hrest] at hgiven
    refine ⟨fun u => ?_, fun u x hpending => ?_⟩
    · by_cases hu : u = t
      · subst u
        exact ⟨_, by simpa using (backed_op.mp hgiven).2 r⟩
      · simpa [Function.update_of_ne hu] using h.backed u
    · by_cases hu : u = t
      · subst u
        simp only [Function.update_self] at hpending
        by_cases hchecks : checks o = true
        · -- the check is fresh: its evidence speaks about the state it was made in
          have hfresh := (backed_op.mp hgiven).2 r
          rw [if_pos hchecks] at hfresh
          exact hsound t o _ r s' hchecks hhandle x (backed_pending hfresh hpending)
        · have hbefore : Pending acts checks t x (c.rest t) := by
            rw [hrest]
            exact .inr ⟨by simpa using hchecks, r, hpending⟩
          refine hkeeps t x hbefore ?_ (h.pending t x hbefore)
          simpa using hpending
      · have hbefore : Pending acts checks u x (c.rest u) := by
          simpa [Function.update_of_ne hu] using hpending
        exact hkeeps u x hbefore hpending (h.pending u x hbefore)

theorem justified_step {a : Action S T σ}
    (hbacked : ∀ t p, starts t p →
      Backed acts checks evidence t p (fun _ _ => True) fun _ => False)
    (h : Justified acts checks evidence holds c) (htake : take handle c a = some c')
    (hstep : KeepsStep acts checks holds starts c a c') :
    Justified acts checks evidence holds c' := by
  cases a with
  | start t p =>
    have hp := hbacked t p (hstep.1 t p rfl)
    simp only [take] at htake
    split_ifs at htake
    obtain rfl := Option.some.inj htake
    refine ⟨fun u => ?_, fun u x hpending => ?_⟩
    · by_cases hu : u = t
      · subst u
        exact ⟨_, by simpa using hp⟩
      · simpa [Function.update_of_ne hu] using h.backed u
    · by_cases hu : u = t
      · subst u
        simp only [Function.update_self] at hpending
        exact absurd (backed_pending hp hpending) id
      · exact h.pending u x (by simpa [Function.update_of_ne hu] using hpending)
  | step t => exact justified_operation hsound h hstep.2 htake
  | environment s =>
    obtain rfl := Option.some.inj htake
    exact ⟨h.backed, fun u x hpending => hstep.2 u x hpending hpending (h.pending u x hpending)⟩

theorem act_holds {s : σ} {d : Config S T σ} {actions : List (Action S T σ)}
    (hbacked : ∀ t p, starts t p →
      Backed acts checks evidence t p (fun _ _ => True) fun _ => False)
    (hrun : Run.runSome (take handle) (.initial s) actions = some d)
    (hmeets : Run.MeetsSome (take handle) (KeepsStep acts checks holds starts) (.initial s) actions)
    {t : T} {o : S.Op} {k : S.Ret o → Prog S Unit} {x : τ} (hnext : d.rest t = .op o k)
    (hacts : acts t o x) : holds d.shared x := by
  have hinv : Justified acts checks evidence holds d :=
    Run.runSome_invariant (take handle) (fun _ _ _ h htake hstep =>
      justified_step hsound hbacked h htake hstep) (justified_initial s) hrun hmeets
  exact hinv.pending t x (by rw [hnext]; exact .inl hacts)

end Step

end Runs

end DevMgr.Program
