import Mathlib.Logic.Basic

/-!
# Runs of a system

A system takes one action after another, either always (`runAll`) or only where
its step allows the action (`runSome`). What every step preserves under a
condition on the state it starts in, every run preserves whose steps meet that
condition.
-/

namespace DevMgr.Run

variable {σ α : Type}

section Total
variable (step : σ → α → σ)

def runAll (s : σ) (actions : List α) : σ := actions.foldl step s

def Meets (C : σ → α → Prop) : σ → List α → Prop
  | _, [] => True
  | s, a :: rest => C s a ∧ Meets C (step s a) rest

@[simp] theorem runAll_nil (s : σ) : runAll step s [] = s := rfl

@[simp] theorem runAll_cons (s : σ) (a : α) (rest : List α) :
    runAll step s (a :: rest) = runAll step (step s a) rest := rfl

theorem meets_true {s : σ} (actions : List α) : Meets step (fun _ _ => True) s actions := by
  induction actions generalizing s with
  | nil => trivial
  | cons a rest ih => exact ⟨trivial, ih⟩

theorem runAll_invariant {I : σ → Prop} {C : σ → α → Prop}
    (hstep : ∀ s a, I s → C s a → I (step s a)) {s : σ} {actions : List α} (hs : I s)
    (hm : Meets step C s actions) : I (runAll step s actions) := by
  induction actions generalizing s with
  | nil => exact hs
  | cons a rest ih => exact ih (hstep s a hs hm.1) hm.2

end Total

section Partial
variable (step : σ → α → Option σ)

/-- The run stops with `none` at an action its state does not allow. -/
def runSome (s : σ) : List α → Option σ
  | [] => some s
  | a :: rest => (step s a).bind fun s' => runSome s' rest

/-- Every transition of a run meets the condition. -/
def MeetsSome (C : σ → α → σ → Prop) : σ → List α → Prop
  | _, [] => True
  | s, a :: rest => ∀ s', step s a = some s' → C s a s' ∧ MeetsSome C s' rest

theorem runSome_cons {s t : σ} {a : α} {rest : List α} :
    runSome step s (a :: rest) = some t ↔
    ∃ s', step s a = some s' ∧ runSome step s' rest = some t :=
  Option.bind_eq_some_iff

theorem meetsSome_cons {C : σ → α → σ → Prop} {s s' : σ} {a : α} {rest : List α}
    (hstep : step s a = some s') (hc : C s a s') (hrest : MeetsSome step C s' rest) :
    MeetsSome step C s (a :: rest) := by
  intro u hu
  obtain rfl : s' = u := Option.some.inj (hstep.symm.trans hu)
  exact ⟨hc, hrest⟩

theorem runSome_append {s t u : σ} {first second : List α} (h : runSome step s first = some t)
    (h' : runSome step t second = some u) : runSome step s (first ++ second) = some u := by
  induction first generalizing s with
  | nil => rwa [List.nil_append, Option.some.inj h]
  | cons a rest ih =>
    obtain ⟨s', hs', hrest⟩ := (runSome_cons step).mp h
    exact (runSome_cons step).mpr ⟨s', hs', ih hrest⟩

theorem meetsSome_append {C : σ → α → σ → Prop} {s t : σ} {first second : List α}
    (h : MeetsSome step C s first) (hrun : runSome step s first = some t)
    (h' : MeetsSome step C t second) : MeetsSome step C s (first ++ second) := by
  induction first generalizing s with
  | nil => rwa [List.nil_append, Option.some.inj hrun]
  | cons a rest ih =>
    obtain ⟨s', hs', hrest⟩ := (runSome_cons step).mp hrun
    exact meetsSome_cons step hs' (h s' hs').1 (ih (h s' hs').2 hrest)

theorem meetsSome_and {C D : σ → α → σ → Prop} {s : σ} {actions : List α}
    (hC : MeetsSome step C s actions) (hD : MeetsSome step D s actions) :
    MeetsSome step (fun s a s' => C s a s' ∧ D s a s') s actions := by
  induction actions generalizing s with
  | nil => trivial
  | cons a rest ih =>
    intro s' hs'
    exact ⟨⟨(hC s' hs').1, (hD s' hs').1⟩, ih (hC s' hs').2 (hD s' hs').2⟩

theorem MeetsSome.mono {C D : σ → α → σ → Prop} {s : σ} {actions : List α}
    (h : MeetsSome step C s actions) (himp : ∀ s a s', C s a s' → D s a s') :
    MeetsSome step D s actions := by
  induction actions generalizing s with
  | nil => trivial
  | cons a rest ih => exact fun s' hs' => ⟨himp s a s' (h s' hs').1, ih (h s' hs').2⟩

theorem meetsSome_of_forall {D : α → Prop} {s : σ} {actions : List α} (h : ∀ a ∈ actions, D a) :
    MeetsSome step (fun _ a _ => D a) s actions := by
  induction actions generalizing s with
  | nil => trivial
  | cons a rest ih =>
    intro s' _
    exact ⟨h a List.mem_cons_self, ih fun a ha => h a (List.mem_cons_of_mem _ ha)⟩

theorem meetsSome_true {s : σ} (actions : List α) :
    MeetsSome step (fun _ _ _ => True) s actions := by
  induction actions generalizing s with
  | nil => trivial
  | cons a rest ih => exact fun _ _ => ⟨trivial, ih⟩

def passes (test : σ → α → σ → Bool) : σ → List α → Bool
  | _, [] => true
  | s, a :: rest =>
    match step s a with
    | none => true
    | some s' => test s a s' && passes test s' rest

theorem meetsSome_of_passes {test : σ → α → σ → Bool} {C : σ → α → σ → Prop}
    (htest : ∀ s a s', test s a s' = true → C s a s') {s : σ} {actions : List α}
    (h : passes step test s actions = true) : MeetsSome step C s actions := by
  induction actions generalizing s with
  | nil => trivial
  | cons a rest ih =>
    intro s' hs'
    rw [passes, hs'] at h
    obtain ⟨hfirst, hrest⟩ := (Bool.and_eq_true _ _).mp h
    exact ⟨htest s a s' hfirst, ih hrest⟩

theorem runSome_invariant {I : σ → Prop} {C : σ → α → σ → Prop}
    (hstep : ∀ s a s', I s → step s a = some s' → C s a s' → I s') {s t : σ} {actions : List α}
    (hs : I s) (hrun : runSome step s actions = some t)
    (hm : MeetsSome step C s actions) : I t := by
  induction actions generalizing s with
  | nil => rwa [← Option.some.inj hrun]
  | cons a rest ih =>
    obtain ⟨s', hs', hrest⟩ := (runSome_cons step).mp hrun
    obtain ⟨hc, hms⟩ := hm s' hs'
    exact ih (hstep s a s' hs hs' hc) hrest hms

theorem runSome_history {I : σ → List α → Prop} {C : σ → α → σ → Prop}
    (hstep : ∀ s past a s', I s past → step s a = some s' → C s a s' → I s' (past ++ [a])) {s t : σ}
    {past actions : List α} (hs : I s past) (hrun : runSome step s actions = some t)
    (hm : MeetsSome step C s actions) : I t (past ++ actions) := by
  induction actions generalizing s past with
  | nil =>
    rw [List.append_nil, ← Option.some.inj hrun]
    exact hs
  | cons a rest ih =>
    obtain ⟨s', hs', hrest⟩ := (runSome_cons step).mp hrun
    obtain ⟨hc, hms⟩ := hm s' hs'
    have h := ih (hstep s past a s' hs hs' hc) hrest hms
    rwa [List.append_assoc, List.singleton_append] at h

theorem runSome_concat {s t : σ} {actions : List α} {a : α}
    (h : runSome step s (actions ++ [a]) = some t) :
    ∃ u, runSome step s actions = some u ∧ step u a = some t := by
  induction actions generalizing s with
  | nil =>
    obtain ⟨s', hs', hrest⟩ := (runSome_cons step).mp h
    exact ⟨s, rfl, hs'.trans hrest⟩
  | cons b rest ih =>
    obtain ⟨s', hs', hrest⟩ := (runSome_cons step).mp h
    obtain ⟨u, hu, hlast⟩ := ih hrest
    exact ⟨u, (runSome_cons step).mpr ⟨s', hs', hu⟩, hlast⟩

theorem meetsSome_of_append {C : σ → α → σ → Prop} {s : σ} {actions later : List α}
    (hm : MeetsSome step C s (actions ++ later)) : MeetsSome step C s actions := by
  induction actions generalizing s with
  | nil => trivial
  | cons a rest ih => exact fun s' hs' => ⟨(hm s' hs').1, ih (hm s' hs').2⟩

theorem meetsSome_of_invariant {I : σ → Prop} {C D : σ → α → σ → Prop}
    (hstep : ∀ s a s', I s → step s a = some s' → C s a s' → I s' ∧ D s a s')
    {s : σ} {actions : List α}
    (hs : I s) (hm : MeetsSome step C s actions) : MeetsSome step D s actions := by
  induction actions generalizing s with
  | nil => trivial
  | cons a rest ih =>
    intro s' hs'
    obtain ⟨hc, hms⟩ := hm s' hs'
    obtain ⟨hi, hd⟩ := hstep s a s' hs hs' hc
    exact ⟨hd, ih hi hms⟩

theorem meetsSome_congr {I : σ → Prop} {C D : σ → α → σ → Prop}
    (hstep : ∀ s a s', I s → step s a = some s' → (C s a s' ↔ D s a s') ∧
      (D s a s' → I s')) {s : σ}
    {actions : List α} (hs : I s) : MeetsSome step C s actions ↔ MeetsSome step D s actions := by
  induction actions generalizing s with
  | nil => rfl
  | cons a rest ih =>
    refine forall_congr' fun s' => forall_congr' fun hs' => ?_
    obtain ⟨hiff, hkeep⟩ := hstep s a s' hs hs'
    rw [hiff]
    exact and_congr_right fun hd => ih (hkeep hd)

end Partial

end DevMgr.Run
