import Mathlib.Logic.Basic

/-!
# Programs over operations

A program issues operations one after another and goes on with what each of them
returns; it ends with a value or in an exception. `Wp` runs a program against a
ghost state, whatever its operations return: every operation meets its
precondition, and the value meets the postcondition. `Ran` runs it in one state
and lists what it issued.
-/

namespace DevMgr.Program

structure Interface where
  Op : Type
  Ret : Op → Type

inductive Prog (S : Interface) (α : Type) : Type where
  | pure (a : α)
  | raise
  | op (o : S.Op) (k : S.Ret o → Prog S α)

variable {S : Interface} {α β : Type}

namespace Prog

def bind : Prog S α → (α → Prog S β) → Prog S β
  | .pure a, f => f a
  | .raise, _ => .raise
  | .op o k, f => .op o fun r => (k r).bind f

instance : Monad (Prog S) where
  pure := .pure
  bind := .bind

def ending (last : S.Op) : Prog S α → Prog S α
  | .pure a => .op last fun _ => .pure a
  | .raise => .op last fun _ => .raise
  | .op o k => .op o fun r => (k r).ending last

end Prog

def call (o : S.Op) : Prog S (S.Ret o) := .op o .pure

def orRaise : Option α → Prog S α
  | some a => .pure a
  | none => .raise

def forEach {ι : Type} : List ι → (ι → Prog S Unit) → Prog S Unit
  | [], _ => pure ()
  | x :: xs, body => body x >>= fun _ => forEach xs body

def collect {ι : Type} (body : ι → Prog S (List α)) : List ι → Prog S (List α)
  | [] => pure []
  | x :: xs => body x >>= fun a => collect body xs >>= fun as => pure (a ++ as)

section Wp
variable {G : Type} (pre : S.Op → G → Prop) (next : (o : S.Op) → S.Ret o → G → G)

def Wp : Prog S α → (α → G → Prop) → G → Prop
  | .pure a, Q, g => Q a g
  | .raise, _, _ => True
  | .op o k, Q, g => pre o g ∧ ∀ r, Wp (k r) Q (next o r g)

variable {pre next} {Q R : α → G → Prop} {g : G}

@[simp] theorem wp_pure {a : α} : Wp pre next (Pure.pure a) Q g ↔ Q a g := Iff.rfl

@[simp] theorem wp_raise : Wp pre next (Prog.raise : Prog S α) Q g ↔ True := Iff.rfl

@[simp] theorem wp_call {o : S.Op} {Q : S.Ret o → G → Prop} :
    Wp pre next (call o) Q g ↔ pre o g ∧ ∀ r, Q r (next o r g) := Iff.rfl

@[simp] theorem wp_bind {p : Prog S α} {f : α → Prog S β} {Q : β → G → Prop} :
    Wp pre next (p >>= f) Q g ↔ Wp pre next p (fun a => Wp pre next (f a) Q) g := by
  induction p generalizing g with
  | pure a => exact Iff.rfl
  | raise => exact Iff.rfl
  | op o k ih => exact and_congr_right fun _ => forall_congr' fun r => ih r

theorem Wp.mono {p : Prog S α} (h : Wp pre next p Q g) (hQ : ∀ a g, Q a g → R a g) :
    Wp pre next p R g := by
  induction p generalizing g with
  | pure a => exact hQ a g h
  | raise => trivial
  | op o k ih => exact ⟨h.1, fun r => ih r (h.2 r)⟩

theorem Wp.trivially {p : Prog S α} (h : Wp pre next p Q g) :
    Wp pre next p (fun _ _ => True) g := h.mono fun _ _ _ => trivial

theorem Wp.and {pre' : S.Op → G → Prop} {p : Prog S α} (h : Wp pre next p Q g)
    (h' : Wp pre' next p R g) : Wp pre next p (fun a g => Q a g ∧ R a g) g := by
  induction p generalizing g with
  | pure a => exact ⟨h, h'⟩
  | raise => trivial
  | op o k ih => exact ⟨h.1, fun r => ih r (h.2 r) (h'.2 r)⟩

theorem wp_ending {last : S.Op} (hlast : ∀ g, pre last g) {p : Prog S α}
    (h : Wp pre next p (fun a g => ∀ r, Q a (next last r g)) g) :
    Wp pre next (p.ending last) Q g := by
  induction p generalizing g with
  | pure a => exact ⟨hlast g, h⟩
  | raise => exact ⟨hlast g, fun _ => trivial⟩
  | op o k ih => exact ⟨h.1, fun r => ih r (h.2 r)⟩

theorem wp_orRaise {a : Option α} (h : ∀ b, a = some b → Q b g) :
    Wp pre next (orRaise a) Q g := by
  cases a with
  | none => trivial
  | some b => exact h b rfl

end Wp

def Only (allowed : S.Op → Prop) (p : Prog S α) : Prop :=
  Wp (fun o (_ : Unit) => allowed o) (fun _ _ g => g) p (fun _ _ => True) ()

section Only
variable {allowed : S.Op → Prop} {p : Prog S α} {f : α → Prog S β}

@[simp] theorem only_pure (a : α) : Only allowed (pure a : Prog S α) := trivial

@[simp] theorem only_call {o : S.Op} : Only allowed (call o) ↔ allowed o :=
  ⟨fun h => h.1, fun h => ⟨h, fun _ => trivial⟩⟩

theorem only_op {o : S.Op} {k : S.Ret o → Prog S α} :
    Only allowed (.op o k) ↔ allowed o ∧ ∀ r, Only allowed (k r) := Iff.rfl

theorem only_bind (hp : Only allowed p) (hf : ∀ a, Only allowed (f a)) : Only allowed (p >>= f) :=
  wp_bind.mpr (hp.mono fun a _ _ => hf a)

theorem wp_only {G : Type} {pre : S.Op → G → Prop} {next : (o : S.Op) → S.Ret o → G → G}
    {K : G → Prop} (hp : Only allowed p) (hpre : ∀ o g, allowed o → K g → pre o g)
    (hnext : ∀ o r g, allowed o → K g → K (next o r g)) {g : G} (hg : K g) :
    Wp pre next p (fun _ g => K g) g := by
  induction p generalizing g with
  | pure a => exact hg
  | raise => trivial
  | op o k ih => exact ⟨hpre o g hp.1 hg, fun r => ih r (hp.2 r) (hnext o r g hp.1 hg)⟩

theorem only_all (h : ∀ o, allowed o) (p : Prog S α) : Only allowed p := by
  induction p with
  | pure a => trivial
  | raise => trivial
  | op o k ih => exact ⟨h o, ih⟩

theorem Only.mono {allowed' : S.Op → Prop} (hp : Only allowed p)
    (h : ∀ o, allowed o → allowed' o) : Only allowed' p := by
  induction p with
  | pure a => trivial
  | raise => trivial
  | op o k ih => exact ⟨h o hp.1, fun r => ih r (hp.2 r)⟩

theorem only_ending {last : S.Op} (hlast : allowed last) (hp : Only allowed p) :
    Only allowed (p.ending last) :=
  wp_ending (fun _ => hlast) (Wp.mono hp fun _ _ _ _ => trivial)

@[simp] theorem only_orRaise (a : Option α) : Only allowed (orRaise a : Prog S α) :=
  wp_orRaise fun _ _ => trivial

theorem only_forEach {ι : Type} {body : ι → Prog S Unit} (hbody : ∀ x, Only allowed (body x))
    (xs : List ι) : Only allowed (forEach xs body) := by
  induction xs with
  | nil => trivial
  | cons x xs ih => exact only_bind (hbody x) fun _ => ih

theorem only_collect {ι : Type} {body : ι → Prog S (List α)} (hbody : ∀ x, Only allowed (body x))
    (xs : List ι) : Only allowed (collect body xs) := by
  induction xs with
  | nil => trivial
  | cons x xs ih => exact only_bind (hbody x) fun _ => only_bind ih fun _ => trivial

end Only

def Returns (R : α → Prop) (p : Prog S α) : Prop :=
  Wp (fun _ (_ : Unit) => True) (fun _ _ g => g) p (fun a _ => R a) ()

section Returns
variable {R : α → Prop} {R' : β → Prop} {p : Prog S α} {f : α → Prog S β}

@[simp] theorem returns_pure {a : α} : Returns R (pure a : Prog S α) ↔ R a := Iff.rfl

theorem returns_true (p : Prog S α) : Returns (fun _ => True) p := by
  induction p with
  | pure a => trivial
  | raise => trivial
  | op o k ih => exact ⟨trivial, ih⟩

theorem returns_bind (hp : Returns R p) (hf : ∀ a, R a → Returns R' (f a)) :
    Returns R' (p >>= f) :=
  wp_bind.mpr (Wp.mono hp fun a _ h => hf a h)

theorem returns_then (hf : ∀ a, Returns R' (f a)) : Returns R' (p >>= f) :=
  returns_bind (returns_true p) fun a _ => hf a

end Returns

def Total : Prog S α → Prop
  | .pure _ => True
  | .raise => False
  | .op _ k => ∀ r, Total (k r)

section Total
variable {p : Prog S α} {f : α → Prog S β}

@[simp] theorem total_pure (a : α) : Total (pure a : Prog S α) := trivial

@[simp] theorem total_call (o : S.Op) : Total (call o) := fun _ => trivial

theorem total_bind (hp : Total p) (hf : ∀ a, Total (f a)) : Total (p >>= f) := by
  induction p with
  | pure a => exact hf a
  | raise => exact hp.elim
  | op o k ih => exact fun r => ih r (hp r)

theorem total_collect {ι : Type} {body : ι → Prog S (List α)} (hbody : ∀ x, Total (body x))
    (xs : List ι) : Total (collect body xs) := by
  induction xs with
  | nil => exact total_pure _
  | cons x xs ih => exact total_bind (hbody x) fun _ => total_bind ih fun _ => total_pure _

end Total

section Except
variable {ε : Type}

section Wp
variable {G : Type} {pre : S.Op → G → Prop} {next : (o : S.Op) → S.Ret o → G → G} {g : G}

theorem wp_step {x : ExceptT ε (Prog S) α} {f : α → ExceptT ε (Prog S) β}
    {Q : Except ε β → G → Prop} :
    Wp pre next (x >>= f).run Q g ↔ Wp pre next x.run (fun r g => match r with
      | .ok a => Wp pre next (f a).run Q g
      | .error e => Q (.error e) g) g := by
  rw [ExceptT.run_bind, wp_bind]
  refine ⟨fun h => h.mono fun r g hr => ?_, fun h => h.mono fun r g hr => ?_⟩
  · cases r <;> exact hr
  · cases r <;> exact hr

theorem wp_lift {p : Prog S α} {Q : Except ε α → G → Prop} :
    Wp pre next (ExceptT.run (liftM p : ExceptT ε (Prog S) α)) Q g ↔
      Wp pre next p (fun a g => Q (.ok a) g) g :=
  wp_bind

end Wp

section Only
variable {allowed : S.Op → Prop} {x : ExceptT ε (Prog S) α} {f : α → ExceptT ε (Prog S) β}

theorem only_step (hx : Only allowed x.run) (hf : ∀ a, Only allowed (f a).run) :
    Only allowed (x >>= f).run := by
  rw [ExceptT.run_bind]
  refine only_bind hx fun r => ?_
  cases r with
  | ok a => exact hf a
  | error e => exact only_pure _

theorem only_map {h : α → β} (hx : Only allowed x.run) : Only allowed (h <$> x).run :=
  only_bind hx fun r => by cases r <;> exact only_pure _

theorem only_lift {p : Prog S α} (hp : Only allowed p) :
    Only allowed (ExceptT.run (liftM p : ExceptT ε (Prog S) α)) :=
  only_bind hp fun _ => only_pure _

end Only

end Except

section Run
variable {σ : Type} (respond : (o : S.Op) → σ → S.Ret o × σ)

/-- What a program issued, its value unless it raised, and the state it left. -/
structure Ran (S : Interface) (α σ : Type) where
  issued : List S.Op
  value : Option α
  state : σ

def Ran.andThen (ran : Ran S α σ) (f : α → σ → Ran S β σ) : Ran S β σ :=
  match ran.value with
  | none => ⟨ran.issued, none, ran.state⟩
  | some a =>
    let rest := f a ran.state
    ⟨ran.issued ++ rest.issued, rest.value, rest.state⟩

def run : Prog S α → σ → Ran S α σ
  | .pure a, s => ⟨[], some a, s⟩
  | .raise, s => ⟨[], none, s⟩
  | .op o k, s =>
    let (r, s') := respond o s
    let ran := run (k r) s'
    ⟨o :: ran.issued, ran.value, ran.state⟩

@[simp] theorem run_pure {a : α} {s : σ} :
    run respond (Pure.pure a : Prog S α) s = ⟨[], some a, s⟩ :=
  rfl

@[simp] theorem run_raise {s : σ} : run respond (Prog.raise : Prog S α) s = ⟨[], none, s⟩ :=
  rfl

@[simp] theorem run_call {o : S.Op} {s : σ} :
    run respond (call o) s = ⟨[o], some (respond o s).1, (respond o s).2⟩ := rfl

@[simp] theorem run_bind {p : Prog S α} {f : α → Prog S β} {s : σ} :
    run respond (p >>= f) s = (run respond p s).andThen fun a s => run respond (f a) s := by
  induction p generalizing s with
  | pure a => rfl
  | raise => rfl
  | op o k ih =>
    have hk : run respond ((k (respond o s).1).bind f) (respond o s).2 = _ := ih (respond o s).1
    simp only [Bind.bind, Prog.bind, run, hk, Ran.andThen]
    split <;> rfl

theorem run_bind_value {p : Prog S α} {f : α → Prog S β} {s : σ} {b : β} :
    (run respond (p >>= f) s).value = some b ↔ ∃ a, (run respond p s).value = some a ∧
      (run respond (f a) (run respond p s).state).value = some b := by
  rw [run_bind, Ran.andThen]
  cases (run respond p s).value <;> simp

theorem run_bind_state {p : Prog S α} {f : α → Prog S β} {s : σ} {a : α}
    (h : (run respond p s).value = some a) :
    (run respond (p >>= f) s).state = (run respond (f a) (run respond p s).state).state := by
  rw [run_bind, Ran.andThen, h]

structure Ran.SameEnd (ran ran' : Ran S α σ) : Prop where
  value : ran.value = ran'.value
  state : ran.state = ran'.state

theorem Ran.SameEnd.trans {ran ran' ran'' : Ran S α σ} (h : ran.SameEnd ran')
    (h' : ran'.SameEnd ran'') : ran.SameEnd ran'' :=
  ⟨h.value.trans h'.value, h.state.trans h'.state⟩

theorem run_step {ε : Type} {x : ExceptT ε (Prog S) α} {f : α → ExceptT ε (Prog S) β} {s s' : σ}
    {a : α} (hvalue : (run respond x.run s).value = some (.ok a))
    (hstate : (run respond x.run s).state = s') :
    (run respond (x >>= f).run s).SameEnd (run respond (f a).run s') := by
  rw [ExceptT.run_bind, run_bind, Ran.andThen, hvalue, hstate]
  exact ⟨rfl, rfl⟩

theorem run_step_error {ε : Type} {x : ExceptT ε (Prog S) α} {f : α → ExceptT ε (Prog S) β} {s : σ}
    {e : ε} (hvalue : (run respond x.run s).value = some (.error e)) :
    (run respond (x >>= f).run s).SameEnd ⟨[], some (.error e),
      (run respond x.run s).state⟩ := by
  rw [ExceptT.run_bind, run_bind, Ran.andThen, hvalue]
  exact ⟨rfl, rfl⟩

theorem run_lift {ε : Type} {p : Prog S α} {s : σ} {a : α} (h : (run respond p s).value = some a) :
    (run respond (ExceptT.run (liftM p : ExceptT ε (Prog S) α)) s).value = some (.ok a) ∧
      (run respond (ExceptT.run (liftM p : ExceptT ε (Prog S) α)) s).state =
        (run respond p s).state := by
  have hlift : ExceptT.run (liftM p : ExceptT ε (Prog S) α) = p >>= fun a =>
    pure (Except.ok a) := rfl
  rw [hlift, run_bind, Ran.andThen, h]
  exact ⟨rfl, rfl⟩

theorem run_orRaise {a : Option α} {s : σ} :
    run respond (orRaise a : Prog S α) s = ⟨[], a, s⟩ := by
  cases a <;> rfl

theorem run_ending {last : S.Op} {p : Prog S α} {s : σ} :
    run respond (p.ending last) s =
      ⟨(run respond p s).issued ++ [last], (run respond p s).value,
        (respond last (run respond p s).state).2⟩ := by
  induction p generalizing s with
  | pure a => rfl
  | raise => rfl
  | op o k ih =>
    simp only [Prog.ending, run, ih, List.cons_append]

theorem run_only {allowed : S.Op → Prop} {p : Prog S α} (h : Only allowed p) (s : σ) :
    ∀ o ∈ (run respond p s).issued, allowed o := by
  induction p generalizing s with
  | pure a => exact fun o ho => absurd ho (by simp [run])
  | raise => exact fun o ho => absurd ho (by simp [run])
  | op o k ih =>
    intro o' ho'
    rcases List.mem_cons.mp ho' with rfl | ho'
    · exact h.1
    · exact ih _ (h.2 _) _ o' ho'

def Ran.All (Q : S.Op → Prop) (ran : Ran S α σ) : Prop := ∀ o ∈ ran.issued, Q o

variable {respond} {Q : S.Op → Prop}

@[simp] theorem all_pure {a : α} {s : σ} : (run respond (pure a : Prog S α) s).All Q :=
  fun _ ho => absurd ho (by simp)

@[simp] theorem all_call {o : S.Op} {s : σ} : (run respond (call o) s).All Q ↔ Q o := by
  simp [Ran.All]

@[simp] theorem all_single {o : S.Op} {a : Option α} {s : σ} :
    (⟨[o], a, s⟩ : Ran S α σ).All Q ↔ Q o := by
  simp [Ran.All]

theorem all_bind {p : Prog S α} {f : α → Prog S β} {s : σ} :
    (run respond (p >>= f) s).All Q ↔ (run respond p s).All Q ∧
      ∀ a, (run respond p s).value = some a →
      (run respond (f a) (run respond p s).state).All Q := by
  rw [run_bind, Ran.andThen]
  cases hvalue : (run respond p s).value with
  | none => simp [Ran.All]
  | some a =>
    simp only [Ran.All, List.mem_append, Option.some.injEq, forall_eq', or_imp, forall_and]

theorem all_bind_single {p : Prog S α} {f : α → Prog S β} {s s' : σ} {o : S.Op} {a : α}
    (hp : run respond p s = ⟨[o], some a, s'⟩) :
    (run respond (p >>= f) s).All Q ↔ Q o ∧ (run respond (f a) s').All Q := by
  rw [all_bind, hp, all_single]
  exact and_congr_right fun _ => ⟨fun h => h a rfl, fun h b hb => Option.some.inj hb ▸ h⟩

theorem all_ending {last : S.Op} {p : Prog S α} {s : σ} :
    (run respond (p.ending last) s).All Q ↔ (run respond p s).All Q ∧ Q last := by
  simp only [run_ending, Ran.All, List.mem_append, List.mem_singleton, or_imp, forall_and,
    forall_eq]

theorem all_step {ε : Type} {x : ExceptT ε (Prog S) α} {f : α → ExceptT ε (Prog S) β} {s : σ} :
    (run respond (x >>= f).run s).All Q ↔ (run respond x.run s).All Q ∧
      ∀ a, (run respond x.run s).value = some (.ok a) →
        (run respond (f a).run (run respond x.run s).state).All Q := by
  rw [ExceptT.run_bind, all_bind]
  refine and_congr_right fun _ => ⟨fun h a ha => h _ ha, fun h r hr => ?_⟩
  cases r with
  | ok a => exact h a hr
  | error e => exact all_pure

theorem all_step_ok {ε : Type} {x : ExceptT ε (Prog S) α} {f : α → ExceptT ε (Prog S) β} {s s' : σ}
    {a : α} (hx : (run respond x.run s).All Q) (hvalue : (run respond x.run s).value = some (.ok a))
    (hstate : (run respond x.run s).state = s') :
    (run respond (x >>= f).run s).All Q ↔ (run respond (f a).run s').All Q := by
  rw [all_step, hvalue, hstate]
  exact ⟨fun h => h.2 a rfl,
    fun h => ⟨hx, fun b hb => Except.ok.inj (Option.some.inj hb) ▸ h⟩⟩

theorem all_lift {ε : Type} {p : Prog S α} {s : σ} :
    (run respond (ExceptT.run (liftM p : ExceptT ε (Prog S) α)) s).All Q ↔
    (run respond p s).All Q :=
  all_bind.trans ⟨fun h => h.1, fun h => ⟨h, fun _ _ => all_pure⟩⟩

theorem all_only {p : Prog S α} (h : Only Q p) (s : σ) : (run respond p s).All Q :=
  run_only respond h s

def Along (respond : (o : S.Op) → σ → S.Ret o × σ) {ι : Type} (body : ι → Prog S α)
    (cond : ι → σ → Prop) : List ι → σ → Prop
  | [], _ => True
  | x :: xs, s => cond x s ∧ ((run respond (body x) s).value.isSome →
      Along respond body cond xs (run respond (body x) s).state)

theorem all_forEach {ι : Type} {body : ι → Prog S Unit} {xs : List ι} {s : σ} :
    (run respond (forEach xs body) s).All Q ↔
      Along respond body (fun x s => (run respond (body x) s).All Q) xs s := by
  induction xs generalizing s with
  | nil => exact iff_of_true all_pure trivial
  | cons x xs ih =>
    simp only [forEach, all_bind, Along, ih, Option.isSome_iff_exists, forall_exists_index]

theorem all_collect {ι : Type} {body : ι → Prog S (List α)} {xs : List ι} {s : σ} :
    (run respond (collect body xs) s).All Q ↔
      Along respond body (fun x s => (run respond (body x) s).All Q) xs s := by
  induction xs generalizing s with
  | nil => exact iff_of_true all_pure trivial
  | cons x xs ih =>
    simp only [collect, all_bind, Along, ih, all_pure, Option.isSome_iff_exists,
      forall_exists_index, implies_true, and_true]

theorem along_congr {ι : Type} {body : ι → Prog S α} {cond cond' : ι → σ → Prop}
    (h : ∀ x s, cond x s ↔ cond' x s) {xs : List ι} {s : σ} :
    Along respond body cond xs s ↔ Along respond body cond' xs s := by
  induction xs generalizing s with
  | nil => exact Iff.rfl
  | cons x xs ih => exact and_congr (h x s) (imp_congr_right fun _ => ih)

inductive Turn (respond : (o : S.Op) → σ → S.Ret o × σ) {ι : Type} (body : ι → Prog S α) :
    List ι → σ → ι → σ → Prop
  | now (x : ι) (xs : List ι) (s : σ) : Turn respond body (x :: xs) s x s
  | later {y x : ι} {xs : List ι} {s s' : σ} : (run respond (body y) s).value.isSome →
      Turn respond body xs (run respond (body y) s).state x s' →
      Turn respond body (y :: xs) s x s'

theorem Turn.mem {ι : Type} {body : ι → Prog S α} {xs : List ι} {s s' : σ} {x : ι}
    (h : Turn respond body xs s x s') : x ∈ xs := by
  induction h with
  | now x xs s => exact List.mem_cons_self ..
  | later _ _ ih => exact List.mem_cons_of_mem _ ih

theorem Turn.keeps {ι : Type} {body : ι → Prog S α} {xs : List ι} {s s' : σ} {x : ι} {K : σ → Prop}
    (h : Turn respond body xs s x s') (hbody : ∀ x s, K s → K (run respond (body x) s).state)
    (hs : K s) : K s' := by
  induction h with
  | now x xs s => exact hs
  | later _ _ ih => exact ih (hbody _ _ hs)

theorem Turn.begins {ι : Type} {body : ι → Prog S α} {xs : List ι} {s s' : σ} {x : ι} {K : σ → Prop}
    (h : Turn respond body xs s x s')
    (hbody : ∀ x s', Turn respond body xs s x s' → K s' → K (run respond (body x) s').state)
    (hs : K s) :
    K s' := by
  induction h with
  | now x xs s => exact hs
  | later hvalue _ ih =>
    exact ih (fun x s' hturn => hbody x s' (.later hvalue hturn)) (hbody _ _ (.now ..) hs)

theorem forEach_keeps {ι : Type} {body : ι → Prog S Unit} {xs : List ι} {s : σ} {K : σ → Prop}
    (hbody : ∀ x s', Turn respond body xs s x s' → K s' → K (run respond (body x) s').state)
    (hs : K s) :
    K (run respond (forEach xs body) s).state := by
  induction xs generalizing s with
  | nil => exact hs
  | cons x xs ih =>
    have hnow := hbody x s (.now ..) hs
    rw [forEach, run_bind, Ran.andThen]
    cases hvalue : (run respond (body x) s).value with
    | none => exact hnow
    | some u =>
      exact ih (fun y s' hturn => hbody y s' (.later (by rw [hvalue]; rfl) hturn)) hnow

theorem Turn.lasts {ι : Type} {body : ι → Prog S Unit} {xs : List ι} {s s' : σ}
    {x : ι} {K : σ → Prop} (h : Turn respond body xs s x s')
    (hbody : ∀ x s', Turn respond body xs s x s' → K s' → K (run respond (body x) s').state)
    (hx : K (run respond (body x) s').state) : K (run respond (forEach xs body) s).state := by
  induction h with
  | now x xs s =>
    rw [forEach, run_bind, Ran.andThen]
    cases hvalue : (run respond (body x) s).value with
    | none => exact hx
    | some u =>
      exact forEach_keeps (fun y s' hturn => hbody y s' (.later (by rw [hvalue]; rfl) hturn)) hx
  | later hvalue _ ih =>
    rw [forEach, run_bind, Ran.andThen]
    obtain ⟨u, hu⟩ := Option.isSome_iff_exists.mp hvalue
    rw [hu]
    exact ih (fun y s' hturn => hbody y s' (.later hvalue hturn)) hx

theorem exists_turn {ι : Type} {body : ι → Prog S Unit} {xs : List ι} {s : σ} {x : ι} (hx : x ∈ xs)
    (h : (run respond (forEach xs body) s).value.isSome) : ∃ s', Turn respond body xs s x s' := by
  induction xs generalizing s with
  | nil => exact absurd hx List.not_mem_nil
  | cons y xs ih =>
    rw [forEach, run_bind, Ran.andThen] at h
    cases hvalue : (run respond (body y) s).value with
    | none =>
      rw [hvalue] at h
      exact absurd h (by simp)
    | some u =>
      rw [hvalue] at h
      rcases List.mem_cons.mp hx with rfl | hlater
      · exact ⟨s, .now ..⟩
      · obtain ⟨s', hturn⟩ := ih hlater h
        exact ⟨s', .later (by rw [hvalue]; rfl) hturn⟩

theorem along_iff_turns {ι : Type} {body : ι → Prog S α} {cond : ι → σ → Prop}
    {xs : List ι} {s : σ} :
    Along respond body cond xs s ↔ ∀ x s', Turn respond body xs s x s' → cond x s' := by
  induction xs generalizing s with
  | nil => exact iff_of_true trivial nofun
  | cons y xs ih =>
    rw [Along, ih]
    constructor
    · rintro ⟨hnow, hlater⟩ x s' (_ | ⟨hvalue, hturn⟩)
      · exact hnow
      · exact hlater hvalue x s' hturn
    · exact fun h => ⟨h y s (.now ..), fun hvalue x s' hturn => h x s' (.later hvalue hturn)⟩

theorem mem_issued_iff {ran : Ran S α σ} {o : S.Op} : o ∈ ran.issued ↔
    ¬ ran.All (· ≠ o) := by
  simp [Ran.All]

theorem mem_issued_forEach {ι : Type} {body : ι → Prog S Unit} {xs : List ι} {s : σ} {o : S.Op} :
    o ∈ (run respond (forEach xs body) s).issued ↔
      ∃ x s', Turn respond body xs s x s' ∧ o ∈ (run respond (body x) s').issued := by
  simp only [mem_issued_iff, all_forEach, along_iff_turns, not_forall, exists_prop]

theorem mem_issued_collect {ι : Type} {body : ι → Prog S (List α)} {xs : List ι}
    {s : σ} {o : S.Op} :
    o ∈ (run respond (collect body xs) s).issued ↔
      ∃ x s', Turn respond body xs s x s' ∧ o ∈ (run respond (body x) s').issued := by
  simp only [mem_issued_iff, all_collect, along_iff_turns, not_forall, exists_prop]

variable (respond)

theorem run_returns {R : α → Prop} {p : Prog S α} (h : Returns R p) {s : σ} {a : α}
    (hvalue : (run respond p s).value = some a) : R a := by
  induction p generalizing s with
  | pure b =>
    obtain rfl : b = a := Option.some.inj hvalue
    exact h
  | raise => exact absurd hvalue (by simp [run])
  | op o k ih => exact ih _ (h.2 (respond o s).1) hvalue

theorem run_total {p : Prog S α} (h : Total p) (s : σ) :
    ∃ a, (run respond p s).value = some a := by
  induction p generalizing s with
  | pure a => exact ⟨a, rfl⟩
  | raise => exact h.elim
  | op o k ih => exact ih _ (h _) _

theorem run_keeps {allowed : S.Op → Prop} {K : σ → Prop} {p : Prog S α} (h : Only allowed p)
    (hkeep : ∀ o s, allowed o → K s → K (respond o s).2) {s : σ} (hs : K s) :
    K (run respond p s).state := by
  induction p generalizing s with
  | pure a => exact hs
  | raise => exact hs
  | op o k ih => exact ih _ (h.2 _) (hkeep o s h.1 hs)

theorem run_keeps_issued {Q : S.Op → Prop} {K : σ → Prop} {p : Prog S α} {s : σ}
    (h : (run respond p s).All Q) (hkeep : ∀ o s, Q o → K s → K (respond o s).2) (hs : K s) :
    K (run respond p s).state := by
  induction p generalizing s with
  | pure a => exact hs
  | raise => exact hs
  | op o k ih =>
    obtain ⟨ho, hrest⟩ := List.forall_mem_cons.mp h
    exact ih _ hrest (hkeep o s ho hs)

theorem run_reads {reads : S.Op → Prop} (hreads : ∀ o s, reads o → (respond o s).2 = s)
    {p : Prog S α} (h : Only reads p) (s : σ) : (run respond p s).state = s :=
  run_keeps respond h (fun o s' ho hs' => (hreads o s' ho).trans hs') rfl

/-- If the program ends with a value, then as told, and in such a state. -/
def Leaves (p : Prog S α) (s : σ) (Q : α → σ → Prop) : Prop :=
  ∀ a, (run respond p s).value = some a → Q a (run respond p s).state

end Run

section Leaves
variable {σ : Type} {respond : (o : S.Op) → σ → S.Ret o × σ} {s : σ} {Q R : α → σ → Prop}
  {p : Prog S α}

@[simp] theorem leaves_pure {a : α} : Leaves respond (pure a : Prog S α) s Q ↔ Q a s :=
  ⟨fun h => h a rfl, fun h _ ha => Option.some.inj ha ▸ h⟩

@[simp] theorem leaves_raise : Leaves respond (.raise : Prog S α) s Q := nofun

@[simp] theorem leaves_call {o : S.Op} {Q : S.Ret o → σ → Prop} :
    Leaves respond (call o) s Q ↔ Q (respond o s).1 (respond o s).2 :=
  ⟨fun h => h _ rfl, fun h _ ha => Option.some.inj ha ▸ h⟩

theorem leaves_bind {f : α → Prog S β} {Q : β → σ → Prop} :
    Leaves respond (p >>= f) s Q ↔ Leaves respond p s fun a s' => Leaves respond (f a) s' Q := by
  unfold Leaves
  rw [run_bind, Ran.andThen]
  cases hvalue : (run respond p s).value with
  | none => simp
  | some a => simp

theorem Leaves.mono (h : Leaves respond p s Q) (hQ : ∀ a s, Q a s → R a s) :
    Leaves respond p s R := fun a ha => hQ a _ (h a ha)

theorem Leaves.and (h : Leaves respond p s Q) (h' : Leaves respond p s R) :
    Leaves respond p s fun a s' => Q a s' ∧ R a s' := fun a ha => ⟨h a ha, h' a ha⟩

theorem leaves_ending {last : S.Op} :
    Leaves respond (p.ending last) s Q ↔ Leaves respond p s fun a s' =>
      Q a (respond last s').2 := by
  simp only [Leaves, run_ending]

theorem leaves_orRaise {a : Option α} :
    Leaves respond (orRaise a) s Q ↔ ∀ b, a = some b → Q b s := by
  cases a with
  | none => exact iff_of_true leaves_raise nofun
  | some b => exact leaves_pure.trans ⟨fun h _ hb => Option.some.inj hb ▸ h, fun h => h b rfl⟩

theorem leaves_only {allowed : S.Op → Prop} {K : σ → Prop} (hp : Only allowed p)
    (hkeep : ∀ o s, allowed o → K s → K (respond o s).2) (hs : K s) :
    Leaves respond p s fun _ s' => K s' := fun _ _ => run_keeps respond hp hkeep hs

theorem leaves_collect {ι : Type} {body : ι → Prog S (List α)} {R : α → Prop}
    (hbody : ∀ x s, Leaves respond (body x) s fun as _ => ∀ a ∈ as, R a) (xs : List ι) :
    Leaves respond (collect body xs) s fun as _ => ∀ a ∈ as, R a := by
  induction xs generalizing s with
  | nil => exact leaves_pure.mpr nofun
  | cons x xs ih =>
    refine leaves_bind.mpr
      ((hbody x s).mono fun as s' has => leaves_bind.mpr (ih.mono fun bs s'' hbs => ?_))
    exact leaves_pure.mpr (List.forall_mem_append.mpr ⟨has, hbs⟩)

inductive Threaded {ι : Type} (R : ι → α → σ → σ → Prop) :
    List ι → List α → σ → σ → Prop
  | nil {s : σ} : Threaded R [] [] s s
  | cons {x : ι} {xs : List ι} {a : α} {as : List α} {s s' s'' : σ} :
      R x a s s' → Threaded R xs as s' s'' → Threaded R (x :: xs) (a :: as) s s''

section Threaded
variable {ι : Type} {xs : List ι} {as : List α} {s s' : σ} {R : ι → α → σ → σ → Prop}

theorem Threaded.map_eq {f : α → β} {g : ι → β} (h : Threaded R xs as s s')
    (hR : ∀ x a s s', R x a s s' → f a = g x) : as.map f = xs.map g := by
  induction h with
  | nil => rfl
  | cons hx _ ih => rw [List.map_cons, List.map_cons, hR _ _ _ _ hx, ih]

theorem Threaded.all {Q : α → Prop} (h : Threaded R xs as s s')
    (hR : ∀ x a s s', R x a s s' → Q a) : ∀ a ∈ as, Q a := by
  induction h with
  | nil => exact nofun
  | cons hx _ ih => exact List.forall_mem_cons.mpr ⟨hR _ _ _ _ hx, ih⟩

end Threaded

theorem leaves_collect_threaded {ι : Type} {body : ι → Prog S (List α)} {taken : ι → Prop}
    [DecidablePred taken] {R : ι → α → σ → σ → Prop}
    (hskip : ∀ x s, ¬ taken x → Leaves respond (body x) s fun as s' => as = [] ∧ s' = s)
    (hturn : ∀ x s, taken x → Leaves respond (body x) s fun as s' => ∃ a,
      as = [a] ∧ R x a s s')
    (xs : List ι) : Leaves respond (collect body xs) s fun as s' =>
      Threaded R (xs.filter fun x => taken x) as s s' := by
  induction xs generalizing s with
  | nil => exact leaves_pure.mpr .nil
  | cons x xs ih =>
    rw [collect]
    by_cases hx : taken x
    · rw [List.filter_cons_of_pos (by simpa using hx)]
      refine leaves_bind.mpr ((hturn x s hx).mono ?_)
      rintro _ s' ⟨a, rfl, ha⟩
      exact leaves_bind.mpr (ih.mono fun as s'' has => leaves_pure.mpr (.cons ha has))
    · rw [List.filter_cons_of_neg (by simpa using hx)]
      refine leaves_bind.mpr ((hskip x s hx).mono ?_)
      rintro _ s' ⟨rfl, rfl⟩
      exact leaves_bind.mpr (ih.mono fun as s'' has => leaves_pure.mpr has)

theorem leaves_step {ε : Type} {x : ExceptT ε (Prog S) α} {f : α → ExceptT ε (Prog S) β}
    {Q : Except ε β → σ → Prop} :
    Leaves respond (x >>= f).run s Q ↔ Leaves respond x.run s fun r s' => match r with
      | .ok a => Leaves respond (f a).run s' Q
      | .error e => Q (.error e) s' := by
  rw [ExceptT.run_bind, leaves_bind]
  refine ⟨fun h => h.mono fun r s' hr => ?_, fun h => h.mono fun r s' hr => ?_⟩
  · cases r with
    | ok a => exact hr
    | error e => exact hr _ rfl
  · cases r with
    | ok a => exact hr
    | error e => exact fun _ ha => Option.some.inj ha ▸ hr

theorem leaves_map {ε : Type} {x : ExceptT ε (Prog S) α} {h : α → β} {Q : Except ε β → σ → Prop} :
    Leaves respond (h <$> x).run s Q ↔ Leaves respond x.run s fun r s' => Q (h <$> r) s' := by
  refine leaves_bind.trans ⟨fun hx => hx.mono fun r s' hr => ?_,
    fun hx => hx.mono fun r s' hr => ?_⟩
  · cases r <;> exact hr _ rfl
  · cases r <;> exact fun _ ha => Option.some.inj ha ▸ hr

theorem leaves_lift {ε : Type} {Q : Except ε α → σ → Prop} :
    Leaves respond (ExceptT.run (liftM p : ExceptT ε (Prog S) α)) s Q ↔
      Leaves respond p s fun a s' => Q (.ok a) s' :=
  leaves_bind.trans ⟨fun h => h.mono fun _ _ => leaves_pure.mp,
    fun h => h.mono fun _ _ => leaves_pure.mpr⟩

end Leaves

section Does
variable {σ : Type}

structure Does (respond : (o : S.Op) → σ → S.Ret o × σ) (p : Prog S α) (s : σ) (Q : S.Op → Prop)
    (R : α → σ → Prop) : Prop where
  issues : (run respond p s).All Q
  leaves : Leaves respond p s R

variable {respond : (o : S.Op) → σ → S.Ret o × σ} {s : σ} {Q : S.Op → Prop} {R : α → σ → Prop}
  {p : Prog S α}

theorem does_pure {a : α} (h : R a s) : Does respond (pure a : Prog S α) s Q R :=
  ⟨all_pure, leaves_pure.mpr h⟩

theorem does_call {o : S.Op} {R : S.Ret o → σ → Prop} (hissue : Q o)
    (h : R (respond o s).1 (respond o s).2) : Does respond (call o) s Q R :=
  ⟨all_call.mpr hissue, leaves_call.mpr h⟩

theorem does_only (hp : Only Q p) (h : Leaves respond p s R) : Does respond p s Q R :=
  ⟨all_only hp s, h⟩

theorem Does.mono {R' : α → σ → Prop} (h : Does respond p s Q R) (hR : ∀ a s, R a s → R' a s) :
    Does respond p s Q R' := ⟨h.issues, h.leaves.mono hR⟩

theorem does_bind {f : α → Prog S β} {R : β → σ → Prop}
    (h : Does respond p s Q fun a s' => Does respond (f a) s' Q R) : Does respond (p >>= f) s Q R :=
  ⟨all_bind.mpr ⟨h.issues, fun a ha => (h.leaves a ha).issues⟩,
    leaves_bind.mpr (h.leaves.mono fun _ _ ha => ha.leaves)⟩

theorem does_ending {last : S.Op} (hlast : Q last)
    (h : Does respond p s Q fun a s' => R a (respond last s').2) :
    Does respond (p.ending last) s Q R :=
  ⟨all_ending.mpr ⟨h.issues, hlast⟩, leaves_ending.mpr h.leaves⟩

theorem does_orRaise {a : Option α} (h : ∀ b, a = some b → R b s) :
    Does respond (orRaise a) s Q R :=
  ⟨all_only (only_orRaise a) s, leaves_orRaise.mpr h⟩

theorem does_step {ε : Type} {x : ExceptT ε (Prog S) α} {f : α → ExceptT ε (Prog S) β}
    {R : Except ε β → σ → Prop}
    (h : Does respond x.run s Q fun r s' => match r with
      | .ok a => Does respond (f a).run s' Q R
      | .error e => R (.error e) s') : Does respond (x >>= f).run s Q R := by
  refine ⟨all_step.mpr ⟨h.issues, fun a ha => (h.leaves _ ha).issues⟩, leaves_step.mpr ?_⟩
  refine h.leaves.mono fun r s' hr => ?_
  cases r with
  | ok a => exact hr.leaves
  | error e => exact hr

theorem does_map {ε : Type} {x : ExceptT ε (Prog S) α} {h : α → β} {R : Except ε β → σ → Prop}
    (hx : Does respond x.run s Q fun r s' => R (h <$> r) s') :
    Does respond (h <$> x).run s Q R := by
  refine ⟨all_bind.mpr ⟨hx.issues, fun r _ => ?_⟩, leaves_map.mpr hx.leaves⟩
  cases r <;> exact all_pure

theorem does_lift {ε : Type} {R : Except ε α → σ → Prop}
    (h : Does respond p s Q fun a s' => R (.ok a) s') :
    Does respond (ExceptT.run (liftM p : ExceptT ε (Prog S) α)) s Q R :=
  ⟨all_lift.mpr h.issues, leaves_lift.mpr h.leaves⟩

end Does

/-- Whatever its operations return, the program issues an operation of the kind before it ends as
told. -/
def Through (kind : S.Op → Prop) (R : α → Prop) : Prog S α → Prop
  | .pure a => ¬ R a
  | .raise => True
  | .op o k => kind o ∨ ∀ r, Through kind R (k r)

section Through
variable {kind : S.Op → Prop} {R : α → Prop} {p : Prog S α}

theorem through_now {o : S.Op} {f : S.Ret o → Prog S α} (h : kind o) :
    Through kind R (call o >>= f) := .inl h

theorem through_then {R : β → Prop} {f : α → Prog S β} (hf : ∀ a, Through kind R (f a)) :
    Through kind R (p >>= f) := by
  induction p with
  | pure a => exact hf a
  | raise => trivial
  | op o k ih => exact .inr fun r => ih r

theorem through_ending {last : S.Op} (h : Through kind R p) : Through kind R (p.ending last) := by
  induction p with
  | pure a => exact .inr fun _ => h
  | raise => exact .inr fun _ => trivial
  | op o k ih => exact h.imp id fun hk r => ih r (hk r)

theorem through_step {ε : Type} {x : ExceptT ε (Prog S) α} {f : α → ExceptT ε (Prog S) β}
    {R : Except ε β → Prop} (herror : ∀ e, ¬ R (.error e)) (hf : ∀ a, Through kind R (f a).run) :
    Through kind R (x >>= f).run := by
  rw [ExceptT.run_bind]
  refine through_then fun r => ?_
  cases r with
  | ok a => exact hf a
  | error e => exact herror e

theorem Through.issued {σ : Type} {respond : (o : S.Op) → σ → S.Ret o × σ}
    (h : Through kind R p) {s : σ} {a : α} (hvalue : (run respond p s).value = some a) (ha : R a) :
    ∃ o ∈ (run respond p s).issued, kind o := by
  induction p generalizing s with
  | pure b => exact absurd (Option.some.inj hvalue ▸ ha) h
  | raise => exact absurd hvalue (by simp [run])
  | op o k ih =>
    rcases h with hkind | hk
    · exact ⟨o, List.mem_cons_self .., hkind⟩
    · obtain ⟨o', ho', hkind⟩ := ih _ (hk (respond o s).1) hvalue
      exact ⟨o', List.mem_cons_of_mem _ ho', hkind⟩

end Through

end DevMgr.Program
