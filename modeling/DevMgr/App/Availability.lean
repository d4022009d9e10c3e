import DevMgr.App.BackendStatus
import DevMgr.Library.Observed
import DevMgr.Library.Run

/-!
# The availability of the daemon

An answer of the daemon is written to `daemonError_` and, under another lock, to the
note of the daemon. A call that was only proof of an answer looks first whether there
is anything to clear.
-/

open DevMgr.Core

namespace DevMgr.App
open Bytes Observed Run

inductive Observer where
  | checking (stamp : ℕ)
  | observing (answer : Stamped (Option Error))
  | noting (answer : Stamped (Option Error))
  deriving DecidableEq

def Observer.answer : Observer → Stamped (Option Error)
  | .checking stamp => ⟨stamp, none⟩
  | .observing answer | .noting answer => answer

def Observer.WritesError : Observer → Prop
  | .checking _ | .observing _ => True
  | .noting _ => False

/-- `daemonError` is stamped with the answer it comes from, and `noted` is the one the note comes
from. -/
structure Availability where
  daemonError : Stamped (Option Error)
  backendStatus : BackendStatus
  noted : Stamped (Option Error)
  observers : List Observer
  clock : ℕ

namespace Availability

inductive Action where
  | readAnswered (error : Option Error)
  | mutationSucceeded
  | check (stamp : ℕ)
  | writeError (answer : Stamped (Option Error))
  | writeNote (answer : Stamped (Option Error))
  | observeProvider (providerId : Str) (error : Option Error)

def start : Availability where
  daemonError := ⟨0, none⟩
  backendStatus := BackendStatus.start
  noted := ⟨0, none⟩
  observers := []
  clock := 0

variable (s : Availability)

def daemonAvailability : Option Error := s.daemonError.value

def observeDaemonRead (error : Option Error) : Availability :=
  { s with observers := .observing ⟨s.clock + 1, error⟩ :: s.observers, clock := s.clock + 1 }

def observeDaemonReachable : Availability :=
  { s with observers := .checking (s.clock + 1) :: s.observers, clock := s.clock + 1 }

def check (stamp : ℕ) : Availability :=
  if s.daemonAvailability.isSome then
    { s with observers := .observing ⟨stamp, none⟩ :: s.observers.erase (.checking stamp) }
  else { s with observers := s.observers.erase (.checking stamp) }

def writeError (answer : Stamped (Option Error)) : Availability :=
  { s with
    daemonError := answer
    observers := .noting answer :: s.observers.erase (.observing answer) }

def writeNote (answer : Stamped (Option Error)) : Availability :=
  { s with
    backendStatus := s.backendStatus.observe .devmgrd answer.value
    noted := answer
    observers := s.observers.erase (.noting answer) }

def observeProvider (providerId : Str) (error : Option Error) : Availability :=
  match backendForProvider providerId with
  | none => s
  | some backend => { s with backendStatus := s.backendStatus.observe backend error }

def step : Action → Option Availability
  | .readAnswered error => some (s.observeDaemonRead error)
  | .mutationSucceeded => some s.observeDaemonReachable
  | .check stamp => if .checking stamp ∈ s.observers then some (s.check stamp) else none
  | .writeError answer => if .observing answer ∈ s.observers then some (s.writeError answer)
      else none
  | .writeNote answer => if .noting answer ∈ s.observers then some (s.writeNote answer) else none
  | .observeProvider providerId error => some (s.observeProvider providerId error)

def Agree : Prop :=
  (∀ blocksAttemptedVerb, s.daemonAvailability.isSome =
    (s.backendStatus.noteFor .devmgrd blocksAttemptedVerb).isSome) ∧
  (s.daemonAvailability.isSome → s.noted = s.daemonError)

def ClearedLater (s' : Availability) : Prop :=
  (s.daemonAvailability.isSome → s'.daemonAvailability = none →
    s.daemonError.stamp < s'.daemonError.stamp) ∧
  ∀ blocksAttemptedVerb, (s.backendStatus.noteFor .devmgrd blocksAttemptedVerb).isSome →
    s'.backendStatus.noteFor .devmgrd blocksAttemptedVerb = none → s.noted.stamp < s'.noted.stamp

def SuccessesLater (answer : Stamped (Option Error)) (Still : Observer → Prop) : Prop :=
  answer.value.isSome → ∀ t ∈ s.observers, Still t → t.answer.value = none →
  answer.stamp < t.answer.stamp

/-- The answer written to `daemonError_` last is written to the note last, or both it and the one
that is say that the daemon answers. No failure is written before a success that is older. -/
def InOrder : Action → Availability → Prop
  | .writeError answer, _ => s.SuccessesLater answer Observer.WritesError
  | .writeNote answer, _ =>
    s.SuccessesLater answer (fun _ => True) ∧
    (answer = s.daemonError ∨ .noting s.daemonError ∈ s.observers.erase (.noting answer) ∨
      (answer.value = none ∧ s.daemonError.value = none))
  | _, _ => True

structure Sound : Prop where
  note : s.backendStatus.entries .devmgrd = s.noted.value.map .ofError
  error_past : s.daemonError.stamp ≤ s.clock
  noted_past : s.noted.stamp ≤ s.clock
  observers_past : ∀ t ∈ s.observers, t.answer.stamp ≤ s.clock
  error_later : s.SuccessesLater s.daemonError Observer.WritesError
  noted_later : s.SuccessesLater s.noted fun _ => True
  same : s.noted = s.daemonError ∨ .noting s.daemonError ∈ s.observers ∨
    (s.noted.value = none ∧ s.daemonError.value = none)

variable {s} {s' : Availability} {a : Action} {t : Observer} {answer : Stamped (Option Error)}

theorem Sound.noteFor (h : s.Sound) (blocksAttemptedVerb : Bool) :
    s.backendStatus.noteFor .devmgrd blocksAttemptedVerb =
      s.noted.value.map fun e =>
        makeNote .devmgrd (kindFor e.code) e.message blocksAttemptedVerb := by
  unfold BackendStatus.noteFor
  rw [h.note, Option.map_map]
  rfl

theorem Sound.noteFor_isSome (h : s.Sound) (blocksAttemptedVerb : Bool) :
    (s.backendStatus.noteFor .devmgrd blocksAttemptedVerb).isSome = s.noted.value.isSome := by
  rw [h.noteFor, Option.isSome_map]

theorem sound_start : start.Sound :=
  ⟨rfl, le_refl _, le_refl _, nofun, nofun, nofun, .inl rfl⟩

theorem SuccessesLater.mono {Still : Observer → Prop} (h : s.SuccessesLater answer Still)
    (hobservers : ∀ t ∈ s'.observers, Still t →
      (∃ t' ∈ s.observers, Still t' ∧ t'.answer = t.answer) ∨
      answer.stamp < t.answer.stamp) :
    s'.SuccessesLater answer Still := by
  intro hfailed t ht hstill hsucceeded
  rcases hobservers t ht hstill with ⟨t', ht', hstill', hanswer⟩ | hlater
  · rw [← hanswer]
    exact h hfailed t' ht' hstill' (hanswer ▸ hsucceeded)
  · exact hlater

theorem SuccessesLater.erase {Still : Observer → Prop} (h : s.SuccessesLater answer Still)
    (hobservers : s'.observers = s.observers.erase t) : s'.SuccessesLater answer Still :=
  h.mono fun t' ht' hstill => .inl ⟨t', List.mem_of_mem_erase (hobservers ▸ ht'), hstill, rfl⟩

theorem SuccessesLater.advance {Still : Observer → Prop} {next : Observer}
    (h : s.SuccessesLater answer Still)
    (ht : t ∈ s.observers) (hobservers : s'.observers = next :: s.observers.erase t)
    (hnext : next.answer = t.answer) (hstill : Still next → Still t) :
    s'.SuccessesLater answer Still := by
  refine h.mono fun t' ht' hstill' => .inl ?_
  rw [hobservers] at ht'
  rcases List.mem_cons.mp ht' with rfl | hold
  · exact ⟨t, ht, hstill hstill', hnext.symm⟩
  · exact ⟨t', List.mem_of_mem_erase hold, hstill', rfl⟩

theorem past_advance {next : Observer} (hpast : ∀ t ∈ s.observers, t.answer.stamp ≤ s.clock)
    (ht : t ∈ s.observers) (hnext : next.answer = t.answer) :
    ∀ t' ∈ next :: s.observers.erase t, t'.answer.stamp ≤ s.clock := by
  intro t' ht'
  rcases List.mem_cons.mp ht' with rfl | hold
  · rw [hnext]
    exact hpast t ht
  · exact hpast t' (List.mem_of_mem_erase hold)

theorem Sound.answered (h : s.Sound) {new : Observer} (hnew : new.answer.stamp = s.clock + 1) :
    Sound { s with observers := new :: s.observers, clock := s.clock + 1 } := by
  have hlater : ∀ {answer : Stamped (Option Error)} {Still : Observer → Prop},
      answer.stamp ≤ s.clock →
      s.SuccessesLater answer Still →
      SuccessesLater { s with observers := new :: s.observers, clock := s.clock + 1 }
        answer Still := by
    intro answer Still hpast hbefore
    refine hbefore.mono fun t ht hstill => ?_
    rcases List.mem_cons.mp ht with rfl | hold
    · rw [hnew]
      exact .inr (Nat.lt_succ_of_le hpast)
    · exact .inl ⟨t, hold, hstill, rfl⟩
  refine ⟨h.note, h.error_past.trans (Nat.le_succ _), h.noted_past.trans (Nat.le_succ _),
    fun t ht => ?_,
    hlater h.error_past h.error_later, hlater h.noted_past h.noted_later,
    h.same.imp_right (Or.imp_left (List.mem_cons_of_mem _))⟩
  rcases List.mem_cons.mp ht with rfl | hold
  · exact hnew.le
  · exact (h.observers_past t hold).trans (Nat.le_succ _)

theorem Sound.check (h : s.Sound) {stamp : ℕ} (ht : .checking stamp ∈ s.observers) :
    (s.check stamp).Sound := by
  have hne : Observer.noting s.daemonError ≠ .checking stamp := nofun
  have hsame := h.same.imp_right (Or.imp_left (List.mem_erase_of_ne hne).mpr)
  unfold Availability.check
  split_ifs with hsome
  · exact ⟨h.note, h.error_past, h.noted_past, past_advance h.observers_past ht rfl,
      h.error_later.advance ht rfl rfl (fun _ => trivial),
      h.noted_later.advance ht rfl rfl (fun _ => trivial),
      hsame.imp_right (Or.imp_left (List.mem_cons_of_mem _))⟩
  · exact ⟨h.note, h.error_past, h.noted_past,
      fun t' ht' => h.observers_past t' (List.mem_of_mem_erase ht'),
      h.error_later.erase rfl, h.noted_later.erase rfl, hsame⟩

theorem Sound.writeError (h : s.Sound) (ht : .observing answer ∈ s.observers)
    (horder : s.InOrder (.writeError answer) s') : (s.writeError answer).Sound :=
  ⟨h.note, h.observers_past _ ht, h.noted_past, past_advance h.observers_past ht rfl,
    SuccessesLater.advance horder ht rfl rfl (fun _ => trivial),
    h.noted_later.advance ht rfl rfl (fun _ => trivial),
    .inr (.inl List.mem_cons_self)⟩

theorem Sound.writeNote (h : s.Sound) (ht : .noting answer ∈ s.observers)
    (horder : s.InOrder (.writeNote answer) s') : (s.writeNote answer).Sound :=
  ⟨s.backendStatus.observe_self .devmgrd answer.value, h.error_past, h.observers_past _ ht,
    fun t' ht' => h.observers_past t' (List.mem_of_mem_erase ht'), h.error_later.erase rfl,
    horder.1.erase rfl, horder.2⟩

theorem Sound.observeProvider (h : s.Sound) (providerId : Str) (error : Option Error) :
    (s.observeProvider providerId error).Sound := by
  unfold Availability.observeProvider
  split
  · exact h
  · rename_i backend hbackend
    have hother : BackendId.devmgrd ≠ backend :=
      fun heq => backendForProvider_ne_devmgrd providerId (heq ▸ hbackend)
    exact ⟨(s.backendStatus.observe_other backend error hother).trans h.note,
      h.error_past, h.noted_past,
      h.observers_past, h.error_later, h.noted_later, h.same⟩

theorem clearedLater_of_eq (herror : s'.daemonError = s.daemonError)
    (hnote : s'.backendStatus.entries .devmgrd = s.backendStatus.entries .devmgrd) :
    s.ClearedLater s' := by
  refine ⟨fun hset hcleared => ?_, fun blocksAttemptedVerb hset hcleared => ?_⟩
  · unfold daemonAvailability at hset hcleared
    rw [← herror, hcleared] at hset
    cases hset
  · unfold BackendStatus.noteFor at hset hcleared
    rw [← hnote, hcleared] at hset
    cases hset

theorem Sound.clearedLater_writeError (h : s.Sound) (ht : .observing answer ∈ s.observers) :
    s.ClearedLater (s.writeError answer) := by
  refine ⟨fun hset hcleared => h.error_later hset _ ht trivial hcleared,
    fun blocksAttemptedVerb hset hcleared => ?_⟩
  have hsame : s.backendStatus.noteFor .devmgrd blocksAttemptedVerb = none := hcleared
  rw [hsame] at hset
  cases hset

theorem Sound.clearedLater_writeNote (h : s.Sound) (ht : .noting answer ∈ s.observers)
    (h' : (s.writeNote answer).Sound) : s.ClearedLater (s.writeNote answer) := by
  refine ⟨fun hset hcleared => ?_, fun blocksAttemptedVerb hset hcleared => ?_⟩
  · have hsame : s.daemonAvailability = none := hcleared
    rw [hsame] at hset
    cases hset
  · rw [h.noteFor_isSome] at hset
    rw [h'.noteFor, Option.map_eq_none_iff] at hcleared
    exact h.noted_later hset _ ht trivial hcleared

theorem Sound.step (h : s.Sound) (hstep : s.step a = some s') (horder : s.InOrder a s') :
    s'.Sound ∧ s.ClearedLater s' := by
  cases a with
  | readAnswered error =>
    cases hstep
    exact ⟨h.answered rfl, clearedLater_of_eq rfl rfl⟩
  | mutationSucceeded =>
    cases hstep
    exact ⟨h.answered rfl, clearedLater_of_eq rfl rfl⟩
  | check stamp =>
    obtain ⟨ht, hs'⟩ := Option.ite_none_right_eq_some.mp hstep
    obtain rfl := Option.some.inj hs'
    refine ⟨h.check ht, ?_⟩
    unfold Availability.check
    split_ifs <;> exact clearedLater_of_eq rfl rfl
  | writeError answer =>
    obtain ⟨ht, hs'⟩ := Option.ite_none_right_eq_some.mp hstep
    obtain rfl := Option.some.inj hs'
    exact ⟨h.writeError ht horder, h.clearedLater_writeError ht⟩
  | writeNote answer =>
    obtain ⟨ht, hs'⟩ := Option.ite_none_right_eq_some.mp hstep
    obtain rfl := Option.some.inj hs'
    have h' := h.writeNote ht horder
    exact ⟨h', h.clearedLater_writeNote ht h'⟩
  | observeProvider providerId error =>
    cases hstep
    have h' := h.observeProvider providerId error
    have hkept : (s.observeProvider providerId error).daemonError = s.daemonError ∧
        (s.observeProvider providerId error).noted = s.noted := by
      unfold Availability.observeProvider
      split <;> exact ⟨rfl, rfl⟩
    exact ⟨h', clearedLater_of_eq hkept.1 (by rw [h'.note, h.note, hkept.2])⟩

theorem Sound.agree (h : s.Sound) (hrest : s.observers = []) : s.Agree := by
  have hsame : s.noted = s.daemonError ∨ (s.noted.value = none ∧ s.daemonError.value = none) :=
    h.same.imp_right fun hother => hother.resolve_left (by simp [hrest])
  refine ⟨fun blocksAttemptedVerb => ?_, fun hset => ?_⟩
  · rw [h.noteFor_isSome]
    rcases hsame with heq | ⟨hnoted, herror⟩
    · rw [heq]
      rfl
    · rw [hnoted]
      exact congrArg Option.isSome herror
  · rcases hsame with heq | ⟨-, herror⟩
    · exact heq
    · unfold daemonAvailability at hset
      rw [herror] at hset
      cases hset

/-- In a run whose writes are in order, the copies agree whenever no task is left, and each is
cleared by a call that succeeded later than the read that set it failed. -/
theorem copies_agree (actions : List Action) (horder : MeetsSome step InOrder start actions) :
    MeetsSome step (fun s _ s' => (s'.observers = [] → s'.Agree) ∧
      s.ClearedLater s') start actions := by
  refine meetsSome_of_invariant (I := Sound) step (fun s a s' h hstep hc => ?_) sound_start horder
  obtain ⟨h', hcleared⟩ := h.step hstep hc
  exact ⟨h', h'.agree, hcleared⟩

def outage : Error := ⟨.io, str "devmgrd is not available"⟩

theorem copies_agree_outage : MeetsSome step
    (fun s _ s' => (s'.observers = [] → s'.Agree) ∧ s.ClearedLater s') start
    [.readAnswered (some outage), .writeError ⟨1, some outage⟩, .writeNote ⟨1, some outage⟩,
      .mutationSucceeded, .check 2, .writeError ⟨2, none⟩, .writeNote ⟨2, none⟩] := by
  refine copies_agree _ (meetsSome_cons _ rfl trivial (meetsSome_cons _ rfl ?_
    (meetsSome_cons _ rfl ⟨?_, .inl rfl⟩
    (meetsSome_cons _ rfl trivial (meetsSome_cons _ rfl trivial (meetsSome_cons _ rfl nofun
    (meetsSome_cons _ rfl ⟨nofun, .inl rfl⟩ trivial)))))))
  · intro _ t ht _ hsucceeded
    cases List.mem_singleton.mp ht
    cases hsucceeded
  · intro _ t ht _ hsucceeded
    cases List.mem_singleton.mp ht
    cases hsucceeded

theorem note_left_behind : ¬ ∀ actions, MeetsSome step
    (fun s _ s' => (s'.observers = [] → s'.Agree) ∧ s.ClearedLater s') start actions := by
  intro hall
  have h := hall [.readAnswered (some outage), .readAnswered none, .writeError ⟨1, some outage⟩,
    .writeError ⟨2, none⟩, .writeNote ⟨2, none⟩, .writeNote ⟨1, some outage⟩]
  have hagree := ((h _ rfl).2 _ rfl |>.2 _ rfl |>.2 _ rfl |>.2 _ rfl |>.2 _ rfl |>.1.1) rfl
  exact nomatch hagree.1 false

end Availability

end DevMgr.App
