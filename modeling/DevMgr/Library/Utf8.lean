import DevMgr.Library.Json.Value
import Mathlib.Data.List.DropRight

/-!
# Code points in a byte string

A byte string that is valid UTF-8 falls into code points, each a lead byte with
its continuation bytes. A cut between two bytes leaves a valid text in front of
it exactly where no continuation byte follows, and valid texts come together to
valid texts.
-/

namespace DevMgr.Bytes

def isContinuationByte (c : UInt8) : Bool := c &&& 0xC0 = 0x80

theorem isContinuationByte_iff (c : UInt8) :
    isContinuationByte c = true ↔ 0x80 ≤ c ∧ c ≤ 0xBF := by
  have hall : ∀ n < 256, isContinuationByte (UInt8.ofNat n) = true ↔
      0x80 ≤ UInt8.ofNat n ∧ UInt8.ofNat n ≤ 0xBF := by decide +kernel
  simpa using hall c.toNat c.toNat_lt

theorem ascii_lead {c : UInt8} (h : c < 0x80) : isContinuationByte c = false := by
  rw [← Bool.not_eq_true, isContinuationByte_iff]
  exact fun hc => absurd (UInt8.lt_of_lt_of_le h hc.1) (UInt8.lt_irrefl _)

structure Utf8State.Sound (q : Utf8State) : Prop where
  between : q.due = 0 → q = .start
  within : 0x80 ≤ q.low ∧ q.high ≤ 0xBF

theorem start_sound : Utf8State.start.Sound := ⟨fun _ => rfl, by decide⟩

theorem leadByte_sound {c : UInt8} {q : Utf8State} (h : leadByte c = some q) : q.Sound := by
  unfold leadByte at h
  split_ifs at h <;> obtain rfl := Option.some.inj h <;>
    exact ⟨by simp [Utf8State.start], by decide⟩

theorem leadByte_lead {c : UInt8} {q : Utf8State} (h : leadByte c = some q) :
    isContinuationByte c = false := by
  have hall : ∀ n < 256, (leadByte (UInt8.ofNat n)).isSome = true →
      isContinuationByte (UInt8.ofNat n) = false := by decide +kernel
  have hlead : (leadByte (UInt8.ofNat c.toNat)).isSome = true := by
    rw [UInt8.ofNat_toNat, h]
    rfl
  have hfirst := hall c.toNat c.toNat_lt hlead
  rwa [UInt8.ofNat_toNat] at hfirst

theorem step_sound {q q' : Utf8State} {c : UInt8} (h : utf8Step q c = some q') :
    q'.Sound := by
  unfold utf8Step at h
  split at h
  · exact leadByte_sound h
  · split_ifs at h
    obtain rfl := Option.some.inj h
    exact ⟨fun hdue => by simpa [Utf8State.start] using hdue, by simp⟩

theorem step_within {q q' : Utf8State} {c : UInt8} (hq : q.Sound) (hdue : q.due ≠ 0)
    (h : utf8Step q c = some q') : isContinuationByte c = true := by
  unfold utf8Step at h
  split at h
  · contradiction
  · split_ifs at h with hc
    rw [isContinuationByte_iff]
    exact ⟨UInt8.le_trans hq.within.1 hc.1, UInt8.le_trans hc.2 hq.within.2⟩

theorem utf8Run_append (q : Utf8State) (a b : Str) :
    utf8Run q (a ++ b) = (utf8Run q a).bind fun q' => utf8Run q' b := by
  induction a generalizing q with
  | nil => rfl
  | cons c a ih =>
    rw [List.cons_append, utf8Run, utf8Run, Option.bind_assoc]
    exact congrArg _ (funext ih)

theorem run_sound {q q' : Utf8State} {s : Str} (hq : q.Sound) (h : utf8Run q s = some q') :
    q'.Sound := by
  induction s generalizing q with
  | nil => exact Option.some.inj h ▸ hq
  | cons c s ih =>
    obtain ⟨q₁, hstep, hrest⟩ := Option.bind_eq_some_iff.mp h
    exact ih (step_sound hstep) hrest

theorem validUtf8_iff {s : Str} : validUtf8 s = true ↔ utf8Run .start s = some .start := by
  rw [validUtf8]
  cases h : utf8Run .start s with
  | none => simp
  | some q =>
    have hq := run_sound start_sound h
    simp only [Option.any_some, decide_eq_true_eq, Option.some.injEq]
    exact ⟨hq.between, fun heq => heq ▸ rfl⟩

theorem validUtf8_nil : validUtf8 [] = true := rfl

theorem validUtf8_concat {a b : Str} (ha : validUtf8 a = true) (hb : validUtf8 b = true) :
    validUtf8 (a ++ b) = true := by
  rw [validUtf8_iff] at ha hb ⊢
  rw [utf8Run_append, ha, Option.bind_some, hb]

theorem validUtf8_head {c : UInt8} {s : Str} (h : validUtf8 (c :: s) = true) :
    isContinuationByte c = false := by
  obtain ⟨q, hstep, _⟩ := Option.bind_eq_some_iff.mp (validUtf8_iff.mp h)
  exact leadByte_lead hstep

theorem validUtf8_append {a b : Str} (hb : ∀ c, b.head? = some c → isContinuationByte c = false) :
    validUtf8 (a ++ b) = true ↔ validUtf8 a = true ∧ validUtf8 b = true := by
  refine ⟨fun h => ?_, fun h => validUtf8_concat h.1 h.2⟩
  have hrun := validUtf8_iff.mp h
  rw [utf8Run_append] at hrun
  obtain ⟨q, hq, hrest⟩ := Option.bind_eq_some_iff.mp hrun
  have hsound := run_sound start_sound hq
  have hbetween : q = .start := by
    cases b with
    | nil => exact Option.some.inj hrest
    | cons c b =>
      obtain ⟨q', hstep, _⟩ := Option.bind_eq_some_iff.mp hrest
      by_contra hne
      have hdue : q.due ≠ 0 := fun h0 => hne (hsound.between h0)
      have hcont := step_within hsound hdue hstep
      rw [hb c rfl] at hcont
      contradiction
  subst hbetween
  exact ⟨validUtf8_iff.mpr hq, validUtf8_iff.mpr hrest⟩

theorem spaces_valid (n : ℕ) : validUtf8 (List.replicate n 32) = true :=
  validUtf8_ascii fun c hc => by
    rw [List.eq_of_mem_replicate hc]
    decide

theorem validUtf8_after {a b : Str} (ha : validUtf8 a = true) :
    validUtf8 (a ++ b) = true ↔ validUtf8 b = true := by
  rw [validUtf8_iff] at ha
  rw [validUtf8_iff, validUtf8_iff, utf8Run_append, ha, Option.bind_some]

theorem validUtf8_before {a b : Str} (hb : ∀ c ∈ b, c < 0x80) :
    validUtf8 (a ++ b) = true ↔ validUtf8 a = true := by
  rw [validUtf8_append fun c hc => ascii_lead (hb c (List.mem_of_head? hc))]
  exact and_iff_left (validUtf8_ascii hb)

/-- No code point lies on both sides of the place. -/
def Boundary (n : ℕ) (s : Str) : Prop := ∀ c, s[n]? = some c → isContinuationByte c = false

instance (n : ℕ) (s : Str) : Decidable (Boundary n s) :=
  decidable_of_iff ((s[n]?).all fun c => !isContinuationByte c) (by
    simp [Boundary, Option.all_eq_true])

theorem boundary_drop {n : ℕ} {s : Str} :
    Boundary n s ↔ ∀ c, (s.drop n).head? = some c → isContinuationByte c = false := by
  rw [Boundary, List.head?_drop]

theorem boundary_of_length_le {n : ℕ} {s : Str} (h : s.length ≤ n) : Boundary n s := by
  intro c hc
  rw [List.getElem?_eq_none h] at hc
  contradiction

theorem validUtf8_take {s : Str} (hs : validUtf8 s = true) (n : ℕ) :
    validUtf8 (s.take n) = true ↔ Boundary n s := by
  rw [boundary_drop]
  constructor
  · intro htake c hc
    have hrun := validUtf8_iff.mp hs
    rw [← List.take_append_drop n s, utf8Run_append, validUtf8_iff.mp htake,
      Option.bind_some] at hrun
    obtain ⟨rest, hrest⟩ : ∃ rest, s.drop n = c :: rest := by
      cases hd : s.drop n with
      | nil => simp [hd] at hc
      | cons b rest =>
        obtain rfl : b = c := by simpa [hd] using hc
        exact ⟨rest, rfl⟩
    rw [hrest] at hrun
    exact validUtf8_head (validUtf8_iff.mpr hrun)
  · intro h
    rw [← List.take_append_drop n s, validUtf8_append h] at hs
    exact hs.1

end DevMgr.Bytes
