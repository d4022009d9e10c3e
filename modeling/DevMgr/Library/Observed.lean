import Mathlib.Data.Set.Insert
import Mathlib.Order.Defs.LinearOrder

/-!
# A view fed by observations

A view holds the value of something that is observed again and again. The
observations reach the view later and in any order. When each one that does is
newer than what the view shows, or finds it shown already, then the view shows
the newest that has reached it, and in the end the newest of all.
-/

namespace DevMgr.Observed

variable {V : Type}

structure Stamped (V : Type) where
  stamp : ℕ
  value : V
  deriving DecidableEq

def Stamped.newer (a b : Stamped V) : Stamped V := if a.stamp ≤ b.stamp then b else a

theorem Stamped.stamp_newer (a b : Stamped V) : (a.newer b).stamp = max a.stamp b.stamp := by
  unfold newer
  by_cases h : a.stamp ≤ b.stamp
  · rw [if_pos h, max_eq_right h]
  · rw [if_neg h, max_eq_left (Nat.le_of_not_le h)]

/-- What the view holds, the newest observation that has reached it, the newest of all, and those on
their way. -/
structure View (V : Type) where
  clock : ℕ
  value : V
  shown : Stamped V
  latest : Stamped V
  waiting : Set (Stamped V)

namespace View

structure Sound (v : View V) : Prop where
  value : v.value = v.shown.value
  past : v.latest.stamp ≤ v.clock
  shown_le : v.shown.stamp ≤ v.latest.stamp
  waiting_le : ∀ o ∈ v.waiting, o.stamp ≤ v.latest.stamp
  waiting_latest : ∀ o ∈ v.waiting, o.stamp = v.latest.stamp → o = v.latest
  covered : v.shown = v.latest ∨ v.latest ∈ v.waiting

/-- The observation is not older than what the view shows, or says the same. -/
def Timely (v : View V) (o : Stamped V) : Prop := v.shown.stamp ≤ o.stamp ∨ v.value = o.value

variable {v : View V} {o : Stamped V} {waiting : Set (Stamped V)}

theorem Sound.start (value : V) : Sound ⟨0, value, ⟨0, value⟩, ⟨0, value⟩, ∅⟩ where
  value := rfl
  past := le_refl _
  shown_le := le_refl _
  waiting_le _ h := h.elim
  waiting_latest _ h := h.elim
  covered := .inl rfl

theorem Sound.later (h : v.Sound) {clock : ℕ} (hle : v.clock ≤ clock) :
    Sound ⟨clock, v.value, v.shown, v.latest, v.waiting⟩ :=
  ⟨h.value, h.past.trans hle, h.shown_le, h.waiting_le, h.waiting_latest, h.covered⟩

theorem Sound.observe (h : v.Sound) (hstamp : o.stamp = v.clock + 1) (hnew : o ∈ waiting)
    (hold : ∀ o' ∈ waiting, o' = o ∨ o' ∈ v.waiting) :
    Sound ⟨v.clock + 1, v.value, v.shown, o, waiting⟩ := by
  have hlater : v.latest.stamp < o.stamp := by
    rw [hstamp]
    exact Nat.lt_succ_of_le h.past
  refine ⟨h.value, hstamp.le, h.shown_le.trans hlater.le, fun o' ho' => ?_, fun o' ho' heq => ?_,
    .inr hnew⟩
  · rcases hold o' ho' with rfl | hbefore
    · exact le_refl _
    · exact (h.waiting_le o' hbefore).trans hlater.le
  · rcases hold o' ho' with rfl | hbefore
    · rfl
    · exact absurd heq ((h.waiting_le o' hbefore).trans_lt hlater).ne

theorem Sound.apply (h : v.Sound) (ho : o ∈ v.waiting) (htimely : v.Timely o)
    (hsub : waiting ⊆ v.waiting) (hkept : ∀ o' ∈ v.waiting, o' = o ∨ o' ∈ waiting) :
    Sound ⟨v.clock, o.value, v.shown.newer o, v.latest, waiting⟩ := by
  have hrest : ∀ shown : Stamped V, o.value = shown.value → shown.stamp ≤ v.latest.stamp →
      (shown = v.latest ∨ v.latest ∈ waiting) →
      Sound ⟨v.clock, o.value, shown, v.latest, waiting⟩ :=
    fun shown hvalue hle hcovered =>
      ⟨hvalue, h.past, hle, fun o' ho' => h.waiting_le o' (hsub ho'),
      fun o' ho' => h.waiting_latest o' (hsub ho'), hcovered⟩
  unfold Stamped.newer
  by_cases hle : v.shown.stamp ≤ o.stamp
  · rw [if_pos hle]
    refine hrest o rfl (h.waiting_le o ho) ?_
    rcases h.covered with hshown | hwaiting
    · rw [hshown] at hle
      exact .inl (h.waiting_latest o ho (le_antisymm (h.waiting_le o ho) hle))
    · exact (hkept _ hwaiting).imp_left Eq.symm
  · rw [if_neg hle]
    refine hrest v.shown ((htimely.resolve_left hle).symm.trans h.value) h.shown_le ?_
    rcases h.covered with hshown | hwaiting
    · exact .inl hshown
    · refine .inr ((hkept _ hwaiting).resolve_left fun heq => hle ?_)
      exact heq ▸ h.shown_le

def Prompt (v : View V) (o : Stamped V) : Prop := ∀ o' ∈ v.waiting, o'.stamp < o.stamp →
    o'.value = o.value

structure Orderly (v : View V) : Prop extends Sound v where
  timely : ∀ o ∈ v.waiting, v.Timely o
  single : v.shown.stamp = v.latest.stamp → v.shown = v.latest

theorem Orderly.start (value : V) : Orderly ⟨0, value, ⟨0, value⟩, ⟨0, value⟩, ∅⟩ :=
  ⟨.start value, fun _ h => h.elim, fun _ => rfl⟩

theorem Orderly.later (h : v.Orderly) {clock : ℕ} (hle : v.clock ≤ clock) :
    Orderly ⟨clock, v.value, v.shown, v.latest, v.waiting⟩ :=
      ⟨h.toSound.later hle, h.timely, h.single⟩

theorem Orderly.observe (h : v.Orderly) (hstamp : o.stamp = v.clock + 1) (hnew : o ∈ waiting)
    (hold : ∀ o' ∈ waiting, o' = o ∨ o' ∈ v.waiting) :
    Orderly ⟨v.clock + 1, v.value, v.shown, o, waiting⟩ := by
  have hlater : v.shown.stamp < o.stamp := by
    rw [hstamp]
    exact Nat.lt_succ_of_le (h.shown_le.trans h.past)
  refine ⟨h.toSound.observe hstamp hnew hold, fun o' ho' => ?_, fun heq => absurd heq hlater.ne⟩
  rcases hold o' ho' with rfl | hbefore
  · exact .inl hlater.le
  · exact h.timely o' hbefore

theorem Orderly.retain (h : v.Orderly) (hsub : v.waiting ⊆ waiting)
    (hold : ∀ o' ∈ waiting, o' = v.shown ∨ o' ∈ v.waiting) :
    Orderly ⟨v.clock, v.value, v.shown, v.latest, waiting⟩ := by
  refine ⟨⟨h.value, h.past, h.shown_le, fun o' ho' => ?_, fun o' ho' heq => ?_,
    h.covered.imp_right fun hlatest => hsub hlatest⟩, fun o' ho' => ?_, h.single⟩
  · rcases hold o' ho' with rfl | hbefore
    · exact h.shown_le
    · exact h.waiting_le o' hbefore
  · rcases hold o' ho' with rfl | hbefore
    · exact h.single heq
    · exact h.waiting_latest o' hbefore heq
  · rcases hold o' ho' with rfl | hbefore
    · exact .inl (le_refl _)
    · exact h.timely o' hbefore

theorem Orderly.apply (h : v.Orderly) (ho : o ∈ v.waiting) (hprompt : v.Prompt o)
    (hsub : waiting ⊆ v.waiting) (hkept : ∀ o' ∈ v.waiting, o' = o ∨ o' ∈ waiting) :
    Orderly ⟨v.clock, o.value, v.shown.newer o, v.latest, waiting⟩ := by
  refine ⟨h.toSound.apply ho (h.timely o ho) hsub hkept, fun o' ho' => ?_, ?_⟩
  · rcases Nat.lt_or_ge o'.stamp o.stamp with hearlier | hlater
    · exact .inr (hprompt o' (hsub ho') hearlier).symm
    · unfold Timely Stamped.newer
      by_cases hle : v.shown.stamp ≤ o.stamp
      · rw [if_pos hle]
        exact .inl hlater
      · rw [if_neg hle]
        have hsame : v.value = o.value := (h.timely o ho).resolve_left hle
        exact (h.timely o' (hsub ho')).imp id fun heq => hsame.symm.trans heq
  · unfold Stamped.newer
    dsimp only
    by_cases hle : v.shown.stamp ≤ o.stamp
    · rw [if_pos hle]
      exact h.waiting_latest o ho
    · rw [if_neg hle]
      exact h.single

theorem Sound.at_rest (h : v.Sound) (hrest : ∀ o, o ∉ v.waiting) :
    v.value = v.latest.value := by
  rw [h.value, h.covered.resolve_right (hrest _)]

end View

end DevMgr.Observed
