import Mathlib.Data.List.Infix
import Mathlib.Data.Nat.Digits.Lemmas

/-!
# Byte strings

A `std::string` is a list of bytes. The operations are the ones a file store
needs of names and texts: prefix, suffix and substring tests come from the list
library, `before` is `substr(0, find(pattern))`, `firstToken` is what
`in >> token` reads from a stream, and `decimal` is `std::to_string` of an
unsigned number.
-/

namespace DevMgr.Bytes

abbrev Str := List UInt8

/-- Named, so that every module decides on texts by the same terms. -/
instance lawfulBEqStr : LawfulBEq Str := inferInstance

instance lawfulBEqOptionStr : LawfulBEq (Option Str) := inferInstance

instance transOrdPath : Std.TransOrd (List Str) := inferInstance

def str (s : String) : Str := s.toUTF8.data.toList

theorem getLast?_append_literal (s : Str) {p : Str} {c : UInt8} (hp : p.getLast? = some c) :
    (s ++ p).getLast? = some c := by
  rw [List.getLast?_append, hp]
  rfl

/-- The text before the first occurrence of the pattern, all of it when there is none. -/
def before (pattern : Str) : Str → Str
  | [] => []
  | c :: cs => if pattern <+: c :: cs then [] else c :: before pattern cs

theorem before_append {c : UInt8} {p s : Str} (rest : Str) (hs : c ∉ s) :
    before (c :: p) (s ++ (c :: p) ++ rest) = s := by
  induction s with
  | nil => simp [before]
  | cons b s ih =>
    have hb : ¬ (c :: p) <+: b :: (s ++ (c :: p) ++ rest) := by
      rintro ⟨t, ht⟩
      simp only [List.cons_append, List.cons.injEq] at ht
      exact hs (by simp [ht.1])
    simp only [List.cons_append, before, if_neg hb, List.cons.injEq, true_and]
    exact ih fun hc => hs (List.mem_cons_of_mem _ hc)

theorem before_leads {p s : Str} (h : p <:+: s) : before p s ++ p <+: s := by
  induction s with
  | nil => simpa [before] using h
  | cons c s ih =>
    rw [before]
    split_ifs with hp
    · exact hp
    · rw [List.cons_append, List.cons_prefix_cons]
      exact ⟨rfl, ih ((List.infix_cons_iff.mp h).resolve_left hp)⟩

theorem before_before {p s : Str} (h : p <:+: s) : before p (before p s ++ p) = before p s := by
  induction s with
  | nil =>
    obtain rfl := List.infix_nil.mp h
    rfl
  | cons c s ih =>
    by_cases hp : p <+: c :: s
    · rw [before, if_pos hp]
      cases p with
      | nil => rfl
      | cons b p => simp [before]
    · have hs := (List.infix_cons_iff.mp h).resolve_left hp
      have hstart : ¬ p <+: c :: (before p s ++ p) := by
        intro hlead
        refine hp (hlead.trans ?_)
        rw [List.cons_prefix_cons]
        exact ⟨rfl, before_leads hs⟩
      rw [before, if_neg hp, List.cons_append, before, if_neg hstart, ih hs]

theorem leads_of_infix {c : UInt8} {p s r : Str} (hs : c ∉ s) (hr : c ∉ r)
    (h : (c :: p) <:+: s ++ c :: r) : p <+: r := by
  induction s with
  | nil =>
    rcases List.infix_cons_iff.mp h with hlead | hlater
    · exact (List.cons_prefix_cons.mp hlead).2
    · exact absurd (hlater.subset List.mem_cons_self) hr
  | cons b s ih =>
    rcases List.infix_cons_iff.mp h with hlead | hlater
    · exact absurd (List.cons_prefix_cons.mp hlead).1 fun heq => hs (heq ▸ List.mem_cons_self)
    · exact ih (fun hc => hs (List.mem_cons_of_mem _ hc)) hlater

def isSpace (c : UInt8) : Bool := c = 32 || (9 ≤ c && c ≤ 13)

def firstToken (s : Str) : Str := (s.dropWhile isSpace).takeWhile fun c => !isSpace c

theorem firstToken_line {s : Str} (hs : ∀ c ∈ s, isSpace c = false) :
    firstToken (s ++ [10]) = s := by
  have hd : (s ++ [10]).dropWhile isSpace = if s = [] then [] else s ++ [10] := by
    cases s with
    | nil => decide
    | cons c s => simp [hs c (by simp)]
  rw [firstToken, hd]
  split_ifs with h
  · simp [h]
  · rw [List.takeWhile_append_of_pos (by simpa using hs)]
    simp [List.takeWhile, isSpace]

def tokens (s : Str) : List Str := (s.splitOnP isSpace).filter (· ≠ [])

def lines (s : Str) : List Str :=
  let pieces := s.splitOn 10
  if pieces.getLast? = some [] then pieces.dropLast else pieces

def decimal (n : ℕ) : Str :=
  if n = 0 then [48] else (Nat.digits 10 n).reverse.map fun d => UInt8.ofNat (48 + d)

def readDecimal (s : Str) : ℕ := Nat.ofDigits 10 (s.reverse.map fun c => c.toNat - 48)

theorem digitByte_toNat {d : ℕ} (hd : d < 10) : (UInt8.ofNat (48 + d)).toNat = 48 + d := by
  rw [UInt8.toNat_ofNat']
  omega

theorem readDecimal_decimal (n : ℕ) : readDecimal (decimal n) = n := by
  by_cases hn : n = 0
  · subst n; decide
  · have hmap : (decimal n).reverse.map (fun c => c.toNat - 48) = Nat.digits 10 n := by
      rw [decimal, if_neg hn, ← List.map_reverse, List.reverse_reverse, List.map_map]
      conv_rhs => rw [← List.map_id (Nat.digits 10 n)]
      refine List.map_congr_left fun d hd => ?_
      have hlt : d < 10 := Nat.digits_lt_base (by norm_num) hd
      simp only [Function.comp_apply, digitByte_toNat hlt, id_eq]
      omega
    rw [readDecimal, hmap, Nat.ofDigits_digits]

theorem decimal_injective : Function.Injective decimal :=
  Function.LeftInverse.injective readDecimal_decimal

def toLower (c : UInt8) : UInt8 := if 65 ≤ c ∧ c ≤ 90 then c + 32 else c

def isDigit (c : UInt8) : Bool := 48 ≤ c && c ≤ 57

theorem decimal_isDigit {n : ℕ} {c : UInt8} (hc : c ∈ decimal n) : isDigit c = true := by
  unfold decimal at hc
  split_ifs at hc with hn
  · rw [List.mem_singleton.mp hc]; rfl
  · obtain ⟨d, hd, rfl⟩ := List.mem_map.mp hc
    have hlt : d < 10 := Nat.digits_lt_base (by norm_num) (List.mem_reverse.mp hd)
    interval_cases d <;> rfl

theorem decimal_ne_nil (n : ℕ) : decimal n ≠ [] := by
  unfold decimal
  split_ifs with hn
  · simp
  · simpa [Nat.digits_ne_nil_iff_ne_zero] using hn

theorem not_suffix_of_digit {s p t : Str} {n : ℕ} {c : UInt8} (hs : s = p ++ decimal n)
    (hc : isDigit c = false) : ¬ (t ++ [c]) <:+ s := by
  rintro ⟨q, hq⟩
  have hlast := congrArg List.getLast? hq
  rw [hs, ← List.append_assoc, List.getLast?_append_cons,
    List.getLast?_append_of_ne_nil _ (decimal_ne_nil n)] at hlast
  have hmem : c ∈ decimal n := List.mem_of_getLast? hlast.symm
  rw [decimal_isDigit hmem] at hc
  exact absurd hc (by decide)

end DevMgr.Bytes
