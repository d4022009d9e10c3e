import DevMgr.Linux.CriticalityProber
import Mathlib.Data.List.GetD

/-!
# Capability bitmaps

The kernel prints a bitmap as hexadecimal words, the most significant one first
and without the leading words that are zero. The prober counts the words from the
end, so every bit is read where it was set and the words left out read as zero.
-/

namespace DevMgr.Linux
open Bytes

def bitOf (bitmap : List UInt64) (bit : ℕ) : Bool :=
  (bitmap.getD (bit / 64) 0).toNat.testBit (bit % 64)

def hexDigitOf (d : ℕ) : UInt8 := UInt8.ofNat (if d < 10 then 48 + d else 87 + d)

def hexWord (word : UInt64) : Str :=
  if word = 0 then [48] else (Nat.digits 16 word.toNat).reverse.map hexDigitOf

def printedWords (bitmap : List UInt64) : List UInt64 := bitmap.reverse.dropWhile (· = 0)

def printBitmap (bitmap : List UInt64) : Str :=
  if printedWords bitmap = [] then [48]
  else [32].intercalate ((printedWords bitmap).map hexWord)

theorem hexValue_digit : ∀ d < 16, hexValue (hexDigitOf d) = some d := by decide

theorem hexDigitOf_graph : ∀ d < 16, isSpace (hexDigitOf d) = false ∧ hexDigitOf d ≠ 45 ∧
    hexDigitOf d ≠ 43 ∧ hexDigitOf d ≠ 120 ∧ hexDigitOf d ≠ 88 := by decide

theorem hexWord_digits (word : UInt64) : ∃ digits : List ℕ, digits ≠ [] ∧
    (∀ d ∈ digits, d < 16) ∧
    Nat.ofDigits 16 digits = word.toNat ∧ hexWord word = digits.reverse.map hexDigitOf := by
  by_cases hzero : word = 0
  · subst word
    exact ⟨[0], by simp, by simp, by simp, rfl⟩
  · have hpos : word.toNat ≠ 0 := fun h => hzero (UInt64.toNat_inj.mp (by simpa using h))
    refine ⟨Nat.digits 16 word.toNat, Nat.digits_ne_nil_iff_ne_zero.mpr hpos,
      fun d hd => Nat.digits_lt_base (by norm_num) hd, Nat.ofDigits_digits _ _, ?_⟩
    rw [hexWord, if_neg hzero]

theorem hexWord_graph {word : UInt64} {c : UInt8} (hc : c ∈ hexWord word) :
    isSpace c = false ∧ c ≠ 45 ∧ c ≠ 43 ∧ c ≠ 120 ∧ c ≠ 88 := by
  obtain ⟨digits, _, hsmall, _, hword⟩ := hexWord_digits word
  rw [hword] at hc
  obtain ⟨d, hd, rfl⟩ := List.mem_map.mp hc
  exact hexDigitOf_graph d (hsmall d (List.mem_reverse.mp hd))

theorem hexWord_ne_nil (word : UInt64) : hexWord word ≠ [] := by
  obtain ⟨digits, hne, _, _, hword⟩ := hexWord_digits word
  simp [hword, hne]

theorem foldl_ofDigits (digits : List ℕ) (hsmall : ∀ d ∈ digits, d < 16) :
    (((digits.reverse.map hexDigitOf).map hexValue).takeWhile Option.isSome).foldl
      (fun n digit => 16 * n + digit.getD 0) 0 = Nat.ofDigits 16 digits := by
  have hread : (digits.reverse.map hexDigitOf).map hexValue = digits.reverse.map some := by
    rw [List.map_map]
    apply List.map_congr_left
    intro d hd
    exact hexValue_digit d (hsmall d (List.mem_reverse.mp hd))
  rw [hread, List.takeWhile_eq_self_iff.mpr (by simp), Nat.ofDigits_eq_foldr, List.foldl_map,
    List.foldl_reverse]
  simp [Nat.add_comm]

theorem readHex_hexWord (word : UInt64) : readHex (hexWord word) = word := by
  obtain ⟨digits, _, hsmall, hvalue, hword⟩ := hexWord_digits word
  have hsign : ∀ c : UInt8, c = 45 ∨ c = 43 → (hexWord word).head? ≠ some c := by
    rintro c hc hhead
    obtain ⟨_, hminus, hplus, _⟩ := hexWord_graph (List.mem_of_head? hhead)
    rcases hc with rfl | rfl <;> contradiction
  have hmarker : ¬ (str "0x" <+: hexWord word ∨ str "0X" <+: hexWord word) := by
    rintro (h | h)
    · exact (hexWord_graph (h.subset (by decide : (120 : UInt8) ∈ str "0x"))).2.2.2.1 rfl
    · exact (hexWord_graph (h.subset (by decide : (88 : UInt8) ∈ str "0X"))).2.2.2.2 rfl
  have hfits : ¬ 2 ^ 64 ≤ word.toNat := Nat.not_le.mpr word.toNat_lt
  have hread := foldl_ofDigits digits hsmall
  rw [← hword, hvalue] at hread
  simp only [readHex, hsign 45 (.inl rfl), hsign 43 (.inr rfl), or_self, if_false, if_neg hmarker,
    hread, if_neg hfits, UInt64.ofNat_toNat]

theorem tokens_intercalate (words : List Str) (hne : ∀ w ∈ words, w ≠ [])
    (hgraph : ∀ w ∈ words, ∀ c ∈ w, isSpace c = false) :
    tokens ([32].intercalate words) = words := by
  induction words with
  | nil => simp [tokens, List.intercalate]
  | cons w words ih =>
    have hw := hgraph w List.mem_cons_self
    have hkeep : w ≠ [] := hne w List.mem_cons_self
    have htail := ih (fun v hv => hne v (List.mem_cons_of_mem _ hv))
      fun v hv => hgraph v (List.mem_cons_of_mem _ hv)
    cases words with
    | nil => simp [tokens, List.intercalate, List.splitOnP_eq_singleton hw, hkeep]
    | cons v words =>
      have hjoin : [32].intercalate (w :: v :: words) = w ++ 32 :: [32].intercalate
          (v :: words) := by
        simp [List.intercalate]
      rw [hjoin, tokens, List.splitOnP_append_cons_of_forall_mem hw 32 rfl,
        List.filter_cons_of_pos (by simpa using hkeep)]
      exact congrArg (w :: ·) htail

theorem tokens_printBitmap (bitmap : List UInt64) : tokens (printBitmap bitmap) =
    if printedWords bitmap = [] then [[48]] else (printedWords bitmap).map hexWord := by
  rw [printBitmap]
  split_ifs with hnone
  · decide
  · apply tokens_intercalate
    · intro w hw
      obtain ⟨word, _, rfl⟩ := List.mem_map.mp hw
      exact hexWord_ne_nil word
    · intro w hw c hc
      obtain ⟨word, _, rfl⟩ := List.mem_map.mp hw
      exact (hexWord_graph hc).1

theorem bitmap_eq (bitmap : List UInt64) :
    ∃ zeros : List UInt64, (∀ word ∈ zeros, word = 0) ∧
    bitmap = (printedWords bitmap).reverse ++ zeros := by
  refine ⟨(bitmap.reverse.takeWhile (· = 0)).reverse, fun word hword => ?_, ?_⟩
  · simpa using List.mem_takeWhile_imp (List.mem_reverse.mp hword)
  · rw [printedWords, ← List.reverse_append, List.takeWhile_append_dropWhile,
      List.reverse_reverse]

theorem word_eq (bitmap : List UInt64) (i : ℕ) :
    bitmap.getD i 0 = (printedWords bitmap).reverse.getD i 0 := by
  obtain ⟨zeros, hzeros, hbitmap⟩ := bitmap_eq bitmap
  by_cases hi : i < (printedWords bitmap).reverse.length
  · conv_lhs => rw [hbitmap]
    rw [List.getD_append _ _ _ _ hi]
  · have hlen := Nat.not_lt.mp hi
    conv_lhs => rw [hbitmap]
    rw [List.getD_append_right _ _ _ _ hlen, List.getD_eq_default _ _ hlen]
    by_cases hz : i - (printedWords bitmap).reverse.length < zeros.length
    · rw [List.getD_eq_getElem _ _ hz]
      exact hzeros _ (List.getElem_mem hz)
    · exact List.getD_eq_default _ _ (Nat.not_lt.mp hz)

theorem bitSet_printBitmap (bitmap : List UInt64) (bit : ℕ) :
    bitSet (printBitmap bitmap) bit = bitOf bitmap bit := by
  rw [bitOf, word_eq, bitSet, tokens_printBitmap]
  by_cases hnone : printedWords bitmap = []
  · have hzero : readHex [48] = 0 := by decide
    rw [if_pos hnone, hnone]
    by_cases hidx : 1 ≤ bit / kBitsPerWord
    · simp [hidx]
    · have hfirst : bit / kBitsPerWord = 0 := Nat.lt_one_iff.mp (Nat.not_le.mp hidx)
      simp [hfirst, hzero]
  · rw [if_neg hnone]
    by_cases hidx : (printedWords bitmap).length ≤ bit / 64
    · have hbeyond : (printedWords bitmap).reverse.getD (bit / 64) 0 = 0 :=
        List.getD_eq_default _ _ (by simpa using hidx)
      rw [hbeyond]
      simp [kBitsPerWord, hidx]
    · have hlt := Nat.not_le.mp hidx
      have hback : (printedWords bitmap).length - 1 - bit / 64 < (printedWords bitmap).length := by
        omega
      simp only [kBitsPerWord, List.length_map, if_neg hidx]
      rw [List.getD_eq_getElem _ _ (by simpa using hback), List.getElem_map, readHex_hexWord,
        List.getD_eq_getElem _ _ (by simpa using hlt), List.getElem_reverse]

theorem printBitmap_ne_nil (bitmap : List UInt64) : printBitmap bitmap ≠ [] := by
  intro hnil
  have htokens := tokens_printBitmap bitmap
  rw [hnil] at htokens
  split_ifs at htokens with hnone
  · exact absurd htokens (by decide)
  · exact hnone (List.map_eq_nil_iff.mp htokens.symm)

/-- Every bit is read as it stands in the bitmap, and the two heuristics test just their bits. -/
theorem capabilities_decoded (bitmap : List UInt64) :
    (∀ bit, bitSet (printBitmap bitmap) bit = bitOf bitmap bit) ∧
    (∀ bit, 64 * (printedWords bitmap).length ≤ bit →
      bitSet (printBitmap bitmap) bit = false) ∧
    (isKeyboard (printBitmap bitmap) = true ↔ ∀ bit, 16 ≤ bit → bit ≤ 25 →
      bitOf bitmap bit = true) ∧
    (isPointer (printBitmap bitmap) = true ↔ bitOf bitmap 0 = true ∧
      bitOf bitmap 1 = true) := by
  refine ⟨bitSet_printBitmap bitmap, fun bit hbit => ?_, ?_, ?_⟩
  · have hbeyond : (printedWords bitmap).reverse.getD (bit / 64) 0 = 0 :=
      List.getD_eq_default _ _ (by rw [List.length_reverse]; omega)
    rw [bitSet_printBitmap, bitOf, word_eq, hbeyond]
    simp
  · simp only [isKeyboard, printBitmap_ne_nil, ne_eq, not_false_eq_true,
      decide_true, Bool.true_and,
      List.all_eq_true, List.mem_range'_1, bitSet_printBitmap, kKeyQ, kKeyP]
    exact ⟨fun h bit hlow hhigh => h bit ⟨hlow, by omega⟩,
      fun h bit hbit => h bit hbit.1 (by omega)⟩
  · simp [isPointer, printBitmap_ne_nil, bitSet_printBitmap]

end DevMgr.Linux
