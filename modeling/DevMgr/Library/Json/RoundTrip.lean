import DevMgr.Library.Json.Text

/-!
# Every canonical value comes back from its text

Strings return byte for byte through the escapes, integers through their
digits, and values by recursion on their structure. The text of a value is
longer than the fuel any part of it needs, and what follows a value in a
document is never a digit, so a number ends where its digits end.
-/

namespace DevMgr.Json
open Bytes

theorem skip_append {w : Str} (hw : Blank w) (s : Str) : skip (w ++ s) = skip s :=
  List.dropWhile_append_of_pos hw

theorem skip_cons {c : UInt8} (hc : isBlank c = false) (s : Str) : skip (c :: s) = c :: s := by
  simp [skip, hc]

theorem hexValue_hexDigit : ∀ n < 16, hexValue (hexDigit n) = some n := by decide

theorem parseString_plain {c : UInt8} (hq : c ≠ 34) (hb : c ≠ 92) (hc : ¬ c < 32) (s : Str) :
    parseString (c :: s) = (parseString s).map fun p => (c :: p.1, p.2) := by
  rw [parseString.eq_def]
  simp only [if_neg hq, if_neg hb, if_neg hc]
  cases parseString s <;> rfl

theorem parseString_control {c : UInt8} (hc : c < 32) (s : Str) :
    parseString (92 :: 117 :: 48 :: 48 :: hexDigit (c.toNat / 16) :: hexDigit (c.toNat % 16) :: s) =
      (parseString s).map fun p => (c :: p.1, p.2) := by
  have hlt : c.toNat < 32 := hc
  have hhigh := hexValue_hexDigit (c.toNat / 16) (by omega)
  have hlow := hexValue_hexDigit (c.toNat % 16) (by omega)
  have hbyte : UInt8.ofNat (16 * (c.toNat / 16) + c.toNat % 16) = c := by
    rw [Nat.div_add_mod]
    exact UInt8.ofNat_toNat
  have hsmall : c.toNat / 16 < 8 := by omega
  rw [parseString.eq_def]
  simp only [hhigh, hlow, Option.bind_eq_bind, Option.bind_some, hbyte, if_pos hsmall]
  cases parseString s <;> rfl

theorem parseString_unescape {e c : UInt8} (he : e ≠ 117) (hc : unescape e = some c) (s : Str) :
    parseString (92 :: e :: s) = (parseString s).map fun p => (c :: p.1, p.2) := by
  have hstep : parseString (92 :: e :: s) = (unescape e).bind fun byte =>
      (parseString s).bind fun p => some (byte :: p.1, p.2) := by
    rw [parseString.eq_def]
    simp [he]
  rw [hstep, hc]
  cases parseString s <;> rfl

theorem parseString_escape (c : UInt8) (s : Str) :
    parseString (escape c ++ s) = (parseString s).map fun p => (c :: p.1, p.2) := by
  unfold escape
  split_ifs with h1 h2 h3 h4 h5 h6 h7 h8
  all_goals try subst c
  · exact parseString_unescape (by decide) (by decide) s
  · exact parseString_unescape (by decide) (by decide) s
  · exact parseString_unescape (by decide) (by decide) s
  · exact parseString_unescape (by decide) (by decide) s
  · exact parseString_unescape (by decide) (by decide) s
  · exact parseString_unescape (by decide) (by decide) s
  · exact parseString_unescape (by decide) (by decide) s
  · exact parseString_control h8 s
  · exact parseString_plain h1 h2 h8 s

theorem parseString_flatMap (s r : Str) :
    parseString (s.flatMap escape ++ 34 :: r) = some (s, r) := by
  induction s with
  | nil => rw [parseString.eq_def]; rfl
  | cons c s ih =>
    rw [List.flatMap_cons, List.append_assoc, parseString_escape, ih]
    rfl

theorem parseText_quote {s : Str} (hs : validUtf8 s = true) (r : Str) :
    parseText (s.flatMap escape ++ 34 :: r) = some (s, r) := by
  simp [parseText, parseString_flatMap, hs]

theorem parseKey_quote {w k : Str} (hw : Blank w) (hk : validUtf8 k = true) (a r : Str) :
    parseKey (w ++ quote k ++ 58 :: (a ++ r)) = some (k, a ++ r) := by
  have hq : skip (w ++ quote k ++ 58 :: (a ++ r)) =
      34 :: (k.flatMap escape ++ 34 :: 58 :: (a ++ r)) := by
    rw [List.append_assoc, skip_append hw, quote, List.cons_append, skip_cons (by decide)]
    simp
  have hcolon : skip (58 :: (a ++ r)) = 58 :: (a ++ r) := skip_cons (by decide) _
  rw [parseKey, hq]
  simp only [parseText_quote hk, Option.bind_eq_bind, Option.bind_some, hcolon]

def NoDigit (r : Str) : Prop := ∀ c ∈ r.head?, isDigit c = false

theorem parseNatural_decimal (n : ℕ) {r : Str} (hr : NoDigit r) :
    parseNatural (decimal n ++ r) = some (n, r) := by
  have hstop : r.takeWhile isDigit = [] ∧ r.dropWhile isDigit = r := by
    cases r with
    | nil => simp
    | cons c r => simp [hr c (by simp)]
  have htake : (decimal n ++ r).takeWhile isDigit = decimal n := by
    rw [List.takeWhile_append_of_pos fun c hc => decimal_isDigit hc, hstop.1, List.append_nil]
  have hdrop : (decimal n ++ r).dropWhile isDigit = r := by
    rw [List.dropWhile_append_of_pos fun c hc => decimal_isDigit hc, hstop.2]
  rw [parseNatural, htake, hdrop, if_neg (decimal_ne_nil n), readDecimal_decimal]

def NumberHead (c : UInt8) : Prop := c = 45 ∨ isDigit c = true

theorem parseInteger_print {n : ℤ} (hn : (Json.int n).Canonical) {r : Str} (hr : NoDigit r) :
    ∃ c s, printInteger n ++ r = c :: s ∧ NumberHead c ∧
    parseInteger c s = some (.int n, r) := by
  obtain ⟨hlow, hhigh⟩ := hn
  by_cases hneg : n < 0
  · refine ⟨45, decimal n.natAbs ++ r, by rw [printInteger, if_pos hneg]; rfl, .inl rfl, ?_⟩
    have hle : n.natAbs ≤ 2 ^ 63 := by omega
    have habs : -(n.natAbs : ℤ) = n := by omega
    simp only [parseInteger, if_pos, parseNatural_decimal _ hr, Option.bind_some, if_pos hle, habs]
  · obtain ⟨c, s, hcs⟩ := List.exists_cons_of_ne_nil (decimal_ne_nil n.natAbs)
    have hc : isDigit c = true := decimal_isDigit (hcs ▸ List.mem_cons_self)
    refine ⟨c, s ++ r, by rw [printInteger, if_neg hneg, hcs]; rfl, .inr hc, ?_⟩
    have hminus : c ≠ 45 := by rintro rfl; revert hc; decide
    have hlt : n.natAbs < 2 ^ 64 := by omega
    have habs : (n.natAbs : ℤ) = n := by omega
    rw [parseInteger, if_neg hminus, ← List.cons_append, ← hcs, parseNatural_decimal _ hr]
    simp only [Option.bind_some, if_pos hlt, habs]

theorem digit_ne {c b : UInt8} (hc : isDigit c = true) (hb : isDigit b = false) : c ≠ b := by
  rintro rfl
  rw [hc] at hb
  exact absurd hb (by decide)

theorem digit_not_blank {c : UInt8} (hc : isDigit c = true) : isBlank c = false := by
  have h32 : c ≠ 32 := digit_ne hc rfl
  have h10 : c ≠ 10 := digit_ne hc rfl
  have h13 : c ≠ 13 := digit_ne hc rfl
  have h9 : c ≠ 9 := digit_ne hc rfl
  simp [isBlank, h32, h10, h13, h9]

theorem parseValue_number {c : UInt8} (hc : NumberHead c) (fuel : ℕ) {w : Str} (hw : Blank w)
    (s : Str) : parseValue (fuel + 1) (w ++ c :: s) = parseInteger c s := by
  have hne : isBlank c = false ∧ c ≠ 34 ∧ c ≠ 91 ∧ c ≠ 123 ∧ c ≠ 110 ∧
      c ≠ 116 ∧ c ≠ 102 := by
    rcases hc with rfl | hc
    · decide
    · exact ⟨digit_not_blank hc, digit_ne hc rfl, digit_ne hc rfl, digit_ne hc rfl,
        digit_ne hc rfl, digit_ne hc rfl, digit_ne hc rfl⟩
  obtain ⟨hb, h34, h91, h123, h110, h116, h102⟩ := hne
  simp only [parseValue, skip_append hw, skip_cons hb, if_neg h34, if_neg h91, if_neg h123,
    if_neg h110, if_neg h116, if_neg h102]

theorem noDigit_cons {c : UInt8} (hc : isDigit c = false) (r : Str) : NoDigit (c :: r) := by
  intro b hb
  obtain rfl : c = b := by simpa using hb
  exact hc

theorem noDigit_blank {w : Str} (hw : Blank w) {c : UInt8} (hc : isDigit c = false) (r : Str) :
    NoDigit (w ++ c :: r) := by
  cases w with
  | nil => exact noDigit_cons hc r
  | cons b w =>
    refine noDigit_cons ?_ _
    have hb := hw b (by simp)
    simp only [isBlank, Bool.or_eq_true, decide_eq_true_eq] at hb
    rcases hb with ((rfl | rfl) | rfl) | rfl <;> rfl

theorem numberHead_ne {c : UInt8} (hc : NumberHead c) : isBlank c = false ∧ c ≠ 93 := by
  rcases hc with rfl | hc
  · decide
  · exact ⟨digit_not_blank hc, digit_ne hc rfl⟩

variable (L : Layout)

theorem print_head (depth : ℕ) (j : Json) (hj : j.Canonical) :
    ∃ c s, j.print L depth = c :: s ∧ isBlank c = false ∧ c ≠ 93 := by
  match j, hj with
  | .null, _ => exact ⟨110, str "ull", rfl, by decide⟩
  | .bool true, _ => exact ⟨116, str "rue", rfl, by decide⟩
  | .bool false, _ => exact ⟨102, str "alse", rfl, by decide⟩
  | .int n, hn =>
    have hnil : NoDigit [] := by simp [NoDigit]
    obtain ⟨c, s, hcs, hc, _⟩ := parseInteger_print hn hnil
    exact ⟨c, s, by rw [print, ← hcs, List.append_nil], numberHead_ne hc⟩
  | .string s, _ => exact ⟨34, _, rfl, by decide⟩
  | .arr [], _ => exact ⟨91, [93], rfl, by decide⟩
  | .arr (x :: xs), _ => exact ⟨91, _, rfl, by decide⟩
  | .obj [], _ => exact ⟨123, [125], rfl, by decide⟩
  | .obj (m :: ms), _ => exact ⟨123, _, rfl, by decide⟩

theorem skip_print (depth : ℕ) {j : Json} (hj : j.Canonical) {w : Str} (hw : Blank w) (r : Str) :
    (skip (w ++ (j.print L depth ++ r))).head? ≠ some 93 := by
  obtain ⟨c, s, hcs, hc, hne⟩ := print_head L depth j hj
  rw [skip_append hw, hcs, List.cons_append, skip_cons hc]
  simpa using hne

theorem skip_quote {w : Str} (hw : Blank w) (k r : Str) :
    (skip (w ++ quote k ++ r)).head? ≠ some 125 := by
  rw [List.append_assoc, skip_append hw, quote, List.cons_append, skip_cons rfl]
  simp

theorem noDigit_elements (depth : ℕ) (xs : List Json) {w : Str} (hw : Blank w) (r : Str) :
    NoDigit (printElements L depth xs ++ (w ++ 93 :: r)) := by
  cases xs with
  | nil => exact noDigit_blank hw rfl r
  | cons x xs => exact noDigit_cons rfl _

theorem noDigit_members (depth : ℕ) (ms : List (Str × Json)) {w : Str} (hw : Blank w) (r : Str) :
    NoDigit (printMembers L depth ms ++ (w ++ 125 :: r)) := by
  cases ms with
  | nil => exact noDigit_blank hw rfl r
  | cons m ms => exact noDigit_cons rfl _

theorem parseValue_word {fuel : ℕ} {w : Str} (hw : Blank w) {c : UInt8} {word r : Str} {j : Json}
    (hc : isBlank c = false) (h : parseValue (fuel + 1) (c :: (word ++ r)) =
      literal word j (word ++ r)) :
    parseValue (fuel + 1) (w ++ (c :: word ++ r)) = some (j, r) := by
  have hskip : parseValue (fuel + 1) (w ++ (c :: word ++ r)) =
      parseValue (fuel + 1) (c :: (word ++ r)) := by
    simp only [parseValue, skip_append hw, List.cons_append, skip_cons hc]
  rw [hskip, h]
  simp [literal]

mutual
theorem parseValue_print (depth : ℕ) : ∀ (j : Json), j.isText = true → j.Canonical →
    ∀ (fuel : ℕ) (w r : Str), Blank w → NoDigit r → (j.print L depth).length < fuel →
      parseValue fuel (w ++ (j.print L depth ++ r)) = some (j, r)
  | .null, _, _, fuel + 1, w, r, hw, _, _ => parseValue_word hw rfl rfl
  | .bool true, _, _, fuel + 1, w, r, hw, _, _ => parseValue_word hw rfl rfl
  | .bool false, _, _, fuel + 1, w, r, hw, _, _ => parseValue_word hw rfl rfl
  | .int n, _, hn, fuel + 1, w, r, hw, hr, _ => by
    obtain ⟨c, s, hcs, hc, hparse⟩ := parseInteger_print hn hr
    rw [print, hcs, parseValue_number hc fuel hw, hparse]
  | .string s, hs, _, fuel + 1, w, r, hw, _, _ => by
    have htext : parseText (s.flatMap escape ++ 34 :: r) = some (s, r) := parseText_quote hs r
    simp only [print, quote, parseValue, skip_append hw, List.cons_append, List.append_assoc,
      skip_cons (show isBlank 34 = false from rfl), List.nil_append, if_pos, htext, Option.map_some]
  | .arr [], _, _, fuel + 1, w, r, hw, _, _ => by
    simp only [print, parseValue, skip_append hw, List.cons_append, List.nil_append,
      skip_cons (show isBlank 91 = false from rfl), skip_cons (show isBlank 93 = false from rfl)]
    rfl
  | .arr (x :: xs), hx, hc, fuel + 1, w, r, hw, hr, hlen => by
    obtain ⟨hxt, hxst⟩ := Bool.and_eq_true_iff.mp hx
    obtain ⟨hxc, hxsc⟩ := hc
    have hline := L.line_blank
    simp only [print, List.length_cons, List.length_append] at hlen
    have hvalue := parseValue_print (depth + 1) x hxt hxc fuel (L.line (depth + 1))
      (printElements L (depth + 1) xs ++ (L.line depth ++ 93 :: r)) (hline _)
      (noDigit_elements L _ xs (hline _) r) (by omega)
    have helements := parseElements_print (depth + 1) xs hxst hxsc fuel (L.line depth) r (hline _)
      (by omega)
    have hne := skip_print L (depth + 1) hxc (hline (depth + 1))
      (printElements L (depth + 1) xs ++ (L.line depth ++ 93 :: r))
    simp only [print, parseValue, skip_append hw, List.cons_append, List.append_assoc,
      skip_cons (show isBlank 91 = false from rfl), List.nil_append]
    rw [if_neg (by decide), if_pos trivial, if_neg hne, hvalue]
    simp only [Option.bind_eq_bind, Option.bind_some, helements]
  | .obj [], _, _, fuel + 1, w, r, hw, _, _ => by
    simp only [print, parseValue, skip_append hw, List.cons_append, List.nil_append,
      skip_cons (show isBlank 123 = false from rfl), skip_cons (show isBlank 125 = false from rfl)]
    rfl
  | .obj ((k, v) :: ms), hx, hc, fuel + 1, w, r, hw, hr, hlen => by
    simp only [isText, isTextMembers, Bool.and_eq_true] at hx
    obtain ⟨⟨hk, hvt⟩, hmst⟩ := hx
    obtain ⟨hsorted, hvc, hmsc⟩ := hc
    have hline := L.line_blank
    simp only [print, List.length_cons, List.length_append] at hlen
    have hvalue := parseValue_print (depth + 1) v hvt hvc fuel L.afterKey
      (printMembers L (depth + 1) ms ++ (L.line depth ++ 125 :: r)) L.afterKey_blank
      (noDigit_members L _ ms (hline _) r) (by omega)
    have hmembers := parseMembers_print (depth + 1) ms hmst hmsc fuel (L.line depth) r (hline _)
      (by omega)
    have hkey := parseKey_quote (hline (depth + 1)) hk L.afterKey
      (v.print L (depth + 1) ++ (printMembers L (depth + 1) ms ++ (L.line depth ++ 125 :: r)))
    have hne := skip_quote (hline (depth + 1)) k (58 :: (L.afterKey ++
      (v.print L (depth + 1) ++ (printMembers L (depth + 1) ms ++ (L.line depth ++ 125 :: r)))))
    simp only [List.append_assoc] at hkey hne
    simp only [print, parseValue, skip_append hw, List.cons_append, List.append_assoc,
      skip_cons (show isBlank 123 = false from rfl), List.nil_append]
    rw [if_neg (by decide), if_neg (by decide), if_pos trivial, if_neg hne, hkey]
    simp only [Option.bind_eq_bind, Option.bind_some, hvalue, hmembers, toList_ofList hsorted]
theorem parseElements_print (depth : ℕ) : ∀ (xs : List Json), isTextElements xs = true →
    CanonicalElements xs → ∀ (fuel : ℕ) (w r : Str), Blank w →
      (printElements L depth xs).length + w.length < fuel →
      parseElements fuel (printElements L depth xs ++ (w ++ 93 :: r)) = some (xs, r)
  | [], _, _, fuel + 1, w, r, hw, _ => by
    simp only [printElements, parseElements, List.nil_append, skip_append hw,
      skip_cons (show isBlank 93 = false from rfl)]
  | x :: xs, hx, hc, fuel + 1, w, r, hw, hlen => by
    obtain ⟨hxt, hxst⟩ := Bool.and_eq_true_iff.mp hx
    obtain ⟨hxc, hxsc⟩ := hc
    simp only [printElements, List.length_cons, List.length_append] at hlen
    have hvalue := parseValue_print depth x hxt hxc fuel (L.line depth)
      (printElements L depth xs ++ (w ++ 93 :: r)) (L.line_blank _)
      (noDigit_elements L _ xs hw r) (by omega)
    have helements := parseElements_print depth xs hxst hxsc fuel w r hw (by omega)
    simp only [printElements, parseElements, List.cons_append, List.append_assoc,
      skip_cons (show isBlank 44 = false from rfl), hvalue, helements, Option.bind_eq_bind,
      Option.bind_some]
theorem parseMembers_print (depth : ℕ) :
    ∀ (ms : List (Str × Json)), isTextMembers ms = true →
      CanonicalMembers ms → ∀ (fuel : ℕ) (w r : Str), Blank w →
      (printMembers L depth ms).length + w.length < fuel →
      parseMembers fuel (printMembers L depth ms ++ (w ++ 125 :: r)) = some (ms, r)
  | [], _, _, fuel + 1, w, r, hw, _ => by
    simp only [printMembers, parseMembers, List.nil_append, skip_append hw,
      skip_cons (show isBlank 125 = false from rfl)]
  | (k, v) :: ms, hx, hc, fuel + 1, w, r, hw, hlen => by
    simp only [isTextMembers, Bool.and_eq_true] at hx
    obtain ⟨⟨hk, hvt⟩, hmst⟩ := hx
    obtain ⟨hvc, hmsc⟩ := hc
    simp only [printMembers, List.length_cons, List.length_append] at hlen
    have hvalue := parseValue_print depth v hvt hvc fuel L.afterKey
      (printMembers L depth ms ++ (w ++ 125 :: r)) L.afterKey_blank
      (noDigit_members L _ ms hw r) (by omega)
    have hmembers := parseMembers_print depth ms hmst hmsc fuel w r hw (by omega)
    have hkey := parseKey_quote (L.line_blank depth) hk L.afterKey
      (v.print L depth ++ (printMembers L depth ms ++ (w ++ 125 :: r)))
    simp only [List.append_assoc] at hkey
    simp only [printMembers, parseMembers, List.cons_append, List.append_assoc,
      skip_cons (show isBlank 44 = false from rfl), hkey, hvalue, hmembers, Option.bind_eq_bind,
      Option.bind_some]
end

theorem parseDocument_print (j : Json) (ht : j.isText = true) (hc : j.Canonical) :
    parseDocument (j.print L 0) = some j := by
  have hnil : Blank [] := by simp [Blank]
  have hvalue := parseValue_print L 0 j ht hc ((j.print L 0).length + 1) [] [] hnil
    (by simp [NoDigit]) (by omega)
  rw [List.nil_append, List.append_nil] at hvalue
  rw [parseDocument, hvalue]
  rfl

def reference : Codec where
  dump j := j.print compact 0
  dumpIndented j := j.print indented 0
  parse := parseDocument
  parse_dump := parseDocument_print compact
  parse_dumpIndented := parseDocument_print indented

end DevMgr.Json
