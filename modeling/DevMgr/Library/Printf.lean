import DevMgr.Library.FileTree
import DevMgr.Library.Utf8

/-!
# Formatting into a buffer

`snprintf` counts bytes: a precision cuts an argument, and the buffer cuts the
whole, wherever the bytes end. A line is described by the texts it shows and how
much of each, and it is valid UTF-8 exactly when no text ends within one of its
code points.
-/

namespace DevMgr.Printf
open Bytes

abbrev cString (s : Str) : Str := FileTree.cString s

inductive Piece where
  | literal (text : Str)
  /-- `%-W.Ps` -/
  | string (width : ℕ) (precision : Option ℕ) (arg : Str)
  /-- `%Wld`, given the digits. -/
  | number (width : ℕ) (digits : Str)

def padded (width : ℕ) (text : Str) : Str := text ++ List.replicate (width - text.length) 32

def Piece.render : Piece → Str
  | .literal text => text
  | .string width none arg => padded width (cString arg)
  | .string width (some precision) arg => padded width ((cString arg).take precision)
  | .number width digits => List.replicate (width - digits.length) 32 ++ digits

def snprintf (size : ℕ) (pieces : List Piece) : Str :=
  (pieces.flatMap Piece.render).take (size - 1)

structure Part where
  text : Str
  limit : ℕ

def Part.shown (p : Part) : Str := p.text.take p.limit

def whole (text : Str) : Part := ⟨text, text.length⟩

def bytes (parts : List Part) : Str := parts.flatMap Part.shown

/-- In a line of `size` bytes no part ends within a code point, from a place in the line on. -/
def Fits (size : ℕ) : ℕ → List Part → Prop
  | _, [] => True
  | place, p :: parts =>
    Boundary (min p.limit (size - place)) p.text ∧ Fits size (place + p.shown.length) parts

instance decidableFits (size : ℕ) : (place : ℕ) → (parts : List Part) →
    Decidable (Fits size place parts)
  | _, [] => isTrue trivial
  | place, p :: parts =>
    have := decidableFits size (place + p.shown.length) parts
    inferInstanceAs (Decidable (Boundary _ _ ∧ Fits _ _ _))

@[simp] theorem bytes_nil : bytes [] = [] := rfl

@[simp] theorem bytes_cons (p : Part) (parts : List Part) :
    bytes (p :: parts) = p.shown ++ bytes parts := rfl

@[simp] theorem shown_mk (text : Str) (limit : ℕ) :
    (⟨text, limit⟩ : Part).shown = text.take limit := rfl

@[simp] theorem shown_whole (text : Str) : (whole text).shown = text := List.take_length

theorem bytes_lead {parts : List Part} (hvalid : ∀ p ∈ parts, validUtf8 p.text = true) {c : UInt8}
    (hc : (bytes parts).head? = some c) : isContinuationByte c = false := by
  induction parts with
  | nil => simp at hc
  | cons p parts ih =>
    have hp := hvalid p List.mem_cons_self
    rw [bytes_cons] at hc
    cases hshown : p.shown with
    | nil =>
      rw [hshown, List.nil_append] at hc
      exact ih (fun q hq => hvalid q (List.mem_cons_of_mem _ hq)) hc
    | cons b rest =>
      obtain rfl : b = c := by simpa [hshown] using hc
      obtain ⟨tail, htail⟩ := List.take_prefix p.limit p.text
      rw [← Part.shown, hshown, List.cons_append] at htail
      rw [← htail] at hp
      exact validUtf8_head hp

theorem validUtf8_part {text rest : Str} (htext : validUtf8 text = true)
    (hrest : ∀ c, rest.head? = some c → isContinuationByte c = false) (limit n : ℕ) :
    validUtf8 ((text.take limit ++ rest).take n) = true ↔
      Boundary (min limit n) text ∧
      validUtf8 (rest.take (n - (text.take limit).length)) = true := by
  have hlead : ∀ c, (rest.take (n - (text.take limit).length)).head? = some c →
      isContinuationByte c = false := by
    intro c hc
    rw [List.head?_take] at hc
    split_ifs at hc
    exact hrest c hc
  rw [List.take_append, List.take_take, validUtf8_append hlead, validUtf8_take htext, min_comm]

theorem validUtf8_iff_fits {parts : List Part} (hvalid : ∀ p ∈ parts, validUtf8 p.text = true)
    (size place : ℕ) : validUtf8 ((bytes parts).take (size - place)) = true ↔
    Fits size place parts := by
  induction parts generalizing place with
  | nil => simp [Fits, validUtf8_nil]
  | cons p parts ih =>
    have hparts : ∀ q ∈ parts, validUtf8 q.text = true := fun q hq =>
      hvalid q (List.mem_cons_of_mem _ hq)
    rw [bytes_cons, Part.shown, validUtf8_part (hvalid p List.mem_cons_self)
      (fun c => bytes_lead hparts), Nat.sub_sub, ih hparts]
    rfl

theorem boundary_whole {n : ℕ} {s : Str} : Boundary (min s.length n) s ↔ Boundary n s := by
  rcases Nat.le_total s.length n with h | h
  · rw [Nat.min_eq_left h]
    exact iff_of_true (boundary_of_length_le le_rfl) (boundary_of_length_le h)
  · rw [Nat.min_eq_right h]

theorem boundary_ascii {s : Str} (hs : ∀ c ∈ s, c < 0x80) (n : ℕ) :
    Boundary n s := fun _ hc =>
  ascii_lead (hs _ (List.mem_of_getElem? hc))

@[simp] theorem fits_nil (size place : ℕ) : Fits size place [] := trivial

theorem fits_whole {size place : ℕ} {text : Str} {parts : List Part} :
    Fits size place (whole text :: parts) ↔
      Boundary (size - place) text ∧ Fits size (place + text.length) parts := by
  rw [Fits, shown_whole]
  exact and_congr_left' boundary_whole

theorem fits_ascii {size place : ℕ} {text : Str} {parts : List Part}
    (htext : ∀ c ∈ text, c < 0x80) :
    Fits size place (whole text :: parts) ↔ Fits size (place + text.length) parts := by
  rw [fits_whole]
  exact and_iff_right (boundary_ascii htext _)

theorem max_take (n : ℕ) (s : Str) : max n (s.take n).length = n := by
  rw [List.length_take]
  omega

def column (width : ℕ) (p : Part) : List Part :=
  [p, whole (List.replicate (width - p.shown.length) 32)]

theorem bytes_column (width : ℕ) (p : Part) (parts : List Part) :
    bytes (column width p ++ parts) = padded width p.shown ++ bytes parts := by
  simp [column, padded]

theorem fits_column {size place width : ℕ} {p : Part} {parts : List Part} :
    Fits size place (column width p ++ parts) ↔
      Boundary (min p.limit (size - place)) p.text ∧
        Fits size (place + max width p.shown.length) parts := by
  have hspaces : ∀ c ∈ List.replicate (width - p.shown.length) (32 : UInt8), c < 0x80 := by
    intro c hc
    rw [List.eq_of_mem_replicate hc]
    decide
  have hplace :
      place + p.shown.length + (List.replicate (width - p.shown.length) (32 : UInt8)).length =
      place + max width p.shown.length := by
    rw [List.length_replicate]
    omega
  rw [column, List.cons_append, List.cons_append, List.nil_append, Fits, fits_ascii hspaces, hplace]

theorem cString_take (s : Str) (n : ℕ) : cString (s.take n) = (cString s).take n := by
  induction s generalizing n with
  | nil => simp [FileTree.cString]
  | cons c s ih =>
    cases n with
    | zero => rfl
    | succ n =>
      have hrest := ih n
      simp only [FileTree.cString] at hrest ⊢
      by_cases hc : c = 0
      · simp [hc]
      · simpa [hc] using hrest

theorem cString_valid {s : Str} (hs : validUtf8 s = true) : validUtf8 (cString s) = true := by
  have hlead : ∀ c, (s.dropWhile (· ≠ 0)).head? = some c → isContinuationByte c = false := by
    intro c hc
    have hstop := List.head?_dropWhile_not (fun b : UInt8 => decide (b ≠ 0)) s
    rw [hc] at hstop
    have hzero : c = 0 := by simpa using hstop
    rw [hzero]
    decide
  rw [← List.takeWhile_append_dropWhile (p := fun b : UInt8 => decide (b ≠ 0)) (l := s),
    validUtf8_append hlead] at hs
  exact hs.1

theorem cString_ascii {s : Str} (hs : ∀ c ∈ s, c < 0x80) : ∀ c ∈ cString s, c < 0x80 :=
  fun c hc => hs c ((List.takeWhile_prefix _).subset hc)

theorem cString_append (s t : Str) :
    cString (s ++ t) = cString s ++ if (0 : UInt8) ∈ s then [] else cString t := by
  split_ifs with hs
  · rw [cString, FileTree.cString_append_of_mem hs, List.append_nil]
  · have hall : ∀ c ∈ s, decide (c ≠ 0) = true := fun c hc =>
      decide_eq_true fun hzero => hs (hzero ▸ hc)
    rw [show cString s = s from FileTree.cString_of_not_mem hs]
    exact List.takeWhile_append_of_pos hall

def cutParts (text : Str) (limit : ℕ) (tail : Str) : List Part :=
  [⟨cString text, limit⟩, whole (if (0 : UInt8) ∈ text.take limit then [] else cString tail)]

theorem bytes_cutParts (text : Str) (limit : ℕ) (tail : Str) (parts : List Part) :
    bytes (cutParts text limit tail ++ parts) = cString (text.take limit ++ tail) ++
      bytes parts := by
  rw [cString_append, cString_take]
  simp [cutParts]

theorem cutParts_valid {text tail : Str} (limit : ℕ) (htext : validUtf8 text = true)
    (htail : validUtf8 tail = true) : ∀ p ∈ cutParts text limit tail,
    validUtf8 p.text = true := by
  have hbehind : validUtf8 (if (0 : UInt8) ∈ text.take limit then []
      else cString tail) = true := by
    split_ifs
    · exact validUtf8_nil
    · exact cString_valid htail
  simp [cutParts, whole, cString_valid htext, hbehind]

end DevMgr.Printf
