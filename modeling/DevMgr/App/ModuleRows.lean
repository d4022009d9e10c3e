import DevMgr.Core.Models
import DevMgr.Library.Printf
import DevMgr.Library.Json.Text

/-!
# The columns of a module row

The width of a cell is the number of its bytes that begin a code point. A cell that
is too wide loses bytes from its end: one byte and then the continuation bytes in
front of it, so what is left ends on the first byte of a code point. That byte is a
whole code point only where it stands alone.
-/

namespace DevMgr.App.ModuleRows
open Bytes

def displayWidth (s : Str) : ℕ := s.countP fun c => !isContinuationByte c

def popCodepoint (s : Str) : Str := s.dropLast.rdropWhile isContinuationByte

theorem popCodepoint_leads (s : Str) : popCodepoint s <+: s :=
  (List.rdropWhile_prefix _ _).trans (List.dropLast_prefix s)

theorem popCodepoint_length {s : Str} (hs : s ≠ []) : (popCodepoint s).length < s.length := by
  have hle := (List.rdropWhile_prefix isContinuationByte s.dropLast).length_le
  have hpos := List.length_pos_of_ne_nil hs
  rw [List.length_dropLast] at hle
  rw [popCodepoint]
  omega

theorem popCodepoint_last {s : Str} {c : UInt8} (hc : (popCodepoint s).getLast? = some c) :
    isContinuationByte c = false := by
  have hne : popCodepoint s ≠ [] := by
    intro hnil
    simp [hnil] at hc
  have hlast := List.rdropWhile_last_not isContinuationByte s.dropLast hne
  rw [List.getLast?_eq_some_getLast hne] at hc
  rw [← Option.some.inj hc]
  exact Bool.not_eq_true _ ▸ hlast

theorem displayWidth_append (a b : Str) : displayWidth (a ++ b) = displayWidth a + displayWidth b :=
  List.countP_append

theorem displayWidth_continuation {s : Str} (hs : ∀ c ∈ s, isContinuationByte c = true) :
    displayWidth s = 0 := by
  rw [displayWidth, List.countP_eq_zero]
  intro c hc
  simp [hs c hc]

theorem popCodepoint_width (s : Str) : displayWidth s ≤ displayWidth (popCodepoint s) + 1 := by
  have hback : displayWidth s.dropLast = displayWidth (popCodepoint s) := by
    have hsplit := displayWidth_append (popCodepoint s) (s.dropLast.rtakeWhile isContinuationByte)
    rw [popCodepoint, List.rdropWhile_append_rtakeWhile] at hsplit
    rw [hsplit, displayWidth_continuation (fun c => List.mem_rtakeWhile_imp)]
    rfl
  by_cases hs : s = []
  · simp [hs, displayWidth]
  · have hlast := displayWidth_append s.dropLast [s.getLast hs]
    rw [List.dropLast_append_getLast, hback] at hlast
    have hone : displayWidth [s.getLast hs] ≤ 1 := List.countP_le_length
    omega

def popToWidth (cols : ℕ) (cell : Str) : Str :=
  if cols < displayWidth cell then popToWidth cols (popCodepoint cell) else cell
termination_by cell.length
decreasing_by
  rename_i hwide
  apply popCodepoint_length
  rintro rfl
  exact absurd hwide (Nat.not_lt_zero _)

def ellipsis : Str := str "…"

/-- A column count is at least one, so the subtraction does not wrap. -/
def padTo (cell : Str) (cols : ℕ) : Str :=
  let cut := if cols < displayWidth cell then popToWidth (cols - 1) cell ++ ellipsis else cell
  cut ++ List.replicate (cols - displayWidth cut) 32

theorem popToWidth_cut (cols : ℕ) (cell : Str) (hwide : cols < displayWidth cell) :
    popToWidth cols cell <+: cell ∧ displayWidth (popToWidth cols cell) = cols ∧
      ∀ c, (popToWidth cols cell).getLast? = some c → isContinuationByte c = false := by
  have hne : cell ≠ [] := by
    rintro rfl
    exact absurd hwide (Nat.not_lt_zero _)
  have hshort := popCodepoint_length hne
  have hone := popCodepoint_width cell
  rw [popToWidth, if_pos hwide]
  by_cases hmore : cols < displayWidth (popCodepoint cell)
  · obtain ⟨hleads, hwidth, hlast⟩ := popToWidth_cut cols _ hmore
    exact ⟨hleads.trans (popCodepoint_leads cell), hwidth, hlast⟩
  · rw [popToWidth, if_neg hmore]
    exact ⟨popCodepoint_leads cell, by omega, fun c => popCodepoint_last⟩
termination_by cell.length

def firstCodepoints : ℕ → Str → Str
  | _, [] => []
  | n, c :: s =>
    if isContinuationByte c then c :: firstCodepoints n s
    else if n = 0 then [] else c :: firstCodepoints (n - 1) s

theorem firstCodepoints_leads (n : ℕ) (s : Str) : firstCodepoints n s <+: s := by
  induction s generalizing n with
  | nil => exact List.prefix_rfl
  | cons c s ih =>
    rw [firstCodepoints]
    split_ifs with hc hn
    · exact (List.prefix_cons_inj c).mpr (ih n)
    · exact List.nil_prefix
    · exact (List.prefix_cons_inj c).mpr (ih (n - 1))

theorem displayWidth_cons (c : UInt8) (s : Str) :
    displayWidth (c :: s) = if isContinuationByte c then displayWidth s
    else displayWidth s + 1 := by
  cases hc : isContinuationByte c <;> simp [displayWidth, hc]

theorem displayWidth_firstCodepoints {n : ℕ} {s : Str} (h : n ≤ displayWidth s) :
    displayWidth (firstCodepoints n s) = n := by
  induction s generalizing n with
  | nil =>
    have hzero : n = 0 := Nat.le_zero.mp h
    rw [hzero]
    rfl
  | cons c s ih =>
    rw [displayWidth_cons] at h
    rw [firstCodepoints]
    split_ifs at h ⊢ with hc hn
    · rw [displayWidth_cons, if_pos hc]
      exact ih h
    · exact hn.symm
    · rw [displayWidth_cons, if_neg hc, ih (by omega)]
      omega

theorem boundary_firstCodepoints (n : ℕ) (s : Str) : Boundary (firstCodepoints n s).length s := by
  induction s generalizing n with
  | nil => exact boundary_of_length_le (Nat.zero_le _)
  | cons c s ih =>
    rw [firstCodepoints]
    split_ifs with hc hn
    · exact ih n
    · intro b hb
      obtain rfl : c = b := by simpa using hb
      simpa using hc
    · exact ih (n - 1)

theorem prefix_firstCodepoints {n : ℕ} {s p : Str} (hp : p <+: s) (hwidth : displayWidth p ≤ n) :
    p <+: firstCodepoints n s := by
  induction s generalizing n p with
  | nil => rwa [firstCodepoints]
  | cons c s ih =>
    cases p with
    | nil => exact List.nil_prefix
    | cons b p =>
      obtain ⟨rfl, hrest⟩ := List.cons_prefix_cons.mp hp
      rw [displayWidth_cons] at hwidth
      rw [firstCodepoints]
      split_ifs at hwidth ⊢ with hc hn
      · exact (List.prefix_cons_inj b).mpr (ih hrest hwidth)
      · omega
      · exact (List.prefix_cons_inj b).mpr (ih hrest (by omega))

theorem firstCodepoints_valid {s : Str} (hs : validUtf8 s = true) (n : ℕ) :
    validUtf8 (firstCodepoints n s) = true := by
  rw [List.prefix_iff_eq_take.mp (firstCodepoints_leads n s), validUtf8_take hs]
  exact boundary_firstCodepoints n s

/-- The longest prefix of whole code points of a width. -/
structure LongestPrefix (cell : Str) (width : ℕ) (p : Str) : Prop where
  leads : p <+: cell
  whole : validUtf8 p = true
  width_eq : displayWidth p = width
  longest : ∀ q, q <+: cell → validUtf8 q = true → displayWidth q ≤ width → q <+: p

theorem firstCodepoints_longest {cell : Str} {width : ℕ} (hcell : validUtf8 cell = true)
    (hwidth : width ≤ displayWidth cell) : LongestPrefix cell width
      (firstCodepoints width cell) where
  leads := firstCodepoints_leads width cell
  whole := firstCodepoints_valid hcell width
  width_eq := displayWidth_firstCodepoints hwidth
  longest _ hq _ hle := prefix_firstCodepoints hq hle

/-- The last of the first `n` code points is one byte. -/
def SingleByte (n : ℕ) (cell : Str) : Prop :=
  ∀ c, (firstCodepoints n cell).getLast? = some c → isContinuationByte c = false

instance (n : ℕ) (cell : Str) : Decidable (SingleByte n cell) :=
  decidable_of_iff (((firstCodepoints n cell).getLast?).all fun c => !isContinuationByte c) (by
    simp [SingleByte, Option.all_eq_true])

theorem popToWidth_firstCodepoints {cols : ℕ} {cell : Str} (hcell : validUtf8 cell = true)
    (hwide : cols < displayWidth cell) :
    (validUtf8 (popToWidth cols cell) = true ↔ SingleByte cols cell) ∧
      (SingleByte cols cell → popToWidth cols cell = firstCodepoints cols cell) := by
  obtain ⟨hleads, hwidth, hlast⟩ := popToWidth_cut cols cell hwide
  obtain ⟨tail, htail⟩ := prefix_firstCodepoints hleads hwidth.le
  have hcont : ∀ c ∈ tail, isContinuationByte c = true := by
    have hzero : displayWidth tail = 0 := by
      have hsum := displayWidth_append (popToWidth cols cell) tail
      rw [htail, displayWidth_firstCodepoints hwide.le, hwidth] at hsum
      omega
    intro c hc
    simpa using List.countP_eq_zero.mp hzero c hc
  have hsingle : SingleByte cols cell → tail = [] := by
    intro h
    by_contra hne
    have hc := h (tail.getLast hne) (by
      rw [← htail, List.getLast?_append_of_ne_nil _ hne, List.getLast?_eq_some_getLast hne])
    rw [hcont _ (List.getLast_mem hne)] at hc
    contradiction
  refine ⟨⟨fun hvalid => ?_, fun h => ?_⟩, fun h => ?_⟩
  · have htailNil : tail = [] := by
      obtain ⟨rest, hrest⟩ := firstCodepoints_leads cols cell
      rw [← htail, List.append_assoc] at hrest
      rw [← hrest] at hcell
      cases tail with
      | nil => rfl
      | cons c tail =>
        have hrun := validUtf8_iff.mp hcell
        rw [utf8Run_append, validUtf8_iff.mp hvalid, Option.bind_some] at hrun
        have hlead := validUtf8_head (validUtf8_iff.mpr hrun)
        rw [hcont c List.mem_cons_self] at hlead
        contradiction
    rw [htailNil, List.append_nil] at htail
    intro c hc
    exact hlast c (by rwa [htail])
  · rw [hsingle h, List.append_nil] at htail
    rw [htail]
    exact firstCodepoints_valid hcell cols
  · rwa [hsingle h, List.append_nil] at htail

theorem ellipsis_valid : validUtf8 ellipsis = true := by decide

theorem displayWidth_ellipsis : displayWidth ellipsis = 1 := by decide

theorem displayWidth_spaces (n : ℕ) : displayWidth (List.replicate n 32) = n := by
  have hlead : isContinuationByte 32 = false := by decide
  rw [displayWidth, List.countP_replicate, hlead]
  rfl

theorem padTo_fits {cell : Str} {cols : ℕ} (h : displayWidth cell ≤ cols) :
    padTo cell cols = cell ++ List.replicate (cols - displayWidth cell) 32 := by
  rw [padTo, if_neg (Nat.not_lt.mpr h)]

theorem padTo_wide {cell : Str} {cols : ℕ} (hcols : 1 ≤ cols) (h : cols < displayWidth cell) :
    padTo cell cols = popToWidth (cols - 1) cell ++ ellipsis := by
  have hwidth := (popToWidth_cut (cols - 1) cell (by omega)).2.1
  rw [padTo, if_pos h]
  simp only [displayWidth_append, hwidth, displayWidth_ellipsis]
  rw [Nat.sub_add_cancel hcols, Nat.sub_self, List.replicate_zero, List.append_nil]

/-- A column as its comment promises it. -/
structure Exact (cell : Str) (cols : ℕ) (out : Str) : Prop where
  valid : validUtf8 out = true
  width : displayWidth out = cols
  fits : displayWidth cell ≤ cols → ∃ n, out = cell ++ List.replicate n 32
  cut : cols < displayWidth cell → ∃ p, LongestPrefix cell (cols - 1) p ∧ out = p ++ ellipsis

theorem padTo_width {cell : Str} {cols : ℕ} (hcols : 1 ≤ cols) :
    displayWidth (padTo cell cols) = cols := by
  by_cases h : cols < displayWidth cell
  · have hwidth := (popToWidth_cut (cols - 1) cell (by omega)).2.1
    rw [padTo_wide hcols h, displayWidth_append, hwidth, displayWidth_ellipsis]
    omega
  · rw [padTo_fits (Nat.not_lt.mp h), displayWidth_append, displayWidth_spaces]
    omega

theorem padTo_valid {cell : Str} {cols : ℕ} (hcell : validUtf8 cell = true) (hcols : 1 ≤ cols) :
    validUtf8 (padTo cell cols) = true ↔ displayWidth cell ≤ cols ∨
    SingleByte (cols - 1) cell := by
  by_cases h : cols < displayWidth cell
  · have hlead : ∀ c, ellipsis.head? = some c → isContinuationByte c = false := by
      intro c hc
      cases hc
      decide
    rw [padTo_wide hcols h, validUtf8_append hlead,
      (popToWidth_firstCodepoints hcell (by omega)).1]
    simp [ellipsis_valid, Nat.not_le.mpr h]
  · rw [padTo_fits (Nat.not_lt.mp h)]
    simp [validUtf8_concat hcell (spaces_valid _), Nat.not_lt.mp h]

theorem exact_iff {cell : Str} {cols : ℕ} (hcell : validUtf8 cell = true) (hcols : 1 ≤ cols) :
    Exact cell cols (padTo cell cols) ↔ displayWidth cell ≤ cols ∨
    SingleByte (cols - 1) cell := by
  refine ⟨fun h => (padTo_valid hcell hcols).mp h.valid, fun h => ?_⟩
  refine ⟨(padTo_valid hcell hcols).mpr h, padTo_width hcols,
    fun hfits => ⟨_, padTo_fits hfits⟩, fun hwide => ?_⟩
  have hsingle := h.resolve_left (Nat.not_le.mpr hwide)
  refine ⟨_, firstCodepoints_longest hcell (by omega), ?_⟩
  rw [padTo_wide hcols hwide, (popToWidth_firstCodepoints hcell (by omega)).2 hsingle]

/-- The column is exact unless the cell is cut within a code point: the last one kept is only a
byte. -/
theorem padTo_exact_iff (cell : Str) (cols : ℕ) (hcell : validUtf8 cell = true) (hcols : 1 ≤ cols) :
    displayWidth (padTo cell cols) = cols ∧
    (Exact cell cols (padTo cell cols) ↔ displayWidth cell ≤ cols ∨
      SingleByte (cols - 1) cell) :=
  ⟨padTo_width hcols, exact_iff hcell hcols⟩

theorem padTo_exact_signer :
    displayWidth (padTo (str "größer als zwölf") 8) = 8 ∧
      Exact (str "größer als zwölf") 8 (padTo (str "größer als zwölf") 8) := by
  obtain ⟨hwidth, hexact⟩ :=
    padTo_exact_iff (str "größer als zwölf") 8 (by decide) (by decide)
  exact ⟨hwidth, hexact.mpr (.inr (by decide))⟩

theorem padTo_cuts_letter :
    validUtf8 (str "ééé") = true ∧ ¬ Exact (str "ééé") 2 (padTo (str "ééé") 2) := by
  refine ⟨by decide, fun h => ?_⟩
  exact absurd ((exact_iff (by decide) (by decide)).mp h) (by decide)

def joinedHolders (holders : List Str) : Str :=
  holders.foldl (fun joined h => (if joined = [] then [] else joined ++ str ",") ++ h) []

def kHoldersMaxLen : ℕ := 24
def kHoldersTruncatedLen : ℕ := 21

def joinHolders (holders : List Str) : Str :=
  let joined := joinedHolders holders
  if kHoldersMaxLen < joined.length then joined.take kHoldersTruncatedLen ++ ellipsis else joined

def kSignedCols : ℕ := 20

def formatModuleRow (m : Core.LoadedModule) (signature holders : Str) : Str :=
  Printf.snprintf 128 [
    .string 28 none m.name, .literal (str " "),
    .string 0 none (padTo signature kSignedCols), .literal (str " "),
    .number 4 (Json.printInteger m.refCount), .literal (str " "),
    .number 7 (decimal (m.sizeBytes.toNat / 1024)), .literal (str "K  "),
    .string 0 none holders]

def leadEnd : ℕ → Str → ℕ
  | _, [] => 0
  | n, c :: s => if n = 0 then 0 else leadEnd (if isContinuationByte c then n else n - 1) s + 1

theorem eq_take_leadEnd {n : ℕ} {s p : Str} (hp : p <+: s) (hwidth : displayWidth p = n)
    (hlast : ∀ c, p.getLast? = some c → isContinuationByte c = false) :
    p = s.take (leadEnd n s) := by
  induction s generalizing n p with
  | nil => simpa using hp
  | cons c s ih =>
    cases p with
    | nil =>
      have hzero : n = 0 := hwidth.symm
      simp [leadEnd, hzero]
    | cons b p =>
      obtain ⟨rfl, hrest⟩ := List.cons_prefix_cons.mp hp
      have hn : n ≠ 0 := by
        rintro rfl
        have hnone := List.countP_eq_zero.mp hwidth
        have hend := hlast _ (List.getLast?_eq_some_getLast (List.cons_ne_nil b p))
        have hmem := hnone _ (List.getLast_mem (List.cons_ne_nil b p))
        rw [hend] at hmem
        exact hmem rfl
      have hbelow : displayWidth p = if isContinuationByte b then n else n - 1 := by
        rw [displayWidth_cons] at hwidth
        split_ifs at hwidth ⊢
        · exact hwidth
        · omega
      have htail : ∀ c, p.getLast? = some c → isContinuationByte c = false := by
        intro c hc
        refine hlast c ?_
        rw [List.getLast?_cons, hc]
        rfl
      rw [leadEnd, if_neg hn, List.take_succ_cons, ← ih hrest hbelow htail]

def signatureLimit (signature : Str) : ℕ :=
  if displayWidth signature ≤ kSignedCols then signature.length
    else leadEnd (kSignedCols - 1) signature

def signatureTail (signature : Str) : Str :=
  if displayWidth signature ≤ kSignedCols then List.replicate
    (kSignedCols - displayWidth signature) 32
  else ellipsis

theorem padTo_signature (signature : Str) :
    padTo signature kSignedCols = signature.take (signatureLimit signature) ++
      signatureTail signature := by
  unfold signatureLimit signatureTail
  split_ifs with hfits
  · rw [padTo_fits hfits, List.take_length]
  · have hwide : kSignedCols < displayWidth signature := Nat.not_le.mp hfits
    obtain ⟨hleads, hwidth, hlast⟩ := popToWidth_cut (kSignedCols - 1) signature
      (Nat.lt_of_le_of_lt (Nat.sub_le _ _) hwide)
    rw [padTo_wide (by decide) hwide, ← eq_take_leadEnd hleads hwidth hlast]

def holdersLimit (joined : Str) : ℕ :=
  if kHoldersMaxLen < joined.length then kHoldersTruncatedLen else joined.length

def holdersTail (joined : Str) : Str := if kHoldersMaxLen < joined.length then ellipsis else []

theorem joinHolders_eq (holders : List Str) : joinHolders holders =
    (joinedHolders holders).take (holdersLimit (joinedHolders holders)) ++
      holdersTail (joinedHolders holders) := by
  simp only [joinHolders, holdersLimit, holdersTail]
  split_ifs
  · rfl
  · simp

theorem joinedHolders_valid {holders : List Str} (h : ∀ s ∈ holders, validUtf8 s = true) :
    validUtf8 (joinedHolders holders) = true := by
  have hcomma : validUtf8 (str ",") = true := by decide
  have hfold : ∀ acc : Str, validUtf8 acc = true → validUtf8 (holders.foldl
      (fun joined h => (if joined = [] then [] else joined ++ str ",") ++ h) acc) = true := by
    induction holders with
    | nil => exact fun acc hacc => hacc
    | cons s holders ih =>
      intro acc hacc
      rw [List.foldl_cons]
      apply ih fun t ht => h t (List.mem_cons_of_mem _ ht)
      refine validUtf8_concat ?_ (h s List.mem_cons_self)
      split_ifs
      · exact validUtf8_nil
      · exact validUtf8_concat hacc hcomma
  exact hfold [] validUtf8_nil

def numbersCell (m : Core.LoadedModule) : Str :=
  (Printf.Piece.number 4 (Json.printInteger m.refCount)).render ++ str " " ++
    (Printf.Piece.number 7 (decimal (m.sizeBytes.toNat / 1024))).render ++ str "K  "

def rowParts (m : Core.LoadedModule) (signature : Str) : List Printf.Part :=
  Printf.column 28 (Printf.whole (Printf.cString m.name)) ++ Printf.whole (str " ") ::
  Printf.cutParts signature (signatureLimit signature) (signatureTail signature) ++
  [Printf.whole (str " "), Printf.whole (numbersCell m)] ++
  Printf.cutParts (joinedHolders m.holders) (holdersLimit (joinedHolders m.holders))
    (holdersTail (joinedHolders m.holders))

theorem formatModuleRow_parts (m : Core.LoadedModule) (signature : Str) :
    formatModuleRow m signature (joinHolders m.holders) =
      (Printf.bytes (rowParts m signature)).take 127 := by
  have hholders :=
    Printf.bytes_cutParts (joinedHolders m.holders) (holdersLimit (joinedHolders m.holders))
      (holdersTail (joinedHolders m.holders)) []
  rw [← joinHolders_eq, List.append_nil] at hholders
  simp [formatModuleRow, Printf.snprintf, rowParts, Printf.bytes_column,
    Printf.bytes_cutParts, hholders,
    ← padTo_signature, numbersCell, Printf.Piece.render, Printf.padded]

theorem decimal_ascii (n : ℕ) : ∀ c ∈ decimal n, c < 0x80 := by
  intro c hc
  have hdigit := decimal_isDigit hc
  simp only [isDigit, Bool.and_eq_true, decide_eq_true_eq] at hdigit
  exact UInt8.lt_of_le_of_lt hdigit.2 (by decide)

theorem numbersCell_ascii (m : Core.LoadedModule) : ∀ c ∈ numbersCell m, c < 0x80 := by
  have hspaces : ∀ n, ∀ c ∈ List.replicate n (32 : UInt8), c < 0x80 := fun n c hc => by
    rw [List.eq_of_mem_replicate hc]
    decide
  have hint : ∀ c ∈ Json.printInteger m.refCount, c < 0x80 := by
    unfold Json.printInteger
    split_ifs
    · intro c hc
      rcases List.mem_cons.mp hc with rfl | hc
      · decide
      · exact decimal_ascii _ c hc
    · exact decimal_ascii _
  have hblank : ∀ c ∈ str " ", c < 0x80 := ascii_of_all (by decide)
  have hunit : ∀ c ∈ str "K  ", c < 0x80 := ascii_of_all (by decide)
  intro c hc
  simp only [numbersCell, Printf.Piece.render, List.mem_append] at hc
  rcases hc with (((hc | hc) | hc) | hc | hc) | hc
  · exact hspaces _ c hc
  · exact hint c hc
  · exact hblank c hc
  · exact hspaces _ c hc
  · exact decimal_ascii _ c hc
  · exact hunit c hc

structure TextModule (m : Core.LoadedModule) : Prop where
  name : validUtf8 m.name = true
  holders : ∀ h ∈ m.holders, validUtf8 h = true

theorem rowParts_valid {m : Core.LoadedModule} {signature : Str} (h : TextModule m)
    (hsignature : validUtf8 signature = true) : ∀ p ∈ rowParts m signature,
    validUtf8 p.text = true := by
  have hblank : validUtf8 (str " ") = true := by decide
  have htail : validUtf8 (signatureTail signature) = true := by
    unfold signatureTail
    split_ifs
    · exact spaces_valid _
    · exact ellipsis_valid
  have hbehind : validUtf8 (holdersTail (joinedHolders m.holders)) = true := by
    unfold holdersTail
    split_ifs
    · exact ellipsis_valid
    · exact validUtf8_nil
  have hnumbers := validUtf8_ascii (numbersCell_ascii m)
  have hcell := Printf.cutParts_valid (signatureLimit signature) hsignature htail
  have hholders := Printf.cutParts_valid (holdersLimit (joinedHolders m.holders))
    (joinedHolders_valid h.holders) hbehind
  intro p hp
  simp only [rowParts, Printf.column, List.append_assoc, List.cons_append,
    List.nil_append, List.mem_append,
    List.mem_cons] at hp
  rcases hp with rfl | rfl | rfl | hp | rfl | rfl | hp
  · exact Printf.cString_valid h.name
  · exact spaces_valid _
  · exact hblank
  · exact hcell p hp
  · exact hblank
  · exact hnumbers
  · exact hholders p hp

def RowWhole (m : Core.LoadedModule) (signature : Str) : Prop :=
  Printf.Fits 127 0 (rowParts m signature)

instance (m : Core.LoadedModule) (signature : Str) : Decidable (RowWhole m signature) :=
  inferInstanceAs (Decidable (Printf.Fits _ _ _))

theorem formatModuleRow_valid {m : Core.LoadedModule} {signature : Str} (h : TextModule m)
    (hsignature : validUtf8 signature = true) :
    validUtf8 (formatModuleRow m signature (joinHolders m.holders)) = true ↔
    RowWhole m signature := by
  rw [formatModuleRow_parts, ← Nat.sub_zero 127,
    Printf.validUtf8_iff_fits (rowParts_valid h hsignature),
    RowWhole]

end DevMgr.App.ModuleRows
