import DevMgr.Library.Json.Value

/-!
# Reading and writing JSON text

A printer with the compact layout of `dump()` and the indented layout of
`dump(2)`, and a parser that skips white space and keeps the last member under
a repeated key. The parser recurses on fuel; the length of the text is enough,
so every canonical value comes back from either layout. Together they are the
codec `reference`. Fractional numbers and escapes beyond ASCII are refused.
-/

namespace DevMgr.Json
open Bytes

def hexDigit (n : ℕ) : UInt8 := UInt8.ofNat (if n < 10 then 48 + n else 87 + n)

def escape (c : UInt8) : Str :=
  if c = 34 then [92, 34]
  else if c = 92 then [92, 92]
  else if c = 8 then [92, 98]
  else if c = 9 then [92, 116]
  else if c = 10 then [92, 110]
  else if c = 12 then [92, 102]
  else if c = 13 then [92, 114]
  else if c < 32 then [92, 117, 48, 48, hexDigit (c.toNat / 16), hexDigit (c.toNat % 16)]
  else [c]

def quote (s : Str) : Str := 34 :: (s.flatMap escape ++ [34])

def printInteger (n : ℤ) : Str :=
  if n < 0 then 45 :: decimal n.natAbs else decimal n.natAbs

def isBlank (c : UInt8) : Bool := c = 32 || c = 10 || c = 13 || c = 9

def Blank (s : Str) : Prop := ∀ c ∈ s, isBlank c = true

structure Layout where
  line : ℕ → Str
  afterKey : Str
  line_blank : ∀ depth, Blank (line depth)
  afterKey_blank : Blank afterKey

def compact : Layout where
  line _ := []
  afterKey := []
  line_blank _ _ h := absurd h (by simp)
  afterKey_blank _ h := absurd h (by simp)

def indented : Layout where
  line depth := 10 :: List.replicate (2 * depth) 32
  afterKey := [32]
  line_blank depth c h := by
    rcases List.mem_cons.mp h with rfl | h
    · rfl
    · rw [List.eq_of_mem_replicate h]; rfl
  afterKey_blank c h := by rw [List.mem_singleton.mp h]; rfl

theorem escape_length (c : UInt8) : (escape c).length ≤ 6 := by
  unfold escape
  split_ifs <;> simp

theorem quote_length (s : Str) : (quote s).length ≤ 6 * s.length + 2 := by
  have hflat : (s.flatMap escape).length ≤ 6 * s.length := by
    induction s with
    | nil => simp
    | cons c s ih =>
      rw [List.flatMap_cons, List.length_append, List.length_cons]
      have := escape_length c
      omega
  rw [quote, List.length_cons, List.length_append, List.length_singleton]
  omega

mutual
def print (L : Layout) (depth : ℕ) : Json → Str
  | .null => str "null"
  | .bool true => str "true"
  | .bool false => str "false"
  | .int n => printInteger n
  | .float _ => str "0.0"
  | .string s => quote s
  | .arr [] => [91, 93]
  | .arr (x :: xs) =>
    91 :: (L.line (depth + 1) ++ x.print L (depth + 1) ++ printElements L (depth + 1) xs ++
      (L.line depth ++ [93]))
  | .obj [] => [123, 125]
  | .obj ((k, v) :: ms) =>
    123 :: (L.line (depth + 1) ++ quote k ++ 58 :: (L.afterKey ++ v.print L (depth + 1)) ++
      printMembers L (depth + 1) ms ++ (L.line depth ++ [125]))
def printElements (L : Layout) (depth : ℕ) : List Json → Str
  | [] => []
  | x :: xs => 44 :: (L.line depth ++ x.print L depth) ++ printElements L depth xs
def printMembers (L : Layout) (depth : ℕ) : List (Str × Json) → Str
  | [] => []
  | (k, v) :: ms =>
    44 :: (L.line depth ++ quote k ++ 58 :: (L.afterKey ++ v.print L depth)) ++
      printMembers L depth ms
end

def skip (s : Str) : Str := s.dropWhile isBlank

def hexValue (c : UInt8) : Option ℕ :=
  if 48 ≤ c ∧ c ≤ 57 then some (c.toNat - 48)
  else if 97 ≤ c ∧ c ≤ 102 then some (c.toNat - 87)
  else if 65 ≤ c ∧ c ≤ 70 then some (c.toNat - 55)
  else none

def unescape (c : UInt8) : Option UInt8 :=
  if c = 34 ∨ c = 92 ∨ c = 47 then some c
  else if c = 98 then some 8
  else if c = 116 then some 9
  else if c = 110 then some 10
  else if c = 102 then some 12
  else if c = 114 then some 13
  else none

def parseString : Str → Option (Str × Str)
  | [] => none
  | c :: r =>
    if c = 34 then some ([], r)
    else if c = 92 then
      match r with
      | 117 :: 48 :: 48 :: a :: b :: r => do
        let high ← hexValue a
        let low ← hexValue b
        let (t, r) ← parseString r
        if high < 8 then some (UInt8.ofNat (16 * high + low) :: t, r) else none
      | e :: r => do
        let byte ← unescape e
        let (t, r) ← parseString r
        some (byte :: t, r)
      | [] => none
    else if c < 32 then none
    else do
      let (t, r) ← parseString r
      some (c :: t, r)

def parseText (s : Str) : Option (Str × Str) :=
  (parseString s).bind fun (t, r) => if validUtf8 t then some (t, r) else none

def parseNatural (s : Str) : Option (ℕ × Str) :=
  if s.takeWhile isDigit = [] then none
  else some (readDecimal (s.takeWhile isDigit), s.dropWhile isDigit)

def parseInteger (c : UInt8) (r : Str) : Option (Json × Str) :=
  if c = 45 then (parseNatural r).bind fun (n, r) =>
    if n ≤ 2 ^ 63 then some (.int (-n), r) else none
  else (parseNatural (c :: r)).bind fun (n, r) =>
    if n < 2 ^ 64 then some (.int n, r) else none

def literal (word : Str) (value : Json) (r : Str) : Option (Json × Str) :=
  if word <+: r then some (value, r.drop word.length) else none

def parseKey (s : Str) : Option (Str × Str) :=
  match skip s with
  | 34 :: r => do
    let (k, r) ← parseText r
    match skip r with
    | 58 :: r => some (k, r)
    | _ => none
  | _ => none

mutual
def parseValue : ℕ → Str → Option (Json × Str)
  | 0, _ => none
  | fuel + 1, s =>
    match skip s with
    | [] => none
    | c :: r =>
      if c = 34 then (parseText r).map fun (t, r) => (.string t, r)
      else if c = 91 then
        if (skip r).head? = some 93 then some (.arr [], (skip r).tail)
        else do
          let (x, r) ← parseValue fuel r
          let (xs, r) ← parseElements fuel r
          some (.arr (x :: xs), r)
      else if c = 123 then
        if (skip r).head? = some 125 then some (.obj [], (skip r).tail)
        else do
          let (k, r) ← parseKey r
          let (v, r) ← parseValue fuel r
          let (ms, r) ← parseMembers fuel r
          some (.obj (Std.ExtTreeMap.ofList ((k, v) :: ms) compare).toList, r)
      else if c = 110 then literal (str "ull") .null r
      else if c = 116 then literal (str "rue") (.bool true) r
      else if c = 102 then literal (str "alse") (.bool false) r
      else parseInteger c r
def parseElements : ℕ → Str → Option (List Json × Str)
  | 0, _ => none
  | fuel + 1, s =>
    match skip s with
    | 93 :: r => some ([], r)
    | 44 :: r => do
      let (x, r) ← parseValue fuel r
      let (xs, r) ← parseElements fuel r
      some (x :: xs, r)
    | _ => none
def parseMembers : ℕ → Str → Option (List (Str × Json) × Str)
  | 0, _ => none
  | fuel + 1, s =>
    match skip s with
    | 125 :: r => some ([], r)
    | 44 :: r => do
      let (k, r) ← parseKey r
      let (v, r) ← parseValue fuel r
      let (ms, r) ← parseMembers fuel r
      some ((k, v) :: ms, r)
    | _ => none
end

def parseDocument (s : Str) : Option Json :=
  (parseValue (s.length + 1) s).bind fun (j, r) => if skip r = [] then some j else none

end DevMgr.Json
