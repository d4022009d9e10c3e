import DevMgr.Library.StringMap

/-!
# JSON values as nlohmann::json reads and writes them

Objects list their members in key order. Integers stand for both integer
representations of the library, a floating point number is the bit pattern of
its double. The accessors throw where the library throws: a missing key is an
`out_of_range`, a wrong type a `type_error`; a numeric `get` is a `static_cast`.
Printing and parsing are the fields of `Codec`, with what its documentation
promises: parsing the text of a canonical value gives the value back.
-/

namespace DevMgr.Bytes

structure Utf8State where
  due : ℕ
  low : UInt8
  high : UInt8
  deriving DecidableEq

def Utf8State.start : Utf8State := ⟨0, 0x80, 0xBF⟩

def leadByte (b : UInt8) : Option Utf8State :=
  if b < 0x80 then some .start
  else if 0xC2 ≤ b ∧ b ≤ 0xDF then some ⟨1, 0x80, 0xBF⟩
  else if b = 0xE0 then some ⟨2, 0xA0, 0xBF⟩
  else if b = 0xED then some ⟨2, 0x80, 0x9F⟩
  else if 0xE1 ≤ b ∧ b ≤ 0xEF then some ⟨2, 0x80, 0xBF⟩
  else if b = 0xF0 then some ⟨3, 0x90, 0xBF⟩
  else if 0xF1 ≤ b ∧ b ≤ 0xF3 then some ⟨3, 0x80, 0xBF⟩
  else if b = 0xF4 then some ⟨3, 0x80, 0x8F⟩
  else none

def utf8Step (q : Utf8State) (b : UInt8) : Option Utf8State :=
  match q.due with
  | 0 => leadByte b
  | n + 1 => if q.low ≤ b ∧ b ≤ q.high then some ⟨n, 0x80, 0xBF⟩ else none

def utf8Run (q : Utf8State) : Str → Option Utf8State
  | [] => some q
  | b :: s => (utf8Step q b).bind fun q' => utf8Run q' s

def validUtf8 (s : Str) : Bool := (utf8Run .start s).any fun q => q.due = 0

theorem ascii_of_all {s : Str} (h : (s.all fun c => decide (c < 0x80)) = true) :
    ∀ c ∈ s, c < 0x80 :=
  fun c hc => of_decide_eq_true (List.all_eq_true.mp h c hc)

theorem validUtf8_ascii {s : Str} (hs : ∀ c ∈ s, c < 0x80) : validUtf8 s = true := by
  have hrun : utf8Run .start s = some .start := by
    induction s with
    | nil => rfl
    | cons c s ih =>
      have hstep : utf8Step .start c = some .start := if_pos (hs c List.mem_cons_self)
      rw [utf8Run, hstep, Option.bind_some, ih fun b hb => hs b (List.mem_cons_of_mem _ hb)]
  rw [validUtf8, hrun]
  rfl

end DevMgr.Bytes

namespace DevMgr
open Bytes

inductive Json where
  | null
  | bool (b : Bool)
  | int (n : ℤ)
  | float (bits : UInt64)
  | string (s : Str)
  | arr (elements : List Json)
  | obj (members : List (Str × Json))

namespace Json

inductive Exception where
  | typeError
  | outOfRange
  deriving DecidableEq, Repr

mutual
/-- Every string is valid UTF-8; `dump` throws a `type_error` on any other value. -/
def isText : Json → Bool
  | .null | .bool _ | .int _ | .float _ => true
  | .string s => validUtf8 s
  | .arr xs => isTextElements xs
  | .obj ms => isTextMembers ms
def isTextElements : List Json → Bool
  | [] => true
  | x :: xs => x.isText && isTextElements xs
def isTextMembers : List (Str × Json) → Bool
  | [] => true
  | (k, v) :: ms => validUtf8 k && v.isText && isTextMembers ms
end

mutual
/-- Integers fit the library's 64-bit representations, keys are in map order and no number is
fractional: the values whose text determines them. -/
def Canonical : Json → Prop
  | .null | .bool _ | .string _ => True
  | .int n => -2 ^ 63 ≤ n ∧ n < 2 ^ 64
  | .float _ => False
  | .arr xs => CanonicalElements xs
  | .obj ms => KeySorted ms ∧ CanonicalMembers ms
def CanonicalElements : List Json → Prop
  | [] => True
  | x :: xs => x.Canonical ∧ CanonicalElements xs
def CanonicalMembers : List (Str × Json) → Prop
  | [] => True
  | (_, v) :: ms => v.Canonical ∧ CanonicalMembers ms
end

theorem isTextElements_iff (xs : List Json) :
    isTextElements xs = true ↔ ∀ x ∈ xs, x.isText = true := by
  induction xs with
  | nil => simp [isTextElements]
  | cons x xs ih => simp [isTextElements, ih]

theorem isTextMembers_iff (ms : List (Str × Json)) :
    isTextMembers ms = true ↔ ∀ m ∈ ms, validUtf8 m.1 = true ∧ m.2.isText = true := by
  induction ms with
  | nil => simp [isTextMembers]
  | cons m ms ih => simp [isTextMembers, ih]

theorem canonicalElements_iff (xs : List Json) :
    CanonicalElements xs ↔ ∀ x ∈ xs, x.Canonical := by
  induction xs with
  | nil => simp [CanonicalElements]
  | cons x xs ih => simp [CanonicalElements, ih]

theorem canonicalMembers_iff (ms : List (Str × Json)) :
    CanonicalMembers ms ↔ ∀ m ∈ ms, m.2.Canonical := by
  induction ms with
  | nil => simp [CanonicalMembers]
  | cons m ms ih => simp [CanonicalMembers, ih]

def member? (j : Json) (key : Str) : Option Json :=
  match j with
  | .obj ms => ms.lookup key
  | _ => none

def atKey (j : Json) (key : Str) : Except Exception Json :=
  match j with
  | .obj ms => match ms.lookup key with
    | some v => .ok v
    | none => .error .outOfRange
  | _ => .error .typeError

def items : Json → List Json
  | .arr xs => xs
  | .obj ms => ms.map Prod.snd
  | .null => []
  | j => [j]

/-- `static_cast<std::int64_t>` of the double with these bits, within the 64-bit range. -/
def truncate (bits : UInt64) : ℤ :=
  let exponent := (bits.toNat / 2 ^ 52 % 2 ^ 11 : ℤ) - 1075
  let significand := 2 ^ 52 + bits.toNat % 2 ^ 52
  let magnitude : ℕ := if 0 ≤ exponent then significand * 2 ^ exponent.toNat
    else significand / 2 ^ (-exponent).toNat
  if bits.toNat < 2 ^ 63 then magnitude else -magnitude

def getString : Json → Except Exception Str
  | .string s => .ok s
  | _ => .error .typeError

def getBool : Json → Except Exception Bool
  | .bool b => .ok b
  | _ => .error .typeError

def getInt64 : Json → Except Exception Int64
  | .int n => .ok (Int64.ofInt n)
  | .float bits => .ok (Int64.ofInt (truncate bits))
  | _ => .error .typeError

def getStringMembers : List (Str × Json) → Except Exception (List (Str × Str))
  | [] => .ok []
  | (k, v) :: ms => do
    let s ← v.getString
    let rest ← getStringMembers ms
    return (k, s) :: rest

def getStringMap : Json → Except Exception (StringMap Str)
  | .obj ms => do return Std.ExtTreeMap.ofList (← getStringMembers ms) compare
  | _ => .error .typeError

def ofStringMap (m : StringMap Str) : Json := .obj (m.toList.map fun b => (b.1, .string b.2))

theorem getStringMembers_map (l : List (Str × Str)) :
    getStringMembers (l.map fun b => (b.1, .string b.2)) = .ok l := by
  induction l with
  | nil => rfl
  | cons b l ih =>
    simp only [List.map_cons, getStringMembers, ih]
    rfl

theorem getStringMap_ofStringMap (m : StringMap Str) : (ofStringMap m).getStringMap = .ok m := by
  simp only [ofStringMap, getStringMap, getStringMembers_map]
  exact congrArg Except.ok (ofList_toList m)

theorem ofStringMap_canonical (m : StringMap Str) : (ofStringMap m).Canonical := by
  refine ⟨?_, (canonicalMembers_iff _).mpr ?_⟩
  · exact List.pairwise_map.mpr (keySorted_toList m)
  · simp only [List.mem_map]
    rintro _ ⟨b, _, rfl⟩
    trivial

/-- The printer and parser of the library. `parse` without exceptions gives a discarded value,
`none`, on malformed text. -/
structure Codec where
  dump : Json → Str
  dumpIndented : Json → Str
  parse : Str → Option Json
  parse_dump : ∀ j : Json, j.isText = true → j.Canonical → parse (dump j) = some j
  parse_dumpIndented : ∀ j : Json, j.isText = true → j.Canonical →
      parse (dumpIndented j) = some j

theorem Codec.dump_injective (J : Codec) {j k : Json} (hj : j.isText = true) (hjc : j.Canonical)
    (hk : k.isText = true) (hkc : k.Canonical) (h : J.dump j = J.dump k) : j = k := by
  have hp := J.parse_dump j hj hjc
  rw [h, J.parse_dump k hk hkc] at hp
  exact (Option.some.inj hp).symm

end Json

end DevMgr
