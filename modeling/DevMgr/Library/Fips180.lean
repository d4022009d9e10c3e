import Mathlib.Analysis.SpecialFunctions.Pow.Real
import Mathlib.Data.Nat.Nth
import Mathlib.Data.Nat.Prime.Nth

/-!
# The standard SHA-256

A message is a string of bits shorter than `2 ^ 64`. It is padded to whole blocks
of 512 bits, which are read as sixteen words each; the hash value goes through
sixty-four rounds for every block. The constants are fractional parts of roots
of the first primes.
-/

namespace DevMgr.Fips180

abbrev Word := BitVec 32

def bitsOf : ℕ → ℕ → List Bool
  | 0, _ => []
  | width + 1, n => n.testBit width :: bitsOf width n

def ofBits (bits : List Bool) : ℕ := bits.foldl (fun n bit => 2 * n + bit.toNat) 0

@[simp] theorem bitsOf_length (width n : ℕ) : (bitsOf width n).length = width := by
  induction width with
  | zero => rfl
  | succ width ih => rw [bitsOf, List.length_cons, ih]

theorem bitsOf_add (a b n : ℕ) : bitsOf (a + b) n = bitsOf a (n / 2 ^ b) ++ bitsOf b n := by
  induction a with
  | zero => rw [Nat.zero_add, bitsOf, List.nil_append]
  | succ a ih => rw [Nat.add_right_comm, bitsOf, ih, bitsOf, List.cons_append,
      Nat.testBit_div_two_pow]

theorem bitsOf_mod {width w : ℕ} (h : width ≤ w) (n : ℕ) :
    bitsOf width (n % 2 ^ w) = bitsOf width n := by
  induction width with
  | zero => rfl
  | succ width ih =>
    have hbit : (n % 2 ^ w).testBit width = n.testBit width := by
      rw [Nat.testBit_mod_two_pow, decide_eq_true (show width < w by omega), Bool.true_and]
    rw [bitsOf, bitsOf, hbit, ih (by omega)]

theorem ofBits_append (x y : List Bool) : ofBits (x ++ y) = ofBits x * 2 ^ y.length + ofBits y := by
  have hstart : ∀ (bits : List Bool) (n : ℕ), bits.foldl (fun n bit => 2 * n + bit.toNat) n =
      n * 2 ^ bits.length + ofBits bits := fun bits => by
    induction bits with
    | nil => simp [ofBits]
    | cons bit bits ih =>
      intro n
      rw [ofBits, List.foldl_cons, List.foldl_cons, ih, ih, List.length_cons, Nat.pow_succ]
      ring
  rw [ofBits, List.foldl_append, hstart y]
  rfl

theorem ofBits_bitsOf (width n : ℕ) : ofBits (bitsOf width n) = n % 2 ^ width := by
  induction width with
  | zero => rw [bitsOf, pow_zero, Nat.mod_one]; rfl
  | succ width ih =>
    have hfirst : ofBits [n.testBit width] = n / 2 ^ width % 2 := by
      rw [Nat.testBit_eq_decide_div_mod_eq]
      have hbit := Nat.mod_two_eq_zero_or_one (n / 2 ^ width)
      rcases hbit with hbit | hbit <;> rw [hbit] <;> rfl
    rw [bitsOf, ← List.singleton_append, ofBits_append, hfirst, ih, bitsOf_length, Nat.pow_succ,
      Nat.mod_mul]
    ring

structure Message where
  bits : List Bool
  short : bits.length < 2 ^ 64

theorem exists_zeros (length : ℕ) : ∃ k, (length + 1 + k) % 512 = 448 :=
  ⟨(959 - length % 512) % 512, by omega⟩

def zeros (length : ℕ) : ℕ := Nat.find (exists_zeros length)

theorem zeros_eq {length k : ℕ} (h : (length + 1 + k) % 512 = 448) (hk : k < 512) :
    zeros length = k := by
  refine (Nat.find_eq_iff _).mpr ⟨h, fun n hn hsolves => ?_⟩
  omega

def padding (length : ℕ) : List Bool :=
  true :: (List.replicate (zeros length) false ++ bitsOf 64 length)

def Message.padded (m : Message) : List Bool := m.bits ++ padding m.bits.length

def blockCount (padded : List Bool) : ℕ := padded.length / 512

def blockWord (padded : List Bool) (i j : ℕ) : Word :=
  BitVec.ofNat 32 (ofBits ((padded.drop (512 * i + 32 * j)).take 32))

def ROTR (n : ℕ) (x : Word) : Word := x >>> n ||| x <<< (32 - n)

def SHR (n : ℕ) (x : Word) : Word := x >>> n

def Ch (x y z : Word) : Word := (x &&& y) ^^^ (~~~x &&& z)

def Maj (x y z : Word) : Word := (x &&& y) ^^^ (x &&& z) ^^^ (y &&& z)

def bigSigma0 (x : Word) : Word := ROTR 2 x ^^^ ROTR 13 x ^^^ ROTR 22 x

def bigSigma1 (x : Word) : Word := ROTR 6 x ^^^ ROTR 11 x ^^^ ROTR 25 x

def smallSigma0 (x : Word) : Word := ROTR 7 x ^^^ ROTR 18 x ^^^ SHR 3 x

def smallSigma1 (x : Word) : Word := ROTR 17 x ^^^ ROTR 19 x ^^^ SHR 10 x

noncomputable def fraction (x : ℝ) : Word := BitVec.ofNat 32 ⌊Int.fract x * 2 ^ 32⌋₊

noncomputable def rootFraction (n i : ℕ) : Word :=
  fraction ((Nat.nth Nat.Prime i : ℝ) ^ (n⁻¹ : ℝ))

noncomputable def K (t : ℕ) : Word := rootFraction 3 t

structure Hash where
  (a b c d e f g h : Word)

noncomputable def initial : Hash :=
  ⟨rootFraction 2 0, rootFraction 2 1, rootFraction 2 2, rootFraction 2 3, rootFraction 2 4,
    rootFraction 2 5, rootFraction 2 6, rootFraction 2 7⟩

def schedule (block : ℕ → Word) (t : ℕ) : Word :=
  if t < 16 then block t
  else smallSigma1 (schedule block (t - 2)) + schedule block (t - 7) +
    smallSigma0 (schedule block (t - 15)) + schedule block (t - 16)
  termination_by t

def round (s : Hash) (constant word : Word) : Hash :=
  let T1 := s.h + bigSigma1 s.e + Ch s.e s.f s.g + constant + word
  let T2 := bigSigma0 s.a + Maj s.a s.b s.c
  ⟨T1 + T2, s.a, s.b, s.c, s.d + T1, s.e, s.f, s.g⟩

def Hash.add (s r : Hash) : Hash :=
  ⟨s.a + r.a, s.b + r.b, s.c + r.c, s.d + r.d, s.e + r.e, s.f + r.f, s.g + r.g, s.h + r.h⟩

noncomputable def compress (s : Hash) (block : ℕ → Word) : Hash :=
  s.add ((List.range 64).foldl (fun r t => round r (K t) (schedule block t)) s)

noncomputable def hashBlocks (padded : List Bool) : Hash :=
  (List.range (blockCount padded)).foldl (fun s i => compress s (blockWord padded i)) initial

def Hash.bits (s : Hash) : List Bool :=
  [s.a, s.b, s.c, s.d, s.e, s.f, s.g, s.h].flatMap fun word => bitsOf 32 word.toNat

noncomputable def Message.digest (m : Message) : List Bool := (hashBlocks m.padded).bits

def hexDigit (n : ℕ) : UInt8 := UInt8.ofNat (if n < 10 then 48 + n else 87 + n)

def hex : List Bool → List UInt8
  | b3 :: b2 :: b1 :: b0 :: rest => hexDigit (ofBits [b3, b2, b1, b0]) :: hex rest
  | _ => []

theorem hex_bitsOf (k n : ℕ) (rest : List Bool) : hex (bitsOf (4 * k) n ++ rest) =
    ((List.range k).map fun i => hexDigit (n / 16 ^ (k - 1 - i) % 16)) ++ hex rest := by
  induction k with
  | zero => rfl
  | succ k ih =>
    have hfour : 4 * (k + 1) = 4 + 4 * k := by ring
    have hpow : (2 : ℕ) ^ (4 * k) = 16 ^ k := by rw [pow_mul]; rfl
    rw [hfour, bitsOf_add, List.append_assoc, hpow, List.range_succ_eq_map, List.map_cons]
    have hdigit : ofBits (bitsOf 4 (n / 16 ^ k)) = n / 16 ^ k % 16 := ofBits_bitsOf 4 _
    have hrest : ((List.range k).map Nat.succ).map
        (fun i => hexDigit (n / 16 ^ (k + 1 - 1 - i) % 16)) =
        (List.range k).map fun i => hexDigit (n / 16 ^ (k - 1 - i) % 16) := by
      rw [List.map_map]
      refine List.map_congr_left fun i _ => ?_
      rw [Function.comp_apply, show k + 1 - 1 - i.succ = k - 1 - i by omega]
    rw [List.cons_append, hrest, ← ih, Nat.add_sub_cancel, Nat.sub_zero, ← hdigit]
    rfl

theorem fraction_eq {x : ℝ} {c : ℕ} (hlow : c ≤ x * 2 ^ 32) (hhigh : x * 2 ^ 32 < c + 1) :
    fraction x = BitVec.ofNat 32 c := by
  obtain ⟨q, r, hr, rfl⟩ : ∃ q r, r < 2 ^ 32 ∧ c = q * 2 ^ 32 + r :=
    ⟨c / 2 ^ 32, c % 2 ^ 32, Nat.mod_lt _ (by decide), (Nat.div_add_mod' c (2 ^ 32)).symm⟩
  have hrest : (r : ℝ) + 1 ≤ 2 ^ 32 := by exact_mod_cast hr
  have hnonneg : (0 : ℝ) ≤ r := Nat.cast_nonneg r
  push_cast at hlow hhigh
  have hwhole : ⌊x⌋ = q := by
    rw [Int.floor_eq_iff, Int.cast_natCast]
    constructor <;> linarith
  have hfloor : ⌊Int.fract x * 2 ^ 32⌋₊ = r := by
    have hfract : Int.fract x = x - q := by rw [Int.fract, hwhole, Int.cast_natCast]
    have hpositive : 0 ≤ Int.fract x * 2 ^ 32 := mul_nonneg (Int.fract_nonneg x) (by positivity)
    rw [Nat.floor_eq_iff hpositive, hfract]
    constructor <;> linarith
  rw [fraction, hfloor]
  exact BitVec.eq_of_toNat_eq (by simp)

theorem rootFraction_eq {n i p c : ℕ} (hn : n ≠ 0) (hp : Nat.nth Nat.Prime i = p)
    (hlow : c ^ n ≤ p * 2 ^ (32 * n)) (hhigh : p * 2 ^ (32 * n) < (c + 1) ^ n) :
    rootFraction n i = BitVec.ofNat 32 c := by
  have hroot : (((p : ℝ) ^ (n⁻¹ : ℝ)) * 2 ^ 32) ^ n = p * 2 ^ (32 * n) := by
    rw [mul_pow, Real.rpow_inv_natCast_pow (Nat.cast_nonneg p) hn, ← pow_mul]
  have hnonneg : (0 : ℝ) ≤ ((p : ℝ) ^ (n⁻¹ : ℝ)) * 2 ^ 32 := by positivity
  rw [rootFraction, hp]
  apply fraction_eq
  · refine le_of_pow_le_pow_left₀ hn hnonneg ?_
    rw [hroot]
    exact_mod_cast hlow
  · refine lt_of_pow_lt_pow_left₀ n (by positivity) ?_
    rw [hroot]
    exact_mod_cast hhigh

def Sieved (n : ℕ) : Prop := 2 ≤ n ∧ ∀ m < 18, 2 ≤ m → m < n → ¬ m ∣ n

instance : DecidablePred Sieved := fun _ => inferInstanceAs (Decidable (_ ∧ _))

theorem sieved_iff {n : ℕ} (hn : n < 324) : Nat.Prime n ↔ Sieved n := by
  rw [Nat.prime_def_le_sqrt, Sieved]
  refine and_congr_right fun htwo => ⟨fun h m hm hlow hlt hdvd => ?_, fun h m hlow hle => ?_⟩
  · obtain ⟨k, rfl⟩ := hdvd
    have hk : 2 ≤ k := by
      by_contra hk
      have hkm : k = 0 ∨ k = 1 := by omega
      rcases hkm with rfl | rfl <;> omega
    rcases Nat.le_total m k with hmk | hmk
    · exact h m hlow (Nat.le_sqrt.mpr (Nat.mul_le_mul_left m hmk)) (Nat.dvd_mul_right m k)
    · exact h k hk (Nat.le_sqrt.mpr (Nat.mul_le_mul_right k hmk)) (Nat.dvd_mul_left k m)
  · have hsqrt : Nat.sqrt n < 18 := Nat.sqrt_lt.mpr (by omega)
    have hlt : m < n := lt_of_le_of_lt hle (Nat.sqrt_lt_self (by omega))
    exact h m (by omega) hlow hlt

theorem nth_prime_eq {i p : ℕ} (hp : p < 324) (hprime : Sieved p)
    (hcount : Nat.count Sieved p = i) :
    Nat.nth Nat.Prime i = p := by
  have hsame : Nat.count Nat.Prime p = Nat.count Sieved p :=
    le_antisymm (Nat.count_mono_left fun k hk => (sieved_iff (by omega)).mp)
      (Nat.count_mono_left fun k hk => (sieved_iff (by omega)).mpr)
  rw [← hcount, ← hsame]
  exact Nat.nth_count ((sieved_iff hp).mpr hprime)

end DevMgr.Fips180
