import DevMgr.Library.Bytes
import Mathlib.Data.Fintype.BigOperators
import Mathlib.Data.Fintype.Pigeonhole

/-!
# SHA-256 in hexadecimal

The block compression, the padding of the final one or two blocks and the
lowercase digest. The message loop runs over the number of whole blocks. All
that the rest of the development uses of a digest is its shape: sixty-four
characters, every one of them a hexadecimal digit, so that two of many messages
share theirs.
-/

namespace DevMgr.Core
open Bytes

namespace Sha256

def kRoundConstants : List UInt32 := [
  0x428a2f98, 0x71374491, 0xb5c0fbcf, 0xe9b5dba5, 0x3956c25b, 0x59f111f1, 0x923f82a4, 0xab1c5ed5,
  0xd807aa98, 0x12835b01, 0x243185be, 0x550c7dc3, 0x72be5d74, 0x80deb1fe, 0x9bdc06a7, 0xc19bf174,
  0xe49b69c1, 0xefbe4786, 0x0fc19dc6, 0x240ca1cc, 0x2de92c6f, 0x4a7484aa, 0x5cb0a9dc, 0x76f988da,
  0x983e5152, 0xa831c66d, 0xb00327c8, 0xbf597fc7, 0xc6e00bf3, 0xd5a79147, 0x06ca6351, 0x14292967,
  0x27b70a85, 0x2e1b2138, 0x4d2c6dfc, 0x53380d13, 0x650a7354, 0x766a0abb, 0x81c2c92e, 0x92722c85,
  0xa2bfe8a1, 0xa81a664b, 0xc24b8b70, 0xc76c51a3, 0xd192e819, 0xd6990624, 0xf40e3585, 0x106aa070,
  0x19a4c116, 0x1e376c08, 0x2748774c, 0x34b0bcb5, 0x391c0cb3, 0x4ed8aa4a, 0x5b9cca4f, 0x682e6ff3,
  0x748f82ee, 0x78a5636f, 0x84c87814, 0x8cc70208, 0x90befffa, 0xa4506ceb, 0xbef9a3f7, 0xc67178f2]

structure HashState where
  (a b c d e f g h : UInt32)

def kInitialState : HashState :=
  ⟨0x6a09e667, 0xbb67ae85, 0x3c6ef372, 0xa54ff53a, 0x510e527f, 0x9b05688c,
    0x1f83d9ab, 0x5be0cd19⟩

def rotr (x n : UInt32) : UInt32 := (x >>> n) ||| (x <<< (32 - n))

def blockWord (block : Str) (i : ℕ) : UInt32 :=
  ((block.getD (4 * i) 0).toUInt32 <<< 24) ||| ((block.getD (4 * i + 1) 0).toUInt32 <<< 16) |||
    ((block.getD (4 * i + 2) 0).toUInt32 <<< 8) ||| (block.getD (4 * i + 3) 0).toUInt32

def extend (w : List UInt32) (i : ℕ) : List UInt32 :=
  let w15 := w.getD (i - 15) 0
  let w2 := w.getD (i - 2) 0
  let s0 := rotr w15 7 ^^^ rotr w15 18 ^^^ (w15 >>> 3)
  let s1 := rotr w2 17 ^^^ rotr w2 19 ^^^ (w2 >>> 10)
  w ++ [w.getD (i - 16) 0 + s0 + w.getD (i - 7) 0 + s1]

def schedule (block : Str) : List UInt32 :=
  (List.range' 16 48).foldl extend ((List.range 16).map (blockWord block))

def round (s : HashState) (constant word : UInt32) : HashState :=
  let s1 := rotr s.e 6 ^^^ rotr s.e 11 ^^^ rotr s.e 25
  let ch := (s.e &&& s.f) ^^^ (~~~s.e &&& s.g)
  let temp1 := s.h + s1 + ch + constant + word
  let s0 := rotr s.a 2 ^^^ rotr s.a 13 ^^^ rotr s.a 22
  let maj := (s.a &&& s.b) ^^^ (s.a &&& s.c) ^^^ (s.b &&& s.c)
  let temp2 := s0 + maj
  ⟨temp1 + temp2, s.a, s.b, s.c, s.d + temp1, s.e, s.f, s.g⟩

def compress (s : HashState) (block : Str) : HashState :=
  let r := (kRoundConstants.zip (schedule block)).foldl (fun s kw => round s kw.1 kw.2) s
  ⟨s.a + r.a, s.b + r.b, s.c + r.c, s.d + r.d, s.e + r.e, s.f + r.f, s.g + r.g, s.h + r.h⟩

def compressBlocks : ℕ → HashState → Str → HashState
  | 0, s, _ => s
  | n + 1, s, bytes => compressBlocks n (compress s (bytes.take 64)) (bytes.drop 64)

/-- The message tail, `0x80`, zeros and the big-endian bit length modulo `2 ^ 64`. -/
def finalBlocks (data : Str) : Str :=
  let remaining := data.length % 64
  let tailBlocks := if 64 < remaining + 1 + 8 then 2 else 1
  let bitLength := data.length * 8
  data.drop (data.length - remaining) ++ 0x80 ::
    (List.replicate (tailBlocks * 64 - 8 - (remaining + 1)) 0 ++
      (List.range 8).map fun i => UInt8.ofNat (bitLength / 2 ^ (8 * (7 - i))))

def kHex : Str := str "0123456789abcdef"

def hexWord (word : UInt32) : Str :=
  ([28, 24, 20, 16, 12, 8, 4, 0] : List UInt32).map fun shift => kHex.getD
    ((word >>> shift) &&& 0xF).toNat 48

end Sha256

open Sha256

def sha256Hex (data : Str) : Str :=
  let s := compressBlocks (data.length / 64) kInitialState data
  let s := compressBlocks ((finalBlocks data).length / 64) s (finalBlocks data)
  [s.a, s.b, s.c, s.d, s.e, s.f, s.g, s.h].flatMap hexWord

theorem hexWord_length (word : UInt32) : (hexWord word).length = 8 := rfl

theorem sha256Hex_length (data : Str) : (sha256Hex data).length = 64 := by
  simp [sha256Hex, hexWord_length]

theorem sha256Hex_mem {data : Str} {c : UInt8} (hc : c ∈ sha256Hex data) : c ∈ kHex := by
  obtain ⟨word, _, hc⟩ := List.mem_flatMap.mp hc
  obtain ⟨shift, _, rfl⟩ := List.mem_map.mp hc
  rw [List.getD_eq_getElem?_getD]
  cases h : kHex[((word >>> shift) &&& 0xF).toNat]? with
  | none => decide
  | some c => exact List.mem_of_getElem? h

theorem sha256Hex_not_mem {data : Str} {c : UInt8} (hc : c ∉ kHex) : c ∉ sha256Hex data :=
  fun h => hc (sha256Hex_mem h)

def hashLetters (data : Str) (i : Fin 64) : ↥kHex.toFinset :=
  ⟨(sha256Hex data).get ⟨i, by rw [sha256Hex_length]; exact i.isLt⟩,
    List.mem_toFinset.mpr (sha256Hex_mem (List.get_mem _ _))⟩

theorem sha256Hex_eq_of_letters {a b : Str} (h : hashLetters a = hashLetters b) :
    sha256Hex a = sha256Hex b := by
  refine List.ext_getElem (by rw [sha256Hex_length, sha256Hex_length]) fun i hi _ => ?_
  rw [sha256Hex_length] at hi
  exact congrArg Subtype.val (congrFun h ⟨i, hi⟩)

theorem exists_sha256Hex_eq {n : ℕ} (hn : 256 < n) (f : (Fin n → Bool) → Str) :
    ∃ a b, a ≠ b ∧ sha256Hex (f a) = sha256Hex (f b) := by
  have hletters : kHex.toFinset.card = 16 := by decide
  have hcard : Fintype.card (Fin 64 → ↥kHex.toFinset) < Fintype.card (Fin n → Bool) := by
    rw [Fintype.card_fun, Fintype.card_fun, Fintype.card_coe, hletters, Fintype.card_bool,
      Fintype.card_fin, Fintype.card_fin]
    calc 16 ^ 64 = 2 ^ 256 := by norm_num
      _ < 2 ^ n := Nat.pow_lt_pow_right (by decide) hn
  obtain ⟨a, b, hne, heq⟩ :=
    Fintype.exists_ne_map_eq_of_card_lt (fun g => hashLetters (f g)) hcard
  exact ⟨a, b, hne, sha256Hex_eq_of_letters heq⟩

end DevMgr.Core
