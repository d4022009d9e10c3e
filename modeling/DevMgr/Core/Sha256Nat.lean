import DevMgr.Core.Sha256

/-!
# SHA-256 over the natural numbers

The kernel has fast natural numbers and no fast machine words. The same digest,
with words below `2 ^ 32` and the schedule kept newest word first, is what closed
digests are evaluated with.
-/

namespace DevMgr.Core
open Bytes

namespace Sha256

structure NatState where
  (a b c d e f g h : ℕ)

def HashState.toNats (s : HashState) : NatState :=
  ⟨s.a.toNat, s.b.toNat, s.c.toNat, s.d.toNat, s.e.toNat, s.f.toNat, s.g.toNat, s.h.toNat⟩

def natRotr (x n : ℕ) : ℕ := x >>> n ||| x <<< (32 - n) % 4294967296

def natWord (block : Str) (i : ℕ) : ℕ :=
  (block.getD (4 * i) 0).toNat <<< 24 % 4294967296 |||
    (block.getD (4 * i + 1) 0).toNat <<< 16 % 4294967296 |||
    (block.getD (4 * i + 2) 0).toNat <<< 8 % 4294967296 ||| (block.getD (4 * i + 3) 0).toNat

def natExtend (w : List ℕ) : List ℕ :=
  let w15 := w.getD 14 0
  let w2 := w.getD 1 0
  let s0 := natRotr w15 7 ^^^ natRotr w15 18 ^^^ (w15 >>> 3)
  let s1 := natRotr w2 17 ^^^ natRotr w2 19 ^^^ (w2 >>> 10)
  (w.getD 15 0 + s0 + w.getD 6 0 + s1) % 4294967296 :: w

def natExtended : ℕ → List ℕ → List ℕ
  | 0, w => w
  | n + 1, w => natExtended n (natExtend w)

def natRound (s : NatState) (constant word : ℕ) : NatState :=
  let s1 := natRotr s.e 6 ^^^ natRotr s.e 11 ^^^ natRotr s.e 25
  let ch := (s.e &&& s.f) ^^^ ((4294967295 - s.e) &&& s.g)
  let temp1 := s.h + s1 + ch + constant + word
  let s0 := natRotr s.a 2 ^^^ natRotr s.a 13 ^^^ natRotr s.a 22
  let maj := (s.a &&& s.b) ^^^ (s.a &&& s.c) ^^^ (s.b &&& s.c)
  ⟨(temp1 + (s0 + maj)) % 4294967296, s.a, s.b, s.c, (s.d + temp1) % 4294967296, s.e, s.f, s.g⟩

def natRounds : NatState → List ℕ → List ℕ → NatState
  | s, constant :: constants, word :: words => natRounds (natRound s constant word) constants words
  | s, _, _ => s

def natConstants : List ℕ := kRoundConstants.map UInt32.toNat

def NatState.add (s r : NatState) : NatState :=
  ⟨(s.a + r.a) % 4294967296, (s.b + r.b) % 4294967296, (s.c + r.c) % 4294967296,
    (s.d + r.d) % 4294967296, (s.e + r.e) % 4294967296, (s.f + r.f) % 4294967296,
    (s.g + r.g) % 4294967296, (s.h + r.h) % 4294967296⟩

def natCompress (s : NatState) (block : Str) : NatState :=
  let words := (natExtended 48 ((List.range 16).map (natWord block)).reverse).reverse
  s.add (natRounds s natConstants words)

def natBlocks : ℕ → NatState → Str → NatState
  | 0, s, _ => s
  | n + 1, s, bytes => natBlocks n (natCompress s (bytes.take 64)) (bytes.drop 64)

def natHexWord (word : ℕ) : Str :=
  [28, 24, 20, 16, 12, 8, 4, 0].map fun shift => kHex.getD (word >>> shift &&& 15) 48

def natDigest (data : Str) : Str :=
  let s := natBlocks (data.length / 64) kInitialState.toNats data
  let s := natBlocks ((finalBlocks data).length / 64) s (finalBlocks data)
  [s.a, s.b, s.c, s.d, s.e, s.f, s.g, s.h].flatMap natHexWord

theorem rotr_toNat {x n : UInt32} (hpos : 0 < n.toNat) (hlt : n.toNat < 32) :
    (rotr x n).toNat = natRotr x.toNat n.toNat := by
  have hle : n ≤ 32 := UInt32.le_iff_toNat_le.mpr hlt.le
  have hleft : (32 - n).toNat % 32 = 32 - n.toNat := by
    rw [UInt32.toNat_sub_of_le _ _ hle]
    exact Nat.mod_eq_of_lt (by simpa using hpos)
  rw [rotr, UInt32.toNat_or, UInt32.toNat_shiftRight, UInt32.toNat_shiftLeft, Nat.mod_eq_of_lt hlt,
    hleft, natRotr]

theorem not_toNat (x : UInt32) : (~~~x).toNat = 4294967295 - x.toNat := by
  rw [UInt32.toNat_not]
  rfl

theorem round_toNats (s : HashState) (constant word : UInt32) :
    (round s constant word).toNats = natRound s.toNats constant.toNat word.toNat := by
  have hrotr := fun x (n : UInt32) => @rotr_toNat x n
  simp only [round, HashState.toNats, natRound, UInt32.toNat_add, UInt32.toNat_xor,
    UInt32.toNat_and,
    not_toNat, hrotr _ 6 (by decide) (by decide), hrotr _ 11 (by decide) (by decide),
    hrotr _ 25 (by decide) (by decide), hrotr _ 2 (by decide) (by decide),
    hrotr _ 13 (by decide) (by decide), hrotr _ 22 (by decide) (by decide)]
  simp

theorem rounds_toNats (s : HashState) (constants words : List UInt32) :
    ((constants.zip words).foldl (fun s kw => round s kw.1 kw.2) s).toNats =
      natRounds s.toNats (constants.map UInt32.toNat) (words.map UInt32.toNat) := by
  induction constants generalizing s words with
  | nil => rfl
  | cons constant constants ih =>
    cases words with
    | nil => rfl
    | cons word words =>
      rw [List.zip_cons_cons, List.foldl_cons, ih, round_toNats]
      rfl

theorem getD_reverse {w : List UInt32} {k : ℕ} (hk : 0 < k) (hle : k ≤ w.length) :
    (w.getD (w.length - k) 0).toNat = (w.reverse.map UInt32.toNat).getD (k - 1) 0 := by
  have hindex : w.length - k = w.length - 1 - (k - 1) := by omega
  rw [List.getD_eq_getElem?_getD, List.getD_eq_getElem?_getD, List.getElem?_map, hindex,
    ← List.getElem?_reverse (by omega)]
  cases w.reverse[k - 1]? <;> rfl

theorem extend_toNats {w : List UInt32} (hw : 16 ≤ w.length) :
    (extend w w.length).reverse.map UInt32.toNat = natExtend (w.reverse.map UInt32.toNat) := by
  have hrotr := fun x (n : UInt32) => @rotr_toNat x n
  have hget := fun k hk hle => @getD_reverse w k hk hle
  rw [extend, List.reverse_append, List.reverse_singleton, List.singleton_append,
    List.map_cons, natExtend]
  congr 1
  simp only [UInt32.toNat_add, UInt32.toNat_xor, UInt32.toNat_shiftRight,
    hrotr _ 7 (by decide) (by decide), hrotr _ 18 (by decide) (by decide),
    hrotr _ 17 (by decide) (by decide), hrotr _ 19 (by decide) (by decide),
    hget 16 (by decide) hw, hget 15 (by decide) (by omega), hget 7 (by decide) (by omega),
    hget 2 (by decide) (by omega)]
  simp

theorem extended_toNats {w : List UInt32} (n : ℕ) (hw : 16 ≤ w.length) :
    ((List.range' w.length n).foldl extend w).reverse.map UInt32.toNat =
      natExtended n (w.reverse.map UInt32.toNat) := by
  induction n generalizing w with
  | zero => rfl
  | succ n ih =>
    have hlength : (extend w w.length).length = w.length + 1 := by simp [extend]
    rw [List.range'_succ, List.foldl_cons, ← hlength, ih (by omega),
      extend_toNats hw, natExtended]

theorem blockWord_toNat (block : Str) (i : ℕ) : (blockWord block i).toNat = natWord block i := by
  simp only [blockWord, natWord, UInt32.toNat_or, UInt32.toNat_shiftLeft, UInt8.toNat_toUInt32]
  rfl

theorem schedule_toNats (block : Str) :
    (schedule block).map UInt32.toNat =
      (natExtended 48 ((List.range 16).map (natWord block)).reverse).reverse := by
  have hwords : ((List.range 16).map (blockWord block)).map UInt32.toNat =
      (List.range 16).map (natWord block) := by
    rw [List.map_map]
    exact List.map_congr_left fun i _ => blockWord_toNat block i
  have hlength : ((List.range 16).map (blockWord block)).length = 16 := by simp
  have hextended := extended_toNats 48 hlength.ge
  rw [hlength, List.map_reverse, List.map_reverse, hwords] at hextended
  rw [schedule, ← hextended, List.reverse_reverse]

theorem compress_toNats (s : HashState) (block : Str) :
    (compress s block).toNats = natCompress s.toNats block := by
  rw [natCompress, ← schedule_toNats, natConstants, ← rounds_toNats]
  simp only [compress, HashState.toNats, NatState.add, UInt32.toNat_add]

theorem compressBlocks_toNats (n : ℕ) (s : HashState) (bytes : Str) :
    (compressBlocks n s bytes).toNats = natBlocks n s.toNats bytes := by
  induction n generalizing s bytes with
  | zero => rfl
  | succ n ih => rw [compressBlocks, ih, compress_toNats, natBlocks]

theorem hexWord_toNat (word : UInt32) : hexWord word = natHexWord word.toNat := by
  simp only [hexWord, natHexWord, List.map_cons, List.map_nil, UInt32.toNat_and,
    UInt32.toNat_shiftRight]
  rfl

end Sha256

open Sha256

theorem sha256Hex_eq_natDigest (data : Str) : sha256Hex data = natDigest data := by
  have hflat : ∀ s : HashState, [s.a, s.b, s.c, s.d, s.e, s.f, s.g, s.h].flatMap hexWord =
      [s.toNats.a, s.toNats.b, s.toNats.c, s.toNats.d, s.toNats.e, s.toNats.f, s.toNats.g,
        s.toNats.h].flatMap natHexWord := fun s => by
    simp only [List.flatMap_cons, List.flatMap_nil, hexWord_toNat]
    rfl
  rw [sha256Hex, hflat, compressBlocks_toNats, compressBlocks_toNats, natDigest]

example : sha256Hex (str "abc") =
    str "ba7816bf8f01cfea414140de5dae2223b00361a396177a9cb410ff61f20015ad" := by
  rw [sha256Hex_eq_natDigest]
  decide +kernel

end DevMgr.Core
