import DevMgr.Linux.FwupdUpdateProvider

/-!
# The limits of an install

The size of a firmware file and the time an install may take are bounded by numbers
the daemon reports. Both bounds are products in a fixed width, so a large number
can make a small bound.
-/

open DevMgr.Core

namespace DevMgr.Linux
open Bytes Fwupd

def exactCap (expected : ℕ) : ℕ :=
  if 0 < expected then min (3 * expected / 2) (512 * 1024 * 1024) else 512 * 1024 * 1024

theorem sizeCap_toNat (expected : UInt64) :
    (sizeCap expected).toNat = if 0 < expected.toNat then
      min ((expected.toNat + expected.toNat / 2) % 2 ^ 64) (512 * 1024 * 1024)
      else 512 * 1024 * 1024 := by
  have hcap : kHardCapBytes.toNat = 512 * 1024 * 1024 := by decide
  have hmin : ∀ a b : UInt64, (min a b).toNat = min a.toNat b.toNat := by
    intro a b
    have hle : a ≤ b ↔ a.toNat ≤ b.toNat := UInt64.le_iff_toNat_le
    change (if a ≤ b then a else b).toNat = _
    simp only [hle]
    split_ifs <;> omega
  have hpos : 0 < expected ↔ 0 < expected.toNat := UInt64.lt_iff_toNat_lt
  unfold sizeCap
  by_cases h : 0 < expected
  · rw [if_pos h, if_pos (hpos.mp h), hmin, hcap, UInt64.toNat_add, UInt64.toNat_div]
    rfl
  · rw [if_neg h, if_neg fun h' => h (hpos.mpr h'), hcap]

/-- The sum leaves the range of 64 bits and comes back below the hard cap. -/
def SizeWraps (expected : UInt64) : Prop :=
  2 ^ 64 ≤ expected.toNat + expected.toNat / 2 ∧
    expected.toNat + expected.toNat / 2 < 2 ^ 64 + 512 * 1024 * 1024

theorem sizeCap_exact_iff (expected : UInt64) :
    (sizeCap expected).toNat = exactCap expected.toNat ↔ ¬ SizeWraps expected := by
  have hrange : expected.toNat < 2 ^ 64 := expected.toNat_lt
  have hsum : (expected.toNat + expected.toNat / 2) % 2 ^ 64 =
      if expected.toNat + expected.toNat / 2 < 2 ^ 64 then expected.toNat + expected.toNat / 2
      else expected.toNat + expected.toNat / 2 - 2 ^ 64 := by
    split_ifs <;> omega
  rw [sizeCap_toNat, exactCap, SizeWraps, hsum]
  split_ifs <;> omega

def announced (release : ReleaseInfo) : ℕ := (release.installDurationSec.getD 0).toNat

theorem installTimeout_toNat (release : ReleaseInfo) :
    (installTimeout release).toNat = max (announced release * 2 % 2 ^ 32) 600 := by
  have hmax : ∀ a b : UInt32, (max a b).toNat = max a.toNat b.toNat := by
    intro a b
    have hle : a ≤ b ↔ a.toNat ≤ b.toNat := UInt32.le_iff_toNat_le
    change (if a ≤ b then b else a).toNat = _
    simp only [hle]
    split_ifs <;> omega
  unfold installTimeout announced
  rw [hmax, UInt32.toNat_mul]
  rfl

structure LimitsExact (release : ReleaseInfo) : Prop where
  size : ∀ (files : CabFiles) path (size : UInt64), files.entry path = .regular size →
    ((∃ cab, openAndValidate files path release.sizeBytes = .ok cab) ↔
      0 < size.toNat ∧ size.toNat ≤ exactCap release.sizeBytes.toNat)
  timeout : (installTimeout release).toNat = max (2 * announced release) 600
  covers : announced release ≤ (installTimeout release).toNat

theorem accepts_iff {files : CabFiles} {path : Str} {size : UInt64}
    (hopen : files.entry path = .regular size)
    (expected : UInt64) : (∃ cab, openAndValidate files path expected = .ok cab) ↔
      0 < size.toNat ∧ size.toNat ≤ (sizeCap expected).toNat := by
  have hpos : size ≠ 0 ↔ 0 < size.toNat := by
    rw [ne_eq, ← UInt64.toNat_inj, UInt64.toNat_zero]
    omega
  rw [← hpos, ← UInt64.le_iff_toNat_le]
  constructor
  · intro ⟨cab, hok⟩
    obtain ⟨size', hsize, hne, hcap, _⟩ := openAndValidate_ok_iff.mp hok
    obtain rfl : size = size' := PathEntry.regular.inj (hopen.symm.trans hsize)
    exact ⟨hne, hcap⟩
  · intro ⟨hne, hcap⟩
    exact ⟨⟨path, size⟩, openAndValidate_ok_iff.mpr ⟨size, hopen, hne, hcap, rfl⟩⟩

/-- The limits of an install are exact unless one of the two products leaves its range, that of the
size so that it comes back below the hard cap. -/
theorem limits_exact_iff (release : ReleaseInfo) :
    LimitsExact release ↔ ¬ SizeWraps release.sizeBytes ∧ announced release < 2 ^ 31 := by
  have hduration : announced release < 2 ^ 32 := UInt32.toNat_lt _
  constructor
  · intro h
    constructor
    · intro hwraps
      let size : UInt64 := kHardCapBytes
      let files : CabFiles := ⟨some, fun _ => .regular size⟩
      have hexact := h.size files [] size rfl
      rw [accepts_iff rfl] at hexact
      have hcap : size.toNat = 512 * 1024 * 1024 := by decide
      have hwithin : size.toNat ≤ exactCap release.sizeBytes.toNat := by
        unfold SizeWraps at hwraps
        rw [hcap, exactCap]
        split_ifs <;> omega
      obtain ⟨_, hwide⟩ := hexact.mpr ⟨by omega, hwithin⟩
      rw [hcap, sizeCap_toNat] at hwide
      unfold SizeWraps at hwraps
      split_ifs at hwide <;> omega
    · have htimeout := h.timeout
      rw [installTimeout_toNat] at htimeout
      omega
  · intro ⟨hsize, hshort⟩
    have htimeout : (installTimeout release).toNat = max (2 * announced release) 600 := by
      rw [installTimeout_toNat]
      omega
    refine ⟨?_, htimeout, by omega⟩
    intro files path size hopen
    rw [accepts_iff hopen, (sizeCap_exact_iff _).mpr hsize]

section Huge

def huge : ReleaseInfo where
  version := str "2"
  summary := []
  remoteId := str "r"
  checksum := str "c"
  locations := []
  localCab := false
  sizeBytes := 0xAAAAAAAAAAAAAAAB
  isUpgrade := true
  installDurationSec := some 0x80000000

theorem huge_limits_wrap : ¬ ∀ release, LimitsExact release := by
  intro hall
  have hcovers := (hall huge).covers
  revert hcovers
  decide

end Huge

end DevMgr.Linux
