import DevMgr.App.DevicePresentation
import DevMgr.Library.Grammar

/-!
# Names that are positions

The kernel names a function on the PCI bus by its address and a device on USB by the
chain of ports it hangs on, and the label of a device must not be such a name. The
scanners search for the separators and look at what stands between them.
-/

open DevMgr.Core

namespace DevMgr.App.DevicePresentation
open Bytes Computability DevMgr.Grammar

def hexDigit : Language UInt8 := one (· ∈ str "0123456789abcdefABCDEF")

def number : Language UInt8 := many (· ∈ str "0123456789")

def pciAddress : Language UInt8 :=
  hexDigit ^ 4 * {str ":"} * hexDigit ^ 2 * {str ":"} * hexDigit ^ 2 * {str "."} * hexDigit

def usbPosition : Language UInt8 := {str "usb"} * number + number * {str "-"} * separated number 46

theorem isHexDigit_iff (c : UInt8) : isHexDigit c = true ↔
    c ∈ str "0123456789abcdefABCDEF" := by
  have hall : ∀ n < 256, isHexDigit (UInt8.ofNat n) = true ↔
      UInt8.ofNat n ∈ str "0123456789abcdefABCDEF" := by decide +kernel
  simpa using hall c.toNat c.toNat_lt

theorem isDigit_iff (c : UInt8) : isDigit c = true ↔ c ∈ str "0123456789" := by
  have hall : ∀ n < 256, isDigit (UInt8.ofNat n) = true ↔
      UInt8.ofNat n ∈ str "0123456789" := by decide +kernel
  simpa using hall c.toNat c.toNat_lt

theorem isHexRun_iff {value : Str} {digits : ℕ} : isHexRun value digits = true ↔
    value ∈ hexDigit ^ digits := by
  rw [isHexRun, hexDigit, mem_one_pow, decide_eq_true_eq, List.all_eq_true]
  simp only [isHexDigit_iff]

theorem isDigitRun_iff {value : Str} : isDigitRun value = true ↔ value ∈ number := by
  rw [isDigitRun, number, mem_many, decide_eq_true_eq, List.all_eq_true]
  simp only [isDigit_iff]

theorem hexDigits_free {digits : ℕ} {c : UInt8} (hc : isHexDigit c = false) {w : Str}
    (hw : w ∈ hexDigit ^ digits) :
    c ∉ w := by
  intro hmem
  have hdigit := (isHexDigit_iff c).mpr ((mem_one_pow.mp hw).2 c hmem)
  rw [hc] at hdigit
  cases hdigit

theorem number_free {c : UInt8} (hc : isDigit c = false) {w : Str} (hw : w ∈ number) :
    c ∉ w := by
  intro hmem
  have hdigit := (isDigit_iff c).mpr ((mem_many.mp hw).2 c hmem)
  rw [hc] at hdigit
  cases hdigit

theorem nil_notMem_number : [] ∉ number := fun h => (mem_many.mp h).1 rfl

theorem find_eq (value : Str) (c : UInt8) (pos : ℕ) :
    find value c pos = ((value.drop pos).idxOf? c).map (pos + ·) := rfl

theorem find_zero (value : Str) (c : UInt8) : find value c 0 = value.idxOf? c := by
  rw [find_eq, List.drop_zero]
  simp

theorem substr_between (value : Str) (pos count : ℕ) :
    substr value (pos + 1) (pos + 1 + count - pos - 1) = (value.drop (pos + 1)).take count := by
  rw [substr, Nat.sub_sub, Nat.add_sub_cancel_left]

theorem looksLikePciAddress_iff (value : Str) : looksLikePciAddress value = true ↔
    value ∈ pciAddress := by
  have hcolon : ∀ {digits : ℕ}, ∀ w ∈ hexDigit ^ digits, 58 ∉ w :=
    fun w => hexDigits_free (by decide)
  have hdot : ∀ w ∈ hexDigit ^ 2, 46 ∉ w := fun w => hexDigits_free (by decide)
  have hfunction : ∀ w, w ∈ hexDigit ↔ isHexRun w kPciFunctionDigits = true := by
    intro w
    rw [isHexRun_iff, kPciFunctionDigits, pow_one]
  have hgrammar : pciAddress =
      hexDigit ^ 4 *
        ({[58]} * (hexDigit ^ 2 * ({[58]} * (hexDigit ^ 2 * ({[46]} * hexDigit))))) := by
    simp only [pciAddress, mul_assoc]
    rfl
  rw [hgrammar, mem_behind hcolon, looksLikePciAddress, find_zero]
  cases hfirst : value.idxOf? 58 with
  | none => simp
  | some firstColon =>
    simp only [Option.some.injEq, exists_eq_left', mem_behind hcolon, find_eq value 58]
    cases hsecond : (value.drop (firstColon + 1)).idxOf? 58 with
    | none => simp
    | some bus =>
      simp only [Option.map_some, Option.some.injEq, exists_eq_left', mem_behind hdot,
        find_eq value 46]
      have hrest : value.drop (firstColon + 1 + bus + 1) = (value.drop (firstColon + 1)).drop
          (bus + 1) := by
        rw [List.drop_drop, Nat.add_assoc]
      rw [hrest]
      cases hthird : ((value.drop (firstColon + 1)).drop (bus + 1)).idxOf? 46 with
      | none => simp
      | some slot =>
        have hlast : value.drop (firstColon + 1 + bus + 1 + slot + 1) =
            ((value.drop (firstColon + 1)).drop (bus + 1)).drop (slot + 1) := by
          rw [← hrest, List.drop_drop, Nat.add_assoc (firstColon + 1 + bus + 1)]
        have hdomain : substr value 0 firstColon = value.take firstColon := rfl
        simp only [Option.map_some, Option.some.injEq, exists_eq_left', hdomain,
          substr_between, hrest, hlast,
          hfunction, ← isHexRun_iff, Bool.and_eq_true, and_assoc]
        rfl

theorem portsRun_iff (ports : Str) : portsRun ports = true ↔ ports ∈ separated number 46 := by
  have hdot : ∀ w ∈ number, 46 ∉ w := fun w => number_free (by decide)
  induction ports using portsRun.induct with
  | case1 =>
    rw [portsRun, if_pos rfl]
    exact iff_of_false Bool.false_ne_true (nil_notMem_separated nil_notMem_number)
  | case2 ports hne hfind =>
    rw [portsRun, if_neg hne, hfind]
    rw [find_zero] at hfind
    rw [mem_separated_last hfind]
    exact isDigitRun_iff
  | case3 ports hne dot hfind hrun ih =>
    rw [portsRun, if_neg hne, hfind]
    rw [find_zero] at hfind
    have hrest : portsRun (ports.drop (dot + 1)) = true ↔
        ports.drop (dot + 1) ∈ separated number 46 := ih
    rw [mem_separated_split hdot hfind, ← hrest]
    dsimp only
    rw [if_pos hrun]
    exact (and_iff_right (isDigitRun_iff.mp hrun)).symm
  | case4 ports hne dot hfind hrun =>
    rw [portsRun, if_neg hne, hfind]
    rw [find_zero] at hfind
    rw [mem_separated_split hdot hfind]
    dsimp only
    rw [if_neg hrun]
    exact iff_of_false Bool.false_ne_true fun h => hrun (isDigitRun_iff.mpr h.1)

theorem rootHub_iff (rest : Str) : str "usb" ++ rest ∈ usbPosition ↔ rest ∈ number := by
  rw [usbPosition, Language.mem_add]
  constructor
  · rintro (⟨_, rfl, digits, hdigits, heq⟩ | hchain)
    · rw [← List.append_cancel_left heq]
      exact hdigits
    · rw [mul_assoc] at hchain
      obtain ⟨bus, hbus, ports, -, heq⟩ := Language.mem_mul.mp hchain
      obtain ⟨hne, hall⟩ := mem_many.mp hbus
      cases bus with
      | nil => exact absurd rfl hne
      | cons c bus =>
        have hfirst : c = 117 := (List.cons.inj heq).1
        have hdigit := hall c List.mem_cons_self
        rw [hfirst] at hdigit
        exact absurd hdigit (by decide)
  · intro hdigits
    exact .inl (Language.append_mem_mul rfl hdigits)

theorem portChain_iff {value : Str} (hhub : ¬ str "usb" <+: value) :
    value ∈ usbPosition ↔ value ∈ number * ({[45]} * separated number 46) := by
  rw [usbPosition, Language.mem_add, mul_assoc]
  apply or_iff_right
  rintro ⟨_, rfl, digits, -, heq⟩
  exact hhub ⟨digits, heq⟩

theorem looksLikeUsbPosition_iff (value : Str) : looksLikeUsbPosition value = true ↔
    value ∈ usbPosition := by
  have hdash : ∀ w ∈ number, 45 ∉ w := fun w => number_free (by decide)
  rw [looksLikeUsbPosition]
  by_cases hhub : str "usb" <+: value
  · rw [if_pos hhub]
    obtain ⟨rest, rfl⟩ := hhub
    rw [rootHub_iff]
    exact isDigitRun_iff
  · rw [if_neg hhub, portChain_iff hhub, mem_behind hdash, find_zero]
    cases hfind : value.idxOf? 45 with
    | none => simp
    | some dash =>
      simp only [Option.some.injEq, exists_eq_left', ← portsRun_iff]
      have hbus : isDigitRun (substr value 0 dash) = true ↔ value.take dash ∈ number :=
        isDigitRun_iff
      split_ifs with hzero hrun
      · rw [hzero]
        exact iff_of_false not_false fun h => nil_notMem_number h.1
      · exact (and_iff_right (hbus.mp hrun)).symm
      · exact iff_of_false not_false fun h => hrun (hbus.mpr h.1)

/-- The part from `pos` to `stop`, where it lies within the text. Behind the end `substr` throws,
and where `stop` is in front of `pos`, its count goes round. -/
def slice (value : Str) (pos stop : ℕ) : Option Str :=
  if pos ≤ stop ∧ stop ≤ value.length then some (substr value pos (stop - pos)) else none

def sliceFrom (value : Str) (pos : ℕ) : Option Str := slice value pos value.length

def scanPciAddress (value : Str) : Option Bool :=
  match find value 58 0 with
  | none => some false
  | some firstColon =>
    match find value 58 (firstColon + 1) with
    | none => some false
    | some secondColon =>
      match find value 46 (secondColon + 1) with
      | none => some false
      | some dot => do
        let domain ← slice value 0 firstColon
        let bus ← slice value (firstColon + 1) secondColon
        let slot ← slice value (secondColon + 1) dot
        let function ← sliceFrom value (dot + 1)
        some (isHexRun domain kPciDomainDigits && isHexRun bus kPciBusDigits &&
          isHexRun slot kPciSlotDigits && isHexRun function kPciFunctionDigits)

def scanPorts : ℕ → Str → Option Bool
  | 0, _ => none
  | rounds + 1, ports =>
    if ports = [] then some false
    else match find ports 46 0 with
      | none => do
        let port ← sliceFrom ports 0
        some (isDigitRun port)
      | some dot => do
        let port ← slice ports 0 dot
        if isDigitRun port then
          let rest ← sliceFrom ports (dot + 1)
          scanPorts rounds rest
        else some false

def scanUsbPosition (rounds : ℕ) (value : Str) : Option Bool :=
  if str "usb" <+: value then do
    let digits ← sliceFrom value 3
    some (isDigitRun digits)
  else match find value 45 0 with
    | none => some false
    | some dash =>
      if dash = 0 then some false
      else do
        let bus ← slice value 0 dash
        if isDigitRun bus then
          let ports ← sliceFrom value (dash + 1)
          scanPorts rounds ports
        else some false

theorem find_range {value : Str} {c : UInt8} {pos i : ℕ} (h : find value c pos = some i) :
    pos ≤ i ∧ i < value.length := by
  obtain ⟨j, hj, rfl⟩ := Option.map_eq_some_iff.mp h
  have hlt := (List.idxOf?_eq_some_iff.mp hj).1
  rw [List.length_drop] at hlt
  omega

theorem slice_within {value : Str} {pos stop : ℕ} (hpos : pos ≤ stop)
    (hstop : stop ≤ value.length) :
    slice value pos stop = some (substr value pos (stop - pos)) := if_pos ⟨hpos, hstop⟩

theorem sliceFrom_within {value : Str} {pos : ℕ} (hpos : pos ≤ value.length) :
    sliceFrom value pos = some (value.drop pos) := by
  rw [sliceFrom, slice_within hpos le_rfl, substr, ← List.length_drop, List.take_length]

theorem scanPciAddress_eq (value : Str) :
    scanPciAddress value = some (looksLikePciAddress value) := by
  rw [scanPciAddress, looksLikePciAddress]
  cases hfirst : find value 58 0 with
  | none => rfl
  | some firstColon =>
    dsimp only
    cases hsecond : find value 58 (firstColon + 1) with
    | none => rfl
    | some secondColon =>
      dsimp only
      cases hthird : find value 46 (secondColon + 1) with
      | none => rfl
      | some dot =>
        obtain ⟨-, hfirstEnd⟩ := find_range hfirst
        obtain ⟨hbus, hsecondEnd⟩ := find_range hsecond
        obtain ⟨hslot, hdotEnd⟩ := find_range hthird
        dsimp only
        rw [slice_within (Nat.zero_le _) hfirstEnd.le, slice_within hbus hsecondEnd.le,
          slice_within hslot hdotEnd.le, sliceFrom_within hdotEnd, Nat.sub_zero,
          ← Nat.sub_sub, ← Nat.sub_sub]
        rfl

theorem scanPorts_eq {rounds : ℕ} {ports : Str} (h : ports.length < rounds) :
    scanPorts rounds ports = some (portsRun ports) := by
  induction rounds generalizing ports with
  | zero => omega
  | succ rounds ih =>
    rw [scanPorts, portsRun]
    by_cases hne : ports = []
    · rw [if_pos hne, if_pos hne]
    · rw [if_neg hne, if_neg hne]
      cases hfind : find ports 46 0 with
      | none =>
        dsimp only
        rw [sliceFrom_within (Nat.zero_le _)]
        rfl
      | some dot =>
        obtain ⟨-, hdot⟩ := find_range hfind
        have hshort : (ports.drop (dot + 1)).length < rounds := by
          rw [List.length_drop]
          omega
        dsimp only
        rw [slice_within (Nat.zero_le _) hdot.le, sliceFrom_within hdot, Nat.sub_zero]
        simp only [Option.bind_eq_bind, Option.bind_some, ih hshort, apply_ite some]

theorem scanUsbPosition_eq {rounds : ℕ} {value : Str} (h : value.length < rounds) :
    scanUsbPosition rounds value = some (looksLikeUsbPosition value) := by
  rw [scanUsbPosition, looksLikeUsbPosition]
  by_cases hhub : str "usb" <+: value
  · have hthree : 3 ≤ value.length := hhub.length_le
    rw [if_pos hhub, if_pos hhub, sliceFrom_within hthree]
    rfl
  · rw [if_neg hhub, if_neg hhub]
    cases hfind : find value 45 0 with
    | none => rfl
    | some dash =>
      obtain ⟨-, hdash⟩ := find_range hfind
      have hshort : (value.drop (dash + 1)).length < rounds := by
        rw [List.length_drop]
        omega
      dsimp only
      rw [slice_within (Nat.zero_le _) hdash.le, sliceFrom_within hdash, Nat.sub_zero]
      simp only [Option.bind_eq_bind, Option.bind_some, scanPorts_eq hshort, apply_ite some]

/-- The scanners accept the names of their grammars and no others, all parts they take lie within
the text, and the loop ends. -/
theorem positions_recognised (value : Str) :
    (looksLikePciAddress value = true ↔ value ∈ pciAddress) ∧
    (looksLikeUsbPosition value = true ↔ value ∈ usbPosition) ∧
    scanPciAddress value = some (looksLikePciAddress value) ∧
    scanUsbPosition (value.length + 1) value = some (looksLikeUsbPosition value) :=
  ⟨looksLikePciAddress_iff value, looksLikeUsbPosition_iff value, scanPciAddress_eq value,
    scanUsbPosition_eq (Nat.lt_succ_self _)⟩

example : scanUsbPosition 8 (str "2-1.4.2") = some true ∧
    scanUsbPosition 7 (str "2-1.4.") = some false := by decide

end DevMgr.App.DevicePresentation
