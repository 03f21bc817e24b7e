import Mathlib.Algebra.Group.Nat.Defs
import SportsPubSub.Lib.Posix

/-!
# Decimal text

The `%d`, `%0nd` and `%Y` conversions of numbers as byte strings, their lengths, and
the value read back. The digits are those of `Nat.toDigits`.
-/
namespace SportsPubSub.Lib.Decimal
open Lib.Posix

def charZero : UInt8 := 48
def charMinus : UInt8 := 45

/-- The byte is one of `0` to `9`. -/
def isDigit (c : UInt8) : Bool := 48 ≤ c && c ≤ 57

/-- `%d` of a number that is not negative. -/
def decimal (n : Nat) : Bytes := (Nat.toDigits 10 n).map fun c => UInt8.ofNat c.toNat

/-- `%d` of any number. -/
def signedDecimal (z : Int) : Bytes :=
  if z < 0 then charMinus :: decimal z.natAbs else decimal z.natAbs

/-- `%0nd`: filled up with zeros to the width. -/
def padded (width n : Nat) : Bytes :=
  List.replicate (width - (decimal n).length) charZero ++ decimal n

/-- The number that a string of digits stands for. -/
def decimalValue (digits : Bytes) : Nat :=
  digits.foldl (fun value c => 10 * value + (c.toNat - 48)) 0

/-- A digit character is kept by the conversion to a byte. -/
theorem toNat_digit (c : Char) (h : c.isDigit = true) :
    (UInt8.ofNat c.toNat).toNat = c.toNat ∧ 48 ≤ c.toNat ∧ c.toNat ≤ 57 := by
  have bounds : 48 ≤ c.toNat ∧ c.toNat ≤ 57 := by
    simpa [Char.isDigit, UInt32.le_iff_toNat_le] using h
  refine ⟨?_, bounds⟩
  rw [UInt8.toNat_ofNat']
  omega

theorem isDigit_decimal (n : Nat) (c : UInt8) (h : c ∈ decimal n) : isDigit c = true := by
  obtain ⟨d, mem, rfl⟩ := List.mem_map.mp h
  have character := Nat.isDigit_of_mem_toDigits (by decide) (by decide) mem
  obtain ⟨value, low, high⟩ := toNat_digit d character
  simp only [isDigit, Bool.and_eq_true, decide_eq_true_eq, UInt8.le_iff_toNat_le, value]
  exact ⟨low, high⟩

/-- Reading the digits back. -/
theorem decimalValue_decimal (n : Nat) : decimalValue (decimal n) = n := by
  have digits : ∀ (cs : List Char) (start : Nat), (∀ c ∈ cs, c.isDigit = true) →
      (cs.map fun c => UInt8.ofNat c.toNat).foldl (fun value c => 10 * value + (c.toNat - 48))
        start = Nat.ofDigitChars 10 cs start := by
    intro cs
    induction cs with
    | nil =>
      intro start _
      exact Nat.ofDigitChars_nil.symm
    | cons c rest ih =>
      intro start all
      have value := (toNat_digit c (all c List.mem_cons_self)).1
      rw [List.map_cons, List.foldl_cons, value, Nat.ofDigitChars_cons]
      exact ih _ fun d hd => all d (List.mem_cons_of_mem c hd)
  rw [decimalValue, decimal, digits _ 0 fun c hc =>
    Nat.isDigit_of_mem_toDigits (by decide) (by decide) hc]
  exact Nat.ofDigitChars_ten_toDigits

/-- A number below a power of ten has no more digits than its exponent. -/
theorem length_decimal_le (n k : Nat) (pos : 0 < k) (h : n < 10 ^ k) : (decimal n).length ≤ k := by
  rw [decimal, List.length_map]
  exact (Nat.length_toDigits_le_iff (by decide) pos).mpr h

theorem length_padded (width n : Nat) (pos : 0 < width) (h : n < 10 ^ width) :
    (padded width n).length = width := by
  have bound := length_decimal_le n width pos h
  rw [padded, List.length_append, List.length_replicate]
  omega

theorem length_signedDecimal_le (z : Int) (k : Nat) (pos : 0 < k) (h : z.natAbs < 10 ^ k) :
    (signedDecimal z).length ≤ k + 1 := by
  have bound := length_decimal_le z.natAbs k pos h
  unfold signedDecimal
  split
  · rw [List.length_cons]
    omega
  · omega

theorem decimal_nul_free (n : Nat) : 0 ∉ decimal n := by
  intro nul
  have digit := isDigit_decimal n 0 nul
  revert digit
  decide

/-- The digits before a character that is none are read off as the number. -/
theorem takeWhile_decimal (n : Nat) (c : UInt8) (rest : Bytes) (stop : isDigit c = false) :
    (decimal n ++ c :: rest).takeWhile isDigit = decimal n := by
  rw [List.takeWhile_append_of_pos (isDigit_decimal n), List.takeWhile_cons, stop]
  simp

example : decimal 100000 = ascii "100000" ∧ padded 3 7 = ascii "007" ∧
    signedDecimal (-12) = ascii "-12" := by decide

end SportsPubSub.Lib.Decimal
