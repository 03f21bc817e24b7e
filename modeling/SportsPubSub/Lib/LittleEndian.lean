import Mathlib.Algebra.Group.Nat.Defs
import SportsPubSub.Lib.Posix

/-!
# Little-endian words

Fixed-width little-endian encodings of natural numbers and of 32-bit words, with
both round trips. Used for packed structures whose bytes go on the wire as they
lie in memory.
-/
namespace SportsPubSub.Lib.LittleEndian
open Posix

/-- The `width` low bytes of a number, least significant first. -/
def leBytes : Nat → Nat → Bytes
  | 0, _ => []
  | width + 1, n => UInt8.ofNat (n % 256) :: leBytes width (n / 256)

/-- The number denoted by little-endian bytes. -/
def leNat : Bytes → Nat
  | [] => 0
  | b :: rest => b.toNat + 256 * leNat rest

@[simp] theorem length_leBytes (width n : Nat) : (leBytes width n).length = width := by
  induction width generalizing n with
  | zero => rfl
  | succ width ih => simp [leBytes, ih]

theorem leNat_lt (bytes : Bytes) : leNat bytes < 256 ^ bytes.length := by
  induction bytes with
  | nil => simp [leNat]
  | cons b rest ih =>
    have hb := b.toNat_lt
    simp only [leNat, List.length_cons, Nat.pow_succ]
    omega

theorem leNat_leBytes (width n : Nat) (h : n < 256 ^ width) : leNat (leBytes width n) = n := by
  induction width generalizing n with
  | zero =>
    simp only [Nat.pow_zero] at h
    simp [leBytes, leNat]
    omega
  | succ width ih =>
    have hq : n / 256 < 256 ^ width := by
      rw [Nat.pow_succ] at h
      omega
    have hm : (UInt8.ofNat (n % 256)).toNat = n % 256 := by
      simp [UInt8.toNat_ofNat']
    simp only [leBytes, leNat, ih _ hq, hm]
    omega

theorem leBytes_leNat (bytes : Bytes) : leBytes bytes.length (leNat bytes) = bytes := by
  induction bytes with
  | nil => rfl
  | cons b rest ih =>
    have hb := b.toNat_lt
    have hm : (b.toNat + 256 * leNat rest) % 256 = b.toNat := by omega
    have hd : (b.toNat + 256 * leNat rest) / 256 = leNat rest := by omega
    simp only [List.length_cons, leBytes, leNat, hm, hd, ih, UInt8.ofNat_toNat]

/-- A 32-bit word in memory. -/
def wordBytes (w : UInt32) : Bytes := leBytes 4 w.toNat

/-- The 32-bit word at an offset of a buffer. -/
def wordAt (buf : Bytes) (offset : Nat) : UInt32 := UInt32.ofNat (leNat ((buf.drop offset).take 4))

@[simp] theorem length_wordBytes (w : UInt32) : (wordBytes w).length = 4 := length_leBytes 4 _

/-- Reading a word back at the place where it was written. -/
theorem wordAt_append (before rest : Bytes) (w : UInt32) (offset : Nat)
    (place : before.length = offset) : wordAt (before ++ (wordBytes w ++ rest)) offset = w := by
  subst place
  have bound : w.toNat < 256 ^ 4 := w.toNat_lt
  rw [wordAt, List.drop_left, List.take_left' (length_wordBytes w), wordBytes,
    leNat_leBytes 4 _ bound, UInt32.ofNat_toNat]

/-- A word determines the four bytes it was read from. -/
theorem wordBytes_wordAt (buf : Bytes) (offset : Nat) (room : offset + 4 ≤ buf.length) :
    wordBytes (wordAt buf offset) = (buf.drop offset).take 4 := by
  have len : ((buf.drop offset).take 4).length = 4 := by
    simp only [List.length_take, List.length_drop]
    omega
  have bound := leNat_lt ((buf.drop offset).take 4)
  rw [len] at bound
  have back : (UInt32.ofNat (leNat ((buf.drop offset).take 4))).toNat =
      leNat ((buf.drop offset).take 4) := by
    rw [UInt32.toNat_ofNat']
    exact Nat.mod_eq_of_lt bound
  have round := leBytes_leNat ((buf.drop offset).take 4)
  rw [len] at round
  rw [wordBytes, wordAt, back, round]

/-- Only the four bytes matter. -/
theorem wordAt_congr (a b : Bytes) (offset : Nat)
    (same : (a.drop offset).take 4 = (b.drop offset).take 4) : wordAt a offset = wordAt b offset := by
  rw [wordAt, wordAt, same]

end SportsPubSub.Lib.LittleEndian
