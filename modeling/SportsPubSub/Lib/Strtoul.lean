import SportsPubSub.Lib.Decimal

/-!
# `strtoul` in base 10

The conversion of the C standard on a 64-bit `unsigned long`, in the C locale, and the
numerals that it reads to their end. The text of a numeral determines its value, and
what is returned for it is that value, or the value modulo 2 ^ 64 behind a minus sign, or
the largest number when there are too many digits.
-/
namespace SportsPubSub.Lib.Strtoul
open Lib.Posix Lib.Decimal

/-- A C string without its terminating NUL. -/
structure CString where
  bytes : Bytes
  nul_free : 0 ∉ bytes
  deriving DecidableEq, Repr

/-- `s[i]`, the terminating NUL included. -/
def CString.at (s : CString) (i : Nat) : UInt8 := s.bytes.getD i 0

def charPlus : UInt8 := 43

/-- `isspace` in the C locale: the blank, and from `\t` to `\r`. -/
def isSpace (c : UInt8) : Bool := c = 32 || (9 ≤ c && c ≤ 13)

inductive Sign where
  | absent
  | plus
  | minus
  deriving DecidableEq, Repr

def Sign.text : Sign → Bytes
  | .absent => []
  | .plus => [charPlus]
  | .minus => [charMinus]

/-- Negation behind a minus sign, in whatever type. -/
def Sign.apply {α : Type*} [Neg α] : Sign → α → α
  | .absent, x => x
  | .plus, x => x
  | .minus, x => -x

def splitSign : Bytes → Sign × Bytes
  | [] => (.absent, [])
  | c :: rest =>
      if c = charMinus then (.minus, rest)
      else if c = charPlus then (.plus, rest)
      else (.absent, c :: rest)

/-- What stands behind the white space: the subject sequence and the final string. -/
structure Subject where
  sign : Sign
  digits : Bytes
  final : Bytes
  deriving DecidableEq, Repr

def subject (s : Bytes) : Subject :=
  let (sign, rest) := splitSign (s.dropWhile isSpace)
  ⟨sign, rest.takeWhile isDigit, rest.dropWhile isDigit⟩

/-- `ULONG_MAX`. -/
def ulongMax : Nat := 18446744073709551615

/-- The number returned for a subject sequence. -/
def Subject.ulong (x : Subject) : UInt64 :=
  if decimalValue x.digits > ulongMax then UInt64.ofNat ulongMax
  else x.sign.apply (UInt64.ofNat (decimalValue x.digits))

/-- `strtoul(s, &end, 10)`: the number, and where `end` points to; without digits that is
the beginning. -/
def strtoul (s : CString) : UInt64 × Nat :=
  let x := subject s.bytes
  if x.digits = [] then (0, 0) else (x.ulong, s.bytes.length - x.final.length)

/-- White space, a sign and digits, all three but the digits optional, and nothing else;
`value` is the number that they stand for. -/
def Numeral (s : Bytes) (value : Int) : Prop :=
  ∃ (blank : Bytes) (sign : Sign) (digits : Bytes), s = blank ++ (sign.text ++ digits) ∧
    (∀ c ∈ blank, isSpace c = true) ∧ digits ≠ [] ∧ (∀ c ∈ digits, isDigit c = true) ∧
    value = sign.apply (decimalValue digits : Int)

theorem text_splitSign (s : Bytes) : (splitSign s).1.text ++ (splitSign s).2 = s := by
  unfold splitSign
  split
  · rfl
  · split
    · next same => rw [same]; rfl
    · split
      · next same => rw [same]; rfl
      · rfl

theorem isDigit_front (c : UInt8) (digit : isDigit c = true) :
    isSpace c = false ∧ c ≠ charMinus ∧ c ≠ charPlus := by
  simp only [isDigit, Bool.and_eq_true, decide_eq_true_eq, UInt8.le_iff_toNat_le] at digit
  have low : 48 ≤ c.toNat := digit.1
  refine ⟨?_, ?_, ?_⟩
  · simp only [isSpace, Bool.or_eq_false_iff, Bool.and_eq_false_iff, decide_eq_false_iff_not,
      UInt8.le_iff_toNat_le]
    refine ⟨?_, .inr ?_⟩
    · rintro rfl
      exact absurd low (by decide)
    · have high : UInt8.toNat 13 = 13 := rfl
      omega
  · rintro rfl
    exact absurd low (by decide)
  · rintro rfl
    exact absurd low (by decide)

/-- Nothing in front of the digits is taken for white space. -/
theorem dropWhile_front (sign : Sign) (digits : Bytes) (nonempty : digits ≠ [])
    (all : ∀ c ∈ digits, isDigit c = true) :
    (sign.text ++ digits).dropWhile isSpace = sign.text ++ digits := by
  cases sign with
  | absent =>
    cases digits with
    | nil => exact absurd rfl nonempty
    | cons c rest =>
      have front := (isDigit_front c (all c List.mem_cons_self)).1
      exact List.dropWhile_cons_of_neg (by simp [front])
  | plus => exact List.dropWhile_cons_of_neg (by decide)
  | minus => exact List.dropWhile_cons_of_neg (by decide)

theorem splitSign_text (sign : Sign) (digits : Bytes) (nonempty : digits ≠ [])
    (all : ∀ c ∈ digits, isDigit c = true) : splitSign (sign.text ++ digits) = (sign, digits) := by
  cases sign with
  | absent =>
    cases digits with
    | nil => exact absurd rfl nonempty
    | cons c rest =>
      obtain ⟨-, notMinus, notPlus⟩ := isDigit_front c (all c List.mem_cons_self)
      simp only [Sign.text, List.nil_append, splitSign, if_neg notMinus, if_neg notPlus]
  | plus => rfl
  | minus => rfl

/-- The parts of a numeral are found again. -/
theorem subject_parts (blank : Bytes) (sign : Sign) (digits : Bytes)
    (spaces : ∀ c ∈ blank, isSpace c = true) (nonempty : digits ≠ [])
    (all : ∀ c ∈ digits, isDigit c = true) :
    subject (blank ++ (sign.text ++ digits)) = ⟨sign, digits, []⟩ := by
  rw [subject, List.dropWhile_append_of_pos spaces, dropWhile_front sign digits nonempty all,
    splitSign_text sign digits nonempty all]
  simp only [List.takeWhile_eq_self_iff.mpr all, List.dropWhile_eq_nil_iff.mpr all]

/-- The parts put together again. -/
theorem subject_split (s : Bytes) :
    s.takeWhile isSpace ++ ((subject s).sign.text ++ ((subject s).digits ++ (subject s).final)) =
      s := by
  simp only [subject]
  rw [List.takeWhile_append_dropWhile, text_splitSign, List.takeWhile_append_dropWhile]

theorem numeral_iff (s : Bytes) (value : Int) :
    Numeral s value ↔ (subject s).digits ≠ [] ∧ (subject s).final = [] ∧
      value = (subject s).sign.apply (decimalValue (subject s).digits : Int) := by
  constructor
  · rintro ⟨blank, sign, digits, rfl, spaces, nonempty, all, rfl⟩
    rw [subject_parts blank sign digits spaces nonempty all]
    exact ⟨nonempty, rfl, rfl⟩
  · rintro ⟨nonempty, whole, rfl⟩
    have split := subject_split s
    rw [whole, List.append_nil] at split
    exact ⟨s.takeWhile isSpace, (subject s).sign, (subject s).digits, split.symm,
      fun c hc => List.mem_takeWhile_imp hc, nonempty, fun c hc => List.mem_takeWhile_imp hc, rfl⟩

/-- A numeral has one value. -/
theorem Numeral.unique {s : Bytes} {a b : Int} (ha : Numeral s a) (hb : Numeral s b) : a = b :=
  ((numeral_iff s a).mp ha).2.2.trans ((numeral_iff s b).mp hb).2.2.symm

/-- Where the final string begins, the text ends only if there is none. -/
theorem at_final (s : CString) :
    s.at (s.bytes.length - (subject s.bytes).final.length) = 0 ↔ (subject s.bytes).final = [] := by
  have split := subject_split s.bytes
  rw [← List.append_assoc, ← List.append_assoc] at split
  generalize (subject s.bytes).final = final at split ⊢
  generalize s.bytes.takeWhile isSpace ++ (subject s.bytes).sign.text ++
    (subject s.bytes).digits = front at split
  have offset : s.bytes.length - final.length = front.length := by
    rw [← split, List.length_append]
    omega
  rw [offset, CString.at, ← split, List.getD_eq_getElem?_getD,
    List.getElem?_append_right (Nat.le_refl _), Nat.sub_self]
  cases final with
  | nil => simp
  | cons c rest =>
    have kept : c ≠ 0 := by
      rintro rfl
      exact s.nul_free (split ▸ List.mem_append_right front List.mem_cons_self)
    simp [kept]

/-- `end` has moved and points to the terminating NUL exactly behind a numeral. -/
theorem strtoul_end (s : CString) :
    ((strtoul s).2 ≠ 0 ∧ s.at (strtoul s).2 = 0) ↔
      (subject s.bytes).digits ≠ [] ∧ (subject s.bytes).final = [] := by
  by_cases none : (subject s.bytes).digits = []
  · simp [strtoul, none]
  · have moved : s.bytes.length - (subject s.bytes).final.length ≠ 0 := by
      have size := congrArg List.length (subject_split s.bytes)
      have some := List.length_pos_of_ne_nil none
      simp only [List.length_append] at size
      omega
    simp only [strtoul, none, if_false, ne_eq, moved, not_false_eq_true, true_and]
    exact at_final s

theorem toNat_ulong (x : Subject) (fits : decimalValue x.digits ≤ ulongMax) :
    x.ulong.toNat = match x.sign with
      | .minus => (18446744073709551616 - decimalValue x.digits) % 18446744073709551616
      | _ => decimalValue x.digits := by
  have kept : (UInt64.ofNat (decimalValue x.digits)).toNat = decimalValue x.digits :=
    UInt64.toNat_ofNat_of_lt' (Nat.lt_succ_of_le fits)
  rw [Subject.ulong, if_neg (Nat.not_lt.mpr fits)]
  cases x.sign with
  | absent => exact kept
  | plus => exact kept
  | minus =>
    simp only [Sign.apply, UInt64.toNat_neg, kept, UInt64.size]

/-- A number that is neither 0 nor the largest comes from its own digits, or from those
of its negative modulo 2 ^ 64 behind a minus sign. -/
theorem ulong_eq_iff (x : Subject) (v : UInt64) (pos : 0 < v.toNat) (small : v.toNat < ulongMax) :
    x.ulong = v ↔
      (v.toNat : Int) = x.sign.apply (decimalValue x.digits : Int) ∨
        (v.toNat : Int) = x.sign.apply (decimalValue x.digits : Int) + 18446744073709551616 := by
  rw [← UInt64.toNat_inj]
  simp only [ulongMax] at small
  by_cases fits : decimalValue x.digits ≤ ulongMax
  · have value := toNat_ulong x fits
    simp only [ulongMax] at fits
    cases sign : x.sign with
    | absent =>
      simp only [sign] at value
      simp only [Sign.apply]
      omega
    | plus =>
      simp only [sign] at value
      simp only [Sign.apply]
      omega
    | minus =>
      simp only [sign] at value
      simp only [Sign.apply]
      omega
  · have value : x.ulong.toNat = ulongMax := by
      rw [Subject.ulong, if_pos (Nat.lt_of_not_le fits)]
      rfl
    simp only [ulongMax] at fits value
    cases x.sign with
    | absent =>
      simp only [Sign.apply]
      omega
    | plus =>
      simp only [Sign.apply]
      omega
    | minus =>
      simp only [Sign.apply]
      omega

/-- The numerals that are read to their end as a given number. -/
theorem strtoul_reads_iff (s : CString) (v : UInt64) (pos : 0 < v.toNat)
    (small : v.toNat < ulongMax) :
    ((strtoul s).2 ≠ 0 ∧ s.at (strtoul s).2 = 0 ∧ (strtoul s).1 = v) ↔
      ∃ value, Numeral s.bytes value ∧
        ((v.toNat : Int) = value ∨ (v.toNat : Int) = value + 18446744073709551616) := by
  have number : (subject s.bytes).digits ≠ [] → (strtoul s).1 = (subject s.bytes).ulong := by
    intro some
    simp only [strtoul, if_neg some]
  have number_iff := ulong_eq_iff (subject s.bytes) v pos small
  rw [← and_assoc, strtoul_end]
  constructor
  · rintro ⟨⟨some, whole⟩, read⟩
    rw [number some] at read
    exact ⟨_, (numeral_iff s.bytes _).mpr ⟨some, whole, rfl⟩, number_iff.mp read⟩
  · rintro ⟨value, numeral, same⟩
    obtain ⟨some, whole, rfl⟩ := (numeral_iff s.bytes value).mp numeral
    exact ⟨⟨some, whole⟩, (number some).trans (number_iff.mpr same)⟩

example : strtoul ⟨ascii " -1x", by decide⟩ = (18446744073709551615, 3) ∧
    strtoul ⟨ascii "+", by decide⟩ = (0, 0) ∧
    strtoul ⟨ascii "18446744073709551616", by decide⟩ = (18446744073709551615, 20) := by decide

end SportsPubSub.Lib.Strtoul
