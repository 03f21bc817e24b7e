import Mathlib.Data.List.DropRight

/-!
# C text and IPv4 addresses

The part of the C library and of the POSIX socket types that the programs rest
on. A C string is the list of its bytes before the terminating NUL; a `char`
buffer is a longer byte list of which `text` is the string it holds. Only the
documented behaviour is modelled, with no memory layout.
-/
namespace SportsPubSub.Lib.Posix

abbrev Bytes := List UInt8

/-- `struct sockaddr_in`, in network order; `sin_zero` is never compared. -/
structure SockaddrIn where
  sinFamily : UInt16
  sinAddr : UInt32
  sinPort : UInt16
  deriving DecidableEq, Repr

/-- `AF_INET`, the family that `recvfrom` stores for every IPv4 sender. -/
def afInet : UInt16 := 2

/-- The bytes of an ASCII literal. -/
def ascii (s : String) : Bytes := s.toList.map fun c => UInt8.ofNat c.toNat

/-- The C string held by a buffer: everything before the first NUL. -/
def text (buf : Bytes) : Bytes := buf.takeWhile (· != 0)

/-- `strcmp(a, b) == 0`. -/
def strcmpEq (a b : Bytes) : Bool := a == b

/-- `strncmp(a, b, n) == 0`: both strings agree on their first `n` characters. -/
def strncmpEq (a b : Bytes) (n : Nat) : Bool := a.take n == b.take n

/-- `strchr(s, c)` as an offset, `none` for the null pointer. -/
def strchr (s : Bytes) (c : UInt8) : Option Nat := s.findIdx? (· == c)

/-- `strstr(s, literal)` as an offset, `none` for the null pointer. -/
def strstr (literal : Bytes) : Bytes → Option Nat
  | [] => if literal = [] then some 0 else none
  | c :: rest =>
      if literal.isPrefixOf (c :: rest) then some 0 else (strstr literal rest).map (· + 1)

/-- `strcspn(s, reject)`: the length of the initial part without such characters. -/
def strcspn (s : Bytes) (reject : UInt8 → Bool) : Nat := s.findIdx reject

/-- `snprintf(buf, size, ...)` of an already formatted text: the string left in
the buffer and the length the whole text would have had. -/
def snprintf (size : Nat) (formatted : Bytes) : Bytes × Nat :=
  (formatted.take (size - 1), formatted.length)

/-- The `n` bytes that `strncpy(dst, src, n)` stores: the string cut at `n`
characters and filled up with NULs. -/
def strncpy (n : Nat) (src : Bytes) : Bytes :=
  (text src).take n ++ List.replicate (n - ((text src).take n).length) 0

/-- Position reached by `while (n > 0 && p(s[n - 1])) n--`. -/
def scanEnd (p : UInt8 → Bool) (s : Bytes) : Nat → Nat
  | 0 => 0
  | n + 1 =>
      match s[n]? with
      | some c => if p c then scanEnd p s n else n + 1
      | none => n + 1

theorem mem_text_ne_zero (buf : Bytes) (c : UInt8) (h : c ∈ text buf) : c ≠ 0 := by
  simpa using List.mem_takeWhile_imp h

theorem strcmpEq_iff (a b : Bytes) : strcmpEq a b = true ↔ a = b := by
  simp [strcmpEq]

/-- With the literal's own length, `strncmp` is a test for a leading literal. -/
theorem strncmpEq_length (s lit : Bytes) :
    strncmpEq s lit lit.length = true ↔ s.take lit.length = lit := by
  simp [strncmpEq]

/-- A string without NUL is its own text. -/
theorem text_of_nul_free (s : Bytes) (h : 0 ∉ s) : text s = s := by
  rw [text, List.takeWhile_eq_self_iff]
  intro c hc
  simp only [bne_iff_ne, ne_eq]
  rintro rfl
  exact h hc

/-- A NUL ends the string, whatever follows it. -/
theorem text_append_nul_cons (s rest : Bytes) : text (s ++ 0 :: rest) = text s := by
  unfold text
  rw [List.takeWhile_append]
  split
  · next whole =>
    have all : s.takeWhile (· != 0) = s := (List.takeWhile_prefix _).eq_of_length whole
    simp [all]
  · rfl

theorem strchr_append (t b : Bytes) (c : UInt8) (h : c ∉ t) :
    strchr (t ++ c :: b) c = some t.length := by
  rw [strchr, List.findIdx?_eq_some_iff_getElem]
  refine ⟨by simp, by simp, ?_⟩
  intro j hj
  rw [List.getElem_append_left hj]
  simp only [beq_iff_eq]
  intro heq
  exact h (heq ▸ List.getElem_mem hj)

theorem strchr_none_iff (s : Bytes) (c : UInt8) : strchr s c = none ↔ c ∉ s := by
  simp only [strchr, List.findIdx?_eq_none_iff, beq_eq_false_iff_ne]
  constructor
  · intro h hc
    exact h c hc rfl
  · intro h x hx heq
    exact h (heq ▸ hx)

/-- A found literal lies inside the string. -/
theorem strstr_inside (literal s : Bytes) (k : Nat) (h : strstr literal s = some k) :
    k + literal.length ≤ s.length := by
  induction s generalizing k with
  | nil =>
    simp only [strstr, Option.ite_none_right_eq_some, Option.some.injEq] at h
    obtain ⟨rfl, rfl⟩ := h
    simp
  | cons c rest ih =>
    unfold strstr at h
    split at h
    · next here =>
      cases h
      have bound := (List.isPrefixOf_iff_prefix.mp here).length_le
      omega
    · obtain ⟨j, later, rfl⟩ := Option.map_eq_some_iff.mp h
      have bound := ih j later
      rw [List.length_cons]
      omega

/-- The scan from the end removes exactly the trailing characters of class `p`. -/
theorem take_scanEnd (p : UInt8 → Bool) (s : Bytes) (n : Nat) (hn : n ≤ s.length) :
    s.take (scanEnd p s n) = (s.take n).rdropWhile p := by
  induction n with
  | zero => simp [scanEnd]
  | succ n ih =>
    have hlt : n < s.length := hn
    rw [List.take_succ_eq_append_getElem hlt, List.rdropWhile_concat]
    simp only [scanEnd, List.getElem?_eq_getElem hlt]
    split
    · exact ih (by omega)
    · exact List.take_succ_eq_append_getElem hlt

@[simp] theorem length_strncpy (n : Nat) (src : Bytes) : (strncpy n src).length = n := by
  simp only [strncpy, List.length_append, List.length_replicate, List.length_take]
  omega

/-- `strncpy` reads its source only up to the first NUL and at most `n` bytes. -/
theorem strncpy_congr (n : Nat) (a b : Bytes) (same : (text a).take n = (text b).take n) :
    strncpy n a = strncpy n b := by
  rw [strncpy, strncpy, same]

/-- Reading the stored string back gives the copied characters. -/
theorem text_strncpy (n : Nat) (src : Bytes) : text (strncpy n src) = (text src).take n := by
  have chars : ∀ c ∈ (text src).take n, (c != 0) = true := by
    intro c hc
    simpa using mem_text_ne_zero src c (List.mem_of_mem_take hc)
  rw [text, strncpy, List.takeWhile_append_of_pos chars, List.takeWhile_replicate]
  simp

/-- A NUL appended to a buffer does not change its string. -/
theorem text_append_nul (buf : Bytes) : text (buf ++ [0]) = text buf :=
  text_append_nul_cons buf []

theorem snprintf_fits (size : Nat) (formatted : Bytes) (h : formatted.length < size) :
    snprintf size formatted = (formatted, formatted.length) := by
  rw [snprintf, List.take_of_length_le (by omega)]

end SportsPubSub.Lib.Posix
