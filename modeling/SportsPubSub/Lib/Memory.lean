import SportsPubSub.Lib.LittleEndian

/-!
# Bounded memory regions and 32-bit registers

Byte-addressed regions of a fixed size for programs given as machine code. Every
access is checked: one that leaves the region gives `none`, so a result `some`
also says that nothing outside was touched. Facts about contents are all of the
form `Holds`, and a store keeps those away from the bytes it writes.
-/
namespace SportsPubSub.Lib.Memory
open Posix LittleEndian

/-- `size` consecutive bytes. -/
structure Region (size : Nat) where
  bytes : Bytes
  size_eq : bytes.length = size

namespace Region
variable {size : Nat}

/-- The `len` bytes at an offset. -/
def load (m : Region size) (off len : Nat) : Option Bytes :=
  if off + len ≤ size then some ((m.bytes.drop off).take len) else none

/-- Overwrite the bytes from an offset on. -/
def store (m : Region size) (off : Nat) (new : Bytes) : Option (Region size) :=
  if room : off + new.length ≤ size then
    some ⟨m.bytes.take off ++ (new ++ m.bytes.drop (off + new.length)), by
      have whole := m.size_eq
      simp only [List.length_append, List.length_take, List.length_drop]
      omega⟩
  else none

/-- A one-byte load. -/
def byte (m : Region size) (off : Nat) : Option UInt8 := m.bytes[off]?

/-- The C string at an offset; a scan that runs out of the region is a fault. -/
def string (m : Region size) (off : Nat) : Option Bytes :=
  if (0 : UInt8) ∈ m.bytes.drop off then some (text (m.bytes.drop off)) else none

/-- A 16-bit load. -/
def half (m : Region size) (off : Nat) : Option UInt16 :=
  (m.load off 2).map fun bytes => UInt16.ofNat (leNat bytes)

/-- A 32-bit load. -/
def word (m : Region size) (off : Nat) : Option UInt32 :=
  (m.load off 4).map fun bytes => UInt32.ofNat (leNat bytes)

/-- `snprintf(dst, limit, ...)` of an already formatted text, with the value it
returns. -/
def snprintf (m : Region size) (dst limit : Nat) (formatted : Bytes) :
    Option (Region size × Nat) :=
  (m.store dst ((Posix.snprintf limit formatted).1 ++ [0])).map fun m =>
    (m, (Posix.snprintf limit formatted).2)

/-- The bytes at an offset. -/
def Holds (m : Region size) (off : Nat) (bytes : Bytes) : Prop :=
  m.load off bytes.length = some bytes

variable {m m' : Region size} {off : Nat} {bytes : Bytes}

theorem holds_iff (m : Region size) (off : Nat) (bytes : Bytes) :
    m.Holds off bytes ↔ off + bytes.length ≤ size ∧
      ∀ k, k < bytes.length → m.bytes[off + k]? = bytes[k]? := by
  have whole := m.size_eq
  simp only [Holds, load]
  constructor
  · intro h
    split at h
    · next room =>
      refine ⟨room, ?_⟩
      intro k hk
      have same := Option.some.inj h
      rw [← List.getElem?_drop, ← List.getElem?_take_of_lt hk, same]
    · cases h
  · rintro ⟨room, same⟩
    rw [if_pos room, Option.some.injEq]
    apply List.ext_getElem?
    intro k
    by_cases hk : k < bytes.length
    · rw [List.getElem?_take_of_lt hk, List.getElem?_drop, same k hk]
    · rw [List.getElem?_eq_none, List.getElem?_eq_none]
      · omega
      · simp only [List.length_take, List.length_drop]
        omega

theorem Holds.room (h : m.Holds off bytes) : off + bytes.length ≤ size :=
  ((holds_iff m off bytes).mp h).1

theorem Holds.load (h : m.Holds off bytes) (len : Nat) (exactly : bytes.length = len) :
    m.load off len = some bytes := exactly ▸ h

/-- Adjacent contents are one content. -/
theorem holds_append (m : Region size) (off : Nat) (front back : Bytes) :
    m.Holds off (front ++ back) ↔ m.Holds off front ∧ m.Holds (off + front.length) back := by
  simp only [holds_iff, List.length_append]
  constructor
  · rintro ⟨room, same⟩
    refine ⟨⟨by omega, ?_⟩, by omega, ?_⟩
    · intro k hk
      rw [same k (by omega), List.getElem?_append_left hk]
    · intro k hk
      rw [Nat.add_assoc, same (front.length + k) (by omega),
        List.getElem?_append_right (by omega)]
      congr 1
      omega
  · rintro ⟨⟨roomFront, sameFront⟩, roomBack, sameBack⟩
    refine ⟨by omega, ?_⟩
    intro k hk
    by_cases inFront : k < front.length
    · rw [sameFront k inFront, List.getElem?_append_left inFront]
    · have here := sameBack (k - front.length) (by omega)
      rw [List.getElem?_append_right (by omega), ← here]
      congr 1
      omega

/-- One byte after a store: the new one inside the range, the old one outside. -/
theorem getElem?_store {new : Bytes} (stored : m.store off new = some m') (j : Nat) :
    m'.bytes[j]? = if off ≤ j ∧ j < off + new.length then new[j - off]? else m.bytes[j]? := by
  have whole := m.size_eq
  unfold store at stored
  split at stored
  · next room =>
    cases stored
    have front : (m.bytes.take off).length = off := by
      rw [List.length_take]
      omega
    by_cases before : j < off
    · rw [if_neg (by omega), List.getElem?_append_left (by omega),
        List.getElem?_take_of_lt before]
    · rw [List.getElem?_append_right (by omega), front]
      by_cases inside : j < off + new.length
      · rw [if_pos ⟨by omega, inside⟩, List.getElem?_append_left (by omega)]
      · rw [if_neg (by omega), List.getElem?_append_right (by omega), List.getElem?_drop]
        congr 1
        omega
  · cases stored

theorem store_room {new : Bytes} (stored : m.store off new = some m') :
    off + new.length ≤ size := by
  unfold store at stored
  split at stored
  · assumption
  · cases stored

/-- What was stored is there. -/
theorem holds_store {new : Bytes} (stored : m.store off new = some m') : m'.Holds off new := by
  rw [holds_iff]
  refine ⟨store_room stored, ?_⟩
  intro k hk
  rw [getElem?_store stored, if_pos ⟨by omega, by omega⟩, Nat.add_sub_cancel_left]

/-- The frame rule: contents away from the written bytes stay. -/
theorem Holds.store {new : Bytes} {at' : Nat} (h : m.Holds off bytes)
    (stored : m.store at' new = some m')
    (apart : off + bytes.length ≤ at' ∨ at' + new.length ≤ off) : m'.Holds off bytes := by
  rw [holds_iff] at h ⊢
  refine ⟨h.1, ?_⟩
  intro k hk
  rw [getElem?_store stored, if_neg (by omega), h.2 k hk]

/-- A piece of a program writes between two offsets only. -/
def KeptOutside (lo hi : Nat) (m m' : Region size) : Prop :=
  ∀ off bytes, m.Holds off bytes → off + bytes.length ≤ lo ∨ hi ≤ off → m'.Holds off bytes

theorem keptOutside_refl (lo hi : Nat) (m : Region size) : KeptOutside lo hi m m :=
  fun _ _ h _ => h

theorem KeptOutside.trans {lo hi : Nat} {m m' m'' : Region size} (first : KeptOutside lo hi m m')
    (second : KeptOutside lo hi m' m'') : KeptOutside lo hi m m'' :=
  fun off bytes h apart => second off bytes (first off bytes h apart) apart

theorem KeptOutside.widen {lo hi lo' hi' : Nat} {m m' : Region size}
    (kept : KeptOutside lo hi m m') (below : lo' ≤ lo) (above : hi ≤ hi') :
    KeptOutside lo' hi' m m' := by
  intro off bytes h apart
  exact kept off bytes h (by omega)

theorem keptOutside_store {new : Bytes} (stored : m.store off new = some m') :
    KeptOutside off (off + new.length) m m' :=
  fun _ _ h apart => h.store stored apart

/-- A store inside the region succeeds, and this is all it does. -/
theorem store_spec (m : Region size) (off : Nat) (new : Bytes) (room : off + new.length ≤ size) :
    ∃ m', m.store off new = some m' ∧ m'.Holds off new ∧
      KeptOutside off (off + new.length) m m' := by
  obtain ⟨m', stored⟩ : ∃ m', m.store off new = some m' := by
    rw [Region.store, dif_pos room]
    exact ⟨_, rfl⟩
  exact ⟨m', stored, holds_store stored, keptOutside_store stored⟩

/-- A call of `snprintf` with the size of a buffer inside the region. -/
theorem snprintf_spec (m : Region size) (dst limit : Nat) (formatted : Bytes)
    (room : dst + limit ≤ size) (positive : 0 < limit) :
    ∃ m', m.snprintf dst limit formatted = some (m', formatted.length) ∧
      m'.Holds dst (formatted.take (limit - 1) ++ [0]) ∧ KeptOutside dst (dst + limit) m m' := by
  have len : (formatted.take (limit - 1) ++ [0]).length ≤ limit := by
    simp only [List.length_append, List.length_take, List.length_singleton]
    omega
  obtain ⟨m', stored, holds, kept⟩ :=
    m.store_spec dst (formatted.take (limit - 1) ++ [0]) (by omega)
  refine ⟨m', ?_, holds, kept.widen (by omega) (by omega)⟩
  simp only [snprintf, Posix.snprintf, stored, Option.map_some]

theorem append_nul_eq (s : Bytes) : ∃ rest, s ++ [0] = text s ++ [0] ++ rest := by
  induction s with
  | nil => exact ⟨[], rfl⟩
  | cons c s ih =>
    by_cases nul : c = 0
    · exact ⟨s ++ [0], by simp [text, nul]⟩
    · obtain ⟨rest, split⟩ := ih
      refine ⟨rest, ?_⟩
      have front : text (c :: s) = c :: text s := by simp [text, nul]
      rw [front, List.cons_append, split]
      rfl

/-- A NUL in memory ends a string, which is there with its NUL. -/
theorem holds_text {s : Bytes} (h : m.Holds off (s ++ [0])) : m.Holds off (text s ++ [0]) := by
  obtain ⟨rest, split⟩ := append_nul_eq s
  rw [split, holds_append] at h
  exact h.1

/-- A terminated string is read back. -/
theorem string_of_holds {s : Bytes} (h : m.Holds off (s ++ [0])) (free : 0 ∉ s) :
    m.string off = some s := by
  obtain ⟨room, -⟩ := (holds_iff _ _ _).mp h
  have front : (m.bytes.drop off).take (s ++ [0]).length = s ++ [0] := by
    simpa only [Holds, Region.load, if_pos room, Option.some.injEq] using h
  have split : m.bytes.drop off = s ++ 0 :: (m.bytes.drop off).drop (s ++ [0]).length := by
    conv_lhs => rw [← List.take_append_drop (s ++ [0]).length (m.bytes.drop off), front]
    simp
  rw [string, if_pos, split, text_append_nul_cons, text_of_nul_free s free]
  rw [split]
  exact List.mem_append_right _ List.mem_cons_self

/-- A C string in memory. -/
def StringHolds (m : Region size) (off : Nat) (s : Bytes) : Prop :=
  m.Holds off (s ++ [0]) ∧ 0 ∉ s

theorem StringHolds.string {s : Bytes} (h : m.StringHolds off s) : m.string off = some s :=
  string_of_holds h.1 h.2

theorem StringHolds.keep {lo hi : Nat} {s : Bytes} (h : m.StringHolds off s)
    (kept : KeptOutside lo hi m m') (apart : off + s.length < lo ∨ hi ≤ off) :
    m'.StringHolds off s := by
  refine ⟨kept _ _ h.1 ?_, h.2⟩
  simp only [List.length_append, List.length_singleton]
  omega

theorem StringHolds.room {s : Bytes} (h : m.StringHolds off s) : off + s.length < size := by
  have room := h.1.room
  rw [List.length_append, List.length_singleton] at room
  omega

/-- The rest of a string from an offset in it. -/
theorem StringHolds.drop {s : Bytes} (h : m.StringHolds off s) (k : Nat)
    (inside : k ≤ s.length) : m.StringHolds (off + k) (s.drop k) := by
  have split : s ++ [0] = s.take k ++ (s.drop k ++ [0]) := by
    rw [← List.append_assoc, List.take_append_drop]
  have held := h.1
  rw [split, holds_append, List.length_take, Nat.min_eq_left inside] at held
  exact ⟨held.2, fun nul => h.2 (List.mem_of_mem_drop nul)⟩

/-- The first byte of a string tells whether it is empty. -/
theorem StringHolds.byte {s : Bytes} (h : m.StringHolds off s) :
    ∃ c, m.byte off = some c ∧ (c = 0 ↔ s = []) := by
  obtain ⟨held, free⟩ := h
  have first := ((holds_iff _ _ _).mp held).2 0 (by simp)
  cases s with
  | nil => exact ⟨0, first, by simp⟩
  | cons c rest =>
    refine ⟨c, first, ?_⟩
    simp only [List.mem_cons, not_or] at free
    simp only [reduceCtorEq, iff_false]
    intro nul
    exact free.1 nul.symm

/-- A store of a text with its NUL. -/
theorem store_string (m : Region size) (off : Nat) (s : Bytes) (room : off + s.length < size)
    (free : 0 ∉ s) :
    ∃ m', m.store off (s ++ [0]) = some m' ∧ m'.StringHolds off s ∧
      KeptOutside off (off + s.length + 1) m m' := by
  have len : (s ++ [0]).length = s.length + 1 := by
    rw [List.length_append, List.length_singleton]
  obtain ⟨m', stored, held, kept⟩ := m.store_spec off (s ++ [0]) (by omega)
  rw [len] at kept
  exact ⟨m', stored, ⟨held, free⟩, kept⟩

/-- `snprintf` leaves the text cut to the buffer. -/
theorem snprintf_string (m : Region size) (dst limit : Nat) (formatted : Bytes)
    (room : dst + limit ≤ size) (positive : 0 < limit) (free : 0 ∉ formatted) :
    ∃ m', m.snprintf dst limit formatted = some (m', formatted.length) ∧
      m'.StringHolds dst (formatted.take (limit - 1)) ∧ KeptOutside dst (dst + limit) m m' := by
  obtain ⟨m', printed, held, kept⟩ := m.snprintf_spec dst limit formatted room positive
  exact ⟨m', printed, ⟨held, fun nul => free (List.mem_of_mem_take nul)⟩, kept⟩

theorem word_of_holds {w : UInt32} (h : m.Holds off (wordBytes w)) : m.word off = some w := by
  have bound : w.toNat < 256 ^ 4 := w.toNat_lt
  rw [word, h.load 4 (length_wordBytes w), Option.map_some, wordBytes,
    leNat_leBytes 4 _ bound, UInt32.ofNat_toNat]

theorem half_of_holds {w : UInt16} (h : m.Holds off (leBytes 2 w.toNat)) :
    m.half off = some w := by
  have bound : w.toNat < 256 ^ 2 := w.toNat_lt
  rw [half, h.load 2 (length_leBytes 2 _), Option.map_some, leNat_leBytes 2 _ bound,
    UInt16.ofNat_toNat]

theorem byte_of_holds {b : UInt8} (h : m.Holds off [b]) : m.byte off = some b := by
  simpa [byte] using ((holds_iff _ _ _).mp h).2 0 (by simp)

end Region

/-- `struct sockaddr_in` as it lies in memory: family, port, address and eight
bytes that no program reads. -/
def sockaddrBytes (a : SockaddrIn) (sinZero : Bytes) : Bytes :=
  leBytes 2 a.sinFamily.toNat ++ leBytes 2 a.sinPort.toNat ++ wordBytes a.sinAddr ++ sinZero

theorem length_sockaddrBytes (a : SockaddrIn) (sinZero : Bytes) :
    (sockaddrBytes a sinZero).length = 8 + sinZero.length := by
  simp only [sockaddrBytes, List.length_append, length_leBytes, length_wordBytes]

/-- The address that a call reads through a `struct sockaddr *`. -/
def Region.sockaddr {size : Nat} (m : Region size) (off : Nat) : Option SockaddrIn := do
  let sinFamily ← m.half off
  let sinPort ← m.half (off + 2)
  let sinAddr ← m.word (off + 4)
  return { sinFamily, sinAddr, sinPort }

/-- The three fields that the programs compare. -/
theorem Region.fields_of_holds {size : Nat} {m : Region size} {off : Nat} {a : SockaddrIn}
    {sinZero : Bytes} (h : m.Holds off (sockaddrBytes a sinZero)) :
    m.half off = some a.sinFamily ∧ m.half (off + 2) = some a.sinPort ∧
      m.word (off + 4) = some a.sinAddr := by
  simp only [sockaddrBytes, holds_append, List.length_append, length_leBytes,
    length_wordBytes] at h
  obtain ⟨⟨⟨family, port⟩, addr⟩, -⟩ := h
  exact ⟨half_of_holds family, half_of_holds port, word_of_holds addr⟩

theorem Region.sockaddr_of_holds {size : Nat} {m : Region size} {off : Nat} {a : SockaddrIn}
    {sinZero : Bytes} (h : m.Holds off (sockaddrBytes a sinZero)) : m.sockaddr off = some a := by
  obtain ⟨family, port, addr⟩ := fields_of_holds h
  rw [sockaddr, family, port, addr]
  rfl

/-- A register as `jle`, `jg`, `jl`, `js` and `jns` see it. -/
def signed (w : UInt32) : Int := if w.toNat < 2147483648 then w.toNat else w.toNat - 4294967296

theorem toNat_ofNat (i : Nat) (small : i < 2147483648) : (UInt32.ofNat i).toNat = i := by
  rw [UInt32.toNat_ofNat', Nat.mod_eq_of_lt (by omega)]

theorem signed_ofNat (i : Nat) (small : i < 2147483648) : signed (UInt32.ofNat i) = i := by
  rw [signed, toNat_ofNat i small, if_pos small]

theorem ofNat_succ (i : Nat) : UInt32.ofNat i + 1 = UInt32.ofNat (i + 1) :=
  (UInt32.ofNat_add i 1).symm

theorem ofNat_inj (i j : Nat) (hi : i < 2147483648) (hj : j < 2147483648) :
    UInt32.ofNat i = UInt32.ofNat j ↔ i = j := by
  rw [← UInt32.toNat_inj, toNat_ofNat i hi, toNat_ofNat j hj]

end SportsPubSub.Lib.Memory
