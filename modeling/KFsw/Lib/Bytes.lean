/-
  KFsw.Lib.Bytes — fixed-width big-endian integers over byte lists.

  `beBytes n v` writes the low `n` bytes of `v`, most significant first, and
  `beNat` reads a byte string back.  `beNat` is Mathlib's `Nat.ofDigits` in base
  256, so the bounds and the concatenation law come from there.

  Main results:
    * `beNat_beBytes`  — reading what was written gives the value modulo the width;
    * `beNat_append`   — a concatenation is a shift and a sum;
    * `lor_eq_add`     — an OR of disjoint bit fields is their sum;
    * `beField`        — the field of a record at a byte offset;
    * `beBits_bytes`   — a bit field that starts and ends on bytes is such a field.
-/
import Mathlib.Data.Nat.Digits.Defs
import Mathlib.Tactic.Ring

namespace KFsw.Lib

/-- A byte string. -/
abbrev Bytes := List UInt8

/-! ## §1. Writing and reading. -/

/-- The low `n` bytes of `v`, most significant first. -/
def beBytes : Nat → Nat → Bytes
  | 0, _ => []
  | n + 1, v => beBytes n (v / 256) ++ [UInt8.ofNat v]

/-- The natural number a byte string spells, most significant byte first. -/
def beNat (bs : Bytes) : Nat :=
  Nat.ofDigits 256 (bs.reverse.map UInt8.toNat)

@[simp] theorem beBytes_length (n v : Nat) : (beBytes n v).length = n := by
  induction n generalizing v with
  | zero => rfl
  | succ n ih => simp [beBytes, ih]

@[simp] theorem beNat_nil : beNat [] = 0 := rfl

@[simp] theorem beNat_singleton (b : UInt8) : beNat [b] = b.toNat := by
  simp [beNat]

/-- **A concatenation is a shift and a sum.** -/
theorem beNat_append (a b : Bytes) :
    beNat (a ++ b) = beNat a * 256 ^ b.length + beNat b := by
  unfold beNat
  rw [List.reverse_append, List.map_append, Nat.ofDigits_append]
  simp only [List.length_map, List.length_reverse]
  ring

theorem beNat_cons (b : UInt8) (bs : Bytes) :
    beNat (b :: bs) = b.toNat * 256 ^ bs.length + beNat bs := by
  rw [show b :: bs = [b] ++ bs from rfl, beNat_append, beNat_singleton]

theorem beNat_lt (bs : Bytes) : beNat bs < 256 ^ bs.length := by
  have h := Nat.ofDigits_lt_base_pow_length (b := 256) (l := bs.reverse.map UInt8.toNat)
    (by norm_num) (by
      intro x hx
      obtain ⟨b, _, rfl⟩ := List.mem_map.mp hx
      exact b.toNat_lt)
  simpa [beNat] using h

/-! ## §2. The round trip. -/

/-- **Reading what was written** gives the value modulo the width. -/
theorem beNat_beBytes (n v : Nat) : beNat (beBytes n v) = v % 256 ^ n := by
  induction n generalizing v with
  | zero => simp [beBytes, Nat.mod_one]
  | succ n ih =>
    have hbyte : (UInt8.ofNat v).toNat = v % 256 := UInt8.toNat_ofNat'
    rw [beBytes, beNat_append, ih, beNat_singleton, List.length_singleton, pow_one, hbyte,
      pow_succ, Nat.mul_comm (256 ^ n) 256, Nat.mod_mul]
    omega

theorem beNat_beBytes_of_lt {n v : Nat} (h : v < 256 ^ n) : beNat (beBytes n v) = v := by
  rw [beNat_beBytes, Nat.mod_eq_of_lt h]

/-! ## §3. Bit fields. -/

/-- An OR of two fields that do not overlap is their sum. -/
theorem lor_eq_add (x y i : Nat) (hx : x % 2 ^ i = 0) (hy : y < 2 ^ i) :
    x ||| y = x + y := by
  obtain ⟨k, rfl⟩ := Nat.dvd_of_mod_eq_zero hx
  exact (Nat.two_pow_add_eq_or_of_lt hy k).symm

/-- A mask of the low `i` bits is a remainder. -/
theorem and_mask (x i : Nat) : x &&& (2 ^ i - 1) = x % 2 ^ i :=
  Nat.and_two_pow_sub_one_eq_mod x i

/-! ## §4. Fields at an offset. -/

/-- The unsigned big-endian field of `width` bytes at `offset`. -/
def beField (bs : Bytes) (offset width : Nat) : Nat :=
  beNat ((bs.drop offset).take width)

theorem beField_lt (bs : Bytes) (offset width : Nat) : beField bs offset width < 256 ^ width :=
  Nat.lt_of_lt_of_le (beNat_lt _)
    (Nat.pow_le_pow_right (by decide) (List.length_take_le _ _))

/-- A field past a prefix is a field of what follows the prefix. -/
theorem beField_append (a b : Bytes) (offset width : Nat) :
    beField (a ++ b) (a.length + offset) width = beField b offset width := by
  rw [beField, beField, ← List.drop_drop, List.drop_left]

/-- The field of one chunk among others put one behind the other. -/
theorem beField_flatten (before : Bytes) {chunks : List Bytes} {i : Nat} {chunk : Bytes}
    (h : chunks[i]? = some chunk) :
    beField (before ++ chunks.flatten) (before.length + ((chunks.take i).map List.length).sum)
        chunk.length = beNat chunk := by
  obtain ⟨hi, rfl⟩ := List.getElem?_eq_some_iff.mp h
  have hsplit : chunks.flatten
      = (chunks.take i).flatten ++ (chunks[i] ++ (chunks.drop (i + 1)).flatten) := by
    conv_lhs => rw [← List.take_append_drop i chunks, List.drop_eq_getElem_cons hi]
    rw [List.flatten_append, List.flatten_cons]
  have hlength : ((chunks.take i).map List.length).sum = (chunks.take i).flatten.length :=
    List.length_flatten.symm
  rw [beField_append, beField, hsplit, hlength, List.drop_left, List.take_left]

/-- A one-byte field is the byte. -/
theorem beField_one (bs : Bytes) (offset : Nat) (h : offset < bs.length) :
    beField bs offset 1 = (bs.getD offset 0).toNat := by
  rw [beField, List.drop_eq_getElem_cons h, List.take_succ_cons, List.take_zero,
    beNat_singleton, List.getD_eq_getElem?_getD, List.getElem?_eq_getElem h, Option.getD_some]

/-! ## §5. Bit fields of a byte string. -/

/-- The `size` bits at bit `offset` of a byte string, the first bit of the first byte being
bit 0. -/
def beBits (bs : Bytes) (offset size : Nat) : Nat :=
  beNat bs / 2 ^ (8 * bs.length - offset - size) % 2 ^ size

/-- A bit field that starts and ends on bytes is the field of these bytes. -/
theorem beBits_bytes (bs : Bytes) (offset width : Nat) (h : offset + width ≤ bs.length) :
    beBits bs (8 * offset) (8 * width) = beField bs offset width := by
  -- split the bytes before, in and after the field
  have hsplit : bs = bs.take offset ++ ((bs.drop offset).take width
      ++ (bs.drop offset).drop width) := by
    rw [List.take_append_drop, List.take_append_drop]
  have hwidth : ((bs.drop offset).take width).length = width := by
    rw [List.length_take, List.length_drop]
    omega
  have hrest : ((bs.drop offset).drop width).length = bs.length - offset - width := by
    rw [List.length_drop, List.length_drop]
  have hval : beNat bs = (beNat (bs.take offset) * 256 ^ width + beField bs offset width)
      * 256 ^ (bs.length - offset - width) + beNat ((bs.drop offset).drop width) := by
    conv_lhs => rw [hsplit]
    rw [beNat_append, beNat_append, List.length_append, hwidth, hrest, beField]
    ring
  have hshift : 2 ^ (8 * bs.length - 8 * offset - 8 * width)
      = 256 ^ (bs.length - offset - width) := by
    rw [show 8 * bs.length - 8 * offset - 8 * width = 8 * (bs.length - offset - width) by omega,
      pow_mul]
    norm_num
  have hlow := beNat_lt ((bs.drop offset).drop width)
  rw [hrest] at hlow
  rw [beBits, hshift, hval, Nat.add_comm, Nat.add_mul_div_right _ _ (by positivity),
    Nat.div_eq_of_lt hlow, Nat.zero_add, show 2 ^ (8 * width) = 256 ^ width by
      rw [pow_mul]; norm_num, Nat.add_comm, Nat.add_mul_mod_self_right,
    Nat.mod_eq_of_lt (beField_lt _ _ _)]

end KFsw.Lib
