/-
  KFsw.Lib.LittleEndian — fixed-width little-endian integers over byte lists.

  `leBytes n v` writes the low `n` bytes of `v`, least significant first, and
  `leNat` reads a byte string back; it is Mathlib's `Nat.ofDigits` in base 256.

  Main results:
    * `leNat_leBytes`  — reading what was written gives the value, if it fits;
    * `leBytes_leNat`  — and what is read is written the same again;
    * `leField_append` — a field past a prefix.
-/
import KFsw.Lib.Bytes

namespace KFsw.Lib

/-- The low `n` bytes of `v`, least significant first. -/
def leBytes : Nat → Nat → Bytes
  | 0, _ => []
  | n + 1, v => UInt8.ofNat v :: leBytes n (v / 256)

/-- The natural number a byte string spells, least significant byte first. -/
def leNat (bs : Bytes) : Nat := Nat.ofDigits 256 (bs.map UInt8.toNat)

/-- The unsigned little-endian field of `width` bytes at `offset`. -/
def leField (bs : Bytes) (offset width : Nat) : Nat := leNat ((bs.drop offset).take width)

theorem leBytes_length (n v : Nat) : (leBytes n v).length = n := by
  induction n generalizing v with
  | zero => rfl
  | succ n ih => exact congrArg (· + 1) (ih (v / 256))

theorem leNat_cons (b : UInt8) (bs : Bytes) : leNat (b :: bs) = b.toNat + 256 * leNat bs := by
  show Nat.ofDigits 256 (b.toNat :: bs.map UInt8.toNat) = _
  rw [Nat.ofDigits_cons]
  rfl

theorem leNat_lt (bs : Bytes) : leNat bs < 256 ^ bs.length := by
  induction bs with
  | nil => exact Nat.one_pos
  | cons b bs ih =>
    have hb := b.toNat_lt
    rw [leNat_cons, List.length_cons, pow_succ]
    omega

/-- **Reading what was written** gives the value. -/
theorem leNat_leBytes {n v : Nat} (h : v < 256 ^ n) : leNat (leBytes n v) = v := by
  induction n generalizing v with
  | zero =>
    rw [pow_zero] at h
    exact (Nat.lt_one_iff.mp h).symm
  | succ n ih =>
    have hrest : v / 256 < 256 ^ n := by
      rw [pow_succ] at h
      omega
    have hbyte : (UInt8.ofNat v).toNat = v % 256 := UInt8.toNat_ofNat'
    show leNat (UInt8.ofNat v :: leBytes n (v / 256)) = v
    rw [leNat_cons, ih hrest, hbyte]
    omega

/-- **What is read is written the same again.** -/
theorem leBytes_leNat (bs : Bytes) : leBytes bs.length (leNat bs) = bs := by
  induction bs with
  | nil => rfl
  | cons b bs ih =>
    have hb := b.toNat_lt
    show UInt8.ofNat (leNat (b :: bs)) :: leBytes bs.length (leNat (b :: bs) / 256) = b :: bs
    have hhead : UInt8.ofNat (leNat (b :: bs)) = b := by
      rw [← UInt8.toNat_inj, UInt8.toNat_ofNat', leNat_cons]
      omega
    have htail : leNat (b :: bs) / 256 = leNat bs := by
      rw [leNat_cons]
      omega
    rw [hhead, htail, ih]

/-- A field past a prefix is a field of what follows the prefix. -/
theorem leField_append (a b : Bytes) (offset width : Nat) :
    leField (a ++ b) (a.length + offset) width = leField b offset width := by
  rw [leField, leField, ← List.drop_drop, List.drop_left]

/-- A field in front of everything else. -/
theorem leField_leBytes {n v : Nat} (h : v < 256 ^ n) (b : Bytes) :
    leField (leBytes n v ++ b) 0 n = v := by
  rw [leField, List.drop_zero, List.take_left' (leBytes_length n v), leNat_leBytes h]

/-- The bytes of a field that is there. -/
theorem leBytes_leField (bs : Bytes) (offset width : Nat) (h : offset + width ≤ bs.length) :
    leBytes width (leField bs offset width) = (bs.drop offset).take width := by
  have hlength : ((bs.drop offset).take width).length = width := by
    rw [List.length_take, List.length_drop]
    omega
  have hbytes := leBytes_leNat ((bs.drop offset).take width)
  rwa [hlength] at hbytes

end KFsw.Lib
