/-
  KFsw.Lib.Binary64 — finite binary64 numbers and their differences, and what is
  needed of a clock whose readings are such numbers.

  A finite double is the rational number it stands for.  A rational is rounded to
  53 bits, or to a multiple of `2 ^ -1074` below the normal range; a tie goes to
  the even multiplier.  Numbers too large for the format are not rounded to an
  infinity here.

  The difference of two readings is rounded, so it is not exact; it still never
  grows when a reading is closer.

  Main results:
    * `toEven_mono`, `round64_mono` — rounding keeps the order;
    * `round64_idem`           — what is rounded stays as it is;
    * `instClockDouble`        — doubles are readings of a clock, as are the
      elements of any ordered ring.
-/
import Mathlib.Data.Int.Log
import Mathlib.Data.Rat.Floor
import Mathlib.Algebra.Order.Ring.Int
import Mathlib.Tactic.Linarith
import Mathlib.Tactic.Positivity
import Mathlib.Tactic.Ring

namespace KFsw.Lib

/-! ## §1. To the nearest integer. -/

/-- The nearest integer, the even one of two. -/
def toEven (q : ℚ) : ℤ :=
  if q - ⌊q⌋ < 1 / 2 then ⌊q⌋
  else if 1 / 2 < q - ⌊q⌋ then ⌊q⌋ + 1
  else if ⌊q⌋ % 2 = 0 then ⌊q⌋
  else ⌊q⌋ + 1

theorem floor_le_toEven (q : ℚ) : ⌊q⌋ ≤ toEven q := by
  unfold toEven
  split_ifs <;> omega

theorem toEven_le_floor (q : ℚ) : toEven q ≤ ⌊q⌋ + 1 := by
  unfold toEven
  split_ifs <;> omega

theorem toEven_mono {p q : ℚ} (h : p ≤ q) : toEven p ≤ toEven q := by
  rcases (Int.floor_mono h).lt_or_eq with hlt | heq
  · exact (toEven_le_floor p).trans (hlt.trans_le (floor_le_toEven q))
  · -- both lie between the same integers
    unfold toEven
    rw [heq]
    split_ifs <;> first | omega | (exfalso; linarith)

@[simp] theorem toEven_intCast (n : ℤ) : toEven (n : ℚ) = n := by
  simp [toEven]

/-! ## §2. To 53 bits. -/

/-- The exponent of the last bit of a positive number. -/
def lastBit (x : ℚ) : ℤ := max (Int.log 2 x - 52) (-1074)

/-- A positive number, rounded. -/
def roundPos (x : ℚ) : ℚ := toEven (x / 2 ^ lastBit x) * 2 ^ lastBit x

/-- Rounding to the nearest double. -/
def round64 (x : ℚ) : ℚ := if 0 < x then roundPos x else -roundPos (-x)

theorem two_zpow_pos (e : ℤ) : (0 : ℚ) < 2 ^ e := zpow_pos two_pos e

theorem lastBit_mono {x y : ℚ} (hx : 0 < x) (h : x ≤ y) : lastBit x ≤ lastBit y :=
  max_le_max_right _ (sub_le_sub_right (Int.log_mono_right hx h) 52)

/-- A positive number has at most 53 bits in front of its last one. -/
theorem div_lastBit_lt (x : ℚ) : x / 2 ^ lastBit x < 2 ^ (53 : ℤ) := by
  rw [div_lt_iff₀ (two_zpow_pos _), ← zpow_add₀ two_ne_zero]
  have hlog : x < (2 : ℚ) ^ (Int.log 2 x + 1) := Int.lt_zpow_succ_log_self (b := 2) (by decide) x
  refine hlog.trans_le (zpow_le_zpow_right₀ one_le_two ?_)
  have := le_max_left (Int.log 2 x - 52) (-1074)
  unfold lastBit
  omega

/-- Above the smallest exponent it has 53. -/
theorem le_div_lastBit {x : ℚ} (hx : 0 < x) (h : -1074 < lastBit x) :
    2 ^ (52 : ℤ) ≤ x / 2 ^ lastBit x := by
  have hlog : lastBit x = Int.log 2 x - 52 := max_eq_left (by unfold lastBit at h; omega)
  rw [le_div_iff₀ (two_zpow_pos _), ← zpow_add₀ two_ne_zero, hlog]
  have hle : (2 : ℚ) ^ Int.log 2 x ≤ x := Int.zpow_log_le_self (b := 2) (by decide) hx
  rwa [show (52 : ℤ) + (Int.log 2 x - 52) = Int.log 2 x by ring]

theorem toEven_scaled_le (x : ℚ) : (toEven (x / 2 ^ lastBit x) : ℚ) ≤ 2 ^ (53 : ℤ) := by
  have h : x / 2 ^ lastBit x ≤ ((2 ^ 53 : ℤ) : ℚ) := by
    have := (div_lastBit_lt x).le
    norm_num at this ⊢
    exact this
  have hround := toEven_mono h
  rw [toEven_intCast] at hround
  calc (toEven (x / 2 ^ lastBit x) : ℚ) ≤ ((2 ^ 53 : ℤ) : ℚ) := Int.cast_le.mpr hround
    _ = 2 ^ (53 : ℤ) := by norm_num

theorem le_toEven_scaled {x : ℚ} (hx : 0 < x) (h : -1074 < lastBit x) :
    2 ^ (52 : ℤ) ≤ (toEven (x / 2 ^ lastBit x) : ℚ) := by
  have hle : ((2 ^ 52 : ℤ) : ℚ) ≤ x / 2 ^ lastBit x := by
    have := le_div_lastBit hx h
    norm_num at this ⊢
    exact this
  have hround := toEven_mono hle
  rw [toEven_intCast] at hround
  calc (2 : ℚ) ^ (52 : ℤ) = ((2 ^ 52 : ℤ) : ℚ) := by norm_num
    _ ≤ (toEven (x / 2 ^ lastBit x) : ℚ) := Int.cast_le.mpr hround

theorem toEven_nonneg {q : ℚ} (h : 0 ≤ q) : 0 ≤ toEven q := by
  have hround := toEven_mono (show ((0 : ℤ) : ℚ) ≤ q by simpa using h)
  rwa [toEven_intCast] at hround

theorem roundPos_nonneg {x : ℚ} (hx : 0 ≤ x) : 0 ≤ roundPos x :=
  mul_nonneg (Int.cast_nonneg (toEven_nonneg (div_nonneg hx (two_zpow_pos _).le)))
    (two_zpow_pos _).le

/-- **Rounding keeps the order**, also from one power of two to the next. -/
theorem roundPos_mono {x y : ℚ} (hx : 0 < x) (h : x ≤ y) : roundPos x ≤ roundPos y := by
  rcases (lastBit_mono hx h).lt_or_eq with hlt | heq
  · have hleast : -1074 ≤ lastBit x := le_max_right _ _
    have hy : 2 ^ (52 : ℤ) ≤ (toEven (y / 2 ^ lastBit y) : ℚ) :=
      le_toEven_scaled (hx.trans_le h) (hleast.trans_lt hlt)
    calc roundPos x ≤ 2 ^ (53 : ℤ) * 2 ^ lastBit x :=
          mul_le_mul_of_nonneg_right (toEven_scaled_le x) (two_zpow_pos _).le
      _ = 2 ^ (52 : ℤ) * 2 ^ (lastBit x + 1) := by
          rw [← zpow_add₀ two_ne_zero, ← zpow_add₀ two_ne_zero]
          ring_nf
      _ ≤ 2 ^ (52 : ℤ) * 2 ^ lastBit y :=
          mul_le_mul_of_nonneg_left (zpow_le_zpow_right₀ one_le_two hlt) (two_zpow_pos _).le
      _ ≤ roundPos y := mul_le_mul_of_nonneg_right hy (two_zpow_pos _).le
  · unfold roundPos
    rw [heq]
    refine mul_le_mul_of_nonneg_right (Int.cast_le.mpr (toEven_mono ?_)) (two_zpow_pos _).le
    exact div_le_div_of_nonneg_right h (two_zpow_pos _).le

theorem round64_of_pos {x : ℚ} (hx : 0 < x) : round64 x = roundPos x := if_pos hx

theorem round64_of_nonpos {x : ℚ} (hx : x ≤ 0) : round64 x = -roundPos (-x) :=
  if_neg (not_lt.mpr hx)

@[simp] theorem round64_zero : round64 0 = 0 := by
  simp [round64, roundPos, toEven]

theorem round64_mono {x y : ℚ} (h : x ≤ y) : round64 x ≤ round64 y := by
  by_cases hx : 0 < x
  · rw [round64_of_pos hx, round64_of_pos (hx.trans_le h)]
    exact roundPos_mono hx h
  · have hx' : x ≤ 0 := not_lt.mp hx
    rw [round64_of_nonpos hx']
    have hleft : 0 ≤ roundPos (-x) := roundPos_nonneg (neg_nonneg.mpr hx')
    rcases lt_trichotomy y 0 with hy | rfl | hy
    · rw [round64_of_nonpos hy.le]
      exact neg_le_neg (roundPos_mono (neg_pos.mpr hy) (neg_le_neg h))
    · rw [round64_zero]
      exact neg_nonpos.mpr hleft
    · rw [round64_of_pos hy]
      exact (neg_nonpos.mpr hleft).trans (roundPos_nonneg hy.le)

/-! ## §3. What is rounded stays as it is. -/

theorem roundPos_of_int {x : ℚ} {n : ℤ} (h : x / 2 ^ lastBit x = n) : roundPos x = x := by
  rw [roundPos, h, toEven_intCast, ← h]
  exact div_mul_cancel₀ x (two_zpow_pos _).ne'

/-- A number of fewer than 53 bits. -/
theorem roundPos_of_lt {m : ℤ} (hm : 0 < m) (hbits : m < 2 ^ 53) {e : ℤ} (he : -1074 ≤ e) :
    roundPos (m * 2 ^ e) = m * 2 ^ e := by
  have hm' : (0 : ℚ) < m := Int.cast_pos.mpr hm
  have hlog : Int.log 2 ((m : ℚ) * 2 ^ e) < 53 + e := by
    refine (Int.lt_zpow_iff_log_lt (b := 2) (by decide) (mul_pos hm' (two_zpow_pos e))).mp ?_
    show (m : ℚ) * 2 ^ e < 2 ^ (53 + e)
    rw [zpow_add₀ two_ne_zero]
    refine mul_lt_mul_of_pos_right ?_ (two_zpow_pos e)
    calc (m : ℚ) < ((2 ^ 53 : ℤ) : ℚ) := Int.cast_lt.mpr hbits
      _ = 2 ^ (53 : ℤ) := by norm_num
  have hlast : lastBit ((m : ℚ) * 2 ^ e) ≤ e := max_le (by omega) he
  obtain ⟨k, hk⟩ : ∃ k : ℕ, e - lastBit ((m : ℚ) * 2 ^ e) = k :=
    ⟨(e - lastBit ((m : ℚ) * 2 ^ e)).toNat, by omega⟩
  refine roundPos_of_int (n := m * 2 ^ k) ?_
  rw [mul_div_assoc, ← zpow_sub₀ two_ne_zero, hk]
  push_cast
  rw [zpow_natCast]

/-- A number of at most 53 bits is a double. -/
theorem roundPos_of_le {m : ℤ} (hm : 0 < m) (hbits : m ≤ 2 ^ 53) {e : ℤ} (he : -1074 ≤ e) :
    roundPos (m * 2 ^ e) = m * 2 ^ e := by
  rcases hbits.lt_or_eq with hlt | rfl
  · exact roundPos_of_lt hm hlt he
  · -- the next power of two
    have hpower : ((2 ^ 53 : ℤ) : ℚ) * 2 ^ e = ((1 : ℤ) : ℚ) * 2 ^ (53 + e) := by
      rw [zpow_add₀ two_ne_zero]
      norm_num
    rw [hpower]
    exact roundPos_of_lt one_pos (by decide) (by omega)

theorem roundPos_idem {x : ℚ} (hx : 0 < x) : round64 (roundPos x) = roundPos x := by
  have hle : toEven (x / 2 ^ lastBit x) ≤ 2 ^ 53 := by
    have := toEven_scaled_le x
    have hcast : (2 : ℚ) ^ (53 : ℤ) = ((2 ^ 53 : ℤ) : ℚ) := by norm_num
    rw [hcast] at this
    exact Int.cast_le.mp this
  rcases (toEven_nonneg (div_nonneg hx.le (two_zpow_pos (lastBit x)).le)).eq_or_lt with hzero | hpos
  · rw [roundPos, ← hzero, Int.cast_zero, zero_mul, round64_zero]
  · have hround : 0 < roundPos x := mul_pos (Int.cast_pos.mpr hpos) (two_zpow_pos _)
    rw [round64_of_pos hround]
    exact roundPos_of_le hpos hle (le_max_right _ _)

theorem round64_neg (x : ℚ) : round64 (-x) = -round64 x := by
  rcases lt_trichotomy x 0 with hx | rfl | hx
  · rw [round64_of_pos (neg_pos.mpr hx), round64_of_nonpos hx.le, neg_neg]
  · simp
  · rw [round64_of_nonpos (neg_nonpos.mpr hx.le), round64_of_pos hx, neg_neg]

/-- **What is rounded stays as it is.** -/
theorem round64_idem (x : ℚ) : round64 (round64 x) = round64 x := by
  rcases lt_trichotomy x 0 with hx | rfl | hx
  · rw [round64_of_nonpos hx.le, round64_neg, roundPos_idem (neg_pos.mpr hx)]
  · simp
  · rw [round64_of_pos hx, roundPos_idem hx]

/-! ## §4. Doubles. -/

/-- A finite binary64 number. -/
@[ext] structure Double where
  value : ℚ
  rounded : round64 value = value

namespace Double

/-- The nearest double. -/
def nearest (x : ℚ) : Double := ⟨round64 x, round64_idem x⟩

theorem value_injective : Function.Injective value := fun _ _ h => Double.ext h

instance : LinearOrder Double := LinearOrder.lift' value value_injective
instance : Zero Double := ⟨nearest 0⟩
instance : NatCast Double := ⟨fun n => nearest n⟩
instance : Sub Double := ⟨fun a b => nearest (a.value - b.value)⟩

theorem le_iff (a b : Double) : a ≤ b ↔ a.value ≤ b.value := Iff.rfl
theorem lt_iff (a b : Double) : a < b ↔ a.value < b.value := Iff.rfl
theorem sub_value (a b : Double) : (a - b).value = round64 (a.value - b.value) := rfl
theorem natCast_value (n : ℕ) : (n : Double).value = round64 n := rfl

end Double

/-! ## §5. Clocks. -/

/-- What is needed of the readings of a clock: their differences, however they are rounded, are
not greater from a later reading or to an earlier one, and there is none from a reading to
itself. -/
class Clock (T : Type*) [LinearOrder T] [Sub T] [NatCast T] : Prop where
  sub_le_sub_left {a b : T} (h : a ≤ b) (c : T) : c - b ≤ c - a
  sub_le_sub_right {a b : T} (h : a ≤ b) (c : T) : a - c ≤ b - c
  sub_self_lt (a : T) {n : ℕ} (hn : 0 < n) : a - a < n

instance instClockRing (T : Type*) [Ring T] [LinearOrder T] [IsStrictOrderedRing T] : Clock T where
  sub_le_sub_left h c := sub_le_sub_left h c
  sub_le_sub_right h c := sub_le_sub_right h c
  sub_self_lt a n hn := by
    rw [sub_self]
    exact Nat.cast_pos.mpr hn

/-- **Doubles are readings of a clock.** -/
instance instClockDouble : Clock Double where
  sub_le_sub_left h c := round64_mono (sub_le_sub_left ((Double.le_iff _ _).mp h) c.value)
  sub_le_sub_right h c := round64_mono (sub_le_sub_right ((Double.le_iff _ _).mp h) c.value)
  sub_self_lt a n hn := by
    have hone : (1 : ℚ) ≤ round64 n := by
      calc (1 : ℚ) = round64 1 := by
            rw [round64_of_pos one_pos]
            simpa using (roundPos_of_le (m := 1) (e := 0) one_pos (by decide) (by decide)).symm
        _ ≤ round64 n := round64_mono (Nat.one_le_cast.mpr hn)
    rw [Double.lt_iff, Double.sub_value, sub_self, round64_zero, Double.natCast_value]
    exact one_pos.trans_le hone

end KFsw.Lib
