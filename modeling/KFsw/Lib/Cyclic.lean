/-
  KFsw.Lib.Cyclic — counters that are only known modulo `N`.

  `skipped N a b` is how many numbers lie between two counters when only their
  remainders are known, and `Passed N a b c` says that the remainder of `c` is
  one of them.  For counters out of one window of `N` consecutive numbers both
  have a meaning in the counters themselves:

    * `skipped_of_lt`, `passed_of_lt_iff` — forwards, from `a` to a higher `b`;
    * `skipped_of_ge`, `passed_of_ge_iff` — around, from `a` to a `b` not higher.
-/
import Mathlib.Algebra.Order.Ring.Int
import Mathlib.Data.Int.ModEq
import Mathlib.Tactic.Linarith

namespace KFsw.Lib

variable {N lo a b c : Nat}

/-! ## §1. Between two remainders. -/

/-- How many numbers a counter passes over from `a` to `b`, modulo `N`. -/
def skipped (N a b : Nat) : Int := ((b : Int) - a - 1) % N

/-- One of the numbers passed over has the remainder of `c`. -/
def Passed (N a b c : Nat) : Prop :=
  ∃ i : Nat, 1 ≤ i ∧ (i : Int) ≤ skipped N a b ∧ c % N = (a + i) % N

/-- Only the remainders count: subtracting them and taking the truncated remainder of what is
lifted to a non-negative number is `skipped`. -/
theorem tmod_skipped (hN : 0 < N) (a b : Nat) :
    (((b % N : Nat) : Int) - ((a % N : Nat) : Int) - 1 + N).tmod N = skipped N a b := by
  have ha : a % N < N := Nat.mod_lt a hN
  rw [Int.tmod_eq_emod_of_nonneg (by omega), skipped, Int.add_emod_right]
  push_cast
  rw [Int.sub_emod, Int.sub_emod (b % N : Int), Int.emod_emod, Int.emod_emod,
    ← Int.sub_emod (b : Int), ← Int.sub_emod]

theorem skipped_of_lt (hab : a < b) (hb : b ≤ a + N) : skipped N a b = (b : Int) - a - 1 :=
  Int.emod_eq_of_lt (by omega) (by omega)

theorem skipped_of_ge (hba : b ≤ a) (ha : a < b + N) :
    skipped N a b = (N : Int) - 1 - ((a : Int) - b) := by
  have hlift : ((b : Int) - a - 1) % N = ((b : Int) - a - 1 + N) % N := by
    rw [Int.add_emod_right]
  rw [skipped, hlift, Int.emod_eq_of_lt (by omega) (by omega)]
  omega

/-! ## §2. What is passed, within one window. -/

/-- Two numbers of one remainder that lie less than two cycles apart. -/
theorem eq_or_add_of_mod_eq {x y : Nat} (h : x % N = y % N) (hlo : x < y + N)
    (hhi : y < x + 2 * N) : y = x ∨ y = x + N := by
  obtain ⟨k, hk⟩ : (N : Int) ∣ (y : Int) - x := (Nat.modEq_iff_dvd.mp h)
  have hpos : (0 : Int) < N := by omega
  have hk1 : -1 < k := by
    refine lt_of_mul_lt_mul_left ?_ hpos.le
    linarith [show (x : Int) < y + N by exact_mod_cast hlo]
  have hk2 : k < 2 := by
    refine lt_of_mul_lt_mul_left ?_ hpos.le
    linarith [show (y : Int) < x + 2 * N by exact_mod_cast hhi]
  obtain rfl | rfl : k = 0 ∨ k = 1 := by omega
  · left
    omega
  · right
    omega

/-- Forwards, the numbers passed are those in between. -/
theorem passed_of_lt_iff (ha : lo ≤ a) (hb : b < lo + N) (hc : lo ≤ c) (hc' : c < lo + N)
    (hab : a < b) : Passed N a b c ↔ a < c ∧ c < b := by
  rw [Passed, skipped_of_lt hab (by omega)]
  constructor
  · intro hpassed
    obtain ⟨i, hi, hib, hmod⟩ := hpassed
    rcases eq_or_add_of_mod_eq hmod (by omega) (by omega) with h | h
    · omega
    · -- one cycle further would lie beyond `b`
      omega
  · intro hbetween
    obtain ⟨hac, hcb⟩ := hbetween
    exact ⟨c - a, by omega, by omega, by rw [show a + (c - a) = c by omega]⟩

/-- Around, the numbers passed are those outside. -/
theorem passed_of_ge_iff (ha : a < lo + N) (hb : lo ≤ b) (hc : lo ≤ c) (hc' : c < lo + N)
    (hba : b ≤ a) : Passed N a b c ↔ c < b ∨ a < c := by
  rw [Passed, skipped_of_ge hba (by omega)]
  constructor
  · intro hpassed
    obtain ⟨i, hi, hib, hmod⟩ := hpassed
    rcases eq_or_add_of_mod_eq hmod (by omega) (by omega) with h | h
    · right
      omega
    · left
      omega
  · intro hout
    rcases hout with hcb | hac
    · refine ⟨c + N - a, by omega, by omega, ?_⟩
      rw [show a + (c + N - a) = c + N by omega, Nat.add_mod_right]
    · exact ⟨c - a, by omega, by omega, by rw [show a + (c - a) = c by omega]⟩

end KFsw.Lib
