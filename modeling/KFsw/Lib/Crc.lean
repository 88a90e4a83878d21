/-
  KFsw.Lib.Crc — cyclic redundancy checks of any width, in their reflected form.

  The register is shifted towards its low bit, and takes the bits of a byte from
  the low end, `feedBit`.  Mirrored, bit `i` of the register is the coefficient of
  `X ^ i`: `registerPoly` is the register as a polynomial over GF(2), and `crcPoly`
  the generator with its leading term.

  Main results:
    * `feedBits_lowBits`      — feeding `n` bits one by one is `n` shifts of the
      register with the bits under it, which is what a table of shifts stands for;
    * `registerPoly_feedBits` — the register is the remainder of the message, with
      the first register on top of it;
    * `feedBits_injective`    — different registers stay different;
    * `feedBits_burst`        — so do two messages that differ inside one register
      width, whatever stands before and behind.
-/
import KFsw.Lib.Bytes
import Mathlib.Algebra.CharP.Two
import Mathlib.Algebra.Field.ZMod
import Mathlib.Algebra.Polynomial.OfFn
import Mathlib.Algebra.Polynomial.FieldDivision
import Mathlib.Tactic.LinearCombination

namespace KFsw.Lib

open Polynomial

variable {w : Nat}

/-! ## §1. The register, one bit at a time. -/

/-- One message bit into a reflected register. -/
def feedBit (poly r : BitVec w) (b : Bool) : BitVec w :=
  if (r.getLsbD 0 ^^ b) then (r >>> 1) ^^^ poly else r >>> 1

/-- A message into the register. -/
def feedBits (poly r : BitVec w) (bits : List Bool) : BitVec w := bits.foldl (feedBit poly) r

/-- One shift of the register without a message bit. -/
def bitStep (poly r : BitVec w) : BitVec w := feedBit poly r false

/-- The low `n` bits of a word, the lowest first. -/
def lowBits (n : Nat) (x : BitVec w) : List Bool := (List.range n).map x.getLsbD

/-- The bits of a message, each byte from its low end. -/
def messageBits (data : Bytes) : List Bool := data.flatMap fun byte => lowBits 8 byte.toBitVec

/-- The reflected CRC with generator `p`, first register `init` and final exclusive or
`xorOut`. -/
def reflectedCrc (p init xorOut : BitVec w) (data : Bytes) : BitVec w :=
  feedBits p.reverse init (messageBits data) ^^^ xorOut

theorem feedBits_append (poly r : BitVec w) (u v : List Bool) :
    feedBits poly r (u ++ v) = feedBits poly (feedBits poly r u) v :=
  List.foldl_append

@[simp] theorem lowBits_length (n : Nat) (x : BitVec w) : (lowBits n x).length = n := by
  rw [lowBits, List.length_map, List.length_range]

/-- The lowest bit of a word first. -/
theorem lowBits_succ (n : Nat) (x : BitVec w) :
    lowBits (n + 1) x = x.getLsbD 0 :: lowBits n (x >>> 1) := by
  unfold lowBits
  rw [List.range_succ_eq_map, List.map_cons, List.map_map]
  congr 1
  refine List.map_congr_left fun i _ => ?_
  rw [Function.comp_apply, BitVec.getLsbD_ushiftRight, Nat.add_comm]

theorem messageBits_length (data : Bytes) : (messageBits data).length = 8 * data.length := by
  induction data with
  | nil => rfl
  | cons byte data ih =>
    have hcons : messageBits (byte :: data) = lowBits 8 byte.toBitVec ++ messageBits data := rfl
    rw [hcons, List.length_append, lowBits_length, ih, List.length_cons]
    omega

theorem messageBits_append (a b : Bytes) : messageBits (a ++ b) = messageBits a ++ messageBits b :=
  List.flatMap_append

/-- A word of `n` bits is told from its bits. -/
theorem lowBits_injective {x y : BitVec w} (h : lowBits w x = lowBits w y) : x = y := by
  refine BitVec.eq_of_getLsbD_eq fun i hi => ?_
  have hbit := congrArg (·[i]?) h
  simpa [lowBits, hi] using hbit

/-- A message is told from its bits. -/
theorem messageBits_injective {a b : Bytes} (h : messageBits a = messageBits b) : a = b := by
  induction a generalizing b with
  | nil =>
    have hlength := congrArg List.length h
    rw [messageBits_length, messageBits_length] at hlength
    exact (List.length_eq_zero_iff.mp (by simpa using hlength.symm)).symm
  | cons x a ih =>
    cases b with
    | nil =>
      have hlength := congrArg List.length h
      rw [messageBits_length, messageBits_length] at hlength
      exact absurd hlength (by simp)
    | cons y b =>
      have hsplit : lowBits 8 x.toBitVec ++ messageBits a = lowBits 8 y.toBitVec ++ messageBits b := h
      obtain ⟨hbyte, hrest⟩ := List.append_inj hsplit (by rw [lowBits_length, lowBits_length])
      rw [UInt8.toBitVec_inj.mp (lowBits_injective hbyte), ih hrest]

/-! ## §2. Several bits at a time. -/

/-- A word under the register feeds its lowest bit and moves down. -/
theorem bitStep_xor (poly r x : BitVec w) :
    bitStep poly (r ^^^ x) = feedBit poly r (x.getLsbD 0) ^^^ (x >>> 1) := by
  unfold bitStep feedBit
  rw [BitVec.getLsbD_xor, Bool.xor_false, BitVec.ushiftRight_xor_distrib]
  split
  · rw [BitVec.xor_assoc, BitVec.xor_comm (x >>> 1), ← BitVec.xor_assoc]
  · rfl

/-- **Feeding the low bits of a word** one by one is as many shifts with the word under the
register, but for what is left of the word. -/
theorem feedBits_lowBits (poly : BitVec w) (n : Nat) (r x : BitVec w) :
    (bitStep poly)^[n] (r ^^^ x) = feedBits poly r (lowBits n x) ^^^ (x >>> n) := by
  induction n generalizing r x with
  | zero =>
    rw [BitVec.ushiftRight_zero]
    rfl
  | succ n ih =>
    rw [Function.iterate_succ_apply, bitStep_xor, ih, lowBits_succ, ← BitVec.shiftRight_add,
      Nat.add_comm 1 n]
    rfl

/-- Some shifts of a word: those of its low bits, and the rest of it moved down. -/
theorem bitStep_iterate (poly : BitVec w) (n : Nat) {x low : BitVec w}
    (hlow : lowBits n low = lowBits n x) (hrest : low >>> n = 0#w) :
    (bitStep poly)^[n] x = (bitStep poly)^[n] low ^^^ (x >>> n) := by
  have hx := feedBits_lowBits poly n 0#w x
  have hl := feedBits_lowBits poly n 0#w low
  rw [BitVec.zero_xor] at hx hl
  rw [hrest, BitVec.xor_zero, hlow] at hl
  rw [hx, hl]

/-- The same with a table: the low bits of the register and the word select the entry. -/
theorem feedBits_table (poly : BitVec w) (n : Nat) {r x low : BitVec w}
    (hlow : lowBits n low = lowBits n (r ^^^ x)) (hrest : low >>> n = 0#w)
    (hword : x >>> n = 0#w) :
    feedBits poly r (lowBits n x) = (bitStep poly)^[n] low ^^^ (r >>> n) := by
  have hfeed := feedBits_lowBits poly n r x
  rw [hword, BitVec.xor_zero] at hfeed
  rw [← hfeed, bitStep_iterate poly n hlow hrest, BitVec.ushiftRight_xor_distrib, hword,
    BitVec.xor_zero]

/-! ## §3. Polynomials over GF(2). -/

/-- A bit as a coefficient. -/
def bitCoeff (b : Bool) : ZMod 2 := if b then 1 else 0

theorem bitCoeff_xor (a b : Bool) : bitCoeff (a ^^ b) = bitCoeff a + bitCoeff b := by
  cases a <;> cases b <;> rfl

theorem bitCoeff_injective : Function.Injective bitCoeff := by
  intro a b h
  cases a <;> cases b
  · rfl
  · exact absurd h (by decide)
  · exact absurd h (by decide)
  · rfl

/-- A word as a polynomial: bit `i` is the coefficient of `X ^ i`. -/
noncomputable def wordPoly (x : BitVec w) : (ZMod 2)[X] :=
  Polynomial.ofFn w fun i => bitCoeff (x.getLsbD i)

/-- A reflected register as a polynomial. -/
noncomputable def registerPoly (r : BitVec w) : (ZMod 2)[X] := wordPoly r.reverse

/-- The generator of width `w` with its leading term. -/
noncomputable def crcPoly (p : BitVec w) : (ZMod 2)[X] := X ^ w + wordPoly p

/-- A message as a polynomial, its first bit on top. -/
noncomputable def bitsPoly : List Bool → (ZMod 2)[X]
  | [] => 0
  | b :: bits => C (bitCoeff b) * X ^ bits.length + bitsPoly bits

theorem coeff_wordPoly (x : BitVec w) (i : Nat) :
    (wordPoly x).coeff i = bitCoeff (x.getLsbD i) := by
  unfold wordPoly
  by_cases hi : i < w
  · rw [Polynomial.ofFn_coeff_eq_val_of_lt _ hi]
  · rw [Polynomial.ofFn_coeff_eq_zero_of_ge _ (Nat.not_lt.mp hi),
      BitVec.getLsbD_of_ge x i (Nat.not_lt.mp hi)]
    rfl

theorem degree_wordPoly_lt (x : BitVec w) : (wordPoly x).degree < w :=
  Polynomial.ofFn_degree_lt _

theorem wordPoly_xor (x y : BitVec w) : wordPoly (x ^^^ y) = wordPoly x + wordPoly y := by
  ext i
  rw [Polynomial.coeff_add, coeff_wordPoly, coeff_wordPoly, coeff_wordPoly, BitVec.getLsbD_xor,
    bitCoeff_xor]

theorem wordPoly_injective : Function.Injective (wordPoly (w := w)) := by
  intro x y h
  refine BitVec.eq_of_getLsbD_eq fun i _ => bitCoeff_injective ?_
  rw [← coeff_wordPoly, ← coeff_wordPoly, h]

theorem registerPoly_injective : Function.Injective (registerPoly (w := w)) := by
  intro r r' h
  rw [← BitVec.reverse_reverse_eq (x := r), wordPoly_injective h, BitVec.reverse_reverse_eq]

/-- Shifted up by one, a word is multiplied by `X`, but for the bit that falls out. -/
theorem wordPoly_shiftLeft (x : BitVec w) :
    X * wordPoly x = wordPoly (x <<< 1) + C (bitCoeff x.msb) * X ^ w := by
  ext i
  rw [Polynomial.coeff_add, coeff_wordPoly, Polynomial.coeff_C_mul_X_pow,
    BitVec.getLsbD_shiftLeft, BitVec.msb_eq_getLsbD_last]
  cases i with
  | zero =>
    rw [Polynomial.coeff_X_mul_zero]
    cases w with
    | zero => simp [bitCoeff]
    | succ w => simp [bitCoeff]
  | succ i =>
    rw [Polynomial.coeff_X_mul, coeff_wordPoly]
    by_cases hi : i + 1 < w
    · simp [hi, hi.ne, bitCoeff]
    · by_cases hw : i + 1 = w
      · subst hw
        simp [bitCoeff]
      · have hout : x.getLsbD i = false := BitVec.getLsbD_of_ge x i (by omega)
        simp [hi, hw, hout, bitCoeff]

/-- Mirrored, the register is shifted up. -/
theorem reverse_ushiftRight_one (r : BitVec w) : (r >>> 1).reverse = r.reverse <<< 1 := by
  refine BitVec.eq_of_getLsbD_eq fun i hi => ?_
  rw [BitVec.getLsbD_reverse, BitVec.getLsbD_shiftLeft, BitVec.getLsbD_reverse,
    BitVec.getMsbD_eq_getLsbD, BitVec.getMsbD_eq_getLsbD, BitVec.getLsbD_ushiftRight]
  cases i with
  | zero =>
    rw [BitVec.getLsbD_of_ge r _ (by omega)]
    simp
  | succ i =>
    have hindex : 1 + (w - 1 - (i + 1)) = w - 1 - i := by omega
    have hlt : i < w := by omega
    simp [hi, hlt, hindex]

theorem reverse_xor (x y : BitVec w) : (x ^^^ y).reverse = x.reverse ^^^ y.reverse := by
  refine BitVec.eq_of_getLsbD_eq fun i hi => ?_
  rw [BitVec.getLsbD_reverse, BitVec.getLsbD_xor, BitVec.getLsbD_reverse, BitVec.getLsbD_reverse,
    BitVec.getMsbD_xor]

/-- Twice a coefficient is nothing. -/
theorem poly_add_self (f : (ZMod 2)[X]) : f + f = 0 := CharTwo.add_self_eq_zero f

/-- **One message bit**: the register times `X`, with the bit on top, less the generator when
the bit that falls out and the message bit differ. -/
theorem registerPoly_feedBit (p r : BitVec w) (b : Bool) :
    registerPoly (feedBit p.reverse r b)
      = X * registerPoly r + C (bitCoeff b) * X ^ w + C (bitCoeff (r.getLsbD 0 ^^ b)) * crcPoly p := by
  have hshift := wordPoly_shiftLeft r.reverse
  rw [BitVec.msb_reverse, ← reverse_ushiftRight_one] at hshift
  have hregister : registerPoly (feedBit p.reverse r b)
      = wordPoly (r >>> 1).reverse + C (bitCoeff (r.getLsbD 0 ^^ b)) * wordPoly p := by
    unfold registerPoly feedBit
    split
    · rename_i ht
      rw [ht, reverse_xor, wordPoly_xor, BitVec.reverse_reverse_eq]
      simp [bitCoeff]
    · rename_i hf
      rw [Bool.not_eq_true] at hf
      rw [hf]
      simp [bitCoeff]
  have htwo := poly_add_self (C (bitCoeff (r.getLsbD 0 ^^ b)) * X ^ w)
  rw [hregister, registerPoly, hshift, crcPoly]
  rw [bitCoeff_xor, C_add] at htwo ⊢
  linear_combination -htwo

/-! ## §4. The remainder. -/

theorem crcPoly_monic (p : BitVec w) : (crcPoly p).Monic :=
  Polynomial.monic_X_pow_add (degree_wordPoly_lt p)

theorem degree_crcPoly (p : BitVec w) : (crcPoly p).degree = w := by
  unfold crcPoly
  rw [Polynomial.degree_add_eq_left_of_degree_lt, Polynomial.degree_X_pow]
  rw [Polynomial.degree_X_pow]
  exact degree_wordPoly_lt p

/-- A polynomial below the generator's degree that it divides is zero. -/
theorem eq_zero_of_crcPoly_dvd {p : BitVec w} {f : (ZMod 2)[X]} (hf : f.degree < w)
    (h : crcPoly p ∣ f) : f = 0 := by
  by_contra hne
  refine (crcPoly_monic p).not_dvd_of_degree_lt hne ?_ h
  rw [degree_crcPoly]
  exact hf

/-- **The register is a remainder**: of the message, with the first register added to its top
bits. -/
theorem registerPoly_feedBits (p r : BitVec w) (bits : List Bool) :
    registerPoly (feedBits p.reverse r bits)
      = (X ^ w * bitsPoly bits + X ^ bits.length * registerPoly r) %ₘ crcPoly p := by
  induction bits generalizing r with
  | nil =>
    have hself : registerPoly r %ₘ crcPoly p = registerPoly r := by
      rw [Polynomial.modByMonic_eq_self_iff (crcPoly_monic p), degree_crcPoly]
      exact degree_wordPoly_lt _
    rw [bitsPoly, mul_zero, zero_add, List.length_nil, pow_zero, one_mul, hself]
    rfl
  | cons b bits ih =>
    have hfeed : feedBits p.reverse r (b :: bits)
        = feedBits p.reverse (feedBit p.reverse r b) bits := rfl
    rw [hfeed, ih, registerPoly_feedBit]
    refine Polynomial.modByMonic_eq_of_dvd_sub (crcPoly_monic p) ?_
    -- the two differ by a multiple of the generator
    refine ⟨X ^ bits.length * C (bitCoeff (r.getLsbD 0 ^^ b)), ?_⟩
    rw [bitsPoly, List.length_cons]
    ring

/-! ## §5. What the register tells apart. -/

theorem degree_bitsPoly_lt (bits : List Bool) : (bitsPoly bits).degree < bits.length := by
  induction bits with
  | nil =>
    rw [bitsPoly, Polynomial.degree_zero]
    exact WithBot.bot_lt_coe _
  | cons b bits ih =>
    have hlt : (bits.length : WithBot Nat) < ((b :: bits).length : Nat) := by
      rw [List.length_cons]
      exact_mod_cast Nat.lt_succ_self _
    rw [bitsPoly]
    refine lt_of_le_of_lt (Polynomial.degree_add_le _ _) (max_lt ?_ (ih.trans hlt))
    exact lt_of_le_of_lt (Polynomial.degree_C_mul_X_pow_le _ _) hlt

/-- Messages of one length are told apart by their polynomials. -/
theorem bitsPoly_injective {u v : List Bool} (hlength : u.length = v.length)
    (h : bitsPoly u = bitsPoly v) : u = v := by
  induction u generalizing v with
  | nil => exact (List.length_eq_zero_iff.mp hlength.symm).symm
  | cons a u ih =>
    cases v with
    | nil => exact absurd hlength (by simp)
    | cons b v =>
      have hlen : u.length = v.length := Nat.succ_injective hlength
      -- the first bit is the top coefficient
      have htop : ∀ (c : Bool) (bits : List Bool),
          (bitsPoly (c :: bits)).coeff bits.length = bitCoeff c := by
        intro c bits
        rw [bitsPoly, Polynomial.coeff_add, Polynomial.coeff_C_mul_X_pow, if_pos rfl,
          (Polynomial.degree_lt_iff_coeff_zero _ _).mp (degree_bitsPoly_lt bits) _ le_rfl, add_zero]
      have hbit : a = b := by
        refine bitCoeff_injective ?_
        rw [← htop a u, h, hlen, htop b v]
      subst hbit
      rw [bitsPoly, bitsPoly, hlen] at h
      rw [ih hlen (add_left_cancel h)]

/-- A generator with a constant term has no factor `X`. -/
theorem isCoprime_crcPoly {p : BitVec w} (hp : p.getLsbD 0 = true) (n : Nat) :
    IsCoprime (crcPoly p) (X ^ n) := by
  have hwidth : 0 < w := by
    by_contra hzero
    rw [BitVec.getLsbD_of_ge p 0 (by omega)] at hp
    exact absurd hp (by decide)
  have hconst : (crcPoly p).coeff 0 = 1 := by
    rw [crcPoly, Polynomial.coeff_add, coeff_wordPoly, hp, Polynomial.coeff_X_pow,
      if_neg hwidth.ne]
    rfl
  have hdvd : ¬ (X : (ZMod 2)[X]) ∣ crcPoly p := by
    rw [Polynomial.X_dvd_iff, hconst]
    exact one_ne_zero
  have hcoprime : IsCoprime (X : (ZMod 2)[X]) (crcPoly p) :=
    (Irreducible.coprime_iff_not_dvd (Polynomial.irreducible_X (R := ZMod 2))).mpr hdvd
  exact hcoprime.symm.pow_right

/-- Two registers that agree after messages of one length: the generator divides what the
messages and the first registers differ by. -/
theorem crcPoly_dvd_of_feedBits_eq {p r r' : BitVec w} {u v : List Bool}
    (hlength : u.length = v.length)
    (h : feedBits p.reverse r u = feedBits p.reverse r' v) :
    crcPoly p ∣ X ^ w * (bitsPoly u - bitsPoly v)
      + X ^ u.length * (registerPoly r - registerPoly r') := by
  have heq := congrArg registerPoly h
  rw [registerPoly_feedBits, registerPoly_feedBits] at heq
  have hzero := sub_eq_zero.mpr heq
  rw [← Polynomial.sub_modByMonic, Polynomial.modByMonic_eq_zero_iff_dvd (crcPoly_monic p)] at hzero
  rw [hlength] at hzero ⊢
  convert hzero using 1
  ring

/-- **Different registers stay different**, whatever is fed. -/
theorem feedBits_injective {p : BitVec w} (hp : p.getLsbD 0 = true) (bits : List Bool) :
    Function.Injective fun r => feedBits p.reverse r bits := by
  intro r r' h
  have hdvd := crcPoly_dvd_of_feedBits_eq rfl h
  rw [sub_self, mul_zero, zero_add] at hdvd
  have hsmall : (registerPoly r - registerPoly r').degree < w :=
    lt_of_le_of_lt (Polynomial.degree_sub_le _ _)
      (max_lt (degree_wordPoly_lt _) (degree_wordPoly_lt _))
  have hzero := eq_zero_of_crcPoly_dvd hsmall ((isCoprime_crcPoly hp _).dvd_of_dvd_mul_left hdvd)
  exact registerPoly_injective (sub_eq_zero.mp hzero)

/-- **Short messages of one length** lead one register to different ones. -/
theorem feedBits_short {p : BitVec w} (hp : p.getLsbD 0 = true) (r : BitVec w) {u v : List Bool}
    (hlength : u.length = v.length) (hshort : u.length ≤ w)
    (h : feedBits p.reverse r u = feedBits p.reverse r v) : u = v := by
  have hdvd := crcPoly_dvd_of_feedBits_eq hlength h
  rw [sub_self, mul_zero, add_zero] at hdvd
  have hle : (u.length : WithBot Nat) ≤ (w : Nat) := by exact_mod_cast hshort
  have hsmall : (bitsPoly u - bitsPoly v).degree < w := by
    refine lt_of_lt_of_le (lt_of_le_of_lt (Polynomial.degree_sub_le _ _)
      (max_lt (degree_bitsPoly_lt u) ?_)) hle
    rw [hlength]
    exact degree_bitsPoly_lt v
  have hzero := eq_zero_of_crcPoly_dvd hsmall ((isCoprime_crcPoly hp _).dvd_of_dvd_mul_left hdvd)
  exact bitsPoly_injective hlength (sub_eq_zero.mp hzero)

/-- **Bursts are caught**: two messages that differ inside one register width lead to different
registers. -/
theorem feedBits_burst {p : BitVec w} (hp : p.getLsbD 0 = true) (r : BitVec w)
    (before behind : List Bool) {u v : List Bool} (hlength : u.length = v.length)
    (hshort : u.length ≤ w) (hne : u ≠ v) :
    feedBits p.reverse r (before ++ u ++ behind) ≠ feedBits p.reverse r (before ++ v ++ behind) := by
  intro h
  rw [feedBits_append, feedBits_append, feedBits_append, feedBits_append] at h
  exact hne (feedBits_short hp _ hlength hshort (feedBits_injective hp behind h))

end KFsw.Lib
