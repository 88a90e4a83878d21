/-
  KFsw.Lib.PyFloat — Python's `float`: texts read as doubles, doubles written
  as texts, and the integer part of a double.

  A Python float is a binary64 number, as Lean's `Float` is.  Reading a text and
  comparing are `Float`'s own operations; what is written is computed from the
  exact value of the number.

  Main results:
    * `isNaN_of_le`         — no comparison with a nan holds;
    * `floatValue_kind`     — the value of a double is of the kind `Float` says;
    * `isFinite_of_between` — what lies between finite doubles is finite;
    * `reprFloat_numeral`   — what `repr` writes is one word;
    * `reprFloat_ne_nil`    — and is not empty.
-/
import KFsw.Lib.CString
import KFsw.Lib.PyText
import Mathlib.Data.Bool.AllAny

namespace KFsw.Lib

/-! ## §1. The value of a double. -/

/-- What a double stands for: `mantissa * 2 ^ exponent` where it is finite. -/
inductive FloatValue where
  | nan
  | infinite (negative : Bool)
  | finite (negative : Bool) (mantissa : Nat) (exponent : Int)
  deriving DecidableEq, Repr

/-- The value of a double, from its sign, its eleven bits of exponent and its fraction. -/
def floatValue (x : Float) : FloatValue :=
  let bits := x.toBits.toNat
  let negative := decide (2 ^ 63 ≤ bits)
  let biased : Nat := bits / 2 ^ 52 % 2 ^ 11
  let fraction := bits % 2 ^ 52
  if biased = 2047 then (if fraction = 0 then .infinite negative else .nan)
  else if biased = 0 then .finite negative fraction (-1074)
  else .finite negative (fraction + 2 ^ 52) ((biased : Int) - 1075)

/-- A value as a fraction: numerator and denominator. -/
def asFraction (mantissa : Nat) (exponent : Int) : Nat × Nat :=
  (mantissa * 2 ^ exponent.toNat, 2 ^ (-exponent).toNat)

/-- The integer part of a finite value, towards zero. -/
def truncated (negative : Bool) (mantissa : Nat) (exponent : Int) : Int :=
  let v := asFraction mantissa exponent
  if negative then -((v.1 / v.2 : Nat) : Int) else (v.1 / v.2 : Nat)

/-- **No comparison with a nan holds.** -/
theorem isNaN_of_le {x y : Float} (h : x ≤ y) : x.isNaN = false ∧ y.isNaN = false := by
  have hle : x.toModel.unpack.le y.toModel.unpack = true := of_decide_eq_true h
  show x.toModel.unpack.isNaN = false ∧ y.toModel.unpack.isNaN = false
  revert hle
  generalize x.toModel.unpack = a
  generalize y.toModel.unpack = b
  intro hle
  cases a with
  | notANumber => exact absurd hle Bool.false_ne_true
  | infinity _ | zero _ | finite _ _ _ _ =>
    cases b with
    | notANumber => exact absurd hle Bool.false_ne_true
    | infinity _ | zero _ | finite _ _ _ _ => exact ⟨rfl, rfl⟩

/-! ### Infinite and finite doubles. -/

section Kind

open Float.Model

/-- The exponent bits of a double, as `Float`'s operations unpack them. -/
theorem unpackExponent_toNat (x : Float) :
    (@UnpackedFloat.unpackExponent Format.binary64 x.toModel.toBits.toBitVec).toNat
      = x.toBits.toNat / 2 ^ 52 % 2 ^ 11 := by
  unfold UnpackedFloat.unpackExponent
  rw [BitVec.toNat_cast, BitVec.extractLsb_toNat, Nat.shiftRight_eq_div_pow]
  rfl

/-- The bits of its fraction. -/
theorem unpackMantissa_toNat (x : Float) :
    (@UnpackedFloat.unpackMantissa Format.binary64 x.toModel.toBits.toBitVec).toNat
      = x.toBits.toNat % 2 ^ 52 := by
  unfold UnpackedFloat.unpackMantissa
  rw [BitVec.toNat_cast, BitVec.extractLsb_toNat, Nat.shiftRight_zero]
  rfl

/-- Where the exponent bits are not all set, a finite number is unpacked. -/
theorem unpack_finite {spec : Format} {b : BitVec spec.numBits}
    (hexponent : UnpackedFloat.unpackExponent b ≠ -1#_) :
    (UnpackedFloat.unpack spec b).isInf = false ∧ (UnpackedFloat.unpack spec b).isFinite = true := by
  have hunpack : UnpackedFloat.unpack spec b = _ := if_neg hexponent
  rw [hunpack]
  by_cases hzero : UnpackedFloat.unpackExponent b = 0#_
  · rw [if_pos hzero]
    by_cases hfraction : UnpackedFloat.unpackMantissa b = 0#_
    · rw [dif_pos hfraction]
      exact ⟨rfl, rfl⟩
    · rw [dif_neg hfraction]
      exact ⟨rfl, rfl⟩
  · rw [if_neg hzero]
    exact ⟨rfl, rfl⟩

/-- **The value of a double is of the kind `Float` says.** -/
theorem floatValue_kind (x : Float) :
    (x.isInf = true ∧ x.isFinite = false ∧ ∃ negative, floatValue x = .infinite negative)
      ∨ (x.isInf = false ∧ x.isFinite = false ∧ floatValue x = .nan)
      ∨ (x.isInf = false ∧ x.isFinite = true
        ∧ ∃ negative mantissa exponent, floatValue x = .finite negative mantissa exponent) := by
  show ((UnpackedFloat.unpack Format.binary64 x.toModel.toBits.toBitVec).isInf = true
      ∧ (UnpackedFloat.unpack Format.binary64 x.toModel.toBits.toBitVec).isFinite = false ∧ _)
    ∨ ((UnpackedFloat.unpack Format.binary64 x.toModel.toBits.toBitVec).isInf = false
      ∧ (UnpackedFloat.unpack Format.binary64 x.toModel.toBits.toBitVec).isFinite = false ∧ _)
    ∨ ((UnpackedFloat.unpack Format.binary64 x.toModel.toBits.toBitVec).isInf = false
      ∧ (UnpackedFloat.unpack Format.binary64 x.toModel.toBits.toBitVec).isFinite = true ∧ _)
  have hexponent : @UnpackedFloat.unpackExponent Format.binary64 x.toModel.toBits.toBitVec = -1#_
      ↔ x.toBits.toNat / 2 ^ 52 % 2 ^ 11 = 2047 := by
    rw [← unpackExponent_toNat x, ← BitVec.toNat_inj]
    exact Iff.rfl
  have hfraction : @UnpackedFloat.unpackMantissa Format.binary64 x.toModel.toBits.toBitVec = 0#_
      ↔ x.toBits.toNat % 2 ^ 52 = 0 := by
    rw [← unpackMantissa_toNat x, ← BitVec.toNat_inj]
    exact Iff.rfl
  unfold floatValue
  dsimp only
  by_cases hall : x.toBits.toNat / 2 ^ 52 % 2 ^ 11 = 2047
  · rw [if_pos hall]
    have hunpack : UnpackedFloat.unpack Format.binary64 x.toModel.toBits.toBitVec = _ :=
      if_pos (hexponent.mpr hall)
    rw [hunpack]
    by_cases hzero : x.toBits.toNat % 2 ^ 52 = 0
    · rw [if_pos hzero, if_pos (hfraction.mpr hzero)]
      exact .inl ⟨rfl, rfl, _, rfl⟩
    · rw [if_neg hzero, if_neg fun h => hzero (hfraction.mp h)]
      exact .inr (.inl ⟨rfl, rfl, rfl⟩)
  · rw [if_neg hall]
    obtain ⟨hinf, hfinite⟩ := unpack_finite fun h => hall (hexponent.mp h)
    refine .inr (.inr ⟨hinf, hfinite, ?_⟩)
    split
    · exact ⟨_, _, _, rfl⟩
    · exact ⟨_, _, _, rfl⟩

/-- **What lies between finite doubles is finite.** -/
theorem isFinite_of_between {a x b : Float} (ha : a.isFinite = true) (hb : b.isFinite = true)
    (hax : a ≤ x) (hxb : x ≤ b) : x.isFinite = true := by
  have hax : a.toModel.unpack.le x.toModel.unpack = true := of_decide_eq_true hax
  have hxb : x.toModel.unpack.le b.toModel.unpack = true := of_decide_eq_true hxb
  replace ha : a.toModel.unpack.isFinite = true := ha
  replace hb : b.toModel.unpack.isFinite = true := hb
  show x.toModel.unpack.isFinite = true
  revert ha hb hax hxb
  generalize a.toModel.unpack = a
  generalize x.toModel.unpack = x
  generalize b.toModel.unpack = b
  intro hax hxb ha hb
  cases x with
  | zero _ | finite _ _ _ _ => rfl
  | notANumber =>
    cases b <;> exact absurd hxb Bool.false_ne_true
  | infinity sign =>
    cases sign with
    | positive =>
      cases b with
      | infinity _ | notANumber => exact absurd hb Bool.false_ne_true
      | zero _ | finite _ _ _ _ => exact absurd hxb Bool.false_ne_true
    | negative =>
      cases a with
      | infinity _ | notANumber => exact absurd ha Bool.false_ne_true
      | zero _ => exact absurd hax Bool.false_ne_true
      | finite sign _ _ _ => cases sign <;> exact absurd hax Bool.false_ne_true

end Kind

/-! ## §2. `float(text)`. -/

/-- A character as the parser sees it: digits and whitespace of any script are ASCII's, and what
else is not ASCII is no part of a number. -/
def toAscii (c : Char) : Char :=
  if c.toNat < 0x7F then c
  else if isSpace c then ' '
  else match decimalValue c with
    | some d => Char.ofNat ('0'.toNat + d)
    | none => '?'

/-- The text without its underscores, which must stand between digits. -/
def dropUnderscores (previous : Char) : Str → Option Str
  | [] => if previous = '_' then none else some []
  | c :: rest =>
    if c = '_' then
      if isdigit previous then dropUnderscores c rest else none
    else if previous = '_' ∧ isdigit c = false then none
    else (dropUnderscores c rest).map (c :: ·)

/-- An exponent up to the end of the text; an absent one is zero. -/
def readExponent : Str → Option Int
  | [] => some 0
  | c :: rest =>
    if c = 'e' ∨ c = 'E' then
      let digits := skipSign rest
      if digits ≠ [] ∧ digits.all isdigit then
        some (if rest.head? = some '-' then -(digitsValue 10 digits : Int) else digitsValue 10 digits)
      else none
    else none

/-- A decimal number without its sign: its digits as an integer, and the power of ten. -/
def readDecimal (s : Str) : Option (Nat × Int) :=
  let whole := s.takeWhile isdigit
  let rest := s.dropWhile isdigit
  let fraction := if rest.head? = some '.' then rest.tail.takeWhile isdigit else []
  let rest := if rest.head? = some '.' then rest.tail.dropWhile isdigit else rest
  if whole ++ fraction = [] then none
  else (readExponent rest).map fun e => (digitsValue 10 (whole ++ fraction), e - fraction.length)

/-- The double nearest to `digits * 10 ^ exponent`. -/
def nearest (digits : Nat) (exponent : Int) : Float :=
  Float.ofScientific digits (decide (exponent < 0)) exponent.natAbs

/-- A number without its sign. -/
def readUnsigned (s : Str) : Option Float :=
  match readDecimal s with
  | some (digits, exponent) => some (nearest digits exponent)
  | none =>
    let name := s.map Char.toLower
    if name = "inf".toList ∨ name = "infinity".toList then some (1.0 / 0.0)
    else if name = "nan".toList then some (0.0 / 0.0)
    else none

/-- `float(text)`; none where it raises `ValueError`. -/
def float (text : Str) : Option Float :=
  let stripped := ((text.map toAscii).dropWhile isspace).reverse.dropWhile isspace |>.reverse
  (dropUnderscores '\x00' stripped).bind fun s =>
    (readUnsigned (skipSign s)).map fun x => if s.head? = some '-' then -x else x

/-! ## §3. `repr` and `format`. -/

/-- Decimal digits, with zeros in front up to `width`. -/
def zeroPadded (width v : Nat) : Str :=
  List.replicate (width - (Nat.toDigits 10 v).length) '0' ++ Nat.toDigits 10 v

/-- The place of the decimal point: the least `k` with `num / den < 10 ^ k`, for a value above
zero. -/
def decimalPoint (num den : Nat) : Int :=
  if den ≤ num then (Nat.toDigits 10 (num / den)).length
  else 1 - ((Nat.toDigits 10 ((den - 1) / num)).length : Int)

/-- The decimal numbers of `places` places next to a value: the one that is not above it, and
how far above that one the value is, as a numerator and a denominator. -/
def decimalBelow (num den : Nat) (places : Int) : Nat × Nat × Nat :=
  let num := num * 10 ^ places.toNat
  let den := den * 10 ^ (-places).toNat
  (num / den, num % den, den)

/-- The decimal number of `places` places that is read back as `x` and is nearest to its value,
a tie going to the even digit; none where no such number is read back. -/
def readsBack (x : Float) (num den : Nat) (places : Int) : Option Nat :=
  let (low, rest, unit) := decimalBelow num den places
  let back (digits : Nat) : Bool := decide (nearest digits (-places) = x)
  if back low && back (low + 1) then
    some (if 2 * rest < unit ∨ (2 * rest = unit ∧ low % 2 = 0) then low else low + 1)
  else if back low then some low
  else if back (low + 1) then some (low + 1)
  else none

/-- The shortest decimal number that is read back as `x`, for a finite `x` above zero: digits
and places.  Seventeen digits always do. -/
def shortest (x : Float) (num den : Nat) : Nat × Int :=
  let point := decimalPoint num den
  ((List.range 17).findSome? fun n =>
    (readsBack x num den (n + 1 - point)).map fun digits => (digits, (n + 1 - point : Int))).getD
    ((decimalBelow num den (17 - point)).1, 17 - point)

/-- Digits with the decimal point at `point`, as `repr` lays them out. -/
def layOut (digits : Str) (point : Int) : Str :=
  if -4 < point ∧ point ≤ 16 then
    if point ≤ 0 then '0' :: '.' :: List.replicate (-point).toNat '0' ++ digits
    else if digits.length ≤ point.toNat then
      digits ++ List.replicate (point.toNat - digits.length) '0' ++ ['.', '0']
    else digits.take point.toNat ++ '.' :: digits.drop point.toNat
  else
    let exponent := point - 1
    digits.take 1 ++ (if digits.length ≤ 1 then [] else '.' :: digits.drop 1)
      ++ 'e' :: (if exponent < 0 then '-' else '+') :: zeroPadded 2 exponent.natAbs

/-- The sign in front of a number. -/
def signText (negative : Bool) : Str := if negative then ['-'] else []

/-- `repr(x)`, which is also `str(x)` and `format(x, "")`. -/
def reprFloat (x : Float) : Str :=
  match floatValue x with
  | .nan => "nan".toList
  | .infinite negative => signText negative ++ "inf".toList
  | .finite negative mantissa exponent =>
    if mantissa = 0 then signText negative ++ "0.0".toList
    else
      let v := asFraction mantissa exponent
      let decimal := shortest (if negative then -x else x) v.1 v.2
      let digits := Nat.toDigits 10 decimal.1
      -- zeros at the end are no part of the shortest text
      let bare := (digits.reverse.dropWhile (· = '0')).reverse
      signText negative ++ layOut bare (digits.length - decimal.2)

/-- A value rounded to `places` decimal places, a tie going to the even digit. -/
def roundedTo (num den places : Nat) : Nat :=
  let (low, rest, unit) := decimalBelow num den places
  if 2 * rest < unit ∨ (2 * rest = unit ∧ low % 2 = 0) then low else low + 1

/-- `format(x, ".{places}f")`, for one place or more. -/
def formatFixed (places : Nat) (x : Float) : Str :=
  match floatValue x with
  | .nan => "nan".toList
  | .infinite negative => signText negative ++ "inf".toList
  | .finite negative mantissa exponent =>
    let v := asFraction mantissa exponent
    let rounded := roundedTo v.1 v.2 places
    signText negative ++ Nat.toDigits 10 (rounded / 10 ^ places) ++ '.'
      :: zeroPadded places (rounded % 10 ^ places)

/-! ## §4. A written number is one word. -/

/-- The characters of written numbers. -/
def isNumeral (c : Char) : Bool := isdigit c || "+-.aefin".toList.contains c

/-- No character of a number separates words. -/
theorem isSpace_of_isNumeral {c : Char} (h : isNumeral c = true) : isSpace c = false := by
  rw [isNumeral, Bool.or_eq_true] at h
  rcases h with h | h
  · unfold isdigit at h
    obtain ⟨hlow, hhigh⟩ := Bool.and_eq_true_iff.mp h
    have hlow : 48 ≤ c.toNat := of_decide_eq_true hlow
    have hhigh : c.toNat ≤ 57 := of_decide_eq_true hhigh
    simp only [isSpace, Bool.or_eq_false_iff, decide_eq_false_iff_not]
    omega
  · have hall : ∀ d ∈ "+-.aefin".toList, isSpace d = false :=
      List.all_iff_forall_prop.mp (by decide)
    exact hall c (List.contains_iff_mem.mp h)

theorem isNumeral_toDigits {n : Nat} {c : Char} (h : c ∈ Nat.toDigits 10 n) :
    isNumeral c = true := by
  have hdigit := Nat.isDigit_of_mem_toDigits (by decide) (by decide) h
  rw [isNumeral, Bool.or_eq_true]
  left
  unfold isdigit
  unfold Char.isDigit at hdigit
  exact hdigit

theorem isNumeral_zeroPadded {width v : Nat} {c : Char} (h : c ∈ zeroPadded width v) :
    isNumeral c = true := by
  rcases List.mem_append.mp h with h | h
  · rw [List.eq_of_mem_replicate h]
    decide
  · exact isNumeral_toDigits h

theorem isNumeral_signText {negative : Bool} {c : Char} (h : c ∈ signText negative) :
    isNumeral c = true := by
  cases negative with
  | true =>
    rw [List.mem_singleton.mp h]
    decide
  | false => exact absurd h List.not_mem_nil

/-- Laying digits out adds nothing but characters of numbers. -/
theorem isNumeral_layOut {digits : Str} (hd : ∀ c ∈ digits, isNumeral c = true) (point : Int) :
    ∀ c ∈ layOut digits point, isNumeral c = true := by
  have hzeros : ∀ n, ∀ c ∈ List.replicate n '0', isNumeral c = true := by
    intro n c hc
    rw [List.eq_of_mem_replicate hc]
    decide
  have hpoint : isNumeral '.' = true := by decide
  unfold layOut
  split
  · split
    · simp only [List.cons_append, List.forall_mem_cons, List.forall_mem_append]
      exact ⟨by decide, hpoint, hzeros _, hd⟩
    · split
      · simp only [List.forall_mem_append, List.forall_mem_cons]
        exact ⟨⟨hd, hzeros _⟩, hpoint, by decide, by simp⟩
      · simp only [List.forall_mem_append, List.forall_mem_cons]
        exact ⟨fun c hc => hd c (List.mem_of_mem_take hc), hpoint,
          fun c hc => hd c (List.mem_of_mem_drop hc)⟩
  · simp only [List.forall_mem_append, List.forall_mem_cons]
    refine ⟨⟨fun c hc => hd c (List.mem_of_mem_take hc), ?_⟩, by decide, ?_,
      fun c hc => isNumeral_zeroPadded hc⟩
    · split
      · simp
      · rw [List.forall_mem_cons]
        exact ⟨hpoint, fun c hc => hd c (List.mem_of_mem_drop hc)⟩
    · split <;> decide

/-- **What `repr` writes is one word.** -/
theorem reprFloat_numeral (x : Float) : ∀ c ∈ reprFloat x, isNumeral c = true := by
  unfold reprFloat
  split
  · exact List.all_iff_forall_prop.mp (by decide)
  · rw [List.forall_mem_append]
    exact ⟨fun c hc => isNumeral_signText hc, List.all_iff_forall_prop.mp (by decide)⟩
  · split
    · rw [List.forall_mem_append]
      exact ⟨fun c hc => isNumeral_signText hc, List.all_iff_forall_prop.mp (by decide)⟩
    · rw [List.forall_mem_append]
      refine ⟨fun c hc => isNumeral_signText hc, isNumeral_layOut ?_ _⟩
      intro c hc
      have hc := (List.dropWhile_sublist _).subset (List.mem_reverse.mp hc)
      exact isNumeral_toDigits (List.mem_reverse.mp hc)

/-- A number laid out has a character in it, whatever its digits. -/
theorem layOut_ne_nil (digits : Str) (point : Int) : layOut digits point ≠ [] := by
  unfold layOut
  split
  · split
    · exact List.cons_ne_nil _ _
    · split <;> simp
  · simp

theorem reprFloat_ne_nil (x : Float) : reprFloat x ≠ [] := by
  unfold reprFloat
  split
  · decide
  · simp
  · split
    · simp
    · exact List.append_ne_nil_of_right_ne_nil _ (layOut_ne_nil _ _)

end KFsw.Lib
