/-
  KFsw.Lib.PyHex — bytes as hexadecimal text: `bytes.hex` and `bytes.fromhex`.

  Main result:
    * `fromHex_hex` — hexadecimal text is read back.
-/
import KFsw.Lib.Json

namespace KFsw.Lib

/-- `bytes.hex()`. -/
def hex (data : Bytes) : Str :=
  data.flatMap fun b => [Nat.digitChar (b.toNat / 16), Nat.digitChar (b.toNat % 16)]

/-- `bytes.fromhex(text)`: whitespace may stand between the pairs of digits. -/
def fromHex : Str → Option Bytes
  | [] => some []
  | c :: rest =>
    if isspace c then fromHex rest
    else
      match rest with
      | [] => none
      | d :: rest =>
        (Json.hexDigit c).bind fun high => (Json.hexDigit d).bind fun low =>
          (fromHex rest).map (UInt8.ofNat (high * 16 + low) :: ·)

/-- The two digits of a byte. -/
theorem hexDigit_digitChar {n : Nat} (h : n < 16) :
    Json.hexDigit n.digitChar = some n ∧ isspace n.digitChar = false
      ∧ Json.isPlain n.digitChar = true := by
  have hall : ∀ n < 16, Json.hexDigit (Nat.digitChar n) = some n
      ∧ isspace (Nat.digitChar n) = false ∧ Json.isPlain (Nat.digitChar n) = true := by decide
  exact hall n h

/-- **Hexadecimal text is read back.** -/
theorem fromHex_hex (data : Bytes) : fromHex (hex data) = some data := by
  induction data with
  | nil => rfl
  | cons b data ih =>
    have hb := b.toNat_lt
    obtain ⟨hhigh, hspace, _⟩ := hexDigit_digitChar (show b.toNat / 16 < 16 by omega)
    obtain ⟨hlow, _, _⟩ := hexDigit_digitChar (show b.toNat % 16 < 16 by omega)
    show fromHex ((b.toNat / 16).digitChar :: (b.toNat % 16).digitChar :: hex data) = _
    rw [fromHex, hspace, if_neg Bool.false_ne_true, hhigh, hlow, ih, Option.bind_some,
      Option.bind_some, Option.map_some,
      show b.toNat / 16 * 16 + b.toNat % 16 = b.toNat by omega, UInt8.ofNat_toNat]

theorem hex_plain (data : Bytes) : Json.Plain (hex data) := by
  intro c hc
  obtain ⟨b, _, hb⟩ := List.mem_flatMap.mp hc
  have hlt := b.toNat_lt
  rcases List.mem_cons.mp hb with rfl | hb
  · exact (hexDigit_digitChar (by omega)).2.2
  · rw [List.mem_singleton.mp hb]
    exact (hexDigit_digitChar (by omega)).2.2

theorem hex_length (data : Bytes) : (hex data).length = 2 * data.length := by
  induction data with
  | nil => rfl
  | cons b data ih =>
    show (hex data).length + 1 + 1 = 2 * (data.length + 1)
    omega

/-- A byte written with two digits. -/
theorem hexPadded_byte (b : UInt8) :
    hexPadded 2 b.toNat = [Nat.digitChar (b.toNat / 16), Nat.digitChar (b.toNat % 16)] := by
  have hb := b.toNat_lt
  have hsmall : ∀ n < 16, Nat.toDigits 16 n = [Nat.digitChar n] := fun n hn => by
    rw [Nat.toDigits_eq_if (by decide), if_pos hn]
  unfold hexPadded
  by_cases h : b.toNat < 16
  · rw [hsmall _ h, Nat.div_eq_of_lt h, Nat.mod_eq_of_lt h]
    rfl
  · rw [Nat.toDigits_eq_if (by decide), if_neg h, hsmall (b.toNat / 16) (by omega)]
    rfl

end KFsw.Lib
