/-
  KFsw.Lib.CMemory — arrays of characters of a fixed size, and what C writes to
  them.

  A store outside the array is no step of the model: it gives `none`.  So a
  function that is proved to give an array never wrote outside of it, whatever
  the array held before.

  Main results:
    * `storeAll_spec` — some characters stored one after the other;
    * `snprintf_spec` — formatted text behind other text, as much as there is
      room for, with its NUL;
    * `Holds.text`    — an array that holds a text is read as that text.
-/
import KFsw.Lib.CString

namespace KFsw.Lib

/-- `'\0'`. -/
def NUL : Char := Char.ofNat 0

def INT_MAX : Nat := 2147483647

/-- A `char` array of `size` elements. -/
structure CArray (size : Nat) where
  cells : Text
  length_eq : cells.length = size

namespace CArray

variable {size : Nat}

/-- An array of zeros. -/
def blank (size : Nat) : CArray size := ⟨List.replicate size NUL, List.length_replicate⟩

/-- `a[i] = c`; there is no element behind the last. -/
def store (a : CArray size) (i : Nat) (c : Char) : Option (CArray size) :=
  if i < size then some ⟨a.cells.set i c, by rw [List.length_set, a.length_eq]⟩ else none

/-- `memcpy(&a[i], s, n)`, for the `n` characters of `s`. -/
def storeAll (a : CArray size) (i : Nat) : Text → Option (CArray size)
  | [] => some a
  | c :: s => (a.store i c).bind fun a => a.storeAll (i + 1) s

/-- What `snprintf` returns: the length of all of the text, or an error where that is no `int`. -/
def snprintfResult (s : Text) : Int := if s.length ≤ INT_MAX then s.length else -1

/-- `snprintf(&a[used], sizeof(a) - used, ...)` of a formatted text `s`: what there is room for,
and a NUL.  A pointer behind the end of the array, with a size that wrapped, is none. -/
def snprintf (a : CArray size) (used : Nat) (s : Text) : Option (CArray size × Int) :=
  if used < size then
    (a.storeAll used (s.take (size - used - 1) ++ [NUL])).map fun a => (a, snprintfResult s)
  else if used = size then some (a, snprintfResult s)
  else none

/-- The text of an array: what stands before the first NUL. -/
def text (a : CArray size) : Text := a.cells.takeWhile (· ≠ NUL)

/-- The array begins with this text and a NUL. -/
def Holds (a : CArray size) (t : Text) : Prop := t ++ [NUL] <+: a.cells

/-! ## §1. Stores. -/

theorem store_eq_some {a : CArray size} {i : Nat} (h : i < size) (c : Char) :
    ∃ b, a.store i c = some b ∧ b.cells = a.cells.set i c :=
  ⟨_, if_pos h, rfl⟩

/-- **Some characters stored one after the other** stand where they were stored; what stands
before them stays. -/
theorem storeAll_spec (a : CArray size) {t : Text} (ht : t <+: a.cells) (s : Text)
    (h : t.length + s.length ≤ size) :
    ∃ b, a.storeAll t.length s = some b ∧ t ++ s <+: b.cells := by
  -- on the characters, with the ones stored before in front
  induction s generalizing a t with
  | nil => exact ⟨a, rfl, by rw [List.append_nil]; exact ht⟩
  | cons c s ih =>
    rw [List.length_cons] at h
    obtain ⟨rest, hrest⟩ := ht
    obtain ⟨b, hb, hcells⟩ := a.store_eq_some (show t.length < size by omega) c
    have hlength : rest ≠ [] := by
      intro hnil
      have := a.length_eq
      rw [← hrest, hnil, List.append_nil] at this
      omega
    obtain ⟨d, rest, rfl⟩ := List.exists_cons_of_ne_nil hlength
    have hprefix : t ++ [c] <+: b.cells := by
      rw [hcells, ← hrest, List.set_append_right _ _ (Nat.le_refl _), Nat.sub_self, List.set_cons_zero]
      exact ⟨rest, by rw [List.append_assoc]; rfl⟩
    obtain ⟨e, he, hall⟩ := ih b hprefix (by rw [List.length_append, List.length_singleton]; omega)
    refine ⟨e, ?_, ?_⟩
    · rw [List.length_append, List.length_singleton] at he
      show (a.store t.length c).bind _ = some e
      rw [hb]
      exact he
    · rw [List.append_assoc] at hall
      exact hall

/-- A text is ended where it stops. -/
theorem store_nul (a : CArray size) {t : Text} (ht : t <+: a.cells) (h : t.length < size) :
    ∃ b, a.store t.length NUL = some b ∧ b.Holds t := by
  obtain ⟨b, hb, hcells⟩ := a.storeAll_spec ht [NUL] h
  refine ⟨b, ?_, hcells⟩
  have hstore : (a.store t.length NUL).bind some = some b := hb
  rwa [Option.bind_fun_some] at hstore

/-- **Formatted text behind other text**: as much of it as there is room for, then a NUL. -/
theorem snprintf_spec (a : CArray size) {t : Text} (ht : t <+: a.cells) (s : Text)
    (h : t.length < size) :
    ∃ b, a.snprintf t.length s = some (b, snprintfResult s)
      ∧ b.Holds (t ++ s.take (size - t.length - 1)) := by
  have hroom : t.length + (s.take (size - t.length - 1) ++ [NUL]).length ≤ size := by
    rw [List.length_append, List.length_take, List.length_singleton]
    omega
  obtain ⟨b, hb, hcells⟩ := a.storeAll_spec ht (s.take (size - t.length - 1) ++ [NUL]) hroom
  refine ⟨b, ?_, ?_⟩
  · rw [snprintf, if_pos h, hb]
    rfl
  · rw [Holds, List.append_assoc]
    exact hcells

/-! ## §2. Reading. -/

/-- An array that holds a text is read as the text up to its first NUL. -/
theorem Holds.text_eq {a : CArray size} {t : Text} (h : a.Holds t) :
    a.text = t.takeWhile (· ≠ NUL) := by
  obtain ⟨rest, hrest⟩ := h
  rw [CArray.text, ← hrest, List.append_assoc, List.takeWhile_append]
  split
  · rename_i hall
    show t ++ (NUL :: rest).takeWhile _ = _
    rw [List.takeWhile_cons_of_neg (by simp), List.append_nil]
    exact ((List.takeWhile_prefix _).eq_of_length hall).symm
  · rfl

/-- **An array that holds a text** is read as that text. -/
theorem Holds.text {a : CArray size} {t : Text} (h : a.Holds t) (ht : NUL ∉ t) : a.text = t := by
  rw [h.text_eq, List.takeWhile_eq_self_iff]
  intro c hc
  exact decide_eq_true fun hnul => ht (hnul ▸ hc)

theorem Holds.isPrefix {a : CArray size} {t : Text} (h : a.Holds t) : t <+: a.cells :=
  (List.prefix_append t [NUL]).trans h

/-- A text and its NUL are inside the array. -/
theorem Holds.length_lt {a : CArray size} {t : Text} (h : a.Holds t) : t.length < size := by
  have hle := List.IsPrefix.length_le h
  rw [a.length_eq, List.length_append, List.length_singleton] at hle
  omega

theorem snprintfResult_of_le {s : Text} (h : s.length ≤ INT_MAX) :
    snprintfResult s = s.length := if_pos h

/-- Text that fits is written whole. -/
theorem snprintf_whole (a : CArray size) {t : Text} (ht : t <+: a.cells) {s : Text}
    (h : t.length + s.length < size) :
    ∃ b, a.snprintf t.length s = some (b, snprintfResult s) ∧ b.Holds (t ++ s) := by
  obtain ⟨b, hb, hholds⟩ := a.snprintf_spec ht s (by omega)
  rw [List.take_of_length_le (by omega)] at hholds
  exact ⟨b, hb, hholds⟩

end CArray

end KFsw.Lib
