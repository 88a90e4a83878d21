/-
  KFsw.Lib.CString — C texts: `strtoul`, words between spaces, fixed buffers.

  A C text is the list of its characters before the terminating NUL, one `Char`
  for each byte.  A pointer into a text is the text from there on.

  Main results:
    * `strtoul_append_stop`   — what is no digit, after a text with something to
      read in it, changes nothing but what remains;
    * `textWords_joinWords`   — words joined by single spaces are found again;
    * `CBuffer.snprintf_append` — text that fits behind other text in a fixed
      buffer is written whole.
-/
import Mathlib.Data.List.Basic
import Mathlib.Data.List.Infix
import Mathlib.Data.List.TakeWhile

namespace KFsw.Lib

/-- A C text without its NUL. -/
abbrev Text := List Char

/-! ## §1. Characters. -/

/-- `isspace` in the C locale. -/
def isspace (c : Char) : Bool :=
  c = ' ' || c = '\t' || c = '\n' || c = '\x0b' || c = '\x0c' || c = '\r'

/-- The value of a digit or letter in a number. -/
def digitValue (c : Char) : Option Nat :=
  if '0' ≤ c ∧ c ≤ '9' then some (c.toNat - '0'.toNat)
  else if 'a' ≤ c ∧ c ≤ 'z' then some (c.toNat - 'a'.toNat + 10)
  else if 'A' ≤ c ∧ c ≤ 'Z' then some (c.toNat - 'A'.toNat + 10)
  else none

def isDigitIn (base : Nat) (c : Char) : Bool :=
  match digitValue c with
  | some d => decide (d < base)
  | none => false

/-- `isdigit`. -/
def isdigit (c : Char) : Bool := decide ('0' ≤ c) && decide (c ≤ '9')

/-! ## §2. `strtoul` with base 0. -/

/-- The digits after a hexadecimal prefix, when a digit follows it. -/
def afterHexPrefix : Text → Option Text
  | '0' :: x :: d :: rest =>
    if (x = 'x' ∨ x = 'X') ∧ isDigitIn 16 d = true then some (d :: rest) else none
  | _ => none

/-- The base a number is written in, and its digits. -/
def detectBase (s : Text) : Nat × Text :=
  match afterHexPrefix s with
  | some digits => (16, digits)
  | none => if s.head? = some '0' then (8, s) else (10, s)

/-- A number without its sign. -/
def skipSign (body : Text) : Text :=
  if body.head? = some '-' ∨ body.head? = some '+' then body.tail else body

/-- What `strtoul` returns: the value, the text at `*endptr`, and whether it set `ERANGE`. -/
structure Strtoul where
  value : Nat
  rest : Text
  range : Bool
  deriving DecidableEq

/-- `strtoul(s, &end, 0)` for an `unsigned long` up to `ulongMax`. -/
def strtoul (ulongMax : Nat) (s : Text) : Strtoul :=
  let body := s.dropWhile isspace
  let negative := body.head? = some '-'
  let number := detectBase (skipSign body)
  let digits := number.2.takeWhile (isDigitIn number.1)
  if digits = [] then
    -- no conversion: `*endptr` is the text itself
    ⟨0, s, false⟩
  else
    let value := digits.foldl (fun v c => v * number.1 + (digitValue c).getD 0) 0
    let rest := number.2.dropWhile (isDigitIn number.1)
    if value > ulongMax then ⟨ulongMax, rest, true⟩
    else ⟨if negative then (ulongMax + 1 - value) % (ulongMax + 1) else value, rest, false⟩

theorem takeWhile_append_stop {p : Char → Bool} (l t : Text) (c : Char) (hc : p c = false) :
    (l ++ c :: t).takeWhile p = l.takeWhile p := by
  induction l with
  | nil => rw [List.nil_append, List.takeWhile_cons_of_neg (by simp [hc]), List.takeWhile_nil]
  | cons a l ih =>
    rw [List.cons_append, List.takeWhile_cons, List.takeWhile_cons, ih]

theorem dropWhile_append_stop {p : Char → Bool} (l t : Text) (c : Char) (hc : p c = false) :
    (l ++ c :: t).dropWhile p = l.dropWhile p ++ c :: t := by
  induction l with
  | nil => rw [List.nil_append, List.dropWhile_cons_of_neg (by simp [hc])]; rfl
  | cons a l ih =>
    rw [List.cons_append, List.dropWhile_cons, List.dropWhile_cons, ih]
    split <;> rfl

/-- What is no digit and no letter stops a number of any base. -/
theorem isDigitIn_stop {c : Char} (hc : digitValue c = none) (base : Nat) :
    isDigitIn base c = false := by
  rw [isDigitIn, hc]

/-- No character of a hexadecimal prefix stops a number. -/
theorem afterHexPrefix_append_stop {c : Char} (hc : digitValue c = none) (s t : Text) :
    afterHexPrefix (s ++ c :: t) = (afterHexPrefix s).map (· ++ c :: t) := by
  have hzero : c ≠ '0' := fun h => absurd (h ▸ hc) (by decide)
  have hx : ¬ (c = 'x' ∨ c = 'X') := by
    rintro (h | h) <;> exact absurd (h ▸ hc) (by decide)
  match s with
  | [] => simp [afterHexPrefix, hzero]
  | [a] =>
    cases t with
    | nil => simp [afterHexPrefix]
    | cons b t =>
      by_cases ha : a = '0'
      · subst ha
        show (if (c = 'x' ∨ c = 'X') ∧ isDigitIn 16 b = true then _ else none) = none
        rw [if_neg fun h => hx h.1]
      · simp [afterHexPrefix, ha]
  | [a, b] =>
    by_cases ha : a = '0'
    · subst ha
      show (if (b = 'x' ∨ b = 'X') ∧ isDigitIn 16 c = true then _ else none) = none
      rw [if_neg (by rw [isDigitIn_stop hc]; simp)]
    · simp [afterHexPrefix, ha]
  | a :: b :: d :: rest =>
    by_cases ha : a = '0'
    · subst ha
      show (if (b = 'x' ∨ b = 'X') ∧ isDigitIn 16 d = true then some (d :: (rest ++ c :: t))
        else none) = (if (b = 'x' ∨ b = 'X') ∧ isDigitIn 16 d = true then some (d :: rest)
        else none).map (· ++ c :: t)
      split <;> rfl
    · simp [afterHexPrefix, ha]

theorem detectBase_append_stop {c : Char} (hc : digitValue c = none) (s t : Text) :
    detectBase (s ++ c :: t) = ((detectBase s).1, (detectBase s).2 ++ c :: t) := by
  have hzero : c ≠ '0' := fun h => absurd (h ▸ hc) (by decide)
  rw [detectBase, detectBase, afterHexPrefix_append_stop hc]
  cases afterHexPrefix s with
  | some digits => rfl
  | none =>
    cases s with
    | nil =>
      rw [Option.map_none, List.nil_append, List.head?_cons]
      dsimp only
      rw [if_neg fun h => hzero (Option.some.inj h), if_neg (by simp)]
      rfl
    | cons a s =>
      rw [Option.map_none, List.cons_append, List.head?_cons, List.head?_cons]
      by_cases ha : some a = some '0'
      · rw [if_pos ha, if_pos ha]
        rfl
      · rw [if_neg ha, if_neg ha]
        rfl

/-- **What stands behind the number** ends what `strtoul` reads and changes nothing else,
unless the text before it is white space only. -/
theorem strtoul_append_stop {c : Char} (hc : digitValue c = none) (ulongMax : Nat) (s t : Text)
    (hs : ∃ c ∈ s, isspace c = false) :
    strtoul ulongMax (s ++ c :: t)
      = { strtoul ulongMax s with rest := (strtoul ulongMax s).rest ++ c :: t } := by
  -- the white space in front ends inside `s`
  have hne : s.dropWhile isspace ≠ [] := by
    obtain ⟨c, hc, hspace⟩ := hs
    intro hnil
    have := List.dropWhile_eq_nil_iff.mp hnil c hc
    rw [hspace] at this
    exact absurd this (by decide)
  have hbody : (s ++ c :: t).dropWhile isspace = s.dropWhile isspace ++ c :: t := by
    rw [List.dropWhile_append, if_neg (by simpa using hne)]
  obtain ⟨a, rest, hcons⟩ := List.exists_cons_of_ne_nil hne
  have hsign : skipSign (a :: (rest ++ c :: t)) = skipSign (a :: rest) ++ c :: t := by
    rw [skipSign, skipSign, List.head?_cons, List.head?_cons]
    by_cases ha : some a = some '-' ∨ some a = some '+'
    · rw [if_pos ha, if_pos ha]
      rfl
    · rw [if_neg ha, if_neg ha]
      rfl
  unfold strtoul
  rw [hbody, hcons, List.cons_append]
  dsimp only
  rw [hsign, detectBase_append_stop hc]
  dsimp only
  rw [takeWhile_append_stop _ _ _ (isDigitIn_stop hc _),
    dropWhile_append_stop _ _ _ (isDigitIn_stop hc _), List.head?_cons, List.head?_cons]
  split
  · rfl
  · split <;> rfl

/-- The three ways a number is written, as `detectBase` tells them apart. -/
inductive Detected : Text → Prop
  | hexadecimal (x d : Char) (rest : Text) (hx : x = 'x' ∨ x = 'X') (hd : isDigitIn 16 d = true)
      (hbase : detectBase ('0' :: x :: d :: rest) = (16, d :: rest)) :
      Detected ('0' :: x :: d :: rest)
  | octal (digits : Text) (hhex : afterHexPrefix ('0' :: digits) = none)
      (hbase : detectBase ('0' :: digits) = (8, '0' :: digits)) : Detected ('0' :: digits)
  | decimal (s : Text) (hzero : s.head? ≠ some '0') (hbase : detectBase s = (10, s)) : Detected s

theorem detectBase_cases (s : Text) : Detected s := by
  cases hhex : afterHexPrefix s with
  | some digits =>
    have hbase : detectBase s = (16, digits) := by
      rw [detectBase, hhex]
    unfold afterHexPrefix at hhex
    split at hhex
    · rename_i x d rest
      split at hhex
      · rename_i hprefixed
        obtain rfl := Option.some.inj hhex
        exact .hexadecimal x d rest hprefixed.1 hprefixed.2 hbase
      · exact absurd hhex (by simp)
    · exact absurd hhex (by simp)
  | none =>
    by_cases hzero : s.head? = some '0'
    · have hbase : detectBase s = (8, s) := by
        rw [detectBase, hhex]
        exact if_pos hzero
      cases s with
      | nil => exact absurd hzero (by simp)
      | cons c digits =>
        obtain rfl : c = '0' := Option.some.inj hzero
        exact .octal digits hhex hbase
    · have hbase : detectBase s = (10, s) := by
        rw [detectBase, hhex]
        exact if_neg hzero
      exact .decimal s hzero hbase

theorem detectBase_suffix (s : Text) : (detectBase s).2 <:+ s := by
  cases detectBase_cases s with
  | hexadecimal x d rest _ _ hbase =>
    rw [hbase]
    exact ⟨['0', x], rfl⟩
  | octal digits _ hbase =>
    rw [hbase]
  | decimal _ _ hbase =>
    rw [hbase]

theorem skipSign_suffix (body : Text) : skipSign body <:+ body := by
  unfold skipSign
  split
  · exact List.tail_suffix body
  · exact List.suffix_rfl

/-- `*endptr` points into the text. -/
theorem strtoul_rest_suffix (ulongMax : Nat) (s : Text) : (strtoul ulongMax s).rest <:+ s := by
  -- white space, the sign, the base's prefix and the digits are dropped in turn
  have hbody : skipSign (s.dropWhile isspace) <:+ s :=
    (skipSign_suffix _).trans (List.dropWhile_suffix isspace)
  have hnumber : (detectBase (skipSign (s.dropWhile isspace))).2 <:+ s :=
    (detectBase_suffix _).trans hbody
  have hrest := (List.dropWhile_suffix (isDigitIn
    (detectBase (skipSign (s.dropWhile isspace))).1)).trans hnumber
  unfold strtoul
  dsimp only
  split
  · exact List.suffix_rfl
  · split
    · exact hrest
    · exact hrest

/-- The value of some digits. -/
def digitsValue (base : Nat) (digits : Text) : Nat :=
  digits.foldl (fun v c => v * base + (digitValue c).getD 0) 0

/-! ## §3. Words between spaces. -/

/-- A word: not empty and without a space. -/
def IsWord (w : Text) : Prop := w ≠ [] ∧ ' ' ∉ w

instance (w : Text) : Decidable (IsWord w) := inferInstanceAs (Decidable (_ ∧ _))

/-- Words joined by single spaces. -/
def joinWords : List Text → Text
  | [] => []
  | [w] => w
  | w :: v :: rest => w ++ ' ' :: joinWords (v :: rest)

/-- A text is shorter without its first word. -/
theorem length_after_word {text rest : Text} {c : Char} (h : text.dropWhile (· = ' ') = c :: rest) :
    ((c :: rest).dropWhile (· ≠ ' ')).length < text.length := by
  have hhead : c ≠ ' ' := by
    have := List.head_dropWhile_not (fun d : Char => decide (d = ' ')) (l := text) (by rw [h]; simp)
    simpa [h] using this
  have h1 := (List.dropWhile_sublist (l := text) (· = ' ')).length_le
  have h2 := (List.dropWhile_sublist (l := rest) (· ≠ ' ')).length_le
  rw [h, List.length_cons] at h1
  rw [List.dropWhile_cons_of_pos (by simpa using hhead)]
  omega

/-- The words of a text, as a loop over it finds them. -/
def textWords (text : Text) : List Text :=
  match _h : text.dropWhile (· = ' ') with
  | [] => []
  | c :: rest =>
    (c :: rest).takeWhile (· ≠ ' ') :: textWords ((c :: rest).dropWhile (· ≠ ' '))
termination_by text.length
decreasing_by exact length_after_word _h

/-- One turn of the loop. -/
theorem textWords_eq (text : Text) :
    textWords text = match text.dropWhile (· = ' ') with
      | [] => []
      | c :: rest =>
        (c :: rest).takeWhile (· ≠ ' ') :: textWords ((c :: rest).dropWhile (· ≠ ' ')) := by
  rw [textWords]
  split <;> rename_i h <;> rw [h]

theorem textWords_nil : textWords [] = [] := by
  rw [textWords_eq]
  rfl

/-- A space in front is skipped. -/
theorem textWords_space (text : Text) : textWords (' ' :: text) = textWords text := by
  rw [textWords_eq, textWords_eq text, List.dropWhile_cons_of_pos (by decide)]

theorem takeWhile_word {w : Text} (hw : ' ' ∉ w) : w.takeWhile (· ≠ ' ') = w := by
  rw [List.takeWhile_eq_self_iff]
  intro c hc
  simp only [ne_eq, decide_eq_true_eq]
  exact fun h => hw (h ▸ hc)

theorem dropWhile_word {w : Text} (hw : ' ' ∉ w) : w.dropWhile (· ≠ ' ') = [] := by
  rw [List.dropWhile_eq_nil_iff]
  intro c hc
  simp only [ne_eq, decide_eq_true_eq]
  exact fun h => hw (h ▸ hc)

/-- A word at the end of a text, or before a space. -/
theorem textWords_word {w : Text} (hw : IsWord w) (rest : Text)
    (hrest : rest = [] ∨ ∃ t, rest = ' ' :: t) :
    textWords (w ++ rest) = w :: textWords rest := by
  obtain ⟨hne, hspace⟩ := hw
  obtain ⟨c, w', rfl⟩ := List.exists_cons_of_ne_nil hne
  have hc : c ≠ ' ' := fun h => hspace (by simp [h])
  rw [textWords_eq, List.cons_append, List.dropWhile_cons_of_neg (by simpa using hc)]
  dsimp only
  rw [← List.cons_append]
  rcases hrest with rfl | ⟨t, rfl⟩
  · rw [List.append_nil, takeWhile_word hspace, dropWhile_word hspace]
  · rw [takeWhile_append_stop _ _ _ (by decide), dropWhile_append_stop _ _ _ (by decide),
      takeWhile_word hspace, dropWhile_word hspace, List.nil_append]

/-- **The words are the pieces between spaces** that are not empty. -/
theorem textWords_eq_splitOn (text : Text) :
    textWords text = (text.splitOn ' ').filter (· ≠ []) := by
  -- by length: up to the first space stands a word, or nothing
  induction hn : text.length using Nat.strongRecOn generalizing text with
  | _ n ih =>
    by_cases hspace : ' ' ∈ text
    · obtain ⟨w, rest, rfl, hw⟩ := List.eq_append_cons_of_mem hspace
      have hlen : rest.length < n := by
        rw [← hn, List.length_append, List.length_cons]
        omega
      rw [List.splitOn_append_cons_self_of_not_mem hw]
      cases w with
      | nil =>
        rw [List.nil_append, textWords_space, ih rest.length hlen rest rfl,
          List.filter_cons_of_neg (by simp)]
      | cons c w =>
        rw [textWords_word ⟨List.cons_ne_nil c w, hw⟩ _ (.inr ⟨rest, rfl⟩), textWords_space,
          ih rest.length hlen rest rfl, List.filter_cons_of_pos (by simp)]
    · rw [List.splitOn_eq_singleton hspace]
      cases text with
      | nil => exact textWords_nil
      | cons c text =>
        have h := textWords_word ⟨List.cons_ne_nil c text, hspace⟩ [] (.inl rfl)
        rw [List.append_nil, textWords_nil] at h
        rw [h, List.filter_cons_of_pos (by simp), List.filter_nil]

/-- **Joined words are found again.** -/
theorem textWords_joinWords (words : List Text) (hw : ∀ w ∈ words, IsWord w) :
    textWords (joinWords words) = words := by
  induction words with
  | nil => exact textWords_nil
  | cons w words ih =>
    have hhead := hw w List.mem_cons_self
    have htail := ih fun v hv => hw v (List.mem_cons_of_mem w hv)
    cases words with
    | nil =>
      have h := textWords_word hhead [] (Or.inl rfl)
      rw [List.append_nil, textWords_nil] at h
      exact h
    | cons v rest =>
      rw [joinWords, textWords_word hhead _ (Or.inr ⟨_, rfl⟩), textWords_space, htail]

/-! ## §4. Fixed buffers. -/

/-- A `char` array of `capacity` bytes that holds a text with its NUL. -/
structure CBuffer (capacity : Nat) where
  text : Text
  fits : text.length < capacity

namespace CBuffer

variable {capacity : Nat}

/-- The buffer after `buffer[0] = '\0'`. -/
def empty (h : 0 < capacity) : CBuffer capacity := ⟨[], h⟩

/-- `snprintf(&buffer[used], sizeof(buffer) - used, "%s", s)`: what fits is written, with a
NUL, and the length of all of `s` is returned. -/
def snprintf (b : CBuffer capacity) (used : Nat) (s : Text) : CBuffer capacity × Nat :=
  (⟨b.text.take used ++ s.take (capacity - used - 1), by
    have h := b.fits
    rw [List.length_append, List.length_take, List.length_take]
    omega⟩, s.length)

/-- **Text that fits behind the text of a buffer** is written whole. -/
theorem snprintf_append (b : CBuffer capacity) (s : Text)
    (h : s.length < capacity - b.text.length) :
    (b.snprintf b.text.length s).1.text = b.text ++ s := by
  show b.text.take b.text.length ++ s.take (capacity - b.text.length - 1) = _
  rw [List.take_length, List.take_of_length_le (by omega)]

end CBuffer

end KFsw.Lib
