/-
  KFsw.Lib.PyText — texts of Python: whitespace, decimal digits, and the bytes
  of a socket read as UTF-8 with the damaged ones replaced.

  Main results:
    * `split_word`           — a word and what follows the space behind it;
    * `splitlines_lines`     — lines that end in a newline each are split again;
    * `decodeReplace_eq_nil` — only no bytes at all decode to the empty text;
    * `encodeUtf8_injective` — a text is told from its bytes;
    * `infix_collapse`, `infix_strip` — a word stands in a text exactly when it
      does without the white space around it.
-/
import KFsw.Lib.Bytes
import Mathlib.Data.List.Basic
import Mathlib.Data.List.TakeWhile

namespace KFsw.Lib

/-- A Python `str`: one `Char` for each code point. -/
abbrev Str := List Char

/-! ## §1. Characters. -/

/-- `str.isspace` of one character. -/
def isSpace (c : Char) : Bool :=
  let n := c.toNat
  decide (0x09 ≤ n ∧ n ≤ 0x0D) || decide (0x1C ≤ n ∧ n ≤ 0x20) || n = 0x85 || n = 0xA0
    || n = 0x1680 || decide (0x2000 ≤ n ∧ n ≤ 0x200A) || n = 0x2028 || n = 0x2029
    || n = 0x202F || n = 0x205F || n = 0x3000

/-- The zeros of Unicode's decimal digits; the nine characters after each are one to nine. -/
def DECIMAL_ZEROS : List Nat :=
  [0x0030, 0x0660, 0x06F0, 0x07C0, 0x0966, 0x09E6, 0x0A66, 0x0AE6, 0x0B66, 0x0BE6, 0x0C66,
   0x0CE6, 0x0D66, 0x0DE6, 0x0E50, 0x0ED0, 0x0F20, 0x1040, 0x1090, 0x17E0, 0x1810, 0x1946,
   0x19D0, 0x1A80, 0x1A90, 0x1B50, 0x1BB0, 0x1C40, 0x1C50, 0xA620, 0xA8D0, 0xA900, 0xA9D0,
   0xA9F0, 0xAA50, 0xABF0, 0xFF10, 0x104A0, 0x10D30, 0x11066, 0x110F0, 0x11136, 0x111D0,
   0x112F0, 0x11450, 0x114D0, 0x11650, 0x116C0, 0x11730, 0x118E0, 0x11950, 0x11C50, 0x11D50,
   0x11DA0, 0x16A60, 0x16AC0, 0x16B50, 0x1D7CE, 0x1D7D8, 0x1D7E2, 0x1D7EC, 0x1D7F6, 0x1E140,
   0x1E2F0, 0x1E950, 0x1FBF0]

/-- The value of a decimal digit of any script. -/
def decimalValue (c : Char) : Option Nat :=
  (DECIMAL_ZEROS.find? fun first => decide (first ≤ c.toNat ∧ c.toNat < first + 10)).map
    (c.toNat - ·)

/-! ## §2. Words and integers. -/

/-- `str.split()`. -/
def split (s : Str) : List Str := (s.splitOnP isSpace).filter (· ≠ [])

/-- **A word and what follows the space behind it.** -/
theorem split_word {w : Str} (hne : w ≠ []) (hw : ∀ c ∈ w, isSpace c = false) {sep : Char}
    (hsep : isSpace sep = true) (rest : Str) : split (w ++ sep :: rest) = w :: split rest := by
  unfold split
  rw [List.splitOnP_append_cons_of_forall_mem (by simpa using hw) sep hsep,
    List.filter_cons_of_pos (by simpa using hne)]

/-- `str.strip()`. -/
def strip (s : Str) : Str := ((s.dropWhile isSpace).reverse.dropWhile isSpace).reverse

/-- `str.rstrip()`. -/
def rstrip (s : Str) : Str := (s.reverse.dropWhile isSpace).reverse

theorem strip_eq (s : Str) : strip s = rstrip (s.dropWhile isSpace) := rfl

/-- White space at the end is not part of what is left. -/
theorem rstrip_append_space (s : Str) {t : Str} (ht : ∀ c ∈ t, isSpace c = true) :
    rstrip (s ++ t) = rstrip s := by
  unfold rstrip
  rw [List.reverse_append, List.dropWhile_append_of_pos fun c hc => ht c (List.mem_reverse.mp hc)]

theorem rstrip_append_cons (before : Str) {c : Char} (hc : isSpace c = false) (s : Str) :
    rstrip (before ++ c :: s) = before ++ c :: rstrip s := by
  unfold rstrip
  rw [List.reverse_append, List.reverse_cons, List.append_assoc, List.dropWhile_append]
  split
  · rename_i hempty
    rw [List.isEmpty_iff.mp hempty, List.singleton_append,
      List.dropWhile_cons_of_neg (by simp [hc]), List.reverse_cons, List.reverse_reverse]
    rfl
  · rw [List.reverse_append, List.reverse_append, List.reverse_reverse, List.append_assoc]
    rfl

theorem exists_rstrip_append (s : Str) : ∃ t, (∀ c ∈ t, isSpace c = true) ∧ s = rstrip s ++ t := by
  refine ⟨(s.reverse.takeWhile isSpace).reverse, fun c hc => ?_, ?_⟩
  · exact List.mem_takeWhile_imp (List.mem_reverse.mp hc)
  · rw [rstrip, ← List.reverse_append, List.takeWhile_append_dropWhile, List.reverse_reverse]

/-- White space at the end does not matter to `strip`. -/
theorem strip_rstrip (s : Str) : strip (rstrip s) = strip s := by
  obtain ⟨t, ht, hs⟩ := exists_rstrip_append s
  have hdrop : strip (rstrip s ++ t) = strip (rstrip s) := by
    rw [strip_eq, strip_eq, List.dropWhile_append]
    split
    · rename_i hempty
      rw [List.isEmpty_iff.mp hempty, List.dropWhile_eq_nil_iff.mpr ht]
    · exact rstrip_append_space _ ht
  rw [← hdrop, ← hs]

/-- A text between white space, from its first character on. -/
theorem strip_cons {lead : Str} (hlead : ∀ c ∈ lead, isSpace c = true) {c : Char}
    (hc : isSpace c = false) (s : Str) : strip (lead ++ c :: s) = c :: rstrip s := by
  rw [strip_eq, List.dropWhile_append_of_pos hlead, List.dropWhile_cons_of_neg (by simp [hc])]
  exact rstrip_append_cons [] hc s

/-- `str(n)` of an integer. -/
def intText (n : Int) : Str :=
  if n < 0 then '-' :: Nat.toDigits 10 n.natAbs else Nat.toDigits 10 n.natAbs

/-- `re.sub(r"\s+", " ", s)`, behind white space or not. -/
def collapseFrom (space : Bool) : Str → Str
  | [] => []
  | c :: s =>
    if isSpace c = true then
      if space = true then collapseFrom true s else ' ' :: collapseFrom true s
    else c :: collapseFrom false s

/-- `re.sub(r"\s+", " ", s)`. -/
def collapse (s : Str) : Str := collapseFrom false s

/-! ### A word in a text. -/

section Word

variable {w : Str} (hw : ∀ c ∈ w, isSpace c = false)
include hw

/-- A word in front of a text does not go over white space. -/
theorem prefix_append_space (a : Str) {sep : Char} (hsep : isSpace sep = true) (s : Str) :
    w <+: a ++ sep :: s ↔ w <+: a := by
  induction a generalizing w with
  | nil =>
    cases w with
    | nil => exact iff_of_true List.nil_prefix List.nil_prefix
    | cons d w =>
      refine iff_of_false (fun h => ?_) (fun h => absurd (List.prefix_nil.mp h) (by simp))
      have hd := hw d List.mem_cons_self
      rw [(List.cons_prefix_cons.mp h).1, hsep] at hd
      exact absurd hd (by decide)
  | cons c a ih =>
    cases w with
    | nil => exact iff_of_true List.nil_prefix List.nil_prefix
    | cons d w =>
      rw [List.cons_append, List.cons_prefix_cons, List.cons_prefix_cons,
        ih fun c hc => hw c (List.mem_cons_of_mem d hc)]

theorem prefix_collapseFrom (s : Str) : w <+: collapseFrom false s ↔ w <+: s := by
  induction s generalizing w with
  | nil => exact Iff.rfl
  | cons c s ih =>
    cases w with
    | nil => exact iff_of_true List.nil_prefix List.nil_prefix
    | cons d w =>
      have hd := hw d List.mem_cons_self
      unfold collapseFrom
      split
      · rename_i hspace
        rw [if_neg (by decide)]
        refine iff_of_false (fun h => ?_) (fun h => ?_)
        · rw [(List.cons_prefix_cons.mp h).1] at hd
          exact absurd hd (by decide)
        · rw [(List.cons_prefix_cons.mp h).1, hspace] at hd
          exact absurd hd (by decide)
      · rw [List.cons_prefix_cons, List.cons_prefix_cons,
          ih fun c hc => hw c (List.mem_cons_of_mem d hc)]

variable (hne : w ≠ [])
include hne

/-- A word does not begin with white space. -/
theorem infix_space_cons {sep : Char} (hsep : isSpace sep = true) (s : Str) :
    w <:+: sep :: s ↔ w <:+: s := by
  rw [List.infix_cons_iff, or_iff_right]
  intro h
  exact hne (List.prefix_nil.mp ((prefix_append_space hw [] hsep s).mp h))

/-- **A word in a text with a space** stands before the space or behind it. -/
theorem infix_append_space (a : Str) {sep : Char} (hsep : isSpace sep = true) (s : Str) :
    w <:+: a ++ sep :: s ↔ w <:+: a ∨ w <:+: s := by
  induction a with
  | nil =>
    rw [List.nil_append, infix_space_cons hw hne hsep, or_iff_right]
    exact fun h => hne (List.infix_nil.mp h)
  | cons c a ih =>
    rw [List.cons_append, List.infix_cons_iff, ih, List.infix_cons_iff, or_assoc]
    exact or_congr_left (prefix_append_space hw (c :: a) hsep s)

theorem infix_collapse (space : Bool) (s : Str) : w <:+: collapseFrom space s ↔ w <:+: s := by
  induction s generalizing space with
  | nil => exact Iff.rfl
  | cons c s ih =>
    by_cases hc : isSpace c = true
    · have hcollapse : w <:+: collapseFrom space (c :: s) ↔ w <:+: collapseFrom true s := by
        rw [collapseFrom, if_pos hc]
        split
        · exact Iff.rfl
        · exact infix_space_cons hw hne (show isSpace ' ' = true by decide) _
      rw [hcollapse, ih, infix_space_cons hw hne hc]
    · have hprefix := prefix_collapseFrom hw (c :: s)
      rw [collapseFrom, if_neg hc] at hprefix ⊢
      rw [List.infix_cons_iff, hprefix, ih, List.infix_cons_iff]

/-- White space in front of a text holds no word. -/
theorem infix_dropWhile (s : Str) : w <:+: s.dropWhile isSpace ↔ w <:+: s := by
  induction s with
  | nil => exact Iff.rfl
  | cons c s ih =>
    by_cases hc : isSpace c = true
    · rw [List.dropWhile_cons_of_pos hc, ih, infix_space_cons hw hne hc]
    · rw [List.dropWhile_cons_of_neg hc]

/-- **A word in a text** stands there without the white space around it, too. -/
theorem infix_strip (s : Str) : w <:+: strip s ↔ w <:+: s := by
  have hreverse : ∀ c ∈ w.reverse, isSpace c = false := fun c hc => hw c (List.mem_reverse.mp hc)
  have hnil : w.reverse ≠ [] := fun h => hne (List.reverse_eq_nil_iff.mp h)
  unfold strip
  rw [← List.reverse_infix, List.reverse_reverse, infix_dropWhile hreverse hnil,
    List.reverse_infix, infix_dropWhile hw hne]

end Word

/-! ### Lines. -/

/-- The characters `str.splitlines` breaks a text at. -/
def isLineBreak (c : Char) : Bool :=
  let n := c.toNat
  decide (0x0A ≤ n ∧ n ≤ 0x0D) || decide (0x1C ≤ n ∧ n ≤ 0x1E) || n = 0x85 || n = 0x2028
    || n = 0x2029

/-- The loop of `str.splitlines`, with the line read so far, and whether a carriage return ended
the last one: a newline right behind it belongs to that break. -/
def splitlinesFrom (line : Str) (returned : Bool) : Str → List Str
  | [] => if line = [] then [] else [line]
  | c :: rest =>
    if returned = true ∧ c = '\n' then splitlinesFrom line false rest
    else if isLineBreak c = true then line :: splitlinesFrom [] (c = '\r') rest
    else splitlinesFrom (line ++ [c]) false rest

/-- `str.splitlines()`. -/
def splitlines (s : Str) : List Str := splitlinesFrom [] false s

theorem splitlinesFrom_line (line : Str) {rest l : Str} (hl : ∀ c ∈ l, isLineBreak c = false) :
    splitlinesFrom line false (l ++ '\n' :: rest) = (line ++ l) :: splitlinesFrom [] false rest := by
  induction l generalizing line with
  | nil =>
    rw [List.nil_append, List.append_nil, splitlinesFrom, if_neg (by simp), if_pos (by decide)]
    rfl
  | cons c l ih =>
    rw [List.cons_append, splitlinesFrom, if_neg (by simp),
      if_neg (by rw [hl c List.mem_cons_self]; decide),
      ih _ fun d hd => hl d (List.mem_cons_of_mem c hd), List.append_assoc]
    rfl

/-- **Lines that end in a newline each** are split again. -/
theorem splitlines_lines (lines : List Str) (h : ∀ l ∈ lines, ∀ c ∈ l, isLineBreak c = false) :
    splitlines (lines.flatMap (· ++ ['\n'])) = lines := by
  induction lines with
  | nil => rfl
  | cons l lines ih =>
    rw [List.flatMap_cons, List.append_assoc, List.singleton_append]
    show splitlinesFrom [] false (l ++ '\n' :: _) = _
    rw [splitlinesFrom_line [] (h l List.mem_cons_self), List.nil_append]
    exact congrArg (l :: ·) (ih fun l' hl' => h l' (List.mem_cons_of_mem l hl'))

/-- A line break is white space. -/
theorem isSpace_of_isLineBreak {c : Char} (h : isLineBreak c = true) : isSpace c = true := by
  unfold isLineBreak at h
  unfold isSpace
  simp only [Bool.or_eq_true, decide_eq_true_eq] at h ⊢
  omega

/-! ## §3. `bytes.decode(errors="replace")`. -/

/-- What stands for damaged bytes. -/
def REPLACEMENT : Char := Char.ofNat 0xFFFD

/-- A sequence that has begun: the continuation bytes it still needs, the bounds of the next
one, and the value so far. -/
structure Pending where
  need : Nat
  low : Nat
  high : Nat
  value : Nat
  deriving DecidableEq

/-- The sequence a byte begins, when it begins one of several bytes.  The bounds leave out
overlong forms, surrogates and what lies above Unicode. -/
def leadByte (b : Nat) : Option Pending :=
  if 0xC2 ≤ b ∧ b ≤ 0xDF then some ⟨1, 0x80, 0xBF, b - 0xC0⟩
  else if b = 0xE0 then some ⟨2, 0xA0, 0xBF, 0⟩
  else if b = 0xED then some ⟨2, 0x80, 0x9F, b - 0xE0⟩
  else if 0xE1 ≤ b ∧ b ≤ 0xEF then some ⟨2, 0x80, 0xBF, b - 0xE0⟩
  else if b = 0xF0 then some ⟨3, 0x90, 0xBF, 0⟩
  else if 0xF1 ≤ b ∧ b ≤ 0xF3 then some ⟨3, 0x80, 0xBF, b - 0xF0⟩
  else if b = 0xF4 then some ⟨3, 0x80, 0x8F, b - 0xF0⟩
  else none

/-- A byte where a new character starts: what it gives at once, and what it begins. -/
def startByte (b : Nat) : Str × Option Pending :=
  if b < 0x80 then ([Char.ofNat b], none)
  else match leadByte b with
    | some p => ([], some p)
    | none => ([REPLACEMENT], none)

/-- One byte.  A byte that does not continue the sequence leaves one replacement for what the
sequence had, and starts anew. -/
def decodeByte (pending : Option Pending) (b : Nat) : Str × Option Pending :=
  match pending with
  | none => startByte b
  | some p =>
    if p.low ≤ b ∧ b ≤ p.high then
      let value := p.value * 64 + (b - 0x80)
      if p.need = 1 then ([Char.ofNat value], none)
      else ([], some ⟨p.need - 1, 0x80, 0xBF, value⟩)
    else
      (REPLACEMENT :: (startByte b).1, (startByte b).2)

/-- The rest of a text; a sequence that the end cuts leaves one replacement. -/
def decodeFrom : Option Pending → Bytes → Str
  | none, [] => []
  | some _, [] => [REPLACEMENT]
  | pending, b :: rest =>
    (decodeByte pending b.toNat).1 ++ decodeFrom (decodeByte pending b.toNat).2 rest

/-- `data.decode(errors="replace")`. -/
def decodeReplace (data : Bytes) : Str := decodeFrom none data

/-- A sequence that has begun ends in a character or a replacement. -/
theorem decodeFrom_pending (p : Pending) (data : Bytes) : decodeFrom (some p) data ≠ [] := by
  induction data generalizing p with
  | nil => exact List.cons_ne_nil _ _
  | cons b rest ih =>
    show (decodeByte (some p) b.toNat).1 ++ _ ≠ []
    unfold decodeByte
    dsimp only
    split
    · split
      · exact List.cons_ne_nil _ _
      · exact ih _
    · exact List.cons_ne_nil _ _

/-- **Only no bytes at all decode to the empty text.** -/
theorem decodeReplace_eq_nil {data : Bytes} : decodeReplace data = [] ↔ data = [] := by
  constructor
  · intro h
    cases data with
    | nil => rfl
    | cons b rest =>
      -- the first byte gives a character, or begins a sequence
      exfalso
      revert h
      show ¬ ((startByte b.toNat).1 ++ decodeFrom (startByte b.toNat).2 rest = [])
      unfold startByte
      split
      · exact List.cons_ne_nil _ _
      · split
        · exact decodeFrom_pending _ rest
        · exact List.cons_ne_nil _ _
  · rintro rfl
    rfl

-- a cut sequence, an overlong form and a surrogate
example : decodeReplace [0xF0, 0x90, 0x80, 0x61, 0xE0, 0x80, 0xED, 0xA0, 0x80, 0xC2]
    = [REPLACEMENT, 'a', REPLACEMENT, REPLACEMENT, REPLACEMENT, REPLACEMENT, REPLACEMENT,
       REPLACEMENT] := by decide

/-! ## §4. `str.encode("utf-8")`. -/

/-- `text.encode("utf-8")`. -/
def encodeUtf8 (s : Str) : Bytes := s.flatMap String.utf8EncodeChar

theorem encodeUtf8_append (a b : Str) : encodeUtf8 (a ++ b) = encodeUtf8 a ++ encodeUtf8 b :=
  List.flatMap_append

theorem toByteArray_encodeUtf8 (s : Str) : (encodeUtf8 s).toByteArray = s.utf8Encode := rfl

/-- **A text is told from its bytes.** -/
theorem encodeUtf8_injective {a b : Str} (h : encodeUtf8 a = encodeUtf8 b) : a = b := by
  have hdecode : a.utf8Encode.utf8Decode? = b.utf8Encode.utf8Decode? := by
    rw [← toByteArray_encodeUtf8, ← toByteArray_encodeUtf8, h]
  rw [List.utf8Decode?_utf8Encode, List.utf8Decode?_utf8Encode] at hdecode
  exact congrArg Array.toList (Option.some.inj hdecode)

/-- A text whose bytes begin with those of another begins with it. -/
theorem encodeUtf8_prefix {first line : Str} {rest : Bytes}
    (h : encodeUtf8 line = encodeUtf8 first ++ rest) :
    ∃ text, line = first ++ text ∧ encodeUtf8 text = rest := by
  have hbytes : first.utf8Encode ++ rest.toByteArray = line.utf8Encode := by
    rw [← toByteArray_encodeUtf8, ← toByteArray_encodeUtf8, h, List.toByteArray_append]
  obtain ⟨text, rfl⟩ := List.isPrefix_of_utf8Encode_append_eq_utf8Encode _ hbytes
  refine ⟨text, rfl, ?_⟩
  rw [encodeUtf8_append] at h
  exact List.append_cancel_left h

end KFsw.Lib
