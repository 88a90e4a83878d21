/-
  KFsw.Lib.Json — JSON as Python's `json` writes and reads it.

  `loads` follows the decoder of CPython: one scanner for each kind of value,
  on the text that remains.  A value is nested as deep as the fuel allows, which
  is the length of the text; the interpreter's own limit on recursion is not
  modelled.  A float is Python's, an object keeps its members in the order they
  are written.

  Main results:
    * `scanString_plain`   — a string without escapes is read to its quote;
    * `scanNumber_dumps`   — a written integer is read to its last digit;
    * `loads_dumps_flat`   — an object of integers and plain strings is read back.
-/
import KFsw.Lib.PyFloat
import KFsw.Lib.CNumber

namespace KFsw.Lib

/-- A value of JSON. -/
inductive Json where
  | null
  | bool (b : Bool)
  | int (n : Int)
  | float (x : Float)
  | str (s : Str)
  | arr (items : List Json)
  | obj (members : List (Str × Json))

namespace Json

/-- `record[key]`: a key that occurs again replaces the value. -/
def get (members : List (Str × Json)) (key : Str) : Option Json :=
  (members.reverse.find? fun m => decide (m.1 = key)).map Prod.snd

/-- `set(record)` is the set of these keys. -/
def sameKeys (members : List (Str × Json)) (keys : List Str) : Bool :=
  (members.all fun m => keys.contains m.1) && keys.all fun key => (members.map Prod.fst).contains key

/-! ## §1. `json.loads`. -/

def isJsonSpace (c : Char) : Bool := c = ' ' || c = '\t' || c = '\n' || c = '\r'

def skipSpace (s : Str) : Str := s.dropWhile isJsonSpace

/-- A hexadecimal digit. -/
def hexDigit (c : Char) : Option Nat := (digitValue c).bind fun d => if d < 16 then some d else none

/-- The four digits of `\uXXXX`. -/
def hexUnit (a b c d : Char) : Option Nat :=
  (hexDigit a).bind fun a => (hexDigit b).bind fun b => (hexDigit c).bind fun c =>
    (hexDigit d).map fun d => ((a * 16 + b) * 16 + c) * 16 + d

/-- The character behind a backslash stands for this code point. -/
def unescape (c : Char) : Option Nat :=
  if c = '"' ∨ c = '\\' ∨ c = '/' then some c.toNat
  else if c = 'b' then some 0x08
  else if c = 'f' then some 0x0C
  else if c = 'n' then some 0x0A
  else if c = 'r' then some 0x0D
  else if c = 't' then some 0x09
  else none

/-- A string after its opening quote: its code points, and the text behind the closing quote.
Control characters are refused. -/
def scanString : Str → Option (List Nat × Str)
  | [] => none
  | c :: rest =>
    if c = '"' then some ([], rest)
    else if c = '\\' then
      match rest with
      | [] => none
      | 'u' :: h1 :: h2 :: h3 :: h4 :: rest =>
        (hexUnit h1 h2 h3 h4).bind fun u => (scanString rest).map fun r => (u :: r.1, r.2)
      | e :: rest => (unescape e).bind fun u => (scanString rest).map fun r => (u :: r.1, r.2)
    else if c.toNat ≤ 0x1F then none
    else (scanString rest).map fun r => (c.toNat :: r.1, r.2)

def isHighSurrogate (u : Nat) : Bool := decide (0xD800 ≤ u ∧ u < 0xDC00)
def isLowSurrogate (u : Nat) : Bool := decide (0xDC00 ≤ u ∧ u < 0xE000)

/-- A code point as a character; a surrogate that stands alone is kept as the replacement. -/
def charOf (u : Nat) : Char := if u.isValidChar then Char.ofNat u else REPLACEMENT

/-- The text of some code points: a high and a low surrogate are one character. -/
def joinSurrogates : List Nat → Str
  | [] => []
  | [u] => [charOf u]
  | u :: v :: rest =>
    if isHighSurrogate u && isLowSurrogate v then
      Char.ofNat (0x10000 + (u - 0xD800) * 0x400 + (v - 0xDC00)) :: joinSurrogates rest
    else charOf u :: joinSurrogates (v :: rest)

/-- The fraction of a number, if there is one: a point and a digit. -/
def scanFraction : Str → Str × Str
  | '.' :: d :: rest =>
    if isdigit d then ('.' :: (d :: rest).takeWhile isdigit, (d :: rest).dropWhile isdigit)
    else ([], '.' :: d :: rest)
  | s => ([], s)

/-- The exponent of a number, if there is one; without a digit there is none. -/
def scanExponent : Str → Str × Str
  | e :: rest =>
    if e = 'e' ∨ e = 'E' then
      let sign := if rest.head? = some '-' ∨ rest.head? = some '+' then rest.take 1 else []
      let body := rest.drop sign.length
      if body.takeWhile isdigit = [] then ([], e :: rest)
      else (e :: sign ++ body.takeWhile isdigit, body.dropWhile isdigit)
    else ([], e :: rest)
  | [] => ([], [])

/-- The integer digits of a number: a zero stands alone. -/
def scanWhole (s : Str) : Str × Str :=
  if s.head? = some '0' then (s.take 1, s.drop 1)
  else (s.takeWhile isdigit, s.dropWhile isdigit)

/-- `_match_number`. -/
def scanNumber (s : Str) : Option (Json × Str) :=
  let sign := if s.head? = some '-' then ['-'] else []
  let whole := scanWhole (s.drop sign.length)
  if whole.1 = [] then none
  else
    let fraction := scanFraction whole.2
    let exponent := scanExponent fraction.2
    if fraction.1 = [] ∧ exponent.1 = [] then
      let n : Int := digitsValue 10 whole.1
      some (.int (if sign = [] then n else -n), exponent.2)
    else
      (KFsw.Lib.float (sign ++ whole.1 ++ fraction.1 ++ exponent.1)).map fun x =>
        (.float x, exponent.2)

/-- The words of JSON, and those Python adds. -/
def LITERALS : List (Str × Json) :=
  [("null".toList, .null), ("true".toList, .bool true), ("false".toList, .bool false),
   ("NaN".toList, .float (0.0 / 0.0)), ("Infinity".toList, .float (1.0 / 0.0)),
   ("-Infinity".toList, .float (-(1.0 / 0.0)))]

/-- A word or a number. -/
def scanLiteral (s : Str) : Option (Json × Str) :=
  match LITERALS.find? fun l => l.1.isPrefixOf s with
  | some (word, value) => some (value, s.drop word.length)
  | none => scanNumber s

mutual

/-- `scan_once`: one value, and the text behind it. -/
def scanOnce : Nat → Str → Option (Json × Str)
  | 0, _ => none
  | _ + 1, [] => none
  | fuel + 1, c :: rest =>
    if c = '"' then (scanString rest).map fun r => (.str (joinSurrogates r.1), r.2)
    else if c = '\x7b' then
      if (skipSpace rest).head? = some '\x7d' then some (.obj [], (skipSpace rest).tail)
      else (scanMembers fuel (skipSpace rest)).map fun r => (.obj r.1, r.2)
    else if c = '[' then
      if (skipSpace rest).head? = some ']' then some (.arr [], (skipSpace rest).tail)
      else (scanItems fuel (skipSpace rest)).map fun r => (.arr r.1, r.2)
    else scanLiteral (c :: rest)

/-- The members of an object from a key on, and the text behind the closing brace. -/
def scanMembers : Nat → Str → Option (List (Str × Json) × Str)
  | 0, _ => none
  | fuel + 1, s =>
    if s.head? = some '"' then
      (scanString s.tail).bind fun key =>
        if (skipSpace key.2).head? = some ':' then
          (scanOnce fuel (skipSpace (skipSpace key.2).tail)).bind fun value =>
            match skipSpace value.2 with
            | [] => none
            | d :: rest =>
              if d = '\x7d' then some ([(joinSurrogates key.1, value.1)], rest)
              else if d = ',' then
                (scanMembers fuel (skipSpace rest)).map fun r =>
                  ((joinSurrogates key.1, value.1) :: r.1, r.2)
              else none
        else none
    else none

/-- The items of an array from a value on, and the text behind the closing bracket. -/
def scanItems : Nat → Str → Option (List Json × Str)
  | 0, _ => none
  | fuel + 1, s =>
    (scanOnce fuel s).bind fun value =>
      match skipSpace value.2 with
      | [] => none
      | d :: rest =>
        if d = ']' then some ([value.1], rest)
        else if d = ',' then
          (scanItems fuel (skipSpace rest)).map fun r => (value.1 :: r.1, r.2)
        else none

end

/-- `json.loads(text)`; none where it raises `JSONDecodeError`, which is a `ValueError`. -/
def loads (text : Str) : Option Json :=
  -- a text that begins with a byte order mark is refused
  if text.head? = some (Char.ofNat 0xFEFF) then none
  else
    (scanOnce (text.length + 1) (skipSpace text)).bind fun r =>
      if skipSpace r.2 = [] then some r.1 else none

/-! ## §2. `json.dumps`. -/

/-- `\uXXXX`. -/
def hexEscape (u : Nat) : Str :=
  '\\' :: 'u' :: (List.replicate (4 - (Nat.toDigits 16 u).length) '0' ++ Nat.toDigits 16 u)

/-- A character that a string holds as it is. -/
def isPlain (c : Char) : Bool :=
  decide (0x20 ≤ c.toNat ∧ c.toNat ≤ 0x7E) && c ≠ '"' && c ≠ '\\'

/-- A character of a string, with `ensure_ascii`. -/
def escapeChar (c : Char) : Str :=
  if isPlain c then [c]
  else if c = '"' ∨ c = '\\' then ['\\', c]
  else if c = '\n' then "\\n".toList
  else if c = '\r' then "\\r".toList
  else if c = '\t' then "\\t".toList
  else if c = '\x0c' then "\\f".toList
  else if c = '\x08' then "\\b".toList
  else if c.toNat < 0x10000 then hexEscape c.toNat
  else
    hexEscape (0xD800 + (c.toNat - 0x10000) / 0x400)
      ++ hexEscape (0xDC00 + (c.toNat - 0x10000) % 0x400)

def dumpsStr (s : Str) : Str := '"' :: s.flatMap escapeChar ++ ['"']

def dumpsFloat (x : Float) : Str :=
  match floatValue x with
  | .nan => "NaN".toList
  | .infinite negative => signText negative ++ "Infinity".toList
  | .finite .. => reprFloat x

mutual

/-- `json.dumps(value)`, with the separators `", "` and `": "`. -/
def dumps : Json → Str
  | .null => "null".toList
  | .bool b => if b then "true".toList else "false".toList
  | .int n => intText n
  | .float x => dumpsFloat x
  | .str s => dumpsStr s
  | .arr items => '[' :: dumpsItems items ++ [']']
  | .obj members => '\x7b' :: dumpsMembers members ++ ['\x7d']

def dumpsItems : List Json → Str
  | [] => []
  | [item] => dumps item
  | item :: rest => dumps item ++ ", ".toList ++ dumpsItems rest

def dumpsMembers : List (Str × Json) → Str
  | [] => []
  | [(key, value)] => dumpsStr key ++ ": ".toList ++ dumps value
  | (key, value) :: rest =>
    dumpsStr key ++ ": ".toList ++ dumps value ++ ", ".toList ++ dumpsMembers rest

end

/-! ## §3. Integers are read back. -/

/-- What cannot follow a number without being part of it. -/
def EndsNumber (rest : Str) : Prop :=
  ∀ c, rest.head? = some c → isdigit c = false ∧ c ≠ '.' ∧ c ≠ 'e' ∧ c ≠ 'E'

theorem isdigit_of_mem_toDigits {n : Nat} {c : Char} (h : c ∈ Nat.toDigits 10 n) :
    isdigit c = true :=
  Nat.isDigit_of_mem_toDigits (by decide) (by decide) h

theorem takeWhile_digits {digits rest : Str} (hd : ∀ c ∈ digits, isdigit c = true)
    (hr : EndsNumber rest) : (digits ++ rest).takeWhile isdigit = digits := by
  rw [List.takeWhile_append_of_pos hd]
  cases rest with
  | nil => rw [List.takeWhile_nil, List.append_nil]
  | cons c rest =>
    rw [List.takeWhile_cons_of_neg (by simp [(hr c rfl).1]), List.append_nil]

theorem dropWhile_digits {digits rest : Str} (hd : ∀ c ∈ digits, isdigit c = true)
    (hr : EndsNumber rest) : (digits ++ rest).dropWhile isdigit = rest := by
  rw [List.dropWhile_append_of_pos hd]
  cases rest with
  | nil => rw [List.dropWhile_nil]
  | cons c rest => rw [List.dropWhile_cons_of_neg (by simp [(hr c rfl).1])]

theorem scanWhole_toDigits (n : Nat) {rest : Str} (hr : EndsNumber rest) :
    scanWhole (Nat.toDigits 10 n ++ rest) = (Nat.toDigits 10 n, rest) := by
  have hdigits : ∀ c ∈ Nat.toDigits 10 n, isdigit c = true := fun c hc =>
    isdigit_of_mem_toDigits hc
  unfold scanWhole
  rw [List.head?_append_of_ne_nil _ Nat.toDigits_ne_nil]
  split
  · rename_i hzero
    rw [toDigits_zero_head hzero]
    rfl
  · rw [takeWhile_digits hdigits hr, dropWhile_digits hdigits hr]

theorem scanFraction_none {rest : Str} (hr : EndsNumber rest) : scanFraction rest = ([], rest) := by
  unfold scanFraction
  split
  · exact absurd rfl (hr '.' rfl).2.1
  · rfl

theorem scanExponent_none {rest : Str} (hr : EndsNumber rest) : scanExponent rest = ([], rest) := by
  unfold scanExponent
  split
  · rename_i e rest
    obtain ⟨_, _, h1, h2⟩ := hr e rfl
    rw [if_neg (by simp [h1, h2])]
  · rfl

/-- A written number begins with a digit, behind its sign. -/
theorem intText_head (n : Int) (rest : Str) :
    ∃ c tail, isdigit c = true
      ∧ (intText n ++ rest = c :: tail ∨ intText n ++ rest = '-' :: c :: tail) := by
  obtain ⟨c, digits, hc⟩ := List.exists_cons_of_ne_nil (Nat.toDigits_ne_nil (n := n.natAbs) (b := 10))
  have hdigit : isdigit c = true := isdigit_of_mem_toDigits (hc ▸ List.mem_cons_self)
  refine ⟨c, digits ++ rest, hdigit, ?_⟩
  unfold intText
  rw [hc]
  split
  · exact .inr rfl
  · exact .inl rfl

/-- **A written integer is read to its last digit.** -/
theorem scanNumber_dumps (n : Int) {rest : Str} (hr : EndsNumber rest) :
    scanNumber (intText n ++ rest) = some (.int n, rest) := by
  unfold scanNumber intText
  split
  · rename_i hneg
    simp only [List.cons_append, List.head?_cons, if_true, List.length_singleton, List.drop_one,
      List.tail_cons, scanWhole_toDigits _ hr, if_neg Nat.toDigits_ne_nil, scanFraction_none hr,
      scanExponent_none hr, and_self, digitsValue_toDigits (by decide : 1 < 10) (by decide), List.cons_ne_nil, if_false]
    congr 3
    omega
  · rename_i hpos
    have hsign : (Nat.toDigits 10 n.natAbs ++ rest).head? ≠ some '-' := by
      rw [List.head?_append_of_ne_nil _ Nat.toDigits_ne_nil]
      intro h
      exact absurd (isdigit_of_mem_toDigits (List.mem_of_mem_head? h)) (by decide)
    simp only [if_neg hsign, List.length_nil, List.drop_zero, scanWhole_toDigits _ hr,
      if_neg Nat.toDigits_ne_nil, scanFraction_none hr, scanExponent_none hr, and_self,
      digitsValue_toDigits (by decide : 1 < 10) (by decide), if_true]
    congr 3
    omega

/-- A number is no word. -/
theorem scanLiteral_dumps (n : Int) {rest : Str} (hr : EndsNumber rest) :
    scanLiteral (intText n ++ rest) = some (.int n, rest) := by
  obtain ⟨c, tail, hdigit, hhead⟩ := intText_head n rest
  have hnone : LITERALS.find? (fun l => l.1.isPrefixOf (intText n ++ rest)) = none := by
    have hletters : ∀ d ∈ ['n', 't', 'f', 'N', 'I', '-'], isdigit d = false :=
      List.all_iff_forall_prop.mp (by decide)
    have hne : ∀ d ∈ ['n', 't', 'f', 'N', 'I', '-'], (d == c) = false := by
      intro d hd
      rw [beq_eq_false_iff_ne]
      rintro h
      rw [← h, hletters d hd] at hdigit
      exact absurd hdigit (by decide)
    simp only [List.forall_mem_cons, List.not_mem_nil, false_imp_iff, implies_true, and_true] at hne
    rcases hhead with hhead | hhead <;> rw [hhead] <;>
      simp [LITERALS, List.isPrefixOf, hne]
  unfold scanLiteral
  rw [hnone]
  exact scanNumber_dumps n hr

/-! ## §4. Flat objects are read back. -/

/-- A text that a string holds as it is. -/
def Plain (s : Str) : Prop := ∀ c ∈ s, isPlain c = true

instance (s : Str) : Decidable (Plain s) := List.decidableBAll _ s

/-- An integer or a plain string. -/
def IsFlat : Json → Prop
  | .int _ => True
  | .str s => Plain s
  | _ => False

theorem dumpsStr_plain {s : Str} (h : Plain s) : dumpsStr s = '"' :: s ++ ['"'] := by
  have hflat : s.flatMap escapeChar = s := by
    induction s with
    | nil => rfl
    | cons c s ih =>
      rw [List.flatMap_cons, ih fun d hd => h d (List.mem_cons_of_mem c hd), escapeChar,
        if_pos (h c List.mem_cons_self)]
      rfl
  rw [dumpsStr, hflat]

/-- **A string without escapes is read to its quote.** -/
theorem scanString_plain {s : Str} (h : Plain s) (rest : Str) :
    scanString (s ++ '"' :: rest) = some (s.map Char.toNat, rest) := by
  induction s with
  | nil =>
    rw [List.nil_append, scanString.eq_def]
    rfl
  | cons c s ih =>
    obtain ⟨hhead, htail⟩ := List.forall_mem_cons.mp h
    simp only [isPlain, Bool.and_eq_true, decide_eq_true_eq, ne_eq, decide_not,
      Bool.not_eq_true', decide_eq_false_iff_not] at hhead
    obtain ⟨⟨hrange, hquote⟩, hslash⟩ := hhead
    rw [List.cons_append, scanString.eq_def]
    dsimp only
    rw [if_neg hquote, if_neg hslash, if_neg (by omega), ih htail]
    rfl

theorem charOf_toNat (c : Char) : charOf c.toNat = c := by
  have hvalid : c.toNat.isValidChar := c.valid
  rw [charOf, if_pos hvalid, Char.ofNat_toNat]

/-- The code points of a text are those of its characters: none is a surrogate. -/
theorem joinSurrogates_toNat (s : Str) : joinSurrogates (s.map Char.toNat) = s := by
  induction s with
  | nil => rfl
  | cons c s ih =>
    cases s with
    | nil =>
      show [charOf c.toNat] = [c]
      rw [charOf_toNat]
    | cons d s =>
      have hlow : isLowSurrogate d.toNat = false := by
        have hvalid := d.valid
        unfold isLowSurrogate
        rw [decide_eq_false_iff_not]
        rintro ⟨h1, h2⟩
        rcases hvalid with hvalid | hvalid
        · have : d.toNat < 0xD800 := hvalid
          omega
        · have : 0xDFFF < d.toNat := hvalid.1
          omega
      rw [List.map_cons, List.map_cons, joinSurrogates, hlow, Bool.and_false,
        if_neg Bool.false_ne_true, charOf_toNat, ← List.map_cons, ih]

theorem skipSpace_of_head {c : Char} (h : isJsonSpace c = false) (rest : Str) :
    skipSpace (c :: rest) = c :: rest :=
  List.dropWhile_cons_of_neg (by simp [h])

/-- A written flat value is read to its end. -/
theorem scanOnce_dumps_flat {v : Json} (hv : IsFlat v) (fuel : Nat) {rest : Str}
    (hr : EndsNumber rest) : scanOnce (fuel + 1) (dumps v ++ rest) = some (v, rest) := by
  cases v with
  | int n =>
    show scanOnce (fuel + 1) (intText n ++ rest) = _
    obtain ⟨c, tail, hdigit, hhead⟩ := intText_head n rest
    have hnumber := scanLiteral_dumps n hr
    have hletters : ∀ d ∈ ['"', '\x7b', '['], isdigit d = false ∧ d ≠ '-' :=
      List.all_iff_forall_prop.mp (by decide)
    have hne : ∀ d ∈ ['"', '\x7b', '['], c ≠ d := by
      rintro d hd rfl
      rw [(hletters c hd).1] at hdigit
      exact absurd hdigit (by decide)
    rcases hhead with hhead | hhead
    · rw [hhead] at hnumber ⊢
      rw [scanOnce, if_neg (hne _ (by simp)), if_neg (hne _ (by simp)), if_neg (hne _ (by simp)),
        hnumber]
    · rw [hhead] at hnumber ⊢
      rw [scanOnce, if_neg (by decide), if_neg (by decide), if_neg (by decide), hnumber]
  | str s =>
    show scanOnce (fuel + 1) (dumpsStr s ++ rest) = _
    rw [dumpsStr_plain hv, List.append_assoc, List.cons_append]
    show (scanString (s ++ '"' :: rest)).map _ = _
    rw [scanString_plain hv, Option.map_some, joinSurrogates_toNat]
  | _ => exact absurd hv id

/-- A written flat value begins with no whitespace. -/
theorem skipSpace_dumps_flat {v : Json} (hv : IsFlat v) (rest : Str) :
    skipSpace (dumps v ++ rest) = dumps v ++ rest := by
  cases v with
  | int n =>
    show skipSpace (intText n ++ rest) = intText n ++ rest
    obtain ⟨c, tail, hdigit, hhead⟩ := intText_head n rest
    have hspaces : isJsonSpace c = false := by
      have hall : ∀ d ∈ [' ', '\t', '\n', '\r'], isdigit d = false :=
        List.all_iff_forall_prop.mp (by decide)
      have hne : ∀ d ∈ [' ', '\t', '\n', '\r'], c ≠ d := by
        rintro d hd rfl
        rw [hall c hd] at hdigit
        exact absurd hdigit (by decide)
      simp only [List.forall_mem_cons, List.not_mem_nil, false_imp_iff, implies_true,
        and_true] at hne
      simp [isJsonSpace, hne]
    rcases hhead with hhead | hhead
    · rw [hhead, skipSpace_of_head hspaces]
    · rw [hhead, skipSpace_of_head (by decide)]
  | str s =>
    show skipSpace (dumpsStr s ++ rest) = dumpsStr s ++ rest
    rw [dumpsStr, List.cons_append, List.cons_append, skipSpace_of_head (by decide)]
  | _ => exact absurd hv id

/-- What stands behind a flat value in an object ends a number. -/
theorem endsNumber_cons {c : Char} (h : c = ',' ∨ c = '\x7d') (rest : Str) :
    EndsNumber (c :: rest) := by
  intro d hd
  rw [← Option.some.inj hd]
  rcases h with rfl | rfl <;> decide

/-- One written member, up to what stands behind its value. -/
theorem scanMembers_member {key : Str} {v : Json} (hkey : Plain key) (hv : IsFlat v) (fuel : Nat)
    {d : Char} (hd : d = ',' ∨ d = '\x7d') (rest : Str) :
    scanMembers (fuel + 2) (dumpsStr key ++ ": ".toList ++ dumps v ++ d :: rest)
      = if d = '\x7d' then some ([(key, v)], rest)
        else if d = ',' then
          (scanMembers (fuel + 1) (skipSpace rest)).map fun r => ((key, v) :: r.1, r.2)
        else none := by
  have htext : dumpsStr key ++ ": ".toList ++ dumps v ++ d :: rest
      = '"' :: (key ++ '"' :: ':' :: ' ' :: (dumps v ++ d :: rest)) := by
    rw [dumpsStr_plain hkey]
    simp
  rw [htext, scanMembers]
  simp only [List.head?_cons, if_true, List.tail_cons, scanString_plain hkey, Option.bind_some,
    joinSurrogates_toNat]
  rw [skipSpace_of_head (by decide), List.head?_cons, if_pos rfl, List.tail_cons]
  show (scanOnce (fuel + 1) (skipSpace (' ' :: (dumps v ++ d :: rest)))).bind _ = _
  rw [skipSpace, List.dropWhile_cons_of_pos (by decide), ← skipSpace,
    skipSpace_dumps_flat hv, scanOnce_dumps_flat hv fuel (endsNumber_cons hd rest),
    Option.bind_some]
  have hskip : skipSpace (d :: rest) = d :: rest := by
    apply skipSpace_of_head
    rcases hd with rfl | rfl <;> decide
  simp only [hskip]

/-- Written members begin with the quote of a key. -/
theorem dumpsMembers_head {members : List (Str × Json)} (hne : members ≠ []) :
    ∃ rest, dumpsMembers members = '"' :: rest := by
  match members, hne with
  | [_], _ => exact ⟨_, rfl⟩
  | _ :: _ :: _, _ => exact ⟨_, rfl⟩

/-- Each written member takes a character and more. -/
theorem length_le_dumpsMembers (members : List (Str × Json)) :
    members.length ≤ (dumpsMembers members).length := by
  induction members with
  | nil => exact Nat.zero_le _
  | cons m members ih =>
    obtain ⟨key, v⟩ := m
    cases members with
    | nil =>
      show 1 ≤ (dumpsStr key ++ ": ".toList ++ dumps v).length
      simp [dumpsStr]
    | cons m members =>
      rw [dumpsMembers, List.length_append, List.length_cons]
      · simp only [List.length_append]
        have : 1 ≤ (dumpsStr key).length := by simp [dumpsStr]
        omega
      · exact List.cons_ne_nil _ _

/-- The written members of an object are read back, with fuel for each of them. -/
theorem scanMembers_dumps {members : List (Str × Json)} (hne : members ≠ [])
    (hflat : ∀ m ∈ members, Plain m.1 ∧ IsFlat m.2) {fuel : Nat} (hfuel : members.length < fuel)
    (rest : Str) :
    scanMembers fuel (dumpsMembers members ++ '\x7d' :: rest) = some (members, rest) := by
  induction members generalizing fuel with
  | nil => exact absurd rfl hne
  | cons m members ih =>
    obtain ⟨key, v⟩ := m
    obtain ⟨⟨hkey, hv⟩, htail⟩ := List.forall_mem_cons.mp hflat
    rw [List.length_cons] at hfuel
    obtain ⟨fuel, rfl⟩ : ∃ f, fuel = f + 2 := ⟨fuel - 2, by omega⟩
    cases members with
    | nil =>
      show scanMembers _ (dumpsStr key ++ ": ".toList ++ dumps v ++ '\x7d' :: rest) = _
      rw [scanMembers_member hkey hv fuel (.inr rfl), if_pos rfl]
    | cons m members =>
      have htext : dumpsMembers ((key, v) :: m :: members) ++ '\x7d' :: rest
          = dumpsStr key ++ ": ".toList ++ dumps v
            ++ ',' :: ' ' :: (dumpsMembers (m :: members) ++ '\x7d' :: rest) := by
        rw [dumpsMembers]
        · simp
        · exact List.cons_ne_nil _ _
      have hskip : skipSpace (' ' :: (dumpsMembers (m :: members) ++ '\x7d' :: rest))
          = dumpsMembers (m :: members) ++ '\x7d' :: rest := by
        rw [skipSpace, List.dropWhile_cons_of_pos (by decide), ← skipSpace]
        obtain ⟨tail, hhead⟩ := dumpsMembers_head (List.cons_ne_nil m members)
        rw [hhead, List.cons_append, skipSpace_of_head (by decide)]
      rw [htext, scanMembers_member hkey hv fuel (.inl rfl), if_neg (by decide), if_pos rfl, hskip,
        ih (List.cons_ne_nil _ _) htail (by omega), Option.map_some]

/-- **A flat object is read back**, whatever whitespace follows it. -/
theorem loads_dumps_flat {members : List (Str × Json)} (hne : members ≠ [])
    (hflat : ∀ m ∈ members, Plain m.1 ∧ IsFlat m.2) {tail : Str} (htail : skipSpace tail = []) :
    loads (dumps (.obj members) ++ tail) = some (.obj members) := by
  have htext : dumps (.obj members) ++ tail = '\x7b' :: (dumpsMembers members ++ '\x7d' :: tail) := by
    rw [dumps]
    simp
  have hlength : members.length < (dumpsMembers members ++ '\x7d' :: tail).length + 1 := by
    have := length_le_dumpsMembers members
    rw [List.length_append]
    omega
  obtain ⟨rest, hrest⟩ := dumpsMembers_head hne
  rw [htext, loads, List.head?_cons, if_neg (by decide), skipSpace_of_head (by decide),
    List.length_cons, scanOnce, if_neg (by decide), if_pos rfl]
  have hskip : skipSpace (dumpsMembers members ++ '\x7d' :: tail)
      = dumpsMembers members ++ '\x7d' :: tail := by
    rw [hrest, List.cons_append, skipSpace_of_head (by decide)]
  rw [hskip, if_neg (by rw [hrest]; simp), scanMembers_dumps hne hflat hlength, Option.map_some,
    Option.bind_some, if_pos htail]

end Json

end KFsw.Lib
