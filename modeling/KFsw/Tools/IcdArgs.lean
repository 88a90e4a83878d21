/-
  KFsw.Tools.IcdArgs — how the generator of the interface document reads C
  initializers and macro arguments, `tools/docs/icd-source.py`.

  `split_args` cuts a text at its commas outside of strings and brackets,
  `balanced` finds the end of a brace, and `designators` reads `.key = value`
  pairs.  A text comes from `strip_comments`; what stands behind a position is
  the text from it on.

  Main results:
    * `splitArgs_exact`    — where `split_args` cuts, and when it raises;
    * `balanced_block`     — a block is found with what stands behind it;
    * `readEntries_table`  — a table of initializers is read back, entry by entry.
-/
import KFsw.Lib.Nesting
import KFsw.Lib.History
import KFsw.Tools.IcdGuard
import Mathlib.Data.Bool.AllAny
import Mathlib.Data.List.DropRight

namespace KFsw.Tools

open KFsw.Lib

/-! ## §1. `split_args`. -/

/-- The brackets of `split_args`. -/
def ARG_BRACKETS : Brackets :=
  ⟨[('(', ')'), ('[', ']'), ('{', '}')], by decide, by decide⟩

/-- The loop of `split_args`; `none` is the `IndexError` of a backslash with nothing behind it. -/
def splitFrom (depth : Int) (inString : Bool) (current : Str) : Str → Option (List Str)
  | [] => some (if current ≠ [] then [strip current] else [])
  | c :: rest =>
    if inString = true then
      if c = '\\' then
        match rest with
        | [] => none
        | d :: rest => splitFrom depth true (current ++ [c, d]) rest
      else splitFrom depth (decide (c ≠ '"')) (current ++ [c]) rest
    else if c = '"' then splitFrom depth true (current ++ [c]) rest
    else if ARG_BRACKETS.Opens c then splitFrom (depth + 1) false (current ++ [c]) rest
    else if ARG_BRACKETS.Closes c then splitFrom (depth - 1) false (current ++ [c]) rest
    else if c = ',' ∧ depth = 0 then (splitFrom depth false [] rest).map (strip current :: ·)
    else splitFrom depth false (current ++ [c]) rest

/-- `split_args`. -/
def splitArgs (text : Str) : Option (List Str) := splitFrom 0 false [] text

/-- The parts that are kept: not an empty one at the end. -/
def keptParts (parts : List Str) : List Str :=
  if parts.getLast? = some [] then parts.dropLast else parts

theorem keptParts_cons (part : Str) {parts : List Str} (hne : parts ≠ []) :
    keptParts (part :: parts) = part :: keptParts parts := by
  unfold keptParts
  rw [List.getLast?_cons_of_ne_nil hne, List.dropLast_cons_of_ne_nil hne]
  split <;> rfl

theorem comma_plain : ARG_BRACKETS.Plain ',' := by decide

/-- Where the loop is. -/
def loopMode (inString : Bool) : LiteralMode := if inString = true then .inside else .outside

/-- A character of a string that is no backslash: the string goes on, unless it is a quote. -/
theorem step_inside {b : Brackets} {c : Char} (hback : c ≠ '\\') (depth : Int) :
    (Scan.mk .inside depth).step b c = ⟨loopMode (decide (c ≠ '"')), depth⟩ := by
  show (if c = '\\' then _ else if c = '"' then _ else _) = _
  rw [if_neg hback]
  by_cases hquote : c = '"' <;> simp [hquote, loopMode]

/-- What a reader makes of a text: its parts, unless it ends behind a backslash in a string. -/
def readParts (s : Scan) (current text : Str) : Option (List Str) :=
  if (s.over ARG_BRACKETS text).mode = .escaped then none
  else some ((keptParts (cutFrom ARG_BRACKETS ',' s current text)).map strip)

theorem readParts_step {s : Scan} {c : Char} (h : ¬ (c = ',' ∧ s = ⟨.outside, 0⟩))
    (current rest : Str) :
    readParts s current (c :: rest)
      = readParts (s.step ARG_BRACKETS c) (current ++ [c]) rest := by
  unfold readParts
  rw [over_cons, cutFrom, if_neg h]

theorem readParts_cut (current rest : Str) :
    readParts ⟨.outside, 0⟩ current (',' :: rest)
      = (readParts ⟨.outside, 0⟩ [] rest).map (strip current :: ·) := by
  unfold readParts
  rw [over_cons, step_plain comma_plain, cutFrom_sep, keptParts_cons _ (cutFrom_ne_nil _ _ _ _),
    List.map_cons]
  split <;> rfl

/-- **The loop cuts as the reader does.** -/
theorem splitFrom_eq (depth : Int) (inString : Bool) (current text : Str) :
    splitFrom depth inString current text = readParts ⟨loopMode inString, depth⟩ current text := by
  induction depth, inString, current, text using splitFrom.induct with
  | case1 depth inString current =>
    have hmode : loopMode inString ≠ .escaped := by cases inString <;> decide
    have hkept : keptParts [current] = if current = [] then [] else [current] := by
      simp [keptParts]
    show some (if current ≠ [] then [strip current] else []) = if loopMode inString = .escaped then
      none else some ((keptParts [current]).map strip)
    rw [if_neg hmode, hkept]
    by_cases hnil : current = []
    · rw [if_neg (not_not_intro hnil), if_pos hnil, List.map_nil]
    · rw [if_pos hnil, if_neg hnil, List.map_singleton]
  | case2 depth current => rfl
  | case3 depth current d rest ih =>
    -- a backslash and what it escapes
    have hback : ¬ ('\\' = ',' ∧ Scan.mk .inside depth = ⟨.outside, 0⟩) := by simp
    have hescaped : ¬ (d = ',' ∧ Scan.mk .escaped depth = ⟨.outside, 0⟩) := by simp
    unfold splitFrom
    rw [if_pos rfl, if_pos rfl]
    show splitFrom depth true (current ++ ['\\', d]) rest = readParts ⟨.inside, depth⟩ current _
    rw [ih, readParts_step hback]
    show _ = readParts ⟨.escaped, depth⟩ _ _
    rw [readParts_step hescaped, List.append_assoc]
    rfl
  | case4 depth current c rest hback ih =>
    have hcut : ¬ (c = ',' ∧ Scan.mk .inside depth = ⟨.outside, 0⟩) := by simp
    unfold splitFrom
    rw [if_pos rfl, if_neg hback, ih]
    show _ = readParts ⟨.inside, depth⟩ current _
    rw [readParts_step hcut, step_inside hback]
  | case5 depth inString current rest hout ih =>
    obtain rfl : inString = false := by simpa using hout
    have hcut : ¬ ('"' = ',' ∧ Scan.mk .outside depth = ⟨.outside, 0⟩) := by simp
    unfold splitFrom
    rw [if_neg hout, if_pos rfl, ih]
    exact (readParts_step hcut current rest).symm
  | case6 depth inString current c rest hout hquote hopens ih =>
    obtain rfl : inString = false := by simpa using hout
    have hcut : ¬ (c = ',' ∧ Scan.mk .outside depth = ⟨.outside, 0⟩) := fun h =>
      comma_plain.2.1 (h.1 ▸ hopens)
    unfold splitFrom
    rw [if_neg hout, if_neg hquote, if_pos hopens, ih]
    show _ = readParts ⟨.outside, depth⟩ current _
    rw [readParts_step hcut, step_opens hopens]
    rfl
  | case7 depth inString current c rest hout hquote hopens hcloses ih =>
    obtain rfl : inString = false := by simpa using hout
    have hcut : ¬ (c = ',' ∧ Scan.mk .outside depth = ⟨.outside, 0⟩) := fun h =>
      comma_plain.2.2 (h.1 ▸ hcloses)
    unfold splitFrom
    rw [if_neg hout, if_neg hquote, if_neg hopens, if_pos hcloses, ih]
    show _ = readParts ⟨.outside, depth⟩ current _
    rw [readParts_step hcut, step_closes hcloses]
    rfl
  | case8 depth inString current c rest hout hquote hopens hcloses hcut ih =>
    obtain rfl : inString = false := by simpa using hout
    obtain ⟨rfl, rfl⟩ := hcut
    unfold splitFrom
    rw [if_neg hout, if_neg hquote, if_neg hopens, if_neg hcloses, if_pos ⟨rfl, rfl⟩, ih]
    exact (readParts_cut current rest).symm
  | case9 depth inString current c rest hout hquote hopens hcloses hcut ih =>
    obtain rfl : inString = false := by simpa using hout
    have hno : ¬ (c = ',' ∧ Scan.mk .outside depth = ⟨.outside, 0⟩) := fun h =>
      hcut ⟨h.1, congrArg Scan.depth h.2⟩
    unfold splitFrom
    rw [if_neg hout, if_neg hquote, if_neg hopens, if_neg hcloses, if_neg hcut, ih]
    show _ = readParts ⟨.outside, depth⟩ current _
    rw [readParts_step hno, step_plain ⟨hquote, hopens, hcloses⟩]
    rfl

/-- A text outside of whose strings and brackets no comma stands. -/
def NoTopComma (part : Str) : Prop :=
  Along ARG_BRACKETS (fun s c => ¬ (c = ',' ∧ s = ⟨.outside, 0⟩)) ⟨.outside, 0⟩ part

/-- The parts of a text between its commas outside of strings and brackets. -/
structure TopParts (text : Str) (parts : List Str) : Prop where
  whole : [','].intercalate parts = text
  no_comma : ∀ part ∈ parts, NoTopComma part
  closed : ∀ part ∈ parts.dropLast, (Scan.mk .outside 0).over ARG_BRACKETS part = ⟨.outside, 0⟩

theorem topParts_cuts (text : Str) : TopParts text (cuts ARG_BRACKETS ',' text) :=
  ⟨intercalate_cuts ',' text, along_cuts ',' text, over_cuts ',' text⟩

/-- The arguments are the parts between the commas. -/
theorem splitArgs_cuts (text : Str) :
    splitArgs text
      = if ((Scan.mk .outside 0).over ARG_BRACKETS text).mode = .escaped then none
        else some ((keptParts (cuts ARG_BRACKETS ',' text)).map strip) :=
  splitFrom_eq 0 false [] text

/-- **Where `split_args` cuts**: at every comma outside of strings and brackets and nowhere else.
An empty part at the end is left out, and a text that ends behind a backslash in a string raises. -/
theorem splitArgs_exact (text : Str) :
    ∃ parts, TopParts text parts ∧ parts ≠ [] ∧
      splitArgs text
        = if ((Scan.mk .outside 0).over ARG_BRACKETS text).mode = .escaped then none
          else some ((keptParts parts).map strip) :=
  ⟨_, topParts_cuts text, cutFrom_ne_nil _ _ _ _, splitArgs_cuts text⟩

/-- **Balanced texts that are joined by commas are split again.** -/
theorem splitArgs_intercalate {parts : List Str} (hne : parts ≠ [])
    (h : ∀ part ∈ parts, Balanced ARG_BRACKETS (· ≠ ',') part) :
    splitArgs ([','].intercalate parts) = some ((keptParts parts).map strip) := by
  have hscan := (Balanced.intercalate comma_plain h).scan 0
  rw [splitArgs_cuts, hscan, if_neg (by decide), cuts_intercalate comma_plain hne h]

/-- Plain characters in front of balanced text. -/
theorem balanced_plain {b : Brackets} {top : Char → Prop} {before rest : Str}
    (hbefore : ∀ c ∈ before, b.Plain c ∧ top c) (hrest : Balanced b top rest) :
    Balanced b top (before ++ rest) := by
  induction before with
  | nil => exact hrest
  | cons c before ih =>
    obtain ⟨hc, htail⟩ := List.forall_mem_cons.mp hbefore
    exact .plain hc.1 hc.2 (ih htail)

/-- Arguments in brackets. -/
theorem balanced_brackets {args : Str} (hargs : ∀ c ∈ args, ARG_BRACKETS.Plain c) :
    Balanced ARG_BRACKETS (· ≠ ',') ('(' :: (args ++ [')'])) := by
  refine .group (p := ('(', ')')) List.mem_cons_self ?_ (.nil _)
  have h := balanced_plain (fun c hc => ⟨hargs c hc, trivial⟩) (.nil fun _ => True)
  rwa [List.append_nil] at h

theorem balanced_word {word : Str} (hword : ∀ c ∈ word, ARG_BRACKETS.Plain c ∧ c ≠ ',') :
    Balanced ARG_BRACKETS (· ≠ ',') word := by
  have h := balanced_plain hword (.nil (b := ARG_BRACKETS) (· ≠ ','))
  rwa [List.append_nil] at h

/-- Words that are joined by commas are split again. -/
theorem splitArgs_words {words : List Str} (hne : words ≠ [])
    (h : ∀ w ∈ words, ∀ c ∈ w, ARG_BRACKETS.Plain c ∧ c ≠ ',') :
    splitArgs ([','].intercalate words) = some ((keptParts words).map strip) :=
  splitArgs_intercalate hne fun w hw => balanced_word (h w hw)

/-! ## §2. `balanced`. -/

/-- The loop of `balanced`, and the one of `macro_calls`: how far it goes. -/
def closeFrom (opener closer : Char) (depth : Nat) (inString : Bool) : Str → Nat
  | [] => 0
  | c :: rest =>
    if depth = 0 then 0
    else if inString = true then
      if c = '\\' then
        match rest with
        | [] => 2
        | _ :: rest => 2 + closeFrom opener closer depth true rest
      else 1 + closeFrom opener closer depth (decide (c ≠ '"')) rest
    else if c = '"' then 1 + closeFrom opener closer depth true rest
    else if c = opener then 1 + closeFrom opener closer (depth + 1) false rest
    else if c = closer then 1 + closeFrom opener closer (depth - 1) false rest
    else 1 + closeFrom opener closer depth false rest

/-- `balanced`: what stands in the block that begins first in a text, and behind it; `none` is the
`ValueError` of `text.index`. -/
def balanced (opener closer : Char) (text : Str) : Option (Str × Str) :=
  match text.dropWhile (· ≠ opener) with
  | [] => none
  | _ :: inside =>
    let length := closeFrom opener closer 1 false inside
    some (inside.take (length - 1), inside.drop length)

/-- One kind of brackets. -/
def oneBracket (opener closer : Char) (h : opener ≠ closer ∧ opener ≠ '"' ∧ closer ≠ '"') :
    Brackets where
  pairs := [(opener, closer)]
  apart := by simp [h.1]
  no_quote := by simp [h.2]

variable {opener closer : Char} {h : opener ≠ closer ∧ opener ≠ '"' ∧ closer ≠ '"'}

theorem oneBracket_opens {c : Char} : (oneBracket opener closer h).Opens c ↔ c = opener :=
  List.mem_singleton

theorem oneBracket_closes {c : Char} : (oneBracket opener closer h).Closes c ↔ c = closer :=
  List.mem_singleton

/-- Where the loop ends, given where the reader finds the end of the bracket. -/
def EndsAt (length : Nat) (text : Str) (found : Option (Str × Str)) : Prop :=
  match found with
  | none => text.length ≤ length
  | some found => length = found.1.length + 1

theorem EndsAt.cons {length : Nat} {rest : Str} {found : Option (Str × Str)}
    (h : EndsAt length rest found) (c : Char) :
    EndsAt (1 + length) (c :: rest) (found.map fun found => (c :: found.1, found.2)) := by
  cases found with
  | none =>
    show rest.length + 1 ≤ 1 + length
    have hrest : rest.length ≤ length := h
    omega
  | some found =>
    show 1 + length = found.1.length + 1 + 1
    have hfound : length = found.1.length + 1 := h
    omega

/-- One step that does not close the bracket. -/
theorem EndsAt.step {b : Brackets} {s t : Scan} {c : Char} (hstep : s.step b c = t)
    (hopen : t.depth ≠ 0) {length : Nat} {rest : Str}
    (h : EndsAt length rest (closeAt b t rest)) :
    EndsAt (1 + length) (c :: rest) (closeAt b s (c :: rest)) := by
  subst hstep
  rw [closeAt, if_neg hopen]
  exact h.cons c

@[simp] theorem closeFrom_zero (inString : Bool) (text : Str) :
    closeFrom opener closer 0 inString text = 0 := by
  cases text with
  | nil => rfl
  | cons c rest =>
    unfold closeFrom
    exact if_pos rfl

/-- **The loop ends where the reader finds the end of the bracket.** -/
theorem closeFrom_endsAt (depth : Nat) (inString : Bool) (text : Str) (hdepth : depth ≠ 0) :
    EndsAt (closeFrom opener closer depth inString text) text
      (closeAt (oneBracket opener closer h) ⟨loopMode inString, depth⟩ text) := by
  induction depth, inString, text using closeFrom.induct opener closer with
  | case1 depth inString => exact Nat.le_refl 0
  | case2 inString c rest => exact absurd rfl hdepth
  | case3 depth _ =>
    have hzero : (depth : Int) ≠ 0 := by omega
    unfold closeFrom
    rw [if_neg hdepth, if_pos rfl, if_pos rfl]
    have hend : EndsAt 1 [] (closeAt (oneBracket opener closer h) ⟨.escaped, depth⟩ []) :=
      Nat.zero_le 1
    exact EndsAt.step (t := ⟨.escaped, depth⟩) rfl hzero hend
  | case4 depth _ d rest ih =>
    -- a backslash and what it escapes
    have hzero : (depth : Int) ≠ 0 := by omega
    have hescaped := EndsAt.step (b := oneBracket opener closer h) (s := ⟨.escaped, depth⟩) (c := d)
      (t := ⟨.inside, depth⟩) rfl hzero (ih hdepth)
    have hback := EndsAt.step (b := oneBracket opener closer h) (s := ⟨.inside, depth⟩) (c := '\\')
      rfl hzero hescaped
    unfold closeFrom
    rw [if_neg hdepth, if_pos rfl, if_pos rfl]
    rw [← Nat.add_assoc] at hback
    exact hback
  | case5 depth c rest _ hback ih =>
    have hzero : (depth : Int) ≠ 0 := by omega
    unfold closeFrom
    rw [if_neg hdepth, if_pos rfl, if_neg hback]
    exact EndsAt.step (step_inside hback depth) hzero (ih hdepth)
  | case6 depth inString rest _ hout ih =>
    have hzero : (depth : Int) ≠ 0 := by omega
    obtain rfl : inString = false := by simpa using hout
    unfold closeFrom
    rw [if_neg hdepth, if_neg hout, if_pos rfl]
    exact EndsAt.step (step_quote depth) hzero (ih hdepth)
  | case7 depth inString rest _ hout hquote ih =>
    have hzero : (depth : Int) + 1 ≠ 0 := by omega
    obtain rfl : inString = false := by simpa using hout
    unfold closeFrom
    rw [if_neg hdepth, if_neg hout, if_neg hquote, if_pos rfl]
    exact EndsAt.step (step_opens (oneBracket_opens.mpr rfl) depth) hzero
      (ih (Nat.succ_ne_zero depth))
  | case8 depth inString rest _ hout hquote hother ih =>
    obtain rfl : inString = false := by simpa using hout
    have hstep := step_closes (oneBracket_closes (h := h).mpr rfl) depth
    unfold closeFrom
    rw [if_neg hdepth, if_neg hout, if_neg hquote, if_neg hother, if_pos rfl]
    by_cases hlast : depth = 1
    · -- the bracket that was looked for
      subst hlast
      rw [Nat.sub_self, closeFrom_zero]
      show EndsAt 1 _ (closeAt _ _ _)
      rw [closeAt, if_pos (by exact congrArg Scan.depth hstep)]
      exact rfl
    · have hcast : (depth : Int) - 1 = ((depth - 1 : Nat) : Int) := by omega
      have hzero : ((depth - 1 : Nat) : Int) ≠ 0 := by omega
      rw [hcast] at hstep
      exact EndsAt.step hstep hzero (ih (by omega))
  | case9 depth inString c rest _ hout hquote hopen hclose ih =>
    have hzero : (depth : Int) ≠ 0 := by omega
    obtain rfl : inString = false := by simpa using hout
    have hplain : (oneBracket opener closer h).Plain c :=
      ⟨hquote, fun hc => hopen (oneBracket_opens.mp hc), fun hc => hclose (oneBracket_closes.mp hc)⟩
    unfold closeFrom
    rw [if_neg hdepth, if_neg hout, if_neg hquote, if_neg hopen, if_neg hclose]
    exact EndsAt.step (step_plain hplain depth) hzero (ih hdepth)

/-- The loop goes over balanced text and the bracket behind it. -/
theorem closeFrom_block {top : Char → Prop} {inner : Str}
    (hinner : Balanced (oneBracket opener closer h) top inner) (rest : Str) :
    closeFrom opener closer 1 false (inner ++ closer :: rest) = inner.length + 1 := by
  have hends := closeFrom_endsAt (h := h) 1 false (inner ++ closer :: rest) Nat.one_ne_zero
  have hfound : closeAt (oneBracket opener closer h) ⟨loopMode false, (1 : Nat)⟩
      (inner ++ closer :: rest) = some (inner, rest) :=
    closeAt_balanced (p := (opener, closer)) (List.mem_singleton.mpr rfl) hinner rest
  rw [hfound] at hends
  exact hends

/-- **A block is found**, with what stands in it and behind it. -/
theorem balanced_block {before : Str} (hbefore : opener ∉ before) {top : Char → Prop} {inner : Str}
    (hinner : Balanced (oneBracket opener closer h) top inner) (rest : Str) :
    balanced opener closer (before ++ opener :: (inner ++ closer :: rest)) = some (inner, rest) := by
  have hdrop : (before ++ opener :: (inner ++ closer :: rest)).dropWhile (· ≠ opener)
      = opener :: (inner ++ closer :: rest) := by
    have hall : ∀ c ∈ before, decide (c ≠ opener) = true := fun c hc =>
      decide_eq_true fun heq => hbefore (heq ▸ hc)
    rw [List.dropWhile_append_of_pos hall, List.dropWhile_cons_of_neg (by simp)]
  unfold balanced
  rw [hdrop]
  simp [closeFrom_block hinner rest]

/-! ## §3. Initializers. -/

section Initializers

-- the word characters of Python's `re`
variable (wordChar : Char → Bool)

/-- What a match of `\.\s*(\w+)\s*=\s*(.*)$` gives: the key, and the value stripped. -/
def matchDesignator (part : Str) : Option (Str × Str) :=
  match part with
  | '.' :: rest =>
    let name := rest.dropWhile isSpace
    let key := name.takeWhile wordChar
    match (name.dropWhile wordChar).dropWhile isSpace with
    | '=' :: value => if key ≠ [] then some (key, strip value) else none
    | _ => none
  | _ => none

/-- The fields of an initializer. -/
abbrev InitFields := OrderedDict Str Str

/-- The fields that some parts give. -/
def fieldsOf (parts : List Str) : InitFields :=
  (parts.filterMap (matchDesignator wordChar)).foldl (fun fields pair => fields.set pair.1 pair.2)
    OrderedDict.empty

/-- `designators`; `none` is the `IndexError` of `split_args`. -/
def designators (body : Str) : Option InitFields := (splitArgs body).map (fieldsOf wordChar)

/-- `"name"`. -/
def NAME : Str := "name".toList

theorem balanced_length {text inner rest : Str} (h : balanced opener closer text = some (inner, rest)) :
    rest.length < text.length := by
  unfold balanced at h
  cases hdrop : text.dropWhile (· ≠ opener) with
  | nil =>
    rw [hdrop] at h
    exact absurd h (by simp)
  | cons c inside =>
    rw [hdrop] at h
    obtain ⟨-, rfl⟩ := Prod.mk.inj (Option.some.inj h)
    have hlen := (List.dropWhile_sublist (l := text) (· ≠ opener)).length_le
    rw [hdrop, List.length_cons] at hlen
    rw [List.length_drop]
    omega

/-- The loop over the initializers of an array; those without a name are passed over. -/
def readEntries (text : Str) : Option (List InitFields) :=
  match _ : balanced '{' '}' text with
  | none => some []
  | some (inner, rest) =>
    (designators wordChar inner).bind fun fields =>
      (readEntries rest).map fun entries =>
        if fields.contains NAME = true then fields :: entries else entries
termination_by text.length
decreasing_by exact balanced_length ‹_›

/-- The entries of an array, from behind its `=` on; `none` is an exception. -/
def readArray (text : Str) : Option (List InitFields) :=
  (balanced '{' '}' text).bind fun block => readEntries wordChar block.1

/-- What is asked of the word characters. -/
def WordsApart : Prop :=
  ∀ c, wordChar c = true → isSpace c = false ∧ ARG_BRACKETS.Plain c ∧ c ≠ ',' ∧ c ≠ '='

/-- White space. -/
abbrev Spaces (text : Str) : Prop := ∀ c ∈ text, isSpace c = true

/-- A field as it is written, with any white space between its tokens. -/
structure WrittenField where
  lead : Str
  behindDot : Str
  key : Str
  behindKey : Str
  value : Str
  spaces : Spaces lead ∧ Spaces behindDot ∧ Spaces behindKey
  key_ne : key ≠ []
  key_word : ∀ c ∈ key, wordChar c = true
  value_balanced : Balanced ARG_BRACKETS (· ≠ ',') value

variable {wordChar}

def WrittenField.text (field : WrittenField wordChar) : Str :=
  field.lead ++ '.' :: (field.behindDot ++ (field.key ++ (field.behindKey ++ '=' :: field.value)))

/-- **A written field is matched**, with its key and its value. -/
theorem matchDesignator_text (hwords : WordsApart wordChar) (field : WrittenField wordChar) :
    matchDesignator wordChar (strip field.text) = some (field.key, strip field.value) := by
  obtain ⟨hlead, hdot, hkey⟩ := field.spaces
  have hstrip : strip field.text
      = '.' :: (field.behindDot ++ (field.key ++ (field.behindKey ++ '=' :: rstrip field.value))) := by
    have hequals := rstrip_append_cons (field.behindDot ++ (field.key ++ field.behindKey))
      (c := '=') (by decide) field.value
    simp only [List.append_assoc] at hequals
    rw [WrittenField.text, strip_cons hlead (by decide), hequals]
  obtain ⟨k, ks, hcons⟩ := List.exists_cons_of_ne_nil field.key_ne
  have hspace : isSpace k = false := (hwords k (field.key_word k (hcons ▸ List.mem_cons_self))).1
  have hname : (field.behindDot ++ (field.key ++ (field.behindKey ++ '=' :: rstrip field.value))).dropWhile
      isSpace = field.key ++ (field.behindKey ++ '=' :: rstrip field.value) := by
    rw [List.dropWhile_append_of_pos hdot, hcons, List.cons_append,
      List.dropWhile_cons_of_neg (by simp [hspace])]
  have hend : (field.behindKey ++ '=' :: rstrip field.value).takeWhile wordChar = [] ∧
      (field.behindKey ++ '=' :: rstrip field.value).dropWhile wordChar
        = field.behindKey ++ '=' :: rstrip field.value := by
    have hfirst : ∀ c, isSpace c = true ∨ c = '=' → wordChar c = false := by
      intro c hc
      by_contra hword
      obtain ⟨hnospace, -, -, hne⟩ := hwords c (by simpa using hword)
      rcases hc with hc | hc
      · rw [hc] at hnospace
        exact Bool.noConfusion hnospace
      · exact hne hc
    cases hbehind : field.behindKey with
    | nil => simp [hfirst '=' (.inr rfl)]
    | cons c rest => simp [hfirst c (.inl (hkey c (hbehind ▸ List.mem_cons_self)))]
  rw [hstrip]
  show (match ((List.dropWhile isSpace (field.behindDot ++ _)).dropWhile wordChar).dropWhile isSpace with
    | '=' :: value => _
    | _ => none) = _
  rw [hname, List.dropWhile_append_of_pos field.key_word, hend.2,
    List.dropWhile_append_of_pos hkey, List.dropWhile_cons_of_neg (by decide),
    List.takeWhile_append_of_pos field.key_word, hend.1, List.append_nil]
  show (if field.key ≠ [] then some (field.key, strip (rstrip field.value)) else none) = _
  rw [if_pos field.key_ne, strip_rstrip]

/-! ## §4. Tables of initializers. -/

/-- What `designators` passes over: balanced text that does not begin with a dot. -/
structure OtherText where
  text : Str
  balanced : Balanced ARG_BRACKETS (· ≠ ',') text
  no_dot : (strip text).head? ≠ some '.'

/-- An item of an initializer. -/
inductive InitItem (wordChar : Char → Bool) where
  | field (field : WrittenField wordChar)
  | other (other : OtherText)

def InitItem.text : InitItem wordChar → Str
  | .field written => written.text
  | .other passed => passed.text

/-- The key and the value of an item that has them. -/
def InitItem.pair? : InitItem wordChar → Option (Str × Str)
  | .field written => some (written.key, strip written.value)
  | .other _ => none

/-- The items of an initializer, with commas between them. -/
def itemsText (items : List (InitItem wordChar)) : Str := [','].intercalate (items.map InitItem.text)

/-- The fields of an initializer: a key that is there again has its last value. -/
def itemFields (items : List (InitItem wordChar)) : InitFields :=
  (items.filterMap InitItem.pair?).foldl (fun fields pair => fields.set pair.1 pair.2)
    OrderedDict.empty

theorem matchDesignator_other {part : Str} (h : part.head? ≠ some '.') :
    matchDesignator wordChar part = none := by
  unfold matchDesignator
  split
  · exact absurd rfl h
  · rfl

theorem matchDesignator_item (hwords : WordsApart wordChar) (item : InitItem wordChar) :
    matchDesignator wordChar (strip item.text) = item.pair? := by
  cases item with
  | field field => exact matchDesignator_text hwords field
  | other other => exact matchDesignator_other other.no_dot

theorem isSpace_plain {c : Char} (hspace : isSpace c = true) :
    ARG_BRACKETS.Plain c ∧ c ≠ ',' := by
  have hall : ['"', '(', '[', '{', ')', ']', '}', ','].all (fun d => !isSpace d) = true := by decide
  have hno : ∀ d ∈ ['"', '(', '[', '{', ')', ']', '}', ','], c ≠ d := by
    rintro d hd rfl
    have hnot := List.all_eq_true.mp hall c hd
    rw [hspace] at hnot
    exact Bool.noConfusion hnot
  simp only [List.mem_cons, List.not_mem_nil, or_false, forall_eq_or_imp, forall_eq] at hno
  obtain ⟨hquote, h1, h2, h3, h4, h5, h6, hcomma⟩ := hno
  refine ⟨⟨hquote, ?_, ?_⟩, hcomma⟩
  · simp [Brackets.Opens, ARG_BRACKETS, h1, h2, h3]
  · simp [Brackets.Closes, ARG_BRACKETS, h4, h5, h6]

theorem InitItem.balanced (hwords : WordsApart wordChar) (item : InitItem wordChar) :
    Balanced ARG_BRACKETS (· ≠ ',') item.text := by
  cases item with
  | other other => exact other.balanced
  | field field =>
    obtain ⟨hlead, hdot, hkey⟩ := field.spaces
    have hspaces : ∀ {text : Str}, Spaces text → ∀ c ∈ text, ARG_BRACKETS.Plain c ∧ c ≠ ',' :=
      fun h c hc => isSpace_plain (h c hc)
    have hdotChar : ARG_BRACKETS.Plain '.' ∧ '.' ≠ ',' := by decide
    have hequals : ARG_BRACKETS.Plain '=' ∧ '=' ≠ ',' := by decide
    refine balanced_plain (hspaces hlead) (.plain hdotChar.1 hdotChar.2 ?_)
    refine balanced_plain (hspaces hdot) (balanced_plain (fun c hc => ?_) ?_)
    · obtain ⟨-, hplain, hcomma, -⟩ := hwords c (field.key_word c hc)
      exact ⟨hplain, hcomma⟩
    · exact balanced_plain (hspaces hkey) (.plain hequals.1 hequals.2 field.value_balanced)

/-- An empty part at the end gives no field. -/
theorem filterMap_keptParts (parts : List Str) :
    ((keptParts parts).map strip).filterMap (matchDesignator wordChar)
      = (parts.map strip).filterMap (matchDesignator wordChar) := by
  unfold keptParts
  split
  · rename_i hlast
    have hne : parts ≠ [] := by
      rintro rfl
      exact absurd hlast (by simp)
    have hparts : parts = parts.dropLast ++ [[]] := by
      have hgot := List.dropLast_append_getLast hne
      rw [List.getLast?_eq_some_getLast hne] at hlast
      rw [Option.some.inj hlast] at hgot
      exact hgot.symm
    conv_rhs => rw [hparts]
    rw [List.map_append, List.filterMap_append]
    exact (List.append_nil _).symm
  · rfl

theorem items_balanced (hwords : WordsApart wordChar) (items : List (InitItem wordChar)) :
    ∀ part ∈ items.map InitItem.text, Balanced ARG_BRACKETS (· ≠ ',') part := by
  intro part hpart
  obtain ⟨item, -, rfl⟩ := List.mem_map.mp hpart
  exact item.balanced hwords

/-- **An initializer is read back**, field by field. -/
theorem designators_items (hwords : WordsApart wordChar) (items : List (InitItem wordChar)) :
    designators wordChar (itemsText items) = some (itemFields items) := by
  have hpairs : ((items.map InitItem.text).map strip).filterMap (matchDesignator wordChar)
      = items.filterMap InitItem.pair? := by
    rw [List.map_map, List.filterMap_map]
    exact List.filterMap_congr fun item _ => matchDesignator_item hwords item
  cases items with
  | nil => rfl
  | cons item items =>
    have hne : (item :: items).map InitItem.text ≠ [] := List.cons_ne_nil _ _
    rw [designators, itemsText, splitArgs_intercalate hne (items_balanced hwords _),
      Option.map_some, fieldsOf, filterMap_keptParts, hpairs]
    rfl

/-- The brackets of `balanced`. -/
def BRACES : Brackets := oneBracket '{' '}' (by decide)

/-- An entry of an array, with what stands in front of its brace. -/
structure WrittenEntry (wordChar : Char → Bool) where
  before : Str
  before_plain : ∀ c ∈ before, BRACES.Plain c
  items : List (InitItem wordChar)

def WrittenEntry.text (entry : WrittenEntry wordChar) : Str :=
  entry.before ++ '{' :: (itemsText entry.items ++ ['}'])

/-- The entries of an array, one after the other, and what stands behind the last. -/
def tableText (entries : List (WrittenEntry wordChar)) (behind : Str) : Str :=
  entries.flatMap WrittenEntry.text ++ behind

/-- The initializers that have a name, in order. -/
def namedEntries (entries : List (WrittenEntry wordChar)) : List InitFields :=
  (entries.map fun entry => itemFields entry.items).filter fun fields => fields.contains NAME

theorem braces_of_args {top : Char → Prop} {text : Str} (htext : Balanced ARG_BRACKETS top text) :
    Balanced BRACES (fun _ => True) text := by
  refine htext.sub (by decide) fun c hc => ⟨hc.1, ?_, ?_⟩
  · intro hopen
    exact hc.2.1 (oneBracket_opens.mp hopen ▸ by decide)
  · intro hclose
    exact hc.2.2 (oneBracket_closes.mp hclose ▸ by decide)

theorem itemsText_balanced (hwords : WordsApart wordChar) (items : List (InitItem wordChar)) :
    Balanced BRACES (fun _ => True) (itemsText items) :=
  braces_of_args (Balanced.intercalate comma_plain (items_balanced hwords items))

theorem WrittenEntry.balanced (hwords : WordsApart wordChar) (entry : WrittenEntry wordChar) :
    Balanced BRACES (fun _ => True) entry.text :=
  balanced_plain (fun c hc => ⟨entry.before_plain c hc, trivial⟩)
    (.group (List.mem_singleton.mpr rfl) (itemsText_balanced hwords entry.items) (.nil _))

/-- Text without a brace ends the loop. -/
theorem readEntries_end {text : Str} (hfree : '{' ∉ text) : readEntries wordChar text = some [] := by
  have hnone : balanced '{' '}' text = none := by
    have hall : ∀ c ∈ text, decide (c ≠ '{') = true := fun c hc =>
      decide_eq_true fun heq => hfree (heq ▸ hc)
    unfold balanced
    rw [List.dropWhile_eq_nil_iff.mpr hall]
  rw [readEntries]
  split
  · rfl
  · rename_i hsome
    rw [hnone] at hsome
    exact absurd hsome (by simp)

/-- One turn of the loop. -/
theorem readEntries_block {text inner rest : Str}
    (hblock : balanced '{' '}' text = some (inner, rest)) :
    readEntries wordChar text
      = (designators wordChar inner).bind fun fields =>
          (readEntries wordChar rest).map fun entries =>
            if fields.contains NAME = true then fields :: entries else entries := by
  rw [readEntries]
  split
  · rename_i hnone
    rw [hblock] at hnone
    exact absurd hnone (by simp)
  · rename_i hsome
    rw [hblock] at hsome
    obtain ⟨rfl, rfl⟩ := Prod.mk.inj (Option.some.inj hsome)
    rfl

/-- The loop reads the entries of a table. -/
theorem readEntries_table (hwords : WordsApart wordChar) (entries : List (WrittenEntry wordChar))
    {behind : Str} (hbehind : '{' ∉ behind) :
    readEntries wordChar (tableText entries behind) = some (namedEntries entries) := by
  induction entries with
  | nil => exact readEntries_end hbehind
  | cons entry entries ih =>
    have htext : tableText (entry :: entries) behind
        = entry.before ++ '{' :: (itemsText entry.items ++ '}' :: tableText entries behind) := by
      simp [tableText, WrittenEntry.text]
    have hfree : '{' ∉ entry.before := fun hmem =>
      (entry.before_plain _ hmem).2.1 (oneBracket_opens.mpr rfl)
    rw [htext, readEntries_block (balanced_block hfree (itemsText_balanced hwords entry.items) _),
      designators_items hwords, ih]
    exact congrArg some (List.filter_cons (p := fun fields : InitFields => fields.contains NAME)
      (x := itemFields entry.items)).symm

/-- **A table of initializers is read back**, whatever white space, strings and nested braces are
in it and around it: its entries with a name, in order, each with its fields. -/
theorem readArray_table (hwords : WordsApart wordChar) (entries : List (WrittenEntry wordChar))
    {before behind after : Str} (hbefore : '{' ∉ before) (hbehind : ∀ c ∈ behind, BRACES.Plain c) :
    readArray wordChar (before ++ '{' :: (tableText entries behind ++ '}' :: after))
      = some (namedEntries entries) := by
  have hentries : Balanced BRACES (fun _ => True) (entries.flatMap WrittenEntry.text) := by
    induction entries with
    | nil => exact .nil _
    | cons entry entries ih => exact (entry.balanced hwords).append ih
  have htable : Balanced BRACES (fun _ => True) (tableText entries behind) := by
    have hlast := balanced_plain (fun c hc => ⟨hbehind c hc, trivial⟩)
      (Balanced.nil (b := BRACES) fun _ => True)
    rw [List.append_nil] at hlast
    exact hentries.append hlast
  have hfree : '{' ∉ behind := fun hmem => (hbehind _ hmem).2.1 (oneBracket_opens.mpr rfl)
  rw [readArray, balanced_block hbefore htable, Option.bind_some]
  exact readEntries_table hwords entries hfree

theorem asciiWord_apart : WordsApart asciiWord := by
  intro c hc
  have hrange : (48 ≤ c.toNat ∧ c.toNat ≤ 57) ∨ (65 ≤ c.toNat ∧ c.toNat ≤ 90) ∨ c.toNat = 95
      ∨ (97 ≤ c.toNat ∧ c.toNat ≤ 122) := by
    delta asciiWord Char.isAlphanum Char.isAlpha Char.isUpper Char.isLower Char.isDigit at hc
    simp only [Bool.or_eq_true, Bool.and_eq_true, decide_eq_true_eq, ge_iff_le,
      UInt32.le_iff_toNat_le] at hc
    rcases hc with ((hc | hc) | hc) | rfl
    · exact .inr (.inl hc)
    · exact .inr (.inr (.inr hc))
    · exact .inl hc
    · decide
  have hno : ∀ d : Char, d.toNat < 48 ∨ (57 < d.toNat ∧ d.toNat < 65) ∨ d.toNat = 91 ∨ d.toNat = 93
      ∨ 122 < d.toNat → c ≠ d := by
    rintro d hd rfl
    omega
  refine ⟨?_, ⟨hno _ (by decide), ?_, ?_⟩, hno _ (by decide), hno _ (by decide)⟩
  · simp only [isSpace, Bool.or_eq_false_iff, decide_eq_false_iff_not]
    omega
  · intro hopen
    simp only [Brackets.Opens, ARG_BRACKETS, List.map_cons, List.map_nil, List.mem_cons,
      List.not_mem_nil, or_false] at hopen
    rcases hopen with h | h | h <;> exact hno _ (by decide) h
  · intro hclose
    simp only [Brackets.Closes, ARG_BRACKETS, List.map_cons, List.map_nil, List.mem_cons,
      List.not_mem_nil, or_false] at hclose
    rcases hclose with h | h | h <;> exact hno _ (by decide) h

/-- ` .key =value`, of a key that is a word. -/
def exampleField (key value : Str) (hkey : key ≠ [] ∧ key.all asciiWord = true)
    (hvalue : Balanced ARG_BRACKETS (· ≠ ',') value) : WrittenField asciiWord where
  lead := [' ']
  behindDot := []
  key := key
  behindKey := [' ']
  value := value
  spaces := ⟨List.forall_mem_singleton.mpr (by decide), List.forall_mem_nil _,
    List.forall_mem_singleton.mpr (by decide)⟩
  key_ne := hkey.1
  key_word := List.all_eq_true.mp hkey.2
  value_balanced := hvalue

/-- A string with a comma and a brace in it. -/
theorem example_string : Balanced ARG_BRACKETS (· ≠ ',') "\"a,\x7d\"".toList :=
  .string (show ∀ p ∈ [LiteralPiece.plain 'a', .plain ',', .plain '}'], p.Fits '"' by decide)
    (.nil _)

/-- Braces in braces. -/
theorem example_braces : Balanced ARG_BRACKETS (· ≠ ',') "{1,{2}}".toList := by
  have hinner : Balanced ARG_BRACKETS (fun _ => True) "{2}".toList :=
    .group (p := ('{', '}')) (by decide) (.plain (by decide) trivial (.nil _)) (.nil _)
  exact .group (p := ('{', '}')) (by decide)
    (.plain (by decide) trivial (.plain (by decide) trivial hinner)) (.nil _)

/-- An entry with a key twice, and one without a name. -/
def exampleEntries : List (WrittenEntry asciiWord) :=
  [⟨[], List.forall_mem_nil _,
      [.field (exampleField NAME "\"a,\x7d\"".toList (by decide) example_string),
        .field (exampleField "size".toList ['4'] (by decide) (balanced_word (List.all_iff_forall_prop.mp (by decide)))),
        .field (exampleField "part".toList "{1,{2}}".toList (by decide) example_braces),
        .field (exampleField "size".toList ['8'] (by decide) (balanced_word (List.all_iff_forall_prop.mp (by decide))))]⟩,
    ⟨[','], List.forall_mem_singleton.mpr (by decide),
      [.field (exampleField "size".toList ['1'] (by decide) (balanced_word (List.all_iff_forall_prop.mp (by decide))))]⟩]

theorem readArray_table_comma :
    tableText exampleEntries [',']
        = "\x7b .name =\"a,\x7d\", .size =4, .part =\x7b1,\x7b2\x7d\x7d, .size =8\x7d,\x7b .size =1\x7d,".toList
      ∧ (readArray asciiWord (" = ".toList ++ '{' :: (tableText exampleEntries [','] ++
          '}' :: [';']))).map (·.map OrderedDict.entries)
        = some [[(NAME, "\"a,\x7d\"".toList), ("size".toList, ['8']),
          ("part".toList, "{1,{2}}".toList)]] := by
  have hbefore : '{' ∉ " = ".toList := by decide
  have hbehind : ∀ c ∈ [','], BRACES.Plain c := List.forall_mem_singleton.mpr (by decide)
  refine ⟨by decide, ?_⟩
  rw [readArray_table asciiWord_apart exampleEntries hbefore hbehind]
  decide

end Initializers

end KFsw.Tools
