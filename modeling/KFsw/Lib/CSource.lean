/-
  KFsw.Lib.CSource — C source text: comments and literals, the lines of its
  conditional groups, and which groups are open behind some of it.

  A text is a sequence of comments, literals and other characters, `CItem`.  C
  takes every backslash in front of a newline out of a text, with the newline,
  before it reads comments and literals in it: these may stand in a comment's
  marks and between a backslash and the character it escapes, and continue the
  line of a `//` comment.

  Conditional groups are read from lines as a compiler has them, put together
  where a backslash continues one.  A group has the conditions of its branches so
  far; an `#else` has none of its own.

  Main results:
    * `logicalLines_append` — the lines of a text are those of its parts;
    * `groupStep_turn`      — all that one conditional line can do;
    * `Nested.openGroups`   — before every line of a properly nested text some
      groups are open.
-/
import KFsw.Lib.CString

namespace KFsw.Lib

/-! ## §1. Comments and literals. -/

/-- A piece of a literal: a character, or a backslash with the character behind it. -/
inductive LiteralPiece where
  | plain (c : Char)
  | escape (c : Char)
  deriving DecidableEq

def LiteralPiece.text : LiteralPiece → Text
  | .plain c => [c]
  | .escape c => ['\\', c]

/-- Whether a piece does not end a literal with this quote. -/
def LiteralPiece.Fits (quote : Char) : LiteralPiece → Prop
  | .plain c => c ≠ quote ∧ c ≠ '\\' ∧ c ≠ '\n'
  | .escape _ => True

instance (quote : Char) : (piece : LiteralPiece) → Decidable (piece.Fits quote)
  | .plain _ => inferInstanceAs (Decidable (_ ∧ _ ∧ _))
  | .escape _ => isTrue trivial

/-- A literal between its quotes. -/
def quoted (quote : Char) (pieces : List LiteralPiece) : Text :=
  quote :: (pieces.flatMap LiteralPiece.text ++ [quote])

/-- Backslashes in front of newlines. -/
def splices (n : Nat) : Text := (List.replicate n ['\\', '\n']).flatten

/-- What stands behind those a text begins with. -/
def behindSplices : Text → Text
  | '\\' :: '\n' :: rest => behindSplices rest
  | rest => rest

/-- A text that begins with another character has none. -/
theorem behindSplices_cons {c : Char} (hc : c ≠ '\\') (rest : Text) :
    behindSplices (c :: rest) = c :: rest := by
  unfold behindSplices
  split
  · rename_i heq
    exact absurd (List.cons.inj heq).1 hc
  · rfl

theorem head_behindSplices {c : Char} (hc : c ≠ '\\') {rest : Text} (h : rest.head? = some c) :
    (behindSplices rest).head? = some c := by
  cases rest with
  | nil => exact absurd h (by simp)
  | cons d rest =>
    obtain rfl : d = c := Option.some.inj h
    rw [behindSplices_cons hc]
    rfl

/-- A piece of a literal of C: a character, an escape (a splice when it is that of a newline), or an
escape with splices behind its backslash. -/
inductive CPiece where
  | whole (piece : LiteralPiece)
  | split (more : Nat) (c : Char)
  deriving DecidableEq

def CPiece.text : CPiece → Text
  | .whole piece => piece.text
  | .split more c => '\\' :: (splices (more + 1) ++ [c])

/-- Whether a piece does not end a literal with this quote. -/
def CPiece.Fits (quote : Char) : CPiece → Prop
  | .whole piece => piece.Fits quote
  | .split _ c => c ≠ '\n'

instance (quote : Char) : (piece : CPiece) → Decidable (piece.Fits quote)
  | .whole piece => inferInstanceAs (Decidable (piece.Fits quote))
  | .split _ c => inferInstanceAs (Decidable (c ≠ '\n'))

/-- A comment, a literal or another character.  The marks of a comment may be split by splices; the
lines of a `//` comment are those a splice continues it on. -/
inductive CItem where
  | block (opened : Nat) (body : Text) (closed : Nat)
  | line (opened : Nat) (first : Text) (continued : List Text)
  | string (pieces : List CPiece)
  | char (pieces : List CPiece)
  | other (c : Char)
  deriving DecidableEq

/-- A literal of C between its quotes. -/
def cQuoted (quote : Char) (pieces : List CPiece) : Text :=
  quote :: (pieces.flatMap CPiece.text ++ [quote])

/-- The end mark of a block comment stands in a text, however it is split. -/
def EndsComment : Text → Prop
  | [] => False
  | c :: rest => (c = '*' ∧ (behindSplices rest).head? = some '/') ∨ EndsComment rest

instance decidableEndsComment : (text : Text) → Decidable (EndsComment text)
  | [] => isFalse not_false
  | _ :: rest =>
    have := decidableEndsComment rest
    inferInstanceAs (Decidable (_ ∨ _))

namespace CItem

/-- How an item is written. -/
def text : CItem → Text
  | block opened body closed =>
    '/' :: (splices opened ++ '*' :: (body ++ '*' :: (splices closed ++ ['/'])))
  | line opened first continued =>
    '/' :: (splices opened ++ '/' :: (first ++ continued.flatMap ('\\' :: '\n' :: ·)))
  | string pieces => cQuoted '"' pieces
  | char pieces => cQuoted '\'' pieces
  | other c => [c]

def IsComment : CItem → Prop
  | block .. | line .. => True
  | _ => False

instance : (item : CItem) → Decidable item.IsComment
  | block .. | line .. => isTrue trivial
  | string _ | char _ | other _ => isFalse not_false

/-- No splice is in the end mark of a comment, or continues it. -/
def EndsWhole : CItem → Prop
  | block _ _ closed => closed = 0
  | line _ _ continued => continued = []
  | _ => True

/-- No splice is in the marks of a comment, or continues it. -/
def Unspliced : CItem → Prop
  | block opened _ closed => opened = 0 ∧ closed = 0
  | line opened _ continued => opened = 0 ∧ continued = []
  | _ => True

instance : (item : CItem) → Decidable item.EndsWhole
  | block _ _ closed => inferInstanceAs (Decidable (closed = 0))
  | line _ _ continued => inferInstanceAs (Decidable (continued = []))
  | string _ | char _ | other _ => isTrue trivial

instance : (item : CItem) → Decidable item.Unspliced
  | block .. => inferInstanceAs (Decidable (_ ∧ _))
  | line .. => inferInstanceAs (Decidable (_ ∧ _))
  | string _ | char _ | other _ => isTrue trivial

/-- What is left of an item when a comment is one space. -/
def withoutComment (item : CItem) : Text := if item.IsComment then [' '] else item.text

/-- What an item may hold: a comment ends at its first end, a literal at its first quote, and a
character literal has something else than splices. -/
def Valid : CItem → Prop
  | block _ body _ => ¬ EndsComment body
  | line _ first continued => '\n' ∉ first ∧ ∀ l ∈ continued, '\n' ∉ l
  | string pieces => ∀ p ∈ pieces, p.Fits '"'
  | char pieces => (∃ p ∈ pieces, p ≠ .whole (.escape '\n')) ∧ ∀ p ∈ pieces, p.Fits '\''
  | other c => c ≠ '"' ∧ c ≠ '\''

instance : (item : CItem) → Decidable item.Valid
  | block .. => inferInstanceAs (Decidable (¬ _))
  | line .. => inferInstanceAs (Decidable (_ ∧ _))
  | string _ => inferInstanceAs (Decidable (∀ _ ∈ _, _))
  | char _ => inferInstanceAs (Decidable (_ ∧ _))
  | other _ => inferInstanceAs (Decidable (_ ∧ _))

/-- What may stand behind an item: a `//` comment goes on to the end of its last line, and a slash
is not the beginning of a comment, however its mark is split. -/
def Before (rest : Text) : CItem → Prop
  | line _ first continued =>
    rest = [] ∨ (rest.head? = some '\n' ∧ (continued.getLastD first).getLast? ≠ some '\\')
  | other c =>
    c = '/' → (behindSplices rest).head? ≠ some '/' ∧ (behindSplices rest).head? ≠ some '*'
  | _ => True

instance (rest : Text) : (item : CItem) → Decidable (item.Before rest)
  | line .. => inferInstanceAs (Decidable (_ ∨ _))
  | other _ => inferInstanceAs (Decidable (_ → _))
  | block .. | string _ | char _ => isTrue trivial

end CItem

/-- The text of some items. -/
def cText (items : List CItem) : Text := items.flatMap CItem.text

/-- The text with one space for each comment. -/
def withoutComments (items : List CItem) : Text := items.flatMap CItem.withoutComment

/-- **A sequence of comments, literals and other characters**, read as C reads it: what it takes
for a comment or a literal when the splices are gone (and there are no trigraphs). -/
def IsCText : List CItem → Prop
  | [] => True
  | item :: items => item.Valid ∧ item.Before (cText items) ∧ IsCText items

instance decidableIsCText : (items : List CItem) → Decidable (IsCText items)
  | [] => isTrue trivial
  | _ :: items =>
    have := decidableIsCText items
    inferInstanceAs (Decidable (_ ∧ _ ∧ _))

theorem cText_cons (item : CItem) (items : List CItem) :
    cText (item :: items) = item.text ++ cText items := rfl

theorem withoutComments_cons (item : CItem) (items : List CItem) :
    withoutComments (item :: items) = item.withoutComment ++ withoutComments items := rfl

theorem withoutComment_of_not {item : CItem} (h : ¬ item.IsComment) :
    item.withoutComment = item.text := if_neg h

/-- A quoted text ends with its quote. -/
theorem cQuoted_getLast? (quote : Char) (pieces : List CPiece) :
    (cQuoted quote pieces).getLast? = some quote := by
  unfold cQuoted
  rw [← List.cons_append, List.getLast?_concat]

/-! ## §2. Lines. -/

/-- The lines a compiler reads, put together from those of the file behind what has been
`started`; a line that goes on is none yet. -/
def logicalLines (started : Text) : List Text → List Text
  | [] => []
  | line :: lines =>
    if line.getLast? = some '\\' then logicalLines (started ++ line.dropLast) lines
    else (started ++ line) :: logicalLines [] lines

/-- What has been read of a line that goes on. -/
def unfinishedLine (started : Text) : List Text → Text
  | [] => started
  | line :: lines =>
    if line.getLast? = some '\\' then unfinishedLine (started ++ line.dropLast) lines
    else unfinishedLine [] lines

/-- **The lines of a text** are those of its parts. -/
theorem logicalLines_append (started : Text) (lines more : List Text) :
    logicalLines started (lines ++ more)
      = logicalLines started lines ++ logicalLines (unfinishedLine started lines) more := by
  induction lines generalizing started with
  | nil => rfl
  | cons line lines ih =>
    rw [List.cons_append, logicalLines, logicalLines, unfinishedLine]
    split
    · exact ih _
    · rw [ih, List.cons_append]

/-- Where no line goes on, the lines are those of the file. -/
theorem logicalLines_of_plain {lines : List Text}
    (h : ∀ line ∈ lines, line.getLast? ≠ some '\\') : logicalLines [] lines = lines := by
  induction lines with
  | nil => rfl
  | cons line lines ih =>
    rw [logicalLines, if_neg (h line List.mem_cons_self), List.nil_append,
      ih fun l hl => h l (List.mem_cons_of_mem line hl)]

/-- A place where a line of the file begins, by what stands before it. -/
def LineStart (before : Text) : Prop := before = [] ∨ ∃ lines, before = lines ++ ['\n']

/-- The lines of the file before a place where one begins. -/
theorem splitOn_lineStart {before : Text} (h : LineStart before) (after : Text) :
    (before ++ after).splitOn '\n' = (before.splitOn '\n').dropLast ++ after.splitOn '\n' := by
  rcases h with rfl | ⟨lines, rfl⟩
  · rfl
  · have hlast := List.splitOn_append_cons_self (a := '\n') lines []
    rw [hlast, List.append_assoc, List.singleton_append, List.splitOn_append_cons_self,
      show List.splitOn '\n' [] = [([] : Text)] from rfl, List.dropLast_concat]

/-! ## §3. Conditional groups. -/

/-- A line of a conditional group, with the condition written on it. -/
inductive GroupLine where
  | opens (condition : Text)
  | elif (condition : Text)
  | else_
  | endif
  deriving DecidableEq

/-- A space or a tab. -/
def isBlank (c : Char) : Bool := c = ' ' || c = '\t'

/-- A group that is open: the conditions of its branches so far, and whether an `#else` stood
there. -/
structure OpenGroup where
  conditions : List Text
  elseSeen : Bool
  deriving DecidableEq

/-- The condition of the branch that is taken; that of an `#else` is none of its own. -/
def OpenGroup.taken (group : OpenGroup) : Option Text :=
  if group.elseSeen = true then none else group.conditions.getLast?

/-- What a line does to the groups that are open, the innermost first. -/
def groupStep : List OpenGroup → GroupLine → Option (List OpenGroup)
  | groups, .opens condition => some (⟨[condition], false⟩ :: groups)
  | [], _ => none
  | group :: groups, .elif condition =>
    if group.elseSeen = true then none
    else some (⟨group.conditions ++ [condition], false⟩ :: groups)
  | group :: groups, .else_ =>
    if group.elseSeen = true then none else some (⟨group.conditions, true⟩ :: groups)
  | _ :: groups, .endif => some groups

/-- What one line does: it opens a group, takes another branch of the innermost one, or ends it. -/
inductive GroupTurn : GroupLine → List OpenGroup → List OpenGroup → Prop
  | opens (condition : Text) (groups : List OpenGroup) :
      GroupTurn (.opens condition) groups (⟨[condition], false⟩ :: groups)
  | elif (condition : Text) {group : OpenGroup} (hseen : group.elseSeen = false)
      (groups : List OpenGroup) :
      GroupTurn (.elif condition) (group :: groups)
        (⟨group.conditions ++ [condition], false⟩ :: groups)
  | else_ {group : OpenGroup} (hseen : group.elseSeen = false) (groups : List OpenGroup) :
      GroupTurn .else_ (group :: groups) (⟨group.conditions, true⟩ :: groups)
  | endif (group : OpenGroup) (groups : List OpenGroup) :
      GroupTurn .endif (group :: groups) groups

theorem groupStep_turn {line : GroupLine} {groups groups' : List OpenGroup}
    (h : groupStep groups line = some groups') : GroupTurn line groups groups' := by
  cases line with
  | opens condition =>
    obtain rfl := Option.some.inj h
    exact .opens condition groups
  | elif condition =>
    cases groups with
    | nil => exact absurd h (by simp [groupStep])
    | cons group groups =>
      cases hseen : group.elseSeen with
      | true => exact absurd h (by simp [groupStep, hseen])
      | false =>
        rw [groupStep, hseen, if_neg (by decide)] at h
        obtain rfl := Option.some.inj h
        exact .elif condition hseen groups
  | else_ =>
    cases groups with
    | nil => exact absurd h (by simp [groupStep])
    | cons group groups =>
      cases hseen : group.elseSeen with
      | true => exact absurd h (by simp [groupStep, hseen])
      | false =>
        rw [groupStep, hseen, if_neg (by decide)] at h
        obtain rfl := Option.some.inj h
        exact .else_ hseen groups
  | endif =>
    cases groups with
    | nil => exact absurd h (by simp [groupStep])
    | cons group groups =>
      obtain rfl := Option.some.inj h
      exact .endif group groups

/-- The conditional line a directive is, by its name. -/
def directiveLine (name condition : Text) : Option GroupLine :=
  if name = "if".toList ∨ name = "ifdef".toList ∨ name = "ifndef".toList then
    some (.opens condition)
  else if name = "elif".toList then some (.elif condition)
  else if name = "else".toList then some .else_
  else if name = "endif".toList then some .endif
  else none

section Groups

-- the characters of an identifier
variable (identChar : Char → Bool)

/-- The conditional line a line is. -/
def groupLine (line : Text) : Option GroupLine :=
  match line.dropWhile isspace with
  | '#' :: rest =>
    directiveLine ((rest.dropWhile isBlank).takeWhile identChar)
      ((rest.dropWhile isBlank).dropWhile identChar)
  | _ => none

theorem groupLine_directive {line rest : Text} (h : line.dropWhile isspace = '#' :: rest) :
    groupLine identChar line = directiveLine ((rest.dropWhile isBlank).takeWhile identChar)
      ((rest.dropWhile isBlank).dropWhile identChar) := by
  unfold groupLine
  rw [h]
  rfl

theorem groupLine_other {line : Text} (h : ∀ rest, line.dropWhile isspace ≠ '#' :: rest) :
    groupLine identChar line = none := by
  unfold groupLine
  split
  · rename_i rest hline
    exact absurd hline (h rest)
  · rfl

/-- The groups some lines of a file leave open. -/
def groupsOf (lines : List Text) : Option (List OpenGroup) :=
  ((logicalLines [] lines).filterMap (groupLine identChar)).foldlM groupStep []

/-- A text whose conditional lines are properly nested. -/
def Nested (text : Text) : Prop := groupsOf identChar (text.splitOn '\n') = some []

instance (text : Text) : Decidable (Nested identChar text) :=
  inferInstanceAs (Decidable (_ = _))

/-- The groups that are open behind a text. -/
def openGroups (before : Text) : Option (List OpenGroup) :=
  groupsOf identChar (before.splitOn '\n').dropLast

variable {identChar}

/-- **Before every line of a properly nested text** some groups are open. -/
theorem Nested.openGroups {before after : Text} (h : Nested identChar (before ++ after))
    (hstart : LineStart before) : ∃ groups, openGroups identChar before = some groups := by
  unfold Nested groupsOf at h
  rw [splitOn_lineStart hstart, logicalLines_append, List.filterMap_append,
    List.foldlM_append] at h
  obtain ⟨groups, hgroups, _⟩ := Option.bind_eq_some_iff.mp h
  exact ⟨groups, hgroups⟩

variable (identChar)

/-- A condition names a symbol that begins so. -/
def NamesSymbol (symbol condition : Text) : Prop :=
  ∃ before after, condition = before ++ symbol ++ after
    ∧ before.getLast?.all (fun c => !identChar c) = true

variable {identChar}

theorem NamesSymbol.infix {symbol condition : Text} (h : NamesSymbol identChar symbol condition) :
    symbol <:+: condition := by
  obtain ⟨before, after, hcondition, _⟩ := h
  exact ⟨before, after, hcondition.symm⟩

end Groups

end KFsw.Lib
