/-
  KFsw.Tools.IcdComments — how the generator of the interface document takes the
  comments out of C sources, `strip_comments` of `tools/docs/icd-source.py`.

  It knows string literals but not character literals, nothing of a backslash that
  splices two lines into one comment or one mark, and ends a `//` comment at the
  first newline.

  Main results:
    * `resume_append`         — text without a comment is copied, from any state
      of the scanner;
    * `stripComments_keeps`   — when every literal and other character is kept.
-/
import KFsw.Lib.CSource
import KFsw.Lib.PyText

namespace KFsw.Tools

open KFsw.Lib

/-! ## §1. `strip_comments`. -/

/-- The inner loop of `strip_comments`, from behind a quote: what it takes, and what is left. -/
def scanString : Str → Str × Str
  | [] => ([], [])
  | c :: s =>
    if c = '\\' then
      match s with
      | [] => ([c], [])
      | d :: s => (c :: d :: (scanString s).1, (scanString s).2)
    else if c = '"' then ([c], s)
    else (c :: (scanString s).1, (scanString s).2)

/-- What stands behind the first `*/`. -/
def afterBlock : Str → Str
  | [] => []
  | c :: s => if c = '*' ∧ s.head? = some '/' then s.tail else afterBlock s

theorem scanString_length (s : Str) : (scanString s).2.length ≤ s.length := by
  induction s using scanString.induct with
  | case1 => exact Nat.le_refl _
  | case2 => exact Nat.zero_le _
  | case3 d s ih =>
    show (scanString s).2.length ≤ s.length + 1 + 1
    omega
  | case4 s hslash =>
    unfold scanString
    rw [if_neg hslash, if_pos rfl]
    exact Nat.le_succ _
  | case5 c s hc hquote ih =>
    unfold scanString
    rw [if_neg hc, if_neg hquote, List.length_cons]
    exact Nat.le_succ_of_le ih

theorem afterBlock_length (s : Str) : (afterBlock s).length ≤ s.length := by
  induction s with
  | nil => exact Nat.le_refl _
  | cons c s ih =>
    unfold afterBlock
    rw [List.length_cons]
    split
    · rw [List.length_tail]
      omega
    · omega

/-- `strip_comments`. -/
def stripComments : Str → Str
  | [] => []
  | c :: s =>
    if c = '"' then c :: ((scanString s).1 ++ stripComments (scanString s).2)
    else if c = '/' ∧ s.head? = some '*' then ' ' :: stripComments (afterBlock s.tail)
    else if c = '/' ∧ s.head? = some '/' then ' ' :: stripComments (s.dropWhile (· ≠ '\n'))
    else c :: stripComments s
termination_by s => s.length
decreasing_by
  · exact Nat.lt_succ_of_le (scanString_length s)
  · have h := afterBlock_length s.tail
    rw [List.length_tail] at h
    rw [List.length_cons]
    omega
  · exact Nat.lt_succ_of_le (List.dropWhile_sublist _).length_le
  · exact Nat.lt_succ_self _

/-! ## §2. The scanner's states. -/

/-- Where the scanner is when it copies: outside of a string, in one, or behind a backslash in
one. -/
inductive QuoteState where
  | outside
  | inside
  | escaped
  deriving DecidableEq

/-- The state behind one more character. -/
def quoteStep : QuoteState → Char → QuoteState
  | .outside, c => if c = '"' then .inside else .outside
  | .inside, c => if c = '\\' then .escaped else if c = '"' then .outside else .inside
  | .escaped, _ => .inside

/-- What the scanner makes of the text from a state on. -/
def resume : QuoteState → Str → Str
  | .outside, s => stripComments s
  | .inside, s => (scanString s).1 ++ stripComments (scanString s).2
  | .escaped, [] => []
  | .escaped, c :: s => c :: ((scanString s).1 ++ stripComments (scanString s).2)

/-- A comment begins with this character, to the scanner's mind. -/
def Begins (q : QuoteState) (c : Char) (s : Str) : Prop :=
  q = .outside ∧ c = '/' ∧ (s.head? = some '/' ∨ s.head? = some '*')

instance (q : QuoteState) (c : Char) (s : Str) : Decidable (Begins q c s) :=
  inferInstanceAs (Decidable (_ ∧ _ ∧ _))

theorem stripComments_nil : stripComments [] = [] := by
  unfold stripComments
  rfl

/-- A block comment. -/
theorem stripComments_block (s : Str) :
    stripComments ('/' :: '*' :: s) = ' ' :: stripComments (afterBlock s) := by
  rw [stripComments, if_neg (by decide), if_pos ⟨rfl, rfl⟩]
  rfl

/-- A comment to the end of the line. -/
theorem stripComments_line (s : Str) :
    stripComments ('/' :: '/' :: s) = ' ' :: stripComments (s.dropWhile (· ≠ '\n')) := by
  rw [stripComments, if_neg (by decide), if_neg (by simp), if_pos ⟨rfl, rfl⟩,
    List.dropWhile_cons_of_pos (by decide)]

theorem resume_nil (q : QuoteState) : resume q [] = [] := by
  cases q with
  | outside => exact stripComments_nil
  | inside => exact stripComments_nil
  | escaped => rfl

/-- **One character that begins no comment** is copied. -/
theorem resume_cons {q : QuoteState} {c : Char} {s : Str} (h : ¬ Begins q c s) :
    resume q (c :: s) = c :: resume (quoteStep q c) s := by
  cases q with
  | outside =>
    show stripComments (c :: s) = c :: resume (if c = '"' then _ else _) s
    unfold stripComments
    by_cases hquote : c = '"'
    · rw [if_pos hquote, if_pos hquote]
      rfl
    · rw [if_neg hquote, if_neg hquote, if_neg fun hb => h ⟨rfl, hb.1, .inr hb.2⟩,
        if_neg fun hl => h ⟨rfl, hl.1, .inl hl.2⟩]
      rfl
  | inside =>
    show (scanString (c :: s)).1 ++ stripComments (scanString (c :: s)).2
      = c :: resume (if c = '\\' then _ else if c = '"' then _ else _) s
    by_cases hslash : c = '\\'
    · cases s with
      | nil =>
        rw [hslash]
        exact congrArg ('\\' :: ·) stripComments_nil
      | cons d s =>
        rw [hslash]
        rfl
    · by_cases hquote : c = '"'
      · unfold scanString
        rw [if_neg hslash, if_pos hquote, if_neg hslash, if_pos hquote]
        rfl
      · unfold scanString
        rw [if_neg hslash, if_neg hquote, if_neg hslash, if_neg hquote]
        rfl
  | escaped => rfl

/-- A comment is read as one space. -/
theorem resume_begins {q : QuoteState} {c : Char} {s : Str} (h : Begins q c s) :
    (resume q (c :: s)).head? = some ' ' := by
  obtain ⟨rfl, rfl, hs⟩ := h
  show (stripComments ('/' :: s)).head? = _
  unfold stripComments
  rw [if_neg (by decide)]
  by_cases hblock : '/' = '/' ∧ s.head? = some '*'
  · rw [if_pos hblock]
    rfl
  · rw [if_neg hblock, if_pos ⟨rfl, hs.resolve_right fun hstar => hblock ⟨rfl, hstar⟩⟩]
    rfl

/-! ## §3. Text without comments. -/

/-- No comment begins in a text, to the mind of the scanner in this state. -/
def NoComment : QuoteState → Str → Prop
  | _, [] => True
  | q, c :: t => ¬ Begins q c t ∧ NoComment (quoteStep q c) t

instance decidableNoComment : (q : QuoteState) → (t : Str) → Decidable (NoComment q t)
  | _, [] => isTrue trivial
  | q, c :: t =>
    have := decidableNoComment (quoteStep q c) t
    inferInstanceAs (Decidable (_ ∧ _))

/-- The last character of a text is not the slash of a marker. -/
def EndsClear (t rest : Str) : Prop :=
  t.getLast? = some '/' → rest.head? ≠ some '/' ∧ rest.head? ≠ some '*'

theorem EndsClear.of_cons {c : Char} {t rest : Str} (h : EndsClear (c :: t) rest) :
    EndsClear t rest := by
  intro hlast
  refine h ?_
  rw [List.getLast?_cons, hlast]
  rfl

/-- What begins in a text and what follows it begins in the text. -/
theorem begins_append_iff {q : QuoteState} {c : Char} {t rest : Str}
    (h : EndsClear (c :: t) rest) : Begins q c (t ++ rest) ↔ Begins q c t := by
  cases t with
  | nil =>
    constructor
    · rintro ⟨_, rfl, hhead⟩
      obtain ⟨hslash, hstar⟩ := h rfl
      rcases hhead with hhead | hhead
      · exact absurd hhead hslash
      · exact absurd hhead hstar
    · rintro ⟨_, _, hhead⟩
      exact absurd hhead (by simp)
  | cons d t => exact Iff.rfl

/-- **Text without a comment is copied**, and the scanner goes on behind it. -/
theorem resume_append {t rest : Str} (q : QuoteState) (h : NoComment q t) (hend : EndsClear t rest) :
    resume q (t ++ rest) = t ++ resume (t.foldl quoteStep q) rest := by
  induction t generalizing q with
  | nil => rfl
  | cons c t ih =>
    rw [List.cons_append, resume_cons ((begins_append_iff hend).not.mpr h.1),
      ih (quoteStep q c) h.2 hend.of_cons]
    rfl

/-- Only text without a comment is copied. -/
theorem noComment_of_resume {t rest copy : Str} (q : QuoteState) (hend : EndsClear t rest)
    (h : resume q (t ++ rest) = t ++ copy) : NoComment q t := by
  induction t generalizing q with
  | nil => exact trivial
  | cons c t ih =>
    rw [List.cons_append] at h
    by_cases hbegins : Begins q c (t ++ rest)
    · -- the slash would be a space
      have hhead := resume_begins hbegins
      rw [h] at hhead
      have hspace : c = ' ' := Option.some.inj hhead
      exact absurd (hspace.symm.trans hbegins.2.1) (by decide)
    · rw [resume_cons hbegins] at h
      exact ⟨(begins_append_iff hend).not.mp hbegins, ih _ hend.of_cons (List.cons.inj h).2⟩

/-- A text without a slash has no comment. -/
theorem stripComments_free {t : Str} (h : '/' ∉ t) : stripComments t = t := by
  have hfree : ∀ q, NoComment q t := by
    induction t with
    | nil => exact fun q => trivial
    | cons c t ih =>
      rw [List.mem_cons, not_or] at h
      exact fun q => ⟨fun hb => h.1 hb.2.1.symm, ih h.2 _⟩
  have hend : EndsClear t [] := fun _ => ⟨by simp, by simp⟩
  have hcopy := resume_append .outside (hfree .outside) hend
  rw [List.append_nil, resume_nil, List.append_nil] at hcopy
  exact hcopy

/-! ## §4. Comments, literals and other characters. -/

/-- The first `*/` behind a comment's text is the one that ends it. -/
theorem afterBlock_body {body : Str} (h : ¬ EndsComment body) (rest : Str) :
    afterBlock (body ++ '*' :: '/' :: rest) = rest := by
  induction body with
  | nil => rfl
  | cons c body ih =>
    have hbody : ¬ EndsComment body := fun hends => h (.inr hends)
    have hfirst : ¬ (c = '*' ∧ (body ++ '*' :: '/' :: rest).head? = some '/') := by
      rintro ⟨rfl, hhead⟩
      cases body with
      | nil => exact absurd (Option.some.inj hhead) (by decide)
      | cons d body =>
        obtain rfl : d = '/' := Option.some.inj hhead
        exact h (.inl ⟨rfl, by rw [behindSplices_cons (by decide)]; rfl⟩)
    rw [List.cons_append, afterBlock, if_neg hfirst]
    exact ih hbody

/-- **A comment is one space**, when the scanner sees it begin and end. -/
theorem resume_comment {item : CItem} (hcomment : item.IsComment) (hvalid : item.Valid)
    (hone : item.Unspliced) {rest : Str} (hrest : item.Before rest) :
    resume .outside (item.text ++ rest) = ' ' :: resume .outside rest := by
  cases item with
  | block opened body closed =>
    obtain ⟨rfl, rfl⟩ : opened = 0 ∧ closed = 0 := hone
    show stripComments ('/' :: '*' :: (body ++ ['*', '/'] ++ rest)) = ' ' :: stripComments rest
    rw [stripComments_block, List.append_assoc]
    exact congrArg (' ' :: stripComments ·) (afterBlock_body hvalid rest)
  | line opened first continued =>
    obtain ⟨rfl, rfl⟩ : opened = 0 ∧ continued = [] := hone
    have hline : (first ++ rest).dropWhile (· ≠ '\n') = rest := by
      have hfirst : ∀ c ∈ first, decide (c ≠ '\n') = true := by
        intro c hc
        exact decide_eq_true fun h => hvalid.1 (h ▸ hc)
      rw [List.dropWhile_append_of_pos hfirst]
      cases rest with
      | nil => rfl
      | cons c rest =>
        obtain rfl : c = '\n' := by
          rcases hrest with hnil | ⟨hhead, _⟩
          · exact absurd hnil (List.cons_ne_nil c rest)
          · exact Option.some.inj hhead
        exact List.dropWhile_cons_of_neg (by decide)
    show stripComments ('/' :: '/' :: (first ++ [] ++ rest)) = ' ' :: stripComments rest
    rw [List.append_nil, stripComments_line, hline]
  | string pieces => exact hcomment.elim
  | char pieces => exact hcomment.elim
  | other c => exact hcomment.elim

/-- A comment that is read as a space has its beginning in one piece: of one whose mark is split the
slash is copied. -/
theorem opened_of_resume {item : CItem} (hcomment : item.IsComment) {q : QuoteState}
    {rest copy : Str} (h : resume q (item.text ++ rest) = ' ' :: copy) :
    q = .outside ∧ (item.EndsWhole → item.Unspliced) := by
  obtain ⟨opened, mark, hmark, hitem⟩ : ∃ opened mark,
      item.text ++ rest = '/' :: (splices opened ++ mark)
      ∧ (opened = 0 → item.EndsWhole → item.Unspliced) := by
    cases item with
    | block opened body closed =>
      refine ⟨opened, '*' :: (body ++ '*' :: (splices closed ++ ['/'])) ++ rest, ?_,
        fun hopened hends => ⟨hopened, hends⟩⟩
      rw [CItem.text, List.cons_append, List.append_assoc]
    | line opened first continued =>
      refine ⟨opened, '/' :: (first ++ continued.flatMap ('\\' :: '\n' :: ·)) ++ rest, ?_,
        fun hopened hends => ⟨hopened, hends⟩⟩
      rw [CItem.text, List.cons_append, List.append_assoc]
    | string pieces => exact hcomment.elim
    | char pieces => exact hcomment.elim
    | other c => exact hcomment.elim
  rw [hmark] at h
  have hbegins : Begins q '/' (splices opened ++ mark) := by
    by_contra hno
    rw [resume_cons hno] at h
    exact absurd (List.cons.inj h).1 (by decide)
  refine ⟨hbegins.1, hitem ?_⟩
  cases opened with
  | zero => rfl
  | succ n => exact absurd hbegins.2.2 (by simp [splices, List.replicate_succ])

/-- No marker goes from a literal or another character into what follows it. -/
theorem endsClear_item {item : CItem} (hcomment : ¬ item.IsComment) {rest : Str}
    (hrest : item.Before rest) : EndsClear item.text rest := by
  cases item with
  | block opened body closed => exact absurd trivial hcomment
  | line opened first continued => exact absurd trivial hcomment
  | string pieces =>
    intro hlast
    rw [show (CItem.string pieces).text.getLast? = some '"' from cQuoted_getLast? '"' pieces]
      at hlast
    exact absurd hlast (by decide)
  | char pieces =>
    intro hlast
    rw [show (CItem.char pieces).text.getLast? = some '\'' from cQuoted_getLast? '\'' pieces]
      at hlast
    exact absurd hlast (by decide)
  | other c =>
    intro hlast
    obtain ⟨hslash, hstar⟩ := hrest (Option.some.inj hlast)
    -- a marker in one piece has no splices to leave out
    exact ⟨fun hhead => hslash (head_behindSplices (by decide) hhead),
      fun hhead => hstar (head_behindSplices (by decide) hhead)⟩

/-- Read with double quotes only: every comment begins outside of them, no splice is in its marks or
continues it, and nothing within a literal looks like a comment outside of them. -/
def QuotesTell : QuoteState → List CItem → Prop
  | _, [] => True
  | q, item :: items =>
    if item.IsComment then q = .outside ∧ item.Unspliced ∧ QuotesTell .outside items
    else NoComment q item.text ∧ QuotesTell (item.text.foldl quoteStep q) items

instance decidableQuotesTell : (q : QuoteState) → (items : List CItem) →
    Decidable (QuotesTell q items)
  | _, [] => isTrue trivial
  | q, item :: items =>
    have := decidableQuotesTell .outside items
    have := decidableQuotesTell (item.text.foldl quoteStep q) items
    inferInstanceAs (Decidable (ite _ _ _))

/-- What double quotes tell apart is kept, from any state of the scanner. -/
theorem resume_items {items : List CItem} (q : QuoteState) (h : IsCText items)
    (hquotes : QuotesTell q items) : resume q (cText items) = withoutComments items := by
  induction items generalizing q with
  | nil => exact resume_nil q
  | cons item items ih =>
    obtain ⟨hvalid, hbefore, hrest⟩ := h
    unfold QuotesTell at hquotes
    rw [cText_cons, withoutComments_cons]
    by_cases hcomment : item.IsComment
    · rw [if_pos hcomment] at hquotes
      obtain ⟨rfl, hone, htell⟩ := hquotes
      rw [resume_comment hcomment hvalid hone hbefore, ih _ hrest htell,
        CItem.withoutComment, if_pos hcomment]
      rfl
    · rw [if_neg hcomment] at hquotes
      rw [resume_append q hquotes.1 (endsClear_item hcomment hbefore), ih _ hrest hquotes.2,
        withoutComment_of_not hcomment]

/-- What is kept is told apart by double quotes. -/
theorem quotesTell_of_resume {items : List CItem} (q : QuoteState) (h : IsCText items)
    (hends : ∀ item ∈ items, item.EndsWhole)
    (hkept : resume q (cText items) = withoutComments items) : QuotesTell q items := by
  induction items generalizing q with
  | nil => exact trivial
  | cons item items ih =>
    obtain ⟨hvalid, hbefore, hrest⟩ := h
    have hitems := fun i hi => hends i (List.mem_cons_of_mem item hi)
    rw [cText_cons, withoutComments_cons] at hkept
    unfold QuotesTell
    by_cases hcomment : item.IsComment
    · rw [if_pos hcomment]
      rw [CItem.withoutComment, if_pos hcomment] at hkept
      obtain ⟨hout, hunspliced⟩ := opened_of_resume hcomment hkept
      have hitem := hunspliced (hends item List.mem_cons_self)
      rw [hout, resume_comment hcomment hvalid hitem hbefore] at hkept
      exact ⟨hout, hitem, ih _ hrest hitems (List.cons.inj hkept).2⟩
    · rw [if_neg hcomment]
      rw [withoutComment_of_not hcomment] at hkept
      have hend := endsClear_item hcomment hbefore
      have hno := noComment_of_resume q hend hkept
      rw [resume_append q hno hend] at hkept
      exact ⟨hno, ih _ hrest hitems (List.append_cancel_left hkept)⟩

/-- **Every literal and other character is kept**, and every comment is one space, when double
quotes alone tell literals and comments apart and no splice is in a comment's marks or continues
it; and, where none is in an end mark or continues a comment, only then. -/
theorem stripComments_keeps (items : List CItem) (h : IsCText items) :
    (QuotesTell .outside items → stripComments (cText items) = withoutComments items)
    ∧ ((∀ item ∈ items, item.EndsWhole) → stripComments (cText items) = withoutComments items →
      QuotesTell .outside items) :=
  ⟨resume_items .outside h, quotesTell_of_resume .outside h⟩

/-- A marker in a string, a comment behind it, an escape in a character literal, and a string with a
split one. -/
def exampleItems : List CItem :=
  [.string [.whole (.plain '/'), .whole (.plain '*')], .line 0 ['c'] [], .other '\n',
    .char [.whole (.escape '\'')], .string [.split 0 'n']]

theorem stripComments_keeps_example :
    stripComments (cText exampleItems) = withoutComments exampleItems
    ∧ QuotesTell .outside exampleItems := by
  have h := stripComments_keeps exampleItems (by decide)
  have hkept := h.1 (by decide)
  exact ⟨hkept, h.2 (by decide) hkept⟩

/-- A double quote as a character, and a string with a marker in it. -/
def quoteItems : List CItem :=
  [.char [.whole (.plain '"')],
    .string [.whole (.plain '/'), .whole (.plain '/'), .whole (.plain 'x')]]

/-- A comment on two lines, and what follows it. -/
def continuedItems : List CItem := [.line 0 ['a'] [['b']], .other '\n']

/-- A comment whose end mark is split, a declaration, and another comment. -/
def splitItems : List CItem :=
  [.block 0 ['a'] 1, .other 'i', .other ';', .block 0 ['b'] 0]

/-- The string is cut off, the second line of the comment is left, and the declaration is gone. -/
theorem stripComments_cuts :
    IsCText quoteItems ∧ withoutComments quoteItems = "'\"'\"//x\"".toList
    ∧ stripComments (cText quoteItems) = "'\"'\" ".toList
    ∧ IsCText continuedItems ∧ withoutComments continuedItems = " \n".toList
    ∧ stripComments (cText continuedItems) = " \nb\n".toList
    ∧ IsCText splitItems ∧ withoutComments splitItems = " i; ".toList
    ∧ stripComments (cText splitItems) = " ".toList := by
  refine ⟨by decide, by decide, ?_, by decide, by decide, ?_, by decide, by decide, ?_⟩
  · show stripComments "'\"'\"//x\"".toList = _
    simp [stripComments, scanString]
  · show stripComments "//a\\\nb\n".toList = _
    simp [stripComments]
  · show stripComments "/*a*\\\n/i;/*b*/".toList = _
    simp [stripComments, afterBlock]

-- a comment on two lines may still be replaced, when its second line looks like a comment
example : stripComments (cText [.line 0 [] ["/*".toList], .other '\n', .block 0 ['x'] 0])
    = withoutComments [.line 0 [] ["/*".toList], .other '\n', .block 0 ['x'] 0] := by
  show stripComments "//\\\n/*\n/*x*/".toList = " \n ".toList
  simp [stripComments, afterBlock]

end KFsw.Tools
