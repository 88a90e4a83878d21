/-
  KFsw.Tools.IcdGuard — the condition the interface document gives for a line of
  C source, `guard_at` of `tools/docs/icd-source.py`.

  The text comes without comments.  `guard_at` reads the lines of the file one by
  one and keeps one entry for each open group: the line of the branch that was
  taken, so an earlier condition of the group is lost, and so is what stands on
  the further lines of a condition.

  Main results:
    * `guardStack_names`   — which lines have left their entry on the stack;
    * `guardAt_eq_nil_iff` — when there is no guard;
    * `takenNames_iff_groups` — where no line is continued, the stack has the
      condition of the branch that is taken of each open group;
    * `gate_always_iff`    — when a line is called unconditional with no condition
      of an open group naming a symbol.
-/
import KFsw.Lib.CSource
import KFsw.Lib.PyText

namespace KFsw.Tools

open KFsw.Lib

/-! ## §1. `guard_at`. -/

/-- What a conditional line is, `match.group(1)`. -/
inductive LineKind where
  | if_
  | ifdef
  | ifndef
  | elif
  | else_
  | endif
  deriving DecidableEq

/-- The words of the regular expression, in its order. -/
def LINE_KINDS : List (Str × LineKind) :=
  [("if".toList, .if_), ("ifdef".toList, .ifdef), ("ifndef".toList, .ifndef),
    ("elif".toList, .elif), ("else".toList, .else_), ("endif".toList, .endif)]

/-- What a symbol of the configuration begins with. -/
def CONFIG : Str := "CONFIG_".toList

section Guard

-- the word characters of Python's `re`
variable (wordChar : Char → Bool)

/-- One alternative of the regular expression, behind the `#` and its blanks: the word ends there,
and what stands behind it is stripped. -/
def matchKind (rest : Str) (kind : Str × LineKind) : Option (LineKind × Str) :=
  if kind.1 <+: rest ∧ (rest.drop kind.1.length).head?.any wordChar = false then
    some (kind.2, strip ((rest.drop kind.1.length).dropWhile isBlank))
  else none

/-- The match of the regular expression on a line, with `match.group(2).strip()`. -/
def matchLine (line : Str) : Option (LineKind × Str) :=
  match line.dropWhile isBlank with
  | '#' :: rest => LINE_KINDS.findSome? (matchKind wordChar (rest.dropWhile isBlank))
  | _ => none

theorem matchLine_directive {line rest : Str} (h : line.dropWhile isBlank = '#' :: rest) :
    matchLine wordChar line
      = LINE_KINDS.findSome? (matchKind wordChar (rest.dropWhile isBlank)) := by
  unfold matchLine
  rw [h]
  rfl

theorem matchLine_other {line : Str} (h : ∀ rest, line.dropWhile isBlank ≠ '#' :: rest) :
    matchLine wordChar line = none := by
  unfold matchLine
  split
  · rename_i rest hline
    exact absurd hline (h rest)
  · rfl

/-- The matches before a place. -/
def matchLines (before : Str) : List (LineKind × Str) :=
  (before.splitOn '\n').filterMap (matchLine wordChar)

end Guard

/-- What `guard_at` writes for a line. -/
def stackEntry : LineKind × Str → Str
  | (.if_, rest) => rest
  | (.ifdef, rest) => "defined ".toList ++ rest
  | (.ifndef, rest) => "!defined ".toList ++ rest
  | (.elif, rest) => "elif ".toList ++ rest
  | (.else_, _) => "else".toList
  | (.endif, _) => []

/-- One turn of the loop of `guard_at`; the last of the stack is in front. -/
def guardStack (stack : List Str) (line : LineKind × Str) : List Str :=
  match line.1 with
  | .if_ | .ifdef | .ifndef => stackEntry line :: stack
  | .elif | .else_ => if stack = [] then [] else stackEntry line :: stack.tail
  | .endif => stack.tail

/-- `guard_at`. -/
def guardAt (wordChar : Char → Bool) (text : Str) (offset : Nat) : Str :=
  let stack := (matchLines wordChar (text.take offset)).foldl guardStack []
  ((stack.map fun condition => strip (collapse condition)).find? fun cleaned =>
    decide (CONFIG <:+: cleaned)).getD []

/-- `"always"`. -/
def ALWAYS : Str := "always".toList

/-- How the document shows a guard. -/
def gate (cond : Str) : Str := if cond ≠ [] then "`".toList ++ cond ++ "`".toList else ALWAYS

/-- Only no guard is shown as unconditional. -/
theorem gate_eq_always_iff (cond : Str) : gate cond = ALWAYS ↔ cond = [] := by
  unfold gate
  split
  · rename_i hne
    refine iff_of_false (fun h => ?_) hne
    -- the quote around it
    have hquote : Char.ofNat 0x60 ∈ "`".toList ++ cond ++ "`".toList :=
      List.mem_append_right _ (by decide)
    rw [h] at hquote
    exact absurd hquote (by decide)
  · rename_i hnil
    exact iff_of_true rfl (not_not.mp hnil)

/-! ## §2. The entries of the stack. -/

theorem config_notSpace : ∀ c ∈ CONFIG, isSpace c = false := by
  have hall : CONFIG.all (fun c => !isSpace c) = true := by decide
  intro c hc
  exact Bool.not_eq_true' _ |>.mp (List.all_eq_true.mp hall c hc)

/-- A line that begins the branch of a group, and names a symbol. -/
def BranchNames (depth : Nat) (line : LineKind × Str) : Prop :=
  (line.1 = .if_ ∨ line.1 = .ifdef ∨ line.1 = .ifndef ∨ (line.1 = .elif ∧ 0 < depth))
    ∧ CONFIG <:+: line.2

/-- The groups that are open behind a line. -/
def depthStep (depth : Nat) (line : LineKind × Str) : Nat :=
  match line.1 with
  | .if_ | .ifdef | .ifndef => depth + 1
  | .elif | .else_ => depth
  | .endif => depth - 1

/-- Some lines do not end the branch that is taken, with so many groups open in it. -/
def StaysTaken : Nat → List (LineKind × Str) → Prop
  | _, [] => True
  | depth, line :: lines =>
    match line.1 with
    | .if_ | .ifdef | .ifndef => StaysTaken (depth + 1) lines
    | .elif | .else_ => 0 < depth ∧ StaysTaken depth lines
    | .endif => 0 < depth ∧ StaysTaken (depth - 1) lines

/-- A line of the branch that is taken names a symbol, and its group is still open. -/
def TakenNames (depth : Nat) (lines : List (LineKind × Str)) : Prop :=
  ∃ before line after, lines = before ++ line :: after
    ∧ BranchNames (before.foldl depthStep depth) line ∧ StaysTaken 0 after

/-- What `guard_at` writes for a line names a symbol when the line does, but for an `#else`. -/
theorem stackEntry_names (line : LineKind × Str) :
    CONFIG <:+: stackEntry line
      ↔ line.1 ≠ .else_ ∧ line.1 ≠ .endif ∧ CONFIG <:+: line.2 := by
  -- a word and a space in front hold no symbol
  have hbehind : ∀ word short rest : Str, word = short ++ [' '] → ¬ CONFIG <:+: short →
      (CONFIG <:+: word ++ rest ↔ CONFIG <:+: rest) := by
    intro word short rest hword hshort
    rw [hword, List.append_assoc, List.singleton_append,
      infix_append_space config_notSpace (by decide) short (by decide) rest, or_iff_right hshort]
  have hkind : ∀ {kind : LineKind} {rest : Str}, kind ≠ .else_ → kind ≠ .endif →
      (CONFIG <:+: rest ↔ kind ≠ .else_ ∧ kind ≠ .endif ∧ CONFIG <:+: rest) :=
    fun helse hendif => ⟨fun h => ⟨helse, hendif, h⟩, fun h => h.2.2⟩
  obtain ⟨kind, rest⟩ := line
  cases kind with
  | if_ => exact hkind (by simp) (by simp)
  | ifdef =>
    exact (hbehind "defined ".toList "defined".toList rest (by decide) (by decide)).trans
      (hkind (by simp) (by simp))
  | ifndef =>
    exact (hbehind "!defined ".toList "!defined".toList rest (by decide) (by decide)).trans
      (hkind (by simp) (by simp))
  | elif =>
    exact (hbehind "elif ".toList "elif".toList rest (by decide) (by decide)).trans
      (hkind (by simp) (by simp))
  | else_ =>
    have hnone : ¬ CONFIG <:+: "else".toList := by decide
    exact iff_of_false hnone fun h => h.1 rfl
  | endif =>
    have hnone : ¬ CONFIG <:+: [] := by decide
    exact iff_of_false hnone fun h => h.2.1 rfl

/-- An entry that was there stays when no line ends its branch. -/
def EntryStays (stack : List Str) (lines : List (LineKind × Str)) : Prop :=
  ∃ depth condition, stack[depth]? = some condition ∧ CONFIG <:+: condition
    ∧ StaysTaken depth lines

theorem entryStays_cons_iff (entry : Str) (below : List Str) (lines : List (LineKind × Str)) :
    EntryStays (entry :: below) lines ↔ (CONFIG <:+: entry ∧ StaysTaken 0 lines)
      ∨ ∃ depth condition, below[depth]? = some condition ∧ CONFIG <:+: condition
        ∧ StaysTaken (depth + 1) lines := by
  constructor
  · rintro ⟨depth, condition, hcondition, hnames, htaken⟩
    cases depth with
    | zero =>
      obtain rfl : entry = condition := Option.some.inj hcondition
      exact .inl ⟨hnames, htaken⟩
    | succ depth => exact .inr ⟨depth, condition, hcondition, hnames, htaken⟩
  · rintro (⟨hnames, htaken⟩ | ⟨depth, condition, hcondition, hnames, htaken⟩)
    · exact ⟨0, entry, rfl, hnames, htaken⟩
    · exact ⟨depth + 1, condition, hcondition, hnames, htaken⟩

/-- A line that is taken is the first one, or one behind it. -/
theorem takenNames_cons_iff (depth : Nat) (line : LineKind × Str) (lines : List (LineKind × Str)) :
    TakenNames depth (line :: lines)
      ↔ (BranchNames depth line ∧ StaysTaken 0 lines) ∨ TakenNames (depthStep depth line) lines := by
  constructor
  · rintro ⟨before, taken, after, hlines, hnames, htaken⟩
    cases before with
    | nil =>
      obtain ⟨rfl, rfl⟩ := List.cons.inj hlines
      exact .inl ⟨hnames, htaken⟩
    | cons first before =>
      obtain ⟨rfl, rfl⟩ := List.cons.inj hlines
      exact .inr ⟨before, taken, after, rfl, hnames, htaken⟩
  · rintro (⟨hnames, htaken⟩ | ⟨before, taken, after, rfl, hnames, htaken⟩)
    · exact ⟨[], line, lines, rfl, hnames, htaken⟩
    · exact ⟨line :: before, taken, after, rfl, hnames, htaken⟩

theorem guardStack_length (stack : List Str) (line : LineKind × Str) :
    (guardStack stack line).length = depthStep stack.length line := by
  obtain ⟨kind, rest⟩ := line
  cases kind with
  | elif | else_ =>
    cases stack with
    | nil => rfl
    | cons entry below => rfl
  | endif => exact List.length_tail
  | _ => rfl

/-- A line that opens a group. -/
theorem entryStays_opens (stack : List Str) {kind : LineKind}
    (hkind : kind = .if_ ∨ kind = .ifdef ∨ kind = .ifndef) (rest : Str)
    (lines : List (LineKind × Str)) :
    EntryStays (stackEntry (kind, rest) :: stack) lines
      ↔ EntryStays stack ((kind, rest) :: lines)
        ∨ (BranchNames stack.length (kind, rest) ∧ StaysTaken 0 lines) := by
  rw [entryStays_cons_iff, stackEntry_names, or_comm]
  refine or_congr ?_ (and_congr_left fun _ => ?_)
  · rcases hkind with rfl | rfl | rfl <;> exact Iff.rfl
  · unfold BranchNames
    rcases hkind with rfl | rfl | rfl <;> simp

/-- A line that begins another branch takes the place of what stood there. -/
theorem entryStays_branch (entry : Str) (below : List Str) {kind : LineKind}
    (hkind : kind = .elif ∨ kind = .else_) (rest : Str) (lines : List (LineKind × Str)) :
    EntryStays (stackEntry (kind, rest) :: below) lines
      ↔ EntryStays (entry :: below) ((kind, rest) :: lines)
        ∨ (BranchNames (entry :: below).length (kind, rest) ∧ StaysTaken 0 lines) := by
  have hended : ¬ (CONFIG <:+: entry ∧ StaysTaken 0 ((kind, rest) :: lines)) := by
    rintro ⟨_, htaken⟩
    rcases hkind with rfl | rfl <;> exact absurd htaken.1 (Nat.lt_irrefl 0)
  rw [entryStays_cons_iff, entryStays_cons_iff, stackEntry_names, or_comm, or_assoc,
    or_iff_right hended]
  refine or_congr ?_ (and_congr_left fun _ => ?_)
  · refine exists_congr fun depth => exists_congr fun condition => and_congr_right fun _ =>
      and_congr_right fun _ => ?_
    rcases hkind with rfl | rfl <;> exact (and_iff_right (Nat.succ_pos depth)).symm
  · unfold BranchNames
    rcases hkind with rfl | rfl <;> simp

theorem not_entryStays_nil (lines : List (LineKind × Str)) : ¬ EntryStays [] lines := by
  rintro ⟨depth, condition, hcondition, _⟩
  exact absurd hcondition (by simp)

/-- No branch begins where no group is open, and none with an `#endif`. -/
theorem not_branchNames {depth : Nat} {kind : LineKind} {rest : Str}
    (h : (kind = .elif ∧ depth = 0) ∨ kind = .else_ ∨ kind = .endif) :
    ¬ BranchNames depth (kind, rest) := by
  rintro ⟨hfirst, _⟩
  rcases h with ⟨rfl, rfl⟩ | rfl | rfl <;> simp at hfirst

/-- A line that ends a group. -/
theorem entryStays_tail_iff (stack : List Str) (rest : Str) (lines : List (LineKind × Str)) :
    EntryStays stack.tail lines ↔ EntryStays stack ((.endif, rest) :: lines) := by
  constructor
  · rintro ⟨depth, condition, hcondition, hnames, htaken⟩
    rw [List.getElem?_tail] at hcondition
    exact ⟨depth + 1, condition, hcondition, hnames, Nat.succ_pos depth, htaken⟩
  · rintro ⟨depth, condition, hcondition, hnames, hpos, htaken⟩
    refine ⟨depth - 1, condition, ?_, hnames, htaken⟩
    rw [List.getElem?_tail, Nat.sub_add_cancel hpos]
    exact hcondition

/-- **One line**: what stays of the stack behind it stood there before, or is the line's own. -/
theorem entryStays_guardStack_iff (stack : List Str) (line : LineKind × Str)
    (lines : List (LineKind × Str)) :
    EntryStays (guardStack stack line) lines
      ↔ EntryStays stack (line :: lines) ∨ (BranchNames stack.length line ∧ StaysTaken 0 lines) := by
  obtain ⟨kind, rest⟩ := line
  cases kind with
  | if_ => exact entryStays_opens stack (.inl rfl) rest lines
  | ifdef => exact entryStays_opens stack (.inr (.inl rfl)) rest lines
  | ifndef => exact entryStays_opens stack (.inr (.inr rfl)) rest lines
  | elif =>
    cases stack with
    | nil =>
      exact iff_of_false (not_entryStays_nil lines) (not_or_intro (not_entryStays_nil _)
        fun h => not_branchNames (.inl ⟨rfl, rfl⟩) h.1)
    | cons entry below => exact entryStays_branch entry below (.inl rfl) rest lines
  | else_ =>
    cases stack with
    | nil =>
      exact iff_of_false (not_entryStays_nil lines) (not_or_intro (not_entryStays_nil _)
        fun h => not_branchNames (.inr (.inl rfl)) h.1)
    | cons entry below => exact entryStays_branch entry below (.inr rfl) rest lines
  | endif =>
    rw [or_iff_left fun h => not_branchNames (.inr (.inr rfl)) h.1]
    exact entryStays_tail_iff stack rest lines

/-- **Which lines have left their entry on the stack**: those whose branch is taken. -/
theorem guardStack_names (stack : List Str) (lines : List (LineKind × Str)) :
    (∃ entry ∈ lines.foldl guardStack stack, CONFIG <:+: entry)
      ↔ EntryStays stack lines ∨ TakenNames stack.length lines := by
  -- on the lines, with any stack to begin with
  induction lines generalizing stack with
  | nil =>
    have hnone : ¬ TakenNames stack.length [] := by
      rintro ⟨before, line, after, hlines, _⟩
      exact absurd hlines (by simp)
    rw [or_iff_left hnone]
    constructor
    · rintro ⟨entry, hentry, hnames⟩
      obtain ⟨depth, hdepth⟩ := List.mem_iff_getElem?.mp hentry
      exact ⟨depth, entry, hdepth, hnames, trivial⟩
    · rintro ⟨depth, entry, hdepth, hnames, _⟩
      exact ⟨entry, List.mem_of_getElem? hdepth, hnames⟩
  | cons line lines ih =>
    rw [List.foldl_cons, ih, entryStays_guardStack_iff, guardStack_length, takenNames_cons_iff,
      or_assoc]

/-! ## §3. When there is no guard. -/

section Always

variable (wordChar : Char → Bool)

/-- **There is no guard** exactly when no line of a branch that is taken names a symbol. -/
theorem guardAt_eq_nil_iff (text : Str) (offset : Nat) :
    guardAt wordChar text offset = []
      ↔ ¬ TakenNames 0 (matchLines wordChar (text.take offset)) := by
  have hstack := guardStack_names [] (matchLines wordChar (text.take offset))
  rw [or_iff_right (not_entryStays_nil _)] at hstack
  have hcleaned : ∀ condition : Str, CONFIG <:+: strip (collapse condition) ↔ CONFIG <:+: condition :=
    fun condition => (infix_strip config_notSpace (by decide) _).trans
      (infix_collapse config_notSpace (by decide) false condition)
  rw [show 0 = ([] : List Str).length from rfl, ← hstack]
  unfold guardAt
  dsimp only
  constructor
  · rintro hnil ⟨entry, hentry, hnames⟩
    cases hfound : (((matchLines wordChar (text.take offset)).foldl guardStack []).map
        fun condition => strip (collapse condition)).find? fun cleaned =>
          decide (CONFIG <:+: cleaned) with
    | none =>
      rw [List.find?_eq_none] at hfound
      exact hfound _ (List.mem_map_of_mem hentry) (decide_eq_true ((hcleaned entry).mpr hnames))
    | some cleaned =>
      rw [hfound] at hnil
      have hconfig := of_decide_eq_true
        (List.find?_some (p := fun cleaned => decide (CONFIG <:+: cleaned)) hfound)
      rw [show cleaned = [] from hnil] at hconfig
      exact absurd hconfig (by decide)
  · intro hnames
    rw [List.find?_eq_none.mpr]
    · rfl
    · intro cleaned hcleanedMem hconfig
      obtain ⟨entry, hentry, rfl⟩ := List.mem_map.mp hcleanedMem
      exact hnames ⟨entry, hentry, (hcleaned entry).mp (of_decide_eq_true hconfig)⟩

/-- A group that is open names a symbol: the condition of its branch or an earlier one does. -/
def GroupNames (group : OpenGroup) : Prop :=
  ∃ condition ∈ group.conditions, NamesSymbol wordChar CONFIG condition

end Always

/-! ## §4. Lines that are not continued. -/

section Plain

variable {wordChar : Char → Bool}

/-- A line that does not go on, with no other white space in front than blanks. -/
def PlainLine (line : Str) : Prop :=
  line.getLast? ≠ some '\\' ∧ ∀ c ∈ line.takeWhile isspace, isBlank c = true

theorem drop_takeWhile (rest : Str) :
    rest.drop (rest.takeWhile wordChar).length = rest.dropWhile wordChar := by
  have hdrop : (rest.takeWhile wordChar ++ rest.dropWhile wordChar).drop
      (rest.takeWhile wordChar).length = rest.dropWhile wordChar := List.drop_left
  rwa [List.takeWhile_append_dropWhile] at hdrop

/-- A word at the beginning of a text that ends there. -/
theorem takeWhile_eq_iff {word rest : Str} (hword : ∀ c ∈ word, wordChar c = true) :
    rest.takeWhile wordChar = word
      ↔ word <+: rest ∧ (rest.drop word.length).head?.any wordChar = false := by
  constructor
  · rintro rfl
    refine ⟨List.takeWhile_prefix _, ?_⟩
    rw [drop_takeWhile]
    have hhead := List.head?_dropWhile_not wordChar rest
    cases h : (rest.dropWhile wordChar).head? with
    | none => rfl
    | some c =>
      rw [h] at hhead
      exact hhead
  · rintro ⟨⟨behind, rfl⟩, hends⟩
    rw [List.drop_left] at hends
    rw [List.takeWhile_append_of_pos hword]
    cases behind with
    | nil => exact List.append_nil word
    | cons c behind =>
      rw [List.takeWhile_cons_of_neg (by simpa using hends), List.append_nil]

/-- The words of the regular expression are words of Python's `re`. -/
def KindWords (wordChar : Char → Bool) : Prop :=
  ∀ kind ∈ LINE_KINDS, ∀ c ∈ kind.1, wordChar c = true

/-- The regular expression looks the word behind the `#` up. -/
theorem matchKind_eq (hwords : KindWords wordChar) (rest : Str) {kind : Str × LineKind}
    (hkind : kind ∈ LINE_KINDS) :
    matchKind wordChar rest kind = if rest.takeWhile wordChar = kind.1 then
      some (kind.2, strip ((rest.dropWhile wordChar).dropWhile isBlank)) else none := by
  unfold matchKind
  by_cases hword : rest.takeWhile wordChar = kind.1
  · rw [if_pos ((takeWhile_eq_iff (hwords kind hkind)).mp hword), if_pos hword, ← hword,
      drop_takeWhile]
  · rw [if_neg ((takeWhile_eq_iff (hwords kind hkind)).not.mp hword), if_neg hword]

theorem isSpace_of_isBlank {c : Char} (h : isBlank c = true) : isSpace c = true := by
  simp only [isBlank, Bool.or_eq_true, decide_eq_true_eq] at h
  rcases h with rfl | rfl <;> decide

/-- What is stripped of a condition names a symbol alike. -/
theorem config_strip_iff (condition : Str) :
    CONFIG <:+: strip (condition.dropWhile isBlank) ↔ CONFIG <:+: condition := by
  rw [infix_strip config_notSpace (by decide)]
  induction condition with
  | nil => exact Iff.rfl
  | cons c condition ih =>
    by_cases hc : isBlank c = true
    · rw [List.dropWhile_cons_of_pos hc, ih,
        infix_space_cons config_notSpace (by decide) (isSpace_of_isBlank hc)]
    · rw [List.dropWhile_cons_of_neg hc]

theorem dropWhile_isspace_of_plain {line : Str}
    (h : ∀ c ∈ line.takeWhile isspace, isBlank c = true) :
    line.dropWhile isspace = line.dropWhile isBlank := by
  induction line with
  | nil => rfl
  | cons c line ih =>
    by_cases hc : isspace c = true
    · rw [List.takeWhile_cons_of_pos hc] at h
      rw [List.dropWhile_cons_of_pos hc, List.dropWhile_cons_of_pos (h c List.mem_cons_self),
        ih fun d hd => h d (List.mem_cons_of_mem c hd)]
    · have hblank : ¬ isBlank c = true := by
        intro hblank
        simp only [isBlank, Bool.or_eq_true, decide_eq_true_eq] at hblank
        rcases hblank with rfl | rfl <;> exact hc (by decide)
      rw [List.dropWhile_cons_of_neg hc, List.dropWhile_cons_of_neg hblank]

theorem findSome_matchKind (hwords : KindWords wordChar) (rest : Str)
    {kinds : List (Str × LineKind)} (hkinds : ∀ kind ∈ kinds, kind ∈ LINE_KINDS) :
    kinds.findSome? (matchKind wordChar rest)
      = (kinds.find? fun kind => decide (rest.takeWhile wordChar = kind.1)).map fun kind =>
        (kind.2, strip ((rest.dropWhile wordChar).dropWhile isBlank)) := by
  induction kinds with
  | nil => rfl
  | cons kind kinds ih =>
    have hrest := ih fun k hk => hkinds k (List.mem_cons_of_mem kind hk)
    rw [List.findSome?_cons, List.find?_cons, matchKind_eq hwords rest (hkinds kind List.mem_cons_self)]
    by_cases hword : rest.takeWhile wordChar = kind.1
    · rw [if_pos hword, decide_eq_true hword]
      rfl
    · rw [if_neg hword, decide_eq_false hword]
      exact hrest

/-- The line of a group that a kind of line is. -/
def groupLineOf (condition : Text) : LineKind → GroupLine
  | .if_ | .ifdef | .ifndef => .opens condition
  | .elif => .elif condition
  | .else_ => .else_
  | .endif => .endif

theorem find_kind_pos {name word : Text} (h : name = word) (kind : LineKind)
    (kinds : List (Str × LineKind)) :
    ((word, kind) :: kinds).find? (fun kind => decide (name = kind.1)) = some (word, kind) :=
  List.find?_cons_of_pos (decide_eq_true h)

theorem find_kind_neg {name word : Text} (h : ¬ name = word) (kind : LineKind)
    (kinds : List (Str × LineKind)) :
    ((word, kind) :: kinds).find? (fun kind => decide (name = kind.1))
      = kinds.find? (fun kind => decide (name = kind.1)) :=
  List.find?_cons_of_neg fun hword => h (of_decide_eq_true hword)

/-- Both look the same words up. -/
theorem directiveLine_eq_find (name condition : Text) :
    directiveLine name condition
      = (LINE_KINDS.find? fun kind => decide (name = kind.1)).map fun kind =>
        groupLineOf condition kind.2 := by
  unfold directiveLine LINE_KINDS
  by_cases hif : name = "if".toList
  · rw [if_pos (.inl hif), find_kind_pos hif]
    rfl
  rw [find_kind_neg hif]
  by_cases hifdef : name = "ifdef".toList
  · rw [if_pos (.inr (.inl hifdef)), find_kind_pos hifdef]
    rfl
  rw [find_kind_neg hifdef]
  by_cases hifndef : name = "ifndef".toList
  · rw [if_pos (.inr (.inr hifndef)), find_kind_pos hifndef]
    rfl
  rw [find_kind_neg hifndef, if_neg fun h => h.elim hif fun h => h.elim hifdef hifndef]
  by_cases helif : name = "elif".toList
  · rw [if_pos helif, find_kind_pos helif]
    rfl
  rw [if_neg helif, find_kind_neg helif]
  by_cases helse : name = "else".toList
  · rw [if_pos helse, find_kind_pos helse]
    rfl
  rw [if_neg helse, find_kind_neg helse]
  by_cases hendif : name = "endif".toList
  · rw [if_pos hendif, find_kind_pos hendif]
    rfl
  rw [if_neg hendif, find_kind_neg hendif]
  rfl

/-- A line of the file and the one a compiler reads are one, and name a symbol alike. -/
def SameLine (line : LineKind × Str) (groupLine : GroupLine) : Prop :=
  ∃ condition, groupLine = groupLineOf condition line.1
    ∧ (CONFIG <:+: line.2 ↔ CONFIG <:+: condition)

/-- **A plain line** is read alike. -/
theorem matchLine_sameLine (hwords : KindWords wordChar) {line : Str} (h : PlainLine line) :
    Option.Rel SameLine (matchLine wordChar line) (groupLine wordChar line) := by
  have hblanks := dropWhile_isspace_of_plain h.2
  by_cases hdirective : ∃ rest, line.dropWhile isBlank = '#' :: rest
  · obtain ⟨rest, hline⟩ := hdirective
    rw [matchLine_directive wordChar hline, groupLine_directive wordChar (hblanks.trans hline),
      findSome_matchKind hwords _ fun kind hkind => hkind, directiveLine_eq_find]
    cases LINE_KINDS.find? _ with
    | none => exact .none
    | some kind => exact .some ⟨_, rfl, config_strip_iff _⟩
  · have hother : ∀ rest, line.dropWhile isBlank ≠ '#' :: rest :=
      fun rest hline => hdirective ⟨rest, hline⟩
    rw [matchLine_other wordChar hother,
      groupLine_other wordChar fun rest hline => hother rest (hblanks.symm.trans hline)]
    exact .none

/-- The entry of a group names a symbol when the condition of its branch does. -/
def EntryOf (entry : Str) (group : OpenGroup) : Prop :=
  CONFIG <:+: entry ↔ ∃ condition, group.taken = some condition ∧ CONFIG <:+: condition

/-- The entry of a line that has a condition. -/
theorem entryOf_condition {kind : LineKind} (helse : kind ≠ .else_) (hendif : kind ≠ .endif)
    {rest condition : Text} (hsame : CONFIG <:+: rest ↔ CONFIG <:+: condition)
    (conditions : List Text) :
    EntryOf (stackEntry (kind, rest)) ⟨conditions ++ [condition], false⟩ := by
  have htaken : (⟨conditions ++ [condition], false⟩ : OpenGroup).taken = some condition :=
    List.getLast?_concat
  unfold EntryOf
  rw [stackEntry_names, htaken]
  constructor
  · exact fun h => ⟨condition, rfl, hsame.mp h.2.2⟩
  · rintro ⟨_, hcondition, h⟩
    obtain rfl := Option.some.inj hcondition
    exact ⟨helse, hendif, hsame.mpr h⟩

/-- The entry of an `#else` names nothing. -/
theorem entryOf_else (rest : Str) (conditions : List Text) :
    EntryOf (stackEntry (.else_, rest)) ⟨conditions, true⟩ := by
  refine iff_of_false (fun h => ?_) (fun h => ?_)
  · exact ((stackEntry_names (.else_, rest)).mp h).1 rfl
  · obtain ⟨_, htaken, _⟩ := h
    exact absurd htaken (by simp [OpenGroup.taken])

/-- **One line**: the stack goes on having one entry for each group that is open. -/
theorem guardStack_groups {stack : List Str} {groups groups' : List OpenGroup}
    (h : List.Forall₂ EntryOf stack groups) {line : LineKind × Str} {groupLine : GroupLine}
    (hline : SameLine line groupLine) (hstep : groupStep groups groupLine = some groups') :
    List.Forall₂ EntryOf (guardStack stack line) groups' := by
  obtain ⟨condition, rfl, hsame⟩ := hline
  obtain ⟨kind, rest⟩ := line
  have hturn := groupStep_turn hstep
  cases kind with
  | if_ | ifdef | ifndef =>
    cases hturn with
    | opens => exact .cons (entryOf_condition (by simp) (by simp) hsame []) h
  | elif =>
    cases hturn with
    | @elif _ group =>
      cases h with
      | cons _ hbelow =>
        exact .cons (entryOf_condition (by simp) (by simp) hsame group.conditions) hbelow
  | else_ =>
    cases hturn with
    | @else_ group =>
      cases h with
      | cons _ hbelow => exact .cons (entryOf_else rest group.conditions) hbelow
  | endif =>
    cases hturn with
    | endif =>
      cases h with
      | cons _ hbelow => exact hbelow

theorem entries_names {stack : List Str} {groups : List OpenGroup}
    (h : List.Forall₂ EntryOf stack groups) :
    (∃ entry ∈ stack, CONFIG <:+: entry)
      ↔ ∃ group ∈ groups, ∃ condition, group.taken = some condition ∧ CONFIG <:+: condition := by
  induction h with
  | nil => simp
  | cons hentry _ ih =>
    rw [List.exists_mem_cons_iff, List.exists_mem_cons_iff, ih]
    exact or_congr_left hentry

/-- The lines before a place, one entry for each group that is open. -/
theorem guardStack_run {lines : List (LineKind × Str)} {groupLines : List GroupLine}
    (hlines : List.Forall₂ SameLine lines groupLines) {stack : List Str}
    {groups groups' : List OpenGroup} (h : List.Forall₂ EntryOf stack groups)
    (hrun : groupLines.foldlM groupStep groups = some groups') :
    List.Forall₂ EntryOf (lines.foldl guardStack stack) groups' := by
  induction hlines generalizing stack groups with
  | nil =>
    obtain rfl := Option.some.inj hrun
    exact h
  | cons hline _ ih =>
    rw [List.foldlM_cons] at hrun
    obtain ⟨between, hstep, hrest⟩ := Option.bind_eq_some_iff.mp hrun
    exact ih (guardStack_groups h hline hstep) hrest

theorem filterMap_sameLine (hwords : KindWords wordChar) {lines : List Str}
    (h : ∀ line ∈ lines, PlainLine line) :
    List.Forall₂ SameLine (lines.filterMap (matchLine wordChar))
      (lines.filterMap (groupLine wordChar)) := by
  induction lines with
  | nil => exact .nil
  | cons line lines ih =>
    have hline := matchLine_sameLine hwords (h line List.mem_cons_self)
    have hlines := ih fun l hl => h l (List.mem_cons_of_mem line hl)
    rw [List.filterMap_cons, List.filterMap_cons]
    cases hmatch : matchLine wordChar line with
    | none =>
      rw [hmatch] at hline
      cases hgroup : groupLine wordChar line with
      | none => exact hlines
      | some group =>
        rw [hgroup] at hline
        exact nomatch hline
    | some matched =>
      rw [hmatch] at hline
      cases hgroup : groupLine wordChar line with
      | none =>
        rw [hgroup] at hline
        exact nomatch hline
      | some group =>
        rw [hgroup] at hline
        cases hline with
        | some hsame => exact .cons hsame hlines

/-- **Where no line is continued**, the lines whose branch is taken are those of the groups: one of
them names a symbol exactly when the condition of the branch of an open group does. -/
theorem takenNames_iff_groups (hwords : KindWords wordChar) {before : Str}
    (hstart : LineStart before) (hplain : ∀ line ∈ before.splitOn '\n', PlainLine line)
    {groups : List OpenGroup} (hgroups : openGroups wordChar before = some groups) :
    TakenNames 0 (matchLines wordChar before)
      ↔ ∃ group ∈ groups, ∃ condition, group.taken = some condition ∧ CONFIG <:+: condition := by
  have hlines : before.splitOn '\n' = (before.splitOn '\n').dropLast ++ [[]] := by
    have h := splitOn_lineStart hstart []
    rwa [List.append_nil] at h
  have hmatch : matchLines wordChar before
      = (before.splitOn '\n').dropLast.filterMap (matchLine wordChar) := by
    unfold matchLines
    conv_lhs => rw [hlines]
    rw [List.filterMap_append]
    exact List.append_nil _
  have hplain' : ∀ line ∈ (before.splitOn '\n').dropLast, PlainLine line :=
    fun line h => hplain line (List.dropLast_subset _ h)
  have hrun := hgroups
  unfold openGroups groupsOf at hrun
  rw [logicalLines_of_plain fun line h => (hplain' line h).1] at hrun
  have hentries := guardStack_run (filterMap_sameLine hwords hplain') .nil hrun
  have hstack := guardStack_names [] (matchLines wordChar before)
  rw [or_iff_right (not_entryStays_nil _)] at hstack
  rw [show 0 = ([] : List Str).length from rfl, ← hstack, hmatch]
  exact entries_names hentries

/-- In such a text, a guard is missing only where earlier branches name a symbol: the conditions of
the branches that are taken name none. -/
theorem guardAt_taken (hwords : KindWords wordChar) {before : Str} (after : Str)
    (hstart : LineStart before) (hplain : ∀ line ∈ before.splitOn '\n', PlainLine line)
    {groups : List OpenGroup} (hgroups : openGroups wordChar before = some groups)
    (hnone : guardAt wordChar (before ++ after) before.length = []) :
    ∀ group ∈ groups, ∀ condition, group.taken = some condition →
      ¬ NamesSymbol wordChar CONFIG condition := by
  intro group hgroup condition htaken hnames
  rw [guardAt_eq_nil_iff, List.take_left, takenNames_iff_groups hwords hstart hplain hgroups] at hnone
  exact hnone ⟨group, hgroup, condition, htaken, hnames.infix⟩

end Plain

/-! ## §5. What the document says. -/

/-- **A line is called unconditional only when no open group names a symbol**, exactly when none
does or a line of the file that names one begins a branch that is taken.  Where no line is continued
the lines whose branch is taken are those of the open groups, and only an earlier branch can be
missed. -/
theorem gate_always_iff (wordChar : Char → Bool) (before after : Str)
    (hnested : Nested wordChar (before ++ after)) (hstart : LineStart before) :
    ∃ groups, openGroups wordChar before = some groups
      ∧ ((gate (guardAt wordChar (before ++ after) before.length) = ALWAYS →
          ∀ group ∈ groups, ¬ GroupNames wordChar group)
        ↔ (TakenNames 0 (matchLines wordChar before)
          ∨ ∀ group ∈ groups, ¬ GroupNames wordChar group))
      ∧ (KindWords wordChar → (∀ line ∈ before.splitOn '\n', PlainLine line) →
        (TakenNames 0 (matchLines wordChar before)
          ↔ ∃ group ∈ groups, ∃ condition, group.taken = some condition ∧ CONFIG <:+: condition)
        ∧ (gate (guardAt wordChar (before ++ after) before.length) = ALWAYS →
          ∀ group ∈ groups, ∀ condition, group.taken = some condition →
            ¬ NamesSymbol wordChar CONFIG condition)) := by
  obtain ⟨groups, hgroups⟩ := hnested.openGroups hstart
  refine ⟨groups, hgroups, ?_, fun hwords hplain =>
    ⟨takenNames_iff_groups hwords hstart hplain hgroups, ?_⟩⟩
  · rw [gate_eq_always_iff, guardAt_eq_nil_iff, List.take_left, imp_iff_not_or, not_not]
  · rw [gate_eq_always_iff]
    exact guardAt_taken hwords after hstart hplain hgroups

/-- The word characters of ASCII. -/
def asciiWord (c : Char) : Bool := c.isAlphanum || c = '_'

/-- A group that is named by its first line, and another one in it: the symbol is shown. -/
theorem gate_always_two :
    openGroups asciiWord "#if CONFIG_A\n#ifdef B\n".toList
        = some [⟨[" B".toList], false⟩, ⟨[" CONFIG_A".toList], false⟩]
      ∧ GroupNames asciiWord ⟨[" CONFIG_A".toList], false⟩
      ∧ TakenNames 0 (matchLines asciiWord "#if CONFIG_A\n#ifdef B\n".toList)
      ∧ gate (guardAt asciiWord ("#if CONFIG_A\n#ifdef B\n".toList ++ "x\n#endif\n#endif\n".toList)
        "#if CONFIG_A\n#ifdef B\n".toList.length) ≠ ALWAYS := by
  obtain ⟨groups, hgroups, halways, hplain⟩ := gate_always_iff asciiWord
    "#if CONFIG_A\n#ifdef B\n".toList "x\n#endif\n#endif\n".toList (by decide)
    (.inr ⟨"#if CONFIG_A\n#ifdef B".toList, by decide⟩)
  have hopen : openGroups asciiWord "#if CONFIG_A\n#ifdef B\n".toList
      = some [⟨[" B".toList], false⟩, ⟨[" CONFIG_A".toList], false⟩] := by decide
  obtain rfl := Option.some.inj (hopen.symm.trans hgroups)
  have hnames : GroupNames asciiWord ⟨[" CONFIG_A".toList], false⟩ :=
    ⟨" CONFIG_A".toList, List.mem_singleton_self _, [' '], ['A'], by decide, by decide⟩
  have hwords : KindWords asciiWord := by
    have hall : ∀ kind ∈ LINE_KINDS, kind.1.all asciiWord = true := by decide
    exact fun kind hkind => List.all_eq_true.mp (hall kind hkind)
  have htaken : TakenNames 0 (matchLines asciiWord "#if CONFIG_A\n#ifdef B\n".toList) := by
    refine (hplain hwords ?_).1.mpr ⟨⟨[" CONFIG_A".toList], false⟩,
      List.mem_cons_of_mem _ List.mem_cons_self, _, rfl, by decide⟩
    have hlines : "#if CONFIG_A\n#ifdef B\n".toList.splitOn '\n'
        = ["#if CONFIG_A".toList, "#ifdef B".toList, []] := by decide
    have hall : ∀ line ∈ ["#if CONFIG_A".toList, "#ifdef B".toList, []],
        line.getLast? ≠ some '\\' ∧ (line.takeWhile isspace).all isBlank = true := by decide
    rw [hlines]
    exact fun line hline => ⟨(hall line hline).1, List.all_eq_true.mp (hall line hline).2⟩
  exact ⟨hopen, hnames, htaken, fun hgate => halways.mpr (.inl htaken) hgate _
    (List.mem_cons_of_mem _ List.mem_cons_self) hnames⟩

/-- The `#else` branch of a symbol's group is called unconditional. -/
theorem gate_always_else :
    Nested asciiWord "#if CONFIG_A\n#else\nx\n#endif\n".toList
    ∧ LineStart "#if CONFIG_A\n#else\n".toList
    ∧ openGroups asciiWord "#if CONFIG_A\n#else\n".toList = some [⟨[" CONFIG_A".toList], true⟩]
    ∧ GroupNames asciiWord ⟨[" CONFIG_A".toList], true⟩
    ∧ gate (guardAt asciiWord "#if CONFIG_A\n#else\nx\n#endif\n".toList
      "#if CONFIG_A\n#else\n".toList.length) = ALWAYS := by
  refine ⟨by decide, .inr ⟨"#if CONFIG_A\n#else".toList, by decide⟩, by decide,
    ⟨" CONFIG_A".toList, List.mem_singleton_self _, [' '], ['A'], by decide, by decide⟩, ?_⟩
  rw [gate_eq_always_iff]
  decide

end KFsw.Tools
