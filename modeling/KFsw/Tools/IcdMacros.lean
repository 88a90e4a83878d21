/-
  KFsw.Tools.IcdMacros — the macro calls of C sources, `macro_calls` of
  `tools/docs/icd-source.py`.

  A regular expression finds the names, the longest first, and a loop the end of
  the arguments.  The search goes on behind the opening bracket, so a call in the
  arguments of another one is found too.

  Main results:
    * `matchMacro_iff`     — a name is matched as a whole word only;
    * `macroCalls_exact`   — the calls that are found are those of the text.
-/
import KFsw.Tools.IcdArgs

namespace KFsw.Tools

open KFsw.Lib

/-! ## §1. `macro_calls`. -/

section Calls

variable (wordChar : Char → Bool) (macros : List Str)

/-- `sorted(macros, key=len, reverse=True)`. -/
def longestFirst : List Str := macros.mergeSort fun a b => decide (b.length ≤ a.length)

/-- One alternative of the regular expression at the beginning of a text: the name, and what stands
behind its bracket. -/
def matchMacro (text name : Str) : Option (Str × Str) :=
  if name <+: text then
    match (text.drop name.length).dropWhile isSpace with
    | '(' :: inside => some (name, inside)
    | _ => none
  else none

/-- What `macro_calls` yields. -/
structure MacroCall where
  name : Str
  body : Str
  offset : Nat
  deriving DecidableEq

/-- `text[match.end() : i - 1]`, behind the bracket. -/
def argumentText (inside : Str) : Str := inside.take (closeFrom '(' ')' 1 false inside - 1)

/-- The regular expression at a place, with whether a word character stands in front of it. -/
def matchAt (before : Bool) (text : Str) : Option (Str × Str) :=
  if before ≠ text.head?.any wordChar then (longestFirst macros).findSome? (matchMacro text) else none

theorem matchMacro_length {text name : Str} {found : Str × Str}
    (h : matchMacro text name = some found) : found.2.length < text.length := by
  unfold matchMacro at h
  split at h
  · split at h
    · rename_i inside hinside
      obtain rfl := Option.some.inj h
      have hlen := (List.dropWhile_sublist (l := text.drop name.length) isSpace).length_le
      rw [hinside, List.length_cons, List.length_drop] at hlen
      show inside.length < text.length
      omega
    · exact absurd h (by simp)
  · exact absurd h (by simp)

theorem matchAt_length {before : Bool} {text : Str} {found : Str × Str}
    (h : matchAt wordChar macros before text = some found) : found.2.length < text.length := by
  unfold matchAt at h
  split at h
  · obtain ⟨name, -, hname⟩ := List.exists_of_findSome?_eq_some h
    exact matchMacro_length hname
  · exact absurd h (by simp)

/-- The loop of `macro_calls` over the matches, from a place on. -/
def macroCallsFrom (before : Bool) (offset : Nat) : Str → List MacroCall
  | [] => []
  | c :: rest =>
    match _ : matchAt wordChar macros before (c :: rest) with
    | some (name, inside) =>
      ⟨name, argumentText inside, offset⟩
        :: macroCallsFrom (wordChar '(') (offset + ((c :: rest).length - inside.length)) inside
    | none => macroCallsFrom (wordChar c) (offset + 1) rest
termination_by text => text.length
decreasing_by
  · exact matchAt_length wordChar macros ‹_›
  · exact Nat.lt_succ_self _

/-- `macro_calls`. -/
def macroCalls (text : Str) (base : Nat) : List MacroCall := macroCallsFrom wordChar macros false base text

/-! ## §2. What is found. -/

/-- The macros are words. -/
def MacroWords : Prop := ∀ name ∈ macros, name ≠ [] ∧ ∀ c ∈ name, wordChar c = true

variable {wordChar macros}

theorem space_notWord (hwords : WordsApart wordChar) {c : Char} (hc : isSpace c = true ∨ c = '(') :
    wordChar c = false := by
  by_contra hword
  obtain ⟨hnospace, hplain, -⟩ := hwords c (by simpa using hword)
  rcases hc with hc | rfl
  · rw [hc] at hnospace
    exact Bool.noConfusion hnospace
  · exact hplain.2.1 (by decide)

/-- White space with a bracket behind it has no word character. -/
theorem gap_notWord (hwords : WordsApart wordChar) {gap : Str} (hgap : Spaces gap) :
    ∀ c ∈ gap ++ ['('], wordChar c = false := by
  intro c hc
  rcases List.mem_append.mp hc with hc | hc
  · exact space_notWord hwords (.inl (hgap c hc))
  · exact space_notWord hwords (.inr (List.mem_singleton.mp hc))

/-- **A name is matched as a whole word**: white space and a bracket stand behind it. -/
theorem matchMacro_iff {text name : Str} {found : Str × Str} :
    matchMacro text name = some found
      ↔ found.1 = name ∧ ∃ gap, Spaces gap ∧ text = name ++ (gap ++ '(' :: found.2) := by
  constructor
  · intro h
    unfold matchMacro at h
    split at h
    · rename_i hprefix
      obtain ⟨rest, rfl⟩ := hprefix
      rw [List.drop_left] at h
      split at h
      · rename_i inside hinside
        obtain rfl := Option.some.inj h
        refine ⟨rfl, rest.takeWhile isSpace, fun c hc => List.mem_takeWhile_imp hc, ?_⟩
        rw [← hinside, List.takeWhile_append_dropWhile]
      · exact absurd h (by simp)
    · exact absurd h (by simp)
  · rintro ⟨hname, gap, hgap, rfl⟩
    have hdrop : (gap ++ '(' :: found.2).dropWhile isSpace = '(' :: found.2 := by
      rw [List.dropWhile_append_of_pos hgap, List.dropWhile_cons_of_neg (by decide)]
    unfold matchMacro
    rw [if_pos (List.prefix_append _ _), List.drop_left, hdrop, ← hname]
    rfl

/-- A word with a gap behind it tells where it ends. -/
theorem word_unique (hwords : WordsApart wordChar) {name gap : Str}
    (hname : ∀ c ∈ name, wordChar c = true) (hgap : Spaces gap) (inside : Str) :
    (name ++ (gap ++ '(' :: inside)).takeWhile wordChar = name
      ∧ ((name ++ (gap ++ '(' :: inside)).dropWhile wordChar).dropWhile isSpace
        = '(' :: inside := by
  have hend : (gap ++ '(' :: inside).takeWhile wordChar = []
      ∧ (gap ++ '(' :: inside).dropWhile wordChar = gap ++ '(' :: inside := by
    cases gap with
    | nil => simp [space_notWord hwords (c := '(') (.inr rfl)]
    | cons c gap => simp [space_notWord hwords (c := c) (.inl (hgap c List.mem_cons_self))]
  rw [List.takeWhile_append_of_pos hname, List.dropWhile_append_of_pos hname, hend.1, hend.2,
    List.append_nil, List.dropWhile_append_of_pos hgap, List.dropWhile_cons_of_neg (by decide)]
  exact ⟨rfl, rfl⟩

/-- **The regular expression at a place** matches one of the names as a whole word, whichever of
them is tried first. -/
theorem matchAt_iff (hwords : WordsApart wordChar) (hmacros : MacroWords wordChar macros)
    {before : Bool} {text : Str} {found : Str × Str} :
    matchAt wordChar macros before text = some found
      ↔ before = false ∧ found.1 ∈ macros
        ∧ ∃ gap, Spaces gap ∧ text = found.1 ++ (gap ++ '(' :: found.2) := by
  have hmem : ∀ name, name ∈ longestFirst macros ↔ name ∈ macros := fun name =>
    (List.mergeSort_perm macros _).mem_iff
  -- a text that begins with a name begins with a word character
  have hhead : ∀ {name rest : Str}, name ∈ macros → (name ++ rest).head?.any wordChar = true := by
    intro name rest hname
    obtain ⟨hne, hall⟩ := hmacros name hname
    obtain ⟨c, name', rfl⟩ := List.exists_cons_of_ne_nil hne
    exact hall c List.mem_cons_self
  constructor
  · intro h
    unfold matchAt at h
    split at h
    · rename_i hboundary
      obtain ⟨name, hname, hmatch⟩ := List.exists_of_findSome?_eq_some h
      obtain ⟨heq, gap, hgap, rfl⟩ := matchMacro_iff.mp hmatch
      have hin := (hmem name).mp hname
      rw [hhead hin] at hboundary
      rw [heq]
      exact ⟨by simpa using hboundary, hin, gap, hgap, rfl⟩
    · exact absurd h (by simp)
  · rintro ⟨rfl, hin, gap, hgap, rfl⟩
    have hboundary : false ≠ (found.1 ++ (gap ++ '(' :: found.2)).head?.any wordChar := by
      rw [hhead hin]
      decide
    unfold matchAt
    rw [if_pos hboundary]
    have hsome := matchMacro_iff.mpr (⟨rfl, gap, hgap, rfl⟩ : found.1 = found.1 ∧ ∃ gap', Spaces gap'
      ∧ found.1 ++ (gap ++ '(' :: found.2) = found.1 ++ (gap' ++ '(' :: found.2))
    obtain ⟨hfirst, hrest⟩ := word_unique hwords (hmacros _ hin).2 hgap found.2
    cases hfind : (longestFirst macros).findSome? (matchMacro (found.1 ++ (gap ++ '(' :: found.2))) with
    | none =>
      rw [List.findSome?_eq_none_iff.mp hfind _ ((hmem _).mpr hin)] at hsome
      exact absurd hsome (by simp)
    | some other =>
      -- another name that matches there is the same word
      obtain ⟨name, hname, hmatch⟩ := List.exists_of_findSome?_eq_some hfind
      obtain ⟨heq, gap', hgap', htext⟩ := matchMacro_iff.mp hmatch
      obtain ⟨hfirst', hrest'⟩ := word_unique hwords
        (hmacros _ ((hmem _).mp hname)).2 hgap' other.2
      rw [← htext] at hfirst' hrest'
      have hinside : '(' :: found.2 = '(' :: other.2 := hrest.symm.trans hrest'
      exact congrArg some (Prod.ext (heq.trans (hfirst'.symm.trans hfirst))
        (List.cons.inj hinside).2.symm)

/-! ## §3. The calls of a text. -/

/-- Whether a word character stands in front of what follows some text. -/
def endsInWord (wordChar : Char → Bool) (before : Bool) (text : Str) : Bool :=
  (text.getLast?.map wordChar).getD before

/-- A call that stands in a text: a macro's name, not behind a word character, with a bracket behind
it. -/
def CallIn (wordChar : Char → Bool) (macros : List Str) (before : Bool) (offset : Nat) (text : Str)
    (call : MacroCall) : Prop :=
  ∃ front gap inside, text = front ++ (call.name ++ (gap ++ '(' :: inside))
    ∧ call.name ∈ macros ∧ Spaces gap ∧ endsInWord wordChar before front = false
    ∧ call.body = argumentText inside ∧ call.offset = offset + front.length

theorem endsInWord_cons (before : Bool) (c : Char) (front : Str) :
    endsInWord wordChar before (c :: front) = endsInWord wordChar (wordChar c) front := by
  unfold endsInWord
  cases front with
  | nil => rfl
  | cons d front =>
    rw [List.getLast?_cons_cons, List.getLast?_eq_some_getLast (List.cons_ne_nil d front)]
    rfl

/-- **One character of a text**: a call stands there, or behind it. -/
theorem callIn_cons (hwords : WordsApart wordChar) (hmacros : MacroWords wordChar macros)
    {before : Bool} {offset : Nat} {c : Char} {rest : Str} {call : MacroCall} :
    CallIn wordChar macros before offset (c :: rest) call
      ↔ (∃ inside, matchAt wordChar macros before (c :: rest) = some (call.name, inside)
          ∧ call.body = argumentText inside ∧ call.offset = offset)
        ∨ CallIn wordChar macros (wordChar c) (offset + 1) rest call := by
  constructor
  · rintro ⟨front, gap, inside, htext, hmem, hgap, hends, hbody, hoffset⟩
    cases front with
    | nil =>
      refine .inl ⟨inside, (matchAt_iff hwords hmacros).mpr ?_, hbody, hoffset⟩
      exact ⟨hends, hmem, gap, hgap, htext⟩
    | cons d front =>
      obtain ⟨rfl, htail⟩ := List.cons.inj htext
      rw [endsInWord_cons] at hends
      rw [List.length_cons] at hoffset
      exact .inr ⟨front, gap, inside, htail, hmem, hgap, hends, hbody, by omega⟩
  · rintro (⟨inside, hmatch, hbody, hoffset⟩ | ⟨front, gap, inside, rfl, hmem, hgap, hends, hbody,
      hoffset⟩)
    · obtain ⟨hbefore, hmem, gap, hgap, htext⟩ := (matchAt_iff hwords hmacros).mp hmatch
      exact ⟨[], gap, inside, htext, hmem, hgap, hbefore, hbody, hoffset⟩
    · refine ⟨c :: front, gap, inside, rfl, hmem, hgap, ?_, hbody, ?_⟩
      · rw [endsInWord_cons]
        exact hends
      · rw [List.length_cons]
        omega

/-- No call begins in the rest of a word, or in a gap. -/
theorem callIn_skip (hwords : WordsApart wordChar) (hmacros : MacroWords wordChar macros)
    {part : Str} {before : Bool} {offset : Nat} {rest : Str} {call : MacroCall}
    (hpart : (before = true ∧ ∀ c ∈ part, wordChar c = true) ∨ ∀ c ∈ part, wordChar c = false) :
    CallIn wordChar macros before offset (part ++ rest) call
      ↔ CallIn wordChar macros (endsInWord wordChar before part) (offset + part.length) rest call := by
  induction part generalizing before offset with
  | nil => exact Iff.rfl
  | cons c part ih =>
    have hnone : matchAt wordChar macros before (c :: (part ++ rest)) = none := by
      cases hmatch : matchAt wordChar macros before (c :: (part ++ rest)) with
      | none => rfl
      | some found =>
        obtain ⟨rfl, hmem, gap, -, htext⟩ := (matchAt_iff hwords hmacros).mp hmatch
        obtain ⟨hne, hall⟩ := hmacros _ hmem
        obtain ⟨d, name, hname⟩ := List.exists_cons_of_ne_nil hne
        rw [hname, List.cons_append] at htext
        obtain ⟨rfl, -⟩ := List.cons.inj htext
        have hword := hall c (hname ▸ List.mem_cons_self)
        rcases hpart with ⟨hbefore, -⟩ | hout
        · exact Bool.noConfusion hbefore
        · rw [hout c List.mem_cons_self] at hword
          exact Bool.noConfusion hword
    have hrest : (wordChar c = true ∧ ∀ d ∈ part, wordChar d = true)
        ∨ ∀ d ∈ part, wordChar d = false := by
      rcases hpart with ⟨-, hall⟩ | hout
      · exact .inl (List.forall_mem_cons.mp hall)
      · exact .inr (List.forall_mem_cons.mp hout).2
    rw [List.cons_append, callIn_cons hwords hmacros, hnone, endsInWord_cons, List.length_cons,
      ih hrest]
    constructor
    · rintro (⟨_, hsome, -⟩ | hcall)
      · exact absurd hsome (by simp)
      · rw [show offset + (part.length + 1) = offset + 1 + part.length by omega]
        exact hcall
    · intro hcall
      rw [show offset + (part.length + 1) = offset + 1 + part.length by omega] at hcall
      exact .inr hcall

/-- Behind a match the search goes on, and misses nothing. -/
theorem callIn_match (hwords : WordsApart wordChar) (hmacros : MacroWords wordChar macros)
    {before : Bool} {offset : Nat} {text name inside : Str} {call : MacroCall}
    (hmatch : matchAt wordChar macros before text = some (name, inside)) :
    CallIn wordChar macros before offset text call
      ↔ call = ⟨name, argumentText inside, offset⟩
        ∨ CallIn wordChar macros (wordChar '(') (offset + (text.length - inside.length)) inside
          call := by
  obtain ⟨-, hmem, gap, hgap, htext⟩ := (matchAt_iff hwords hmacros).mp hmatch
  obtain ⟨hne, hall⟩ := hmacros name hmem
  obtain ⟨c, word, rfl⟩ := List.exists_cons_of_ne_nil hne
  obtain ⟨hc, hword⟩ := List.forall_mem_cons.mp hall
  have hbehind : CallIn wordChar macros (wordChar c) (offset + 1) (word ++ (gap ++ '(' :: inside))
      call ↔ CallIn wordChar macros (wordChar '(') (offset + (text.length - inside.length)) inside
        call := by
    have hgapText : gap ++ '(' :: inside = (gap ++ ['(']) ++ inside := by simp
    have hlast : ∀ b, endsInWord wordChar b (gap ++ ['(']) = wordChar '(' := fun b => by
      simp [endsInWord]
    have hlen : offset + (text.length - inside.length)
        = offset + 1 + word.length + (gap ++ ['(']).length := by
      rw [htext]
      simp only [List.length_append, List.length_cons, List.length_nil]
      omega
    rw [hc, callIn_skip hwords hmacros (.inl ⟨rfl, hword⟩), hgapText,
      callIn_skip hwords hmacros (.inr (gap_notWord hwords hgap)), hlast, hlen]
  have hhead : (∃ inside', matchAt wordChar macros before (c :: (word ++ (gap ++ '(' :: inside)))
      = some (call.name, inside') ∧ call.body = argumentText inside' ∧ call.offset = offset)
      ↔ call = ⟨c :: word, argumentText inside, offset⟩ := by
    rw [show c :: (word ++ (gap ++ '(' :: inside)) = text from htext.symm, hmatch]
    constructor
    · rintro ⟨inside', heq, hbody, hoffset⟩
      obtain ⟨hname, rfl⟩ := Prod.mk.inj (Option.some.inj heq)
      cases call
      simp_all
    · rintro rfl
      exact ⟨inside, rfl, rfl, rfl⟩
  rw [← hhead, ← hbehind, ← callIn_cons hwords hmacros]
  rw [show c :: (word ++ (gap ++ '(' :: inside)) = text from htext.symm]

theorem CallIn.offset_le {before : Bool} {offset : Nat} {text : Str} {call : MacroCall}
    (h : CallIn wordChar macros before offset text call) : offset ≤ call.offset := by
  obtain ⟨front, _, _, -, -, -, -, -, hoffset⟩ := h
  omega

/-- The loop where a name is matched. -/
theorem macroCallsFrom_some {before : Bool} {offset : Nat} {c : Char} {rest name inside : Str}
    (hmatch : matchAt wordChar macros before (c :: rest) = some (name, inside)) :
    macroCallsFrom wordChar macros before offset (c :: rest)
      = ⟨name, argumentText inside, offset⟩ :: macroCallsFrom wordChar macros (wordChar '(')
        (offset + ((c :: rest).length - inside.length)) inside := by
  rw [macroCallsFrom]
  split
  · rename_i hsome
    rw [hmatch] at hsome
    obtain ⟨rfl, rfl⟩ := Prod.mk.inj (Option.some.inj hsome)
    rfl
  · rename_i hnone
    rw [hmatch] at hnone
    exact absurd hnone (by simp)

/-- The loop where none is. -/
theorem macroCallsFrom_none {before : Bool} {offset : Nat} {c : Char} {rest : Str}
    (hmatch : matchAt wordChar macros before (c :: rest) = none) :
    macroCallsFrom wordChar macros before offset (c :: rest)
      = macroCallsFrom wordChar macros (wordChar c) (offset + 1) rest := by
  rw [macroCallsFrom]
  split
  · rename_i hsome
    rw [hmatch] at hsome
    exact absurd hsome (by simp)
  · rfl

/-- The loop finds the calls of the text it is in front of, in their order. -/
theorem macroCallsFrom_exact (hwords : WordsApart wordChar) (hmacros : MacroWords wordChar macros)
    (before : Bool) (offset : Nat) (text : Str) :
    (∀ call, call ∈ macroCallsFrom wordChar macros before offset text
        ↔ CallIn wordChar macros before offset text call)
      ∧ (macroCallsFrom wordChar macros before offset text).Pairwise
        (fun first second => first.offset < second.offset) := by
  induction before, offset, text using macroCallsFrom.induct wordChar macros with
  | case1 before offset =>
    rw [macroCallsFrom]
    refine ⟨fun call => ⟨fun h => absurd h List.not_mem_nil, ?_⟩, List.Pairwise.nil⟩
    rintro ⟨front, gap, inside, htext, -⟩
    exact absurd htext (by simp)
  | case2 before offset c rest name inside hmatch ih =>
    rw [macroCallsFrom_some hmatch]
    refine ⟨fun call => ?_, List.pairwise_cons.mpr ⟨fun call hcall => ?_, ih.2⟩⟩
    · rw [List.mem_cons, callIn_match hwords hmacros hmatch, ih.1]
    · have hle := ((ih.1 call).mp hcall).offset_le
      have hlt : inside.length < (c :: rest).length := matchAt_length wordChar macros hmatch
      show offset < call.offset
      omega
  | case3 before offset c rest hmatch ih =>
    rw [macroCallsFrom_none hmatch]
    refine ⟨fun call => ?_, ih.2⟩
    rw [callIn_cons hwords hmacros, hmatch, ih.1]
    exact (or_iff_right (by rintro ⟨_, hsome, -⟩; exact absurd hsome (by simp))).symm

/-- **Balanced arguments** are the text of a call. -/
theorem argumentText_balanced {top : Char → Prop} {args : Str}
    (hargs : Balanced (oneBracket '(' ')' (by decide)) top args) (rest : Str) :
    argumentText (args ++ ')' :: rest) = args := by
  rw [argumentText, closeFrom_block hargs, Nat.add_sub_cancel, List.take_left]

/-- **The calls that are found are those of the text**: wherever one of the macros stands as a whole
word with a bracket behind it, also in the arguments of another call, each once and in order.  One
with balanced arguments is found with these. -/
theorem macroCalls_exact (hwords : WordsApart wordChar) (hmacros : MacroWords wordChar macros)
    (text : Str) (base : Nat) :
    (∀ call, call ∈ macroCalls wordChar macros text base
        ↔ CallIn wordChar macros false base text call)
      ∧ (macroCalls wordChar macros text base).Pairwise
        (fun first second => first.offset < second.offset)
      ∧ ∀ front name gap args rest, text = front ++ (name ++ (gap ++ '(' :: (args ++ ')' :: rest))) →
        name ∈ macros → Spaces gap → endsInWord wordChar false front = false →
        Balanced (oneBracket '(' ')' (by decide)) (fun _ => True) args →
        ⟨name, args, base + front.length⟩ ∈ macroCalls wordChar macros text base := by
  obtain ⟨hmem, hsorted⟩ := macroCallsFrom_exact hwords hmacros false base text
  refine ⟨hmem, hsorted, fun front name gap args rest htext hname hgap hends hargs => ?_⟩
  exact (hmem _).mpr ⟨front, gap, _, htext, hname, hgap, hends,
    (argumentText_balanced hargs rest).symm, rfl⟩

/-- Nothing is found where no name stands. -/
theorem macroCallsFrom_skip {before : Bool} {offset : Nat} (front rest : Str)
    (hfree : ∀ i < front.length, ∀ name ∈ macros, ¬ name <+: (front ++ rest).drop i) :
    macroCallsFrom wordChar macros before offset (front ++ rest)
      = macroCallsFrom wordChar macros (endsInWord wordChar before front) (offset + front.length)
        rest := by
  induction front generalizing before offset with
  | nil => rfl
  | cons c front ih =>
    have hnone : matchAt wordChar macros before (c :: (front ++ rest)) = none := by
      unfold matchAt
      split
      · refine List.findSome?_eq_none_iff.mpr fun name hname => ?_
        have hin := (List.mergeSort_perm macros _).mem_iff.mp hname
        exact if_neg (hfree 0 (Nat.zero_lt_succ _) name hin)
      · rfl
    rw [List.cons_append, macroCallsFrom_none hnone, endsInWord_cons, List.length_cons,
      ih fun i hi => hfree (i + 1) (Nat.succ_lt_succ hi),
      show offset + 1 + front.length = offset + (front.length + 1) by omega]

/-- Where no name stands to the end nothing is found any more. -/
theorem macroCallsFrom_end {before : Bool} {offset : Nat} {text : Str}
    (hfree : ∀ i < text.length, ∀ name ∈ macros, ¬ name <+: text.drop i) :
    macroCallsFrom wordChar macros before offset text = [] := by
  rw [← List.append_nil text, macroCallsFrom_skip text [] (by rwa [List.append_nil]),
    macroCallsFrom]

/-- The next call is found behind what has no name. -/
theorem macroCallsFrom_next (hwords : WordsApart wordChar) (hmacros : MacroWords wordChar macros)
    {before : Bool} {offset : Nat} (front name gap inside : Str)
    (hfree : ∀ i < front.length, ∀ other ∈ macros,
      ¬ other <+: (front ++ (name ++ (gap ++ '(' :: inside))).drop i)
    (hends : endsInWord wordChar before front = false) (hname : name ∈ macros)
    (hgap : Spaces gap) :
    macroCallsFrom wordChar macros before offset (front ++ (name ++ (gap ++ '(' :: inside)))
      = ⟨name, argumentText inside, offset + front.length⟩
        :: macroCallsFrom wordChar macros (wordChar '(')
          (offset + front.length + (name.length + gap.length + 1)) inside := by
  have hmatch : matchAt wordChar macros false (name ++ (gap ++ '(' :: inside))
      = some (name, inside) := (matchAt_iff hwords hmacros).mpr ⟨rfl, hname, gap, hgap, rfl⟩
  rw [macroCallsFrom_skip front _ hfree, hends]
  obtain ⟨c, word, rfl⟩ := List.exists_cons_of_ne_nil (hmacros name hname).1
  rw [List.cons_append] at hmatch ⊢
  rw [macroCallsFrom_some hmatch]
  congr 2
  simp only [List.length_cons, List.length_append]
  omega

/-- `SHELL_CMD` and `SHELL_CMD_ARG`, one in the arguments of the other. -/
theorem macroCalls_exact_nested :
    let macros := ["SHELL_CMD".toList, "SHELL_CMD_ARG".toList]
    let text := "SHELL_CMD_ARG (a, SHELL_CMD(b))".toList
    macroCalls asciiWord macros text 0 = [⟨"SHELL_CMD_ARG".toList, "a, SHELL_CMD(b)".toList, 0⟩,
        ⟨"SHELL_CMD".toList, ['b'], 18⟩]
      ∧ ∀ call, call ∈ macroCalls asciiWord macros text 0
        ↔ CallIn asciiWord macros false 0 text call := by
  intro macros text
  have hmacros : MacroWords asciiWord macros := by
    refine List.forall_mem_cons.mpr ⟨⟨List.cons_ne_nil _ _, List.all_eq_true.mp (by decide)⟩, ?_⟩
    exact List.forall_mem_singleton.mpr ⟨List.cons_ne_nil _ _, List.all_eq_true.mp (by decide)⟩
  refine ⟨?_, (macroCalls_exact asciiWord_apart hmacros text 0).1⟩
  have houter : macroCallsFrom asciiWord macros false 0 text
      = ⟨"SHELL_CMD_ARG".toList, argumentText "a, SHELL_CMD(b))".toList, 0⟩
        :: macroCallsFrom asciiWord macros false 15 "a, SHELL_CMD(b))".toList :=
    macroCallsFrom_next asciiWord_apart hmacros [] "SHELL_CMD_ARG".toList [' '] _ (by decide) rfl
      (by decide) (List.all_iff_forall_prop.mp (by decide))
  have hinner : macroCallsFrom asciiWord macros false 15 "a, SHELL_CMD(b))".toList
      = ⟨"SHELL_CMD".toList, argumentText "b))".toList, 18⟩
        :: macroCallsFrom asciiWord macros false 28 "b))".toList :=
    macroCallsFrom_next asciiWord_apart hmacros "a, ".toList "SHELL_CMD".toList [] _ (by decide) rfl
      (by decide) (List.all_iff_forall_prop.mp (by decide))
  have hend : macroCallsFrom asciiWord macros false 28 "b))".toList = [] :=
    macroCallsFrom_end (by decide)
  have houterText : argumentText "a, SHELL_CMD(b))".toList = "a, SHELL_CMD(b)".toList := by
    simp [argumentText, closeFrom]
  have hinnerText : argumentText "b))".toList = ['b'] := by simp [argumentText, closeFrom]
  rw [macroCalls, houter, hinner, hend, houterText, hinnerText]

end Calls

end KFsw.Tools
