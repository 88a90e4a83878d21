/-
  KFsw.Lib.Nesting — text with string literals and brackets.

  A reader that knows string literals goes over a text one character at a time,
  with the number of brackets that are open.  `Balanced` text closes what it opens:
  read from outside of a literal it leaves the reader as it was, and never goes
  below the depth it began at.  What a reader does with such a text is then told
  by what stands in it outside of brackets.

  Main results:
    * `Balanced.scan`, `Balanced.along` — a reader in balanced text;
    * `cuts_intercalate`   — texts that are joined are cut apart again;
    * `intercalate_cuts`   — what is cut apart is the whole text;
    * `closeAt_balanced`   — the end of a bracket is found.
-/
import KFsw.Lib.CSource

namespace KFsw.Lib

/-! ## §1. A reader. -/

/-- Where a reader is: outside of a string literal, in one, or behind a backslash in one. -/
inductive LiteralMode where
  | outside
  | inside
  | escaped
  deriving DecidableEq

/-- Brackets, each with its counterpart; none opens and closes, and none is a quote. -/
structure Brackets where
  pairs : List (Char × Char)
  apart : ∀ p ∈ pairs, ∀ q ∈ pairs, p.1 ≠ q.2
  no_quote : ∀ p ∈ pairs, p.1 ≠ '"' ∧ p.2 ≠ '"'

namespace Brackets

variable (b : Brackets)

def Opens (c : Char) : Prop := c ∈ b.pairs.map Prod.fst
def Closes (c : Char) : Prop := c ∈ b.pairs.map Prod.snd

instance (c : Char) : Decidable (b.Opens c) := inferInstanceAs (Decidable (c ∈ _))
instance (c : Char) : Decidable (b.Closes c) := inferInstanceAs (Decidable (c ∈ _))

/-- A character that is read as itself wherever it stands. -/
def Plain (c : Char) : Prop := c ≠ '"' ∧ ¬ b.Opens c ∧ ¬ b.Closes c

instance (c : Char) : Decidable (b.Plain c) := inferInstanceAs (Decidable (_ ∧ _ ∧ _))

variable {b}

theorem opens_of_mem {p : Char × Char} (h : p ∈ b.pairs) : b.Opens p.1 := List.mem_map_of_mem h

theorem closes_of_mem {p : Char × Char} (h : p ∈ b.pairs) : b.Closes p.2 := List.mem_map_of_mem h

theorem Opens.not_closes {c : Char} (h : b.Opens c) : ¬ b.Closes c := by
  intro hcloses
  obtain ⟨p, hp, rfl⟩ := List.mem_map.mp h
  obtain ⟨q, hq, heq⟩ := List.mem_map.mp hcloses
  exact b.apart p hp q hq heq.symm

theorem Opens.ne_quote {c : Char} (h : b.Opens c) : c ≠ '"' := by
  obtain ⟨p, hp, rfl⟩ := List.mem_map.mp h
  exact (b.no_quote p hp).1

theorem Closes.ne_quote {c : Char} (h : b.Closes c) : c ≠ '"' := by
  obtain ⟨p, hp, rfl⟩ := List.mem_map.mp h
  exact (b.no_quote p hp).2

end Brackets

/-- A reader: where it is, and how many more brackets were opened than closed. -/
structure Scan where
  mode : LiteralMode
  depth : Int
  deriving DecidableEq

section Reader

variable (b : Brackets)

/-- The reader behind one more character. -/
def Scan.step (s : Scan) (c : Char) : Scan :=
  match s.mode with
  | .escaped => { s with mode := .inside }
  | .inside =>
    if c = '\\' then { s with mode := .escaped }
    else if c = '"' then { s with mode := .outside }
    else s
  | .outside =>
    if c = '"' then { s with mode := .inside }
    else if b.Opens c then { s with depth := s.depth + 1 }
    else if b.Closes c then { s with depth := s.depth - 1 }
    else s

/-- The reader behind a text. -/
def Scan.over (s : Scan) (text : Text) : Scan := text.foldl (Scan.step b) s

/-- `P` holds of every character of a text, with the reader in front of it. -/
def Along (P : Scan → Char → Prop) : Scan → Text → Prop
  | _, [] => True
  | s, c :: rest => P s c ∧ Along P (s.step b c) rest

@[simp] theorem along_nil (P : Scan → Char → Prop) (s : Scan) : Along b P s [] := trivial

@[simp] theorem along_cons (P : Scan → Char → Prop) (s : Scan) (c : Char) (rest : Text) :
    Along b P s (c :: rest) ↔ P s c ∧ Along b P (s.step b c) rest := Iff.rfl

theorem along_append {P : Scan → Char → Prop} (s : Scan) (first second : Text) :
    Along b P s (first ++ second) ↔ Along b P s first ∧ Along b P (s.over b first) second := by
  induction first generalizing s with
  | nil => exact (and_iff_right trivial).symm
  | cons c first ih =>
    rw [List.cons_append, along_cons, along_cons, ih, and_assoc]
    rfl

variable {b}

theorem over_append (s : Scan) (first second : Text) :
    s.over b (first ++ second) = (s.over b first).over b second := List.foldl_append ..

theorem over_nil (s : Scan) : s.over b [] = s := rfl

theorem over_cons (s : Scan) (c : Char) (rest : Text) :
    s.over b (c :: rest) = (s.step b c).over b rest := rfl

theorem step_quote (d : Int) : (Scan.mk .outside d).step b '"' = ⟨.inside, d⟩ := rfl

theorem step_opens {c : Char} (h : b.Opens c) (d : Int) :
    (Scan.mk .outside d).step b c = ⟨.outside, d + 1⟩ := by
  show (if c = '"' then _ else _) = _
  rw [if_neg h.ne_quote, if_pos h]

theorem step_closes {c : Char} (h : b.Closes c) (d : Int) :
    (Scan.mk .outside d).step b c = ⟨.outside, d - 1⟩ := by
  show (if c = '"' then _ else _) = _
  rw [if_neg h.ne_quote, if_neg fun hopens => hopens.not_closes h, if_pos h]

theorem step_plain {c : Char} (h : b.Plain c) (d : Int) :
    (Scan.mk .outside d).step b c = ⟨.outside, d⟩ := by
  show (if c = '"' then _ else _) = _
  rw [if_neg h.1, if_neg h.2.1, if_neg h.2.2]

/-- Inside of a literal no bracket is counted. -/
theorem step_depth {s : Scan} (h : s.mode ≠ .outside) (c : Char) :
    (s.step b c).depth = s.depth := by
  obtain ⟨mode, depth⟩ := s
  cases mode with
  | outside => exact absurd rfl h
  | escaped => rfl
  | inside =>
    show (if c = '\\' then Scan.mk .escaped depth
      else if c = '"' then Scan.mk .outside depth else Scan.mk .inside depth).depth = depth
    split
    · rfl
    · split <;> rfl

/-- One character changes the depth by one at most. -/
theorem le_step_depth (s : Scan) (c : Char) : s.depth - 1 ≤ (s.step b c).depth := by
  by_cases h : s.mode = .outside
  · obtain ⟨mode, depth⟩ := s
    subst h
    show depth - 1 ≤ (if c = '"' then Scan.mk .inside depth
      else if b.Opens c then Scan.mk .outside (depth + 1)
      else if b.Closes c then Scan.mk .outside (depth - 1) else Scan.mk .outside depth).depth
    split
    · exact Int.sub_le_self depth (by decide)
    · split
      · show depth - 1 ≤ depth + 1
        omega
      · split
        · exact Int.le_refl (depth - 1)
        · exact Int.sub_le_self depth (by decide)
  · rw [step_depth h]
    exact Int.sub_le_self _ (by decide)

/-- A piece of a literal leaves the reader in it. -/
theorem over_piece {piece : LiteralPiece} (h : piece.Fits '"') (d : Int) :
    (Scan.mk .inside d).over b piece.text = ⟨.inside, d⟩ := by
  cases piece with
  | plain c =>
    show (if c = '\\' then _ else if c = '"' then _ else _) = _
    rw [if_neg h.2.1, if_neg h.1]
  | escape c => rfl

theorem over_pieces {pieces : List LiteralPiece} (h : ∀ p ∈ pieces, p.Fits '"') (d : Int) :
    (Scan.mk .inside d).over b (pieces.flatMap LiteralPiece.text) = ⟨.inside, d⟩ := by
  induction pieces with
  | nil => rfl
  | cons piece pieces ih =>
    obtain ⟨hpiece, hpieces⟩ := List.forall_mem_cons.mp h
    rw [List.flatMap_cons, over_append, over_piece hpiece, ih hpieces]

/-- A literal leaves the reader as it was. -/
theorem over_quoted {pieces : List LiteralPiece} (h : ∀ p ∈ pieces, p.Fits '"') (d : Int) :
    (Scan.mk .outside d).over b (quoted '"' pieces) = ⟨.outside, d⟩ := by
  rw [quoted, over_cons, step_quote, over_append, over_pieces h]
  rfl

/-- In a literal the reader is not outside, and at the depth it came with. -/
theorem along_pieces {P : Scan → Char → Prop} {d : Int}
    (hP : ∀ s c, s.mode ≠ .outside → s.depth = d → P s c) {pieces : List LiteralPiece}
    (h : ∀ p ∈ pieces, p.Fits '"') :
    Along b P ⟨.inside, d⟩ (pieces.flatMap LiteralPiece.text) := by
  induction pieces with
  | nil => trivial
  | cons piece pieces ih =>
    obtain ⟨hpiece, hpieces⟩ := List.forall_mem_cons.mp h
    rw [List.flatMap_cons, along_append, over_piece hpiece]
    refine ⟨?_, ih hpieces⟩
    have hinside : ∀ c, P ⟨.inside, d⟩ c := fun c => hP _ c (by simp) rfl
    cases piece with
    | plain c => exact ⟨hinside c, trivial⟩
    | escape c => exact ⟨hinside '\\', hP _ c (by simp [Scan.step]) rfl, trivial⟩

end Reader

/-! ## §2. Balanced text. -/

variable {b : Brackets}

/-- Text that closes every bracket it opens, with a counterpart; outside of brackets it has only
characters of `top`, quotes and brackets apart. -/
inductive Balanced (b : Brackets) : (Char → Prop) → Text → Prop
  | nil (top : Char → Prop) : Balanced b top []
  | plain {top : Char → Prop} {c : Char} {rest : Text} (hplain : b.Plain c) (htop : top c)
      (behind : Balanced b top rest) : Balanced b top (c :: rest)
  | string {top : Char → Prop} {pieces : List LiteralPiece} {rest : Text}
      (fits : ∀ p ∈ pieces, p.Fits '"') (behind : Balanced b top rest) :
      Balanced b top (quoted '"' pieces ++ rest)
  | group {top : Char → Prop} {p : Char × Char} {inner rest : Text} (pair : p ∈ b.pairs)
      (inside : Balanced b (fun _ => True) inner) (behind : Balanced b top rest) :
      Balanced b top (p.1 :: (inner ++ p.2 :: rest))

namespace Balanced

variable {top : Char → Prop}

theorem append {first second : Text} (h : Balanced b top first) (h' : Balanced b top second) :
    Balanced b top (first ++ second) := by
  induction h with
  | nil => exact h'
  | plain hplain htop _ ih => exact .plain hplain htop (ih h')
  | string fits _ ih =>
    rw [List.append_assoc]
    exact .string fits (ih h')
  | group pair inside _ _ ih =>
    rw [List.cons_append, List.append_assoc, List.cons_append]
    exact .group pair inside (ih h')

theorem mono {top' : Char → Prop} (himp : ∀ c, top c → top' c) {text : Text}
    (h : Balanced b top text) : Balanced b top' text := by
  induction h with
  | nil => exact .nil _
  | plain hplain htop _ ih => exact .plain hplain (himp _ htop) (ih himp)
  | string fits _ ih => exact .string fits (ih himp)
  | group pair inside _ _ ih => exact .group pair inside (ih himp)

/-- A separator between balanced texts. -/
theorem intercalate {sep : Char} (hsep : b.Plain sep) {parts : List Text}
    (h : ∀ part ∈ parts, Balanced b top part) :
    Balanced b (fun _ => True) ([sep].intercalate parts) := by
  induction parts with
  | nil => exact .nil _
  | cons part rest ih =>
    obtain ⟨hpart, hrest⟩ := List.forall_mem_cons.mp h
    cases rest with
    | nil =>
      rw [List.intercalate_singleton]
      exact hpart.mono fun _ _ => trivial
    | cons next rest =>
      rw [List.intercalate_cons_cons, List.append_assoc]
      exact (hpart.mono fun _ _ => trivial).append (.plain hsep trivial (ih hrest))

/-- **A reader that knows only some of the brackets**, the others being plain to it. -/
theorem sub {b' : Brackets} (hsub : ∀ p ∈ b.pairs, p ∈ b'.pairs ∨ b'.Plain p.1 ∧ b'.Plain p.2)
    (hplain' : ∀ c, b.Plain c → b'.Plain c) {text : Text} (h : Balanced b top text) :
    Balanced b' (fun _ => True) text := by
  induction h with
  | nil => exact .nil _
  | plain hplain _ _ ih => exact .plain (hplain' _ hplain) trivial ih
  | string fits _ ih => exact .string fits ih
  | group pair _ _ ihinside ihbehind =>
    rcases hsub _ pair with hknown | ⟨hopen, hclose⟩
    · exact .group hknown ihinside ihbehind
    · exact .plain hopen trivial (ihinside.append (.plain hclose trivial ihbehind))

/-- **The reader is behind balanced text as it was in front of it.** -/
theorem scan {text : Text} (h : Balanced b top text) (d : Int) :
    (Scan.mk .outside d).over b text = ⟨.outside, d⟩ := by
  induction h generalizing d with
  | nil => rfl
  | plain hplain _ _ ih => rw [over_cons, step_plain hplain, ih]
  | string fits _ ih => rw [over_append, over_quoted fits, ih]
  | group pair _ _ ihinside ihbehind =>
    rw [over_cons, step_opens (Brackets.opens_of_mem pair), over_append, ihinside, over_cons,
      step_closes (Brackets.closes_of_mem pair), Int.add_sub_cancel, ihbehind]

/-- **What the reader meets in balanced text**: it never goes below the depth it came with, and at
that depth, outside of literals, it finds quotes, opening brackets and characters of `top`. -/
theorem along {text : Text} (h : Balanced b top text) {P : Scan → Char → Prop} {d : Int}
    (hP : ∀ s c, d ≤ s.depth →
      (s = ⟨.outside, d⟩ → c = '"' ∨ b.Opens c ∨ (b.Plain c ∧ top c)) → P s c) :
    Along b P ⟨.outside, d⟩ text := by
  induction h generalizing d with
  | nil => trivial
  | plain hplain htop _ ih =>
    refine ⟨hP _ _ (Int.le_refl d) fun _ => .inr (.inr ⟨hplain, htop⟩), ?_⟩
    rw [step_plain hplain]
    exact ih hP
  | @string top pieces rest fits _ ih =>
    rw [along_append, over_quoted fits]
    have hin : ∀ s c, s.mode ≠ .outside → s.depth = d → P s c := fun s c hmode hdepth =>
      hP s c (Int.le_of_eq hdepth.symm) fun hs => absurd (congrArg Scan.mode hs) hmode
    refine ⟨⟨hP _ _ (Int.le_refl d) fun _ => .inl rfl, ?_⟩, ih hP⟩
    rw [step_quote, along_append, over_pieces fits]
    exact ⟨along_pieces hin fits, hin _ _ (by simp) rfl, trivial⟩
  | @group top p inner rest pair _ _ ihinside ihbehind =>
    -- the brackets themselves, what is between them, and what is behind
    have hdeep : ∀ s c, d + 1 ≤ s.depth → P s c := fun s c hdepth =>
      hP s c (by omega) fun hs => absurd (congrArg Scan.depth hs) (by simp; omega)
    refine ⟨hP _ _ (Int.le_refl d) fun _ => .inr (.inl (Brackets.opens_of_mem pair)), ?_⟩
    rw [step_opens (Brackets.opens_of_mem pair), along_append, Balanced.scan ‹_›]
    refine ⟨ihinside fun s c hdepth _ => hdeep s c hdepth, hdeep _ _ (Int.le_refl _), ?_⟩
    rw [step_closes (Brackets.closes_of_mem pair), Int.add_sub_cancel]
    exact ihbehind hP

end Balanced

/-! ## §3. Cutting at a separator. -/

/-- A reader that cuts a text where the separator stands outside of literals and brackets, with
what it has of the present part. -/
def cutFrom (b : Brackets) (sep : Char) (s : Scan) (current : Text) : Text → List Text
  | [] => [current]
  | c :: rest =>
    if c = sep ∧ s = ⟨.outside, 0⟩ then current :: cutFrom b sep s [] rest
    else cutFrom b sep (s.step b c) (current ++ [c]) rest

/-- A text, cut apart. -/
def cuts (b : Brackets) (sep : Char) (text : Text) : List Text :=
  cutFrom b sep ⟨.outside, 0⟩ [] text

theorem cutFrom_sep (sep : Char) (current rest : Text) :
    cutFrom b sep ⟨.outside, 0⟩ current (sep :: rest)
      = current :: cutFrom b sep ⟨.outside, 0⟩ [] rest := if_pos ⟨rfl, rfl⟩

theorem cutFrom_ne_nil (sep : Char) (s : Scan) (current text : Text) :
    cutFrom b sep s current text ≠ [] := by
  induction text generalizing s current with
  | nil => exact List.cons_ne_nil _ _
  | cons c rest ih =>
    unfold cutFrom
    split
    · exact List.cons_ne_nil _ _
    · exact ih _ _

/-- **What is cut apart is the whole text**, with the separators that were cut at. -/
theorem intercalate_cutFrom (sep : Char) (s : Scan) (current text : Text) :
    [sep].intercalate (cutFrom b sep s current text) = current ++ text := by
  induction text generalizing s current with
  | nil => rw [cutFrom, List.intercalate_singleton, List.append_nil]
  | cons c rest ih =>
    unfold cutFrom
    split
    · rename_i hcut
      rw [List.intercalate_cons_of_ne_nil (cutFrom_ne_nil _ _ _ _), ih, hcut.1, List.nil_append,
        List.append_assoc, List.singleton_append]
    · rw [ih, List.append_assoc, List.singleton_append]

theorem intercalate_cuts (sep : Char) (text : Text) :
    [sep].intercalate (cuts b sep text) = text := intercalate_cutFrom sep _ _ _

/-- A reader that cuts nowhere. -/
abbrev Uncut (sep : Char) (s : Scan) (c : Char) : Prop := ¬ (c = sep ∧ s = ⟨.outside, 0⟩)

theorem along_cutFrom {sep : Char} {s : Scan} {current : Text}
    (hcurrent : Along b (Uncut sep) ⟨.outside, 0⟩ current)
    (hover : (Scan.mk .outside 0).over b current = s) (text : Text) :
    ∀ part ∈ cutFrom b sep s current text, Along b (Uncut sep) ⟨.outside, 0⟩ part := by
  induction text generalizing s current with
  | nil => exact fun part hpart => List.mem_singleton.mp hpart ▸ hcurrent
  | cons c rest ih =>
    unfold cutFrom
    split
    · rename_i hcut
      obtain ⟨rfl, rfl⟩ := hcut
      exact List.forall_mem_cons.mpr ⟨hcurrent, ih trivial rfl⟩
    · rename_i hcut
      refine ih ((along_append b _ _ _).mpr ⟨hcurrent, ?_, trivial⟩) ?_
      · rw [hover]
        exact hcut
      · rw [over_append, hover]
        rfl

/-- No part could have been cut once more. -/
theorem along_cuts (sep : Char) (text : Text) :
    ∀ part ∈ cuts b sep text, Along b (Uncut sep) ⟨.outside, 0⟩ part :=
  along_cutFrom (along_nil b _ _) rfl text

theorem over_cutFrom {sep : Char} {s : Scan} {current : Text}
    (hover : (Scan.mk .outside 0).over b current = s) (text : Text) :
    ∀ part ∈ (cutFrom b sep s current text).dropLast,
      (Scan.mk .outside 0).over b part = ⟨.outside, 0⟩ := by
  induction text generalizing s current with
  | nil => exact fun part hpart => absurd hpart List.not_mem_nil
  | cons c rest ih =>
    unfold cutFrom
    split
    · rename_i hcut
      rw [List.dropLast_cons_of_ne_nil (cutFrom_ne_nil _ _ _ _)]
      exact List.forall_mem_cons.mpr ⟨hover.trans hcut.2, ih hcut.2.symm⟩
    · refine ih ?_
      rw [over_append, hover]
      rfl

/-- Every part but the last leaves the reader where it cuts. -/
theorem over_cuts (sep : Char) (text : Text) :
    ∀ part ∈ (cuts b sep text).dropLast, (Scan.mk .outside 0).over b part = ⟨.outside, 0⟩ :=
  over_cutFrom (over_nil _) text

/-- A part in which the reader cuts nowhere. -/
theorem cutFrom_along {sep : Char} {s : Scan} {part : Text}
    (h : Along b (Uncut sep) s part) (current rest : Text) :
    cutFrom b sep s current (part ++ rest)
      = cutFrom b sep (s.over b part) (current ++ part) rest := by
  induction part generalizing s current with
  | nil =>
    rw [List.append_nil]
    rfl
  | cons c part ih =>
    rw [List.cons_append, cutFrom, if_neg h.1, ih h.2, List.append_assoc, List.singleton_append]
    rfl

/-- A balanced part that has the separator in literals and brackets only. -/
theorem cutFrom_balanced {sep : Char} (hsep : b.Plain sep) {part : Text}
    (h : Balanced b (· ≠ sep) part) (current rest : Text) :
    cutFrom b sep ⟨.outside, 0⟩ current (part ++ rest)
      = cutFrom b sep ⟨.outside, 0⟩ (current ++ part) rest := by
  have halong : Along b (Uncut sep) ⟨.outside, 0⟩ part := by
    refine h.along ?_
    rintro s c - hmeets ⟨rfl, hs⟩
    rcases hmeets hs with hquote | hopens | ⟨-, hne⟩
    · exact hsep.1 hquote
    · exact hsep.2.1 hopens
    · exact hne rfl
  rw [cutFrom_along halong, h.scan]

/-- **Texts that are joined are cut apart again.** -/
theorem cuts_intercalate {sep : Char} (hsep : b.Plain sep) {parts : List Text} (hne : parts ≠ [])
    (h : ∀ part ∈ parts, Balanced b (· ≠ sep) part) :
    cuts b sep ([sep].intercalate parts) = parts := by
  have hfrom : ∀ current : Text, ∀ part rest, (∀ p ∈ part :: rest, Balanced b (· ≠ sep) p) →
      cutFrom b sep ⟨.outside, 0⟩ current ([sep].intercalate (part :: rest))
        = (current ++ part) :: rest := by
    intro current part rest
    induction rest generalizing current part with
    | nil =>
      intro hparts
      have hlast := cutFrom_balanced hsep (hparts part List.mem_cons_self) current []
      rw [List.append_nil] at hlast
      rw [List.intercalate_singleton, hlast, cutFrom]
    | cons next rest ih =>
      intro hparts
      obtain ⟨hpart, hrest⟩ := List.forall_mem_cons.mp hparts
      rw [List.intercalate_cons_of_ne_nil (List.cons_ne_nil _ _), List.append_assoc,
        cutFrom_balanced hsep hpart, List.singleton_append, cutFrom_sep,
        ih [] next hrest, List.nil_append]
  cases parts with
  | nil => exact absurd rfl hne
  | cons part rest => exact hfrom [] part rest h

/-! ## §4. The end of a bracket. -/

/-- What stands in front of the character that brings the depth to nothing, and behind it. -/
def closeAt (b : Brackets) (s : Scan) : Text → Option (Text × Text)
  | [] => none
  | c :: rest =>
    if (s.step b c).depth = 0 then some ([], rest)
    else (closeAt b (s.step b c) rest).map fun found => (c :: found.1, found.2)

theorem closeAt_along {s : Scan} {part : Text}
    (h : Along b (fun s c => (s.step b c).depth ≠ 0) s part) (rest : Text) :
    closeAt b s (part ++ rest)
      = (closeAt b (s.over b part) rest).map fun found => (part ++ found.1, found.2) := by
  induction part generalizing s with
  | nil => exact Option.map_id'.symm
  | cons c part ih =>
    rw [List.cons_append, closeAt, if_neg h.1, ih h.2, Option.map_map]
    rfl

/-- **The end of a bracket is found**, whatever is between. -/
theorem closeAt_balanced {top : Char → Prop} {p : Char × Char} (pair : p ∈ b.pairs) {inner : Text}
    (h : Balanced b top inner) (rest : Text) :
    closeAt b ⟨.outside, 1⟩ (inner ++ p.2 :: rest) = some (inner, rest) := by
  have halong : Along b (fun s c => (s.step b c).depth ≠ 0) ⟨.outside, 1⟩ inner := by
    refine h.along fun s c hdepth hmeets => ?_
    rcases Int.lt_or_eq_of_le hdepth with hdeep | hlevel
    · have := le_step_depth (b := b) s c
      omega
    · by_cases hmode : s.mode = .outside
      · have hs : s = ⟨.outside, 1⟩ := by
          obtain ⟨mode, depth⟩ := s
          cases hmode
          cases hlevel
          rfl
        rw [hs]
        rcases hmeets hs with rfl | hopens | ⟨hplain, -⟩
        · rw [step_quote]
          decide
        · rw [step_opens hopens]
          decide
        · rw [step_plain hplain]
          decide
      · rw [step_depth hmode, ← hlevel]
        decide
  have hstep := step_closes (Brackets.closes_of_mem pair) 1
  rw [closeAt_along halong, h.scan, closeAt, if_pos (by rw [hstep]; rfl), Option.map_some,
    List.append_nil]

end KFsw.Lib
