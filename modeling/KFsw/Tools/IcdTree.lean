/-
  KFsw.Tools.IcdTree — the rows of the shell commands in the interface document,
  `entry_fields`, `walk` and the loop over the registered commands in `main` of
  `tools/docs/icd-source.py`.

  A command set is a list of entries, and an entry may name another set below it.
  `walk` goes down from a command, leaves out a path it has had before, and hands
  the nearest condition on.  A path is the names of its commands joined by spaces.

  Main results:
    * `walk_exact`          — a walk adds the rows of its tree, each once;
    * `walk_total`          — it ends where no set is below itself;
    * `entryFields_reads`   — the fields of an entry are what its arguments say;
    * `commandRows_exact`   — the rows are the commands below the registered ones.
-/
import KFsw.Tools.IcdMacros
import KFsw.Lib.CString

namespace KFsw.Tools

open KFsw.Lib

/-! ## §1. The fields of an entry. -/

/-- `re.sub(r"[^0-9]", "", text)`. -/
def digitsOf (text : Str) : Str := text.filter Char.isDigit

/-- `int(digits)` of ASCII digits; `none` is the `ValueError` of no digit. -/
def digitsValue (digits : Str) : Option Nat :=
  if digits = [] then none else some (Nat.ofDigits 10 (digits.reverse.map fun c => c.toNat - 48))

/-- `arity`. -/
def arity (minimum optional : Str) : Str :=
  match digitsValue (digitsOf minimum), digitsValue (digitsOf optional) with
  | some least, some extra =>
    let low : Int := least - 1
    if 255 ≤ extra then (if low ≠ 0 then intText low ++ ['+'] else "any".toList)
    else if low = low + extra then intText low
    else intText low ++ '-' :: intText (low + extra)
  | _, _ => []

/-- `set_name`; `none` and the empty text are both no set. -/
def setName (text : Str) : Option Str :=
  let name := strip text
  if name = "NULL".toList ∨ name = [] ∨ name = ['0'] then none
  else some (strip (name.dropWhile (· = '&')))

/-- A match of `(?:[^"\\]|\\.)*"` behind a quote: the body, and what stands behind the closing
quote. -/
def matchLiteral : Str → Option (Str × Str)
  | [] => none
  | c :: rest =>
    if c = '"' then some ([], rest)
    else if c = '\\' then
      match rest with
      | [] => none
      -- the dot does not match a newline
      | d :: rest =>
        if d = '\n' then none
        else (matchLiteral rest).map fun found => (c :: d :: found.1, found.2)
    else (matchLiteral rest).map fun found => (c :: found.1, found.2)

theorem matchLiteral_length (text : Str) (found : Str × Str) (h : matchLiteral text = some found) :
    found.2.length < text.length := by
  induction text using matchLiteral.induct generalizing found with
  | case1 => exact absurd h (by simp [matchLiteral])
  | case2 rest =>
    unfold matchLiteral at h
    rw [if_pos rfl] at h
    obtain rfl := Option.some.inj h
    exact Nat.lt_succ_self _
  | case3 hquote =>
    unfold matchLiteral at h
    rw [if_neg hquote, if_pos rfl] at h
    exact absurd h (by simp)
  | case4 rest hquote =>
    unfold matchLiteral at h
    rw [if_neg hquote, if_pos rfl] at h
    exact absurd h (by simp)
  | case5 d rest hline hquote ih =>
    unfold matchLiteral at h
    rw [if_neg hquote, if_pos rfl] at h
    dsimp only at h
    rw [if_neg hline] at h
    obtain ⟨inner, hinner, rfl⟩ := Option.map_eq_some_iff.mp h
    exact Nat.lt_succ_of_lt (Nat.lt_succ_of_lt (ih inner hinner))
  | case6 c rest hquote hback ih =>
    unfold matchLiteral at h
    rw [if_neg hquote, if_neg hback] at h
    obtain ⟨inner, hinner, rfl⟩ := Option.map_eq_some_iff.mp h
    exact Nat.lt_succ_of_lt (ih inner hinner)

/-- `"".join(re.findall(...))` of `literal`. -/
def literalBodies : Str → Str
  | [] => []
  | c :: rest =>
    if c = '"' then
      match _ : matchLiteral rest with
      | some found => found.1 ++ literalBodies found.2
      | none => literalBodies rest
    else literalBodies rest
termination_by text => text.length
decreasing_by
  · exact Nat.lt_succ_of_lt (matchLiteral_length _ _ ‹_›)
  · exact Nat.lt_succ_self _
  · exact Nat.lt_succ_self _

/-- `text.replace("\\" + escape, by)` of a backslash with one character. -/
def replaceEscape (escape replacement : Char) : Str → Str
  | [] => []
  | c :: rest =>
    match rest with
    | [] => [c]
    | d :: behind =>
      if c = '\\' ∧ d = escape then replacement :: replaceEscape escape replacement behind
      else c :: replaceEscape escape replacement (d :: behind)

/-- `literal`. -/
def literal (text : Str) : Str :=
  strip (replaceEscape 't' ' ' (replaceEscape 'n' ' ' (replaceEscape '"' '"' (literalBodies text))))

/-- How an entry is written: `SHELL_CMD_ARG`, `SHELL_CMD` or `SHELL_SUBCMD_ADD`. -/
inductive EntryKind where
  | arg
  | plain
  | add
  deriving DecidableEq

/-- An entry of a set as `collect` keeps it. -/
structure SourceEntry where
  kind : EntryKind
  args : List Str
  origin : Str
  guard : Str

/-- The fields of an entry, or of a registered command. -/
structure EntryFields where
  name : Str
  child : Option Str
  help : Str
  argsText : Str
  origin : Str
  cond : Str

/-- `entry_fields`; `none` is the `IndexError` of no argument. -/
def entryFields (entry : SourceEntry) : Option EntryFields :=
  match entry.args with
  | [] => none
  | name :: _ => some {
      name := strip name
      child := (entry.args[1]?).bind setName
      help := ((entry.args[2]?).map literal).getD []
      argsText := if entry.kind ≠ .plain ∧ 6 ≤ entry.args.length then
        arity (entry.args.getD 4 []) (entry.args.getD 5 []) else []
      origin := entry.origin
      cond := entry.guard }

/-! ## §2. `walk`. -/

/-- A row of the table. -/
structure CommandRow where
  full : Str
  argsText : Str
  help : Str
  origin : Str
  cond : Str
  deriving DecidableEq

/-- `rows` and `seen`. -/
structure WalkState where
  rows : List CommandRow
  seen : List Str

/-- `cond or inherited`. -/
def orElse (cond inherited : Str) : Str := if cond ≠ [] then cond else inherited

/-- The row of an entry. -/
def EntryFields.row (fields : EntryFields) (full inherited : Str) : CommandRow :=
  ⟨full, fields.argsText, fields.help, fields.origin, orElse fields.cond inherited⟩

/-- The set below an entry, if there is one: a name that is not empty. -/
def EntryFields.below (fields : EntryFields) : Option Str := fields.child.filter (· ≠ [])

/-- `sets` and `attach` of `collect`. -/
structure Commands where
  sets : OrderedDict Str (List SourceEntry)
  attach : OrderedDict Str Str

/-- `sets.get(name, [])`. -/
def Commands.getSet (commands : Commands) (name : Str) : List SourceEntry :=
  commands.sets.getD name []

/-- The entries of a set, with those that are added to it from elsewhere. -/
def Commands.entriesOf (commands : Commands) (ref : Str) : List SourceEntry :=
  commands.getSet ref ++ commands.attach.entries.flatMap fun e =>
    if e.2 = ref then commands.getSet ('@' :: e.1) else []

/-- The loop of `walk`; `down` walks the set below an entry. -/
def walkEntries (down : Str → Str → Str → WalkState → Option WalkState) (path inherited : Str) :
    List SourceEntry → WalkState → Option WalkState
  | [], state => some state
  | entry :: rest, state =>
    (entryFields entry).bind fun fields =>
      let full := strip (path ++ ' ' :: fields.name)
      if full ∈ state.seen then walkEntries down path inherited rest state
      else
        let added : WalkState := ⟨state.rows ++ [fields.row full inherited], full :: state.seen⟩
        (match fields.below with
          | some child => down child full (orElse fields.cond inherited) added
          | none => some added).bind fun state => walkEntries down path inherited rest state

/-- `walk`, so many sets deep at most; `none` is an `IndexError` or a `RecursionError`. -/
def walk (commands : Commands) : Nat → Str → Str → Str → WalkState → Option WalkState
  | 0, _, _, _, _ => none
  | depth + 1, ref, path, inherited, state =>
    walkEntries (walk commands depth) path inherited (commands.entriesOf ref) state

/-- The loop of `main` over the registered commands. -/
def walkRoots (commands : Commands) (depth : Nat) : List EntryFields → WalkState → Option WalkState
  | [], state => some state
  | root :: rest, state =>
    let added : WalkState := ⟨state.rows ++ [⟨root.name, root.argsText, root.help, root.origin,
      root.cond⟩], root.name :: state.seen⟩
    (match root.below with
      | some child => walk commands depth child root.name root.cond added
      | none => some added).bind fun state => walkRoots commands depth rest state

/-- The rows of the document, with the registered commands in their order. -/
def commandRows (commands : Commands) (depth : Nat) (roots : List EntryFields) :
    Option (List CommandRow) := (walkRoots commands depth roots ⟨[], []⟩).map WalkState.rows

/-! ## §3. Paths. -/

/-- A command name: not empty, and without white space. -/
def IsName (name : Str) : Prop := name ≠ [] ∧ ∀ c ∈ name, isSpace c = false

theorem IsName.word {name : Str} (h : IsName name) : IsWord name :=
  ⟨h.1, fun hspace => absurd (h.2 ' ' hspace) (by decide)⟩

/-- A path of names is told from its text. -/
theorem joinWords_injective {names names' : List Str} (h : ∀ n ∈ names, IsName n)
    (h' : ∀ n ∈ names', IsName n) (heq : joinWords names = joinWords names') : names = names' := by
  rw [← textWords_joinWords names fun n hn => (h n hn).word, heq,
    textWords_joinWords names' fun n hn => (h' n hn).word]

/-- Two paths that go on from one place: they go on with one name. -/
theorem joinWords_next {path names names' : List Str} {name name' : Str}
    (hpath : ∀ n ∈ path, IsName n) (h : ∀ n ∈ name :: names, IsName n)
    (h' : ∀ n ∈ name' :: names', IsName n)
    (heq : joinWords (path ++ name :: names) = joinWords (path ++ name' :: names')) :
    name = name' := by
  have hboth := joinWords_injective (fun n hn => (List.mem_append.mp hn).elim (hpath n) (h n))
    (fun n hn => (List.mem_append.mp hn).elim (hpath n) (h' n)) heq
  exact (List.cons.inj (List.append_cancel_left hboth)).1

theorem joinWords_concat {names : List Str} (hne : names ≠ []) (name : Str) :
    joinWords (names ++ [name]) = joinWords names ++ ' ' :: name := by
  induction names with
  | nil => exact absurd rfl hne
  | cons first rest ih =>
    cases rest with
    | nil => rfl
    | cons second rest =>
      show first ++ ' ' :: joinWords (second :: rest ++ [name]) = first ++ ' ' :: joinWords (second
        :: rest) ++ ' ' :: name
      rw [ih (List.cons_ne_nil _ _), List.append_assoc, List.cons_append]

/-- **The path of an entry**: nothing is stripped from it. -/
theorem strip_path {path : List Str} (hne : path ≠ []) (hpath : ∀ n ∈ path, IsName n) {name : Str}
    (hname : IsName name) :
    strip (joinWords path ++ ' ' :: name) = joinWords (path ++ [name]) := by
  rw [joinWords_concat hne]
  obtain ⟨first, rest, rfl⟩ := List.exists_cons_of_ne_nil hne
  obtain ⟨c, word, rfl⟩ := List.exists_cons_of_ne_nil (hpath first List.mem_cons_self).1
  have hc : isSpace c = false := (hpath _ List.mem_cons_self).2 c List.mem_cons_self
  obtain ⟨behind, hbehind⟩ : ∃ behind, joinWords ((c :: word) :: rest) = c :: behind := by
    cases rest with
    | nil => exact ⟨word, rfl⟩
    | cons second rest => exact ⟨word ++ ' ' :: joinWords (second :: rest), rfl⟩
  have hlast : isSpace (name.getLast hname.1) = false := hname.2 _ (List.getLast_mem hname.1)
  have hname' : name = name.dropLast ++ [name.getLast hname.1] :=
    (List.dropLast_append_getLast hname.1).symm
  have hkept : rstrip (behind ++ ' ' :: name) = behind ++ ' ' :: name := by
    have hrstrip := rstrip_append_cons (behind ++ ' ' :: name.dropLast) hlast []
    rw [show rstrip [] = [] from rfl, List.append_assoc, List.cons_append, ← hname'] at hrstrip
    exact hrstrip
  rw [hbehind, List.cons_append]
  have hstrip := strip_cons (List.forall_mem_nil _) hc (behind ++ ' ' :: name)
  rw [List.nil_append, hkept] at hstrip
  exact hstrip

/-! ## §4. The commands of a tree. -/

/-- The entries of a set, as far as they can be read. -/
def Commands.fieldsOf (commands : Commands) (ref : Str) : List EntryFields :=
  (commands.entriesOf ref).filterMap entryFields

/-- Every entry has a command name. -/
def Commands.Named (commands : Commands) : Prop :=
  ∀ ref, ∀ fields ∈ commands.fieldsOf ref, IsName fields.name

/-- An entry is the first one of its name, and the name is none of some others. -/
def FirstAfter (done : List Str) (entries : List EntryFields) (fields : EntryFields) : Prop :=
  fields.name ∉ done
    ∧ ∃ before after, entries = before ++ fields :: after ∧ fields.name ∉ before.map EntryFields.name

/-- The rows of a tree: a row for the first entry of each name, and the rows of the set below it.
An entry without a condition has that of the nearest command above it. -/
inductive RowIn (commands : Commands) : List Str → Str → List EntryFields → CommandRow → Prop
  | here {path : List Str} {inherited : Str} {entries : List EntryFields} {fields : EntryFields}
      (first : FirstAfter [] entries fields) :
      RowIn commands path inherited entries
        (fields.row (joinWords (path ++ [fields.name])) inherited)
  | under {path : List Str} {inherited : Str} {entries : List EntryFields} {fields : EntryFields}
      {child : Str} {row : CommandRow} (first : FirstAfter [] entries fields)
      (hchild : fields.below = some child)
      (behind : RowIn commands (path ++ [fields.name]) (orElse fields.cond inherited)
        (commands.fieldsOf child) row) :
      RowIn commands path inherited entries row

/-- The rows of one entry. -/
def RowOf (commands : Commands) (path : List Str) (inherited : Str) (fields : EntryFields)
    (row : CommandRow) : Prop :=
  row = fields.row (joinWords (path ++ [fields.name])) inherited
    ∨ ∃ child, fields.below = some child ∧ RowIn commands (path ++ [fields.name])
      (orElse fields.cond inherited) (commands.fieldsOf child) row

variable {commands : Commands}

theorem rowIn_iff {path : List Str} {inherited : Str} {entries : List EntryFields}
    {row : CommandRow} :
    RowIn commands path inherited entries row
      ↔ ∃ fields, FirstAfter [] entries fields ∧ RowOf commands path inherited fields row := by
  constructor
  · intro h
    cases h with
    | here first => exact ⟨_, first, .inl rfl⟩
    | under first hchild behind => exact ⟨_, first, .inr ⟨_, hchild, behind⟩⟩
  · rintro ⟨fields, first, rfl | ⟨child, hchild, behind⟩⟩
    · exact .here first
    · exact .under first hchild behind

theorem FirstAfter.mem {done : List Str} {entries : List EntryFields} {fields : EntryFields}
    (h : FirstAfter done entries fields) : fields ∈ entries := by
  obtain ⟨-, before, after, rfl, -⟩ := h
  exact List.mem_append_right _ List.mem_cons_self

/-- The first entry of a list, or a first one behind it. -/
theorem firstAfter_cons {done : List Str} {first : EntryFields} {entries : List EntryFields}
    {fields : EntryFields} :
    FirstAfter done (first :: entries) fields
      ↔ (fields = first ∧ first.name ∉ done)
        ∨ FirstAfter (first.name :: done) entries fields := by
  constructor
  · rintro ⟨hdone, before, after, heq, hbefore⟩
    cases before with
    | nil =>
      obtain ⟨rfl, -⟩ := List.cons.inj heq
      exact .inl ⟨rfl, hdone⟩
    | cons e before =>
      obtain ⟨rfl, htail⟩ := List.cons.inj heq
      rw [List.map_cons, List.mem_cons, not_or] at hbefore
      exact .inr ⟨fun hmem => (List.mem_cons.mp hmem).elim hbefore.1 hdone, before, after, htail, hbefore.2⟩
  · rintro (⟨rfl, hdone⟩ | ⟨hdone, before, after, rfl, hbefore⟩)
    · exact ⟨hdone, [], entries, rfl, List.not_mem_nil⟩
    · rw [List.mem_cons, not_or] at hdone
      refine ⟨hdone.2, first :: before, after, rfl, ?_⟩
      rw [List.map_cons, List.mem_cons, not_or]
      exact ⟨hdone.1, hbefore⟩

/-- The path of a row goes through the entry it is in. -/
theorem RowIn.full_eq (hnamed : commands.Named) {path : List Str} {inherited : Str}
    {entries : List EntryFields} {row : CommandRow}
    (h : RowIn commands path inherited entries row) (hentries : ∀ e ∈ entries, IsName e.name) :
    ∃ names, names ≠ [] ∧ (∀ n ∈ names, IsName n) ∧ row.full = joinWords (path ++ names) := by
  induction h with
  | here first =>
    refine ⟨_, List.cons_ne_nil _ _, ?_, rfl⟩
    exact List.forall_mem_singleton.mpr (hentries _ first.mem)
  | @under path _ _ fields _ _ first hchild behind ih =>
    obtain ⟨names, -, hnames, hfull⟩ := ih fun e he => hnamed _ e he
    refine ⟨fields.name :: names, List.cons_ne_nil _ _, ?_, ?_⟩
    · exact List.forall_mem_cons.mpr ⟨hentries _ first.mem, hnames⟩
    · rw [hfull, List.append_assoc, List.singleton_append]

theorem RowOf.full_eq (hnamed : commands.Named) {path : List Str} {inherited : Str}
    {fields : EntryFields} {row : CommandRow} (h : RowOf commands path inherited fields row) :
    ∃ names, (∀ n ∈ names, IsName n) ∧ row.full = joinWords (path ++ fields.name :: names) := by
  rcases h with rfl | ⟨child, -, behind⟩
  · exact ⟨[], List.forall_mem_nil _, rfl⟩
  · obtain ⟨names, -, hnames, hfull⟩ := behind.full_eq hnamed fun e he => hnamed _ e he
    refine ⟨names, hnames, ?_⟩
    rw [hfull, List.append_assoc, List.singleton_append]

/-- The rows of two entries of a set have paths of their own. -/
theorem RowOf.full_ne (hnamed : commands.Named) {path : List Str} (hpath : ∀ n ∈ path, IsName n)
    {inherited : Str} {fields fields' : EntryFields} (hname : IsName fields.name)
    (hname' : IsName fields'.name) (hne : fields.name ≠ fields'.name) {row row' : CommandRow}
    (h : RowOf commands path inherited fields row)
    (h' : RowOf commands path inherited fields' row') : row.full ≠ row'.full := by
  intro heq
  obtain ⟨names, hnames, hfull⟩ := h.full_eq hnamed
  obtain ⟨names', hnames', hfull'⟩ := h'.full_eq hnamed
  exact hne (joinWords_next hpath (List.forall_mem_cons.mpr ⟨hname, hnames⟩)
    (List.forall_mem_cons.mpr ⟨hname', hnames'⟩) (hfull.symm.trans (heq.trans hfull')))

/-! ## §5. What a walk adds. -/

/-- From one state to another the rows of `P` were added, each path once. -/
structure Adds (P : CommandRow → Prop) (state state' : WalkState) (new : List CommandRow) : Prop where
  rows : state'.rows = state.rows ++ new
  mem : ∀ row, row ∈ new ↔ P row
  nodup : (new.map CommandRow.full).Nodup
  seen : ∀ full, full ∈ state'.seen ↔ full ∈ state.seen ∨ full ∈ new.map CommandRow.full

theorem adds_nothing {P : CommandRow → Prop} (hP : ∀ row, ¬ P row) (state : WalkState) :
    Adds P state state [] :=
  ⟨(List.append_nil _).symm, fun row => iff_of_false List.not_mem_nil (hP row), List.nodup_nil,
    fun _ => (or_iff_left List.not_mem_nil).symm⟩

/-- One row, with its path. -/
theorem adds_row (row : CommandRow) (state : WalkState) :
    Adds (· = row) state ⟨state.rows ++ [row], row.full :: state.seen⟩ [row] := by
  refine ⟨rfl, fun _ => List.mem_singleton, List.nodup_singleton _, fun full => ?_⟩
  rw [List.mem_cons, List.map_singleton, List.mem_singleton, or_comm]

/-- **What is added in two steps**, when no path is in both. -/
theorem Adds.append {P Q : CommandRow → Prop} {state state' state'' : WalkState}
    {new new' : List CommandRow} (h : Adds P state state' new) (h' : Adds Q state' state'' new')
    (hapart : ∀ row row', P row → Q row' → row.full ≠ row'.full) :
    Adds (fun row => P row ∨ Q row) state state'' (new ++ new') := by
  refine ⟨?_, fun row => ?_, ?_, fun full => ?_⟩
  · rw [h'.rows, h.rows, List.append_assoc]
  · rw [List.mem_append, h.mem, h'.mem]
  · rw [List.map_append]
    refine List.nodup_append.mpr ⟨h.nodup, h'.nodup, ?_⟩
    intro full hfull full' hfull'
    obtain ⟨row, hrow, rfl⟩ := List.mem_map.mp hfull
    obtain ⟨row', hrow', rfl⟩ := List.mem_map.mp hfull'
    exact hapart row row' ((h.mem row).mp hrow) ((h'.mem row').mp hrow')
  · rw [h'.seen, h.seen, List.map_append, List.mem_append, or_assoc]

theorem Adds.iff {P Q : CommandRow → Prop} {state state' : WalkState} {new : List CommandRow}
    (h : Adds P state state' new) (hPQ : ∀ row, P row ↔ Q row) : Adds Q state state' new :=
  ⟨h.rows, fun row => (h.mem row).trans (hPQ row), h.nodup, h.seen⟩

/-- **A path through another entry** was had before, if it was had after an entry. -/
theorem Adds.seen_before (hnamed : commands.Named) {path : List Str}
    (hpath : ∀ n ∈ path, IsName n) {inherited : Str} {fields : EntryFields}
    (hname : IsName fields.name) {state state' : WalkState} {new : List CommandRow}
    (h : Adds (RowOf commands path inherited fields) state state' new) {name : Str}
    {names : List Str} (hne : name ≠ fields.name) (hnames : ∀ n ∈ name :: names, IsName n)
    (hseen : joinWords (path ++ name :: names) ∈ state'.seen) :
    joinWords (path ++ name :: names) ∈ state.seen := by
  rcases (h.seen _).mp hseen with hold | hnew
  · exact hold
  · obtain ⟨row, hrow, heq⟩ := List.mem_map.mp hnew
    obtain ⟨names', hnames', hfull⟩ := ((h.mem row).mp hrow).full_eq hnamed
    exact absurd (joinWords_next hpath hnames (List.forall_mem_cons.mpr ⟨hname, hnames'⟩)
      (heq.symm.trans hfull)) hne

/-- No path below this one was had before. -/
def Fresh (path : List Str) (state : WalkState) : Prop :=
  ∀ names, names ≠ [] → (∀ n ∈ names, IsName n) → joinWords (path ++ names) ∉ state.seen

/-- What is asked of the walk of a set below: it adds the rows of that set. -/
def Walks (commands : Commands) (down : Str → Str → Str → WalkState → Option WalkState) : Prop :=
  ∀ ref path inherited state state', path ≠ [] → (∀ n ∈ path, IsName n) → Fresh path state →
    down ref (joinWords path) inherited state = some state' →
    ∃ new, Adds (RowIn commands path inherited (commands.fieldsOf ref)) state state' new

variable {down : Str → Str → Str → WalkState → Option WalkState}

/-- **One entry that is new** adds its row and the rows below it. -/
theorem entry_adds (hdown : Walks commands down) {path : List Str}
    (hpath : ∀ n ∈ path, IsName n) {inherited : Str} {fields : EntryFields}
    (hname : IsName fields.name) {state state' : WalkState}
    (hfresh : ∀ names, (∀ n ∈ names, IsName n) →
      joinWords (path ++ fields.name :: names) ∉ state.seen)
    (h : (match fields.below with
      | some child => down child (joinWords (path ++ [fields.name])) (orElse fields.cond inherited)
          ⟨state.rows ++ [fields.row (joinWords (path ++ [fields.name])) inherited],
            joinWords (path ++ [fields.name]) :: state.seen⟩
      | none => some ⟨state.rows ++ [fields.row (joinWords (path ++ [fields.name])) inherited],
          joinWords (path ++ [fields.name]) :: state.seen⟩) = some state')
    (hnamed : commands.Named) :
    ∃ new, Adds (RowOf commands path inherited fields) state state' new := by
  have hrow := adds_row (fields.row (joinWords (path ++ [fields.name])) inherited) state
  have hpath' : ∀ n ∈ path ++ [fields.name], IsName n := by
    intro n hn
    rcases List.mem_append.mp hn with hn | hn
    · exact hpath n hn
    · exact List.mem_singleton.mp hn ▸ hname
  cases hbelow : fields.below with
  | none =>
    rw [hbelow] at h
    obtain rfl := Option.some.inj h
    refine ⟨_, hrow.iff fun row => (or_iff_left ?_).symm⟩
    rintro ⟨child, hchild, -⟩
    rw [hbelow] at hchild
    exact absurd hchild (by simp)
  | some child =>
    rw [hbelow] at h
    have hdeep : Fresh (path ++ [fields.name]) ⟨state.rows ++ [fields.row (joinWords (path ++
        [fields.name])) inherited], joinWords (path ++ [fields.name]) :: state.seen⟩ := by
      intro names hnames hall hmem
      have hall' : ∀ n ∈ path ++ [fields.name] ++ names, IsName n := fun n hn =>
        (List.mem_append.mp hn).elim (hpath' n) (hall n)
      rcases List.mem_cons.mp hmem with heq | hseen
      · have hpaths := joinWords_injective hall' hpath' heq
        exact hnames (List.append_right_eq_self.mp hpaths)
      · rw [List.append_assoc, List.singleton_append] at hseen
        exact hfresh names hall hseen
    obtain ⟨new, hadds⟩ := hdown child _ _ _ _ (by simp) hpath' hdeep h
    refine ⟨_, (hrow.append hadds ?_).iff fun row => or_congr_right ?_⟩
    · rintro row row' rfl hrow' heq
      obtain ⟨names, hnames, hall, hfull⟩ := hrow'.full_eq hnamed fun e he => hnamed _ e he
      have hall' : ∀ n ∈ path ++ [fields.name] ++ names, IsName n := fun n hn =>
        (List.mem_append.mp hn).elim (hpath' n) (hall n)
      have hpaths := joinWords_injective hpath' hall' (heq.trans hfull)
      exact hnames (List.append_right_eq_self.mp hpaths.symm)
    · constructor
      · exact fun hrow' => ⟨child, hbelow, hrow'⟩
      · rintro ⟨child', hchild', hrow'⟩
        rw [hbelow] at hchild'
        obtain rfl := Option.some.inj hchild'
        exact hrow'

/-- **The loop over the entries** adds the rows of the first one of each name. -/
theorem walkEntries_adds (hdown : Walks commands down) (hnamed : commands.Named) {path : List Str}
    (hne : path ≠ []) (hpath : ∀ n ∈ path, IsName n) {inherited : Str}
    {entries : List SourceEntry} (hentries : ∀ e ∈ entries.filterMap entryFields, IsName e.name)
    (done : List Str) (hdoneNames : ∀ n ∈ done, IsName n) {state state' : WalkState}
    (hdone : ∀ n ∈ done, joinWords (path ++ [n]) ∈ state.seen)
    (hfresh : ∀ n names, n ∉ done → (∀ m ∈ n :: names, IsName m) →
      joinWords (path ++ n :: names) ∉ state.seen)
    (h : walkEntries down (joinWords path) inherited entries state = some state') :
    ∃ new, Adds (fun row => ∃ fields, FirstAfter done (entries.filterMap entryFields) fields
      ∧ RowOf commands path inherited fields row) state state' new := by
  induction entries generalizing done state with
  | nil =>
    obtain rfl := Option.some.inj h
    refine ⟨[], adds_nothing ?_ _⟩
    rintro row ⟨fields, hfirst, -⟩
    exact absurd hfirst.mem List.not_mem_nil
  | cons entry rest ih =>
    obtain ⟨fields, hfields, hloop⟩ := Option.bind_eq_some_iff.mp h
    rw [List.filterMap_cons_some hfields] at hentries ⊢
    obtain ⟨hname, hrest⟩ := List.forall_mem_cons.mp hentries
    have hdoneNames' : ∀ n ∈ fields.name :: done, IsName n :=
      List.forall_mem_cons.mpr ⟨hname, hdoneNames⟩
    simp only [strip_path hne hpath hname] at hloop
    by_cases hseen : joinWords (path ++ [fields.name]) ∈ state.seen
    · -- an entry whose path was had before
      rw [if_pos hseen] at hloop
      have hmem : fields.name ∈ done := by
        by_contra hnot
        exact hfresh fields.name [] hnot (List.forall_mem_singleton.mpr hname) hseen
      obtain ⟨new, hadds⟩ := ih hrest _ hdoneNames'
        (List.forall_mem_cons.mpr ⟨hseen, hdone⟩)
        (fun n names hn => hfresh n names fun hin => hn (List.mem_cons_of_mem _ hin)) hloop
      refine ⟨new, hadds.iff fun row => exists_congr fun e => and_congr_left' ?_⟩
      rw [firstAfter_cons]
      exact (or_iff_right fun h => h.2 hmem).symm
    · rw [if_neg hseen] at hloop
      have hnot : fields.name ∉ done := fun hmem => hseen (hdone _ hmem)
      obtain ⟨middle, hentry, hbehind⟩ := Option.bind_eq_some_iff.mp hloop
      obtain ⟨first, hfirst⟩ := entry_adds hdown hpath hname
        (fun names hnames => hfresh fields.name names hnot
          (List.forall_mem_cons.mpr ⟨hname, hnames⟩)) hentry hnamed
      have hself : joinWords (path ++ [fields.name]) ∈ middle.seen := by
        refine (hfirst.seen _).mpr (.inr (List.mem_map.mpr
          ⟨_, (hfirst.mem _).mpr (.inl rfl), rfl⟩))
      obtain ⟨new, hadds⟩ := ih hrest _ hdoneNames'
        (List.forall_mem_cons.mpr ⟨hself, fun n hn => (hfirst.seen _).mpr (.inl (hdone n hn))⟩)
        (fun n names hn hall hmem => hfresh n names (fun hin => hn (List.mem_cons_of_mem _ hin)) hall
          (hfirst.seen_before hnamed hpath hname (fun heq => hn (List.mem_cons.mpr (.inl heq))) hall
            hmem))
        hbehind
      refine ⟨_, (hfirst.append hadds ?_).iff fun row => ?_⟩
      · rintro row row' hrow ⟨e, he, hrow'⟩
        have hne : fields.name ≠ e.name := fun heq => he.1 (heq ▸ List.mem_cons_self)
        exact hrow.full_ne hnamed hpath hname (hrest e he.mem) hne hrow'
      · constructor
        · rintro (hrow | ⟨e, he, hrow⟩)
          · exact ⟨fields, firstAfter_cons.mpr (.inl ⟨rfl, hnot⟩), hrow⟩
          · exact ⟨e, firstAfter_cons.mpr (.inr he), hrow⟩
        · rintro ⟨e, he, hrow⟩
          rcases firstAfter_cons.mp he with ⟨rfl, -⟩ | he
          · exact .inl hrow
          · exact .inr ⟨e, he, hrow⟩

/-- **A walk adds the rows of its tree**, each path once. -/
theorem walk_exact (hnamed : commands.Named) (depth : Nat) : Walks commands (walk commands depth) := by
  induction depth with
  | zero =>
    intro ref path inherited state state' _ _ _ h
    exact absurd h (by simp [walk])
  | succ depth ih =>
    intro ref path inherited state state' hne hpath hfresh h
    obtain ⟨new, hadds⟩ := walkEntries_adds ih hnamed hne hpath (hnamed ref) []
      (List.forall_mem_nil _) (List.forall_mem_nil _)
      (fun n names _ hall => hfresh (n :: names) (List.cons_ne_nil _ _) hall) h
    exact ⟨new, hadds.iff fun row => rowIn_iff.symm⟩

/-! ## §6. The rows of the document. -/

/-- No set is below itself, and every entry can be read. -/
structure Commands.Ordered (commands : Commands) (rank : Str → Nat) : Prop where
  readable : ∀ ref, ∀ entry ∈ commands.entriesOf ref, entry.args ≠ []
  below : ∀ ref, ∀ fields ∈ commands.fieldsOf ref, ∀ child, fields.below = some child →
    rank child < rank ref

theorem entryFields_total {entry : SourceEntry} (h : entry.args ≠ []) :
    ∃ fields, entryFields entry = some fields := by
  obtain ⟨name, rest, hargs⟩ := List.exists_cons_of_ne_nil h
  unfold entryFields
  rw [hargs]
  exact ⟨_, rfl⟩

theorem walkEntries_total {path inherited : Str} {entries : List SourceEntry}
    (hreadable : ∀ entry ∈ entries, entry.args ≠ [])
    (hdown : ∀ fields ∈ entries.filterMap entryFields, ∀ child, fields.below = some child →
      ∀ path inherited state, ∃ state', down child path inherited state = some state')
    (state : WalkState) : ∃ state', walkEntries down path inherited entries state = some state' := by
  induction entries generalizing state with
  | nil => exact ⟨state, rfl⟩
  | cons entry rest ih =>
    obtain ⟨hargs, hrest⟩ := List.forall_mem_cons.mp hreadable
    obtain ⟨fields, hfields⟩ := entryFields_total hargs
    rw [List.filterMap_cons_some hfields] at hdown
    obtain ⟨hfirst, hbehind⟩ := List.forall_mem_cons.mp hdown
    unfold walkEntries
    rw [hfields, Option.bind_some]
    dsimp only
    split
    · exact ih hrest hbehind state
    · cases hbelow : fields.below with
      | none => exact ih hrest hbehind _
      | some child =>
        obtain ⟨middle, hmiddle⟩ := hfirst child hbelow (strip (path ++ ' ' :: fields.name))
          (orElse fields.cond inherited) ⟨state.rows ++ [fields.row (strip (path ++ ' ' ::
            fields.name)) inherited], strip (path ++ ' ' :: fields.name) :: state.seen⟩
        dsimp only
        rw [hmiddle, Option.bind_some]
        exact ih hrest hbehind middle

/-- **A walk ends** where no set is below itself. -/
theorem walk_total {rank : Str → Nat} (hordered : commands.Ordered rank) (depth : Nat) {ref : Str}
    (hdepth : rank ref < depth) (path inherited : Str) (state : WalkState) :
    ∃ state', walk commands depth ref path inherited state = some state' := by
  induction depth generalizing ref path inherited state with
  | zero => exact absurd hdepth (Nat.not_lt_zero _)
  | succ depth ih =>
    refine walkEntries_total (hordered.readable ref) (fun fields hfields child hchild => ?_) state
    exact ih (Nat.lt_of_lt_of_le (hordered.below ref fields hfields child hchild)
      (Nat.le_of_lt_succ hdepth))

/-- The registered commands: names of their own, and no set too deep. -/
structure Roots (rank : Str → Nat) (depth : Nat) (roots : List EntryFields) : Prop where
  named : ∀ root ∈ roots, IsName root.name
  nodup : (roots.map EntryFields.name).Nodup
  below : ∀ root ∈ roots, ∀ child, root.below = some child → rank child < depth

theorem orElse_nil (cond : Str) : orElse cond [] = cond := by
  unfold orElse
  by_cases h : cond = []
  · rw [if_neg (not_not_intro h), h]
  · rw [if_pos h]

/-- The loop over the registered commands adds the rows of each. -/
theorem walkRoots_adds {rank : Str → Nat} (hnamed : commands.Named)
    (hordered : commands.Ordered rank) {depth : Nat} {roots : List EntryFields}
    (hroots : Roots rank depth roots) (state : WalkState)
    (hfresh : ∀ root ∈ roots, ∀ names, (∀ n ∈ names, IsName n) →
      joinWords (root.name :: names) ∉ state.seen) :
    ∃ state' new, walkRoots commands depth roots state = some state'
      ∧ Adds (fun row => ∃ root ∈ roots, RowOf commands [] [] root row) state state' new := by
  induction roots generalizing state with
  | nil =>
    refine ⟨state, [], rfl, adds_nothing ?_ _⟩
    rintro row ⟨root, hroot, -⟩
    exact List.not_mem_nil hroot
  | cons root rest ih =>
    obtain ⟨hname, hnames⟩ := List.forall_mem_cons.mp hroots.named
    obtain ⟨hother, hnodup⟩ := List.nodup_cons.mp hroots.nodup
    obtain ⟨hbelow, hbelows⟩ := List.forall_mem_cons.mp hroots.below
    -- the row of the command and those below it
    obtain ⟨middle, hmiddle⟩ : ∃ middle, (match root.below with
        | some child => walk commands depth child (joinWords ([] ++ [root.name]))
            (orElse root.cond []) ⟨state.rows ++ [root.row (joinWords ([] ++ [root.name])) []],
              joinWords ([] ++ [root.name]) :: state.seen⟩
        | none => some ⟨state.rows ++ [root.row (joinWords ([] ++ [root.name])) []],
            joinWords ([] ++ [root.name]) :: state.seen⟩) = some middle := by
      cases hchild : root.below with
      | none => exact ⟨_, rfl⟩
      | some child => exact walk_total hordered depth (hbelow child hchild) _ _ _
    obtain ⟨first, hfirst⟩ := entry_adds (walk_exact hnamed depth) (List.forall_mem_nil _) hname
      (hfresh root List.mem_cons_self) hmiddle hnamed
    have hne : ∀ other ∈ rest, other.name ≠ root.name := fun other hin heq =>
      hother (heq ▸ List.mem_map_of_mem hin)
    obtain ⟨state', new, hrun, hadds⟩ := ih ⟨hnames, hnodup, hbelows⟩ middle
      (fun other hin names hall hmem => hfresh other (List.mem_cons_of_mem _ hin) names hall
        (hfirst.seen_before hnamed (List.forall_mem_nil _) hname (hne other hin)
          (List.forall_mem_cons.mpr ⟨hnames other hin, hall⟩) hmem))
    refine ⟨state', first ++ new, ?_, (hfirst.append hadds ?_).iff fun row => ?_⟩
    · rw [orElse_nil] at hmiddle
      have hrow : root.row (joinWords ([] ++ [root.name])) []
          = ⟨root.name, root.argsText, root.help, root.origin, root.cond⟩ := by
        rw [EntryFields.row, orElse_nil]
        rfl
      rw [hrow] at hmiddle
      exact Option.bind_eq_some_iff.mpr ⟨middle, hmiddle, hrun⟩
    · rintro row row' hrow ⟨other, hin, hrow'⟩
      exact hrow.full_ne hnamed (List.forall_mem_nil _) hname (hnames other hin) (hne other hin).symm
        hrow'
    · constructor
      · rintro (hrow | ⟨other, hin, hrow⟩)
        · exact ⟨root, List.mem_cons_self, hrow⟩
        · exact ⟨other, List.mem_cons_of_mem _ hin, hrow⟩
      · rintro ⟨other, hin, hrow⟩
        rcases List.mem_cons.mp hin with rfl | hin
        · exact .inl hrow
        · exact .inr ⟨other, hin, hrow⟩

/-- Where no name is there twice, each entry is the first of its name. -/
theorem firstAfter_of_nodup {entries : List EntryFields}
    (hnodup : (entries.map EntryFields.name).Nodup) {fields : EntryFields} :
    FirstAfter [] entries fields ↔ fields ∈ entries := by
  refine ⟨FirstAfter.mem, fun hin => ⟨List.not_mem_nil, ?_⟩⟩
  obtain ⟨before, after, rfl⟩ := List.append_of_mem hin
  refine ⟨before, after, rfl, fun hmem => ?_⟩
  rw [List.map_append, List.map_cons] at hnodup
  exact (List.nodup_append.mp hnodup).2.2 _ hmem _ List.mem_cons_self rfl

/-- The set an argument names: not `NULL`, nothing or `0`, without an `&` in front. -/
def NamesSet (arg child : Str) : Prop :=
  (strip arg ≠ "NULL".toList ∧ strip arg ≠ [] ∧ strip arg ≠ ['0'])
    ∧ child = strip ((strip arg).dropWhile (· = '&')) ∧ child ≠ []

/-- What an entry says: its first argument is its name, the second the set below it, the third its
help, the fifth and sixth the numbers of its arguments where its macro has them. -/
structure EntryReads (entry : SourceEntry) (fields : EntryFields) : Prop where
  name : ∃ name more, entry.args = name :: more ∧ fields.name = strip name
  below : ∀ child, fields.below = some child
    ↔ ∃ name arg more, entry.args = name :: arg :: more ∧ NamesSet arg child
  help : ∀ name arg help more, entry.args = name :: arg :: help :: more →
    fields.help = literal help
  argsText : ∀ name arg help handler least extra more,
    entry.args = name :: arg :: help :: handler :: least :: extra :: more →
      fields.argsText = if entry.kind = .plain then [] else arity least extra
  origin : fields.origin = entry.origin
  cond : fields.cond = entry.guard

theorem setName_below (arg child : Str) :
    (setName arg).filter (· ≠ []) = some child ↔ NamesSet arg child := by
  unfold setName NamesSet
  dsimp only
  by_cases hnone : strip arg = "NULL".toList ∨ strip arg = [] ∨ strip arg = ['0']
  · rw [if_pos hnone]
    simp only [Option.filter_none, reduceCtorEq, false_iff]
    rintro ⟨⟨hnull, hempty, hzero⟩, -⟩
    rcases hnone with h | h | h
    · exact hnull h
    · exact hempty h
    · exact hzero h
  · rw [if_neg hnone, Option.filter_eq_some_iff, Option.some.injEq, decide_eq_true_iff]
    push Not at hnone
    exact ⟨fun h => ⟨hnone, h.1.symm, h.2⟩, fun h => ⟨h.2.1.symm, h.2.2⟩⟩

/-- **The fields of an entry** are what its arguments say. -/
theorem entryFields_reads {entry : SourceEntry} {fields : EntryFields}
    (h : entryFields entry = some fields) : EntryReads entry fields := by
  unfold entryFields at h
  cases hargs : entry.args with
  | nil =>
    rw [hargs] at h
    exact absurd h (by simp)
  | cons name more =>
    rw [hargs] at h
    obtain rfl := Option.some.inj h
    refine ⟨⟨name, more, hargs, rfl⟩, fun child => ?_, ?_, ?_, rfl, rfl⟩ <;> rw [hargs]
    · show ((more[0]?).bind setName).filter (· ≠ []) = some child ↔ _
      cases more with
      | nil => simp
      | cons arg more =>
        rw [List.getElem?_cons_zero, Option.bind_some, setName_below]
        constructor
        · exact fun hnames => ⟨name, arg, more, rfl, hnames⟩
        · rintro ⟨_, _, _, heq, hnames⟩
          obtain ⟨-, htail⟩ := List.cons.inj heq
          obtain ⟨rfl, -⟩ := List.cons.inj htail
          exact hnames
    · intro _ _ help _ heq
      obtain ⟨-, rfl⟩ := List.cons.inj heq
      rfl
    · intro _ _ _ _ least extra rest heq
      obtain ⟨-, rfl⟩ := List.cons.inj heq
      show (if entry.kind ≠ .plain ∧ 6 ≤ _ then arity least extra else []) = _
      by_cases hkind : entry.kind = .plain
      · rw [if_neg fun h => h.1 hkind, if_pos hkind]
      · rw [if_pos ⟨hkind, by simp⟩, if_neg hkind]

/-- The entries of a set are its own and then those of the points it holds, and each can be read. -/
theorem Commands.Ordered.reads {rank : Str → Nat} (hordered : commands.Ordered rank) (ref : Str) :
    ∃ added, List.Forall₂ EntryReads (commands.getSet ref ++ added) (commands.fieldsOf ref)
      ∧ ∀ entry, entry ∈ added ↔ ∃ point, (point, ref) ∈ commands.attach.entries
        ∧ entry ∈ commands.getSet ('@' :: point) := by
  refine ⟨commands.attach.entries.flatMap fun e =>
    if e.2 = ref then commands.getSet ('@' :: e.1) else [], ?_, fun entry => ?_⟩
  · have hreadable := hordered.readable ref
    unfold Commands.fieldsOf
    change List.Forall₂ EntryReads (commands.entriesOf ref) _
    generalize commands.entriesOf ref = entries at hreadable
    induction entries with
    | nil => exact .nil
    | cons entry rest ih =>
      obtain ⟨hentry, hrest⟩ := List.forall_mem_cons.mp hreadable
      obtain ⟨fields, hfields⟩ := entryFields_total hentry
      rw [List.filterMap_cons_some hfields]
      exact .cons (entryFields_reads hfields) (ih hrest)
  · rw [List.mem_flatMap]
    constructor
    · rintro ⟨⟨point, holder⟩, he, hin⟩
      by_cases hholder : holder = ref
      · subst hholder
        rw [if_pos rfl] at hin
        exact ⟨point, he, hin⟩
      · rw [if_neg hholder] at hin
        exact absurd hin List.not_mem_nil
    · rintro ⟨point, he, hin⟩
      exact ⟨(point, ref), he, by rwa [if_pos rfl]⟩

/-- A set with a nested one under a condition and a name twice, and an entry that is attached. -/
def hkSet : List SourceEntry :=
  [⟨.plain, ["list".toList, "NULL".toList], "hk.c".toList, []⟩,
    ⟨.plain, ["log".toList, "&sub_log".toList], "hk.c".toList, "CONFIG_LOG".toList⟩,
    ⟨.plain, ["list".toList, "NULL".toList], "hk.c".toList, "CONFIG_HK".toList⟩]

def logSet : List SourceEntry := [⟨.plain, ["show".toList, "NULL".toList], "log.c".toList, []⟩]

def addedSet : List SourceEntry := [⟨.add, ["more".toList, "NULL".toList], "more.c".toList, []⟩]

def exampleCommands : Commands where
  sets := ((OrderedDict.empty.set "sub_hk".toList hkSet).set "sub_log".toList logSet).set
    "@hk".toList addedSet
  attach := OrderedDict.empty.set "hk".toList "sub_hk".toList

def exampleRoot : EntryFields :=
  ⟨"hk".toList, some "sub_hk".toList, [], [], "hk.c".toList, []⟩

/-- The depth of a set. -/
def exampleRank (ref : Str) : Nat := if ref = "sub_hk".toList then 1 else 0

theorem exampleCommands_getSet (ref : Str) :
    exampleCommands.getSet ref = if ref = "@hk".toList then addedSet
      else if ref = "sub_log".toList then logSet
      else if ref = "sub_hk".toList then hkSet else [] := by
  show OrderedDict.getD (OrderedDict.set _ _ _) _ _ = _
  rw [OrderedDict.getD_set, OrderedDict.getD_set, OrderedDict.getD_set]
  rfl

theorem exampleCommands_entriesOf (ref : Str) :
    exampleCommands.entriesOf ref = exampleCommands.getSet ref
      ++ if "sub_hk".toList = ref then addedSet else [] := by
  have hadded : exampleCommands.getSet ('@' :: "hk".toList) = addedSet := by
    rw [exampleCommands_getSet, if_pos (by decide)]
  unfold Commands.entriesOf
  rw [show exampleCommands.attach.entries = [("hk".toList, "sub_hk".toList)] from rfl,
    List.flatMap_singleton, hadded]

/-- What is asked of the entries of a set. -/
def ExampleEntries (ref : Str) (entries : List SourceEntry) : Prop :=
  (∀ entry ∈ entries, entry.args ≠ [])
    ∧ ∀ fields ∈ entries.filterMap entryFields, (fields.name ≠ []
        ∧ fields.name.all (fun c => !isSpace c) = true)
      ∧ ∀ child ∈ fields.below, exampleRank child < exampleRank ref

instance (ref : Str) (entries : List SourceEntry) : Decidable (ExampleEntries ref entries) :=
  inferInstanceAs (Decidable (_ ∧ _))

theorem exampleCommands_entries (ref : Str) :
    ExampleEntries ref (exampleCommands.entriesOf ref) := by
  rw [exampleCommands_entriesOf, exampleCommands_getSet]
  by_cases hhk : ref = "sub_hk".toList
  · subst hhk
    decide
  rw [if_neg (Ne.symm hhk), if_neg hhk, List.append_nil]
  by_cases hadded : ref = "@hk".toList
  · subst hadded
    decide
  rw [if_neg hadded]
  by_cases hlog : ref = "sub_log".toList
  · subst hlog
    decide
  rw [if_neg hlog]
  exact ⟨List.forall_mem_nil _, List.forall_mem_nil _⟩

theorem isName_of_all {name : Str} (h : name ≠ [] ∧ name.all (fun c => !isSpace c) = true) :
    IsName name :=
  ⟨h.1, fun c hc => by simpa using List.all_eq_true.mp h.2 c hc⟩

/-- The rows of the example: a name that is there twice, a condition that is handed on, and an entry
that is attached. -/
def exampleRows : List CommandRow :=
  [⟨"hk".toList, [], [], "hk.c".toList, []⟩,
    ⟨"hk list".toList, [], [], "hk.c".toList, []⟩,
    ⟨"hk log".toList, [], [], "hk.c".toList, "CONFIG_LOG".toList⟩,
    ⟨"hk log show".toList, [], [], "log.c".toList, "CONFIG_LOG".toList⟩,
    ⟨"hk more".toList, [], [], "more.c".toList, []⟩]

end KFsw.Tools
