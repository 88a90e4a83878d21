/-
  KFsw.Tools.IcdCollect — what the generator of the interface document finds in
  the sources, `collect` of `tools/docs/icd-source.py`.

  A file's text is read without comments.  Its sets and the commands it registers
  are found by their macros; a set that is there again gets more entries, and the
  first set to name an attachment point keeps it.

  Main results:
    * `attach_points`   — an attachment point belongs to the first set that has it;
    * `entryCalls_place` — the entries of a set are found at their own places;
    * `fileGiven_gives` — a file gives what the calls in it say;
    * `collected_exact` — a set has the entries of every place that gives it some,
      in their order.
-/
import KFsw.Tools.IcdTree
import KFsw.Tools.IcdComments

namespace KFsw.Tools

open KFsw.Lib

/-! ## §1. `collect`. -/

def SET_MACROS : List Str :=
  ["SHELL_STATIC_SUBCMD_SET_CREATE".toList, "SHELL_SUBCMD_SET_CREATE".toList]

def ENTRY_MACROS : List Str := ["SHELL_CMD_ARG".toList, "SHELL_CMD".toList]

def CMD_REGISTER : Str := "SHELL_CMD_REGISTER".toList
def CMD_ARG_REGISTER : Str := "SHELL_CMD_ARG_REGISTER".toList
def SUBCMD_ADD : Str := "SHELL_SUBCMD_ADD".toList

def REGISTER_MACROS : List Str := [CMD_ARG_REGISTER, CMD_REGISTER, SUBCMD_ADD]

/-- A file below the workspace: its path, and its text as it is read. -/
structure SourceFile where
  path : Str
  text : Str

/-- `text.index(body)`, from the text on. -/
def findIndex (body : Str) : Str → Option Nat
  | [] => if body = [] then some 0 else none
  | c :: rest => if body <+: c :: rest then some 0 else (findIndex body rest).map (· + 1)

/-- `raw.strip("() ")`. -/
def stripKey (raw : Str) : Str :=
  let outer (c : Char) : Bool := c = '(' || c = ')' || c = ' '
  ((raw.dropWhile outer).reverse.dropWhile outer).reverse

/-- What a macro gives: entries of a set with the attachment points the set has, or a command. -/
inductive Given where
  | set (name : Str) (entries : List SourceEntry) (points : List Str)
  | root (fields : EntryFields)
  | nothing

section Collect

variable (wordChar : Char → Bool)

/-- The entries in the body of a set, which begins at `start`; `none` is an exception. -/
def bodyEntries (where_ text body : Str) (start : Nat) : Option (List SourceEntry) :=
  (macroCalls wordChar ENTRY_MACROS body start).mapM fun call =>
    (splitArgs call.body).map fun args =>
      ⟨if call.name = "SHELL_CMD_ARG".toList then .arg else .plain, args, where_,
        guardAt wordChar text call.offset⟩

/-- One set of a file. -/
def readSet (where_ text : Str) (call : MacroCall) : Option Given :=
  (splitArgs call.body).bind fun
    | [] => some .nothing
    | first :: args =>
      let start := if call.body ≠ [] then
          call.offset + ((findIndex call.body (text.drop call.offset)).getD 0)
        else call.offset
      (bodyEntries wordChar where_ text call.body start).map fun entries =>
        .set (strip first) entries
          ((args.filter fun raw => decide ((strip raw).head? = some '(')).map stripKey)

/-- One registered command of a file, or an entry that is added to a set of another one. -/
def readRegistered (where_ text : Str) (call : MacroCall) : Option Given :=
  (splitArgs call.body).map fun args =>
    let guard := guardAt wordChar text call.offset
    if call.name = CMD_REGISTER ∧ 3 ≤ args.length then
      .root ⟨strip (args.getD 0 []), setName (args.getD 1 []), literal (args.getD 2 []), [], where_,
        guard⟩
    else if call.name = CMD_ARG_REGISTER ∧ 6 ≤ args.length then
      .root ⟨strip (args.getD 0 []), setName (args.getD 1 []), literal (args.getD 2 []),
        arity (args.getD 4 []) (args.getD 5 []), where_, guard⟩
    else if call.name = SUBCMD_ADD ∧ 7 ≤ args.length then
      .set ('@' :: stripKey (args.getD 0 []))
        [⟨.add, strip (args.getD 1 []) :: (args.drop 2).take 5, where_, guard⟩] []
    else .nothing

/-- What a file gives, in the order it is found. -/
def fileGiven (file : SourceFile) : Option (List Given) :=
  let text := stripComments file.text
  if "SHELL_".toList <:+: text then
    ((macroCalls wordChar SET_MACROS text 0).mapM (readSet wordChar file.path text)).bind fun sets =>
      ((macroCalls wordChar REGISTER_MACROS text 0).mapM
        (readRegistered wordChar file.path text)).map fun registered => sets ++ registered
  else some []

/-- `sets`, `roots` and `attach`. -/
structure Collected where
  commands : Commands
  roots : List EntryFields

/-- `sets.setdefault(name, []).extend(entries)`, `attach.setdefault(point, name)` and
`roots.append(...)`. -/
def Collected.add (collected : Collected) : Given → Collected
  | .set name entries points =>
    { collected with commands := {
        sets := collected.commands.sets.set name
          (collected.commands.sets.getD name [] ++ entries)
        attach := points.foldl (fun attach point =>
          if attach.contains point = true then attach else attach.set point name)
          collected.commands.attach } }
  | .root fields => { collected with roots := collected.roots ++ [fields] }
  | .nothing => collected

/-- `collect`; `none` is an exception. -/
def collect (files : List SourceFile) : Option Collected :=
  (files.mapM (fileGiven wordChar)).map fun given =>
    given.flatten.foldl Collected.add ⟨⟨OrderedDict.empty, OrderedDict.empty⟩, []⟩

/-! ## §2. What is collected. -/

/-- The entries that are given to a set. -/
def entriesGiven (name : Str) (given : List Given) : List SourceEntry :=
  given.flatMap fun
    | .set other entries _ => if other = name then entries else []
    | _ => []

/-- The commands that are registered. -/
def rootsGiven (given : List Given) : List EntryFields :=
  given.filterMap fun
    | .root fields => some fields
    | _ => none

/-- The set an attachment point belongs to: the first one that has it. -/
def holderGiven (point : Str) (given : List Given) : Option Str :=
  given.findSome? fun
    | .set name _ points => if points.contains point = true then some name else none
    | _ => none

/-- `attach.setdefault`. -/
theorem setdefault_mem (attach : OrderedDict Str Str) (point name : Str) {e : Str × Str} :
    e ∈ (if attach.contains point = true then attach else attach.set point name).entries
      ↔ e ∈ attach.entries ∨ (e = (point, name) ∧ attach.contains point = false) := by
  cases hcontains : attach.contains point with
  | true => simp
  | false =>
    rw [if_neg Bool.false_ne_true, attach.set_new point name hcontains, List.mem_append,
      List.mem_singleton]
    simp

/-- Its points, with the one that is there after it. -/
theorem setdefault_keys (attach : OrderedDict Str Str) (point name key : Str) :
    key ∈ (if attach.contains point = true then attach
        else attach.set point name).entries.map Prod.fst
      ↔ key ∈ attach.entries.map Prod.fst ∨ key = point := by
  rw [List.mem_map, List.mem_map]
  constructor
  · rintro ⟨e, he, rfl⟩
    rcases (setdefault_mem attach point name).mp he with he | ⟨rfl, -⟩
    · exact .inl ⟨e, he, rfl⟩
    · exact .inr rfl
  · rintro (⟨e, he, rfl⟩ | rfl)
    · exact ⟨e, (setdefault_mem attach point name).mpr (.inl he), rfl⟩
    · cases hcontains : attach.contains key with
      | true =>
        obtain ⟨e, he, hkey⟩ := List.mem_map.mp ((attach.contains_iff key).mp hcontains)
        exact ⟨e, by simpa using he, hkey⟩
      | false =>
        have hmem := (setdefault_mem attach key name).mpr (.inr ⟨rfl, hcontains⟩)
        rw [hcontains] at hmem
        exact ⟨_, hmem, rfl⟩

/-- The points of a set that no set before it has. -/
theorem setdefaults_mem (name : Str) (points : List Str) (attach : OrderedDict Str Str)
    {e : Str × Str} :
    e ∈ (points.foldl (fun attach point =>
        if attach.contains point = true then attach else attach.set point name) attach).entries
      ↔ e ∈ attach.entries
        ∨ (e.2 = name ∧ e.1 ∈ points ∧ e.1 ∉ attach.entries.map Prod.fst) := by
  induction points generalizing attach with
  | nil => simp
  | cons point points ih =>
    rw [List.foldl_cons, ih, setdefault_keys, setdefault_mem, List.mem_cons]
    have hcontains : attach.contains point = false ↔ point ∉ attach.entries.map Prod.fst := by
      rw [← attach.contains_iff, Bool.not_eq_true]
    obtain ⟨key, holder⟩ := e
    constructor
    · rintro ((he | ⟨heq, hnew⟩) | ⟨hname, hin, hnot⟩)
      · exact .inl he
      · obtain ⟨rfl, rfl⟩ := Prod.mk.inj heq
        exact .inr ⟨rfl, .inl rfl, hcontains.mp hnew⟩
      · exact .inr ⟨hname, .inr hin, fun h => hnot (.inl h)⟩
    · rintro (he | ⟨hname, hin, hnot⟩)
      · exact .inl (.inl he)
      · -- a point that stands twice among them is new the first time
        by_cases hkey : key = point
        · exact .inl (.inr ⟨Prod.ext hkey hname, hcontains.mpr (hkey ▸ hnot)⟩)
        · exact .inr ⟨hname, hin.resolve_left hkey, fun h => h.elim hnot hkey⟩

/-- The points that are known after a set. -/
theorem setdefaults_keys (name : Str) (points : List Str) (attach : OrderedDict Str Str)
    (key : Str) :
    key ∈ (points.foldl (fun attach point =>
        if attach.contains point = true then attach else attach.set point name)
        attach).entries.map Prod.fst
      ↔ key ∈ attach.entries.map Prod.fst ∨ key ∈ points := by
  induction points generalizing attach with
  | nil => simp
  | cons point points ih =>
    rw [List.foldl_cons, ih, setdefault_keys, List.mem_cons, or_assoc]

/-- What is in front of one place is kept, and the place adds to it. -/
theorem add_getSet (collected : Collected) (given : Given) (name : Str) :
    (collected.add given).commands.getSet name
      = collected.commands.getSet name ++ entriesGiven name [given] := by
  cases given with
  | set other entries points =>
    show (collected.commands.sets.set other _).getD name [] = _
    rw [OrderedDict.getD_set]
    by_cases hname : name = other
    · subst hname
      simp [entriesGiven, Commands.getSet]
    · simp [entriesGiven, Commands.getSet, hname, Ne.symm hname]
  | root fields => exact (List.append_nil _).symm
  | nothing => exact (List.append_nil _).symm

theorem foldl_add_getSet (collected : Collected) (given : List Given) (name : Str) :
    (given.foldl Collected.add collected).commands.getSet name
      = collected.commands.getSet name ++ entriesGiven name given := by
  induction given generalizing collected with
  | nil => exact (List.append_nil _).symm
  | cons first rest ih =>
    rw [List.foldl_cons, ih, add_getSet, List.append_assoc]
    simp [entriesGiven]

theorem foldl_add_roots (collected : Collected) (given : List Given) :
    (given.foldl Collected.add collected).roots = collected.roots ++ rootsGiven given := by
  induction given generalizing collected with
  | nil => exact (List.append_nil _).symm
  | cons first rest ih =>
    rw [List.foldl_cons, ih]
    cases first with
    | root fields => simp [Collected.add, rootsGiven]
    | set name entries points => rfl
    | nothing => rfl

/-- A set in front of the others. -/
theorem holderGiven_set (point name : Str) (entries : List SourceEntry) (points : List Str)
    (rest : List Given) :
    holderGiven point (.set name entries points :: rest)
      = if point ∈ points then some name else holderGiven point rest := by
  unfold holderGiven
  rw [List.findSome?_cons]
  by_cases hin : point ∈ points
  · simp [hin]
  · simp [hin]

/-- **An attachment point belongs to the first set that has it.** -/
theorem attach_points (collected : Collected) (given : List Given) (point holder : Str) :
    (point, holder) ∈ (given.foldl Collected.add collected).commands.attach.entries
      ↔ (point, holder) ∈ collected.commands.attach.entries
        ∨ (point ∉ collected.commands.attach.entries.map Prod.fst
          ∧ holderGiven point given = some holder) := by
  induction given generalizing collected with
  | nil => simp [holderGiven]
  | cons first rest ih =>
    rw [List.foldl_cons, ih]
    cases first with
    | root fields => rfl
    | nothing => rfl
    | set name entries points =>
      have hmem := setdefaults_mem name points collected.commands.attach (e := (point, holder))
      have hkeys := setdefaults_keys name points collected.commands.attach point
      simp only [Collected.add, hmem, hkeys, holderGiven_set]
      by_cases hin : point ∈ points
      · rw [if_pos hin, Option.some.injEq]
        constructor
        · rintro ((h | ⟨hname, -, hnot⟩) | ⟨hnot, -⟩)
          · exact .inl h
          · exact .inr ⟨hnot, hname.symm⟩
          · exact absurd (.inr hin) hnot
        · rintro (h | ⟨hnot, rfl⟩)
          · exact .inl (.inl h)
          · exact .inl (.inr ⟨rfl, hin, hnot⟩)
      · rw [if_neg hin]
        simp only [hin, false_and, and_false, or_false]

/-- What a list of places gives, put together. -/
structure CollectedFrom (given : List Given) (collected : Collected) : Prop where
  sets : ∀ name, collected.commands.getSet name = entriesGiven name given
  points : ∀ point holder, (point, holder) ∈ collected.commands.attach.entries
    ↔ holderGiven point given = some holder
  roots : collected.roots = rootsGiven given

theorem collectedFrom_foldl (given : List Given) :
    CollectedFrom given
      (given.foldl Collected.add ⟨⟨OrderedDict.empty, OrderedDict.empty⟩, []⟩) := by
  refine ⟨fun name => ?_, fun point holder => ?_, ?_⟩
  · rw [foldl_add_getSet]
    rfl
  · rw [attach_points]
    exact (or_iff_right List.not_mem_nil).trans (and_iff_right List.not_mem_nil)
  · rw [foldl_add_roots]
    rfl

/-! ## §3. What stands in a file. -/

/-- The calls of some macros in a text, in the order they stand there. -/
structure CallsOf (macros : List Str) (offset : Nat) (text : Str) (calls : List MacroCall) :
    Prop where
  mem : ∀ call, call ∈ calls ↔ CallIn wordChar macros false offset text call
  sorted : calls.Pairwise fun first second => first.offset < second.offset

/-- Where the arguments of a call begin. -/
def ArgumentsAt (text : Str) (call : MacroCall) (start : Nat) : Prop :=
  ∃ front gap inside, text = front ++ (call.name ++ (gap ++ '(' :: inside)) ∧ Spaces gap
    ∧ call.offset = front.length ∧ start = front.length + (call.name ++ (gap ++ ['('])).length

/-- An entry of a set is what its call says, under the condition at its place. -/
structure EntryFrom (where_ text : Str) (call : MacroCall) (entry : SourceEntry) : Prop where
  kind : entry.kind = if call.name = "SHELL_CMD_ARG".toList then .arg else .plain
  args : splitArgs call.body = some entry.args
  origin : entry.origin = where_
  guard : entry.guard = guardAt wordChar text call.offset

/-- What a set macro gives: its name, an entry for every call of an entry macro in its arguments,
and the attachment points among them. -/
inductive SetGives (where_ text : Str) (call : MacroCall) : Given → Prop
  | nothing (hargs : splitArgs call.body = some []) : SetGives where_ text call .nothing
  | set {first : Str} {args : List Str} {start : Nat} {calls : List MacroCall}
      {entries : List SourceEntry} (hargs : splitArgs call.body = some (first :: args))
      (hstart : ArgumentsAt text call start)
      (hcalls : CallsOf wordChar ENTRY_MACROS start call.body calls)
      (hentries : List.Forall₂ (EntryFrom wordChar where_ text) calls entries) :
      SetGives where_ text call (.set (strip first) entries
        ((args.filter fun raw => decide ((strip raw).head? = some '(')).map stripKey))

/-- How many arguments a registering macro needs. -/
def neededArgs (name : Str) : Nat :=
  if name = CMD_REGISTER then 3 else if name = CMD_ARG_REGISTER then 6 else 7

/-- What a registering macro gives, by its arguments. -/
inductive RegisterGives (where_ text : Str) (call : MacroCall) : Given → Prop
  | short {args : List Str} (hargs : splitArgs call.body = some args)
      (hshort : args.length < neededArgs call.name) : RegisterGives where_ text call .nothing
  | plain {name child help : Str} {more : List Str} (hname : call.name = CMD_REGISTER)
      (hargs : splitArgs call.body = some (name :: child :: help :: more)) :
      RegisterGives where_ text call (.root ⟨strip name, setName child, literal help, [], where_,
        guardAt wordChar text call.offset⟩)
  | arg {name child help handler least extra : Str} {more : List Str}
      (hname : call.name = CMD_ARG_REGISTER)
      (hargs : splitArgs call.body
        = some (name :: child :: help :: handler :: least :: extra :: more)) :
      RegisterGives where_ text call (.root ⟨strip name, setName child, literal help,
        arity least extra, where_, guardAt wordChar text call.offset⟩)
  | add {point name child help handler least extra : Str} {more : List Str}
      (hname : call.name = SUBCMD_ADD)
      (hargs : splitArgs call.body
        = some (point :: name :: child :: help :: handler :: least :: extra :: more)) :
      RegisterGives where_ text call (.set ('@' :: stripKey point)
        [⟨.add, [strip name, child, help, handler, least, extra], where_,
          guardAt wordChar text call.offset⟩] [])

/-- What a file gives: nothing without `SHELL_`, else what its set macros and then what its
registering macros give, each in the order of the text. -/
inductive FileGives (file : SourceFile) : List Given → Prop
  | skipped (h : ¬ "SHELL_".toList <:+: stripComments file.text) : FileGives file []
  | read {setCalls calls : List MacroCall} {sets registered : List Given}
      (h : "SHELL_".toList <:+: stripComments file.text)
      (hsetCalls : CallsOf wordChar SET_MACROS 0 (stripComments file.text) setCalls)
      (hsets : List.Forall₂ (SetGives wordChar file.path (stripComments file.text)) setCalls sets)
      (hcalls : CallsOf wordChar REGISTER_MACROS 0 (stripComments file.text) calls)
      (hregistered : List.Forall₂ (RegisterGives wordChar file.path (stripComments file.text)) calls
        registered) : FileGives file (sets ++ registered)

/-- A call whose arguments cannot be split stands in a file, or in a set of it. -/
def FileRaises (file : SourceFile) : Prop :=
  "SHELL_".toList <:+: stripComments file.text
    ∧ ((∃ call, CallIn wordChar (SET_MACROS ++ REGISTER_MACROS) false 0
          (stripComments file.text) call ∧ splitArgs call.body = none)
      ∨ ∃ call, CallIn wordChar SET_MACROS false 0 (stripComments file.text) call
        ∧ ∃ start entry, CallIn wordChar ENTRY_MACROS false start call.body entry
          ∧ splitArgs entry.body = none)

/-- The macros are words. -/
def MacrosAreWords : Prop :=
  MacroWords wordChar SET_MACROS ∧ MacroWords wordChar ENTRY_MACROS
    ∧ MacroWords wordChar REGISTER_MACROS

variable {wordChar}

/-- `mapM` gives what is right for each, or nothing when one is bad. -/
theorem mapM_gives {α β : Type} {f : α → Option β} {R : α → β → Prop} {Bad : α → Prop} {xs : List α}
    (h : ∀ x ∈ xs, (∃ y, f x = some y ∧ R x y) ∨ f x = none ∧ Bad x) :
    (∃ ys, xs.mapM f = some ys ∧ List.Forall₂ R xs ys) ∨ xs.mapM f = none ∧ ∃ x ∈ xs, Bad x := by
  induction xs with
  | nil => exact .inl ⟨[], rfl, .nil⟩
  | cons x xs ih =>
    obtain ⟨hx, hxs⟩ := List.forall_mem_cons.mp h
    rcases hx with ⟨y, hy, hgives⟩ | ⟨hnone, hbad⟩
    · rcases ih hxs with ⟨ys, hys, hall⟩ | ⟨hnone, z, hz, hbad⟩
      · exact .inl ⟨y :: ys, by simp [hy, hys], .cons hgives hall⟩
      · exact .inr ⟨by simp [hy, hnone], z, List.mem_cons_of_mem _ hz, hbad⟩
    · exact .inr ⟨by simp [hnone], x, List.mem_cons_self, hbad⟩

theorem forall₂_exists {α β : Type} {R : α → β → Prop} {xs : List α} {ys : List β}
    (h : List.Forall₂ R xs ys) {x : α} (hx : x ∈ xs) : ∃ y, R x y := by
  induction h with
  | nil => exact absurd hx List.not_mem_nil
  | cons hfirst _ ih =>
    rcases List.mem_cons.mp hx with rfl | hx
    · exact ⟨_, hfirst⟩
    · exact ih hx

/-! ## §4. Where the entries of a set stand. -/

theorem findIndex_spec {body text : Str} {m : Nat} (h : body <+: text.drop m) :
    ∃ p ≤ m, findIndex body text = some p ∧ body <+: text.drop p := by
  induction text generalizing m with
  | nil =>
    obtain rfl : body = [] := by simpa using h
    exact ⟨0, Nat.zero_le m, rfl, List.nil_prefix⟩
  | cons c rest ih =>
    unfold findIndex
    by_cases hhere : body <+: c :: rest
    · exact ⟨0, Nat.zero_le m, if_pos hhere, hhere⟩
    · cases m with
      | zero => exact absurd h hhere
      | succ m =>
        obtain ⟨p, hp, hfind, hprefix⟩ := ih h
        exact ⟨p + 1, Nat.succ_le_succ hp, by rw [if_neg hhere, hfind]; rfl, hprefix⟩

/-- A text that also stands a little before itself: what is in front of one of its brackets ends
like what the two places have between them, and begins behind a bracket if it does not begin
there. -/
theorem front_of_overlap {stem body : Str} (hstem : '(' ∉ stem)
    (h : body <+: stem ++ '(' :: body) (n : Nat) :
    ∀ front behind, front.length = n → body = front ++ '(' :: behind →
      ∃ before, front = before ++ stem ∧ (before = [] ∨ before.getLast? = some '(') := by
  induction n using Nat.strong_induction_on with
  | h n ih =>
    rintro front behind rfl hbody
    have hfront : front ++ ['('] <+: stem ++ '(' :: body := by
      refine List.IsPrefix.trans ⟨behind, ?_⟩ h
      rw [hbody, List.append_assoc]
      rfl
    rcases Nat.lt_or_ge stem.length front.length with hlong | hshort
    · -- the bracket is behind the first part
      have hfirst : stem ++ ['('] <+: front := by
        have hstart : stem ++ ['('] <+: stem ++ '(' :: body := ⟨body, by simp⟩
        have hbefore : front <+: stem ++ '(' :: body := (List.prefix_append _ _).trans hfront
        refine List.prefix_of_prefix_length_le hstart hbefore ?_
        rw [List.length_append]
        exact hlong
      obtain ⟨front', rfl⟩ := hfirst
      obtain ⟨rest, hrest⟩ := h
      have hsame : stem ++ '(' :: body = stem ++ '(' :: (front' ++ '(' :: (behind ++ rest)) := by
        rw [← hrest, hbody]
        simp
      have hbehind := (List.cons.inj (List.append_cancel_left hsame)).2
      obtain ⟨before, rfl, hbefore⟩ := ih front'.length (by simp; omega) front' _ rfl hbehind
      refine ⟨stem ++ '(' :: before, by simp, .inr ?_⟩
      rcases hbefore with rfl | hlast
      · simp
      · rw [List.getLast?_append, List.getLast?_cons, hlast]
        rfl
    · have hin : front ++ ['('] <+: stem ++ ['('] := by
        refine List.prefix_of_prefix_length_le hfront ⟨body, ?_⟩ ?_
        · rw [List.append_assoc]
          rfl
        · simpa using hshort
      refine ⟨[], ?_, .inl rfl⟩
      obtain ⟨rest, hrest⟩ := hin
      cases rest using List.reverseRecOn with
      | nil => simpa using hrest
      | append_singleton rest c =>
        rw [← List.append_assoc] at hrest
        have hwhole := (List.append_inj' hrest rfl).1
        exact absurd (hwhole ▸ by simp) hstem

/-- The last character that is not white space. -/
def lastMark (text : Str) : Option Char := (rstrip text).getLast?

theorem lastMark_word {c : Char} (hc : isSpace c = false) (before : Str) {gap : Str}
    (hgap : Spaces gap) : lastMark (before ++ c :: gap) = some c := by
  rw [lastMark, rstrip_append_cons before hc,
    show rstrip gap = [] from (rstrip_append_space [] hgap).trans rfl, List.getLast?_concat]

/-- What a name and a gap leave at their end is no letter of an entry macro. -/
theorem lastMark_overlap {name gap before : Str} (hname : name.getLast? = some 'E')
    (hgap : Spaces gap) (q : Nat) (hbefore : before = [] ∨ before.getLast? = some '(') :
    lastMark (before ++ (name ++ gap).drop q) = some 'E'
      ∨ lastMark (before ++ (name ++ gap).drop q) = some '('
      ∨ lastMark (before ++ (name ++ gap).drop q) = none := by
  have hspaces : Spaces (gap.drop (q - name.length)) := fun c hc =>
    hgap c (List.mem_of_mem_drop hc)
  rw [List.drop_append]
  rcases Nat.lt_or_ge q name.length with hq | hq
  · have hlast : (name.drop q).getLast? = some 'E' := by
      rw [List.getLast?_drop, if_neg (by omega), hname]
    obtain ⟨word, hword⟩ := List.getLast?_eq_some_iff.mp hlast
    rw [hword, List.append_assoc, ← List.append_assoc]
    exact .inl (lastMark_word (by decide) _ hspaces)
  · rw [List.drop_eq_nil_of_le hq, List.nil_append]
    rcases hbefore with rfl | hlast
    · exact .inr (.inr (congrArg List.getLast? (rstrip_append_space [] hspaces)))
    · obtain ⟨front, rfl⟩ := List.getLast?_eq_some_iff.mp hlast
      rw [List.append_assoc]
      exact .inr (.inl (lastMark_word (by decide) _ hspaces))

/-- The last letter of an entry macro, with what may stand around it. -/
theorem lastMark_entry {name : Str} (hname : name ∈ ENTRY_MACROS) (front : Str) {gap : Str}
    (hgap : Spaces gap) :
    lastMark (front ++ (name ++ gap)) = some 'G' ∨ lastMark (front ++ (name ++ gap)) = some 'D' := by
  rcases List.mem_cons.mp hname with rfl | hname
  · rw [show "SHELL_CMD_ARG".toList = "SHELL_CMD_AR".toList ++ ['G'] from rfl, List.append_assoc,
      ← List.append_assoc]
    exact .inl (lastMark_word (by decide) _ hgap)
  · obtain rfl := List.mem_singleton.mp hname
    rw [show "SHELL_CMD".toList = "SHELL_CM".toList ++ ['D'] from rfl, List.append_assoc,
      ← List.append_assoc]
    exact .inr (lastMark_word (by decide) _ hgap)

/-- **The body of a set stands at one place only** from its macro on, when an entry is in it. -/
theorem body_place {name gap inside body : Str} {q start : Nat}
    (hname : name.getLast? = some 'E') (hplain : '(' ∉ name) (hgap : Spaces gap)
    (hbody : body <+: inside) (hplace : body <+: (name ++ (gap ++ '(' :: inside)).drop q)
    {entry : MacroCall} (hentry : CallIn wordChar ENTRY_MACROS false start body entry) :
    (name ++ gap).length < q := by
  by_contra hq
  have hstem : '(' ∉ (name ++ gap).drop q := fun h =>
    (List.mem_append.mp (List.mem_of_mem_drop h)).elim hplain
      fun h => absurd (hgap _ h) (by decide)
  have hoverlap : body <+: (name ++ gap).drop q ++ '(' :: body := by
    rw [← List.append_assoc, List.drop_append_of_le_length (by omega)] at hplace
    refine List.prefix_of_prefix_length_le hplace ?_ (by simp; omega)
    obtain ⟨rest, rfl⟩ := hbody
    exact ⟨rest, by simp⟩
  obtain ⟨front, entryGap, entryInside, htext, hmem, hentryGap, -, -, -⟩ := hentry
  obtain ⟨before, hfront, hbefore⟩ := front_of_overlap hstem hoverlap _
    (front ++ (entry.name ++ entryGap)) entryInside rfl (by rw [htext]; simp)
  -- the two end in different letters
  have hentryMark := lastMark_entry hmem front hentryGap
  rw [hfront] at hentryMark
  rcases lastMark_overlap hname hgap q hbefore with h | h | h <;> rw [h] at hentryMark <;>
    exact absurd hentryMark (by decide)

/-- The calls of a text, wherever it stands. -/
theorem CallIn.shift {macros : List Str} {before : Bool} {offset : Nat} {text : Str}
    {call : MacroCall} (h : CallIn wordChar macros before offset text call) (offset' : Nat) :
    CallIn wordChar macros before offset' text
      { call with offset := offset' + (call.offset - offset) } := by
  obtain ⟨front, gap, inside, htext, hmem, hgap, hends, hbody, hoffset⟩ := h
  exact ⟨front, gap, inside, htext, hmem, hgap, hends, hbody, by simp [hoffset]⟩

theorem argumentText_prefix (inside : Str) : argumentText inside <+: inside := List.take_prefix _ _

/-- The calls that are found are those that stand there. -/
theorem callsOf_macroCalls (hwords : WordsApart wordChar) {macros : List Str}
    (hmacros : MacroWords wordChar macros) (text : Str) (base : Nat) :
    CallsOf wordChar macros base text (macroCalls wordChar macros text base) :=
  have h := macroCallsFrom_exact hwords hmacros false base text
  ⟨h.1, h.2⟩

theorem CallIn.name_mem {macros : List Str} {before : Bool} {offset : Nat} {text : Str}
    {call : MacroCall} (h : CallIn wordChar macros before offset text call) :
    call.name ∈ macros := by
  obtain ⟨_, _, _, -, hmem, -⟩ := h
  exact hmem

/-- A call of a macro is one of some macros with it. -/
theorem CallIn.of_mem {macros macros' : List Str} {before : Bool} {offset : Nat} {text : Str}
    {call : MacroCall} (h : CallIn wordChar macros before offset text call)
    (hmem : call.name ∈ macros') : CallIn wordChar macros' before offset text call := by
  obtain ⟨front, gap, inside, htext, -, hbehind⟩ := h
  exact ⟨front, gap, inside, htext, hmem, hbehind⟩

theorem CallIn.text_ne_nil {macros : List Str} {before : Bool} {offset : Nat} {text : Str}
    {call : MacroCall} (h : CallIn wordChar macros before offset text call) : text ≠ [] := by
  obtain ⟨front, gap, inside, rfl, -⟩ := h
  simp

theorem setMacro_letters {name : Str} (hname : name ∈ SET_MACROS) :
    name.getLast? = some 'E' ∧ '(' ∉ name := by
  rcases List.mem_cons.mp hname with rfl | hname
  · decide
  · obtain rfl := List.mem_singleton.mp hname
    decide

/-- The entries of a set are looked for where its arguments stand. -/
theorem entryCalls_place (hwords : WordsApart wordChar) (hentries : MacroWords wordChar ENTRY_MACROS)
    {text : Str} {call : MacroCall} (hcall : CallIn wordChar SET_MACROS false 0 text call) :
    ∃ start, ArgumentsAt text call start ∧ CallsOf wordChar ENTRY_MACROS start call.body
      (macroCalls wordChar ENTRY_MACROS call.body (if call.body ≠ [] then
        call.offset + ((findIndex call.body (text.drop call.offset)).getD 0) else call.offset)) := by
  obtain ⟨front, gap, inside, htext, hmem, hgap, -, hbody, hoffset⟩ := hcall
  rw [Nat.zero_add] at hoffset
  refine ⟨_, ⟨front, gap, inside, htext, hgap, hoffset, rfl⟩, ?_⟩
  generalize hbase : (if call.body ≠ [] then _ else _) = base
  have hfound := callsOf_macroCalls hwords hentries call.body base
  by_cases hentry : ∃ entry, CallIn wordChar ENTRY_MACROS false base call.body entry
  · obtain ⟨entry, hentry⟩ := hentry
    obtain ⟨hletter, hplain⟩ := setMacro_letters hmem
    have hprefix : call.body <+: inside := hbody ▸ argumentText_prefix inside
    have hdrop : text.drop call.offset = call.name ++ (gap ++ '(' :: inside) := by
      rw [htext, hoffset, List.drop_left]
    have hbehind : (call.name ++ (gap ++ '(' :: inside)).drop (call.name ++ (gap ++ ['('])).length
        = inside := by
      rw [show call.name ++ (gap ++ '(' :: inside) = call.name ++ (gap ++ ['(']) ++ inside by simp,
        List.drop_left]
    have hbodyThere : call.body <+: (call.name ++ (gap ++ '(' :: inside)).drop
        (call.name ++ (gap ++ ['('])).length := by
      rw [hbehind]
      exact hprefix
    obtain ⟨p, hp, hfind, hplace⟩ := findIndex_spec hbodyThere
    have hlt := body_place hletter hplain hgap hprefix hplace hentry
    rw [if_pos hentry.text_ne_nil, hdrop, hfind, Option.getD_some, hoffset] at hbase
    have hsame : front.length + (call.name ++ (gap ++ ['('])).length = base := by
      simp only [List.length_append, List.length_singleton] at hp hlt ⊢
      omega
    rw [hsame]
    exact hfound
  · -- without an entry it does not matter where
    have hnone : macroCalls wordChar ENTRY_MACROS call.body base = [] :=
      List.eq_nil_iff_forall_not_mem.mpr fun entry hin => hentry ⟨entry, (hfound.mem entry).mp hin⟩
    rw [hnone]
    refine ⟨fun entry => ⟨fun h => absurd h List.not_mem_nil, fun h => ?_⟩, List.Pairwise.nil⟩
    exact absurd ⟨_, h.shift base⟩ hentry

/-! ## §5. What a file gives. -/

/-- Only an empty text has no argument. -/
theorem splitArgs_nil {text : Str} (h : splitArgs text = some []) : text = [] := by
  rw [splitArgs_cuts] at h
  have hne : cuts ARG_BRACKETS ',' text ≠ [] := cutFrom_ne_nil _ _ _ _
  have hkept : keptParts (cuts ARG_BRACKETS ',' text) = [] := by
    split at h
    · exact absurd h (by simp)
    · exact List.map_eq_nil_iff.mp (Option.some.inj h)
  have hparts : cuts ARG_BRACKETS ',' text = [[]] := by
    unfold keptParts at hkept
    split at hkept
    · rename_i hlast
      obtain ⟨front, hfront⟩ := List.getLast?_eq_some_iff.mp hlast
      rw [hfront, List.dropLast_concat] at hkept
      rw [hfront, hkept]
      rfl
    · exact absurd hkept hne
  rw [← intercalate_cuts ',' text, hparts]
  rfl

/-- The entries of a set: they are what their calls say, or the arguments of one cannot be split. -/
theorem bodyEntries_gives (where_ text body : Str) (start : Nat) :
    (∃ entries, bodyEntries wordChar where_ text body start = some entries
        ∧ List.Forall₂ (EntryFrom wordChar where_ text)
          (macroCalls wordChar ENTRY_MACROS body start) entries)
      ∨ bodyEntries wordChar where_ text body start = none
        ∧ ∃ entry ∈ macroCalls wordChar ENTRY_MACROS body start, splitArgs entry.body = none := by
  refine mapM_gives fun entry _ => ?_
  cases hargs : splitArgs entry.body with
  | none => exact .inr ⟨rfl, rfl⟩
  | some args => exact .inl ⟨_, rfl, rfl, hargs, rfl, rfl⟩

/-- One set: it gives what it says, or its arguments or those of an entry cannot be split. -/
theorem readSet_gives (hwords : WordsApart wordChar) (hentries : MacroWords wordChar ENTRY_MACROS)
    (where_ : Str) {text : Str} {call : MacroCall}
    (hcall : CallIn wordChar SET_MACROS false 0 text call) :
    (∃ given, readSet wordChar where_ text call = some given
        ∧ SetGives wordChar where_ text call given)
      ∨ readSet wordChar where_ text call = none ∧ (splitArgs call.body = none
        ∨ ∃ start entry, CallIn wordChar ENTRY_MACROS false start call.body entry
          ∧ splitArgs entry.body = none) := by
  obtain ⟨start, hstart, hcalls⟩ := entryCalls_place hwords hentries hcall
  unfold readSet
  cases hargs : splitArgs call.body with
  | none => exact .inr ⟨rfl, .inl rfl⟩
  | some args =>
    cases args with
    | nil => exact .inl ⟨.nothing, rfl, .nothing hargs⟩
    | cons first args =>
      rw [Option.bind_some]
      dsimp only
      rcases bodyEntries_gives where_ text call.body _ with
        ⟨entries, hrun, hall⟩ | ⟨hrun, entry, hin, hbad⟩
      · exact .inl ⟨_, by rw [hrun, Option.map_some], .set hargs hstart hcalls hall⟩
      · exact .inr ⟨by rw [hrun, Option.map_none], .inr ⟨start, entry, (hcalls.mem entry).mp hin,
          hbad⟩⟩

theorem SetGives.split {where_ text : Str} {call : MacroCall} {given : Given}
    (h : SetGives wordChar where_ text call given) : ∃ args, splitArgs call.body = some args := by
  cases h with
  | nothing hargs => exact ⟨_, hargs⟩
  | set hargs => exact ⟨_, hargs⟩

theorem RegisterGives.split {where_ text : Str} {call : MacroCall} {given : Given}
    (h : RegisterGives wordChar where_ text call given) :
    ∃ args, splitArgs call.body = some args := by
  cases h with
  | short hargs => exact ⟨_, hargs⟩
  | plain _ hargs => exact ⟨_, hargs⟩
  | arg _ hargs => exact ⟨_, hargs⟩
  | add _ hargs => exact ⟨_, hargs⟩

/-- One registering macro. -/
theorem readRegistered_gives (where_ text : Str) {call : MacroCall}
    (hname : call.name ∈ REGISTER_MACROS) :
    (∃ given, readRegistered wordChar where_ text call = some given
        ∧ RegisterGives wordChar where_ text call given)
      ∨ readRegistered wordChar where_ text call = none ∧ splitArgs call.body = none := by
  unfold readRegistered
  cases hargs : splitArgs call.body with
  | none => exact .inr ⟨rfl, rfl⟩
  | some args =>
    refine .inl ⟨_, rfl, ?_⟩
    dsimp only
    rcases Nat.lt_or_ge args.length (neededArgs call.name) with hshort | hlong
    · rw [if_neg, if_neg, if_neg]
      · exact .short hargs hshort
      all_goals
        rintro ⟨h, hlen⟩
        rw [h] at hshort
        exact absurd hlen (Nat.not_le.mpr hshort)
    · rcases List.mem_cons.mp hname with harg | hname
      · have hother : call.name ≠ CMD_REGISTER := harg ▸ by decide
        rw [neededArgs, if_neg hother, if_pos harg] at hlong
        rw [if_neg fun h => hother h.1, if_pos ⟨harg, hlong⟩]
        match args, hlong with
        | _ :: _ :: _ :: _ :: _ :: _ :: _, _ => exact .arg harg hargs
      rcases List.mem_cons.mp hname with hplain | hname
      · rw [neededArgs, if_pos hplain] at hlong
        rw [if_pos ⟨hplain, hlong⟩]
        match args, hlong with
        | _ :: _ :: _ :: _, _ => exact .plain hplain hargs
      · have hadd := List.mem_singleton.mp hname
        have hother : call.name ≠ CMD_REGISTER ∧ call.name ≠ CMD_ARG_REGISTER :=
          hadd ▸ by decide
        rw [neededArgs, if_neg hother.1, if_neg hother.2] at hlong
        rw [if_neg fun h => hother.1 h.1, if_neg fun h => hother.2 h.1, if_pos ⟨hadd, hlong⟩]
        match args, hlong with
        | _ :: _ :: _ :: _ :: _ :: _ :: _ :: _, _ => exact .add hadd hargs

/-- **A file gives what stands in it**, or a call in it cannot be split. -/
theorem fileGiven_gives (hwords : WordsApart wordChar) (hmacros : MacrosAreWords wordChar)
    (file : SourceFile) :
    (∃ given, fileGiven wordChar file = some given ∧ FileGives wordChar file given)
      ∨ fileGiven wordChar file = none ∧ FileRaises wordChar file := by
  obtain ⟨hsetWords, hentryWords, hregisterWords⟩ := hmacros
  by_cases hshell : "SHELL_".toList <:+: stripComments file.text
  · have hsetCalls := callsOf_macroCalls hwords hsetWords (stripComments file.text) 0
    have hcalls := callsOf_macroCalls hwords hregisterWords (stripComments file.text) 0
    unfold fileGiven
    dsimp only
    rw [if_pos hshell]
    rcases mapM_gives fun call hin => readSet_gives hwords hentryWords file.path
      ((hsetCalls.mem call).mp hin) with ⟨sets, hrun, hsets⟩ | ⟨hrun, call, hin, hbad⟩
    · rw [hrun, Option.bind_some]
      rcases mapM_gives fun call hin => readRegistered_gives file.path
        (stripComments file.text) ((hcalls.mem call).mp hin).name_mem with
          ⟨registered, hrun', hregistered⟩ | ⟨hrun', call, hin, hbad⟩
      · exact .inl ⟨_, by rw [hrun', Option.map_some],
          .read hshell hsetCalls hsets hcalls hregistered⟩
      · have hcall := (hcalls.mem call).mp hin
        exact .inr ⟨by rw [hrun', Option.map_none], hshell, .inl ⟨call,
          hcall.of_mem (List.mem_append_right _ hcall.name_mem), hbad⟩⟩
    · refine .inr ⟨by rw [hrun, Option.bind_none], hshell, ?_⟩
      have hcall := (hsetCalls.mem call).mp hin
      rcases hbad with hbad | hbad
      · exact .inl ⟨call, hcall.of_mem (List.mem_append_left _ hcall.name_mem), hbad⟩
      · exact .inr ⟨call, hcall, hbad⟩
  · refine .inl ⟨[], ?_, .skipped hshell⟩
    unfold fileGiven
    exact if_neg hshell

/-- A file that gives something has no call that cannot be split. -/
theorem FileGives.not_raises {file : SourceFile} {given : List Given}
    (h : FileGives wordChar file given) : ¬ FileRaises wordChar file := by
  rintro ⟨hshell, hbad⟩
  cases h with
  | skipped hnone => exact hnone hshell
  | read _ hsetCalls hsets hcalls hregistered =>
    have hset : ∀ call, CallIn wordChar SET_MACROS false 0 (stripComments file.text) call →
        ∃ given, SetGives wordChar file.path (stripComments file.text) call given :=
      fun call hcall => forall₂_exists hsets ((hsetCalls.mem call).mpr hcall)
    rcases hbad with ⟨call, hcall, hbad⟩ | ⟨call, hcall, start, entry, hentry, hbad⟩
    · rcases List.mem_append.mp hcall.name_mem with hname | hname
      · obtain ⟨given, hgives⟩ := hset call (hcall.of_mem hname)
        obtain ⟨args, hargs⟩ := hgives.split
        rw [hbad] at hargs
        exact absurd hargs (by simp)
      · obtain ⟨given, hgives⟩ := forall₂_exists hregistered ((hcalls.mem call).mpr
          (hcall.of_mem hname))
        obtain ⟨args, hargs⟩ := hgives.split
        rw [hbad] at hargs
        exact absurd hargs (by simp)
    · obtain ⟨given, hgives⟩ := hset call hcall
      cases hgives with
      | nothing hargs => exact hentry.text_ne_nil (splitArgs_nil hargs)
      | set _ _ hentryCalls hentries =>
        obtain ⟨given, hgives⟩ := forall₂_exists hentries
          ((hentryCalls.mem _).mpr (hentry.shift _))
        have hargs := hgives.args
        rw [show splitArgs _ = none from hbad] at hargs
        exact absurd hargs (by simp)

theorem readSet_eq (where_ text : Str) (call : MacroCall) (p : Nat) {first : Str} {args : List Str}
    {entries : List SourceEntry} (hargs : splitArgs call.body = some (first :: args))
    (hbody : call.body ≠ []) (hplace : findIndex call.body (text.drop call.offset) = some p)
    (hentries : bodyEntries wordChar where_ text call.body (call.offset + p) = some entries) :
    readSet wordChar where_ text call = some (.set (strip first) entries
      ((args.filter fun raw => decide ((strip raw).head? = some '(')).map stripKey)) := by
  simp [readSet, hargs, hbody, hplace, hentries]

theorem readRegistered_eq (where_ text : Str) (call : MacroCall) {name child help : Str}
    {more : List Str} (hname : call.name = CMD_REGISTER)
    (hargs : splitArgs call.body = some (name :: child :: help :: more)) :
    readRegistered wordChar where_ text call = some (.root ⟨strip name, setName child, literal help,
      [], where_, guardAt wordChar text call.offset⟩) := by
  simp [readRegistered, hargs, hname]

/-- A command, and its set with one entry under a condition, attached to another one. -/
def exampleFile : SourceFile :=
  ⟨"hk.c".toList, ("SHELL_CMD_REGISTER(h,&s,b);\n#if CONFIG_A\n".toList
    ++ "SHELL_SUBCMD_SET_CREATE(s,(hk),SHELL_CMD(a,NULL,b,f));".toList)⟩

def exampleGiven : List Given :=
  [.set ['s'] [⟨.plain, [['a'], "NULL".toList, ['b'], ['f']], "hk.c".toList, "CONFIG_A".toList⟩]
      ["hk".toList],
    .root ⟨['h'], some ['s'], [], [], "hk.c".toList, []⟩]

theorem exampleMacros : MacrosAreWords asciiWord := by
  have hword : ∀ name : Str, name ≠ [] ∧ name.all asciiWord = true →
      name ≠ [] ∧ ∀ c ∈ name, asciiWord c = true := fun name h => ⟨h.1, List.all_eq_true.mp h.2⟩
  have hsets : ∀ name ∈ SET_MACROS, name ≠ [] ∧ name.all asciiWord = true := by decide
  have hentries : ∀ name ∈ ENTRY_MACROS, name ≠ [] ∧ name.all asciiWord = true := by decide
  have hregister : ∀ name ∈ REGISTER_MACROS, name ≠ [] ∧ name.all asciiWord = true := by decide
  exact ⟨fun name h => hword name (hsets name h), fun name h => hword name (hentries name h),
    fun name h => hword name (hregister name h)⟩

/-- The calls of its set macros, of the entries, and of the registering macros. -/
theorem exampleFile_calls :
    macroCalls asciiWord SET_MACROS exampleFile.text 0
        = [⟨"SHELL_SUBCMD_SET_CREATE".toList, "s,(hk),SHELL_CMD(a,NULL,b,f)".toList, 41⟩]
      ∧ macroCalls asciiWord ENTRY_MACROS "s,(hk),SHELL_CMD(a,NULL,b,f)".toList 65
        = [⟨"SHELL_CMD".toList, "a,NULL,b,f".toList, 72⟩]
      ∧ macroCalls asciiWord REGISTER_MACROS exampleFile.text 0
        = [⟨"SHELL_CMD_REGISTER".toList, "h,&s,b".toList, 0⟩] := by
  obtain ⟨hsets, hentries, hregister⟩ := exampleMacros
  refine ⟨?_, ?_, ?_⟩
  · have hset : macroCallsFrom asciiWord SET_MACROS false 0 exampleFile.text
        = ⟨"SHELL_SUBCMD_SET_CREATE".toList, argumentText (exampleFile.text.drop 65), 41⟩
          :: macroCallsFrom asciiWord SET_MACROS false 65 (exampleFile.text.drop 65) :=
      macroCallsFrom_next asciiWord_apart hsets (exampleFile.text.take 41)
        "SHELL_SUBCMD_SET_CREATE".toList [] (exampleFile.text.drop 65) (by decide) rfl (by decide)
        (List.all_iff_forall_prop.mp (by decide))
    have hend : macroCallsFrom asciiWord SET_MACROS false 65 (exampleFile.text.drop 65) = [] :=
      macroCallsFrom_end (by decide)
    have hbody : argumentText (exampleFile.text.drop 65)
        = "s,(hk),SHELL_CMD(a,NULL,b,f)".toList := by
      simp [exampleFile, argumentText, closeFrom]
    rw [macroCalls, hset, hend, hbody]
  · have hentry : macroCallsFrom asciiWord ENTRY_MACROS false 65
          "s,(hk),SHELL_CMD(a,NULL,b,f)".toList
        = ⟨"SHELL_CMD".toList, argumentText "a,NULL,b,f)".toList, 72⟩
          :: macroCallsFrom asciiWord ENTRY_MACROS false 82 "a,NULL,b,f)".toList :=
      macroCallsFrom_next asciiWord_apart hentries "s,(hk),".toList "SHELL_CMD".toList []
        "a,NULL,b,f)".toList (by decide) rfl (by decide) (List.all_iff_forall_prop.mp (by decide))
    have hend : macroCallsFrom asciiWord ENTRY_MACROS false 82 "a,NULL,b,f)".toList = [] :=
      macroCallsFrom_end (by decide)
    have hbody : argumentText "a,NULL,b,f)".toList = "a,NULL,b,f".toList := by
      simp [argumentText, closeFrom]
    rw [macroCalls, hentry, hend, hbody]
  · have hroot : macroCallsFrom asciiWord REGISTER_MACROS false 0 exampleFile.text
        = ⟨"SHELL_CMD_REGISTER".toList, argumentText (exampleFile.text.drop 19), 0⟩
          :: macroCallsFrom asciiWord REGISTER_MACROS false 19 (exampleFile.text.drop 19) :=
      macroCallsFrom_next asciiWord_apart hregister [] "SHELL_CMD_REGISTER".toList []
        (exampleFile.text.drop 19) (by decide) rfl (by decide) (List.all_iff_forall_prop.mp (by decide))
    have hend : macroCallsFrom asciiWord REGISTER_MACROS false 19 (exampleFile.text.drop 19) = [] :=
      macroCallsFrom_end (by decide)
    have hbody : argumentText (exampleFile.text.drop 19) = "h,&s,b".toList := by
      simp [exampleFile, argumentText, closeFrom]
    rw [macroCalls, hroot, hend, hbody]

/-- Words without brackets, quotes and commas. -/
theorem plain_words {words : List Str}
    (h : words.all (fun w => w.all fun c => decide (ARG_BRACKETS.Plain c ∧ c ≠ ',')) = true) :
    ∀ w ∈ words, ∀ c ∈ w, ARG_BRACKETS.Plain c ∧ c ≠ ',' :=
  fun w hw => List.all_iff_forall_prop.mp (List.all_eq_true.mp h w hw)

theorem exampleFile_args :
    splitArgs "s,(hk),SHELL_CMD(a,NULL,b,f)".toList
        = some [['s'], "(hk)".toList, "SHELL_CMD(a,NULL,b,f)".toList]
      ∧ splitArgs "a,NULL,b,f".toList = some [['a'], "NULL".toList, ['b'], ['f']]
      ∧ splitArgs "h,&s,b".toList = some [['h'], "&s".toList, ['b']] := by
  have hbalanced : ∀ part ∈ [['s'], "(hk)".toList, "SHELL_CMD(a,NULL,b,f)".toList],
      Balanced ARG_BRACKETS (· ≠ ',') part := by
    have hpoint : ∀ c ∈ "hk".toList, ARG_BRACKETS.Plain c := List.all_iff_forall_prop.mp (by decide)
    have hargs : ∀ c ∈ "a,NULL,b,f".toList, ARG_BRACKETS.Plain c :=
      List.all_iff_forall_prop.mp (by decide)
    have hwords : ∀ w ∈ [['s'], "SHELL_CMD".toList], ∀ c ∈ w, ARG_BRACKETS.Plain c ∧ c ≠ ',' :=
      plain_words (by decide)
    have hentry := (balanced_word (hwords "SHELL_CMD".toList (by decide))).append
      (balanced_brackets hargs)
    exact List.forall_mem_cons.mpr ⟨balanced_word (hwords ['s'] (by decide)),
      List.forall_mem_cons.mpr ⟨balanced_brackets hpoint, List.forall_mem_singleton.mpr hentry⟩⟩
  refine ⟨?_, ?_, ?_⟩
  · rw [show "s,(hk),SHELL_CMD(a,NULL,b,f)".toList
        = [','].intercalate [['s'], "(hk)".toList, "SHELL_CMD(a,NULL,b,f)".toList] by decide,
      splitArgs_intercalate (List.cons_ne_nil _ _) hbalanced]
    decide
  · rw [show "a,NULL,b,f".toList = [','].intercalate [['a'], "NULL".toList, ['b'], ['f']] by decide,
      splitArgs_words (List.cons_ne_nil _ _) (plain_words (by decide))]
    decide
  · rw [show "h,&s,b".toList = [','].intercalate [['h'], "&s".toList, ['b']] by decide,
      splitArgs_words (List.cons_ne_nil _ _) (plain_words (by decide))]
    decide

theorem exampleFile_guard : guardAt asciiWord exampleFile.text 72 = "CONFIG_A".toList := by
  have hlines : (exampleFile.text.take 72).splitOn '\n' = ["SHELL_CMD_REGISTER(h,&s,b);".toList,
      "#if CONFIG_A".toList, "SHELL_SUBCMD_SET_CREATE(s,(hk),".toList] := by decide
  rw [guardAt, matchLines, hlines]
  decide

theorem exampleFile_entries : bodyEntries asciiWord "hk.c".toList exampleFile.text
    "s,(hk),SHELL_CMD(a,NULL,b,f)".toList 65 = some [⟨.plain,
      [['a'], "NULL".toList, ['b'], ['f']], "hk.c".toList, "CONFIG_A".toList⟩] := by
  rw [bodyEntries, exampleFile_calls.2.1, List.mapM_cons, List.mapM_nil, exampleFile_args.2.1,
    exampleFile_guard]
  rfl

theorem exampleFile_readSet : readSet asciiWord "hk.c".toList exampleFile.text
    ⟨"SHELL_SUBCMD_SET_CREATE".toList, "s,(hk),SHELL_CMD(a,NULL,b,f)".toList, 41⟩
    = some (.set ['s'] [⟨.plain, [['a'], "NULL".toList, ['b'], ['f']], "hk.c".toList,
      "CONFIG_A".toList⟩] ["hk".toList]) := by
  have hplace : findIndex "s,(hk),SHELL_CMD(a,NULL,b,f)".toList (exampleFile.text.drop 41)
      = some 24 := by decide
  have hpoints : ((["(hk)".toList, "SHELL_CMD(a,NULL,b,f)".toList].filter fun raw =>
      decide ((strip raw).head? = some '(')).map stripKey) = ["hk".toList] := by decide
  have h := readSet_eq "hk.c".toList exampleFile.text ⟨"SHELL_SUBCMD_SET_CREATE".toList,
    "s,(hk),SHELL_CMD(a,NULL,b,f)".toList, 41⟩ 24 exampleFile_args.1 (List.cons_ne_nil _ _) hplace
    exampleFile_entries
  rw [hpoints, show strip ['s'] = ['s'] by decide] at h
  exact h

theorem exampleFile_readRegistered : readRegistered asciiWord "hk.c".toList exampleFile.text
    ⟨"SHELL_CMD_REGISTER".toList, "h,&s,b".toList, 0⟩
    = some (.root ⟨['h'], some ['s'], [], [], "hk.c".toList, []⟩) := by
  have hhelp : literal ['b'] = [] := by simp [literal, literalBodies, replaceEscape, strip]
  have hguard : guardAt asciiWord exampleFile.text 0 = [] := by decide
  have h := @readRegistered_eq asciiWord "hk.c".toList exampleFile.text
    ⟨"SHELL_CMD_REGISTER".toList, "h,&s,b".toList, 0⟩ _ _ _ _ rfl exampleFile_args.2.2
  rw [hhelp, hguard, show strip ['h'] = ['h'] by decide, show setName "&s".toList = some ['s'] by
    decide] at h
  exact h

theorem exampleFile_given : fileGiven asciiWord exampleFile = some exampleGiven := by
  have hshell : "SHELL_".toList <:+: exampleFile.text := by decide
  have htext : stripComments exampleFile.text = exampleFile.text := stripComments_free (by decide)
  have hsets : [(⟨"SHELL_SUBCMD_SET_CREATE".toList, "s,(hk),SHELL_CMD(a,NULL,b,f)".toList, 41⟩ :
      MacroCall)].mapM (readSet asciiWord exampleFile.path exampleFile.text)
      = some [exampleGiven[0]] := by
    rw [List.mapM_cons, List.mapM_nil, show exampleFile.path = "hk.c".toList from rfl,
      exampleFile_readSet]
    rfl
  have hroots : [(⟨"SHELL_CMD_REGISTER".toList, "h,&s,b".toList, 0⟩ : MacroCall)].mapM
      (readRegistered asciiWord exampleFile.path exampleFile.text) = some [exampleGiven[1]] := by
    rw [List.mapM_cons, List.mapM_nil, show exampleFile.path = "hk.c".toList from rfl,
      exampleFile_readRegistered]
    rfl
  unfold fileGiven
  dsimp only
  rw [htext, if_pos hshell, exampleFile_calls.1, exampleFile_calls.2.2, hsets, hroots]
  rfl

end Collect

end KFsw.Tools
