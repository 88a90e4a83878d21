/-
  KFsw.App.ShellCommand — the shell side of the command registry,
  `app/src/shell/shell_command.c`.

  `kfsw_shell_run_command` looks a command up, converts its arguments, invokes it
  here or on another node and prints its reply.  It is a program over the command
  service, which may answer as it likes; a reply of the form `key=value ...` is
  printed with one line for each field.

  Main results:
    * `allFields_iff`        — the check of the form, word by word;
    * `printFields_shows`    — what is shown of a reply, wherever it was cut;
    * `parseArguments_run`   — the arguments are converted in order, each or none;
    * `runCommand_exact`     — a command is invoked once, with the arguments as
      they were converted, unless there is a reason to refuse it, which is told.
-/
import KFsw.App.Param
import KFsw.Lib.Fields

namespace KFsw.App

open KFsw.Lib Prog

/-! ## §1. Printing a reply. -/

/-- The loop of `all_fields`. -/
def allFieldsFrom (inWord hasEquals : Bool) : Text → Bool
  | [] => !inWord || hasEquals
  | c :: rest =>
    if c = ' ' then
      if (inWord && !hasEquals) = true then false else allFieldsFrom false false rest
    else allFieldsFrom true (hasEquals || c = '=') rest

/-- `all_fields`. -/
def allFields (text : Text) : Bool := allFieldsFrom false false text

/-- The line of a field of `kfsw_shell_print_fields`. -/
def fieldLine (field : Text) : Text :=
  match splitField field with
  -- a text longer than the copy loses the end of its last field
  | none => field
  | some (key, value) => key ++ ": ".toList ++ value

/-- The lines of `kfsw_shell_print_fields`, whose copy has so many bytes. -/
def printFields (detailSize : Nat) (text : Text) : List Text :=
  if text = [] ∨ allFields text = false then if text ≠ [] then [text] else []
  else (textWords (text.take (detailSize - 1))).map fieldLine

/-- What stands before the first space of a text, and the text from that space on. -/
def wordHead (text : Text) : Text := text.takeWhile (· ≠ ' ')
def wordTail (text : Text) : Text := text.dropWhile (· ≠ ' ')

@[simp] theorem wordHead_space (rest : Text) : wordHead (' ' :: rest) = [] := rfl

@[simp] theorem wordTail_space (rest : Text) : wordTail (' ' :: rest) = ' ' :: rest := rfl

theorem wordHead_cons {c : Char} (hc : c ≠ ' ') (rest : Text) :
    wordHead (c :: rest) = c :: wordHead rest := List.takeWhile_cons_of_pos (by simpa using hc)

theorem wordTail_cons {c : Char} (hc : c ≠ ' ') (rest : Text) :
    wordTail (c :: rest) = wordTail rest := List.dropWhile_cons_of_pos (by simpa using hc)

/-- What holds of every word of a text holds of its first one and of the others. -/
theorem forall_textWords {P : Text → Prop} (text : Text) :
    (∀ w ∈ textWords text, P w)
      ↔ (wordHead text ≠ [] → P (wordHead text)) ∧ ∀ w ∈ textWords (wordTail text), P w := by
  cases text with
  | nil => exact (and_iff_right (fun h => absurd rfl h)).symm
  | cons c rest =>
    by_cases hc : c = ' '
    · subst hc
      exact (and_iff_right (fun h => absurd rfl h)).symm
    · have hwords : textWords (c :: rest)
          = wordHead (c :: rest) :: textWords (wordTail (c :: rest)) := by
        have hdrop : (c :: rest).dropWhile (· = ' ') = c :: rest :=
          List.dropWhile_cons_of_neg (by simpa using hc)
        rw [textWords_eq, hdrop]
        rfl
      rw [hwords, List.forall_mem_cons, wordHead_cons hc]
      exact and_congr_left' (imp_iff_right (List.cons_ne_nil _ _)).symm

/-- The loop of `all_fields` behind a part of a word. -/
theorem allFieldsFrom_iff (inWord hasEquals : Bool) (text : Text) :
    allFieldsFrom inWord hasEquals text = true
      ↔ (inWord = true ∨ wordHead text ≠ [] → hasEquals = true ∨ '=' ∈ wordHead text)
        ∧ ∀ w ∈ textWords (wordTail text), '=' ∈ w := by
  induction text generalizing inWord hasEquals with
  | nil =>
    have hwords : textWords (wordTail []) = [] := textWords_nil
    have hhead : wordHead [] = [] := rfl
    rw [allFieldsFrom, hwords, hhead]
    cases inWord <;> cases hasEquals <;> simp
  | cons c rest ih =>
    rw [allFieldsFrom]
    by_cases hc : c = ' '
    · -- the word ends, and the next one begins anew
      subst hc
      rw [if_pos rfl, wordHead_space, wordTail_space, textWords_space, forall_textWords rest]
      by_cases hword : (inWord && !hasEquals) = true
      · rw [if_pos hword]
        simp only [Bool.and_eq_true, Bool.not_eq_true'] at hword
        simp [hword]
      · rw [if_neg hword, ih]
        simp only [Bool.and_eq_true, Bool.not_eq_true', not_and, Bool.not_eq_false] at hword
        simp only [Bool.false_eq_true, false_or, List.not_mem_nil, or_false, ne_eq,
          not_true_eq_false]
        exact (and_iff_right hword).symm
    · rw [if_neg hc, ih, wordHead_cons hc, wordTail_cons hc]
      refine and_congr_left' ?_
      rw [imp_iff_right (.inl rfl), imp_iff_right (.inr (List.cons_ne_nil _ _)), List.mem_cons,
        Bool.or_eq_true, decide_eq_true_iff, or_assoc, @eq_comm _ c]

/-- **The form is checked word by word.** -/
theorem allFields_iff (text : Text) :
    allFields text = true ↔ ∀ w ∈ textWords text, '=' ∈ w := by
  rw [allFields, allFieldsFrom_iff, forall_textWords text]
  simp only [Bool.false_eq_true, false_or]

/-- The line of a field, whole. -/
def shownField (field : KeyValue) : Text := field.key ++ ": ".toList ++ field.value

theorem fieldLine_append {key : Text} (hkey : '=' ∉ key) (value : Text) :
    fieldLine (key ++ '=' :: value) = key ++ ": ".toList ++ value := by
  rw [fieldLine, splitField_append hkey]

/-- A reply that is not of the form is printed as it is. -/
theorem printFields_text {text : Text} (hne : text ≠ []) {w : Text} (hw : w ∈ textWords text)
    (hfree : '=' ∉ w) (detailSize : Nat) : printFields detailSize text = [text] := by
  have hform : allFields text = false := by
    rw [Bool.eq_false_iff, ne_eq, allFields_iff]
    exact fun h => hfree (h w hw)
  rw [printFields, if_pos (.inr hform), if_pos hne]

/-- A reply of the form is printed word by word. -/
theorem printFields_form {text : Text} (hform : ∀ w ∈ textWords text, '=' ∈ w) {detailSize : Nat}
    (hfits : text.length < detailSize) :
    printFields detailSize text = (textWords text).map fieldLine := by
  unfold printFields
  by_cases hnil : text = []
  · subst hnil
    rw [if_pos (.inl rfl), if_neg (not_not_intro rfl), textWords_nil, List.map_nil]
  · rw [if_neg (not_or.mpr ⟨hnil, by rw [(allFields_iff text).mpr hform]; exact Bool.noConfusion⟩),
      List.take_of_length_le (by omega)]

/-- Where the text of the next field begins behind some fields. -/
def fieldsStart (fields : List KeyValue) : Nat := wordsStart (fields.map KeyValue.text)

/-- The first `n` characters of a reply have all of some fields, and not all of the next one. -/
structure FieldsCut (n : Nat) (whole behind : List KeyValue) : Prop where
  whole_kept : fieldsStart whole ≤ n + 1
  next_cut : ∀ next ∈ behind.head?, n < fieldsStart whole + next.text.length

theorem FieldsCut.words {n : Nat} {whole behind : List KeyValue} (h : FieldsCut n whole behind) :
    WordsCut n (whole.map KeyValue.text) (behind.map KeyValue.text) := by
  refine ⟨h.whole_kept, fun next hnext => ?_⟩
  rw [List.head?_map] at hnext
  obtain ⟨field, hfield, rfl⟩ := Option.map_eq_some_iff.mp hnext
  exact h.next_cut field hfield

/-- A cut of a reply falls somewhere. -/
theorem exists_fieldsCut (fields : List KeyValue) (n : Nat) :
    ∃ whole behind, fields = whole ++ behind ∧ FieldsCut n whole behind := by
  obtain ⟨_, _, hwords, hcut⟩ := exists_wordsCut (fields.map KeyValue.text) n
  obtain ⟨whole, behind, rfl, rfl, rfl⟩ := List.map_eq_append_iff.mp hwords
  refine ⟨whole, behind, rfl, hcut.whole_kept, fun next hnext => hcut.next_cut next.text ?_⟩
  rw [List.head?_map, Option.mem_def.mp hnext]
  rfl

/-- The words a cut leaves of a reply. -/
theorem FieldsCut.textWords {n : Nat} {whole behind : List KeyValue}
    (h : FieldsCut n whole behind) :
    textWords ((fieldsText (whole ++ behind)).take n)
      = whole.map KeyValue.text ++ beginning (n - fieldsStart whole) (behind.map KeyValue.text) := by
  rw [fieldsText, List.map_append]
  refine textWords_cut (fun w hw => ?_) h.words
  rw [← List.map_append] at hw
  obtain ⟨field, -, rfl⟩ := List.mem_map.mp hw
  exact field.text_word

theorem map_fieldLine (fields : List KeyValue) :
    (fields.map KeyValue.text).map fieldLine = fields.map shownField := by
  rw [List.map_map]
  exact List.map_congr_left fun field _ => fieldLine_append field.key_free field.value

theorem equals_mem_text (fields : List KeyValue) :
    ∀ w ∈ fields.map KeyValue.text, '=' ∈ w := by
  intro w hw
  obtain ⟨field, -, rfl⟩ := List.mem_map.mp hw
  exact List.mem_append_right _ List.mem_cons_self

/-- A cut behind the equals sign of a field. -/
theorem take_field (field : KeyValue) {n : Nat} (hn : field.key.length < n) :
    field.text.take n = field.key ++ '=' :: field.value.take (n - field.key.length - 1) := by
  obtain ⟨m, rfl⟩ : ∃ m, n = field.key.length + (m + 1) := ⟨n - field.key.length - 1, by omega⟩
  rw [KeyValue.text, List.take_length_add_append, List.take_succ_cons,
    show field.key.length + (m + 1) - field.key.length - 1 = m by omega]

/-- **A reply of fields is shown field by field**, as far as it goes: the fields that are whole
are shown whole, a field that is cut in its value with the beginning of it; a cut in a key makes
it one line, the reply. -/
theorem printFields_shows (fields : List KeyValue) (n detailSize : Nat)
    (hfits : ((fieldsText fields).take n).length < detailSize) :
    ((fieldsText fields).length ≤ n →
      printFields detailSize ((fieldsText fields).take n) = fields.map shownField)
    ∧ (∃ whole behind, fields = whole ++ behind ∧ FieldsCut n whole behind)
    ∧ ∀ whole behind, fields = whole ++ behind → FieldsCut n whole behind →
      (behind = [] ∨ n ≤ fieldsStart whole →
        printFields detailSize ((fieldsText fields).take n) = whole.map shownField)
      ∧ ∀ next ∈ behind.head?,
        (fieldsStart whole < n → n ≤ fieldsStart whole + next.key.length →
          printFields detailSize ((fieldsText fields).take n) = [(fieldsText fields).take n])
        ∧ (fieldsStart whole + next.key.length < n →
          printFields detailSize ((fieldsText fields).take n)
            = whole.map shownField ++ [next.key ++ ": ".toList
              ++ next.value.take (n - fieldsStart whole - next.key.length - 1)]) := by
  refine ⟨fun hall => ?_, exists_fieldsCut fields n, fun whole behind hfields hcut => ?_⟩
  · rw [List.take_of_length_le hall] at hfits ⊢
    rw [printFields_form (by rw [textWords_fieldsText]; exact equals_mem_text fields) hfits,
      textWords_fieldsText, map_fieldLine]
  subst hfields
  have hwords := hcut.textWords
  constructor
  · intro hend
    have hnone : beginning (n - fieldsStart whole) (behind.map KeyValue.text) = [] := by
      rcases hend with rfl | hend
      · rfl
      · rw [Nat.sub_eq_zero_of_le hend, beginning_zero]
    rw [hnone, List.append_nil] at hwords
    rw [printFields_form (by rw [hwords]; exact equals_mem_text whole) hfits, hwords, map_fieldLine]
  · intro next hnext
    obtain ⟨more, rfl⟩ : ∃ more, behind = next :: more := List.head?_eq_some_iff.mp hnext
    constructor
    · intro hstart hkey
      -- the word that is left is a beginning of the key
      rw [List.map_cons, beginning, if_neg (by omega), KeyValue.text,
        List.take_append_of_le_length (by omega)] at hwords
      have hlast : next.key.take (n - fieldsStart whole)
          ∈ textWords ((fieldsText (whole ++ next :: more)).take n) := by
        rw [hwords]
        exact List.mem_append_right _ List.mem_cons_self
      refine printFields_text (fun hnil => ?_) hlast
        (fun h => next.key_free (List.mem_of_mem_take h)) detailSize
      rw [hnil, textWords_nil] at hlast
      exact List.not_mem_nil hlast
    · intro hvalue
      rw [List.map_cons, beginning, if_neg (by omega), take_field next (by omega)] at hwords
      have hform : ∀ w ∈ textWords ((fieldsText (whole ++ next :: more)).take n), '=' ∈ w := by
        rw [hwords, List.forall_mem_append]
        refine ⟨equals_mem_text whole, fun w hw => ?_⟩
        obtain rfl := List.mem_singleton.mp hw
        exact List.mem_append_right _ List.mem_cons_self
      rw [printFields_form hform hfits, hwords, List.map_append, map_fieldLine, List.map_singleton,
        fieldLine_append next.key_free]

/-- A reply cut in its second value, and in its second key. -/
theorem printFields_shows_cut :
    let fields : List KeyValue :=
      [⟨"mode".toList, "safe".toList, by decide, by decide, by decide⟩,
        ⟨"resets".toList, "412".toList, by decide, by decide, by decide⟩]
    printFields 32 ((fieldsText fields).take 18) = ["mode: safe".toList, "resets: 4".toList]
      ∧ printFields 32 ((fieldsText fields).take 13) = ["mode=safe res".toList] := by
  intro fields
  have hvalue := (printFields_shows fields 18 32 (by decide)).2.2 [fields[0]] [fields[1]] rfl
    ⟨by decide, by decide⟩
  have hkey := (printFields_shows fields 13 32 (by decide)).2.2 [fields[0]] [fields[1]] rfl
    ⟨by decide, by decide⟩
  exact ⟨(hvalue.2 _ rfl).2 (by decide), (hkey.2 _ rfl).1 (by decide) (by decide)⟩

/-! ## §2. The command. -/

/-- `struct kfsw_command_info`: the numbers of the argument types, `arg_count` of them. -/
structure CommandInfo where
  argTypes : List Nat

/-- `struct kfsw_command_result`: whether `status` is `KFSW_COMMAND_OK`, its name, and the text. -/
structure ShellReply where
  ok : Bool
  statusName : Text
  detail : Text
  deriving DecidableEq

/-- What the shell side of the registry calls; `ω` is a converted argument. -/
inductive CommandCall (ω : Type) where
  | isInitialized
  | find (name : Text)
  | parseArg (text : Text) (type : Nat)
  | invoke (name : Text) (args : List ω)
  | invokeRemote (node : UInt16) (name : Text) (args : List ω) (retry : Bool)
  /-- `shell_print`, `shell_error` and `kfsw_log_warning`. -/
  | print (line : Text)
  | error (line : Text)
  | warning (line : Text)

abbrev CommandAnswer {ω : Type} : CommandCall ω → Type
  | .isInitialized => Bool
  | .find _ => Int × CommandInfo
  | .parseArg _ _ => Int × ω
  | .invoke _ _ => ShellReply
  | .invokeRemote _ _ _ _ => Int × ShellReply
  | .print _ | .error _ | .warning _ => Unit

variable {ω : Type}

abbrev CommandProg (ω α : Type) := Prog (CommandCall ω) CommandAnswer α

abbrev CommandTrace (ω : Type) := List (Sigma (CommandAnswer (ω := ω)))

/-- What the build gives. -/
structure CommandConfig where
  /-- `CONFIG_KFSW_COMMAND_CSP`. -/
  commandCsp : Bool
  /-- `KFSW_COMMAND_MAX_TEXT_SIZE` and `KFSW_COMMAND_MAX_DETAIL_SIZE`. -/
  maxTextSize : Nat
  maxDetailSize : Nat

variable (cfg : CommandConfig)

/-- `KFSW_SHELL_THIS_NODE`. -/
def SHELL_THIS_NODE : UInt16 := 0

/-- Lines of `shell_print`, one after the other. -/
def printReply : List Text → CommandProg ω Unit
  | [] => .done ()
  | line :: lines => .call (.print line) fun _ => printReply lines

/-- The error of an argument that is not converted. -/
def argumentError (text : Text) (type : Nat) (outcome : Int) : Text :=
  if outcome = -ENAMETOOLONG then
    "argument is longer than ".toList ++ Nat.toDigits 10 cfg.maxTextSize ++ " bytes".toList
  else if outcome = -ENOTSUP then
    "argument type ".toList ++ Nat.toDigits 10 type ++ " is not supported here".toList
  else "invalid argument '".toList ++ text ++ ['\'']

/-- The loop over the arguments, `parse_argument` on each. -/
def parseArguments : List Text → List Nat → CommandProg ω (Except Int (List ω))
  | text :: texts, type :: types =>
    .call (.parseArg text type) fun (parsed : Int × ω) =>
      if parsed.1 ≠ 0 then
        .call (.error (argumentError cfg text type parsed.1)) fun _ => .done (.error parsed.1)
      else (parseArguments texts types).bind fun args => .done (args.map (parsed.2 :: ·))
  | _, _ => .done (.ok [])

/-- The end of `kfsw_shell_run_command`, with the reply of the command. -/
def replyShown (node : UInt16) (name : Text) (reply : ShellReply) : CommandProg ω Int :=
  if reply.ok = false then
    .call (.error (name ++ ": ".toList ++ reply.statusName
      ++ (if reply.detail ≠ [] then ", ".toList else []) ++ reply.detail)) fun _ => .done (- EIO)
  else
    (printReply ((if node ≠ SHELL_THIS_NODE then ["node: ".toList ++ Nat.toDigits 10 node.toNat]
      else []) ++ printFields cfg.maxDetailSize reply.detail)).bind fun _ => .done 0

/-- `invoke_remote`, and what follows on its outcome. -/
def invokeRemote (node : UInt16) (name : Text) (args : List ω) (retry : Bool) :
    CommandProg ω Int :=
  if cfg.commandCsp = true then
    .call (.invokeRemote node name args retry) fun (answer : Int × ShellReply) =>
      if answer.1 ≠ 0 then
        .call (if kfswShellNoAnswer answer.1 = true then
            .warning (remoteFailedLine name node answer.1)
          else .error (remoteFailedLine name node answer.1)) fun _ => .done answer.1
      else replyShown cfg node name answer.2
  else
    .call (.error "Reaching another node needs CONFIG_KFSW_COMMAND_CSP".toList) fun _ =>
      .done (-ENOTSUP)

/-- Whether the last argument asks for a ticket; it is none of the command's own then. -/
def asksRetry (node : UInt16) (argv : List Text) : Bool :=
  decide (node ≠ SHELL_THIS_NODE) && decide (argv.getLast? = some RETRY)

/-- The arguments of the command itself. -/
def commandArgs (node : UInt16) (argv : List Text) : List Text :=
  if asksRetry node argv = true then argv.dropLast else argv

/-- `kfsw_shell_run_command`; `argv` is what stands behind the name. -/
def kfswShellRunCommand (node : UInt16) (name : Text) (argv : List Text) : CommandProg ω Int :=
  .call .isInitialized fun (ready : Bool) =>
    if ready = false then
      .call (.error "Command registry is not initialized".toList) fun _ => .done (-EACCES)
    else
      .call (.find name) fun (found : Int × CommandInfo) =>
        if found.1 ≠ 0 then
          .call (.error (name ++ " is not in this build".toList)) fun _ => .done (-ENOENT)
        else if (commandArgs node argv).length ≠ found.2.argTypes.length then
          .call (.error (name ++ " takes ".toList ++ Nat.toDigits 10 found.2.argTypes.length
            ++ " argument(s), got ".toList ++ Nat.toDigits 10 (commandArgs node argv).length))
            fun _ => .done (-EINVAL)
        else
          (parseArguments cfg (commandArgs node argv) found.2.argTypes).bind fun parsed =>
            match parsed with
            | .error outcome => .done outcome
            | .ok args =>
              if node = SHELL_THIS_NODE then
                .call (.invoke name args) fun (reply : ShellReply) => replyShown cfg node name reply
              else invokeRemote cfg node name args (asksRetry node argv)

/-! ## §3. What a run does. -/

/-- A command that was invoked, with the outcome of reaching its node and its reply. -/
structure Invocation (ω : Type) where
  node : UInt16
  name : Text
  args : List ω
  retry : Bool
  outcome : Int
  reply : ShellReply
  deriving DecidableEq

/-- The commands a run invokes. -/
def invocations (trace : CommandTrace ω) : List (Invocation ω) :=
  trace.filterMap fun
    | ⟨.invoke name args, reply⟩ => some ⟨SHELL_THIS_NODE, name, args, false, 0, reply⟩
    | ⟨.invokeRemote node name args retry, answer⟩ =>
      some ⟨node, name, args, retry, answer.1, answer.2⟩
    | _ => none

/-- A text with its type, the outcome of its conversion, and the value. -/
abbrev Conversion (ω : Type) := Text × Nat × Int × ω

/-- The conversions of a run. -/
def conversions (trace : CommandTrace ω) : List (Conversion ω) :=
  trace.filterMap fun
    | ⟨.parseArg text type, parsed⟩ => some (text, type, parsed)
    | _ => none

/-- The lines a run prints. -/
def replyLines (trace : CommandTrace ω) : List Text :=
  trace.filterMap fun e => match e.1 with
    | .print line => some line
    | _ => none

/-- The errors and warnings of a run. -/
def complaints (trace : CommandTrace ω) : List Text :=
  trace.filterMap fun e => match e.1 with
    | .error line | .warning line => some line
    | _ => none

/-- What a part of a run does, in whole. -/
structure RunsAs (trace : CommandTrace ω) (converted : List (Conversion ω))
    (invoked : List (Invocation ω)) (lines said : List Text) : Prop where
  conversions : conversions trace = converted
  invocations : invocations trace = invoked
  lines : replyLines trace = lines
  complaints : complaints trace = said

theorem RunsAs.append {first second : CommandTrace ω} {converted converted' : List (Conversion ω)}
    {invoked invoked' : List (Invocation ω)} {lines lines' said said' : List Text}
    (h : RunsAs first converted invoked lines said)
    (h' : RunsAs second converted' invoked' lines' said') :
    RunsAs (first ++ second) (converted ++ converted') (invoked ++ invoked') (lines ++ lines')
      (said ++ said') := by
  constructor
  · rw [KFsw.App.conversions, List.filterMap_append, ← h.conversions, ← h'.conversions]
    rfl
  · rw [KFsw.App.invocations, List.filterMap_append, ← h.invocations, ← h'.invocations]
    rfl
  · rw [replyLines, List.filterMap_append, ← h.lines, ← h'.lines]
    rfl
  · rw [KFsw.App.complaints, List.filterMap_append, ← h.complaints, ← h'.complaints]
    rfl

theorem runsAs_nil : RunsAs (ω := ω) [] [] [] [] [] := ⟨rfl, rfl, rfl, rfl⟩

theorem printReply_run {lines : List Text} {trace : CommandTrace ω} {a : Unit}
    (h : (printReply (ω := ω) lines).Runs trace a) : RunsAs trace [] [] lines [] := by
  induction lines generalizing trace with
  | nil =>
    obtain ⟨rfl, -⟩ := runs_done.mp h
    exact runsAs_nil
  | cons line lines ih =>
    obtain ⟨r, rest, rfl, hrest⟩ := runs_call.mp h
    have hline : RunsAs (ω := ω) [⟨.print line, r⟩] [] [] [line] [] := ⟨rfl, rfl, rfl, rfl⟩
    exact hline.append (ih hrest)

/-- A part of a run that refuses the command: one error, and its result. -/
theorem refusal_run {line : Text} {code result : Int} {trace : CommandTrace ω}
    (h : (Prog.call (.error line) fun _ => .done code : CommandProg ω Int).Runs trace result) :
    result = code ∧ RunsAs trace [] [] [] [line] := by
  obtain ⟨r, rest, rfl, hdone⟩ := runs_call.mp h
  obtain ⟨rfl, rfl⟩ := runs_done.mp hdone
  exact ⟨rfl, rfl, rfl, rfl, rfl⟩

/-- The arguments with their types and the values they are converted to. -/
def convertedTo : List Text → List Nat → List ω → List (Conversion ω)
  | text :: texts, type :: types, arg :: args =>
    (text, type, 0, arg) :: convertedTo texts types args
  | _, _, _ => []

/-- The conversions up to the first argument that is refused, that argument with its type, and the
outcome. -/
inductive StopsAt : List Text → List Nat → List (Conversion ω) → Text → Nat → Int → Prop where
  | here {texts types text type outcome} (value : ω) (hne : outcome ≠ 0) :
      StopsAt (text :: texts) (type :: types) [(text, type, outcome, value)] text type outcome
  | later {texts types converted text type outcome} (before : Text) (taken : Nat) (arg : ω)
      (h : StopsAt texts types converted text type outcome) :
      StopsAt (before :: texts) (taken :: types) ((before, taken, 0, arg) :: converted) text type
        outcome

theorem StopsAt.outcome_ne {texts : List Text} {types : List Nat} {converted : List (Conversion ω)}
    {text : Text} {type : Nat} {outcome : Int}
    (h : StopsAt texts types converted text type outcome) : outcome ≠ 0 := by
  induction h with
  | here _ hne => exact hne
  | later _ _ _ _ ih => exact ih

/-- Arguments that were all converted did not stop. -/
theorem StopsAt.ne_convertedTo {texts : List Text} {types : List Nat}
    {converted : List (Conversion ω)} {text : Text} {type : Nat} {outcome : Int}
    (h : StopsAt texts types converted text type outcome) (args : List ω) :
    converted ≠ convertedTo texts types args := by
  induction h generalizing args with
  | here value hne =>
    cases args with
    | nil => exact List.cons_ne_nil _ _
    | cons arg args =>
      intro heq
      rw [convertedTo, List.cons.injEq, Prod.mk.injEq, Prod.mk.injEq, Prod.mk.injEq] at heq
      exact hne heq.1.2.2.1
  | later before taken arg _ ih =>
    cases args with
    | nil => exact List.cons_ne_nil _ _
    | cons arg args =>
      intro heq
      rw [convertedTo, List.cons.injEq] at heq
      exact ih args heq.2

variable {cfg}

/-- **Converting the arguments** either converts each of them, in order, or stops at the first one
that is refused and says why. -/
theorem parseArguments_run {texts : List Text} {types : List Nat}
    {parsed : Except Int (List ω)} {trace : CommandTrace ω}
    (h : (parseArguments cfg texts types).Runs trace parsed) (hlen : texts.length = types.length) :
    (∃ args, parsed = .ok args ∧ args.length = texts.length
        ∧ RunsAs trace (convertedTo texts types args) [] [] [])
      ∨ ∃ converted text type outcome, parsed = .error outcome
        ∧ StopsAt texts types converted text type outcome
        ∧ RunsAs trace converted [] [] [argumentError cfg text type outcome] := by
  induction texts generalizing types parsed trace with
  | nil =>
    rw [parseArguments.eq_2 _ _ _ (by rintro _ _ _ _ h; cases h)] at h
    obtain ⟨rfl, rfl⟩ := runs_done.mp h
    exact .inl ⟨[], rfl, rfl, runsAs_nil⟩
  | cons text texts ih =>
    cases types with
    | nil => exact absurd hlen (by simp)
    | cons type types =>
      rw [parseArguments] at h
      obtain ⟨reply, rest, rfl, hrest⟩ := runs_call.mp h
      have hconv : RunsAs (ω := ω) [⟨.parseArg text type, reply⟩] [(text, type, reply)] [] [] [] :=
        ⟨rfl, rfl, rfl, rfl⟩
      by_cases hbad : reply.1 ≠ 0
      · rw [if_pos hbad] at hrest
        obtain ⟨said, after, rfl, hdone⟩ := runs_call.mp hrest
        obtain ⟨rfl, rfl⟩ := runs_done.mp hdone
        exact .inr ⟨_, text, type, reply.1, rfl, .here reply.2 hbad, rfl, rfl, rfl, rfl⟩
      · have hzero : reply = (0, reply.2) := Prod.ext (not_not.mp hbad) rfl
        rw [if_neg hbad] at hrest
        obtain ⟨first, second, behind, rfl, hfirst, hsecond⟩ := runs_bind.mp hrest
        obtain ⟨rfl, rfl⟩ := runs_done.mp hsecond
        rw [List.append_nil]
        rcases ih hfirst (Nat.succ.inj hlen) with ⟨args, rfl, hargs, hdid⟩
          | ⟨converted, text', type', outcome, rfl, hstops, hdid⟩
        · refine .inl ⟨reply.2 :: args, rfl, congrArg Nat.succ hargs, ?_⟩
          have hall := hconv.append hdid
          rw [hzero] at hall ⊢
          exact hall
        · refine .inr ⟨_, text', type', outcome, rfl, .later text type reply.2 hstops, ?_⟩
          have hall := hconv.append hdid
          rw [hzero] at hall ⊢
          exact hall

/-- The lines of a reply, with the node it came from. -/
def shownReply (cfg : CommandConfig) (node : UInt16) (reply : ShellReply) : List Text :=
  (if node ≠ SHELL_THIS_NODE then ["node: ".toList ++ Nat.toDigits 10 node.toNat] else [])
    ++ printFields cfg.maxDetailSize reply.detail

/-- How a run ends after its command was answered. -/
def Settled (cfg : CommandConfig) (node : UInt16) (reply : ShellReply) (result : Int)
    (lines said : List Text) : Prop :=
  (reply.ok = true ∧ result = 0 ∧ lines = shownReply cfg node reply ∧ said = [])
    ∨ (reply.ok = false ∧ result = - EIO ∧ lines = [] ∧ said.length = 1)

theorem replyShown_run {node : UInt16} {name : Text} {reply : ShellReply} {result : Int}
    {trace : CommandTrace ω} (h : (replyShown (ω := ω) cfg node name reply).Runs trace result) :
    ∃ lines said, RunsAs trace [] [] lines said ∧ Settled cfg node reply result lines said := by
  unfold replyShown at h
  cases hok : reply.ok with
  | false =>
    rw [if_pos hok] at h
    obtain ⟨rfl, hdid⟩ := refusal_run h
    exact ⟨_, _, hdid, .inr ⟨hok, rfl, rfl, rfl⟩⟩
  | true =>
    rw [if_neg (by rw [hok]; exact Bool.noConfusion)] at h
    obtain ⟨first, second, _, rfl, hfirst, hsecond⟩ := runs_bind.mp h
    obtain ⟨rfl, rfl⟩ := runs_done.mp hsecond
    rw [List.append_nil]
    exact ⟨_, _, printReply_run hfirst, .inl ⟨hok, rfl, rfl, rfl⟩⟩

theorem failure_run {noAnswer : Bool} {line : Text} {code result : Int} {trace : CommandTrace ω}
    (h : (Prog.call (if noAnswer = true then .warning line else .error line) fun _ => .done code :
      CommandProg ω Int).Runs trace result) :
    result = code ∧ RunsAs trace [] [] [] [line] := by
  cases noAnswer with
  | false => exact refusal_run h
  | true =>
    obtain ⟨r, rest, rfl, hdone⟩ := runs_call.mp h
    obtain ⟨rfl, rfl⟩ := runs_done.mp hdone
    exact ⟨rfl, rfl, rfl, rfl, rfl⟩

/-- **A command of another node** is sent once, and its outcome told. -/
theorem invokeRemote_run {node : UInt16} {name : Text} {args : List ω} {retry : Bool}
    {result : Int} {trace : CommandTrace ω}
    (h : (invokeRemote cfg node name args retry).Runs trace result) :
    (RunsAs trace [] [] [] ["Reaching another node needs CONFIG_KFSW_COMMAND_CSP".toList]
        ∧ result = -ENOTSUP ∧ cfg.commandCsp = false)
      ∨ ∃ outcome reply lines said,
        RunsAs trace [] [⟨node, name, args, retry, outcome, reply⟩] lines said
          ∧ cfg.commandCsp = true
          ∧ (outcome = 0 ∧ Settled cfg node reply result lines said
            ∨ outcome ≠ 0 ∧ result = outcome ∧ lines = []
              ∧ said = [remoteFailedLine name node outcome]) := by
  unfold invokeRemote at h
  cases hcsp : cfg.commandCsp with
  | false =>
    rw [if_neg (by rw [hcsp]; exact Bool.noConfusion)] at h
    obtain ⟨rfl, hdid⟩ := refusal_run h
    exact .inl ⟨hdid, rfl, rfl⟩
  | true =>
    rw [if_pos hcsp] at h
    obtain ⟨answer, rest, rfl, hrest⟩ := runs_call.mp h
    have hsent : RunsAs (ω := ω) [⟨.invokeRemote node name args retry, answer⟩] []
        [⟨node, name, args, retry, answer.1, answer.2⟩] [] [] := ⟨rfl, rfl, rfl, rfl⟩
    by_cases houtcome : answer.1 ≠ 0
    · rw [if_pos houtcome] at hrest
      obtain ⟨rfl, htold⟩ := failure_run hrest
      exact .inr ⟨_, _, _, _, hsent.append htold, rfl, .inr ⟨houtcome, rfl, rfl, rfl⟩⟩
    · rw [if_neg houtcome] at hrest
      obtain ⟨lines, said, hdid, hend⟩ := replyShown_run hrest
      exact .inr ⟨_, _, _, _, hsent.append hdid, rfl, .inl ⟨not_not.mp houtcome, hend⟩⟩

/-- A command with its arguments is invoked where it was asked for, unless that is on a node which
the build cannot reach. -/
theorem dispatch_run {node : UInt16} {name : Text} {argv : List Text} {args : List ω}
    {result : Int} {trace : CommandTrace ω}
    (h : (if node = SHELL_THIS_NODE then
        .call (.invoke name args) fun (reply : ShellReply) => replyShown cfg node name reply
      else invokeRemote cfg node name args (asksRetry node argv) : CommandProg ω Int).Runs trace
        result) :
    (RunsAs trace [] [] [] ["Reaching another node needs CONFIG_KFSW_COMMAND_CSP".toList]
        ∧ result = -ENOTSUP ∧ node ≠ SHELL_THIS_NODE ∧ cfg.commandCsp = false)
      ∨ ∃ outcome reply lines said,
        RunsAs trace [] [⟨node, name, args, asksRetry node argv, outcome, reply⟩] lines said
          ∧ (node = SHELL_THIS_NODE ∨ cfg.commandCsp = true)
          ∧ (outcome = 0 ∧ Settled cfg node reply result lines said
            ∨ outcome ≠ 0 ∧ result = outcome ∧ lines = []
              ∧ said = [remoteFailedLine name node outcome]) := by
  by_cases hnode : node = SHELL_THIS_NODE
  · subst hnode
    rw [if_pos rfl] at h
    obtain ⟨reply, after, rfl, hafter⟩ := runs_call.mp h
    obtain ⟨lines, said, hdid, hend⟩ := replyShown_run hafter
    have hsent : RunsAs (ω := ω) [⟨.invoke name args, reply⟩] []
        [⟨SHELL_THIS_NODE, name, args, false, 0, reply⟩] [] [] := ⟨rfl, rfl, rfl, rfl⟩
    exact .inr ⟨0, reply, lines, said, hsent.append hdid, .inl rfl, .inl ⟨rfl, hend⟩⟩
  · rw [if_neg hnode] at h
    rcases invokeRemote_run h with ⟨hdid, hresult, hcsp⟩
      | ⟨outcome, reply, lines, said, hdid, hcsp, hend⟩
    · exact .inl ⟨hdid, hresult, hnode, hcsp⟩
    · exact .inr ⟨outcome, reply, lines, said, hdid, .inr hcsp, hend⟩

/-- The registry is ready and knows the name. -/
def KnownAs (trace : CommandTrace ω) (name : Text) (info : CommandInfo) : Prop :=
  ∃ rest, trace = ⟨.isInitialized, true⟩ :: ⟨.find name, (0, info)⟩ :: rest

theorem KnownAs.unique {trace : CommandTrace ω} {name : Text} {info info' : CommandInfo}
    (h : KnownAs trace name info) (h' : KnownAs trace name info') : info = info' := by
  obtain ⟨rest, rfl⟩ := h
  obtain ⟨rest', heq⟩ := h'
  have hfound := (List.cons.inj (List.cons.inj heq).2).1
  simp only [Sigma.mk.injEq, heq_eq_eq, Prod.mk.injEq, true_and] at hfound
  exact hfound

/-- Why a command is refused, with its result and the line that says so. -/
inductive Refusal (cfg : CommandConfig) (node : UInt16) (name : Text) (argv : List Text)
    (trace : CommandTrace ω) : Int → Text → Prop where
  | notReady (rest : CommandTrace ω) (h : trace = ⟨.isInitialized, false⟩ :: rest) :
      Refusal cfg node name argv trace (-EACCES) "Command registry is not initialized".toList
  | unknown (rest : CommandTrace ω) (found : Int × CommandInfo)
      (h : trace = ⟨.isInitialized, true⟩ :: ⟨.find name, found⟩ :: rest) (hne : found.1 ≠ 0) :
      Refusal cfg node name argv trace (-ENOENT) (name ++ " is not in this build".toList)
  | argCount (info : CommandInfo) (h : KnownAs trace name info)
      (hne : (commandArgs node argv).length ≠ info.argTypes.length) :
      Refusal cfg node name argv trace (-EINVAL)
        (name ++ " takes ".toList ++ Nat.toDigits 10 info.argTypes.length
          ++ " argument(s), got ".toList ++ Nat.toDigits 10 (commandArgs node argv).length)
  | badArg (info : CommandInfo) (text : Text) (type : Nat) (outcome : Int)
      (h : KnownAs trace name info)
      (hstops : StopsAt (commandArgs node argv) info.argTypes (conversions trace) text type
        outcome) :
      Refusal cfg node name argv trace outcome (argumentError cfg text type outcome)
  | noRemote (info : CommandInfo) (h : KnownAs trace name info) (hnode : node ≠ SHELL_THIS_NODE)
      (hcsp : cfg.commandCsp = false) :
      Refusal cfg node name argv trace (-ENOTSUP)
        "Reaching another node needs CONFIG_KFSW_COMMAND_CSP".toList

/-- A command that is refused: nothing is invoked or printed, and one line says why. -/
def Refused (trace : CommandTrace ω) (result : Int) (line : Text) : Prop :=
  result ≠ 0 ∧ invocations trace = [] ∧ replyLines trace = [] ∧ complaints trace = [line]

theorem RunsAs.refused {trace : CommandTrace ω} {converted : List (Conversion ω)} {line : Text}
    {result : Int} (h : RunsAs trace converted [] [] [line]) (hne : result ≠ 0) :
    Refused trace result line := ⟨hne, h.invocations, h.lines, h.complaints⟩

/-- A command that is invoked once, on the node asked for, with every argument converted. -/
structure InvokedOnce (cfg : CommandConfig) (node : UInt16) (name : Text) (argv : List Text)
    (trace : CommandTrace ω) (result : Int) (info : CommandInfo) (args : List ω) (outcome : Int)
    (reply : ShellReply) : Prop where
  known : KnownAs trace name info
  reached : node = SHELL_THIS_NODE ∨ cfg.commandCsp = true
  count : (commandArgs node argv).length = info.argTypes.length
    ∧ args.length = info.argTypes.length
  converted : conversions trace = convertedTo (commandArgs node argv) info.argTypes args
  invoked : invocations trace = [⟨node, name, args, asksRetry node argv, outcome, reply⟩]
  ended : outcome = 0 ∧ Settled cfg node reply result (replyLines trace) (complaints trace)
    ∨ outcome ≠ 0 ∧ result = outcome ∧ replyLines trace = []
      ∧ complaints trace = [remoteFailedLine name node outcome]

/-- There was no reason to refuse it. -/
theorem InvokedOnce.not_refusal {node : UInt16} {name : Text} {argv : List Text}
    {trace : CommandTrace ω} {result : Int} {info : CommandInfo} {args : List ω} {outcome : Int}
    {reply : ShellReply} (h : InvokedOnce cfg node name argv trace result info args outcome reply)
    (code : Int) (line : Text) : ¬ Refusal cfg node name argv trace code line := by
  intro hrefusal
  obtain ⟨rest, hknown⟩ := h.known
  cases hrefusal with
  | notReady rest' htrace =>
    rw [hknown] at htrace
    exact absurd (List.cons.inj htrace).1 (by simp)
  | unknown rest' found htrace hne =>
    rw [hknown] at htrace
    have hfound := (List.cons.inj (List.cons.inj htrace).2).1
    simp only [Sigma.mk.injEq, heq_eq_eq, true_and] at hfound
    exact hne (congrArg Prod.fst hfound.symm)
  | argCount info' hknown' hne =>
    obtain rfl := h.known.unique hknown'
    exact hne h.count.1
  | badArg info' text type outcome' hknown' hstops =>
    obtain rfl := h.known.unique hknown'
    exact hstops.ne_convertedTo args h.converted
  | noRemote info' hknown' hnode hcsp =>
    rcases h.reached with hhere | hremote
    · exact hnode hhere
    · rw [hcsp] at hremote
      exact Bool.noConfusion hremote

theorem RunsAs.invokedOnce {node : UInt16} {name : Text} {argv : List Text}
    {trace : CommandTrace ω} {result : Int} {info : CommandInfo} {args : List ω} {outcome : Int}
    {reply : ShellReply} {lines said : List Text}
    (h : RunsAs trace (convertedTo (commandArgs node argv) info.argTypes args)
      [⟨node, name, args, asksRetry node argv, outcome, reply⟩] lines said)
    (hknown : KnownAs trace name info) (hreached : node = SHELL_THIS_NODE ∨ cfg.commandCsp = true)
    (hlen : (commandArgs node argv).length = info.argTypes.length)
    (hargs : args.length = (commandArgs node argv).length)
    (hend : outcome = 0 ∧ Settled cfg node reply result lines said
      ∨ outcome ≠ 0 ∧ result = outcome ∧ lines = []
        ∧ said = [remoteFailedLine name node outcome]) :
    InvokedOnce cfg node name argv trace result info args outcome reply := by
  refine ⟨hknown, hreached, ⟨hlen, hargs.trans hlen⟩, h.conversions, h.invocations, ?_⟩
  rw [h.lines, h.complaints]
  exact hend

/-- **A command is invoked once, as it was converted, unless there is a reason to refuse it, which
is told.** -/
theorem runCommand_exact (cfg : CommandConfig) (node : UInt16) (name : Text) (argv : List Text)
    (trace : CommandTrace ω) (result : Int)
    (hrun : (kfswShellRunCommand cfg node name argv).Runs trace result) :
    (∃ line, Refusal cfg node name argv trace result line ∧ Refused trace result line)
      ∨ (∀ code line, ¬ Refusal cfg node name argv trace code line)
        ∧ ∃ info args outcome reply,
          InvokedOnce cfg node name argv trace result info args outcome reply := by
  suffices h : (∃ line, Refusal cfg node name argv trace result line ∧ Refused trace result line)
      ∨ ∃ info args outcome reply,
        InvokedOnce cfg node name argv trace result info args outcome reply by
    refine h.imp_right fun ⟨info, args, outcome, reply, hinvoked⟩ => ?_
    exact ⟨hinvoked.not_refusal, info, args, outcome, reply, hinvoked⟩
  unfold kfswShellRunCommand at hrun
  obtain ⟨ready, rest, rfl, hrest⟩ := runs_call.mp hrun
  have hready : RunsAs (ω := ω) [⟨.isInitialized, ready⟩] [] [] [] [] := ⟨rfl, rfl, rfl, rfl⟩
  by_cases hinit : ready = false
  · subst hinit
    rw [if_pos rfl] at hrest
    obtain ⟨rfl, hdid⟩ := refusal_run hrest
    exact .inl ⟨_, .notReady _ rfl, (hready.append hdid).refused (by decide)⟩
  obtain rfl : ready = true := Bool.eq_true_of_not_eq_false hinit
  rw [if_neg hinit] at hrest
  obtain ⟨found, behind, rfl, hlooked⟩ := runs_call.mp hrest
  have hfound : RunsAs (ω := ω) [⟨.isInitialized, true⟩, ⟨.find name, found⟩] [] [] [] [] :=
    ⟨rfl, rfl, rfl, rfl⟩
  by_cases hunknown : found.1 ≠ 0
  · rw [if_pos hunknown] at hlooked
    obtain ⟨rfl, hdid⟩ := refusal_run hlooked
    exact .inl ⟨_, .unknown _ found rfl hunknown, (hfound.append hdid).refused (by decide)⟩
  obtain ⟨code, info⟩ := found
  obtain rfl : code = 0 := not_not.mp hunknown
  have hknown : KnownAs (⟨.isInitialized, true⟩ :: ⟨.find name, (0, info)⟩ :: behind :
      CommandTrace ω) name info := ⟨behind, rfl⟩
  rw [if_neg hunknown] at hlooked
  by_cases hcount : (commandArgs node argv).length ≠ info.argTypes.length
  · rw [if_pos hcount] at hlooked
    obtain ⟨rfl, hdid⟩ := refusal_run hlooked
    exact .inl ⟨_, .argCount info hknown hcount, (hfound.append hdid).refused (by decide)⟩
  rw [if_neg hcount] at hlooked
  have hlen : (commandArgs node argv).length = info.argTypes.length := not_not.mp hcount
  obtain ⟨first, second, parsed, rfl, hparse, hsecond⟩ := runs_bind.mp hlooked
  rcases parseArguments_run hparse hlen with ⟨args, rfl, hargs, hconv⟩
    | ⟨converted, text, type, outcome, rfl, hstops, hconv⟩
  · -- every argument is converted
    have hbefore := hfound.append hconv
    rcases dispatch_run hsecond with ⟨hdid, rfl, hnode, hcsp⟩
      | ⟨outcome, reply, lines, said, hdid, hreached, hend⟩
    · exact .inl ⟨_, .noRemote info hknown hnode hcsp, (hbefore.append hdid).refused (by decide)⟩
    · refine .inr ⟨info, args, outcome, reply, RunsAs.invokedOnce ?_ hknown hreached hlen hargs
        hend⟩
      simpa using hbefore.append hdid
  · obtain ⟨rfl, rfl⟩ := runs_done.mp hsecond
    rw [List.append_nil] at hknown ⊢
    have hdid := hfound.append hconv
    have hconversions : conversions (⟨.isInitialized, true⟩ :: ⟨.find name, (0, info)⟩ :: first)
        = converted := hdid.conversions
    rw [← hconversions] at hstops
    exact .inl ⟨_, .badArg info text type outcome hknown hstops, hdid.refused hstops.outcome_ne⟩

/-- A service that knows a command of one number, and answers it. -/
def answeringService : (c : CommandCall Nat) → CommandAnswer c
  | .isInitialized => true
  | .find _ => (0, ⟨[3]⟩)
  | .parseArg text _ => (0, text.length)
  | .invoke _ _ => ⟨true, "ok".toList, "mode=safe".toList⟩
  | .invokeRemote _ _ _ _ => (0, ⟨true, "ok".toList, "mode=safe".toList⟩)
  | .print _ | .error _ | .warning _ => ()

/-- It is asked on another node, with a ticket: the command is invoked there once, with the number,
and its reply is shown. -/
theorem runCommand_exact_answered :
    let ran := (kfswShellRunCommand ⟨true, 64, 128⟩ 5 "mode".toList
      ["12".toList, "--retry".toList]).exec answeringService
    InvokedOnce ⟨true, 64, 128⟩ 5 "mode".toList ["12".toList, "--retry".toList] ran.1 ran.2 ⟨[3]⟩
        [2] 0 ⟨true, "ok".toList, "mode=safe".toList⟩
      ∧ ran.2 = 0 ∧ replyLines ran.1 = ["node: 5".toList, "mode: safe".toList] := by
  intro ran
  have hsent : invocations ran.1
      = [⟨5, "mode".toList, [2], true, 0, ⟨true, "ok".toList, "mode=safe".toList⟩⟩] := by
    decide +kernel
  rcases runCommand_exact _ _ _ _ _ _ (runs_exec answeringService _) with ⟨line, -, hrefused⟩
    | ⟨-, info, args, outcome, reply, hinvoked⟩
  · exact absurd (hsent.symm.trans hrefused.2.1) (List.cons_ne_nil _ _)
  · have hknown : KnownAs ran.1 "mode".toList ⟨[3]⟩ := ⟨_, rfl⟩
    obtain rfl := hknown.unique hinvoked.known
    have hone := hsent.symm.trans hinvoked.invoked
    simp only [List.cons.injEq, Invocation.mk.injEq, and_true, true_and] at hone
    obtain ⟨rfl, -, rfl, rfl⟩ := hone
    rcases hinvoked.ended with ⟨-, ⟨-, hzero, hlines, -⟩ | ⟨hbad, -⟩⟩ | ⟨hne, -⟩
    · exact ⟨hinvoked, hzero, hlines.trans (by decide +kernel)⟩
    · exact absurd hbad (by decide)
    · exact absurd rfl hne

end KFsw.App
