/-
  KFsw.App.HkDefine — `hk define` typed at a node and sent to it.

  At the node the shell reads the words of a definition one by one.  For another
  node it joins them to one text, which the registered command takes apart again.
  Both are compared with what the words define.

  Main results:
    * `cmdHkDefine_local`       — the shell defines what the words define;
    * `commandHkDefine_words`   — so does the command, unless an entry word does
      not fit its token;
    * `cmdHkDefine_remote`      — the shell sends the words joined, or refuses;
    * `define_remote_as_local`  — a definition means the same at both ends.
-/
import KFsw.App.ShellHk
import KFsw.App.CommandDefinitions

namespace KFsw.App

open KFsw.Lib Prog

section Define

variable (cfg : HkConfig) (shellStrtoul : Text → Nat → Except Int Nat)

/-! ## §1. What words define. -/

/-- The class word in front of the entries, or the default. -/
def classOf : List Text → Option Nat
  | [] => none
  | first :: _ =>
    if CLASS_PREFIX.isPrefixOf first = true then (parseClass cfg first).toOption.map Prod.fst
    else some KFSW_HK_CLASS_DEFAULT

/-- All words but a class word. -/
def entryWords : List Text → List Text
  | [] => []
  | first :: rest => if CLASS_PREFIX.isPrefixOf first = true then rest else first :: rest

theorem classOf_class {first : Text} (rest : List Text)
    (h : CLASS_PREFIX.isPrefixOf first = true) :
    classOf cfg (first :: rest) = (parseClass cfg first).toOption.map Prod.fst := if_pos h

theorem classOf_default {first : Text} (rest : List Text)
    (h : ¬ CLASS_PREFIX.isPrefixOf first = true) :
    classOf cfg (first :: rest) = some KFSW_HK_CLASS_DEFAULT := if_neg h

theorem entryWords_class {first : Text} (rest : List Text)
    (h : CLASS_PREFIX.isPrefixOf first = true) : entryWords (first :: rest) = rest := if_pos h

theorem entryWords_default {first : Text} (rest : List Text)
    (h : ¬ CLASS_PREFIX.isPrefixOf first = true) :
    entryWords (first :: rest) = first :: rest := if_neg h

/-- The entries of some words, as many as a report holds. -/
def entriesOf (words : List Text) : Option (List HkEntry) :=
  if words = [] ∨ words.length > cfg.entries then none else (readEntries cfg words).toOption

/-- The class and the entries that words define. -/
def definition (words : List Text) : Option (Nat × List HkEntry) :=
  (classOf cfg words).bind fun retrievalClass =>
    (entriesOf cfg (entryWords words)).map fun entries => (retrievalClass, entries)

/-- The call that defines a report so. -/
def defineCall (report : UInt8) (defined : Nat × List HkEntry) : HkCall :=
  .defineClass report defined.2 (UInt8.ofNat defined.1)

/-- The words of a definition on a command line: a first word with a ':' or a class, and no
`--retry` at the end. -/
structure IsDefinition (words : List Text) : Prop where
  isWord : ∀ w ∈ words, IsWord w
  first : ∃ first rest, words = first :: rest
    ∧ (':' ∈ first ∨ CLASS_PREFIX.isPrefixOf first = true)
  last : words.getLast? ≠ some RETRY

/-- A class word has more than white space behind its `=`. -/
def ClassWritten (words : List Text) : Prop :=
  ∀ first ∈ words.head?, CLASS_PREFIX.isPrefixOf first = true →
    ∃ c ∈ first.drop 6, isspace c = false

/-! ## §2. At the node. -/

/-- A class word is read to its end. -/
theorem parseClass_word {w text : Text} {retrievalClass : Nat} (hw : ' ' ∉ w)
    (hclass : CLASS_PREFIX.isPrefixOf w = true)
    (h : parseClass cfg w = .ok (retrievalClass, text)) : text = [] := by
  have hspace : ' ' ∉ (strtoul cfg.ulongMax (w.drop 6)).rest := fun h =>
    hw (List.mem_of_mem_drop ((strtoul_rest_suffix _ _).subset h))
  unfold parseClass at h
  rw [hclass, if_neg (by decide)] at h
  dsimp only at h
  generalize strtoul cfg.ulongMax (w.drop 6) = number at hspace h
  obtain ⟨value, after, range⟩ := number
  cases after with
  | nil =>
    split at h
    · exact absurd h (by simp)
    · split at h
      · exact absurd h (by simp)
      · injection h with h
        exact (Prod.mk.inj h).2.symm
  | cons c after =>
    have hc : c ≠ ' ' := fun h => hspace (by simp [h])
    simp [hc] at h

/-- The entries from a word of the line on. -/
theorem defineEntries_firstCall {argv words : List Text} {report : UInt32}
    {firstEntry : Nat} (retrievalClass : Nat) (hreport : report.toNat < cfg.reports)
    (hdrop : argv.drop firstEntry = words) (hlength : argv.length = firstEntry + words.length) :
    (defineEntries cfg argv report retrievalClass firstEntry).firstCall
      = (entriesOf cfg words).map fun entries =>
          defineCall report.toUInt8 (retrievalClass, entries) := by
  unfold defineEntries entriesOf
  rw [hdrop, hlength, Nat.add_sub_cancel_left]
  -- the two refusals of the shell are the two cases without entries
  by_cases hempty : words = []
  · rw [if_pos (Or.inr (by rw [hempty]; exact Nat.le_refl _)), if_pos (Or.inl hempty)]
    rfl
  · have hpos : 0 < words.length := List.length_pos_iff.mpr hempty
    rw [if_neg (by omega)]
    by_cases hmany : words.length > cfg.entries
    · rw [if_pos hmany, if_pos (Or.inr hmany)]
      rfl
    · rw [if_neg hmany, if_neg (by simp [hempty, hmany])]
      cases readEntries cfg words <;> rfl

/-- The class word of a line, and where its entries begin. -/
theorem defineClassWord_eq {name reportText first : Text} (rest : List Text)
    (hfirst : ' ' ∉ first) :
    (defineClassWord cfg (name :: reportText :: first :: rest)).toOption
      = (classOf cfg (first :: rest)).map fun retrievalClass =>
          (retrievalClass, if CLASS_PREFIX.isPrefixOf first = true then 3 else 2) := by
  have harg : arg (name :: reportText :: first :: rest) 2 = first := rfl
  unfold defineClassWord
  rw [harg]
  by_cases hclass : CLASS_PREFIX.isPrefixOf first = true
  · rw [if_pos hclass, if_pos hclass, classOf_class cfg rest hclass]
    cases hparse : parseClass cfg first with
    | error e => rfl
    | ok parsed =>
      obtain ⟨retrievalClass, text⟩ := parsed
      rw [parseClass_word cfg hfirst hclass hparse]
      rfl
  · rw [if_neg hclass, if_neg hclass, classOf_default cfg rest hclass]
    rfl

/-- The line is for this node. -/
theorem definesRemote_local {name reportText first : Text} (rest : List Text)
    (hfirst : ':' ∈ first ∨ CLASS_PREFIX.isPrefixOf first = true) :
    definesRemote cfg (name :: reportText :: first :: rest) = false := by
  show (cfg.commandCsp && decide _ && !first.contains ':' && !CLASS_PREFIX.isPrefixOf first) = _
  rcases hfirst with hcolon | hclass
  · rw [List.contains_iff_mem.mpr hcolon]
    simp
  · rw [hclass]
    simp

/-- **The shell at the node** defines what the words define, or nothing. -/
theorem cmdHkDefine_local {name reportText : Text} {words : List Text} {report : Nat}
    (hwords : IsDefinition words) (hreportText : shellStrtoul reportText 0 = .ok report)
    (hreport : report < cfg.reports) :
    (cmdHkDefine cfg shellStrtoul (name :: reportText :: words)).firstCall
      = (definition cfg words).map (defineCall (UInt32.ofNat report).toUInt8) := by
  obtain ⟨first, rest, rfl, hfirst⟩ := hwords.first
  have hfirstWord : ' ' ∉ first := (hwords.isWord first List.mem_cons_self).2
  have h32 : report ≤ UINT32_MAX := by
    have h8 := cfg.reports_le
    unfold UINT8_MAX at h8
    unfold UINT32_MAX
    omega
  have hnumber : (UInt32.ofNat report).toNat < cfg.reports := by
    rw [toUInt32_eq h32]
    exact hreport
  have harg : arg (name :: reportText :: first :: rest) 1 = reportText := rfl
  have hword := @defineClassWord_eq cfg name reportText first rest hfirstWord
  unfold cmdHkDefine definition
  rw [definesRemote_local cfg rest hfirst, if_neg (by decide), harg, parseU32_eq,
    accepted_of_ok shellStrtoul hreportText h32]
  dsimp only
  cases hline : defineClassWord cfg (name :: reportText :: first :: rest) with
  | error e =>
    rw [hline] at hword
    rw [Option.map_eq_none_iff.mp hword.symm]
    rfl
  | ok parsed =>
    rw [hline] at hword
    obtain ⟨retrievalClass, hclassOf, hparsed⟩ := Option.map_eq_some_iff.mp hword.symm
    rw [hclassOf, ← hparsed]
    show Prog.firstCall (defineEntries cfg _ _ retrievalClass _) = Option.map _ (Option.map _ _)
    rw [Option.map_map]
    -- the entries begin behind the class word, or at the first word
    by_cases hclass : CLASS_PREFIX.isPrefixOf first = true
    · rw [entryWords_class rest hclass, if_pos hclass]
      exact defineEntries_firstCall cfg retrievalClass hnumber rfl (by simp; omega)
    · rw [entryWords_default rest hclass, if_neg hclass]
      exact defineEntries_firstCall cfg retrievalClass hnumber rfl (by simp; omega)

/-! ## §3. At the other node. -/

/-- Every entry word fits the token of `kfsw_app_hk_parse_entries`. -/
def FitsToken (words : List Text) : Prop := ∀ w ∈ entryWords words, w.length < TOKEN_SIZE

instance (words : List Text) : Decidable (FitsToken words) :=
  inferInstanceAs (Decidable (∀ w ∈ entryWords words, _))

theorem entriesOf_eq_some_iff (words : List Text) (entries : List HkEntry) :
    entriesOf cfg words = some entries
      ↔ words ≠ [] ∧ words.length ≤ cfg.entries ∧ readEntries cfg words = .ok entries := by
  unfold entriesOf
  by_cases hnone : words = [] ∨ words.length > cfg.entries
  · rw [if_pos hnone]
    refine iff_of_false (by simp) ?_
    intro h
    obtain ⟨hne, hroom, -⟩ := h
    rcases hnone with hnil | hmany
    · exact hne hnil
    · omega
  · rw [if_neg hnone]
    push Not at hnone
    cases hentries : readEntries cfg words with
    | error e => simp [Except.toOption]
    | ok read => simp [Except.toOption, hnone]

/-- The entries of joined words are those of the words, when each word fits the token. -/
theorem parseEntries_joinWords {words : List Text} (hw : ∀ w ∈ words, IsWord w) :
    (parseEntries cfg (joinWords words) cfg.entries).toOption
      = if ∀ w ∈ words, w.length < TOKEN_SIZE then entriesOf cfg words else none := by
  have hok := parseEntries_ok_iff cfg (joinWords words) cfg.entries
  rw [textWords_joinWords words hw] at hok
  cases hparsed : parseEntries cfg (joinWords words) cfg.entries with
  | ok entries =>
    obtain ⟨hne, hroom, hshort, hentries⟩ := (hok entries).mp hparsed
    rw [if_pos hshort]
    exact ((entriesOf_eq_some_iff cfg words entries).mpr ⟨hne, hroom, hentries⟩).symm
  | error e =>
    -- what the text is refused for, the words are refused for or do not fit
    by_cases hshort : ∀ w ∈ words, w.length < TOKEN_SIZE
    · rw [if_pos hshort]
      symm
      rw [Except.toOption, Option.eq_none_iff_forall_ne_some]
      intro entries hsome
      obtain ⟨hne, hroom, hentries⟩ := (entriesOf_eq_some_iff cfg words entries).mp hsome
      rw [(hok entries).mpr ⟨hne, hroom, hshort, hentries⟩] at hparsed
      exact absurd hparsed (by simp)
    · rw [if_neg hshort]
      rfl

/-- The entries with a class read before them. -/
theorem classEntries_joinWords {words : List Text} (hw : ∀ w ∈ words, IsWord w)
    (retrievalClass : Nat) :
    (match parseEntries cfg (joinWords words) cfg.entries with
      | .error e => .error e
      | .ok entries => .ok (retrievalClass, entries) : Except Int (Nat × List HkEntry)).toOption
      = if ∀ w ∈ words, w.length < TOKEN_SIZE
        then (entriesOf cfg words).map fun entries => (retrievalClass, entries) else none := by
  have hentries := parseEntries_joinWords cfg hw
  by_cases hshort : ∀ w ∈ words, w.length < TOKEN_SIZE
  · rw [if_pos hshort] at hentries ⊢
    rw [← hentries]
    cases parseEntries cfg (joinWords words) cfg.entries <;> rfl
  · rw [if_neg hshort] at hentries ⊢
    cases hparsed : parseEntries cfg (joinWords words) cfg.entries with
    | error e => rfl
    | ok entries =>
      rw [hparsed] at hentries
      exact absurd hentries (by simp [Except.toOption])

/-- Joined words begin with their first. -/
theorem joinWords_head {words : List Text} (hw : ∀ w ∈ words, IsWord w) :
    (joinWords words).head? ≠ some ' ' := by
  cases words with
  | nil => exact fun h => absurd h (by simp [joinWords])
  | cons w rest =>
    obtain ⟨hne, hspace⟩ := hw w List.mem_cons_self
    obtain ⟨c, w', rfl⟩ := List.exists_cons_of_ne_nil hne
    have hhead : (joinWords ((c :: w') :: rest)).head? = some c := by cases rest <;> rfl
    rw [hhead]
    exact fun h => hspace (Option.some_inj.mp h ▸ List.mem_cons_self)

theorem classPrefix_joinWords (first : Text) (rest : List Text) :
    CLASS_PREFIX.isPrefixOf (joinWords (first :: rest)) = CLASS_PREFIX.isPrefixOf first := by
  cases rest with
  | nil => rfl
  | cons v rest => exact classPrefix_append (joinWords (v :: rest))

/-- The class of joined words is that of their first. -/
theorem parseClass_joinWords {first : Text} {rest : List Text}
    (hw : ∀ w ∈ first :: rest, IsWord w) (hclass : CLASS_PREFIX.isPrefixOf first = true)
    (hwritten : ∃ c ∈ first.drop 6, isspace c = false) :
    parseClass cfg (joinWords (first :: rest))
      = match parseClass cfg first with
        | .error e => .error e
        | .ok (retrievalClass, _) => .ok (retrievalClass, joinWords rest) := by
  have hspace := (hw first List.mem_cons_self).2
  cases rest with
  | nil =>
    show parseClass cfg first = _
    cases hparse : parseClass cfg first with
    | error e => rfl
    | ok parsed =>
      obtain ⟨retrievalClass, text⟩ := parsed
      rw [parseClass_word cfg hspace hclass hparse]
      rfl
  | cons v rest =>
    -- more words behind the class are cut off at the space
    exact parseClass_append cfg hspace hclass hwritten
      (joinWords_head fun w h => hw w (List.mem_cons_of_mem first h))

/-- **The text of a command** defines what its words define, when they fit the token. -/
theorem parseDefinition_joinWords {words : List Text} (hwords : IsDefinition words)
    (hclass : ClassWritten words) :
    (parseDefinition cfg (joinWords words)).toOption
      = if FitsToken words then definition cfg words else none := by
  obtain ⟨first, rest, rfl, -⟩ := hwords.first
  have hrest : ∀ w ∈ rest, IsWord w := fun w h => hwords.isWord w (List.mem_cons_of_mem first h)
  unfold parseDefinition definition
  by_cases hbegins : CLASS_PREFIX.isPrefixOf first = true
  · simp only [FitsToken, entryWords_class rest hbegins]
    rw [parseClass_joinWords cfg hwords.isWord hbegins (hclass first rfl hbegins),
      classOf_class cfg rest hbegins]
    cases parseClass cfg first with
    | error e => exact (ite_self none).symm
    | ok parsed => exact classEntries_joinWords cfg hrest parsed.1
  · simp only [FitsToken, entryWords_default rest hbegins]
    have hdefault : parseClass cfg (joinWords (first :: rest))
        = .ok (KFSW_HK_CLASS_DEFAULT, joinWords (first :: rest)) := by
      unfold parseClass
      rw [classPrefix_joinWords]
      exact if_pos (Bool.not_eq_true _ ▸ hbegins)
    rw [hdefault, classOf_default cfg rest hbegins]
    exact classEntries_joinWords cfg hwords.isWord KFSW_HK_CLASS_DEFAULT

/-- **The command** defines what the words of its text define, or nothing when one does not
fit the token. -/
theorem commandHkDefine_words {words : List Text} (hwords : IsDefinition words)
    (hclass : ClassWritten words) (u32 : UInt32) (result : CommandResult)
    (hreport : u32.toNat ≤ UINT8_MAX) :
    (commandHkDefine cfg u32 (joinWords words) result).firstCall
      = if FitsToken words then (definition cfg words).map (defineCall u32.toUInt8) else none := by
  have hparsed := parseDefinition_joinWords cfg hwords hclass
  rw [commandHkDefine_firstCall cfg u32 (joinWords words) result hreport]
  by_cases hfit : FitsToken words
  · rw [if_pos hfit] at hparsed ⊢
    rw [← hparsed]
    cases parseDefinition cfg (joinWords words) <;> rfl
  · rw [if_neg hfit] at hparsed ⊢
    cases hdefinition : parseDefinition cfg (joinWords words) with
    | error e => rfl
    | ok defined =>
      rw [hdefinition] at hparsed
      exact absurd hparsed (by simp [Except.toOption])

/-! ## §4. Sending. -/

/-- The last word of a line that ends with some words. -/
theorem arg_last (name nodeText reportText : Text) {words : List Text} (hne : words ≠ []) :
    words.getLast? = some (arg (name :: nodeText :: reportText :: words)
      ((name :: nodeText :: reportText :: words).length - 1)) := by
  obtain ⟨first, rest, rfl⟩ := List.exists_cons_of_ne_nil hne
  have hindex : (name :: nodeText :: reportText :: first :: rest).length - 1
      = rest.length + 3 := by
    simp
  rw [hindex, List.getLast?_eq_getElem?]
  show (first :: rest)[rest.length]? = some ((first :: rest).getD rest.length [])
  rw [List.getD_eq_getElem?_getD, List.getElem?_eq_getElem (Nat.lt_succ_self rest.length),
    Option.getD_some]

/-- The line is for another node. -/
theorem definesRemote_remote {name nodeText reportText : Text} {words : List Text}
    (hcsp : cfg.commandCsp = true) (hcolon : ':' ∉ reportText)
    (hbegins : ¬ CLASS_PREFIX.isPrefixOf reportText = true) (hne : words ≠ []) :
    definesRemote cfg (name :: nodeText :: reportText :: words) = true := by
  have hlength : 3 < (name :: nodeText :: reportText :: words).length := by
    have hpos := List.length_pos_iff.mpr hne
    simp only [List.length_cons]
    omega
  have hcontains : reportText.contains ':' = false := by
    rw [← Bool.not_eq_true, List.contains_iff_mem]
    exact hcolon
  show (cfg.commandCsp && decide (3 < _) && !reportText.contains ':'
    && !CLASS_PREFIX.isPrefixOf reportText) = true
  rw [hcsp, decide_eq_true hlength, hcontains, Bool.eq_false_iff.mpr hbegins]
  rfl

/-- **The shell sends the words joined**, or refuses; it never sends them cut. -/
theorem cmdHkDefine_remote {name nodeText reportText : Text} {words : List Text} {node : UInt16}
    (hcsp : cfg.commandCsp = true) (hnode : parseNode cfg shellStrtoul nodeText = .ok node)
    (hcolon : ':' ∉ reportText) (hbegins : ¬ CLASS_PREFIX.isPrefixOf reportText = true)
    (hwords : IsDefinition words) :
    cmdHkDefine cfg shellStrtoul (name :: nodeText :: reportText :: words)
      = if (joinWords words).length ≤ cfg.commandMaxTextSize
        then .call (.runCommand node "hk_define".toList [reportText, joinWords words])
          fun result => .done result
        else .done (-E2BIG) := by
  have hne : words ≠ [] := by
    obtain ⟨first, rest, rfl, -⟩ := hwords.first
    exact List.cons_ne_nil first rest
  -- without `--retry` every word behind the report is joined
  have hretry : arg (name :: nodeText :: reportText :: words)
      ((name :: nodeText :: reportText :: words).length - 1) ≠ RETRY := fun h =>
    hwords.last (by rw [arg_last name nodeText reportText hne, h])
  have hnodeArg : arg (name :: nodeText :: reportText :: words) 1 = nodeText := rfl
  have hdrop : (name :: nodeText :: reportText :: words).drop 3 = words := rfl
  have hjoin := defineJoin_spec (Nat.succ_pos cfg.commandMaxTextSize) words
    fun w h => (hwords.isWord w h).1
  unfold cmdHkDefine defineRemote
  rw [definesRemote_remote cfg hcsp hcolon hbegins hne, if_pos rfl, hnodeArg, hnode,
    if_neg hretry]
  dsimp only
  rw [List.take_length, if_neg (Nat.lt_irrefl _), hdrop]
  by_cases hfit : (joinWords words).length ≤ cfg.commandMaxTextSize
  · rw [if_pos (Nat.lt_succ_of_le hfit)] at hjoin
    rw [if_pos hfit]
    cases hjoined : defineJoin (CBuffer.empty (Nat.succ_pos cfg.commandMaxTextSize)) 0 words with
    | error e =>
      rw [hjoined] at hjoin
      exact absurd hjoin (by simp [Except.map])
    | ok entries =>
      rw [hjoined] at hjoin
      rw [← Except.ok.inj hjoin]
      rfl
  · rw [if_neg (by omega)] at hjoin
    rw [if_neg hfit]
    cases hjoined : defineJoin (CBuffer.empty (Nat.succ_pos cfg.commandMaxTextSize)) 0 words with
    | error e =>
      rw [hjoined] at hjoin
      rw [Except.error.inj hjoin]
    | ok entries =>
      rw [hjoined] at hjoin
      exact absurd hjoin (by simp [Except.map])

/-! ## §5. A definition at both ends. -/

/-- **A definition means the same at both ends.**  The shell sends the words joined when they
are no longer than a text argument, and refuses them otherwise.  What arrives defines the report
as the words do at the node itself, or both refuse, when each entry word fits the token; a
longer entry word is refused.  `hstrtoul`: a number has no ':' and no '='. -/
theorem define_remote_as_local (name nodeText reportText : Text) (words : List Text)
    (node : UInt16) (report : Nat) (result : CommandResult)
    (hstrtoul : ∀ text base n, shellStrtoul text base = .ok n → ':' ∉ text ∧ '=' ∉ text)
    (hcsp : cfg.commandCsp = true) (hnode : parseNode cfg shellStrtoul nodeText = .ok node)
    (hreportText : shellStrtoul reportText 0 = .ok report) (hreport : report < cfg.reports)
    (hwords : IsDefinition words) (hclass : ClassWritten words) :
    cmdHkDefine cfg shellStrtoul (name :: nodeText :: reportText :: words)
        = (if (joinWords words).length ≤ cfg.commandMaxTextSize
          then .call (.runCommand node "hk_define".toList [reportText, joinWords words])
            fun outcome => .done outcome
          else .done (-E2BIG))
      ∧ (commandHkDefine cfg (UInt32.ofNat report) (joinWords words) result).firstCall
        = (if FitsToken words
          then (cmdHkDefine cfg shellStrtoul (name :: reportText :: words)).firstCall else none)
      ∧ (cmdHkDefine cfg shellStrtoul (name :: reportText :: words)).firstCall
        = (definition cfg words).map (defineCall (UInt8.ofNat report)) := by
  obtain ⟨hcolon, hequals⟩ := hstrtoul reportText 0 report hreportText
  -- a report number cannot be taken for an entry or a class word
  have hbegins : ¬ CLASS_PREFIX.isPrefixOf reportText = true := fun h =>
    hequals ((List.isPrefixOf_iff_prefix.mp h).subset (by decide))
  have h8 : report ≤ UINT8_MAX := (Nat.le_of_lt hreport).trans cfg.reports_le
  have h32 : report ≤ UINT32_MAX := h8.trans (by decide)
  -- the number fits, so narrowing it at either end is the same
  have hnarrow : (UInt32.ofNat report).toUInt8 = UInt8.ofNat report := by
    apply UInt8.toNat_inj.mp
    rw [UInt32.toNat_toUInt8, toUInt32_eq h32, UInt8.toNat_ofNat']
  have hlocal := @cmdHkDefine_local cfg shellStrtoul name reportText words report hwords
    hreportText hreport
  have hcommand := commandHkDefine_words cfg hwords hclass (UInt32.ofNat report) result
    (by rw [toUInt32_eq h32]; exact h8)
  refine ⟨cmdHkDefine_remote cfg shellStrtoul hcsp hnode hcolon hbegins hwords, ?_, ?_⟩
  · rw [hcommand, hlocal]
  · rw [hlocal, hnarrow]

end Define

/-- The definition `3 class=2 1:5 7:1:6`, sent to the node 4 and typed there. -/
theorem define_remote_as_local_class :
    cmdHkDefine exampleBuild decimalStrtoul
        ["define".toList, "4".toList, "3".toList, "class=2".toList, "1:5".toList, "7:1:6".toList]
        = .call (.runCommand 4 "hk_define".toList ["3".toList, "class=2 1:5 7:1:6".toList])
          (fun outcome => .done outcome)
      ∧ (commandHkDefine exampleBuild 3 "class=2 1:5 7:1:6".toList ⟨.ok, []⟩).firstCall
        = some (.defineClass 3 [⟨0, 261⟩, ⟨7, 262⟩] 2)
      ∧ (cmdHkDefine exampleBuild decimalStrtoul
          ["define".toList, "3".toList, "class=2".toList, "1:5".toList, "7:1:6".toList]).firstCall
        = some (.defineClass 3 [⟨0, 261⟩, ⟨7, 262⟩] 2) := by
  have hwords : IsDefinition ["class=2".toList, "1:5".toList, "7:1:6".toList] :=
    ⟨by decide, ⟨_, _, rfl, Or.inr (by decide)⟩, by decide⟩
  obtain ⟨hsent, harrived, hlocal⟩ := define_remote_as_local exampleBuild decimalStrtoul
    "define".toList "4".toList "3".toList ["class=2".toList, "1:5".toList, "7:1:6".toList] 4 3
    ⟨.ok, []⟩ (fun _ _ _ h => decimalStrtoul_ok h) rfl (by decide) (by decide) (by decide) hwords
    (by
      intro first hfirst _
      rw [← Option.some_inj.mp hfirst]
      exact ⟨'2', by decide, by decide⟩)
  have hdefined : definition exampleBuild ["class=2".toList, "1:5".toList, "7:1:6".toList]
      = some (2, [⟨0, 261⟩, ⟨7, 262⟩]) := by decide
  rw [hdefined] at hlocal
  rw [hlocal] at harrived
  exact ⟨hsent, harrived, hlocal⟩

/-- The entry `1:1` written with 24 characters is defined at the node and refused from another.
The words `class= 3 1:1` are refused at the node and defined from another, since `strtoul` skips
the space. -/
theorem define_local_not_remote :
    (IsDefinition ["000000000000000000000001:1".toList]
      ∧ (cmdHkDefine exampleBuild decimalStrtoul
          ["define".toList, "3".toList, "000000000000000000000001:1".toList]).firstCall
        = some (.defineClass 3 [⟨0, 257⟩] 4)
      ∧ (commandHkDefine exampleBuild 3 "000000000000000000000001:1".toList ⟨.ok, []⟩).firstCall
        = none)
    ∧ IsDefinition ["class=".toList, "3".toList, "1:1".toList]
      ∧ (cmdHkDefine exampleBuild decimalStrtoul
          ["define".toList, "3".toList, "class=".toList, "3".toList, "1:1".toList]).firstCall
        = none
      ∧ (commandHkDefine exampleBuild 3 "class= 3 1:1".toList ⟨.ok, []⟩).firstCall
        = some (.defineClass 3 [⟨0, 257⟩] 3) := by
  have hlong : IsDefinition ["000000000000000000000001:1".toList] :=
    ⟨by decide, ⟨_, _, rfl, Or.inl (by decide)⟩, by decide⟩
  have hspace : IsDefinition ["class=".toList, "3".toList, "1:1".toList] :=
    ⟨by decide, ⟨_, _, rfl, Or.inr (by decide)⟩, by decide⟩
  refine ⟨⟨hlong, by decide, ?_⟩, hspace, by decide, ?_⟩
  · have hwritten : ClassWritten ["000000000000000000000001:1".toList] := by
      intro first hfirst hclass
      rw [← Option.some_inj.mp hfirst] at hclass
      exact absurd hclass (by decide)
    have hrefused := commandHkDefine_words exampleBuild hlong hwritten 3 ⟨.ok, []⟩ (by decide)
    rw [if_neg (by decide)] at hrefused
    exact hrefused
  · -- the text is read turn by turn: the class, one entry, its end
    have hentries : parseEntries exampleBuild "1:1".toList 16 = .ok [⟨0, 257⟩] := by
      unfold parseEntries
      rw [parseEntriesLoop_turn]
      show (match parseEntriesLoop exampleBuild 16 [] [⟨0, 257⟩] with
        | .error e => _ | .ok parsed => _) = _
      rw [parseEntriesLoop_turn]
      rfl
    have hparsed : parseDefinition exampleBuild "class= 3 1:1".toList = .ok (3, [⟨0, 257⟩]) := by
      unfold parseDefinition
      show (match parseEntries exampleBuild "1:1".toList 16 with
        | .error e => _ | .ok entries => _) = _
      rw [hentries]
      rfl
    rw [commandHkDefine_firstCall _ _ _ _ (by decide), hparsed]
    rfl

end KFsw.App
