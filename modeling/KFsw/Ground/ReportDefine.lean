/-
  KFsw.Ground.ReportDefine — what `hk-report.py define` prints, and what the node
  reads in it.

  The tool writes an entry as its table in decimal and its offset in hexadecimal
  with at least two digits; the node reads both with `strtoul` in base 0.

  Main results:
    * `defineWord_isEntry`  — a written entry is the entry of its table and
      offset, on the local node;
    * `readEntries_define`  — the words of a definition are read in order;
    * `cmdDefine_read`      — so are the printed text as a whole and the printed
      line as a local `hk define`.
-/
import KFsw.App.HkGrammar
import KFsw.App.ShellHk
import KFsw.Ground.Report

namespace KFsw.Ground

open KFsw.Lib KFsw.App

/-! ## §1. The printed command. -/

/-- `f"{e['table']}:0x{e['offset']:02x}"`. -/
def defineWord (e : ReportEntry) : Text :=
  Nat.toDigits 10 e.table ++ ':' :: '0' :: 'x'
    :: (List.replicate (2 - (Nat.toDigits 16 e.offset).length) '0' ++ Nat.toDigits 16 e.offset)

/-- The entry text of `cmd_define`: the entries, joined by spaces. -/
def defineText (report : Report) : Text := joinWords (report.entries.map defineWord)

/-- The words in front of the report number. -/
def HK : Text := "hk".toList
def DEFINE : Text := "define".toList

/-- The line `cmd_define` prints. -/
def cmdDefine (report : Report) : Text :=
  HK ++ ' ' :: (DEFINE ++ ' ' :: (Nat.toDigits 10 report.report ++ ' ' :: defineText report))

/-! ## §2. One entry. -/

variable (cfg : HkConfig)

/-- The entry the node has for an entry of a definition. -/
def nodeEntry (e : ReportEntry) : HkEntry := ⟨cfg.nodeLocal, cfg.paramId e.table e.offset⟩

/-- An entry that the node can have: its table and its offset are in range. -/
def EntryInRange (e : ReportEntry) : Prop := e.table ≤ 255 ∧ e.offset ≤ cfg.paramOffsetMax

/-- **A written entry is read as that entry**, on the local node. -/
theorem defineWord_isEntry {e : ReportEntry} (he : EntryInRange cfg e) :
    IsEntry cfg (defineWord e) (nodeEntry cfg e) :=
  .ofTable _ _ e.table e.offset (isNumber_decimal _) (isNumber_hexadecimal _ _) he.1 he.2

/-- Neither digits nor the letter of the prefix are spaces. -/
theorem space_notMem_toDigits {base : Nat} (h1 : 1 < base) (h16 : base ≤ 16) (n : Nat) :
    ' ' ∉ Nat.toDigits base n := by
  intro h
  have hdigit := isDigitIn_toDigits h1 h16 n ' ' h
  rw [isDigitIn_stop (by decide)] at hdigit
  exact absurd hdigit (by decide)

theorem defineWord_isWord (e : ReportEntry) : IsWord (defineWord e) := by
  refine ⟨List.append_ne_nil_of_right_ne_nil _ (List.cons_ne_nil _ _), ?_⟩
  intro h
  rcases List.mem_append.mp h with h | h
  · exact space_notMem_toDigits (by decide) (by decide) _ h
  · simp only [List.mem_cons, List.mem_append] at h
    rcases h with h | h | h | h | h
    · exact absurd h (by decide)
    · exact absurd h (by decide)
    · exact absurd h (by decide)
    · exact absurd (List.eq_of_mem_replicate h) (by decide)
    · exact space_notMem_toDigits (by decide) (by decide) _ h

/-- A written entry fits the token buffer of the node. -/
theorem defineWord_length (hoffset : cfg.paramOffsetMax ≤ UINT16_MAX) {e : ReportEntry}
    (he : EntryInRange cfg e) : (defineWord e).length < TOKEN_SIZE := by
  obtain ⟨htable, hmax⟩ := he
  have h10 : (Nat.toDigits 10 e.table).length ≤ 3 :=
    (Nat.length_toDigits_le_iff (by decide) (by decide)).mpr (by omega)
  have h16 : (Nat.toDigits 16 e.offset).length ≤ 4 := by
    refine (Nat.length_toDigits_le_iff (by decide) (by decide)).mpr ?_
    have hle := hmax.trans hoffset
    unfold UINT16_MAX at hle
    omega
  unfold defineWord TOKEN_SIZE
  simp only [List.length_append, List.length_cons, List.length_replicate]
  omega

/-! ## §3. A whole definition. -/

/-- **The words of a definition** are its entries, in order. -/
theorem readEntries_define (hulong : UINT16_MAX ≤ cfg.ulongMax)
    (hoffset : cfg.paramOffsetMax ≤ UINT16_MAX) (entries : List ReportEntry)
    (hrange : ∀ e ∈ entries, EntryInRange cfg e) :
    readEntries cfg (entries.map defineWord) = .ok (entries.map (nodeEntry cfg)) := by
  rw [readEntries_ok_iff cfg hulong hoffset, List.forall₂_map_left_iff, List.forall₂_map_right_iff,
    List.forall₂_same]
  exact fun e he => defineWord_isEntry cfg (hrange e he)

theorem textWords_defineText (report : Report) :
    textWords (defineText report) = report.entries.map defineWord := by
  refine textWords_joinWords _ fun w hw => ?_
  obtain ⟨e, _, rfl⟩ := List.mem_map.mp hw
  exact defineWord_isWord e

/-- The words of the printed line. -/
theorem textWords_cmdDefine (report : Report) :
    textWords (cmdDefine report)
      = HK :: DEFINE :: Nat.toDigits 10 report.report :: report.entries.map defineWord := by
  have hhk : IsWord HK := by decide +kernel
  have hdefine : IsWord DEFINE := by decide +kernel
  have hreport : IsWord (Nat.toDigits 10 report.report) :=
    ⟨Nat.toDigits_ne_nil, space_notMem_toDigits (by decide) (by decide) _⟩
  rw [cmdDefine, textWords_word hhk _ (.inr ⟨_, rfl⟩), textWords_space,
    textWords_word hdefine _ (.inr ⟨_, rfl⟩), textWords_space,
    textWords_word hreport _ (.inr ⟨_, rfl⟩), textWords_space, textWords_defineText]

/-- An entry has a ':' and no class prefix. -/
theorem defineWord_local (e : ReportEntry) :
    (defineWord e).contains ':' = true ∧ CLASS_PREFIX.isPrefixOf (defineWord e) = false := by
  constructor
  · rw [List.contains_iff_mem]
    exact List.mem_append_right _ List.mem_cons_self
  · rw [Bool.eq_false_iff, ne_eq, List.isPrefixOf_iff_prefix]
    rintro ⟨rest, hrest⟩
    -- the first character would be a digit
    obtain ⟨c, digits, hc⟩ := List.exists_cons_of_ne_nil
      (Nat.toDigits_ne_nil (n := e.table) (b := 10))
    have hdigit := isDigitIn_toDigits (by decide : 1 < 10) (by decide) e.table c (by simp [hc])
    have hhead : some c = some 'c' := by
      have := congrArg List.head? hrest
      rw [defineWord, hc] at this
      exact this.symm
    rw [Option.some.inj hhead] at hdigit
    exact absurd hdigit (by decide)

/-- The end of a local `hk define` with entries that are read. -/
def defineLocal (report : UInt32) (entries : List HkEntry) : HkProg Int :=
  if report.toNat ≥ cfg.reports then .done (-EINVAL)
  else
    .call (.defineClass report.toUInt8 entries (UInt8.ofNat KFSW_HK_CLASS_DEFAULT))
      fun result => settingResult cfg result

section Printed

variable {cfg} (hulong : UINT16_MAX ≤ cfg.ulongMax) (hoffset : cfg.paramOffsetMax ≤ UINT16_MAX)
  {report : Report} (hrange : ∀ e ∈ report.entries, EntryInRange cfg e)
include hulong hoffset hrange

/-- The list of a printed definition is accepted, with its entries in order. -/
theorem parseEntries_define (hne : report.entries ≠ [])
    (hcount : report.entries.length ≤ cfg.entries) :
    parseEntries cfg (defineText report) cfg.entries
      = .ok (report.entries.map (nodeEntry cfg)) := by
  rw [parseEntries_ok_iff, textWords_defineText]
  refine ⟨?_, by rw [List.length_map]; exact hcount, ?_,
    readEntries_define cfg hulong hoffset report.entries hrange⟩
  · intro hnil
    exact hne (List.map_eq_nil_iff.mp hnil)
  · intro w hw
    obtain ⟨e, he, rfl⟩ := List.mem_map.mp hw
    exact defineWord_length cfg hoffset (hrange e he)

/-- What the node's parser leaves in the entries it is given. -/
theorem parseEntriesTo_define (hne : report.entries ≠ [])
    (hcount : report.entries.length ≤ cfg.entries) (out : EntriesOut) :
    (parseEntriesTo cfg (defineText report) cfg.entries out).1 = 0
      ∧ (parseEntriesTo cfg (defineText report) cfg.entries out).2.count = report.entries.length
      ∧ ∀ i e, report.entries[i]? = some e →
        (parseEntriesTo cfg (defineText report) cfg.entries out).2.entries i = nodeEntry cfg e := by
  have hparsed := parseEntries_define hulong hoffset hrange hne hcount
  have hread : report.entries.map (nodeEntry cfg) ≠ [] := fun h => hne (List.map_eq_nil_iff.mp h)
  have hspec := parseEntriesTo_spec cfg hulong (defineText report) cfg.entries out
  obtain ⟨hlength, hwritten⟩ := hspec.accepted _ hparsed hread
  refine ⟨?_, hlength.trans (List.length_map _), fun i e he => ?_⟩
  · rw [hspec.status, hparsed]
    obtain ⟨entry, entries, hcons⟩ := List.exists_cons_of_ne_nil hread
    rw [hcons]
    rfl
  · exact hwritten i _ (by rw [List.getElem?_map, he]; rfl)

/-- The words of a printed line take the local branch. -/
theorem cmdHkDefine_define (hne : report.entries ≠ [])
    (hcount : report.entries.length ≤ cfg.entries)
    (shellStrtoul : Text → Nat → Except Int Nat) {argv : List Text}
    (hargv : argv = DEFINE :: Nat.toDigits 10 report.report :: report.entries.map defineWord) :
    definesRemote cfg argv = false
      ∧ cmdHkDefine cfg shellStrtoul argv
        = match parseU32 shellStrtoul (Nat.toDigits 10 report.report) with
          | .error e => .done e
          | .ok number => defineLocal cfg number (report.entries.map (nodeEntry cfg)) := by
  have hpos : 0 < report.entries.length := List.length_pos_of_ne_nil hne
  obtain ⟨first, others, hentries⟩ := List.exists_cons_of_ne_nil hne
  have hword : arg argv 2 = defineWord first := by
    rw [hargv, hentries]
    rfl
  have hnumber : arg argv 1 = Nat.toDigits 10 report.report := by
    rw [hargv]
    rfl
  have hdrop : argv.drop 2 = report.entries.map defineWord := by
    rw [hargv]
    rfl
  have hlength : argv.length = report.entries.length + 2 := by
    rw [hargv, List.length_cons, List.length_cons, List.length_map]
  obtain ⟨hcolon, hclass⟩ := defineWord_local first
  have hlocal : definesRemote cfg argv = false := by
    rw [definesRemote, hword, hcolon]
    simp
  refine ⟨hlocal, ?_⟩
  unfold cmdHkDefine
  rw [hlocal, if_neg (by decide), hnumber]
  cases parseU32 shellStrtoul (Nat.toDigits 10 report.report) with
  | error e => rfl
  | ok number =>
    dsimp only
    rw [defineClassWord, hword, hclass, if_neg (by decide)]
    dsimp only
    unfold defineEntries defineLocal
    rw [hdrop, readEntries_define cfg hulong hoffset report.entries hrange, hlength]
    by_cases hreports : number.toNat ≥ cfg.reports
    · rw [if_pos (.inl hreports), if_pos hreports]
    · rw [if_neg (by omega), if_neg (by omega), if_neg hreports]

end Printed

/-- **What the node reads in a printed definition.**  The entry text is accepted and leaves the
definition's entries in order, each on the local node; each word is accepted alone; and the
words of the printed line, typed to the shell, take the local branch of `hk define`, with the
same entries. -/
theorem cmdDefine_read (hulong : UINT16_MAX ≤ cfg.ulongMax)
    (hoffset : cfg.paramOffsetMax ≤ UINT16_MAX) (shellStrtoul : Text → Nat → Except Int Nat)
    (report : Report) (hcount : 1 ≤ report.entries.length ∧ report.entries.length ≤ cfg.entries)
    (hrange : ∀ e ∈ report.entries, EntryInRange cfg e) :
    (∀ out, let r := parseEntriesTo cfg (defineText report) cfg.entries out
        r.1 = 0 ∧ r.2.count = report.entries.length
          ∧ ∀ i e, report.entries[i]? = some e → r.2.entries i = nodeEntry cfg e)
      ∧ textWords (defineText report) = report.entries.map defineWord
      ∧ (∀ e ∈ report.entries, ∀ old,
          parseEntryTo cfg (defineWord e) old = (0, nodeEntry cfg e))
      ∧ let argv := (textWords (cmdDefine report)).drop 1
        definesRemote cfg argv = false
          ∧ cmdHkDefine cfg shellStrtoul argv
            = match parseU32 shellStrtoul (Nat.toDigits 10 report.report) with
              | .error e => .done e
              | .ok number => defineLocal cfg number (report.entries.map (nodeEntry cfg)) := by
  have hne : report.entries ≠ [] := List.ne_nil_of_length_pos hcount.1
  refine ⟨?_, textWords_defineText report, ?_, ?_⟩
  · exact parseEntriesTo_define hulong hoffset hrange hne hcount.2
  · intro e he old
    have hentry := (parseEntry_ok_iff cfg hulong hoffset _ _).mpr
      (defineWord_isEntry cfg (hrange e he))
    rw [parseEntryTo_eq cfg hulong, hentry]
  · intro argv
    have hargv : argv = DEFINE :: Nat.toDigits 10 report.report
        :: report.entries.map defineWord := by
      show (textWords (cmdDefine report)).drop 1 = _
      rw [textWords_cmdDefine]
      rfl
    exact cmdHkDefine_define hulong hoffset hrange hne hcount.2 shellStrtoul hargv

/-- A report of two values, the first at an offset of one hexadecimal digit. -/
def powerReport : Report :=
  ⟨3, "power", [⟨1, 10, "voltage", .u16, none, none, none, none⟩,
    ⟨20, 255, "current", .i16, none, none, none, none⟩]⟩

theorem cmdDefine_read_power :
    (parseEntriesTo exampleBuild (defineText powerReport) 16 ⟨fun _ => ⟨7, 7⟩, 0⟩).1 = 0
      ∧ definesRemote exampleBuild ((textWords (cmdDefine powerReport)).drop 1) = false := by
  have h := cmdDefine_read exampleBuild (by decide) (by decide) decimalStrtoul powerReport
    (by decide) (by
      intro e he
      simp only [powerReport, List.mem_cons, List.not_mem_nil, or_false] at he
      rcases he with rfl | rfl
      · exact ⟨by decide, by decide⟩
      · exact ⟨by decide, by decide⟩)
  exact ⟨(h.1 _).1, h.2.2.2.1⟩

example : defineText powerReport = "1:0x0a 20:0xff".toList := by decide +kernel

end KFsw.Ground
