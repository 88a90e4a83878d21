/-
  KFsw.App.ShellHk — the `hk` commands of the shell, `app/src/shell/shell_hk.c`.

  `argv` is the command line, the command's own name first; the shell guarantees
  the words a handler reads without looking.  `shell_strtoul` lies outside this
  repository and is a parameter: it gives the number written or an error.  What
  the commands print is left out.

  Main results:
    * `parseU32_eq`      — a text is read as the number it is accepted as, or
      refused;
    * `defineJoin_spec`  — the words of a remote definition are joined by single
      spaces, or refused, and never cut.
-/
import KFsw.App.Hk

namespace KFsw.App

open KFsw.Lib Prog

/-- `argv[i]`. -/
def arg (argv : List Text) (i : Nat) : Text := argv.getD i []

/-- `"--retry"`. -/
def RETRY : Text := "--retry".toList

/-- A `shell_strtoul` for plain decimal numbers. -/
def decimalStrtoul (text : Text) (_base : Nat) : Except Int Nat :=
  if text ≠ [] ∧ text.all isdigit = true then
    .ok (text.foldl (fun n c => n * 10 + (digitValue c).getD 0) 0)
  else
    .error (-EINVAL)

/-- Such a number has neither a ':' nor a '='. -/
theorem decimalStrtoul_ok {text : Text} {base n : Nat} (h : decimalStrtoul text base = .ok n) :
    ':' ∉ text ∧ '=' ∉ text := by
  unfold decimalStrtoul at h
  split at h
  · rename_i hdigits
    have hall := List.all_eq_true.mp hdigits.2
    exact ⟨fun hc => absurd (hall ':' hc) (by decide), fun hc => absurd (hall '=' hc) (by decide)⟩
  · exact absurd h (by simp)

section Shell

variable (cfg : HkConfig) (shellStrtoul : Text → Nat → Except Int Nat)

/-! ## §1. Numbers and nodes. -/

/-- The number a text is accepted as: `shell_strtoul` reads it, and it has 32 bits. -/
def accepted (text : Text) : Option Nat :=
  match shellStrtoul text 0 with
  | .ok parsed => if parsed > UINT32_MAX then none else some parsed
  | .error _ => none

/-- `parse_u32`. -/
def parseU32 (text : Text) : Except Int UInt32 :=
  match shellStrtoul text 0 with
  | .error _ => .error (-EINVAL)
  | .ok parsed =>
    if parsed > UINT32_MAX then .error (-EINVAL) else .ok (UInt32.ofNat parsed)

/-- **`parse_u32` gives the number a text is accepted as**, and refuses every other text. -/
theorem parseU32_eq (text : Text) :
    parseU32 shellStrtoul text = match accepted shellStrtoul text with
      | some n => .ok (UInt32.ofNat n)
      | none => .error (-EINVAL) := by
  unfold parseU32 accepted
  cases shellStrtoul text 0 with
  | error e => rfl
  | ok parsed =>
    dsimp only
    split <;> rfl

theorem accepted_le {text : Text} {n : Nat} (h : accepted shellStrtoul text = some n) :
    n ≤ UINT32_MAX := by
  unfold accepted at h
  split at h
  · split at h
    · exact absurd h (by simp)
    · injection h
      omega
  · exact absurd h (by simp)

theorem accepted_of_ok {text : Text} {n : Nat} (h : shellStrtoul text 0 = .ok n)
    (hn : n ≤ UINT32_MAX) : accepted shellStrtoul text = some n := by
  unfold accepted
  rw [h]
  exact if_neg (by omega)

theorem toUInt32_eq {n : Nat} (h : n ≤ UINT32_MAX) : (UInt32.ofNat n).toNat = n := by
  rw [UInt32.toNat_ofNat']
  unfold UINT32_MAX at h
  omega

/-- `kfsw_shell_parse_node`. -/
def parseNode (text : Text) : Except Int UInt16 :=
  match shellStrtoul text 10 with
  | .error _ => .error (-EINVAL)
  | .ok parsed =>
    if parsed = 0 ∨ parsed ≥ cfg.cspBroadcastAddress then .error (-EINVAL)
    else .ok (UInt16.ofNat parsed)

/-- `setting_result`, and the checks of its result that follow every call of it: the result is
returned, after the statistics were asked for when it was applied but not saved. -/
def settingResult (result : Int) : HkProg Int :=
  if result = cfg.appliedUnsaved then .call .getStats fun _ => .done result else .done result

/-! ## §2. Commands for another node. -/

/-- `names_node`. -/
def namesNode (argv : List Text) (localArgc : Nat) : Bool :=
  let argc := argv.length
  -- the option is not one of the words that are counted
  let argc := if argc > 1 ∧ arg argv (argc - 1) = RETRY then argc - 1 else argc
  decide (argc > localArgc)

/-- `run_remote`. -/
def runRemote (command : Text) (argv : List Text) : HkProg Int :=
  match parseNode cfg shellStrtoul (arg argv 1) with
  | .error e => .done e
  | .ok node => .call (.runCommand node command (argv.drop 2)) fun result => .done result

/-- The joining loop of `define_remote`: each word goes behind `used` characters of the
buffer, after a space unless it is the first. -/
def defineJoin {capacity : Nat} :
    CBuffer capacity → Nat → List Text → Except Int (CBuffer capacity)
  | buffer, _, [] => .ok buffer
  | buffer, used, word :: words =>
    let written := buffer.snprintf used ((if used = 0 then [] else [' ']) ++ word)
    -- `snprintf` returns the length it needed, which is too long when it was cut
    if written.2 ≥ capacity - used then .error (-E2BIG)
    else defineJoin written.1 (used + written.2) words

theorem joinWords_cons (t w : Text) (words : List Text) :
    joinWords ((t ++ ' ' :: w) :: words) = joinWords (t :: w :: words) := by
  cases words with
  | nil => rfl
  | cons v rest =>
    show (t ++ ' ' :: w) ++ ' ' :: joinWords (v :: rest) = _
    rw [List.append_assoc]
    rfl

/-- What is written already stays in front of everything joined behind it. -/
theorem length_le_joinWords (t : Text) (words : List Text) :
    t.length ≤ (joinWords (t :: words)).length := by
  cases words with
  | nil => exact Nat.le_refl _
  | cons v rest =>
    show t.length ≤ (t ++ ' ' :: joinWords (v :: rest)).length
    rw [List.length_append]
    exact Nat.le_add_right _ _

/-- The loop behind text that is in the buffer. -/
theorem defineJoin_append {capacity : Nat} (words : List Text) (buffer : CBuffer capacity)
    (hne : buffer.text ≠ []) :
    (defineJoin buffer buffer.text.length words).map CBuffer.text
      = if (joinWords (buffer.text :: words)).length < capacity
        then .ok (joinWords (buffer.text :: words)) else .error (-E2BIG) := by
  -- on the words, with the text in the buffer as what is joined so far
  induction words generalizing buffer with
  | nil =>
    rw [if_pos (by exact buffer.fits)]
    rfl
  | cons w words ih =>
    have hused : buffer.text.length ≠ 0 := fun h => hne (List.length_eq_zero_iff.mp h)
    unfold defineJoin
    rw [if_neg hused]
    by_cases hfit : (' ' :: w).length < capacity - buffer.text.length
    · -- the word is written whole, and the loop goes on behind it
      have htext := buffer.snprintf_append (' ' :: w) hfit
      have hlength : buffer.text.length + (' ' :: w).length
          = (buffer.snprintf buffer.text.length (' ' :: w)).1.text.length := by
        rw [htext, List.length_append]
      have h := ih (buffer.snprintf buffer.text.length (' ' :: w)).1 (by rw [htext]; simp)
      rw [← hlength, htext, joinWords_cons] at h
      rw [← h]
      show Except.map _ (if (' ' :: w).length ≥ capacity - buffer.text.length then _ else _) = _
      rw [if_neg (by omega)]
      rfl
    · -- what does not fit is refused
      have hlong := length_le_joinWords (buffer.text ++ ' ' :: w) words
      rw [joinWords_cons, List.length_append] at hlong
      show Except.map _ (if (' ' :: w).length ≥ capacity - buffer.text.length then _ else _) = _
      rw [if_pos (by omega), if_neg (by omega)]
      rfl

/-- **The joining loop** joins all words by single spaces when they fit, and refuses them
otherwise; it never cuts them. -/
theorem defineJoin_spec {capacity : Nat} (hcapacity : 0 < capacity) (words : List Text)
    (hw : ∀ w ∈ words, w ≠ []) :
    (defineJoin (CBuffer.empty hcapacity) 0 words).map CBuffer.text
      = if (joinWords words).length < capacity then .ok (joinWords words)
        else .error (-E2BIG) := by
  cases words with
  | nil =>
    rw [if_pos (by exact hcapacity)]
    rfl
  | cons w words =>
    have hne := hw w List.mem_cons_self
    unfold defineJoin
    rw [if_pos rfl, List.nil_append]
    by_cases hfit : w.length < capacity
    · have htext := (CBuffer.empty hcapacity).snprintf_append w (by exact hfit)
      have h := defineJoin_append words ((CBuffer.empty hcapacity).snprintf 0 w).1
        (by rw [show 0 = (CBuffer.empty hcapacity).text.length from rfl, htext]; exact hne)
      rw [show ((CBuffer.empty hcapacity).snprintf 0 w).1.text = w from htext] at h
      rw [← h]
      show Except.map _ (if w.length ≥ capacity - 0 then _ else _) = _
      rw [if_neg (by omega), Nat.zero_add]
      rfl
    · have hlong := length_le_joinWords w words
      show Except.map _ (if w.length ≥ capacity - 0 then _ else _) = _
      rw [if_pos (by omega), if_neg (by omega)]
      rfl

/-- `define_remote`. -/
def defineRemote (argv : List Text) : HkProg Int :=
  match parseNode cfg shellStrtoul (arg argv 1) with
  | .error e => .done e
  | .ok node =>
    let last := if arg argv (argv.length - 1) = RETRY then argv.length - 1 else argv.length
    match defineJoin (CBuffer.empty (Nat.succ_pos cfg.commandMaxTextSize)) 0
        ((argv.take last).drop 3) with
    | .error e => .done e
    | .ok entries =>
      .call (.runCommand node "hk_define".toList
        ([arg argv 2, entries.text] ++ if last < argv.length then [RETRY] else []))
        fun result => .done result

/-! ## §3. Defining a report. -/

/-- Whether `hk define` is for another node: entries hold a ':', so a plain number after the
report names a node. -/
def definesRemote (argv : List Text) : Bool :=
  cfg.commandCsp && decide (argv.length > 3) && !(arg argv 2).contains ':'
    && !CLASS_PREFIX.isPrefixOf (arg argv 2)

/-- The class word of a local `hk define`: the class, and the index of the first entry. -/
def defineClassWord (argv : List Text) : Except Int (Nat × Nat) :=
  if CLASS_PREFIX.isPrefixOf (arg argv 2) = true then
    match parseClass cfg (arg argv 2) with
    | .error e => .error e
    | .ok (retrievalClass, text) =>
      if text ≠ [] then .error (-EINVAL) else .ok (retrievalClass, 3)
  else
    .ok (KFSW_HK_CLASS_DEFAULT, 2)

/-- The rest of `cmd_hk_define`, from the check of the report on. -/
def defineEntries (argv : List Text) (report : UInt32) (retrievalClass firstEntry : Nat) :
    HkProg Int :=
  if report.toNat ≥ cfg.reports ∨ argv.length ≤ firstEntry then .done (-EINVAL)
  else if argv.length - firstEntry > cfg.entries then .done (-E2BIG)
  else
    match readEntries cfg (argv.drop firstEntry) with
    | .error e => .done e
    | .ok entries =>
      .call (.defineClass report.toUInt8 entries (UInt8.ofNat retrievalClass))
        fun result => settingResult cfg result

/-- `cmd_hk_define`. -/
def cmdHkDefine (argv : List Text) : HkProg Int :=
  if definesRemote cfg argv = true then
    defineRemote cfg shellStrtoul argv
  else
    match parseU32 shellStrtoul (arg argv 1) with
    | .error e => .done e
    | .ok report =>
      match defineClassWord cfg argv with
      | .error e => .done e
      | .ok (retrievalClass, firstEntry) =>
        defineEntries cfg argv report retrievalClass firstEntry

/-! ## §4. Commands on one report. -/

/-- The body the local commands on one report share: its number is read, one call is made. -/
def withReport (argv : List Text) (run : UInt8 → HkProg Int) : HkProg Int :=
  match parseU32 shellStrtoul (arg argv 1) with
  | .error e => .done e
  | .ok report => run report.toUInt8

/-- `cmd_hk_clear`. -/
def cmdHkClear (argv : List Text) : HkProg Int :=
  if (cfg.commandCsp && namesNode argv 2) = true then
    runRemote cfg shellStrtoul "hk_clear".toList argv
  else
    withReport shellStrtoul argv fun report =>
      .call (.clear report) fun result => settingResult cfg result

/-- `cmd_hk_collect`. -/
def cmdHkCollect (argv : List Text) : HkProg Int :=
  withReport shellStrtoul argv fun report => .call (.collect report) fun result => .done result

/-- The loop of `cmd_hk_get`, for so many samples from `age` on. -/
def hkGetLoop (report : UInt8) : Nat → Nat → HkProg Int
  | 0, _ => .done 0
  | wanted + 1, age =>
    .call (.get report (UInt16.ofNat age)) fun (result : Int) =>
      -- a sample that cannot be had ends the list without an error
      if result ≠ 0 then .done 0 else hkGetLoop report wanted (age + 1)

/-- `cmd_hk_get`. -/
def cmdHkGet (argv : List Text) : HkProg Int :=
  match parseU32 shellStrtoul (arg argv 1) with
  | .error e => .done e
  | .ok report =>
    if argv.length > 2 then
      match parseU32 shellStrtoul (arg argv 2) with
      | .error e => .done e
      | .ok wanted => hkGetLoop report.toUInt8 wanted.toNat 0
    else
      hkGetLoop report.toUInt8 1 0

/-- `cmd_hk_period`. -/
def cmdHkPeriod (argv : List Text) : HkProg Int :=
  if (cfg.commandCsp && namesNode argv 3) = true then
    runRemote cfg shellStrtoul "hk_period".toList argv
  else
    match parseU32 shellStrtoul (arg argv 1) with
    | .error e => .done e
    | .ok report =>
      match parseU32 shellStrtoul (arg argv 2) with
      | .error e => .done e
      | .ok period =>
        .call (.setPeriod report.toUInt8 period) fun result => settingResult cfg result

/-- `cmd_hk_store`. -/
def cmdHkStore (argv : List Text) : HkProg Int :=
  match parseU32 shellStrtoul (arg argv 1), parseU32 shellStrtoul (arg argv 2) with
  | .ok report, .ok interval =>
    .call (.setStore report.toUInt8 interval) fun result => settingResult cfg result
  | _, _ => .done (-EINVAL)

/-- `cmd_hk_store_clear`. -/
def cmdHkStoreClear (argv : List Text) : HkProg Int :=
  match parseU32 shellStrtoul (arg argv 1) with
  | .ok report => .call (.clearStore report.toUInt8) fun result => settingResult cfg result
  | .error _ => .done (-EINVAL)

/-- `cmd_hk_beacon`. -/
def cmdHkBeacon (argv : List Text) : HkProg Int :=
  match parseU32 shellStrtoul (arg argv 1), parseU32 shellStrtoul (arg argv 2),
      parseU32 shellStrtoul (arg argv 3) with
  | .ok report, .ok node, .ok interval =>
    .call (.setBeacon report.toUInt8 node.toUInt16 interval) fun result =>
      settingResult cfg result
  | _, _, _ => .done (-EINVAL)

/-! ## §5. Stored samples. -/

/-- `strchr(argument, '=') + 1`. -/
def afterEquals (argument : Text) : Option Text :=
  match argument.dropWhile (· ≠ '=') with
  | [] => none
  | _ :: value => some value

/-- The names of `parse_filter`. -/
def FROM : Text := "from=".toList
def TO : Text := "to=".toList
def SINCE : Text := "since=".toList
def UNTIL : Text := "until=".toList
def SKIP : Text := "skip=".toList

/-- One turn of the loop of `parse_filter`. -/
def filterArgument (filter : HkStoreFilter) (argument : Text) : Except Int HkStoreFilter :=
  match afterEquals argument with
  | none => .error (-EINVAL)
  | some value =>
    match parseU32 shellStrtoul value with
    | .error e => .error e
    | .ok parsed =>
      if FROM.isPrefixOf argument then .ok { filter with fromSequence := parsed.toUInt16 }
      else if TO.isPrefixOf argument then .ok { filter with toSequence := parsed.toUInt16 }
      else if SINCE.isPrefixOf argument then .ok { filter with fromSeconds := parsed }
      else if UNTIL.isPrefixOf argument then .ok { filter with toSeconds := parsed }
      else if SKIP.isPrefixOf argument then .ok { filter with withoutFlags := parsed.toUInt8 }
      else .error (-EINVAL)

def filterArguments : HkStoreFilter → List Text → Except Int HkStoreFilter
  | filter, [] => .ok filter
  | filter, argument :: arguments =>
    match filterArgument shellStrtoul filter argument with
    | .error e => .error e
    | .ok filter => filterArguments filter arguments

/-- `parse_filter`. -/
def parseFilter (argv : List Text) : Except Int HkStoreFilter :=
  match parseU32 shellStrtoul (arg argv 1) with
  | .error e => .error e
  | .ok report => filterArguments shellStrtoul ⟨report.toUInt8, 0, 0, 0, 0, 0⟩ (argv.drop 2)

/-- The reading loop of `cmd_hk_stored`. -/
def hkStoredLoop (filter : HkStoreFilter) : Nat → Nat → HkProg Int
  | 0, _ => .done 0
  | left + 1, index =>
    .call (.storeRead filter (UInt16.ofNat index)) fun (result : Int) =>
      if result ≠ 0 then .done 0 else hkStoredLoop filter left (index + 1)

/-- `cmd_hk_stored`. -/
def cmdHkStored (argv : List Text) : HkProg Int :=
  match parseFilter shellStrtoul argv with
  | .error e => .done e
  | .ok filter =>
    .call (.storeQuery filter.report) fun (result : Int) =>
      if result ≠ 0 then .done result
      else
        .call (.storeCount filter) fun (reply : Int × UInt16) =>
          if reply.1 ≠ 0 then .done reply.1 else hkStoredLoop filter reply.2.toNat 0

/-- `cmd_hk_extract`: the path is the second argument, so it is taken out of the list the
filter is parsed from. -/
def cmdHkExtract (argv : List Text) : HkProg Int :=
  if argv.length > cfg.entries + 2 then .done (-EINVAL)
  else
    match parseFilter shellStrtoul ([arg argv 0, arg argv 1] ++ argv.drop 3) with
    | .error e => .done e
    | .ok filter => .call (.storeExtract filter (arg argv 2)) fun result => .done result

end Shell

end KFsw.App
