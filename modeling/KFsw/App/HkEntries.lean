/-
  KFsw.App.HkEntries — the housekeeping entry syntax `[node:]table:offset`,
  `app/src/hk_entries.c`.

  The shell and the command service share these parsers.  What the services
  define outside this repository (Kconfig values, `KFSW_PARAM_ID`) is the record
  `HkConfig`; a pointer that is NULL is no value here, so its check is left out.

  Main results:
    * `parseEntries_eq`      — a list is read word by word, in order;
    * `parseEntries_ok_iff`  — and accepted exactly when it has a word, no more
      words than room, no word as long as the token buffer, and each is an entry;
    * `parseClass_append`    — the class prefix reads the same alone and with
      entries behind it.
-/
import KFsw.Lib.CString

namespace KFsw.App

open KFsw.Lib

/-! ## §1. Codes and configuration. -/

def ENOENT : Int := 2
def EIO : Int := 5
def E2BIG : Int := 7
def EACCES : Int := 13
def EBUSY : Int := 16
def EINVAL : Int := 22
def ERANGE : Int := 34
def ENAMETOOLONG : Int := 36

def UINT8_MAX : Nat := 255
def UINT16_MAX : Nat := 65535
def UINT32_MAX : Nat := 4294967295

/-- Absent means class 4, and a class above 7 is out of range. -/
def KFSW_HK_CLASS_DEFAULT : Nat := 4
def KFSW_HK_CLASS_MAX : Nat := 7

/-- What a build fixes outside this repository. -/
structure HkConfig where
  /-- `ULONG_MAX`. -/
  ulongMax : Nat
  /-- `CONFIG_KFSW_HK_REPORTS`; `hk show` counts the reports in a `uint8_t`. -/
  reports : Nat
  reports_le : reports ≤ UINT8_MAX
  /-- `CONFIG_KFSW_HK_ENTRIES`. -/
  entries : Nat
  /-- `KFSW_PARAM_OFFSET_MAX`. -/
  paramOffsetMax : Nat
  /-- `KFSW_PARAM_ID(table, offset)`. -/
  paramId : Nat → Nat → Nat
  /-- `KFSW_HK_NODE_LOCAL`. -/
  nodeLocal : Nat
  /-- `KFSW_COMMAND_MAX_TEXT_SIZE`. -/
  commandMaxTextSize : Nat
  /-- `KFSW_COMMAND_MAX_DETAIL_SIZE`, the size of `result->detail`. -/
  commandMaxDetailSize : Nat
  /-- `KFSW_CSP_BROADCAST_ADDRESS`. -/
  cspBroadcastAddress : Nat
  /-- `KFSW_HK_APPLIED_UNSAVED`. -/
  appliedUnsaved : Int
  /-- `CONFIG_KFSW_COMMAND_CSP`. -/
  commandCsp : Bool

/-- A build with a command service. -/
def exampleBuild : HkConfig where
  ulongMax := UINT32_MAX
  reports := 8
  reports_le := by decide
  entries := 16
  paramOffsetMax := UINT8_MAX
  paramId := fun table offset => table * 256 + offset
  nodeLocal := 0
  commandMaxTextSize := 64
  commandMaxDetailSize := 96
  cspBroadcastAddress := 16383
  appliedUnsaved := 1
  commandCsp := true

/-- `struct kfsw_hk_entry`. -/
structure HkEntry where
  node : Nat
  paramId : Nat
  deriving DecidableEq, Repr

variable (cfg : HkConfig)

/-! ## §2. One entry. -/

/-- The loop of `kfsw_app_hk_parse_entry`: the numbers between colons, with room for so many
more, and the cursor after them. -/
def parseParts : Nat → Text → Except Int (List Nat × Text)
  | 0, _ => .error (-EINVAL)
  | room + 1, cursor =>
    -- `strtoul` would also take white space or a sign
    if (cursor.head?.elim false isdigit) = false then
      .error (-EINVAL)
    else
      let number := strtoul cfg.ulongMax cursor
      if number.range = true ∨ number.value > UINT16_MAX then
        .error (-EINVAL)
      else
        match number.rest with
        | ':' :: cursor =>
          match parseParts room cursor with
          | .error e => .error e
          | .ok (parts, cursor) => .ok (number.value :: parts, cursor)
        | cursor => .ok ([number.value], cursor)

/-- `kfsw_app_hk_parse_entry`. -/
def parseEntry (text : Text) : Except Int HkEntry :=
  match parseParts cfg 3 text with
  | .error e => .error e
  | .ok (parts, cursor) =>
    let count := parts.length
    if cursor ≠ [] ∨ count < 2 ∨ parts.getD (count - 2) 0 > UINT8_MAX
        ∨ parts.getD (count - 1) 0 > cfg.paramOffsetMax then
      .error (-EINVAL)
    else if count = 2 then
      .ok ⟨cfg.nodeLocal, cfg.paramId (parts.getD 0 0) (parts.getD 1 0)⟩
    else
      .ok ⟨parts.getD 0 0, cfg.paramId (parts.getD 1 0) (parts.getD 2 0)⟩

/-! ## §3. A list of entries. -/

/-- `sizeof(token)`. -/
def TOKEN_SIZE : Nat := 24

/-- The loop of `kfsw_app_hk_parse_entries`, with the entries parsed so far. -/
def parseEntriesLoop (max : Nat) (cursor : Text) (parsed : List HkEntry) :
    Except Int (List HkEntry) :=
  match _h : cursor.dropWhile (· = ' ') with
  | [] => .ok parsed
  | c :: rest =>
    let token := (c :: rest).takeWhile (· ≠ ' ')
    if token.length ≥ TOKEN_SIZE then .error (-EINVAL)
    else if parsed.length = max then .error (-E2BIG)
    else
      match parseEntry cfg token with
      | .error _ => .error (-EINVAL)
      | .ok entry =>
        parseEntriesLoop max ((c :: rest).dropWhile (· ≠ ' ')) (parsed ++ [entry])
termination_by cursor.length
decreasing_by exact length_after_word _h

/-- `kfsw_app_hk_parse_entries`: the entries, whose number is `*count`. -/
def parseEntries (text : Text) (max : Nat) : Except Int (List HkEntry) :=
  if max = 0 then .error (-EINVAL)
  else
    match parseEntriesLoop cfg max text [] with
    | .error e => .error e
    | .ok parsed => if parsed = [] then .error (-EINVAL) else .ok parsed

/-- The same loop over the words of a text. -/
def parseWords (max : Nat) : List Text → List HkEntry → Except Int (List HkEntry)
  | [], parsed => .ok parsed
  | word :: words, parsed =>
    if word.length ≥ TOKEN_SIZE then .error (-EINVAL)
    else if parsed.length = max then .error (-E2BIG)
    else
      match parseEntry cfg word with
      | .error _ => .error (-EINVAL)
      | .ok entry => parseWords max words (parsed ++ [entry])

/-- One turn of the loop. -/
theorem parseEntriesLoop_turn (max : Nat) (cursor : Text) (parsed : List HkEntry) :
    parseEntriesLoop cfg max cursor parsed = match cursor.dropWhile (· = ' ') with
      | [] => .ok parsed
      | c :: rest =>
        let token := (c :: rest).takeWhile (· ≠ ' ')
        if token.length ≥ TOKEN_SIZE then .error (-EINVAL)
        else if parsed.length = max then .error (-E2BIG)
        else
          match parseEntry cfg token with
          | .error _ => .error (-EINVAL)
          | .ok entry =>
            parseEntriesLoop cfg max ((c :: rest).dropWhile (· ≠ ' ')) (parsed ++ [entry]) := by
  rw [parseEntriesLoop]
  split <;> rename_i h <;> rw [h]

/-- **A list is read word by word.** -/
theorem parseEntries_eq (max : Nat) (text : Text) (parsed : List HkEntry) :
    parseEntriesLoop cfg max text parsed = parseWords cfg max (textWords text) parsed := by
  induction text, parsed using parseEntriesLoop.induct cfg max with
  | case1 text parsed h =>
    rw [parseEntriesLoop_turn, textWords_eq, h]
    rfl
  | case2 text parsed c rest h token hlong =>
    rw [parseEntriesLoop_turn, textWords_eq, h]
    dsimp only
    rw [parseWords, if_pos hlong, if_pos hlong]
  | case3 text parsed c rest h token hlong hfull =>
    rw [parseEntriesLoop_turn, textWords_eq, h]
    dsimp only
    rw [parseWords, if_neg hlong, if_neg hlong, if_pos hfull, if_pos hfull]
  | case4 text parsed c rest h token hlong hfull e he =>
    rw [parseEntriesLoop_turn, textWords_eq, h]
    dsimp only
    rw [parseWords, if_neg hlong, if_neg hlong, if_neg hfull, if_neg hfull, he]
  | case5 text parsed c rest h token hlong hfull entry he ih =>
    rw [parseEntriesLoop_turn, textWords_eq, h]
    dsimp only
    rw [parseWords, if_neg hlong, if_neg hlong, if_neg hfull, if_neg hfull, he]
    exact ih

/-- The entries of some words, none refused; what a caller gets who reads them one by one. -/
def readEntries : List Text → Except Int (List HkEntry)
  | [] => .ok []
  | word :: words =>
    match parseEntry cfg word with
    | .error _ => .error (-EINVAL)
    | .ok entry =>
      match readEntries words with
      | .error e => .error e
      | .ok entries => .ok (entry :: entries)

theorem readEntries_length {words : List Text} {entries : List HkEntry}
    (h : readEntries cfg words = .ok entries) : entries.length = words.length := by
  induction words generalizing entries with
  | nil =>
    injection h with h
    rw [← h]
    rfl
  | cons word words ih =>
    rw [readEntries] at h
    split at h
    · exact absurd h (by simp)
    · split at h
      · exact absurd h (by simp)
      · rename_i rest hrest
        injection h with h
        rw [← h, List.length_cons, List.length_cons, ih hrest]

/-- One word more in front. -/
theorem readEntries_cons_ok_iff (word : Text) (words : List Text) (entries : List HkEntry) :
    readEntries cfg (word :: words) = .ok entries
      ↔ ∃ entry rest, parseEntry cfg word = .ok entry ∧ readEntries cfg words = .ok rest
        ∧ entry :: rest = entries := by
  rw [readEntries]
  cases parseEntry cfg word with
  | error e => simp
  | ok entry =>
    cases readEntries cfg words with
    | error e => simp
    | ok rest => simp

/-- One turn of the loop over words. -/
theorem parseWords_cons_ok_iff (max : Nat) (word : Text) (words : List Text)
    (parsed entries : List HkEntry) :
    parseWords cfg max (word :: words) parsed = .ok entries
      ↔ word.length < TOKEN_SIZE ∧ parsed.length ≠ max
        ∧ ∃ entry, parseEntry cfg word = .ok entry
          ∧ parseWords cfg max words (parsed ++ [entry]) = .ok entries := by
  rw [parseWords]
  by_cases hlong : word.length ≥ TOKEN_SIZE
  · rw [if_pos hlong]
    exact iff_of_false (by simp) fun h => absurd h.1 (by omega)
  · rw [if_neg hlong]
    by_cases hfull : parsed.length = max
    · rw [if_pos hfull]
      exact iff_of_false (by simp) fun h => h.2.1 hfull
    · rw [if_neg hfull]
      have hshort : word.length < TOKEN_SIZE := by omega
      cases parseEntry cfg word with
      | error e => simp
      | ok entry => simp [hshort, hfull]

/-- **When the loop accepts its words**: none is as long as the token buffer, there is room, and
every word is an entry. -/
theorem parseWords_ok_iff (max : Nat) (words : List Text) (parsed entries : List HkEntry)
    (hroom : parsed.length ≤ max) :
    parseWords cfg max words parsed = .ok entries
      ↔ (∀ w ∈ words, w.length < TOKEN_SIZE) ∧ parsed.length + words.length ≤ max
        ∧ ∃ new, readEntries cfg words = .ok new ∧ parsed ++ new = entries := by
  -- on the words, with the entries parsed so far as the accumulator
  induction words generalizing parsed with
  | nil =>
    constructor
    · intro h
      injection h with h
      exact ⟨by simp, by simpa using hroom, [], rfl, by rw [List.append_nil, h]⟩
    · intro h
      obtain ⟨_, _, new, hnew, rfl⟩ := h
      injection hnew with hnew
      rw [← hnew, List.append_nil]
      rfl
  | cons word words ih =>
    rw [parseWords_cons_ok_iff, List.forall_mem_cons]
    constructor
    · intro h
      obtain ⟨hlong, hfull, entry, hentry, h⟩ := h
      obtain ⟨hshort, hmax, new, hnew, rfl⟩ := (ih (parsed ++ [entry]) (by
        rw [List.length_append, List.length_singleton]
        omega)).mp h
      rw [List.length_append, List.length_singleton] at hmax
      refine ⟨⟨hlong, hshort⟩, by rw [List.length_cons]; omega, entry :: new, ?_, by simp⟩
      exact (readEntries_cons_ok_iff cfg word words _).mpr ⟨entry, new, hentry, hnew, rfl⟩
    · intro h
      obtain ⟨⟨hlong, hshort⟩, hmax, new, hnew, rfl⟩ := h
      rw [List.length_cons] at hmax
      obtain ⟨entry, rest, hentry, hrest, rfl⟩ := (readEntries_cons_ok_iff cfg word words new).mp hnew
      refine ⟨hlong, by omega, entry, hentry, (ih (parsed ++ [entry]) ?_).mpr
        ⟨hshort, ?_, rest, hrest, by simp⟩⟩
      · rw [List.length_append, List.length_singleton]
        omega
      · rw [List.length_append, List.length_singleton]
        omega

/-- **When a list of entries is accepted**: it has a word and no more words than room, no word
is as long as the token buffer, and every word is an entry. -/
theorem parseEntries_ok_iff (text : Text) (max : Nat) (entries : List HkEntry) :
    parseEntries cfg text max = .ok entries
      ↔ textWords text ≠ [] ∧ (textWords text).length ≤ max
        ∧ (∀ w ∈ textWords text, w.length < TOKEN_SIZE)
        ∧ readEntries cfg (textWords text) = .ok entries := by
  have hwords := parseWords_ok_iff cfg max (textWords text) [] entries (Nat.zero_le max)
  simp only [List.length_nil, Nat.zero_add, List.nil_append, exists_eq_right] at hwords
  unfold parseEntries
  rw [parseEntries_eq]
  by_cases hmax : max = 0
  · rw [if_pos hmax]
    refine iff_of_false (by simp) ?_
    intro h
    obtain ⟨hne, hroom, -⟩ := h
    exact hne (List.length_eq_zero_iff.mp (by omega))
  · rw [if_neg hmax]
    cases hparsed : parseWords cfg max (textWords text) [] with
    | error e =>
      rw [hparsed] at hwords
      exact iff_of_false (by simp) fun h => absurd (hwords.mpr ⟨h.2.2.1, h.2.1, h.2.2.2⟩) (by simp)
    | ok parsed =>
      rw [hparsed, Except.ok.injEq] at hwords
      dsimp only
      constructor
      · intro h
        split at h
        · exact absurd h (by simp)
        · rename_i hne
          injection h with h
          obtain ⟨hshort, hroom, hentries⟩ := hwords.mp h
          refine ⟨fun hnone => hne ?_, hroom, hshort, hentries⟩
          have hlength := readEntries_length cfg hentries
          rw [hnone, ← h] at hlength
          exact List.length_eq_zero_iff.mp hlength
      · intro h
        obtain ⟨hne, hroom, hshort, hentries⟩ := h
        have heq := hwords.mpr ⟨hshort, hroom, hentries⟩
        have hlength := readEntries_length cfg hentries
        rw [if_neg, heq]
        intro hnil
        rw [← heq, hnil] at hlength
        exact hne (List.length_eq_zero_iff.mp hlength.symm)

/-! ## §4. The class prefix. -/

/-- `"class="`. -/
def CLASS_PREFIX : Text := "class=".toList

/-- `kfsw_app_hk_parse_class`: the class, and the text it leaves. -/
def parseClass (text : Text) : Except Int (Nat × Text) :=
  if CLASS_PREFIX.isPrefixOf text = false then
    .ok (KFSW_HK_CLASS_DEFAULT, text)
  else
    let value := text.drop 6
    let number := strtoul cfg.ulongMax value
    -- `end == *text + 6U`: nothing was converted
    if number.rest = value ∨ (number.rest.head? ≠ some ' ' ∧ number.rest ≠ []) then
      .error (-EINVAL)
    else if number.value > KFSW_HK_CLASS_MAX then
      .error (-ERANGE)
    else
      .ok (number.value, number.rest.dropWhile (· = ' '))

/-- A text of two words starts with the class prefix exactly when its first word does. -/
theorem classPrefix_append {w : Text} (rest : Text) :
    CLASS_PREFIX.isPrefixOf (w ++ ' ' :: rest) = CLASS_PREFIX.isPrefixOf w := by
  rw [Bool.eq_iff_iff, List.isPrefixOf_iff_prefix, List.isPrefixOf_iff_prefix]
  constructor
  · intro h
    rcases List.prefix_or_prefix_of_prefix h (List.prefix_append w (' ' :: rest)) with hw | hw
    · exact hw
    · -- a shorter first word would put its space into the prefix
      obtain ⟨u, hu⟩ := hw
      rw [← hu, List.prefix_append_right_inj] at h
      cases u with
      | nil =>
        rw [List.append_nil] at hu
        rw [hu]
      | cons c u =>
        obtain ⟨rfl, _⟩ := List.cons_prefix_cons.mp h
        have hspace : ' ' ∈ CLASS_PREFIX := by
          rw [← hu]
          exact List.mem_append_right _ List.mem_cons_self
        exact absurd hspace (by decide)
  · exact fun h => h.trans (List.prefix_append _ _)

/-- **The class prefix reads the same alone and with entries behind it**, unless only white
space follows the `=` in its word. -/
theorem parseClass_append {w rest : Text} (hw : ' ' ∉ w)
    (hclass : CLASS_PREFIX.isPrefixOf w = true) (hread : ∃ c ∈ w.drop 6, isspace c = false)
    (hrest : rest.head? ≠ some ' ') :
    parseClass cfg (w ++ ' ' :: rest)
      = match parseClass cfg w with
        | .error e => .error e
        | .ok (retrievalClass, _) => .ok (retrievalClass, rest) := by
  have hlen : 6 ≤ w.length := (List.isPrefixOf_iff_prefix.mp hclass).length_le
  have hdrop : (w ++ ' ' :: rest).drop 6 = w.drop 6 ++ ' ' :: rest :=
    List.drop_append_of_le_length hlen
  -- what the number leaves of the word has no space, so both forms judge it alike
  have hspace : ' ' ∉ (strtoul cfg.ulongMax (w.drop 6)).rest := fun h =>
    hw (List.mem_of_mem_drop ((strtoul_rest_suffix _ _).subset h))
  have hskip : (' ' :: rest).dropWhile (· = ' ') = rest := by
    rw [List.dropWhile_cons_of_pos (by decide)]
    cases rest with
    | nil => rfl
    | cons c rest =>
      exact List.dropWhile_cons_of_neg (by simpa using hrest)
  unfold parseClass
  rw [classPrefix_append, hclass, hdrop]
  dsimp only
  rw [strtoul_append_stop (by decide) _ _ _ hread]
  simp only [Bool.true_eq_false, if_false, List.append_left_inj]
  generalize strtoul cfg.ulongMax (w.drop 6) = number at hspace ⊢
  obtain ⟨value, after, range⟩ := number
  cases after with
  | nil =>
    by_cases hnone : [] = w.drop 6
    · simp [hnone]
    · by_cases hbig : value > KFSW_HK_CLASS_MAX
      · simp [hnone, hbig]
      · simp [hnone, hbig, hskip]
  | cons c after =>
    have hc : c ≠ ' ' := fun h => hspace (by simp [h])
    simp [hc]

end KFsw.App
