/-
  KFsw.Ground.ReportCheck — `hk-report.py check` against the parameter listing a
  node prints (`app/src/shell/shell_param.c`).

  A listing has one line for each parameter: table, offset, name, type, mode and
  value in padded columns.  `cmd_check` reads the lines back with a pattern, keeps
  the rows by table and offset, and compares each entry of a definition with the
  first row under the entry's name.

  Main results:
    * `matchRow_printParamInfo` — the pattern reads a printed row back;
    * `seenRows_captured`       — the rows kept of a captured listing;
    * `checkEntry_eq_nil_iff`   — an entry is not reported exactly when the first
      row under its name has its offset and type;
    * `cmdCheck_exact_iff`      — the check is exact when no entry is misled by
      that row.
-/
import KFsw.Ground.Report
import KFsw.Lib.CNumber
import KFsw.Lib.History
import KFsw.Lib.PyText
import Mathlib.Data.Bool.AllAny

namespace KFsw.Ground

open KFsw.Lib

/-! ## §1. The listing. -/

/-- A row of `param listall`: what a node says of one parameter. -/
structure ListingRow where
  table : Nat
  offset : Nat
  name : Text
  type : Text
  mode : Text
  value : Text
  table_le : table ≤ 255
  offset_le : offset ≤ 255
  name_ne : name ≠ []
  name_word : ∀ c ∈ name, isSpace c = false
  type_ne : type ≠ []
  type_word : ∀ c ∈ type, isSpace c = false
  mode_line : ∀ c ∈ mode, isLineBreak c = false
  value_line : ∀ c ∈ value, isLineBreak c = false

/-- `%-*s`. -/
def padRight (width : Nat) (text : Text) : Text := text ++ List.replicate (width - text.length) ' '

/-- `%02x`. -/
def hexByte (n : Nat) : Text :=
  List.replicate (2 - (Nat.toDigits 16 n).length) '0' ++ Nat.toDigits 16 n

def KFSW_PARAM_TABLE_COLUMN : Nat := 10
def KFSW_PARAM_TYPE_COLUMN : Nat := 6
def KFSW_PARAM_MODE_COLUMN : Nat := 4

section Listing

-- `KFSW_PARAM_NAME_MAX`, the width of the name column
variable (nameColumn : Nat)

/-- The row `print_param_info` prints, with the table's number. -/
def printParamInfo (r : ListingRow) : Text :=
  padRight KFSW_PARAM_TABLE_COLUMN (Nat.toDigits 10 r.table) ++ ' ' :: ' ' :: '0' :: 'x'
    :: (hexByte r.offset ++ ' ' :: ' ' :: (padRight nameColumn r.name
      ++ ' ' :: ' ' :: (padRight KFSW_PARAM_TYPE_COLUMN r.type
        ++ ' ' :: ' ' :: (padRight KFSW_PARAM_MODE_COLUMN r.mode ++ ' ' :: ' ' :: r.value))))

/-- The two lines of `print_list_header`. -/
def printListHeader : List Text :=
  [padRight KFSW_PARAM_TABLE_COLUMN "table".toList ++ ' ' :: ' ' :: ("addr".toList
      ++ ' ' :: ' ' :: (padRight nameColumn "name".toList
        ++ ' ' :: ' ' :: (padRight KFSW_PARAM_TYPE_COLUMN "type".toList
          ++ ' ' :: ' ' :: (padRight KFSW_PARAM_MODE_COLUMN "mode".toList
            ++ ' ' :: ' ' :: "value".toList)))),
    List.replicate KFSW_PARAM_TABLE_COLUMN '-' ++ ' ' :: ' ' :: (List.replicate 4 '-'
      ++ ' ' :: ' ' :: (List.replicate (min nameColumn 32) '-'
        ++ ' ' :: ' ' :: (List.replicate KFSW_PARAM_TYPE_COLUMN '-'
          ++ ' ' :: ' ' :: (List.replicate KFSW_PARAM_MODE_COLUMN '-'
            ++ ' ' :: ' ' :: "-----".toList))))]

/-- The lines of a listing: the header comes with the first row. -/
def listingLines (rows : List ListingRow) : List Text :=
  if rows = [] then [] else printListHeader nameColumn ++ rows.map (printParamInfo nameColumn)

/-- A captured listing, as `Path.read_text` returns it. -/
def captured (rows : List ListingRow) : Text :=
  (listingLines nameColumn rows).flatMap (· ++ ['\n'])

end Listing

/-! ## §2. The check. -/

/-- `(\S+)\s`: a word with white space behind it, and what follows the word. -/
def matchWord (s : Text) : Option (Text × Text) :=
  let word := s.takeWhile (!isSpace ·)
  let rest := s.dropWhile (!isSpace ·)
  if word = [] ∨ rest = [] then none else some (word, rest)

/-- `[0-9a-f]`. -/
def isHexDigit (c : Char) : Bool := isdigit c || (decide ('a' ≤ c) && decide (c ≤ 'f'))

/-- `0x([0-9a-f]{2})\s+`: the number, and what follows the white space. -/
def matchAddress : Text → Option (Nat × Text)
  | '0' :: 'x' :: a :: b :: rest =>
    if isHexDigit a = true ∧ isHexDigit b = true ∧ rest.head?.elim false isSpace = true then
      some (digitsValue 16 [a, b], rest.dropWhile isSpace)
    else none
  | _ => none

/-- The pattern of a row, `^(\S+)\s+0x([0-9a-f]{2})\s+(\S+)\s+(\S+)\s`, with its groups. -/
def matchRow (line : Text) : Option (Text × Nat × Text × Text) :=
  (matchWord line).bind fun table =>
    (matchAddress (table.2.dropWhile isSpace)).bind fun address =>
      (matchWord address.2).bind fun name =>
        (matchWord (name.2.dropWhile isSpace)).map fun type =>
          (table.1, address.1, name.1, type.1)

/-- What `seen` keeps: the name and the type, by table and offset. -/
abbrev Seen := OrderedDict (Text × Nat) (Text × Text)

/-- One turn of the loop over the capture's lines. -/
def seeLine (seen : Seen) (line : Text) : Seen :=
  match matchRow (line.filter (· ≠ '\r')) with
  | some (table, offset, name, kind) => seen.set (table, offset) (name, kind)
  | none => seen

/-- `seen`, after the loop. -/
def seenRows (capture : Text) : Seen := (splitlines capture).foldl seeLine OrderedDict.empty

/-- The name of a value type. -/
def typeText : EntryType → Text
  | .u8 => "u8".toList
  | .u16 => "u16".toList
  | .u32 => "u32".toList
  | .u64 => "u64".toList
  | .i8 => "i8".toList
  | .i16 => "i16".toList
  | .i32 => "i32".toList
  | .i64 => "i64".toList
  | .x8 => "x8".toList
  | .x16 => "x16".toList
  | .x32 => "x32".toList
  | .x64 => "x64".toList
  | .float => "float".toList
  | .double => "double".toList

/-- The problems one turn of the loop over the entries appends. -/
def checkEntry (seen : Seen) (entry : ReportEntry) : List Text :=
  let name := entry.parameter.toList
  match seen.entries.filter fun row => row.2.1 = name with
  | [] => [name ++ ": the node does not register it".toList]
  | ((_, offset), (_, kind)) :: _ =>
    (if offset ≠ entry.offset then
        [name ++ ": file says offset 0x".toList ++ hexByte entry.offset ++ ", node says 0x".toList
          ++ hexByte offset]
      else [])
      ++ if kind ≠ typeText entry.type then
        [name ++ ": file says ".toList ++ typeText entry.type ++ ", node says ".toList ++ kind]
      else []

/-- What `cmd_check` prints and returns. -/
structure Checked where
  stderr : List Text
  stdout : List Text
  status : Int
  deriving DecidableEq

/-- `cmd_check`; the error is the text of `SystemExit`. -/
def cmdCheck (report : Report) (path capture : Text) : Except Text Checked :=
  let seen := seenRows capture
  if seen.entries = [] then
    .error (path ++ ": no parameter rows found; is this `param listall` output?".toList)
  else
    let problems := report.entries.flatMap (checkEntry seen)
    let stderr := problems.map ("MISMATCH ".toList ++ ·)
    if problems ≠ [] then .ok ⟨stderr, [], 1⟩
    else
      .ok ⟨stderr, [Nat.toDigits 10 report.entries.length ++ " entries agree with the node".toList], 0⟩

/-! ## §3. Reading a row back. -/

theorem matchWord_append {w : Text} (hne : w ≠ []) (hw : ∀ c ∈ w, isSpace c = false) (rest : Text) :
    matchWord (w ++ ' ' :: rest) = some (w, ' ' :: rest) := by
  have htake : (w ++ ' ' :: rest).takeWhile (!isSpace ·) = w := by
    rw [List.takeWhile_append_of_pos (by simpa using hw), List.takeWhile_cons_of_neg (by decide),
      List.append_nil]
  have hdrop : (w ++ ' ' :: rest).dropWhile (!isSpace ·) = ' ' :: rest := by
    rw [List.dropWhile_append_of_pos (by simpa using hw), List.dropWhile_cons_of_neg (by decide)]
  rw [matchWord, htake, hdrop, if_neg]
  rintro (h | h)
  · exact hne h
  · exact absurd h (by simp)

/-- A padded word. -/
theorem matchWord_padRight {w : Text} (hne : w ≠ []) (hw : ∀ c ∈ w, isSpace c = false)
    (width : Nat) (rest : Text) :
    matchWord (padRight width w ++ ' ' :: rest)
      = some (w, List.replicate (width - w.length) ' ' ++ ' ' :: rest) := by
  rw [padRight, List.append_assoc]
  cases width - w.length with
  | zero => exact matchWord_append hne hw rest
  | succ k =>
    rw [List.replicate_succ, List.cons_append]
    exact matchWord_append hne hw _

/-- Spaces between two columns are skipped. -/
theorem dropWhile_columns (k : Nat) {c : Char} (hc : isSpace c = false) (rest : Text) :
    (List.replicate k ' ' ++ ' ' :: ' ' :: c :: rest).dropWhile isSpace = c :: rest := by
  rw [List.dropWhile_append_of_pos (by
      intro d hd
      rw [List.eq_of_mem_replicate hd]
      decide),
    List.dropWhile_cons_of_pos (by decide), List.dropWhile_cons_of_pos (by decide),
    List.dropWhile_cons_of_neg (by rw [hc]; decide)]

/-- The same in front of a padded word. -/
theorem dropWhile_padRight (k : Nat) {w : Text} (hne : w ≠ []) (hw : ∀ c ∈ w, isSpace c = false)
    (width : Nat) (rest : Text) :
    (List.replicate k ' ' ++ ' ' :: ' ' :: (padRight width w ++ rest)).dropWhile isSpace
      = padRight width w ++ rest := by
  obtain ⟨c, w, rfl⟩ := List.exists_cons_of_ne_nil hne
  exact dropWhile_columns k (hw c List.mem_cons_self) _

/-- A byte has two hexadecimal digits. -/
theorem hexByte_eq {n : Nat} (h : n ≤ 255) :
    ∃ a b, hexByte n = [a, b] ∧ isHexDigit a = true ∧ isHexDigit b = true
      ∧ digitsValue 16 [a, b] = n := by
  have hlength : (hexByte n).length = 2 := hexPadded_length (by decide) (Nat.lt_succ_of_le h)
  have hvalue : digitsValue 16 (hexByte n) = n := digitsValue_hexPadded 2 n
  have hdigits : ∀ c ∈ hexByte n, isHexDigit c = true := by
    intro c hc
    obtain ⟨d, hd, rfl⟩ := exists_digit_of_mem_hexPadded hc
    have hall : ∀ d < 16, isHexDigit (Nat.digitChar d) = true := by decide
    exact hall d hd
  obtain ⟨a, b, hab⟩ := List.length_eq_two.mp hlength
  rw [hab] at hvalue hdigits
  exact ⟨a, b, hab, hdigits a (by simp), hdigits b (by simp), hvalue⟩

/-- An address in front of another column. -/
theorem matchAddress_eq {a b : Char} (ha : isHexDigit a = true) (hb : isHexDigit b = true)
    (rest : Text) :
    matchAddress ('0' :: 'x' :: a :: b :: ' ' :: rest)
      = some (digitsValue 16 [a, b], (' ' :: rest).dropWhile isSpace) :=
  if_pos ⟨ha, hb, rfl⟩

/-- An address starts with a zero. -/
theorem matchAddress_none {c : Char} (hc : c ≠ '0') (rest : Text) :
    matchAddress (c :: rest) = none := by
  unfold matchAddress
  split
  · rename_i heq
    exact absurd (List.cons.inj heq).1 hc
  · rfl

theorem isSpace_toDigits (n : Nat) : ∀ c ∈ Nat.toDigits 10 n, isSpace c = false := by
  intro c hc
  obtain ⟨d, hd, rfl⟩ := exists_digit_of_mem_toDigits (by decide) n hc
  have hall : ∀ d < 10, isSpace (Nat.digitChar d) = false := by decide
  exact hall d hd

/-- **The pattern reads a printed row back.** -/
theorem matchRow_printParamInfo (nameColumn : Nat) (r : ListingRow) :
    matchRow (printParamInfo nameColumn r)
      = some (Nat.toDigits 10 r.table, r.offset, r.name, r.type) := by
  obtain ⟨a, b, hbyte, ha, hb, hvalue⟩ := hexByte_eq r.offset_le
  unfold printParamInfo matchRow
  rw [matchWord_padRight Nat.toDigits_ne_nil (isSpace_toDigits _), Option.bind_some]
  dsimp only
  rw [dropWhile_columns _ (by decide), hbyte]
  have hname := dropWhile_padRight 0 r.name_ne r.name_word nameColumn
    (' ' :: ' ' :: (padRight KFSW_PARAM_TYPE_COLUMN r.type
      ++ ' ' :: ' ' :: (padRight KFSW_PARAM_MODE_COLUMN r.mode ++ ' ' :: ' ' :: r.value)))
  rw [List.replicate_zero, List.nil_append] at hname
  have haddress := matchAddress_eq ha hb
    (' ' :: (padRight nameColumn r.name ++ ' ' :: ' ' :: (padRight KFSW_PARAM_TYPE_COLUMN r.type
      ++ ' ' :: ' ' :: (padRight KFSW_PARAM_MODE_COLUMN r.mode ++ ' ' :: ' ' :: r.value))))
  rw [hname, hvalue] at haddress
  rw [List.cons_append, List.cons_append, List.nil_append, haddress, Option.bind_some]
  dsimp only
  rw [matchWord_padRight r.name_ne r.name_word, Option.bind_some]
  dsimp only
  rw [dropWhile_padRight _ r.type_ne r.type_word, matchWord_padRight r.type_ne r.type_word,
    Option.map_some]

/-! ## §4. What the check has seen. -/

variable (nameColumn : Nat)

/-- The header is no row. -/
theorem matchRow_printListHeader : ∀ line ∈ printListHeader nameColumn, matchRow line = none := by
  intro line hline
  have hspace : ∀ c ∈ "table".toList, isSpace c = false :=
    List.all_iff_forall_prop.mp (by decide +kernel)
  simp only [printListHeader, List.mem_cons, List.not_mem_nil, or_false] at hline
  rcases hline with rfl | rfl
  · unfold matchRow
    rw [matchWord_padRight (by decide +kernel) hspace, Option.bind_some]
    dsimp only
    rw [show "addr".toList = ['a', 'd', 'd', 'r'] by decide +kernel, List.cons_append,
      dropWhile_columns _ (by decide), matchAddress_none (by decide), Option.bind_none]
  · unfold matchRow
    rw [matchWord_append (by decide) (by
        intro c hc
        rw [List.eq_of_mem_replicate hc]
        decide), Option.bind_some]
    rfl

/-- A word has no line break. -/
theorem isLineBreak_word {w : Text} (hw : ∀ c ∈ w, isSpace c = false) :
    ∀ c ∈ w, isLineBreak c = false := by
  intro c hc
  rw [Bool.eq_false_iff]
  intro hbreak
  have hspace := isSpace_of_isLineBreak hbreak
  rw [hw c hc] at hspace
  exact absurd hspace (by decide)

theorem isLineBreak_replicate {d : Char} (hd : isLineBreak d = false) (n : Nat) :
    ∀ c ∈ List.replicate n d, isLineBreak c = false := by
  intro c hc
  rw [List.eq_of_mem_replicate hc]
  exact hd

theorem isLineBreak_padRight {w : Text} (hw : ∀ c ∈ w, isLineBreak c = false) (width : Nat) :
    ∀ c ∈ padRight width w, isLineBreak c = false := by
  rw [padRight, List.forall_mem_append]
  exact ⟨hw, isLineBreak_replicate (by decide) _⟩

theorem isLineBreak_hexByte (n : Nat) : ∀ c ∈ hexByte n, isLineBreak c = false := by
  rw [hexByte, List.forall_mem_append]
  refine ⟨isLineBreak_replicate (by decide) _, ?_⟩
  intro c hc
  obtain ⟨d, hd, rfl⟩ := exists_digit_of_mem_toDigits (by decide) n hc
  have hall : ∀ d < 16, isLineBreak (Nat.digitChar d) = false := by decide
  exact hall d hd

/-- A printed row stands on one line. -/
theorem isLineBreak_printParamInfo (r : ListingRow) :
    ∀ c ∈ printParamInfo nameColumn r, isLineBreak c = false := by
  have hspace : isLineBreak ' ' = false := by decide
  unfold printParamInfo
  simp only [List.forall_mem_append, List.forall_mem_cons]
  exact ⟨isLineBreak_padRight (isLineBreak_word (isSpace_toDigits _)) _, hspace, hspace, by decide,
    by decide, isLineBreak_hexByte _, hspace, hspace,
    isLineBreak_padRight (isLineBreak_word r.name_word) _, hspace, hspace,
    isLineBreak_padRight (isLineBreak_word r.type_word) _, hspace, hspace,
    isLineBreak_padRight r.mode_line _, hspace, hspace, r.value_line⟩

/-- So do the lines of the header. -/
theorem isLineBreak_printListHeader :
    ∀ line ∈ printListHeader nameColumn, ∀ c ∈ line, isLineBreak c = false := by
  have hspace : isLineBreak ' ' = false := by decide
  have hdash : isLineBreak '-' = false := by decide
  have htable : ∀ c ∈ "table".toList, isLineBreak c = false :=
    List.all_iff_forall_prop.mp (by decide +kernel)
  have haddr : ∀ c ∈ "addr".toList, isLineBreak c = false :=
    List.all_iff_forall_prop.mp (by decide +kernel)
  have hname : ∀ c ∈ "name".toList, isLineBreak c = false :=
    List.all_iff_forall_prop.mp (by decide +kernel)
  have htype : ∀ c ∈ "type".toList, isLineBreak c = false :=
    List.all_iff_forall_prop.mp (by decide +kernel)
  have hmode : ∀ c ∈ "mode".toList, isLineBreak c = false :=
    List.all_iff_forall_prop.mp (by decide +kernel)
  have hvalue : ∀ c ∈ "value".toList, isLineBreak c = false :=
    List.all_iff_forall_prop.mp (by decide +kernel)
  have hdashes : ∀ c ∈ "-----".toList, isLineBreak c = false :=
    List.all_iff_forall_prop.mp (by decide +kernel)
  unfold printListHeader
  simp only [List.forall_mem_cons, List.forall_mem_append]
  exact ⟨⟨isLineBreak_padRight htable _, hspace, hspace, haddr, hspace, hspace,
      isLineBreak_padRight hname _, hspace, hspace, isLineBreak_padRight htype _, hspace, hspace,
      isLineBreak_padRight hmode _, hspace, hspace, hvalue⟩,
    ⟨isLineBreak_replicate hdash _, hspace, hspace, isLineBreak_replicate hdash _, hspace, hspace,
      isLineBreak_replicate hdash _, hspace, hspace, isLineBreak_replicate hdash _, hspace, hspace,
      isLineBreak_replicate hdash _, hspace, hspace, hdashes⟩, by simp⟩

theorem isLineBreak_listingLines (rows : List ListingRow) :
    ∀ line ∈ listingLines nameColumn rows, ∀ c ∈ line, isLineBreak c = false := by
  unfold listingLines
  split
  · simp
  · rw [List.forall_mem_append]
    refine ⟨isLineBreak_printListHeader nameColumn, ?_⟩
    intro line hline
    obtain ⟨r, _, rfl⟩ := List.mem_map.mp hline
    exact isLineBreak_printParamInfo nameColumn r

/-- A line without breaks is left as it is. -/
theorem filter_line {line : Text} (h : ∀ c ∈ line, isLineBreak c = false) :
    line.filter (· ≠ '\r') = line := by
  rw [List.filter_eq_self]
  intro c hc
  simp only [ne_eq, decide_not, Bool.not_eq_true', decide_eq_false_iff_not]
  rintro rfl
  exact absurd (h _ hc) (by decide)

/-- The rows of a listing by their places: a later row takes the place of an earlier one at the
same table and offset. -/
def standing (rows : List ListingRow) : OrderedDict (Nat × Nat) ListingRow :=
  rows.foldl (fun d r => d.set (r.table, r.offset) r) OrderedDict.empty

/-- A place as `seen` writes it, and the row under it. -/
def seenKey (place : Nat × Nat) : Text × Nat := (Nat.toDigits 10 place.1, place.2)
def seenValue (r : ListingRow) : Text × Text := (r.name, r.type)

theorem seenKey_injective : Function.Injective seenKey := by
  intro a b h
  obtain ⟨htable, hoffset⟩ := Prod.mk.inj h
  have hnumber := congrArg (digitsValue 10) htable
  rw [digitsValue_toDigits (by decide) (by decide), digitsValue_toDigits (by decide) (by decide)]
    at hnumber
  exact Prod.ext hnumber hoffset

/-- One line of the listing. -/
theorem seeLine_printParamInfo (seen : Seen) (r : ListingRow) :
    seeLine seen (printParamInfo nameColumn r) = seen.set (seenKey (r.table, r.offset)) (seenValue r) := by
  unfold seeLine
  rw [filter_line (isLineBreak_printParamInfo nameColumn r), matchRow_printParamInfo]
  rfl

/-- **What `seen` keeps of a captured listing**: its rows by their places. -/
theorem seenRows_captured (rows : List ListingRow) :
    (seenRows (captured nameColumn rows)).entries
      = (standing rows).entries.map (Prod.map seenKey seenValue) := by
  have hrows : ∀ (d : OrderedDict (Nat × Nat) ListingRow) (seen : Seen),
      seen.entries = d.entries.map (Prod.map seenKey seenValue) →
      ((rows.map (printParamInfo nameColumn)).foldl seeLine seen).entries
        = (rows.foldl (fun d r => d.set (r.table, r.offset) r) d).entries.map
          (Prod.map seenKey seenValue) := by
    induction rows with
    | nil => exact fun _ _ h => h
    | cons r rows ih =>
      intro d seen h
      rw [List.map_cons, List.foldl_cons, List.foldl_cons, seeLine_printParamInfo]
      exact ih _ _ (OrderedDict.set_map seenKey_injective seenValue h _ _)
  have hheader : (printListHeader nameColumn).foldl seeLine OrderedDict.empty = OrderedDict.empty := by
    have hline : ∀ line ∈ printListHeader nameColumn, ∀ seen, seeLine seen line = seen := by
      intro line hmem seen
      unfold seeLine
      rw [filter_line (isLineBreak_printListHeader nameColumn line hmem),
        matchRow_printListHeader nameColumn line hmem]
    unfold printListHeader at hline ⊢
    rw [List.foldl_cons, List.foldl_cons, List.foldl_nil, hline _ (by simp), hline _ (by simp)]
  unfold seenRows captured
  rw [splitlines_lines _ (isLineBreak_listingLines nameColumn rows), listingLines]
  split
  · rename_i hnil
    rw [hnil]
    rfl
  · rw [List.foldl_append, hheader]
    exact hrows _ _ rfl

/-- A row stands at its own place. -/
theorem standing_place (rows : List ListingRow) :
    ∀ e ∈ (standing rows).entries, e.1 = (e.2.table, e.2.offset) := by
  have hrows : ∀ d : OrderedDict (Nat × Nat) ListingRow,
      (∀ e ∈ d.entries, e.1 = (e.2.table, e.2.offset)) →
      ∀ e ∈ (rows.foldl (fun d r => d.set (r.table, r.offset) r) d).entries,
        e.1 = (e.2.table, e.2.offset) := by
    induction rows with
    | nil => exact fun _ h => h
    | cons r rows ih =>
      intro d h
      refine ih _ fun e he => ?_
      rcases OrderedDict.mem_of_mem_set he with rfl | he
      · rfl
      · exact h e he
  exact hrows OrderedDict.empty fun e he => absurd he (by simp [OrderedDict.empty])

/-- Rows at places of their own stand in the order they are printed in. -/
theorem standing_of_distinct {rows : List ListingRow}
    (h : (rows.map fun r => (r.table, r.offset)).Nodup) :
    (standing rows).entries = rows.map fun r => ((r.table, r.offset), r) := by
  induction rows using List.reverseRecOn with
  | nil => rfl
  | append_singleton rows r ih =>
    rw [List.map_append, List.nodup_append] at h
    obtain ⟨hrows, -, hnew⟩ := h
    have hstanding := ih hrows
    have hkey : (r.table, r.offset) ∉ (standing rows).entries.map Prod.fst := by
      rw [hstanding, List.map_map]
      intro hmem
      exact hnew _ hmem _ (by simp) rfl
    have hlast : standing (rows ++ [r]) = (standing rows).set (r.table, r.offset) r := by
      unfold standing
      rw [List.foldl_append, List.foldl_cons, List.foldl_nil]
    rw [hlast, OrderedDict.set_of_notMem _ _ hkey, hstanding, List.map_append]
    rfl

/-- A listing with rows leaves some to compare with. -/
theorem standing_ne_nil {rows : List ListingRow} (h : rows ≠ []) : (standing rows).entries ≠ [] := by
  have hset : ∀ (d : OrderedDict (Nat × Nat) ListingRow) (r : ListingRow),
      (d.set (r.table, r.offset) r).entries ≠ [] := by
    intro d r
    by_cases hkey : (r.table, r.offset) ∈ d.entries.map Prod.fst
    · rw [d.set_of_mem r hkey]
      intro hnil
      rw [List.map_eq_nil_iff] at hnil
      rw [hnil] at hkey
      exact absurd hkey (by simp)
    · rw [d.set_of_notMem r hkey]
      exact List.append_ne_nil_of_right_ne_nil _ (List.cons_ne_nil _ _)
  obtain ⟨front, last, rfl⟩ := List.eq_nil_or_concat rows |>.resolve_left h
  rw [standing, List.concat_eq_append, List.foldl_append, List.foldl_cons, List.foldl_nil]
  exact hset _ last

/-! ## §5. What the check reports. -/

/-- A listing that `param listall` prints: it has a row. -/
structure Listing where
  rows : List ListingRow
  some_row : rows ≠ []

/-- The listing has a row with the entry's own table, offset, name and type. -/
def HasRow (rows : List ListingRow) (e : ReportEntry) : Prop :=
  ∃ r ∈ rows, r.table = e.table ∧ r.offset = e.offset ∧ r.name = e.parameter.toList
    ∧ r.type = typeText e.type

/-- The first row under the entry's name. -/
def firstRow (rows : List ListingRow) (e : ReportEntry) : Option ListingRow :=
  ((standing rows).entries.find? fun row => row.2.name = e.parameter.toList).map Prod.snd

/-- A row with the entry's offset and type. -/
def Agrees (r : ListingRow) (e : ReportEntry) : Prop :=
  r.offset = e.offset ∧ r.type = typeText e.type

/-- **An entry that the first row under its name misleads the check about**: the row agrees, but
in another table, where no row is the entry's; or there is none that agrees, while another row is
the entry's. -/
def Misled (rows : List ListingRow) (e : ReportEntry) : Prop :=
  (∃ r, firstRow rows e = some r ∧ Agrees r e ∧ ¬ HasRow rows e)
    ∨ ((∀ r, firstRow rows e = some r → ¬ Agrees r e) ∧ HasRow rows e)

/-- **An entry is not reported** exactly when the first row under its name has its offset and
type. -/
theorem checkEntry_eq_nil_iff (rows : List ListingRow) (e : ReportEntry) :
    checkEntry (seenRows (captured nameColumn rows)) e = []
      ↔ ∃ r, firstRow rows e = some r ∧ Agrees r e := by
  have hfilter : (seenRows (captured nameColumn rows)).entries.filter
        (fun row => row.2.1 = e.parameter.toList)
      = ((standing rows).entries.filter fun row => row.2.name = e.parameter.toList).map
        (Prod.map seenKey seenValue) := by
    rw [seenRows_captured, List.filter_map]
    rfl
  have hplace : ∀ row ∈ (standing rows).entries.filter
      (fun row => row.2.name = e.parameter.toList), row.1 = (row.2.table, row.2.offset) :=
    fun row hrow => standing_place rows row (List.mem_of_mem_filter hrow)
  unfold checkEntry firstRow
  dsimp only
  rw [hfilter, ← List.head?_filter]
  cases hcase : (standing rows).entries.filter (fun row => row.2.name = e.parameter.toList) with
  | nil => simp
  | cons row others =>
    obtain ⟨place, r⟩ := row
    rw [hcase] at hplace
    obtain rfl : place = (r.table, r.offset) := hplace _ List.mem_cons_self
    rw [List.map_cons, List.head?_cons, Option.map_some]
    show (if r.offset ≠ e.offset then _ else []) ++ (if r.type ≠ typeText e.type then _ else []) = [] ↔ _
    rw [List.append_eq_nil_iff]
    constructor
    · rintro ⟨hoffset, htype⟩
      refine ⟨r, rfl, ?_, ?_⟩
      · by_contra hne
        rw [if_pos hne] at hoffset
        exact absurd hoffset (List.cons_ne_nil _ _)
      · by_contra hne
        rw [if_pos hne] at htype
        exact absurd htype (List.cons_ne_nil _ _)
    · rintro ⟨r', hr', hoffset, htype⟩
      obtain rfl := Option.some.inj hr'
      exact ⟨if_neg (not_not.mpr hoffset), if_neg (not_not.mpr htype)⟩

/-! ## §6. When the check is exact. -/

/-- **The check misses no mismatch and invents none**: it returns 0 only when every entry has its
row; an entry without one has its problems printed, and 1 is returned; an entry with one has no
problem. -/
structure CheckExact (report : Report) (listing : Listing) (path : Text) : Prop where
  passes : ∀ out, cmdCheck report path (captured nameColumn listing.rows) = .ok out →
    out.status = 0 → ∀ e ∈ report.entries, HasRow listing.rows e
  reports : ∀ e ∈ report.entries, ¬ HasRow listing.rows e →
    checkEntry (seenRows (captured nameColumn listing.rows)) e ≠ []
      ∧ ∃ out, cmdCheck report path (captured nameColumn listing.rows) = .ok out ∧ out.status = 1
        ∧ ∀ problem ∈ checkEntry (seenRows (captured nameColumn listing.rows)) e,
          "MISMATCH ".toList ++ problem ∈ out.stderr
  silent : ∀ e ∈ report.entries, HasRow listing.rows e →
    checkEntry (seenRows (captured nameColumn listing.rows)) e = []

/-- What the check makes of a listing. -/
theorem cmdCheck_listing (report : Report) (listing : Listing) (path : Text) :
    cmdCheck report path (captured nameColumn listing.rows)
      = let problems := report.entries.flatMap
          (checkEntry (seenRows (captured nameColumn listing.rows)))
        let stderr := problems.map ("MISMATCH ".toList ++ ·)
        if problems ≠ [] then .ok ⟨stderr, [], 1⟩
        else
          .ok ⟨stderr,
            [Nat.toDigits 10 report.entries.length ++ " entries agree with the node".toList], 0⟩ := by
  have hseen : (seenRows (captured nameColumn listing.rows)).entries ≠ [] := by
    rw [seenRows_captured, ne_eq, List.map_eq_nil_iff]
    exact standing_ne_nil listing.some_row
  unfold cmdCheck
  dsimp only
  rw [if_neg hseen]

/-- The check is exact when the first row under an entry's name misleads it about none of the
entries, and only then. -/
theorem checkExact_iff (report : Report) (listing : Listing) (path : Text) :
    CheckExact nameColumn report listing path ↔ ∀ e ∈ report.entries, ¬ Misled listing.rows e := by
  have hentry := checkEntry_eq_nil_iff nameColumn listing.rows
  constructor
  · rintro h e he (⟨r, hr, hagrees, hnone⟩ | ⟨hother, hrow⟩)
    · exact (h.reports e he hnone).1 ((hentry e).mpr ⟨r, hr, hagrees⟩)
    · obtain ⟨r, hr, hagrees⟩ := (hentry e).mp (h.silent e he hrow)
      exact hother r hr hagrees
  · intro h
    have hnil : ∀ e ∈ report.entries,
        (checkEntry (seenRows (captured nameColumn listing.rows)) e = [] ↔ HasRow listing.rows e) := by
      intro e he
      rw [hentry]
      constructor
      · rintro ⟨r, hr, hagrees⟩
        by_contra hnone
        exact h e he (.inl ⟨r, hr, hagrees, hnone⟩)
      · intro hrow
        by_contra hnone
        exact h e he (.inr ⟨fun r hr hagrees => hnone ⟨r, hr, hagrees⟩, hrow⟩)
    have hcheck := cmdCheck_listing nameColumn report listing path
    dsimp only at hcheck
    refine ⟨?_, ?_, fun e he hrow => (hnil e he).mpr hrow⟩
    · intro out hout hzero e he
      rw [hcheck] at hout
      split at hout
      · rw [← Except.ok.inj hout] at hzero
        exact absurd hzero (show (1 : Int) ≠ 0 by decide)
      · rename_i hproblems
        rw [not_not, List.flatMap_eq_nil_iff] at hproblems
        exact (hnil e he).mp (hproblems e he)
    · intro e he hnone
      have hproblem : checkEntry (seenRows (captured nameColumn listing.rows)) e ≠ [] :=
        fun hempty => hnone ((hnil e he).mp hempty)
      have hsome : report.entries.flatMap
          (checkEntry (seenRows (captured nameColumn listing.rows))) ≠ [] := by
        rw [ne_eq, List.flatMap_eq_nil_iff]
        exact fun hall => hproblem (hall e he)
      rw [if_pos hsome] at hcheck
      refine ⟨hproblem, _, hcheck, rfl, ?_⟩
      intro problem hmem
      exact List.mem_map_of_mem (List.mem_flatMap_of_mem he hmem)

/-- In a listing with every place and every name once, as a node without repeated names prints
it, an entry is misled exactly when its parameter stands in another table, at the entry's offset
and with its type. -/
theorem misled_iff_of_distinct {rows : List ListingRow} {e : ReportEntry}
    (hplaces : (rows.map fun r => (r.table, r.offset)).Nodup)
    (hnames : (rows.map ListingRow.name).Nodup) :
    Misled rows e ↔ ∃ r ∈ rows, r.name = e.parameter.toList ∧ Agrees r e ∧ r.table ≠ e.table := by
  have hfirst : ∀ r, firstRow rows e = some r ↔ r ∈ rows ∧ r.name = e.parameter.toList := by
    intro r
    unfold firstRow
    rw [standing_of_distinct hplaces, List.find?_map, Option.map_map, Option.map_eq_some_iff]
    constructor
    · rintro ⟨r', hr', rfl⟩
      exact ⟨List.mem_of_find?_eq_some hr', by simpa using List.find?_some hr'⟩
    · rintro ⟨hmem, hname⟩
      cases hfind : rows.find? _ with
      | none => exact absurd hname (by simpa using List.find?_eq_none.mp hfind r hmem)
      | some r' =>
        refine ⟨r', rfl, List.inj_on_of_nodup_map hnames (List.mem_of_find?_eq_some hfind) hmem ?_⟩
        have hname' : r'.name = e.parameter.toList := by simpa using List.find?_some hfind
        exact hname'.trans hname.symm
  unfold Misled
  constructor
  · rintro (⟨r, hr, hagrees, hnone⟩ | ⟨hother, r, hmem, htable, hoffset, hname, htype⟩)
    · obtain ⟨hmem, hname⟩ := (hfirst r).mp hr
      exact ⟨r, hmem, hname, hagrees,
        fun htable => hnone ⟨r, hmem, htable, hagrees.1, hname, hagrees.2⟩⟩
    · exact absurd ⟨hoffset, htype⟩ (hother r ((hfirst r).mpr ⟨hmem, hname⟩))
  · rintro ⟨r, hmem, hname, hagrees, htable⟩
    refine .inl ⟨r, (hfirst r).mpr ⟨hmem, hname⟩, hagrees, ?_⟩
    rintro ⟨r', hmem', htable', -, hname', -⟩
    rw [List.inj_on_of_nodup_map hnames hmem' hmem (hname'.trans hname.symm)] at htable'
    exact htable htable'

/-- **The check is exact** when the first row under an entry's name misleads it about none of the
entries, and only then.  Where every place and every name stands once, that is, when no entry's
parameter stands in another table at the entry's offset and with its type. -/
theorem cmdCheck_exact_iff (report : Report) (listing : Listing) (path : Text) :
    (CheckExact nameColumn report listing path
        ↔ ∀ e ∈ report.entries, ¬ Misled listing.rows e)
      ∧ ((listing.rows.map fun r => (r.table, r.offset)).Nodup →
          (listing.rows.map ListingRow.name).Nodup → ∀ e, Misled listing.rows e
            ↔ ∃ r ∈ listing.rows, r.name = e.parameter.toList ∧ Agrees r e ∧ r.table ≠ e.table) :=
  ⟨checkExact_iff nameColumn report listing path,
    fun hplaces hnames _ => misled_iff_of_distinct hplaces hnames⟩

/-- A parameter of table 20, which a definition places in table 3. -/
def movedListing : Listing where
  rows := [{
    table := 20, offset := 4, name := "temp".toList, type := "u16".toList, mode := "rw".toList,
    value := "-".toList, table_le := by decide, offset_le := by decide,
    name_ne := by decide +kernel, name_word := List.all_iff_forall_prop.mp (by decide +kernel),
    type_ne := by decide +kernel, type_word := List.all_iff_forall_prop.mp (by decide +kernel),
    mode_line := List.all_iff_forall_prop.mp (by decide +kernel),
    value_line := List.all_iff_forall_prop.mp (by decide +kernel) }]
  some_row := List.cons_ne_nil _ _

def movedReport : Report := ⟨0, "power", [⟨3, 4, "temp", .u16, none, none, none, none⟩]⟩

/-- The check passes a definition that reads another table. -/
theorem cmdCheck_moved : ¬ CheckExact 24 movedReport movedListing "capture.txt".toList := by
  intro h
  have hpasses : cmdCheck movedReport "capture.txt".toList (captured 24 movedListing.rows)
      = .ok ⟨[], ["1 entries agree with the node".toList], 0⟩ := by decide +kernel
  obtain ⟨r, hr, htable, -⟩ := h.passes _ hpasses rfl _ List.mem_cons_self
  rw [List.mem_singleton.mp hr] at htable
  exact absurd htable (by decide)

end KFsw.Ground
