/-
  KFsw.App.ParamTable — `param table`, `app/src/shell/shell_param.c`: the
  parameters of one table, of this node or of another.

  For another node the descriptors are collected first, into arrays of 32, and
  the values are asked for a window of eight at a time.  A window that cannot be
  read is listed with '-'.

  Main results:
    * `walk_collect`        — what the arrays hold after a walk;
    * `rowLoop_run`         — the rows of one window;
    * `tableWindows_run`    — the rows of all windows, and what was asked for;
    * `cmdParamTable_listed_iff` — nothing is left out exactly when the table has
      at most 32 parameters.
-/
import KFsw.App.Param

namespace KFsw.App

open KFsw.Lib Prog

/-! ## §1. The command. -/

def KFSW_PARAM_TABLE_NAMES_MAX : Nat := 32
def KFSW_PARAM_REMOTE_WINDOW : Nat := 8

/-- `struct param_list_context`. -/
structure ParamListContext where
  filterTable : Bool
  table : UInt8
  counts : Nat → UInt16
  names : List Text
  offsets : List UInt8
  types : List ParamType
  paramFlags : List UInt32
  nameCount : Nat
  headerPrinted : Bool
  isLocal : Bool

/-- A context with nothing collected or printed. -/
def ParamListContext.fresh (filterTable : Bool) (table : UInt8) (isLocal : Bool) :
    ParamListContext :=
  ⟨filterTable, table, fun _ => 0, [], [], [], [], 0, false, isLocal⟩

/-- `collect_table_names`. -/
def collectTableNames (info : ParamInfo) (context : ParamListContext) : Bool × ParamListContext :=
  if info.table ≠ context.table then (true, context)
  else if context.nameCount ≥ KFSW_PARAM_TABLE_NAMES_MAX then (false, context)
  else
    (true, { context with
      names := context.names ++ [info.name]
      offsets := context.offsets ++ [info.offset]
      types := context.types ++ [info.type]
      paramFlags := context.paramFlags ++ [info.flags]
      nameCount := context.nameCount + 1 })

variable (cfg : ParamConfig)

/-- The text of a table in a row: its name, cut to the column, or its number. -/
def tableText (info : ParamInfo) : Text :=
  match info.tableName with
  | some name => name.take Ground.KFSW_PARAM_TABLE_COLUMN
  | none => Nat.toDigits 10 info.table.toNat

/-- The row `print_param_info` prints of a descriptor. -/
def paramRow (info : ParamInfo) (value : Text) : Text :=
  listingRow cfg (tableText info) info.offset info.name (cfg.typeName info.type)
    (cfg.modeName info.flags) value

/-- `print_param_info`. -/
def printParamInfo (info : ParamInfo) (context : ParamListContext) :
    ParamProg (Bool × ParamListContext) :=
  if context.filterTable = true ∧ info.table ≠ context.table then .done (true, context)
  else
    -- the header comes with the first row
    (shellPrints (if context.headerPrinted = true then []
      else Ground.printListHeader cfg.nameMax)).bind fun _ =>
    if context.isLocal = true then
      .call (.get info.name) fun reply =>
        (shellPrint (paramRow cfg info
          (if reply.1 = 0 then valueText cfg reply.2 else ['-']))).bind fun _ =>
          .done (true, { context with headerPrinted := true })
    else
      (shellPrint (paramRow cfg info ['-'])).bind fun _ =>
        .done (true, { context with headerPrinted := true })

/-- A callback that prints, on what a visit has. -/
def walkPrinting {ι σ : Type} (callback : ι → σ → ParamProg (Bool × σ)) :
    List ι → σ → ParamProg σ
  | [], context => .done context
  | info :: rest, context =>
    (callback info context).bind fun called =>
      if called.1 = true then walkPrinting callback rest called.2 else .done called.2

/-- `print_local_table`. -/
def printLocalTable (context : ParamListContext) : ParamProg Int :=
  .call .visit fun reply =>
    (walkPrinting (printParamInfo cfg) reply.2 context).bind fun context =>
      if reply.1 ≠ 0 then
        (shellError ("parameter table failed (".toList ++ intText reply.1 ++ [')'])).bind fun _ =>
          .done reply.1
      else if context.headerPrinted = true then .done 0
      else
        (shellPrint ("table ".toList ++ Nat.toDigits 10 context.table.toNat
          ++ " holds no parameters here".toList)).bind fun _ => .done 0

/-- The row of the parameter at `index` of the arrays. -/
def collectedRow (context : ParamListContext) (index : Nat) (value : Text) : Text :=
  listingRow cfg (Nat.toDigits 10 context.table.toNat) (context.offsets.getD index 0)
    (context.names.getD index []) (cfg.typeName (context.types.getD index .invalid))
    (cfg.modeName (context.paramFlags.getD index 0)) value

/-- The rows of the window at `base`, so many from `offset` on. -/
def rowLoop (context : ParamListContext) (base : Nat) (readOk : Bool)
    (window : List ParamValue) : Nat → Nat → ParamProg Unit
  | 0, _ => .done ()
  | left + 1, offset =>
    (shellPrint (collectedRow cfg context (base + offset)
      (if readOk = true then valueText cfg (window.getD offset .invalid) else ['-']))).bind fun _ =>
      rowLoop context base readOk window left (offset + 1)

/-- The loop over the windows from `base` on; the window keeps what an earlier request left. -/
def tableWindows (node : UInt16) (context : ParamListContext) (base : Nat)
    (window : List ParamValue) : ParamProg Int :=
  if base < context.nameCount then
    let span := min (context.nameCount - base) KFSW_PARAM_REMOTE_WINDOW
    .call (.remoteGetMany node ((context.names.drop base).take span)) fun reply =>
      let window := reply.2 ++ window.drop reply.2.length
      (if reply.1 = 0 then .done 0
        else kfswShellRemoteFailed "param table".toList node reply.1).bind fun _ =>
      (rowLoop cfg context base (decide (reply.1 = 0)) window span 0).bind fun _ =>
        tableWindows node context (base + KFSW_PARAM_REMOTE_WINDOW) window
  else .done 0
termination_by context.nameCount - base
decreasing_by
  unfold KFSW_PARAM_REMOTE_WINDOW
  omega

/-- What is said of a table without parameters. -/
def noTableLine (node : UInt16) (table : UInt8) : Text :=
  "node ".toList ++ Nat.toDigits 10 node.toNat ++ " carries no table ".toList
    ++ Nat.toDigits 10 table.toNat

/-- `cmd_param_table` from the result of the walk on. -/
def printCollected (node : UInt16) (window : List ParamValue) (context : ParamListContext)
    (result : Int) : ParamProg Int :=
  if result ≠ 0 then kfswShellRemoteFailed "param table".toList node result
  else if context.nameCount = 0 then
    (shellPrint (noTableLine node context.table)).bind fun _ => .done 0
  else
    (shellPrints (Ground.printListHeader cfg.nameMax)).bind fun _ =>
      tableWindows cfg node context 0 window

/-- `cmd_param_table` for another node. -/
def printRemoteTable (node : UInt16) (window : List ParamValue) (context : ParamListContext) :
    ParamProg Int :=
  .call (.remoteVisitTable node context.table) fun reply =>
    let context := walk collectTableNames reply.2 context
    if reply.1 = -ENOTSUP then
      .call (.remoteVisit node) fun reply =>
        printCollected cfg node window (walk collectTableNames reply.2 context) reply.1
    else printCollected cfg node window context reply.1

/-- `cmd_param_table`, with what the static window holds. -/
def cmdParamTable (shellStrtoul : Text → Nat → Except Int Nat) (address : UInt16)
    (window : List ParamValue) (argv : List Text) : ParamProg Int :=
  if argv.length = 2 then
    withTableId cfg shellStrtoul (arg argv 1) fun table =>
      printLocalTable cfg (.fresh true table true)
  else
    withParamNode cfg shellStrtoul address (arg argv 1) fun node =>
      withTableId cfg shellStrtoul (arg argv 2) fun table =>
        if node = THIS_NODE then printLocalTable cfg (.fresh true table true)
        else printRemoteTable cfg node window (.fresh true table true)

/-! ## §2. What is collected. -/

/-- The arrays hold these parameters. -/
structure Collected (context : ParamListContext) (params : List ParamInfo) : Prop where
  names : context.names = params.map ParamInfo.name
  offsets : context.offsets = params.map ParamInfo.offset
  types : context.types = params.map ParamInfo.type
  paramFlags : context.paramFlags = params.map ParamInfo.flags
  nameCount : context.nameCount = params.length

theorem collected_fresh (filterTable : Bool) (table : UInt8) (isLocal : Bool) :
    Collected (.fresh filterTable table isLocal) [] := ⟨rfl, rfl, rfl, rfl, rfl⟩

/-- The parameters of a table. -/
def ofTable (table : UInt8) (infos : List ParamInfo) : List ParamInfo :=
  infos.filter fun info => info.table = table

/-- A descriptor of another table is skipped. -/
theorem collect_other {info : ParamInfo} {context : ParamListContext}
    (h : info.table ≠ context.table) : collectTableNames info context = (true, context) := if_pos h

/-- Where the arrays are full, the walk is stopped. -/
theorem collect_full {info : ParamInfo} {context : ParamListContext}
    (h : info.table = context.table) (hfull : KFSW_PARAM_TABLE_NAMES_MAX ≤ context.nameCount) :
    collectTableNames info context = (false, context) := by
  unfold collectTableNames
  rw [if_neg (not_not_intro h), if_pos hfull]

/-- A descriptor that there is room for goes behind the ones before. -/
theorem collect_room {info : ParamInfo} {context : ParamListContext} {got : List ParamInfo}
    (hgot : Collected context got) (h : info.table = context.table)
    (hroom : got.length < KFSW_PARAM_TABLE_NAMES_MAX) :
    ∃ next, collectTableNames info context = (true, next) ∧ next.table = context.table
      ∧ Collected next (got ++ [info]) := by
  unfold collectTableNames
  rw [if_neg (not_not_intro h), if_neg (by rw [hgot.nameCount]; omega)]
  refine ⟨_, rfl, rfl, ?_⟩
  constructor
  · rw [List.map_append, ← hgot.names]
    rfl
  · rw [List.map_append, ← hgot.offsets]
    rfl
  · rw [List.map_append, ← hgot.types]
    rfl
  · rw [List.map_append, ← hgot.paramFlags]
    rfl
  · rw [List.length_append, ← hgot.nameCount]
    rfl

/-- **A walk collects** the parameters of the table, in order, as many as there is room for. -/
theorem walk_collect {context : ParamListContext} {got : List ParamInfo}
    (hgot : Collected context got) (hroom : got.length ≤ KFSW_PARAM_TABLE_NAMES_MAX)
    (infos : List ParamInfo) :
    (walk collectTableNames infos context).table = context.table
      ∧ Collected (walk collectTableNames infos context)
        (got ++ (ofTable context.table infos).take (KFSW_PARAM_TABLE_NAMES_MAX - got.length)) := by
  -- on the descriptors, with what is collected of the ones before
  induction infos generalizing context got with
  | nil =>
    refine ⟨rfl, ?_⟩
    show Collected context (got ++ List.take _ [])
    rw [List.take_nil, List.append_nil]
    exact hgot
  | cons info rest ih =>
    unfold walk
    by_cases hother : info.table = context.table
    · have hkeep : ofTable context.table (info :: rest) = info :: ofTable context.table rest :=
        List.filter_cons_of_pos (decide_eq_true hother)
      rw [hkeep]
      by_cases hfull : KFSW_PARAM_TABLE_NAMES_MAX ≤ got.length
      · rw [collect_full hother (by rw [hgot.nameCount]; exact hfull),
          Nat.sub_eq_zero_of_le hfull, List.take_zero, List.append_nil]
        exact ⟨rfl, hgot⟩
      · obtain ⟨next, hnext, htable, hcollected⟩ := collect_room hgot hother (by omega)
        have hlength : (got ++ [info]).length = got.length + 1 := List.length_append
        have h := ih hcollected (by omega)
        rw [htable, hlength, List.append_assoc] at h
        rw [hnext, show KFSW_PARAM_TABLE_NAMES_MAX - got.length
          = KFSW_PARAM_TABLE_NAMES_MAX - (got.length + 1) + 1 by omega, List.take_succ_cons]
        exact h
    · have hskip : ofTable context.table (info :: rest) = ofTable context.table rest :=
        List.filter_cons_of_neg (by simpa using hother)
      rw [collect_other hother, hskip]
      exact ih hgot hroom

/-! ## §3. What a run shows. -/

/-- The lines a run prints. -/
def printed (trace : ParamTrace) : List Text :=
  trace.filterMap fun e => match e.1 with
    | .print line => some line
    | _ => none

/-- The errors and warnings of a run. -/
def messages (trace : ParamTrace) : List Text :=
  trace.filterMap fun e => match e.1 with
    | .error line | .warning line => some line
    | _ => none

/-- One read of several values: the names asked for, the result, and the values. -/
abbrev ParamRead := List Text × Int × List ParamValue

/-- The reads of a run. -/
def reads (trace : ParamTrace) : List ParamRead :=
  trace.filterMap fun
    | ⟨.remoteGetMany _ names, reply⟩ => some (names, reply)
    | _ => none

/-- These lines are printed, these messages given and these reads made. -/
structure Shows (trace : ParamTrace) (lines said : List Text) (asked : List ParamRead) : Prop where
  printed : printed trace = lines
  messages : messages trace = said
  reads : reads trace = asked

theorem Shows.append {first second : ParamTrace} {lines lines' said said' : List Text}
    {asked asked' : List ParamRead} (h : Shows first lines said asked)
    (h' : Shows second lines' said' asked') :
    Shows (first ++ second) (lines ++ lines') (said ++ said') (asked ++ asked') := by
  constructor
  · rw [KFsw.App.printed, List.filterMap_append, ← h.printed, ← h'.printed]
    rfl
  · rw [KFsw.App.messages, List.filterMap_append, ← h.messages, ← h'.messages]
    rfl
  · rw [KFsw.App.reads, List.filterMap_append, ← h.reads, ← h'.reads]
    rfl

theorem shows_nil : Shows [] [] [] [] := ⟨rfl, rfl, rfl⟩

/-- A read in front. -/
theorem Shows.read {rest : ParamTrace} {lines said : List Text} {asked : List ParamRead}
    (node : UInt16) (names : List Text) (reply : Int × List ParamValue)
    (h : Shows rest lines said asked) :
    Shows (⟨.remoteGetMany node names, reply⟩ :: rest) lines said ((names, reply) :: asked) := by
  refine ⟨h.printed, h.messages, ?_⟩
  rw [← h.reads]
  rfl

theorem shellPrint_run {line : Text} {trace : ParamTrace} {a : Unit}
    (h : (shellPrint line).Runs trace a) : Shows trace [line] [] [] := by
  obtain ⟨r, rest, rfl, hdone⟩ := runs_call.mp h
  obtain ⟨rfl, _⟩ := runs_done.mp hdone
  exact ⟨rfl, rfl, rfl⟩

theorem shellPrints_run {lines : List Text} {trace : ParamTrace} {a : Unit}
    (h : (shellPrints lines).Runs trace a) : Shows trace lines [] [] := by
  induction lines generalizing trace with
  | nil =>
    obtain ⟨rfl, _⟩ := runs_done.mp h
    exact shows_nil
  | cons line lines ih =>
    obtain ⟨first, second, _, rfl, hfirst, hsecond⟩ := runs_bind.mp h
    exact (shellPrint_run hfirst).append (ih hsecond)

/-- A failed request is reported in one line, and its result handed on. -/
theorem kfswShellRemoteFailed_run {what : Text} {node : UInt16} {result a : Int}
    {trace : ParamTrace} (h : (kfswShellRemoteFailed what node result).Runs trace a) :
    a = result ∧ Shows trace [] [remoteFailedLine what node result] [] := by
  obtain ⟨first, second, _, rfl, hfirst, hsecond⟩ := runs_bind.mp h
  obtain ⟨rfl, rfl⟩ := runs_done.mp hsecond
  rw [List.append_nil]
  refine ⟨rfl, ?_⟩
  split at hfirst
  · obtain ⟨r, rest, rfl, hdone⟩ := runs_call.mp hfirst
    obtain ⟨rfl, _⟩ := runs_done.mp hdone
    exact ⟨rfl, rfl, rfl⟩
  · obtain ⟨r, rest, rfl, hdone⟩ := runs_call.mp hfirst
    obtain ⟨rfl, _⟩ := runs_done.mp hdone
    exact ⟨rfl, rfl, rfl⟩

/-! ## §4. The rows. -/

/-- The row of a parameter of another node. -/
def remoteRow (table : UInt8) (info : ParamInfo) (value : Text) : Text :=
  listingRow cfg (Nat.toDigits 10 table.toNat) info.offset info.name (cfg.typeName info.type)
    (cfg.modeName info.flags) value

/-- The texts of the values of a read, or '-' for each name of one that failed. -/
def readTexts (read : ParamRead) : List Text :=
  if read.2.1 = 0 then read.2.2.map (valueText cfg) else read.1.map fun _ => ['-']

/-- The messages of the reads that failed. -/
def failureLines (node : UInt16) (asked : List ParamRead) : List Text :=
  asked.filterMap fun read =>
    if read.2.1 = 0 then none else some (remoteFailedLine "param table".toList node read.2.1)

/-- A read that succeeds fills a value for every name. -/
def Fills (asked : List ParamRead) : Prop := ∀ read ∈ asked, read.2.1 = 0 → read.2.2.length = read.1.length

theorem readTexts_length (read : ParamRead) (h : read.2.1 = 0 → read.2.2.length = read.1.length) :
    (readTexts cfg read).length = read.1.length := by
  unfold readTexts
  split
  · rename_i hok
    rw [List.length_map, h hok]
  · rw [List.length_map]

/-- The arrays hold the row of every parameter. -/
theorem collectedRow_eq {context : ParamListContext} {params : List ParamInfo}
    (h : Collected context params) {index : Nat} (hindex : index < params.length) (value : Text) :
    collectedRow cfg context index value = remoteRow cfg context.table params[index] value := by
  unfold collectedRow remoteRow
  rw [h.names, h.offsets, h.types, h.paramFlags]
  simp only [List.getD_eq_getElem?_getD, List.getElem?_map, List.getElem?_eq_getElem hindex,
    Option.map_some, Option.getD_some]

/-- The rows of one window. -/
theorem rowLoop_run {context : ParamListContext} {base : Nat} {readOk : Bool}
    {window : List ParamValue} {left offset : Nat} {trace : ParamTrace} {a : Unit}
    (h : (rowLoop cfg context base readOk window left offset).Runs trace a) :
    Shows trace ((List.range' offset left).map fun o => collectedRow cfg context (base + o)
      (if readOk = true then valueText cfg (window.getD o .invalid) else ['-'])) [] [] := by
  induction left generalizing offset trace with
  | zero =>
    obtain ⟨rfl, _⟩ := runs_done.mp h
    exact shows_nil
  | succ left ih =>
    obtain ⟨first, second, _, rfl, hfirst, hsecond⟩ := runs_bind.mp h
    exact (shellPrint_run hfirst).append (ih hsecond)

/-- **The rows of a window** are those of its parameters, each with the value read for it. -/
theorem windowRows_eq {context : ParamListContext} {params : List ParamInfo}
    (h : Collected context params) {base span : Nat} (hspan : base + span ≤ params.length)
    {names : List Text} (hnames : names.length = span) {reply : Int × List ParamValue}
    (hfills : reply.1 = 0 → reply.2.length = span) (window : List ParamValue) :
    (List.range' 0 span).map (fun o => collectedRow cfg context (base + o)
        (if decide (reply.1 = 0) = true
          then valueText cfg ((reply.2 ++ window.drop reply.2.length).getD o .invalid) else ['-']))
      = List.zipWith (remoteRow cfg context.table) ((params.drop base).take span)
        (readTexts cfg (names, reply)) := by
  have hlength : (readTexts cfg (names, reply)).length = span := by
    rw [readTexts_length cfg (names, reply) (by rw [hnames]; exact hfills), hnames]
  refine List.ext_getElem ?_ ?_
  · rw [List.length_map, List.length_range', List.length_zipWith, hlength, List.length_take,
      List.length_drop]
    omega
  · intro o ho _
    rw [List.length_map, List.length_range'] at ho
    rw [List.getElem_map, List.getElem_range', List.getElem_zipWith, List.getElem_take,
      List.getElem_drop, Nat.zero_add, Nat.one_mul, collectedRow_eq cfg h (by omega)]
    congr 1
    by_cases hok : reply.1 = 0
    · -- the value at this position of the window
      have hvalue : o < reply.2.length := by rw [hfills hok]; exact ho
      simp only [readTexts, hok, decide_true, if_true, List.getElem_map,
        List.getD_eq_getElem?_getD, List.getElem?_append_left hvalue,
        List.getElem?_eq_getElem hvalue, Option.getD_some]
    · simp only [readTexts, hok, decide_false, Bool.false_eq_true, if_false, List.getElem_map]

/-- The report of a window: a line for one that failed. -/
theorem windowReport_run {node : UInt16} {names : List Text} {reply : Int × List ParamValue}
    {a : Int} {trace : ParamTrace}
    (h : (if reply.1 = 0 then Prog.done 0
      else kfswShellRemoteFailed "param table".toList node reply.1).Runs trace a) :
    Shows trace [] (failureLines node [(names, reply)]) [] := by
  by_cases hok : reply.1 = 0
  · rw [if_pos hok] at h
    obtain ⟨rfl, _⟩ := runs_done.mp h
    have hnone : failureLines node [(names, reply)] = [] := by
      simp only [failureLines, List.filterMap_cons, hok, if_true, List.filterMap_nil]
    rw [hnone]
    exact shows_nil
  · rw [if_neg hok] at h
    have hline : failureLines node [(names, reply)]
        = [remoteFailedLine "param table".toList node reply.1] := by
      simp only [failureLines, List.filterMap_cons, hok, if_false, List.filterMap_nil]
    rw [hline]
    exact (kfswShellRemoteFailed_run h).2

/-- What is shown of the parameters of some windows: the reads ask for each of them, in order, and
its row has the value that was read. -/
structure WindowsShown (node : UInt16) (table : UInt8) (rest : List ParamInfo)
    (trace : ParamTrace) (asked : List ParamRead) : Prop where
  shows : Shows trace (List.zipWith (remoteRow cfg table) rest (asked.flatMap (readTexts cfg)))
    (failureLines node asked) asked
  names : asked.flatMap Prod.fst = rest.map ParamInfo.name
  one_each : (asked.flatMap (readTexts cfg)).length = rest.length

/-- One window in front of the others. -/
theorem WindowsShown.window {node : UInt16} {context : ParamListContext} {params : List ParamInfo}
    (hcollected : Collected context params) {base span : Nat} (hbase : base < params.length)
    (hspan : min (params.length - base) KFSW_PARAM_REMOTE_WINDOW = span)
    {window : List ParamValue} {names : List Text}
    (hnames : (context.names.drop base).take span = names) {reply : Int × List ParamValue}
    (hfills : reply.1 = 0 → reply.2.length = names.length) {report rows rest : ParamTrace}
    (hreport : Shows report [] (failureLines node [(names, reply)]) [])
    (hrows : Shows rows ((List.range' 0 span).map fun o => collectedRow cfg context (base + o)
      (if decide (reply.1 = 0) = true
        then valueText cfg ((reply.2 ++ window.drop reply.2.length).getD o .invalid)
        else ['-'])) [] [])
    {asked : List ParamRead}
    (hrest : WindowsShown cfg node context.table (params.drop (base + KFSW_PARAM_REMOTE_WINDOW))
      rest asked) :
    WindowsShown cfg node context.table (params.drop base)
      (⟨.remoteGetMany node names, reply⟩ :: (report ++ (rows ++ rest)))
      ((names, reply) :: asked) := by
  have hsplit : (params.drop base).take span ++ params.drop (base + KFSW_PARAM_REMOTE_WINDOW)
      = params.drop base := by
    have hdrop : params.drop (base + KFSW_PARAM_REMOTE_WINDOW) = (params.drop base).drop span := by
      rw [List.drop_drop]
      by_cases hshort : span = KFSW_PARAM_REMOTE_WINDOW
      · rw [hshort]
      · rw [List.drop_eq_nil_of_le (by omega), List.drop_eq_nil_of_le (by omega)]
    rw [hdrop, List.take_append_drop]
  have hasked : names = ((params.drop base).take span).map ParamInfo.name := by
    rw [← hnames, hcollected.names, List.map_take, List.map_drop]
  have htake : ((params.drop base).take span).length = span := by
    rw [List.length_take, List.length_drop]
    omega
  have hlength : names.length = span := by rw [hasked, List.length_map, htake]
  have htexts : (readTexts cfg (names, reply)).length = span := by
    rw [readTexts_length cfg (names, reply) hfills, hlength]
  constructor
  · rw [windowRows_eq cfg hcollected (by omega) hlength (by rw [← hlength]; exact hfills)] at hrows
    have h := (hreport.append (hrows.append hrest.shows)).read node names reply
    rw [List.nil_append, List.nil_append, List.nil_append, List.nil_append,
      ← List.zipWith_append (by rw [htake, htexts]), hsplit] at h
    refine ⟨h.printed, ?_, h.reads⟩
    rw [h.messages]
    exact List.filterMap_append.symm
  · rw [← hsplit, List.map_append, ← hasked, ← hrest.names]
    rfl
  · show (readTexts cfg (names, reply) ++ asked.flatMap (readTexts cfg)).length = _
    rw [← hsplit, List.length_append, List.length_append, htexts, htake, hrest.one_each]

/-- **The loop over the windows** asks for every parameter once, in order, and prints the row of
each with the value that was read for it. -/
theorem tableWindows_run {node : UInt16} {context : ParamListContext} {params : List ParamInfo}
    (hcollected : Collected context params) {base : Nat} {window : List ParamValue}
    {trace : ParamTrace} {result : Int}
    (h : (tableWindows cfg node context base window).Runs trace result)
    (hfills : Fills (reads trace)) :
    result = 0 ∧ WindowsShown cfg node context.table (params.drop base) trace (reads trace) := by
  have hcount := hcollected.nameCount
  -- on the parameters that are left
  induction hleft : context.nameCount - base using Nat.strong_induction_on
    generalizing base window trace with
  | _ left ih =>
    unfold tableWindows at h
    by_cases hbase : base < context.nameCount
    · rw [if_pos hbase] at h
      obtain ⟨reply, rest, rfl, hrest⟩ := runs_call.mp h
      obtain ⟨first, second, _, rfl, hfirst, hsecond⟩ := runs_bind.mp hrest
      obtain ⟨third, fourth, _, rfl, hthird, hfourth⟩ := runs_bind.mp hsecond
      have hbehind : reads (⟨.remoteGetMany node ((context.names.drop base).take
            (min (context.nameCount - base) KFSW_PARAM_REMOTE_WINDOW)), reply⟩
              :: (first ++ (third ++ fourth)))
          = ((context.names.drop base).take
            (min (context.nameCount - base) KFSW_PARAM_REMOTE_WINDOW), reply) :: reads fourth := by
        have hself : Shows fourth (printed fourth) (messages fourth) (reads fourth) := ⟨rfl, rfl, rfl⟩
        have hreport : Shows first [] (failureLines node [([], reply)]) [] := windowReport_run hfirst
        exact ((hreport.append ((rowLoop_run cfg hthird).append hself)).read node _ reply).reads
      rw [hbehind] at hfills ⊢
      obtain ⟨hresult, hshown⟩ := ih (context.nameCount - (base + KFSW_PARAM_REMOTE_WINDOW))
        (by unfold KFSW_PARAM_REMOTE_WINDOW; omega) hfourth
        (fun read hread => hfills read (List.mem_cons_of_mem _ hread)) rfl
      exact ⟨hresult, hshown.window cfg hcollected (by omega) (by rw [hcount]) rfl
        (hfills _ List.mem_cons_self) (windowReport_run hfirst) (rowLoop_run cfg hthird)⟩
    · rw [if_neg hbase] at h
      obtain ⟨rfl, rfl⟩ := runs_done.mp h
      have hdrop : params.drop base = [] := List.drop_eq_nil_of_le (by omega)
      rw [hdrop]
      exact ⟨rfl, shows_nil, rfl, rfl⟩

/-! ## §5. The listing of a table. -/

/-- The walk of a run: the service has these descriptors for the callback, and its result is `r`.
A node that does not serve one table is asked for all of them. -/
inductive Walked (node : UInt16) (table : UInt8) (infos : List ParamInfo) (r : Int) :
    ParamTrace → Prop
  | table (hr : r ≠ -ENOTSUP) (rest : ParamTrace) :
      Walked node table infos r (⟨.remoteVisitTable node table, (r, infos)⟩ :: rest)
  | node (rest : ParamTrace) :
      Walked node table infos r (⟨.remoteVisitTable node table, (-ENOTSUP, [])⟩
        :: ⟨.remoteVisit node, (r, infos)⟩ :: rest)

/-- Nothing is left out: every parameter is asked for once, in order, and has one row, with its
own offset, type and name, and the value the node returned for it or '-'. -/
structure Listed (node : UInt16) (table : UInt8) (params : List ParamInfo) (trace : ParamTrace) :
    Prop where
  names : (reads trace).flatMap Prod.fst = params.map ParamInfo.name
  one_each : ((reads trace).flatMap (readTexts cfg)).length = params.length
  rows : printed trace = if params = [] then [noTableLine node table]
    else Ground.printListHeader cfg.nameMax
      ++ List.zipWith (remoteRow cfg table) params ((reads trace).flatMap (readTexts cfg))

/-- A run reports that it could not list all: by its result, or by a message that is not one of
a window that could not be read. -/
def Reported (node : UInt16) (trace : ParamTrace) (result : Int) : Prop :=
  result ≠ 0 ∨ messages trace ≠ failureLines node (reads trace)

/-- Only one list of parameters can be listed by a run, up to its length. -/
theorem Listed.length_eq {node : UInt16} {table : UInt8} {params params' : List ParamInfo}
    {trace : ParamTrace} (h : Listed cfg node table params trace)
    (h' : Listed cfg node table params' trace) : params.length = params'.length :=
  h.one_each.symm.trans h'.one_each

/-- What is shown after a walk that did not fail. -/
theorem printCollected_run {node : UInt16} {context : ParamListContext} {params : List ParamInfo}
    (hcollected : Collected context params) {window : List ParamValue} {trace : ParamTrace}
    {result : Int} (h : (printCollected cfg node window context 0).Runs trace result)
    (hfills : Fills (reads trace)) :
    Listed cfg node context.table params trace ∧ ¬ Reported node trace result := by
  unfold printCollected at h
  rw [if_neg (not_not_intro rfl), hcollected.nameCount] at h
  cases params with
  | nil =>
    rw [if_pos List.length_nil] at h
    obtain ⟨first, second, _, rfl, hfirst, hsecond⟩ := runs_bind.mp h
    obtain ⟨rfl, rfl⟩ := runs_done.mp hsecond
    obtain ⟨hprinted, hmessages, hreads⟩ := (shellPrint_run hfirst).append shows_nil
    unfold Reported
    rw [hmessages, hreads]
    refine ⟨⟨by rw [hreads]; rfl, by rw [hreads]; rfl, hprinted⟩, ?_⟩
    rintro (h | h)
    · exact h rfl
    · exact h rfl
  | cons info rest =>
    rw [if_neg (by exact Nat.succ_ne_zero _)] at h
    obtain ⟨first, second, _, rfl, hfirst, hsecond⟩ := runs_bind.mp h
    have hself : Shows second (printed second) (messages second) (reads second) := ⟨rfl, rfl, rfl⟩
    obtain ⟨hprinted, hmessages, hreads⟩ := (shellPrints_run hfirst).append hself
    rw [List.nil_append] at hmessages hreads
    rw [hreads] at hfills
    obtain ⟨rfl, hshown⟩ := tableWindows_run cfg hcollected hsecond hfills
    unfold Reported
    rw [hmessages, hreads]
    refine ⟨⟨?_, ?_, ?_⟩, ?_⟩
    · rw [hreads]
      exact hshown.names
    · rw [hreads]
      exact hshown.one_each
    · rw [hprinted, hshown.shows.printed, hreads, if_neg (List.cons_ne_nil _ _)]
      rfl
    · rintro (h | h)
      · exact h rfl
      · exact h hshown.shows.messages

/-- The walk's result decides how a run goes on: what was collected is printed, or the failure is
reported. -/
theorem printRemoteTable_run {node : UInt16} {table : UInt8} {window : List ParamValue}
    {infos : List ParamInfo} {r : Int} {trace : ParamTrace} {result : Int}
    (h : (printRemoteTable cfg node window (.fresh true table true)).Runs trace result)
    (hwalked : Walked node table infos r trace) (hfills : Fills (reads trace)) :
    (r = 0 → Listed cfg node table ((ofTable table infos).take KFSW_PARAM_TABLE_NAMES_MAX) trace
        ∧ ¬ Reported node trace result)
      ∧ (r ≠ 0 → Reported node trace result) := by
  obtain ⟨htable, hcollected⟩ := walk_collect (collected_fresh true table true) (Nat.zero_le _) infos
  rw [List.nil_append] at hcollected
  obtain ⟨reply, rest, htrace, hrest⟩ := runs_call.mp h
  have hdecided : ∀ {behind : ParamTrace}, (printCollected cfg node window
      (walk collectTableNames infos (.fresh true table true)) r).Runs behind result →
      printed trace = printed behind → messages trace = messages behind → reads trace = reads behind →
      (r = 0 → Listed cfg node table ((ofTable table infos).take KFSW_PARAM_TABLE_NAMES_MAX) trace
        ∧ ¬ Reported node trace result) ∧ (r ≠ 0 → Reported node trace result) := by
    intro behind hbehind hprinted hmessages hreads
    rw [hreads] at hfills
    constructor
    · rintro rfl
      obtain ⟨⟨hnames, hone, hrows⟩, hreport⟩ := printCollected_run cfg hcollected hbehind hfills
      rw [htable] at hrows
      refine ⟨⟨?_, ?_, ?_⟩, ?_⟩
      · rw [hreads]
        exact hnames
      · rw [hreads]
        exact hone
      · rw [hprinted, hreads]
        exact hrows
      · unfold Reported at hreport ⊢
        rwa [hmessages, hreads]
    · intro hr
      unfold printCollected at hbehind
      rw [if_pos hr] at hbehind
      exact .inl ((kfswShellRemoteFailed_run hbehind).1 ▸ hr)
  cases hwalked with
  | table hr behind =>
    obtain ⟨hevent, rfl⟩ := List.cons.inj htrace
    obtain rfl : reply = (r, infos) := (eq_of_heq (Sigma.mk.inj hevent).2).symm
    rw [if_neg hr] at hrest
    exact hdecided hrest rfl rfl rfl
  | node behind =>
    obtain ⟨hevent, rfl⟩ := List.cons.inj htrace
    obtain rfl : reply = (-ENOTSUP, []) := (eq_of_heq (Sigma.mk.inj hevent).2).symm
    rw [if_pos rfl] at hrest
    obtain ⟨reply', rest', htrace', hrest'⟩ := runs_call.mp hrest
    obtain ⟨hevent', rfl⟩ := List.cons.inj htrace'
    obtain rfl : reply' = (r, infos) := (eq_of_heq (Sigma.mk.inj hevent').2).symm
    exact hdecided hrest' rfl rfl rfl

/-- The command goes to the other node. -/
theorem cmdParamTable_remote {shellStrtoul : Text → Nat → Except Int Nat} {address : UInt16}
    {window : List ParamValue} {argv : List Text} {node : UInt16} {table : UInt8}
    (hargs : argv.length ≠ 2)
    (hnode : parseParamNode cfg shellStrtoul address (arg argv 1) = .ok node)
    (hremote : node ≠ THIS_NODE) (htable : parseTableId cfg shellStrtoul (arg argv 2) = .ok table) :
    cmdParamTable cfg shellStrtoul address window argv
      = printRemoteTable cfg node window (.fresh true table true) := by
  unfold cmdParamTable withParamNode withTableId
  rw [if_neg hargs, hnode, htable]
  exact if_neg hremote

/-- **A table of another node is listed, or the failure is reported, exactly when** the walk
failed or the table has at most 32 parameters.  The text of a value is the same whatever its
buffer held. -/
theorem cmdParamTable_listed_iff {shellStrtoul : Text → Nat → Except Int Nat} {address : UInt16}
    {window : List ParamValue} {argv : List Text} {node : UInt16} {table : UInt8}
    {infos : List ParamInfo} {r : Int} {trace : ParamTrace} {result : Int}
    (hargs : argv.length ≠ 2)
    (hnode : parseParamNode cfg shellStrtoul address (arg argv 1) = .ok node)
    (hremote : node ≠ THIS_NODE) (htable : parseTableId cfg shellStrtoul (arg argv 2) = .ok table)
    (hrun : (cmdParamTable cfg shellStrtoul address window argv).Runs trace result)
    (hwalked : Walked node table infos r trace) (hfills : Fills (reads trace)) :
    (Listed cfg node table (ofTable table infos) trace ∨ Reported node trace result
        ↔ r ≠ 0 ∨ (ofTable table infos).length ≤ KFSW_PARAM_TABLE_NAMES_MAX)
      ∧ ∀ (value : ParamValue) (a : CArray cfg.textSize),
        (formatParamValue cfg.toValueConfig a value).map CArray.text
          = some (valueText cfg value) := by
  refine ⟨?_, formatParamValue_text cfg⟩
  rw [cmdParamTable_remote cfg hargs hnode hremote htable] at hrun
  obtain ⟨hlisted, hfailed⟩ := printRemoteTable_run cfg hrun hwalked hfills
  by_cases hr : r = 0
  · obtain ⟨hlist, hsilent⟩ := hlisted hr
    constructor
    · rintro (h | h)
      · have hlength := h.length_eq cfg hlist
        rw [List.length_take] at hlength
        exact .inr (by omega)
      · exact absurd h hsilent
    · rintro (h | h)
      · exact absurd hr h
      · rw [List.take_of_length_le h] at hlist
        exact .inl hlist
  · exact iff_of_true (.inr (hfailed hr)) (.inl hr)

/-- A parameter of table 25. -/
def exampleParam (i : Nat) : ParamInfo :=
  ⟨25, none, UInt8.ofNat i, 'p' :: Nat.toDigits 10 i, .u8, 0⟩

/-- A node whose table 25 holds so many parameters, and that answers every read. -/
def exampleNode (n : Nat) : (c : ParamCall) → ParamReply c
  | .get _ | .parseText .. | .remoteGet .. => (0, .u8 0)
  | .set .. | .remoteSet .. => (0 : Int)
  | .getInfo _ => (0, exampleParam 0)
  | .visit | .remoteVisit _ | .remoteVisitTable .. => (0, (List.range n).map exampleParam)
  | .visitTables | .remoteTables _ => (0, [])
  | .persistTableCount _ => (0 : UInt16)
  | .remoteGetMany _ names => (0, names.map fun _ => .u8 0)
  | .print _ | .error _ | .warning _ => ()

/-- The static window before the first read. -/
def zeroWindow : List ParamValue := List.replicate KFSW_PARAM_REMOTE_WINDOW .invalid

/-- `param table 5 25`. -/
def exampleListing : ParamProg Int :=
  cmdParamTable exampleParams decimalStrtoul 1 zeroWindow
    ["table".toList, "5".toList, "25".toList]

theorem exampleListing_eq :
    exampleListing = printRemoteTable exampleParams 5 zeroWindow (.fresh true 25 true) :=
  cmdParamTable_remote exampleParams (by decide) rfl (by decide) rfl

theorem exampleNode_walked (n : Nat) :
    Walked 5 25 ((List.range n).map exampleParam) 0 (exampleListing.exec (exampleNode n)).1 := by
  rw [exampleListing_eq]
  exact .table (by decide) _

theorem exampleNode_fills (n : Nat) : Fills (reads (exampleListing.exec (exampleNode n)).1) := by
  intro read hread _
  obtain ⟨e, he, hsome⟩ := List.mem_filterMap.mp hread
  have hreply := exec_replies (exampleNode n) exampleListing e he
  obtain ⟨c, reply⟩ := e
  cases c with
  | remoteGetMany node names =>
    obtain rfl : (names, reply) = read := Option.some.inj hsome
    obtain rfl : reply = (0, names.map fun _ => .u8 0) := hreply
    exact List.length_map _
  | _ => exact absurd hsome (by simp)

/-- A walk that ends without an error is not reported. -/
theorem exampleListing_silent (n : Nat) :
    Listed exampleParams 5 25 ((ofTable 25 ((List.range n).map exampleParam)).take
        KFSW_PARAM_TABLE_NAMES_MAX) (exampleListing.exec (exampleNode n)).1
      ∧ ¬ Reported 5 (exampleListing.exec (exampleNode n)).1
        (exampleListing.exec (exampleNode n)).2 := by
  have hrun := runs_exec (exampleNode n) exampleListing
  nth_rewrite 1 [exampleListing_eq] at hrun
  exact (printRemoteTable_run exampleParams hrun (exampleNode_walked n)
    (exampleNode_fills n)).1 rfl

/-- All of a table of two parameters is listed. -/
theorem cmdParamTable_listed_two :
    Listed exampleParams 5 25 (ofTable 25 ((List.range 2).map exampleParam))
      (exampleListing.exec (exampleNode 2)).1 := by
  have hlisted := (cmdParamTable_listed_iff exampleParams
    (show (["table".toList, "5".toList, "25".toList] : List Text).length ≠ 2 by decide)
    rfl (by decide) rfl (runs_exec (exampleNode 2) exampleListing)
    (exampleNode_walked 2) (exampleNode_fills 2)).1.mpr (.inr (by decide))
  exact hlisted.resolve_right (exampleListing_silent 2).2

/-- Of a table of 33 parameters one is left out, and nothing is reported. -/
theorem cmdParamTable_silent : ∃ (trace : ParamTrace) (result : Int),
    (cmdParamTable exampleParams decimalStrtoul 1 zeroWindow
      ["table".toList, "5".toList, "25".toList]).Runs trace result
    ∧ Walked 5 25 ((List.range 33).map exampleParam) 0 trace ∧ Fills (reads trace)
    ∧ ¬ (Listed exampleParams 5 25 (ofTable 25 ((List.range 33).map exampleParam)) trace
      ∨ Reported 5 trace result) := by
  refine ⟨_, _, runs_exec (exampleNode 33) exampleListing, exampleNode_walked 33,
    exampleNode_fills 33, ?_⟩
  obtain ⟨hlist, hsilent⟩ := exampleListing_silent 33
  rintro (h | h)
  · have hlength := h.length_eq exampleParams hlist
    exact absurd hlength (by decide)
  · exact hsilent h

end KFsw.App
