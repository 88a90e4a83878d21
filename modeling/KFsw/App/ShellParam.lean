/-
  KFsw.App.ShellParam — the `param` commands that take a node,
  `app/src/shell/shell_param.c`, and the nodes they accept.

  Three parsers read a node from the command line: that of the `param` commands,
  `kfsw_shell_parse_node` and that of `remexec`.  A request goes to one node, so
  the broadcast address is none of theirs.

  Main results:
    * `requests_calls`       — a command sends requests to the node it was given;
    * `oneLanguage_iff`      — the parsers accept the same texts, and no request
      goes to the broadcast address, exactly when the text does not write it.
-/
import KFsw.App.ParamTable

namespace KFsw.App

open KFsw.Lib Prog
open KFsw.Ground (padRight)

variable (cfg : ParamConfig)

/-! ## §1. One value. -/

/-- `print_param_error`. -/
def printParamError (operation name : Text) (result : Int) : ParamProg Int :=
  (shellError (operation ++
    if result = -ENOENT then ": parameter '".toList ++ name ++ "' not found".toList
    else if result = -EACCES then
      ": parameter '".toList ++ name ++ "' is read-only or service is not ready".toList
    else if result = -EMSGSIZE then ": value type or size does not match '".toList ++ name ++ ['\'']
    else ": parameter '".toList ++ name ++ "' failed (".toList ++ intText result ++ [')'])).bind
    fun _ => .done result

/-- `print_param_value`. -/
def printParamValue (node : UInt16) (name : Text) (value : ParamValue) : ParamProg Unit :=
  shellPrint ((if node = THIS_NODE then [] else Nat.toDigits 10 node.toNat ++ [':'])
    ++ name ++ " = ".toList ++ valueText cfg value)

/-- The read that `get` and `set` begin with. -/
def readParam (node : UInt16) (name : Text) : ParamProg (Int × ParamValue) :=
  if node = THIS_NODE then .call (.get name) .done else .call (.remoteGet node name) .done

/-- `cmd_param_get` from the name on. -/
def getAt (node : UInt16) (name : Text) : ParamProg Int :=
  (readParam node name).bind fun reply =>
    if node ≠ THIS_NODE ∧ kfswShellNoAnswer reply.1 = true then
      kfswShellRemoteFailed "param get".toList node reply.1
    else if reply.1 ≠ 0 then printParamError "get".toList name reply.1
    else (printParamValue cfg node name reply.2).bind fun _ => .done 0

/-- The write of `cmd_param_set`; here the stored value is read back. -/
def writeParam (node : UInt16) (name : Text) (value : ParamValue) : ParamProg (Int × ParamValue) :=
  if node = THIS_NODE then
    .call (.set name value) fun (result : Int) =>
      if result = 0 then .call (.get name) .done else .done (result, value)
  else .call (.remoteSet node name value) fun result => .done (result, value)

/-- Whether a value that was set here applies only at the next boot. -/
def noteBoot (node : UInt16) (name : Text) : ParamProg Int :=
  if node = THIS_NODE then
    .call (.getInfo name) fun reply =>
      (if reply.1 = 0 ∧ cfg.modeName reply.2.flags = ['b'] then
        shellPrint "stored; takes effect after reboot".toList else .done ()).bind fun _ => .done 0
  else .done 0

/-- `cmd_param_set` from the name on. -/
def setAt (node : UInt16) (name text : Text) : ParamProg Int :=
  (readParam node name).bind fun reply =>
    if node ≠ THIS_NODE ∧ kfswShellNoAnswer reply.1 = true then
      kfswShellRemoteFailed "param set".toList node reply.1
    else if reply.1 ≠ 0 then printParamError "set".toList name reply.1
    else
      .call (.parseText text reply.2) fun parsed =>
        if parsed.1 ≠ 0 then
          (shellError ("set: invalid ".toList ++ cfg.typeName parsed.2.type ++ " value '".toList
            ++ text ++ ['\''])).bind fun _ => .done parsed.1
        else
          (writeParam node name parsed.2).bind fun written =>
            if node ≠ THIS_NODE ∧ kfswShellNoAnswer written.1 = true then
              kfswShellRemoteFailed "param set".toList node written.1
            else if written.1 ≠ 0 then printParamError "set".toList name written.1
            else (printParamValue cfg node name written.2).bind fun _ => noteBoot cfg node name

/-! ## §2. All parameters. -/

/-- The visits of `list_remote_parameters`, one table at a time. -/
def visitTablesOf (node : UInt16) (context : ParamListContext) : List UInt8 →
    ParamProg (Int × ParamListContext)
  | [] => .done (0, context)
  | table :: tables =>
    .call (.remoteVisitTable node table) fun reply =>
      (walkPrinting (printParamInfo cfg) reply.2 context).bind fun context =>
        if reply.1 ≠ 0 then .done (reply.1, context) else visitTablesOf node context tables

/-- `collect_remote_table_id`. -/
def collectRemoteTableId (info : ParamTableInfo) (tables : List UInt8) : Bool × List UInt8 :=
  (true, if tables.length < cfg.tableModuleLast + 1 then tables ++ [info.id] else tables)

/-- `list_remote_parameters`. -/
def listRemoteParameters (node : UInt16) (context : ParamListContext) :
    ParamProg (Int × ParamListContext) :=
  .call (.remoteTables node) fun reply =>
    let tables := walk (collectRemoteTableId cfg) reply.2 []
    -- the node does not serve its table list: it is asked for everything
    if reply.1 = -ENOTSUP then
      .call (.remoteVisit node) fun reply =>
        (walkPrinting (printParamInfo cfg) reply.2 context).bind fun context =>
          .done (reply.1, context)
    else if reply.1 ≠ 0 then .done (reply.1, context)
    else visitTablesOf cfg node context tables

/-- The end of `cmd_param_listall`. -/
def listallResult (isLocal : Bool) (result : Int) : ParamProg Int :=
  (if result = -ENOSPC ∧ isLocal = false then
      shellError ("parameter list failed: the remote cache holds ".toList
        ++ Nat.toDigits 10 cfg.remotePoolSize
        ++ " descriptors; raise CONFIG_KFSW_PARAM_REMOTE_POOL_SIZE".toList)
    else if result ≠ 0 then
      shellError ("parameter list failed (".toList ++ intText result ++ [')'])
    else .done ()).bind fun _ => .done result

/-- `cmd_param_listall` from the node on. -/
def listallAt (node : UInt16) : ParamProg Int :=
  if node = THIS_NODE then
    .call .visit fun reply =>
      (walkPrinting (printParamInfo cfg) reply.2 (.fresh false 0 true)).bind fun _ =>
        listallResult cfg true reply.1
  else
    (listRemoteParameters cfg node (.fresh false 0 false)).bind fun listed =>
      if kfswShellNoAnswer listed.1 = true then
        kfswShellRemoteFailed "param listall".toList node listed.1
      else listallResult cfg false listed.1

/-! ## §3. The tables of a node. -/

def TABLE_NAME_COLUMN : Nat := 12

/-- `%*s`. -/
def padLeft (width : Nat) (text : Text) : Text := List.replicate (width - text.length) ' ' ++ text

/-- Columns, with two blanks between them. -/
def columns : List Text → Text
  | [] => []
  | [last] => last
  | column :: rest => column ++ ' ' :: ' ' :: columns rest

/-- A line of the tables: number, layer, name, the counts and what the table holds. -/
def tableLine (id : Text) (layer name : Text) (counts : List Text) (holds : Text) : Text :=
  columns ([padLeft 3 id, padRight 7 layer, padRight TABLE_NAME_COLUMN name] ++ counts ++ [holds])

/-- The heading of the tables. -/
def tableHeading (kept : Bool) : List Text :=
  [tableLine " id".toList "layer".toList "name".toList
      ([padLeft 6 "params".toList] ++ if kept = true then [padLeft 4 "kept".toList] else [])
      "holds".toList,
    columns ([3, 7, TABLE_NAME_COLUMN, 6].map (List.replicate · '-')
      ++ (if kept = true then [List.replicate 4 '-'] else []) ++ [List.replicate 5 '-'])]

/-- `print_table_info`. -/
def printTableInfo (info : ParamTableInfo) (context : Unit) : ParamProg (Bool × Unit) :=
  let line := fun counts => shellPrint (tableLine (Nat.toDigits 10 info.id.toNat)
    (cfg.bandName info.id) info.name (padLeft 6 (Nat.toDigits 10 info.count.toNat) :: counts)
    (info.description.getD []))
  if cfg.persistence = true then
    .call (.persistTableCount info.id) fun (kept : UInt16) =>
      (line [padLeft 4 (Nat.toDigits 10 kept.toNat)]).bind fun _ => .done (true, context)
  else (line []).bind fun _ => .done (true, context)

/-- `print_remote_table`. -/
def printRemoteTableInfo (info : ParamTableInfo) (context : Unit) : ParamProg (Bool × Unit) :=
  (shellPrint (tableLine (Nat.toDigits 10 info.id.toNat) (cfg.bandName info.id) info.name
    [padLeft 6 (Nat.toDigits 10 info.count.toNat)] (info.description.getD []))).bind fun _ =>
    .done (true, context)

/-- `tally_table`. -/
def tallyTable (info : ParamInfo) (counts : Nat → UInt16) : Bool × (Nat → UInt16) :=
  (true, if info.table.toNat ≤ cfg.tableModuleLast then
    Function.update counts info.table.toNat (counts info.table.toNat + 1) else counts)

/-- `find_table`. -/
def findTable (id : UInt8) (info : ParamTableInfo) (found : Option ParamTableInfo) :
    Bool × Option ParamTableInfo :=
  if info.id ≠ id then (true, found) else (false, some info)

/-- The loop of `print_remote_tables` over some tables. -/
def talliedTables (counts : Nat → UInt16) : List Nat → ParamProg Unit
  | [] => .done ()
  | table :: tables =>
    if counts table = 0 then talliedTables counts tables
    else
      .call .visitTables fun reply =>
        let found := walk (findTable (UInt8.ofNat table)) reply.2 none
        (shellPrint (tableLine (Nat.toDigits 10 table) (cfg.bandName (UInt8.ofNat table))
          (found.elim ['-'] (·.name)) [padLeft 6 (Nat.toDigits 10 (counts table).toNat)]
          ((found.bind (·.description)).getD []))).bind fun _ => talliedTables counts tables

/-- `print_remote_tables`. -/
def printRemoteTables (node : UInt16) : ParamProg Int :=
  (shellPrints (tableHeading false)).bind fun _ =>
    .call (.remoteTables node) fun reply =>
      (walkPrinting (printRemoteTableInfo cfg) reply.2 ()).bind fun _ =>
        if reply.1 = 0 then .done 0
        else if reply.1 ≠ -ENOTSUP then
          kfswShellRemoteFailed "param whichtables".toList node reply.1
        else
          -- the node does not serve the table list: its descriptors are counted instead
          .call (.remoteVisit node) fun reply =>
            let counts := walk (tallyTable cfg) reply.2 fun _ => 0
            if reply.1 ≠ 0 then kfswShellRemoteFailed "param whichtables".toList node reply.1
            else
              (talliedTables cfg counts (List.range' cfg.tableCoreFirst
                (cfg.tableModuleLast + 1 - cfg.tableCoreFirst))).bind fun _ => .done 0

/-- `cmd_param_whichtables` from the node on. -/
def whichtablesAt (node : UInt16) : ParamProg Int :=
  if node ≠ THIS_NODE then printRemoteTables cfg node
  else
    (shellPrints (tableHeading cfg.persistence)).bind fun _ =>
      .call .visitTables fun reply =>
        (walkPrinting (printTableInfo cfg) reply.2 ()).bind fun _ =>
          (if reply.1 ≠ 0 then
            shellError ("parameter tables failed (".toList ++ intText reply.1 ++ [')'])
            else .done ()).bind fun _ => .done reply.1

/-! ## §4. The commands. -/

section Commands

variable (shellStrtoul : Text → Nat → Except Int Nat) (address : UInt16)

/-- `cmd_param_get`. -/
def cmdParamGet (argv : List Text) : ParamProg Int :=
  if argv.length = 2 then getAt cfg THIS_NODE (arg argv 1)
  else withParamNode cfg shellStrtoul address (arg argv 1) fun node => getAt cfg node (arg argv 2)

/-- `cmd_param_set`. -/
def cmdParamSet (argv : List Text) : ParamProg Int :=
  if argv.length = 3 then setAt cfg THIS_NODE (arg argv 1) (arg argv 2)
  else
    withParamNode cfg shellStrtoul address (arg argv 1) fun node =>
      setAt cfg node (arg argv 2) (arg argv 3)

/-- `cmd_param_listall`. -/
def cmdParamListall (argv : List Text) : ParamProg Int :=
  if argv.length = 1 then listallAt cfg THIS_NODE
  else withParamNode cfg shellStrtoul address (arg argv 1) fun node => listallAt cfg node

/-- `cmd_param_whichtables`. -/
def cmdParamWhichtables (argv : List Text) : ParamProg Int :=
  if argv.length = 2 then
    withParamNode cfg shellStrtoul address (arg argv 1) fun node => whichtablesAt cfg node
  else whichtablesAt cfg THIS_NODE

/-- The commands that may send requests to another node. -/
def requestCommands (window : List ParamValue) : List (List Text → ParamProg Int) :=
  [cmdParamGet cfg shellStrtoul address, cmdParamSet cfg shellStrtoul address,
    cmdParamListall cfg shellStrtoul address, cmdParamTable cfg shellStrtoul address window,
    cmdParamWhichtables cfg shellStrtoul address]

/-- `parse_node` of `remexec`, `app/src/shell/shell_remexec.c`. -/
def remexecParseNode (text : Text) : Except Int UInt16 :=
  match shellStrtoul text 10 with
  | .error _ => .error (-EINVAL)
  | .ok parsed =>
    if parsed = 0 ∨ parsed ≥ cfg.hk.cspBroadcastAddress then .error (-EINVAL)
    else .ok (UInt16.ofNat parsed)

end Commands

/-! ## §5. Where the requests go. -/

section Requests

variable {node : UInt16}

/-- A call that sends no request to another node than this one. -/
def OnlyTo (node : UInt16) (c : ParamCall) : Prop := c.node = none ∨ c.node = some node

theorem shellPrint_calls (line : Text) : (shellPrint line).Calls (OnlyTo node) :=
  ⟨.inl rfl, fun _ => trivial⟩

theorem shellError_calls (line : Text) : (shellError line).Calls (OnlyTo node) :=
  ⟨.inl rfl, fun _ => trivial⟩

theorem shellPrints_calls (lines : List Text) : (shellPrints lines).Calls (OnlyTo node) := by
  induction lines with
  | nil => exact trivial
  | cons line lines ih => exact (shellPrint_calls line).bind fun _ => ih

theorem kfswShellRemoteFailed_calls (what : Text) (n : UInt16) (result : Int) :
    (kfswShellRemoteFailed what n result).Calls (OnlyTo node) := by
  refine Calls.bind ?_ fun _ => trivial
  split
  · exact ⟨.inl rfl, fun _ => trivial⟩
  · exact shellError_calls _

theorem printParamError_calls (operation name : Text) (result : Int) :
    (printParamError operation name result).Calls (OnlyTo node) :=
  (shellError_calls _).bind fun _ => trivial

theorem printParamInfo_calls (info : ParamInfo) (context : ParamListContext) :
    (printParamInfo cfg info context).Calls (OnlyTo node) := by
  unfold printParamInfo
  split
  · exact trivial
  · refine (shellPrints_calls _).bind fun _ => ?_
    split
    · exact ⟨.inl rfl, fun reply => (shellPrint_calls _).bind fun _ => trivial⟩
    · exact (shellPrint_calls _).bind fun _ => trivial

/-- A walk makes the calls of its callback. -/
theorem walkPrinting_calls {ι σ : Type} {P : ParamCall → Prop}
    {callback : ι → σ → ParamProg (Bool × σ)} (h : ∀ info context, (callback info context).Calls P)
    (infos : List ι) (context : σ) : (walkPrinting callback infos context).Calls P := by
  induction infos generalizing context with
  | nil => exact trivial
  | cons info rest ih =>
    refine (h info context).bind fun called => ?_
    split
    · exact ih called.2
    · exact trivial

theorem readParam_calls (name : Text) : (readParam node name).Calls (OnlyTo node) := by
  unfold readParam
  split
  · exact ⟨.inl rfl, fun _ => trivial⟩
  · exact ⟨.inr rfl, fun _ => trivial⟩

theorem getAt_calls (name : Text) : (getAt cfg node name).Calls (OnlyTo node) := by
  refine (readParam_calls name).bind fun reply => ?_
  split
  · exact kfswShellRemoteFailed_calls _ _ _
  · split
    · exact printParamError_calls _ _ _
    · exact (shellPrint_calls _).bind fun _ => trivial

theorem writeParam_calls (name : Text) (value : ParamValue) :
    (writeParam node name value).Calls (OnlyTo node) := by
  unfold writeParam
  split
  · refine ⟨.inl rfl, fun result => ?_⟩
    dsimp only
    split
    · exact ⟨.inl rfl, fun _ => trivial⟩
    · exact trivial
  · exact ⟨.inr rfl, fun _ => trivial⟩

theorem noteBoot_calls (name : Text) : (noteBoot cfg node name).Calls (OnlyTo node) := by
  unfold noteBoot
  split
  · refine ⟨.inl rfl, fun reply => Calls.bind ?_ fun _ => trivial⟩
    split
    · exact shellPrint_calls _
    · exact trivial
  · exact trivial

theorem setAt_calls (name text : Text) : (setAt cfg node name text).Calls (OnlyTo node) := by
  refine (readParam_calls name).bind fun reply => ?_
  split
  · exact kfswShellRemoteFailed_calls _ _ _
  · split
    · exact printParamError_calls _ _ _
    · refine ⟨.inl rfl, fun parsed => ?_⟩
      dsimp only
      split
      · exact (shellError_calls _).bind fun _ => trivial
      · refine (writeParam_calls name _).bind fun written => ?_
        split
        · exact kfswShellRemoteFailed_calls _ _ _
        · split
          · exact printParamError_calls _ _ _
          · exact (shellPrint_calls _).bind fun _ => noteBoot_calls cfg name

theorem visitTablesOf_calls (context : ParamListContext) (tables : List UInt8) :
    (visitTablesOf cfg node context tables).Calls (OnlyTo node) := by
  induction tables generalizing context with
  | nil => exact trivial
  | cons table tables ih =>
    refine ⟨.inr rfl, fun reply => ?_⟩
    refine (walkPrinting_calls (printParamInfo_calls cfg) _ _).bind fun context => ?_
    split
    · exact trivial
    · exact ih context

theorem listallResult_calls (isLocal : Bool) (result : Int) :
    (listallResult cfg isLocal result).Calls (OnlyTo node) := by
  refine Calls.bind ?_ fun _ => trivial
  split
  · exact shellError_calls _
  · split
    · exact shellError_calls _
    · exact trivial

theorem listRemoteParameters_calls (context : ParamListContext) :
    (listRemoteParameters cfg node context).Calls (OnlyTo node) := by
  refine ⟨.inr rfl, fun reply => ?_⟩
  dsimp only
  split
  · exact ⟨.inr rfl, fun reply =>
      (walkPrinting_calls (printParamInfo_calls cfg) _ _).bind fun _ => trivial⟩
  · split
    · exact trivial
    · exact visitTablesOf_calls cfg _ _

theorem listallAt_calls : (listallAt cfg node).Calls (OnlyTo node) := by
  unfold listallAt
  split
  · exact ⟨.inl rfl, fun reply => (walkPrinting_calls (printParamInfo_calls cfg) _ _).bind
      fun _ => listallResult_calls cfg _ _⟩
  · refine (listRemoteParameters_calls cfg _).bind fun listed => ?_
    split
    · exact kfswShellRemoteFailed_calls _ _ _
    · exact listallResult_calls cfg _ _

theorem printTableInfo_calls (info : ParamTableInfo) (context : Unit) :
    (printTableInfo cfg info context).Calls (OnlyTo node) := by
  unfold printTableInfo
  dsimp only
  split
  · exact ⟨.inl rfl, fun kept => (shellPrint_calls _).bind fun _ => trivial⟩
  · exact (shellPrint_calls _).bind fun _ => trivial

theorem talliedTables_calls (counts : Nat → UInt16) (tables : List Nat) :
    (talliedTables cfg counts tables).Calls (OnlyTo node) := by
  induction tables with
  | nil => exact trivial
  | cons table tables ih =>
    unfold talliedTables
    split
    · exact ih
    · exact ⟨.inl rfl, fun reply => (shellPrint_calls _).bind fun _ => ih⟩

theorem printRemoteTableInfo_calls (info : ParamTableInfo) (context : Unit) :
    (printRemoteTableInfo cfg info context).Calls (OnlyTo node) :=
  (shellPrint_calls _).bind fun _ => trivial

theorem printRemoteTables_calls : (printRemoteTables cfg node).Calls (OnlyTo node) := by
  refine (shellPrints_calls _).bind fun _ => ⟨.inr rfl, fun reply => ?_⟩
  refine (walkPrinting_calls (printRemoteTableInfo_calls cfg) _ _).bind fun _ => ?_
  split
  · exact trivial
  · split
    · exact kfswShellRemoteFailed_calls _ _ _
    · refine ⟨.inr rfl, fun reply => ?_⟩
      dsimp only
      split
      · exact kfswShellRemoteFailed_calls _ _ _
      · exact (talliedTables_calls cfg _ _).bind fun _ => trivial

theorem whichtablesAt_calls : (whichtablesAt cfg node).Calls (OnlyTo node) := by
  unfold whichtablesAt
  split
  · exact printRemoteTables_calls cfg
  · refine (shellPrints_calls _).bind fun _ => ⟨.inl rfl, fun reply => ?_⟩
    refine (walkPrinting_calls (printTableInfo_calls cfg) _ _).bind fun _ => ?_
    refine Calls.bind ?_ fun _ => trivial
    split
    · exact shellError_calls _
    · exact trivial

theorem printLocalTable_calls (context : ParamListContext) :
    (printLocalTable cfg context).Calls (OnlyTo node) := by
  refine ⟨.inl rfl, fun reply => ?_⟩
  refine (walkPrinting_calls (printParamInfo_calls cfg) _ _).bind fun context => ?_
  split
  · exact (shellError_calls _).bind fun _ => trivial
  · split
    · exact trivial
    · exact (shellPrint_calls _).bind fun _ => trivial

theorem rowLoop_calls (context : ParamListContext) (base : Nat) (readOk : Bool)
    (window : List ParamValue) (left offset : Nat) :
    (rowLoop cfg context base readOk window left offset).Calls (OnlyTo node) := by
  induction left generalizing offset with
  | zero => exact trivial
  | succ left ih => exact (shellPrint_calls _).bind fun _ => ih _

theorem tableWindows_calls (context : ParamListContext) (base : Nat) (window : List ParamValue) :
    (tableWindows cfg node context base window).Calls (OnlyTo node) := by
  induction hleft : context.nameCount - base using Nat.strong_induction_on
    generalizing base window with
  | _ left ih =>
    unfold tableWindows
    split
    · refine ⟨.inr rfl, fun reply => ?_⟩
      refine Calls.bind ?_ fun _ => (rowLoop_calls cfg _ _ _ _ _ _).bind fun _ => ?_
      · split
        · exact trivial
        · exact kfswShellRemoteFailed_calls _ _ _
      · exact ih _ (by unfold KFSW_PARAM_REMOTE_WINDOW; omega) _ _ rfl
    · exact trivial

theorem printRemoteTable_calls (window : List ParamValue) (context : ParamListContext) :
    (printRemoteTable cfg node window context).Calls (OnlyTo node) := by
  have hcollected : ∀ context result,
      (printCollected cfg node window context result).Calls (OnlyTo node) := by
    intro context result
    unfold printCollected
    split
    · exact kfswShellRemoteFailed_calls _ _ _
    · split
      · exact (shellPrint_calls _).bind fun _ => trivial
      · exact (shellPrints_calls _).bind fun _ => tableWindows_calls cfg _ _ _
  refine ⟨.inr rfl, fun reply => ?_⟩
  dsimp only
  split
  · exact ⟨.inr rfl, fun reply => hcollected _ _⟩
  · exact hcollected _ _

end Requests

/-! ## §6. One language of nodes. -/

section Language

variable (shellStrtoul : Text → Nat → Except Int Nat) (address : UInt16)

/-- A call that sends nothing to this node. -/
def NotTo (node : UInt16) (c : ParamCall) : Prop := c.node ≠ some node

theorem notTo_of_onlyTo {node other : UInt16} (h : node ≠ other) (c : ParamCall)
    (hc : OnlyTo node c) : NotTo other c := by
  intro hnode
  rcases hc with hc | hc
  · exact absurd (hc.symm.trans hnode) (by simp)
  · exact h (Option.some.inj (hc.symm.trans hnode))

/-- A node word that is refused sends nothing; one that is accepted goes to its node. -/
theorem withParamNode_calls {other : UInt16} {text : Text} {run : UInt16 → ParamProg Int}
    (hrun : ∀ node, (run node).Calls (OnlyTo node))
    (hnode : ∀ node, parseParamNode cfg shellStrtoul address text = .ok node → node ≠ other) :
    (withParamNode cfg shellStrtoul address text run).Calls (NotTo other) := by
  unfold withParamNode
  cases hparse : parseParamNode cfg shellStrtoul address text with
  | error e => exact ⟨by simp [NotTo, ParamCall.node], fun _ => trivial⟩
  | ok node => exact (hrun node).imp (notTo_of_onlyTo (hnode node hparse))

theorem withTableId_calls {node : UInt16} {text : Text} {run : UInt8 → ParamProg Int}
    (hrun : ∀ table, (run table).Calls (OnlyTo node)) :
    (withTableId cfg shellStrtoul text run).Calls (OnlyTo node) := by
  unfold withTableId
  split
  · exact (shellError_calls _).bind fun _ => trivial
  · exact hrun _

/-- **A command sends requests to the node it was given**, so to no node that the word is not
read as. -/
theorem requests_calls {other : UInt16} (hother : other ≠ THIS_NODE) (window : List ParamValue)
    {argv : List Text}
    (hnode : ∀ node, parseParamNode cfg shellStrtoul address (arg argv 1) = .ok node → node ≠ other)
    {command : List Text → ParamProg Int}
    (hcommand : command ∈ requestCommands cfg shellStrtoul address window) :
    (command argv).Calls (NotTo other) := by
  have hlocal : ∀ {p : ParamProg Int}, p.Calls (OnlyTo THIS_NODE) → p.Calls (NotTo other) :=
    fun h => h.imp (notTo_of_onlyTo hother.symm)
  simp only [requestCommands, List.mem_cons, List.not_mem_nil, or_false] at hcommand
  rcases hcommand with rfl | rfl | rfl | rfl | rfl
  · unfold cmdParamGet
    split
    · exact hlocal (getAt_calls cfg _)
    · exact withParamNode_calls cfg shellStrtoul address (fun node => getAt_calls cfg _) hnode
  · unfold cmdParamSet
    split
    · exact hlocal (setAt_calls cfg _ _)
    · exact withParamNode_calls cfg shellStrtoul address (fun node => setAt_calls cfg _ _) hnode
  · unfold cmdParamListall
    split
    · exact hlocal (listallAt_calls cfg)
    · exact withParamNode_calls cfg shellStrtoul address (fun node => listallAt_calls cfg) hnode
  · unfold cmdParamTable
    split
    · exact hlocal (withTableId_calls cfg shellStrtoul fun table => printLocalTable_calls cfg _)
    · refine withParamNode_calls cfg shellStrtoul address (fun node => ?_) hnode
      refine withTableId_calls cfg shellStrtoul fun table => ?_
      split
      · exact printLocalTable_calls cfg _
      · exact printRemoteTable_calls cfg _ _
  · unfold cmdParamWhichtables
    split
    · exact withParamNode_calls cfg shellStrtoul address (fun node => whichtablesAt_calls cfg) hnode
    · exact hlocal (whichtablesAt_calls cfg)

/-- The text writes this unicast address: 1 to the broadcast address minus one. -/
def Writes (text : Text) (node : UInt16) : Prop :=
  shellStrtoul text 10 = .ok node.toNat ∧ 0 < node.toNat ∧ node.toNat < cfg.hk.cspBroadcastAddress

/-- All request commands accept a text as the same node: the unicast address it writes, or the
local table for this node's own; and none sends a request to the broadcast address. -/
structure OneLanguage (text : Text) : Prop where
  shell : ∀ node, parseNode cfg.hk shellStrtoul text = .ok node ↔ Writes cfg shellStrtoul text node
  remexec : ∀ node, remexecParseNode cfg shellStrtoul text = .ok node
    ↔ Writes cfg shellStrtoul text node
  param : ∀ node, parseParamNode cfg shellStrtoul address text = .ok node
    ↔ ∃ written, Writes cfg shellStrtoul text written
      ∧ node = if written = address then THIS_NODE else written
  requests : ∀ (window : List ParamValue) (argv : List Text), arg argv 1 = text →
    ∀ command ∈ requestCommands cfg shellStrtoul address window,
      (command argv).Calls (NotTo (UInt16.ofNat cfg.hk.cspBroadcastAddress))

/-- No address up to the broadcast address is cut. -/
theorem node_toNat (h : cfg.hk.cspBroadcastAddress ≤ UINT16_MAX) {parsed : Nat}
    (hparsed : parsed ≤ cfg.hk.cspBroadcastAddress) : (UInt16.ofNat parsed).toNat = parsed := by
  unfold UINT16_MAX at h
  rw [UInt16.toNat_ofNat']
  omega

/-- `kfsw_shell_parse_node` reads the unicast address a text writes. -/
theorem parseNode_ok_iff (h : cfg.hk.cspBroadcastAddress ≤ UINT16_MAX) (text : Text)
    (node : UInt16) :
    parseNode cfg.hk shellStrtoul text = .ok node ↔ Writes cfg shellStrtoul text node := by
  unfold parseNode Writes
  cases shellStrtoul text 10 with
  | error e => exact iff_of_false (by simp) (by simp)
  | ok parsed =>
    dsimp only
    constructor
    · intro hok
      split at hok
      · exact absurd hok (by simp)
      · rename_i hrange
        have hvalue : (UInt16.ofNat parsed).toNat = parsed := node_toNat cfg h (by omega)
        rw [← Except.ok.inj hok, hvalue]
        exact ⟨rfl, by omega, by omega⟩
    · rintro ⟨hparsed, hpos, hlt⟩
      rw [Except.ok.inj hparsed, if_neg (by omega), UInt16.ofNat_toNat]

/-- The parser of `remexec` is the one of the shell. -/
theorem remexecParseNode_eq (text : Text) :
    remexecParseNode cfg shellStrtoul text = parseNode cfg.hk shellStrtoul text := rfl

/-- What the `param` commands accept beside: the broadcast address. -/
theorem parseParamNode_ok_iff (h : cfg.hk.cspBroadcastAddress ≤ UINT16_MAX) (text : Text)
    (node : UInt16) :
    parseParamNode cfg shellStrtoul address text = .ok node
      ↔ ∃ written, (Writes cfg shellStrtoul text written
          ∨ shellStrtoul text 10 = .ok cfg.hk.cspBroadcastAddress ∧ 0 < cfg.hk.cspBroadcastAddress
            ∧ written = UInt16.ofNat cfg.hk.cspBroadcastAddress)
        ∧ node = if written = address then THIS_NODE else written := by
  unfold parseParamNode Writes
  cases shellStrtoul text 10 with
  | error e => exact iff_of_false (by simp) (by simp)
  | ok parsed =>
    dsimp only
    constructor
    · intro hok
      split at hok
      · exact absurd hok (by simp)
      · rename_i hrange
        have hvalue : (UInt16.ofNat parsed).toNat = parsed := node_toNat cfg h (by omega)
        refine ⟨UInt16.ofNat parsed, ?_, ?_⟩
        · by_cases hbroadcast : parsed = cfg.hk.cspBroadcastAddress
          · exact .inr ⟨by rw [hbroadcast], by omega, by rw [hbroadcast]⟩
          · exact .inl ⟨by rw [hvalue], by omega, by omega⟩
        · rw [← Except.ok.inj hok]
          exact if_congr (by rw [← UInt16.toNat_inj, hvalue]) rfl rfl
    · rintro ⟨written, hwritten, rfl⟩
      have hvalue : parsed = written.toNat ∧ 0 < parsed ∧ parsed ≤ cfg.hk.cspBroadcastAddress := by
        rcases hwritten with ⟨hparsed, hpos, hlt⟩ | ⟨hparsed, hpos, rfl⟩
        · have := Except.ok.inj hparsed
          omega
        · have := Except.ok.inj hparsed
          exact ⟨by rw [node_toNat cfg h le_rfl, this], by omega, by omega⟩
      rw [if_neg (by omega)]
      refine congrArg _ ?_
      rw [hvalue.1, UInt16.ofNat_toNat]
      exact if_congr UInt16.toNat_inj rfl rfl

/-- **The parsers accept one language**, and no request goes to the broadcast address, exactly
when the text does not write that address. -/
theorem oneLanguage_iff (hpos : 0 < cfg.hk.cspBroadcastAddress)
    (h : cfg.hk.cspBroadcastAddress ≤ UINT16_MAX) (text : Text) :
    OneLanguage cfg shellStrtoul address text
      ↔ shellStrtoul text 10 ≠ .ok cfg.hk.cspBroadcastAddress := by
  have hbroadcast := node_toNat cfg h le_rfl
  constructor
  · intro hone htext
    -- the `param` commands accept it, as a node it does not write
    obtain ⟨written, hwrites, _⟩ := (hone.param _).mp
      ((parseParamNode_ok_iff cfg shellStrtoul address h text _).mpr ⟨_, .inr ⟨htext, hpos, rfl⟩, rfl⟩)
    have hvalue := Except.ok.inj (htext.symm.trans hwrites.1)
    exact absurd hwrites.2.2 (by omega)
  · intro htext
    have hparam : ∀ node, parseParamNode cfg shellStrtoul address text = .ok node
        ↔ ∃ written, Writes cfg shellStrtoul text written
          ∧ node = if written = address then THIS_NODE else written := by
      intro node
      rw [parseParamNode_ok_iff cfg shellStrtoul address h]
      constructor
      · rintro ⟨written, hwritten | ⟨hwritten, _⟩, hnode⟩
        · exact ⟨written, hwritten, hnode⟩
        · exact absurd hwritten htext
      · rintro ⟨written, hwritten, hnode⟩
        exact ⟨written, .inl hwritten, hnode⟩
    have hzero : UInt16.ofNat cfg.hk.cspBroadcastAddress ≠ THIS_NODE := by
      intro hzero
      rw [hzero] at hbroadcast
      exact absurd hbroadcast (by show (0 : Nat) ≠ _; omega)
    have hremexec : ∀ node, remexecParseNode cfg shellStrtoul text = .ok node
        ↔ Writes cfg shellStrtoul text node := by
      intro node
      rw [remexecParseNode_eq]
      exact parseNode_ok_iff cfg shellStrtoul h text node
    refine ⟨parseNode_ok_iff cfg shellStrtoul h text, hremexec, hparam, ?_⟩
    rintro window argv rfl command hcommand
    refine requests_calls cfg shellStrtoul address hzero window (fun node hnode => ?_) hcommand
    obtain ⟨written, hwritten, rfl⟩ := (hparam node).mp hnode
    split
    · exact hzero.symm
    · rintro rfl
      exact absurd hwritten.2.2 (by omega)

end Language

/-- A node that all of them accept. -/
theorem oneLanguage_five : OneLanguage exampleParams decimalStrtoul 1 "5".toList :=
  (oneLanguage_iff exampleParams decimalStrtoul 1 (by decide) (by decide) "5".toList).mpr
    (by decide)

/-- The broadcast address of CSP 2: `param` alone accepts it, and `param set` asks every node. -/
theorem oneLanguage_broadcast :
    parseNode exampleParams.hk decimalStrtoul "16383".toList = .error (-EINVAL)
    ∧ remexecParseNode exampleParams decimalStrtoul "16383".toList = .error (-EINVAL)
    ∧ parseParamNode exampleParams decimalStrtoul 1 "16383".toList = .ok 16383
    ∧ (cmdParamSet exampleParams decimalStrtoul 1
        ["set".toList, "16383".toList, "mode".toList, "1".toList]).firstCall
      = some (.remoteGet 16383 "mode".toList)
    ∧ ¬ OneLanguage exampleParams decimalStrtoul 1 "16383".toList := by
  refine ⟨rfl, rfl, rfl, rfl, fun hone => ?_⟩
  have hset : cmdParamSet exampleParams decimalStrtoul 1
      ∈ requestCommands exampleParams decimalStrtoul 1 zeroWindow :=
    List.mem_cons_of_mem _ List.mem_cons_self
  have hcalls := hone.requests zeroWindow ["set".toList, "16383".toList, "mode".toList, "1".toList]
    rfl _ hset
  exact hcalls.1 rfl

end KFsw.App
