/-
  KFsw.App.Param — the parameter service as the shell calls it, and what the
  `param` commands share, `app/src/shell/shell_param.c`.

  The service itself (`kfsw_param_*`) lies outside this repository; here are its
  calls, and what each one answers.  A command is a program over these calls and
  over the lines it prints.  A visit answers with the descriptors it has for the
  callback; the callback is called on them in order until it returns false.
  The build is one with `CONFIG_KFSW_PARAM_CSP`, since without it no command
  names a node.

  Main results:
    * `formatParamValue_text` — the text of a value, whatever the buffer held.
-/
import KFsw.App.ParamValue
import KFsw.App.ShellHk
import KFsw.Ground.ReportCheck

namespace KFsw.App

open KFsw.Lib Prog
open KFsw.Ground (padRight hexByte)

def EAGAIN : Int := 11
def ENOSPC : Int := 28
def EMSGSIZE : Int := 90
def ENOTSUP : Int := 95
def ECONNRESET : Int := 104
def ENOTCONN : Int := 107
def ETIMEDOUT : Int := 110
def EHOSTUNREACH : Int := 113

/-! ## §1. Parameters. -/

/-- `enum kfsw_param_type`. -/
inductive ParamType where
  | u8 | u16 | u32 | u64 | i8 | i16 | i32 | i64 | x8 | x16 | x32 | x64
  | float | double | string | data | invalid
  deriving DecidableEq

/-- `value.type`. -/
def ParamValue.type : ParamValue → ParamType
  | .u8 _ => .u8
  | .u16 _ => .u16
  | .u32 _ => .u32
  | .u64 _ => .u64
  | .i8 _ => .i8
  | .i16 _ => .i16
  | .i32 _ => .i32
  | .i64 _ => .i64
  | .x8 _ => .x8
  | .x16 _ => .x16
  | .x32 _ => .x32
  | .x64 _ => .x64
  | .float _ => .float
  | .double _ => .double
  | .string _ => .string
  | .data _ => .data
  | .invalid => .invalid

/-- `struct kfsw_param_info`, as far as these commands read it. -/
structure ParamInfo where
  table : UInt8
  tableName : Option Text
  offset : UInt8
  name : Text
  type : ParamType
  flags : UInt32
  deriving DecidableEq

/-- `struct kfsw_param_table_info`. -/
structure ParamTableInfo where
  id : UInt8
  name : Text
  count : UInt16
  description : Option Text

/-- What a build fixes outside this repository. -/
structure ParamConfig extends ValueConfig where
  hk : HkConfig
  /-- `KFSW_PARAM_TABLE_CORE_FIRST`. -/
  tableCoreFirst : Nat
  /-- `KFSW_PARAM_TABLE_MODULE_LAST`. -/
  tableModuleLast : Nat
  /-- `KFSW_PARAM_NAME_MAX`. -/
  nameMax : Nat
  /-- `kfsw_param_type_name`. -/
  typeName : ParamType → Text
  /-- `kfsw_param_mode_name`. -/
  modeName : UInt32 → Text
  /-- `kfsw_param_band_name`. -/
  bandName : UInt8 → Text
  /-- `CONFIG_KFSW_PARAM_PERSISTENCE`. -/
  persistence : Bool
  /-- `CONFIG_KFSW_PARAM_REMOTE_POOL_SIZE`. -/
  remotePoolSize : Nat

/-- A build without floats, for CSP 2. -/
def exampleParams : ParamConfig where
  stringMax := 104
  paramFloat := false
  formatG := fun _ _ => []
  hk := exampleBuild
  tableCoreFirst := 1
  tableModuleLast := 99
  nameMax := 24
  typeName := fun _ => "u8".toList
  modeName := fun _ => "r".toList
  bandName := fun _ => "core".toList
  persistence := false
  remotePoolSize := 64

/-! ## §2. Calls. -/

/-- A call of the `param` commands: `kfsw_param_*`, a line for the shell, or a warning for the
log. -/
inductive ParamCall where
  | get (name : Text)
  | set (name : Text) (value : ParamValue)
  | getInfo (name : Text)
  | parseText (text : Text) (value : ParamValue)
  | visit
  | visitTables
  | persistTableCount (table : UInt8)
  | remoteGet (node : UInt16) (name : Text)
  | remoteSet (node : UInt16) (name : Text) (value : ParamValue)
  | remoteGetMany (node : UInt16) (names : List Text)
  | remoteVisit (node : UInt16)
  | remoteVisitTable (node : UInt16) (table : UInt8)
  | remoteTables (node : UInt16)
  | print (line : Text)
  | error (line : Text)
  | warning (line : Text)

/-- What a call answers: a result, and what it fills in. -/
abbrev ParamReply : ParamCall → Type
  | .get _ | .parseText .. | .remoteGet .. => Int × ParamValue
  | .set .. | .remoteSet .. => Int
  | .getInfo _ => Int × ParamInfo
  | .visit | .remoteVisit _ | .remoteVisitTable .. => Int × List ParamInfo
  | .visitTables | .remoteTables _ => Int × List ParamTableInfo
  | .persistTableCount _ => UInt16
  | .remoteGetMany .. => Int × List ParamValue
  | .print _ | .error _ | .warning _ => Unit

/-- A command; it ends with its result. -/
abbrev ParamProg (α : Type) := Prog ParamCall ParamReply α

/-- The calls of a run, with their replies. -/
abbrev ParamTrace := List (Sigma ParamReply)

/-- The node a call sends a request to. -/
def ParamCall.node : ParamCall → Option UInt16
  | .remoteGet node _ | .remoteSet node _ _ | .remoteGetMany node _ | .remoteVisit node
  | .remoteVisitTable node _ | .remoteTables node => some node
  | _ => none

/-- A callback on what a visit has, in order, until it returns false. -/
def walk {ι σ : Type} (callback : ι → σ → Bool × σ) : List ι → σ → σ
  | [], context => context
  | info :: rest, context =>
    let called := callback info context
    if called.1 = true then walk callback rest called.2 else called.2

/-! ## §3. What is printed. -/

/-- `shell_print`, `shell_error` and `kfsw_log_warning`. -/
def shellPrint (line : Text) : ParamProg Unit := .call (.print line) fun _ => .done ()
def shellError (line : Text) : ParamProg Unit := .call (.error line) fun _ => .done ()
def logWarning (line : Text) : ParamProg Unit := .call (.warning line) fun _ => .done ()

/-- Some lines, one after the other. -/
def shellPrints : List Text → ParamProg Unit
  | [] => .done ()
  | line :: lines => (shellPrint line).bind fun _ => shellPrints lines

/-- `kfsw_shell_no_answer`. -/
def kfswShellNoAnswer (result : Int) : Bool :=
  result = -ETIMEDOUT || result = -EAGAIN || result = -ENOTCONN || result = -ECONNRESET
    || result = -EHOSTUNREACH

/-- The line of `kfsw_shell_remote_failed`. -/
def remoteFailedLine (what : Text) (node : UInt16) (result : Int) : Text :=
  what ++ ": node ".toList ++ Nat.toDigits 10 node.toNat
    ++ if kfswShellNoAnswer result = true then " did not answer".toList
      else " failed (".toList ++ intText result ++ [')']

/-- `kfsw_shell_remote_failed`. -/
def kfswShellRemoteFailed (what : Text) (node : UInt16) (result : Int) : ParamProg Int :=
  (if kfswShellNoAnswer result = true then logWarning (remoteFailedLine what node result)
    else shellError (remoteFailedLine what node result)).bind fun _ => .done result

variable (cfg : ParamConfig)

/-- The text `format_param_value` leaves in `value_text`. -/
def valueText (value : ParamValue) : Text :=
  ((formatParamValue cfg.toValueConfig (CArray.blank cfg.textSize) value).map CArray.text).getD []

/-- A row of a listing. -/
def listingRow (table : Text) (offset : UInt8) (name type mode value : Text) : Text :=
  padRight Ground.KFSW_PARAM_TABLE_COLUMN table ++ ' ' :: ' ' :: '0' :: 'x'
    :: (hexByte offset.toNat ++ ' ' :: ' ' :: (padRight cfg.nameMax name
      ++ ' ' :: ' ' :: (padRight Ground.KFSW_PARAM_TYPE_COLUMN type
        ++ ' ' :: ' ' :: (padRight Ground.KFSW_PARAM_MODE_COLUMN mode ++ ' ' :: ' ' :: value))))

/-! ## §4. The text of a value. -/

/-- One formatted text, whatever the buffer held. -/
theorem printText_text {size : Nat} (hsize : 0 < size) (s : Text) :
    ∃ t : Text, ∀ a : CArray size, (printText a s).map CArray.text = some t := by
  refine ⟨(s.take (size - 1)).takeWhile (· ≠ NUL), fun a => ?_⟩
  obtain ⟨b, hb, hholds⟩ := a.snprintf_spec List.nil_prefix s hsize
  show ((a.snprintf 0 s).map Prod.fst).map CArray.text = _
  have hwrite : a.snprintf 0 s = some (b, _) := hb
  rw [hwrite]
  exact congrArg some hholds.text_eq

/-- **The text of a value** is the same whatever the buffer held, and nothing is written outside
of it. -/
theorem formatParamValue_text (value : ParamValue) (a : CArray cfg.textSize) :
    (formatParamValue cfg.toValueConfig a value).map CArray.text = some (valueText cfg value) := by
  have hsize : cfg.textSize = cfg.stringMax + 3 := rfl
  -- it is enough that the text does not depend on the buffer
  suffices h : ∃ t : Text, ∀ a : CArray cfg.textSize,
      (formatParamValue cfg.toValueConfig a value).map CArray.text = some t by
    obtain ⟨t, ht⟩ := h
    rw [ht a, valueText, ht]
    rfl
  cases value with
  | data bytes =>
    refine ⟨leftText cfg.toValueConfig (.data bytes), fun a => ?_⟩
    obtain ⟨b, hb, htext⟩ := formatParamValue_left cfg.toValueConfig (.data bytes) a
    rw [hb]
    exact congrArg some htext
  | _ => exact printText_text (by omega) _

/-! ## §5. Nodes and tables. -/

section Parsers

variable (shellStrtoul : Text → Nat → Except Int Nat)

-- this node's own address, as `kfsw_csp_get_info` gives it
variable (address : UInt16)

/-- Node 0 is the local parameter table. -/
def THIS_NODE : UInt16 := 0

/-- `parse_param_node`. -/
def parseParamNode (text : Text) : Except Int UInt16 :=
  match shellStrtoul text 10 with
  | .error _ => .error (-EINVAL)
  | .ok parsed =>
    if parsed = 0 ∨ parsed > cfg.hk.cspBroadcastAddress then .error (-EINVAL)
    -- this node's own address means the local table, as no node at all does
    else .ok (if parsed = address.toNat then THIS_NODE else UInt16.ofNat parsed)

/-- `parse_table_id`. -/
def parseTableId (text : Text) : Except Int UInt8 :=
  match shellStrtoul text 10 with
  | .error _ => .error (-EINVAL)
  | .ok parsed =>
    if parsed < cfg.tableCoreFirst ∨ parsed > cfg.tableModuleLast then .error (-EINVAL)
    else .ok (UInt8.ofNat parsed)

/-- A command from the node word on; a refused node is reported. -/
def withParamNode (text : Text) (run : UInt16 → ParamProg Int) : ParamProg Int :=
  match parseParamNode cfg shellStrtoul address text with
  | .error e =>
    (shellError ("CSP node must be in range 1..".toList
      ++ Nat.toDigits 10 cfg.hk.cspBroadcastAddress)).bind fun _ => .done e
  | .ok node => run node

/-- A command from the table word on; a refused table is reported. -/
def withTableId (text : Text) (run : UInt8 → ParamProg Int) : ParamProg Int :=
  match parseTableId cfg shellStrtoul text with
  | .error e =>
    (shellError ("table must be in range ".toList ++ Nat.toDigits 10 cfg.tableCoreFirst ++ "..".toList
      ++ Nat.toDigits 10 cfg.tableModuleLast)).bind fun _ => .done e
  | .ok table => run table

end Parsers

end KFsw.App
