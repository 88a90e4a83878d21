/-
  KFsw.App.CommandDefinitions — the registered housekeeping commands,
  `app/src/commands/command_definitions.c`.

  The command service decodes a request into arguments of the registered types
  and hands them to these handlers: a `KFSW_COMMAND_TYPE_U32` is a `UInt32`, a
  `KFSW_COMMAND_TYPE_TEXT` a text.  The arguments a handler does not use (the
  source of the request, the argument count) are left out.

  Main results:
    * `commandReport_firstCall`     — a report above 255 reaches no service;
    * `commandHkDefine_firstCall`   — `hk_define` defines what its text says, or
      calls nothing.
-/
import KFsw.App.Hk

namespace KFsw.App

open KFsw.Lib Prog

/-! ## §1. Results. -/

/-- `enum kfsw_command_status`, as far as these commands set it. -/
inductive CommandStatus where
  | ok
  | invalidArgument
  | denied
  | busy
  | failed
  deriving DecidableEq

/-- `struct kfsw_command_result`. -/
structure CommandResult where
  status : CommandStatus
  detail : Text
  deriving DecidableEq

/-- `%u` and `%d`. -/
def decimal (n : Nat) : Text := (toString n).toList
def signedDecimal (n : Int) : Text := (toString n).toList

section Commands

variable (cfg : HkConfig)

/-- `snprintf(result->detail, sizeof(result->detail), ...)`. -/
def CommandResult.setDetail (result : CommandResult) (detail : Text) : CommandResult :=
  { result with detail := detail.take (cfg.commandMaxDetailSize - 1) }

/-- What the three commands do first: a report number is one byte. -/
def commandReport (u32 : UInt32) (result : CommandResult)
    (run : UInt8 → HkProg (Int × CommandResult)) : HkProg (Int × CommandResult) :=
  if u32.toNat > UINT8_MAX then .done (-EINVAL, { result with status := .invalidArgument })
  else run u32.toUInt8

/-- What the three commands do with the outcome of the service: `failed` is the detail of a
failure before its code, `ok` the detail of success. -/
def commandOutcome (result : CommandResult) (failed ok : Text) (outcome : Int) :
    HkProg (Int × CommandResult) :=
  if outcome = cfg.appliedUnsaved then
    .call .getStats fun (lastSaveError : Int) =>
      .done (outcome, CommandResult.setDetail cfg { result with status := .failed }
        ("applied in RAM; save failed: ".toList ++ signedDecimal lastSaveError))
  else if outcome ≠ 0 then
    .done (outcome, CommandResult.setDetail cfg { result with status := .failed }
      (failed ++ ": ".toList ++ signedDecimal outcome))
  else
    .done (0, CommandResult.setDetail cfg result ok)

/-! ## §2. The commands. -/

/-- The class and the entries a text argument names. -/
def parseDefinition (text : Text) : Except Int (Nat × List HkEntry) :=
  match parseClass cfg text with
  | .error e => .error e
  | .ok (retrievalClass, text) =>
    match parseEntries cfg text cfg.entries with
    | .error e => .error e
    | .ok entries => .ok (retrievalClass, entries)

/-- The detail for a text that names no report. -/
def definitionError (text : Text) (outcome : Int) : Text :=
  if outcome = -ERANGE then "class must be 0..7".toList
  else if outcome = -E2BIG then
    "more than ".toList ++ decimal cfg.entries ++ " entries".toList
  else
    -- a long list arrives cut and fails here; the text is quoted back
    "cannot read '".toList ++ text ++ "' as [node:]table:offset".toList

/-- `command_hk_define`. -/
def commandHkDefine (u32 : UInt32) (text : Text) (result : CommandResult) :
    HkProg (Int × CommandResult) :=
  commandReport u32 result fun report =>
    match parseDefinition cfg text with
    | .error outcome =>
      .done (outcome, CommandResult.setDetail cfg { result with status := .invalidArgument }
        (definitionError cfg text outcome))
    | .ok (retrievalClass, entries) =>
      .call (.defineClass report entries (UInt8.ofNat retrievalClass))
        (commandOutcome cfg result ("define report ".toList ++ decimal u32.toNat)
          ("report ".toList ++ decimal u32.toNat ++ " defines ".toList
            ++ decimal entries.length ++ " values".toList))

/-- `command_hk_period`. -/
def commandHkPeriod (u32 period : UInt32) (result : CommandResult) :
    HkProg (Int × CommandResult) :=
  commandReport u32 result fun report =>
    .call (.setPeriod report period)
      (commandOutcome cfg result ("period for report ".toList ++ decimal u32.toNat)
        ("report ".toList ++ decimal u32.toNat ++ " every ".toList ++ decimal period.toNat
          ++ " ms".toList))

/-- `command_hk_clear`. -/
def commandHkClear (u32 : UInt32) (result : CommandResult) : HkProg (Int × CommandResult) :=
  commandReport u32 result fun report =>
    .call (.clear report)
      (commandOutcome cfg result ("clear report ".toList ++ decimal u32.toNat)
        ("report ".toList ++ decimal u32.toNat ++ " cleared".toList))

/-! ## §3. The first call. -/

/-- **A report above 255 reaches no service.** -/
theorem commandReport_firstCall (u32 : UInt32) (result : CommandResult)
    (run : UInt8 → HkProg (Int × CommandResult)) :
    (commandReport u32 result run).firstCall
      = if u32.toNat > UINT8_MAX then none else (run u32.toUInt8).firstCall := by
  unfold commandReport
  by_cases h : u32.toNat > UINT8_MAX
  · rw [if_pos h, if_pos h]
    rfl
  · rw [if_neg h, if_neg h]

/-- **`hk_define` defines what its text says**, or calls nothing. -/
theorem commandHkDefine_firstCall (u32 : UInt32) (text : Text) (result : CommandResult)
    (hreport : u32.toNat ≤ UINT8_MAX) :
    (commandHkDefine cfg u32 text result).firstCall = match parseDefinition cfg text with
      | .error _ => none
      | .ok (retrievalClass, entries) =>
        some (.defineClass u32.toUInt8 entries (UInt8.ofNat retrievalClass)) := by
  unfold commandHkDefine
  rw [commandReport_firstCall, if_neg (by omega)]
  cases parseDefinition cfg text <;> rfl

end Commands

end KFsw.App
