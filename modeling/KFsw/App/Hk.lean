/-
  KFsw.App.Hk — the housekeeping service as the application calls it.

  The service itself (`kfsw_hk_*`) lies outside this repository; here are its
  calls with the widths of their arguments, and what each one answers.  A
  command of the application is a program over these calls.
-/
import KFsw.App.HkEntries
import KFsw.Lib.Service

namespace KFsw.App

open KFsw.Lib

/-- `struct kfsw_hk_store_filter`. -/
structure HkStoreFilter where
  report : UInt8
  fromSequence : UInt16
  toSequence : UInt16
  fromSeconds : UInt32
  toSeconds : UInt32
  withoutFlags : UInt8
  deriving DecidableEq

/-- A call of the application: `kfsw_hk_*`, or `kfsw_shell_run_command`, which sends a command
to another node. -/
inductive HkCall where
  | defineClass (report : UInt8) (entries : List HkEntry) (retrievalClass : UInt8)
  | clear (report : UInt8)
  | collect (report : UInt8)
  | get (report : UInt8) (age : UInt16)
  | setPeriod (report : UInt8) (period : UInt32)
  | setStore (report : UInt8) (interval : UInt32)
  | clearStore (report : UInt8)
  | setBeacon (report : UInt8) (node : UInt16) (interval : UInt32)
  | storeQuery (report : UInt8)
  | storeCount (filter : HkStoreFilter)
  | storeRead (filter : HkStoreFilter) (index : UInt16)
  | storeExtract (filter : HkStoreFilter) (path : Text)
  | getStats
  | runCommand (node : UInt16) (name : Text) (args : List Text)
  deriving DecidableEq

/-- What a call answers: a result, for `storeCount` with the number of matching samples, and
for `getStats` the last save error. -/
abbrev HkReply : HkCall → Type
  | .storeCount _ => Int × UInt16
  | _ => Int

/-- A command of the application; it ends with its result. -/
abbrev HkProg (α : Type) := Prog HkCall HkReply α

end KFsw.App
