/-
  KFsw.App.ShellSystem — `app/src/shell/shell_system.c`: what `log remote` prints
  of a message.

  `kfsw_log_module_name` and `KFSW_LOG_ENCODED_SIZE` are not part of this
  repository and are parameters.  `shell_print` ends the line.
-/
import KFsw.Lib.CNumber
import KFsw.Lib.PyText

namespace KFsw.App

open KFsw.Lib

/-- `struct kfsw_log_remote_message`: the text ends in a NUL, a package has `size` bytes. -/
structure RemoteMessage where
  sequence : UInt64
  uptimeMs : UInt64
  module : UInt8
  severity : UInt8
  truncated : Bool
  package : Bool
  textCrcPresent : Bool
  textCrc : UInt32
  size : Nat
  data : Bytes
  size_le : size ≤ data.length
  terminated : package = false → 0 ∈ data

/-- `(const char *)data`. -/
def cString (data : Bytes) : Bytes := data.takeWhile (· ≠ 0)

/-- `%02x` of every byte. -/
def hexText (data : Bytes) : Text := data.flatMap fun b => hexPadded 2 b.toNat

section Print

variable (moduleName : UInt8 → Text) (encodedSize : Nat)

/-- `"%llu t=%llums %s level=%u%s "`, which every line begins with. -/
def messageHead (m : RemoteMessage) : Text :=
  Nat.toDigits 10 m.sequence.toNat ++ " t=".toList ++ Nat.toDigits 10 m.uptimeMs.toNat
    ++ "ms ".toList ++ moduleName m.module ++ " level=".toList
    ++ Nat.toDigits 10 m.severity.toNat ++ (if m.truncated then " truncated".toList else [])
    ++ [' ']

/-- `"pkg=%s%s%s"`: the guard, the bytes and the checksum. -/
def packageText (m : RemoteMessage) : Text :=
  "pkg=".toList ++ (if m.textCrcPresent then "00000000:".toList else [])
    ++ hexText (m.data.take (min m.size encodedSize))
    ++ (if m.textCrcPresent then " crc32=".toList ++ hexPadded 8 m.textCrc.toNat else [])

/-- `print_remote_message`: the bytes of the line. -/
def printRemoteMessage (m : RemoteMessage) : Bytes :=
  if m.package = false then encodeUtf8 (messageHead moduleName m) ++ cString m.data
  else encodeUtf8 (messageHead moduleName m ++ packageText encodedSize m)

end Print

end KFsw.App
