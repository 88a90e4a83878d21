/-
  KFsw.Ground.Crc32 — CRC-32C as `tools/ground/hk-bridge.py` computes it: the
  table its module loop builds and the byte-wise `crc32`.

  The register is a `BitVec 32`: every value the Python loop computes is a shift
  right or an exclusive or of 32-bit numbers.
-/
import KFsw.Lib.Bytes

namespace KFsw.Ground

open KFsw.Lib

/-! ## §1. The table. -/

def CRC32C_POLYNOMIAL : BitVec 32 := 0x82F63B78#32

/-- One turn of the inner loop that builds the table. -/
def tableStep (value : BitVec 32) : BitVec 32 :=
  (value >>> 1) ^^^ (if value &&& 1#32 ≠ 0#32 then CRC32C_POLYNOMIAL else 0#32)

def CRC32C_TABLE : List (BitVec 32) :=
  (List.range 256).map fun index => tableStep^[8] (BitVec.ofNat 32 index)

/-! ## §2. The checksum. -/

/-- The loop body of `crc32`. -/
def crc32Byte (value : BitVec 32) (byte : UInt8) : BitVec 32 :=
  CRC32C_TABLE.getD ((value ^^^ byte.toBitVec.setWidth 32) &&& 0xFF#32).toNat 0#32
    ^^^ (value >>> 8)

/-- CRC-32C over the bytes, big endian. -/
def crc32 (data : Bytes) : Bytes :=
  beBytes 4 (data.foldl crc32Byte 0xFFFFFFFF#32 ^^^ 0xFFFFFFFF#32).toNat

@[simp] theorem crc32_length (data : Bytes) : (crc32 data).length = 4 :=
  beBytes_length 4 _

-- The check value of CRC-32C, over the digits 1 to 9.
example : crc32 [0x31, 0x32, 0x33, 0x34, 0x35, 0x36, 0x37, 0x38, 0x39]
    = [0xE3, 0x06, 0x92, 0x83] := by decide +kernel

end KFsw.Ground
