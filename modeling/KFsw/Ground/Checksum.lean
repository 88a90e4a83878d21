/-
  KFsw.Ground.Checksum — the checksum of `tools/ground/hk-bridge.py` is CRC-32C,
  and what that means for a damaged frame.

  `crc32Byte` looks a byte up in the table the module loop builds; a table entry
  is eight turns of the bit-serial register, so a byte is eight bits fed one after
  the other.  The register is the remainder of the message over GF(2).

  Main results:
    * `crc32_eq_reflectedCrc` — the table-driven checksum is the bit-serial one;
    * `crc32_remainder`       — and the remainder of the bit-reflected message;
    * `crc32_burst`           — four consecutive bytes do not change unnoticed;
    * `decodeHkFrame_burst`   — no frame with such a change in its sample decodes.
-/
import KFsw.Ground.Decode
import KFsw.Lib.Crc

namespace KFsw.Ground

open KFsw.Lib

/-! ## §1. The table. -/

/-- The generator of CRC-32C, without its leading term. -/
def CRC32C_GENERATOR : BitVec 32 := 0x1EDC6F41#32

theorem polynomial_eq : CRC32C_POLYNOMIAL = CRC32C_GENERATOR.reverse := by decide +kernel

/-- One turn of the loop that builds the table is one shift of the register. -/
theorem tableStep_eq (value : BitVec 32) : tableStep value = bitStep CRC32C_GENERATOR.reverse value := by
  have hbit : value &&& 1#32 ≠ 0#32 ↔ value.getLsbD 0 = true := by
    rw [ne_eq, BitVec.and_one_eq_setWidth_ofBool_getLsbD]
    cases value.getLsbD 0 <;> decide
  unfold tableStep bitStep feedBit
  rw [Bool.xor_false, polynomial_eq]
  split
  · rename_i hodd
    rw [if_pos (hbit.mp hodd)]
  · rename_i heven
    rw [if_neg fun h => heven (hbit.mpr h), BitVec.xor_zero]

/-- An entry of the table. -/
theorem table_entry {index : Nat} (h : index < 256) :
    CRC32C_TABLE.getD index 0#32
      = (bitStep CRC32C_GENERATOR.reverse)^[8] (BitVec.ofNat 32 index) := by
  have hstep : tableStep = bitStep CRC32C_GENERATOR.reverse := funext tableStep_eq
  unfold CRC32C_TABLE
  rw [hstep, List.getD_eq_getElem?_getD, List.getElem?_map, List.getElem?_range h]
  rfl

/-! ## §2. The checksum. -/

theorem mask_bit (i : Nat) : (0xFF#32).getLsbD i = decide (i < 8) := by
  by_cases hi : i < 32
  · have hall : ∀ i < 32, (0xFF#32).getLsbD i = decide (i < 8) := by decide
    exact hall i hi
  · rw [BitVec.getLsbD_of_ge _ i (by omega), decide_eq_false (by omega)]

/-- **One byte of `crc32`** is its eight bits, the lowest first. -/
theorem crc32Byte_eq (value : BitVec 32) (byte : UInt8) :
    crc32Byte value byte = feedBits CRC32C_GENERATOR.reverse value (lowBits 8 byte.toBitVec) := by
  have hbyte : lowBits 8 (byte.toBitVec.setWidth 32) = lowBits 8 byte.toBitVec := by
    refine List.map_congr_left fun i hi => ?_
    have hlt : i < 32 := Nat.lt_of_lt_of_le (List.mem_range.mp hi) (by decide)
    rw [BitVec.getLsbD_setWidth, decide_eq_true hlt, Bool.true_and]
  have hlow : ∀ x : BitVec 32, lowBits 8 (x &&& 0xFF#32) = lowBits 8 x := by
    intro x
    refine List.map_congr_left fun i hi => ?_
    rw [BitVec.getLsbD_and, mask_bit, decide_eq_true (List.mem_range.mp hi), Bool.and_true]
  have hrest : ∀ x : BitVec 32, (x &&& 0xFF#32) >>> 8 = 0#32 := by
    intro x
    refine BitVec.eq_of_getLsbD_eq fun i _ => ?_
    rw [BitVec.getLsbD_ushiftRight, BitVec.getLsbD_and, mask_bit, decide_eq_false (by omega),
      Bool.and_false, BitVec.getLsbD_zero]
  have hword : byte.toBitVec.setWidth 32 >>> 8 = 0#32 := by
    refine BitVec.eq_of_getLsbD_eq fun i _ => ?_
    rw [BitVec.getLsbD_ushiftRight, BitVec.getLsbD_setWidth, BitVec.getLsbD_of_ge _ _ (by omega),
      Bool.and_false, BitVec.getLsbD_zero]
  have hindex : ∀ x : BitVec 32, (x &&& 0xFF#32).toNat < 256 := by
    intro x
    rw [BitVec.toNat_and]
    exact Nat.lt_of_le_of_lt Nat.and_le_right (by decide)
  unfold crc32Byte
  rw [table_entry (hindex _), BitVec.ofNat_toNat, BitVec.setWidth_eq, ← hbyte,
    feedBits_table _ 8 (hlow _) (hrest _) hword]

/-- The register after the loop. -/
theorem foldl_crc32Byte (value : BitVec 32) (data : Bytes) :
    data.foldl crc32Byte value = feedBits CRC32C_GENERATOR.reverse value (messageBits data) := by
  induction data generalizing value with
  | nil => rfl
  | cons byte data ih =>
    have hcons : messageBits (byte :: data) = lowBits 8 byte.toBitVec ++ messageBits data := rfl
    rw [List.foldl_cons, ih, crc32Byte_eq, hcons, feedBits_append]

/-- **The table-driven checksum** is the bit-serial one. -/
theorem crc32_eq_reflectedCrc (data : Bytes) :
    crc32 data = beBytes 4 (reflectedCrc CRC32C_GENERATOR (BitVec.allOnes 32) (BitVec.allOnes 32)
      data).toNat := by
  unfold crc32 reflectedCrc
  rw [foldl_crc32Byte]
  rfl

/-- Registers are told apart by the four bytes written. -/
theorem beBytes_register_inj {r r' : BitVec 32} (h : beBytes 4 r.toNat = beBytes 4 r'.toNat) :
    r = r' := by
  have hvalue := congrArg beNat h
  rw [beNat_beBytes_of_lt r.isLt, beNat_beBytes_of_lt r'.isLt] at hvalue
  exact BitVec.eq_of_toNat_eq hvalue

/-- Checksums agree exactly when the registers do. -/
theorem crc32_eq_iff (a b : Bytes) :
    crc32 a = crc32 b
      ↔ feedBits CRC32C_GENERATOR.reverse (BitVec.allOnes 32) (messageBits a)
        = feedBits CRC32C_GENERATOR.reverse (BitVec.allOnes 32) (messageBits b) := by
  rw [crc32_eq_reflectedCrc, crc32_eq_reflectedCrc]
  constructor
  · intro h
    exact (BitVec.xor_left_inj _).mp (beBytes_register_inj h)
  · intro h
    rw [reflectedCrc, reflectedCrc, h]

/-- **The checksum is CRC-32C.**  The table is eight shifts of each index; the checksum is the
bit-serial reflected CRC with generator `0x1EDC6F41`, first register and final exclusive or all
ones, written big endian; and the register it writes is the one whose polynomial is the
remainder of the bit-reflected message by the generator. -/
theorem crc32_remainder (data : Bytes) :
    CRC32C_TABLE
        = (List.range 256).map (fun i => (bitStep (0x1EDC6F41#32).reverse)^[8] (BitVec.ofNat 32 i))
      ∧ crc32 data
        = beBytes 4 (reflectedCrc 0x1EDC6F41#32 (BitVec.allOnes 32) (BitVec.allOnes 32) data).toNat
      ∧ ∀ r : BitVec 32, crc32 data = beBytes 4 (r ^^^ BitVec.allOnes 32).toNat
        ↔ registerPoly r
          = (Polynomial.X ^ 32 * bitsPoly (messageBits data)
              + Polynomial.X ^ (8 * data.length) * registerPoly (BitVec.allOnes 32))
            %ₘ (Polynomial.X ^ 32 + wordPoly (0x1EDC6F41#32)) := by
  have hserial := crc32_eq_reflectedCrc data
  refine ⟨?_, hserial, ?_⟩
  · have hstep : tableStep = bitStep CRC32C_GENERATOR.reverse := funext tableStep_eq
    rw [CRC32C_TABLE, hstep]
    rfl
  · intro r
    have hremainder := registerPoly_feedBits CRC32C_GENERATOR (BitVec.allOnes 32) (messageBits data)
    rw [messageBits_length] at hremainder
    change crc32 data = _ ↔ registerPoly r
      = (Polynomial.X ^ 32 * bitsPoly (messageBits data)
          + Polynomial.X ^ (8 * data.length) * registerPoly (BitVec.allOnes 32))
        %ₘ crcPoly CRC32C_GENERATOR
    rw [← hremainder, hserial, reflectedCrc]
    constructor
    · intro h
      rw [(BitVec.xor_left_inj _).mp (beBytes_register_inj h)]
    · intro h
      rw [registerPoly_injective h]

/-! ## §3. Damaged frames. -/

/-- **Four consecutive bytes** do not change unnoticed. -/
theorem crc32_burst (p s : Bytes) {u v : Bytes} (hne : u ≠ v) (hlength : u.length = v.length)
    (hshort : u.length ≤ 4) : crc32 (p ++ u ++ s) ≠ crc32 (p ++ v ++ s) := by
  rw [ne_eq, crc32_eq_iff]
  simp only [messageBits_append]
  refine feedBits_burst (by decide) _ _ _ ?_ ?_ fun h => hne (messageBits_injective h)
  · rw [messageBits_length, messageBits_length, hlength]
  · rw [messageBits_length]
    omega

/-- A housekeeping frame with four consecutive bytes of its sample damaged. -/
theorem decodeHkFrame_damaged {v : CspVersion} {hkPort node : Nat} {header p u q t : Bytes}
    (hl : header.length = cspHeaderBytes v) (hport : (parseCspHeader v header).sport = hkPort)
    (hnode : (parseCspHeader v header).source = node)
    (hflags : (parseCspHeader v header).flags = 0 ∨ (parseCspHeader v header).flags = 1)
    (ht : t = checksums (parseCspHeader v header).flags (p ++ u ++ q))
    {u' : Bytes} (hne : u' ≠ u) (hlength : u'.length = u.length) (hshort : u'.length ≤ 4) :
    decodeHkFrame v hkPort (header ++ (p ++ u' ++ q ++ t)) node
      = .ok (none, some "KISS CRC32 mismatch") := by
  -- what the outer checksum covers, and the checksum itself
  obtain ⟨inner, hsplit⟩ : ∃ inner, t = inner ++ crc32 (p ++ u ++ (q ++ inner)) := by
    rw [ht, checksums]
    split
    · exact ⟨[], by rw [List.append_nil, List.nil_append]⟩
    · exact ⟨crc32 (p ++ u ++ q), by rw [← List.append_assoc (p ++ u)]⟩
  have hbody : p ++ u' ++ q ++ t = p ++ u' ++ (q ++ inner) ++ crc32 (p ++ u ++ (q ++ inner)) := by
    conv_lhs => rw [hsplit]
    simp only [List.append_assoc]
  have hlast : lastFour (p ++ u' ++ q ++ t) = crc32 (p ++ u ++ (q ++ inner)) := by
    rw [lastFour, hbody, List.length_append, crc32_length, Nat.add_sub_cancel, List.drop_left]
  have hfront : butLastFour (p ++ u' ++ q ++ t) = p ++ u' ++ (q ++ inner) := by
    rw [butLastFour, hbody, List.length_append, crc32_length, Nat.add_sub_cancel, List.take_left]
  have hlong : 4 ≤ (p ++ u' ++ q ++ t).length := by
    rw [hbody, List.length_append, crc32_length]
    omega
  rw [decodeHkFrame_of_header v hkPort node header _ hl hlong hport hnode hflags, if_pos]
  rw [hlast, hfront]
  exact (crc32_burst p (q ++ inner) hne hlength hshort).symm

/-- **Short bursts are always caught.**  Messages that differ in at most four consecutive bytes
have different checksums; and a frame the decoder accepts, with such a run inside its sample
replaced by other bytes, gives no sample. -/
theorem decodeHkFrame_burst :
    (∀ p s u v : Bytes, u ≠ v → u.length = v.length → u.length ≤ 4 →
        crc32 (p ++ u ++ s) ≠ crc32 (p ++ v ++ s))
      ∧ ∀ (v : CspVersion) (hkPort node : Nat) (frame sample : Bytes),
        decodeHkFrame v hkPort frame node = .ok (some sample, none) →
        ∀ (start : Nat) (bytes : Bytes), bytes.length ≤ 4 → start + bytes.length ≤ sample.length →
          let run := cspHeaderBytes v + start
          (frame.drop run).take bytes.length ≠ bytes →
          ∃ problem, decodeHkFrame v hkPort
            (frame.take run ++ bytes ++ frame.drop (run + bytes.length)) node
              = .ok (none, problem) := by
  refine ⟨fun p s u v hne hlength hshort => crc32_burst p s hne hlength hshort, ?_⟩
  intro v hkPort node frame sample hdecode start bytes hshort hinside run hother
  have hframe := isHkFrame_of_decodeHkFrame hdecode
  -- the sample before, in and behind the run
  have hsample : sample = sample.take start ++ (sample.drop start).take bytes.length
      ++ sample.drop (start + bytes.length) := by
    rw [List.append_assoc, ← List.drop_drop, List.take_append_drop, List.take_append_drop]
  have hp : (sample.take start).length = start := List.length_take_of_le (by omega)
  have hu : ((sample.drop start).take bytes.length).length = bytes.length := by
    rw [List.length_take, List.length_drop]
    omega
  generalize hpdef : sample.take start = p at hsample hp
  generalize hudef : (sample.drop start).take bytes.length = u at hsample hu
  generalize hqdef : sample.drop (start + bytes.length) = q at hsample
  subst hsample
  obtain ⟨header, t, rfl, hl, hport, hnode, hflags, -, ht⟩ := hframe
  have hrun : run = (header ++ p).length := by rw [List.length_append, hl, hp]
  have hjoin : header ++ (p ++ u ++ q) ++ t = header ++ p ++ (u ++ (q ++ t)) := by
    simp only [List.append_assoc]
  have hdrop : (header ++ (p ++ u ++ q) ++ t).drop run = u ++ (q ++ t) := by
    rw [hrun, hjoin, List.drop_left]
  have hbehind : (header ++ (p ++ u ++ q) ++ t).drop (run + bytes.length) = q ++ t := by
    rw [← List.drop_drop, hdrop, ← hu, List.drop_left]
  rw [hdrop, ← hu, List.take_left] at hother
  have hnew : (header ++ (p ++ u ++ q) ++ t).take run ++ bytes
      ++ (header ++ (p ++ u ++ q) ++ t).drop (run + bytes.length)
      = header ++ (p ++ bytes ++ q ++ t) := by
    rw [hbehind, hrun, hjoin, List.take_left]
    simp only [List.append_assoc]
  rw [hnew]
  exact ⟨_, decodeHkFrame_damaged hl hport hnode hflags ht (Ne.symm hother) hu.symm hshort⟩

/-- One bit of a checksum's message, and one value of a sample. -/
theorem decodeHkFrame_burst_one :
    crc32 ([1] ++ [2] ++ [3]) ≠ crc32 ([1] ++ [6] ++ [3])
      ∧ ∃ problem, decodeHkFrame .csp1 14
        (([0x83, 0x0A, 0x0E, 0x00, 1, 0, 0, 7, 0, 0, 0, 1, 1, 0, 0xC0]
            ++ crc32 [1, 0, 0, 7, 0, 0, 0, 1, 1, 0, 0xC0]).take 14 ++ [0x41]
          ++ ([0x83, 0x0A, 0x0E, 0x00, 1, 0, 0, 7, 0, 0, 0, 1, 1, 0, 0xC0]
            ++ crc32 [1, 0, 0, 7, 0, 0, 0, 1, 1, 0, 0xC0]).drop 15) 1
          = .ok (none, problem) :=
  ⟨decodeHkFrame_burst.1 [1] [3] [2] [6] (by decide) rfl (by decide),
    decodeHkFrame_burst.2 .csp1 14 1
      ([0x83, 0x0A, 0x0E, 0x00, 1, 0, 0, 7, 0, 0, 0, 1, 1, 0, 0xC0]
        ++ crc32 [1, 0, 0, 7, 0, 0, 0, 1, 1, 0, 0xC0])
      [1, 0, 0, 7, 0, 0, 0, 1, 1, 0, 0xC0] (by decide +kernel) 10 [0x41] (by decide) (by decide)
      (by decide +kernel)⟩

end KFsw.Ground
