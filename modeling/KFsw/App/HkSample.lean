/-
  KFsw.App.HkSample — the lines `print_sample` prints of a housekeeping sample,
  `app/src/shell/shell_hk.c`.

  `hk get` and `hk stored` print a sample the same way: its header by name, and
  its values in hexadecimal, from a buffer of 97 characters.  The sizes and flags
  of a sample are the service's and are the record `SampleFormat`.

  Main results:
    * `valueLoop_spec`        — the values that are written, and where they stop;
    * `printSample_lines`     — what is printed, with no write outside the buffer;
    * `printSample_whole_iff` — every value is printed exactly when they are at
      most 47 bytes.
-/
import KFsw.App.ShellSystem
import KFsw.Lib.CMemory

namespace KFsw.App

open KFsw.Lib

/-! ## §1. The sample and its lines. -/

/-- What the housekeeping service fixes of a sample. -/
structure SampleFormat where
  /-- `KFSW_HK_HEADER_SIZE`. -/
  headerSize : Nat
  /-- The size of `data` in `struct kfsw_hk_sample`. -/
  capacity : Nat
  /-- `KFSW_HK_FLAG_CLOCK_UNSET`. -/
  flagClockUnset : UInt8
  /-- `KFSW_HK_FLAG_INCOMPLETE`. -/
  flagIncomplete : UInt8

variable (format : SampleFormat)

/-- `struct kfsw_hk_sample`. -/
structure HkSample where
  sequence : UInt16
  seconds : UInt32
  entryCount : UInt8
  flags : UInt8
  length : Nat
  data : Bytes
  data_length : data.length = format.capacity
  length_le : length ≤ format.capacity

/-- `sizeof(line)`. -/
def LINE_SIZE : Nat := 3 * 32 + 1

variable {format}

/-- The bytes behind the header, `data[KFSW_HK_HEADER_SIZE..length-1]`. -/
def HkSample.values (s : HkSample format) : Bytes := (s.data.take s.length).drop format.headerSize

/-- The first line. -/
def HkSample.head (s : HkSample format) : Text :=
  "seq ".toList ++ Nat.toDigits 10 s.sequence.toNat ++ "  at ".toList
    ++ Nat.toDigits 10 s.seconds.toNat
    ++ (if s.flags &&& format.flagClockUnset ≠ 0 then " (no clock)".toList else [])
    ++ "  ".toList ++ Nat.toDigits 10 s.entryCount.toNat ++ " values".toList
    ++ (if s.flags &&& format.flagIncomplete ≠ 0 then " (incomplete)".toList else [])
    ++ "  ".toList ++ Nat.toDigits 10 s.length ++ " bytes".toList

/-- The loop of `print_sample` over the bytes from `index` on. -/
def valueLoop (line : CArray LINE_SIZE) (used : Nat) : Bytes → Option (CArray LINE_SIZE × Nat)
  | [] => some (line, used)
  | b :: rest =>
    if used + 3 ≥ LINE_SIZE then some (line, used)
    else
      (line.snprintf used (hexPadded 2 b.toNat)).bind fun written =>
        valueLoop written.1 (used + written.2.toNat) rest

/-- `print_sample`, with what the buffer holds before: the lines it prints. -/
def printSample (line : CArray LINE_SIZE) (s : HkSample format) : Option (List Text) :=
  (valueLoop line 0 s.values).bind fun written =>
    (written.1.store written.2 NUL).map fun line => [s.head, "  ".toList ++ line.text]

/-! ## §2. The loop. -/

theorem hexPadded_byte_length (b : UInt8) : (hexPadded 2 b.toNat).length = 2 :=
  hexPadded_length (by decide) b.toNat_lt

theorem hexText_length (data : Bytes) : (hexText data).length = 2 * data.length := by
  induction data with
  | nil => rfl
  | cons b data ih =>
    show (hexPadded 2 b.toNat ++ hexText data).length = _
    rw [List.length_append, hexPadded_byte_length, ih, List.length_cons]
    omega

/-- **The values that are written**: two digits for each, in order, up to the end of the values or
of the buffer. -/
theorem valueLoop_spec (rest : Bytes) (line : CArray LINE_SIZE) {t : Text} (ht : t <+: line.cells)
    (hroom : t.length < LINE_SIZE) :
    ∃ b, valueLoop line t.length rest
        = some (b, (t ++ hexText (rest.take ((LINE_SIZE - 2 - t.length) / 2))).length)
      ∧ t ++ hexText (rest.take ((LINE_SIZE - 2 - t.length) / 2)) <+: b.cells := by
  -- on the values, with the text written so far in front
  induction rest generalizing line t with
  | nil =>
    rw [List.take_nil]
    exact ⟨line, by rw [show hexText [] = [] from rfl, List.append_nil]; rfl, by
      rw [show hexText [] = [] from rfl, List.append_nil]
      exact ht⟩
  | cons b rest ih =>
    unfold valueLoop
    by_cases hfull : t.length + 3 ≥ LINE_SIZE
    · have hnone : (LINE_SIZE - 2 - t.length) / 2 = 0 := by
        omega
      rw [if_pos hfull, hnone, List.take_zero, show hexText [] = [] from rfl, List.append_nil]
      exact ⟨line, rfl, ht⟩
    · have htwo := hexPadded_byte_length b
      obtain ⟨c, hc, hholds⟩ := line.snprintf_whole ht (s := hexPadded 2 b.toNat) (by omega)
      have hresult : CArray.snprintfResult (hexPadded 2 b.toNat) = 2 := by
        rw [CArray.snprintfResult_of_le (by rw [htwo]; decide), htwo]
        rfl
      have hlength : (t ++ hexPadded 2 b.toNat).length = t.length + 2 := by
        rw [List.length_append, htwo]
      obtain ⟨e, he, hcells⟩ := ih c hholds.isPrefix (by omega)
      -- one value more is written than in the rest of the loop
      have hcount : (LINE_SIZE - 2 - t.length) / 2
          = (LINE_SIZE - 2 - (t ++ hexPadded 2 b.toNat).length) / 2 + 1 := by
        omega
      have htext : t ++ hexText ((b :: rest).take ((LINE_SIZE - 2 - t.length) / 2))
          = t ++ hexPadded 2 b.toNat
            ++ hexText (rest.take ((LINE_SIZE - 2 - (t ++ hexPadded 2 b.toNat).length) / 2)) := by
        rw [hcount, List.take_succ_cons, List.append_assoc]
        rfl
      rw [htext, if_neg hfull, hc]
      refine ⟨e, ?_, hcells⟩
      rw [← he, hlength]
      show valueLoop c (t.length + (CArray.snprintfResult _).toNat) rest = _
      rw [hresult]
      rfl

/-! ## §3. What is printed. -/

theorem hexText_notMem_nul (data : Bytes) : NUL ∉ hexText data := by
  intro h
  obtain ⟨b, _, hb⟩ := List.mem_flatMap.mp h
  have hdigit := isDigitIn_hexPadded NUL hb
  rw [isDigitIn_stop (by decide)] at hdigit
  exact absurd hdigit (by decide)

/-- **What is printed**: the first 47 values at most.  Nothing is written outside the buffer,
whatever the sample and what the buffer held. -/
theorem printSample_lines (line : CArray LINE_SIZE) (s : HkSample format) :
    printSample line s = some [s.head, "  ".toList ++ hexText (s.values.take 47)] := by
  obtain ⟨b, hb, hcells⟩ := valueLoop_spec s.values line List.nil_prefix (by decide)
  have hcount : (LINE_SIZE - 2 - ([] : Text).length) / 2 = 47 := by decide
  rw [hcount, List.nil_append] at hb hcells
  have hroom : (hexText (s.values.take 47)).length < LINE_SIZE := by
    have hle := List.length_take_le 47 s.values
    have hsize : LINE_SIZE = 97 := rfl
    rw [hexText_length]
    omega
  obtain ⟨c, hc, hholds⟩ := b.store_nul hcells hroom
  have hloop : valueLoop line 0 s.values = some (b, (hexText (s.values.take 47)).length) := hb
  unfold printSample
  rw [hloop, Option.bind_some]
  dsimp only
  rw [hc, Option.map_some, hholds.text (hexText_notMem_nul _)]

/-- The sample is printed whole: its header, and every value byte with two digits, in order. -/
def PrintedWhole (line : CArray LINE_SIZE) (s : HkSample format) : Prop :=
  printSample line s = some [s.head, "  ".toList ++ hexText s.values]

theorem HkSample.values_length (s : HkSample format) :
    s.values.length = s.length - format.headerSize := by
  have hlength := s.length_le
  rw [HkSample.values, List.length_drop, List.length_take, s.data_length, Nat.min_eq_left hlength]

/-- **Every value is printed exactly when they are at most 47 bytes.** -/
theorem printSample_whole_iff (line : CArray LINE_SIZE) (s : HkSample format) :
    PrintedWhole line s ↔ s.length ≤ format.headerSize + 47 := by
  rw [← Nat.sub_le_iff_le_add', ← s.values_length]
  unfold PrintedWhole
  rw [printSample_lines]
  constructor
  · intro h
    have htext := List.append_cancel_left (List.cons.inj (List.cons.inj (Option.some.inj h)).2).1
    have hlength := congrArg List.length htext
    rw [hexText_length, hexText_length, List.length_take] at hlength
    omega
  · intro h
    rw [List.take_of_length_le h]

/-- A sample of 48 value bytes behind a header of ten. -/
def longSample : HkSample ⟨10, 240, 2, 1⟩ where
  sequence := 7
  seconds := 1
  entryCount := 24
  flags := 0
  length := 58
  data := List.replicate 240 0xAB
  data_length := List.length_replicate
  length_le := by decide

/-- Its last value is not printed. -/
theorem printSample_long : ¬ PrintedWhole (CArray.blank LINE_SIZE) longSample := by
  unfold PrintedWhole
  rw [printSample_lines]
  decide +kernel

end KFsw.App
