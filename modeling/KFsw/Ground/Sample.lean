/-
  KFsw.Ground.Sample — the housekeeping sample as the ground reads it: its
  ten-byte header, the check every reader makes, the line `describe` prints and
  the envelope Yamcs receives.

  Main results:
    * `validateSample_ok_iff` — what `validate_sample` accepts, field by field;
    * `validateSample_error`  — it raises nothing but `ValueError`;
    * `Sample`                — a sample that carries the proof that it passes;
    * `Sample.envelope_eq`    — an accepted sample is enveloped without an
      exception for every host time that fits 64 bits.
-/
import KFsw.Ground.Csp

namespace KFsw.Ground

open KFsw.Lib

/-! ## §1. Constants and the header layout. -/

def HK_PROTOCOL_VERSION : Nat := 1
def HK_HEADER_BYTES : Nat := 10
def HK_FLAG_INCOMPLETE : UInt8 := 0x01
def HK_SAMPLE_MAX : Nat := 240

/-- The fields of `">BBHIBB"`. -/
structure SampleHeader where
  version : Nat
  report : Nat
  sequence : Nat
  seconds : Nat
  count : Nat
  flags : UInt8
  deriving DecidableEq, Repr

/-- The ten header bytes, field by field. -/
def sampleHeader (sample : Bytes) : SampleHeader :=
  { version := (sample.getD 0 0).toNat
    report := (sample.getD 1 0).toNat
    sequence := beField sample 2 2
    seconds := beField sample 4 4
    count := (sample.getD 8 0).toNat
    flags := sample.getD 9 0 }

/-- `struct.unpack_from(">BBHIBB", sample)`. -/
def unpackFrom (sample : Bytes) : Except PyError SampleHeader :=
  if sample.length < HK_HEADER_BYTES then
    .error (.structError "unpack_from requires a buffer of at least 10 bytes")
  else
    .ok (sampleHeader sample)

/-- `struct.pack` of one unsigned big-endian field of `n` bytes. -/
def structPack (n v : Nat) : Except PyError Bytes :=
  if v < 256 ^ n then .ok (beBytes n v) else .error (.structError "argument out of range")

theorem structPack_of_lt {n v : Nat} (h : v < 256 ^ n) : structPack n v = .ok (beBytes n v) := by
  simp [structPack, h]

/-- A buffer of ten bytes or more has a header. -/
theorem unpackFrom_of_length {sample : Bytes} (h : HK_HEADER_BYTES ≤ sample.length) :
    unpackFrom sample = .ok (sampleHeader sample) := by
  rw [unpackFrom, if_neg (by omega)]

/-- The header's fields fit their formats. -/
theorem sampleHeader_bounds (sample : Bytes) :
    (sampleHeader sample).version < 2 ^ 8 ∧ (sampleHeader sample).report < 2 ^ 8
      ∧ (sampleHeader sample).sequence < 2 ^ 16 ∧ (sampleHeader sample).seconds < 2 ^ 32
      ∧ (sampleHeader sample).count < 2 ^ 8 :=
  ⟨UInt8.toNat_lt _, UInt8.toNat_lt _, beField_lt _ _ _, beField_lt _ _ _, UInt8.toNat_lt _⟩

/-! ## §2. `validate_sample`. -/

def validateSample (sample : Bytes) : Except PyError Unit :=
  if ¬ (HK_HEADER_BYTES ≤ sample.length ∧ sample.length ≤ HK_SAMPLE_MAX) then
    .error (.valueError "invalid housekeeping sample length")
  else
    match unpackFrom sample with
    | .error e => .error e
    | .ok h =>
      if h.version ≠ HK_PROTOCOL_VERSION ∨ h.report ≥ 16 then
        .error (.valueError "unsupported housekeeping version or report")
      else if ¬ (1 ≤ h.count ∧ h.count ≤ 64) ∨ h.flags &&& ~~~3 ≠ 0 then
        .error (.valueError "invalid housekeeping count or flags")
      else if sample.length < HK_HEADER_BYTES + h.count then
        .error (.valueError "truncated housekeeping values")
      -- `bool(flags & 2) != (seconds == 0)`
      else if decide (h.flags &&& 2 ≠ 0) ≠ decide (h.seconds = 0) then
        .error (.valueError "inconsistent housekeeping clock flag")
      else
        .ok ()

/-- What `validate_sample` asks of a sample. -/
structure ValidSample (sample : Bytes) : Prop where
  length_ge : HK_HEADER_BYTES ≤ sample.length
  length_le : sample.length ≤ HK_SAMPLE_MAX
  version_eq : (sampleHeader sample).version = HK_PROTOCOL_VERSION
  report_lt : (sampleHeader sample).report < 16
  count_pos : 1 ≤ (sampleHeader sample).count
  count_le : (sampleHeader sample).count ≤ 64
  flags_low : (sampleHeader sample).flags &&& ~~~3 = 0
  values : HK_HEADER_BYTES + (sampleHeader sample).count ≤ sample.length
  clock : (sampleHeader sample).flags &&& 2 ≠ 0 ↔ (sampleHeader sample).seconds = 0

/-- **What `validate_sample` accepts**, field by field. -/
theorem validateSample_ok_iff (sample : Bytes) :
    validateSample sample = .ok () ↔ ValidSample sample := by
  unfold validateSample
  constructor
  · intro hok
    -- a check that threw is not `.ok ()`, so each one leaves its negation behind
    split at hok
    · exact absurd hok (by simp)
    · rename_i hlen
      rw [not_not] at hlen
      rw [unpackFrom_of_length hlen.1] at hok
      dsimp only at hok
      split at hok
      · exact absurd hok (by simp)
      · rename_i h1
        split at hok
        · exact absurd hok (by simp)
        · rename_i h2
          split at hok
          · exact absurd hok (by simp)
          · rename_i h3
            split at hok
            · exact absurd hok (by simp)
            · rename_i h4
              push Not at h1 h2 h3
              exact ⟨hlen.1, hlen.2, h1.1, h1.2, h2.1.1, h2.1.2, h2.2, h3,
                decide_eq_decide.mp (not_not.mp h4)⟩
  · intro hv
    have h1 := hv.report_lt
    have h3 := hv.values
    rw [if_neg (not_not.mpr ⟨hv.length_ge, hv.length_le⟩), unpackFrom_of_length hv.length_ge]
    dsimp only
    rw [if_neg (by rw [hv.version_eq]; omega),
      if_neg (by simp only [hv.count_pos, hv.count_le, hv.flags_low, and_self, not_true,
        ne_eq, or_self, not_false_eq_true]),
      if_neg (by omega), if_neg (not_not.mpr (decide_eq_decide.mpr hv.clock))]

/-- **`validate_sample` raises nothing but `ValueError`**: the length is checked before
the header is unpacked. -/
theorem validateSample_error (sample : Bytes) (e : PyError)
    (he : validateSample sample = .error e) : ∃ message, e = .valueError message := by
  unfold validateSample at he
  split at he
  · injection he with he
    exact ⟨_, he.symm⟩
  · rename_i hlen
    rw [unpackFrom_of_length (not_not.mp hlen).1] at he
    dsimp only at he
    repeat' split at he
    all_goals first
      | (injection he with he; exact ⟨_, he.symm⟩)
      | exact absurd he (by simp)

/-- A sample that passes `validate_sample`. -/
structure Sample where
  bytes : Bytes
  valid : ValidSample bytes

/-- A byte with no bit above the second is one of four. -/
theorem flags_cases (f : UInt8) (h : f &&& ~~~3 = 0) : f = 0 ∨ f = 1 ∨ f = 2 ∨ f = 3 := by
  have hall : ∀ n : Fin 256, UInt8.ofNat n.val &&& ~~~3 = 0 →
      UInt8.ofNat n.val = 0 ∨ UInt8.ofNat n.val = 1 ∨ UInt8.ofNat n.val = 2
        ∨ UInt8.ofNat n.val = 3 := by decide +kernel
  have hf := hall ⟨f.toNat, f.toNat_lt⟩
  rw [show UInt8.ofNat f.toNat = f from UInt8.ofNat_toNat] at hf
  exact hf h

/-! ## §3. The line `describe` prints. -/

/-- The decimal digits of `v`, with zeros in front up to `width`. -/
def padded (width v : Nat) : String :=
  String.ofList (List.replicate (width - (Nat.toDigits 10 v).length) '0' ++ Nat.toDigits 10 v)

/-- Year, month and day of a day counted from 1970-01-01 (Gregorian). -/
def civilDate (days : Nat) : Nat × Nat × Nat :=
  -- eras of 400 years that start on 1 March, so that the leap day is the last of its year
  let z := days + 719468
  let era := z / 146097
  let doe := z % 146097
  let yoe := (doe - doe / 1460 + doe / 36524 - doe / 146096) / 365
  let doy := doe - (365 * yoe + yoe / 4 - yoe / 100)
  let mp := (5 * doy + 2) / 153
  let day := doy - (153 * mp + 2) / 5 + 1
  let month := if mp < 10 then mp + 3 else mp - 9
  (yoe + era * 400 + (if month ≤ 2 then 1 else 0), month, day)

/-- `time.strftime("%Y-%m-%dT%H:%M:%SZ", time.gmtime(seconds))`. -/
def isoTime (seconds : Nat) : String :=
  let date := civilDate (seconds / 86400)
  padded 4 date.1 ++ "-" ++ padded 2 date.2.1 ++ "-" ++ padded 2 date.2.2
    ++ "T" ++ padded 2 (seconds / 3600 % 24) ++ ":" ++ padded 2 (seconds / 60 % 60)
    ++ ":" ++ padded 2 (seconds % 60) ++ "Z"

example : isoTime 1900000000 = "2030-03-17T17:46:40Z" := by decide +kernel

/-- The time in the line of `describe`. -/
def describeTime (seconds : Nat) : String :=
  if seconds ≠ 0 then isoTime seconds else "clock unset"

/-- The marks in the line of `describe`. -/
def describeMarks (flags : UInt8) : String :=
  if flags &&& HK_FLAG_INCOMPLETE ≠ 0 then " incomplete" else ""

/-- The text of `describe` for a header and the sample's length. -/
def describeLine (h : SampleHeader) (length : Nat) : String :=
  "report " ++ toString h.report ++ " seq " ++ toString h.sequence ++ " at "
    ++ describeTime h.seconds ++ " v" ++ toString h.version ++ " " ++ toString h.count
    ++ " values" ++ describeMarks h.flags ++ " " ++ toString length ++ " bytes"

def describe (sample : Bytes) : Except PyError String :=
  match unpackFrom sample with
  | .error e => .error e
  | .ok h => .ok (describeLine h sample.length)

/-- No digit is an `i`. -/
theorem i_notMem_toString (n : Nat) : 'i' ∉ (toString n).toList := by
  intro h
  have hdigit := Nat.isDigit_of_mem_toDigits (by decide) (by decide) (Nat.toList_repr ▸ h)
  exact absurd hdigit (by decide)

theorem i_notMem_padded (width v : Nat) : 'i' ∉ (padded width v).toList := by
  intro h
  rw [padded, String.toList_ofList] at h
  rcases List.mem_append.mp h with h | h
  · exact absurd (List.eq_of_mem_replicate h) (by decide)
  · exact absurd (Nat.isDigit_of_mem_toDigits (by decide) (by decide) h) (by decide)

theorem i_notMem_describeTime (seconds : Nat) : 'i' ∉ (describeTime seconds).toList := by
  unfold describeTime
  split
  · simp only [isoTime, String.toList_append, List.mem_append, i_notMem_padded, or_false,
      false_or]
    decide
  · decide

/-- **The mark `describe` prints**: the line says "incomplete" exactly when the low flag is
set. -/
theorem describeLine_mark_iff (h : SampleHeader) (length : Nat) :
    " incomplete".toList <:+: (describeLine h length).toList
      ↔ h.flags &&& HK_FLAG_INCOMPLETE ≠ 0 := by
  unfold describeLine
  by_cases hflag : h.flags &&& HK_FLAG_INCOMPLETE = 0
  · have hmarks : describeMarks h.flags = "" := if_neg (not_not.mpr hflag)
    rw [hmarks]
    refine iff_of_false (fun hmark => ?_) (not_not.mpr hflag)
    -- an `i` occurs nowhere else in the line
    have hi := hmark.subset (show 'i' ∈ " incomplete".toList by decide)
    simp only [String.toList_append, List.mem_append, i_notMem_describeTime,
      i_notMem_toString, or_false] at hi
    exact absurd hi (by decide)
  · have hmarks : describeMarks h.flags = " incomplete" := if_pos hflag
    rw [hmarks]
    refine iff_of_true ?_ hflag
    simp only [String.toList_append]
    rw [List.append_assoc (_ ++ " incomplete".toList), List.append_assoc (_ ++ " incomplete".toList)]
    exact List.infix_append _ _ _

/-! ## §4. The envelope. -/

/-- `ENVELOPE`, `">QI"`. -/
def ENVELOPE_BYTES : Nat := 12

def envelope (sample : Bytes) (hostTimeMs : Nat) : Except PyError Bytes :=
  match unpackFrom sample with
  | .error e => .error e
  | .ok h =>
    if h.version ≠ HK_PROTOCOL_VERSION then
      .error (.valueError ("housekeeping protocol version " ++ toString h.version
        ++ ", expected " ++ toString HK_PROTOCOL_VERSION))
    else
      -- a node whose clock was never set reports zero
      let time := if h.seconds ≠ 0 then h.seconds * 1000 else hostTimeMs
      match structPack 8 time, structPack 4 h.sequence with
      | .ok time, .ok sequence => .ok (time ++ sequence ++ sample)
      | .error e, _ => .error e
      | _, .error e => .error e

/-- The twelve bytes `envelope` puts in front of a sample. -/
def envelopeBytes (sample : Bytes) (hostTimeMs : Nat) : Bytes :=
  beBytes 8 (if (sampleHeader sample).seconds ≠ 0 then (sampleHeader sample).seconds * 1000
      else hostTimeMs)
    ++ beBytes 4 (sampleHeader sample).sequence

@[simp] theorem envelopeBytes_length (sample : Bytes) (hostTimeMs : Nat) :
    (envelopeBytes sample hostTimeMs).length = ENVELOPE_BYTES := by
  rw [envelopeBytes, List.length_append, beBytes_length, beBytes_length]
  rfl

/-- **What starts with a header of the version is enveloped without an exception**, for every
host time that fits 64 bits. -/
theorem envelope_of_version {sample : Bytes} (hlength : HK_HEADER_BYTES ≤ sample.length)
    (hversion : (sampleHeader sample).version = HK_PROTOCOL_VERSION) {hostTimeMs : Nat}
    (hhost : hostTimeMs < 2 ^ 64) :
    envelope sample hostTimeMs = .ok (envelopeBytes sample hostTimeMs ++ sample) := by
  obtain ⟨_, _, hsequence, hseconds, _⟩ := sampleHeader_bounds sample
  have htime : (if (sampleHeader sample).seconds ≠ 0 then
      (sampleHeader sample).seconds * 1000 else hostTimeMs) < 256 ^ 8 := by
    split <;> omega
  rw [envelope, unpackFrom_of_length hlength]
  dsimp only
  rw [if_neg (not_not.mpr hversion), structPack_of_lt htime,
    structPack_of_lt (show (sampleHeader sample).sequence < 256 ^ 4 by omega)]
  rfl

/-- The same for an accepted sample. -/
theorem Sample.envelope_eq (s : Sample) {hostTimeMs : Nat} (hhost : hostTimeMs < 2 ^ 64) :
    envelope s.bytes hostTimeMs
      = .ok (beBytes 8 (if (sampleHeader s.bytes).seconds ≠ 0 then
            (sampleHeader s.bytes).seconds * 1000 else hostTimeMs)
          ++ beBytes 4 (sampleHeader s.bytes).sequence ++ s.bytes) :=
  envelope_of_version s.valid.length_ge s.valid.version_eq hhost

end KFsw.Ground
