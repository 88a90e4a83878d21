/-
  KFsw.Ground.Report — the mission database `tools/ground/hk-report.py` generates,
  and whether it reads the frame header as the other ground tools do.

  `buildXtce` declares the bridge's envelope and the housekeeping header first
  and then the entries of each report.  Descriptions are texts for a reader of
  the database and are left out.

  Main results:
    * `decode_hkFrame`      — decoding with the generated `hk_frame` container
      reads the envelope and the header fields, whatever reports follow;
    * `header_values`       — its values are the fields of the sample's header;
    * `headerAgreement_iff` — the database, the store and `describe` agree on a
      sample exactly when its flags are not those of a complete sample from an
      unset clock.
-/
import Mathlib.Data.List.Induction
import KFsw.Ground.Store
import KFsw.Lib.Xtce

namespace KFsw.Ground

open KFsw.Lib KFsw.Lib.Xtce

/-! ## §1. Report definitions. -/

/-- The value types of an entry that `load` accepts. -/
inductive EntryType where
  | u8 | u16 | u32 | u64
  | i8 | i16 | i32 | i64
  | x8 | x16 | x32 | x64
  | float | double
  deriving DecidableEq, Repr

/-- `TYPES`: width and signedness. -/
def TYPES : EntryType → Option (Nat × Bool)
  | .u8 => some (8, false)
  | .u16 => some (16, false)
  | .u32 => some (32, false)
  | .u64 => some (64, false)
  | .i8 => some (8, true)
  | .i16 => some (16, true)
  | .i32 => some (32, true)
  | .i64 => some (64, true)
  | .x8 => some (8, false)
  | .x16 => some (16, false)
  | .x32 => some (32, false)
  | .x64 => some (64, false)
  | .float => none
  | .double => none

/-- `FLOAT_TYPES`. -/
def FLOAT_TYPES : EntryType → Option Nat
  | .float => some 32
  | .double => some 64
  | _ => none

structure Calibration where
  intercept : Option ℚ
  slope : ℚ

/-- An entry of a report definition; `table` and `offset` place the parameter on the node. -/
structure ReportEntry where
  table : Nat
  offset : Nat
  parameter : String
  type : EntryType
  displayAs : Option String
  unit : Option String
  calibration : Option Calibration
  validRange : Option (ℚ × ℚ)

structure Report where
  report : Nat
  name : String
  entries : List ReportEntry

/-- `display_name`. -/
def displayName (entry : ReportEntry) : String := entry.displayAs.getD entry.parameter

/-! ## §2. The generated database. -/

/-- `integer_type`. -/
def integerType (name : String) (bits : Nat) (signed : Bool) (unit : Option String)
    (calibration : Option Calibration) (valid : Option (ℚ × ℚ)) : ParameterType :=
  match calibration with
  | none => ⟨name, .integer signed, unit, .integer bits signed [], valid⟩
  | some c =>
      ⟨name, .float 32, unit, .integer bits signed [(c.intercept.getD 0, 0), (c.slope, 1)], valid⟩

/-- `float_type`. -/
def floatType (name : String) (bits : Nat) (unit : Option String) : ParameterType :=
  ⟨name, .float bits, unit, .float bits, none⟩

def gsTimeType : ParameterType := integerType "gs_time_type" 64 false (some "ms") none none
def gsSequenceType : ParameterType := integerType "gs_sequence_type" 32 false none none none
def hkU8Type : ParameterType := integerType "hk_u8_type" 8 false none none none
def hkU16Type : ParameterType := integerType "hk_u16_type" 16 false none none none
def hkSecondsType : ParameterType := integerType "hk_seconds_type" 32 false (some "s") none none

def hkFlagsType : ParameterType :=
  ⟨"hk_flags_type", .boolean "complete" "incomplete", none, .integer 8 false [], none⟩

/-- `header`: the envelope and the frame header, shared by every report. -/
def header : List (String × String) :=
  [("gs_time_ms", "gs_time_type"), ("gs_sequence", "gs_sequence_type"),
   ("hk_version", "hk_u8_type"), ("hk_report", "hk_u8_type"), ("hk_sequence", "hk_u16_type"),
   ("hk_seconds", "hk_seconds_type"), ("hk_entry_count", "hk_u8_type"),
   ("hk_flags", "hk_flags_type")]

/-- The container of the envelope and the header. -/
def hkFrameContainer : SequenceContainer := ⟨"hk_frame", true, header.map Prod.fst, none⟩

/-- The database before any report is added. -/
def headerSystem : SpaceSystem :=
  { name := "kfsw"
    types := [gsTimeType, gsSequenceType, hkU8Type, hkU16Type, hkSecondsType, hkFlagsType]
    parameters := header.map fun h => ⟨h.1, h.2⟩
    containers := [hkFrameContainer] }

/-- The name of an entry's parameter. -/
def entryName (report : Report) (entry : ReportEntry) : String :=
  report.name ++ "_" ++ displayName entry

def entryType (report : Report) (entry : ReportEntry) : ParameterType :=
  let typeName := entryName report entry ++ "_type"
  match FLOAT_TYPES entry.type, TYPES entry.type with
  | some bits, _ => floatType typeName bits entry.unit
  | none, some (bits, signed) =>
      integerType typeName bits signed entry.unit entry.calibration entry.validRange
  -- never taken: every type is in one of the tables
  | none, none => integerType typeName 0 false none none none

/-- `add_report`. -/
def addReport (db : SpaceSystem) (report : Report) : SpaceSystem :=
  db.append (report.entries.map (entryType report))
    (report.entries.map fun e => ⟨entryName report e, entryName report e ++ "_type"⟩)
    [⟨report.name, false, report.entries.map (entryName report),
      some ⟨"hk_frame", ⟨"hk_report", report.report⟩⟩⟩]

/-- `build_xtce`. -/
def buildXtce (reports : List Report) : SpaceSystem := reports.foldl addReport headerSystem

/-! ## §3. Decoding the header. -/

/-- The header with its types. -/
def headerTyped : List (String × ParameterType) :=
  [("gs_time_ms", gsTimeType), ("gs_sequence", gsSequenceType), ("hk_version", hkU8Type),
   ("hk_report", hkU8Type), ("hk_sequence", hkU16Type), ("hk_seconds", hkSecondsType),
   ("hk_entry_count", hkU8Type), ("hk_flags", hkFlagsType)]

theorem headerSystem_resolves :
    ∀ e ∈ headerTyped, headerSystem.parameterType e.1 = some e.2 := by
  intro e he
  simp only [headerTyped, List.mem_cons, List.not_mem_nil, or_false] at he
  rcases he with rfl | rfl | rfl | rfl | rfl | rfl | rfl | rfl <;> rfl

/-- Reports only add declarations at the end. -/
theorem buildXtce_eq (reports : List Report) :
    ∃ types parameters containers,
      buildXtce reports = headerSystem.append types parameters containers := by
  induction reports using List.reverseRecOn with
  | nil => exact ⟨[], [], [], by simp [buildXtce, SpaceSystem.append]⟩
  | append_singleton reports report ih =>
    obtain ⟨types, parameters, containers, h⟩ := ih
    rw [buildXtce] at h ⊢
    rw [List.foldl_append, h, List.foldl_cons, List.foldl_nil, addReport]
    simp only [SpaceSystem.append, List.append_assoc]
    exact ⟨_, _, _, rfl⟩

/-- The entries of `hk_frame` are the header, whatever reports the database has. -/
theorem containerEntries_hkFrame (reports : List Report) :
    (buildXtce reports).containerEntries (buildXtce reports).containers.length "hk_frame"
      = some (headerTyped.map Prod.fst) := by
  obtain ⟨types, parameters, containers, hdb⟩ := buildXtce_eq reports
  rw [hdb, show (headerSystem.append types parameters containers).containers.length
    = containers.length + 1 by simp [SpaceSystem.append, headerSystem]]
  exact containerEntries_append (c := hkFrameContainer) rfl rfl _

/-- The header's entries lead to their types in every generated database. -/
theorem header_resolves (reports : List Report) :
    ∀ e ∈ headerTyped, (buildXtce reports).parameterType e.1 = some e.2 := by
  intro e he
  obtain ⟨types, parameters, containers, hdb⟩ := buildXtce_eq reports
  rw [hdb]
  exact parameterType_append (headerSystem_resolves e he)

/-- **Decoding with the generated `hk_frame`** reads the header types one after the other,
whatever reports the database has. -/
theorem decode_hkFrame (reports : List Report) (data : Bytes) (h : 22 ≤ data.length) :
    (buildXtce reports).decodeContainer "hk_frame" data = some (decodeTyped data 0 headerTyped) := by
  rw [SpaceSystem.decodeContainer, containerEntries_hkFrame]
  refine decodeEntries_eq _ _ _ _ (header_resolves reports) ?_
  show 0 + 176 ≤ _
  omega

/-- A field of a packet that has `before` in front of a sample. -/
theorem beBits_sample (before s : Bytes) (offset width : Nat)
    (h : offset + width ≤ s.length) :
    beBits (before ++ s) (8 * (before.length + offset)) (8 * width) = beField s offset width := by
  rw [beBits_bytes _ _ _ (by rw [List.length_append]; omega), beField_append]

/-- The raw flags are not zero exactly when a flag is set. -/
theorem flags_raw_eq_zero_iff (f : UInt8) : (DataEncoding.integer 8 false []).raw f.toNat = 0
    ↔ f = 0 := by
  show (f.toNat : Int) = 0 ↔ f = 0
  rw [← UInt8.toNat_inj, UInt8.toNat_zero, Int.natCast_eq_zero]

/-- **The values of the generated header** are the fields of the sample's header, after twelve
bytes of envelope; the flags read "incomplete" whenever any of them is set. -/
theorem header_values (before s : Bytes) (hbefore : before.length = ENVELOPE_BYTES)
    (hs : HK_HEADER_BYTES ≤ s.length) :
    let values := decodeTyped (before ++ s) 0 headerTyped
    valueOf values "hk_report" = some (.integer (sampleHeader s).report)
      ∧ valueOf values "hk_sequence" = some (.integer (sampleHeader s).sequence)
      ∧ valueOf values "hk_seconds" = some (.integer (sampleHeader s).seconds)
      ∧ valueOf values "hk_entry_count" = some (.integer (sampleHeader s).count)
      ∧ valueOf values "hk_flags"
          = some (.text (if (sampleHeader s).flags = 0 then "complete" else "incomplete")) := by
  intro values
  have hs10 : 10 ≤ s.length := hs
  have hfield : ∀ offset width, offset + width ≤ 10 →
      beBits (before ++ s) (8 * (12 + offset)) (8 * width) = beField s offset width := by
    intro offset width h
    rw [show 12 = before.length from hbefore.symm]
    exact beBits_sample before s offset width (by omega)
  have hbyte : ∀ offset, offset < 10 →
      beBits (before ++ s) (8 * (12 + offset)) 8 = (s.getD offset 0).toNat := by
    intro offset h
    rw [← beField_one s offset (by omega)]
    exact hfield offset 1 (by omega)
  -- the offset of each field is the sum of the widths before it
  refine ⟨?_, ?_, ?_, ?_, ?_⟩
  · show some (hkU8Type.value (beBits (before ++ s) (8 * (12 + 1)) 8)) = _
    rw [hbyte 1 (by decide)]
    rfl
  · show some (hkU16Type.value (beBits (before ++ s) (8 * (12 + 2)) (8 * 2))) = _
    rw [hfield 2 2 (by decide)]
    rfl
  · show some (hkSecondsType.value (beBits (before ++ s) (8 * (12 + 4)) (8 * 4))) = _
    rw [hfield 4 4 (by decide)]
    rfl
  · show some (hkU8Type.value (beBits (before ++ s) (8 * (12 + 8)) 8)) = _
    rw [hbyte 8 (by decide)]
    rfl
  · show some (hkFlagsType.value (beBits (before ++ s) (8 * (12 + 9)) 8)) = _
    rw [hbyte 9 (by decide)]
    show some (Value.text (if (DataEncoding.integer 8 false []).raw (s.getD 9 0).toNat = 0
      then "complete" else "incomplete")) = _
    simp only [flags_raw_eq_zero_iff]
    rfl

/-! ## §4. Agreement with the store and with `describe`. -/

/-- The ground decoders agree on a sample: the packet Yamcs gets is decoded by the generated
database into the report, sequence, seconds and value count of every row the store writes for
the sample, and into the complete or incomplete status of these rows and of the line `describe`
prints. -/
def HeaderAgreement (reports : List Report) (sample : Bytes) (hostTimeMs : Nat) : Prop :=
  ∃ packet values line, envelope sample hostTimeMs = .ok packet
    ∧ (buildXtce reports).decodeContainer "hk_frame" packet = some values
    ∧ describe sample = .ok line
    ∧ (valueOf values "hk_flags" = some (.text "incomplete")
        ↔ " incomplete".toList <:+: line.toList)
    ∧ (valueOf values "hk_flags" = some (.text "complete")
        ↔ ¬ " incomplete".toList <:+: line.toList)
    ∧ ∀ (store : Store) (db db' : Database) (node receivedMs : Nat),
        store.record db ⟨node, sample, receivedMs⟩ = .ok db' →
        ∃ row : SampleRow, db'.sample.contents = db.sample.contents ++ [row]
          ∧ valueOf values "hk_report" = some (.integer row.report)
          ∧ valueOf values "hk_sequence" = some (.integer row.sequence)
          ∧ valueOf values "hk_seconds" = some (.integer row.nodeSeconds)
          ∧ valueOf values "hk_entry_count" = some (.integer row.valueCount)
          ∧ (valueOf values "hk_flags" = some (.text "incomplete") ↔ row.incomplete = 1)
          ∧ (valueOf values "hk_flags" = some (.text "complete") ↔ row.incomplete = 0)

/-- What the three tools make of an accepted sample. -/
theorem ground_reads (reports : List Report) (s : Sample) {hostTimeMs : Nat}
    (hhost : hostTimeMs < 2 ^ 64) :
    ∃ before : Bytes, before.length = ENVELOPE_BYTES
      ∧ envelope s.bytes hostTimeMs = .ok (before ++ s.bytes)
      ∧ (buildXtce reports).decodeContainer "hk_frame" (before ++ s.bytes)
          = some (decodeTyped (before ++ s.bytes) 0 headerTyped)
      ∧ describe s.bytes = .ok (describeLine (sampleHeader s.bytes) s.bytes.length) := by
  have hlen := s.valid.length_ge
  refine ⟨_, ?_, s.envelope_eq hhost, decode_hkFrame reports _ ?_, ?_⟩
  · rw [List.length_append, beBytes_length, beBytes_length]
    rfl
  · simp only [List.length_append, beBytes_length]
    have : HK_HEADER_BYTES = 10 := rfl
    omega
  · rw [describe, unpackFrom_of_length hlen]

/-- The status text of the flags, compared. -/
theorem status_incomplete_iff (f : UInt8) :
    (some (Value.text (if f = 0 then "complete" else "incomplete"))
        = some (Value.text "incomplete") ↔ f ≠ 0)
      ∧ (some (Value.text (if f = 0 then "complete" else "incomplete"))
        = some (Value.text "complete") ↔ f = 0) := by
  by_cases hf : f = 0
  · simp [hf]
  · simp [hf]

/-- Where the decoders agree, the database's status and the printed mark tell the same. -/
theorem HeaderAgreement.flags_iff {reports : List Report} {sample : Bytes} {hostTimeMs : Nat}
    (hv : ValidSample sample) (hhost : hostTimeMs < 2 ^ 64)
    (h : HeaderAgreement reports sample hostTimeMs) :
    (sampleHeader sample).flags ≠ 0 ↔ (sampleHeader sample).flags &&& HK_FLAG_INCOMPLETE ≠ 0 := by
  obtain ⟨before, hbefore, henv, hdec, hdesc⟩ := ground_reads reports ⟨sample, hv⟩ hhost
  obtain ⟨_, _, _, _, hflags⟩ := header_values before sample hbefore hv.length_ge
  obtain ⟨packet, values, line, hpacket, hvalues, hline, hinc, _⟩ := h
  rw [henv] at hpacket
  injection hpacket with hpacket
  rw [← hpacket, hdec] at hvalues
  injection hvalues with hvalues
  rw [hdesc] at hline
  injection hline with hline
  rwa [← hvalues, hflags, (status_incomplete_iff _).1, ← hline, describeLine_mark_iff] at hinc

/-- **When the ground decoders agree on the header**: on every accepted sample but those whose
flags byte is 2, a complete sample of a node whose clock was never set.  The database calls
these incomplete; the store and `describe` do not. -/
theorem headerAgreement_iff (reports : List Report) (sample : Bytes) (hostTimeMs : Nat)
    (hs : validateSample sample = .ok ()) (hhost : hostTimeMs < 2 ^ 64) :
    HeaderAgreement reports sample hostTimeMs ↔ (sampleHeader sample).flags ≠ 2 := by
  have hv := (validateSample_ok_iff sample).mp hs
  -- what each of the three descriptions makes of the sample
  obtain ⟨before, hbefore, henv, hdec, hdesc⟩ := ground_reads reports ⟨sample, hv⟩ hhost
  obtain ⟨hreport, hsequence, hseconds, hcount, hflags⟩ :=
    header_values before sample hbefore hv.length_ge
  have hmark := describeLine_mark_iff (sampleHeader sample) sample.length
  have hstatus := status_incomplete_iff (sampleHeader sample).flags
  constructor
  · intro h htwo
    -- decoded as incomplete, printed without the mark
    have hsame := h.flags_iff hv hhost
    rw [htwo] at hsame
    exact absurd hsame (by decide)
  · intro hne
    -- with the clock flag alone excluded, some flag is set exactly when the low one is
    have hlow : (sampleHeader sample).flags ≠ 0
        ↔ (sampleHeader sample).flags &&& HK_FLAG_INCOMPLETE ≠ 0 := by
      rcases flags_cases _ hv.flags_low with hf | hf | hf | hf
      · rw [hf]; decide
      · rw [hf]; decide
      · exact absurd hf hne
      · rw [hf]; decide
    refine ⟨_, _, _, henv, hdec, hdesc, ?_, ?_, ?_⟩
    · rw [hflags, hstatus.1, hmark, hlow]
    · rw [hflags, hstatus.2, hmark, ← hlow, not_not]
    · intro store db db' node receivedMs hrec
      obtain ⟨_, _, _, rfl⟩ := (record_ok_iff _ _ _ _).mp hrec
      refine ⟨_, Table.contents_insert _ _, hreport, hsequence, hseconds, hcount, ?_, ?_⟩
      · rw [hflags, hstatus.1, (row_incomplete _ _ _).1, hlow]
      · rw [hflags, hstatus.2, (row_incomplete _ _ _).2, ← hlow, not_not]

/-- A complete sample of one value, stamped by a clock. -/
theorem headerAgreement_iff_complete :
    HeaderAgreement [] [1, 0, 0, 7, 0, 0, 0, 1, 1, 0, 5] 0 :=
  (headerAgreement_iff [] [1, 0, 0, 7, 0, 0, 0, 1, 1, 0, 5] 0 (by decide +kernel)
    (by decide)).mpr (by decide)

/-- A complete sample of a node whose clock was never set: accepted, printed without the mark,
and decoded as incomplete. -/
theorem unset_clock_disagrees :
    validateSample [1, 0, 0, 7, 0, 0, 0, 0, 1, 2, 5] = .ok ()
      ∧ describe [1, 0, 0, 7, 0, 0, 0, 0, 1, 2, 5]
          = .ok "report 0 seq 7 at clock unset v1 1 values 11 bytes"
      ∧ ¬ HeaderAgreement [] [1, 0, 0, 7, 0, 0, 0, 0, 1, 2, 5] 0 := by
  refine ⟨by decide +kernel, by decide +kernel, ?_⟩
  intro h
  have hv : ValidSample [1, 0, 0, 7, 0, 0, 0, 0, 1, 2, 5] :=
    (validateSample_ok_iff _).mp (by decide +kernel)
  have hsame := h.flags_iff hv (by decide)
  rw [show (sampleHeader [1, 0, 0, 7, 0, 0, 0, 0, 1, 2, 5]).flags = 2 by decide] at hsame
  exact absurd (hsame.mp (by decide)) (by decide)

end KFsw.Ground
