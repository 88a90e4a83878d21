/-
  KFsw.Ground.ReportContainer — the container `hk-report.py` generates for a report
  decodes what the node packs.

  A node packs the values of a report big endian, one after the other; the bridge
  puts its envelope in front of the header and the values.  The generated container
  reads the envelope and the header through its base, and then its own entries.

  Main results:
    * `entryType_width`     — the encoding of an entry is as wide as
      `payload_bytes` counts it;
    * `entryType_raw`       — it reads the packed value back, and the calibrated one;
    * `addReport_resolves`  — with distinct names every entry leads to its type;
    * `decodeReport_exact`  — all of it, with the place of each entry and the
      length of the packet.
-/
import KFsw.Ground.Report

namespace KFsw.Ground

open KFsw.Lib KFsw.Lib.Xtce

/-! ## §1. Widths and packed values. -/

/-- The bits of a value, as `payload_bytes` looks them up. -/
def entryBits (t : EntryType) : Nat :=
  match TYPES t with
  | some (bits, _) => bits
  | none => (FLOAT_TYPES t).getD 0

/-- `payload_bytes`. -/
def payloadBytes (report : Report) : Nat := (report.entries.map fun e => entryBits e.type / 8).sum

/-- The raw values of a type: an unsigned or a two's complement number, or the bits of a
floating-point number. -/
def InRange (t : EntryType) (x : Int) : Prop :=
  match TYPES t with
  | some (bits, true) => -2 ^ (bits - 1) ≤ x ∧ x < 2 ^ (bits - 1)
  | some (bits, false) => 0 ≤ x ∧ x < 2 ^ bits
  | none => 0 ≤ x ∧ x < 2 ^ entryBits t

instance (t : EntryType) (x : Int) : Decidable (InRange t x) := by
  unfold InRange
  split <;> infer_instance

/-- A raw value as the node packs it, big endian. -/
def packValue (t : EntryType) (x : Int) : Bytes :=
  beBytes (entryBits t / 8) (x % 2 ^ entryBits t).toNat

/-- The values of a report, one after the other. -/
def packValues (entries : List ReportEntry) (values : List Int) : Bytes :=
  (List.zipWith (fun e x => packValue e.type x) entries values).flatten

/-- What a ground system shows for a raw value. -/
def entryValue (e : ReportEntry) (x : Int) : Value :=
  match FLOAT_TYPES e.type, e.calibration with
  | some _, _ => .floating x.toNat
  | none, none => .integer x
  | none, some c => .calibrated (c.intercept.getD 0 + c.slope * x)

/-- Every type fills whole bytes. -/
theorem entryBits_eq (t : EntryType) : 8 * (entryBits t / 8) = entryBits t := by
  cases t <;> rfl

/-- **The generated encoding** is as wide as the value. -/
theorem entryType_width (report : Report) (e : ReportEntry) :
    (entryType report e).encoding.sizeInBits = entryBits e.type := by
  obtain ⟨table, offset, parameter, type, displayAs, unit, calibration, validRange⟩ := e
  cases calibration with
  | none => cases type <;> rfl
  | some c => cases type <;> rfl

/-- A two's complement number is read back from its low bits. -/
theorem twosComplement_emod {n : Nat} (hn : 0 < n) {x : Int} (hlow : -2 ^ (n - 1) ≤ x)
    (hhigh : x < 2 ^ (n - 1)) : twosComplement n (x % 2 ^ n).toNat = x := by
  obtain ⟨m, rfl⟩ : ∃ m, n = m + 1 := ⟨n - 1, by omega⟩
  rw [Nat.add_sub_cancel] at hlow hhigh
  have hpow : (2 : Int) ^ (m + 1) = 2 * 2 ^ m := by ring
  have hpos : (0 : Int) < 2 ^ m := by positivity
  have hcast : ((2 ^ m : Nat) : Int) = 2 ^ m := by push_cast; rfl
  unfold twosComplement
  rw [Nat.add_sub_cancel]
  by_cases hneg : x < 0
  · have hmod : x % 2 ^ (m + 1) = x + 2 ^ (m + 1) := by
      rw [← Int.add_emod_right, Int.emod_eq_of_lt (by omega) (by omega)]
    rw [hmod, if_neg (by omega), Int.toNat_of_nonneg (by omega)]
    omega
  · have hmod : x % 2 ^ (m + 1) = x := Int.emod_eq_of_lt (by omega) (by omega)
    rw [hmod, if_pos (by omega), Int.toNat_of_nonneg (by omega)]

/-- A number in range is its own low bits. -/
theorem toNat_emod {n : Nat} {x : Int} (hlow : 0 ≤ x) (hhigh : x < 2 ^ n) :
    (x % 2 ^ n).toNat = x.toNat := by
  rw [Int.emod_eq_of_lt hlow hhigh]

/-- The table a type stands in. -/
theorem type_cases (t : EntryType) :
    (∃ bits signed, TYPES t = some (bits, signed) ∧ FLOAT_TYPES t = none ∧ entryBits t = bits
        ∧ 0 < bits)
      ∨ ∃ bits, TYPES t = none ∧ FLOAT_TYPES t = some bits ∧ entryBits t = bits := by
  cases t
  case float => exact .inr ⟨32, rfl, rfl, rfl⟩
  case double => exact .inr ⟨64, rfl, rfl, rfl⟩
  all_goals exact .inl ⟨_, _, rfl, rfl, rfl, by decide⟩

/-- What an integer type makes of raw bits, with or without a calibration. -/
theorem integerType_value (name : String) {bits n : Nat} {signed : Bool} (unit : Option String)
    (calibration : Option Calibration) (valid : Option (ℚ × ℚ)) {x : Int}
    (hraw : (DataEncoding.integer bits signed []).raw n = x) :
    (integerType name bits signed unit calibration valid).encoding.raw n = x
      ∧ (integerType name bits signed unit calibration valid).value n
        = match calibration with
          | none => .integer x
          | some c => .calibrated (c.intercept.getD 0 + c.slope * x) := by
  cases calibration with
  | none => exact ⟨hraw, congrArg Value.integer hraw⟩
  | some c =>
    have hterms : (DataEncoding.integer bits signed [(c.intercept.getD 0, 0), (c.slope, 1)]).raw n
        = x := by
      rw [← hraw]
      cases signed <;> rfl
    refine ⟨hterms, ?_⟩
    show Value.calibrated ([(c.intercept.getD 0, 0), (c.slope, 1)].map fun t => t.1 *
      (((DataEncoding.integer bits signed [(c.intercept.getD 0, 0), (c.slope, 1)]).raw n : Int) : ℚ)
        ^ t.2).sum = _
    rw [hterms]
    simp

/-- **A packed value is read back**, raw and as it is shown. -/
theorem entryType_raw (report : Report) (e : ReportEntry) {x : Int} (hx : InRange e.type x) :
    (entryType report e).encoding.raw (x % 2 ^ entryBits e.type).toNat = x
      ∧ (entryType report e).value (x % 2 ^ entryBits e.type).toNat = entryValue e x := by
  unfold InRange at hx
  unfold entryType entryValue
  rcases type_cases e.type with ⟨bits, signed, htypes, hfloat, hbits, hpos⟩ | ⟨bits, htypes, hfloat, hbits⟩
  · rw [htypes] at hx
    rw [htypes, hfloat, hbits]
    have hraw : (DataEncoding.integer bits signed []).raw (x % 2 ^ bits).toNat = x := by
      cases signed with
      | true => exact twosComplement_emod hpos hx.1 hx.2
      | false =>
        show (((x % 2 ^ bits).toNat : Nat) : Int) = x
        rw [toNat_emod hx.1 hx.2, Int.toNat_of_nonneg hx.1]
    obtain ⟨h1, h2⟩ := integerType_value (entryName report e ++ "_type") e.unit e.calibration
      e.validRange hraw
    refine ⟨h1, h2.trans ?_⟩
    cases e.calibration with
    | none => rfl
    | some c => rfl
  · rw [htypes, hbits] at hx
    rw [htypes, hfloat, hbits, toNat_emod hx.1 hx.2]
    exact ⟨Int.toNat_of_nonneg hx.1, rfl⟩

/-! ## §2. Names and types of the generated database. -/

/-- A report is added to what the reports before it generate. -/
theorem buildXtce_concat (reports : List Report) (last : Report) :
    buildXtce (reports ++ [last]) = addReport (buildXtce reports) last := by
  rw [buildXtce, List.foldl_append]
  rfl

/-- What adding a report brings about, and adding others keeps, holds of the whole database. -/
theorem buildXtce_of_mem (holds : SpaceSystem → Prop) {reports : List Report} {report : Report}
    (hreport : report ∈ reports) (hadded : ∀ system, holds (addReport system report))
    (hkeeps : ∀ system other, holds system → holds (addReport system other)) :
    holds (buildXtce reports) := by
  induction reports using List.reverseRecOn with
  | nil => exact absurd hreport (by simp)
  | append_singleton reports last ih =>
    rw [buildXtce_concat]
    rcases List.mem_append.mp hreport with hbefore | hlast
    · exact hkeeps _ last (ih hbefore)
    · obtain rfl := List.mem_singleton.mp hlast
      exact hadded _

/-- The declarations of a report's entries are in the database. -/
theorem mem_buildXtce {reports : List Report} {report : Report} (hreport : report ∈ reports)
    {e : ReportEntry} (he : e ∈ report.entries) :
    entryType report e ∈ (buildXtce reports).types
      ∧ ⟨entryName report e, entryName report e ++ "_type"⟩ ∈ (buildXtce reports).parameters := by
  refine buildXtce_of_mem (fun system => entryType report e ∈ system.types
    ∧ ⟨entryName report e, entryName report e ++ "_type"⟩ ∈ system.parameters) hreport ?_ ?_
  · intro system
    exact ⟨List.mem_append_right _ (List.mem_map_of_mem he),
      List.mem_append_right _ (List.mem_map_of_mem he)⟩
  · rintro system other ⟨htype, hparameter⟩
    exact ⟨List.mem_append_left _ htype, List.mem_append_left _ hparameter⟩

theorem entryType_name (report : Report) (e : ReportEntry) :
    (entryType report e).name = entryName report e ++ "_type" := by
  unfold entryType integerType
  rcases type_cases e.type with ⟨bits, signed, htypes, hfloat, -, -⟩ | ⟨bits, htypes, hfloat, -⟩
  · rw [htypes, hfloat]
    dsimp only
    split <;> rfl
  · rw [htypes, hfloat]
    rfl

/-- The generated names are distinct, those of the header included. -/
structure DistinctNames (reports : List Report) : Prop where
  parameters : ((buildXtce reports).parameters.map (·.name)).Nodup
  types : ((buildXtce reports).types.map (·.name)).Nodup

/-- **Every entry leads to its type.** -/
theorem addReport_resolves {reports : List Report} (hnames : DistinctNames reports)
    {report : Report} (hreport : report ∈ reports) {e : ReportEntry} (he : e ∈ report.entries) :
    (buildXtce reports).parameterType (entryName report e) = some (entryType report e) := by
  obtain ⟨htype, hparameter⟩ := mem_buildXtce hreport he
  exact parameterType_of_nodup hnames.parameters hnames.types hparameter htype
    (entryType_name report e).symm

/-- The container `add_report` generates. -/
def reportContainer (report : Report) : SequenceContainer :=
  ⟨report.name, false, report.entries.map (entryName report),
    some ⟨"hk_frame", ⟨"hk_report", report.report⟩⟩⟩

/-- It is in the database. -/
theorem mem_containers {reports : List Report} {report : Report} (hreport : report ∈ reports) :
    reportContainer report ∈ (buildXtce reports).containers :=
  buildXtce_of_mem (fun system => reportContainer report ∈ system.containers) hreport
    (fun _ => List.mem_append_right _ List.mem_cons_self) fun _ _ => List.mem_append_left _

/-- The entries of a report with their types. -/
def reportTyped (report : Report) : List (String × ParameterType) :=
  report.entries.map fun e => (entryName report e, entryType report e)

/-- Its entries are those of the header and then its own. -/
theorem entriesOf_reportContainer (reports : List Report) (report : Report) :
    (buildXtce reports).entriesOf (reportContainer report)
      = some ((headerTyped ++ reportTyped report).map Prod.fst) := by
  unfold SpaceSystem.entriesOf reportContainer
  dsimp only
  rw [containerEntries_hkFrame, Option.map_some, List.map_append, reportTyped, List.map_map]
  rfl

/-! ## §3. Decoding a packed report. -/

/-- Where the entry of an index starts among the packed values, in bytes. -/
def valueOffset (report : Report) (i : Nat) : Nat :=
  ((report.entries.take i).map fun e => entryBits e.type / 8).sum

theorem packValue_length (t : EntryType) (x : Int) : (packValue t x).length = entryBits t / 8 :=
  beBytes_length _ _

/-- The packed values before an index, counted. -/
theorem packValues_take {entries : List ReportEntry} {values : List Int}
    (hlength : entries.length = values.length) (i : Nat) :
    (((List.zipWith (fun e x => packValue e.type x) entries values).take i).map List.length).sum
      = ((entries.take i).map fun e => entryBits e.type / 8).sum := by
  induction entries generalizing values i with
  | nil => rw [List.zipWith_nil_left, List.take_nil, List.take_nil]; rfl
  | cons e entries ih =>
    cases values with
    | nil => exact absurd hlength (by simp)
    | cons x values =>
      cases i with
      | zero => rfl
      | succ i =>
        rw [List.zipWith_cons_cons, List.take_succ_cons, List.take_succ_cons, List.map_cons,
          List.map_cons, List.sum_cons, List.sum_cons, packValue_length,
          ih (Nat.succ_injective hlength)]

theorem packValues_length {report : Report} {values : List Int}
    (hlength : report.entries.length = values.length) :
    (packValues report.entries values).length = payloadBytes report := by
  have htake := packValues_take hlength report.entries.length
  rw [List.take_of_length_le (Nat.le_refl _), List.take_of_length_le
    (by rw [List.length_zipWith]; exact Nat.min_le_left _ _)] at htake
  rw [packValues, List.length_flatten, htake]
  rfl

/-- The widths of some entries are those of their types. -/
theorem widthSum_reportTyped (report : Report) (entries : List ReportEntry) :
    widthSum (entries.map fun e => (entryName report e, entryType report e))
      = 8 * (entries.map fun e => entryBits e.type / 8).sum := by
  induction entries with
  | nil => rfl
  | cons e entries ih =>
    unfold widthSum at ih ⊢
    rw [List.map_cons, List.map_cons, List.sum_cons, ih, List.map_cons, List.sum_cons,
      entryType_width, Nat.mul_add, entryBits_eq]

/-- The bits of an entry in the packet are its packed value. -/
theorem beBits_packed {report : Report} {values : List Int}
    (hlength : report.entries.length = values.length) (front : Bytes) {i : Nat} {e : ReportEntry}
    {x : Int} (he : report.entries[i]? = some e) (hx : values[i]? = some x) :
    beBits (front ++ packValues report.entries values)
        (8 * (front.length + valueOffset report i)) (entryBits e.type)
      = (x % 2 ^ entryBits e.type).toNat := by
  have hchunk : (List.zipWith (fun e x => packValue e.type x) report.entries values)[i]?
      = some (packValue e.type x) := by
    rw [List.getElem?_zipWith, he, hx]
  have hfield := beField_flatten front hchunk
  rw [packValues_take hlength, packValue_length] at hfield
  -- the packed value lies inside the packet
  have hinside : front.length + valueOffset report i + entryBits e.type / 8
      ≤ (front ++ packValues report.entries values).length := by
    have hsum : valueOffset report (i + 1) = valueOffset report i + entryBits e.type / 8 := by
      unfold valueOffset
      rw [List.take_add_one, he, Option.toList_some, List.map_append, List.sum_append]
      rfl
    have hle : valueOffset report (i + 1) ≤ payloadBytes report := by
      unfold valueOffset payloadBytes
      conv_rhs => rw [← List.take_append_drop (i + 1) report.entries]
      rw [List.map_append, List.sum_append]
      exact Nat.le_add_right _ _
    rw [List.length_append, packValues_length hlength]
    omega
  have hwhole : x % 2 ^ entryBits e.type < 2 ^ entryBits e.type := Int.emod_lt_of_pos x (by positivity)
  have hfits : (x % 2 ^ entryBits e.type).toNat < 256 ^ (entryBits e.type / 8) := by
    rw [show 256 = 2 ^ 8 by rfl, ← pow_mul, entryBits_eq]
    have hcast : ((2 ^ entryBits e.type : Nat) : Int) = 2 ^ entryBits e.type := by push_cast; rfl
    omega
  rw [← entryBits_eq e.type, beBits_bytes _ _ _ hinside, entryBits_eq]
  exact hfield.trans (beNat_beBytes_of_lt hfits)

/-- The header's entries are as wide as the envelope and the header. -/
theorem widthSum_headerTyped :
    widthSum headerTyped = 8 * (ENVELOPE_BYTES + HK_HEADER_BYTES) := rfl

/-- The widths of the first entries of a packet. -/
theorem widthSum_take (report : Report) (i : Nat) :
    widthSum ((headerTyped ++ reportTyped report).take (headerTyped.length + i))
      = 8 * (ENVELOPE_BYTES + HK_HEADER_BYTES + valueOffset report i) := by
  have htake := widthSum_reportTyped report (report.entries.take i)
  have hheader := widthSum_headerTyped
  rw [List.take_length_add_append]
  unfold widthSum at hheader htake ⊢
  rw [List.map_append, List.sum_append, hheader, reportTyped, ← List.map_take, htake, valueOffset]
  omega

/-- The widths of all entries of a packet. -/
theorem widthSum_packet (report : Report) :
    widthSum (headerTyped ++ reportTyped report)
      = 8 * (ENVELOPE_BYTES + HK_HEADER_BYTES + payloadBytes report) := by
  have htotal := widthSum_reportTyped report report.entries
  have hheader := widthSum_headerTyped
  unfold widthSum at htotal hheader ⊢
  rw [List.map_append, List.sum_append, hheader, reportTyped, htotal, payloadBytes]
  omega

/-- The entry at a place behind the header is the report's. -/
theorem typed_getElem? (report : Report) {i : Nat} {e : ReportEntry}
    (he : report.entries[i]? = some e) :
    (headerTyped ++ reportTyped report)[headerTyped.length + i]?
      = some (entryName report e, entryType report e) := by
  rw [List.getElem?_append_right (Nat.le_add_right _ _), Nat.add_sub_cancel_left, reportTyped,
    List.getElem?_map, he]
  rfl

/-- A generated container decodes a packet that is long enough with its typed entries. -/
theorem decodeWith_reportContainer {reports : List Report} (hnames : DistinctNames reports)
    {report : Report} (hreport : report ∈ reports) {packet : Bytes}
    (hpacket : packet.length = ENVELOPE_BYTES + HK_HEADER_BYTES + payloadBytes report) :
    (buildXtce reports).decodeWith (reportContainer report) packet
      = some (decodeTyped packet 0 (headerTyped ++ reportTyped report)) := by
  rw [SpaceSystem.decodeWith, entriesOf_reportContainer]
  refine decodeEntries_eq _ _ _ _ ?_ ?_
  · intro entry hentry
    rcases List.mem_append.mp hentry with hentry | hentry
    · exact header_resolves reports entry hentry
    · obtain ⟨e, he, rfl⟩ := List.mem_map.mp hentry
      exact addReport_resolves hnames hreport he
  · show 0 + widthSum (headerTyped ++ reportTyped report) ≤ _
    rw [widthSum_packet, hpacket, Nat.zero_add]

/-- The value that a typed entry behind the header decodes to. -/
theorem decodeTyped_packed {report : Report} {values : List Int}
    (hvalues : List.Forall₂ (fun e x => InRange e.type x) report.entries values) {front : Bytes}
    (hfront : front.length = ENVELOPE_BYTES + HK_HEADER_BYTES) {i : Nat} {e : ReportEntry} {x : Int}
    (he : report.entries[i]? = some e) (hx : values[i]? = some x) :
    (decodeTyped (front ++ packValues report.entries values) 0
        (headerTyped ++ reportTyped report))[headerTyped.length + i]?
      = some ⟨entryName report e,
        8 * (ENVELOPE_BYTES + HK_HEADER_BYTES + valueOffset report i), x, entryValue e x⟩ := by
  have hrange : InRange e.type x := by
    obtain ⟨hi, rfl⟩ := List.getElem?_eq_some_iff.mp he
    obtain ⟨hi', rfl⟩ := List.getElem?_eq_some_iff.mp hx
    exact (List.forall₂_iff_get.mp hvalues).2 i hi hi'
  have hdecoded := decodeTyped_getElem? (front ++ packValues report.entries values) 0
    (typed_getElem? report he)
  dsimp only at hdecoded
  rw [widthSum_take, Nat.zero_add, entryType_width, ← hfront,
    beBits_packed hvalues.length_eq front he hx] at hdecoded
  obtain ⟨hraw, hshown⟩ := entryType_raw report e hrange
  rw [hdecoded, hraw, hshown, hfront]

/-- **The generated container decodes what the node packs.**  The packet of a header and packed
values is as long as the tool says; decoding it with the report's container gives the entries of
the header and then, for each entry, its value at its place. -/
theorem decodeReport_exact {reports : List Report} (hnames : DistinctNames reports)
    {report : Report} (hreport : report ∈ reports) {header : Bytes} {values : List Int}
    (hheader : header.length = HK_HEADER_BYTES)
    (hversion : (sampleHeader header).version = HK_PROTOCOL_VERSION)
    {hostTimeMs : Nat} (hhost : hostTimeMs < 2 ^ 64)
    (hvalues : List.Forall₂ (fun e x => InRange e.type x) report.entries values) :
    reportContainer report ∈ (buildXtce reports).containers
      ∧ ∃ packet decoded,
        envelope (header ++ packValues report.entries values) hostTimeMs = .ok packet
          ∧ packet.length = ENVELOPE_BYTES + HK_HEADER_BYTES + payloadBytes report
          ∧ (buildXtce reports).decodeWith (reportContainer report) packet = some decoded
          ∧ decoded.map Decoded.name
            = (headerTyped.map Prod.fst) ++ report.entries.map (entryName report)
          ∧ ∀ i e x, report.entries[i]? = some e → values[i]? = some x →
            decoded[headerTyped.length + i]?
              = some ⟨entryName report e,
                8 * (ENVELOPE_BYTES + HK_HEADER_BYTES + valueOffset report i), x, entryValue e x⟩ := by
  refine ⟨mem_containers hreport, ?_⟩
  have hheader10 : header.length = 10 := hheader
  let sample := header ++ packValues report.entries values
  have hsample : HK_HEADER_BYTES ≤ sample.length := by
    rw [List.length_append, hheader]
    exact Nat.le_add_right _ _
  have hfirst : (sampleHeader sample).version = HK_PROTOCOL_VERSION := by
    rw [← hversion]
    obtain ⟨b, rest, rfl⟩ := List.exists_cons_of_length_pos (l := header) (by omega)
    rfl
  have henvelope := envelope_of_version hsample hfirst hhost
  -- the envelope and the header stand in front of the values
  let front := envelopeBytes sample hostTimeMs ++ header
  have hfront : front.length = ENVELOPE_BYTES + HK_HEADER_BYTES := by
    rw [List.length_append, envelopeBytes_length, hheader]
  have hpacket : envelopeBytes sample hostTimeMs ++ sample = front ++ packValues report.entries values :=
    (List.append_assoc _ _ _).symm
  rw [hpacket] at henvelope
  have hlength : (front ++ packValues report.entries values).length
      = ENVELOPE_BYTES + HK_HEADER_BYTES + payloadBytes report := by
    rw [List.length_append, hfront, packValues_length hvalues.length_eq]
  refine ⟨_, decodeTyped (front ++ packValues report.entries values) 0
    (headerTyped ++ reportTyped report), henvelope, hlength,
    decodeWith_reportContainer hnames hreport hlength, ?_, ?_⟩
  · rw [decodeTyped_names, List.map_append, reportTyped, List.map_map]
    rfl
  · intro i e x he hx
    exact decodeTyped_packed hvalues hfront he hx

/-- A report of a signed, a calibrated and a floating-point value. -/
def mixedReport : Report :=
  ⟨2, "mixed", [⟨1, 0, "rate", .i8, none, none, none, none⟩,
    ⟨1, 2, "volts", .u16, none, some "V", some ⟨none, 1 / 1000⟩, none⟩,
    ⟨1, 4, "gain", .float, some "g", none, none, none⟩]⟩

/-- The second value starts behind the envelope, the header and one byte. -/
theorem decodeReport_exact_mixed :
    ∃ packet decoded,
      envelope ([1, 2, 0, 7, 0, 0, 0, 1, 3, 0] ++ packValues mixedReport.entries [-3, 500, 1065353216]) 0
          = .ok packet
        ∧ packet.length = 29
        ∧ (buildXtce [mixedReport]).decodeWith (reportContainer mixedReport) packet = some decoded
        ∧ decoded[9]? = some ⟨"mixed_volts", 8 * 23, 500, .calibrated (0 + 1 / 1000 * 500)⟩ := by
  have hnames : DistinctNames [mixedReport] := ⟨by decide +kernel, by decide +kernel⟩
  have hvalues : List.Forall₂ (fun e x => InRange e.type x) mixedReport.entries
      [-3, 500, 1065353216] :=
    .cons (by decide) (.cons (by decide) (.cons (by decide) .nil))
  obtain ⟨-, packet, decoded, henvelope, hlength, hdecoded, -, hentry⟩ :=
    @decodeReport_exact [mixedReport] hnames mixedReport List.mem_cons_self
      [1, 2, 0, 7, 0, 0, 0, 1, 3, 0] [-3, 500, 1065353216] rfl rfl 0 (by decide) hvalues
  exact ⟨packet, decoded, henvelope, hlength, hdecoded, hentry 1 _ _ rfl rfl⟩

end KFsw.Ground
