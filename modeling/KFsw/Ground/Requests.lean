/-
  KFsw.Ground.Requests — what the node reads in a request `build_request` frames.

  A `Request` is a request in range.  Its frame is the CSP header, the payload, and
  two checksums, the outer one over the inner one; a receiver takes them off one
  after the other.

  Main results:
    * `buildRequest_eq`   — a request in range is framed without an exception;
    * `Request.read_frame` — the reader, the header and the two checksums give its
      header and its payload back;
    * `buildRequest_read` — all of it, and that different requests differ in their
      bytes.
-/
import KFsw.Ground.Decode

namespace KFsw.Ground

open KFsw.Lib

/-! ## §1. Requests in range. -/

/-- A request whose fields fit the header of its version and the payload. -/
structure Request (v : CspVersion) where
  source : Nat
  destination : Nat
  hkPort : Nat
  sport : Nat
  report : Nat
  count : Nat
  firstAge : Nat
  classMask : Option Nat
  source_le : source ≤ cspMaxNode v
  destination_le : destination ≤ cspMaxNode v
  hkPort_le : hkPort ≤ 63
  sport_le : sport ≤ 63
  report_le : report ≤ 15
  count_le : count ≤ 255
  firstAge_le : firstAge ≤ 65535
  classMask_le : ∀ mask, classMask = some mask → mask ≤ 255

namespace Request

variable {v : CspVersion} (r : Request v)

/-- The header of a request: to the housekeeping port, with the CSP checksum. -/
def header : CspHeader := ⟨r.destination, r.source, r.hkPort, r.sport, CSP_FCRC32⟩

/-- The payload: version, report, count and first age, and a mask behind report 255. -/
def payload : Bytes :=
  match r.classMask with
  | none => beBytes 1 1 ++ beBytes 1 r.report ++ beBytes 1 r.count ++ beBytes 2 r.firstAge
  | some mask =>
    beBytes 1 1 ++ beBytes 1 255 ++ beBytes 1 r.count ++ beBytes 2 r.firstAge ++ beBytes 1 mask

/-- The payload with its checksum, and the outer checksum behind both. -/
def body : Bytes := r.payload ++ crc32 r.payload ++ crc32 (r.payload ++ crc32 r.payload)

/-- The frame, before it is escaped. -/
def frame : Bytes := beBytes (cspHeaderBytes v) (cspSum v r.header) ++ r.body

/-- `build_request` of the request's fields. -/
def build : Except PyError Bytes :=
  buildRequest v r.hkPort r.source r.destination r.sport r.report r.count r.firstAge r.classMask

/-- The fields two requests carry agree; a mask takes the place of the report. -/
def SameFields (r r' : Request v) : Prop :=
  r.source = r'.source ∧ r.destination = r'.destination ∧ r.hkPort = r'.hkPort
    ∧ r.sport = r'.sport ∧ r.count = r'.count ∧ r.firstAge = r'.firstAge
    ∧ r.classMask = r'.classMask ∧ (r.classMask = none → r.report = r'.report)

theorem header_inRange : r.header.InRange v := by
  refine ⟨r.destination_le, r.source_le, r.hkPort_le, r.sport_le, ?_⟩
  show CSP_FCRC32 < _
  cases v with
  | csp1 => decide
  | csp2 => decide

theorem payload_length_le : r.payload.length ≤ 6 := by
  unfold payload
  split <;> simp

end Request

/-! ## §2. Writing. -/

variable {v : CspVersion}

/-- **A request in range is framed** without an exception. -/
theorem buildRequest_eq (r : Request v) : r.build = .ok (kissEncode r.frame) := by
  have hheader := cspHeader_eq v r.header r.header_inRange
  have hversion : structPack 1 HK_PROTOCOL_VERSION = .ok (beBytes 1 1) :=
    structPack_of_lt (by decide)
  have hreport : structPack 1 r.report = .ok (beBytes 1 r.report) :=
    structPack_of_lt (by have := r.report_le; omega)
  have hcount : structPack 1 r.count = .ok (beBytes 1 r.count) :=
    structPack_of_lt (by have := r.count_le; omega)
  have hage : structPack 2 r.firstAge = .ok (beBytes 2 r.firstAge) :=
    structPack_of_lt (by have := r.firstAge_le; omega)
  have hall : structPack 1 255 = .ok (beBytes 1 255) := structPack_of_lt (by decide)
  unfold Request.build buildRequest Request.frame Request.body Request.payload
  dsimp only [Request.header] at hheader ⊢
  cases hmask : r.classMask with
  | none =>
    simp only [hversion, hreport, hcount, hage, hheader]
    rfl
  | some mask =>
    have hone : structPack 1 mask = .ok (beBytes 1 mask) :=
      structPack_of_lt (by have := r.classMask_le mask hmask; omega)
    simp only [hversion, hreport, hcount, hage, hall, hone, hheader]
    rfl

/-! ## §3. Reading. -/

theorem Request.frameFits (r : Request v) : FrameFits v r.frame := by
  have hlength : r.frame.length = cspHeaderBytes v + (r.payload.length + 8) := by
    unfold Request.frame Request.body
    simp only [List.length_append, beBytes_length, crc32_length]
  have hpayload := r.payload_length_le
  unfold FrameFits frameMax
  rw [hlength, HK_SAMPLE_MAX]
  omega

/-- What stands in a request's frame: the header asked for, and the payload under both
checksums. -/
structure Carries (v : CspVersion) (frame : Bytes) (header : CspHeader) (payload : Bytes) :
    Prop where
  header : parseCspHeader v frame = header
  outer : lastFour (frame.drop (cspHeaderBytes v))
    = crc32 (butLastFour (frame.drop (cspHeaderBytes v)))
  inner : lastFour (butLastFour (frame.drop (cspHeaderBytes v)))
    = crc32 (butLastFour (butLastFour (frame.drop (cspHeaderBytes v))))
  payload : butLastFour (butLastFour (frame.drop (cspHeaderBytes v))) = payload

/-- **Reading a request's frame.** -/
theorem Request.read_frame (r : Request v) : Carries v r.frame r.header r.payload := by
  have hheader : parseCspHeader v r.frame = r.header := by
    rw [Request.frame, parseCspHeader_append v _ _ (beBytes_length _ _), parseCspHeader_eq,
      List.take_of_length_le (by simp), beNat_beBytes_of_lt (cspSum_lt v _ r.header_inRange),
      cspFields_cspSum v _ r.header_inRange]
  have hbody : r.frame.drop (cspHeaderBytes v) = r.body :=
    List.drop_left' (beBytes_length _ _)
  have houter := lastFour_append_crc (r.payload ++ crc32 r.payload)
  have hinner := lastFour_append_crc r.payload
  refine ⟨hheader, ?_, ?_, ?_⟩
  · rw [hbody, Request.body, houter.1, houter.2]
  · rw [hbody, Request.body, houter.2, hinner.1, hinner.2]
  · rw [hbody, Request.body, houter.2, hinner.2]

/-- What a frame carries is unique. -/
theorem Carries.unique {frame : Bytes} {header header' : CspHeader} {payload payload' : Bytes}
    (h : Carries v frame header payload) (h' : Carries v frame header' payload') :
    header = header' ∧ payload = payload' :=
  ⟨h.header.symm.trans h'.header, h.payload.symm.trans h'.payload⟩

/-- Numbers of one width that are written alike are alike. -/
theorem beBytes_inj {n a b : Nat} (ha : a < 256 ^ n) (hb : b < 256 ^ n)
    (h : beBytes n a = beBytes n b) : a = b := by
  rw [← beNat_beBytes_of_lt ha, ← beNat_beBytes_of_lt hb, h]

/-- The payload of a request gives its fields back. -/
theorem Request.payload_inj {r r' : Request v} (h : r.payload = r'.payload) :
    r.count = r'.count ∧ r.firstAge = r'.firstAge ∧ r.classMask = r'.classMask
      ∧ (r.classMask = none → r.report = r'.report) := by
  have hcount : ∀ s : Request v, s.count < 256 ^ 1 := fun s => by have := s.count_le; omega
  have hage : ∀ s : Request v, s.firstAge < 256 ^ 2 := fun s => by have := s.firstAge_le; omega
  have hreport : ∀ s : Request v, s.report < 256 ^ 1 := fun s => by have := s.report_le; omega
  have hlength := congrArg List.length h
  unfold Request.payload at h hlength
  cases hmask : r.classMask with
  | none =>
    cases hmask' : r'.classMask with
    | none =>
      rw [hmask, hmask'] at h
      obtain ⟨h, hage'⟩ := List.append_inj h (by simp)
      obtain ⟨h, hcount'⟩ := List.append_inj h (by simp)
      obtain ⟨-, hreport'⟩ := List.append_inj h (by simp)
      exact ⟨beBytes_inj (hcount r) (hcount r') hcount', beBytes_inj (hage r) (hage r') hage', rfl,
        fun _ => beBytes_inj (hreport r) (hreport r') hreport'⟩
    | some mask' =>
      rw [hmask, hmask'] at hlength
      exact absurd hlength (by simp)
  | some mask =>
    cases hmask' : r'.classMask with
    | none =>
      rw [hmask, hmask'] at hlength
      exact absurd hlength (by simp)
    | some mask' =>
      have hlt : mask < 256 ^ 1 := by have := r.classMask_le mask hmask; omega
      have hlt' : mask' < 256 ^ 1 := by have := r'.classMask_le mask' hmask'; omega
      rw [hmask, hmask'] at h
      obtain ⟨h, hone⟩ := List.append_inj h (by simp)
      obtain ⟨h, hage'⟩ := List.append_inj h (by simp)
      obtain ⟨-, hcount'⟩ := List.append_inj h (by simp)
      refine ⟨beBytes_inj (hcount r) (hcount r') hcount', beBytes_inj (hage r) (hage r') hage', ?_,
        fun hnone => absurd hnone (by simp)⟩
      rw [beBytes_inj hlt hlt' hone]

/-- Frames that are alike are of requests that are. -/
theorem Request.frame_inj {r r' : Request v} (h : r.frame = r'.frame) : r.SameFields r' := by
  have hother : Carries v r.frame r'.header r'.payload := by
    rw [h]
    exact r'.read_frame
  obtain ⟨hheader, hpayload⟩ := r.read_frame.unique hother
  obtain ⟨hcount, hage, hmask, hreport⟩ := Request.payload_inj hpayload
  injection hheader with hdestination hsource hport hsport _
  exact ⟨hsource, hdestination, hport, hsport, hcount, hage, hmask, hreport⟩

/-! ## §4. The whole way. -/

/-- **Requests are framed so the node reads back what was asked.**  A fresh reader gets exactly
one frame from the bytes; its header is the one asked for, and its body verifies and sheds the
outer and then the inner checksum down to the payload.  Requests that are framed alike carry the
same fields. -/
theorem buildRequest_read (v : CspVersion) (r : Request v) :
    ∃ bytes frame, r.build = .ok bytes
      ∧ (feed v KissReader.init bytes).2 = [frame]
      ∧ Carries v frame ⟨r.destination, r.source, r.hkPort, r.sport, CSP_FCRC32⟩ r.payload
      ∧ ∀ r' : Request v, r'.build = .ok bytes → r.SameFields r' := by
  have hfeed : ∀ s : Request v, (feed v KissReader.init (kissEncode s.frame)).2 = [s.frame] := by
    intro s
    rw [feed_kissEncode v _ _ s.frameFits]
    rfl
  refine ⟨_, r.frame, buildRequest_eq r, hfeed r, r.read_frame, ?_⟩
  intro r' hbuild
  -- equal bytes are read as equal frames
  have hbytes : kissEncode r'.frame = kissEncode r.frame := by
    rw [buildRequest_eq] at hbuild
    exact Except.ok.inj hbuild
  have hframes := hfeed r'
  rw [hbytes, hfeed r] at hframes
  exact Request.frame_inj (List.singleton_injective hframes)

end KFsw.Ground
