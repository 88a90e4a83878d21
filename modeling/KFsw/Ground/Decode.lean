/-
  KFsw.Ground.Decode — housekeeping frames on the ground link: the request
  `build_request` frames and the reply or beacon `decode_hk_frame` accepts.

  A frame is a CSP header, a sample, and one or two checksums: the outer one of
  the KISS interface, and the CSP checksum inside it when the header says so.
  `IsHkFrame` states that shape; the decoder accepts it and nothing else.

  Main results:
    * `decodeHkFrame_never_raises` — every error branch returns;
    * `decodeHkFrame_some_iff`     — the accepted frames are those of `IsHkFrame`;
    * `decodeHkFrame_exact`        — both, uniqueness, and the way back through
      `kiss_encode` and the reader;
    * `wrong_version_no_sample`    — under the other CSP version no frame of the
      housekeeping port decodes.
-/
import KFsw.Ground.Crc32
import KFsw.Ground.Kiss

namespace KFsw.Ground

open KFsw.Lib

/-! ## §1. Requests. -/

/-- Frame one request with the CSP checksum and the outer KISS checksum. -/
def buildRequest (v : CspVersion) (hkPort source destination sport report count firstAge : Nat)
    (classMask : Option Nat) : Except PyError Bytes := do
  let version ← structPack 1 HK_PROTOCOL_VERSION
  let first ← structPack 1 report
  let payload ← match classMask with
    | none => do
        pure (version ++ first ++ (← structPack 1 count) ++ (← structPack 2 firstAge))
    | some mask => do
        let all ← structPack 1 255
        pure (version ++ all ++ (← structPack 1 count) ++ (← structPack 2 firstAge)
          ++ (← structPack 1 mask))
  let payload := payload ++ crc32 payload
  let body := payload ++ crc32 payload
  let header ← cspHeader v destination source hkPort sport CSP_FCRC32
  pure (kissEncode (header ++ body))

/-! ## §2. Replies and beacons. -/

/-- `body[-4:]`. -/
def lastFour (body : Bytes) : Bytes := body.drop (body.length - 4)

/-- `body[:-4]`. -/
def butLastFour (body : Bytes) : Bytes := body.take (body.length - 4)

/-- The end of `decode_hk_frame`: a `ValueError` becomes the problem text, any other
exception leaves the function. -/
def checkSample (body : Bytes) : Except PyError (Option Bytes × Option String) :=
  match validateSample body with
  | .ok () => .ok (some body, none)
  | .error (.valueError message) => .ok (none, some message)
  | .error error => .error error

/-- `decode_hk_frame`: the sample, or a problem, or neither for a frame that is not
housekeeping of this node. -/
def decodeHkFrame (v : CspVersion) (hkPort : Nat) (frame : Bytes) (node : Nat) :
    Except PyError (Option Bytes × Option String) :=
  if frame.length < cspHeaderBytes v + 4 then
    .ok (none, some "short frame")
  else
    let header := parseCspHeader v frame
    if header.sport ≠ hkPort ∨ header.source ≠ node then
      .ok (none, none)
    else if header.flags ≠ 0 ∧ header.flags ≠ CSP_FCRC32 then
      .ok (none, some "unsupported CSP flags")
    else
      let body := frame.drop (cspHeaderBytes v)
      -- the KISS interface puts its checksum behind everything else
      if lastFour body ≠ crc32 (butLastFour body) then
        .ok (none, some "KISS CRC32 mismatch")
      else
        let body := butLastFour body
        if header.flags &&& CSP_FCRC32 ≠ 0 then
          if body.length < 4 ∨ lastFour body ≠ crc32 (butLastFour body) then
            .ok (none, some "CSP CRC32 mismatch")
          else
            checkSample (butLastFour body)
        else
          checkSample body

/-- The checksums after a sample: the outer one, over the CSP checksum when there is one. -/
def checksums (flags : Nat) (s : Bytes) : Bytes :=
  if flags = 0 then crc32 s else crc32 s ++ crc32 (s ++ crc32 s)

/-- `frame` is a housekeeping frame of `node` that carries `s`. -/
def IsHkFrame (v : CspVersion) (hkPort node : Nat) (s frame : Bytes) : Prop :=
  ∃ h t : Bytes, frame = h ++ s ++ t
    ∧ h.length = cspHeaderBytes v
    ∧ (parseCspHeader v h).sport = hkPort
    ∧ (parseCspHeader v h).source = node
    ∧ ((parseCspHeader v h).flags = 0 ∨ (parseCspHeader v h).flags = 1)
    ∧ validateSample s = .ok ()
    ∧ t = checksums (parseCspHeader v h).flags s

/-! ## §3. Taking a checksum off. -/

/-- Bytes end in the checksum of what precedes it exactly when taking it off leaves it. -/
theorem lastFour_append_crc (s : Bytes) :
    lastFour (s ++ crc32 s) = crc32 s ∧ butLastFour (s ++ crc32 s) = s := by
  unfold lastFour butLastFour
  rw [List.length_append, crc32_length, Nat.add_sub_cancel, List.drop_left, List.take_left]
  exact ⟨rfl, rfl⟩

theorem butLastFour_append_lastFour (body : Bytes) : butLastFour body ++ lastFour body = body :=
  List.take_append_drop _ body

/-- A body that passes the checksum test is its front and the checksum of its front. -/
theorem eq_append_crc {body : Bytes} (h : lastFour body = crc32 (butLastFour body)) :
    body = butLastFour body ++ crc32 (butLastFour body) := by
  rw [← h, butLastFour_append_lastFour]

/-! ## §4. What the decoder does. -/

theorem checkSample_never_raises (body : Bytes) : ∃ r, checkSample body = .ok r := by
  unfold checkSample
  cases hv : validateSample body with
  | ok u => exact ⟨_, rfl⟩
  | error e =>
    obtain ⟨message, rfl⟩ := validateSample_error body e hv
    exact ⟨_, rfl⟩

theorem checkSample_some_iff (body s : Bytes) :
    checkSample body = .ok (some s, none) ↔ body = s ∧ validateSample s = .ok () := by
  unfold checkSample
  constructor
  · intro h
    cases hv : validateSample body with
    | ok u =>
      rw [hv] at h
      simp only [Except.ok.injEq, Prod.mk.injEq, Option.some.injEq, and_true] at h
      exact ⟨h, h ▸ hv⟩
    | error e =>
      obtain ⟨message, rfl⟩ := validateSample_error body e hv
      rw [hv] at h
      exact absurd h (by simp)
  · intro h
    obtain ⟨rfl, hv⟩ := h
    rw [hv]

/-- **No frame makes the decoder raise.** -/
theorem decodeHkFrame_never_raises (v : CspVersion) (hkPort : Nat) (frame : Bytes) (node : Nat) :
    ∃ r, decodeHkFrame v hkPort frame node = .ok r := by
  unfold decodeHkFrame
  dsimp only
  repeat' split
  all_goals first
    | exact ⟨_, rfl⟩
    | exact checkSample_never_raises _

/-- A sample comes without a problem. -/
theorem decodeHkFrame_some_problem {v : CspVersion} {hkPort node : Nat} {s frame : Bytes}
    {problem : Option String}
    (h : decodeHkFrame v hkPort frame node = .ok (some s, problem)) : problem = none := by
  unfold decodeHkFrame checkSample at h
  dsimp only at h
  repeat' split at h
  all_goals simp_all

/-- The decoder on a frame with the header of the housekeeping port of `node`. -/
theorem decodeHkFrame_of_header (v : CspVersion) (hkPort node : Nat) (h body : Bytes)
    (hl : h.length = cspHeaderBytes v) (hb : 4 ≤ body.length)
    (hs : (parseCspHeader v h).sport = hkPort) (hn : (parseCspHeader v h).source = node)
    (hf : (parseCspHeader v h).flags = 0 ∨ (parseCspHeader v h).flags = 1) :
    decodeHkFrame v hkPort (h ++ body) node
      = if lastFour body ≠ crc32 (butLastFour body) then
          .ok (none, some "KISS CRC32 mismatch")
        else if (parseCspHeader v h).flags = 0 then checkSample (butLastFour body)
        else if (butLastFour body).length < 4
            ∨ lastFour (butLastFour body) ≠ crc32 (butLastFour (butLastFour body)) then
          .ok (none, some "CSP CRC32 mismatch")
        else checkSample (butLastFour (butLastFour body)) := by
  have hlen : ¬ (h ++ body).length < cspHeaderBytes v + 4 := by
    rw [List.length_append, hl]
    omega
  unfold decodeHkFrame
  rw [if_neg hlen]
  simp only [parseCspHeader_append v h body hl]
  rw [if_neg (by rw [hs, hn]; simp), ← hl, List.drop_left]
  rcases hf with hf | hf
  · rw [hf, if_neg (by decide), if_neg (show ¬ (0 &&& CSP_FCRC32 ≠ 0) by decide)]
    rfl
  · rw [hf, if_neg (by decide), if_pos (show 1 &&& CSP_FCRC32 ≠ 0 by decide)]
    rfl

/-- A housekeeping frame is decoded to the sample it carries. -/
theorem decodeHkFrame_of_isHkFrame {v : CspVersion} {hkPort node : Nat} {s frame : Bytes}
    (h : IsHkFrame v hkPort node s frame) :
    decodeHkFrame v hkPort frame node = .ok (some s, none) := by
  obtain ⟨hdr, t, hframe, hl, hs, hn, hf, hv, ht⟩ := h
  have hlong : 4 ≤ (s ++ t).length := by
    rw [ht, checksums]
    split <;> simp
  rw [hframe, List.append_assoc,
    decodeHkFrame_of_header v hkPort node hdr (s ++ t) hl hlong hs hn hf]
  have hcheck := (checkSample_some_iff s s).mpr ⟨rfl, hv⟩
  rcases hf with hf | hf
  · -- one checksum
    have hbody : s ++ t = s ++ crc32 s := by rw [ht, hf, checksums, if_pos rfl]
    obtain ⟨hlast, hfront⟩ := lastFour_append_crc s
    rw [hbody, hlast, hfront, if_neg (by simp), if_pos hf]
    exact hcheck
  · -- the CSP checksum inside the outer one
    have hbody : s ++ t = (s ++ crc32 s) ++ crc32 (s ++ crc32 s) := by
      rw [ht, hf, checksums, if_neg (by decide), List.append_assoc]
    obtain ⟨hlast, hfront⟩ := lastFour_append_crc (s ++ crc32 s)
    obtain ⟨hlast', hfront'⟩ := lastFour_append_crc s
    rw [hbody, hlast, hfront, hlast', hfront', if_neg (by simp), if_neg (by rw [hf]; decide),
      if_neg (by simp)]
    exact hcheck

/-- A sample the decoder returns was carried by a housekeeping frame. -/
theorem isHkFrame_of_decodeHkFrame {v : CspVersion} {hkPort node : Nat} {s frame : Bytes}
    (h : decodeHkFrame v hkPort frame node = .ok (some s, none)) :
    IsHkFrame v hkPort node s frame := by
  have hlen : cspHeaderBytes v + 4 ≤ frame.length := by
    by_contra hshort
    rw [decodeHkFrame, if_pos (by omega)] at h
    exact absurd h (by simp)
  -- split the frame into header and body
  obtain ⟨hdr, body, hframe, hl⟩ : ∃ hdr body, frame = hdr ++ body
      ∧ hdr.length = cspHeaderBytes v :=
    ⟨frame.take (cspHeaderBytes v), frame.drop (cspHeaderBytes v),
      (List.take_append_drop _ _).symm, List.length_take_of_le (by omega)⟩
  have hb : 4 ≤ body.length := by
    rw [hframe, List.length_append, hl] at hlen
    omega
  subst hframe
  have hparse := parseCspHeader_append v hdr body hl
  -- a frame that fails one of the header checks is not decoded
  have hport : (parseCspHeader v hdr).sport = hkPort ∧ (parseCspHeader v hdr).source = node := by
    by_contra hne
    rw [decodeHkFrame, if_neg (by omega)] at h
    simp only [hparse] at h
    rw [if_pos (by omega)] at h
    exact absurd h (by simp)
  have hflags : (parseCspHeader v hdr).flags = 0 ∨ (parseCspHeader v hdr).flags = 1 := by
    by_contra hne
    rw [decodeHkFrame, if_neg (by omega)] at h
    simp only [hparse] at h
    rw [if_neg (by omega), if_pos (by rw [CSP_FCRC32]; omega)] at h
    exact absurd h (by simp)
  rw [decodeHkFrame_of_header v hkPort node hdr body hl hb hport.1 hport.2 hflags] at h
  split at h
  · exact absurd h (by simp)
  · rename_i houter
    have hbody := eq_append_crc (not_not.mp houter)
    split at h
    -- no CSP checksum: the body is the sample
    · rename_i hzero
      obtain ⟨hs, hv⟩ := (checkSample_some_iff _ s).mp h
      refine ⟨hdr, crc32 s, ?_, hl, hport.1, hport.2, hflags, hv, ?_⟩
      · rw [List.append_assoc, ← hs, ← hbody]
      · rw [hzero, checksums, if_pos rfl]
    -- with the CSP checksum inside the outer one
    · rename_i hone
      split at h
      · exact absurd h (by simp)
      · rename_i hinner
        push Not at hinner
        have hbody' := eq_append_crc hinner.2
        obtain ⟨hs, hv⟩ := (checkSample_some_iff _ s).mp h
        rw [hs] at hbody'
        refine ⟨hdr, crc32 s ++ crc32 (s ++ crc32 s), ?_, hl, hport.1, hport.2, hflags, hv, ?_⟩
        · rw [List.append_assoc, ← List.append_assoc s, ← hbody', ← hbody]
        · rw [checksums, if_neg hone]

/-- **The accepted frames** are the housekeeping frames of the node. -/
theorem decodeHkFrame_some_iff (v : CspVersion) (hkPort node : Nat) (s frame : Bytes) :
    decodeHkFrame v hkPort frame node = .ok (some s, none) ↔ IsHkFrame v hkPort node s frame :=
  ⟨isHkFrame_of_decodeHkFrame, decodeHkFrame_of_isHkFrame⟩

/-! ## §5. The whole way: header, sample, checksums, KISS. -/

/-- The frame of a sample under a header: what `libcsp` and the KISS interface send. -/
def hkFrame (header s : Bytes) (flags : Nat) : Bytes := header ++ s ++ checksums flags s

theorem checksums_length (flags : Nat) (s : Bytes) : (checksums flags s).length ≤ 8 := by
  rw [checksums]
  split <;> simp

/-- A header in range with the node's fields makes a housekeeping frame. -/
theorem isHkFrame_hkFrame (v : CspVersion) (h : CspHeader) (hr : h.InRange v)
    (hflags : h.flags = 0 ∨ h.flags = 1) (s : Bytes) (hs : validateSample s = .ok ()) :
    ∃ header, cspHeader v h.destination h.source h.dport h.sport h.flags = .ok header
      ∧ header.length = cspHeaderBytes v
      ∧ IsHkFrame v h.sport h.source s (hkFrame header s h.flags) := by
  obtain ⟨header, hok, hlen, hparse⟩ := parse_cspHeader v h hr []
  rw [List.append_nil] at hparse
  refine ⟨header, hok, hlen, header, checksums h.flags s, rfl, hlen, ?_, ?_, ?_, hs, ?_⟩ <;>
    rw [hparse]
  exact hflags

/-- The reader's bound admits every housekeeping frame. -/
theorem frameFits_hkFrame (v : CspVersion) (header s : Bytes) (flags : Nat)
    (hl : header.length = cspHeaderBytes v) (hs : validateSample s = .ok ()) :
    FrameFits v (hkFrame header s flags) := by
  have hv := (validateSample_ok_iff s).mp hs
  have h1 := hv.length_ge
  have h2 := hv.length_le
  have h3 := checksums_length flags s
  simp only [HK_HEADER_BYTES] at h1
  simp only [FrameFits, hkFrame, frameMax, List.length_append, hl]
  omega

/-- **The decoder accepts exactly the housekeeping frames of the watched node.**  It never
raises; it returns a sample exactly on the frames of `IsHkFrame`, which carry one sample
only; and every accepted sample under a header in range goes through `kiss_encode`, a fresh
reader and the decoder, and comes back. -/
theorem decodeHkFrame_exact (v : CspVersion) (hkPort node : Nat) :
    (∀ frame, ∃ r, decodeHkFrame v hkPort frame node = .ok r)
    ∧ (∀ frame s, decodeHkFrame v hkPort frame node = .ok (some s, none)
        ↔ ∃ h t : Bytes, frame = h ++ s ++ t
            ∧ h.length = cspHeaderBytes v
            ∧ (parseCspHeader v h).sport = hkPort
            ∧ (parseCspHeader v h).source = node
            ∧ ((parseCspHeader v h).flags = 0 ∨ (parseCspHeader v h).flags = 1)
            ∧ validateSample s = .ok ()
            ∧ t = if (parseCspHeader v h).flags = 0 then crc32 s
                  else crc32 s ++ crc32 (s ++ crc32 s))
    ∧ (∀ frame s s', IsHkFrame v hkPort node s frame → IsHkFrame v hkPort node s' frame →
        s = s')
    ∧ (∀ (h : CspHeader) (s : Bytes), h.InRange v → h.sport = hkPort → h.source = node →
        (h.flags = 0 ∨ h.flags = 1) → validateSample s = .ok () →
        ∃ header, cspHeader v h.destination h.source h.dport h.sport h.flags = .ok header
          ∧ (feed v KissReader.init (kissEncode (header ++ s ++ checksums h.flags s))).2
              = [header ++ s ++ checksums h.flags s]
          ∧ decodeHkFrame v hkPort (header ++ s ++ checksums h.flags s) node
              = .ok (some s, none)) := by
  refine ⟨fun frame => decodeHkFrame_never_raises v hkPort frame node,
    fun frame s => decodeHkFrame_some_iff v hkPort node s frame, ?_, ?_⟩
  · intro frame s s' h h'
    have heq := (decodeHkFrame_of_isHkFrame h).symm.trans (decodeHkFrame_of_isHkFrame h')
    simpa using heq
  · intro h s hr hport hnode hflags hs
    obtain ⟨header, hok, hl, hframe⟩ := isHkFrame_hkFrame v h hr hflags s hs
    rw [hport, hnode] at hframe
    refine ⟨header, hok, ?_, decodeHkFrame_of_isHkFrame hframe⟩
    have hfeed := feed_kissEncode v KissReader.init _ (frameFits_hkFrame v header s h.flags hl hs)
    rw [hkFrame] at hfeed
    rw [hfeed]
    rfl

/-- The largest sample, every value a FEND, with both checksums. -/
theorem decodeHkFrame_exact_largest :
    ∃ header, cspHeader .csp1 16 1 40 14 1 = .ok header
      ∧ (feed .csp1 KissReader.init (kissEncode (header
            ++ ([1, 0, 0, 7, 0, 0, 0, 1, 64, 0] ++ List.replicate 230 FEND)
            ++ checksums 1 ([1, 0, 0, 7, 0, 0, 0, 1, 64, 0] ++ List.replicate 230 FEND)))).2
          = [header ++ ([1, 0, 0, 7, 0, 0, 0, 1, 64, 0] ++ List.replicate 230 FEND)
              ++ checksums 1 ([1, 0, 0, 7, 0, 0, 0, 1, 64, 0] ++ List.replicate 230 FEND)]
      ∧ decodeHkFrame .csp1 14 (header
            ++ ([1, 0, 0, 7, 0, 0, 0, 1, 64, 0] ++ List.replicate 230 FEND)
            ++ checksums 1 ([1, 0, 0, 7, 0, 0, 0, 1, 64, 0] ++ List.replicate 230 FEND)) 1
          = .ok (some ([1, 0, 0, 7, 0, 0, 0, 1, 64, 0] ++ List.replicate 230 FEND), none) :=
  (decodeHkFrame_exact .csp1 14 1).2.2.2 ⟨16, 1, 40, 14, 1⟩
    ([1, 0, 0, 7, 0, 0, 0, 1, 64, 0] ++ List.replicate 230 FEND) (by decide) rfl rfl
    (Or.inr rfl) (by decide +kernel)

/-! ## §6. A bridge that runs with the other version. -/

/-- A frame under CSP 1, read as CSP 2: the source port field lies in the sample's version
and report bytes, and reads 4. -/
theorem csp1_read_as_csp2 (header s t : Bytes) (hl : header.length = 4)
    (hs : ValidSample s) :
    (parseCspHeader .csp2 (header ++ s ++ t)).sport = 4 := by
  obtain ⟨b0, b1, rest, rfl⟩ : ∃ b0 b1 rest, s = b0 :: b1 :: rest := by
    match s, hs.length_ge with
    | b0 :: b1 :: rest, _ => exact ⟨b0, b1, rest, rfl⟩
  have hversion : b0.toNat = 1 := hs.version_eq
  have hreport : b1.toNat < 16 := hs.report_lt
  have htake : ((header ++ (b0 :: b1 :: rest) ++ t).take (cspHeaderBytes .csp2))
      = header ++ [b0, b1] := by
    rw [List.append_assoc, List.take_append, hl]
    simp [cspHeaderBytes, CSP_HEADER_BYTES, List.take_of_length_le, hl]
  rw [parseCspHeader_eq, htake, beNat_append, beNat_cons, beNat_singleton]
  simp only [cspFields, List.length_cons, List.length_nil]
  omega

/-- A header under CSP 2 leaves its last two bytes to the sample when read as CSP 1; the first
of them ends in the high bits of the source port. -/
theorem csp2_fifth_byte (h : CspHeader) (hr : h.InRange .csp2) (hport : h.sport = 14) :
    ∃ front b5, beBytes 6 (cspSum .csp2 h) = front ++ [UInt8.ofNat (cspSum .csp2 h / 256), b5]
      ∧ front.length = 4 ∧ (UInt8.ofNat (cspSum .csp2 h / 256)).toNat % 16 = 3 := by
  refine ⟨beBytes 4 (cspSum .csp2 h / 256 / 256), UInt8.ofNat (cspSum .csp2 h), ?_,
    beBytes_length _ _, ?_⟩
  · show (beBytes 4 (cspSum .csp2 h / 256 / 256) ++ [UInt8.ofNat (cspSum .csp2 h / 256)])
      ++ [UInt8.ofNat (cspSum .csp2 h)] = _
    rw [List.append_assoc]
    rfl
  · obtain ⟨_, _, _, _, hfl⟩ := hr
    simp only at hfl
    rw [UInt8.toNat_ofNat', cspSum, hport]
    omega

/-- **A bridge with the other CSP version records nothing**: a well-formed frame of port 14
under one version never decodes to a sample under the other, whichever node is watched and
whichever flags the header has. -/
theorem wrong_version_no_sample (built reading : CspVersion) (hne : built ≠ reading)
    (h : CspHeader) (hr : h.InRange built) (hport : h.sport = 14) (s : Bytes)
    (hs : validateSample s = .ok ()) (node : Nat) :
    ∃ header problem,
      cspHeader built h.destination h.source h.dport h.sport h.flags = .ok header
        ∧ decodeHkFrame reading 14 (header ++ s ++ checksums h.flags s) node
            = .ok (none, problem) := by
  have hv := (validateSample_ok_iff s).mp hs
  obtain ⟨header, hok, hl, _⟩ := parse_cspHeader built h hr []
  obtain ⟨⟨sample, problem⟩, hdec⟩ :=
    decodeHkFrame_never_raises reading 14 (header ++ s ++ checksums h.flags s) node
  refine ⟨header, problem, hok, ?_⟩
  cases sample with
  | none => exact hdec
  | some s' =>
    exfalso
    rw [decodeHkFrame_some_problem hdec] at hdec
    obtain ⟨hdr, t, hframe, hl', hport', _, _, hs', _⟩ := isHkFrame_of_decodeHkFrame hdec
    cases built with
    | csp1 =>
      cases reading with
      | csp1 => exact hne rfl
      | csp2 =>
        -- the port field holds the sample's version and report: 4, not 14
        have h4 := csp1_read_as_csp2 header s (checksums h.flags s) hl hv
        rw [hframe, List.append_assoc, parseCspHeader_append .csp2 hdr _ hl', hport'] at h4
        exact absurd h4 (by decide)
    | csp2 =>
      cases reading with
      | csp2 => exact hne rfl
      | csp1 =>
        -- the would-be sample starts with the fifth header byte, which is no version 1
        have hv' := (validateSample_ok_iff s').mp hs'
        rw [cspHeader_eq .csp2 h hr] at hok
        injection hok with hok
        obtain ⟨front, b5, hsplit, hfront, hmod⟩ := csp2_fifth_byte h hr hport
        rw [← hok, show cspHeaderBytes .csp2 = 6 from rfl, hsplit] at hframe
        simp only [List.append_assoc] at hframe
        obtain ⟨_, htail⟩ := List.append_inj hframe (hfront.trans hl'.symm)
        have hpos : 0 < s'.length := Nat.lt_of_lt_of_le (by decide) hv'.length_ge
        cases s' with
        | nil => exact absurd hpos (by simp)
        | cons b s'' =>
          have hb : UInt8.ofNat (cspSum .csp2 h / 256) = b := by
            simpa using congrArg List.head? htail
          have hversion : b.toNat = 1 := hv'.version_eq
          rw [hb, hversion] at hmod
          exact absurd hmod (by decide)

/-- A CSP 1 frame on a CSP 2 bridge and a CSP 2 frame on a CSP 1 bridge. -/
theorem wrong_version_no_sample_both :
    (∃ header problem, cspHeader .csp1 16 1 40 14 1 = .ok header
      ∧ decodeHkFrame .csp2 14
          (header ++ [1, 0, 0, 7, 0, 0, 0, 1, 1, 0, 0xC0] ++ checksums 1
            [1, 0, 0, 7, 0, 0, 0, 1, 1, 0, 0xC0]) 1 = .ok (none, problem))
    ∧ (∃ header problem, cspHeader .csp2 16 896 40 14 0 = .ok header
      ∧ decodeHkFrame .csp1 14
          (header ++ [1, 0, 0, 7, 0, 0, 0, 1, 1, 0, 0xC0] ++ checksums 0
            [1, 0, 0, 7, 0, 0, 0, 1, 1, 0, 0xC0]) 0 = .ok (none, problem)) :=
  ⟨wrong_version_no_sample .csp1 .csp2 (by decide) ⟨16, 1, 40, 14, 1⟩ (by decide) rfl
      [1, 0, 0, 7, 0, 0, 0, 1, 1, 0, 0xC0] (by decide) 1,
    wrong_version_no_sample .csp2 .csp1 (by decide) ⟨16, 896, 40, 14, 0⟩ (by decide) rfl
      [1, 0, 0, 7, 0, 0, 0, 1, 1, 0, 0xC0] (by decide) 0⟩

end KFsw.Ground
