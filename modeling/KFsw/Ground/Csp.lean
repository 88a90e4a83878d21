/-
  KFsw.Ground.Csp — the CSP headers as `tools/ground/hk-bridge.py` writes and
  reads them.

  The bridge runs with one CSP version, fixed by `--csp-version`.  CSP 1 packs
  its header into 32 bits with the source before the destination; CSP 2 packs 48
  bits with the destination first.  `cspHeader` is the writer, `parseCspHeader`
  the reader.

  Main results:
    * `cspPacked_eq_sum`      — fields in range do not overlap, so the packed
      word is a sum;
    * `parse_cspHeader`       — reading a written header gives its fields back;
    * `parseCspHeader_append` — only the first `cspHeaderBytes` bytes are read.
-/
import KFsw.Lib.Bytes

namespace KFsw.Ground

open KFsw.Lib

/-! ## §1. Python exceptions the bridge can raise. -/

/-- An exception of the bridge, with its message. -/
inductive PyError where
  | valueError (message : String)
  /-- `struct.error`, which is no `ValueError`. -/
  | structError (message : String)
  | overflowError (message : String)
  | timeoutError (message : String)
  deriving DecidableEq, Repr

/-- `int.to_bytes(n, "big")`. -/
def toBytes (n v : Nat) : Except PyError Bytes :=
  if v < 256 ^ n then .ok (beBytes n v) else .error (.overflowError "int too big to convert")

theorem toBytes_of_lt {n v : Nat} (h : v < 256 ^ n) : toBytes n v = .ok (beBytes n v) := by
  simp [toBytes, h]

/-! ## §2. The two versions. -/

/-- `csp_version`: `--csp-version` admits these two. -/
inductive CspVersion where
  | csp1
  | csp2
  deriving DecidableEq, Repr

def CSP_HEADER_BYTES : Nat := 6
def CSP_PRIO_NORM : Nat := 2
def CSP_FCRC32 : Nat := 0x01

def cspHeaderBytes : CspVersion → Nat
  | .csp1 => 4
  | .csp2 => CSP_HEADER_BYTES

/-- Highest CSP address, which is broadcast. -/
def cspMaxNode : CspVersion → Nat
  | .csp1 => 31
  | .csp2 => 16383

/-- The header fields, as `parse_csp_header` returns them. -/
structure CspHeader where
  destination : Nat
  source : Nat
  dport : Nat
  sport : Nat
  flags : Nat
  deriving DecidableEq, Repr

/-! ## §3. Writing and reading. -/

def cspPacked (v : CspVersion) (destination source dport sport flags : Nat) : Nat :=
  match v with
  | .csp1 =>
      (CSP_PRIO_NORM <<< 30) ||| (source <<< 25) ||| (destination <<< 20)
        ||| (dport <<< 14) ||| (sport <<< 8) ||| flags
  | .csp2 =>
      (CSP_PRIO_NORM <<< 46) ||| (destination <<< 32) ||| (source <<< 18)
        ||| (dport <<< 12) ||| (sport <<< 6) ||| flags

def cspHeader (v : CspVersion) (destination source dport sport flags : Nat) :
    Except PyError Bytes :=
  match v with
  | .csp1 => toBytes 4 (cspPacked .csp1 destination source dport sport flags)
  | .csp2 =>
      (toBytes 8 (cspPacked .csp2 destination source dport sport flags)).map (·.drop 2)

def parseCspHeader (v : CspVersion) (frame : Bytes) : CspHeader :=
  match v with
  | .csp1 =>
      let packed := beNat (frame.take 4)
      { destination := (packed >>> 20) &&& 0x1F
        source := (packed >>> 25) &&& 0x1F
        dport := (packed >>> 14) &&& 0x3F
        sport := (packed >>> 8) &&& 0x3F
        flags := packed &&& 0xFF }
  | .csp2 =>
      let packed := beNat ([0x00, 0x00] ++ frame.take CSP_HEADER_BYTES)
      { destination := (packed >>> 32) &&& 0x3FFF
        source := (packed >>> 18) &&& 0x3FFF
        dport := (packed >>> 12) &&& 0x3F
        sport := (packed >>> 6) &&& 0x3F
        flags := packed &&& 0x3F }

/-- Each field fits the bits its version gives it. -/
def CspHeader.InRange (v : CspVersion) (h : CspHeader) : Prop :=
  h.destination ≤ cspMaxNode v ∧ h.source ≤ cspMaxNode v ∧ h.dport ≤ 63 ∧ h.sport ≤ 63
    ∧ h.flags < (match v with | .csp1 => 256 | .csp2 => 64)

instance (v : CspVersion) (h : CspHeader) : Decidable (h.InRange v) := by
  unfold CspHeader.InRange; infer_instance

/-! ## §4. The packed word is a sum of disjoint fields. -/

/-- The packed word as a sum, for fields in range. -/
def cspSum (v : CspVersion) (h : CspHeader) : Nat :=
  match v with
  | .csp1 =>
      2 * 2 ^ 30 + h.source * 2 ^ 25 + h.destination * 2 ^ 20 + h.dport * 2 ^ 14
        + h.sport * 2 ^ 8 + h.flags
  | .csp2 =>
      2 * 2 ^ 46 + h.destination * 2 ^ 32 + h.source * 2 ^ 18 + h.dport * 2 ^ 12
        + h.sport * 2 ^ 6 + h.flags

theorem cspPacked_eq_sum (v : CspVersion) (h : CspHeader) (hr : h.InRange v) :
    cspPacked v h.destination h.source h.dport h.sport h.flags = cspSum v h := by
  obtain ⟨hdst, hsrc, hdp, hsp, hfl⟩ := hr
  cases v with
  | csp1 =>
    simp only [cspMaxNode] at hdst hsrc hfl
    simp only [cspPacked, cspSum, CSP_PRIO_NORM, Nat.shiftLeft_eq]
    rw [lor_eq_add (2 * 2 ^ 30) (h.source * 2 ^ 25) 30 (by omega) (by omega),
      lor_eq_add _ (h.destination * 2 ^ 20) 25 (by omega) (by omega),
      lor_eq_add _ (h.dport * 2 ^ 14) 20 (by omega) (by omega),
      lor_eq_add _ (h.sport * 2 ^ 8) 14 (by omega) (by omega),
      lor_eq_add _ h.flags 8 (by omega) (by omega)]
  | csp2 =>
    simp only [cspMaxNode] at hdst hsrc hfl
    simp only [cspPacked, cspSum, CSP_PRIO_NORM, Nat.shiftLeft_eq]
    rw [lor_eq_add (2 * 2 ^ 46) (h.destination * 2 ^ 32) 46 (by omega) (by omega),
      lor_eq_add _ (h.source * 2 ^ 18) 32 (by omega) (by omega),
      lor_eq_add _ (h.dport * 2 ^ 12) 18 (by omega) (by omega),
      lor_eq_add _ (h.sport * 2 ^ 6) 12 (by omega) (by omega),
      lor_eq_add _ h.flags 6 (by omega) (by omega)]

/-- A packed word in range fits the bytes of its version. -/
theorem cspSum_lt (v : CspVersion) (h : CspHeader) (hr : h.InRange v) :
    cspSum v h < 256 ^ cspHeaderBytes v := by
  obtain ⟨hdst, hsrc, hdp, hsp, hfl⟩ := hr
  cases v <;>
    simp only [cspMaxNode] at hdst hsrc hfl <;>
    simp only [cspSum, cspHeaderBytes, CSP_HEADER_BYTES] <;>
    omega

/-- The low bytes of a written number are the number's low bytes. -/
theorem beBytes_drop (n k v : Nat) : (beBytes (n + k) v).drop n = beBytes k v := by
  induction k generalizing v with
  | zero => simp [beBytes]
  | succ k ih =>
    rw [← Nat.add_assoc, beBytes, List.drop_append_of_le_length (by simp), ih]
    rfl

/-- **Writing a header in range** gives the bytes of its packed word. -/
theorem cspHeader_eq (v : CspVersion) (h : CspHeader) (hr : h.InRange v) :
    cspHeader v h.destination h.source h.dport h.sport h.flags
      = .ok (beBytes (cspHeaderBytes v) (cspSum v h)) := by
  have hlt := cspSum_lt v h hr
  have hsum := cspPacked_eq_sum v h hr
  cases v with
  | csp1 =>
    simp only [cspHeader, hsum]
    exact toBytes_of_lt hlt
  | csp2 =>
    -- written as eight bytes, of which the first two are dropped
    have hlt8 : cspSum .csp2 h < 256 ^ 8 := by
      simp only [cspHeaderBytes, CSP_HEADER_BYTES] at hlt
      omega
    simp only [cspHeader, hsum, toBytes_of_lt hlt8, Except.map]
    rw [beBytes_drop 2 6]
    rfl

/-! ## §5. Reading a header. -/

/-- The fields of a packed word by division and remainder. -/
def cspFields (v : CspVersion) (packed : Nat) : CspHeader :=
  match v with
  | .csp1 =>
      { destination := packed / 2 ^ 20 % 2 ^ 5, source := packed / 2 ^ 25 % 2 ^ 5
        dport := packed / 2 ^ 14 % 2 ^ 6, sport := packed / 2 ^ 8 % 2 ^ 6
        flags := packed % 2 ^ 8 }
  | .csp2 =>
      { destination := packed / 2 ^ 32 % 2 ^ 14, source := packed / 2 ^ 18 % 2 ^ 14
        dport := packed / 2 ^ 12 % 2 ^ 6, sport := packed / 2 ^ 6 % 2 ^ 6
        flags := packed % 2 ^ 6 }

theorem parseCspHeader_eq (v : CspVersion) (frame : Bytes) :
    parseCspHeader v frame = cspFields v (beNat (frame.take (cspHeaderBytes v))) := by
  cases v with
  | csp1 =>
    simp only [parseCspHeader, cspFields, cspHeaderBytes, Nat.shiftRight_eq_div_pow,
      ← and_mask]
    rfl
  | csp2 =>
    -- the two zero bytes in front add nothing
    have hzero : beNat ([0x00, 0x00] ++ frame.take CSP_HEADER_BYTES)
        = beNat (frame.take CSP_HEADER_BYTES) := by
      rw [beNat_append, show beNat [0x00, 0x00] = 0 by decide, Nat.zero_mul, Nat.zero_add]
    simp only [parseCspHeader, cspFields, cspHeaderBytes, hzero, Nat.shiftRight_eq_div_pow,
      ← and_mask]
    rfl

/-- Only the first `cspHeaderBytes` bytes of a frame are read. -/
theorem parseCspHeader_append (v : CspVersion) (h rest : Bytes)
    (hl : h.length = cspHeaderBytes v) :
    parseCspHeader v (h ++ rest) = parseCspHeader v h := by
  rw [parseCspHeader_eq, parseCspHeader_eq, ← hl, List.take_left, List.take_length]

/-- The fields of a sum of fields in range are these fields. -/
theorem cspFields_cspSum (v : CspVersion) (h : CspHeader) (hr : h.InRange v) :
    cspFields v (cspSum v h) = h := by
  obtain ⟨destination, source, dport, sport, flags⟩ := h
  obtain ⟨hdst, hsrc, hdp, hsp, hfl⟩ := hr
  cases v <;>
    simp only [cspMaxNode] at hdst hsrc hdp hsp hfl <;>
    simp only [cspFields, cspSum, CspHeader.mk.injEq] <;>
    refine ⟨?_, ?_, ?_, ?_, ?_⟩ <;>
    omega

/-- **Header round trip**: a header in range is written without an exception, has the
length of its version, and reads back as its fields whatever follows it. -/
theorem parse_cspHeader (v : CspVersion) (h : CspHeader) (hr : h.InRange v) (rest : Bytes) :
    ∃ bytes, cspHeader v h.destination h.source h.dport h.sport h.flags = .ok bytes
      ∧ bytes.length = cspHeaderBytes v ∧ parseCspHeader v (bytes ++ rest) = h := by
  refine ⟨_, cspHeader_eq v h hr, beBytes_length _ _, ?_⟩
  rw [parseCspHeader_append v _ rest (beBytes_length _ _), parseCspHeader_eq,
    List.take_of_length_le (by simp), beNat_beBytes_of_lt (cspSum_lt v h hr),
    cspFields_cspSum v h hr]

example : cspHeader .csp1 16 1 40 14 1 = .ok [0x83, 0x0A, 0x0E, 0x01] := by decide

end KFsw.Ground
