/-
  KFsw.Tools.F746Validate — the signed images `tools/f746-validate.py` accepts.

  A signed image is a header, a payload and a list of TLV records behind an
  information header.  `signed_image` reads it with `struct.unpack_from` and a
  loop over the records; SHA-256, the loading of the key and the check of the
  signature are given functions.

  Main results:
    * `readTlvs_ok_iff`     — the loop reads exactly a row of whole records;
    * `signedImage_raises`  — every exception is a refusal of its own, or one of
      the given functions;
    * `signedImage_ok_iff`  — an image is accepted exactly when it is complete;
    * `Complete.unique`     — there is one way to take it apart;
    * `signedImage_sound`   — all of this, and the entry address inside the payload.
-/
import KFsw.Lib.Checks
import KFsw.Lib.CNumber
import KFsw.Lib.LittleEndian

namespace KFsw.Tools

open KFsw.Lib

/-! ## §1. The program. -/

/-- The exceptions of `signed_image` and `entry_check`: a refusal of `require`, `struct.error`,
`KeyError`, or an exception `ε` of the key functions. -/
inductive ImageError (ε : Type) where
  | refused (reason : String)
  | structError
  | keyError
  | given (e : ε)

/-- What is given: SHA-256, the public key that DER bytes hold, whether a key is ECDSA on P-256,
and the check of a signature over a message. -/
structure Crypto (ε κ : Type) where
  sha256 : Bytes → Bytes
  loadDerPublicKey : Bytes → Except ε κ
  isP256 : κ → Bool
  verify : κ → Bytes → Bytes → Except ε Unit

variable {ε κ : Type}

/-- `struct.unpack_from` of so many bytes at an offset. -/
def unpackFrom (size : Nat) (data : Bytes) (offset : Nat) : Except (ImageError ε) Bytes :=
  if offset + size ≤ data.length then .ok ((data.drop offset).take size) else .error .structError

/-- `values[kind]`. -/
def valueOf (values : List (Nat × Bytes)) (kind : Nat) : Except (ImageError ε) Bytes :=
  match values.lookup kind with
  | some value => .ok value
  | none => .error .keyError

def IMAGE_MAGIC : Nat := 0x96F3B83D
def TLV_MAGIC : Nat := 0x6907

/-- The kinds of a hash, a key hash and a signature. -/
def HASH : Nat := 0x10
def KEY_HASH : Nat := 0x01
def SIGNATURE : Nat := 0x22

/-- The loop over the TLV records from `position` on. -/
def readTlvs (data : Bytes) (position : Nat) (values : List (Nat × Bytes)) :
    Except (ImageError ε) (List (Nat × Bytes)) :=
  if position < data.length then do
    require (position + 4 ≤ data.length) (.refused "truncated TLV")
    let tlv ← unpackFrom 4 data position
    let kind := leField tlv 0 1
    let length := leField tlv 2 2
    require (leField tlv 1 1 = 0 ∧ 0 < length ∧ position + 4 + length ≤ data.length
      ∧ kind ∉ values.map Prod.fst) (.refused "invalid or duplicate TLV")
    readTlvs data (position + 4 + length) (values ++ [(kind, (data.drop (position + 4)).take length)])
  else .ok values
termination_by data.length - position

/-- The checks of `signed_image` behind the loop, over the bytes before the records. -/
def checkValues (crypto : Crypto ε κ) (signed publicKey : Bytes) (values : List (Nat × Bytes)) :
    Except (ImageError ε) Text := do
  require ((∀ kind ∈ values.map Prod.fst, kind ∈ [KEY_HASH, HASH, SIGNATURE])
      ∧ ∀ kind ∈ [KEY_HASH, HASH, SIGNATURE], kind ∈ values.map Prod.fst)
    (.refused "missing hash/key/signature or unsupported TLV")
  let hash ← valueOf values HASH
  require (hash = crypto.sha256 signed) (.refused "image hash mismatch")
  let keyHash ← valueOf values KEY_HASH
  require (keyHash = crypto.sha256 publicKey) (.refused "wrong signing key")
  let key ← (crypto.loadDerPublicKey publicKey).mapError .given
  require (crypto.isP256 key = true) (.refused "expected ECDSA P-256 public key")
  let signature ← valueOf values SIGNATURE
  (crypto.verify key signature signed).mapError .given
  return hash.flatMap fun b => hexPadded 2 b.toNat

/-- `signed_image`. -/
def signedImage (crypto : Crypto ε κ) (data : Bytes) (limit header : Nat) (publicKey : Bytes) :
    Except (ImageError ε) Text := do
  require (32 ≤ data.length ∧ data.length ≤ limit)
    (.refused "signed image exceeds budget or is truncated")
  let fields ← unpackFrom 20 data 0
  let hdr := leField fields 8 2
  let size := leField fields 12 4
  require (leField fields 0 4 = IMAGE_MAGIC ∧ leField fields 4 4 = 0 ∧ hdr = header
      ∧ leField fields 16 4 = 0)
    (.refused "wrong MCUboot header, load address, header size or flags")
  require (leField fields 10 2 = 0) (.refused "unexpected protected TLVs in phase 1")
  require (0 < size ∧ hdr + size + 4 ≤ data.length) (.refused "truncated image payload")
  let info ← unpackFrom 4 data (hdr + size)
  require (leField info 0 2 = TLV_MAGIC ∧ hdr + size + leField info 2 2 = data.length)
    (.refused "invalid TLV length or unexpected padding/trailer")
  let values ← readTlvs data (hdr + size + 4) []
  checkValues crypto (data.take (hdr + size)) publicKey values

/-- The entry address an ELF file states, without the Thumb bit. -/
def elfEntry (elf : Bytes) : Nat := leField elf 24 4 / 2 * 2

/-- `payload_end`: where the payload ends, behind a header if there is one. -/
def payloadEnd (image : Bytes) (header : Nat) : Except (ImageError ε) Nat :=
  if header ≠ 0 then (unpackFrom 4 image 12).map fun size => header + leNat size
  else .ok image.length

/-- `entry_check`. -/
def entryCheck (elf image : Bytes) (start header : Nat) : Except (ImageError ε) Unit := do
  require (elf.take 7 = [0x7F, 0x45, 0x4C, 0x46, 1, 1, 1]) (.refused "expected ELF32 little endian")
  let machine ← unpackFrom 4 elf 16
  require (leField machine 0 2 = 2 ∧ leField machine 2 2 = 40) (.refused "expected ARM executable")
  let entry ← unpackFrom 4 elf 24
  let stop ← payloadEnd image header
  require (start + header ≤ leNat entry / 2 * 2 ∧ leNat entry / 2 * 2 < start + stop)
    (.refused "ELF entry outside image payload")

/-! ## §2. Complete images. -/

/-- A signed image, taken apart. -/
structure SignedImage where
  header : Bytes
  payload : Bytes
  records : List (UInt8 × Bytes)
  deriving DecidableEq

/-- One TLV record: its kind, a reserved byte, the length of its value, and the value. -/
def recordBytes (r : UInt8 × Bytes) : Bytes := r.1 :: 0 :: (leBytes 2 r.2.length ++ r.2)

/-- Some records, one directly behind the other. -/
def recordsBytes (records : List (UInt8 × Bytes)) : Bytes := records.flatMap recordBytes

/-- The TLV information header: its length covers itself and the records. -/
def SignedImage.info (image : SignedImage) : Bytes :=
  leBytes 2 TLV_MAGIC ++ leBytes 2 (4 + (recordsBytes image.records).length)

/-- What is hashed and signed: every byte before the TLV information header. -/
def SignedImage.signed (image : SignedImage) : Bytes := image.header ++ image.payload

/-- The bytes of an image. -/
def SignedImage.bytes (image : SignedImage) : Bytes :=
  image.signed ++ (image.info ++ recordsBytes image.records)

/-- A record that can be written: a value that is there and whose length has two bytes. -/
def RecordFits (r : UInt8 × Bytes) : Prop := 0 < r.2.length ∧ r.2.length < 65536

/-- The data are this image: its header states its own size and that of the payload, and the
records are exactly a hash, a key hash and a signature. -/
structure Complete (data : Bytes) (image : SignedImage) : Prop where
  bytes : data = image.bytes
  magic : leField data 0 4 = IMAGE_MAGIC
  load : leField data 4 4 = 0
  header : leField data 8 2 = image.header.length
  protectedSize : leField data 10 2 = 0
  payload : leField data 12 4 = image.payload.length
  flags : leField data 16 4 = 0
  payload_pos : 0 < image.payload.length
  fits : ∀ r ∈ image.records, RecordFits r
  info_fits : 4 + (recordsBytes image.records).length < 65536
  kinds : (image.records.map fun r => r.1.toNat).Perm [KEY_HASH, HASH, SIGNATURE]

/-- The records of an image are right: the hash is that of the signed bytes, the key hash that of
the key, and the signature is one over the signed bytes. -/
structure Signed (crypto : Crypto ε κ) (publicKey : Bytes) (image : SignedImage) : Prop where
  hash : (UInt8.ofNat HASH, crypto.sha256 image.signed) ∈ image.records
  keyHash : (UInt8.ofNat KEY_HASH, crypto.sha256 publicKey) ∈ image.records
  signature : ∃ (key : κ) (signature : Bytes), crypto.loadDerPublicKey publicKey = .ok key
    ∧ crypto.isP256 key = true ∧ (UInt8.ofNat SIGNATURE, signature) ∈ image.records
    ∧ crypto.verify key signature image.signed = .ok ()

theorem recordBytes_length (r : UInt8 × Bytes) : (recordBytes r).length = 4 + r.2.length := by
  unfold recordBytes
  rw [List.length_cons, List.length_cons, List.length_append, leBytes_length]
  omega

/-- The fields of a record in front of anything. -/
theorem recordBytes_fields {r : UInt8 × Bytes} (h : RecordFits r) (rest : Bytes) :
    leField (recordBytes r ++ rest) 0 1 = r.1.toNat ∧ leField (recordBytes r ++ rest) 1 1 = 0
      ∧ leField (recordBytes r ++ rest) 2 2 = r.2.length := by
  refine ⟨?_, rfl, ?_⟩
  · show leNat [r.1] = _
    rw [leNat_cons]
    rfl
  · have hfield := leField_append [r.1, 0] (leBytes 2 r.2.length ++ (r.2 ++ rest)) 0 2
    rw [leField_leBytes h.2] at hfield
    rw [← hfield]
    show leField (r.1 :: 0 :: (leBytes 2 r.2.length ++ r.2) ++ rest) 2 2 = _
    rw [List.cons_append, List.cons_append, List.append_assoc]
    rfl

/-- The value of a record in front of anything. -/
theorem recordBytes_value (r : UInt8 × Bytes) (rest : Bytes) :
    ((recordBytes r ++ rest).drop 4).take r.2.length = r.2 := by
  have hfront : recordBytes r ++ rest = (r.1 :: 0 :: leBytes 2 r.2.length) ++ (r.2 ++ rest) := by
    unfold recordBytes
    rw [List.cons_append, List.cons_append, List.append_assoc]
    rfl
  have hlength : (r.1 :: 0 :: leBytes 2 r.2.length).length = 4 := by
    rw [List.length_cons, List.length_cons, leBytes_length]
  rw [hfront, ← hlength, List.drop_left, List.take_left]

/-- Four bytes with a zero in second place, and as many behind them as they say, are a record. -/
theorem exists_record {data : Bytes} (hroom : 4 ≤ data.length) (hreserved : leField data 1 1 = 0)
    (hpos : 0 < leField data 2 2) (hlength : 4 + leField data 2 2 ≤ data.length) :
    ∃ r, RecordFits r ∧ data = recordBytes r ++ data.drop (4 + leField data 2 2)
      ∧ r.2 = (data.drop 4).take (leField data 2 2) ∧ r.1.toNat = leField data 0 1 := by
  match data with
  | kind :: reserved :: low :: high :: rest =>
    have hzero : reserved = 0 := by
      have hnat : leNat [reserved] = 0 := hreserved
      rw [leNat_cons] at hnat
      exact UInt8.toNat_inj.mp (Nat.add_eq_zero_iff.mp hnat).1
    have hlt : leNat [low, high] < 65536 :=
      Nat.lt_of_lt_of_eq (leNat_lt [low, high]) (show 256 ^ 2 = 65536 by norm_num)
    generalize hn : leField (kind :: reserved :: low :: high :: rest) 2 2 = n at *
    have hn : leNat [low, high] = n := hn
    have hvalue : (rest.take n).length = n := by
      rw [List.length_take]
      simp only [List.length_cons] at hlength
      omega
    refine ⟨(kind, rest.take n), ⟨?_, ?_⟩, ?_, rfl, ?_⟩
    · rw [hvalue]
      exact hpos
    · rw [hvalue]
      omega
    · have htwo : leBytes 2 n = [low, high] := by
        rw [← hn]
        exact leBytes_leNat [low, high]
      rw [recordBytes, hvalue, htwo, hzero, Nat.add_comm 4 n]
      show _ = kind :: 0 :: ([low, high] ++ rest.take n) ++ rest.drop n
      rw [List.cons_append, List.cons_append, List.append_assoc, List.take_append_drop]
      rfl
    · show kind.toNat = leNat [kind]
      rw [leNat_cons]
      rfl

/-! ## §3. The loop over the records. -/

/-- What the loop keeps of some records. -/
def keptOf (records : List (UInt8 × Bytes)) : List (Nat × Bytes) :=
  records.map fun r => (r.1.toNat, r.2)

theorem recordsBytes_cons (r : UInt8 × Bytes) (records : List (UInt8 × Bytes)) :
    recordsBytes (r :: records) = recordBytes r ++ recordsBytes records := rfl

theorem unpackFrom_ok {size offset : Nat} {data : Bytes} (h : offset + size ≤ data.length) :
    (unpackFrom size data offset : Except (ImageError ε) Bytes) = .ok ((data.drop offset).take size) :=
  if_pos h

/-- A field of bytes that were unpacked is a field of the data. -/
theorem leField_unpacked {size : Nat} (data : Bytes) (base : Nat) {offset width : Nat}
    (h : offset + width ≤ size) :
    leField ((data.drop base).take size) offset width = leField data (base + offset) width := by
  rw [leField, leField, List.drop_take, List.take_take, List.drop_drop, Nat.min_eq_left (by omega)]

/-- A field where some bytes stand is a field of them. -/
theorem leField_drop (data : Bytes) (base offset width : Nat) :
    leField data (base + offset) width = leField (data.drop base) offset width := by
  rw [leField, leField, List.drop_drop]

/-- One turn of the loop. -/
theorem readTlvs_step {data : Bytes} {position : Nat} (hmore : position < data.length)
    (values result : List (Nat × Bytes)) :
    (readTlvs data position values : Except (ImageError ε) _) = .ok result
      ↔ (position + 4 ≤ data.length ∧ leField (data.drop position) 1 1 = 0
          ∧ 0 < leField (data.drop position) 2 2
          ∧ position + 4 + leField (data.drop position) 2 2 ≤ data.length
          ∧ leField (data.drop position) 0 1 ∉ values.map Prod.fst)
        ∧ (readTlvs data (position + 4 + leField (data.drop position) 2 2)
            (values ++ [(leField (data.drop position) 0 1,
              ((data.drop position).drop 4).take (leField (data.drop position) 2 2))])
          : Except (ImageError ε) _) = .ok result := by
  have hfield : ∀ {offset width : Nat}, offset + width ≤ 4 →
      leField ((data.drop position).take 4) offset width = leField (data.drop position) offset width := by
    intro offset width h
    rw [leField_unpacked data position h, leField_drop]
  rw [readTlvs, if_pos hmore, require_bind_ok_iff]
  constructor
  · rintro ⟨hroom, h⟩
    rw [unpackFrom_ok hroom] at h
    obtain ⟨_, htlv, h⟩ := bind_ok_iff.mp h
    obtain rfl := Except.ok.inj htlv
    obtain ⟨⟨hreserved, hpos, hlength, hkind⟩, h⟩ := require_bind_ok_iff.mp h
    rw [hfield (by decide)] at hreserved hpos hlength hkind
    rw [hfield (by decide), hfield (by decide)] at h
    rw [List.drop_drop]
    exact ⟨⟨hroom, hreserved, hpos, hlength, hkind⟩, h⟩
  · rintro ⟨⟨hroom, hreserved, hpos, hlength, hkind⟩, h⟩
    refine ⟨hroom, ?_⟩
    rw [unpackFrom_ok hroom]
    refine bind_ok_iff.mpr ⟨_, rfl, ?_⟩
    rw [List.drop_drop] at h
    rw [hfield (by decide), hfield (by decide), hfield (by decide)]
    exact require_bind_ok_iff.mpr ⟨⟨hreserved, hpos, hlength, hkind⟩, h⟩

/-- The kinds of a row are different and none is taken: so is its first, and the others where the
first is taken too. -/
theorem fresh_cons_iff {r : UInt8 × Bytes} {records : List (UInt8 × Bytes)}
    {values : List (Nat × Bytes)} (value : Bytes) :
    ((r :: records).map fun r => r.1.toNat).Nodup
        ∧ (∀ other ∈ r :: records, other.1.toNat ∉ values.map Prod.fst)
      ↔ r.1.toNat ∉ values.map Prod.fst ∧ (records.map fun r => r.1.toNat).Nodup
        ∧ ∀ other ∈ records, other.1.toNat ∉ (values ++ [(r.1.toNat, value)]).map Prod.fst := by
  have hout : ∀ kind : Nat, kind ∉ (values ++ [(r.1.toNat, value)]).map Prod.fst
      ↔ kind ∉ values.map Prod.fst ∧ kind ≠ r.1.toNat := by
    intro kind
    rw [List.map_append, List.mem_append, not_or]
    exact and_congr_right' (not_congr List.mem_singleton)
  rw [List.map_cons, List.nodup_cons, List.mem_map]
  constructor
  · rintro ⟨⟨hfirst, hnodup⟩, hfresh⟩
    refine ⟨hfresh r List.mem_cons_self, hnodup, fun other hother => (hout _).mpr ⟨?_, fun heq => ?_⟩⟩
    · exact hfresh other (List.mem_cons_of_mem _ hother)
    · exact hfirst ⟨other, hother, heq⟩
  · rintro ⟨hkind, hnodup, hfresh⟩
    refine ⟨⟨?_, hnodup⟩, fun other hother => ?_⟩
    · rintro ⟨other, hother, heq⟩
      exact ((hout _).mp (hfresh other hother)).2 heq
    · rcases List.mem_cons.mp hother with rfl | hother
      · exact hkind
      · exact ((hout _).mp (hfresh other hother)).1

/-- The end of the data. -/
theorem readTlvs_end {data : Bytes} {position : Nat} (hend : ¬ position < data.length)
    (values : List (Nat × Bytes)) :
    (readTlvs data position values : Except (ImageError ε) _) = .ok values := by
  rw [readTlvs, if_neg hend]

/-- **The loop reads exactly a row of whole records**, of kinds that are all different, up to the
end of the data. -/
theorem readTlvs_ok_iff (data : Bytes) {position : Nat} (hposition : position ≤ data.length)
    (values result : List (Nat × Bytes)) :
    (readTlvs data position values : Except (ImageError ε) _) = .ok result
      ↔ ∃ records, data.drop position = recordsBytes records ∧ (∀ r ∈ records, RecordFits r)
        ∧ (records.map fun r => r.1.toNat).Nodup
        ∧ (∀ r ∈ records, r.1.toNat ∉ values.map Prod.fst) ∧ result = values ++ keptOf records := by
  -- on the bytes that are left
  induction hleft : data.length - position using Nat.strong_induction_on
    generalizing position values with
  | _ left ih =>
    by_cases hmore : position < data.length
    · rw [readTlvs_step hmore]
      constructor
      · rintro ⟨⟨hroom, hreserved, hpos, hlength, hkind⟩, h⟩
        obtain ⟨records, hrecords, hfits, hnodup, hfresh, rfl⟩ :=
          (ih _ (by omega) (by omega) _ rfl).mp h
        obtain ⟨r, hr, hdata, hvalue, hfirst⟩ := exists_record (by rw [List.length_drop]; omega)
          hreserved hpos (by rw [List.length_drop]; omega)
        rw [List.drop_drop, ← Nat.add_assoc, hrecords] at hdata
        rw [← hfirst] at hkind hfresh
        obtain ⟨hnodup, hfresh⟩ := (fresh_cons_iff _).mpr ⟨hkind, hnodup, hfresh⟩
        refine ⟨r :: records, hdata, List.forall_mem_cons.mpr ⟨hr, hfits⟩, hnodup, hfresh, ?_⟩
        rw [List.append_assoc, ← hvalue, ← hfirst]
        rfl
      · rintro ⟨records, hrecords, hfits, hnodup, hfresh, rfl⟩
        have hlength := congrArg List.length hrecords
        rw [List.length_drop] at hlength
        cases records with
        | nil =>
          rw [show (recordsBytes ([] : List (UInt8 × Bytes))).length = 0 from rfl] at hlength
          omega
        | cons r records =>
          rw [recordsBytes_cons] at hrecords
          rw [recordsBytes_cons, List.length_append, recordBytes_length] at hlength
          obtain ⟨hr, hfits⟩ := List.forall_mem_cons.mp hfits
          obtain ⟨hnew, hnodup, hfresh⟩ := (fresh_cons_iff r.2).mp ⟨hnodup, hfresh⟩
          obtain ⟨hkind, hreserved, hsize⟩ := recordBytes_fields hr (recordsBytes records)
          have hvalue := recordBytes_value r (recordsBytes records)
          rw [← hrecords] at hkind hreserved hsize hvalue
          rw [hkind, hreserved, hsize, hvalue]
          have hbehind : data.drop (position + 4 + r.2.length) = recordsBytes records := by
            rw [Nat.add_assoc, ← List.drop_drop, hrecords, ← recordBytes_length, List.drop_left]
          refine ⟨⟨by omega, rfl, hr.1, by omega, hnew⟩, ?_⟩
          refine (ih _ (by omega) (by omega) _ rfl).mpr ⟨records, hbehind, hfits, hnodup, hfresh, ?_⟩
          rw [List.append_assoc]
          rfl
    · rw [readTlvs_end hmore, List.drop_eq_nil_of_le (by omega)]
      constructor
      · intro h
        refine ⟨[], rfl, by simp, List.nodup_nil, by simp, ?_⟩
        rw [← Except.ok.inj h]
        exact (List.append_nil _).symm
      · rintro ⟨records, hrecords, _, _, _, rfl⟩
        cases records with
        | nil => exact congrArg _ (List.append_nil _).symm
        | cons r records => exact absurd hrecords (by simp [recordsBytes_cons, recordBytes])

/-! ## §4. What is accepted. -/

/-- The text of a digest. -/
def digestHex (digest : Bytes) : Text := digest.flatMap fun b => hexPadded 2 b.toNat

theorem keptOf_keys (records : List (UInt8 × Bytes)) :
    (keptOf records).map Prod.fst = records.map fun r => r.1.toNat := List.map_map

/-- Under a kind stands the value of the record of that kind. -/
theorem valueOf_keptOf {records : List (UInt8 × Bytes)}
    (hnodup : (records.map fun r => r.1.toNat).Nodup) {kind : Nat} (hkind : kind < 256)
    {value : Bytes} :
    (valueOf (keptOf records) kind : Except (ImageError ε) Bytes) = .ok value
      ↔ (UInt8.ofNat kind, value) ∈ records := by
  have hlookup : (valueOf (keptOf records) kind : Except (ImageError ε) Bytes) = .ok value
      ↔ (keptOf records).lookup kind = some value := by
    unfold valueOf
    cases (keptOf records).lookup kind with
    | none => exact iff_of_false (by simp) (by simp)
    | some v => simp
  rw [hlookup, lookup_iff_mem (by rw [keptOf_keys]; exact hnodup), keptOf, List.mem_map]
  constructor
  · rintro ⟨r, hr, heq⟩
    obtain ⟨rfl, rfl⟩ := Prod.mk.inj heq
    rw [UInt8.ofNat_toNat]
    exact hr
  · intro h
    refine ⟨_, h, ?_⟩
    rw [UInt8.toNat_ofNat', Nat.mod_eq_of_lt hkind]

/-- The kinds of an accepted image are those three, each once. -/
theorem kinds_iff {kinds : List Nat} (hnodup : kinds.Nodup) :
    ((∀ kind ∈ kinds, kind ∈ [KEY_HASH, HASH, SIGNATURE])
        ∧ ∀ kind ∈ [KEY_HASH, HASH, SIGNATURE], kind ∈ kinds)
      ↔ kinds.Perm [KEY_HASH, HASH, SIGNATURE] := by
  rw [List.perm_ext_iff_of_nodup hnodup (by decide)]
  exact ⟨fun h kind => ⟨h.1 kind, h.2 kind⟩, fun h => ⟨fun kind => (h kind).mp, fun kind => (h kind).mpr⟩⟩

/-- The checks behind the loop. -/
theorem checkValues_ok_iff (crypto : Crypto ε κ) (image : SignedImage) (publicKey : Bytes)
    (hnodup : (image.records.map fun r => r.1.toNat).Nodup) (digest : Text) :
    checkValues crypto image.signed publicKey (keptOf image.records) = .ok digest
      ↔ (image.records.map fun r => r.1.toNat).Perm [KEY_HASH, HASH, SIGNATURE]
        ∧ Signed crypto publicKey image ∧ digest = digestHex (crypto.sha256 image.signed) := by
  have hgiven : ∀ {α : Type} {x : Except ε α} {a : α},
      x.mapError (ImageError.given : ε → ImageError ε) = .ok a ↔ x = .ok a := by
    intro α x a
    cases x with
    | error e => exact iff_of_false (by rintro ⟨⟩) (by rintro ⟨⟩)
    | ok b => exact ⟨fun h => by cases h; rfl, fun h => by cases h; rfl⟩
  unfold checkValues
  rw [require_bind_ok_iff, keptOf_keys, kinds_iff hnodup]
  refine and_congr_right fun _ => ?_
  rw [bind_ok_iff]
  constructor
  · rintro ⟨hash, hhash, h⟩
    obtain ⟨hexact, h⟩ := require_bind_ok_iff.mp h
    obtain ⟨keyHash, hkeyHash, h⟩ := bind_ok_iff.mp h
    obtain ⟨hkeyExact, h⟩ := require_bind_ok_iff.mp h
    rw [hexact] at hhash h
    rw [hkeyExact] at hkeyHash
    obtain ⟨key, hkey, h⟩ := bind_ok_iff.mp h
    obtain ⟨hcurve, h⟩ := require_bind_ok_iff.mp h
    obtain ⟨signature, hsignature, h⟩ := bind_ok_iff.mp h
    obtain ⟨_, hverify, h⟩ := bind_ok_iff.mp h
    refine ⟨⟨(valueOf_keptOf hnodup (by decide)).mp hhash, (valueOf_keptOf hnodup (by decide)).mp hkeyHash,
      key, signature, hgiven.mp hkey, hcurve, (valueOf_keptOf hnodup (by decide)).mp hsignature,
      hgiven.mp hverify⟩, ?_⟩
    exact (Except.ok.inj h).symm
  · rintro ⟨⟨hhash, hkeyHash, key, signature, hkey, hcurve, hsignature, hverify⟩, rfl⟩
    refine ⟨_, (valueOf_keptOf hnodup (by decide)).mpr hhash, require_bind_ok_iff.mpr ⟨rfl, ?_⟩⟩
    refine bind_ok_iff.mpr ⟨_, (valueOf_keptOf hnodup (by decide)).mpr hkeyHash, ?_⟩
    refine require_bind_ok_iff.mpr ⟨rfl, bind_ok_iff.mpr ⟨key, hgiven.mpr hkey, ?_⟩⟩
    refine require_bind_ok_iff.mpr ⟨hcurve, ?_⟩
    refine bind_ok_iff.mpr ⟨signature, (valueOf_keptOf hnodup (by decide)).mpr hsignature, ?_⟩
    exact bind_ok_iff.mpr ⟨(), hgiven.mpr hverify, rfl⟩

/-- What `signed_image` reads of the header and of the TLV information header. -/
theorem signedImage_reads (crypto : Crypto ε κ) (data : Bytes) (limit header : Nat)
    (publicKey : Bytes) (digest : Text) :
    signedImage crypto data limit header publicKey = .ok digest
      ↔ (32 ≤ data.length ∧ data.length ≤ limit)
        ∧ (leField data 0 4 = IMAGE_MAGIC ∧ leField data 4 4 = 0 ∧ leField data 8 2 = header
          ∧ leField data 16 4 = 0)
        ∧ leField data 10 2 = 0
        ∧ (0 < leField data 12 4 ∧ leField data 8 2 + leField data 12 4 + 4 ≤ data.length)
        ∧ (leField data (leField data 8 2 + leField data 12 4) 2 = TLV_MAGIC
          ∧ leField data 8 2 + leField data 12 4
              + leField data (leField data 8 2 + leField data 12 4 + 2) 2 = data.length)
        ∧ ∃ values, (readTlvs data (leField data 8 2 + leField data 12 4 + 4) []
            : Except (ImageError ε) _) = .ok values
          ∧ checkValues crypto (data.take (leField data 8 2 + leField data 12 4)) publicKey values
            = .ok digest := by
  have hfield : ∀ {offset width : Nat}, offset + width ≤ 20 →
      leField ((data.drop 0).take 20) offset width = leField data offset width := by
    intro offset width h
    rw [leField_unpacked data 0 h, Nat.zero_add]
  unfold signedImage
  rw [require_bind_ok_iff]
  refine and_congr_right fun hlength => ?_
  have hunpack : (unpackFrom 20 data 0 : Except (ImageError ε) Bytes)
      = .ok ((data.drop 0).take 20) := unpackFrom_ok (by omega)
  rw [hunpack, ok_bind]
  dsimp only
  rw [require_bind_ok_iff, hfield (by decide), hfield (by decide), hfield (by decide),
    hfield (by decide)]
  refine and_congr_right fun hfields => ?_
  rw [require_bind_ok_iff, hfield (by decide)]
  refine and_congr_right fun hprotected => ?_
  rw [require_bind_ok_iff, hfield (by decide)]
  refine and_congr_right fun hpayload => ?_
  have hinfo : (unpackFrom 4 data (leField data 8 2 + leField data 12 4)
      : Except (ImageError ε) Bytes)
      = .ok ((data.drop (leField data 8 2 + leField data 12 4)).take 4) := unpackFrom_ok hpayload.2
  rw [hinfo, ok_bind, require_bind_ok_iff, leField_unpacked data _ (by decide),
    leField_unpacked data _ (by decide)]
  refine and_congr_right fun htlv => ?_
  rw [bind_ok_iff]

/-! ### The bytes of a complete image. -/

theorem SignedImage.info_length (image : SignedImage) : image.info.length = 4 := by
  rw [SignedImage.info, List.length_append, leBytes_length, leBytes_length]

section Complete

variable {data : Bytes} {image : SignedImage}

theorem Complete.length_eq (h : Complete data image) :
    data.length = image.signed.length + 4 + (recordsBytes image.records).length := by
  rw [h.bytes, SignedImage.bytes, List.length_append, List.length_append, image.info_length]
  omega

theorem Complete.take_signed (h : Complete data image) :
    data.take image.signed.length = image.signed := by
  rw [h.bytes, SignedImage.bytes, List.take_left]

theorem Complete.drop_records (h : Complete data image) :
    data.drop (image.signed.length + 4) = recordsBytes image.records := by
  rw [h.bytes, SignedImage.bytes, ← List.drop_drop, List.drop_left, ← image.info_length,
    List.drop_left]

/-- The header and the payload end where the header says. -/
theorem Complete.signed_length (h : Complete data image) :
    leField data 8 2 + leField data 12 4 = image.signed.length := by
  rw [h.header, h.payload, SignedImage.signed, List.length_append]

/-- The fields of the TLV information header. -/
theorem Complete.info_fields (h : Complete data image) :
    leField data image.signed.length 2 = TLV_MAGIC
      ∧ leField data (image.signed.length + 2) 2 = 4 + (recordsBytes image.records).length := by
  have hmagic := leField_append image.signed (image.info ++ recordsBytes image.records) 0 2
  have htotal := leField_append image.signed (image.info ++ recordsBytes image.records) 2 2
  have hinfo : image.info ++ recordsBytes image.records
      = leBytes 2 TLV_MAGIC ++ (leBytes 2 (4 + (recordsBytes image.records).length)
        ++ recordsBytes image.records) := by
    rw [SignedImage.info, List.append_assoc]
  have hbehind := leField_append (leBytes 2 TLV_MAGIC)
    (leBytes 2 (4 + (recordsBytes image.records).length) ++ recordsBytes image.records) 0 2
  rw [leBytes_length, Nat.add_zero, leField_leBytes h.info_fits] at hbehind
  rw [hinfo, leField_leBytes (by decide), Nat.add_zero] at hmagic
  rw [hinfo, hbehind] at htotal
  rw [h.bytes, SignedImage.bytes, hinfo]
  exact ⟨hmagic, htotal⟩

/-- The loop reads its records. -/
theorem Complete.readTlvs (h : Complete data image) :
    (readTlvs data (image.signed.length + 4) [] : Except (ImageError ε) _)
      = .ok (keptOf image.records) := by
  have hlength := h.length_eq
  refine (readTlvs_ok_iff data (by omega) _ _).mpr ⟨image.records, h.drop_records, h.fits, ?_,
    fun r _ => List.not_mem_nil, rfl⟩
  exact h.kinds.symm.nodup_iff.mp (by decide)

/-- **There is one way to take an image apart.** -/
theorem Complete.unique {other : SignedImage} (h : Complete data image)
    (h' : Complete data other) : image = other := by
  have hsigned : image.signed = other.signed := by
    rw [← h.take_signed, ← h'.take_signed, ← h.signed_length, ← h'.signed_length]
  have hheader : image.header.length = other.header.length := h.header.symm.trans h'.header
  obtain ⟨hfront, hback⟩ := List.append_inj hsigned hheader
  have hread := (h.readTlvs (ε := Unit)).symm.trans (hsigned ▸ h'.readTlvs)
  have hrecords : image.records = other.records := by
    refine List.map_injective_iff.mpr ?_ (Except.ok.inj hread)
    intro a b hab
    obtain ⟨hkind, hvalue⟩ := Prod.mk.inj hab
    exact Prod.ext (UInt8.toNat_inj.mp hkind) hvalue
  cases image
  cases other
  exact congr (congrArg₂ SignedImage.mk hfront hback) hrecords

end Complete

/-- The data taken apart where their header says, with these records. -/
def splitImage (data : Bytes) (records : List (UInt8 × Bytes)) : SignedImage where
  header := data.take (leField data 8 2)
  payload := (data.drop (leField data 8 2)).take (leField data 12 4)
  records := records

theorem splitImage_signed (data : Bytes) (records : List (UInt8 × Bytes)) :
    (splitImage data records).signed = data.take (leField data 8 2 + leField data 12 4) :=
  List.take_add.symm

/-- Data whose headers were read as they should be, with whole records behind them, are that
image. -/
theorem complete_split {data : Bytes} {records : List (UInt8 × Bytes)}
    (hmagic : leField data 0 4 = IMAGE_MAGIC) (hload : leField data 4 4 = 0)
    (hflags : leField data 16 4 = 0) (hprotected : leField data 10 2 = 0)
    (hpos : 0 < leField data 12 4)
    (hroom : leField data 8 2 + leField data 12 4 + 4 ≤ data.length)
    (htlv : leField data (leField data 8 2 + leField data 12 4) 2 = TLV_MAGIC)
    (htotal : leField data 8 2 + leField data 12 4
      + leField data (leField data 8 2 + leField data 12 4 + 2) 2 = data.length)
    (hrecords : data.drop (leField data 8 2 + leField data 12 4 + 4) = recordsBytes records)
    (hfits : ∀ r ∈ records, RecordFits r)
    (hkinds : (records.map fun r => r.1.toNat).Perm [KEY_HASH, HASH, SIGNATURE]) :
    Complete data (splitImage data records) := by
  have hheader : (splitImage data records).header.length = leField data 8 2 := by
    rw [splitImage, List.length_take]
    omega
  have hpayload : (splitImage data records).payload.length = leField data 12 4 := by
    rw [splitImage, List.length_take, List.length_drop]
    omega
  have hsigned := splitImage_signed data records
  generalize hsum : leField data 8 2 + leField data 12 4 = stop at *
  have hlength := congrArg List.length hrecords
  rw [List.length_drop] at hlength
  have htwo : leField data (stop + 2) 2 < 65536 :=
    Nat.lt_of_lt_of_le (leNat_lt _)
      ((Nat.pow_le_pow_right (by decide) (List.length_take_le _ _)).trans
        (show 256 ^ 2 ≤ 65536 by norm_num))
  -- the four bytes of the information header
  have hinfo : (data.drop stop).take 4 = (splitImage data records).info := by
    have hmagicBytes := leBytes_leField data stop 2 (by omega)
    have htotalBytes := leBytes_leField data (stop + 2) 2 (by omega)
    rw [htlv] at hmagicBytes
    rw [show leField data (stop + 2) 2 = 4 + (recordsBytes records).length by omega,
      ← List.drop_drop] at htotalBytes
    show _ = leBytes 2 TLV_MAGIC ++ leBytes 2 (4 + (recordsBytes records).length)
    rw [hmagicBytes, htotalBytes]
    show (data.drop stop).take (2 + 2) = _
    exact List.take_add
  have hbytes : data = (splitImage data records).bytes := by
    show data = (splitImage data records).signed
      ++ ((splitImage data records).info ++ recordsBytes records)
    rw [hsigned, ← hinfo, ← hrecords, ← List.drop_drop, List.take_append_drop,
      List.take_append_drop]
  have hinfoFits : 4 + (recordsBytes records).length < 65536 := by omega
  exact ⟨hbytes, hmagic, hload, hheader.symm, hprotected, hpayload.symm, hflags,
    by rw [hpayload]; exact hpos, hfits, hinfoFits, hkinds⟩

/-- **An image is accepted exactly when** it is within the budget, complete, with a header of the
size that was asked for, and its records are right. -/
theorem signedImage_ok_iff (crypto : Crypto ε κ) (data : Bytes) (limit header : Nat)
    (publicKey : Bytes) (digest : Text) :
    signedImage crypto data limit header publicKey = .ok digest
      ↔ (32 ≤ data.length ∧ data.length ≤ limit)
        ∧ ∃ image, Complete data image ∧ image.header.length = header
          ∧ Signed crypto publicKey image ∧ digest = digestHex (crypto.sha256 image.signed) := by
  rw [signedImage_reads]
  refine and_congr_right fun hlength => ?_
  constructor
  · rintro ⟨⟨hmagic, hload, hheader, hflags⟩, hprotected, ⟨hpos, hroom⟩, ⟨htlv, htotal⟩, values,
      hread, hcheck⟩
    obtain ⟨records, hrecords, hfits, hnodup, _, rfl⟩ := (readTlvs_ok_iff data hroom _ _).mp hread
    rw [← splitImage_signed data records, List.nil_append] at hcheck
    obtain ⟨hkinds, hsigned, hdigest⟩ :=
      (checkValues_ok_iff crypto (splitImage data records) publicKey hnodup digest).mp hcheck
    have hcomplete := complete_split hmagic hload hflags hprotected hpos hroom htlv htotal hrecords
      hfits hkinds
    exact ⟨splitImage data records, hcomplete, hcomplete.header.symm.trans hheader, hsigned, hdigest⟩
  · rintro ⟨image, h, hheader, hsigned, hdigest⟩
    have hlength := h.length_eq
    obtain ⟨htlv, htotal⟩ := h.info_fields
    rw [h.signed_length]
    refine ⟨⟨h.magic, h.load, h.header.trans hheader, h.flags⟩, h.protectedSize, ⟨?_, by omega⟩,
      ⟨htlv, by omega⟩, keptOf image.records, h.readTlvs, ?_⟩
    · rw [h.payload]
      exact h.payload_pos
    · rw [h.take_signed]
      exact (checkValues_ok_iff crypto image publicKey (h.kinds.symm.nodup_iff.mp (by decide)) digest).mpr
        ⟨h.kinds, hsigned, hdigest⟩

/-! ## §5. What is raised, and the entry address. -/

/-- The refusals of `signed_image`. -/
def OWN_REFUSALS : List String :=
  ["signed image exceeds budget or is truncated",
    "wrong MCUboot header, load address, header size or flags",
    "unexpected protected TLVs in phase 1", "truncated image payload",
    "invalid TLV length or unexpected padding/trailer", "truncated TLV",
    "invalid or duplicate TLV", "missing hash/key/signature or unsupported TLV",
    "image hash mismatch", "wrong signing key", "expected ECDSA P-256 public key"]

/-- A refusal of its own, or an exception of the given functions on this key: loading it, or
checking a signature. -/
def Refusal (crypto : Crypto ε κ) (publicKey : Bytes) : ImageError ε → Prop
  | .refused reason => reason ∈ OWN_REFUSALS
  | .given e => crypto.loadDerPublicKey publicKey = .error e
    ∨ ∃ key signature message, crypto.loadDerPublicKey publicKey = .ok key
      ∧ crypto.verify key signature message = .error e
  | _ => False

theorem raises_unpackFrom {P : ImageError ε → Prop} {size offset : Nat} {data : Bytes}
    (h : offset + size ≤ data.length) : Raises P (unpackFrom size data offset) := by
  rw [unpackFrom_ok h]
  exact raises_ok _

/-- The loop raises its own refusals only; it never reads past the end. -/
theorem readTlvs_raises {P : ImageError ε → Prop} (htruncated : P (.refused "truncated TLV"))
    (hinvalid : P (.refused "invalid or duplicate TLV")) (data : Bytes) (position : Nat)
    (values : List (Nat × Bytes)) : Raises P (readTlvs data position values) := by
  induction hleft : data.length - position using Nat.strong_induction_on
    generalizing position values with
  | _ left ih =>
    unfold readTlvs
    split
    · refine Raises.require_bind htruncated fun hroom => ?_
      refine (raises_unpackFrom hroom).bind fun tlv _ => ?_
      exact Raises.require_bind hinvalid fun _ => ih _ (by omega) _ _ rfl
    · exact raises_ok _

/-- A kind that stands among the values has a value. -/
theorem raises_valueOf {P : ImageError ε → Prop} {values : List (Nat × Bytes)} {kind : Nat}
    (h : kind ∈ values.map Prod.fst) : Raises P (valueOf values kind) := by
  obtain ⟨pair, hpair, rfl⟩ := List.mem_map.mp h
  unfold valueOf
  cases hlookup : values.lookup pair.1 with
  | none =>
    have hnot := List.lookup_eq_none_iff.mp hlookup pair hpair
    exact absurd hnot (by simp)
  | some value => exact raises_ok value

theorem raises_given {α : Type} {P : ImageError ε → Prop} {x : Except ε α}
    (h : ∀ e, x = .error e → P (.given e)) : Raises P (x.mapError .given) := by
  cases x with
  | ok a => exact raises_ok a
  | error e => exact raises_error (h e rfl)

theorem checkValues_raises (crypto : Crypto ε κ) (signed publicKey : Bytes)
    (values : List (Nat × Bytes)) :
    Raises (Refusal crypto publicKey) (checkValues crypto signed publicKey values) := by
  unfold checkValues
  refine Raises.require_bind (by simp [Refusal, OWN_REFUSALS]) fun hkinds => ?_
  refine (raises_valueOf (hkinds.2 HASH (by decide))).bind fun hash _ => ?_
  refine Raises.require_bind (by simp [Refusal, OWN_REFUSALS]) fun _ => ?_
  refine (raises_valueOf (hkinds.2 KEY_HASH (by decide))).bind fun keyHash _ => ?_
  refine Raises.require_bind (by simp [Refusal, OWN_REFUSALS]) fun _ => ?_
  refine (raises_given fun e he => .inl he).bind fun key hkey => ?_
  refine Raises.require_bind (by simp [Refusal, OWN_REFUSALS]) fun _ => ?_
  refine (raises_valueOf (hkinds.2 SIGNATURE (by decide))).bind fun signature _ => ?_
  have hloaded : crypto.loadDerPublicKey publicKey = .ok key := by
    cases hload : crypto.loadDerPublicKey publicKey with
    | error e =>
      rw [hload] at hkey
      cases hkey
    | ok k =>
      rw [hload] at hkey
      cases hkey
      rfl
  refine (raises_given fun e he => .inr ⟨key, signature, signed, hloaded, he⟩).bind fun _ _ => ?_
  exact raises_ok _

/-- **Every exception of `signed_image`** is a refusal of its own, or one of the given functions. -/
theorem signedImage_raises (crypto : Crypto ε κ) (data : Bytes) (limit header : Nat)
    (publicKey : Bytes) :
    Raises (Refusal crypto publicKey) (signedImage crypto data limit header publicKey) := by
  unfold signedImage
  refine Raises.require_bind (by simp [Refusal, OWN_REFUSALS]) fun hlength => ?_
  refine (raises_unpackFrom (by omega)).bind fun fields _ => ?_
  refine Raises.require_bind (by simp [Refusal, OWN_REFUSALS]) fun _ => ?_
  refine Raises.require_bind (by simp [Refusal, OWN_REFUSALS]) fun _ => ?_
  refine Raises.require_bind (by simp [Refusal, OWN_REFUSALS]) fun hpayload => ?_
  refine (raises_unpackFrom hpayload.2).bind fun info _ => ?_
  refine Raises.require_bind (by simp [Refusal, OWN_REFUSALS]) fun _ => ?_
  refine (readTlvs_raises (by simp [Refusal, OWN_REFUSALS]) (by simp [Refusal, OWN_REFUSALS]) _ _ _).bind
    fun values _ => ?_
  exact checkValues_raises crypto _ _ _

/-- What was unpacked. -/
theorem unpackFrom_eq {size offset : Nat} {data bytes : Bytes}
    (h : (unpackFrom size data offset : Except (ImageError ε) Bytes) = .ok bytes) :
    bytes = (data.drop offset).take size := by
  unfold unpackFrom at h
  split at h
  · exact (Except.ok.inj h).symm
  · cases h

/-- The entry address that is accepted lies between the header and the end of the payload. -/
theorem entryCheck_between {elf data : Bytes} {start header : Nat}
    (h : (entryCheck elf data start header : Except (ImageError ε) Unit) = .ok ()) :
    ∃ stop, (payloadEnd data header : Except (ImageError ε) Nat) = .ok stop
      ∧ start + header ≤ elfEntry elf ∧ elfEntry elf < start + stop := by
  unfold entryCheck at h
  obtain ⟨_, h⟩ := require_bind_ok_iff.mp h
  obtain ⟨machine, _, h⟩ := bind_ok_iff.mp h
  obtain ⟨_, h⟩ := require_bind_ok_iff.mp h
  obtain ⟨entry, hread, h⟩ := bind_ok_iff.mp h
  obtain ⟨stop, hstop, h⟩ := bind_ok_iff.mp h
  have hvalue : leNat entry / 2 * 2 = elfEntry elf := by
    rw [unpackFrom_eq hread]
    rfl
  unfold KFsw.Lib.require at h
  split at h
  · rename_i hinside
    rw [hvalue] at hinside
    exact ⟨stop, hstop, hinside⟩
  · cases h

/-- **An entry address that is accepted for an image** lies inside its payload, when the image has
a header; a header of no bytes stands for an image without one, and the address then lies inside
all of it. -/
theorem entryCheck_inside {elf data : Bytes} {image : SignedImage} (h : Complete data image)
    {start : Nat}
    (hentry : (entryCheck elf data start image.header.length : Except (ImageError ε) Unit) = .ok ()) :
    (image.header.length ≠ 0 → start + image.header.length ≤ elfEntry elf
        ∧ elfEntry elf < start + image.header.length + image.payload.length)
      ∧ (image.header.length = 0 → start ≤ elfEntry elf ∧ elfEntry elf < start + data.length) := by
  obtain ⟨stop, hstop, hleast, hmost⟩ := entryCheck_between hentry
  unfold payloadEnd at hstop
  constructor
  · intro hheader
    rw [if_pos hheader] at hstop
    cases hsize : (unpackFrom 4 data 12 : Except (ImageError ε) Bytes) with
    | error e =>
      rw [hsize] at hstop
      cases hstop
    | ok size =>
      rw [hsize] at hstop
      -- the payload ends where the header of the image says
      have hfield : leNat size = leField data 12 4 := by rw [unpackFrom_eq hsize, leField]
      have hend : image.header.length + leNat size = stop := Except.ok.inj hstop
      rw [hfield, h.payload] at hend
      exact ⟨hleast, by omega⟩
  · intro hheader
    rw [if_neg (not_not_intro hheader)] at hstop
    obtain rfl := Except.ok.inj hstop
    exact ⟨by omega, hmost⟩

/-- **Only a completely signed image is accepted**: `signed_image` returns, or raises a refusal of
its own or an exception of the given functions; where it returns, the data are one complete image
with right records and can be taken apart in one way; and an entry address that is accepted for
them lies inside the payload, or, when the header has no bytes, inside the whole image. -/
theorem signedImage_sound (crypto : Crypto ε κ) (data : Bytes) (limit header : Nat)
    (publicKey : Bytes) :
    ((∃ digest, signedImage crypto data limit header publicKey = .ok digest)
      ∨ ∃ e, signedImage crypto data limit header publicKey = .error e ∧ Refusal crypto publicKey e)
    ∧ ∀ digest, signedImage crypto data limit header publicKey = .ok digest →
      ∃ image, (Complete data image ∧ image.header.length = header ∧ Signed crypto publicKey image)
        ∧ (∀ other, Complete data other → other = image)
        ∧ ∀ (elf : Bytes) (start : Nat),
          (entryCheck elf data start header : Except (ImageError ε) Unit) = .ok () →
          (header ≠ 0 → start + image.header.length ≤ elfEntry elf
              ∧ elfEntry elf < start + image.header.length + image.payload.length)
            ∧ (header = 0 → start ≤ elfEntry elf ∧ elfEntry elf < start + data.length) := by
  constructor
  · cases hresult : signedImage crypto data limit header publicKey with
    | ok digest => exact .inl ⟨digest, rfl⟩
    | error e =>
      exact .inr ⟨e, rfl, signedImage_raises crypto data limit header publicKey e hresult⟩
  · intro digest hdigest
    obtain ⟨_, image, hcomplete, rfl, hsigned, _⟩ :=
      (signedImage_ok_iff crypto data limit header publicKey digest).mp hdigest
    refine ⟨image, ⟨hcomplete, rfl, hsigned⟩, fun other h => h.unique hcomplete, ?_⟩
    exact fun elf start hentry => entryCheck_inside hcomplete hentry

/-! ### An image. -/

def exampleKey : Bytes := [0x30, 0x59]

/-- The two digests an example needs, and a key whose signatures are one byte. -/
def exampleCrypto : Crypto Unit Unit where
  sha256 := fun message =>
    if message = exampleKey then
      beBytes 32 0x07bef2206a89b8ddd31002970520c9aae135576c12aaa5fe72c96de3b217157d
    else
      beBytes 32 0x17eb58ddfe2facafa23c7bfff9c53ca43fd0f22ea3688eeb0ec46ca61bf156f8
  loadDerPublicKey := fun _ => .ok ()
  isP256 := fun _ => true
  verify := fun _ signature _ => if signature = [0x2A] then .ok () else .error ()

/-- A header of 32 bytes and a payload of four, with the records in another order. -/
def exampleImage : SignedImage where
  header := leBytes 4 IMAGE_MAGIC ++ leBytes 4 0 ++ leBytes 2 32 ++ leBytes 2 0 ++ leBytes 4 4
    ++ leBytes 4 0 ++ List.replicate 12 0
  payload := [0x4B, 0x46, 0x53, 0x57]
  records :=
    [(0x22, [0x2A]),
      (0x10, beBytes 32 0x17eb58ddfe2facafa23c7bfff9c53ca43fd0f22ea3688eeb0ec46ca61bf156f8),
      (0x01, beBytes 32 0x07bef2206a89b8ddd31002970520c9aae135576c12aaa5fe72c96de3b217157d)]

/-- An ELF32 ARM executable whose entry is the first byte of the payload at 0x08040000. -/
def exampleElf : Bytes :=
  [0x7F, 0x45, 0x4C, 0x46, 1, 1, 1] ++ List.replicate 9 0 ++ leBytes 2 2 ++ leBytes 2 40
    ++ leBytes 4 1 ++ leBytes 4 0x08040021

theorem exampleImage_complete : Complete exampleImage.bytes exampleImage where
  bytes := rfl
  magic := by decide +kernel
  load := by decide +kernel
  header := by decide +kernel
  protectedSize := by decide +kernel
  payload := by decide +kernel
  flags := by decide +kernel
  payload_pos := by decide
  fits := by
    unfold RecordFits
    decide +kernel
  info_fits := by decide +kernel
  kinds := by decide +kernel

theorem exampleImage_signed : Signed exampleCrypto exampleKey exampleImage where
  hash := by decide +kernel
  keyHash := by decide +kernel
  signature := ⟨(), [0x2A], rfl, rfl, List.mem_cons_self, rfl⟩

theorem exampleElf_entry :
    (entryCheck exampleElf exampleImage.bytes 0x08040000 32 : Except (ImageError Unit) Unit)
      = .ok () := by
  unfold entryCheck
  refine require_bind_ok_iff.mpr ⟨by decide +kernel, ?_⟩
  refine bind_ok_iff.mpr ⟨_, unpackFrom_ok (by decide +kernel), ?_⟩
  refine require_bind_ok_iff.mpr ⟨by decide +kernel, ?_⟩
  refine bind_ok_iff.mpr ⟨_, unpackFrom_ok (by decide +kernel), ?_⟩
  have hstop : (payloadEnd exampleImage.bytes 32 : Except (ImageError Unit) Nat) = .ok 36 := by
    unfold payloadEnd
    rw [if_pos (by decide), unpackFrom_ok (by decide +kernel)]
    exact congrArg Except.ok (by decide +kernel)
  refine bind_ok_iff.mpr ⟨36, hstop, ?_⟩
  exact if_pos (by decide +kernel)

/-- The image is accepted, and so is the entry address. -/
theorem signedImage_sound_example :
    ∃ image, Complete exampleImage.bytes image
      ∧ 0x08040000 + image.header.length ≤ elfEntry exampleElf
      ∧ elfEntry exampleElf < 0x08040000 + image.header.length + image.payload.length := by
  have haccepted := (signedImage_ok_iff exampleCrypto exampleImage.bytes 0x40000 32 exampleKey
    (digestHex (exampleCrypto.sha256 exampleImage.signed))).mpr
    ⟨by decide +kernel, exampleImage, exampleImage_complete, rfl, exampleImage_signed, rfl⟩
  obtain ⟨image, ⟨hcomplete, _, _⟩, _, hinside⟩ :=
    (signedImage_sound exampleCrypto exampleImage.bytes 0x40000 32 exampleKey).2 _ haccepted
  exact ⟨image, hcomplete, (hinside exampleElf 0x08040000 exampleElf_entry).1 (by decide)⟩

/-! ### An image without a header. -/

/-- Its digests. -/
def headerlessCrypto : Crypto Unit Unit :=
  { exampleCrypto with
    sha256 := fun message =>
      if message = exampleKey then exampleCrypto.sha256 message
      else beBytes 32 0xfd64fb7e12532488dd55181ede355118eacdd30efac74157d0e804b0b882e6b5 }

/-- A payload of 32 bytes that begins with the fields of a header of no bytes. -/
def headerlessImage : SignedImage where
  header := []
  payload := leBytes 4 IMAGE_MAGIC ++ leBytes 4 0 ++ leBytes 2 0 ++ leBytes 2 0 ++ leBytes 4 32
    ++ leBytes 4 0 ++ List.replicate 12 0
  records :=
    [(0x22, [0x2A]),
      (0x10, beBytes 32 0xfd64fb7e12532488dd55181ede355118eacdd30efac74157d0e804b0b882e6b5),
      (0x01, beBytes 32 0x07bef2206a89b8ddd31002970520c9aae135576c12aaa5fe72c96de3b217157d)]

theorem headerlessImage_complete : Complete headerlessImage.bytes headerlessImage where
  bytes := rfl
  magic := by decide +kernel
  load := by decide +kernel
  header := by decide +kernel
  protectedSize := by decide +kernel
  payload := by decide +kernel
  flags := by decide +kernel
  payload_pos := by decide
  fits := by
    unfold RecordFits
    decide +kernel
  info_fits := by decide +kernel
  kinds := by decide +kernel

/-- The entry is the first byte behind that payload. -/
theorem headerlessImage_entry :
    (entryCheck exampleElf headerlessImage.bytes 0x08040000 0 : Except (ImageError Unit) Unit)
      = .ok () := by
  unfold entryCheck
  refine require_bind_ok_iff.mpr ⟨by decide +kernel, ?_⟩
  refine bind_ok_iff.mpr ⟨_, unpackFrom_ok (by decide +kernel), ?_⟩
  refine require_bind_ok_iff.mpr ⟨by decide +kernel, ?_⟩
  refine bind_ok_iff.mpr ⟨_, unpackFrom_ok (by decide +kernel), ?_⟩
  refine bind_ok_iff.mpr ⟨headerlessImage.bytes.length, if_neg (by decide), ?_⟩
  exact if_pos (by decide +kernel)

/-- The image is accepted, and so is an entry address among its TLV records. -/
theorem signedImage_headerless :
    signedImage headerlessCrypto headerlessImage.bytes 0x40000 0 exampleKey
        = .ok (digestHex (headerlessCrypto.sha256 headerlessImage.signed))
      ∧ (entryCheck exampleElf headerlessImage.bytes 0x08040000 0
        : Except (ImageError Unit) Unit) = .ok ()
      ∧ ∀ image, Complete headerlessImage.bytes image →
        ¬ elfEntry exampleElf < 0x08040000 + image.header.length + image.payload.length := by
  refine ⟨?_, headerlessImage_entry, fun image h => ?_⟩
  · refine (signedImage_ok_iff _ _ _ _ _ _).mpr
      ⟨by decide +kernel, headerlessImage, headerlessImage_complete, rfl, ⟨?_, ?_, ?_⟩, rfl⟩
    · decide +kernel
    · decide +kernel
    · exact ⟨(), [0x2A], rfl, rfl, List.mem_cons_self, rfl⟩
  · rw [h.unique headerlessImage_complete]
    decide +kernel

end KFsw.Tools
