/-
  KFsw.App.FtpDiagnostics — the file-transfer diagnostics,
  `app/src/diagnostics/ftp_diagnostics.c`: a file with a known pattern, and the
  comparison of two files.

  Both are programs over the operations of the file system, any of which may
  fail.  `fs_open` fails or leaves an open file, whose `mp` is then not NULL;
  `fs_read` fails or gives bytes.

  Main results:
    * `writeLoop_run`     — what the chunks written so far are;
    * `generate_run`      — a whole run of `ftp_diagnostic_generate`;
    * `compareLoop_run`   — what the chunks read so far tell of two files;
    * `compare_run`       — a whole run of `ftp_diagnostic_compare`.
-/
import KFsw.App.HkEntries
import KFsw.Lib.Crc
import KFsw.Lib.Service

namespace KFsw.App

open KFsw.Lib Prog

def EILSEQ : Int := 84

/-! ## §1. The operations. -/

/-- The files a diagnostic has open; `generate` has the first only. -/
inductive FsFile where
  | first
  | second
  deriving DecidableEq

/-- `FS_O_READ`, or `FS_O_CREATE | FS_O_WRITE | FS_O_TRUNC`. -/
inductive OpenFlags where
  | read
  | createWriteTrunc
  deriving DecidableEq

/-- An operation of the file system, or the check of a path. -/
inductive FsCall where
  | validatePath (path : Text)
  | openFile (file : FsFile) (path : Text) (flags : OpenFlags)
  | write (file : FsFile) (data : Bytes)
  | read (file : FsFile) (size : Nat)
  | sync (file : FsFile)
  | close (file : FsFile)

/-- An error of an operation. -/
structure Errno where
  code : Int
  code_neg : code < 0

/-- What an operation answers: a result, for `write` the bytes that were written or an error, and
for `read` the bytes it gave. -/
abbrev FsReply : FsCall → Type
  | .read _ _ => Except Errno Bytes
  | _ => Int

/-- A diagnostic. -/
abbrev FsProg (α : Type) := Prog FsCall FsReply α

/-- The operations of a run, with their answers. -/
abbrev FsTrace := List (Sigma FsReply)

/-- What the build and the libraries give. -/
structure FtpConfig where
  /-- `KFSW_FTP_STORAGE_ROOT`. -/
  storageRoot : Text
  /-- `crc32_ieee_update`. -/
  crc32IeeeUpdate : BitVec 32 → Bytes → BitVec 32

variable (cfg : FtpConfig)

/-! ## §2. The diagnostics. -/

/-- `sizeof(full_path)` and `sizeof(data)`. -/
def FULL_PATH_SIZE : Nat := 128
def CHUNK_SIZE : Nat := 64

/-- The path under the storage root. -/
def fullPath (path : Text) : Text :=
  cfg.storageRoot ++ '/' :: (if path.head? = some '/' then path.tail else path)

/-- The result of `resolve_ftp_local_path`, by that of `kfsw_ftp_validate_path`; the path is
`fullPath` where it is 0. -/
def resolved (path : Text) (result : Int) : Int :=
  if result ≠ 0 then result
  -- the text of `snprintf` is whole when its length is less than the size
  else if (fullPath cfg path).length < FULL_PATH_SIZE then 0
  else -ENAMETOOLONG

/-- `resolve_ftp_local_path`. -/
def resolveFtpLocalPath (path : Text) : FsProg Int :=
  .call (.validatePath path) fun (result : Int) => .done (resolved cfg path result)

/-- `fs_open`, where nothing failed before: the result, and whether `mp` is set then. -/
def openIf (result : Int) (file : FsFile) (path : Text) (flags : OpenFlags) :
    FsProg (Int × Bool) :=
  if result = 0 then
    .call (.openFile file (fullPath cfg path) flags) fun (result : Int) =>
      .done (result, decide (result = 0))
  else .done (result, false)

/-- `fs_sync`, where nothing failed before. -/
def syncIf (result : Int) (file : FsFile) : FsProg Int :=
  if result = 0 then .call (.sync file) fun (result : Int) => .done result else .done result

/-- `fs_close` of a file that is open; its error is the result where nothing failed before. -/
def closeIf (result : Int) (file : FsFile) (mp : Bool) : FsProg Int :=
  if mp = true then
    .call (.close file) fun (closeResult : Int) =>
      .done (if result = 0 then closeResult else result)
  else .done result

/-- `(uint8_t)((i * 31U + 7U) & UINT8_MAX)`; whatever the width of the product, the low byte is
the same. -/
def patternByte (i : Nat) : UInt8 := UInt8.ofNat (i * 31 + 7)

/-- The writing loop of `ftp_diagnostic_generate`: its result, and `crc`. -/
def writeLoop (size offset : Nat) (crc : BitVec 32) : FsProg (Int × BitVec 32) :=
  if offset < size then
    let chunkSize := min CHUNK_SIZE (size - offset)
    let data := (List.range chunkSize).map fun index => patternByte (offset + index)
    .call (.write .first data) fun (written : Int) =>
      if written ≠ chunkSize then .done (- EIO, crc)
      else writeLoop size (offset + chunkSize) (cfg.crc32IeeeUpdate crc data)
  else .done (0, crc)
termination_by size - offset
decreasing_by
  unfold CHUNK_SIZE
  omega

/-- `ftp_diagnostic_generate`: its result, and `*crc32`. -/
def ftpDiagnosticGenerate (path : Text) (size : UInt32) (crc32 : BitVec 32) :
    FsProg (Int × BitVec 32) :=
  (resolveFtpLocalPath cfg path).bind fun result =>
  (openIf cfg result .first path .createWriteTrunc).bind fun opened =>
  (if opened.1 = 0 then writeLoop cfg size.toNat 0 0 else .done (opened.1, 0)).bind fun written =>
  (syncIf written.1 .first).bind fun result =>
  (closeIf result .first opened.2).bind fun result =>
    .done (result, if result = 0 then written.2 else crc32)

/-- The reading loop of `ftp_diagnostic_compare`, for so many turns; `none` when they do not
suffice. -/
def compareLoop : Nat → FsProg (Option Int)
  | 0 => .done none
  | turns + 1 =>
    .call (.read .first CHUNK_SIZE) fun (first : Except Errno Bytes) =>
    .call (.read .second CHUNK_SIZE) fun (second : Except Errno Bytes) =>
      match first, second with
      | .error e, _ => .done (some e.code)
      | .ok _, .error e => .done (some e.code)
      | .ok firstData, .ok secondData =>
        if firstData.length ≠ secondData.length ∨ 0 < firstData.length ∧ firstData ≠ secondData then
          .done (some (-EILSEQ))
        else if firstData.length = 0 then .done (some 0)
        else compareLoop turns

/-- `ftp_diagnostic_compare`, with so many turns of its loop. -/
def ftpDiagnosticCompare (turns : Nat) (firstPath secondPath : Text) : FsProg (Option Int) :=
  (resolveFtpLocalPath cfg firstPath).bind fun result =>
  (if result = 0 then resolveFtpLocalPath cfg secondPath else .done result).bind fun result =>
  (openIf cfg result .first firstPath .read).bind fun first =>
  (openIf cfg first.1 .second secondPath .read).bind fun second =>
  (if second.1 = 0 then compareLoop turns else .done (some second.1)).bind fun looped =>
    match looped with
    | none => .done none
    | some result =>
      (closeIf result .second second.2).bind fun result =>
      (closeIf result .first first.2).bind fun result => .done (some result)

/-! ## §3. What a run did. -/

/-- A result that is an error. -/
def resultFailure (result : Int) : Option Int := if result = 0 then none else some result

/-- The error of an operation that failed.  A path that is too long fails as a path that is
refused does, and a write fails when it writes less than it was given. -/
def failure : Sigma FsReply → Option Int
  | ⟨.validatePath path, result⟩ => resultFailure (resolved cfg path result)
  | ⟨.openFile _ _ _, result⟩ => resultFailure result
  | ⟨.write _ data, written⟩ => if written = data.length then none else some (- EIO)
  | ⟨.read _ _, .error e⟩ => some e.code
  | ⟨.read _ _, .ok _⟩ => none
  | ⟨.sync _, result⟩ => resultFailure result
  | ⟨.close _, result⟩ => resultFailure result

/-- The error of the first operation that failed. -/
def firstFailure (trace : FsTrace) : Option Int := trace.findSome? (failure cfg)

/-- The bytes given to writes, in order. -/
def writtenBytes (trace : FsTrace) : Bytes :=
  trace.flatMap fun e => match e.1 with
    | .write _ data => data
    | _ => []

/-- Whether an event opened the file, and whether it closed it. -/
def opensFile (file : FsFile) : Sigma FsReply → Bool
  | ⟨.openFile f _ _, result⟩ => decide (f = file ∧ result = 0)
  | _ => false

def closesFile (file : FsFile) (e : Sigma FsReply) : Bool :=
  match e.1 with
  | .close f => decide (f = file)
  | _ => false

/-- How often a file was opened and closed. -/
def opens (trace : FsTrace) (file : FsFile) : Nat := trace.countP (opensFile file)
def closes (trace : FsTrace) (file : FsFile) : Nat := trace.countP (closesFile file)

/-- What a part of a run did: the bytes it wrote, and how often each file was opened and
closed. -/
structure Did (trace : FsTrace) (data : Bytes) (opened closed : FsFile → Nat) : Prop where
  written : writtenBytes trace = data
  opened : ∀ file, opens trace file = opened file
  closed : ∀ file, closes trace file = closed file

/-- A part of a run keeps the first error: one from before, or else that of its own first failed
operation. -/
def Carries (result : Int) (trace : FsTrace) (r : Int) : Prop :=
  r = if result = 0 then (firstFailure cfg trace).getD 0 else result

theorem Did.append {first second : FsTrace} {data data' : Bytes}
    {opened opened' closed closed' : FsFile → Nat} (h : Did first data opened closed)
    (h' : Did second data' opened' closed') :
    Did (first ++ second) (data ++ data') (fun file => opened file + opened' file)
      (fun file => closed file + closed' file) := by
  constructor
  · rw [writtenBytes, List.flatMap_append, ← h.written, ← h'.written]
    rfl
  · intro file
    rw [opens, List.countP_append, ← h.opened, ← h'.opened]
    rfl
  · intro file
    rw [closes, List.countP_append, ← h.closed, ← h'.closed]
    rfl

theorem did_nil : Did [] [] (fun _ => 0) (fun _ => 0) := ⟨rfl, fun _ => rfl, fun _ => rfl⟩

theorem resultFailure_getD (result : Int) : (resultFailure result).getD 0 = result := by
  unfold resultFailure
  split
  · rename_i h
    exact h.symm
  · rfl

theorem resultFailure_ne_zero {result code : Int} (h : resultFailure result = some code) :
    code ≠ 0 := by
  unfold resultFailure at h
  split at h
  · exact absurd h (by simp)
  · rename_i hne
    exact Option.some.inj h ▸ hne

/-- A failure is an error. -/
theorem failure_ne_zero {e : Sigma FsReply} {code : Int} (h : failure cfg e = some code) :
    code ≠ 0 := by
  obtain ⟨c, reply⟩ := e
  cases c with
  | write file data =>
    have hwrite : (if reply = data.length then none else some (- EIO)) = some code := h
    split at hwrite
    · exact absurd hwrite (by simp)
    · exact Option.some.inj hwrite ▸ by decide
  | read file size =>
    cases reply with
    | error e =>
      have hneg := e.code_neg
      have hcode : e.code = code := Option.some.inj h
      omega
    | ok data => exact absurd h (by simp [failure])
  | _ => exact resultFailure_ne_zero h

theorem firstFailure_append (first second : FsTrace) :
    firstFailure cfg (first ++ second) = (firstFailure cfg first).or (firstFailure cfg second) :=
  List.findSome?_append

/-- The first error is kept from one part of a run to the next. -/
theorem Carries.append {first second : FsTrace} {result r r' : Int}
    (h : Carries cfg result first r) (h' : Carries cfg r second r') :
    Carries cfg result (first ++ second) r' := by
  unfold Carries at h h' ⊢
  rw [h', h]
  by_cases hresult : result = 0
  · rw [if_pos hresult, if_pos hresult, firstFailure_append]
    cases hfirst : firstFailure cfg first with
    | none => rfl
    | some code =>
      obtain ⟨e, _, he⟩ := List.exists_of_findSome?_eq_some hfirst
      exact if_neg (failure_ne_zero cfg he)
  · rw [if_neg hresult, if_neg hresult, if_neg hresult]

theorem carries_nil (result : Int) : Carries cfg result [] result := by
  unfold Carries
  split
  · rename_i h
    exact h
  · rfl

/-- An error from before stays. -/
theorem Carries.eq_zero {trace : FsTrace} {result : Int} (h : Carries cfg result trace 0) :
    result = 0 := by
  unfold Carries at h
  by_contra hne
  rw [if_neg hne] at h
  exact hne h.symm

/-- No error at the end: none before, and no operation failed. -/
theorem Carries.eq_zero_iff {trace : FsTrace} {r : Int} (h : Carries cfg 0 trace r) :
    r = 0 ↔ ∀ e ∈ trace, failure cfg e = none := by
  unfold Carries at h
  rw [if_pos rfl] at h
  rw [h, ← List.findSome?_eq_none_iff]
  constructor
  · intro hzero
    cases hfirst : firstFailure cfg trace with
    | none => exact hfirst
    | some code =>
      obtain ⟨e, _, he⟩ := List.exists_of_findSome?_eq_some hfirst
      rw [hfirst] at hzero
      exact absurd hzero (failure_ne_zero cfg he)
  · intro hnone
    rw [firstFailure, hnone]
    rfl

/-! ## §4. The parts of a run. -/

/-- One operation, alone. -/
theorem carries_single {e : Sigma FsReply} {r : Int} (h : (failure cfg e).getD 0 = r) :
    Carries cfg 0 [e] r := by
  unfold Carries firstFailure
  rw [if_pos rfl, List.findSome?_cons, List.findSome?_nil, ← h]
  cases failure cfg e <;> rfl

theorem resolveFtpLocalPath_run {path : Text} {trace : FsTrace} {r : Int}
    (h : (resolveFtpLocalPath cfg path).Runs trace r) :
    Carries cfg 0 trace r ∧ Did trace [] (fun _ => 0) (fun _ => 0) := by
  obtain ⟨result, rest, rfl, hrest⟩ := runs_call.mp h
  obtain ⟨rfl, rfl⟩ := runs_done.mp hrest
  exact ⟨carries_single cfg (resultFailure_getD _), rfl, fun _ => rfl, fun _ => rfl⟩

/-- A count for one file. -/
def onlyFile (file : FsFile) (n : Nat) (f : FsFile) : Nat := if f = file then n else 0

/-- Opening: `mp` is set exactly when nothing failed until then. -/
theorem openIf_run {result r : Int} {file : FsFile} {path : Text} {flags : OpenFlags} {mp : Bool}
    {trace : FsTrace} (h : (openIf cfg result file path flags).Runs trace (r, mp)) :
    Carries cfg result trace r ∧ mp = decide (r = 0)
      ∧ Did trace [] (onlyFile file (if mp = true then 1 else 0)) (fun _ => 0) := by
  unfold openIf at h
  split at h
  · rename_i hzero
    obtain ⟨reply, rest, rfl, hrest⟩ := runs_call.mp h
    obtain ⟨rfl, hpair⟩ := runs_done.mp hrest
    obtain ⟨rfl, rfl⟩ := Prod.mk.inj hpair
    subst hzero
    refine ⟨carries_single cfg (resultFailure_getD _), rfl, rfl, fun f => ?_, fun _ => rfl⟩
    · rw [opens, List.countP_singleton]
      show (if decide (file = f ∧ reply = 0) = true then 1 else 0) = _
      unfold onlyFile
      by_cases hf : f = file
      · simp [hf]
      · simp [hf, Ne.symm hf]
  · rename_i hne
    obtain ⟨rfl, hpair⟩ := runs_done.mp h
    obtain ⟨rfl, rfl⟩ := Prod.mk.inj hpair
    refine ⟨carries_nil cfg _, (decide_eq_false hne).symm, ?_⟩
    have hnone : onlyFile file (if false = true then 1 else 0) = fun _ => 0 := by
      funext f
      unfold onlyFile
      split <;> rfl
    rw [hnone]
    exact did_nil

theorem syncIf_run {result r : Int} {file : FsFile} {trace : FsTrace}
    (h : (syncIf result file).Runs trace r) :
    Carries cfg result trace r ∧ Did trace [] (fun _ => 0) (fun _ => 0) := by
  unfold syncIf at h
  split at h
  · rename_i hzero
    obtain ⟨reply, rest, rfl, hrest⟩ := runs_call.mp h
    obtain ⟨rfl, rfl⟩ := runs_done.mp hrest
    subst hzero
    exact ⟨carries_single cfg (resultFailure_getD _), rfl, fun _ => rfl, fun _ => rfl⟩
  · obtain ⟨rfl, rfl⟩ := runs_done.mp h
    exact ⟨carries_nil cfg _, did_nil⟩

/-- Closing: exactly when the file is open; the error of closing is kept where there was none
before. -/
theorem closeIf_run {result r : Int} {file : FsFile} {mp : Bool} {trace : FsTrace}
    (h : (closeIf result file mp).Runs trace r) :
    Carries cfg result trace r
      ∧ Did trace [] (fun _ => 0) (onlyFile file (if mp = true then 1 else 0)) := by
  unfold closeIf at h
  split at h
  · rename_i hmp
    obtain ⟨reply, rest, rfl, hrest⟩ := runs_call.mp h
    obtain ⟨rfl, rfl⟩ := runs_done.mp hrest
    refine ⟨?_, rfl, fun _ => rfl, fun f => ?_⟩
    · have hclose := carries_single cfg (e := ⟨.close file, reply⟩) (resultFailure_getD reply)
      unfold Carries at hclose ⊢
      rw [if_pos rfl] at hclose
      rw [← hclose]
    · rw [closes, List.countP_singleton, hmp]
      show (if decide (file = f) = true then 1 else 0) = if f = file then 1 else 0
      by_cases hf : f = file
      · rw [if_pos hf, if_pos (decide_eq_true hf.symm)]
      · rw [if_neg hf, if_neg (by simpa using Ne.symm hf)]
  · rename_i hmp
    obtain ⟨rfl, rfl⟩ := runs_done.mp h
    have hnone : onlyFile file (if mp = true then 1 else 0) = fun _ => 0 := by
      funext f
      rw [if_neg hmp]
      unfold onlyFile
      split <;> rfl
    rw [hnone]
    exact ⟨carries_nil cfg _, did_nil⟩

/-! ## §5. The pattern file. -/

/-- Some bytes of the pattern. -/
def patternBytes (offset n : Nat) : Bytes := (List.range n).map fun i => patternByte (offset + i)

theorem patternByte_toNat (i : Nat) : (patternByte i).toNat = (31 * i + 7) % 256 := by
  unfold patternByte
  rw [UInt8.toNat_ofNat', Nat.mul_comm]

theorem patternBytes_length (offset n : Nat) : (patternBytes offset n).length = n := by
  rw [patternBytes, List.length_map, List.length_range]

theorem patternBytes_add (offset m n : Nat) :
    patternBytes offset (m + n) = patternBytes offset m ++ patternBytes (offset + m) n := by
  unfold patternBytes
  rw [List.range_add, List.map_append, List.map_map]
  refine congrArg _ (List.map_congr_left fun i _ => ?_)
  rw [Function.comp_apply, Nat.add_assoc]

/-- The IEEE CRC-32 of some bytes. -/
def crc32Ieee (data : Bytes) : BitVec 32 :=
  reflectedCrc 0x04C11DB7#32 (BitVec.allOnes 32) (BitVec.allOnes 32) data

/-- One turn of the writing loop: its end, a write that fails, or a chunk and the rest. -/
inductive WriteTurn (size offset : Nat) (crc : BitVec 32) : FsTrace → Int × BitVec 32 → Prop
  | ended (h : ¬ offset < size) : WriteTurn size offset crc [] (0, crc)
  | short {n : Nat} {reply : Int} (hreply : reply ≠ n) (h : offset + n ≤ size) :
      WriteTurn size offset crc [⟨.write .first (patternBytes offset n), reply⟩] (- EIO, crc)
  | more {n : Nat} (hn : 0 < n) (h : offset + n ≤ size) {rest : FsTrace} {out : Int × BitVec 32}
      (behind : (writeLoop cfg size (offset + n)
        (cfg.crc32IeeeUpdate crc (patternBytes offset n))).Runs rest out) :
      WriteTurn size offset crc (⟨.write .first (patternBytes offset n), (n : Int)⟩ :: rest) out

theorem writeLoop_turn {size offset : Nat} {crc : BitVec 32} {trace : FsTrace}
    {out : Int × BitVec 32} (h : (writeLoop cfg size offset crc).Runs trace out) :
    WriteTurn cfg size offset crc trace out := by
  unfold writeLoop at h
  split at h
  · rename_i hmore
    obtain ⟨reply, rest, rfl, hrest⟩ := runs_call.mp h
    have hchunk : 0 < min CHUNK_SIZE (size - offset) := by
      unfold CHUNK_SIZE
      omega
    have hle : offset + min CHUNK_SIZE (size - offset) ≤ size := by omega
    split at hrest
    · rename_i hshort
      obtain ⟨rfl, rfl⟩ := runs_done.mp hrest
      exact .short hshort hle
    · rename_i hwhole
      obtain rfl := not_not.mp hwhole
      exact .more hchunk hle hrest
  · rename_i hend
    obtain ⟨rfl, rfl⟩ := runs_done.mp h
    exact .ended hend

/-- The bytes of a write in front. -/
theorem writtenBytes_cons (offset n : Nat) (reply : Int) (rest : FsTrace) :
    writtenBytes (⟨.write .first (patternBytes offset n), reply⟩ :: rest)
      = patternBytes offset n ++ writtenBytes rest := rfl

theorem failure_write (offset n : Nat) (reply : Int) :
    failure cfg ⟨.write .first (patternBytes offset n), reply⟩
      = if reply = (n : Int) then none else some (- EIO) := by
  show (if reply = ((patternBytes offset n).length : Int) then none else some (- EIO)) = _
  rw [patternBytes_length]

/-- **The writing loop** writes the pattern from `offset` on until a write fails; at its end the
checksum is that of the whole pattern, however it was cut. -/
theorem writeLoop_run
    (hupdate : ∀ a b : Bytes, cfg.crc32IeeeUpdate (crc32Ieee a) b = crc32Ieee (a ++ b))
    {size offset : Nat} (hoffset : offset ≤ size) {r : Int} {crc : BitVec 32} {trace : FsTrace}
    (h : (writeLoop cfg size offset (crc32Ieee (patternBytes 0 offset))).Runs trace (r, crc)) :
    Carries cfg 0 trace r ∧ Did trace (writtenBytes trace) (fun _ => 0) (fun _ => 0)
      ∧ writtenBytes trace <+: patternBytes offset (size - offset)
      ∧ (r = 0 → writtenBytes trace = patternBytes offset (size - offset)
        ∧ crc = crc32Ieee (patternBytes 0 size)) := by
  -- on the bytes that are still to be written
  induction hleft : size - offset using Nat.strong_induction_on generalizing offset trace with
  | _ left ih =>
    have hsplit : ∀ n, offset + n ≤ size → patternBytes offset left
        = patternBytes offset n ++ patternBytes (offset + n) (size - (offset + n)) := by
      intro n hn
      rw [← patternBytes_add]
      exact congrArg _ (by omega)
    cases writeLoop_turn cfg h with
    | ended hend =>
      obtain rfl : offset = size := by omega
      obtain rfl : left = 0 := by omega
      exact ⟨carries_nil cfg 0, did_nil, List.nil_prefix, fun _ => ⟨rfl, rfl⟩⟩
    | @short n reply hreply hn =>
      -- a write that fails ends the loop
      have hfailure := failure_write cfg offset n reply
      rw [if_neg hreply] at hfailure
      refine ⟨carries_single cfg ((congrArg (Option.getD · 0) hfailure).trans rfl),
        ⟨rfl, fun _ => rfl, fun _ => rfl⟩, ?_, fun hzero => absurd hzero (by decide)⟩
      rw [writtenBytes_cons, hsplit n hn]
      exact (List.prefix_append_right_inj _).mpr List.nil_prefix
    | @more n hpos hn rest _ hrest =>
      have hfailure := failure_write cfg offset n n
      rw [if_pos rfl] at hfailure
      have hdid : Did [⟨.write .first (patternBytes offset n), (n : Int)⟩] (patternBytes offset n)
          (fun _ => 0) (fun _ => 0) := ⟨List.append_nil _, fun _ => rfl, fun _ => rfl⟩
      have hcrc : cfg.crc32IeeeUpdate (crc32Ieee (patternBytes 0 offset)) (patternBytes offset n)
          = crc32Ieee (patternBytes 0 (offset + n)) := by
        rw [hupdate, patternBytes_add, Nat.zero_add]
      rw [hcrc] at hrest
      obtain ⟨hcarries, hrestDid, hprefix, hend⟩ := ih _ (by omega) hn hrest rfl
      refine ⟨?_, hdid.append hrestDid, ?_, fun hzero => ?_⟩
      · exact (carries_single cfg (congrArg (Option.getD · 0) hfailure)).append cfg hcarries
      · rw [writtenBytes_cons, hsplit n hn]
        exact (List.prefix_append_right_inj _).mpr hprefix
      · obtain ⟨hbytes, hsum⟩ := hend hzero
        exact ⟨by rw [writtenBytes_cons, hsplit n hn, hbytes], hsum⟩

/-- Writing the whole pattern, where nothing failed before. -/
theorem writeIf_run
    (hupdate : ∀ a b : Bytes, cfg.crc32IeeeUpdate (crc32Ieee a) b = crc32Ieee (a ++ b))
    {size : Nat} {result r : Int} {crc : BitVec 32} {trace : FsTrace}
    (h : (if result = 0 then writeLoop cfg size 0 0 else .done (result, 0)).Runs trace (r, crc)) :
    Carries cfg result trace r ∧ Did trace (writtenBytes trace) (fun _ => 0) (fun _ => 0)
      ∧ writtenBytes trace <+: patternBytes 0 size
      ∧ (r = 0 → writtenBytes trace = patternBytes 0 size
        ∧ crc = crc32Ieee (patternBytes 0 size)) := by
  split at h
  · rename_i hzero
    rw [hzero]
    exact writeLoop_run cfg hupdate (Nat.zero_le _) h
  · rename_i hne
    obtain ⟨rfl, hpair⟩ := runs_done.mp h
    obtain ⟨rfl, rfl⟩ := Prod.mk.inj hpair
    exact ⟨carries_nil cfg _, did_nil, List.nil_prefix, fun hzero => absurd hzero hne⟩

/-- What a run of `ftp_diagnostic_generate` for `size` bytes did, with the result and the checksum
it left; the caller's checksum was `before`. -/
structure Generated (size : UInt32) (before : BitVec 32) (trace : FsTrace) (result : Int)
    (after : BitVec 32) : Prop where
  /-- The bytes that were written, also where a write fails, are those of the pattern. -/
  begun : (writtenBytes trace).map UInt8.toNat
    <+: (List.range size.toNat).map fun i => (31 * i + 7) % 256
  content : result = 0 → (writtenBytes trace).map UInt8.toNat
    = (List.range size.toNat).map fun i => (31 * i + 7) % 256
  /-- The result is the error of the first operation that failed. -/
  first_error : result = (firstFailure cfg trace).getD 0
  success : result = 0 ↔ ∀ e ∈ trace, failure cfg e = none
  checksum : after = if result = 0 then crc32Ieee (writtenBytes trace) else before
  opened : ∀ file, opens trace file ≤ 1
  closed : ∀ file, closes trace file = opens trace file

theorem onlyFile_le (file : FsFile) (mp : Bool) (f : FsFile) :
    onlyFile file (if mp = true then 1 else 0) f ≤ 1 := by
  unfold onlyFile
  split
  · split <;> decide
  · decide

/-- The pattern as numbers. -/
theorem patternBytes_toNat (n : Nat) :
    (patternBytes 0 n).map UInt8.toNat = (List.range n).map fun i => (31 * i + 7) % 256 := by
  unfold patternBytes
  rw [List.map_map]
  refine List.map_congr_left fun i _ => ?_
  rw [Function.comp_apply, Nat.zero_add, patternByte_toNat]

/-- **A whole run of `ftp_diagnostic_generate`**, whatever fails. -/
theorem generate_run
    (hupdate : ∀ a b : Bytes, cfg.crc32IeeeUpdate (crc32Ieee a) b = crc32Ieee (a ++ b))
    {path : Text} {size : UInt32} {before after : BitVec 32} {trace : FsTrace} {result : Int}
    (h : (ftpDiagnosticGenerate cfg path size before).Runs trace (result, after)) :
    Generated cfg size before trace result after := by
  obtain ⟨resolving, rest, resolveResult, rfl, hresolve, h2⟩ := runs_bind.mp h
  obtain ⟨opening, rest, ⟨openResult, mp⟩, rfl, hopen, h3⟩ := runs_bind.mp h2
  obtain ⟨writing, rest, ⟨writeResult, crc⟩, rfl, hwrite, h4⟩ := runs_bind.mp h3
  obtain ⟨syncing, rest, syncResult, rfl, hsync, h5⟩ := runs_bind.mp h4
  obtain ⟨closing, rest, closeResult, rfl, hclose, h6⟩ := runs_bind.mp h5
  obtain ⟨rfl, hpair⟩ := runs_done.mp h6
  obtain ⟨rfl, rfl⟩ := Prod.mk.inj hpair
  obtain ⟨c1, d1⟩ := resolveFtpLocalPath_run cfg hresolve
  obtain ⟨c2, -, d2⟩ := openIf_run cfg hopen
  obtain ⟨c4, d4⟩ := syncIf_run cfg hsync
  obtain ⟨c5, d5⟩ := closeIf_run cfg hclose
  obtain ⟨c3, d3, hprefix, hcontent⟩ := writeIf_run cfg hupdate hwrite
  have hcarries := c1.append cfg (c2.append cfg (c3.append cfg (c4.append cfg c5)))
  have hdid := d1.append (d2.append (d3.append (d4.append d5)))
  rw [List.append_nil]
  have hwritten := hdid.written
  rw [List.nil_append, List.nil_append, List.append_nil, List.append_nil] at hwritten
  have hend : closeResult = 0 → writtenBytes writing = patternBytes 0 size.toNat
      ∧ crc = crc32Ieee (patternBytes 0 size.toNat) := by
    rintro rfl
    have hsynced : syncResult = 0 := c5.eq_zero cfg
    rw [hsynced] at c4
    exact hcontent (c4.eq_zero cfg)
  constructor
  · rw [hwritten, ← patternBytes_toNat]
    exact hprefix.map _
  · intro hzero
    rw [hwritten, (hend hzero).1, patternBytes_toNat]
  · exact hcarries.trans (if_pos rfl)
  · exact hcarries.eq_zero_iff cfg
  · rw [hwritten]
    by_cases hzero : closeResult = 0
    · rw [if_pos hzero, if_pos hzero, (hend hzero).1, (hend hzero).2]
    · rw [if_neg hzero, if_neg hzero]
  · intro file
    rw [hdid.opened file]
    simpa using onlyFile_le .first mp file
  · intro file
    rw [hdid.opened file, hdid.closed file]
    simp

/-! ## §6. The comparison. -/

/-- The answers of a run that reads files with these contents from these positions on: a read
that does not fail fills the buffer until the end of the file. -/
def Serves (contents : FsFile → Bytes) : (FsFile → Nat) → FsTrace → Prop
  | _, [] => True
  | position, ⟨.read file size, .ok data⟩ :: rest =>
    data = ((contents file).drop (position file)).take size
      ∧ Serves contents (Function.update position file (position file + data.length)) rest
  | position, _ :: rest => Serves contents position rest

/-- A call that reads nothing. -/
def NoRead : FsCall → Prop
  | .read _ _ => False
  | _ => True

/-- The answers of calls that read nothing are free. -/
theorem serves_skip {contents : FsFile → Bytes} {position : FsFile → Nat} {first second : FsTrace}
    (h : ∀ e ∈ first, NoRead e.1) (hserves : Serves contents position (first ++ second)) :
    Serves contents position second := by
  induction first with
  | nil => exact hserves
  | cons e rest ih =>
    have hrest := fun e he => h e (List.mem_cons_of_mem _ he)
    obtain ⟨c, reply⟩ := e
    cases c with
    | read file size => exact absurd (h _ List.mem_cons_self) id
    | _ => exact ih hrest hserves

theorem serves_left {contents : FsFile → Bytes} {position : FsFile → Nat} {first second : FsTrace}
    (h : Serves contents position (first ++ second)) : Serves contents position first := by
  induction first generalizing position with
  | nil => exact trivial
  | cons e rest ih =>
    obtain ⟨c, reply⟩ := e
    cases c with
    | read file size =>
      cases reply with
      | error e => exact ih h
      | ok data => exact ⟨h.1, ih h.2⟩
    | _ => exact ih h

/-- What is left of two files that are the same up to a position tells whether they are equal. -/
theorem eq_iff_drop {a b : Bytes} {p : Nat} (h : a.take p = b.take p) :
    a = b ↔ a.drop p = b.drop p := by
  constructor
  · rintro rfl
    rfl
  · intro hdrop
    rw [← List.take_append_drop p a, h, hdrop, List.take_append_drop]

/-- A chunk behind what stands in front of it. -/
theorem take_chunk {l chunk : Bytes} {p n : Nat} (h : chunk = (l.drop p).take n) :
    l.take (p + chunk.length) = l.take p ++ chunk := by
  have hprefix : chunk <+: l.drop p := h ▸ List.take_prefix _ _
  rw [List.take_add, ← List.prefix_iff_eq_take.mp hprefix]

/-- A part of a run that compares: its result tells whether the files are equal where nothing
failed, and is an error where something did. -/
def Tells (a b : Bytes) (trace : FsTrace) (r : Int) : Prop :=
  ((∀ e ∈ trace, failure cfg e = none) → r = if a = b then 0 else -EILSEQ)
    ∧ ((∃ e ∈ trace, failure cfg e ≠ none) → r ≠ 0)

/-- A read that failed: its error is the result. -/
theorem tells_error {a b : Bytes} {trace : FsTrace} {e : Errno} {file : FsFile}
    (h : (⟨.read file CHUNK_SIZE, .error e⟩ : Sigma FsReply) ∈ trace) :
    Tells cfg a b trace e.code := by
  have hneg := e.code_neg
  refine ⟨fun hnone => ?_, fun _ => by omega⟩
  have hread : failure cfg ⟨.read file CHUNK_SIZE, .error e⟩ = some e.code := rfl
  rw [hnone _ h] at hread
  exact absurd hread (by simp)

/-- Operations that did not fail in front change nothing. -/
theorem Tells.behind {a b : Bytes} {first second : FsTrace} {r : Int}
    (hfirst : ∀ e ∈ first, failure cfg e = none) (h : Tells cfg a b second r) :
    Tells cfg a b (first ++ second) r := by
  refine ⟨fun hnone => h.1 fun e he => hnone e (List.mem_append_right _ he), ?_⟩
  rintro ⟨e, he, hfailed⟩
  rcases List.mem_append.mp he with he | he
  · exact absurd (hfirst e he) hfailed
  · exact h.2 ⟨e, he, hfailed⟩

/-- One turn of the reading loop: a read fails, the chunks differ, both files end, or the loop goes
on behind two equal chunks. -/
inductive CompareTurn (turns : Nat) : FsTrace → Option Int → Prop
  | failed {trace : FsTrace} {file : FsFile} {e : Errno}
      (read : (⟨.read file CHUNK_SIZE, .error e⟩ : Sigma FsReply) ∈ trace)
      (did : Did trace [] (fun _ => 0) (fun _ => 0)) : CompareTurn turns trace (some e.code)
  | differ {a b : Bytes} (hne : a ≠ b) :
      CompareTurn turns [⟨.read .first CHUNK_SIZE, .ok a⟩, ⟨.read .second CHUNK_SIZE, .ok b⟩]
        (some (-EILSEQ))
  | ended :
      CompareTurn turns [⟨.read .first CHUNK_SIZE, .ok []⟩, ⟨.read .second CHUNK_SIZE, .ok []⟩]
        (some 0)
  | more {chunk : Bytes} (hne : chunk ≠ []) {rest : FsTrace} {looped : Option Int}
      (behind : (compareLoop turns).Runs rest looped) :
      CompareTurn turns
        (⟨.read .first CHUNK_SIZE, .ok chunk⟩ :: ⟨.read .second CHUNK_SIZE, .ok chunk⟩ :: rest) looped

theorem compareLoop_turn {turns : Nat} {trace : FsTrace} {looped : Option Int}
    (h : (compareLoop (turns + 1)).Runs trace looped) : CompareTurn turns trace looped := by
  obtain ⟨first, rest, rfl, hfirst⟩ := runs_call.mp h
  obtain ⟨second, rest, rfl, hsecond⟩ := runs_call.mp hfirst
  cases first with
  | error e =>
    obtain ⟨rfl, rfl⟩ := runs_done.mp hsecond
    exact .failed List.mem_cons_self ⟨rfl, fun _ => rfl, fun _ => rfl⟩
  | ok a =>
    cases second with
    | error e =>
      obtain ⟨rfl, rfl⟩ := runs_done.mp hsecond
      exact .failed (List.mem_cons_of_mem _ List.mem_cons_self) ⟨rfl, fun _ => rfl, fun _ => rfl⟩
    | ok b =>
      dsimp only at hsecond
      split at hsecond
      · rename_i hdiffer
        obtain ⟨rfl, rfl⟩ := runs_done.mp hsecond
        refine .differ ?_
        rintro rfl
        simp at hdiffer
      · rename_i hsame
        have hlengths : a.length = b.length := by
          by_contra hne
          exact hsame (.inl hne)
        split at hsecond
        · rename_i hempty
          obtain ⟨rfl, rfl⟩ := runs_done.mp hsecond
          obtain rfl := List.length_eq_zero_iff.mp hempty
          obtain rfl := List.length_eq_zero_iff.mp hlengths.symm
          exact .ended
        · rename_i hmore
          obtain rfl : a = b := by
            by_contra hne
            exact hsame (.inr ⟨Nat.pos_of_ne_zero hmore, hne⟩)
          exact .more (fun hnil => hmore (List.length_eq_zero_iff.mpr hnil)) hsecond

/-- Two reads that did not fail. -/
theorem reads_ok (a b : Bytes) : ∀ e ∈ ([⟨.read .first CHUNK_SIZE, .ok a⟩,
    ⟨.read .second CHUNK_SIZE, .ok b⟩] : FsTrace), failure cfg e = none := by
  intro e he
  rcases List.mem_pair.mp he with rfl | rfl
  · rfl
  · rfl

/-- What two reads from one place are given. -/
theorem serves_reads {contents : FsFile → Bytes} {position : FsFile → Nat} {p : Nat}
    (hposition : ∀ file, position file = p) {a b : Bytes} {rest : FsTrace}
    (hserves : Serves contents position
      (⟨.read .first CHUNK_SIZE, .ok a⟩ :: ⟨.read .second CHUNK_SIZE, .ok b⟩ :: rest)) :
    a = ((contents .first).drop p).take CHUNK_SIZE
      ∧ b = ((contents .second).drop p).take CHUNK_SIZE
      ∧ ∃ position', (position' .first = p + a.length ∧ position' .second = p + b.length)
        ∧ Serves contents position' rest := by
  obtain ⟨hfirst, hsecond, hbehind⟩ := hserves
  have hother : Function.update position .first (position .first + a.length) .second = p := by
    rw [Function.update_of_ne (by decide), hposition]
  rw [hposition] at hfirst
  rw [hother] at hsecond
  refine ⟨hfirst, hsecond, _, ⟨?_, ?_⟩, hbehind⟩
  · rw [Function.update_of_ne (by decide), Function.update_self, hposition]
  · rw [Function.update_self, hother]

/-- A file that gives nothing more ends there. -/
theorem drop_eq_nil_of_take {data : Bytes} {p : Nat} (h : [] = (data.drop p).take CHUNK_SIZE) :
    data.drop p = [] := by
  rcases List.take_eq_nil_iff.mp h.symm with hzero | hdrop
  · exact absurd hzero (by decide)
  · exact hdrop

/-- **The reading loop** tells whether two files are equal that are the same up to where it
begins. -/
theorem compareLoop_run {contents : FsFile → Bytes} {p : Nat} {position : FsFile → Nat}
    (hposition : ∀ file, position file = p)
    (hsame : (contents .first).take p = (contents .second).take p)
    (hp : p ≤ (contents .first).length) {turns : Nat}
    (hturns : (contents .first).length + CHUNK_SIZE ≤ CHUNK_SIZE * turns + p) {trace : FsTrace}
    {looped : Option Int} (h : (compareLoop turns).Runs trace looped)
    (hserves : Serves contents position trace) :
    ∃ r, looped = some r ∧ Tells cfg (contents .first) (contents .second) trace r
      ∧ Did trace [] (fun _ => 0) (fun _ => 0) := by
  induction turns generalizing p position trace looped with
  | zero =>
    unfold CHUNK_SIZE at hturns
    omega
  | succ turns ih =>
    cases compareLoop_turn h with
    | failed hread hdid => exact ⟨_, rfl, tells_error cfg hread, hdid⟩
    | differ hne =>
      -- the chunks differ, so the files do
      obtain ⟨hfirst, hsecond, _⟩ := serves_reads hposition hserves
      have hfiles : contents .first ≠ contents .second := by
        intro heq
        exact hne (by rw [hfirst, hsecond, heq])
      exact ⟨-EILSEQ, rfl, ⟨fun _ => (if_neg hfiles).symm, fun _ => by decide⟩, rfl,
        fun _ => rfl, fun _ => rfl⟩
    | ended =>
      -- both files end here
      obtain ⟨hfirst, hsecond, _⟩ := serves_reads hposition hserves
      have hfiles : contents .first = contents .second := by
        rw [eq_iff_drop hsame, drop_eq_nil_of_take hfirst, drop_eq_nil_of_take hsecond]
      refine ⟨0, rfl, ⟨fun _ => (if_pos hfiles).symm, ?_⟩, rfl, fun _ => rfl, fun _ => rfl⟩
      rintro ⟨e, he, hfailed⟩
      exact absurd (reads_ok cfg [] [] e he) hfailed
    | @more chunk hne rest _ hrest =>
      -- the same chunk of both: the loop goes on behind it
      obtain ⟨hfirst, hsecond, position', hnext, hbehind⟩ := serves_reads hposition hserves
      have hlength : chunk.length = min CHUNK_SIZE ((contents .first).length - p) := by
        rw [hfirst, List.length_take, List.length_drop]
      have hpos : 0 < chunk.length := List.length_pos_of_ne_nil hne
      have hposition' : ∀ file, position' file = p + chunk.length := by
        intro file
        cases file with
        | first => exact hnext.1
        | second => exact hnext.2
      have hsameNext : (contents .first).take (p + chunk.length)
          = (contents .second).take (p + chunk.length) := by
        rw [take_chunk hfirst, hsame, ← take_chunk hsecond]
      obtain ⟨r, hr, htells, hdid⟩ := ih hposition' hsameNext (by omega)
        (by unfold CHUNK_SIZE at hlength hturns ⊢; omega) hrest hbehind
      refine ⟨r, hr, htells.behind cfg (reads_ok cfg chunk chunk), ?_⟩
      exact ⟨hdid.written, hdid.opened, hdid.closed⟩

/-- Closing keeps what a comparison told, and reports its own errors. -/
theorem Tells.closing {a b : Bytes} {first second : FsTrace} {r r' : Int}
    (h : Tells cfg a b first r) (hclose : Carries cfg r second r') :
    Tells cfg a b (first ++ second) r' := by
  constructor
  · intro hnone
    have hr := h.1 fun e he => hnone e (List.mem_append_left _ he)
    by_cases hzero : r = 0
    · subst hzero
      rw [(hclose.eq_zero_iff cfg).mpr fun e he => hnone e (List.mem_append_right _ he)]
      exact hr
    · rw [← hr]
      exact hclose.trans (if_neg hzero)
  · rintro ⟨e, he, hfailed⟩ rfl
    have hzero : r = 0 := hclose.eq_zero cfg
    rcases List.mem_append.mp he with he | he
    · exact h.2 ⟨e, he, hfailed⟩ hzero
    · subst hzero
      exact hfailed ((hclose.eq_zero_iff cfg).mp rfl e he)

/-- An error before the comparison. -/
theorem tells_failed {a b : Bytes} {trace : FsTrace} {r : Int} (h : Carries cfg 0 trace r)
    (hr : r ≠ 0) : Tells cfg a b trace r :=
  ⟨fun hnone => absurd ((h.eq_zero_iff cfg).mpr hnone) hr, fun _ => hr⟩

/-- What a run of `ftp_diagnostic_compare` on files with contents `a` and `b` did. -/
structure Compared (a b : Bytes) (trace : FsTrace) (result : Int) : Prop where
  exact : (∀ e ∈ trace, failure cfg e = none) → result = if a = b then 0 else -EILSEQ
  error : (∃ e ∈ trace, failure cfg e ≠ none) → result ≠ 0
  opened : ∀ file, opens trace file ≤ 1
  closed : ∀ file, closes trace file = opens trace file

theorem resolveFtpLocalPath_calls (path : Text) : (resolveFtpLocalPath cfg path).Calls NoRead :=
  ⟨trivial, fun _ => trivial⟩

theorem openIf_calls (result : Int) (file : FsFile) (path : Text) (flags : OpenFlags) :
    (openIf cfg result file path flags).Calls NoRead := by
  unfold openIf
  split
  · exact ⟨trivial, fun _ => trivial⟩
  · exact trivial

/-- Resolving the second path, where the first was accepted. -/
theorem resolveIf_run {path : Text} {result r : Int} {trace : FsTrace}
    (h : (if result = 0 then resolveFtpLocalPath cfg path else .done result).Runs trace r) :
    Carries cfg result trace r ∧ Did trace [] (fun _ => 0) (fun _ => 0)
      ∧ ∀ e ∈ trace, NoRead e.1 := by
  split at h
  · rename_i hzero
    subst hzero
    obtain ⟨hcarries, hdid⟩ := resolveFtpLocalPath_run cfg h
    exact ⟨hcarries, hdid, h.calls (resolveFtpLocalPath_calls cfg _)⟩
  · obtain ⟨rfl, rfl⟩ := runs_done.mp h
    exact ⟨carries_nil cfg _, did_nil, fun e he => absurd he List.not_mem_nil⟩

/-- The comparison of both files, where nothing failed before: `earlier` is what was done. -/
theorem compareIf_run {contents : FsFile → Bytes} {turns : Nat}
    (hturns : (contents .first).length + CHUNK_SIZE ≤ CHUNK_SIZE * turns) {result : Int}
    {earlier trace : FsTrace} (hearlier : Carries cfg 0 earlier result) {looped : Option Int}
    (h : (if result = 0 then compareLoop turns else .done (some result)).Runs trace looped)
    (hserves : Serves contents (fun _ => 0) trace) :
    ∃ r, looped = some r ∧ Tells cfg (contents .first) (contents .second) (earlier ++ trace) r
      ∧ Did trace [] (fun _ => 0) (fun _ => 0) := by
  split at h
  · rename_i hzero
    obtain ⟨r, hr, htells, hdid⟩ := compareLoop_run cfg (fun _ => rfl) rfl (Nat.zero_le _)
      (by omega) h hserves
    exact ⟨r, hr, htells.behind cfg ((hearlier.eq_zero_iff cfg).mp hzero), hdid⟩
  · rename_i hne
    obtain ⟨rfl, rfl⟩ := runs_done.mp h
    rw [List.append_nil]
    exact ⟨result, rfl, tells_failed cfg hearlier hne, did_nil⟩

/-- **A whole run of `ftp_diagnostic_compare`**, whatever fails. -/
theorem compare_run {contents : FsFile → Bytes} {turns : Nat}
    (hturns : (contents .first).length + CHUNK_SIZE ≤ CHUNK_SIZE * turns)
    {firstPath secondPath : Text} {trace : FsTrace} {looped : Option Int}
    (h : (ftpDiagnosticCompare cfg turns firstPath secondPath).Runs trace looped)
    (hserves : Serves contents (fun _ => 0) trace) :
    ∃ r, looped = some r ∧ Compared cfg (contents .first) (contents .second) trace r := by
  obtain ⟨t1, rest, r1, rfl, h1, k1⟩ := runs_bind.mp h
  obtain ⟨t2, rest, r2, rfl, h2, k2⟩ := runs_bind.mp k1
  obtain ⟨t3, rest, ⟨r3, mp1⟩, rfl, h3, k3⟩ := runs_bind.mp k2
  obtain ⟨t4, rest, ⟨r4, mp2⟩, rfl, h4, k4⟩ := runs_bind.mp k3
  obtain ⟨t5, rest, loopResult, rfl, h5, k5⟩ := runs_bind.mp k4
  obtain ⟨c1, d1⟩ := resolveFtpLocalPath_run cfg h1
  obtain ⟨c2, d2, n2⟩ := resolveIf_run cfg h2
  obtain ⟨c3, -, d3⟩ := openIf_run cfg h3
  obtain ⟨c4, -, d4⟩ := openIf_run cfg h4
  have hbefore := c1.append cfg (c2.append cfg (c3.append cfg c4))
  have hloopServes : Serves contents (fun _ => 0) t5 := by
    have hs1 := serves_skip (h1.calls (resolveFtpLocalPath_calls cfg _)) hserves
    have hs2 := serves_skip n2 hs1
    have hs3 := serves_skip (h3.calls (openIf_calls cfg _ _ _ _)) hs2
    exact serves_left (serves_skip (h4.calls (openIf_calls cfg _ _ _ _)) hs3)
  obtain ⟨r5, rfl, htells, d5⟩ := compareIf_run cfg hturns hbefore h5 hloopServes
  obtain ⟨t6, rest, r6, rfl, h6, k6⟩ := runs_bind.mp k5
  obtain ⟨t7, rest, r7, rfl, h7, k7⟩ := runs_bind.mp k6
  obtain ⟨rfl, rfl⟩ := runs_done.mp k7
  obtain ⟨c6, d6⟩ := closeIf_run cfg h6
  obtain ⟨c7, d7⟩ := closeIf_run cfg h7
  have hwhole := htells.closing cfg (c6.append cfg c7)
  have hdid := d1.append (d2.append (d3.append (d4.append (d5.append (d6.append d7)))))
  rw [List.append_nil]
  simp only [List.append_assoc] at hwhole
  refine ⟨r7, rfl, hwhole.1, hwhole.2, fun file => ?_, fun file => ?_⟩
  · rw [hdid.opened file]
    have hfirst := onlyFile_le .first mp1 file
    have hsecond := onlyFile_le .second mp2 file
    cases file with
    | first => simpa [onlyFile] using hfirst
    | second => simpa [onlyFile] using hsecond
  · rw [hdid.opened file, hdid.closed file]
    simp only [Nat.zero_add, Nat.add_zero]
    exact Nat.add_comm _ _

/-! ## §7. A checksum. -/

/-- `crc32_ieee_update`, bit by bit. -/
def crcUpdate (crc : BitVec 32) (data : Bytes) : BitVec 32 :=
  feedBits (0x04C11DB7#32).reverse (crc ^^^ BitVec.allOnes 32) (messageBits data)
    ^^^ BitVec.allOnes 32

theorem crcUpdate_append (a b : Bytes) : crcUpdate (crc32Ieee a) b = crc32Ieee (a ++ b) := by
  unfold crcUpdate crc32Ieee reflectedCrc
  rw [BitVec.xor_assoc, BitVec.xor_self, BitVec.xor_zero, messageBits_append, feedBits_append]

end KFsw.App
