/-
  KFsw.App.StorageDiagnostics — the storage test, `app/src/shell/shell_storage.c`
  and `app/src/diagnostics/storage_diagnostics.c`.

  `storage test` writes a file and reads it back; `storage test write` and
  `storage test read` do the two halves in different boots.  Both are programs
  over the operations of the file system, and the volume they run on may fail any
  of them, also after it has begun.

  Main results:
    * `storageDiagnosticWrite_spec`, `storageDiagnosticRead_spec` — the two halves;
    * `storageBasicTest_spec`, `storagePersistenceTest_spec` — the two tests;
    * `storageTest_exact`       — what a pass says, and what no outcome changes;
    * `persistence_round_trip`  — what was written passes when it is read, whatever
      happens in between, and nothing else does.
-/
import KFsw.App.FtpDiagnostics
import KFsw.App.Param
import KFsw.Lib.Stateful
import KFsw.Lib.Volume

namespace KFsw.App

open KFsw.Lib Prog
open KFsw.Lib.Volume (SameElsewhere)

/-! ## §1. The operations. -/

/-- What the test calls; it has one file open at a time. -/
inductive StorageCall where
  | isReady
  | openFile (path : Text) (flags : OpenFlags)
  | write (value : Text)
  | read (size : Nat)
  | sync
  | close
  | unlink (path : Text)
  /-- `shell_print` and `shell_error`. -/
  | print (line : Text)
  | error (line : Text)

abbrev StorageReply : StorageCall → Type
  | .isReady => Bool
  | .read _ => Except Errno Text
  | .print _ | .error _ => Unit
  | _ => Int

abbrev StorageProg (α : Type) := Prog StorageCall StorageReply α

abbrev StorageTrace := List (Sigma StorageReply)

/-- What the build gives. -/
structure StorageConfig where
  /-- `KFSW_STORAGE_MOUNT_POINT`. -/
  mountPoint : Text

variable (cfg : StorageConfig)

/-- `KFSW_STORAGE_DIAGNOSTIC_VALUE_MAX_SIZE`. -/
def VALUE_MAX_SIZE : Nat := 48

/-- `KFSW_STORAGE_TEST_PATH` and `KFSW_STORAGE_PERSISTENCE_PATH`. -/
def storageTestPath : Text := cfg.mountPoint ++ "/.storage-test".toList
def storagePersistencePath : Text := cfg.mountPoint ++ "/.persistence-test".toList

/-! ## §2. The diagnostics. -/

/-- `fs_close`, whose result counts where nothing failed before. -/
def closeAfter (result : Int) : StorageProg Int :=
  .call .close fun (closeResult : Int) => .done (if result ≠ 0 then result else closeResult)

/-- `storage_diagnostic_write`. -/
def storageDiagnosticWrite (path value : Text) : StorageProg Int :=
  .call (.openFile path .createWriteTrunc) fun (result : Int) =>
    if result ≠ 0 then .done result
    else
      .call (.write value) fun (written : Int) =>
        if written = value.length then .call .sync fun (result : Int) => closeAfter result
        else closeAfter (if written < 0 then written else - EIO)

/-- The result of `storage_diagnostic_read`, by what `fs_read` gives. -/
def readResult (expected : Text) : Except Errno Text → Int
  | .error e => e.code
  | .ok value =>
    if value.length ≠ expected.length then - EIO else if value ≠ expected then - EIO else 0

/-- `storage_diagnostic_read`. -/
def storageDiagnosticRead (path expected : Text) : StorageProg Int :=
  if expected.length > VALUE_MAX_SIZE then .done (-EMSGSIZE)
  else
    .call (.openFile path .read) fun (result : Int) =>
      if result ≠ 0 then .done result
      else
        -- one more than a value holds, so that a longer file shows
        .call (.read (VALUE_MAX_SIZE + 1)) fun (bytesRead : Except Errno Text) =>
          closeAfter (readResult expected bytesRead)

/-! ## §3. The tests. -/

def initialValue : Text := "kfsw-storage-create".toList
def overwrittenValue : Text := "kfsw-storage-overwrite".toList

/-- `fs_unlink`, its result. -/
def unlinkFile (path : Text) : StorageProg Int := .call (.unlink path) fun (result : Int) => .done result

/-- The next step of a test, where nothing failed before. -/
def nextStep (result : Int) (step : StorageProg Int) : StorageProg Int :=
  if result = 0 then step else .done result

/-- The line of a test that failed. -/
def storageFailLine (what : Text) (result : Int) : Text :=
  what ++ ": FAIL (".toList ++ intText result ++ [')']

/-- `storage_basic_test`. -/
def storageBasicTest : StorageProg Int :=
  (storageDiagnosticWrite (storageTestPath cfg) initialValue).bind fun result =>
  (nextStep result (storageDiagnosticWrite (storageTestPath cfg) overwrittenValue)).bind fun result =>
  (nextStep result (storageDiagnosticRead (storageTestPath cfg) overwrittenValue)).bind fun result =>
  (nextStep result (unlinkFile (storageTestPath cfg))).bind fun result =>
  if result ≠ 0 then
    .call (.unlink (storageTestPath cfg)) fun _ =>
    .call (.error (storageFailLine "Storage test".toList result)) fun _ => .done result
  else .call (.print "Storage test: PASS".toList) fun _ => .done 0

/-- The end of `storage_persistence_test`. -/
def persistenceVerdict (operation : Text) (result : Int) : StorageProg Int :=
  if result = 0 then
    .call (.print ("Storage persistence ".toList ++ operation ++ ": PASS".toList)) fun _ => .done 0
  else
    .call (.error (storageFailLine ("Storage persistence ".toList ++ operation) result)) fun _ =>
      .done result

def storageUsage : Text := "Usage: storage test [write|read <value>]".toList

/-- `storage_persistence_test`. -/
def storagePersistenceTest (operation value : Text) : StorageProg Int :=
  if value = [] ∨ value.length > VALUE_MAX_SIZE then
    .call (.error ("Storage persistence value must contain 1..".toList
      ++ Nat.toDigits 10 VALUE_MAX_SIZE ++ " characters".toList)) fun _ => .done (-EMSGSIZE)
  else if operation = "write".toList then
    (storageDiagnosticWrite (storagePersistencePath cfg) value).bind (persistenceVerdict operation)
  else if operation = "read".toList then
    (storageDiagnosticRead (storagePersistencePath cfg) value).bind fun result =>
    (nextStep result (unlinkFile (storagePersistencePath cfg))).bind (persistenceVerdict operation)
  else .call (.error storageUsage) fun _ => .done (-EINVAL)

/-- `cmd_storage_test`. -/
def cmdStorageTest (argv : List Text) : StorageProg Int :=
  .call .isReady fun (ready : Bool) =>
    if ready = false then
      .call (.error "Storage test: FAIL (not ready)".toList) fun _ => .done (-EACCES)
    else if argv.length = 1 then storageBasicTest cfg
    else if argv.length = 3 then storagePersistenceTest cfg (arg argv 1) (arg argv 2)
    else .call (.error storageUsage) fun _ => .done (-EINVAL)

/-! ## §4. On a volume. -/

/-- The volume under the test. -/
abbrev StorageVolume := Volume Text Unit Char

/-- The operation of a call; the readiness and the lines of the shell are none. -/
def StorageCall.op : StorageCall → Option (VolumeOp Text Unit Char)
  | .openFile path .read => some (.openRead () path)
  | .openFile path .createWriteTrunc => some (.create () path)
  | .write value => some (.write () value)
  | .read size => some (.read () size)
  | .sync => some (.sync ())
  | .close => some (.close ())
  | .unlink path => some (.unlink path)
  | .isReady | .print _ | .error _ => none

/-- A result that is 0 or an error. -/
def resultOutcome {β : Type} (result : Int) : Option (Outcome β) :=
  if result = 0 then some .whole else if result < 0 then some .failed else none

/-- What a reply says of the operation; `none` is a reply it never gives. -/
def replyOutcome : (c : StorageCall) → StorageReply c → Option (Outcome Char)
  | .write value, (written : Int) =>
    if written = value.length then some .whole
    else if written < 0 then some .failed
    else if written < value.length then some (.short written.toNat) else none
  | .read _, .ok value => some (.gave value)
  | .read _, .error _ => some .failed
  | .openFile _ _, (result : Int) => resultOutcome result
  | .sync, (result : Int) => resultOutcome result
  | .close, (result : Int) => resultOutcome result
  | .unlink _, (result : Int) => resultOutcome result
  | _, _ => none

/-- **The file system**: every operation does what it can do on the volume. -/
def storageStep : Behaviour StorageVolume StorageCall StorageReply := fun v c reply v' =>
  match c.op with
  | none => v' = v
  | some op => ∃ outcome, replyOutcome c reply = some outcome ∧ v.Does op outcome v'

/-- A call that did not do all that was asked of it. -/
def Fails : Sigma StorageReply → Prop
  | ⟨.isReady, ready⟩ => (ready : Bool) = false
  | ⟨.write value, written⟩ => (written : Int) ≠ value.length
  | ⟨.read _, .error _⟩ => True
  | ⟨.read _, .ok _⟩ => False
  | ⟨.openFile _ _, result⟩ => (result : Int) ≠ 0
  | ⟨.sync, result⟩ => (result : Int) ≠ 0
  | ⟨.close, result⟩ => (result : Int) ≠ 0
  | ⟨.unlink _, result⟩ => (result : Int) ≠ 0
  | ⟨.print _, _⟩ => False
  | ⟨.error _, _⟩ => False

instance : DecidablePred Fails
  | ⟨.isReady, ready⟩ => inferInstanceAs (Decidable ((ready : Bool) = false))
  | ⟨.write value, written⟩ => inferInstanceAs (Decidable ((written : Int) ≠ value.length))
  | ⟨.read _, .error _⟩ => inferInstanceAs (Decidable True)
  | ⟨.read _, .ok _⟩ => inferInstanceAs (Decidable False)
  | ⟨.openFile _ _, result⟩ | ⟨.sync, result⟩ | ⟨.close, result⟩ | ⟨.unlink _, result⟩ =>
    inferInstanceAs (Decidable ((result : Int) ≠ 0))
  | ⟨.print _, _⟩ | ⟨.error _, _⟩ => inferInstanceAs (Decidable False)

def NoFailure (trace : StorageTrace) : Prop := ∀ e ∈ trace, ¬ Fails e

instance (trace : StorageTrace) : Decidable (NoFailure trace) :=
  inferInstanceAs (Decidable (∀ e ∈ trace, ¬ Fails e))

/-- What is open: how often `fs_open` succeeded, less how often `fs_close` was called. -/
def openBalance : StorageTrace → Int
  | [] => 0
  | ⟨.openFile _ _, result⟩ :: rest => (if (result : Int) = 0 then 1 else 0) + openBalance rest
  | ⟨.close, _⟩ :: rest => openBalance rest - 1
  | _ :: rest => openBalance rest

/-- The lines of the shell; a line of `shell_print` is marked `true`. -/
def storageLines : StorageTrace → List (Bool × Text)
  | [] => []
  | ⟨.print line, _⟩ :: rest => (true, line) :: storageLines rest
  | ⟨.error line, _⟩ :: rest => (false, line) :: storageLines rest
  | _ :: rest => storageLines rest

theorem noFailure_append {first second : StorageTrace} :
    NoFailure (first ++ second) ↔ NoFailure first ∧ NoFailure second := List.forall_mem_append

theorem noFailure_single (e : Sigma StorageReply) : NoFailure [e] ↔ ¬ Fails e :=
  List.forall_mem_singleton

theorem openBalance_append (first second : StorageTrace) :
    openBalance (first ++ second) = openBalance first + openBalance second := by
  induction first with
  | nil => exact (Int.zero_add _).symm
  | cons e rest ih =>
    obtain ⟨c, reply⟩ := e
    cases c <;> simp only [List.cons_append, openBalance, ih] <;> omega

theorem storageLines_append (first second : StorageTrace) :
    storageLines (first ++ second) = storageLines first ++ storageLines second := by
  induction first with
  | nil => rfl
  | cons e rest ih =>
    obtain ⟨c, reply⟩ := e
    cases c <;> simp only [List.cons_append, storageLines, ih]

/-! ## §5. What a call can do. -/

/-- A result that is not 0 is an error. -/
theorem resultOutcome_eq {β : Type} {result : Int} {outcome : Outcome β}
    (h : resultOutcome result = some outcome) :
    result = 0 ∧ outcome = .whole ∨ result < 0 ∧ outcome = .failed := by
  unfold resultOutcome at h
  split at h
  · rename_i hzero
    exact .inl ⟨hzero, (Option.some.inj h).symm⟩
  · split at h
    · rename_i hneg
      exact .inr ⟨hneg, (Option.some.inj h).symm⟩
    · exact absurd h (by simp)

/-- Creating a file: it is there, empty and open, or the call failed. -/
theorem step_create {v v' : StorageVolume} {path : Text} {result : Int}
    (h : storageStep v (.openFile path .createWriteTrunc) result v') :
    SameElsewhere path v v'
      ∧ (result = 0 ∧ v'.Writing () path [] ∨ result < 0) := by
  obtain ⟨outcome, houtcome, hdoes⟩ := h
  refine ⟨fun p hp => hdoes.elsewhere hp, ?_⟩
  rcases resultOutcome_eq houtcome with ⟨hzero, rfl⟩ | ⟨hneg, rfl⟩
  · cases hdoes
    exact .inl ⟨hzero, Volume.writing_created v () path⟩
  · exact .inr hneg

/-- Opening a file: it was there and nothing is read yet, or the call failed. -/
theorem step_open {v v' : StorageVolume} {path : Text} {result : Int}
    (h : storageStep v (.openFile path .read) result v') :
    v'.files = v.files
      ∧ (result = 0 ∧ (∃ contents, v'.Reading () path contents 0) ∨ result < 0) := by
  obtain ⟨outcome, houtcome, hdoes⟩ := h
  rcases resultOutcome_eq houtcome with ⟨hzero, rfl⟩ | ⟨hneg, rfl⟩
  · cases hdoes with
    | openRead hexists =>
      obtain ⟨contents, hcontents⟩ := Option.isSome_iff_exists.mp hexists
      exact ⟨rfl, .inl ⟨hzero, contents, Volume.reading_opened hcontents ()⟩⟩
  · cases hdoes
    exact ⟨rfl, .inr hneg⟩

/-- Writing to a new file: all of the value is in it, or the reply is not its length. -/
theorem step_write {v v' : StorageVolume} {path value : Text} {written : Int}
    (hwriting : v.Writing () path []) (h : storageStep v (.write value) written v') :
    SameElsewhere path v v'
      ∧ (written = value.length → v'.Writing () path value) := by
  obtain ⟨outcome, houtcome, hdoes⟩ := h
  refine ⟨fun p hp => hdoes.elsewhere ?_, fun hwhole => ?_⟩
  · rintro ⟨handle, hhandle, rfl⟩
    rw [hwriting.handle] at hhandle
    exact hp (congrArg Handle.path (Option.some.inj hhandle)).symm
  · have hreply : replyOutcome (.write value) written = some .whole := if_pos hwhole
    obtain rfl : Outcome.whole = outcome := Option.some.inj (hreply.symm.trans houtcome)
    cases hdoes
    exact Volume.writing_written hwriting value

/-- Reading a file from its beginning. -/
theorem step_read {v v' : StorageVolume} {path contents : Text} {size : Nat}
    {bytesRead : Except Errno Text} (hreading : v.Reading () path contents 0)
    (h : storageStep v (.read size) bytesRead v') :
    v'.files = v.files ∧ ((∃ e, bytesRead = .error e) ∨ bytesRead = .ok (contents.take size)) := by
  obtain ⟨outcome, houtcome, hdoes⟩ := h
  cases bytesRead with
  | error e =>
    obtain rfl : Outcome.failed = outcome := Option.some.inj houtcome
    cases hdoes
    exact ⟨rfl, .inl ⟨e, rfl⟩⟩
  | ok value =>
    obtain rfl : Outcome.gave value = outcome := Option.some.inj houtcome
    cases hdoes
    exact ⟨rfl, .inr (congrArg Except.ok (Volume.chunk_reading hreading size))⟩

theorem step_sync {v v' : StorageVolume} {result : Int} (h : storageStep v .sync result v') :
    v' = v ∧ result ≤ 0 := by
  obtain ⟨outcome, houtcome, hdoes⟩ := h
  rcases resultOutcome_eq houtcome with ⟨hzero, rfl⟩ | ⟨hneg, rfl⟩
  · cases hdoes
    exact ⟨rfl, hzero.le⟩
  · cases hdoes
    exact ⟨rfl, hneg.le⟩

theorem step_close {v v' : StorageVolume} {result : Int} (h : storageStep v .close result v') :
    v'.files = v.files ∧ result ≤ 0 := by
  obtain ⟨outcome, houtcome, hdoes⟩ := h
  rcases resultOutcome_eq houtcome with ⟨hzero, rfl⟩ | ⟨hneg, rfl⟩
  · cases hdoes
    exact ⟨rfl, hzero.le⟩
  · cases hdoes
    exact ⟨rfl, hneg.le⟩

theorem step_unlink {v v' : StorageVolume} {path : Text} {result : Int}
    (h : storageStep v (.unlink path) result v') :
    SameElsewhere path v v' ∧ result ≤ 0 ∧ (result = 0 → v'.files path = none) := by
  obtain ⟨outcome, houtcome, hdoes⟩ := h
  refine ⟨fun p hp => hdoes.elsewhere hp, ?_⟩
  rcases resultOutcome_eq houtcome with ⟨hzero, rfl⟩ | ⟨hneg, rfl⟩
  · cases hdoes
    exact ⟨hzero.le, fun _ => Volume.unlinked_files_self v path⟩
  · exact ⟨hneg.le, fun hzero => absurd hzero hneg.ne⟩

/-! ## §6. The two halves. -/

/-- What a part of a test did, whatever its result: it left the other files alone, closed what it
opened and printed nothing. -/
structure StorageDid (path : Text) (v : StorageVolume) (result : Int) (part : StorageTrace)
    (v' : StorageVolume) : Prop where
  elsewhere : SameElsewhere path v v'
  balanced : openBalance part = 0
  quiet : storageLines part = []
  nonpos : result ≤ 0

/-- A step of a test that succeeds exactly when no call fails and `ok` holds, and where it does
leaves a volume in `after`. -/
structure StepDone (path : Text) (v : StorageVolume) (ok : Prop) (after : StorageVolume → Prop)
    (result : Int) (part : StorageTrace) (v' : StorageVolume) : Prop
    extends StorageDid path v result part v' where
  exact : result = 0 ↔ NoFailure part ∧ ok
  after : result = 0 → after v'

/-- A file that cannot be opened ends a step with the error. -/
theorem openFailed_done {path : Text} {flags : OpenFlags} {v v' : StorageVolume} {result : Int}
    (helsewhere : SameElsewhere path v v') (hneg : result < 0) (ok : Prop)
    (after : StorageVolume → Prop) :
    StepDone path v ok after result [⟨.openFile path flags, result⟩] v' := by
  have hne : result ≠ 0 := hneg.ne
  refine ⟨⟨helsewhere, ?_, rfl, hneg.le⟩, ?_, fun h => absurd h hne⟩
  · simp [openBalance, hne]
  · rw [noFailure_single]
    exact ⟨fun h => absurd h hne, fun h => not_not.mp h.1⟩

/-- Closing a file behind what was done with it. -/
theorem closeAfter_spec {path : Text} {v₀ v : StorageVolume} {result : Int} (before : StorageTrace)
    (helsewhere : SameElsewhere path v₀ v) (hnonpos : result ≤ 0)
    (hbalance : openBalance before = 1) (hquiet : storageLines before = []) :
    (closeAfter result).against storageStep (fun r part v' =>
      StorageDid path v₀ r (before ++ part) v' ∧ v'.files = v.files
        ∧ (r = 0 ↔ result = 0 ∧ NoFailure part) ∧ (result ≠ 0 → r = result)) v := by
  intro closeResult v' hclose
  obtain ⟨hfiles, hle⟩ := step_close hclose
  refine ⟨⟨fun p hp => (congrFun hfiles p).trans (helsewhere p hp), ?_, ?_, ?_⟩, hfiles, ?_,
    fun hne => if_pos hne⟩
  · rw [openBalance_append, hbalance]
    rfl
  · rw [storageLines_append, hquiet]
    rfl
  · split
    · exact hnonpos
    · exact hle
  · rw [noFailure_single]
    by_cases hzero : result = 0
    · rw [if_neg (not_not_intro hzero)]
      exact ⟨fun h => ⟨hzero, not_not_intro h⟩, fun h => not_not.mp h.2⟩
    · rw [if_pos hzero]
      exact ⟨fun h => absurd h hzero, fun h => absurd h.1 hzero⟩

/-- **Writing a value**: nothing failed exactly when the result is 0, and then the file holds the
value. -/
theorem storageDiagnosticWrite_spec (path value : Text) (v : StorageVolume) :
    (storageDiagnosticWrite path value).against storageStep
      (StepDone path v True fun v' => v'.files path = some value) v := by
  intro result v₁ hopen
  obtain ⟨helsewhere, hresult⟩ := step_create hopen
  beta_reduce
  rcases hresult with ⟨rfl, hwriting⟩ | hneg
  · rw [if_neg (not_not_intro rfl)]
    intro written v₂ hwrite
    obtain ⟨helsewhere', hwhole⟩ := step_write hwriting hwrite
    by_cases hlength : written = value.length
    · -- the value is in the file, and still there at the end
      beta_reduce
      rw [if_pos hlength]
      intro synced v₃ hsync
      obtain ⟨rfl, hsynced⟩ := step_sync hsync
      refine against_mono ?_ (closeAfter_spec
        [⟨.openFile path .createWriteTrunc, (0 : Int)⟩, ⟨.write value, written⟩, ⟨.sync, synced⟩]
        (helsewhere.trans helsewhere') hsynced rfl rfl)
      rintro r part v' ⟨hdid, hfiles, hexact, -⟩
      refine ⟨hdid, ?_, fun _ => (congrFun hfiles path).trans (hwhole hlength).contents⟩
      rw [and_true, hexact, NoFailure, NoFailure, List.forall_mem_cons, List.forall_mem_cons,
        List.forall_mem_cons]
      exact ⟨fun h => ⟨not_not_intro rfl, not_not_intro hlength, not_not_intro h.1, h.2⟩,
        fun h => ⟨not_not.mp h.2.2.1, h.2.2.2⟩⟩
    · -- a write that fails, or stops before the end
      beta_reduce
      rw [if_neg hlength]
      have herror : (if written < 0 then written else - EIO) < 0 := by
        split
        · rename_i hneg
          exact hneg
        · exact show (-5 : Int) < 0 by decide
      refine against_mono ?_ (closeAfter_spec
        [⟨.openFile path .createWriteTrunc, (0 : Int)⟩, ⟨.write value, written⟩]
        (helsewhere.trans helsewhere') herror.le rfl rfl)
      rintro r part v' ⟨hdid, -, -, hkeep⟩
      have hr : r ≠ 0 := fun h => herror.ne ((hkeep herror.ne).symm.trans h)
      refine ⟨hdid, ⟨fun h => absurd h hr, fun h => ?_⟩, fun h => absurd h hr⟩
      exact absurd hlength
        (h.1 ⟨.write value, written⟩ (List.mem_cons_of_mem _ List.mem_cons_self))
  · rw [if_pos hneg.ne]
    exact openFailed_done helsewhere hneg _ _

/-- What `storage_diagnostic_read` finds in contents of any length. -/
theorem readResult_eq {expected contents : Text} (h : expected.length ≤ VALUE_MAX_SIZE) :
    readResult expected (.ok (contents.take (VALUE_MAX_SIZE + 1)))
      = if contents = expected then 0 else - EIO := by
  unfold readResult
  dsimp only
  by_cases hsame : contents = expected
  · subst hsame
    rw [List.take_of_length_le (by omega), if_pos rfl, if_neg (not_not_intro rfl),
      if_neg (not_not_intro rfl)]
  · -- the first 49 characters differ, too
    have hdiffer : contents.take (VALUE_MAX_SIZE + 1) ≠ expected := by
      intro htake
      have hlength := congrArg List.length htake
      rw [List.length_take] at hlength
      exact hsame (by rw [← htake, List.take_of_length_le (by omega)])
    rw [if_neg hsame, if_pos hdiffer]
    split <;> rfl

/-- What the result of a read tells of the contents. -/
theorem readResult_tells {expected contents : Text} (hfits : expected.length ≤ VALUE_MAX_SIZE)
    {bytesRead : Except Errno Text}
    (hgave : (∃ e, bytesRead = .error e) ∨ bytesRead = .ok (contents.take (VALUE_MAX_SIZE + 1))) :
    (readResult expected bytesRead = 0
        ↔ ¬ Fails ⟨.read (VALUE_MAX_SIZE + 1), bytesRead⟩ ∧ contents = expected)
      ∧ (¬ Fails ⟨.read (VALUE_MAX_SIZE + 1), bytesRead⟩ →
        readResult expected bytesRead = if contents = expected then 0 else - EIO) := by
  rcases hgave with ⟨e, rfl⟩ | rfl
  · exact ⟨⟨fun h => absurd h e.code_neg.ne, fun h => absurd trivial h.1⟩,
      fun h => absurd trivial h⟩
  · rw [readResult_eq hfits]
    refine ⟨⟨fun h => ⟨id, ?_⟩, fun h => if_pos h.2⟩, fun _ => rfl⟩
    by_contra hne
    exact absurd ((if_neg hne).symm.trans h) (by decide)

/-- **Reading a value** changes no file; the result is 0 exactly when nothing failed and the file
holds the value, and tells a file that holds something else. -/
theorem storageDiagnosticRead_spec (path expected : Text) (v : StorageVolume) :
    (storageDiagnosticRead path expected).against storageStep (fun r part v' =>
      StepDone path v (v.files path = some expected ∧ expected.length ≤ VALUE_MAX_SIZE)
          (fun _ => True) r part v'
        ∧ v'.files = v.files
        ∧ (expected.length ≤ VALUE_MAX_SIZE → NoFailure part →
          (v.files path).isSome ∧ r = if v.files path = some expected then 0 else - EIO)) v := by
  unfold storageDiagnosticRead
  by_cases hlong : expected.length > VALUE_MAX_SIZE
  · rw [if_pos hlong]
    refine ⟨⟨⟨fun _ _ => rfl, rfl, rfl, by decide⟩, ?_, fun _ => trivial⟩, rfl,
      fun h => absurd h (by omega)⟩
    exact ⟨fun h => absurd h (by decide), fun h => absurd h.2.2 (by omega)⟩
  have hfits : expected.length ≤ VALUE_MAX_SIZE := Nat.not_lt.mp hlong
  rw [if_neg hlong]
  intro result v₁ hopen
  obtain ⟨hfiles, hresult⟩ := step_open hopen
  beta_reduce
  rcases hresult with ⟨rfl, contents, hreading⟩ | hneg
  · rw [if_neg (not_not_intro rfl)]
    intro bytesRead v₂ hread
    obtain ⟨hfiles', hgave⟩ := step_read hreading hread
    have hcontents : v.files path = some contents := (congrFun hfiles path).symm.trans hreading.contents
    have hsame : SameElsewhere path v v₂ := fun p _ => congrFun (hfiles'.trans hfiles) p
    have hnonpos : readResult expected bytesRead ≤ 0 := by
      rcases hgave with ⟨e, rfl⟩ | rfl
      · exact e.code_neg.le
      · rw [readResult_eq hfits]
        split <;> decide
    refine against_mono ?_ (closeAfter_spec
      [⟨.openFile path .read, (0 : Int)⟩, ⟨.read (VALUE_MAX_SIZE + 1), bytesRead⟩]
      hsame hnonpos rfl rfl)
    rintro r part v' ⟨hdid, hfiles'', hexact, hkeep⟩
    obtain ⟨hfound, htells⟩ := readResult_tells hfits hgave
    refine ⟨⟨hdid, ?_, fun _ => trivial⟩, hfiles''.trans (hfiles'.trans hfiles), fun _ hnone => ?_⟩
    · rw [hexact, hfound, hcontents, Option.some.injEq, NoFailure, NoFailure,
        List.forall_mem_cons, List.forall_mem_cons]
      exact ⟨fun h => ⟨⟨not_not_intro rfl, h.1.1, h.2⟩, h.1.2, hfits⟩,
        fun h => ⟨⟨h.1.2.1, h.2.1⟩, h.1.2.2⟩⟩
    · obtain ⟨-, hread, hpart⟩ := (List.forall_mem_cons.trans (and_congr_right'
        List.forall_mem_cons)).mp hnone
      have hresult := htells hread
      refine ⟨by rw [hcontents]; rfl, ?_⟩
      simp only [hcontents, Option.some.injEq]
      by_cases hsame : contents = expected
      · rw [if_pos hsame] at hresult ⊢
        exact hexact.mpr ⟨hresult, hpart⟩
      · rw [if_neg hsame] at hresult ⊢
        exact (hkeep (by rw [hresult]; decide)).trans hresult
  · rw [if_pos hneg.ne]
    refine ⟨openFailed_done (fun p _ => congrFun hfiles p) hneg _ _, hfiles, fun _ h => ?_⟩
    exact absurd hneg.ne ((noFailure_single _).mp h)

/-! ## §7. The tests. -/

theorem StorageDid.append {path : Text} {v v' v'' : StorageVolume} {r r' : Int}
    {part part' : StorageTrace} (h : StorageDid path v r part v')
    (h' : StorageDid path v' r' part' v'') : StorageDid path v r' (part ++ part') v'' := by
  constructor
  · exact h.elsewhere.trans h'.elsewhere
  · rw [openBalance_append, h.balanced, h'.balanced]
    rfl
  · rw [storageLines_append, h.quiet, h'.quiet]
    rfl
  · exact h'.nonpos

/-- The next step of a test, which is made only where nothing failed before. -/
theorem nextStep_spec {path : Text} {v v₁ : StorageVolume} {ok : Prop}
    {after after' : StorageVolume → Prop} {r : Int} {part : StorageTrace} {step : StorageProg Int}
    (h : StepDone path v ok after r part v₁)
    (hstep : after v₁ → step.against storageStep (StepDone path v₁ True after') v₁) :
    (nextStep r step).against storageStep
      (fun r' rest => StepDone path v ok after' r' (part ++ rest)) v₁ := by
  unfold nextStep
  by_cases hzero : r = 0
  · rw [if_pos hzero]
    refine against_mono ?_ (hstep (h.after hzero))
    intro r' rest v' hrest
    refine ⟨h.toStorageDid.append hrest.toStorageDid, ?_, hrest.after⟩
    obtain ⟨hpart, hok⟩ := h.exact.mp hzero
    rw [hrest.exact, and_true, noFailure_append]
    exact ⟨fun h => ⟨⟨hpart, h⟩, hok⟩, fun h => h.1.2⟩
  · rw [if_neg hzero, against_done, List.append_nil]
    exact ⟨h.toStorageDid, h.exact, fun h => absurd h hzero⟩

theorem unlinkFile_spec (path : Text) (v : StorageVolume) :
    (unlinkFile path).against storageStep
      (StepDone path v True fun v' => v'.files path = none) v := by
  intro result v' hunlink
  obtain ⟨helsewhere, hnonpos, hgone⟩ := step_unlink hunlink
  refine ⟨⟨helsewhere, rfl, rfl, hnonpos⟩, ?_, hgone⟩
  rw [and_true, noFailure_single]
  exact not_not.symm

/-- What a whole test did: it touched one path only, left nothing open, and told its result in one
line; it passed exactly when no call failed and `ok` held. -/
structure StorageTested (path : Text) (v : StorageVolume) (ok : Prop)
    (after : StorageVolume → Prop) (result : Int) (trace : StorageTrace) (v' : StorageVolume) :
    Prop where
  elsewhere : SameElsewhere path v v'
  balanced : openBalance trace = 0
  exact : result = 0 ↔ NoFailure trace ∧ ok
  after : result = 0 → after v'
  told : ∃ line, storageLines trace = [(decide (result = 0), line)]

/-- The line of a result, behind what the test did. -/
theorem StepDone.told {path : Text} {v v' : StorageVolume} {ok : Prop}
    {after : StorageVolume → Prop} {r : Int} {part last : StorageTrace}
    (h : StepDone path v ok after r part v') (hfailure : NoFailure last)
    (hbalance : openBalance last = 0) {line : Text}
    (hline : storageLines last = [(decide (r = 0), line)]) :
    StorageTested path v ok after r (part ++ last) v' := by
  refine ⟨h.elsewhere, ?_, ?_, h.after, line, ?_⟩
  · rw [openBalance_append, h.balanced, hbalance]
    rfl
  · rw [h.exact, noFailure_append, and_iff_left hfailure]
  · rw [storageLines_append, h.quiet, hline]
    rfl

/-- Reading a value that is in the file. -/
theorem storageDiagnosticRead_found {path expected : Text} {v : StorageVolume}
    (hfound : v.files path = some expected) (hfits : expected.length ≤ VALUE_MAX_SIZE) :
    (storageDiagnosticRead path expected).against storageStep (StepDone path v True fun _ => True)
      v := by
  refine against_mono ?_ (storageDiagnosticRead_spec path expected v)
  rintro r part v' ⟨hdone, -, -⟩
  refine ⟨hdone.toStorageDid, ?_, fun _ => trivial⟩
  rw [hdone.exact]
  exact and_congr_right' (iff_true_intro ⟨hfound, hfits⟩)

/-- **The basic test.** -/
theorem storageBasicTest_spec (v : StorageVolume) :
    (storageBasicTest cfg).against storageStep
      (StorageTested (storageTestPath cfg) v True fun v' => v'.files (storageTestPath cfg) = none)
      v := by
  refine against_seq (storageDiagnosticWrite_spec _ _ v) fun r part v₁ hwrite => ?_
  refine against_seq (nextStep_spec hwrite fun _ => storageDiagnosticWrite_spec _ _ v₁)
    fun r part₂ v₂ hoverwrite => ?_
  refine against_seq (nextStep_spec hoverwrite fun hfound =>
    storageDiagnosticRead_found hfound (by decide)) fun r part₃ v₃ hread => ?_
  refine against_seq (nextStep_spec hread fun _ => unlinkFile_spec _ v₃)
    fun r part₄ v₄ hunlink => ?_
  simp only [← List.append_assoc] at hunlink ⊢
  by_cases hzero : r = 0
  · subst hzero
    rw [if_neg (not_not_intro rfl)]
    rintro - v' rfl
    exact hunlink.told ((noFailure_single _).mpr id) rfl rfl
  · -- the file is removed once more, whatever became of it
    rw [if_pos hzero]
    intro removed v₅ hremove
    rintro - v' rfl
    have helsewhere := (step_unlink hremove).1
    refine ⟨hunlink.elsewhere.trans helsewhere, ?_, ?_, fun h => absurd h hzero,
      storageFailLine "Storage test".toList r, ?_⟩
    · rw [openBalance_append, hunlink.balanced]
      rfl
    · refine ⟨fun h => absurd h hzero, fun h => hunlink.exact.mpr ⟨?_, trivial⟩⟩
      exact (noFailure_append.mp h.1).1
    · rw [storageLines_append, hunlink.quiet, decide_eq_false hzero]
      rfl

theorem persistenceVerdict_spec {path : Text} {v v₁ : StorageVolume} {ok : Prop}
    {after : StorageVolume → Prop} {r : Int} {part : StorageTrace} (operation : Text)
    (h : StepDone path v ok after r part v₁) :
    (persistenceVerdict operation r).against storageStep
      (fun r' rest => StorageTested path v ok after r' (part ++ rest)) v₁ := by
  unfold persistenceVerdict
  by_cases hzero : r = 0
  · subst hzero
    rw [if_pos rfl]
    rintro - v' rfl
    exact h.told ((noFailure_single _).mpr id) rfl rfl
  · rw [if_neg hzero]
    rintro - v' rfl
    have hline : storageLines [⟨.error (storageFailLine ("Storage persistence ".toList ++ operation)
        r), ()⟩] = [(decide (r = 0), storageFailLine ("Storage persistence ".toList ++ operation) r)] := by
      rw [decide_eq_false hzero]
      rfl
    exact h.told ((noFailure_single _).mpr id) rfl hline

/-- A test that is refused. -/
theorem refused_spec {path line : Text} {v : StorageVolume} {ok : Prop}
    {after : StorageVolume → Prop} {result : Int} (hresult : result ≠ 0) (hok : ¬ ok) :
    (Prog.call (.error line) fun _ => .done result : StorageProg Int).against storageStep
      (StorageTested path v ok after) v := by
  rintro - v' rfl
  refine ⟨fun _ _ => rfl, rfl, ?_, fun h => absurd h hresult, line, ?_⟩
  · exact ⟨fun h => absurd h hresult, fun h => absurd h.2 hok⟩
  · rw [decide_eq_false hresult]
    rfl

/-- Whether a value can be written. -/
def ValueFits (value : Text) : Prop := value ≠ [] ∧ value.length ≤ VALUE_MAX_SIZE

instance (value : Text) : Decidable (ValueFits value) :=
  inferInstanceAs (Decidable (value ≠ [] ∧ value.length ≤ VALUE_MAX_SIZE))

/-- What the persistence test asks of the volume it begins on. -/
def PersistenceOk (operation value : Text) (v : StorageVolume) : Prop :=
  ValueFits value ∧ (operation = "write".toList
    ∨ operation = "read".toList ∧ v.files (storagePersistencePath cfg) = some value)

/-- What it leaves behind when it passes. -/
def PersistenceAfter (operation value : Text) (v' : StorageVolume) : Prop :=
  v'.files (storagePersistencePath cfg)
    = if operation = "write".toList then some value else none

/-- **The persistence test**, one of its halves. -/
theorem storagePersistenceTest_spec (operation value : Text) (v : StorageVolume) :
    (storagePersistenceTest cfg operation value).against storageStep
      (StorageTested (storagePersistencePath cfg) v (PersistenceOk cfg operation value v)
        (PersistenceAfter cfg operation value)) v := by
  unfold storagePersistenceTest
  by_cases hfits : ValueFits value
  · rw [if_neg fun h => h.elim hfits.1 fun h => absurd hfits.2 (by omega)]
    by_cases hwrite : operation = "write".toList
    · subst hwrite
      rw [if_pos rfl]
      refine against_seq (storageDiagnosticWrite_spec _ value v) fun r part v₁ h => ?_
      refine persistenceVerdict_spec _ ⟨h.toStorageDid, ?_, fun hzero => ?_⟩
      · rw [h.exact]
        exact and_congr_right' (iff_of_true trivial ⟨hfits, .inl rfl⟩)
      · exact (h.after hzero).trans (if_pos rfl).symm
    · rw [if_neg hwrite]
      by_cases hread : operation = "read".toList
      · subst hread
        rw [if_pos rfl]
        refine against_seq (storageDiagnosticRead_spec _ value v) fun r part v₁ h => ?_
        refine against_seq (nextStep_spec h.1 fun _ => unlinkFile_spec _ v₁)
          fun r part₂ v₂ hunlink => ?_
        simp only [← List.append_assoc]
        refine persistenceVerdict_spec _ ⟨hunlink.toStorageDid, ?_, fun hzero => ?_⟩
        · rw [hunlink.exact]
          exact and_congr_right' ⟨fun h => ⟨hfits, .inr ⟨rfl, h.1⟩⟩, fun h =>
            ⟨(h.2.resolve_left hwrite).2, hfits.2⟩⟩
        · exact (hunlink.after hzero).trans (if_neg hwrite).symm
      · rw [if_neg hread]
        refine refused_spec (by decide) fun h => ?_
        exact h.2.elim hwrite fun h => hread h.1
  · rw [if_pos (by
      by_contra h
      exact hfits ⟨fun h' => h (.inl h'), Nat.not_lt.mp fun h' => h (.inr h')⟩)]
    exact refused_spec (by decide) fun h => hfits h.1

/-- The path a test is about. -/
def storageTarget (argv : List Text) : Text :=
  if argv.length = 3 then storagePersistencePath cfg else storageTestPath cfg

/-- What `storage test` asks of the volume it begins on. -/
def StorageTestOk (argv : List Text) (v : StorageVolume) : Prop :=
  argv.length = 1 ∨ argv.length = 3 ∧ PersistenceOk cfg (arg argv 1) (arg argv 2) v

/-- What `storage test` leaves behind when it passes. -/
def StorageTestAfter (argv : List Text) (v' : StorageVolume) : Prop :=
  v'.files (storageTarget cfg argv)
    = if argv.length = 3 ∧ arg argv 1 = "write".toList then some (arg argv 2) else none

/-- A test after the file system was found ready. -/
theorem StorageTested.ready {path : Text} {v v' : StorageVolume} {ok : Prop}
    {after : StorageVolume → Prop} {r : Int} {trace : StorageTrace}
    (h : StorageTested path v ok after r trace v') :
    StorageTested path v ok after r (⟨.isReady, true⟩ :: trace) v' := by
  refine ⟨h.elsewhere, h.balanced, ?_, h.after, h.told⟩
  rw [h.exact, NoFailure, NoFailure, List.forall_mem_cons]
  exact and_congr_left' (iff_and_self.mpr fun _ => Bool.noConfusion)

theorem cmdStorageTest_spec (argv : List Text) (v : StorageVolume) :
    (cmdStorageTest cfg argv).against storageStep
      (StorageTested (storageTarget cfg argv) v (StorageTestOk cfg argv v)
        (StorageTestAfter cfg argv)) v := by
  rintro ready v' rfl
  beta_reduce
  cases ready with
  | false =>
    rw [if_pos rfl]
    rintro - v'' rfl
    refine ⟨fun _ _ => rfl, rfl, ⟨fun h => absurd h (by decide), fun h => ?_⟩,
      fun h => absurd h (by decide), _, rfl⟩
    exact absurd rfl (h.1 _ List.mem_cons_self)
  | true =>
    rw [if_neg (by decide)]
    by_cases hone : argv.length = 1
    · rw [if_pos hone]
      have hthree : argv.length ≠ 3 := by omega
      refine against_mono ?_ (storageBasicTest_spec cfg v')
      intro r trace v'' h
      refine StorageTested.ready ?_
      rw [storageTarget, if_neg hthree]
      refine ⟨h.elsewhere, h.balanced, ?_, fun hzero => ?_, h.told⟩
      · rw [h.exact]
        exact and_congr_right' (iff_of_true trivial (.inl hone))
      · rw [StorageTestAfter, storageTarget, if_neg hthree, if_neg fun h => hthree h.1]
        exact h.after hzero
    · rw [if_neg hone]
      by_cases hthree : argv.length = 3
      · rw [if_pos hthree]
        refine against_mono ?_ (storagePersistenceTest_spec cfg _ _ v')
        intro r trace v'' h
        refine StorageTested.ready ?_
        rw [storageTarget, if_pos hthree]
        refine ⟨h.elsewhere, h.balanced, ?_, fun hzero => ?_, h.told⟩
        · rw [h.exact]
          exact and_congr_right' ⟨fun h => .inr ⟨hthree, h⟩, fun h => (h.resolve_left hone).2⟩
        · rw [StorageTestAfter, storageTarget, if_pos hthree]
          refine (h.after hzero).trans (if_congr ?_ rfl rfl)
          exact (and_iff_right hthree).symm
      · rw [if_neg hthree]
        refine against_mono (fun _ _ _ h => StorageTested.ready h) (refused_spec (by decide) ?_)
        exact fun h => h.elim hone fun h => hthree h.1

/-! ## §8. A volume on which nothing fails. -/

/-- The reply of a volume that fails nothing it can do. -/
def reliable (v : StorageVolume) : (c : StorageCall) → StorageReply c × StorageVolume
  | .isReady => (true, v)
  | .openFile path .read =>
    if (v.files path).isSome then ((0 : Int), v.opened () path) else (-ENOENT, v)
  | .openFile path .createWriteTrunc => ((0 : Int), v.created () path)
  | .write value => ((value.length : Int), v.written () value)
  | .read size => (.ok (v.chunk () size), v.advanced () (v.chunk () size).length)
  | .sync => ((0 : Int), v)
  | .close => ((0 : Int), v.closed ())
  | .unlink path => if (v.files path).isSome then ((0 : Int), v.unlinked path) else (-ENOENT, v)
  | .print _ => ((), v)
  | .error _ => ((), v)

theorem reliable_step (v : StorageVolume) (c : StorageCall) :
    storageStep v c (reliable v c).1 (reliable v c).2 := by
  cases c with
  | isReady => rfl
  | print _ => rfl
  | error _ => rfl
  | openFile path flags =>
    cases flags with
    | read =>
      by_cases h : (v.files path).isSome
      · have hreply : reliable v (.openFile path .read) = ((0 : Int), v.opened () path) := if_pos h
        rw [hreply]
        exact ⟨.whole, rfl, .openRead h⟩
      · have hreply : reliable v (.openFile path .read) = (-ENOENT, v) := if_neg h
        rw [hreply]
        exact ⟨.failed, rfl, .failed⟩
    | createWriteTrunc => exact ⟨.whole, rfl, .create⟩
  | write value => exact ⟨.whole, if_pos rfl, .write⟩
  | read size => exact ⟨_, rfl, .read⟩
  | sync => exact ⟨.whole, rfl, .sync⟩
  | close => exact ⟨.whole, rfl, .close⟩
  | unlink path =>
    by_cases h : (v.files path).isSome
    · have hreply : reliable v (.unlink path) = ((0 : Int), v.unlinked path) := if_pos h
      rw [hreply]
      exact ⟨.whole, rfl, .unlink h⟩
    · have hreply : reliable v (.unlink path) = (-ENOENT, v) := if_neg h
      rw [hreply]
      exact ⟨.failed, rfl, .failed⟩

/-- An empty volume. -/
def emptyVolume : StorageVolume := ⟨fun _ => none, fun _ => none⟩

/-- A storage test on a volume on which nothing fails. -/
def reliableTest (cfg : StorageConfig) (argv : List Text) (v : StorageVolume) :
    StorageTrace × Int × StorageVolume := (cmdStorageTest cfg argv).execOn reliable v

/-! ## §9. Every run. -/

/-- **The storage test.**  Whatever fails, it changes no file but its own, leaves nothing open and
tells its result in one line.  It passes exactly when no call failed and, for `read`, the file
holds the value; then the file is as the test says, gone or with the value in it. -/
theorem storageTest_exact (argv : List Text) {v v' : StorageVolume} {trace : StorageTrace}
    {result : Int} (hruns : (cmdStorageTest cfg argv).Runs trace result)
    (hfollows : Behaves storageStep v trace v') :
    StorageTested (storageTarget cfg argv) v (StorageTestOk cfg argv v)
      (StorageTestAfter cfg argv) result trace v' :=
  against_iff.mp (cmdStorageTest_spec cfg argv v) trace result v' hruns hfollows

/-- The basic test passes on a volume on which nothing fails. -/
theorem storageTest_exact_reliable :
    StorageTested "/lfs/.storage-test".toList emptyVolume
      (StorageTestOk ⟨"/lfs".toList⟩ ["test".toList] emptyVolume)
      (StorageTestAfter ⟨"/lfs".toList⟩ ["test".toList])
      0 (reliableTest ⟨"/lfs".toList⟩ ["test".toList] emptyVolume).1
      (reliableTest ⟨"/lfs".toList⟩ ["test".toList] emptyVolume).2.2 :=
  storageTest_exact ⟨"/lfs".toList⟩ ["test".toList] (runs_execOn reliable _ _)
    (behaves_execOn reliable_step _ _)

/-! ## §10. Across resets. -/

/-- What becomes of the file when another value is read than the one it holds. -/
structure ReadOther (v : StorageVolume) (value : Text) (result : Int) (trace : StorageTrace)
    (v' : StorageVolume) : Prop where
  files : v'.files = v.files
  refused : result ≠ 0
  told : ValueFits value → NoFailure trace → result = - EIO

theorem storagePersistenceTest_other {value : Text} {v : StorageVolume}
    (hother : v.files (storagePersistencePath cfg) ≠ some value) :
    (storagePersistenceTest cfg "read".toList value).against storageStep (ReadOther v value) v := by
  unfold storagePersistenceTest
  by_cases hfits : value = [] ∨ value.length > VALUE_MAX_SIZE
  · rw [if_pos hfits]
    rintro - v' rfl
    refine ⟨rfl, by decide, fun h => ?_⟩
    exact absurd hfits (not_or.mpr ⟨h.1, Nat.not_lt.mpr h.2⟩)
  · rw [if_neg hfits, if_neg (by decide), if_pos rfl]
    refine against_seq (storageDiagnosticRead_spec _ value v) fun r part v₁ h => ?_
    obtain ⟨hdone, hfiles, htold⟩ := h
    have hr : r ≠ 0 := fun hzero => hother (hdone.exact.mp hzero).2.1
    -- nothing is removed
    rw [nextStep, if_neg hr, Prog.bind, persistenceVerdict, if_neg hr]
    rintro - v' rfl
    refine ⟨hfiles, hr, fun hvalue hnone => ?_⟩
    have hresult := (htold hvalue.2 (noFailure_append.mp hnone).1).2
    rw [if_neg hother] at hresult
    exact hresult

theorem cmdStorageTest_other (name : Text) {value : Text} {v : StorageVolume}
    (hother : v.files (storagePersistencePath cfg) ≠ some value) :
    (cmdStorageTest cfg [name, "read".toList, value]).against storageStep (ReadOther v value) v := by
  rintro ready v' rfl
  beta_reduce
  cases ready with
  | false =>
    rw [if_pos rfl]
    rintro - v'' rfl
    refine ⟨rfl, by decide, fun _ h => ?_⟩
    exact absurd rfl (h _ List.mem_cons_self)
  | true =>
    have hone : [name, "read".toList, value].length ≠ 1 := show 3 ≠ 1 by decide
    have hthree : [name, "read".toList, value].length = 3 := rfl
    rw [if_neg (by decide), if_neg hone, if_pos hthree]
    refine against_mono ?_ (storagePersistenceTest_other cfg hother)
    intro r trace v'' h
    exact ⟨h.files, h.refused, fun hfits hnone => h.told hfits (List.forall_mem_cons.mp hnone).2⟩

/-- What may happen to the persistence file without changing what it holds: resets, changes of
other files, and every other storage test, with whatever result. -/
inductive Between (held : Option Text) (v : StorageVolume) : StorageVolume → Prop
  | refl : Between held v v
  | reset {v' : StorageVolume} (behind : Between held v v') :
      Between held v { v' with handles := fun _ => none }
  | others {v' v'' : StorageVolume} (behind : Between held v v')
      (kept : v''.files (storagePersistencePath cfg) = v'.files (storagePersistencePath cfg)) :
      Between held v v''
  | test {v' v'' : StorageVolume} {argv : List Text} {trace : StorageTrace} {result : Int}
      (behind : Between held v v') (other : argv.length ≠ 3)
      (runs : (cmdStorageTest cfg argv).Runs trace result)
      (follows : Behaves storageStep v' trace v'') : Between held v v''
  | read {v' v'' : StorageVolume} {name value : Text} {trace : StorageTrace} {result : Int}
      (behind : Between held v v') (other : held ≠ some value)
      (runs : (cmdStorageTest cfg [name, "read".toList, value]).Runs trace result)
      (follows : Behaves storageStep v' trace v'') : Between held v v''

theorem paths_ne : storagePersistencePath cfg ≠ storageTestPath cfg := by
  intro h
  exact absurd (List.append_cancel_left h) (by decide)

/-- **What the file holds is kept.** -/
theorem Between.kept {held : Option Text} {v v' : StorageVolume} (h : Between cfg held v v')
    (hheld : v.files (storagePersistencePath cfg) = held) :
    v'.files (storagePersistencePath cfg) = held := by
  induction h with
  | refl => exact hheld
  | reset _ ih => exact ih
  | others _ kept ih => exact kept.trans ih
  | @test v' v'' argv trace result _ other runs follows ih =>
    have htested := against_iff.mp (cmdStorageTest_spec cfg argv v') _ _ _ runs follows
    have helsewhere := htested.elsewhere
    rw [storageTarget, if_neg other] at helsewhere
    exact (helsewhere _ (paths_ne cfg)).trans ih
  | @read v' v'' name value trace result _ other runs follows ih =>
    have hother : v'.files (storagePersistencePath cfg) ≠ some value := by
      rw [ih]
      exact other
    have hread := against_iff.mp (cmdStorageTest_other cfg name hother) _ _ _ runs follows
    exact (congrFun hread.files _).trans ih

/-- A read, by what the file holds. -/
theorem cmdStorageTest_read {name value : Text} {v v' : StorageVolume} {trace : StorageTrace}
    {result : Int} (hruns : (cmdStorageTest cfg [name, "read".toList, value]).Runs trace result)
    (hfollows : Behaves storageStep v trace v') :
    (result = 0 ↔ NoFailure trace ∧ ValueFits value
        ∧ v.files (storagePersistencePath cfg) = some value)
      ∧ (result = 0 → v'.files (storagePersistencePath cfg) = none) := by
  have htested := against_iff.mp (cmdStorageTest_spec cfg _ v) _ _ _ hruns hfollows
  have hread : "read".toList ≠ "write".toList := by decide
  constructor
  · rw [htested.exact]
    refine and_congr_right' ⟨?_, fun h => .inr ⟨rfl, h.1, .inr ⟨rfl, h.2⟩⟩⟩
    rintro (h | ⟨-, hfits, h | h⟩)
    · exact absurd (show 3 = 1 from h) (by decide)
    · exact absurd h hread
    · exact ⟨hfits, h.2⟩
  · exact fun hzero => (htested.after hzero).trans (if_neg fun h => hread h.2)

/-- A write that passed. -/
theorem cmdStorageTest_write {name value : Text} {v v' : StorageVolume} {trace : StorageTrace}
    (hruns : (cmdStorageTest cfg [name, "write".toList, value]).Runs trace 0)
    (hfollows : Behaves storageStep v trace v') :
    ValueFits value ∧ v'.files (storagePersistencePath cfg) = some value := by
  have htested := against_iff.mp (cmdStorageTest_spec cfg _ v) _ _ _ hruns hfollows
  constructor
  · rcases (htested.exact.mp rfl).2 with h | h
    · exact absurd (show 3 = 1 from h) (by decide)
    · exact h.2.1
  · exact (htested.after rfl).trans (if_pos ⟨rfl, rfl⟩)

/-- **The persistence test over resets.**  A value that was written passes when it is read back,
in whatever boot, unless a call fails; nothing else passes, and what fails leaves the value for
another read.  A value that has passed is gone: nothing passes again until the next write. -/
theorem persistence_round_trip {name value expected : Text} {v v₁ v₂ v₃ v₄ v₅ : StorageVolume}
    {writing reading again : StorageTrace} {result result' : Int} {name' name'' expected' : Text}
    (hwrite : (cmdStorageTest cfg [name, "write".toList, value]).Runs writing 0)
    (hwritten : Behaves storageStep v writing v₁) (hbetween : Between cfg (some value) v₁ v₂)
    (hread : (cmdStorageTest cfg [name', "read".toList, expected]).Runs reading result)
    (hfollows : Behaves storageStep v₂ reading v₃)
    (hafter : Between cfg (if expected = value then none else some value) v₃ v₄)
    (hagain : (cmdStorageTest cfg [name'', "read".toList, expected']).Runs again result')
    (hfollows' : Behaves storageStep v₄ again v₅) :
    (result = 0 ↔ NoFailure reading ∧ expected = value)
      ∧ (expected ≠ value → ValueFits expected → NoFailure reading → result = - EIO)
      ∧ (result = 0 → result' ≠ 0)
      ∧ (expected ≠ value → (result' = 0 ↔ NoFailure again ∧ expected' = value)) := by
  obtain ⟨hfits, hvalue⟩ := cmdStorageTest_write cfg hwrite hwritten
  have hheld := hbetween.kept cfg hvalue
  obtain ⟨hexact, hgone⟩ := cmdStorageTest_read cfg hread hfollows
  have hresult : result = 0 ↔ NoFailure reading ∧ expected = value := by
    rw [hexact, hheld, Option.some.injEq]
    refine and_congr_right' ⟨fun h => h.2.symm, ?_⟩
    rintro rfl
    exact ⟨hfits, rfl⟩
  -- what a read of another value leaves
  have hother : expected ≠ value → ReadOther v₂ expected result reading v₃ := by
    intro hne
    refine against_iff.mp (cmdStorageTest_other cfg name' ?_) _ _ _ hread hfollows
    rw [hheld]
    exact fun h => hne (Option.some.inj h).symm
  obtain ⟨hexact', -⟩ := cmdStorageTest_read cfg hagain hfollows'
  refine ⟨hresult, fun hne => (hother hne).told, fun hzero hzero' => ?_, fun hne => ?_⟩
  · rw [if_pos (hresult.mp hzero).2] at hafter
    have hnone := hafter.kept cfg (hgone hzero)
    have hsome := (hexact'.mp hzero').2.2
    rw [hnone] at hsome
    exact absurd hsome (by simp)
  · rw [if_neg hne] at hafter
    have hstill := hafter.kept cfg ((congrFun (hother hne).files _).trans hheld)
    rw [hexact', hstill, Option.some.injEq]
    refine and_congr_right' ⟨fun h => h.2.symm, ?_⟩
    rintro rfl
    exact ⟨hfits, rfl⟩

/-- The volume after a value was written. -/
def writtenOn : StorageVolume :=
  (reliableTest ⟨"/lfs".toList⟩ ["test".toList, "write".toList, "on".toList] emptyVolume).2.2

/-- The volume after another value was read. -/
def readOn : StorageVolume :=
  (reliableTest ⟨"/lfs".toList⟩ ["test".toList, "read".toList, "off".toList]
    { writtenOn with handles := fun _ => none }).2.2

/-- In the next boot another value is refused, and then the value itself is read. -/
theorem persistence_round_trip_reset :
    let off := reliableTest ⟨"/lfs".toList⟩ ["test".toList, "read".toList, "off".toList]
      { writtenOn with handles := fun _ => none }
    let on := reliableTest ⟨"/lfs".toList⟩ ["test".toList, "read".toList, "on".toList] readOn
    off.2.1 = - EIO ∧ on.2.1 = 0 := by
  intro off on
  have hwrite : (cmdStorageTest ⟨"/lfs".toList⟩ ["test".toList, "write".toList, "on".toList]).Runs
      (reliableTest ⟨"/lfs".toList⟩ ["test".toList, "write".toList, "on".toList] emptyVolume).1 0 :=
    runs_execOn reliable _ _
  have hoff : (cmdStorageTest ⟨"/lfs".toList⟩ ["test".toList, "read".toList, "off".toList]).Runs
      off.1 off.2.1 := runs_execOn reliable _ _
  have hon : (cmdStorageTest ⟨"/lfs".toList⟩ ["test".toList, "read".toList, "on".toList]).Runs
      on.1 on.2.1 := runs_execOn reliable _ _
  have h := persistence_round_trip ⟨"/lfs".toList⟩ hwrite (behaves_execOn reliable_step _ _)
    (Between.reset .refl) hoff (behaves_execOn reliable_step _ _) .refl hon
    (behaves_execOn reliable_step _ _)
  have hreliable : NoFailure off.1 ∧ NoFailure on.1 := by decide
  exact ⟨h.2.1 (by decide) (by decide) hreliable.1, (h.2.2.2 (by decide)).mpr ⟨hreliable.2, rfl⟩⟩

end KFsw.App
