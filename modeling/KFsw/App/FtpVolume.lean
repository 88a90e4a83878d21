/-
  KFsw.App.FtpVolume — the file-transfer diagnostics on a volume.

  `ftp generate` and `ftp verify` are run against files that they create, write
  and read, as the flags of their `fs_open` say; any operation may fail, also after
  it has begun.

  Main results:
    * `writeLoop_volume`, `ftpDiagnosticGenerate_volume` — what the file holds;
    * `serves_reading`            — what the reads of open files give;
    * `ftpDiagnosticCompare_volume` — the comparison is about the files;
    * `ftpDiagnostics_exact`      — both are exact, and close what they open;
    * `generated_verified`        — files that were generated compare as their
      sizes do, whatever happens to other files in between.
-/
import KFsw.App.StorageDiagnostics

namespace KFsw.App

open KFsw.Lib Prog
open KFsw.Lib.Volume (SameElsewhere)

variable (cfg : FtpConfig)

/-! ## §1. The volume. -/

abbrev FtpVolume := Volume Text FsFile UInt8

/-- The operation of a call; the check of a path is none. -/
def FsCall.op : FsCall → Option (VolumeOp Text FsFile UInt8)
  | .validatePath _ => none
  | .openFile file path .read => some (.openRead file path)
  | .openFile file path .createWriteTrunc => some (.create file path)
  | .write file data => some (.write file data)
  | .read file size => some (.read file size)
  | .sync file => some (.sync file)
  | .close file => some (.close file)

/-- What a reply says of the operation; `none` is a reply it never gives. -/
def fsOutcome : (c : FsCall) → FsReply c → Option (Outcome UInt8)
  | .write _ data, (written : Int) =>
    if written = data.length then some .whole
    else if written < 0 then some .failed
    else if written < data.length then some (.short written.toNat) else none
  | .read _ _, .ok data => some (.gave data)
  | .read _ _, .error _ => some .failed
  | .openFile _ _ _, (result : Int) => resultOutcome result
  | .sync _, (result : Int) => resultOutcome result
  | .close _, (result : Int) => resultOutcome result
  | .validatePath _, _ => none

/-- **The file system**: every operation does what it can do on the volume. -/
def fsStep : Behaviour FtpVolume FsCall FsReply := fun v c reply v' =>
  match c.op with
  | none => v' = v
  | some op => ∃ outcome, fsOutcome c reply = some outcome ∧ v.Does op outcome v'

theorem fsStep_sync {v v' : FtpVolume} {file : FsFile} {result : Int}
    (h : fsStep v (.sync file) result v') : v' = v := by
  obtain ⟨outcome, houtcome, hdoes⟩ := h
  rcases resultOutcome_eq houtcome with ⟨_, rfl⟩ | ⟨_, rfl⟩
  · cases hdoes
    rfl
  · cases hdoes
    rfl

theorem fsStep_close {v v' : FtpVolume} {file : FsFile} {result : Int}
    (h : fsStep v (.close file) result v') : v'.files = v.files := by
  obtain ⟨outcome, houtcome, hdoes⟩ := h
  rcases resultOutcome_eq houtcome with ⟨_, rfl⟩ | ⟨_, rfl⟩
  · cases hdoes
    rfl
  · cases hdoes
    rfl

/-- Resolving a path leaves the volume alone. -/
theorem resolveFtpLocalPath_volume (path : Text) (v : FtpVolume) :
    (resolveFtpLocalPath cfg path).against fsStep (fun _ _ v' => v' = v) v :=
  fun _ _ hstep => hstep

/-! ## §2. The pattern file. -/

/-- The file holds the pattern, or a beginning of it. -/
def BegunPattern (path : Text) (size : Nat) (v : FtpVolume) : Prop :=
  ∃ n, n ≤ size ∧ v.files path = some (patternBytes 0 n)

theorem patternBytes_take (offset m n : Nat) :
    (patternBytes offset m).take n = patternBytes offset (min n m) := by
  unfold patternBytes
  rw [← List.map_take, List.take_range]

/-- A file that is being written holds a beginning of the pattern. -/
theorem begun_of_writing {path : Text} {size offset n m : Nat} {v : FtpVolume}
    (h : v.Writing .first path (patternBytes 0 offset ++ (patternBytes offset m).take n))
    (hm : offset + m ≤ size) : BegunPattern path size v := by
  refine ⟨offset + min n m, by omega, h.contents.trans (congrArg some ?_)⟩
  rw [patternBytes_add, Nat.zero_add, patternBytes_take]

/-- **The writing loop** leaves the pattern in the file up to where a write fails. -/
theorem writeLoop_volume {path : Text} {size offset : Nat} (hoffset : offset ≤ size)
    (crc : BitVec 32) {v : FtpVolume} (hwriting : v.Writing .first path (patternBytes 0 offset)) :
    (writeLoop cfg size offset crc).against fsStep (fun out _ v' =>
      SameElsewhere path v v' ∧ BegunPattern path size v'
        ∧ (out.1 = 0 → v'.files path = some (patternBytes 0 size))) v := by
  -- on the bytes that are still to be written
  induction hleft : size - offset using Nat.strong_induction_on generalizing offset crc v with
  | _ left ih =>
    unfold writeLoop
    split
    · rename_i hmore
      have hchunk : 0 < min CHUNK_SIZE (size - offset) := by
        unfold CHUNK_SIZE
        omega
      have hle : offset + min CHUNK_SIZE (size - offset) ≤ size := by omega
      rintro written v' ⟨outcome, houtcome, hdoes⟩
      have helsewhere : SameElsewhere path v v' := by
        intro p hp
        refine hdoes.elsewhere ?_
        rintro ⟨handle, hhandle, rfl⟩
        rw [hwriting.handle] at hhandle
        exact hp (congrArg Handle.path (Option.some.inj hhandle)).symm
      obtain ⟨n, hwritten, hwhole⟩ := hdoes.write_writing hwriting
      beta_reduce
      split
      · -- a write that fails ends the loop
        rename_i hshort
        exact ⟨helsewhere, begun_of_writing hwritten hle, fun h => absurd h (show (-5 : Int) ≠ 0 by decide)⟩
      · rename_i hlength
        have hall : outcome = .whole := by
          have hreply : fsOutcome (.write .first (patternBytes offset
              (min CHUNK_SIZE (size - offset)))) written = some .whole :=
            if_pos (by rw [patternBytes_length]; exact not_not.mp hlength)
          exact Option.some.inj (houtcome.symm.trans hreply)
        have hnext : v'.Writing .first path
            (patternBytes 0 (offset + min CHUNK_SIZE (size - offset))) := by
          rw [hwhole hall] at hwritten
          rw [patternBytes_add, Nat.zero_add]
          exact hwritten
        refine against_mono ?_ (ih _ (by omega) hle _ hnext rfl)
        rintro out rest v'' ⟨hrest, hbegun, hend⟩
        exact ⟨helsewhere.trans hrest, hbegun, hend⟩
    · rename_i hend
      obtain rfl : offset = size := by omega
      exact ⟨fun _ _ => rfl, ⟨offset, le_rfl, hwriting.contents⟩, fun _ => hwriting.contents⟩

/-- A path of the volume after `generate`, whatever failed: as it was, or a beginning of the
pattern. -/
def GeneratedOn (path : Text) (size : Nat) (v v' : FtpVolume) : Prop :=
  SameElsewhere path v v' ∧ (v'.files path = v.files path ∨ BegunPattern path size v')

theorem GeneratedOn.files {path : Text} {size : Nat} {v v' v'' : FtpVolume}
    (h : GeneratedOn path size v v') (hfiles : v''.files = v'.files) :
    GeneratedOn path size v v'' := by
  unfold GeneratedOn SameElsewhere BegunPattern at *
  rw [hfiles]
  exact h

/-- Opening the file that is generated. -/
theorem openIf_create (result : Int) (path : Text) (size : Nat) (v : FtpVolume) :
    (openIf cfg result .first path .createWriteTrunc).against fsStep (fun opened _ v' =>
      GeneratedOn (fullPath cfg path) size v v'
        ∧ (opened.1 = 0 → v'.Writing .first (fullPath cfg path) [])) v := by
  unfold openIf
  split
  · rintro result v' ⟨outcome, houtcome, hdoes⟩
    have helsewhere : SameElsewhere (fullPath cfg path) v v' := fun p hp => hdoes.elsewhere hp
    rcases resultOutcome_eq houtcome with ⟨_, rfl⟩ | ⟨hneg, rfl⟩
    · cases hdoes
      have hwriting := Volume.writing_created v FsFile.first (fullPath cfg path)
      exact ⟨⟨helsewhere, .inr ⟨0, Nat.zero_le _, hwriting.contents⟩⟩, fun _ => hwriting⟩
    · refine ⟨⟨helsewhere, ?_⟩, fun h => absurd h hneg.ne⟩
      cases hdoes with
      | failed => exact .inl rfl
      | createFailed => exact .inr ⟨0, Nat.zero_le _, Function.update_self _ _ _⟩
  · rename_i hne
    exact ⟨⟨fun _ _ => rfl, .inl rfl⟩, fun h => absurd h hne⟩

/-- **`ftp_diagnostic_generate` on a volume** touches its own file only, which is as it was or
holds a beginning of the pattern, and the whole pattern where the result is 0. -/
theorem ftpDiagnosticGenerate_volume (path : Text) (size : UInt32) (before : BitVec 32)
    (v : FtpVolume) :
    (ftpDiagnosticGenerate cfg path size before).against fsStep
      (fun out _ v' => GeneratedOn (fullPath cfg path) size.toNat v v'
        ∧ (out.1 = 0 → v'.files (fullPath cfg path) = some (patternBytes 0 size.toNat))) v := by
  refine against_seq (resolveFtpLocalPath_volume cfg path v) fun result _ v₁ hresolved => ?_
  obtain rfl : v₁ = v := hresolved
  refine against_seq (openIf_create cfg result path size.toNat v₁) fun opened _ v₂ hopened => ?_
  have hwrite : (if opened.1 = 0 then writeLoop cfg size.toNat 0 0 else .done (opened.1, 0)).against
      fsStep (fun out _ v' => GeneratedOn (fullPath cfg path) size.toNat v₁ v'
        ∧ (out.1 = 0 → v'.files (fullPath cfg path) = some (patternBytes 0 size.toNat))) v₂ := by
    split
    · rename_i hzero
      refine against_mono ?_ (writeLoop_volume cfg (Nat.zero_le _) 0 (hopened.2 hzero))
      rintro out _ v' ⟨helsewhere, hbegun, hend⟩
      exact ⟨⟨hopened.1.1.trans helsewhere, .inr hbegun⟩, hend⟩
    · rename_i hne
      exact ⟨hopened.1, fun h => absurd h hne⟩
  refine against_seq hwrite fun written _ v₃ hwritten => ?_
  have hsync : (syncIf written.1 .first).against fsStep (fun r _ v' =>
      v' = v₃ ∧ (r = 0 → written.1 = 0)) v₃ := by
    unfold syncIf
    split
    · rename_i hzero
      exact fun r v' hstep => ⟨fsStep_sync hstep, fun _ => hzero⟩
    · exact ⟨rfl, id⟩
  refine against_seq hsync fun synced _ v₄ hsynced => ?_
  obtain ⟨rfl, hsynced⟩ := hsynced
  have hclose : (closeIf synced .first opened.2).against fsStep (fun r _ v' =>
      v'.files = v₄.files ∧ (r = 0 → synced = 0)) v₄ := by
    unfold closeIf
    split
    · intro r v' hstep
      refine ⟨fsStep_close hstep, fun h => ?_⟩
      by_contra hne
      exact hne ((if_neg hne).symm.trans h)
    · exact ⟨rfl, id⟩
  refine against_seq hclose fun closed _ v₅ hclosed => ?_
  refine ⟨hwritten.1.files hclosed.1, fun hzero => ?_⟩
  rw [hclosed.1]
  exact hwritten.2 (hsynced (hclosed.2 hzero))

/-! ## §3. The comparison. -/

/-- A call that changes no file. -/
def NoWrite : FsCall → Prop
  | .write _ _ | .openFile _ _ .createWriteTrunc => False
  | _ => True

theorem fsStep_files {v v' : FtpVolume} {c : FsCall} {reply : FsReply c} (hc : NoWrite c)
    (h : fsStep v c reply v') : v'.files = v.files := by
  cases c with
  | validatePath path => exact congrArg Volume.files h
  | write file data => exact hc.elim
  | openFile file path flags =>
    cases flags with
    | createWriteTrunc => exact hc.elim
    | read =>
      obtain ⟨outcome, _, hdoes⟩ := h
      cases hdoes <;> rfl
  | _ =>
    obtain ⟨outcome, _, hdoes⟩ := h
    cases hdoes <;> rfl

/-- The calls of `compare`. -/
def Compares (firstPath secondPath : Text) : FsCall → Prop
  | .validatePath p => p ∈ [firstPath, secondPath]
  | .openFile _ p .read => p ∈ [fullPath cfg firstPath, fullPath cfg secondPath]
  | .write _ _ | .openFile _ _ .createWriteTrunc => False
  | _ => True

theorem Compares.noWrite {firstPath secondPath : Text} {c : FsCall}
    (h : Compares cfg firstPath secondPath c) : NoWrite c := by
  cases c with
  | openFile file path flags =>
    cases flags with
    | read => trivial
    | createWriteTrunc => exact h.elim
  | write file data => exact h.elim
  | _ => trivial

theorem compareLoop_compares (firstPath secondPath : Text) (turns : Nat) :
    (compareLoop turns).Calls (Compares cfg firstPath secondPath) := by
  induction turns with
  | zero => exact trivial
  | succ turns ih =>
    refine ⟨trivial, fun first => ⟨trivial, fun second => ?_⟩⟩
    beta_reduce
    split
    · exact trivial
    · exact trivial
    · split
      · exact trivial
      · split
        · exact trivial
        · exact ih

theorem openIf_compares {firstPath secondPath path : Text} (hpath : path ∈ [firstPath, secondPath])
    (result : Int) (file : FsFile) :
    (openIf cfg result file path .read).Calls (Compares cfg firstPath secondPath) := by
  unfold openIf
  split
  · exact ⟨List.mem_map_of_mem hpath, fun _ => trivial⟩
  · exact trivial

theorem closeIf_compares (firstPath secondPath : Text) (result : Int) (file : FsFile) (mp : Bool) :
    (closeIf result file mp).Calls (Compares cfg firstPath secondPath) := by
  unfold closeIf
  split
  · exact ⟨trivial, fun _ => trivial⟩
  · exact trivial

theorem ftpDiagnosticCompare_compares (turns : Nat) (firstPath secondPath : Text) :
    (ftpDiagnosticCompare cfg turns firstPath secondPath).Calls
      (Compares cfg firstPath secondPath) := by
  have hfirst : firstPath ∈ [firstPath, secondPath] := by simp
  have hsecond : secondPath ∈ [firstPath, secondPath] := by simp
  refine Calls.bind ⟨hfirst, fun _ => trivial⟩ fun result => ?_
  refine Calls.bind ?_ fun result => ?_
  · split
    · exact ⟨hsecond, fun _ => trivial⟩
    · exact trivial
  refine Calls.bind (openIf_compares cfg hfirst _ _) fun first => ?_
  refine Calls.bind (openIf_compares cfg hsecond _ _) fun second => ?_
  refine Calls.bind ?_ fun looped => ?_
  · split
    · exact compareLoop_compares cfg _ _ turns
    · exact trivial
  cases looped with
  | none => exact trivial
  | some result =>
    refine Calls.bind (closeIf_compares cfg _ _ _ _ _) fun result => ?_
    exact Calls.bind (closeIf_compares cfg _ _ _ _ _) fun result => trivial

/-- Calls that change no file leave the files of a volume as they are. -/
theorem files_of_behaves {v v' : FtpVolume} {trace : FsTrace}
    (hcalls : ∀ e ∈ trace, NoWrite e.1) (h : Behaves fsStep v trace v') : v'.files = v.files :=
  h.keeps (I := fun s => s.files = v.files)
    (fun _ _ _ _ hc hstep hI => (fsStep_files hc hstep).trans hI) hcalls rfl

/-- A call that reads. -/
def IsRead : FsCall → Prop
  | .read _ _ => True
  | _ => False

theorem compareLoop_reads (turns : Nat) : (compareLoop turns).Calls IsRead := by
  induction turns with
  | zero => exact trivial
  | succ turns ih =>
    refine ⟨trivial, fun first => ⟨trivial, fun second => ?_⟩⟩
    beta_reduce
    split
    · exact trivial
    · exact trivial
    · split
      · exact trivial
      · split
        · exact trivial
        · exact ih

/-- **Open files give their contents**, each from its own position on. -/
theorem serves_reading (path : FsFile → Text) {contents : FsFile → Bytes}
    {position : FsFile → Nat} {v v' : FtpVolume} {trace : FsTrace}
    (hreading : ∀ file, v.Reading file (path file) (contents file) (position file))
    (hreads : ∀ e ∈ trace, IsRead e.1) (h : Behaves fsStep v trace v') :
    Serves contents position trace := by
  induction h generalizing position with
  | nil v => exact trivial
  | @cons v v₁ v₂ c reply trace first rest ih =>
    obtain ⟨hread, hrest⟩ := List.forall_mem_cons.mp hreads
    cases c with
    | read file size =>
      obtain ⟨outcome, houtcome, hdoes⟩ := first
      cases reply with
      | error e =>
        obtain rfl : Outcome.failed = outcome := Option.some.inj houtcome
        cases hdoes
        exact ih hreading hrest
      | ok data =>
        obtain rfl : Outcome.gave data = outcome := Option.some.inj houtcome
        cases hdoes
        refine ⟨Volume.chunk_reading (hreading file) size, ih (fun other => ?_) hrest⟩
        by_cases hfile : other = file
        · subst hfile
          rw [Function.update_self]
          exact Volume.reading_advanced (hreading other) _
        · rw [Function.update_of_ne hfile]
          exact Volume.reading_advanced_other (hreading other) hfile _
    | _ => exact hread.elim

/-- Calls that read nothing give nothing of a file. -/
theorem serves_noRead {contents : FsFile → Bytes} {position : FsFile → Nat} {trace : FsTrace}
    (h : ∀ e ∈ trace, NoRead e.1) : Serves contents position trace := by
  induction trace with
  | nil => exact trivial
  | cons e rest ih =>
    obtain ⟨hread, hrest⟩ := List.forall_mem_cons.mp h
    obtain ⟨c, reply⟩ := e
    cases c with
    | read file size => exact hread.elim
    | _ => exact ih hrest

theorem serves_before {contents : FsFile → Bytes} {position : FsFile → Nat}
    {first second : FsTrace} (hfirst : ∀ e ∈ first, NoRead e.1)
    (h : Serves contents position second) : Serves contents position (first ++ second) := by
  induction first with
  | nil => exact h
  | cons e rest ih =>
    obtain ⟨hread, hrest⟩ := List.forall_mem_cons.mp hfirst
    obtain ⟨c, reply⟩ := e
    cases c with
    | read file size => exact hread.elim
    | _ => exact ih hrest

theorem serves_behind {contents : FsFile → Bytes} {position : FsFile → Nat}
    {first second : FsTrace} (h : Serves contents position first)
    (hsecond : ∀ e ∈ second, NoRead e.1) : Serves contents position (first ++ second) := by
  induction first generalizing position with
  | nil => exact serves_noRead hsecond
  | cons e rest ih =>
    obtain ⟨c, reply⟩ := e
    cases c with
    | read file size =>
      cases reply with
      | error e => exact ih h
      | ok data => exact ⟨h.1, ih h.2⟩
    | _ => exact ih h

/-- Opening a file to read it, where nothing failed before. -/
theorem openIf_open (result : Int) (file : FsFile) (path : Text) (v : FtpVolume) :
    (openIf cfg result file path .read).against fsStep (fun opened _ v' =>
      (opened.1 = 0 → result = 0 ∧ ∃ contents, v.files (fullPath cfg path) = some contents
          ∧ v'.Reading file (fullPath cfg path) contents 0)
        ∧ ∀ other p contents position, other ≠ file → v.Reading other p contents position →
          v'.Reading other p contents position) v := by
  unfold openIf
  split
  · rename_i hzero
    rintro result v' ⟨outcome, houtcome, hdoes⟩
    rcases resultOutcome_eq houtcome with ⟨_, rfl⟩ | ⟨hneg, rfl⟩
    · cases hdoes with
      | openRead hexists =>
        obtain ⟨contents, hcontents⟩ := Option.isSome_iff_exists.mp hexists
        refine ⟨fun _ => ⟨hzero, contents, hcontents, Volume.reading_opened hcontents file⟩, ?_⟩
        exact fun other p data position hne h => Volume.reading_opened_other h hne _
    · cases hdoes
      exact ⟨fun h => absurd h hneg.ne, fun _ _ _ _ _ h => h⟩
  · rename_i hne
    exact ⟨fun h => absurd h hne, fun _ _ _ _ _ h => h⟩

theorem closeIf_noRead (result : Int) (file : FsFile) (mp : Bool) :
    (closeIf result file mp).Calls NoRead := by
  unfold closeIf
  split
  · exact ⟨trivial, fun _ => trivial⟩
  · exact trivial

/-- The contents of the two files that are compared. -/
def comparedContents (firstPath secondPath : Text) (v : FtpVolume) : FsFile → Bytes
  | .first => (v.files (fullPath cfg firstPath)).getD []
  | .second => (v.files (fullPath cfg secondPath)).getD []

/-- Both files are open at their beginning when nothing failed up to the second opening. -/
theorem openBoth_run {firstPath secondPath : Text} {result r₁ r₂ : Int} {mp₁ mp₂ : Bool}
    {first second : FsTrace} {v v₁ v₂ : FtpVolume}
    (hfirst : (openIf cfg result .first firstPath .read).Runs first (r₁, mp₁))
    (hfollows : Behaves fsStep v first v₁)
    (hsecond : (openIf cfg r₁ .second secondPath .read).Runs second (r₂, mp₂))
    (hfollows' : Behaves fsStep v₁ second v₂) (hzero : r₂ = 0) :
    ∃ contents contents', v.files (fullPath cfg firstPath) = some contents
      ∧ v.files (fullPath cfg secondPath) = some contents'
      ∧ v₂.Reading .first (fullPath cfg firstPath) contents 0
      ∧ v₂.Reading .second (fullPath cfg secondPath) contents' 0 := by
  have hnoWrite := hfirst.calls (openIf_compares cfg
    (show firstPath ∈ [firstPath, secondPath] by simp) result .first)
  have hfiles : v₁.files = v.files :=
    files_of_behaves (fun e he => (hnoWrite e he).noWrite cfg) hfollows
  obtain ⟨hopened, -⟩ :=
    against_iff.mp (openIf_open cfg result .first firstPath v) _ _ _ hfirst hfollows
  obtain ⟨hopened', hother⟩ :=
    against_iff.mp (openIf_open cfg r₁ .second secondPath v₁) _ _ _ hsecond hfollows'
  obtain ⟨hone, contents', hcontents', hreading'⟩ := hopened' hzero
  obtain ⟨-, contents, hcontents, hreading⟩ := hopened hone
  rw [hfiles] at hcontents'
  exact ⟨contents, contents', hcontents, hcontents', hother _ _ _ _ (by decide) hreading,
    hreading'⟩

/-- **The reads of a comparison give the contents of the files**, which are there where it comes
to reading. -/
theorem ftpDiagnosticCompare_serves {turns : Nat} {firstPath secondPath : Text}
    {v v' : FtpVolume} {trace : FsTrace} {looped : Option Int}
    (h : (ftpDiagnosticCompare cfg turns firstPath secondPath).Runs trace looped)
    (hbehaves : Behaves fsStep v trace v') :
    Serves (comparedContents cfg firstPath secondPath v) (fun _ => 0) trace
      ∧ ((∀ e ∈ trace, failure cfg e = none) →
        (v.files (fullPath cfg firstPath)).isSome ∧ (v.files (fullPath cfg secondPath)).isSome) := by
  obtain ⟨t1, rest, r1, rfl, h1, k1⟩ := runs_bind.mp h
  obtain ⟨t2, rest, r2, rfl, h2, k2⟩ := runs_bind.mp k1
  obtain ⟨t3, rest, ⟨r3, mp1⟩, rfl, h3, k3⟩ := runs_bind.mp k2
  obtain ⟨t4, rest, ⟨r4, mp2⟩, rfl, h4, k4⟩ := runs_bind.mp k3
  obtain ⟨t5, rest, loopResult, rfl, h5, k5⟩ := runs_bind.mp k4
  obtain ⟨v1, b1, hbehaves⟩ := behaves_append.mp hbehaves
  obtain ⟨v2, b2, hbehaves⟩ := behaves_append.mp hbehaves
  obtain ⟨v3, b3, hbehaves⟩ := behaves_append.mp hbehaves
  obtain ⟨v4, b4, hbehaves⟩ := behaves_append.mp hbehaves
  obtain ⟨v5, b5, hbehaves⟩ := behaves_append.mp hbehaves
  obtain rfl : v1 = v := against_iff.mp (resolveFtpLocalPath_volume cfg _ v) _ _ _ h1 b1
  obtain ⟨c2, -, n2⟩ := resolveIf_run cfg h2
  obtain rfl : v2 = v1 := by
    split at h2
    · exact against_iff.mp (resolveFtpLocalPath_volume cfg _ v1) _ _ _ h2 b2
    · obtain ⟨rfl, -⟩ := runs_done.mp h2
      cases b2
      rfl
  have hrest : ∀ e ∈ rest, NoRead e.1 := by
    refine k5.calls ?_
    cases loopResult with
    | none => exact trivial
    | some result =>
      refine Calls.bind (closeIf_noRead _ _ _) fun result => ?_
      exact Calls.bind (closeIf_noRead _ _ _) fun result => trivial
  -- both files are open where it comes to the loop
  have hopen := openBoth_run cfg h3 b3 h4 b4
  constructor
  · refine serves_before (h1.calls (resolveFtpLocalPath_calls cfg _)) ?_
    refine serves_before n2 ?_
    refine serves_before (h3.calls (openIf_calls cfg _ _ _ _)) ?_
    refine serves_before (h4.calls (openIf_calls cfg _ _ _ _)) (serves_behind ?_ hrest)
    split at h5
    · rename_i hzero
      obtain ⟨first, second, hfirst, hsecond, hreading, hreading'⟩ := hopen hzero
      refine serves_reading (fun
        | .first => fullPath cfg firstPath
        | .second => fullPath cfg secondPath) (fun file => ?_) (h5.calls (compareLoop_reads turns)) b5
      cases file with
      | first =>
        rw [comparedContents, hfirst]
        exact hreading
      | second =>
        rw [comparedContents, hsecond]
        exact hreading'
    · obtain ⟨rfl, -⟩ := runs_done.mp h5
      exact trivial
  · intro hnone
    obtain ⟨c1, -⟩ := resolveFtpLocalPath_run cfg h1
    obtain ⟨c3, -⟩ := openIf_run cfg h3
    obtain ⟨c4, -⟩ := openIf_run cfg h4
    have hbefore := c1.append cfg (c2.append cfg (c3.append cfg c4))
    have hzero : r4 = 0 := by
      refine (hbefore.eq_zero_iff cfg).mpr fun e he => hnone e ?_
      simp only [List.mem_append] at he ⊢
      rcases he with he | he | he | he <;> simp [he]
    obtain ⟨first, second, hfirst, hsecond, -⟩ := hopen hzero
    rw [hfirst, hsecond]
    exact ⟨rfl, rfl⟩

/-- What a run of `ftp_diagnostic_compare` did on a volume: it changed no file; where nothing fails
both files are there and the result tells whether they are equal, and where something fails it is an
error; every file that is opened is closed, once. -/
structure ComparedOn (firstPath secondPath : Text) (v v' : FtpVolume) (trace : FsTrace)
    (result : Int) : Prop where
  kept : v'.files = v.files
  exact : (∀ e ∈ trace, failure cfg e = none) →
    ∃ first second, v.files (fullPath cfg firstPath) = some first
      ∧ v.files (fullPath cfg secondPath) = some second
      ∧ result = if first = second then 0 else -EILSEQ
  error : (∃ e ∈ trace, failure cfg e ≠ none) → result ≠ 0
  opened : ∀ file, opens trace file ≤ 1
  closed : ∀ file, closes trace file = opens trace file

/-- **`ftp_diagnostic_compare` on a volume** is about the files under its two paths. -/
theorem ftpDiagnosticCompare_volume {turns : Nat} {firstPath secondPath : Text}
    {v v' : FtpVolume} {trace : FsTrace} {looped : Option Int}
    (hturns : (comparedContents cfg firstPath secondPath v .first).length + CHUNK_SIZE
      ≤ CHUNK_SIZE * turns)
    (h : (ftpDiagnosticCompare cfg turns firstPath secondPath).Runs trace looped)
    (hbehaves : Behaves fsStep v trace v') :
    ∃ r, looped = some r ∧ ComparedOn cfg firstPath secondPath v v' trace r := by
  obtain ⟨hserves, hexist⟩ := ftpDiagnosticCompare_serves cfg h hbehaves
  obtain ⟨r, hr, hcompared⟩ := compare_run cfg hturns h hserves
  refine ⟨r, hr, ?_, fun hnone => ?_, hcompared.error, hcompared.opened, hcompared.closed⟩
  · exact files_of_behaves (fun e he => (h.calls (ftpDiagnosticCompare_compares cfg turns firstPath
      secondPath) e he).noWrite cfg) hbehaves
  · obtain ⟨hfirst, hsecond⟩ := hexist hnone
    obtain ⟨first, hfirst⟩ := Option.isSome_iff_exists.mp hfirst
    obtain ⟨second, hsecond⟩ := Option.isSome_iff_exists.mp hsecond
    refine ⟨first, second, hfirst, hsecond, ?_⟩
    have hexact := hcompared.exact hnone
    rw [comparedContents, comparedContents, hfirst, hsecond] at hexact
    exact hexact

/-! ## §4. A volume on which nothing fails. -/

/-- The reply of a volume that fails nothing it can do, and accepts every path. -/
def reliableFs (v : FtpVolume) : (c : FsCall) → FsReply c × FtpVolume
  | .validatePath _ => ((0 : Int), v)
  | .openFile file path .read =>
    if (v.files path).isSome then ((0 : Int), v.opened file path) else (-ENOENT, v)
  | .openFile file path .createWriteTrunc => ((0 : Int), v.created file path)
  | .write file data => ((data.length : Int), v.written file data)
  | .read file size => (.ok (v.chunk file size), v.advanced file (v.chunk file size).length)
  | .sync _ => ((0 : Int), v)
  | .close file => ((0 : Int), v.closed file)

theorem reliableFs_step (v : FtpVolume) (c : FsCall) :
    fsStep v c (reliableFs v c).1 (reliableFs v c).2 := by
  cases c with
  | validatePath path => rfl
  | openFile file path flags =>
    cases flags with
    | read =>
      by_cases h : (v.files path).isSome
      · have hreply : reliableFs v (.openFile file path .read) = ((0 : Int), v.opened file path) :=
          if_pos h
        rw [hreply]
        exact ⟨.whole, rfl, .openRead h⟩
      · have hreply : reliableFs v (.openFile file path .read) = (-ENOENT, v) := if_neg h
        rw [hreply]
        exact ⟨.failed, rfl, .failed⟩
    | createWriteTrunc => exact ⟨.whole, rfl, .create⟩
  | write file data => exact ⟨.whole, if_pos rfl, .write⟩
  | read file size => exact ⟨_, rfl, .read⟩
  | sync file => exact ⟨.whole, rfl, .sync⟩
  | close file => exact ⟨.whole, rfl, .close⟩

/-- The calls of `generate`. -/
def Generates (path : Text) : FsCall → Prop
  | .validatePath p => p = path
  | .openFile _ _ .read | .read _ _ => False
  | _ => True

theorem writeLoop_generates (path : Text) (size offset : Nat) (crc : BitVec 32) :
    (writeLoop cfg size offset crc).Calls (Generates path) := by
  -- on the bytes that are still to be written
  induction hleft : size - offset using Nat.strong_induction_on generalizing offset crc with
  | _ left ih =>
    unfold writeLoop
    split
    · refine ⟨trivial, fun written => ?_⟩
      beta_reduce
      split
      · exact trivial
      · exact ih _ (by unfold CHUNK_SIZE; omega) _ _ rfl
    · exact trivial

theorem ftpDiagnosticGenerate_generates (path : Text) (size : UInt32) (before : BitVec 32) :
    (ftpDiagnosticGenerate cfg path size before).Calls (Generates path) := by
  refine Calls.bind ⟨rfl, fun _ => trivial⟩ fun result => ?_
  refine Calls.bind ?_ fun opened => Calls.bind ?_ fun written => Calls.bind ?_ fun result =>
    Calls.bind ?_ fun result => trivial
  · unfold openIf
    split
    · exact ⟨trivial, fun _ => trivial⟩
    · exact trivial
  · split
    · exact writeLoop_generates cfg path _ _ _
    · exact trivial
  · unfold syncIf
    split
    · exact ⟨trivial, fun _ => trivial⟩
    · exact trivial
  · unfold closeIf
    split
    · exact ⟨trivial, fun _ => trivial⟩
    · exact trivial

/-- On such a volume a file is generated under every path that is not too long. -/
theorem reliableFs_generates
    (hupdate : ∀ a b : Bytes, cfg.crc32IeeeUpdate (crc32Ieee a) b = crc32Ieee (a ++ b))
    (path : Text) (hpath : (fullPath cfg path).length < FULL_PATH_SIZE) (size : UInt32)
    (before : BitVec 32) (v : FtpVolume) :
    ((ftpDiagnosticGenerate cfg path size before).execOn reliableFs v).2.1.1 = 0 := by
  refine (generate_run cfg hupdate (runs_execOn reliableFs _ v)).success.mpr ?_
  refine execOn_forall (I := fun _ => True) ?_ (ftpDiagnosticGenerate_generates cfg path size before)
    trivial
  intro v c hc _
  refine ⟨?_, trivial⟩
  cases c with
  | validatePath p =>
    obtain rfl : p = path := hc
    have hresolved : resolved cfg p 0 = 0 := if_pos hpath
    show resultFailure (resolved cfg p 0) = none
    rw [hresolved]
    rfl
  | openFile file p flags =>
    cases flags with
    | read => exact hc.elim
    | createWriteTrunc => rfl
  | read file size => exact hc.elim
  | write file data => exact if_pos rfl
  | _ => rfl

/-- On such a volume nothing fails when two files that are there are compared. -/
theorem reliableFs_compares (turns : Nat) {firstPath secondPath : Text}
    (hpaths : ∀ path ∈ [firstPath, secondPath], (fullPath cfg path).length < FULL_PATH_SIZE)
    {v : FtpVolume}
    (hexist : ∀ path ∈ [firstPath, secondPath], (v.files (fullPath cfg path)).isSome) :
    ∀ e ∈ ((ftpDiagnosticCompare cfg turns firstPath secondPath).execOn reliableFs v).1,
      failure cfg e = none := by
  -- the files stay as they are, so both are still there when they are opened
  refine execOn_forall (I := fun s => s.files = v.files) ?_
    (ftpDiagnosticCompare_compares cfg turns firstPath secondPath) rfl
  intro s c hc hfiles
  refine ⟨?_, (fsStep_files (hc.noWrite cfg) (reliableFs_step s c)).trans hfiles⟩
  cases c with
  | validatePath p =>
    have hresolved : resolved cfg p 0 = 0 := if_pos (hpaths p hc)
    show resultFailure (resolved cfg p 0) = none
    rw [hresolved]
    rfl
  | openFile file p flags =>
    cases flags with
    | createWriteTrunc => exact hc.elim
    | read =>
      obtain ⟨path, hpath, rfl⟩ := List.mem_map.mp (show p ∈ [firstPath, secondPath].map
        (fullPath cfg) from hc)
      have hthere : (s.files (fullPath cfg path)).isSome := hfiles ▸ hexist path hpath
      have hreply : reliableFs s (.openFile file (fullPath cfg path) .read)
          = ((0 : Int), s.opened file (fullPath cfg path)) := if_pos hthere
      rw [hreply]
      rfl
  | write file data => exact hc.elim
  | _ => rfl

/-! ## §5. Both are exact. -/

/-- What a successful run of `ftp_diagnostic_generate` leaves under its path, and its checksum. -/
theorem generated_file
    (hupdate : ∀ a b : Bytes, cfg.crc32IeeeUpdate (crc32Ieee a) b = crc32Ieee (a ++ b))
    {path : Text} {size : UInt32} {before after : BitVec 32} {trace : FsTrace} {v v' : FtpVolume}
    (h : (ftpDiagnosticGenerate cfg path size before).Runs trace (0, after))
    (hbehaves : Behaves fsStep v trace v') :
    ∃ content, v'.files (fullPath cfg path) = some content ∧ after = crc32Ieee content
      ∧ content.map UInt8.toNat = (List.range size.toNat).map fun i => (31 * i + 7) % 256 := by
  have hgenerated := generate_run cfg hupdate h
  have hfile := (against_iff.mp (ftpDiagnosticGenerate_volume cfg path size before v) _ _ _ h
    hbehaves).2 rfl
  -- the bytes that were written are those of the file
  have hwritten : writtenBytes trace = patternBytes 0 size.toNat :=
    List.map_injective_iff.mpr (fun _ _ hbytes => UInt8.toNat_inj.mp hbytes)
      ((hgenerated.content rfl).trans (patternBytes_toNat _).symm)
  refine ⟨_, hfile, ?_, patternBytes_toNat _⟩
  rw [hgenerated.checksum, if_pos rfl, hwritten]

/-- **The diagnostics are exact and release what they open**, for every size and whatever fails: a
run of `ftp_diagnostic_generate` leaves the pattern under its path, or a beginning of it, and no
other file touched; a run of `ftp_diagnostic_compare` tells whether the files under its two paths
are equal. -/
theorem ftpDiagnostics_exact
    (hupdate : ∀ a b : Bytes, cfg.crc32IeeeUpdate (crc32Ieee a) b = crc32Ieee (a ++ b)) :
    (∀ (path : Text) (size : UInt32) (before after : BitVec 32) (trace : FsTrace) (result : Int),
      (ftpDiagnosticGenerate cfg path size before).Runs trace (result, after) →
      Generated cfg size before trace result after
        ∧ ∀ v v', Behaves fsStep v trace v' →
          GeneratedOn (fullPath cfg path) size.toNat v v'
            ∧ (result = 0 → ∃ content, v'.files (fullPath cfg path) = some content
              ∧ after = crc32Ieee content
              ∧ content.map UInt8.toNat
                = (List.range size.toNat).map fun i => (31 * i + 7) % 256))
    ∧ ∀ (firstPath secondPath : Text) (v v' : FtpVolume) (turns : Nat),
      (comparedContents cfg firstPath secondPath v .first).length + CHUNK_SIZE
        ≤ CHUNK_SIZE * turns →
      ∀ (trace : FsTrace) (looped : Option Int),
      (ftpDiagnosticCompare cfg turns firstPath secondPath).Runs trace looped →
      Behaves fsStep v trace v' →
      ∃ r, looped = some r ∧ ComparedOn cfg firstPath secondPath v v' trace r := by
  constructor
  · intro path size before after trace result h
    refine ⟨generate_run cfg hupdate h, fun v v' hbehaves => ⟨?_, ?_⟩⟩
    · exact (against_iff.mp (ftpDiagnosticGenerate_volume cfg path size before v) _ _ _ h
        hbehaves).1
    · rintro rfl
      exact generated_file cfg hupdate h hbehaves
  · intro firstPath secondPath v v' turns hturns trace looped h hbehaves
    exact ftpDiagnosticCompare_volume cfg hturns h hbehaves

def exampleFtp : FtpConfig where
  storageRoot := "/lfs".toList
  crc32IeeeUpdate := crcUpdate

/-- A volume with a file of two bytes. -/
def exampleVolume : FtpVolume :=
  ⟨Function.update (fun _ => none) "/lfs/b".toList (some [7, 38]), fun _ => none⟩

/-- On it a pattern file of 100 bytes is generated, and then compared with the other one, which is
not the same. -/
theorem ftpDiagnostics_exact_example :
    let made := (ftpDiagnosticGenerate exampleFtp "a".toList 100 0).execOn reliableFs exampleVolume
    let compared := (ftpDiagnosticCompare exampleFtp 3 "a".toList "/b".toList).execOn reliableFs
      made.2.2
    made.2.1.1 = 0
      ∧ (∃ content, made.2.2.files "/lfs/a".toList = some content ∧ content.length = 100
        ∧ made.2.1.2 = crc32Ieee content)
      ∧ made.2.2.files "/lfs/b".toList = some [7, 38]
      ∧ ∃ r, compared.2.1 = some r
        ∧ ComparedOn exampleFtp "a".toList "/b".toList made.2.2 compared.2.2 compared.1 r
        ∧ r = -EILSEQ := by
  intro made compared
  have hzero : made.2.1.1 = 0 :=
    reliableFs_generates exampleFtp crcUpdate_append "a".toList (by decide) 100 0 exampleVolume
  have hruns : (ftpDiagnosticGenerate exampleFtp "a".toList 100 0).Runs made.1
      (made.2.1.1, made.2.1.2) := runs_execOn reliableFs _ exampleVolume
  have hmade : Behaves fsStep exampleVolume made.1 made.2.2 := behaves_execOn reliableFs_step _ _
  obtain ⟨hgenerate, hcompare⟩ := ftpDiagnostics_exact exampleFtp crcUpdate_append
  obtain ⟨⟨helsewhere, -⟩, hdone⟩ := (hgenerate _ _ _ _ _ _ hruns).2 _ _ hmade
  obtain ⟨content, hfile, hcrc, hcontent⟩ := hdone hzero
  have hlength : content.length = 100 := by
    simpa using congrArg List.length hcontent
  have hother : made.2.2.files "/lfs/b".toList = some [7, 38] :=
    helsewhere _ (show fullPath exampleFtp "/b".toList ≠ fullPath exampleFtp "a".toList by decide)
  refine ⟨hzero, ⟨content, hfile, hlength, hcrc⟩, hother, ?_⟩
  have hcontents : (comparedContents exampleFtp "a".toList "/b".toList made.2.2 .first) = content :=
    congrArg (Option.getD · []) hfile
  obtain ⟨r, hr, hcompared⟩ := hcompare "a".toList "/b".toList made.2.2 compared.2.2 3
    (by rw [hcontents, hlength]; decide) _ _ (runs_execOn reliableFs _ _)
    (behaves_execOn reliableFs_step _ _)
  refine ⟨r, hr, hcompared, ?_⟩
  -- nothing fails, and the files have different lengths
  have hnone : ∀ e ∈ compared.1, failure exampleFtp e = none := by
    refine reliableFs_compares exampleFtp 3 (by decide) ?_
    simp only [List.forall_mem_cons, List.not_mem_nil, false_implies, implies_true, and_true]
    exact ⟨Option.isSome_iff_exists.mpr ⟨_, hfile⟩, Option.isSome_iff_exists.mpr ⟨_, hother⟩⟩
  obtain ⟨first, second, hfirst, hsecond, htold⟩ := hcompared.exact hnone
  obtain rfl : content = first := Option.some.inj (hfile.symm.trans hfirst)
  obtain rfl : [7, 38] = second := Option.some.inj (hother.symm.trans hsecond)
  refine htold.trans (if_neg fun heq => ?_)
  exact absurd (hlength.symm.trans (congrArg List.length heq)) (by decide)

/-! ## §6. Both, one after the other. -/

theorem patternBytes_inj {m n : Nat} (h : patternBytes 0 m = patternBytes 0 n) : m = n := by
  rw [← patternBytes_length 0 m, h, patternBytes_length]

/-- **Files that were generated compare as their sizes do**, two names of one file apart, whatever
happened to other files in between; the comparison succeeds only where nothing fails. -/
theorem generated_verified {first second : Text} {m n : UInt32} {before before' crc crc' : BitVec 32}
    {turns : Nat} (hturns : max m.toNat n.toNat + CHUNK_SIZE ≤ CHUNK_SIZE * turns)
    {v v₁ v₂ v₃ v₄ v₅ : FtpVolume} {making making' comparing : FsTrace} {looped : Option Int}
    (hfirst : (ftpDiagnosticGenerate cfg first m before).Runs making (0, crc))
    (hmade : Behaves fsStep v making v₁)
    (hkept : v₂.files (fullPath cfg first) = v₁.files (fullPath cfg first))
    (hsecond : (ftpDiagnosticGenerate cfg second n before').Runs making' (0, crc'))
    (hmade' : Behaves fsStep v₂ making' v₃)
    (hkept' : ∀ path ∈ [first, second], v₄.files (fullPath cfg path) = v₃.files (fullPath cfg path))
    (hcompare : (ftpDiagnosticCompare cfg turns first second).Runs comparing looped)
    (hcompared : Behaves fsStep v₄ comparing v₅) :
    ∃ r, looped = some r
      ∧ (r = 0 ↔ (∀ e ∈ comparing, failure cfg e = none)
        ∧ (fullPath cfg first = fullPath cfg second ∨ m = n))
      ∧ ((∀ e ∈ comparing, failure cfg e = none) → r = 0 ∨ r = -EILSEQ) := by
  have hone := (against_iff.mp (ftpDiagnosticGenerate_volume cfg first m before v) _ _ _ hfirst
    hmade).2 rfl
  obtain ⟨⟨helsewhere, -⟩, htwo⟩ := against_iff.mp
    (ftpDiagnosticGenerate_volume cfg second n before' v₂) _ _ _ hsecond hmade'
  replace htwo := htwo rfl
  -- what the two files hold when they are compared
  have hsecondFile : v₄.files (fullPath cfg second) = some (patternBytes 0 n.toNat) :=
    (hkept' second (by simp)).trans htwo
  have hfirstFile : v₄.files (fullPath cfg first) = some (patternBytes 0
      (if fullPath cfg first = fullPath cfg second then n.toNat else m.toNat)) := by
    by_cases hsame : fullPath cfg first = fullPath cfg second
    · rw [if_pos hsame, hsame]
      exact hsecondFile
    · rw [if_neg hsame, hkept' first (by simp), helsewhere _ hsame, hkept, hone]
  have hlength : (comparedContents cfg first second v₄ .first).length + CHUNK_SIZE
      ≤ CHUNK_SIZE * turns := by
    rw [comparedContents, hfirstFile, Option.getD_some, patternBytes_length]
    split <;> omega
  obtain ⟨r, hr, -, hexact, herror, -, -⟩ :=
    ftpDiagnosticCompare_volume cfg hlength hcompare hcompared
  refine ⟨r, hr, ⟨fun hzero => ?_, fun h => ?_⟩, fun hnone => ?_⟩
  · have hnone : ∀ e ∈ comparing, failure cfg e = none := by
      by_contra hfailed
      push Not at hfailed
      exact herror hfailed hzero
    refine ⟨hnone, ?_⟩
    obtain ⟨a, b, ha, hb, htold⟩ := hexact hnone
    rw [hfirstFile] at ha
    rw [hsecondFile] at hb
    have heq : a = b := by
      by_contra hne
      rw [if_neg hne, hzero] at htold
      exact absurd htold (by decide)
    by_cases hsame : fullPath cfg first = fullPath cfg second
    · exact .inl hsame
    · rw [if_neg hsame] at ha
      have hsize := patternBytes_inj ((Option.some.inj ha).trans (heq.trans (Option.some.inj hb).symm))
      exact .inr (UInt32.toNat_inj.mp hsize)
  · obtain ⟨a, b, ha, hb, htold⟩ := hexact h.1
    rw [hfirstFile] at ha
    rw [hsecondFile] at hb
    rw [htold, if_pos]
    rw [← Option.some.inj ha, ← Option.some.inj hb]
    rcases h.2 with hsame | rfl
    · rw [if_pos hsame]
    · rw [ite_self]
  · obtain ⟨a, b, -, -, htold⟩ := hexact hnone
    rw [htold]
    split
    · exact .inl rfl
    · exact .inr rfl

/-- Two files of different sizes are told apart. -/
theorem generated_verified_reliable :
    let cfg : FtpConfig := ⟨"/lfs".toList, crcUpdate⟩
    let first := (ftpDiagnosticGenerate cfg "a".toList 100 0).execOn reliableFs
      ⟨fun _ => none, fun _ => none⟩
    let second := (ftpDiagnosticGenerate cfg "/b".toList 70 0).execOn
      reliableFs first.2.2
    let compared := (ftpDiagnosticCompare cfg 4 "a".toList "/b".toList).execOn reliableFs
      second.2.2
    ∃ r, compared.2.1 = some r
      ∧ (r = 0 ↔ (∀ e ∈ compared.1, failure cfg e = none)
        ∧ (fullPath cfg "a".toList = fullPath cfg "/b".toList ∨ (100 : UInt32) = 70))
      ∧ ((∀ e ∈ compared.1, failure cfg e = none) → r = 0 ∨ r = -EILSEQ)
      ∧ r = -EILSEQ := by
  intro cfg first second compared
  have hfirst : (ftpDiagnosticGenerate cfg "a".toList 100 0).Runs first.1 (0, first.2.1.2) := by
    rw [← reliableFs_generates cfg crcUpdate_append "a".toList (by decide) 100 0 _]
    exact runs_execOn _ _ _
  have hsecond : (ftpDiagnosticGenerate cfg "/b".toList 70 0).Runs second.1 (0, second.2.1.2) := by
    rw [← reliableFs_generates cfg crcUpdate_append "/b".toList (by decide) 70 0 _]
    exact runs_execOn _ _ _
  have hmade := behaves_execOn reliableFs_step (ftpDiagnosticGenerate cfg "a".toList 100 0)
    ⟨fun _ => none, fun _ => none⟩
  have hmade' := behaves_execOn reliableFs_step (ftpDiagnosticGenerate cfg "/b".toList 70 0)
    first.2.2
  obtain ⟨r, hr, hiff, htold⟩ := generated_verified cfg (by decide) hfirst hmade rfl hsecond hmade'
    (fun _ _ => rfl) (runs_execOn reliableFs (ftpDiagnosticCompare cfg 4 _ _) _)
    (behaves_execOn reliableFs_step _ _)
  refine ⟨r, hr, hiff, htold, ?_⟩
  have hone := (against_iff.mp (ftpDiagnosticGenerate_volume cfg _ _ _ _) _ _ _ hfirst hmade).2 rfl
  obtain ⟨⟨helsewhere, -⟩, htwo⟩ :=
    against_iff.mp (ftpDiagnosticGenerate_volume cfg _ _ _ _) _ _ _ hsecond hmade'
  have hnone : ∀ e ∈ compared.1, failure cfg e = none := by
    refine reliableFs_compares cfg 4 (by decide) ?_
    simp only [List.forall_mem_cons, List.not_mem_nil, false_implies, implies_true, and_true]
    exact ⟨Option.isSome_iff_exists.mpr ⟨_, (helsewhere _ (by decide)).trans hone⟩,
      Option.isSome_iff_exists.mpr ⟨_, htwo rfl⟩⟩
  refine (htold hnone).resolve_left fun hzero => ?_
  rcases (hiff.mp hzero).2 with hsame | hsize
  · exact absurd hsame (by decide)
  · exact absurd hsize (by decide)

end KFsw.App
