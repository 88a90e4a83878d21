/-
  KFsw.App.Main — the application's `main`, `app/src/main.c`.

  The start-up is a sequence of blocks, each in the image when its `CONFIG_`
  switch is; every block is a program over the services it starts and the lines
  it logs, and leaves the local variables of `main` for the next one.  The
  endless loop is any number of its cycles.

  `Service` lists what is started in the order of the text.

  Main results:
    * `attempt_wp`         — a service that is started, and what becomes of its
      error;
    * `startUp_begins`     — what the blocks have done, for every composition;
    * `startUp_in_order`   — every call of every run is made in its place, with
      what it needs in place;
    * `services_marker`    — the marker tells exactly what failed before it;
    * `startUp_simulates`  — the boot of `KFsw.App.BootRestart` is this one.
-/
import KFsw.App.BootRestart
import KFsw.App.Param
import KFsw.Lib.Hoare

namespace KFsw.App

open KFsw.Lib Prog

def ENODEV : Int := 19

/-! ## §1. The composition. -/

/-- The switches and numbers of a build that `main` reads. -/
structure MainConfig where
  watchdog : Bool
  watchdogAutoStart : Bool
  watchdogTimeoutMs : Int
  radioUhf : Bool
  radioUhfCrypto : Bool
  storage : Bool
  storageTmp : Bool
  /-- `KFSW_STORAGE_MOUNT_POINT` and `KFSW_STORAGE_TMP_MOUNT_POINT`. -/
  storageMountPoint : Text
  storageTmpMountPoint : Text
  /-- `CONFIG_BOOTLOADER_MCUBOOT && CONFIG_MCUBOOT_IMG_MANAGER`. -/
  bootDiagnostics : Bool
  bootConfirmAtStart : Bool
  param : Bool
  paramPersistence : Bool
  paramTestDefinitions : Bool
  paramCsp : Bool
  paramPort : Int
  event : Bool
  buttonTest : Bool
  fbo : Bool
  temperatureSensorExample : Bool
  command : Bool
  commandCsp : Bool
  commandCspPort : Int
  csp : Bool
  cspAddress : Int
  cspKissUart : Bool
  logRemote : Bool
  fwu : Bool
  fwuFiles : Bool
  ftp : Bool
  ftpCspPort : Int
  fwuLiteCsp : Bool
  fwuLiteCspPort : Int
  remexec : Bool
  remexecCspPort : Int
  hk : Bool
  hkCsp : Bool
  resmon : Bool
  scrub : Bool
  limits : Bool
  gndwdt : Bool
  health : Bool
  appHealthDeadlineMs : Nat
  cspLiveness : Bool
  debugShell : Bool
  lastwords : Bool
  nativeSim : Bool
  journal : Bool
  table : Bool

/-! ## §2. Calls. -/

/-- What `main` starts, in the order of its text. -/
inductive Service where
  | watchdogInit
  | watchdogStart
  | radioUhfGetInfo
  | storageInit
  | storageMount
  | bootDiagnosticsStart
  | bootConfirmImage
  | storageTmpMount
  | paramInit
  | paramPersistLoad
  | bootCountRestart
  | paramPersistSave
  | buttonTestInit
  | fboInit
  | tempExampleInit
  | commandInit
  | cspSetRevision
  | radioUhfCryptoInit
  | cspInit
  | uartGetInfo
  | paramServerStart
  | cspStart
  | radioUhfCryptoConnect
  | logRemoteServerStart
  | fwuFilesMount
  | ftpInit
  | ftpStart
  | fwuLiteServerStart
  | remexecInit
  | remexecServerStart
  | commandServerStart
  | hkInit
  | hkGetStats
  | hkStart
  | hkServerStart
  | resmonStart
  | scrubStart
  | limitsInit
  | gndwdtStart
  | healthRegister
  | cspLivenessStart
  | healthStart
  | shellPromptApply
  | shellEchoApply
  | lastwordsWatchSupply
  | clockFromHost
  | journalStart
  | marker
  | bootServiceStart
  deriving DecidableEq

/-- `kfsw_*_param_definitions`. -/
inductive ParamSet where
  | board | system | telemetry | csp | storage | watchdog | test | log | param | boot | event
  | gndwdt | resmon | scrub | limits | hk | fbo | command | ftp | fwu | health | table | remexec
  | radioUhf | buttonTest | tempExample
  deriving DecidableEq

/-- `kfsw_*_command_definitions`. -/
inductive CommandSet where
  | app | fbo | gndwdt | tempExample
  deriving DecidableEq

inductive LogLevel where
  | info
  | warning
  | error
  deriving DecidableEq

/-- A call of `main`: a service is started, with arguments where it takes any; a parameter is
read; a line is logged; the thread reports to health or sleeps.  `run` is of a function without
a result. -/
inductive MainCall where
  | start (service : Service)
  | run (service : Service)
  | radioUhfGetInfo
  | paramInit (sets : List ParamSet)
  | commandInit (sets : List CommandSet)
  | uartGetInfo
  | healthRegister (name : Text) (deadlineMs : Nat)
  | marker (line : Text)
  | systemBootDelayMs
  | systemAppReportMs
  | healthReport (handle : UInt8)
  | log (level : LogLevel) (line : Text)
  | sleep (ms : Nat)
  deriving DecidableEq

/-- What a call answers: a result, and what it fills in.  `hkGetStats` answers with
`last_load_error`. -/
abbrev MainReply : MainCall → Type
  | .radioUhfGetInfo => Int × Text × Nat
  | .uartGetInfo => Text × Nat
  | .healthRegister .. => Int × UInt8
  | .start _ | .paramInit _ | .commandInit _ => Int
  | .systemBootDelayMs | .systemAppReportMs => UInt16
  | .run _ | .marker _ | .healthReport _ | .log .. | .sleep _ => Unit

/-- A part of `main`. -/
abbrev MainProg (α : Type) := Prog MainCall MainReply α

/-- The calls of a run, with their replies. -/
abbrev MainTrace := List (Sigma MainReply)

/-- The service a call starts. -/
def MainCall.service : MainCall → Option Service
  | .start service | .run service => some service
  | .radioUhfGetInfo => some .radioUhfGetInfo
  | .paramInit _ => some .paramInit
  | .commandInit _ => some .commandInit
  | .uartGetInfo => some .uartGetInfo
  | .healthRegister .. => some .healthRegister
  | .marker _ => some .marker
  | _ => none

/-- The result of a call; 0 where it has none. -/
def MainCall.result : (c : MainCall) → MainReply c → Int
  | .radioUhfGetInfo, reply => reply.1
  | .healthRegister .., reply => reply.1
  | .start _, result => result
  | .paramInit _, result => result
  | .commandInit _, result => result
  | _, _ => 0

/-! ## §3. The blocks of `main`. -/

/-- The local variables of `main` that are read again. -/
structure Locals where
  startupFailures : Nat
  cspStarted : Bool
  healthHandle : UInt8
  healthWatching : Bool
  deriving DecidableEq

/-- `kfsw_log_info`, `kfsw_log_warning` and `kfsw_log_error`. -/
def logInfo (line : Text) : MainProg Unit := .call (.log .info line) fun _ => .done ()
def logWarn (line : Text) : MainProg Unit := .call (.log .warning line) fun _ => .done ()
def logError (line : Text) : MainProg Unit := .call (.log .error line) fun _ => .done ()

/-- A line for the log, and on with the variables as they are. -/
def inform (line : Text) (v : Locals) : MainProg Locals := (logInfo line).bind fun _ => .done v

/-- One more failure, and its line. -/
def failWith (line : Text) (v : Locals) : MainProg Locals :=
  (logError line).bind fun _ => .done { v with startupFailures := v.startupFailures + 1 }

/-- A call whose error is a failure. -/
def attempt (c : MainCall) (line : Int → Text) (v : Locals)
    (next : MainReply c → MainProg Locals) : MainProg Locals :=
  .call c fun reply => if c.result reply ≠ 0 then failWith (line (c.result reply)) v else next reply

/-- A block under its `#if`. -/
def compiled (on : Bool) (block : Locals → MainProg Locals) (v : Locals) : MainProg Locals :=
  if on = true then block v else .done v

/-- `"...: %d"`. -/
def withResult (line : Text) (result : Int) : Text := line ++ ": ".toList ++ intText result

variable (cfg : MainConfig)

/-- A service with nothing else to it. -/
def simple (service : Service) (line : Text) (v : Locals) : MainProg Locals :=
  attempt (.start service) (withResult line) v fun _ => .done v

/-- A service, and a line when it is there. -/
def announced (service : Service) (line okLine : Text) (v : Locals) : MainProg Locals :=
  attempt (.start service) (withResult line) v fun _ => inform okLine v

def watchdogBlock (v : Locals) : MainProg Locals :=
  .call (.start .watchdogInit) fun (result : Int) =>
    if result = -ENODEV then inform "No watchdog device bound; running unguarded".toList v
    else if result ≠ 0 then
      failWith (withResult "Failed to initialize the watchdog".toList result) v
    else if cfg.watchdogAutoStart = true then
      announced .watchdogStart "Failed to start the watchdog".toList
        ("Watchdog armed with a ".toList ++ intText cfg.watchdogTimeoutMs
          ++ " ms timeout".toList) v
    else .done v

def radioBlock (v : Locals) : MainProg Locals :=
  attempt .radioUhfGetInfo (withResult "Failed to read UHF radio composition".toList) v
    fun (reply : Int × Text × Nat) =>
      inform ("UHF radio selected: ".toList ++ reply.2.1 ++ "; expected serial ".toList
        ++ Nat.toDigits 10 reply.2.2 ++ " baud".toList) v

def storageBlock (v : Locals) : MainProg Locals :=
  attempt (.start .storageInit) (withResult "Failed to mount storage".toList) v fun _ =>
    announced .storageMount "Failed to mount storage".toList
      ("Storage mounted at ".toList ++ cfg.storageMountPoint) v

/-- An entry under its `#if`. -/
def included {α : Type} (on : Bool) (entry : α) : List α := if on = true then [entry] else []

/-- `parameter_sets`: core tables first, then services, then modules. -/
def parameterSets : List ParamSet :=
  List.flatten
    [[.board, .system, .telemetry], included cfg.csp .csp, included cfg.storage .storage,
      included cfg.watchdog .watchdog, included cfg.paramTestDefinitions .test,
      [.log, .param, .boot], included cfg.event .event, included cfg.gndwdt .gndwdt,
      included cfg.resmon .resmon, included cfg.scrub .scrub, included cfg.limits .limits,
      included cfg.hk .hk, included cfg.fbo .fbo, included cfg.command .command,
      included cfg.ftp .ftp, included cfg.fwu .fwu, included cfg.health .health,
      included cfg.table .table, included cfg.remexec .remexec, included cfg.radioUhf .radioUhf,
      included cfg.buttonTest .buttonTest, included cfg.temperatureSensorExample .tempExample]

/-- `kfsw_param_persist_load`, and `had_snapshot`. -/
def persistLoad (v : Locals) : MainProg (Locals × Bool) :=
  .call (.start .paramPersistLoad) fun (result : Int) =>
    (if result = -ENOENT then inform "No parameter snapshot; using compiled defaults".toList v
      else if result ≠ 0 then
        failWith ("Parameter snapshot restore failed (".toList ++ intText result
          ++ "); using defaults".toList) v
      else inform "Persistent parameters restored".toList v).bind fun v =>
        .done (v, decide (result = 0))

/-- `kfsw_param_persist_save`, which is there when a snapshot was. -/
def persistSave (hadSnapshot : Bool) (v : Locals) : MainProg Locals :=
  if hadSnapshot = true then
    attempt (.start .paramPersistSave)
      (fun result => "Could not record the restart count (".toList ++ intText result ++ [')']) v
      fun _ => .done v
  else .done v

/-- The wait before the services; the parameter is read each time it is named. -/
def bootDelay (v : Locals) : MainProg Locals :=
  .call .systemBootDelayMs fun (tested : UInt16) =>
    if tested ≠ 0 then
      .call .systemBootDelayMs fun (logged : UInt16) =>
        (logInfo ("Delaying service start by ".toList ++ Nat.toDigits 10 logged.toNat
          ++ " ms".toList)).bind fun _ =>
            .call .systemBootDelayMs fun (slept : UInt16) =>
              .call (.sleep slept.toNat) fun _ => .done v
    else .done v

/-- `kfsw_boot_count_restart`, after the snapshot and before it is written back. -/
def countRestart (v : Locals) : MainProg Locals :=
  if cfg.paramPersistence = true then
    (persistLoad v).bind fun loaded =>
      .call (.run .bootCountRestart) fun _ => persistSave loaded.2 loaded.1
  else .call (.run .bootCountRestart) fun _ => .done v

def paramBlock (v : Locals) : MainProg Locals :=
  attempt (.paramInit (parameterSets cfg)) (withResult "Failed to initialize parameters".toList) v
    fun _ => (inform "Parameter table initialized".toList v).bind fun v =>
      (countRestart cfg v).bind bootDelay

def commandSets : List CommandSet :=
  List.flatten
    [[.app], included cfg.fbo .fbo, included cfg.gndwdt .gndwdt,
      included cfg.temperatureSensorExample .tempExample]

def commandBlock (v : Locals) : MainProg Locals :=
  attempt (.commandInit (commandSets cfg)) (withResult "Failed to initialize commands".toList) v
    fun _ => inform "Command registry initialized".toList v

def uartInfo (v : Locals) : MainProg Locals :=
  .call .uartGetInfo fun (info : Text × Nat) =>
    inform ("CSP KISS UART initialized on ".toList ++ info.1 ++ " at ".toList
      ++ Nat.toDigits 10 info.2 ++ " baud".toList) v

/-- `"...port %d"`. -/
def onPort (line : Text) (port : Int) : Text := line ++ " started on CSP port ".toList ++ intText port

/-- `kfsw_csp_start`, which sets `csp_started`. -/
def cspStart (v : Locals) : MainProg Locals :=
  attempt (.start .cspStart) (withResult "Failed to start CSP router".toList) v fun _ =>
    (inform "CSP router started".toList { v with cspStarted := true }).bind fun v =>
      (compiled cfg.radioUhfCrypto (fun v => .call (.start .radioUhfCryptoConnect) fun _ => .done v)
        v).bind <| compiled cfg.cspKissUart (inform "CSP UART interface started".toList)

def cspInit (v : Locals) : MainProg Locals :=
  attempt (.start .cspInit) (withResult "Failed to initialize CSP".toList) v fun _ =>
    (inform ("CSP initialized as node ".toList ++ intText cfg.cspAddress) v).bind fun v =>
      (compiled cfg.cspKissUart uartInfo v).bind fun v =>
        (compiled cfg.paramCsp
          (announced .paramServerStart "Failed to start parameter server".toList
            (onPort "Parameter server".toList cfg.paramPort)) v).bind (cspStart cfg)

/-- A block for a node whose router runs. -/
def whenCsp (block : Locals → MainProg Locals) (v : Locals) : MainProg Locals :=
  if v.cspStarted = true then block v else .done v

def ftpBlock (v : Locals) : MainProg Locals :=
  attempt (.start .ftpInit) (withResult "Failed to start FTP service".toList) v fun _ =>
    announced .ftpStart "Failed to start FTP service".toList
      (onPort "FTP service".toList cfg.ftpCspPort) v

def remexecBlock (v : Locals) : MainProg Locals :=
  attempt (.start .remexecInit) (withResult "Remote execution allowlist refused".toList) v fun _ =>
    whenCsp (announced .remexecServerStart "Failed to start the remote execution server".toList
      (onPort "Remote execution server".toList cfg.remexecCspPort)) v

/-- The blocks between `#if CONFIG_KFSW_CSP` and its `#endif`. -/
def cspBlocks : List (Locals → MainProg Locals) :=
  [fun v => .call (.run .cspSetRevision) fun _ => .done v,
    compiled cfg.radioUhfCrypto
      (simple .radioUhfCryptoInit "Radio protection initialization".toList),
    cspInit cfg,
    compiled cfg.logRemote
      (whenCsp (simple .logRemoteServerStart "Failed to start the remote log server".toList)),
    compiled cfg.fwuFiles (simple .fwuFilesMount "Failed to mount firmware slots".toList),
    compiled cfg.ftp (whenCsp (ftpBlock cfg)),
    compiled cfg.fwuLiteCsp
      (whenCsp (announced .fwuLiteServerStart "Failed to start the firmware upload server".toList
        (onPort "Firmware upload server".toList cfg.fwuLiteCspPort))),
    compiled cfg.remexec (remexecBlock cfg),
    compiled cfg.commandCsp
      (whenCsp (announced .commandServerStart "Failed to start command server".toList
        (onPort "Command server".toList cfg.commandCspPort)))]

def hkBlock (v : Locals) : MainProg Locals :=
  attempt (.start .hkInit) (withResult "Failed to initialize housekeeping".toList) v fun _ =>
    (attempt (.start .hkGetStats)
      (fun e => "HK restore failed (".toList ++ intText e ++ "); using defaults".toList) v
      fun _ => .done v).bind fun v =>
        (simple .hkStart "Failed to start housekeeping".toList v).bind <|
          compiled cfg.hkCsp
            (whenCsp (simple .hkServerStart "Failed to start the housekeeping server".toList))

/-- `kfsw_health_register`, which sets `health_handle` and `health_watching`. -/
def healthRegister (v : Locals) : MainProg Locals :=
  attempt (.healthRegister "app".toList cfg.appHealthDeadlineMs)
    (withResult "Failed to register the application for health".toList) v
    fun (reply : Int × UInt8) => .done { v with healthHandle := reply.2, healthWatching := true }

def lastwordsBlock (v : Locals) : MainProg Locals :=
  .call (.start .lastwordsWatchSupply) fun (result : Int) =>
    if result = 0 then inform "Watching the supply".toList v
    else if result ≠ -ENOTSUP then
      (logWarn (withResult "Supply watch unavailable".toList result)).bind fun _ => .done v
    else .done v

/-- Programs one after the other, each with what the one before left. -/
def inSequence : List (Locals → MainProg Locals) → Locals → MainProg Locals
  | [], v => .done v
  | block :: blocks, v => (block v).bind (inSequence blocks)

/-- The blocks before the parameters. -/
def earlyBlocks : List (Locals → MainProg Locals) :=
  [compiled cfg.watchdog (watchdogBlock cfg),
    inform "K-FSW application starting".toList,
    compiled cfg.radioUhf radioBlock,
    compiled cfg.storage (storageBlock cfg),
    compiled cfg.bootDiagnostics
      (simple .bootDiagnosticsStart "Boot trial diagnostics unavailable".toList),
    compiled cfg.bootConfirmAtStart
      (simple .bootConfirmImage "Could not confirm this image".toList),
    compiled cfg.storageTmp
      (simple .storageTmpMount ("Failed to mount ".toList ++ cfg.storageTmpMountPoint))]

/-- The blocks after them, up to the marker. -/
def lateBlocks : List (Locals → MainProg Locals) :=
  [compiled cfg.buttonTest
      (announced .buttonTestInit "Failed to initialize button_test".toList
        "button_test initialized".toList),
    compiled cfg.fbo (simple .fboInit "Failed to initialize file based operations".toList),
    compiled cfg.temperatureSensorExample
      (announced .tempExampleInit "Failed to initialize the temperature example".toList
        "Temperature example initialized".toList),
    compiled cfg.command (commandBlock cfg),
    compiled cfg.csp (inSequence (cspBlocks cfg)),
    compiled cfg.hk (hkBlock cfg),
    compiled cfg.resmon (simple .resmonStart "Failed to start the resource monitor".toList),
    compiled cfg.scrub (simple .scrubStart "Failed to start the image scrub".toList),
    compiled cfg.limits (simple .limitsInit "Failed to load the limits".toList),
    compiled cfg.gndwdt (simple .gndwdtStart "Failed to start the ground watchdog".toList),
    compiled cfg.health (healthRegister cfg),
    compiled (cfg.health && cfg.cspLiveness)
      (simple .cspLivenessStart "Failed to watch the CSP router for health".toList),
    compiled cfg.health (simple .healthStart "Failed to start health monitoring".toList),
    compiled cfg.debugShell fun v => .call (.run .shellPromptApply) fun _ => .done v,
    compiled (cfg.debugShell && cfg.command) fun v =>
      .call (.run .shellEchoApply) fun _ => .done v,
    compiled cfg.lastwords lastwordsBlock,
    compiled (cfg.csp && cfg.nativeSim) fun v => .call (.start .clockFromHost) fun _ => .done v,
    compiled cfg.journal (simple .journalStart "Journal unavailable; writer will retry".toList)]

def blocks : List (Locals → MainProg Locals) :=
  earlyBlocks cfg ++ compiled cfg.param (paramBlock cfg) :: lateBlocks cfg

/-- `"@SERVICES %s failures=%u"`. -/
def markerText (failures : Nat) : Text :=
  "@SERVICES ".toList ++ (if failures = 0 then "ok".toList else "degraded".toList)
    ++ " failures=".toList ++ Nat.toDigits 10 failures

/-- `main` before the loop. -/
def startUp : MainProg Locals :=
  (inSequence (blocks cfg) ⟨0, false, 0, false⟩).bind fun v =>
    .call (.marker (markerText v.startupFailures)) fun _ =>
      .call (.run .bootServiceStart) fun _ => .done v

/-- The period of the loop. -/
def reportPeriod : MainProg Nat :=
  if cfg.health = true then
    if cfg.param = true then .call .systemAppReportMs fun (ms : UInt16) => .done ms.toNat
    else .done (cfg.appHealthDeadlineMs / 4)
  else .done 60000

/-- The thread reports to health when it is registered there. -/
def reportHealth (v : Locals) : MainProg Unit :=
  if (cfg.health && v.healthWatching) = true then
    .call (.healthReport v.healthHandle) fun _ => .done ()
  else .done ()

/-- One cycle of the loop. -/
def cycle (v : Locals) : MainProg Unit :=
  (reportHealth cfg v).bind fun _ =>
    (reportPeriod cfg).bind fun ms => .call (.sleep ms) fun _ => .done ()

/-- `main`, with so many cycles of its loop. -/
def main (cycles : Nat) : MainProg Unit := (startUp cfg).bind fun v => (cycle cfg v).iter cycles

/-! ## §4. What is asked of a call. -/

/-- The place of a call in the text, from 1; 0 for what may be called anywhere. -/
def MainCall.rank (c : MainCall) : Nat := (c.service.map fun s => s.ctorIdx + 1).getD 0

/-- What has to be in place before a service is started. -/
def Service.requires : Service → List Service
  | .watchdogStart => [.watchdogInit]
  | .storageMount => [.storageInit]
  | .paramPersistLoad | .bootCountRestart => [.paramInit]
  | .paramPersistSave => [.paramInit, .paramPersistLoad]
  | .uartGetInfo | .paramServerStart | .cspStart => [.cspInit]
  | .radioUhfCryptoConnect | .logRemoteServerStart | .fwuLiteServerStart
  | .commandServerStart => [.cspInit, .cspStart]
  | .ftpInit => [.cspInit, .cspStart]
  | .ftpStart => [.cspInit, .cspStart, .ftpInit]
  | .remexecServerStart => [.cspInit, .cspStart, .remexecInit]
  | .hkGetStats | .hkStart => [.hkInit]
  | .hkServerStart => [.hkInit, .cspInit, .cspStart]
  | _ => []

/-- What has to be in place before a call. -/
def MainCall.requires : MainCall → List Service
  | .systemBootDelayMs => [.paramInit]
  | .systemAppReportMs => [.bootServiceStart]
  | .healthReport _ => [.healthRegister, .bootServiceStart]
  | c => (c.service.map Service.requires).getD []

/-- Errors that `main` takes for no failure. -/
def MainCall.tolerates : MainCall → Int → Bool
  | .start .watchdogInit, result => result = -ENODEV
  | .start .paramPersistLoad, result => result = -ENOENT
  | .start .radioUhfCryptoConnect, _ | .start .lastwordsWatchSupply, _
  | .start .clockFromHost, _ => true
  | _, _ => false

/-- A call that failed. -/
def isFailure (e : Sigma MainReply) : Bool :=
  e.1.result e.2 ≠ 0 && !e.1.tolerates (e.1.result e.2)

/-- A line at the level of errors. -/
def isErrorLine (e : Sigma MainReply) : Bool :=
  match e.1 with
  | .log .error _ => true
  | _ => false

/-- A service was started without an error. -/
def Started (service : Service) (past : MainTrace) : Prop :=
  ∃ e ∈ past, e.1.service = some service ∧ e.1.result e.2 = 0

/-- The thread was registered for health, under this handle. -/
def Registered (handle : UInt8) (past : MainTrace) : Prop :=
  ∃ name deadlineMs, ⟨.healthRegister name deadlineMs, (0, handle)⟩ ∈ past

/-- A call in its place: whatever is started comes after all that is started before it in the
text, on top of what it requires; the marker tells what failed, and a report has the handle of
the thread. -/
structure Allowed (past : MainTrace) (c : MainCall) : Prop where
  in_order : c.rank ≠ 0 → ∀ e ∈ past, e.1.rank < c.rank
  prepared : ∀ service ∈ c.requires, Started service past
  marker : ∀ line, c = .marker line → line = markerText (past.countP isFailure)
  report : ∀ handle, c = .healthReport handle → Registered handle past

/-! ## §5. What has been done. -/

/-- The past of a block, and the variables it finds: nothing beyond the place `n` of the text was
started, and the variables tell what became of it. -/
structure Begun (n : Nat) (v : Locals) (past : MainTrace) : Prop where
  below : ∀ e ∈ past, e.1.rank ≤ n
  failures : past.countP isFailure = v.startupFailures
  errors : past.countP isErrorLine = v.startupFailures
  few : v.startupFailures ≤ n
  csp : v.cspStarted = true → Started .cspInit past ∧ Started .cspStart past
  health : v.healthWatching = true → Registered v.healthHandle past

theorem started_later {service : Service} {past now : MainTrace} (hnow : past <+: now)
    (h : Started service past) : Started service now := by
  obtain ⟨e, he, hservice⟩ := h
  exact ⟨e, hnow.subset he, hservice⟩

theorem registered_later {handle : UInt8} {past now : MainTrace} (hnow : past <+: now)
    (h : Registered handle past) : Registered handle now := by
  obtain ⟨name, deadlineMs, hmem⟩ := h
  exact ⟨name, deadlineMs, hnow.subset hmem⟩

theorem Begun.mono {n m : Nat} {v : Locals} {past : MainTrace} (h : Begun n v past) (hnm : n ≤ m) :
    Begun m v past :=
  { h with
    below := fun e he => (h.below e he).trans hnm
    few := h.few.trans hnm }

/-- The past with one more call that neither fails nor logs an error. -/
theorem Begun.call {n m : Nat} {v : Locals} {past : MainTrace} (h : Begun n v past)
    (c : MainCall) (reply : MainReply c) (hnm : n ≤ m) (hrank : c.rank ≤ m)
    (hfailure : isFailure ⟨c, reply⟩ = false) (herror : isErrorLine ⟨c, reply⟩ = false) :
    Begun m v (past ++ [⟨c, reply⟩]) where
  below := by
    intro d hd
    rcases List.mem_append.mp hd with hd | hd
    · exact (h.below d hd).trans hnm
    · rw [List.mem_singleton.mp hd]
      exact hrank
  failures := by simp [List.countP_append, hfailure, h.failures]
  errors := by simp [List.countP_append, herror, h.errors]
  few := h.few.trans hnm
  csp := fun hv => ⟨started_later (List.prefix_append _ _) (h.csp hv).1,
    started_later (List.prefix_append _ _) (h.csp hv).2⟩
  health := fun hv => registered_later (List.prefix_append _ _) (h.health hv)

/-- The past with a call that failed, and the line that says so. -/
theorem Begun.fail {n m : Nat} {v : Locals} {past : MainTrace} (h : Begun n v past)
    (c : MainCall) (reply : MainReply c) (line : Text) (hnm : n < m) (hrank : c.rank ≤ m)
    (hfailure : isFailure ⟨c, reply⟩ = true) (herror : isErrorLine ⟨c, reply⟩ = false) :
    Begun m { v with startupFailures := v.startupFailures + 1 }
      (past ++ [⟨c, reply⟩] ++ [⟨.log .error line, ()⟩]) where
  below := by
    intro d hd
    rcases List.mem_append.mp hd with hd | hd
    · rcases List.mem_append.mp hd with hd | hd
      · exact (h.below d hd).trans hnm.le
      · rw [List.mem_singleton.mp hd]
        exact hrank
    · rw [List.mem_singleton.mp hd]
      exact Nat.zero_le _
  failures := by
    have hline : isFailure ⟨.log .error line, ()⟩ = false := rfl
    simp [List.countP_append, hfailure, hline, h.failures]
  errors := by
    have hline : isErrorLine ⟨.log .error line, ()⟩ = true := rfl
    simp [List.countP_append, herror, hline, h.errors]
  few := Nat.succ_le_of_lt (h.few.trans_lt hnm)
  csp := by
    intro hv
    have hpast : past <+: past ++ [⟨c, reply⟩] ++ [⟨.log .error line, ()⟩] := by simp
    exact ⟨started_later hpast (h.csp hv).1, started_later hpast (h.csp hv).2⟩
  health := by
    intro hv
    have hpast : past <+: past ++ [⟨c, reply⟩] ++ [⟨.log .error line, ()⟩] := by simp
    exact registered_later hpast (h.health hv)

/-! ## §6. The blocks, one by one. -/

/-- A block whose services lie between two places of the text. -/
def Begins (n m : Nat) (block : Locals → MainProg Locals) : Prop :=
  ∀ v, Triple Allowed (Begun n v) (block v) fun v' => Begun m v'

/-- A call that is no marker and no report is allowed in its place. -/
theorem allowed_of_begun {n : Nat} {v : Locals} {past : MainTrace} (h : Begun n v past)
    {c : MainCall} (hn : n < c.rank) (hprepared : ∀ service ∈ c.requires, Started service past)
    (hmarker : ∀ line, c ≠ .marker line) : Allowed past c where
  in_order := fun _ e he => (h.below e he).trans_lt hn
  prepared := hprepared
  marker := fun line hc => absurd hc (hmarker line)
  report := by
    rintro handle rfl
    exact absurd hn (Nat.not_lt_zero n)

/-- A line for the log is allowed anywhere. -/
theorem allowed_log (past : MainTrace) (level : LogLevel) (line : Text) :
    Allowed past (.log level line) where
  in_order := fun h => absurd rfl h
  prepared := fun _ h => absurd h List.not_mem_nil
  marker := fun _ h => MainCall.noConfusion h
  report := fun _ h => MainCall.noConfusion h

/-- Blocks in sequence. -/
theorem Begins.then {n m k : Nat} {block : Locals → MainProg Locals}
    {rest : List (Locals → MainProg Locals)} (h : Begins n m block)
    (hrest : Begins m k (inSequence rest)) : Begins n k (inSequence (block :: rest)) :=
  fun v => (h v).bind hrest

theorem inSequence_append (first second : List (Locals → MainProg Locals)) (v : Locals) :
    inSequence (first ++ second) v = (inSequence first v).bind (inSequence second) := by
  induction first generalizing v with
  | nil => rfl
  | cons block first ih =>
    show (block v).bind (inSequence (first ++ second)) = _
    rw [funext ih]
    exact (bind_assoc _ _ _).symm

theorem begins_nil (n : Nat) : Begins n n (inSequence []) := fun _ => .done fun _ hpast => hpast

theorem compiled_wp {n m : Nat} {block : Locals → MainProg Locals} {v : Locals} {past : MainTrace}
    (on : Bool) (h : Begun n v past) (hnm : n ≤ m)
    (hblock : (block v).wp Allowed (fun v' => Begun m v') past) :
    (compiled on block v).wp Allowed (fun v' => Begun m v') past := by
  unfold compiled
  split
  · exact hblock
  · exact h.mono hnm

theorem Begins.compiled {n m : Nat} {block : Locals → MainProg Locals} (h : Begins n m block)
    (hnm : n ≤ m) (on : Bool) : Begins n m (compiled on block) :=
  fun v past hpast => compiled_wp on hpast hnm (h v past hpast)

/-- The past with a line that is no error. -/
theorem Begun.informed {n : Nat} {v : Locals} {past : MainTrace} (h : Begun n v past)
    (line : Text) : Begun n v (past ++ [⟨.log .info line, ()⟩]) :=
  h.call (.log .info line) () le_rfl (Nat.zero_le n) rfl rfl

theorem begins_inform (n : Nat) (line : Text) : Begins n n (inform line) :=
  fun _ past hpast => ⟨allowed_log past _ _, fun _ => hpast.informed line⟩

/-- What is started is no line of the log. -/
theorem isErrorLine_of_rank {c : MainCall} (hc : 0 < c.rank) (reply : MainReply c) :
    isErrorLine ⟨c, reply⟩ = false := by
  cases c with
  | log level line => exact absurd hc (lt_irrefl 0)
  | _ => rfl

/-- **A service that is started**: its error is one more failure and one line, and without an
error the program goes on. -/
theorem attempt_wp {n : Nat} {v : Locals} {past : MainTrace} {c : MainCall} {line : Int → Text}
    {next : MainReply c → MainProg Locals} {Q : Locals → MainTrace → Prop} (h : Begun n v past)
    (hn : n < c.rank) (hprepared : ∀ service ∈ c.requires, Started service past)
    (hmarker : ∀ line, c ≠ .marker line) (htolerates : ∀ result, c.tolerates result = false)
    (hfail : ∀ v' now, Begun c.rank v' now → Q v' now)
    (hnext : ∀ reply, c.result reply = 0 → Begun c.rank v (past ++ [⟨c, reply⟩]) →
      (next reply).wp Allowed Q (past ++ [⟨c, reply⟩])) :
    (attempt c line v next).wp Allowed Q past := by
  refine ⟨allowed_of_begun h hn hprepared hmarker, fun reply => ?_⟩
  have herror : isErrorLine ⟨c, reply⟩ = false := isErrorLine_of_rank (Nat.zero_lt_of_lt hn) reply
  by_cases hresult : c.result reply = 0
  · have hfailure : isFailure ⟨c, reply⟩ = false := by simp [isFailure, hresult]
    beta_reduce
    rw [if_neg (not_not_intro hresult)]
    exact hnext reply hresult (h.call c reply hn.le le_rfl hfailure herror)
  · have hfailure : isFailure ⟨c, reply⟩ = true := by simp [isFailure, hresult, htolerates]
    beta_reduce
    rw [if_pos hresult]
    refine ⟨allowed_log _ _ _, fun _ => ?_⟩
    exact hfail _ _ (h.fail c reply _ hn le_rfl hfailure herror)

/-- A service with nothing else to it, where what it needs is in place. -/
theorem simple_wp {n : Nat} {service : Service} {line : Text} {v : Locals} {past : MainTrace}
    (h : Begun n v past) (hn : n < service.ctorIdx + 1)
    (hprepared : ∀ s ∈ service.requires, Started s past)
    (htolerates : ∀ result, (MainCall.start service).tolerates result = false) :
    (simple service line v).wp Allowed (fun v' => Begun (service.ctorIdx + 1) v') past :=
  attempt_wp h hn hprepared (fun _ => nofun) htolerates (fun _ _ hnow => hnow)
    fun _ _ hnow => hnow

theorem announced_wp {n : Nat} {service : Service} {line okLine : Text} {v : Locals}
    {past : MainTrace} (h : Begun n v past) (hn : n < service.ctorIdx + 1)
    (hprepared : ∀ s ∈ service.requires, Started s past)
    (htolerates : ∀ result, (MainCall.start service).tolerates result = false) :
    (announced service line okLine v).wp Allowed (fun v' => Begun (service.ctorIdx + 1) v') past :=
  attempt_wp h hn hprepared (fun _ => nofun) htolerates (fun _ _ hnow => hnow)
    fun _ _ hnow => begins_inform _ okLine v _ hnow

/-- A service whose result is not looked at, or that has none. -/
theorem ignored_wp {n : Nat} {c : MainCall} {v : Locals} {past : MainTrace} (h : Begun n v past)
    (hn : n < c.rank) (hprepared : ∀ service ∈ c.requires, Started service past)
    (hmarker : ∀ line, c ≠ .marker line) (hfailure : ∀ reply, isFailure ⟨c, reply⟩ = false) :
    (call c fun _ => done v : MainProg Locals).wp Allowed (fun v' => Begun c.rank v') past :=
  ⟨allowed_of_begun h hn hprepared hmarker, fun reply =>
    h.call c reply hn.le le_rfl (hfailure reply)
      (isErrorLine_of_rank (Nat.zero_lt_of_lt hn) reply)⟩

/-- Nothing is required. -/
theorem prepared_nil {past : MainTrace} : ∀ s ∈ ([] : List Service), Started s past :=
  fun _ h => absurd h List.not_mem_nil

/-- What a call has just started. -/
theorem started_last {c : MainCall} {reply : MainReply c} {service : Service} (past : MainTrace)
    (hservice : c.service = some service) (hresult : c.result reply = 0) :
    Started service (past ++ [⟨c, reply⟩]) :=
  ⟨⟨c, reply⟩, List.mem_append_right _ (List.mem_singleton_self _), hservice, hresult⟩

theorem begins_watchdog : Begins 0 2 (watchdogBlock cfg) := by
  intro v past h
  refine ⟨allowed_of_begun h (by decide) prepared_nil fun _ => nofun, ?_⟩
  intro (result : Int)
  beta_reduce
  split
  · rename_i hresult
    have hnow := h.call (m := 2) (.start .watchdogInit) result (by decide) (by decide)
      (by rw [hresult]; decide) rfl
    exact begins_inform 2 _ v _ hnow
  split
  · rename_i hnodev hresult
    refine ⟨allowed_log _ _ _, fun _ => ?_⟩
    refine h.fail (m := 2) (.start .watchdogInit) result _ (by decide) (by decide) ?_ rfl
    simp [isFailure, MainCall.result, MainCall.tolerates, hnodev, hresult]
  have hresult : result = 0 := not_not.mp ‹_›
  have hnow := h.call (m := 1) (.start .watchdogInit) result (by decide) (by decide)
    (by rw [hresult]; rfl) rfl
  split
  · refine announced_wp hnow (by decide) ?_ fun _ => rfl
    intro s hs
    rw [List.mem_singleton.mp hs]
    exact started_last past rfl hresult
  · exact hnow.mono (by decide)

theorem begins_storage : Begins 3 5 (storageBlock cfg) := by
  intro v past h
  refine attempt_wp h (by decide) prepared_nil (fun _ => nofun) (fun _ => rfl)
    (fun _ _ hnow => hnow.mono (by decide)) fun reply hreply hnow => ?_
  refine announced_wp hnow (by decide) ?_ fun _ => rfl
  intro s hs
  rw [List.mem_singleton.mp hs]
  exact started_last past rfl hreply

theorem begins_radio : Begins 2 3 radioBlock := by
  intro v past h
  refine attempt_wp h (by decide) prepared_nil (fun _ => nofun) (fun _ => rfl)
    (fun _ _ hnow => hnow.mono (by decide)) fun reply _ hnow => ?_
  exact begins_inform _ _ v _ hnow

theorem begins_command : Begins 15 16 (commandBlock cfg) := by
  intro v past h
  refine attempt_wp h (show 15 < 16 by decide) prepared_nil (fun _ => nofun) (fun _ => rfl)
    (fun _ _ hnow => hnow) fun reply _ hnow => ?_
  exact begins_inform _ _ v _ hnow

/-! ### The parameters. -/

/-- A parameter is read, or the thread waits: allowed anywhere once the parameters are there. -/
theorem allowed_free {past : MainTrace} {c : MainCall} (hrank : c.rank = 0)
    (hprepared : ∀ service ∈ c.requires, Started service past) (hmarker : ∀ line, c ≠ .marker line)
    (hreport : ∀ handle, c ≠ .healthReport handle) : Allowed past c where
  in_order := fun h => absurd hrank h
  prepared := hprepared
  marker := fun line hc => absurd hc (hmarker line)
  report := fun handle hc => absurd hc (hreport handle)

/-- The past with a call that starts nothing. -/
theorem Begun.free {n : Nat} {v : Locals} {past : MainTrace} (h : Begun n v past) {c : MainCall}
    (reply : MainReply c) (hrank : c.rank = 0) (hfailure : isFailure ⟨c, reply⟩ = false)
    (herror : isErrorLine ⟨c, reply⟩ = false) : Begun n v (past ++ [⟨c, reply⟩]) :=
  h.call c reply le_rfl (hrank.le.trans (Nat.zero_le n)) hfailure herror

theorem bootDelay_wp {n : Nat} {v : Locals} {past : MainTrace} (h : Begun n v past)
    (hparam : Started .paramInit past) :
    (bootDelay v).wp Allowed (fun v' => Begun n v') past := by
  have hread : ∀ now, past <+: now → Allowed now .systemBootDelayMs := by
    intro now hnow
    refine allowed_free rfl (fun s hs => ?_) (fun _ => nofun) (fun _ => nofun)
    rw [List.mem_singleton.mp hs]
    exact started_later hnow hparam
  refine ⟨hread past List.prefix_rfl, ?_⟩
  intro (tested : UInt16)
  have h1 := h.free (c := .systemBootDelayMs) tested rfl rfl rfl
  beta_reduce
  split
  · refine ⟨hread _ (List.prefix_append _ _), ?_⟩
    intro (logged : UInt16)
    have h2 := h1.free (c := .systemBootDelayMs) logged rfl rfl rfl
    refine ⟨allowed_log _ _ _, fun _ => ?_⟩
    refine ⟨hread _ (by simp), ?_⟩
    intro (slept : UInt16)
    refine ⟨allowed_free rfl prepared_nil (fun _ => nofun) (fun _ => nofun), fun _ => ?_⟩
    exact ((h2.informed _).free (c := .systemBootDelayMs) slept rfl rfl rfl).free
      (c := .sleep slept.toNat) () rfl rfl rfl
  · exact h1

/-- The snapshot is there when the load says so. -/
theorem persistLoad_wp {v : Locals} {past : MainTrace} (h : Begun 9 v past)
    (hparam : Started .paramInit past) :
    (persistLoad v).wp Allowed (fun loaded now => Begun 10 loaded.1 now
      ∧ (loaded.2 = true → Started .paramPersistLoad now)) past := by
  refine ⟨allowed_of_begun h (by decide) ?_ fun _ => nofun, ?_⟩
  · intro s hs
    rw [List.mem_singleton.mp hs]
    exact hparam
  intro (result : Int)
  beta_reduce
  split
  · rename_i hresult
    have hnow := h.call (m := 10) (.start .paramPersistLoad) result (by decide) (by decide)
      (by rw [hresult]; decide) rfl
    refine ⟨allowed_log _ _ _, fun _ => ⟨hnow.informed _, fun hloaded => ?_⟩⟩
    have hzero : result = 0 := of_decide_eq_true hloaded
    exact absurd (hresult.symm.trans hzero) (by decide)
  split
  · rename_i hnoent hresult
    refine ⟨allowed_log _ _ _, fun _ => ⟨?_, fun hloaded => absurd (of_decide_eq_true hloaded) hresult⟩⟩
    refine h.fail (m := 10) (.start .paramPersistLoad) result _ (by decide) (by decide) ?_ rfl
    simp [isFailure, MainCall.result, MainCall.tolerates, hnoent, hresult]
  · have hresult : result = 0 := not_not.mp ‹_›
    have hnow := h.call (m := 10) (.start .paramPersistLoad) result (by decide) (by decide)
      (by rw [hresult]; rfl) rfl
    refine ⟨allowed_log _ _ _, fun _ => ⟨hnow.informed _, fun _ => ?_⟩⟩
    exact started_later (List.prefix_append _ _) (started_last past rfl hresult)

/-- The count is written back on top of the snapshot it was read from. -/
theorem persistSave_wp {hadSnapshot : Bool} {v : Locals} {past : MainTrace} (h : Begun 11 v past)
    (hparam : Started .paramInit past)
    (hloaded : hadSnapshot = true → Started .paramPersistLoad past) :
    (persistSave hadSnapshot v).wp Allowed (fun v' => Begun 12 v') past := by
  unfold persistSave
  split
  · rename_i hhad
    refine attempt_wp h (by decide) ?_ (fun _ => nofun) (fun _ => rfl)
      (fun _ _ hend => hend.mono (by decide)) fun _ _ hend => hend.mono (by decide)
    intro s hs
    rcases List.mem_cons.mp hs with rfl | hs
    · exact hparam
    · rw [List.mem_singleton.mp hs]
      exact hloaded hhad
  · exact h.mono (by decide)

theorem countRestart_wp {v : Locals} {past : MainTrace} (h : Begun 9 v past)
    (hparam : Started .paramInit past) :
    (countRestart cfg v).wp Allowed (fun v' => Begun 12 v') past := by
  have hprepared : ∀ now, past <+: now →
      ∀ s ∈ (MainCall.run .bootCountRestart).requires, Started s now := by
    intro now hnow s hs
    rw [List.mem_singleton.mp hs]
    exact started_later hnow hparam
  unfold countRestart
  split
  · refine wp_seq Allowed (persistLoad_wp h hparam) ?_
    rintro ⟨v', hadSnapshot⟩ now hnow ⟨hbegun, hloaded⟩
    refine ⟨allowed_of_begun hbegun (by decide) (hprepared now hnow) fun _ => nofun, fun _ => ?_⟩
    have hcounted := hbegun.call (m := 11) (.run .bootCountRestart) () (by decide) (by decide)
      rfl rfl
    have hthere := List.prefix_append now [⟨MainCall.run .bootCountRestart, ()⟩]
    exact persistSave_wp hcounted (started_later (hnow.trans hthere) hparam) fun hhad =>
      started_later hthere (hloaded hhad)
  · exact wp_mono Allowed (fun _ _ hend => hend.mono (by decide))
      (ignored_wp h (by decide) (hprepared past List.prefix_rfl) (fun _ => nofun) fun _ => rfl)

theorem begins_param : Begins 8 12 (paramBlock cfg) := by
  intro v past h
  refine attempt_wp h (show 8 < 9 by decide) prepared_nil (fun _ => nofun) (fun _ => rfl)
    (fun _ _ hnow => hnow.mono (show 9 ≤ 12 by decide)) fun reply hreply hnow => ?_
  have hparam : Started .paramInit (past ++ [⟨.paramInit (parameterSets cfg), reply⟩]) :=
    started_last past rfl hreply
  refine wp_seq Allowed (begins_inform _ _ v _ hnow) fun v' now hpre hbegun => ?_
  have hthere := started_later hpre hparam
  refine wp_seq Allowed (countRestart_wp cfg hbegun hthere) fun v' now hpre hbegun => ?_
  exact bootDelay_wp hbegun (started_later hpre hthere)

/-! ### The router and its servers. -/

/-- A block for a node whose router runs finds it running. -/
theorem begins_whenCsp {n m : Nat} {block : Locals → MainProg Locals} (hnm : n ≤ m)
    (hblock : ∀ v past, Begun n v past → (∀ s ∈ [Service.cspInit, .cspStart], Started s past) →
      (block v).wp Allowed (fun v' => Begun m v') past) : Begins n m (whenCsp block) := by
  intro v past h
  unfold whenCsp
  split
  · rename_i hcsp
    refine hblock v past h fun s hs => ?_
    rcases List.mem_cons.mp hs with rfl | hs
    · exact (h.csp hcsp).1
    · rw [List.mem_singleton.mp hs]
      exact (h.csp hcsp).2
  · exact h.mono hnm

theorem cspStart_wp {v : Locals} {past : MainTrace} (h : Begun 21 v past)
    (hinit : Started .cspInit past) :
    (cspStart cfg v).wp Allowed (fun v' => Begun 23 v') past := by
  refine attempt_wp h (by decide) (fun s hs => ?_) (fun _ => nofun) (fun _ => rfl)
    (fun _ _ hnow => hnow.mono (by decide)) fun reply hreply hnow => ?_
  · rw [List.mem_singleton.mp hs]
    exact hinit
  have hthere : ∀ s ∈ [Service.cspInit, .cspStart],
      Started s (past ++ [⟨.start .cspStart, reply⟩]) := by
    intro s hs
    rcases List.mem_cons.mp hs with rfl | hs
    · exact started_later (List.prefix_append _ _) hinit
    · rw [List.mem_singleton.mp hs]
      exact started_last past rfl hreply
  have hrunning : Begun 22 { v with cspStarted := true } (past ++ [⟨.start .cspStart, reply⟩]) :=
    { hnow with csp := fun _ => ⟨hthere _ (by decide), hthere _ (by decide)⟩ }
  refine wp_seq Allowed (begins_inform _ _ _ _ hrunning) fun v' now hpre hbegun => ?_
  refine wp_seq Allowed (compiled_wp _ hbegun (by decide) (ignored_wp hbegun (by decide)
    (fun s hs => started_later hpre (hthere s hs)) (fun _ => nofun) fun reply => ?_))
    fun v' now _ hbegun => ?_
  · simp [isFailure, MainCall.tolerates]
  · exact (begins_inform 23 _).compiled le_rfl _ v' now hbegun

theorem begins_cspInit : Begins 18 23 (cspInit cfg) := by
  intro v past h
  refine attempt_wp h (by decide) prepared_nil (fun _ => nofun) (fun _ => rfl)
    (fun _ _ hnow => hnow.mono (by decide)) fun reply hreply hnow => ?_
  have hinit : Started .cspInit (past ++ [⟨.start .cspInit, reply⟩]) :=
    started_last past rfl hreply
  have hneeds : ∀ now, past ++ [⟨.start .cspInit, reply⟩] <+: now →
      ∀ s ∈ [Service.cspInit], Started s now := by
    intro now hpre s hs
    rw [List.mem_singleton.mp hs]
    exact started_later hpre hinit
  refine wp_seq Allowed (begins_inform _ _ v _ hnow) fun v₁ now₁ hpre₁ h₁ => ?_
  refine wp_seq Allowed (compiled_wp (m := 20) cfg.cspKissUart h₁ (by decide) ?_)
    fun v₂ now₂ hpre₂ h₂ => ?_
  · refine ⟨allowed_of_begun h₁ (by decide) (hneeds now₁ hpre₁) fun _ => nofun, fun info => ?_⟩
    exact begins_inform 20 _ v₁ _ (h₁.call .uartGetInfo info (by decide) (by decide) rfl rfl)
  have hpre := hpre₁.trans hpre₂
  refine wp_seq Allowed (compiled_wp (m := 21) cfg.paramCsp h₂ (by decide)
    (announced_wp h₂ (by decide) (hneeds now₂ hpre) fun _ => rfl)) fun v₃ now₃ hpre₃ h₃ => ?_
  exact cspStart_wp cfg h₃ (started_later (hpre.trans hpre₃) hinit)

theorem begins_ftp : Begins 25 27 (whenCsp (ftpBlock cfg)) := by
  refine begins_whenCsp (by decide) fun v past h hcsp => ?_
  refine attempt_wp h (by decide) hcsp (fun _ => nofun) (fun _ => rfl)
    (fun _ _ hnow => hnow.mono (by decide)) fun reply hreply hnow => ?_
  refine announced_wp hnow (by decide) (fun s hs => ?_) fun _ => rfl
  -- the router, and the initialisation just before
  rcases List.mem_append.mp (show s ∈ [Service.cspInit, .cspStart] ++ [.ftpInit] from hs) with hs | hs
  · exact started_later (List.prefix_append _ _) (hcsp s hs)
  · rw [List.mem_singleton.mp hs]
    exact started_last past rfl hreply

theorem begins_remexec : Begins 28 30 (remexecBlock cfg) := by
  intro v past h
  refine attempt_wp h (by decide) prepared_nil (fun _ => nofun) (fun _ => rfl)
    (fun _ _ hnow => hnow.mono (by decide)) fun reply hreply hnow => ?_
  unfold whenCsp
  split
  · rename_i hcsp
    refine announced_wp hnow (by decide) (fun s hs => ?_) fun _ => rfl
    rcases List.mem_cons.mp hs with rfl | hs
    · exact (hnow.csp hcsp).1
    rcases List.mem_cons.mp hs with rfl | hs
    · exact (hnow.csp hcsp).2
    · rw [List.mem_singleton.mp hs]
      exact started_last past rfl hreply
  · exact hnow.mono (by decide)

theorem begins_simple {n : Nat} {service : Service} {line : Text} (hn : n < service.ctorIdx + 1)
    (hrequires : service.requires = [])
    (htolerates : ∀ result, (MainCall.start service).tolerates result = false) (on : Bool) :
    Begins n (service.ctorIdx + 1) (compiled on (simple service line)) :=
  fun _ _ h => compiled_wp on h hn.le (simple_wp h hn (hrequires ▸ prepared_nil) htolerates)

theorem begins_announced {n : Nat} {service : Service} {line okLine : Text}
    (hn : n < service.ctorIdx + 1) (hrequires : service.requires = [])
    (htolerates : ∀ result, (MainCall.start service).tolerates result = false) (on : Bool) :
    Begins n (service.ctorIdx + 1) (compiled on (announced service line okLine)) :=
  fun _ _ h => compiled_wp on h hn.le (announced_wp h hn (hrequires ▸ prepared_nil) htolerates)

theorem begins_ignored {n : Nat} {c : MainCall} (hn : n < c.rank) (hrequires : c.requires = [])
    (hmarker : ∀ line, c ≠ .marker line) (hfailure : ∀ reply, isFailure ⟨c, reply⟩ = false)
    (on : Bool) : Begins n c.rank (compiled on fun v => .call c fun _ => .done v) :=
  fun _ _ h => compiled_wp on h hn.le
    (ignored_wp h hn (hrequires ▸ prepared_nil) hmarker hfailure)

/-- A server without a line for its success. -/
theorem begins_server {n : Nat} {service : Service} {line : Text} (hn : n < service.ctorIdx + 1)
    (hrequires : service.requires = [.cspInit, .cspStart])
    (htolerates : ∀ result, (MainCall.start service).tolerates result = false) (on : Bool) :
    Begins n (service.ctorIdx + 1) (compiled on (whenCsp (simple service line))) :=
  (begins_whenCsp hn.le fun _ _ h hcsp => simple_wp h hn (hrequires ▸ hcsp) htolerates).compiled
    hn.le on

theorem begins_announced_server {n : Nat} {service : Service} {line okLine : Text}
    (hn : n < service.ctorIdx + 1) (hrequires : service.requires = [.cspInit, .cspStart])
    (htolerates : ∀ result, (MainCall.start service).tolerates result = false) (on : Bool) :
    Begins n (service.ctorIdx + 1) (compiled on (whenCsp (announced service line okLine))) :=
  (begins_whenCsp hn.le fun _ _ h hcsp => announced_wp h hn (hrequires ▸ hcsp) htolerates).compiled
    hn.le on

theorem begins_csp : Begins 16 31 (inSequence (cspBlocks cfg)) := by
  have hrevision : Begins 16 17 fun v => .call (.run .cspSetRevision) fun _ => .done v :=
    fun v past h => ignored_wp h (by decide) prepared_nil (fun _ => nofun) fun _ => rfl
  refine hrevision.then ?_
  refine (begins_simple (by decide) rfl (fun _ => rfl) _).then ?_
  refine (begins_cspInit cfg).then ?_
  refine (begins_server (by decide) rfl (fun _ => rfl) _).then ?_
  refine (begins_simple (by decide) rfl (fun _ => rfl) _).then ?_
  refine ((begins_ftp cfg).compiled (by decide) _).then ?_
  refine (begins_announced_server (by decide) rfl (fun _ => rfl) _).then ?_
  refine ((begins_remexec cfg).compiled (by decide) _).then ?_
  exact (begins_announced_server (by decide) rfl (fun _ => rfl) _).then (begins_nil _)

/-! ### Housekeeping, health and the supply. -/

theorem begins_hk : Begins 31 35 (hkBlock cfg) := by
  intro v past h
  refine attempt_wp h (by decide) prepared_nil (fun _ => nofun) (fun _ => rfl)
    (fun _ _ hnow => hnow.mono (by decide)) fun reply hreply hnow => ?_
  have hinit : Started .hkInit (past ++ [⟨.start .hkInit, reply⟩]) := started_last past rfl hreply
  have hneeds : ∀ now, past ++ [⟨.start .hkInit, reply⟩] <+: now →
      ∀ s ∈ [Service.hkInit], Started s now := by
    intro now hpre s hs
    rw [List.mem_singleton.mp hs]
    exact started_later hpre hinit
  refine wp_seq Allowed (Q := fun v' => Begun 33 v') ?_ fun v₁ now₁ hpre₁ h₁ => ?_
  · exact attempt_wp hnow (by decide) (hneeds _ List.prefix_rfl) (fun _ => nofun) (fun _ => rfl)
      (fun _ _ hend => hend) fun _ _ hend => hend
  refine wp_seq Allowed (simple_wp h₁ (by decide) (hneeds now₁ hpre₁) fun _ => rfl)
    fun v₂ now₂ hpre₂ h₂ => ?_
  refine compiled_wp cfg.hkCsp h₂ (by decide) ?_
  unfold whenCsp
  split
  · rename_i hcsp
    refine simple_wp h₂ (by decide) (fun s hs => ?_) fun _ => rfl
    rcases List.mem_cons.mp hs with rfl | hs
    · exact started_later (hpre₁.trans hpre₂) hinit
    rcases List.mem_cons.mp hs with rfl | hs
    · exact (h₂.csp hcsp).1
    · rw [List.mem_singleton.mp hs]
      exact (h₂.csp hcsp).2
  · exact h₂.mono (by decide)

theorem begins_health : Begins 39 40 (healthRegister cfg) := by
  intro v past h
  refine attempt_wp h (show 39 < 40 by decide) prepared_nil (fun _ => nofun) (fun _ => rfl)
    (fun _ _ hnow => hnow) ?_
  rintro ⟨result, handle⟩ hresult hnow
  obtain rfl : result = 0 := hresult
  exact { hnow with
    health := fun _ => ⟨_, _, List.mem_append_right _ (List.mem_singleton_self _)⟩ }

theorem begins_lastwords : Begins 44 45 lastwordsBlock := by
  intro v past h
  refine ⟨allowed_of_begun h (by decide) prepared_nil fun _ => nofun, ?_⟩
  intro (result : Int)
  have hnow := h.call (m := 45) (.start .lastwordsWatchSupply) result (by decide) (by decide)
    (by simp [isFailure, MainCall.tolerates]) rfl
  beta_reduce
  split
  · exact begins_inform 45 _ v _ hnow
  split
  · exact ⟨allowed_log _ _ _, fun _ => hnow.call (.log .warning _) () le_rfl (Nat.zero_le 45) rfl rfl⟩
  · exact hnow

/-! ## §7. The whole of `main`. -/

theorem early_begin : Begins 0 8 (inSequence (earlyBlocks cfg)) := by
  refine ((begins_watchdog cfg).compiled (by decide) _).then ?_
  refine (begins_inform 2 _).then ?_
  refine (begins_radio.compiled (by decide) _).then ?_
  refine ((begins_storage cfg).compiled (by decide) _).then ?_
  refine (begins_simple (by decide) rfl (fun _ => rfl) _).then ?_
  refine (begins_simple (by decide) rfl (fun _ => rfl) _).then ?_
  exact (begins_simple (by decide) rfl (fun _ => rfl) _).then (begins_nil _)

theorem late_begin : Begins 12 47 (inSequence (lateBlocks cfg)) := by
  refine (begins_announced (by decide) rfl (fun _ => rfl) _).then ?_
  refine (begins_simple (by decide) rfl (fun _ => rfl) _).then ?_
  refine (begins_announced (by decide) rfl (fun _ => rfl) _).then ?_
  refine ((begins_command cfg).compiled (by decide) _).then ?_
  refine ((begins_csp cfg).compiled (by decide) _).then ?_
  refine ((begins_hk cfg).compiled (by decide) _).then ?_
  refine (begins_simple (by decide) rfl (fun _ => rfl) _).then ?_
  refine (begins_simple (by decide) rfl (fun _ => rfl) _).then ?_
  refine (begins_simple (by decide) rfl (fun _ => rfl) _).then ?_
  refine (begins_simple (by decide) rfl (fun _ => rfl) _).then ?_
  refine ((begins_health cfg).compiled (by decide) _).then ?_
  refine (begins_simple (by decide) rfl (fun _ => rfl) _).then ?_
  refine (begins_simple (by decide) rfl (fun _ => rfl) _).then ?_
  refine (begins_ignored (c := .run .shellPromptApply) (by decide) rfl (fun _ => nofun)
    (fun _ => rfl) _).then ?_
  refine (begins_ignored (c := .run .shellEchoApply) (by decide) rfl (fun _ => nofun)
    (fun _ => rfl) _).then ?_
  refine (begins_lastwords.compiled (by decide) _).then ?_
  refine (begins_ignored (c := .start .clockFromHost) (by decide) rfl (fun _ => nofun)
    (fun reply => ?_) _).then ?_
  · simp [isFailure, MainCall.tolerates]
  exact (begins_simple (by decide) rfl (fun _ => rfl) _).then (begins_nil _)

theorem Begins.append {n m k : Nat} {first second : List (Locals → MainProg Locals)}
    (hfirst : Begins n m (inSequence first)) (hsecond : Begins m k (inSequence second)) :
    Begins n k (inSequence (first ++ second)) := by
  intro v
  rw [inSequence_append]
  exact (hfirst v).bind hsecond

/-- **What the blocks have done**, for every composition. -/
theorem blocks_begin : Begins 0 47 (inSequence (blocks cfg)) :=
  (early_begin cfg).append
    (((begins_param cfg).compiled (by decide) cfg.param).then (late_begin cfg))

/-- The thread's loop runs on what the start-up left. -/
structure Looping (v : Locals) (past : MainTrace) : Prop where
  begun : Begun 49 v past
  started : Started .bootServiceStart past

theorem Looping.free {v : Locals} {past : MainTrace} (h : Looping v past) {c : MainCall}
    (reply : MainReply c) (hrank : c.rank = 0) (hfailure : isFailure ⟨c, reply⟩ = false)
    (herror : isErrorLine ⟨c, reply⟩ = false) : Looping v (past ++ [⟨c, reply⟩]) where
  begun := h.begun.free reply hrank hfailure herror
  started := started_later (List.prefix_append _ _) h.started

theorem reportHealth_wp {v : Locals} {past : MainTrace} (h : Looping v past) :
    (reportHealth cfg v).wp Allowed (fun _ => Looping v) past := by
  unfold reportHealth
  split
  · rename_i hwatching
    have hregistered := h.begun.health (Bool.and_eq_true_iff.mp hwatching).2
    refine ⟨⟨fun hrank => absurd rfl hrank, fun s hs => ?_, fun _ => nofun, fun handle hc => ?_⟩,
      fun _ => h.free (c := .healthReport v.healthHandle) () rfl rfl rfl⟩
    · rcases List.mem_cons.mp hs with rfl | hs
      · obtain ⟨name, deadlineMs, hmem⟩ := hregistered
        exact ⟨_, hmem, rfl, rfl⟩
      · rw [List.mem_singleton.mp hs]
        exact h.started
    · rwa [← MainCall.healthReport.inj hc]
  · exact h

theorem reportPeriod_wp {v : Locals} {past : MainTrace} (h : Looping v past) :
    (reportPeriod cfg).wp Allowed (fun _ => Looping v) past := by
  unfold reportPeriod
  split
  · split
    · refine ⟨allowed_free rfl (fun s hs => ?_) (fun _ => nofun) fun _ => nofun, fun reply => ?_⟩
      · rw [List.mem_singleton.mp hs]
        exact h.started
      · exact h.free (c := .systemAppReportMs) reply rfl rfl rfl
    · exact h
  · exact h

/-- **One cycle of the loop.** -/
theorem cycle_keeps (v : Locals) :
    Triple Allowed (Looping v) (cycle cfg v) fun _ => Looping v := by
  intro past h
  refine wp_seq Allowed (reportHealth_wp cfg h) fun _ now _ hnow => ?_
  refine wp_seq Allowed (reportPeriod_wp cfg hnow) fun ms now _ hnow => ?_
  refine ⟨allowed_free rfl prepared_nil (fun _ => nofun) fun _ => nofun, fun _ => ?_⟩
  exact hnow.free (c := .sleep ms) () rfl rfl rfl

/-- Before anything is called. -/
theorem begun_nil : Begun 0 ⟨0, false, 0, false⟩ [] where
  below := fun _ h => absurd h List.not_mem_nil
  failures := rfl
  errors := rfl
  few := le_rfl
  csp := nofun
  health := nofun

/-- **The start-up**, for every composition. -/
theorem startUp_begins : Triple Allowed (· = []) (startUp cfg) Looping := by
  rintro past rfl
  refine wp_seq Allowed (blocks_begin cfg _ [] begun_nil) fun v now _ h => ?_
  have hmarker : Allowed now (.marker (markerText v.startupFailures)) :=
    { in_order := fun _ e he => (h.below e he).trans_lt (show 47 < 48 by decide)
      prepared := prepared_nil
      marker := fun line hc => by rw [h.failures, MainCall.marker.inj hc]
      report := fun _ => nofun }
  refine ⟨hmarker, fun _ => ?_⟩
  have hmarked := h.call (m := 48) (.marker (markerText v.startupFailures)) () (by decide)
    (show 48 ≤ 48 by decide) rfl rfl
  refine ⟨allowed_of_begun hmarked (by decide) prepared_nil fun _ => nofun, fun _ => ?_⟩
  exact ⟨hmarked.call (.run .bootServiceStart) () (by decide) (by decide) rfl rfl,
    started_last _ rfl rfl⟩

theorem main_triple (cycles : Nat) :
    Triple Allowed (· = []) (main cfg cycles) fun _ now => ∃ v, Looping v now :=
  (startUp_begins cfg).bind fun v =>
    (Triple.iter (cycle_keeps cfg v) cycles).imp (fun _ h => h) fun _ _ h => ⟨v, h⟩

/-- **Every call of every run is in its place**: for every composition and whatever the services
answer, what is started comes in the order of the text and at most once, a server only when CSP is
up and, but for that of the parameters, its router runs, and whatever needs another service only
when that one has started without an error; the marker tells how many have failed, and the thread
reports under the handle that it was given. -/
theorem startUp_in_order (cycles : Nat) (trace : MainTrace) (h : (main cfg cycles).Runs trace ()) :
    ∀ before e after, trace = before ++ e :: after → Allowed before e.1 :=
  ((main_triple cfg cycles).sound rfl h).1

/-- A composition with nothing in it. -/
def bareNode : MainConfig where
  watchdog := false
  watchdogAutoStart := false
  watchdogTimeoutMs := 8000
  radioUhf := false
  radioUhfCrypto := false
  storage := false
  storageTmp := false
  storageMountPoint := "/lfs".toList
  storageTmpMountPoint := "/tmp".toList
  bootDiagnostics := false
  bootConfirmAtStart := false
  param := false
  paramPersistence := false
  paramTestDefinitions := false
  paramCsp := false
  paramPort := 10
  event := false
  buttonTest := false
  fbo := false
  temperatureSensorExample := false
  command := false
  commandCsp := false
  commandCspPort := 13
  csp := false
  cspAddress := 1
  cspKissUart := false
  logRemote := false
  fwu := false
  fwuFiles := false
  ftp := false
  ftpCspPort := 11
  fwuLiteCsp := false
  fwuLiteCspPort := 15
  remexec := false
  remexecCspPort := 14
  hk := false
  hkCsp := false
  resmon := false
  scrub := false
  limits := false
  gndwdt := false
  health := false
  appHealthDeadlineMs := 4000
  cspLiveness := false
  debugShell := false
  lastwords := false
  nativeSim := false
  journal := false
  table := false

/-- One with CSP and the file server. -/
def ftpNode : MainConfig := { bareNode with csp := true, ftp := true }

/-- Services that answer without errors, but for these. -/
def answering (errors : Service → Int) : (c : MainCall) → MainReply c
  | .radioUhfGetInfo => (0, [], 9600)
  | .uartGetInfo => ([], 115200)
  | .healthRegister .. => (0, 0)
  | .start service => errors service
  | .paramInit _ => errors .paramInit
  | .commandInit _ => errors .commandInit
  | .systemBootDelayMs => (0 : UInt16)
  | .systemAppReportMs => (1000 : UInt16)
  | .run _ | .marker _ | .healthReport _ | .log .. | .sleep _ => ()

/-- The calls of the file server's node in one cycle, and what comes before its server. -/
def ftpTrace : MainTrace := ((main ftpNode 1).exec (answering fun _ => 0)).1

theorem startUp_in_order_ftp :
    ftpTrace = ftpTrace.take 7 ++ ⟨.start .ftpStart, (0 : Int)⟩ :: ftpTrace.drop 8
      ∧ Started .cspStart (ftpTrace.take 7) := by
  have hsplit : ftpTrace = ftpTrace.take 7 ++ ⟨.start .ftpStart, (0 : Int)⟩ :: ftpTrace.drop 8 := rfl
  refine ⟨hsplit, ?_⟩
  have hallowed := startUp_in_order ftpNode 1 ftpTrace (runs_exec _ _) _ _ _ hsplit
  exact hallowed.prepared _ (by decide)

/-- A call after the marker: it cannot fail, logs no error and is no other marker. -/
def MainCall.IsQuiet (c : MainCall) : Prop :=
  (∀ reply, isFailure ⟨c, reply⟩ = false ∧ isErrorLine ⟨c, reply⟩ = false) ∧ ∀ line, c ≠ .marker line

theorem cycle_quiet (v : Locals) : (cycle cfg v).Calls MainCall.IsQuiet := by
  have hreport : (reportHealth cfg v).Calls MainCall.IsQuiet := by
    unfold reportHealth
    split
    · exact ⟨⟨fun _ => ⟨rfl, rfl⟩, fun _ => nofun⟩, fun _ => trivial⟩
    · exact trivial
  have hperiod : (reportPeriod cfg).Calls MainCall.IsQuiet := by
    unfold reportPeriod
    split
    · split
      · exact ⟨⟨fun _ => ⟨rfl, rfl⟩, fun _ => nofun⟩, fun _ => trivial⟩
      · exact trivial
    · exact trivial
  exact hreport.bind fun _ => hperiod.bind fun ms =>
    ⟨⟨fun _ => ⟨rfl, rfl⟩, fun _ => nofun⟩, fun _ => trivial⟩

theorem iter_quiet (v : Locals) (cycles : Nat) :
    ((cycle cfg v).iter cycles).Calls MainCall.IsQuiet := by
  induction cycles with
  | zero => exact trivial
  | succ cycles ih => exact (cycle_quiet cfg v).bind fun _ => ih

/-- **The marker tells exactly what failed**: every run logs one marker, whose number is that of
the calls that have failed and that of the error lines, `ok` when there are none; after it
nothing fails and no error is logged. -/
theorem services_marker (cycles : Nat) (trace : MainTrace) (h : (main cfg cycles).Runs trace ()) :
    ∃ before after, trace = before ++ ⟨.marker (markerText (before.countP isFailure)), ()⟩ :: after
      ∧ before.countP isErrorLine = before.countP isFailure ∧ before.countP isFailure ≤ 47
      ∧ (∀ e ∈ before, ∀ line, e.1 ≠ .marker line)
      ∧ ∀ e ∈ after, isFailure e = false ∧ isErrorLine e = false ∧ ∀ line, e.1 ≠ .marker line := by
  obtain ⟨started, looped, v, rfl, hstart, hloop⟩ := runs_bind.mp h
  obtain ⟨before, rest, v', rfl, hblocks, hrest⟩ := runs_bind.mp hstart
  have hbegun : Begun 47 v' before :=
    ((blocks_begin cfg _).sound begun_nil hblocks).2
  obtain ⟨_, served, rfl, hserved⟩ := runs_call.mp hrest
  obtain ⟨_, nothing, rfl, hdone⟩ := runs_call.mp hserved
  obtain ⟨rfl, -⟩ := runs_done.mp hdone
  refine ⟨before, ⟨.run .bootServiceStart, ()⟩ :: looped, ?_, ?_, ?_, ?_, ?_⟩
  · rw [hbegun.failures]
    simp
  · exact hbegun.errors.trans hbegun.failures.symm
  · exact hbegun.failures.trans_le hbegun.few
  · intro e he line hline
    have hrank : e.1.rank ≤ 47 := hbegun.below e he
    rw [hline] at hrank
    exact absurd hrank (show ¬ 48 ≤ 47 by decide)
  · intro e he
    rcases List.mem_cons.mp he with rfl | he
    · exact ⟨rfl, rfl, fun _ => nofun⟩
    · obtain ⟨hquiet, hmarker⟩ := hloop.calls (iter_quiet cfg v cycles) e he
      exact ⟨(hquiet e.2).1, (hquiet e.2).2, hmarker⟩

/-- The file server of a node does not come up. -/
def ftpErrors : Service → Int
  | .ftpInit => -EBUSY
  | _ => 0

theorem services_marker_ftp :
    ∃ before after, ((main ftpNode 1).exec (answering ftpErrors)).1
        = before ++ ⟨.marker (markerText (before.countP isFailure)), ()⟩ :: after
      ∧ before.countP isErrorLine = before.countP isFailure := by
  obtain ⟨before, after, htrace, herrors, -⟩ := services_marker ftpNode 1 _
    (runs_exec (answering ftpErrors) (main ftpNode 1))
  exact ⟨before, after, htrace, herrors⟩

/-! ## §8. The boot with its restart count. -/

/-- A call as a step of the node, where `value` is the count in the snapshot: a save that
succeeds has written. -/
def nodeEvent (value : Nat) (e : Sigma MainReply) : Option NodeEvent :=
  match e.1.service with
  | some .paramInit => some (.paramInit (e.1.result e.2))
  | some .paramPersistLoad => some (.persistLoad (e.1.result e.2) value)
  | some .bootCountRestart => some .countRestart
  | some .paramPersistSave => some (.persistSave (e.1.result e.2) (e.1.result e.2 = 0))
  | _ => none

/-- The steps of the node in a run. -/
def nodeEvents (value : Nat) (trace : MainTrace) : List NodeEvent :=
  trace.filterMap (nodeEvent value)

/-- A load that reports no error has restored a snapshot, and one with this count in it. -/
def Restores (stored : Snapshot) (value : Nat) (trace : MainTrace) : Prop :=
  ∀ e ∈ trace, e.1.service = some .paramPersistLoad → e.1.result e.2 = 0 → stored = .saved value

/-- A call away from the places 9 to 12 of the text is no step of the node. -/
theorem nodeEvent_eq_none {value : Nat} {e : Sigma MainReply} (h : e.1.rank ≤ 8 ∨ 12 < e.1.rank) :
    nodeEvent value e = none := by
  have hrank : ∀ service, e.1.service = some service → e.1.rank = service.ctorIdx + 1 :=
    fun service hservice => by simp [MainCall.rank, hservice]
  unfold nodeEvent
  split <;> first | rfl | skip
  all_goals
    rename_i hservice
    have := hrank _ hservice
    simp only [Service.ctorIdx] at this
    omega

theorem nodeEvents_eq_nil {value : Nat} {trace : MainTrace}
    (h : ∀ e ∈ trace, e.1.rank ≤ 8 ∨ 12 < e.1.rank) : nodeEvents value trace = [] :=
  List.filterMap_eq_nil_iff.mpr fun e he => nodeEvent_eq_none (h e he)

/-- A line for the log, and what goes on with it. -/
theorem runs_inform {line : Text} {v w : Locals} {trace : MainTrace} :
    (inform line v).Runs trace w ↔ trace = [⟨.log .info line, ()⟩] ∧ v = w := by
  constructor
  · intro h
    obtain ⟨_, rest, rfl, hrest⟩ := runs_call.mp h
    obtain ⟨rfl, hv⟩ := runs_done.mp hrest
    exact ⟨rfl, hv⟩
  · rintro ⟨rfl, rfl⟩
    exact runs_call.mpr ⟨(), [], rfl, .done _⟩

theorem runs_failWith {line : Text} {v w : Locals} {trace : MainTrace} :
    (failWith line v).Runs trace w ↔ trace = [⟨.log .error line, ()⟩]
      ∧ { v with startupFailures := v.startupFailures + 1 } = w := by
  constructor
  · intro h
    obtain ⟨_, rest, rfl, hrest⟩ := runs_call.mp h
    obtain ⟨rfl, hv⟩ := runs_done.mp hrest
    exact ⟨rfl, hv⟩
  · rintro ⟨rfl, rfl⟩
    exact runs_call.mpr ⟨(), [], rfl, .done _⟩

theorem runs_attempt {c : MainCall} {line : Int → Text} {v w : Locals}
    {next : MainReply c → MainProg Locals} {trace : MainTrace}
    (h : (attempt c line v next).Runs trace w) :
    ∃ reply, (c.result reply ≠ 0 ∧ trace = [⟨c, reply⟩, ⟨.log .error (line (c.result reply)), ()⟩]
        ∧ { v with startupFailures := v.startupFailures + 1 } = w)
      ∨ (c.result reply = 0 ∧ ∃ rest, trace = ⟨c, reply⟩ :: rest ∧ (next reply).Runs rest w) := by
  obtain ⟨reply, rest, rfl, hrest⟩ := runs_call.mp h
  refine ⟨reply, ?_⟩
  by_cases hresult : c.result reply = 0
  · rw [if_neg (not_not_intro hresult)] at hrest
    exact .inr ⟨hresult, rest, rfl, hrest⟩
  · rw [if_pos hresult] at hrest
    obtain ⟨rfl, rfl⟩ := runs_failWith.mp hrest
    exact .inl ⟨hresult, rfl, rfl⟩

/-- The node follows a part of `main`, and counts the failures that are counted there. -/
structure Follows (value : Nat) (s s' : Node) (trace : MainTrace) (v w : Locals) : Prop where
  run : node.run s (nodeEvents value trace) = some s'
  failures : s'.startupFailures + v.startupFailures = s.startupFailures + w.startupFailures

theorem Follows.append {value : Nat} {s s' s'' : Node} {first second : MainTrace} {u v w : Locals}
    (hfirst : Follows value s s' first u v) (hsecond : Follows value s' s'' second v w) :
    Follows value s s'' (first ++ second) u w where
  run := by
    rw [nodeEvents, List.filterMap_append]
    exact node.run_append.mpr ⟨s', hfirst.run, hsecond.run⟩
  failures := by
    have h1 := hfirst.failures
    have h2 := hsecond.failures
    omega

/-- A part that is no step of the node. -/
theorem follows_nil {value : Nat} {s : Node} {trace : MainTrace} {v : Locals}
    (h : nodeEvents value trace = []) : Follows value s s trace v v :=
  ⟨by rw [h]; rfl, rfl⟩

theorem follows_step {value : Nat} {s s' : Node} {trace : MainTrace} {v w : Locals}
    {e : NodeEvent} (hevents : nodeEvents value trace = [e]) (hstep : s.step e = some s')
    (hfailures : s'.startupFailures + v.startupFailures = s.startupFailures + w.startupFailures) :
    Follows value s s' trace v w where
  run := by
    rw [hevents]
    exact (node.run_cons_eq_some).mpr ⟨s', hstep, rfl⟩
  failures := hfailures

theorem persistLoad_follows {v w : Locals} {hadSnapshot : Bool} {trace : MainTrace} {value : Nat}
    {s : Node} (h : (persistLoad v).Runs trace (w, hadSnapshot)) (hpc : s.pc = .persistLoad)
    (hrestores : Restores s.stored value trace) :
    ∃ s', Follows value s s' trace v w ∧ s'.pc = .countRestart ∧ s'.hadSnapshot = hadSnapshot := by
  obtain ⟨(result : Int), rest, rfl, hrest⟩ := runs_call.mp h
  obtain ⟨shown, last, w', rfl, hshown, hlast⟩ := runs_bind.mp hrest
  obtain ⟨rfl, hw⟩ := runs_done.mp hlast
  obtain ⟨rfl, rfl⟩ := Prod.mk.inj hw
  split at hshown
  · rename_i hresult
    obtain ⟨rfl, rfl⟩ := runs_inform.mp hshown
    obtain rfl : result = -ENOENT := hresult
    have hstep : s.step (.persistLoad (-ENOENT) value) = some { s with
        bootCount := value, hadSnapshot := false, pc := .countRestart } := by
      simp [Node.step, hpc, ENOENT]
    exact ⟨_, follows_step rfl hstep rfl, rfl, rfl⟩
  split at hshown
  · rename_i hnoent hresult
    obtain ⟨rfl, rfl⟩ := runs_failWith.mp hshown
    have hstep : s.step (.persistLoad result value) = some { s with
        bootCount := value, hadSnapshot := false
        startupFailures := s.startupFailures + 1, pc := .countRestart } := by
      simp [Node.step, hpc, hnoent, hresult]
    refine ⟨_, follows_step rfl hstep ?_, rfl, (decide_eq_false hresult).symm⟩
    show s.startupFailures + 1 + v.startupFailures = s.startupFailures + (v.startupFailures + 1)
    omega
  · obtain rfl : result = 0 := not_not.mp ‹_›
    obtain ⟨rfl, rfl⟩ := runs_inform.mp hshown
    have hstored : s.stored = .saved value := hrestores _ List.mem_cons_self rfl rfl
    have hstep : s.step (.persistLoad 0 value) = some { s with
        bootCount := value, hadSnapshot := true, pc := .countRestart } := by
      simp [Node.step, hpc, hstored]
    exact ⟨_, follows_step rfl hstep rfl, rfl, rfl⟩

theorem persistSave_follows {v w : Locals} {hadSnapshot : Bool} {trace : MainTrace} {value : Nat}
    {s : Node} (h : (persistSave hadSnapshot v).Runs trace w)
    (hpc : s.pc = if hadSnapshot then .persistSave else .running) :
    ∃ s', Follows value s s' trace v w ∧ s'.pc = .running := by
  cases hadSnapshot with
  | false =>
    obtain ⟨rfl, rfl⟩ := runs_done.mp h
    exact ⟨s, follows_nil rfl, hpc⟩
  | true =>
    have hsave : s.pc = .persistSave := hpc
    unfold persistSave at h
    rw [if_pos rfl] at h
    obtain ⟨(result : Int), ⟨hresult, rfl, rfl⟩ | ⟨hresult, rest, rfl, hrest⟩⟩ :=
      runs_attempt (c := .start .paramPersistSave) h
    · have hfailed : result ≠ 0 := hresult
      have hstep : s.step (.persistSave result (decide (result = 0))) = some { s with
          stored := s.stored.afterSave s.bootCount (decide (result = 0))
          startupFailures := s.startupFailures + 1, pc := .running } := by
        simp [Node.step, hsave, hfailed]
      refine ⟨_, follows_step rfl hstep ?_, rfl⟩
      show s.startupFailures + 1 + v.startupFailures = s.startupFailures + (v.startupFailures + 1)
      omega
    · obtain ⟨rfl, rfl⟩ := runs_done.mp hrest
      obtain rfl : result = 0 := hresult
      have hstep : s.step (.persistSave 0 true) = some { s with
          stored := .saved s.bootCount, pc := .running } := by
        simp [Node.step, hsave]
      exact ⟨_, follows_step rfl hstep rfl, rfl⟩

/-- The wait is no step of the node. -/
theorem bootDelay_follows {v w : Locals} {trace : MainTrace} {value : Nat} {s : Node}
    (h : (bootDelay v).Runs trace w) : Follows value s s trace v w := by
  obtain ⟨(tested : UInt16), rest, rfl, hrest⟩ := runs_call.mp h
  split at hrest
  · obtain ⟨(logged : UInt16), rest, rfl, hlogged⟩ := runs_call.mp hrest
    obtain ⟨_, rest, rfl, hread⟩ := runs_call.mp hlogged
    obtain ⟨(slept : UInt16), rest, rfl, hslept⟩ := runs_call.mp hread
    obtain ⟨_, rest, rfl, hdone⟩ := runs_call.mp hslept
    obtain ⟨rfl, rfl⟩ := runs_done.mp hdone
    exact follows_nil rfl
  · obtain ⟨rfl, rfl⟩ := runs_done.mp hrest
    exact follows_nil rfl

theorem countRestart_follows {v w : Locals} {trace : MainTrace} {value : Nat} {s : Node}
    (hpersistence : cfg.paramPersistence = true) (h : (countRestart cfg v).Runs trace w)
    (hpc : s.pc = .persistLoad) (hrestores : Restores s.stored value trace) :
    ∃ s', Follows value s s' trace v w ∧ s'.pc = .running := by
  unfold countRestart at h
  rw [if_pos hpersistence] at h
  obtain ⟨loading, counting, ⟨v₁, hadSnapshot⟩, rfl, hload, hcount⟩ := runs_bind.mp h
  obtain ⟨s₁, h₁, hpc₁, hhad⟩ := persistLoad_follows hload hpc fun e he =>
    hrestores e (List.mem_append_left _ he)
  obtain ⟨_, saving, rfl, hsave⟩ := runs_call.mp hcount
  obtain ⟨s₂, hstep, hfailures, hpc₂⟩ : ∃ s₂, s₁.step .countRestart = some s₂
      ∧ s₂.startupFailures = s₁.startupFailures
      ∧ s₂.pc = if hadSnapshot then .persistSave else .running := by
    refine ⟨{ s₁ with
      bootCount := s₁.bootCount + 1
      pc := if s₁.hadSnapshot then .persistSave else .running }, ?_, rfl, by rw [hhad]⟩
    simp [Node.step, hpc₁]
  have h₂ : Follows value s₁ s₂ [⟨.run .bootCountRestart, ()⟩] v₁ v₁ :=
    follows_step rfl hstep (congrArg (· + v₁.startupFailures) hfailures)
  obtain ⟨s₃, h₃, hpc₃⟩ := persistSave_follows hsave hpc₂
  exact ⟨s₃, h₁.append (h₂.append h₃), hpc₃⟩

/-- The block of the parameters takes the node from power-on to its services. -/
theorem paramBlock_follows (value : Nat) {v w : Locals} {trace : MainTrace} {s : Node}
    (hpersistence : cfg.paramPersistence = true) (h : (paramBlock cfg v).Runs trace w)
    (hpc : s.pc = .paramInit) (hrestores : Restores s.stored value trace) :
    ∃ s', Follows value s s' trace v w ∧ s'.pc = .running := by
  obtain ⟨(result : Int), ⟨hresult, rfl, rfl⟩ | ⟨hresult, rest, rfl, hrest⟩⟩ :=
    runs_attempt (c := .paramInit (parameterSets cfg)) h
  · have hfailed : result ≠ 0 := hresult
    have hstep : s.step (.paramInit result) = some { s with
        startupFailures := s.startupFailures + 1, pc := .running } := by
      simp [Node.step, hpc, hfailed]
    refine ⟨_, follows_step rfl hstep ?_, rfl⟩
    show s.startupFailures + 1 + v.startupFailures = s.startupFailures + (v.startupFailures + 1)
    omega
  · obtain rfl : result = 0 := hresult
    obtain ⟨shown, rest, v₁, rfl, hshown, hrest⟩ := runs_bind.mp hrest
    obtain ⟨rfl, rfl⟩ := runs_inform.mp hshown
    obtain ⟨counting, waiting, v₂, rfl, hcount, hwait⟩ := runs_bind.mp hrest
    have hstep : s.step (.paramInit 0) = some { s with pc := .persistLoad } := by
      simp [Node.step, hpc]
    have h₁ : Follows value s { s with pc := .persistLoad }
        (⟨.paramInit (parameterSets cfg), (0 : Int)⟩
          :: [⟨.log .info "Parameter table initialized".toList, ()⟩]) v v :=
      follows_step rfl hstep rfl
    obtain ⟨s₂, h₂, hpc₂⟩ := countRestart_follows cfg (s := { s with pc := .persistLoad })
      hpersistence hcount rfl fun e he => hrestores e (by simp [he])
    exact ⟨s₂, h₁.append (h₂.append (bootDelay_follows hwait)), hpc₂⟩

/-- The calls of a block are those between its places of the text, or free. -/
theorem Begins.ranks {n m : Nat} {block : Locals → MainProg Locals} (hblock : Begins n m block)
    (service : Service) (hservice : service.ctorIdx + 1 = n) {v w : Locals} {past trace : MainTrace}
    (hpast : Begun n v past) (h : (block v).Runs trace w) :
    ∀ e ∈ trace, e.1.rank = 0 ∨ n < e.1.rank ∧ e.1.rank ≤ m := by
  intro e he
  by_cases hfree : e.1.rank = 0
  · exact .inl hfree
  refine .inr ⟨?_, (h.wp (hblock v past hpast)).2.below e (List.mem_append_right _ he)⟩
  -- on top of the last call that may come before, every call comes later
  have hlast : Begun n v (past ++ [⟨.run service, ()⟩]) :=
    hpast.call (.run service) () le_rfl hservice.le rfl rfl
  obtain ⟨before, after, rfl⟩ := List.append_of_mem he
  have hallowed := (h.wp (hblock v _ hlast)).1 before e after rfl
  have hlater := hallowed.in_order hfree ⟨.run service, ()⟩ (by simp)
  rwa [show MainCall.rank (.run service) = n from hservice] at hlater

/-- A free call does not fail. -/
theorem isFailure_of_free {e : Sigma MainReply} (h : e.1.rank = 0) : isFailure e = false := by
  obtain ⟨c, reply⟩ := e
  cases c with
  | systemBootDelayMs | systemAppReportMs | healthReport | log | sleep => rfl
  | _ => exact absurd h (Nat.succ_ne_zero _)

/-- The calls at the places 9 to 12 are the steps of the node. -/
theorem nodeEvent_isSome {value : Nat} {e : Sigma MainReply} (h : 8 < e.1.rank ∧ e.1.rank ≤ 12) :
    (nodeEvent value e).isSome = true := by
  unfold MainCall.rank at h
  unfold nodeEvent
  cases hservice : e.1.service with
  | none => simp [hservice] at h
  | some service =>
    rw [hservice] at h
    cases service <;> first | rfl | exact absurd h (by decide)

/-- What the node takes of a part away from the places 9 to 12: nothing. -/
theorem nodeEvents_away (value : Nat) {trace : MainTrace}
    (h : ∀ e ∈ trace, e.1.rank ≤ 8 ∨ 12 < e.1.rank) :
    nodeEvents value trace = []
      ∧ trace.countP (fun e => (nodeEvent value e).isSome && isFailure e) = 0 := by
  refine ⟨nodeEvents_eq_nil h, List.countP_eq_zero.mpr fun e he => ?_⟩
  rw [nodeEvent_eq_none (h e he)]
  exact Bool.false_ne_true

/-- **The boot of the node is the one of `main`**: in every run of the start-up of a node with
parameters that persist, the calls of the parameter block are a boot of the node, from power-on to
its services, as long as a load without an error has restored the snapshot.  The node counts the
failures of these calls, which are some of those that `main` counts. -/
theorem startUp_simulates (hparam : cfg.param = true) (hpersistence : cfg.paramPersistence = true)
    (stored : Snapshot) (value : Nat) (trace : MainTrace) (v : Locals)
    (h : (startUp cfg).Runs trace v) (hrestores : Restores stored value trace) :
    ∃ s, node.run (Node.unpowered stored) (.powerOn :: nodeEvents value trace) = some s
      ∧ s.pc = .running
      ∧ s.startupFailures = trace.countP fun e => (nodeEvent value e).isSome && isFailure e := by
  obtain ⟨blocked, rest, v₃, rfl, hblocks, hrest⟩ := runs_bind.mp h
  obtain ⟨_, served, rfl, hserved⟩ := runs_call.mp hrest
  obtain ⟨_, nothing, rfl, hdone⟩ := runs_call.mp hserved
  obtain ⟨rfl, -⟩ := runs_done.mp hdone
  rw [blocks, inSequence_append] at hblocks
  obtain ⟨early, blocked, v₁, rfl, hearly, hblocks⟩ := runs_bind.mp hblocks
  obtain ⟨block, late, v₂, rfl, hblock, hlate⟩ := runs_bind.mp hblocks
  unfold compiled at hblock
  rw [if_pos hparam] at hblock
  -- where each part lies in the text
  have hbegun₁ : Begun 8 v₁ early := ((early_begin cfg _).sound begun_nil hearly).2
  have hbegun₂ : Begun 12 v₂ (early ++ block) := (hblock.wp (begins_param cfg v₁ _ hbegun₁)).2
  have hranks := (begins_param cfg).ranks .storageTmpMount rfl hbegun₁ hblock
  obtain ⟨hnone₁, hcount₁⟩ := nodeEvents_away value fun e he =>
    .inl (hbegun₁.below e he)
  obtain ⟨hnone₂, hcount₂⟩ := nodeEvents_away value fun e he => by
    have := (late_begin cfg).ranks .paramPersistSave rfl hbegun₂ hlate e he
    omega
  have hnode : nodeEvents value (early ++ (block ++ late)
      ++ [⟨.marker (markerText v₃.startupFailures), ()⟩, ⟨.run .bootServiceStart, ()⟩])
      = nodeEvents value block := by
    unfold nodeEvents at hnone₁ hnone₂ ⊢
    rw [List.filterMap_append, List.filterMap_append, List.filterMap_append, hnone₁, hnone₂]
    simp [nodeEvent, MainCall.service]
  -- the block starts from a node that has been powered
  obtain ⟨s, hfollows, hpc⟩ := paramBlock_follows cfg value hpersistence hblock
    (s := { Node.unpowered stored with pc := .paramInit }) rfl fun e he => hrestores e (by simp [he])
  refine ⟨s, ?_, hpc, ?_⟩
  · rw [hnode]
    exact node.run_cons_eq_some.mpr ⟨_, by simp [node, Node.step, Node.unpowered], hfollows.run⟩
  · have hfailed : block.countP (fun e => (nodeEvent value e).isSome && isFailure e)
        = block.countP isFailure := by
      refine List.countP_congr fun e he => ?_
      rcases hranks e he with hfree | hplace
      · simp [isFailure_of_free hfree]
      · simp [nodeEvent_isSome hplace]
    have h₁ := hbegun₁.failures
    have h₂ := hbegun₂.failures
    rw [List.countP_append] at h₂
    have hfollowed : s.startupFailures + v₁.startupFailures = 0 + v₂.startupFailures :=
      hfollows.failures
    rw [List.countP_append, List.countP_append, List.countP_append, hcount₁, hcount₂, hfailed]
    simp [nodeEvent, MainCall.service]
    omega

/-- A node with a saved count, whose services all come up. -/
def savingNode : MainConfig := { bareNode with param := true, paramPersistence := true }

theorem startUp_simulates_saved :
    ∃ s, node.run (Node.unpowered (.saved 7))
        (.powerOn :: nodeEvents 7 ((startUp savingNode).exec (answering fun _ => 0)).1) = some s
      ∧ s.pc = .running ∧ s.startupFailures = 0 := by
  obtain ⟨s, hrun, hpc, hfailures⟩ := startUp_simulates savingNode rfl rfl (.saved 7) 7 _ _
    (runs_exec (answering fun _ => 0) (startUp savingNode)) fun _ _ _ _ => rfl
  exact ⟨s, hrun, hpc, hfailures.trans rfl⟩

end KFsw.App
