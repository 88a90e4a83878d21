/-
  KFsw.App.RebootPin — the reboot pin of `app/src/parameters/system_table.c` and
  the two commands it guards, `command_reboot` and `command_golden_install` of
  `app/src/commands/command_definitions.c`, in builds with the parameter service.

  A C text is the list of its bytes before the NUL.  The parameter service
  stores a text its validator accepts, or the default; the commands are programs
  over the calls that install the golden image and schedule the reset.

  Main results:
    * `rebootPinMatches_iff`  — the comparison accepts the stored pin alone;
    * `storePin_valid`        — a write keeps the pin one to eight digits;
    * `commandReboot_guarded`, `commandGoldenInstall_guarded` — a command calls
      something exactly when it quotes the stored pin;
    * `reboot_pin_guards`     — all of this over every run of writes and commands.
-/
import KFsw.App.CommandDefinitions
import KFsw.Lib.Bytes
import Mathlib.Data.List.GetD

namespace KFsw.App

open KFsw.Lib Prog

/-! ## §1. The pin. -/

/-- Longest reboot pin, plus a terminator. -/
def KFSW_SYSTEM_REBOOT_PIN_SIZE : Nat := 9

/-- `"0000"`. -/
def REBOOT_PIN_DEFAULT : Bytes := [0x30, 0x30, 0x30, 0x30]

/-- The loop of `validate_reboot_pin`. -/
def validateDigits : Bytes → Int
  | [] => 0
  | c :: text => if c < 0x30 ∨ c > 0x39 then -EINVAL else validateDigits text

/-- `validate_reboot_pin`. -/
def validateRebootPin (text : Bytes) : Int :=
  let length := text.length
  if length = 0 ∨ length ≥ KFSW_SYSTEM_REBOOT_PIN_SIZE then -EINVAL else validateDigits text

/-- The loop of `kfsw_system_reboot_pin_matches`, over the `n` first bytes. -/
def pinDifference (pin stored : Bytes) (n : Nat) : UInt8 :=
  (List.range n).foldl
    (fun difference index => difference ||| (pin.getD index 0 ^^^ stored.getD index 0)) 0

/-- `kfsw_system_reboot_pin_matches`; no text for a NULL pointer. -/
def rebootPinMatches (stored : Bytes) : Option Bytes → Bool
  | none => false
  | some pin =>
    if pin.length ≠ stored.length then false
    -- every byte is compared
    else decide (pinDifference pin stored stored.length = 0)

/-- A pin the parameter can hold: one to eight decimal digits. -/
def ValidPin (pin : Bytes) : Prop :=
  (1 ≤ pin.length ∧ pin.length ≤ 8) ∧ ∀ c ∈ pin, 0x30 ≤ c ∧ c ≤ 0x39

instance (pin : Bytes) : Decidable (ValidPin pin) :=
  @instDecidableAnd _ _ inferInstance (List.decidableBAll _ pin)

/-- The digits the loop accepts. -/
theorem validateDigits_eq (text : Bytes) :
    validateDigits text = 0 ↔ ∀ c ∈ text, 0x30 ≤ c ∧ c ≤ 0x39 := by
  induction text with
  | nil => simp [validateDigits]
  | cons c text ih =>
    rw [validateDigits, List.forall_mem_cons, ← ih]
    by_cases hc : c < 0x30 ∨ c > 0x39
    · rw [if_pos hc]
      refine iff_of_false (by decide) ?_
      rintro ⟨⟨hlow, hhigh⟩, -⟩
      rcases hc with hc | hc
      · exact absurd hc (UInt8.not_lt.mpr hlow)
      · exact absurd hc (UInt8.not_lt.mpr hhigh)
    · rw [if_neg hc]
      rw [not_or, UInt8.not_lt, UInt8.not_lt] at hc
      exact (and_iff_right hc).symm

/-- **The validator accepts one to eight decimal digits.** -/
theorem validateRebootPin_iff (text : Bytes) : validateRebootPin text = 0 ↔ ValidPin text := by
  unfold validateRebootPin ValidPin KFSW_SYSTEM_REBOOT_PIN_SIZE
  by_cases hlen : text.length = 0 ∨ text.length ≥ 9
  · rw [if_pos hlen]
    refine iff_of_false (by decide) ?_
    rintro ⟨⟨hmin, hmax⟩, -⟩
    omega
  · rw [if_neg hlen, validateDigits_eq]
    refine (and_iff_right ?_).symm
    omega

/-! ## §2. The comparison. -/

/-- Bits that were set stay set: the loop ends in zero exactly when no byte differs. -/
theorem pinDifference_eq_zero (pin stored : Bytes) (n : Nat) :
    pinDifference pin stored n = 0 ↔ ∀ index < n, pin.getD index 0 = stored.getD index 0 := by
  induction n with
  | zero => simp [pinDifference]
  | succ n ih =>
    have hstep : pinDifference pin stored (n + 1)
        = pinDifference pin stored n ||| (pin.getD n 0 ^^^ stored.getD n 0) := by
      rw [pinDifference, List.range_succ, List.foldl_append]
      rfl
    rw [hstep, UInt8.or_eq_zero_iff, ih, UInt8.xor_eq_zero_iff]
    constructor
    · rintro ⟨hbefore, hlast⟩ index hindex
      rcases Nat.lt_succ_iff_lt_or_eq.mp hindex with hindex | rfl
      · exact hbefore index hindex
      · exact hlast
    · intro h
      exact ⟨fun index hindex => h index (Nat.lt_succ_of_lt hindex), h n (Nat.lt_succ_self n)⟩

/-- **The comparison accepts the stored pin alone**: no prefix of it, no longer text, no NULL. -/
theorem rebootPinMatches_iff (stored : Bytes) (pin : Option Bytes) :
    rebootPinMatches stored pin = true ↔ pin = some stored := by
  cases pin with
  | none => simp [rebootPinMatches]
  | some pin =>
    unfold rebootPinMatches
    dsimp only
    by_cases hlen : pin.length ≠ stored.length
    · rw [if_pos hlen]
      refine iff_of_false (by decide) ?_
      intro h
      exact hlen (congrArg List.length (Option.some.inj h))
    · rw [if_neg hlen, decide_eq_true_eq, pinDifference_eq_zero, Option.some.injEq]
      rw [not_not] at hlen
      constructor
      · intro h
        apply List.ext_getElem hlen
        intro index hpin hstored
        have hindex := h index hstored
        rwa [List.getD_eq_getElem pin 0 hpin, List.getD_eq_getElem stored 0 hstored] at hindex
      · rintro rfl index _
        rfl

/-! ## §3. The commands. -/

/-- The calls by which a command resets the node or installs the golden image. -/
inductive ResetCall where
  /-- `kfsw_golden_install`. -/
  | goldenInstall
  /-- `k_work_schedule(&reboot_work, K_MSEC(delay))`. -/
  | scheduleReboot (delayMs : Nat)
  deriving DecidableEq

/-- A command over these calls; each of them answers with a result code. -/
abbrev ResetProg (α : Type) := Prog ResetCall (fun _ => Int) α

def KFSW_COMMAND_REBOOT_DELAY_MS : Nat := 500

section Commands

variable (cfg : HkConfig) (stored : Bytes)

/-- The refusal of both commands. -/
def wrongPin (result : CommandResult) : ResetProg (Int × CommandResult) :=
  .done (-EACCES, CommandResult.setDetail cfg { result with status := .denied } "wrong pin".toList)

/-- The end of both commands: reset after a short delay, so the reply is sent first. -/
def scheduleReboot (result : CommandResult) : ResetProg (Int × CommandResult) :=
  .call (.scheduleReboot KFSW_COMMAND_REBOOT_DELAY_MS) fun (outcome : Int) =>
    if outcome < 0 then .done (-EBUSY, { result with status := .busy })
    else
      .done (0, CommandResult.setDetail cfg { result with status := .ok }
        ("rebooting in ".toList ++ decimal KFSW_COMMAND_REBOOT_DELAY_MS ++ " ms".toList))

theorem scheduleReboot_firstCall (result : CommandResult) :
    (scheduleReboot cfg result).firstCall = some (.scheduleReboot KFSW_COMMAND_REBOOT_DELAY_MS) :=
  rfl

/-- `command_golden_install`. -/
def commandGoldenInstall (text : Bytes) (result : CommandResult) :
    ResetProg (Int × CommandResult) :=
  if rebootPinMatches stored (some text) = false then wrongPin cfg result
  else
    .call .goldenInstall fun (outcome : Int) =>
      if outcome ≠ 0 then
        .done (outcome, CommandResult.setDetail cfg
          { result with status := if outcome = -ENOENT then .denied else .failed }
          ("install failed (".toList ++ signedDecimal outcome ++ ")".toList))
      else scheduleReboot cfg result

/-- `command_reboot`. -/
def commandReboot (text : Bytes) (result : CommandResult) : ResetProg (Int × CommandResult) :=
  if rebootPinMatches stored (some text) = false then wrongPin cfg result
  else scheduleReboot cfg result

/-- **What the pin guards**: a program behind the pin calls something exactly when the text is
the stored pin. -/
theorem guarded {text : Bytes} {result : CommandResult} {run : ResetProg (Int × CommandResult)}
    (hrun : run.firstCall ≠ none) :
    let command := if rebootPinMatches stored (some text) = false then wrongPin cfg result else run
    command.Calls (fun _ => text = stored) ∧ (command.firstCall ≠ none ↔ text = stored) := by
  have hmatch : rebootPinMatches stored (some text) = true ↔ text = stored := by
    rw [rebootPinMatches_iff, Option.some.injEq]
  intro command
  by_cases htext : text = stored
  · have hrunning : command = run := by
      show (if _ then _ else _) = _
      rw [if_neg (by rw [hmatch.mpr htext]; decide)]
    rw [hrunning]
    exact ⟨calls_of_forall run fun _ => htext, iff_of_true hrun htext⟩
  · have hrefused : command = wrongPin cfg result := by
      show (if _ then _ else _) = _
      rw [if_pos]
      rw [Bool.eq_false_iff]
      exact fun h => htext (hmatch.mp h)
    rw [hrefused]
    exact ⟨trivial, iff_of_false (fun h => h rfl) htext⟩

theorem commandReboot_guarded (text : Bytes) (result : CommandResult) :
    (commandReboot cfg stored text result).Calls (fun _ => text = stored)
      ∧ ((commandReboot cfg stored text result).firstCall ≠ none ↔ text = stored) :=
  guarded cfg stored (by rw [scheduleReboot_firstCall]; exact Option.some_ne_none _)

theorem commandGoldenInstall_guarded (text : Bytes) (result : CommandResult) :
    (commandGoldenInstall cfg stored text result).Calls (fun _ => text = stored)
      ∧ ((commandGoldenInstall cfg stored text result).firstCall ≠ none ↔ text = stored) :=
  guarded cfg stored (Option.some_ne_none ResetCall.goldenInstall)

end Commands

/-! ## §4. Runs. -/

/-- A write of the parameter, or a command with the text it quotes. -/
inductive PinEvent where
  | write (text : Bytes)
  | restoreDefault
  | reboot (text : Bytes)
  | goldenInstall (text : Bytes)
  deriving DecidableEq

/-- The stored pin after an event: the parameter service stores a text its validator accepts,
or the default. -/
def storePin (stored : Bytes) : PinEvent → Bytes
  | .write text => if validateRebootPin text = 0 then text else stored
  | .restoreDefault => REBOOT_PIN_DEFAULT
  | .reboot _ | .goldenInstall _ => stored

/-- The stored pin after some events. -/
def pinAfter (events : List PinEvent) : Bytes := events.foldl storePin REBOOT_PIN_DEFAULT

/-- The command an event runs, if it is one. -/
def commandOf (cfg : HkConfig) (stored : Bytes) (result : CommandResult) :
    PinEvent → ResetProg (Int × CommandResult)
  | .reboot text => commandReboot cfg stored text result
  | .goldenInstall text => commandGoldenInstall cfg stored text result
  | .write _ | .restoreDefault => .done (0, result)

/-- The pin an event quotes. -/
def PinEvent.quoted : PinEvent → Option Bytes
  | .reboot text | .goldenInstall text => some text
  | .write _ | .restoreDefault => none

/-- **A write keeps the pin valid.** -/
theorem storePin_valid {stored : Bytes} (h : ValidPin stored) (event : PinEvent) :
    ValidPin (storePin stored event) := by
  cases event with
  | write text =>
    show ValidPin (if _ then _ else _)
    split
    · rename_i hvalid
      exact (validateRebootPin_iff text).mp hvalid
    · exact h
  | restoreDefault => exact (by decide : ValidPin REBOOT_PIN_DEFAULT)
  | reboot text => exact h
  | goldenInstall text => exact h

theorem pinAfter_valid (events : List PinEvent) : ValidPin (pinAfter events) := by
  have hrun : ∀ stored, ValidPin stored → ValidPin (events.foldl storePin stored) := by
    induction events with
    | nil => exact fun _ h => h
    | cons event events ih => exact fun stored h => ih _ (storePin_valid h event)
  exact hrun REBOOT_PIN_DEFAULT (by decide)

/-- **The reboot pin guards every commanded reset**: after any run of writes and commands the
stored pin is one to eight decimal digits, the comparison accepts it alone, and the next event
schedules a reset or installs the golden image, whatever these calls answer, only as a command
that quotes it; a command that quotes it does call. -/
theorem reboot_pin_guards (cfg : HkConfig) (events : List PinEvent) :
    let stored := pinAfter events
    ((1 ≤ stored.length ∧ stored.length ≤ 8) ∧ ∀ c ∈ stored, 0x30 ≤ c ∧ c ≤ 0x39)
      ∧ (∀ pin, rebootPinMatches stored pin = true ↔ pin = some stored)
      ∧ ∀ event result,
          (commandOf cfg stored result event).Calls (fun _ => event.quoted = some stored)
            ∧ ((commandOf cfg stored result event).firstCall ≠ none
              ↔ event.quoted = some stored) := by
  intro stored
  refine ⟨pinAfter_valid events, rebootPinMatches_iff stored, ?_⟩
  intro event result
  cases event with
  | reboot text =>
    have hquoted : (PinEvent.reboot text).quoted = some stored ↔ text = stored :=
      Option.some_inj
    simp only [hquoted]
    exact commandReboot_guarded cfg stored text result
  | goldenInstall text =>
    have hquoted : (PinEvent.goldenInstall text).quoted = some stored ↔ text = stored :=
      Option.some_inj
    simp only [hquoted]
    exact commandGoldenInstall_guarded cfg stored text result
  | write text => exact ⟨trivial, iff_of_false (fun h => h rfl) (by simp [PinEvent.quoted])⟩
  | restoreDefault => exact ⟨trivial, iff_of_false (fun h => h rfl) (by simp [PinEvent.quoted])⟩

/-- A prefix of the pin is refused, and so is the old pin after a write. -/
example : (commandReboot exampleBuild (pinAfter [.write [0x37, 0x37]]) [0x37] ⟨.ok, []⟩).firstCall
      = none
    ∧ (commandReboot exampleBuild (pinAfter [.write [0x37, 0x37]]) REBOOT_PIN_DEFAULT
      ⟨.ok, []⟩).firstCall = none := by decide

end KFsw.App
