/-
  KFsw.App.BootRestart — the restart count in a node's boot, `app/src/main.c`.

  The boot initialises the parameters, restores the saved snapshot, counts the
  restart in RAM, and writes the snapshot back when there was one.  `Node.step`
  is one step of this code, with what the parameter services answer, or the
  power going, or an operator's command on the running node.

  What the services promise stands in the steps: a load that succeeds has
  restored the saved value, counting adds one in RAM, and a save leaves the old
  snapshot or the new one.

  Main results:
    * `step_cases`             — what each step requires and does;
    * `step_stored`            — no step of the boot makes or loses a snapshot;
    * `run_since`              — within one boot the saved count rises by at
      most one;
    * `run_save`, `run_unread` — by one with a successful save, and not at all
      after a load that failed;
    * `restart_count_survives` — so it does in every boot of every history.
-/
import KFsw.App.HkEntries
import KFsw.Lib.Machine

namespace KFsw.App

open KFsw.Lib

/-! ## §1. The node. -/

/-- The parameter snapshot in flash, for the restart count in it. -/
inductive Snapshot where
  | missing
  | unreadable
  | saved (bootCount : Nat)
  deriving DecidableEq

/-- Where the boot is. -/
inductive Pc where
  | off
  | paramInit
  | persistLoad
  | countRestart
  | persistSave
  | running
  deriving DecidableEq

structure Node where
  stored : Snapshot
  /-- `boot_count` in RAM. -/
  bootCount : Nat
  hadSnapshot : Bool
  startupFailures : Nat
  pc : Pc
  deriving DecidableEq

/-- A node that is switched off. -/
def Node.unpowered (stored : Snapshot) : Node :=
  { stored := stored, bootCount := 0, hadSnapshot := false, startupFailures := 0, pc := .off }

/-- What happens next.  A result is what a service returns; `written` is whether the new
snapshot is in flash when the save or the power is gone. -/
inductive NodeEvent where
  | powerOn
  | powerCut (written : Bool)
  | paramInit (result : Int)
  | persistLoad (result : Int) (value : Nat)
  | countRestart
  | persistSave (result : Int) (written : Bool)
  | operatorSave (result : Int) (written : Bool)
  | operatorClear (result : Int)
  /-- `param load` and `param defaults` change RAM only. -/
  | operatorRestore (value : Nat)
  deriving DecidableEq

/-- A command of the operator. -/
def NodeEvent.isOperator : NodeEvent → Bool
  | .operatorSave _ _ | .operatorClear _ | .operatorRestore _ => true
  | _ => false

/-- The snapshot after an atomic save of `bootCount`. -/
def Snapshot.afterSave (stored : Snapshot) (bootCount : Nat) (written : Bool) : Snapshot :=
  if written then .saved bootCount else stored

/-! ## §2. The boot. -/

/-- One step of the node. -/
def Node.step (s : Node) : NodeEvent → Option Node
  | .powerOn =>
    if s.pc = .off then some { Node.unpowered s.stored with pc := .paramInit } else none
  | .powerCut written =>
    if s.pc = .off then none
    -- only a save that is under way can have written
    else if s.pc = .persistSave then
      some (Node.unpowered (s.stored.afterSave s.bootCount written))
    else some (Node.unpowered s.stored)
  | .paramInit result =>
    if s.pc ≠ .paramInit then none
    else if result ≠ 0 then
      some { s with startupFailures := s.startupFailures + 1, pc := .running }
    else some { s with pc := .persistLoad }
  | .persistLoad result value =>
    if s.pc ≠ .persistLoad then none
    else if result = 0 then
      if s.stored = .saved value then
        some { s with bootCount := value, hadSnapshot := true, pc := .countRestart }
      else none
    else
      -- no snapshot is the ordinary case, any other error a failure
      some { s with
        bootCount := value
        hadSnapshot := false
        startupFailures := if result = -ENOENT then s.startupFailures else s.startupFailures + 1
        pc := .countRestart }
  | .countRestart =>
    if s.pc ≠ .countRestart then none
    else
      let s := { s with bootCount := s.bootCount + 1 }
      some { s with pc := if s.hadSnapshot then .persistSave else .running }
  | .persistSave result written =>
    if s.pc ≠ .persistSave then none
    else if result = 0 then
      if written then some { s with stored := .saved s.bootCount, pc := .running } else none
    else
      some { s with
        stored := s.stored.afterSave s.bootCount written
        startupFailures := s.startupFailures + 1
        pc := .running }
  | .operatorSave result written =>
    if s.pc ≠ .running ∨ (result = 0 ∧ written = false) then none
    else some { s with stored := s.stored.afterSave s.bootCount written }
  | .operatorClear result =>
    if s.pc ≠ .running then none
    else some { s with stored := if result = 0 then .missing else s.stored }
  | .operatorRestore value =>
    if s.pc ≠ .running then none else some { s with bootCount := value }

/-- The node as a machine. -/
def node : Machine Node NodeEvent := ⟨Node.step⟩

/-! ## §3. One step. -/

/-- Every step that can happen, with what it requires of the state before. -/
inductive Node.Steps (s : Node) : NodeEvent → Node → Prop
  | powerOn (hpc : s.pc = .off) :
      Steps s .powerOn { Node.unpowered s.stored with pc := .paramInit }
  | cut (written : Bool) (hpc : s.pc ≠ .off) (hsave : s.pc ≠ .persistSave) :
      Steps s (.powerCut written) (Node.unpowered s.stored)
  | saveCut (written : Bool) (hpc : s.pc = .persistSave) :
      Steps s (.powerCut written) (Node.unpowered (s.stored.afterSave s.bootCount written))
  | initFailed (result : Int) (hpc : s.pc = .paramInit) (hresult : result ≠ 0) :
      Steps s (.paramInit result)
        { s with startupFailures := s.startupFailures + 1, pc := .running }
  | initialised (hpc : s.pc = .paramInit) :
      Steps s (.paramInit 0) { s with pc := .persistLoad }
  | restored (value : Nat) (hpc : s.pc = .persistLoad) (hstored : s.stored = .saved value) :
      Steps s (.persistLoad 0 value)
        { s with bootCount := value, hadSnapshot := true, pc := .countRestart }
  | notRestored (result : Int) (value failures : Nat) (hpc : s.pc = .persistLoad)
      (hresult : result ≠ 0) :
      Steps s (.persistLoad result value)
        { s with
          bootCount := value
          hadSnapshot := false
          startupFailures := failures
          pc := .countRestart }
  | counted (hpc : s.pc = .countRestart) :
      Steps s .countRestart
        { s with
          bootCount := s.bootCount + 1
          pc := if s.hadSnapshot then .persistSave else .running }
  | saved (hpc : s.pc = .persistSave) :
      Steps s (.persistSave 0 true) { s with stored := .saved s.bootCount, pc := .running }
  | saveFailed (result : Int) (written : Bool) (hpc : s.pc = .persistSave) (hresult : result ≠ 0) :
      Steps s (.persistSave result written)
        { s with
          stored := s.stored.afterSave s.bootCount written
          startupFailures := s.startupFailures + 1
          pc := .running }
  | operatorSave (result : Int) (written : Bool) (hpc : s.pc = .running) :
      Steps s (.operatorSave result written)
        { s with stored := s.stored.afterSave s.bootCount written }
  | operatorClear (result : Int) (hpc : s.pc = .running) :
      Steps s (.operatorClear result)
        { s with stored := if result = 0 then .missing else s.stored }
  | operatorRestore (value : Nat) (hpc : s.pc = .running) :
      Steps s (.operatorRestore value) { s with bootCount := value }

/-- **What a step does**, case by case. -/
theorem step_cases {s s' : Node} {e : NodeEvent} (h : s.step e = some s') : s.Steps e s' := by
  unfold Node.step at h
  cases e with
  | powerOn =>
    obtain ⟨hpc, hnext⟩ := Option.ite_none_right_eq_some.mp h
    rw [← Option.some.inj hnext]
    exact .powerOn hpc
  | powerCut written =>
    obtain ⟨hpc, hnext⟩ := Option.ite_none_left_eq_some.mp h
    split at hnext
    · rename_i hsave
      rw [← Option.some.inj hnext]
      exact .saveCut written hsave
    · rename_i hsave
      rw [← Option.some.inj hnext]
      exact .cut written hpc hsave
  | paramInit result =>
    obtain ⟨hpc, hnext⟩ := Option.ite_none_left_eq_some.mp h
    split at hnext
    · rename_i hresult
      rw [← Option.some.inj hnext]
      exact .initFailed result (not_not.mp hpc) hresult
    · rename_i hresult
      obtain rfl := not_not.mp hresult
      rw [← Option.some.inj hnext]
      exact .initialised (not_not.mp hpc)
  | persistLoad result value =>
    obtain ⟨hpc, hnext⟩ := Option.ite_none_left_eq_some.mp h
    split at hnext
    · rename_i hresult
      obtain rfl := hresult
      obtain ⟨hstored, hload⟩ := Option.ite_none_right_eq_some.mp hnext
      rw [← Option.some.inj hload]
      exact .restored value (not_not.mp hpc) hstored
    · rename_i hresult
      rw [← Option.some.inj hnext]
      exact .notRestored result value _ (not_not.mp hpc) hresult
  | countRestart =>
    obtain ⟨hpc, hnext⟩ := Option.ite_none_left_eq_some.mp h
    rw [← Option.some.inj hnext]
    exact .counted (not_not.mp hpc)
  | persistSave result written =>
    obtain ⟨hpc, hnext⟩ := Option.ite_none_left_eq_some.mp h
    split at hnext
    · rename_i hresult
      obtain rfl := hresult
      obtain ⟨rfl, hsave⟩ := Option.ite_none_right_eq_some.mp hnext
      rw [← Option.some.inj hsave]
      exact .saved (not_not.mp hpc)
    · rename_i hresult
      rw [← Option.some.inj hnext]
      exact .saveFailed result written (not_not.mp hpc) hresult
  | operatorSave result written =>
    obtain ⟨hpc, hnext⟩ := Option.ite_none_left_eq_some.mp h
    rw [← Option.some.inj hnext]
    exact .operatorSave result written (not_not.mp (not_or.mp hpc).1)
  | operatorClear result =>
    obtain ⟨hpc, hnext⟩ := Option.ite_none_left_eq_some.mp h
    rw [← Option.some.inj hnext]
    exact .operatorClear result (not_not.mp hpc)
  | operatorRestore value =>
    obtain ⟨hpc, hnext⟩ := Option.ite_none_left_eq_some.mp h
    rw [← Option.some.inj hnext]
    exact .operatorRestore value (not_not.mp hpc)

/-- Where the boot code has done its part, or the node is off. -/
def Node.Idle (s : Node) : Prop := s.pc = .off ∨ s.pc = .running

/-- In the middle of the boot code. -/
theorem not_idle {s : Node} {pc : Pc} (hpc : s.pc = pc) (hoff : pc ≠ .off)
    (hrunning : pc ≠ .running) : ¬ s.Idle := by
  rintro (h | h)
  · exact hoff (hpc.symm.trans h)
  · exact hrunning (hpc.symm.trans h)

/-- What RAM holds on the way to the save: the saved count, then one more. -/
structure Node.Ready (s : Node) : Prop where
  counting : s.pc = .countRestart → s.hadSnapshot = true → s.stored = .saved s.bootCount
  saving : s.pc = .persistSave → ∃ n, s.stored = .saved n ∧ s.bootCount = n + 1

theorem ready_of_pc {s : Node} (hcount : s.pc ≠ .countRestart) (hsave : s.pc ≠ .persistSave) :
    s.Ready :=
  ⟨fun h => absurd h hcount, fun h => absurd h hsave⟩

theorem ready_of_idle {s : Node} (h : s.Idle) : s.Ready := by
  apply ready_of_pc
  · rcases h with h | h <;> rw [h] <;> decide
  · rcases h with h | h <;> rw [h] <;> decide

/-- What a step that is no command of the operator does: the snapshot stays as it is, or the
save has written the new one and the boot code is done. -/
inductive Quiet (s : Node) (e : NodeEvent) (s' : Node) : Prop
  | kept (hstored : s'.stored = s.stored) (hidle : s.Idle → e = .powerOn ∨ s'.Idle)
  | written (hpc : s.pc = .persistSave) (hstored : s'.stored = .saved s.bootCount)
      (hidle : s'.Idle)

/-- A save on the way, written or not. -/
theorem quiet_of_save {s s' : Node} {e : NodeEvent} {written : Bool} (hpc : s.pc = .persistSave)
    (hstored : s'.stored = s.stored.afterSave s.bootCount written) (hidle : s'.Idle) :
    Quiet s e s' := by
  cases written with
  | true => exact .written hpc hstored hidle
  | false => exact .kept hstored fun _ => .inr hidle

/-- **One step of the boot.** -/
theorem step_quiet {s s' : Node} {e : NodeEvent} (he : e.isOperator = false)
    (h : s.step e = some s') : Quiet s e s' := by
  -- away from the idle states nothing is said about where the step leads
  have hbusy : ∀ {pc}, s.pc = pc → pc ≠ .off → pc ≠ .running → s'.stored = s.stored →
      Quiet s e s' :=
    fun hpc hoff hrunning hstored => .kept hstored fun hidle =>
      absurd hidle (not_idle hpc hoff hrunning)
  cases step_cases h with
  | powerOn _ => exact .kept rfl fun _ => .inl rfl
  | cut written _ _ => exact .kept rfl fun _ => .inr (.inl rfl)
  | saveCut written hpc => exact quiet_of_save hpc rfl (.inl rfl)
  | initFailed result hpc _ => exact hbusy hpc (by decide) (by decide) rfl
  | initialised hpc => exact hbusy hpc (by decide) (by decide) rfl
  | restored value hpc _ => exact hbusy hpc (by decide) (by decide) rfl
  | notRestored result value failures hpc _ => exact hbusy hpc (by decide) (by decide) rfl
  | counted hpc => exact hbusy hpc (by decide) (by decide) rfl
  | saved hpc => exact .written hpc rfl (.inr rfl)
  | saveFailed result written hpc _ => exact quiet_of_save hpc rfl (.inr rfl)
  | operatorSave => exact absurd he (by simp [NodeEvent.isOperator])
  | operatorClear => exact absurd he (by simp [NodeEvent.isOperator])
  | operatorRestore => exact absurd he (by simp [NodeEvent.isOperator])

/-- **Every step keeps what RAM is to hold.** -/
theorem step_ready (s : Node) (e : NodeEvent) (s' : Node) (hs : s.Ready)
    (h : s.step e = some s') : s'.Ready := by
  cases step_cases h with
  | powerOn _ => exact ready_of_pc (by simp) (by simp)
  | cut written _ _ => exact ready_of_idle (.inl rfl)
  | saveCut written _ => exact ready_of_idle (.inl rfl)
  | initFailed result _ _ => exact ready_of_idle (.inr rfl)
  | initialised _ => exact ready_of_pc (by simp) (by simp)
  | restored value _ hstored => exact ⟨fun _ _ => hstored, fun hpc => absurd hpc (by simp)⟩
  | notRestored result value failures _ _ =>
    exact ⟨fun _ hhad => absurd hhad (by simp), fun hpc => absurd hpc (by simp)⟩
  | counted hpc =>
    -- the save is reached with a snapshot that was restored
    cases hhad : s.hadSnapshot with
    | true => exact ⟨fun hpc' => absurd hpc' (by simp), fun _ =>
        ⟨s.bootCount, hs.counting hpc hhad, rfl⟩⟩
    | false => exact ready_of_pc (by simp) (by simp)
  | saved _ => exact ready_of_idle (.inr rfl)
  | saveFailed result written _ _ => exact ready_of_idle (.inr rfl)
  | operatorSave result written hpc => exact ready_of_idle (.inr hpc)
  | operatorClear result hpc => exact ready_of_idle (.inr hpc)
  | operatorRestore value hpc => exact ready_of_idle (.inr hpc)

/-- **No step of the boot makes or loses a snapshot**: it leaves it as it is, or raises the
count in it by one. -/
theorem step_stored {s s' : Node} {e : NodeEvent} (hs : s.Ready) (he : e.isOperator = false)
    (h : s.step e = some s') :
    s'.stored = s.stored ∨ ∃ n, s.stored = .saved n ∧ s'.stored = .saved (n + 1) := by
  cases step_quiet he h with
  | kept hstored _ => exact .inl hstored
  | written hpc hstored _ =>
    obtain ⟨n, hn, hcount⟩ := hs.saving hpc
    exact .inr ⟨n, hn, by rw [hstored, hcount]⟩

/-! ## §4. One boot. -/

/-- An event within one boot, before any command of the operator. -/
def NodeEvent.OfBoot (e : NodeEvent) : Prop := e.isOperator = false ∧ e ≠ .powerOn

/-- The boot has written the count that was saved at power-on, plus one, and is done. -/
def Raised (start : Snapshot) (s : Node) : Prop :=
  s.Idle ∧ ∃ n, start = .saved n ∧ s.stored = .saved (n + 1)

/-- What a boot has done since power-on: nothing, or its one save. -/
structure Since (start : Snapshot) (s : Node) : Prop where
  ready : s.Ready
  stored : s.stored = start ∨ Raised start s

/-- A boot that is done stays done until the next power-on. -/
theorem step_raised {start : Snapshot} {s s' : Node} {e : NodeEvent} (hs : Raised start s)
    (he : e.OfBoot) (h : s.step e = some s') : Raised start s' := by
  obtain ⟨hidle, n, hn, hstored⟩ := hs
  cases step_quiet he.1 h with
  | kept hkept hnext => exact ⟨(hnext hidle).resolve_left he.2, n, hn, hkept.trans hstored⟩
  | written hpc _ _ => exact absurd hidle (not_idle hpc (by decide) (by decide))

theorem step_since {start : Snapshot} {s s' : Node} {e : NodeEvent} (hs : Since start s)
    (he : e.OfBoot) (h : s.step e = some s') : Since start s' := by
  refine ⟨step_ready s e s' hs.ready h, ?_⟩
  rcases hs.stored with hstored | hraised
  · cases step_quiet he.1 h with
    | kept hkept _ => exact .inl (hkept.trans hstored)
    | written hpc hwritten hidle =>
      obtain ⟨n, hn, hcount⟩ := hs.ready.saving hpc
      exact .inr ⟨hidle, n, hstored.symm.trans hn, by rw [hwritten, hcount]⟩
  · exact .inr (step_raised hraised he h)

/-- **One boot**, as far as it gets: the snapshot is the one of power-on, or its count has been
raised by one. -/
theorem run_since {start : Snapshot} {s s' : Node} {steps : List NodeEvent} (hs : Since start s)
    (hsteps : ∀ e ∈ steps, e.OfBoot) (h : node.run s steps = some s') : Since start s' :=
  node.run_invariant (fun _ _ _ hs he h => step_since hs he h) hs hsteps h

/-- The save itself. -/
theorem step_save {start : Snapshot} {s s' : Node} {written : Bool} (hs : Since start s)
    (h : s.step (.persistSave 0 written) = some s') : Raised start s' := by
  cases step_cases h with
  | saved hpc =>
    obtain ⟨n, hn, hcount⟩ := hs.ready.saving hpc
    have hstart : s.stored = start :=
      hs.stored.resolve_right fun hraised =>
        absurd hraised.1 (not_idle hpc (by decide) (by decide))
    exact ⟨.inr rfl, n, hstart.symm.trans hn, congrArg Snapshot.saved hcount⟩
  | saveFailed _ _ _ hresult => exact absurd rfl hresult

/-- **A boot with a successful save** has raised the count. -/
theorem run_save {start : Snapshot} {s s' : Node} {steps : List NodeEvent} (hs : Since start s)
    (hsteps : ∀ e ∈ steps, e.OfBoot) (hsave : ∃ written, .persistSave 0 written ∈ steps)
    (h : node.run s steps = some s') : Raised start s' := by
  obtain ⟨written, hmem⟩ := hsave
  obtain ⟨before, after, rfl⟩ := List.append_of_mem hmem
  obtain ⟨t, hbefore, hafter⟩ := node.run_append.mp h
  obtain ⟨u, hsave, hrest⟩ := node.run_cons_eq_some.mp hafter
  have ht := run_since hs (fun e he => hsteps e (List.mem_append_left _ he)) hbefore
  exact node.run_invariant (P := Raised start) (Q := NodeEvent.OfBoot)
    (fun _ _ _ hs he h => step_raised hs he h) (step_save ht hsave)
    (fun e he => hsteps e (List.mem_append_right _ (List.mem_cons_of_mem _ he))) hrest

/-- A boot whose load reported an error, on its way past the save. -/
def Unread (start : Snapshot) (s : Node) : Prop :=
  s.stored = start ∧ (s.Idle ∨ s.pc = .countRestart ∧ s.hadSnapshot = false)

theorem step_unread {start : Snapshot} {s s' : Node} {e : NodeEvent} (hs : Unread start s)
    (he : e.OfBoot) (h : s.step e = some s') : Unread start s' := by
  obtain ⟨hstored, hidle | ⟨hcount, hhad⟩⟩ := hs
  · cases step_quiet he.1 h with
    | kept hkept hnext => exact ⟨hkept.trans hstored, .inl ((hnext hidle).resolve_left he.2)⟩
    | written hpc _ _ => exact absurd hidle (not_idle hpc (by decide) (by decide))
  · -- the count goes straight to the running node, a power cut to off
    have hpc : ∀ {pc}, s.pc = pc → pc = .countRestart := fun h => h.symm.trans hcount
    cases step_cases h with
    | cut written _ _ => exact ⟨hstored, .inl (.inl rfl)⟩
    | counted _ =>
      refine ⟨hstored, .inl (.inr ?_)⟩
      show (if s.hadSnapshot then Pc.persistSave else Pc.running) = _
      rw [hhad]
      rfl
    | powerOn hat => exact absurd (hpc hat) (by decide)
    | saveCut _ hat => exact absurd (hpc hat) (by decide)
    | initFailed _ hat _ => exact absurd (hpc hat) (by decide)
    | initialised hat => exact absurd (hpc hat) (by decide)
    | restored _ hat _ => exact absurd (hpc hat) (by decide)
    | notRestored _ _ _ hat _ => exact absurd (hpc hat) (by decide)
    | saved hat => exact absurd (hpc hat) (by decide)
    | saveFailed _ _ hat _ => exact absurd (hpc hat) (by decide)
    | operatorSave _ _ hat => exact absurd (hpc hat) (by decide)
    | operatorClear _ hat => exact absurd (hpc hat) (by decide)
    | operatorRestore _ hat => exact absurd (hpc hat) (by decide)

/-- The load that reports an error. -/
theorem step_load_error {start : Snapshot} {s s' : Node} {result : Int} {value : Nat}
    (hs : Since start s) (hresult : result ≠ 0) (h : s.step (.persistLoad result value) = some s') :
    Unread start s' := by
  cases step_cases h with
  | restored _ _ _ => exact absurd rfl hresult
  | notRestored _ _ _ hpc _ =>
    refine ⟨?_, .inr ⟨rfl, rfl⟩⟩
    exact hs.stored.resolve_right fun hraised =>
      absurd hraised.1 (not_idle hpc (by decide) (by decide))

/-- **A boot whose snapshot could not be read** leaves it alone. -/
theorem run_unread {start : Snapshot} {s s' : Node} {steps : List NodeEvent} (hs : Since start s)
    (hsteps : ∀ e ∈ steps, e.OfBoot)
    (hload : ∃ result value, result ≠ 0 ∧ .persistLoad result value ∈ steps)
    (h : node.run s steps = some s') : Unread start s' := by
  obtain ⟨result, value, hresult, hmem⟩ := hload
  obtain ⟨before, after, rfl⟩ := List.append_of_mem hmem
  obtain ⟨t, hbefore, hafter⟩ := node.run_append.mp h
  obtain ⟨u, hstep, hrest⟩ := node.run_cons_eq_some.mp hafter
  have ht := run_since hs (fun e he => hsteps e (List.mem_append_left _ he)) hbefore
  exact node.run_invariant (P := Unread start) (Q := NodeEvent.OfBoot)
    (fun _ _ _ hs he h => step_unread hs he h) (step_load_error ht hresult hstep)
    (fun e he => hsteps e (List.mem_append_right _ (List.mem_cons_of_mem _ he))) hrest

/-! ## §5. Any history of boots. -/

/-- **The restart counter survives any boot history**: from any snapshot, through any history
of boots cut anywhere and commands of the operator, no step but a command of the operator makes
a snapshot or lowers its count.  Each boot raises it by at most one, by exactly one when its save
succeeds, and not at all when its load has reported an error. -/
theorem restart_count_survives (stored : Snapshot) (history : List NodeEvent) (s : Node)
    (hhistory : node.run (Node.unpowered stored) history = some s) :
    (∀ e s', e.isOperator = false → s.step e = some s' →
        s'.stored = s.stored ∨ ∃ n, s.stored = .saved n ∧ s'.stored = .saved (n + 1))
      ∧ ∀ steps s', (∀ e ∈ steps, e.isOperator = false ∧ e ≠ .powerOn) →
          node.run s (.powerOn :: steps) = some s' →
          (s'.stored = s.stored ∨ ∃ n, s.stored = .saved n ∧ s'.stored = .saved (n + 1))
            ∧ ((∃ written, .persistSave 0 written ∈ steps) →
              ∃ n, s.stored = .saved n ∧ s'.stored = .saved (n + 1))
            ∧ ((∃ result value, result ≠ 0 ∧ .persistLoad result value ∈ steps) →
              s'.stored = s.stored) := by
  have hready : s.Ready :=
    node.run_invariant (P := Node.Ready) (Q := fun _ => True)
      (fun s e s' hs _ h => step_ready s e s' hs h) (ready_of_idle (.inl rfl)) (fun _ _ => trivial)
      hhistory
  refine ⟨fun e s' he h => step_stored hready he h, ?_⟩
  intro steps s' hsteps hrun
  obtain ⟨t, hstep, hboot⟩ := node.run_cons_eq_some.mp hrun
  have hpower : s.step .powerOn = some t := hstep
  have ht : Since s.stored t := by
    refine ⟨step_ready s .powerOn t hready hpower, .inl ?_⟩
    cases step_cases hpower with
    | powerOn _ => rfl
  refine ⟨?_, ?_, ?_⟩
  · rcases (run_since ht hsteps hboot).stored with hkept | ⟨_, hraised⟩
    · exact .inl hkept
    · exact .inr hraised
  · intro hsave
    exact (run_save ht hsteps hsave hboot).2
  · intro hload
    exact (run_unread ht hsteps hload hboot).1

/-- A boot that is not cut, whose snapshot is read and whose save succeeds. -/
def completeBoot (n : Nat) : List NodeEvent :=
  [.paramInit 0, .persistLoad 0 n, .countRestart, .persistSave 0 true]

/-- The boot of a node with a saved count gets that far. -/
theorem run_completeBoot (n : Nat) :
    node.run (Node.unpowered (.saved n)) (.powerOn :: completeBoot n)
      = some { Node.unpowered (.saved (n + 1)) with
          bootCount := n + 1, hadSnapshot := true, pc := .running } := by
  simp [completeBoot, node, Machine.run, Node.step, Node.unpowered]

/-- The power goes in the save of one boot, and the next one completes. -/
theorem restart_count_survives_cut :
    ∃ s', node.run (Node.unpowered (.saved 7)) (.powerOn :: completeBoot 7) = some s'
      ∧ ∃ n, Snapshot.saved 7 = .saved n ∧ s'.stored = .saved (n + 1) := by
  obtain ⟨-, hboots⟩ := restart_count_survives (.saved 7)
    [.powerOn, .paramInit 0, .persistLoad 0 7, .countRestart, .powerCut false]
    (Node.unpowered (.saved 7)) (by decide)
  have hboot := run_completeBoot 7
  obtain ⟨-, hsave, -⟩ := hboots (completeBoot 7) _ (by decide) hboot
  exact ⟨_, hboot, hsave ⟨true, by decide⟩⟩

end KFsw.App
