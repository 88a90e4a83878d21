/-
  KFsw.App.CspLiveness — the CSP probe that keeps health fed,
  `app/src/csp_liveness.c`.

  The probe pings this node's own address on a period and reports to health
  when the ping succeeds.  Its period, timeout and deadline are three Kconfig
  values whose ranges do not depend on each other.

  Time is counted in microseconds, the unit of `round_trip_us`.  The work queue
  runs a probe when it is due, and a probe lasts as long as its ping.

  Main results:
    * `work_keeps`     — what one probe adds to the time since the last report;
    * `run_keeps_gaps` — so the reports of a run lie within two periods and two
      timeouts of each other;
    * `liveness_iff`   — the deadline is kept exactly when it covers these.
-/
import KFsw.App.HkEntries
import KFsw.Lib.Table

namespace KFsw.App

open KFsw.Lib

/-! ## §1. Configuration and state. -/

def EALREADY : Int := 114

/-- `app/Kconfig.csp_liveness`, with the ranges it admits. -/
structure LivenessConfig where
  periodMs : Nat
  timeoutMs : Nat
  deadlineMs : Nat
  period_range : 20 ≤ periodMs ∧ periodMs ≤ 60000
  timeout_range : 5 ≤ timeoutMs ∧ timeoutMs ≤ 10000
  deadline_range : 100 ≤ deadlineMs ∧ deadlineMs ≤ 120000

/-- `K_MSEC`, in microseconds. -/
def K_MSEC (ms : Nat) : Nat := ms * 1000

/-- How `kfsw_csp_ping` ends, and how long it took. -/
structure Ping where
  result : Int
  elapsed : Nat
  deriving DecidableEq

/-- The static variables of the file, the clock, and what health has been told. -/
structure Liveness where
  now : Nat
  registered : Bool
  probes : Nat
  failures : Nat
  /-- When `liveness_work` is due, if it is scheduled. -/
  due : Option Nat
  /-- The times of the calls of `kfsw_health_report`. -/
  reports : List Nat
  deriving DecidableEq

/-- The state before `kfsw_csp_liveness_start`. -/
def Liveness.boot (now : Nat) : Liveness :=
  { now := now, registered := false, probes := 0, failures := 0, due := none, reports := [] }

/-- A counter that stops at the largest `uint32_t`. -/
def saturate (n : Nat) : Nat := if n < UINT32_MAX then n + 1 else n

variable (cfg : LivenessConfig)

/-! ## §2. The code. -/

/-- `kfsw_csp_liveness_start`, when `kfsw_health_register` returns `result`. -/
def Liveness.start (result : Int) (s : Liveness) : Int × Liveness :=
  if s.registered then (-EALREADY, s)
  else if result ≠ 0 then (result, s)
  else
    (0, { s with
      registered := true
      -- reported once up front
      reports := s.reports ++ [s.now]
      due := some (s.now + K_MSEC cfg.periodMs) })

/-- `liveness_work_handler`, run when the work is due. -/
def Liveness.work (s : Liveness) (ping : Ping) : Liveness :=
  match s.due with
  | none => s
  | some due =>
    let s := { s with now := due + ping.elapsed, probes := saturate s.probes }
    let s :=
      if ping.result = 0 then { s with reports := s.reports ++ [s.now] }
      else { s with failures := saturate s.failures }
    { s with due := some (s.now + K_MSEC cfg.periodMs) }

/-- Successive probes. -/
def Liveness.run (s : Liveness) (pings : List Ping) : Liveness :=
  pings.foldl (Liveness.work cfg) s

/-! ## §3. What a probe does. -/

/-- The state while the probe runs: the next one is a period away, and the last report is no
further back than `since`. -/
structure Watching (since bound : Nat) (s : Liveness) : Prop where
  due : s.due = some (s.now + K_MSEC cfg.periodMs)
  last : ∃ last, s.reports.getLast? = some last ∧ s.now ≤ last + since
  gaps : ∀ g ∈ pairs s.reports, g.2 ≤ g.1 + bound

theorem watching_start (bound now : Nat) :
    Watching cfg 0 bound ((Liveness.boot now).start cfg 0).2 :=
  ⟨rfl, ⟨now, rfl, Nat.le_refl _⟩, fun g hg => absurd hg (by
    show g ∉ pairs [now]
    simp)⟩

/-- **One probe** that answers in time: a report starts the time anew, a failure adds a period
and its ping to it. -/
theorem work_keeps {since bound : Nat} {s : Liveness} {ping : Ping}
    (h : Watching cfg since bound s)
    (hbound : since + K_MSEC cfg.periodMs + ping.elapsed ≤ bound) :
    Watching cfg (if ping.result = 0 then 0 else since + K_MSEC cfg.periodMs + ping.elapsed) bound
      (s.work cfg ping) := by
  obtain ⟨hdue, ⟨last, hlast, hsince⟩, hgaps⟩ := h
  unfold Liveness.work
  rw [hdue]
  dsimp only
  by_cases hok : ping.result = 0
  · rw [if_pos hok, if_pos hok]
    refine ⟨rfl, ⟨s.now + K_MSEC cfg.periodMs + ping.elapsed, ?_, Nat.le_refl _⟩, ?_⟩
    · exact List.getLast?_concat
    · intro g hg
      change g ∈ pairs (s.reports ++ [_]) at hg
      rw [pairs_concat, hlast] at hg
      rcases List.mem_append.mp hg with hg | hg
      · exact hgaps g hg
      · -- the gap this report closes
        rw [Option.map_some, Option.toList_some, List.mem_singleton] at hg
        rw [hg]
        show s.now + K_MSEC cfg.periodMs + ping.elapsed ≤ last + bound
        omega
  · rw [if_neg hok, if_neg hok]
    refine ⟨rfl, ⟨last, hlast, ?_⟩, hgaps⟩
    show s.now + K_MSEC cfg.periodMs + ping.elapsed ≤ _
    omega

/-- **A run without two failures in a row**: its reports are at most two periods and two
timeouts apart. -/
theorem run_keeps_gaps (pings : List Ping) {since : Nat} {s : Liveness}
    (htwo : ∀ p ∈ pairs pings, p.1.result = 0 ∨ p.2.result = 0)
    (htimeout : ∀ p ∈ pings, p.elapsed ≤ K_MSEC cfg.timeoutMs)
    (h : Watching cfg since (K_MSEC (2 * (cfg.periodMs + cfg.timeoutMs))) s)
    (hsince : since = 0 ∨ since ≤ K_MSEC (cfg.periodMs + cfg.timeoutMs)
      ∧ ∀ p, pings.head? = some p → p.result = 0) :
    ∃ since', Watching cfg since' (K_MSEC (2 * (cfg.periodMs + cfg.timeoutMs))) (s.run cfg pings) := by
  -- `since` is zero behind a report, and one period with its ping behind a failure
  induction pings generalizing since s with
  | nil => exact ⟨since, h⟩
  | cons ping pings ih =>
    have htime := htimeout ping List.mem_cons_self
    have hbound : since + K_MSEC cfg.periodMs + ping.elapsed
        ≤ K_MSEC (2 * (cfg.periodMs + cfg.timeoutMs)) := by
      unfold K_MSEC at htime hsince ⊢
      omega
    have hstep := work_keeps cfg h hbound
    have htwo' : ∀ p ∈ pairs pings, p.1.result = 0 ∨ p.2.result = 0 := by
      intro p hp
      apply htwo p
      rw [pairs_cons]
      exact List.mem_append_right _ hp
    refine ih htwo' (fun p hp => htimeout p (List.mem_cons_of_mem ping hp)) hstep ?_
    by_cases hok : ping.result = 0
    · rw [if_pos hok]
      exact .inl rfl
    · rw [if_neg hok]
      refine .inr ⟨?_, ?_⟩
      · -- a failure comes behind a report only
        rcases hsince with hzero | ⟨_, hhead⟩
        · unfold K_MSEC at htime ⊢
          omega
        · exact absurd (hhead ping rfl) hok
      · intro p hp
        rcases htwo (ping, p) (by rw [pairs_cons, hp]; exact List.mem_append_left _ (by simp))
          with hfirst | hsecond
        · exact absurd hfirst hok
        · exact hsecond

/-- **Every step leaves one probe scheduled, and only a success is reported.** -/
theorem run_reports (pings : List Ping) {s : Liveness}
    (h : s.due = some (s.now + K_MSEC cfg.periodMs)) :
    (s.run cfg pings).due = some ((s.run cfg pings).now + K_MSEC cfg.periodMs)
      ∧ (s.run cfg pings).reports.length
        = s.reports.length + (pings.filter fun p => decide (p.result = 0)).length := by
  induction pings generalizing s with
  | nil => exact ⟨h, rfl⟩
  | cons ping pings ih =>
    have hstep : (s.work cfg ping).due = some ((s.work cfg ping).now + K_MSEC cfg.periodMs)
        ∧ (s.work cfg ping).reports.length
          = s.reports.length + if ping.result = 0 then 1 else 0 := by
      unfold Liveness.work
      rw [h]
      dsimp only
      by_cases hok : ping.result = 0
      · rw [if_pos hok, if_pos hok]
        exact ⟨rfl, List.length_append⟩
      · rw [if_neg hok, if_neg hok]
        exact ⟨rfl, rfl⟩
    obtain ⟨hdue, hlen⟩ := ih hstep.1
    refine ⟨hdue, ?_⟩
    show (Liveness.run cfg (s.work cfg ping) pings).reports.length = _
    rw [hlen, hstep.2]
    by_cases hok : ping.result = 0
    · rw [if_pos hok, List.filter_cons_of_pos (by simpa using hok), List.length_cons]
      omega
    · rw [if_neg hok, List.filter_cons_of_neg (by simpa using hok)]
      omega

/-! ## §4. The deadline. -/

/-- What the probe is for: while no two probes in a row fail and every ping returns within the
timeout, no two successive reports are further apart than the deadline; one report more than
there were successes has been made, and one probe is scheduled. -/
def NeverOverdue : Prop :=
  ∀ (now : Nat) (pings : List Ping),
    (∀ p ∈ pairs pings, p.1.result = 0 ∨ p.2.result = 0) →
    (∀ p ∈ pings, p.elapsed ≤ K_MSEC cfg.timeoutMs) →
    let s := ((Liveness.boot now).start cfg 0).2.run cfg pings
    (∀ g ∈ pairs s.reports, g.2 ≤ g.1 + K_MSEC cfg.deadlineMs)
      ∧ s.reports.length = 1 + (pings.filter fun p => decide (p.result = 0)).length
      ∧ s.due = some (s.now + K_MSEC cfg.periodMs)

/-- **The deadline is kept exactly when it covers two periods and two timeouts.** -/
theorem liveness_iff : NeverOverdue cfg ↔ 2 * (cfg.periodMs + cfg.timeoutMs) ≤ cfg.deadlineMs := by
  constructor
  · intro h
    -- one lost probe, and both pings take the whole timeout
    obtain ⟨hgaps, -⟩ := h 0 [⟨-1, K_MSEC cfg.timeoutMs⟩, ⟨0, K_MSEC cfg.timeoutMs⟩]
      (by simp) (by simp)
    have hgap := hgaps (0, 0 + K_MSEC cfg.periodMs + K_MSEC cfg.timeoutMs + K_MSEC cfg.periodMs
      + K_MSEC cfg.timeoutMs) (List.mem_singleton.mpr rfl)
    unfold K_MSEC at hgap
    omega
  · intro hcovers now pings htwo htimeout
    have hstart := watching_start cfg (K_MSEC (2 * (cfg.periodMs + cfg.timeoutMs))) now
    obtain ⟨since, hwatching⟩ := run_keeps_gaps cfg pings htwo htimeout hstart (.inl rfl)
    obtain ⟨hdue, hlen⟩ := run_reports cfg pings hstart.due
    refine ⟨?_, hlen, hdue⟩
    intro g hg
    have hcover : K_MSEC (2 * (cfg.periodMs + cfg.timeoutMs)) ≤ K_MSEC cfg.deadlineMs :=
      Nat.mul_le_mul_right 1000 hcovers
    exact (hwatching.gaps g hg).trans (Nat.add_le_add_left hcover g.1)

/-- A period of a minute under a deadline of a tenth of a second. -/
def slowPeriod : LivenessConfig :=
  { periodMs := 60000, timeoutMs := 5, deadlineMs := 100
    period_range := by decide, timeout_range := by decide, deadline_range := by decide }

/-- **A healthy loop overdue**: the first probe is answered at once, and its report comes a
minute after the one at start. -/
theorem slow_period_overdue : ¬ NeverOverdue slowPeriod := by
  intro h
  obtain ⟨hgaps, -⟩ := h 0 [⟨0, 1⟩] (by simp) (by decide)
  have hgap := hgaps (0, 0 + K_MSEC 60000 + 1) (List.mem_singleton.mpr rfl)
  change 0 + 60000 * 1000 + 1 ≤ 0 + 100 * 1000 at hgap
  omega

end KFsw.App
