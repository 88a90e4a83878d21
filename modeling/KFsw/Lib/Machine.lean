/-
  KFsw.Lib.Machine — state machines whose events are possible in some states
  only, and their runs.

  Main results:
    * `run_append`     — a run is its first part, then its second;
    * `run_invariant`  — what every step keeps, a run keeps, when the events of
      the run are those the step lemma is about.
-/
import Mathlib.Data.List.Basic

namespace KFsw.Lib

/-- A machine: the next state, or none where the event cannot happen. -/
structure Machine (σ ε : Type*) where
  step : σ → ε → Option σ

namespace Machine

variable {σ ε : Type*} (m : Machine σ ε)

/-- The state after some events, one after the other; none when one of them cannot happen. -/
def run : σ → List ε → Option σ
  | s, [] => some s
  | s, e :: events => (m.step s e).bind fun s' => run s' events

@[simp] theorem run_nil (s : σ) : m.run s [] = some s := rfl

theorem run_cons_eq_some {s s' : σ} {e : ε} {events : List ε} :
    m.run s (e :: events) = some s' ↔ ∃ t, m.step s e = some t ∧ m.run t events = some s' := by
  show (m.step s e).bind _ = some s' ↔ _
  rw [Option.bind_eq_some_iff]

/-- **A run in two parts.** -/
theorem run_append {s s' : σ} {before after : List ε} :
    m.run s (before ++ after) = some s'
      ↔ ∃ t, m.run s before = some t ∧ m.run t after = some s' := by
  induction before generalizing s with
  | nil => simp
  | cons e before ih =>
    rw [List.cons_append, run_cons_eq_some]
    constructor
    · rintro ⟨t, hstep, hrun⟩
      obtain ⟨u, hbefore, hafter⟩ := ih.mp hrun
      exact ⟨u, (m.run_cons_eq_some).mpr ⟨t, hstep, hbefore⟩, hafter⟩
    · rintro ⟨u, hbefore, hafter⟩
      obtain ⟨t, hstep, hrun⟩ := (m.run_cons_eq_some).mp hbefore
      exact ⟨t, hstep, ih.mpr ⟨u, hrun, hafter⟩⟩

/-- **The invariant rule**: what every step with an event of this kind keeps, a run of such
events keeps. -/
theorem run_invariant {P : σ → Prop} {Q : ε → Prop}
    (hstep : ∀ s e s', P s → Q e → m.step s e = some s' → P s') {s s' : σ} {events : List ε}
    (hs : P s) (hevents : ∀ e ∈ events, Q e) (h : m.run s events = some s') : P s' := by
  induction events generalizing s with
  | nil =>
    rw [run_nil] at h
    rwa [← Option.some.inj h]
  | cons e events ih =>
    obtain ⟨t, ht, hrun⟩ := m.run_cons_eq_some.mp h
    exact ih (hstep s e t hs (hevents e List.mem_cons_self) ht)
      (fun e' he' => hevents e' (List.mem_cons_of_mem e he')) hrun

end Machine

end KFsw.Lib
