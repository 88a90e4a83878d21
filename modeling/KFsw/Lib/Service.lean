/-
  KFsw.Lib.Service — programs that call a service and go on with its replies.

  A `Prog` is a finished result or a call with a continuation for every reply, so
  what holds of all its branches holds whatever the service answers.

  `Calls P` says that every call the program can make satisfies `P`, and
  `firstCall` is the first one it makes.  A run is a list of calls with their
  replies: `Runs p trace a` says that `p` makes exactly these, one after the
  other, and ends with `a`.  The service is free to answer as it likes.

  Main results:
    * `runs_bind`      — a run of two programs in sequence is a run of each;
    * `Calls.bind`     — what holds of every call of both holds of the sequence;
    * `Runs.calls`     — what holds of every call holds of the calls of a run.
-/
import Mathlib.Logic.Basic

namespace KFsw.Lib

/-- A program over calls `κ` with replies `ρ` that ends with an `α`. -/
inductive Prog (κ : Type) (ρ : κ → Type) (α : Type) where
  | done (a : α)
  | call (c : κ) (next : ρ c → Prog κ ρ α)

namespace Prog

variable {κ : Type} {ρ : κ → Type} {α : Type} {P : κ → Prop}

/-- Every call satisfies `P`, whatever the service replies. -/
def Calls (P : κ → Prop) : Prog κ ρ α → Prop
  | done _ => True
  | call c next => P c ∧ ∀ r, (next r).Calls P

/-- The first call, if there is one. -/
def firstCall : Prog κ ρ α → Option κ
  | done _ => none
  | call c _ => some c

@[simp] theorem calls_call (c : κ) (next : ρ c → Prog κ ρ α) :
    (call c next).Calls P ↔ P c ∧ ∀ r, (next r).Calls P := Iff.rfl

/-- What holds of every call holds of those a program makes. -/
theorem calls_of_forall (p : Prog κ ρ α) (h : ∀ c, P c) : p.Calls P := by
  induction p with
  | done a => exact trivial
  | call c next ih => exact ⟨h c, ih⟩

theorem Calls.imp {Q : κ → Prop} {p : Prog κ ρ α} (h : ∀ c, P c → Q c) (hp : p.Calls P) :
    p.Calls Q := by
  induction p with
  | done a => exact trivial
  | call c next ih => exact ⟨h c hp.1, fun r => ih r (hp.2 r)⟩

/-! ## Sequences and runs. -/

variable {β : Type}

/-- `p`, and then what goes on with its result. -/
def bind (f : α → Prog κ ρ β) : Prog κ ρ α → Prog κ ρ β
  | done a => f a
  | call c next => call c fun r => (next r).bind f

/-- What holds of every call of both programs holds of those of the sequence. -/
theorem Calls.bind {p : Prog κ ρ α} {f : α → Prog κ ρ β} (hp : p.Calls P)
    (hf : ∀ a, (f a).Calls P) : (p.bind f).Calls P := by
  induction p with
  | done a => exact hf a
  | call c next ih => exact ⟨hp.1, fun r => ih r (hp.2 r)⟩

/-- The program makes these calls, is given these replies, and ends with `a`. -/
inductive Runs : Prog κ ρ α → List (Sigma ρ) → α → Prop
  | done (a : α) : Runs (done a) [] a
  | call {c : κ} {next : ρ c → Prog κ ρ α} {trace : List (Sigma ρ)} {a : α} (r : ρ c)
      (rest : Runs (next r) trace a) : Runs (call c next) (⟨c, r⟩ :: trace) a

@[simp] theorem runs_done {a b : α} {trace : List (Sigma ρ)} :
    (done a).Runs trace b ↔ trace = [] ∧ a = b := by
  constructor
  · intro h
    cases h
    exact ⟨rfl, rfl⟩
  · rintro ⟨rfl, rfl⟩
    exact .done a

theorem runs_call {c : κ} {next : ρ c → Prog κ ρ α} {trace : List (Sigma ρ)} {a : α} :
    (call c next).Runs trace a
      ↔ ∃ (r : ρ c) (rest : List (Sigma ρ)), trace = ⟨c, r⟩ :: rest ∧ (next r).Runs rest a := by
  constructor
  · intro h
    cases h with
    | call r rest => exact ⟨r, _, rfl, rest⟩
  · rintro ⟨r, rest, rfl, h⟩
    exact .call r h

/-- **A run of two programs in sequence** is a run of the first, and then one of the second. -/
theorem runs_bind {p : Prog κ ρ α} {f : α → Prog κ ρ β} {trace : List (Sigma ρ)} {b : β} :
    (p.bind f).Runs trace b
      ↔ ∃ (first second : List (Sigma ρ)) (a : α), trace = first ++ second
        ∧ p.Runs first a ∧ (f a).Runs second b := by
  induction p generalizing trace with
  | done a =>
    constructor
    · intro h
      exact ⟨[], trace, a, rfl, .done a, h⟩
    · rintro ⟨first, second, c, rfl, hdone, h⟩
      obtain ⟨rfl, rfl⟩ := runs_done.mp hdone
      exact h
  | call c next ih =>
    constructor
    · intro h
      obtain ⟨r, rest, rfl, hrest⟩ := runs_call.mp h
      obtain ⟨first, second, a, rfl, hfirst, hsecond⟩ := (ih r).mp hrest
      exact ⟨⟨c, r⟩ :: first, second, a, rfl, .call r hfirst, hsecond⟩
    · rintro ⟨first, second, a, rfl, hfirst, hsecond⟩
      obtain ⟨r, rest, rfl, hrest⟩ := runs_call.mp hfirst
      exact .call r ((ih r).mpr ⟨rest, second, a, rfl, hrest, hsecond⟩)

/-- What holds of every call holds of the calls of a run. -/
theorem Runs.calls {p : Prog κ ρ α} {trace : List (Sigma ρ)} {a : α} (h : p.Runs trace a)
    (hp : p.Calls P) : ∀ e ∈ trace, P e.1 := by
  induction h with
  | done a => exact fun e he => absurd he List.not_mem_nil
  | call r rest ih =>
    intro e he
    rcases List.mem_cons.mp he with rfl | he
    · exact hp.1
    · exact ih (hp.2 r) e he

/-! ## A service that is a function. -/

/-- The run with a service that always answers a call the same way. -/
def exec (service : (c : κ) → ρ c) : Prog κ ρ α → List (Sigma ρ) × α
  | done a => ([], a)
  | call c next =>
    let rest := (next (service c)).exec service
    (⟨c, service c⟩ :: rest.1, rest.2)

theorem runs_exec (service : (c : κ) → ρ c) (p : Prog κ ρ α) :
    p.Runs (p.exec service).1 (p.exec service).2 := by
  induction p with
  | done a => exact .done a
  | call c next ih => exact .call (service c) (ih (service c))

/-- Its replies are those of the service. -/
theorem exec_replies (service : (c : κ) → ρ c) (p : Prog κ ρ α) :
    ∀ e ∈ (p.exec service).1, e.2 = service e.1 := by
  induction p with
  | done a => exact fun e he => absurd he List.not_mem_nil
  | call c next ih =>
    intro e he
    rcases List.mem_cons.mp he with rfl | he
    · rfl
    · exact ih (service c) e he

end Prog

end KFsw.Lib
