/-
  KFsw.Lib.Stateful — programs against a service that has a state.

  A `Behaviour` says which replies a call can get in a state, and which states it
  can leave; a service that may fail, or may answer in several ways, is a
  behaviour with several steps.  `p.against step Q s` says that `p`, begun in the
  state `s`, ends in `Q` however the service behaves: its result, the calls it
  made with their replies, and the state it leaves are in `Q`.

  Main results:
    * `against_bind`, `against_seq` — two programs in sequence;
    * `against_iff`    — the assertion is about every run that follows the
      behaviour.
-/
import KFsw.Lib.Service
import Mathlib.Data.List.Infix

namespace KFsw.Lib.Prog

variable {σ κ : Type} {ρ : κ → Type} {α β : Type}

/-- What a service may reply to a call in a state, and the state it leaves. -/
abbrev Behaviour (σ κ : Type) (ρ : κ → Type) := σ → (c : κ) → ρ c → σ → Prop

/-- What is asked of a result, the calls that led to it and the state they left. -/
abbrev Ends (σ : Type) {κ : Type} (ρ : κ → Type) (α : Type) := α → List (Sigma ρ) → σ → Prop

variable (step : Behaviour σ κ ρ)

/-- The service goes from one state to another through these calls and replies. -/
inductive Behaves : σ → List (Sigma ρ) → σ → Prop
  | nil (s : σ) : Behaves s [] s
  | cons {s s' s'' : σ} {c : κ} {r : ρ c} {trace : List (Sigma ρ)} (first : step s c r s')
      (rest : Behaves s' trace s'') : Behaves s (⟨c, r⟩ :: trace) s''

/-- However the service behaves, the program ends in `Q`. -/
def against : Prog κ ρ α → Ends σ ρ α → σ → Prop
  | done a, Q, s => Q a [] s
  | call c next, Q, s =>
    ∀ r s', step s c r s' → (next r).against (fun a rest => Q a (⟨c, r⟩ :: rest)) s'

@[simp] theorem against_done (a : α) (Q : Ends σ ρ α) (s : σ) :
    (done a).against step Q s ↔ Q a [] s := Iff.rfl

/-- **Two programs in sequence.** -/
theorem against_bind (p : Prog κ ρ α) (f : α → Prog κ ρ β) (Q : Ends σ ρ β) (s : σ) :
    (p.bind f).against step Q s
      ↔ p.against step (fun a part => (f a).against step fun b rest => Q b (part ++ rest)) s := by
  induction p generalizing Q s with
  | done a => exact Iff.rfl
  | call c next ih =>
    exact forall_congr' fun r => forall_congr' fun s' => imp_congr_right fun _ => ih r _ s'

variable {step}

theorem against_mono {Q R : Ends σ ρ α} {p : Prog κ ρ α} {s : σ}
    (hQR : ∀ a part s', Q a part s' → R a part s') (h : p.against step Q s) :
    p.against step R s := by
  induction p generalizing Q R s with
  | done a => exact hQR a [] s h
  | call c next ih => exact fun r s' hstep => ih r (fun a rest => hQR a _) (h r s' hstep)

/-- Two programs in sequence, each with what it is known to end in. -/
theorem against_seq {p : Prog κ ρ α} {f : α → Prog κ ρ β} {Q : Ends σ ρ α} {R : Ends σ ρ β}
    {s : σ} (hp : p.against step Q s)
    (hf : ∀ a part s', Q a part s' → (f a).against step (fun b rest => R b (part ++ rest)) s') :
    (p.bind f).against step R s :=
  (against_bind step p f R s).mpr (against_mono hf hp)

/-- **The assertion is about every run** that follows the behaviour of the service. -/
theorem against_iff {Q : Ends σ ρ α} {p : Prog κ ρ α} {s : σ} :
    p.against step Q s
      ↔ ∀ trace a s', p.Runs trace a → Behaves step s trace s' → Q a trace s' := by
  induction p generalizing Q s with
  | done a =>
    constructor
    · intro h trace b s' hruns hfollows
      obtain ⟨rfl, rfl⟩ := runs_done.mp hruns
      cases hfollows
      exact h
    · exact fun h => h [] a s (.done a) (.nil s)
  | call c next ih =>
    constructor
    · intro h trace a s' hruns hfollows
      obtain ⟨r, rest, rfl, hrest⟩ := runs_call.mp hruns
      cases hfollows with
      | cons first behind => exact (ih r).mp (h r _ first) rest a s' hrest behind
    · intro h r s' hstep
      exact (ih r).mpr fun rest a s'' hruns hfollows =>
        h _ a s'' (.call r hruns) (.cons hstep hfollows)

/-- A trace in two parts goes through a state in between. -/
theorem behaves_append {s s'' : σ} {first second : List (Sigma ρ)} :
    Behaves step s (first ++ second) s''
      ↔ ∃ s', Behaves step s first s' ∧ Behaves step s' second s'' := by
  constructor
  · intro h
    induction first generalizing s with
    | nil => exact ⟨s, .nil s, h⟩
    | cons e rest ih =>
      cases h with
      | cons hfirst behind =>
        obtain ⟨s', hrest, hsecond⟩ := ih behind
        exact ⟨s', .cons hfirst hrest, hsecond⟩
  · rintro ⟨s', h, h'⟩
    induction h with
    | nil s => exact h'
    | cons hfirst _ ih => exact .cons hfirst (ih h')

/-- **What every allowed call keeps is kept** by the calls of a run. -/
theorem Behaves.keeps {I : σ → Prop} {P : κ → Prop}
    (hstep : ∀ s c r s', P c → step s c r s' → I s → I s') {s s' : σ} {trace : List (Sigma ρ)}
    (h : Behaves step s trace s') (hcalls : ∀ e ∈ trace, P e.1) (hI : I s) : I s' := by
  induction h with
  | nil s => exact hI
  | cons first rest ih =>
    obtain ⟨hcall, hrest⟩ := List.forall_mem_cons.mp hcalls
    exact ih hrest (hstep _ _ _ _ hcall first hI)

/-! ## A service that is a function of its state. -/

/-- The run with such a service: its calls with their replies, the result, and the last state. -/
def execOn (service : σ → (c : κ) → ρ c × σ) : Prog κ ρ α → σ → List (Sigma ρ) × α × σ
  | done a, s => ([], a, s)
  | call c next, s =>
    let reply := service s c
    let rest := (next reply.1).execOn service reply.2
    (⟨c, reply.1⟩ :: rest.1, rest.2)

theorem runs_execOn (service : σ → (c : κ) → ρ c × σ) (p : Prog κ ρ α) (s : σ) :
    p.Runs (p.execOn service s).1 (p.execOn service s).2.1 := by
  induction p generalizing s with
  | done a => exact .done a
  | call c next ih => exact .call _ (ih _ _)

/-- It follows a behaviour that allows what the service does. -/
theorem behaves_execOn {service : σ → (c : κ) → ρ c × σ}
    (h : ∀ s c, step s c (service s c).1 (service s c).2) (p : Prog κ ρ α) (s : σ) :
    Behaves step s (p.execOn service s).1 (p.execOn service s).2.2 := by
  induction p generalizing s with
  | done a => exact .nil s
  | call c next ih => exact .cons (h s c) (ih _ _)

/-- What holds of its replies to the calls a program makes, while it keeps `I`, holds of the
run. -/
theorem execOn_forall {service : σ → (c : κ) → ρ c × σ} {I : σ → Prop} {P : κ → Prop}
    {R : Sigma ρ → Prop}
    (h : ∀ s c, P c → I s → R ⟨c, (service s c).1⟩ ∧ I (service s c).2) {p : Prog κ ρ α}
    (hp : p.Calls P) {s : σ} (hI : I s) : ∀ e ∈ (p.execOn service s).1, R e := by
  induction p generalizing s with
  | done a => exact fun e he => absurd he List.not_mem_nil
  | call c next ih =>
    intro e he
    obtain ⟨hreply, hkept⟩ := h s c hp.1 hI
    rcases List.mem_cons.mp he with rfl | he
    · exact hreply
    · exact ih _ (hp.2 _) hkept e he

end KFsw.Lib.Prog
