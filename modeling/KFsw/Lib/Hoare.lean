/-
  KFsw.Lib.Hoare — pre- and postconditions for programs over a service.

  An assertion is about the calls made so far, with their replies.  `wp ok p Q`
  holds of a past from which every call that `p` makes is allowed by `ok`, given
  the past it is made in, and every end of `p` is in `Q`, whatever the service
  replies.  A triple says that the weakest precondition follows from another
  assertion; the rules follow the shape of the program.

  Main results:
    * `wp_bind`, `Triple.bind` — two programs in sequence;
    * `wp_seq`                 — the same, where nothing is lost of the past;
    * `Triple.iter`            — an invariant of a loop;
    * `Triple.sound`           — every call of a run is allowed where it is made,
      and the run ends in the postcondition.
-/
import KFsw.Lib.Service
import Mathlib.Data.List.Infix

namespace KFsw.Lib.Prog

variable {κ : Type} {ρ : κ → Type} {α β : Type}

/-- What is asked of a call, by the calls made before it. -/
abbrev Guard (κ : Type) (ρ : κ → Type) := List (Sigma ρ) → κ → Prop

variable (ok : Guard κ ρ)

/-- The weakest precondition: every call is allowed, and the program ends in `Q`. -/
def wp : Prog κ ρ α → (α → List (Sigma ρ) → Prop) → List (Sigma ρ) → Prop
  | done a, Q, past => Q a past
  | call c next, Q, past => ok past c ∧ ∀ r, (next r).wp Q (past ++ [⟨c, r⟩])

/-- **Two programs in sequence.** -/
theorem wp_bind (p : Prog κ ρ α) (f : α → Prog κ ρ β) (Q : β → List (Sigma ρ) → Prop)
    (past : List (Sigma ρ)) :
    (p.bind f).wp ok Q past ↔ p.wp ok (fun a => (f a).wp ok Q) past := by
  induction p generalizing past with
  | done a => exact Iff.rfl
  | call c next ih => exact and_congr_right' (forall_congr' fun r => ih r _)

theorem wp_mono {Q R : α → List (Sigma ρ) → Prop} {p : Prog κ ρ α} {past : List (Sigma ρ)}
    (hQR : ∀ a past, Q a past → R a past) (h : p.wp ok Q past) : p.wp ok R past := by
  induction p generalizing past with
  | done a => exact hQR a past h
  | call c next ih => exact ⟨h.1, fun r => ih r (h.2 r)⟩

/-- Calls are added to the past, and none is taken away. -/
theorem wp_extends {Q : α → List (Sigma ρ) → Prop} {p : Prog κ ρ α} {past : List (Sigma ρ)}
    (h : p.wp ok Q past) : p.wp ok (fun a now => past <+: now ∧ Q a now) past := by
  induction p generalizing past with
  | done a => exact ⟨List.prefix_rfl, h⟩
  | call c next ih =>
    refine ⟨h.1, fun r => wp_mono ok ?_ (ih r (h.2 r))⟩
    rintro a now ⟨hnow, hQ⟩
    exact ⟨(List.prefix_append past _).trans hnow, hQ⟩

theorem bind_assoc {γ : Type} (p : Prog κ ρ α) (f : α → Prog κ ρ β) (g : β → Prog κ ρ γ) :
    (p.bind f).bind g = p.bind fun a => (f a).bind g := by
  induction p with
  | done a => rfl
  | call c next ih => exact congrArg (call c) (funext ih)

/-- Two programs in sequence, where the second may use that nothing is lost of the past. -/
theorem wp_seq {p : Prog κ ρ α} {f : α → Prog κ ρ β} {Q : α → List (Sigma ρ) → Prop}
    {R : β → List (Sigma ρ) → Prop} {past : List (Sigma ρ)} (hp : p.wp ok Q past)
    (hf : ∀ a now, past <+: now → Q a now → (f a).wp ok R now) : (p.bind f).wp ok R past :=
  (wp_bind ok p f R past).mpr
    (wp_mono ok (fun a now hnow => hf a now hnow.1 hnow.2) (wp_extends ok hp))

/-- From `P`, every call of the program is allowed and it ends in `Q`. -/
def Triple (P : List (Sigma ρ) → Prop) (p : Prog κ ρ α) (Q : α → List (Sigma ρ) → Prop) : Prop :=
  ∀ past, P past → p.wp ok Q past

variable {ok}

theorem Triple.done {P : List (Sigma ρ) → Prop} {Q : α → List (Sigma ρ) → Prop} {a : α}
    (h : ∀ past, P past → Q a past) : Triple ok P (done a) Q := h

/-- **The rule of sequences.** -/
theorem Triple.bind {P : List (Sigma ρ) → Prop} {Q : α → List (Sigma ρ) → Prop}
    {R : β → List (Sigma ρ) → Prop} {p : Prog κ ρ α} {f : α → Prog κ ρ β}
    (hp : Triple ok P p Q) (hf : ∀ a, Triple ok (Q a) (f a) R) : Triple ok P (p.bind f) R :=
  fun past hP => (wp_bind ok p f R past).mpr (wp_mono ok hf (hp past hP))

/-- The rule of consequence. -/
theorem Triple.imp {P P' : List (Sigma ρ) → Prop} {Q Q' : α → List (Sigma ρ) → Prop}
    {p : Prog κ ρ α} (h : Triple ok P p Q) (hP : ∀ past, P' past → P past)
    (hQ : ∀ a past, Q a past → Q' a past) : Triple ok P' p Q' :=
  fun past hP' => wp_mono ok hQ (h past (hP past hP'))

/-- A program, so many times. -/
def iter (p : Prog κ ρ Unit) : Nat → Prog κ ρ Unit
  | 0 => .done ()
  | n + 1 => p.bind fun _ => p.iter n

/-- **The rule of loops.** -/
theorem Triple.iter {I : List (Sigma ρ) → Prop} {p : Prog κ ρ Unit}
    (h : Triple ok I p fun _ => I) (n : Nat) : Triple ok I (p.iter n) fun _ => I := by
  induction n with
  | zero => exact .done fun _ hI => hI
  | succ n ih => exact h.bind fun _ => ih

/-- A run from a past. -/
theorem Runs.wp {Q : α → List (Sigma ρ) → Prop} {p : Prog κ ρ α} {trace : List (Sigma ρ)} {a : α}
    (h : p.Runs trace a) {past : List (Sigma ρ)} (hwp : p.wp ok Q past) :
    (∀ before e after, trace = before ++ e :: after → ok (past ++ before) e.1)
      ∧ Q a (past ++ trace) := by
  induction h generalizing past with
  | done a =>
    refine ⟨fun before e after hsplit => ?_, by rwa [List.append_nil]⟩
    exact absurd hsplit (by simp)
  | @call c next trace a r rest ih =>
    obtain ⟨hrest, hend⟩ := ih (hwp.2 r)
    rw [List.append_assoc] at hend
    refine ⟨?_, hend⟩
    intro before e after hsplit
    cases before with
    | nil =>
      obtain ⟨rfl, -⟩ := List.cons.inj hsplit
      rw [List.append_nil]
      exact hwp.1
    | cons first before =>
      obtain ⟨rfl, htail⟩ := List.cons.inj hsplit
      have hok := hrest before e after htail
      rwa [List.append_assoc] at hok

/-- **A triple is about every run.** -/
theorem Triple.sound {P : List (Sigma ρ) → Prop} {Q : α → List (Sigma ρ) → Prop}
    {p : Prog κ ρ α} (h : Triple ok P p Q) (hP : P []) {trace : List (Sigma ρ)} {a : α}
    (hrun : p.Runs trace a) :
    (∀ before e after, trace = before ++ e :: after → ok before e.1) ∧ Q a trace :=
  hrun.wp (h [] hP)

end KFsw.Lib.Prog
