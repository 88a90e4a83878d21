/-
  KFsw.Lib.Checks — functions that check what they read and end in an exception
  where a check fails.

  `require c e` goes on when `c` holds and raises `e` otherwise.  A sequence of
  checks succeeds exactly when each does, and every exception it raises is that
  of one of them.

  Main results:
    * `bind_ok_iff`         — a sequence succeeds when both parts do;
    * `require_bind_ok_iff` — a check succeeds when its condition holds;
    * `Raises.bind`         — the exceptions of a sequence are those of its parts;
    * `lookup_iff_mem`      — a dictionary of different keys is read by its pairs.
-/
import Mathlib.Data.List.Nodup

namespace KFsw.Lib

variable {ε α β : Type}

/-- A check: an exception unless the condition holds. -/
def require (c : Prop) [Decidable c] (e : ε) : Except ε Unit := if c then .ok () else .error e

theorem ok_bind (a : α) (f : α → Except ε β) : (Except.ok a >>= f) = f a := rfl

/-- **A sequence succeeds** when its first part gives a value and the second goes on from it. -/
theorem bind_ok_iff {x : Except ε α} {f : α → Except ε β} {b : β} :
    (x >>= f) = .ok b ↔ ∃ a, x = .ok a ∧ f a = .ok b := by
  cases x with
  | error e =>
    refine iff_of_false (fun h => by cases h) ?_
    rintro ⟨a, h, _⟩
    cases h
  | ok a =>
    constructor
    · intro h
      exact ⟨a, rfl, h⟩
    · rintro ⟨c, hc, h⟩
      obtain rfl := Except.ok.inj hc
      exact h

theorem require_bind_ok_iff {c : Prop} [Decidable c] {e : ε} {f : Unit → Except ε β} {b : β} :
    (require c e >>= f) = .ok b ↔ c ∧ f () = .ok b := by
  rw [bind_ok_iff]
  unfold require
  constructor
  · rintro ⟨_, hc, h⟩
    split at hc
    · rename_i hholds
      exact ⟨hholds, h⟩
    · cases hc
  · rintro ⟨hc, h⟩
    exact ⟨(), if_pos hc, h⟩

/-- Every exception is one of `P`. -/
def Raises (P : ε → Prop) (x : Except ε α) : Prop := ∀ e, x = .error e → P e

variable {P : ε → Prop}

theorem raises_ok (a : α) : Raises P (.ok a) := fun _ h => by cases h

theorem raises_error {e : ε} (h : P e) : Raises P (.error e : Except ε α) := by
  intro e' he
  cases he
  exact h

/-- **The exceptions of a sequence** are those of the first part, and of the second where it is
reached. -/
theorem Raises.bind {x : Except ε α} {f : α → Except ε β} (hx : Raises P x)
    (hf : ∀ a, x = .ok a → Raises P (f a)) : Raises P (x >>= f) := by
  cases x with
  | error e => exact raises_error (hx e rfl)
  | ok a => exact hf a rfl

theorem raises_require {c : Prop} [Decidable c] {e : ε} (h : P e) : Raises P (require c e) := by
  unfold require
  split
  · exact raises_ok ()
  · exact raises_error h

/-- What follows a check is reached only when its condition holds. -/
theorem Raises.require_bind {c : Prop} [Decidable c] {e : ε} {f : Unit → Except ε β} (he : P e)
    (hf : c → Raises P (f ())) : Raises P (KFsw.Lib.require c e >>= f) := by
  refine (raises_require he).bind fun a ha => ?_
  unfold KFsw.Lib.require at ha
  split at ha
  · rename_i hc
    exact hf hc
  · cases ha

/-- **A dictionary of different keys** has under a key exactly the value it is paired with. -/
theorem lookup_iff_mem {κ υ : Type} [BEq κ] [LawfulBEq κ] {l : List (κ × υ)}
    (hnodup : (l.map Prod.fst).Nodup) (k : κ) (v : υ) : l.lookup k = some v ↔ (k, v) ∈ l := by
  rw [List.lookup_eq_some_iff]
  constructor
  · rintro ⟨before, behind, rfl, _⟩
    exact List.mem_append_right _ List.mem_cons_self
  · intro h
    obtain ⟨before, behind, rfl⟩ := List.append_of_mem h
    refine ⟨before, behind, rfl, fun pair hpair => ?_⟩
    rw [List.map_append, List.map_cons, List.nodup_append] at hnodup
    have hne := hnodup.2.2 pair.1 (List.mem_map.mpr ⟨pair, hpair, rfl⟩) k List.mem_cons_self
    exact bne_iff_ne.mpr (Ne.symm hne)

end KFsw.Lib
