/-
  KFsw.Lib.Table — database tables whose rows get increasing numbers, and the
  window function LEAD over them.

  A `Table` keeps its rows in order of their numbers and carries the proof, so
  that "ordered by number" is the order of the list.  `lead key` pairs each row
  with the next one of its key, as `LEAD(..) OVER (PARTITION BY key ORDER BY id)`
  does.

  Main results:
    * `Table.lt_nextId`  — a new row is numbered above every row there is;
    * `lead_partition`   — within one key, LEAD pairs the neighbours;
    * `sum_pairs`        — differences of neighbours telescope.
-/
import Mathlib.Data.List.Basic
import Mathlib.Algebra.BigOperators.Group.List.Basic
import Mathlib.Algebra.Ring.Int.Defs

namespace KFsw.Lib

variable {α β ρ κ : Type*}

/-! ## §1. Neighbours in a list. -/

/-- Each entry with the one after it. -/
def pairs : List α → List (α × α)
  | a :: b :: l => (a, b) :: pairs (b :: l)
  | _ => []

@[simp] theorem pairs_nil : pairs ([] : List α) = [] := rfl

@[simp] theorem pairs_singleton (a : α) : pairs [a] = [] := rfl

@[simp] theorem pairs_cons_cons (a b : α) (l : List α) :
    pairs (a :: b :: l) = (a, b) :: pairs (b :: l) := rfl

/-- The first pair of a list, if it has one, starts with the list's head. -/
theorem pairs_cons (a : α) (l : List α) :
    pairs (a :: l) = (l.head?.map fun b => (a, b)).toList ++ pairs l := by
  cases l <;> rfl

/-- A last entry is paired with the one before it. -/
theorem pairs_concat (l : List α) (a : α) :
    pairs (l ++ [a]) = pairs l ++ (l.getLast?.map fun b => (b, a)).toList := by
  induction l with
  | nil => rfl
  | cons b l ih =>
    cases l with
    | nil => rfl
    | cons c l =>
      rw [List.cons_append, List.cons_append, pairs_cons_cons, ← List.cons_append, ih,
        pairs_cons_cons, List.getLast?_cons_cons, List.cons_append]

theorem pairs_map (f : α → β) (l : List α) :
    pairs (l.map f) = (pairs l).map fun p => (f p.1, f p.2) := by
  induction l with
  | nil => rfl
  | cons a l ih =>
    cases l with
    | nil => rfl
    | cons b l =>
      rw [pairs_cons_cons, List.map_cons, List.map_cons, List.map_cons, pairs_cons_cons,
        ← List.map_cons, ih]

theorem mem_of_mem_pairs {l : List α} {p : α × α} (h : p ∈ pairs l) : p.1 ∈ l ∧ p.2 ∈ l := by
  induction l with
  | nil => exact absurd h (by simp)
  | cons a l ih =>
    cases l with
    | nil => exact absurd h (by simp)
    | cons b l =>
      rw [pairs_cons_cons] at h
      rcases List.mem_cons.mp h with rfl | h
      · exact ⟨List.mem_cons_self, List.mem_cons_of_mem _ List.mem_cons_self⟩
      · obtain ⟨h1, h2⟩ := ih h
        exact ⟨List.mem_cons_of_mem _ h1, List.mem_cons_of_mem _ h2⟩

/-- **Differences telescope**: what the pairs pass over, one number less than each difference,
sums to the whole distance less the number of steps. -/
theorem sum_pairs (l : List Int) (hl : l ≠ []) :
    ((pairs l).map fun p => p.2 - p.1 - 1).sum
      = l.getLast hl - l.head hl - (l.length - 1 : Int) := by
  induction l with
  | nil => exact absurd rfl hl
  | cons a l ih =>
    cases l with
    | nil => simp
    | cons b l =>
      rw [pairs_cons_cons, List.map_cons, List.sum_cons, ih (by simp),
        List.getLast_cons (List.cons_ne_nil b l)]
      simp only [List.head_cons, List.length_cons]
      push_cast
      omega

/-- Leaving out what is zero does not change a sum. -/
theorem sum_filter_ne_zero (l : List Int) : (l.filter fun x => decide (x ≠ 0)).sum = l.sum := by
  induction l with
  | nil => rfl
  | cons x l ih =>
    by_cases hx : x = 0
    · rw [List.filter_cons_of_neg (by simp [hx]), ih, List.sum_cons, hx, zero_add]
    · rw [List.filter_cons_of_pos (by simp [hx]), List.sum_cons, List.sum_cons, ih]

/-! ## §2. The window function LEAD. -/

section Lead

variable [DecidableEq κ] (key : ρ → κ)

/-- `LEAD(..) OVER (PARTITION BY key ORDER BY ..)` for rows that stand in the order asked
for: each row with the next one of its key. -/
def lead : List ρ → List (ρ × Option ρ)
  | [] => []
  | r :: rest => (r, rest.find? fun q => decide (key q = key r)) :: lead rest

/-- The rows of one key. -/
def partition (k : κ) (rows : List ρ) : List ρ := rows.filter fun r => decide (key r = k)

theorem partition_cons_of_pos {k : κ} {r : ρ} {rows : List ρ} (hk : key r = k) :
    partition key k (r :: rows) = r :: partition key k rows :=
  List.filter_cons_of_pos (by simp [hk])

theorem partition_cons_of_neg {k : κ} {r : ρ} {rows : List ρ} (hk : key r ≠ k) :
    partition key k (r :: rows) = partition key k rows :=
  List.filter_cons_of_neg (by simp [hk])

/-- **LEAD pairs neighbours**: the rows of one key that have a next one, each with it, are the
neighbours among the rows of that key. -/
theorem lead_partition (k : κ) (rows : List ρ) :
    ((lead key rows).filter fun e => decide (key e.1 = k)).filterMap
        (fun e => e.2.map fun q => (e.1, q))
      = pairs (partition key k rows) := by
  induction rows with
  | nil => rfl
  | cons r rest ih =>
    by_cases hk : key r = k
    · have hnext : (rest.find? fun q => decide (key q = key r))
          = (partition key k rest).head? := by
        rw [hk, partition, List.head?_filter]
      rw [lead, partition_cons_of_pos key hk, pairs_cons, ← ih,
        List.filter_cons_of_pos (by simp [hk]), hnext]
      cases (partition key k rest).head? <;> rfl
    · rw [lead, partition_cons_of_neg key hk, ← ih, List.filter_cons_of_neg (by simp [hk])]

end Lead

/-! ## §3. Tables with increasing row numbers. -/

/-- A table: its rows with their numbers, in order of number. -/
structure Table (ρ : Type*) where
  rows : List (Nat × ρ)
  ordered : rows.Pairwise fun a b => a.1 < b.1

namespace Table

def empty : Table ρ := ⟨[], List.Pairwise.nil⟩

/-- The number of the next row: one more than the largest there is. -/
def nextId (t : Table ρ) : Nat :=
  match t.rows.getLast? with
  | none => 1
  | some r => r.1 + 1

theorem lt_nextId (t : Table ρ) (r : Nat × ρ) (h : r ∈ t.rows) : r.1 < t.nextId := by
  obtain ⟨rows, ordered⟩ := t
  rcases List.eq_nil_or_concat' rows with rfl | ⟨pre, last, rfl⟩
  · exact absurd h (by simp)
  · have hnext : nextId ⟨pre ++ [last], ordered⟩ = last.1 + 1 := by simp [nextId]
    rw [hnext]
    rcases List.mem_append.mp h with hpre | hlast
    · have := (List.pairwise_append.mp ordered).2.2 r hpre last (List.mem_singleton_self last)
      omega
    · rw [List.mem_singleton.mp hlast]
      omega

/-- `INSERT`: the new row goes last, under the next number. -/
def insert (t : Table ρ) (r : ρ) : Table ρ :=
  ⟨t.rows ++ [(t.nextId, r)], by
    refine List.pairwise_append.mpr ⟨t.ordered, List.pairwise_singleton _ _, ?_⟩
    intro a ha b hb
    rw [List.mem_singleton.mp hb]
    exact lt_nextId t a ha⟩

/-- The rows without their numbers, in order. -/
def contents (t : Table ρ) : List ρ := t.rows.map Prod.snd

@[simp] theorem contents_empty : (empty : Table ρ).contents = [] := rfl

@[simp] theorem contents_insert (t : Table ρ) (r : ρ) :
    (t.insert r).contents = t.contents ++ [r] := by
  simp [contents, insert]

end Table

end KFsw.Lib
