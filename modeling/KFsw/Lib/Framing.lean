/-
  KFsw.Lib.Framing — readers that take a stream one symbol at a time, and
  streams cut into frames by a delimiter.

  A `Reader` turns one symbol into the next state and at most one output.  Its
  run over a stream does not depend on how the stream is cut into chunks
  (`runChunks_flatten`).

  A `Delimited` reader has one symbol, the delimiter, that always leads to the
  same state; only the delimiter makes it emit.  Such a reader is determined by
  what it does on the symbols between two delimiters:

    * `run_quiet`     — symbols that are no delimiter emit nothing;
    * `run_delim`     — a delimiter emits what the state holds and reopens;
    * `run_state`     — only the symbols after the last delimiter count for the
      state;
    * `run_between`   — a stream gives what its segments `between` two
      consecutive delimiters give, one by one.

  `ended` and `unended` are the pieces a delimiter ends and what follows the last one;
  `ended_append` says what a cut does to them.  `within` names the blocks of a stream that end in its first `n` symbols.
-/
import Mathlib.Data.List.Basic

namespace KFsw.Lib

variable {σ ι ο : Type*}

/-! ## §1. Readers. -/

/-- A reader of a stream: one symbol gives the next state and at most one output. -/
structure Reader (σ ι ο : Type*) where
  step : σ → ι → σ × Option ο

namespace Reader

variable (m : Reader σ ι ο)

/-- Read a list of symbols, collecting the outputs in order. -/
def run : σ → List ι → σ × List ο
  | s, [] => (s, [])
  | s, b :: rest =>
    let r := m.step s b
    let t := run r.1 rest
    (t.1, r.2.toList ++ t.2)

/-- Read successive chunks; the outputs are kept apart, one list for each chunk. -/
def runChunks : σ → List (List ι) → σ × List (List ο)
  | s, [] => (s, [])
  | s, c :: cs =>
    let r := m.run s c
    let t := runChunks r.1 cs
    (t.1, r.2 :: t.2)

@[simp] theorem run_nil (s : σ) : m.run s [] = (s, []) := rfl

theorem run_cons (s : σ) (b : ι) (rest : List ι) :
    m.run s (b :: rest)
      = ((m.run (m.step s b).1 rest).1,
         (m.step s b).2.toList ++ (m.run (m.step s b).1 rest).2) := rfl

theorem run_append (s : σ) (a b : List ι) :
    m.run s (a ++ b)
      = ((m.run (m.run s a).1 b).1, (m.run s a).2 ++ (m.run (m.run s a).1 b).2) := by
  induction a generalizing s with
  | nil => simp
  | cons x xs ih =>
    rw [List.cons_append, run_cons, run_cons, ih]
    simp [List.append_assoc]

/-- **Chunking does not matter**: the outputs of successive chunks, put together,
are those of the whole stream, and so is the state. -/
theorem runChunks_flatten (s : σ) (cs : List (List ι)) :
    ((m.runChunks s cs).1, (m.runChunks s cs).2.flatten) = m.run s cs.flatten := by
  induction cs generalizing s with
  | nil => rfl
  | cons c cs ih =>
    have h := ih (m.run s c).1
    rw [List.flatten_cons, run_append, ← h]
    rfl

/-! ## §2. Delimited readers. -/

/-- `delim` closes what the reader holds (`close`) and always leads to `opened`;
no other symbol emits anything. -/
structure Delimited (m : Reader σ ι ο) (delim : ι) where
  opened : σ
  close : σ → Option ο
  onDelim : ∀ s, m.step s delim = (opened, close s)
  quiet : ∀ s b, b ≠ delim → (m.step s b).2 = none

/-- The state after symbols that hold no delimiter. -/
def body (s : σ) (seg : List ι) : σ :=
  seg.foldl (fun s b => (m.step s b).1) s

@[simp] theorem body_cons (s : σ) (b : ι) (seg : List ι) :
    m.body s (b :: seg) = m.body (m.step s b).1 seg := rfl

namespace Delimited

variable {m} {delim : ι} (d : m.Delimited delim)
include d

/-- Symbols that are no delimiter emit nothing. -/
theorem run_quiet (s : σ) (seg : List ι) (h : delim ∉ seg) :
    m.run s seg = (m.body s seg, []) := by
  induction seg generalizing s with
  | nil => rfl
  | cons b seg ih =>
    have hb : b ≠ delim := fun e => h (by simp [e])
    have hseg : delim ∉ seg := fun e => h (List.mem_cons_of_mem b e)
    rw [run_cons, ih _ hseg, d.quiet s b hb]
    simp

/-- A delimiter emits what the state holds and reopens the reader. -/
theorem run_delim (s : σ) (rest : List ι) :
    m.run s (delim :: rest)
      = ((m.run d.opened rest).1, (d.close s).toList ++ (m.run d.opened rest).2) := by
  rw [run_cons, d.onDelim]

/-- One segment between two delimiters. -/
theorem run_block (s : σ) (seg : List ι) (h : delim ∉ seg) :
    m.run s (delim :: (seg ++ [delim]))
      = (d.opened, (d.close s).toList ++ (d.close (m.body d.opened seg)).toList) := by
  rw [d.run_delim, run_append, d.run_quiet _ seg h, d.run_delim]
  simp

/-- The state after a stream with a delimiter in it is the state after the symbols that
follow the last one, whatever the reader held before. -/
theorem run_state (s : σ) (stream : List ι) (h : delim ∈ stream) :
    ∃ p seg, stream = p ++ delim :: seg ∧ delim ∉ seg
      ∧ (m.run s stream).1 = m.body d.opened seg := by
  obtain ⟨r, q, hrev, hr⟩ := List.eq_append_cons_of_mem (List.mem_reverse.mpr h)
  have hstream : stream = q.reverse ++ delim :: r.reverse := by
    rw [← List.reverse_reverse stream, hrev]
    simp
  have hseg : delim ∉ r.reverse := fun e => hr (List.mem_reverse.mp e)
  refine ⟨q.reverse, r.reverse, hstream, hseg, ?_⟩
  rw [hstream, run_append, d.run_delim, d.run_quiet _ _ hseg]

end Delimited

end Reader

/-! ## §3. The segments of a stream. -/

/-- The segments between two consecutive delimiters: what stands before the first delimiter
and after the last one is no segment. -/
def between {ι : Type*} [DecidableEq ι] (delim : ι) (stream : List ι) : List (List ι) :=
  (stream.splitOn delim).tail.dropLast

section Between

variable [DecidableEq ι] {delim : ι}

/-- A stream without a delimiter has no segment. -/
theorem between_of_notMem {stream : List ι} (h : delim ∉ stream) : between delim stream = [] := by
  rw [between, List.splitOn_eq_singleton h]
  rfl

/-- What stands before the first delimiter does not count. -/
theorem between_append_delim {before : List ι} (h : delim ∉ before) (rest : List ι) :
    between delim (before ++ delim :: rest) = (rest.splitOn delim).dropLast := by
  rw [between, List.splitOn_append_cons_self_of_not_mem h, List.tail_cons]

/-- The pieces before the last delimiter, when the first of them is known. -/
theorem splitOn_dropLast_append {seg : List ι} (h : delim ∉ seg) (rest : List ι) :
    ((seg ++ delim :: rest).splitOn delim).dropLast = seg :: (rest.splitOn delim).dropLast := by
  rw [List.splitOn_append_cons_self_of_not_mem h,
    List.dropLast_cons_of_ne_nil (List.splitOn_ne_nil delim rest)]

/-- Every piece of a stream is free of the delimiter. -/
theorem notMem_of_mem_splitOn {seg stream : List ι} (h : seg ∈ stream.splitOn delim) :
    delim ∉ seg := by
  induction hn : stream.length using Nat.strongRecOn generalizing stream with
  | _ n ih =>
    by_cases hmem : delim ∈ stream
    · obtain ⟨first, rest, rfl, hfirst⟩ := List.eq_append_cons_of_mem hmem
      rw [List.splitOn_append_cons_self_of_not_mem hfirst] at h
      rcases List.mem_cons.mp h with rfl | h
      · exact hfirst
      · apply ih rest.length ?_ h rfl
        rw [← hn, List.length_append, List.length_cons]
        omega
    · rw [List.splitOn_eq_singleton hmem, List.mem_singleton] at h
      rwa [h]

theorem notMem_of_mem_between {seg stream : List ι} (h : seg ∈ between delim stream) :
    delim ∉ seg :=
  notMem_of_mem_splitOn (List.mem_of_mem_tail (List.dropLast_subset _ h))

namespace Reader.Delimited

variable {m : Reader σ ι ο} (d : m.Delimited delim)
include d

/-- From the opened state, every piece that a delimiter ends emits what the reader then
holds. -/
theorem run_opened (stream : List ι) :
    (m.run d.opened stream).2
      = ((stream.splitOn delim).dropLast).filterMap (fun seg => d.close (m.body d.opened seg)) := by
  -- by length: one delimiter takes the first piece away
  induction hn : stream.length using Nat.strongRecOn generalizing stream with
  | _ n ih =>
    by_cases hmem : delim ∈ stream
    · obtain ⟨seg, rest, rfl, hseg⟩ := List.eq_append_cons_of_mem hmem
      have hlen : rest.length < n := by
        rw [← hn, List.length_append, List.length_cons]
        omega
      rw [splitOn_dropLast_append hseg, List.filterMap_cons, ← ih rest.length hlen rest rfl,
        run_append, d.run_quiet _ seg hseg, d.run_delim]
      cases d.close (m.body d.opened seg) <;> rfl
    · rw [List.splitOn_eq_singleton hmem, d.run_quiet _ stream hmem]
      rfl

/-- **A stream gives what its segments give**: for a reader that emits nothing for the symbols
before the first delimiter. -/
theorem run_between (s : σ) (stream : List ι)
    (hs : ∀ before, delim ∉ before → d.close (m.body s before) = none) :
    (m.run s stream).2
      = (between delim stream).filterMap (fun seg => d.close (m.body d.opened seg)) := by
  by_cases hmem : delim ∈ stream
  · obtain ⟨before, rest, rfl, hbefore⟩ := List.eq_append_cons_of_mem hmem
    rw [between_append_delim hbefore, ← d.run_opened, run_append, d.run_quiet _ before hbefore,
      d.run_delim, hs before hbefore]
    rfl
  · rw [between_of_notMem hmem, d.run_quiet _ stream hmem]
    rfl

end Reader.Delimited

end Between

/-! ### The pieces a delimiter ends. -/

/-- The pieces of a stream that a delimiter ends. -/
def ended {ι : Type*} [DecidableEq ι] (delim : ι) (stream : List ι) : List (List ι) :=
  (stream.splitOn delim).dropLast

/-- What follows the last delimiter. -/
def unended {ι : Type*} [DecidableEq ι] (delim : ι) (stream : List ι) : List ι :=
  ((stream.splitOn delim).getLast?).getD []

section Ended

variable [DecidableEq ι] {delim : ι}

theorem ended_of_notMem {stream : List ι} (h : delim ∉ stream) : ended delim stream = [] := by
  rw [ended, List.splitOn_eq_singleton h]
  rfl

theorem unended_of_notMem {stream : List ι} (h : delim ∉ stream) :
    unended delim stream = stream := by
  rw [unended, List.splitOn_eq_singleton h]
  rfl

/-- The first piece and what its delimiter leaves. -/
theorem ended_piece {piece : List ι} (h : delim ∉ piece) (rest : List ι) :
    ended delim (piece ++ delim :: rest) = piece :: ended delim rest :=
  splitOn_dropLast_append h rest

theorem unended_piece {piece : List ι} (h : delim ∉ piece) (rest : List ι) :
    unended delim (piece ++ delim :: rest) = unended delim rest := by
  rw [unended, List.splitOn_append_cons_self_of_not_mem h, unended]
  cases hsplit : rest.splitOn delim with
  | nil => exact absurd hsplit (List.splitOn_ne_nil delim rest)
  | cons first more => rw [List.getLast?_cons_cons]

/-- **A cut stream**: the pieces of its first part, then those of what it left unended and the
second part. -/
theorem ended_append (a b : List ι) :
    ended delim (a ++ b) = ended delim a ++ ended delim (unended delim a ++ b)
      ∧ unended delim (a ++ b) = unended delim (unended delim a ++ b) := by
  -- by length: one delimiter takes the first piece away
  induction hn : a.length using Nat.strongRecOn generalizing a with
  | _ n ih =>
    by_cases hmem : delim ∈ a
    · obtain ⟨piece, rest, rfl, hpiece⟩ := List.eq_append_cons_of_mem hmem
      have hlen : rest.length < n := by
        rw [← hn, List.length_append, List.length_cons]
        omega
      obtain ⟨hended, hunended⟩ := ih rest.length hlen rest rfl
      rw [List.append_assoc, List.cons_append, ended_piece hpiece, ended_piece hpiece,
        unended_piece hpiece, unended_piece hpiece]
      exact ⟨by rw [hended, List.cons_append], hunended⟩
    · rw [ended_of_notMem hmem, unended_of_notMem hmem]
      exact ⟨rfl, rfl⟩

end Ended

/-! ## §4. The beginning of a stream of blocks. -/

/-- The blocks that end within the first `n` symbols. -/
def within {α : Type*} (size : α → Nat) : Nat → List α → List α
  | _, [] => []
  | n, a :: blocks => if size a ≤ n then a :: within size (n - size a) blocks else []

theorem within_map {α β : Type*} (size : β → Nat) (f : α → β) (n : Nat) (blocks : List α) :
    within size n (blocks.map f) = (within (fun a => size (f a)) n blocks).map f := by
  induction blocks generalizing n with
  | nil => rfl
  | cons a blocks ih =>
    rw [List.map_cons, within, within, ih]
    split <;> rfl

/-- A longer beginning holds the blocks of a shorter one, in the same order. -/
theorem within_prefix {α : Type*} (size : α → Nat) {n m : Nat} (h : n ≤ m) (blocks : List α) :
    within size n blocks <+: within size m blocks := by
  induction blocks generalizing n m with
  | nil => exact List.prefix_rfl
  | cons a blocks ih =>
    rw [within, within]
    by_cases hn : size a ≤ n
    · rw [if_pos hn, if_pos (Nat.le_trans hn h)]
      exact List.prefix_cons_inj a |>.mpr (ih (Nat.sub_le_sub_right h _))
    · rw [if_neg hn]
      exact List.nil_prefix

end KFsw.Lib
