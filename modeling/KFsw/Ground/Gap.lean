/-
  KFsw.Ground.Gap — what the gap view of the store says about a pass.

  The node counts its samples without end and sends the counter modulo 65536.
  `cs` stands for the true counters of the recorded samples of one series, in
  order of reception.

  Main results:
    * `gap_exact`        — receptions in order: the rows are exactly the steps
      that pass numbers over, with the numbers passed;
    * `gap_unheard_iff`  — receptions in any order: when the view never counts a
      recorded sample as missing.
-/
import KFsw.Ground.Store
import KFsw.Lib.Cyclic

namespace KFsw.Ground

open KFsw.Lib

/-! ## §1. The view in terms of the true counters. -/

theorem missing_counters (a b : Nat) :
    missing (a % 65536) (b % 65536) = skipped 65536 a b :=
  tmod_skipped (by decide) a b

/-- The view's row for two counters stored modulo 65536. -/
theorem gapRow_counters (node report a b : Nat) :
    gapRow node report (a % 65536, b % 65536)
      = if skipped 65536 a b ≠ 0 then
          some ⟨node, report, a % 65536, b % 65536, skipped 65536 a b⟩
        else none := by
  rw [gapRow, missing_counters]

section Run

variable (sha256 : String → String) (calls : List StoreCall) (node report : Nat) (cs : List Nat)

/-- The rows of a series whose true counters are `cs`. -/
theorem gapOf_counters
    (hcs : sequencesOf ((storeReader sha256).run StoreFile.new calls).2 node report
      = cs.map (· % 65536)) :
    gapOf ((storeReader sha256).run StoreFile.new calls).1.db node report
      = (pairs cs).filterMap fun p => gapRow node report (p.1 % 65536, p.2 % 65536) := by
  rw [gapOf_run, hcs, pairs_map, List.filterMap_map]
  rfl

/-! ## §2. Receptions in order. -/

/-- The row of a step from one counter to a higher one. -/
def stepRow (p : Nat × Nat) : GapRow :=
  ⟨node, report, p.1 % 65536, p.2 % 65536, (p.2 : Int) - p.1 - 1⟩

theorem gapRow_step (p : Nat × Nat) (hp : p.1 < p.2 ∧ p.2 ≤ p.1 + 65536) :
    gapRow node report (p.1 % 65536, p.2 % 65536)
      = if decide (p.2 - p.1 > 1) = true then some (stepRow node report p) else none := by
  rw [gapRow_counters, skipped_of_lt hp.1 hp.2]
  by_cases hstep : p.2 - p.1 > 1
  · rw [if_pos (by omega), if_pos (decide_eq_true hstep)]
    rfl
  · rw [if_neg (by omega), if_neg (by simpa using hstep)]

/-- **Gap accounting is exact for a series received in order.**  When the counters rise by
steps between 1 and 65536, the rows of the series are the steps above 1, each with the numbers
it passes over, and these add up to what lies between the first and the last reception.  The
rows depend on the receptions of no other series. -/
theorem gap_exact
    (hcs : sequencesOf ((storeReader sha256).run StoreFile.new calls).2 node report
      = cs.map (· % 65536))
    (hstep : ∀ p ∈ pairs cs, p.1 < p.2 ∧ p.2 ≤ p.1 + 65536) :
    gapOf ((storeReader sha256).run StoreFile.new calls).1.db node report
        = ((pairs cs).filter fun p => p.2 - p.1 > 1).map (stepRow node report)
      ∧ (∀ hne : cs ≠ [],
          ((gapOf ((storeReader sha256).run StoreFile.new calls).1.db node report).map
              GapRow.missing).sum
            = (cs.getLast hne : Int) - cs.head hne - ((cs.length : Int) - 1))
      ∧ ∀ calls', sequencesOf ((storeReader sha256).run StoreFile.new calls').2 node report
            = sequencesOf ((storeReader sha256).run StoreFile.new calls).2 node report →
          gapOf ((storeReader sha256).run StoreFile.new calls').1.db node report
            = gapOf ((storeReader sha256).run StoreFile.new calls).1.db node report := by
  have hrows : gapOf ((storeReader sha256).run StoreFile.new calls).1.db node report
      = ((pairs cs).filter fun p => p.2 - p.1 > 1).map (stepRow node report) := by
    rw [gapOf_counters sha256 calls node report cs hcs, ← List.filterMap_eq_map,
      List.filterMap_filter]
    exact List.filterMap_congr fun p hp => gapRow_step node report p (hstep p hp)
  refine ⟨hrows, ?_, ?_⟩
  · intro hne
    rw [hrows, List.map_map]
    -- the steps of 1 that have no row pass over nothing
    have hskip : ((pairs cs).filter fun p => p.2 - p.1 > 1).map
          (GapRow.missing ∘ stepRow node report)
        = ((pairs cs).map fun p => (p.2 : Int) - p.1 - 1).filter fun x => decide (x ≠ 0) := by
      rw [List.filter_map]
      congr 1
      apply List.filter_congr
      intro p hp
      have := hstep p hp
      simp only [Function.comp, decide_eq_decide]
      omega
    have hcast : (pairs cs).map (fun p => (p.2 : Int) - p.1 - 1)
        = (pairs (cs.map fun c : Nat => (c : Int))).map fun p => p.2 - p.1 - 1 := by
      rw [pairs_map, List.map_map]
      rfl
    rw [hskip, sum_filter_ne_zero, hcast, sum_pairs _ (by simpa using hne)]
    simp
  -- the view reads nothing of a series but its sequence numbers
  · intro calls' hsame
    rw [gapOf_run, gapOf_run, hsame]

/-! ## §3. Receptions in any order. -/

/-- What the view promises about one series: no row counts a recorded sequence number among
the missing ones, and a series recorded without a hole has no row. -/
def GapsUnheard (rows : List GapRow) (cs : List Nat) : Prop :=
  (∀ g ∈ rows, ∀ c ∈ cs,
      ¬ ∃ i : Nat, 1 ≤ i ∧ (i : Int) ≤ g.missing ∧ c % 65536 = (g.afterSequence + i) % 65536)
    ∧ ((∀ n, (∃ c ∈ cs, c ≤ n) → (∃ c ∈ cs, n ≤ c) → n ∈ cs) → rows = [])

/-- Every reception is followed by the next higher recorded counter, or the highest recorded
one by the lowest, these leaving a number between them unrecorded or the whole cycle. -/
def RisesOrRestarts (cs : List Nat) : Prop :=
  ∀ p ∈ pairs cs,
    (p.1 < p.2 ∧ ∀ c ∈ cs, ¬ (p.1 < c ∧ c < p.2))
      ∨ ((∀ c ∈ cs, p.2 ≤ c ∧ c ≤ p.1)
          ∧ (p.1 = p.2 + 65535 ∨ ∃ n, p.2 ≤ n ∧ n ≤ p.1 ∧ n ∉ cs))

/-- The promise, neighbour by neighbour: none passes a recorded counter, and none passes
anything when the series has no hole. -/
theorem gapsUnheard_iff_pairs
    (hcs : sequencesOf ((storeReader sha256).run StoreFile.new calls).2 node report
      = cs.map (· % 65536)) :
    GapsUnheard (gapOf ((storeReader sha256).run StoreFile.new calls).1.db node report) cs
      ↔ (∀ p ∈ pairs cs, ∀ c ∈ cs, ¬ Passed 65536 p.1 p.2 c)
        ∧ ((∀ n, (∃ c ∈ cs, c ≤ n) → (∃ c ∈ cs, n ≤ c) → n ∈ cs) →
            ∀ p ∈ pairs cs, skipped 65536 p.1 p.2 = 0) := by
  rw [gapOf_counters sha256 calls node report cs hcs, GapsUnheard]
  refine and_congr ⟨?_, ?_⟩ (imp_congr Iff.rfl ?_)
  · intro h p hp c hc hpassed
    obtain ⟨i, hi, hle, hmod⟩ := hpassed
    have hrow : gapRow node report (p.1 % 65536, p.2 % 65536)
        = some ⟨node, report, p.1 % 65536, p.2 % 65536, skipped 65536 p.1 p.2⟩ := by
      rw [gapRow_counters, if_pos (by omega)]
    refine h _ (List.mem_filterMap.mpr ⟨p, hp, hrow⟩) c hc ⟨i, hi, hle, ?_⟩
    rw [hmod, Nat.mod_add_mod]
  · intro h g hg c hc hcounted
    obtain ⟨i, hi, hle, hmod⟩ := hcounted
    obtain ⟨p, hp, hrow⟩ := List.mem_filterMap.mp hg
    rw [gapRow_counters] at hrow
    split at hrow
    · injection hrow with hrow
      rw [← hrow] at hle hmod
      refine h p hp c hc ⟨i, hi, hle, ?_⟩
      rw [hmod, Nat.mod_add_mod]
    · exact absurd hrow (by simp)
  · rw [List.filterMap_eq_nil_iff]
    refine forall₂_congr fun p _ => ?_
    rw [gapRow_counters]
    by_cases hz : skipped 65536 p.1 p.2 = 0
    · simp [hz]
    · simp [hz]

/-- A view that keeps its promise has seen the counters rise to the next one, or start over. -/
theorem risesOrRestarts_of {cs : List Nat} {lo : Nat}
    (hwindow : ∀ c ∈ cs, lo ≤ c ∧ c < lo + 65536)
    (hpassed : ∀ p ∈ pairs cs, ∀ c ∈ cs, ¬ Passed 65536 p.1 p.2 c)
    (hfull : (∀ n, (∃ c ∈ cs, c ≤ n) → (∃ c ∈ cs, n ≤ c) → n ∈ cs) →
      ∀ p ∈ pairs cs, skipped 65536 p.1 p.2 = 0) : RisesOrRestarts cs := by
  intro p hp
  obtain ⟨h1, h2⟩ := mem_of_mem_pairs hp
  obtain ⟨hlo1, hhi1⟩ := hwindow _ h1
  obtain ⟨hlo2, hhi2⟩ := hwindow _ h2
  by_cases hlt : p.1 < p.2
  · left
    refine ⟨hlt, fun c hc hbetween => hpassed p hp c hc ?_⟩
    obtain ⟨hlo, hhi⟩ := hwindow c hc
    exact (passed_of_lt_iff hlo1 hhi2 hlo hhi hlt).mpr hbetween
  · right
    have hinside : ∀ c ∈ cs, p.2 ≤ c ∧ c ≤ p.1 := by
      intro c hc
      obtain ⟨hlo, hhi⟩ := hwindow c hc
      have hout := mt (passed_of_ge_iff hhi1 hlo2 hlo hhi (by omega)).mpr (hpassed p hp c hc)
      omega
    refine ⟨hinside, ?_⟩
    -- were every number between recorded, the view would have no row at all
    by_contra hno
    push Not at hno
    have hall : ∀ n, (∃ c ∈ cs, c ≤ n) → (∃ c ∈ cs, n ≤ c) → n ∈ cs := by
      intro n hbelow habove
      obtain ⟨c, hc, hcn⟩ := hbelow
      obtain ⟨d, hd, hnd⟩ := habove
      exact hno.2 n ((hinside c hc).1.trans hcn) (hnd.trans (hinside d hd).2)
    have hzero := hfull hall p hp
    rw [skipped_of_ge (by omega) (by omega)] at hzero
    omega

/-- Such counters pass none of theirs. -/
theorem not_passed_of {cs : List Nat} {lo : Nat}
    (hwindow : ∀ c ∈ cs, lo ≤ c ∧ c < lo + 65536) (h : RisesOrRestarts cs) :
    ∀ p ∈ pairs cs, ∀ c ∈ cs, ¬ Passed 65536 p.1 p.2 c := by
  intro p hp c hc
  obtain ⟨h1, h2⟩ := mem_of_mem_pairs hp
  obtain ⟨hlo1, hhi1⟩ := hwindow _ h1
  obtain ⟨hlo2, hhi2⟩ := hwindow _ h2
  obtain ⟨hlo, hhi⟩ := hwindow c hc
  -- a rise passes the numbers between, a restart those outside the recorded ones
  rcases h p hp with ⟨hlt, hnone⟩ | ⟨hinside, _⟩
  · rw [passed_of_lt_iff hlo1 hhi2 hlo hhi hlt]
    exact hnone c hc
  · rw [passed_of_ge_iff hhi1 hlo2 hlo hhi (hinside _ h1).1]
    have := hinside c hc
    omega

/-- Without a hole they pass nothing. -/
theorem skipped_eq_zero_of {cs : List Nat} {lo : Nat}
    (hwindow : ∀ c ∈ cs, lo ≤ c ∧ c < lo + 65536) (h : RisesOrRestarts cs)
    (hall : ∀ n, (∃ c ∈ cs, c ≤ n) → (∃ c ∈ cs, n ≤ c) → n ∈ cs) :
    ∀ p ∈ pairs cs, skipped 65536 p.1 p.2 = 0 := by
  intro p hp
  obtain ⟨h1, h2⟩ := mem_of_mem_pairs hp
  obtain ⟨hlo1, hhi1⟩ := hwindow _ h1
  obtain ⟨hlo2, hhi2⟩ := hwindow _ h2
  rcases h p hp with ⟨hlt, hnone⟩ | ⟨hinside, hcycle | ⟨n, hn2, hn1, hnot⟩⟩
  · rw [skipped_of_lt hlt (by omega)]
    by_contra hpos
    -- the number after `p.1` was recorded and lies strictly between
    have hnext := hall (p.1 + 1) ⟨p.1, h1, by omega⟩ ⟨p.2, h2, by omega⟩
    exact hnone _ hnext ⟨by omega, by omega⟩
  · rw [skipped_of_ge (hinside _ h1).1 (by omega)]
    omega
  · exact absurd (hall n ⟨p.2, h2, hn2⟩ ⟨p.1, h1, hn1⟩) hnot

/-- **When the gap view is right about what was heard.**  For counters out of one window of
65536, in any order and with any repetitions, the view keeps its promise about the series
exactly when every reception is followed by the next higher recorded counter, or the highest
by the lowest. -/
theorem gap_unheard_iff (lo : Nat)
    (hcs : sequencesOf ((storeReader sha256).run StoreFile.new calls).2 node report
      = cs.map (· % 65536))
    (hwindow : ∀ c ∈ cs, lo ≤ c ∧ c < lo + 65536) :
    GapsUnheard (gapOf ((storeReader sha256).run StoreFile.new calls).1.db node report) cs
      ↔ RisesOrRestarts cs := by
  rw [gapsUnheard_iff_pairs sha256 calls node report cs hcs]
  constructor
  · intro h
    exact risesOrRestarts_of hwindow h.1 h.2
  · intro h
    exact ⟨not_passed_of hwindow h, skipped_eq_zero_of hwindow h⟩

end Run

/-! ## §4. Two passes. -/

/-- A sample of report 0 with one value. -/
def sampleWith (sequence : UInt8) : Bytes := [1, 0, 0, sequence, 0, 0, 0, 1, 1, 0, 0]

/-- A store without a document, and one reception of node 1 for each sequence number. -/
def passOf (sequences : List UInt8) : List StoreCall :=
  .init none 0 :: sequences.map fun q => .record ⟨1, sampleWith q, 0⟩

/-- Counters 3, 4 and 7 in order, with another node's reception between them. -/
theorem gap_exact_pass :
    gapOf ((storeReader id).run StoreFile.new
          (passOf [3, 4] ++ [.record ⟨2, sampleWith 9, 0⟩, .record ⟨1, sampleWith 7, 0⟩])).1.db 1 0
        = ((pairs [3, 4, 7]).filter fun p => p.2 - p.1 > 1).map (stepRow 1 0)
      ∧ (∀ hne : [3, 4, 7] ≠ ([] : List Nat),
          ((gapOf ((storeReader id).run StoreFile.new
              (passOf [3, 4] ++ [.record ⟨2, sampleWith 9, 0⟩,
                .record ⟨1, sampleWith 7, 0⟩])).1.db 1 0).map GapRow.missing).sum
            = (([3, 4, 7] : List Nat).getLast hne : Int) - ([3, 4, 7] : List Nat).head hne
              - ((([3, 4, 7] : List Nat).length : Int) - 1))
      ∧ ∀ calls', sequencesOf ((storeReader id).run StoreFile.new calls').2 1 0
            = sequencesOf ((storeReader id).run StoreFile.new
                (passOf [3, 4] ++ [.record ⟨2, sampleWith 9, 0⟩,
                  .record ⟨1, sampleWith 7, 0⟩])).2 1 0 →
          gapOf ((storeReader id).run StoreFile.new calls').1.db 1 0
            = gapOf ((storeReader id).run StoreFile.new
                (passOf [3, 4] ++ [.record ⟨2, sampleWith 9, 0⟩,
                  .record ⟨1, sampleWith 7, 0⟩])).1.db 1 0 :=
  gap_exact id _ 1 0 [3, 4, 7] (by decide) (by decide)

/-- One poll for three samples, which the node answers newest first: the view counts the
sample it heard last as missing after the first. -/
theorem gap_counts_heard_sample :
    sequencesOf ((storeReader id).run StoreFile.new (passOf [5, 4, 3])).2 1 0
        = [5, 4, 3].map (· % 65536)
      ∧ (∀ c ∈ [5, 4, 3], 3 ≤ c ∧ c < 3 + 65536)
      ∧ (∀ n, (∃ c ∈ [5, 4, 3], c ≤ n) → (∃ c ∈ [5, 4, 3], n ≤ c) → n ∈ [5, 4, 3])
      ∧ gapOf ((storeReader id).run StoreFile.new (passOf [5, 4, 3])).1.db 1 0
          = [⟨1, 0, 5, 4, 65534⟩, ⟨1, 0, 4, 3, 65534⟩]
      ∧ ¬ GapsUnheard (gapOf ((storeReader id).run StoreFile.new (passOf [5, 4, 3])).1.db 1 0)
          [5, 4, 3] := by
  have hrows : gapOf ((storeReader id).run StoreFile.new (passOf [5, 4, 3])).1.db 1 0
      = [⟨1, 0, 5, 4, 65534⟩, ⟨1, 0, 4, 3, 65534⟩] := by decide
  refine ⟨by decide, by decide, ?_, hrows, ?_⟩
  · intro n hbelow habove
    obtain ⟨c, hc, hcn⟩ := hbelow
    obtain ⟨d, hd, hnd⟩ := habove
    simp only [List.mem_cons, List.not_mem_nil, or_false] at hc hd ⊢
    omega
  · rw [hrows]
    intro h
    exact h.1 ⟨1, 0, 5, 4, 65534⟩ (by simp) 3 (by simp) ⟨65534, by decide, by decide, by decide⟩

/-- In order, and from the highest back to the lowest across a hole. -/
theorem gap_unheard_iff_restart :
    GapsUnheard (gapOf ((storeReader id).run StoreFile.new (passOf [3, 5, 3])).1.db 1 0)
      [3, 5, 3] := by
  refine (gap_unheard_iff id (passOf [3, 5, 3]) 1 0 [3, 5, 3] 3 (by decide) (by decide)).mpr ?_
  intro p hp
  rcases List.mem_cons.mp hp with rfl | hp
  · exact .inl (by decide)
  · rw [List.mem_singleton.mp hp]
    exact .inr ⟨by decide, .inr ⟨4, by decide⟩⟩

end KFsw.Ground
