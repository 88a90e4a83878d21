/-
  KFsw.Ground.Recent — the duplicate filter of the bridge, `RecentSamples` of
  `tools/ground/hk-bridge.py`.

  Times are the values of `time.monotonic()`, which are floats; the code only
  subtracts and compares them.  A difference is rounded, so all that is used of
  them is what a `Clock` has: doubles are such readings, and so are exact ones.

  The table is tied to the history of accepted calls by `TableOf`: it holds the
  last 1024 of them, less those 60 seconds old when it was last looked at.
  `accept` looks at the oldest entry only, which is enough because the accepted
  calls are in order of time.

  Main results:
    * `accept_step`          — one call keeps `TableOf`;
    * `run_tableOf`          — so does every run;
    * `recentSamples_exact`  — which calls are refused, and what the table holds.
-/
import KFsw.Lib.Binary64
import KFsw.Lib.Bytes
import KFsw.Lib.Framing
import KFsw.Lib.History

namespace KFsw.Ground

open KFsw.Lib

variable {T : Type*} [LinearOrder T] [Sub T] [NatCast T] [Clock T]

/-! ## §1. The filter. -/

/-- What `RecentSamples` keeps: (node, sample) and when it was accepted. -/
structure RecentSamples (T : Type*) where
  seen : OrderedDict (Nat × Bytes) T

/-- `RecentSamples.__init__`. -/
def RecentSamples.init : RecentSamples T := ⟨OrderedDict.empty⟩

/-- `RecentSamples.accept`. -/
def RecentSamples.accept (r : RecentSamples T) (node : Nat) (sample : Bytes) (now : T) :
    RecentSamples T × Bool :=
  let seen := r.seen.popWhile fun inserted => decide (now - inserted ≥ 60)
  let key := (node, sample)
  if seen.contains key then
    (⟨seen⟩, false)
  else
    let seen := seen.set key now
    if seen.length > 1024 then (⟨seen.popFirst⟩, true) else (⟨seen⟩, true)

/-- The arguments of one call of `accept`. -/
structure AcceptCall (T : Type*) where
  node : Nat
  sample : Bytes
  now : T
  deriving DecidableEq

/-- What an accepted call puts into the table. -/
def AcceptCall.entry (c : AcceptCall T) : (Nat × Bytes) × T := ((c.node, c.sample), c.now)

/-- A run of calls; its outputs are the accepted ones, in order. -/
def recentReader (T : Type*) [LinearOrder T] [Sub T] [NatCast T] :
    Reader (RecentSamples T) (AcceptCall T) (AcceptCall T) :=
  ⟨fun r c =>
    let a := r.accept c.node c.sample c.now
    (a.1, if a.2 then some c else none)⟩

/-! ## §2. The table of a history. -/

/-- An entry inside the 60-second window at `now`. -/
def fresh (now : T) (e : (Nat × Bytes) × T) : Bool := decide (now - e.2 < 60)

omit [Clock T] in
theorem fresh_iff (now : T) (e : (Nat × Bytes) × T) : fresh now e = true ↔ now - e.2 < 60 :=
  decide_eq_true_iff

omit [Clock T] in
theorem not_fresh (now : T) (e : (Nat × Bytes) × T) :
    (!fresh now e) = decide (now - e.2 ≥ 60) := by
  unfold fresh
  by_cases h : now - e.2 < 60
  · simp [h, not_le.mpr h]
  · simp [h, not_lt.mp h]

theorem fresh_of_later {now : T} {a b : (Nat × Bytes) × T} (hab : a.2 ≤ b.2)
    (ha : fresh now a = true) : fresh now b = true := by
  rw [fresh_iff] at *
  exact (Clock.sub_le_sub_left hab now).trans_lt ha

theorem fresh_of_earlier_now {now t : T} {e : (Nat × Bytes) × T} (ht : t ≤ now)
    (h : fresh now e = true) : fresh t e = true := by
  rw [fresh_iff] at *
  exact (Clock.sub_le_sub_right ht e.2).trans_lt h

theorem fresh_self (now : T) (key : Nat × Bytes) : fresh now (key, now) = true := by
  rw [fresh_iff]
  exact Clock.sub_self_lt now (n := 60) (by decide)

/-- **The invariant**: `r` holds the last 1024 of the accepted entries `E`, less those that
were 60 seconds old at `t`, the time of the last call. -/
structure TableOf (E : List ((Nat × Bytes) × T)) (t : T) (r : RecentSamples T) : Prop where
  sorted : E.Pairwise fun a b => a.2 ≤ b.2
  upto : ∀ e ∈ E, e.2 ≤ t
  table : r.seen.entries = (keepLast 1024 E).filter (fresh t)

theorem keepLast_mono {E : List ((Nat × Bytes) × T)} (now : T)
    (hE : E.Pairwise fun a b => a.2 ≤ b.2) :
    E.Pairwise fun a b => fresh now a = true → fresh now b = true :=
  hE.imp fun hab ha => fresh_of_later hab ha

/-- What `accept` leaves after it has dropped the old entries. -/
theorem popWhile_entries {E : List ((Nat × Bytes) × T)} {t now : T} {r : RecentSamples T}
    (h : TableOf E t r) (ht : t ≤ now) :
    (r.seen.popWhile fun inserted => decide (now - inserted ≥ 60)).entries
      = (keepLast 1024 E).filter (fresh now) := by
  have hsorted : r.seen.entries.Pairwise fun a b => a.2 ≤ b.2 := by
    rw [h.table]
    exact (h.sorted.sublist (List.drop_sublist _ _)).sublist List.filter_sublist
  show r.seen.entries.dropWhile (fun e => decide (now - e.2 ≥ 60)) = _
  rw [show (fun e : (Nat × Bytes) × T => decide (now - e.2 ≥ 60)) = fun e => !fresh now e from
    funext fun e => (not_fresh now e).symm]
  rw [dropWhile_eq_filter (fresh now) _ (keepLast_mono now hsorted), h.table, List.filter_filter]
  -- an entry fresh at the later time was fresh at the earlier one
  apply List.filter_congr
  intro e _
  cases hf : fresh now e with
  | false => simp
  | true => simp [fresh_of_earlier_now ht hf]

/-- A call is refused exactly when its key is among the fresh ones of the last 1024. -/
theorem accept_refused_iff {E : List ((Nat × Bytes) × T)} {t now : T} {r : RecentSamples T}
    (h : TableOf E t r) (ht : t ≤ now) (node : Nat) (sample : Bytes) :
    (r.accept node sample now).2 = false
      ↔ (node, sample) ∈ ((keepLast 1024 E).filter (fresh now)).map Prod.fst := by
  unfold RecentSamples.accept
  dsimp only
  have hpop := popWhile_entries h ht
  by_cases hc : (r.seen.popWhile fun inserted => decide (now - inserted ≥ 60)).contains
      (node, sample) = true
  · rw [if_pos hc]
    rw [OrderedDict.contains_iff, hpop] at hc
    exact ⟨fun _ => hc, fun _ => rfl⟩
  · rw [if_neg hc]
    rw [OrderedDict.contains_iff, hpop] at hc
    constructor
    · intro hfalse
      split at hfalse <;> exact absurd hfalse (by simp)
    · exact fun hin => absurd hin hc

/-- **One call keeps the invariant**: a refused one leaves the history as it is, an accepted
one adds its entry. -/
theorem accept_step {E : List ((Nat × Bytes) × T)} {t now : T} {r : RecentSamples T}
    (h : TableOf E t r) (ht : t ≤ now) (node : Nat) (sample : Bytes) :
    TableOf (E ++ if (r.accept node sample now).2 then [((node, sample), now)] else []) now
      (r.accept node sample now).1 := by
  have hpop := popWhile_entries h ht
  have hupto : ∀ e ∈ E, e.2 ≤ now := fun e he => (h.upto e he).trans ht
  -- refused: the entries are those still fresh
  by_cases hc : (r.seen.popWhile fun inserted => decide (now - inserted ≥ 60)).contains
      (node, sample) = true
  · have hacc : r.accept node sample now
        = (⟨r.seen.popWhile fun inserted => decide (now - inserted ≥ 60)⟩, false) := by
      unfold RecentSamples.accept
      dsimp only
      rw [if_pos hc]
    rw [hacc]
    exact ⟨by simpa using h.sorted, by simpa using hupto, by simpa using hpop⟩
  -- accepted: the new entry goes to the end, and a 1025th puts the oldest out
  · have hnew := OrderedDict.set_new _ (node, sample) now (Bool.eq_false_iff.mpr hc)
    have hacc : (r.accept node sample now).2 = true
        ∧ (r.accept node sample now).1.seen.entries
          = evict 1024 ((keepLast 1024 E).filter (fresh now) ++ [((node, sample), now)]) := by
      unfold RecentSamples.accept
      dsimp only
      rw [if_neg hc, ← hpop, ← hnew, evict]
      split
      · rename_i hlen
        exact ⟨rfl, (if_pos hlen).symm⟩
      · rename_i hlen
        exact ⟨rfl, (if_neg hlen).symm⟩
    rw [hacc.1, if_pos rfl]
    refine ⟨?_, ?_, ?_⟩
    · rw [List.pairwise_append]
      refine ⟨h.sorted, List.pairwise_singleton _ _, ?_⟩
      intro a ha b hb
      rw [List.mem_singleton.mp hb]
      exact hupto a ha
    · intro e he
      rcases List.mem_append.mp he with he | he
      · exact hupto e he
      · rw [List.mem_singleton.mp he]
    · rw [hacc.2]
      exact evict_push (by decide) (fresh now) E _ (fresh_self now _) (keepLast_mono now h.sorted)

/-- **Every run keeps the invariant**, with the accepted calls as the history. -/
theorem run_tableOf (calls : List (AcceptCall T)) (E : List ((Nat × Bytes) × T)) (t : T)
    (r : RecentSamples T) (h : TableOf E t r) (ht : ∀ c ∈ calls, t ≤ c.now)
    (hmono : calls.Pairwise fun a b => a.now ≤ b.now) :
    ∃ t', TableOf (E ++ ((recentReader T).run r calls).2.map AcceptCall.entry) t'
        ((recentReader T).run r calls).1
      ∧ ∀ u, t ≤ u → (∀ c ∈ calls, c.now ≤ u) → t' ≤ u := by
  -- on the calls, with the time of the last one as the clock of the table
  induction calls generalizing E t r with
  | nil =>
    refine ⟨t, ?_, fun u hu _ => hu⟩
    simpa using h
  | cons c calls ih =>
    obtain ⟨hc, hrest⟩ := List.pairwise_cons.mp hmono
    have hstep := accept_step h (ht c List.mem_cons_self) c.node c.sample
    obtain ⟨t', htable, hle⟩ := ih _ c.now _ hstep hc hrest
    refine ⟨t', ?_, fun u _ hall => hle u (hall c List.mem_cons_self)
      fun d hd => hall d (List.mem_cons_of_mem c hd)⟩
    rw [Reader.run_cons]
    dsimp only [recentReader] at htable ⊢
    rw [List.map_append, ← List.append_assoc]
    cases hb : (r.accept c.node c.sample c.now).2 with
    | false =>
      rw [hb] at htable
      simpa using htable
    | true =>
      rw [hb] at htable
      simpa [AcceptCall.entry] using htable

omit [Clock T] in
theorem tableOf_init (t : T) : TableOf [] t (RecentSamples.init : RecentSamples T) :=
  ⟨List.Pairwise.nil, by simp, by simp [RecentSamples.init, OrderedDict.empty, keepLast]⟩

/-! ## §3. The filter is exact. -/

omit [LinearOrder T] [Sub T] [NatCast T] [Clock T] in
/-- The newest entry of a key in a history that has one. -/
theorem exists_newest (E : List (AcceptCall T)) (node : Nat) (sample : Bytes)
    (h : ∃ a ∈ E, a.node = node ∧ a.sample = sample) :
    ∃ pre a post, E = pre ++ a :: post ∧ a.node = node ∧ a.sample = sample
      ∧ ∀ b ∈ post, ¬ (b.node = node ∧ b.sample = sample) := by
  induction E with
  | nil => exact absurd h (by simp)
  | cons c E ih =>
    by_cases hE : ∃ a ∈ E, a.node = node ∧ a.sample = sample
    · obtain ⟨pre, a, post, hsplit, hrest⟩ := ih hE
      exact ⟨c :: pre, a, post, by rw [hsplit]; rfl, hrest⟩
    · obtain ⟨a, ha, hkey⟩ := h
      have hac : a = c := by
        rcases List.mem_cons.mp ha with hac | hmem
        · exact hac
        · exact absurd ⟨a, hmem, hkey⟩ hE
      subst hac
      exact ⟨[], a, E, rfl, hkey.1, hkey.2, fun b hb hbkey => hE ⟨b, hb, hbkey⟩⟩

omit [Sub T] [NatCast T] [Clock T] in
/-- In a history in order of time, no later call is earlier. -/
theorem now_le_of_mem {pre post : List (AcceptCall T)} {d a : AcceptCall T}
    (hsorted : ((pre ++ d :: post).map AcceptCall.entry).Pairwise fun a b => a.2 ≤ b.2)
    (ha : a ∈ d :: post) : d.now ≤ a.now := by
  rw [List.map_append, List.pairwise_append, List.map_cons] at hsorted
  rcases List.mem_cons.mp ha with rfl | ha
  · exact le_rfl
  · exact (List.pairwise_cons.mp hsorted.2.1).1 a.entry (List.mem_map_of_mem ha)

/-- A fresh entry among the last 1024, read off the calls themselves. -/
theorem mem_fresh_iff (accepted : List (AcceptCall T)) (c : AcceptCall T)
    (hsorted : (accepted.map AcceptCall.entry).Pairwise fun a b => a.2 ≤ b.2) :
    (c.node, c.sample)
        ∈ ((keepLast 1024 (accepted.map AcceptCall.entry)).filter (fresh c.now)).map Prod.fst
      ↔ ∃ pre a post, accepted = pre ++ a :: post
          ∧ a.node = c.node ∧ a.sample = c.sample
          ∧ (∀ b ∈ post, ¬ (b.node = c.node ∧ b.sample = c.sample))
          ∧ c.now - a.now < 60 ∧ post.length < 1024 := by
  constructor
  · intro h
    obtain ⟨e, he, hkey⟩ := List.mem_map.mp h
    obtain ⟨hlast, hfresh⟩ := List.mem_filter.mp he
    obtain ⟨pre, post, hsplit, hlen⟩ := mem_keepLast_iff.mp hlast
    obtain ⟨pre', rest, rfl, hpre, hrest⟩ := List.map_eq_append_iff.mp hsplit
    obtain ⟨d, post', rfl, hd, hpost⟩ := List.map_eq_cons_iff.mp hrest
    have hdkey : d.node = c.node ∧ d.sample = c.sample := by
      rw [← hd] at hkey
      simpa [AcceptCall.entry] using hkey
    -- the newest call of this key follows `d`, so it is at least as fresh and as near
    obtain ⟨mid, a, post, htail, hnode, hsample, hnone⟩ :=
      exists_newest (d :: post') c.node c.sample ⟨d, List.mem_cons_self, hdkey⟩
    refine ⟨pre' ++ mid, a, post, by rw [htail, List.append_assoc], hnode, hsample, hnone, ?_, ?_⟩
    · have ha : a ∈ d :: post' := htail ▸ List.mem_append_right mid List.mem_cons_self
      have hda : d.now ≤ a.now := now_le_of_mem hsorted ha
      rw [← hd] at hfresh
      have hfd : c.now - d.now < 60 := (fresh_iff _ _).mp hfresh
      exact (Clock.sub_le_sub_left hda c.now).trans_lt hfd
    · have hl := congrArg List.length htail
      rw [← hpost, List.length_map] at hlen
      simp only [List.length_cons, List.length_append] at hl
      omega
  · intro h
    obtain ⟨pre, a, post, rfl, hnode, hsample, _, hnow, hlen⟩ := h
    refine List.mem_map.mpr ⟨a.entry, List.mem_filter.mpr ⟨?_, ?_⟩, ?_⟩
    · refine mem_keepLast_iff.mpr ⟨pre.map AcceptCall.entry, post.map AcceptCall.entry, ?_, ?_⟩
      · rw [List.map_append, List.map_cons]
      · rwa [List.length_map]
    · exact (fresh_iff _ _).mpr hnow
    · show (a.node, a.sample) = _
      rw [hnode, hsample]

/-- **The duplicate filter is exact.**  After any run of calls in order of time, a call is
refused exactly when its key was accepted before, at the latest less than 60 seconds ago and
with fewer than 1024 calls accepted since.  The table never exceeds 1024 keys, is in order
of time, and a refused call neither adds an entry nor touches one. -/
theorem recentSamples_exact (before : List (AcceptCall T)) (c : AcceptCall T)
    (hmono : (before ++ [c]).Pairwise fun a b => a.now ≤ b.now) :
    let r := ((recentReader T).run RecentSamples.init before).1
    let accepted := ((recentReader T).run RecentSamples.init before).2
    let result := r.accept c.node c.sample c.now
    (result.2 = false
        ↔ ∃ pre a post, accepted = pre ++ a :: post
            ∧ a.node = c.node ∧ a.sample = c.sample
            ∧ (∀ b ∈ post, ¬ (b.node = c.node ∧ b.sample = c.sample))
            ∧ c.now - a.now < 60 ∧ post.length < 1024)
      ∧ result.1.seen.length ≤ 1024
      ∧ (result.1.seen.entries.Pairwise fun a b => a.2 ≤ b.2)
      ∧ (result.2 = false → result.1.seen.entries <:+ r.seen.entries) := by
  intro r accepted result
  rw [List.pairwise_append] at hmono
  obtain ⟨hbefore, _, hlast⟩ := hmono
  -- the run leaves the table of the accepted calls, as of some time no later than this call
  obtain ⟨t, htable, ht⟩ : ∃ t, TableOf (accepted.map AcceptCall.entry) t r ∧ t ≤ c.now := by
    cases before with
    | nil => exact ⟨c.now, tableOf_init c.now, le_rfl⟩
    | cons d before =>
      have hfirst : ∀ e ∈ d :: before, d.now ≤ e.now := by
        intro e he
        rcases List.mem_cons.mp he with rfl | he
        · exact le_rfl
        · exact (List.pairwise_cons.mp hbefore).1 e he
      obtain ⟨t, htable, hle⟩ := run_tableOf (d :: before) [] d.now _ (tableOf_init d.now)
        hfirst hbefore
      have hupper : ∀ e ∈ d :: before, e.now ≤ c.now :=
        fun e he => hlast e he c (List.mem_singleton_self c)
      exact ⟨t, by simpa using htable, hle c.now (hupper d List.mem_cons_self) hupper⟩
  have hafter := accept_step htable ht c.node c.sample
  refine ⟨?_, ?_, ?_, ?_⟩
  · rw [accept_refused_iff htable ht c.node c.sample]
    exact mem_fresh_iff accepted c htable.sorted
  · show result.1.seen.entries.length ≤ 1024
    rw [hafter.table]
    exact (List.length_filter_le _ _).trans (keepLast_length_le _ _)
  · rw [hafter.table]
    exact (hafter.sorted.sublist (List.drop_sublist _ _)).sublist List.filter_sublist
  · intro hrefused
    have hpop := popWhile_entries htable ht
    rw [hrefused] at hafter
    have hentries : result.1.seen.entries
        = (r.seen.popWhile fun inserted => decide (c.now - inserted ≥ 60)).entries := by
      rw [hpop, hafter.table]
      simp
    rw [hentries]
    exact List.dropWhile_suffix _

/-- By binary64 numbers: a duplicate 59.8 seconds after the accepted call is refused, with a
refused one in between.  60.3 less 0.3 is 60 when it is rounded, though exactly it is less, and
the sample is accepted again. -/
theorem recentSamples_exact_double :
    let calls : List (AcceptCall Double) := [⟨1, [0x41], .nearest 0.3⟩, ⟨1, [0x41], .nearest 30⟩]
    let r := ((recentReader Double).run RecentSamples.init calls).1
    (r.accept 1 [0x41] (.nearest 60.1)).2 = false
      ∧ (r.accept 1 [0x41] (.nearest 60.3)).2 = true
      ∧ (Double.nearest 60.3).value - (Double.nearest 0.3).value < 60 := by
  intro calls r
  refine ⟨?_, ?_, by decide +kernel⟩
  · refine (recentSamples_exact calls ⟨1, [0x41], .nearest 60.1⟩ (by decide +kernel)).1.mpr
      ⟨[], ⟨1, [0x41], .nearest 0.3⟩, [], by decide +kernel, rfl, rfl, by simp, ?_, by decide⟩
    decide +kernel
  · refine Bool.eq_true_of_not_eq_false fun hrefused => ?_
    obtain ⟨pre, a, post, hsplit, -, -, -, hnow, -⟩ :=
      (recentSamples_exact calls ⟨1, [0x41], .nearest 60.3⟩ (by decide +kernel)).1.mp hrefused
    have haccepted : ((recentReader Double).run RecentSamples.init calls).2
        = [⟨1, [0x41], .nearest 0.3⟩] := by decide +kernel
    rw [haccepted] at hsplit
    obtain rfl : a = ⟨1, [0x41], .nearest 0.3⟩ :=
      List.mem_singleton.mp (hsplit ▸ List.mem_append_right pre List.mem_cons_self)
    exact absurd hnow (by decide +kernel)

end KFsw.Ground
