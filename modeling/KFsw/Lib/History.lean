/-
  KFsw.Lib.History — tables that remember a bounded, recent part of a history.

  A history is a list with the oldest entry first.  `keepLast n` is its last `n`
  entries, and a predicate that only spreads towards newer entries (`Pairwise
  fun a b => p a → p b`) says which of them still count.  Such a table can be
  kept up to date by looking at its front alone:

    * `dropWhile_eq_filter` — dropping the entries that no longer count from the
      front drops exactly those;
    * `evict_push`          — appending an entry and dropping one from the front
      when there are more than `n` gives the table of the longer history.

  `OrderedDict` is an insertion-ordered dictionary that carries the proof that no
  key occurs twice.
-/
import Mathlib.Data.List.Basic
import Mathlib.Data.List.Nodup

namespace KFsw.Lib

variable {α : Type*}

/-! ## §1. The recent part of a history. -/

/-- The last `n` entries. -/
def keepLast (n : Nat) (h : List α) : List α := h.drop (h.length - n)

/-- Drop the oldest entry of a table that holds more than `n`. -/
def evict (n : Nat) (t : List α) : List α := if t.length > n then t.tail else t

theorem keepLast_of_length_le {n : Nat} {h : List α} (hn : h.length ≤ n) : keepLast n h = h := by
  rw [keepLast, Nat.sub_eq_zero_of_le hn, List.drop_zero]

theorem keepLast_length_le (n : Nat) (h : List α) : (keepLast n h).length ≤ n := by
  rw [keepLast, List.length_drop]
  omega

/-- One more entry pushes the oldest of `n` out. -/
theorem keepLast_push {n : Nat} {h : List α} (hn : n ≤ h.length) (hpos : 0 < n) (x : α) :
    ∃ a t, keepLast n h = a :: t ∧ keepLast n (h ++ [x]) = t ++ [x] := by
  have hlen : (keepLast n h).length = n := by
    rw [keepLast, List.length_drop]
    omega
  cases hk : keepLast n h with
  | nil =>
    rw [hk] at hlen
    simp only [List.length_nil] at hlen
    omega
  | cons a t =>
    refine ⟨a, t, rfl, ?_⟩
    have ht : h.drop (h.length - n + 1) = t := by
      rw [keepLast] at hk
      rw [← List.tail_drop, hk, List.tail_cons]
    rw [keepLast, List.length_append, List.length_singleton,
      show h.length + 1 - n = h.length - n + 1 by omega,
      List.drop_append_of_le_length (by omega), ht]

/-- An entry is kept exactly when fewer than `n` entries follow it. -/
theorem mem_keepLast_iff {n : Nat} {h : List α} {x : α} :
    x ∈ keepLast n h ↔ ∃ pre post, h = pre ++ x :: post ∧ post.length < n := by
  constructor
  · intro hx
    obtain ⟨a, b, hab⟩ := List.append_of_mem hx
    refine ⟨h.take (h.length - n) ++ a, b, ?_, ?_⟩
    · rw [List.append_assoc, ← hab, keepLast, List.take_append_drop]
    · have hlen := keepLast_length_le n h
      rw [hab, List.length_append, List.length_cons] at hlen
      omega
  · intro hsplit
    obtain ⟨pre, post, rfl, hpost⟩ := hsplit
    rw [keepLast, List.length_append, List.length_cons,
      List.drop_append_of_le_length (by omega)]
    exact List.mem_append_right _ List.mem_cons_self

/-! ## §2. Entries that no longer count leave at the front. -/

theorem dropWhile_eq_filter (p : α → Bool) (l : List α)
    (hmono : l.Pairwise fun a b => p a = true → p b = true) :
    l.dropWhile (fun a => !p a) = l.filter p := by
  induction l with
  | nil => rfl
  | cons a l ih =>
    obtain ⟨ha, hl⟩ := List.pairwise_cons.mp hmono
    cases hpa : p a with
    | false =>
      rw [List.dropWhile_cons_of_pos (by simp [hpa]), ih hl,
        List.filter_cons_of_neg (by simp [hpa])]
    | true =>
      -- once one entry counts, all the later ones do
      rw [List.dropWhile_cons_of_neg (by simp [hpa])]
      symm
      rw [List.filter_eq_self]
      intro b hb
      rcases List.mem_cons.mp hb with rfl | hb
      · exact hpa
      · exact ha b hb hpa

/-- **Push and evict**: the table of the longer history. -/
theorem evict_push {n : Nat} (hpos : 0 < n) (p : α → Bool) (h : List α) (x : α)
    (hx : p x = true) (hmono : h.Pairwise fun a b => p a = true → p b = true) :
    evict n ((keepLast n h).filter p ++ [x]) = (keepLast n (h ++ [x])).filter p := by
  by_cases hn : n ≤ h.length
  · obtain ⟨a, t, hk, hk'⟩ := keepLast_push hn hpos x
    have hlen : t.length + 1 = n := by
      have hl : (keepLast n h).length = n := by
        rw [keepLast, List.length_drop]
        omega
      rw [hk] at hl
      exact hl
    have hsub : (a :: t).Pairwise fun a b => p a = true → p b = true := by
      rw [← hk]
      exact hmono.sublist (List.drop_sublist _ _)
    rw [hk, hk', List.filter_append, List.filter_cons_of_pos hx, List.filter_nil]
    cases hpa : p a with
    | false =>
      -- the entry that leaves the window had left the table already
      rw [List.filter_cons_of_neg (by simp [hpa]), evict, if_neg]
      have := List.length_filter_le p t
      rw [List.length_append, List.length_singleton]
      omega
    | true =>
      have hall : t.filter p = t := by
        rw [List.filter_eq_self]
        intro b hb
        exact (List.pairwise_cons.mp hsub).1 b hb hpa
      rw [List.filter_cons_of_pos hpa, hall, evict, if_pos]
      · rfl
      · rw [List.length_append, List.length_cons, List.length_singleton]
        omega
  · have hlen : (h ++ [x]).length ≤ n := by
      rw [List.length_append, List.length_singleton]
      omega
    rw [keepLast_of_length_le (by omega), keepLast_of_length_le hlen, List.filter_append,
      List.filter_cons_of_pos hx, List.filter_nil, evict, if_neg]
    have := List.length_filter_le p h
    rw [List.length_append, List.length_singleton] at *
    omega

/-! ## §3. Insertion-ordered dictionaries. -/

/-- Python's `collections.OrderedDict`: entries in insertion order, no key twice. -/
structure OrderedDict (κ β : Type*) where
  entries : List (κ × β)
  nodup : (entries.map Prod.fst).Nodup

namespace OrderedDict

variable {κ β : Type*} [DecidableEq κ]

def empty : OrderedDict κ β := ⟨[], List.nodup_nil⟩

/-- `key in d`. -/
def contains (d : OrderedDict κ β) (key : κ) : Bool := decide (key ∈ d.entries.map Prod.fst)

/-- `d.popitem(last=False)`. -/
def popFirst (d : OrderedDict κ β) : OrderedDict κ β :=
  ⟨d.entries.tail, d.nodup.sublist ((List.tail_sublist _).map _)⟩

/-- `d.popitem(last=False)` while the first value fails a test. -/
def popWhile (d : OrderedDict κ β) (p : β → Bool) : OrderedDict κ β :=
  ⟨d.entries.dropWhile fun e => p e.2, d.nodup.sublist ((List.dropWhile_sublist _).map _)⟩

/-- `d[key] = value`: a key that is present keeps its place, a new one goes last. -/
def set (d : OrderedDict κ β) (key : κ) (value : β) : OrderedDict κ β :=
  if h : key ∈ d.entries.map Prod.fst then
    ⟨d.entries.map fun e => if e.1 = key then (key, value) else e, by
      have hkeys : (d.entries.map fun e => if e.1 = key then (key, value) else e).map Prod.fst
          = d.entries.map Prod.fst := by
        rw [List.map_map]
        apply List.map_congr_left
        intro e _
        by_cases he : e.1 = key <;> simp [he]
      rw [hkeys]
      exact d.nodup⟩
  else
    ⟨d.entries ++ [(key, value)], by
      rw [List.map_append]
      refine List.nodup_append.mpr ⟨d.nodup, by simp, ?_⟩
      intro a ha b hb
      simp only [List.map_cons, List.map_nil, List.mem_singleton] at hb
      rintro rfl
      exact h (hb ▸ ha)⟩

def length (d : OrderedDict κ β) : Nat := d.entries.length

theorem contains_iff (d : OrderedDict κ β) (key : κ) :
    d.contains key = true ↔ key ∈ d.entries.map Prod.fst := by
  rw [contains, decide_eq_true_eq]

/-- A key that is there keeps its place. -/
theorem set_of_mem (d : OrderedDict κ β) {key : κ} (value : β) (h : key ∈ d.entries.map Prod.fst) :
    (d.set key value).entries = d.entries.map fun e => if e.1 = key then (key, value) else e := by
  rw [set, dif_pos h]

/-- A key that is not there is put last. -/
theorem set_of_notMem (d : OrderedDict κ β) {key : κ} (value : β)
    (h : key ∉ d.entries.map Prod.fst) : (d.set key value).entries = d.entries ++ [(key, value)] := by
  rw [set, dif_neg h]

theorem set_new (d : OrderedDict κ β) (key : κ) (value : β) (h : d.contains key = false) :
    (d.set key value).entries = d.entries ++ [(key, value)] := by
  rw [contains, decide_eq_false_iff_not] at h
  exact d.set_of_notMem value h

/-- `d.get(key, default)`. -/
def getD (d : OrderedDict κ β) (key : κ) (fallback : β) : β :=
  ((d.entries.find? fun e => decide (e.1 = key)).map Prod.snd).getD fallback

/-- **What is read after an assignment.** -/
theorem getD_set (d : OrderedDict κ β) (key key' : κ) (value fallback : β) :
    (d.set key value).getD key' fallback = if key' = key then value else d.getD key' fallback := by
  have hfind : ∀ entries : List (κ × β), key' ≠ key →
      (entries.map fun e => if e.1 = key then (key, value) else e).find? (fun e => decide (e.1 = key'))
        = entries.find? fun e => decide (e.1 = key') := by
    intro entries hne
    induction entries with
    | nil => rfl
    | cons e entries ih =>
      rw [List.map_cons, List.find?_cons, List.find?_cons, ih]
      by_cases he : e.1 = key
      · simp [he, hne.symm]
      · rw [if_neg he]
  unfold getD
  by_cases hmem : key ∈ d.entries.map Prod.fst
  · rw [d.set_of_mem value hmem]
    by_cases hkey : key' = key
    · subst hkey
      obtain ⟨e, he, hkey⟩ := List.mem_map.mp hmem
      have hsome : ((d.entries.map fun e => if e.1 = key' then (key', value) else e).find?
          fun e => decide (e.1 = key')) = some (key', value) := by
        cases hfound : (d.entries.map fun e => if e.1 = key' then (key', value) else e).find?
            fun e => decide (e.1 = key') with
        | none =>
          have hnone := List.find?_eq_none.mp hfound (key', value)
            (List.mem_map.mpr ⟨e, he, if_pos hkey⟩)
          exact absurd (decide_eq_true rfl) hnone
        | some found =>
          have hfst : found.1 = key' := by simpa using List.find?_some hfound
          obtain ⟨e', -, rfl⟩ := List.mem_map.mp (List.mem_of_find?_eq_some hfound)
          by_cases he' : e'.1 = key'
          · rw [if_pos he']
          · rw [if_neg he'] at hfst
            exact absurd hfst he'
      rw [hsome, if_pos rfl]
      rfl
    · rw [hfind d.entries hkey, if_neg hkey]
  · rw [d.set_of_notMem value hmem, List.find?_append]
    by_cases hkey : key' = key
    · subst hkey
      have hnone : d.entries.find? (fun e => decide (e.1 = key')) = none :=
        List.find?_eq_none.mpr fun e he h =>
          hmem (List.mem_map.mpr ⟨e, he, of_decide_eq_true h⟩)
      simp [hnone]
    · simp [hkey, Ne.symm hkey]

/-- What stands in a dictionary after an assignment was there before, or is what was assigned. -/
theorem mem_of_mem_set {d : OrderedDict κ β} {key : κ} {value : β} {e : κ × β}
    (h : e ∈ (d.set key value).entries) : e = (key, value) ∨ e ∈ d.entries := by
  by_cases hkey : key ∈ d.entries.map Prod.fst
  · rw [d.set_of_mem value hkey, List.mem_map] at h
    obtain ⟨e', he', rfl⟩ := h
    split
    · exact .inl rfl
    · exact .inr he'
  · rw [d.set_of_notMem value hkey, List.mem_append, List.mem_singleton] at h
    exact h.symm

/-- **An assignment under other names**: keys renamed one to one, and the values with them. -/
theorem set_map {κ' β' : Type*} [DecidableEq κ'] {f : κ → κ'} (hf : Function.Injective f)
    (g : β → β') {d : OrderedDict κ β} {d' : OrderedDict κ' β'}
    (h : d'.entries = d.entries.map (Prod.map f g)) (key : κ) (value : β) :
    (d'.set (f key) (g value)).entries = (d.set key value).entries.map (Prod.map f g) := by
  have hkeys : d'.entries.map Prod.fst = (d.entries.map Prod.fst).map f := by
    rw [h, List.map_map, List.map_map]
    rfl
  by_cases hkey : key ∈ d.entries.map Prod.fst
  · have hkey' : f key ∈ d'.entries.map Prod.fst := by
      rw [hkeys]
      exact List.mem_map_of_mem hkey
    rw [d.set_of_mem value hkey, d'.set_of_mem (g value) hkey', h, List.map_map, List.map_map]
    refine List.map_congr_left fun e _ => ?_
    by_cases he : e.1 = key
    · simp [he]
    · have hne : f e.1 ≠ f key := fun heq => he (hf heq)
      simp [he, hne]
  · have hkey' : f key ∉ d'.entries.map Prod.fst := by
      rw [hkeys, List.mem_map_of_injective hf]
      exact hkey
    rw [d.set_of_notMem value hkey, d'.set_of_notMem (g value) hkey', h, List.map_append]
    rfl

end OrderedDict

end KFsw.Lib
