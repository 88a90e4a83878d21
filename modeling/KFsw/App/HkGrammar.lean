/-
  KFsw.App.HkGrammar — the entry parsers of `app/src/hk_entries.c` with the
  memory their callers give them, and the grammar they accept.

  `parseEntryTo` and `parseEntriesTo` write through pointers: what they leave in
  `*entry`, in the array and in `*count` is part of their result.  The results
  they return are those of `parseEntry` and `parseEntries`.

  `IsEntry` is the grammar `[node:]table:offset`, with the range of each part.

  Main results:
    * `parseParts_ok_iff`     — the loop over the parts reads numbers between
      colons, and only these;
    * `parseEntry_ok_iff`     — `parseEntry` accepts exactly the grammar;
    * `parseEntriesTo_spec`   — what the list parser leaves in memory;
    * `parseEntriesTo_exact`  — a list is accepted exactly when every word of it
      is an entry, and a refusal leaves `*count` alone.
-/
import KFsw.App.HkEntries
import KFsw.Lib.CNumber
import Mathlib.Data.List.Forall2
import Mathlib.Logic.Function.Basic

namespace KFsw.App

open KFsw.Lib

variable (cfg : HkConfig)

/-! ## §1. The grammar. -/

/-- Numbers of at most 16 bits between colons. -/
inductive IsParts : Text → List Nat → Prop
  | last (s : Text) (value : Nat) (hs : IsNumber s value) (hv : value ≤ UINT16_MAX) :
      IsParts s [value]
  | more (s : Text) (value : Nat) (rest : Text) (values : List Nat) (hs : IsNumber s value)
      (hv : value ≤ UINT16_MAX) (hrest : IsParts rest values) :
      IsParts (s ++ ':' :: rest) (value :: values)

/-- **An entry `[node:]table:offset`**: a local one, or one with its node. -/
inductive IsEntry : Text → HkEntry → Prop
  | ofTable (t o : Text) (table offset : Nat) (ht : IsNumber t table) (ho : IsNumber o offset)
      (htable : table ≤ UINT8_MAX) (hoffset : offset ≤ cfg.paramOffsetMax) :
      IsEntry (t ++ ':' :: o) ⟨cfg.nodeLocal, cfg.paramId table offset⟩
  | ofNode (n t o : Text) (node table offset : Nat) (hn : IsNumber n node) (ht : IsNumber t table)
      (ho : IsNumber o offset) (hnode : node ≤ UINT16_MAX) (htable : table ≤ UINT8_MAX)
      (hoffset : offset ≤ cfg.paramOffsetMax) :
      IsEntry (n ++ ':' :: (t ++ ':' :: o)) ⟨node, cfg.paramId table offset⟩

/-! ## §2. The loop over the parts. -/

/-- A text that starts with a digit is more than white space. -/
theorem exists_not_isspace {s : Text} (hs : s.head?.elim false isdigit = true) :
    ∃ c ∈ s, isspace c = false := by
  cases s with
  | nil => exact absurd hs (by decide)
  | cons c s =>
    have hc : isdigit c = true := hs
    refine ⟨c, List.mem_cons_self, ?_⟩
    rw [Bool.eq_false_iff]
    intro h
    simp only [isspace, Bool.or_eq_true, decide_eq_true_eq] at h
    rcases h with ((((rfl | rfl) | rfl) | rfl) | rfl) | rfl <;> exact absurd hc (by decide)

/-- What the loop accepts is numbers between colons. -/
theorem parseParts_sound (hulong : UINT16_MAX ≤ cfg.ulongMax) (room : Nat) (cursor : Text)
    (values : List Nat) (h : parseParts cfg room cursor = .ok (values, [])) :
    values.length ≤ room ∧ IsParts cursor values := by
  induction room generalizing cursor values with
  | zero => exact absurd h (by simp [parseParts])
  | succ room ih =>
    rw [parseParts] at h
    split at h
    · exact absurd h (by simp)
    · rename_i hdigit
      rw [Bool.not_eq_false] at hdigit
      dsimp only at h
      split at h
      · exact absurd h (by simp)
      · rename_i hrange
        rw [not_or, Bool.not_eq_true, Nat.not_lt] at hrange
        have hwhole := strtoul_whole_iff hulong hdigit (strtoul cfg.ulongMax cursor).value
        split at h
        · -- a colon ends the number, so what precedes it is read whole
          rename_i tail hrest
          split at h
          · exact absurd h (by simp)
          · rename_i parts cursor' htail
            obtain ⟨rfl, rfl⟩ := Prod.mk.inj (Except.ok.inj h)
            obtain ⟨hlen, hparts⟩ := ih tail parts htail
            obtain ⟨s, hs⟩ := strtoul_rest_suffix cfg.ulongMax cursor
            rw [hrest] at hs
            have hhead : s.head?.elim false isdigit = true := by
              cases s with
              | nil =>
                rw [← hs] at hdigit
                exact absurd hdigit (show ¬ isdigit ':' = true by decide)
              | cons c s =>
                rw [← hs] at hdigit
                exact hdigit
            have hstop := strtoul_append_stop (c := ':') (by decide) cfg.ulongMax s tail
              (exists_not_isspace hhead)
            rw [hs] at hstop
            have hnone : (strtoul cfg.ulongMax s).rest = [] := by
              have := hrest
              rw [hstop] at this
              exact List.append_left_eq_self.mp this
            have hnumber := (strtoul_whole_iff hulong hhead (strtoul cfg.ulongMax s).value).mp
              ⟨hnone, by rw [hstop] at hrange; exact hrange.1, rfl,
                by rw [hstop] at hrange; exact hrange.2⟩
            rw [← hs]
            have hvalue : (strtoul cfg.ulongMax (s ++ ':' :: tail)).value
                = (strtoul cfg.ulongMax s).value := by
              rw [hs, hstop]
            rw [hvalue]
            refine ⟨?_, .more s _ tail parts hnumber.1 hnumber.2 hparts⟩
            rw [List.length_cons]
            omega
        · rename_i cursor' _
          obtain ⟨rfl, hrest⟩ := Prod.mk.inj (Except.ok.inj h)
          have hnumber := hwhole.mp ⟨hrest, hrange.1, rfl, hrange.2⟩
          refine ⟨?_, .last cursor _ hnumber.1 hnumber.2⟩
          rw [List.length_singleton]
          omega

/-- Numbers between colons are accepted, when there is room for them. -/
theorem parseParts_complete (hulong : UINT16_MAX ≤ cfg.ulongMax) {cursor : Text}
    {values : List Nat} (h : IsParts cursor values) (room : Nat) (hroom : values.length ≤ room) :
    parseParts cfg room cursor = .ok (values, []) := by
  -- on the grammar: each part is one turn of the loop
  induction h generalizing room with
  | last s value hs hv =>
    obtain ⟨room, rfl⟩ : ∃ r, room = r + 1 := ⟨room - 1, by
      rw [List.length_singleton] at hroom
      omega⟩
    obtain ⟨hrest, hrange, hvalue, _⟩ := (strtoul_whole_iff hulong hs.head value).mpr ⟨hs, hv⟩
    rw [parseParts, if_neg (by rw [hs.head]; decide)]
    dsimp only
    rw [if_neg, hrest, hvalue]
    rintro (h | h)
    · rw [hrange] at h
      exact absurd h (by decide)
    · omega
  | more s value rest values hs hv hrest ih =>
    obtain ⟨room, rfl⟩ : ∃ r, room = r + 1 := ⟨room - 1, by
      rw [List.length_cons] at hroom
      omega⟩
    obtain ⟨hend, hrange, hvalue, _⟩ := (strtoul_whole_iff hulong hs.head value).mpr ⟨hs, hv⟩
    have hstop := strtoul_append_stop (c := ':') (by decide) cfg.ulongMax s rest
      (exists_not_isspace hs.head)
    have hhead : (s ++ ':' :: rest).head?.elim false isdigit = true := by
      obtain ⟨c, s, rfl⟩ := List.exists_cons_of_ne_nil (l := s) (by
        rintro rfl
        exact absurd hs.head (by decide))
      exact hs.head
    rw [List.length_cons] at hroom
    rw [parseParts, if_neg (by rw [hhead]; decide), hstop]
    dsimp only
    rw [if_neg, hend, List.nil_append]
    · simp only [ih room (by omega), hvalue]
    · rintro (h | h)
      · rw [hrange] at h
        exact absurd h (by decide)
      · omega

/-- **The loop over the parts** reads numbers between colons to the end of the text, and
nothing else. -/
theorem parseParts_ok_iff (hulong : UINT16_MAX ≤ cfg.ulongMax) (room : Nat) (cursor : Text)
    (values : List Nat) :
    parseParts cfg room cursor = .ok (values, []) ↔ values.length ≤ room ∧ IsParts cursor values :=
  ⟨parseParts_sound cfg hulong room cursor values,
    fun h => parseParts_complete cfg hulong h.2 room h.1⟩

/-- Every number that is read has at most 16 bits. -/
theorem IsParts.le {cursor : Text} {values : List Nat} (h : IsParts cursor values) :
    ∀ value ∈ values, value ≤ UINT16_MAX := by
  induction h with
  | last s value hs hv =>
    intro v hmem
    rw [List.mem_singleton.mp hmem]
    exact hv
  | more s value rest values hs hv hrest ih =>
    intro v hmem
    rcases List.mem_cons.mp hmem with rfl | hmem
    · exact hv
    · exact ih v hmem

/-- Two or three parts of a text. -/
theorem IsParts.two_or_three {text : Text} {values : List Nat} (h : IsParts text values)
    (hmin : 2 ≤ values.length) (hmax : values.length ≤ 3) :
    (∃ t o table offset, text = t ++ ':' :: o ∧ values = [table, offset]
        ∧ IsNumber t table ∧ IsNumber o offset)
      ∨ ∃ n t o node table offset, text = n ++ ':' :: (t ++ ':' :: o)
        ∧ values = [node, table, offset] ∧ IsNumber n node ∧ IsNumber t table ∧ IsNumber o offset
        ∧ node ≤ UINT16_MAX := by
  cases h with
  | last s value hs hv => exact absurd hmin (by simp)
  | more s value rest values hs hv hrest =>
    cases hrest with
    | last s' value' hs' hv' => exact .inl ⟨s, rest, value, value', rfl, rfl, hs, hs'⟩
    | more s' value' rest' values' hs' hv' hrest' =>
      cases hrest' with
      | last s'' value'' hs'' hv'' =>
        exact .inr ⟨s, s', rest', value, value', value'', rfl, rfl, hs, hs', hs'', hv⟩
      | more s'' value'' rest'' values'' hs'' hv'' hrest'' =>
        simp only [List.length_cons] at hmax
        have hpos : values''.length ≠ 0 := by
          cases hrest'' <;> simp
        omega

/-- The check of `parseEntry` on the parts of a whole text. -/
theorem parseEntry_parts_iff (text : Text) (entry : HkEntry) :
    parseEntry cfg text = .ok entry
      ↔ ∃ parts, parseParts cfg 3 text = .ok (parts, []) ∧ 2 ≤ parts.length
        ∧ parts.getD (parts.length - 2) 0 ≤ UINT8_MAX
        ∧ parts.getD (parts.length - 1) 0 ≤ cfg.paramOffsetMax
        ∧ entry = if parts.length = 2 then
            ⟨cfg.nodeLocal, cfg.paramId (parts.getD 0 0) (parts.getD 1 0)⟩
          else ⟨parts.getD 0 0, cfg.paramId (parts.getD 1 0) (parts.getD 2 0)⟩ := by
  constructor
  · intro h
    unfold parseEntry at h
    split at h
    · exact absurd h (by simp)
    · rename_i parts cursor hparts
      dsimp only at h
      split at h
      · exact absurd h (by simp)
      · rename_i hcheck
        simp only [not_or, not_not, Nat.not_lt] at hcheck
        obtain ⟨rfl, hmin, htable, hlast⟩ := hcheck
        refine ⟨parts, hparts, hmin, htable, hlast, ?_⟩
        split at h
        · rename_i htwo
          rw [if_pos htwo]
          exact (Except.ok.inj h).symm
        · rename_i hthree
          rw [if_neg hthree]
          exact (Except.ok.inj h).symm
  · rintro ⟨parts, hparts, hmin, htable, hlast, rfl⟩
    unfold parseEntry
    rw [hparts]
    dsimp only
    rw [if_neg]
    · split
      · rfl
      · rfl
    · simp only [not_or, not_not, Nat.not_lt]
      exact ⟨trivial, hmin, htable, hlast⟩

/-- **`parseEntry` accepts exactly the grammar.** -/
theorem parseEntry_ok_iff (hulong : UINT16_MAX ≤ cfg.ulongMax)
    (hoffset : cfg.paramOffsetMax ≤ UINT16_MAX) (text : Text) (entry : HkEntry) :
    parseEntry cfg text = .ok entry ↔ IsEntry cfg text entry := by
  have hbytes : UINT8_MAX ≤ UINT16_MAX := by decide
  rw [parseEntry_parts_iff]
  constructor
  · rintro ⟨parts, hparts, hmin, htable, hlast, rfl⟩
    obtain ⟨hmax, hgrammar⟩ := (parseParts_ok_iff cfg hulong 3 text parts).mp hparts
    rcases hgrammar.two_or_three hmin hmax with
      ⟨t, o, table, offset, rfl, rfl, ht, ho⟩
      | ⟨n, t, o, node, table, offset, rfl, rfl, hn, ht, ho, hnode⟩
    · exact .ofTable t o table offset ht ho htable hlast
    · exact .ofNode n t o node table offset hn ht ho hnode htable hlast
  · intro h
    cases h with
    | ofTable t o table offset ht ho htable hlast =>
      have hparts := (parseParts_ok_iff cfg hulong 3 _ [table, offset]).mpr
        ⟨by simp, .more t table o [offset] ht (by omega) (.last o offset ho (by omega))⟩
      exact ⟨_, hparts, by simp, htable, hlast, rfl⟩
    | ofNode n t o node table offset hn ht ho hnode htable hlast =>
      have hparts := (parseParts_ok_iff cfg hulong 3 _ [node, table, offset]).mpr
        ⟨by simp, .more n node _ [table, offset] hn hnode
          (.more t table o [offset] ht (by omega) (.last o offset ho (by omega)))⟩
      exact ⟨_, hparts, by simp, htable, hlast, rfl⟩

/-! ## §3. The parsers and their callers' memory. -/

/-- `kfsw_app_hk_parse_entry`: the status, and what `*entry` then holds. -/
def parseEntryTo (text : Text) (entry : HkEntry) : Int × HkEntry :=
  match parseParts cfg 3 text with
  | .error e => (e, entry)
  | .ok (parts, cursor) =>
    let count := parts.length
    if cursor ≠ [] ∨ count < 2 ∨ parts.getD (count - 2) 0 > UINT8_MAX
        ∨ parts.getD (count - 1) 0 > cfg.paramOffsetMax then
      (-EINVAL, entry)
    else if count = 2 then
      let entry := { entry with node := cfg.nodeLocal }
      let entry := { entry with paramId := cfg.paramId (parts.getD 0 0) (parts.getD 1 0) }
      (0, entry)
    else
      -- `(uint16_t)parts[0]`
      let entry := { entry with node := parts.getD 0 0 % (UINT16_MAX + 1) }
      let entry := { entry with paramId := cfg.paramId (parts.getD 1 0) (parts.getD 2 0) }
      (0, entry)

/-- The caller's array and `*count`. -/
structure EntriesOut where
  entries : Nat → HkEntry
  count : Nat

/-- The loop of `kfsw_app_hk_parse_entries` and the check after it. -/
def parseEntriesToLoop (max : Nat) (cursor : Text) (parsed : Nat) (out : EntriesOut) :
    Int × EntriesOut :=
  match _h : cursor.dropWhile (· = ' ') with
  | [] => if parsed = 0 then (-EINVAL, out) else (0, { out with count := parsed })
  | c :: rest =>
    let token := (c :: rest).takeWhile (· ≠ ' ')
    if token.length ≥ TOKEN_SIZE then (-EINVAL, out)
    else if parsed = max then (-E2BIG, out)
    else
      let written := parseEntryTo cfg token (out.entries parsed)
      let out := { out with entries := Function.update out.entries parsed written.2 }
      if written.1 ≠ 0 then (-EINVAL, out)
      else parseEntriesToLoop max ((c :: rest).dropWhile (· ≠ ' ')) (parsed + 1) out
termination_by cursor.length
decreasing_by exact length_after_word _h

/-- `kfsw_app_hk_parse_entries`: the status, and what the array and `*count` then hold. -/
def parseEntriesTo (text : Text) (max : Nat) (out : EntriesOut) : Int × EntriesOut :=
  if max = 0 then (-EINVAL, out) else parseEntriesToLoop cfg max text 0 out

/-- One turn of the loop. -/
theorem parseEntriesToLoop_turn (max : Nat) (cursor : Text) (parsed : Nat) (out : EntriesOut) :
    parseEntriesToLoop cfg max cursor parsed out = match cursor.dropWhile (· = ' ') with
      | [] => if parsed = 0 then (-EINVAL, out) else (0, { out with count := parsed })
      | c :: rest =>
        let token := (c :: rest).takeWhile (· ≠ ' ')
        if token.length ≥ TOKEN_SIZE then (-EINVAL, out)
        else if parsed = max then (-E2BIG, out)
        else
          let written := parseEntryTo cfg token (out.entries parsed)
          let out := { out with entries := Function.update out.entries parsed written.2 }
          if written.1 ≠ 0 then (-EINVAL, out)
          else parseEntriesToLoop cfg max ((c :: rest).dropWhile (· ≠ ' ')) (parsed + 1) out := by
  rw [parseEntriesToLoop]
  split <;> rename_i h <;> rw [h]

/-- **The status of `parse_entry`** is that of the parser, and `*entry` is written on success
only. -/
theorem parseEntryTo_eq (hulong : UINT16_MAX ≤ cfg.ulongMax) (text : Text) (entry : HkEntry) :
    parseEntryTo cfg text entry = match parseEntry cfg text with
      | .ok parsed => (0, parsed)
      | .error e => (e, entry) := by
  unfold parseEntryTo parseEntry
  cases hparts : parseParts cfg 3 text with
  | error e => rfl
  | ok r =>
    obtain ⟨parts, cursor⟩ := r
    dsimp only
    split
    · rfl
    · rename_i hcheck
      split
      · rfl
      · -- the node was read from a number of 16 bits
        simp only [not_or, not_not] at hcheck
        obtain ⟨rfl, hmin, -⟩ := hcheck
        have hle := ((parseParts_ok_iff cfg hulong 3 text parts).mp hparts).2.le
        obtain ⟨node, rest, rfl⟩ := List.exists_cons_of_ne_nil (l := parts) (by
          rintro rfl
          exact absurd hmin (by simp))
        have hnode := hle node List.mem_cons_self
        have hfits : node % (UINT16_MAX + 1) = node := Nat.mod_eq_of_lt (by omega)
        show (0, (⟨node % (UINT16_MAX + 1), _⟩ : HkEntry)) = (0, (⟨node, _⟩ : HkEntry))
        rw [hfits]

/-- The status the parsed list gives. -/
def listStatus : Except Int (List HkEntry) → Int
  | .error e => e
  | .ok [] => -EINVAL
  | .ok (_ :: _) => 0

/-- The one error code of the numbers. -/
theorem parseParts_error {room : Nat} {cursor : Text} {e : Int}
    (h : parseParts cfg room cursor = .error e) : e = -EINVAL := by
  induction room generalizing cursor e with
  | zero => exact (Except.error.inj h).symm
  | succ room ih =>
    rw [parseParts] at h
    split at h
    · exact (Except.error.inj h).symm
    · dsimp only at h
      split at h
      · exact (Except.error.inj h).symm
      · split at h
        · split at h
          · rename_i htail
            rw [← Except.error.inj h]
            exact ih htail
          · exact absurd h (by simp)
        · exact absurd h (by simp)

/-- The parser's error codes are not zero. -/
theorem parseEntry_status {text : Text} {e : Int} (h : parseEntry cfg text = .error e) : e ≠ 0 := by
  have he : e = -EINVAL := by
    unfold parseEntry at h
    split at h
    · rename_i hparts
      rw [← Except.error.inj h]
      exact parseParts_error cfg hparts
    · dsimp only at h
      split at h
      · exact (Except.error.inj h).symm
      · split at h <;> exact absurd h (by simp)
  rw [he]
  decide

/-- What a call leaves behind when the parsed list is `result`: the status, `*count` on success
only, the entries in order, and nothing behind the array. -/
structure Leaves (max : Nat) (out : EntriesOut) (result : Except Int (List HkEntry))
    (r : Int × EntriesOut) : Prop where
  status : r.1 = listStatus result
  refused : r.1 ≠ 0 → r.2.count = out.count
  accepted : ∀ entries, result = .ok entries → entries ≠ [] →
    r.2.count = entries.length ∧ ∀ i entry, entries[i]? = some entry → r.2.entries i = entry
  inside : ∀ i, max ≤ i → r.2.entries i = out.entries i

/-- A refusal that has written nothing. -/
theorem leaves_refused (max : Nat) (out : EntriesOut) (e : Int) :
    Leaves max out (.error e) (e, out) :=
  ⟨rfl, fun _ => rfl, fun _ h => by simp at h, fun _ _ => rfl⟩

/-- The next entry is written behind those that stand in the array. -/
theorem written_append {parsed : List HkEntry} {entries : Nat → HkEntry}
    (h : ∀ i entry, parsed[i]? = some entry → entries i = entry) (entry : HkEntry) (i : Nat)
    (e : HkEntry) (hi : (parsed ++ [entry])[i]? = some e) :
    Function.update entries parsed.length entry i = e := by
  rw [List.getElem?_append] at hi
  split at hi
  · rw [Function.update_of_ne (by omega)]
    exact h i e hi
  · -- the entry just written
    obtain ⟨hone, heq⟩ := List.getElem?_eq_some_iff.mp hi
    rw [List.length_singleton] at hone
    have hlast : i = parsed.length := by omega
    subst hlast
    rw [← heq]
    simp

/-- **The loop over the words**: the entries parsed so far stand in the array, and the loop
adds the others behind them. -/
theorem parseEntriesToLoop_spec (hulong : UINT16_MAX ≤ cfg.ulongMax) (max : Nat) (cursor : Text)
    (parsed : List HkEntry) (out : EntriesOut) (hroom : parsed.length ≤ max)
    (hwritten : ∀ i entry, parsed[i]? = some entry → out.entries i = entry) :
    Leaves max out (parseEntriesLoop cfg max cursor parsed)
      (parseEntriesToLoop cfg max cursor parsed.length out) := by
  induction cursor, parsed using parseEntriesLoop.induct cfg max generalizing out with
  | case1 cursor parsed h =>
    rw [parseEntriesLoop_turn, parseEntriesToLoop_turn, h]
    dsimp only
    cases parsed with
    | nil => exact ⟨rfl, fun _ => rfl, fun _ he hne => absurd (Except.ok.inj he).symm hne,
        fun _ _ => rfl⟩
    | cons entry parsed =>
      rw [if_neg (by simp)]
      refine ⟨rfl, fun h0 => absurd rfl h0, ?_, fun _ _ => rfl⟩
      intro entries he _
      rw [← Except.ok.inj he]
      exact ⟨rfl, hwritten⟩
  | case2 cursor parsed c rest h token hlong =>
    rw [parseEntriesLoop_turn, parseEntriesToLoop_turn, h]
    dsimp only
    rw [if_pos hlong, if_pos hlong]
    exact leaves_refused max out _
  | case3 cursor parsed c rest h token hlong hfull =>
    rw [parseEntriesLoop_turn, parseEntriesToLoop_turn, h]
    dsimp only
    rw [if_neg hlong, if_neg hlong, if_pos hfull, if_pos hfull]
    exact leaves_refused max out _
  | case4 cursor parsed c rest h token hlong hfull e he =>
    have hto := parseEntryTo_eq cfg hulong token (out.entries parsed.length)
    rw [he] at hto
    rw [parseEntriesLoop_turn, parseEntriesToLoop_turn, h]
    dsimp only
    rw [if_neg hlong, if_neg hlong, if_neg hfull, if_neg hfull, he, hto, if_pos (parseEntry_status cfg he)]
    refine ⟨rfl, fun _ => rfl, fun _ h => by simp at h, ?_⟩
    intro i hi
    exact Function.update_of_ne (by omega) _ _
  | case5 cursor parsed c rest h token hlong hfull entry he ih =>
    have hto := parseEntryTo_eq cfg hulong token (out.entries parsed.length)
    rw [he] at hto
    rw [parseEntriesLoop_turn, parseEntriesToLoop_turn, h]
    dsimp only
    rw [if_neg hlong, if_neg hlong, if_neg hfull, if_neg hfull, he, hto, if_neg (by simp)]
    have hrest := ih { out with entries := Function.update out.entries parsed.length entry }
      (by rw [List.length_append, List.length_singleton]; omega) (written_append hwritten entry)
    rw [List.length_append, List.length_singleton] at hrest
    refine ⟨hrest.status, hrest.refused, hrest.accepted, ?_⟩
    intro i hi
    rw [hrest.inside i hi]
    exact Function.update_of_ne (by omega) _ _

/-- Neither are those of the loop over the words. -/
theorem parseWords_status {max : Nat} {words : List Text} {parsed : List HkEntry} {e : Int}
    (h : parseWords cfg max words parsed = .error e) : e ≠ 0 := by
  induction words generalizing parsed e with
  | nil => exact absurd h (by simp [parseWords])
  | cons word words ih =>
    rw [parseWords] at h
    split at h
    · rw [← Except.error.inj h]
      decide
    · split at h
      · rw [← Except.error.inj h]
        decide
      · split at h
        · rw [← Except.error.inj h]
          decide
        · exact ih h

/-- A refused list gives an error code that is not zero. -/
theorem parseEntries_status {text : Text} {max : Nat} {e : Int}
    (h : parseEntries cfg text max = .error e) : e ≠ 0 := by
  unfold parseEntries at h
  rw [parseEntries_eq] at h
  split at h
  · rw [← Except.error.inj h]
    decide
  · split at h
    · rename_i hloop
      rw [← Except.error.inj h]
      exact parseWords_status cfg hloop
    · split at h
      · rw [← Except.error.inj h]
        decide
      · exact absurd h (by simp)

/-- **What `parse_entries` leaves behind.** -/
theorem parseEntriesTo_spec (hulong : UINT16_MAX ≤ cfg.ulongMax) (text : Text) (max : Nat)
    (out : EntriesOut) :
    Leaves max out (parseEntries cfg text max) (parseEntriesTo cfg text max out) := by
  have hloop := parseEntriesToLoop_spec cfg hulong max text [] out (Nat.zero_le _)
    (fun i entry h => absurd h (by simp))
  unfold parseEntries parseEntriesTo
  by_cases hmax : max = 0
  · rw [if_pos hmax, if_pos hmax]
    exact leaves_refused max out _
  · rw [if_neg hmax, if_neg hmax]
    cases hparsed : parseEntriesLoop cfg max text [] with
    | error e =>
      rw [hparsed] at hloop
      exact hloop
    | ok parsed =>
      rw [hparsed] at hloop
      dsimp only
      split
      · -- an empty list is refused
        rename_i hnone
        subst hnone
        exact ⟨hloop.status, hloop.refused, fun _ h => by simp at h, hloop.inside⟩
      · exact hloop

/-! ## §4. Lists of entries. -/

/-- The entries of some words are read exactly when every word is an entry. -/
theorem readEntries_ok_iff (hulong : UINT16_MAX ≤ cfg.ulongMax)
    (hoffset : cfg.paramOffsetMax ≤ UINT16_MAX) (words : List Text) (entries : List HkEntry) :
    readEntries cfg words = .ok entries ↔ List.Forall₂ (IsEntry cfg) words entries := by
  induction words generalizing entries with
  | nil =>
    constructor
    · intro h
      rw [← Except.ok.inj h]
      exact .nil
    · intro h
      cases h
      rfl
  | cons word words ih =>
    rw [readEntries_cons_ok_iff]
    constructor
    · rintro ⟨entry, rest, hentry, hrest, rfl⟩
      exact .cons ((parseEntry_ok_iff cfg hulong hoffset _ _).mp hentry) ((ih rest).mp hrest)
    · intro h
      cases h with
      | cons hentry hrest =>
        exact ⟨_, _, (parseEntry_ok_iff cfg hulong hoffset _ _).mpr hentry, (ih _).mpr hrest, rfl⟩

/-- Words that are entries, one by one, are a list of entries. -/
theorem exists_entries (words : List Text) (h : ∀ w ∈ words, ∃ entry, IsEntry cfg w entry) :
    ∃ entries, List.Forall₂ (IsEntry cfg) words entries := by
  induction words with
  | nil => exact ⟨[], .nil⟩
  | cons w words ih =>
    obtain ⟨entry, hentry⟩ := h w List.mem_cons_self
    obtain ⟨rest, hrest⟩ := ih fun v hv => h v (List.mem_cons_of_mem w hv)
    exact ⟨entry :: rest, .cons hentry hrest⟩

/-- **Entry lists are parsed exactly and atomically**: the call succeeds when the words between
spaces are at least one and at most `max`, each of them shorter than the token buffer and an
entry of the grammar.  Then the array holds these entries in order and `*count` their number;
on refusal `*count` is unchanged.  Nothing behind the array is written, and `parse_entry` leaves
`*entry` unchanged whenever it refuses. -/
theorem parseEntriesTo_exact (hulong : UINT16_MAX ≤ cfg.ulongMax)
    (hoffset : cfg.paramOffsetMax ≤ UINT8_MAX) (text : Text) (max : Nat) (out : EntriesOut) :
    let words := (text.splitOn ' ').filter (· ≠ [])
    let r := parseEntriesTo cfg text max out
    (r.1 = 0 ↔ 1 ≤ words.length ∧ words.length ≤ max
        ∧ ∀ w ∈ words, w.length < 24 ∧ ∃ entry, IsEntry cfg w entry)
      ∧ (r.1 = 0 → r.2.count = words.length
          ∧ ∀ i w, words[i]? = some w → IsEntry cfg w (r.2.entries i))
      ∧ (r.1 ≠ 0 → r.2.count = out.count)
      ∧ (∀ i, max ≤ i → r.2.entries i = out.entries i)
      ∧ ∀ word entry, (parseEntryTo cfg word entry).1 ≠ 0 →
          (parseEntryTo cfg word entry).2 = entry := by
  intro words r
  have hspec := parseEntriesTo_spec cfg hulong text max out
  have hok := parseEntries_ok_iff cfg text max
  simp only [textWords_eq_splitOn,
    readEntries_ok_iff cfg hulong (hoffset.trans (by decide))] at hok
  -- the status is zero for a parsed list and for nothing else
  have hstatus : r.1 = 0 ↔ ∃ entries, parseEntries cfg text max = .ok entries := by
    rw [show r.1 = listStatus (parseEntries cfg text max) from hspec.status]
    cases hresult : parseEntries cfg text max with
    | error e => simpa [listStatus] using parseEntries_status cfg hresult
    | ok entries =>
      obtain ⟨hne, _, _, hentries⟩ := (hok entries).mp hresult
      cases entries with
      | nil => exact absurd (List.length_eq_zero_iff.mp hentries.length_eq) hne
      | cons entry entries => simp [listStatus]
  refine ⟨?_, ?_, hspec.refused, hspec.inside, ?_⟩
  · rw [hstatus]
    constructor
    · rintro ⟨entries, hentries⟩
      obtain ⟨hne, hmax, hshort, hall⟩ := (hok entries).mp hentries
      refine ⟨List.length_pos_iff.mpr hne, hmax, fun w hw => ⟨hshort w hw, ?_⟩⟩
      obtain ⟨i, hi⟩ := List.getElem?_of_mem hw
      obtain ⟨hlt, rfl⟩ := List.getElem?_eq_some_iff.mp hi
      exact ⟨_, List.forall₂_iff_get.mp hall |>.2 i hlt (hall.length_eq ▸ hlt)⟩
    · rintro ⟨hpos, hmax, hall⟩
      obtain ⟨entries, hentries⟩ := exists_entries cfg words fun w hw => (hall w hw).2
      exact ⟨entries, (hok entries).mpr
        ⟨List.length_pos_iff.mp hpos, hmax, fun w hw => (hall w hw).1, hentries⟩⟩
  · intro hzero
    obtain ⟨entries, hentries⟩ := hstatus.mp hzero
    obtain ⟨hne, _, _, hall⟩ := (hok entries).mp hentries
    have hne' : entries ≠ [] := by
      rintro rfl
      exact hne (List.length_eq_zero_iff.mp hall.length_eq)
    obtain ⟨hcount, hwritten⟩ := hspec.accepted entries hentries hne'
    refine ⟨hcount.trans hall.length_eq.symm, ?_⟩
    intro i w hw
    obtain ⟨hlt, rfl⟩ := List.getElem?_eq_some_iff.mp hw
    have hlt' : i < entries.length := hall.length_eq ▸ hlt
    rw [show r.2.entries i = entries[i] from hwritten i _ (List.getElem?_eq_getElem hlt')]
    exact (List.forall₂_iff_get.mp hall).2 i hlt hlt'
  · intro word entry hrefused
    rw [parseEntryTo_eq cfg hulong] at hrefused ⊢
    cases hparse : parseEntry cfg word with
    | error e => rfl
    | ok parsed =>
      rw [hparse] at hrefused
      exact absurd rfl hrefused

/-- Three entries, two spaces between the last of them. -/
theorem parseEntriesTo_exact_three :
    let r := parseEntriesTo exampleBuild "1:0 2:4  3:9:8".toList 4 ⟨fun _ => ⟨7, 7⟩, 0⟩
    r.1 = 0 ∧ r.2.count = 3 := by
  have hwords : ("1:0 2:4  3:9:8".toList.splitOn ' ').filter (· ≠ [])
      = ["1:0".toList, "2:4".toList, "3:9:8".toList] := by decide
  have hentry : ∀ w ∈ ["1:0".toList, "2:4".toList, "3:9:8".toList],
      ∃ entry, parseEntry exampleBuild w = .ok entry := by
    intro w hw
    simp only [List.mem_cons, List.not_mem_nil, or_false] at hw
    rcases hw with rfl | rfl | rfl <;> exact ⟨_, rfl⟩
  obtain ⟨hiff, hcount, -⟩ := parseEntriesTo_exact exampleBuild (by decide) (by decide)
    "1:0 2:4  3:9:8".toList 4 ⟨fun _ => ⟨7, 7⟩, 0⟩
  rw [hwords] at hiff hcount
  have hzero := hiff.mpr ⟨by decide, by decide, fun w hw => ?_⟩
  · exact ⟨hzero, (hcount hzero).1⟩
  · obtain ⟨entry, he⟩ := hentry w hw
    have hshort : ∀ w ∈ ["1:0".toList, "2:4".toList, "3:9:8".toList], w.length < 24 := by decide
    exact ⟨hshort w hw,
      entry, (parseEntry_ok_iff exampleBuild (by decide) (by decide) w entry).mp he⟩

end KFsw.App
