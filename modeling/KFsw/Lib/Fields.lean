/-
  KFsw.Lib.Fields — texts of the form `key=value key=value ...`.

  A `KeyValue` carries what makes it readable: its key is a word without an equals
  sign, its value has no space (and may be empty, or hold equals signs).  Fields
  are joined by single spaces, and a word is read at its first equals sign.

  Main results:
    * `textWords_fieldsText`, `splitField_append` — joined fields are read back;
    * `exists_wordsCut`       — where a cut falls in joined words;
    * `textWords_cut`         — the words that are left, for a cut there.
-/
import KFsw.Lib.CString

namespace KFsw.Lib

/-- A key with its value. -/
structure KeyValue where
  key : Text
  value : Text
  key_word : IsWord key
  key_free : '=' ∉ key
  value_free : ' ' ∉ value

def KeyValue.text (field : KeyValue) : Text := field.key ++ '=' :: field.value

/-- Fields, one after the other. -/
def fieldsText (fields : List KeyValue) : Text := joinWords (fields.map KeyValue.text)

/-- A word at its first equals sign, if there is one: what stands before it and behind it. -/
def splitField (word : Text) : Option (Text × Text) :=
  match word.dropWhile (· ≠ '=') with
  | [] => none
  | _ :: value => some (word.takeWhile (· ≠ '='), value)

/-! ## §1. Reading fields back. -/

theorem KeyValue.text_word (field : KeyValue) : IsWord field.text := by
  refine ⟨List.append_ne_nil_of_right_ne_nil _ (List.cons_ne_nil _ _), ?_⟩
  rw [KeyValue.text, List.mem_append, List.mem_cons]
  rintro (h | h | h)
  · exact field.key_word.2 h
  · exact absurd h (by decide)
  · exact field.value_free h

/-- **A word is read back at its first equals sign**, also with more of them in its value. -/
theorem splitField_append {key : Text} (hkey : '=' ∉ key) (value : Text) :
    splitField (key ++ '=' :: value) = some (key, value) := by
  have hall : ∀ c ∈ key, decide (c ≠ '=') = true := fun c hc =>
    decide_eq_true fun h => hkey (h ▸ hc)
  unfold splitField
  rw [List.dropWhile_append_of_pos hall, List.takeWhile_append_of_pos hall]
  simp

/-- **Joined fields are found again**, word by word. -/
theorem textWords_fieldsText (fields : List KeyValue) :
    textWords (fieldsText fields) = fields.map KeyValue.text := by
  refine textWords_joinWords _ fun w hw => ?_
  obtain ⟨field, -, rfl⟩ := List.mem_map.mp hw
  exact field.text_word

/-! ## §2. Words that are cut. -/

/-- A word in front of others. -/
theorem joinWords_cons (w : Text) (words : List Text) :
    joinWords (w :: words) = w ++ match words with
      | [] => []
      | v :: rest => ' ' :: joinWords (v :: rest) := by
  cases words with
  | nil => exact (List.append_nil w).symm
  | cons v rest => rfl

/-- Where the next word begins behind some words. -/
def wordsStart (words : List Text) : Nat := words.foldr (fun w start => w.length + 1 + start) 0

@[simp] theorem wordsStart_nil : wordsStart [] = 0 := rfl

@[simp] theorem wordsStart_cons (w : Text) (words : List Text) :
    wordsStart (w :: words) = w.length + 1 + wordsStart words := rfl

/-- The first `n` characters of joined words have all of some of them, and not all of the next
one. -/
structure WordsCut (n : Nat) (whole behind : List Text) : Prop where
  whole_kept : wordsStart whole ≤ n + 1
  next_cut : ∀ next ∈ behind.head?, n < wordsStart whole + next.length

/-- **A cut falls somewhere.** -/
theorem exists_wordsCut (words : List Text) (n : Nat) :
    ∃ whole behind, words = whole ++ behind ∧ WordsCut n whole behind := by
  induction words generalizing n with
  | nil => exact ⟨[], [], rfl, Nat.zero_le _, fun _ h => absurd h (by simp)⟩
  | cons w words ih =>
    rcases Nat.lt_trichotomy n w.length with hn | rfl | hn
    · refine ⟨[], w :: words, rfl, Nat.zero_le _, fun next h => ?_⟩
      obtain rfl : w = next := Option.some.inj h
      rw [wordsStart_nil, Nat.zero_add]
      exact hn
    · refine ⟨[w], words, rfl, ?_, fun next _ => ?_⟩ <;> rw [wordsStart_cons, wordsStart_nil]
      omega
    · obtain ⟨whole, behind, rfl, hcut⟩ := ih (n - w.length - 1)
      have hkept := hcut.whole_kept
      refine ⟨w :: whole, behind, rfl, ?_, fun next hnext => ?_⟩
      · rw [wordsStart_cons]
        omega
      · have := hcut.next_cut next hnext
        rw [wordsStart_cons]
        omega

/-- The beginning of the next word, if there is any of it. -/
def beginning (n : Nat) : List Text → List Text
  | [] => []
  | next :: _ => if n = 0 then [] else [next.take n]

@[simp] theorem beginning_zero (words : List Text) : beginning 0 words = [] := by
  cases words <;> rfl

/-- A cut in the first word. -/
theorem textWords_take_first {w : Text} (hw : IsWord w) (words : List Text) {n : Nat}
    (hn : n ≤ w.length) :
    textWords ((joinWords (w :: words)).take n) = beginning n (w :: words) := by
  rw [joinWords_cons, List.take_append_of_le_length hn, beginning]
  split
  · rename_i hzero
    rw [hzero, List.take_zero, textWords_nil]
  · rename_i hpos
    have hne : w.take n ≠ [] := by
      rw [ne_eq, List.take_eq_nil_iff, not_or]
      exact ⟨hpos, hw.1⟩
    have hword : IsWord (w.take n) := ⟨hne, fun h => hw.2 (List.mem_of_mem_take h)⟩
    have := textWords_word hword [] (.inl rfl)
    rw [List.append_nil, textWords_nil] at this
    exact this

/-- A cut behind the first word. -/
theorem textWords_take_behind {w : Text} (hw : IsWord w) (words : List Text) {n : Nat}
    (hn : w.length < n) :
    textWords ((joinWords (w :: words)).take n)
      = w :: textWords ((joinWords words).take (n - w.length - 1)) := by
  obtain ⟨m, rfl⟩ : ∃ m, n = w.length + (m + 1) := ⟨n - w.length - 1, by omega⟩
  rw [joinWords_cons, List.take_length_add_append,
    show w.length + (m + 1) - w.length - 1 = m by omega]
  cases words with
  | nil => rw [List.take_nil, textWords_word hw [] (.inl rfl), joinWords, List.take_nil]
  | cons v rest =>
    dsimp only
    rw [List.take_succ_cons, textWords_word hw _ (.inr ⟨_, rfl⟩), textWords_space]

/-- **What a cut leaves of joined words**: those before it, and the beginning of the next one. -/
theorem textWords_cut {whole behind : List Text} (hwords : ∀ w ∈ whole ++ behind, IsWord w)
    {n : Nat} (hcut : WordsCut n whole behind) :
    textWords ((joinWords (whole ++ behind)).take n)
      = whole ++ beginning (n - wordsStart whole) behind := by
  induction whole generalizing n with
  | nil =>
    cases behind with
    | nil => rw [List.append_nil, joinWords, List.take_nil, textWords_nil]; rfl
    | cons next behind =>
      have hn := hcut.next_cut next rfl
      rw [wordsStart_nil, Nat.zero_add] at hn
      exact textWords_take_first (hwords next List.mem_cons_self) behind hn.le
  | cons w whole ih =>
    rw [List.cons_append, List.forall_mem_cons] at hwords
    have hkept := hcut.whole_kept
    rw [wordsStart_cons] at hkept
    rw [List.cons_append]
    by_cases hn : w.length < n
    · have hrest : WordsCut (n - w.length - 1) whole behind := by
        refine ⟨by omega, fun next hnext => ?_⟩
        have := hcut.next_cut next hnext
        rw [wordsStart_cons] at this
        omega
      rw [textWords_take_behind hwords.1 _ hn, ih hwords.2 hrest, wordsStart_cons,
        List.cons_append, Nat.sub_sub, Nat.sub_sub, ← Nat.add_assoc]
    · -- the cut is at the end of the first word
      obtain rfl : n = w.length := by omega
      obtain rfl : whole = [] := by
        cases whole with
        | nil => rfl
        | cons v whole =>
          rw [wordsStart_cons] at hkept
          omega
      have hpos : w.length ≠ 0 := fun h => hwords.1.1 (List.length_eq_zero_iff.mp h)
      rw [textWords_take_first hwords.1 _ Nat.le.refl, beginning, if_neg hpos, List.take_length,
        wordsStart_cons, show w.length - (w.length + 1 + wordsStart []) = 0 by omega,
        beginning_zero, List.append_nil]

end KFsw.Lib
