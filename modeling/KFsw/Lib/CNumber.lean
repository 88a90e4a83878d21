/-
  KFsw.Lib.CNumber — the numbers of C in base 0: their grammar, what `strtoul`
  takes of a text, and numbers as they are written.

  Main results:
    * `strtoul_whole_iff`     — the texts `strtoul` reads to their end are the
      numbers of C's grammar;
    * `strtoul_takes_iff`     — what it takes of any text: white space and a sign,
      then such a number;
    * `digitsValue_toDigits`  — written digits spell their number;
    * `digitsValue_hexPadded` — so do those of a padded hexadecimal number.
-/
import KFsw.Lib.CString
import Mathlib.Algebra.Group.Nat.Defs

namespace KFsw.Lib

/-! ## §1. The grammar. -/

/-- **The grammar of an unsigned C number in base 0**: decimal digits, octal digits after a
zero, or hexadecimal digits after `0x`. -/
inductive IsNumber : Text → Nat → Prop
  | decimal (digits : Text) (hne : digits ≠ []) (hzero : digits.head? ≠ some '0')
      (hdigits : ∀ c ∈ digits, isDigitIn 10 c = true) : IsNumber digits (digitsValue 10 digits)
  | octal (digits : Text) (hdigits : ∀ c ∈ digits, isDigitIn 8 c = true) :
      IsNumber ('0' :: digits) (digitsValue 8 digits)
  | hexadecimal (x : Char) (digits : Text) (hx : x = 'x' ∨ x = 'X') (hne : digits ≠ [])
      (hdigits : ∀ c ∈ digits, isDigitIn 16 c = true) :
      IsNumber ('0' :: x :: digits) (digitsValue 16 digits)

/-- The decimal digits are those `isdigit` knows. -/
theorem isDigitIn_ten (c : Char) : isDigitIn 10 c = isdigit c := by
  unfold isDigitIn digitValue isdigit
  by_cases h : '0' ≤ c ∧ c ≤ '9'
  · have hle : c.toNat ≤ '9'.toNat := h.2
    have hten : c.toNat - '0'.toNat < 10 := by
      simp only [Char.reduceToNat] at hle ⊢
      omega
    rw [if_pos h]
    simp only [hten, h.1, h.2, decide_true, Bool.and_self]
  · rw [if_neg h]
    have hfalse : (decide ('0' ≤ c) && decide (c ≤ '9')) = false := by
      rw [Bool.eq_false_iff]
      simpa using h
    rw [hfalse]
    -- a letter counts ten or more
    split
    · rename_i d hd
      have hd10 : 10 ≤ d := by
        split at hd
        · injection hd with hd
          omega
        · split at hd
          · injection hd with hd
            omega
          · exact absurd hd (by simp)
      exact decide_eq_false (by omega)
    · rfl

/-- A number starts with a digit. -/
theorem IsNumber.head {s : Text} {value : Nat} (h : IsNumber s value) :
    s.head?.elim false isdigit = true := by
  cases h with
  | decimal digits hne hzero hdigits =>
    obtain ⟨c, rest, rfl⟩ := List.exists_cons_of_ne_nil hne
    show isdigit c = true
    rw [← isDigitIn_ten]
    exact hdigits c List.mem_cons_self
  | octal digits hdigits => rfl
  | hexadecimal x digits hx hne hdigits => rfl

/-- **The grammar, as the detected base reads it.** -/
theorem isNumber_iff {s : Text} (hs : s.head?.elim false isdigit = true) (value : Nat) :
    IsNumber s value
      ↔ (∀ c ∈ (detectBase s).2, isDigitIn (detectBase s).1 c = true)
        ∧ digitsValue (detectBase s).1 (detectBase s).2 = value := by
  cases detectBase_cases s with
  | hexadecimal x d rest hx hd hbase =>
    -- the letter of the prefix is no digit in another base
    have hletter : isDigitIn 10 x = false ∧ isDigitIn 8 x = false := by
      rcases hx with rfl | rfl <;> decide
    rw [hbase]
    constructor
    · intro h
      cases h with
      | decimal _ _ _ hdigits =>
        exact absurd (hdigits x (by simp)) (by rw [hletter.1]; decide)
      | octal _ hdigits => exact absurd (hdigits x (by simp)) (by rw [hletter.2]; decide)
      | hexadecimal _ _ _ _ hdigits => exact ⟨hdigits, rfl⟩
    · rintro ⟨hdigits, rfl⟩
      exact .hexadecimal x (d :: rest) hx (List.cons_ne_nil _ _) hdigits
  | octal digits hhex hbase =>
    rw [hbase]
    constructor
    · intro h
      cases h with
      | decimal _ _ hne _ => exact absurd rfl hne
      | octal _ hdigits =>
        refine ⟨?_, rfl⟩
        intro c hc
        rcases List.mem_cons.mp hc with rfl | hc
        · rfl
        · exact hdigits c hc
      | hexadecimal x digits hx hne hdigits =>
        -- a hexadecimal digit would have made the prefix one
        obtain ⟨d, rest, rfl⟩ := List.exists_cons_of_ne_nil hne
        rw [afterHexPrefix, if_pos ⟨hx, hdigits d List.mem_cons_self⟩] at hhex
        exact absurd hhex (by simp)
    · rintro ⟨hdigits, rfl⟩
      exact .octal digits fun c hc => hdigits c (List.mem_cons_of_mem _ hc)
  | decimal _ hzero hbase =>
    rw [hbase]
    constructor
    · intro h
      cases h with
      | decimal _ _ _ hdigits => exact ⟨hdigits, rfl⟩
      | octal _ _ => exact absurd rfl hzero
      | hexadecimal _ _ _ _ _ => exact absurd rfl hzero
    · rintro ⟨hdigits, rfl⟩
      refine .decimal s ?_ hzero hdigits
      rintro rfl
      exact absurd hs (by decide)

/-- The first digit of a number is one of the detected base. -/
theorem detectBase_first {s : Text} (hs : s.head?.elim false isdigit = true) :
    ∃ d rest, (detectBase s).2 = d :: rest ∧ isDigitIn (detectBase s).1 d = true := by
  cases detectBase_cases s with
  | hexadecimal x d rest _ hd hbase =>
    rw [hbase]
    exact ⟨d, rest, rfl, hd⟩
  | octal digits _ hbase =>
    rw [hbase]
    exact ⟨'0', digits, rfl, rfl⟩
  | decimal _ _ hbase =>
    rw [hbase]
    cases s with
    | nil => exact absurd hs (by decide)
    | cons c rest => exact ⟨c, rest, rfl, (isDigitIn_ten c).trans hs⟩

/-- A digit is no whitespace. -/
theorem isspace_of_isdigit {c : Char} (hc : isdigit c = true) : isspace c = false := by
  rw [Bool.eq_false_iff]
  intro h
  have hcase : ∀ d : Char, c = d → isdigit d = true := fun d hd => hd ▸ hc
  simp only [isspace, Bool.or_eq_true, decide_eq_true_eq] at h
  rcases h with ((((h | h) | h) | h) | h) | h <;> exact absurd (hcase _ h) (by decide)

/-- What `strtoul` makes of a text that starts with a digit. -/
theorem strtoul_of_digit (ulongMax : Nat) {s : Text} (hs : s.head?.elim false isdigit = true) :
    strtoul ulongMax s
      = let base := (detectBase s).1
        let digits := (detectBase s).2.takeWhile (isDigitIn base)
        let rest := (detectBase s).2.dropWhile (isDigitIn base)
        if digitsValue base digits > ulongMax then ⟨ulongMax, rest, true⟩
        else ⟨digitsValue base digits, rest, false⟩ := by
  have hne : (detectBase s).2.takeWhile (isDigitIn (detectBase s).1) ≠ [] := by
    obtain ⟨d, rest, heq, hd⟩ := detectBase_first hs
    rw [heq, List.takeWhile_cons_of_pos hd]
    exact List.cons_ne_nil _ _
  cases s with
  | nil => exact absurd hs (by decide)
  | cons c s =>
    have hc : isdigit c = true := hs
    have hsign : ¬ (c = '-' ∨ c = '+') := by
      rintro (rfl | rfl) <;> exact absurd hc (by decide)
    have hminus : ¬ some c = some '-' := fun h => hsign (.inl (Option.some.inj h))
    have hskip : skipSign (c :: s) = c :: s := by
      rw [skipSign, List.head?_cons, if_neg]
      rintro (h | h)
      · exact hsign (.inl (Option.some.inj h))
      · exact hsign (.inr (Option.some.inj h))
    unfold strtoul
    rw [List.dropWhile_cons_of_neg (by rw [isspace_of_isdigit hc]; decide)]
    dsimp only
    rw [hskip, if_neg hne, List.head?_cons, if_neg hminus]
    rfl

/-- **The numbers `strtoul` reads to their end** are those of the grammar, below any bound that
an `unsigned long` can hold. -/
theorem strtoul_whole_iff {ulongMax bound : Nat} (hbound : bound ≤ ulongMax) {s : Text}
    (hs : s.head?.elim false isdigit = true) (value : Nat) :
    ((strtoul ulongMax s).rest = [] ∧ (strtoul ulongMax s).range = false
        ∧ (strtoul ulongMax s).value = value ∧ value ≤ bound)
      ↔ IsNumber s value ∧ value ≤ bound := by
  rw [strtoul_of_digit ulongMax hs, isNumber_iff hs]
  dsimp only
  generalize detectBase s = number
  by_cases hall : ∀ c ∈ number.2, isDigitIn number.1 c = true
  · have htake : number.2.takeWhile (isDigitIn number.1) = number.2 :=
      List.takeWhile_eq_self_iff.mpr hall
    have hdrop : number.2.dropWhile (isDigitIn number.1) = [] :=
      List.dropWhile_eq_nil_iff.mpr hall
    rw [htake, hdrop]
    split
    · rename_i hbig
      constructor
      · intro h
        exact absurd h.2.1 (by simp)
      · intro h
        obtain ⟨⟨_, hvalue⟩, hle⟩ := h
        omega
    · constructor
      · intro h
        exact ⟨⟨hall, h.2.2.1⟩, h.2.2.2⟩
      · intro h
        exact ⟨rfl, rfl, h.1.2, h.2⟩
  · constructor
    · intro h
      refine absurd (List.dropWhile_eq_nil_iff.mp ?_) hall
      split at h
      · exact h.1
      · exact h.1
    · intro h
      exact absurd h.1.1 hall

/-! ## §2. What stands before and behind a number. -/

/-- What `strtoul` skips before the digits: white space and at most one sign. -/
def IsLead (lead : Text) : Prop :=
  ∃ spaces sign, lead = spaces ++ sign ∧ (∀ c ∈ spaces, isspace c = true)
    ∧ (sign = [] ∨ sign = ['-'] ∨ sign = ['+'])

/-- What cannot continue a number of any base. -/
def IsStop (rest : Text) : Prop := ∀ c ∈ rest.head?, digitValue c = none

/-- A text that starts with a digit, also with more behind it. -/
theorem digit_append {number : Text} (h : number.head?.elim false isdigit = true) (rest : Text) :
    (number ++ rest).head?.elim false isdigit = true := by
  obtain ⟨c, number, rfl⟩ := List.exists_cons_of_ne_nil (l := number) (by
    rintro rfl
    exact absurd h (by decide))
  exact h

/-- **A number is read up to what stops it.** -/
theorem strtoul_number (ulongMax : Nat) {number rest : Text} {value : Nat}
    (hnumber : IsNumber number value) (hrest : IsStop rest) :
    strtoul ulongMax (number ++ rest)
      = if value > ulongMax then ⟨ulongMax, rest, true⟩ else ⟨value, rest, false⟩ := by
  have hwhole : strtoul ulongMax number
      = if value > ulongMax then ⟨ulongMax, [], true⟩ else ⟨value, [], false⟩ := by
    obtain ⟨hdigits, hvalue⟩ := (isNumber_iff hnumber.head value).mp hnumber
    rw [strtoul_of_digit ulongMax hnumber.head]
    dsimp only
    rw [List.takeWhile_eq_self_iff.mpr hdigits, List.dropWhile_eq_nil_iff.mpr hdigits, hvalue]
  cases rest with
  | nil => rw [List.append_nil, hwhole]
  | cons c t =>
    have hsome : ∃ c ∈ number, isspace c = false := by
      obtain ⟨d, number, rfl⟩ := List.exists_cons_of_ne_nil (l := number) (by
        rintro rfl
        exact absurd hnumber.head (by decide))
      exact ⟨d, List.mem_cons_self, isspace_of_isdigit hnumber.head⟩
    rw [strtoul_append_stop (hrest c rfl) ulongMax number t hsome, hwhole]
    split <;> rfl

/-- A text that starts with a digit is a number up to where `strtoul` stops, when it stops before
what cannot continue a number. -/
theorem strtoul_consumed (ulongMax : Nat) {s : Text} (hs : s.head?.elim false isdigit = true)
    (hrest : IsStop (strtoul ulongMax s).rest) :
    ∃ number value, s = number ++ (strtoul ulongMax s).rest ∧ IsNumber number value := by
  have hwhole : ∀ number : Text, number.head?.elim false isdigit = true →
      (strtoul ulongMax number).rest = [] → ∃ value, IsNumber number value := by
    intro number hnumber hnil
    refine ⟨digitsValue (detectBase number).1 (detectBase number).2, ?_⟩
    rw [isNumber_iff hnumber]
    refine ⟨List.dropWhile_eq_nil_iff.mp ?_, rfl⟩
    rw [strtoul_of_digit ulongMax hnumber] at hnil
    dsimp only at hnil
    split at hnil
    · exact hnil
    · exact hnil
  obtain ⟨number, hnumber⟩ := strtoul_rest_suffix ulongMax s
  cases hcase : (strtoul ulongMax s).rest with
  | nil =>
    obtain ⟨value, hvalue⟩ := hwhole s hs hcase
    exact ⟨s, value, (List.append_nil s).symm, hvalue⟩
  | cons c t =>
    rw [hcase] at hnumber hrest
    have hstop : digitValue c = none := hrest c rfl
    have hdigit : number.head?.elim false isdigit = true := by
      cases number with
      | nil =>
        -- the text would start with the stop
        rw [← hnumber] at hs
        have hc : isDigitIn 10 c = true := (isDigitIn_ten c).trans hs
        rw [isDigitIn_stop hstop] at hc
        exact absurd hc (by decide)
      | cons d number =>
        rw [← hnumber] at hs
        exact hs
    have hrun := strtoul_append_stop hstop ulongMax number t (by
      obtain ⟨d, number, rfl⟩ := List.exists_cons_of_ne_nil (l := number) (by
        rintro rfl
        exact absurd hdigit (by decide))
      exact ⟨d, List.mem_cons_self, isspace_of_isdigit hdigit⟩)
    rw [hnumber] at hrun
    have hnil : (strtoul ulongMax number).rest = [] := by
      rw [hrun] at hcase
      exact List.append_left_eq_self.mp hcase
    obtain ⟨value, hvalue⟩ := hwhole number hdigit hnil
    exact ⟨number, value, hnumber.symm, hvalue⟩

/-- White space and a sign are skipped before a digit. -/
theorem skipSign_lead {lead body : Text} (hlead : IsLead lead)
    (hbody : body.head?.elim false isdigit = true) :
    skipSign ((lead ++ body).dropWhile isspace) = body := by
  obtain ⟨spaces, sign, rfl, hspaces, hsign⟩ := hlead
  obtain ⟨c, body, rfl⟩ := List.exists_cons_of_ne_nil (l := body) (by
    rintro rfl
    exact absurd hbody (by decide))
  have hc : isdigit c = true := hbody
  have hplain : ¬ (some c = some '-' ∨ some c = some '+') := by
    rintro (h | h)
    · exact absurd (Option.some.inj h ▸ hc) (by decide)
    · exact absurd (Option.some.inj h ▸ hc) (by decide)
  rw [List.append_assoc, List.dropWhile_append, if_pos (by
    rw [List.isEmpty_iff, List.dropWhile_eq_nil_iff]
    exact hspaces)]
  rcases hsign with rfl | rfl | rfl
  · rw [List.nil_append, List.dropWhile_cons_of_neg (by rw [isspace_of_isdigit hc]; decide),
      skipSign, List.head?_cons, if_neg hplain]
  · rfl
  · rfl

/-- The text `strtoul` reads its digits from, and what it skipped before it. -/
theorem exists_lead (s : Text) :
    ∃ lead, s = lead ++ skipSign (s.dropWhile isspace) ∧ IsLead lead := by
  have hspaces : ∀ c ∈ s.takeWhile isspace, isspace c = true := fun c hc =>
    List.mem_takeWhile_imp hc
  have hsplit : s = s.takeWhile isspace ++ s.dropWhile isspace :=
    (List.takeWhile_append_dropWhile).symm
  generalize hbody : s.dropWhile isspace = body at hsplit ⊢
  unfold skipSign
  split
  · rename_i hsign
    cases body with
    | nil => exact absurd hsign (by simp)
    | cons c body =>
      refine ⟨s.takeWhile isspace ++ [c], ?_, s.takeWhile isspace, [c], rfl, hspaces, ?_⟩
      · rw [List.append_assoc]
        exact hsplit
      · simpa using hsign
  · exact ⟨s.takeWhile isspace, hsplit, s.takeWhile isspace, [], (List.append_nil _).symm,
      hspaces, .inl rfl⟩

/-- What remains after a conversion, told from the text without its lead. -/
theorem strtoul_rest_lead (ulongMax : Nat) {lead body : Text} (hlead : IsLead lead)
    (hbody : body.head?.elim false isdigit = true) :
    (strtoul ulongMax (lead ++ body)).rest = (strtoul ulongMax body).rest := by
  have hne : (detectBase body).2.takeWhile (isDigitIn (detectBase body).1) ≠ [] := by
    obtain ⟨d, rest, heq, hd⟩ := detectBase_first hbody
    rw [heq, List.takeWhile_cons_of_pos hd]
    exact List.cons_ne_nil _ _
  have hskip : skipSign (body.dropWhile isspace) = body :=
    @skipSign_lead [] body ⟨[], [], rfl, by simp, .inl rfl⟩ hbody
  unfold strtoul
  dsimp only
  rw [skipSign_lead hlead hbody, hskip, if_neg hne, if_neg hne]
  split
  · rfl
  · rfl

/-- A text without digits where a number would stand is left as it is. -/
theorem strtoul_none (ulongMax : Nat) {s : Text}
    (hs : (skipSign (s.dropWhile isspace)).head?.elim false isdigit = false) :
    (strtoul ulongMax s).rest = s := by
  have hnil : (detectBase (skipSign (s.dropWhile isspace))).2.takeWhile
      (isDigitIn (detectBase (skipSign (s.dropWhile isspace))).1) = [] := by
    generalize skipSign (s.dropWhile isspace) = body at hs
    cases detectBase_cases body with
    | hexadecimal x d rest _ _ _ => exact absurd hs (show ¬ isdigit '0' = false by decide)
    | octal digits _ _ => exact absurd hs (show ¬ isdigit '0' = false by decide)
    | decimal _ _ hbase =>
      rw [hbase]
      cases body with
      | nil => rfl
      | cons c body =>
        have hc : isDigitIn 10 c = false := (isDigitIn_ten c).trans hs
        exact List.takeWhile_cons_of_neg (by rw [hc]; decide)
  unfold strtoul
  dsimp only
  rw [if_pos hnil]

/-- **What `strtoul` takes**: it stops before `rest`, with something converted, exactly when the
text is a lead, a number and `rest`. -/
theorem strtoul_takes_iff (ulongMax : Nat) {s rest : Text} (hrest : IsStop rest) :
    ((strtoul ulongMax s).rest = rest ∧ rest ≠ s)
      ↔ ∃ lead number value, s = lead ++ (number ++ rest) ∧ IsLead lead ∧ IsNumber number value := by
  constructor
  · rintro ⟨hstop, hne⟩
    obtain ⟨lead, hs, hlead⟩ := exists_lead s
    cases hdigit : (skipSign (s.dropWhile isspace)).head?.elim false isdigit with
    | false =>
      rw [strtoul_none ulongMax hdigit] at hstop
      exact absurd hstop.symm hne
    | true =>
      generalize skipSign (s.dropWhile isspace) = body at hs hdigit
      subst hs
      rw [strtoul_rest_lead ulongMax hlead hdigit] at hstop
      obtain ⟨number, value, hbody, hnumber⟩ := strtoul_consumed ulongMax hdigit (by
        rw [hstop]
        exact hrest)
      rw [hstop] at hbody
      exact ⟨lead, number, value, by rw [← hbody], hlead, hnumber⟩
  · rintro ⟨lead, number, value, rfl, hlead, hnumber⟩
    rw [strtoul_rest_lead ulongMax hlead (digit_append hnumber.head rest),
      strtoul_number ulongMax hnumber hrest]
    refine ⟨by split <;> rfl, ?_⟩
    intro h
    -- the number is not empty
    have hlength := congrArg List.length h
    rw [List.length_append, List.length_append] at hlength
    have hnil : number = [] := List.length_eq_zero_iff.mp (by omega)
    rw [hnil] at hnumber
    exact absurd hnumber.head (by decide)

/-! ## §3. Numbers as they are written. -/

theorem digit_of_digitChar {d base : Nat} (hd : d < base) (hbase : base ≤ 16) :
    isDigitIn base d.digitChar = true ∧ (digitValue d.digitChar).getD 0 = d := by
  have hall : ∀ d < 16, digitValue (Nat.digitChar d) = some d := by decide
  have hvalue := hall d (by omega)
  rw [isDigitIn, hvalue]
  exact ⟨decide_eq_true hd, rfl⟩

/-- What a written number is made of. -/
theorem exists_digit_of_mem_toDigits {base : Nat} (h1 : 1 < base) (n : Nat) {c : Char}
    (hc : c ∈ Nat.toDigits base n) : ∃ d < base, c = d.digitChar := by
  induction n using Nat.strongRecOn with
  | _ n ih =>
    rw [Nat.toDigits_eq_if h1] at hc
    split at hc
    · rename_i hlt
      exact ⟨n, hlt, List.mem_singleton.mp hc⟩
    · rename_i hge
      rcases List.mem_append.mp hc with hc | hc
      · exact ih (n / base) (Nat.div_lt_self (by omega) h1) hc
      · exact ⟨n % base, Nat.mod_lt n (by omega), List.mem_singleton.mp hc⟩

/-- The digits of a written number are digits of its base. -/
theorem isDigitIn_toDigits {base : Nat} (h1 : 1 < base) (h16 : base ≤ 16) (n : Nat) :
    ∀ c ∈ Nat.toDigits base n, isDigitIn base c = true := by
  intro c hc
  obtain ⟨d, hd, rfl⟩ := exists_digit_of_mem_toDigits h1 n hc
  exact (digit_of_digitChar hd h16).1

/-- **Written digits spell their number.** -/
theorem digitsValue_toDigits {base : Nat} (h1 : 1 < base) (h16 : base ≤ 16) (n : Nat) :
    digitsValue base (Nat.toDigits base n) = n := by
  induction n using Nat.strongRecOn with
  | _ n ih =>
    rw [Nat.toDigits_eq_if h1]
    split
    · rename_i hlt
      show 0 * base + (digitValue n.digitChar).getD 0 = n
      rw [(digit_of_digitChar hlt h16).2, Nat.zero_mul, Nat.zero_add]
    · rw [digitsValue, List.foldl_append]
      show digitsValue base (Nat.toDigits base (n / base)) * base
        + (digitValue (n % base).digitChar).getD 0 = n
      rw [ih (n / base) (Nat.div_lt_self (by omega) h1),
        (digit_of_digitChar (Nat.mod_lt n (by omega)) h16).2]
      exact Nat.div_add_mod' n base

/-- Only zero is written with a zero in front. -/
theorem toDigits_zero_head {n : Nat} (h : (Nat.toDigits 10 n).head? = some '0') : n = 0 := by
  induction n using Nat.strongRecOn with
  | _ n ih =>
    rw [Nat.toDigits_eq_if (by decide)] at h
    split at h
    · rename_i hlt
      have hall : ∀ d < 10, [Nat.digitChar d].head? = some '0' → d = 0 := by decide
      exact hall n hlt h
    · rename_i hge
      rw [List.head?_append_of_ne_nil _ Nat.toDigits_ne_nil] at h
      have := ih (n / 10) (by omega) h
      omega

/-- Zeros in front change no value. -/
theorem digitsValue_zeros (base k : Nat) (digits : Text) :
    digitsValue base (List.replicate k '0' ++ digits) = digitsValue base digits := by
  have hzeros : digitsValue base (List.replicate k '0') = 0 := by
    induction k with
    | zero => rfl
    | succ k ih =>
      rw [List.replicate_succ', digitsValue, List.foldl_append]
      show digitsValue base (List.replicate k '0') * base + 0 = 0
      rw [ih, Nat.zero_mul]
  rw [digitsValue, List.foldl_append]
  show digits.foldl _ (digitsValue base (List.replicate k '0')) = _
  rw [hzeros]
  rfl

/-- **A number written in decimal** is one of base 0. -/
theorem isNumber_decimal (n : Nat) : IsNumber (Nat.toDigits 10 n) n := by
  by_cases hzero : (Nat.toDigits 10 n).head? = some '0'
  · rw [toDigits_zero_head hzero]
    exact .octal [] (by simp)
  · have h := IsNumber.decimal (Nat.toDigits 10 n) Nat.toDigits_ne_nil hzero
      (isDigitIn_toDigits (by decide) (by decide) n)
    rw [digitsValue_toDigits (by decide) (by decide)] at h
    exact h

/-- **A number written in hexadecimal** with its prefix, zeros in front or not. -/
theorem isNumber_hexadecimal (k n : Nat) :
    IsNumber ('0' :: 'x' :: (List.replicate k '0' ++ Nat.toDigits 16 n)) n := by
  have h := IsNumber.hexadecimal 'x' (List.replicate k '0' ++ Nat.toDigits 16 n) (.inl rfl)
    (List.append_ne_nil_of_right_ne_nil _ Nat.toDigits_ne_nil) (by
      intro c hc
      rcases List.mem_append.mp hc with hc | hc
      · rw [List.eq_of_mem_replicate hc]
        rfl
      · exact isDigitIn_toDigits (by decide) (by decide) n c hc)
  rw [digitsValue_zeros, digitsValue_toDigits (by decide) (by decide)] at h
  exact h

/-! ### Hexadecimal with zeros in front. -/

/-- `%0{width}x`. -/
def hexPadded (width n : Nat) : Text :=
  List.replicate (width - (Nat.toDigits 16 n).length) '0' ++ Nat.toDigits 16 n

theorem exists_digit_of_mem_hexPadded {width n : Nat} {c : Char} (hc : c ∈ hexPadded width n) :
    ∃ d < 16, c = Nat.digitChar d := by
  rcases List.mem_append.mp hc with hc | hc
  · exact ⟨0, by decide, List.eq_of_mem_replicate hc⟩
  · exact exists_digit_of_mem_toDigits (by decide) n hc

theorem hexPadded_length {width n : Nat} (hwidth : 0 < width) (h : n < 16 ^ width) :
    (hexPadded width n).length = width := by
  have hle : (Nat.toDigits 16 n).length ≤ width :=
    (Nat.length_toDigits_le_iff (by decide) hwidth).mpr h
  rw [hexPadded, List.length_append, List.length_replicate]
  omega

theorem digitsValue_hexPadded (width n : Nat) : digitsValue 16 (hexPadded width n) = n := by
  rw [hexPadded, digitsValue_zeros, digitsValue_toDigits (by decide) (by decide)]

theorem isDigitIn_hexPadded {width n : Nat} : ∀ c ∈ hexPadded width n, isDigitIn 16 c = true := by
  intro c hc
  obtain ⟨d, hd, rfl⟩ := exists_digit_of_mem_hexPadded hc
  exact (digit_of_digitChar hd (by decide)).1

end KFsw.Lib
