/-
  KFsw.App.HkClass — `kfsw_app_hk_parse_class` of `app/src/hk_entries.c` with the
  memory its callers give it, and the class prefix it accepts.

  `parseClassTo` writes through pointers: what it leaves in `*retrieval_class` and
  in `*text` is part of its result.

  `strtoul` takes white space and a sign before the digits, and this parser, unlike
  that of the entries, hands it the text behind the `=` unchecked.

  Main results:
    * `parseClassTo_number`  — a number directly behind the `=`;
    * `parseClassTo_lead`    — the same with white space or a sign before it;
    * `parseClassTo_other`   — everything else is refused;
    * `classExact_iff`       — the prefix is parsed exactly, lead apart.
-/
import KFsw.App.HkGrammar

namespace KFsw.App

open KFsw.Lib

variable (cfg : HkConfig)

/-! ## §1. The parser and its caller's memory. -/

/-- What a call leaves: the status, `*retrieval_class` and `*text`. -/
structure ClassOut where
  status : Int
  retrievalClass : Nat
  text : Text
  deriving DecidableEq

/-- `kfsw_app_hk_parse_class`. -/
def parseClassTo (text : Text) : ClassOut :=
  if CLASS_PREFIX.isPrefixOf text = false then
    ⟨0, KFSW_HK_CLASS_DEFAULT, text⟩
  else
    let value := text.drop 6
    let number := strtoul cfg.ulongMax value
    if number.rest = value ∨ (number.rest.head? ≠ some ' ' ∧ number.rest ≠ []) then
      ⟨-EINVAL, KFSW_HK_CLASS_DEFAULT, text⟩
    else if number.value > KFSW_HK_CLASS_MAX then
      ⟨-ERANGE, KFSW_HK_CLASS_DEFAULT, text⟩
    else
      -- `(uint8_t)value`
      ⟨0, number.value % (UINT8_MAX + 1), number.rest.dropWhile (· = ' ')⟩

/-- **The parser and its memory**: the class and the cursor are those of `parseClass`, and a
refusal leaves the default class and the text. -/
theorem parseClassTo_eq (text : Text) :
    parseClassTo cfg text = match parseClass cfg text with
      | .ok (retrievalClass, rest) => ⟨0, retrievalClass, rest⟩
      | .error e => ⟨e, KFSW_HK_CLASS_DEFAULT, text⟩ := by
  unfold parseClassTo parseClass
  split
  · rfl
  · dsimp only
    split
    · rfl
    · split
      · rfl
      · rename_i hmax
        have hsmall : (strtoul cfg.ulongMax (text.drop 6)).value ≤ 7 := Nat.not_lt.mp hmax
        have hfits : (strtoul cfg.ulongMax (text.drop 6)).value % (UINT8_MAX + 1)
            = (strtoul cfg.ulongMax (text.drop 6)).value :=
          Nat.mod_eq_of_lt (Nat.lt_of_le_of_lt hsmall (by decide))
        rw [hfits]

/-! ## §2. The prefix. -/

/-- What may follow the number: the end of the text, or a space. -/
def AtEnd (rest : Text) : Prop := rest = [] ∨ rest.head? = some ' '

theorem AtEnd.isStop {rest : Text} (h : AtEnd rest) : IsStop rest := by
  intro c hc
  rcases h with rfl | h
  · exact absurd hc (by simp)
  · rw [h] at hc
    rw [← Option.some.inj hc]
    rfl

/-- A number stands directly behind `class=` and ends at a space or with the text. -/
def IsClass (text : Text) (value : Nat) (rest : Text) : Prop :=
  ∃ number, text = CLASS_PREFIX ++ (number ++ rest) ∧ IsNumber number value ∧ AtEnd rest

/-- **The class prefix is parsed exactly**: without it the class is the default one; a number of
at most 7 behind it is the class, and the text moves past the number and its spaces; a larger
number is out of range and everything else invalid, and the text stays. -/
structure ClassExact (text : Text) (r : ClassOut) : Prop where
  absent : ¬ CLASS_PREFIX <+: text → r = ⟨0, 4, text⟩
  succeeds : CLASS_PREFIX <+: text → (r.status = 0 ↔ ∃ value rest, IsClass text value rest ∧ value ≤ 7)
  accepted : ∀ value rest, IsClass text value rest → value ≤ 7 →
    r = ⟨0, value, rest.dropWhile (· = ' ')⟩
  above : ∀ value rest, IsClass text value rest → 7 < value → r.status = -ERANGE ∧ r.text = text
  otherwise : CLASS_PREFIX <+: text → (∀ value rest, ¬ IsClass text value rest) →
    r.status = -EINVAL ∧ r.text = text

/-- White space or a sign stands between `class=` and a number that ends at a space or with the
text. -/
def LeadBeforeClass (text : Text) : Prop :=
  ∃ lead number value rest, text = CLASS_PREFIX ++ (lead ++ (number ++ rest)) ∧ lead ≠ []
    ∧ IsLead lead ∧ IsNumber number value ∧ AtEnd rest

/-! ## §3. What the parser does with each text. -/

/-- Behind the prefix, the parser looks at the rest of the text. -/
theorem parseClassTo_classed (body : Text) :
    parseClassTo cfg (CLASS_PREFIX ++ body)
      = let number := strtoul cfg.ulongMax body
        if number.rest = body ∨ (number.rest.head? ≠ some ' ' ∧ number.rest ≠ []) then
          ⟨-EINVAL, KFSW_HK_CLASS_DEFAULT, CLASS_PREFIX ++ body⟩
        else if number.value > KFSW_HK_CLASS_MAX then
          ⟨-ERANGE, KFSW_HK_CLASS_DEFAULT, CLASS_PREFIX ++ body⟩
        else
          ⟨0, number.value % (UINT8_MAX + 1), number.rest.dropWhile (· = ' ')⟩ := by
  have hmark : CLASS_PREFIX.isPrefixOf (CLASS_PREFIX ++ body) = true :=
    List.isPrefixOf_iff_prefix.mpr (List.prefix_append _ _)
  have hdrop : (CLASS_PREFIX ++ body).drop 6 = body := rfl
  unfold parseClassTo
  rw [hmark, hdrop, if_neg (by decide)]

/-- The check of the cursor passes exactly at an end that was moved to. -/
theorem atEnd_iff (body rest : Text) :
    ¬ (rest = body ∨ (rest.head? ≠ some ' ' ∧ rest ≠ [])) ↔ AtEnd rest ∧ rest ≠ body := by
  rw [not_or, not_and_or, not_not, not_not, and_comm, AtEnd, or_comm]

/-- **A number directly behind the prefix.** -/
theorem parseClassTo_number (hulong : UINT16_MAX ≤ cfg.ulongMax) {text : Text} {value : Nat}
    {rest : Text} (h : IsClass text value rest) :
    parseClassTo cfg text
      = if value ≤ 7 then ⟨0, value, rest.dropWhile (· = ' ')⟩ else ⟨-ERANGE, 4, text⟩ := by
  obtain ⟨number, rfl, hnumber, hrest⟩ := h
  have htaken := (strtoul_takes_iff cfg.ulongMax hrest.isStop).mpr
    ⟨[], number, value, rfl, ⟨[], [], rfl, by simp, .inl rfl⟩, hnumber⟩
  have hread := strtoul_number cfg.ulongMax hnumber hrest.isStop
  have hbound : 7 < cfg.ulongMax := Nat.lt_of_lt_of_le (by decide) hulong
  rw [parseClassTo_classed]
  dsimp only
  rw [List.nil_append] at htaken
  rw [htaken.1, if_neg ((atEnd_iff _ _).mpr ⟨hrest, htaken.2⟩), hread]
  by_cases hsmall : value ≤ 7
  · have hfits : value % (UINT8_MAX + 1) = value :=
      Nat.mod_eq_of_lt (Nat.lt_of_le_of_lt hsmall (by decide))
    have hmax : ¬ value > KFSW_HK_CLASS_MAX := Nat.not_lt.mpr hsmall
    rw [if_neg (Nat.not_lt.mpr (hsmall.trans hbound.le)), if_pos hsmall, if_neg hmax, hfits]
  · rw [if_neg hsmall, if_pos]
    · rfl
    · -- also when the value was cut to `ULONG_MAX`
      split
      · exact hbound
      · exact Nat.not_le.mp hsmall

/-- **A lead before the number**: the parser does not refuse it as invalid. -/
theorem parseClassTo_lead {text : Text} (h : LeadBeforeClass text) :
    (parseClassTo cfg text).status ≠ -EINVAL := by
  obtain ⟨lead, number, value, rest, rfl, _, hlead, hnumber, hrest⟩ := h
  have htaken := (strtoul_takes_iff cfg.ulongMax hrest.isStop).mpr
    ⟨lead, number, value, rfl, hlead, hnumber⟩
  rw [parseClassTo_classed]
  dsimp only
  rw [htaken.1, if_neg ((atEnd_iff _ _).mpr ⟨hrest, htaken.2⟩)]
  split
  · exact show (-ERANGE : Int) ≠ -EINVAL by decide
  · exact show (0 : Int) ≠ -EINVAL by decide

/-- **Neither a number nor a lead and a number**: the text is refused. -/
theorem parseClassTo_other {text : Text} (hmark : CLASS_PREFIX <+: text)
    (hnumber : ∀ value rest, ¬ IsClass text value rest) (hlead : ¬ LeadBeforeClass text) :
    parseClassTo cfg text = ⟨-EINVAL, 4, text⟩ := by
  obtain ⟨body, rfl⟩ := hmark
  rw [parseClassTo_classed]
  dsimp only
  rw [if_pos]
  · rfl
  · by_contra hcheck
    obtain ⟨hrest, hmoved⟩ := (atEnd_iff _ _).mp hcheck
    obtain ⟨lead, number, value, hbody, hisLead, hisNumber⟩ :=
      (strtoul_takes_iff cfg.ulongMax hrest.isStop).mp ⟨rfl, hmoved⟩
    cases lead with
    | nil => exact hnumber value _ ⟨number, congrArg (CLASS_PREFIX ++ ·) hbody, hisNumber, hrest⟩
    | cons c lead =>
      exact hlead ⟨c :: lead, number, value, _, by rw [← hbody], List.cons_ne_nil c lead, hisLead,
        hisNumber, hrest⟩

/-- White space and signs are no digits, so a number behind the prefix has no lead. -/
theorem LeadBeforeClass.not_isClass {text : Text} (h : LeadBeforeClass text) (value : Nat)
    (rest : Text) : ¬ IsClass text value rest := by
  rintro ⟨number', htext, hnumber', -⟩
  obtain ⟨lead, number, value', rest', rfl, hne, ⟨spaces, sign, rfl, hspaces, hsign⟩, -, -⟩ := h
  have hdigit := digit_append hnumber'.head rest
  rw [← List.append_cancel_left htext] at hdigit
  cases spaces with
  | nil =>
    rcases hsign with rfl | rfl | rfl
    · exact hne rfl
    · exact absurd hdigit (show ¬ isdigit '-' = true by decide)
    · exact absurd hdigit (show ¬ isdigit '+' = true by decide)
  | cons c spaces =>
    have hspace := hspaces c List.mem_cons_self
    rw [isspace_of_isdigit hdigit] at hspace
    exact absurd hspace (by decide)

/-! ## §4. When the prefix is parsed exactly. -/

/-- **The class prefix is parsed exactly**, for every text but those with white space or a sign
between `class=` and the number; and `parseClass` is the parser its callers use. -/
theorem classExact_iff (hulong : UINT16_MAX ≤ cfg.ulongMax) (text : Text) :
    (ClassExact text (parseClassTo cfg text) ↔ ¬ LeadBeforeClass text)
      ∧ parseClassTo cfg text = match parseClass cfg text with
        | .ok (retrievalClass, rest) => ⟨0, retrievalClass, rest⟩
        | .error e => ⟨e, KFSW_HK_CLASS_DEFAULT, text⟩ := by
  refine ⟨?_, parseClassTo_eq cfg text⟩
  constructor
  · intro h hlead
    have hmark : CLASS_PREFIX <+: text := by
      obtain ⟨_, _, _, _, rfl, _⟩ := hlead
      exact List.prefix_append _ _
    exact parseClassTo_lead cfg hlead (h.otherwise hmark hlead.not_isClass).1
  · intro hlead
    have hother : CLASS_PREFIX <+: text → (∀ value rest, ¬ IsClass text value rest) →
        parseClassTo cfg text = ⟨-EINVAL, 4, text⟩ :=
      fun hmark hnumber => parseClassTo_other cfg hmark hnumber hlead
    refine ⟨?_, ?_, ?_, ?_, ?_⟩
    · intro hmark
      unfold parseClassTo
      rw [if_pos (by rw [Bool.eq_false_iff, ne_eq, List.isPrefixOf_iff_prefix]; exact hmark)]
      rfl
    · intro hmark
      by_cases hclass : ∃ value rest, IsClass text value rest
      · obtain ⟨value, rest, hclass⟩ := hclass
        have hread := parseClassTo_number cfg hulong hclass
        constructor
        · intro hstatus
          refine ⟨value, rest, hclass, ?_⟩
          by_contra hlarge
          rw [hread, if_neg hlarge] at hstatus
          exact absurd hstatus (show (-ERANGE : Int) ≠ 0 by decide)
        · rintro ⟨value', rest', hclass', hsmall⟩
          rw [parseClassTo_number cfg hulong hclass', if_pos hsmall]
      · have hnone : ∀ value rest, ¬ IsClass text value rest :=
          fun value rest h => hclass ⟨value, rest, h⟩
        rw [hother hmark hnone]
        refine iff_of_false (show (-EINVAL : Int) ≠ 0 by decide) ?_
        rintro ⟨value, rest, h, _⟩
        exact hnone value rest h
    · intro value rest hclass hsmall
      rw [parseClassTo_number cfg hulong hclass, if_pos hsmall]
    · intro value rest hclass hlarge
      rw [parseClassTo_number cfg hulong hclass, if_neg (Nat.not_le.mpr hlarge)]
      exact ⟨rfl, rfl⟩
    · intro hmark hnone
      rw [hother hmark hnone]
      exact ⟨rfl, rfl⟩

/-- A number and no lead. -/
theorem classExact_iff_three :
    ClassExact "class=0x3  1:2".toList (parseClassTo exampleBuild "class=0x3  1:2".toList) := by
  refine (classExact_iff exampleBuild (by decide) "class=0x3  1:2".toList).1.mpr fun hlead => ?_
  exact hlead.not_isClass 3 "  1:2".toList
    ⟨"0x3".toList, by decide +kernel,
      .hexadecimal 'x' ['3'] (.inl rfl) (List.cons_ne_nil _ _) (List.forall_mem_singleton.mpr (by decide)),
      .inr rfl⟩

/-- Class 3 is taken where a space stands before the number: `class= 3`. -/
theorem classExact_space :
    ¬ ClassExact "class= 3".toList (parseClassTo exampleBuild "class= 3".toList) := by
  intro h
  have hmark : CLASS_PREFIX <+: "class= 3".toList := ⟨" 3".toList, by decide +kernel⟩
  have htaken : (parseClassTo exampleBuild "class= 3".toList).status = 0 := by decide +kernel
  obtain ⟨value, rest, ⟨number, htext, hnumber, -⟩, -⟩ := (h.succeeds hmark).mp htaken
  have hbody : " 3".toList = number ++ rest := by
    refine (List.append_cancel_left : CLASS_PREFIX ++ _ = CLASS_PREFIX ++ _ → _) ?_
    rw [← htext]
    decide +kernel
  have hdigit := digit_append hnumber.head rest
  rw [← hbody] at hdigit
  exact absurd hdigit (by decide +kernel)

end KFsw.App
