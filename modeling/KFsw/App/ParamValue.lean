/-
  KFsw.App.ParamValue — `format_param_value`, `app/src/shell/shell_param.c`: the
  text of a parameter's value.

  Every listing of parameters prints values through it, into a buffer made for
  the longest string.  Arrays are printed as a list, element by element, while
  five more characters are sure to fit.

  Main results:
    * `dataLoop_spec`     — the elements that are written, and where they stop;
    * `fitting_eq_iff`    — all of them are exactly when the ones before the last
      leave room;
    * `listText_injective` — a complete list tells its bytes;
    * `formatParamValue_faithful_iff` — the texts of two values are faithful
      exactly when both are written whole.
-/
import KFsw.Lib.CMemory
import KFsw.Lib.CNumber
import KFsw.Lib.PyText

namespace KFsw.App

open KFsw.Lib

/-! ## §1. Values and their text. -/

/-- `struct kfsw_param_value`, by its type; a string is what stands before its NUL, and DATA are
the first `size` bytes. -/
inductive ParamValue where
  | u8 (value : UInt8)
  | u16 (value : UInt16)
  | u32 (value : UInt32)
  | u64 (value : UInt64)
  | i8 (value : Int8)
  | i16 (value : Int16)
  | i32 (value : Int32)
  | i64 (value : Int64)
  | x8 (value : UInt8)
  | x16 (value : UInt16)
  | x32 (value : UInt32)
  | x64 (value : UInt64)
  | float (value : Float32)
  | double (value : Float)
  | string (text : Text)
  | data (bytes : Bytes)
  | invalid

/-- What a build fixes of values. -/
structure ValueConfig where
  /-- `KFSW_PARAM_STRING_MAX`. -/
  stringMax : Nat
  /-- `CONFIG_KFSW_PARAM_FLOAT`. -/
  paramFloat : Bool
  /-- `%.{precision}g`. -/
  formatG : Nat → Float → Text

/-- `KFSW_PARAM_VALUE_TEXT_SIZE`. -/
def ValueConfig.textSize (cfg : ValueConfig) : Nat := cfg.stringMax + 3

/-- `"%s%u"` of an element: a bracket or a comma, and the byte in decimal. -/
def element (index : Nat) (b : UInt8) : Text :=
  (if index = 0 then '[' else ',') :: Nat.toDigits 10 b.toNat

section Format

variable {size : Nat}

/-- `snprintf(text, size, ...)`. -/
def printText (text : CArray size) (s : Text) : Option (CArray size) :=
  (text.snprintf 0 s).map Prod.fst

/-- The loop over the bytes from `index` on. -/
def dataLoop (text : CArray size) (used index : Nat) : Bytes → Option (CArray size × Nat)
  | [] => some (text, used)
  | b :: rest =>
    if used + 5 < size then
      (text.snprintf used (element index b)).bind fun written =>
        dataLoop written.1 (used + written.2.toNat) (index + 1) rest
    else some (text, used)

/-- `format_param_value`. -/
def formatParamValue (cfg : ValueConfig) (text : CArray size) : ParamValue → Option (CArray size)
  | .u8 value => printText text (Nat.toDigits 10 value.toNat)
  | .u16 value => printText text (Nat.toDigits 10 value.toNat)
  | .u32 value => printText text (Nat.toDigits 10 value.toNat)
  | .u64 value => printText text (Nat.toDigits 10 value.toNat)
  | .i8 value => printText text (intText value.toInt)
  | .i16 value => printText text (intText value.toInt)
  | .i32 value => printText text (intText value.toInt)
  | .i64 value => printText text (intText value.toInt)
  | .x8 value => printText text ('0' :: 'x' :: hexPadded 2 value.toNat)
  | .x16 value => printText text ('0' :: 'x' :: hexPadded 4 value.toNat)
  | .x32 value => printText text ('0' :: 'x' :: hexPadded 8 value.toNat)
  | .x64 value => printText text ('0' :: 'x' :: hexPadded 16 value.toNat)
  | .float value =>
    printText text (if cfg.paramFloat then cfg.formatG 6 value.toFloat else "<unsupported>".toList)
  | .double value =>
    printText text (if cfg.paramFloat then cfg.formatG 12 value else "<unsupported>".toList)
  | .string s => printText text ('"' :: (s ++ ['"']))
  | .data bytes =>
    (dataLoop text 0 0 bytes).bind fun written =>
      (written.1.snprintf written.2 [']']).map Prod.fst
  | .invalid => printText text "<unsupported>".toList

end Format

/-! ## §2. The loop over the bytes. -/

/-- The elements of some bytes, the first at `index`. -/
def elements (index : Nat) : Bytes → Text
  | [] => []
  | b :: rest => element index b ++ elements (index + 1) rest

/-- The width of an element. -/
def width (b : UInt8) : Nat := (Nat.toDigits 10 b.toNat).length + 1

/-- The width of some elements. -/
def totalWidth (bytes : Bytes) : Nat := (bytes.map width).sum

/-- The bytes the loop writes, behind `used` characters. -/
def fitting (size used : Nat) : Bytes → Bytes
  | [] => []
  | b :: rest => if used + 5 < size then b :: fitting size (used + width b) rest else []

theorem fitting_cons (size used : Nat) (b : UInt8) (rest : Bytes) :
    fitting size used (b :: rest)
      = if used + 5 < size then b :: fitting size (used + width b) rest else [] := rfl

theorem element_length (index : Nat) (b : UInt8) : (element index b).length = width b := rfl

/-- An element has four characters at most. -/
theorem width_le (b : UInt8) : width b ≤ 4 := by
  have hdigits : (Nat.toDigits 10 b.toNat).length ≤ 3 :=
    (Nat.length_toDigits_le_iff (by decide) (by decide)).mpr (by
      have := b.toNat_lt
      omega)
  unfold width
  omega

theorem elements_length (index : Nat) (bytes : Bytes) :
    (elements index bytes).length = totalWidth bytes := by
  induction bytes generalizing index with
  | nil => rfl
  | cons b rest ih =>
    show (element index b ++ elements (index + 1) rest).length = width b + totalWidth rest
    rw [List.length_append, element_length, ih]

/-- Where the loop stops, nothing is written behind the text in front. -/
theorem dataLoop_stop {size : Nat} {text : CArray size} (index : Nat) {t : Text}
    (ht : t <+: text.cells) (hroom : t.length + 1 < size) :
    ∃ b, some (text, t.length) = some (b, (t ++ elements index []).length)
      ∧ t ++ elements index [] <+: b.cells ∧ (t ++ elements index []).length + 1 < size := by
  rw [show t ++ elements index [] = t from List.append_nil t]
  exact ⟨text, rfl, ht, hroom⟩

/-- **The elements that are written**: those that fit, behind the text in front. -/
theorem dataLoop_spec {size : Nat} (bytes : Bytes) (index : Nat) (text : CArray size) {t : Text}
    (ht : t <+: text.cells) (hroom : t.length + 1 < size) :
    ∃ b, dataLoop text t.length index bytes
        = some (b, (t ++ elements index (fitting size t.length bytes)).length)
      ∧ t ++ elements index (fitting size t.length bytes) <+: b.cells
      ∧ (t ++ elements index (fitting size t.length bytes)).length + 1 < size := by
  -- on the bytes, with the text written so far in front
  induction bytes generalizing index text t with
  | nil => exact dataLoop_stop index ht hroom
  | cons b rest ih =>
    rw [fitting_cons]
    unfold dataLoop
    by_cases hfits : t.length + 5 < size
    · rw [if_pos hfits, if_pos hfits]
      have hwidth := width_le b
      have helement := element_length index b
      obtain ⟨c, hc, hholds⟩ := text.snprintf_whole ht (s := element index b) (by omega)
      have hlength : (t ++ element index b).length = t.length + width b := by
        rw [List.length_append, helement]
      have hresult : (CArray.snprintfResult (element index b)).toNat = width b := by
        rw [CArray.snprintfResult_of_le (by unfold INT_MAX; omega), helement]
        exact Int.toNat_natCast _
      obtain ⟨e, he, hcells, hend⟩ := ih (index + 1) c hholds.isPrefix (by omega)
      have htext : t ++ elements index (b :: fitting size (t.length + width b) rest)
          = t ++ element index b ++ elements (index + 1) (fitting size (t ++ element index b).length rest) := by
        rw [List.append_assoc, hlength]
        rfl
      rw [htext, hc]
      refine ⟨e, ?_, hcells, hend⟩
      rw [← he, hlength]
      show dataLoop c (t.length + (CArray.snprintfResult (element index b)).toNat) (index + 1) rest = _
      rw [hresult]
    · rw [if_neg hfits, if_neg hfits]
      exact dataLoop_stop index ht hroom

theorem fitting_isPrefix (size used : Nat) (bytes : Bytes) : fitting size used bytes <+: bytes := by
  induction bytes generalizing used with
  | nil => exact List.prefix_rfl
  | cons b rest ih =>
    rw [fitting_cons]
    split
    · exact List.cons_prefix_cons.mpr ⟨rfl, ih _⟩
    · exact List.nil_prefix

/-- **All bytes are written** exactly when the ones before the last leave room for it. -/
theorem fitting_eq_iff (size used : Nat) (bytes : Bytes) :
    fitting size used bytes = bytes ↔ bytes = [] ∨ used + totalWidth bytes.dropLast + 5 < size := by
  induction bytes generalizing used with
  | nil => exact iff_of_true rfl (.inl rfl)
  | cons b rest ih =>
    have hrest : fitting size used (b :: rest) = b :: rest
        ↔ used + 5 < size ∧ fitting size (used + width b) rest = rest := by
      rw [fitting_cons]
      split
      · rename_i hfits
        rw [List.cons.injEq]
        exact ⟨fun h => ⟨hfits, h.2⟩, fun h => ⟨rfl, h.2⟩⟩
      · rename_i hfull
        exact iff_of_false (by simp) fun h => hfull h.1
    rw [hrest, ih]
    cases rest with
    | nil =>
      show (used + 5 < size ∧ ([] = [] ∨ _)) ↔ _ ∨ used + 0 + 5 < size
      simp
    | cons c rest =>
      have hwidth : totalWidth (b :: c :: rest).dropLast = width b + totalWidth (c :: rest).dropLast := rfl
      rw [hwidth]
      constructor
      · rintro ⟨_, h | h⟩
        · exact absurd h (by simp)
        · exact .inr (by omega)
      · rintro (h | h)
        · exact absurd h (by simp)
        · exact ⟨by omega, .inr (by omega)⟩

/-! ## §3. Faithful texts. -/

/-- The bytes in decimal, between commas. -/
def commaText (bytes : Bytes) : Text :=
  [','].intercalate (bytes.map fun b => Nat.toDigits 10 b.toNat)

/-- `[b0,b1,...]`, with every byte in decimal. -/
def listText (bytes : Bytes) : Text := '[' :: (commaText bytes ++ [']'])

/-- The text a value should leave. -/
def exactText : ParamValue → Text
  | .string s => '"' :: (s ++ ['"'])
  | .data bytes => listText bytes
  | _ => []

/-- What lists are written with. -/
def ListChar (c : Char) : Prop := isdigit c = true ∨ c = '[' ∨ c = ',' ∨ c = ']'

/-- A text of a list that shows that it is not all of it: it does not end the list, or holds what
no list is written with. -/
def MarkedIncomplete : ParamValue → Text → Prop
  | .data _, text => text.getLast? ≠ some ']' ∨ ∃ c ∈ text, ¬ ListChar c
  | _, _ => False

/-- Strings that the type holds, and DATA of any size. -/
inductive Shown (cfg : ValueConfig) : ParamValue → Prop
  | string (s : Text) (hlength : s.length ≤ cfg.stringMax) (hnul : NUL ∉ s) : Shown cfg (.string s)
  | data (bytes : Bytes) : Shown cfg (.data bytes)

/-- The texts of two values are faithful: no write goes outside the buffer, each text is exact or
marked, and they are the same only for the same values. -/
structure Faithful (cfg : ValueConfig) (v w : ParamValue) : Prop where
  inside : ∀ text : CArray cfg.textSize,
    (formatParamValue cfg text v).isSome ∧ (formatParamValue cfg text w).isSome
  exact_left : ∀ text b : CArray cfg.textSize, formatParamValue cfg text v = some b →
    b.text = exactText v ∨ MarkedIncomplete v b.text
  exact_right : ∀ text b : CArray cfg.textSize, formatParamValue cfg text w = some b →
    b.text = exactText w ∨ MarkedIncomplete w b.text
  distinct : ∀ text text' b c : CArray cfg.textSize, formatParamValue cfg text v = some b →
    formatParamValue cfg text' w = some c → b.text = c.text → v = w ∨ MarkedIncomplete v b.text

/-- A string, or DATA that are not empty and whose elements before the last leave room for one
more. -/
def Whole (cfg : ValueConfig) : ParamValue → Prop
  | .data bytes => bytes ≠ [] ∧ totalWidth bytes.dropLast + 2 < cfg.stringMax
  | _ => True

theorem commaText_singleton (b : UInt8) : commaText [b] = Nat.toDigits 10 b.toNat :=
  List.intercalate_singleton

theorem commaText_cons (b c : UInt8) (rest : Bytes) :
    commaText (b :: c :: rest) = Nat.toDigits 10 b.toNat ++ ',' :: commaText (c :: rest) := by
  show [','].intercalate (_ :: _ :: _) = _
  rw [List.intercalate_cons_cons, List.append_assoc]
  rfl

/-- Elements from 1 on are the bytes behind commas. -/
theorem elements_succ (index : Nat) (b : UInt8) (rest : Bytes) :
    elements (index + 1) (b :: rest) = ',' :: commaText (b :: rest) := by
  induction rest generalizing index b with
  | nil =>
    show ',' :: (Nat.toDigits 10 b.toNat ++ []) = _
    rw [List.append_nil, commaText_singleton]
  | cons c rest ih =>
    show ',' :: (Nat.toDigits 10 b.toNat ++ elements (index + 1 + 1) (c :: rest)) = _
    rw [ih, commaText_cons]

/-- Bytes that are all written, with the bracket, are the list. -/
theorem elements_whole {bytes : Bytes} (h : bytes ≠ []) :
    elements 0 bytes ++ [']'] = listText bytes := by
  obtain ⟨b, rest, rfl⟩ := List.exists_cons_of_ne_nil h
  cases rest with
  | nil =>
    show ('[' :: (Nat.toDigits 10 b.toNat ++ [])) ++ [']'] = _
    rw [List.append_nil, listText, commaText_singleton]
    rfl
  | cons c rest =>
    show ('[' :: (Nat.toDigits 10 b.toNat ++ elements 1 (c :: rest))) ++ [']'] = _
    rw [elements_succ, listText, commaText_cons]
    rfl

theorem toDigits_injective {m n : Nat} (h : Nat.toDigits 10 m = Nat.toDigits 10 n) : m = n := by
  rw [← digitsValue_toDigits (show 1 < 10 by decide) (by decide) m, h,
    digitsValue_toDigits (by decide) (by decide)]

theorem notMem_toDigits {c : Char} (hc : digitValue c = none) (n : Nat) : c ∉ Nat.toDigits 10 n := by
  intro h
  have hdigit := isDigitIn_toDigits (by decide) (by decide) n c h
  rw [isDigitIn_stop hc] at hdigit
  exact absurd hdigit (by decide)

/-- **A complete list tells its bytes.** -/
theorem listText_injective {a b : Bytes} (h : listText a = listText b) : a = b := by
  have hcomma : commaText a = commaText b := List.append_cancel_right (List.cons.inj h).2
  have hsplit : ∀ bytes : Bytes, bytes ≠ [] →
      (commaText bytes).splitOn ',' = bytes.map fun b => Nat.toDigits 10 b.toNat := by
    intro bytes hne
    refine List.splitOn_intercalate ',' ?_ (by rwa [ne_eq, List.map_eq_nil_iff])
    intro digits hdigits
    obtain ⟨b, _, rfl⟩ := List.mem_map.mp hdigits
    exact notMem_toDigits (by decide) b.toNat
  have hne : ∀ bytes : Bytes, commaText bytes = [] ↔ bytes = [] := by
    intro bytes
    constructor
    · intro hnil
      cases bytes with
      | nil => rfl
      | cons b rest =>
        have hpos := Nat.toDigits_ne_nil (n := b.toNat) (b := 10)
        cases rest with
        | nil => exact absurd ((commaText_singleton b).symm.trans hnil) hpos
        | cons c rest =>
          rw [commaText_cons] at hnil
          exact absurd (List.append_eq_nil_iff.mp hnil).1 hpos
    · rintro rfl
      rfl
  by_cases ha : a = []
  · have hb : b = [] := (hne b).mp (hcomma ▸ (hne a).mpr ha)
    rw [ha, hb]
  · have hb : b ≠ [] := fun hnil => ha ((hne a).mp (hcomma.trans ((hne b).mpr hnil)))
    have hmap := (hsplit a ha).symm.trans ((congrArg _ hcomma).trans (hsplit b hb))
    refine List.map_injective_iff.mpr ?_ hmap
    intro x y hxy
    exact UInt8.toNat_inj.mp (toDigits_injective hxy)

/-! ## §4. What a value leaves. -/

/-- What a list leaves in the buffer: the elements that fit, and the bracket. -/
def leftText (cfg : ValueConfig) : ParamValue → Text
  | .data bytes => elements 0 (fitting cfg.textSize 0 bytes) ++ [']']
  | v => exactText v

theorem nul_notMem_elements (index : Nat) (bytes : Bytes) : NUL ∉ elements index bytes := by
  induction bytes generalizing index with
  | nil => exact List.not_mem_nil
  | cons b rest ih =>
    intro h
    rcases List.mem_append.mp h with h | h
    · rcases List.mem_cons.mp h with h | h
      · split at h
        · exact absurd h (by decide)
        · exact absurd h (by decide)
      · exact notMem_toDigits (by decide) b.toNat h
    · exact ih _ h

/-- **What a value leaves**, whatever the buffer held; and no write goes outside of it. -/
theorem formatParamValue_left (cfg : ValueConfig) {v : ParamValue} (hv : Shown cfg v)
    (text : CArray cfg.textSize) :
    ∃ b, formatParamValue cfg text v = some b ∧ b.text = leftText cfg v := by
  have hsize : cfg.textSize = cfg.stringMax + 3 := rfl
  cases hv with
  | string s hlength hnul =>
    obtain ⟨b, hb, hholds⟩ := text.snprintf_whole List.nil_prefix (s := '"' :: (s ++ ['"'])) (by
      rw [List.length_cons, List.length_append, List.length_nil, List.length_singleton]
      omega)
    refine ⟨b, ?_, hholds.text ?_⟩
    · show (text.snprintf 0 _).map Prod.fst = some b
      have hwrite : text.snprintf 0 ('"' :: (s ++ ['"'])) = some (b, _) := hb
      rw [hwrite]
      rfl
    · intro h
      rcases List.mem_cons.mp h with h | h
      · exact absurd h (by decide)
      · rcases List.mem_append.mp h with h | h
        · exact hnul h
        · exact absurd h (by decide)
  | data bytes =>
    obtain ⟨b, hb, hcells, hroom⟩ := dataLoop_spec bytes 0 text List.nil_prefix (show 0 + 1 < _ by omega)
    rw [List.nil_append, List.length_nil] at hb hcells hroom
    obtain ⟨c, hc, hholds⟩ := b.snprintf_whole hcells (s := [']']) hroom
    refine ⟨c, ?_, hholds.text ?_⟩
    · show (dataLoop text 0 0 bytes).bind _ = some c
      rw [hb, Option.bind_some]
      dsimp only
      rw [hc]
      rfl
    · intro h
      rcases List.mem_append.mp h with h | h
      · exact nul_notMem_elements _ _ h
      · exact absurd h (by decide)

theorem listChar_of_mem_elements (index : Nat) (bytes : Bytes) :
    ∀ c ∈ elements index bytes, ListChar c := by
  induction bytes generalizing index with
  | nil => exact fun c hc => absurd hc List.not_mem_nil
  | cons b rest ih =>
    intro c hc
    rcases List.mem_append.mp hc with hc | hc
    · rcases List.mem_cons.mp hc with rfl | hc
      · split
        · exact .inr (.inl rfl)
        · exact .inr (.inr (.inl rfl))
      · have hdigit := isDigitIn_toDigits (by decide) (by decide) b.toNat c hc
        rw [isDigitIn_ten] at hdigit
        exact .inl hdigit
    · exact ih _ c hc

/-- **Nothing is ever marked.** -/
theorem not_markedIncomplete (cfg : ValueConfig) (v : ParamValue) :
    ¬ MarkedIncomplete v (leftText cfg v) := by
  cases v with
  | data bytes =>
    show ¬ ((elements 0 (fitting cfg.textSize 0 bytes) ++ [']']).getLast? ≠ some ']' ∨ _)
    rintro (h | ⟨c, hc, h⟩)
    · exact h List.getLast?_concat
    · rcases List.mem_append.mp hc with hc | hc
      · exact h (listChar_of_mem_elements _ _ c hc)
      · exact h (.inr (.inr (.inr (List.mem_singleton.mp hc))))
  | _ => exact id

/-- What is left is exact when the value is written whole, and only then. -/
theorem leftText_exact_iff (cfg : ValueConfig) {v : ParamValue} (hv : Shown cfg v) :
    leftText cfg v = exactText v ↔ Whole cfg v := by
  cases hv with
  | string s hlength hnul => exact iff_of_true rfl trivial
  | data bytes =>
    show elements 0 (fitting cfg.textSize 0 bytes) ++ [']'] = listText bytes
      ↔ bytes ≠ [] ∧ totalWidth bytes.dropLast + 2 < cfg.stringMax
    have hfit := fitting_eq_iff cfg.textSize 0 bytes
    have hsize : cfg.textSize = cfg.stringMax + 3 := rfl
    constructor
    · intro h
      have hne : bytes ≠ [] := by
        rintro rfl
        have hnone : [']'] = listText [] := h
        exact absurd hnone (by decide)
      rw [← elements_whole hne] at h
      -- what is written is a part of the bytes that is as wide as all of them
      have hlength := congrArg List.length (List.append_cancel_right h)
      rw [elements_length, elements_length] at hlength
      obtain ⟨rest, hrest⟩ := fitting_isPrefix cfg.textSize 0 bytes
      have hsum : totalWidth bytes = totalWidth (fitting cfg.textSize 0 bytes) + totalWidth rest := by
        calc totalWidth bytes = totalWidth (fitting cfg.textSize 0 bytes ++ rest) := by rw [hrest]
          _ = _ := by
            unfold totalWidth
            rw [List.map_append, List.sum_append]
      have hnil : rest = [] := by
        cases rest with
        | nil => rfl
        | cons b rest =>
          have hpos : totalWidth (b :: rest) = width b + totalWidth rest := rfl
          have hwidth : 0 < width b := Nat.succ_pos _
          omega
      rw [hnil, List.append_nil] at hrest
      rcases hfit.mp hrest with hempty | hroom
      · exact absurd hempty hne
      · exact ⟨hne, by omega⟩
    · rintro ⟨hne, hroom⟩
      rw [hfit.mpr (.inr (by omega))]
      exact elements_whole hne

/-- Exact texts are different for different values. -/
theorem exactText_injective {cfg : ValueConfig} {v w : ParamValue} (hv : Shown cfg v)
    (hw : Shown cfg w) (h : exactText v = exactText w) : v = w := by
  cases hv with
  | string s _ _ =>
    cases hw with
    | string s' _ _ => exact congrArg _ (List.append_cancel_right (List.cons.inj h).2)
    | data bytes => exact absurd (List.cons.inj h).1 (by decide)
  | data bytes =>
    cases hw with
    | string s' _ _ => exact absurd (List.cons.inj h).1 (by decide)
    | data bytes' => exact congrArg _ (listText_injective h)

/-- **The texts of two values are faithful exactly when both are written whole.** -/
theorem formatParamValue_faithful_iff (cfg : ValueConfig) {v w : ParamValue} (hv : Shown cfg v)
    (hw : Shown cfg w) : Faithful cfg v w ↔ Whole cfg v ∧ Whole cfg w := by
  -- a text that was left, told from the value
  have hleft : ∀ {v : ParamValue}, Shown cfg v → ∀ text b : CArray cfg.textSize,
      formatParamValue cfg text v = some b → b.text = leftText cfg v := by
    intro v hv text b hb
    obtain ⟨c, hc, htext⟩ := formatParamValue_left cfg hv text
    rw [hb] at hc
    rw [Option.some.inj hc, htext]
  have hwhole : ∀ {v : ParamValue}, Shown cfg v →
      (∀ text b : CArray cfg.textSize, formatParamValue cfg text v = some b →
        b.text = exactText v ∨ MarkedIncomplete v b.text) → Whole cfg v := by
    intro v hv hexact
    obtain ⟨b, hb, htext⟩ := formatParamValue_left cfg hv (CArray.blank cfg.textSize)
    have h := hexact _ b hb
    rw [htext] at h
    rcases h with h | h
    · exact (leftText_exact_iff cfg hv).mp h
    · exact absurd h (not_markedIncomplete cfg v)
  constructor
  · intro h
    exact ⟨hwhole hv h.exact_left, hwhole hw h.exact_right⟩
  · rintro ⟨hvwhole, hwwhole⟩
    have hvtext := (leftText_exact_iff cfg hv).mpr hvwhole
    have hwtext := (leftText_exact_iff cfg hw).mpr hwwhole
    refine ⟨fun text => ⟨?_, ?_⟩, ?_, ?_, ?_⟩
    · obtain ⟨b, hb, _⟩ := formatParamValue_left cfg hv text
      rw [hb]
      rfl
    · obtain ⟨b, hb, _⟩ := formatParamValue_left cfg hw text
      rw [hb]
      rfl
    · intro text b hb
      exact .inl ((hleft hv text b hb).trans hvtext)
    · intro text b hb
      exact .inl ((hleft hw text b hb).trans hwtext)
    · intro text text' b c hb hc hsame
      rw [hleft hv text b hb, hleft hw text' c hc, hvtext, hwtext] at hsame
      exact .inl (exactText_injective hv hw hsame)

/-- A build with strings of 16 characters. -/
def shortStrings : ValueConfig := ⟨16, false, fun _ _ => []⟩

theorem formatParamValue_faithful_two :
    Faithful shortStrings (.data [1, 20, 255]) (.string "[1,20,255]".toList) :=
  (formatParamValue_faithful_iff shortStrings (.data _) (.string _ (by decide) (by decide))).mpr
    ⟨⟨by decide, by decide⟩, trivial⟩

/-- No bytes leave a bracket alone; and a list that is cut is the text of the bytes before. -/
theorem formatParamValue_cut :
    ¬ Faithful shortStrings (.data []) (.data [])
      ∧ (formatParamValue shortStrings (CArray.blank shortStrings.textSize) (.data [])).map CArray.text
        = some "]".toList
      ∧ (formatParamValue shortStrings (CArray.blank shortStrings.textSize)
          (.data [100, 100, 100, 100, 7])).map CArray.text
        = (formatParamValue shortStrings (CArray.blank shortStrings.textSize)
          (.data [100, 100, 100, 100])).map CArray.text := by
  have hempty : (formatParamValue shortStrings (CArray.blank shortStrings.textSize) (.data [])).map
      CArray.text = some "]".toList := by decide +kernel
  refine ⟨fun h => ?_, hempty, by decide +kernel⟩
  obtain ⟨b, hb, htext⟩ := Option.map_eq_some_iff.mp hempty
  rcases h.exact_left _ b hb with hexact | hmarked
  · rw [htext] at hexact
    exact absurd hexact (by decide)
  · rw [htext] at hmarked
    rcases hmarked with h | ⟨c, hc, h⟩
    · exact absurd rfl h
    · exact h (.inr (.inr (.inr (List.mem_singleton.mp hc))))

end KFsw.App
