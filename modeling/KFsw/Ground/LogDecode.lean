/-
  KFsw.Ground.LogDecode — `tools/ground/log-decode.py`: `decode_line`, over the
  lines that `log remote` prints.

  The dictionary renderer `decode` is a parameter: from the bytes of a package it
  gives a text or raises.  So are the text of the error of `bytes.fromhex` and the
  word characters of `re`, of which only the ASCII ones matter.  A line of a capture is the text whose UTF-8 bytes the shell
  printed.

  Main results:
    * `searchPackage_eq_none_iff` — where the pattern finds nothing;
    * `searchPackage_head`        — it finds nothing in what every line begins with;
    * `decodeLine_package`        — what becomes of a line printed for a package;
    * `survives_iff`              — a message survives exactly when it is no text
      with a package marker in it.
-/
import KFsw.App.ShellSystem
import KFsw.Lib.Crc
import KFsw.Lib.PyHex
import KFsw.Ground.Csp

namespace KFsw.Ground

open KFsw.Lib KFsw.App

/-! ## §1. The patterns. -/

/-- `pkg=`. -/
def PKG : Str := ['p', 'k', 'g', '=']

def TEXT_SIZE : Nat := 192

section Search

-- `\w` of `re`
variable (wordChar : Char → Bool)

/-- `PACKAGE.search`, behind the character `previous`: what stands before the match, and what
follows its `pkg=`.  `\b` asks for a word character on one side only. -/
def searchPackage (previous : Option Char) : Str → Option (Str × Str)
  | [] => none
  | c :: rest =>
    if previous.any wordChar ≠ wordChar c ∧ PKG <+: c :: rest then some ([], rest.drop 3)
    else (searchPackage (some c) rest).map fun m => (c :: m.1, m.2)

end Search

/-- A match of `VERIFIED_PACKAGE`: its two groups, and what follows it. -/
structure Verified where
  digits : Str
  checksum : Str
  rest : Str

/-- The guard `00000000:`. -/
def GUARD : Str := "00000000:".toList

/-- ` crc32=`. -/
def CRC_MARK : Str := " crc32=".toList

/-- `VERIFIED_PACKAGE.match`: the digits end where no digit follows, since the mark begins with
a space. -/
def matchVerified (s : Str) : Option Verified :=
  if GUARD <+: s then
    let digits := (s.drop GUARD.length).takeWhile (isDigitIn 16)
    let mark := (s.drop GUARD.length).dropWhile (isDigitIn 16)
    if digits ≠ [] ∧ CRC_MARK <+: mark then
      let checksum := (mark.drop CRC_MARK.length).take 8
      let rest := (mark.drop CRC_MARK.length).drop 8
      if checksum.length = 8 ∧ checksum.all (isDigitIn 16) = true
          ∧ rest.head?.all isSpace = true then
        some ⟨digits, checksum, rest⟩
      else none
    else none
  else none

/-! ## §2. `decode_line`. -/

/-- `binascii.crc32`. -/
def crc32Ieee (data : Bytes) : Nat :=
  (reflectedCrc 0x04C11DB7#32 (BitVec.allOnes 32) (BitVec.allOnes 32) data).toNat

/-- The rendered text as the node keeps it: CR and LF replaced, cut at the first NUL, and at most
191 bytes. -/
def normalised (text : Str) : Bytes :=
  let bytes := ((encodeUtf8 text).map fun b => if b = 13 then 32 else b).map
    fun b => if b = 10 then 32 else b
  (bytes.takeWhile (· ≠ 0)).take (TEXT_SIZE - 1)

def MISSING_CRC : PyError := .valueError "missing or malformed rendered-text CRC32"

def CRC_MISMATCH : PyError := .valueError "rendered-text CRC32 mismatch; is this the right ELF?"

/-- A text that cannot be encoded is one more exception of the renderer. -/
def decodeLine (wordChar : Char → Bool) (fromhexError : Str → String)
    (render : Bytes → Except PyError Str) (line : Str) : Except PyError Str :=
  match searchPackage wordChar none line with
  | none => .ok line
  | some (before, package) =>
    match matchVerified package with
    | none => .error MISSING_CRC
    | some v =>
      match fromHex v.digits with
      | none => .error (.valueError (fromhexError v.digits))
      | some data => do
        let text ← render data
        if crc32Ieee (normalised text) ≠ digitsValue 16 v.checksum then .error CRC_MISMATCH
        else .ok (before ++ decodeReplace (normalised text) ++ v.rest)

-- the check value of the CRC-32 of IEEE 802.3, over the digits 1 to 9
example : crc32Ieee [0x31, 0x32, 0x33, 0x34, 0x35, 0x36, 0x37, 0x38, 0x39] = 0xCBF43926 := by
  decide +kernel

/-! ## §3. Where the pattern is found. -/

/-- The word characters of ASCII. -/
def WordChars (wordChar : Char → Bool) : Prop :=
  ∀ c : Char, c.toNat < 128 → wordChar c = (c.isAlphanum || c = '_')

theorem WordChars.marker {wordChar : Char → Bool} (h : WordChars wordChar) :
    wordChar 'p' = true := by
  rw [h 'p' (by decide)]
  decide

theorem WordChars.space {wordChar : Char → Bool} (h : WordChars wordChar) :
    wordChar ' ' = false := by
  rw [h ' ' (by decide)]
  decide

/-- A marker that no word character precedes. -/
def HoldsPackage (wordChar : Char → Bool) (text : Str) : Prop :=
  ∃ before after, text = before ++ PKG ++ after ∧ before.getLast?.any wordChar = false

/-- A marker holds no space, so one that begins in front of a space is there whole. -/
theorem pkg_isPrefix {w rest : Str} (h : PKG <+: w ++ ' ' :: rest) : PKG <+: w := by
  obtain ⟨t, ht⟩ := h
  rcases List.append_eq_append_iff.mp ht with ⟨a, hw, _⟩ | ⟨a, hpkg, hrest⟩
  · exact ⟨a, hw.symm⟩
  · cases a with
    | nil => exact ⟨[], by rw [List.append_nil] at hpkg ⊢; exact hpkg⟩
    | cons c a =>
      obtain ⟨rfl, _⟩ := List.cons_eq_cons.mp hrest
      have hmem : ' ' ∈ PKG := by
        rw [hpkg]
        exact List.mem_append_right w List.mem_cons_self
      exact absurd hmem (by decide)

section Search

variable {wordChar : Char → Bool}

/-- **The search passes over a text** without the marker, in front of a space. -/
theorem searchPackage_word {w : Str} (hw : ¬ PKG <:+: w) (previous : Option Char) (rest : Str) :
    searchPackage wordChar previous (w ++ ' ' :: rest)
      = (searchPackage wordChar (some ' ') rest).map fun m => (w ++ ' ' :: m.1, m.2) := by
  induction w generalizing previous with
  | nil =>
    rw [List.nil_append, searchPackage, if_neg]
    · rfl
    · rintro ⟨_, h⟩
      exact hw (@pkg_isPrefix [] rest h).isInfix
  | cons c w ih =>
    have hrest : ¬ PKG <:+: w := fun h => hw (h.trans (List.suffix_cons c w).isInfix)
    rw [List.cons_append, searchPackage, if_neg, ih hrest, Option.map_map]
    · rfl
    · rintro ⟨_, h⟩
      exact hw (@pkg_isPrefix (c :: w) rest h).isInfix

variable (hword : WordChars wordChar)
include hword

/-- **Where the pattern finds nothing**: no marker stands behind anything but a word
character. -/
theorem searchPackage_eq_none_iff (previous : Option Char) (s : Str) :
    searchPackage wordChar previous s = none
      ↔ ∀ before after, s = before ++ PKG ++ after →
        (before.getLast?.or previous).any wordChar = true := by
  have hp := hword.marker
  induction s generalizing previous with
  | nil => exact iff_of_true rfl fun before after h => absurd h (by simp [PKG])
  | cons c rest ih =>
    have hlast : ∀ before : Str, ((c :: before).getLast?.or previous).any wordChar
        = (before.getLast?.or (some c)).any wordChar := by
      intro before
      rw [List.getLast?_cons]
      cases before.getLast? <;> rfl
    rw [searchPackage]
    by_cases hmatch : previous.any wordChar ≠ wordChar c ∧ PKG <+: c :: rest
    · rw [if_pos hmatch]
      refine iff_of_false (by simp) fun hall => ?_
      obtain ⟨hboundary, after, hafter⟩ := hmatch
      obtain ⟨rfl, _⟩ := List.cons_eq_cons.mp hafter
      exact hboundary ((hall [] after hafter.symm).trans hp.symm)
    · rw [if_neg hmatch, Option.map_eq_none_iff]
      refine (ih (some c)).trans ?_
      constructor
      · intro hall before after h
        cases before with
        | nil =>
          have hpkg : PKG <+: c :: rest := ⟨after, h.symm⟩
          obtain ⟨rfl, _⟩ := List.cons_eq_cons.mp h
          by_contra hnot
          exact hmatch ⟨by rw [hp]; exact hnot, hpkg⟩
        | cons d before =>
          obtain ⟨rfl, hrest⟩ := List.cons_eq_cons.mp h
          rw [hlast]
          exact hall before after hrest
      · intro hall before after h
        rw [← hlast]
        exact hall (c :: before) after (by rw [h]; rfl)

/-- Behind a space, the pattern finds nothing exactly in a text without a marker. -/
theorem searchPackage_space_iff (text : Str) :
    searchPackage wordChar (some ' ') text = none ↔ ¬ HoldsPackage wordChar text := by
  have hspace := hword.space
  have hany : ∀ o : Option Char, (o.or (some ' ')).any wordChar = o.any wordChar := by
    intro o
    cases o with
    | none => exact hspace
    | some c => rfl
  rw [searchPackage_eq_none_iff hword]
  constructor
  · rintro hall ⟨before, after, h, hboundary⟩
    have hmarker := hall before after h
    rw [hany, hboundary] at hmarker
    exact absurd hmarker Bool.false_ne_true
  · intro hnot before after h
    rw [hany]
    by_contra hboundary
    exact hnot ⟨before, after, h, by simpa using hboundary⟩

end Search

/-- A written number has no "p". -/
theorem p_notMem_toDigits (n : Nat) : 'p' ∉ Nat.toDigits 10 n := by
  intro h
  obtain ⟨d, hd, hp⟩ := exists_digit_of_mem_toDigits (by decide) n h
  have hall : ∀ d < 10, 'p' ≠ Nat.digitChar d := by decide
  exact hall d hd hp

/-- **The search passes over what every line begins with**, whatever the numbers in it, when no
module has the marker in its name. -/
theorem searchPackage_head (wordChar : Char → Bool) {moduleName : UInt8 → Text}
    (hname : ∀ k, ¬ PKG <:+: moduleName k) (m : RemoteMessage) (rest : Str) :
    searchPackage wordChar none (messageHead moduleName m ++ rest)
      = (searchPackage wordChar (some ' ') rest).map fun x =>
        (messageHead moduleName m ++ x.1, x.2) := by
  -- three words: up to the uptime, the module's name, and what follows it
  generalize hfirst : Nat.toDigits 10 m.sequence.toNat ++ " t=".toList
    ++ Nat.toDigits 10 m.uptimeMs.toNat ++ "ms".toList = first
  generalize hlast : "level=".toList ++ Nat.toDigits 10 m.severity.toNat
    ++ (if m.truncated then " truncated".toList else []) = last
  have hp : ∀ w : Str, 'p' ∉ w → ¬ PKG <:+: w := fun w hw h => hw (h.subset (by decide))
  have hp₁ : 'p' ∉ first := by
    rw [← hfirst]
    simp only [List.mem_append, not_or]
    exact ⟨⟨⟨p_notMem_toDigits _, by decide⟩, p_notMem_toDigits _⟩, by decide⟩
  have hp₂ : 'p' ∉ last := by
    rw [← hlast]
    simp only [List.mem_append, not_or]
    refine ⟨⟨by decide, p_notMem_toDigits _⟩, ?_⟩
    split <;> decide
  have hhead : ∀ t, messageHead moduleName m ++ t
      = first ++ ' ' :: (moduleName m.module ++ ' ' :: (last ++ ' ' :: t)) := by
    intro t
    have hms : "ms ".toList = "ms".toList ++ [' '] := by decide
    have hlevel : " level=".toList = ' ' :: "level=".toList := by decide
    rw [← hfirst, ← hlast]
    unfold messageHead
    rw [hms, hlevel]
    simp only [List.append_assoc, List.cons_append, List.nil_append]
  rw [hhead, searchPackage_word (hp _ hp₁), searchPackage_word (hname _),
    searchPackage_word (hp _ hp₂), Option.map_map, Option.map_map]
  congr 1
  funext x
  rw [hhead]
  rfl

/-! ## §4. The lines of packages. -/

/-- `%02x` of every byte is what `bytes.hex` writes. -/
theorem hexText_eq (data : Bytes) : hexText data = hex data :=
  congrArg (data.flatMap ·) (funext hexPadded_byte)

/-- A printed package is matched whole. -/
theorem matchVerified_printed {digits checksum : Str} (hne : digits ≠ [])
    (hdigits : ∀ c ∈ digits, isDigitIn 16 c = true) (hlength : checksum.length = 8)
    (hchecksum : ∀ c ∈ checksum, isDigitIn 16 c = true) :
    matchVerified (GUARD ++ (digits ++ (CRC_MARK ++ checksum))) = some ⟨digits, checksum, []⟩ := by
  have hmark : CRC_MARK = ' ' :: "crc32=".toList := by decide
  have htake : (digits ++ (CRC_MARK ++ checksum)).takeWhile (isDigitIn 16) = digits := by
    rw [hmark, List.cons_append, takeWhile_append_stop _ _ _ (by decide)]
    exact List.takeWhile_eq_self_iff.mpr hdigits
  have hdrop : (digits ++ (CRC_MARK ++ checksum)).dropWhile (isDigitIn 16)
      = CRC_MARK ++ checksum := by
    rw [hmark, List.cons_append, dropWhile_append_stop _ _ _ (by decide),
      List.dropWhile_eq_nil_iff.mpr hdigits, List.nil_append]
  unfold matchVerified
  rw [if_pos (List.prefix_append _ _), List.drop_left]
  dsimp only
  rw [htake, hdrop, if_pos ⟨hne, List.prefix_append _ _⟩, List.drop_left,
    List.take_of_length_le (Nat.le_of_eq hlength), List.drop_of_length_le (Nat.le_of_eq hlength),
    if_pos ⟨hlength, List.all_eq_true.mpr hchecksum, rfl⟩]

theorem hexText_ne_nil {data : Bytes} (h : data ≠ []) : hexText data ≠ [] := by
  rw [hexText_eq]
  intro hnil
  have hlength := hex_length data
  rw [hnil] at hlength
  exact h (List.length_eq_zero_iff.mp (by simpa using hlength.symm))

theorem isDigitIn_hexText (data : Bytes) : ∀ c ∈ hexText data, isDigitIn 16 c = true := by
  intro c hc
  obtain ⟨b, _, hc⟩ := List.mem_flatMap.mp hc
  exact isDigitIn_hexPadded c hc

/-- The package of a line, in the pieces of `VERIFIED_PACKAGE`. -/
theorem packageText_eq {encodedSize : Nat} {m : RemoteMessage} (hcrc : m.textCrcPresent = true)
    (hsize : m.size ≤ encodedSize) :
    packageText encodedSize m
      = PKG ++ (GUARD ++ (hexText (m.data.take m.size)
        ++ (CRC_MARK ++ hexPadded 8 m.textCrc.toNat))) := by
  have hpkg : "pkg=".toList = PKG := by decide
  unfold packageText
  rw [hcrc, if_pos rfl, if_pos rfl, Nat.min_eq_left hsize, hpkg, List.append_assoc,
    List.append_assoc]
  rfl

/-- Behind a space, a marker is found at once. -/
theorem searchPackage_marker {wordChar : Char → Bool} (hword : WordChars wordChar) (rest : Str) :
    searchPackage wordChar (some ' ') (PKG ++ rest) = some ([], rest) := by
  show searchPackage wordChar (some ' ') ('p' :: ('k' :: 'g' :: '=' :: rest)) = _
  have hboundary : (some ' ').any wordChar ≠ wordChar 'p' := by
    show wordChar ' ' ≠ wordChar 'p'
    rw [hword.space, hword.marker]
    decide
  rw [searchPackage, if_pos ⟨hboundary, rest, rfl⟩]
  rfl

/-- What a verified package becomes. -/
theorem decodeLine_match {wordChar : Char → Bool} {fromhexError : Str → String}
    (render : Bytes → Except PyError Str) {line before package : Str} {v : Verified} {data : Bytes}
    (hsearch : searchPackage wordChar none line = some (before, package))
    (hmatch : matchVerified package = some v) (hdata : fromHex v.digits = some data) :
    decodeLine wordChar fromhexError render line
      = (render data).bind fun text =>
        if crc32Ieee (normalised text) = digitsValue 16 v.checksum then
          .ok (before ++ decodeReplace (normalised text) ++ v.rest)
        else .error CRC_MISMATCH := by
  unfold decodeLine
  rw [hsearch]
  dsimp only
  rw [hmatch]
  dsimp only
  rw [hdata]
  show (render data).bind _ = _
  congr 1
  funext text
  exact ite_not _ _ _

section Lines

variable {wordChar : Char → Bool} (hword : WordChars wordChar) {moduleName : UInt8 → Text}
  (hname : ∀ k, ¬ PKG <:+: moduleName k) {encodedSize : Nat} {fromhexError : Str → String}
include hword hname

/-- **A line printed for a package** with a checksum: the renderer gets its bytes, and the text
it gives replaces the package when it has the checksum. -/
theorem decodeLine_package (render : Bytes → Except PyError Str) {m : RemoteMessage}
    (hcrc : m.textCrcPresent = true) (hpos : 1 ≤ m.size) (hsize : m.size ≤ encodedSize) :
    decodeLine wordChar fromhexError render (messageHead moduleName m ++ packageText encodedSize m)
      = (render (m.data.take m.size)).bind fun text =>
        if crc32Ieee (normalised text) = m.textCrc.toNat then
          .ok (messageHead moduleName m ++ decodeReplace (normalised text))
        else .error CRC_MISMATCH := by
  have hne : m.data.take m.size ≠ [] := by
    have hlength : (m.data.take m.size).length = m.size := List.length_take_of_le m.size_le
    intro hnil
    rw [hnil] at hlength
    rw [← hlength] at hpos
    exact absurd hpos (by decide)
  have hsearch := searchPackage_head wordChar hname m (packageText encodedSize m)
  rw [packageText_eq hcrc hsize, searchPackage_marker hword, Option.map_some, List.append_nil]
    at hsearch
  have hmatch := matchVerified_printed (hexText_ne_nil hne) (isDigitIn_hexText _)
    (hexPadded_length (by decide) m.textCrc.toNat_lt) isDigitIn_hexPadded
  have hbytes : fromHex (hexText (m.data.take m.size)) = some (m.data.take m.size) := by
    rw [hexText_eq, fromHex_hex]
  rw [packageText_eq hcrc hsize, decodeLine_match render hsearch hmatch hbytes]
  dsimp only
  rw [digitsValue_hexPadded]
  simp only [List.append_nil]

end Lines

/-! ## §5. Every message. -/

/-- What is asked of the line printed for a message, for every renderer: a text is left as it is;
of a package that fits, the renderer gets the bytes, and nothing but the package is replaced, by
the rendered text as the node keeps it, if that has the checksum. -/
def Survives (wordChar : Char → Bool) (fromhexError : Str → String) (moduleName : UInt8 → Text)
    (encodedSize : Nat) (m : RemoteMessage) : Prop :=
  ∀ line, encodeUtf8 line = printRemoteMessage moduleName encodedSize m →
    ∀ render : Bytes → Except PyError Str,
      (m.package = false → decodeLine wordChar fromhexError render line = .ok line)
        ∧ (m.package = true → m.textCrcPresent = true → 1 ≤ m.size → m.size ≤ encodedSize →
          line = messageHead moduleName m ++ packageText encodedSize m
            ∧ decodeLine wordChar fromhexError render line
              = (render (m.data.take m.size)).bind fun text =>
                if crc32Ieee (normalised text) = m.textCrc.toNat then
                  .ok (messageHead moduleName m ++ decodeReplace (normalised text))
                else .error CRC_MISMATCH)

/-- A match is never left as it is by every renderer. -/
theorem decodeLine_of_match {wordChar : Char → Bool} (fromhexError : Str → String) {line : Str}
    {found : Str × Str}
    (h : searchPackage wordChar none line = some found) :
    ∃ e, decodeLine wordChar fromhexError (fun _ => .error CRC_MISMATCH) line = .error e := by
  unfold decodeLine
  rw [h]
  dsimp only
  split
  · exact ⟨_, rfl⟩
  · rename_i v _
    cases fromHex v.digits with
    | none => exact ⟨_, rfl⟩
    | some data => exact ⟨CRC_MISMATCH, rfl⟩

section Messages

variable {wordChar : Char → Bool} (hword : WordChars wordChar) {moduleName : UInt8 → Text}
  (hname : ∀ k, ¬ PKG <:+: moduleName k) {encodedSize : Nat} {fromhexError : Str → String}
include hword hname

/-- **A message survives exactly when it is no text with a package marker in it.** -/
theorem survives_iff (m : RemoteMessage) :
    Survives wordChar fromhexError moduleName encodedSize m
      ↔ (m.package = false → ∀ text, encodeUtf8 text = cString m.data →
        ¬ HoldsPackage wordChar text) := by
  constructor
  · intro hsurvives hpackage text htext hholds
    have hprinted : encodeUtf8 (messageHead moduleName m ++ text)
        = printRemoteMessage moduleName encodedSize m := by
      rw [printRemoteMessage, if_pos hpackage, encodeUtf8_append, htext]
    have hline := (hsurvives _ hprinted fun _ => .error CRC_MISMATCH).1 hpackage
    -- the pattern finds the marker in the text
    have hsome : searchPackage wordChar (some ' ') text ≠ none := by
      intro hnone
      exact (searchPackage_space_iff hword text).mp hnone hholds
    obtain ⟨found, hfound⟩ := Option.ne_none_iff_exists'.mp hsome
    have hsearch := searchPackage_head wordChar hname m text
    rw [hfound, Option.map_some] at hsearch
    obtain ⟨e, he⟩ := decodeLine_of_match fromhexError hsearch
    exact absurd (he.symm.trans hline) (by simp)
  · intro htexts line hprinted render
    constructor
    · intro hpackage
      rw [printRemoteMessage, if_pos hpackage] at hprinted
      obtain ⟨text, rfl, htext⟩ := encodeUtf8_prefix hprinted
      have hnone : searchPackage wordChar none (messageHead moduleName m ++ text) = none := by
        rw [searchPackage_head wordChar hname,
          (searchPackage_space_iff hword text).mpr (htexts hpackage text htext)]
        rfl
      rw [decodeLine, hnone]
    · intro hpackage hcrc hpos hsize
      rw [printRemoteMessage, if_neg (by rw [hpackage]; decide)] at hprinted
      obtain rfl := encodeUtf8_injective hprinted
      exact ⟨rfl, decodeLine_package hword hname render hcrc hpos hsize⟩

end Messages

def asciiWord (c : Char) : Bool := c.isAlphanum || c = '_'

def coreName (_ : UInt8) : Text := "core".toList

/-- A package of two bytes. -/
def packageMessage : RemoteMessage :=
  ⟨7, 1500, 0, 1, false, true, true, 0xCBF43926, 2, [4, 0], by decide, by decide⟩

theorem survives_iff_package : Survives asciiWord (fun _ => "") coreName 191 packageMessage := by
  have hname : ∀ k, ¬ PKG <:+: coreName k := fun k => by
    show ¬ PKG <:+: "core".toList
    decide
  exact (survives_iff (fun _ _ => rfl) hname packageMessage).mpr fun h => absurd h (by decide)

/-- The text "pkg=42". -/
def markerMessage : RemoteMessage :=
  ⟨7, 1500, 0, 1, false, false, false, 0, 6, [0x70, 0x6B, 0x67, 0x3D, 0x34, 0x32, 0], by decide,
    by decide⟩

/-- **A text with a marker in it** is refused. -/
theorem survives_marker : ¬ Survives asciiWord (fun _ => "") coreName 191 markerMessage := by
  intro h
  have hprinted : encodeUtf8 (messageHead coreName markerMessage ++ "pkg=42".toList)
      = printRemoteMessage coreName 191 markerMessage := by decide +kernel
  have hline := (h _ hprinted fun _ => .error CRC_MISMATCH).1 rfl
  have hrefused : decodeLine asciiWord (fun _ => "") (fun _ => .error CRC_MISMATCH)
      (messageHead coreName markerMessage ++ "pkg=42".toList) = .error MISSING_CRC := by
    rfl
  exact absurd (hrefused.symm.trans hline) (by simp)

end KFsw.Ground
