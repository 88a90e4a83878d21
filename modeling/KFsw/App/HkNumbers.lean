/-
  KFsw.App.HkNumbers — the numbers typed at the shell and the numbers the
  housekeeping service gets.

  `parse_u32` reads 32 bits, and the commands narrow them to the 8 and 16 bits of
  the service's arguments without a check.  The registered commands check their
  report.

  Main results:
    * `filterArguments_ok`     — each field of a filter is the last number typed
      for its name, narrowed;
    * `typedNumbers_iff`       — a command line hands over the numbers typed
      exactly when they fit.
-/
import KFsw.App.ShellHk
import KFsw.App.CommandDefinitions

namespace KFsw.App

open KFsw.Lib Prog

section Numbers

variable (cfg : HkConfig) (shellStrtoul : Text → Nat → Except Int Nat)

/-! ## §1. The commands. -/

/-- The commands of `hk_commands` that take a report and work on this node. -/
inductive HkCommand where
  | clear
  | collect
  | get
  | period
  | store
  | storeClear
  | beacon
  | stored
  | extract
  deriving DecidableEq

/-- The handlers of `hk_commands`. -/
def HkCommand.handler : HkCommand → List Text → HkProg Int
  | clear => cmdHkClear cfg shellStrtoul
  | collect => cmdHkCollect shellStrtoul
  | get => cmdHkGet shellStrtoul
  | period => cmdHkPeriod cfg shellStrtoul
  | store => cmdHkStore cfg shellStrtoul
  | storeClear => cmdHkStoreClear cfg shellStrtoul
  | beacon => cmdHkBeacon cfg shellStrtoul
  | stored => cmdHkStored shellStrtoul
  | extract => cmdHkExtract cfg shellStrtoul

/-! ## §2. What is typed. -/

/-- A text that is accepted as a number. -/
def Reads (text : Text) : Prop := (accepted shellStrtoul text).isSome = true

/-- The number typed in a word of the line. -/
def typed (argv : List Text) (i : Nat) : Nat := (accepted shellStrtoul (arg argv i)).getD 0

/-- The number behind the `=` of a filter word. -/
def filterValue (argument : Text) : Option Nat :=
  (afterEquals argument).bind (accepted shellStrtoul)

/-- A field of a filter: its name on the line, the largest number it holds, its value. -/
structure FilterField where
  name : Text
  max : Nat
  get : HkStoreFilter → Nat

def fromField : FilterField := ⟨FROM, UINT16_MAX, (·.fromSequence.toNat)⟩
def toField : FilterField := ⟨TO, UINT16_MAX, (·.toSequence.toNat)⟩
def sinceField : FilterField := ⟨SINCE, UINT32_MAX, (·.fromSeconds.toNat)⟩
def untilField : FilterField := ⟨UNTIL, UINT32_MAX, (·.toSeconds.toNat)⟩
def skipField : FilterField := ⟨SKIP, UINT8_MAX, (·.withoutFlags.toNat)⟩

/-- The fields `parse_filter` sets by name. -/
def filterFields : List FilterField := [fromField, toField, sinceField, untilField, skipField]

/-- A filter word that is accepted: it has a known name and a number. -/
def FilterReads (argument : Text) : Prop :=
  (filterValue shellStrtoul argument).isSome = true
    ∧ ∃ field ∈ filterFields, field.name.isPrefixOf argument = true

/-- The number typed for a name: the last word of that name counts, `start` if there is none. -/
def lastTyped (name : Text) (start : Nat) (arguments : List Text) : Nat :=
  arguments.foldl (fun n argument =>
    if name.isPrefixOf argument then (filterValue shellStrtoul argument).getD 0 else n) start

/-- The filter words of a line. -/
def HkCommand.filterWords : HkCommand → List Text → List Text
  | stored, argv => argv.drop 2
  | extract, argv => argv.drop 3
  | _, _ => []

/-! ## §3. The property. -/

/-- A filter holds the numbers typed. -/
def FilterCarries (argv words : List Text) (filter : HkStoreFilter) : Prop :=
  accepted shellStrtoul (arg argv 1) = some filter.report.toNat
    ∧ (∀ word ∈ words, FilterReads shellStrtoul word)
    ∧ ∀ field ∈ filterFields, field.get filter = lastTyped shellStrtoul field.name 0 words

/-- A call of the service carries the numbers typed on the line; `words` are its filter words. -/
def CarriesTyped (argv words : List Text) : HkCall → Prop
  | .defineClass report _ _ | .clear report | .collect report | .get report _
  | .clearStore report | .storeQuery report =>
    accepted shellStrtoul (arg argv 1) = some report.toNat
  | .setPeriod report n | .setStore report n =>
    accepted shellStrtoul (arg argv 1) = some report.toNat
      ∧ accepted shellStrtoul (arg argv 2) = some n.toNat
  | .setBeacon report node interval =>
    accepted shellStrtoul (arg argv 1) = some report.toNat
      ∧ accepted shellStrtoul (arg argv 2) = some node.toNat
      ∧ accepted shellStrtoul (arg argv 3) = some interval.toNat
  | .storeCount filter | .storeRead filter _ | .storeExtract filter _ =>
    FilterCarries shellStrtoul argv words filter
  | .getStats | .runCommand _ _ _ => True

/-- The line is for this node and everything on it is accepted. -/
def Accepted : HkCommand → List Text → Prop
  | .clear, argv => (cfg.commandCsp && namesNode argv 2) = false ∧ Reads shellStrtoul (arg argv 1)
  | .collect, argv | .storeClear, argv => Reads shellStrtoul (arg argv 1)
  | .get, argv =>
    Reads shellStrtoul (arg argv 1)
      ∧ (argv.length > 2 → Reads shellStrtoul (arg argv 2) ∧ typed shellStrtoul argv 2 ≠ 0)
  | .period, argv =>
    (cfg.commandCsp && namesNode argv 3) = false ∧ Reads shellStrtoul (arg argv 1)
      ∧ Reads shellStrtoul (arg argv 2)
  | .store, argv => Reads shellStrtoul (arg argv 1) ∧ Reads shellStrtoul (arg argv 2)
  | .beacon, argv =>
    Reads shellStrtoul (arg argv 1) ∧ Reads shellStrtoul (arg argv 2)
      ∧ Reads shellStrtoul (arg argv 3)
  | .stored, argv =>
    Reads shellStrtoul (arg argv 1) ∧ ∀ word ∈ argv.drop 2, FilterReads shellStrtoul word
  | .extract, argv =>
    argv.length ≤ cfg.entries + 2 ∧ Reads shellStrtoul (arg argv 1)
      ∧ ∀ word ∈ argv.drop 3, FilterReads shellStrtoul word

/-- The numbers typed fit the arguments of the service. -/
def NumbersFit (command : HkCommand) (argv : List Text) : Prop :=
  typed shellStrtoul argv 1 ≤ UINT8_MAX
    ∧ (command = .beacon → typed shellStrtoul argv 2 ≤ UINT16_MAX)
    ∧ ∀ field ∈ [fromField, toField, skipField],
        lastTyped shellStrtoul field.name 0 (command.filterWords argv) ≤ field.max

/-! ## §4. Narrowing. -/

theorem toUInt8_eq_iff {n : Nat} (h : n ≤ UINT32_MAX) :
    n = (UInt32.ofNat n).toUInt8.toNat ↔ n ≤ UINT8_MAX := by
  rw [UInt32.toNat_toUInt8, UInt32.toNat_ofNat']
  unfold UINT8_MAX
  unfold UINT32_MAX at h
  omega

theorem toUInt16_eq_iff {n : Nat} (h : n ≤ UINT32_MAX) :
    n = (UInt32.ofNat n).toUInt16.toNat ↔ n ≤ UINT16_MAX := by
  rw [UInt32.toNat_toUInt16, UInt32.toNat_ofNat']
  unfold UINT16_MAX
  unfold UINT32_MAX at h
  omega

/-! ## §5. The filter. -/

theorem filterFields_forall {P : FilterField → Prop} :
    (∀ field ∈ filterFields, P field)
      ↔ P fromField ∧ P toField ∧ P sinceField ∧ P untilField ∧ P skipField := by
  simp [filterFields]

/-- No two names begin the same word. -/
theorem filterName_unique {p q argument : Text}
    (hp : p ∈ filterFields.map FilterField.name) (hq : q ∈ filterFields.map FilterField.name)
    (hbegins : p.isPrefixOf argument = true) (hne : q ≠ p) :
    q.isPrefixOf argument = false := by
  have hnames : ∀ p ∈ filterFields.map FilterField.name,
      ∀ q ∈ filterFields.map FilterField.name, p.isPrefixOf q = true → q = p := by decide
  rw [← Bool.not_eq_true]
  intro hq'
  rw [List.isPrefixOf_iff_prefix] at hbegins hq'
  rcases List.prefix_or_prefix_of_prefix hbegins hq' with h | h
  · exact hne (hnames p hp q hq (List.isPrefixOf_iff_prefix.mpr h))
  · exact hne (hnames q hq p hp (List.isPrefixOf_iff_prefix.mpr h)).symm

/-- The fields of a filter after one word. -/
def SetsNamed (named : FilterField) (n : Nat) (f g : HkStoreFilter) : Prop :=
  g.report = f.report ∧ ∀ field ∈ filterFields, field.get g
    = if field.name = named.name then n % (field.max + 1) else field.get f

theorem setsNamed_prefix {named : FilterField} {n : Nat} {f g : HkStoreFilter} {argument : Text}
    (hmem : named ∈ filterFields) (hbegins : named.name.isPrefixOf argument = true)
    (h : SetsNamed named n f g) :
    ∀ field ∈ filterFields, field.get g
      = if field.name.isPrefixOf argument then n % (field.max + 1) else field.get f := by
  intro field hfield
  rw [h.2 field hfield]
  by_cases hname : field.name = named.name
  · rw [if_pos hname, hname, if_pos hbegins]
  · rw [if_neg hname, filterName_unique (List.mem_map_of_mem hmem) (List.mem_map_of_mem hfield)
      hbegins hname]
    rfl

/-- What the branches of `parse_filter` set, one for each name. -/
theorem setsNamed_from {n : Nat} (f : HkStoreFilter) (h : (UInt32.ofNat n).toNat = n) :
    SetsNamed fromField n f { f with fromSequence := (UInt32.ofNat n).toUInt16 } := by
  refine ⟨rfl, filterFields_forall.mpr ⟨?_, rfl, rfl, rfl, rfl⟩⟩
  show (UInt32.ofNat n).toUInt16.toNat = n % 65536
  rw [UInt32.toNat_toUInt16, h]

theorem setsNamed_to {n : Nat} (f : HkStoreFilter) (h : (UInt32.ofNat n).toNat = n) :
    SetsNamed toField n f { f with toSequence := (UInt32.ofNat n).toUInt16 } := by
  refine ⟨rfl, filterFields_forall.mpr ⟨rfl, ?_, rfl, rfl, rfl⟩⟩
  show (UInt32.ofNat n).toUInt16.toNat = n % 65536
  rw [UInt32.toNat_toUInt16, h]

theorem setsNamed_since (n : Nat) (f : HkStoreFilter) :
    SetsNamed sinceField n f { f with fromSeconds := UInt32.ofNat n } :=
  ⟨rfl, filterFields_forall.mpr ⟨rfl, rfl, UInt32.toNat_ofNat', rfl, rfl⟩⟩

theorem setsNamed_until (n : Nat) (f : HkStoreFilter) :
    SetsNamed untilField n f { f with toSeconds := UInt32.ofNat n } :=
  ⟨rfl, filterFields_forall.mpr ⟨rfl, rfl, rfl, UInt32.toNat_ofNat', rfl⟩⟩

theorem setsNamed_skip {n : Nat} (f : HkStoreFilter) (h : (UInt32.ofNat n).toNat = n) :
    SetsNamed skipField n f { f with withoutFlags := (UInt32.ofNat n).toUInt8 } := by
  refine ⟨rfl, filterFields_forall.mpr ⟨rfl, rfl, rfl, rfl, ?_⟩⟩
  show (UInt32.ofNat n).toUInt8.toNat = n % 256
  rw [UInt32.toNat_toUInt8, h]

/-- A filter word with a number, by the name it begins with. -/
theorem filterArgument_eq {argument : Text} {n : Nat} (f : HkStoreFilter)
    (hn : filterValue shellStrtoul argument = some n) :
    filterArgument shellStrtoul f argument
      = if FROM.isPrefixOf argument then
          .ok { f with fromSequence := (UInt32.ofNat n).toUInt16 }
        else if TO.isPrefixOf argument then
          .ok { f with toSequence := (UInt32.ofNat n).toUInt16 }
        else if SINCE.isPrefixOf argument then .ok { f with fromSeconds := UInt32.ofNat n }
        else if UNTIL.isPrefixOf argument then .ok { f with toSeconds := UInt32.ofNat n }
        else if SKIP.isPrefixOf argument then
          .ok { f with withoutFlags := (UInt32.ofNat n).toUInt8 }
        else .error (-EINVAL) := by
  obtain ⟨value, hvalue, hread⟩ := Option.bind_eq_some_iff.mp hn
  unfold filterArgument
  rw [hvalue]
  dsimp only
  rw [parseU32_eq, hread]

/-- A filter word without a number is refused. -/
theorem filterArgument_none {argument : Text} (f : HkStoreFilter)
    (hn : filterValue shellStrtoul argument = none) :
    filterArgument shellStrtoul f argument = .error (-EINVAL) := by
  unfold filterArgument
  unfold filterValue at hn
  cases hvalue : afterEquals argument with
  | none => rfl
  | some value =>
    rw [hvalue] at hn
    dsimp only
    rw [parseU32_eq, show accepted shellStrtoul value = none from hn]

/-- An accepted filter word sets the field it names to its number, narrowed, and no other. -/
theorem filterArgument_ok {f g : HkStoreFilter} {argument : Text}
    (h : filterArgument shellStrtoul f argument = .ok g) :
    ∃ named ∈ filterFields, named.name.isPrefixOf argument = true
      ∧ ∃ n, filterValue shellStrtoul argument = some n ∧ SetsNamed named n f g := by
  cases hn : filterValue shellStrtoul argument with
  | none =>
    rw [filterArgument_none shellStrtoul f hn] at h
    exact absurd h (by simp)
  | some n =>
    obtain ⟨value, _, hread⟩ := Option.bind_eq_some_iff.mp hn
    have h32 := toUInt32_eq (accepted_le shellStrtoul hread)
    rw [filterArgument_eq shellStrtoul f hn] at h
    -- the first name that begins the word is the one that is set
    split at h
    · rename_i hfrom
      injection h with h
      exact ⟨fromField, by simp [filterFields], hfrom, n, rfl, h ▸ setsNamed_from f h32⟩
    split at h
    · rename_i hto
      injection h with h
      exact ⟨toField, by simp [filterFields], hto, n, rfl, h ▸ setsNamed_to f h32⟩
    split at h
    · rename_i hsince
      injection h with h
      exact ⟨sinceField, by simp [filterFields], hsince, n, rfl, h ▸ setsNamed_since n f⟩
    split at h
    · rename_i huntil
      injection h with h
      exact ⟨untilField, by simp [filterFields], huntil, n, rfl, h ▸ setsNamed_until n f⟩
    split at h
    · rename_i hskip
      injection h with h
      exact ⟨skipField, by simp [filterFields], hskip, n, rfl, h ▸ setsNamed_skip f h32⟩
    · exact absurd h (by simp)

/-- A refused filter word has no number or no known name. -/
theorem filterArgument_error {f : HkStoreFilter} {argument : Text} {e : Int}
    (h : filterArgument shellStrtoul f argument = .error e) :
    ¬ FilterReads shellStrtoul argument := by
  intro hreads
  obtain ⟨hread, named, hmem, hbegins⟩ := hreads
  obtain ⟨n, hn⟩ := Option.isSome_iff_exists.mp hread
  rw [filterArgument_eq shellStrtoul f hn] at h
  -- no branch was taken, so no name begins the word
  have hnone : ∀ field ∈ filterFields, ¬ field.name.isPrefixOf argument = true := by
    rw [filterFields_forall]
    split at h
    · exact absurd h (by simp)
    rename_i hfrom
    split at h
    · exact absurd h (by simp)
    rename_i hto
    split at h
    · exact absurd h (by simp)
    rename_i hsince
    split at h
    · exact absurd h (by simp)
    rename_i huntil
    split at h
    · exact absurd h (by simp)
    rename_i hskip
    exact ⟨hfrom, hto, hsince, huntil, hskip⟩
  exact hnone named hmem hbegins

theorem lastTyped_cons (name : Text) (start : Nat) (argument : Text) (arguments : List Text) :
    lastTyped shellStrtoul name start (argument :: arguments)
      = lastTyped shellStrtoul name (if name.isPrefixOf argument
          then (filterValue shellStrtoul argument).getD 0 else start) arguments := rfl

/-- A number typed for a name has 32 bits. -/
theorem lastTyped_le (name : Text) (arguments : List Text) (start : Nat)
    (hstart : start ≤ UINT32_MAX) : lastTyped shellStrtoul name start arguments ≤ UINT32_MAX := by
  induction arguments generalizing start with
  | nil => exact hstart
  | cons argument arguments ih =>
    rw [lastTyped_cons]
    apply ih
    split
    · unfold filterValue
      cases afterEquals argument with
      | none => exact Nat.zero_le _
      | some value =>
        show (accepted shellStrtoul value).getD 0 ≤ _
        cases h : accepted shellStrtoul value with
        | none => exact Nat.zero_le _
        | some n => exact accepted_le shellStrtoul h
    · exact hstart

/-- **Each field of a filter is the last number typed for its name**, narrowed.  `start` gives
the numbers the filter before the words stands for. -/
theorem filterArguments_ok {f g : HkStoreFilter} {arguments : List Text} (start : FilterField → Nat)
    (h : filterArguments shellStrtoul f arguments = .ok g)
    (hf : ∀ field ∈ filterFields, field.get f = start field % (field.max + 1)) :
    g.report = f.report ∧ (∀ argument ∈ arguments, FilterReads shellStrtoul argument)
      ∧ ∀ field ∈ filterFields, field.get g
          = lastTyped shellStrtoul field.name (start field) arguments % (field.max + 1) := by
  -- on the words, with the numbers typed so far in `start`
  induction arguments generalizing f start with
  | nil =>
    injection h with h
    subst h
    exact ⟨rfl, by simp, hf⟩
  | cons argument arguments ih =>
    unfold filterArguments at h
    split at h
    · exact absurd h (by simp)
    · rename_i f' hstep
      obtain ⟨named, hmem, hbegins, n, hn, hset⟩ := filterArgument_ok shellStrtoul hstep
      have hfields := setsNamed_prefix hmem hbegins hset
      -- after this word the filter stands for its number in the field it names
      obtain ⟨hreport, hreads, hget⟩ := ih
        (fun field => if field.name.isPrefixOf argument then n else start field) h (by
          intro field hfield
          rw [hfields field hfield]
          split
          · rfl
          · exact hf field hfield)
      refine ⟨hreport.trans hset.1, ?_, ?_⟩
      · intro word hword
        rcases List.mem_cons.mp hword with rfl | hword
        · exact ⟨by rw [hn]; rfl, named, hmem, hbegins⟩
        · exact hreads word hword
      · intro field hfield
        rw [hget field hfield, lastTyped_cons, hn]
        rfl

theorem filterArguments_error {f : HkStoreFilter} {arguments : List Text} {e : Int}
    (h : filterArguments shellStrtoul f arguments = .error e) :
    ¬ ∀ argument ∈ arguments, FilterReads shellStrtoul argument := by
  induction arguments generalizing f with
  | nil => exact absurd h (by simp [filterArguments])
  | cons argument arguments ih =>
    unfold filterArguments at h
    intro hall
    split at h
    · rename_i hstep
      exact filterArgument_error shellStrtoul hstep (hall argument List.mem_cons_self)
    · exact ih h fun word hword => hall word (List.mem_cons_of_mem _ hword)

/-- **When a filter holds the numbers typed**: they fit its fields. -/
theorem parseFilter_carries {argv line words : List Text} {filter : HkStoreFilter}
    (hreport : arg line 1 = arg argv 1) (hwords : line.drop 2 = words)
    (h : parseFilter shellStrtoul line = .ok filter) :
    Reads shellStrtoul (arg argv 1) ∧ (∀ word ∈ words, FilterReads shellStrtoul word)
      ∧ (FilterCarries shellStrtoul argv words filter
          ↔ typed shellStrtoul argv 1 ≤ UINT8_MAX
            ∧ ∀ field ∈ [fromField, toField, skipField],
                lastTyped shellStrtoul field.name 0 words ≤ field.max) := by
  -- the fields of seconds hold every number that is accepted
  have hwide : (∀ field ∈ [fromField, toField, skipField],
      lastTyped shellStrtoul field.name 0 words ≤ field.max)
        ↔ ∀ field ∈ filterFields, lastTyped shellStrtoul field.name 0 words ≤ field.max := by
    have hsince := lastTyped_le shellStrtoul SINCE words 0 (Nat.zero_le _)
    have huntil := lastTyped_le shellStrtoul UNTIL words 0 (Nat.zero_le _)
    rw [filterFields_forall]
    simp only [List.forall_mem_cons, List.not_mem_nil, false_implies, implies_true, and_true]
    exact ⟨fun ⟨hfrom, hto, hskip⟩ => ⟨hfrom, hto, hsince, huntil, hskip⟩,
      fun ⟨hfrom, hto, _, _, hskip⟩ => ⟨hfrom, hto, hskip⟩⟩
  rw [hwide]
  unfold parseFilter at h
  rw [hreport, hwords, parseU32_eq] at h
  cases hn : accepted shellStrtoul (arg argv 1) with
  | none =>
    rw [hn] at h
    exact absurd h (by simp)
  | some n =>
    rw [hn] at h
    obtain ⟨hfilter, hreads, hget⟩ := filterArguments_ok shellStrtoul (fun _ => 0) h (by
      rw [filterFields_forall]
      exact ⟨rfl, rfl, rfl, rfl, rfl⟩)
    refine ⟨by rw [Reads, hn]; rfl, hreads, ?_⟩
    unfold FilterCarries typed
    rw [hn, hfilter, Option.getD_some, Option.some_inj,
      toUInt8_eq_iff (accepted_le shellStrtoul hn)]
    refine and_congr_right fun _ => ?_
    constructor
    · intro hcarries field hfield
      have := hcarries.2 field hfield
      rw [hget field hfield] at this
      -- a remainder equal to the number typed bounds it
      have hlt : lastTyped shellStrtoul field.name 0 words % (field.max + 1) < field.max + 1 :=
        Nat.mod_lt _ (Nat.succ_pos field.max)
      omega
    · intro hfit
      refine ⟨hreads, fun field hfield => ?_⟩
      rw [hget field hfield]
      exact Nat.mod_eq_of_lt (Nat.lt_succ_of_le (hfit field hfield))

theorem parseFilter_error {argv line words : List Text} {e : Int}
    (hreport : arg line 1 = arg argv 1) (hwords : line.drop 2 = words)
    (h : parseFilter shellStrtoul line = .error e) :
    ¬ (Reads shellStrtoul (arg argv 1) ∧ ∀ word ∈ words, FilterReads shellStrtoul word) := by
  intro hall
  obtain ⟨hread, hreads⟩ := hall
  obtain ⟨n, hn⟩ := Option.isSome_iff_exists.mp hread
  unfold parseFilter at h
  rw [hreport, hwords, parseU32_eq, hn] at h
  exact filterArguments_error shellStrtoul h hreads

/-! ## §6. The programs. -/

/-- The statistics that `setting_result` asks for carry no number. -/
theorem settingResult_calls (argv words : List Text) (result : Int) :
    (settingResult cfg result).Calls (CarriesTyped shellStrtoul argv words) := by
  unfold settingResult
  split
  · exact ⟨trivial, fun _ => trivial⟩
  · trivial

theorem runRemote_calls (argv words : List Text) (command : Text) :
    (runRemote cfg shellStrtoul command argv).Calls (CarriesTyped shellStrtoul argv words) := by
  unfold runRemote
  split
  · trivial
  · exact ⟨trivial, fun _ => trivial⟩

/-- The loop of `hk get` calls for one report. -/
theorem hkGetLoop_iff (argv words : List Text) (report : UInt8) (wanted age : Nat) :
    (hkGetLoop report wanted age).Calls (CarriesTyped shellStrtoul argv words)
      ↔ (wanted ≠ 0 → accepted shellStrtoul (arg argv 1) = some report.toNat) := by
  induction wanted generalizing age with
  | zero => exact iff_of_true trivial fun h => absurd rfl h
  | succ wanted ih =>
    unfold hkGetLoop
    rw [calls_call]
    constructor
    · intro h _
      exact h.1
    · intro h
      refine ⟨h (Nat.succ_ne_zero wanted), fun r => ?_⟩
      split
      · trivial
      · exact (ih (age + 1)).mpr fun _ => h (Nat.succ_ne_zero wanted)

/-- The reading loop of `hk stored` calls for one filter. -/
theorem hkStoredLoop_calls {argv words : List Text} {filter : HkStoreFilter}
    (h : FilterCarries shellStrtoul argv words filter) (left index : Nat) :
    (hkStoredLoop filter left index).Calls (CarriesTyped shellStrtoul argv words) := by
  induction left generalizing index with
  | zero => trivial
  | succ left ih =>
    refine ⟨h, fun r => ?_⟩
    dsimp only
    split
    · trivial
    · exact ih (index + 1)

theorem reads_of {text : Text} {n : Nat} (h : accepted shellStrtoul text = some n) :
    Reads shellStrtoul text :=
  Option.isSome_iff_exists.mpr ⟨n, h⟩

theorem not_reads {text : Text} (h : accepted shellStrtoul text = none) :
    ¬ Reads shellStrtoul text := by
  unfold Reads
  rw [h]
  decide

/-- The report of a line whose first number is read. -/
theorem report_iff {argv : List Text} {n : Nat}
    (hn : accepted shellStrtoul (arg argv 1) = some n) :
    accepted shellStrtoul (arg argv 1) = some (UInt32.ofNat n).toUInt8.toNat
      ↔ typed shellStrtoul argv 1 ≤ UINT8_MAX := by
  unfold typed
  rw [hn, Option.some_inj, Option.getD_some]
  exact toUInt8_eq_iff (accepted_le shellStrtoul hn)

/-- A number whose argument has 32 bits. -/
theorem accepted_toNat {text : Text} {n : Nat} (hn : accepted shellStrtoul text = some n) :
    accepted shellStrtoul text = some (UInt32.ofNat n).toNat := by
  rw [toUInt32_eq (accepted_le shellStrtoul hn)]
  exact hn

/-- The commands that read a report and make one call. -/
theorem withReport_iff {argv words : List Text} (call : UInt8 → HkCall)
    (next : ∀ report, HkReply (call report) → HkProg Int)
    (hcall : ∀ report, CarriesTyped shellStrtoul argv words (call report)
      ↔ accepted shellStrtoul (arg argv 1) = some report.toNat)
    (hnext : ∀ report r, (next report r).Calls (CarriesTyped shellStrtoul argv words)) :
    (withReport shellStrtoul argv fun report => .call (call report) (next report)).Calls
        (CarriesTyped shellStrtoul argv words)
      ↔ (Reads shellStrtoul (arg argv 1) → typed shellStrtoul argv 1 ≤ UINT8_MAX) := by
  unfold withReport
  rw [parseU32_eq]
  cases hn : accepted shellStrtoul (arg argv 1) with
  | none => exact iff_of_true trivial fun hread => absurd hread (not_reads shellStrtoul hn)
  | some n =>
    have hreport := report_iff shellStrtoul hn
    rw [hn] at hreport
    dsimp only
    rw [calls_call, hcall, hn, hreport]
    constructor
    · intro h _
      exact h.1
    · intro h
      exact ⟨h (reads_of shellStrtoul hn), hnext _⟩

/-- The commands that read a report and a number of 32 bits and make one call. -/
theorem reportNumber_iff {argv words : List Text} (call : UInt8 → UInt32 → HkCall)
    (next : ∀ report value, HkReply (call report value) → HkProg Int)
    (hcall : ∀ report value, CarriesTyped shellStrtoul argv words (call report value)
      ↔ accepted shellStrtoul (arg argv 1) = some report.toNat
        ∧ accepted shellStrtoul (arg argv 2) = some value.toNat)
    (hnext : ∀ report value r,
      (next report value r).Calls (CarriesTyped shellStrtoul argv words)) :
    Calls (CarriesTyped shellStrtoul argv words)
        (match parseU32 shellStrtoul (arg argv 1) with
        | .error e => .done e
        | .ok report =>
          match parseU32 shellStrtoul (arg argv 2) with
          | .error e => .done e
          | .ok value => .call (call report.toUInt8 value) (next report.toUInt8 value))
      ↔ (Reads shellStrtoul (arg argv 1) ∧ Reads shellStrtoul (arg argv 2)
          → typed shellStrtoul argv 1 ≤ UINT8_MAX) := by
  rw [parseU32_eq, parseU32_eq]
  cases hn : accepted shellStrtoul (arg argv 1) with
  | none => exact iff_of_true trivial fun hreads => absurd hreads.1 (not_reads shellStrtoul hn)
  | some n =>
    cases hm : accepted shellStrtoul (arg argv 2) with
    | none => exact iff_of_true trivial fun hreads => absurd hreads.2 (not_reads shellStrtoul hm)
    | some m =>
      dsimp only
      rw [calls_call, hcall, report_iff shellStrtoul hn]
      constructor
      · intro h _
        exact h.1.1
      · intro h
        have hfit := h ⟨reads_of shellStrtoul hn, reads_of shellStrtoul hm⟩
        exact ⟨⟨hfit, accepted_toNat shellStrtoul hm⟩, hnext _ _⟩

/-! ## §7. The commands, one by one. -/

theorem cmdHkClear_iff (argv words : List Text) :
    (cmdHkClear cfg shellStrtoul argv).Calls (CarriesTyped shellStrtoul argv words)
      ↔ (Accepted cfg shellStrtoul .clear argv → typed shellStrtoul argv 1 ≤ UINT8_MAX) := by
  unfold cmdHkClear Accepted
  by_cases hremote : (cfg.commandCsp && namesNode argv 2) = true
  · rw [if_pos hremote]
    have hcalls := runRemote_calls cfg shellStrtoul argv words "hk_clear".toList
    exact iff_of_true hcalls fun h => absurd hremote (by rw [h.1]; decide)
  · rw [if_neg hremote, withReport_iff shellStrtoul .clear _ (fun _ => Iff.rfl)
      fun _ r => settingResult_calls cfg shellStrtoul argv words r]
    constructor
    · intro h hacc
      exact h hacc.2
    · intro h hread
      exact h ⟨Bool.eq_false_iff.mpr hremote, hread⟩

theorem cmdHkCollect_iff (argv words : List Text) :
    (cmdHkCollect shellStrtoul argv).Calls (CarriesTyped shellStrtoul argv words)
      ↔ (Accepted cfg shellStrtoul .collect argv → typed shellStrtoul argv 1 ≤ UINT8_MAX) := by
  unfold cmdHkCollect
  exact withReport_iff shellStrtoul .collect _ (fun _ => Iff.rfl) fun _ _ => trivial

theorem cmdHkStoreClear_iff (argv words : List Text) :
    (cmdHkStoreClear cfg shellStrtoul argv).Calls (CarriesTyped shellStrtoul argv words)
      ↔ (Accepted cfg shellStrtoul .storeClear argv → typed shellStrtoul argv 1 ≤ UINT8_MAX) := by
  -- every refusal of `parse_u32` is `-EINVAL`, so this is the common body
  have hbody : cmdHkStoreClear cfg shellStrtoul argv = withReport shellStrtoul argv fun report =>
      .call (.clearStore report) fun result => settingResult cfg result := by
    unfold cmdHkStoreClear withReport
    rw [parseU32_eq]
    cases accepted shellStrtoul (arg argv 1) <;> rfl
  rw [hbody]
  exact withReport_iff shellStrtoul .clearStore _ (fun _ => Iff.rfl)
    fun _ r => settingResult_calls cfg shellStrtoul argv words r

theorem cmdHkGet_iff (argv words : List Text) :
    (cmdHkGet shellStrtoul argv).Calls (CarriesTyped shellStrtoul argv words)
      ↔ (Accepted cfg shellStrtoul .get argv → typed shellStrtoul argv 1 ≤ UINT8_MAX) := by
  unfold cmdHkGet Accepted
  rw [parseU32_eq]
  cases hn : accepted shellStrtoul (arg argv 1) with
  | none => exact iff_of_true trivial fun hacc => absurd hacc.1 (not_reads shellStrtoul hn)
  | some n =>
    have hread := reads_of shellStrtoul hn
    dsimp only
    by_cases hcount : argv.length > 2
    · rw [if_pos hcount, parseU32_eq]
      cases hwanted : accepted shellStrtoul (arg argv 2) with
      | none =>
        exact iff_of_true trivial fun hacc =>
          absurd (hacc.2 hcount).1 (not_reads shellStrtoul hwanted)
      | some wanted =>
        have hread2 := reads_of shellStrtoul hwanted
        have htyped : typed shellStrtoul argv 2 = wanted := by
          unfold typed
          rw [hwanted, Option.getD_some]
        dsimp only
        rw [hkGetLoop_iff, report_iff shellStrtoul hn,
          toUInt32_eq (accepted_le shellStrtoul hwanted), htyped]
        constructor
        · intro h hacc
          exact h (hacc.2 hcount).2
        · intro h hne
          exact h ⟨hread, fun _ => ⟨hread2, hne⟩⟩
    · rw [if_neg hcount, hkGetLoop_iff, report_iff shellStrtoul hn]
      constructor
      · intro h _
        exact h Nat.one_ne_zero
      · intro h _
        exact h ⟨hread, fun hlong => absurd hlong hcount⟩

theorem cmdHkPeriod_iff (argv words : List Text) :
    (cmdHkPeriod cfg shellStrtoul argv).Calls (CarriesTyped shellStrtoul argv words)
      ↔ (Accepted cfg shellStrtoul .period argv → typed shellStrtoul argv 1 ≤ UINT8_MAX) := by
  unfold cmdHkPeriod Accepted
  by_cases hremote : (cfg.commandCsp && namesNode argv 3) = true
  · rw [if_pos hremote]
    have hcalls := runRemote_calls cfg shellStrtoul argv words "hk_period".toList
    exact iff_of_true hcalls fun h => absurd hremote (by rw [h.1]; decide)
  · rw [if_neg hremote]
    refine (reportNumber_iff shellStrtoul .setPeriod _ (fun _ _ => Iff.rfl)
      fun _ _ r => settingResult_calls cfg shellStrtoul argv words r).trans ?_
    constructor
    · intro h hacc
      exact h hacc.2
    · intro h hreads
      exact h ⟨Bool.eq_false_iff.mpr hremote, hreads⟩

theorem cmdHkStore_iff (argv words : List Text) :
    (cmdHkStore cfg shellStrtoul argv).Calls (CarriesTyped shellStrtoul argv words)
      ↔ (Accepted cfg shellStrtoul .store argv → typed shellStrtoul argv 1 ≤ UINT8_MAX) := by
  have hbody : cmdHkStore cfg shellStrtoul argv
      = match parseU32 shellStrtoul (arg argv 1) with
        | .error e => .done e
        | .ok report =>
          match parseU32 shellStrtoul (arg argv 2) with
          | .error e => .done e
          | .ok interval =>
            .call (.setStore report.toUInt8 interval) fun result => settingResult cfg result := by
    unfold cmdHkStore
    rw [parseU32_eq, parseU32_eq]
    cases accepted shellStrtoul (arg argv 1) <;> cases accepted shellStrtoul (arg argv 2) <;> rfl
  rw [hbody]
  exact reportNumber_iff shellStrtoul .setStore _ (fun _ _ => Iff.rfl)
    fun _ _ r => settingResult_calls cfg shellStrtoul argv words r

theorem cmdHkBeacon_iff (argv words : List Text) :
    (cmdHkBeacon cfg shellStrtoul argv).Calls (CarriesTyped shellStrtoul argv words)
      ↔ (Accepted cfg shellStrtoul .beacon argv → typed shellStrtoul argv 1 ≤ UINT8_MAX
          ∧ typed shellStrtoul argv 2 ≤ UINT16_MAX) := by
  unfold cmdHkBeacon Accepted
  rw [parseU32_eq, parseU32_eq, parseU32_eq]
  cases hn : accepted shellStrtoul (arg argv 1) with
  | none => exact iff_of_true trivial fun hacc => absurd hacc.1 (not_reads shellStrtoul hn)
  | some n =>
    cases hm : accepted shellStrtoul (arg argv 2) with
    | none => exact iff_of_true trivial fun hacc => absurd hacc.2.1 (not_reads shellStrtoul hm)
    | some m =>
      cases hk : accepted shellStrtoul (arg argv 3) with
      | none => exact iff_of_true trivial fun hacc => absurd hacc.2.2 (not_reads shellStrtoul hk)
      | some k =>
        have hnode : accepted shellStrtoul (arg argv 2) = some (UInt32.ofNat m).toUInt16.toNat
            ↔ typed shellStrtoul argv 2 ≤ UINT16_MAX := by
          unfold typed
          rw [hm, Option.some_inj, Option.getD_some]
          exact toUInt16_eq_iff (accepted_le shellStrtoul hm)
        dsimp only
        rw [calls_call]
        show (accepted shellStrtoul (arg argv 1) = some _ ∧ accepted shellStrtoul (arg argv 2) = some _
          ∧ accepted shellStrtoul (arg argv 3) = some _) ∧ _ ↔ _
        rw [report_iff shellStrtoul hn, hnode]
        constructor
        · intro h _
          exact ⟨h.1.1, h.1.2.1⟩
        · intro h
          have hfit := h ⟨reads_of shellStrtoul hn, reads_of shellStrtoul hm,
            reads_of shellStrtoul hk⟩
          exact ⟨⟨hfit.1, hfit.2, accepted_toNat shellStrtoul hk⟩,
            fun r => settingResult_calls cfg shellStrtoul argv words r⟩

theorem cmdHkStored_iff (argv : List Text) :
    (cmdHkStored shellStrtoul argv).Calls (CarriesTyped shellStrtoul argv (argv.drop 2))
      ↔ (Accepted cfg shellStrtoul .stored argv → typed shellStrtoul argv 1 ≤ UINT8_MAX
          ∧ ∀ field ∈ [fromField, toField, skipField],
              lastTyped shellStrtoul field.name 0 (argv.drop 2) ≤ field.max) := by
  unfold cmdHkStored Accepted
  cases hfilter : parseFilter shellStrtoul argv with
  | error e =>
    have hrefused := parseFilter_error shellStrtoul rfl rfl hfilter
    exact ⟨fun _ hacc => absurd hacc hrefused, fun _ => trivial⟩
  | ok filter =>
    obtain ⟨hread, hreads, hcarries⟩ := parseFilter_carries shellStrtoul rfl rfl hfilter
    rw [← hcarries]
    constructor
    · -- the filter reaches `storeCount` when the query succeeds
      intro h _
      exact (h.2 0).1
    · intro h
      have hfit := h ⟨hread, hreads⟩
      refine ⟨hfit.1, fun result => ?_⟩
      dsimp only
      split
      · trivial
      · refine ⟨hfit, fun reply => ?_⟩
        dsimp only
        split
        · trivial
        · exact hkStoredLoop_calls shellStrtoul hfit _ _

theorem cmdHkExtract_iff (argv : List Text) :
    (cmdHkExtract cfg shellStrtoul argv).Calls (CarriesTyped shellStrtoul argv (argv.drop 3))
      ↔ (Accepted cfg shellStrtoul .extract argv → typed shellStrtoul argv 1 ≤ UINT8_MAX
          ∧ ∀ field ∈ [fromField, toField, skipField],
              lastTyped shellStrtoul field.name 0 (argv.drop 3) ≤ field.max) := by
  unfold cmdHkExtract Accepted
  by_cases hmany : argv.length > cfg.entries + 2
  · rw [if_pos hmany]
    exact ⟨fun _ hacc => absurd hacc.1 (by omega), fun _ => trivial⟩
  · rw [if_neg hmany]
    -- without the path the list still begins with the report
    have hreport : arg ([arg argv 0, arg argv 1] ++ argv.drop 3) 1 = arg argv 1 := rfl
    have hwords : ([arg argv 0, arg argv 1] ++ argv.drop 3).drop 2 = argv.drop 3 := rfl
    cases hfilter : parseFilter shellStrtoul ([arg argv 0, arg argv 1] ++ argv.drop 3) with
    | error e =>
      have hrefused := parseFilter_error shellStrtoul hreport hwords hfilter
      exact ⟨fun _ hacc => absurd hacc.2 hrefused, fun _ => trivial⟩
    | ok filter =>
      obtain ⟨hread, hreads, hcarries⟩ :=
        parseFilter_carries shellStrtoul hreport hwords hfilter
      rw [← hcarries]
      constructor
      · intro h _
        exact h.1
      · intro h
        exact ⟨h ⟨by omega, hread, hreads⟩, fun _ => trivial⟩

/-! ## §8. The two forms of a setting. -/

/-- The program reaches the service. -/
def Reaches {α : Type} (program : HkProg α) : Prop := program.firstCall.isSome = true

instance {α : Type} (program : HkProg α) : Decidable (Reaches program) :=
  inferInstanceAs (Decidable (_ = true))

/-- A registered command that checks its report first. -/
theorem commandReport_reaches (u32 : UInt32) (result : CommandResult) (call : UInt8 → HkCall)
    (next : ∀ report, HkReply (call report) → HkProg (Int × CommandResult)) :
    Reaches (commandReport u32 result fun report => .call (call report) (next report))
      ↔ u32.toNat ≤ UINT8_MAX := by
  unfold Reaches
  rw [commandReport_firstCall]
  by_cases h : u32.toNat > UINT8_MAX
  · rw [if_pos h]
    exact ⟨fun hnone => absurd hnone (by simp), fun hle => absurd h (by omega)⟩
  · rw [if_neg h]
    exact ⟨fun _ => by omega, fun _ => rfl⟩

theorem cmdHkClear_reaches {argv : List Text} {n : Nat}
    (hlocal : (cfg.commandCsp && namesNode argv 2) = false)
    (hn : accepted shellStrtoul (arg argv 1) = some n) :
    Reaches (cmdHkClear cfg shellStrtoul argv) := by
  unfold Reaches cmdHkClear withReport
  rw [hlocal, parseU32_eq, hn]
  rfl

theorem cmdHkPeriod_reaches {argv : List Text} {n period : Nat}
    (hlocal : (cfg.commandCsp && namesNode argv 3) = false)
    (hn : accepted shellStrtoul (arg argv 1) = some n)
    (hperiod : accepted shellStrtoul (arg argv 2) = some period) :
    Reaches (cmdHkPeriod cfg shellStrtoul argv) := by
  unfold Reaches cmdHkPeriod
  rw [hlocal, parseU32_eq, hn, parseU32_eq, hperiod]
  rfl

/-- A command whose only narrowed number is its report. -/
theorem numbersFit_report {command : HkCommand} {argv : List Text}
    (hwords : command.filterWords argv = []) (hbeacon : command ≠ .beacon) :
    NumbersFit shellStrtoul command argv ↔ typed shellStrtoul argv 1 ≤ UINT8_MAX := by
  unfold NumbersFit
  rw [hwords]
  constructor
  · intro h
    exact h.1
  · intro h
    exact ⟨h, fun hb => absurd hb hbeacon, fun field _ => Nat.zero_le _⟩

/-- A command with a filter. -/
theorem numbersFit_filter {command : HkCommand} {argv : List Text} (hbeacon : command ≠ .beacon) :
    NumbersFit shellStrtoul command argv ↔ typed shellStrtoul argv 1 ≤ UINT8_MAX
      ∧ ∀ field ∈ [fromField, toField, skipField],
          lastTyped shellStrtoul field.name 0 (command.filterWords argv) ≤ field.max := by
  unfold NumbersFit
  constructor
  · intro h
    exact ⟨h.1, h.2.2⟩
  · intro h
    exact ⟨h.1, fun hb => absurd hb hbeacon, h.2⟩

/-- Every line of every command. -/
theorem handler_iff (command : HkCommand) (argv : List Text) :
    (command.handler cfg shellStrtoul argv).Calls
        (CarriesTyped shellStrtoul argv (command.filterWords argv))
      ↔ (Accepted cfg shellStrtoul command argv → NumbersFit shellStrtoul command argv) := by
  cases command with
  | clear =>
    rw [numbersFit_report shellStrtoul rfl (by decide)]
    exact cmdHkClear_iff cfg shellStrtoul argv []
  | collect =>
    rw [numbersFit_report shellStrtoul rfl (by decide)]
    exact cmdHkCollect_iff cfg shellStrtoul argv []
  | get =>
    rw [numbersFit_report shellStrtoul rfl (by decide)]
    exact cmdHkGet_iff cfg shellStrtoul argv []
  | period =>
    rw [numbersFit_report shellStrtoul rfl (by decide)]
    exact cmdHkPeriod_iff cfg shellStrtoul argv []
  | store =>
    rw [numbersFit_report shellStrtoul rfl (by decide)]
    exact cmdHkStore_iff cfg shellStrtoul argv []
  | storeClear =>
    rw [numbersFit_report shellStrtoul rfl (by decide)]
    exact cmdHkStoreClear_iff cfg shellStrtoul argv []
  | beacon =>
    have h : NumbersFit shellStrtoul .beacon argv
        ↔ typed shellStrtoul argv 1 ≤ UINT8_MAX ∧ typed shellStrtoul argv 2 ≤ UINT16_MAX :=
      ⟨fun h => ⟨h.1, h.2.1 rfl⟩, fun h => ⟨h.1, fun _ => h.2, fun field _ => Nat.zero_le _⟩⟩
    rw [h]
    exact cmdHkBeacon_iff cfg shellStrtoul argv []
  | stored =>
    rw [numbersFit_filter shellStrtoul (by decide)]
    exact cmdHkStored_iff cfg shellStrtoul argv
  | extract =>
    rw [numbersFit_filter shellStrtoul (by decide)]
    exact cmdHkExtract_iff cfg shellStrtoul argv

/-- **When the numbers typed are the numbers the service gets.**  A line of a command hands
over the numbers typed exactly when they fit the arguments of the service, or the line is
refused; and the shell agrees with the registered command on whether a report number may reach
the service exactly when it is one byte. -/
theorem typedNumbers_iff :
    (∀ (command : HkCommand) (argv : List Text),
      (command.handler cfg shellStrtoul argv).Calls
          (CarriesTyped shellStrtoul argv (command.filterWords argv))
        ↔ (Accepted cfg shellStrtoul command argv → NumbersFit shellStrtoul command argv))
    ∧ ∀ (argv : List Text) (n : Nat) (result : CommandResult),
        accepted shellStrtoul (arg argv 1) = some n →
        ((cfg.commandCsp && namesNode argv 2) = false →
          ((Reaches (cmdHkClear cfg shellStrtoul argv)
              ↔ Reaches (commandHkClear cfg (UInt32.ofNat n) result)) ↔ n ≤ UINT8_MAX))
        ∧ ∀ period, accepted shellStrtoul (arg argv 2) = some period →
          (cfg.commandCsp && namesNode argv 3) = false →
          ((Reaches (cmdHkPeriod cfg shellStrtoul argv)
              ↔ Reaches (commandHkPeriod cfg (UInt32.ofNat n) (UInt32.ofNat period) result))
            ↔ n ≤ UINT8_MAX) := by
  refine ⟨handler_iff cfg shellStrtoul, fun argv n result hn => ⟨fun hlocal => ?_, ?_⟩⟩
  · unfold commandHkClear
    rw [commandReport_reaches, toUInt32_eq (accepted_le shellStrtoul hn)]
    rw [iff_true_left (cmdHkClear_reaches cfg shellStrtoul hlocal hn)]
  · intro period hperiod hlocal
    unfold commandHkPeriod
    rw [commandReport_reaches, toUInt32_eq (accepted_le shellStrtoul hn)]
    rw [iff_true_left (cmdHkPeriod_reaches cfg shellStrtoul hlocal hn hperiod)]

end Numbers

/-- `hk clear 7` clears the report 7, as `hk_clear` does. -/
theorem typedNumbers_iff_hk_clear :
    (cmdHkClear exampleBuild decimalStrtoul ["clear".toList, "7".toList]).Calls
        (CarriesTyped decimalStrtoul ["clear".toList, "7".toList] [])
      ∧ Reaches (cmdHkClear exampleBuild decimalStrtoul ["clear".toList, "7".toList])
      ∧ Reaches (commandHkClear exampleBuild 7 ⟨.ok, []⟩) := by
  have h := typedNumbers_iff exampleBuild decimalStrtoul
  have hagree := ((h.2 ["clear".toList, "7".toList] 7 ⟨.ok, []⟩ (by decide)).1 (by decide)).mpr
    (by decide)
  have hreaches : Reaches (cmdHkClear exampleBuild decimalStrtoul ["clear".toList, "7".toList]) :=
    cmdHkClear_reaches exampleBuild decimalStrtoul (by decide)
      (show accepted decimalStrtoul "7".toList = some 7 by decide)
  refine ⟨(h.1 .clear ["clear".toList, "7".toList]).mpr fun _ => ?_, hreaches,
    hagree.mp hreaches⟩
  exact ⟨by decide, fun hb => absurd hb (by decide), by decide⟩

/-- `hk clear 256` clears the report 0, which `hk_clear` refuses to do. -/
theorem hk_clear_256_clears_report_0 :
    (cmdHkClear exampleBuild decimalStrtoul ["clear".toList, "256".toList]).firstCall
        = some (.clear 0)
      ∧ ¬ (cmdHkClear exampleBuild decimalStrtoul ["clear".toList, "256".toList]).Calls
          (CarriesTyped decimalStrtoul ["clear".toList, "256".toList] [])
      ∧ Reaches (cmdHkClear exampleBuild decimalStrtoul ["clear".toList, "256".toList])
      ∧ ¬ Reaches (commandHkClear exampleBuild 256 ⟨.ok, []⟩) := by
  refine ⟨by decide, fun h => ?_, by decide, by decide⟩
  have hcarries : accepted decimalStrtoul "256".toList = some 0 := h.1
  exact absurd hcarries (by decide)

end KFsw.App
