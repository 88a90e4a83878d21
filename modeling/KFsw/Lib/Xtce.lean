/-
  KFsw.Lib.Xtce — packet descriptions in the manner of XTCE, and what decoding a
  packet with one means.

  A container lists parameters by name; each parameter refers to a type, and a
  type has an encoding with a width in bits.  A packet is decoded big endian,
  the entries of the base container first, one after the other without padding.
  A name refers to the first declaration that has it.

  Main results:
    * `decodeEntries_eq`      — decoding depends on the types the entries refer
      to, each entry at the sum of the widths before it;
    * `parameterType_append`  — declarations added at the end change no
      reference that was resolved before;
    * `parameterType_of_nodup` — among distinct names a reference leads to the
      one declaration that has it.
-/
import KFsw.Lib.Bytes
import Mathlib.Data.List.Nodup
import Mathlib.Data.Rat.Defs

namespace KFsw.Lib.Xtce

/-! ## §1. Descriptions. -/

inductive DataEncoding where
  /-- An integer, with the terms (coefficient, exponent) of its polynomial calibrator; no
  terms for no calibrator. -/
  | integer (sizeInBits : Nat) (twosComplement : Bool) (calibrator : List (ℚ × Nat))
  /-- An IEEE 754 number. -/
  | float (sizeInBits : Nat)

def DataEncoding.sizeInBits : DataEncoding → Nat
  | .integer n _ _ => n
  | .float n => n

inductive TypeKind where
  | integer (signed : Bool)
  | float (sizeInBits : Nat)
  | boolean (zeroStringValue oneStringValue : String)

structure ParameterType where
  name : String
  kind : TypeKind
  unit : Option String
  encoding : DataEncoding
  validRange : Option (ℚ × ℚ)

structure Parameter where
  name : String
  parameterTypeRef : String

/-- A `Comparison` of a `RestrictionCriteria`. -/
structure Comparison where
  parameterRef : String
  value : Nat

structure BaseContainer where
  containerRef : String
  restriction : Comparison

structure SequenceContainer where
  name : String
  abstract : Bool
  entryList : List String
  base : Option BaseContainer

structure SpaceSystem where
  name : String
  types : List ParameterType
  parameters : List Parameter
  containers : List SequenceContainer

/-! ## §2. Decoding. -/

/-- The value of a parameter. -/
inductive Value where
  | integer (v : Int)
  | calibrated (v : ℚ)
  /-- The bits of an IEEE 754 number. -/
  | floating (bits : Nat)
  | text (s : String)
  deriving DecidableEq

/-- A decoded entry: its name, the bit it starts at, its raw value and its value. -/
structure Decoded where
  name : String
  offset : Nat
  raw : Int
  value : Value

/-- `n` bits read as a two's complement number. -/
def twosComplement (n raw : Nat) : Int :=
  if raw < 2 ^ (n - 1) then raw else (raw : Int) - 2 ^ n

def DataEncoding.raw (e : DataEncoding) (bits : Nat) : Int :=
  match e with
  | .integer n true _ => twosComplement n bits
  | .integer _ false _ => bits
  | .float _ => bits

/-- The value of raw bits.  A boolean over an integer is its one-string exactly when the
integer is not zero. -/
def ParameterType.value (t : ParameterType) (bits : Nat) : Value :=
  match t.kind, t.encoding with
  | .boolean zero one, e => .text (if e.raw bits = 0 then zero else one)
  | _, .float _ => .floating bits
  | _, .integer n tc [] => .integer (DataEncoding.raw (.integer n tc []) bits)
  | _, .integer n tc terms =>
      let x : ℚ := DataEncoding.raw (.integer n tc terms) bits
      .calibrated (terms.map fun t => t.1 * x ^ t.2).sum

namespace SpaceSystem

variable (db : SpaceSystem)

/-- The type a parameter reference leads to. -/
def parameterType (ref : String) : Option ParameterType :=
  match db.parameters.find? fun p => p.name == ref with
  | none => none
  | some p => db.types.find? fun t => t.name == p.parameterTypeRef

/-- Decode the named entries from bit `offset` on; none when a reference is open or the data
end too early. -/
def decodeEntries (data : Bytes) : Nat → List String → Option (List Decoded)
  | _, [] => some []
  | offset, ref :: refs =>
    match db.parameterType ref with
    | none => none
    | some t =>
      if offset + t.encoding.sizeInBits ≤ 8 * data.length then
        let bits := beBits data offset t.encoding.sizeInBits
        match decodeEntries data (offset + t.encoding.sizeInBits) refs with
        | none => none
        | some rest => some (⟨ref, offset, t.encoding.raw bits, t.value bits⟩ :: rest)
      else
        none

/-- The entries of a container, those of its base first.  `depth` bounds the chain of bases. -/
def containerEntries : Nat → String → Option (List String)
  | 0, _ => none
  | depth + 1, name =>
    match db.containers.find? fun c => c.name == name with
    | none => none
    | some c =>
      match c.base with
      | none => some c.entryList
      | some b => (containerEntries depth b.containerRef).map (· ++ c.entryList)

/-- Decode a packet with a container. -/
def decodeContainer (name : String) (data : Bytes) : Option (List Decoded) :=
  match db.containerEntries db.containers.length name with
  | none => none
  | some refs => db.decodeEntries data 0 refs

/-- The entries of a container itself: those its base reference leads to, then its own. -/
def entriesOf (c : SequenceContainer) : Option (List String) :=
  match c.base with
  | none => some c.entryList
  | some b => (db.containerEntries db.containers.length b.containerRef).map (· ++ c.entryList)

/-- Decode a packet with a container itself, whatever its name. -/
def decodeWith (c : SequenceContainer) (data : Bytes) : Option (List Decoded) :=
  match db.entriesOf c with
  | none => none
  | some refs => db.decodeEntries data 0 refs

end SpaceSystem

/-- The value of a parameter in a decoded packet. -/
def valueOf (decoded : List Decoded) (name : String) : Option Value :=
  (decoded.find? fun d => d.name == name).map Decoded.value

/-! ## §3. Decoding by types alone. -/

/-- Entries with their types, read one after the other. -/
def decodeTyped (data : Bytes) : Nat → List (String × ParameterType) → List Decoded
  | _, [] => []
  | offset, (ref, t) :: rest =>
    let bits := beBits data offset t.encoding.sizeInBits
    ⟨ref, offset, t.encoding.raw bits, t.value bits⟩
      :: decodeTyped data (offset + t.encoding.sizeInBits) rest

/-- **Decoding reads each entry at the sum of the widths before it**: with every reference
resolved and data that are long enough, only the types count. -/
theorem decodeEntries_eq (db : SpaceSystem) (data : Bytes) (offset : Nat)
    (entries : List (String × ParameterType))
    (hrefs : ∀ e ∈ entries, db.parameterType e.1 = some e.2)
    (hfit : offset + (entries.map fun e => e.2.encoding.sizeInBits).sum ≤ 8 * data.length) :
    db.decodeEntries data offset (entries.map Prod.fst) = some (decodeTyped data offset entries) := by
  induction entries generalizing offset with
  | nil => rfl
  | cons e entries ih =>
    obtain ⟨ref, t⟩ := e
    rw [List.map_cons, List.sum_cons] at hfit
    dsimp only at hfit
    have hrest := ih (offset + t.encoding.sizeInBits)
      (fun e he => hrefs e (List.mem_cons_of_mem _ he)) (by omega)
    rw [List.map_cons, SpaceSystem.decodeEntries, hrefs (ref, t) List.mem_cons_self]
    dsimp only
    rw [if_pos (by omega), hrest]
    rfl

/-- The bits the entries of a list take. -/
def widthSum (entries : List (String × ParameterType)) : Nat :=
  (entries.map fun e => e.2.encoding.sizeInBits).sum

theorem decodeTyped_append (data : Bytes) (offset : Nat) (a b : List (String × ParameterType)) :
    decodeTyped data offset (a ++ b)
      = decodeTyped data offset a ++ decodeTyped data (offset + widthSum a) b := by
  induction a generalizing offset with
  | nil => rfl
  | cons e a ih =>
    obtain ⟨ref, t⟩ := e
    have hsum : offset + widthSum ((ref, t) :: a) = offset + t.encoding.sizeInBits + widthSum a := by
      rw [widthSum, List.map_cons, List.sum_cons, Nat.add_assoc]
      rfl
    rw [List.cons_append, decodeTyped, decodeTyped, ih, hsum]
    rfl

theorem decodeTyped_names (data : Bytes) (offset : Nat) (entries : List (String × ParameterType)) :
    (decodeTyped data offset entries).map Decoded.name = entries.map Prod.fst := by
  induction entries generalizing offset with
  | nil => rfl
  | cons e entries ih =>
    rw [decodeTyped, List.map_cons, List.map_cons, ih]

theorem decodeTyped_length (data : Bytes) (offset : Nat) (entries : List (String × ParameterType)) :
    (decodeTyped data offset entries).length = entries.length := by
  induction entries generalizing offset with
  | nil => rfl
  | cons e entries ih =>
    rw [decodeTyped, List.length_cons, List.length_cons, ih]

/-- **The entry of an index**: it starts behind the widths of the entries before it. -/
theorem decodeTyped_getElem? (data : Bytes) (offset : Nat)
    {entries : List (String × ParameterType)} {i : Nat} {ref : String} {t : ParameterType}
    (h : entries[i]? = some (ref, t)) :
    let start := offset + widthSum (entries.take i)
    let bits := beBits data start t.encoding.sizeInBits
    (decodeTyped data offset entries)[i]? = some ⟨ref, start, t.encoding.raw bits, t.value bits⟩ := by
  intro start bits
  obtain ⟨hi, hentry⟩ := List.getElem?_eq_some_iff.mp h
  have hsplit : entries = entries.take i ++ (ref, t) :: entries.drop (i + 1) := by
    conv_lhs => rw [← List.take_append_drop i entries, List.drop_eq_getElem_cons hi, hentry]
  have hlength : (decodeTyped data offset (entries.take i)).length = i := by
    rw [decodeTyped_length, List.length_take_of_le hi.le]
  conv_lhs => rw [hsplit]
  rw [decodeTyped_append, List.getElem?_append_right hlength.le, hlength, Nat.sub_self]
  rfl

/-! ## §4. More declarations. -/

/-- The first declaration of a name that stands once is the one with it. -/
theorem find?_of_nodup {α : Type*} {l : List α} {name : α → String} (h : (l.map name).Nodup)
    {a : α} (ha : a ∈ l) : (l.find? fun x => name x == name a) = some a := by
  cases hfind : l.find? fun x => name x == name a with
  | none => exact absurd (List.find?_eq_none.mp hfind a ha) (by simp)
  | some b =>
    have hname : name b = name a := by simpa using List.find?_some hfind
    rw [List.inj_on_of_nodup_map h (List.mem_of_find?_eq_some hfind) ha hname]

/-- **A reference among distinct names** leads to the type its parameter names. -/
theorem parameterType_of_nodup {db : SpaceSystem} (hparameters : (db.parameters.map (·.name)).Nodup)
    (htypes : (db.types.map (·.name)).Nodup) {p : Parameter} {t : ParameterType}
    (hp : p ∈ db.parameters) (ht : t ∈ db.types) (href : p.parameterTypeRef = t.name) :
    db.parameterType p.name = some t := by
  have hfirst := find?_of_nodup hparameters hp
  have htype := find?_of_nodup htypes ht
  rw [SpaceSystem.parameterType, hfirst]
  dsimp only
  rw [href]
  exact htype

/-- Declarations added at the end. -/
def SpaceSystem.append (db : SpaceSystem) (types : List ParameterType)
    (parameters : List Parameter) (containers : List SequenceContainer) : SpaceSystem :=
  { db with
    types := db.types ++ types
    parameters := db.parameters ++ parameters
    containers := db.containers ++ containers }

/-- **A reference that is resolved stays so** when declarations are added at the end. -/
theorem parameterType_append {db : SpaceSystem} {types : List ParameterType}
    {parameters : List Parameter} {containers : List SequenceContainer} {ref : String}
    {t : ParameterType} (h : db.parameterType ref = some t) :
    (db.append types parameters containers).parameterType ref = some t := by
  unfold SpaceSystem.parameterType at *
  split at h
  · exact absurd h (by simp)
  · rename_i p hp
    simp only [SpaceSystem.append, List.find?_append, hp, Option.some_or, h]

/-- The same for a container without a base. -/
theorem containerEntries_append {db : SpaceSystem} {types : List ParameterType}
    {parameters : List Parameter} {containers : List SequenceContainer} {name : String}
    {c : SequenceContainer} (h : (db.containers.find? fun c => c.name == name) = some c)
    (hbase : c.base = none) (depth : Nat) :
    (db.append types parameters containers).containerEntries (depth + 1) name
      = some c.entryList := by
  have hfind : ((db.append types parameters containers).containers.find?
      fun c => c.name == name) = some c := by
    simp only [SpaceSystem.append, List.find?_append, h, Option.some_or]
  rw [SpaceSystem.containerEntries, hfind]
  dsimp only
  rw [hbase]

end KFsw.Lib.Xtce
