/-
  KFsw.Ground.Store — the durable store of `tools/ground/hk_store.py`.

  A database has two tables.  `definition` keeps each report document once,
  under its digest; `sample` keeps one row per reception.  A `Store` is opened
  with a document or without one and stamps its rows with that definition.  The
  digest function is a parameter.

  `storeReader` runs any sequence of openings and `record` calls; its outputs
  are the calls that returned, so a run says which receptions were recorded.

  Main results:
    * `record_ok_iff`   — when `record` returns, and the row it has then added;
    * `run_contents`    — the rows of a run are its recorded calls, in order;
    * `gapOf_run`       — the gap view of one series reads neighbouring
      receptions of that series and nothing else.
-/
import KFsw.Ground.Sample
import KFsw.Lib.Framing
import KFsw.Lib.Table

namespace KFsw.Ground

open KFsw.Lib

/-! ## §1. The schema. -/

/-- A row of `definition`. -/
structure DefinitionRow where
  digest : String
  document : String
  firstSeenMs : Nat
  deriving DecidableEq

/-- A row of `sample`. -/
structure SampleRow where
  node : Nat
  report : Nat
  sequence : Nat
  nodeSeconds : Nat
  clockSet : Nat
  incomplete : Nat
  valueCount : Nat
  receivedMs : Nat
  definition : Option Nat
  frame : Bytes
  deriving DecidableEq

/-- The tables of `SCHEMA`, with the `UNIQUE` of `digest`. -/
structure Database where
  definition : Table DefinitionRow
  sample : Table SampleRow
  digest_unique : (definition.contents.map DefinitionRow.digest).Nodup

def Database.empty : Database := ⟨Table.empty, Table.empty, List.nodup_nil⟩

/-- The largest number SQLite stores in an `INTEGER` column is one less than this; `sqlite3`
refuses to bind a larger one. -/
def SQL_INTEGER_LIMIT : Nat := 2 ^ 63

def sqlOverflow : PyError := .overflowError "Python int too large to convert to SQLite INTEGER"

/-! ## §2. `Store`. -/

/-- What a `Store` holds besides its connection. -/
structure Store where
  definition : Option Nat
  deriving DecidableEq

section Digest

-- `hashlib.sha256(document.encode()).hexdigest()`
variable (sha256 : String → String)

/-- `Store._definition`: the row of this document, a new one if it has none. -/
def Database.definitionOf (db : Database) (document : String) (nowMs : Nat) :
    Except PyError (Database × Nat) :=
  match h : db.definition.rows.find? fun r => decide (r.2.digest = sha256 document) with
  | some row => .ok (db, row.1)
  | none =>
    if nowMs < SQL_INTEGER_LIMIT then
      .ok (⟨db.definition.insert ⟨sha256 document, document, nowMs⟩, db.sample, by
        rw [Table.contents_insert, List.map_append, List.nodup_append]
        refine ⟨db.digest_unique, by simp, ?_⟩
        intro digest hd digest' hd' heq
        -- no row has this digest, since none was found
        obtain ⟨row, hrow, rfl⟩ := List.mem_map.mp hd
        obtain ⟨entry, hentry, rfl⟩ := List.mem_map.mp hrow
        have hnone := List.find?_eq_none.mp h entry hentry
        simp only [List.map_cons, List.map_nil, List.mem_singleton] at hd'
        exact hnone (by simpa [hd'] using heq)⟩, db.definition.nextId)
    else
      .error sqlOverflow

/-- `Store.__init__`: an empty document counts as none. -/
def Store.init (db : Database) (document : Option String) (nowMs : Nat) :
    Except PyError (Database × Store) :=
  match document with
  | none => .ok (db, ⟨none⟩)
  | some document =>
    if document = "" then
      .ok (db, ⟨none⟩)
    else
      match db.definitionOf sha256 document nowMs with
      | .ok (db, id) => .ok (db, ⟨some id⟩)
      | .error e => .error e

end Digest

/-- What `_definition` does: it finds the row with the document's digest, or adds one. -/
theorem definitionOf_ok {sha256 : String → String} {db db' : Database} {document : String}
    {nowMs id : Nat} (h : db.definitionOf sha256 document nowMs = .ok (db', id)) :
    (db' = db ∧ ∃ row, (id, row) ∈ db.definition.rows ∧ row.digest = sha256 document)
      ∨ (nowMs < SQL_INTEGER_LIMIT
        ∧ (∀ row ∈ db.definition.contents, row.digest ≠ sha256 document)
        ∧ db'.sample = db.sample ∧ id = db.definition.nextId
        ∧ db'.definition = db.definition.insert ⟨sha256 document, document, nowMs⟩) := by
  unfold Database.definitionOf at h
  split at h
  · rename_i row hfind
    obtain ⟨rfl, rfl⟩ := Prod.mk.inj (Except.ok.inj h)
    have hdigest := List.find?_some hfind
    exact .inl ⟨rfl, row.2, List.mem_of_find?_eq_some hfind, of_decide_eq_true hdigest⟩
  · rename_i hnone
    split at h
    · rename_i hnow
      obtain ⟨rfl, rfl⟩ := Prod.mk.inj (Except.ok.inj h)
      refine .inr ⟨hnow, ?_, rfl, rfl, rfl⟩
      intro row hrow hdigest
      obtain ⟨entry, hentry, rfl⟩ := List.mem_map.mp hrow
      exact List.find?_eq_none.mp hnone entry hentry (decide_eq_true hdigest)
    · exact absurd h (by simp)

/-- `_definition` fails only to add a row, on a clock that SQLite cannot store. -/
theorem definitionOf_error {sha256 : String → String} {db : Database} {document : String}
    {nowMs : Nat} {e : PyError} (h : db.definitionOf sha256 document nowMs = .error e) :
    ¬ nowMs < SQL_INTEGER_LIMIT := by
  unfold Database.definitionOf at h
  split at h
  · exact absurd h (by simp)
  · split at h
    · exact absurd h (by simp)
    · assumption

/-- The arguments of one call of `Store.record`. -/
structure RecordCall where
  node : Nat
  sample : Bytes
  receivedMs : Nat
  deriving DecidableEq

/-- The row `Store.record` inserts for a header. -/
def Store.row (s : Store) (h : SampleHeader) (c : RecordCall) : SampleRow :=
  { node := c.node
    report := h.report
    sequence := h.sequence
    nodeSeconds := h.seconds
    clockSet := if h.flags &&& 2 ≠ 0 then 0 else 1
    incomplete := if h.flags &&& 1 ≠ 0 then 1 else 0
    valueCount := h.count
    receivedMs := c.receivedMs
    definition := s.definition
    frame := c.sample }

/-- The column `incomplete` is the low flag. -/
theorem row_incomplete (s : Store) (h : SampleHeader) (c : RecordCall) :
    ((s.row h c).incomplete = 1 ↔ h.flags &&& HK_FLAG_INCOMPLETE ≠ 0)
      ∧ ((s.row h c).incomplete = 0 ↔ ¬ h.flags &&& HK_FLAG_INCOMPLETE ≠ 0) := by
  show ((if h.flags &&& HK_FLAG_INCOMPLETE ≠ 0 then 1 else 0) = 1 ↔ _)
    ∧ ((if h.flags &&& HK_FLAG_INCOMPLETE ≠ 0 then 1 else 0) = 0 ↔ _)
  split
  · rename_i hset
    exact ⟨iff_of_true rfl hset, iff_of_false (by decide) (not_not.mpr hset)⟩
  · rename_i hclear
    exact ⟨iff_of_false (by decide) hclear, iff_of_true rfl hclear⟩

/-- `Store.record`.  Of the numbers bound, only `node` and `received_ms` can be too large. -/
def Store.record (s : Store) (db : Database) (c : RecordCall) : Except PyError Database :=
  match unpackFrom c.sample with
  | .error e => .error e
  | .ok h =>
    if c.node < SQL_INTEGER_LIMIT ∧ c.receivedMs < SQL_INTEGER_LIMIT then
      .ok { db with sample := db.sample.insert (s.row h c) }
    else
      .error sqlOverflow

/-- **What `record` does**: it returns exactly for a sample that has a header and numbers that
fit, and has then added the row of that header and nothing else. -/
theorem record_ok_iff (s : Store) (db db' : Database) (c : RecordCall) :
    s.record db c = .ok db' ↔
      HK_HEADER_BYTES ≤ c.sample.length ∧ c.node < SQL_INTEGER_LIMIT
        ∧ c.receivedMs < SQL_INTEGER_LIMIT
        ∧ db' = { db with sample := db.sample.insert (s.row (sampleHeader c.sample) c) } := by
  unfold Store.record unpackFrom
  by_cases hl : c.sample.length < HK_HEADER_BYTES
  · rw [if_pos hl]
    constructor
    · intro h
      exact absurd h (by simp)
    · intro h
      omega
  · rw [if_neg hl]
    dsimp only
    by_cases hn : c.node < SQL_INTEGER_LIMIT ∧ c.receivedMs < SQL_INTEGER_LIMIT
    · rw [if_pos hn, Except.ok.injEq]
      exact ⟨fun h => ⟨by omega, hn.1, hn.2, h.symm⟩, fun h => h.2.2.2.symm⟩
    · rw [if_neg hn]
      constructor
      · intro h
        exact absurd h (by simp)
      · intro h
        exact absurd ⟨h.2.1, h.2.2.1⟩ hn

/-! ## §3. Runs. -/

/-- A call on the store: open it (again), or record a reception. -/
inductive StoreCall where
  | init (document : Option String) (nowMs : Nat)
  | record (call : RecordCall)
  deriving DecidableEq

/-- A database file and the `Store` open on it, if any. -/
structure StoreFile where
  db : Database
  store : Option Store

def StoreFile.new : StoreFile := ⟨Database.empty, none⟩

/-- One call.  One that raises leaves the tables as they are; its output is the reception that
was recorded. -/
def StoreFile.step (sha256 : String → String) (f : StoreFile) :
    StoreCall → StoreFile × Option RecordCall
  | .init document nowMs =>
    match Store.init sha256 f.db document nowMs with
    | .ok (db, s) => (⟨db, some s⟩, none)
    | .error _ => (⟨f.db, none⟩, none)
  | .record c =>
    match f.store with
    | none => (f, none)
    | some s =>
      match s.record f.db c with
      | .ok db => (⟨db, some s⟩, some c)
      | .error _ => (f, none)

/-- A run of calls; its outputs are the receptions recorded, in order. -/
def storeReader (sha256 : String → String) : Reader StoreFile StoreCall RecordCall :=
  ⟨StoreFile.step sha256⟩

/-- The series a row belongs to. -/
def SampleRow.series (r : SampleRow) : Nat × Nat := (r.node, r.report)

/-- The series a reception belongs to. -/
def RecordCall.series (c : RecordCall) : Nat × Nat := (c.node, (sampleHeader c.sample).report)

def RecordCall.sequence (c : RecordCall) : Nat := (sampleHeader c.sample).sequence

/-- Opening a store touches no sample. -/
theorem init_sample {sha256 : String → String} {db db' : Database} {document : Option String}
    {nowMs : Nat} {s : Store} (h : Store.init sha256 db document nowMs = .ok (db', s)) :
    db'.sample = db.sample := by
  -- no document, an empty one, one that is known, one that is new
  unfold Store.init at h
  split at h
  · injection h with h
    rw [← (Prod.mk.inj h).1]
  · split at h
    · injection h with h
      rw [← (Prod.mk.inj h).1]
    · split at h
      · rename_i db'' id hdef
        injection h with h
        rw [← (Prod.mk.inj h).1]
        rcases definitionOf_ok hdef with ⟨rfl, _⟩ | ⟨_, _, hsample, _⟩
        · rfl
        · exact hsample
      · exact absurd h (by simp)

/-- One call adds the row of the reception it recorded. -/
theorem step_contents (sha256 : String → String) (f : StoreFile) (call : StoreCall) :
    ((f.step sha256 call).1.db.sample.contents.map fun r => (r.series, r.sequence))
      = (f.db.sample.contents.map fun r => (r.series, r.sequence))
        ++ (f.step sha256 call).2.toList.map fun c => (c.series, c.sequence) := by
  cases call with
  | init document nowMs =>
    unfold StoreFile.step
    dsimp only
    split
    · rename_i db s h
      dsimp only
      rw [init_sample h]
      simp
    · simp
  | record c =>
    unfold StoreFile.step
    dsimp only
    split
    · simp
    · rename_i s _
      split
      · rename_i db h
        obtain ⟨_, _, _, rfl⟩ := (record_ok_iff _ _ _ _).mp h
        dsimp only
        rw [Table.contents_insert, List.map_append]
        rfl
      · simp

/-- **The rows of a run** are those there were before and the receptions recorded, in order. -/
theorem run_contents (sha256 : String → String) (f : StoreFile) (calls : List StoreCall) :
    (((storeReader sha256).run f calls).1.db.sample.contents.map fun r => (r.series, r.sequence))
      = (f.db.sample.contents.map fun r => (r.series, r.sequence))
        ++ ((storeReader sha256).run f calls).2.map fun c => (c.series, c.sequence) := by
  -- each call adds behind what the calls before it left
  induction calls generalizing f with
  | nil => simp
  | cons call calls ih =>
    rw [Reader.run_cons]
    have hstep := step_contents sha256 f call
    rw [ih ((storeReader sha256).step f call).1, List.map_append, ← List.append_assoc]
    exact congrArg (· ++ _) hstep

/-! ## §4. The gap view. -/

/-- `(next_sequence - sequence - 1 + 65536) % 65536`, with SQL's remainder. -/
def missing (sequence nextSequence : Nat) : Int :=
  ((nextSequence : Int) - sequence - 1 + 65536).tmod 65536

/-- A row of the view `gap`. -/
structure GapRow where
  node : Nat
  report : Nat
  afterSequence : Nat
  beforeSequence : Nat
  missing : Int
  deriving DecidableEq

/-- The view's row for two neighbouring sequence numbers; none where nothing is missing. -/
def gapRow (node report : Nat) (p : Nat × Nat) : Option GapRow :=
  if missing p.1 p.2 ≠ 0 then some ⟨node, report, p.1, p.2, missing p.1 p.2⟩ else none

/-- The view `gap`. -/
def gap (db : Database) : List GapRow :=
  (lead SampleRow.series db.sample.contents).filterMap fun e =>
    match e.2 with
    | none => none
    | some next => gapRow e.1.node e.1.report (e.1.sequence, next.sequence)

/-- The view's rows for one series. -/
def gapOf (db : Database) (node report : Nat) : List GapRow :=
  (gap db).filter fun g => decide ((g.node, g.report) = (node, report))

/-- The sequence numbers of one series among receptions, in order of reception. -/
def sequencesOf (recorded : List RecordCall) (node report : Nat) : List Nat :=
  (partition RecordCall.series (node, report) recorded).map RecordCall.sequence

/-- The rows of one series in the view come from the rows of that series in the window. -/
theorem gapOf_eq (db : Database) (node report : Nat) :
    gapOf db node report
      = (pairs ((partition SampleRow.series (node, report) db.sample.contents).map
          SampleRow.sequence)).filterMap (gapRow node report) := by
  rw [pairs_map, ← lead_partition, List.filterMap_map, List.filterMap_filterMap, gapOf, gap,
    List.filter_filterMap, List.filterMap_filter]
  -- row by row: a neighbour of another series leaves nothing behind the filter
  apply List.filterMap_congr
  intro t _
  obtain ⟨r, next⟩ := t
  cases next with
  | none => simp
  | some next =>
    by_cases hs : r.series = (node, report)
    · obtain ⟨rfl, rfl⟩ := Prod.mk.inj hs
      simp only [Option.map_some, Option.bind_some, hs, decide_true, if_true, Function.comp]
      rw [gapRow]
      split <;> simp
    · simp only [hs, decide_false, Bool.false_eq_true, if_false]
      rw [gapRow]
      split
      · rw [Option.filter_some]
        exact if_neg fun h => hs (of_decide_eq_true h)
      · rfl

/-- **The gap view after a run**: the rows of one series are those of the neighbouring
receptions of that series. -/
theorem gapOf_run (sha256 : String → String) (calls : List StoreCall) (node report : Nat) :
    gapOf ((storeReader sha256).run StoreFile.new calls).1.db node report
      = (pairs (sequencesOf ((storeReader sha256).run StoreFile.new calls).2 node report)).filterMap
          (gapRow node report) := by
  have hrun := run_contents sha256 StoreFile.new calls
  have hseries := congrArg (fun l => (l.filter fun e : (Nat × Nat) × Nat =>
    decide (e.1 = (node, report))).map Prod.snd) hrun
  simp only [StoreFile.new, Database.empty, Table.contents_empty, List.map_nil, List.nil_append,
    List.filter_map, List.map_map] at hseries
  rw [gapOf_eq]
  congr 2

end KFsw.Ground
