/-
  KFsw.Ground.Definitions — which definition a stored sample points at.

  A database file is used by one `Store` after another, each opened with a
  report document or without one.  `Session` is one such use.  `Archive` ties
  the tables to the sessions so far: the digests are those of the documents,
  a document has the time of the session that brought it, and every sample row
  points at the document its session was opened with.

  Main results:
    * `step_keeps`            — a call only adds rows behind those there are;
    * `archive_session`       — a session keeps the archive in order;
    * `definitions_in_force`  — so does any sequence of sessions.
-/
import KFsw.Ground.Store
import Mathlib.Data.List.Nodup
import Mathlib.Logic.Equiv.Basic

namespace KFsw.Ground

open KFsw.Lib

/-! ## §1. Sessions. -/

/-- One use of the store: how it is opened, and what it is asked to record. -/
structure Session where
  document : Option String
  nowMs : Nat
  records : List RecordCall
  notEmpty : document ≠ some ""

/-- The calls of a session. -/
def Session.calls (s : Session) : List StoreCall :=
  .init s.document s.nowMs :: s.records.map .record

/-- The time at which the first session with this document opened the store.  One whose clock
SQLite cannot store does not open it. -/
def firstSeen (sessions : List Session) (document : String) : Option Nat :=
  (sessions.find? fun s =>
    decide (s.document = some document) && decide (s.nowMs < SQL_INTEGER_LIMIT)).map Session.nowMs

/-- The receptions recorded, each with the document of its session. -/
def received (sessions : List Session) (recorded : List (List RecordCall)) :
    List (Option String × RecordCall) :=
  (sessions.zip recorded).flatMap fun e => e.2.map fun c => (e.1.document, c)

/-- A reference to the row of exactly this document; none for no document. -/
def PointsAt (db : Database) (definition : Option Nat) : Option String → Prop
  | none => definition = none
  | some document =>
    ∃ id row, definition = some id ∧ (id, row) ∈ db.definition.rows ∧ row.document = document

/-- A row that records this reception, under the document of its session. -/
def RecordedUnder (db : Database) (row : SampleRow) (e : Option String × RecordCall) : Prop :=
  row = Store.row ⟨row.definition⟩ (sampleHeader e.2.sample) e.2 ∧ PointsAt db row.definition e.1

/-! ## §2. Rows stay. -/

/-- Every row of `db` is still there, behind it at most new ones. -/
structure Keeps (db db' : Database) : Prop where
  definition : db.definition.rows <+: db'.definition.rows
  sample : db.sample.rows <+: db'.sample.rows

theorem Keeps.refl (db : Database) : Keeps db db := ⟨List.prefix_rfl, List.prefix_rfl⟩

theorem Keeps.trans {db db' db'' : Database} (h : Keeps db db') (h' : Keeps db' db'') :
    Keeps db db'' :=
  ⟨h.definition.trans h'.definition, h.sample.trans h'.sample⟩

theorem init_keeps {sha256 : String → String} {db db' : Database} {document : Option String}
    {nowMs : Nat} {s : Store} (h : Store.init sha256 db document nowMs = .ok (db', s)) :
    Keeps db db' := by
  refine ⟨?_, init_sample h ▸ List.prefix_rfl⟩
  unfold Store.init at h
  split at h
  · exact (Prod.mk.inj (Except.ok.inj h)).1 ▸ List.prefix_rfl
  · split at h
    · exact (Prod.mk.inj (Except.ok.inj h)).1 ▸ List.prefix_rfl
    · split at h
      · rename_i db'' id hdef
        rw [← (Prod.mk.inj (Except.ok.inj h)).1]
        rcases definitionOf_ok hdef with ⟨rfl, _⟩ | ⟨_, _, _, _, hinsert⟩
        · exact List.prefix_rfl
        · rw [hinsert]
          exact List.prefix_append _ _
      · exact absurd h (by simp)

/-- **A call changes and removes no row.** -/
theorem step_keeps (sha256 : String → String) (f : StoreFile) (call : StoreCall) :
    Keeps f.db (f.step sha256 call).1.db := by
  unfold StoreFile.step
  split
  · split
    · rename_i h
      exact init_keeps h
    · exact Keeps.refl _
  · split
    · exact Keeps.refl _
    · split
      · rename_i h
        obtain ⟨_, _, _, rfl⟩ := (record_ok_iff _ _ _ _).mp h
        exact ⟨List.prefix_rfl, List.prefix_append _ _⟩
      · exact Keeps.refl _

/-- Neither does a run. -/
theorem run_keeps (sha256 : String → String) (f : StoreFile) (calls : List StoreCall) :
    Keeps f.db ((storeReader sha256).run f calls).1.db := by
  induction calls generalizing f with
  | nil => exact Keeps.refl _
  | cons call calls ih =>
    rw [Reader.run_cons]
    exact (step_keeps sha256 f call).trans (ih _)

theorem PointsAt.keeps {db db' : Database} (h : Keeps db db') {definition : Option Nat}
    {document : Option String} (hp : PointsAt db definition document) :
    PointsAt db' definition document := by
  cases document with
  | none => exact hp
  | some document =>
    obtain ⟨id, row, hid, hrow, hdocument⟩ := hp
    exact ⟨id, row, hid, h.definition.subset hrow, hdocument⟩

/-! ## §3. The tables after some sessions. -/

/-- The tables hold what these sessions have put into them. -/
structure Archive (sha256 : String → String) (sessions : List Session)
    (recorded : List (List RecordCall)) (db : Database) : Prop where
  /-- Every session has its list of receptions. -/
  sessions_length : sessions.length = recorded.length
  digests : ∀ row ∈ db.definition.contents, row.digest = sha256 row.document
  seen : ∀ document ms,
    (∃ row ∈ db.definition.contents, row.document = document ∧ row.firstSeenMs = ms)
      ↔ firstSeen sessions document = some ms
  rows : List.Forall₂ (RecordedUnder db) db.sample.contents (received sessions recorded)

theorem archive_new (sha256 : String → String) : Archive sha256 [] [] Database.empty :=
  ⟨rfl, by simp [Database.empty], by simp [Database.empty, firstSeen], List.Forall₂.nil⟩

/-- Nothing is recorded without an open store. -/
theorem records_closed (sha256 : String → String) (db : Database) (records : List RecordCall) :
    (storeReader sha256).run ⟨db, none⟩ (records.map .record) = (⟨db, none⟩, []) := by
  induction records with
  | nil => rfl
  | cons c records ih =>
    rw [List.map_cons, Reader.run_cons]
    show (((storeReader sha256).run ⟨db, none⟩ (records.map .record)).1,
      ((storeReader sha256).run ⟨db, none⟩ (records.map .record)).2) = _
    rw [ih]

/-- **The records of a session** add the rows of the receptions that were recorded, all with
the session's definition. -/
theorem records_open (sha256 : String → String) (db : Database) (s : Store)
    (records : List RecordCall) :
    let r := (storeReader sha256).run ⟨db, some s⟩ (records.map .record)
    r.1.db.definition = db.definition
      ∧ r.1.db.sample.contents
        = db.sample.contents ++ r.2.map fun c => s.row (sampleHeader c.sample) c := by
  induction records generalizing db with
  | nil => exact ⟨rfl, (List.append_nil _).symm⟩
  | cons c records ih =>
    intro r
    have hrun : r = _ := Reader.run_cons _ _ _ _
    cases hrecord : s.record db c with
    | error e =>
      -- the call raised, and the rest goes on as if it had not been made
      have hstep : (storeReader sha256).step ⟨db, some s⟩ (.record c) = (⟨db, some s⟩, none) := by
        show StoreFile.step sha256 ⟨db, some s⟩ (.record c) = _
        simp only [StoreFile.step, hrecord]
      rw [hstep] at hrun
      rw [hrun]
      exact ih db
    | ok db' =>
      have hstep : (storeReader sha256).step ⟨db, some s⟩ (.record c)
          = (⟨db', some s⟩, some c) := by
        show StoreFile.step sha256 ⟨db, some s⟩ (.record c) = _
        simp only [StoreFile.step, hrecord]
      obtain ⟨_, _, _, rfl⟩ := (record_ok_iff _ _ _ _).mp hrecord
      obtain ⟨hdef, hrows⟩ := ih { db with sample := db.sample.insert (s.row (sampleHeader c.sample) c) }
      rw [hstep] at hrun
      rw [hrun]
      refine ⟨hdef, ?_⟩
      show _ = db.sample.contents ++ (c :: _).map _
      rw [hrows, Table.contents_insert, List.append_assoc]
      rfl

/-- Opening one more session. -/
theorem firstSeen_append (sessions : List Session) (s : Session) (document : String) :
    firstSeen (sessions ++ [s]) document
      = (firstSeen sessions document).or
          (if s.document = some document ∧ s.nowMs < SQL_INTEGER_LIMIT then some s.nowMs else none) := by
  unfold firstSeen
  rw [List.find?_append, Option.map_or]
  congr 1
  by_cases h : s.document = some document ∧ s.nowMs < SQL_INTEGER_LIMIT
  · rw [if_pos h, List.find?_cons_of_pos (by simpa using h)]
    rfl
  · rw [if_neg h, List.find?_cons_of_neg (by simpa using h)]
    rfl

/-- A session that brings no document of its own leaves the times as they are. -/
theorem firstSeen_append_of_not (sessions : List Session) (s : Session) (document : String)
    (h : s.document = some document → s.nowMs < SQL_INTEGER_LIMIT →
      (firstSeen sessions document).isSome) :
    firstSeen (sessions ++ [s]) document = firstSeen sessions document := by
  rw [firstSeen_append]
  by_cases hs : s.document = some document ∧ s.nowMs < SQL_INTEGER_LIMIT
  · obtain ⟨ms, hms⟩ := Option.isSome_iff_exists.mp (h hs.1 hs.2)
    rw [hms]
    rfl
  · rw [if_neg hs, Option.or_none]

/-- What opening a session leaves behind: the definitions are those of the sessions so far,
the samples are untouched, and a store that is open refers to its document. -/
structure Opened (sha256 : String → String) (sessions : List Session) (s : Session)
    (db : Database) (f : StoreFile) : Prop where
  keeps : Keeps db f.db
  sample : f.db.sample = db.sample
  digests : ∀ row ∈ f.db.definition.contents, row.digest = sha256 row.document
  seen : ∀ document ms,
    (∃ row ∈ f.db.definition.contents, row.document = document ∧ row.firstSeenMs = ms)
      ↔ firstSeen (sessions ++ [s]) document = some ms
  points : ∀ store, f.store = some store → PointsAt f.db store.definition s.document

/-- A session that adds no definition. -/
theorem opened_same {sha256 : String → String} {sessions : List Session}
    {recorded : List (List RecordCall)} {db : Database} (h : Archive sha256 sessions recorded db)
    {s : Session} {store : Option Store}
    (hknown : ∀ document, s.document = some document → s.nowMs < SQL_INTEGER_LIMIT →
      (firstSeen sessions document).isSome)
    (hpoints : ∀ st, store = some st → PointsAt db st.definition s.document) :
    Opened sha256 sessions s db ⟨db, store⟩ := by
  refine ⟨Keeps.refl _, rfl, h.digests, fun document ms => ?_, hpoints⟩
  rw [firstSeen_append_of_not sessions s document (hknown document)]
  exact h.seen document ms

/-- **The first use of a document** adds its time, and no other. -/
theorem seen_insert {sha256 : String → String} {sessions : List Session}
    {recorded : List (List RecordCall)} {db : Database} (h : Archive sha256 sessions recorded db)
    {s : Session} {document : String} (hdocument : s.document = some document)
    (hnow : s.nowMs < SQL_INTEGER_LIMIT)
    (hnew : ∀ row ∈ db.definition.contents, row.digest ≠ sha256 document)
    (document' : String) (ms : Nat) :
    (∃ row ∈ db.definition.contents ++ [⟨sha256 document, document, s.nowMs⟩],
        row.document = document' ∧ row.firstSeenMs = ms)
      ↔ firstSeen (sessions ++ [s]) document' = some ms := by
  have hrows : (∃ row ∈ db.definition.contents ++ [⟨sha256 document, document, s.nowMs⟩],
        row.document = document' ∧ row.firstSeenMs = ms)
      ↔ firstSeen sessions document' = some ms ∨ (document = document' ∧ s.nowMs = ms) := by
    rw [← h.seen]
    simp only [List.mem_append, List.mem_singleton, or_and_right, exists_or, exists_eq_left]
  rw [hrows, firstSeen_append, hdocument]
  by_cases hsame : document = document'
  · subst hsame
    -- no session has brought the document before
    have hunseen : firstSeen sessions document = none := by
      by_contra hseen
      obtain ⟨ms', hms'⟩ := Option.ne_none_iff_exists'.mp hseen
      obtain ⟨row, hrow, hrow_document, _⟩ := (h.seen document ms').mpr hms'
      exact hnew row hrow (by rw [h.digests row hrow, hrow_document])
    rw [hunseen, if_pos ⟨rfl, hnow⟩]
    simp
  · rw [if_neg fun e => hsame (Option.some.inj e.1), Option.or_none]
    simp [hsame]

/-- **Opening a session.** -/
theorem archive_init {sha256 : String → String} (hsha : Function.Injective sha256)
    {sessions : List Session} {recorded : List (List RecordCall)} {f : StoreFile}
    (h : Archive sha256 sessions recorded f.db) (s : Session) :
    Opened sha256 sessions s f.db (f.step sha256 (.init s.document s.nowMs)).1 := by
  have hkeeps := step_keeps sha256 f (.init s.document s.nowMs)
  cases hdocument : s.document with
  | none =>
    have hstep : (f.step sha256 (.init s.document s.nowMs)).1 = ⟨f.db, some ⟨none⟩⟩ := by
      rw [hdocument]
      rfl
    rw [← hdocument, hstep]
    refine opened_same h (fun document hd => ?_) fun store hstore => ?_
    · rw [hdocument] at hd
      exact absurd hd (by simp)
    · rw [hdocument, ← Option.some.inj hstore]
      exact rfl
  | some document =>
    have hne : document ≠ "" := fun e => s.notEmpty (by rw [hdocument, e])
    cases hdef : f.db.definitionOf sha256 document s.nowMs with
    | error e =>
      have hstep : (f.step sha256 (.init s.document s.nowMs)).1 = ⟨f.db, none⟩ := by
        simp only [StoreFile.step, Store.init, hdocument, if_neg hne, hdef]
      rw [← hdocument, hstep]
      exact opened_same h (fun _ _ hnow => absurd hnow (definitionOf_error hdef))
        fun _ hstore => absurd hstore (by simp)
    | ok r =>
      obtain ⟨db', id⟩ := r
      have hstep : (f.step sha256 (.init s.document s.nowMs)).1 = ⟨db', some ⟨some id⟩⟩ := by
        simp only [StoreFile.step, Store.init, hdocument, if_neg hne, hdef]
      rw [hstep] at hkeeps
      rw [← hdocument, hstep]
      rcases definitionOf_ok hdef with ⟨rfl, row, hrow, hdigest⟩ | ⟨hnow, hnew, hsample, hid, hinsert⟩
      · -- the digest is that of the row's own document, so this is the document's row
        have hmem : row ∈ f.db.definition.contents := List.mem_map_of_mem hrow
        have hsame : row.document = document := by
          apply hsha
          rw [← h.digests row hmem, hdigest]
        refine opened_same h (fun document' hd _ => ?_) fun store hstore => ?_
        · have heq : document = document' := Option.some.inj (hdocument.symm.trans hd)
          rw [(h.seen document' row.firstSeenMs).mp ⟨row, hmem, hsame.trans heq, rfl⟩]
          rfl
        · rw [hdocument, ← Option.some.inj hstore]
          exact ⟨id, row, rfl, hrow, hsame⟩
      · have hcontents : db'.definition.contents
            = f.db.definition.contents ++ [⟨sha256 document, document, s.nowMs⟩] := by
          rw [hinsert, Table.contents_insert]
        refine ⟨hkeeps, hsample, fun row hrow => ?_, ?_, fun store hstore => ?_⟩
        · rw [hcontents] at hrow
          rcases List.mem_append.mp hrow with hrow | hrow
          · exact h.digests row hrow
          · rw [List.mem_singleton.mp hrow]
        · rw [hcontents]
          exact seen_insert h hdocument hnow hnew
        · rw [hdocument, ← Option.some.inj hstore]
          refine ⟨id, ⟨sha256 document, document, s.nowMs⟩, rfl, ?_, rfl⟩
          show _ ∈ db'.definition.rows
          rw [hinsert, hid]
          exact List.mem_append_right _ (List.mem_singleton_self _)

/-- **The new rows of a session**, whether its store opened or not: each has the definition of
the open store. -/
theorem records_session (sha256 : String → String) {f : StoreFile} {document : Option String}
    (hpoints : ∀ store, f.store = some store → PointsAt f.db store.definition document)
    (records : List RecordCall) :
    let r := (storeReader sha256).run f (records.map .record)
    r.1.db.definition = f.db.definition
      ∧ ∃ rows, r.1.db.sample.contents = f.db.sample.contents ++ rows
        ∧ List.Forall₂ (RecordedUnder f.db) rows (r.2.map fun c => (document, c)) := by
  obtain ⟨db, store⟩ := f
  cases store with
  | none =>
    rw [records_closed]
    exact ⟨rfl, [], (List.append_nil _).symm, List.Forall₂.nil⟩
  | some store =>
    obtain ⟨hdef, hrows⟩ := records_open sha256 db store records
    refine ⟨hdef, _, hrows, ?_⟩
    rw [List.forall₂_map_left_iff, List.forall₂_map_right_iff, List.forall₂_same]
    intro c _
    exact ⟨rfl, hpoints store rfl⟩

/-- **A session** keeps the archive in order. -/
theorem archive_session {sha256 : String → String} (hsha : Function.Injective sha256)
    {sessions : List Session} {recorded : List (List RecordCall)} {f : StoreFile}
    (h : Archive sha256 sessions recorded f.db) (s : Session) :
    let r := (storeReader sha256).run f s.calls
    Archive sha256 (sessions ++ [s]) (recorded ++ [r.2]) r.1.db := by
  intro r
  have hopened := archive_init hsha h s
  have hsilent : (f.step sha256 (.init s.document s.nowMs)).2 = none := by
    unfold StoreFile.step
    dsimp only
    split <;> rfl
  have hrun : r = (storeReader sha256).run (f.step sha256 (.init s.document s.nowMs)).1
      (s.records.map .record) := by
    show (storeReader sha256).run f (.init s.document s.nowMs :: s.records.map .record) = _
    rw [Reader.run_cons]
    show (_, (f.step sha256 (.init s.document s.nowMs)).2.toList ++ _) = _
    rw [hsilent]
    rfl
  generalize (f.step sha256 (.init s.document s.nowMs)).1 = f' at hopened hrun
  -- what was recorded before still points where it did
  have hold : List.Forall₂ (RecordedUnder f'.db) f.db.sample.contents (received sessions recorded) :=
    h.rows.imp fun row e he => ⟨he.1, he.2.keeps hopened.keeps⟩
  have hreceived : received (sessions ++ [s]) (recorded ++ [r.2])
      = received sessions recorded ++ r.2.map fun c => (s.document, c) := by
    unfold received
    rw [List.zip_append h.sessions_length, List.flatMap_append]
    simp
  obtain ⟨hdef, rows, hcontents, hnew⟩ := records_session sha256 hopened.points s.records
  rw [← hrun, hopened.sample] at hcontents
  rw [← hrun] at hdef hnew
  refine ⟨?_, ?_, ?_, ?_⟩
  · rw [List.length_append, List.length_append, h.sessions_length]
    rfl
  · rw [hdef]
    exact hopened.digests
  · rw [hdef]
    exact hopened.seen
  · rw [hreceived, hcontents]
    apply (List.rel_append hold hnew).imp
    intro row e he
    refine ⟨he.1, ?_⟩
    unfold PointsAt
    rw [hdef]
    exact he.2

/-- So does any sequence of sessions. -/
theorem archive_sessions {sha256 : String → String} (hsha : Function.Injective sha256)
    {before : List Session} {recorded : List (List RecordCall)} {f : StoreFile}
    (h : Archive sha256 before recorded f.db) (sessions : List Session) :
    Archive sha256 (before ++ sessions)
      (recorded ++ ((storeReader sha256).runChunks f (sessions.map Session.calls)).2)
      ((storeReader sha256).runChunks f (sessions.map Session.calls)).1.db := by
  induction sessions generalizing before recorded f with
  | nil =>
    show Archive sha256 (before ++ []) (recorded ++ []) f.db
    rw [List.append_nil, List.append_nil]
    exact h
  | cons s sessions ih =>
    have hrest := ih (archive_session hsha h s)
    rw [List.append_assoc, List.append_assoc] at hrest
    exact hrest

/-! ## §4. Any sequence of sessions. -/

/-- **A stored sample points at the definition that was in force**: over any sequence of
sessions, the sample rows are the receptions recorded, each with a reference to the row of
exactly its session's document, none for a session without one; each document has one row, with
the time of the first session that used it; and no call changes or removes a row. -/
theorem definitions_in_force (sha256 : String → String) (hsha : Function.Injective sha256)
    (sessions : List Session) :
    let r := (storeReader sha256).runChunks StoreFile.new (sessions.map Session.calls)
    List.Forall₂ (RecordedUnder r.1.db) r.1.db.sample.contents (received sessions r.2)
      ∧ (r.1.db.definition.contents.map DefinitionRow.document).Nodup
      ∧ (∀ document ms,
          (∃ row ∈ r.1.db.definition.contents, row.document = document ∧ row.firstSeenMs = ms)
            ↔ firstSeen sessions document = some ms)
      ∧ ∀ earlier later, (sessions.map Session.calls).flatten = earlier ++ later →
          let f := ((storeReader sha256).run StoreFile.new earlier).1
          f.db.definition.rows <+: r.1.db.definition.rows
            ∧ f.db.sample.rows <+: r.1.db.sample.rows := by
  intro r
  have hnew : Archive sha256 [] [] StoreFile.new.db := archive_new sha256
  have harchive : Archive sha256 sessions r.2 r.1.db := archive_sessions hsha hnew sessions
  refine ⟨harchive.rows, ?_, harchive.seen, ?_⟩
  · -- two rows of one document would have one digest
    have hunique := r.1.db.digest_unique
    have hdigests : r.1.db.definition.contents.map DefinitionRow.digest
        = (r.1.db.definition.contents.map DefinitionRow.document).map sha256 := by
      rw [List.map_map]
      exact List.map_congr_left harchive.digests
    rw [hdigests] at hunique
    exact List.Nodup.of_map sha256 hunique
  · intro earlier later hcalls f
    have hchunks := (storeReader sha256).runChunks_flatten StoreFile.new (sessions.map Session.calls)
    rw [hcalls, Reader.run_append] at hchunks
    have hfinal : r.1 = ((storeReader sha256).run f later).1 := congrArg Prod.fst hchunks
    have hkeeps := run_keeps sha256 f later
    rw [hfinal]
    exact ⟨hkeeps.definition, hkeeps.sample⟩

/-- A digest function that is the real one on two documents. -/
def twoDigests : Equiv.Perm String :=
  (Equiv.swap "[]" "4f53cda18c2baa0c0354bb5f9a3ecbe5ed12ab4d8e11ba873c2f11161202b945").trans
    (Equiv.swap "\x7b\x7d" "44136fa355b3678a1146ad16f7e8649e94fb4fc21fe77e8310c060f61caaff8a")

/-- Sessions that go from one document to another, back, and to none. -/
def switching : List Session :=
  [⟨some "\x7b\x7d", 100, [⟨1, [1, 0, 0, 7, 0, 0, 0, 1, 1, 0, 5], 101⟩], by decide⟩,
    ⟨some "[]", 200, [⟨1, [1, 0, 0, 8, 0, 0, 0, 2, 1, 0, 5], 201⟩], by decide⟩,
    ⟨some "\x7b\x7d", 300, [⟨1, [1, 0, 0, 9, 0, 0, 0, 3, 1, 0, 5], 301⟩], by decide⟩,
    ⟨none, 400, [⟨1, [1, 0, 0, 10, 0, 0, 0, 4, 1, 0, 5], 401⟩], by decide⟩]

/-- The document used twice has one row, with the time of its first session. -/
theorem definitions_in_force_switching :
    let db := ((storeReader twoDigests).runChunks StoreFile.new (switching.map Session.calls)).1.db
    (db.definition.contents.map DefinitionRow.document).Nodup
      ∧ ∃ row ∈ db.definition.contents, row.document = "\x7b\x7d" ∧ row.firstSeenMs = 100 := by
  intro db
  obtain ⟨-, hunique, hseen, -⟩ := definitions_in_force twoDigests twoDigests.injective switching
  exact ⟨hunique, (hseen "\x7b\x7d" 100).mpr (by decide)⟩

end KFsw.Ground
