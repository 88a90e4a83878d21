/-
  KFsw.Ground.Capture — captures of `tools/ground/hk-bridge.py`: the line `main`
  writes for a sample, `read_capture`, and what `forward` does with a sample.

  A capture is a text of lines, one JSON record each.  `read_capture` reads a
  line of bounded length, parses it and checks its fields; it is a generator, so
  a record is passed on before the next line is read.  The texts of the errors
  of `json.loads` and `bytes.fromhex` are parameters.  The disk and the socket
  do not fail.

  Main results:
    * `readRecord_line`   — a written line is read back, with equal fields;
    * `line_length`       — and is within the reader's bound;
    * `readLines_prefix`  — a capture cut anywhere yields the records whose line
      is complete, and fails exactly inside a line;
    * `replay_live`       — replaying what a live run wrote forwards the same.
-/
import KFsw.Ground.Store
import KFsw.Lib.PyHex

namespace KFsw.Ground

open KFsw.Lib

/-! ## §1. The record. -/

def CAPTURE_LINE_MAX : Nat := 1024

def captureRecord (c : RecordCall) : List (Str × Json) :=
  [("version".toList, .int 1), ("node".toList, .int c.node),
   ("received_ms".toList, .int c.receivedMs), ("sample".toList, .str (hex c.sample))]

/-- `json.dumps(capture_record(node, sample, received_ms)) + "\n"`. -/
def captureLine (c : RecordCall) : Str := Json.dumps (.obj (captureRecord c)) ++ ['\n']

/-- The text of a capture. -/
def captureText (records : List RecordCall) : Str := records.flatMap captureLine

/-! ## §2. `read_capture`. -/

/-- `stream.readline(limit)`: up to a newline, but no more than `limit` characters. -/
def readline : Nat → Str → Str × Str
  | 0, s => ([], s)
  | _ + 1, [] => ([], [])
  | limit + 1, c :: rest =>
    if c = '\n' then ([c], rest) else (c :: (readline limit rest).1, (readline limit rest).2)

/-- The integer of a field; `type(..) is not int` leaves out a `bool`. -/
def intField (record : List (Str × Json)) (key : String) : Option Int :=
  match Json.get record key.toList with
  | some (.int n) => some n
  | _ => none

/-- The integer of a field from zero up to a limit. -/
def boundedField (record : List (Str × Json)) (key : String) (limit : Nat) : Option Nat :=
  (intField record key).bind fun n => if 0 ≤ n ∧ n < limit then some n.toNat else none

section Texts

-- the messages of `JSONDecodeError` and of `bytes.fromhex`
variable (jsonError fromhexError : Str → String)

/-- `bytes.fromhex` and `validate_sample` of the field `sample`. -/
def sampleField (record : List (Str × Json)) : Except PyError Bytes :=
  match Json.get record "sample".toList with
  | some (.str text) =>
    match fromHex text with
    | none => .error (.valueError (fromhexError text))
    | some sample =>
      match validateSample sample with
      | .error e => .error e
      | .ok () => .ok sample
  | _ => .error (.valueError "sample must be hexadecimal text")

/-- One line: the body of the `try`. -/
def readRecord (v : CspVersion) (line : Str) : Except PyError RecordCall :=
  if line.length > CAPTURE_LINE_MAX ∨ line.getLast? ≠ some '\n' then
    .error (.valueError "oversized or truncated record")
  else
    match Json.loads line with
    | none => .error (.valueError (jsonError line))
    | some (.obj record) =>
      if Json.sameKeys record ["version".toList, "node".toList, "received_ms".toList,
          "sample".toList] = false then
        .error (.valueError "invalid capture fields")
      else if intField record "version" ≠ some 1 then
        .error (.valueError "unsupported capture version")
      else
        match boundedField record "node" (cspMaxNode v + 1),
          boundedField record "received_ms" (2 ^ 64) with
        | none, _ => .error (.valueError "invalid source node")
        | some _, none => .error (.valueError "invalid receipt time")
        | some node, some receivedMs =>
          (sampleField fromhexError record).map fun sample => ⟨node, sample, receivedMs⟩
    | some _ => .error (.valueError "invalid capture fields")

/-- The text of an exception. -/
def PyError.message : PyError → String
  | .valueError m | .structError m | .overflowError m | .timeoutError m => m

/-- `except (ValueError, TypeError)`: the line's number is put in front. -/
def wrapError (lineNumber : Nat) : PyError → PyError
  | .valueError m => .valueError ("capture line " ++ toString lineNumber ++ ": " ++ m)
  | e => e

/-- What `readline` reads and what it leaves is the stream. -/
theorem readline_append (limit : Nat) (s : Str) :
    (readline limit s).1 ++ (readline limit s).2 = s := by
  induction limit generalizing s with
  | zero => rfl
  | succ limit ih =>
    cases s with
    | nil => rfl
    | cons c rest =>
      rw [readline]
      split
      · rfl
      · show c :: ((readline limit rest).1 ++ (readline limit rest).2) = _
        rw [ih]

/-- A line that was read leaves less of the stream. -/
theorem readline_length {limit : Nat} {s : Str} (h : (readline limit s).1 ≠ []) :
    (readline limit s).2.length < s.length := by
  have hlength := congrArg List.length (readline_append limit s)
  have hpos := List.length_pos_iff.mpr h
  rw [List.length_append] at hlength
  omega

/-- `while line := stream.readline(CAPTURE_LINE_MAX + 1)`, after some lines: the records it
yields, and the exception that ends it. -/
def readLines (v : CspVersion) (lineNumber : Nat) (stream : Str) :
    List RecordCall × Option PyError :=
  if h : (readline (CAPTURE_LINE_MAX + 1) stream).1 = [] then ([], none)
  else
    match readRecord jsonError fromhexError v (readline (CAPTURE_LINE_MAX + 1) stream).1 with
    | .error e => ([], some (wrapError (lineNumber + 1) e))
    | .ok c =>
      have := readline_length h
      let r := readLines v (lineNumber + 1) (readline (CAPTURE_LINE_MAX + 1) stream).2
      (c :: r.1, r.2)
termination_by stream.length

def readCapture (v : CspVersion) (stream : Str) : List RecordCall × Option PyError :=
  readLines jsonError fromhexError v 0 stream

end Texts

/-! ## §3. `forward`, live and in a replay. -/

/-- What a run has done: the database after it, the lines it printed, the datagrams it sent to
Yamcs, and the exception that ended it. -/
structure Effects where
  db : Database
  printed : List String
  sent : List Bytes
  raised : Option PyError

/-- What a run does when something came before it. -/
def Effects.after (e before : Effects) : Effects :=
  { e with printed := before.printed ++ e.printed, sent := before.sent ++ e.sent }

section Forward

-- the store of `--store`, and whether `--yamcs` names a link
variable (store : Option Store) (sink : Bool)

/-- `store.record`, if there is a store. -/
def recordIn (db : Database) (c : RecordCall) : Except PyError Database :=
  match store with
  | some s => s.record db c
  | none => .ok db

/-- The end of `forward`: the datagram to Yamcs, or the sample as text. -/
def deliver (c : RecordCall) : Except PyError (List String × List Bytes) :=
  if sink then (envelope c.sample c.receivedMs).map fun datagram => ([], [datagram])
  else .ok (["  " ++ String.ofList (hex c.sample)], [])

/-- `forward(sample, received_ms, node)`.  What it did before an exception stays done. -/
def forward (db : Database) (c : RecordCall) : Effects :=
  match describe c.sample with
  | .error e => ⟨db, [], [], some e⟩
  | .ok line =>
    match recordIn store db c with
    | .error e => ⟨db, [line], [], some e⟩
    | .ok db =>
      match deliver sink c with
      | .error e => ⟨db, [line], [], some e⟩
      | .ok out => ⟨db, line :: out.1, out.2, none⟩

/-- `forward` for one sample after the other, up to an exception. -/
def forwardAll (db : Database) : List RecordCall → Effects
  | [] => ⟨db, [], [], none⟩
  | c :: rest =>
    let e := forward store sink db c
    if e.raised = none then (forwardAll e.db rest).after e else e

/-- The text a live run writes to its capture: a line for each sample it accepts, before the
sample is forwarded. -/
def written (db : Database) : List RecordCall → Str
  | [] => []
  | c :: rest =>
    let e := forward store sink db c
    captureLine c ++ if e.raised = none then written e.db rest else []

/-- `main` with `--replay`: each record is forwarded before the next one is read. -/
def replay (jsonError fromhexError : Str → String) (v : CspVersion) (db : Database)
    (stream : Str) : Effects :=
  let r := readCapture jsonError fromhexError v stream
  let e := forwardAll store sink db r.1
  if e.raised = none then { e with raised := r.2 } else e

end Forward

/-! ## §4. One written line. -/

/-- A reception that fits its line: a node address, a sample that passes the check, and a receipt
time that fits 64 bits. -/
structure Capturable (v : CspVersion) (c : RecordCall) : Prop where
  node_le : c.node ≤ cspMaxNode v
  valid : validateSample c.sample = .ok ()
  time_lt : c.receivedMs < 2 ^ 64

instance (v : CspVersion) (c : RecordCall) : Decidable (Capturable v c) :=
  decidable_of_iff (c.node ≤ cspMaxNode v ∧ validateSample c.sample = .ok () ∧ c.receivedMs < 2 ^ 64)
    ⟨fun h => ⟨h.1, h.2.1, h.2.2⟩, fun h => ⟨h.1, h.2, h.3⟩⟩

theorem captureRecord_flat (c : RecordCall) :
    ∀ m ∈ captureRecord c, Json.Plain m.1 ∧ m.2.IsFlat := by
  have hkeys : Json.Plain "version".toList ∧ Json.Plain "node".toList
      ∧ Json.Plain "received_ms".toList ∧ Json.Plain "sample".toList := by decide +kernel
  obtain ⟨hversion, hnode, hms, hsample⟩ := hkeys
  unfold captureRecord
  simp only [List.forall_mem_cons]
  exact ⟨⟨hversion, trivial⟩, ⟨hnode, trivial⟩, ⟨hms, trivial⟩, ⟨hsample, hex_plain _⟩, by simp⟩

/-- The fixed texts of a line: before the address, before the time, before and after the
sample. -/
def beforeNode : Str := "\x7b\"version\": 1, \"node\": ".toList
def beforeTime : Str := ", \"received_ms\": ".toList
def beforeSample : Str := ", \"sample\": \"".toList
def afterSample : Str := "\"\x7d".toList

/-- The line up to its newline, piece by piece. -/
def lineBody (c : RecordCall) : Str :=
  beforeNode ++ (Nat.toDigits 10 c.node ++ (beforeTime ++ (Nat.toDigits 10 c.receivedMs
    ++ (beforeSample ++ (hex c.sample ++ afterSample)))))

theorem dumps_natCast (n : Nat) : Json.dumps (.int n) = Nat.toDigits 10 n := by
  show intText n = _
  rw [intText, if_neg (by omega), Int.natAbs_natCast]

theorem dumps_hex (data : Bytes) : Json.dumps (.str (hex data)) = '"' :: hex data ++ ['"'] :=
  Json.dumpsStr_plain (hex_plain data)

theorem captureLine_eq (c : RecordCall) : captureLine c = lineBody c ++ ['\n'] := by
  have hobj : Json.dumps (.obj (captureRecord c))
      = '\x7b' :: (Json.dumpsStr "version".toList ++ ": ".toList ++ Json.dumps (.int 1)
        ++ ", ".toList ++ (Json.dumpsStr "node".toList ++ ": ".toList ++ Json.dumps (.int c.node)
        ++ ", ".toList ++ (Json.dumpsStr "received_ms".toList ++ ": ".toList
        ++ Json.dumps (.int c.receivedMs) ++ ", ".toList ++ (Json.dumpsStr "sample".toList
        ++ ": ".toList ++ Json.dumps (.str (hex c.sample)))))) ++ ['\x7d'] := rfl
  have hone : Json.dumps (.int 1) = ['1'] := dumps_natCast 1
  have hnode : '\x7b' :: (Json.dumpsStr "version".toList ++ ": ".toList ++ ['1'] ++ ", ".toList
      ++ (Json.dumpsStr "node".toList ++ ": ".toList)) = beforeNode := by decide +kernel
  have htime : ", ".toList ++ (Json.dumpsStr "received_ms".toList ++ ": ".toList) = beforeTime := by
    decide +kernel
  have hsample : ", ".toList ++ (Json.dumpsStr "sample".toList ++ ": ".toList ++ ['"'])
      = beforeSample := by decide +kernel
  have hafter : ['"'] ++ ['\x7d'] = afterSample := by decide +kernel
  rw [captureLine, hobj, hone, dumps_natCast, dumps_natCast, dumps_hex, lineBody, ← hnode, ← htime,
    ← hsample, ← hafter]
  simp only [List.append_assoc, List.cons_append, List.nil_append]

/-- A number below a power of ten has that many digits. -/
theorem toDigits_length_le {n k : Nat} (hk : 0 < k) (h : n < 10 ^ k) :
    (Nat.toDigits 10 n).length ≤ k :=
  (Nat.length_toDigits_le_iff (by decide) hk).mpr h

/-- **A valid record is within the reader's bound**: the longest line has 561 characters. -/
theorem line_length {v : CspVersion} {c : RecordCall} (hc : Capturable v c) :
    (captureLine c).length ≤ 561 := by
  have hsample := ((validateSample_ok_iff c.sample).mp hc.valid).length_le
  have hmax : cspMaxNode v ≤ 16383 := by cases v <;> decide
  have hnode := hc.node_le
  have htime := hc.time_lt
  have hnodeLt : c.node < 10 ^ 5 := by omega
  have htimeLt : c.receivedMs < 10 ^ 20 := Nat.lt_trans htime (by norm_num)
  have h1 := toDigits_length_le (Nat.succ_pos 4) hnodeLt
  have h2 := toDigits_length_le (Nat.succ_pos 19) htimeLt
  unfold HK_SAMPLE_MAX at hsample
  rw [captureLine_eq, lineBody]
  simp only [List.length_append, hex_length]
  have hfixed : beforeNode.length = 23 ∧ beforeTime.length = 17 ∧ beforeSample.length = 13
      ∧ afterSample.length = 2 := by decide +kernel
  obtain ⟨hf1, hf2, hf3, hf4⟩ := hfixed
  rw [List.length_singleton]
  omega

/-- A line has one newline, its last character. -/
theorem newline_notMem_lineBody (c : RecordCall) : '\n' ∉ lineBody c := by
  have hdigits : ∀ n, '\n' ∉ Nat.toDigits 10 n := fun n h =>
    absurd (Json.isdigit_of_mem_toDigits h) (by decide)
  have hhex : '\n' ∉ hex c.sample := fun h => absurd (hex_plain _ _ h) (by decide)
  have hfixed : '\n' ∉ beforeNode ∧ '\n' ∉ beforeTime ∧ '\n' ∉ beforeSample
      ∧ '\n' ∉ afterSample := by decide +kernel
  obtain ⟨hf1, hf2, hf3, hf4⟩ := hfixed
  unfold lineBody
  simp only [List.mem_append, hdigits, hhex, hf1, hf2, hf3, hf4, or_self, not_false_eq_true]

section Reading

variable (jsonError fromhexError : Str → String) {v : CspVersion}

/-- **A written line is read back**, with equal fields. -/
theorem readRecord_line {c : RecordCall} (hc : Capturable v c) :
    readRecord jsonError fromhexError v (captureLine c) = .ok c := by
  have hlength := line_length hc
  have hnode := hc.node_le
  have htime := hc.time_lt
  have hlast : (captureLine c).getLast? = some '\n' := by
    rw [captureLine_eq, List.getLast?_concat]
  have hloads : Json.loads (captureLine c) = some (.obj (captureRecord c)) :=
    Json.loads_dumps_flat (List.cons_ne_nil _ _) (captureRecord_flat c) (by decide)
  have hversion : intField (captureRecord c) "version" = some 1 := rfl
  have hnodeField : intField (captureRecord c) "node" = some (c.node : Int) := rfl
  have htimeField : intField (captureRecord c) "received_ms" = some (c.receivedMs : Int) := rfl
  have hsample : sampleField fromhexError (captureRecord c) = .ok c.sample := by
    have hget : Json.get (captureRecord c) "sample".toList = some (.str (hex c.sample)) := rfl
    rw [sampleField, hget]
    dsimp only
    rw [fromHex_hex]
    dsimp only
    rw [hc.valid]
  rw [readRecord, if_neg (by rw [hlast]; unfold CAPTURE_LINE_MAX; simp; omega), hloads]
  dsimp only
  rw [if_neg (by exact Bool.noConfusion), if_neg (by rw [hversion]; simp), boundedField,
    boundedField, hnodeField, htimeField, Option.bind_some, Option.bind_some,
    if_pos ⟨by omega, by omega⟩, if_pos ⟨by omega, by omega⟩]
  dsimp only
  rw [hsample]
  rfl

/-! ## §5. A capture that is cut. -/

/-- A line is read up to its newline. -/
theorem readline_line {body : Str} (hbody : '\n' ∉ body) {limit : Nat} (h : body.length < limit)
    (rest : Str) : readline limit (body ++ '\n' :: rest) = (body ++ ['\n'], rest) := by
  induction body generalizing limit with
  | nil =>
    obtain ⟨limit, rfl⟩ := Nat.exists_eq_succ_of_ne_zero (Nat.ne_of_gt h)
    rw [List.nil_append, readline, if_pos rfl]
    rfl
  | cons c body ih =>
    rw [List.length_cons] at h
    obtain ⟨limit, rfl⟩ := Nat.exists_eq_succ_of_ne_zero (Nat.ne_of_gt (Nat.zero_lt_of_lt h))
    obtain ⟨hc, htail⟩ := List.ne_and_not_mem_of_not_mem_cons hbody
    rw [List.cons_append, readline, if_neg hc.symm, ih htail (by omega)]
    rfl

/-- Without a newline the rest of the stream is read. -/
theorem readline_cut {s : Str} (hs : '\n' ∉ s) {limit : Nat} (h : s.length ≤ limit) :
    readline limit s = (s, []) := by
  induction s generalizing limit with
  | nil => cases limit <;> rfl
  | cons c s ih =>
    rw [List.length_cons] at h
    obtain ⟨limit, rfl⟩ := Nat.exists_eq_succ_of_ne_zero (show limit ≠ 0 by omega)
    obtain ⟨hc, htail⟩ := List.ne_and_not_mem_of_not_mem_cons hs
    rw [readline, if_neg hc.symm, ih htail (by omega)]

/-- A text that ends in a line which its newline does not complete. -/
def EndsInsideLine (s : Str) : Prop := s ≠ [] ∧ s.getLast? ≠ some '\n'

/-- One turn of the loop. -/
theorem readLines_eq (lineNumber : Nat) {stream line rest : Str}
    (h : readline (CAPTURE_LINE_MAX + 1) stream = (line, rest)) :
    readLines jsonError fromhexError v lineNumber stream
      = if line = [] then ([], none)
        else match readRecord jsonError fromhexError v line with
          | .error e => ([], some (wrapError (lineNumber + 1) e))
          | .ok c =>
            (c :: (readLines jsonError fromhexError v (lineNumber + 1) rest).1,
              (readLines jsonError fromhexError v (lineNumber + 1) rest).2) := by
  obtain ⟨rfl, rfl⟩ := Prod.mk.inj h
  rw [readLines]
  rfl

theorem readLines_nil (lineNumber : Nat) :
    readLines jsonError fromhexError v lineNumber [] = ([], none) := by
  rw [readLines]
  rfl

/-- A complete line yields its record, and the reader goes on behind it. -/
theorem readLines_line {c : RecordCall} (hc : Capturable v c) (lineNumber : Nat) (rest : Str) :
    readLines jsonError fromhexError v lineNumber (captureLine c ++ rest)
      = (c :: (readLines jsonError fromhexError v (lineNumber + 1) rest).1,
        (readLines jsonError fromhexError v (lineNumber + 1) rest).2) := by
  have hlength := line_length hc
  have hread : readline (CAPTURE_LINE_MAX + 1) (captureLine c ++ rest) = (captureLine c, rest) := by
    rw [captureLine_eq, List.length_append, List.length_singleton] at hlength
    rw [captureLine_eq, List.append_assoc]
    apply readline_line (newline_notMem_lineBody c)
    unfold CAPTURE_LINE_MAX
    omega
  have hne : captureLine c ≠ [] := by
    rw [captureLine_eq]
    exact List.append_ne_nil_of_right_ne_nil _ (List.cons_ne_nil _ _)
  rw [readLines_eq jsonError fromhexError lineNumber hread, if_neg hne,
    readRecord_line jsonError fromhexError hc]

/-- A complete capture is read back whole. -/
theorem readLines_text {records : List RecordCall} (hr : ∀ c ∈ records, Capturable v c)
    (lineNumber : Nat) :
    readLines jsonError fromhexError v lineNumber (captureText records) = (records, none) := by
  induction records generalizing lineNumber with
  | nil => exact readLines_nil jsonError fromhexError lineNumber
  | cons c records ih =>
    obtain ⟨hc, htail⟩ := List.forall_mem_cons.mp hr
    show readLines jsonError fromhexError v lineNumber (captureLine c ++ captureText records) = _
    rw [readLines_line jsonError fromhexError hc, ih htail]

/-- The beginning of a line yields nothing and is refused. -/
theorem readLines_cut {s : Str} (hne : s ≠ []) (hs : '\n' ∉ s) (hlen : s.length ≤ CAPTURE_LINE_MAX)
    (lineNumber : Nat) :
    ∃ m, readLines jsonError fromhexError v lineNumber s = ([], some (.valueError m)) := by
  have hlast : s.getLast? ≠ some '\n' := fun h => hs (List.mem_of_getLast? h)
  have hread := readline_cut hs (Nat.le_succ_of_le hlen)
  have herror : readRecord jsonError fromhexError v s
      = .error (.valueError "oversized or truncated record") := if_pos (.inr hlast)
  rw [readLines_eq jsonError fromhexError lineNumber hread, if_neg hne, herror]
  exact ⟨_, rfl⟩

/-- The beginning of a line and of what follows it: within the line, or past it. -/
theorem cut_cases {p line rest : Str} (h : p <+: line ++ ['\n'] ++ rest) :
    (p <+: line) ∨ ∃ p', p = line ++ ['\n'] ++ p' ∧ p' <+: rest := by
  rw [List.append_assoc] at h
  rcases List.prefix_or_prefix_of_prefix h (List.prefix_append line _) with hp | hline
  · exact .inl hp
  · obtain ⟨q, rfl⟩ := hline
    rw [List.prefix_append_right_inj] at h
    cases q with
    | nil =>
      left
      rw [List.append_nil]
    | cons c q =>
      right
      obtain ⟨rfl, hq⟩ := List.cons_prefix_cons.mp h
      exact ⟨q, by simp, hq⟩

/-- **A capture cut anywhere** yields exactly the records whose line is complete, in order, and
fails with a `ValueError` exactly when the cut is inside a line. -/
theorem readLines_prefix {records : List RecordCall} (hr : ∀ c ∈ records, Capturable v c)
    {p : Str} (hp : p <+: captureText records) (lineNumber : Nat) :
    (readLines jsonError fromhexError v lineNumber p).1
        = within (fun c => (captureLine c).length) p.length records
      ∧ (EndsInsideLine p → ∃ m,
        (readLines jsonError fromhexError v lineNumber p).2 = some (.valueError m))
      ∧ (¬ EndsInsideLine p → (readLines jsonError fromhexError v lineNumber p).2 = none) := by
  -- line by line: a cut behind the first line is a cut of the rest
  induction records generalizing p lineNumber with
  | nil =>
    rw [List.prefix_nil.mp hp, readLines_nil]
    exact ⟨rfl, fun h => absurd rfl h.1, fun _ => rfl⟩
  | cons c records ih =>
    obtain ⟨hc, htail⟩ := List.forall_mem_cons.mp hr
    have hlength := line_length hc
    have htext : captureText (c :: records) = lineBody c ++ ['\n'] ++ captureText records := by
      rw [← captureLine_eq]
      rfl
    rw [htext] at hp
    rcases cut_cases hp with hcut | ⟨p', rfl, hp'⟩
    · have hs : '\n' ∉ p := fun h => newline_notMem_lineBody c (hcut.subset h)
      have hshort : p.length < (captureLine c).length := by
        rw [captureLine_eq, List.length_append, List.length_singleton]
        exact Nat.lt_succ_of_le hcut.length_le
      have hwithin : within (fun c => (captureLine c).length) p.length (c :: records) = [] := by
        rw [within, if_neg (by omega)]
      rw [hwithin]
      by_cases hne : p = []
      · subst hne
        rw [readLines_nil]
        exact ⟨rfl, fun h => absurd rfl h.1, fun _ => rfl⟩
      · have hinside : EndsInsideLine p := ⟨hne, fun h => hs (List.mem_of_getLast? h)⟩
        obtain ⟨m, hm⟩ := readLines_cut jsonError fromhexError hne hs
          (by unfold CAPTURE_LINE_MAX; omega) lineNumber
        rw [hm]
        exact ⟨rfl, fun _ => ⟨m, rfl⟩, fun h => absurd hinside h⟩
    · obtain ⟨hrecords, herror, hnone⟩ := ih htail hp' (lineNumber + 1)
      rw [← captureLine_eq, readLines_line jsonError fromhexError hc]
      have hends : EndsInsideLine (captureLine c ++ p') ↔ EndsInsideLine p' := by
        unfold EndsInsideLine
        cases p' with
        | nil => simp [captureLine_eq]
        | cons d p' => simp [List.getLast?_append]
      refine ⟨?_, fun h => herror (hends.mp h), fun h => hnone fun hi => h (hends.mpr hi)⟩
      rw [List.length_append, within, if_pos (Nat.le_add_right _ _), Nat.add_sub_cancel_left,
        ← hrecords]

end Reading

/-! ## §6. Replaying a capture. -/

/-- A row without the definition it points at. -/
def SampleRow.bare (r : SampleRow) : SampleRow := { r with definition := none }

/-- The rows of a database with their numbers, without their definitions. -/
def Database.bareRows (db : Database) : List (Nat × SampleRow) :=
  db.sample.rows.map fun r => (r.1, r.2.bare)

/-- Two runs from two databases did the same, apart from the definitions of the rows: they
printed and sent the same, ended alike, added the same rows, and numbered them alike if the
databases had the same rows before. -/
structure SameRun (db db' : Database) (e e' : Effects) : Prop where
  printed : e.printed = e'.printed
  sent : e.sent = e'.sent
  raised : e.raised = e'.raised
  rows : ∃ added added', e.db.sample.contents = db.sample.contents ++ added
    ∧ e'.db.sample.contents = db'.sample.contents ++ added'
    ∧ added.map SampleRow.bare = added'.map SampleRow.bare
  numbers : db.bareRows = db'.bareRows → e.db.bareRows = e'.db.bareRows

/-- A run that adds no row. -/
theorem SameRun.unchanged (db db' : Database) (printed : List String) (sent : List Bytes)
    (raised : Option PyError) :
    SameRun db db' ⟨db, printed, sent, raised⟩ ⟨db', printed, sent, raised⟩ :=
  ⟨rfl, rfl, rfl, ⟨[], [], (List.append_nil _).symm, (List.append_nil _).symm, rfl⟩, id⟩

/-- The same, then the same. -/
theorem SameRun.after {db db' : Database} {e e' f f' : Effects} (h : SameRun db db' e e')
    (hf : SameRun e.db e'.db f f') : SameRun db db' (f.after e) (f'.after e') := by
  obtain ⟨added, added', hadded, hadded', hbare⟩ := h.rows
  obtain ⟨more, more', hmore, hmore', hbareMore⟩ := hf.rows
  refine ⟨?_, ?_, hf.raised, ⟨added ++ more, added' ++ more', ?_, ?_, ?_⟩, ?_⟩
  · show e.printed ++ f.printed = e'.printed ++ f'.printed
    rw [h.printed, hf.printed]
  · show e.sent ++ f.sent = e'.sent ++ f'.sent
    rw [h.sent, hf.sent]
  · show f.db.sample.contents = _
    rw [hmore, hadded, List.append_assoc]
  · show f'.db.sample.contents = _
    rw [hmore', hadded', List.append_assoc]
  · rw [List.map_append, List.map_append, hbare, hbareMore]
  · exact fun hrows => hf.numbers (h.numbers hrows)

/-- The next number depends on the rows only. -/
theorem nextId_bareRows {db db' : Database} (h : db.bareRows = db'.bareRows) :
    db.sample.nextId = db'.sample.nextId := by
  have hlast : ∀ d : Database, d.sample.nextId
      = match d.bareRows.getLast? with | none => 1 | some r => r.1 + 1 := by
    intro d
    unfold Table.nextId Database.bareRows
    rw [List.getLast?_map]
    cases d.sample.rows.getLast? <;> rfl
  rw [hlast, hlast, h]

/-- One reception recorded in two stores. -/
theorem recordIn_same {store store' : Option Store} (hs : store.isSome = store'.isSome)
    (db db' : Database) (c : RecordCall) :
    (∃ err, recordIn store db c = .error err ∧ recordIn store' db' c = .error err)
      ∨ ∃ after after', recordIn store db c = .ok after ∧ recordIn store' db' c = .ok after'
        ∧ ∀ printed sent raised,
          SameRun db db' ⟨after, printed, sent, raised⟩ ⟨after', printed, sent, raised⟩ := by
  cases store with
  | none =>
    cases store' with
    | none => exact .inr ⟨db, db', rfl, rfl, SameRun.unchanged db db'⟩
    | some s' => exact absurd hs (by simp)
  | some s =>
    cases store' with
    | none => exact absurd hs (by simp)
    | some s' =>
      show (∃ err, s.record db c = .error err ∧ s'.record db' c = .error err) ∨ _
      unfold recordIn
      dsimp only
      unfold Store.record
      -- whether `record` returns depends on the sample and the numbers alone
      cases unpackFrom c.sample with
      | error err => exact .inl ⟨err, rfl, rfl⟩
      | ok header =>
        dsimp only
        by_cases hfit : c.node < SQL_INTEGER_LIMIT ∧ c.receivedMs < SQL_INTEGER_LIMIT
        · right
          rw [if_pos hfit, if_pos hfit]
          refine ⟨_, _, rfl, rfl, fun printed sent raised =>
            ⟨rfl, rfl, rfl, ⟨[s.row header c], [s'.row header c], ?_, ?_, rfl⟩, ?_⟩⟩
          · exact Table.contents_insert _ _
          · exact Table.contents_insert _ _
          · intro hrows
            show (db.sample.rows ++ [(db.sample.nextId, s.row header c)]).map _
              = (db'.sample.rows ++ [(db'.sample.nextId, s'.row header c)]).map _
            rw [List.map_append, List.map_append, nextId_bareRows hrows]
            exact congrArg (· ++ _) hrows
        · left
          rw [if_neg hfit, if_neg hfit]
          exact ⟨_, rfl, rfl⟩

section Replaying

variable {store store' : Option Store} (sink : Bool) (hs : store.isSome = store'.isSome)
include hs

/-- One sample forwarded twice. -/
theorem forward_same (db db' : Database) (c : RecordCall) :
    SameRun db db' (forward store sink db c) (forward store' sink db' c) := by
  unfold forward
  cases describe c.sample with
  | error err => exact SameRun.unchanged db db' [] [] (some err)
  | ok line =>
    dsimp only
    rcases recordIn_same hs db db' c with ⟨err, h, h'⟩ | ⟨after, after', h, h', hsame⟩
    · rw [h, h']
      exact SameRun.unchanged db db' [line] [] (some err)
    · rw [h, h']
      cases deliver sink c with
      | error err => exact hsame [line] [] (some err)
      | ok out => exact hsame (line :: out.1) out.2 none

/-- **The same samples forwarded twice** do the same. -/
theorem forwardAll_same (db db' : Database) (records : List RecordCall) :
    SameRun db db' (forwardAll store sink db records) (forwardAll store' sink db' records) := by
  induction records generalizing db db' with
  | nil => exact SameRun.unchanged db db' [] [] none
  | cons c records ih =>
    have hfirst := forward_same sink hs db db' c
    unfold forwardAll
    by_cases hok : (forward store sink db c).raised = none
    · rw [if_pos hok, if_pos (hfirst.raised ▸ hok)]
      exact hfirst.after (ih _ _)
    · rw [if_neg hok, if_neg (hfirst.raised ▸ hok)]
      exact hfirst

end Replaying

/-- A live run writes the lines of the samples it forwards, the one that ends it included. -/
theorem written_eq (store : Option Store) (sink : Bool) (db : Database)
    (records : List RecordCall) :
    ∃ taken, taken <+: records ∧ written store sink db records = captureText taken
      ∧ forwardAll store sink db taken = forwardAll store sink db records := by
  induction records generalizing db with
  | nil => exact ⟨[], List.prefix_rfl, rfl, rfl⟩
  | cons c records ih =>
    obtain ⟨taken, htaken, hwritten, hsame⟩ := ih (forward store sink db c).db
    by_cases hok : (forward store sink db c).raised = none
    · refine ⟨c :: taken, List.cons_prefix_cons.mpr ⟨rfl, htaken⟩, ?_, ?_⟩
      · rw [written, if_pos hok, hwritten]
        rfl
      · rw [forwardAll, forwardAll, if_pos hok, if_pos hok, hsame]
    · refine ⟨[c], List.cons_prefix_cons.mpr ⟨rfl, List.nil_prefix⟩, ?_, ?_⟩
      · rw [written, if_neg hok]
        rfl
      · rw [forwardAll, if_neg hok, forwardAll, if_neg hok]

section Exact

variable (jsonError fromhexError : Str → String) {v : CspVersion}

/-- **Replaying what a live run wrote forwards the same.** -/
theorem replay_live {store store' : Option Store} (hs : store.isSome = store'.isSome) (sink : Bool)
    (db db' : Database) {records : List RecordCall} (hr : ∀ c ∈ records, Capturable v c) :
    SameRun db db' (forwardAll store sink db records)
      (replay store' sink jsonError fromhexError v db' (written store sink db records)) := by
  obtain ⟨taken, htaken, hwritten, hsame⟩ := written_eq store sink db records
  have hread : readCapture jsonError fromhexError v (captureText taken) = (taken, none) :=
    readLines_text jsonError fromhexError (fun c hc => hr c (htaken.subset hc)) 0
  have hrun := forwardAll_same sink hs db db' taken
  rw [← hsame, hwritten, replay, hread]
  dsimp only
  split
  · rename_i hnone
    exact ⟨hrun.printed, hrun.sent, hrun.raised.trans hnone, hrun.rows, hrun.numbers⟩
  · exact hrun

/-- **Capture and replay.**  Every valid line is within the bound; a capture cut anywhere yields
exactly the records whose line is complete, and then raises `ValueError` if and only if the cut
is inside a line; a replay of what a live run wrote does what that run did. -/
theorem capture_exact {records : List RecordCall} (hr : ∀ c ∈ records, Capturable v c) :
    (∀ c ∈ records, (captureLine c).length ≤ CAPTURE_LINE_MAX)
      ∧ (∀ p, p <+: captureText records →
        (readCapture jsonError fromhexError v p).1
            = within (fun c => (captureLine c).length) p.length records
          ∧ ((∃ m, (readCapture jsonError fromhexError v p).2 = some (.valueError m))
            ↔ EndsInsideLine p)
          ∧ (¬ EndsInsideLine p → (readCapture jsonError fromhexError v p).2 = none))
      ∧ ∀ (store store' : Option Store) (sink : Bool) (db db' : Database),
        store.isSome = store'.isSome →
        SameRun db db' (forwardAll store sink db records)
          (replay store' sink jsonError fromhexError v db' (written store sink db records)) := by
  refine ⟨fun c hc => ?_, fun p hp => ?_, fun store store' sink db db' hs =>
    replay_live jsonError fromhexError hs sink db db' hr⟩
  · exact Nat.le_trans (line_length (hr c hc)) (by decide)
  · obtain ⟨hrecords, herror, hnone⟩ := readLines_prefix jsonError fromhexError hr hp 0
    refine ⟨hrecords, ⟨fun h => ?_, herror⟩, hnone⟩
    by_contra hi
    obtain ⟨m, hm⟩ := h
    rw [readCapture, hnone hi] at hm
    exact absurd hm (by simp)

end Exact

/-- Two receptions, the second one from a node whose clock was never set. -/
def twoReceptions : List RecordCall :=
  [⟨1, [1, 0, 0, 5, 0, 0, 0, 9, 1, 0, 7], 1234567890123⟩,
   ⟨16383, [1, 3, 0, 6, 0, 0, 0, 0, 1, 2, 8], 2 ^ 64 - 1⟩]

theorem capture_exact_two : (∀ c ∈ twoReceptions, Capturable .csp2 c)
    ∧ (readCapture (fun _ => "") (fun _ => "") .csp2 ((captureText twoReceptions).take 100)).1
      = within (fun c => (captureLine c).length) ((captureText twoReceptions).take 100).length
          twoReceptions :=
  ⟨by decide, ((capture_exact (fun _ => "") (fun _ => "") (by decide)).2.1 _
    (List.take_prefix _ _)).1⟩

end KFsw.Ground
