/-
  KFsw.Ground.Pipeline — a whole live run of `tools/ground/hk-bridge.py`, from the
  bytes of the link to the datagrams for Yamcs and the rows of the store.

  `Said` is what a stream of bytes says: the samples of the watched node in the
  well-formed segments between delimiters; `heard` is what one reader makes of it
  from the first byte on.  A run reads the stream
  poll by poll; how it is cut into reads and polls, and whether the bridge asks
  or only listens, leaves no trace in what is heard.

  Main results:
    * `mem_heard_iff`     — what is heard is what the stream says;
    * `poll_hears`        — one poll keeps the invariant;
    * `bridge_hears`      — a run forwards what was heard, and nothing else;
    * `forwardAll_ok`     — what becomes of samples that were heard;
    * `liveRun_exact`     — both together;
    * `liveRun_displays`  — a packed value is shown as it was packed.
-/
import KFsw.Ground.Capture
import KFsw.Ground.Polling
import KFsw.Ground.ReportContainer

namespace KFsw.Ground

open KFsw.Lib KFsw.Lib.Xtce

variable {T : Type*} [LinearOrder T] [Zero T] [Sub T] [NatCast T]

/-! ## §1. What a stream says. -/

/-- The sample of the watched node in a frame. -/
def frameSample (args : Args) (frame : Bytes) : Option Bytes :=
  match decodeHkFrame args.cspVersion args.port frame args.node with
  | .ok (some sample, none) => some sample
  | _ => none

/-- The samples in the frames that a stream ends, in order. -/
def heard (args : Args) (stream : Bytes) : List Bytes :=
  (feed args.cspVersion KissReader.init stream).2.filterMap (frameSample args)

/-- What a stream says of the watched node: a sample in a housekeeping frame of it, in a
well-formed segment between two delimiters. -/
def Said (args : Args) (stream sample : Bytes) : Prop :=
  ∃ segment ∈ between FEND stream, WellFormed args.cspVersion segment
    ∧ IsHkFrame args.cspVersion args.port args.node sample (unescaped segment.tail)

theorem frameSample_iff {args : Args} {frame sample : Bytes} :
    frameSample args frame = some sample
      ↔ IsHkFrame args.cspVersion args.port args.node sample frame := by
  rw [← decodeHkFrame_some_iff]
  unfold frameSample
  constructor
  · intro h
    split at h
    · rename_i s hdec
      rw [hdec, Option.some.inj h]
    · exact absurd h (by simp)
  · intro h
    rw [h]

/-- **What is heard is what the stream says.** -/
theorem mem_heard_iff {args : Args} {stream sample : Bytes} :
    sample ∈ heard args stream ↔ Said args stream sample := by
  unfold heard Said
  rw [feed_between, List.mem_filterMap]
  constructor
  · rintro ⟨frame, hframe, hsample⟩
    obtain ⟨segment, hsegment, rfl⟩ := List.mem_map.mp hframe
    obtain ⟨hin, hwell⟩ := List.mem_filter.mp hsegment
    exact ⟨segment, hin, of_decide_eq_true hwell, frameSample_iff.mp hsample⟩
  · rintro ⟨segment, hin, hwell, hframe⟩
    exact ⟨_, List.mem_map_of_mem (List.mem_filter.mpr ⟨hin, decide_eq_true hwell⟩),
      frameSample_iff.mpr hframe⟩

theorem sampleMark_fst (args : Args) (sport : Nat) (frame : Bytes) :
    (sampleMark args sport frame).map Prod.fst = frameSample args frame := by
  obtain ⟨⟨sample, problem⟩, hdec⟩ :=
    decodeHkFrame_never_raises args.cspVersion args.port frame args.node
  unfold sampleMark frameSample
  rw [hdec]
  cases problem <;> cases sample <;> rfl

/-- What is heard passes the check of every reader. -/
theorem valid_of_frameSample {args : Args} {frame sample : Bytes}
    (h : frameSample args frame = some sample) : ValidSample sample := by
  obtain ⟨header, sums, -, -, -, -, -, hvalid, -⟩ := frameSample_iff.mp h
  exact (validateSample_ok_iff _).mp hvalid

theorem valid_of_heard {args : Args} {stream sample : Bytes} (h : sample ∈ heard args stream) :
    ValidSample sample := by
  obtain ⟨frame, -, hframe⟩ := List.mem_filterMap.mp h
  exact valid_of_frameSample hframe

/-- A stream that goes on. -/
theorem heard_append (args : Args) (stream more : Bytes) :
    heard args (stream ++ more) = heard args stream
      ++ (feed args.cspVersion (feed args.cspVersion KissReader.init stream).1 more).2.filterMap
          (frameSample args) := by
  have hfeed : (feed args.cspVersion KissReader.init (stream ++ more)).2
      = (feed args.cspVersion KissReader.init stream).2
        ++ (feed args.cspVersion (feed args.cspVersion KissReader.init stream).1 more).2 :=
    congrArg Prod.snd ((kissReader args.cspVersion).run_append _ _ _)
  unfold heard
  rw [hfeed, List.filterMap_append]

/-- **An encoded frame is heard**, whatever comes before and after it. -/
theorem heard_kissEncode (args : Args) {before after frame sample : Bytes}
    (hfits : FrameFits args.cspVersion frame) (hframe : frameSample args frame = some sample) :
    sample ∈ heard args (before ++ kissEncode frame ++ after) := by
  rw [heard_append, heard_append, feed_kissEncode _ _ _ hfits, List.filterMap_append]
  simp [hframe]

/-! ## §2. Receipt times. -/

/-- Every receipt time is within a limit. -/
def Timely (limit : Nat) (yields : List (Yield T)) : Prop := ∀ y ∈ yields, y.receivedMs < limit

omit [LinearOrder T] [Zero T] [Sub T] [NatCast T] in
theorem handleFrames_timely (args : Args) (sport : Nat) (ask : Bool) (read : Read T) {limit : Nat}
    (hread : ∀ i, read.wallMs i < limit) (i : Nat) (batch : Batch T) (frames : List Bytes)
    (hbatch : Timely limit batch.yields) :
    Timely limit (handleFrames args sport ask read i batch frames).1.yields := by
  induction frames generalizing i batch with
  | nil => exact hbatch
  | cons frame frames ih =>
    rw [handleFrames]
    split
    · exact hbatch
    · exact ih _ _ hbatch
    · exact ih _ _ hbatch
    · refine ih _ _ fun y hy => ?_
      rcases List.mem_append.mp hy with hy | hy
      · exact hbatch y hy
      · rw [List.mem_singleton.mp hy]
        exact hread i

omit [LinearOrder T] [Sub T] [NatCast T] in
theorem collectLoop_timely (args : Args) (sport count : Nat) (ask : Bool) (ticks : Nat)
    {limit : Nat} (hlimit : 0 < limit) (link : Link T) (reader : KissReader) (batch : Batch T)
    (hlink : ∀ read ∈ link.arriving, ∀ i, read.wallMs i < limit)
    (hbatch : Timely limit batch.yields) :
    Timely limit (collectLoop args sport count ask ticks link reader batch).batch.yields := by
  induction ticks generalizing link reader batch with
  | zero => exact hbatch
  | succ ticks ih =>
    -- the read of this turn, and what is still to come
    have hread : (∀ i, link.read.1.wallMs i < limit)
        ∧ ∀ read ∈ link.read.2.arriving, ∀ i, read.wallMs i < limit := by
      unfold Link.read
      cases harriving : link.arriving with
      | nil => exact ⟨fun _ => hlimit, fun read h => absurd (harriving ▸ h) (by simp)⟩
      | cons read rest =>
        rw [harriving] at hlink
        exact ⟨hlink read List.mem_cons_self, fun r hr => hlink r (List.mem_cons_of_mem _ hr)⟩
    have hframes := handleFrames_timely args sport ask link.read.1 hread.1 0 batch
      (feed args.cspVersion reader link.read.1.data).2 hbatch
    rw [collectLoop]
    split
    · exact hbatch
    · dsimp only
      split
      · rename_i heq
        rwa [heq] at hframes
      · rename_i heq
        rw [heq] at hframes
        exact ih _ _ _ hread.2 hframes

omit [LinearOrder T] [Sub T] [NatCast T] in
theorem collect_timely (args : Args) (sport count : Nat) (ask : Bool) (ticks : Nat) {limit : Nat}
    (hlimit : 0 < limit) (link : Link T) (reader : KissReader) (hsport : sport ≤ 63)
    (hcount : count ≤ 255) (hlink : ∀ read ∈ link.arriving, ∀ i, read.wallMs i < limit) :
    Timely limit (collect args link reader sport count ask ticks).batch.yields := by
  obtain ⟨requests, -, heq⟩ := collect_eq args link reader hsport hcount ask ticks
  obtain ⟨hok, -⟩ := collectLoop_spec args sport count ask ticks
    { link with written := link.written ++ requests } reader Batch.empty
  obtain ⟨-, -, hbatch, -⟩ := finish_spec _ count ask hok
  rw [heq, hbatch]
  exact collectLoop_timely args sport count ask ticks hlimit _ _ _ hlink fun y hy =>
    absurd hy (by simp [Batch.empty])

/-! ## §3. One poll. -/

/-- **The invariant** of a run: what was forwarded is exactly what was heard in the reads made,
each sample under the watched node and with a receipt time within the limit. -/
structure Hears (args : Args) (limit : Nat) (arriving : List (Read T))
    (forwarded : List RecordCall) (s : Bridge T) : Prop where
  raised : s.raised = none
  sport_le : s.sport ≤ 63
  link : s.link.received ++ s.link.arriving = arriving
  reader : s.reader = (feed args.cspVersion KissReader.init (readBytes s.link.received)).1
  recent : ∀ e ∈ s.recent.seen.entries, e.1.2 ∈ forwarded.map RecordCall.sample
  complete : ∀ sample ∈ heard args (readBytes s.link.received),
    sample ∈ forwarded.map RecordCall.sample
  sound : ∀ c ∈ forwarded, c.node = args.node ∧ c.receivedMs < limit
    ∧ c.sample ∈ heard args (readBytes s.link.received)

omit [Zero T] in
/-- What the filter lets through came in. -/
theorem consumer_sound (node : Nat) (yields : List (Yield T)) (recent : RecentSamples T) :
    ∀ c ∈ ((consumer T node).run recent yields).2, ∃ y ∈ yields,
      c = ⟨node, y.sample, y.receivedMs⟩ := by
  induction yields generalizing recent with
  | nil => exact fun c hc => absurd hc (by simp)
  | cons y yields ih =>
    intro c hc
    rw [Reader.run_cons] at hc
    rcases List.mem_append.mp hc with hc | hc
    · refine ⟨y, List.mem_cons_self, ?_⟩
      dsimp only [consumer] at hc
      split at hc
      · exact List.mem_singleton.mp hc
      · exact absurd hc (by simp)
    · obtain ⟨z, hz, heq⟩ := ih _ c hc
      exact ⟨z, List.mem_cons_of_mem _ hz, heq⟩

/-- One poll, asking or listening, in terms of what `collect` did. -/
theorem poll_collected (args : Args) (s : Bridge T) (hs : s.raised = none) (hport : s.sport ≤ 63)
    (ticks : Nat) :
    ∃ c failed sport, c = collect args s.link s.reader s.sport args.count (!args.listen) ticks
      ∧ Faithful args s.sport (!args.listen) s.link s.reader Batch.empty c ∧ sport ≤ 63
      ∧ Bridge.poll args s ticks
        = (⟨c.link, c.reader, ((consumer T args.node).run s.recent c.batch.yields).1, sport, none⟩,
          some ⟨s.sport, c.link, c.batch.yields, c.batch.matched,
            ((consumer T args.node).run s.recent c.batch.yields).2, failed⟩) := by
  obtain ⟨hfaithful, hout⟩ :=
    collect_spec args s.link s.reader hport args.count_le (!args.listen) ticks
  have hnext : (if args.listen = true then s.sport else nextPort s.sport) ≤ 63 := by
    unfold nextPort
    split
    · exact hport
    · omega
  unfold Bridge.poll
  rw [hs]
  dsimp only
  rcases hout with hout | ⟨message, hout⟩
  · rw [hout]
    exact ⟨_, false, _, rfl, hfaithful, hnext, rfl⟩
  · rw [hout]
    exact ⟨_, true, _, rfl, hfaithful, hnext, rfl⟩

/-- **One poll** forwards what it heard for the first time, and keeps the invariant. -/
theorem poll_hears (args : Args) {limit : Nat} (hlimit : 0 < limit) {arriving : List (Read T)}
    (hclock : ∀ read ∈ arriving, ∀ i, read.wallMs i < limit) {forwarded : List RecordCall}
    {s : Bridge T} (h : Hears args limit arriving forwarded s) (ticks : Nat) :
    ∃ s' poll, Bridge.poll args s ticks = (s', some poll)
      ∧ Hears args limit arriving (forwarded ++ poll.forwarded) s' := by
  obtain ⟨c, failed, sport, hc, ⟨reads, harriving, hreceived, hreader, hgain⟩, hsport, hpoll⟩ :=
    poll_collected args s h.raised h.sport_le ticks
  obtain ⟨⟨ys, hys, hmarks⟩, -⟩ := hgain
  have hyields : c.batch.yields = ys := by rw [hys]; rfl
  have hwhole : c.link.received ++ c.link.arriving = arriving := by
    rw [hreceived, List.append_assoc, ← harriving, h.link]
  have hbytes : readBytes c.link.received = readBytes s.link.received ++ readBytes reads := by
    simp [hreceived, readBytes]
  -- what this poll yields is what the new bytes say
  have hsamples : ys.map Yield.sample
      = (feed args.cspVersion s.reader (readBytes reads)).2.filterMap (frameSample args) := by
    have hfst := congrArg (List.map Prod.fst) hmarks
    rw [List.map_map, List.map_filterMap] at hfst
    rw [show Yield.sample = Prod.fst ∘ (Yield.marked : Yield T → Bytes × Bool) from rfl, hfst]
    exact List.filterMap_congr fun frame _ => sampleMark_fst args s.sport frame
  have hheard : heard args (readBytes c.link.received)
      = heard args (readBytes s.link.received) ++ ys.map Yield.sample := by
    rw [hbytes, heard_append, ← h.reader, hsamples]
  have htimes : Timely limit ys := by
    rw [← hyields, hc]
    refine collect_timely args s.sport args.count _ ticks hlimit s.link s.reader h.sport_le
      args.count_le fun read hread => hclock read ?_
    rw [← h.link]
    exact List.mem_append_right _ hread
  obtain ⟨hrecent, hforwarded⟩ :=
    consumer_run args.node c.batch.yields s.recent (forwarded.map RecordCall.sample) h.recent
  refine ⟨_, _, hpoll, ⟨rfl, hsport, hwhole, ?_, ?_, ?_, ?_⟩⟩
  · show c.reader = _
    rw [hreader, hbytes, h.reader]
    exact (congrArg Prod.fst ((kissReader args.cspVersion).run_append _ _ _)).symm
  · rw [List.map_append]
    exact hrecent
  · intro sample hsample
    rw [List.map_append]
    have hin : sample ∈ heard args (readBytes c.link.received) := hsample
    rw [hheard] at hin
    rcases List.mem_append.mp hin with hold | hnew
    · exact List.mem_append_left _ (h.complete sample hold)
    · obtain ⟨y, hy, rfl⟩ := List.mem_map.mp hnew
      exact hforwarded y (hyields ▸ hy)
  · intro call hcall
    show call.node = args.node ∧ call.receivedMs < limit
      ∧ call.sample ∈ heard args (readBytes c.link.received)
    rw [hheard]
    rcases List.mem_append.mp hcall with hold | hnew
    · obtain ⟨hnode, htime, hin⟩ := h.sound call hold
      exact ⟨hnode, htime, List.mem_append_left _ hin⟩
    · obtain ⟨y, hy, rfl⟩ := consumer_sound args.node c.batch.yields s.recent call hnew
      rw [hyields] at hy
      exact ⟨rfl, htimes y hy, List.mem_append_right _ (List.mem_map_of_mem hy)⟩

omit [LinearOrder T] [Zero T] [Sub T] [NatCast T] in
/-- Before the first poll. -/
theorem hears_start (args : Args) (limit : Nat) (arriving : List (Read T)) :
    Hears args limit arriving [] (Bridge.start args arriving) where
  raised := rfl
  sport_le := args.sport_le
  link := rfl
  reader := rfl
  recent := fun e he => absurd he (by simp [Bridge.start, RecentSamples.init, OrderedDict.empty])
  complete := fun sample h => absurd h (by simp [Bridge.start, readBytes, heard, feed])
  sound := fun c hc => absurd hc List.not_mem_nil

/-- **Every run** forwards what was heard, and nothing else. -/
theorem bridge_hears (args : Args) {limit : Nat} (hlimit : 0 < limit) {arriving : List (Read T)}
    (hclock : ∀ read ∈ arriving, ∀ i, read.wallMs i < limit) (ticks : List Nat)
    {forwarded : List RecordCall} {s : Bridge T} (h : Hears args limit arriving forwarded s) :
    ((bridge T args).run s ticks).2.length = ticks.length
      ∧ Hears args limit arriving
        (forwarded ++ ((bridge T args).run s ticks).2.flatMap Poll.forwarded)
        ((bridge T args).run s ticks).1 := by
  induction ticks generalizing forwarded s with
  | nil =>
    refine ⟨rfl, ?_⟩
    rw [show ((bridge T args).run s []).2.flatMap Poll.forwarded = [] from rfl, List.append_nil]
    exact h
  | cons t ticks ih =>
    obtain ⟨s', poll, hpoll, hnext⟩ := poll_hears args hlimit hclock h t
    obtain ⟨hlength, hrest⟩ := ih hnext
    have hrun : (bridge T args).run s (t :: ticks)
        = (((bridge T args).run s' ticks).1, poll :: ((bridge T args).run s' ticks).2) := by
      rw [Reader.run_cons]
      show (((bridge T args).run (Bridge.poll args s t).1 ticks).1,
        (Bridge.poll args s t).2.toList ++ ((bridge T args).run (Bridge.poll args s t).1 ticks).2) = _
      rw [hpoll]
      rfl
    rw [hrun]
    refine ⟨congrArg Nat.succ hlength, ?_⟩
    rw [List.flatMap_cons, ← List.append_assoc]
    exact hrest

/-! ## §4. What becomes of a sample. -/

/-- The datagram for Yamcs. -/
def datagram (c : RecordCall) : Bytes := envelopeBytes c.sample c.receivedMs ++ c.sample

/-- The rows that receptions leave in a store. -/
def storedRows (store : Option Store) (calls : List RecordCall) : List SampleRow :=
  match store with
  | none => []
  | some s => calls.map fun c => s.row (sampleHeader c.sample) c

/-- What can be forwarded: a sample that passes the check, with numbers the store can bind. -/
structure Forwardable (c : RecordCall) : Prop where
  valid : ValidSample c.sample
  node_lt : c.node < SQL_INTEGER_LIMIT
  receivedMs_lt : c.receivedMs < SQL_INTEGER_LIMIT

theorem forward_ok (store : Option Store) (db : Database) {c : RecordCall} (hc : Forwardable c) :
    ∃ db', forward store true db c
        = ⟨db', [describeLine (sampleHeader c.sample) c.sample.length], [datagram c], none⟩
      ∧ db'.definition = db.definition
      ∧ db'.sample.contents = db.sample.contents ++ storedRows store [c] := by
  have hdescribe : describe c.sample = .ok (describeLine (sampleHeader c.sample) c.sample.length) := by
    rw [describe, unpackFrom_of_length hc.valid.length_ge]
  have henvelope : envelope c.sample c.receivedMs = .ok (datagram c) :=
    envelope_of_version hc.valid.length_ge hc.valid.version_eq
      (hc.receivedMs_lt.trans (by decide))
  have hdeliver : deliver true c = .ok ([], [datagram c]) := by
    rw [deliver, if_pos rfl, henvelope]
    rfl
  unfold forward
  rw [hdescribe]
  dsimp only
  cases store with
  | none =>
    refine ⟨db, ?_, rfl, (List.append_nil _).symm⟩
    rw [show recordIn none db c = .ok db from rfl]
    dsimp only
    rw [hdeliver]
  | some s =>
    refine ⟨{ db with sample := db.sample.insert (s.row (sampleHeader c.sample) c) }, ?_, rfl,
      Table.contents_insert _ _⟩
    have hrecord := (record_ok_iff s db _ c).mpr
      ⟨hc.valid.length_ge, hc.node_lt, hc.receivedMs_lt, rfl⟩
    rw [show recordIn (some s) db c = s.record db c from rfl, hrecord]
    dsimp only
    rw [hdeliver]

theorem storedRows_cons (store : Option Store) (c : RecordCall) (calls : List RecordCall) :
    storedRows store (c :: calls) = storedRows store [c] ++ storedRows store calls := by
  cases store <;> rfl

/-- **What becomes of samples that can be forwarded**: each is sent once and stored once, in
order, and nothing is raised. -/
theorem forwardAll_ok (store : Option Store) (db : Database) {calls : List RecordCall}
    (hcalls : ∀ c ∈ calls, Forwardable c) :
    (forwardAll store true db calls).raised = none
      ∧ (forwardAll store true db calls).sent = calls.map datagram
      ∧ (forwardAll store true db calls).db.definition = db.definition
      ∧ (forwardAll store true db calls).db.sample.contents
        = db.sample.contents ++ storedRows store calls := by
  induction calls generalizing db with
  | nil => exact ⟨rfl, rfl, rfl, by cases store <;> exact (List.append_nil _).symm⟩
  | cons c calls ih =>
    obtain ⟨db', hforward, hdefinition, hrows⟩ := forward_ok store db (hcalls c List.mem_cons_self)
    obtain ⟨hraised, hsent, hdefinitions, hcontents⟩ :=
      ih db' fun d hd => hcalls d (List.mem_cons_of_mem c hd)
    have hall : forwardAll store true db (c :: calls)
        = (forwardAll store true db' calls).after (forward store true db c) := by
      rw [forwardAll, hforward]
      rfl
    rw [hall]
    refine ⟨hraised, ?_, hdefinitions.trans hdefinition, ?_⟩
    · show (forward store true db c).sent ++ (forwardAll store true db' calls).sent = _
      rw [hforward, hsent]
      rfl
    · show (forwardAll store true db' calls).db.sample.contents = _
      rw [hcontents, hrows, storedRows_cons store c calls, List.append_assoc]

/-! ## §5. A live run. -/

/-- The samples a run passes to `forward`, and the reads it has made. -/
def runCalls (args : Args) (arriving : List (Read T)) (ticks : List Nat) : List RecordCall :=
  ((bridge T args).run (Bridge.start args arriving) ticks).2.flatMap Poll.forwarded

def runReads (args : Args) (arriving : List (Read T)) (ticks : List Nat) : List (Read T) :=
  ((bridge T args).run (Bridge.start args arriving) ticks).1.link.received

/-- `main` with `--device` and `--yamcs`: some turns of its loop, and what they did. -/
def liveRun (args : Args) (store : Option Store) (db : Database) (arriving : List (Read T))
    (ticks : List Nat) : Effects :=
  forwardAll store true db (runCalls args arriving ticks)

/-- What a run forwards can be forwarded. -/
theorem runCalls_forwardable (args : Args) {arriving : List (Read T)}
    (hclock : ∀ read ∈ arriving, ∀ i, read.wallMs i < SQL_INTEGER_LIMIT) (ticks : List Nat) :
    ∀ c ∈ runCalls args arriving ticks, Forwardable c := by
  obtain ⟨-, hhears⟩ := bridge_hears args (by decide) hclock ticks (hears_start args _ arriving)
  intro c hc
  obtain ⟨hnode, htime, hsample⟩ := hhears.sound c hc
  refine ⟨valid_of_heard hsample, ?_, htime⟩
  have hmax : cspMaxNode args.cspVersion < SQL_INTEGER_LIMIT := by
    cases args.cspVersion <;> decide
  rw [hnode]
  exact args.node_le.trans_lt hmax

omit [LinearOrder T] [Sub T] [NatCast T] in
/-- A bridge that listens takes a read with every turn of its loop. -/
theorem collect_listening (args : Args) (link : Link T) (reader : KissReader) {sport : Nat}
    (hsport : sport ≤ 63) (ticks : Nat) :
    (collect args link reader sport args.count false ticks).link.arriving
      = link.arriving.drop ticks := by
  obtain ⟨requests, -, heq⟩ := collect_eq args link reader hsport args.count_le false ticks
  obtain ⟨hok, -⟩ := collectLoop_spec args sport args.count false ticks
    { link with written := link.written ++ requests } reader Batch.empty
  obtain ⟨hlink, -, -, -⟩ := finish_spec _ args.count false hok
  rw [heq, hlink]
  exact collectLoop_deadline args sport args.count false ticks _ _ _ fun h =>
    absurd h.1 Bool.false_ne_true

/-- What a bridge that listens has still to read. -/
theorem run_listening (args : Args) (hlisten : args.listen = true) (ticks : List Nat)
    {s : Bridge T} (hraised : s.raised = none) (hsport : s.sport ≤ 63) :
    ((bridge T args).run s ticks).1.link.arriving = s.link.arriving.drop ticks.sum := by
  induction ticks generalizing s with
  | nil => exact (List.drop_zero).symm
  | cons t ticks ih =>
    obtain ⟨c, failed, sport, hc, -, hnext, hpoll⟩ := poll_collected args s hraised hsport t
    have hrun : ((bridge T args).run s (t :: ticks)).1
        = ((bridge T args).run (Bridge.poll args s t).1 ticks).1 := rfl
    rw [hrun, hpoll, ih rfl hnext]
    show c.link.arriving.drop ticks.sum = _
    rw [hlisten] at hc
    rw [hc, Bool.not_true, collect_listening args s.link s.reader hsport t, List.drop_drop,
      List.sum_cons]

/-- With as many turns as there are reads, it has read them all. -/
theorem runReads_listening (args : Args) (hlisten : args.listen = true) (ticks : List Nat)
    (arriving : List (Read T)) (hlength : arriving.length ≤ ticks.sum)
    (hclock : ∀ read ∈ arriving, ∀ i, read.wallMs i < SQL_INTEGER_LIMIT) :
    runReads args arriving ticks = arriving := by
  obtain ⟨-, hhears⟩ := bridge_hears args (by decide) hclock ticks (hears_start args _ arriving)
  have hrest := run_listening args hlisten ticks (s := Bridge.start args arriving) rfl args.sport_le
  rw [show (Bridge.start args arriving).link.arriving = arriving from rfl,
    List.drop_of_length_le hlength] at hrest
  have hlink := hhears.link
  rw [hrest, List.append_nil] at hlink
  exact hlink

/-- A housekeeping frame of the watched node is heard as its sample. -/
theorem frameSample_hkFrame {args : Args} {header sample : Bytes} {flags : Nat}
    (hlength : header.length = cspHeaderBytes args.cspVersion)
    (hsource : (parseCspHeader args.cspVersion header).source = args.node)
    (hsport : (parseCspHeader args.cspVersion header).sport = args.port)
    (hflags : (parseCspHeader args.cspVersion header).flags = flags) (hknown : flags = 0 ∨ flags = 1)
    (hvalid : ValidSample sample) :
    frameSample args (hkFrame header sample flags) = some sample := by
  subst hflags
  exact frameSample_iff.mpr ⟨header, checksums _ sample, rfl, hlength, hsport, hsource, hknown,
    (validateSample_ok_iff _).mpr hvalid, rfl⟩

/-- **A value is shown as the node packed it.**  A node sends the values of a report in a frame,
and the link delivers the frame's bytes among whatever others.  When a live run has read them, a
datagram has been sent that the container generated for the report decodes to these values, each
at its place and as it is to be shown; and the store has a row with the frame, under the
definition it was opened with. -/
theorem liveRun_displays (args : Args) (store : Option Store) (db : Database)
    (arriving : List (Read T)) (ticks : List Nat)
    (hclock : ∀ read ∈ arriving, ∀ i, read.wallMs i < SQL_INTEGER_LIMIT)
    {reports : List Report} (hnames : DistinctNames reports) {report : Report}
    (hreport : report ∈ reports) {cspHeader hkHeader : Bytes} {flags : Nat} {values : List Int}
    (hlength : cspHeader.length = cspHeaderBytes args.cspVersion)
    (hsource : (parseCspHeader args.cspVersion cspHeader).source = args.node)
    (hsport : (parseCspHeader args.cspVersion cspHeader).sport = args.port)
    (hflags : (parseCspHeader args.cspVersion cspHeader).flags = flags)
    (hknown : flags = 0 ∨ flags = 1) (hheader : hkHeader.length = HK_HEADER_BYTES)
    (hvalues : List.Forall₂ (fun e x => InRange e.type x) report.entries values)
    (hvalid : ValidSample (hkHeader ++ packValues report.entries values)) {before after : Bytes}
    (hread : readBytes (runReads args arriving ticks) = before
      ++ kissEncode (hkFrame cspHeader (hkHeader ++ packValues report.entries values) flags)
      ++ after) :
    (∃ d ∈ (liveRun args store db arriving ticks).sent, ∃ decoded,
      (buildXtce reports).decodeWith (reportContainer report) d = some decoded
        ∧ ∀ i e x, report.entries[i]? = some e → values[i]? = some x →
          decoded[headerTyped.length + i]?
            = some ⟨entryName report e,
              8 * (ENVELOPE_BYTES + HK_HEADER_BYTES + valueOffset report i), x, entryValue e x⟩)
      ∧ ∀ s, store = some s →
        ∃ row ∈ (liveRun args store db arriving ticks).db.sample.contents,
          row.frame = hkHeader ++ packValues report.entries values ∧ row.node = args.node
            ∧ row.definition = s.definition := by
  obtain ⟨-, hhears⟩ := bridge_hears args (by decide) hclock ticks (hears_start args _ arriving)
  obtain ⟨-, hsent, -, hrows⟩ := forwardAll_ok store db (runCalls_forwardable args hclock ticks)
  -- the frame is heard, and so its sample is forwarded
  have hheard : hkHeader ++ packValues report.entries values
      ∈ heard args (readBytes (runReads args arriving ticks)) := by
    rw [hread]
    exact heard_kissEncode args
      (frameFits_hkFrame _ _ _ _ hlength ((validateSample_ok_iff _).mpr hvalid))
      (frameSample_hkFrame hlength hsource hsport hflags hknown hvalid)
  obtain ⟨c, hc, hsample⟩ := List.mem_map.mp (hhears.complete _ hheard)
  have hcall : c ∈ runCalls args arriving ticks := hc
  refine ⟨⟨datagram c, ?_, ?_⟩, ?_⟩
  · rw [liveRun, hsent]
    exact List.mem_map_of_mem hcall
  · -- the envelope and the header stand in front of the values
    have hfront : (envelopeBytes c.sample c.receivedMs ++ hkHeader).length
        = ENVELOPE_BYTES + HK_HEADER_BYTES := by
      rw [List.length_append, envelopeBytes_length, hheader]
    have hpacket : datagram c = envelopeBytes c.sample c.receivedMs ++ hkHeader
        ++ packValues report.entries values := by
      rw [datagram, List.append_assoc, ← hsample]
    rw [hpacket]
    refine ⟨_, decodeWith_reportContainer hnames hreport ?_, fun i e x he hx => ?_⟩
    · rw [List.length_append, hfront, packValues_length hvalues.length_eq]
    · exact decodeTyped_packed hvalues hfront he hx
  · rintro s rfl
    refine ⟨s.row (sampleHeader c.sample) c, ?_, hsample, (hhears.sound c hc).1, rfl⟩
    rw [liveRun, hrows]
    exact List.mem_append_right _ (List.mem_map_of_mem hcall)

/-- A bridge that listens to node 1. -/
def listeningArgs : Args := { lastPortArgs with listen := true }

/-- A packet of `mixedReport`, with noise before and after its frame, in one read. -/
def mixedSample : Bytes :=
  [1, 2, 0, 7, 0, 0, 0, 1, 3, 0] ++ packValues mixedReport.entries [-3, 500, 1065353216]

def noisyReads : List (Read ℤ) :=
  [⟨[0x55, 0xC0, 0x07] ++ kissEncode (hkFrame [0x83, 0x0F, 0xCE, 0x01] mixedSample 1) ++ [0xDB],
    fun _ => 1700000000000, fun _ => 0⟩]

theorem noisyReads_clock : ∀ read ∈ noisyReads, ∀ i, read.wallMs i < SQL_INTEGER_LIMIT := by
  intro read hread i
  rw [List.mem_singleton.mp hread]
  show 1700000000000 < SQL_INTEGER_LIMIT
  decide

theorem noisyReads_read : readBytes (runReads listeningArgs noisyReads [1]) = [0x55, 0xC0, 0x07]
    ++ kissEncode (hkFrame [0x83, 0x0F, 0xCE, 0x01] mixedSample 1) ++ [0xDB] := by
  rw [runReads_listening listeningArgs rfl [1] noisyReads (by decide) noisyReads_clock]
  simp [noisyReads, readBytes]

theorem liveRun_displays_noisy :
    ∃ d ∈ (liveRun listeningArgs (some ⟨some 1⟩) Database.empty noisyReads [1]).sent, ∃ decoded,
      (buildXtce [mixedReport]).decodeWith (reportContainer mixedReport) d = some decoded
        ∧ decoded[9]? = some ⟨"mixed_volts", 8 * 23, 500, .calibrated (0 + 1 / 1000 * 500)⟩ := by
  have hnames : DistinctNames [mixedReport] := ⟨by decide +kernel, by decide +kernel⟩
  have hvalues : List.Forall₂ (fun e x => InRange e.type x) mixedReport.entries
      [-3, 500, 1065353216] :=
    .cons (by decide) (.cons (by decide) (.cons (by decide) .nil))
  obtain ⟨⟨d, hd, decoded, hdecoded, hentry⟩, -⟩ :=
    liveRun_displays listeningArgs (some ⟨some 1⟩) Database.empty noisyReads [1] noisyReads_clock
      hnames List.mem_cons_self (by decide) (by decide) (by decide) (by decide) (.inr rfl) rfl
      hvalues ((validateSample_ok_iff _).mp (by decide +kernel)) noisyReads_read
  exact ⟨d, hd, decoded, hdecoded, hentry 1 _ _ rfl rfl⟩

end KFsw.Ground
