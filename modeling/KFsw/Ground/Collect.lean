/-
  KFsw.Ground.Collect — one poll of the bridge: `collect` of
  `tools/ground/hk-bridge.py`.

  The link is a queue of reads to come; a read that finds nothing times out and
  returns no bytes.  The deadline is a number of turns of the loop.  `collect`
  writes a request if it asks, reads until its batch is full or the deadline has
  passed, and yields every sample it decodes.

  Main results:
    * `handleFrames_spec` — every decoded sample of a read is yielded with its
      mark, and the batch takes the marked ones only;
    * `collectLoop_spec`  — the loop yields the samples of the frames in the
      bytes it read, in order, and raises nothing;
    * `collect_spec`      — so does a poll with arguments `main` has checked;
    * `collect_exact`     — what a poll yields and writes, and when it raises.
-/
import KFsw.Ground.Requests
import Mathlib.Data.Finset.Insert
import Mathlib.Data.Finset.Card

namespace KFsw.Ground

open KFsw.Lib

/-! ## §1. Arguments and the link. -/

/-- The arguments of a run, with the checks `main` makes on them. -/
structure Args where
  cspVersion : CspVersion
  port : Nat
  node : Nat
  source : Nat
  sport : Nat
  report : Nat
  classMask : Option Nat
  count : Nat
  listen : Bool
  node_le : node ≤ cspMaxNode cspVersion
  source_le : source ≤ cspMaxNode cspVersion
  sport_ge : 16 ≤ sport
  sport_le : sport ≤ 63
  report_lt : report < 16
  count_pos : 1 ≤ count
  count_le : count ≤ 255
  port_le : port ≤ 63
  class_le : ∀ mask, classMask = some mask → mask ≤ 255

/-- The result of one `link.read`, and what the clocks show while its frames are handled. -/
structure Read (T : Type*) where
  data : Bytes
  /-- `int(time.time() * 1000)` when its frame of this index is yielded. -/
  wallMs : Nat → Nat
  /-- `time.monotonic()` when `main` takes the sample of this frame. -/
  now : Nat → T

/-- The serial link: reads made, reads to come, and what was written. -/
structure Link (T : Type*) where
  received : List (Read T)
  arriving : List (Read T)
  written : List Bytes

variable {T : Type*}

/-- `link.read`: nothing before the timeout when no read is to come. -/
def Link.read [Zero T] (link : Link T) : Read T × Link T :=
  match link.arriving with
  | [] => (⟨[], fun _ => 0, fun _ => 0⟩, link)
  | r :: rest => (r, { link with received := link.received ++ [r], arriving := rest })

/-- The bytes of some reads. -/
def readBytes (reads : List (Read T)) : Bytes := (reads.map Read.data).flatten

/-! ## §2. The frames of one read. -/

/-- A sample as `collect` yields it; `now` is when `main` goes on with it. -/
structure Yield (T : Type*) where
  sample : Bytes
  receivedMs : Nat
  matching : Bool
  now : T

/-- What `collect` has so far: the samples that count, all yielded ones, and the problems
printed. -/
structure Batch (T : Type*) where
  matched : Finset Bytes
  yields : List (Yield T)
  dropped : List String

def Batch.empty : Batch T := ⟨∅, [], []⟩

/-- Whether a sample answers the request with source port `sport`. -/
def isMatching (args : Args) (sport : Nat) (frame sample : Bytes) : Bool :=
  let header := parseCspHeader args.cspVersion frame
  decide (header.destination = args.source) && decide (header.dport = sport)
    && (args.classMask.isSome || decide ((sample.getD 1 0).toNat = args.report))

/-- The body of `for frame in reader.feed(data)`, from frame `i` of the read on. -/
def handleFrames (args : Args) (sport : Nat) (ask : Bool) (read : Read T) :
    Nat → Batch T → List Bytes → Batch T × Except PyError Unit
  | _, batch, [] => (batch, .ok ())
  | i, batch, frame :: frames =>
    match decodeHkFrame args.cspVersion args.port frame args.node with
    | .error e => (batch, .error e)
      -- the problem is printed, and the frame yields nothing
    | .ok (_, some problem) =>
      handleFrames args sport ask read (i + 1)
        { batch with dropped := batch.dropped ++ [problem] } frames
    | .ok (none, none) => handleFrames args sport ask read (i + 1) batch frames
    | .ok (some sample, none) =>
      let matching := isMatching args sport frame sample
      handleFrames args sport ask read (i + 1)
        { batch with
          matched := if ask && matching then insert sample batch.matched else batch.matched
          yields := batch.yields ++ [⟨sample, read.wallMs i, matching, read.now i⟩] } frames

/-- The sample of a frame with its mark. -/
def sampleMark (args : Args) (sport : Nat) (frame : Bytes) : Option (Bytes × Bool) :=
  match decodeHkFrame args.cspVersion args.port frame args.node with
  | .ok (some sample, none) => some (sample, isMatching args sport frame sample)
  | _ => none

/-- The sample and the mark of a yield. -/
def Yield.marked (y : Yield T) : Bytes × Bool := (y.sample, y.matching)

/-- What a batch gains from frames: the yields of all their samples, and the marked ones in
`matched` when a reply was asked for. -/
structure Gained (args : Args) (sport : Nat) (ask : Bool) (frames : List Bytes)
    (batch batch' : Batch T) : Prop where
  yields : ∃ ys : List (Yield T), batch'.yields = batch.yields ++ ys
    ∧ ys.map Yield.marked = frames.filterMap (sampleMark args sport)
  matched : ∀ s, s ∈ batch'.matched ↔ s ∈ batch.matched
    ∨ (ask = true ∧ (s, true) ∈ frames.filterMap (sampleMark args sport))

/-- No frames, no gain. -/
theorem Gained.refl (args : Args) (sport : Nat) (ask : Bool) (batch : Batch T) :
    Gained args sport ask [] batch batch :=
  ⟨⟨[], by simp, rfl⟩, by simp⟩

/-- Gains add up. -/
theorem Gained.trans {args : Args} {sport : Nat} {ask : Bool} {frames frames' : List Bytes}
    {b b' b'' : Batch T} (h : Gained args sport ask frames b b')
    (h' : Gained args sport ask frames' b' b'') :
    Gained args sport ask (frames ++ frames') b b'' := by
  obtain ⟨⟨ys, hys, hmarks⟩, hmatched⟩ := h
  obtain ⟨⟨ys', hys', hmarks'⟩, hmatched'⟩ := h'
  refine ⟨⟨ys ++ ys', ?_, ?_⟩, ?_⟩
  · rw [hys', hys, List.append_assoc]
  · rw [List.map_append, hmarks, hmarks', List.filterMap_append]
  · intro s
    rw [hmatched', hmatched, List.filterMap_append, List.mem_append]
    tauto

/-- **The frames of one read**: every sample is yielded once, in order, with its mark; the
batch takes the marked ones; nothing is raised. -/
theorem handleFrames_spec (args : Args) (sport : Nat) (ask : Bool) (read : Read T) (i : Nat)
    (batch : Batch T) (frames : List Bytes) :
    (handleFrames args sport ask read i batch frames).2 = .ok ()
      ∧ Gained args sport ask frames batch (handleFrames args sport ask read i batch frames).1 := by
  induction frames generalizing i batch with
  | nil => exact ⟨rfl, Gained.refl args sport ask batch⟩
  | cons frame frames ih =>
    obtain ⟨⟨sample, problem⟩, hdec⟩ :=
      decodeHkFrame_never_raises args.cspVersion args.port frame args.node
    -- the first frame gains its own sample, if any, and the rest follows by induction
    suffices hfirst : ∃ batch', handleFrames args sport ask read i batch (frame :: frames)
          = handleFrames args sport ask read (i + 1) batch' frames
        ∧ Gained args sport ask [frame] batch batch' by
      obtain ⟨batch', heq, hgain⟩ := hfirst
      rw [heq]
      exact ⟨(ih (i + 1) batch').1, hgain.trans (ih (i + 1) batch').2⟩
    rw [handleFrames, hdec]
    cases problem with
    | some problem =>
      have hnone : sampleMark args sport frame = none := by
        rw [sampleMark, hdec]
        cases sample <;> rfl
      exact ⟨_, rfl, ⟨[], by simp, by simp [hnone]⟩, by simp [hnone]⟩
    | none =>
      cases sample with
      | none =>
        have hnone : sampleMark args sport frame = none := by
          rw [sampleMark, hdec]
        exact ⟨_, rfl, ⟨[], by simp, by simp [hnone]⟩, by simp [hnone]⟩
      | some sample =>
        have hsome : sampleMark args sport frame
            = some (sample, isMatching args sport frame sample) := by
          rw [sampleMark, hdec]
        refine ⟨_, rfl, ⟨_, rfl, by simp [hsome, Yield.marked]⟩, ?_⟩
        intro s
        simp only [List.filterMap_cons, hsome, List.filterMap_nil, List.mem_singleton,
          Prod.mk.injEq]
        cases ask <;> cases isMatching args sport frame sample <;> simp [or_comm, eq_comm]

/-! ## §3. The loop. -/

/-- How a poll ends: what it leaves behind and whether it raised. -/
structure Collected (T : Type*) where
  link : Link T
  reader : KissReader
  batch : Batch T
  outcome : Except PyError Unit

/-- The reading loop of `collect`, for at most `ticks` turns. -/
def collectLoop [Zero T] (args : Args) (sport count : Nat) (ask : Bool) :
    Nat → Link T → KissReader → Batch T → Collected T
  | 0, link, reader, batch => ⟨link, reader, batch, .ok ()⟩
    -- `if ask and len(matched) >= count: break`
  | ticks + 1, link, reader, batch =>
    if ask = true ∧ batch.matched.card ≥ count then
      ⟨link, reader, batch, .ok ()⟩
    else
      let read := link.read
      let fed := feed args.cspVersion reader read.1.data
      match handleFrames args sport ask read.1 0 batch fed.2 with
      | (batch, .error e) => ⟨read.2, fed.1, batch, .error e⟩
      | (batch, .ok ()) => collectLoop args sport count ask ticks read.2 fed.1 batch

/-- The check after the loop. -/
def Collected.finish (c : Collected T) (count : Nat) (ask : Bool) : Collected T :=
  match c.outcome with
  | .error _ => c
  | .ok () =>
    if ask = true ∧ c.batch.matched.card < count then
      { c with outcome := .error (.timeoutError ("received " ++ toString c.batch.matched.card
          ++ " of " ++ toString count ++ " requested samples")) }
    else
      c

/-- `collect`, as a whole run of the generator. -/
def collect [Zero T] (args : Args) (link : Link T) (reader : KissReader) (sport count : Nat)
    (ask : Bool) (ticks : Nat) : Collected T :=
  if ask = true then
    match buildRequest args.cspVersion args.port args.source args.node sport args.report count 0
        args.classMask with
    | .error e => ⟨link, reader, Batch.empty, .error e⟩
    | .ok request =>
      (collectLoop args sport count ask ticks
        { link with written := link.written ++ [request] } reader Batch.empty).finish count ask
  else
    (collectLoop args sport count ask ticks link reader Batch.empty).finish count ask

/-- What a poll has read: it took reads from the queue, the reader has all their bytes, and
the batch gained what the frames in these bytes carry. -/
structure Faithful (args : Args) (sport : Nat) (ask : Bool) (link : Link T) (reader : KissReader)
    (batch : Batch T) (c : Collected T) : Prop where
  reads : ∃ reads, link.arriving = reads ++ c.link.arriving
    ∧ c.link.received = link.received ++ reads
    ∧ c.reader = (feed args.cspVersion reader (readBytes reads)).1
    ∧ Gained args sport ask (feed args.cspVersion reader (readBytes reads)).2 batch c.batch

/-- Stopping at once. -/
theorem faithful_stop (args : Args) (sport : Nat) (ask : Bool) (link : Link T)
    (reader : KissReader) (batch : Batch T) (outcome : Except PyError Unit) :
    Faithful args sport ask link reader batch ⟨link, reader, batch, outcome⟩ :=
  ⟨[], rfl, by simp, rfl, Gained.refl args sport ask batch⟩

/-- A read in front of a faithful rest. -/
theorem faithful_read [Zero T] {args : Args} {sport : Nat} {ask : Bool} {link : Link T}
    {reader : KissReader} {batch batch' : Batch T} {c : Collected T}
    (hgain : Gained args sport ask (feed args.cspVersion reader link.read.1.data).2 batch batch')
    (hrest : Faithful args sport ask link.read.2
      (feed args.cspVersion reader link.read.1.data).1 batch' c) :
    Faithful args sport ask link reader batch c := by
  obtain ⟨reads, harriving, hreceived, hreader, hgain'⟩ := hrest
  cases hl : link.arriving with
  | nil =>
    -- nothing to come: the empty read changes neither the reader nor the batch
    have hread : link.read = (⟨[], fun _ => 0, fun _ => 0⟩, link) := by
      rw [Link.read, hl]
    rw [hread] at harriving hreceived hreader hgain hgain'
    refine ⟨reads, harriving, hreceived, hreader, ?_⟩
    have h := hgain.trans hgain'
    simpa [feed] using h
  | cons r rest =>
    have hread : link.read
        = (r, { link with received := link.received ++ [r], arriving := rest }) := by
      rw [Link.read, hl]
    rw [hread] at harriving hreceived hreader hgain hgain'
    have hbytes : readBytes (r :: reads) = r.data ++ readBytes reads := by
      simp [readBytes]
    have hfeed : feed args.cspVersion reader (readBytes (r :: reads))
        = ((feed args.cspVersion (feed args.cspVersion reader r.data).1 (readBytes reads)).1,
          (feed args.cspVersion reader r.data).2
            ++ (feed args.cspVersion (feed args.cspVersion reader r.data).1
              (readBytes reads)).2) := by
      rw [hbytes]
      exact Reader.run_append _ _ _ _
    refine ⟨r :: reads, ?_, ?_, ?_, ?_⟩
    · rw [hl, List.cons_append]
      exact congrArg (r :: ·) harriving
    · rw [hreceived]
      simp
    · rw [hfeed]
      exact hreader
    · rw [hfeed]
      exact hgain.trans hgain'

/-- **The loop is faithful to the link** and raises nothing. -/
theorem collectLoop_spec [Zero T] (args : Args) (sport count : Nat) (ask : Bool) (ticks : Nat)
    (link : Link T) (reader : KissReader) (batch : Batch T) :
    (collectLoop args sport count ask ticks link reader batch).outcome = .ok ()
      ∧ Faithful args sport ask link reader batch
          (collectLoop args sport count ask ticks link reader batch) := by
  -- one turn reads once, and `faithful_read` puts that read in front of the rest
  induction ticks generalizing link reader batch with
  | zero => exact ⟨rfl, faithful_stop args sport ask link reader batch _⟩
  | succ ticks ih =>
    rw [collectLoop]
    split
    · exact ⟨rfl, faithful_stop args sport ask link reader batch _⟩
    · obtain ⟨hok, hgain⟩ := handleFrames_spec args sport ask link.read.1 0 batch
        (feed args.cspVersion reader link.read.1.data).2
      dsimp only
      split
      · rename_i batch' e hframes
        rw [hframes] at hok
        exact absurd hok (by simp)
      · rename_i batch' hframes
        rw [hframes] at hgain
        obtain ⟨hout, hrest⟩ := ih link.read.2
          (feed args.cspVersion reader link.read.1.data).1 batch'
        exact ⟨hout, faithful_read hgain hrest⟩

/-- The check after the loop changes the outcome only, and raises nothing but `TimeoutError`. -/
theorem finish_spec (c : Collected T) (count : Nat) (ask : Bool) (hc : c.outcome = .ok ()) :
    (c.finish count ask).link = c.link ∧ (c.finish count ask).reader = c.reader
      ∧ (c.finish count ask).batch = c.batch
      ∧ ((c.finish count ask).outcome = .ok ()
        ∨ ∃ message, (c.finish count ask).outcome = .error (.timeoutError message)) := by
  rw [Collected.finish, hc]
  dsimp only
  split
  · exact ⟨rfl, rfl, rfl, Or.inr ⟨_, rfl⟩⟩
  · exact ⟨rfl, rfl, rfl, Or.inl hc⟩

/-- The request of a poll is built, whatever port in range it asks from. -/
theorem buildRequest_ok (args : Args) {sport count : Nat} (hsport : sport ≤ 63)
    (hcount : count ≤ 255) :
    ∃ request, buildRequest args.cspVersion args.port args.source args.node sport args.report
      count 0 args.classMask = .ok request := by
  -- `main` has checked every number that is packed
  let request : Request args.cspVersion :=
    { source := args.source, destination := args.node, hkPort := args.port, sport := sport,
      report := args.report, count := count, firstAge := 0, classMask := args.classMask,
      source_le := args.source_le, destination_le := args.node_le, hkPort_le := args.port_le,
      sport_le := hsport, report_le := Nat.le_of_lt_succ args.report_lt, count_le := hcount,
      firstAge_le := Nat.zero_le _, classMask_le := args.class_le }
  exact ⟨_, buildRequest_eq request⟩

/-- What a poll writes before it reads. -/
def IsRequests (args : Args) (sport count : Nat) (ask : Bool) (requests : List Bytes) : Prop :=
  if ask = true then
    ∃ request, buildRequest args.cspVersion args.port args.source args.node sport args.report
      count 0 args.classMask = .ok request ∧ requests = [request]
  else
    requests = []

/-- A poll with arguments in range is its request, the loop and the check after it. -/
theorem collect_eq [Zero T] (args : Args) (link : Link T) (reader : KissReader) {sport count : Nat}
    (hsport : sport ≤ 63) (hcount : count ≤ 255) (ask : Bool) (ticks : Nat) :
    ∃ requests, IsRequests args sport count ask requests
      ∧ collect args link reader sport count ask ticks
        = (collectLoop args sport count ask ticks
            { link with written := link.written ++ requests } reader Batch.empty).finish count ask := by
  unfold IsRequests collect
  cases ask with
  | true =>
    obtain ⟨request, hrequest⟩ := buildRequest_ok args hsport hcount
    refine ⟨[request], ?_, ?_⟩
    · rw [if_pos rfl]
      exact ⟨request, hrequest, rfl⟩
    · rw [if_pos rfl, hrequest]
  | false =>
    refine ⟨[], ?_, ?_⟩
    · rw [if_neg (by decide)]
    · rw [if_neg (by decide), List.append_nil]

/-- **One poll** from a port in range: it raises nothing but `TimeoutError`, and what it yields
and counts are the samples of the frames in the bytes it read. -/
theorem collect_spec [Zero T] (args : Args) (link : Link T) (reader : KissReader)
    {sport count : Nat} (hsport : sport ≤ 63) (hcount : count ≤ 255) (ask : Bool) (ticks : Nat) :
    Faithful args sport ask link reader Batch.empty
        (collect args link reader sport count ask ticks)
      ∧ ((collect args link reader sport count ask ticks).outcome = .ok ()
        ∨ ∃ message, (collect args link reader sport count ask ticks).outcome
            = .error (.timeoutError message)) := by
  obtain ⟨requests, -, heq⟩ := collect_eq args link reader hsport hcount ask ticks
  obtain ⟨hok, hfaithful⟩ := collectLoop_spec args sport count ask ticks
    { link with written := link.written ++ requests } reader Batch.empty
  obtain ⟨hlink, hreader, hbatch, hout⟩ := finish_spec _ count ask hok
  rw [heq]
  refine ⟨?_, hout⟩
  obtain ⟨reads, h1, h2, h3, h4⟩ := hfaithful
  refine ⟨reads, ?_, ?_, ?_, ?_⟩
  · rw [hlink]
    exact h1
  · rw [hlink]
    exact h2
  · rw [hreader]
    exact h3
  · rw [hbatch]
    exact h4

/-! ## §4. How a poll ends. -/

/-- The distinct samples that were yielded as matching. -/
def distinctMatching (yields : List (Yield T)) : Finset Bytes :=
  ((yields.filter (·.matching)).map (·.sample)).toFinset

theorem mem_distinctMatching (yields : List (Yield T)) (s : Bytes) :
    s ∈ distinctMatching yields ↔ (s, true) ∈ yields.map Yield.marked := by
  unfold distinctMatching
  rw [List.mem_toFinset, List.mem_map, List.mem_map]
  constructor
  · rintro ⟨y, hy, rfl⟩
    obtain ⟨hy, hmatching⟩ := List.mem_filter.mp hy
    exact ⟨y, hy, by rw [Yield.marked, hmatching]⟩
  · rintro ⟨y, hy, hmark⟩
    obtain ⟨hsample, hmatching⟩ := Prod.mk.inj hmark
    exact ⟨y, List.mem_filter.mpr ⟨hy, hmatching⟩, hsample⟩

/-- A poll that asks counts the distinct matching samples it has yielded. -/
theorem Gained.matched_eq {args : Args} {sport : Nat} {frames : List Bytes} {batch : Batch T}
    (h : Gained args sport true frames Batch.empty batch) :
    batch.matched = distinctMatching batch.yields := by
  obtain ⟨⟨ys, hys, hmarks⟩, hmatched⟩ := h
  have hyields : batch.yields = ys := hys
  ext s
  rw [hmatched, mem_distinctMatching, hyields, hmarks]
  constructor
  · rintro (h | ⟨_, h⟩)
    · exact absurd h (Finset.notMem_empty s)
    · exact h
  · intro h
    exact .inr ⟨rfl, h⟩

/-- The loop writes nothing. -/
theorem collectLoop_written [Zero T] (args : Args) (sport count : Nat) (ask : Bool) (ticks : Nat)
    (link : Link T) (reader : KissReader) (batch : Batch T) :
    (collectLoop args sport count ask ticks link reader batch).link.written = link.written := by
  have hread : ∀ link : Link T, link.read.2.written = link.written := by
    intro link
    unfold Link.read
    split <;> rfl
  induction ticks generalizing link reader batch with
  | zero => rfl
  | succ ticks ih =>
    rw [collectLoop]
    split
    · rfl
    · dsimp only
      split
      · exact hread link
      · rw [ih, hread]

/-- **A loop that is not full at its end has read until the deadline.** -/
theorem collectLoop_deadline [Zero T] (args : Args) (sport count : Nat) (ask : Bool) (ticks : Nat)
    (link : Link T) (reader : KissReader) (batch : Batch T)
    (h : ¬ (ask = true ∧ (collectLoop args sport count ask ticks link reader
      batch).batch.matched.card ≥ count)) :
    (collectLoop args sport count ask ticks link reader batch).link.arriving
      = link.arriving.drop ticks := by
  have hread : ∀ link : Link T, link.read.2.arriving = link.arriving.drop 1 := by
    intro link
    unfold Link.read
    cases hl : link.arriving with
    | nil => exact hl
    | cons r rest => rfl
  induction ticks generalizing link reader batch with
  | zero => rfl
  | succ ticks ih =>
    rw [collectLoop] at h ⊢
    -- a full batch would have stopped the loop here
    by_cases hfull : ask = true ∧ batch.matched.card ≥ count
    · rw [if_pos hfull] at h
      exact absurd hfull h
    · rw [if_neg hfull] at h ⊢
      dsimp only at h ⊢
      obtain ⟨hok, -⟩ := handleFrames_spec args sport ask link.read.1 0 batch
        (feed args.cspVersion reader link.read.1.data).2
      split at h
      · rename_i batch' e hframes
        rw [hframes] at hok
        exact absurd hok (by simp)
      · rw [ih _ _ _ h, hread, List.drop_drop, Nat.add_comm]

/-- When the check after the loop raises. -/
theorem finish_outcome (c : Collected T) (count : Nat) (ask : Bool) (hc : c.outcome = .ok ()) :
    (c.finish count ask).outcome
      = if ask = true ∧ c.batch.matched.card < count then
          .error (.timeoutError ("received " ++ toString c.batch.matched.card ++ " of "
            ++ toString count ++ " requested samples"))
        else .ok () := by
  rw [Collected.finish, hc]
  dsimp only
  split
  · rfl
  · exact hc

/-- The mark of a sample says whether it answers the request. -/
theorem sampleMark_iff (args : Args) (sport : Nat) (frame s : Bytes) (mark : Bool) :
    sampleMark args sport frame = some (s, mark)
      ↔ decodeHkFrame args.cspVersion args.port frame args.node = .ok (some s, none)
        ∧ (mark = true ↔ (parseCspHeader args.cspVersion frame).destination = args.source
            ∧ (parseCspHeader args.cspVersion frame).dport = sport
            ∧ (args.classMask.isSome = true ∨ (s.getD 1 0).toNat = args.report)) := by
  have hmark : ∀ s' : Bytes, isMatching args sport frame s' = true
      ↔ (parseCspHeader args.cspVersion frame).destination = args.source
        ∧ (parseCspHeader args.cspVersion frame).dport = sport
        ∧ (args.classMask.isSome = true ∨ (s'.getD 1 0).toNat = args.report) := by
    intro s'
    unfold isMatching
    simp only [Bool.and_eq_true, Bool.or_eq_true, decide_eq_true_eq, and_assoc]
  rw [← hmark, sampleMark]
  constructor
  · intro h
    split at h
    · rename_i sample hdecode
      obtain ⟨hs, hm⟩ := Prod.mk.inj (Option.some.inj h)
      rw [← hs, ← hm]
      exact ⟨hdecode, Iff.rfl⟩
    · exact absurd h (by simp)
  · intro ⟨hdecode, hm⟩
    rw [hdecode]
    dsimp only
    rw [Bool.eq_iff_iff.mpr hm]

/-- **`collect` is faithful to the link**: it yields the samples of the frames the reader
completes from the chunks it read, once and in order, each with its mark.  A poll that asks
writes one request; it returns with enough distinct matching samples, and otherwise raises
`TimeoutError` at the deadline.  A poll that does not ask writes nothing and never raises. -/
theorem collect_exact [Zero T] (args : Args) (link : Link T) (reader : KissReader)
    (sport count : Nat) (ask : Bool) (ticks : Nat) (hsport : sport ≤ 63) (hcount : count ≤ 255) :
    let c := collect args link reader sport count ask ticks
    (∃ reads, link.arriving = reads ++ c.link.arriving
        ∧ c.link.received = link.received ++ reads
        ∧ c.batch.yields.map (fun y => (y.sample, y.matching))
          = (feedChunks args.cspVersion reader (reads.map Read.data)).2.flatten.filterMap
              (sampleMark args sport))
      ∧ (∀ frame s mark, sampleMark args sport frame = some (s, mark)
          ↔ decodeHkFrame args.cspVersion args.port frame args.node = .ok (some s, none)
            ∧ (mark = true ↔ (parseCspHeader args.cspVersion frame).destination = args.source
                ∧ (parseCspHeader args.cspVersion frame).dport = sport
                ∧ (args.classMask.isSome = true ∨ (s.getD 1 0).toNat = args.report)))
      ∧ (ask = true →
          (∃ request, buildRequest args.cspVersion args.port args.source args.node sport
              args.report count 0 args.classMask = .ok request
            ∧ c.link.written = link.written ++ [request])
          ∧ (c.outcome = .ok () → count ≤ (distinctMatching c.batch.yields).card)
          ∧ (c.outcome ≠ .ok () → (distinctMatching c.batch.yields).card < count
              ∧ c.link.arriving = link.arriving.drop ticks
              ∧ ∃ message, c.outcome = .error (.timeoutError message)))
      ∧ (ask = false → c.link.written = link.written ∧ c.outcome = .ok ()
          ∧ c.link.arriving = link.arriving.drop ticks) := by
  obtain ⟨requests, hrequests, heq⟩ := collect_eq args link reader hsport hcount ask ticks
  obtain ⟨⟨reads, harriving, hreceived, -, hgain⟩, -⟩ :=
    collect_spec args link reader hsport hcount ask ticks
  have hwritten := collectLoop_written args sport count ask ticks
    { link with written := link.written ++ requests } reader Batch.empty
  have hdeadline := collectLoop_deadline args sport count ask ticks
    { link with written := link.written ++ requests } reader Batch.empty
  obtain ⟨hok, -⟩ := collectLoop_spec args sport count ask ticks
    { link with written := link.written ++ requests } reader Batch.empty
  obtain ⟨hlink, -, hbatch, -⟩ := finish_spec _ count ask hok
  have hout := finish_outcome _ count ask hok
  rw [← heq] at hlink hbatch hout
  rw [← hlink] at hwritten hdeadline
  rw [← hbatch] at hdeadline hout
  intro c
  refine ⟨⟨reads, harriving, hreceived, ?_⟩, sampleMark_iff args sport, ?_, ?_⟩
  · obtain ⟨⟨ys, hys, hmarks⟩, -⟩ := hgain
    rw [feedChunks_flatten, show (reads.map Read.data).flatten = readBytes reads from rfl, ← hmarks]
    exact congrArg (List.map Yield.marked) hys
  · intro hask
    subst hask
    rw [IsRequests, if_pos rfl] at hrequests
    obtain ⟨request, hrequest, rfl⟩ := hrequests
    have hmatched : c.batch.matched = distinctMatching c.batch.yields := hgain.matched_eq
    refine ⟨⟨request, hrequest, hwritten⟩, ?_, ?_⟩
    · intro hreturned
      rw [hreturned] at hout
      split at hout
      · exact absurd hout (by simp)
      · rename_i hfull
        rw [← hmatched]
        exact Nat.not_lt.mp fun hlt => hfull ⟨rfl, hlt⟩
    · intro hraised
      split at hout
      · rename_i hshort
        rw [← hmatched]
        exact ⟨hshort.2, hdeadline fun h => Nat.not_le.mpr hshort.2 h.2, _, hout⟩
      · exact absurd hout hraised
  · intro hask
    subst hask
    rw [IsRequests, if_neg (by decide)] at hrequests
    subst hrequests
    rw [if_neg (by simp)] at hout
    exact ⟨hwritten.trans (List.append_nil _), hout, hdeadline fun h => absurd h.1 (by decide)⟩

/-- A poll of node 2 for two samples of its classes 1 and 2. -/
def pollArgs : Args :=
  { cspVersion := .csp1, port := 15, node := 2, source := 17, sport := 40, report := 3
    classMask := some 6, count := 2, listen := false
    node_le := by decide, source_le := by decide, sport_ge := by decide, sport_le := by decide
    report_lt := by decide, count_pos := by decide, count_le := by decide, port_le := by decide
    class_le := by simp }

/-- The sample a poll asked for, and one the node sent to node 18. -/
def replySample : Bytes := [1, 3, 0, 7, 0, 0, 0, 1, 1, 0, 5]

def foreignSample : Bytes := [1, 3, 0, 8, 0, 0, 0, 1, 1, 0, 6]

def answerFrames : List Bytes :=
  [hkFrame [0x85, 0x1A, 0x0F, 0x00] replySample 0, hkFrame [0x85, 0x2A, 0x0F, 0x00] foreignSample 0]

/-- A link that delivers both in one read. -/
def answeringLink : Link ℕ :=
  ⟨[], [⟨kissStream answerFrames, fun _ => 1700000000000, fun _ => 0⟩], []⟩

theorem feed_answeringLink :
    (feedChunks .csp1 KissReader.init (answeringLink.arriving.map Read.data)).2.flatten
      = answerFrames := by
  have hfits : ∀ f ∈ answerFrames, FrameFits .csp1 f := by
    intro f hf
    rcases List.mem_cons.mp hf with rfl | hf
    · exact frameFits_hkFrame .csp1 _ _ _ (by decide) (by decide +kernel)
    · rw [List.mem_singleton.mp hf]
      exact frameFits_hkFrame .csp1 _ _ _ (by decide) (by decide +kernel)
  have hfeed := feed_kissStream .csp1 KissReader.init answerFrames hfits
  rw [show KissReader.init.collected = none from rfl, Option.toList_none, ite_self,
    List.nil_append] at hfeed
  have hdata : (answeringLink.arriving.map Read.data).flatten = kissStream answerFrames := by
    simp only [answeringLink, List.map_cons, List.map_nil, List.flatten_cons, List.flatten_nil,
      List.append_nil]
  rw [feedChunks_flatten, hdata, hfeed]

/-- One matching sample among those that were yielded. -/
theorem card_answered {yields : List (Yield T)}
    (h : yields.map Yield.marked = [(replySample, true), (foreignSample, false)]) :
    (distinctMatching yields).card = 1 := by
  rw [Finset.card_eq_one]
  refine ⟨replySample, Finset.ext fun s => ?_⟩
  rw [mem_distinctMatching, h]
  simp

/-- Both samples are yielded and the first is marked: a poll for one sample returns, and a poll
for two raises. -/
theorem collect_exact_answered :
    (∀ count, 1 ≤ count → count ≤ 255 →
        let c := collect pollArgs answeringLink KissReader.init 40 count true 3
        c.batch.yields.map (fun y => (y.sample, y.matching))
            = [(replySample, true), (foreignSample, false)]
          ∧ ∃ request, c.link.written = [request])
      ∧ (collect pollArgs answeringLink KissReader.init 40 1 true 3).outcome = .ok ()
      ∧ ∃ message, (collect pollArgs answeringLink KissReader.init 40 2 true 3).outcome
          = .error (.timeoutError message) := by
  have hmarks : answerFrames.filterMap (sampleMark pollArgs 40)
      = [(replySample, true), (foreignSample, false)] := by decide +kernel
  have hyields : ∀ count, 1 ≤ count → count ≤ 255 →
      let c := collect pollArgs answeringLink KissReader.init 40 count true 3
      c.batch.yields.map (fun y => (y.sample, y.matching))
          = [(replySample, true), (foreignSample, false)]
        ∧ ∃ request, c.link.written = [request] := by
    intro count hpos hcount c
    obtain ⟨⟨reads, harriving, -, hyields⟩, -, hasked, -⟩ :=
      collect_exact pollArgs answeringLink KissReader.init 40 count true 3 (by decide) hcount
    obtain ⟨⟨request, -, hwritten⟩, hreturned, hraised⟩ := hasked rfl
    refine ⟨?_, request, hwritten⟩
    -- a poll that leaves the read on the link has nothing, and would not have stopped
    cases reads with
    | nil =>
      exfalso
      have hnone : c.batch.yields = [] := List.map_eq_nil_iff.mp hyields
      by_cases hok : c.outcome = .ok ()
      · have hcard := hreturned hok
        rw [show distinctMatching c.batch.yields = ∅ by rw [hnone]; rfl, Finset.card_empty] at hcard
        omega
      · have hdrop := (hraised hok).2.1
        rw [hdrop] at harriving
        exact absurd harriving (by simp [answeringLink])
    | cons r reads =>
      have hall : answeringLink.arriving = r :: reads := by
        obtain ⟨rfl, htail⟩ := List.cons.inj harriving
        obtain rfl : reads = [] := (List.append_eq_nil_iff.mp htail.symm).1
        rfl
      rw [← hall] at hyields
      exact hyields.trans ((congrArg _ feed_answeringLink).trans hmarks)
  refine ⟨hyields, ?_, ?_⟩
  · by_contra hraised
    obtain ⟨-, -, hasked, -⟩ :=
      collect_exact pollArgs answeringLink KissReader.init 40 1 true 3 (by decide) (by decide)
    have hshort := ((hasked rfl).2.2 hraised).1
    rw [card_answered (hyields 1 (by decide) (by decide)).1] at hshort
    exact absurd hshort (by decide)
  · obtain ⟨-, -, hasked, -⟩ :=
      collect_exact pollArgs answeringLink KissReader.init 40 2 true 3 (by decide) (by decide)
    refine ((hasked rfl).2.2 fun hok => ?_).2.2
    have hfull := (hasked rfl).2.1 hok
    rw [card_answered (hyields 2 (by decide) (by decide)).1] at hfull
    exact absurd hfull (by decide)

end KFsw.Ground
