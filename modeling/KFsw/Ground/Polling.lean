/-
  KFsw.Ground.Polling — the polling loop of `main` in `tools/ground/hk-bridge.py`.

  Each turn polls once from its own source port, passes what the poll yields
  through the duplicate filter and forwards the rest; a poll that times out is
  reported and the loop goes on.  The link, the KISS reader and the filter live
  from turn to turn.  The arguments of `forward` are the outputs here; what it
  does with them is in `KFsw.Ground.Capture`.

  `Reply` is a frame of a node that answers each request to its source port.
  The link may deliver the replies late, repeated, in any order or not at all,
  cut into reads in any way.

  Main results:
    * `portOf_eq`            — the port of a poll, in closed form;
    * `poll_step`            — one turn keeps the invariant and yields exactly
      the replies it read;
    * `late_reply_recorded`  — over every run, a reply counts only for polls a
      whole number of port cycles away from its own, and is forwarded all the
      same.
-/
import KFsw.Ground.Collect
import KFsw.Ground.Recent
import KFsw.Ground.Store
import Mathlib.Algebra.Order.Ring.Int

namespace KFsw.Ground

open KFsw.Lib

variable {T : Type*} [LinearOrder T] [Zero T] [Sub T] [NatCast T]

/-! ## §1. The loop. -/

/-- `16 + (sport - 15) % 48`. -/
def nextPort (sport : Nat) : Nat := 16 + (sport - 15) % 48

/-- What `main` keeps from turn to turn; `raised` is an exception that ended it. -/
structure Bridge (T : Type*) where
  link : Link T
  reader : KissReader
  recent : RecentSamples T
  sport : Nat
  raised : Option PyError

/-- One turn: the port it asked from, the link after it, what `collect` yielded and counted,
the samples passed to `forward`, and whether it timed out. -/
structure Poll (T : Type*) where
  sport : Nat
  link : Link T
  yields : List (Yield T)
  matched : Finset Bytes
  forwarded : List RecordCall
  failed : Bool

/-- The body of `for sample, received_ms, _matching in collect(..)`. -/
def consumer (T : Type*) [LinearOrder T] [Sub T] [NatCast T] (node : Nat) :
    Reader (RecentSamples T) (Yield T) RecordCall :=
  ⟨fun r y =>
    let a := r.accept node y.sample y.now
    (a.1, if a.2 then some ⟨node, y.sample, y.receivedMs⟩ else none)⟩

/-- One turn of `while True`, whose poll may read `ticks` times.  `TimeoutError` is caught;
any other exception ends the loop. -/
def Bridge.poll (args : Args) (s : Bridge T) (ticks : Nat) : Bridge T × Option (Poll T) :=
  match s.raised with
  | some _ => (s, none)
  | none =>
    let c := collect args s.link s.reader s.sport args.count (!args.listen) ticks
    let f := (consumer T args.node).run s.recent c.batch.yields
    let sport := if args.listen then s.sport else nextPort s.sport
    match c.outcome with
    | .ok () =>
      (⟨c.link, c.reader, f.1, sport, none⟩,
        some ⟨s.sport, c.link, c.batch.yields, c.batch.matched, f.2, false⟩)
      -- `except TimeoutError`: reported, and the loop goes on from the next port
    | .error (.timeoutError _) =>
      (⟨c.link, c.reader, f.1, sport, none⟩,
        some ⟨s.sport, c.link, c.batch.yields, c.batch.matched, f.2, true⟩)
    | .error e =>
      (⟨c.link, c.reader, f.1, s.sport, some e⟩,
        some ⟨s.sport, c.link, c.batch.yields, c.batch.matched, f.2, true⟩)

/-- Successive turns, each given as the number of reads its poll may make. -/
def bridge (T : Type*) [LinearOrder T] [Zero T] [Sub T] [NatCast T] (args : Args) :
    Reader (Bridge T) Nat (Poll T) :=
  ⟨Bridge.poll args⟩

/-- `main` before its first turn. -/
def Bridge.start (args : Args) (arriving : List (Read T)) : Bridge T :=
  ⟨⟨[], arriving, []⟩, KissReader.init, RecentSamples.init, args.sport, none⟩

/-! ## §2. Ports. -/

/-- The source port of poll `k`. -/
def portOf (sport : Nat) : Nat → Nat
  | 0 => sport
  | k + 1 => nextPort (portOf sport k)

/-- **The ports run through 16..63** and start over. -/
theorem portOf_eq {sport : Nat} (h : 16 ≤ sport ∧ sport ≤ 63) (k : Nat) :
    portOf sport k = 16 + (sport - 16 + k) % 48 := by
  induction k with
  | zero =>
    show sport = _
    omega
  | succ k ih =>
    rw [portOf, ih, nextPort]
    omega

theorem portOf_bounds (args : Args) (k : Nat) :
    16 ≤ portOf args.sport k ∧ portOf args.sport k ≤ 63 := by
  rw [portOf_eq ⟨args.sport_ge, args.sport_le⟩]
  omega

/-- Two polls ask from one port exactly when they are whole cycles apart. -/
theorem portOf_eq_iff (args : Args) (j k : Nat) :
    portOf args.sport j = portOf args.sport k ↔ j % 48 = k % 48 := by
  rw [portOf_eq ⟨args.sport_ge, args.sport_le⟩, portOf_eq ⟨args.sport_ge, args.sport_le⟩]
  omega

/-! ## §3. Replies. -/

/-- A reply of the node to poll `poll`: a sample in a frame to the poll's source port, with a
CSP checksum or without. -/
structure Reply (args : Args) where
  poll : Nat
  header : Bytes
  sample : Sample
  flags : Nat
  header_length : header.length = cspHeaderBytes args.cspVersion
  header_fields : parseCspHeader args.cspVersion header
    = ⟨args.source, args.node, portOf args.sport poll, args.port, flags⟩
  flags_known : flags = 0 ∨ flags = 1

namespace Reply

variable {args : Args}

def frame (r : Reply args) : Bytes := hkFrame r.header r.sample.bytes r.flags

/-- Whether a reply counts for poll `j`: it answers a poll from the same port and, unless a
class was asked for, with the report asked for. -/
def countsFor (r : Reply args) (j : Nat) : Bool :=
  decide (r.poll % 48 = j % 48)
    && (args.classMask.isSome || decide ((sampleHeader r.sample.bytes).report = args.report))

theorem fits (r : Reply args) : FrameFits args.cspVersion r.frame :=
  frameFits_hkFrame _ _ _ _ r.header_length ((validateSample_ok_iff _).mpr r.sample.valid)

/-- The bridge takes the sample out of a reply and marks it for the polls it counts for. -/
theorem sampleMark_frame (r : Reply args) (j : Nat) :
    sampleMark args (portOf args.sport j) r.frame = some (r.sample.bytes, r.countsFor j) := by
  have hparse : parseCspHeader args.cspVersion r.frame
      = ⟨args.source, args.node, portOf args.sport r.poll, args.port, r.flags⟩ := by
    rw [frame, hkFrame, List.append_assoc, parseCspHeader_append _ _ _ r.header_length,
      r.header_fields]
  have hdec : decodeHkFrame args.cspVersion args.port r.frame args.node
      = .ok (some r.sample.bytes, none) := by
    apply decodeHkFrame_of_isHkFrame
    have hfields := r.header_fields
    refine ⟨r.header, checksums r.flags r.sample.bytes, rfl, r.header_length, ?_, ?_, ?_,
      (validateSample_ok_iff _).mpr r.sample.valid, ?_⟩ <;> rw [hfields]
    exact r.flags_known
  have hmatch : isMatching args (portOf args.sport j) r.frame r.sample.bytes = r.countsFor j := by
    rw [isMatching, hparse, countsFor]
    simp only [portOf_eq_iff, decide_true, Bool.true_and]
    rfl
  rw [sampleMark, hdec]
  show some (_, _) = _
  rw [hmatch]

end Reply

/-- The replies whose frames end in the bytes of some reads. -/
def repliesIn {args : Args} (reads : List (Read T)) (replies : List (Reply args)) :
    List (Reply args) :=
  within (fun r => (kissEncode r.frame).length) (readBytes reads).length replies

omit [LinearOrder T] [Zero T] [Sub T] [NatCast T] in
/-- What a fresh reader returns for the beginning of the replies. -/
theorem feed_replies {args : Args} (reads : List (Read T)) (replies : List (Reply args))
    (h : readBytes reads <+: kissStream (replies.map Reply.frame)) :
    (feed args.cspVersion KissReader.init (readBytes reads)).2
      = (repliesIn reads replies).map Reply.frame := by
  rw [feed_kissStream_within _ _ rfl _ _ _ h, within_map]
  · rfl
  · intro f hf
    obtain ⟨r, _, rfl⟩ := List.mem_map.mp hf
    exact r.fits

/-! ## §4. The filter forwards every sample at least once. -/

omit [Zero T] in
/-- What `accept` refuses it knew; what it knows afterwards it knew or has just accepted. -/
theorem accept_known (r : RecentSamples T) (known : List Bytes)
    (h : ∀ e ∈ r.seen.entries, e.1.2 ∈ known) (node : Nat) (sample : Bytes) (now : T) :
    ((r.accept node sample now).2 = false → sample ∈ known)
      ∧ ∀ e ∈ (r.accept node sample now).1.seen.entries, e.1.2 ∈ known
        ∨ ((r.accept node sample now).2 = true ∧ e.1.2 = sample) := by
  have hpop : ∀ e ∈ (r.seen.popWhile fun inserted => decide (now - inserted ≥ 60)).entries,
      e.1.2 ∈ known :=
    fun e he => h e ((List.dropWhile_sublist _).subset he)
  unfold RecentSamples.accept
  dsimp only
  by_cases hc : (r.seen.popWhile fun inserted => decide (now - inserted ≥ 60)).contains
      (node, sample) = true
  · rw [if_pos hc]
    rw [OrderedDict.contains_iff] at hc
    obtain ⟨e, he, hkey⟩ := List.mem_map.mp hc
    refine ⟨fun _ => ?_, fun e he => Or.inl (hpop e he)⟩
    have := hpop e he
    rwa [hkey] at this
  · have hset : ∀ e ∈ ((r.seen.popWhile fun inserted => decide (now - inserted ≥ 60)).set
        (node, sample) now).entries, e.1.2 ∈ known ∨ e.1.2 = sample := by
      intro e he
      rw [OrderedDict.set_new _ _ _ (Bool.eq_false_iff.mpr hc)] at he
      rcases List.mem_append.mp he with he | he
      · exact Or.inl (hpop e he)
      · rw [List.mem_singleton.mp he]
        exact Or.inr rfl
    rw [if_neg hc]
    split
    · refine ⟨fun hfalse => absurd hfalse Bool.noConfusion, fun e he => ?_⟩
      exact (hset e (List.mem_of_mem_tail he)).imp_right fun hs => ⟨rfl, hs⟩
    · exact ⟨fun hfalse => absurd hfalse Bool.noConfusion,
        fun e he => (hset e he).imp_right fun hs => ⟨rfl, hs⟩⟩

omit [Zero T] in
/-- Every yielded sample is forwarded, unless an equal one was before. -/
theorem consumer_run (node : Nat) (ys : List (Yield T)) (r : RecentSamples T)
    (known : List Bytes) (h : ∀ e ∈ r.seen.entries, e.1.2 ∈ known) :
    (∀ e ∈ ((consumer T node).run r ys).1.seen.entries,
        e.1.2 ∈ known ++ ((consumer T node).run r ys).2.map RecordCall.sample)
      ∧ ∀ y ∈ ys, y.sample ∈ known ++ ((consumer T node).run r ys).2.map RecordCall.sample := by
  induction ys generalizing r known with
  | nil => exact ⟨fun e he => List.mem_append_left _ (h e he), fun y hy => absurd hy (by simp)⟩
  | cons y ys ih =>
    obtain ⟨hrefused, hseen⟩ := accept_known r known h node y.sample y.now
    rw [Reader.run_cons]
    dsimp only [consumer] at ih ⊢
    cases ha : (r.accept node y.sample y.now).2 with
      -- refused: an equal sample was forwarded before
    | false =>
      rw [ha] at hseen
      obtain ⟨h1, h2⟩ := ih (r.accept node y.sample y.now).1 known
        fun e he => (hseen e he).resolve_right fun hx => absurd hx.1 (by decide)
      refine ⟨h1, fun z hz => ?_⟩
      rcases List.mem_cons.mp hz with rfl | hz
      · exact List.mem_append_left _ (hrefused ha)
      · exact h2 z hz
      -- accepted: forwarded by this very turn
    | true =>
      obtain ⟨h1, h2⟩ := ih (r.accept node y.sample y.now).1 (known ++ [y.sample]) fun e he => by
        rcases hseen e he with hk | ⟨_, hs⟩
        · exact List.mem_append_left _ hk
        · rw [hs]
          exact List.mem_append_right _ (List.mem_singleton_self _)
      simp only [if_true, Option.toList_some, List.map_append, List.map_cons, List.map_nil]
      rw [← List.append_assoc]
      refine ⟨h1, fun z hz => ?_⟩
      rcases List.mem_cons.mp hz with rfl | hz
      · exact List.mem_append_left _ (List.mem_append_right _ (List.mem_singleton_self _))
      · exact h2 z hz

/-! ## §5. Runs. -/

/-- **The invariant** before poll `k`: the port is that of the poll, the reads made and to come
are those of the link, the reader has the bytes of the reads made, and the filter knows only
samples that were forwarded. -/
structure BridgeAt (args : Args) (arriving : List (Read T)) (known : List Bytes) (k : Nat)
    (s : Bridge T) : Prop where
  raised : s.raised = none
  sport : s.sport = portOf args.sport k
  link : s.link.received ++ s.link.arriving = arriving
  reader : s.reader = (feed args.cspVersion KissReader.init (readBytes s.link.received)).1
  recent : ∀ e ∈ s.recent.seen.entries, e.1.2 ∈ known

/-- What poll `j` did with the replies it read. -/
structure PollOf {args : Args} (j : Nat) (poll : Poll T) (read : List (Reply args)) : Prop where
  sport : poll.sport = portOf args.sport j
  yields : poll.yields.map Yield.marked = read.map fun r => (r.sample.bytes, r.countsFor j)
  matched : ∀ b ∈ poll.matched, ∃ r ∈ read, r.countsFor j = true ∧ r.sample.bytes = b

/-- One poll of a bridge that asks, in terms of what `collect` did. -/
theorem poll_eq (args : Args) (hask : args.listen = false) (s : Bridge T)
    (hs : s.raised = none) (hport : s.sport ≤ 63) (ticks : Nat) :
    ∃ c failed, Faithful args s.sport true s.link s.reader Batch.empty c
      ∧ Bridge.poll args s ticks
        = (⟨c.link, c.reader, ((consumer T args.node).run s.recent c.batch.yields).1,
            nextPort s.sport, none⟩,
          some ⟨s.sport, c.link, c.batch.yields, c.batch.matched,
            ((consumer T args.node).run s.recent c.batch.yields).2, failed⟩) := by
  obtain ⟨hfaithful, hout⟩ := collect_spec args s.link s.reader hport args.count_le true ticks
  unfold Bridge.poll
  simp only [hs, hask, Bool.not_false, Bool.false_eq_true, if_false]
  rcases hout with hout | ⟨message, hout⟩
  · rw [hout]
    exact ⟨_, false, hfaithful, rfl⟩
  · rw [hout]
    exact ⟨_, true, hfaithful, rfl⟩

/-- **One turn** keeps the invariant, yields exactly the replies that end in the bytes it read,
and forwards each sample that was not forwarded before. -/
theorem poll_step (args : Args) (hask : args.listen = false) {arriving : List (Read T)}
    {replies : List (Reply args)}
    (hstream : readBytes arriving <+: kissStream (replies.map Reply.frame))
    {known : List Bytes} {k : Nat} {s : Bridge T} (h : BridgeAt args arriving known k s)
    (ticks : Nat) :
    ∃ s' poll read, Bridge.poll args s ticks = (s', some poll)
      ∧ BridgeAt args arriving (known ++ poll.forwarded.map RecordCall.sample) (k + 1) s'
      ∧ poll.link = s'.link
      ∧ repliesIn s'.link.received replies = repliesIn s.link.received replies ++ read
      ∧ PollOf k poll read
      ∧ ∀ y ∈ poll.yields, y.sample ∈ known ++ poll.forwarded.map RecordCall.sample := by
  have hport : s.sport ≤ 63 := by
    rw [h.sport]
    exact (portOf_bounds args k).2
  obtain ⟨c, failed, ⟨reads, harriving, hreceived, hreader, hgain⟩, hpoll⟩ :=
    poll_eq args hask s h.raised hport ticks
  obtain ⟨⟨ys, hys, hmarks⟩, hmatched⟩ := hgain
  have hyields : c.batch.yields = ys := by rw [hys]; rfl
  have hbytes : readBytes c.link.received = readBytes s.link.received ++ readBytes reads := by
    simp [hreceived, readBytes]
  have hwhole : c.link.received ++ c.link.arriving = arriving := by
    rw [hreceived, List.append_assoc, ← harriving, h.link]
  -- what any first reads hold is still the beginning of the replies
  have hfront : ∀ front rest, front ++ rest = arriving →
      readBytes front <+: kissStream (replies.map Reply.frame) := by
    rintro front rest rfl
    refine List.IsPrefix.trans ⟨readBytes rest, ?_⟩ hstream
    simp [readBytes]
  -- the reader goes on where it stood, so the frames of this poll are the new replies
  have hfeed : feed args.cspVersion KissReader.init (readBytes c.link.received)
      = ((feed args.cspVersion s.reader (readBytes reads)).1,
        (feed args.cspVersion KissReader.init (readBytes s.link.received)).2
          ++ (feed args.cspVersion s.reader (readBytes reads)).2) := by
    rw [hbytes, h.reader]
    exact Reader.run_append _ _ _ _
  have hbefore := feed_replies s.link.received replies (hfront _ _ h.link)
  have hafter := feed_replies c.link.received replies (hfront _ _ hwhole)
  obtain ⟨read, hread⟩ : repliesIn s.link.received replies <+: repliesIn c.link.received replies := by
    apply within_prefix
    rw [hbytes, List.length_append]
    exact Nat.le_add_right _ _
  have hframes : (feed args.cspVersion s.reader (readBytes reads)).2 = read.map Reply.frame := by
    rw [hfeed, ← hread, List.map_append, ← hbefore] at hafter
    exact List.append_cancel_left hafter
  -- each of these frames is a reply, marked by the ports of its own poll and of this one
  have hmark : (read.map Reply.frame).filterMap (sampleMark args s.sport)
      = read.map fun r => (r.sample.bytes, r.countsFor k) := by
    rw [List.filterMap_map, h.sport, ← List.filterMap_eq_map]
    exact List.filterMap_congr fun r _ => r.sampleMark_frame k
  obtain ⟨hrecent, hforwarded⟩ := consumer_run args.node c.batch.yields s.recent known h.recent
  refine ⟨_, _, read, hpoll, ⟨rfl, ?_, hwhole, ?_, hrecent⟩, rfl, hread.symm,
    ⟨h.sport, ?_, ?_⟩, hforwarded⟩
  · show nextPort s.sport = _
    rw [h.sport]
    rfl
  · rw [hreader, hfeed]
  · rw [hyields, hmarks, hframes, hmark]
  · intro b hb
    have hin := (hmatched b).mp hb
    rw [hframes, hmark] at hin
    rcases hin with hin | ⟨_, hin⟩
    -- every poll counts from an empty batch
    · exact absurd hin (by simp [Batch.empty])
    · obtain ⟨r, hr, heq⟩ := List.mem_map.mp hin
      obtain ⟨hsample, hcounts⟩ := Prod.mk.inj heq
      exact ⟨r, hr, hcounts, hsample⟩

/-- **Every run**, from any turn on: no turn is lost, and each did what `PollOf` says with the
replies that ended in its reads. -/
theorem bridge_run (args : Args) (hask : args.listen = false) {arriving : List (Read T)}
    {replies : List (Reply args)}
    (hstream : readBytes arriving <+: kissStream (replies.map Reply.frame))
    (ticks : List Nat) {known : List Bytes} {k : Nat} {s : Bridge T}
    (h : BridgeAt args arriving known k s) :
    (((bridge T args).run s ticks).2).length = ticks.length
      ∧ ∃ read : List (List (Reply args)), read.length = ticks.length
        ∧ ∀ i poll rs, ((bridge T args).run s ticks).2[i]? = some poll → read[i]? = some rs →
          PollOf (k + i) poll rs
            ∧ repliesIn poll.link.received replies
              = repliesIn s.link.received replies ++ (read.take (i + 1)).flatten
            ∧ ∀ y ∈ poll.yields, y.sample ∈ known
                ++ ((((bridge T args).run s ticks).2.take (i + 1)).flatMap Poll.forwarded).map
                  RecordCall.sample := by
  -- on the turns to come: the first one gives the state the rest starts from
  induction ticks generalizing known k s with
  | nil => exact ⟨rfl, [], rfl, fun i poll rs hpoll => absurd hpoll (by simp)⟩
  | cons t ticks ih =>
    obtain ⟨s', poll0, read0, hpoll0, hat, hlink, hread, hof, hforwarded⟩ :=
      poll_step args hask hstream h t
    obtain ⟨hlen, read, hlen', hrest⟩ := ih hat
    have hrun : ((bridge T args).run s (t :: ticks)).2
        = poll0 :: ((bridge T args).run s' ticks).2 := by
      rw [Reader.run_cons]
      show (Bridge.poll args s t).2.toList ++ ((bridge T args).run (Bridge.poll args s t).1 ticks).2
        = _
      rw [hpoll0]
      rfl
    rw [hrun]
    refine ⟨by rw [List.length_cons, hlen, List.length_cons], read0 :: read,
      by rw [List.length_cons, hlen', List.length_cons], ?_⟩
    intro i poll rs hpoll hrs
    cases i with
    | zero =>
      rw [List.getElem?_cons_zero] at hpoll hrs
      injection hpoll with hpoll
      injection hrs with hrs
      subst hpoll
      subst hrs
      refine ⟨hof, ?_, ?_⟩
      · rw [hlink, hread]
        simp
      · intro y hy
        simpa using hforwarded y hy
    | succ i =>
      rw [List.getElem?_cons_succ] at hpoll hrs
      obtain ⟨hof', hreplies, hall⟩ := hrest i poll rs hpoll hrs
      refine ⟨?_, ?_, ?_⟩
      · rw [show k + (i + 1) = k + 1 + i by omega]
        exact hof'
      · rw [hreplies, hread, List.take_succ_cons, List.flatten_cons, List.append_assoc]
      · intro y hy
        have hy' := hall y hy
        rw [List.take_succ_cons, List.flatMap_cons, List.map_append, ← List.append_assoc]
        exact hy'

/-- **A late reply completes no other poll's batch within a cycle of ports, and is recorded all
the same.**  For every number of polls and every way the link delivers the replies: poll `j`
asks from the `j`th port, and the ports stay in 16..63; every reply is yielded by the poll in
whose reads its frame ends, once for each time it was read; it is marked matching, and counted,
only for polls congruent to its own modulo 48; and every yielded sample is forwarded, in this
poll or an equal one before. -/
theorem late_reply_recorded (args : Args) (hask : args.listen = false) (ticks : List Nat)
    (arriving : List (Read T)) (replies : List (Reply args))
    (hstream : readBytes arriving <+: kissStream (replies.map Reply.frame)) :
    let polls := ((bridge T args).run (Bridge.start args arriving) ticks).2
    polls.length = ticks.length
      ∧ ∃ read : List (List (Reply args)), read.length = ticks.length
        ∧ ∀ j poll rs, polls[j]? = some poll → read[j]? = some rs →
          poll.sport = portOf args.sport j ∧ (16 ≤ poll.sport ∧ poll.sport ≤ 63)
            ∧ (read.take (j + 1)).flatten
              = within (fun r => (kissEncode r.frame).length)
                  (readBytes poll.link.received).length replies
            ∧ poll.yields.map (fun y => (y.sample, y.matching))
              = rs.map (fun r => (r.sample.bytes, decide (r.poll % 48 = j % 48)
                  && (args.classMask.isSome
                    || decide ((sampleHeader r.sample.bytes).report = args.report))))
            ∧ (∀ b ∈ poll.matched, ∃ r ∈ rs, r.poll % 48 = j % 48 ∧ r.sample.bytes = b)
            ∧ ∀ y ∈ poll.yields, ∃ call ∈ (polls.take (j + 1)).flatMap Poll.forwarded,
                call.sample = y.sample := by
  intro polls
  -- before the first poll nothing was read and nothing was forwarded
  have hstart : BridgeAt args arriving [] 0 (Bridge.start args arriving) :=
    ⟨rfl, rfl, rfl, rfl, by simp [Bridge.start, RecentSamples.init, OrderedDict.empty]⟩
  obtain ⟨hlen, read, hlen', hall⟩ := bridge_run args hask hstream ticks hstart
  refine ⟨hlen, read, hlen', ?_⟩
  intro j poll rs hpoll hrs
  obtain ⟨hof, hreplies, hforwarded⟩ := hall j poll rs hpoll hrs
  rw [Nat.zero_add] at hof
  -- an encoded frame is never empty, so no reply ends before the first byte
  have hnone : repliesIn (Bridge.start args arriving : Bridge T).link.received replies = [] := by
    cases replies with
    | nil => rfl
    | cons r replies =>
      have hpos : 0 < (kissEncode r.frame).length := by
        rw [kissEncode_eq]
        exact Nat.succ_pos _
      exact if_neg (Nat.not_le_of_gt hpos)
  refine ⟨hof.sport, ?_, ?_, hof.yields, ?_, ?_⟩
  · rw [hof.sport]
    exact portOf_bounds args j
  · rw [hnone, List.nil_append] at hreplies
    exact hreplies.symm
  · intro b hb
    obtain ⟨r, hr, hcounts, hsample⟩ := hof.matched b hb
    rw [Reply.countsFor, Bool.and_eq_true] at hcounts
    exact ⟨r, hr, of_decide_eq_true hcounts.1, hsample⟩
  · intro y hy
    have hy' := hforwarded y hy
    rw [List.nil_append] at hy'
    obtain ⟨call, hcall, heq⟩ := List.mem_map.mp hy'
    exact ⟨call, hcall, heq⟩

/-- A poll of node 1 from the last port. -/
def lastPortArgs : Args :=
  { cspVersion := .csp1, port := 14, node := 1, source := 16, sport := 63, report := 0
    classMask := none, count := 1, listen := false
    node_le := by decide, source_le := by decide, sport_ge := by decide, sport_le := by decide
    report_lt := by decide, count_pos := by decide, count_le := by decide, port_le := by decide
    class_le := by simp }

/-- The reply to its first poll. -/
def firstReply : Reply lastPortArgs :=
  { poll := 0, header := [0x83, 0x0F, 0xCE, 0x01], flags := 1
    sample := ⟨[1, 0, 0, 7, 0, 0, 0, 1, 1, 0, 5],
      (validateSample_ok_iff _).mp (by decide +kernel)⟩
    header_length := by decide, header_fields := by decide, flags_known := Or.inr rfl }

/-- A reply that comes during the next poll, which has started over at port 16. -/
theorem late_reply_recorded_next :
    let arriving : List (Read ℤ) :=
      [⟨[], fun _ => 0, fun _ => 0⟩, ⟨kissStream [firstReply.frame], fun _ => 0, fun _ => 0⟩]
    let polls := ((bridge ℤ lastPortArgs).run (Bridge.start lastPortArgs arriving) [1, 1]).2
    polls.length = 2
      ∧ ∃ read : List (List (Reply lastPortArgs)), read.length = 2
        ∧ ∀ j poll rs, polls[j]? = some poll → read[j]? = some rs →
          poll.sport = portOf lastPortArgs.sport j ∧ (16 ≤ poll.sport ∧ poll.sport ≤ 63)
            ∧ (read.take (j + 1)).flatten
              = within (fun r => (kissEncode r.frame).length)
                  (readBytes poll.link.received).length [firstReply]
            ∧ poll.yields.map (fun y => (y.sample, y.matching))
              = rs.map (fun r => (r.sample.bytes, decide (r.poll % 48 = j % 48)
                  && (lastPortArgs.classMask.isSome
                    || decide ((sampleHeader r.sample.bytes).report = lastPortArgs.report))))
            ∧ (∀ b ∈ poll.matched, ∃ r ∈ rs, r.poll % 48 = j % 48 ∧ r.sample.bytes = b)
            ∧ ∀ y ∈ poll.yields, ∃ call ∈ (polls.take (j + 1)).flatMap Poll.forwarded,
                call.sample = y.sample :=
  late_reply_recorded lastPortArgs rfl [1, 1] _ [firstReply] (by simp [readBytes])

end KFsw.Ground
