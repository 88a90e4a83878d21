/-
  KFsw.Ground.ProxyReplies — which reply a client of the proxy gets.

  The proxy reads a daemon's reply with one `recv(256)`.  A reply that arrives in
  pieces, one that is longer, and a daemon that closes its end give the client a
  part of a reply, the rest of an earlier one, or nothing.

  Main results:
    * `send_quiet`          — with nothing in flight, one `send` returns the whole
      reply to its command exactly when the network delivers it whole, and then
      leaves nothing in flight;
    * `replies_whole_iff`   — over a run, every client gets its own complete
      answer exactly when every command meets that condition;
    * `split_reply_misread` — a two-line reply that arrives in two pieces.
-/
import KFsw.Ground.Proxy

namespace KFsw.Ground

open KFsw.Lib

/-! ## §1. One `send`. -/

/-- Nothing is in flight, and nothing is connected without a daemon to connect to. -/
structure Upstream.Quiet (u : Upstream) : Prop where
  absent : u.endpoint = none → u.socket = none
  empty : ∀ c, u.socket = some c → c.inFlight = []

/-- The daemon has closed its end of the connection. -/
def Upstream.ClosedByDaemon (u : Upstream) : Prop := ∃ c, u.socket = some c ∧ c.closed = true

/-- The network delivers the reply whole: when `recv` returns, all of a reply of at most 256
bytes has arrived, and the daemon has not closed its end before the reply's last byte. -/
structure Exchange.Delivers (x : Exchange) (arrived : Nat) : Prop where
  size : x.reply.length ≤ 256
  arrived : x.reply.length ≤ max 1 arrived
  closes : ∀ n, x.closesAfter = some n → x.reply ≠ [] ∧ x.reply.length ≤ n

/-- The condition on a command that is sent: no daemon answers (none is configured, or one of
connecting, sending and receiving fails), or one that is still there answers in one piece. -/
def Upstream.Whole (u : Upstream) (x : Exchange) : Prop :=
  u.endpoint = none ∨ (u.socket = none ∧ x.attempt ≠ .connected) ∨ x.sends = false
    ∨ ∀ n, x.arrived = some n → ¬ u.ClosedByDaemon ∧ x.Delivers n

/-- What `send` returns is the complete reply to its own command, if it returns one. -/
def Upstream.Replied (u : Upstream) (x : Exchange) (s : Sent) : Prop :=
  ∀ reply, s.result = .ok (some reply) →
    s.received = some (answers u.number x.reply) ∧ x.reply ≠ [] ∧ reply = decodeReplace x.reply

theorem answers_length (number : Nat) (reply : Bytes) :
    (answers number reply).length = reply.length := List.length_map _

theorem answers_eq_nil {number : Nat} {reply : Bytes} : answers number reply = [] ↔ reply = [] :=
  List.map_eq_nil_iff

/-- The bytes of an answer are the reply. -/
theorem answers_bytes (number : Nat) (reply : Bytes) :
    (answers number reply).map Prod.snd = reply := by
  rw [answers, List.map_map]
  exact List.map_id reply

/-- A stream from which `recv` returns something: all of it when it fits. -/
theorem recv_stream {stream : List Answer} (hne : stream ≠ []) (closed : Bool) (arrived : Nat) :
    (Connection.mk stream closed).recv arrived
      = some (stream.take (min 256 (max 1 arrived)),
        ⟨stream.drop (min 256 (max 1 arrived)), closed⟩) := by
  unfold Connection.recv
  dsimp only
  rw [if_neg hne]

/-- The end of a stream. -/
theorem recv_nil (closed : Bool) (arrived : Nat) :
    (Connection.mk [] closed).recv arrived = if closed then some ([], ⟨[], closed⟩) else none := by
  unfold Connection.recv
  rw [if_pos rfl]

/-- On a connection the daemon has closed, `recv` returns nothing. -/
theorem recv_answer_closed {c : Connection} (hc : c.inFlight = []) (hclosed : c.closed = true)
    (number : Nat) (x : Exchange) (arrived : Nat) :
    (c.answer number x).recv arrived = some ([], c) := by
  obtain ⟨inFlight, closed⟩ := c
  obtain rfl : inFlight = [] := hc
  obtain rfl : closed = true := hclosed
  rfl

/-- The daemon writes the beginning of its reply, all of it unless it closes before its end. -/
theorem written_prefix_reply (x : Exchange) : x.written <+: x.reply := by
  unfold Exchange.written
  split
  · exact List.prefix_rfl
  · exact List.take_prefix _ _

theorem written_whole_iff (x : Exchange) :
    x.reply.length ≤ x.written.length ↔ ∀ n, x.closesAfter = some n → x.reply.length ≤ n := by
  unfold Exchange.written
  cases x.closesAfter with
  | none => simp
  | some n =>
    rw [List.length_take]
    constructor
    · intro h m hm
      obtain rfl := Option.some.inj hm
      omega
    · intro h
      have := h n rfl
      omega

/-- A reply that is delivered whole, in terms of what `recv` can return. -/
theorem delivers_iff (x : Exchange) (arrived : Nat) :
    x.Delivers arrived ↔ x.reply.length ≤ min 256 (max 1 arrived)
      ∧ x.reply.length ≤ x.written.length ∧ (x.closesAfter.isSome → x.reply ≠ []) := by
  rw [written_whole_iff]
  constructor
  · intro h
    refine ⟨Nat.le_min.mpr ⟨h.size, h.arrived⟩, fun n hn => (h.closes n hn).2, fun hsome => ?_⟩
    obtain ⟨n, hn⟩ := Option.isSome_iff_exists.mp hsome
    exact (h.closes n hn).1
  · rintro ⟨hsize, hwhole, hne⟩
    obtain ⟨h1, h2⟩ := Nat.le_min.mp hsize
    exact ⟨h1, h2, fun n hn => ⟨hne (by rw [hn]; rfl), hwhole n hn⟩⟩

/-- On an open connection with nothing in flight, `recv` returns the whole reply exactly when it
is delivered whole, and then leaves nothing. -/
theorem recv_answer {c : Connection} (hc : c.inFlight = []) (hopen : c.closed = false)
    (number : Nat) (x : Exchange) (arrived : Nat) :
    ((∀ data d, (c.answer number x).recv arrived = some (data, d) →
        data = answers number x.reply ∧ x.reply ≠ []) ↔ x.Delivers arrived)
    ∧ (x.Delivers arrived → ∀ data d,
        (c.answer number x).recv arrived = some (data, d) → d.inFlight = []) := by
  obtain ⟨inFlight, closed⟩ := c
  obtain rfl : inFlight = [] := hc
  obtain rfl : closed = false := hopen
  have hanswer : (Connection.mk [] false).answer number x
      = ⟨answers number x.written, x.closesAfter.isSome⟩ := rfl
  have hlength := answers_length number x.written
  rw [hanswer, delivers_iff]
  by_cases hwritten : x.written = []
  · rw [hwritten]
    show ((∀ data d, (Connection.mk [] x.closesAfter.isSome).recv arrived = some (data, d) → _)
      ↔ _) ∧ (_ → ∀ data d, (Connection.mk [] x.closesAfter.isSome).recv arrived
        = some (data, d) → _)
    rw [recv_nil]
    cases hcloses : x.closesAfter.isSome with
    | true =>
      -- the end of the stream: no byte of a reply, or no reply
      refine ⟨iff_of_false (fun h => ?_) ?_, ?_⟩
      · obtain ⟨hdata, hne⟩ := h _ _ rfl
        exact hne (answers_eq_nil.mp hdata.symm)
      · rintro ⟨_, hle, hne⟩
        exact hne rfl (List.eq_nil_of_length_eq_zero (Nat.le_zero.mp hle))
      · rintro ⟨_, hle, hne⟩
        exact absurd (List.eq_nil_of_length_eq_zero (Nat.le_zero.mp hle)) (hne rfl)
    | false =>
      -- no reply: the wait runs into the time-out
      have hreply : x.reply = [] := by
        rw [← hwritten, Exchange.written]
        cases hnone : x.closesAfter with
        | none => rfl
        | some n => rw [hnone] at hcloses; exact absurd hcloses (by simp)
      refine ⟨iff_of_true (fun _ _ h => absurd h (by simp)) ?_, fun _ _ _ h => absurd h (by simp)⟩
      rw [hreply]
      exact ⟨Nat.zero_le _, Nat.zero_le _, fun h => absurd h (by simp)⟩
  · rw [recv_stream (fun h => hwritten (answers_eq_nil.mp h))]
    have hreply : x.reply ≠ [] := fun h => hwritten (List.prefix_nil.mp (h ▸ written_prefix_reply x))
    refine ⟨⟨fun h => ?_, ?_⟩, ?_⟩
    · -- as long as the whole reply
      have hdata := congrArg List.length (h _ _ rfl).1
      rw [List.length_take, hlength, answers_length] at hdata
      exact ⟨by omega, by omega, fun _ => hreply⟩
    · rintro ⟨hsize, hwhole, _⟩ data d hrecv
      obtain ⟨rfl, rfl⟩ := Prod.mk.inj (Option.some.inj hrecv)
      have heq : x.written = x.reply := (written_prefix_reply x).eq_of_length_le hwhole
      rw [heq, List.take_of_length_le (by rw [answers_length]; exact hsize)]
      exact ⟨rfl, hreply⟩
    · rintro ⟨hsize, hwhole, _⟩ data d hrecv
      obtain ⟨rfl, rfl⟩ := Prod.mk.inj (Option.some.inj hrecv)
      have hle := (written_prefix_reply x).length_le
      exact List.drop_eq_nil_of_le (by omega)

/-- A `send` that returns no reply, on an upstream with nothing in flight after it. -/
theorem replied_of_nothing {u : Upstream} {x : Exchange} {s : Sent}
    (h : ∀ reply, s.result ≠ .ok (some reply)) : u.Replied x s := fun reply hreply =>
  absurd hreply (h reply)

theorem quiet_of_none {u : Upstream} (h : u.socket = none) : u.Quiet :=
  ⟨fun _ => h, fun _ hc => absurd (h.symm.trans hc) (by simp)⟩

/-- A `send` on an open connection, with nothing in flight on it. -/
theorem send_connected {u : Upstream} {x : Exchange} {c : Connection}
    (hendpoint : u.endpoint ≠ none) (hconnect : u.connect x.attempt = .ok (some c))
    (hc : c.inFlight = []) (text : Str) :
    (u.Replied x (u.send text x)
        ↔ (x.sends = false ∨ ∀ n, x.arrived = some n → c.closed = false ∧ x.Delivers n))
      ∧ ((x.sends = false ∨ ∀ n, x.arrived = some n → c.closed = false ∧ x.Delivers n) →
        (u.send text x).upstream.Quiet) := by
  unfold Upstream.send
  rw [hconnect]
  dsimp only
  by_cases hsends : x.sends = false
  · rw [if_pos hsends]
    exact ⟨iff_of_true (replied_of_nothing (by simp)) (.inl hsends), fun _ => quiet_of_none rfl⟩
  · rw [if_neg hsends, or_iff_right hsends]
    cases x.arrived with
    | none =>
      exact ⟨iff_of_true (replied_of_nothing (by simp)) (fun n hn => absurd hn (by simp)),
        fun _ => quiet_of_none rfl⟩
    | some arrived =>
      have hwhole : (∀ n, some arrived = some n → c.closed = false ∧ x.Delivers n)
          ↔ c.closed = false ∧ x.Delivers arrived := by
        constructor
        · exact fun h => h arrived rfl
        · intro h n hn
          rwa [← Option.some.inj hn]
      rw [hwhole, Option.bind_some]
      cases hclosed : c.closed with
      | true =>
        -- the end of the stream is taken for an empty reply
        rw [recv_answer_closed hc hclosed]
        refine ⟨iff_of_false (fun h => ?_) (by simp), fun h => absurd h (by simp)⟩
        obtain ⟨hdata, hne, _⟩ := h _ rfl
        exact hne (answers_eq_nil.mp (Option.some.inj hdata).symm)
      | false =>
        obtain ⟨hrecv, hleft⟩ := recv_answer hc hclosed u.number x arrived
        rw [← hrecv]
        cases hdata : (c.answer u.number x).recv arrived with
        | none =>
          exact ⟨iff_of_true (replied_of_nothing (by simp)) ⟨rfl, fun _ _ h => absurd h (by simp)⟩,
            fun _ => quiet_of_none rfl⟩
        | some r =>
          obtain ⟨data, d⟩ := r
          refine ⟨⟨fun h => ⟨rfl, fun data' d' h' => ?_⟩, fun h reply hreply => ?_⟩,
            fun h => ⟨fun habsent => absurd habsent hendpoint, fun d' hd' => ?_⟩⟩
          · obtain ⟨rfl, rfl⟩ := Prod.mk.inj (Option.some.inj h')
            obtain ⟨hall, hne, _⟩ := h _ rfl
            exact ⟨Option.some.inj hall, hne⟩
          · obtain ⟨rfl, hne⟩ := h.2 data d rfl
            refine ⟨rfl, hne, ?_⟩
            rw [← Option.some.inj (Except.ok.inj hreply), answers_bytes]
          · rw [← Option.some.inj hd']
            exact hleft (hrecv.mp (hdata ▸ h.2)) data d hdata

/-- The connection of a `send`, on an upstream with nothing in flight. -/
theorem connect_some {u : Upstream} {x : Exchange} {c : Connection} (hq : u.Quiet)
    (hconnect : u.connect x.attempt = .ok (some c)) :
    u.endpoint ≠ none ∧ c.inFlight = []
      ∧ (u.Whole x
        ↔ (x.sends = false ∨ ∀ n, x.arrived = some n → c.closed = false ∧ x.Delivers n)) := by
  unfold Upstream.connect at hconnect
  unfold Upstream.Whole Upstream.ClosedByDaemon
  cases hendpoint : u.endpoint with
  | none =>
    rw [hendpoint, hq.absent hendpoint] at hconnect
    exact absurd hconnect (by simp)
  | some endpoint =>
    cases hsocket : u.socket with
    | some d =>
      rw [hendpoint, hsocket] at hconnect
      obtain rfl := Option.some.inj (Except.ok.inj hconnect)
      exact ⟨by simp, hq.empty d hsocket, by simp⟩
    | none =>
      rw [hendpoint, hsocket] at hconnect
      cases hattempt : x.attempt with
      | connected =>
        rw [hattempt] at hconnect
        obtain rfl := Option.some.inj (Except.ok.inj hconnect)
        exact ⟨by simp, rfl, by simp⟩
      | osError | raises e =>
        rw [hattempt] at hconnect
        exact absurd hconnect (by simp)

/-- Without a connection nothing is asked of the network. -/
theorem whole_of_unconnected {u : Upstream} {x : Exchange}
    (hconnect : ∀ c, u.connect x.attempt ≠ .ok (some c)) : u.Whole x := by
  unfold Upstream.connect at hconnect
  cases hendpoint : u.endpoint with
  | none => exact .inl hendpoint
  | some endpoint =>
    refine .inr (.inl ?_)
    rw [hendpoint] at hconnect
    cases hsocket : u.socket with
    | some c =>
      rw [hsocket] at hconnect
      exact absurd rfl (hconnect c)
    | none =>
      rw [hsocket] at hconnect
      refine ⟨rfl, fun hattempt => ?_⟩
      rw [hattempt] at hconnect
      exact absurd rfl (hconnect ⟨[], false⟩)

/-- A `send` without a connection returns no reply and leaves the upstream as it is. -/
theorem send_unconnected {u : Upstream} {x : Exchange}
    (hconnect : ∀ c, u.connect x.attempt ≠ .ok (some c)) (text : Str) :
    (∀ reply, (u.send text x).result ≠ .ok (some reply)) ∧ (u.send text x).upstream = u := by
  unfold Upstream.send
  cases hu : u.connect x.attempt with
  | error e => exact ⟨by simp, rfl⟩
  | ok s =>
    cases s with
    | none => exact ⟨by simp, rfl⟩
    | some c => exact absurd hu (hconnect c)

/-- **One `send`** with nothing in flight: a reply that it returns is the complete one to its own
command exactly under the condition, and then nothing is left in flight. -/
theorem send_quiet {u : Upstream} (hq : u.Quiet) (text : Str) (x : Exchange) :
    (u.Replied x (u.send text x) ↔ u.Whole x)
      ∧ (u.Whole x → (u.send text x).upstream.Quiet) := by
  by_cases hconnect : ∃ c, u.connect x.attempt = .ok (some c)
  · obtain ⟨c, hc⟩ := hconnect
    obtain ⟨hendpoint, hempty, hwhole⟩ := connect_some hq hc
    rw [hwhole]
    exact send_connected hendpoint hc hempty text
  · have hnone : ∀ c, u.connect x.attempt ≠ .ok (some c) := fun c hc => hconnect ⟨c, hc⟩
    obtain ⟨hnothing, hsame⟩ := send_unconnected hnone text
    rw [hsame]
    exact ⟨iff_of_true (replied_of_nothing hnothing) (whole_of_unconnected hnone), fun _ => hq⟩

/-! ## §2. One command. -/

/-- The same proxy with nobody behind it: what it answers is the local fallback. -/
def Proxy.withoutDaemons (p : Proxy) : Proxy :=
  { p with rotator := .init none, radio := .init none }

/-- The client gets its own complete answer: a reply to a forwarded command is not empty, and is
the local fallback where nothing was received, or else all that the daemon replied to this
command. -/
def Turn.Answered (t : Turn) : Prop :=
  ∀ s text, t.handled.forwarded = some s → t.handled.result = .ok (some text) →
    text ≠ [] ∧
      (s.received = none ∧ (t.before.withoutDaemons.handle t.command).result = .ok (some text)
        ∨ s.received = some (answers (t.before.upstream t.command.port).number
            t.command.exchange.reply)
          ∧ text = decodeReplace t.command.exchange.reply)

/-- A command that is forwarded meets the condition. -/
def Turn.Whole (t : Turn) : Prop :=
  (orderOf t.before.profile t.command).text ≠ none →
    (t.before.upstream t.command.port).Whole t.command.exchange

/-- Nothing is in flight on either side. -/
def Proxy.Quiet (p : Proxy) : Prop := p.rotator.Quiet ∧ p.radio.Quiet

/-- The local answer to a forwarded command is a text. -/
theorem answer_forwarded (p : Proxy) {o : Order} (h : o.text ≠ none) :
    ∃ fallback, p.answer o = .ok (some fallback) ∧ fallback ≠ [] := by
  cases o with
  | answered _ | quit | raises _ => exact absurd rfl h
  | position =>
    exact ⟨_, rfl, List.append_ne_nil_of_right_ne_nil _ (List.cons_ne_nil _ _)⟩
  | askFrequency =>
    exact ⟨_, rfl, List.append_ne_nil_of_right_ne_nil _ (List.cons_ne_nil _ _)⟩
  | bearing _ _ | stop | park | frequency _ => exact ⟨RPRT_OK, rfl, by decide⟩

/-- Without daemons, the answer is the local one. -/
theorem handle_withoutDaemons (p : Proxy) (c : Command) :
    (p.withoutDaemons.handle c).result = p.answer (orderOf p.profile c) := by
  rw [handle_eq]
  show (p.withoutDaemons.take c.port (orderOf p.profile c) c.exchange).result = _
  cases orderOf p.profile c <;> cases c.port <;> rfl

/-- The reply to the client, in terms of what `send` returned. -/
theorem replied_iff {u : Upstream} {x : Exchange} {text fallback : Str}
    (hfallback : fallback ≠ []) :
    (∀ reply, overrideReply (.ok (some fallback)) (u.send text x).result = .ok (some reply) →
        reply ≠ [] ∧
          ((u.send text x).received = none ∧ Except.ok (some fallback)
              = (Except.ok (some reply) : Except PyError (Option Str))
            ∨ (u.send text x).received = some (answers u.number x.reply)
              ∧ reply = decodeReplace x.reply))
      ↔ u.Replied x (u.send text x) := by
  obtain ⟨hsome, hnone⟩ := send_received u text x
  constructor
  · intro h reply hreply
    rw [hreply] at h
    obtain ⟨hne, ⟨hreceived, _⟩ | ⟨hreceived, htext⟩⟩ := h reply rfl
    · exact absurd hreceived (hsome reply hreply)
    · refine ⟨hreceived, fun hempty => hne ?_, htext⟩
      rw [htext, hempty]
      rfl
  · intro h reply hreply
    cases hresult : (u.send text x).result with
    | error e =>
      rw [hresult] at hreply
      exact absurd hreply (by simp [overrideReply])
    | ok r =>
      rw [hresult] at hreply
      cases r with
      | none =>
        have hreply : fallback = reply := Option.some.inj (Except.ok.inj hreply)
        exact ⟨hreply ▸ hfallback, .inl ⟨hnone hresult, by rw [hreply]⟩⟩
      | some r =>
        obtain rfl : r = reply := Option.some.inj (Except.ok.inj hreply)
        obtain ⟨hreceived, hne, htext⟩ := h r hresult
        refine ⟨fun hempty => hne ?_, .inr ⟨hreceived, htext⟩⟩
        exact decodeReplace_eq_nil.mp (htext ▸ hempty)

theorem quiet_iff (p : Proxy) : p.Quiet ↔ ∀ port, (p.upstream port).Quiet := by
  constructor
  · rintro ⟨hrotator, hradio⟩ port
    cases port with
    | rotator => exact hrotator
    | radio => exact hradio
  · exact fun h => ⟨h .rotator, h .radio⟩

/-- The answer to a command that was sent. -/
theorem answered_iff {t : Turn} {s : Sent} (hs : t.handled.forwarded = some s) :
    t.Answered ↔ ∀ text, t.handled.result = .ok (some text) → text ≠ [] ∧
      (s.received = none ∧ (t.before.withoutDaemons.handle t.command).result = .ok (some text)
        ∨ s.received = some (answers (t.before.upstream t.command.port).number
            t.command.exchange.reply)
          ∧ text = decodeReplace t.command.exchange.reply) := by
  constructor
  · exact fun h text => h s text hs
  · intro h s' text hs'
    obtain rfl := Option.some.inj (hs.symm.trans hs')
    exact h text

/-- **One command**, with nothing in flight: the client gets its own complete answer exactly
under the condition, and then nothing is left in flight. -/
theorem turn_quiet {p : Proxy} (hp : p.Quiet) (c : Command) :
    (Turn.Answered ⟨p, c, p.handle c⟩ ↔ Turn.Whole ⟨p, c, p.handle c⟩)
      ∧ (Turn.Whole ⟨p, c, p.handle c⟩ → (p.handle c).proxy.Quiet) := by
  rw [handle_eq]
  cases htext : (orderOf p.profile c).text with
  | none =>
    rw [take_local p c.port htext]
    exact ⟨iff_of_true (fun _ _ h => absurd h (by simp)) (fun h => absurd htext h), fun _ => hp⟩
  | some text =>
    obtain ⟨fallback, hanswer, hne⟩ := answer_forwarded p (o := orderOf p.profile c) (by simp [htext])
    obtain ⟨hforwarded, hresult, hupstream⟩ := take_forwarded p c.port htext c.exchange
    obtain ⟨hreplied, hleft⟩ := send_quiet ((quiet_iff p).mp hp c.port) text c.exchange
    have hwhole : Turn.Whole ⟨p, c, p.take c.port (orderOf p.profile c) c.exchange⟩
        ↔ (p.upstream c.port).Whole c.exchange := by
      unfold Turn.Whole
      simp [htext]
    rw [hwhole, answered_iff hforwarded]
    refine ⟨?_, fun hw => (quiet_iff _).mpr fun port => ?_⟩
    · dsimp only
      rw [hresult, handle_withoutDaemons, hanswer, ← hreplied]
      exact replied_iff hne
    · rw [hupstream]
      split
      · exact hleft hw
      · exact (quiet_iff p).mp hp port

/-! ## §3. Runs. -/

/-- From a proxy with nothing in flight: every client gets its own complete answer exactly when
every command meets the condition. -/
theorem run_whole_iff {p : Proxy} (hp : p.Quiet) (commands : List Command) :
    (∀ t ∈ (serve.run (some p) commands).2, t.Answered)
      ↔ ∀ t ∈ (serve.run (some p) commands).2, t.Whole := by
  -- turn by turn: the condition on one leaves nothing in flight for the next
  induction commands generalizing p with
  | nil =>
    exact iff_of_true (fun _ h => absurd h List.not_mem_nil)
      (fun _ h => absurd h List.not_mem_nil)
  | cons c commands ih =>
    obtain ⟨hturn, hkept⟩ := turn_quiet hp c
    rw [Reader.run_cons]
    cases hresult : (p.handle c).result with
    | ok reply =>
      rw [serve_step_ok hresult]
      simp only [Option.toList_some, List.singleton_append, List.forall_mem_cons]
      rw [hturn]
      exact and_congr_right fun hwhole => ih (hkept hwhole)
    | error e =>
      rw [serve_step_error hresult, serve_ended]
      simp only [Option.toList_some, List.append_nil, List.forall_mem_singleton]
      exact hturn

/-- **Each client gets its own complete answer** on a run exactly when every forwarded command of
it meets the condition: the daemon has not closed its end of the connection before, does not
close it within its reply, and its reply has at most 256 bytes that all have arrived when `recv`
returns, unless no daemon answers. -/
theorem replies_whole_iff (profile : Profile) (rotator radio : Option String)
    (commands : List Command) :
    (∀ t ∈ (serve.run (some (Proxy.init profile rotator radio)) commands).2, t.Answered)
      ↔ ∀ t ∈ (serve.run (some (Proxy.init profile rotator radio)) commands).2, t.Whole :=
  run_whole_iff ⟨quiet_of_none rfl, quiet_of_none rfl⟩ commands

/-- Gpredict asks where the antenna is, and the first line of the answer arrives alone. -/
def askPosition : Command :=
  ⟨.rotator, ['p'], ⟨.connected, true, "10.00\n20.00\n".toUTF8.toList, none, some 6⟩⟩

/-- Of a two-line reply that arrives in two pieces, the first question gets the first line, and
the second one the line that was left. -/
theorem split_reply_misread :
    ¬ (∀ t ∈ (serve.run (some (Proxy.init trackingProfile (some "127.0.0.1:4533") none))
        [askPosition, askPosition]).2, t.Answered)
      ∧ (serve.run (some (Proxy.init trackingProfile (some "127.0.0.1:4533") none))
          [askPosition, askPosition]).2.map (fun t => t.handled.result)
        = [.ok (some "10.00\n".toList), .ok (some "20.00\n".toList)] := by
  refine ⟨fun h => ?_, by decide +kernel⟩
  -- the first reply is neither the fallback nor the whole reply
  have hfirst := h ⟨Proxy.init trackingProfile (some "127.0.0.1:4533") none, askPosition,
    (Proxy.init trackingProfile (some "127.0.0.1:4533") none).handle askPosition⟩ List.mem_cons_self
  obtain ⟨_, ⟨hnone, _⟩ | ⟨_, htext⟩⟩ := hfirst _ "10.00\n".toList rfl (by decide +kernel)
  · revert hnone
    decide +kernel
  · revert htext
    decide +kernel

end KFsw.Ground
