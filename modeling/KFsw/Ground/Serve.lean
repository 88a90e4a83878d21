/-
  KFsw.Ground.Serve — `serve` of `tools/ground/gpredict-proxy.py`: the selector,
  its clients and their unfinished lines.

  A round is what one `selector.select` returned: listeners with a client to
  accept, and clients with bytes to read or at the end of their stream.  Its keys
  are those of the moment `select` returned.  No socket fails; what the daemons
  and the network do during the `k`-th call of a handler is `network k`.  The
  calls are kept as a history.

  Main results:
    * `serveLoop_run`   — a round handles its sockets one by one;
    * `readLines_spec`  — what the loop over the lines of a client does;
    * `serve_lines`     — each client's calls are its complete lines up to its quit,
      and a run of lines on the proxy, in every run without an infinite frequency.
-/
import KFsw.Lib.Machine
import KFsw.Ground.ProxyErrors

namespace KFsw.Ground

open KFsw.Lib

/-! ## §1. The selector's clients. -/

/-- `b"\n"`. -/
def NEWLINE : UInt8 := 10

/-- `data.partition(sep)`, where `sep` is in it: what stands before it and what follows it. -/
def partitionAt (sep : UInt8) (data : Bytes) : Bytes × Bytes :=
  (data.takeWhile (· ≠ sep), (data.dropWhile (· ≠ sep)).tail)

/-- `key.data` of a client: the port whose handler it has, and the bytes of its unfinished line. -/
structure Client where
  port : Port
  pending : Bytes

/-- A call of a handler for a client. -/
structure Call where
  socket : Nat
  command : Command
  handled : Handled

/-- What `serve` holds.  Clients are numbered as they are accepted; one that is not registered
has no key. -/
structure Server where
  proxy : Proxy
  clients : Nat → Option Client
  accepted : Nat
  calls : List Call
  raised : Option PyError

/-- `serve` before its first round. -/
def Server.init (proxy : Proxy) : Server := ⟨proxy, fun _ => none, 0, [], none⟩

/-- `selector.register` and `selector.modify`. -/
def Server.keep (s : Server) (n : Nat) (key : Client) : Server :=
  { s with clients := Function.update s.clients n (some key) }

/-- `selector.unregister` and `close`. -/
def Server.close (s : Server) (n : Nat) : Server :=
  { s with clients := Function.update s.clients n none }

/-- A call of a handler; a reply goes to the client. -/
def Server.call (s : Server) (n : Nat) (c : Command) : Server :=
  { s with proxy := (s.proxy.handle c).proxy, calls := s.calls ++ [⟨n, c, s.proxy.handle c⟩] }

/-- `line.decode(errors="replace").strip()`. -/
def lineText (line : Bytes) : Str := strip (decodeReplace line)

theorem partitionAt_eq {sep : UInt8} {data : Bytes} (h : sep ∈ data) :
    sep ∉ (partitionAt sep data).1
      ∧ data = (partitionAt sep data).1 ++ sep :: (partitionAt sep data).2 := by
  unfold partitionAt
  induction data with
  | nil => exact absurd h List.not_mem_nil
  | cons b data ih =>
    by_cases hb : b = sep
    · subst hb
      rw [List.takeWhile_cons_of_neg (by simp), List.dropWhile_cons_of_neg (by simp)]
      exact ⟨List.not_mem_nil, rfl⟩
    · have hdata : sep ∈ data := by
        rcases List.mem_cons.mp h with h | h
        · exact absurd h.symm hb
        · exact h
      obtain ⟨hnot, heq⟩ := ih hdata
      rw [List.takeWhile_cons_of_pos (by simpa using hb),
        List.dropWhile_cons_of_pos (by simpa using hb)]
      refine ⟨?_, by rw [List.cons_append, ← heq]⟩
      intro hmem
      rcases List.mem_cons.mp hmem with hmem | hmem
      · exact hb hmem.symm
      · exact hnot hmem

theorem partitionAt_length {sep : UInt8} {data : Bytes} (h : sep ∈ data) :
    (partitionAt sep data).2.length < data.length := by
  have hlength := congrArg List.length (partitionAt_eq h).2
  rw [List.length_append, List.length_cons] at hlength
  omega

/-- `while b"\n" in pending`, for the client `n`. -/
def Server.readLines (network : Nat → Exchange) (s : Server) (n : Nat) (port : Port)
    (pending : Bytes) : Server :=
  if NEWLINE ∈ pending then
    let line := (partitionAt NEWLINE pending).1
    let c : Command := ⟨port, lineText line, network s.calls.length⟩
    match (s.proxy.handle c).result with
    -- the exception leaves `serve`
    | .error e => { s.call n c with raised := some e }
    | .ok none => (s.call n c).close n
    | .ok (some _) => (s.call n c).readLines network n port (partitionAt NEWLINE pending).2
  else s.keep n ⟨port, pending⟩
termination_by pending.length
decreasing_by exact partitionAt_length ‹_›

section Turn

variable {network : Nat → Exchange} {s : Server} {n : Nat} {port : Port} {pending : Bytes}
  {c : Command}
  (hmem : NEWLINE ∈ pending)
  (hline : c = ⟨port, lineText (partitionAt NEWLINE pending).1, network s.calls.length⟩)
include hmem hline

/-- A turn of the loop whose handler raised, one that quits, and one that goes on. -/
theorem readLines_error {e : PyError} (h : (s.proxy.handle c).result = .error e) :
    s.readLines network n port pending = { s.call n c with raised := some e } := by
  rw [Server.readLines, if_pos hmem]
  simp only [← hline, h]

theorem readLines_quit (h : (s.proxy.handle c).result = .ok none) :
    s.readLines network n port pending = (s.call n c).close n := by
  rw [Server.readLines, if_pos hmem]
  simp only [← hline, h]

theorem readLines_reply {reply : Str} (h : (s.proxy.handle c).result = .ok (some reply)) :
    s.readLines network n port pending
      = (s.call n c).readLines network n port (partitionAt NEWLINE pending).2 := by
  rw [Server.readLines, if_pos hmem]
  simp only [← hline, h]

end Turn

/-! ## §2. The rounds. -/

/-- A socket that `select` found ready, with what `accept` or `recv` then gives: no bytes at the
end of the client's stream. -/
inductive Ready where
  | accept (port : Port)
  | recv (n : Nat) (data : Bytes)

/-- Which socket it is. -/
def Ready.socket : Ready → Port ⊕ Nat
  | .accept port => .inl port
  | .recv n _ => .inr n

/-- The listeners are always registered. -/
def Ready.registered (s : Server) : Ready → Bool
  | .accept _ => true
  | .recv n _ => (s.clients n).isSome

/-- The body of the loop over the ready sockets, with the keys that `select` returned. -/
def Server.event (network : Nat → Exchange) (keys : Nat → Option Client) (s : Server) :
    Ready → Server
  | .accept port => { s.keep s.accepted ⟨port, []⟩ with accepted := s.accepted + 1 }
  | .recv n data =>
    match keys n with
    | none => s
    | some key =>
      if data = [] then s.close n
      else s.readLines network n key.port (key.pending ++ data)

/-- The loop over the ready sockets, which an exception leaves. -/
def Server.events (network : Nat → Exchange) (keys : Nat → Option Client) (s : Server)
    (round : List Ready) : Server :=
  round.foldl (fun s r => if s.raised = none then s.event network keys r else s) s

/-- `serve`, round after round: `select` returns registered sockets, each of them once. -/
def serveLoop (network : Nat → Exchange) : Machine Server (List Ready) :=
  ⟨fun s round =>
    if s.raised = none ∧ (round.map Ready.socket).Nodup ∧ ∀ r ∈ round, r.registered s = true then
      some (s.events network s.clients round)
    else none⟩

/-- The same with one socket at a time, each with the key it has then. -/
def watch (network : Nat → Exchange) : Machine Server Ready :=
  ⟨fun s r =>
    if s.raised ≠ none then some s
    else if r.registered s = true then some (s.event network s.clients r)
    else none⟩

/-! ## §3. What is asked of a run. -/

/-- The texts of the complete lines of a stream. -/
def lines (stream : Bytes) : List Str := (ended NEWLINE stream).map lineText

/-- A line that ends a connection. -/
def Quits (line : Str) : Prop :=
  (split line).head? = some ['q'] ∨ (split line).head? = some ['Q']

instance (line : Str) : Decidable (Quits line) := inferInstanceAs (Decidable (_ ∨ _))

/-- Lines up to the first that ends the connection. -/
def untilQuit : List Str → List Str
  | [] => []
  | line :: rest => if Quits line then [line] else line :: untilQuit rest

/-- The ports of the clients, in the order they were accepted. -/
def acceptedPorts (events : List Ready) : List Port :=
  events.filterMap fun r => match r with
    | .accept port => some port
    | .recv _ _ => none

/-- The bytes that came from a client. -/
def receivedFrom (n : Nat) (events : List Ready) : Bytes :=
  events.flatMap fun r => match r with
    | .accept _ => []
    | .recv m data => if m = n then data else []

/-- The lines of a client that are to be executed, each on the client's port. -/
def linesOf (n : Nat) (events : List Ready) : List (Port × Str) :=
  match (acceptedPorts events)[n]? with
  | none => []
  | some port => (untilQuit (lines (receivedFrom n events))).map fun line => (port, line)

/-- The lines the handlers were called with for a client. -/
def Server.linesOf (s : Server) (n : Nat) : List (Port × Str) :=
  (s.calls.filter fun call => call.socket = n).map fun call =>
    (call.command.port, call.command.line)

/-! ## §4. The lines of one client. -/

/-- Either handler's order on the fields of a line. -/
theorem orderOf_quit_cons {profile : Profile} {c : Command} {verb : Str} {fields : List Str}
    (hsplit : split c.line = verb :: fields) :
    orderOf profile c = .quit ↔ verb = ['q'] ∨ verb = ['Q'] := by
  constructor
  · intro h
    unfold orderOf rotatorOrder radioOrder at h
    rw [hsplit] at h
    dsimp only at h
    -- every branch but the one of the quit verbs gives another order
    repeat' split at h
    all_goals first | assumption | exact absurd h (by simp)
  · intro h
    unfold orderOf rotatorOrder radioOrder
    rw [hsplit]
    rcases h with rfl | rfl
    · cases c.port <;> rfl
    · cases c.port <;> rfl

/-- An order quits on the lines that do. -/
theorem orderOf_quit_iff (profile : Profile) (c : Command) :
    orderOf profile c = .quit ↔ Quits c.line := by
  unfold Quits
  cases hsplit : split c.line with
  | nil =>
    unfold orderOf rotatorOrder radioOrder
    rw [hsplit]
    cases c.port <;> simp
  | cons verb fields =>
    rw [orderOf_quit_cons hsplit, List.head?_cons, Option.some.injEq, Option.some.injEq]

/-- Nothing is replied to an order that quits, and to no other. -/
theorem take_none_iff (p : Proxy) (port : Port) (o : Order) (x : Exchange) :
    (p.take port o x).result = .ok none ↔ o = .quit := by
  cases htext : o.text with
  | none =>
    rw [take_local p port htext]
    cases o with
    | quit => exact iff_of_true rfl rfl
    | answered _ | raises _ => exact iff_of_false (by simp [Proxy.answer]) (by simp)
    | bearing _ _ | position | stop | park | frequency _ | askFrequency => cases htext
  | some text =>
    rw [(take_forwarded p port htext x).2.1]
    have hanswer : p.answer o ≠ .ok none := by
      cases o with
      | quit | answered _ | raises _ => cases htext
      | _ => simp [Proxy.answer]
    refine iff_of_false ?_ (by rintro rfl; cases htext)
    rcases ((p.upstream port).send text x).result with e | _ | reply
    · simp [overrideReply]
    · exact hanswer
    · simp [overrideReply]

theorem handle_none_iff (p : Proxy) (c : Command) :
    (p.handle c).result = .ok none ↔ Quits c.line := by
  rw [handle_eq, take_none_iff, orderOf_quit_iff]

theorem untilQuit_cons_of_not {line : Str} (h : ¬ Quits line) (rest : List Str) :
    untilQuit (line :: rest) = line :: untilQuit rest := if_neg h

theorem untilQuit_cons_of_quits {line : Str} (h : Quits line) (rest : List Str) :
    untilQuit (line :: rest) = [line] := if_pos h

/-- Bytes without a newline hold no complete line. -/
theorem lines_of_notMem {stream : Bytes} (h : NEWLINE ∉ stream) : lines stream = [] := by
  rw [lines, ended_of_notMem h]
  rfl

/-- The first line and what its newline leaves. -/
theorem lines_partitionAt {stream : Bytes} (h : NEWLINE ∈ stream) :
    lines stream
        = lineText (partitionAt NEWLINE stream).1 :: lines (partitionAt NEWLINE stream).2
      ∧ unended NEWLINE stream = unended NEWLINE (partitionAt NEWLINE stream).2 := by
  obtain ⟨hnot, heq⟩ := partitionAt_eq h
  constructor
  · conv_lhs => rw [heq, lines, ended_piece hnot, List.map_cons]
    rfl
  · conv_lhs => rw [heq, unended_piece hnot]

/-- What reading the bytes `pending` of client `n` did: the calls it added, and the key it
left. -/
structure Reads (s t : Server) (n : Nat) (port : Port) (pending : Bytes) (new : List Call) :
    Prop where
  calls : t.calls = s.calls ++ new
  socket : ∀ call ∈ new, call.socket = n
  lines : new.map (fun call => (call.command.port, call.command.line))
    = (untilQuit (lines pending)).map fun line => (port, line)
  raised : t.raised = s.raised
  accepted : t.accepted = s.accepted
  clients : t.clients = Function.update s.clients n
    (if ∃ line ∈ KFsw.Ground.lines pending, Quits line then none
      else some ⟨port, unended NEWLINE pending⟩)
  proxy : (serve.run (some s.proxy) (new.map Call.command)).1 = some t.proxy

section Reads

variable {s t : Server} {n : Nat} {port : Port} {pending rest : Bytes} {line : Str}

/-- Bytes without a newline are kept, and nobody is called. -/
theorem reads_unfinished (s : Server) (n : Nat) (port : Port) (hmem : NEWLINE ∉ pending) :
    Reads s (s.keep n ⟨port, pending⟩) n port pending [] := by
  have hnone := lines_of_notMem hmem
  refine ⟨by rw [List.append_nil]; rfl, by simp, by rw [hnone]; rfl, rfl, rfl, ?_, rfl⟩
  rw [hnone, if_neg (by simp), unended_of_notMem hmem]
  rfl

/-- A first line that quits is the last call. -/
theorem reads_quit {x : Exchange} (hlines : lines pending = line :: lines rest)
    (hquits : Quits line) (hreply : (s.proxy.handle ⟨port, line, x⟩).result = .ok none) :
    Reads s ((s.call n ⟨port, line, x⟩).close n) n port pending
      [⟨n, ⟨port, line, x⟩, s.proxy.handle ⟨port, line, x⟩⟩] := by
  refine ⟨rfl, by simp, ?_, rfl, rfl, ?_, ?_⟩
  · rw [hlines, untilQuit_cons_of_quits hquits]
    rfl
  · rw [if_pos ⟨line, by rw [hlines]; exact List.mem_cons_self, hquits⟩]
    rfl
  · show (serve.run (some s.proxy) [⟨port, line, x⟩]).1 = _
    rw [Reader.run_cons, serve_step_ok hreply]
    rfl

/-- A first line that does not quit is one call in front of what the rest does. -/
theorem reads_cons {x : Exchange} {reply : Option Str} {new : List Call}
    (hlines : lines pending = line :: lines rest)
    (hunended : unended NEWLINE pending = unended NEWLINE rest) (hquits : ¬ Quits line)
    (hreply : (s.proxy.handle ⟨port, line, x⟩).result = .ok reply)
    (h : Reads (s.call n ⟨port, line, x⟩) t n port rest new) :
    Reads s t n port pending (⟨n, ⟨port, line, x⟩, s.proxy.handle ⟨port, line, x⟩⟩ :: new) := by
  refine ⟨?_, ?_, ?_, h.raised, h.accepted, ?_, ?_⟩
  · rw [h.calls]
    show s.calls ++ [_] ++ new = _
    rw [List.append_assoc]
    rfl
  · intro call hcall
    rcases List.mem_cons.mp hcall with rfl | hcall
    · rfl
    · exact h.socket call hcall
  · rw [hlines, untilQuit_cons_of_not hquits, List.map_cons, List.map_cons, h.lines]
  · have hsome : (∃ l ∈ lines pending, Quits l) ↔ ∃ l ∈ lines rest, Quits l := by
      rw [hlines]
      simp [hquits]
    rw [h.clients, hunended]
    simp only [hsome]
    rfl
  · show (serve.run (some s.proxy) (⟨port, line, x⟩ :: new.map Call.command)).1 = _
    rw [Reader.run_cons, serve_step_ok hreply]
    exact h.proxy

end Reads

/-- **The loop over the lines of a client**: one call for each complete line up to the one that
quits, and the unfinished line is kept. -/
theorem readLines_spec (network : Nat → Exchange) (s : Server) (n : Nat) (port : Port)
    (pending : Bytes) (hu : ∀ q k, (s.proxy.upstream q).WellFormed (network k))
    (hc : ∀ line ∈ untilQuit (lines pending), ¬ InfiniteFrequency port line) :
    ∃ new, Reads s (s.readLines network n port pending) n port pending new := by
  -- by length: every turn of the loop takes a line away
  induction hn : pending.length using Nat.strongRecOn generalizing s pending with
  | _ length ih =>
    by_cases hmem : NEWLINE ∈ pending
    · obtain ⟨hlines, hunended⟩ := lines_partitionAt hmem
      have hshorter := partitionAt_length hmem
      generalize hline : lineText (partitionAt NEWLINE pending).1 = line at hlines
      generalize hrest : (partitionAt NEWLINE pending).2 = rest at hlines hunended hshorter
      have hcommand : (⟨port, line, network s.calls.length⟩ : Command)
          = ⟨port, lineText (partitionAt NEWLINE pending).1, network s.calls.length⟩ := by
        rw [hline]
      have hfirst : ¬ InfiniteFrequency port line := by
        refine hc line ?_
        rw [hlines, untilQuit]
        split <;> exact List.mem_cons_self
      obtain ⟨⟨reply, hreply⟩, _⟩ :=
        (withstands_iff s.proxy ⟨port, line, network s.calls.length⟩
          (hu port s.calls.length)).mpr hfirst
      cases reply with
      | none =>
        rw [readLines_quit hmem hcommand hreply]
        exact ⟨_, reads_quit hlines ((handle_none_iff s.proxy _).mp hreply) hreply⟩
      | some reply =>
        have hquits : ¬ Quits line := by
          intro h
          exact absurd (((handle_none_iff s.proxy _).mpr h).symm.trans hreply) (by simp)
        have hu' : ∀ q k, ((s.call n ⟨port, line, network s.calls.length⟩).proxy.upstream
            q).WellFormed (network k) := by
          intro q k
          unfold Upstream.WellFormed
          show ((s.proxy.handle _).proxy.upstream q).endpoint = none ∨ _
          rw [handle_endpoint]
          exact hu q k
        have hc' : ∀ line ∈ untilQuit (lines rest), ¬ InfiniteFrequency port line := by
          intro line' hline'
          refine hc line' ?_
          rw [hlines, untilQuit_cons_of_not hquits]
          exact List.mem_cons_of_mem line hline'
        obtain ⟨new, h⟩ := ih rest.length (hn ▸ hshorter) _ rest hu' hc' rfl
        rw [readLines_reply hmem hcommand hreply, hrest]
        exact ⟨_, reads_cons hlines hunended hquits hreply h⟩
    · rw [Server.readLines, if_neg hmem]
      exact ⟨[], reads_unfinished s n port hmem⟩

/-! ## §5. One socket at a time. -/

/-- Numbers that are not given yet have no key. -/
def Server.Fresh (s : Server) : Prop := ∀ m, s.accepted ≤ m → s.clients m = none

/-- Reading the lines of a client leaves the others alone, also when a handler raises. -/
theorem readLines_frame (network : Nat → Exchange) (s : Server) (n : Nat) (port : Port)
    (pending : Bytes) :
    (s.readLines network n port pending).accepted = s.accepted
      ∧ ∀ m, m ≠ n → (s.readLines network n port pending).clients m = s.clients m := by
  fun_induction Server.readLines network s n port pending with
  | case1 s pending hmem line c e hresult => exact ⟨rfl, fun _ _ => rfl⟩
  | case2 s pending hmem line c hresult =>
    exact ⟨rfl, fun m hm => Function.update_of_ne hm _ _⟩
  | case3 s pending hmem line c reply hresult ih => exact ih
  | case4 s pending hmem => exact ⟨rfl, fun m hm => Function.update_of_ne hm _ _⟩

/-- A ready socket changes the key of no other client. -/
theorem event_frame (network : Nat → Exchange) (keys : Nat → Option Client) (s : Server)
    (r : Ready) {m : Nat} (hm : m < s.accepted) (hr : r.socket ≠ .inr m) :
    (s.event network keys r).clients m = s.clients m := by
  cases r with
  | accept port => exact Function.update_of_ne (Nat.ne_of_lt hm) _ _
  | recv n data =>
    have hne : m ≠ n := fun h => hr (by rw [h]; rfl)
    unfold Server.event
    dsimp only
    split
    · rfl
    · split
      · exact Function.update_of_ne hne _ _
      · exact (readLines_frame network s n _ _).2 m hne

theorem event_fresh (network : Nat → Exchange) {s : Server} (hs : s.Fresh) {r : Ready}
    (hr : r.registered s = true) : (s.event network s.clients r).Fresh := by
  intro m hm
  cases r with
  | accept port =>
    have hlt : s.accepted < m := hm
    show Function.update s.clients s.accepted _ m = none
    rw [Function.update_of_ne (Nat.ne_of_gt hlt)]
    exact hs m (Nat.le_of_lt hlt)
  | recv n data =>
    have haccepted : (s.event network s.clients (.recv n data)).accepted = s.accepted := by
      unfold Server.event
      dsimp only
      split
      · rfl
      · split
        · rfl
        · exact (readLines_frame network s n _ _).1
    rw [haccepted] at hm
    have hne : m ≠ n := by
      rintro rfl
      have hsome : (s.clients m).isSome = true := hr
      rw [hs m hm] at hsome
      exact absurd hsome (by simp)
    unfold Server.event
    dsimp only
    split
    · exact hs m hm
    · split
      · show Function.update s.clients n none m = none
        rw [Function.update_of_ne hne]
        exact hs m hm
      · rw [(readLines_frame network s n _ _).2 m hne]
        exact hs m hm

/-- What a step does: nothing more once an exception was raised. -/
theorem watch_step {network : Nat → Exchange} {s t : Server} {r : Ready}
    (h : (watch network).step s r = some t) :
    s.raised ≠ none ∧ t = s
      ∨ s.raised = none ∧ r.registered s = true ∧ t = s.event network s.clients r := by
  unfold watch at h
  dsimp only at h
  split at h
  · rename_i hraised
    exact .inl ⟨hraised, (Option.some.inj h).symm⟩
  · rename_i hraised
    split at h
    · rename_i hregistered
      exact .inr ⟨not_not.mp hraised, hregistered, (Option.some.inj h).symm⟩
    · exact absurd h (by simp)

/-- A key is all an event needs of the keys. -/
theorem event_congr (network : Nat → Exchange) {keys keys' : Nat → Option Client} (s : Server)
    {r : Ready} (h : ∀ n data, r = .recv n data → keys n = keys' n) :
    s.event network keys r = s.event network keys' r := by
  cases r with
  | accept port => rfl
  | recv n data =>
    unfold Server.event
    dsimp only
    rw [h n data rfl]

/-- **A round handles its sockets one by one**: the keys that `select` returned are still those
of the clients when their turn comes. -/
theorem events_watch (network : Nat → Exchange) (keys : Nat → Option Client) {s : Server}
    (hs : s.Fresh) {round : List Ready} (hround : (round.map Ready.socket).Nodup)
    (hregistered : ∀ r ∈ round, r.registered s = true)
    (hkeys : ∀ n data, .recv n data ∈ round → keys n = s.clients n) :
    (watch network).run s round = some (s.events network keys round) := by
  induction round generalizing s with
  | nil => rfl
  | cons r round ih =>
    obtain ⟨hnew, hround⟩ := List.nodup_cons.mp hround
    have hfirst := hregistered r List.mem_cons_self
    refine (Machine.run_cons_eq_some _).mpr ?_
    by_cases hraised : s.raised = none
    · refine ⟨s.event network s.clients r, ?_, ?_⟩
      · show (if s.raised ≠ none then _ else _) = _
        rw [if_neg (not_not.mpr hraised), if_pos hfirst]
      · have hevents : s.events network keys (r :: round)
            = (s.event network s.clients r).events network keys round := by
          show (if s.raised = none then s.event network keys r else s).events network keys round
            = _
          rw [if_pos hraised,
            event_congr network s fun n data h => hkeys n data (h ▸ List.mem_cons_self)]
        -- the clients that are still to come keep their keys
        have hother : ∀ n data, .recv n data ∈ round →
            (s.event network s.clients r).clients n = s.clients n := by
          intro n data hmem
          have hn : n < s.accepted := by
            by_contra hge
            have hsome : (s.clients n).isSome = true :=
              hregistered _ (List.mem_cons_of_mem r hmem)
            rw [hs n (Nat.not_lt.mp hge)] at hsome
            exact absurd hsome (by simp)
          refine event_frame network s.clients s r hn fun h => hnew ?_
          rw [h]
          exact List.mem_map_of_mem hmem
        rw [hevents]
        refine ih (event_fresh network hs hfirst) hround (fun r' hr' => ?_) fun n data hmem => ?_
        · cases r' with
          | accept port => rfl
          | recv n data =>
            show ((s.event network s.clients r).clients n).isSome = true
            rw [hother n data hr']
            exact hregistered _ (List.mem_cons_of_mem r hr')
        · rw [hother n data hmem]
          exact hkeys n data (List.mem_cons_of_mem r hmem)
    · refine ⟨s, ?_, ?_⟩
      · show (if s.raised ≠ none then _ else _) = _
        rw [if_pos hraised]
      · have hevents : s.events network keys (r :: round) = s.events network keys round := by
          show (if s.raised = none then s.event network keys r else s).events network keys round
            = _
          rw [if_neg hraised]
        rw [hevents]
        exact ih hs hround (fun r' hr' => hregistered r' (List.mem_cons_of_mem r hr'))
          fun n data hmem => hkeys n data (List.mem_cons_of_mem r hmem)

/-- Nothing breaks freshness. -/
theorem watch_fresh (network : Nat → Exchange) {s t : Server} (hs : s.Fresh) {events : List Ready}
    (h : (watch network).run s events = some t) : t.Fresh := by
  refine Machine.run_invariant (P := Server.Fresh) (Q := fun _ => True) _ ?_ hs
    (fun _ _ => trivial) h
  intro s r t hs _ hstep
  obtain ⟨_, rfl⟩ | ⟨_, hregistered, rfl⟩ := watch_step hstep
  · exact hs
  · exact event_fresh network hs hregistered

/-- **`serve` is the loop over single sockets.** -/
theorem serveLoop_run (network : Nat → Exchange) {s t : Server} (hs : s.Fresh)
    {rounds : List (List Ready)} (h : (serveLoop network).run s rounds = some t) :
    (watch network).run s rounds.flatten = some t := by
  induction rounds generalizing s with
  | nil => exact h
  | cons round rounds ih =>
    obtain ⟨u, hstep, hrun⟩ := (Machine.run_cons_eq_some _).mp h
    rw [List.flatten_cons]
    refine (Machine.run_append _).mpr ?_
    have hwatch : (watch network).run s round = some u := by
      unfold serveLoop at hstep
      dsimp only at hstep
      split at hstep
      · rename_i hselect
        obtain ⟨_, hround, hregistered⟩ := hselect
        rw [← hstep]
        exact events_watch network s.clients hs hround hregistered fun _ _ _ => rfl
      · exact absurd hstep (by simp)
    exact ⟨u, hwatch, ih (watch_fresh network hs hwatch) hrun⟩

/-! ## §6. What every run keeps. -/

theorem acceptedPorts_append (events later : List Ready) :
    acceptedPorts (events ++ later) = acceptedPorts events ++ acceptedPorts later :=
  List.filterMap_append

theorem receivedFrom_append (n : Nat) (events later : List Ready) :
    receivedFrom n (events ++ later) = receivedFrom n events ++ receivedFrom n later :=
  List.flatMap_append

/-- The lines of a stream that comes in two parts. -/
theorem lines_append (a b : Bytes) :
    lines (a ++ b) = lines a ++ lines (unended NEWLINE a ++ b) := by
  rw [lines, (ended_append a b).1, List.map_append]
  rfl

theorem untilQuit_append {a : List Str} (h : ∀ line ∈ a, ¬ Quits line) (b : List Str) :
    untilQuit (a ++ b) = a ++ untilQuit b := by
  induction a with
  | nil => rfl
  | cons line a ih =>
    rw [List.cons_append, untilQuit_cons_of_not (h line List.mem_cons_self),
      ih fun l hl => h l (List.mem_cons_of_mem line hl), List.cons_append]

theorem untilQuit_of_not {a : List Str} (h : ∀ line ∈ a, ¬ Quits line) : untilQuit a = a := by
  have happend := untilQuit_append h []
  rwa [List.append_nil, untilQuit, List.append_nil] at happend

/-- More lines do not change what is executed of the first. -/
theorem untilQuit_isPrefix (a b : List Str) : untilQuit a <+: untilQuit (a ++ b) := by
  induction a with
  | nil => exact List.nil_prefix
  | cons line a ih =>
    rw [List.cons_append, untilQuit, untilQuit]
    split
    · exact List.prefix_rfl
    · exact (List.prefix_cons_inj line).mpr ih

/-- What is to be executed for a client only grows. -/
theorem linesOf_isPrefix (n : Nat) (events later : List Ready) :
    linesOf n events <+: linesOf n (events ++ later) := by
  unfold linesOf
  rw [acceptedPorts_append, receivedFrom_append, lines_append]
  cases hport : (acceptedPorts events)[n]? with
  | none => exact List.nil_prefix
  | some port =>
    have hn := (List.getElem?_eq_some_iff.mp hport).1
    rw [List.getElem?_append_left hn, hport]
    exact (untilQuit_isPrefix _ _).map _

/-- No line that is to be executed asks for an infinite frequency. -/
def Calm (events : List Ready) : Prop :=
  ∀ n, ∀ l ∈ linesOf n events, ¬ InfiniteFrequency l.1 l.2

theorem calm_of_append {events later : List Ready} (h : Calm (events ++ later)) : Calm events :=
  fun n l hl => h n l ((linesOf_isPrefix n events later).subset hl)

/-- **What a run has done**: the unfinished line of every open client is what followed its last
newline, none of its lines has quit, and the calls for each client are its lines. -/
structure Progress (proxy : Proxy) (events : List Ready) (s : Server) : Prop where
  raised : s.raised = none
  accepted : s.accepted = (acceptedPorts events).length
  fresh : ∀ n, s.accepted ≤ n → s.clients n = none ∧ receivedFrom n events = []
  opened : ∀ n key, s.clients n = some key →
    (acceptedPorts events)[n]? = some key.port
      ∧ key.pending = unended NEWLINE (receivedFrom n events)
      ∧ ∀ line ∈ lines (receivedFrom n events), ¬ Quits line
  calls : ∀ n, s.linesOf n = linesOf n events
  proxy : (serve.run (some proxy) (s.calls.map Call.command)).1 = some s.proxy

theorem progress_init (proxy : Proxy) : Progress proxy [] (Server.init proxy) where
  raised := rfl
  accepted := rfl
  fresh _ _ := ⟨rfl, rfl⟩
  opened _ _ h := absurd h (by simp [Server.init])
  calls _ := rfl
  proxy := rfl

/-- The lines of a client after calls for client `n`. -/
theorem linesOf_calls {s t : Server} {n : Nat} {new : List Call} (hcalls : t.calls = s.calls ++ new)
    (hnew : ∀ call ∈ new, call.socket = n) (m : Nat) :
    t.linesOf m = s.linesOf m
      ++ if m = n then new.map fun call => (call.command.port, call.command.line) else [] := by
  unfold Server.linesOf
  rw [hcalls, List.filter_append, List.map_append]
  by_cases hm : m = n
  · have hall : new.filter (fun call => decide (call.socket = m)) = new :=
      List.filter_eq_self.mpr fun call hcall => by simp [hnew call hcall, hm]
    rw [hall, if_pos hm]
  · have hnone : new.filter (fun call => decide (call.socket = m)) = [] :=
      List.filter_eq_nil_iff.mpr fun call hcall => by simpa [hnew call hcall] using Ne.symm hm
    rw [hnone, if_neg hm]
    rfl

/-- A listener that was ready. -/
theorem progress_accept {proxy : Proxy} {events : List Ready} {s : Server}
    (h : Progress proxy events s) (network : Nat → Exchange) (port : Port) :
    Progress proxy (events ++ [.accept port]) (s.event network s.clients (.accept port)) := by
  have hports : acceptedPorts (events ++ [.accept port]) = acceptedPorts events ++ [port] :=
    acceptedPorts_append _ _
  have hbytes : ∀ n, receivedFrom n (events ++ [.accept port]) = receivedFrom n events := by
    intro n
    rw [receivedFrom_append]
    exact List.append_nil _
  refine ⟨h.raised, ?_, fun n hn => ?_, fun n key hkey => ?_, fun n => ?_, h.proxy⟩
  · rw [hports, List.length_append, ← h.accepted]
    rfl
  · have hlt : s.accepted < n := hn
    obtain ⟨hnone, hnothing⟩ := h.fresh n (Nat.le_of_lt hlt)
    refine ⟨?_, (hbytes n).trans hnothing⟩
    show Function.update s.clients s.accepted _ n = none
    rw [Function.update_of_ne (Nat.ne_of_gt hlt), hnone]
  · rw [hports, hbytes]
    by_cases hn : n = s.accepted
    · subst hn
      obtain ⟨_, hnothing⟩ := h.fresh s.accepted (Nat.le_refl _)
      have hkey : Function.update s.clients s.accepted (some ⟨port, []⟩) s.accepted = some key :=
        hkey
      rw [Function.update_self] at hkey
      obtain rfl := Option.some.inj hkey
      rw [hnothing]
      refine ⟨?_, rfl, ?_⟩
      · rw [h.accepted, List.getElem?_concat_length]
      · intro line hline
        exact absurd hline (by rw [lines_of_notMem List.not_mem_nil]; exact List.not_mem_nil)
    · have hkey : Function.update s.clients s.accepted (some ⟨port, []⟩) n = some key := hkey
      rw [Function.update_of_ne hn] at hkey
      obtain ⟨hport, hpending, hquits⟩ := h.opened n key hkey
      refine ⟨?_, hpending, hquits⟩
      rw [List.getElem?_append_left (List.getElem?_eq_some_iff.mp hport).1, hport]
  · show s.linesOf n = _
    rw [h.calls]
    unfold linesOf
    rw [hports, hbytes]
    rcases Nat.lt_trichotomy n (acceptedPorts events).length with hn | hn | hn
    · rw [List.getElem?_append_left hn]
    · obtain ⟨_, hnothing⟩ := h.fresh n (by rw [h.accepted]; exact Nat.le_of_eq hn.symm)
      rw [hn, List.getElem?_concat_length, List.getElem?_eq_none (Nat.le_refl _), ← hn, hnothing]
      rfl
    · rw [List.getElem?_eq_none (Nat.le_of_lt hn),
        List.getElem?_eq_none (by simpa using Nat.succ_le_of_lt hn)]

theorem acceptedPorts_recv (events : List Ready) (n : Nat) (data : Bytes) :
    acceptedPorts (events ++ [.recv n data]) = acceptedPorts events := by
  rw [acceptedPorts_append]
  exact List.append_nil _

theorem receivedFrom_recv (m : Nat) (events : List Ready) (n : Nat) (data : Bytes) :
    receivedFrom m (events ++ [.recv n data])
      = receivedFrom m events ++ if n = m then data else [] := by
  rw [receivedFrom_append]
  show _ ++ ((if n = m then data else []) ++ []) = _
  rw [List.append_nil]

/-- A client whose stream has ended. -/
theorem progress_eof {proxy : Proxy} {events : List Ready} {s : Server}
    (h : Progress proxy events s) (n : Nat) :
    Progress proxy (events ++ [.recv n []]) (s.close n) := by
  have hbytes : ∀ m, receivedFrom m (events ++ [.recv n []]) = receivedFrom m events := by
    intro m
    rw [receivedFrom_recv, ite_self, List.append_nil]
  refine ⟨h.raised, by rw [acceptedPorts_recv]; exact h.accepted, fun m hm => ?_,
    fun m key hkey => ?_, fun m => ?_, h.proxy⟩
  · obtain ⟨hnone, hnothing⟩ := h.fresh m hm
    refine ⟨?_, (hbytes m).trans hnothing⟩
    show Function.update s.clients n none m = none
    rw [Function.update_apply, hnone, ite_self]
  · rw [acceptedPorts_recv, hbytes]
    have hkey : Function.update s.clients n none m = some key := hkey
    rw [Function.update_apply] at hkey
    split at hkey
    · exact absurd hkey (by simp)
    · exact h.opened m key hkey
  · show s.linesOf m = _
    rw [h.calls]
    unfold linesOf
    rw [acceptedPorts_recv, hbytes]

/-- What there is to execute for a client once it sent some more bytes. -/
theorem linesOf_recv {proxy : Proxy} {events : List Ready} {s : Server}
    (h : Progress proxy events s) {n : Nat} {key : Client} (hkey : s.clients n = some key)
    (data : Bytes) :
    lines (receivedFrom n (events ++ [.recv n data]))
        = lines (receivedFrom n events) ++ lines (key.pending ++ data)
      ∧ linesOf n (events ++ [.recv n data])
        = linesOf n events
          ++ (untilQuit (lines (key.pending ++ data))).map fun line => (key.port, line) := by
  obtain ⟨hport, hpending, hquits⟩ := h.opened n key hkey
  have hlines : lines (receivedFrom n (events ++ [.recv n data]))
      = lines (receivedFrom n events) ++ lines (key.pending ++ data) := by
    rw [receivedFrom_recv, if_pos rfl, lines_append, hpending]
  refine ⟨hlines, ?_⟩
  unfold linesOf
  rw [acceptedPorts_recv, hport]
  dsimp only
  rw [hlines, untilQuit_append hquits, List.map_append, untilQuit_of_not hquits]

/-- A client that sent some bytes. -/
theorem progress_recv {proxy : Proxy} {events : List Ready} {s t : Server}
    (h : Progress proxy events s) {n : Nat} {key : Client} (hkey : s.clients n = some key)
    {data : Bytes} {new : List Call}
    (hnew : Reads s t n key.port (key.pending ++ data) new) :
    Progress proxy (events ++ [.recv n data]) t := by
  obtain ⟨hport, hpending, hquits⟩ := h.opened n key hkey
  obtain ⟨hlines, hexecuted⟩ := linesOf_recv h hkey data
  have hother : ∀ m, m ≠ n →
      receivedFrom m (events ++ [.recv n data]) = receivedFrom m events := by
    intro m hm
    rw [receivedFrom_recv, if_neg (Ne.symm hm), List.append_nil]
  refine ⟨hnew.raised.trans h.raised, ?_, fun m hm => ?_, fun m key' hkey' => ?_, fun m => ?_, ?_⟩
  · rw [hnew.accepted, acceptedPorts_recv]
    exact h.accepted
  · rw [hnew.accepted] at hm
    obtain ⟨hnone, hnothing⟩ := h.fresh m hm
    have hne : m ≠ n := by
      intro hmn
      rw [hmn, hkey] at hnone
      exact absurd hnone (by simp)
    rw [hnew.clients, Function.update_of_ne hne, hother m hne]
    exact ⟨hnone, hnothing⟩
  · rw [acceptedPorts_recv]
    rw [hnew.clients] at hkey'
    by_cases hm : m = n
    · subst hm
      rw [Function.update_self] at hkey'
      split at hkey'
      · exact absurd hkey' (by simp)
      · rename_i hnone
        obtain rfl := Option.some.inj hkey'
        refine ⟨hport, ?_, fun line hline => ?_⟩
        · show unended NEWLINE (key.pending ++ data) = _
          rw [receivedFrom_recv, if_pos rfl, (ended_append (receivedFrom m events) data).2,
            hpending]
        · rw [hlines] at hline
          rcases List.mem_append.mp hline with hline | hline
          · exact hquits line hline
          · exact fun hquit => hnone ⟨line, hline, hquit⟩
    · rw [Function.update_of_ne hm] at hkey'
      rw [hother m hm]
      exact h.opened m key' hkey'
  · rw [linesOf_calls hnew.calls hnew.socket, h.calls]
    by_cases hm : m = n
    · subst hm
      rw [if_pos rfl, hnew.lines, hexecuted]
    · rw [if_neg hm, List.append_nil]
      unfold linesOf
      rw [acceptedPorts_recv, hother m hm]
  · rw [hnew.calls, List.map_append, Reader.run_append, h.proxy]
    exact hnew.proxy

/-- **Every run keeps it**, as long as no line asks for an infinite frequency. -/
theorem watch_progress {proxy : Proxy} {network : Nat → Exchange}
    (hu : ∀ port k, (proxy.upstream port).WellFormed (network k)) {events : List Ready} {s : Server}
    (hrun : (watch network).run (Server.init proxy) events = some s) (hc : Calm events) :
    Progress proxy events s := by
  induction events using List.reverseRecOn generalizing s with
  | nil =>
    obtain rfl := Option.some.inj hrun
    exact progress_init proxy
  | append_singleton events r ih =>
    obtain ⟨t, hevents, hlast⟩ := (Machine.run_append _).mp hrun
    obtain ⟨u, hstep, hend⟩ := (Machine.run_cons_eq_some _).mp hlast
    obtain rfl := Option.some.inj hend
    have h := ih hevents (calm_of_append hc)
    obtain ⟨hraised, _⟩ | ⟨_, hregistered, rfl⟩ := watch_step hstep
    · exact absurd h.raised hraised
    · cases r with
      | accept port => exact progress_accept h network port
      | recv n data =>
        obtain ⟨key, hkey⟩ := Option.isSome_iff_exists.mp hregistered
        have hevent : t.event network t.clients (.recv n data)
            = if data = [] then t.close n
              else t.readLines network n key.port (key.pending ++ data) := by
          unfold Server.event
          dsimp only
          rw [hkey]
        rw [hevent]
        by_cases hdata : data = []
        · rw [if_pos hdata, hdata]
          exact progress_eof h n
        · rw [if_neg hdata]
          have hu' : ∀ port k, (t.proxy.upstream port).WellFormed (network k) := by
            -- the endpoints are those of the proxy the run began with
            intro port k
            unfold Upstream.WellFormed
            rw [serve_run_endpoint h.proxy port]
            exact hu port k
          obtain ⟨new, hnew⟩ := readLines_spec network t n key.port (key.pending ++ data) hu'
            fun line hline => hc n (key.port, line) (by
              rw [(linesOf_recv h hkey data).2]
              exact List.mem_append_right _ (List.mem_map_of_mem hline))
          exact progress_recv h hkey hnew

/-! ## §7. The runs of `serve`. -/

/-- **Each client's calls are its complete lines**, in order, up to the one that quits, on its
port, whatever the number of clients, the interleaving and the cuts; and the calls are a run of
lines on the proxy. -/
theorem serve_lines {proxy : Proxy} {network : Nat → Exchange} {rounds : List (List Ready)}
    {s : Server} (hrun : (serveLoop network).run (Server.init proxy) rounds = some s)
    (hu : ∀ port k, (proxy.upstream port).WellFormed (network k)) (hc : Calm rounds.flatten) :
    s.raised = none ∧ (∀ n, s.linesOf n = linesOf n rounds.flatten)
      ∧ (serve.run (some proxy) (s.calls.map Call.command)).1 = some s.proxy := by
  have hfresh : (Server.init proxy).Fresh := fun _ _ => rfl
  have h := watch_progress hu (serveLoop_run network hfresh hrun) hc
  exact ⟨h.raised, h.calls, h.proxy⟩

/-- What happens behind a proxy without daemons. -/
def quietNetwork : Nat → Exchange := fun _ => (radioLine "").exchange

/-- A rotator client with an unfinished line, and a radio client with a line behind its quit. -/
def twoClients : List (List Ready) :=
  [[.accept .rotator, .accept .radio],
   [.recv 0 [0x53, 10, 0x4B], .recv 1 [0x66, 10, 0x71, 10, 0x66, 10]]]

theorem linesOf_twoClients :
    linesOf 0 twoClients.flatten = [(.rotator, ['S'])]
      ∧ linesOf 1 twoClients.flatten = [(.radio, ['f']), (.radio, ['q'])] := by
  decide +kernel

theorem serve_lines_two : ∃ s,
    (serveLoop quietNetwork).run (Server.init (Proxy.init trackingProfile none none)) twoClients
        = some s
      ∧ s.linesOf 0 = [(.rotator, ['S'])] ∧ s.linesOf 1 = [(.radio, ['f']), (.radio, ['q'])] := by
  have hcalm : Calm twoClients.flatten := by
    intro n l hl
    rcases n with _ | _ | n
    · rw [linesOf_twoClients.1, List.mem_singleton] at hl
      subst hl
      exact fun h => absurd h.1 (by decide)
    · rw [linesOf_twoClients.2] at hl
      rintro ⟨_, fields, _, hsplit, _⟩
      have hall : ∀ l ∈ [(Port.radio, ['f']), (Port.radio, ['q'])],
          (split l.2).head? ≠ some ['F'] := by decide
      exact hall l hl (by rw [hsplit]; rfl)
    · exact absurd hl List.not_mem_nil
  let s₁ : Server := ⟨Proxy.init trackingProfile none none,
    Function.update (Function.update (fun _ => none) 0 (some ⟨.rotator, []⟩)) 1 (some ⟨.radio, []⟩),
    2, [], none⟩
  have hrun : (serveLoop quietNetwork).run (Server.init (Proxy.init trackingProfile none none))
      twoClients = some (s₁.events quietNetwork s₁.clients twoClients.getLast!) := by
    rfl
  obtain ⟨_, hlines, _⟩ := serve_lines hrun (fun port _ => by cases port <;> exact .inl rfl) hcalm
  exact ⟨_, hrun, (hlines 0).trans linesOf_twoClients.1, (hlines 1).trans linesOf_twoClients.2⟩

/-- The lines of one radio client in one chunk, the first with an infinite frequency. -/
def infiniteClient : List (List Ready) :=
  [[.accept .radio], [.recv 0 [0x46, 0x20, 0x69, 0x6E, 0x66, 10, 0x66, 10]]]

/-- **A line behind an infinite frequency is lost**: the exception ends the loop. -/
theorem serve_lines_lost : ∃ s,
    (serveLoop quietNetwork).run (Server.init (Proxy.init trackingProfile none none)) infiniteClient
        = some s
      ∧ s.linesOf 0 = [(.radio, "F inf".toList)]
      ∧ linesOf 0 infiniteClient.flatten = [(.radio, "F inf".toList), (.radio, ['f'])]
      ∧ ¬ ∀ n, s.linesOf n = linesOf n infiniteClient.flatten := by
  let s₁ : Server := ⟨Proxy.init trackingProfile none none,
    Function.update (fun _ => none) 0 (some ⟨.radio, []⟩), 1, [], none⟩
  have hrun : (serveLoop quietNetwork).run (Server.init (Proxy.init trackingProfile none none))
      infiniteClient = some (s₁.readLines quietNetwork 0 .radio
        [0x46, 0x20, 0x69, 0x6E, 0x66, 10, 0x66, 10]) := by
    rfl
  have hraises : ((Proxy.init trackingProfile none none).handle
      ⟨.radio, "F inf".toList, quietNetwork 0⟩).result
        = .error (.overflowError "cannot convert float infinity to integer") := by rfl
  have hline : lineText (partitionAt NEWLINE [0x46, 0x20, 0x69, 0x6E, 0x66, 10, 0x66, 10]).1
      = "F inf".toList := by decide +kernel
  rw [readLines_error (by decide) (by rw [hline]; rfl) hraises] at hrun
  have hcomplete : linesOf 0 infiniteClient.flatten
      = [(.radio, "F inf".toList), (.radio, ['f'])] := by decide +kernel
  refine ⟨_, hrun, rfl, hcomplete, fun hall => ?_⟩
  have hlost := (hall 0).trans hcomplete
  exact absurd (congrArg List.length hlost) (by decide)

end KFsw.Ground
