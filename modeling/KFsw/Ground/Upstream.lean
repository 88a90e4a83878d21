/-
  KFsw.Ground.Upstream — the daemon behind `tools/ground/gpredict-proxy.py`:
  `Upstream` and the TCP connection it holds.

  The daemon answers each command with some bytes.  TCP delivers the bytes of a
  connection in order, in pieces of any size; `recv(256)` returns some of those
  that have arrived.  The daemon may close its end at any byte of a reply, and
  any of connecting, sending and receiving may fail.  The bytes carry the number
  of the command they answer; the code does not see it.

  Main results:
    * `send_texts`    — what reaches `sendall` is the text and nothing else;
    * `send_received` — `send` returns a reply exactly when `recv` returned.
-/
import KFsw.Ground.Csp
import KFsw.Lib.PyText

namespace KFsw.Ground

open KFsw.Lib

/-! ## §1. The daemon and the network. -/

/-- A byte of a reply, with the number of the command it answers. -/
abbrev Answer := Nat × UInt8

/-- The bytes of a reply to command `number`. -/
def answers (number : Nat) (reply : Bytes) : List Answer := reply.map fun b => (number, b)

/-- An open connection: what the daemon has written and `recv` has not returned yet, and whether
the daemon has closed its end. -/
structure Connection where
  inFlight : List Answer
  closed : Bool
  deriving DecidableEq

/-- How `socket.create_connection((host, int(port)))` ends.  A port that is no number, or none of
TCP's, raises something else than `OSError`. -/
inductive Attempt where
  | connected
  | osError
  | raises (e : PyError)
  deriving DecidableEq

/-- What the network and the daemon do during one `send`. -/
structure Exchange where
  attempt : Attempt
  /-- Whether `sendall` returns. -/
  sends : Bool
  /-- The complete reply the daemon makes to the command. -/
  reply : Bytes
  /-- The daemon closes its end after so many bytes of it. -/
  closesAfter : Option Nat
  /-- The bytes that have arrived when `recv` returns; none where it raises `OSError`. -/
  arrived : Option Nat
  deriving DecidableEq

/-- What the daemon writes of its reply. -/
def Exchange.written (x : Exchange) : Bytes :=
  match x.closesAfter with
  | none => x.reply
  | some n => x.reply.take n

/-- The connection after the daemon answered command `number`: nothing more from a daemon that
had closed its end. -/
def Connection.answer (c : Connection) (number : Nat) (x : Exchange) : Connection :=
  if c.closed then c else ⟨c.inFlight ++ answers number x.written, x.closesAfter.isSome⟩

/-- `socket.recv(256)`: it waits for a byte; an orderly end of the stream gives no bytes, and a
wait without end runs into the time-out, which is an `OSError`. -/
def Connection.recv (c : Connection) (arrived : Nat) : Option (List Answer × Connection) :=
  if c.inFlight = [] then (if c.closed then some ([], c) else none)
  else
    let size := min 256 (max 1 arrived)
    some (c.inFlight.take size, { c with inFlight := c.inFlight.drop size })

/-! ## §2. `Upstream`. -/

/-- `Upstream`; `number` counts its commands. -/
structure Upstream where
  endpoint : Option String
  socket : Option Connection
  number : Nat
  deriving DecidableEq

/-- `Upstream.__init__`. -/
def Upstream.init (endpoint : Option String) : Upstream := ⟨endpoint, none, 0⟩

/-- `Upstream.connect`: the connection, if there is one after it. -/
def Upstream.connect (u : Upstream) (attempt : Attempt) : Except PyError (Option Connection) :=
  match u.endpoint, u.socket with
  | none, s => .ok s
  | some _, some c => .ok (some c)
  | some _, none =>
    match attempt with
    | .connected => .ok (some ⟨[], false⟩)
    | .osError => .ok none
    | .raises e => .error e

/-- What one `send` did: the upstream after it, what it returned or raised, the texts handed to
`sendall`, and the bytes `recv` returned. -/
structure Sent where
  upstream : Upstream
  result : Except PyError (Option Str)
  texts : List Str
  received : Option (List Answer)

/-- `Upstream.send`: the daemon's reply, or none when there is no daemon. -/
def Upstream.send (u : Upstream) (text : Str) (x : Exchange) : Sent :=
  match u.connect x.attempt with
  | .error e => ⟨u, .error e, [], none⟩
  | .ok none => ⟨u, .ok none, [], none⟩
  | .ok (some c) =>
    -- a daemon that went away is reconnected on the next command
    let gone : Upstream := { u with socket := none, number := u.number + 1 }
    if x.sends = false then ⟨gone, .ok none, [text], none⟩
    else
      match x.arrived.bind (c.answer u.number x).recv with
      | none => ⟨gone, .ok none, [text], none⟩
      | some (data, c) =>
        ⟨{ u with socket := some c, number := u.number + 1 },
          .ok (some (decodeReplace (data.map Prod.snd))), [text], some data⟩

/-- What reaches `sendall` is the text and nothing else. -/
theorem send_texts (u : Upstream) (text : Str) (x : Exchange) :
    ∀ t ∈ (u.send text x).texts, t = text := by
  unfold Upstream.send
  split
  · simp
  · simp
  · dsimp only
    split
    · simp
    · split <;> simp

/-- `send` returns a reply exactly when `recv` returned. -/
theorem send_received (u : Upstream) (text : Str) (x : Exchange) :
    (∀ reply, (u.send text x).result = .ok (some reply) → (u.send text x).received ≠ none)
      ∧ ((u.send text x).result = .ok none → (u.send text x).received = none) := by
  unfold Upstream.send
  split
  · simp
  · simp
  · dsimp only
    split
    · simp
    · split <;> simp

end KFsw.Ground
