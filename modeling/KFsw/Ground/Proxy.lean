/-
  KFsw.Ground.Proxy — `tools/ground/gpredict-proxy.py`: the profile, and what the
  proxy does with a line of a rotator client or a radio client.

  The two ports share one proxy, and `serve` handles one line after the other.
  A run is a list of lines, each with its port and with what the network does
  for it; an exception of a handler ends the run.  Counters and what is printed
  are left out.

  Main results:
    * `split_bearingText`  — the daemon reads a bearing as the two numbers;
    * `rotatorCommand_eq`, `radioCommand_eq` — a handler takes the order of its line;
    * `run_bearing`        — the proxy holds the last bearing it accepted;
    * `proxy_limits`       — every command a run sends keeps the profile.
-/
import KFsw.Ground.Upstream
import KFsw.Lib.PyFloat
import KFsw.Lib.Framing

namespace KFsw.Ground

open KFsw.Lib

/-! ## §1. `Profile`. -/

inductive Policy where
  | follow
  | hold
  | ignore
  deriving DecidableEq, Repr

def Policy.ofText : String → Option Policy
  | "follow" => some .follow
  | "hold" => some .hold
  | "ignore" => some .ignore
  | _ => none

def Policy.text : Policy → String
  | .follow => "follow"
  | .hold => "hold"
  | .ignore => "ignore"

/-- The values of an entry of the profiles' document, as Python's `int`, `bool` and `float` give
them. -/
structure ProfileEntry where
  name : String
  catalogue : Int
  enabled : Bool
  azimuth : Float × Float
  elevation : Float × Float
  policy : String
  frequencyHz : Int

/-- `Profile`: a frequency to hold is above zero. -/
structure Profile where
  name : String
  catalogue : Int
  enabled : Bool
  azimuth : Float × Float
  elevation : Float × Float
  policy : Policy
  frequencyHz : Int
  hold_pos : policy = .hold → 0 < frequencyHz

/-- `Profile.__init__`. -/
def Profile.init (entry : ProfileEntry) : Except PyError Profile :=
  match Policy.ofText entry.policy with
  | none =>
    .error (.valueError (entry.name ++ ": unknown frequency policy " ++ entry.policy))
  | some policy =>
    if h : policy = .hold ∧ entry.frequencyHz ≤ 0 then
      .error (.valueError (entry.name ++ ": hold needs a frequency to hold"))
    else
      .ok ⟨entry.name, entry.catalogue, entry.enabled, entry.azimuth, entry.elevation, policy,
        entry.frequencyHz, fun hp => by simpa [hp] using h⟩

def Profile.allows (p : Profile) (azimuth elevation : Float) : Bool :=
  decide (p.azimuth.1 ≤ azimuth ∧ azimuth ≤ p.azimuth.2)
    && decide (p.elevation.1 ≤ elevation ∧ elevation ≤ p.elevation.2)

/-- Every profile is one that `__init__` builds. -/
theorem Profile.exists_entry (p : Profile) : ∃ entry, Profile.init entry = .ok p := by
  refine ⟨⟨p.name, p.catalogue, p.enabled, p.azimuth, p.elevation, p.policy.text, p.frequencyHz⟩, ?_⟩
  have hpolicy : Policy.ofText p.policy.text = some p.policy := by cases p.policy <;> rfl
  unfold Profile.init
  rw [hpolicy]
  dsimp only
  rw [dif_neg]
  rintro ⟨hhold, hle⟩
  exact absurd (p.hold_pos hhold) (Int.not_lt.mpr hle)

/-- A bearing inside the closed limits. -/
theorem Profile.allows_iff (p : Profile) (azimuth elevation : Float) :
    p.allows azimuth elevation = true ↔
      (p.azimuth.1 ≤ azimuth ∧ azimuth ≤ p.azimuth.2)
        ∧ (p.elevation.1 ≤ elevation ∧ elevation ≤ p.elevation.2) := by
  unfold Profile.allows
  rw [Bool.and_eq_true, decide_eq_true_eq, decide_eq_true_eq]

/-! ## §2. `Proxy`. -/

/-- hamlib's own: zero is success. -/
def RPRT_OK : Str := "RPRT 0\n".toList
def RPRT_REFUSED : Str := "RPRT -1\n".toList

structure Proxy where
  profile : Profile
  rotator : Upstream
  radio : Upstream
  azimuth : Float
  elevation : Float
  frequencyHz : Int

/-- `Proxy.__init__`. -/
def Proxy.init (profile : Profile) (rotator radio : Option String) : Proxy :=
  ⟨profile, .init rotator, .init radio, 0.0, 0.0, 0⟩

/-- What a handler did: the proxy after it, the reply it returned or the exception it raised, and
its command to the daemon, if any.  No reply closes the client's connection. -/
structure Handled where
  proxy : Proxy
  result : Except PyError (Option Str)
  forwarded : Option Sent

/-- A handler that answers the client by itself. -/
def Proxy.reply (p : Proxy) (text : Str) : Handled := ⟨p, .ok (some text), none⟩

/-- `reply = self.rotator.send(text)`, and `reply if reply is not None else fallback`. -/
def Proxy.askRotator (p : Proxy) (text fallback : Str) (x : Exchange) : Handled :=
  let s := p.rotator.send text x
  ⟨{ p with rotator := s.upstream }, s.result.map fun reply => some (reply.getD fallback), some s⟩

/-- The same on the radio's side. -/
def Proxy.askRadio (p : Proxy) (text fallback : Str) (x : Exchange) : Handled :=
  let s := p.radio.send text x
  ⟨{ p with radio := s.upstream }, s.result.map fun reply => some (reply.getD fallback), some s⟩

/-- `f"P {azimuth} {elevation}\n"`. -/
def bearingText (azimuth elevation : Float) : Str :=
  'P' :: ' ' :: (reprFloat azimuth ++ ' ' :: (reprFloat elevation ++ ['\n']))

/-- `f"{self.azimuth:.2f}\n{self.elevation:.2f}\n"`. -/
def positionText (azimuth elevation : Float) : Str :=
  formatFixed 2 azimuth ++ '\n' :: (formatFixed 2 elevation ++ ['\n'])

/-- `f"F {frequency}\n"`. -/
def frequencyText (frequency : Int) : Str := 'F' :: ' ' :: (intText frequency ++ ['\n'])

/-- `int(x)` of a float. -/
def intOfFloat (x : Float) : Except PyError Int :=
  match floatValue x with
  | .nan => .error (.valueError "cannot convert float NaN to integer")
  | .infinite _ => .error (.overflowError "cannot convert float infinity to integer")
  | .finite negative mantissa exponent => .ok (truncated negative mantissa exponent)

def Proxy.rotatorCommand (p : Proxy) (line : Str) (x : Exchange) : Handled :=
  match split line with
  | [] => p.reply []
  | verb :: fields =>
    if verb = ['P'] ∧ 2 ≤ fields.length then
      match float (fields.getD 0 []), float (fields.getD 1 []) with
      | some azimuth, some elevation =>
        if p.profile.enabled = false ∨ p.profile.allows azimuth elevation = false then
          p.reply RPRT_REFUSED
        else
          { p with azimuth := azimuth, elevation := elevation }.askRotator
            (bearingText azimuth elevation) RPRT_OK x
      | _, _ => p.reply RPRT_REFUSED
    else if verb = ['p'] then
      -- no daemon: what was last accepted
      p.askRotator ['p', '\n'] (positionText p.azimuth p.elevation) x
    else if verb = ['S'] ∨ verb = ['K'] then p.askRotator (verb ++ ['\n']) RPRT_OK x
    else if verb = ['q'] ∨ verb = ['Q'] then ⟨p, .ok none, none⟩
    else p.reply RPRT_REFUSED

def Proxy.radioCommand (p : Proxy) (line : Str) (x : Exchange) : Handled :=
  match split line with
  | [] => p.reply []
  | verb :: fields =>
    if verb = ['F'] ∧ 1 ≤ fields.length then
      match (float (fields.getD 0 [])).map intOfFloat with
      -- a text that is no number, or a nan
      | none | some (.error (.valueError _)) => p.reply RPRT_REFUSED
      -- an infinity is no `ValueError`, and is not caught
      | some (.error e) => ⟨p, .error e, none⟩
      | some (.ok frequency) =>
        if p.profile.policy = .ignore ∨ p.profile.enabled = false then p.reply RPRT_OK
        else
          let frequency := if p.profile.policy = .hold then p.profile.frequencyHz else frequency
          { p with frequencyHz := frequency }.askRadio (frequencyText frequency) RPRT_OK x
    else if verb = ['f'] then p.askRadio ['f', '\n'] (intText p.frequencyHz ++ ['\n']) x
    else if verb = ['q'] ∨ verb = ['Q'] then ⟨p, .ok none, none⟩
    else p.reply RPRT_REFUSED

/-! ## §3. What a line asks for. -/

inductive Port where
  | rotator
  | radio
  deriving DecidableEq, Repr

/-- What a line asks for, under a profile. -/
inductive Order where
  /-- Answered by the proxy itself. -/
  | answered (reply : Str)
  | quit
  | raises (e : PyError)
  | bearing (azimuth elevation : Float)
  | position
  | stop
  | park
  | frequency (hz : Int)
  | askFrequency

def rotatorOrder (profile : Profile) (line : Str) : Order :=
  match split line with
  | [] => .answered []
  | verb :: fields =>
    if verb = ['P'] ∧ 2 ≤ fields.length then
      match float (fields.getD 0 []), float (fields.getD 1 []) with
      | some azimuth, some elevation =>
        if profile.enabled = false ∨ profile.allows azimuth elevation = false then
          .answered RPRT_REFUSED
        else .bearing azimuth elevation
      | _, _ => .answered RPRT_REFUSED
    else if verb = ['p'] then .position
    else if verb = ['S'] then .stop
    else if verb = ['K'] then .park
    else if verb = ['q'] ∨ verb = ['Q'] then .quit
    else .answered RPRT_REFUSED

/-- The truncated frequency a line asks for. -/
def requestedHz (fields : List Str) : Option (Except PyError Int) :=
  (float (fields.getD 0 [])).map intOfFloat

def radioOrder (profile : Profile) (line : Str) : Order :=
  match split line with
  | [] => .answered []
  | verb :: fields =>
    if verb = ['F'] ∧ 1 ≤ fields.length then
      match requestedHz fields with
      | none | some (.error (.valueError _)) => .answered RPRT_REFUSED
      | some (.error e) => .raises e
      | some (.ok hz) =>
        if profile.policy = .ignore ∨ profile.enabled = false then .answered RPRT_OK
        else .frequency (if profile.policy = .hold then profile.frequencyHz else hz)
    else if verb = ['f'] then .askFrequency
    else if verb = ['q'] ∨ verb = ['Q'] then .quit
    else .answered RPRT_REFUSED

/-- The command an order sends to the daemon. -/
def Order.text : Order → Option Str
  | .bearing azimuth elevation => some (bearingText azimuth elevation)
  | .position => some ['p', '\n']
  | .stop => some ['S', '\n']
  | .park => some ['K', '\n']
  | .frequency hz => some (frequencyText hz)
  | .askFrequency => some ['f', '\n']
  | .answered _ | .quit | .raises _ => none

/-- The proxy once it has taken an order: a bearing and a frequency are kept. -/
def Proxy.obey (p : Proxy) : Order → Proxy
  | .bearing azimuth elevation => { p with azimuth := azimuth, elevation := elevation }
  | .frequency hz => { p with frequencyHz := hz }
  | _ => p

/-- The answer to an order: the proxy's own, or the one for a client when there is no daemon. -/
def Proxy.answer (p : Proxy) : Order → Except PyError (Option Str)
  | .answered reply => .ok (some reply)
  | .quit => .ok none
  | .raises e => .error e
  | .position => .ok (some (positionText p.azimuth p.elevation))
  | .askFrequency => .ok (some (intText p.frequencyHz ++ ['\n']))
  | .bearing .. | .stop | .park | .frequency _ => .ok (some RPRT_OK)

/-- The daemon's reply, where there is one, in place of the proxy's answer. -/
def overrideReply (answer : Except PyError (Option Str)) :
    Except PyError (Option Str) → Except PyError (Option Str)
  | .error e => .error e
  | .ok none => answer
  | .ok (some reply) => .ok (some reply)

/-- Taking an order on a port: the daemon is asked where the order says so. -/
def Proxy.take (p : Proxy) (port : Port) (o : Order) (x : Exchange) : Handled :=
  match o.text, port with
  | none, _ => ⟨p, p.answer o, none⟩
  | some text, .rotator =>
    let s := p.rotator.send text x
    ⟨{ p.obey o with rotator := s.upstream }, overrideReply (p.answer o) s.result, some s⟩
  | some text, .radio =>
    let s := p.radio.send text x
    ⟨{ p.obey o with radio := s.upstream }, overrideReply (p.answer o) s.result, some s⟩

/-- The upstream behind a port. -/
def Proxy.upstream (p : Proxy) : Port → Upstream
  | .rotator => p.rotator
  | .radio => p.radio

/-- An order that the proxy answers by itself. -/
theorem take_local (p : Proxy) (port : Port) {o : Order} (h : o.text = none) (x : Exchange) :
    p.take port o x = ⟨p, p.answer o, none⟩ := by
  unfold Proxy.take
  rw [h]

/-- An order that is sent to a port's daemon, and leaves the other port's alone. -/
theorem take_forwarded (p : Proxy) (port : Port) {o : Order} {text : Str} (h : o.text = some text)
    (x : Exchange) :
    (p.take port o x).forwarded = some ((p.upstream port).send text x)
      ∧ (p.take port o x).result
        = overrideReply (p.answer o) ((p.upstream port).send text x).result
      ∧ ∀ port', (p.take port o x).proxy.upstream port'
        = if port' = port then ((p.upstream port).send text x).upstream else p.upstream port' := by
  unfold Proxy.take
  rw [h]
  have hobey : ∀ port', (p.obey o).upstream port' = p.upstream port' := by
    intro port'
    cases port' <;> cases o <;> rfl
  cases port with
  | rotator =>
    refine ⟨rfl, rfl, fun port' => ?_⟩
    cases port' with
    | rotator => rfl
    | radio => exact hobey .radio
  | radio =>
    refine ⟨rfl, rfl, fun port' => ?_⟩
    cases port' with
    | rotator => exact hobey .rotator
    | radio => rfl

/-- The daemon's reply, or the fallback. -/
theorem map_getD (r : Except PyError (Option Str)) (fallback : Str) :
    (r.map fun reply => some (reply.getD fallback)) = overrideReply (.ok (some fallback)) r := by
  rcases r with e | _ | reply <;> rfl

/-- **What the rotator's handler does**: the order of the line. -/
theorem rotatorCommand_eq (p : Proxy) (line : Str) (x : Exchange) :
    p.rotatorCommand line x = p.take .rotator (rotatorOrder p.profile line) x := by
  unfold Proxy.rotatorCommand rotatorOrder Proxy.askRotator
  simp only [map_getD]
  cases split line with
  | nil => rfl
  | cons verb fields =>
    dsimp only
    by_cases hbearing : verb = ['P'] ∧ 2 ≤ fields.length
    · rw [if_pos hbearing, if_pos hbearing]
      cases float (fields.getD 0 []) with
      | none => rfl
      | some azimuth =>
        cases float (fields.getD 1 []) with
        | none => rfl
        | some elevation =>
          dsimp only
          split <;> rfl
    · rw [if_neg hbearing, if_neg hbearing]
      by_cases hstop : verb = ['S']
      · subst hstop
        rfl
      · by_cases hpark : verb = ['K']
        · subst hpark
          rfl
        · rw [if_neg hstop, if_neg hpark, if_neg (not_or.mpr ⟨hstop, hpark⟩)]
          repeat' split
          all_goals rfl

/-- **What the radio's handler does**: the order of the line. -/
theorem radioCommand_eq (p : Proxy) (line : Str) (x : Exchange) :
    p.radioCommand line x = p.take .radio (radioOrder p.profile line) x := by
  unfold Proxy.radioCommand radioOrder requestedHz Proxy.askRadio
  simp only [map_getD]
  cases split line with
  | nil => rfl
  | cons verb fields =>
    dsimp only
    by_cases hfrequency : verb = ['F'] ∧ 1 ≤ fields.length
    · rw [if_pos hfrequency, if_pos hfrequency]
      cases (float (fields.getD 0 [])).map intOfFloat with
      | none => rfl
      | some r =>
        cases r with
        | error e => cases e <;> rfl
        | ok hz =>
          dsimp only
          split <;> rfl
    · rw [if_neg hfrequency, if_neg hfrequency]
      repeat' split
      all_goals rfl

/-! ## §4. Runs. -/

/-- A line that `serve` hands to a port's handler, and what the network does meanwhile. -/
structure Command where
  port : Port
  line : Str
  exchange : Exchange

def Proxy.handle (p : Proxy) (c : Command) : Handled :=
  match c.port with
  | .rotator => p.rotatorCommand c.line c.exchange
  | .radio => p.radioCommand c.line c.exchange

def orderOf (profile : Profile) (c : Command) : Order :=
  match c.port with
  | .rotator => rotatorOrder profile c.line
  | .radio => radioOrder profile c.line

theorem handle_eq (p : Proxy) (c : Command) :
    p.handle c = p.take c.port (orderOf p.profile c) c.exchange := by
  unfold Proxy.handle orderOf
  cases c.port with
  | rotator => exact rotatorCommand_eq p c.line c.exchange
  | radio => exact radioCommand_eq p c.line c.exchange

/-- A turn of a run: the proxy before it, the line, and what the handler did. -/
structure Turn where
  before : Proxy
  command : Command
  handled : Handled

/-- `serve`: line after line, until a handler raises. -/
def serve : Reader (Option Proxy) Command Turn :=
  ⟨fun s c =>
    match s with
    | none => (none, none)
    | some p =>
      let h := p.handle c
      (match h.result with | .ok _ => some h.proxy | .error _ => none, some ⟨p, c, h⟩)⟩

/-- The texts a handler sent to its daemon. -/
def Handled.texts (h : Handled) : List Str :=
  match h.forwarded with
  | some s => s.texts
  | none => []

/-- The bearing a run was last asked for and accepted; a proxy starts at zero. -/
def lastBearing (profile : Profile) (commands : List Command) : Float × Float :=
  commands.foldl (fun bearing c =>
    match orderOf profile c with
    | .bearing azimuth elevation => (azimuth, elevation)
    | _ => bearing) (0.0, 0.0)

/-- What the handler sent is the text of the order. -/
theorem texts_take (p : Proxy) (port : Port) (o : Order) (x : Exchange) :
    ∀ text ∈ (p.take port o x).texts, o.text = some text := by
  intro text htext
  unfold Proxy.take at htext
  cases ho : o.text with
  | none =>
    rw [ho] at htext
    exact absurd htext List.not_mem_nil
  | some t =>
    rw [ho] at htext
    cases port with
    | rotator =>
      rw [send_texts p.rotator t x text htext]
    | radio =>
      rw [send_texts p.radio t x text htext]

/-- An order changes what the proxy keeps as `obey` says, and never its profile. -/
theorem take_proxy (p : Proxy) (port : Port) (o : Order) (x : Exchange) :
    (p.take port o x).proxy.profile = p.profile
      ∧ (p.take port o x).proxy.azimuth = (p.obey o).azimuth
      ∧ (p.take port o x).proxy.elevation = (p.obey o).elevation := by
  cases o <;> cases port <;> exact ⟨rfl, rfl, rfl⟩

/-- A turn whose handler returned, and one whose handler raised. -/
theorem serve_step_ok {p : Proxy} {c : Command} {reply : Option Str}
    (h : (p.handle c).result = .ok reply) :
    serve.step (some p) c = (some (p.handle c).proxy, some ⟨p, c, p.handle c⟩) := by
  show (match (p.handle c).result with | .ok _ => _ | .error _ => _, _) = _
  rw [h]

theorem serve_step_error {p : Proxy} {c : Command} {e : PyError}
    (h : (p.handle c).result = .error e) :
    serve.step (some p) c = (none, some ⟨p, c, p.handle c⟩) := by
  show (match (p.handle c).result with | .ok _ => _ | .error _ => _, _) = _
  rw [h]

/-- A run that has ended stays ended. -/
theorem serve_ended (commands : List Command) : serve.run none commands = (none, []) := by
  induction commands with
  | nil => rfl
  | cons c commands ih =>
    rw [Reader.run_cons]
    show ((serve.run none commands).1, (serve.run none commands).2) = _
    rw [ih]

/-- **The proxy holds the last bearing it accepted**, and its profile for ever. -/
theorem run_bearing {profile : Profile} {rotator radio : Option String} {commands : List Command}
    {p : Proxy} (h : (serve.run (some (Proxy.init profile rotator radio)) commands).1 = some p) :
    p.profile = profile ∧ (p.azimuth, p.elevation) = lastBearing profile commands := by
  -- from any proxy with this profile: what it holds is what the fold holds
  have hgeneral : ∀ q : Proxy, q.profile = profile →
      (serve.run (some q) commands).1 = some p →
      p.profile = profile ∧ (p.azimuth, p.elevation)
        = commands.foldl (fun bearing c =>
          match orderOf profile c with
          | .bearing azimuth elevation => (azimuth, elevation)
          | _ => bearing) (q.azimuth, q.elevation) := by
    clear h
    induction commands with
    | nil =>
      intro q hq hrun
      obtain rfl := Option.some.inj hrun
      exact ⟨hq, rfl⟩
    | cons c commands ih =>
      intro q hq hrun
      rw [Reader.run_cons] at hrun
      cases hresult : (q.handle c).result with
      | error e =>
        rw [serve_step_error hresult, serve_ended] at hrun
        exact absurd hrun (by simp)
      | ok reply =>
        rw [serve_step_ok hresult] at hrun
        obtain ⟨hprofile, hazimuth, helevation⟩ :=
          take_proxy q c.port (orderOf q.profile c) c.exchange
        rw [← handle_eq] at hprofile hazimuth helevation
        obtain ⟨hp, hbearing⟩ := ih _ (hprofile.trans hq) hrun
        refine ⟨hp, ?_⟩
        rw [hbearing, List.foldl_cons, hazimuth, helevation, hq]
        cases orderOf profile c <;> rfl
  exact hgeneral _ rfl h

/-! ## §5. The profile's limits. -/

/-- **The daemon reads a bearing as the two numbers.** -/
theorem split_bearingText (azimuth elevation : Float) :
    split (bearingText azimuth elevation) = [['P'], reprFloat azimuth, reprFloat elevation] := by
  have hword : ∀ x, ∀ c ∈ reprFloat x, isSpace c = false := fun x c hc =>
    isSpace_of_isNumeral (reprFloat_numeral x c hc)
  show split (['P'] ++ ' ' :: (reprFloat azimuth ++ ' ' :: (reprFloat elevation ++ ['\n']))) = _
  rw [split_word (by simp) (List.all_iff_forall_prop.mp (by decide)) (by decide),
    split_word (reprFloat_ne_nil _) (hword _) (by decide),
    split_word (reprFloat_ne_nil _) (hword _) (by decide)]
  rfl

/-- The rotator's orders: a bearing is inside the limits, and none is a frequency. -/
theorem rotatorOrder_spec (profile : Profile) (line : Str) :
    (∀ azimuth elevation, rotatorOrder profile line = .bearing azimuth elevation →
        profile.enabled = true ∧ profile.allows azimuth elevation = true)
      ∧ ∀ hz, rotatorOrder profile line ≠ .frequency hz := by
  constructor
  · intro azimuth elevation h
    unfold rotatorOrder at h
    split at h
    · exact absurd h (by simp)
    · split at h
      · split at h
        · split at h
          · exact absurd h (by simp)
          · rename_i hallowed
            obtain ⟨rfl, rfl⟩ := Order.bearing.inj h
            simpa [not_or] using hallowed
        · exact absurd h (by simp)
      · repeat' split at h
        all_goals exact absurd h (by simp)
  · intro hz h
    unfold rotatorOrder at h
    repeat' split at h
    all_goals exact absurd h (by simp)

/-- The radio's orders: a frequency is the one held or the truncated one asked for, and none is
a bearing. -/
theorem radioOrder_spec (profile : Profile) (line : Str) :
    (∀ azimuth elevation, radioOrder profile line ≠ .bearing azimuth elevation)
      ∧ ∀ hz, radioOrder profile line = .frequency hz →
        profile.enabled = true
          ∧ (profile.policy = .hold ∧ hz = profile.frequencyHz
            ∨ profile.policy = .follow ∧ requestedHz (split line).tail = some (.ok hz)) := by
  constructor
  · intro azimuth elevation h
    unfold radioOrder at h
    repeat' split at h
    all_goals exact absurd h (by simp)
  · intro hz h
    unfold radioOrder at h
    cases hline : split line with
    | nil =>
      rw [hline] at h
      exact absurd h (by simp)
    | cons verb fields =>
      rw [hline] at h
      dsimp only at h
      split at h
      · split at h
        · exact absurd h (by simp)
        · exact absurd h (by simp)
        · exact absurd h (by simp)
        · rename_i asked hrequest
          split at h
          · exact absurd h (by simp)
          · rename_i hallowed
            obtain ⟨hpolicy, henabled⟩ := not_or.mp hallowed
            have hhz := Order.frequency.inj h
            refine ⟨by simpa using henabled, ?_⟩
            rw [List.tail_cons, hrequest]
            cases hp : profile.policy with
            | hold => exact .inl ⟨rfl, by rw [← hhz, if_pos hp]⟩
            | follow => exact .inr ⟨rfl, by rw [← hhz, if_neg (by rw [hp]; simp)]⟩
            | ignore => exact absurd hp hpolicy
      · repeat' split at h
        all_goals exact absurd h (by simp)

/-- The order of a bearing is inside the limits. -/
theorem orderOf_bearing {profile : Profile} {c : Command} {azimuth elevation : Float}
    (h : orderOf profile c = .bearing azimuth elevation) :
    profile.enabled = true ∧ profile.allows azimuth elevation = true := by
  unfold orderOf at h
  cases hport : c.port with
  | rotator =>
    rw [hport] at h
    exact (rotatorOrder_spec profile c.line).1 azimuth elevation h
  | radio =>
    rw [hport] at h
    exact absurd h ((radioOrder_spec profile c.line).1 azimuth elevation)

/-- The order of a frequency is the one held, or the truncated one asked for. -/
theorem orderOf_frequency {profile : Profile} {c : Command} {hz : Int}
    (h : orderOf profile c = .frequency hz) :
    profile.enabled = true
      ∧ (profile.policy = .hold ∧ hz = profile.frequencyHz
        ∨ profile.policy = .follow ∧ requestedHz (split c.line).tail = some (.ok hz)) := by
  unfold orderOf at h
  cases hport : c.port with
  | rotator =>
    rw [hport] at h
    exact absurd h ((rotatorOrder_spec profile c.line).2 hz)
  | radio =>
    rw [hport] at h
    exact (radioOrder_spec profile c.line).2 hz h

/-- A text that begins as a bearing does is one. -/
theorem text_bearing {o : Order} {text : Str} (h : o.text = some text) (hhead : text.head? = some 'P') :
    ∃ azimuth elevation, o = .bearing azimuth elevation
      ∧ text = bearingText azimuth elevation := by
  cases o with
  | bearing azimuth elevation => exact ⟨azimuth, elevation, rfl, (Option.some.inj h).symm⟩
  | answered _ | quit | raises _ => exact absurd h (by simp [Order.text])
  | position | stop | park | askFrequency =>
    obtain rfl := Option.some.inj h
    exact absurd hhead (by decide)
  | frequency hz =>
    obtain rfl := Option.some.inj h
    exact absurd hhead (by simp [frequencyText])

/-- A text that begins as a frequency does is one. -/
theorem text_frequency {o : Order} {text : Str} (h : o.text = some text)
    (hhead : text.head? = some 'F') : ∃ hz, o = .frequency hz ∧ text = frequencyText hz := by
  cases o with
  | frequency hz => exact ⟨hz, rfl, (Option.some.inj h).symm⟩
  | answered _ | quit | raises _ => exact absurd h (by simp [Order.text])
  | position | stop | park | askFrequency =>
    obtain rfl := Option.some.inj h
    exact absurd hhead (by decide)
  | bearing azimuth elevation =>
    obtain rfl := Option.some.inj h
    exact absurd hhead (by simp [bearingText])

/-- **The profile's limits hold on every run.**  After any lines on the two ports, whatever the
daemons and the network did, take any further line.  A bearing it sends is two numbers inside the
limits of an enabled profile; a frequency it sends is the one held or the truncated one asked for; and
unless a bearing is accepted, the one reported without a daemon stays the last accepted.  Every
profile is one that `__init__` builds. -/
theorem proxy_limits {profile : Profile} {rotator radio : Option String} {commands : List Command}
    {p : Proxy} (hp : (serve.run (some (Proxy.init profile rotator radio)) commands).1 = some p)
    (c : Command) :
    (c.port = .rotator → ∀ text ∈ (p.handle c).texts, text.head? = some 'P' →
        profile.enabled = true ∧ ∃ azimuth elevation,
          text = bearingText azimuth elevation
            ∧ split text = [['P'], reprFloat azimuth, reprFloat elevation]
            ∧ (profile.azimuth.1 ≤ azimuth ∧ azimuth ≤ profile.azimuth.2)
            ∧ (profile.elevation.1 ≤ elevation ∧ elevation ≤ profile.elevation.2)
            ∧ azimuth.isNaN = false ∧ elevation.isNaN = false)
      ∧ (c.port = .radio → ∀ text ∈ (p.handle c).texts, text.head? = some 'F' →
        profile.enabled = true ∧ profile.policy ≠ .ignore
          ∧ (profile.policy = .hold → text = frequencyText profile.frequencyHz)
          ∧ (profile.policy = .follow → ∃ hz,
            requestedHz (split c.line).tail = some (.ok hz) ∧ text = frequencyText hz))
      ∧ ((∀ azimuth elevation, orderOf profile c ≠ .bearing azimuth elevation) →
        (p.handle c).proxy.azimuth = p.azimuth ∧ (p.handle c).proxy.elevation = p.elevation)
      ∧ (orderOf profile c = .position → ∀ s, (p.handle c).forwarded = some s →
        s.result = .ok none →
          (p.handle c).result = .ok (some (positionText (lastBearing profile commands).1
            (lastBearing profile commands).2)))
      ∧ ∃ entry, Profile.init entry = .ok profile := by
  obtain ⟨hprofile, hbearing⟩ := run_bearing hp
  have htexts : ∀ text ∈ (p.handle c).texts, (orderOf profile c).text = some text := by
    rw [handle_eq, hprofile]
    exact texts_take p c.port (orderOf profile c) c.exchange
  refine ⟨fun _ text htext hhead => ?_, fun _ text htext hhead => ?_, fun hnot => ?_,
    fun hposition s hs hnone => ?_, profile.exists_entry⟩
  · obtain ⟨azimuth, elevation, horder, rfl⟩ := text_bearing (htexts text htext) hhead
    obtain ⟨henabled, hallows⟩ := orderOf_bearing horder
    obtain ⟨hazimuth, helevation⟩ := (profile.allows_iff azimuth elevation).mp hallows
    exact ⟨henabled, azimuth, elevation, rfl, split_bearingText azimuth elevation, hazimuth,
      helevation, (isNaN_of_le hazimuth.1).2, (isNaN_of_le helevation.1).2⟩
  · obtain ⟨hz, horder, rfl⟩ := text_frequency (htexts text htext) hhead
    obtain ⟨henabled, ⟨hpolicy, rfl⟩ | ⟨hpolicy, hrequest⟩⟩ := orderOf_frequency horder
    · exact ⟨henabled, by rw [hpolicy]; simp, fun _ => rfl, fun h => absurd (hpolicy ▸ h) (by simp)⟩
    · exact ⟨henabled, by rw [hpolicy]; simp, fun h => absurd (hpolicy ▸ h) (by simp),
        fun _ => ⟨hz, hrequest, rfl⟩⟩
  · obtain ⟨_, hazimuth, helevation⟩ := take_proxy p c.port (orderOf profile c) c.exchange
    rw [handle_eq, hprofile, hazimuth, helevation]
    cases horder : orderOf profile c with
    | bearing azimuth elevation => exact absurd horder (hnot azimuth elevation)
    | _ => exact ⟨rfl, rfl⟩
  · rw [handle_eq, hprofile, hposition] at hs ⊢
    rw [← hbearing]
    cases hport : c.port with
    | rotator =>
      rw [hport] at hs
      obtain rfl := Option.some.inj hs
      show overrideReply _ (p.rotator.send _ _).result = _
      rw [hnone]
      rfl
    | radio =>
      rw [hport] at hs
      obtain rfl := Option.some.inj hs
      show overrideReply _ (p.radio.send _ _).result = _
      rw [hnone]
      rfl

/-- A profile that tracks between two and eighty-eight degrees. -/
def trackingProfile : Profile :=
  ⟨"LUR-1", 60506, true, (0.0, 360.0), (2.0, 88.0), .follow, 0, by simp⟩

/-- A line on the rotator's port, with nobody behind the proxy. -/
def rotatorLine (line : String) : Command :=
  ⟨.rotator, line.toList, ⟨.osError, false, [], none, none⟩⟩

/-- A line on a port whose daemon answers `RPRT 0`. -/
def answeredLine (port : Port) (line : String) : Command :=
  ⟨port, line.toList, ⟨.connected, true, [0x52, 0x50, 0x52, 0x54, 0x20, 0x30, 0x0A], none, some 7⟩⟩

/-- The proxy of the profile before two daemons. -/
def daemons : Proxy := Proxy.init trackingProfile (some "localhost:4533") (some "localhost:4532")

/-- After a refused bearing: one inside the limits and a frequency are sent, and without a daemon
the bearing it began with is reported. -/
theorem proxy_limits_tracked :
    let bearing := answeredLine .rotator "P 10 45"
    let frequency := answeredLine .radio "F 145900000.7"
    (daemons.handle bearing).texts = ["P 10.0 45.0\n".toList]
      ∧ (∃ azimuth elevation, "P 10.0 45.0\n".toList = bearingText azimuth elevation
        ∧ (0.0 ≤ azimuth ∧ azimuth ≤ 360.0) ∧ (2.0 ≤ elevation ∧ elevation ≤ 88.0))
      ∧ (daemons.handle frequency).texts = ["F 145900000\n".toList]
      ∧ (∃ hz, requestedHz (split frequency.line).tail = some (.ok hz)
        ∧ "F 145900000\n".toList = frequencyText hz)
      ∧ ((Proxy.init trackingProfile none none).handle (rotatorLine "p")).result
        = .ok (some (positionText 0.0 0.0)) := by
  intro bearing frequency
  have hrefused : (serve.run (some daemons) [answeredLine .rotator "P 10 95"]).1 = some daemons := by
    rfl
  have halone : (serve.run (some (Proxy.init trackingProfile none none))
      [rotatorLine "P 10 95"]).1 = some (Proxy.init trackingProfile none none) := by
    rfl
  have hbearing : (daemons.handle bearing).texts = ["P 10.0 45.0\n".toList] := by
    decide +kernel
  have hfrequency : (daemons.handle frequency).texts = ["F 145900000\n".toList] := by
    decide +kernel
  obtain ⟨-, azimuth, elevation, htext, -, hazimuth, helevation, -⟩ :=
    (proxy_limits hrefused bearing).1 rfl _ (hbearing ▸ List.mem_singleton_self _) rfl
  obtain ⟨-, -, -, hfollow⟩ :=
    (proxy_limits hrefused frequency).2.1 rfl _ (hfrequency ▸ List.mem_singleton_self _) rfl
  exact ⟨hbearing, ⟨azimuth, elevation, htext, hazimuth, helevation⟩, hfrequency, hfollow rfl,
    (proxy_limits halone (rotatorLine "p")).2.2.2.1 rfl _ rfl rfl⟩

end KFsw.Ground
