/-
  KFsw.Ground.ProxyErrors — lines that `tools/ground/gpredict-proxy.py` cannot
  use: numbers that are unreadable, infinite or not a number.

  A handler catches the `ValueError` of a number it cannot read.  `int(float(text))`
  raises `OverflowError` for an infinity, which nothing catches, and `serve` is
  one loop for both ports.

  Main results:
    * `orderOf_raises_iff`    — which lines raise;
    * `orderOf_unusable`      — every other line with such a number is refused;
    * `handle_withstands_iff` — a line is withstood exactly when its frequency is
      not infinite, and a run of such lines never stops.
-/
import KFsw.Ground.Proxy

namespace KFsw.Ground

open KFsw.Lib

/-! ## §1. What is asked of a handler. -/

/-- An absent upstream, or one whose endpoint is a host and a port: connecting to it raises
nothing but `OSError`. -/
def Upstream.WellFormed (u : Upstream) (x : Exchange) : Prop :=
  u.endpoint = none ∨ ∀ e, x.attempt ≠ .raises e

/-- A text that is no finite number. -/
def Unusable (field : Str) : Prop := ∀ x, float field = some x → x.isFinite = false

/-- A "P" line or an "F" line with a number that cannot be used, or without one. -/
def UnusableLine (line : Str) : Prop :=
  ∃ fields, (split line = ['P'] :: fields
      ∧ (Unusable (fields.getD 0 []) ∨ Unusable (fields.getD 1 [])))
    ∨ (split line = ['F'] :: fields ∧ Unusable (fields.getD 0 []))

def Profile.FiniteLimits (p : Profile) : Prop :=
  (p.azimuth.1.isFinite = true ∧ p.azimuth.2.isFinite = true)
    ∧ p.elevation.1.isFinite = true ∧ p.elevation.2.isFinite = true

/-- The handler returns a reply text or none; and under finite limits it refuses a line whose
number cannot be used, and forwards nothing for it. -/
def Proxy.Withstands (p : Proxy) (c : Command) : Prop :=
  (∃ reply, (p.handle c).result = .ok reply)
    ∧ (p.profile.FiniteLimits → UnusableLine c.line →
      (p.handle c).result = .ok (some RPRT_REFUSED) ∧ (p.handle c).forwarded = none)

/-- An "F" line on the radio's port whose number is an infinity. -/
def InfiniteFrequency (port : Port) (line : Str) : Prop :=
  port = .radio ∧ ∃ fields x,
    split line = ['F'] :: fields ∧ float (fields.getD 0 []) = some x ∧ x.isInf = true

/-! ## §2. `int(float(text))`. -/

/-- An infinity raises what is not caught, a nan what is, and a finite number neither. -/
theorem intOfFloat_spec (x : Float) :
    (x.isInf = true ∧ x.isFinite = false
        ∧ ∃ text, intOfFloat x = .error (.overflowError text))
      ∨ (x.isInf = false ∧ x.isFinite = false ∧ ∃ text, intOfFloat x = .error (.valueError text))
      ∨ (x.isInf = false ∧ x.isFinite = true ∧ ∃ n, intOfFloat x = .ok n) := by
  unfold intOfFloat
  obtain ⟨hinf, hfin, _, hvalue⟩ | ⟨hinf, hfin, hvalue⟩ | ⟨hinf, hfin, _, _, _, hvalue⟩ :=
    floatValue_kind x
  · rw [hvalue]
    exact .inl ⟨hinf, hfin, _, rfl⟩
  · rw [hvalue]
    exact .inr (.inl ⟨hinf, hfin, _, rfl⟩)
  · rw [hvalue]
    exact .inr (.inr ⟨hinf, hfin, _, rfl⟩)

/-! ## §3. The order of such a line. -/

/-- The empty text is no number. -/
theorem float_nil : float [] = none := by decide +kernel

/-- **An "F" line of the radio's port**, by its number. -/
theorem radioOrder_number {profile : Profile} {line : Str} {fields : List Str}
    (h : split line = ['F'] :: fields) :
    (float (fields.getD 0 []) = none → radioOrder profile line = .answered RPRT_REFUSED)
      ∧ ∀ x, float (fields.getD 0 []) = some x →
        (x.isInf = true → ∃ e, radioOrder profile line = .raises e)
          ∧ (x.isInf = false → x.isFinite = false →
            radioOrder profile line = .answered RPRT_REFUSED)
          ∧ (x.isFinite = true → ∀ e, radioOrder profile line ≠ .raises e) := by
  have hfields : ∀ x, float (fields.getD 0 []) = some x → 1 ≤ fields.length := by
    intro x hx
    cases fields with
    | nil => exact absurd hx (by rw [List.getD_nil, float_nil]; simp)
    | cons field rest => exact Nat.succ_pos _
  unfold radioOrder requestedHz
  rw [h]
  dsimp only
  constructor
  · intro hnone
    rw [hnone]
    split
    · rfl
    · rfl
  · intro x hx
    rw [if_pos ⟨rfl, hfields x hx⟩, hx, Option.map_some]
    obtain ⟨hinf, hfin, text, hint⟩ | ⟨hinf, hfin, text, hint⟩ | ⟨hinf, hfin, n, hint⟩ :=
      intOfFloat_spec x
    · rw [hint]
      exact ⟨fun _ => ⟨_, rfl⟩, fun h => absurd h (by rw [hinf]; simp),
        fun h => absurd h (by rw [hfin]; simp)⟩
    · rw [hint]
      exact ⟨fun h => absurd h (by rw [hinf]; simp), fun _ _ => rfl,
        fun h => absurd h (by rw [hfin]; simp)⟩
    · rw [hint]
      refine ⟨fun h => absurd h (by rw [hinf]; simp), fun _ h => absurd h (by rw [hfin]; simp),
        fun _ e => ?_⟩
      dsimp only
      split
      · simp
      · simp

/-- No line of the rotator's port raises. -/
theorem rotatorOrder_ne_raises (profile : Profile) (line : Str) (e : PyError) :
    rotatorOrder profile line ≠ .raises e := by
  intro h
  unfold rotatorOrder at h
  repeat' split at h
  all_goals exact absurd h (by simp)

/-- Nor does one of the radio's port that asks for no frequency. -/
theorem radioOrder_ne_raises (profile : Profile) {line : Str}
    (hline : ∀ fields, split line ≠ ['F'] :: fields) (e : PyError) :
    radioOrder profile line ≠ .raises e := by
  intro h
  unfold radioOrder at h
  cases hsplit : split line with
  | nil =>
    rw [hsplit] at h
    exact absurd h (by simp)
  | cons verb fields =>
    rw [hsplit] at h
    dsimp only at h
    rw [if_neg (by rintro ⟨rfl, _⟩; exact hline fields hsplit)] at h
    repeat' split at h
    all_goals exact absurd h (by simp)

/-- **Which lines raise**: those that ask for an infinite frequency. -/
theorem orderOf_raises_iff (profile : Profile) (c : Command) :
    (∃ e, orderOf profile c = .raises e) ↔ InfiniteFrequency c.port c.line := by
  unfold orderOf InfiniteFrequency
  cases c.port with
  | rotator =>
    constructor
    · rintro ⟨e, h⟩
      exact absurd h (rotatorOrder_ne_raises profile c.line e)
    · rintro ⟨h, _⟩
      exact absurd h (by simp)
  | radio =>
    constructor
    · rintro ⟨e, h⟩
      by_cases hline : ∃ fields, split c.line = ['F'] :: fields
      · obtain ⟨fields, hline⟩ := hline
        obtain ⟨hnone, hsome⟩ := @radioOrder_number profile _ _ hline
        refine ⟨rfl, fields, ?_⟩
        cases hnumber : float (fields.getD 0 []) with
        | none => exact absurd h (by rw [hnone hnumber]; simp)
        | some x =>
          obtain ⟨_, hrefused, hfinite⟩ := hsome x hnumber
          refine ⟨x, hline, rfl, ?_⟩
          by_contra hinf
          rw [Bool.not_eq_true] at hinf
          cases hfin : x.isFinite with
          | true => exact hfinite hfin e h
          | false => exact absurd h (by rw [hrefused hinf hfin]; simp)
      · exact absurd h (radioOrder_ne_raises profile (not_exists.mp hline) e)
    · rintro ⟨_, fields, x, hline, hnumber, hinf⟩
      exact ((radioOrder_number hline).2 x hnumber).1 hinf

/-- A line of the rotator's port whose number cannot be used. -/
theorem rotatorOrder_unusable {profile : Profile} (hp : profile.FiniteLimits) {line : Str}
    (h : UnusableLine line) : rotatorOrder profile line = .answered RPRT_REFUSED := by
  obtain ⟨fields, ⟨hline, hnumber⟩ | ⟨hline, _⟩⟩ := h
  · unfold rotatorOrder
    rw [hline]
    dsimp only
    split
    · split
      · rename_i azimuth elevation hazimuth helevation
        have hrefused : profile.allows azimuth elevation = false := by
          -- what the limits allow is finite
          by_contra hallowed
          rw [Bool.not_eq_false, profile.allows_iff] at hallowed
          obtain ⟨⟨hazimuth₁, hazimuth₂⟩, helevation₁, helevation₂⟩ := hallowed
          obtain ⟨⟨hp₁, hp₂⟩, hp₃, hp₄⟩ := hp
          rcases hnumber with hnumber | hnumber
          · have hfinite := isFinite_of_between hp₁ hp₂ hazimuth₁ hazimuth₂
            exact absurd hfinite (by rw [hnumber azimuth hazimuth]; simp)
          · have hfinite := isFinite_of_between hp₃ hp₄ helevation₁ helevation₂
            exact absurd hfinite (by rw [hnumber elevation helevation]; simp)
        rw [if_pos (.inr hrefused)]
      · rfl
    · rfl
  · unfold rotatorOrder
    rw [hline]
    rfl

/-- One of the radio's port, unless its frequency is infinite. -/
theorem radioOrder_unusable (profile : Profile) {line : Str} (h : UnusableLine line)
    (hfinite : ∀ fields x, split line = ['F'] :: fields → float (fields.getD 0 []) = some x →
      x.isInf = false) : radioOrder profile line = .answered RPRT_REFUSED := by
  obtain ⟨fields, ⟨hline, _⟩ | ⟨hline, hnumber⟩⟩ := h
  · unfold radioOrder
    rw [hline]
    rfl
  · obtain ⟨hnone, hsome⟩ := @radioOrder_number profile _ _ hline
    cases hvalue : float (fields.getD 0 []) with
    | none => exact hnone hvalue
    | some x => exact (hsome x hvalue).2.1 (hfinite fields x hline hvalue) (hnumber x hvalue)

/-- **Every other line with such a number is refused.** -/
theorem orderOf_unusable {profile : Profile} (hp : profile.FiniteLimits) {c : Command}
    (h : UnusableLine c.line) (hc : ¬ InfiniteFrequency c.port c.line) :
    orderOf profile c = .answered RPRT_REFUSED := by
  unfold orderOf
  cases hport : c.port with
  | rotator => exact rotatorOrder_unusable hp h
  | radio =>
    refine radioOrder_unusable profile h fun fields x hline hnumber => ?_
    by_contra hinf
    exact hc ⟨hport, fields, x, hline, hnumber, by simpa using hinf⟩

/-! ## §4. The handlers. -/

/-- A well-formed upstream raises nothing. -/
theorem send_ok {u : Upstream} {x : Exchange} (h : u.WellFormed x) (text : Str) :
    ∃ reply, (u.send text x).result = .ok reply := by
  have hconnect : ∃ s, u.connect x.attempt = .ok s := by
    unfold Upstream.connect
    rcases h with h | h
    · rw [h]
      exact ⟨_, rfl⟩
    · split
      · exact ⟨_, rfl⟩
      · exact ⟨_, rfl⟩
      · cases hattempt : x.attempt with
        | connected => exact ⟨_, rfl⟩
        | osError => exact ⟨_, rfl⟩
        | raises e => exact absurd hattempt (h e)
  obtain ⟨s, hs⟩ := hconnect
  unfold Upstream.send
  rw [hs]
  cases s with
  | none => exact ⟨_, rfl⟩
  | some c =>
    dsimp only
    split
    · exact ⟨_, rfl⟩
    · split <;> exact ⟨_, rfl⟩

/-- An order is answered, unless it is one that raises. -/
theorem take_ok {p : Proxy} {port : Port} {o : Order} {x : Exchange}
    (hu : (p.upstream port).WellFormed x) (ho : ∀ e, o ≠ .raises e) :
    ∃ reply, (p.take port o x).result = .ok reply := by
  have hanswer : ∃ reply, p.answer o = .ok reply := by
    cases o with
    | raises e => exact absurd rfl (ho e)
    | _ => exact ⟨_, rfl⟩
  obtain ⟨answer, hanswer⟩ := hanswer
  cases htext : o.text with
  | none =>
    rw [take_local p port htext]
    exact ⟨answer, hanswer⟩
  | some text =>
    rw [(take_forwarded p port htext x).2.1]
    obtain ⟨reply, hreply⟩ := send_ok hu text
    rw [hreply]
    cases reply with
    | none => exact ⟨answer, hanswer⟩
    | some reply => exact ⟨some reply, rfl⟩

/-- A line is withstood exactly when it asks for no infinite frequency. -/
theorem withstands_iff (p : Proxy) (c : Command)
    (hu : (p.upstream c.port).WellFormed c.exchange) :
    p.Withstands c ↔ ¬ InfiniteFrequency c.port c.line := by
  constructor
  · rintro ⟨⟨reply, hreply⟩, _⟩ hinf
    obtain ⟨e, he⟩ := (orderOf_raises_iff p.profile c).mpr hinf
    rw [handle_eq, he] at hreply
    exact absurd hreply (by simp [Proxy.take, Order.text, Proxy.answer])
  · intro hc
    refine ⟨?_, fun hp hline => ?_⟩
    · rw [handle_eq]
      exact take_ok hu fun e he => hc ((orderOf_raises_iff p.profile c).mp ⟨e, he⟩)
    · rw [handle_eq, orderOf_unusable hp hline hc]
      exact ⟨rfl, rfl⟩

/-! ## §5. Runs. -/

theorem send_endpoint (u : Upstream) (text : Str) (x : Exchange) :
    (u.send text x).upstream.endpoint = u.endpoint := by
  unfold Upstream.send
  split
  · rfl
  · rfl
  · dsimp only
    split
    · rfl
    · split <;> rfl

/-- The endpoints stay. -/
theorem take_endpoint (p : Proxy) (port q : Port) (o : Order) (x : Exchange) :
    ((p.take port o x).proxy.upstream q).endpoint = (p.upstream q).endpoint := by
  cases htext : o.text with
  | none => rw [take_local p port htext]
  | some text =>
    rw [(take_forwarded p port htext x).2.2 q]
    split
    · rename_i hq
      rw [send_endpoint, hq]
    · rfl

/-- A handler leaves the endpoints alone. -/
theorem handle_endpoint (p : Proxy) (c : Command) (q : Port) :
    ((p.handle c).proxy.upstream q).endpoint = (p.upstream q).endpoint := by
  rw [handle_eq]
  exact take_endpoint p c.port q (orderOf p.profile c) c.exchange

/-- The endpoints after a run are those before it. -/
theorem serve_run_endpoint {p q : Proxy} {commands : List Command}
    (h : (serve.run (some p) commands).1 = some q) (port : Port) :
    (q.upstream port).endpoint = (p.upstream port).endpoint := by
  induction commands generalizing p with
  | nil => rw [Option.some.inj h]
  | cons c commands ih =>
    rw [Reader.run_cons] at h
    cases hresult : (p.handle c).result with
    | error e =>
      rw [serve_step_error hresult, serve_ended] at h
      exact absurd h (by simp)
    | ok reply =>
      rw [serve_step_ok hresult] at h
      rw [ih h, handle_endpoint]

/-- A run of lines without an infinite frequency never stops, when the upstreams are absent or
well formed. -/
theorem serve_withstands {p : Proxy} {commands : List Command}
    (hu : ∀ c ∈ commands, (p.upstream c.port).WellFormed c.exchange)
    (hc : ∀ c ∈ commands, ¬ InfiniteFrequency c.port c.line) :
    ∃ q, (serve.run (some p) commands).1 = some q := by
  induction commands generalizing p with
  | nil => exact ⟨p, rfl⟩
  | cons c commands ih =>
    obtain ⟨⟨reply, hreply⟩, _⟩ :=
      (withstands_iff p c (hu c List.mem_cons_self)).mpr (hc c List.mem_cons_self)
    rw [Reader.run_cons, serve_step_ok hreply]
    refine ih (fun d hd => ?_) fun d hd => hc d (List.mem_cons_of_mem c hd)
    unfold Upstream.WellFormed
    rw [handle_endpoint]
    exact hu d (List.mem_cons_of_mem c hd)

/-- **A line is withstood exactly when it asks for no infinite frequency**, whatever the profile,
the line and what the network does; and a run of such lines never stops. -/
theorem handle_withstands_iff (p : Proxy) (c : Command)
    (hu : (p.upstream c.port).WellFormed c.exchange) :
    (p.Withstands c ↔ ¬ InfiniteFrequency c.port c.line)
      ∧ ∀ commands : List Command,
        (∀ d ∈ commands, (p.upstream d.port).WellFormed d.exchange
          ∧ ¬ InfiniteFrequency d.port d.line) →
        ∃ q, (serve.run (some p) commands).1 = some q :=
  ⟨withstands_iff p c hu,
    fun _ hall => serve_withstands (fun d hd => (hall d hd).1) fun d hd => (hall d hd).2⟩

/-- A line on the radio's port, with nobody behind the proxy. -/
def radioLine (line : String) : Command :=
  ⟨.radio, line.toList, ⟨.connected, true, [], none, some 1⟩⟩

theorem handle_withstands_iff_follow :
    (Proxy.init trackingProfile none none).Withstands (radioLine "F 437050000") := by
  refine (handle_withstands_iff _ _ (.inl rfl)).1.mpr ?_
  rintro ⟨_, fields, x, hline, hnumber, hinf⟩
  have hsplit : split "F 437050000".toList = [['F'], "437050000".toList] := by decide +kernel
  obtain ⟨_, rfl⟩ := List.cons_eq_cons.mp (hsplit.symm.trans hline)
  have hfloat : (float "437050000".toList).all (fun x => x.isInf = false) = true := by
    decide +kernel
  have hnumber : float "437050000".toList = some x := hnumber
  rw [hnumber] at hfloat
  exact absurd hinf (by simpa using hfloat)

/-- **An infinite frequency** raises and ends the run, without any upstream. -/
theorem handle_raises :
    ((Proxy.init trackingProfile none none).upstream .radio).WellFormed (radioLine "F inf").exchange
      ∧ ¬ (Proxy.init trackingProfile none none).Withstands (radioLine "F inf")
      ∧ (serve.run (some (Proxy.init trackingProfile none none)) [radioLine "F inf"]).1 = none := by
  have hraises : ((Proxy.init trackingProfile none none).handle (radioLine "F inf")).result
      = .error (.overflowError "cannot convert float infinity to integer") := by rfl
  refine ⟨.inl rfl, ?_, ?_⟩
  · rintro ⟨⟨reply, hreply⟩, _⟩
    exact absurd (hraises.symm.trans hreply) (by simp)
  · rw [Reader.run_cons, serve_step_error hraises]
    rfl

end KFsw.Ground
