/-
  KFsw.Ground.Kiss — KISS framing of the ground link: `kiss_encode` and the
  byte-wise `KissReader` of `tools/ground/hk-bridge.py`.

  `feedByte` is one turn of the loop in `KissReader.feed`.  It is a delimited
  reader (`Reader.Delimited`) with FEND as its delimiter, so what it returns is
  determined by the bytes between two FENDs: `segmentFrame` says which frame
  such a segment carries, in terms of the bytes alone, and `collected_body`
  proves that the reader holds exactly that frame when the segment ends.

  Main results:
    * `unescape_escape`    — the escaping of `kiss_encode` is undone;
    * `collected_body`     — the four pieces of reader state, after a segment,
      hold the frame the segment carries and nothing else;
    * `feed_kissEncode`    — from any state, an encoded frame is returned once;
    * `kissReader_resync`  — a list of encoded frames, cut into any chunks and
      fed after any earlier input, comes back in order;
    * `kissReader_exact`   — of an arbitrary stream, exactly the well-formed
      segments between two FENDs come back, and the buffer stays bounded.
-/
import KFsw.Ground.Sample
import KFsw.Lib.Framing

namespace KFsw.Ground

open KFsw.Lib

/-! ## §1. The encoder. -/

def FEND : UInt8 := 0xC0
def FESC : UInt8 := 0xDB
def TFEND : UInt8 := 0xDC
def TFESC : UInt8 := 0xDD
def TNC_DATA : UInt8 := 0x00

/-- What the loop of `kiss_encode` appends for one byte. -/
def escapeByte (byte : UInt8) : Bytes :=
  if byte = FEND then [FESC, TFEND]
  else if byte = FESC then [FESC, TFESC]
  else [byte]

def kissEncode (frame : Bytes) : Bytes :=
  frame.foldl (fun out byte => out ++ escapeByte byte) [FEND, TNC_DATA] ++ [FEND]

/-! ## §2. The reader. -/

/-- The four pieces of state of `KissReader`. -/
structure KissReader where
  frame : Bytes
  started : Bool
  escaped : Bool
  skipTypeByte : Bool
  deriving DecidableEq, Repr

/-- `KissReader.__init__`. -/
def KissReader.init : KissReader :=
  { frame := [], started := false, escaped := false, skipTypeByte := false }

/-- The longest frame the reader keeps. -/
def frameMax (v : CspVersion) : Nat := cspHeaderBytes v + HK_SAMPLE_MAX + 8

/-- The check at the end of the loop body: an oversize frame is discarded up to FEND. -/
def KissReader.boundFrame (v : CspVersion) (r : KissReader) : KissReader :=
  if r.frame.length > frameMax v then { r with started := false, frame := [] } else r

/-- The frame FEND completes. -/
def KissReader.collected (r : KissReader) : Option Bytes :=
  if r.started ∧ r.frame ≠ [] ∧ ¬ r.escaped then some r.frame else none

/-- One turn of the loop of `KissReader.feed`. -/
def feedByte (v : CspVersion) (r : KissReader) (byte : UInt8) : KissReader × Option Bytes :=
  -- FEND ends one frame and begins the next
  if byte = FEND then
    ({ frame := [], started := true, escaped := false, skipTypeByte := true }, r.collected)
  else if ¬ r.started then
    (r, none)
    -- the first byte of a frame says what it holds
  else if r.skipTypeByte then
    ({ r with skipTypeByte := false, started := byte == TNC_DATA }, none)
  else if r.escaped then
    if byte ≠ TFEND ∧ byte ≠ TFESC then
      -- `continue`: the damaged frame is dropped, the escape flag stays until FEND
      ({ r with started := false, frame := [] }, none)
    else
      (KissReader.boundFrame v
        { r with frame := r.frame ++ [if byte = TFEND then FEND else FESC], escaped := false },
       none)
  else if byte = FESC then
    (KissReader.boundFrame v { r with escaped := true }, none)
  else
    (KissReader.boundFrame v { r with frame := r.frame ++ [byte] }, none)

/-- `KissReader` as a reader of single bytes. -/
def kissReader (v : CspVersion) : Reader KissReader UInt8 Bytes := ⟨feedByte v⟩

/-- `KissReader.feed`: the state left and the frames returned. -/
def feed (v : CspVersion) (r : KissReader) (data : Bytes) : KissReader × List Bytes :=
  (kissReader v).run r data

/-- Successive calls of `feed`, each with its own list of frames. -/
def feedChunks (v : CspVersion) (r : KissReader) (chunks : List Bytes) :
    KissReader × List (List Bytes) :=
  (kissReader v).runChunks r chunks

/-- The frames of successive calls are those of one call with all the bytes. -/
theorem feedChunks_flatten (v : CspVersion) (r : KissReader) (chunks : List Bytes) :
    (feedChunks v r chunks).2.flatten = (feed v r chunks.flatten).2 :=
  congrArg Prod.snd ((kissReader v).runChunks_flatten r chunks)

/-- The state right after FEND. -/
def KissReader.opened : KissReader :=
  { frame := [], started := true, escaped := false, skipTypeByte := true }

/-- FEND is the only byte that returns a frame, and it always leads to one state. -/
def kissDelimited (v : CspVersion) : (kissReader v).Delimited FEND where
  opened := KissReader.opened
  close := KissReader.collected
  onDelim := fun r => by
    show feedByte v r FEND = _
    rw [feedByte, if_pos rfl]
    rfl
  quiet := fun r byte hb => by
    show (feedByte v r byte).2 = none
    unfold feedByte
    rw [if_neg hb]
    repeat' split
    all_goals rfl

/-! ## §3. What a segment carries, from its bytes alone. -/

/-- Undo the escaping; `none` when FESC stands before anything but TFEND or TFESC. -/
def unescape : Bytes → Option Bytes
  | [] => some []
  | byte :: rest =>
    if byte = FESC then
      match rest with
      | [] => none
      | code :: rest' =>
        if code = TFEND then (unescape rest').map (FEND :: ·)
        else if code = TFESC then (unescape rest').map (FESC :: ·)
        else none
    else (unescape rest).map (byte :: ·)

theorem unescape_fesc (code : UInt8) (rest : Bytes) :
    unescape (FESC :: code :: rest)
      = if code = TFEND then (unescape rest).map (FEND :: ·)
        else if code = TFESC then (unescape rest).map (FESC :: ·)
        else none := by
  rw [unescape, if_pos rfl]

theorem unescape_plain (byte : UInt8) (rest : Bytes) (h : byte ≠ FESC) :
    unescape (byte :: rest) = (unescape rest).map (byte :: ·) := by
  rw [unescape.eq_def]
  dsimp only
  rw [if_neg h]

/-- A frame is kept when it is not empty and not oversize. -/
def sizedFrame (v : CspVersion) (f : Bytes) : Option Bytes :=
  if f ≠ [] ∧ f.length ≤ frameMax v then some f else none

/-- **The frame a segment between two FENDs carries**: a data type byte, then the escaped
bytes of a frame within the bound. -/
def segmentFrame (v : CspVersion) : Bytes → Option Bytes
  | [] => none
  | type :: rest => if type = TNC_DATA then (unescape rest).bind (sizedFrame v) else none

/-- The escaped bytes of a frame. -/
def escape (frame : Bytes) : Bytes := frame.flatMap escapeByte

theorem kissEncode_eq (frame : Bytes) :
    kissEncode frame = FEND :: (TNC_DATA :: escape frame ++ [FEND]) := by
  have hfold : ∀ (bytes out : Bytes),
      bytes.foldl (fun out byte => out ++ escapeByte byte) out = out ++ escape bytes := by
    intro bytes
    induction bytes with
    | nil => intro out; simp [escape]
    | cons byte bytes ih =>
      intro out
      rw [List.foldl_cons, ih, escape, escape, List.flatMap_cons, List.append_assoc]
  rw [kissEncode, hfold]
  rfl

theorem fend_notMem_escape (frame : Bytes) : FEND ∉ escape frame := by
  intro h
  obtain ⟨byte, _, hbyte⟩ := List.mem_flatMap.mp h
  unfold escapeByte at hbyte
  split at hbyte
  · exact absurd hbyte (by decide)
  · rename_i hne
    split at hbyte
    · exact absurd hbyte (by decide)
    · exact hne (List.mem_singleton.mp hbyte).symm

theorem escape_cons (byte : UInt8) (frame : Bytes) :
    escape (byte :: frame) = escapeByte byte ++ escape frame := by
  rw [escape, List.flatMap_cons, ← escape]

/-- **The escaping is undone.** -/
theorem unescape_escape (frame : Bytes) : unescape (escape frame) = some frame := by
  induction frame with
  | nil => rfl
  | cons byte frame ih =>
    rw [escape_cons]
    unfold escapeByte
    by_cases h1 : byte = FEND
    · rw [if_pos h1]
      show unescape (FESC :: TFEND :: escape frame) = _
      rw [unescape_fesc, if_pos rfl, ih, h1]
      rfl
    · rw [if_neg h1]
      by_cases h2 : byte = FESC
      · rw [if_pos h2]
        show unescape (FESC :: TFESC :: escape frame) = _
        rw [unescape_fesc, if_neg (by decide), if_pos rfl, ih, h2]
        rfl
      · rw [if_neg h2]
        show unescape (byte :: escape frame) = _
        rw [unescape_plain byte _ h2, ih]
        rfl

/-! ## §4. The reader holds what the segment carries. -/

/-- A reader that has not started ignores everything up to FEND. -/
theorem body_notStarted (v : CspVersion) (r : KissReader) (seg : Bytes)
    (hr : r.started = false) (h : FEND ∉ seg) : (kissReader v).body r seg = r := by
  induction seg with
  | nil => rfl
  | cons byte seg ih =>
    have hb : byte ≠ FEND := fun e => h (by simp [e])
    have hstep : (kissReader v).step r byte = (r, none) := by
      show feedByte v r byte = _
      rw [feedByte, if_neg hb, if_pos (by simp [hr])]
    rw [Reader.body_cons, hstep]
    exact ih fun e => h (List.mem_cons_of_mem byte e)

theorem collected_notStarted (r : KissReader) (hr : r.started = false) : r.collected = none := by
  rw [KissReader.collected, if_neg (by simp [hr])]

/-- The reader while it collects: started, past the type byte. -/
def collecting (acc : Bytes) (escaped : Bool) : KissReader :=
  { frame := acc, started := true, escaped := escaped, skipTypeByte := false }

theorem boundFrame_over (v : CspVersion) (acc : Bytes) (escaped : Bool)
    (h : acc.length > frameMax v) :
    KissReader.boundFrame v (collecting acc escaped)
      = { collecting acc escaped with started := false, frame := [] } :=
  if_pos h

theorem boundFrame_within (v : CspVersion) (acc : Bytes) (escaped : Bool)
    (h : ¬ acc.length > frameMax v) :
    KissReader.boundFrame v (collecting acc escaped) = collecting acc escaped :=
  if_neg h

/-- FESC begins an escape. -/
theorem step_escape (v : CspVersion) {acc : Bytes} (hacc : acc.length ≤ frameMax v) :
    ((kissReader v).step (collecting acc false) FESC).1 = collecting acc true := by
  show (feedByte v (collecting acc false) FESC).1 = _
  rw [feedByte, if_neg (by decide), if_neg (by simp [collecting]), if_neg (by simp [collecting]),
    if_neg (by simp [collecting]), if_pos rfl]
  exact boundFrame_within v acc true (Nat.not_lt.mpr hacc)

/-- A byte of the frame is kept, within the bound. -/
theorem step_plain (v : CspVersion) (acc : Bytes) {byte : UInt8} (hb : byte ≠ FEND)
    (hesc : byte ≠ FESC) :
    ((kissReader v).step (collecting acc false) byte).1
      = KissReader.boundFrame v (collecting (acc ++ [byte]) false) := by
  show (feedByte v (collecting acc false) byte).1 = _
  rw [feedByte, if_neg hb, if_neg (by simp [collecting]), if_neg (by simp [collecting]),
    if_neg (by simp [collecting]), if_neg hesc]
  rfl

/-- An escape ends in the byte it stands for. -/
theorem step_code (v : CspVersion) (acc : Bytes) {code : UInt8} (hc : code ≠ FEND)
    (hcode : ¬ (code ≠ TFEND ∧ code ≠ TFESC)) :
    ((kissReader v).step (collecting acc true) code).1
      = KissReader.boundFrame v
          (collecting (acc ++ [if code = TFEND then FEND else FESC]) false) := by
  show (feedByte v (collecting acc true) code).1 = _
  rw [feedByte, if_neg hc, if_neg (by simp [collecting]), if_neg (by simp [collecting]),
    if_pos (by simp [collecting]), if_neg hcode]
  rfl

/-- A damaged escape loses the frame. -/
theorem step_damaged (v : CspVersion) (acc : Bytes) {code : UInt8} (hc : code ≠ FEND)
    (hbad : code ≠ TFEND ∧ code ≠ TFESC) :
    ((kissReader v).step (collecting acc true) code).1
      = { collecting acc true with started := false, frame := [] } := by
  show (feedByte v (collecting acc true) code).1 = _
  rw [feedByte, if_neg hc, if_neg (by simp [collecting]), if_neg (by simp [collecting]),
    if_pos (by simp [collecting]), if_pos hbad]

/-- A frame that already is over the bound is lost whatever follows. -/
theorem bind_sizedFrame_oversize (v : CspVersion) (acc : Bytes) (rest : Option Bytes)
    (h : acc.length > frameMax v) : rest.bind (fun f => sizedFrame v (acc ++ f)) = none := by
  cases rest with
  | none => rfl
  | some f =>
    show sizedFrame v (acc ++ f) = none
    rw [sizedFrame, if_neg]
    intro hsized
    obtain ⟨_, hle⟩ := hsized
    rw [List.length_append] at hle
    omega

/-- One more byte of the frame, when the rest is collected as it should be. -/
theorem collected_push (v : CspVersion) (acc : Bytes) (byte : UInt8) {tail : Bytes}
    (htail : FEND ∉ tail)
    (hrest : (acc ++ [byte]).length ≤ frameMax v →
      ((kissReader v).body (collecting (acc ++ [byte]) false) tail).collected
        = (unescape tail).bind (fun f => sizedFrame v ((acc ++ [byte]) ++ f))) :
    ((kissReader v).body
        (KissReader.boundFrame v (collecting (acc ++ [byte]) false)) tail).collected
      = ((unescape tail).map (byte :: ·)).bind (fun f => sizedFrame v (acc ++ f)) := by
  have hmap : ((unescape tail).map (byte :: ·)).bind (fun f => sizedFrame v (acc ++ f))
      = (unescape tail).bind (fun f => sizedFrame v ((acc ++ [byte]) ++ f)) := by
    cases unescape tail with
    | none => rfl
    | some f => simp [List.append_assoc]
  rw [hmap]
  by_cases hbig : (acc ++ [byte]).length > frameMax v
  · rw [bind_sizedFrame_oversize v _ _ hbig, boundFrame_over v _ _ hbig,
      body_notStarted v _ tail rfl htail]
    exact collected_notStarted _ rfl
  · rw [boundFrame_within v _ _ hbig]
    exact hrest (Nat.not_lt.mp hbig)

/-- The bytes after the type byte: what was collected, then what they unescape to, within
the bound. -/
theorem collected_collecting (v : CspVersion) (rest acc : Bytes) (h : FEND ∉ rest)
    (hacc : acc.length ≤ frameMax v) :
    ((kissReader v).body (collecting acc false) rest).collected
      = (unescape rest).bind (fun f => sizedFrame v (acc ++ f)) := by
  -- by length, since an escape takes two bytes at a time
  induction hn : rest.length using Nat.strong_induction_on generalizing rest acc with
  | _ n ih =>
    have hpush : ∀ (byte : UInt8) (tail : Bytes), tail.length < n → FEND ∉ tail →
        ((kissReader v).body
            (KissReader.boundFrame v (collecting (acc ++ [byte]) false)) tail).collected
          = ((unescape tail).map (byte :: ·)).bind (fun f => sizedFrame v (acc ++ f)) := by
      intro byte tail htail hmem
      apply collected_push v acc byte hmem
      intro hfits
      exact ih tail.length htail tail (acc ++ [byte]) hmem hfits rfl
    match rest, hn with
    | [], _ =>
      show (collecting acc false).collected = sizedFrame v (acc ++ [])
      rw [List.append_nil, KissReader.collected, sizedFrame]
      by_cases hnil : acc = []
      · rw [if_neg (by simp [collecting, hnil]), if_neg (by simp [hnil])]
      · rw [if_pos (by simp [collecting, hnil]), if_pos ⟨hnil, hacc⟩]
        rfl
    | byte :: tail, hn =>
      have hb : byte ≠ FEND := fun e => h (by simp [e])
      have htail : FEND ∉ tail := fun e => h (List.mem_cons_of_mem byte e)
      rw [Reader.body_cons]
      -- an escape needs its second byte, which may be missing or wrong
      by_cases hesc : byte = FESC
      · subst hesc
        rw [step_escape v hacc]
        match tail, hn, htail with
        | [], _, _ =>
          show (collecting acc true).collected = _
          rw [KissReader.collected, if_neg (by simp [collecting])]
          rfl
        | code :: tail', hn, htail =>
          have hc : code ≠ FEND := fun e => htail (by simp [e])
          have htail' : FEND ∉ tail' := fun e => htail (List.mem_cons_of_mem code e)
          have hlen : tail'.length < n := by simp only [List.length_cons] at hn; omega
          rw [Reader.body_cons, unescape_fesc]
          by_cases hbad : code ≠ TFEND ∧ code ≠ TFESC
          · rw [step_damaged v acc hc hbad, body_notStarted v _ tail' rfl htail', if_neg hbad.1,
              if_neg hbad.2]
            exact collected_notStarted _ rfl
          · rw [step_code v acc hc hbad]
            by_cases hfend : code = TFEND
            · rw [if_pos hfend, if_pos hfend]
              exact hpush FEND tail' hlen htail'
            · have hfesc : code = TFESC := by
                by_contra hne
                exact hbad ⟨hfend, hne⟩
              rw [if_neg hfend, if_neg hfend, if_pos hfesc]
              exact hpush FESC tail' hlen htail'
      · rw [step_plain v acc hb hesc, unescape_plain byte tail hesc]
        exact hpush byte tail (by simp only [List.length_cons] at hn; omega) htail

/-- **The reader holds what the segment carries**: after the bytes that follow FEND, the
four pieces of state give the frame of `segmentFrame` and nothing else. -/
theorem collected_body (v : CspVersion) (seg : Bytes) (h : FEND ∉ seg) :
    ((kissReader v).body KissReader.opened seg).collected = segmentFrame v seg := by
  cases seg with
  | nil => rfl
  | cons type rest =>
    have ht : type ≠ FEND := fun e => h (by simp [e])
    have hrest : FEND ∉ rest := fun e => h (List.mem_cons_of_mem type e)
    have hstep : ((kissReader v).step KissReader.opened type).1
        = { KissReader.opened with skipTypeByte := false, started := type == TNC_DATA } := by
      show (feedByte v KissReader.opened type).1 = _
      rw [feedByte, if_neg ht, if_neg (by simp [KissReader.opened]),
        if_pos (by simp [KissReader.opened])]
    rw [Reader.body_cons, hstep, segmentFrame]
    -- any other type byte stops the reader until FEND
    by_cases hdata : type = TNC_DATA
    · rw [if_pos hdata, hdata]
      exact collected_collecting v rest [] hrest (Nat.zero_le _)
    · rw [if_neg hdata, body_notStarted v _ rest (by simp [hdata]) hrest]
      exact collected_notStarted _ (by simp [hdata])

/-! ## §5. Encoded frames come back. -/

/-- A frame the reader is meant to carry. -/
def FrameFits (v : CspVersion) (f : Bytes) : Prop := 1 ≤ f.length ∧ f.length ≤ frameMax v

theorem segmentFrame_encoded (v : CspVersion) (f : Bytes) (hf : FrameFits v f) :
    segmentFrame v (TNC_DATA :: escape f) = some f := by
  have hne : f ≠ [] := fun e => by simp [FrameFits, e] at hf
  rw [segmentFrame, if_pos rfl, unescape_escape]
  show sizedFrame v f = some f
  rw [sizedFrame, if_pos ⟨hne, hf.2⟩]

/-- The segment of an encoded frame holds no FEND. -/
theorem fend_notMem_segment (f : Bytes) : FEND ∉ TNC_DATA :: escape f := by
  intro h
  rcases List.mem_cons.mp h with h | h
  · exact absurd h (by decide)
  · exact fend_notMem_escape f h

/-- **One encoded frame**, from any state: what was collected before, then the frame. -/
theorem feed_kissEncode (v : CspVersion) (r : KissReader) (f : Bytes) (hf : FrameFits v f) :
    feed v r (kissEncode f) = (KissReader.opened, r.collected.toList ++ [f]) := by
  have hmem := fend_notMem_segment f
  rw [feed, kissEncode_eq, (kissDelimited v).run_block r _ hmem]
  show (KissReader.opened, r.collected.toList
      ++ ((kissReader v).body KissReader.opened (TNC_DATA :: escape f)).collected.toList) = _
  rw [collected_body v _ hmem, segmentFrame_encoded v f hf]
  rfl

/-- The encoded frames of a list, one after the other on the link. -/
def kissStream (frames : List Bytes) : Bytes := (frames.map kissEncode).flatten

/-- The state after FEND holds nothing. -/
theorem opened_collected : KissReader.opened.collected = none := rfl

/-- A stream of encoded frames read right after FEND. -/
theorem feed_kissStream_opened (v : CspVersion) (frames : List Bytes)
    (hf : ∀ f ∈ frames, FrameFits v f) :
    feed v KissReader.opened (kissStream frames) = (KissReader.opened, frames) := by
  induction frames with
  | nil => rfl
  | cons f frames ih =>
    have ih' := ih fun g hg => hf g (List.mem_cons_of_mem f hg)
    have h1 := feed_kissEncode v KissReader.opened f (hf f List.mem_cons_self)
    rw [opened_collected] at h1
    show (kissReader v).run KissReader.opened (kissEncode f ++ kissStream frames) = _
    rw [feed] at h1 ih'
    rw [Reader.run_append, h1, ih']
    rfl

/-- **A stream of encoded frames**, from any state: at most the frame collected before, then
the frames. -/
theorem feed_kissStream (v : CspVersion) (r : KissReader) (frames : List Bytes)
    (hf : ∀ f ∈ frames, FrameFits v f) :
    (feed v r (kissStream frames)).2
      = (if frames = [] then [] else r.collected.toList) ++ frames := by
  cases frames with
  | nil => rfl
  | cons f frames =>
    have htail := feed_kissStream_opened v frames fun g hg => hf g (List.mem_cons_of_mem f hg)
    have h1 := feed_kissEncode v r f (hf f List.mem_cons_self)
    show ((kissReader v).run r (kissEncode f ++ kissStream frames)).2 = _
    rw [feed] at h1 htail
    rw [Reader.run_append, h1, htail, if_neg (by simp)]
    simp

/-- An encoded frame that is cut off gives nothing: the closing FEND is missing, so the only
delimiter is the opening one. -/
theorem feed_cut (v : CspVersion) (r : KissReader) (hr : r.collected = none) {f data cut : Bytes}
    (hcut : kissEncode f = data ++ cut) (hne : cut ≠ []) : (feed v r data).2 = [] := by
  -- what is missing has the closing FEND as its last byte
  obtain ⟨front, last, rfl⟩ : ∃ front last, cut = front ++ [last] :=
    ⟨cut.dropLast, cut.getLast hne, (List.dropLast_append_getLast hne).symm⟩
  have hbody : data ++ front = FEND :: TNC_DATA :: escape f := by
    rw [kissEncode_eq, ← List.append_assoc, ← List.cons_append] at hcut
    exact (List.append_inj' hcut rfl).1.symm
  cases data with
  | nil => rfl
  | cons b data =>
    rw [List.cons_append] at hbody
    injection hbody with hb hbody
    have hmem : FEND ∉ data := fun h =>
      fend_notMem_segment f (hbody ▸ List.mem_append_left front h)
    rw [hb, feed, (kissDelimited v).run_delim, (kissDelimited v).run_quiet _ data hmem]
    show r.collected.toList ++ [] = []
    rw [hr]
    rfl

/-- **The beginning of a stream of encoded frames** gives the frames whose encoding it holds
to the end; a frame that is cut off gives nothing. -/
theorem feed_kissStream_within (v : CspVersion) (r : KissReader) (hr : r.collected = none)
    (frames : List Bytes) (hf : ∀ f ∈ frames, FrameFits v f) (data : Bytes)
    (hdata : data <+: kissStream frames) :
    (feed v r data).2 = within (fun f => (kissEncode f).length) data.length frames := by
  induction frames generalizing r data with
  | nil =>
    rw [List.eq_nil_of_prefix_nil hdata]
    rfl
  | cons f frames ih =>
    obtain ⟨rest, hrest⟩ := hdata
    have hsplit : data ++ rest = kissEncode f ++ kissStream frames := by
      rw [hrest]
      rfl
    have h1 := feed_kissEncode v r f (hf f List.mem_cons_self)
    have hframes := fun g hg => hf g (List.mem_cons_of_mem f hg)
    rw [hr] at h1
    rw [within]
    -- the data end inside this frame, or behind it
    rcases List.append_eq_append_iff.mp hsplit with ⟨cut, hcut, -⟩ | ⟨more, hmore, hstream⟩
    · by_cases hnil : cut = []
      · -- exactly this frame
        rw [hnil, List.append_nil] at hcut
        have hrest := ih KissReader.opened opened_collected hframes [] List.nil_prefix
        rw [← hcut, h1, if_pos le_rfl, Nat.sub_self, ← List.length_nil (α := UInt8), ← hrest]
        rfl
      · have hlen := congrArg List.length hcut
        have hpos := List.length_pos_iff.mpr hnil
        rw [List.length_append] at hlen
        rw [feed_cut v r hr hcut hnil, if_neg (by omega)]
    · -- this frame and the beginning of the rest
      have h2 := ih KissReader.opened opened_collected hframes more ⟨rest, hstream.symm⟩
      rw [hmore, List.length_append, if_pos (Nat.le_add_right _ _), Nat.add_sub_cancel_left, ← h2]
      rw [feed] at h1 ⊢
      rw [Reader.run_append, h1]
      rfl

/-- What a reader has collected after some input is the frame of the bytes after the last
FEND: they start with the data type byte and unescape to it. -/
theorem collected_after (v : CspVersion) (earlier f : Bytes)
    (h : (feed v KissReader.init earlier).1.collected = some f) :
    ∃ before seg, earlier = before ++ FEND :: TNC_DATA :: seg ∧ FEND ∉ seg
      ∧ unescape seg = some f := by
  by_cases hmem : FEND ∈ earlier
  · obtain ⟨before, seg, hsplit, hseg, hstate⟩ :=
      (kissDelimited v).run_state KissReader.init earlier hmem
    have hcol : segmentFrame v seg = some f := by
      rw [← collected_body v seg hseg, ← h]
      exact congrArg KissReader.collected hstate.symm
    -- only a segment with the data type byte carries a frame
    cases seg with
    | nil => exact absurd hcol (by simp [segmentFrame])
    | cons type rest =>
      rw [segmentFrame] at hcol
      by_cases ht : type = TNC_DATA
      · rw [if_pos ht] at hcol
        obtain ⟨g, hg, hsized⟩ := Option.bind_eq_some_iff.mp hcol
        rw [sizedFrame] at hsized
        split at hsized
        · injection hsized with hsized
          subst hsized
          subst ht
          exact ⟨before, rest, hsplit, fun e => hseg (List.mem_cons_of_mem _ e), hg⟩
        · exact absurd hsized (by simp)
      · rw [if_neg ht] at hcol
        exact absurd hcol (by simp)
  · -- without any FEND the reader has not started
    have hquiet := (kissDelimited v).run_quiet KissReader.init earlier hmem
    rw [feed, hquiet, body_notStarted v KissReader.init earlier rfl hmem] at h
    exact absurd h (by simp [KissReader.collected, KissReader.init])

/-- **KISS round trip and resynchronisation**: after any earlier input, encoded frames cut
into any chunks come back exactly, in order, preceded by at most the one frame whose bytes
the earlier input had fully delivered. -/
theorem kissReader_resync (v : CspVersion) (earlier : Bytes) (frames chunks : List Bytes)
    (hf : ∀ f ∈ frames, 1 ≤ f.length ∧ f.length ≤ cspHeaderBytes v + HK_SAMPLE_MAX + 8)
    (hc : chunks.flatten = (frames.map kissEncode).flatten) :
    let r := (feed v KissReader.init earlier).1
    ∃ extra : Option Bytes,
      (feedChunks v r chunks).2.flatten = extra.toList ++ frames
        ∧ (frames ≠ [] → extra = r.collected)
        ∧ ∀ f, extra = some f →
            r.started = true ∧ r.escaped = false ∧ r.frame = f ∧ f ≠ []
              ∧ ∃ before seg, earlier = before ++ FEND :: TNC_DATA :: seg ∧ FEND ∉ seg
                  ∧ unescape seg = some f := by
  intro r
  have hout : (feedChunks v r chunks).2.flatten
      = (if frames = [] then none else r.collected).toList ++ frames := by
    have hstream := feed_kissStream v r frames hf
    rw [kissStream, ← hc, ← feedChunks_flatten] at hstream
    rw [hstream]
    split <;> rfl
  refine ⟨if frames = [] then none else r.collected, hout, fun hne => if_neg hne, ?_⟩
  intro f hextra
  have hcol : r.collected = some f := by
    split at hextra
    · exact absurd hextra (by simp)
    · exact hextra
  have hafter := collected_after v earlier f hcol
  rw [KissReader.collected] at hcol
  split at hcol
  · rename_i hr
    injection hcol with hcol
    exact ⟨hr.1, by simpa using hr.2.2, hcol, hcol ▸ hr.2.1, hafter⟩
  · exact absurd hcol (by simp)

/-- Two frames with both special bytes, cut inside an escape, after a frame whose closing
FEND had not arrived. -/
theorem kissReader_resync_split :
    (feedChunks .csp2 (feed .csp2 KissReader.init [FEND, 0x00, 0x41]).1
        [[FEND, 0x00, FESC], [TFEND, 0x01, FEND], [FEND, 0x00, FESC, TFESC, FEND]]).2.flatten
      = [[0x41], [FEND, 0x01], [FESC]] := by
  obtain ⟨extra, h, hextra, _⟩ :=
    kissReader_resync .csp2 [FEND, 0x00, 0x41] [[FEND, 0x01], [FESC]]
      [[FEND, 0x00, FESC], [TFEND, 0x01, FEND], [FEND, 0x00, FESC, TFESC, FEND]]
      (by decide) (by decide)
  rw [h, hextra (by decide)]
  decide

/-! ## §6. The frames of an arbitrary stream. -/

/-- FESC stands only directly before TFEND or TFESC. -/
def EscapesPaired (rest : Bytes) : Prop :=
  ∀ i < rest.length, rest[i]? = some FESC → rest[i + 1]? = some TFEND ∨ rest[i + 1]? = some TFESC

instance (rest : Bytes) : Decidable (EscapesPaired rest) :=
  inferInstanceAs (Decidable (∀ i < rest.length, _ → _))

/-- What paired bytes stand for: FESC and the byte after it are one byte. -/
def unescaped : Bytes → Bytes
  | [] => []
  | [byte] => [byte]
  | byte :: code :: rest =>
    if byte = FESC then (if code = TFEND then FEND else FESC) :: unescaped rest
    else byte :: unescaped (code :: rest)

/-- The segments the reader is to accept. -/
structure WellFormed (v : CspVersion) (seg : Bytes) : Prop where
  data : seg.head? = some TNC_DATA
  paired : EscapesPaired seg.tail
  notEmpty : 1 ≤ (unescaped seg.tail).length
  within : (unescaped seg.tail).length ≤ cspHeaderBytes v + HK_SAMPLE_MAX + 8

instance (v : CspVersion) (seg : Bytes) : Decidable (WellFormed v seg) :=
  decidable_of_iff
    (seg.head? = some TNC_DATA ∧ EscapesPaired seg.tail ∧ 1 ≤ (unescaped seg.tail).length
      ∧ (unescaped seg.tail).length ≤ cspHeaderBytes v + HK_SAMPLE_MAX + 8)
    ⟨fun h => ⟨h.1, h.2.1, h.2.2.1, h.2.2.2⟩, fun h => ⟨h.1, h.2, h.3, h.4⟩⟩

theorem escapesPaired_cons (byte : UInt8) (rest : Bytes) :
    EscapesPaired (byte :: rest)
      ↔ (byte = FESC → rest[0]? = some TFEND ∨ rest[0]? = some TFESC) ∧ EscapesPaired rest := by
  constructor
  · intro h
    constructor
    · intro hbyte
      exact h 0 (Nat.succ_pos _) (congrArg some hbyte)
    · intro i hi hfesc
      exact h (i + 1) (Nat.succ_lt_succ hi) hfesc
  · intro ⟨hhead, htail⟩ i hi hfesc
    cases i with
    | zero => exact hhead (Option.some.inj hfesc)
    | succ i => exact htail i (Nat.lt_of_succ_lt_succ hi) hfesc

theorem escapesPaired_plain {byte : UInt8} (h : byte ≠ FESC) (rest : Bytes) :
    EscapesPaired (byte :: rest) ↔ EscapesPaired rest := by
  rw [escapesPaired_cons]
  exact and_iff_right fun hbyte => absurd hbyte h

/-- After FESC one of two bytes follows, and neither of them is FESC again. -/
theorem escapesPaired_fesc (code : UInt8) (rest : Bytes) :
    EscapesPaired (FESC :: code :: rest)
      ↔ (code = TFEND ∨ code = TFESC) ∧ EscapesPaired rest := by
  rw [escapesPaired_cons]
  have hcode : ((code :: rest)[0]? = some TFEND ∨ (code :: rest)[0]? = some TFESC)
      ↔ (code = TFEND ∨ code = TFESC) := by simp
  rw [hcode]
  constructor
  · intro ⟨hhead, htail⟩
    have hc := hhead rfl
    refine ⟨hc, (escapesPaired_plain ?_ rest).mp htail⟩
    rcases hc with hc | hc <;> rw [hc] <;> decide
  · intro ⟨hc, htail⟩
    refine ⟨fun _ => hc, (escapesPaired_plain ?_ rest).mpr htail⟩
    rcases hc with hc | hc <;> rw [hc] <;> decide

/-- The escaping can be undone exactly where every FESC is paired. -/
theorem unescape_eq (rest : Bytes) :
    unescape rest = if EscapesPaired rest then some (unescaped rest) else none := by
  induction rest using unescaped.induct with
  | case1 => rfl
  | case2 byte =>
    by_cases h : byte = FESC
    · subst h
      rfl
    · rw [unescape_plain byte [] h, if_pos ((escapesPaired_plain h []).mpr (by decide))]
      rfl
  | case3 code rest ih =>
    rw [unescape_fesc, unescaped, if_pos rfl, ih]
    by_cases hfend : code = TFEND
    · rw [if_pos hfend, if_pos hfend]
      by_cases hrest : EscapesPaired rest
      · rw [if_pos hrest, if_pos ((escapesPaired_fesc code rest).mpr ⟨.inl hfend, hrest⟩)]
        rfl
      · rw [if_neg hrest, if_neg fun h => hrest ((escapesPaired_fesc code rest).mp h).2]
        rfl
    · rw [if_neg hfend, if_neg hfend]
      by_cases hfesc : code = TFESC
      · rw [if_pos hfesc]
        by_cases hrest : EscapesPaired rest
        · rw [if_pos hrest, if_pos ((escapesPaired_fesc code rest).mpr ⟨.inr hfesc, hrest⟩)]
          rfl
        · rw [if_neg hrest, if_neg fun h => hrest ((escapesPaired_fesc code rest).mp h).2]
          rfl
      · rw [if_neg hfesc, if_neg]
        intro h
        rcases ((escapesPaired_fesc code rest).mp h).1 with hc | hc
        · exact hfend hc
        · exact hfesc hc
  | case4 byte code rest hne ih =>
    rw [unescape_plain byte _ hne, unescaped, if_neg hne, ih]
    by_cases hrest : EscapesPaired (code :: rest)
    · rw [if_pos hrest, if_pos ((escapesPaired_plain hne _).mpr hrest)]
      rfl
    · rw [if_neg hrest, if_neg fun h => hrest ((escapesPaired_plain hne _).mp h)]
      rfl

/-- **The law of a segment**: the well-formed ones, and no others, carry a frame. -/
theorem segmentFrame_eq (v : CspVersion) (seg : Bytes) :
    segmentFrame v seg = if WellFormed v seg then some (unescaped seg.tail) else none := by
  cases seg with
  | nil => rfl
  | cons type rest =>
    rw [segmentFrame]
    by_cases htype : type = TNC_DATA
    · rw [if_pos htype, unescape_eq]
      by_cases hpaired : EscapesPaired rest
      · rw [if_pos hpaired]
        show sizedFrame v (unescaped rest) = _
        unfold sizedFrame
        by_cases hsize : unescaped rest ≠ [] ∧ (unescaped rest).length ≤ frameMax v
        · rw [if_pos hsize, if_pos]
          · rfl
          · exact ⟨congrArg some htype, hpaired, List.length_pos_iff.mpr hsize.1, hsize.2⟩
        · rw [if_neg hsize, if_neg]
          intro h
          exact hsize ⟨List.length_pos_iff.mp h.notEmpty, h.within⟩
      · rw [if_neg hpaired, if_neg fun h => hpaired h.paired]
        rfl
    · rw [if_neg htype, if_neg fun h => htype (Option.some.inj h.data)]

/-- The values `self._frame` takes in one turn of the loop, the one it starts with first. -/
def heldFrames (v : CspVersion) (r : KissReader) (byte : UInt8) : List Bytes :=
  let appended :=
    if byte = FEND ∨ ¬ r.started ∨ r.skipTypeByte then []
    else if r.escaped then
      if byte ≠ TFEND ∧ byte ≠ TFESC then []
      else [r.frame ++ [if byte = TFEND then FEND else FESC]]
    else if byte = FESC then []
    else [r.frame ++ [byte]]
  r.frame :: appended ++ [(feedByte v r byte).1.frame]

theorem boundFrame_frame_le (v : CspVersion) (r : KissReader) :
    (KissReader.boundFrame v r).frame.length ≤ frameMax v := by
  unfold KissReader.boundFrame
  split
  · exact Nat.zero_le _
  · omega

/-- One turn keeps the buffer within the bound. -/
theorem feedByte_frame_le (v : CspVersion) (r : KissReader) (byte : UInt8)
    (hr : r.frame.length ≤ frameMax v) : (feedByte v r byte).1.frame.length ≤ frameMax v := by
  unfold feedByte
  repeat' split
  all_goals first
    | exact boundFrame_frame_le v _
    | exact hr
    | exact Nat.zero_le _

theorem feed_frame_le (v : CspVersion) (r : KissReader) (data : Bytes)
    (hr : r.frame.length ≤ frameMax v) : (feed v r data).1.frame.length ≤ frameMax v := by
  induction data generalizing r with
  | nil => exact hr
  | cons byte data ih => exact ih _ (feedByte_frame_le v r byte hr)

/-- Inside a turn the buffer holds at most one byte more. -/
theorem heldFrames_le (v : CspVersion) (r : KissReader) (byte : UInt8)
    (hr : r.frame.length ≤ frameMax v) :
    ∀ held ∈ heldFrames v r byte, held.length ≤ frameMax v + 1 := by
  intro held h
  have hnext := feedByte_frame_le v r byte hr
  unfold heldFrames at h
  rw [List.mem_append, List.mem_cons, List.mem_singleton] at h
  rcases h with (rfl | h) | rfl
  · omega
  · -- an appended byte
    repeat' split at h
    all_goals first
      | exact absurd h List.not_mem_nil
      | (rw [List.mem_singleton] at h
         rw [h, List.length_append, List.length_singleton]
         omega)
  · omega

/-- The frames of a whole stream are what its well-formed segments stand for. -/
theorem feed_between (v : CspVersion) (stream : Bytes) :
    (feed v KissReader.init stream).2
      = ((between FEND stream).filter (WellFormed v ·)).map (unescaped ·.tail) := by
  -- bytes before the first FEND leave a reader that has not started
  have hstart : ∀ before : Bytes, FEND ∉ before →
      ((kissReader v).body KissReader.init before).collected = none := by
    intro before h
    rw [body_notStarted v KissReader.init before rfl h]
    rfl
  have hstream := (kissDelimited v).run_between KissReader.init stream hstart
  show ((kissReader v).run KissReader.init stream).2 = _
  rw [hstream, ← List.filterMap_eq_map, List.filterMap_filter]
  apply List.filterMap_congr
  intro seg hseg
  show ((kissReader v).body KissReader.opened seg).collected = _
  rw [collected_body v seg (notMem_of_mem_between hseg), segmentFrame_eq]
  simp only [decide_eq_true_eq, Function.comp_apply]

/-- **The reader accepts exactly the well-formed segments**: of any stream, cut into any
chunks, the frames returned are what the well-formed segments between two consecutive FENDs
stand for, in order, and the buffer never holds more than the bound and one byte. -/
theorem kissReader_exact (v : CspVersion) (chunks : List Bytes) :
    (feedChunks v KissReader.init chunks).2.flatten
        = ((between FEND chunks.flatten).filter (WellFormed v ·)).map (unescaped ·.tail)
      ∧ ∀ before byte after, chunks.flatten = before ++ byte :: after →
          ∀ held ∈ heldFrames v (feed v KissReader.init before).1 byte,
            held.length ≤ cspHeaderBytes v + HK_SAMPLE_MAX + 8 + 1 := by
  constructor
  · rw [feedChunks_flatten]
    exact feed_between v chunks.flatten
  · intro before byte after _
    exact heldFrames_le v _ byte (feed_frame_le v KissReader.init before (Nat.zero_le _))

/-- A damaged escape, an empty segment and a wrong type byte are passed over. -/
example : (feedChunks .csp1 KissReader.init
      [[0x41, FEND, 0x00, FESC], [0x01, FEND, FEND, 0x00, FESC], [TFEND, FEND, 0x07, 0x41, FEND]]).2
    = [[], [], [[FEND]]] := by decide

end KFsw.Ground
