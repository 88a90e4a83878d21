/-
  KFsw.App.ShellRemexec — the `remexec` command, `app/src/shell/shell_remexec.c`,
  and how it and `hk define` for another node join words in a buffer.

  Both commands carry the rest of their command line as one text.  They join its
  words in an array of characters, `join_command` with the lengths it counts and
  `define_remote` with those `snprintf` tells.  A store outside the array is no
  step of the model.

  Main results:
    * `joinLoop_spec`, `defineLoop_spec` — what the two loops leave in the array;
    * `defineRemoteIn_eq`    — `define_remote` on its array is `defineRemote`;
    * `joining_whole`        — the words are joined whole or refused, and what is
      sent to another node carries all of them.
-/
import KFsw.App.ShellParam

namespace KFsw.App

open KFsw.Lib Prog
open KFsw.Ground (padRight)

/-! ## §1. Joining words. -/

section Joining

variable {capacity : Nat}

/-- One turn of the loop of `join_command`, for a word there is room for. -/
def joinWord (line : CArray capacity) (index used : Nat) (word : Text) :
    Option (CArray capacity × Nat) :=
  (if index ≠ 0 then (line.store used ' ').map fun line => (line, used + 1)
    else some (line, used)).bind fun (line, used) =>
    (line.storeAll used word).bind fun line =>
      (line.store (used + word.length) NUL).map fun line => (line, used + word.length)

/-- The loop of `join_command`, from the word `index` on.  The words and the array are in one
memory, so the sum of their lengths does not wrap. -/
def joinLoop (line : CArray capacity) (index used : Nat) :
    List Text → Option (Int × CArray capacity)
  | [] => some (0, line)
  | word :: words =>
    if used + word.length + (if index = 0 then 0 else 1) ≥ capacity then
      some (-ENAMETOOLONG, line)
    else
      (joinWord line index used word).bind fun (line, used) => joinLoop line (index + 1) used words

/-- `join_command`: its result, and what it leaves in the array. -/
def joinCommand (line : CArray capacity) (argv : List Text) : Option (Int × CArray capacity) :=
  (line.store 0 NUL).bind fun line => joinLoop line 0 0 argv

/-- The loop of `define_remote`, behind `used` characters. -/
def defineLoop (entries : CArray capacity) (used : Nat) :
    List Text → Option (Int × CArray capacity)
  | [] => some (0, entries)
  | word :: words =>
    (entries.snprintf used ((if used = 0 then [] else [' ']) ++ word)).bind
      fun (entries, written) =>
        if written < 0 ∨ written.toNat ≥ capacity - used then some (-E2BIG, entries)
        else defineLoop entries (used + written.toNat) words

/-- `define_remote` from `entries[0] = '\0'` to the end of its loop. -/
def defineEntriesText (entries : CArray capacity) (argv : List Text) :
    Option (Int × CArray capacity) :=
  (entries.store 0 NUL).bind fun entries => defineLoop entries 0 argv

/-- How joining ends: with the whole text and its NUL in the array exactly when there is room, and
refused otherwise. -/
structure Joined (text : Text) (refusal result : Int) (buffer : CArray capacity) : Prop where
  holds_iff : buffer.Holds text ↔ text.length ≤ capacity - 1
  result_eq : result = if text.length ≤ capacity - 1 then 0 else refusal

theorem Joined.whole {text : Text} {buffer : CArray capacity} (h : buffer.Holds text)
    (refusal : Int) : Joined text refusal 0 buffer := by
  have hlt := h.length_lt
  have hfits : text.length ≤ capacity - 1 := by omega
  exact ⟨iff_of_true h hfits, (if_pos hfits).symm⟩

theorem Joined.refused {text : Text} (hlong : capacity ≤ text.length) (hpos : 0 < capacity)
    (refusal : Int) (buffer : CArray capacity) : Joined text refusal refusal buffer := by
  have hfits : ¬ text.length ≤ capacity - 1 := by omega
  refine ⟨iff_of_false (fun h => ?_) hfits, (if_neg hfits).symm⟩
  have hlt := h.length_lt
  omega

/-- What stands between the words before `index` and the word at `index`. -/
def separator (first : Prop) [Decidable first] : Text := if first then [] else [' ']

/-- A word behind others, with what separates them. -/
theorem joinWord_spec {line : CArray capacity} {t : Text} (ht : t <+: line.cells) (index : Nat)
    (word : Text) (h : t.length + word.length + (if index = 0 then 0 else 1) < capacity) :
    ∃ b, joinWord line index t.length word
        = some (b, (t ++ separator (index = 0) ++ word).length)
      ∧ b.Holds (t ++ separator (index = 0) ++ word) := by
  -- the separator is stored first
  have hseparated : ∃ b : CArray capacity,
      (if index ≠ 0 then (line.store t.length ' ').map fun line => (line, t.length + 1)
        else some (line, t.length)) = some (b, (t ++ separator (index = 0)).length)
      ∧ t ++ separator (index = 0) <+: b.cells := by
    by_cases hindex : index = 0
    · rw [if_neg (not_not_intro hindex), separator, if_pos hindex, List.append_nil]
      exact ⟨line, rfl, ht⟩
    · rw [if_neg hindex] at h
      obtain ⟨b, hb, hcells⟩ := line.storeAll_spec ht [' '] (by
        rw [List.length_singleton]
        omega)
      have hstore : (line.store t.length ' ').bind some = some b := hb
      rw [Option.bind_fun_some] at hstore
      rw [if_pos hindex, separator, if_neg hindex, hstore, List.length_append]
      exact ⟨b, rfl, hcells⟩
  obtain ⟨b, hb, hcells⟩ := hseparated
  have hlength : (t ++ separator (index = 0)).length + word.length < capacity := by
    rw [List.length_append, separator]
    split
    · rw [if_pos ‹_›] at h
      rw [List.length_nil]
      omega
    · rw [if_neg ‹_›] at h
      rw [List.length_singleton]
      omega
  -- then the word, and the NUL behind it
  obtain ⟨c, hc, hword⟩ := b.storeAll_spec hcells word (Nat.le_of_lt hlength)
  obtain ⟨d, hd, hholds⟩ := c.store_nul hword (by rw [List.length_append]; exact hlength)
  refine ⟨d, ?_, hholds⟩
  rw [List.length_append] at hd ⊢
  rw [joinWord, hb, Option.bind_some]
  dsimp only
  rw [hc, Option.bind_some, hd]
  rfl

/-- **The loop of `join_command`** behind words that are in the array. -/
theorem joinLoop_spec (words : List Text) {line : CArray capacity} {t : Text} (ht : line.Holds t)
    (index : Nat) :
    ∃ result b, joinLoop line (index + 1) t.length words = some (result, b)
      ∧ Joined (joinWords (t :: words)) (-ENAMETOOLONG) result b := by
  have hpos := ht.length_lt
  -- on the words, with the text in the array as what is joined so far
  induction words generalizing line t index with
  | nil => exact ⟨0, line, rfl, .whole ht _⟩
  | cons w words ih =>
    unfold joinLoop
    rw [if_neg (Nat.succ_ne_zero index)]
    by_cases hfull : t.length + w.length + 1 ≥ capacity
    · rw [if_pos hfull]
      refine ⟨_, line, rfl, .refused ?_ (by omega) _ _⟩
      have hlong := length_le_joinWords (t ++ ' ' :: w) words
      rw [joinWords_cons, List.length_append, List.length_cons] at hlong
      omega
    · rw [if_neg hfull]
      obtain ⟨b, hb, hholds⟩ := joinWord_spec ht.isPrefix (index + 1) w (by
        rw [if_neg (Nat.succ_ne_zero index)]
        omega)
      rw [separator, if_neg (Nat.succ_ne_zero index), List.append_assoc] at hb hholds
      rw [hb, Option.bind_some, ← joinWords_cons]
      exact ih hholds (index + 1) hholds.length_lt

/-- `join_command`, whatever the array held. -/
theorem joinCommand_spec (hcapacity : 0 < capacity) (line : CArray capacity) (words : List Text) :
    ∃ result b, joinCommand line words = some (result, b)
      ∧ Joined (joinWords words) (-ENAMETOOLONG) result b := by
  obtain ⟨a, ha, hempty⟩ := line.store_nul List.nil_prefix (t := []) hcapacity
  have hstart : joinCommand line words = joinLoop a 0 0 words := by
    rw [joinCommand, show line.store 0 NUL = some a from ha]
    rfl
  rw [hstart]
  cases words with
  | nil => exact ⟨0, a, rfl, .whole hempty _⟩
  | cons w words =>
    unfold joinLoop
    rw [if_pos rfl, Nat.zero_add, Nat.add_zero]
    by_cases hfull : w.length ≥ capacity
    · rw [if_pos hfull]
      exact ⟨_, a, rfl, .refused (hfull.trans (length_le_joinWords w words)) hcapacity _ _⟩
    · rw [if_neg hfull]
      obtain ⟨b, hb, hholds⟩ := joinWord_spec hempty.isPrefix 0 w (by
        rw [if_pos rfl, List.length_nil]
        omega)
      rw [separator, if_pos rfl, List.append_nil, List.nil_append] at hb hholds
      rw [show joinWord a 0 0 w = some (b, w.length) from hb, Option.bind_some]
      exact joinLoop_spec words hholds 0

/-- What `snprintf` tells of a text that is too long for what is left, in an `int` or not. -/
theorem snprintfResult_refused {s : Text} {left : Nat} (hleft : left ≤ INT_MAX + 1) :
    (CArray.snprintfResult s < 0 ∨ (CArray.snprintfResult s).toNat ≥ left) ↔ left ≤ s.length := by
  unfold CArray.snprintfResult
  split
  · rw [Int.toNat_natCast]
    omega
  · omega

/-- **The loop of `define_remote`** behind words that are in the array. -/
theorem defineLoop_spec (hmax : capacity ≤ INT_MAX + 1) (words : List Text)
    {entries : CArray capacity} {t : Text} (ht : entries.Holds t) (hne : t ≠ []) :
    ∃ result b, defineLoop entries t.length words = some (result, b)
      ∧ Joined (joinWords (t :: words)) (-E2BIG) result b := by
  have hpos := ht.length_lt
  -- on the words, with the text in the array as what is joined so far
  induction words generalizing entries t with
  | nil => exact ⟨0, entries, rfl, .whole ht _⟩
  | cons w words ih =>
    have hused : t.length ≠ 0 := fun h => hne (List.length_eq_zero_iff.mp h)
    have hlength : (' ' :: w).length = w.length + 1 := List.length_cons
    unfold defineLoop
    rw [if_neg hused]
    show ∃ result b, ((entries.snprintf t.length (' ' :: w)).bind _) = _ ∧ _
    obtain ⟨b, hb, _⟩ := entries.snprintf_spec ht.isPrefix (' ' :: w) hpos
    by_cases hfull : capacity - t.length ≤ (' ' :: w).length
    · rw [hb, Option.bind_some]
      dsimp only
      rw [if_pos ((snprintfResult_refused (by omega)).mpr hfull)]
      refine ⟨_, b, rfl, .refused ?_ (by omega) _ _⟩
      have hlong := length_le_joinWords (t ++ ' ' :: w) words
      rw [joinWords_cons, List.length_append] at hlong
      omega
    · obtain ⟨c, hc, hholds⟩ := entries.snprintf_whole ht.isPrefix (s := ' ' :: w) (by omega)
      have hresult : (CArray.snprintfResult (' ' :: w)).toNat = (' ' :: w).length := by
        rw [CArray.snprintfResult_of_le (by omega), Int.toNat_natCast]
      rw [hc, Option.bind_some]
      dsimp only
      rw [if_neg ((snprintfResult_refused (by omega)).not.mpr hfull), hresult, ← joinWords_cons,
        ← List.length_append]
      exact ih hholds (by simp) hholds.length_lt

/-- `define_remote` up to the end of its loop, whatever the array held. -/
theorem defineEntriesText_spec (hcapacity : 0 < capacity) (hmax : capacity ≤ INT_MAX + 1)
    (entries : CArray capacity) (words : List Text) (hw : ∀ w ∈ words, w ≠ []) :
    ∃ result b, defineEntriesText entries words = some (result, b)
      ∧ Joined (joinWords words) (-E2BIG) result b := by
  obtain ⟨a, ha, hempty⟩ := entries.store_nul List.nil_prefix (t := []) hcapacity
  have hstart : defineEntriesText entries words = defineLoop a 0 words := by
    rw [defineEntriesText, show entries.store 0 NUL = some a from ha]
    rfl
  rw [hstart]
  cases words with
  | nil => exact ⟨0, a, rfl, .whole hempty _⟩
  | cons w words =>
    unfold defineLoop
    rw [if_pos rfl, List.nil_append]
    obtain ⟨b, hb, _⟩ := a.snprintf_spec hempty.isPrefix w hcapacity
    by_cases hfull : capacity ≤ w.length
    · rw [show a.snprintf 0 w = _ from hb, Option.bind_some]
      dsimp only
      rw [Nat.sub_zero, if_pos ((snprintfResult_refused hmax).mpr hfull)]
      exact ⟨_, b, rfl, .refused (hfull.trans (length_le_joinWords w words)) hcapacity _ _⟩
    · obtain ⟨c, hc, hholds⟩ := a.snprintf_whole hempty.isPrefix (s := w) (by
        rw [List.length_nil]
        omega)
      have hresult : (CArray.snprintfResult w).toNat = w.length := by
        rw [CArray.snprintfResult_of_le (by omega), Int.toNat_natCast]
      rw [show a.snprintf 0 w = _ from hc, Option.bind_some]
      dsimp only
      rw [Nat.sub_zero, if_neg ((snprintfResult_refused hmax).not.mpr hfull), hresult, Nat.zero_add]
      exact defineLoop_spec hmax words hholds (hw w List.mem_cons_self)

end Joining

/-! ## §2. The `remexec` command. -/

/-- What a build fixes outside this repository. -/
structure RemexecConfig extends ParamConfig where
  /-- `KFSW_REMEXEC_COMMAND_MAX`. -/
  commandMax : Nat
  /-- `KFSW_REMEXEC_OK`. -/
  statusOk : Nat
  /-- `KFSW_REMEXEC_FAILED`. -/
  statusFailed : Nat
  /-- `kfsw_remexec_status_name`. -/
  statusName : Nat → Text

/-- `struct kfsw_remexec_reply`. -/
structure RemexecReply where
  status : Nat
  commandResult : Int
  text : Text
  size : Nat
  produced : Nat
  dropped : Nat
  truncated : Bool

/-- A call of `remexec`: a request to another node, a line for the shell, or a warning for the
log. -/
inductive RemexecCall where
  | listRemote (node : UInt16) (line : Text)
  | runRemote (node : UInt16) (line : Text)
  | print (line : Text)
  | error (line : Text)
  | warn (line : Text)
  | warning (line : Text)

/-- A request answers its result and the reply. -/
abbrev RemexecAnswer : RemexecCall → Type
  | .listRemote .. | .runRemote .. => Int × RemexecReply
  | _ => Unit

abbrev RemexecProg := Prog RemexecCall RemexecAnswer Int

/-- The text a request carries. -/
def RemexecCall.carries : RemexecCall → Option Text
  | .listRemote _ line | .runRemote _ line => some line
  | _ => none

/-- An error for the operator, and the result the command ends with. -/
def remexecError (line : Text) (result : Int) : RemexecProg :=
  .call (.error line) fun _ => .done result

/-- A line of a reply: a name is split from its help. -/
def replyLine (line : Text) : Option Text :=
  if '\t' ∈ line then
    some (padRight 24 (line.takeWhile (· ≠ '\t')) ++ ' ' :: (line.dropWhile (· ≠ '\t')).tail)
  else if line ≠ [] then some line
  else none

/-- `print_lines`, and what follows it. -/
def printLines (text : Text) (next : RemexecProg) : RemexecProg :=
  ((text.splitOn '\n').filterMap replyLine).foldr (fun line next => .call (.print line) fun _ => next)
    next

/-- `failed`. -/
def failed (what : Text) (node : UInt16) (result : Int) : RemexecProg :=
  if result = -EINVAL then
    remexecError (what ++ ": node ".toList ++ Nat.toDigits 10 node.toNat
      ++ " cannot be asked to run its own commands".toList) result
  else if kfswShellNoAnswer result = true then
    .call (.warning (remoteFailedLine what node result)) fun _ => .done result
  else remexecError (remoteFailedLine what node result) result

/-- `"node: %u"`. -/
def nodeLine (node : UInt16) : Text := "node: ".toList ++ Nat.toDigits 10 node.toNat

section Remexec

variable (cfg : RemexecConfig) (shellStrtoul : Text → Nat → Except Int Nat)

/-- A refusal is printed in the serving node's own words. -/
def refusedLine (reply : RemexecReply) : Text := "remexec: ".toList ++ reply.text

/-- `get_offered` from the reply on. -/
def printOffered (node : UInt16) (reply : RemexecReply) : RemexecProg :=
  .call (.print (nodeLine node)) fun _ =>
    if reply.status ≠ cfg.statusOk then remexecError (refusedLine reply) (-EACCES)
    else if reply.size = 0 then
      .call (.print "no commands are offered for remote execution".toList) fun _ => .done 0
    else
      printLines reply.text
        (if reply.truncated = true then
          .call (.warn ("listing truncated: ".toList ++ Nat.toDigits 10 reply.dropped
            ++ " byte(s) dropped; ask for a command".toList)) fun _ => .done 0
        else .done 0)

/-- What is said of a reply's output. -/
def outputLine (reply : RemexecReply) : Text :=
  "output: ".toList ++ Nat.toDigits 10 reply.size
    ++ if reply.truncated = true then
      " of ".toList ++ Nat.toDigits 10 reply.produced ++ " bytes, truncated, ".toList
        ++ Nat.toDigits 10 reply.dropped ++ " dropped".toList
    else " bytes".toList

/-- `run_offered` from the reply on. -/
def printOutput (node : UInt16) (line : Text) (reply : RemexecReply) : RemexecProg :=
  .call (.print (nodeLine node)) fun _ => .call (.print ("command: ".toList ++ line)) fun _ =>
    if reply.status ≠ cfg.statusOk ∧ reply.status ≠ cfg.statusFailed then
      remexecError (refusedLine reply) (-EACCES)
    else
      .call (.print (outputLine reply)) fun _ =>
        printLines reply.text
          (if reply.status ≠ cfg.statusOk then
            remexecError ("remexec: ".toList ++ cfg.statusName reply.status
              ++ ", the command returned ".toList ++ intText reply.commandResult) (- EIO)
          else .call (.print ("status: ".toList ++ cfg.statusName reply.status)) fun _ => .done 0)

/-- The refusal of `join_command`. -/
def joinError (result : Int) : RemexecProg :=
  remexecError ("A command is at most ".toList ++ Nat.toDigits 10 cfg.commandMax
    ++ " bytes".toList) result

/-- What both handlers do with their words, with what their array holds before: joined or
refused, and on with the text. -/
def withJoined (line : CArray (cfg.commandMax + 1)) (argv : List Text)
    (next : Text → RemexecProg) : Option RemexecProg :=
  (joinCommand line argv).map fun (result, line) =>
    if result ≠ 0 then joinError cfg result else next line.text

/-- `get_offered` from `join_command` on. -/
def askOffered (node : UInt16) (line : Text) : RemexecProg :=
  .call (.listRemote node line) fun (result, reply) =>
    if result ≠ 0 then failed "remexec get".toList node result else printOffered cfg node reply

/-- `run_offered` from `join_command` on. -/
def askRun (node : UInt16) (line : Text) : RemexecProg :=
  if line = [] then
    remexecError "Usage: remexec <node> run \"command args\"".toList (-EINVAL)
  else
    .call (.runRemote node line) fun (result, reply) =>
      if result ≠ 0 then failed "remexec run".toList node result
      else printOutput cfg node line reply

/-- `get_offered`. -/
def getOffered (line : CArray (cfg.commandMax + 1)) (node : UInt16) (argv : List Text) :
    Option RemexecProg := withJoined cfg line argv (askOffered cfg node)

/-- `run_offered`. -/
def runOffered (line : CArray (cfg.commandMax + 1)) (node : UInt16) (argv : List Text) :
    Option RemexecProg := withJoined cfg line argv (askRun cfg node)

/-- `cmd_remexec`, with what the array of the handler it calls holds before. -/
def cmdRemexec (line : CArray (cfg.commandMax + 1)) (argv : List Text) : Option RemexecProg :=
  match remexecParseNode cfg.toParamConfig shellStrtoul (arg argv 1) with
  | .error e =>
    some (remexecError ("Node must be 1..".toList
      ++ Nat.toDigits 10 (cfg.hk.cspBroadcastAddress - 1) ++ ": ".toList ++ arg argv 1) e)
  | .ok node =>
    if arg argv 2 = "get".toList then getOffered cfg line node (argv.drop 3)
    else if arg argv 2 = "run".toList then runOffered cfg line node (argv.drop 3)
    else
      some (remexecError
        "Usage: remexec <node> get [command] | remexec <node> run \"command\"".toList (-EINVAL))

end Remexec

/-! ## §3. `hk define` for another node. -/

section Define

variable (cfg : HkConfig) (shellStrtoul : Text → Nat → Except Int Nat)

/-- `last` of `define_remote`. -/
def defineLast (argv : List Text) : Nat :=
  if arg argv (argv.length - 1) = RETRY then argv.length - 1 else argv.length

/-- The words `define_remote` joins. -/
def defineWords (argv : List Text) : List Text := (argv.take (defineLast argv)).drop 3

/-- `define_remote` on its array, with what that holds before. -/
def defineRemoteIn (entries : CArray (cfg.commandMaxTextSize + 1)) (argv : List Text) :
    Option (HkProg Int) :=
  match parseNode cfg shellStrtoul (arg argv 1) with
  | .error e => some (.done e)
  | .ok node =>
    (defineEntriesText entries (defineWords argv)).map fun (result, entries) =>
      if result ≠ 0 then .done result
      else
        .call (.runCommand node "hk_define".toList
          ([arg argv 2, entries.text] ++ if defineLast argv < argv.length then [RETRY] else []))
          fun result => .done result

/-- A word as C has it: not empty, and ended by its first NUL. -/
def IsArgument (w : Text) : Prop := w ≠ [] ∧ NUL ∉ w

instance (w : Text) : Decidable (IsArgument w) := inferInstanceAs (Decidable (_ ∧ _))

theorem nul_notMem_joinWords {words : List Text} (hw : ∀ w ∈ words, IsArgument w) :
    NUL ∉ joinWords words := by
  induction words with
  | nil => exact List.not_mem_nil
  | cons w words ih =>
    have hhead := (hw w List.mem_cons_self).2
    have htail := ih fun v hv => hw v (List.mem_cons_of_mem w hv)
    cases words with
    | nil => exact hhead
    | cons v rest =>
      show NUL ∉ w ++ ' ' :: joinWords (v :: rest)
      intro hmem
      rcases List.mem_append.mp hmem with h | h
      · exact hhead h
      · rcases List.mem_cons.mp h with h | h
        · exact absurd h (by decide)
        · exact htail h

theorem map_eq_ok {ε α β : Type} {f : α → β} {x : Except ε α} {b : β} (h : x.map f = .ok b) :
    ∃ a, x = .ok a ∧ f a = b := by
  cases x with
  | error e => exact absurd h (by simp [Except.map])
  | ok a => exact ⟨a, rfl, Except.ok.inj h⟩

theorem map_eq_error {ε α β : Type} {f : α → β} {x : Except ε α} {e : ε} (h : x.map f = .error e) :
    x = .error e := by
  cases x with
  | error e' => exact congrArg Except.error (Except.error.inj h)
  | ok a => exact absurd h (by simp [Except.map])

/-- `define_remote` of a node, by whether there is room for the entries. -/
theorem defineRemote_eq {argv : List Text} {node : UInt16}
    (hnode : parseNode cfg shellStrtoul (arg argv 1) = .ok node)
    (hw : ∀ w ∈ defineWords argv, w ≠ []) :
    defineRemote cfg shellStrtoul argv
      = if (joinWords (defineWords argv)).length ≤ cfg.commandMaxTextSize then
          .call (.runCommand node "hk_define".toList ([arg argv 2, joinWords (defineWords argv)]
            ++ if defineLast argv < argv.length then [RETRY] else [])) fun result => .done result
        else .done (-E2BIG) := by
  have htexts := defineJoin_spec (Nat.succ_pos cfg.commandMaxTextSize) (defineWords argv) hw
  unfold defineRemote
  rw [hnode]
  dsimp only
  by_cases hfits : (joinWords (defineWords argv)).length ≤ cfg.commandMaxTextSize
  · rw [if_pos (Nat.lt_succ_of_le hfits)] at htexts
    obtain ⟨buffer, hjoin, hbuffer⟩ := map_eq_ok htexts
    unfold defineWords defineLast at hjoin
    rw [hjoin, if_pos hfits, ← hbuffer]
    rfl
  · rw [if_neg (by omega)] at htexts
    have hjoin := map_eq_error htexts
    unfold defineWords defineLast at hjoin
    rw [hjoin, if_neg hfits]

/-- **`define_remote` on its array** never stores outside of it, and is the `define_remote` that
joins texts. -/
theorem defineRemoteIn_eq (hmax : cfg.commandMaxTextSize ≤ INT_MAX)
    (entries : CArray (cfg.commandMaxTextSize + 1)) (argv : List Text)
    (hw : ∀ w ∈ defineWords argv, IsArgument w) :
    defineRemoteIn cfg shellStrtoul entries argv = some (defineRemote cfg shellStrtoul argv) := by
  have hne : ∀ w ∈ defineWords argv, w ≠ [] := fun w h => (hw w h).1
  obtain ⟨result, b, hb, hjoined⟩ := defineEntriesText_spec (Nat.succ_pos _)
    (Nat.succ_le_succ hmax) entries (defineWords argv) hne
  unfold defineRemoteIn
  cases hnode : parseNode cfg shellStrtoul (arg argv 1) with
  | error e =>
    unfold defineRemote
    rw [hnode]
  | ok node =>
    dsimp only
    rw [hb, Option.map_some, defineRemote_eq cfg shellStrtoul hnode hne]
    dsimp only
    by_cases hfits : (joinWords (defineWords argv)).length ≤ cfg.commandMaxTextSize
    · have htext := (hjoined.holds_iff.mpr hfits).text (nul_notMem_joinWords hw)
      have hresult : result = 0 := hjoined.result_eq.trans (if_pos hfits)
      rw [if_neg (not_not_intro hresult), htext, if_pos hfits]
    · have hresult : result = -E2BIG := hjoined.result_eq.trans (if_neg hfits)
      rw [if_pos (by rw [hresult]; decide), hresult, if_neg hfits]

theorem parseNode_error {text : Text} {e : Int} (h : parseNode cfg shellStrtoul text = .error e) :
    e = -EINVAL := by
  unfold parseNode at h
  split at h
  · exact (Except.error.inj h).symm
  · split at h
    · exact (Except.error.inj h).symm
    · exact absurd h (by simp)

end Define

/-! ## §4. What is sent. -/

/-- A command that carries a text to another node: whatever it sends carries all of the text, and
a text there is no room for ends it with an error. -/
structure SendsWhole {κ : Type} {ρ : κ → Type} (carries : κ → Option Text) (text : Text)
    (room : Nat) (p : Prog κ ρ Int) : Prop where
  carried : p.Calls fun c => ∀ sent, carries c = some sent → sent = text ∧ text.length ≤ room
  refused : room < text.length → ∀ trace result, p.Runs trace result → result ≠ 0

/-- The text of entries a call carries to another node. -/
def HkCall.carries : HkCall → Option Text
  | .runCommand _ _ args => args[1]?
  | _ => none

section Sent

variable {κ : Type} {ρ : κ → Type} {carries : κ → Option Text} {text : Text} {room : Nat}

/-- A command that ends with an error before it sends anything. -/
theorem SendsWhole.of_error {p : Prog κ ρ Int} {result : Int} (hsilent : p.Calls (carries · = none))
    (hend : ∀ trace a, p.Runs trace a → a = result) (hresult : result ≠ 0) :
    SendsWhole carries text room p := by
  refine ⟨hsilent.imp fun c hc sent hsent => ?_, fun _ trace a h => ?_⟩
  · rw [hc] at hsent
    exact absurd hsent (by simp)
  · rw [hend trace a h]
    exact hresult

/-- A command that sends the text, and then nothing. -/
theorem SendsWhole.of_request {c : κ} {next : ρ c → Prog κ ρ Int} (hc : carries c = some text)
    (hroom : text.length ≤ room) (hsilent : ∀ r, (next r).Calls (carries · = none)) :
    SendsWhole carries text room (.call c next) := by
  refine ⟨⟨fun sent hsent => ?_, fun r => (hsilent r).imp fun c hc sent hsent => ?_⟩,
    fun hlong => absurd hlong (Nat.not_lt.mpr hroom)⟩
  · rw [hc] at hsent
    exact ⟨(Option.some.inj hsent).symm, hroom⟩
  · rw [hc] at hsent
    exact absurd hsent (by simp)

end Sent

/-- A program that sends nothing. -/
def Silent (p : RemexecProg) : Prop := p.Calls (RemexecCall.carries · = none)

theorem remexecError_silent (line : Text) (result : Int) : Silent (remexecError line result) :=
  ⟨rfl, fun _ => trivial⟩

/-- An error ends the command with its result. -/
theorem remexecError_sendsWhole (line : Text) {result : Int} (hresult : result ≠ 0) (text : Text)
    (room : Nat) : SendsWhole RemexecCall.carries text room (remexecError line result) := by
  refine .of_error (remexecError_silent line result) (fun trace a h => ?_) hresult
  obtain ⟨_, rest, _, hdone⟩ := runs_call.mp h
  exact (runs_done.mp hdone).2.symm

theorem printLines_silent (text : Text) {next : RemexecProg} (h : Silent next) :
    Silent (printLines text next) := by
  unfold printLines
  induction (text.splitOn '\n').filterMap replyLine with
  | nil => exact h
  | cons line lines ih => exact ⟨rfl, fun _ => ih⟩

theorem failed_silent (what : Text) (node : UInt16) (result : Int) :
    Silent (failed what node result) := by
  unfold failed
  split
  · exact remexecError_silent _ _
  · split
    · exact ⟨rfl, fun _ => trivial⟩
    · exact remexecError_silent _ _

section Commands

variable (cfg : RemexecConfig) (shellStrtoul : Text → Nat → Except Int Nat)

theorem printOffered_silent (node : UInt16) (reply : RemexecReply) :
    Silent (printOffered cfg node reply) := by
  refine ⟨rfl, fun _ => ?_⟩
  split
  · exact remexecError_silent _ _
  · split
    · exact ⟨rfl, fun _ => trivial⟩
    · refine printLines_silent _ ?_
      split
      · exact ⟨rfl, fun _ => trivial⟩
      · exact trivial

theorem printOutput_silent (node : UInt16) (line : Text) (reply : RemexecReply) :
    Silent (printOutput cfg node line reply) := by
  refine ⟨rfl, fun _ => ⟨rfl, fun _ => ?_⟩⟩
  split
  · exact remexecError_silent _ _
  · refine ⟨rfl, fun _ => printLines_silent _ ?_⟩
    split
    · exact remexecError_silent _ _
    · exact ⟨rfl, fun _ => trivial⟩

variable {cfg}

/-- Words are joined and the command goes on, or they are refused. -/
theorem withJoined_sendsWhole (line : CArray (cfg.commandMax + 1)) {words : List Text}
    (hw : ∀ w ∈ words, IsArgument w) (next : Text → RemexecProg)
    (hnext : (joinWords words).length ≤ cfg.commandMax →
      SendsWhole RemexecCall.carries (joinWords words) cfg.commandMax (next (joinWords words))) :
    ∃ p, withJoined cfg line words next = some p
      ∧ SendsWhole RemexecCall.carries (joinWords words) cfg.commandMax p := by
  obtain ⟨result, b, hb, hjoined⟩ := joinCommand_spec (Nat.succ_pos _) line words
  unfold withJoined
  rw [hb, Option.map_some]
  refine ⟨_, rfl, ?_⟩
  dsimp only
  by_cases hfits : (joinWords words).length ≤ cfg.commandMax
  · have hresult : result = 0 := hjoined.result_eq.trans (if_pos hfits)
    rw [if_neg (not_not_intro hresult),
      (hjoined.holds_iff.mpr hfits).text (nul_notMem_joinWords hw)]
    exact hnext hfits
  · have hresult : result = -ENAMETOOLONG := hjoined.result_eq.trans (if_neg hfits)
    have hne : result ≠ 0 := by
      rw [hresult]
      decide
    rw [if_pos hne]
    exact remexecError_sendsWhole _ hne _ _

theorem askOffered_sendsWhole (node : UInt16) {text : Text} (h : text.length ≤ cfg.commandMax) :
    SendsWhole RemexecCall.carries text cfg.commandMax (askOffered cfg node text) := by
  refine .of_request rfl h fun r => ?_
  dsimp only
  split
  · exact failed_silent _ _ _
  · exact printOffered_silent cfg node _

theorem askRun_sendsWhole (node : UInt16) {text : Text} (h : text.length ≤ cfg.commandMax) :
    SendsWhole RemexecCall.carries text cfg.commandMax (askRun cfg node text) := by
  unfold askRun
  split
  · exact remexecError_sendsWhole _ (by decide) _ _
  · refine .of_request rfl h fun r => ?_
    dsimp only
    split
    · exact failed_silent _ _ _
    · exact printOutput_silent cfg node _ _

theorem remexecParseNode_error {text : Text} {e : Int}
    (h : remexecParseNode cfg.toParamConfig shellStrtoul text = .error e) : e = -EINVAL :=
  parseNode_error cfg.hk shellStrtoul h

/-- `remexec`, with any content of the arrays. -/
theorem cmdRemexec_sendsWhole (line : CArray (cfg.commandMax + 1)) {argv : List Text}
    (hw : ∀ w ∈ argv.drop 3, IsArgument w) :
    ∃ p, cmdRemexec cfg shellStrtoul line argv = some p
      ∧ SendsWhole RemexecCall.carries (joinWords (argv.drop 3)) cfg.commandMax p := by
  unfold cmdRemexec
  cases hnode : remexecParseNode cfg.toParamConfig shellStrtoul (arg argv 1) with
  | error e =>
    have he : e ≠ 0 := by
      rw [remexecParseNode_error shellStrtoul hnode]
      decide
    exact ⟨_, rfl, remexecError_sendsWhole _ he _ _⟩
  | ok node =>
    dsimp only
    split
    · exact withJoined_sendsWhole line hw _ (askOffered_sendsWhole node)
    · split
      · exact withJoined_sendsWhole line hw _ (askRun_sendsWhole node)
      · exact ⟨_, rfl, remexecError_sendsWhole _ (by decide) _ _⟩

end Commands

/-- `define_remote` sends the entries whole. -/
theorem defineRemote_sendsWhole (cfg : HkConfig) (shellStrtoul : Text → Nat → Except Int Nat)
    {argv : List Text} (hw : ∀ w ∈ defineWords argv, w ≠ []) :
    SendsWhole HkCall.carries (joinWords (defineWords argv)) cfg.commandMaxTextSize
      (defineRemote cfg shellStrtoul argv) := by
  have herror : ∀ e : Int, e ≠ 0 → SendsWhole HkCall.carries (joinWords (defineWords argv))
      cfg.commandMaxTextSize (.done e : HkProg Int) := by
    intro e he
    exact .of_error trivial (fun trace a h => (runs_done.mp h).2.symm) he
  cases hnode : parseNode cfg shellStrtoul (arg argv 1) with
  | error e =>
    unfold defineRemote
    rw [hnode]
    refine herror e ?_
    rw [parseNode_error cfg shellStrtoul hnode]
    decide
  | ok node =>
    rw [defineRemote_eq cfg shellStrtoul hnode hw]
    split
    · rename_i hfits
      exact .of_request rfl hfits fun r => trivial
    · exact herror _ (by decide)

/-! ## §5. Both commands. -/

/-- **Joined whole or refused.**  The two loops leave the words joined by single spaces in their
arrays, with a NUL, exactly when there is room, and store nothing outside; what the commands send
carries all of the words, and words there is no room for are refused before anything is sent. -/
theorem joining_whole (cfg : RemexecConfig) (hmax : cfg.hk.commandMaxTextSize ≤ INT_MAX)
    (shellStrtoul : Text → Nat → Except Int Nat) :
    (∀ (capacity : Nat) (line : CArray capacity) (words : List Text), 0 < capacity →
      (∀ w ∈ words, w ≠ []) → ∃ result joined, joinCommand line words = some (result, joined)
        ∧ Joined (joinWords words) (-ENAMETOOLONG) result joined)
    ∧ (∀ (entries : CArray (cfg.hk.commandMaxTextSize + 1)) (words : List Text),
      (∀ w ∈ words, w ≠ []) →
        ∃ result joined, defineEntriesText entries words = some (result, joined)
          ∧ Joined (joinWords words) (-E2BIG) result joined)
    ∧ (∀ (line : CArray (cfg.commandMax + 1)) (argv : List Text),
      (∀ w ∈ argv.drop 3, IsArgument w) → ∃ p, cmdRemexec cfg shellStrtoul line argv = some p
        ∧ SendsWhole RemexecCall.carries (joinWords (argv.drop 3)) cfg.commandMax p)
    ∧ ∀ (entries : CArray (cfg.hk.commandMaxTextSize + 1)) (argv : List Text),
      (∀ w ∈ defineWords argv, IsArgument w) →
        defineRemoteIn cfg.hk shellStrtoul entries argv
          = some (defineRemote cfg.hk shellStrtoul argv)
        ∧ SendsWhole HkCall.carries (joinWords (defineWords argv)) cfg.hk.commandMaxTextSize
          (defineRemote cfg.hk shellStrtoul argv) := by
  refine ⟨fun capacity line words hcapacity _ => joinCommand_spec hcapacity line words,
    fun entries words hw => ?_, fun line argv hw => ?_, fun entries argv hw => ⟨?_, ?_⟩⟩
  · exact defineEntriesText_spec (Nat.succ_pos _) (Nat.succ_le_succ hmax) entries words hw
  · exact cmdRemexec_sendsWhole shellStrtoul line hw
  · exact defineRemoteIn_eq cfg.hk shellStrtoul hmax entries argv hw
  · exact defineRemote_sendsWhole cfg.hk shellStrtoul fun w h => (hw w h).1

/-- Commands of at most five bytes. -/
def exampleRemexec : RemexecConfig where
  toParamConfig := exampleParams
  commandMax := 5
  statusOk := 0
  statusFailed := 1
  statusName := fun _ => "ok".toList

/-- Two words that leave room for the NUL only. -/
theorem joining_whole_fit :
    (∃ result joined, joinCommand (CArray.blank 6) ["ab".toList, "cd".toList] = some (result, joined)
      ∧ Joined "ab cd".toList (-ENAMETOOLONG) result joined)
    ∧ ∃ p, cmdRemexec exampleRemexec decimalStrtoul (CArray.blank 6)
        ["remexec".toList, "5".toList, "run".toList, "ab".toList, "cd".toList] = some p
      ∧ SendsWhole RemexecCall.carries "ab cd".toList 5 p := by
  have h := joining_whole exampleRemexec (by decide) decimalStrtoul
  exact ⟨h.1 6 (CArray.blank 6) ["ab".toList, "cd".toList] (by decide) (by decide),
    h.2.2.1 (CArray.blank 6) ["remexec".toList, "5".toList, "run".toList, "ab".toList, "cd".toList]
      (by decide)⟩

end KFsw.App
