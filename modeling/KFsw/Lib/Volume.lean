/-
  KFsw.Lib.Volume — files that are created, written, read and removed, where any
  operation may fail.

  A volume holds contents by path, and a program has files open by its own
  variables, each at a position.  `Does v op outcome v'` is what an operation can
  do: what is asked of it, a part of it, or nothing, with the outcome that says
  so.  The paths, the variables and the elements of the contents are any types.

  Main results:
    * `Does.elsewhere`   — an operation leaves every path alone that it does not
      touch;
    * `writing_written`  — what a file that is being written holds;
    * `chunk_reading`, `reading_advanced` — a file that is being read gives its
      contents piece by piece.
-/
import Mathlib.Data.List.TakeDrop
import Mathlib.Logic.Function.Basic

namespace KFsw.Lib

/-- An open file. -/
structure Handle (π : Type) where
  path : π
  position : Nat

/-- The contents by path, and what is open by the variables of a program. -/
structure Volume (π φ β : Type) where
  files : π → Option (List β)
  handles : φ → Option (Handle π)

/-- `data` in place of what stands at a position. -/
def overwrite {β : Type} (contents : List β) (position : Nat) (data : List β) : List β :=
  contents.take position ++ data ++ contents.drop (position + data.length)

/-- An operation on a volume. -/
inductive VolumeOp (π φ β : Type) where
  | openRead (file : φ) (path : π)
  | create (file : φ) (path : π)
  | write (file : φ) (data : List β)
  | read (file : φ) (size : Nat)
  | sync (file : φ)
  | close (file : φ)
  | unlink (path : π)

/-- How an operation ends; a read gives elements, and a write may stop before its end. -/
inductive Outcome (β : Type) where
  | whole
  | gave (data : List β)
  | short (n : Nat)
  | failed

namespace Volume

variable {π φ β : Type}

/-- What a read of so many elements gives. -/
def chunk (v : Volume π φ β) (file : φ) (size : Nat) : List β :=
  match v.handles file with
  | none => []
  | some h => (((v.files h.path).getD []).drop h.position).take size

/-- The file is open at a position of its contents. -/
structure Reading (v : Volume π φ β) (file : φ) (path : π) (contents : List β) (position : Nat) :
    Prop where
  handle : v.handles file = some ⟨path, position⟩
  contents : v.files path = some contents

/-- The file is open at the end of its contents. -/
structure Writing (v : Volume π φ β) (file : φ) (path : π) (contents : List β) : Prop where
  handle : v.handles file = some ⟨path, contents.length⟩
  contents : v.files path = some contents

/-- Two volumes that hold the same but for one path. -/
def SameElsewhere (path : π) (v v' : Volume π φ β) : Prop := ∀ p, p ≠ path → v'.files p = v.files p

theorem SameElsewhere.trans {path : π} {v v' v'' : Volume π φ β} (h : SameElsewhere path v v')
    (h' : SameElsewhere path v' v'') : SameElsewhere path v v'' :=
  fun p hp => (h' p hp).trans (h p hp)

/-- **A read gives the next piece of the contents.** -/
theorem chunk_reading {v : Volume π φ β} {file : φ} {path : π} {contents : List β}
    {position : Nat} (h : v.Reading file path contents position) (size : Nat) :
    v.chunk file size = (contents.drop position).take size := by
  unfold chunk
  rw [h.handle]
  dsimp only
  rw [h.contents, Option.getD_some]

theorem overwrite_length (contents data : List β) :
    overwrite contents contents.length data = contents ++ data := by
  rw [overwrite, List.take_length, List.drop_eq_nil_of_le (Nat.le_add_right _ _),
    List.append_nil]

/-! ## §1. What is open. -/

section Handles

variable [DecidableEq φ]

def opened (v : Volume π φ β) (file : φ) (path : π) : Volume π φ β :=
  { v with handles := Function.update v.handles file (some ⟨path, 0⟩) }

def advanced (v : Volume π φ β) (file : φ) (n : Nat) : Volume π φ β :=
  { v with
    handles := Function.update v.handles file
      ((v.handles file).map fun h => { h with position := h.position + n }) }

def closed (v : Volume π φ β) (file : φ) : Volume π φ β :=
  { v with handles := Function.update v.handles file none }

theorem reading_opened {v : Volume π φ β} {path : π} {contents : List β}
    (h : v.files path = some contents) (file : φ) :
    (v.opened file path).Reading file path contents 0 :=
  ⟨Function.update_self _ _ _, h⟩

theorem reading_advanced {v : Volume π φ β} {file : φ} {path : π} {contents : List β}
    {position : Nat} (h : v.Reading file path contents position) (n : Nat) :
    (v.advanced file n).Reading file path contents (position + n) := by
  refine ⟨?_, h.contents⟩
  unfold advanced
  rw [h.handle]
  exact Function.update_self _ _ _

/-- Another file is read on where it was. -/
theorem reading_advanced_other {v : Volume π φ β} {file other : φ} {path : π} {contents : List β}
    {position : Nat} (h : v.Reading file path contents position) (hne : file ≠ other) (n : Nat) :
    (v.advanced other n).Reading file path contents position :=
  ⟨(Function.update_of_ne hne _ _).trans h.handle, h.contents⟩

theorem reading_opened_other {v : Volume π φ β} {file other : φ} {path : π} {contents : List β}
    {position : Nat} (h : v.Reading file path contents position) (hne : file ≠ other) (p : π) :
    (v.opened other p).Reading file path contents position :=
  ⟨(Function.update_of_ne hne _ _).trans h.handle, h.contents⟩

end Handles

/-! ## §2. What is there. -/

section Files

variable [DecidableEq π]

/-- An empty file, whatever was there. -/
def emptied (v : Volume π φ β) (path : π) : Volume π φ β :=
  { v with files := Function.update v.files path (some []) }

def unlinked (v : Volume π φ β) (path : π) : Volume π φ β :=
  { v with files := Function.update v.files path none }

theorem emptied_files_of_ne {v : Volume π φ β} {path p : π} (h : p ≠ path) :
    (v.emptied path).files p = v.files p := Function.update_of_ne h _ _

theorem unlinked_files_of_ne {v : Volume π φ β} {path p : π} (h : p ≠ path) :
    (v.unlinked path).files p = v.files p := Function.update_of_ne h _ _

theorem unlinked_files_self (v : Volume π φ β) (path : π) : (v.unlinked path).files path = none :=
  Function.update_self _ _ _

end Files

/-! ## §3. Writing. -/

section Both

variable [DecidableEq π] [DecidableEq φ]

def created (v : Volume π φ β) (file : φ) (path : π) : Volume π φ β :=
  (v.emptied path).opened file path

def written (v : Volume π φ β) (file : φ) (data : List β) : Volume π φ β :=
  match v.handles file with
  | none => v
  | some h =>
    { files := Function.update v.files h.path
        ((v.files h.path).map fun contents => overwrite contents h.position data)
      handles := Function.update v.handles file (some ⟨h.path, h.position + data.length⟩) }

theorem written_files_of_ne {v : Volume π φ β} {file : φ} {p : π} (data : List β)
    (h : ∀ handle, v.handles file = some handle → p ≠ handle.path) :
    (v.written file data).files p = v.files p := by
  unfold written
  split
  · rfl
  · rename_i handle hhandle
    exact Function.update_of_ne (h handle hhandle) _ _

theorem writing_created (v : Volume π φ β) (file : φ) (path : π) :
    (v.created file path).Writing file path [] := by
  constructor
  · exact Function.update_self _ _ _
  · exact Function.update_self _ _ _

/-- **Writing puts the data behind what is there.** -/
theorem writing_written {v : Volume π φ β} {file : φ} {path : π} {contents : List β}
    (h : v.Writing file path contents) (data : List β) :
    (v.written file data).Writing file path (contents ++ data) := by
  have hwritten : v.written file data
      = { files := Function.update v.files path (some (contents ++ data))
          handles := Function.update v.handles file (some ⟨path, (contents ++ data).length⟩) } := by
    unfold written
    rw [h.handle]
    dsimp only
    rw [h.contents, Option.map_some, overwrite_length, List.length_append]
  rw [hwritten]
  constructor
  · exact Function.update_self _ _ _
  · exact Function.update_self _ _ _

/-! ## §4. Operations. -/

/-- **What an operation can do.** -/
inductive Does (v : Volume π φ β) : VolumeOp π φ β → Outcome β → Volume π φ β → Prop
  | openRead {file : φ} {path : π} (exists_file : (v.files path).isSome) :
      Does v (.openRead file path) .whole (v.opened file path)
  | create {file : φ} {path : π} : Does v (.create file path) .whole (v.created file path)
  | write {file : φ} {data : List β} : Does v (.write file data) .whole (v.written file data)
  | writeShort {file : φ} {data : List β} {n : Nat} (hn : n < data.length) :
      Does v (.write file data) (.short n) (v.written file (data.take n))
  | read {file : φ} {size : Nat} :
      Does v (.read file size) (.gave (v.chunk file size))
        (v.advanced file (v.chunk file size).length)
  | sync {file : φ} : Does v (.sync file) .whole v
  | close {file : φ} : Does v (.close file) .whole (v.closed file)
  | unlink {path : π} (exists_file : (v.files path).isSome) :
      Does v (.unlink path) .whole (v.unlinked path)
  | failed {op : VolumeOp π φ β} : Does v op .failed v
  -- an operation that fails may have begun
  | createFailed {file : φ} {path : π} : Does v (.create file path) .failed (v.emptied path)
  | writeFailed {file : φ} {data : List β} (n : Nat) :
      Does v (.write file data) .failed (v.written file (data.take n))
  | unlinkFailed {path : π} : Does v (.unlink path) .failed (v.unlinked path)

/-- Whether an operation touches the contents of a path. -/
def Touches (v : Volume π φ β) (p : π) : VolumeOp π φ β → Prop
  | .create _ path => p = path
  | .unlink path => p = path
  | .write file _ => ∃ h, v.handles file = some h ∧ p = h.path
  | _ => False

/-- **An operation leaves every path alone that it does not touch.** -/
theorem Does.elsewhere {v v' : Volume π φ β} {op : VolumeOp π φ β} {outcome : Outcome β}
    (h : v.Does op outcome v') {p : π} (hp : ¬ v.Touches p op) : v'.files p = v.files p := by
  cases h with
  | openRead _ => rfl
  | create => exact emptied_files_of_ne hp
  | write => exact written_files_of_ne _ fun handle hh heq => hp ⟨handle, hh, heq⟩
  | writeShort _ => exact written_files_of_ne _ fun handle hh heq => hp ⟨handle, hh, heq⟩
  | read => rfl
  | sync => rfl
  | close => rfl
  | unlink _ => exact unlinked_files_of_ne hp
  | failed => rfl
  | createFailed => exact emptied_files_of_ne hp
  | writeFailed n => exact written_files_of_ne _ fun handle hh heq => hp ⟨handle, hh, heq⟩
  | unlinkFailed => exact unlinked_files_of_ne hp

/-- **A write** puts some of the data behind what is there, and all of it where it is whole. -/
theorem Does.write_writing {v v' : Volume π φ β} {file : φ} {path : π} {contents data : List β}
    {outcome : Outcome β} (hwriting : v.Writing file path contents)
    (h : v.Does (.write file data) outcome v') :
    ∃ n, v'.Writing file path (contents ++ data.take n)
      ∧ (outcome = .whole → data.take n = data) := by
  cases h with
  | write =>
    refine ⟨data.length, ?_, fun _ => List.take_length⟩
    rw [List.take_length]
    exact writing_written hwriting data
  | @writeShort _ _ n hn => exact ⟨n, writing_written hwriting _, fun h => by cases h⟩
  | failed =>
    refine ⟨0, ?_, fun h => by cases h⟩
    rwa [List.take_zero, List.append_nil]
  | writeFailed n => exact ⟨n, writing_written hwriting _, fun h => by cases h⟩

end Both

end Volume

end KFsw.Lib
