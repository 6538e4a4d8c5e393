/-
# `Karu.OutputFile` — `os::OutputFile` from `src/platform.cpp`

A temporary file beside a destination, and its publication; the branches for POSIX.
The file system is a map from names to contents.  Other processes may change it
before every call (`others`), but leave a name alone that was created with `O_EXCL`
and is not yet known to anyone (`hidden`).  Whether a call fails, and how much of a
write is taken, is up to the system as well.

What is called is recorded, with the file system before and after: a call that
fails changes nothing and is not in the record.  The record has room for notes of
the program that uses the file.

The destructor removes the temporary file.  That this succeeds is assumed, as it is
for the `unlink` after a `link`.
-/
import Karu.Base.Pieces
import Karu.Base.Program
import Karu.Base.Text
import Karu.Runtime.Files

namespace Karu

open Base

namespace Output

/-! ## The file system -/

/-- What a file holds. -/
abbrev Content := List UInt8

/-- The names, and what they hold. -/
abbrev FileSystem := Text → Option Content

/-- A name with another content, or without one. -/
def FileSystem.put (fs : FileSystem) (name : Text) (content : Option Content) : FileSystem :=
  fun other => if other = name then content else fs other

/-- The values of `errno`, and the members of `std::errc`, that are told apart. -/
inductive Errno where
  | fileExists | noSuchFile | notSupported | operationNotSupported | noSystemCall | notPermitted
  | deviceBusy | invalidArgument | badFileDescriptor | valueTooLarge | ioError
  | other (code : Nat)
deriving DecidableEq, Repr

/-- `hard_links_unavailable`. -/
def hardLinksUnavailable (error : Errno) : Bool :=
  error == .notSupported || error == .operationNotSupported || error == .noSystemCall ||
    error == .notPermitted

/-- The calls of the system that a file makes; `status` changes nothing and is not recorded. -/
inductive Call where
  | status (name : Text)
  | create (name : Text)
  | truncate (size : Nat)
  | pwrite (offset : Nat) (bytes : Content)
  | close
  | link
  | rename
  | remove
deriving DecidableEq, Repr

/-- What is recorded: a call that has succeeded, or a note. -/
inductive Event (ν : Type) where
  | call (call : Call) (before after : FileSystem)
  | note (note : ν)

/-- The rest of the world: other processes, and how the system answers a call. -/
structure Surroundings where
  /-- What others have done to the files before the call of this number. -/
  others : Nat → Option Text → FileSystem → FileSystem
  /-- They leave a hidden name alone. -/
  leave_hidden : ∀ n name fs, others n (some name) fs name = fs name
  /-- The call of this number fails, if it is this one. -/
  fails : Nat → Call → Option Errno
  /-- It is interrupted by a signal. -/
  interrupted : Nat → Bool
  /-- At most so much of a write is taken. -/
  taken : Nat → Nat
  /-- `pid`. -/
  pid : Nat
  /-- `next.fetch_add(1)`. -/
  number : Nat → Nat

/-- The fields of an `OutputFile`; an empty path is none. -/
structure OutputFile where
  fd : Bool := false
  temporary : Text := []
  destination : Text := []
deriving DecidableEq, Repr

/-- The file system, the file, and what has happened. -/
structure World (ν : Type) where
  fs : FileSystem
  file : OutputFile := {}
  /-- The name that others do not know. -/
  hidden : Option Text := none
  calls : Nat := 0
  log : List (Event ν) := []

namespace World

variable {ν : Type}

/-- The others have had their turn. -/
def turn (env : Surroundings) (w : World ν) : World ν :=
  { w with fs := env.others w.calls w.hidden w.fs, calls := w.calls + 1 }

/-- Something is noted. -/
def note (n : ν) (w : World ν) : World ν := { w with log := w.log ++ [.note n] }

/-- A call succeeds. -/
def perform (call : Call) (after : FileSystem) (w : World ν) : World ν :=
  { w with fs := after, log := w.log ++ [.call call w.fs after] }

end World

namespace OutputFile

variable {ν : Type} (env : Surroundings)

/-- A call of the system: `effect` is what it does where the files let it. -/
def system (call : Call) (effect : FileSystem → Except Errno FileSystem) :
    Program (World ν) Errno Unit := fun w =>
  let w' := w.turn env
  match env.fails w.calls call with
  | some e => some (.error e, w')
  | none =>
      match effect w'.fs with
      | .error e => some (.error e, w')
      | .ok after => some (.ok (), w'.perform call after)

/-- `std::filesystem::exists` of a `symlink_status`; that there is no such file is no error. -/
def statusExists (name : Text) : Program (World ν) Errno Bool := fun w =>
  let w' := w.turn env
  match env.fails w.calls (.status name) with
  | some e => if e = .noSuchFile then some (.ok false, w') else some (.error e, w')
  | none => some (.ok (w'.fs name).isSome, w')

/-! ## `create_near` -/

/-- The path of a temporary file. -/
def temporaryName (destination : Text) (number : Nat) : Text :=
  destination ++ (text ".karu.part." ++ decimal env.pid ++ text "." ++ decimal number)

/-- `temporary_.clear()`. -/
def clearTemporary : Program (World ν) Errno Unit :=
  Program.change fun w => { w with file := { w.file with temporary := [] } }

/-- `open` with `O_CREAT | O_EXCL`. -/
def openExclusive (name : Text) (fs : FileSystem) : Except Errno FileSystem :=
  if (fs name).isSome then .error .fileExists else .ok (fs.put name (some []))

/-- One attempt: whether the file is there, or its name was taken. -/
def attempt (destination : Text) : Program (World ν) Errno Bool := fun w =>
  let name := temporaryName env destination (env.number w.calls)
  match system env (.create name) (openExclusive name)
      { w with file := { w.file with temporary := name } } with
  | none => none
  | some (.ok (), w') =>
      some (.ok true, { w' with file := { w'.file with fd := true }, hidden := some name })
  | some (.error e, w') =>
      if e = .fileExists then some (.ok false, w')
      else some (.error e, { w' with file := { w'.file with temporary := [] } })

/-- The loop over the attempts. -/
def attempts (destination : Text) : Nat → Program (World ν) Errno Unit
  | 0 => do
      clearTemporary
      Program.fail .fileExists
  | left + 1 => do
      if ← attempt env destination then pure ()
      else attempts destination left

/-- Whether the destination is in the way. -/
def inTheWay (destination : Text) (overwrite : Bool) : Program (World ν) Errno Bool :=
  if overwrite then pure false else statusExists env destination

/-- `create_near`, for a file that is not in use. -/
def createFresh (destination : Text) (overwrite : Bool) : Program (World ν) Errno Unit := do
  Program.change fun w => { w with file := { w.file with destination } }
  if destination.isEmpty then Program.fail .invalidArgument
  else if ← inTheWay env destination overwrite then Program.fail .fileExists
  else attempts env destination 100

/-- `create_near`. -/
def createNear (destination : Text) (overwrite : Bool) : Program (World ν) Errno Unit := do
  let w ← Program.get
  if w.file.fd || !w.file.temporary.isEmpty then Program.fail .deviceBusy
  else createFresh env destination overwrite

/-! ## Writing -/

/-- The content with this size. -/
def truncated (size : Nat) (content : Content) : Content :=
  content.take size ++ List.replicate (size - content.length) 0

/-- A change of the open file. -/
def onTemporary (f : Content → Content) (name : Text) (fs : FileSystem) :
    Except Errno FileSystem :=
  .ok (fs.put name ((fs name).map f))

/-- `resize`. -/
def resize (size : Nat) : Program (World ν) Errno Unit := do
  let w ← Program.get
  if !w.file.fd then Program.fail .badFileDescriptor
  else if offsetMax < size then Program.fail .valueTooLarge
  else system env (.truncate size) (onTemporary (truncated size) w.file.temporary)

/-- `pwrite`, and how much was written; nothing where a signal came first. -/
def pwrite (bytes : Content) (position : Nat) : Program (World ν) Errno (Option Nat) := fun w =>
  if env.interrupted w.calls then some (.ok none, w.turn env)
  else
    let count := min (env.taken w.calls) bytes.length
    match system env (.pwrite position (bytes.take count))
        (onTemporary (splice 0 · (position, bytes.take count)) w.file.temporary) w with
    | none => none
    | some (.error e, w') => some (.error e, w')
    | some (.ok (), w') => some (.ok (some count), w')

/-- The loop of `write_at`. -/
def writeLoop (bytes : Content) (offset : Nat) : Nat → Nat → Program (World ν) Errno Unit
  | 0, _ => Program.stuck
  | turns + 1, written =>
      if written < bytes.length then
        if maxWord - written < offset then Program.fail .valueTooLarge
        else
          let position := add64 offset written
          if offsetMax < position then Program.fail .valueTooLarge
          else do
            let want := min (bytes.length - written) offsetMax
            match ← pwrite env ((bytes.drop written).take want) position with
            | none => writeLoop bytes offset turns written
            | some count =>
                if count = 0 then Program.fail .ioError
                else writeLoop bytes offset turns (written + count)
      else pure ()

/-- `write_at`, in at most so many turns. -/
def writeAt (turns : Nat) (bytes : Content) (offset : Nat) : Program (World ν) Errno Unit := do
  let w ← Program.get
  if !w.file.fd then Program.fail .badFileDescriptor
  else writeLoop env bytes offset turns 0

/-! ## Publication -/

/-- `close`; the descriptor is gone even if it fails. -/
def close : Program (World ν) Errno Unit := fun w =>
  if w.file.fd then
    system env .close .ok { w with file := { w.file with fd := false } }
  else some (.ok (), w)

/-- What `rename` does. -/
def renamed (temporary destination : Text) (fs : FileSystem) : Except Errno FileSystem :=
  .ok ((fs.put destination (fs temporary)).put temporary none)

/-- What `link` does: it does not replace. -/
def linked (temporary destination : Text) (fs : FileSystem) : Except Errno FileSystem :=
  if (fs destination).isSome then .error .fileExists
  else .ok (fs.put destination (fs temporary))

/-- The temporary file is removed. -/
def removeTemporary (w : World ν) : World ν :=
  let w' := w.turn env
  { w'.perform .remove (w'.fs.put w.file.temporary none) with hidden := none }

/-- `rename` over the destination, after which the name is no longer hidden: it is gone. -/
def publishRename : Program (World ν) Errno Unit := do
  let w ← Program.get
  system env .rename (renamed w.file.temporary w.file.destination)
  Program.change fun w => { w with hidden := none }

/-- The publication that never replaces, where hard links are there; else an atomic `rename`
after a look. -/
def publishLink : Program (World ν) Errno Unit := fun w =>
  match system env .link (linked w.file.temporary w.file.destination) w with
  | none => none
  | some (.ok (), w') => some (.ok (), removeTemporary env w')
  | some (.error e, w') =>
      if hardLinksUnavailable e then
        (do
          if ← statusExists env w.file.destination then Program.fail .fileExists
          else publishRename env) w'
      else some (.error e, w')

/-- The temporary file gets the name of the destination. -/
def publishClosed (overwrite : Bool) : Program (World ν) Errno Unit :=
  if overwrite then publishRename env else publishLink env

/-- `publish`. -/
def publish (overwrite : Bool) : Program (World ν) Errno Unit := do
  close env
  let w ← Program.get
  if w.file.temporary.isEmpty || w.file.destination.isEmpty then Program.fail .badFileDescriptor
  else
    publishClosed env overwrite
    Program.change fun w => { w with file := { w.file with temporary := [], destination := [] } }

/-- `~OutputFile`: whether `close` fails does not matter. -/
def destroy (w : World ν) : World ν :=
  let w' := if w.file.fd then { w.turn env with file := { w.file with fd := false } } else w
  if w'.file.temporary.isEmpty then w' else removeTemporary env w'

/-! ## What the calls leave -/

section Specs

variable {env} {w w' : World ν} {destination : Text}

/-- A call fails and changes nothing, or its effect is there and recorded. -/
theorem system_cases {call : Call} {effect : FileSystem → Except Errno FileSystem}
    {r : Except Errno Unit} (h : system env call effect w = some (r, w')) :
    (∃ e, r = .error e ∧ w' = w.turn env ∧
      (env.fails w.calls call = some e ∨ effect (w.turn env).fs = .error e)) ∨
    (r = .ok () ∧ ∃ after, effect (w.turn env).fs = .ok after ∧
      w' = (w.turn env).perform call after) := by
  unfold system at h
  cases hfails : env.fails w.calls call with
  | some e =>
      rw [hfails] at h
      cases h
      exact Or.inl ⟨e, rfl, rfl, Or.inl rfl⟩
  | none =>
      rw [hfails] at h
      cases heffect : effect (w.turn env).fs with
      | error e =>
          simp only [heffect] at h
          cases h
          exact Or.inl ⟨e, rfl, rfl, Or.inr rfl⟩
      | ok after =>
          simp only [heffect] at h
          cases h
          exact Or.inr ⟨rfl, after, rfl, rfl⟩

theorem statusExists_cases {name : Text} {r : Except Errno Bool}
    (h : statusExists env name w = some (r, w')) : w' = w.turn env := by
  unfold statusExists at h
  simp only at h
  split at h
  · split at h <;> cases h <;> rfl
  · cases h
    rfl

/-- A name is longer than its destination. -/
theorem temporaryName_ne (number : Nat) : temporaryName env destination number ≠ destination := by
  intro h
  have hsuffix := List.append_right_eq_self.mp h
  rw [List.append_eq_nil_iff, List.append_eq_nil_iff] at hsuffix
  exact absurd hsuffix.1.2 (by decide)

theorem temporaryName_ne_nil (number : Nat) : temporaryName env destination number ≠ [] := by
  intro h
  rw [temporaryName, List.append_eq_nil_iff, List.append_eq_nil_iff, List.append_eq_nil_iff] at h
  exact absurd h.2.1.2 (by decide)

/-- The temporary file is there, empty, under a name that nobody else knows. -/
structure Created (env : Surroundings) (destination : Text) (log : List (Event ν)) (temporary : Text)
    (w : World ν) : Prop where
  name : ∃ number, temporary = temporaryName env destination number
  file : w.file = { fd := true, temporary, destination }
  hidden : w.hidden = some temporary
  content : w.fs temporary = some []
  log : ∃ before, w.log = log ++ [.call (.create temporary) before w.fs] ∧
    ∀ name, name ≠ temporary → w.fs name = before name

/-- An attempt makes the file, finds its name taken, or fails. -/
theorem attempt_cases {r : Except Errno Bool} (hfd : w.file.fd = false)
    (hdestination : w.file.destination = destination)
    (h : attempt env destination w = some (r, w')) :
    (r = .ok true ∧ ∃ temporary, Created env destination w.log temporary w') ∨
    (r = .ok false ∧ w'.log = w.log ∧ w'.file.fd = false ∧
      w'.file.destination = destination) ∨
    (∃ e, r = .error e ∧ w'.log = w.log ∧ w'.file.fd = false ∧ w'.file.temporary = []) := by
  unfold attempt at h
  simp only at h
  split at h
  · cases h
  · rename_i t hsystem
    cases h
    rcases system_cases hsystem with ⟨e, hr, -⟩ | ⟨-, after, hafter, rfl⟩
    · cases hr
    · unfold openExclusive at hafter
      split at hafter
      · cases hafter
      · cases hafter
        refine Or.inl ⟨rfl, _, ⟨⟨_, rfl⟩, ?_, rfl, if_pos rfl, _, rfl, fun name hname =>
          if_neg hname⟩⟩
        show OutputFile.mk true _ w.file.destination = _
        rw [hdestination]
        rfl
  · rename_i e t hsystem
    rcases system_cases hsystem with ⟨-, -, rfl, -⟩ | ⟨hr, -⟩
    · split at h
      · cases h
        exact Or.inr (Or.inl ⟨rfl, rfl, hfd, hdestination⟩)
      · cases h
        exact Or.inr (Or.inr ⟨e, rfl, rfl, hfd, rfl⟩)
    · cases hr

theorem attempts_cases : ∀ (left : Nat) {w : World ν} {r : Except Errno Unit},
    w.file.fd = false → w.file.destination = destination →
    attempts env destination left w = some (r, w') →
    (r = .ok () ∧ ∃ temporary, Created env destination w.log temporary w') ∨
    (∃ e, r = .error e ∧ w'.log = w.log ∧ w'.file.fd = false ∧ w'.file.temporary = []) := by
  intro left
  induction left with
  | zero =>
      intro w r hfd _ h
      cases h
      exact Or.inr ⟨_, rfl, rfl, hfd, rfl⟩
  | succ left ih =>
      intro w r hfd hdestination h
      rcases Program.bind_cases h with ⟨e, hattempt, rfl⟩ | ⟨made, t, hattempt, h⟩
      · rcases attempt_cases hfd hdestination hattempt with
          ⟨hr, -⟩ | ⟨hr, -⟩ | ⟨e', -, hlog, hfd', hnone⟩
        · cases hr
        · cases hr
        · exact Or.inr ⟨e, rfl, hlog, hfd', hnone⟩
      · rcases attempt_cases hfd hdestination hattempt with
          ⟨hr, hcreated⟩ | ⟨hr, hlog, hfd', hdestination'⟩ | ⟨e', hr, -⟩
        · cases hr
          cases h
          exact Or.inl ⟨rfl, hcreated⟩
        · cases hr
          rw [← hlog]
          exact ih hfd' hdestination' h
        · cases hr

/-- `create_near` leaves the file, or nothing. -/
theorem createNear_cases {overwrite : Bool} {r : Except Errno Unit} {fs : FileSystem}
    (h : createNear env destination overwrite ({ fs } : World ν) = some (r, w')) :
    (r = .ok () ∧ destination ≠ [] ∧ ∃ temporary, Created env destination [] temporary w') ∨
    (∃ e, r = .error e ∧ w'.log = [] ∧ w'.file.fd = false ∧ w'.file.temporary = []) := by
  have hfresh : createFresh env destination overwrite ({ fs } : World ν) = some (r, w') := h
  obtain ⟨e, hchange, -⟩ | ⟨u, t, hchange, h⟩ := Program.bind_cases hfresh
  · cases hchange
  · cases hchange
    split at h
    · cases h
      exact Or.inr ⟨_, rfl, rfl, rfl, rfl⟩
    · rename_i hempty
      have hquiet : ∀ {present : Except Errno Bool} {t : World ν}, inTheWay env destination overwrite
          { fs, file := { destination } } = some (present, t) →
          t.log = [] ∧ t.file = { destination } := by
        intro present t hlook
        unfold inTheWay at hlook
        split at hlook
        · cases hlook
          exact ⟨rfl, rfl⟩
        · rw [statusExists_cases hlook]
          exact ⟨rfl, rfl⟩
      rcases Program.bind_cases h with ⟨e, hlook, rfl⟩ | ⟨present, t, hlook, h⟩
      · obtain ⟨hlog, hfile⟩ := hquiet hlook
        exact Or.inr ⟨e, rfl, hlog, by rw [hfile], by rw [hfile]⟩
      · obtain ⟨hlog, hfile⟩ := hquiet hlook
        cases present with
        | true =>
            cases h
            exact Or.inr ⟨_, rfl, hlog, by rw [hfile], by rw [hfile]⟩
        | false =>
            rcases attempts_cases 100 (by rw [hfile]) (by rw [hfile]) h with
              ⟨rfl, hcreated⟩ | hfailed
            · rw [hlog] at hcreated
              exact Or.inl ⟨rfl, fun hnil => hempty (by rw [hnil]; rfl), hcreated⟩
            · rw [hlog] at hfailed
              exact Or.inr hfailed

/-! ### Publication -/

/-- Nothing but a `close`, which changes no file. -/
def Quiet (es : List (Event ν)) : Prop := ∀ e ∈ es, ∃ fs, e = .call .close fs fs

theorem turn_hidden {name : Text} (h : w.hidden = some name) :
    (w.turn env).fs name = w.fs name := by
  show env.others w.calls w.hidden w.fs name = _
  rw [h]
  exact env.leave_hidden _ _ _

theorem close_cases {r : Except Errno Unit} (hfd : w.file.fd = true)
    (h : close env w = some (r, w')) :
    w'.file = { w.file with fd := false } ∧ w'.hidden = w.hidden ∧
      (∀ name, w.hidden = some name → w'.fs name = w.fs name) ∧
      ∃ es, w'.log = w.log ++ es ∧ Quiet es := by
  unfold close at h
  rw [if_pos hfd] at h
  rcases system_cases h with ⟨e, -, rfl, -⟩ | ⟨-, after, hafter, rfl⟩
  · refine ⟨rfl, rfl, fun name hname => ?_, [], (List.append_nil _).symm, ?_⟩
    · exact @turn_hidden ν env { w with file := { w.file with fd := false } } name hname
    · intro e hmem
      cases hmem
  · cases hafter
    refine ⟨rfl, rfl, fun name hname => ?_, _, rfl, ?_⟩
    · exact @turn_hidden ν env { w with file := { w.file with fd := false } } name hname
    · intro e hmem
      exact ⟨_, List.mem_singleton.mp hmem⟩

/-- The step at which the destination gets the content; it replaces a file only if that is asked
for, or if there are no hard links. -/
structure Publishes (env : Surroundings) (overwrite : Bool) (temporary destination : Text)
    (content : Content) (call : Call) (before after : FileSystem) : Prop where
  private_content : before temporary = some content
  content : after destination = some content
  kind : call = .link ∧ before destination = none ∨
    call = .rename ∧ (overwrite = true ∨
      ∃ n e, env.fails n .link = some e ∧ hardLinksUnavailable e = true)

/-- What is recorded of a publication. -/
def Publication (env : Surroundings) (overwrite : Bool) (temporary destination : Text)
    (content : Content) (es : List (Event ν)) : Prop :=
  ∃ quiet call before after rest, es = quiet ++ .call call before after :: rest ∧ Quiet quiet ∧
    Publishes env overwrite temporary destination content call before after ∧
    ∀ call before after, .call call before after ∈ rest →
      call = .remove ∧ after destination = before destination

section Publish

variable {overwrite : Bool} {temporary : Text} {content : Content} {r : Except Errno Unit}
  (hne : temporary ≠ destination) (hhidden : w.hidden = some temporary)
  (hcontent : w.fs temporary = some content)
include hne hhidden hcontent

theorem publishRename_cases (htemporary : w.file.temporary = temporary)
    (hdestination : w.file.destination = destination)
    (hreason : overwrite = true ∨
      ∃ n e, env.fails n .link = some e ∧ hardLinksUnavailable e = true)
    (h : publishRename env w = some (r, w')) :
    w'.file = w.file ∧
    ((∃ e, r = .error e) ∧ w'.hidden = w.hidden ∧ w'.log = w.log ∨
      r = .ok () ∧ w'.fs temporary = none ∧ ∃ es, w'.log = w.log ++ es ∧
        Publication env overwrite temporary destination content es) := by
  obtain ⟨e, hget, -⟩ | ⟨v, t, hget, h⟩ := Program.bind_cases h
  · cases hget
  · cases hget
    obtain ⟨e, hsystem, rfl⟩ | ⟨u, t, hsystem, h⟩ := Program.bind_cases h
    · rcases system_cases hsystem with ⟨-, -, rfl, -⟩ | ⟨hr, -⟩
      · exact ⟨rfl, Or.inl ⟨⟨e, rfl⟩, rfl, rfl⟩⟩
      · cases hr
    · rcases system_cases hsystem with ⟨e, hr, -⟩ | ⟨-, after, hafter, rfl⟩
      · cases hr
      · cases h
        rw [htemporary, hdestination] at hafter
        cases hafter
        have hprivate := (@turn_hidden ν env w _ hhidden).trans hcontent
        refine ⟨rfl, Or.inr ⟨rfl, if_pos rfl, _, rfl, [], _, _, _, [], rfl, ?_, ⟨hprivate, ?_, ?_⟩,
          ?_⟩⟩
        · intro e hmem
          cases hmem
        · show (if destination = temporary then _ else if destination = destination then _ else _) = _
          rw [if_neg (Ne.symm hne), if_pos rfl, hprivate]
        · exact Or.inr ⟨rfl, hreason⟩
        · intro call before after hmem
          cases hmem

theorem publishLink_cases (htemporary : w.file.temporary = temporary)
    (hdestination : w.file.destination = destination)
    (h : publishLink env w = some (r, w')) :
    w'.file = w.file ∧
    ((∃ e, r = .error e) ∧ w'.hidden = w.hidden ∧ w'.log = w.log ∨
      r = .ok () ∧ w'.fs temporary = none ∧ ∃ es, w'.log = w.log ++ es ∧
        Publication env overwrite temporary destination content es) := by
  have hprivate := (@turn_hidden ν env w _ hhidden).trans hcontent
  unfold publishLink at h
  split at h
  · cases h
  · rename_i t hsystem
    cases h
    rcases system_cases hsystem with ⟨e, hr, -⟩ | ⟨-, after, hafter, rfl⟩
    · cases hr
    · rw [htemporary, hdestination] at hafter
      unfold linked at hafter
      split at hafter
      · cases hafter
      · rename_i hfree
        cases hafter
        refine ⟨rfl, Or.inr ⟨rfl, ?_, [_, _], List.append_assoc _ _ _, [], _, _, _, [_], rfl, ?_,
          ⟨hprivate, ?_, ?_⟩, ?_⟩⟩
        · rw [← htemporary]
          exact if_pos rfl
        · intro e hmem
          cases hmem
        · show (if destination = destination then _ else _) = _
          rw [if_pos rfl, hprivate]
        · exact Or.inl ⟨rfl, by simpa using hfree⟩
        · intro call before after hmem
          cases List.mem_singleton.mp hmem
          refine ⟨rfl, ?_⟩
          show (if destination = w.file.temporary then _ else _) = _
          rw [htemporary, if_neg (Ne.symm hne)]
  · rename_i e t hsystem
    rcases system_cases hsystem with ⟨e', hr, rfl, hwhy⟩ | ⟨hr, -⟩
    · cases hr
      split at h
      · rename_i hunavailable
        -- A destination that exists is `EEXIST`, which is no reason for the fallback.
        have hfails : env.fails w.calls .link = some e := by
          rcases hwhy with hfails | hlinked
          · exact hfails
          · unfold linked at hlinked
            split at hlinked
            · cases hlinked
              cases hunavailable
            · cases hlinked
        obtain ⟨e', hlook, rfl⟩ | ⟨present, t, hlook, h⟩ := Program.bind_cases h
        · rw [statusExists_cases hlook]
          exact ⟨rfl, Or.inl ⟨⟨e', rfl⟩, rfl, rfl⟩⟩
        · cases statusExists_cases hlook
          cases present with
          | true =>
              cases h
              exact ⟨rfl, Or.inl ⟨⟨_, rfl⟩, rfl, rfl⟩⟩
          | false =>
              have hturned : ((w.turn env).turn env).fs temporary = some content :=
                (turn_hidden (w := w.turn env) hhidden).trans hprivate
              exact publishRename_cases (w := (w.turn env).turn env) hne hhidden hturned htemporary
                hdestination (Or.inr ⟨w.calls, e, hfails, hunavailable⟩) h
      · cases h
        exact ⟨rfl, Or.inl ⟨⟨e, rfl⟩, rfl, rfl⟩⟩
    · cases hr

/-- `publish` fails and nothing has changed, or the destination has the content. -/
theorem publish_cases (htemporary : temporary ≠ []) (hdestination : destination ≠ [])
    (hfile : w.file = { fd := true, temporary, destination })
    (h : publish env overwrite w = some (r, w')) :
    w'.file.fd = false ∧
    ((∃ e, r = .error e) ∧ w'.file.temporary = temporary ∧ w'.hidden = some temporary ∧
        (∃ es, w'.log = w.log ++ es ∧ Quiet es) ∨
      r = .ok () ∧ w'.file.temporary = [] ∧ w'.fs temporary = none ∧
        ∃ es, w'.log = w.log ++ es ∧ Publication env overwrite temporary destination content es) := by
  have hfd : w.file.fd = true := by rw [hfile]
  obtain ⟨e, hclose, rfl⟩ | ⟨u, t, hclose, h⟩ := Program.bind_cases h
  · obtain ⟨hclosed, hkept, -, hquiet⟩ := close_cases hfd hclose
    refine ⟨by rw [hclosed], Or.inl ⟨⟨e, rfl⟩, ?_, hkept.trans hhidden, hquiet⟩⟩
    rw [hclosed, hfile]
  · obtain ⟨hclosed, hkept, hsame, quiet, hlog, hquiet⟩ := close_cases hfd hclose
    have htemp : t.file.temporary = temporary := by rw [hclosed, hfile]
    have hdest : t.file.destination = destination := by rw [hclosed, hfile]
    obtain ⟨e, hget, -⟩ | ⟨v, t', hget, h⟩ := Program.bind_cases h
    · cases hget
    · cases hget
      split at h
      · rename_i hempty
        rw [htemp, hdest, Bool.or_eq_true, List.isEmpty_iff, List.isEmpty_iff] at hempty
        exact absurd hempty (not_or.mpr ⟨htemporary, hdestination⟩)
      · have hcases : ∀ {r : Except Errno Unit} {t' : World ν},
            publishClosed env overwrite t = some (r, t') → t'.file = t.file ∧
            ((∃ e, r = .error e) ∧ t'.hidden = t.hidden ∧ t'.log = t.log ∨
              r = .ok () ∧ t'.fs temporary = none ∧ ∃ es, t'.log = t.log ++ es ∧
                Publication env overwrite temporary destination content es) := by
          intro r t' hpublish
          unfold publishClosed at hpublish
          split at hpublish
          · rename_i hoverwrite
            exact publishRename_cases hne (hkept.trans hhidden)
              ((hsame _ hhidden).trans hcontent) htemp hdest (Or.inl hoverwrite) hpublish
          · exact publishLink_cases hne (hkept.trans hhidden)
              ((hsame _ hhidden).trans hcontent) htemp hdest hpublish
        have hfalse : t.file.fd = false := by rw [hclosed]
        obtain ⟨e, hpublish, rfl⟩ | ⟨u, t', hpublish, h⟩ := Program.bind_cases h
        · obtain ⟨hsame', ⟨-, hkept', hlog'⟩ | ⟨hr, -⟩⟩ := hcases hpublish
          · refine ⟨by rw [hsame', hfalse], Or.inl ⟨⟨e, rfl⟩, by rw [hsame', htemp],
              hkept'.trans (hkept.trans hhidden), quiet, hlog'.trans hlog, hquiet⟩⟩
          · cases hr
        · obtain ⟨hsame', ⟨⟨e, hr⟩, -⟩ | ⟨-, hgone, es, hlog', hpublication⟩⟩ := hcases hpublish
          · cases hr
          · cases h
            obtain ⟨quiet', call, before, after, rest, rfl, hquiet', hstep, hrest⟩ := hpublication
            refine ⟨by rw [← hfalse, ← hsame'], Or.inr ⟨rfl, rfl, hgone, quiet ++ (quiet' ++ _),
              ?_, quiet ++ quiet', call, before, after, rest, (List.append_assoc _ _ _).symm, ?_,
              hstep, hrest⟩⟩
            · rw [← List.append_assoc, ← hlog]
              exact hlog'
            · intro e hmem
              rcases List.mem_append.mp hmem with hmem | hmem
              · exact hquiet e hmem
              · exact hquiet' e hmem

end Publish

/-- The destructor of a file that was not published removes it. -/
theorem destroy_removes {temporary : Text} (hne : temporary ≠ [])
    (h : w.file.temporary = temporary) :
    (destroy env w).fs temporary = none ∧
      ∃ before, (destroy env w).log = w.log ++
        [.call .remove before (before.put temporary none)] := by
  subst h
  have hopen : w.file.temporary.isEmpty = false := by
    rw [Bool.eq_false_iff, ne_eq, List.isEmpty_iff]
    exact hne
  unfold destroy
  split
  · simp only [hopen, Bool.false_eq_true, if_false]
    exact ⟨if_pos rfl, _, rfl⟩
  · simp only [hopen, Bool.false_eq_true, if_false]
    exact ⟨if_pos rfl, _, rfl⟩

theorem destroy_published (hfd : w.file.fd = false) (h : w.file.temporary = []) :
    destroy env w = w := by
  unfold destroy
  rw [hfd]
  simp only [Bool.false_eq_true, if_false, h, List.isEmpty_nil, if_true]

end Specs

end OutputFile

end Output

end Karu
