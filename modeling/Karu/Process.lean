/-
# `Karu.Process` — `src/process.cpp`, a command and what it holds

`run_command` runs a shell command with its output in a pipe, on POSIX.  It holds the two
ends of the pipe and, once it is started, the child; it reads until the pipe is closed and
the child has been waited for, unless there is too much output, the time is over or a
system call fails.

An event is a system call with its answer, or a look at the clock.  `acts` is what has been
done to the pipe and the child, and `delivered` all that `read` has returned; nothing reads
them.  `terminate_process` is two signals and a wait that ends when the child is gone, and at
once where it had been waited for before.
-/
import Karu.Base.System
import Karu.Backends.Credentials

namespace Karu

open Base

namespace Process

open Backends (CommandResult)

/-! ## The call -/

/-- What is done to the pipe and the child. -/
inductive Act where
  | pipe | closeRead | closeWrite | spawn | kill | reap
deriving DecidableEq

/-- What `waitpid` says about a child that has ended. -/
inductive Exit where
  | exited (code : Nat)
  | signaled (signal : Nat)
deriving DecidableEq

def Exit.code : Exit → Int
  | .exited code => code
  | .signaled signal => 128 + signal

inductive Phase where
  | start
  | piped
  | prepared
  | spawned
  | reading
  | waiting
  | timing
  | polling
  | returned (result : Except Nat CommandResult)

structure State where
  phase : Phase
  output : Text := []
  pipeClosed : Bool := false
  /-- `child_finished`, with the status. -/
  finished : Option Exit := none
  acts : List Act := []
  delivered : Text := []

inductive ReadAnswer where
  | data (bytes : Text)
  | closed
  /-- `EAGAIN` or `EINTR`. -/
  | later
  | failed (errno : Nat)

inductive WaitAnswer where
  | ended (exit : Exit)
  /-- No change yet, or `EINTR`. -/
  | later
  | failed (errno : Nat)

inductive Event where
  | pipe (error : Option Nat)
  /-- `setup_spawn`. -/
  | setup (error : Option Nat)
  /-- `posix_spawn`, and the end of what it was given. -/
  | spawn (error : Option Nat)
  /-- The two calls of `fcntl`. -/
  | nonblock (error : Option Nat)
  | read (answer : ReadAnswer)
  | wait (answer : WaitAnswer)
  | clock (passed : Bool)
  | poll

namespace State

/-- `terminate_process`. -/
def terminated (s : State) : List Act := if s.finished.isSome then [.kill] else [.kill, .reap]

/-- The call returns, and closes the reading end on the way. -/
def return_ (s : State) (acts : List Act) (result : Except Nat CommandResult) : State :=
  { s with phase := .returned result, acts := s.acts ++ acts ++ [.closeRead] }

/-- What comes behind the reads of a turn. -/
def wait (s : State) : State := { s with phase := if s.finished.isSome then .timing else .waiting }

/-- A turn of the loop. -/
def turn (s : State) : State := if s.pipeClosed then s.wait else { s with phase := .reading }

end State

/-- `EINVAL`. -/
def invalidArgument : Nat := 22

section Call

variable (command : Text) (outputLimit : Nat) (haveTimeout : Bool)

/-- One event of `run_command`. -/
def State.step (s : State) : Event → Option State
  | .pipe error =>
      match s.phase, error with
      | .start, some e => some { s with phase := .returned (.error e) }
      | .start, none => some { s with phase := .piped, acts := s.acts ++ [.pipe] }
      | _, _ => none
  | .setup error =>
      match s.phase, error with
      | .piped, some e =>
          some { s with phase := .returned (.error e), acts := s.acts ++ [.closeRead, .closeWrite] }
      | .piped, none => some { s with phase := .prepared }
      | _, _ => none
  | .spawn error =>
      match s.phase, error with
      | .prepared, some e => some (s.return_ [.closeWrite] (.error e))
      | .prepared, none =>
          some { s with phase := .spawned, acts := s.acts ++ [.spawn, .closeWrite] }
      | _, _ => none
  | .nonblock error =>
      match s.phase, error with
      | .spawned, some e => some (s.return_ s.terminated (.error e))
      | .spawned, none => some s.turn
      | _, _ => none
  | .read answer =>
      match s.phase, answer with
      | .reading, .data bytes =>
          if outputLimit - min outputLimit s.output.length < bytes.length then
            some ({ s with delivered := s.delivered ++ bytes }.return_ s.terminated
              (.ok { output := s.output, outputLimitExceeded := true }))
          else
            some { s with output := s.output ++ bytes, delivered := s.delivered ++ bytes }
      | .reading, .closed => some { s with pipeClosed := true }.wait
      | .reading, .later => some s.wait
      | .reading, .failed e => some (s.return_ s.terminated (.error e))
      | _, _ => none
  | .wait answer =>
      match s.phase, answer with
      | .waiting, .ended exit =>
          some { s with phase := .timing, finished := some exit, acts := s.acts ++ [.reap] }
      | .waiting, .later => some { s with phase := .timing }
      | .waiting, .failed e => some (s.return_ [.kill] (.error e))
      | _, _ => none
  | .clock passed =>
      match s.phase with
      | .timing =>
          if haveTimeout && passed then
            some (s.return_ s.terminated (.ok { output := s.output, timedOut := true }))
          else
            match s.pipeClosed, s.finished with
            | true, some exit =>
                some (s.return_ [] (.ok { output := s.output, exitCode := exit.code }))
            | _, _ => some { s with phase := .polling }
      | _ => none
  | .poll =>
      match s.phase with
      | .polling => some s.turn
      | _ => none

/-- `run_command`. -/
def runCommand : System State Event where
  start :=
    { phase := if command.isEmpty || command.contains 0 then .returned (.error invalidArgument)
               else .start }
  step := State.step outputLimit haveTimeout

end Call

/-! ## What is held -/

/-- Behind the return of the call: each end of the pipe has been closed once, and the child has
been waited for once, unless `waitpid` itself failed; then it was sent a signal. -/
structure Released (acts : List Act) (result : Except Nat CommandResult) : Prop where
  pipe_once : acts.count .pipe ≤ 1
  child_once : acts.count .spawn ≤ 1
  read_closed : acts.count .closeRead = acts.count .pipe
  write_closed : acts.count .closeWrite = acts.count .pipe
  reaped : acts.count .reap = acts.count .spawn ∨
    acts.count .reap = 0 ∧ Act.kill ∈ acts ∧ ∃ e, result = .error e

/-- A result is about what was read, and says how the child ended where it is not cut short. -/
structure Reported (outputLimit : Nat) (s : State) (result : CommandResult) : Prop where
  within : result.output.length ≤ outputLimit
  read : result.output <+: s.delivered
  complete : result.timedOut = false → result.outputLimitExceeded = false →
    result.output = s.delivered ∧ s.pipeClosed = true ∧
      ∃ exit, s.finished = some exit ∧ result.exitCode = exit.code

/-- The output so far is all that was read. -/
def State.Kept (outputLimit : Nat) (s : State) : Prop :=
  s.output = s.delivered ∧ s.output.length ≤ outputLimit

/-- What has been done inside the loop. -/
def State.loopActs (s : State) : List Act :=
  [.pipe, .spawn, .closeWrite] ++ if s.finished.isSome then [.reap] else []

/-- What holds between two events. -/
def State.Standing (outputLimit : Nat) (s : State) : Prop :=
  match s.phase with
  | .start => s.acts = [] ∧ s.finished = none ∧ s.Kept outputLimit
  | .piped | .prepared => s.acts = [.pipe] ∧ s.finished = none ∧ s.Kept outputLimit
  | .spawned => s.acts = s.loopActs ∧ s.finished = none ∧ s.Kept outputLimit
  | .waiting => s.acts = s.loopActs ∧ s.finished = none ∧ s.Kept outputLimit
  | .reading | .timing | .polling => s.acts = s.loopActs ∧ s.Kept outputLimit
  | .returned result => Released s.acts result ∧ ∀ r, result = .ok r → Reported outputLimit s r

variable {outputLimit : Nat} {haveTimeout : Bool}

/-- Calls that give back all that they took. -/
theorem Released.of_counts {acts : List Act} (result : Except Nat CommandResult)
    (h : acts.count .pipe ≤ 1 ∧ acts.count .spawn ≤ 1 ∧
      acts.count .closeRead = acts.count .pipe ∧ acts.count .closeWrite = acts.count .pipe ∧
      acts.count .reap = acts.count .spawn) : Released acts result := by
  obtain ⟨hpipe, hchild, hread, hwrite, hreaped⟩ := h
  exact ⟨hpipe, hchild, hread, hwrite, Or.inl hreaped⟩

theorem State.released_terminated {s : State} (h : s.acts = s.loopActs)
    (result : Except Nat CommandResult) :
    Released (s.acts ++ s.terminated ++ [.closeRead]) result := by
  rw [h, State.loopActs, State.terminated]
  generalize s.finished.isSome = waited
  cases waited with
  | false => exact .of_counts result (by decide)
  | true => exact .of_counts result (by decide)

/-- A failure has nothing to report. -/
theorem reported_error {s : State} {e : Nat} (r : CommandResult)
    (h : (Except.error e : Except Nat CommandResult) = .ok r) : Reported outputLimit s r := by
  cases h

theorem State.standing_wait {s : State} (h : s.acts = s.loopActs) (hkept : s.Kept outputLimit) :
    s.wait.Standing outputLimit := by
  obtain ⟨phase, output, pipeClosed, finished, acts, delivered⟩ := s
  cases finished with
  | none => exact ⟨h, rfl, hkept⟩
  | some exit => exact ⟨h, hkept⟩

theorem State.standing_turn {s : State} (h : s.acts = s.loopActs) (hkept : s.Kept outputLimit) :
    s.turn.Standing outputLimit := by
  rw [State.turn]
  cases s.pipeClosed with
  | false => exact ⟨h, hkept⟩
  | true => exact State.standing_wait h hkept

theorem State.standing_read {s s' : State} {answer : ReadAnswer} (hs : s.Standing outputLimit)
    (h : s.step outputLimit haveTimeout (.read answer) = some s') :
    s'.Standing outputLimit := by
  obtain ⟨phase, output, pipeClosed, finished, acts, delivered⟩ := s
  cases phase with
  | reading =>
      obtain ⟨hacts, hkept⟩ := hs
      cases answer with
      | data bytes =>
          obtain ⟨hread, hwithin⟩ := hkept
          dsimp only at hread hwithin
          simp only [State.step] at h
          split_ifs at h with hmuch
          · cases h
            refine ⟨State.released_terminated hacts _, ?_⟩
            rintro r ⟨⟩
            refine ⟨hwithin, ?_, fun _ hcut => (by cases hcut)⟩
            show output <+: delivered ++ bytes
            rw [hread]
            exact List.prefix_append delivered bytes
          · cases h
            refine ⟨hacts, ?_, ?_⟩
            · show output ++ bytes = delivered ++ bytes
              rw [hread]
            · show (output ++ bytes).length ≤ outputLimit
              rw [List.length_append]
              omega
      | closed =>
          cases h
          exact State.standing_wait hacts hkept
      | later =>
          cases h
          exact State.standing_wait hacts hkept
      | failed e =>
          cases h
          exact ⟨State.released_terminated hacts _, reported_error⟩
  | start | piped | prepared | spawned | waiting | timing | polling | returned _ => cases h

theorem State.standing_wait_answer {s s' : State} {answer : WaitAnswer}
    (hs : s.Standing outputLimit) (h : s.step outputLimit haveTimeout (.wait answer) = some s') :
    s'.Standing outputLimit := by
  obtain ⟨phase, output, pipeClosed, finished, acts, delivered⟩ := s
  cases phase with
  | waiting =>
      obtain ⟨hacts, hfinished, hkept⟩ := hs
      dsimp only at hfinished
      subst hfinished
      have hthree : acts = [.pipe, .spawn, .closeWrite] := hacts
      subst hthree
      cases answer with
      | ended exit =>
          cases h
          exact ⟨rfl, hkept⟩
      | later =>
          cases h
          exact ⟨rfl, hkept⟩
      | failed e =>
          cases h
          have hcounts : [Act.pipe, .spawn, .closeWrite, .kill, .closeRead].count .reap = 0 ∧
              Act.kill ∈ [Act.pipe, .spawn, .closeWrite, .kill, .closeRead] := by decide
          have hreleased : Released [.pipe, .spawn, .closeWrite, .kill, .closeRead]
              (.error e) :=
            ⟨by decide, by decide, by decide, by decide, Or.inr ⟨hcounts.1, hcounts.2, e, rfl⟩⟩
          exact ⟨hreleased, reported_error⟩
  | start | piped | prepared | spawned | reading | timing | polling | returned _ => cases h

theorem State.standing_clock {s s' : State} {passed : Bool} (hs : s.Standing outputLimit)
    (h : s.step outputLimit haveTimeout (.clock passed) = some s') : s'.Standing outputLimit := by
  obtain ⟨phase, output, pipeClosed, finished, acts, delivered⟩ := s
  cases phase with
  | timing =>
      obtain ⟨hacts, hread, hwithin⟩ := hs
      dsimp only at hread hwithin
      subst hread
      simp only [State.step] at h
      split_ifs at h with hover
      · cases h
        refine ⟨State.released_terminated hacts _, ?_⟩
        rintro r ⟨⟩
        exact ⟨hwithin, List.prefix_rfl, fun hcut => (by cases hcut)⟩
      · cases pipeClosed with
        | false =>
            cases h
            exact ⟨hacts, rfl, hwithin⟩
        | true =>
            cases finished with
            | none =>
                cases h
                exact ⟨hacts, rfl, hwithin⟩
            | some exit =>
                have hfour : acts = [.pipe, .spawn, .closeWrite, .reap] := hacts
                subst hfour
                cases h
                have hreleased : Released [.pipe, .spawn, .closeWrite, .reap, .closeRead]
                    (.ok { output := output, exitCode := exit.code }) :=
                  .of_counts _ (by decide)
                refine ⟨hreleased, ?_⟩
                rintro r ⟨⟩
                exact ⟨hwithin, List.prefix_rfl, fun _ _ => ⟨rfl, rfl, exit, rfl, rfl⟩⟩
  | start | piped | prepared | spawned | reading | waiting | polling | returned _ => cases h

/-- One event keeps what is held. -/
theorem State.standing_step {s s' : State} {e : Event} (hs : s.Standing outputLimit)
    (h : s.step outputLimit haveTimeout e = some s') : s'.Standing outputLimit := by
  cases e with
  | read answer => exact State.standing_read hs h
  | wait answer => exact State.standing_wait_answer hs h
  | clock passed => exact State.standing_clock hs h
  | pipe error =>
      obtain ⟨phase, output, pipeClosed, finished, acts, delivered⟩ := s
      cases phase with
      | start =>
          obtain ⟨hacts, hfinished, hkept⟩ := hs
          dsimp only at hfinished hacts
          subst hfinished hacts
          cases error with
          | none =>
              cases h
              exact ⟨rfl, rfl, hkept⟩
          | some e =>
              cases h
              have hreleased : Released [] (.error e) := .of_counts _ (by decide)
              exact ⟨hreleased, reported_error⟩
      | piped | prepared | spawned | reading | waiting | timing | polling | returned _ => cases h
  | setup error =>
      obtain ⟨phase, output, pipeClosed, finished, acts, delivered⟩ := s
      cases phase with
      | piped =>
          obtain ⟨hacts, hfinished, hkept⟩ := hs
          dsimp only at hfinished hacts
          subst hfinished hacts
          cases error with
          | none =>
              cases h
              exact ⟨rfl, rfl, hkept⟩
          | some e =>
              cases h
              have hreleased : Released [.pipe, .closeRead, .closeWrite] (.error e) :=
                .of_counts _ (by decide)
              exact ⟨hreleased, reported_error⟩
      | start | prepared | spawned | reading | waiting | timing | polling | returned _ => cases h
  | spawn error =>
      obtain ⟨phase, output, pipeClosed, finished, acts, delivered⟩ := s
      cases phase with
      | prepared =>
          obtain ⟨hacts, hfinished, hkept⟩ := hs
          dsimp only at hfinished hacts
          subst hfinished hacts
          cases error with
          | none =>
              cases h
              exact ⟨rfl, rfl, hkept⟩
          | some e =>
              cases h
              have hreleased : Released [.pipe, .closeWrite, .closeRead] (.error e) :=
                .of_counts _ (by decide)
              exact ⟨hreleased, reported_error⟩
      | start | piped | spawned | reading | waiting | timing | polling | returned _ => cases h
  | nonblock error =>
      obtain ⟨phase, output, pipeClosed, finished, acts, delivered⟩ := s
      cases phase with
      | spawned =>
          obtain ⟨hacts, hfinished, hkept⟩ := hs
          cases error with
          | none =>
              cases h
              exact State.standing_turn hacts hkept
          | some e =>
              cases h
              exact ⟨State.released_terminated hacts _, reported_error⟩
      | start | piped | prepared | reading | waiting | timing | polling | returned _ => cases h
  | poll =>
      obtain ⟨phase, output, pipeClosed, finished, acts, delivered⟩ := s
      cases phase with
      | polling =>
          obtain ⟨hacts, hkept⟩ := hs
          cases h
          exact State.standing_turn hacts hkept
      | start | piped | prepared | spawned | reading | waiting | timing | returned _ => cases h

/-- Whatever the system calls answer: when `run_command` returns, it has closed both ends of its
pipe once and waited for its child once (or `waitpid` failed, and the child was sent a signal).
What it returns is the beginning of what the command wrote, no longer than the limit; and where
neither the limit nor the time ended it, all of it, with the exit of the child. -/
theorem runCommand_releases {command : Text} {s : State} {result : Except Nat CommandResult}
    (h : (runCommand command outputLimit haveTimeout).Reachable System.Anything s)
    (hover : s.phase = .returned result) :
    Released s.acts result ∧ ∀ r, result = .ok r → Reported outputLimit s r := by
  have hstanding : s.Standing outputLimit := by
    refine h.invariant ?_ ?step
    case step =>
      intro before after e _ hbefore _ hstep
      have hone : before.step outputLimit haveTimeout e = some after := hstep
      exact State.standing_step hbefore hone
    show State.Standing outputLimit { phase := if _ then _ else _ }
    split_ifs
    · have hreleased : Released [] (.error invalidArgument) := .of_counts _ (by decide)
      exact ⟨hreleased, reported_error⟩
    · exact ⟨rfl, rfl, rfl, Nat.zero_le _⟩
  rw [State.Standing, hover] at hstanding
  exact hstanding

/-- A command that writes three bytes, and ends before its output is read to the end. -/
def threeBytes : List Event :=
  [.pipe none, .setup none, .spawn none, .nonblock none, .read .later, .wait (.ended (.exited 0)),
   .clock false, .poll, .read (.data [97, 98]), .read (.data [99]), .read .closed, .clock false]

theorem runCommand_releases_three :
    ∃ s, (runCommand (text "echo") 16 true).run System.Anything
        (runCommand (text "echo") 16 true).start threeBytes = some s ∧
      s.phase = .returned (.ok { output := [97, 98, 99], exitCode := 0 }) ∧
      Released s.acts (.ok { output := [97, 98, 99], exitCode := 0 }) ∧
      Reported 16 s { output := [97, 98, 99], exitCode := 0 } := by
  obtain ⟨s, hrun, hover⟩ : ∃ s, (runCommand (text "echo") 16 true).run System.Anything
      (runCommand (text "echo") 16 true).start threeBytes = some s ∧
      s.phase = .returned (.ok { output := [97, 98, 99], exitCode := 0 }) := ⟨_, rfl, rfl⟩
  obtain ⟨hreleased, hreported⟩ :=
    runCommand_releases (System.Reachable.start.run hrun) hover
  exact ⟨s, hrun, hover, hreleased, hreported _ rfl⟩

end Process

end Karu
