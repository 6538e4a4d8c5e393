/-
# `Karu.Runtime.Batch` — a batch from `submit` to its last completion

`submit` counts the parts and the immediate completions of a plan, pushes the
immediate ones and hands the transfers over.  Whoever ends a transfer counts it
as finished, pushes a completion for each of its parts and takes it off the live
ones.  Meanwhile any number of consumers call `next`.  An event is one locked
section or one atomic operation of one of these threads.

| source                                       | here                                   |
|----------------------------------------------|----------------------------------------|
| `karu_batch`, `BatchCounters`                | `BatchCore`                            |
| `karu_batch::push`, `transfer_finished`      | `BatchCore.push`, `transferFinished`   |
| `karu_batch::next`                           | `BatchCore.take`, `Event.next` … `wake` |
| `Engine::submit`                             | `Submitting`, `Event.account` … `publish` |
| `Engine::finish_transfer`, `deliver`         | `Finishing`, `Event.finish` … `finished` |

Where a transfer is before it is finished is in `Karu.Runtime.Workers`; here it
is `owned`.  The batch is never cancelled, and allocation succeeds.
-/
import Karu.Base.System
import Karu.Runtime.PlannerCover
import Karu.Runtime.Transport

namespace Karu

open Base

/-- `karu_batch`, with the two counters of transfers. -/
structure BatchCore where
  ready : List Completion := []
  pendingParts : Nat := 0
  liveTransfers : Nat := 0
  cancelled : Bool := false
  transfers : Nat := 0
  transfersFinished : Nat := 0
deriving DecidableEq

/-- What `next` returns. -/
inductive NextStatus where
  | ok (completion : Completion)
  | finished
  | timeout
deriving DecidableEq

namespace BatchCore

def push (b : BatchCore) (completion : Completion) : BatchCore :=
  { b with
    ready := b.ready ++ [completion],
    pendingParts := if 0 < b.pendingParts then b.pendingParts - 1 else b.pendingParts }

def transferFinished (b : BatchCore) : BatchCore :=
  { b with liveTransfers := if 0 < b.liveTransfers then b.liveTransfers - 1 else b.liveTransfers }

/-- `can_return`. -/
def canReturn (b : BatchCore) : Bool := !b.ready.isEmpty || b.pendingParts == 0 || b.cancelled

/-- `next` from the wait on. -/
def take (b : BatchCore) : NextStatus × BatchCore :=
  match b.ready with
  | [] => (.finished, b)
  | c :: rest => (.ok c, { b with ready := rest })

end BatchCore

namespace Batch

/-! ## The threads -/

/-- Where `submit` is, with what it still has to do. -/
inductive Submitting where
  | planned (plan : TransferPlan)
  | pushing (immediate : List Completion) (transfers : List Transfer)
  | publishing (ready : List Transfer)
  | returned
deriving DecidableEq

/-- A thread in `finish_transfer`, with the parts it has still to deliver. -/
structure Finishing where
  transfer : Transfer
  received : Nat
  status : Status
  detail : Text
  parts : List Part
deriving DecidableEq

/-- The completion that `deliver` pushes for a part. -/
def Finishing.completion (f : Finishing) (p : Part) : Completion :=
  deliverPart { f.transfer with received := f.received } f.status f.detail p

structure State where
  core : BatchCore := {}
  submit : Submitting
  /-- The transfers in a queue, or with a thread that has not finished them. -/
  owned : List Transfer := []
  finishing : List Finishing := []
  /-- The consumers that wait on `cv`. -/
  asleep : List Nat := []
  /-- What the calls of `next` have returned, to whom; nothing reads it. -/
  log : List (Nat × NextStatus) := []
deriving DecidableEq

inductive Event where
  /-- The locked section of `submit`. -/
  | account
  | pushImmediate
  /-- The files and the lookups go to their queues, under `queue_mutex_`. -/
  | enqueue
  /-- The others go to `http_queue_`, and `submit` returns. -/
  | publish
  /-- `finish_transfer` on an owned transfer. -/
  | finish (index : Nat) (status : Status) (detail : Text) (received : Nat)
  | deliver (index : Nat)
  | finished (index : Nat)
  /-- A consumer calls `next`, or looks again after it was woken. -/
  | next (consumer : Nat)
  /-- `wait_for` has waited long enough. -/
  | timeout (consumer : Nat)
  /-- A spurious wake-up. -/
  | wake (consumer : Nat)
deriving DecidableEq

/-- The transfer is queued under `queue_mutex_`. -/
def queuedFirst (t : Transfer) : Bool := t.locator.backend == .file || t.locator.backend.cloud

namespace State

variable (s : State)

/-- The locked section of `submit`. -/
def account (plan : TransferPlan) : State :=
  { s with
    core := { s.core with
      pendingParts := s.core.pendingParts + (plan.transfers.map (·.parts.length)).sum +
        plan.immediate.length,
      liveTransfers := plan.transfers.length,
      transfers := s.core.transfers + plan.transfers.length },
    submit := .pushing plan.immediate plan.transfers }

/-- `push` and `notify_all` on the next immediate completion. -/
def pushImmediate (c : Completion) (immediate : List Completion) (transfers : List Transfer) : State :=
  { s with core := s.core.push c, asleep := [], submit := .pushing immediate transfers }

def enqueue (transfers : List Transfer) : State :=
  { s with
    owned := s.owned ++ transfers.filter queuedFirst,
    submit := .publishing (transfers.filter (!queuedFirst ·)) }

def publish (ready : List Transfer) : State :=
  { s with owned := s.owned ++ ready, submit := .returned }

def finish (index : Nat) (t : Transfer) (status : Status) (detail : Text) (received : Nat) : State :=
  { s with
    core := { s.core with transfersFinished := s.core.transfersFinished + 1 },
    owned := s.owned.eraseIdx index,
    finishing := s.finishing ++ [⟨t, received, status, detail, t.parts⟩] }

/-- One turn of the loop in `deliver`. -/
def deliver (index : Nat) (f : Finishing) (p : Part) (parts : List Part) : State :=
  { s with
    core := s.core.push (f.completion p), asleep := [],
    finishing := s.finishing.set index { f with parts := parts } }

/-- `transfer_finished` and `notify_all`. -/
def leave (index : Nat) : State :=
  { s with
    core := s.core.transferFinished, asleep := [], finishing := s.finishing.eraseIdx index }

/-- The consumer returns from `next`. -/
def take (consumer : Nat) : State :=
  { s with core := s.core.take.2, log := s.log ++ [(consumer, s.core.take.1)] }

/-- `wait` evaluates `can_return`. -/
def look (consumer : Nat) : State :=
  if s.core.canReturn then s.take consumer else { s with asleep := s.asleep ++ [consumer] }

/-- `wait_for` evaluates it for the last time. -/
def lookLast (consumer : Nat) : State :=
  if s.core.canReturn then s.take consumer else { s with log := s.log ++ [(consumer, .timeout)] }

def wake (consumer : Nat) : State := { s with asleep := s.asleep.erase consumer }

end State

def step (s : State) : Event → Option State
  | .account =>
      match s.submit with
      | .planned plan => some (s.account plan)
      | _ => none
  | .pushImmediate =>
      match s.submit with
      | .pushing (c :: immediate) transfers => some (s.pushImmediate c immediate transfers)
      | _ => none
  | .enqueue =>
      match s.submit with
      | .pushing [] transfers => some (s.enqueue transfers)
      | _ => none
  | .publish =>
      match s.submit with
      | .publishing ready => some (s.publish ready)
      | _ => none
  | .finish index status detail received =>
      match s.owned[index]? with
      | some t => some (s.finish index t status detail received)
      | none => none
  | .deliver index =>
      match s.finishing[index]? with
      | some f =>
          match f.parts with
          | p :: parts => some (s.deliver index f p parts)
          | [] => none
      | none => none
  | .finished index =>
      match s.finishing[index]? with
      | some f => if f.parts = [] then some (s.leave index) else none
      | none => none
  | .next consumer =>
      if s.submit = .returned ∧ consumer ∉ s.asleep then some (s.look consumer) else none
  | .timeout consumer =>
      if consumer ∈ s.asleep then some ((s.wake consumer).lookLast consumer) else none
  | .wake consumer => if consumer ∈ s.asleep then some (s.wake consumer) else none

/-- Everything a step can do. -/
inductive Moved (s : State) : Event → State → Prop
  | account {plan : TransferPlan} : s.submit = .planned plan → Moved s .account (s.account plan)
  | pushImmediate {c : Completion} {immediate : List Completion} {transfers : List Transfer} :
      s.submit = .pushing (c :: immediate) transfers →
      Moved s .pushImmediate (s.pushImmediate c immediate transfers)
  | enqueue {transfers : List Transfer} : s.submit = .pushing [] transfers →
      Moved s .enqueue (s.enqueue transfers)
  | publish {ready : List Transfer} : s.submit = .publishing ready →
      Moved s .publish (s.publish ready)
  | finish {index : Nat} {t : Transfer} {status : Status} {detail : Text} {received : Nat} :
      s.owned[index]? = some t →
      Moved s (.finish index status detail received) (s.finish index t status detail received)
  | deliver {index : Nat} {f : Finishing} {p : Part} {parts : List Part} :
      s.finishing[index]? = some f → f.parts = p :: parts →
      Moved s (.deliver index) (s.deliver index f p parts)
  | finished {index : Nat} {f : Finishing} : s.finishing[index]? = some f → f.parts = [] →
      Moved s (.finished index) (s.leave index)
  | next {consumer : Nat} : s.submit = .returned → Moved s (.next consumer) (s.look consumer)
  | timeout {consumer : Nat} : consumer ∈ s.asleep →
      Moved s (.timeout consumer) ((s.wake consumer).lookLast consumer)
  | wake {consumer : Nat} : consumer ∈ s.asleep → Moved s (.wake consumer) (s.wake consumer)

theorem step_moved {s s' : State} {e : Event} (h : step s e = some s') : Moved s e s' := by
  cases e with
  | account =>
      simp only [step] at h
      split at h
      · cases h
        exact .account ‹_›
      · cases h
  | pushImmediate =>
      simp only [step] at h
      split at h
      · cases h
        exact .pushImmediate ‹_›
      · cases h
  | enqueue =>
      simp only [step] at h
      split at h
      · cases h
        exact .enqueue ‹_›
      · cases h
  | publish =>
      simp only [step] at h
      split at h
      · cases h
        exact .publish ‹_›
      · cases h
  | finish index status detail received =>
      simp only [step] at h
      split at h
      · cases h
        exact .finish ‹_›
      · cases h
  | deliver index =>
      simp only [step] at h
      split at h
      · split at h
        · cases h
          exact .deliver ‹_› ‹_›
        · cases h
      · cases h
  | finished index =>
      simp only [step] at h
      split at h
      · split at h
        · cases h
          exact .finished ‹_› ‹_›
        · cases h
      · cases h
  | next consumer =>
      simp only [step] at h
      split at h
      · rename_i hcalls
        cases h
        exact .next hcalls.1
      · cases h
  | timeout consumer =>
      simp only [step] at h
      split at h
      · cases h
        exact .timeout ‹_›
      · cases h
  | wake consumer =>
      simp only [step] at h
      split at h
      · cases h
        exact .wake ‹_›
      · cases h

/-- `submit` on planned requests; with none, it returns at once. -/
def system (requests : List Request) (plan : TransferPlan) : System State Event where
  start := { submit := if requests.isEmpty then .returned else .planned plan }
  step := step

end Batch

end Karu
