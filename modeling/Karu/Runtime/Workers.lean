/-
# `Karu.Runtime.Workers` — where a transfer is between `submit` and its end

A transfer belongs to one owner at a time: a queue, a container of an I/O loop,
or a thread that has it in a local variable.  The threads are the callers of
`submit` and `cancel`, the I/O loops, the file workers and the credential
workers.  A state holds what all of them own, and an event is one atomic
operation or one locked section of one of them, so a run is an interleaving.

| source (`src/runtime/engine.cpp`)          | here                                    |
|--------------------------------------------|-----------------------------------------|
| `Engine::Engine`: the limits               | `loopCount`, `limits`, `system`         |
| `submit`                                   | `Event.submit`, `enqueue`, `publish`    |
| `take_http`                                | `takeHttp`, `Event.takeHttp`            |
| `start_transfer`                           | `startTransfer`, `LoopEvent.started`    |
| `discard_cancelled_http`                   | `Loop.sweepAt`, `LoopEvent.sweep`       |
| `io_loop`                                  | `Loop.step`, `Event.refresh`            |
| `file_loop`, `credential_loop`             | `Event.fileTake` … `credentialExit`     |
| `queue_http`                               | `Event.queueHttp`                       |
| `finish_transfer`, `discard_transfer`      | `leaving`, then `Event.finished`        |
| `cancel`                                   | `Event.cancel` … `cancelReturn`         |
| `stop_workers`, `~Engine`                  | `Event.stopWorkers`, `Event.scrap`      |

What a thread learns from the clock, libcurl, the resolver, the file system and
a credential source is part of the event.  Which verdict a message gets is
`complete` of `Karu.Runtime.Attempt`; here it is any of the four.  The idle bits
and the poll are in `Karu.Runtime.Wakeup`.

`issued`, `finished` and `returned` record what has happened; nothing reads them.
-/
import Karu.Base.System
import Karu.Runtime.Transfer

namespace Karu

open Base

namespace Workers

/-- The share of a `Transfer` that decides where it goes. -/
structure Job where
  id : Nat
  batch : Nat
  backend : Backend
  credentialsReady : Bool := false
deriving DecidableEq

def Job.ofBatch (batch : Nat) (job : Job) : Bool := job.batch == batch

/-- `cloud && !transfer->credentials_ready`. -/
def Job.bare (job : Job) : Bool := job.backend.cloud && !job.credentialsReady

/-! ## `start_transfer` -/

/-- The answers `start_transfer` may get, question by question. -/
structure StartAnswer where
  throws : Bool := false
  expired : Bool := false
  sink : Bool := true
  request : Bool := true
  expiredLater : Bool := false
  waiting : Bool := false
  resolveList : Bool := true
  easy : Bool := true
  configured : Bool := true
  added : Bool := true
deriving DecidableEq

/-- Why `start_transfer` finishes a transfer at once. -/
inductive Refusal where
  | timeout | memory | noCredentials | request | configure | multi | exception
deriving DecidableEq

inductive Started where
  | finished (refusal : Refusal)
  | resolving
  | active
deriving DecidableEq

/-- Up to the prepared request. -/
def prepareRequest (job : Job) (prepared : Bool) (a : StartAnswer) : Option Refusal :=
  if a.expired then some .timeout
  else if prepared then none
  else if !a.sink then some .memory
  else if job.bare then some .noCredentials
  else if !a.request then some .request
  else if a.expiredLater then some .timeout
  else none

/-- From the resolver on. -/
def placeRequest (a : StartAnswer) : Started :=
  if a.waiting then .resolving
  else if !a.resolveList then .finished .memory
  else if !a.easy then .finished .memory
  else if !a.configured then .finished .configure
  else if !a.added then .finished .multi
  else .active

/-- `Engine::start_transfer`. -/
def startTransfer (job : Job) (prepared : Bool) (a : StartAnswer) : Started :=
  if a.throws then .finished .exception
  else
    match prepareRequest job prepared a with
    | some refusal => .finished refusal
    | none => placeRequest a

/-! ## An I/O loop -/

/-- What `discard_cancelled_http` goes through. -/
inductive Container where
  | pending | resolving | retries | active
deriving DecidableEq

def Container.next : Container → Option Container
  | .pending => some .resolving
  | .resolving => some .retries
  | .retries => some .active
  | .active => none

/-- The local `transfer` of an I/O loop. -/
inductive Hand where
  | empty
  /-- In `start_transfer`. -/
  | starting (job : Job) (prepared : Bool)
  /-- Behind `loop.active.extract`. -/
  | handling (job : Job)
  /-- In `finish_transfer` or `discard_transfer`, before `transfer_finished`. -/
  | leaving (job : Job)
deriving DecidableEq

def Hand.jobs : Hand → List Job
  | .empty => []
  | .starting job _ => [job]
  | .handling job => [job]
  | .leaving job => [job]

/-- Where an I/O loop is. -/
inductive Phase where
  | top
  | taking
  /-- Before `cancellation_pending.exchange`. -/
  | flag
  | sweep (c : Container) (index : Nat)
  | due (index : Nat)
  /-- Before the members of `resolving` are taken out to be started again. -/
  | swap
  | restart
  | admitting
  | perform
  /-- `curl_multi_perform` has failed. -/
  | failing
  | messages
  /-- Behind the loop. -/
  | drain
  | ended
deriving DecidableEq

/-- `IoLoop`, with the local variables of `io_loop`. -/
structure Loop where
  limit : Nat
  pending : List Job := []
  resolving : List Job := []
  retries : List Job := []
  active : List Job := []
  waiting : List Job := []
  hand : Hand := .empty
  cancellationPending : Bool := false
  phase : Phase := .top
deriving DecidableEq

/-- The loop is there, with nothing in its hand. -/
def Loop.At (l : Loop) (p : Phase) : Prop := l.phase = p ∧ l.hand = .empty

instance (l : Loop) (p : Phase) : Decidable (l.At p) := inferInstanceAs (Decidable (_ ∧ _))

def Loop.get (l : Loop) : Container → List Job
  | .pending => l.pending
  | .resolving => l.resolving
  | .retries => l.retries
  | .active => l.active

def Loop.put (l : Loop) (jobs : List Job) : Container → Loop
  | .pending => { l with pending := jobs }
  | .resolving => { l with resolving := jobs }
  | .retries => { l with retries := jobs }
  | .active => { l with active := jobs }

def Loop.goto (l : Loop) (phase : Phase) : Loop := { l with phase }

def Loop.emptied (l : Loop) : Loop := { l with hand := .empty }

/-- The transfer is on its way out. -/
def Loop.leave (l : Loop) (job : Job) : Loop := { l with hand := .leaving job }

/-- One turn of a loop of `discard_cancelled_http`. -/
def Loop.sweepAt (l : Loop) (cancelled : Nat → Bool) (c : Container) (index : Nat) : Loop :=
  match (l.get c)[index]? with
  | some job =>
      if cancelled job.batch then (l.put ((l.get c).eraseIdx index) c).leave job
      else l.goto (.sweep c (index + 1))
  | none =>
      match c.next with
      | some c' => l.goto (.sweep c' 0)
      | none => l.goto (.due 0)

/-- One turn of the loop over `retries`. -/
def Loop.dueAt (l : Loop) (index : Nat) (passed : Bool) : Loop :=
  match l.retries[index]? with
  | some job =>
      if passed then
        { l with pending := l.pending ++ [job], retries := l.retries.eraseIdx index }
      else l.goto (.due (index + 1))
  | none => l.goto .swap

/-- The transfer goes to `start_transfer` unless its batch is cancelled. -/
def Loop.take (l : Loop) (cancelled : Nat → Bool) (job : Job) (prepared : Bool) : Loop :=
  if cancelled job.batch then l.leave job
  else { l with hand := .starting job prepared }

/-- One turn of the loop over `waiting`. -/
def Loop.restartNext (l : Loop) (cancelled : Nat → Bool) : Loop :=
  match l.waiting with
  | job :: rest => { l with waiting := rest }.take cancelled job true
  | [] => l.goto .admitting

/-- One turn of the loop that starts what is `pending`. -/
def Loop.admitNext (l : Loop) (cancelled : Nat → Bool) : Loop :=
  if l.active.length + l.resolving.length < l.limit then
    match l.pending with
    | job :: rest => { l with pending := rest }.take cancelled job false
    | [] => l.goto .perform
  else l.goto .perform

def Loop.started (l : Loop) (job : Job) : Started → Loop
  | .finished _ => l.leave job
  | .resolving => { l with resolving := l.resolving ++ [job] }.emptied
  | .active => { l with active := l.active ++ [job] }.emptied

/-- One turn of the loop behind a failed `curl_multi_perform`. -/
def Loop.failNext (l : Loop) : Loop :=
  match l.active with
  | job :: rest => { l with active := rest }.leave job
  | [] => l.goto .messages

/-- What is to be done with a transfer that libcurl is done with, and the loop does alone. -/
inductive Verdict where
  | finish
  | region
  | retry
deriving DecidableEq

def Loop.handled (l : Loop) (job : Job) : Verdict → Loop
  | .finish => l.leave job
  | .region => { l with pending := job :: l.pending }.emptied
  | .retry => { l with retries := l.retries ++ [job] }.emptied

/-- One turn of the loops at the end of `io_loop`. -/
def Loop.drainNext (l : Loop) : Loop :=
  match l.active, l.pending, l.resolving, l.retries with
  | job :: rest, _, _, _ => { l with active := rest }.leave job
  | [], job :: rest, _, _ => { l with pending := rest }.leave job
  | [], [], job :: rest, _ => { l with resolving := rest }.leave job
  | [], [], [], job :: rest => { l with retries := rest }.leave job
  | [], [], [], [] => l.goto .ended

/-- What an I/O loop does alone. -/
inductive LoopEvent where
  | turn
  | exchange
  | sweep (c : Container) (index : Nat)
  /-- Whether `due` of the retry has passed. -/
  | due (index : Nat) (passed : Bool)
  | swap
  | restart
  | admitting
  | started (job : Job) (prepared : Bool) (answer : StartAnswer)
  | perform (ok : Bool)
  | fail
  | message (index : Nat)
  | handled (job : Job) (verdict : Verdict)
  | polled
  | drain
deriving DecidableEq

/-- `Engine::io_loop`, as far as it touches nothing but its own containers and reads
`cancelled` and `stop_`. -/
def Loop.step (cancelled : Nat → Bool) (stop : Bool) (l : Loop) : LoopEvent → Option Loop
  | .turn =>
      if l.At .top then some (l.goto (if stop then .drain else .taking)) else none
  | .exchange =>
      if l.At .flag then
        some ({ l with cancellationPending := false }.goto
          (if l.cancellationPending then .sweep .pending 0 else .due 0))
      else none
  | .sweep c index =>
      if l.At (.sweep c index) then some (l.sweepAt cancelled c index) else none
  | .due index passed => if l.At (.due index) then some (l.dueAt index passed) else none
  | .swap =>
      if l.At .swap then
        some ({ l with waiting := l.resolving, resolving := [] }.goto .restart)
      else none
  | .restart => if l.At .restart then some (l.restartNext cancelled) else none
  | .admitting => if l.At .admitting then some (l.admitNext cancelled) else none
  | .started job prepared answer =>
      if l.hand = .starting job prepared then some (l.started job (startTransfer job prepared answer))
      else none
  | .perform ok =>
      if l.At .perform then some (l.goto (if ok then .messages else .failing)) else none
  | .fail => if l.At .failing then some l.failNext else none
  | .message index =>
      if l.At .messages then
        l.active[index]?.map fun job =>
          { l with active := l.active.eraseIdx index, hand := .handling job }
      else none
  | .handled job verdict =>
      if l.hand = .handling job ∧ (verdict = .region → job.backend = .s3) then
        some (l.handled job verdict)
      else none
  | .polled => if l.At .messages then some (l.goto .top) else none
  | .drain => if l.At .drain then some l.drainNext else none

/-- The locked section of `take_http`. -/
def takeHttp : Loop → List Job → Loop × List Job
  | l, [] => (l, [])
  | l, job :: queue =>
      if l.active.length + l.pending.length + l.resolving.length < l.limit then
        takeHttp { l with pending := l.pending ++ [job] } queue
      else (l, job :: queue)

/-! ## The engine -/

/-- A file worker or a credential worker. -/
inductive Worker where
  | waiting
  | working (job : Job)
  | leaving (job : Job)
  | exited
deriving DecidableEq

def Worker.jobs : Worker → List Job
  | .waiting => []
  | .working job => [job]
  | .leaving job => [job]
  | .exited => []

/-- A call of `submit`: what is left of `plan.transfers`, and `ready`. -/
structure Submission where
  transfers : List Job
  ready : List Job := []
deriving DecidableEq

def Submission.jobs (u : Submission) : List Job := u.transfers ++ u.ready

/-- Where a call of `cancel` is. -/
inductive CancelPhase where
  | entered
  /-- There were live transfers. -/
  | marking
  | queues
  | http
  | loops (index : Nat)
  | waiting
deriving DecidableEq

structure Cancellation where
  batch : Nat
  phase : CancelPhase := .entered
deriving DecidableEq

/-- What all threads own, the batches by their number, and what has happened. -/
structure State where
  fileQueue : List Job := []
  credentialQueue : List Job := []
  httpQueue : List Job := []
  loops : List Loop
  fileWorkers : List Worker
  credentialWorkers : List Worker
  submissions : List Submission := []
  cancellations : List Cancellation := []
  live : Nat → Nat := fun _ => 0
  cancelled : Nat → Bool := fun _ => false
  stop : Bool := false
  batches : Nat := 0
  issued : List Job := []
  finished : List Job := []
  returned : List Nat := []

inductive Event where
  | loop (i : Nat) (e : LoopEvent)
  | takeHttp (i : Nat)
  /-- The verdict that sends a transfer back to the credential workers. -/
  | refresh (i : Nat) (job : Job)
  /-- `transfer_finished`, by the I/O loop. -/
  | finished (i : Nat) (job : Job)
  | fileTake (w : Nat)
  | fileRead (w : Nat) (job : Job)
  /-- The read is over, has failed or was cancelled. -/
  | fileLeave (w : Nat) (job : Job)
  | fileFinished (w : Nat) (job : Job)
  | fileExit (w : Nat)
  | credentialTake (w : Nat)
  /-- The lookup has failed, was cancelled or took too long. -/
  | credentialLeave (w : Nat) (job : Job)
  | queueHttp (w : Nat) (job : Job)
  | credentialFinished (w : Nat) (job : Job)
  | credentialExit (w : Nat)
  | submit (backends : List Backend)
  | enqueue (k : Nat)
  | publish (k : Nat)
  | cancel (batch : Nat)
  /-- The section under `batch.mutex`. -/
  | cancelCheck (k : Nat)
  | cancelMark (k : Nat)
  | cancelQueues (k : Nat)
  | cancelHttp (k : Nat)
  | cancelLoop (k : Nat)
  | cancelReturn (k : Nat)
  | stopWorkers
  | scrap
deriving DecidableEq

/-- `BatchCore::transfer_finished`. -/
def transferFinished (live : Nat → Nat) (job : Job) : Nat → Nat :=
  fun b => if b = job.batch then (if 0 < live b then live b - 1 else live b) else live b

/-- These transfers leave the engine. -/
def State.leave (s : State) (jobs : List Job) : State :=
  { s with live := jobs.foldl transferFinished s.live, finished := s.finished ++ jobs }

def State.setLoop (s : State) (i : Nat) (l : Loop) : State := { s with loops := s.loops.set i l }

def State.setFile (s : State) (w : Nat) (x : Worker) : State :=
  { s with fileWorkers := s.fileWorkers.set w x }

def State.setCredential (s : State) (w : Nat) (x : Worker) : State :=
  { s with credentialWorkers := s.credentialWorkers.set w x }

def State.setCancel (s : State) (k : Nat) (c : Cancellation) : State :=
  { s with cancellations := s.cancellations.set k c }

/-- The call of `cancel` is over. -/
def State.cancelOver (s : State) (k : Nat) (batch : Nat) : State :=
  { s with cancellations := s.cancellations.eraseIdx k, returned := batch :: s.returned }

def State.markCancelled (s : State) (batch : Nat) : State :=
  { s with cancelled := fun b => if b = batch then true else s.cancelled b }

/-- The transfers of a new batch, as `plan_transfers` leaves them. -/
def newJobs (batch first : Nat) : List Backend → List Job
  | [] => []
  | backend :: rest => { id := first, batch, backend } :: newJobs batch (first + 1) rest

/-- To which of the three `submit` moves a transfer. -/
def Job.toFile (job : Job) : Bool := job.backend == .file
def Job.toCredentials (job : Job) : Bool := job.backend.cloud && !job.toFile
def Job.toHttp (job : Job) : Bool := !job.backend.cloud && !job.toFile

def step (s : State) : Event → Option State
  | .loop i e => do
      let l ← s.loops[i]?
      let l' ← l.step s.cancelled s.stop e
      some (s.setLoop i l')
  | .takeHttp i => do
      let l ← s.loops[i]?
      if l.At .taking then
        some ({ s with httpQueue := (takeHttp l s.httpQueue).2 }.setLoop i
          ((takeHttp l s.httpQueue).1.goto .flag))
      else none
  | .refresh i job => do
      let l ← s.loops[i]?
      if l.hand = .handling job ∧ job.backend.cloud = true then
        some ({ s with
          credentialQueue := { job with credentialsReady := false } :: s.credentialQueue }.setLoop i
            l.emptied)
      else none
  | .finished i job => do
      let l ← s.loops[i]?
      if l.hand = .leaving job then some ((s.setLoop i l.emptied).leave [job])
      else none
  | .fileTake w =>
      match s.fileWorkers[w]?, s.fileQueue with
      | some .waiting, job :: rest => some ({ s with fileQueue := rest }.setFile w (.working job))
      | _, _ => none
  | .fileRead w job => if s.fileWorkers[w]? = some (.working job) then some s else none
  | .fileLeave w job =>
      if s.fileWorkers[w]? = some (.working job) then some (s.setFile w (.leaving job)) else none
  | .fileFinished w job =>
      if s.fileWorkers[w]? = some (.leaving job) then some ((s.setFile w .waiting).leave [job])
      else none
  | .fileExit w =>
      if s.fileWorkers[w]? = some .waiting ∧ s.fileQueue = [] ∧ s.stop = true then
        some (s.setFile w .exited)
      else none
  | .credentialTake w =>
      match s.credentialWorkers[w]?, s.credentialQueue, s.stop with
      | some .waiting, job :: rest, false =>
          some ({ s with credentialQueue := rest }.setCredential w (.working job))
      | _, _, _ => none
  | .credentialLeave w job =>
      if s.credentialWorkers[w]? = some (.working job) then
        some (s.setCredential w (.leaving job))
      else none
  | .queueHttp w job =>
      if s.credentialWorkers[w]? = some (.working job) then
        let job := { job with credentialsReady := true }
        if s.stop then some (s.setCredential w (.leaving job))
        else some ({ s with httpQueue := s.httpQueue ++ [job] }.setCredential w .waiting)
      else none
  | .credentialFinished w job =>
      if s.credentialWorkers[w]? = some (.leaving job) then
        some ((s.setCredential w .waiting).leave [job])
      else none
  | .credentialExit w =>
      if s.credentialWorkers[w]? = some .waiting ∧ s.stop = true then
        some (s.setCredential w .exited)
      else none
  | .submit backends =>
      let jobs := newJobs s.batches s.issued.length backends
      some { s with
        live := fun b => if b = s.batches then jobs.length else s.live b,
        submissions := s.submissions ++ [{ transfers := jobs }],
        batches := s.batches + 1,
        issued := s.issued ++ jobs }
  | .enqueue k => do
      let u ← s.submissions[k]?
      some { s with
        fileQueue := s.fileQueue ++ u.transfers.filter Job.toFile,
        credentialQueue := s.credentialQueue ++ u.transfers.filter Job.toCredentials,
        submissions := s.submissions.set k
          { transfers := [], ready := u.ready ++ u.transfers.filter Job.toHttp } }
  | .publish k => do
      let u ← s.submissions[k]?
      if u.transfers = [] then
        some { s with
          httpQueue := s.httpQueue ++ u.ready, submissions := s.submissions.eraseIdx k }
      else none
  | .cancel batch =>
      if batch < s.batches then
        some { s with cancellations := s.cancellations ++ [{ batch }] }
      else none
  | .cancelCheck k => do
      let c ← s.cancellations[k]?
      if c.phase = .entered then
        if s.live c.batch = 0 then some ((s.markCancelled c.batch).cancelOver k c.batch)
        else some (s.setCancel k { c with phase := .marking })
      else none
  | .cancelMark k => do
      let c ← s.cancellations[k]?
      if c.phase = .marking then
        some ((s.markCancelled c.batch).setCancel k { c with phase := .queues })
      else none
  | .cancelQueues k => do
      let c ← s.cancellations[k]?
      if c.phase = .queues then
        some (({ s with
          fileQueue := s.fileQueue.filter fun job => !job.ofBatch c.batch,
          credentialQueue := s.credentialQueue.filter fun job => !job.ofBatch c.batch }.leave
            (s.fileQueue.filter (Job.ofBatch c.batch) ++
              s.credentialQueue.filter (Job.ofBatch c.batch))).setCancel k
                { c with phase := .http })
      else none
  | .cancelHttp k => do
      let c ← s.cancellations[k]?
      if c.phase = .http then
        some (({ s with httpQueue := s.httpQueue.filter fun job => !job.ofBatch c.batch }.leave
          (s.httpQueue.filter (Job.ofBatch c.batch))).setCancel k { c with phase := .loops 0 })
      else none
  | .cancelLoop k => do
      let c ← s.cancellations[k]?
      match c.phase with
      | .loops i =>
          match s.loops[i]? with
          | some l =>
              some ((s.setLoop i { l with cancellationPending := true }).setCancel k
                { c with phase := .loops (i + 1) })
          | none => some (s.setCancel k { c with phase := .waiting })
      | _ => none
  | .cancelReturn k => do
      let c ← s.cancellations[k]?
      if c.phase = .waiting ∧ s.live c.batch = 0 then some (s.cancelOver k c.batch) else none
  | .stopWorkers => some { s with stop := true }
  | .scrap =>
      if s.stop = true ∧ (∀ l ∈ s.loops, l.phase = .ended) ∧ (∀ w ∈ s.fileWorkers, w = .exited) ∧
          (∀ w ∈ s.credentialWorkers, w = .exited) then
        some ({ s with httpQueue := [], fileQueue := [], credentialQueue := [] }.leave
          (s.httpQueue ++ s.fileQueue ++ s.credentialQueue))
      else none

/-! ## The constructor -/

/-- `std::clamp`. -/
def clamp (v lo hi : Nat) : Nat := if v < lo then lo else if hi < v then hi else v

/-- `count`. -/
def loopCount (concurrency ioThreads : Nat) : Nat := clamp ioThreads 1 (min concurrency 64)

/-- `loop->limit` of every loop. -/
def limits (concurrency ioThreads : Nat) : List Nat :=
  let count := loopCount concurrency ioThreads
  (List.range count).map fun index =>
    concurrency / count + if index < concurrency % count then 1 else 0

def kFileWorkers : Nat := 4
def kCredentialWorkers : Nat := 4

/-- The engine of a client with this `concurrency` and these `io_threads`. -/
def system (concurrency ioThreads : Nat) : System State Event where
  start :=
    { loops := (limits concurrency ioThreads).map fun limit => { limit },
      fileWorkers := List.replicate kFileWorkers .waiting,
      credentialWorkers := List.replicate kCredentialWorkers .waiting }
  step := step

end Workers

end Karu
