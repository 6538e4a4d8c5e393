/-
# `Karu.Runtime.Custody` — what an event does to the transfers

An event takes some transfers out of the engine (`Moves`, with those that are
`gone`) or brings new ones in (`Arrives`), and moves the others around.  Nothing
is lost on the way: whatever is counted over everything the engine holds changes
by exactly what came or went (`step_moves`).  A weight is any `f : Job → Nat`;
where a transfer gets or loses its credentials, one that does not see them
(`Blind`).

A transfer that needs credentials and has none is never on the way to libcurl:
no event adds one to `State.sending`.
-/
import Karu.Base.Slots
import Karu.Runtime.Concurrency

namespace Karu

open Base

namespace Workers

/-! ## Weighing -/

/-- What is counted over some transfers. -/
def weigh (f : Job → Nat) (jobs : List Job) : Nat := (jobs.map f).sum

section Weigh

variable {f : Job → Nat}

@[simp] theorem weigh_nil : weigh f [] = 0 := rfl

@[simp] theorem weigh_cons (job : Job) (jobs : List Job) :
    weigh f (job :: jobs) = f job + weigh f jobs := by
  simp [weigh]

@[simp] theorem weigh_append (jobs more : List Job) :
    weigh f (jobs ++ more) = weigh f jobs + weigh f more := by
  simp [weigh]

theorem weigh_eraseIdx {jobs : List Job} {k : Nat} {job : Job} (h : jobs[k]? = some job) :
    weigh f (jobs.eraseIdx k) + f job = weigh f jobs :=
  Slots.sum_map_eraseIdx f h

/-- A list falls into two parts. -/
theorem weigh_filter_add (p : Job → Bool) (jobs : List Job) :
    weigh f (jobs.filter p) + weigh f (jobs.filter fun job => !p job) = weigh f jobs := by
  induction jobs with
  | nil => rfl
  | cons job jobs ih =>
      cases hp : p job <;> simp only [List.filter_cons, hp, Bool.not_false, Bool.not_true,
        if_true, Bool.false_eq_true, if_false, weigh_cons] <;> omega

/-- `submit` moves every transfer to one of three. -/
theorem weigh_routes (jobs : List Job) :
    weigh f (jobs.filter Job.toFile) + weigh f (jobs.filter Job.toCredentials) +
      weigh f (jobs.filter Job.toHttp) = weigh f jobs := by
  have hfile := @weigh_filter_add f Job.toFile jobs
  have hcloud := @weigh_filter_add f (fun job => job.backend.cloud)
    (jobs.filter fun job => !job.toFile)
  rw [List.filter_filter, List.filter_filter] at hcloud
  change weigh f (jobs.filter Job.toCredentials) + weigh f (jobs.filter Job.toHttp) = _ at hcloud
  omega

theorem weigh_eq_zero {jobs : List Job} : weigh f jobs = 0 ↔ ∀ job ∈ jobs, f job = 0 := by
  simp [weigh, List.sum_eq_zero_iff]

end Weigh

/-! ## What a loop holds -/

def Loop.jobs (l : Loop) : List Job :=
  l.pending ++ l.resolving ++ l.retries ++ l.active ++ (l.waiting ++ l.hand.jobs)

section Loops

variable {f : Job → Nat} {l l' : Loop} {cancelled : Nat → Bool}

/-- A transfer that goes from the loop's hand. -/
theorem Loop.weigh_emptied : weigh f l.emptied.jobs + weigh f l.hand.jobs = weigh f l.jobs := by
  simp only [Loop.jobs, Loop.emptied, Hand.jobs, weigh_append, weigh_nil]
  omega

theorem Loop.weigh_sweepAt {c : Container} {k : Nat} (hhand : l.hand = .empty) :
    weigh f (l.sweepAt cancelled c k).jobs = weigh f l.jobs := by
  fun_cases Loop.sweepAt
  · rename_i job hjob _
    have herase := @weigh_eraseIdx f _ _ _ hjob
    cases c <;> simp only [Loop.get, Loop.put, Loop.leave, Loop.jobs, Hand.jobs, hhand, weigh_append,
      weigh_cons, weigh_nil] at herase ⊢ <;> omega
  all_goals rfl

theorem Loop.weigh_dueAt {k : Nat} {passed : Bool} :
    weigh f (l.dueAt k passed).jobs = weigh f l.jobs := by
  fun_cases Loop.dueAt
  · rename_i job hjob _
    have herase := @weigh_eraseIdx f _ _ _ hjob
    simp only [Loop.jobs, weigh_append, weigh_cons, weigh_nil]
    omega
  all_goals rfl

theorem Loop.weigh_take {job : Job} {prepared : Bool} (hhand : l.hand = .empty) :
    weigh f (l.take cancelled job prepared).jobs = weigh f l.jobs + f job := by
  fun_cases Loop.take <;>
    simp only [Loop.leave, Loop.jobs, Hand.jobs, hhand, weigh_append, weigh_cons, weigh_nil] <;> omega

theorem Loop.weigh_restartNext (hhand : l.hand = .empty) :
    weigh f (l.restartNext cancelled).jobs = weigh f l.jobs := by
  fun_cases Loop.restartNext
  · rename_i job rest hw
    rw [Loop.weigh_take (by exact hhand)]
    simp only [Loop.jobs, hw, weigh_append, weigh_cons]
    omega
  · rfl

theorem Loop.weigh_admitNext (hhand : l.hand = .empty) :
    weigh f (l.admitNext cancelled).jobs = weigh f l.jobs := by
  fun_cases Loop.admitNext
  · rename_i _ job rest hp
    rw [Loop.weigh_take (by exact hhand)]
    simp only [Loop.jobs, hp, weigh_append, weigh_cons]
    omega
  all_goals rfl

theorem Loop.weigh_started {job : Job} {prepared : Bool} (hhand : l.hand = .starting job prepared)
    (r : Started) : weigh f (l.started job r).jobs = weigh f l.jobs := by
  cases r <;> simp only [Loop.started, Loop.leave, Loop.emptied, Loop.jobs, Hand.jobs, hhand,
    weigh_append, weigh_cons, weigh_nil] <;> omega

theorem Loop.weigh_handled {job : Job} (hhand : l.hand = .handling job) (verdict : Verdict) :
    weigh f (l.handled job verdict).jobs = weigh f l.jobs := by
  cases verdict <;> simp only [Loop.handled, Loop.leave, Loop.emptied, Loop.jobs, Hand.jobs, hhand,
    weigh_append, weigh_cons, weigh_nil] <;> omega

theorem Loop.weigh_failNext (hhand : l.hand = .empty) :
    weigh f l.failNext.jobs = weigh f l.jobs := by
  fun_cases Loop.failNext
  · simp only [Loop.leave, Loop.jobs, Hand.jobs, *, weigh_append, weigh_cons, weigh_nil]
    omega
  · rfl

theorem Loop.weigh_drainNext (hhand : l.hand = .empty) :
    weigh f l.drainNext.jobs = weigh f l.jobs := by
  fun_cases Loop.drainNext
  case case5 => rfl
  all_goals
    simp only [Loop.leave, Loop.jobs, Hand.jobs, *, weigh_append, weigh_cons, weigh_nil]
    omega

theorem Loop.weigh_takeHttp (f : Job → Nat) (l : Loop) (queue : List Job) :
    weigh f ((takeHttp l queue).1.goto .flag).jobs + weigh f (takeHttp l queue).2 =
      weigh f l.jobs + weigh f queue := by
  obtain ⟨taken, hloop, hqueue⟩ := takeHttp_eq queue l
  have hsum : weigh f taken + weigh f (takeHttp l queue).2 = weigh f queue := by
    rw [← weigh_append, hqueue]
  rw [hloop]
  simp only [Loop.goto, Loop.jobs, weigh_append]
  omega

/-- What a loop does alone neither loses a transfer nor makes one up, nor changes any. -/
theorem Loop.weigh_step {stop : Bool} {e : LoopEvent} (hw : l.Within)
    (h : l.step cancelled stop e = some l') : weigh f l'.jobs = weigh f l.jobs := by
  cases e with
  | turn | exchange | perform ok | polled =>
      obtain ⟨-, ⟨⟩⟩ := Option.ite_none_right_eq_some.mp h
      rfl
  | sweep c k =>
      obtain ⟨hat, ⟨⟩⟩ := Option.ite_none_right_eq_some.mp h
      exact Loop.weigh_sweepAt hat.2
  | due k passed =>
      obtain ⟨-, ⟨⟩⟩ := Option.ite_none_right_eq_some.mp h
      exact Loop.weigh_dueAt
  | swap =>
      obtain ⟨hat, ⟨⟩⟩ := Option.ite_none_right_eq_some.mp h
      have hnil := hw.waiting_of_at hat (by simp)
      simp only [Loop.goto, Loop.jobs, hnil, weigh_append, weigh_nil]
      omega
  | restart =>
      obtain ⟨hat, ⟨⟩⟩ := Option.ite_none_right_eq_some.mp h
      exact Loop.weigh_restartNext hat.2
  | admitting =>
      obtain ⟨hat, ⟨⟩⟩ := Option.ite_none_right_eq_some.mp h
      exact Loop.weigh_admitNext hat.2
  | started job prepared answer =>
      obtain ⟨hhand, ⟨⟩⟩ := Option.ite_none_right_eq_some.mp h
      exact Loop.weigh_started hhand _
  | fail =>
      obtain ⟨hat, ⟨⟩⟩ := Option.ite_none_right_eq_some.mp h
      exact Loop.weigh_failNext hat.2
  | message k =>
      obtain ⟨hat, hmap⟩ := Option.ite_none_right_eq_some.mp h
      obtain ⟨job, hjob, rfl⟩ := Option.map_eq_some_iff.mp hmap
      have herase := @weigh_eraseIdx f _ _ _ hjob
      simp only [Loop.jobs, Hand.jobs, hat.2, weigh_append, weigh_cons, weigh_nil]
      omega
  | handled job verdict =>
      obtain ⟨hhand, ⟨⟩⟩ := Option.ite_none_right_eq_some.mp h
      exact Loop.weigh_handled hhand.1 verdict
  | drain =>
      obtain ⟨hat, ⟨⟩⟩ := Option.ite_none_right_eq_some.mp h
      exact Loop.weigh_drainNext hat.2

end Loops

/-! ## What the engine holds -/

/-- Every transfer the engine holds. -/
def State.held (s : State) : List Job :=
  s.fileQueue ++ s.credentialQueue ++ s.httpQueue ++ s.loops.flatMap Loop.jobs ++
    s.fileWorkers.flatMap Worker.jobs ++ s.credentialWorkers.flatMap Worker.jobs ++
    s.submissions.flatMap Submission.jobs

/-- The transfers on the way to libcurl. -/
def State.sending (s : State) : List Job :=
  s.httpQueue ++ s.loops.flatMap Loop.jobs ++ s.submissions.flatMap Submission.ready

/-- What does not depend on the credentials. -/
def Blind (f : Job → Nat) : Prop :=
  ∀ (job : Job) (ready : Bool), f { job with credentialsReady := ready } = f job

/-- The number of transfers that have no credentials and need some. -/
def bareCount (job : Job) : Nat := job.bare.toNat

section Held

variable {f : Job → Nat} {s s' : State}

theorem weigh_flatMap {α : Type} (g : α → List Job) (l : List α) :
    weigh f (l.flatMap g) = (l.map fun a => weigh f (g a)).sum := by
  induction l with
  | nil => rfl
  | cons a l ih => simp [ih]

theorem weigh_held (f : Job → Nat) (s : State) :
    weigh f s.held = weigh f s.fileQueue + weigh f s.credentialQueue + weigh f s.httpQueue +
      (s.loops.map fun l => weigh f l.jobs).sum + (s.fileWorkers.map fun w => weigh f w.jobs).sum +
      (s.credentialWorkers.map fun w => weigh f w.jobs).sum +
      (s.submissions.map fun u => weigh f u.jobs).sum := by
  simp only [State.held, weigh_append, weigh_flatMap]

theorem weigh_sending (f : Job → Nat) (s : State) :
    weigh f s.sending = weigh f s.httpQueue + (s.loops.map fun l => weigh f l.jobs).sum +
      (s.submissions.map fun u => weigh f u.ready).sum := by
  simp only [State.sending, weigh_append, weigh_flatMap]

end Held

/-- What an event can do to the transfers: those that are `gone` leave the engine, and all others
stay in it. -/
structure Moves (s s' : State) (gone : List Job) : Prop where
  held : ∀ f, Blind f → weigh f s'.held + weigh f gone = weigh f s.held
  sending : weigh bareCount s'.sending ≤ weigh bareCount s.sending
  live : s'.live = gone.foldl transferFinished s.live
  finished : s'.finished = s.finished ++ gone
  issued : s'.issued = s.issued
  batches : s'.batches = s.batches

section Moves

variable {s s' : State}

theorem Moves.loop {i : Nat} {l l' : Loop} (hl : s.loops[i]? = some l)
    (hweigh : ∀ f, weigh f l'.jobs = weigh f l.jobs) : Moves s (s.setLoop i l') [] where
  held f _ := by
    have hset := Slots.sum_map_set (fun l => weigh f l.jobs) hl l'
    have heq := hweigh f
    simp only [weigh_held, State.setLoop, weigh_nil]
    omega
  sending := by
    have hset := Slots.sum_map_set (fun l => weigh bareCount l.jobs) hl l'
    have heq := hweigh bareCount
    simp only [weigh_sending, State.setLoop]
    omega
  live := rfl
  finished := by simp [State.setLoop]
  issued := rfl
  batches := rfl

theorem Moves.refl : Moves s s [] where
  held f _ := by simp
  sending := Nat.le_refl _
  live := rfl
  finished := by simp
  issued := rfl
  batches := rfl

section Workers

variable {f : Job → Nat} {job : Job}

@[simp] theorem weigh_waiting : weigh f Worker.waiting.jobs = 0 := rfl

@[simp] theorem weigh_working : weigh f (Worker.working job).jobs = f job := by simp [Worker.jobs]

@[simp] theorem weigh_leaving : weigh f (Worker.leaving job).jobs = f job := by simp [Worker.jobs]

@[simp] theorem weigh_exited : weigh f Worker.exited.jobs = 0 := rfl

end Workers

/-- What is not about transfers. -/
theorem Moves.of_eq (hheld : s'.held = s.held) (hsending : s'.sending = s.sending)
    (hlive : s'.live = s.live) (hfinished : s'.finished = s.finished) (hissued : s'.issued = s.issued)
    (hbatches : s'.batches = s.batches) : Moves s s' [] where
  held f _ := by rw [hheld, weigh_nil, Nat.add_zero]
  sending := Nat.le_of_eq (by rw [hsending])
  live := hlive
  finished := by rw [hfinished, List.append_nil]
  issued := hissued
  batches := hbatches

theorem Moves.takeHttp {i : Nat} {l : Loop} (hl : s.loops[i]? = some l) :
    Moves s ({ s with httpQueue := (takeHttp l s.httpQueue).2 }.setLoop i
      ((takeHttp l s.httpQueue).1.goto .flag)) [] where
  held f _ := by
    have hset := Slots.sum_map_set (fun l => weigh f l.jobs) hl
      ((Workers.takeHttp l s.httpQueue).1.goto .flag)
    have htook := Loop.weigh_takeHttp f l s.httpQueue
    simp only [weigh_held, State.setLoop, weigh_nil]
    omega
  sending := by
    have hset := Slots.sum_map_set (fun l => weigh bareCount l.jobs) hl
      ((Workers.takeHttp l s.httpQueue).1.goto .flag)
    have htook := Loop.weigh_takeHttp bareCount l s.httpQueue
    simp only [weigh_sending, State.setLoop]
    omega
  live := rfl
  finished := by simp [State.setLoop]
  issued := rfl
  batches := rfl

theorem Moves.refresh {i : Nat} {l : Loop} {job : Job} (hl : s.loops[i]? = some l)
    (hhand : l.hand = .handling job) :
    Moves s ({ s with
      credentialQueue := { job with credentialsReady := false } :: s.credentialQueue }.setLoop i
        l.emptied) [] where
  held f hf := by
    have hset := Slots.sum_map_set (fun l => weigh f l.jobs) hl l.emptied
    have hgave := @Loop.weigh_emptied f l
    simp only [hhand, Hand.jobs, weigh_cons, weigh_nil] at hgave
    simp only [weigh_held, State.setLoop, weigh_nil, weigh_cons, hf job false]
    omega
  sending := by
    have hset := Slots.sum_map_set (fun l => weigh bareCount l.jobs) hl l.emptied
    have hgave := @Loop.weigh_emptied bareCount l
    simp only [weigh_sending, State.setLoop]
    omega
  live := rfl
  finished := by simp [State.setLoop]
  issued := rfl
  batches := rfl

theorem Moves.finished_loop {i : Nat} {l : Loop} {job : Job} (hl : s.loops[i]? = some l)
    (hhand : l.hand = .leaving job) : Moves s ((s.setLoop i l.emptied).leave [job]) [job] where
  held f _ := by
    have hset := Slots.sum_map_set (fun l => weigh f l.jobs) hl l.emptied
    have hgave := @Loop.weigh_emptied f l
    simp only [hhand, Hand.jobs, weigh_cons, weigh_nil] at hgave
    simp only [weigh_held, State.leave, State.setLoop, weigh_cons, weigh_nil]
    omega
  sending := by
    have hset := Slots.sum_map_set (fun l => weigh bareCount l.jobs) hl l.emptied
    have hgave := @Loop.weigh_emptied bareCount l
    simp only [weigh_sending, State.leave, State.setLoop]
    omega
  live := rfl
  finished := rfl
  issued := rfl
  batches := rfl

/-- A file worker takes a transfer from its queue, or goes on with the one it has. -/
theorem Moves.file {w : Nat} {x x' : Worker} {queue : List Job} (hx : s.fileWorkers[w]? = some x)
    (hweigh : ∀ f, weigh f queue + weigh f x'.jobs = weigh f s.fileQueue + weigh f x.jobs) :
    Moves s ({ s with fileQueue := queue }.setFile w x') [] where
  held f _ := by
    have hset := Slots.sum_map_set (fun w => weigh f w.jobs) hx x'
    have hsum := hweigh f
    simp only [weigh_held, State.setFile, weigh_nil]
    omega
  sending := Nat.le_refl _
  live := rfl
  finished := by simp [State.setFile]
  issued := rfl
  batches := rfl

theorem Moves.finished_file {w : Nat} {job : Job} (hx : s.fileWorkers[w]? = some (.leaving job)) :
    Moves s ((s.setFile w .waiting).leave [job]) [job] where
  held f _ := by
    have hset := Slots.sum_map_set (fun w => weigh f w.jobs) hx .waiting
    rw [weigh_leaving, weigh_waiting, Nat.add_zero] at hset
    simp only [weigh_held, State.leave, State.setFile, weigh_cons, weigh_nil]
    omega
  sending := Nat.le_refl _
  live := rfl
  finished := rfl
  issued := rfl
  batches := rfl

/-- A credential worker takes a transfer from its queue, goes on with the one it has, or hands it to
the I/O loops once it has its credentials. -/
theorem Moves.credential {w : Nat} {x x' : Worker} {queue sent : List Job}
    (hx : s.credentialWorkers[w]? = some x) (hready : ∀ job ∈ sent, job.bare = false)
    (hweigh : ∀ f, Blind f → weigh f queue + weigh f x'.jobs + weigh f sent =
      weigh f s.credentialQueue + weigh f x.jobs) :
    Moves s ({ s with
      credentialQueue := queue, httpQueue := s.httpQueue ++ sent }.setCredential w x') [] where
  held f hf := by
    have hset := Slots.sum_map_set (fun w => weigh f w.jobs) hx x'
    have hsum := hweigh f hf
    simp only [weigh_held, State.setCredential, weigh_append, weigh_nil]
    omega
  sending := by
    have hsent : weigh bareCount sent = 0 := by
      rw [weigh_eq_zero]
      intro job hjob
      rw [bareCount, hready job hjob]
      rfl
    simp only [weigh_sending, State.setCredential, weigh_append, hsent]
    omega
  live := rfl
  finished := by simp [State.setCredential]
  issued := rfl
  batches := rfl

theorem Moves.finished_credential {w : Nat} {job : Job}
    (hx : s.credentialWorkers[w]? = some (.leaving job)) :
    Moves s ((s.setCredential w .waiting).leave [job]) [job] where
  held f _ := by
    have hset := Slots.sum_map_set (fun w => weigh f w.jobs) hx .waiting
    rw [weigh_leaving, weigh_waiting, Nat.add_zero] at hset
    simp only [weigh_held, State.leave, State.setCredential, weigh_cons, weigh_nil]
    omega
  sending := Nat.le_refl _
  live := rfl
  finished := rfl
  issued := rfl
  batches := rfl

theorem Moves.enqueue {k : Nat} {u : Submission} (hu : s.submissions[k]? = some u) :
    Moves s { s with
      fileQueue := s.fileQueue ++ u.transfers.filter Job.toFile,
      credentialQueue := s.credentialQueue ++ u.transfers.filter Job.toCredentials,
      submissions := s.submissions.set k
        { transfers := [], ready := u.ready ++ u.transfers.filter Job.toHttp } } [] where
  held f _ := by
    have hset := Slots.sum_map_set (fun u => weigh f u.jobs) hu
      { transfers := [], ready := u.ready ++ u.transfers.filter Job.toHttp }
    have hroutes := @weigh_routes f u.transfers
    simp only [Submission.jobs, weigh_append, weigh_nil] at hset
    simp only [weigh_held, Submission.jobs, weigh_append, weigh_nil]
    omega
  sending := by
    have hset := Slots.sum_map_set (fun u => weigh bareCount u.ready) hu
      { transfers := [], ready := u.ready ++ u.transfers.filter Job.toHttp }
    have hhttp : weigh bareCount (u.transfers.filter Job.toHttp) = 0 := by
      rw [weigh_eq_zero]
      intro job hjob
      have hto := (List.mem_filter.mp hjob).2
      simp only [Job.toHttp, Bool.and_eq_true, Bool.not_eq_eq_eq_not, Bool.not_true] at hto
      simp [bareCount, Job.bare, hto.1]
    simp only [weigh_append, hhttp] at hset
    simp only [weigh_sending]
    omega
  live := rfl
  finished := by simp
  issued := rfl
  batches := rfl

theorem Moves.publish {k : Nat} {u : Submission} (hu : s.submissions[k]? = some u)
    (hnil : u.transfers = []) :
    Moves s { s with
      httpQueue := s.httpQueue ++ u.ready, submissions := s.submissions.eraseIdx k } [] where
  held f _ := by
    have herase := Slots.sum_map_eraseIdx (fun u => weigh f u.jobs) hu
    simp only [Submission.jobs, hnil, List.nil_append] at herase
    simp only [weigh_held, weigh_append, weigh_nil, Submission.jobs] at herase ⊢
    omega
  sending := by
    have herase := Slots.sum_map_eraseIdx (fun u => weigh bareCount u.ready) hu
    simp only [weigh_sending, weigh_append]
    omega
  live := rfl
  finished := by simp
  issued := rfl
  batches := rfl

/-- `cancel` drops what is queued for the batch. -/
theorem Moves.cancelQueues {k : Nat} {c c' : Cancellation} :
    Moves s (({ s with
      fileQueue := s.fileQueue.filter fun job => !job.ofBatch c.batch,
      credentialQueue := s.credentialQueue.filter fun job => !job.ofBatch c.batch }.leave
        (s.fileQueue.filter (Job.ofBatch c.batch) ++
          s.credentialQueue.filter (Job.ofBatch c.batch))).setCancel k c')
      (s.fileQueue.filter (Job.ofBatch c.batch) ++
        s.credentialQueue.filter (Job.ofBatch c.batch)) where
  held f _ := by
    have hfile := @weigh_filter_add f (Job.ofBatch c.batch) s.fileQueue
    have hcredential := @weigh_filter_add f (Job.ofBatch c.batch) s.credentialQueue
    simp only [weigh_held, State.leave, State.setCancel, weigh_append]
    omega
  sending := Nat.le_refl _
  live := rfl
  finished := rfl
  issued := rfl
  batches := rfl

theorem Moves.cancelHttp {k : Nat} {c c' : Cancellation} :
    Moves s (({ s with httpQueue := s.httpQueue.filter fun job => !job.ofBatch c.batch }.leave
      (s.httpQueue.filter (Job.ofBatch c.batch))).setCancel k c')
      (s.httpQueue.filter (Job.ofBatch c.batch)) where
  held f _ := by
    have hhttp := @weigh_filter_add f (Job.ofBatch c.batch) s.httpQueue
    simp only [weigh_held, State.leave, State.setCancel]
    omega
  sending := by
    have hhttp := @weigh_filter_add bareCount (Job.ofBatch c.batch) s.httpQueue
    simp only [weigh_sending, State.leave, State.setCancel]
    omega
  live := rfl
  finished := rfl
  issued := rfl
  batches := rfl

/-- The destructor drops what is still queued. -/
theorem Moves.scrap :
    Moves s ({ s with httpQueue := [], fileQueue := [], credentialQueue := [] }.leave
      (s.httpQueue ++ s.fileQueue ++ s.credentialQueue))
      (s.httpQueue ++ s.fileQueue ++ s.credentialQueue) where
  held f _ := by
    simp only [weigh_held, State.leave, weigh_append, weigh_nil]
    omega
  sending := by
    simp only [weigh_sending, State.leave, weigh_nil]
    omega
  live := rfl
  finished := rfl
  issued := rfl
  batches := rfl

/-- What `submit` does. -/
structure Arrives (s s' : State) (jobs : List Job) : Prop where
  held : ∀ f, weigh f s'.held = weigh f s.held + weigh f jobs
  sending : s'.sending = s.sending
  live : s'.live = fun b => if b = s.batches then jobs.length else s.live b
  finished : s'.finished = s.finished
  issued : s'.issued = s.issued ++ jobs
  batches : s'.batches = s.batches + 1

theorem Arrives.submit (jobs : List Job) :
    Arrives s { s with
      live := fun b => if b = s.batches then jobs.length else s.live b,
      submissions := s.submissions ++ [{ transfers := jobs }],
      batches := s.batches + 1,
      issued := s.issued ++ jobs } jobs where
  held f := by
    simp [weigh_held, Submission.jobs]
    omega
  sending := by simp [State.sending]
  live := rfl
  finished := rfl
  issued := rfl
  batches := rfl

/-- Everything an event can do to the transfers. -/
theorem step_moves {e : Event} (hw : ∀ l ∈ s.loops, l.Within) (h : step s e = some s') :
    (∃ gone, Moves s s' gone) ∨
      ∃ backends, Arrives s s' (newJobs s.batches s.issued.length backends) := by
  cases e with
  | loop i e =>
      obtain ⟨l, hl, h⟩ := Option.bind_eq_some_iff.mp h
      obtain ⟨l', hl', ⟨⟩⟩ := Option.bind_eq_some_iff.mp h
      have hwithin := hw l (List.mem_of_getElem? hl)
      exact .inl ⟨[], Moves.loop hl fun f => Loop.weigh_step hwithin hl'⟩
  | takeHttp i =>
      obtain ⟨l, hl, h⟩ := Option.bind_eq_some_iff.mp h
      obtain ⟨-, ⟨⟩⟩ := Option.ite_none_right_eq_some.mp h
      exact .inl ⟨[], Moves.takeHttp hl⟩
  | refresh i job =>
      obtain ⟨l, hl, h⟩ := Option.bind_eq_some_iff.mp h
      obtain ⟨⟨hhand, -⟩, ⟨⟩⟩ := Option.ite_none_right_eq_some.mp h
      exact .inl ⟨[], Moves.refresh hl hhand⟩
  | finished i job =>
      obtain ⟨l, hl, h⟩ := Option.bind_eq_some_iff.mp h
      obtain ⟨hhand, ⟨⟩⟩ := Option.ite_none_right_eq_some.mp h
      exact .inl ⟨[job], Moves.finished_loop hl hhand⟩
  | fileTake w =>
      simp only [step] at h
      split at h <;> cases h
      rename_i job rest hx hqueue
      refine .inl ⟨[], Moves.file hx ?_⟩
      intro f
      simp [hqueue, Nat.add_comm]
  | fileRead w job =>
      obtain ⟨-, ⟨⟩⟩ := Option.ite_none_right_eq_some.mp h
      exact .inl ⟨[], .refl⟩
  | fileLeave w job =>
      obtain ⟨hx, ⟨⟩⟩ := Option.ite_none_right_eq_some.mp h
      refine .inl ⟨[], Moves.file hx ?_⟩
      intro f
      simp
  | fileFinished w job =>
      obtain ⟨hx, ⟨⟩⟩ := Option.ite_none_right_eq_some.mp h
      exact .inl ⟨[job], Moves.finished_file hx⟩
  | fileExit w =>
      obtain ⟨⟨hx, -⟩, ⟨⟩⟩ := Option.ite_none_right_eq_some.mp h
      refine .inl ⟨[], Moves.file hx ?_⟩
      intro f
      simp
  | credentialTake w =>
      simp only [step] at h
      split at h <;> cases h
      rename_i job rest hx hqueue _
      have hmove := @Moves.credential s w _ (.working job) rest [] hx (by simp)
        (by simp [hqueue, Nat.add_comm])
      rw [List.append_nil] at hmove
      exact .inl ⟨[], hmove⟩
  | credentialLeave w job =>
      obtain ⟨hx, ⟨⟩⟩ := Option.ite_none_right_eq_some.mp h
      have hmove := @Moves.credential s w _ (.leaving job) s.credentialQueue [] hx (by simp) (by simp)
      rw [List.append_nil] at hmove
      exact .inl ⟨[], hmove⟩
  | credentialExit w =>
      obtain ⟨⟨hx, -⟩, ⟨⟩⟩ := Option.ite_none_right_eq_some.mp h
      have hmove := @Moves.credential s w _ .exited s.credentialQueue [] hx (by simp) (by simp)
      rw [List.append_nil] at hmove
      exact .inl ⟨[], hmove⟩
  | queueHttp w job =>
      obtain ⟨hx, h⟩ := Option.ite_none_right_eq_some.mp h
      split at h <;> cases h
      · have hmove := @Moves.credential s w _ (.leaving { job with credentialsReady := true })
          s.credentialQueue [] hx (by simp) (by intro f hf; simp [hf job true])
        rw [List.append_nil] at hmove
        exact .inl ⟨[], hmove⟩
      · refine .inl ⟨[], Moves.credential hx ?_ ?_⟩
        · simp [Job.bare]
        · intro f hf
          simp [hf job true]
  | credentialFinished w job =>
      obtain ⟨hx, ⟨⟩⟩ := Option.ite_none_right_eq_some.mp h
      exact .inl ⟨[job], Moves.finished_credential hx⟩
  | submit backends =>
      cases h
      exact .inr ⟨backends, Arrives.submit _⟩
  | enqueue k =>
      obtain ⟨u, hu, ⟨⟩⟩ := Option.bind_eq_some_iff.mp h
      exact .inl ⟨[], Moves.enqueue hu⟩
  | publish k =>
      obtain ⟨u, hu, h⟩ := Option.bind_eq_some_iff.mp h
      obtain ⟨hnil, ⟨⟩⟩ := Option.ite_none_right_eq_some.mp h
      exact .inl ⟨[], Moves.publish hu hnil⟩
  | cancel batch =>
      obtain ⟨-, ⟨⟩⟩ := Option.ite_none_right_eq_some.mp h
      exact .inl ⟨[], Moves.of_eq rfl rfl rfl rfl rfl rfl⟩
  | cancelCheck k =>
      obtain ⟨c, -, h⟩ := Option.bind_eq_some_iff.mp h
      obtain ⟨-, h⟩ := Option.ite_none_right_eq_some.mp h
      split at h <;> cases h <;> exact .inl ⟨[], Moves.of_eq rfl rfl rfl rfl rfl rfl⟩
  | cancelMark k =>
      obtain ⟨c, -, h⟩ := Option.bind_eq_some_iff.mp h
      obtain ⟨-, ⟨⟩⟩ := Option.ite_none_right_eq_some.mp h
      exact .inl ⟨[], Moves.of_eq rfl rfl rfl rfl rfl rfl⟩
  | cancelQueues k =>
      obtain ⟨c, -, h⟩ := Option.bind_eq_some_iff.mp h
      obtain ⟨-, ⟨⟩⟩ := Option.ite_none_right_eq_some.mp h
      exact .inl ⟨_, Moves.cancelQueues⟩
  | cancelHttp k =>
      obtain ⟨c, -, h⟩ := Option.bind_eq_some_iff.mp h
      obtain ⟨-, ⟨⟩⟩ := Option.ite_none_right_eq_some.mp h
      exact .inl ⟨_, Moves.cancelHttp⟩
  | cancelLoop k =>
      obtain ⟨c, -, h⟩ := Option.bind_eq_some_iff.mp h
      split at h
      · split at h
        · rename_i i _ _ l hl
          cases h
          have hmove : Moves s (s.setLoop i { l with cancellationPending := true }) [] :=
            Moves.loop hl fun f => rfl
          exact .inl ⟨[], ⟨hmove.held, hmove.sending, hmove.live, hmove.finished, hmove.issued,
            hmove.batches⟩⟩
        · cases h
          exact .inl ⟨[], Moves.of_eq rfl rfl rfl rfl rfl rfl⟩
      · cases h
  | cancelReturn k =>
      obtain ⟨c, -, h⟩ := Option.bind_eq_some_iff.mp h
      obtain ⟨-, ⟨⟩⟩ := Option.ite_none_right_eq_some.mp h
      exact .inl ⟨[], Moves.of_eq rfl rfl rfl rfl rfl rfl⟩
  | stopWorkers =>
      cases h
      exact .inl ⟨[], Moves.of_eq rfl rfl rfl rfl rfl rfl⟩
  | scrap =>
      obtain ⟨-, ⟨⟩⟩ := Option.ite_none_right_eq_some.mp h
      exact .inl ⟨_, Moves.scrap⟩

end Moves

end Workers

end Karu
