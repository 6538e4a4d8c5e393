/-
# `Karu.Runtime.Ownership` — every transfer has one owner until it is finished

`State.places` lists every transfer with the place it is in.  In every reachable
state a transfer that was submitted and is not finished is in one of them, and
`live_transfers` is the number of those of its batch (`Owned`).

When `cancel` finds `live_transfers` at zero, no transfer of the batch is left,
and nothing brings one back: later batches have other numbers (`Returned`).
-/
import Karu.Runtime.Custody
import Mathlib.Data.List.Nodup

namespace Karu

open Base

namespace Workers

/-! ## Places -/

/-- Where a transfer may be.  `loopHand` is a local variable of `io_loop`: the transfer at hand, or
one that is to be started again. -/
inductive Place where
  | fileQueue | credentialQueue | httpQueue
  | pending (loop : Nat) | resolving (loop : Nat) | retries (loop : Nat) | active (loop : Nat)
  | loopHand (loop : Nat) | fileHand (worker : Nat) | credentialHand (worker : Nat)
  | submitHand (call : Nat)
deriving DecidableEq

/-- On the way to libcurl. -/
def Place.sending : Place → Bool
  | .httpQueue | .pending _ | .resolving _ | .retries _ | .active _ | .loopHand _ => true
  | .fileQueue | .credentialQueue | .fileHand _ | .credentialHand _ | .submitHand _ => false

def Loop.places (l : Loop) (i : Nat) : List (Place × Job) :=
  l.pending.map (.pending i, ·) ++ l.resolving.map (.resolving i, ·) ++
    l.retries.map (.retries i, ·) ++ l.active.map (.active i, ·) ++
    (l.waiting ++ l.hand.jobs).map (.loopHand i, ·)

/-- Every transfer the engine holds, with its place. -/
def State.places (s : State) : List (Place × Job) :=
  s.fileQueue.map (.fileQueue, ·) ++ s.credentialQueue.map (.credentialQueue, ·) ++
    s.httpQueue.map (.httpQueue, ·) ++
    s.loops.zipIdx.flatMap (fun x => x.1.places x.2) ++
    s.fileWorkers.zipIdx.flatMap (fun x => x.1.jobs.map (.fileHand x.2, ·)) ++
    s.credentialWorkers.zipIdx.flatMap (fun x => x.1.jobs.map (.credentialHand x.2, ·)) ++
    s.submissions.zipIdx.flatMap (fun x => x.1.jobs.map (.submitHand x.2, ·))

/-- The transfers whose destinations an event may write to: libcurl hands over what has arrived, a
file worker reads, and `deliver` copies out of a shared buffer. -/
def writes (s : State) : Event → List Job
  | .loop i (.perform _) => (s.loops[i]?.map Loop.active).getD []
  | .loop _ (.handled job .finish) => [job]
  | .fileRead _ job => [job]
  | .fileLeave _ job => [job]
  | _ => []

/-! ## Counting -/

def inBatch (b : Nat) (job : Job) : Nat := (job.ofBatch b).toNat
def hasId (i : Nat) (job : Job) : Nat := (job.id == i).toNat

section Counting

variable {s s' : State}

theorem blind_inBatch (b : Nat) : Blind (inBatch b) := fun _ _ => rfl

theorem blind_hasId (i : Nat) : Blind (hasId i) := fun _ _ => rfl

theorem weigh_toNat (p : Job → Bool) (jobs : List Job) :
    weigh (fun job => (p job).toNat) jobs = jobs.countP p := by
  induction jobs with
  | nil => rfl
  | cons job jobs ih => cases hp : p job <;> simp [hp, ih, Nat.add_comm]

/-- `transfer_finished` for each of them. -/
theorem foldl_transferFinished (gone : List Job) (live : Nat → Nat) (b : Nat) :
    gone.foldl transferFinished live b = live b - weigh (inBatch b) gone := by
  induction gone generalizing live with
  | nil => rfl
  | cons job gone ih =>
      rw [List.foldl_cons, ih, weigh_cons]
      by_cases hb : b = job.batch
      · have hone : inBatch b job = 1 := by simp [inBatch, Job.ofBatch, hb]
        rw [transferFinished, if_pos hb, hone]
        split <;> omega
      · have hzero : inBatch b job = 0 := by
          simp [inBatch, Job.ofBatch, Ne.symm hb]
        rw [transferFinished, if_neg hb, hzero, Nat.zero_add]

theorem newJobs_batch {batch first : Nat} {backends : List Backend} :
    ∀ job ∈ newJobs batch first backends, job.batch = batch := by
  induction backends generalizing first with
  | nil => simp [newJobs]
  | cons backend rest ih =>
      intro job hjob
      rw [newJobs, List.mem_cons] at hjob
      obtain rfl | hrest := hjob
      · rfl
      · exact ih job hrest

theorem newJobs_ids {batch first : Nat} {backends : List Backend} :
    (newJobs batch first backends).map Job.id =
      List.range' first (newJobs batch first backends).length := by
  induction backends generalizing first with
  | nil => rfl
  | cons backend rest ih => simp [newJobs, ih, List.range'_succ]

theorem weigh_inBatch_all {b : Nat} {jobs : List Job} (h : ∀ job ∈ jobs, job.batch = b) :
    weigh (inBatch b) jobs = jobs.length := by
  refine (weigh_toNat _ jobs).trans (List.countP_eq_length.mpr ?_)
  intro job hjob
  simp [Job.ofBatch, h job hjob]

theorem weigh_inBatch_none {b : Nat} {jobs : List Job} (h : ∀ job ∈ jobs, job.batch ≠ b) :
    weigh (inBatch b) jobs = 0 := by
  rw [weigh_eq_zero]
  intro job hjob
  simp [inBatch, Job.ofBatch, h job hjob]

theorem of_weigh_inBatch {b : Nat} {jobs : List Job} (h : weigh (inBatch b) jobs = 0) :
    ∀ job ∈ jobs, job.batch ≠ b := by
  intro job hjob
  simpa [inBatch, Job.ofBatch] using weigh_eq_zero.mp h job hjob

end Counting

/-! ## The invariant -/

/-- What holds between all the places, the counters and the record of the run. -/
structure Owned (s : State) : Prop where
  weighed : ∀ f, Blind f → weigh f s.held + weigh f s.finished = weigh f s.issued
  live : ∀ b, s.live b = weigh (inBatch b) s.held
  sending : weigh bareCount s.sending = 0
  ids : s.issued.map Job.id = List.range' 0 s.issued.length
  issued_lt : ∀ job ∈ s.issued, job.batch < s.batches

/-- Calls of `cancel` are about batches that exist, and one that is over has left nothing. -/
structure Returned (s : State) : Prop where
  cancels_lt : ∀ c ∈ s.cancellations, c.batch < s.batches
  returned : ∀ b ∈ s.returned, b < s.batches ∧ weigh (inBatch b) s.held = 0

section Invariant

variable {s s' : State}

theorem Owned.fresh (h : Owned s) : weigh (inBatch s.batches) s.held = 0 := by
  have hissued : weigh (inBatch s.batches) s.issued = 0 :=
    weigh_inBatch_none fun job hjob => Nat.ne_of_lt (h.issued_lt job hjob)
  have hsum := h.weighed _ (blind_inBatch s.batches)
  omega

theorem Owned.moves (h : Owned s) {gone : List Job} (hm : Moves s s' gone) : Owned s' where
  weighed f hf := by
    have hsum := h.weighed f hf
    have hmove := hm.held f hf
    rw [hm.finished, hm.issued, weigh_append]
    omega
  live b := by
    have hmove := hm.held _ (blind_inBatch b)
    rw [hm.live, foldl_transferFinished, h.live b]
    omega
  sending := Nat.le_zero.mp (h.sending ▸ hm.sending)
  ids := by rw [hm.issued]; exact h.ids
  issued_lt := by rw [hm.issued, hm.batches]; exact h.issued_lt

theorem Owned.arrives (h : Owned s) {backends : List Backend}
    (ha : Arrives s s' (newJobs s.batches s.issued.length backends)) : Owned s' where
  weighed f hf := by
    have hsum := h.weighed f hf
    rw [ha.held, ha.finished, ha.issued, weigh_append]
    omega
  live b := by
    rw [ha.live, ha.held]
    dsimp only
    split
    · rename_i hb
      rw [hb, h.fresh, weigh_inBatch_all newJobs_batch, Nat.zero_add]
    · rename_i hb
      have hnone : weigh (inBatch b) (newJobs s.batches s.issued.length backends) = 0 :=
        weigh_inBatch_none fun job hjob => newJobs_batch job hjob ▸ Ne.symm hb
      rw [h.live b, hnone, Nat.add_zero]
  sending := by rw [ha.sending]; exact h.sending
  ids := by
    rw [ha.issued, List.map_append, h.ids, newJobs_ids, List.length_append]
    simpa using @List.range'_append_1 0 s.issued.length
      (newJobs s.batches s.issued.length backends).length
  issued_lt := by
    intro job hjob
    rw [ha.issued, List.mem_append] at hjob
    rw [ha.batches]
    obtain hold | hnew := hjob
    · exact Nat.lt_succ_of_lt (h.issued_lt job hold)
    · rw [newJobs_batch job hnew]
      exact Nat.lt_succ_self _

theorem Owned.step {e : Event} (h : Owned s) (hw : ∀ l ∈ s.loops, l.Within)
    (hs : step s e = some s') : Owned s' := by
  obtain ⟨gone, hm⟩ | ⟨backends, ha⟩ := step_moves hw hs
  · exact h.moves hm
  · exact h.arrives ha

theorem Owned.start (concurrency ioThreads : Nat) : Owned (system concurrency ioThreads).start := by
  have hworkers : ∀ n, (List.replicate n Worker.waiting).flatMap Worker.jobs = [] := by
    intro n
    simp [Worker.jobs]
  have hloops : ∀ limits : List Nat,
      (limits.map fun limit => ({ limit } : Loop)).flatMap Loop.jobs = [] := by
    intro limits
    simp [Loop.jobs, Hand.jobs, List.flatMap_map]
  have hheld : (system concurrency ioThreads).start.held = [] := by
    simp [system, State.held, hworkers, hloops]
  have hsending : (system concurrency ioThreads).start.sending = [] := by
    simp [system, State.sending, hloops]
  constructor
  · intro f _
    rw [hheld]
    rfl
  · intro b
    rw [hheld]
    rfl
  · rw [hsending]
    rfl
  · rfl
  · intro job hjob
    cases hjob

theorem owned_reachable {concurrency ioThreads : Nat}
    (h : (system concurrency ioThreads).Reachable System.Anything s) : Owned s :=
  h.invariant (Owned.start concurrency ioThreads) fun hreach hI _ hs =>
    hI.step (within_reachable hreach).loops hs

/-- What an event does to the calls of `cancel`: a new one is about a batch that exists, and one
that is over has seen no live transfer. -/
structure Cancels (s s' : State) : Prop where
  cancels : ∀ c ∈ s'.cancellations, c.batch < s.batches ∨ ∃ d ∈ s.cancellations, d.batch = c.batch
  returned : s'.returned = s.returned ∨
    ∃ d ∈ s.cancellations, s'.returned = d.batch :: s.returned ∧ s'.live d.batch = 0

theorem Cancels.same (hc : s'.cancellations = s.cancellations) (hr : s'.returned = s.returned) :
    Cancels s s' :=
  ⟨fun c hmem => .inr ⟨c, hc ▸ hmem, rfl⟩, .inl hr⟩

theorem Cancels.set {k : Nat} {c : Cancellation} {phase : CancelPhase}
    (hk : s.cancellations[k]? = some c)
    (hc : s'.cancellations = s.cancellations.set k { c with phase }) (hr : s'.returned = s.returned) :
    Cancels s s' := by
  refine ⟨?_, .inl hr⟩
  intro d hd
  rw [hc] at hd
  obtain hmem | rfl := List.mem_or_eq_of_mem_set hd
  · exact .inr ⟨d, hmem, rfl⟩
  · exact .inr ⟨c, List.mem_of_getElem? hk, rfl⟩

theorem Cancels.over {k : Nat} {c : Cancellation} (hk : s.cancellations[k]? = some c)
    (hc : s'.cancellations = s.cancellations.eraseIdx k)
    (hr : s'.returned = c.batch :: s.returned) (hlive : s'.live c.batch = 0) : Cancels s s' := by
  refine ⟨?_, .inr ⟨c, List.mem_of_getElem? hk, hr, hlive⟩⟩
  intro d hd
  rw [hc] at hd
  exact .inr ⟨d, List.mem_of_mem_eraseIdx hd, rfl⟩

theorem step_cancels {e : Event} (h : step s e = some s') : Cancels s s' := by
  cases e with
  | loop i e =>
      obtain ⟨l, -, h⟩ := Option.bind_eq_some_iff.mp h
      obtain ⟨l', -, ⟨⟩⟩ := Option.bind_eq_some_iff.mp h
      exact .same rfl rfl
  | takeHttp i | refresh i job | finished i job | publish k =>
      obtain ⟨l, -, h⟩ := Option.bind_eq_some_iff.mp h
      obtain ⟨-, ⟨⟩⟩ := Option.ite_none_right_eq_some.mp h
      exact .same rfl rfl
  | fileRead w job | fileLeave w job | fileFinished w job | fileExit w | credentialLeave w job
  | credentialFinished w job | credentialExit w | scrap =>
      obtain ⟨-, ⟨⟩⟩ := Option.ite_none_right_eq_some.mp h
      exact .same rfl rfl
  | fileTake w | credentialTake w =>
      simp only [step] at h
      split at h <;> cases h
      exact .same rfl rfl
  | queueHttp w job =>
      obtain ⟨-, h⟩ := Option.ite_none_right_eq_some.mp h
      split at h <;> cases h <;> exact .same rfl rfl
  | submit backends | stopWorkers =>
      cases h
      exact .same rfl rfl
  | enqueue k =>
      obtain ⟨u, -, ⟨⟩⟩ := Option.bind_eq_some_iff.mp h
      exact .same rfl rfl
  | cancel batch =>
      obtain ⟨hlt, ⟨⟩⟩ := Option.ite_none_right_eq_some.mp h
      refine ⟨?_, .inl rfl⟩
      intro c hc
      obtain hmem | hnew := List.mem_append.mp hc
      · exact .inr ⟨c, hmem, rfl⟩
      · obtain rfl := List.mem_singleton.mp hnew
        exact .inl hlt
  | cancelCheck k =>
      obtain ⟨c, hk, h⟩ := Option.bind_eq_some_iff.mp h
      obtain ⟨-, h⟩ := Option.ite_none_right_eq_some.mp h
      split at h
      · rename_i hlive
        cases h
        exact .over hk rfl rfl hlive
      · cases h
        exact .set hk rfl rfl
  | cancelMark k | cancelQueues k | cancelHttp k =>
      obtain ⟨c, hk, h⟩ := Option.bind_eq_some_iff.mp h
      obtain ⟨-, ⟨⟩⟩ := Option.ite_none_right_eq_some.mp h
      exact .set hk rfl rfl
  | cancelLoop k =>
      obtain ⟨c, hk, h⟩ := Option.bind_eq_some_iff.mp h
      split at h
      · split at h <;> cases h <;> exact .set hk rfl rfl
      · cases h
  | cancelReturn k =>
      obtain ⟨c, hk, h⟩ := Option.bind_eq_some_iff.mp h
      obtain ⟨⟨-, hlive⟩, ⟨⟩⟩ := Option.ite_none_right_eq_some.mp h
      exact .over hk rfl rfl hlive

/-- No event brings a transfer of an old batch back. -/
theorem weigh_held_le {e : Event} (hw : ∀ l ∈ s.loops, l.Within) (hs : step s e = some s') {b : Nat}
    (hb : b < s.batches) :
    weigh (inBatch b) s'.held ≤ weigh (inBatch b) s.held ∧ s.batches ≤ s'.batches := by
  obtain ⟨gone, hm⟩ | ⟨backends, ha⟩ := step_moves hw hs
  · have hmove := hm.held _ (blind_inBatch b)
    exact ⟨by omega, Nat.le_of_eq hm.batches.symm⟩
  · have hnone : weigh (inBatch b) (newJobs s.batches s.issued.length backends) = 0 :=
      weigh_inBatch_none fun job hjob => newJobs_batch job hjob ▸ Ne.symm (Nat.ne_of_lt hb)
    rw [ha.held, hnone, ha.batches]
    exact ⟨Nat.le_refl _, Nat.le_succ _⟩

theorem Returned.step {e : Event} (h : Returned s) (howned : Owned s')
    (hw : ∀ l ∈ s.loops, l.Within) (hs : Workers.step s e = some s') : Returned s' := by
  have hc := step_cancels hs
  have hle := fun {b : Nat} => @weigh_held_le s s' e hw hs b
  have hbatch : ∀ {b : Nat}, b < s.batches → b < s'.batches :=
    fun hb => Nat.lt_of_lt_of_le hb (hle hb).2
  constructor
  · intro c hmem
    obtain hlt | ⟨d, hd, heq⟩ := hc.cancels c hmem
    · exact hbatch hlt
    · exact hbatch (heq ▸ h.cancels_lt d hd)
  · have hold : ∀ b ∈ s.returned, b < s'.batches ∧ weigh (inBatch b) s'.held = 0 := by
      intro b hb
      obtain ⟨hlt, hzero⟩ := h.returned b hb
      exact ⟨hbatch hlt, Nat.le_zero.mp (hzero ▸ (hle hlt).1)⟩
    obtain heq | ⟨d, hd, heq, hlive⟩ := hc.returned
    · rw [heq]
      exact hold
    · intro b hb
      rw [heq, List.mem_cons] at hb
      obtain rfl | hb := hb
      · exact ⟨hbatch (h.cancels_lt d hd), (howned.live _).symm.trans hlive⟩
      · exact hold b hb

theorem returned_reachable {concurrency ioThreads : Nat}
    (h : (system concurrency ioThreads).Reachable System.Anything s) : Returned s := by
  induction h with
  | start => exact ⟨by simp [system], by simp [system]⟩
  | step hreach hallowed hs ih =>
      exact ih.step (owned_reachable (hreach.step hallowed hs)) (within_reachable hreach).loops hs

end Invariant

/-! ## One owner -/

section Places

variable {s s' : State}

theorem map_snd_zipIdx {α : Type} {g : α → Nat → List (Place × Job)} {jobs : α → List Job}
    (h : ∀ a i, (g a i).map Prod.snd = jobs a) (l : List α) :
    (l.zipIdx.flatMap fun x => g x.1 x.2).map Prod.snd = l.flatMap jobs := by
  rw [List.map_flatMap]
  simp only [h]
  rw [← List.flatMap_map Prod.fst jobs, List.zipIdx_map_fst]

theorem map_snd_label (p : Place) (jobs : List Job) :
    (jobs.map fun job => (p, job)).map Prod.snd = jobs := by
  simp [Function.comp_def]

theorem map_snd_hands {α : Type} (label : Nat → Place) (jobs : α → List Job) (l : List α) :
    (l.zipIdx.flatMap fun x => (jobs x.1).map fun job => (label x.2, job)).map Prod.snd =
      l.flatMap jobs :=
  map_snd_zipIdx (fun a i => map_snd_label (label i) (jobs a)) l

theorem Loop.places_snd (l : Loop) (i : Nat) : (l.places i).map Prod.snd = l.jobs := by
  simp only [Loop.places, Loop.jobs, List.map_append, map_snd_label]

/-- The places hold what the engine holds. -/
theorem State.places_snd (s : State) : s.places.map Prod.snd = s.held := by
  simp only [State.places, State.held, List.map_append, map_snd_label,
    map_snd_zipIdx Loop.places_snd, map_snd_hands Place.fileHand Worker.jobs,
    map_snd_hands Place.credentialHand Worker.jobs, map_snd_hands Place.submitHand Submission.jobs]

theorem countP_places (p : Job → Bool) (s : State) :
    s.places.countP (fun x => p x.2) = weigh (fun job => (p job).toNat) s.held := by
  rw [weigh_toNat, ← s.places_snd, List.countP_map]
  rfl

theorem weigh_hasId (i : Nat) (jobs : List Job) :
    weigh (hasId i) jobs = (jobs.map Job.id).count i := by
  refine (weigh_toNat (fun job => job.id == i) jobs).trans ?_
  rw [List.count, List.countP_map]
  rfl

theorem Owned.nodup (h : Owned s) : (s.issued.map Job.id).Nodup := by
  rw [h.ids]
  exact List.nodup_range'

/-- Every number is in the engine, finished, or not given out. -/
theorem Owned.count (h : Owned s) (i : Nat) :
    s.places.countP (fun p => p.2.id == i) + (s.finished.map Job.id).count i =
      (s.issued.map Job.id).count i := by
  rw [countP_places fun job => job.id == i, ← weigh_hasId, ← weigh_hasId]
  exact h.weighed _ (blind_hasId i)

/-- A transfer that is not finished is in one place. -/
theorem Owned.one_place (h : Owned s) {job : Job} (hissued : job ∈ s.issued)
    (hunfinished : job.id ∉ s.finished.map Job.id) :
    s.places.countP (fun p => p.2.id == job.id) = 1 := by
  have hsum := h.count job.id
  rw [List.count_eq_zero_of_not_mem hunfinished,
    List.count_eq_one_of_mem h.nodup (List.mem_map_of_mem hissued)] at hsum
  exact hsum

/-- What is in a place was submitted, and is not finished. -/
theorem Owned.place_unfinished (h : Owned s) {p : Place × Job} (hp : p ∈ s.places) :
    p.2.id ∈ s.issued.map Job.id ∧ p.2.id ∉ s.finished.map Job.id := by
  have hsum := h.count p.2.id
  have hpos : 0 < s.places.countP (fun x => x.2.id == p.2.id) :=
    List.countP_pos_iff.mpr ⟨p, hp, by simp⟩
  have hone := List.nodup_iff_count_le_one.mp h.nodup p.2.id
  constructor
  · exact List.count_pos_iff.mp (by omega)
  · exact List.count_eq_zero.mp (by omega)

theorem mem_held_of_loop {l : Loop} (hl : l ∈ s.loops) {job : Job} (hjob : job ∈ l.jobs) :
    job ∈ s.held := by
  have hmem : job ∈ s.loops.flatMap Loop.jobs := List.mem_flatMap.mpr ⟨l, hl, hjob⟩
  simp [State.held, hmem]

theorem mem_held_of_file {w : Worker} (hw : w ∈ s.fileWorkers) {job : Job} (hjob : job ∈ w.jobs) :
    job ∈ s.held := by
  have hmem : job ∈ s.fileWorkers.flatMap Worker.jobs := List.mem_flatMap.mpr ⟨w, hw, hjob⟩
  simp [State.held, hmem]

/-- What a step writes to is in a place. -/
theorem writes_held {e : Event} (hs : step s e = some s') : ∀ job ∈ writes s e, job ∈ s.held := by
  intro job hjob
  fun_cases writes s e
  · rename_i i ok
    obtain ⟨l, hl, -⟩ := Option.bind_eq_some_iff.mp hs
    rw [writes, hl] at hjob
    exact mem_held_of_loop (List.mem_of_getElem? hl) (by simp_all [Loop.jobs])
  · rename_i i job'
    obtain ⟨l, hl, h⟩ := Option.bind_eq_some_iff.mp hs
    obtain ⟨l', h, -⟩ := Option.bind_eq_some_iff.mp h
    obtain ⟨⟨hhand, -⟩, -⟩ := Option.ite_none_right_eq_some.mp h
    obtain rfl := List.mem_singleton.mp hjob
    exact mem_held_of_loop (List.mem_of_getElem? hl) (by simp [Loop.jobs, hhand, Hand.jobs])
  · obtain ⟨hx, -⟩ := Option.ite_none_right_eq_some.mp hs
    obtain rfl := List.mem_singleton.mp hjob
    exact mem_held_of_file (List.mem_of_getElem? hx) (by simp [Worker.jobs])
  · obtain ⟨hx, -⟩ := Option.ite_none_right_eq_some.mp hs
    obtain rfl := List.mem_singleton.mp hjob
    exact mem_held_of_file (List.mem_of_getElem? hx) (by simp [Worker.jobs])
  · simp_all [writes]

/-- What is on the way to libcurl has the credentials it needs. -/
theorem Owned.sending_ready (h : Owned s) : ∀ job ∈ s.sending, job.bare = false := by
  intro job hjob
  have hzero := weigh_eq_zero.mp h.sending job hjob
  cases hbare : job.bare with
  | false => rfl
  | true => simp [bareCount, hbare] at hzero

theorem Loop.places_sending {l : Loop} (hl : l ∈ s.loops) {i : Nat} {p : Place × Job}
    (hp : p ∈ l.places i) : p.2 ∈ s.sending := by
  have hjob : p.2 ∈ l.jobs := by
    rw [← l.places_snd i]
    exact List.mem_map_of_mem hp
  have hmem : p.2 ∈ s.loops.flatMap Loop.jobs := List.mem_flatMap.mpr ⟨l, hl, hjob⟩
  simp [State.sending, hmem]

theorem State.places_sending {p : Place × Job} (hp : p ∈ s.places) (hsending : p.1.sending = true) :
    p.2 ∈ s.sending := by
  simp only [State.places, List.mem_append, List.mem_map, List.mem_flatMap, Prod.exists] at hp
  rcases hp with (((((⟨job, -, rfl⟩ | ⟨job, -, rfl⟩) | ⟨job, hjob, rfl⟩) | ⟨l, i, hl, hp⟩) |
    ⟨w, i, -, job, -, rfl⟩) | ⟨w, i, -, job, -, rfl⟩) | ⟨u, i, -, job, -, rfl⟩
  case inl.inl.inl.inl.inr => simp [State.sending, hjob]
  case inl.inl.inl.inr =>
    exact Loop.places_sending (List.fst_mem_of_mem_zipIdx hl) hp
  all_goals simp [Place.sending] at hsending

/-- The branch for a cloud request without credentials is never taken. -/
theorem startTransfer_ready {job : Job} (h : job.bare = false) (prepared : Bool) (a : StartAnswer) :
    startTransfer job prepared a ≠ .finished .noCredentials := by
  have hprepare : prepareRequest job prepared a ≠ some .noCredentials := by
    fun_cases prepareRequest job prepared a <;> simp_all
  have hplace : placeRequest a ≠ .finished .noCredentials := by
    fun_cases placeRequest a <;> simp
  fun_cases startTransfer job prepared a
  · simp
  · rename_i refusal hrefusal
    rintro ⟨⟩
    exact hprepare hrefusal
  · exact hplace

/-- The engine loses no transfer, keeps none twice and sends none without credentials, and a call
of `cancel` that is over has left no transfer of the batch behind: nothing writes to its buffers
any more. -/
theorem transfers_owned {concurrency ioThreads : Nat}
    (h : (system concurrency ioThreads).Reachable System.Anything s) :
    (∀ job ∈ s.issued, job.id ∉ s.finished.map Job.id →
      s.places.countP (fun p => p.2.id == job.id) = 1) ∧
    (∀ p ∈ s.places, p.2.id ∈ s.issued.map Job.id ∧ p.2.id ∉ s.finished.map Job.id) ∧
    (∀ b, s.live b = s.places.countP (fun p => p.2.batch == b)) ∧
    (∀ p ∈ s.places, p.1.sending = true → p.2.backend.cloud = true → p.2.credentialsReady = true) ∧
    (∀ l ∈ s.loops, ∀ job prepared answer, l.hand = .starting job prepared →
      startTransfer job prepared answer ≠ .finished .noCredentials) ∧
    ∀ b ∈ s.returned, (∀ p ∈ s.places, p.2.batch ≠ b) ∧
      ∀ e s', step s e = some s' → ∀ job ∈ writes s e, job.batch ≠ b := by
  have howned := owned_reachable h
  refine ⟨fun _ => howned.one_place, fun _ => howned.place_unfinished, ?_, ?_, ?_, ?_⟩
  · intro b
    exact (howned.live b).trans (countP_places (Job.ofBatch b) s).symm
  · intro p hp hsending hcloud
    have hbare := howned.sending_ready _ (State.places_sending hp hsending)
    simpa [Job.bare, hcloud] using hbare
  · intro l hl job prepared answer hhand
    refine startTransfer_ready (howned.sending_ready job ?_) prepared answer
    have hmem : job ∈ s.loops.flatMap Loop.jobs :=
      List.mem_flatMap.mpr ⟨l, hl, by simp [Loop.jobs, hhand, Hand.jobs]⟩
    simp [State.sending, hmem]
  · intro b hb
    have hgone := of_weigh_inBatch ((returned_reachable h).returned b hb).2
    refine ⟨?_, fun e s' hs job hjob => hgone job (writes_held hs job hjob)⟩
    intro p hp
    refine hgone p.2 ?_
    rw [← s.places_snd]
    exact List.mem_map_of_mem hp

/-- A batch is cancelled while a credential worker has one of its transfers: the worker queues it
behind the sweep of the queues, and the loop discards it. -/
def handedOver : List Event :=
  [.submit [.s3, .http], .enqueue 0, .publish 0, .credentialTake 0, .cancel 0, .cancelCheck 0,
    .cancelMark 0, .cancelQueues 0, .cancelHttp 0, .queueHttp 0 ⟨0, 0, .s3, false⟩, .cancelLoop 0,
    .cancelLoop 0, .loop 0 .turn, .takeHttp 0, .loop 0 .exchange, .loop 0 (.sweep .pending 0),
    .finished 0 ⟨0, 0, .s3, true⟩, .cancelReturn 0]

theorem transfers_owned_handedOver :
    ∃ s, (system 1 1).run System.Anything (system 1 1).start handedOver = some s ∧
      s.issued.length = 2 ∧ s.returned = [0] ∧ ∀ p ∈ s.places, p.2.batch ≠ 0 := by
  have hrun : ((system 1 1).run System.Anything (system 1 1).start handedOver).map
      (fun s => (s.issued.length, s.returned)) = some (2, [0]) := by
    decide
  obtain ⟨s, hs, hfacts⟩ := Option.map_eq_some_iff.mp hrun
  obtain ⟨hissued, hreturned⟩ := Prod.mk.inj hfacts
  have howned := transfers_owned (System.Reachable.start.run hs)
  exact ⟨s, hs, hissued, hreturned, (howned.2.2.2.2.2 0 (by simp [hreturned])).1⟩

end Places

end Workers

end Karu
