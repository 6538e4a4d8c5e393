/-
# `Karu.Runtime.BatchRuns` — every completion of a batch, exactly once

What a plan promises is a list of results: its immediate completions and its
parts.  At every moment each of them is still to be pushed, or has been pushed
and waits in `ready`, or has been returned to a consumer: `Sound` says so, and
that the two counts of the batch are what they should be.  The order in which
the threads take their turns does not matter.

A count is too low only until `submit` has made it, and until then no other
thread knows the batch.
-/
import Karu.Base.Pairing
import Karu.Runtime.Batch

namespace Karu

open Base

namespace Batch

/-- What is to come of a part or of an immediate completion. -/
abbrev Result : Type := Completion ⊕ Transfer × Part

/-- A completion is that of a result. -/
def Delivers : Result → Completion → Prop
  | .inl c, completion => completion = c
  | .inr (t, p), completion => ∃ received status detail,
      completion = deliverPart { t with received := received } status detail p

/-! ## What has not been pushed -/

def transferResults (t : Transfer) : List Result := t.parts.map fun p => .inr (t, p)

def Submitting.results : Submitting → List Result
  | .planned plan => plan.results
  | .pushing immediate transfers => immediate.map .inl ++ transfers.flatMap transferResults
  | .publishing ready => ready.flatMap transferResults
  | .returned => []

def Submitting.transfers : Submitting → List Transfer
  | .planned plan => plan.transfers
  | .pushing _ transfers => transfers
  | .publishing ready => ready
  | .returned => []

/-- `submit` has counted what the plan holds. -/
def Submitting.counted : Submitting → Bool
  | .planned _ => false
  | _ => true

def Finishing.results (f : Finishing) : List Result := f.parts.map fun p => .inr (f.transfer, p)

namespace State

variable (s : State)

/-- The parts and the immediate completions that have not been pushed. -/
def unpushed : List Result :=
  s.submit.results ++ (s.owned.flatMap transferResults ++ s.finishing.flatMap Finishing.results)

/-- The transfers that nobody has begun to finish. -/
def unfinished : List Transfer := s.submit.transfers ++ s.owned

/-- The completions that `next` has returned, to all consumers, in the order it did. -/
def returned : List Completion :=
  s.log.filterMap fun
    | (_, .ok c) => some c
    | _ => none

end State

theorem plan_results (plan : TransferPlan) :
    plan.results = plan.immediate.map .inl ++ plan.transfers.flatMap transferResults := by
  simp only [TransferPlan.results, List.map_flatMap, List.map_map]
  rfl

theorem length_results (ts : List Transfer) :
    (ts.flatMap transferResults).length = (ts.map (·.parts.length)).sum := by
  simp only [List.length_flatMap, transferResults, List.length_map]

/-! ## The invariant -/

structure Sound (plan : TransferPlan) (s : State) : Prop where
  settled : Settles Delivers plan.results s.unpushed (s.returned ++ s.core.ready)
  pending : s.submit.counted = true → s.core.pendingParts = s.unpushed.length
  live : s.submit.counted = true → s.core.liveTransfers = s.unfinished.length + s.finishing.length
  transfers : s.submit.counted = true → s.core.transfers = plan.transfers.length
  finished : s.core.transfersFinished + s.unfinished.length = plan.transfers.length
  parts : ∀ t ∈ s.unfinished, t.parts ≠ []
  asleep : s.asleep ≠ [] → s.submit = .returned ∧ s.core.canReturn = false
  ended : ∀ c, (c, NextStatus.finished) ∈ s.log → s.core.ready = [] ∧ s.unpushed = []
  uncancelled : s.core.cancelled = false
  untouched : s.submit.counted = false → s = { submit := .planned plan }

section Steps

variable {plan : TransferPlan} {s : State}

/-- Nothing is pushed that has not been promised. -/
theorem Sound.unended (h : Sound plan s) {x : Result} {left : List Result}
    (hp : (x :: left).Perm s.unpushed) (c : Nat) : (c, NextStatus.finished) ∉ s.log := by
  intro hmem
  have hnone := (h.ended c hmem).2
  rw [hnone] at hp
  exact absurd hp.length_eq (by simp)

/-- A result is pushed, and with it nothing else changes hands. -/
theorem Sound.push (h : Sound plan s) {x : Result} {c : Completion} {s' : State}
    (hcounted : s.submit.counted = true) (hp : (x :: s'.unpushed).Perm s.unpushed)
    (hx : Delivers x c) (hcore : s'.core = s.core.push c) (hlog : s'.log = s.log)
    (hasleep : s'.asleep = []) (hcounted' : s'.submit.counted = true)
    (hunfinished : s'.unfinished = s.unfinished)
    (hfinishing : s'.finishing.length = s.finishing.length) : Sound plan s' := by
  have hlength : s.unpushed.length = s'.unpushed.length + 1 := hp.length_eq.symm
  have hpending := h.pending hcounted
  have hreturned : s'.returned = s.returned := by rw [State.returned, hlog, State.returned]
  refine ⟨?_, fun _ => ?_, fun _ => ?_, fun _ => ?_, ?_, ?_, ?_, ?_, ?_, ?_⟩
  · rw [hreturned, hcore, BatchCore.push, ← List.append_assoc]
    exact h.settled.settle hp hx
  · rw [hcore, BatchCore.push]
    show (if 0 < s.core.pendingParts then s.core.pendingParts - 1 else s.core.pendingParts) = _
    rw [if_pos (by omega)]
    omega
  · rw [hcore, hunfinished, hfinishing]
    exact h.live hcounted
  · rw [hcore]
    exact h.transfers hcounted
  · rw [hcore, hunfinished]
    exact h.finished
  · rw [hunfinished]
    exact h.parts
  · intro hne
    exact absurd hasleep hne
  · intro c hmem
    rw [hlog] at hmem
    exact absurd hmem (h.unended hp c)
  · rw [hcore]
    exact h.uncancelled
  · intro hno
    exact absurd (hno.symm.trans hcounted') (by decide)

/-- Results change hands, and nothing is pushed. -/
theorem Sound.move (h : Sound plan s) {s' : State} (live finished : Nat)
    (hcounted : s.submit.counted = true) (hcounted' : s'.submit.counted = true)
    (hp : s'.unpushed.Perm s.unpushed)
    (hcore : s'.core = { s.core with liveTransfers := live, transfersFinished := finished })
    (hlog : s'.log = s.log)
    (hlive : live + (s.unfinished.length + s.finishing.length) =
      s.core.liveTransfers + (s'.unfinished.length + s'.finishing.length))
    (hfinished : finished + s'.unfinished.length =
      s.core.transfersFinished + s.unfinished.length)
    (hparts : ∀ t ∈ s'.unfinished, t ∈ s.unfinished)
    (hasleep : s'.asleep ≠ [] → s'.submit = .returned ∧ s'.core.canReturn = false) :
    Sound plan s' := by
  have hreturned : s'.returned = s.returned := by rw [State.returned, hlog, State.returned]
  refine ⟨?_, fun _ => ?_, fun _ => ?_, fun _ => ?_, ?_, ?_, hasleep, ?_, ?_, ?_⟩
  · rw [hreturned, hcore]
    exact h.settled.perm hp
  · rw [hcore, hp.length_eq]
    exact h.pending hcounted
  · have := h.live hcounted
    rw [hcore]
    show live = _
    omega
  · rw [hcore]
    exact h.transfers hcounted
  · rw [hcore]
    exact hfinished.trans h.finished
  · intro t ht
    exact h.parts t (hparts t ht)
  · intro c hmem
    rw [hlog] at hmem
    obtain ⟨hempty, hnone⟩ := h.ended c hmem
    rw [hnone] at hp
    rw [hcore]
    exact ⟨hempty, hp.eq_nil⟩
  · rw [hcore]
    exact h.uncancelled
  · intro hno
    exact absurd (hno.symm.trans hcounted') (by decide)

/-- A consumer that may return does; it is told of the end only if there is nothing left. -/
theorem Sound.take (h : Sound plan s) (hsubmit : s.submit = .returned)
    (hreturn : s.core.canReturn = true) (consumer : Nat) : Sound plan (s.take consumer) := by
  have hcounted : s.submit.counted = true := by rw [hsubmit]; rfl
  have hawake : s.asleep = [] := by
    by_contra hne
    exact absurd (hreturn.symm.trans (h.asleep hne).2) (by decide)
  have hsettled := h.settled
  cases hready : s.core.ready with
  | nil =>
      have htake : s.take consumer = { s with log := s.log ++ [(consumer, .finished)] } := by
        simp only [State.take, BatchCore.take, hready]
      have hreturned : (s.take consumer).returned = s.returned := by
        rw [htake]
        simp [State.returned]
      have hnone : s.unpushed = [] := by
        have hpending := h.pending hcounted
        simp only [BatchCore.canReturn, hready, h.uncancelled, List.isEmpty_nil, Bool.not_true,
          Bool.false_or, Bool.or_false, beq_iff_eq] at hreturn
        exact List.length_eq_zero_iff.mp (hpending.symm.trans hreturn)
      rw [← hreturned] at hsettled
      rw [htake] at hsettled ⊢
      exact ⟨hsettled, h.pending, h.live, h.transfers, h.finished, h.parts, h.asleep,
        fun _ _ => ⟨hready, hnone⟩, h.uncancelled,
        fun hno => absurd (hno.symm.trans hcounted) (by decide)⟩
  | cons c rest =>
      have htake : s.take consumer =
          { s with core := { s.core with ready := rest }, log := s.log ++ [(consumer, .ok c)] } := by
        simp only [State.take, BatchCore.take, hready]
      have hreturned : (s.take consumer).returned = s.returned ++ [c] := by
        rw [htake]
        simp [State.returned]
      have hqueue : s.returned ++ s.core.ready = (s.take consumer).returned ++ rest := by
        rw [hreturned, hready, List.append_assoc, List.singleton_append]
      rw [hqueue] at hsettled
      rw [htake] at hsettled ⊢
      refine ⟨hsettled, h.pending, h.live, h.transfers, h.finished, h.parts,
        fun hne => absurd hawake hne, fun c' hmem => ?_, h.uncancelled, fun hno => ?_⟩
      · rcases List.mem_append.mp hmem with hmem | hmem
        · exact absurd (hready.symm.trans (h.ended c' hmem).1) (by simp)
        · cases List.mem_singleton.mp hmem
      · exact absurd (hno.symm.trans hcounted) (by decide)

theorem Sound.account (h : Sound plan s) {plan' : TransferPlan} (hsubmit : s.submit = .planned plan') :
    Sound plan (s.account plan') := by
  have hfresh := h.untouched (by rw [hsubmit]; rfl)
  subst hfresh
  cases hsubmit
  have hresults := plan_results plan
  refine ⟨?_, fun _ => ?_, fun _ => ?_, fun _ => ?_, h.finished, h.parts, fun hne => ?_, ?_, rfl,
    fun hno => ?_⟩
  · refine h.settled.perm (.of_eq ?_)
    simp only [State.unpushed, State.account, Submitting.results, hresults]
  · simp only [State.unpushed, State.account, Submitting.results, List.length_append,
      List.length_map, length_results, List.flatMap_nil, List.length_nil]
    omega
  · simp [State.unfinished, State.account, Submitting.transfers]
  · exact Nat.zero_add _
  · exact absurd rfl hne
  · intro c hmem
    cases hmem
  · cases hno

theorem Sound.pushImmediate (h : Sound plan s) {c : Completion} {immediate : List Completion}
    {transfers : List Transfer} (hsubmit : s.submit = .pushing (c :: immediate) transfers) :
    Sound plan (s.pushImmediate c immediate transfers) := by
  have hunpushed : s.unpushed = .inl c :: (s.pushImmediate c immediate transfers).unpushed := by
    rw [State.unpushed, hsubmit]
    rfl
  have hunfinished : (s.pushImmediate c immediate transfers).unfinished = s.unfinished := by
    rw [State.unfinished, State.unfinished, hsubmit]
    rfl
  exact h.push (x := .inl c) (by rw [hsubmit]; rfl) (by rw [hunpushed]) rfl rfl rfl rfl rfl
    hunfinished rfl

theorem Sound.enqueue (h : Sound plan s) {transfers : List Transfer}
    (hsubmit : s.submit = .pushing [] transfers) : Sound plan (s.enqueue transfers) := by
  have hall := List.filter_append_perm queuedFirst transfers
  have hlength : (s.enqueue transfers).unfinished.length = s.unfinished.length := by
    have := hall.length_eq
    simp only [State.unfinished, State.enqueue, hsubmit, Submitting.transfers,
      List.length_append] at this ⊢
    omega
  refine h.move s.core.liveTransfers s.core.transfersFinished
    (by rw [hsubmit]; rfl) rfl ?_ rfl rfl (by rw [hlength]; rfl) (by rw [hlength]) ?_ ?_
  · refine perm_of_countP fun p => ?_
    have := (hall.flatMap_right transferResults).countP_eq p
    simp only [State.unpushed, State.enqueue, hsubmit, Submitting.results, List.flatMap_append,
      List.countP_append, List.map_nil, List.nil_append] at this ⊢
    omega
  · intro t ht
    simp only [State.unfinished, State.enqueue, hsubmit, Submitting.transfers,
      List.mem_append] at ht ⊢
    have hmem : t ∈ transfers.filter queuedFirst ++ transfers.filter (!queuedFirst ·) ∨
        t ∈ s.owned := by
      rw [List.mem_append]
      tauto
    exact hmem.imp_left hall.mem_iff.mp
  · intro hne
    exact absurd (hsubmit.symm.trans (h.asleep hne).1) (by simp)

theorem Sound.publish (h : Sound plan s) {ready : List Transfer}
    (hsubmit : s.submit = .publishing ready) : Sound plan (s.publish ready) := by
  have hlength : (s.publish ready).unfinished.length = s.unfinished.length := by
    simp only [State.unfinished, State.publish, hsubmit, Submitting.transfers, List.length_append,
      List.length_nil]
    omega
  refine h.move s.core.liveTransfers s.core.transfersFinished
    (by rw [hsubmit]; rfl) rfl ?_ rfl rfl (by rw [hlength]; rfl) (by rw [hlength]) ?_ ?_
  · refine perm_of_countP fun p => ?_
    simp only [State.unpushed, State.publish, hsubmit, Submitting.results, List.flatMap_append,
      List.countP_append, List.countP_nil]
    omega
  · intro t ht
    simp only [State.unfinished, State.publish, hsubmit, Submitting.transfers, List.nil_append,
      List.mem_append] at ht ⊢
    exact ht.symm
  · intro hne
    exact absurd (hsubmit.symm.trans (h.asleep hne).1) (by simp)

/-- Before the plan is counted nobody owns a transfer of it. -/
theorem Sound.counted_of_owned (h : Sound plan s) (hs : s.owned ≠ [] ∨ s.finishing ≠ []) :
    s.submit.counted = true := by
  cases hcounted : s.submit.counted with
  | true => rfl
  | false =>
      rw [h.untouched hcounted] at hs
      rcases hs with hs | hs
      · exact absurd rfl hs
      · exact absurd rfl hs

theorem Sound.counted_of_finishing (h : Sound plan s) {index : Nat} {f : Finishing}
    (hget : s.finishing[index]? = some f) : s.submit.counted = true :=
  h.counted_of_owned (Or.inr (List.ne_nil_of_mem (List.mem_of_getElem? hget)))

theorem Sound.finish (h : Sound plan s) {index : Nat} {t : Transfer}
    (hget : s.owned[index]? = some t) (status : Status) (detail : Text) (received : Nat) :
    Sound plan (s.finish index t status detail received) := by
  have hcounted :=
    h.counted_of_owned (Or.inl (List.ne_nil_of_mem (List.mem_of_getElem? hget)))
  have hlength := length_eraseIdx_add hget
  refine h.move s.core.liveTransfers (s.core.transfersFinished + 1)
    hcounted hcounted ?_ rfl rfl ?_ ?_ ?_ h.asleep
  · refine perm_of_countP fun p => ?_
    have := countP_eraseIdx hget transferResults p
    simp only [State.unpushed, State.finish, List.flatMap_append, List.countP_append,
      List.flatMap_cons, List.flatMap_nil, Finishing.results, transferResults,
      List.append_nil] at this ⊢
    omega
  · simp only [State.unfinished, State.finish, List.length_append, List.length_singleton]
    omega
  · simp only [State.unfinished, State.finish, List.length_append]
    omega
  · intro t ht
    simp only [State.unfinished, State.finish, List.mem_append] at ht ⊢
    exact ht.imp_right List.mem_of_mem_eraseIdx

theorem Sound.deliver (h : Sound plan s) {index : Nat} {f : Finishing} {p : Part}
    {parts : List Part} (hget : s.finishing[index]? = some f) (hparts : f.parts = p :: parts) :
    Sound plan (s.deliver index f p parts) := by
  have hcounted := h.counted_of_finishing hget
  refine h.push (x := .inr (f.transfer, p)) hcounted ?_ ⟨f.received, f.status, f.detail, rfl⟩ rfl
    rfl rfl hcounted rfl (List.length_set ..)
  refine perm_of_countP fun q => ?_
  have := countP_set hget { f with parts := parts } Finishing.results q
  simp only [State.unpushed, State.deliver, Finishing.results, hparts, List.map_cons,
    List.countP_append, List.countP_cons] at this ⊢
  omega

theorem Sound.leave (h : Sound plan s) {index : Nat} {f : Finishing}
    (hget : s.finishing[index]? = some f) (hparts : f.parts = []) : Sound plan (s.leave index) := by
  have hcounted := h.counted_of_finishing hget
  have hlive := h.live hcounted
  have hlength := length_eraseIdx_add hget
  refine h.move s.core.transferFinished.liveTransfers
    s.core.transfersFinished hcounted hcounted ?_ rfl rfl ?_ rfl (fun _ ht => ht)
    (fun hne => absurd rfl hne)
  · refine perm_of_countP fun q => ?_
    have := countP_eraseIdx hget Finishing.results q
    simp only [State.unpushed, State.leave, Finishing.results, hparts, List.map_nil,
      List.countP_nil, List.countP_append] at this ⊢
    omega
  · simp only [BatchCore.transferFinished, State.leave, State.unfinished] at hlive ⊢
    rw [if_pos (by omega)]
    omega

/-- A consumer goes to sleep, or wakes up. -/
theorem Sound.sleep (h : Sound plan s) {asleep : List Nat} (hsubmit : s.submit = .returned)
    (hblocked : s.core.canReturn = false) : Sound plan { s with asleep := asleep } := by
  refine ⟨h.settled, h.pending, h.live, h.transfers, h.finished, h.parts,
    fun _ => ⟨hsubmit, hblocked⟩, h.ended, h.uncancelled, fun hno => ?_⟩
  rw [show Submitting.counted _ = s.submit.counted from rfl, hsubmit] at hno
  cases hno

theorem Sound.look (h : Sound plan s) (hsubmit : s.submit = .returned) (consumer : Nat) :
    Sound plan (s.look consumer) := by
  unfold State.look
  split
  · exact h.take hsubmit ‹_› consumer
  · rename_i hblocked
    exact h.sleep hsubmit (by simpa using hblocked)

theorem Sound.timedOut (h : Sound plan s) (hsubmit : s.submit = .returned) (consumer : Nat) :
    Sound plan { s with log := s.log ++ [(consumer, .timeout)] } := by
  have hreturned : State.returned { s with log := s.log ++ [(consumer, .timeout)] } = s.returned := by
    simp [State.returned]
  have hsettled := h.settled
  rw [← hreturned] at hsettled
  refine ⟨hsettled, h.pending, h.live, h.transfers, h.finished, h.parts, h.asleep, fun c hmem => ?_,
    h.uncancelled, fun hno => ?_⟩
  · rcases List.mem_append.mp hmem with hmem | hmem
    · exact h.ended c hmem
    · cases List.mem_singleton.mp hmem
  · rw [show Submitting.counted _ = s.submit.counted from rfl, hsubmit] at hno
    cases hno

theorem sound_step (h : Sound plan s) {s' : State} {e : Event} (hs : step s e = some s') :
    Sound plan s' := by
  cases step_moved hs with
  | account hsubmit => exact h.account hsubmit
  | pushImmediate hsubmit => exact h.pushImmediate hsubmit
  | enqueue hsubmit => exact h.enqueue hsubmit
  | publish hsubmit => exact h.publish hsubmit
  | finish hget => exact h.finish hget _ _ _
  | deliver hget hparts => exact h.deliver hget hparts
  | finished hget hparts => exact h.leave hget hparts
  | next hsubmit => exact h.look hsubmit _
  | @timeout consumer hc =>
      -- who is still asleep when the time is over may not return
      obtain ⟨hsubmit, hblocked⟩ := h.asleep (List.ne_nil_of_mem hc)
      have hawake : Sound plan (s.wake consumer) := h.sleep hsubmit hblocked
      have hlook : (s.wake consumer).lookLast consumer =
          { s.wake consumer with log := s.log ++ [(consumer, .timeout)] } :=
        if_neg (by rw [show (s.wake consumer).core = s.core from rfl, hblocked]; decide)
      rw [hlook]
      exact hawake.timedOut hsubmit consumer
  | wake hc =>
      obtain ⟨hsubmit, hblocked⟩ := h.asleep (List.ne_nil_of_mem hc)
      exact h.sleep hsubmit hblocked

end Steps

/-! ## What is left to do -/

/-- How often `submit` has still to move, apart from its pushes. -/
def Submitting.turns : Submitting → Nat
  | .planned _ => 3
  | .pushing _ _ => 2
  | .publishing _ => 1
  | .returned => 0

/-- How often `submit` and those who finish the transfers have still to move. -/
def State.work (s : State) : Nat :=
  s.submit.turns + s.unpushed.length + 2 * s.unfinished.length + s.finishing.length

/-- The event is no consumer's. -/
def Event.works : Event → Bool
  | .next _ | .timeout _ | .wake _ => false
  | _ => true

/-- The event is a call of `push`. -/
def Event.pushes : Event → Bool
  | .pushImmediate | .deliver _ => true
  | _ => false

section Progress

variable {plan : TransferPlan} {s : State}

/-- While there is something to do, a thread can do it. -/
theorem exists_work (hs : s.work ≠ 0) : ∃ e : Event, e.works = true ∧ (step s e).isSome = true := by
  cases hsubmit : s.submit with
  | planned plan => exact ⟨.account, rfl, by simp [step, hsubmit]⟩
  | pushing immediate transfers =>
      cases immediate with
      | cons c immediate => exact ⟨.pushImmediate, rfl, by simp [step, hsubmit]⟩
      | nil => exact ⟨.enqueue, rfl, by simp [step, hsubmit]⟩
  | publishing ready => exact ⟨.publish, rfl, by simp [step, hsubmit]⟩
  | returned =>
      cases howned : s.owned with
      | cons t owned =>
          have hget : s.owned[0]? = some t := by rw [howned]; rfl
          exact ⟨.finish 0 .ok [] 0, rfl, by simp [step, hget]⟩
      | nil =>
          cases hfinishing : s.finishing with
          | nil =>
              simp [State.work, State.unpushed, State.unfinished, hsubmit, howned, hfinishing,
                Submitting.turns, Submitting.results, Submitting.transfers] at hs
          | cons f finishing =>
              have hget : s.finishing[0]? = some f := by rw [hfinishing]; rfl
              cases hparts : f.parts with
              | nil => exact ⟨.finished 0, rfl, by simp [step, hget, hparts]⟩
              | cons p parts => exact ⟨.deliver 0, rfl, by simp [step, hget, hparts]⟩

/-- What is pushed has been counted. -/
theorem Sound.pending_pos (h : Sound plan s) {s' : State} {e : Event} (hs : step s e = some s')
    (hpushes : e.pushes = true) : 0 < s.core.pendingParts := by
  cases step_moved hs with
  | pushImmediate hsubmit =>
      rw [h.pending (by rw [hsubmit]; rfl)]
      simp [State.unpushed, hsubmit, Submitting.results]
  | @deliver _ f p parts hget hparts =>
      rw [h.pending (h.counted_of_finishing hget)]
      have hp : p ∈ f.parts := hparts ▸ List.mem_cons_self
      have hx : Sum.inr (f.transfer, p) ∈ s.unpushed := by
        refine List.mem_append_right _ (List.mem_append_right _ ?_)
        exact List.mem_flatMap.mpr
          ⟨f, List.mem_of_getElem? hget, List.mem_map.mpr ⟨p, hp, rfl⟩⟩
      exact List.length_pos_of_mem hx
  | _ => cases hpushes

/-- A transfer that is being finished is live. -/
theorem Sound.live_pos (h : Sound plan s) {index : Nat} {f : Finishing}
    (hget : s.finishing[index]? = some f) : 0 < s.core.liveTransfers := by
  have hlive := h.live (h.counted_of_finishing hget)
  have hlength := List.length_pos_of_mem (List.mem_of_getElem? hget)
  omega

/-- What is left to do, by the counts of the batch. -/
theorem Sound.work_eq (h : Sound plan s) (hcounted : s.submit.counted = true) :
    s.work + s.core.transfersFinished = s.submit.turns + s.core.pendingParts +
      s.core.liveTransfers + plan.transfers.length := by
  have hpending := h.pending hcounted
  have hlive := h.live hcounted
  have hfinished := h.finished
  unfold State.work
  omega

/-- Every step of `submit`, and of those who finish the transfers, is one less to do. -/
theorem Sound.work_step (h : Sound plan s) {s' : State} {e : Event} (hs : step s e = some s')
    (hworks : e.works = true) : s'.work + 1 = s.work := by
  have hwork' := (sound_step h hs).work_eq
  have hpos := h.pending_pos hs
  cases step_moved hs with
  | @account plan' hsubmit =>
      have hfresh := h.untouched (by rw [hsubmit]; rfl)
      subst hfresh
      cases hsubmit
      have hresults := congrArg List.length (plan_results plan)
      simp only [State.work, State.unpushed, State.unfinished, State.account, Submitting.turns,
        Submitting.results, Submitting.transfers, List.length_append] at hresults ⊢
      omega
  | pushImmediate hsubmit =>
      have hwork := h.work_eq (by rw [hsubmit]; rfl)
      have hwork' := hwork' rfl
      simp only [State.pushImmediate, BatchCore.push, if_pos (hpos rfl), hsubmit,
        Submitting.turns] at hwork hwork' ⊢
      have := hpos rfl
      omega
  | enqueue hsubmit =>
      have hwork := h.work_eq (by rw [hsubmit]; rfl)
      have hwork' := hwork' rfl
      simp only [State.enqueue, hsubmit, Submitting.turns] at hwork hwork' ⊢
      omega
  | publish hsubmit =>
      have hwork := h.work_eq (by rw [hsubmit]; rfl)
      have hwork' := hwork' rfl
      simp only [State.publish, hsubmit, Submitting.turns] at hwork hwork' ⊢
      omega
  | finish hget =>
      have hcounted :=
        h.counted_of_owned (Or.inl (List.ne_nil_of_mem (List.mem_of_getElem? hget)))
      have hwork := h.work_eq hcounted
      have hwork' := hwork' hcounted
      simp only [State.finish] at hwork' ⊢
      omega
  | deliver hget hparts =>
      have hcounted := h.counted_of_finishing hget
      have hwork := h.work_eq hcounted
      have hwork' := hwork' hcounted
      simp only [State.deliver, BatchCore.push, if_pos (hpos rfl)] at hwork' ⊢
      have := hpos rfl
      omega
  | finished hget hparts =>
      have hcounted := h.counted_of_finishing hget
      have hlive := h.live_pos hget
      have hwork := h.work_eq hcounted
      have hwork' := hwork' hcounted
      simp only [State.leave, BatchCore.transferFinished, if_pos hlive] at hwork' ⊢
      omega
  | _ => cases hworks

/-- Once there is nothing left to do, `next` does not wait. -/
theorem Sound.canReturn_of_done (h : Sound plan s) (hwork : s.work = 0) :
    s.core.canReturn = true := by
  have hcounted : s.submit.counted = true := by
    cases hsubmit : s.submit with
    | planned plan => simp [State.work, hsubmit, Submitting.turns] at hwork
    | _ => rfl
  have hpending : s.core.pendingParts = 0 := by
    have := h.pending hcounted
    unfold State.work at hwork
    omega
  simp [BatchCore.canReturn, hpending]

end Progress

/-! ## Exactly once -/

/-- A completion is that of a request. -/
def Answered (r : Request) (c : Completion) : Prop := ∃ x, Answers r x ∧ Delivers x c

theorem Answered.tag_eq {r : Request} {c : Completion} (h : Answered r c) : c.tag = r.tag := by
  obtain ⟨x, hr, hc⟩ := h
  cases x with
  | inl c' =>
      cases hc
      exact hr.1
  | inr tp =>
      obtain ⟨received, status, detail, rfl⟩ := hc
      refine Eq.trans ?_ (Carries.tag_eq hr)
      unfold deliverPart
      split
      · split <;> rfl
      · rfl

/-- At any moment of a run of a batch for `requests`. -/
structure ExactlyOnce (requests : List Request) (s : State) : Prop where
  /-- What has been returned answers a request each; the others' completions are in `ready`, or
  are still to be pushed. -/
  once : ∃ waiting, waiting.length = s.core.ready.length + s.unpushed.length ∧
    Settles Answered requests waiting s.returned
  /-- Who was told of the end was told so after all had been returned. -/
  ended : ∀ c, (c, NextStatus.finished) ∈ s.log → Settles Answered requests [] s.returned
  pending : s.submit.counted = true → s.core.pendingParts = s.unpushed.length
  live : s.submit.counted = true → s.core.liveTransfers = s.unfinished.length + s.finishing.length
  push_pos : ∀ {e s'}, step s e = some s' → e.pushes = true → 0 < s.core.pendingParts
  live_pos : ∀ {index s'}, step s (.finished index) = some s' → 0 < s.core.liveTransfers
  /-- The statistics are complete when the last completion is returned. -/
  counted : s.returned.length = requests.length → s.core.transfersFinished = s.core.transfers
  /-- Who sleeps may not return, and somebody has still to wake him. -/
  asleep : ∀ c ∈ s.asleep, s.core.canReturn = false ∧ s.work ≠ 0
  moves : s.work ≠ 0 → ∃ e : Event, e.works = true ∧ (step s e).isSome = true
  ends : ∀ {e s'}, step s e = some s' → e.works = true → s'.work + 1 = s.work

section Plan

variable {malloc : Nat → Nat → Addr} {batch : Nat} {requests : List Request}
  {options : ClientOptions}

/-- Before anything happens. -/
theorem sound_fresh {plan : TransferPlan} (hparts : ∀ t ∈ plan.transfers, t.parts ≠ []) :
    Sound plan { submit := .planned plan } := by
  have hunpushed : State.unpushed { submit := .planned plan } = plan.results := List.append_nil _
  have hunfinished : State.unfinished { submit := .planned plan } = plan.transfers :=
    List.append_nil _
  refine ⟨?_, fun hno => ?_, fun hno => ?_, fun hno => ?_, ?_, ?_, fun hne => ?_, fun c hmem => ?_,
    rfl, fun _ => rfl⟩
  · rw [hunpushed]
    exact .start Delivers plan.results
  · cases hno
  · cases hno
  · cases hno
  · rw [hunfinished]
    exact Nat.zero_add _
  · rw [hunfinished]
    exact hparts
  · exact absurd rfl hne
  · cases hmem

/-- Without requests there is nothing to plan. -/
theorem sound_empty : Sound ⟨[], []⟩ { submit := .returned } :=
  ⟨.start Delivers [], fun _ => rfl, fun _ => rfl, fun _ => rfl, rfl, fun _ ht => (by cases ht),
    fun hne => absurd rfl hne, fun _ hmem => (by cases hmem), rfl, fun hno => (by cases hno)⟩

theorem sound_start (hok : (planTransfers malloc batch requests options).1 = .ok) :
    Sound (planTransfers malloc batch requests options).2
      (system requests (planTransfers malloc batch requests options).2).start := by
  cases requests with
  | nil => exact sound_empty
  | cons r requests =>
      refine sound_fresh fun t ht => ?_
      obtain ⟨p, ps, hparts, -⟩ := ((planLoop_sorted hok).2 t ht).first_zero
      rw [hparts]
      exact List.cons_ne_nil p ps

theorem sound_reachable (hok : (planTransfers malloc batch requests options).1 = .ok) {s : State}
    (hs : (system requests (planTransfers malloc batch requests options).2).Reachable
      System.Anything s) : Sound (planTransfers malloc batch requests options).2 s :=
  hs.invariant (sound_start hok) fun _ h _ hstep => sound_step h hstep

end Plan

theorem mem_results_of_mem_transfers {submit : Submitting} {t : Transfer} {p : Part}
    (ht : t ∈ submit.transfers) (hp : p ∈ t.parts) : Sum.inr (t, p) ∈ submit.results := by
  have hmem : ∀ {ts : List Transfer}, t ∈ ts → Sum.inr (t, p) ∈ ts.flatMap transferResults :=
    fun ht => List.mem_flatMap.mpr ⟨t, ht, List.mem_map.mpr ⟨p, hp, rfl⟩⟩
  cases submit with
  | planned plan =>
      rw [Submitting.results, plan_results]
      exact List.mem_append_right _ (hmem ht)
  | pushing immediate transfers => exact List.mem_append_right _ (hmem ht)
  | publishing ready => exact hmem ht
  | returned => cases ht

/-- Nothing is left of a transfer that nobody has begun to finish: there is none. -/
theorem Sound.unfinished_nil {plan : TransferPlan} {s : State} (h : Sound plan s)
    (hnone : s.unpushed = []) : s.unfinished = [] := by
  refine List.eq_nil_iff_forall_not_mem.mpr fun t ht => ?_
  obtain ⟨p, hp⟩ := List.exists_mem_of_ne_nil t.parts (h.parts t ht)
  have hx : Sum.inr (t, p) ∈ s.unpushed := by
    rcases List.mem_append.mp ht with ht | ht
    · exact List.mem_append_left _ (mem_results_of_mem_transfers ht hp)
    · refine List.mem_append_right _ (List.mem_append_left _ ?_)
      exact List.mem_flatMap.mpr ⟨t, ht, List.mem_map.mpr ⟨p, hp, rfl⟩⟩
  rw [hnone] at hx
  cases hx

/-- Every completion of a batch is returned exactly once, whatever the order in which `submit`, the
workers and the consumers take their turns. -/
theorem batch_exactly_once (malloc : Nat → Nat → Addr) (batch : Nat) (requests : List Request)
    (options : ClientOptions) (hok : (planTransfers malloc batch requests options).1 = .ok)
    {s : State} (hs : (system requests (planTransfers malloc batch requests options).2).Reachable
      System.Anything s) : ExactlyOnce requests s := by
  have h := sound_reachable hok hs
  obtain ⟨ordered, hperm, hanswers⟩ := planTransfers_cover hok
  obtain ⟨waiting, hlength, hsettles⟩ := h.settled.comp (T := Answered)
    (fun r x c hr hc => ⟨x, hr, hc⟩) hanswers hperm
  have hall := hsettles.length_eq
  rw [List.length_append] at hall
  refine ⟨?_, fun c hmem => ?_, h.pending, h.live, h.pending_pos, fun hstep => ?_, fun hlast => ?_,
    fun c hc => ?_, exists_work, h.work_step⟩
  · obtain ⟨rest, hrest, hreturned⟩ := hsettles.shorten
    exact ⟨rest, by rw [hrest, hlength], hreturned⟩
  · obtain ⟨hready, hnone⟩ := h.ended c hmem
    rw [hready, List.append_nil, List.length_eq_zero_iff.mp (hlength.trans (by rw [hnone]; rfl))]
      at hsettles
    exact hsettles
  · cases step_moved hstep with
    | finished hget => exact h.live_pos hget
  · have hunfinished : s.unfinished = [] :=
      h.unfinished_nil (List.length_eq_zero_iff.mp (by omega))
    have hfinished := h.finished
    rw [hunfinished] at hfinished
    cases hcounted : s.submit.counted with
    | true => exact hfinished.trans (h.transfers hcounted).symm
    | false =>
        rw [h.untouched hcounted]
  · have hblocked := (h.asleep (List.ne_nil_of_mem hc)).2
    refine ⟨hblocked, fun hwork => ?_⟩
    exact absurd ((h.canReturn_of_done hwork).symm.trans hblocked) (by decide)

/-- The plan for four requests: two are refused, and two become one transfer. -/
def mixedPlan : Status × TransferPlan :=
  planTransfers (fun n _ => .heap (100 + n)) 0 mixedRequests .initial

/-- Two consumers wait; the transfer is finished under their eyes. -/
def sharedRun : List Event :=
  [.account, .pushImmediate, .pushImmediate, .enqueue, .publish, .next 0, .next 1, .next 0, .next 1,
    .finish 0 .ok [] 200, .timeout 1, .deliver 0, .next 0, .next 1, .deliver 0, .next 1,
    .finished 0, .next 0]

theorem batch_exactly_once_shared :
    ∃ s, (system mixedRequests mixedPlan.2).run System.Anything
        (system mixedRequests mixedPlan.2).start sharedRun = some s ∧
      s.log.map (·.1) = [0, 1, 1, 0, 1, 0] ∧ (0, NextStatus.finished) ∈ s.log ∧
      Settles Answered mixedRequests [] s.returned := by
  have hrun : ((system mixedRequests mixedPlan.2).run System.Anything
      (system mixedRequests mixedPlan.2).start sharedRun).map
        (fun s => (s.log.map (·.1), decide ((0, NextStatus.finished) ∈ s.log))) =
      some ([0, 1, 1, 0, 1, 0], true) := by
    decide +kernel
  obtain ⟨s, hs, hfacts⟩ := Option.map_eq_some_iff.mp hrun
  obtain ⟨hlog, hended⟩ := Prod.mk.inj hfacts
  have hended := of_decide_eq_true hended
  have honce := batch_exactly_once _ 0 mixedRequests .initial (by decide +kernel)
    (System.Reachable.start.run hs)
  exact ⟨s, hs, hlog, hended, honce.ended 0 hended⟩

end Batch

end Karu
