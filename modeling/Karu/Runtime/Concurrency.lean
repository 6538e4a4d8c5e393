/-
# `Karu.Runtime.Concurrency` — no more transfers at once than were configured

The constructor splits `concurrency` over the I/O loops, and every loop keeps to
its share: a transfer that is `active` or `resolving` holds a slot.  What a loop
takes out of `resolving` to start it again keeps its slot meanwhile, and so does
the transfer in the hand of `start_transfer`.  Nothing else is admitted until
all of those are back (`Loop.Within`).
-/
import Karu.Base.Slots
import Karu.Runtime.Workers
import Mathlib.Algebra.Order.BigOperators.Group.List
import Mathlib.Algebra.Order.Group.Nat

namespace Karu

open Base

namespace Workers

/-! ## The split -/

section Split

variable {concurrency ioThreads : Nat}

theorem loopCount_pos (h : 1 ≤ concurrency) : 1 ≤ loopCount concurrency ioThreads := by
  simp only [loopCount, clamp]
  split <;> [omega; split <;> omega]

theorem loopCount_le (h : 1 ≤ concurrency) : loopCount concurrency ioThreads ≤ concurrency := by
  simp only [loopCount, clamp]
  split <;> [omega; split <;> omega]

/-- Every loop has a slot. -/
theorem limits_pos (h : 1 ≤ concurrency) : ∀ limit ∈ limits concurrency ioThreads, 1 ≤ limit := by
  intro limit hlimit
  obtain ⟨index, -, rfl⟩ := List.mem_map.mp hlimit
  have hdiv : 1 ≤ concurrency / loopCount concurrency ioThreads :=
    Nat.div_pos (loopCount_le h) (loopCount_pos h)
  omega

/-- The first `r` of `n` get one more. -/
theorem sum_range_share (q : Nat) (r n : Nat) :
    ((List.range n).map fun index => q + if index < r then 1 else 0).sum = q * n + min r n := by
  induction n with
  | zero => simp
  | succ n ih =>
      rw [List.range_succ, List.map_append, List.sum_append, ih]
      by_cases hn : n < r
      · simp only [List.map_cons, List.map_nil, List.sum_cons, List.sum_nil, if_pos hn, Nat.mul_succ]
        omega
      · simp only [List.map_cons, List.map_nil, List.sum_cons, List.sum_nil, if_neg hn, Nat.mul_succ]
        omega

/-- No slot is lost, and none is made up. -/
theorem limits_sum (h : 1 ≤ concurrency) : (limits concurrency ioThreads).sum = concurrency := by
  have hlt : concurrency % loopCount concurrency ioThreads < loopCount concurrency ioThreads :=
    Nat.mod_lt concurrency (loopCount_pos h)
  rw [limits, sum_range_share, Nat.min_eq_left (Nat.le_of_lt hlt), Nat.mul_comm]
  exact Nat.div_add_mod concurrency _

end Split

/-! ## One loop -/

/-- The slot of a transfer that is being started. -/
def Hand.slots : Hand → Nat
  | .starting _ _ => 1
  | .empty | .handling _ | .leaving _ => 0

/-- The slots in use. -/
def Loop.slots (l : Loop) : Nat :=
  l.active.length + l.resolving.length + l.waiting.length + l.hand.slots

/-- A loop keeps to its limit. -/
structure Loop.Within (l : Loop) : Prop where
  slots_le : l.slots ≤ l.limit
  waiting_nil : l.phase ≠ .restart → l.waiting = []

section Within

variable {l l' : Loop} {cancelled : Nat → Bool}

/-- Another phase, no more slots, and nothing left to restart. -/
theorem Loop.Within.of_le (h : l.Within) (hlimit : l'.limit = l.limit) (hslots : l'.slots ≤ l.slots)
    (hwaiting : l'.phase ≠ .restart → l'.waiting = []) : l'.Within :=
  ⟨hlimit ▸ Nat.le_trans hslots h.slots_le, hwaiting⟩

/-- It goes on, with as many slots or fewer. -/
theorem Loop.Within.goto (h : l.Within) {p : Phase} (hp : p = .restart ∨ l.waiting = []) :
    (l.goto p).Within := by
  refine h.of_le rfl (Nat.le_refl _) ?_
  intro hne
  exact hp.resolve_left hne

theorem Loop.Within.waiting_of_at (h : l.Within) {p : Phase} (hat : l.At p) (hp : p ≠ .restart) :
    l.waiting = [] :=
  h.waiting_nil (hat.1 ▸ hp)

theorem Loop.At.slots_eq {p : Phase} (hat : l.At p) :
    l.slots = l.active.length + l.resolving.length + l.waiting.length := by
  rw [Loop.slots, hat.2]
  rfl

theorem Loop.put_slots_le (k : Nat) (c : Container) (job : Job) :
    ((l.put ((l.get c).eraseIdx k) c).leave job).slots ≤ l.slots := by
  have hactive := List.length_eraseIdx_le l.active k
  have hresolving := List.length_eraseIdx_le l.resolving k
  cases c <;> simp only [Loop.put, Loop.get, Loop.leave, Loop.slots, Hand.slots] <;> omega

theorem Loop.sweepAt_within (h : l.Within) {c : Container} {k : Nat} (hat : l.At (.sweep c k)) :
    (l.sweepAt cancelled c k).Within := by
  have hw := h.waiting_of_at hat (by simp)
  fun_cases Loop.sweepAt
  · refine h.of_le ?_ (l.put_slots_le k c _) ?_
    · cases c <;> rfl
    · cases c <;> exact fun _ => hw
  · exact h.goto (.inr hw)
  · exact h.goto (.inr hw)
  · exact h.goto (.inr hw)

theorem Loop.dueAt_within (h : l.Within) {k : Nat} (hat : l.At (.due k)) (passed : Bool) :
    (l.dueAt k passed).Within := by
  have hw := h.waiting_of_at hat (by simp)
  fun_cases Loop.dueAt
  · exact h.of_le rfl (Nat.le_refl _) fun _ => hw
  · exact h.goto (.inr hw)
  · exact h.goto (.inr hw)

/-- A transfer that is started takes one slot. -/
theorem Loop.take_slots_le (job : Job) (prepared : Bool) (hhand : l.hand = .empty) :
    (l.take cancelled job prepared).slots ≤ l.slots + 1 := by
  fun_cases Loop.take <;> simp [Loop.leave, Loop.slots, Hand.slots, hhand]

theorem Loop.take_within {job : Job} {prepared : Bool} (hhand : l.hand = .empty)
    (hroom : l.slots + 1 ≤ l.limit) (hw : l.phase ≠ .restart → l.waiting = []) :
    (l.take cancelled job prepared).Within := by
  have hslots : (l.take cancelled job prepared).slots ≤ l.slots + 1 :=
    l.take_slots_le job prepared hhand
  constructor
  · refine Nat.le_trans hslots (Nat.le_trans hroom (Nat.le_of_eq ?_))
    fun_cases Loop.take <;> rfl
  · fun_cases Loop.take <;> exact hw

/-- The one that is restarted had a slot in `waiting`. -/
theorem Loop.restartNext_within (h : l.Within) (hat : l.At .restart) :
    (l.restartNext cancelled).Within := by
  fun_cases Loop.restartNext
  · rename_i job rest hw
    have hslots := h.slots_le
    rw [hat.slots_eq, hw, List.length_cons] at hslots
    refine Loop.take_within hat.2 ?_ fun hne => absurd hat.1 hne
    simp only [Loop.slots, hat.2, Hand.slots]
    omega
  · rename_i hw
    exact h.goto (.inr hw)

/-- The one that is admitted takes a slot that is free. -/
theorem Loop.admitNext_within (h : l.Within) (hat : l.At .admitting) :
    (l.admitNext cancelled).Within := by
  have hw := h.waiting_of_at hat (by simp)
  fun_cases Loop.admitNext
  · rename_i hroom job rest hp
    refine Loop.take_within hat.2 ?_ fun _ => hw
    simp only [Loop.slots, hat.2, Hand.slots, hw, List.length_nil]
    omega
  · exact h.goto (.inr hw)
  · exact h.goto (.inr hw)

theorem Loop.started_within (h : l.Within) {job : Job} {prepared : Bool}
    (hhand : l.hand = .starting job prepared) (r : Started) : (l.started job r).Within := by
  cases r with
  | finished refusal =>
      refine h.of_le rfl ?_ h.waiting_nil
      simp [Loop.started, Loop.leave, Loop.slots, Hand.slots]
  | resolving =>
      refine h.of_le rfl ?_ h.waiting_nil
      simp only [Loop.started, Loop.emptied, Loop.slots, Hand.slots, hhand, List.length_append,
        List.length_singleton]
      omega
  | active =>
      refine h.of_le rfl ?_ h.waiting_nil
      simp only [Loop.started, Loop.emptied, Loop.slots, Hand.slots, hhand, List.length_append,
        List.length_singleton]
      omega

theorem Loop.failNext_within (h : l.Within) (hat : l.At .failing) : l.failNext.Within := by
  have hw := h.waiting_of_at hat (by simp)
  fun_cases Loop.failNext
  · rename_i job rest ha
    refine h.of_le rfl ?_ fun _ => hw
    simp [Loop.leave, Loop.slots, Hand.slots, ha]
    omega
  · exact h.goto (.inr hw)

theorem Loop.handled_within (h : l.Within) {job : Job} (verdict : Verdict) :
    (l.handled job verdict).Within := by
  cases verdict <;> refine h.of_le rfl ?_ h.waiting_nil <;>
    simp [Loop.handled, Loop.leave, Loop.emptied, Loop.slots, Hand.slots]

theorem Loop.drainNext_within (h : l.Within) (hat : l.At .drain) : l.drainNext.Within := by
  have hw := h.waiting_of_at hat (by simp)
  fun_cases Loop.drainNext
  all_goals first | exact h.goto (.inr hw) | refine h.of_le rfl ?_ fun _ => hw
  all_goals
    simp only [Loop.leave, Loop.slots, Hand.slots, *, List.length_cons, List.length_nil]
    omega

/-- Every step of a loop keeps to the limit. -/
theorem Loop.step_within {stop : Bool} {e : LoopEvent} (h : l.Within)
    (hs : l.step cancelled stop e = some l') : l'.Within := by
  cases e with
  | turn =>
      obtain ⟨hat, ⟨⟩⟩ := Option.ite_none_right_eq_some.mp hs
      exact h.goto (.inr (h.waiting_of_at hat (by simp)))
  | exchange =>
      obtain ⟨hat, ⟨⟩⟩ := Option.ite_none_right_eq_some.mp hs
      exact h.of_le rfl (Nat.le_refl _) fun _ => h.waiting_of_at hat (by simp)
  | sweep c k =>
      obtain ⟨hat, ⟨⟩⟩ := Option.ite_none_right_eq_some.mp hs
      exact Loop.sweepAt_within h hat
  | due k passed =>
      obtain ⟨hat, ⟨⟩⟩ := Option.ite_none_right_eq_some.mp hs
      exact Loop.dueAt_within h hat passed
  | swap =>
      -- what was `resolving` keeps its slots in `waiting`
      obtain ⟨hat, ⟨⟩⟩ := Option.ite_none_right_eq_some.mp hs
      have hw := h.waiting_of_at hat (by simp)
      refine h.of_le rfl ?_ fun hne => absurd rfl hne
      simp [Loop.goto, Loop.slots, hw]
  | restart =>
      obtain ⟨hat, ⟨⟩⟩ := Option.ite_none_right_eq_some.mp hs
      exact Loop.restartNext_within h hat
  | admitting =>
      obtain ⟨hat, ⟨⟩⟩ := Option.ite_none_right_eq_some.mp hs
      exact Loop.admitNext_within h hat
  | started job prepared answer =>
      obtain ⟨hhand, ⟨⟩⟩ := Option.ite_none_right_eq_some.mp hs
      exact Loop.started_within h hhand _
  | perform ok =>
      obtain ⟨hat, ⟨⟩⟩ := Option.ite_none_right_eq_some.mp hs
      exact h.goto (.inr (h.waiting_of_at hat (by simp)))
  | fail =>
      obtain ⟨hat, ⟨⟩⟩ := Option.ite_none_right_eq_some.mp hs
      exact Loop.failNext_within h hat
  | message k =>
      obtain ⟨hat, hmap⟩ := Option.ite_none_right_eq_some.mp hs
      obtain ⟨job, hjob, rfl⟩ := Option.map_eq_some_iff.mp hmap
      refine h.of_le rfl ?_ h.waiting_nil
      have hlen := List.length_eraseIdx_le l.active k
      simp only [Loop.slots, Hand.slots, hat.2]
      omega
  | handled job verdict =>
      obtain ⟨-, ⟨⟩⟩ := Option.ite_none_right_eq_some.mp hs
      exact Loop.handled_within h verdict
  | polled =>
      obtain ⟨hat, ⟨⟩⟩ := Option.ite_none_right_eq_some.mp hs
      exact h.goto (.inr (h.waiting_of_at hat (by simp)))
  | drain =>
      obtain ⟨hat, ⟨⟩⟩ := Option.ite_none_right_eq_some.mp hs
      exact Loop.drainNext_within h hat

theorem Loop.take_limit (job : Job) (prepared : Bool) :
    (l.take cancelled job prepared).limit = l.limit := by
  fun_cases Loop.take <;> rfl

/-- A loop's limit never changes. -/
theorem Loop.step_limit {stop : Bool} {e : LoopEvent} (hs : l.step cancelled stop e = some l') :
    l'.limit = l.limit := by
  cases e with
  | message k =>
      obtain ⟨-, hmap⟩ := Option.ite_none_right_eq_some.mp hs
      obtain ⟨job, -, rfl⟩ := Option.map_eq_some_iff.mp hmap
      rfl
  | sweep c k =>
      obtain ⟨-, ⟨⟩⟩ := Option.ite_none_right_eq_some.mp hs
      fun_cases Loop.sweepAt <;> [cases c <;> rfl; rfl; rfl; rfl]
  | due k passed =>
      obtain ⟨-, ⟨⟩⟩ := Option.ite_none_right_eq_some.mp hs
      fun_cases Loop.dueAt <;> rfl
  | restart =>
      obtain ⟨-, ⟨⟩⟩ := Option.ite_none_right_eq_some.mp hs
      fun_cases Loop.restartNext <;> [exact Loop.take_limit _ _; rfl]
  | admitting =>
      obtain ⟨-, ⟨⟩⟩ := Option.ite_none_right_eq_some.mp hs
      fun_cases Loop.admitNext <;> [exact Loop.take_limit _ _; rfl; rfl]
  | started job prepared answer =>
      obtain ⟨-, ⟨⟩⟩ := Option.ite_none_right_eq_some.mp hs
      cases startTransfer job prepared answer <;> rfl
  | fail =>
      obtain ⟨-, ⟨⟩⟩ := Option.ite_none_right_eq_some.mp hs
      fun_cases Loop.failNext <;> rfl
  | handled job verdict =>
      obtain ⟨-, ⟨⟩⟩ := Option.ite_none_right_eq_some.mp hs
      fun_cases Loop.handled <;> rfl
  | drain =>
      obtain ⟨-, ⟨⟩⟩ := Option.ite_none_right_eq_some.mp hs
      fun_cases Loop.drainNext <;> rfl
  | turn | exchange | swap | perform | polled =>
      obtain ⟨-, ⟨⟩⟩ := Option.ite_none_right_eq_some.mp hs
      rfl

end Within

/-! ## All of them -/

/-- `take_http` appends a part of the queue to `pending`. -/
theorem takeHttp_eq : ∀ (queue : List Job) (l : Loop), ∃ taken,
    (takeHttp l queue).1 = { l with pending := l.pending ++ taken } ∧
      taken ++ (takeHttp l queue).2 = queue
  | [], l => ⟨[], by simp [takeHttp], rfl⟩
  | job :: queue, l => by
      rw [takeHttp]
      split
      · obtain ⟨taken, hl, hqueue⟩ :=
          takeHttp_eq queue { l with pending := l.pending ++ [job] }
        refine ⟨job :: taken, ?_, ?_⟩
        · rw [hl]
          simp
        · rw [List.cons_append, hqueue]
      · exact ⟨[], by simp, rfl⟩

/-- What an event makes of the loop it is about. -/
inductive LoopChange (s : State) (l : Loop) : Loop → Prop
  | alone {l' : Loop} {e : LoopEvent} : l.step s.cancelled s.stop e = some l' → LoopChange s l l'
  | took {taken : List Job} : l.At .taking →
      LoopChange s l ({ l with pending := l.pending ++ taken }.goto .flag)
  | gave {job : Job} : l.hand = .handling job ∨ l.hand = .leaving job → LoopChange s l l.emptied
  | flagged : LoopChange s l { l with cancellationPending := true }

/-- An event changes one loop, or none. -/
theorem step_loops {s s' : State} {e : Event} (h : step s e = some s') :
    s'.loops = s.loops ∨
      ∃ i l l', s.loops[i]? = some l ∧ LoopChange s l l' ∧ s'.loops = s.loops.set i l' := by
  cases e with
  | loop i e =>
      obtain ⟨l, hl, h⟩ := Option.bind_eq_some_iff.mp h
      obtain ⟨l', hl', ⟨⟩⟩ := Option.bind_eq_some_iff.mp h
      exact .inr ⟨i, l, l', hl, .alone hl', rfl⟩
  | takeHttp i =>
      obtain ⟨l, hl, h⟩ := Option.bind_eq_some_iff.mp h
      obtain ⟨hat, ⟨⟩⟩ := Option.ite_none_right_eq_some.mp h
      obtain ⟨taken, htook, -⟩ := takeHttp_eq s.httpQueue l
      refine .inr ⟨i, l, _, hl, @LoopChange.took s l taken hat, ?_⟩
      rw [← htook]
      rfl
  | refresh i job =>
      obtain ⟨l, hl, h⟩ := Option.bind_eq_some_iff.mp h
      obtain ⟨⟨hhand, -⟩, ⟨⟩⟩ := Option.ite_none_right_eq_some.mp h
      exact .inr ⟨i, l, _, hl, .gave (.inl hhand), rfl⟩
  | finished i job =>
      obtain ⟨l, hl, h⟩ := Option.bind_eq_some_iff.mp h
      obtain ⟨hhand, ⟨⟩⟩ := Option.ite_none_right_eq_some.mp h
      exact .inr ⟨i, l, _, hl, .gave (.inr hhand), rfl⟩
  | cancelLoop k =>
      obtain ⟨c, hc, h⟩ := Option.bind_eq_some_iff.mp h
      split at h
      · split at h
        · rename_i i _ _ l hl
          cases h
          exact .inr ⟨i, l, _, hl, .flagged, rfl⟩
        · cases h
          exact .inl rfl
      · cases h
  | fileRead w job | fileLeave w job | fileFinished w job | fileExit w | credentialLeave w job
  | credentialFinished w job | credentialExit w | cancel batch | scrap =>
      obtain ⟨-, ⟨⟩⟩ := Option.ite_none_right_eq_some.mp h
      exact .inl rfl
  | fileTake w | credentialTake w =>
      simp only [step] at h
      split at h <;> cases h
      exact .inl rfl
  | queueHttp w job =>
      obtain ⟨-, h⟩ := Option.ite_none_right_eq_some.mp h
      split at h <;> cases h <;> exact .inl rfl
  | submit backends | stopWorkers =>
      cases h
      exact .inl rfl
  | enqueue k =>
      obtain ⟨u, -, ⟨⟩⟩ := Option.bind_eq_some_iff.mp h
      exact .inl rfl
  | publish k | cancelMark k | cancelQueues k | cancelHttp k | cancelReturn k =>
      obtain ⟨u, -, h⟩ := Option.bind_eq_some_iff.mp h
      obtain ⟨-, ⟨⟩⟩ := Option.ite_none_right_eq_some.mp h
      exact .inl rfl
  | cancelCheck k =>
      obtain ⟨c, -, h⟩ := Option.bind_eq_some_iff.mp h
      obtain ⟨-, h⟩ := Option.ite_none_right_eq_some.mp h
      split at h <;> cases h <;> exact .inl rfl

theorem LoopChange.within {s : State} {l l' : Loop} (hc : LoopChange s l l') (h : l.Within) :
    l'.Within ∧ l'.limit = l.limit := by
  cases hc with
  | alone hs => exact ⟨Loop.step_within h hs, Loop.step_limit hs⟩
  | took hat =>
      have hw := h.waiting_of_at hat (by simp)
      exact ⟨h.of_le rfl (Nat.le_refl _) fun _ => hw, rfl⟩
  | gave hhand =>
      refine ⟨h.of_le rfl ?_ h.waiting_nil, rfl⟩
      simp [Loop.emptied, Loop.slots, Hand.slots]
  | flagged => exact ⟨h.of_le rfl (Nat.le_refl _) h.waiting_nil, rfl⟩

/-- Every loop keeps to its limit, and has the one it began with. -/
structure Within (concurrency ioThreads : Nat) (s : State) : Prop where
  loops : ∀ l ∈ s.loops, l.Within
  limits : s.loops.map Loop.limit = limits concurrency ioThreads

section Runs

variable {concurrency ioThreads : Nat} {s s' : State} {e : Event}

theorem Within.step (h : Within concurrency ioThreads s) (hs : step s e = some s') :
    Within concurrency ioThreads s' := by
  obtain heq | ⟨i, l, l', hl, hchange, heq⟩ := step_loops hs
  · exact ⟨heq ▸ h.loops, heq ▸ h.limits⟩
  · obtain ⟨hwithin, hlimit⟩ := hchange.within (h.loops l (List.mem_of_getElem? hl))
    constructor
    · intro x hx
      rw [heq] at hx
      obtain hmem | rfl := List.mem_or_eq_of_mem_set hx
      · exact h.loops x hmem
      · exact hwithin
    · obtain ⟨hi, rfl⟩ := List.getElem?_eq_some_iff.mp hl
      rw [heq, List.map_set, hlimit, ← h.limits, ← List.getElem_map Loop.limit]
      exact List.set_getElem_self (by simpa using hi)

theorem Within.start : Within concurrency ioThreads (system concurrency ioThreads).start := by
  constructor
  · intro l hl
    obtain ⟨limit, -, rfl⟩ := List.mem_map.mp hl
    exact ⟨Nat.zero_le _, fun _ => rfl⟩
  · simp [system, Function.comp_def]

theorem within_reachable (h : (system concurrency ioThreads).Reachable System.Anything s) :
    Within concurrency ioThreads s :=
  h.invariant Within.start fun _ hI _ hs => hI.step hs

/-- No more than `concurrency` transfers are in flight: the loops' limits are at least one and add
up to it, and no loop ever has more than its limit. -/
theorem transfers_within_concurrency (concurrency ioThreads : Nat) (h : 1 ≤ concurrency) :
    (∀ limit ∈ limits concurrency ioThreads, 1 ≤ limit) ∧
      (limits concurrency ioThreads).sum = concurrency ∧
      ∀ s, (system concurrency ioThreads).Reachable System.Anything s →
        s.loops.map Loop.limit = limits concurrency ioThreads ∧
        (∀ l ∈ s.loops, l.active.length + l.resolving.length ≤ l.limit) ∧
        (s.loops.map fun l => l.active.length + l.resolving.length).sum ≤ concurrency := by
  refine ⟨limits_pos h, limits_sum h, ?_⟩
  intro s hs
  have hw := within_reachable hs
  have hloop : ∀ l ∈ s.loops, l.active.length + l.resolving.length ≤ l.limit := by
    intro l hl
    have hslots := (hw.loops l hl).slots_le
    rw [Loop.slots] at hslots
    omega
  refine ⟨hw.limits, hloop, ?_⟩
  calc (s.loops.map fun l => l.active.length + l.resolving.length).sum
      ≤ (s.loops.map Loop.limit).sum := List.sum_le_sum hloop
    _ = concurrency := by rw [hw.limits, limits_sum h]

end Runs

/-- One of three transfers is sent, and one waits for its host's lookup. -/
def twoSlots : List Event :=
  [.submit [.http, .http, .http], .enqueue 0, .publish 0, .loop 0 .turn, .takeHttp 0,
    .loop 0 .exchange, .loop 0 (.due 0 true), .loop 0 .swap, .loop 0 .restart, .loop 0 .admitting,
    .loop 0 (.started ⟨0, 0, .http, false⟩ false {}), .loop 0 .admitting,
    .loop 0 (.started ⟨1, 0, .http, false⟩ false { waiting := true }), .loop 0 .admitting]

theorem transfers_within_concurrency_two :
    ∃ s, (system 2 1).run System.Anything (system 2 1).start twoSlots = some s ∧
      (s.loops.map fun l => (l.active.length, l.resolving.length)) = [(1, 1)] ∧
      (s.loops.map fun l => l.active.length + l.resolving.length).sum ≤ 2 := by
  have hrun : ((system 2 1).run System.Anything (system 2 1).start twoSlots).map
      (fun s => s.loops.map fun l => (l.active.length, l.resolving.length)) = some [(1, 1)] := by
    decide
  obtain ⟨s, hs, hloops⟩ := Option.map_eq_some_iff.mp hrun
  exact ⟨s, hs, hloops, ((transfers_within_concurrency 2 1 (by decide)).2.2 s
    (System.Reachable.start.run hs)).2.2⟩

end Workers

end Karu
