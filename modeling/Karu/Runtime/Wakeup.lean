/-
# `Karu.Runtime.Wakeup` — how queued work reaches an idle loop

Producers push transfers to the HTTP queue and wake I/O loops; a loop that has
nothing to do says so in a bit of `idle_loops_` and polls.  There is no lock
around both.  A loop sets its bit before it looks at the queue a last time, and
a producer pushes before it looks at the bits, so one of them sees the other.

| source                                    | here                              |
|-------------------------------------------|-----------------------------------|
| `submit`, `queue_http`: under `http_mutex_` | `Event.push`                    |
| `wake_idle_loops`: the load               | `Event.look`                      |
| `wake_idle_loops`: `fetch_and`            | `Event.claim`                     |
| `curl_multi_wakeup`                       | `Event.wake`, `Event.rouse`       |
| `take_http`: the load, the locked section | `Event.load`, `Event.take`        |
| `io_loop`: from `take_http` to `room`     | `Event.work`                      |
| `io_loop`: `room` and `timeout_ms`        | `Event.decide`                    |
| `io_loop`: `fetch_or`, the load behind it | `Event.announce`, `Event.check`   |
| `curl_multi_poll` returns                 | `Event.back`                      |
| `io_loop`: the last `fetch_and`           | `Event.clear`                     |
| `cancel`: under `http_mutex_`             | `Event.drop`                      |

An event is one atomic operation or one locked section.  `busy` stands for
`active.size() + resolving.size()`.  `called` is set when a producer takes a
loop's bit and holds until the loop has been to the queue; nothing reads it.
-/
import Karu.Base.Slots
import Karu.Base.System

namespace Karu

open Base

namespace Wakeup

/-- Where a loop is. -/
inductive Phase where
  /-- Before the load in `take_http`. -/
  | top
  /-- Before the lock in `take_http`. -/
  | taking
  | working
  /-- There is room and a timeout: before `fetch_or`. -/
  | announcing
  /-- Behind `fetch_or`. -/
  | announced
  /-- In `curl_multi_poll`, with a timeout that is not zero if `timed`. -/
  | polling (announced timed : Bool)
  /-- Behind `curl_multi_poll`. -/
  | returned (announced : Bool)
deriving DecidableEq

/-- The share of `IoLoop` that matters here, with the loop's bit of `idle_loops_`. -/
structure Loop where
  limit : Nat
  busy : Nat := 0
  pending : Nat := 0
  idle : Bool := false
  token : Bool := false
  phase : Phase := .top
  called : Bool := false
deriving DecidableEq

/-- `room`. -/
def Loop.room (l : Loop) : Prop := l.busy < l.limit

instance (l : Loop) : Decidable l.room := inferInstanceAs (Decidable (_ < _))

/-- Where a producer is, behind its push: the bits it has yet to try, and its `count`. -/
inductive Producer where
  | pushed (count : Nat)
  | scanning (bits : List Nat) (count : Nat)
  /-- It has taken the bit of a loop. -/
  | waking (loop : Nat) (bits : List Nat) (count : Nat)
deriving DecidableEq

/-- The loops, the queue, and the producers between their push and the end of
`wake_idle_loops`. -/
structure State where
  loops : List Loop
  queued : Nat := 0
  backlog : Nat := 0
  producers : List Producer := []
deriving DecidableEq

/-- What can happen next. -/
inductive Event where
  | push (count : Nat)
  | look (p : Nat)
  | claim (p : Nat)
  | wake (p : Nat)
  | leave (p : Nat)
  | load (i : Nat)
  | take (i : Nat)
  | work (i busy pending : Nat)
  | decide (i : Nat) (timed : Bool)
  | announce (i : Nat)
  | check (i : Nat)
  | back (i : Nat) (keep : Bool)
  | clear (i : Nat)
  | rouse (i : Nat)
  | drop (count : Nat)

namespace State

/-- The bits that are set, the lowest first. -/
def idleBits (s : State) : List Nat :=
  (List.range s.loops.length).filter fun i => s.loops[i]?.any (·.idle)

/-- A loop that is in the given phase moves on. -/
def moveLoop (s : State) (i : Nat) (step : Loop → Option Loop) : Option State :=
  match s.loops[i]? with
  | none => none
  | some l => (step l).map fun l' => { s with loops := s.loops.set i l' }

/-- `count` transfers are pushed. -/
def push (s : State) (count : Nat) : Option State :=
  if count = 0 then none
  else
    some { s with
      queued := s.queued + count, backlog := s.queued + count
      producers := s.producers ++ [.pushed count] }

/-- One turn of `wake_idle_loops`: the lowest bit that is left. -/
def claim (s : State) (p : Nat) : Option State :=
  match s.producers[p]? with
  | some (.scanning (i :: bits) (count + 1)) =>
      match s.loops[i]? with
      | none => none
      | some l =>
          if l.idle then
            some { s with
              loops := s.loops.set i { l with idle := false, called := true }
              producers := s.producers.set p (.waking i bits count) }
          else some { s with producers := s.producers.set p (.scanning bits (count + 1)) }
  | _ => none

/-- `curl_multi_wakeup`, and `--count` with it. -/
def wake (s : State) (p : Nat) : Option State :=
  match s.producers[p]? with
  | some (.waking i bits count) =>
      match s.loops[i]? with
      | none => none
      | some l =>
          some { s with
            loops := s.loops.set i { l with token := true }
            producers := s.producers.set p (.scanning bits count) }
  | _ => none

/-- The end of `wake_idle_loops`. -/
def leave (s : State) (p : Nat) : Option State :=
  match s.producers[p]? with
  | some (.scanning bits count) =>
      if count = 0 ∨ bits = [] then some { s with producers := s.producers.eraseIdx p } else none
  | _ => none

/-- `take_http`, under the lock. -/
def take (s : State) (i : Nat) : Option State :=
  match s.loops[i]? with
  | some l =>
      if l.phase = .taking then
        let count := min (l.limit - (l.busy + l.pending)) s.queued
        some { s with
          loops := s.loops.set i
            { l with pending := l.pending + count, phase := .working, called := false }
          queued := s.queued - count, backlog := s.queued - count }
      else none
  | none => none

/-- One event. -/
def step (s : State) : Event → Option State
  | .push count => s.push count
  | .look p =>
      match s.producers[p]? with
      | some (.pushed count) =>
          some { s with producers := s.producers.set p (.scanning s.idleBits count) }
      | _ => none
  | .claim p => s.claim p
  | .wake p => s.wake p
  | .leave p => s.leave p
  | .load i => s.moveLoop i fun l =>
      if l.phase ≠ .top then none
      else if s.backlog = 0 then some { l with phase := .working, called := false }
      else some { l with phase := .taking }
  | .take i => s.take i
  | .work i busy pending => s.moveLoop i fun l =>
      if l.phase = .working then some { l with busy, pending } else none
  | .decide i timed => s.moveLoop i fun l =>
      if l.phase ≠ .working then none
      else if l.room ∧ (l.pending ≠ 0 ∨ s.backlog ≠ 0) then
        some { l with phase := .polling false false }
      else if l.room ∧ timed then some { l with phase := .announcing }
      else some { l with phase := .polling false timed }
  | .announce i => s.moveLoop i fun l =>
      if l.phase = .announcing then some { l with idle := true, phase := .announced } else none
  | .check i => s.moveLoop i fun l =>
      if l.phase = .announced then some { l with phase := .polling true (s.backlog = 0) } else none
  | .back i keep => s.moveLoop i fun l =>
      match l.phase with
      | .polling announced _ =>
          some { l with phase := .returned announced, token := l.token && keep }
      | _ => none
  | .clear i => s.moveLoop i fun l =>
      match l.phase with
      | .returned announced => some { l with idle := l.idle && !announced, phase := .top }
      | _ => none
  | .rouse i => s.moveLoop i fun l => some { l with token := true }
  | .drop count =>
      some { s with queued := s.queued - count, backlog := s.queued - count }

end State

/-- Loops with these limits, which begin at the top. -/
def system (limits : List Nat) : System State Event where
  start := { loops := limits.map fun limit => { limit } }
  step := State.step

/-! ## What a loop stands for -/

/-- Between a loop's `fetch_or` and its last `fetch_and`. -/
def Phase.window : Phase → Prop
  | .announced => True
  | .polling a _ => a = true
  | .returned a => a = true
  | _ => False

/-- Before the loop polls or while it does. -/
def Phase.awake : Phase → Prop
  | .announced => True
  | .polling a _ => a = true
  | _ => False

/-- The producer is about to wake the loop. -/
def Producer.wakes (i : Nat) : Producer → Prop
  | .waking loop _ _ => loop = i
  | _ => False

/-- There is room, and nothing else to be started. -/
def Loop.free (l : Loop) : Prop := l.busy < l.limit ∧ l.pending = 0

/-- What holds of the loop with this index. -/
structure Loop.Fit (producers : List Producer) (i : Nat) (l : Loop) : Prop where
  idle : l.idle = true → l.phase.window ∧ l.called = false
  window : l.phase.window → l.free ∧ (l.idle = true ∨ l.called = true)
  announcing : l.phase = .announcing → l.free
  called : l.called = true → l.free ∧ (l.phase.window ∨ l.phase = .top ∨ l.phase = .taking)
  timed : ∀ a, l.phase = .polling a true → l.room → a = true
  token : l.called = true → l.phase.awake → l.token = true ∨ ∃ p ∈ producers, p.wakes i

/-- What a producer will still do for a loop that is among its bits. -/
def Producer.owes (i : Nat) : Producer → Nat
  | .pushed count => count
  | .scanning bits count => if i ∈ bits then count else 0
  | .waking _ bits count => if i ∈ bits then count else 0

/-- A loop that was called will take a transfer. -/
def Loop.owes (l : Loop) : Nat := if l.called then 1 else 0

/-- What will be taken before a loop's bit is left alone for good. -/
def State.owed (s : State) (i : Nat) : Nat :=
  (s.loops.map Loop.owes).sum + (s.producers.map (Producer.owes i)).sum

/-- The loop has looked at the queue a last time, and its bit is still set. -/
def Loop.asleep (l : Loop) : Prop := l.idle = true ∧ l.phase = .polling true true

/-- The invariant: whatever is queued while a loop is asleep is owed to it. -/
structure Inv (s : State) : Prop where
  backlog : s.backlog = s.queued
  fit : ∀ {i : Nat} {l : Loop}, s.loops[i]? = some l → l.Fit s.producers i
  owed : ∀ {i : Nat} {l : Loop}, s.loops[i]? = some l → l.asleep → s.queued ≤ s.owed i

theorem inv_start (limits : List Nat) : Inv (system limits).start where
  backlog := rfl
  fit := by
    intro i l hl
    obtain ⟨limit, -, rfl⟩ := List.mem_map.mp (List.mem_of_getElem? hl)
    exact ⟨by simp, by simp [Phase.window], by simp, by simp, by simp, by simp⟩
  owed := by
    intro i l _ _
    exact Nat.zero_le _

section Steps

variable {s : State}

/-! ## Producers -/

/-- The loops stay as they are, and every producer that is about to wake one of them, too. -/
theorem Loop.Fit.producers {producers producers' : List Producer} {i : Nat} {l : Loop}
    (h : l.Fit producers i)
    (hwakes : ∀ p ∈ producers, p.wakes i → l.token = true ∨ ∃ p' ∈ producers', p'.wakes i) :
    l.Fit producers' i := by
  refine { h with token := ?_ }
  intro hcalled hawake
  rcases h.token hcalled hawake with htoken | ⟨p, hp, hw⟩
  · exact .inl htoken
  · exact hwakes p hp hw

theorem Inv.push (h : Inv s) {count : Nat} {s' : State} (hs : s.push count = some s') : Inv s' := by
  unfold State.push at hs
  split at hs
  · cases hs
  · cases hs
    refine ⟨rfl, ?_, ?_⟩
    · intro i l hl
      exact (h.fit hl).producers fun p hp hw => .inr ⟨p, List.mem_append_left _ hp, hw⟩
    · intro i l hl hasleep
      have howed := h.owed hl hasleep
      simp only [State.owed, List.map_append, List.sum_append, List.map_cons, List.map_nil,
        List.sum_cons, List.sum_nil, Producer.owes] at howed ⊢
      omega

/-- One producer moves on, and wakes nobody on the way. -/
theorem mem_set_of_wakes {producers : List Producer} {p : Nat} {was is : Producer}
    (hp : producers[p]? = some was) (hnot : ∀ i, ¬ was.wakes i) {q : Producer} (hq : q ∈ producers)
    {i : Nat} (hw : q.wakes i) : ∃ q' ∈ producers.set p is, q'.wakes i := by
  obtain ⟨j, hj⟩ := List.mem_iff_getElem?.mp hq
  have hne : p ≠ j := by
    rintro rfl
    cases hp.symm.trans hj
    exact hnot i hw
  refine ⟨q, ?_, hw⟩
  exact List.mem_of_getElem? ((List.getElem?_set_ne hne).trans hj)

theorem mem_idleBits {i : Nat} {l : Loop} (hl : s.loops[i]? = some l) (hidle : l.idle = true) :
    i ∈ s.idleBits := by
  have hlt : i < s.loops.length := (List.getElem?_eq_some_iff.mp hl).1
  refine List.mem_filter.mpr ⟨List.mem_range.mpr hlt, ?_⟩
  rw [hl]
  exact hidle

/-- A producer changes while the loops and the queue do not. -/
theorem Inv.set (h : Inv s) {p : Nat} {was is : Producer} (hp : s.producers[p]? = some was)
    (hnot : ∀ i, ¬ was.wakes i)
    (howes : ∀ i l, s.loops[i]? = some l → l.idle = true → was.owes i ≤ is.owes i) :
    Inv { s with producers := s.producers.set p is } where
  backlog := h.backlog
  fit := fun hl => (h.fit hl).producers fun _ hq hw => .inr (mem_set_of_wakes hp hnot hq hw)
  owed := by
    intro i l hl hasleep
    have howed := h.owed hl hasleep
    have hsum := Slots.sum_map_set (Producer.owes i) hp is
    have hle := howes i l hl hasleep.1
    simp only [State.owed] at howed ⊢
    omega

theorem Inv.look (h : Inv s) {p count : Nat} (hp : s.producers[p]? = some (.pushed count)) :
    Inv { s with producers := s.producers.set p (.scanning s.idleBits count) } := by
  refine h.set hp (fun _ hw => hw) ?_
  intro i l hl hidle
  simp [Producer.owes, mem_idleBits hl hidle]

theorem Inv.leave (h : Inv s) {p count : Nat} {bits : List Nat}
    (hp : s.producers[p]? = some (.scanning bits count)) (hdone : count = 0 ∨ bits = []) :
    Inv { s with producers := s.producers.eraseIdx p } where
  backlog := h.backlog
  fit := by
    intro i l hl
    refine (h.fit hl).producers ?_
    intro q hq hw
    obtain ⟨j, hj⟩ := List.mem_iff_getElem?.mp hq
    have hne : j ≠ p := by
      rintro rfl
      cases hp.symm.trans hj
      exact hw
    exact .inr ⟨q, List.mem_eraseIdx_iff_getElem?.mpr ⟨j, hne, hj⟩, hw⟩
  owed := by
    intro i l hl hasleep
    have howed := h.owed hl hasleep
    have hsum := Slots.sum_map_eraseIdx (Producer.owes i) hp
    have hzero : Producer.owes i (.scanning bits count) = 0 := by
      rcases hdone with rfl | rfl
      · simp [Producer.owes]
      · simp [Producer.owes]
    simp only [State.owed] at howed ⊢
    omega

/-! ## Loops -/

/-- A loop changes while the producers and the queue do not. -/
theorem Inv.setLoop (h : Inv s) {i : Nat} {l l' : Loop} (hl : s.loops[i]? = some l)
    (hfit : l'.Fit s.producers i) (howes : s.queued ≠ 0 → l.owes ≤ l'.owes)
    (hasleep : l'.asleep → l.asleep ∨ s.queued = 0) :
    Inv { s with loops := s.loops.set i l' } where
  backlog := h.backlog
  fit := by
    intro j k hk
    rcases Slots.getElem?_set_cases hk with ⟨rfl, rfl⟩ | ⟨-, hk⟩
    · exact hfit
    · exact h.fit hk
  owed := by
    intro j k hk hka
    have hsum := Slots.sum_map_set Loop.owes hl l'
    by_cases hzero : s.queued = 0
    · simp [hzero]
    · have hle := howes hzero
      have howed : s.queued ≤ s.owed j := by
        rcases Slots.getElem?_set_cases hk with ⟨rfl, rfl⟩ | ⟨-, hk⟩
        · exact h.owed hl ((hasleep hka).resolve_right hzero)
        · exact h.owed hk hka
      simp only [State.owed] at howed ⊢
      omega

/-- A called loop finds something to take, if there is anything. -/
theorem Inv.take (h : Inv s) {i : Nat} {s' : State} (hs : s.take i = some s') : Inv s' := by
  unfold State.take at hs
  split at hs
  · rename_i l hl
    split at hs
    · rename_i hphase
      cases hs
      have hfit := h.fit hl
      refine ⟨rfl, ?_, ?_⟩
      · intro j k hk
        rcases Slots.getElem?_set_cases hk with ⟨rfl, rfl⟩ | ⟨-, hk⟩
        · have hidle : l.idle ≠ true := by
            intro hidle
            have hwindow := (hfit.idle hidle).1
            rw [hphase] at hwindow
            exact hwindow
          exact ⟨fun hi => (hidle hi).elim, fun hw => hw.elim, by simp, by simp, by simp, by simp⟩
        · exact h.fit hk
      · intro j k hk hka
        have hsum := Slots.sum_map_set Loop.owes hl
          { l with pending := l.pending + min (l.limit - (l.busy + l.pending)) s.queued
                   phase := .working, called := false }
        rcases Slots.getElem?_set_cases hk with ⟨rfl, rfl⟩ | ⟨-, hk⟩
        · cases hka.2
        · have howed := h.owed hk hka
          have hcount : l.owes ≤ min (l.limit - (l.busy + l.pending)) s.queued ∨ s.queued = 0 := by
            by_cases hcalled : l.called = true
            · obtain ⟨⟨hroom, hpending⟩, -⟩ := hfit.called hcalled
              rw [Loop.owes, if_pos hcalled]
              omega
            · rw [Loop.owes, if_neg hcalled]
              omega
          simp only [State.owed, Loop.owes] at howed hsum hcount ⊢
          simp only [Bool.false_eq_true, if_false] at hsum
          omega
    · cases hs
  · cases hs

/-! ## A producer and a loop -/

/-- A producer takes the bit of a loop: what it owed is now owed by the loop. -/
theorem Inv.called (h : Inv s) {p i count : Nat} {bits : List Nat} {l : Loop}
    (hp : s.producers[p]? = some (.scanning (i :: bits) (count + 1))) (hl : s.loops[i]? = some l)
    (hidle : l.idle = true) :
    Inv { s with
      loops := s.loops.set i { l with idle := false, called := true }
      producers := s.producers.set p (.waking i bits count) } := by
  obtain ⟨hwindow, hcalled⟩ := (h.fit hl).idle hidle
  have hfree := ((h.fit hl).window hwindow).1
  have hlt : p < s.producers.length := (List.getElem?_eq_some_iff.mp hp).1
  refine ⟨h.backlog, ?_, ?_⟩
  · intro j k hk
    rcases Slots.getElem?_set_cases hk with ⟨rfl, rfl⟩ | ⟨-, hk⟩
    · refine ⟨by simp, fun _ => ⟨hfree, .inr rfl⟩, (h.fit hl).announcing,
        fun _ => ⟨hfree, .inl hwindow⟩, (h.fit hl).timed, fun _ _ => .inr ?_⟩
      exact ⟨.waking j bits count, List.mem_set hlt _, rfl⟩
    · exact (h.fit hk).producers fun _ hq hw =>
        .inr (mem_set_of_wakes hp (fun _ hw => hw) hq hw)
  · intro j k hk hasleep
    rcases Slots.getElem?_set_cases hk with ⟨rfl, rfl⟩ | ⟨hne, hk⟩
    · cases hasleep.1
    · have howed := h.owed hk hasleep
      have hloops := Slots.sum_map_set Loop.owes hl { l with idle := false, called := true }
      have hproducers := Slots.sum_map_set (Producer.owes j) hp (.waking i bits count)
      have hles : Producer.owes j (.scanning (i :: bits) (count + 1)) ≤
          Producer.owes j (.waking i bits count) + 1 := by
        simp only [Producer.owes, List.mem_cons, hne, false_or]
        split <;> omega
      have hone : Loop.owes { l with idle := false, called := true } = l.owes + 1 := by
        simp [Loop.owes, hcalled]
      simp only [State.owed] at howed ⊢
      omega

theorem Inv.claim (h : Inv s) {p : Nat} {s' : State} (hs : s.claim p = some s') : Inv s' := by
  unfold State.claim at hs
  split at hs
  · rename_i i bits count hp
    split at hs
    · cases hs
    · rename_i l hl
      split at hs
      · rename_i hidle
        cases hs
        exact h.called hp hl hidle
      · -- somebody else has taken the bit, so the loop is not asleep
        rename_i hidle
        cases hs
        refine h.set hp (fun _ hw => hw) ?_
        intro j k hk hkidle
        have hne : j ≠ i := by
          rintro rfl
          cases hl.symm.trans hk
          exact hidle hkidle
        simp [Producer.owes, hne]
  · cases hs

theorem Inv.wake (h : Inv s) {p : Nat} {s' : State} (hs : s.wake p = some s') : Inv s' := by
  unfold State.wake at hs
  split at hs
  · rename_i i bits count hp
    split at hs
    · cases hs
    · rename_i l hl
      cases hs
      refine ⟨h.backlog, ?_, ?_⟩
      · intro j k hk
        rcases Slots.getElem?_set_cases hk with ⟨rfl, rfl⟩ | ⟨hne, hk⟩
        · exact { (h.fit hl) with token := fun _ _ => .inl rfl }
        · refine (h.fit hk).producers ?_
          intro q hq hw
          obtain ⟨r, hr⟩ := List.mem_iff_getElem?.mp hq
          have hrp : p ≠ r := by
            rintro rfl
            cases hp.symm.trans hr
            exact hne hw.symm
          exact .inr ⟨q, List.mem_of_getElem? ((List.getElem?_set_ne hrp).trans hr), hw⟩
      · intro j k hk hasleep
        have hloops := Slots.sum_map_set Loop.owes hl { l with token := true }
        have hproducers := Slots.sum_map_set (Producer.owes j) hp (.scanning bits count)
        have hsame : Loop.owes { l with token := true } = l.owes := rfl
        have howed : s.queued ≤ s.owed j := by
          rcases Slots.getElem?_set_cases hk with ⟨rfl, rfl⟩ | ⟨-, hk⟩
          · exact h.owed hl hasleep
          · exact h.owed hk hasleep
        simp only [State.owed, Producer.owes] at howed hproducers ⊢
        omega
  · cases hs

/-! ## One event -/

theorem moveLoop_eq {i : Nat} {f : Loop → Option Loop} {s' : State}
    (hs : s.moveLoop i f = some s') :
    ∃ l l', s.loops[i]? = some l ∧ f l = some l' ∧ s' = { s with loops := s.loops.set i l' } := by
  unfold State.moveLoop at hs
  split at hs
  · cases hs
  · rename_i l hl
    obtain ⟨l', hl', rfl⟩ := Option.map_eq_some_iff.mp hs
    exact ⟨l, l', hl, hl', rfl⟩

/-- A loop that is neither in its window nor on its way to the queue has neither bit nor call. -/
theorem Loop.Fit.apart {producers : List Producer} {i : Nat} {l : Loop} (h : l.Fit producers i)
    (hwindow : ¬ l.phase.window) :
    l.idle = false ∧ (l.phase ≠ .top → l.phase ≠ .taking → l.called = false) := by
  refine ⟨Bool.eq_false_iff.mpr fun hidle => hwindow (h.idle hidle).1, ?_⟩
  intro htop htaking
  refine Bool.eq_false_iff.mpr fun hcalled => ?_
  rcases (h.called hcalled).2 with hw | hw | hw
  · exact hwindow hw
  · exact htop hw
  · exact htaking hw

/-- A loop in a phase that says nothing. -/
theorem Loop.Fit.plain {producers : List Producer} {i : Nat} {l : Loop} (hidle : l.idle = false)
    (hcalled : l.called = false) (hwindow : ¬ l.phase.window) (hannouncing : l.phase ≠ .announcing)
    (htimed : ∀ a, l.phase = .polling a true → ¬ l.room) : l.Fit producers i :=
  ⟨fun h => (by rw [hidle] at h; cases h), fun h => (hwindow h).elim,
    fun h => (hannouncing h).elim, fun h => (by rw [hcalled] at h; cases h),
    fun a h hroom => (htimed a h hroom).elim, fun h => (by rw [hcalled] at h; cases h)⟩

theorem Inv.load (h : Inv s) {i : Nat} {l : Loop} (hl : s.loops[i]? = some l)
    (hphase : l.phase = .top) {l' : Loop}
    (hl' : (if s.backlog = 0 then some { l with phase := .working, called := false }
      else some { l with phase := .taking }) = some l') :
    Inv { s with loops := s.loops.set i l' } := by
  have hfit := h.fit hl
  have hidle := (hfit.apart (by rw [hphase]; exact id)).1
  split at hl'
  · rename_i hzero
    cases hl'
    refine h.setLoop hl (.plain hidle rfl id (by simp) (by simp)) ?_ fun ha => (by cases ha.2)
    intro hqueued
    exact absurd (h.backlog.symm.trans hzero) hqueued
  · cases hl'
    refine h.setLoop hl ?_ (fun _ => Nat.le_refl _) fun ha => (by cases ha.2)
    refine ⟨fun hi => ?_, fun hw => hw.elim, by simp, ?_, by simp, fun _ hawake => hawake.elim⟩
    · rw [hidle] at hi
      cases hi
    · intro hcalled
      exact ⟨(hfit.called hcalled).1, .inr (.inr rfl)⟩

theorem Inv.decide (h : Inv s) {i : Nat} {l : Loop} (hl : s.loops[i]? = some l)
    (hphase : l.phase = .working) {timed : Bool} {l' : Loop}
    (hl' : (if l.room ∧ (l.pending ≠ 0 ∨ s.backlog ≠ 0) then
        some { l with phase := .polling false false }
      else if l.room ∧ timed then some { l with phase := .announcing }
      else some { l with phase := .polling false timed }) = some l') :
    Inv { s with loops := s.loops.set i l' } := by
  obtain ⟨hidle, hcalled⟩ := (h.fit hl).apart (by rw [hphase]; exact id)
  have hcalled : l.called = false := hcalled (by rw [hphase]; simp) (by rw [hphase]; simp)
  split at hl'
  · cases hl'
    exact h.setLoop hl (.plain hidle hcalled (by simp [Phase.window]) (by simp) (by simp))
      (fun _ => Nat.le_refl _) fun ha => (by cases ha.2)
  · rename_i hquiet
    split at hl'
    · rename_i hroom
      cases hl'
      refine h.setLoop hl ?_ (fun _ => Nat.le_refl _) fun ha => (by cases ha.2)
      have hpending : l.pending = 0 := by
        by_contra hne
        exact hquiet ⟨hroom.1, .inl hne⟩
      refine ⟨fun hi => ?_, fun hw => hw.elim, fun _ => ⟨hroom.1, hpending⟩, fun hc => ?_, by simp,
        fun _ hawake => hawake.elim⟩
      · rw [hidle] at hi
        cases hi
      · rw [hcalled] at hc
        cases hc
    · rename_i hnot
      cases hl'
      refine h.setLoop hl (.plain hidle hcalled (by simp [Phase.window]) (by simp) ?_)
        (fun _ => Nat.le_refl _) fun ha => (by cases ha.2)
      -- a loop with room polls without a timeout here
      intro a heq hroom
      obtain ⟨-, rfl⟩ := Phase.polling.inj heq
      exact hnot ⟨hroom, rfl⟩

theorem Inv.announce (h : Inv s) {i : Nat} {l : Loop} (hl : s.loops[i]? = some l)
    (hphase : l.phase = .announcing) :
    Inv { s with loops := s.loops.set i { l with idle := true, phase := .announced } } := by
  have hfit := h.fit hl
  obtain ⟨-, hcalled⟩ := hfit.apart (by rw [hphase]; exact id)
  have hcalled : l.called = false := hcalled (by rw [hphase]; simp) (by rw [hphase]; simp)
  refine h.setLoop hl ?_ (fun _ => Nat.le_refl _) fun ha => (by cases ha.2)
  refine ⟨fun _ => ⟨trivial, hcalled⟩, fun _ => ⟨hfit.announcing hphase, .inl rfl⟩, by simp,
    fun hc => ?_, by simp, fun hc => ?_⟩
  · rw [hcalled] at hc
    cases hc
  · rw [hcalled] at hc
    cases hc

theorem Inv.check (h : Inv s) {i : Nat} {l : Loop} (hl : s.loops[i]? = some l)
    (hphase : l.phase = .announced) :
    Inv { s with loops := s.loops.set i { l with phase := .polling true (s.backlog = 0) } } := by
  have hfit := h.fit hl
  have hwindow : l.phase.window := by rw [hphase]; trivial
  refine h.setLoop hl ?_ (fun _ => Nat.le_refl _) ?_
  · refine ⟨fun hi => ⟨rfl, (hfit.idle hi).2⟩, fun _ => hfit.window hwindow, by simp,
      fun hc => ⟨(hfit.called hc).1, .inl rfl⟩, ?_, ?_⟩
    · intro a heq _
      exact (Phase.polling.inj heq).1.symm
    · intro hc _
      exact hfit.token hc (by rw [hphase]; trivial)
  · intro hasleep
    right
    have htimed := (Phase.polling.inj hasleep.2).2
    exact h.backlog.symm.trans (of_decide_eq_true htimed)

theorem Inv.back (h : Inv s) {i : Nat} {l : Loop} (hl : s.loops[i]? = some l) {a t : Bool}
    (hphase : l.phase = .polling a t) (keep : Bool) :
    Inv { s with
      loops := s.loops.set i { l with phase := .returned a, token := l.token && keep } } := by
  have hfit := h.fit hl
  have hsame : l.phase.window ↔ Phase.window (.returned a) := by rw [hphase]; exact Iff.rfl
  refine h.setLoop hl ?_ (fun _ => Nat.le_refl _) fun ha => (by cases ha.2)
  refine ⟨fun hi => ?_, fun hw => hfit.window (hsame.mpr hw), by simp, fun hc => ?_, by simp,
    fun _ hawake => hawake.elim⟩
  · exact ⟨hsame.mp (hfit.idle hi).1, (hfit.idle hi).2⟩
  · obtain ⟨hfree, hwhere⟩ := hfit.called hc
    refine ⟨hfree, .inl ?_⟩
    rcases hwhere with hw | hw | hw
    · exact hsame.mp hw
    · cases hphase.symm.trans hw
    · cases hphase.symm.trans hw

theorem Inv.clear (h : Inv s) {i : Nat} {l : Loop} (hl : s.loops[i]? = some l) {a : Bool}
    (hphase : l.phase = .returned a) :
    Inv { s with loops := s.loops.set i { l with idle := l.idle && !a, phase := .top } } := by
  have hfit := h.fit hl
  refine h.setLoop hl ?_ (fun _ => Nat.le_refl _) fun ha => (by cases ha.2)
  refine ⟨fun hi => ?_, fun hw => hw.elim, by simp, fun hc => ⟨(hfit.called hc).1, .inr (.inl rfl)⟩,
    by simp, fun _ hawake => hawake.elim⟩
  -- a bit that is set was announced, and is cleared
  obtain ⟨hidle, hkept⟩ := Bool.and_eq_true_iff.mp hi
  have hwindow := (hfit.idle hidle).1
  rw [hphase] at hwindow
  rw [show a = true from hwindow] at hkept
  cases hkept

theorem Inv.drop (h : Inv s) (count : Nat) :
    Inv { s with queued := s.queued - count, backlog := s.queued - count } where
  backlog := rfl
  fit := h.fit
  owed := fun hl hasleep => Nat.le_trans (Nat.sub_le _ _) (h.owed hl hasleep)

theorem Inv.step (h : Inv s) {e : Event} {s' : State} (hs : s.step e = some s') : Inv s' := by
  cases e with
  | push count => exact h.push hs
  | look p =>
      simp only [State.step] at hs
      split at hs
      · rename_i hp
        cases hs
        exact h.look hp
      · cases hs
  | claim p => exact h.claim hs
  | wake p => exact h.wake hs
  | leave p =>
      simp only [State.step, State.leave] at hs
      split at hs
      · rename_i hp
        split at hs
        · rename_i hdone
          cases hs
          exact h.leave hp hdone
        · cases hs
      · cases hs
  | load i =>
      obtain ⟨l, l', hl, hl', rfl⟩ := moveLoop_eq hs
      split at hl'
      · cases hl'
      · rename_i hphase
        exact h.load hl (not_not.mp hphase) hl'
  | take i => exact h.take hs
  | work i busy pending =>
      obtain ⟨l, l', hl, hl', rfl⟩ := moveLoop_eq hs
      split at hl'
      · rename_i hphase
        cases hl'
        obtain ⟨hidle, hcalled⟩ := (h.fit hl).apart (by rw [hphase]; exact id)
        have hcalled : l.called = false := hcalled (by rw [hphase]; simp) (by rw [hphase]; simp)
        have hfit : Loop.Fit s.producers i { l with busy, pending } :=
          .plain hidle hcalled (by rw [hphase]; exact id) (by rw [hphase]; simp)
            (by rw [hphase]; simp)
        exact h.setLoop hl hfit (fun _ => Nat.le_refl _) fun ha => (by
          cases hphase.symm.trans ha.2)
      · cases hl'
  | decide i timed =>
      obtain ⟨l, l', hl, hl', rfl⟩ := moveLoop_eq hs
      split at hl'
      · cases hl'
      · rename_i hphase
        exact h.decide hl (not_not.mp hphase) hl'
  | announce i =>
      obtain ⟨l, l', hl, hl', rfl⟩ := moveLoop_eq hs
      split at hl'
      · rename_i hphase
        cases hl'
        exact h.announce hl hphase
      · cases hl'
  | check i =>
      obtain ⟨l, l', hl, hl', rfl⟩ := moveLoop_eq hs
      split at hl'
      · rename_i hphase
        cases hl'
        exact h.check hl hphase
      · cases hl'
  | back i keep =>
      obtain ⟨l, l', hl, hl', rfl⟩ := moveLoop_eq hs
      split at hl'
      · rename_i hphase
        cases hl'
        exact h.back hl hphase keep
      · cases hl'
  | clear i =>
      obtain ⟨l, l', hl, hl', rfl⟩ := moveLoop_eq hs
      split at hl'
      · rename_i hphase
        cases hl'
        exact h.clear hl hphase
      · cases hl'
  | rouse i =>
      obtain ⟨l, l', hl, hl', rfl⟩ := moveLoop_eq hs
      cases hl'
      exact h.setLoop hl { (h.fit hl) with token := fun _ _ => .inl rfl } (fun _ => Nat.le_refl _)
        fun ha => .inl ha
  | drop count =>
      cases hs
      exact h.drop count

end Steps

/-! ## No lost wakeup -/

/-- The loop is blocked: it polls with a timeout, and nobody has woken it. -/
def Loop.blocked (l : Loop) : Prop := (∃ a, l.phase = .polling a true) ∧ l.token = false

/-- With no producer under way, a loop that was called is not blocked. -/
theorem Loop.Fit.not_blocked {i : Nat} {l : Loop} (h : l.Fit [] i) (hcalled : l.called = true) :
    l.room ∧ ¬ l.blocked := by
  obtain ⟨⟨hroom, -⟩, -⟩ := h.called hcalled
  refine ⟨hroom, ?_⟩
  rintro ⟨⟨a, hphase⟩, htoken⟩
  obtain rfl := h.timed a hphase hroom
  rcases h.token hcalled (by rw [hphase]; rfl) with ht | ⟨p, hp, -⟩
  · cases ht.symm.trans htoken
  · cases hp

/-- No wakeup is lost: while transfers are queued and no producer is under way, some loop that has
room is not blocked, if any has room. -/
theorem no_lost_wakeup {limits : List Nat} {s : State}
    (h : (system limits).Reachable System.Anything s) (hqueued : s.queued ≠ 0)
    (hproducers : s.producers = []) (hroom : ∃ l ∈ s.loops, l.room) :
    ¬ ∀ l ∈ s.loops, l.room → l.blocked := by
  have hinv : Inv s := h.invariant (inv_start limits) fun _ hinv _ hs => hinv.step hs
  have hfit : ∀ {i : Nat} {l : Loop}, s.loops[i]? = some l → l.Fit [] i := by
    intro i l hl
    exact hproducers ▸ hinv.fit hl
  intro hall
  obtain ⟨l, hmem, hlroom⟩ := hroom
  obtain ⟨i, hl⟩ := List.mem_iff_getElem?.mp hmem
  obtain ⟨⟨a, hphase⟩, -⟩ := hall l hmem hlroom
  obtain rfl := (hfit hl).timed a hphase hlroom
  have hwindow : l.phase.window := by rw [hphase]; rfl
  -- somebody was called: the loop itself, or a loop that owes what is queued
  have hcalled : ∃ (j : Nat) (k : Loop), s.loops[j]? = some k ∧ k.called = true := by
    rcases ((hfit hl).window hwindow).2 with hidle | hcalled
    · have howed := hinv.owed hl ⟨hidle, hphase⟩
      simp only [State.owed, hproducers, List.map_nil, List.sum_nil] at howed
      obtain ⟨j, k, hk, hpos⟩ := @Slots.exists_of_sum_pos _ s.loops Loop.owes (by omega)
      refine ⟨j, k, hk, ?_⟩
      by_contra hnot
      simp [Loop.owes, hnot] at hpos
    · exact ⟨i, l, hl, hcalled⟩
  obtain ⟨j, k, hk, hcalled⟩ := hcalled
  obtain ⟨hkroom, hnot⟩ := (hfit hk).not_blocked hcalled
  exact hnot (hall k (List.mem_of_getElem? hk) hkroom)

/-- Two loops fall asleep, and one transfer is pushed: the first of them is woken. -/
def sleepers : List Event :=
  [.load 0, .decide 0 true, .announce 0, .check 0, .load 1, .decide 1 true, .announce 1, .check 1,
    .push 1, .look 0, .claim 0, .wake 0, .leave 0]

theorem no_lost_wakeup_sleepers :
    ∃ s, (system [1, 1]).run System.Anything (system [1, 1]).start sleepers = some s ∧
      s.queued = 1 ∧ s.producers = [] ∧ (∃ l ∈ s.loops, l.room) ∧
      ¬ ∀ l ∈ s.loops, l.room → l.blocked := by
  have hrun : ((system [1, 1]).run System.Anything (system [1, 1]).start sleepers).map
      (fun s => (s.queued, s.producers, s.loops.any fun l => decide l.room)) = some (1, [], true) := by
    decide
  obtain ⟨s, hs, hfacts⟩ := Option.map_eq_some_iff.mp hrun
  obtain ⟨hqueued, hrest⟩ := Prod.mk.inj hfacts
  obtain ⟨hproducers, hroom⟩ := Prod.mk.inj hrest
  obtain ⟨l, hl, hlroom⟩ := List.any_eq_true.mp hroom
  have hroom : ∃ l ∈ s.loops, l.room := ⟨l, hl, of_decide_eq_true hlroom⟩
  exact ⟨s, hs, hqueued, hproducers, hroom,
    no_lost_wakeup (System.Reachable.start.run hs) (by rw [hqueued]; decide) hproducers hroom⟩

end Wakeup

end Karu
