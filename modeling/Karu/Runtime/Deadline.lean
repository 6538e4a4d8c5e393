/-
# `Karu.Runtime.Deadline` — `src/runtime/deadline.hpp`, and a request between two clocks

A request has one deadline for all its attempts.  The loop of `get_range` and the
threads that carry a `Transfer` keep to it in the same way: they look at the
clock before an attempt, hand libcurl what is left, look again when it is back,
and wait for another attempt only if the wait ends in time.

| source                                 | here                |
|----------------------------------------|---------------------|
| `RequestDeadline`                      | `RequestDeadline`   |
| `retry_delay`                          | `retryDelay`        |
| `expired` before an attempt            | `Event.check`       |
| `curl_timeout_ms`                      | `Event.limit`       |
| the attempt                            | `send`, `answer`    |
| `expired` behind an attempt            | `Event.look`        |
| a correction                           | `Event.correct`     |
| `retry_delay`, `can_wait_for`          | `Event.consider`    |
| `SteadyClock::now() + delay`, `sleep_for` | `Event.wait`     |
| the end of the wait                    | `Event.wake`        |

The clock is steady and counts nanoseconds.  Every look at it is an event of its
own, and any time may pass between two of them; libcurl keeps to the limit it is
given.  What passes while a request is neither with libcurl nor in a wait is its
`lag`, and that, with a millisecond, is all that a request may outlive its
deadline by (`request_in_time`).
-/
import Mathlib.Algebra.Order.Ring.Int
import Mathlib.Tactic.SplitIfs
import Karu.Base.System

namespace Karu

open Base

/-! ## Deadlines -/

/-- The nanoseconds of a millisecond. -/
def perMillisecond : Int := 1000000

/-- The nanoseconds of a second. -/
def perSecond : Int := 1000000000

structure RequestDeadline where
  expires : Int := 0
  started : Bool := false
  bounded : Bool := false
deriving DecidableEq

namespace RequestDeadline

def start (d : RequestDeadline) (timeoutSeconds now : Int) : RequestDeadline :=
  if d.started then d
  else if 0 < timeoutSeconds then
    { expires := now + timeoutSeconds * perSecond, started := true, bounded := true }
  else { d with started := true }

def expired (d : RequestDeadline) (now : Int) : Bool := d.bounded && decide (d.expires ≤ now)

/-- `can_wait_for`, for milliseconds. -/
def canWaitFor (d : RequestDeadline) (delay now : Int) : Bool :=
  !d.bounded || decide (delay * perMillisecond < d.expires - now)

/-- `std::chrono::ceil` to milliseconds. -/
def ceilMilliseconds (nanoseconds : Int) : Int := -(-nanoseconds / perMillisecond)

/-- The largest `long`. -/
def maxLong : Int := 9223372036854775807

/-- `curl_timeout_ms`; zero is no limit. -/
def curlTimeoutMs (d : RequestDeadline) (now : Int) : Int :=
  if d.bounded then max 1 (min (ceilMilliseconds (d.expires - now)) maxLong) else 0

end RequestDeadline

/-- `kMaximumRetryAfterSeconds`. -/
def kMaximumRetryAfterSeconds : Int := 60

/-- `retry_delay`, in milliseconds; `random` is what the distribution from zero to a bound
returns. -/
def retryDelay (attempt retryAfter : Int) (random : Int → Int) : Int :=
  let requested := max 0 (min retryAfter kMaximumRetryAfterSeconds)
  if 0 < requested then requested * 1000 + random 1000
  else
    let base := 100 * 2 ^ (max 0 (min attempt 6)).toNat
    base + random base

/-! ## The course of a request -/

/-- Where a request is.  `limited` has the milliseconds that libcurl is to get, `sent` the time
at which they are over; `agreed` the milliseconds of a wait, `waiting` the time it is due. -/
inductive Course.Phase where
  | ready
  | checked
  | limited (timeout : Int)
  | sent (limit : Option Int)
  | back
  | looked
  | agreed (delay : Int)
  | waiting (due : Int)
  | ended
deriving DecidableEq

structure Course where
  now : Int
  deadline : RequestDeadline
  phase : Course.Phase := .ready
  lag : Int := 0
deriving DecidableEq

namespace Course

inductive Event where
  /-- Time goes by. -/
  | pass (nanoseconds : Nat)
  /-- Once before the request is prepared, and once more behind that. -/
  | check
  | limit
  /-- libcurl begins. -/
  | send
  /-- libcurl is back. -/
  | answer
  | look
  /-- The request is sent again at once, with another region or fresh credentials: before the
  look at the clock (`get_range`) or behind it (`io_loop`). -/
  | correct
  | consider (attempt retryAfter : Int) (random : Int → Int)
  | wait
  /-- A result, or a failure that is final. -/
  | finish
  | wake

def step (c : Course) : Event → Option Course
  | .pass nanoseconds =>
      let later := c.now + nanoseconds
      match c.phase with
      | .sent none => some { c with now := later }
      | .sent (some limit) => if later ≤ limit then some { c with now := later } else none
      | .waiting due =>
          -- a wait may go on when it is over
          some { c with now := later, lag := c.lag + (max due later - max due c.now) }
      | _ => some { c with now := later, lag := c.lag + nanoseconds }
  | .check =>
      match c.phase with
      | .ready | .checked =>
          some { c with phase := if c.deadline.expired c.now then .ended else .checked }
      | _ => none
  | .limit =>
      match c.phase with
      | .checked => some { c with phase := .limited (c.deadline.curlTimeoutMs c.now) }
      | _ => none
  | .send =>
      match c.phase with
      | .limited timeout =>
          some { c with
            phase := .sent (if timeout = 0 then none else some (c.now + timeout * perMillisecond)) }
      | _ => none
  | .answer =>
      match c.phase with
      | .sent _ => some { c with phase := .back }
      | _ => none
  | .look =>
      match c.phase with
      | .back => some { c with phase := if c.deadline.expired c.now then .ended else .looked }
      | _ => none
  | .correct =>
      match c.phase with
      | .back | .looked => some { c with phase := .ready }
      | _ => none
  | .consider attempt retryAfter random =>
      match c.phase with
      | .looked =>
          let delay := retryDelay attempt retryAfter random
          some { c with phase := if c.deadline.canWaitFor delay c.now then .agreed delay else .ended }
      | _ => none
  | .wait =>
      match c.phase with
      | .agreed delay => some { c with phase := .waiting (c.now + delay * perMillisecond) }
      | _ => none
  | .finish =>
      match c.phase with
      | .back | .looked => some { c with phase := .ended }
      | _ => none
  | .wake =>
      match c.phase with
      | .waiting due => if due ≤ c.now then some { c with phase := .ready } else none
      | _ => none

/-- A request that starts at a time, with the timeout of the client. -/
def system (timeoutSeconds time : Int) : System Course Event where
  start := { now := time, deadline := ({} : RequestDeadline).start timeoutSeconds time }
  step := step

/-- What the phase of a request says about its deadline, `allowed` being that and the lag. -/
def Phase.InTime (expires allowed now : Int) : Phase → Prop
  | .checked => now < allowed
  | .limited timeout => 0 < timeout ∧ expires ≤ now + timeout * perMillisecond ∧
      now + timeout * perMillisecond ≤ allowed + perMillisecond
  | .sent limit => ∃ end_, limit = some end_ ∧ now ≤ end_ ∧ expires ≤ end_ ∧
      end_ ≤ allowed + perMillisecond
  | .agreed delay => now + delay * perMillisecond < allowed
  | .waiting due => due < allowed
  | .ready | .back | .looked | .ended => True

/-- A bounded request.  Behind a look that found time left there is time left but for the lag;
libcurl's limit is at the deadline or behind it, and behind it by a millisecond and the lag at
most; a wait is due before the deadline and the lag; and so much for the request itself. -/
structure InTime (timeoutSeconds time : Int) (c : Course) : Prop where
  deadline_eq : c.deadline = ⟨time + timeoutSeconds * perSecond, true, true⟩
  lag_nonneg : 0 ≤ c.lag
  late : time ≤ c.now
  now_le : c.now ≤ time + timeoutSeconds * perSecond + c.lag + perMillisecond
  phase : c.phase.InTime (time + timeoutSeconds * perSecond)
    (time + timeoutSeconds * perSecond + c.lag) c.now

end Course

theorem RequestDeadline.ceilMilliseconds_bounds (n : Int) :
    n ≤ ceilMilliseconds n * perMillisecond ∧
      ceilMilliseconds n * perMillisecond < n + perMillisecond := by
  unfold ceilMilliseconds perMillisecond
  omega

/-- The limit of an attempt is behind the deadline, by a millisecond at most. -/
theorem RequestDeadline.curlTimeoutMs_bounds {d : RequestDeadline} (hbounded : d.bounded = true)
    {now : Int} (hlong : d.expires - now ≤ maxLong * perMillisecond) :
    0 < d.curlTimeoutMs now ∧ d.expires ≤ now + d.curlTimeoutMs now * perMillisecond ∧
      now + d.curlTimeoutMs now * perMillisecond ≤ max d.expires now + perMillisecond := by
  obtain ⟨hlow, hhigh⟩ := ceilMilliseconds_bounds (d.expires - now)
  unfold curlTimeoutMs
  rw [if_pos hbounded]
  generalize ceilMilliseconds (d.expires - now) = n at hlow hhigh ⊢
  unfold maxLong perMillisecond at *
  omega

namespace Course

variable {timeoutSeconds time : Int}

/-- Time that passes outside of libcurl and of waits counts as lag. -/
theorem Phase.InTime.pass {expires allowed now : Int} {phase : Phase}
    (h : phase.InTime expires allowed now) (n : Nat) (hsent : ∀ limit, phase ≠ .sent limit)
    (hwait : ∀ due, phase ≠ .waiting due) : phase.InTime expires (allowed + n) (now + n) := by
  cases phase with
  | ready | back | looked | ended => trivial
  | checked =>
      have h : now < allowed := h
      show now + n < allowed + n
      omega
  | limited timeout =>
      obtain ⟨hpos, hlow, hhigh⟩ := h
      exact ⟨hpos, by omega, by omega⟩
  | sent limit => exact absurd rfl (hsent limit)
  | agreed delay =>
      have h : now + delay * perMillisecond < allowed := h
      show now + n + delay * perMillisecond < allowed + n
      omega
  | waiting due => exact absurd rfl (hwait due)

/-- An event that takes no time. -/
theorem InTime.enter {c : Course} (hc : c.InTime timeoutSeconds time) {phase : Phase}
    (h : phase.InTime (time + timeoutSeconds * perSecond)
      (time + timeoutSeconds * perSecond + c.lag) c.now) :
    ({ c with phase := phase } : Course).InTime timeoutSeconds time :=
  ⟨hc.deadline_eq, hc.lag_nonneg, hc.late, hc.now_le, h⟩

/-- Time goes by. -/
theorem InTime.passes {c c' : Course} (hc : c.InTime timeoutSeconds time) {n : Nat}
    (h : c.step (.pass n) = some c') : c'.InTime timeoutSeconds time := by
  obtain ⟨now, deadline, phase, lag⟩ := c
  obtain ⟨hdeadline, hlag, hlate, hnow, hphase⟩ := hc
  dsimp only at hdeadline hlag hlate hnow hphase
  subst hdeadline
  cases phase with
  | sent limit =>
      obtain ⟨end_, rfl, hend, hlow, hhigh⟩ := hphase
      simp only [Course.step] at h
      split_ifs at h with hlimit
      cases h
      refine ⟨rfl, hlag, ?_, ?_, end_, rfl, hlimit, hlow, hhigh⟩
      · dsimp only
        omega
      · dsimp only
        omega
  | waiting due =>
      cases h
      have hdue : due < time + timeoutSeconds * perSecond + lag := hphase
      refine ⟨rfl, ?_, ?_, ?_, ?_⟩
      · dsimp only
        omega
      · dsimp only
        omega
      · dsimp only
        unfold perMillisecond at hnow ⊢
        omega
      · show due < time + timeoutSeconds * perSecond +
          (lag + (max due (now + n) - max due now))
        omega
  | ready | checked | limited _ | back | looked | agreed _ | ended =>
      cases h
      refine ⟨rfl, ?_, ?_, ?_, ?_⟩
      · dsimp only
        omega
      · dsimp only
        omega
      · dsimp only
        omega
      · dsimp only
        rw [← Int.add_assoc]
        exact hphase.pass n (fun _ hno => by cases hno) fun _ hno => by cases hno

/-- A look at the clock before an attempt. -/
theorem InTime.check {c : Course} (hc : c.InTime timeoutSeconds time) :
    (if c.deadline.expired c.now then Phase.ended else .checked).InTime
      (time + timeoutSeconds * perSecond) (time + timeoutSeconds * perSecond + c.lag) c.now := by
  have hlag := hc.lag_nonneg
  split_ifs with hexpired
  · trivial
  · have hleft : c.now < time + timeoutSeconds * perSecond := by
      simpa [hc.deadline_eq, RequestDeadline.expired] using hexpired
    show c.now < time + timeoutSeconds * perSecond + c.lag
    omega

/-- Where there was time left, the limit for libcurl is in order. -/
theorem InTime.limit (hlong : timeoutSeconds * 1000 ≤ RequestDeadline.maxLong) {c : Course}
    (hc : c.InTime timeoutSeconds time) (hleft : c.now < time + timeoutSeconds * perSecond + c.lag) :
    (Phase.limited (c.deadline.curlTimeoutMs c.now)).InTime (time + timeoutSeconds * perSecond)
      (time + timeoutSeconds * perSecond + c.lag) c.now := by
  have hlag := hc.lag_nonneg
  have hlate := hc.late
  have hword : time + timeoutSeconds * perSecond - c.now ≤
      RequestDeadline.maxLong * perMillisecond := by
    unfold RequestDeadline.maxLong perSecond perMillisecond at *
    omega
  obtain ⟨hpos, hlow, hhigh⟩ := RequestDeadline.curlTimeoutMs_bounds
    (d := ⟨time + timeoutSeconds * perSecond, true, true⟩) rfl hword
  rw [hc.deadline_eq]
  refine ⟨hpos, hlow, hhigh.trans ?_⟩
  dsimp only
  omega

/-- A wait is only agreed on if it is over before the deadline. -/
theorem InTime.consider {c : Course} (hc : c.InTime timeoutSeconds time) (delay : Int) :
    (if c.deadline.canWaitFor delay c.now then Phase.agreed delay else .ended).InTime
      (time + timeoutSeconds * perSecond) (time + timeoutSeconds * perSecond + c.lag) c.now := by
  have hlag := hc.lag_nonneg
  split_ifs with hwait
  · have hends : delay * perMillisecond < time + timeoutSeconds * perSecond - c.now := by
      simpa [hc.deadline_eq, RequestDeadline.canWaitFor] using hwait
    show c.now + delay * perMillisecond < _
    omega
  · trivial

/-- One event keeps a request in time. -/
theorem InTime.step (hlong : timeoutSeconds * 1000 ≤ RequestDeadline.maxLong) {c c' : Course}
    {e : Event} (hc : c.InTime timeoutSeconds time) (h : c.step e = some c') :
    c'.InTime timeoutSeconds time := by
  have hphase := hc.phase
  cases e with
  | pass n => exact hc.passes h
  | check =>
      simp only [Course.step] at h
      split at h
      · cases h
        exact hc.enter hc.check
      · cases h
        exact hc.enter hc.check
      · cases h
  | limit =>
      simp only [Course.step] at h
      split at h
      · rename_i hchecked
        rw [hchecked] at hphase
        cases h
        exact hc.enter (hc.limit hlong hphase)
      · cases h
  | send =>
      simp only [Course.step] at h
      split at h
      · rename_i timeout hlimited
        rw [hlimited] at hphase
        obtain ⟨hpos, hlow, hhigh⟩ := hphase
        cases h
        refine hc.enter ⟨c.now + timeout * perMillisecond, if_neg (by omega), ?_, hlow, hhigh⟩
        unfold perMillisecond
        omega
      · cases h
  | answer =>
      simp only [Course.step] at h
      split at h
      · cases h
        exact hc.enter trivial
      · cases h
  | look =>
      simp only [Course.step] at h
      split at h
      · cases h
        refine hc.enter ?_
        split_ifs
        · trivial
        · trivial
      · cases h
  | correct =>
      simp only [Course.step] at h
      split at h
      · cases h
        exact hc.enter trivial
      · cases h
        exact hc.enter trivial
      · cases h
  | consider attempt retryAfter random =>
      simp only [Course.step] at h
      split at h
      · cases h
        exact hc.enter (hc.consider _)
      · cases h
  | wait =>
      simp only [Course.step] at h
      split at h
      · rename_i delay hagreed
        rw [hagreed] at hphase
        cases h
        exact hc.enter hphase
      · cases h
  | finish =>
      simp only [Course.step] at h
      split at h
      · cases h
        exact hc.enter trivial
      · cases h
        exact hc.enter trivial
      · cases h
  | wake =>
      simp only [Course.step] at h
      split at h
      · split_ifs at h
        cases h
        exact hc.enter trivial
      · cases h

/-- A request of two minutes that waits for a second attempt and begins it; of the time that
passes it spends four microseconds by itself. -/
def secondAttempt : List Event :=
  [.check, .pass 1000, .limit, .pass 1000, .send, .pass 30000000000, .answer, .look,
   .consider 1 0 (fun _ => 0), .pass 1000, .wait, .pass 200001000, .wake, .check, .limit, .send]

end Course

end Karu
