/-
# `Karu.Runtime.Resolver` — `src/runtime/resolver.cpp`

Hosts are looked up on a thread of their own, and what a lookup finds is given
to libcurl as `CURLOPT_RESOLVE` lists that take turns in which address comes
first.  Callers and the thread share a table of hosts and a queue of lookups,
under one lock; every locked section is one event.

| source                                        | here                       |
|-----------------------------------------------|----------------------------|
| `resolvable_host`                             | `resolvableHost`           |
| `HostResolver::Shared::Host`                  | `Host`                     |
| `entry`: the table                            | `admitHost`                    |
| `entry`: the lookup that is due               | `Shared.enter`             |
| `entry`: what is returned                     | `Host.offer`, `Outcome`    |
| `serve`: up to `lock.unlock()`                | `Shared.pop`               |
| `serve`: from `lock.lock()` on                | `Shared.answer`            |
| `stop`                                        | `Shared.stop`              |

A caller reads `enabled` and the clock before it takes the lock, so both may be
from some time ago.  Times are counts of nanoseconds.  The log says what has
happened, the latest first; nothing reads it.
-/
import Mathlib.Data.List.Rotate
import Karu.Base.System
import Karu.Base.Table
import Karu.Base.Text
import Karu.Base.Word

namespace Karu

open Base

namespace HostResolver

/-! ## URLs -/

/-- `lowercase`. -/
def lowercase (t : Text) : Text := t.map asciiLower

/-- `is_decimal`. -/
def isDecimal (t : Text) : Bool := !t.isEmpty && t.all isDigit

/-- What is left of an authority behind its user information. -/
def withoutUser (authority : Text) : Text :=
  match rfind 64 authority with
  | some at_ => authority.drop (at_ + 1)
  | none => authority

/-- The host and the port of an authority, as they are written. -/
def splitPort (authority : Text) : Text × Text :=
  match rfind 58 authority with
  | some colon => (authority.take colon, authority.drop (colon + 1))
  | none => (authority, [])

/-- `resolvable_host`. -/
def resolvableHost (url : Text) : Option (Text × Text) :=
  match findText (text "://") url with
  | none => none
  | some separator =>
      let scheme := lowercase (url.take separator)
      if scheme ≠ text "http" ∧ scheme ≠ text "https" then none
      else
        let behind := url.drop (separator + 3)
        let authority :=
          withoutUser (behind.take ((findFirstOf (text "/?#") behind).getD behind.length))
        if authority.isEmpty ∨ authority.head? = some 91 then none
        else
          let (host, port) := splitPort authority
          let port :=
            if port.isEmpty then (if scheme = text "https" then text "443" else text "80") else port
          if host.isEmpty ∨ !isDecimal port then none
          else if host.all fun c => isDigit c || c == 46 then none
          else some (lowercase host, port)

/-! ## Hosts -/

/-- `kKeepAnswer`. -/
def keepAnswer : Int := 60000000000

/-- `kWaitForFirstAnswer`. -/
def waitForFirstAnswer : Int := 300000000

/-- `kPassAlways`. -/
def passAlways : Int := 1000000000

/-- `kPassEvery`. -/
def passEvery : Nat := 8

/-- `kMaxHosts`. -/
def maxHosts : Nat := 256

/-- `HostResolver::Shared::Host`. -/
structure Host where
  addresses : List Text := []
  expires : Int := 0
  started : Int := 0
  answered : Int := 0
  transfers : Nat := 0
  next : Nat := 0
  looking : Bool := false

/-- `HostResolver::Entry`. -/
structure Entry where
  waiting : Bool := false
  resolve : Text := []

/-- The four things that `entry` returns. -/
inductive Outcome where
  | nothing
  | waiting
  | removal
  | list (addresses : List Text)
deriving DecidableEq

/-- What is returned for a host and a port. -/
def Outcome.entry (host port : Text) : Outcome → Entry
  | .nothing => {}
  | .waiting => { waiting := true }
  | .removal => { resolve := text "-" ++ host ++ text ":" ++ port }
  | .list addresses =>
      { resolve := text "+" ++ host ++ text ":" ++ port ++ text ":" ++
          (text ",").intercalate addresses }

/-- The loop over `state.addresses[(first + index) % count]`. -/
def rotated (addresses : List Text) (first : Nat) : List Text :=
  (List.range addresses.length).map fun index =>
    addresses.getD ((first + index) % addresses.length) []

/-- The next list of a host, and the host behind it. -/
def Host.turn (state : Host) : Host × Outcome :=
  ({ state with next := add64 state.next 1 },
    .list (rotated state.addresses (state.next % state.addresses.length)))

/-- From `!state.addresses.empty()` on. -/
def Host.offer (state : Host) (now : Int) : Host × Outcome :=
  if !state.addresses.isEmpty ∧ now < state.expires then
    if passAlways ≤ now - state.answered then
      let counted := { state with transfers := add64 state.transfers 1 }
      if state.transfers % passEvery ≠ 0 then (counted, .nothing) else counted.turn
    else state.turn
  else if state.looking ∧ now - state.started < waitForFirstAnswer then (state, .waiting)
  else (state, .removal)

/-- A new host takes the place of those that have expired, if the table is full; `none` where
there is no place for it. -/
def admitHost (hosts : Table Text Host) (host : Text) (now : Int) : Option Host × Table Text Host :=
  match hosts.find host with
  | some state => (some state, hosts)
  | none =>
      if maxHosts ≤ hosts.size then
        let hosts := hosts.keep fun _ state => state.looking || now < state.expires
        if maxHosts ≤ hosts.size then (none, hosts) else (some {}, hosts.assign host {})
      else (some {}, hosts.assign host {})

/-! ## The shared state -/

/-- What has happened. -/
inductive Note where
  /-- A lookup is queued. -/
  | started (host : Text) (at_ : Int)
  /-- A lookup has ended. -/
  | answered (host : Text) (addresses : List Text) (at_ : Int)
  /-- A call that read the clock at `now` returns from its locked section. -/
  | returned (host port : Text) (now : Int) (outcome : Outcome)
  | stopped

/-- `HostResolver::Shared`: `running` is the host the thread is looking up. -/
structure Shared where
  enabled : Bool
  serving : Bool := false
  stopped : Bool := false
  hosts : Table Text Host := .empty
  queue : List Text := []
  running : Option Text := none
  clock : Int := 0
  calls : Nat := 0
  log : List Note := []

namespace Shared

/-- The locked section of `entry`, up to what is returned: `none` if nothing is. -/
def prepare (s : Shared) (host : Text) (now : Int) (starts : Bool) :
    Shared × Except Outcome Host :=
  match admitHost s.hosts host now with
  | (none, hosts) => ({ s with hosts }, .error .removal)
  | (some state, hosts) =>
      if !state.looking ∧ state.expires ≤ now then
        -- the thread is started with the first lookup
        if !s.serving ∧ !starts then ({ s with hosts, enabled := false }, .error .nothing)
        else
          ({ s with
              hosts, serving := true, queue := s.queue ++ [host]
              log := .started host now :: s.log },
            .ok { state with looking := true, started := now })
      else ({ s with hosts }, .ok state)

/-- The locked section of `entry`; `starts` says whether a thread can be started. -/
def enter (s : Shared) (host : Text) (now : Int) (starts : Bool) : Shared × Outcome :=
  if s.stopped then (s, .nothing)
  else
    match s.prepare host now starts with
    | (s, .error outcome) => (s, outcome)
    | (s, .ok state) =>
        let (state, outcome) := state.offer now
        ({ s with hosts := s.hosts.assign host state }, outcome)

/-- `HostResolver::entry`, for a call that has read `enabled` and the clock. -/
def entry (s : Shared) (url : Text) (enabled : Bool) (now : Int) (starts : Bool) :
    Shared × Entry :=
  if !enabled then (s, {})
  else
    match resolvableHost url with
    | none => (s, {})
    | some (host, port) =>
        let (s, outcome) := s.enter host now starts
        ({ s with log := .returned host port now outcome :: s.log }, outcome.entry host port)

/-- `serve`, up to the lookup. -/
def pop (s : Shared) : Option Shared :=
  match s.queue, s.running with
  | host :: queue, none =>
      if !s.serving ∨ s.stopped then none else some { s with queue, running := some host }
  | _, _ => none

/-- `serve`, behind the lookup, which has found addresses or thrown. -/
def answer (s : Shared) (found : Option (List Text)) : Option Shared :=
  match s.running with
  | none => none
  | some host =>
      if s.stopped then some { s with running := none }
      else
        let addresses := found.getD []
        match s.hosts.find host with
        | none => some { s with running := none }
        | some state =>
            some { s with
              running := none
              hosts := s.hosts.assign host { state with
                looking := false, addresses, answered := s.clock
                expires := s.clock + keepAnswer, transfers := 0 }
              log := .answered host addresses s.clock :: s.log }

/-- `HostResolver::stop`. -/
def stop (s : Shared) : Shared :=
  { s with stopped := true, queue := [], log := .stopped :: s.log }

end Shared

/-! ## The system -/

/-- What can happen next. -/
inductive Event where
  | tick (later : Nat)
  /-- A call of `entry`, which read `enabled` and the clock at some time before. -/
  | entry (url : Text) (enabled : Bool) (now : Int) (starts : Bool)
  | pop
  | answer (found : Option (List Text))
  | stop

/-- One event. -/
def Shared.step (s : Shared) : Event → Option Shared
  | .tick later => some { s with clock := s.clock + later }
  | .entry url enabled now starts =>
      if s.clock < now then none
      else some { (s.entry url enabled now starts).1 with calls := s.calls + 1 }
  | .pop => s.pop
  | .answer found => s.answer found
  | .stop => some s.stop

/-- A resolver, from its construction on. -/
def system (enabled : Bool) (clock : Int) : System Shared Event where
  start := { enabled, clock }
  step := Shared.step

end HostResolver

end Karu
