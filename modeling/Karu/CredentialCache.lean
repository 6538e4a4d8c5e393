/-
# `Karu.CredentialCache` — `src/credential_cache.cpp`

Credentials are loaded once for several requests.  A load in progress is a
flight: callers that want the same thing wait for it.  A loaded credential
becomes an entry, which is served until it is due for a refresh.  When a server
rejects a credential, `invalidate` removes the entry and detaches the flight.

Every locked section is one event of a transition system, and so are the start
of a call (it reads the clock), the end of a load (it reads the clock again)
and a waiter's wake-up; any number of calls may be under way.

| source                                  | here                          |
|-----------------------------------------|-------------------------------|
| `CredentialCache::Entry`, `Flight`      | `Entry`, `Flight`             |
| `refresh_time`, `reusable`              | `refreshTime`, `reusable`     |
| `custom`, `native`: up to the lock      | `Event.call`                  |
| first locked section                    | `Cache.enter`                 |
| `load_credentials` and the expiry check | `Cache.settle`, `Event.load`  |
| second locked section                   | `Cache.publish`               |
| the end of `ready.wait`                 | `Event.wake`                  |
| `invalidate`                            | `Cache.invalidate`            |

Three things are added to say what happened: the number of events so far, the
event at which each flight began and each call started, and the flight an entry
or an answer comes from.  Nothing reads them.

A clock is an integer: it would have to stand at the end of the 64-bit range
for `now + 60` to be out of it.  A call without a callback for its kind returns
before it looks at anything.
-/
import Karu.Base.System
import Karu.CredentialScope
import Karu.Request

namespace Karu

open Base

/-! ## Credentials -/

/-- `present` of `native`. -/
def ProviderCredentials.present (c : ProviderCredentials) : Bool :=
  !c.accessKeyId.isEmpty || !c.secretAccessKey.isEmpty || !c.sessionToken.isEmpty ||
    !c.bearerToken.isEmpty || !c.sasToken.isEmpty

/-- `std::expected<ProviderCredentials, RequestError>`. -/
abbrev LoadResult := Except RequestError ProviderCredentials

/-- How a load ends: with a result, or with an exception. -/
inductive LoadEnd where
  | result (r : LoadResult)
  | badAlloc
  | exception (what : Text)
  | unknown

/-- `load_credentials`. -/
def loadCredentials : LoadEnd → LoadResult
  | .result r => r
  | .badAlloc => .error ⟨.errNomem, text "out of memory loading credentials"⟩
  | .exception what => .error ⟨.errCredentials, text "credential provider: " ++ what⟩
  | .unknown =>
      .error ⟨.errCredentials, text "credential provider raised an unknown exception"⟩

namespace CredentialCache

/-- `kStaticCredentialTtlSeconds`. -/
def staticCredentialTtlSeconds : Int := 60

/-- `CredentialCache::refresh_time`. -/
def refreshTime (credentials : ProviderCredentials) (now : Int) (refreshStatic : Bool) : Int :=
  if credentials.expiresAt = 0 then
    if refreshStatic then now + staticCredentialTtlSeconds else 2 ^ 63 - 1
  else if credentials.expiresAt ≤ now then now
  else
    let lifetime := credentials.expiresAt - now
    let margin := max 1 (min (lifetime / 10) 60)
    max (now + 1) (credentials.expiresAt - margin)

/-! ## The cache -/

/-- What a call is about: a native scope, or a path of a custom provider. -/
inductive Target where
  | native (kind : CredentialsKind) (scope : Text)
  | custom (kind : CredentialsKind) (path : Text)
deriving DecidableEq

/-- What a native call on a path is about. -/
def nativeTarget (config : ConfigSnapshot) (kind : CredentialsKind) (path : Text) : Target :=
  .native kind (config.scopeKey path kind.credentialOptions)

/-- `family`. -/
def Target.family : Target → Text
  | .native kind _ => credentialFamily (text "native") kind
  | .custom kind _ => credentialFamily (text "custom") kind

/-- `key`, or `flight_key`. -/
def Target.key : Target → Text
  | t@(.native _ scope) => credentialKey t.family scope
  | t@(.custom _ path) => credentialKey t.family path

/-- `CredentialCache::Entry`, with the flight that loaded it and the time this was at. -/
structure Entry where
  credentials : ProviderCredentials
  refreshAt : Int := 0
  flight : Nat
  loadedAt : Int
deriving DecidableEq

/-- `CredentialCache::reusable`. -/
def reusable (entry : Entry) (now : Int) : Bool :=
  now < entry.refreshAt && (entry.credentials.expiresAt == 0 || now < entry.credentials.expiresAt)

/-- `CredentialCache::Flight`, with what it is for and the event it began at. -/
structure Flight where
  target : Target
  begun : Nat
  done : Bool := false
  invalidated : Bool := false
  result : Option LoadResult := none
deriving DecidableEq

/-- Where an answer comes from. -/
inductive Origin where
  | cached (entry : Entry)
  | joined (flight : Nat)
  | own (flight : Nat)
deriving DecidableEq

/-- The flight that loaded the answer. -/
def Origin.flight : Origin → Nat
  | .cached entry => entry.flight
  | .joined f => f
  | .own f => f

/-- How far a call has come. -/
inductive Phase where
  | checked
  | waiting (flight : Nat)
  | loading (flight : Nat)
  | loaded (flight : Nat) (result : LoadResult) (loadedAt : Int)
  | returned (result : LoadResult) (origin : Origin)
deriving DecidableEq

/-- A call of `native` or `custom`, and the event it started at. -/
structure Call where
  target : Target
  started : Nat
  checkedAt : Int
  phase : Phase := .checked
deriving DecidableEq

/-- The cache, the flights that exist, and the calls made so far. -/
structure Cache where
  entries : List (Text × Entry) := []
  flights : Text → Option Nat := fun _ => none
  flight : Nat → Option Flight := fun _ => none
  created : Nat := 0
  call : Nat → Option Call := fun _ => none
  calls : Nat := 0
  now : Int := 0
  events : Nat := 0
  invalidations : List (Target × Nat) := []

namespace Cache

/-! ## The first locked section -/

/-- `insert_or_assign`, on the entries. -/
def insertOrAssign (entries : List (Text × Entry)) (key : Text) (entry : Entry) :
    List (Text × Entry) :=
  (key, entry) :: entries.filter (·.1 ≠ key)

/-- `current` of `find_reusable`. -/
def current (target : Target) (path : Text) (checkedAt : Int) (item : Text × Entry) : Bool :=
  target.family.isPrefixOf item.1 && pathPrefixMatches path item.2.credentials.cachePrefix &&
    reusable item.2 checkedAt

/-- One turn of `find_reusable`: a longer prefix is better. -/
def longer (best : Option Entry) (item : Text × Entry) : Option Entry :=
  match best with
  | none => some item.2
  | some b =>
      if b.credentials.cachePrefix.length < item.2.credentials.cachePrefix.length then some item.2
      else best

/-- `find_reusable`: the current entry with the longest prefix. -/
def findReusable (target : Target) (path : Text) (checkedAt : Int)
    (entries : List (Text × Entry)) : Option Entry :=
  (entries.filter (current target path checkedAt)).foldl longer none

/-- The entry a call is answered with. -/
def lookup (s : Cache) (target : Target) (checkedAt : Int) : Option Entry :=
  match target with
  | .native _ _ => ((s.entries.find? (·.1 = target.key)).map (·.2)).filter (reusable · checkedAt)
  | .custom _ path => findReusable target path checkedAt s.entries

/-- The call moves on. -/
def move (s : Cache) (id : Nat) (phase : Phase) : Cache :=
  { s with call := fun i => if i = id then (s.call i).map ({ · with phase }) else s.call i }

/-- A new flight for the call. -/
def takeOff (s : Cache) (id : Nat) (target : Target) : Cache :=
  { s with
    flights := fun key => if key = target.key then some s.created else s.flights key
    flight := fun f => if f = s.created then some { target, begun := s.events } else s.flight f
    created := s.created + 1 }.move id (.loading s.created)

/-- The first locked section: an entry, somebody's flight, or a flight of its own. -/
def enter (s : Cache) (id : Nat) (c : Call) : Cache :=
  match s.lookup c.target c.checkedAt with
  | some entry => s.move id (.returned (.ok entry.credentials) (.cached entry))
  | none =>
      match s.flights c.target.key with
      | some f => s.move id (.waiting f)
      | none => s.takeOff id c.target

/-! ## Loading -/

/-- The lambda `custom` loads with: the prefix must contain the path. -/
def checkPrefix (path : Text) : LoadResult → LoadResult
  | .error e => .error e
  | .ok value =>
      if value.cachePrefix.isEmpty then .ok value
      else
        let value := { value with cachePrefix := canonicalVsiPath value.cachePrefix }
        if pathPrefixMatches path value.cachePrefix then .ok value
        else
          .error ⟨.errCredentials,
            text "custom credential cache_prefix does not contain the requested path"⟩

/-- What a call makes of the end of its load. -/
def settle (target : Target) (ended : LoadEnd) (loadedAt : Int) : LoadResult :=
  let loaded : LoadResult :=
    match target, ended with
    | .custom _ path, .result r => checkPrefix path r
    | _, _ => loadCredentials ended
  match loaded with
  | .error e => .error e
  | .ok value =>
      if value.expiresAt ≠ 0 ∧ value.expiresAt ≤ loadedAt then
        match target with
        | .native _ _ =>
            .error ⟨.errCredentials, text "credential provider returned expired credentials"⟩
        | .custom _ _ =>
            .error ⟨.errCredentials, text "custom credential provider returned expired credentials"⟩
      else .ok value

/-! ## The second locked section -/

/-- The key and the refresh rule of a result that may be stored. -/
def storedUnder (target : Target) (value : ProviderCredentials) : Option (Text × Bool) :=
  match target with
  | .native _ _ => if value.present then some (target.key, true) else none
  | .custom _ _ =>
      if value.cachePrefix.isEmpty then none
      else some (credentialKey target.family value.cachePrefix, false)

/-- The entry a completed load leaves, unless the flight was invalidated or the insertion ran out
of memory. -/
def store (s : Cache) (f : Nat) (fl : Flight) (result : LoadResult) (loadedAt : Int) (room : Bool) :
    List (Text × Entry) :=
  match result with
  | .error _ => s.entries
  | .ok value =>
      match storedUnder fl.target value with
      | none => s.entries
      | some (key, refreshStatic) =>
          if fl.invalidated || !room then s.entries
          else
            insertOrAssign s.entries key
              { credentials := value, refreshAt := refreshTime value loadedAt refreshStatic
                flight := f, loadedAt }

/-- The second locked section. -/
def publish (s : Cache) (id f : Nat) (fl : Flight) (result : LoadResult) (loadedAt : Int)
    (room : Bool) : Cache :=
  { s with
    entries := s.store f fl result loadedAt room
    flight := fun g =>
      if g = f then some { fl with done := true, result := some result } else s.flight g
    -- only the flight that is still listed is taken off the list
    flights := fun key =>
      if key = fl.target.key ∧ s.flights key = some f then none
      else s.flights key }.move id (.returned result (.own f))

/-! ## Invalidation -/

/-- The entries an invalidation removes: the one under the key, or those that serve the path. -/
def covers (target : Target) (key cachePrefix : Text) : Bool :=
  match target with
  | .native _ _ => key = target.key
  | .custom _ path => target.family.isPrefixOf key && pathPrefixMatches path cachePrefix

/-- `invalidate`: a listed flight is marked and taken off the list. -/
def invalidate (s : Cache) (target : Target) : Cache :=
  { s with
    entries := s.entries.filter fun item => !covers target item.1 item.2.credentials.cachePrefix
    flight := fun f =>
      if s.flights target.key = some f then
        (s.flight f).map fun fl => { fl with invalidated := true }
      else s.flight f
    flights := fun key => if key = target.key then none else s.flights key
    invalidations := (target, s.events) :: s.invalidations }

end Cache

/-! ## The system -/

/-- What can happen next. -/
inductive Event where
  /-- The clock goes on. -/
  | tick (later : Nat)
  /-- A call starts and reads the clock. -/
  | call (target : Target)
  /-- The first locked section of a call. -/
  | enter (id : Nat)
  /-- A load ends; the clock is read. -/
  | load (id : Nat) (ended : LoadEnd)
  /-- The second locked section of a call; the insertion may find no room. -/
  | publish (id : Nat) (room : Bool)
  /-- A waiter finds its flight done. -/
  | wake (id : Nat)
  /-- `invalidate`. -/
  | invalidate (target : Target)

namespace Cache

/-- The event itself. -/
def perform (s : Cache) : Event → Option Cache
  | .tick later => some { s with now := s.now + later }
  | .call target =>
      some { s with
        call := fun i =>
          if i = s.calls then some { target, started := s.events, checkedAt := s.now } else s.call i
        calls := s.calls + 1 }
  | .enter id =>
      match s.call id with
      | some c@{ phase := .checked, .. } => some (s.enter id c)
      | _ => none
  | .load id ended =>
      match s.call id with
      | some { phase := .loading f, target, .. } =>
          some (s.move id (.loaded f (settle target ended s.now) s.now))
      | _ => none
  | .publish id room =>
      match s.call id with
      | some { phase := .loaded f result loadedAt, .. } =>
          (s.flight f).map fun fl => s.publish id f fl result loadedAt room
      | _ => none
  | .wake id =>
      match s.call id with
      | some { phase := .waiting f, .. } =>
          match s.flight f with
          | some { done := true, result := some r, .. } =>
              some (s.move id (.returned r (.joined f)))
          | _ => none
      | _ => none
  | .invalidate target => some (s.invalidate target)

/-- One event, and it is counted. -/
def step (s : Cache) (e : Event) : Option Cache :=
  (s.perform e).map fun s' => { s' with events := s.events + 1 }

end Cache

/-- A cache, from its construction on; its clock may stand anywhere. -/
def system (now : Int) : System Cache Event where
  start := { now }
  step := Cache.step

end CredentialCache

end Karu
