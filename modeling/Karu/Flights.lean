/-
# `Karu.Flights` — what every run of the credential cache keeps

Three things hold together in every reachable state.  The list of flights and
the flights that exist agree: listed is what is neither done nor invalidated,
one flight a key.  Every call stands behind what its phase says: a waiter has a
flight for its own target, an owner has a flight that is not done and that
nobody else owns.  Every entry was loaded, not expired, by the flight it names.

Freshness is about the invalidations so far.  A listed flight began after every
invalidation of its target, since an invalidation takes it off the list; so did
the flight behind an answer, as far as the invalidation came before the call.
An entry is another matter: a flight is found by its target, an entry by what
it covers.  `Timely` says that a published entry is none that an invalidation
of some other target, made since the flight began, would have removed.
-/
import Karu.CredentialCache

namespace Karu

open Base

namespace CredentialCache

/-! ## Keys -/

theorem family_ne (k k' : CredentialsKind) (x y : Text) :
    credentialFamily (text "native") k ++ x ≠ credentialFamily (text "custom") k' ++ y := by
  intro h
  have hhead := congrArg List.head? h
  have hn : text "native" = 110 :: [97, 116, 105, 118, 101] := by decide
  have hc : text "custom" = 99 :: [117, 115, 116, 111, 109] := by decide
  simp [credentialFamily, hn, hc] at hhead

theorem family_inj {source x y : Text} {k k' : CredentialsKind}
    (h : credentialFamily source k ++ x = credentialFamily source k' ++ y) : k = k' ∧ x = y := by
  have hdigit : ∀ k : CredentialsKind, decimal k.value = [UInt8.ofNat (48 + k.value)] := by
    intro k
    exact decimal_digit k.value (by cases k <;> decide)
  have hnl : text "\n" = [10] := by decide
  simp only [credentialFamily, List.append_assoc, hnl, hdigit, List.singleton_append] at h
  have htail := List.cons.inj (List.append_cancel_left h)
  have hrest := List.cons.inj htail.2
  refine ⟨?_, (List.cons.inj hrest.2).2⟩
  have hval := hrest.1
  cases k <;> cases k' <;> first | rfl | exact absurd hval (by decide)

/-- A key names its target. -/
theorem Target.key_inj : ∀ {t t' : Target}, t.key = t'.key → t = t'
  | .native k x, .native k' y, h => by
      obtain ⟨rfl, rfl⟩ := family_inj h
      rfl
  | .custom k x, .custom k' y, h => by
      obtain ⟨rfl, rfl⟩ := family_inj h
      rfl
  | .native k x, .custom k' y, h => (family_ne k k' x y h).elim
  | .custom k x, .native k' y, h => (family_ne k' k y x h.symm).elim

/-! ## The longest prefix -/

namespace Cache

/-- The loop of `find_reusable`: some entry is found unless there is none, and none has a longer
prefix. -/
theorem foldl_longer (items : List (Text × Entry)) :
    ∀ best : Option Entry, ∃ found, items.foldl longer best = found ∧
      (found = none → best = none ∧ items = []) ∧
      ∀ b, found = some b →
        (best = some b ∨ ∃ key, (key, b) ∈ items) ∧
        (∀ b', best = some b' →
          b'.credentials.cachePrefix.length ≤ b.credentials.cachePrefix.length) ∧
        ∀ item ∈ items, item.2.credentials.cachePrefix.length ≤ b.credentials.cachePrefix.length := by
  induction items with
  | nil =>
      intro best
      refine ⟨best, rfl, fun h => ⟨h, rfl⟩, ?_⟩
      intro b hb
      refine ⟨.inl hb, ?_, by simp⟩
      intro b' hb'
      rw [Option.some.inj (hb'.symm.trans hb)]
  | cons item items ih =>
      intro best
      obtain ⟨found, hfound, hnone, hsome⟩ := ih (longer best item)
      -- one turn takes the item or what it had, whichever is longer
      have hturn : ∃ b, longer best item = some b ∧ (best = some b ∨ b = item.2) ∧
          item.2.credentials.cachePrefix.length ≤ b.credentials.cachePrefix.length ∧
          ∀ b', best = some b' →
            b'.credentials.cachePrefix.length ≤ b.credentials.cachePrefix.length := by
        unfold longer
        split
        · exact ⟨item.2, rfl, .inr rfl, Nat.le_refl _, by simp⟩
        · rename_i b
          split
          · rename_i hlt
            refine ⟨item.2, rfl, .inr rfl, Nat.le_refl _, ?_⟩
            intro b' hb'
            cases hb'
            exact Nat.le_of_lt hlt
          · rename_i hle
            refine ⟨b, rfl, .inl rfl, Nat.not_lt.mp hle, ?_⟩
            intro b' hb'
            cases hb'
            exact Nat.le_refl _
      obtain ⟨t, ht, hfrom, hitem, hbest⟩ := hturn
      refine ⟨found, hfound, ?_, ?_⟩
      · intro h
        rw [ht] at hnone
        cases (hnone h).1
      · intro b hb
        obtain ⟨hmem, hle, hall⟩ := hsome b hb
        have htb := hle t ht
        refine ⟨?_, fun b' hb' => Nat.le_trans (hbest b' hb') htb, ?_⟩
        · rcases hmem with hmem | ⟨key, hmem⟩
          · rw [ht] at hmem
            cases hmem
            rcases hfrom with hfrom | rfl
            · exact .inl hfrom
            · exact .inr ⟨item.1, List.mem_cons_self⟩
          · exact .inr ⟨key, List.mem_cons_of_mem _ hmem⟩
        · intro x hx
          rcases List.mem_cons.mp hx with rfl | hx
          · exact Nat.le_trans hitem htb
          · exact hall x hx

section

variable {target : Target} {path : Text} {checkedAt : Int} {entries : List (Text × Entry)}

theorem findReusable_some {entry : Entry}
    (h : findReusable target path checkedAt entries = some entry) :
    (∃ key, (key, entry) ∈ entries ∧ current target path checkedAt (key, entry) = true) ∧
      ∀ item ∈ entries, current target path checkedAt item = true →
        item.2.credentials.cachePrefix.length ≤ entry.credentials.cachePrefix.length := by
  obtain ⟨found, hfound, -, hsome⟩ :=
    foldl_longer (entries.filter (current target path checkedAt)) none
  obtain ⟨hmem, -, hall⟩ := hsome entry (hfound.symm.trans h)
  refine ⟨?_, fun item hitem hcurrent => hall item (List.mem_filter.mpr ⟨hitem, hcurrent⟩)⟩
  rcases hmem with hmem | ⟨key, hmem⟩
  · cases hmem
  · exact ⟨key, List.mem_filter.mp hmem⟩

theorem findReusable_none (h : findReusable target path checkedAt entries = none) :
    ∀ item ∈ entries, current target path checkedAt item = false := by
  obtain ⟨found, hfound, hnone, -⟩ :=
    foldl_longer (entries.filter (current target path checkedAt)) none
  have hempty := (hnone (hfound.symm.trans h)).2
  intro item hitem
  exact Bool.eq_false_iff.mpr (List.filter_eq_nil_iff.mp hempty item hitem)

end

end Cache

/-! ## Everything an event can do -/

namespace Cache

/-- What an event makes of the cache, apart from being counted. -/
inductive Stepped (s : Cache) : Event → Cache → Prop
  | tick (later : Nat) : Stepped s (.tick later) { s with now := s.now + later }
  | call (target : Target) :
      Stepped s (.call target) { s with
        call := fun i =>
          if i = s.calls then some { target, started := s.events, checkedAt := s.now } else s.call i
        calls := s.calls + 1 }
  | cached {id : Nat} {c : Call} {entry : Entry} : s.call id = some c → c.phase = .checked →
      s.lookup c.target c.checkedAt = some entry →
      Stepped s (.enter id) (s.move id (.returned (.ok entry.credentials) (.cached entry)))
  | joins {id f : Nat} {c : Call} : s.call id = some c → c.phase = .checked →
      s.lookup c.target c.checkedAt = none → s.flights c.target.key = some f → Stepped s (.enter id) (s.move id (.waiting f))
  | takesOff {id : Nat} {c : Call} : s.call id = some c → c.phase = .checked →
      s.lookup c.target c.checkedAt = none → s.flights c.target.key = none → Stepped s (.enter id) (s.takeOff id c.target)
  | loads {id f : Nat} {c : Call} {ended : LoadEnd} : s.call id = some c → c.phase = .loading f →
      Stepped s (.load id ended) (s.move id (.loaded f (settle c.target ended s.now) s.now))
  | publishes {id f : Nat} {c : Call} {fl : Flight} {result : LoadResult} {loadedAt : Int}
      {room : Bool} : s.call id = some c → c.phase = .loaded f result loadedAt →
      s.flight f = some fl →
      Stepped s (.publish id room) (s.publish id f fl result loadedAt room)
  | wakes {id f : Nat} {c : Call} {fl : Flight} {r : LoadResult} : s.call id = some c →
      c.phase = .waiting f → s.flight f = some fl → fl.done = true → fl.result = some r →
      Stepped s (.wake id) (s.move id (.returned r (.joined f)))
  | invalidates (target : Target) : Stepped s (.invalidate target) (s.invalidate target)

theorem perform_stepped {s s' : Cache} {e : Event} (h : s.perform e = some s') :
    Stepped s e s' := by
  cases e with
  | tick later =>
      cases h
      exact .tick later
  | call target =>
      cases h
      exact .call target
  | enter id =>
      simp only [perform] at h
      split at h
      · rename_i c target started checkedAt hcall
        cases h
        unfold enter
        split
        · rename_i entry hentry
          exact .cached hcall rfl hentry
        · rename_i hentry
          split
          · rename_i f hf
            exact .joins hcall rfl hentry hf
          · rename_i hf
            exact .takesOff hcall rfl hentry hf
      · cases h
  | load id ended =>
      simp only [perform] at h
      split at h
      · rename_i f target started checkedAt hcall
        cases h
        exact .loads hcall rfl
      · cases h
  | publish id room =>
      simp only [perform] at h
      split at h
      · rename_i f result loadedAt target started checkedAt hcall
        rw [Option.map_eq_some_iff] at h
        obtain ⟨fl, hfl, rfl⟩ := h
        exact .publishes hcall rfl hfl
      · cases h
  | wake id =>
      simp only [perform] at h
      split at h
      · rename_i f target started checkedAt hcall
        split at h
        · rename_i fl r t b i hfl
          cases h
          exact .wakes hcall rfl hfl rfl rfl
        · cases h
      · cases h
  | invalidate target =>
      cases h
      exact .invalidates target

theorem step_stepped {s s' : Cache} {e : Event} (h : s.step e = some s') :
    ∃ s₁, Stepped s e s₁ ∧ s' = { s₁ with events := s.events + 1 } := by
  rw [step, Option.map_eq_some_iff] at h
  obtain ⟨s₁, hs₁, rfl⟩ := h
  exact ⟨s₁, perform_stepped hs₁, rfl⟩

@[simp] theorem move_entries (s : Cache) (id : Nat) (ph : Phase) :
    (s.move id ph).entries = s.entries := rfl

@[simp] theorem move_flights (s : Cache) (id : Nat) (ph : Phase) :
    (s.move id ph).flights = s.flights := rfl

@[simp] theorem move_flight (s : Cache) (id : Nat) (ph : Phase) :
    (s.move id ph).flight = s.flight := rfl

@[simp] theorem move_created (s : Cache) (id : Nat) (ph : Phase) :
    (s.move id ph).created = s.created := rfl

@[simp] theorem move_calls (s : Cache) (id : Nat) (ph : Phase) :
    (s.move id ph).calls = s.calls := rfl

@[simp] theorem move_invalidations (s : Cache) (id : Nat) (ph : Phase) :
    (s.move id ph).invalidations = s.invalidations := rfl

/-- A call after a move: the one that moved, or another one as it was. -/
theorem call_move {s : Cache} {id i : Nat} {ph : Phase} {c : Call}
    (h : (s.move id ph).call i = some c) :
    (i = id ∧ ∃ d, s.call id = some d ∧ c = { d with phase := ph }) ∨ (i ≠ id ∧ s.call i = some c) := by
  simp only [move] at h
  split at h
  · rename_i hi
    subst hi
    rw [Option.map_eq_some_iff] at h
    obtain ⟨d, hd, rfl⟩ := h
    exact .inl ⟨rfl, d, hd, rfl⟩
  · rename_i hi
    exact .inr ⟨hi, h⟩

theorem call_move_self {s : Cache} {id : Nat} {c : Call} (h : s.call id = some c) (ph : Phase) :
    (s.move id ph).call id = some { c with phase := ph } := by
  simp [move, h]

theorem call_move_other {s : Cache} {id i : Nat} (h : i ≠ id) (ph : Phase) :
    (s.move id ph).call i = s.call i := by
  simp [move, h]

end Cache

/-! ## The invariant -/

/-- The call owns the flight: it will publish its result. -/
def Phase.owns : Phase → Nat → Prop
  | .loading f, g => f = g
  | .loaded f _ _, g => f = g
  | _, _ => False

/-- Not expired at that time. -/
def Unexpired (value : ProviderCredentials) (at_ : Int) : Prop :=
  value.expiresAt = 0 ∨ at_ < value.expiresAt

/-- The list of flights and the flights there are. -/
structure Listing (flights : Text → Option Nat) (flight : Nat → Option Flight) (created : Nat) :
    Prop where
  made : ∀ {f fl}, flight f = some fl → f < created
  listed : ∀ {key f}, flights key = some f →
    ∃ fl, flight f = some fl ∧ fl.target.key = key ∧ fl.done = false ∧ fl.invalidated = false
  live : ∀ {f fl}, flight f = some fl → fl.done = false → fl.invalidated = false →
    flights fl.target.key = some f
  finished : ∀ {f fl}, flight f = some fl → fl.done = true → ∃ r, fl.result = some r

/-- The invalidations of the call's target from before the call are older than the flight. -/
def Since (log : List (Target × Nat)) (c : Call) (fl : Flight) : Prop :=
  ∀ n, (c.target, n) ∈ log → n < c.started → n < fl.begun

/-- What stands behind the phase of a call. -/
inductive Standing (scope : Target → Prop) (flight : Nat → Option Flight)
    (log : List (Target × Nat)) (c : Call) : Phase → Prop
  | checked : Standing scope flight log c .checked
  | waiting {f : Nat} {fl : Flight} : flight f = some fl → fl.target = c.target →
      Since log c fl → Standing scope flight log c (.waiting f)
  | loading {f : Nat} {fl : Flight} : flight f = some fl → fl.done = false →
      fl.target = c.target → c.started ≤ fl.begun → Standing scope flight log c (.loading f)
  | loaded {f : Nat} {fl : Flight} {r : LoadResult} {at_ : Int} : flight f = some fl →
      fl.done = false → fl.target = c.target → c.started ≤ fl.begun →
      (∀ v, r = .ok v → Unexpired v at_) → Standing scope flight log c (.loaded f r at_)
  | cached {entry : Entry} {fl : Flight} : flight entry.flight = some fl → fl.done = true →
      fl.result = some (.ok entry.credentials) → reusable entry c.checkedAt = true →
      (scope c.target → Since log c fl) →
      Standing scope flight log c (.returned (.ok entry.credentials) (.cached entry))
  | joined {f : Nat} {fl : Flight} {r : LoadResult} : flight f = some fl → fl.done = true →
      fl.result = some r → fl.target = c.target → Since log c fl →
      Standing scope flight log c (.returned r (.joined f))
  | own {f : Nat} {fl : Flight} {r : LoadResult} : flight f = some fl → fl.done = true →
      fl.result = some r → fl.target = c.target → c.started ≤ fl.begun →
      Standing scope flight log c (.returned r (.own f))

/-- What stands behind an entry. -/
structure Stocked (scope : Target → Prop) (flight : Nat → Option Flight)
    (log : List (Target × Nat)) (item : Text × Entry) (fl : Flight) : Prop where
  flight : flight item.2.flight = some fl
  done : fl.done = true
  result : fl.result = some (.ok item.2.credentials)
  stored : ∃ refreshStatic, Cache.storedUnder fl.target item.2.credentials =
      some (item.1, refreshStatic) ∧
    item.2.refreshAt = refreshTime item.2.credentials item.2.loadedAt refreshStatic
  unexpired : Unexpired item.2.credentials item.2.loadedAt
  since : ∀ t n, (t, n) ∈ log → scope t →
    Cache.covers t item.1 item.2.credentials.cachePrefix = true → n < fl.begun

/-- The invariant; `n` is the number of events so far. -/
structure Inv (scope : Target → Prop) (n : Nat) (s : Cache) : Prop where
  listing : Listing s.flights s.flight s.created
  begun : ∀ {f fl}, s.flight f = some fl → fl.begun < n
  since : ∀ {f fl}, s.flight f = some fl → fl.done = false → fl.invalidated = false →
    ∀ m, (fl.target, m) ∈ s.invalidations → m < fl.begun
  started : ∀ {i c}, s.call i = some c → i < s.calls ∧ c.started < n
  logged : ∀ {t m}, (t, m) ∈ s.invalidations → m < n
  standing : ∀ {i c}, s.call i = some c → Standing scope s.flight s.invalidations c c.phase
  alone : ∀ {i j c d f}, s.call i = some c → s.call j = some d → c.phase.owns f →
    d.phase.owns f → i = j
  crewed : ∀ {f fl}, s.flight f = some fl → fl.done = false →
    ∃ i c, s.call i = some c ∧ c.phase.owns f
  stocked : ∀ {item}, item ∈ s.entries →
    ∃ fl, Stocked scope s.flight s.invalidations item fl

/-! ## Frames -/

/-- The flight later on: a result stays. -/
structure Later (fl fl' : Flight) : Prop where
  target : fl'.target = fl.target
  begun : fl'.begun = fl.begun
  done : fl.done = true → fl'.done = true ∧ fl'.result = fl.result

theorem Later.refl (fl : Flight) : Later fl fl := ⟨rfl, rfl, fun h => ⟨h, rfl⟩⟩

section Frame

variable {scope : Target → Prop} {flight flight' : Nat → Option Flight}
  {log log' : List (Target × Nat)}

theorem Since.keep {c : Call} {fl fl' : Flight} (h : Since log c fl) (hfl : Later fl fl')
    (hlog : ∀ m, (c.target, m) ∈ log' → (c.target, m) ∈ log ∨ c.started ≤ m) :
    Since log' c fl' := by
  intro m hm hlt
  rw [hfl.begun]
  rcases hlog m hm with hm | hm
  · exact h m hm hlt
  · omega

/-- A call stands as it did, where flights only go on and its own flight stays open. -/
theorem Standing.keep {c : Call} {ph : Phase} (h : Standing scope flight log c ph)
    (hflight : ∀ {f fl}, flight f = some fl →
      ∃ fl', flight' f = some fl' ∧ Later fl fl' ∧ (ph.owns f → fl'.done = fl.done))
    (hlog : ∀ m, (c.target, m) ∈ log' → (c.target, m) ∈ log ∨ c.started ≤ m) :
    Standing scope flight' log' c ph := by
  cases h with
  | checked => exact .checked
  | waiting hfl htarget hsince =>
      obtain ⟨fl', hfl', hlater, -⟩ := hflight hfl
      exact .waiting hfl' (hlater.target.trans htarget) (hsince.keep hlater hlog)
  | loading hfl hopen htarget hbegun =>
      obtain ⟨fl', hfl', hlater, hdone⟩ := hflight hfl
      exact .loading hfl' ((hdone rfl).trans hopen) (hlater.target.trans htarget)
        (hlater.begun ▸ hbegun)
  | loaded hfl hopen htarget hbegun hvalue =>
      obtain ⟨fl', hfl', hlater, hdone⟩ := hflight hfl
      exact .loaded hfl' ((hdone rfl).trans hopen) (hlater.target.trans htarget)
        (hlater.begun ▸ hbegun) hvalue
  | cached hfl hdone hresult hreusable hsince =>
      obtain ⟨fl', hfl', hlater, -⟩ := hflight hfl
      obtain ⟨hdone', hresult'⟩ := hlater.done hdone
      exact .cached hfl' hdone' (hresult'.trans hresult) hreusable
        fun hscope => (hsince hscope).keep hlater hlog
  | joined hfl hdone hresult htarget hsince =>
      obtain ⟨fl', hfl', hlater, -⟩ := hflight hfl
      obtain ⟨hdone', hresult'⟩ := hlater.done hdone
      exact .joined hfl' hdone' (hresult'.trans hresult) (hlater.target.trans htarget)
        (hsince.keep hlater hlog)
  | own hfl hdone hresult htarget hbegun =>
      obtain ⟨fl', hfl', hlater, -⟩ := hflight hfl
      obtain ⟨hdone', hresult'⟩ := hlater.done hdone
      exact .own hfl' hdone' (hresult'.trans hresult) (hlater.target.trans htarget)
        (hlater.begun ▸ hbegun)

/-- What stands behind a phase is about the call's target and times, not about its phase. -/
theorem Standing.rephase {c : Call} {ph : Phase} (h : Standing scope flight log c ph) (ph' : Phase) :
    Standing scope flight log { c with phase := ph' } ph := by
  cases h with
  | checked => exact .checked
  | waiting hfl htarget hsince => exact .waiting hfl htarget hsince
  | loading hfl hopen htarget hbegun => exact .loading hfl hopen htarget hbegun
  | loaded hfl hopen htarget hbegun hvalue => exact .loaded hfl hopen htarget hbegun hvalue
  | cached hfl hdone hresult hreusable hsince => exact .cached hfl hdone hresult hreusable hsince
  | joined hfl hdone hresult htarget hsince => exact .joined hfl hdone hresult htarget hsince
  | own hfl hdone hresult htarget hbegun => exact .own hfl hdone hresult htarget hbegun

theorem Stocked.keep {item : Text × Entry} {fl : Flight} (h : Stocked scope flight log item fl)
    (hflight : ∀ {f fl}, flight f = some fl → ∃ fl', flight' f = some fl' ∧ Later fl fl')
    (hlog : ∀ t m, (t, m) ∈ log' →
      Cache.covers t item.1 item.2.credentials.cachePrefix = true → (t, m) ∈ log) :
    ∃ fl', Stocked scope flight' log' item fl' := by
  obtain ⟨fl', hfl', hlater⟩ := hflight h.flight
  obtain ⟨hdone, hresult⟩ := hlater.done h.done
  refine ⟨fl', hfl', hdone, hresult.trans h.result, ?_, h.unexpired, ?_⟩
  · rw [hlater.target]
    exact h.stored
  · intro t m hm hscope hcovers
    rw [hlater.begun]
    exact h.since t m (hlog t m hm hcovers) hscope hcovers

end Frame

section Steps

variable {scope : Target → Prop} {n : Nat} {s : Cache}

/-! ## The events that leave the flights alone -/

theorem Inv.later (h : Inv scope n s) : Inv scope (n + 1) s where
  listing := h.listing
  begun := fun hf => Nat.lt_succ_of_lt (h.begun hf)
  since := h.since
  started := fun hc => ⟨(h.started hc).1, Nat.lt_succ_of_lt (h.started hc).2⟩
  logged := fun hm => Nat.lt_succ_of_lt (h.logged hm)
  standing := h.standing
  alone := h.alone
  crewed := h.crewed
  stocked := h.stocked

/-- A call that moves on to a phase that stands, owning what it owned. -/
theorem Inv.move (h : Inv scope n s) {id : Nat} {c : Call} (hc : s.call id = some c) {ph : Phase}
    (howns : ∀ f, ph.owns f ↔ c.phase.owns f)
    (hstanding : Standing scope s.flight s.invalidations c ph) : Inv scope n (s.move id ph) where
  listing := h.listing
  begun := h.begun
  since := h.since
  started := by
    intro i d hd
    rcases Cache.call_move hd with ⟨rfl, d', hd', rfl⟩ | ⟨-, hd⟩
    · have hstarted := h.started hd'
      exact hstarted
    · exact h.started hd
  logged := h.logged
  standing := by
    intro i d hd
    rcases Cache.call_move hd with ⟨rfl, d', hd', rfl⟩ | ⟨-, hd⟩
    · cases hc.symm.trans hd'
      exact hstanding.rephase ph
    · exact h.standing hd
  alone := by
    have hold : ∀ {i d f}, (s.move id ph).call i = some d → d.phase.owns f →
        ∃ d', s.call i = some d' ∧ d'.phase.owns f := by
      intro i d f hd hf
      rcases Cache.call_move hd with ⟨rfl, d', hd', rfl⟩ | ⟨-, hd⟩
      · cases hc.symm.trans hd'
        exact ⟨c, hc, (howns f).mp hf⟩
      · exact ⟨d, hd, hf⟩
    intro i j d e f hd he hdf hef
    obtain ⟨d', hd', hdf'⟩ := hold hd hdf
    obtain ⟨e', he', hef'⟩ := hold he hef
    exact h.alone hd' he' hdf' hef'
  crewed := by
    intro f fl hf hopen
    obtain ⟨i, d, hd, hown⟩ := h.crewed hf hopen
    by_cases hi : i = id
    · subst hi
      cases hc.symm.trans hd
      exact ⟨i, _, Cache.call_move_self hc ph, (howns f).mpr hown⟩
    · exact ⟨i, d, (Cache.call_move_other hi ph).trans hd, hown⟩
  stocked := h.stocked

theorem Inv.call (h : Inv scope n s) (target : Target) (hn : n = s.events) :
    Inv scope (n + 1) { s with
      call := fun i =>
        if i = s.calls then some { target, started := s.events, checkedAt := s.now } else s.call i
      calls := s.calls + 1 } := by
  have hold : ∀ {i c}, (if i = s.calls then
      some ({ target, started := s.events, checkedAt := s.now } : Call) else s.call i) = some c →
      (i = s.calls ∧ c.phase = .checked ∧ c.started = n) ∨ s.call i = some c := by
    intro i c hc
    split at hc
    · rename_i hi
      cases hc
      exact .inl ⟨hi, rfl, hn.symm⟩
    · exact .inr hc
  exact {
    listing := h.listing
    begun := fun hf => Nat.lt_succ_of_lt (h.begun hf)
    since := h.since
    logged := fun hm => Nat.lt_succ_of_lt (h.logged hm)
    stocked := h.stocked
    started := by
      intro i c hc
      rcases hold hc with ⟨hi, -, hstarted⟩ | hc
      · exact ⟨by rw [hi]; exact Nat.lt_succ_self _, by rw [hstarted]; exact Nat.lt_succ_self _⟩
      · exact ⟨Nat.lt_succ_of_lt (h.started hc).1, Nat.lt_succ_of_lt (h.started hc).2⟩
    standing := by
      intro i c hc
      rcases hold hc with ⟨-, hphase, -⟩ | hc
      · rw [hphase]
        exact .checked
      · exact h.standing hc
    alone := by
      intro i j c d f hc hd hcf hdf
      rcases hold hc with ⟨-, hphase, -⟩ | hc
      · rw [hphase] at hcf
        exact hcf.elim
      · rcases hold hd with ⟨-, hphase, -⟩ | hd
        · rw [hphase] at hdf
          exact hdf.elim
        · exact h.alone hc hd hcf hdf
    crewed := by
      intro f fl hf hopen
      obtain ⟨i, c, hc, hown⟩ := h.crewed hf hopen
      have hi : i ≠ s.calls := Nat.ne_of_lt (h.started hc).1
      exact ⟨i, c, (if_neg hi).trans hc, hown⟩ }

/-! ## The events that touch the flights -/

/-- A flight after take-off: the new one, or another one as it was. -/
theorem flight_takeOff {id f : Nat} {t : Target} {fl : Flight}
    (h : (s.takeOff id t).flight f = some fl) :
    (f = s.created ∧ fl = { target := t, begun := s.events }) ∨
      (f ≠ s.created ∧ s.flight f = some fl) := by
  simp only [Cache.takeOff, Cache.move_flight] at h
  split at h
  · rename_i hf
    cases h
    exact .inl ⟨hf, rfl⟩
  · rename_i hf
    exact .inr ⟨hf, h⟩

/-- A call after take-off owns the new flight, or is another one as it was. -/
theorem call_takeOff {id i : Nat} {t : Target} {c : Call} (h : (s.takeOff id t).call i = some c) :
    (i = id ∧ ∃ d, s.call id = some d ∧ c = { d with phase := .loading s.created }) ∨
      (i ≠ id ∧ s.call i = some c) :=
  Cache.call_move h

theorem Inv.takeOff (h : Inv scope n s) (hn : n = s.events) {id : Nat} {c : Call}
    (hc : s.call id = some c) (hchecked : c.phase = .checked)
    (hfree : s.flights c.target.key = none) : Inv scope (n + 1) (s.takeOff id c.target) := by
  have hkept : ∀ {f fl}, s.flight f = some fl → (s.takeOff id c.target).flight f = some fl := by
    intro f fl hf
    have hne : f ≠ s.created := Nat.ne_of_lt (h.listing.made hf)
    exact (if_neg hne).trans hf
  have hlisted : ∀ key, (s.takeOff id c.target).flights key =
      if key = c.target.key then some s.created else s.flights key := fun _ => rfl
  have hown : (s.takeOff id c.target).flight s.created =
      some { target := c.target, begun := s.events } := if_pos rfl
  exact {
    listing := {
      made := by
        intro f fl hf
        rcases flight_takeOff hf with ⟨rfl, -⟩ | ⟨-, hf⟩
        · exact Nat.lt_succ_self _
        · exact Nat.lt_succ_of_lt (h.listing.made hf)
      listed := by
        intro key f hf
        rw [hlisted] at hf
        split at hf
        · rename_i hkey
          cases hf
          exact ⟨_, hown, hkey.symm, rfl, rfl⟩
        · obtain ⟨fl, hfl, hrest⟩ := h.listing.listed hf
          exact ⟨fl, hkept hfl, hrest⟩
      live := by
        intro f fl hf hopen hvalid
        rw [hlisted]
        rcases flight_takeOff hf with ⟨rfl, rfl⟩ | ⟨-, hf⟩
        · exact if_pos rfl
        · have hlive := h.listing.live hf hopen hvalid
          have hne : fl.target.key ≠ c.target.key := by
            intro heq
            rw [heq, hfree] at hlive
            cases hlive
          exact (if_neg hne).trans hlive
      finished := by
        intro f fl hf hdone
        rcases flight_takeOff hf with ⟨-, rfl⟩ | ⟨-, hf⟩
        · cases hdone
        · exact h.listing.finished hf hdone }
    begun := by
      intro f fl hf
      rcases flight_takeOff hf with ⟨-, rfl⟩ | ⟨-, hf⟩
      · exact hn ▸ Nat.lt_succ_self _
      · exact Nat.lt_succ_of_lt (h.begun hf)
    since := by
      intro f fl hf hopen hvalid m hm
      rcases flight_takeOff hf with ⟨-, rfl⟩ | ⟨-, hf⟩
      · exact hn ▸ h.logged hm
      · exact h.since hf hopen hvalid m hm
    started := by
      intro i d hd
      rcases call_takeOff hd with ⟨rfl, d', hd', rfl⟩ | ⟨-, hd⟩
      · exact ⟨(h.started hd').1, Nat.lt_succ_of_lt (h.started hd').2⟩
      · exact ⟨(h.started hd).1, Nat.lt_succ_of_lt (h.started hd).2⟩
    logged := fun hm => Nat.lt_succ_of_lt (h.logged hm)
    standing := by
      intro i d hd
      rcases call_takeOff hd with ⟨rfl, d', hd', rfl⟩ | ⟨-, hd⟩
      · cases hc.symm.trans hd'
        have hstarted : c.started ≤ s.events := Nat.le_of_lt (hn ▸ (h.started hc).2)
        exact .loading hown rfl rfl hstarted
      · exact (h.standing hd).keep (fun hf => ⟨_, hkept hf, Later.refl _, fun _ => rfl⟩)
          fun m hm => .inl hm
    alone := by
      have hbefore : ∀ {i d f}, s.call i = some d → d.phase.owns f → f ≠ s.created := by
        intro i d f hd hown heq
        have hstand := h.standing hd
        generalize d.phase = ph at hown hstand
        cases hstand with
        | loading hfl => exact Nat.lt_irrefl _ (heq ▸ hown ▸ h.listing.made hfl)
        | loaded hfl => exact Nat.lt_irrefl _ (heq ▸ hown ▸ h.listing.made hfl)
        | _ => exact hown
      intro i j d e f hd he hdf hef
      rcases call_takeOff hd with ⟨hi, d', -, rfl⟩ | ⟨-, hd₀⟩
      · rcases call_takeOff he with ⟨hj, -, -, -⟩ | ⟨-, he₀⟩
        · exact hi.trans hj.symm
        · exact (hbefore he₀ hef hdf.symm).elim
      · rcases call_takeOff he with ⟨-, e', -, rfl⟩ | ⟨-, he₀⟩
        · exact (hbefore hd₀ hdf hef.symm).elim
        · exact h.alone hd₀ he₀ hdf hef
    crewed := by
      intro f fl hf hopen
      have hself : (s.takeOff id c.target).call id = some { c with phase := .loading s.created } :=
        Cache.call_move_self hc _
      rcases flight_takeOff hf with ⟨rfl, -⟩ | ⟨-, hf⟩
      · exact ⟨id, _, hself, rfl⟩
      · obtain ⟨i, d, hd, hown⟩ := h.crewed hf hopen
        have hi : i ≠ id := by
          rintro rfl
          cases hc.symm.trans hd
          rw [hchecked] at hown
          exact hown
        exact ⟨i, d, (Cache.call_move_other hi _).trans hd, hown⟩
    stocked := by
      intro item hitem
      obtain ⟨fl, hfl⟩ := h.stocked hitem
      exact hfl.keep (fun hf => ⟨_, hkept hf, Later.refl _⟩) fun t m hm _ => hm }

/-- A flight after an invalidation: marked if it was listed under the key. -/
theorem flight_invalidate {t : Target} {f : Nat} {fl : Flight}
    (h : (s.invalidate t).flight f = some fl) :
    (s.flights t.key = some f ∧ ∃ fl₀, s.flight f = some fl₀ ∧
        fl = { fl₀ with invalidated := true }) ∨
      (s.flights t.key ≠ some f ∧ s.flight f = some fl) := by
  simp only [Cache.invalidate] at h
  split at h
  · rename_i hf
    rw [Option.map_eq_some_iff] at h
    obtain ⟨fl₀, hfl₀, rfl⟩ := h
    exact .inl ⟨hf, fl₀, hfl₀, rfl⟩
  · rename_i hf
    exact .inr ⟨hf, h⟩

theorem Inv.invalidate (h : Inv scope n s) (hn : n = s.events) (t : Target) :
    Inv scope (n + 1) (s.invalidate t) := by
  have hkept : ∀ {f fl}, s.flight f = some fl →
      ∃ fl', (s.invalidate t).flight f = some fl' ∧ Later fl fl' ∧ fl'.done = fl.done := by
    intro f fl hf
    by_cases hlisted : s.flights t.key = some f
    · refine ⟨{ fl with invalidated := true }, ?_, ⟨rfl, rfl, fun hd => ⟨hd, rfl⟩⟩, rfl⟩
      simp [Cache.invalidate, hlisted, hf]
    · exact ⟨fl, by simp [Cache.invalidate, hlisted, hf], Later.refl fl, rfl⟩
  have hlog : ∀ {u m}, (u, m) ∈ (s.invalidate t).invalidations →
      (u = t ∧ m = n) ∨ (u, m) ∈ s.invalidations := by
    intro u m hm
    rcases List.mem_cons.mp hm with hm | hm
    · cases hm
      exact .inl ⟨rfl, hn.symm⟩
    · exact .inr hm
  have hlisted : ∀ key, (s.invalidate t).flights key =
      if key = t.key then none else s.flights key := fun _ => rfl
  -- a flight that is still valid was not listed under the key, so it is for another target
  have hother : ∀ {f fl}, (s.invalidate t).flight f = some fl → fl.done = false →
      fl.invalidated = false → s.flight f = some fl ∧ fl.target ≠ t := by
    intro f fl hf hopen hvalid
    rcases flight_invalidate hf with ⟨-, fl₀, -, rfl⟩ | ⟨hne, hf⟩
    · cases hvalid
    · refine ⟨hf, fun heq => hne ?_⟩
      rw [← heq]
      exact h.listing.live hf hopen hvalid
  exact {
    listing := {
      made := by
        intro f fl hf
        rcases flight_invalidate hf with ⟨-, fl₀, hf₀, -⟩ | ⟨-, hf⟩
        · exact h.listing.made hf₀
        · exact h.listing.made hf
      listed := by
        intro key f hf
        rw [hlisted] at hf
        split at hf
        · cases hf
        · rename_i hkey
          obtain ⟨fl, hfl, htarget, hrest⟩ := h.listing.listed hf
          have hne : s.flights t.key ≠ some f := by
            intro heq
            obtain ⟨fl', hfl', htarget', -⟩ := h.listing.listed heq
            cases hfl.symm.trans hfl'
            exact hkey (htarget.symm.trans htarget')
          exact ⟨fl, by simp [Cache.invalidate, hne, hfl], htarget, hrest⟩
      live := by
        intro f fl hf hopen hvalid
        obtain ⟨hf₀, hne⟩ := hother hf hopen hvalid
        rw [hlisted, if_neg fun heq => hne (Target.key_inj heq)]
        exact h.listing.live hf₀ hopen hvalid
      finished := by
        intro f fl hf hdone
        rcases flight_invalidate hf with ⟨-, fl₀, hf₀, rfl⟩ | ⟨-, hf⟩
        · have hresult := h.listing.finished hf₀ hdone
          exact hresult
        · exact h.listing.finished hf hdone }
    begun := by
      intro f fl hf
      rcases flight_invalidate hf with ⟨-, fl₀, hf₀, rfl⟩ | ⟨-, hf⟩
      · have hbegun := h.begun hf₀
        exact Nat.lt_succ_of_lt hbegun
      · exact Nat.lt_succ_of_lt (h.begun hf)
    since := by
      intro f fl hf hopen hvalid m hm
      obtain ⟨hf₀, hne⟩ := hother hf hopen hvalid
      rcases hlog hm with ⟨heq, -⟩ | hm
      · exact (hne heq).elim
      · exact h.since hf₀ hopen hvalid m hm
    started := fun hc => ⟨(h.started hc).1, Nat.lt_succ_of_lt (h.started hc).2⟩
    logged := by
      intro u m hm
      rcases hlog hm with ⟨-, rfl⟩ | hm
      · exact Nat.lt_succ_self _
      · exact Nat.lt_succ_of_lt (h.logged hm)
    standing := by
      intro i c hc
      refine (h.standing hc).keep (fun hf => ?_) fun m hm => ?_
      · obtain ⟨fl', hfl', hlater, hdone⟩ := hkept hf
        exact ⟨fl', hfl', hlater, fun _ => hdone⟩
      · rcases hlog hm with ⟨-, rfl⟩ | hm
        · exact .inr (Nat.le_of_lt (h.started hc).2)
        · exact .inl hm
    alone := h.alone
    crewed := by
      intro f fl hf hopen
      rcases flight_invalidate hf with ⟨-, fl₀, hf₀, rfl⟩ | ⟨-, hf⟩
      · exact h.crewed hf₀ hopen
      · exact h.crewed hf hopen
    stocked := by
      intro item hitem
      obtain ⟨hitem, hspared⟩ := List.mem_filter.mp hitem
      obtain ⟨fl, hfl⟩ := h.stocked hitem
      refine hfl.keep (fun hf => ?_) fun u m hm hcovers => ?_
      · obtain ⟨fl', hfl', hlater, -⟩ := hkept hf
        exact ⟨fl', hfl', hlater⟩
      · rcases hlog hm with ⟨rfl, -⟩ | hm
        · rw [hcovers] at hspared
          cases hspared
        · exact hm }

/-- Every invalidation in scope that would remove what the flight is about to store is older than
the flight. -/
def Current (scope : Target → Prop) (log : List (Target × Nat)) (fl : Flight) (result : LoadResult) :
    Prop :=
  ∀ v key refreshStatic, result = .ok v → Cache.storedUnder fl.target v = some (key, refreshStatic) →
    ∀ t m, (t, m) ∈ log → scope t → Cache.covers t key v.cachePrefix = true → m < fl.begun

/-- An entry after a publication: an old one, or the one that was stored. -/
theorem mem_store {f : Nat} {fl : Flight} {r : LoadResult} {at_ : Int} {room : Bool}
    {item : Text × Entry} (h : item ∈ s.store f fl r at_ room) :
    item ∈ s.entries ∨ ∃ v key refreshStatic, r = .ok v ∧ fl.invalidated = false ∧ room = true ∧
      Cache.storedUnder fl.target v = some (key, refreshStatic) ∧
      item = (key, { credentials := v, refreshAt := refreshTime v at_ refreshStatic
                     flight := f, loadedAt := at_ }) := by
  unfold Cache.store at h
  split at h
  · exact .inl h
  · rename_i v
    split at h
    · exact .inl h
    · rename_i key refreshStatic hstored
      split at h
      · exact .inl h
      · rename_i hvalid
        rcases List.mem_cons.mp h with h | h
        · simp only [Bool.or_eq_true, not_or, Bool.not_eq_true] at hvalid
          exact .inr ⟨v, key, refreshStatic, rfl, hvalid.1, by simpa using hvalid.2, hstored, h⟩
        · exact .inl (List.mem_filter.mp h).1

/-- A flight after a publication: the one that is done, or another one as it was. -/
theorem flight_publish {id f g : Nat} {fl fl' : Flight} {r : LoadResult} {at_ : Int} {room : Bool}
    (h : (s.publish id f fl r at_ room).flight g = some fl') :
    (g = f ∧ fl' = { fl with done := true, result := some r }) ∨
      (g ≠ f ∧ s.flight g = some fl') := by
  simp only [Cache.publish, Cache.move_flight] at h
  split at h
  · rename_i hg
    cases h
    exact .inl ⟨hg, rfl⟩
  · rename_i hg
    exact .inr ⟨hg, h⟩

/-- A call after a publication: the publisher, or another one as it was. -/
theorem call_publish {id f i : Nat} {fl : Flight} {r : LoadResult} {at_ : Int} {room : Bool} {c : Call}
    (h : (s.publish id f fl r at_ room).call i = some c) :
    (i = id ∧ ∃ d, s.call id = some d ∧ c = { d with phase := .returned r (.own f) }) ∨
      (i ≠ id ∧ s.call i = some c) :=
  Cache.call_move h

theorem Inv.publish (h : Inv scope n s) {id f : Nat} {c : Call} {fl : Flight} {r : LoadResult}
    {at_ : Int} {room : Bool} (hc : s.call id = some c) (hphase : c.phase = .loaded f r at_)
    (hfl : s.flight f = some fl)
    (hcurrent : fl.invalidated = false → room = true → Current scope s.invalidations fl r) :
    Inv scope (n + 1) (s.publish id f fl r at_ room) := by
  obtain ⟨hopen, htarget, hbegun, hvalue⟩ : fl.done = false ∧ fl.target = c.target ∧
      c.started ≤ fl.begun ∧ ∀ v, r = .ok v → Unexpired v at_ := by
    have hstand := h.standing hc
    rw [hphase] at hstand
    cases hstand with
    | loaded hfl' hopen htarget hbegun hvalue =>
        cases hfl.symm.trans hfl'
        exact ⟨hopen, htarget, hbegun, hvalue⟩
  have hmine : c.phase.owns f := by
    rw [hphase]
    rfl
  have hdone : (s.publish id f fl r at_ room).flight f =
      some { fl with done := true, result := some r } := if_pos rfl
  have hkept : ∀ {g fl'}, s.flight g = some fl' →
      ∃ fl'', (s.publish id f fl r at_ room).flight g = some fl'' ∧ Later fl' fl'' ∧
        (g ≠ f → fl''.done = fl'.done) := by
    intro g fl' hg
    by_cases heq : g = f
    · subst heq
      cases hfl.symm.trans hg
      refine ⟨_, hdone, ⟨rfl, rfl, fun hd => ?_⟩, fun hne => (hne rfl).elim⟩
      rw [hopen] at hd
      cases hd
    · exact ⟨fl', (if_neg heq).trans hg, Later.refl fl', fun _ => rfl⟩
  have hlisted : ∀ key, (s.publish id f fl r at_ room).flights key =
      if key = fl.target.key ∧ s.flights key = some f then none else s.flights key := fun _ => rfl
  exact {
    listing := {
      made := by
        intro g fl' hg
        rcases flight_publish hg with ⟨rfl, -⟩ | ⟨-, hg⟩
        · exact h.listing.made hfl
        · exact h.listing.made hg
      listed := by
        intro key g hg
        rw [hlisted] at hg
        split at hg
        · cases hg
        · rename_i hkey
          obtain ⟨fl', hfl', htarget', hrest⟩ := h.listing.listed hg
          have hne : g ≠ f := by
            rintro rfl
            cases hfl.symm.trans hfl'
            exact hkey ⟨htarget'.symm, hg⟩
          exact ⟨fl', (if_neg hne).trans hfl', htarget', hrest⟩
      live := by
        intro g fl' hg hopen' hvalid
        rcases flight_publish hg with ⟨-, rfl⟩ | ⟨hne, hg⟩
        · cases hopen'
        · have hlive := h.listing.live hg hopen' hvalid
          rw [hlisted, if_neg fun hboth => hne ?_]
          · exact hlive
          · exact Option.some.inj (hlive.symm.trans hboth.2)
      finished := by
        intro g fl' hg hdone'
        rcases flight_publish hg with ⟨-, rfl⟩ | ⟨-, hg⟩
        · exact ⟨r, rfl⟩
        · exact h.listing.finished hg hdone' }
    begun := by
      intro g fl' hg
      rcases flight_publish hg with ⟨-, rfl⟩ | ⟨-, hg⟩
      · have hlt := h.begun hfl
        exact Nat.lt_succ_of_lt hlt
      · exact Nat.lt_succ_of_lt (h.begun hg)
    since := by
      intro g fl' hg hopen' hvalid
      rcases flight_publish hg with ⟨-, rfl⟩ | ⟨-, hg⟩
      · cases hopen'
      · exact h.since hg hopen' hvalid
    started := by
      intro i d hd
      rcases call_publish hd with ⟨rfl, d', hd', rfl⟩ | ⟨-, hd⟩
      · exact ⟨(h.started hd').1, Nat.lt_succ_of_lt (h.started hd').2⟩
      · exact ⟨(h.started hd).1, Nat.lt_succ_of_lt (h.started hd).2⟩
    logged := fun hm => Nat.lt_succ_of_lt (h.logged hm)
    standing := by
      intro i d hd
      rcases call_publish hd with ⟨rfl, d', hd', rfl⟩ | ⟨hi, hd₀⟩
      · cases hc.symm.trans hd'
        exact .own hdone rfl rfl htarget hbegun
      · refine (h.standing hd₀).keep (fun {g fl'} hg => ?_) fun m hm => .inl hm
        obtain ⟨fl'', hfl'', hlater, hsame⟩ := hkept hg
        refine ⟨fl'', hfl'', hlater, fun howns => hsame fun heq => hi ?_⟩
        exact h.alone hd₀ hc howns (heq ▸ hmine)
    alone := by
      have hold : ∀ {i d g}, (s.publish id f fl r at_ room).call i = some d → d.phase.owns g →
          s.call i = some d := by
        intro i d g hd howns
        rcases call_publish hd with ⟨-, d', -, rfl⟩ | ⟨-, hd⟩
        · exact howns.elim
        · exact hd
      intro i j d e g hd he hdg heg
      exact h.alone (hold hd hdg) (hold he heg) hdg heg
    crewed := by
      intro g fl' hg hopen'
      rcases flight_publish hg with ⟨-, rfl⟩ | ⟨hne, hg⟩
      · cases hopen'
      · obtain ⟨i, d, hd, howns⟩ := h.crewed hg hopen'
        have hi : i ≠ id := by
          rintro rfl
          cases hc.symm.trans hd
          rw [hphase] at howns
          exact hne howns.symm
        exact ⟨i, d, (Cache.call_move_other hi _).trans hd, howns⟩
    stocked := by
      intro item hitem
      rcases mem_store hitem with hitem | ⟨v, key, refreshStatic, rfl, hvalid, hroom, hstored, rfl⟩
      · obtain ⟨fl', hfl'⟩ := h.stocked hitem
        refine hfl'.keep (fun hg => ?_) fun t m hm _ => hm
        obtain ⟨fl'', hfl'', hlater, -⟩ := hkept hg
        exact ⟨fl'', hfl'', hlater⟩
      · exact ⟨_, hdone, rfl, rfl, ⟨refreshStatic, hstored, rfl⟩, hvalue v rfl,
          hcurrent hvalid hroom v key refreshStatic rfl hstored⟩ }

/-! ## Whole runs -/

/-- The entry that is found is one the target covers, and current. -/
theorem lookup_some {t : Target} {at_ : Int} {entry : Entry} (h : s.lookup t at_ = some entry) :
    ∃ key, (key, entry) ∈ s.entries ∧
      Cache.covers t key entry.credentials.cachePrefix = true ∧ reusable entry at_ = true := by
  cases t with
  | native kind scope =>
      simp only [Cache.lookup, Option.filter_eq_some_iff, Option.map_eq_some_iff] at h
      obtain ⟨⟨item, hfind, rfl⟩, hreusable⟩ := h
      have hkey := List.find?_some hfind
      exact ⟨item.1, List.mem_of_find?_eq_some hfind, by simpa [Cache.covers] using hkey, hreusable⟩
  | custom kind path =>
      obtain ⟨⟨key, hmem, hcurrent⟩, -⟩ := Cache.findReusable_some h
      simp only [Cache.current, Bool.and_eq_true] at hcurrent
      exact ⟨key, hmem, by simp [Cache.covers, hcurrent.1.1, hcurrent.1.2], hcurrent.2⟩

/-- A load that is taken for a success has not expired. -/
theorem settle_unexpired {t : Target} {ended : LoadEnd} {at_ : Int} {v : ProviderCredentials}
    (h : Cache.settle t ended at_ = .ok v) : Unexpired v at_ := by
  simp only [Cache.settle] at h
  split at h
  · cases h
  · split at h
    · split at h
      · cases h
      · cases h
    · rename_i hexpired
      cases h
      rw [not_and] at hexpired
      by_cases hzero : v.expiresAt = 0
      · exact .inl hzero
      · exact .inr (by have := hexpired hzero; omega)

/-- A publication is timely: what it stores is nothing that an invalidation in scope of some other
target, since the flight began, would have removed. -/
def Timely (scope : Target → Prop) (s : Cache) : Event → Prop
  | .publish id room =>
      ∀ c f v at_ fl key refreshStatic, room = true → s.call id = some c →
        c.phase = .loaded f (.ok v) at_ → s.flight f = some fl → fl.invalidated = false →
        Cache.storedUnder fl.target v = some (key, refreshStatic) →
        ∀ t m, (t, m) ∈ s.invalidations → scope t → t ≠ fl.target → fl.begun ≤ m →
          Cache.covers t key v.cachePrefix = false
  | _ => True

/-- A listed flight is newer than every invalidation of its target; `Timely` is about the rest. -/
theorem Inv.current (h : Inv scope n s) {id f : Nat} {c : Call} {fl : Flight} {r : LoadResult}
    {at_ : Int} {room : Bool} (htimely : Timely scope s (.publish id room))
    (hc : s.call id = some c) (hphase : c.phase = .loaded f r at_) (hfl : s.flight f = some fl)
    (hvalid : fl.invalidated = false) (hroom : room = true) :
    Current scope s.invalidations fl r := by
  have hopen : fl.done = false := by
    have hstand := h.standing hc
    rw [hphase] at hstand
    cases hstand with
    | loaded hfl' hopen =>
        cases hfl.symm.trans hfl'
        exact hopen
  intro v key refreshStatic hv hstored t m hm hscope hcovers
  by_cases ht : t = fl.target
  · exact h.since hfl hopen hvalid m (ht ▸ hm)
  · refine Nat.lt_of_not_le fun hle => ?_
    have hnot := htimely c f v at_ fl key refreshStatic hroom hc (hv ▸ hphase) hfl hvalid hstored t m
      hm hscope ht hle
    rw [hcovers] at hnot
    cases hnot

theorem Inv.stepped (h : Inv scope s.events s) {e : Event} {s₁ : Cache} (hs : Cache.Stepped s e s₁)
    (htimely : Timely scope s e) : Inv scope (s.events + 1) s₁ := by
  cases hs with
  | tick later => exact { h.later with }
  | call target => exact h.call target rfl
  | @cached id c entry hc hchecked hlookup =>
      obtain ⟨key, hmem, hcovers, hreusable⟩ := lookup_some hlookup
      obtain ⟨fl, hfl⟩ := h.stocked hmem
      have hstanding : Standing scope s.flight s.invalidations c
          (.returned (.ok entry.credentials) (.cached entry)) :=
        .cached hfl.flight hfl.done hfl.result hreusable
          fun hscope m hm _ => hfl.since c.target m hm hscope hcovers
      exact h.later.move hc (fun f => by rw [hchecked]; rfl) hstanding
  | @joins id f c hc hchecked _ hlisted =>
      obtain ⟨fl, hfl, hkey, hopen, hvalid⟩ := h.listing.listed hlisted
      have htarget : fl.target = c.target := Target.key_inj hkey
      have hstanding : Standing scope s.flight s.invalidations c (.waiting f) :=
        .waiting hfl htarget fun m hm _ => h.since hfl hopen hvalid m (htarget ▸ hm)
      exact h.later.move hc (fun f => by rw [hchecked]; rfl) hstanding
  | takesOff hc hchecked _ hfree => exact h.takeOff rfl hc hchecked hfree
  | @loads id f c ended hc hloading =>
      have hstand := h.standing hc
      rw [hloading] at hstand
      cases hstand with
      | loading hfl hopen htarget hbegun =>
          refine h.later.move hc (fun g => by rw [hloading]; rfl) ?_
          exact .loaded hfl hopen htarget hbegun fun v hv => settle_unexpired hv
  | @publishes id f c fl result loadedAt room hc hphase hfl =>
      exact h.publish hc hphase hfl fun hvalid hroom =>
        h.current htimely hc hphase hfl hvalid hroom
  | @wakes id f c fl r hc hwaiting hfl hdone hresult =>
      have hstand := h.standing hc
      rw [hwaiting] at hstand
      cases hstand with
      | waiting hfl' htarget hsince =>
          cases hfl.symm.trans hfl'
          refine h.later.move hc (fun g => by rw [hwaiting]; rfl) ?_
          exact .joined hfl hdone hresult htarget hsince
  | invalidates target => exact h.invalidate rfl target

theorem inv_start (scope : Target → Prop) (now : Int) :
    Inv scope (system now).start.events (system now).start where
  listing := ⟨fun h => (by cases h), fun h => (by cases h), fun h => (by cases h),
    fun h => (by cases h)⟩
  begun := fun h => by cases h
  since := fun h => by cases h
  started := fun h => by cases h
  logged := fun h => by cases h
  standing := fun h => by cases h
  alone := fun h => by cases h
  crewed := fun h => by cases h
  stocked := fun h => by cases h

/-- The invariant holds in every run with timely publications. -/
theorem reachable_inv {allowed : Cache → Event → Prop} {now : Int}
    (htimely : ∀ s e, allowed s e → Timely scope s e)
    (h : (system now).Reachable allowed s) : Inv scope s.events s := by
  refine h.invariant (I := fun s => Inv scope s.events s) (inv_start scope now) ?_
  intro s s' e _ hinv hallowed hstep
  obtain ⟨s₁, hs₁, rfl⟩ := Cache.step_stepped hstep
  exact { hinv.stepped hs₁ (htimely s e hallowed) with }

end Steps

end CredentialCache

end Karu
