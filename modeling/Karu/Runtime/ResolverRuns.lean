/-
# `Karu.Runtime.ResolverRuns` — what every run of the host resolver keeps

A host is marked as looking from the moment its lookup is queued until it is
answered, so the marked hosts are the queued and running ones (`Paired`), and a
marked host stays in the table.

What is returned is read off the log.  Behind a list stands the last answer for
its host, which has addresses and has not expired; the lists since that answer
are its rotations one after the other (`Turns`).  Behind a wait stands a lookup
that was queued less than 300 ms ago and has not been answered.
-/
import Karu.Runtime.Resolver

namespace Karu

open Base

namespace HostResolver

/-! ## Reading the log -/

/-- The last answer for a host, and its time. -/
def lastAnswer (host : Text) : List Note → Option (List Text × Int)
  | [] => none
  | .answered h addresses at_ :: rest =>
      if h = host then some (addresses, at_) else lastAnswer host rest
  | _ :: rest => lastAnswer host rest

/-- The lists for a host since its last answer, the latest first. -/
def listsSince (host : Text) : List Note → List (List Text)
  | [] => []
  | .answered h _ _ :: rest => if h = host then [] else listsSince host rest
  | .returned h _ _ (.list addresses) :: rest =>
      if h = host then addresses :: listsSince host rest else listsSince host rest
  | _ :: rest => listsSince host rest

/-- When the lookup of a host was queued that has not been answered yet. -/
def outstanding (host : Text) : List Note → Option Int
  | [] => none
  | .started h at_ :: rest => if h = host then some at_ else outstanding host rest
  | .answered h _ _ :: rest => if h = host then none else outstanding host rest
  | _ :: rest => outstanding host rest

/-- The lists begin with one address after the other, from the `k`-th on. -/
def Turns (addresses : List Text) (k : Nat) (lists : List (List Text)) : Prop :=
  lists.reverse = (List.range lists.length).map fun j => addresses.rotate (k + j)

theorem Turns.nil (addresses : List Text) (k : Nat) : Turns addresses k [] := rfl

theorem Turns.cons {addresses : List Text} {k : Nat} {lists : List (List Text)}
    (h : Turns addresses k lists) :
    Turns addresses k (addresses.rotate (k + lists.length) :: lists) := by
  unfold Turns at h ⊢
  rw [List.reverse_cons, h, List.length_cons, List.range_succ, List.map_append]
  rfl

/-- What a note says about what came before it. -/
def Justified (older : List Note) : Note → Prop
  | .returned host _ now outcome =>
      (.stopped ∈ older → outcome = .nothing) ∧
        (outcome = .waiting →
          ∃ at_, outstanding host older = some at_ ∧ now - at_ < waitForFirstAnswer) ∧
        ∀ list, outcome = .list list → ∃ addresses at_,
          lastAnswer host older = some (addresses, at_) ∧ addresses ≠ [] ∧
            now < at_ + keepAnswer ∧ ∃ k, list = addresses.rotate k
  | _ => True

/-! ## The table and the lookups -/

/-- The host is marked. -/
def Looks (hosts : Table Text Host) (host : Text) : Prop :=
  ∃ state, hosts.find host = some state ∧ state.looking = true

/-- One lookup for a marked host, and none for another. -/
structure Paired (hosts : Table Text Host) (lookups : List Text) : Prop where
  once : lookups.Nodup
  marked : ∀ host, host ∈ lookups ↔ Looks hosts host

section Paired

variable {hosts hosts' : Table Text Host} {lookups : List Text} {host : Text}

theorem Paired.congr (h : Paired hosts lookups) (hsame : ∀ k, Looks hosts' k ↔ Looks hosts k) :
    Paired hosts' lookups :=
  ⟨h.once, fun k => (h.marked k).trans (hsame k).symm⟩

theorem looks_assign (hosts : Table Text Host) (host k : Text) (state : Host) :
    Looks (hosts.assign host state) k ↔
      if k = host then state.looking = true else Looks hosts k := by
  unfold Looks
  rw [Table.find_assign]
  split <;> simp

theorem Paired.push (h : Paired hosts lookups) (hnot : ¬ Looks hosts host) {state : Host}
    (hstate : state.looking = true) : Paired (hosts.assign host state) (lookups ++ [host]) where
  once := by
    refine List.nodup_append.mpr ⟨h.once, List.nodup_singleton _, ?_⟩
    rintro a ha _ hb rfl
    rw [List.mem_singleton.mp hb] at ha
    exact hnot ((h.marked host).mp ha)
  marked := by
    intro k
    rw [looks_assign, List.mem_append, List.mem_singleton, h.marked]
    by_cases hk : k = host
    · simp [hk, hstate]
    · simp [hk]

theorem Paired.answer (h : Paired hosts (host :: lookups)) {state : Host}
    (hstate : state.looking = false) : Paired (hosts.assign host state) lookups where
  once := (List.nodup_cons.mp h.once).2
  marked := by
    intro k
    rw [looks_assign]
    by_cases hk : k = host
    · subst hk
      simp [hstate, (List.nodup_cons.mp h.once).1]
    · rw [if_neg hk, ← h.marked, List.mem_cons]
      simp [hk]

end Paired

/-- What becomes of the table when a host is looked for in it. -/
structure Admitted (hosts : Table Text Host) (host : Text) (found : Option Host)
    (hosts' : Table Text Host) : Prop where
  size_le : hosts'.size ≤ maxHosts
  found_eq : hosts'.find host = found
  known : ∀ state, found = some state → hosts.find host = some state ∨
    hosts.find host = none ∧ state = {}
  others : ∀ k state, k ≠ host → hosts'.find k = some state → hosts.find k = some state
  marked : ∀ k state, hosts.find k = some state → state.looking = true →
    hosts'.find k = some state

section Admit

variable {hosts : Table Text Host} {host : Text}

/-- A host that is not there yet. -/
theorem Admitted.fresh (hnew : hosts.find host = none) (hroom : hosts.size < maxHosts) :
    Admitted hosts host (some {}) (hosts.assign host {}) where
  size_le := (Table.size_assign_le _ _ _).trans hroom
  found_eq := by rw [Table.find_assign, if_pos rfl]
  known := by
    intro state hstate
    cases hstate
    exact .inr ⟨hnew, rfl⟩
  others := by
    intro k state hk h
    rwa [Table.find_assign, if_neg hk] at h
  marked := by
    intro k state h _
    have hk : k ≠ host := by
      rintro rfl
      cases hnew.symm.trans h
    rwa [Table.find_assign, if_neg hk]

/-- What is kept of a full table: all that is marked. -/
theorem find_kept {now : Int} {k : Text} {state : Host}
    (h : (hosts.keep fun _ state => state.looking || now < state.expires).find k = some state) :
    hosts.find k = some state := by
  rw [Table.find_keep, Option.filter_eq_some_iff] at h
  exact h.1

theorem find_kept_of_looking {now : Int} {k : Text} {state : Host}
    (h : hosts.find k = some state) (hlooking : state.looking = true) :
    (hosts.keep fun _ state => state.looking || now < state.expires).find k = some state := by
  rw [Table.find_keep, Option.filter_eq_some_iff]
  exact ⟨h, by rw [hlooking]; rfl⟩

theorem find_kept_none {now : Int} (h : hosts.find host = none) :
    (hosts.keep fun _ state => state.looking || now < state.expires).find host = none := by
  rw [Table.find_keep, h]
  rfl

theorem admit_spec (hsize : hosts.size ≤ maxHosts) (host : Text) (now : Int) :
    Admitted hosts host (admitHost hosts host now).1 (admitHost hosts host now).2 := by
  unfold admitHost
  split
  · rename_i state hfound
    exact ⟨hsize, hfound, fun _ h => .inl (h ▸ hfound), fun _ _ _ h => h, fun _ _ h _ => h⟩
  · rename_i hnew
    split
    · dsimp only
      have hnew' := @find_kept_none hosts host now hnew
      split
      · exact ⟨(Table.size_keep_le _ _).trans hsize, hnew', fun _ h => (by cases h),
          fun _ _ _ h => find_kept h, fun _ _ h hl => find_kept_of_looking h hl⟩
      · rename_i hroom
        -- the expired hosts have made room
        obtain ⟨hsize', hfound, -, hothers, hmarked⟩ :=
          Admitted.fresh hnew' (Nat.lt_of_not_le hroom)
        refine ⟨hsize', hfound, ?_, ?_, ?_⟩
        · intro state hstate
          cases hstate
          exact .inr ⟨hnew, rfl⟩
        · intro k state hk h
          exact find_kept (hothers k state hk h)
        · intro k state h hlooking
          exact hmarked k state (find_kept_of_looking h hlooking) hlooking
    · rename_i hroom
      exact Admitted.fresh hnew (Nat.lt_of_not_le hroom)

theorem Admitted.looks {found : Option Host} {hosts' : Table Text Host}
    (h : Admitted hosts host found hosts') (k : Text) : Looks hosts' k ↔ Looks hosts k := by
  constructor
  · rintro ⟨state, hstate, hlooking⟩
    by_cases hk : k = host
    · subst hk
      rcases h.known state (h.found_eq.symm.trans hstate) with hold | ⟨-, rfl⟩
      · exact ⟨state, hold, hlooking⟩
      · cases hlooking
    · exact ⟨state, h.others k state hk hstate, hlooking⟩
  · rintro ⟨state, hstate, hlooking⟩
    exact ⟨state, h.marked k state hstate hlooking, hlooking⟩

end Admit

/-! ## What is returned -/

theorem rotated_eq {addresses : List Text} (hne : addresses ≠ []) (n : Nat) :
    rotated addresses (n % addresses.length) = addresses.rotate n := by
  have hpos : 0 < addresses.length := List.length_pos_iff.mpr hne
  refine List.ext_getElem (by simp [rotated]) ?_
  intro i h₁ h₂
  have hi : i < addresses.length := by simpa [rotated] using h₁
  rw [List.getElem_rotate]
  simp only [rotated, List.getElem_map, List.getElem_range, List.getD_eq_getElem?_getD]
  rw [show (n % addresses.length + i) % addresses.length = (i + n) % addresses.length by
    rw [Nat.mod_add_mod, Nat.add_comm]]
  rw [List.getElem?_eq_getElem (Nat.mod_lt _ hpos), Option.getD_some]

/-- What an offer does to a host and what it returns. -/
structure Offered (state : Host) (now : Int) (state' : Host) (outcome : Outcome) : Prop where
  same : state'.addresses = state.addresses ∧ state'.expires = state.expires ∧
    state'.started = state.started ∧ state'.answered = state.answered ∧
    state'.looking = state.looking
  list : ∀ l, outcome = .list l → state.addresses ≠ [] ∧ now < state.expires ∧
    l = state.addresses.rotate state.next ∧ state'.next = add64 state.next 1
  other : (∀ l, outcome ≠ .list l) → state'.next = state.next
  waiting : outcome = .waiting → state.looking = true ∧ now - state.started < waitForFirstAnswer

theorem Host.turn_offered {state : Host} {now : Int} (hne : state.addresses ≠ [])
    (hnow : now < state.expires) (transfers : Nat) :
    Offered state now ({ state with transfers } : Host).turn.1
      ({ state with transfers } : Host).turn.2 where
  same := ⟨rfl, rfl, rfl, rfl, rfl⟩
  list := by
    intro l hl
    cases hl
    exact ⟨hne, hnow, rotated_eq hne _, rfl⟩
  other := by
    intro h
    exact absurd rfl (h _)
  waiting := by
    intro h
    cases h

theorem Host.offer_offered (state : Host) (now : Int) :
    Offered state now (state.offer now).1 (state.offer now).2 := by
  unfold Host.offer
  split
  · rename_i h
    have hne : state.addresses ≠ [] := by simpa using h.1
    split
    · dsimp only
      split
      · exact ⟨⟨rfl, rfl, rfl, rfl, rfl⟩, fun _ h => (by cases h), fun _ => rfl,
          fun h => (by cases h)⟩
      · exact Host.turn_offered hne h.2 _
    · exact Host.turn_offered hne h.2 state.transfers
  · split
    · rename_i h
      exact ⟨⟨rfl, rfl, rfl, rfl, rfl⟩, fun _ h => (by cases h), fun _ => rfl, fun _ => h⟩
    · exact ⟨⟨rfl, rfl, rfl, rfl, rfl⟩, fun _ h => (by cases h), fun _ => rfl,
        fun h => (by cases h)⟩

/-! ## The invariant -/

/-- What the log says about a host of the table, after `calls` calls. -/
structure Known (log : List Note) (calls : Nat) (host : Text) (state : Host) : Prop where
  answer : state.addresses ≠ [] → lastAnswer host log = some (state.addresses, state.answered) ∧
    state.expires = state.answered + keepAnswer
  pending : state.looking = true → outstanding host log = some state.started
  next_le : calls < 2 ^ 64 → state.next ≤ calls
  turns : calls < 2 ^ 64 → state.addresses ≠ [] →
    ∃ k, k + (listsSince host log).length = state.next ∧ Turns state.addresses k (listsSince host log)

/-- A new host is known by nothing. -/
theorem Known.fresh (log : List Note) (calls : Nat) (host : Text) : Known log calls host {} :=
  ⟨fun h => (h rfl).elim, fun h => (by cases h), fun _ => Nat.zero_le _, fun _ h => (h rfl).elim⟩

/-- The same log as far as the host is concerned, and more calls. -/
theorem Known.keep {log log' : List Note} {calls calls' : Nat} {host : Text} {state : Host}
    (h : Known log calls host state) (hcalls : calls ≤ calls')
    (hanswer : lastAnswer host log' = lastAnswer host log)
    (hpending : outstanding host log' = outstanding host log)
    (hlists : listsSince host log' = listsSince host log) : Known log' calls' host state where
  answer := by rw [hanswer]; exact h.answer
  pending := by rw [hpending]; exact h.pending
  next_le := fun hlt => (h.next_le (by omega)).trans hcalls
  turns := by
    intro hlt
    rw [hlists]
    exact h.turns (by omega)

/-- The invariant. -/
structure Inv (s : Shared) : Prop where
  size_le : s.hosts.size ≤ maxHosts
  paired : s.stopped = false → Paired s.hosts (s.running.toList ++ s.queue)
  known : ∀ host state, s.hosts.find host = some state → Known s.log s.calls host state
  justified : ∀ newer note older, s.log = newer ++ note :: older → Justified older note
  turns : s.calls < 2 ^ 64 → ∀ host addresses at_, lastAnswer host s.log = some (addresses, at_) →
    ∃ k, Turns addresses k (listsSince host s.log)
  stopped_iff : .stopped ∈ s.log ↔ s.stopped = true

/-- A note that is justified by the log before it. -/
theorem justified_cons {log : List Note} {note : Note}
    (h : ∀ newer n older, log = newer ++ n :: older → Justified older n)
    (hnote : Justified log note) :
    ∀ newer n older, note :: log = newer ++ n :: older → Justified older n := by
  intro newer n older heq
  cases newer with
  | nil =>
      cases heq
      exact hnote
  | cons m newer =>
      exact h newer n older (List.cons.inj heq).2

theorem inv_start (enabled : Bool) (clock : Int) : Inv (system enabled clock).start where
  size_le := Nat.zero_le _
  paired := fun _ => ⟨List.nodup_nil, fun host => ⟨fun h => (by cases h),
    fun ⟨_, h, _⟩ => (by cases h)⟩⟩
  known := fun _ _ h => by cases h
  justified := by
    intro newer note older h
    simp [system] at h
  turns := fun _ _ _ _ h => by cases h
  stopped_iff := by simp [system]

section Steps

variable {s : Shared}

theorem Inv.tick (h : Inv s) (later : Nat) : Inv { s with clock := s.clock + later } := { h with }

theorem Inv.stop (h : Inv s) : Inv s.stop where
  size_le := h.size_le
  paired := fun hstopped => by cases hstopped
  known := fun host state hstate => (h.known host state hstate).keep (Nat.le_refl _) rfl rfl rfl
  justified := justified_cons h.justified trivial
  turns := h.turns
  stopped_iff := by simp [Shared.stop]

theorem Inv.pop (h : Inv s) {s' : Shared} (hs : s.pop = some s') : Inv s' := by
  unfold Shared.pop at hs
  split at hs
  · rename_i host queue hqueue hrunning
    split at hs
    · cases hs
    · cases hs
      refine { h with paired := ?_ }
      intro hstopped
      have hpaired := h.paired hstopped
      rw [hqueue, hrunning] at hpaired
      exact hpaired
  · cases hs

/-- The answer for a host that the table has. -/
theorem Inv.answered (h : Inv s) {host : Text} {state : Host} (hrunning : s.running = some host)
    (hstate : s.hosts.find host = some state) (hstopped : s.stopped = false)
    (addresses : List Text) :
    Inv { s with
      running := none
      hosts := s.hosts.assign host { state with
        looking := false, addresses, answered := s.clock
        expires := s.clock + keepAnswer, transfers := 0 }
      log := .answered host addresses s.clock :: s.log } where
  size_le := (Table.size_assign_of_find hstate _).trans h.size_le
  paired := by
    intro _
    have hpaired := h.paired hstopped
    rw [hrunning] at hpaired
    exact hpaired.answer rfl
  known := by
    intro k st hst
    dsimp only at hst ⊢
    rw [Table.find_assign] at hst
    by_cases hk : k = host
    · subst hk
      rw [if_pos rfl] at hst
      cases hst
      refine ⟨fun _ => ⟨by simp [lastAnswer], rfl⟩, fun hl => (by cases hl),
        (h.known k state hstate).next_le, ?_⟩
      intro _ _
      refine ⟨state.next, ?_, ?_⟩
      · simp [listsSince]
      · simp [listsSince, Turns.nil]
    · rw [if_neg hk] at hst
      have hk' : host ≠ k := fun heq => hk heq.symm
      exact (h.known k st hst).keep (Nat.le_refl _) (by simp [lastAnswer, hk'])
        (by simp [outstanding, hk']) (by simp [listsSince, hk'])
  justified := justified_cons h.justified trivial
  turns := by
    intro hcalls k addresses' at_ hanswer
    dsimp only at hcalls hanswer ⊢
    by_cases hk : host = k
    · rw [listsSince, if_pos hk]
      exact ⟨0, Turns.nil _ _⟩
    · rw [lastAnswer, if_neg hk] at hanswer
      rw [listsSince, if_neg hk]
      exact h.turns hcalls k addresses' at_ hanswer
  stopped_iff := by simpa using h.stopped_iff

theorem Inv.answer (h : Inv s) {found : Option (List Text)} {s' : Shared}
    (hs : s.answer found = some s') : Inv s' := by
  unfold Shared.answer at hs
  split at hs
  · cases hs
  · rename_i host hrunning
    split at hs
    · rename_i hstopped
      cases hs
      refine { h with paired := ?_ }
      intro hnot
      cases hstopped.symm.trans hnot
    · rename_i hstopped
      have hstopped' : s.stopped = false := Bool.eq_false_iff.mpr hstopped
      split at hs
      · -- a host that is being looked up is in the table
        rename_i hnone
        have hpaired := h.paired hstopped'
        rw [hrunning] at hpaired
        obtain ⟨state, hstate, -⟩ := (hpaired.marked host).mp List.mem_cons_self
        cases hnone.symm.trans hstate
      · rename_i state hstate
        cases hs
        exact h.answered hrunning hstate hstopped' _

/-- A host has been looked for in the table. -/
theorem Inv.admitted (h : Inv s) {host : Text} {found : Option Host} {hosts : Table Text Host}
    (hadmitted : Admitted s.hosts host found hosts) : Inv { s with hosts } where
  size_le := hadmitted.size_le
  paired := fun hstopped => (h.paired hstopped).congr hadmitted.looks
  known := by
    intro k state hstate
    by_cases hk : k = host
    · subst hk
      rcases hadmitted.known state (hadmitted.found_eq.symm.trans hstate) with hold | ⟨-, rfl⟩
      · exact h.known k state hold
      · exact Known.fresh _ _ _
    · exact h.known k state (hadmitted.others k state hk hstate)
  justified := h.justified
  turns := h.turns
  stopped_iff := h.stopped_iff

/-- A lookup is queued. -/
theorem Inv.queued (h : Inv s) {host : Text} {state : Host} (now : Int)
    (hstate : s.hosts.find host = some state) (hlooking : state.looking = false) :
    Inv { s with
      serving := true, queue := s.queue ++ [host]
      hosts := s.hosts.assign host { state with looking := true, started := now }
      log := .started host now :: s.log } where
  size_le := (Table.size_assign_of_find hstate _).trans h.size_le
  paired := by
    intro hstopped
    have hnot : ¬ Looks s.hosts host := by
      rintro ⟨state', hstate', hlooking'⟩
      cases hstate.symm.trans hstate'
      cases hlooking.symm.trans hlooking'
    rw [← List.append_assoc]
    exact (h.paired hstopped).push hnot rfl
  known := by
    intro k st hst
    dsimp only at hst ⊢
    rw [Table.find_assign] at hst
    by_cases hk : k = host
    · subst hk
      rw [if_pos rfl] at hst
      cases hst
      obtain ⟨hanswer, -, hnext, hturns⟩ := h.known k state hstate
      exact ⟨hanswer, fun _ => by simp [outstanding], hnext, hturns⟩
    · rw [if_neg hk] at hst
      have hk' : host ≠ k := fun heq => hk heq.symm
      exact (h.known k st hst).keep (Nat.le_refl _) rfl (by simp [outstanding, hk']) rfl
  justified := justified_cons h.justified trivial
  turns := h.turns
  stopped_iff := by simpa using h.stopped_iff

theorem listsSince_other {outcome : Outcome} (h : ∀ l, outcome ≠ .list l) (host k port : Text)
    (now : Int) (log : List Note) :
    listsSince k (.returned host port now outcome :: log) = listsSince k log := by
  cases outcome with
  | list l => exact absurd rfl (h l)
  | _ => rfl

theorem listsSince_ne {host k : Text} (h : host ≠ k) (port : Text) (now : Int) (outcome : Outcome)
    (log : List Note) :
    listsSince k (.returned host port now outcome :: log) = listsSince k log := by
  cases outcome with
  | list l => rw [listsSince, if_neg h]
  | _ => rfl

/-- A call returns, and no list. -/
theorem Inv.returned (h : Inv s) {host port : Text} {now : Int} {outcome : Outcome}
    (hlist : ∀ l, outcome ≠ .list l) (hjustified : Justified s.log (.returned host port now outcome)) :
    Inv { s with log := .returned host port now outcome :: s.log, calls := s.calls + 1 } where
  size_le := h.size_le
  paired := h.paired
  known := fun k state hstate => (h.known k state hstate).keep (Nat.le_succ _) rfl rfl
    (listsSince_other hlist _ _ _ _ _)
  justified := justified_cons h.justified hjustified
  turns := by
    intro hcalls k addresses at_ hanswer
    dsimp only at hcalls ⊢
    rw [listsSince_other hlist]
    exact h.turns (by omega) k addresses at_ hanswer
  stopped_iff := by simpa using h.stopped_iff

/-- What a host offers is justified by what is known about it. -/
theorem Known.justified {log : List Note} {calls : Nat} {host port : Text} {state state' : Host}
    {now : Int} {outcome : Outcome} (h : Known log calls host state)
    (hoffered : Offered state now state' outcome) (hstopped : Note.stopped ∉ log) :
    Justified log (.returned host port now outcome) := by
  refine ⟨fun hmem => (hstopped hmem).elim, ?_, ?_⟩
  · intro hwaiting
    obtain ⟨hlooking, hnow⟩ := hoffered.waiting hwaiting
    exact ⟨_, h.pending hlooking, hnow⟩
  · intro list hlist
    obtain ⟨hne, hnow, hrotate, -⟩ := hoffered.list list hlist
    obtain ⟨hanswer, hexpires⟩ := h.answer hne
    exact ⟨_, _, hanswer, hne, hexpires ▸ hnow, _, hrotate⟩

/-- The lists since the last answer, with one that a host has offered. -/
theorem Known.offered {log : List Note} {calls : Nat} {host port : Text} {state state' : Host}
    {now : Int} {outcome : Outcome} (h : Known log calls host state)
    (hoffered : Offered state now state' outcome) :
    Known (.returned host port now outcome :: log) (calls + 1) host state' := by
  obtain ⟨haddresses, hexpires, hstarted, hanswered, hlooking⟩ := hoffered.same
  refine ⟨?_, ?_, ?_, ?_⟩
  · rw [haddresses, hexpires, hanswered]
    exact h.answer
  · rw [hlooking, hstarted]
    exact h.pending
  · intro hcalls
    have hnext := h.next_le (by omega)
    cases outcome with
    | list l =>
        obtain ⟨-, -, -, heq⟩ := hoffered.list l rfl
        rw [heq, add64_of_lt (by omega)]
        omega
    | _ =>
        rw [hoffered.other (by simp)]
        omega
  · intro hcalls hne
    rw [haddresses] at hne ⊢
    obtain ⟨k, hk, hturns⟩ := h.turns (by omega) hne
    have hnext := h.next_le (by omega)
    refine ⟨k, ?_⟩
    cases outcome with
    | list l =>
        obtain ⟨-, -, hrotate, heq⟩ := hoffered.list l rfl
        rw [listsSince, if_pos rfl, heq, add64_of_lt (by omega), List.length_cons, hrotate, ← hk]
        exact ⟨by omega, hturns.cons⟩
    | _ =>
        rw [hoffered.other (by simp)]
        exact ⟨hk, hturns⟩

/-- A call returns what its host offers. -/
theorem Inv.offered (h : Inv s) {host : Text} (port : Text) {state state' : Host} {now : Int}
    {outcome : Outcome} (hstate : s.hosts.find host = some state) (hstopped : s.stopped = false)
    (hoffered : Offered state now state' outcome) :
    Inv { s with
      hosts := s.hosts.assign host state'
      log := .returned host port now outcome :: s.log, calls := s.calls + 1 } where
  size_le := (Table.size_assign_of_find hstate _).trans h.size_le
  paired := by
    intro _
    refine (h.paired hstopped).congr fun k => ?_
    rw [looks_assign]
    by_cases hk : k = host
    · subst hk
      rw [if_pos rfl, hoffered.same.2.2.2.2]
      exact ⟨fun hlooking => ⟨state, hstate, hlooking⟩,
        fun ⟨_, hst, hlooking⟩ => (Option.some.inj (hstate.symm.trans hst)) ▸ hlooking⟩
    · rw [if_neg hk]
  known := by
    intro k st hst
    dsimp only at hst ⊢
    rw [Table.find_assign] at hst
    by_cases hk : k = host
    · subst hk
      rw [if_pos rfl] at hst
      cases hst
      exact (h.known k state hstate).offered hoffered
    · rw [if_neg hk] at hst
      exact (h.known k st hst).keep (Nat.le_succ _) rfl rfl
        (listsSince_ne (fun heq => hk heq.symm) _ _ _ _)
  justified := by
    refine justified_cons h.justified ((h.known host state hstate).justified hoffered ?_)
    rw [h.stopped_iff, hstopped]
    exact Bool.false_ne_true
  turns := by
    intro hcalls k addresses at_ hanswer
    dsimp only at hcalls hanswer ⊢
    by_cases hk : host = k
    · subst hk
      -- the lists are those of the answer that the table has
      by_cases hlist : ∃ l, outcome = .list l
      · obtain ⟨l, hl⟩ := hlist
        have hknown := @Known.offered _ _ host port _ _ _ _ (h.known host state hstate) hoffered
        obtain ⟨hne, -⟩ := hoffered.list l hl
        have hsame := hoffered.same.1
        obtain ⟨k, -, hturns⟩ := hknown.turns hcalls (hsame ▸ hne)
        have heq := (hknown.answer (hsame ▸ hne)).1.symm.trans hanswer
        obtain ⟨rfl, -⟩ := Prod.mk.inj (Option.some.inj heq)
        exact ⟨k, hturns⟩
      · rw [listsSince_other (fun l hl => hlist ⟨l, hl⟩)]
        exact h.turns (by omega) host addresses at_ hanswer
    · rw [listsSince_ne hk]
      exact h.turns (by omega) k addresses at_ hanswer
  stopped_iff := by simpa using h.stopped_iff

/-- A call of `entry` on a host. -/
theorem Inv.enter (h : Inv s) (host port : Text) (now : Int) (starts : Bool) :
    Inv { (s.enter host now starts).1 with
      log := .returned host port now (s.enter host now starts).2 :: (s.enter host now starts).1.log
      calls := s.calls + 1 } := by
  unfold Shared.enter
  split
  · exact h.returned (by simp) ⟨fun _ => rfl, fun hw => (by cases hw), fun _ hl => (by cases hl)⟩
  · rename_i hopen
    have hstopped : s.stopped = false := Bool.eq_false_iff.mpr hopen
    have hmissing : Note.stopped ∉ s.log := by
      rw [h.stopped_iff, hstopped]
      exact Bool.false_ne_true
    have hadmitted := admit_spec h.size_le host now
    unfold Shared.prepare
    generalize admitHost s.hosts host now = admission at hadmitted ⊢
    obtain ⟨found, hosts⟩ := admission
    have hinv : Inv { s with hosts } := h.admitted hadmitted
    cases found with
    | none =>
        exact hinv.returned (by simp)
          ⟨fun hmem => (hmissing hmem).elim, fun hw => (by cases hw), fun _ hl => (by cases hl)⟩
    | some state =>
        have hstate : hosts.find host = some state := hadmitted.found_eq
        dsimp only
        by_cases hdue : !state.looking ∧ state.expires ≤ now
        · rw [if_pos hdue]
          by_cases hfails : !s.serving ∧ !starts
          · rw [if_pos hfails]
            exact { hinv.returned (by simp)
              ⟨fun _ => rfl, fun hw => (by cases hw), fun _ hl => (by cases hl)⟩ with }
          · rw [if_neg hfails]
            have hlooking : state.looking = false := by simpa using hdue.1
            have hqueued := hinv.queued now hstate hlooking
            have hoffered := hqueued.offered port (by rw [Table.find_assign, if_pos rfl]) hstopped
              (Host.offer_offered { state with looking := true, started := now } now)
            dsimp only at hoffered
            rwa [Table.assign_assign] at hoffered
        · rw [if_neg hdue]
          exact hinv.offered port hstate hstopped (Host.offer_offered state now)

theorem Inv.entry (h : Inv s) (url : Text) (enabled : Bool) (now : Int) (starts : Bool) :
    Inv { (s.entry url enabled now starts).1 with calls := s.calls + 1 } := by
  have hidle : Inv { s with calls := s.calls + 1 } :=
    { h with
      known := fun k state hstate => (h.known k state hstate).keep (Nat.le_succ _) rfl rfl rfl
      turns := fun hcalls => h.turns (Nat.lt_of_succ_lt hcalls) }
  unfold Shared.entry
  split
  · exact hidle
  · split
    · exact hidle
    · rename_i host port _
      exact h.enter host port now starts

theorem Inv.step (h : Inv s) {e : Event} {s' : Shared} (hs : s.step e = some s') : Inv s' := by
  cases e with
  | tick later =>
      cases hs
      exact h.tick later
  | entry url enabled now starts =>
      simp only [Shared.step] at hs
      split at hs
      · cases hs
      · cases hs
        exact h.entry url enabled now starts
  | pop => exact h.pop hs
  | answer found => exact h.answer hs
  | stop =>
      cases hs
      exact h.stop

end Steps

theorem reachable_inv {enabled : Bool} {clock : Int} {s : Shared}
    (h : (system enabled clock).Reachable System.Anything s) : Inv s :=
  h.invariant (inv_start enabled clock) fun _ hinv _ hs => hinv.step hs

/-! ## The resolver -/

/-- A host that is being looked up stays in the table. -/
theorem step_keeps {s s' : Shared} (h : Inv s) {e : Event} (hs : s.step e = some s') {host : Text}
    (hlooks : Looks s.hosts host) : (s'.hosts.find host).isSome = true := by
  obtain ⟨state, hstate, hlooking⟩ := hlooks
  have hassign : ∀ (hosts : Table Text Host) (k : Text) (st : Host),
      (hosts.find host).isSome = true → ((hosts.assign k st).find host).isSome = true := by
    intro hosts k st hsome
    rw [Table.find_assign]
    split
    · rfl
    · exact hsome
  have hsome : (s.hosts.find host).isSome = true := by rw [hstate]; rfl
  cases e with
  | tick later =>
      cases hs
      exact hsome
  | entry url enabled now starts =>
      simp only [Shared.step] at hs
      split at hs
      · cases hs
      · cases hs
        unfold Shared.entry
        split
        · exact hsome
        · split
          · exact hsome
          · rename_i k port _
            unfold Shared.enter
            dsimp only
            split
            · exact hsome
            · have hadmitted := admit_spec h.size_le k now
              unfold Shared.prepare
              generalize admitHost s.hosts k now = admission at hadmitted ⊢
              obtain ⟨found, hosts⟩ := admission
              have hkept : (hosts.find host).isSome = true := by
                rw [hadmitted.marked host state hstate hlooking]
                rfl
              cases found with
              | none => exact hkept
              | some st =>
                  dsimp only
                  split
                  · rename_i hout
                    split at hout
                    · split at hout
                      · cases hout
                        exact hkept
                      · cases hout
                    · cases hout
                  · rename_i hout
                    split at hout
                    · split at hout
                      · cases hout
                      · cases hout
                        exact hassign _ _ _ hkept
                    · cases hout
                      exact hassign _ _ _ hkept
  | pop =>
      simp only [Shared.step, Shared.pop] at hs
      split at hs
      · split at hs
        · cases hs
        · cases hs
          exact hsome
      · cases hs
  | answer found =>
      simp only [Shared.step, Shared.answer] at hs
      split at hs
      · cases hs
      · split at hs
        · cases hs
          exact hsome
        · split at hs
          · cases hs
            exact hsome
          · cases hs
            exact hassign _ _ _ hsome
  | stop =>
      cases hs
      exact hsome

/-- What holds of a resolver. -/
structure Sound (s : Shared) : Prop where
  /-- The table is small. -/
  few : s.hosts.size ≤ 256
  /-- Until `stop`, the lookups that are queued or running are one for each marked host. -/
  once : s.stopped = false → (s.running.toList ++ s.queue).Nodup
  marked : s.stopped = false →
    ∀ host, host ∈ s.running.toList ++ s.queue ↔ Looks s.hosts host
  /-- A marked host is not evicted. -/
  kept : ∀ {e s' host}, s.step e = some s' → Looks s.hosts host → (s'.hosts.find host).isSome = true
  /-- An entry is empty, or it is what the log says was returned. -/
  logged : ∀ url enabled now starts, (s.entry url enabled now starts).2 = {} ∨
    ∃ host port outcome log, resolvableHost url = some (host, port) ∧
      (s.entry url enabled now starts).1.log = .returned host port now outcome :: log ∧
      (s.entry url enabled now starts).2 = outcome.entry host port
  /-- A list is a rotation of the host's last answer, which has addresses and has not expired. -/
  listed : ∀ {newer host port now list older},
    s.log = newer ++ .returned host port now (.list list) :: older →
    ∃ addresses at_, lastAnswer host older = some (addresses, at_) ∧ addresses ≠ [] ∧
      now < at_ + keepAnswer ∧ ∃ k, list = addresses.rotate k
  /-- The lists since the last answer begin with one address after the other. -/
  turns : s.calls < 2 ^ 64 → ∀ {host addresses at_}, lastAnswer host s.log = some (addresses, at_) →
    ∃ k, Turns addresses k (listsSince host s.log)
  /-- A wait is for a lookup that was queued less than 300 ms ago and has not been answered. -/
  waited : ∀ {newer host port now older},
    s.log = newer ++ .returned host port now .waiting :: older →
    ∃ at_, outstanding host older = some at_ ∧ now - at_ < waitForFirstAnswer
  /-- After `stop` nobody is asked to wait. -/
  stopped : s.stopped = true → ∀ url enabled now starts,
    (s.entry url enabled now starts).2.waiting = false

theorem entry_logged (s : Shared) (url : Text) (enabled : Bool) (now : Int) (starts : Bool) :
    (s.entry url enabled now starts).2 = {} ∨
      ∃ host port outcome log, resolvableHost url = some (host, port) ∧
        (s.entry url enabled now starts).1.log = .returned host port now outcome :: log ∧
        (s.entry url enabled now starts).2 = outcome.entry host port := by
  unfold Shared.entry
  split
  · exact .inl rfl
  · split
    · exact .inl rfl
    · rename_i host port hhost
      exact .inr ⟨host, port, _, _, hhost, rfl, rfl⟩

theorem entry_stopped {s : Shared} (h : s.stopped = true) (url : Text) (enabled : Bool) (now : Int)
    (starts : Bool) : (s.entry url enabled now starts).2.waiting = false := by
  unfold Shared.entry
  split
  · rfl
  · split
    · rfl
    · rw [Shared.enter, if_pos h]
      rfl

/-- The invariants of the host resolver, in every run. -/
theorem resolver_sound {enabled : Bool} {clock : Int} {s : Shared}
    (h : (system enabled clock).Reachable System.Anything s) : Sound s := by
  have hinv := reachable_inv h
  refine ⟨hinv.size_le, fun hopen => (hinv.paired hopen).once,
    fun hopen => (hinv.paired hopen).marked, fun hs hlooks => step_keeps hinv hs hlooks,
    entry_logged s, ?_, fun hcalls {_ _ _} => hinv.turns hcalls _ _ _, ?_, entry_stopped⟩
  · intro newer host port now list older hlog
    exact (hinv.justified _ _ _ hlog).2.2 list rfl
  · intro newer host port now older hlog
    exact (hinv.justified _ _ _ hlog).2.1 rfl

/-- One lookup for two calls, two lists from its answer, and a stop. -/
theorem resolver_sound_rotating :
    ∃ s, (system true 0).run System.Anything (system true 0).start
        [.entry (text "https://a.test/x") true 0 true, .entry (text "http://A.test/y") true 0 true,
          .pop, .tick 5, .answer (some [text "192.0.2.1", text "192.0.2.2"]),
          .entry (text "https://a.test/x") true 4 true, .entry (text "https://a.test:81") true 5 true,
          .stop, .entry (text "https://b.test/") true 5 true] = some s ∧ Sound s := by
  have hsome : ((system true 0).run System.Anything (system true 0).start
      [.entry (text "https://a.test/x") true 0 true, .entry (text "http://A.test/y") true 0 true,
        .pop, .tick 5, .answer (some [text "192.0.2.1", text "192.0.2.2"]),
        .entry (text "https://a.test/x") true 4 true, .entry (text "https://a.test:81") true 5 true,
        .stop, .entry (text "https://b.test/") true 5 true]).isSome = true := by decide +kernel
  obtain ⟨s, hs⟩ := Option.isSome_iff_exists.mp hsome
  exact ⟨s, hs, resolver_sound (System.Reachable.start.run hs)⟩

end HostResolver

end Karu
