/-
# `Karu.Runtime.RetryBudget` — how many requests a transfer may send

Three things make karu send a request again.  A region correction and a credential
refresh happen once each and do not count; an ordinary retry counts as an attempt,
and one that ended unreachable counts a second time.  What has been used of that is
a `Spent`, and `Spends` is everything one more request may use.  The message loop of
`io_loop` and the loop of `get_range` both keep to it.

`requests` and `probeRequests` list the requests a transfer or a probe sends, with
how each ended and whether it was sent again as a correction.
-/
import Karu.Runtime.Exchange
import Karu.Runtime.Probe

namespace Karu

open Base

/-! ## The budget -/

/-- What has been used. -/
structure Spent where
  attempt : Nat := 0
  unreachable : Nat := 0
  region : Bool := false
  credentials : Bool := false
deriving DecidableEq

/-- How a request ended: without reaching a server, and to be sent again as a correction. -/
structure Ended where
  unreachable : Bool
  corrected : Bool := false
deriving DecidableEq

/-- What sending a request again may use. -/
inductive Spends (maxAttempts : Nat) : Ended → Spent → Spent → Prop
  | region {b : Spent} {u : Bool} : b.region = false →
      Spends maxAttempts ⟨u, true⟩ b { b with region := true }
  | credentials {b : Spent} {u : Bool} : b.credentials = false →
      Spends maxAttempts ⟨u, true⟩ b { b with credentials := true }
  | retry {b : Spent} {u : Bool} : b.attempt + 1 < maxAttempts → b.unreachable + u.toNat < 3 →
      Spends maxAttempts ⟨u, false⟩ b
        { b with attempt := b.attempt + 1, unreachable := b.unreachable + u.toNat }

/-- The corrections that are left. -/
def Spent.corrections (b : Spent) : Nat := (!b.region).toNat + (!b.credentials).toNat

/-- How often a request may still be sent again. -/
def Spent.left (maxAttempts : Nat) (b : Spent) : Nat := maxAttempts - 1 - b.attempt + b.corrections

/-- Requests each of which is sent again within the budget, up to one that is not. -/
inductive Spending (maxAttempts : Nat) : Spent → List Ended → Prop
  | none {b : Spent} : Spending maxAttempts b []
  | last {b : Spent} {u : Bool} : Spending maxAttempts b [⟨u, false⟩]
  | again {b b' : Spent} {e : Ended} {es : List Ended} : Spends maxAttempts e b b' →
      Spending maxAttempts b' es → Spending maxAttempts b (e :: es)

section Budget

variable {maxAttempts : Nat} {b b' : Spent} {e : Ended} {es : List Ended}

/-- No request is sent again without using some of the budget: the loops do not cycle. -/
theorem Spends.left_lt (h : Spends maxAttempts e b b') : b'.left maxAttempts < b.left maxAttempts := by
  cases h with
  | region hb => simp [Spent.left, Spent.corrections, hb]
  | credentials hb => simp [Spent.left, Spent.corrections, hb]
  | retry hattempt _ =>
      simp only [Spent.left, Spent.corrections]
      omega

theorem Spends.corrections_eq (h : Spends maxAttempts e b b') :
    b'.corrections + e.corrected.toNat = b.corrections := by
  cases h with
  | region hb => simp [Spent.corrections, hb, Nat.add_comm]
  | credentials hb => simp [Spent.corrections, hb]
  | retry => rfl

/-- A request that ended unreachable and is not a correction. -/
def Ended.counts (e : Ended) : Bool := e.unreachable && !e.corrected

theorem Spends.unreachable_eq (h : Spends maxAttempts e b b') :
    b'.unreachable = b.unreachable + e.counts.toNat ∧ (b.unreachable < 3 → b'.unreachable < 3) := by
  cases h with
  | region => exact ⟨by simp [Ended.counts], id⟩
  | credentials => exact ⟨by simp [Ended.counts], id⟩
  | retry _ hlt => exact ⟨by simp [Ended.counts], fun _ => hlt⟩

theorem Spending.length_le (h : Spending maxAttempts b es) : es.length ≤ b.left maxAttempts + 1 := by
  induction h with
  | none => exact Nat.zero_le _
  | last => simp
  | again hspends _ ih =>
      have hlt := hspends.left_lt
      rw [List.length_cons]
      omega

theorem Spending.corrected_le (h : Spending maxAttempts b es) :
    es.countP (·.corrected) ≤ b.corrections := by
  induction h with
  | none => exact Nat.zero_le _
  | last => simp
  | @again _ _ e es hspends _ ih =>
      have heq := hspends.corrections_eq
      cases hc : e.corrected <;> simp [hc] at heq ⊢ <;> omega

theorem Spending.unreachable_le (h : Spending maxAttempts b es) (hb : b.unreachable < 3) :
    b.unreachable + es.countP Ended.counts ≤ 3 := by
  induction h with
  | none => simpa using Nat.le_of_lt hb
  | @last _ u =>
      cases u <;> simp [Ended.counts] <;> omega
  | @again _ _ e es hspends _ ih =>
      obtain ⟨heq, hlt⟩ := hspends.unreachable_eq
      have hrest := ih (hlt hb)
      cases hc : e.counts <;> simp [hc] at heq ⊢ <;> omega

/-- What a fresh budget allows. -/
theorem Spending.within (hmax : 1 ≤ maxAttempts) (h : Spending maxAttempts {} es) :
    es.length ≤ maxAttempts + 2 ∧ es.countP (·.corrected) ≤ 2 ∧ es.countP Ended.counts ≤ 3 := by
  have hlength := h.length_le
  have hcorrected := h.corrected_le
  have hunreachable := h.unreachable_le (by decide)
  simp only [Spent.left, Spent.corrections] at hlength hcorrected hunreachable
  simp only [Bool.not_false, Bool.toNat_true, Nat.zero_add] at hlength hcorrected hunreachable
  exact ⟨by omega, by omega, hunreachable⟩

/-- Whether the step between two budgets was a correction. -/
def Spent.corrects (b b' : Spent) : Bool := b'.region != b.region || b'.credentials != b.credentials

theorem Spends.corrected_eq (h : Spends maxAttempts e b b') : e.corrected = b.corrects b' := by
  cases h with
  | region hb => simp [Spent.corrects, hb]
  | credentials hb => simp [Spent.corrects, hb]
  | retry => simp [Spent.corrects]

end Budget

/-! ## A batch transfer -/

/-- What a transfer has used. -/
def Transfer.spent (t : Transfer) : Spent where
  attempt := t.attempt
  unreachable := t.unreachableAttempts
  region := t.regionRetried
  credentials := t.credentialsRetried

section Batch

variable {β : Type} {curl : Libcurl} {options : ClientOptions} {a : Attempt β}

theorem planResume_spent (t : Transfer) : (planResume t).spent = t.spent := by
  fun_cases planResume t <;> rfl

theorem settleStatus_spent (code : Int) (t : Transfer) : (settleStatus code t).spent = t.spent :=
  field_of_settled Transfer.spent code t

theorem readRegion_spent (t : Transfer) : (readRegion t).spent = t.spent := by
  fun_cases readRegion t <;> rfl

theorem retryOrFail_spends {result : CurlCode} {s s' : Live β} {t : Transfer}
    (h : retryOrFail options a result s t = .again s') :
    Spends options.maxAttempts ⟨unreachable result, false⟩ t.spent s'.transfer.spent := by
  simp only [retryOrFail] at h
  generalize hu : (if unreachable result then
    { t with unreachableAttempts := t.unreachableAttempts + 1 } else t) = u at h
  have hspent : u.spent = { t.spent with
      unreachable := t.spent.unreachable + (unreachable result).toNat } := by
    rw [← hu]
    cases unreachable result <;> rfl
  split at h
  · rename_i hretry
    split at h
    · cases h
      have hattempt : u.attempt = t.spent.attempt := congrArg Spent.attempt hspent
      have hunreachable : u.unreachableAttempts =
          t.spent.unreachable + (unreachable result).toNat := congrArg Spent.unreachable hspent
      have hnext : (planResume { u with attempt := u.attempt + 1 }).spent =
          { u.spent with attempt := u.spent.attempt + 1 } :=
        planResume_spent _
      rw [hnext, hspent]
      exact .retry (hattempt ▸ hretry.1) (hunreachable ▸ hretry.2.1)
    · cases h
  · cases h

/-- Everything that makes the message loop send a transfer again is in the budget. -/
theorem complete_spends {code : Int} {result : CurlCode} {s s' : Live β}
    (h : complete options a code result s = .again s') :
    ∃ c, Spends options.maxAttempts ⟨unreachable result, c⟩ s.transfer.spent s'.transfer.spent := by
  have hspent : (readRegion (settleStatus code s.transfer)).spent = s.transfer.spent :=
    (readRegion_spent _).trans (settleStatus_spent code s.transfer)
  simp only [complete] at h
  split at h
  · cases h
  · split at h
    · cases h
    · split at h
      · rename_i hregion
        cases h
        simp only [Bool.and_eq_true, Bool.not_eq_true'] at hregion
        rw [← hspent]
        exact ⟨true, .region hregion.1.1.1⟩
      · split at h
        · rename_i hexpired
          cases h
          simp only [Bool.and_eq_true, Bool.not_eq_true'] at hexpired
          rw [← hspent]
          exact ⟨true, .credentials hexpired.1⟩
        · rw [← hspent]
          exact ⟨false, retryOrFail_spends h⟩

theorem start_spent (options : ClientOptions) (a : Attempt β) (s : Live β) :
    (start options a s).transfer.spent = s.transfer.spent := by
  have hsink : (ensureSink true s.transfer).1.spent = s.transfer.spent := by
    fun_cases ensureSink true s.transfer <;> rfl
  refine Eq.trans ?_ hsink
  simp only [start, Live.update, configure]
  split <;> rfl

variable [Octet β]

theorem perform_spent (curl : Libcurl) (a : Attempt β) (s : Live β) :
    (perform curl a s).1.transfer.spent = s.transfer.spent := by
  have hcore : (feedAttempt curl a.responses s).1.1.transfer.core = s.transfer.core :=
    feedAttempt_induct (fun r _ s' h => (feedResponse_core curl r s').trans h) rfl
  exact field_of_core Transfer.spent hcore

/-- The code a request of a transfer ends with. -/
def endCode (curl : Libcurl) (options : ClientOptions) (a : Attempt β) (s : Live β) : CurlCode :=
  (perform curl a (start options a s)).2.2

theorem attempt_spends {s s' : Live β} (h : attempt curl options a s = .again s') :
    Spends options.maxAttempts
      ⟨unreachable (endCode curl options a s), s.transfer.spent.corrects s'.transfer.spent⟩
      s.transfer.spent s'.transfer.spent := by
  obtain ⟨c, hspends⟩ := complete_spends h
  have hspent : (perform curl a (start options a s)).1.transfer.spent = s.transfer.spent :=
    (perform_spent curl a _).trans (start_spent options a s)
  replace hspends : Spends options.maxAttempts ⟨unreachable (endCode curl options a s), c⟩
      (perform curl a (start options a s)).1.transfer.spent s'.transfer.spent := hspends
  rw [hspent] at hspends
  obtain rfl : c = s.transfer.spent.corrects s'.transfer.spent := hspends.corrected_eq
  exact hspends

/-- The requests a transfer sends. -/
def requests (curl : Libcurl) (options : ClientOptions) : List (Attempt β) → Live β → List Ended
  | [], _ => []
  | a :: as, s =>
      match attempt curl options a s with
      | .finish _ _ _ => [⟨unreachable (endCode curl options a s), false⟩]
      | .again s' =>
          ⟨unreachable (endCode curl options a s), s.transfer.spent.corrects s'.transfer.spent⟩ ::
            requests curl options as s'

theorem requests_spending (attempts : List (Attempt β)) (s : Live β) :
    Spending options.maxAttempts s.transfer.spent (requests curl options attempts s) := by
  induction attempts generalizing s with
  | nil => exact .none
  | cons a as ih =>
      rw [requests]
      cases hattempt : attempt curl options a s with
      | finish status detail s' => exact .last
      | again s' => exact .again (attempt_spends hattempt) (ih s')

/-- A transfer that is sent as often as its budget allows is finished. -/
theorem run_finishes (attempts : List (Attempt β)) (s : Live β)
    (h : s.transfer.spent.left options.maxAttempts < attempts.length) :
    ∃ status detail s', run curl options attempts s = .finish status detail s' := by
  induction attempts generalizing s with
  | nil => cases h
  | cons a as ih =>
      rw [run]
      cases hattempt : attempt curl options a s with
      | finish status detail s' => exact ⟨status, detail, s', rfl⟩
      | again s' =>
          have hlt := (attempt_spends hattempt).left_lt
          rw [List.length_cons] at h
          exact ih s' (by omega)

end Batch

/-! ## A probe -/

def ProbeLoop.spent (loop : ProbeLoop) : Spent where
  attempt := loop.attempt
  unreachable := loop.unreachableAttempts
  region := loop.regionRetried
  credentials := loop.credentialsRetried

section Probe

variable {turn : ProbeTurn} {status : Int} {code : CurlCode} {p : ProbeState} {loop loop' : ProbeLoop}

theorem ProbeTurn.retryOrFail_spends (h : turn.retryOrFail status code p loop = .again loop') :
    Spends turn.options.maxAttempts ⟨unreachable code, false⟩ loop.spent loop'.spent := by
  simp only [ProbeTurn.retryOrFail] at h
  generalize hmore : (if unreachable code = true then 1 else 0) = more at h
  have hone : more = (unreachable code).toNat := by
    rw [← hmore]
    cases unreachable code <;> rfl
  split at h
  · cases h
  · split at h
    · rename_i hretry
      split at h
      · cases h
        rw [hone] at hretry ⊢
        exact .retry hretry.1 hretry.2.1
      · cases h
    · split at h
      · cases h
      · split at h <;> cases h

/-- Only the ordinary retry goes round again. -/
theorem ProbeTurn.settle_again (h : turn.settle status code p loop = .again loop') :
    turn.retryOrFail status code p loop = .again loop' := by
  simp only [ProbeTurn.settle] at h
  split_ifs at h
  exact h

/-- Everything that makes `get_range` send its request again is in the budget. -/
theorem ProbeTurn.correct_spends (h : turn.correct status code p = .again loop') :
    ∃ c, Spends turn.options.maxAttempts ⟨unreachable code, c⟩ turn.loop.spent loop'.spent := by
  simp only [ProbeTurn.correct] at h
  split at h
  · cases h
  · split at h
    · rename_i hregion
      cases h
      exact ⟨true, .region hregion.2.1⟩
    · split at h
      · rename_i hexpired
        cases h
        exact ⟨true, .credentials hexpired.1⟩
      · split at h
        · split at h
          · cases h
          · split at h
            · cases h
            · exact ⟨false, ProbeTurn.retryOrFail_spends (ProbeTurn.settle_again h)⟩
        · exact ⟨false, ProbeTurn.retryOrFail_spends (ProbeTurn.settle_again h)⟩

variable {β : Type} [Octet β] {curl : Libcurl} {options : ClientOptions} {backend : Backend}
  {range : ByteRange} {ifMatch : Text}

/-- One turn of the loop of `get_range`: how it ends, with which code, and what it leaves in the
destination. -/
def probeTurn (curl : Libcurl) (options : ClientOptions) (backend : Backend) (range : ByteRange)
    (ifMatch : Text) (q : ProbeRequest β) (loop : ProbeLoop) (m : Memory Unit β) :
    ProbeOutcome × CurlCode × Memory Unit β :=
  let turn : ProbeTurn :=
    { backend := backend, range := range, options := options,
      loop := { loop with regionHint := q.routingRegion }, requestUrl := q.requestUrl,
      requestRange := q.requestRange, message := q.message,
      deadlineExpired := q.deadlineExpired, canWait := q.canWait }
  let p : ProbeState :=
    { range := range, ifMatch := ifMatch, fallbackLimit := options.rangeFallbackLimit,
      http := q.http, originalUrl := q.requestUrl }
  let ((s, last), accepted) := probeAttempt curl q.responses ⟨p, m⟩
  let code := if accepted then q.result else .writeError
  (turn.judge ((last.map (·.info)).getD ⟨0, -1⟩) code s.state, deliveredCode code s.state, s.memory)

theorem probeTurn_spends {q : ProbeRequest β} {m : Memory Unit β}
    (h : (probeTurn curl options backend range ifMatch q loop m).1 = .again loop') :
    Spends options.maxAttempts
      ⟨unreachable (probeTurn curl options backend range ifMatch q loop m).2.1,
        loop.spent.corrects loop'.spent⟩ loop.spent loop'.spent := by
  obtain ⟨c, hspends⟩ := ProbeTurn.correct_spends h
  obtain rfl : c = loop.spent.corrects loop'.spent := hspends.corrected_eq
  exact hspends

theorem getRange_again {q : ProbeRequest β} {qs : List (ProbeRequest β)} {m : Memory Unit β}
    (hleft : ¬ options.maxAttempts ≤ loop.attempt) (hmade : range.refusal = none)
    (h : (probeTurn curl options backend range ifMatch q loop m).1 = .again loop') :
    getRange curl options backend range ifMatch (q :: qs) loop m =
      getRange curl options backend range ifMatch qs loop'
        (probeTurn curl options backend range ifMatch q loop m).2.2 := by
  simp only [probeTurn] at h
  simp only [getRange, if_neg hleft, hmade, h, probeTurn]

theorem getRange_done {q : ProbeRequest β} {qs : List (ProbeRequest β)} {m : Memory Unit β}
    (hleft : ¬ options.maxAttempts ≤ loop.attempt) (hmade : range.refusal = none)
    (h : ∀ loop', (probeTurn curl options backend range ifMatch q loop m).1 ≠ .again loop') :
    (getRange curl options backend range ifMatch (q :: qs) loop m).1 =
      (probeTurn curl options backend range ifMatch q loop m).1 := by
  simp only [probeTurn] at h
  simp only [getRange, if_neg hleft, hmade, probeTurn]

/-- The requests `get_range` sends; for a range that is refused, none. -/
def probeRequests (curl : Libcurl) (options : ClientOptions) (backend : Backend) (range : ByteRange)
    (ifMatch : Text) : List (ProbeRequest β) → ProbeLoop → Memory Unit β → List Ended
  | [], _, _ => []
  | q :: qs, loop, m =>
      if options.maxAttempts ≤ loop.attempt ∨ range.refusal.isSome then []
      else
        let x := probeTurn curl options backend range ifMatch q loop m
        match x.1 with
        | .again loop' =>
            ⟨unreachable x.2.1, loop.spent.corrects loop'.spent⟩ ::
              probeRequests curl options backend range ifMatch qs loop' x.2.2
        | _ => [⟨unreachable x.2.1, false⟩]

theorem probeRequests_spending (qs : List (ProbeRequest β)) (loop : ProbeLoop) (m : Memory Unit β) :
    Spending options.maxAttempts loop.spent
      (probeRequests curl options backend range ifMatch qs loop m) := by
  induction qs generalizing loop m with
  | nil => exact .none
  | cons q qs ih =>
      rw [probeRequests]
      split
      · exact .none
      · dsimp only
        split
        · rename_i hturn
          exact .again (probeTurn_spends hturn) (ih _ _)
        · exact .last

/-- `get_range` returns when it has sent its request as often as its budget allows. -/
theorem getRange_returns (qs : List (ProbeRequest β)) (loop : ProbeLoop) (m : Memory Unit β)
    (h : loop.spent.left options.maxAttempts < qs.length) (loop' : ProbeLoop) :
    (getRange curl options backend range ifMatch qs loop m).1 ≠ .again loop' := by
  induction qs generalizing loop m with
  | nil => cases h
  | cons q qs ih =>
      by_cases hleft : options.maxAttempts ≤ loop.attempt
      · simp [getRange, hleft]
      · cases hmade : range.refusal with
        | some detail => simp [getRange, hleft, hmade]
        | none =>
            by_cases hagain : ∃ next,
                (probeTurn curl options backend range ifMatch q loop m).1 = .again next
            · obtain ⟨next, hnext⟩ := hagain
              have hlt := (probeTurn_spends hnext).left_lt
              rw [getRange_again hleft hmade hnext]
              rw [List.length_cons] at h
              exact ih next _ (by omega)
            · have hdone : ∀ next,
                  (probeTurn curl options backend range ifMatch q loop m).1 ≠ .again next :=
                fun next hnext => hagain ⟨next, hnext⟩
              rw [getRange_done hleft hmade hdone]
              exact hdone loop'

/-- A transfer and a probe send at most two requests more than `max_attempts`: one for a region
correction and one for a credential refresh.  At most `kUnreachableAttempts` of the others end
unreachable, and then there is a result. -/
theorem requests_within_budget (curl : Libcurl) (options : ClientOptions)
    (hmax : 1 ≤ options.maxAttempts) :
    (∀ (attempts : List (Attempt β)) (s : Live β), s.transfer.spent = {} →
      (requests curl options attempts s).length ≤ options.maxAttempts + 2 ∧
      (requests curl options attempts s).countP (·.corrected) ≤ 2 ∧
      (requests curl options attempts s).countP Ended.counts ≤ 3 ∧
      (options.maxAttempts + 2 ≤ attempts.length →
        ∃ status detail s', run curl options attempts s = .finish status detail s')) ∧
    (∀ (backend : Backend) (range : ByteRange) (ifMatch : Text) (qs : List (ProbeRequest β))
      (m : Memory Unit β),
      (probeRequests curl options backend range ifMatch qs {} m).length ≤ options.maxAttempts + 2 ∧
      (probeRequests curl options backend range ifMatch qs {} m).countP (·.corrected) ≤ 2 ∧
      (probeRequests curl options backend range ifMatch qs {} m).countP Ended.counts ≤ 3 ∧
      (options.maxAttempts + 2 ≤ qs.length →
        ∀ loop, (getRange curl options backend range ifMatch qs {} m).1 ≠ .again loop)) ∧
    (∀ (a : Attempt β) (s s' : Live β), attempt curl options a s = .again s' →
      s'.transfer.spent.left options.maxAttempts < s.transfer.spent.left options.maxAttempts) ∧
    ∀ (backend : Backend) (range : ByteRange) (ifMatch : Text) (q : ProbeRequest β)
      (loop loop' : ProbeLoop) (m : Memory Unit β),
      (probeTurn curl options backend range ifMatch q loop m).1 = .again loop' →
        loop'.spent.left options.maxAttempts < loop.spent.left options.maxAttempts := by
  have hfresh : Spent.left options.maxAttempts {} < options.maxAttempts + 2 := by
    simp only [Spent.left, Spent.corrections, Bool.not_false, Bool.toNat_true]
    omega
  refine ⟨?_, ?_, fun a s s' h => (attempt_spends h).left_lt,
    fun backend range ifMatch q loop loop' m h => (probeTurn_spends h).left_lt⟩
  · intro attempts s hs
    have hspending : Spending options.maxAttempts {} (requests curl options attempts s) :=
      hs ▸ requests_spending attempts s
    obtain ⟨hlength, hcorrected, hunreachable⟩ := hspending.within hmax
    refine ⟨hlength, hcorrected, hunreachable, fun hmany => ?_⟩
    exact run_finishes attempts s (hs ▸ Nat.lt_of_lt_of_le hfresh hmany)
  · intro backend range ifMatch qs m
    have hspending : Spending options.maxAttempts {}
        (probeRequests curl options backend range ifMatch qs {} m) := probeRequests_spending qs {} m
    obtain ⟨hlength, hcorrected, hunreachable⟩ := hspending.within hmax
    refine ⟨hlength, hcorrected, hunreachable, fun hmany => ?_⟩
    exact getRange_returns qs {} m (Nat.lt_of_lt_of_le hfresh hmany)

end Probe

/-- A public bucket answers with a redirect that names its region. -/
def elsewhere : Response UInt8 where
  code := 307
  statusLine := text "HTTP/1.1 307 Temporary Redirect\r\n"
  fields := [text "Location: https://b.s3.eu-west-1.amazonaws.com/k\r\n",
    text "x-amz-bucket-region: eu-west-1\r\n"]

/-- The redirect leads to a host that has no address, and then nothing is reached any more. -/
def movedAway : List (Attempt UInt8) :=
  [{ responses := [elsewhere], result := .couldntResolveHost },
    { responses := [], result := .couldntConnect }, { responses := [], result := .couldntConnect },
    { responses := [], result := .couldntConnect }, { responses := [], result := .couldntConnect }]

def publicRead : Live UInt8 where
  transfer :=
    { locator := { backend := .s3 }, length := 1,
      parts := [{ relativeOffset := 0, length := 1 }] }
  memory := ⟨fun _ _ => 0, []⟩

/-- Four requests end unreachable: the one that is sent again with its region is not counted. -/
theorem requests_movedAway :
    requests .uncalled .initial movedAway publicRead =
      [⟨true, true⟩, ⟨true, false⟩, ⟨true, false⟩, ⟨true, false⟩] := by
  decide +kernel

theorem movedAway_four_unreachable :
    (requests .uncalled .initial movedAway publicRead).countP (·.unreachable) = 4 ∧
      ¬ ∀ attempts : List (Attempt UInt8),
        (requests .uncalled .initial attempts publicRead).countP (·.unreachable) ≤ 3 := by
  have hfour : (requests .uncalled .initial movedAway publicRead).countP (·.unreachable) = 4 := by
    rw [requests_movedAway]
    rfl
  refine ⟨hfour, fun h => ?_⟩
  have hle := h movedAway
  omega

theorem requests_within_budget_movedAway :
    (requests .uncalled .initial movedAway publicRead).countP Ended.counts = 3 ∧
      (requests .uncalled .initial movedAway publicRead).countP Ended.counts ≤ 3 := by
  constructor
  · rw [requests_movedAway]
    rfl
  · exact ((requests_within_budget .uncalled .initial (by decide)).1 movedAway publicRead rfl).2.2.1

end Karu
