/-
# `Karu.Runtime.Served` — a transfer at a server that honours its request

The request of a transfer has a range and perhaps an `If-Match`.  A server that
honours both answers with a `412` where the precondition does not hold, with a
`416` where the range begins at or past the end of the object, and otherwise
with a `206` for the range as far as the object goes (`Response.Honours`).
Before that answer there may be interim responses and redirects that libcurl
follows.

Then the transfer settles: every part completes as a read of its own, whatever
else is in the transfer (`run_settles`).  The one thing that can make it go
round again is an S3 region in a refusal, and that once.
-/
import Karu.Runtime.Files
import Karu.Runtime.Ending
import Karu.Runtime.Redirect

namespace Karu

open Base

variable {β : Type}

/-! ## Answers -/

/-- What a read of its own comes to where the precondition holds or does not. -/
def conditionalOutcome (object : List β) (met : Bool) (pos n : Nat) : Status × Nat × List β :=
  if met then readOutcome object pos n else (.errPrecondition, 0, [])

/-- The answer to the request of a transfer; `met` says whether the precondition holds.  The
bytes sent are those of the range that there are, and a `Content-Range` that ends before the
range does has the total that explains it. -/
inductive Response.Honours (object : List β) (met : Bool) (t : Transfer) (r : Response β) : Prop
  | failed : met = false → t.ifMatch ≠ [] → r.code = 412 → r.Honours object met t
  | unsatisfiable : met = true → object.length ≤ t.offset → r.code = 416 → r.Honours object met t
  | ranged {value : Text} {c : ContentRange} : met = true → t.offset < object.length →
      r.code = 206 → contentRanges r.fields = [value] → contentRange value = some c →
      c.first = t.offset → c.last + 1 = min (t.offset + t.length) object.length →
      (object.length < t.offset + t.length → c.total = some object.length) →
      r.body = (object.drop t.offset).take t.length →
      Detail.transformed (encodingOf r.fields) = false →
      (isStrongEtag t.ifMatch = true → etagOf r.fields = [] ∨ etagOf r.fields = t.ifMatch) →
      r.Honours object met t

/-- A response that libcurl goes on after: it has no body for the callbacks, and the redirect
guard lets it pass. -/
def Response.Passes (curl : Libcurl) (a : Attempt β) (r : Response β) : Prop :=
  r.chunks = [] ∧ guardStops curl a.http a.requestUrl 0 r.lines = false

/-- An attempt that ends on the answer, in time and complete. -/
structure Attempt.Honours (curl : Libcurl) (object : List β) (met : Bool) (t : Transfer)
    (a : Attempt β) : Prop where
  answered : ∃ before r, a.responses = before ++ [r] ∧ (∀ b ∈ before, b.Passes curl a) ∧
    r.Plain ∧ r.Honours object met t
  result_eq : a.result = .ok
  in_time : a.deadlineExpired = false

/-- The transfer finishes, and every part completes as a read of its own. -/
def Settles (object : List β) (met : Bool) (t₀ : Transfer) (outcome : Outcome β) : Prop :=
  ∃ status detail s, outcome = .finish status detail s ∧ s.transfer.parts = t₀.parts ∧
    ∀ p ∈ t₀.parts,
      (deliverPart s.transfer status detail p).seen (deliver s.transfer status detail s.memory).2 =
        conditionalOutcome object met (t₀.offset + p.relativeOffset) p.length

theorem Loaded.settles {object : List β} {t₀ : Transfer} {s : Live β} (h : Loaded object t₀ s)
    (hl : t₀.Layout) (detail : Text) : Settles object true t₀ (.finish .ok detail s) :=
  ⟨.ok, detail, s, rfl, h.parts_eq, fun _ hp => h.seen hl detail hp⟩

/-- A failed transfer gives no part a byte. -/
theorem seen_of_failed {status : Status} (h : status ≠ .ok) (t : Transfer) (detail : Text) (p : Part)
    (m : Memory Addr β) : (deliverPart t status detail p).seen m = (status, 0, []) := by
  simp [Completion.seen, deliverPart, h, Memory.read]

/-- Nothing can be read at or past the end. -/
theorem readOutcome_past {object : List β} {pos n : Nat} (h : object.length ≤ pos) (hn : 1 ≤ n) :
    readOutcome object pos n = (.errRange, 0, []) := by
  have hnone : (object.drop pos).take n = [] := by
    rw [List.drop_eq_nil_of_le h, List.take_nil]
  simp only [readOutcome, hnone, List.length_nil]
  rw [if_neg (by omega)]

/-! ## The responses before the answer -/

/-- The transfer between the responses of an attempt: nothing kept, and nothing changed that a
response does not write. -/
structure Awaiting (t₁ : Transfer) (s : Live β) : Prop where
  stored : s.Stored
  resumed_eq : s.transfer.resumed = 0
  core_eq : s.transfer.core = t₁.core

theorem feedLine_guards (curl : Libcurl) (now : Int) (line : Text) (s : Live β) :
    GuardsLine curl (fun s : Live β => s.transfer.httpStatus)
      (fun s : Live β => (s.transfer.http, s.transfer.requestUrl)) line s
      (feedLine curl now line s) := by
  obtain ⟨h₁, h₂, h₃⟩ := headerCallback_guards curl now line s.transfer
  exact ⟨h₁, h₂, h₃⟩

section Responses

variable [Octet β] {t₁ : Transfer} {s : Live β}

theorem Awaiting.response (h : Awaiting t₁ s) (curl : Libcurl) (r : Response β) :
    Awaiting t₁ (feedResponse curl r s).1 := by
  refine ⟨feedResponse_stored curl r h.stored, ?_, (feedResponse_core curl r s).trans h.core_eq⟩
  have hle := (feedResponse_keeps curl r h.stored).resumed_le
  have := h.resumed_eq
  omega

theorem feedResponse_passes {curl : Libcurl} {a : Attempt β} {r : Response β}
    (hr : r.Passes curl a) (hhttp : s.transfer.http = a.http)
    (hurl : s.transfer.requestUrl = a.requestUrl) : (feedResponse curl r s).2 = true := by
  have hguard := (feed_guard (feedLine_guards curl r.now) r.lines s).1
  have hstart : guardStops curl a.http a.requestUrl s.transfer.httpStatus r.lines =
      guardStops curl a.http a.requestUrl 0 r.lines := by
    simp [Response.lines, guardStops, r.status_first]
  simp only [hhttp, hurl, hstart, hr.2, Bool.not_false] at hguard
  simp only [feedResponse, hr.1, hguard, if_true, feed_nil]

/-- The attempt comes to its last response. -/
theorem feedAttempt_last {curl : Libcurl} {a : Attempt β} {before : List (Response β)}
    (hpass : ∀ b ∈ before, b.Passes curl a) (hhttp : t₁.http = a.http)
    (hurl : t₁.requestUrl = a.requestUrl) (h : Awaiting t₁ s) (r : Response β) :
    ∃ s₁, Awaiting t₁ s₁ ∧ feedAttempt curl (before ++ [r]) s =
      (((feedResponse curl r s₁).1, some (r, s₁)), (feedResponse curl r s₁).2) := by
  have hgo : ∀ (bs : List (Response β)) (x : Live β × Option (Response β × Live β)),
      (∀ b ∈ bs, b.Passes curl a) → Awaiting t₁ x.1 →
      (feed (feedNext curl) bs x).2 = true ∧ Awaiting t₁ (feed (feedNext curl) bs x).1.1 := by
    intro bs
    induction bs with
    | nil => exact fun x _ hx => ⟨rfl, hx⟩
    | cons b bs ih =>
        intro x hbs hx
        have hpassed : (feedNext curl b x).2 = true :=
          feedResponse_passes (hbs b List.mem_cons_self)
            ((field_of_core (·.http) hx.core_eq).trans hhttp)
            ((field_of_core (·.requestUrl) hx.core_eq).trans hurl)
        rw [feed_cons_true hpassed]
        exact ih _ (fun b hb => hbs b (List.mem_cons_of_mem _ hb)) (hx.response curl b)
  obtain ⟨haccepted, hawaiting⟩ := hgo before (s, none) hpass h
  refine ⟨_, hawaiting, ?_⟩
  rw [feedAttempt, feed_append, haccepted, if_pos rfl, feed_singleton]
  rfl

end Responses

/-! ## The answer -/

section Answer

variable {object : List β} {t₁ : Transfer} {s : Live β} {r : Response β}

/-- The one range of the answer fits the request. -/
theorem ContentRange.fits_of_honours {c : ContentRange} {t : Transfer} (hl : t.Layout)
    (hres : t.resumed = 0) (hfirst : c.first = t.offset)
    (hlast : c.last + 1 = min (t.offset + t.length) object.length)
    (htotal : object.length < t.offset + t.length → c.total = some object.length) :
    c.fits t = true := by
  have hstop := hl.stop_le
  have hpos : 1 ≤ t.length := by
    obtain ⟨p, hp, hlen⟩ := hl.longest
    have := hl.part_pos p hp
    omega
  have hadd : add64 t.offset t.resumed = t.offset := by
    rw [hres]
    exact add64_of_lt (by omega)
  have hend : sub64 (add64 t.offset t.length) 1 = t.offset + t.length - 1 := by
    unfold sub64 add64
    omega
  simp only [ContentRange.fits, hadd, hend, hfirst, beq_self_eq_true, Bool.true_and,
    Bool.and_eq_true, Bool.or_eq_true, decide_eq_true_eq, beq_iff_eq]
  refine ⟨by omega, ?_⟩
  by_cases hshort : object.length < t.offset + t.length
  · refine Or.inr ?_
    rw [htotal hshort, add64_of_lt (by omega), Option.some.injEq]
    omega
  · exact Or.inl (by omega)

/-- A `206` for the range is let in from its first piece on. -/
theorem checkStatus_honoured {s₁ : Live β} (hcode : r.code = 206)
    (htransformed : Detail.transformed s₁.transfer.encoding = false)
    (hpin : contradictsPin s₁.transfer = false) (hvalid : validContentRange s₁.transfer = true) :
    (checkStatus r.info s₁.transfer).2 = true := by
  have hcases := checkStatus_checked r.info s₁.transfer
  have hcode : r.info.responseCode = 206 := hcode
  generalize checkStatus r.info s₁.transfer = y at hcases ⊢
  cases hcases with
  | transformed _ h =>
      rw [htransformed] at h
      cases h
  | contradicted _ _ h =>
      rw [hpin] at h
      cases h
  | misranged _ _ _ h =>
      rw [hvalid] at h
      cases h
  | entered => rw [enter_other (by rw [hcode]; decide)]

/-- A stored transfer whose stream is all there is of its range is loaded. -/
theorem loaded_of_stream {t₀ : Transfer} {s' : Live β} (h : s'.Placed)
    (hplan : s'.transfer.plan = t₀.plan) (hscratch : t₀.scratch = 0)
    (hstream : s'.stream = (object.drop t₀.offset).take t₀.length) : Loaded object t₀ s' := by
  have hparts : s'.transfer.parts = t₀.parts := field_of_plan (·.parts) hplan
  have hreceived : s'.transfer.received = min t₀.length (object.length - t₀.offset) := by
    rw [← h.stream_length, hstream, List.length_take, List.length_drop]
  refine ⟨hparts, hreceived, fun detail p hp i hi h₁ h₂ => ?_⟩
  have hcell := h.cells p (hparts ▸ hp) i hi h₁ h₂
  rw [deliver_memory ((field_of_plan (·.scratch) hplan).trans hscratch), ← hcell, hstream,
    List.getElem?_take_of_lt (by omega), List.getElem?_drop]

/-- The answer in range agrees with the request in all that `write_callback` asks. -/
theorem Headed.honoured {t₀ t : Transfer} (hh : Headed r.fields (begun r t₀) t)
    (hcore : t.core = t₀.core) (hl : t.Layout) (hres : t.resumed = 0) (hetag : t₀.resumeEtag = [])
    {value : Text} {c : ContentRange} (hvalue : contentRanges r.fields = [value])
    (hc : contentRange value = some c) (hfirst : c.first = t₀.offset)
    (hlast : c.last + 1 = min (t₀.offset + t₀.length) object.length)
    (htotal : object.length < t₀.offset + t₀.length → c.total = some object.length)
    (hpin : isStrongEtag t₀.ifMatch = true → etagOf r.fields = [] ∨ etagOf r.fields = t₀.ifMatch) :
    t.ranges = ⟨true, true, true, c.fields 0⟩ ∧ validContentRange t = true ∧
      contradictsPin t = false := by
  have hoffset : t.offset = t₀.offset := field_of_core (·.offset) hcore
  have hlength : t.length = t₀.length := field_of_core (·.length) hcore
  have hfits : c.fits t = true :=
    ContentRange.fits_of_honours hl hres (by rw [hoffset, hfirst]) (by rw [hoffset, hlength, hlast])
      (by rw [hoffset, hlength]; exact htotal)
  have hranges := ranges_of_one hh hvalue hc
  refine ⟨by rw [hranges, hfits], ?_, ?_⟩
  · rw [validContentRange_eq, hranges]
    simp only [fitsRange_fields, hfits, Bool.and_self]
  · have hmatch : t.ifMatch = t₀.ifMatch := field_of_core (·.ifMatch) hcore
    have hresume : t.resumeEtag = [] := (field_of_core (·.resumeEtag) hcore).trans hetag
    have htag : t.responseEtag = etagOf r.fields := hh.etag_eq
    have hversion : versionPin t = t₀.ifMatch := by
      rw [versionPin, hmatch, hresume]
      split
      · rename_i hempty
        exact (List.isEmpty_iff.mp hempty).symm
      · rfl
    rw [contradictsPin, hversion, htag]
    cases hstrong : isStrongEtag t₀.ifMatch with
    | false => rfl
    | true =>
        rcases hpin hstrong with hnone | hsame
        · rw [hnone]
          rfl
        · rw [hsame]
          simp

variable [Octet β]

/-- The answer in range: the attempt succeeds, and the transfer is loaded. -/
theorem ranged_answer (curl : Libcurl) (hs : s.Stored) (hres : s.transfer.resumed = 0)
    (hetag : s.transfer.resumeEtag = []) (hscratch : s.transfer.scratch = 0) (hplain : r.Plain)
    (hr : r.Honours object true s.transfer) (hin : s.transfer.offset < object.length) :
    succeeded (settleStatus r.code (feedResponse curl r s).1.transfer)
        (if (feedResponse curl r s).2 then .ok else .writeError) = true ∧
      Loaded object s.transfer ((feedResponse curl r s).1.settled r.code) := by
  have hend := feedResponse_end curl r hs
  generalize feedResponse curl r s = x at hend ⊢
  cases hr with
  | failed hmet => cases hmet
  | unsatisfiable _ hpast => omega
  | @ranged value c _ _ hcode hvalue hc hfirst hlast htotal hbody htransformed hpin =>
  cases hend with
  | blocked _ _ hredirect =>
      rcases hplain with hzero | hsame
      · rw [hzero] at hredirect
        cases hredirect
      · rw [hsame, hcode] at hredirect
        cases hredirect
  | @body s₁ _ hrew hheaded hhead hbodyEnd =>
      have hcore := hrew.core_eq
      have hres₁ : s₁.transfer.resumed = 0 := hrew.resumed_eq.trans hres
      obtain ⟨hranges, hvalid, hagrees⟩ := hheaded.honoured hcore
        (hrew.stored hs).layout hres₁ hetag hvalue hc hfirst hlast htotal hpin
      have hencoding : s₁.transfer.encoding = encodingOf r.fields := hheaded.encoding_eq
      have hgo : (checkStatus r.info s₁.transfer).2 = true :=
        checkStatus_honoured hcode (by rw [hencoding]; exact htransformed) hagrees hvalid
      obtain ⟨hresumed, hskip⟩ := checkStatus_other hgo (by show r.code ≠ 200; rw [hcode]; decide)
      cases hbodyEnd with
      | empty hnil =>
          -- the range is not empty
          have hnone : r.body = [] := by rw [Response.body, hnil, List.flatten_nil]
          have hpos := hs.resumed_lt
          rw [hbody, List.take_eq_nil_iff, List.drop_eq_nil_iff] at hnone
          omega
      | refused _ hno =>
          rw [hgo] at hno
          cases hno
      | error _ _ herr => omega
      | @payload s' accepted _ _ _ hread hrefuse =>
          rw [hresumed, hres₁, List.take_zero, hskip, hrew.skip_eq] at hread
          have hplan : s'.transfer.plan = s.transfer.plan :=
            plan_of_core ((core_of_head hhead).trans hcore)
          have hstream : s'.stream = (object.drop s.transfer.offset).take s.transfer.length := by
            rw [hread.stream_eq, List.nil_append, List.drop_zero, List.length_nil, Nat.sub_zero,
              hbody, field_of_plan (·.length) hplan, List.take_take, Nat.min_self]
          have hloaded : Loaded object s.transfer (s'.settled r.code) :=
            loaded_of_stream (hread.stored.settled r.code).toPlaced
              ((field_of_settled (·.plan) r.code s'.transfer).trans hplan) hscratch hstream
          have hreceived : (settleStatus r.code s'.transfer).received =
              min s.transfer.length (object.length - s.transfer.offset) := hloaded.received_eq
          have hranges' : (settleStatus r.code s'.transfer).ranges =
              ⟨true, true, true, c.fields 0⟩ :=
            (field_of_settled (·.ranges) r.code s'.transfer).trans
              ((field_of_head (·.ranges) hhead).trans hranges)
          refine ⟨succeeded_iff.mpr ⟨?_, ?_, ?_, fun _ => ⟨?_, ?_⟩⟩, hloaded⟩
          · cases accepted with
            | true => exact Or.inl rfl
            | false =>
                refine Or.inr ?_
                rw [field_of_settled (·.satisfied) r.code s'.transfer]
                exact hrefuse rfl
          · rw [settled_of_eq hread.status_eq, hcode]
            rfl
          · rw [field_of_settled (·.encoding) r.code s'.transfer, field_of_head (·.encoding) hhead,
              hencoding]
            exact htransformed
          · exact congrArg (·.fits) hranges'
          · have hstart : (settleStatus r.code s'.transfer).contentRangeStart = c.first :=
              congrArg (·.fields.first) hranges'
            have hstop : (settleStatus r.code s'.transfer).contentRangeEnd = c.last :=
              congrArg (·.fields.last) hranges'
            have hresumed : (settleStatus r.code s'.transfer).resumed = 0 :=
              (field_of_settled (·.resumed) r.code s'.transfer).trans hread.resumed_eq
            have hfit := hs.layout.stop_le
            have hlt := hs.layout.length_lt
            rw [hreceived, hresumed, hstart, hstop, hfirst]
            unfold sub64 add64
            omega

end Answer

/-! ## Refusals -/

section Refusal

variable {s : Live β} {r : Response β}

/-- What `failure` and `retryable` read of a refused transfer. -/
structure Refused (code : Int) (t : Transfer) : Prop where
  status_eq : t.httpStatus = code
  unblocked : t.redirectBlocked = false
  unchanged : t.versionChanged = false
  unrejected : t.rangeFallbackRejected = false

theorem Refused.failure_eq {code : Int} {t : Transfer} (h : Refused code t) (hcode : 400 ≤ code)
    (hpin : code = 412 → t.ifMatch ≠ []) (result : CurlCode) (message : Text) :
    (failure t result message).1 = Detail.statusForHttp code := by
  have hsuccess : isSuccess t.httpStatus = false := by
    rw [h.status_eq, isSuccess, Bool.and_eq_false_iff, decide_eq_false_iff_not,
      decide_eq_false_iff_not]
    omega
  have hredirect : isRedirect t.httpStatus = false := by
    rw [h.status_eq, isRedirect, Bool.and_eq_false_iff, decide_eq_false_iff_not,
      decide_eq_false_iff_not]
    omega
  have h206 : (t.httpStatus == 206) = false := by
    rw [h.status_eq, beq_eq_false_iff_ne]
    omega
  have h412 : (t.httpStatus == 412 && t.ifMatch.isEmpty) = false := by
    rw [h.status_eq, Bool.and_eq_false_iff, beq_eq_false_iff_ne]
    by_cases hc : code = 412
    · exact Or.inr (by simpa using hpin hc)
    · exact Or.inl hc
  have h300 : (300 : Int) ≤ t.httpStatus := by
    rw [h.status_eq]
    omega
  rw [← h.status_eq]
  simp only [failure, h.unblocked, hsuccess, h.unchanged, h412, h.unrejected, h206, hredirect,
    decide_eq_true h300, Bool.false_and, Bool.and_false, Bool.false_or, Bool.false_eq_true,
    if_false, if_true]

/-- Refusals of a request as such are not transient. -/
theorem Refused.retryable_eq {code : Int} {t : Transfer} (h : Refused code t)
    (hcode : code = 412 ∧ t.ifMatch ≠ [] ∨ code = 416) {result : CurlCode}
    (hresult : result = .ok ∨ result = .writeError) : retryable t result = false := by
  have htransient : Detail.transient result t.httpStatus = false := by
    rw [h.status_eq]
    rcases hresult with rfl | rfl <;> rcases hcode with ⟨rfl, -⟩ | rfl <;> rfl
  have hpin : (t.ifMatch.isEmpty &&
      (t.versionChanged || (t.httpStatus == 412 && !t.resumeEtag.isEmpty))) = false := by
    rw [h.unchanged, h.status_eq]
    rcases hcode with ⟨rfl, hne⟩ | rfl
    · simp [hne]
    · simp
  have h400 : (t.httpStatus == 400) = false := by
    rw [h.status_eq]
    rcases hcode with ⟨rfl, -⟩ | rfl <;> rfl
  simp [retryable, htransient, hpin, h400]

theorem checkStatus_error {info : Info} {t : Transfer} (h : 300 ≤ info.responseCode) :
    checkStatus info t = (noteLengths info (seen info t), true) := by
  have hsuccess : ¬ isSuccess info.responseCode = true := by
    simp only [isSuccess, Bool.and_eq_true, decide_eq_true_eq]
    omega
  have hcases := checkStatus_checked info t
  generalize checkStatus info t = y at hcases ⊢
  cases hcases with
  | transformed hok => exact absurd hok hsuccess
  | contradicted hok => exact absurd hok hsuccess
  | misranged h206 => omega
  | entered => exact enter_other (by omega)

/-- A refusal leaves the transfer as `Refused` says, whatever its body. -/
theorem refused_answer [Octet β] (curl : Libcurl) (hs : s.Stored) (hplain : r.Plain)
    (hcode : 400 ≤ r.code) :
    Refused r.code (settleStatus r.code (feedResponse curl r s).1.transfer) := by
  have hend := feedResponse_end curl r hs
  generalize feedResponse curl r s = x at hend ⊢
  have hsettled : ∀ {t : Transfer}, t.redirectBlocked = false → t.versionChanged = false →
      t.rangeFallbackRejected = false → (settleStatus r.code t).httpStatus = r.code →
      Refused r.code (settleStatus r.code t) := by
    intro t h₁ h₂ h₃ h₄
    exact ⟨h₄, (field_of_settled (·.redirectBlocked) r.code t).trans h₁,
      (field_of_settled (·.versionChanged) r.code t).trans h₂,
      (field_of_settled (·.rangeFallbackRejected) r.code t).trans h₃⟩
  cases hend with
  | blocked _ _ hredirect =>
      simp only [isRedirect, Bool.and_eq_true, decide_eq_true_eq] at hredirect
      rcases hplain with hzero | hsame
      · omega
      · omega
  | @body s₁ _ hrew hheaded hhead hbodyEnd =>
      have hunblocked : x.1.transfer.redirectBlocked = false :=
        (field_of_head (·.redirectBlocked) hhead).trans hheaded.blocked_eq
      have hunrejected : s₁.transfer.rangeFallbackRejected = false :=
        field_of_progress (·.rangeFallbackRejected) hrew.progress_eq
      have hcheck : checkStatus r.info s₁.transfer =
          (noteLengths r.info (seen r.info s₁.transfer), true) :=
        checkStatus_error (by show 300 ≤ r.code; omega)
      cases hbodyEnd with
      | empty => exact hsettled hunblocked hrew.unchanged hunrejected (hplain.settled hrew.status_eq)
      | refused _ hno =>
          rw [hcheck] at hno
          cases hno
      | @error s' _ _ _ _ hcap =>
          have hkeep := hcap.transfer_eq
          rw [hcheck] at hkeep
          exact hsettled hunblocked
            ((field_of_uncaptured (·.versionChanged) hkeep).trans hrew.unchanged)
            ((field_of_uncaptured (·.rangeFallbackRejected) hkeep).trans hunrejected)
            (settled_of_eq (field_of_uncaptured (·.httpStatus) hkeep))
      | payload _ _ hlow => omega

end Refusal

/-- A refusal that is not retried fails the transfer, unless an S3 region in it is tried first. -/
theorem complete_refused (options : ClientOptions) {a : Attempt β} (code : Int) {result : CurlCode}
    {s : Live β} (hfail : succeeded (settleStatus code s.transfer) result = false)
    (htime : a.deadlineExpired = false)
    (hcredentials : (settleStatus code s.transfer).credentialsExpired = false)
    (hretry : retryable (settleStatus code s.transfer) result = false) :
    ∃ t' : Transfer, t'.uncorrected = (settleStatus code s.transfer).uncorrected ∧
      ((complete options a code result s = .again { s with transfer := t' } ∧
          s.transfer.regionRetried = false ∧ t'.regionRetried = true) ∨
        complete options a code result s =
          .finish (failure (settleStatus code s.transfer) result a.message).1
            (failure (settleStatus code s.transfer) result a.message).2
            { s with transfer := t' }) := by
  have hregion : (readRegion (settleStatus code s.transfer)).uncorrected =
      (settleStatus code s.transfer).uncorrected := by
    unfold readRegion
    split <;> rfl
  have hretried : (readRegion (settleStatus code s.transfer)).regionRetried =
      s.transfer.regionRetried := by
    rw [← field_of_settled (·.regionRetried) code s.transfer]
    unfold readRegion
    split <;> rfl
  simp only [complete, hfail, htime, Bool.false_eq_true, if_false]
  generalize settleStatus code s.transfer = t at *
  have hexpired : (readRegion t).credentialsExpired = false :=
    (field_of_uncorrected (·.credentialsExpired) hregion).trans hcredentials
  split
  · rename_i hcorrect
    simp only [Bool.and_eq_true, Bool.not_eq_true'] at hcorrect
    exact ⟨{ readRegion t with
      regionHint := (readRegion t).responseRegion, regionRetried := true }, hregion,
      Or.inl ⟨rfl, hretried.symm.trans hcorrect.1.1.1, rfl⟩⟩
  · simp only [hexpired, Bool.and_false, Bool.false_eq_true, if_false, retryOrFail]
    generalize hu : (if unreachable result then
      { readRegion t with unreachableAttempts := (readRegion t).unreachableAttempts + 1 }
      else readRegion t) = u
    have hsame : u.uncorrected = t.uncorrected := by
      rw [← hregion, ← hu]
      split <;> rfl
    have hstop : retryable u result = false :=
      (field_of_uncorrected (retryable · result) hsame).trans hretry
    refine ⟨u, hsame, Or.inr ?_⟩
    simp only [hstop, Bool.false_eq_true, and_false, if_false]
    rw [field_of_uncorrected (failure · result a.message) hsame]

/-! ## Attempts and runs -/

/-- A transfer to be started from its first byte. -/
structure Unresumed (t₀ : Transfer) (s : Live β) : Prop where
  waiting : s.Waiting
  resumed_eq : s.transfer.resumed = 0
  resumeEtag_eq : s.transfer.resumeEtag = []
  planned_eq : s.transfer.planned = t₀.planned

theorem Response.Honours.of_planned {object : List β} {met : Bool} {t t' : Transfer}
    {r : Response β} (h : r.Honours object met t) (hplan : t'.planned = t.planned) :
    r.Honours object met t' := by
  have hoffset : t'.offset = t.offset := field_of_planned (·.offset) hplan
  have hlength : t'.length = t.length := field_of_planned (·.length) hplan
  have hmatch : t'.ifMatch = t.ifMatch := field_of_planned (·.ifMatch) hplan
  cases h with
  | failed hmet hne hcode => exact .failed hmet (by rw [hmatch]; exact hne) hcode
  | unsatisfiable hmet hpast hcode => exact .unsatisfiable hmet (by rw [hoffset]; exact hpast) hcode
  | ranged hmet hin hcode hvalue hc hfirst hlast htotal hbody htransformed hpin =>
      refine .ranged hmet ?_ hcode hvalue hc ?_ ?_ ?_ ?_ htransformed ?_
      · rw [hoffset]
        exact hin
      · rw [hoffset]
        exact hfirst
      · rw [hoffset, hlength]
        exact hlast
      · rw [hoffset, hlength]
        exact htotal
      · rw [hoffset, hlength]
        exact hbody
      · rw [hmatch]
        exact hpin

theorem Loaded.of_planned {object : List β} {t t' : Transfer} {s : Live β}
    (h : Loaded object t s) (hplan : t'.planned = t.planned) : Loaded object t' s := by
  have hoffset : t'.offset = t.offset := field_of_planned (·.offset) hplan
  have hlength : t'.length = t.length := field_of_planned (·.length) hplan
  have hparts : t'.parts = t.parts := field_of_planned (·.parts) hplan
  refine ⟨?_, ?_, ?_⟩
  · rw [hparts]
    exact h.parts_eq
  · rw [hoffset, hlength]
    exact h.received_eq
  · rw [hoffset, hparts]
    exact h.cells

section Run

variable [Octet β] {object : List β} {met : Bool} {t₀ : Transfer}

/-- What the attempt leaves of its last response goes to the message loop. -/
theorem attempt_last {curl : Libcurl} (options : ClientOptions) {a : Attempt β} {s : Live β}
    {before : List (Response β)} {r : Response β} (hresponses : a.responses = before ++ [r])
    (hpass : ∀ b ∈ before, b.Passes curl a) (hresult : a.result = .ok) (hs : Unresumed t₀ s) :
    ∃ s₁, s₁.Stored ∧ s₁.transfer.resumed = 0 ∧ s₁.transfer.resumeEtag = [] ∧
      s₁.transfer.planned = t₀.planned ∧ s₁.transfer.regionRetried = s.transfer.regionRetried ∧
      attempt curl options a s = complete options a r.code
        (if (feedResponse curl r s₁).2 then .ok else .writeError) (feedResponse curl r s₁).1 := by
  have hst := start_started options a hs.waiting
  have hfields : (start options a s).transfer.http = a.http ∧
      (start options a s).transfer.requestUrl = a.requestUrl ∧
      (start options a s).transfer.regionRetried = s.transfer.regionRetried := by
    obtain ⟨sink, hsink, -⟩ := ensureSink_remote hs.waiting.remote
    simp only [start, hsink, Live.update]
    split <;> exact ⟨rfl, rfl, rfl⟩
  have hawait : Awaiting (start options a s).transfer (start options a s) :=
    ⟨hst.stored, hst.resumed_eq.trans hs.resumed_eq, rfl⟩
  obtain ⟨s₁, hs₁, hfed⟩ := feedAttempt_last hpass hfields.1 hfields.2.1 hawait r
  refine ⟨s₁, hs₁.stored, hs₁.resumed_eq, ?_, ?_, ?_, ?_⟩
  · rw [field_of_core (·.resumeEtag) hs₁.core_eq, hst.resumeEtag_eq]
    exact hs.resumeEtag_eq
  · exact (planned_of_core hs₁.core_eq).trans (hst.planned_eq.trans hs.planned_eq)
  · rw [field_of_core (·.regionRetried) hs₁.core_eq]
    exact hfields.2.2
  · simp only [attempt, perform, hresponses, hfed, hresult]
    rfl

/-- An answer that refuses the request settles the transfer, or names a region. -/
theorem refusal_settles (curl : Libcurl) (options : ClientOptions) {a : Attempt β}
    (htime : a.deadlineExpired = false) (hremote : t₀.locator.backend ≠ .file) {r : Response β}
    (hplain : r.Plain) {s₁ : Live β} (hs₁ : s₁.Stored) (hres : s₁.transfer.resumed = 0)
    (hetag : s₁.transfer.resumeEtag = []) (hplan : s₁.transfer.planned = t₀.planned)
    (hcode : r.code = 412 ∧ t₀.ifMatch ≠ [] ∨ r.code = 416)
    (houtcome : ∀ p ∈ t₀.parts, conditionalOutcome object met (t₀.offset + p.relativeOffset) p.length =
      (Detail.statusForHttp r.code, 0, [])) :
    let x := feedResponse curl r s₁
    let outcome := complete options a r.code (if x.2 then .ok else .writeError) x.1
    Settles object met t₀ outcome ∨ ∃ s', outcome = .again s' ∧ Unresumed t₀ s' ∧
      s₁.transfer.regionRetried = false ∧ s'.transfer.regionRetried = true := by
  have h400 : 400 ≤ r.code := by omega
  have hrefused := refused_answer curl hs₁ hplain h400
  have hstored := (feedResponse_stored curl r hs₁).settled r.code
  have hawait : Awaiting s₁.transfer (feedResponse curl r s₁).1 :=
    Awaiting.response ⟨hs₁, hres, rfl⟩ curl r
  simp only
  generalize feedResponse curl r s₁ = x at hrefused hstored hawait ⊢
  have hmatch : (settleStatus r.code x.1.transfer).ifMatch = t₀.ifMatch := by
    rw [field_of_settled (·.ifMatch) r.code x.1.transfer, field_of_core (·.ifMatch) hawait.core_eq]
    exact field_of_planned (·.ifMatch) hplan
  have hplan' : (settleStatus r.code x.1.transfer).planned = t₀.planned := by
    rw [field_of_settled (·.planned) r.code x.1.transfer, planned_of_core hawait.core_eq, hplan]
  have hresult : (if x.2 then CurlCode.ok else .writeError) = .ok ∨
      (if x.2 then CurlCode.ok else .writeError) = .writeError := by
    cases x.2 with
    | true => exact Or.inl rfl
    | false => exact Or.inr rfl
  generalize (if x.2 then CurlCode.ok else .writeError) = result at hresult ⊢
  have hfail : succeeded (settleStatus r.code x.1.transfer) result = false := by
    by_contra hyes
    have hok := (succeeded_iff.mp (by simpa using hyes)).2.1
    rw [hrefused.status_eq, isSuccess, Bool.and_eq_true, decide_eq_true_eq, decide_eq_true_eq] at hok
    omega
  have hcredentials : (settleStatus r.code x.1.transfer).credentialsExpired = false := by
    rw [Transfer.credentialsExpired, hrefused.status_eq]
    rcases hcode with ⟨h, -⟩ | h <;> rw [h] <;> rfl
  have hretry := hrefused.retryable_eq (by rw [hmatch]; exact hcode) hresult
  have hpin : r.code = 412 → (settleStatus r.code x.1.transfer).ifMatch ≠ [] := by
    intro h412
    rw [hmatch]
    exact (hcode.resolve_right (by omega)).2
  have hfailure := hrefused.failure_eq h400 hpin result a.message
  obtain ⟨t', hsame, hdone⟩ := complete_refused options r.code hfail htime hcredentials hretry
  have hplanned : t'.planned = t₀.planned := (planned_of_uncorrected hsame).trans hplan'
  rcases hdone with ⟨hagain, hfirst, hsecond⟩ | hfinish
  · refine Or.inr ⟨_, hagain, ⟨?_, ?_, ?_, hplanned⟩, ?_, hsecond⟩
    · have hwaits : Live.Waiting { x.1.settled r.code with transfer := t' } := by
        refine waiting_corrected hstored ?_ hsame
        show (settleStatus r.code x.1.transfer).locator.backend ≠ .file
        rw [field_of_planned (·.locator) hplan']
        exact hremote
      exact hwaits
    · show t'.resumed = 0
      rw [field_of_uncorrected (·.resumed) hsame, field_of_settled (·.resumed) r.code x.1.transfer]
      exact hawait.resumed_eq
    · show t'.resumeEtag = []
      rw [field_of_uncorrected (·.resumeEtag) hsame,
        field_of_settled (·.resumeEtag) r.code x.1.transfer,
        field_of_core (·.resumeEtag) hawait.core_eq]
      exact hetag
    · rw [← hfirst]
      exact (field_of_core (·.regionRetried) hawait.core_eq).symm
  · refine Or.inl ⟨_, _, _, hfinish, field_of_planned (·.parts) hplanned, fun p hp => ?_⟩
    rw [houtcome p hp, seen_of_failed (failure_ne_ok _ _ _), hfailure]

/-- One attempt at a server that honours the request. -/
theorem attempt_settles (curl : Libcurl) (options : ClientOptions) (ht₀ : t₀.Fresh)
    {a : Attempt β} (ha : a.Honours curl object met t₀) {s : Live β} (hs : Unresumed t₀ s) :
    Settles object met t₀ (attempt curl options a s) ∨
      ∃ s', attempt curl options a s = .again s' ∧ Unresumed t₀ s' ∧
        s.transfer.regionRetried = false ∧ s'.transfer.regionRetried = true := by
  obtain ⟨before, r, hresponses, hpass, hplain, hanswer⟩ := ha.answered
  obtain ⟨s₁, hs₁, hres, hetag, hplan, hregion, hattempt⟩ :=
    attempt_last options hresponses hpass ha.result_eq hs
  rw [hattempt, ← hregion]
  have houtside : ∀ p ∈ t₀.parts, 1 ≤ p.length := ht₀.layout.part_pos
  cases hanswer with
  | failed hmet hne hcode =>
      refine refusal_settles curl options ha.in_time ht₀.remote hplain hs₁ hres hetag hplan
        (Or.inl ⟨hcode, hne⟩) fun p hp => ?_
      rw [hmet, hcode]
      rfl
  | unsatisfiable hmet hpast hcode =>
      refine refusal_settles curl options ha.in_time ht₀.remote hplain hs₁ hres hetag hplan
        (Or.inr hcode) fun p hp => ?_
      rw [hmet, hcode]
      exact readOutcome_past (by omega) (houtside p hp)
  | ranged hmet hin hcode hvalue hc hfirst hlast htotal hbody htransformed hpin =>
      have hranged : r.Honours object true t₀ :=
        .ranged rfl hin hcode hvalue hc hfirst hlast htotal hbody htransformed hpin
      obtain ⟨hok, hloaded⟩ := ranged_answer curl hs₁ hres hetag
        ((field_of_planned (·.scratch) hplan).trans ht₀.scratch_eq) hplain
        (hranged.of_planned hplan) (by rw [field_of_planned (·.offset) hplan]; exact hin)
      have hdone : complete options a r.code (if (feedResponse curl r s₁).2 then .ok else .writeError)
          (feedResponse curl r s₁).1 =
          .finish .ok [] ((feedResponse curl r s₁).1.settled r.code) := by
        simp only [complete, hok, if_true]
        rfl
      rw [hdone, hmet]
      exact Or.inl ((hloaded.of_planned hplan.symm).settles ht₀.layout [])

/-- At a server that honours every attempt, a transfer settles within two. -/
theorem run_settles (curl : Libcurl) (options : ClientOptions) (ht₀ : t₀.Fresh)
    (m : Memory Addr β) {attempts : List (Attempt β)} (hlen : 2 ≤ attempts.length)
    (ha : ∀ a ∈ attempts, a.Honours curl object met t₀) :
    Settles object met t₀ (run curl options attempts ⟨t₀, m, []⟩) := by
  match attempts, hlen with
  | a :: b :: rest, _ =>
      have hs : Unresumed t₀ ⟨t₀, m, []⟩ :=
        ⟨ht₀.waiting m, ht₀.resumed_eq, ht₀.resumeEtag_eq, rfl⟩
      have hfinished : ∀ {c : Attempt β} {cs : List (Attempt β)} {s : Live β},
          Settles object met t₀ (attempt curl options c s) →
          Settles object met t₀ (run curl options (c :: cs) s) := by
        rintro c cs s ⟨status, detail, s', hfinish, hrest⟩
        exact ⟨status, detail, s', by simp only [run, hfinish], hrest⟩
      rcases attempt_settles curl options ht₀ (ha a (by simp)) hs with
        hfirst | ⟨s', hagain, hs', -, htried⟩
      · exact hfinished hfirst
      · have hnext : run curl options (a :: b :: rest) ⟨t₀, m, []⟩ =
            run curl options (b :: rest) s' := by
          rw [run, hagain]
        rw [hnext]
        rcases attempt_settles curl options ht₀ (ha b (by simp)) hs' with
          hsecond | ⟨_, _, _, hno, _⟩
        · exact hfinished hsecond
        · rw [htried] at hno
          cases hno

end Run

end Karu
