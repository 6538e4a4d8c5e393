/-
# `Karu.Runtime.Statuses` — the statuses a read is accepted with

A probe takes its bytes from a `200` or a `206` and from nothing else.  A batch
transfer is meant to, but neither `write_callback` nor `succeeded` names those
two: any status from `200` to `299` passes for a success, a body that comes
with it is stored from the first byte on as if it were the range that was
asked for, and no body at all makes an empty object of it.
`accepted_statuses` puts the two side by side and says exactly when the batch
transfer does as the probe.
-/
import Karu.Runtime.Ending
import Karu.Runtime.ProbeAnswers

namespace Karu

open Base

/-! ## Probes -/

theorem ProbeTurn.settle_reply {turn : ProbeTurn} {status : Int} {code : CurlCode}
    {p : ProbeState} {loop : ProbeLoop} {reply : RangeReply}
    (h : turn.settle status code p loop = .reply reply) : status = 200 ∨ status = 206 := by
  have hretry : turn.retryOrFail status code p loop ≠ .reply reply := by
    simp only [ProbeTurn.retryOrFail]
    repeat' split
    all_goals exact ProbeOutcome.noConfusion
  simp only [ProbeTurn.settle] at h
  split at h
  · cases h
  · split at h
    · cases h
    · split at h
      · cases h
      · split at h
        · rename_i h206
          exact Or.inr h206.2
        · split at h
          · rename_i h200
            exact Or.inl h200.2
          · split at h
            · cases h
            · exact absurd h hretry

/-- The answer to a `416` has no bytes. -/
theorem unsatisfiedReply_got {range : ByteRange} {p : ProbeState} {reply : RangeReply}
    (h : unsatisfiedReply range p = some reply) : reply.got = 0 := by
  unfold unsatisfiedReply at h
  repeat' split at h
  all_goals cases h
  all_goals rfl

/-- `get_range` has bytes to report for a `200` and a `206` only. -/
theorem ProbeTurn.judge_reply {turn : ProbeTurn} {info : Info} {code : CurlCode} {p : ProbeState}
    {reply : RangeReply} (h : turn.judge info code p = .reply reply) (hgot : 0 < reply.got) :
    info.responseCode = 200 ∨ info.responseCode = 206 := by
  simp only [ProbeTurn.judge, ProbeTurn.correct] at h
  split at h
  · cases h
  · split at h
    · cases h
    · split at h
      · cases h
      · split at h
        · split at h
          · cases h
          · split at h
            · rename_i hreply
              cases h
              rw [unsatisfiedReply_got hreply] at hgot
              cases hgot
            · exact settle_reply h
        · exact settle_reply h

/-- A status that is a success, and neither of the two. -/
structure UnknownSuccess (status : Int) : Prop where
  success : isSuccess status = true
  not_whole : status ≠ 200
  not_partial : status ≠ 206

/-- What fails below `300` is no HTTP error. -/
theorem ProbeTurn.retryOrFail_below (turn : ProbeTurn) {status : Int} (hlow : status < 300)
    {code : CurlCode} {p : ProbeState} {detail : Text} (loop : ProbeLoop) :
    turn.retryOrFail status code p loop ≠ .failed .errHttp detail := by
  intro h
  have hlow' : ¬ (300 : Int) ≤ status := by omega
  simp only [ProbeTurn.retryOrFail, if_neg hlow'] at h
  generalize (if unreachable code = true then 1 else 0) = more at h
  split at h
  · cases h
  · split at h
    · split at h
      · cases h
      · cases h
    · split at h
      · cases h
      · cases h

/-- How `get_range` takes such a status: the final state and libcurl's verdict decide. -/
theorem ProbeTurn.correct_unknown (turn : ProbeTurn) {status : Int} (h : UnknownSuccess status)
    (code : CurlCode) {p : ProbeState} (hopen : p.redirectBlocked = false) :
    (∃ detail, turn.correct status code p = .failed .errHttp detail) ↔
      code = .ok ∧ (Detail.transformed p.encoding = true ∨ p.versionChanged = false) := by
  have hrange : 200 ≤ status ∧ status < 300 := by
    simpa only [isSuccess, Bool.and_eq_true, decide_eq_true_eq] using h.success
  have hexpired : ∀ body, Detail.credentialsExpired turn.backend status body = false := by
    intro body
    have h401 : status ≠ 401 := by omega
    have h403 : status ≠ 403 := by omega
    simp [Detail.credentialsExpired, h401, h403]
  have hsettle : turn.correct status code p = turn.settle status code p turn.loop := by
    simp only [ProbeTurn.correct, hopen, Bool.false_eq_true, if_false]
    rw [if_neg (fun hno => absurd hno.1 (by omega)), if_neg (fun hno => by simp [hexpired] at hno),
      if_neg (fun hno => absurd hno.2 (by omega))]
  rw [hsettle]
  simp only [ProbeTurn.settle]
  rw [if_neg (fun hno => h.not_partial hno.1)]
  by_cases hcode : code = .ok
  · subst hcode
    cases hplain : Detail.transformed p.encoding with
    | true =>
        rw [if_pos ⟨rfl, h.success, rfl⟩]
        exact iff_of_true ⟨_, rfl⟩ ⟨rfl, Or.inl rfl⟩
    | false =>
        rw [if_neg (fun hno => by cases hno.2.2)]
        cases hchanged : p.versionChanged with
        | true =>
            rw [if_pos ⟨rfl, rfl⟩]
            refine iff_of_false ?_ ?_
            · rintro ⟨_, hno⟩
              cases hno
            · rintro ⟨-, hno | hno⟩
              · cases hno
              · cases hno
        | false =>
            rw [if_neg (fun hno => by cases hno.2), if_neg (fun hno => h.not_partial hno.2),
              if_neg (fun hno => h.not_whole hno.2), if_pos ⟨rfl, h.success⟩]
            exact iff_of_true ⟨_, rfl⟩ ⟨rfl, Or.inr rfl⟩
  · -- a transfer that broke off is retried, or fails as one that libcurl gave up
    refine iff_of_false ?_ fun hno => hcode hno.1
    rw [if_neg (fun hno => hcode hno.1), if_neg (fun hno => hcode hno.1),
      if_neg (fun hno => hcode hno.1), if_neg (fun hno => hcode hno.1),
      if_neg (fun hno => hcode hno.1)]
    rintro ⟨detail, hno⟩
    exact turn.retryOrFail_below hrange.2 turn.loop hno

variable {β : Type}

/-- The response has an `ETag` that is not the one asked for, and does not say that its body is
transformed. -/
def Response.disowns (ifMatch : Text) (r : Response β) : Bool :=
  !Detail.transformed (encodingOf r.fields) && isStrongEtag ifMatch && !(etagOf r.fields).isEmpty &&
    etagOf r.fields != ifMatch

/-- `start_body` has no place for such a status. -/
theorem startBody_unknown {i : Info} (h : UnknownSuccess i.responseCode) (p : ProbeState) :
    startBody i p =
      ({ p with
        versionChanged := p.versionChanged ||
          (!Detail.transformed p.encoding && p.contradictsPin) }, false) := by
  unfold startBody
  cases hplain : Detail.transformed p.encoding with
  | true => simp
  | false =>
      cases hpin : p.contradictsPin with
      | true => simp
      | false => simp [h.not_whole, h.not_partial]

/-- Without a redirect the guard has nothing to do. -/
theorem guardStops_idle (curl : Libcurl) (http : HttpRequestOptions) (url : Text) {status : Int}
    (hstay : isRedirect status = false) : ∀ (lines : List Text),
    (∀ l ∈ lines, isStatusLine l = false) → guardStops curl http url status lines = false := by
  intro lines hlines
  induction lines with
  | nil => rfl
  | cons line lines ih =>
      rw [guardStops, hlines line List.mem_cons_self, if_neg Bool.false_ne_true,
        ih fun l hl => hlines l (List.mem_cons_of_mem line hl)]
      simp [stopsAt, hstay]

theorem Response.Plain.passes {r : Response β} (hplain : r.Plain) (h : UnknownSuccess r.code)
    (curl : Libcurl) (http : HttpRequestOptions) (url : Text) :
    guardStops curl http url 0 r.lines = false := by
  have hrange := h.success
  simp only [isSuccess, Bool.and_eq_true, decide_eq_true_eq] at hrange
  have hstay : isRedirect (responseStatus r.statusLine) = false := by
    simp only [isRedirect, Bool.and_eq_false_iff, decide_eq_false_iff_not]
    rcases hplain with hzero | hsame
    · omega
    · omega
  rw [Response.lines, guardStops, if_pos r.status_first]
  exact guardStops_idle curl http url hstay r.fields r.status_once

/-- What `start_body` notes about the version, and how `get_range` takes it. -/
theorem ProbeGreeted.disowns_iff {r : Response β} {p₀ p q : ProbeState} (hp : ProbeGreeted r p₀ p)
    (hencoding : q.encoding = p.encoding)
    (hchanged : q.versionChanged = (p.versionChanged ||
      (!Detail.transformed p.encoding && p.contradictsPin))) :
    Detail.transformed q.encoding = true ∨ q.versionChanged = false ↔
      r.disowns p₀.ifMatch = false := by
  have hpin : p.ifMatch = p₀.ifMatch := congrArg (·.ifMatch) hp.headed.settings_eq
  have hdisowns : r.disowns p₀.ifMatch = (!Detail.transformed p.encoding && p.contradictsPin) := by
    rw [Response.disowns, ProbeState.contradictsPin, hp.headed.encoding_eq, hp.headed.etag_eq, hpin]
    simp only [Bool.and_assoc]
  rw [hdisowns, hencoding, hchanged, hp.unchanged]
  cases Detail.transformed p.encoding with
  | true => simp
  | false => simp

section
variable [Octet β]

/-- Such a response is taken up to its trailers where it has no body, and up to its body
otherwise. -/
theorem probeTrailed_unknown (curl : Libcurl) {r : Trailed β} (h : UnknownSuccess r.code)
    (hplain : r.Plain) {p₀ : ProbeState} {s : Probing β}
    (hs : s.state.resetResponse = p₀.resetResponse) :
    ∃ p, ProbeGreeted r.heading p₀ p ∧
      (r.chunks = [] ∧ probeTrailed curl r s = (⟨p, s.memory⟩, true) ∨
        r.chunks ≠ [] ∧ probeTrailed curl r s =
          (⟨{ (startBody r.info { p with started := true }).1 with cutShort := true }, s.memory⟩,
            false)) := by
  have hguard := (show r.heading.Plain from hplain).passes h curl p₀.http p₀.originalUrl
  obtain ⟨hgo, hp⟩ := feed_greeted curl r.heading hs hguard
  refine ⟨_, hp, ?_⟩
  by_cases hchunks : r.chunks = []
  · refine Or.inl ⟨hchunks, ?_⟩
    have hcut : r.heading.lines = r.lines ++ r.trailers := by
      rw [Response.lines, Trailed.heading_empty hchunks]
      rfl
    have hnow : r.heading.now = r.now := rfl
    rw [hcut, hnow, feed_append] at hgo ⊢
    simp only [probeTrailed, probeResponse, feed_probeLine, hchunks, feed_nil]
    generalize feed (probeHeaderCallback curl r.now) r.lines s.state = x at hgo ⊢
    obtain ⟨p, accepted⟩ := x
    cases accepted with
    | false => cases hgo
    | true =>
        simp only [if_true] at hgo ⊢
        rw [hgo]
  · refine Or.inr ⟨hchunks, ?_⟩
    have hlines : r.heading.lines = r.lines := by rw [Trailed.heading_body hchunks]
    have hnow : r.heading.now = r.now := rfl
    rw [hlines, hnow] at hgo hp ⊢
    have hend := feed_probeEnd r.toResponse hp.headed.waiting hp.headed.stored_eq s.memory
    simp only [probeTrailed, probeResponse, feed_probeLine, hgo, if_true]
    generalize (feed (probeHeaderCallback curl r.now) r.lines s.state).1 = p at hend ⊢
    generalize feed (probeBodyCallback r.info) r.chunks ⟨p, s.memory⟩ = x at hend ⊢
    have hno : ∀ {p' : ProbeState},
        startBody r.info { p with started := true } ≠ (p', true) := by
      intro p' hyes
      rw [startBody_unknown (i := r.info) h] at hyes
      cases hyes
    cases hend with
    | empty hnil => exact absurd hnil hchunks
    | error hhigh =>
        have hhigh : 300 ≤ r.code := hhigh
        have hlow := h.success
        simp only [isSuccess, Bool.and_eq_true, decide_eq_true_eq] at hlow
        omega
    | refused _ _ hrefused =>
        rw [hrefused]
        rfl
    | whole _ _ hyes => exact absurd hyes hno
    | cut _ _ hyes => exact absurd hyes hno

/-- The state and libcurl's verdict once a response has been taken that has such a status. -/
theorem probeFinal_unknown (curl : Libcurl) {r : Trailed β} (h : UnknownSuccess r.code)
    (hplain : r.Plain) {p₀ : ProbeState} {s : Probing β}
    (hs : s.state.resetResponse = p₀.resetResponse) (result : CurlCode) :
    (probeCode result (probeTrailed curl r s) = .ok ↔ (r.chunks = [] → result = .ok)) ∧
      (probeFinal r.heading result (probeTrailed curl r s)).state.redirectBlocked = false ∧
      ((r.chunks = [] → result = .ok) →
        (Detail.transformed
            (probeFinal r.heading result (probeTrailed curl r s)).state.encoding = true ∨
          (probeFinal r.heading result (probeTrailed curl r s)).state.versionChanged = false ↔
        r.heading.disowns p₀.ifMatch = false)) := by
  obtain ⟨p, hp, hcases⟩ := probeTrailed_unknown curl h hplain hs
  have hstart := startBody_unknown (i := r.info) h { p with started := true }
  have hsuccess : isSuccess r.heading.info.responseCode = true := h.success
  rcases hcases with ⟨hchunks, hend⟩ | ⟨hchunks, hend⟩
  · rw [hend]
    have hcode : probeCode result (⟨p, s.memory⟩, true) = result := probeCode_accepted rfl hp.uncut
    have hfinal : (probeFinal r.heading result (⟨p, s.memory⟩, true)).state =
        if result = .ok then (startBody r.info { p with started := true }).1 else p := by
      simp only [probeFinal, hcode, startEmpty, hsuccess, hp.headed.waiting, and_true]
      rfl
    rw [hcode, hfinal, hstart]
    refine ⟨⟨fun hok _ => hok, fun hok => hok hchunks⟩, ?_, fun hresult => ?_⟩
    · split
      · exact hp.unblocked
      · exact hp.unblocked
    · rw [if_pos (hresult hchunks)]
      exact hp.disowns_iff rfl rfl
  · rw [hend, hstart]
    have hcode : ∀ q : ProbeState, q.cutShort = true →
        probeCode result ((⟨q, s.memory⟩ : Probing β), false) = .ok := by
      intro q hcut
      simp [probeCode, deliveredCode, hcut]
    refine ⟨?_, ?_, fun _ => ?_⟩
    · exact iff_of_true (hcode _ rfl) fun hnil => absurd hnil hchunks
    · rw [probeFinal_started (x := (⟨_, s.memory⟩, false)) rfl]
      exact hp.unblocked
    · rw [probeFinal_started (x := (⟨_, s.memory⟩, false)) rfl]
      exact hp.disowns_iff rfl rfl

/-- A probe has bytes to report for a `200` and a `206` only. -/
theorem getRange_reply (curl : Libcurl) (options : ClientOptions) (backend : Backend)
    (range : ByteRange) (ifMatch : Text) {reply : RangeReply} {last : Option (Trailed β)}
    {m m' : Memory Unit β} (hgot : 0 < reply.got) (requests : List (ProbeRequest β))
    (loop : ProbeLoop)
    (h : getRange curl options backend range ifMatch requests loop m = (.reply reply, last, m')) :
    ∃ r ∈ last, r.code = 200 ∨ r.code = 206 := by
  obtain ⟨-, q, -, turn, m₀, x, -, -, hjudge, hlast, -⟩ :=
    getRange_turn options backend ifMatch h (Or.inr ⟨reply, rfl⟩)
  have hknown := ProbeTurn.judge_reply hjudge hgot
  rw [hlast] at hknown
  cases last with
  | none =>
      rcases hknown with hknown | hknown
      · cases hknown
      · cases hknown
  | some r => exact ⟨r, rfl, hknown⟩

/-- Any other success is refused with `KARU_ERR_HTTP`, unless it breaks off without a body or its
`ETag` contradicts `if_match`. -/
theorem getRange_unknown (curl : Libcurl) (options : ClientOptions) (backend : Backend)
    (range : ByteRange) (ifMatch : Text) (requests : List (ProbeRequest β)) (loop : ProbeLoop)
    (m m' : Memory Unit β) (outcome : ProbeOutcome) (r : Trailed β)
    (h : getRange curl options backend range ifMatch requests loop m = (outcome, some r, m'))
    (hcode : UnknownSuccess r.code) (hplain : r.Plain) :
    ∃ q ∈ requests, r ∈ q.responses ∧ ((∃ detail, outcome = .failed .errHttp detail) ↔
      (r.chunks = [] → q.result = .ok) ∧ r.heading.disowns ifMatch = false) := by
  obtain ⟨-, q, hq, turn, m₀, x, hrange, rfl, rfl, hlast, -⟩ :=
    getRange_turn options backend ifMatch h (Or.inl (Option.some_ne_none r))
  have hne : q.responses ≠ [] := by
    intro hnil
    rw [hnil] at hlast
    cases hlast
  obtain ⟨r', hr', s, hs, hend⟩ := feed_ends hne (f := probeStep curl)
    (P := fun x : Probing β × Option (Trailed β) =>
      x.1.state.resetResponse = (probeStart options range ifMatch q).resetResponse)
    (fun r _ s hs => (probeTrailed_reset r s.1).trans hs)
    (s := (⟨probeStart options range ifMatch q, m₀⟩, none)) rfl
  have hattempt : probeAttempt curl q.responses ⟨probeStart options range ifMatch q, m₀⟩ =
      (((probeTrailed curl r' s.1).1, some r'), (probeTrailed curl r' s.1).2) := hend
  rw [hattempt] at hlast ⊢
  cases hlast
  obtain ⟨hok, hopen, hfinal⟩ := probeFinal_unknown curl hcode hplain hs q.result
  refine ⟨q, hq, hr', ?_⟩
  have hjudge := turn.correct_unknown hcode (probeCode q.result (probeTrailed curl r s.1)) hopen
  refine hjudge.trans ?_
  rw [hok]
  exact and_congr_right hfinal

end

/-! ## Batch transfers -/

/-- The tag of a response is not the one the transfer is pinned to. -/
def contradicts (r : Response β) (t : Transfer) : Bool :=
  isStrongEtag (versionPin t) && !(etagOf r.fields).isEmpty && etagOf r.fields != versionPin t

/-- A status other than `200` and `206` passes for a success. -/
def passesUnknown (a : Attempt β) (r : Response β) (t : Transfer) : Bool :=
  isSuccess r.code && r.code != 200 && r.code != 206 &&
    !Detail.transformed (encodingOf r.fields) && (r.chunks.isEmpty || !contradicts r t) &&
    (a.result == .ok || decide (t.length - t.resumed ≤ r.body.length))

/-- The status a response leaves is libcurl's, or a redirect that was blocked. -/
theorem ResponseEnd.status_eq {r : Response β} {s s' : Live β} {accepted : Bool}
    (h : ResponseEnd r s (s', accepted)) (hplain : r.Plain) :
    (settleStatus r.code s'.transfer).httpStatus = r.code := by
  cases h with
  | blocked hrew => exact hplain.settled hrew.status_eq
  | body hrew _ _ hbody =>
      cases hbody with
      | empty => exact hplain.settled hrew.status_eq
      | refused => exact settled_of_eq (checkStatus_keeps _ _).2.1
      | error _ _ _ hcap =>
          exact settled_of_eq ((field_of_uncaptured (·.httpStatus) hcap.transfer_eq).trans
            (checkStatus_keeps _ _).2.1)
      | payload _ _ _ hread => exact settled_of_eq hread.status_eq

/-- The pin is compared with the tag of the response as the body begins. -/
theorem Judged.contradictsPin_eq {r : Response β} {s s₁ : Live β}
    (hj : Judged r s.transfer s₁.transfer) (hrew : Rewound r s s₁) :
    contradictsPin s₁.transfer = contradicts r s.transfer := by
  unfold contradictsPin contradicts
  rw [hj.etag_eq, show versionPin s₁.transfer = versionPin s.transfer from
    field_of_core versionPin hrew.core_eq]

/-- Whether a success other than `200` and `206` passes. -/
theorem SuccessEnd.unknown {a : Attempt β} {r : Response β} {s s' : Live β} {accepted : Bool}
    (h : SuccessEnd r s (s', accepted)) (hs : s.Stored) (hplain : r.Plain)
    (hok : isSuccess r.code = true) (h200 : r.code ≠ 200) (h206 : r.code ≠ 206) :
    succeeded (settleStatus r.code s'.transfer) (if accepted then a.result else .writeError) = true ↔
      passesUnknown a r s.transfer = true := by
  have hj := h.judged
  have hsat : (settleStatus r.code s'.transfer).satisfied = s'.transfer.satisfied :=
    field_of_settled (·.satisfied) r.code s'.transfer
  have hsucceeded : succeeded (settleStatus r.code s'.transfer)
      (if accepted then a.result else .writeError) = true ↔
      ((if accepted then a.result else .writeError) = .ok ∨ s'.transfer.satisfied = true) ∧
        Detail.transformed (encodingOf r.fields) = false := by
    rw [succeeded_iff, h.status_eq hplain, hj.encoding_eq, hsat, hok]
    simp [h206]
  have hpasses : passesUnknown a r s.transfer = true ↔
      (r.chunks = [] ∨ contradicts r s.transfer = false) ∧
        (a.result = .ok ∨ s.transfer.length - s.transfer.resumed ≤ r.body.length) ∧
        Detail.transformed (encodingOf r.fields) = false := by
    simp only [passesUnknown, hok, Bool.true_and, Bool.and_eq_true, bne_iff_ne, Bool.or_eq_true,
      List.isEmpty_iff, Bool.not_eq_true', beq_iff_eq, decide_eq_true_eq]
    tauto
  rw [hsucceeded, hpasses]
  have hlt := hs.resumed_lt
  cases h with
  | empty hnil hrew =>
      have hbody : r.body.length = 0 := by simp [Response.body, hnil]
      have hno : ¬ s.transfer.length - s.transfer.resumed ≤ r.body.length := by omega
      simp [hrew.unsatisfied, hnil, hno]
  | @refused s₁ hne hrew hj₁ hrefused =>
      have hunsat : (checkStatus r.info s₁.transfer).1.satisfied = false :=
        (checkStatus_keeps r.info s₁.transfer).2.2.1.trans hrew.unsatisfied
      refine iff_of_false (fun hl => ?_) fun hr => ?_
      · rcases hl.1 with hcode | hdone
        · cases hcode
        · exact absurd (hunsat.symm.trans hdone) (by decide)
      · obtain ⟨hagrees, -, hclean⟩ := hr
        have hagrees := hagrees.resolve_left hne
        have hcases := checkStatus_checked r.info s₁.transfer
        rw [← hj₁.contradictsPin_eq hrew] at hagrees
        rw [← hj₁.encoding_eq] at hclean
        generalize checkStatus r.info s₁.transfer = y at hcases hrefused
        cases hcases with
        | transformed _ htr => exact absurd (hclean.symm.trans htr) (by decide)
        | contradicted _ _ hpin => exact absurd (hagrees.symm.trans hpin) (by decide)
        | misranged hcode => exact h206 hcode
        | entered =>
            rw [enter_other h200] at hrefused
            cases hrefused
  | @read s₁ s' _ hne hrew hj₁ hhead hgo hread hrefuse =>
      obtain ⟨hresumed, hskip⟩ := checkStatus_other hgo h200
      have hagrees : contradicts r s.transfer = false := by
        rw [← hj₁.contradictsPin_eq hrew]
        exact ((checkStatus_accepted hgo).2.1 hok).2
      have hlength : s'.transfer.length = s.transfer.length :=
        field_of_core (·.length) ((core_of_head hhead).trans hrew.core_eq)
      have hkept : (s₁.stream.take (checkStatus r.info s₁.transfer).1.resumed).length =
          s.transfer.resumed := by
        rw [hresumed, hrew.resumed_eq, List.length_take, hrew.stream_eq, List.length_take,
          hs.stream_length]
        have := hs.resumed_le
        omega
      have hfull : s'.transfer.satisfied = true ↔
          s.transfer.length - s.transfer.resumed ≤ r.body.length := by
        rw [hread.stored.satisfied_iff, hread.received_eq, hkept, hskip, hrew.skip_eq, hlength]
        omega
      have hcode : (if accepted then a.result else .writeError) = .ok ∨
          s'.transfer.satisfied = true ↔ a.result = .ok ∨ s'.transfer.satisfied = true := by
        cases accepted with
        | true => exact Iff.rfl
        | false => exact iff_of_true (Or.inr (hrefuse rfl)) (Or.inr (hrefuse rfl))
      rw [hcode, hfull]
      simp [hne, hagrees]

variable [Octet β]

/-- Probes and batch transfers side by side.  A probe reports bytes for a `200` or a `206` only,
and any other success as `KARU_ERR_HTTP`, exactly unless the response breaks off without a body or
`disowns` the pinned tag.  A run that ends on the response `r` accepts only those two, exactly
unless `r` is a success that `passesUnknown`. -/
theorem accepted_statuses (curl : Libcurl) (options : ClientOptions) {t₀ : Transfer}
    (ht : t₀.Fresh) (m : Memory Addr β) {attempts : List (Attempt β)} {a : Attempt β}
    {r : Response β} {s₁ : Live β}
    (hends : endsOn curl options attempts ⟨t₀, m, []⟩ = some (a, r, s₁)) (hplain : r.Plain) :
    (∀ backend range ifMatch (requests : List (ProbeRequest β)) loop d reply last d',
        getRange curl options backend range ifMatch requests loop d = (.reply reply, last, d') →
        0 < reply.got → ∃ r ∈ last, r.code = 200 ∨ r.code = 206) ∧
    (∀ backend range ifMatch (requests : List (ProbeRequest β)) loop d d' outcome r,
        getRange curl options backend range ifMatch requests loop d = (outcome, some r, d') →
        UnknownSuccess r.code → r.Plain →
        ∃ q ∈ requests, r ∈ q.responses ∧ ((∃ detail, outcome = .failed .errHttp detail) ↔
          (r.chunks = [] → q.result = .ok) ∧ r.heading.disowns ifMatch = false)) ∧
    (((run curl options attempts ⟨t₀, m, []⟩).status = some .ok → r.code = 200 ∨ r.code = 206) ↔
      passesUnknown a r s₁.transfer = false) := by
  refine ⟨fun backend range ifMatch requests loop d reply last d' h hgot =>
      getRange_reply curl options backend range ifMatch hgot requests loop h,
    getRange_unknown curl options, ?_⟩
  have hrun := run_ends ht.remote curl options attempts ⟨ht.waiting m, rfl⟩ hends
  have hend := feedResponse_end curl r hrun.begun.stored
  have hverdict := complete_verdict options a r.code
    (if (feedResponse curl r s₁).2 then a.result else .writeError) (feedResponse curl r s₁).1
  rw [← hrun.outcome_eq] at hverdict
  obtain ⟨status, detail, s, hfinish⟩ := hrun.finished
  have hok : (run curl options attempts ⟨t₀, m, []⟩).status = some .ok ↔
      succeeded (settleStatus r.code (feedResponse curl r s₁).1.transfer)
        (if (feedResponse curl r s₁).2 then a.result else .writeError) = true := by
    generalize run curl options attempts ⟨t₀, m, []⟩ = outcome at hverdict hfinish ⊢
    cases hverdict with
    | success h => exact iff_of_true rfl h
    | timeout _ h => exact iff_of_false (fun h => by cases h) (by rw [h]; decide)
    | corrected => cases hfinish
    | retried => cases hfinish
    | failed h => exact iff_of_false (fun h => failure_ne_ok _ _ _ (Option.some.inj h)) (by rw [h]; decide)
  rw [hok]
  generalize feedResponse curl r s₁ = x at hend ⊢
  obtain ⟨s', accepted⟩ := x
  have hstatus := hend.status_eq hplain
  by_cases hsuccess : isSuccess r.code = true
  · by_cases hknown : r.code = 200 ∨ r.code = 206
    · refine iff_of_true (fun _ => hknown) ?_
      rcases hknown with h | h <;> simp [passesUnknown, h]
    · rw [not_or] at hknown
      rw [(hend.success hplain hsuccess).unknown hrun.begun.stored hplain hsuccess hknown.1 hknown.2]
      simp [hknown]
  · refine iff_of_true (fun h => absurd ?_ hsuccess) (by simp [passesUnknown, hsuccess])
    have := (succeeded_iff.mp h).2.1
    rwa [hstatus] at this

/-- A proxy's copy of the whole object, under the status that says so. -/
def proxyCopy : Response UInt8 where
  code := 203
  statusLine := text "HTTP/1.1 203 Non-Authoritative Information\r\n"
  chunks := [[10, 11, 12, 13, 14, 15, 16, 17, 18, 19, 20]]

def copyAttempt : Attempt UInt8 where
  responses := [proxyCopy]

/-- Where the run begins: nine bytes from offset two on. -/
def copyStart : Live UInt8 := ⟨interruptedRead, ⟨fun _ _ => 0, []⟩, []⟩

/-- A part of the object, under the status it should have. -/
def rangedAnswer : Response UInt8 where
  code := 206
  statusLine := text "HTTP/1.1 206 Partial Content\r\n"
  fields := [text "Content-Range: bytes 2-7/8\r\n"]
  chunks := [[12, 13, 14, 15, 16, 17]]

def rangedAttempt : Attempt UInt8 where
  responses := [rangedAnswer]

theorem rangedAttempt_ends : endsOn .uncalled {} [rangedAttempt] copyStart =
    some (rangedAttempt, rangedAnswer, start {} rangedAttempt copyStart) := rfl

theorem accepted_statuses_ranged :
    passesUnknown rangedAttempt rangedAnswer (start {} rangedAttempt copyStart).transfer = false ∧
      ((run .uncalled {} [rangedAttempt] copyStart).status = some .ok →
        rangedAnswer.code = 200 ∨ rangedAnswer.code = 206) :=
  ⟨by decide, (accepted_statuses .uncalled {} interruptedRead_fresh _ rangedAttempt_ends
    (Or.inr (by decide))).2.2.mpr (by decide)⟩

/-- The bytes from offset zero on are delivered as those from offset two on. -/
theorem copyAttempt_succeeds :
    endsOn .uncalled {} [copyAttempt] copyStart =
        some (copyAttempt, proxyCopy, start {} copyAttempt copyStart) ∧
      proxyCopy.code = 203 ∧ interruptedRead.offset = 2 ∧
      (run .uncalled {} [copyAttempt] copyStart).status = some .ok ∧
      (run .uncalled {} [copyAttempt] copyStart).live.stream =
        [10, 11, 12, 13, 14, 15, 16, 17, 18] :=
  ⟨rfl, rfl, rfl, rfl, rfl⟩

end Karu
