/-
# `Karu.Runtime.ProbeAnswers` — a request of `get_range` that is answered

A server honours a request for a range that has no `If-Match`: where the range has
something of the object, the answer is a `206` with all there is of it, and where it
begins at the end or past it, a `416` that states the size (`Response.AnswersRange`).
Before that there may be interim responses and redirects that libcurl follows.

`get_range` then replies, and the tag of the reply is that of the answer.  It asks a
second time only where a `416` names another S3 region, and that once.
-/
import Karu.Runtime.RangeGrammar
import Karu.Runtime.ReplySize

namespace Karu

open Base

variable {β : Type}

/-! ## Answers -/

/-- The answer to an unconditional request for a range by position. -/
inductive Response.AnswersRange (object : List β) (range : ByteRange) (r : Response β) : Prop
  | unsatisfied {value : Text} : object.length ≤ range.first → r.code = 416 →
      contentRanges r.fields = [value] → contentRange value = none →
      parseUnsatisfiedContentRange value 0 = (true, object.length) →
      r.body.length ≤ drainLimit → r.AnswersRange object range
  | partly {value : Text} {c : ContentRange} : range.first < object.length → r.code = 206 →
      contentRanges r.fields = [value] → contentRange value = some c → c.first = range.first →
      c.last + 1 = min (range.first + range.length) object.length →
      c.total = some object.length → r.body = (object.drop range.first).take range.length →
      Detail.transformed (encodingOf r.fields) = false → r.AnswersRange object range

/-- The same with trailers, which say nothing about ranges. -/
structure Trailed.AnswersRange (object : List β) (range : ByteRange) (r : Trailed β) : Prop where
  answer : r.toResponse.AnswersRange object range
  rangeless : contentRanges r.trailers = []
  plain : r.code = 206 → Detail.transformed (encodingOf (r.fields ++ r.trailers)) = false

/-- libcurl goes on after this response: it has no body, and the redirect guard lets it pass. -/
def Trailed.PassesProbe (curl : Libcurl) (q : ProbeRequest β) (r : Trailed β) : Prop :=
  r.chunks = [] ∧ guardStops curl q.http q.requestUrl 0 r.allLines = false

/-- A request that ends on the answer, complete. -/
structure ProbeRequest.Answered (curl : Libcurl) (object : List β) (range : ByteRange)
    (q : ProbeRequest β) : Prop where
  answer : ∃ before r, q.responses = before ++ [r] ∧ (∀ b ∈ before, b.PassesProbe curl q) ∧
    guardStops curl q.http q.requestUrl 0 r.allLines = false ∧ r.AnswersRange object range
  result_eq : q.result = .ok

/-! ## Header lines -/

/-- Whether a value leaves the state with the size of a `416`. -/
def refusesRange (before : Bool) (value : Text) : Bool :=
  if ((contentRange value).bind (·.total)).isSome then before
  else (parseUnsatisfiedContentRange value 0).1

theorem ProbeState.refuses_recordContentRange (value : Text) (p : ProbeState) :
    (p.recordContentRange value).redirectBlocked = p.redirectBlocked ∧
      (p.recordContentRange value).unsatisfiedContentRangeValid =
        refusesRange p.unsatisfiedContentRangeValid value := by
  have hverdict := parseContentRange_verdict value ⟨p.rangeFirst, p.rangeLast, 0, false⟩
  have hother : ∀ first last : Nat, ∀ q : ProbeState, q =
      (if (parseUnsatisfiedContentRange value 0).1 = true then
        { p with
          rangeFirst := first, rangeLast := last, contentRangeValid := false,
          unsatisfiedContentRangeValid := (parseUnsatisfiedContentRange value 0).1,
          total := (parseUnsatisfiedContentRange value 0).2, haveTotal := true }
      else
        { p with
          rangeFirst := first, rangeLast := last, contentRangeValid := false,
          unsatisfiedContentRangeValid := (parseUnsatisfiedContentRange value 0).1 } :
        ProbeState) →
      q.redirectBlocked = p.redirectBlocked ∧
        q.unsatisfiedContentRangeValid = (parseUnsatisfiedContentRange value 0).1 := by
    intro first last q hq
    split at hq
    · rw [hq]
      exact ⟨rfl, rfl⟩
    · rw [hq]
      exact ⟨rfl, rfl⟩
  simp only [ProbeState.recordContentRange, refusesRange]
  cases hc : contentRange value with
  | some c =>
      rw [hc] at hverdict
      simp only [hverdict, Bool.true_and]
      cases ht : c.total with
      | some n => simp [ContentRange.fields, ht]
      | none =>
          simp only [ContentRange.fields, ht, Option.isSome_none, Bool.false_eq_true, if_false,
            Option.bind_some]
          exact hother _ _ _ rfl
  | none =>
      rw [hc] at hverdict
      simp only [hverdict, Bool.false_and, Bool.false_eq_true, if_false, Option.bind_none,
        Option.isSome_none]
      exact hother _ _ _ rfl

/-- An accepted line: only a `Content-Range` says that a range is refused. -/
theorem probeHeaderCallback_refuses {line : Text} (hstatus : isStatusLine line = false)
    (curl : Libcurl) (now : Int) (p : ProbeState)
    (h : (probeHeaderCallback curl now line p).2 = true) :
    (probeHeaderCallback curl now line p).1.redirectBlocked = p.redirectBlocked ∧
      (probeHeaderCallback curl now line p).1.unsatisfiedContentRangeValid =
        (contentRanges [line]).foldl refusesRange p.unsatisfiedContentRangeValid := by
  cases hblocks : p.blocksRedirect curl line with
  | true => simp [probeHeaderCallback, hstatus, hblocks] at h
  | false =>
      cases hrange : headerNameIs line (text "content-range:") with
      | true =>
          have hvalue : contentRanges [line] = [headerValue line (text "content-range:")] := by
            simp [contentRanges, hrange]
          simp only [probeHeaderCallback, hstatus, hblocks, hrange, Bool.false_eq_true, if_false,
            if_true, hvalue]
          exact p.refuses_recordContentRange _
      | false =>
          have hnone : contentRanges [line] = [] := by simp [contentRanges, hrange]
          simp only [probeHeaderCallback, hstatus, hblocks, hrange, Bool.false_eq_true, if_false,
            hnone, List.foldl_nil]
          split
          · exact ⟨rfl, rfl⟩
          · split
            · exact ⟨rfl, rfl⟩
            · split
              · split
                · exact ⟨rfl, rfl⟩
                · exact ⟨rfl, rfl⟩
              · exact ⟨rfl, rfl⟩

/-- All lines behind the status line. -/
theorem feed_refuses (curl : Libcurl) (now : Int) : ∀ (lines : List Text) (p : ProbeState),
    (∀ l ∈ lines, isStatusLine l = false) →
    (feed (probeHeaderCallback curl now) lines p).2 = true →
    (feed (probeHeaderCallback curl now) lines p).1.redirectBlocked = p.redirectBlocked ∧
      (feed (probeHeaderCallback curl now) lines p).1.unsatisfiedContentRangeValid =
        (contentRanges lines).foldl refusesRange p.unsatisfiedContentRangeValid := by
  intro lines
  induction lines with
  | nil =>
      intro p _ _
      exact ⟨rfl, rfl⟩
  | cons line lines ih =>
      intro p hlines h
      cases hgo : (probeHeaderCallback curl now line p).2 with
      | false =>
          rw [feed_cons_false hgo] at h
          cases h
      | true =>
          rw [feed_cons_true hgo] at h ⊢
          obtain ⟨hblocked, hrefuses⟩ := ih _ (fun l hl => hlines l (List.mem_cons_of_mem line hl)) h
          obtain ⟨hblocked', hrefuses'⟩ := probeHeaderCallback_refuses
            (hlines line List.mem_cons_self) curl now p hgo
          have hcut : contentRanges (line :: lines) = contentRanges [line] ++ contentRanges lines :=
            contentRanges_append [line] lines
          exact ⟨hblocked.trans hblocked', by rw [hrefuses, hrefuses', hcut, List.foldl_append]⟩

/-- The state that the lines of a response leave, where the guard lets them pass. -/
structure ProbeGreeted (r : Response β) (p₀ p : ProbeState) : Prop extends ProbeRead r p₀ p where
  status_eq : p.httpStatus = responseStatus r.statusLine
  unblocked : p.redirectBlocked = false
  refuses_eq : p.unsatisfiedContentRangeValid =
    (contentRanges r.fields).foldl refusesRange false
  unexceeded : p.bodyExceededRange = false
  unchanged : p.versionChanged = false
  unheard : p.errorBodyReceived = 0

/-- From any state: the guard decides, and what was before the status line is forgotten. -/
theorem feed_greeted (curl : Libcurl) (r : Response β) {p₀ p : ProbeState}
    (hp : p.resetResponse = p₀.resetResponse)
    (hguard : guardStops curl p₀.http p₀.originalUrl 0 r.lines = false) :
    (feed (probeHeaderCallback curl r.now) r.lines p).2 = true ∧
      ProbeGreeted r p₀ (feed (probeHeaderCallback curl r.now) r.lines p).1 := by
  let p₁ : ProbeState := { p.resetResponse with httpStatus := responseStatus r.statusLine }
  have hfirst : probeHeaderCallback curl r.now r.statusLine p = (p₁, true) := by
    simp [probeHeaderCallback, r.status_first, p₁]
  have hheaded : ProbeHeaded [] p₀ p₁ := ⟨hp, rfl, rfl, rfl, rfl, rfl, rfl, rfl, rfl, rfl⟩
  have hpass : guardStops curl p₀.http p₀.originalUrl p₁.httpStatus r.fields = false := by
    rw [Response.lines, guardStops, if_pos r.status_first] at hguard
    exact hguard
  have hgo : (feed (probeHeaderCallback curl r.now) r.lines p).2 = true := by
    rw [Response.lines, feed_cons_true (by rw [hfirst]), hfirst,
      (feed_probeHeaderCallback curl r.now r.fields [] p₁ hheaded).1, hpass]
    rfl
  have hread := feed_probeRead r curl hp hgo
  rw [Response.lines, feed_cons_true (by rw [hfirst]), hfirst] at hgo hread ⊢
  obtain ⟨hblocked, hrefuses⟩ := feed_refuses curl r.now r.fields p₁ r.status_once hgo
  have hkept := (feed_stated curl r.now r.fields p₁ r.status_once hgo).1
  exact ⟨hgo, hread, ProbeState.field_of_progress (·.httpStatus) hkept, hblocked, hrefuses,
    ProbeState.field_of_progress (·.bodyExceededRange) hkept,
    ProbeState.field_of_progress (·.versionChanged) hkept,
    ProbeState.field_of_progress (·.errorBodyReceived) hkept⟩

/-! ## The body -/

section Bodies

variable {p : ProbeState} {read : List β} {s : Probing β} {info : Info}

/-- A piece of a `206` that does not go on past what is wanted is accepted. -/
theorem ProbeReading.accepts (h : ProbeReading p read s) (hlt : p.wanted < 2 ^ 64)
    (h206 : info.responseCode = 206) (hskip : p.skip = 0) {data : List β}
    (hfits : read.length + data.length ≤ p.wanted) :
    (probePayload info data s).2 = true ∧
      (probePayload info data s).1.state.bodyExceededRange = s.state.bodyExceededRange := by
  have hwanted : s.state.wanted = p.wanted := ProbeState.field_of_settings (·.wanted) h.settings_eq
  have hstored := h.stored_eq
  have hroom : sub64 s.state.wanted s.state.stored = p.wanted - s.state.stored := by
    rw [hwanted]
    exact sub64_of_le (by omega) hlt
  have hrest : (data.drop s.state.skip).length = data.length := by
    rw [List.length_drop, h.skip_eq, hskip]
    omega
  have hinside : ¬ (info.responseCode = 206 ∧
      sub64 s.state.wanted s.state.stored < (data.drop s.state.skip).length) := by
    rw [hroom, hrest]
    omega
  have hpartial : ¬ info.responseCode = 200 := by
    rw [h206]
    decide
  simp only [probePayload, if_neg hinside, hpartial, false_and, if_false]
  exact ⟨trivial, trivial⟩

variable [Octet β]

theorem ProbeReading.feed_accepts (hlt : p.wanted < 2 ^ 64) (hstarted : p.started = true)
    (h206 : info.responseCode = 206) (hskip : p.skip = 0) :
    ∀ (chunks : List (List β)) {read : List β} {s : Probing β}, ProbeReading p read s →
      read.length + chunks.flatten.length ≤ p.wanted →
      (Base.feed (probeBodyCallback info) chunks s).2 = true ∧
        (Base.feed (probeBodyCallback info) chunks s).1.state.bodyExceededRange =
          s.state.bodyExceededRange := by
  intro chunks
  induction chunks with
  | nil =>
      intro read s _ _
      exact ⟨rfl, rfl⟩
  | cons c cs ih =>
      intro read s h hfits
      rw [List.flatten_cons, List.length_append] at hfits
      have hs : s.state.started = true :=
        (ProbeState.field_of_settings (·.started) h.settings_eq).trans hstarted
      have hstep := probeBodyCallback_payload (s := s) hs (by rw [h206]; decide) c
      have hroom : read.length + c.length ≤ p.wanted := by omega
      obtain ⟨hgo, hkept⟩ := h.accepts hlt h206 hskip hroom
      have hnext := (h.payload hlt info c).1 hgo
      rw [feed_cons_true (by rw [hstep]; exact hgo), hstep]
      obtain ⟨hall, hsame⟩ := ih hnext (by rw [List.length_append]; omega)
      exact ⟨hall, hsame.trans hkept⟩

/-- The first piece is read like any other once the body has been let in. -/
theorem feed_entered {r : Response β} (hwait : p.started = false) (hcode : r.code < 300)
    {p' : ProbeState} (hstart : startBody r.info { p with started := true } = (p', true))
    (hne : r.chunks ≠ []) (m : Memory Unit β) :
    feed (probeBodyCallback r.info) r.chunks ⟨p, m⟩ =
      feed (probeBodyCallback r.info) r.chunks ⟨p', m⟩ := by
  have hcode' : r.info.responseCode < 300 := hcode
  have hlow : ¬ (300 : Int) ≤ r.info.responseCode := by omega
  have hredirect : isRedirect r.info.responseCode = false := by
    simp only [isRedirect, Bool.and_eq_false_iff, decide_eq_false_iff_not]
    exact Or.inl hlow
  have hsame : ∀ c, probeBodyCallback r.info c ⟨p, m⟩ = probeBodyCallback r.info c ⟨p', m⟩ := by
    intro c
    rw [probeBodyCallback_payload (s := ⟨p', m⟩) (startBody_enters hstart).2.1 hcode']
    simp only [probeBodyCallback, hredirect, Bool.false_and, Bool.false_eq_true, if_false,
      if_neg hlow, hwait, hstart, if_true]
  cases hchunks : r.chunks with
  | nil => exact absurd hchunks hne
  | cons c cs => simp only [feed, hsame]

/-- The body of a `206` that is as long as its range. -/
theorem feed_whole {r : Response β} (hwait : p.started = false) (hstored : p.stored = 0)
    (hskip : p.skip = 0) (h206 : r.code = 206) {p' : ProbeState}
    (hstart : startBody r.info { p with started := true } = (p', true))
    (hsame : p'.skip = p.skip ∧ p'.bodyExceededRange = p.bodyExceededRange)
    (hne : r.chunks ≠ []) (hbody : r.body.length ≤ p'.wanted) (m : Memory Unit β) :
    (feed (probeBodyCallback r.info) r.chunks ⟨p, m⟩).2 = true ∧
      ProbeReading p' r.body (feed (probeBodyCallback r.info) r.chunks ⟨p, m⟩).1 ∧
      (feed (probeBodyCallback r.info) r.chunks ⟨p, m⟩).1.state.bodyExceededRange =
        p.bodyExceededRange := by
  have hcode : r.code < 300 := by
    rw [h206]
    decide
  obtain ⟨hkept, hstarted, hlt⟩ := startBody_enters hstart
  have hbegin : ProbeReading p' [] (⟨p', m⟩ : Probing β) := .begin (hkept.trans hstored) m
  have hinfo : r.info.responseCode = 206 := h206
  rw [feed_entered hwait hcode hstart hne]
  have hall := ProbeReading.feed_accepts hlt hstarted hinfo (hsame.1.trans hskip) r.chunks hbegin
    (by simpa [Response.body] using hbody)
  have hread := (ProbeReading.feed hlt hstarted hcode r.chunks hbegin).2.1 hall.1
  rw [List.nil_append] at hread
  exact ⟨hall.1, hread, hall.2.trans hsame.2⟩

/-- The body of an error, as long as it is short. -/
theorem feed_probeError {info : Info} (hcode : 300 ≤ info.responseCode)
    (hplain : isRedirect info.responseCode = false) :
    ∀ (chunks : List (List β)) (s : Probing β),
      s.state.errorBodyReceived + chunks.flatten.length ≤ drainLimit →
      (feed (probeBodyCallback info) chunks s).2 = true := by
  intro chunks
  induction chunks with
  | nil =>
      intro s _
      rfl
  | cons c cs ih =>
      intro s hfits
      rw [List.flatten_cons, List.length_append] at hfits
      have hroom : ¬ drainLimit - min drainLimit s.state.errorBodyReceived < c.length := by omega
      have hstep : probeBodyCallback info c s = ({ s with
          state := { s.state with
            errorBody := captureErrorBody s.state.errorBody c,
            errorBodyReceived := s.state.errorBodyReceived + c.length } }, true) := by
        simp only [probeBodyCallback, hplain, Bool.false_and, Bool.false_eq_true, if_false,
          if_pos hcode, probeError, if_neg hroom]
      rw [feed_cons_true (by rw [hstep]), hstep]
      refine ih _ ?_
      show s.state.errorBodyReceived + c.length + _ ≤ _
      omega

end Bodies

/-! ## The state a turn is judged on -/

/-- A state on which a request by position is replied to. -/
inductive ProbeState.Conclusive (range : ByteRange) (status : Int) (p : ProbeState) : Prop
  | unsatisfied : status = 416 → p.unsatisfiedContentRangeValid = true → p.total ≤ range.first →
      p.Conclusive range status
  | partly : status = 206 → p.started = true → p.bodyExceededRange = false →
      p.versionChanged = false → Detail.transformed p.encoding = false →
      p.contentRangeAnswers = true → p.stored = p.wanted → p.Conclusive range status

/-- Lines behind the body that say nothing about ranges leave such a state. -/
theorem ProbeState.Conclusive.behind {range : ByteRange} {status : Int} {lines : List Text}
    {p p' : ProbeState} (h : p.Conclusive range status) (htrailing : ProbeTrailing lines p p')
    (hnone : contentRanges lines = [])
    (hplain : status = 206 → Detail.transformed p'.encoding = false) :
    p'.Conclusive range status := by
  have hsame := htrailing.rangeless hnone
  cases h with
  | unsatisfied h416 hvalid hpast =>
      refine .unsatisfied h416 ?_ ?_
      · exact (ProbeState.field_of_unlisted (·.unsatisfiedContentRangeValid) hsame).trans hvalid
      · rw [ProbeState.field_of_unlisted (·.total) hsame]
        exact hpast
  | partly h206 hstarted hinside hunchanged hclear hanswers hstored =>
      refine .partly h206 ?_ ?_ ?_ (hplain h206) ?_ ?_
      · exact (ProbeState.field_of_unlisted (·.started) hsame).trans hstarted
      · exact (ProbeState.field_of_unlisted (·.bodyExceededRange) hsame).trans hinside
      · exact (ProbeState.field_of_unlisted (·.versionChanged) hsame).trans hunchanged
      · exact (ProbeState.field_of_unlisted (·.contentRangeAnswers) hsame).trans hanswers
      · exact (ProbeState.field_of_unlisted (·.stored) hsame).trans
          (hstored.trans (ProbeState.field_of_unlisted (·.wanted) hsame).symm)

/-- A response to a request by position, up to the end of its body. -/
structure ProbeAnswered (range : ByteRange) (r : Response β) (x : Probing β × Bool) : Prop where
  accepted : x.2 = true
  unblocked : x.1.state.redirectBlocked = false
  conclusive : x.1.state.Conclusive range r.code
  status_eq : x.1.state.httpStatus = responseStatus r.statusLine
  encoding_eq : x.1.state.encoding = encodingOf r.fields

section Answers

variable {object : List β} {range : ByteRange} {r : Response β} {p₀ p : ProbeState}

/-- The numbers of an answer are those that were asked for. -/
theorem answers_asked (hsuffix : range.suffix = false) (hpos : 1 ≤ range.length)
    (hfits : range.first + range.length ≤ 2 ^ 64) {n first last : Nat} (hn : n < 2 ^ 64)
    (hinside : range.first < n) (hfirst : first = range.first)
    (hlast : last + 1 = min (range.first + range.length) n) :
    answers range first last n = true ∧ last - first + 1 = min range.length (n - range.first) := by
  refine ⟨?_, by omega⟩
  refine (answers_measured hsuffix (by omega) hfits first last n (by omega) (by omega) hn).mpr ?_
  rw [Covers, hsuffix, if_neg (by decide)]
  exact ⟨hfirst, hlast⟩

variable [Octet β]

theorem ProbeGreeted.partly_conclusive (hp : ProbeGreeted r p₀ p) (hobject : object.length < 2 ^ 64)
    (hsuffix : p₀.range.suffix = false) (hpos : 1 ≤ p₀.range.length)
    (hfits : p₀.range.first + p₀.range.length ≤ 2 ^ 64) (hmatch : p₀.ifMatch = [])
    {value : Text} {c : ContentRange} (hinside : p₀.range.first < object.length)
    (h206 : r.code = 206) (hvalue : contentRanges r.fields = [value])
    (hc : contentRange value = some c) (hfirst : c.first = p₀.range.first)
    (hlast : c.last + 1 = min (p₀.range.first + p₀.range.length) object.length)
    (htotal : c.total = some object.length)
    (hbody : r.body = (object.drop p₀.range.first).take p₀.range.length)
    (hplain : Detail.transformed (encodingOf r.fields) = false) (m : Memory Unit β) :
    ProbeAnswered p₀.range r (feed (probeBodyCallback r.info) r.chunks ⟨p, m⟩) := by
  obtain ⟨hanswers, hspan⟩ := answers_asked hsuffix hpos hfits hobject hinside hfirst hlast
  have hasked : p.contentRangeAnswers = true := by
    rw [hp.headed.answers_eq, hvalue]
    simp [lastSized, Option.filter, hc, htotal, ContentRange.answers, hanswers]
  obtain ⟨hf, hl⟩ := lastFirst_singleton hc
  have hwanted : add64 (sub64 p.rangeLast p.rangeFirst) 1 = c.last - c.first + 1 := by
    rw [hp.headed.first_eq, hp.headed.last_eq, hvalue, hf, hl,
      sub64_of_le (contentRange_le hc) (by omega), add64_of_lt (by omega)]
  have hpin : ∀ q : ProbeState, q.ifMatch = p.ifMatch → q.contradictsPin = false := by
    intro q hq
    have hnone : q.ifMatch = [] :=
      hq.trans ((congrArg (·.ifMatch) hp.headed.settings_eq).trans hmatch)
    simp [ProbeState.contradictsPin, hnone, isStrongEtag]
  have hclear : Detail.transformed p.encoding = false := by rw [hp.headed.encoding_eq, hplain]
  -- the body is let in, and it is as long as the range
  obtain ⟨p', hp', hstart⟩ : ∃ p' : ProbeState,
      p' = { p with started := true, wanted := c.last - c.first + 1 } ∧
        startBody r.info { p with started := true } = (p', true) := by
    have hcases := startBody_cases r.info { p with started := true }
    generalize hstart : startBody r.info { p with started := true } = y at hcases ⊢
    cases hcases with
    | refused _ _ hwhy =>
        exfalso
        have hno := hpin { p with started := true } rfl
        rcases hwhy with hbad | hbad | hbad | hbad
        · exact absurd (hbad.symm.trans hclear) (by decide)
        · exact absurd (hbad.symm.trans hno) (by decide)
        · exact absurd (hasked.symm.trans hbad.2) (by decide)
        · exact hbad h206
    | partly =>
        refine ⟨_, rfl, ?_⟩
        simp only [hwanted]
    | whole h200 => exact absurd (h206.symm.trans h200) (by decide)
  have hlength : r.body.length = c.last - c.first + 1 := by
    rw [hbody, List.length_take, List.length_drop, hspan]
  have hne : r.chunks ≠ [] := by
    intro hnil
    rw [Response.body, hnil, List.flatten_nil] at hlength
    cases hlength
  obtain ⟨haccepted, hread, hkept⟩ := feed_whole hp.headed.waiting hp.headed.stored_eq
    hp.headed.skip_eq h206 hstart (by rw [hp']; exact ⟨rfl, rfl⟩) hne
    (by rw [hp', hlength]) m
  have hsettings := hread.settings_eq
  rw [hp'] at hsettings
  refine ⟨haccepted, ?_, .partly h206 ?_ (hkept.trans hp.unexceeded) ?_ ?_ ?_ ?_,
    (ProbeState.field_of_settings (·.httpStatus) hsettings).trans hp.status_eq,
    (ProbeState.field_of_settings (·.encoding) hsettings).trans hp.headed.encoding_eq⟩
  · exact (ProbeState.field_of_settings (·.redirectBlocked) hsettings).trans hp.unblocked
  · exact ProbeState.field_of_settings (·.started) hsettings
  · exact (ProbeState.field_of_settings (·.versionChanged) hsettings).trans hp.unchanged
  · rw [ProbeState.field_of_settings (·.encoding) hsettings]
    exact hclear
  · exact (ProbeState.field_of_settings (·.contentRangeAnswers) hsettings).trans hasked
  · have hskip : p'.skip = 0 := by
      rw [hp']
      exact hp.headed.skip_eq
    have hall : p'.wanted = c.last - c.first + 1 := by rw [hp']
    rw [hread.stored_eq, hskip, hall, hlength,
      ProbeState.field_of_settings (·.wanted) hsettings]
    show min _ (c.last - c.first + 1 - 0) = c.last - c.first + 1
    omega

theorem ProbeGreeted.unsatisfied_conclusive (hp : ProbeGreeted r p₀ p) {value : Text}
    (hpast : object.length ≤ p₀.range.first) (h416 : r.code = 416)
    (hvalue : contentRanges r.fields = [value]) (hnone : contentRange value = none)
    (hsize : parseUnsatisfiedContentRange value 0 = (true, object.length))
    (hshort : r.body.length ≤ drainLimit) (m : Memory Unit β) :
    ProbeAnswered p₀.range r (feed (probeBodyCallback r.info) r.chunks ⟨p, m⟩) := by
  have hinfo : r.info.responseCode = 416 := h416
  have haccepted : (feed (probeBodyCallback r.info) r.chunks ⟨p, m⟩).2 = true := by
    refine feed_probeError (by rw [hinfo]; decide) (by rw [hinfo]; decide) r.chunks ⟨p, m⟩ ?_
    show p.errorBodyReceived + r.body.length ≤ drainLimit
    rw [hp.unheard]
    omega
  have hsame : (feed (probeBodyCallback r.info) r.chunks ⟨p, m⟩).1.state.uncaptured =
      p.uncaptured := by
    have hend := feed_probeEnd r hp.headed.waiting hp.headed.stored_eq m
    generalize feed (probeBodyCallback r.info) r.chunks ⟨p, m⟩ = x at hend ⊢
    cases hend with
    | empty => rfl
    | error _ hsame => exact hsame
    | refused _ hlow => omega
    | whole _ hlow => omega
    | cut _ hlow => omega
  have hstated : p.stated = some object.length := by
    rw [hp.stated_eq, hvalue]
    simp [lastTotal, writtenTotal, hnone, hsize]
  have htotal : p.total = object.length := by
    unfold ProbeState.stated at hstated
    split at hstated
    · exact Option.some.inj hstated
    · cases hstated
  refine ⟨haccepted, ?_, .unsatisfied h416 ?_ ?_,
    (ProbeState.field_of_uncaptured (·.httpStatus) hsame).trans hp.status_eq,
    (ProbeState.field_of_uncaptured (·.encoding) hsame).trans hp.headed.encoding_eq⟩
  · exact (ProbeState.field_of_uncaptured (·.redirectBlocked) hsame).trans hp.unblocked
  · rw [ProbeState.field_of_uncaptured (·.unsatisfiedContentRangeValid) hsame, hp.refuses_eq,
      hvalue]
    simp [refusesRange, hnone, hsize]
  · rw [ProbeState.field_of_uncaptured (·.total) hsame, htotal]
    exact hpast

/-- The answer to a request, as the turn sees it. -/
theorem probeResponse_answered (curl : Libcurl) (hobject : object.length < 2 ^ 64)
    (hsuffix : p₀.range.suffix = false) (hpos : 1 ≤ p₀.range.length)
    (hfits : p₀.range.first + p₀.range.length ≤ 2 ^ 64) (hmatch : p₀.ifMatch = [])
    (hguard : guardStops curl p₀.http p₀.originalUrl 0 r.lines = false)
    (hr : r.AnswersRange object p₀.range) {s : Probing β}
    (hs : s.state.resetResponse = p₀.resetResponse) :
    ProbeAnswered p₀.range r (probeResponse curl r.now r.lines r.info r.chunks s) := by
  obtain ⟨hgo, hp⟩ := feed_greeted curl r hs hguard
  simp only [probeResponse, feed_probeLine, hgo, if_true]
  generalize (feed (probeHeaderCallback curl r.now) r.lines s.state).1 = p at hp ⊢
  cases hr with
  | unsatisfied hpast h416 hvalue hnone hsize hshort =>
      exact hp.unsatisfied_conclusive hpast h416 hvalue hnone hsize hshort s.memory
  | partly hinside h206 hvalue hc hfirst hlast htotal hbody hplain =>
      exact hp.partly_conclusive hobject hsuffix hpos hfits hmatch hinside h206 hvalue hc hfirst
        hlast htotal hbody hplain s.memory

end Answers

/-- With its trailers. -/
theorem probeTrailed_answered [Octet β] {object : List β} {r : Trailed β} {p₀ : ProbeState}
    (curl : Libcurl) (hobject : object.length < 2 ^ 64) (hsuffix : p₀.range.suffix = false)
    (hpos : 1 ≤ p₀.range.length) (hfits : p₀.range.first + p₀.range.length ≤ 2 ^ 64)
    (hmatch : p₀.ifMatch = [])
    (hguard : guardStops curl p₀.http p₀.originalUrl 0 r.allLines = false)
    (hr : r.AnswersRange object p₀.range) {s : Probing β}
    (hs : s.state.resetResponse = p₀.resetResponse) :
    (probeTrailed curl r s).2 = true ∧
      (probeTrailed curl r s).1.state.redirectBlocked = false ∧
      (probeTrailed curl r s).1.state.Conclusive p₀.range r.code := by
  obtain ⟨hpass, hbehind⟩ := Trailed.passes hguard
  have h := probeResponse_answered curl hobject hsuffix hpos hfits hmatch hpass hr.answer hs
  have hreset := (probeResponse_reset curl r.toResponse s).trans hs
  have hall := h.accepted
  simp only [probeTrailed, feed_probeLine]
  generalize probeResponse curl r.now r.lines r.info r.chunks s = x at h hreset hall ⊢
  obtain ⟨s', accepted⟩ := x
  have hall : accepted = true := hall
  subst hall
  have hstatus : s'.state.httpStatus = responseStatus r.statusLine := h.status_eq
  have hencoding : s'.state.encoding = encodingOf r.fields := h.encoding_eq
  simp only [if_true] at hreset ⊢
  have hgo : (feed (probeHeaderCallback curl r.now) r.trailers s'.state).2 = true := by
    have hhttp : s'.state.http = p₀.http := congrArg (·.http) hreset
    have hurl : s'.state.originalUrl = p₀.originalUrl := congrArg (·.originalUrl) hreset
    rw [feed_guardStops curl r.now r.trailers s'.state r.trailers_once, hhttp, hurl, hstatus,
      hbehind]
    rfl
  have htrailing := feed_probeTrailing curl r.now r.trailers s'.state r.trailers_once hgo
  have hopen := (feed_refuses curl r.now r.trailers s'.state r.trailers_once hgo).1
  refine ⟨hgo, hopen.trans h.unblocked, ?_⟩
  generalize (feed (probeHeaderCallback curl r.now) r.trailers s'.state).1 = p' at htrailing ⊢
  exact h.conclusive.behind htrailing hr.rangeless fun h206 => by
    rw [htrailing.encoding_eq, hencoding, encodingOf, ← List.foldl_append]
    exact hr.plain h206

/-! ## Turns that are answered -/

/-- A conclusive state is replied to, unless it names another S3 region for the first time. -/
theorem ProbeTurn.judge_conclusive {turn : ProbeTurn} {info : Info} {p : ProbeState}
    (hsuffix : turn.range.suffix = false) (hopen : p.redirectBlocked = false)
    (h : p.Conclusive turn.range info.responseCode) :
    (∃ reply, turn.judge info .ok p = .reply reply) ∨
      turn.loop.regionRetried = false ∧ ∃ region, turn.judge info .ok p =
        .again { turn.loop with regionHint := region, regionRetried := true } := by
  have hcode : deliveredCode .ok p = .ok := by
    rw [deliveredCode, if_neg (by simp)]
  cases h with
  | partly h206 hstarted hinside hsame hclear hanswers hstored =>
      refine Or.inl ?_
      have hkept : startEmpty info .ok p = p := by
        rw [startEmpty, if_neg (by simp [hstarted])]
      have hlow : ¬ (300 : Int) ≤ 206 := by decide
      have hvalid : Detail.credentialsExpired turn.backend 206 p.errorBody = false := by
        simp [Detail.credentialsExpired]
      refine ⟨{ total := p.total, first := p.rangeFirst, got := p.stored, etag := p.etag }, ?_⟩
      simp [ProbeTurn.judge, hcode, hkept, ProbeTurn.correct, ProbeTurn.settle, hopen, h206, hlow,
        hvalid, hinside, hsame, hclear, hanswers, hstored]
  | unsatisfied h416 hvalid hpast =>
      have hkept : startEmpty info .ok p = p := by
        rw [startEmpty, if_neg (by simp [h416, isSuccess])]
      have hexpired : Detail.credentialsExpired turn.backend 416 p.errorBody = false := by
        simp [Detail.credentialsExpired]
      have hreply : unsatisfiedReply turn.range p =
          some { total := p.total, first := turn.range.first, etag := p.etag } := by
        simp [unsatisfiedReply, hsuffix, hpast]
      simp only [ProbeTurn.judge, hcode, hkept, ProbeTurn.correct, hopen, h416, hexpired, hvalid,
        hreply, Bool.false_eq_true, if_false, and_false, Bool.not_true, and_self, if_true]
      split
      · rename_i hregion
        exact Or.inr ⟨hregion.2.1, turn.readRegion p, rfl⟩
      · exact Or.inl ⟨_, rfl⟩

section Requests

variable [Octet β] {object : List β} {curl : Libcurl} {range : ByteRange}

theorem probeTrailed_passes {r : Trailed β} {p₀ : ProbeState} (hchunks : r.chunks = [])
    (hguard : guardStops curl p₀.http p₀.originalUrl 0 r.allLines = false) {s : Probing β}
    (hs : s.state.resetResponse = p₀.resetResponse) : (probeTrailed curl r s).2 = true := by
  obtain ⟨hpass, hbehind⟩ := Trailed.passes hguard
  obtain ⟨hgo, hp⟩ := feed_greeted curl r.toResponse hs hpass
  simp only [probeTrailed, probeResponse, feed_probeLine, hgo, if_true, hchunks, feed_nil]
  generalize (feed (probeHeaderCallback curl r.now) r.lines s.state).1 = p at hp ⊢
  have hhttp : p.http = p₀.http := congrArg (·.http) hp.headed.settings_eq
  have hurl : p.originalUrl = p₀.originalUrl := congrArg (·.originalUrl) hp.headed.settings_eq
  rw [feed_guardStops curl r.now r.trailers p r.trailers_once, hhttp, hurl, hp.status_eq, hbehind]
  rfl

/-- Responses that libcurl goes on after leave nothing behind. -/
theorem probeAttempt_passes {q : ProbeRequest β} {p₀ : ProbeState} (hhttp : p₀.http = q.http)
    (hurl : p₀.originalUrl = q.requestUrl) :
    ∀ (before rest : List (Trailed β)) (x : Probing β × Option (Trailed β)),
      (∀ b ∈ before, b.PassesProbe curl q) → x.1.state.resetResponse = p₀.resetResponse →
      ∃ x' : Probing β × Option (Trailed β), x'.1.state.resetResponse = p₀.resetResponse ∧
        feed (probeStep curl) (before ++ rest) x = feed (probeStep curl) rest x' := by
  intro before rest
  induction before with
  | nil =>
      intro x _ hx
      exact ⟨x, hx, rfl⟩
  | cons b before ih =>
      intro x hpass hx
      obtain ⟨hchunks, hguard⟩ := hpass b List.mem_cons_self
      rw [← hhttp, ← hurl] at hguard
      have hgo : (probeStep curl b x).2 = true := probeTrailed_passes hchunks hguard hx
      have hnext : (probeStep curl b x).1.1.state.resetResponse = p₀.resetResponse :=
        (probeTrailed_reset b x.1).trans hx
      obtain ⟨x', hx', hrest⟩ := ih (probeStep curl b x).1
        (fun b' hb' => hpass b' (List.mem_cons_of_mem b hb')) hnext
      refine ⟨x', hx', ?_⟩
      rw [List.cons_append, feed_cons_true hgo]
      exact hrest

/-- An answered request, with the state that its turn is judged on. -/
theorem probeAttempt_answered (options : ClientOptions) (hobject : object.length < 2 ^ 64)
    (hsuffix : range.suffix = false) (hpos : 1 ≤ range.length)
    (hfits : range.first + range.length ≤ 2 ^ 64) {q : ProbeRequest β}
    (hq : q.Answered curl object range) (m : Memory Unit β) :
    ∃ (s : Probing β) (r : Trailed β),
      probeAttempt curl q.responses ⟨probeStart options range [] q, m⟩ = ((s, some r), true) ∧
      s.state.redirectBlocked = false ∧ s.state.Conclusive range r.code := by
  obtain ⟨before, r, hresponses, hpass, hguard, hr⟩ := hq.answer
  -- the state that the attempt starts from, for every response before the one that answers
  have hhttp : (probeStart options range [] q).http = q.http := rfl
  have hurl : (probeStart options range [] q).originalUrl = q.requestUrl := rfl
  have hwhole : (probeStart options range [] q).range.suffix = false := hsuffix
  obtain ⟨x, hx, hfeed⟩ := probeAttempt_passes hhttp hurl before [r]
    (⟨probeStart options range [] q, m⟩, none) hpass rfl
  obtain ⟨hgo, hopen, hconclusive⟩ := probeTrailed_answered curl hobject hwhole hpos hfits rfl
    hguard hr hx
  refine ⟨(probeTrailed curl r x.1).1, r, ?_, hopen, hconclusive⟩
  rw [probeAttempt, hresponses, hfeed, feed_cons_true (f := probeStep curl) hgo, feed_nil]
  rfl

/-- One turn that is answered. -/
theorem getRange_concludes (options : ClientOptions) (backend : Backend)
    (hobject : object.length < 2 ^ 64) (hsuffix : range.suffix = false) (hpos : 1 ≤ range.length)
    (hfits : range.first + range.length ≤ 2 ^ 64) {q : ProbeRequest β}
    (hq : q.Answered curl object range) (qs : List (ProbeRequest β)) {loop : ProbeLoop}
    (hfresh : loop.attempt < options.maxAttempts) (m : Memory Unit β) :
    (∃ reply last m', getRange curl options backend range [] (q :: qs) loop m =
        (.reply reply, last, m')) ∨
      loop.regionRetried = false ∧ ∃ region m',
        getRange curl options backend range [] (q :: qs) loop m =
          getRange curl options backend range [] qs
            { loop with regionHint := region, regionRetried := true } m' := by
  obtain ⟨s, r, hattempt, hopen, hconclusive⟩ :=
    probeAttempt_answered options hobject hsuffix hpos hfits hq m
  rw [probeStart] at hattempt
  have hmade : range.refusal = none := (ByteRange.refusal_none range).mpr ⟨hpos, fun _ => hfits⟩
  rw [getRange, if_neg (by omega)]
  simp only [hmade, hattempt, hq.result_eq, if_true, Option.map_some, Option.getD_some]
  rcases @ProbeTurn.judge_conclusive
    { backend := backend, range := range, options := options,
      loop := { loop with regionHint := q.routingRegion }, requestUrl := q.requestUrl,
      requestRange := q.requestRange, message := q.message,
      deadlineExpired := q.deadlineExpired, canWait := q.canWait }
    r.info s.state hsuffix hopen hconclusive with ⟨reply, hreply⟩ | ⟨hretried, region, hagain⟩
  · rw [hreply]
    exact Or.inl ⟨reply, some r, s.memory, rfl⟩
  · rw [hagain]
    exact Or.inr ⟨hretried, region, s.memory, rfl⟩

/-- Two requests are enough: the second one where the first names another region. -/
theorem getRange_answered (options : ClientOptions) (hattempts : 0 < options.maxAttempts)
    (backend : Backend) (hobject : object.length < 2 ^ 64) (hsuffix : range.suffix = false)
    (hpos : 1 ≤ range.length) (hfits : range.first + range.length ≤ 2 ^ 64)
    {q q' : ProbeRequest β} (hq : q.Answered curl object range)
    (hq' : q'.Answered curl object range) (qs : List (ProbeRequest β)) (m : Memory Unit β) :
    ∃ reply last m', getRange curl options backend range [] (q :: q' :: qs) {} m =
      (.reply reply, last, m') := by
  have hfresh : ({} : ProbeLoop).attempt < options.maxAttempts := hattempts
  rcases getRange_concludes options backend hobject hsuffix hpos hfits hq (q' :: qs) hfresh m with
    hreply | ⟨-, region, m', hagain⟩
  · exact hreply
  · rw [hagain]
    have hfresh' : ({ regionHint := region, regionRetried := true } : ProbeLoop).attempt <
        options.maxAttempts := hattempts
    rcases getRange_concludes options backend hobject hsuffix hpos hfits hq' qs hfresh' m' with
      hreply | ⟨hretried, -⟩
    · exact hreply
    · cases hretried

end Requests

end Karu
