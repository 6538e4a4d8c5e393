/-
# `Karu.Runtime.Probe` — the synchronous ranged GET

The second half of `src/runtime/transport.cpp`: `ProbeState`, its two callbacks
and `get_range`.  A probe reads one range into one destination on the calling
thread; it has a state machine of its own next to the one of a batch transfer,
with the same header parsers and other rules.

The destination is the only region of the probe's memory, so its address is
`()`.  Nothing here bounds it: a copy past `range.length` is a copy like any
other, and whether there is one is a question (`Karu.Runtime.ProbeBounds`).

Left out: the counters in `RangeStats`, and the text of the request that
`RequestBuilder` prepares; what it refuses by the range alone is
`ByteRange.refusal`.  A request that cannot be prepared or sent for another
reason, or a deadline that has passed before it is, ends `get_range` with
nothing shown to the callbacks.
-/
import Karu.Runtime.Attempt

namespace Karu

open Base

/-- `transport::ByteRange`. -/
structure ByteRange where
  first : Nat := 0
  length : Nat := 0
  suffix : Bool := false
  first_lt : first < 2 ^ 64 := by first | exact zero_lt_word | decide
  length_lt : length < 2 ^ 64 := by first | exact zero_lt_word | exact one_lt_word | decide
deriving Repr

theorem ByteRange.ext_iff {a b : ByteRange} :
    a.first = b.first ∧ a.length = b.length ∧ a.suffix = b.suffix ↔ a = b := by
  cases a
  cases b
  simp

instance : DecidableEq ByteRange := fun _ _ => decidable_of_iff _ ByteRange.ext_iff

/-- The checks of `RequestBuilder::prepare` and `prepare_suffix`: a range of no bytes, or one
whose last byte has no 64-bit position, is refused before a request is made. -/
def ByteRange.refusal (range : ByteRange) : Option Text :=
  if range.suffix then
    if range.length = 0 then some (text "empty suffix range") else none
  else if range.length = 0 ∨ maxWord - (range.length - 1) < range.first then
    some (text "HTTP range overflows")
  else none

theorem ByteRange.refusal_none (range : ByteRange) :
    range.refusal = none ↔
      1 ≤ range.length ∧ (range.suffix = false → range.first + range.length ≤ 2 ^ 64) := by
  have hword : maxWord = 2 ^ 64 - 1 := rfl
  have hlength := range.length_lt
  unfold ByteRange.refusal
  cases range.suffix with
  | true =>
      rw [if_pos rfl]
      split
      · rename_i hzero
        exact iff_of_false (Option.some_ne_none _) fun h => by omega
      · rename_i hpos
        exact iff_of_true rfl ⟨by omega, fun hno => by cases hno⟩
  | false =>
      rw [if_neg Bool.false_ne_true]
      split
      · rename_i hbad
        refine iff_of_false (Option.some_ne_none _) fun h => ?_
        have := h.2 rfl
        omega
      · rename_i hgood
        exact iff_of_true rfl ⟨by omega, fun _ => by omega⟩

/-- A response with the trailer lines of its chunked body.  libcurl hands them to the header
callback, behind the body. -/
structure Trailed (β : Type) extends Response β where
  trailers : List Text := []
  trailers_once : ∀ l ∈ trailers, isStatusLine l = false := by
    first | with_reducible exact fields_none | decide

/-- Without trailers, as every response is whose body is not chunked. -/
def Response.untrailed {β : Type} (r : Response β) : Trailed β := { toResponse := r }

/-- `ProbeState`. -/
structure ProbeState where
  range : ByteRange
  ifMatch : Text := []
  fallbackLimit : Nat := 0
  http : HttpRequestOptions := {}
  originalUrl : Text := []
  httpStatus : Int := 0
  total : Nat := 0
  haveTotal : Bool := false
  contentRangeValid : Bool := false
  contentRangeAnswers : Bool := false
  unsatisfiedContentRangeValid : Bool := false
  rangeFirst : Nat := 0
  rangeLast : Nat := 0
  started : Bool := false
  skip : Nat := 0
  wanted : Nat := 0
  stored : Nat := 0
  cutShort : Bool := false
  bodyExceededRange : Bool := false
  suffixIgnored : Bool := false
  rangeFallbackRejected : Bool := false
  versionChanged : Bool := false
  redirectBlocked : Bool := false
  retryAfter : Int := 0
  responseRegion : Text := []
  etag : Text := []
  encoding : EncodingHeaders := {}
  errorBody : Text := []
  errorBodyReceived : Nat := 0
deriving DecidableEq, Repr

namespace ProbeState

/-! ## Header lines -/

/-- `reset_response`. -/
def resetResponse (p : ProbeState) : ProbeState :=
  { range := p.range, ifMatch := p.ifMatch, fallbackLimit := p.fallbackLimit, http := p.http,
    originalUrl := p.originalUrl }

end ProbeState

/-- `answers`. -/
def answers (range : ByteRange) (first last total : Nat) : Bool :=
  if range.suffix then
    add64 last 1 == total && add64 (sub64 last first) 1 == min range.length total
  else
    let end_ := sub64 (add64 range.first range.length) 1
    first == range.first && decide (last ≤ end_) && (last == end_ || add64 last 1 == total)

namespace ProbeState

/-- The redirect guard of `probe_header_callback`. -/
def blocksRedirect (curl : Libcurl) (line : Text) (p : ProbeState) : Bool :=
  headerNameIs line (text "location:") && isRedirect p.httpStatus && p.http.followRedirects &&
    p.http.sameOriginRedirectsOnly &&
    !sameOriginRedirect curl p.originalUrl (headerValue line (text "location:"))

/-- The `Content-Range` branch of `probe_header_callback`. -/
def recordContentRange (value : Text) (p : ProbeState) : ProbeState :=
  let (accepted, r) := parseContentRange value ⟨p.rangeFirst, p.rangeLast, 0, false⟩
  let valid := accepted && r.haveTotal
  let p := { p with rangeFirst := r.first, rangeLast := r.last, contentRangeValid := valid }
  if valid then
    { p with
      total := r.total, haveTotal := true,
      contentRangeAnswers := answers p.range r.first r.last r.total }
  else
    let (unsatisfied, total) := parseUnsatisfiedContentRange value 0
    let p := { p with unsatisfiedContentRangeValid := unsatisfied }
    if unsatisfied then { p with total := total, haveTotal := true } else p

end ProbeState

/-- `probe_header_callback`; `now` is `std::time(nullptr)`. -/
def probeHeaderCallback (curl : Libcurl) (now : Int) (line : Text) (p : ProbeState) :
    ProbeState × Bool :=
  if isStatusLine line then ({ p.resetResponse with httpStatus := responseStatus line }, true)
  else if p.blocksRedirect curl line then ({ p with redirectBlocked := true }, false)
  else if headerNameIs line (text "content-range:") then
    (p.recordContentRange (headerValue line (text "content-range:")), true)
  else if headerNameIs line (text "x-amz-bucket-region:") then
    ({ p with responseRegion := headerValue line (text "x-amz-bucket-region:") }, true)
  else if headerNameIs line (text "retry-after:") then
    ({ p with retryAfter :=
        retryAfterSeconds curl (headerValue line (text "retry-after:")) now }, true)
  else if headerNameIs line (text "etag:") then
    let value := headerValue line (text "etag:")
    (if recognisedEtag value then { p with etag := value } else p, true)
  else ({ p with encoding := recordEncoding p.encoding line }, true)

/-! ## The body -/

/-- The tag of the response is not the one asked for. -/
def ProbeState.contradictsPin (p : ProbeState) : Bool :=
  isStrongEtag p.ifMatch && !p.etag.isEmpty && p.etag != p.ifMatch

/-- The branch of `start_body` for a `206`. -/
def ProbeState.startPartial (p : ProbeState) : ProbeState × Bool :=
  if !p.contentRangeAnswers then (p, false)
  else ({ p with wanted := add64 (sub64 p.rangeLast p.rangeFirst) 1 }, true)

/-- The size of a whole object, known from a header or from `Content-Length`. -/
def ProbeState.sized (info : Info) (p : ProbeState) : ProbeState × Bool :=
  if p.haveTotal then (p, true)
  else if info.contentLength < 0 then (p, false)
  else ({ p with total := info.contentLength.toNat, haveTotal := true }, true)

/-- The branch of `start_body` for a `200`, once the object's size is known. -/
def ProbeState.startWhole (p : ProbeState) : ProbeState × Bool :=
  if p.range.suffix then
    if p.range.length < p.total then ({ p with suffixIgnored := true }, false)
    else ({ p with rangeFirst := 0, wanted := p.total }, true)
  else if p.fallbackLimit < p.range.first then ({ p with rangeFallbackRejected := true }, false)
  else
    ({ p with
      skip := p.range.first, rangeFirst := p.range.first,
      wanted := if p.range.first < p.total then min p.range.length (p.total - p.range.first)
        else 0 }, true)

/-- `start_body`. -/
def startBody (info : Info) (p : ProbeState) : ProbeState × Bool :=
  if Detail.transformed p.encoding then (p, false)
  else if p.contradictsPin then ({ p with versionChanged := true }, false)
  else if info.responseCode = 206 then p.startPartial
  else if info.responseCode ≠ 200 then (p, false)
  else
    let (p, known) := p.sized info
    if known then p.startWhole else (p, false)

/-- A probe at work, with the memory of its destination. -/
structure Probing (β : Type) where
  state : ProbeState
  memory : Memory Unit β

section
variable {β : Type}

/-- The rest of `probe_body_callback` once the body has been let in. -/
def probePayload (info : Info) (data : List β) (s : Probing β) : Probing β × Bool :=
  let rest := data.drop s.state.skip
  let p := { s.state with skip := s.state.skip - data.length }
  let room := sub64 p.wanted p.stored
  if info.responseCode = 206 ∧ room < rest.length then
    ({ s with state := { p with bodyExceededRange := true } }, false)
  else
    let take := min room rest.length
    let memory := if 0 < take then s.memory.memcpy () p.stored (rest.take take) else s.memory
    let p : ProbeState := { p with stored := p.stored + take }
    if info.responseCode = 200 ∧ p.skip = 0 ∧ p.stored = p.wanted then
      (⟨{ p with cutShort := true }, memory⟩, false)
    else (⟨p, memory⟩, true)

/-- The body of an error, which is captured. -/
def probeError [Octet β] (data : List β) (s : Probing β) : Probing β × Bool :=
  let p := { s.state with errorBody := captureErrorBody s.state.errorBody data }
  if drainLimit - min drainLimit p.errorBodyReceived < data.length then ({ s with state := p }, false)
  else
    ({ s with state := { p with errorBodyReceived := p.errorBodyReceived + data.length } }, true)

/-- `probe_body_callback`. -/
def probeBodyCallback [Octet β] (info : Info) (data : List β) (s : Probing β) :
    Probing β × Bool :=
  if isRedirect info.responseCode && s.state.http.followRedirects then (s, true)
  else if 300 ≤ info.responseCode then probeError data s
  else if s.state.started then probePayload info data s
  else
    let (p, proceed) := startBody info { s.state with started := true }
    if proceed then probePayload info data { s with state := p }
    else ({ s with state := { p with cutShort := true } }, false)

/-! ## One response after another -/

/-- One header line. -/
def probeLine (curl : Libcurl) (now : Int) (line : Text) (s : Probing β) : Probing β × Bool :=
  let (p, accepted) := probeHeaderCallback curl now line s.state
  ({ s with state := p }, accepted)

variable [Octet β]

/-- One response: its lines, then its body. -/
def probeResponse (curl : Libcurl) (now : Int) (lines : List Text) (info : Info)
    (chunks : List (List β)) (s : Probing β) : Probing β × Bool :=
  let (s, accepted) := feed (probeLine curl now) lines s
  if accepted then feed (probeBodyCallback info) chunks s else (s, false)

/-- One response with its trailers, which come where the body was taken to its end. -/
def probeTrailed (curl : Libcurl) (r : Trailed β) (s : Probing β) : Probing β × Bool :=
  let (s, accepted) := probeResponse curl r.now r.lines r.info r.chunks s
  if accepted then feed (probeLine curl r.now) r.trailers s else (s, false)

/-- One response of an attempt. -/
def probeStep (curl : Libcurl) (r : Trailed β) (x : Probing β × Option (Trailed β)) :
    (Probing β × Option (Trailed β)) × Bool :=
  (((probeTrailed curl r x.1).1, some r), (probeTrailed curl r x.1).2)

/-- The responses of an attempt. -/
def probeAttempt (curl : Libcurl) (responses : List (Trailed β)) (s : Probing β) :
    (Probing β × Option (Trailed β)) × Bool :=
  feed (probeStep curl) responses (s, none)

end

/-! ## `get_range` -/

/-- `transport::RangeReply`. -/
structure RangeReply where
  total : Nat := 0
  first : Nat := 0
  got : Nat := 0
  etag : Text := []
  suffixIgnored : Bool := false
deriving DecidableEq, Repr

/-- What the loop of `get_range` carries from one attempt to the next. -/
structure ProbeLoop where
  regionHint : Text := []
  regionRetried : Bool := false
  credentialsRetried : Bool := false
  attempt : Nat := 0
  unreachableAttempts : Nat := 0
deriving DecidableEq, Repr

/-- How one turn of the loop of `get_range` ends. -/
inductive ProbeOutcome where
  | reply (r : RangeReply)
  | failed (status : Status) (detail : Text)
  | again (loop : ProbeLoop)
deriving DecidableEq

/-- One turn of the loop: what it asks for, the request it sends, and what the clock says
once it is answered. -/
structure ProbeTurn where
  backend : Backend
  range : ByteRange
  options : ClientOptions := .initial
  loop : ProbeLoop := {}
  requestUrl : Text := []
  requestRange : Text := []
  message : Text := []
  deadlineExpired : Bool := false
  canWait : Bool := true

/-- The answer to a `416`, where there is one. -/
def unsatisfiedReply (range : ByteRange) (p : ProbeState) : Option RangeReply :=
  if (if range.suffix then p.total = 0 else p.total ≤ range.first) then
    some { total := p.total, first := if range.suffix then 0 else range.first, etag := p.etag }
  else if range.suffix then some { total := p.total, etag := p.etag, suffixIgnored := true }
  else none

/-- The end of the loop body of `get_range`: retry, or give up. -/
def ProbeTurn.retryOrFail (turn : ProbeTurn) (status : Int) (code : CurlCode) (p : ProbeState)
    (loop : ProbeLoop) : ProbeOutcome :=
  let url := redactUrl turn.requestUrl
  if turn.deadlineExpired then .failed .timeout (url ++ text ": request timeout exceeded")
  else
    let loop := { loop with
      attempt := loop.attempt + 1,
      unreachableAttempts := loop.unreachableAttempts + if unreachable code then 1 else 0 }
    let requestTimeout := status == 400 && Detail.contains p.errorBody (text "RequestTimeout")
    if loop.attempt < turn.options.maxAttempts ∧ loop.unreachableAttempts < 3 ∧
        (Detail.transient code status || requestTimeout) = true then
      if turn.canWait then .again loop
      else .failed .timeout (url ++ text ": request timeout leaves no time for another attempt")
    else if code != .ok && isRedirect status && p.http.followRedirects then
      .failed .errNetwork (url ++ text ": " ++ turn.message)
    else if 300 ≤ status then
      let body := Detail.summarize p.errorBody
      let head := url ++ text ": HTTP " ++ decimal status.toNat
      .failed (Detail.statusForHttp status)
        (if body.isEmpty then head else head ++ text ": " ++ body)
    else .failed .errNetwork (url ++ text ": " ++ turn.message)

/-- The loop body of `get_range` for a response that is neither a correction nor a `416`. -/
def ProbeTurn.settle (turn : ProbeTurn) (status : Int) (code : CurlCode) (p : ProbeState)
    (loop : ProbeLoop) : ProbeOutcome :=
  let url := redactUrl turn.requestUrl
  if status = 206 ∧ p.bodyExceededRange = true then
    .failed .errHttp (url ++ text ": response exceeded bytes " ++ decimal p.rangeFirst ++
      text "-" ++ decimal p.rangeLast)
  else if code = .ok ∧ isSuccess status = true ∧ Detail.transformed p.encoding = true then
    .failed .errHttp (Detail.transformationDetail url p.encoding)
  else if code = .ok ∧ p.versionChanged = true then
    .failed .errPrecondition (url ++ text ": the server ignored If-Match and sent ETag " ++
      p.etag ++ text ", so the object no longer matches if_match")
  else if code = .ok ∧ status = 206 then
    if !p.contentRangeAnswers then
      .failed .errHttp (if p.contentRangeValid then
        url ++ text ": Content-Range [" ++ decimal p.rangeFirst ++ text ", " ++
          decimal p.rangeLast ++ text "] does not answer " ++ turn.requestRange
        else url ++ text ": partial response has no valid object size")
    else if p.stored ≠ p.wanted then
      .failed .errHttp (url ++ text ": response body does not match Content-Range")
    else .reply { total := p.total, first := p.rangeFirst, got := p.stored, etag := p.etag }
  else if code = .ok ∧ status = 200 then
    if p.suffixIgnored then .reply { total := p.total, etag := p.etag, suffixIgnored := true }
    else if p.rangeFallbackRejected then
      .failed .errHttp (url ++ text ": server ignored Range; refusing to discard " ++
        decimal turn.range.first ++ text " bytes (limit " ++ decimal turn.options.rangeFallbackLimit ++ text ")")
    else if !p.haveTotal then .failed .errHttp (url ++ text ": the server reported no size")
    else .reply { total := p.total, first := p.rangeFirst, got := p.stored, etag := p.etag }
  else if code = .ok ∧ isSuccess status = true then
    .failed .errHttp (url ++ text ": unexpected HTTP " ++ decimal status.toNat ++
      text " response to a range request")
  else turn.retryOrFail status code p loop

/-- A body that the callback cut short is no error. -/
def deliveredCode (code : CurlCode) (p : ProbeState) : CurlCode :=
  if code = .writeError ∧ p.cutShort = true then .ok else code

/-- An empty body never reached the callback. -/
def startEmpty (info : Info) (code : CurlCode) (p : ProbeState) : ProbeState :=
  if code = .ok ∧ isSuccess info.responseCode = true ∧ p.started = false then
    (startBody info { p with started := true }).1
  else p

/-- The region the response asks for. -/
def ProbeTurn.readRegion (turn : ProbeTurn) (p : ProbeState) : Text :=
  if p.responseRegion.isEmpty && turn.backend == .s3 then Detail.s3Region p.errorBody
  else p.responseRegion

/-- The loop body of `get_range` once the state is final: the guard, the corrections and the
answer to a `416`. -/
def ProbeTurn.correct (turn : ProbeTurn) (status : Int) (code : CurlCode) (p : ProbeState) :
    ProbeOutcome :=
  let url := redactUrl turn.requestUrl
  if p.redirectBlocked then
    .failed .errHttp
      (url ++ text ": cross-origin redirect blocked because KARU_HTTP_HEADERS is set")
  else if 300 ≤ status ∧ turn.loop.regionRetried = false ∧ turn.readRegion p ≠ [] ∧
      turn.readRegion p ≠ turn.loop.regionHint ∧ turn.backend = .s3 then
    .again { turn.loop with regionHint := turn.readRegion p, regionRetried := true }
  else if turn.loop.credentialsRetried = false ∧
      Detail.credentialsExpired turn.backend status p.errorBody = true then
    .again { turn.loop with credentialsRetried := true }
  else if code = .ok ∧ status = 416 then
    if !p.unsatisfiedContentRangeValid then
      .failed .errHttp (url ++ text ": invalid Content-Range in HTTP 416")
    else
      match unsatisfiedReply turn.range p with
      | some r => .reply r
      | none => turn.settle status code p turn.loop
  else turn.settle status code p turn.loop

/-- The loop body of `get_range` from `curl_easy_perform` on; `info` is what libcurl says of
the last response, and `code` what it returned. -/
def ProbeTurn.judge (turn : ProbeTurn) (info : Info) (code : CurlCode) (p : ProbeState) :
    ProbeOutcome :=
  turn.correct info.responseCode (deliveredCode code p) (startEmpty info (deliveredCode code p) p)

/-- What a turn meets: the request prepared for it, and its answers. -/
structure ProbeRequest (β : Type) where
  requestUrl : Text := []
  requestRange : Text := []
  http : HttpRequestOptions := {}
  routingRegion : Text := []
  responses : List (Trailed β)
  result : CurlCode := .ok
  message : Text := []
  deadlineExpired : Bool := false
  canWait : Bool := true

section
variable {β : Type} [Octet β]

/-- `get_range`, over the turns the world answers.  Next to the outcome goes the response
it was reached on, and the destination. -/
def getRange (curl : Libcurl) (options : ClientOptions) (backend : Backend) (range : ByteRange)
    (ifMatch : Text) :
    List (ProbeRequest β) → ProbeLoop → Memory Unit β →
      ProbeOutcome × Option (Trailed β) × Memory Unit β
  | [], loop, m => (.again loop, none, m)
  | q :: qs, loop, m =>
      if options.maxAttempts ≤ loop.attempt then
        (.failed .errNetwork (text "range request exhausted its retries"), none, m)
      else
        match range.refusal with
        | some detail => (.failed .errRange detail, none, m)
        | none =>
            let turn : ProbeTurn :=
              { backend := backend, range := range, options := options,
                loop := { loop with regionHint := q.routingRegion }, requestUrl := q.requestUrl,
                requestRange := q.requestRange, message := q.message,
                deadlineExpired := q.deadlineExpired, canWait := q.canWait }
            let p : ProbeState :=
              { range := range, ifMatch := ifMatch, fallbackLimit := options.rangeFallbackLimit,
                http := q.http, originalUrl := q.requestUrl }
            let ((s, last), accepted) := probeAttempt curl q.responses ⟨p, m⟩
            match turn.judge ((last.map (·.info)).getD ⟨0, -1⟩)
                (if accepted then q.result else .writeError) s.state with
            | .again loop => getRange curl options backend range ifMatch qs loop s.memory
            | outcome => (outcome, last, s.memory)

end

end Karu
