/-
# `Karu.Runtime.Attempt` — a transfer from its first request to its verdict

One attempt sends one request and reads what comes back: any number of
responses (interim ones, redirects, the final one), each a list of header
lines and a body cut into chunks.  libcurl hands them to the two callbacks in
order and stops at the first that refuses; what it then reports is
`CURLE_WRITE_ERROR`.  Otherwise it reports a code of its own, `CURLE_OK` when
the last body was complete.  `perform` is that part of libcurl.

`start` is `Engine::start_transfer` from the prepared request on, and
`complete` the body of the message loop of `Engine::io_loop`
(`src/runtime/engine.cpp`): finish, or go round once more after a region
correction, a credential refresh or an ordinary retry.  `run` is the transfer
as a whole, over the attempts the world answers.

The answers of the clock are part of an attempt: whether the deadline has
passed, whether it leaves time for the delay, and the second at which
`Retry-After` was read.  So is the request as it was rebuilt for the attempt.
An attempt that is refused before a request leaves (a deadline, a credential
error, a failing allocation) shows the callbacks nothing, and a run just ends
before it.
-/
import Karu.Base.Feed
import Karu.Runtime.Transport

namespace Karu

open Base

variable {β : Type}

/-! ## What libcurl reads -/

theorem statusLine_whole : isStatusLine (text "HTTP/1.1 200 OK\r\n") = true := by decide

theorem statusLine_range : isStatusLine (text "HTTP/1.1 206 Partial Content\r\n") = true := by
  decide

theorem statusLine_unsatisfied :
    isStatusLine (text "HTTP/1.1 416 Range Not Satisfiable\r\n") = true := by
  decide

theorem fields_none : ∀ l ∈ ([] : List Text), isStatusLine l = false := by
  intro l hl
  cases hl

theorem chunks_none : ∀ c ∈ ([] : List (List β)), c ≠ [] := by
  intro c hc
  cases hc

/-- One response, as libcurl hands it to the callbacks: its status line, its other
header lines, its body.  The callbacks take every line that begins like a status line
for one, so such a line begins a response of its own here.  libcurl does not call the
body callback for no bytes. -/
structure Response (β : Type) where
  code : Int
  statusLine : Text
  fields : List Text := []
  contentLength : Int := -1
  now : Int := 0
  chunks : List (List β) := []
  status_first : isStatusLine statusLine = true := by
    first
    | with_reducible exact statusLine_whole
    | with_reducible exact statusLine_range
    | with_reducible exact statusLine_unsatisfied
    | decide
  status_once : ∀ l ∈ fields, isStatusLine l = false := by
    first | with_reducible exact fields_none | decide
  chunk_ne : ∀ c ∈ chunks, c ≠ [] := by first | with_reducible exact chunks_none | decide

/-- The header lines in the order they arrive. -/
def Response.lines (r : Response β) : List Text := r.statusLine :: r.fields

/-- What `curl_easy_getinfo` answers during the body. -/
def Response.info (r : Response β) : Info := ⟨r.code, r.contentLength⟩

/-- The bytes of the body that arrived. -/
def Response.body (r : Response β) : List β := r.chunks.flatten

structure Attempt (β : Type) where
  requestUrl : Text := []
  http : HttpRequestOptions := {}
  batchRegion : Text := []
  routingRegion : Text := []
  responses : List (Response β)
  result : CurlCode := .ok
  message : Text := []
  deadlineExpired : Bool := false
  canWait : Bool := true

/-! ## Driving the callbacks -/

/-- One header line of a response. -/
def feedLine (curl : Libcurl) (now : Int) (line : Text) (s : Live β) : Live β × Bool :=
  let (t, accepted) := headerCallback curl now line s.transfer
  (s.update t, accepted)

variable [Octet β]

/-- One response: its lines, then its body. -/
def feedResponse (curl : Libcurl) (r : Response β) (s : Live β) : Live β × Bool :=
  let (s, accepted) := feed (feedLine curl r.now) r.lines s
  if accepted then feed (writeCallback r.info) r.chunks s else (s, false)

/-- One response of an attempt.  Next to the transfer goes the response begun last, with
the transfer as it was when it began: what the attempt ends on. -/
def feedNext (curl : Libcurl) (r : Response β) (x : Live β × Option (Response β × Live β)) :
    (Live β × Option (Response β × Live β)) × Bool :=
  (((feedResponse curl r x.1).1, some (r, x.1)), (feedResponse curl r x.1).2)

/-- The responses of an attempt. -/
def feedAttempt (curl : Libcurl) (responses : List (Response β)) (s : Live β) :
    (Live β × Option (Response β × Live β)) × Bool :=
  feed (feedNext curl) responses (s, none)

/-- `Engine::start_transfer`, from the prepared request on. -/
def start (options : ClientOptions) (a : Attempt β) (s : Live β) : Live β :=
  let t := (ensureSink true s.transfer).1
  let t := if t.regionHint.isEmpty then { t with regionHint := a.batchRegion } else t
  let t := { t with
    requestUrl := a.requestUrl, http := a.http,
    regionHint := if a.routingRegion.isEmpty then t.regionHint else a.routingRegion }
  s.update (configure options.rangeFallbackLimit t)

/-- What libcurl leaves of the attempt: the transfer after the callbacks, the last
`CURLINFO_RESPONSE_CODE`, and the result. -/
def perform (curl : Libcurl) (a : Attempt β) (s : Live β) : Live β × Int × CurlCode :=
  let ((s, last), accepted) := feedAttempt curl a.responses s
  (s, (last.map (·.1.code)).getD 0, if accepted then a.result else .writeError)

/-! ## The verdict -/

/-- What `io_loop` does with a transfer that libcurl has finished with. -/
inductive Outcome (β : Type) where
  | finish (status : Status) (detail : Text) (s : Live β)
  | again (s : Live β)

/-- The transfer it leaves. -/
def Outcome.live : Outcome β → Live β
  | .finish _ _ s => s
  | .again s => s

/-- `timeout_detail`. -/
def timeoutDetail (t : Transfer) (reason : Text) : Text :=
  redactUrl (if t.requestUrl.isEmpty then t.locator.canonicalUri else t.requestUrl) ++
    text ": " ++ reason

/-- `transfer->http_status` as the message loop first sees it. -/
def settleStatus (code : Int) (t : Transfer) : Transfer :=
  if t.httpStatus = 0 then { t with httpStatus := code } else t

/-- The region the response asks for. -/
def readRegion (t : Transfer) : Transfer :=
  if t.responseRegion.isEmpty && t.locator.backend == .s3 then
    { t with responseRegion := Detail.s3Region t.errorBody } else t

/-- The ordinary retry, and the failure where there is none left. -/
def retryOrFail (options : ClientOptions) (a : Attempt β) (result : CurlCode) (s : Live β)
    (t : Transfer) : Outcome β :=
  let t := if unreachable result then
    { t with unreachableAttempts := t.unreachableAttempts + 1 } else t
  if t.attempt + 1 < options.maxAttempts ∧ t.unreachableAttempts < 3 ∧
      retryable t result = true then
    let t := planResume { t with attempt := t.attempt + 1 }
    if a.canWait then .again { s with transfer := t }
    else
      .finish .timeout (timeoutDetail t (text "request timeout leaves no time for another attempt"))
        { s with transfer := t }
  else
    let (status, detail) := failure t result a.message
    .finish status detail { s with transfer := t }

/-- The body of the message loop of `Engine::io_loop`. -/
def complete (options : ClientOptions) (a : Attempt β) (code : Int) (result : CurlCode)
    (s : Live β) : Outcome β :=
  let t := settleStatus code s.transfer
  if succeeded t result then .finish .ok [] { s with transfer := t }
  else if a.deadlineExpired then
    .finish .timeout (timeoutDetail t (text "request timeout exceeded")) { s with transfer := t }
  else
    let t := readRegion t
    if !t.regionRetried && !t.responseRegion.isEmpty && t.responseRegion != t.regionHint &&
        t.locator.backend == .s3 then
      .again { s with transfer := { t with regionHint := t.responseRegion, regionRetried := true } }
    else if !t.credentialsRetried && t.credentialsExpired then
      .again { s with transfer := { t with credentialsRetried := true, credentialsReady := false } }
    else retryOrFail options a result s t

/-- One attempt from start to verdict. -/
def attempt (curl : Libcurl) (options : ClientOptions) (a : Attempt β) (s : Live β) : Outcome β :=
  let (s, code, result) := perform curl a (start options a s)
  complete options a code result s

/-- The attempts of a transfer, until one finishes it. -/
def run (curl : Libcurl) (options : ClientOptions) : List (Attempt β) → Live β → Outcome β
  | [], s => .again s
  | a :: as, s =>
      match attempt curl options a s with
      | .finish status detail s => .finish status detail s
      | .again s => run curl options as s

end Karu
