/-
# `Karu.Runtime.HttpResponse` — `src/runtime/http_response.cpp`

What a finished response means: whether it succeeded, whether it may be
retried, and which failure to report.  The texts of the failures are here in
full; `curl_easy_strerror` and the error buffer libcurl fills are arguments.
-/
import Karu.Text
import Karu.Runtime.Transfer

namespace Karu

open Base

/-- The `CURLcode`s that the runtime tells apart. -/
inductive CurlCode where
  | ok | couldntResolveHost | couldntConnect | http2 | partialFile | writeError
  | operationTimedout | sslConnectError | gotNothing | sendError | recvError | http2Stream
  | other (code : Nat)
deriving DecidableEq, Repr

namespace Detail

/-! ## Encodings -/

/-- `detail::coding`. -/
def coding (value : Text) : Text := if value.isEmpty then text "identity" else value

/-- `detail::same_coding`. -/
def sameCoding (l r : Text) : Bool := (coding l).map asciiLower == (coding r).map asciiLower

/-- `detail::transformed`. -/
def transformed (encoding : EncodingHeaders) : Bool :=
  encoding.transformationWarning ||
    (!encoding.stored.isEmpty && !sameCoding encoding.content encoding.stored)

/-- `detail::transformation_detail`. -/
def transformationDetail (url : Text) (encoding : EncodingHeaders) : Text :=
  if !encoding.stored.isEmpty && encoding.content.isEmpty then
    url ++ text ": the server decoded an object stored with Content-Encoding " ++
      encoding.stored ++
      text " (GCS decompressive transcoding), so the body is not the stored bytes; " ++
      text "read it through gs:// or send 'Accept-Encoding: " ++ encoding.stored ++
      text "' with KARU_HTTP_HEADERS"
  else if !encoding.stored.isEmpty && !sameCoding encoding.content encoding.stored then
    url ++ text ": the server sent Content-Encoding " ++ encoding.content ++
      text " for an object stored as " ++ coding encoding.stored ++
      text ", so the body is not the stored bytes"
  else
    url ++ text ": the response carries Warning 214 (transformation applied), so the " ++
      text "body is not the stored bytes"

/-! ## Error bodies -/

/-- The loop of `detail::summarize`, with what it has written and its `pending_space`. -/
def summarizeFrom (result : Text) (pendingSpace : Bool) : Text → Text
  | [] => result
  | c :: cs =>
      if c ≤ 32 then summarizeFrom result true cs
      else
        let result := if pendingSpace && !result.isEmpty then result ++ [32, c] else result ++ [c]
        if result.length = 200 then result else summarizeFrom result false cs

/-- `detail::summarize`. -/
def summarize (body : Text) : Text := summarizeFrom [] false body

/-- `body.find(pattern) != npos`. -/
def contains (body pattern : Text) : Bool := (findText pattern body).isSome

/-- `detail::s3_region`. -/
def s3Region (body : Text) : Text :=
  match findText (text "<Region>") body with
  | none => []
  | some first =>
      let rest := body.drop (first + 8)
      match findText (text "</Region>") rest with
      | none => []
      | some end_ => rest.take end_

/-- `detail::credentials_expired`. -/
def credentialsExpired (backend : Backend) (status : Int) (body : Text) : Bool :=
  if status == 401 && (backend == .gcs || backend == .azure || backend == .source) then true
  else if status != 403 || (backend != .s3 && backend != .source) then false
  else contains body (text "<Code>ExpiredToken</Code>") ||
    contains body (text "<Code>InvalidToken</Code>") ||
    contains body (text "<Code>RequestExpired</Code>")

/-! ## Statuses -/

/-- `detail::status_for_http`. -/
def statusForHttp (status : Int) : Status :=
  if status == 401 || status == 403 then .errAuth
  else if status == 404 then .errNotFound
  else if status == 412 then .errPrecondition
  else if status == 416 then .errRange
  else .errHttp

/-- `detail::transient`. -/
def transient (code : CurlCode) (status : Int) : Bool :=
  match code with
  | .operationTimedout | .couldntConnect | .couldntResolveHost | .gotNothing | .sendError
  | .recvError | .partialFile | .sslConnectError | .http2 | .http2Stream => true
  | .ok | .writeError | .other _ =>
      status == 408 || status == 425 || status == 429 ||
        (decide (500 ≤ status) && decide (status < 600))

end Detail

/-! ## The verdict on a transfer -/

/-- `status >= 200 && status < 300`. -/
def isSuccess (status : Int) : Bool := decide (200 ≤ status) && decide (status < 300)

/-- `status >= 300 && status < 400`. -/
def isRedirect (status : Int) : Bool := decide (300 ≤ status) && decide (status < 400)

/-- `succeeded`. -/
def succeeded (t : Transfer) (code : CurlCode) : Bool :=
  if !(code == .ok || t.satisfied) || !isSuccess t.httpStatus then false
  else if Detail.transformed t.encoding then false
  else if t.httpStatus != 206 then true
  else if !t.contentRangeMatches then false
  else sub64 t.received t.resumed == add64 (sub64 t.contentRangeEnd t.contentRangeStart) 1

theorem succeeded_iff {t : Transfer} {code : CurlCode} : succeeded t code = true ↔
    (code = .ok ∨ t.satisfied = true) ∧ isSuccess t.httpStatus = true ∧
      Detail.transformed t.encoding = false ∧
      (t.httpStatus = 206 → t.contentRangeMatches = true ∧
        sub64 t.received t.resumed = add64 (sub64 t.contentRangeEnd t.contentRangeStart) 1) := by
  unfold succeeded
  cases htransport : (code == .ok || t.satisfied) <;>
    simp only [Bool.or_eq_true, Bool.or_eq_false_iff, beq_iff_eq, beq_eq_false_iff_ne] at htransport
  · simp [htransport]
  · cases hsuccess : isSuccess t.httpStatus with
    | false => simp
    | true =>
        cases hplain : Detail.transformed t.encoding with
        | true => simp
        | false =>
            by_cases h206 : t.httpStatus = 206
            · cases hmatches : t.contentRangeMatches with
              | false => simp [h206]
              | true => simp [h206, htransport]
            · simp [h206, htransport]

/-- `detail::credentials_expired` of a transfer. -/
def Transfer.credentialsExpired (t : Transfer) : Bool :=
  Detail.credentialsExpired t.locator.backend t.httpStatus t.errorBody

/-- `retryable`. -/
def retryable (t : Transfer) (code : CurlCode) : Bool :=
  if Detail.transient code t.httpStatus then true
  else if t.ifMatch.isEmpty &&
      (t.versionChanged || (t.httpStatus == 412 && !t.resumeEtag.isEmpty)) then true
  else t.httpStatus == 400 && Detail.contains t.errorBody (text "RequestTimeout")

/-- `unreachable`. -/
def unreachable (code : CurlCode) : Bool := code == .couldntResolveHost || code == .couldntConnect

/-- `Transfer::url`. -/
def Transfer.url (t : Transfer) : Text := t.requestUrl

/-- `failure`.  `message` is the error buffer, or `curl_easy_strerror(code)` where it is empty. -/
def failure (t : Transfer) (code : CurlCode) (message : Text) : Status × Text :=
  let url := redactUrl t.url
  let requestedFirst := add64 t.offset t.resumed
  let requestedEnd := sub64 (add64 t.offset t.length) 1
  let requested := text " for requested [" ++ decimal requestedFirst ++ text ", " ++
    decimal requestedEnd ++ text "]"
  if t.redirectBlocked then
    (.errHttp, url ++ text ": cross-origin redirect blocked because KARU_HTTP_HEADERS is set")
  else if isSuccess t.httpStatus && Detail.transformed t.encoding then
    (.errHttp, Detail.transformationDetail url t.encoding)
  else if t.versionChanged && !t.ifMatch.isEmpty then
    (.errPrecondition, url ++ text ": the server ignored If-Match and sent ETag " ++
      t.responseEtag ++ text ", so the object no longer matches if_match")
  else if t.versionChanged ||
      (t.httpStatus == 412 && t.ifMatch.isEmpty && !t.resumeEtag.isEmpty) then
    (.errHttp, url ++ text ": the object changed while an interrupted read was being resumed")
  else if t.rangeFallbackRejected then
    (.errHttp, url ++ text ": server ignored Range; refusing to discard " ++ decimal t.offset ++
      text " bytes (limit " ++ decimal t.rangeFallbackLimit ++ text ")")
  else if t.httpStatus == 206 && !t.contentRangeMatches then
    if !t.contentRangeSeen then (.errHttp, url ++ text ": missing Content-Range" ++ requested)
    else if !t.contentRangeValid then
      (.errHttp, url ++ text ": malformed Content-Range" ++ requested)
    else
      (.errHttp, url ++ text ": Content-Range [" ++ decimal t.contentRangeStart ++ text ", " ++
        decimal t.contentRangeEnd ++ text "] does not satisfy requested [" ++
        decimal requestedFirst ++ text ", " ++ decimal requestedEnd ++ text "]")
  else if code != .ok && isRedirect t.httpStatus && t.http.followRedirects then
    (.errNetwork, url ++ text ": " ++ message)
  else if decide (300 ≤ t.httpStatus) then
    let body := Detail.summarize t.errorBody
    let head := url ++ text ": HTTP " ++ decimal t.httpStatus.toNat
    (Detail.statusForHttp t.httpStatus, if body.isEmpty then head else head ++ text ": " ++ body)
  else (.errNetwork, url ++ text ": " ++ message)

theorem Detail.statusForHttp_ne_ok (status : Int) : Detail.statusForHttp status ≠ .ok := by
  unfold Detail.statusForHttp
  repeat' split
  all_goals exact Status.noConfusion

/-- A failure is never reported as a success. -/
theorem failure_ne_ok (t : Transfer) (code : CurlCode) (message : Text) :
    (failure t code message).1 ≠ .ok := by
  simp only [failure]
  repeat' split
  all_goals first | exact Status.noConfusion | exact Detail.statusForHttp_ne_ok _

end Karu
