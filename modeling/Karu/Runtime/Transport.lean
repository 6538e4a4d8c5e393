/-
# `Karu.Runtime.Transport` — the callbacks of a batch transfer

`src/runtime/transport.cpp`: the two functions libcurl calls while a transfer
is active, and the functions that prepare and resume it; `Engine::deliver`
from `src/runtime/engine.cpp`, which turns a finished transfer into
completions.

The transfer and the memory its bytes go to are passed along in `Live`.  Its
third field is no variable of the source: `stream` lists the bytes that
`received` counts, which the source never has in one place.  Every function
that moves `received` moves `stream` with it, and nothing reads `stream`.

A callback answers `true` where the source returns the size it was given, and
`false` where it returns `0`; libcurl then ends the transfer.

Bytes are of any type with an octet to capture in an error body.
-/
import Karu.Runtime.Header
import Karu.Runtime.HttpResponse

namespace Karu

open Base

/-- What a byte of a body looks like in an error message. -/
class Octet (β : Type) where
  octet : β → UInt8

instance : Octet UInt8 := ⟨id⟩

/-- A byte that remembers where it comes from. -/
instance {ν : Type} : Octet (UInt8 × ν) := ⟨Prod.fst⟩

/-- What `curl_easy_getinfo` answers to the body callback: `CURLINFO_RESPONSE_CODE`
and `CURLINFO_CONTENT_LENGTH_DOWNLOAD_T`, the latter `-1` when unknown. -/
structure Info where
  responseCode : Int
  contentLength : Int := -1
deriving DecidableEq, Repr

/-- A transfer at work. -/
structure Live (β : Type) where
  transfer : Transfer
  memory : Memory Addr β
  stream : List β := []

/-- The transfer changes, and `stream` keeps what `received` still counts. -/
def Live.update {β : Type} (s : Live β) (t : Transfer) : Live β :=
  { s with transfer := t, stream := s.stream.take t.received }

/-- `kDrainLimit`. -/
def drainLimit : Nat := 262144

/-- `kErrorBodyCapacity`. -/
def errorBodyCapacity : Nat := 4096

/-! ## Versions -/

/-- `version_pin`. -/
def versionPin (t : Transfer) : Text := if t.ifMatch.isEmpty then t.resumeEtag else t.ifMatch

/-- `contradicts_pin`. -/
def contradictsPin (t : Transfer) : Bool :=
  isStrongEtag (versionPin t) && !t.responseEtag.isEmpty && t.responseEtag != versionPin t

/-- `plan_resume`. -/
def planResume (t : Transfer) : Transfer :=
  if !t.ifMatch.isEmpty && !isStrongEtag t.ifMatch then { t with resumed := 0, resumeEtag := [] }
  else if t.versionChanged || (t.httpStatus == 412 && t.ifMatch.isEmpty) then
    { t with resumed := 0, resumeEtag := [] }
  else if !(t.httpStatus == 200 || t.httpStatus == 206) || decide (t.received ≤ t.resumed) ||
      decide (t.length ≤ t.received) then t
  else if t.ifMatch.isEmpty && t.resumeEtag.isEmpty then
    if t.responseEtag.isEmpty then { t with resumed := 0 }
    else { t with resumeEtag := t.responseEtag, resumed := t.received }
  else { t with resumed := t.received }

/-! ## The header callback -/

/-- `valid_content_range`. -/
def validContentRange (t : Transfer) : Bool :=
  if !t.contentRangeSeen || !t.contentRangeValid ||
      t.contentRangeStart != add64 t.offset t.resumed then false
  else
    let requestedEnd := sub64 (add64 t.offset t.length) 1
    if requestedEnd < t.contentRangeEnd then false
    else t.contentRangeEnd == requestedEnd ||
      (t.contentRangeHasTotal && add64 t.contentRangeEnd 1 == t.contentRangeTotal)

/-- `reset_response`. -/
def resetResponse (t : Transfer) : Transfer :=
  { t with
    received := t.resumed, responseEtag := [], versionChanged := false, scatterCursor := 0,
    skip := 0, bodyLength := -1, consume := 0, satisfied := false, checkedStatus := false,
    httpStatus := 0, redirectBlocked := false, contentRangeSeen := false,
    contentRangeValid := false, contentRangeMatches := false, contentRangeStart := 0,
    contentRangeEnd := 0, contentRangeTotal := 0, contentRangeHasTotal := false,
    rangeFallbackRejected := false, encoding := {}, responseRegion := [], retryAfter := 0,
    errorBody := [], errorBodyReceived := 0 }

/-- The fields `parse_content_range` writes into. -/
def Transfer.rangeFields (t : Transfer) : RangeFields where
  first := t.contentRangeStart
  last := t.contentRangeEnd
  total := t.contentRangeTotal
  haveTotal := t.contentRangeHasTotal

/-- The `Content-Range` branch of `header_callback`. -/
def recordContentRange (value : Text) (t : Transfer) : Transfer :=
  let (valid, r) := parseContentRange value t.rangeFields
  let t := { t with
    contentRangeSeen := true, contentRangeValid := valid, contentRangeStart := r.first,
    contentRangeEnd := r.last, contentRangeTotal := r.total, contentRangeHasTotal := r.haveTotal }
  if valid then { t with contentRangeMatches := validContentRange t } else t

/-- The redirect guard of `header_callback`. -/
def blocksRedirect (curl : Libcurl) (line : Text) (t : Transfer) : Bool :=
  headerNameIs line (text "location:") && isRedirect t.httpStatus && t.http.followRedirects &&
    t.http.sameOriginRedirectsOnly &&
    !sameOriginRedirect curl t.requestUrl (headerValue line (text "location:"))

/-- `header_callback`; `now` is `std::time(nullptr)`. -/
def headerCallback (curl : Libcurl) (now : Int) (line : Text) (t : Transfer) : Transfer × Bool :=
  if isStatusLine line then ({ resetResponse t with httpStatus := responseStatus line }, true)
  else if blocksRedirect curl line t then ({ t with redirectBlocked := true }, false)
  else if headerNameIs line (text "content-range:") then
    (recordContentRange (headerValue line (text "content-range:")) t, true)
  else if headerNameIs line (text "x-amz-bucket-region:") then
    ({ t with responseRegion := headerValue line (text "x-amz-bucket-region:") }, true)
  else if headerNameIs line (text "retry-after:") then
    ({ t with retryAfter :=
        retryAfterSeconds curl (headerValue line (text "retry-after:")) now }, true)
  else if headerNameIs line (text "etag:") then
    let value := headerValue line (text "etag:")
    (if recognisedEtag value then { t with responseEtag := value } else t, true)
  else ({ t with encoding := recordEncoding t.encoding line }, true)

/-! ## Storing -/

section
variable {β : Type}

/-- The first loop of `store_payload`: skip the parts this chunk cannot touch. -/
def advanceCursor (parts : List Part) (chunkBegin cursor : Nat) : Nat :=
  cursor + ((parts.drop cursor).takeWhile fun p => decide (p.stop ≤ chunkBegin)).length

/-- The second loop of `store_payload`, over the parts from the cursor on. -/
def scatter (chunkBegin chunkEnd : Nat) (source : List β) :
    List Part → Memory Addr β → Memory Addr β
  | [], m => m
  | p :: ps, m =>
      if chunkEnd ≤ p.relativeOffset then m
      else
        let begin_ := max chunkBegin p.relativeOffset
        let end_ := min chunkEnd p.stop
        if end_ ≤ begin_ then scatter chunkBegin chunkEnd source ps m
        else
          scatter chunkBegin chunkEnd source ps
            (m.memcpy p.buffer (begin_ - p.relativeOffset)
              ((source.drop (begin_ - chunkBegin)).take (end_ - begin_)))

/-- `store_payload`. -/
def storePayload (data : List β) (s : Live β) : Live β :=
  let t := s.transfer
  let chunkEnd := add64 t.received data.length
  if !t.scattered then
    { transfer := { t with received := chunkEnd },
      memory := s.memory.memcpy t.sink t.received data,
      stream := s.stream ++ data }
  else
    let cursor := advanceCursor t.parts t.received t.scatterCursor
    { transfer := { t with received := chunkEnd, scatterCursor := cursor },
      memory := scatter t.received chunkEnd data (t.parts.drop cursor) s.memory,
      stream := s.stream ++ data }

/-! ## The body callback -/

/-- The status is read once per response, at the first piece of its body. -/
def seen (info : Info) (t : Transfer) : Transfer :=
  { t with checkedStatus := true, httpStatus := info.responseCode }

/-- `Range` was ignored: start over from the full body. -/
def restart (t : Transfer) : Transfer :=
  if t.httpStatus = 200 ∧ 0 < t.resumed then { t with resumed := 0, received := 0 } else t

/-- The lengths noted before a body is let in. -/
def noteLengths (info : Info) (t : Transfer) : Transfer :=
  let wanted := sub64 t.length t.resumed
  { t with
    bodyLength := info.contentLength,
    consume := if maxWord - wanted < t.skip then maxWord else t.skip + wanted }

/-- The fallback limit, and what there is to skip. -/
def enterBody (info : Info) (t : Transfer) : Transfer × Bool :=
  let first := add64 t.offset t.resumed
  if t.httpStatus = 200 ∧ 0 < first then
    if t.rangeFallbackLimit < first then ({ t with rangeFallbackRejected := true }, false)
    else (noteLengths info { t with skip := first }, true)
  else (noteLengths info t, true)

/-- The block of `write_callback` under `if (!transfer.checked_status)`; `false` where it
returns `0`. -/
def checkStatus (info : Info) (t : Transfer) : Transfer × Bool :=
  let t := seen info t
  if isSuccess t.httpStatus && Detail.transformed t.encoding then (t, false)
  else if isSuccess t.httpStatus && contradictsPin t then ({ t with versionChanged := true }, false)
  else if t.httpStatus == 206 && !validContentRange t then (t, false)
  else enterBody info (restart t)

/-- `capture_error_body`. -/
def captureErrorBody [Octet β] (captured : Text) (data : List β) : Text :=
  captured ++ (data.take (errorBodyCapacity - captured.length)).map Octet.octet

/-- Bytes of an oversized body that `write_callback` would have to drain. -/
def excessBytes (t : Transfer) (drained : Bool) : Nat :=
  if 0 ≤ t.bodyLength then
    if t.consume < t.bodyLength.toNat then t.bodyLength.toNat - t.consume else 0
  else if drained && t.httpStatus != 200 then 0
  else maxWord

/-- A piece is dropped as far as there is anything to skip. -/
def dropSkipped (data : List β) (s : Live β) : Live β :=
  { s with transfer := { s.transfer with skip := s.transfer.skip - data.length } }

def markSatisfied (s : Live β) : Live β :=
  { s with transfer := { s.transfer with satisfied := true } }

/-- The rest of `write_callback` once an error or a redirect is out of the question. -/
def writePayload (data : List β) (s : Live β) : Live β × Bool :=
  let rest := data.drop s.transfer.skip
  let s := dropSkipped data s
  if rest.isEmpty then (s, true)
  else
    let take := min (sub64 s.transfer.length s.transfer.received) rest.length
    let s := if 0 < take then storePayload (rest.take take) s else s
    if s.transfer.received = s.transfer.length then
      (markSatisfied s, !decide (drainLimit < excessBytes s.transfer (take == rest.length)))
    else (s, true)

/-- `write_callback` from the point where the status has been checked. -/
def writeBody [Octet β] (data : List β) (s : Live β) : Live β × Bool :=
  let t := s.transfer
  if isRedirect t.httpStatus && t.http.followRedirects then (s, true)
  else if 300 ≤ t.httpStatus then
    let t := { t with errorBody := captureErrorBody t.errorBody data }
    if drainLimit - min drainLimit t.errorBodyReceived < data.length then
      ({ s with transfer := t }, false)
    else
      ({ s with transfer := { t with
          errorBodyReceived := t.errorBodyReceived + data.length } }, true)
  else writePayload data s

/-- `write_callback`. -/
def writeCallback [Octet β] (info : Info) (data : List β) (s : Live β) : Live β × Bool :=
  if s.transfer.satisfied then (s, true)
  else if s.transfer.checkedStatus then writeBody data s
  else
    let (t, proceed) := checkStatus info s.transfer
    if proceed then writeBody data (s.update t) else (s.update t, false)

/-! ## Before and after -/

/-- `ensure_sink`; `room` says whether the scratch vector can be resized. -/
def ensureSink (room : Bool) (t : Transfer) : Transfer × Bool :=
  if t.sink ≠ .null then (t, true)
  else if !t.scattered then ({ t with sink := (t.parts.head?.map (·.buffer)).getD .null }, true)
  else if t.locator.backend ≠ .file then (t, true)
  else if !room then (t, false)
  else ({ t with scratch := t.length, sink := .scratch }, true)

/-- The part of `configure` that is not about curl options. -/
def configure (rangeFallbackLimit : Nat) (t : Transfer) : Transfer :=
  { resetResponse t with rangeFallbackLimit := rangeFallbackLimit }

/-- `shown_uri`. -/
def shownUri (r : Resolved) : Text :=
  if r.backend = .http then redactUrl r.canonicalUri else r.canonicalUri

/-- The completion `Engine::deliver` builds for one part. -/
def deliverPart (t : Transfer) (status : Status) (detail : Text) (p : Part) : Completion :=
  if status = .ok then
    if t.received < p.stop then
      { tag := p.tag, status := .errRange, buffer := p.buffer,
        got := if p.relativeOffset < t.received then t.received - p.relativeOffset else 0,
        detail := shownUri t.locator ++ text ": object ended at byte " ++
          decimal (add64 t.offset t.received) ++ text " while reading [" ++
          decimal (add64 t.offset p.relativeOffset) ++ text ", +" ++ decimal p.length ++ text ")" }
    else { tag := p.tag, status := .ok, buffer := p.buffer, got := p.length, detail := detail }
  else { tag := p.tag, status := status, buffer := p.buffer, got := 0, detail := detail }

/-- The copy out of the scratch vector that `Engine::deliver` makes for one part. -/
def unstagePart (t : Transfer) (got : Nat) (p : Part) (m : Memory Addr β) : Memory Addr β :=
  if 0 < got ∧ 0 < t.scratch then m.memcpy p.buffer 0 (m.read .scratch p.relativeOffset got)
  else m

/-- `Engine::deliver`: the completions, in the order they are pushed, and the
memory once they are. -/
def deliver (t : Transfer) (status : Status) (detail : Text) (m : Memory Addr β) :
    List Completion × Memory Addr β :=
  (t.parts.map (deliverPart t status detail),
    if status = .ok then
      t.parts.foldl (fun m p => unstagePart t (deliverPart t status detail p).got p m) m
    else m)

end

end Karu
