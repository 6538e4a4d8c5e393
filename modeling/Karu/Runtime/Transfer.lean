/-
# `Karu.Runtime.Transfer` — the records the runtime passes around

`include/karu/karu.h`, `src/uri.hpp`, `src/request.hpp` and
`src/runtime/transfer.hpp`, field by field.  A `std::uint64_t` is a natural
number; the records that come from outside (a resolved locator, a request)
carry the proof that their words are words, so a request that could not have
been passed to `karu_client_submit` cannot be written down here.

A pointer is an `Addr`.  `transfer.scratch` is the vector a coalesced local
read is staged in: its data pointer is `Addr.scratch` and the field holds its
size.  `transfer.http_buffers->error_body` together with `error_body_size` is
the text captured so far.

Left out, because nothing modelled here reads it: the curl handles and header
lists, the prepared request text other than its URL, the resolved credentials
themselves (only that they are ready matters to the engine) and the deadline,
whose answers are inputs of the functions that ask it.
-/
import Karu.Base.Text
import Karu.Base.Memory

namespace Karu

open Base

/-! ## Statuses and backends -/

/-- `karu_status`. -/
inductive Status where
  | ok | end_ | timeout
  | errUri | errUnsupported | errInvalid | errNomem | errIo | errNetwork | errHttp | errRange
  | errAuth | errCancelled | errConfig | errCredentials | errNotFound | errPrecondition
deriving DecidableEq, Repr

/-- `karu::Backend`, in the order of the enumeration. -/
inductive Backend where
  | file | http | s3 | gcs | azure | huggingFace | source
deriving DecidableEq, Repr

/-- The value of the enumerator, which `std::tie` compares. -/
def Backend.index : Backend → Nat
  | .file => 0 | .http => 1 | .s3 => 2 | .gcs => 3 | .azure => 4 | .huggingFace => 5 | .source => 6

/-- `backends::cloud_provider(backend) != nullptr`. -/
def Backend.cloud : Backend → Bool
  | .s3 | .gcs | .azure | .source => true
  | .file | .http | .huggingFace => false

/-! ## Pointers -/

/-- A pointer: `nullptr`, some object, or the data of the transfer's scratch vector. -/
inductive Addr where
  | null
  | heap (n : Nat)
  | scratch
deriving DecidableEq, Repr

/-! ## Locators and requests -/

/-- `TO_END`, the window length of an unbounded locator. -/
def toEnd : Nat := 2 ^ 64 - 1

theorem toEnd_lt : toEnd < 2 ^ 64 := by decide

/-- `karu::Resolved`. -/
structure Resolved where
  backend : Backend := .file
  canonicalUri : Text := []
  target : Text := []
  container : Text := []
  key : Text := []
  azureDfs : Bool := false
  windowOffset : Nat := 0
  windowLength : Nat := toEnd
  windowOffset_lt : windowOffset < 2 ^ 64 := by first | exact zero_lt_word | decide
  windowLength_lt : windowLength < 2 ^ 64 := by first | exact toEnd_lt | decide
deriving DecidableEq, Repr

/-- `karu::Request`, as `convert_requests` lets it through: not empty, and of
finite length. -/
structure Request where
  locator : Resolved
  offset : Nat := 0
  length : Nat
  buffer : Addr := .null
  tag : Nat := 0
  ifMatch : Text := []
  offset_lt : offset < 2 ^ 64 := by first | exact zero_lt_word | decide
  length_pos : 1 ≤ length := by decide
  length_lt : length < 2 ^ 64 - 1 := by decide
deriving DecidableEq, Repr

/-- `karu::Part`.  `owned_buffer` is the same pointer as `buffer` when karu allocated it. -/
structure Part where
  relativeOffset : Nat := 0
  length : Nat := 0
  buffer : Addr := .null
  tag : Nat := 0
deriving DecidableEq, Repr

/-- One past the last byte of the part, `part.relative_offset + part.length`. -/
def Part.stop (p : Part) : Nat := add64 p.relativeOffset p.length

/-- `karu::Completion`. -/
structure Completion where
  tag : Nat := 0
  status : Status := .ok
  got : Nat := 0
  buffer : Addr := .null
  detail : Text := []
deriving DecidableEq, Repr

/-! ## Transfers -/

/-- `karu::EncodingHeaders`. -/
structure EncodingHeaders where
  content : Text := []
  stored : Text := []
  transformationWarning : Bool := false
deriving DecidableEq, Repr

/-- The two fields of `karu::HttpRequestOptions` that decide about redirects. -/
structure HttpRequestOptions where
  followRedirects : Bool := true
  sameOriginRedirectsOnly : Bool := false
deriving DecidableEq, Repr

/-- `karu::Transfer`. -/
structure Transfer where
  batch : Nat := 0
  locator : Resolved
  offset : Nat := 0
  length : Nat := 0
  parts : List Part := []
  ifMatch : Text := []
  scattered : Bool := false
  sink : Addr := .null
  scratch : Nat := 0
  scatterCursor : Nat := 0
  requestUrl : Text := []
  http : HttpRequestOptions := {}
  regionHint : Text := []
  credentialsReady : Bool := false
  resumed : Nat := 0
  resumeEtag : Text := []
  responseEtag : Text := []
  versionChanged : Bool := false
  received : Nat := 0
  skip : Nat := 0
  bodyLength : Int := -1
  consume : Nat := 0
  satisfied : Bool := false
  checkedStatus : Bool := false
  httpStatus : Int := 0
  redirectBlocked : Bool := false
  contentRangeSeen : Bool := false
  contentRangeValid : Bool := false
  contentRangeMatches : Bool := false
  contentRangeStart : Nat := 0
  contentRangeEnd : Nat := 0
  contentRangeTotal : Nat := 0
  contentRangeHasTotal : Bool := false
  rangeFallbackLimit : Nat := 0
  rangeFallbackRejected : Bool := false
  encoding : EncodingHeaders := {}
  responseRegion : Text := []
  regionRetried : Bool := false
  credentialsRetried : Bool := false
  attempt : Nat := 0
  unreachableAttempts : Nat := 0
  retryAfter : Int := 0
  errorBody : Text := []
  errorBodyReceived : Nat := 0
deriving DecidableEq, Repr

/-- How the planner lays a transfer out.  Nothing that happens to the transfer
later touches these fields.  Positions are natural numbers here: that they are
below `2 ^ 64` is part of the statement. -/
structure Transfer.Layout (t : Transfer) : Prop where
  first_zero : ∃ p ps, t.parts = p :: ps ∧ p.relativeOffset = 0
  sorted : t.parts.Pairwise fun p q => p.relativeOffset ≤ q.relativeOffset
  part_pos : ∀ p ∈ t.parts, 1 ≤ p.length
  part_stop : ∀ p ∈ t.parts, p.relativeOffset + p.length ≤ t.length
  longest : ∃ p ∈ t.parts, p.relativeOffset + p.length = t.length
  length_lt : t.length < 2 ^ 64
  stop_le : t.offset + t.length ≤ 2 ^ 64
  whole : t.scattered = false → ∃ p, t.parts = [p] ∧ p.relativeOffset = 0 ∧ p.length = t.length

/-- `ClientOptions`: the planner's and the transport's share of it.  The client
configuration and `karu_submit_options` both refuse a zero limit, part count or
amplification. -/
structure ClientOptions where
  coalesceGap : Nat := 1048576
  coalesceLimit : Nat := 67108864
  coalesceParts : Nat := 1024
  coalesceAmplification : Nat := 16
  rangeFallbackLimit : Nat := 8388608
  maxAttempts : Nat := 8
  coalesceGap_lt : coalesceGap < 2 ^ 64 := by first | exact zero_lt_word | decide
  coalesceLimit_lt : coalesceLimit < 2 ^ 64 := by decide
  coalesceLimit_pos : 1 ≤ coalesceLimit := by decide
  coalesceParts_lt : coalesceParts < 2 ^ 64 := by decide
  coalesceParts_pos : 1 ≤ coalesceParts := by decide
  coalesceAmplification_lt : coalesceAmplification < 2 ^ 64 := by decide
  coalesceAmplification_pos : 1 ≤ coalesceAmplification := by decide
  rangeFallbackLimit_lt : rangeFallbackLimit < 2 ^ 64 := by decide
deriving DecidableEq, Repr

/-- The numbers of a configuration that sets none of them. -/
def ClientOptions.initial : ClientOptions := {}

end Karu
