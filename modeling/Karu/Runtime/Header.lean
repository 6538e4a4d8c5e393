/-
# `Karu.Runtime.Header` — reading one response header line

The helpers at the top of `src/runtime/transport.cpp` that the two header
callbacks share, the asynchronous one and the probe's.  A line is what libcurl
hands over: the bytes up to and including the line ending.

`parse_u64` writes its output argument whenever `std::from_chars` produces a
number, also when text is left behind it and the parse is then refused; so
`parseContentRange` returns its fields next to its verdict, and a refused
header may still have changed them.

What libcurl decides is the parameter `Libcurl`: its URL parser and its date
parser.  Nothing is assumed about them here.
-/
import Mathlib.Data.List.DropRight
import Karu.Runtime.Transfer

namespace Karu

open Base

/-! ## Names and values -/

/-- `header_name_is`. -/
def headerNameIs (line name : Text) : Bool :=
  decide (name.length ≤ line.length) &&
    (line.take name.length).map asciiLower == name.map asciiLower

/-- A blank that may stand before a value. -/
def isBlank (c : UInt8) : Bool := c == 32 || c == 9

/-- A blank or a line ending, which may stand after a value. -/
def isTrailing (c : UInt8) : Bool := c == 13 || c == 10 || c == 32 || c == 9

/-- `header_value`. -/
def headerValue (line name : Text) : Text :=
  ((line.drop name.length).dropWhile isBlank).rdropWhile isTrailing

/-- `ascii_equal`. -/
def asciiEqual (l r : Text) : Bool := l.map asciiLower == r.map asciiLower

/-- `line.starts_with("HTTP/")`. -/
def isStatusLine (line : Text) : Bool := (text "HTTP/").isPrefixOf line

/-- `response_status`: the second word of the line, if all of it is a number. -/
def responseStatus (line : Text) : Int :=
  let first := line.dropWhile (· != 32)
  let begin_ := first.dropWhile (· == 32)
  if first.isEmpty || begin_.isEmpty then 0
  else
    match fromCharsLong (begin_.takeWhile (· != 32)) with
    | some (status, []) => status
    | _ => 0

/-! ## Ranges -/

/-- `parse_u64`, with its output argument. -/
def parseU64 (s : Text) (value : Nat) : Bool × Nat :=
  match fromChars s with
  | some (n, rest) => (rest.isEmpty, n)
  | none => (false, value)

/-- The output arguments of `parse_content_range`. -/
structure RangeFields where
  first : Nat := 0
  last : Nat := 0
  total : Nat := 0
  haveTotal : Bool := false
deriving DecidableEq, Repr

/-- Where `parse_content_range` cuts its text: before the dash, between dash and slash,
and after the slash. -/
def splitContentRange (value : Text) : Option (Text × Text × Text) :=
  if !(text "bytes ").isPrefixOf value then none
  else
    let value := value.drop 6
    match find 45 value, find 47 value with
    | some dash, some slash =>
        if dash = 0 ∨ slash < dash then none
        else some (value.take dash, (value.drop (dash + 1)).take (slash - dash - 1),
          value.drop (slash + 1))
    | _, _ => none

/-- The last lines of `parse_content_range`: the text after the slash. -/
def parseTotal (totalText : Text) (r : RangeFields) : Bool × RangeFields :=
  if totalText == text "*" then (!totalText.isEmpty, { r with haveTotal := false })
  else
    let (totalOk, total) := parseU64 totalText r.total
    let r := { r with total := total, haveTotal := true }
    (if !totalOk || total == 0 || decide (total ≤ r.last) then false else !totalText.isEmpty, r)

/-- `parse_content_range`. -/
def parseContentRange (value : Text) (r : RangeFields) : Bool × RangeFields :=
  match splitContentRange value with
  | none => (false, r)
  | some (firstText, lastText, totalText) =>
      let (firstOk, first) := parseU64 firstText r.first
      if !firstOk then (false, { r with first := first })
      else
        let (lastOk, last) := parseU64 lastText r.last
        let r := { r with first := first, last := last }
        if !lastOk || decide (last < first) then (false, r) else parseTotal totalText r

/-- `parse_unsatisfied_content_range`. -/
def parseUnsatisfiedContentRange (value : Text) (total : Nat) : Bool × Nat :=
  if (text "bytes */").isPrefixOf value then parseU64 (value.drop 8) total else (false, total)

/-! ## Validators and encodings -/

/-- `is_strong_etag`. -/
def isStrongEtag (value : Text) : Bool :=
  decide (2 ≤ value.length) && value.head? == some 34 && value.getLast? == some 34 &&
    value.tail.dropLast.all fun c => decide (33 ≤ c) && c != 34 && c != 127

/-- An `ETag` value either callback records: strong, and at most 255 bytes. -/
def recognisedEtag (value : Text) : Bool := decide (value.length ≤ 255) && isStrongEtag value

/-- `record_encoding`, which keeps 64 bytes of each header. -/
def recordEncoding (encoding : EncodingHeaders) (line : Text) : EncodingHeaders :=
  if headerNameIs line (text "content-encoding:") then
    { encoding with content := (headerValue line (text "content-encoding:")).take 64 }
  else if headerNameIs line (text "x-goog-stored-content-encoding:") then
    { encoding with stored := (headerValue line (text "x-goog-stored-content-encoding:")).take 64 }
  else if headerNameIs line (text "warning:") then
    let value := headerValue line (text "warning:")
    if value == text "214" || (text "214 ").isPrefixOf value then
      { encoding with transformationWarning := true }
    else encoding
  else encoding

/-! ## What libcurl decides -/

/-- The parts of libcurl the callbacks call: its URL handle and `curl_getdate`. -/
structure Libcurl where
  Url : Type
  /-- `curl_url_set(url, CURLUPART_URL, text, 0)` on an empty handle. -/
  parse : Text → Option Url
  /-- The same call on a handle that already holds a URL, which the text may be relative to. -/
  resolve : Url → Text → Option Url
  scheme : Url → Option Text
  host : Url → Option Text
  /-- `CURLUPART_PORT` with `CURLU_DEFAULT_PORT`. -/
  port : Url → Option Text
  /-- `curl_getdate`, which is `-1` for a text that is no date. -/
  getdate : Text → Int

/-- The parts of libcurl that responses without `Location` and `Retry-After` never reach. -/
def Libcurl.uncalled : Libcurl where
  Url := Unit
  parse _ := none
  resolve _ _ := none
  scheme _ := none
  host _ := none
  port _ := none
  getdate _ := -1

/-- `same_origin_redirect`. -/
def sameOriginRedirect (curl : Libcurl) (original location : Text) : Bool :=
  match curl.parse original with
  | none => false
  | some source =>
      match curl.scheme source, curl.host source, curl.port source, curl.resolve source location with
      | some sourceScheme, some sourceHost, some sourcePort, some target =>
          match curl.scheme target, curl.host target, curl.port target with
          | some targetScheme, some targetHost, some targetPort =>
              asciiEqual sourceScheme targetScheme && asciiEqual sourceHost targetHost &&
                sourcePort == targetPort
          | _, _, _ => false
      | _, _, _, _ => false

/-- `detail::retry_after_seconds`, with the clock's answer. -/
def retryAfterSeconds (curl : Libcurl) (value : Text) (now : Int) : Int :=
  match fromCharsLong value with
  | some (seconds, []) => if seconds ≤ 0 then 0 else min seconds 2147483647
  | _ =>
      if 128 ≤ value.length then 0
      else
        let at_ := curl.getdate value
        if at_ = -1 ∨ at_ ≤ now then 0 else min (at_ - now) 2147483647

/-! ## Which header a line is

The names the callbacks test for exclude each other, so the order in which
they test is immaterial. -/

/-- A line with two names: one is the beginning of the other. -/
theorem headerNameIs_both {line a b : Text} (ha : headerNameIs line a = true)
    (hb : headerNameIs line b = true) (h : a.length ≤ b.length) :
    a.map asciiLower = (b.map asciiLower).take a.length := by
  simp only [headerNameIs, Bool.and_eq_true, decide_eq_true_eq, beq_iff_eq] at ha hb
  rw [← ha.2, ← hb.2, ← List.map_take, List.take_take, Nat.min_eq_left h]

/-- Two names that differ before the shorter one ends. -/
def namesApart (a b : Text) : Bool :=
  a.map asciiLower != (b.map asciiLower).take a.length &&
    b.map asciiLower != (a.map asciiLower).take b.length

theorem headerNameIs_apart {line a b : Text} (ha : headerNameIs line a = true)
    (h : namesApart a b = true) : headerNameIs line b = false := by
  simp only [namesApart, Bool.and_eq_true, bne_iff_ne] at h
  by_contra hb
  have hb : headerNameIs line b = true := by simpa using hb
  rcases Nat.le_total a.length b.length with hle | hle
  · exact h.1 (headerNameIs_both ha hb hle)
  · exact h.2 (headerNameIs_both hb ha hle)

/-- `record_encoding` looks at three headers only. -/
theorem recordEncoding_other {line name : Text} (hn : headerNameIs line name = true)
    (h₁ : namesApart name (text "content-encoding:") = true)
    (h₂ : namesApart name (text "x-goog-stored-content-encoding:") = true)
    (h₃ : namesApart name (text "warning:") = true) (encoding : EncodingHeaders) :
    recordEncoding encoding line = encoding := by
  simp [recordEncoding, headerNameIs_apart hn h₁, headerNameIs_apart hn h₂,
    headerNameIs_apart hn h₃]

end Karu
