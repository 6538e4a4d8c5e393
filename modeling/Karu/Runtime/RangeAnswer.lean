/-
# `Karu.Runtime.RangeAnswer` — a server for any object and any range of it

`partialAnswer object first length` is a `206` as a server writes it: the three
numbers in decimal, and the bytes.  The header line is read back as the numbers
it was written from (`contentRanges_rangeLine`), so the response is one a
steady server sends, and it answers the request.
-/
import Karu.Runtime.ProbeAnswers

namespace Karu

open Base

variable {β : Type}

/-! ## The header line -/

/-- `bytes first-last/total`. -/
def rangeValue (first last total : Nat) : Text :=
  text "bytes " ++ (decimal first ++ 45 :: (decimal last ++ 47 :: decimal total))

/-- `Content-Range: bytes first-last/total`. -/
def rangeLine (first last total : Nat) : Text :=
  text "Content-Range:" ++ (32 :: (rangeValue first last total ++ text "\r\n"))

theorem decimals_decimal {n : Nat} (h : n < 2 ^ 64) : Decimals (decimal n) n where
  ne_nil := decimal_ne_nil n
  digits := isDigit_of_mem_decimal n
  value_eq := digitsValue_decimal n
  lt := h

/-- The value is read as the numbers it was written from. -/
theorem contentRange_rangeValue {first last total : Nat} (hle : first ≤ last) (hlt : last < total)
    (htotal : total < 2 ^ 64) :
    contentRange (rangeValue first last total) = some ⟨first, last, some total⟩ := by
  refine (contentRange_iff _ _).mpr ⟨⟨_, _, _, rfl, ?_, ?_, ?_⟩, hle, ?_⟩
  · exact decimals_decimal (by omega)
  · exact decimals_decimal (by omega)
  · exact .known (decimals_decimal htotal)
  · intro n hn
    cases hn
    exact hlt

theorem isTrailing_of_isDigit {c : UInt8} (h : isDigit c = true) : isTrailing c = false := by
  simp only [isDigit, Bool.and_eq_true, decide_eq_true_eq] at h
  simp only [isTrailing, Bool.or_eq_false_iff, beq_eq_false_iff_ne]
  refine ⟨⟨⟨?_, ?_⟩, ?_⟩, ?_⟩
  all_goals
    rintro rfl
    exact absurd h.1 (by decide)

/-- The blank before the value and the line ending behind it are dropped. -/
theorem headerValue_rangeLine (first last total : Nat) :
    headerValue (rangeLine first last total) (text "content-range:") =
      rangeValue first last total := by
  have hname : (text "content-range:").length = (text "Content-Range:").length := by decide
  have hblank : ((32 : UInt8) :: (rangeValue first last total ++ text "\r\n")).dropWhile isBlank =
      rangeValue first last total ++ text "\r\n" := by
    have hfirst : text "bytes " = 98 :: (text "bytes ").tail := by decide
    rw [List.dropWhile_cons_of_pos (by decide), rangeValue, hfirst, List.cons_append,
      List.cons_append, List.dropWhile_cons_of_neg (by decide)]
  have hend : ∀ {xs : Text} {c : UInt8}, isTrailing c = false →
      ((xs ++ [c]) ++ text "\r\n").rdropWhile isTrailing = xs ++ [c] := by
    intro xs c hc
    have hcrlf : text "\r\n" = [13] ++ [10] := by decide
    rw [hcrlf, ← List.append_assoc, List.rdropWhile_concat_pos _ _ _ (by decide),
      List.rdropWhile_concat_pos _ _ _ (by decide), List.rdropWhile_concat_neg _ _ _ (by simp [hc])]
  -- the value ends in a digit
  obtain ⟨xs, c, hlast⟩ : ∃ xs c, decimal total = xs ++ [c] :=
    ⟨_, _, (List.dropLast_append_getLast (decimal_ne_nil total)).symm⟩
  have hdigit : isTrailing c = false :=
    isTrailing_of_isDigit (isDigit_of_mem_decimal total c (by rw [hlast]; simp))
  have hvalue : rangeValue first last total =
      (text "bytes " ++ (decimal first ++ 45 :: (decimal last ++ 47 :: xs))) ++ [c] := by
    simp [rangeValue, hlast]
  rw [headerValue, rangeLine, hname, List.drop_left, hblank, hvalue]
  exact hend hdigit

theorem headerNameIs_rangeLine (first last total : Nat) :
    headerNameIs (rangeLine first last total) (text "content-range:") = true := by
  have hname : (text "content-range:").length = (text "Content-Range:").length := by decide
  have hlower : (text "Content-Range:").map asciiLower =
      (text "content-range:").map asciiLower := by decide
  rw [headerNameIs, rangeLine, hname, List.take_left, hlower]
  simp

theorem contentRanges_rangeLine (first last total : Nat) :
    contentRanges [rangeLine first last total] = [rangeValue first last total] := by
  simp [contentRanges, headerNameIs_rangeLine, headerValue_rangeLine]

theorem isStatusLine_rangeLine (first last total : Nat) :
    isStatusLine (rangeLine first last total) = false := by
  have hhttp : text "HTTP/" = 72 :: (text "HTTP/").tail := by decide
  have hname : text "Content-Range:" = 67 :: (text "Content-Range:").tail := by decide
  rw [isStatusLine, rangeLine, hhttp, hname, List.cons_append, List.isPrefixOf]
  rfl

/-- It is no other header. -/
theorem rangeLine_other (first last total : Nat) {name : Text}
    (h : namesApart (text "content-range:") name = true) :
    headerNameIs (rangeLine first last total) name = false :=
  headerNameIs_apart (headerNameIs_rangeLine first last total) h

/-! ## The response -/

/-- The `206` with the bytes of the range that the object has. -/
def partialAnswer (object : List β) (first length : Nat) : Response β where
  code := 206
  statusLine := text "HTTP/1.1 206 Partial Content\r\n"
  fields := [rangeLine first (min (first + length) object.length - 1) object.length]
  chunks := [(object.drop first).take length].filter (!·.isEmpty)
  status_first := statusLine_range
  status_once := by
    intro l hl
    rw [List.mem_singleton.mp hl]
    exact isStatusLine_rangeLine _ _ _
  chunk_ne := by
    intro c hc
    simpa using (List.mem_filter.mp hc).2

section Answer

variable {object : List β} {first length : Nat}

theorem partialAnswer_body :
    (partialAnswer object first length).body = (object.drop first).take length := by
  show ([(object.drop first).take length].filter (!·.isEmpty)).flatten = _
  cases (object.drop first).take length with
  | nil => rfl
  | cons c cs => simp

theorem partialAnswer_contentRanges : contentRanges (partialAnswer object first length).fields =
    [rangeValue first (min (first + length) object.length - 1) object.length] :=
  contentRanges_rangeLine _ _ _

theorem partialAnswer_etag : etagOf (partialAnswer object first length).fields = [] := by
  have hother := @rangeLine_other first (min (first + length) object.length - 1) object.length
    (text "etag:") (by decide)
  simp [etagOf, partialAnswer, recordEtag, hother]

theorem partialAnswer_encoding :
    encodingOf (partialAnswer object first length).fields = {} := by
  have hother := recordEncoding_other
    (headerNameIs_rangeLine first (min (first + length) object.length - 1) object.length)
    (by decide) (by decide) (by decide)
  simp [encodingOf, partialAnswer, hother]

/-- It is not of the other form, which has a star for the range. -/
theorem rangeValue_satisfied (first last total : Nat) :
    (parseUnsatisfiedContentRange (rangeValue first last total) 0).1 = false := by
  obtain ⟨c, cs, hfirst⟩ : ∃ c cs, decimal first = c :: cs := List.exists_cons_of_ne_nil
    (decimal_ne_nil first)
  have hdigit : isDigit c = true := isDigit_of_mem_decimal first c (by rw [hfirst]; simp)
  have hstar : (42 == c) = false := by
    rw [beq_eq_false_iff_ne]
    rintro rfl
    exact absurd hdigit (by decide)
  have hprefix : (text "bytes */").isPrefixOf (rangeValue first last total) = false := by
    have hform : text "bytes */" = text "bytes " ++ [42, 47] := by decide
    rw [hform, rangeValue, hfirst, List.cons_append]
    have happend : ∀ xs ys zs : Text, (xs ++ ys).isPrefixOf (xs ++ zs) = ys.isPrefixOf zs := by
      intro xs ys zs
      induction xs with
      | nil => rfl
      | cons x xs ih => simp [ih]
    rw [happend, List.isPrefixOf, hstar, Bool.false_and]
  simp [parseUnsatisfiedContentRange, hprefix]

section Inside

variable (hobject : object.length < 2 ^ 64) (hinside : first < object.length) (hpos : 1 ≤ length)

include hobject hinside hpos

/-- The range begins in the object and is not empty. -/
theorem partialAnswer_reads {v : Text}
    (hv : v ∈ contentRanges (partialAnswer object first length).fields) :
    contentRange v =
      some ⟨first, min (first + length) object.length - 1, some object.length⟩ := by
  rw [partialAnswer_contentRanges, List.mem_singleton] at hv
  rw [hv]
  exact contentRange_rangeValue (by omega) (by omega) hobject

theorem partialAnswer_slice {v : Text}
    (hv : v ∈ contentRanges (partialAnswer object first length).fields) {c : ContentRange}
    (hc : c ∈ contentRange v) : c.total = some object.length ∧ c.last < object.length ∧
      (partialAnswer object first length).body = c.slice object := by
  rw [partialAnswer_reads hobject hinside hpos hv] at hc
  cases hc
  refine ⟨rfl, ?_, ?_⟩
  · show min (first + length) object.length - 1 < object.length
    omega
  · rw [partialAnswer_body]
    show _ = (object.drop first).take (min (first + length) object.length - 1 - first + 1)
    rw [List.take_eq_take_iff, List.length_drop]
    omega

theorem partialAnswer_steady : (partialAnswer object first length).Steady object where
  plain := Or.inr (by
    show responseStatus (text "HTTP/1.1 206 Partial Content\r\n") = 206
    decide)
  known := fun _ => Or.inr rfl
  whole := fun h => by cases h
  one_range := fun _ => by rw [partialAnswer_contentRanges]; rfl
  ranged := fun _ v hv c hc => by
    obtain ⟨-, hlast, hbody⟩ := partialAnswer_slice hobject hinside hpos hv hc
    exact ⟨hlast, hbody ▸ List.prefix_rfl⟩
  sized := fun v hv c hc n hn => by
    rw [(partialAnswer_slice hobject hinside hpos hv hc).1] at hn
    cases hn
    rfl
  unsatisfied := fun v hv hno => by
    rw [partialAnswer_contentRanges, List.mem_singleton] at hv
    rw [hv, rangeValue_satisfied] at hno
    cases hno
  length := fun h => by cases h

theorem partialAnswer_complete : (partialAnswer object first length).Complete object where
  whole := fun h => by cases h
  ranged := fun _ v hv c hc => (partialAnswer_slice hobject hinside hpos hv hc).2.2

end Inside

end Answer

/-! ## The request -/

section Request

variable {object : List β} {range : ByteRange}

/-- A request that is answered at once. -/
def partialRequest (object : List β) (range : ByteRange) : ProbeRequest β where
  responses := [(partialAnswer object range.first range.length).untrailed]

theorem partialRequest_steady (hobject : object.length < 2 ^ 64)
    (hinside : range.first < object.length) (hpos : 1 ≤ range.length) :
    (partialRequest object range).Steady object where
  steady := fun r hr => by
    rw [List.mem_singleton.mp hr]
    exact ⟨partialAnswer_steady hobject hinside hpos, rfl⟩
  complete := fun _ r hr => by
    rw [List.mem_singleton.mp hr]
    exact partialAnswer_complete hobject hinside hpos

theorem partialRequest_answered (curl : Libcurl) (hobject : object.length < 2 ^ 64)
    (hinside : range.first < object.length) (hpos : 1 ≤ range.length) :
    (partialRequest object range).Answered curl object range where
  answer := by
    refine ⟨[], _, rfl, fun b hb => (by cases hb), ?_, ?_⟩
    · -- there is no `Location`
      have hother := @rangeLine_other range.first
        (min (range.first + range.length) object.length - 1) object.length (text "location:")
        (by decide)
      simp [Trailed.allLines, Response.untrailed, Response.lines, partialAnswer, guardStops,
        statusLine_range, isStatusLine_rangeLine, stopsAt, hother]
    · have hplain : Detail.transformed
          (encodingOf (partialAnswer object range.first range.length).fields) = false := by
        rw [partialAnswer_encoding]
        decide
      have hlast : min (range.first + range.length) object.length - 1 + 1 =
          min (range.first + range.length) object.length := by omega
      refine ⟨?_, rfl, fun _ => ?_⟩
      · exact .partly hinside rfl partialAnswer_contentRanges
          (contentRange_rangeValue (by omega) (by omega) hobject) rfl hlast rfl
          partialAnswer_body hplain
      · exact (congrArg (fun fields => Detail.transformed (encodingOf fields))
          (List.append_nil _)).trans hplain
  result_eq := rfl

end Request

/-! ## Serving -/

section Serves

variable [Octet β]

/-- A request for a range by position, of an object that keeps its bytes and its size, is
answered where two requests in a row end on an answer: in any state of the destination the
reply is there, and exact. -/
theorem getRange_serves (curl : Libcurl) (options : ClientOptions)
    (hattempts : 0 < options.maxAttempts) (backend : Backend) {object : List β}
    (hobject : object.length < 2 ^ 64) {range : ByteRange} (hsuffix : range.suffix = false)
    (hpos : 1 ≤ range.length) (hfits : range.first + range.length ≤ 2 ^ 64)
    {q q' : ProbeRequest β} {qs : List (ProbeRequest β)}
    (hsteady : ∀ p ∈ q :: q' :: qs, p.Steady object) (hq : q.Answered curl object range)
    (hq' : q'.Answered curl object range) (m : Memory Unit β) :
    ∃ reply last m', getRange curl options backend range [] (q :: q' :: qs) {} m =
        (.reply reply, last, m') ∧
      reply.Exact object range m' := by
  obtain ⟨reply, last, m', hreply⟩ := getRange_answered options hattempts backend hobject hsuffix
    hpos hfits hq hq' qs m
  exact ⟨reply, last, m', hreply, getRange_exact options backend [] hpos hsteady hreply⟩

theorem middle_lt : 2 < 2 ^ 64 := by decide

/-- Two bytes of four, the second and the third. -/
def middleBytes : ByteRange where
  first := 1
  length := 2
  first_lt := one_lt_word
  length_lt := middle_lt

theorem getRange_serves_middle :
    ∃ reply last m', getRange .uncalled .initial .http middleBytes []
        [partialRequest [10, 11, 12, 13] middleBytes, partialRequest [10, 11, 12, 13] middleBytes]
        {} ⟨fun _ _ => (0 : UInt8), []⟩ = (.reply reply, last, m') ∧
      reply.Exact [10, 11, 12, 13] middleBytes m' := by
  have hsteady := @partialRequest_steady UInt8 [10, 11, 12, 13] middleBytes (by decide)
    (by decide) (by decide)
  have hanswered := @partialRequest_answered UInt8 [10, 11, 12, 13] middleBytes .uncalled
    (by decide) (by decide) (by decide)
  refine getRange_serves .uncalled .initial (by decide) .http (by decide) rfl (by decide)
    (by decide) (fun p hp => ?_) hanswered hanswered _
  simp only [List.mem_cons, List.not_mem_nil, or_false, or_self] at hp
  rw [hp]
  exact hsteady

end Serves

end Karu
