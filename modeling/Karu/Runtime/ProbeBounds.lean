/-
# `Karu.Runtime.ProbeBounds` — where a probe writes

`probe_body_callback` copies without looking at the size of its destination.
What keeps it inside is `wanted`, which `start_body` sets: from the object's
size for a `200`, and for a `206` from the two numbers the `Content-Range`
headers left behind, once `content_range_answers` says that they answer the
request.  The two are not updated together.  A later header that is well
formed but has no total, or is refused half way, changes the numbers and
leaves the answer standing, and then `wanted` has nothing to do with the
request.

`probe_within_iff` says for which header lines that happens.  The lines are
any at all: those since the last one that begins like a status line count
(`latest`), unless the redirect guard refuses one (`guardStops`).
-/
import Karu.Runtime.Head
import Karu.Runtime.Probe

namespace Karu

open Base

/-! ## Lines since the last status line -/

/-- The header lines of the response under way. -/
def latest (lines : List Text) : List Text :=
  lines.foldl (fun fields line => if isStatusLine line then [] else fields ++ [line]) []

/-- The guard the two header callbacks share. -/
def stopsAt (curl : Libcurl) (http : HttpRequestOptions) (url : Text) (status : Int)
    (line : Text) : Bool :=
  headerNameIs line (text "location:") && isRedirect status && http.followRedirects &&
    http.sameOriginRedirectsOnly &&
    !sameOriginRedirect curl url (headerValue line (text "location:"))

/-- The guard over several lines, from the status read last. -/
def guardStops (curl : Libcurl) (http : HttpRequestOptions) (url : Text) :
    Int → List Text → Bool
  | _, [] => false
  | status, line :: lines =>
      if isStatusLine line then guardStops curl http url (responseStatus line) lines
      else stopsAt curl http url status line || guardStops curl http url status lines

/-! ## The state when the body begins -/

/-- The last well-formed value that states a total. -/
def lastSized (values : List Text) : Option ContentRange :=
  (values.filterMap fun v => (contentRange v).filter (·.total.isSome)).getLast?

/-- `answers` of a well-formed value. -/
def ContentRange.answers (c : ContentRange) (range : ByteRange) : Bool :=
  Karu.answers range c.first c.last (c.total.getD 0)

/-- The state without anything a header line other than a status line writes. -/
def ProbeState.progress (p : ProbeState) : ProbeState :=
  { p with
    total := 0, haveTotal := false, contentRangeValid := false, contentRangeAnswers := false,
    unsatisfiedContentRangeValid := false, rangeFirst := 0, rangeLast := 0,
    redirectBlocked := false, retryAfter := 0, responseRegion := [], etag := [], encoding := {} }

theorem ProbeState.field_of_progress {γ : Type} (f : ProbeState → γ) {p p' : ProbeState}
    (h : p'.progress = p.progress)
    (hf : ∀ p : ProbeState, f p.progress = f p := by intro; rfl) : f p' = f p :=
  (hf p').symm.trans ((congrArg f h).trans (hf p))

/-- What one value does to the numbers and to the answer. -/
theorem ProbeState.recordContentRange_spec (value : Text) (p : ProbeState) :
    (p.recordContentRange value).progress = p.progress ∧
    (p.recordContentRange value).etag = p.etag ∧
    (p.recordContentRange value).encoding = p.encoding ∧
    (p.recordContentRange value).rangeFirst = (writtenFirst value).getD p.rangeFirst ∧
    (p.recordContentRange value).rangeLast = (writtenLast value).getD p.rangeLast ∧
    (p.recordContentRange value).contentRangeAnswers =
      (((contentRange value).filter (·.total.isSome)).map (·.answers p.range)).getD
        p.contentRangeAnswers := by
  obtain ⟨hfirst, hlast⟩ := parseContentRange_numbers value ⟨p.rangeFirst, p.rangeLast, 0, false⟩
  have hverdict := parseContentRange_verdict value ⟨p.rangeFirst, p.rangeLast, 0, false⟩
  simp only [ProbeState.recordContentRange]
  cases hc : contentRange value with
  | some c =>
      rw [hc] at hverdict
      simp only [hverdict, Bool.true_and] at hfirst hlast ⊢
      cases ht : c.total with
      | some n =>
          simp only [ContentRange.fields, ht, Option.isSome_some, if_true] at hfirst hlast ⊢
          refine ⟨rfl, trivial, trivial, hfirst, hlast, ?_⟩
          simp [Option.filter, ht, ContentRange.answers]
      | none =>
          simp only [ContentRange.fields, ht, Option.isSome_none, Bool.false_eq_true,
            if_false] at hfirst hlast ⊢
          split <;> exact ⟨rfl, rfl, rfl, hfirst, hlast, by simp [Option.filter, ht]⟩
  | none =>
      rw [hc] at hverdict
      simp only [hverdict, Bool.false_and, Bool.false_eq_true, if_false]
      split <;> exact ⟨rfl, rfl, rfl, hfirst, hlast, by simp⟩

/-- What an accepted line other than a status line does. -/
structure ProbeNoted (line : Text) (p p' : ProbeState) : Prop where
  progress_eq : p'.progress = p.progress
  etag_eq : p'.etag = recordEtag p.etag line
  encoding_eq : p'.encoding = recordEncoding p.encoding line
  first_eq : p'.rangeFirst = (contentRanges [line]).foldl
    (fun n v => (writtenFirst v).getD n) p.rangeFirst
  last_eq : p'.rangeLast = (contentRanges [line]).foldl
    (fun n v => (writtenLast v).getD n) p.rangeLast
  answers_eq : p'.contentRangeAnswers =
    ((lastSized (contentRanges [line])).map (·.answers p.range)).getD p.contentRangeAnswers

/-- A line that is no `Content-Range` leaves the numbers and the answer. -/
theorem ProbeNoted.of_other {line : Text} {p p' : ProbeState}
    (hn : headerNameIs line (text "content-range:") = false) (hprogress : p'.progress = p.progress)
    (hetag : p'.etag = recordEtag p.etag line)
    (hencoding : p'.encoding = recordEncoding p.encoding line)
    (hfirst : p'.rangeFirst = p.rangeFirst) (hlast : p'.rangeLast = p.rangeLast)
    (hanswers : p'.contentRangeAnswers = p.contentRangeAnswers) : ProbeNoted line p p' := by
  have hnone : contentRanges [line] = [] := by simp [contentRanges, hn]
  refine ⟨hprogress, hetag, hencoding, ?_, ?_, ?_⟩
  · rw [hnone]
    exact hfirst
  · rw [hnone]
    exact hlast
  · rw [hnone]
    exact hanswers

theorem probeHeaderCallback_cases {line : Text} (h : isStatusLine line = false) (curl : Libcurl)
    (now : Int) (p : ProbeState) :
    (p.blocksRedirect curl line = false ∧ (probeHeaderCallback curl now line p).2 = true ∧
        ProbeNoted line p (probeHeaderCallback curl now line p).1) ∨
      (p.blocksRedirect curl line = true ∧
        probeHeaderCallback curl now line p = ({ p with redirectBlocked := true }, false)) := by
  cases hb : p.blocksRedirect curl line with
  | true => exact Or.inr ⟨rfl, by simp [probeHeaderCallback, h, hb]⟩
  | false =>
      refine Or.inl ⟨rfl, ?_⟩
      simp only [probeHeaderCallback, h, Bool.false_eq_true, if_false, hb]
      by_cases hr : headerNameIs line (text "content-range:") = true
      · rw [if_pos hr]
        obtain ⟨h₁, h₂, h₃, h₄, h₅, h₆⟩ :=
          p.recordContentRange_spec (headerValue line (text "content-range:"))
        have hone : contentRanges [line] = [headerValue line (text "content-range:")] := by
          simp [contentRanges, hr]
        refine ⟨rfl, h₁, ?_, ?_, ?_, ?_, ?_⟩
        · rw [h₂, recordEtag_other hr (by decide)]
        · rw [h₃, recordEncoding_other hr (by decide) (by decide) (by decide)]
        · rw [hone]
          exact h₄
        · rw [hone]
          exact h₅
        · rw [hone, h₆]
          cases hc : (contentRange (headerValue line (text "content-range:"))).filter
            (·.total.isSome) <;> simp [lastSized, hc]
      · rw [if_neg hr]
        have hr : headerNameIs line (text "content-range:") = false := by simpa using hr
        split
        · rename_i hn
          exact ⟨rfl, .of_other hr rfl (recordEtag_other hn (by decide) _).symm
            (recordEncoding_other hn (by decide) (by decide) (by decide) _).symm rfl rfl rfl⟩
        · split
          · rename_i hn
            exact ⟨rfl, .of_other hr rfl (recordEtag_other hn (by decide) _).symm
              (recordEncoding_other hn (by decide) (by decide) (by decide) _).symm rfl rfl rfl⟩
          · split
            · rename_i hn
              have henc := recordEncoding_other hn (by decide) (by decide) (by decide) p.encoding
              refine ⟨rfl, ?_⟩
              split
              · rename_i hv
                exact .of_other hr rfl (by simp [recordEtag, hn, hv]) henc.symm rfl rfl rfl
              · rename_i hv
                exact .of_other hr rfl (by simp [recordEtag, hn, hv]) henc.symm rfl rfl rfl
            · rename_i hn
              exact ⟨rfl, .of_other hr rfl (by simp [recordEtag, hn]) rfl rfl rfl rfl⟩

/-- The state of a probe after the lines `fields` of a response. -/
structure ProbeHeaded (fields : List Text) (p₀ p : ProbeState) : Prop where
  settings_eq : p.resetResponse = p₀.resetResponse
  waiting : p.started = false
  stored_eq : p.stored = 0
  wanted_eq : p.wanted = 0
  skip_eq : p.skip = 0
  etag_eq : p.etag = etagOf fields
  encoding_eq : p.encoding = encodingOf fields
  first_eq : p.rangeFirst = lastFirst (contentRanges fields)
  last_eq : p.rangeLast = lastLast (contentRanges fields)
  answers_eq : p.contentRangeAnswers =
    ((lastSized (contentRanges fields)).map (·.answers p₀.range)).getD false

theorem ProbeHeaded.range_eq {fields : List Text} {p₀ p : ProbeState}
    (h : ProbeHeaded fields p₀ p) : p.range = p₀.range :=
  congrArg (·.range) h.settings_eq

theorem ProbeHeaded.begin {fields : List Text} {p₀ p : ProbeState} (h : ProbeHeaded fields p₀ p)
    (status : Int) : ProbeHeaded [] p₀ { p.resetResponse with httpStatus := status } :=
  ⟨h.settings_eq, rfl, rfl, rfl, rfl, rfl, rfl, rfl, rfl, rfl⟩

theorem contentRanges_append (xs ys : List Text) :
    contentRanges (xs ++ ys) = contentRanges xs ++ contentRanges ys := by
  simp [contentRanges]

theorem lastSized_append (xs ys : List Text) :
    lastSized (xs ++ ys) = (lastSized ys).or (lastSized xs) := by
  simp [lastSized, List.filterMap_append, List.getLast?_append]

theorem ProbeHeaded.next {fields : List Text} {line : Text} {p₀ p p' : ProbeState}
    (h : ProbeHeaded fields p₀ p) (hn : ProbeNoted line p p') :
    ProbeHeaded (fields ++ [line]) p₀ p' := by
  have hkeep := hn.progress_eq
  refine ⟨(ProbeState.field_of_progress (·.resetResponse) hkeep).trans h.settings_eq,
    (ProbeState.field_of_progress (·.started) hkeep).trans h.waiting,
    (ProbeState.field_of_progress (·.stored) hkeep).trans h.stored_eq,
    (ProbeState.field_of_progress (·.wanted) hkeep).trans h.wanted_eq,
    (ProbeState.field_of_progress (·.skip) hkeep).trans h.skip_eq, ?_, ?_, ?_, ?_, ?_⟩
  · rw [hn.etag_eq, h.etag_eq]
    simp [etagOf]
  · rw [hn.encoding_eq, h.encoding_eq]
    simp [encodingOf]
  · rw [hn.first_eq, h.first_eq, contentRanges_append]
    simp [lastFirst]
  · rw [hn.last_eq, h.last_eq, contentRanges_append]
    simp [lastLast]
  · rw [hn.answers_eq, h.answers_eq, h.range_eq, contentRanges_append, lastSized_append]
    cases lastSized (contentRanges [line]) <;> rfl

/-- Any lines at all: refused by the guard, or read up to the last status line. -/
theorem feed_probeHeaderCallback (curl : Libcurl) (now : Int) {p₀ : ProbeState} :
    ∀ (lines fields : List Text) (p : ProbeState), ProbeHeaded fields p₀ p →
      (feed (probeHeaderCallback curl now) lines p).2 =
          !guardStops curl p₀.http p₀.originalUrl p.httpStatus lines ∧
        ((feed (probeHeaderCallback curl now) lines p).2 = true →
          ProbeHeaded
            (lines.foldl (fun fields line => if isStatusLine line then [] else fields ++ [line])
              fields)
            p₀ (feed (probeHeaderCallback curl now) lines p).1)
  | [], _, p, h => ⟨rfl, fun _ => h⟩
  | line :: lines, fields, p, h => by
      cases hl : isStatusLine line with
      | true =>
          have hstep : probeHeaderCallback curl now line p =
              ({ p.resetResponse with httpStatus := responseStatus line }, true) := by
            simp [probeHeaderCallback, hl]
          rw [feed_cons_true (by rw [hstep]), hstep]
          simpa only [guardStops, hl, if_true, List.foldl_cons] using
            feed_probeHeaderCallback curl now lines [] _ (h.begin (responseStatus line))
      | false =>
          have hguard : p.blocksRedirect curl line =
              stopsAt curl p₀.http p₀.originalUrl p.httpStatus line := by
            rw [← show p.http = p₀.http from congrArg (·.http) h.settings_eq,
              ← show p.originalUrl = p₀.originalUrl from congrArg (·.originalUrl) h.settings_eq]
            rfl
          rcases probeHeaderCallback_cases hl curl now p with ⟨hb, hgo, hn⟩ | ⟨hb, hno⟩
          · have hnext := feed_probeHeaderCallback curl now lines (fields ++ [line]) _ (h.next hn)
            rw [ProbeState.field_of_progress (·.httpStatus) hn.progress_eq] at hnext
            rw [feed_cons_true hgo]
            simpa only [guardStops, hl, Bool.false_eq_true, if_false, ← hguard, hb,
              Bool.false_or, List.foldl_cons] using hnext
          · rw [feed_cons_false (by rw [hno])]
            simp [guardStops, hl, ← hguard, hb]

/-! ## Letting the body in -/

/-- The state without what `start_body` writes. -/
def ProbeState.unstarted (p : ProbeState) : ProbeState :=
  { p with
    total := 0, haveTotal := false, rangeFirst := 0, skip := 0, wanted := 0,
    suffixIgnored := false, rangeFallbackRejected := false, versionChanged := false }

theorem ProbeState.field_of_unstarted {γ : Type} (f : ProbeState → γ) {p p' : ProbeState}
    (h : p'.unstarted = p.unstarted)
    (hf : ∀ p : ProbeState, f p.unstarted = f p := by intro; rfl) : f p' = f p :=
  (hf p').symm.trans ((congrArg f h).trans (hf p))

/-- Everything `start_body` can decide. -/
inductive BodyStart (info : Info) (p : ProbeState) : ProbeState × Bool → Prop
  | refused {p' : ProbeState} : p'.unstarted = p.unstarted → p'.wanted = p.wanted →
      (Detail.transformed p.encoding = true ∨ p.contradictsPin = true ∨
        (info.responseCode = 206 ∧ p.contentRangeAnswers = false) ∨ info.responseCode ≠ 206) →
      BodyStart info p (p', false)
  | partly : Detail.transformed p.encoding = false → p.contradictsPin = false →
      info.responseCode = 206 → p.contentRangeAnswers = true →
      BodyStart info p ({ p with wanted := add64 (sub64 p.rangeLast p.rangeFirst) 1 }, true)
  | whole {p' : ProbeState} : info.responseCode = 200 → p'.unstarted = p.unstarted →
      p'.wanted ≤ p.range.length → BodyStart info p (p', true)

theorem ProbeState.sized_spec (info : Info) (p : ProbeState) :
    (p.sized info).1.unstarted = p.unstarted ∧ (p.sized info).1.wanted = p.wanted := by
  unfold ProbeState.sized
  split
  · exact ⟨rfl, rfl⟩
  · split <;> exact ⟨rfl, rfl⟩

theorem startBody_cases (info : Info) (p : ProbeState) :
    BodyStart info p (startBody info p) := by
  unfold startBody
  split
  · rename_i h
    exact .refused rfl rfl (Or.inl h)
  · rename_i hplain
    split
    · rename_i h
      exact .refused rfl rfl (Or.inr (Or.inl h))
    · rename_i hpin
      split
      · rename_i h206
        unfold ProbeState.startPartial
        split
        · rename_i h
          exact .refused rfl rfl (Or.inr (Or.inr (Or.inl ⟨h206, by simpa using h⟩)))
        · rename_i h
          exact .partly (by simpa using hplain) (by simpa using hpin) h206 (by simpa using h)
      · rename_i h206
        have hno : Detail.transformed p.encoding = true ∨ p.contradictsPin = true ∨
            (info.responseCode = 206 ∧ p.contentRangeAnswers = false) ∨ info.responseCode ≠ 206 :=
          Or.inr (Or.inr (Or.inr h206))
        split
        · exact .refused rfl rfl hno
        · rename_i h200
          have h200 : info.responseCode = 200 := by simpa using h200
          obtain ⟨hsame, hwanted⟩ := p.sized_spec info
          simp only
          generalize p.sized info = x at hsame hwanted ⊢
          have hrange : x.1.range = p.range := ProbeState.field_of_unstarted (·.range) hsame
          split
          · unfold ProbeState.startWhole
            split
            · split
              · exact .refused hsame hwanted hno
              · rename_i hle
                exact .whole h200 hsame (by rw [← hrange]; exact Nat.le_of_not_lt hle)
            · split
              · exact .refused hsame hwanted hno
              · refine .whole h200 hsame ?_
                rw [← hrange]
                show (if x.1.range.first < x.1.total then
                  min x.1.range.length (x.1.total - x.1.range.first) else 0) ≤ _
                split <;> omega
          · exact .refused hsame hwanted hno

/-! ## Staying inside -/

section Bounds

variable {β : Type}

/-- Every copy so far, and every copy that `wanted` allows, stays below `n`. -/
structure Inside (n : Nat) (s : Probing β) : Prop where
  within : s.memory.Within fun _ => n
  stored_le : s.state.stored ≤ s.state.wanted
  wanted_le : s.state.wanted ≤ n

theorem probePayload_inside {n : Nat} (hn : n < 2 ^ 64) {s : Probing β} (h : Inside n s)
    (info : Info) (data : List β) : Inside n (probePayload info data s).1 := by
  have hle := h.stored_le
  have hwanted := h.wanted_le
  have hroom : sub64 s.state.wanted s.state.stored = s.state.wanted - s.state.stored :=
    sub64_of_le hle (by omega)
  simp only [probePayload, hroom]
  split
  · exact ⟨h.within, hle, hwanted⟩
  · have hmemory : (if 0 < min (s.state.wanted - s.state.stored) (data.drop s.state.skip).length then
          s.memory.memcpy () s.state.stored ((data.drop s.state.skip).take
            (min (s.state.wanted - s.state.stored) (data.drop s.state.skip).length))
        else s.memory).Within fun _ => n := by
      split
      · refine Memory.within_memcpy.mpr ⟨h.within, ?_⟩
        rw [List.length_take]
        omega
      · exact h.within
    have hstored : s.state.stored +
        min (s.state.wanted - s.state.stored) (data.drop s.state.skip).length ≤
        s.state.wanted := by omega
    split
    · exact ⟨hmemory, hstored, hwanted⟩
    · exact ⟨hmemory, hstored, hwanted⟩

/-- The length a `206` would be given. -/
def ProbeState.partialLength (p : ProbeState) : Nat := add64 (sub64 p.rangeLast p.rangeFirst) 1

/-- A `206` would be let in. -/
def ProbeState.letsIn (p : ProbeState) : Bool :=
  !Detail.transformed p.encoding && !p.contradictsPin && p.contentRangeAnswers

/-- What keeps the copies below `n` from here on. -/
structure Ready (n : Nat) (info : Info) (s : Probing β) : Prop where
  inside : Inside n s
  range_le : s.state.range.length ≤ n
  stored_eq : s.state.started = false → s.state.stored = 0
  partial_le : s.state.started = false → info.responseCode = 206 → s.state.letsIn = true →
    s.state.partialLength ≤ n

theorem probePayload_ready {n : Nat} (hn : n < 2 ^ 64) {s : Probing β} (h : Inside n s)
    (hrange : s.state.range.length ≤ n) (hstarted : s.state.started = true) (info : Info)
    (data : List β) : Ready n info (probePayload info data s).1 := by
  have hkeep : (probePayload info data s).1.state.started = s.state.started ∧
      (probePayload info data s).1.state.range = s.state.range := by
    simp only [probePayload]
    split
    · exact ⟨rfl, rfl⟩
    · split <;> exact ⟨rfl, rfl⟩
  refine ⟨probePayload_inside hn h info data, hkeep.2 ▸ hrange, fun hno => ?_, fun hno => ?_⟩
  · exact absurd (hstarted.symm.trans (hkeep.1.symm.trans hno)) (by decide)
  · exact absurd (hstarted.symm.trans (hkeep.1.symm.trans hno)) (by decide)

variable [Octet β]

theorem probeBodyCallback_ready {n : Nat} (hn : n < 2 ^ 64) {info : Info} {s : Probing β}
    (h : Ready n info s) (data : List β) : Ready n info (probeBodyCallback info data s).1 := by
  obtain ⟨⟨hwithin, hst, hwanted⟩, hrange, hzero, hpart⟩ := h
  simp only [probeBodyCallback]
  split
  · exact ⟨⟨hwithin, hst, hwanted⟩, hrange, hzero, hpart⟩
  · split
    · simp only [probeError]
      split <;> exact ⟨⟨hwithin, hst, hwanted⟩, hrange, hzero, hpart⟩
    · split
      · exact probePayload_ready hn ⟨hwithin, hst, hwanted⟩ hrange ‹_› info data
      · rename_i hwait
        have hwait : s.state.started = false := by simpa using hwait
        have hcases := startBody_cases info { s.state with started := true }
        generalize startBody info { s.state with started := true } = x at hcases ⊢
        cases hcases with
        | @refused p' hsame hkeep =>
            have hstored := ProbeState.field_of_unstarted (·.stored) hsame
            have hstarted : p'.started = true := ProbeState.field_of_unstarted (·.started) hsame
            have hr := ProbeState.field_of_unstarted (·.range) hsame
            refine ⟨⟨hwithin, hstored.le.trans (hst.trans hkeep.ge), hkeep.le.trans hwanted⟩,
              hr ▸ hrange, fun hno => ?_, fun hno => ?_⟩
            · exact absurd (hstarted.symm.trans hno) (by decide)
            · exact absurd (hstarted.symm.trans hno) (by decide)
        | partly hplain hpin h206 hanswers =>
            have hle := hpart hwait h206 (by
              simp only [ProbeState.letsIn, Bool.and_eq_true, Bool.not_eq_true']
              exact ⟨⟨hplain, hpin⟩, hanswers⟩)
            apply probePayload_ready hn
            · exact ⟨hwithin, (hzero hwait).le.trans (Nat.zero_le _), hle⟩
            · exact hrange
            · rfl
        | @whole p' _ hsame hle =>
            have hstored := ProbeState.field_of_unstarted (·.stored) hsame
            have hstarted : p'.started = true := ProbeState.field_of_unstarted (·.started) hsame
            have hr := ProbeState.field_of_unstarted (·.range) hsame
            apply probePayload_ready hn
            · exact ⟨hwithin, (hstored.trans (hzero hwait)).le.trans (Nat.zero_le _),
                hle.trans hrange⟩
            · exact hr ▸ hrange
            · exact hstarted

/-- The first piece of a `206` that is let in is copied whole if `wanted` has room for it. -/
theorem probeBodyCallback_first {info : Info} {p : ProbeState} (hwait : p.started = false)
    (hskip : p.skip = 0) (hstored : p.stored = 0) (h206 : info.responseCode = 206)
    (hin : p.letsIn = true) {data : List β} (hpos : 0 < data.length)
    (hroom : data.length ≤ p.partialLength) (m : Memory Unit β) :
    (probeBodyCallback info data ⟨p, m⟩).1.memory = m.memcpy () 0 data := by
  simp only [ProbeState.letsIn, Bool.and_eq_true, Bool.not_eq_true'] at hin
  have hpin : ({ p with started := true } : ProbeState).contradictsPin = false := hin.1.2
  have hstart : startBody info { p with started := true } =
      ({ p with started := true, wanted := p.partialLength }, true) := by
    rw [startBody, if_neg (by simp [hin.1.1]), if_neg (by rw [hpin]; decide), if_pos h206,
      ProbeState.startPartial, if_neg (by simp [hin.2])]
    rfl
  have hfull : sub64 p.partialLength 0 = p.partialLength := by
    have hlt : p.partialLength < 2 ^ 64 := by
      unfold ProbeState.partialLength add64
      omega
    unfold sub64
    omega
  have hno : ¬ p.partialLength < data.length := by omega
  have htake : min p.partialLength data.length = data.length := by omega
  have hcallback : probeBodyCallback info data ⟨p, m⟩ = probePayload info data
      ⟨{ p with started := true, wanted := p.partialLength }, m⟩ := by
    simp only [probeBodyCallback, h206, hwait, hstart, isRedirect]
    rfl
  rw [hcallback]
  simp [probePayload, h206, hskip, hstored, hfull, hno, htake, hpos]

end Bounds

/-! ## The bound, and what breaks it -/

/-- Header lines after which a body may be copied past the requested range. -/
def overruns (curl : Libcurl) (p : ProbeState) (lines : List Text) (code : Int) : Bool :=
  let values := contentRanges (latest lines)
  let etag := etagOf (latest lines)
  !guardStops curl p.http p.originalUrl 0 lines && code == 206 &&
    !Detail.transformed (encodingOf (latest lines)) &&
    !(isStrongEtag p.ifMatch && !etag.isEmpty && etag != p.ifMatch) &&
    ((lastSized values).map (·.answers p.range)).getD false &&
    decide (p.range.length < add64 (sub64 (lastLast values) (lastFirst values)) 1)

section Probe

variable {β : Type}

theorem feed_probeLine (curl : Libcurl) (now : Int) :
    ∀ (lines : List Text) (s : Probing β), feed (probeLine curl now) lines s =
      ({ s with state := (feed (probeHeaderCallback curl now) lines s.state).1 },
        (feed (probeHeaderCallback curl now) lines s.state).2)
  | [], _ => rfl
  | line :: lines, s => by
      cases hv : (probeHeaderCallback curl now line s.state).2 with
      | true =>
          rw [feed_cons_true (show (probeLine curl now line s).2 = true from hv),
            feed_cons_true hv, feed_probeLine curl now lines]
          rfl
      | false =>
          rw [feed_cons_false (show (probeLine curl now line s).2 = false from hv),
            feed_cons_false hv]
          rfl

variable [Octet β]

/-- However a body is cut, a probe stays inside its range, unless its header lines are of
the kind `overruns` describes; and for those there is a body that leaves it. -/
theorem probe_within_iff (curl : Libcurl) (now : Int) (p : ProbeState) (lines : List Text)
    (info : Info) {m : Memory Unit β} (hm : m.Within fun _ => p.range.length) :
    (∀ chunks : List (List β),
      (probeResponse curl now lines info chunks ⟨p.resetResponse, m⟩).1.memory.Within
        fun _ => p.range.length) ↔
      overruns curl p lines info.responseCode = false := by
  have hinit : ProbeHeaded [] p p.resetResponse :=
    ⟨rfl, rfl, rfl, rfl, rfl, rfl, rfl, rfl, rfl, rfl⟩
  obtain ⟨hguard, hhead⟩ := feed_probeHeaderCallback curl now lines [] p.resetResponse hinit
  simp only [probeResponse, feed_probeLine]
  generalize feed (probeHeaderCallback curl now) lines p.resetResponse = x at hguard hhead ⊢
  have hguard : x.2 = !guardStops curl p.http p.originalUrl 0 lines := hguard
  cases hgo : x.2 with
  | false =>
      -- a blocked redirect has no body
      rw [hgo] at hguard
      have hstop : guardStops curl p.http p.originalUrl 0 lines = true := by simpa using hguard.symm
      exact iff_of_true (fun _ => hm) (by simp [overruns, hstop])
  | true =>
      have hh : ProbeHeaded (latest lines) p x.1 := hhead hgo
      have hopen : guardStops curl p.http p.originalUrl 0 lines = false := by
        rw [hgo] at hguard
        simpa using hguard.symm
      have hpin : x.1.contradictsPin = (isStrongEtag p.ifMatch &&
          !(etagOf (latest lines)).isEmpty && etagOf (latest lines) != p.ifMatch) := by
        rw [ProbeState.contradictsPin, hh.etag_eq,
          show x.1.ifMatch = p.ifMatch from congrArg (·.ifMatch) hh.settings_eq]
      have hover : overruns curl p lines info.responseCode = (info.responseCode == 206 &&
          x.1.letsIn && decide (p.range.length < x.1.partialLength)) := by
        simp only [overruns, hopen, ProbeState.letsIn, ProbeState.partialLength, hh.encoding_eq,
          hh.answers_eq, hh.first_eq, hh.last_eq, ← hpin, Bool.not_false, Bool.true_and,
          Bool.and_assoc]
      rw [hover]
      simp only [if_true]
      constructor
      · -- a body one byte too long
        intro hall
        by_contra hbad
        simp only [Bool.not_eq_false, Bool.and_eq_true, beq_iff_eq, decide_eq_true_eq] at hbad
        obtain ⟨⟨h206, hin⟩, hlong⟩ := hbad
        have hone := hall [List.replicate (p.range.length + 1) (m.cell () 0)]
        rw [feed_singleton, probeBodyCallback_first hh.waiting hh.skip_eq hh.stored_eq h206 hin
          (by simp) (by rw [List.length_replicate]; omega), Memory.within_memcpy,
          List.length_replicate] at hone
        omega
      · intro hno chunks
        have hready : Ready p.range.length info ⟨x.1, m⟩ := by
          refine ⟨⟨hm, ?_, ?_⟩, ?_, fun _ => hh.stored_eq, fun _ h206 hin => ?_⟩
          · show x.1.stored ≤ x.1.wanted
            rw [hh.stored_eq]
            exact Nat.zero_le _
          · show x.1.wanted ≤ _
            rw [hh.wanted_eq]
            exact Nat.zero_le _
          · show x.1.range.length ≤ _
            rw [hh.range_eq]
          · have hin : x.1.letsIn = true := hin
            simpa [h206, hin] using hno
        have hrun : Ready p.range.length info
            (feed (probeBodyCallback info) chunks ⟨x.1, m⟩).1 :=
          feed_induct (P := Ready p.range.length info)
            (fun data _ s hs => probeBodyCallback_ready p.range.length_lt hs data) hready
        exact hrun.inside.within

end Probe

/-- A probe of the first ten bytes. -/
def tenBytes : ProbeState := { range := { length := 10 } }

/-- An honest header, and another that has no total. -/
def twoRanges : List Text :=
  [text "HTTP/1.1 206 Partial Content\r\n", text "Content-Range: bytes 0-9/100\r\n",
    text "Content-Range: bytes 0-99999/*\r\n"]

theorem probe_within_iff_one_range :
    overruns .uncalled tenBytes (twoRanges.take 2) 206 = false ∧
      ∀ chunks : List (List UInt8), (probeResponse .uncalled 0 (twoRanges.take 2) ⟨206, -1⟩ chunks
        ⟨tenBytes.resetResponse, ⟨fun _ _ => 0, []⟩⟩).1.memory.Within fun _ => 10 :=
  ⟨by decide, (probe_within_iff .uncalled 0 tenBytes (twoRanges.take 2) ⟨206, -1⟩
    (m := ⟨fun _ _ => 0, []⟩) (by decide)).mpr (by decide)⟩

/-- Eleven bytes of a body go into ten. -/
theorem twoRanges_overrun :
    (probeResponse .uncalled 0 twoRanges ⟨206, -1⟩ [List.replicate 11 (1 : UInt8)]
        ⟨tenBytes.resetResponse, ⟨fun _ _ => 0, []⟩⟩).1.memory.copies = [⟨(), 0, 11⟩] ∧
      ¬ (probeResponse .uncalled 0 twoRanges ⟨206, -1⟩ [List.replicate 11 (1 : UInt8)]
        ⟨tenBytes.resetResponse, ⟨fun _ _ => 0, []⟩⟩).1.memory.Within fun _ => tenBytes.range.length := by
  decide

end Karu
