/-
# `Karu.Runtime.Replies` — what a reply of `get_range` says

A server that sends one object that does not change may be deaf to suffix
ranges, or to `Range` altogether; it states the object's size where it states
one (`Response.Steady`).

At such a server a reply is exact (`getRange_exact`): its total is the size of
the object, and unless the suffix was ignored the destination holds the bytes
of the range that there are, from the position the range names.
-/
import Karu.Runtime.Trailers
import Karu.Runtime.Integrity

namespace Karu

open Base

variable {β : Type}

/-! ## Servers that state the size of one object -/

/-- An honest response that states the object's size wherever it states one: in a
`Content-Range` of either form, or in the `Content-Length` of the whole object. -/
structure Response.Steady (object : List β) (r : Response β) : Prop extends r.Honest object where
  sized : r.Sized object
  unsatisfied : ∀ v ∈ contentRanges r.fields, (parseUnsatisfiedContentRange v 0).1 = true →
    (parseUnsatisfiedContentRange v 0).2 = object.length
  length : r.code = 200 → 0 ≤ r.contentLength → r.contentLength = object.length

/-- A steady response whose trailers say nothing about ranges; HTTP has none there. -/
structure Trailed.Steady (object : List β) (r : Trailed β) : Prop
    extends r.toResponse.Steady object where
  rangeless : contentRanges r.trailers = []

/-- Every response to the request is steady, and complete where libcurl says so. -/
structure ProbeRequest.Steady (object : List β) (q : ProbeRequest β) : Prop where
  steady : ∀ r ∈ q.responses, r.Steady object
  complete : q.result = .ok → ∀ r ∈ q.responses, r.Complete object

section
variable [DecidableEq β] (object : List β)

instance (r : Response β) : Decidable (r.Steady object) :=
  decidable_of_iff (r.Honest object ∧
      (∀ v ∈ contentRanges r.fields, ∀ c ∈ contentRange v, ∀ n ∈ c.total, n = object.length) ∧
      (∀ v ∈ contentRanges r.fields, (parseUnsatisfiedContentRange v 0).1 = true →
        (parseUnsatisfiedContentRange v 0).2 = object.length) ∧
      (r.code = 200 → 0 ≤ r.contentLength → r.contentLength = object.length))
    ⟨fun ⟨h₁, h₂, h₃, h₄⟩ => ⟨h₁, h₂, h₃, h₄⟩,
      fun h => ⟨h.toHonest, h.sized, h.unsatisfied, h.length⟩⟩

instance (r : Trailed β) : Decidable (r.Steady object) :=
  decidable_of_iff (r.toResponse.Steady object ∧ contentRanges r.trailers = [])
    ⟨fun ⟨h₁, h₂⟩ => ⟨h₁, h₂⟩, fun h => ⟨h.toSteady, h.rangeless⟩⟩

instance (q : ProbeRequest β) : Decidable (q.Steady object) :=
  decidable_of_iff ((∀ r ∈ q.responses, r.Steady object) ∧
      (q.result = .ok → ∀ r ∈ q.responses, r.Complete object))
    ⟨fun ⟨h₁, h₂⟩ => ⟨h₁, h₂⟩, fun h => ⟨h.steady, h.complete⟩⟩

end

theorem Trailed.contentRanges_heading {r : Trailed β} (h : contentRanges r.trailers = []) :
    contentRanges r.heading.fields = contentRanges r.fields := by
  show contentRanges r.headingFields = _
  unfold Trailed.headingFields
  split
  · rw [contentRanges_append, h, List.append_nil]
  · rfl

/-- Such trailers may as well come with the header lines. -/
theorem Trailed.Steady.heading {object : List β} {r : Trailed β} (h : r.Steady object) :
    r.heading.Steady object := by
  have hsame := Trailed.contentRanges_heading h.rangeless
  refine ⟨⟨h.plain, h.known, h.whole, ?_, ?_⟩, ?_, ?_, h.length⟩
  · rw [hsame]
    exact h.one_range
  · rw [hsame]
    exact h.ranged
  · unfold Response.Sized
    rw [hsame]
    exact h.sized
  · rw [hsame]
    exact h.unsatisfied

theorem Trailed.complete_heading {object : List β} {r : Trailed β}
    (hrangeless : contentRanges r.trailers = []) (h : r.Complete object) :
    r.heading.Complete object := by
  refine ⟨h.whole, ?_⟩
  rw [Trailed.contentRanges_heading hrangeless]
  exact h.ranged

/-- The size the header lines stated, if they stated any. -/
structure ProbeState.Known (n : Nat) (p : ProbeState) : Prop where
  total_eq : p.haveTotal = true → p.total = n
  unsatisfied : p.unsatisfiedContentRangeValid = true → p.haveTotal = true
  answered : p.contentRangeAnswers = true → p.haveTotal = true

theorem ProbeState.Known.recordContentRange {n : Nat} {p : ProbeState} {value : Text}
    (h : p.Known n) (hsized : ∀ c ∈ contentRange value, ∀ k ∈ c.total, k = n)
    (hunsatisfied : (parseUnsatisfiedContentRange value 0).1 = true →
      (parseUnsatisfiedContentRange value 0).2 = n) : (p.recordContentRange value).Known n := by
  have hverdict := parseContentRange_verdict value ⟨p.rangeFirst, p.rangeLast, 0, false⟩
  -- a value that is not taken for a range may still be one of the unsatisfied form
  have hother : ∀ first last : Nat,
      (if (parseUnsatisfiedContentRange value 0).1 = true then
        { p with
          rangeFirst := first, rangeLast := last, contentRangeValid := false,
          unsatisfiedContentRangeValid := (parseUnsatisfiedContentRange value 0).1,
          total := (parseUnsatisfiedContentRange value 0).2, haveTotal := true }
      else
        { p with
          rangeFirst := first, rangeLast := last, contentRangeValid := false,
          unsatisfiedContentRangeValid := (parseUnsatisfiedContentRange value 0).1 } :
        ProbeState).Known n := by
    intro first last
    split
    · rename_i hyes
      exact ⟨fun _ => hunsatisfied hyes, fun _ => rfl, fun _ => rfl⟩
    · rename_i hno
      exact ⟨h.total_eq, fun hyes => absurd hyes hno, h.answered⟩
  simp only [ProbeState.recordContentRange]
  cases hc : contentRange value with
  | some c =>
      rw [hc] at hverdict
      simp only [hverdict, Bool.true_and]
      cases ht : c.total with
      | some k =>
          have hk : k = n := hsized c hc k ht
          simp only [ContentRange.fields, ht, Option.isSome_some, if_true, Option.getD_some]
          exact ⟨fun _ => hk, fun _ => rfl, fun _ => rfl⟩
      | none =>
          simp only [ContentRange.fields, ht, Option.isSome_none, Bool.false_eq_true, if_false]
          exact hother _ _
  | none =>
      rw [hc] at hverdict
      simp only [hverdict, Bool.false_and, Bool.false_eq_true, if_false]
      exact hother _ _

/-- The header lines of a response, the status line apart. -/
structure ProbeListed (n : Nat) (p₀ p : ProbeState) : Prop where
  progress_eq : p.progress = p₀.progress
  known : p.Known n

theorem ProbeListed.line {n : Nat} {p₀ p : ProbeState} {line : Text} (h : ProbeListed n p₀ p)
    (hstatus : isStatusLine line = false) (curl : Libcurl) (now : Int)
    (hsized : ∀ v ∈ contentRanges [line], (∀ c ∈ contentRange v, ∀ k ∈ c.total, k = n) ∧
      ((parseUnsatisfiedContentRange v 0).1 = true → (parseUnsatisfiedContentRange v 0).2 = n)) :
    ProbeListed n p₀ (probeHeaderCallback curl now line p).1 := by
  refine ⟨?_, ?_⟩
  · rcases probeHeaderCallback_cases hstatus curl now p with ⟨-, -, hn⟩ | ⟨-, hblocked⟩
    · exact hn.progress_eq.trans h.progress_eq
    · rw [hblocked]
      exact h.progress_eq
  · have hkeep : ∀ p' : ProbeState, p'.total = p.total → p'.haveTotal = p.haveTotal →
        p'.unsatisfiedContentRangeValid = p.unsatisfiedContentRangeValid →
        p'.contentRangeAnswers = p.contentRangeAnswers → p'.Known n := by
      intro p' h₁ h₂ h₃ h₄
      refine ⟨?_, ?_, ?_⟩
      · rw [h₁, h₂]
        exact h.known.total_eq
      · rw [h₂, h₃]
        exact h.known.unsatisfied
      · rw [h₂, h₄]
        exact h.known.answered
    simp only [probeHeaderCallback, hstatus, Bool.false_eq_true, if_false]
    split
    · exact hkeep _ rfl rfl rfl rfl
    · split
      · rename_i hrange
        have hone : headerValue line (text "content-range:") ∈ contentRanges [line] := by
          simp [contentRanges, hrange]
        obtain ⟨h₁, h₂⟩ := hsized _ hone
        exact h.known.recordContentRange h₁ h₂
      · split
        · exact hkeep _ rfl rfl rfl rfl
        · split
          · exact hkeep _ rfl rfl rfl rfl
          · split
            · split
              · exact hkeep _ rfl rfl rfl rfl
              · exact h.known
            · exact hkeep _ rfl rfl rfl rfl

/-! ## The last response -/

/-- The state the header lines of a response leave, if they are accepted. -/
structure ProbeOpened (n : Nat) (r : Response β) (p₀ p : ProbeState) : Prop where
  headed : ProbeHeaded r.fields p₀ p
  known : p.Known n
  uncut : p.cutShort = false
  unexceeded : p.bodyExceededRange = false
  unignored : p.suffixIgnored = false
  unrejected : p.rangeFallbackRejected = false
  unchanged : p.versionChanged = false

theorem feed_probeLines {object : List β} {r : Response β} (hr : r.Steady object) (curl : Libcurl)
    {p₀ p : ProbeState} (hp : p.resetResponse = p₀.resetResponse) :
    (feed (probeHeaderCallback curl r.now) r.lines p).2 = true →
      ProbeOpened object.length r p₀ (feed (probeHeaderCallback curl r.now) r.lines p).1 := by
  let p₁ : ProbeState := { p.resetResponse with httpStatus := responseStatus r.statusLine }
  have hfirst : probeHeaderCallback curl r.now r.statusLine p = (p₁, true) := by
    simp [probeHeaderCallback, r.status_first, p₁]
  have hheaded : ProbeHeaded [] p₀ p₁ := ⟨hp, rfl, rfl, rfl, rfl, rfl, rfl, rfl, rfl, rfl⟩
  have hlisted : ProbeListed object.length p₁ p₁ :=
    ⟨rfl, fun h => (by cases h), fun h => (by cases h), fun h => (by cases h)⟩
  rw [Response.lines, feed_cons_true (by rw [hfirst]), hfirst]
  intro hyes
  have hend : ProbeListed object.length p₁
      (feed (probeHeaderCallback curl r.now) r.fields p₁).1 := by
    refine feed_induct (fun line hline p hp => ?_) hlisted
    refine hp.line (r.status_once line hline) curl r.now fun v hv => ?_
    have hv : v ∈ contentRanges r.fields := by
      simp only [contentRanges, List.mem_map, List.mem_filter, List.mem_singleton] at hv ⊢
      obtain ⟨_, ⟨rfl, hname⟩, rfl⟩ := hv
      exact ⟨_, ⟨hline, hname⟩, rfl⟩
    exact ⟨hr.sized v hv, hr.unsatisfied v hv⟩
  have hhead := (feed_probeHeaderCallback curl r.now r.fields [] p₁ hheaded).2 hyes
  have hfields := latest_lines r
  simp only [latest, Response.lines, List.foldl_cons, r.status_first, if_true] at hfields
  rw [hfields] at hhead
  generalize feed (probeHeaderCallback curl r.now) r.fields p₁ = x at hend hhead ⊢
  have hkeep := hend.progress_eq
  exact ⟨hhead, hend.known, ProbeState.field_of_progress (·.cutShort) hkeep,
    ProbeState.field_of_progress (·.bodyExceededRange) hkeep,
    ProbeState.field_of_progress (·.suffixIgnored) hkeep,
    ProbeState.field_of_progress (·.rangeFallbackRejected) hkeep,
    ProbeState.field_of_progress (·.versionChanged) hkeep⟩

/-- How a response ends that the redirect guard lets pass. -/
theorem probeTrailed_steady [Octet β] {object : List β} {r : Trailed β} (hr : r.Steady object)
    (curl : Libcurl) {p₀ : ProbeState} {s : Probing β}
    (hs : s.state.resetResponse = p₀.resetResponse)
    (hopen : (probeTrailed curl r s).1.state.redirectBlocked = false) :
    ∃ p, ProbeOpened object.length r.heading p₀ p ∧
      TrailedEnd r p s.memory (probeTrailed curl r s) := by
  have hopened : ∀ p, feed (probeHeaderCallback curl r.now) r.heading.lines s.state = (p, true) →
      ProbeOpened object.length r.heading p₀ p := by
    intro p hlines
    have h := feed_probeLines hr.heading curl hs
    rw [show r.heading.now = r.now from rfl, hlines] at h
    exact h rfl
  obtain ⟨p, hlines, hend⟩ := probeTrailed_ends r curl hopen fun p hlines =>
    ⟨(hopened p hlines).headed.waiting, (hopened p hlines).headed.stored_eq⟩
  exact ⟨p, hopened p hlines, hend⟩

/-! ## Replies -/

/-- Everything a turn of `get_range` replies to. -/
inductive Replied (range : ByteRange) (status : Int) (p : ProbeState) : RangeReply → Prop
  | unsatisfied {reply : RangeReply} : status = 416 → p.unsatisfiedContentRangeValid = true →
      unsatisfiedReply range p = some reply → Replied range status p reply
  | partly : status = 206 → p.bodyExceededRange = false → p.versionChanged = false →
      Detail.transformed p.encoding = false → p.contentRangeAnswers = true → p.stored = p.wanted →
      Replied range status p
        { total := p.total, first := p.rangeFirst, got := p.stored, etag := p.etag }
  | ignored : status = 200 → p.versionChanged = false → Detail.transformed p.encoding = false →
      p.suffixIgnored = true →
      Replied range status p { total := p.total, etag := p.etag, suffixIgnored := true }
  | whole : status = 200 → p.versionChanged = false → Detail.transformed p.encoding = false →
      p.suffixIgnored = false → p.rangeFallbackRejected = false → p.haveTotal = true →
      Replied range status p
        { total := p.total, first := p.rangeFirst, got := p.stored, etag := p.etag }

section Judging

variable {turn : ProbeTurn} {status : Int} {code : CurlCode} {p : ProbeState} {reply : RangeReply}

theorem ProbeTurn.retryOrFail_ne (loop : ProbeLoop) :
    turn.retryOrFail status code p loop ≠ .reply reply := by
  intro h
  simp only [ProbeTurn.retryOrFail] at h
  generalize (if unreachable code = true then 1 else 0) = more at h
  split at h
  · cases h
  · split at h
    · split at h <;> cases h
    · split at h
      · cases h
      · split at h <;> cases h

theorem ProbeTurn.settle_replied {loop : ProbeLoop}
    (h : turn.settle status code p loop = .reply reply) :
    code = .ok ∧ Replied turn.range status p reply := by
  simp only [ProbeTurn.settle] at h
  split at h
  · cases h
  · rename_i hexceeded
    split at h
    · cases h
    · rename_i hplain
      split at h
      · cases h
      · rename_i hchanged
        split at h
        · rename_i h206
          have hsuccess : isSuccess status = true := by
            rw [h206.2]
            decide
          have hsame : p.versionChanged = false := by simpa [h206.1] using hchanged
          have hclear : Detail.transformed p.encoding = false := by
            simpa [h206.1, hsuccess] using hplain
          split at h
          · cases h
          · rename_i hanswers
            split at h
            · cases h
            · rename_i hstored
              cases h
              exact ⟨h206.1, .partly h206.2 (by simpa [h206.2] using hexceeded) hsame hclear
                (by simpa using hanswers) (by simpa using hstored)⟩
        · split at h
          · rename_i h200
            have hsuccess : isSuccess status = true := by
              rw [h200.2]
              decide
            have hsame : p.versionChanged = false := by simpa [h200.1] using hchanged
            have hclear : Detail.transformed p.encoding = false := by
              simpa [h200.1, hsuccess] using hplain
            split at h
            · rename_i hignored
              cases h
              exact ⟨h200.1, .ignored h200.2 hsame hclear hignored⟩
            · rename_i hignored
              split at h
              · cases h
              · rename_i hrejected
                split at h
                · cases h
                · rename_i htotal
                  cases h
                  exact ⟨h200.1, .whole h200.2 hsame hclear (by simpa using hignored)
                    (by simpa using hrejected) (by simpa using htotal)⟩
          · split at h
            · cases h
            · exact absurd h (turn.retryOrFail_ne loop)

theorem ProbeTurn.correct_replied (h : turn.correct status code p = .reply reply) :
    p.redirectBlocked = false ∧ code = .ok ∧ Replied turn.range status p reply := by
  simp only [ProbeTurn.correct] at h
  split at h
  · cases h
  · rename_i hopen
    refine ⟨by simpa using hopen, ?_⟩
    split at h
    · cases h
    · split at h
      · cases h
      · split at h
        · rename_i h416
          split at h
          · cases h
          · rename_i hvalid
            split at h
            · rename_i hreply
              cases h
              exact ⟨h416.1, .unsatisfied h416.2 (by simpa using hvalid) hreply⟩
            · exact ProbeTurn.settle_replied h
        · exact ProbeTurn.settle_replied h

end Judging

/-- Where a range begins in an object of `n` bytes. -/
def ByteRange.start (range : ByteRange) (n : Nat) : Nat :=
  if range.suffix then n - range.length else range.first

/-- A reply to a request for `range` of the object, with what is then in the destination. -/
structure RangeReply.Exact (object : List β) (range : ByteRange) (reply : RangeReply)
    (m : Memory Unit β) : Prop where
  total_eq : reply.total = object.length
  ignored : reply.suffixIgnored = true → range.suffix = true
  first_eq : reply.suffixIgnored = false → reply.first = range.start object.length
  got_eq : reply.suffixIgnored = false →
    reply.got = min range.length (object.length - range.start object.length)
  bytes_eq : reply.suffixIgnored = false →
    m.read () 0 reply.got = (object.drop (range.start object.length)).take range.length

section Exact

variable {object : List β} {range : ByteRange}

/-- The numbers of an answer, when the answer is about the object: it begins where the range
does, and goes on as far as there is something. -/
theorem answers_exact {first last n : Nat} (hle : first ≤ last) (hlast : last < n)
    (hpos : 1 ≤ range.length) (h : answers range first last n = true) :
    first = range.start n ∧ add64 (sub64 last first) 1 = last - first + 1 ∧
      last - first + 1 = min range.length (n - range.start n) := by
  have hfirst := range.first_lt
  have hlength := range.length_lt
  unfold answers at h
  unfold ByteRange.start
  cases hs : range.suffix with
  | true =>
      simp only [hs, if_true, Bool.and_eq_true, beq_iff_eq] at h ⊢
      obtain ⟨htotal, hmin⟩ := h
      have hlt : last + 1 < 2 ^ 64 := by
        unfold add64 at htotal
        omega
      rw [add64_of_lt hlt] at htotal
      rw [sub64_of_le hle (by omega), add64_of_lt (by omega)] at hmin ⊢
      omega
  | false =>
      simp only [hs, Bool.false_eq_true, if_false, Bool.and_eq_true, beq_iff_eq,
        decide_eq_true_eq, Bool.or_eq_true] at h ⊢
      obtain ⟨⟨heq, hend⟩, hstop⟩ := h
      have hlt : last < 2 ^ 64 := lt_of_le_of_lt hend (sub64_lt _ _)
      -- a range that wraps would end before it begins
      have hfits : range.first + range.length ≤ 2 ^ 64 := by
        by_contra hover
        unfold sub64 add64 at hend
        omega
      have hends : sub64 (add64 range.first range.length) 1 = range.first + range.length - 1 := by
        unfold sub64 add64
        omega
      rw [hends] at hend hstop
      have hwhole : add64 last 1 = n → last + 1 = n := by
        unfold add64
        omega
      rw [sub64_of_le hle hlt, add64_of_lt (by omega)]
      omega

/-- Everything `start_body` can decide on a `200` for an object of `n` bytes. -/
inductive WholeStart (n : Nat) (p : ProbeState) : ProbeState × Bool → Prop
  | transformed : Detail.transformed p.encoding = true → WholeStart n p (p, false)
  | changed : WholeStart n p ({ p with versionChanged := true }, false)
  | unsized : p.haveTotal = false → WholeStart n p (p, false)
  | ignored : p.range.suffix = true →
      WholeStart n p ({ p with total := n, haveTotal := true, suffixIgnored := true }, false)
  | rejected :
      WholeStart n p ({ p with total := n, haveTotal := true, rangeFallbackRejected := true }, false)
  | entered : (p.range.suffix = true → n ≤ p.range.length) → WholeStart n p
      ({ p with
        total := n, haveTotal := true, skip := p.range.start n, rangeFirst := p.range.start n,
        wanted := min p.range.length (n - p.range.start n) }, true)

theorem startBody_whole {info : Info} {n : Nat} {p : ProbeState} (h200 : info.responseCode = 200)
    (hknown : p.haveTotal = true → p.total = n)
    (hlength : p.haveTotal = false → 0 ≤ info.contentLength → info.contentLength = n)
    (hskip : p.skip = 0) : WholeStart n p (startBody info p) := by
  have hsized : p.sized info = ({ p with total := n, haveTotal := true }, true) ∨
      p.haveTotal = false ∧ p.sized info = (p, false) := by
    unfold ProbeState.sized
    cases hhave : p.haveTotal with
    | true =>
        refine Or.inl ?_
        rw [if_pos rfl, ← hknown hhave, ← hhave]
    | false =>
        rw [if_neg (by decide)]
        by_cases hneg : info.contentLength < 0
        · exact Or.inr ⟨rfl, by rw [if_pos hneg]⟩
        · refine Or.inl ?_
          have hn : info.contentLength.toNat = n := by
            have := hlength hhave (by omega)
            omega
          rw [if_neg hneg, hn]
  have h206 : ¬ info.responseCode = 206 := by omega
  simp only [startBody, if_neg h206]
  split
  · exact .transformed ‹_›
  · split
    · exact .changed
    · rw [if_neg (by simpa using h200)]
      rcases hsized with hsized | ⟨hnone, hsized⟩
      · rw [hsized]
        simp only [if_true, ProbeState.startWhole]
        have hstart : p.range.start n = if p.range.suffix then n - p.range.length else p.range.first :=
          rfl
        have hentered := WholeStart.entered (n := n) (p := p)
        cases hs : p.range.suffix with
        | true =>
            rw [if_pos rfl]
            split
            · exact .ignored hs
            · rename_i hlong
              have hzero : n - p.range.length = 0 := by omega
              have hmin : min p.range.length (n - 0) = n := by omega
              rw [hstart, hs, if_pos rfl, hzero, hmin] at hentered
              rw [hskip]
              exact hentered fun _ => by omega
        | false =>
            rw [if_neg (by decide)]
            split
            · exact .rejected
            · have hmin : (if p.range.first < n then min p.range.length (n - p.range.first) else 0) =
                  min p.range.length (n - p.range.first) := by
                split <;> omega
              rw [hstart, hs, if_neg (by decide)] at hentered
              rw [hmin]
              exact hentered fun hno => by cases hno
      · rw [hsized]
        exact .unsized hnone

/-- The bytes that are stored of a body that is a prefix of the object, once all that is wanted
has been stored. -/
theorem stored_bytes {read : List β} {start length wanted : Nat} (hread : read <+: object)
    (hwanted : wanted = min length (object.length - start))
    (hall : min wanted (read.length - start) = wanted) :
    (read.drop start).take wanted = (object.drop start).take length := by
  have htake : (object.drop start).take length = (object.drop start).take wanted := by
    rw [List.take_eq_take_iff, List.length_drop]
    omega
  have hpre : read.drop start <+: object.drop start := drop_prefix_drop hread start
  rw [htake, List.prefix_iff_eq_take.mp hpre, List.take_take, List.length_drop, hall]

end Exact

section Ended

variable {object : List β} {r : Response β} {p : ProbeState} {m : Memory Unit β}
  {x : Probing β × Bool} {result : CurlCode}

/-- What libcurl returned, as `get_range` takes it. -/
def probeCode (result : CurlCode) (x : Probing β × Bool) : CurlCode :=
  deliveredCode (if x.2 then result else .writeError) x.1.state

/-- The state and the destination that a turn is judged on. -/
def probeFinal (r : Response β) (result : CurlCode) (x : Probing β × Bool) : Probing β :=
  { x.1 with state := startEmpty r.info (probeCode result x) x.1.state }

/-- How a successful response that libcurl finished, or that was cut short, ends; behind a body
that was read to its end come the lines `rest`. -/
inductive ProbeEnded (r : Response β) (rest : List Text) (p : ProbeState) (result : CurlCode) :
    Probing β → Prop
  | refused {p' : ProbeState} {cut : Bool} {m : Memory Unit β} :
      startBody r.info { p with started := true } = (p', false) →
      ProbeEnded r rest p result ⟨{ p' with cutShort := cut }, m⟩
  | whole {p' p'' : ProbeState} {s : Probing β} :
      startBody r.info { p with started := true } = (p', true) → result = .ok →
      ProbeReading p' r.body s → ProbeTrailing rest s.state p'' →
      (r.chunks ≠ [] → r.code = 200 → s.state.skip = 0 → s.state.stored ≠ s.state.wanted) →
      ProbeEnded r rest p result ⟨p'', s.memory⟩
  | cut {p' : ProbeState} {s : Probing β} :
      startBody r.info { p with started := true } = (p', true) →
      ProbeReading.CutOff r.info p' s →
      (r.code = 200 → ∃ read, read <+: r.body ∧ ProbeReading p' read s) →
      ProbeEnded r rest p result s

theorem probeFinal_started (h : x.1.state.started = true) : probeFinal r result x = x.1 := by
  obtain ⟨⟨p, m⟩, accepted⟩ := x
  have hs : p.started = true := h
  simp [probeFinal, startEmpty, hs]

/-- An accepted body that cut nothing short leaves libcurl's own result. -/
theorem probeCode_accepted (haccepted : x.2 = true) (huncut : x.1.state.cutShort = false) :
    probeCode result x = result := by
  simp [probeCode, deliveredCode, haccepted, huncut]

theorem ProbeEnd.ended {rest : List Text} (hend : ProbeEnd r p m x)
    (hrest : x.2 = true → rest = []) (hwait : p.started = false)
    (hstored : p.stored = 0) (huncut : p.cutShort = false) (hsuccess : isSuccess r.code = true)
    (hcode : probeCode result x = .ok) : ProbeEnded r rest p result (probeFinal r result x) := by
  cases hend with
  | empty hchunks =>
      have hresult : result = .ok := by
        rw [← hcode, probeCode_accepted rfl huncut]
      have hinfo : isSuccess r.info.responseCode = true := hsuccess
      have hfinal : probeFinal r result (⟨p, m⟩, true) =
          ⟨(startBody r.info { p with started := true }).1, m⟩ := by
        simp only [probeFinal, hcode, startEmpty, hinfo, hwait, and_self, if_true]
      rw [hfinal]
      cases hstart : startBody r.info { p with started := true } with
      | mk p' go =>
          cases go with
          | false => exact @ProbeEnded.refused _ _ _ _ _ p' p'.cutShort m hstart
          | true =>
              have hbody : r.body = [] := by rw [Response.body, hchunks, List.flatten_nil]
              rw [hrest rfl]
              refine .whole (s := ⟨p', m⟩) hstart hresult ?_ (.refl p') fun hne => absurd hchunks hne
              rw [hbody]
              exact ProbeReading.begin ((startBody_enters hstart).1.trans hstored) m
  | error hhigh =>
      simp only [isSuccess, Bool.and_eq_true, decide_eq_true_eq] at hsuccess
      omega
  | refused _ _ hstart =>
      have hs := startBody_cases r.info { p with started := true }
      rw [hstart] at hs
      cases hs with
      | refused hsame =>
          rw [probeFinal_started (ProbeState.field_of_unstarted (·.started) hsame)]
          exact .refused hstart
  | @whole p' s _ _ hstart hread hkept hopen =>
      have hs : s.state.started = true :=
        (ProbeState.field_of_settings (·.started) hread.settings_eq).trans (startBody_enters hstart).2.1
      rw [probeFinal_started hs, hrest rfl]
      refine .whole hstart ?_ hread (.refl s.state) fun _ => hopen
      rw [← hcode, probeCode_accepted rfl (hkept.trans huncut)]
  | @cut p' s _ _ hstart hsettings hcut hread =>
      have hs : s.state.started = true :=
        (ProbeState.field_of_settings (·.started) hsettings).trans (startBody_enters hstart).2.1
      rw [probeFinal_started hs]
      exact .cut hstart hcut hread

/-- An error leaves the state as its header lines did, but for the body. -/
theorem ProbeEnd.error_state (hend : ProbeEnd r p m x) (hcode : 300 ≤ r.code) :
    (probeFinal r result x).state.uncaptured = p.uncaptured := by
  have hsuccess : isSuccess r.info.responseCode = false := by
    have : ¬ r.info.responseCode < 300 := by
      show ¬ r.code < 300
      omega
    simp [isSuccess, this]
  have hfinal : (probeFinal r result x).state = x.1.state := by
    simp [probeFinal, startEmpty, hsuccess]
  rw [hfinal]
  cases hend with
  | empty => rfl
  | error _ hsame => exact hsame
  | refused _ hlow => omega
  | whole _ hlow => omega
  | cut _ hlow => omega

/-- The trailer lines that come behind a body. -/
def Trailed.rest (r : Trailed β) : List Text := if r.chunks.isEmpty then [] else r.trailers

theorem TrailedEnd.ended {r : Trailed β} (hend : TrailedEnd r p m x) (hwait : p.started = false)
    (hstored : p.stored = 0) (huncut : p.cutShort = false) (hsuccess : isSuccess r.code = true)
    (hcode : probeCode result x = .ok) :
    ProbeEnded r.heading r.rest p result (probeFinal r.heading result x) := by
  cases hend with
  | body hbody hwhy =>
      refine hbody.ended (fun haccepted => ?_) hwait hstored huncut hsuccess hcode
      rcases hwhy with hnil | hno
      · rw [Trailed.rest, hnil, List.isEmpty_nil, if_pos rfl]
      · exact absurd (hno.symm.trans haccepted) (by decide)
  | @behind s p' hne hbody htrailing =>
      have hrest : r.rest = r.trailers := if_neg (by simpa using hne)
      have hcut : p'.cutShort = s.state.cutShort :=
        ProbeState.field_of_progress (·.cutShort) htrailing.progress_eq
      have hstarted : p'.started = s.state.started :=
        ProbeState.field_of_progress (·.started) htrailing.progress_eq
      cases hbody with
      | empty hnil => exact absurd hnil hne
      | error hhigh =>
          have hhigh : 300 ≤ r.code := hhigh
          simp only [isSuccess, Bool.and_eq_true, decide_eq_true_eq] at hsuccess
          omega
      | @whole p₁ _ _ _ hstart hread hkept hopen =>
          have hs : s.state.started = true :=
            (ProbeState.field_of_settings (·.started) hread.settings_eq).trans
              (startBody_enters hstart).2.1
          rw [probeFinal_started (x := (⟨p', s.memory⟩, true)) (hstarted.trans hs), hrest]
          refine .whole hstart ?_ hread htrailing fun _ => hopen
          rw [← hcode, probeCode_accepted rfl (hcut.trans (hkept.trans huncut))]

/-- The same behind an error, where the trailers say nothing about ranges. -/
theorem TrailedEnd.error_state {r : Trailed β} (hend : TrailedEnd r p m x) (hcode : 300 ≤ r.code)
    (hnone : contentRanges r.trailers = []) :
    (probeFinal r.heading result x).state.uncaptured.unlisted = p.uncaptured.unlisted := by
  cases hend with
  | body hbody => exact congrArg ProbeState.unlisted (hbody.error_state hcode)
  | @behind s p' _ hbody htrailing =>
      have hsame : (probeFinal r.heading .writeError (s, true)).state.uncaptured = p.uncaptured :=
        hbody.error_state hcode
      have hfinal : ∀ (result : CurlCode) (s : Probing β),
          (probeFinal r.heading result (s, true)).state = s.state := by
        intro result s
        have hfail : isSuccess r.heading.info.responseCode = false := by
          have : ¬ r.code < 300 := by omega
          show isSuccess r.code = false
          simp [isSuccess, this]
        simp [probeFinal, startEmpty, hfail]
      rw [hfinal] at hsame ⊢
      have hlisted : p'.uncaptured.unlisted = s.state.uncaptured.unlisted :=
        congrArg ProbeState.uncaptured (htrailing.rangeless hnone)
      exact hlisted.trans (congrArg ProbeState.unlisted hsame)

variable {p₀ : ProbeState} {reply : RangeReply} {rest : List Text}

theorem unsatisfied_exact {range : ByteRange} (hknown : p.total = object.length)
    (h : unsatisfiedReply range p = some reply) (m : Memory Unit β) :
    reply.Exact object range m := by
  -- nothing of the object lies in the range
  have hnone : ∀ reply : RangeReply, reply.total = p.total → reply.suffixIgnored = false →
      reply.got = 0 → reply.first = range.start object.length →
      object.length ≤ range.start object.length → reply.Exact object range m := by
    intro reply htotal hheard hgot hfirst hpast
    refine ⟨htotal.trans hknown, fun hno => ?_, fun _ => hfirst, fun _ => ?_, fun _ => ?_⟩
    · exact absurd (hheard.symm.trans hno) (by decide)
    · omega
    · rw [hgot, List.drop_eq_nil_of_le hpast]
      simp [Memory.read]
  unfold unsatisfiedReply at h
  unfold ByteRange.start at hnone
  cases hs : range.suffix with
  | true =>
      simp only [hs, if_true] at h hnone
      split at h
      · rename_i hzero
        cases h
        refine hnone _ rfl rfl rfl ?_ ?_
        · show 0 = _
          omega
        · omega
      · cases h
        exact ⟨hknown, fun _ => hs, fun hno => (by cases hno), fun hno => (by cases hno),
          fun hno => (by cases hno)⟩
  | false =>
      simp only [hs, Bool.false_eq_true, if_false] at h hnone
      split at h
      · rename_i hpast
        cases h
        exact hnone _ rfl rfl rfl rfl (hknown ▸ hpast)
      · cases h

/-- All that is wanted of a range has been stored, from a body that is a prefix of the object, and
what came behind it says nothing about ranges. -/
theorem reading_exact {range : ByteRange} {p' : ProbeState} {read : List β} {s₁ s : Probing β}
    (hread : ProbeReading p' read s₁) (hmemory : s.memory = s₁.memory)
    (hsame : s.state.unlisted = s₁.state.unlisted) (hskip : p'.skip = range.start object.length)
    (hfirst : p'.rangeFirst = range.start object.length)
    (hwanted : p'.wanted = min range.length (object.length - range.start object.length))
    (htotal : p'.total = object.length) (hpre : read <+: object)
    (hall : s₁.state.stored = p'.wanted) :
    RangeReply.Exact object range
      { total := s.state.total, first := s.state.rangeFirst, got := s.state.stored,
        etag := s.state.etag } s.memory := by
  have hsettings := hread.settings_eq
  have hgot : s.state.stored = s₁.state.stored := ProbeState.field_of_unlisted (·.stored) hsame
  refine ⟨(ProbeState.field_of_unlisted (·.total) hsame).trans
      ((ProbeState.field_of_settings (·.total) hsettings).trans htotal), fun hno => (by cases hno),
    fun _ => (ProbeState.field_of_unlisted (·.rangeFirst) hsame).trans
      ((ProbeState.field_of_settings (·.rangeFirst) hsettings).trans hfirst),
    fun _ => hgot.trans (hall.trans hwanted), fun _ => ?_⟩
  have hstored := hread.stored_eq
  show s.memory.read () 0 s.state.stored = _
  rw [hgot, hmemory, hread.memory_eq]
  rw [hskip] at hstored ⊢
  exact stored_bytes hpre hwanted (hstored.symm.trans hall)

/-- A `200` is replied to once its body has been let in: as far as it was read, which is all of it
or all that is wanted. -/
theorem whole_reading {n : Nat} {range : ByteRange} {s : Probing β}
    (hstart : WholeStart n { p with started := true } (startBody r.info { p with started := true }))
    (h200 : r.code = 200) (hended : ProbeEnded r rest p result s)
    (hreply : Replied range r.code s.state reply) (hheard : reply.suffixIgnored = false) :
    ∃ p' read s₁, read <+: r.body ∧ ProbeReading p' read s₁ ∧ s.memory = s₁.memory ∧
      p'.total = n ∧ p'.haveTotal = true ∧ (p.range.suffix = true → n ≤ p.range.length) ∧
      p'.skip = p.range.start n ∧ p'.rangeFirst = p.range.start n ∧
      p'.wanted = min p.range.length (n - p.range.start n) ∧
      (s = s₁ ∧ s₁.state.skip = 0 ∧ s₁.state.stored = p'.wanted ∨
        ProbeTrailing rest s₁.state s.state ∧ result = .ok ∧ read = r.body ∧
          (r.chunks ≠ [] → s₁.state.skip = 0 → s₁.state.stored ≠ p'.wanted)) ∧
      reply = { total := s.state.total, first := s.state.rangeFirst, got := s.state.stored,
                etag := s.state.etag } := by
  cases hreply with
  | unsatisfied hcode => omega
  | partly hcode => omega
  | ignored => cases hheard
  | whole _ hsame hclear _ hrejected hhave =>
      cases hended with
      | @refused p' _ _ hno =>
          rw [hno] at hstart
          cases hstart with
          | transformed hbad => exact absurd (hbad.symm.trans hclear) (by decide)
          | changed => cases hsame
          | unsized hnone => exact absurd (hnone.symm.trans hhave) (by decide)
          | ignored => contradiction
          | rejected => cases hrejected
      | @whole p' p'' s₁ hgo hok hread htrailing hopen =>
          have hwanted := ProbeState.field_of_settings (·.wanted) hread.settings_eq
          rw [hgo] at hstart
          cases hstart with
          | entered hshort =>
              exact ⟨_, r.body, s₁, List.prefix_rfl, hread, rfl, rfl, rfl, hshort, rfl, rfl, rfl,
                Or.inr ⟨htrailing, hok, rfl, fun hne hskip => hwanted ▸ hopen hne h200 hskip⟩, rfl⟩
      | @cut p' s hgo hcut hread =>
          rw [hgo] at hstart
          cases hstart with
          | entered hshort =>
              obtain ⟨read, hpre, hread⟩ := hread h200
              have hall := hcut.resolve_left fun h206 => absurd (h200.symm.trans h206.1) (by decide)
              exact ⟨_, read, s, hpre, hread, rfl, rfl, rfl, hshort, rfl, rfl, rfl,
                Or.inl ⟨rfl, hall.2.2⟩, rfl⟩

/-- A suffix that was ignored is nothing but the size. -/
theorem ignored_exact {s : Probing β}
    (hstart : WholeStart object.length { p with started := true }
      (startBody r.info { p with started := true }))
    (hunignored : p.suffixIgnored = false) (h200 : r.code = 200) (hrange : p.range = p₀.range)
    (hended : ProbeEnded r rest p result s) (hreply : Replied p₀.range r.code s.state reply)
    (hheard : reply.suffixIgnored = true) : reply.Exact object p₀.range s.memory := by
  have hkept : ∀ (s : Probing β) (p' : ProbeState), s.state.settings = p'.settings →
      p'.suffixIgnored = p.suffixIgnored → s.state.suffixIgnored = false := by
    intro s p' hsettings hsame
    exact (ProbeState.field_of_settings (·.suffixIgnored) hsettings).trans (hsame.trans hunignored)
  cases hreply with
  | unsatisfied hcode => omega
  | partly hcode => omega
  | whole => cases hheard
  | ignored _ hsame hclear hignored =>
      cases hended with
      | @refused p' _ _ hno =>
          rw [hno] at hstart
          cases hstart with
          | transformed hbad => exact absurd (hbad.symm.trans hclear) (by decide)
          | changed => cases hsame
          | unsized => exact absurd (hunignored.symm.trans hignored) (by decide)
          | ignored hsuffix =>
              exact ⟨rfl, fun _ => hrange ▸ hsuffix, fun hno => (by cases hno),
                fun hno => (by cases hno), fun hno => (by cases hno)⟩
          | rejected => exact absurd (hunignored.symm.trans hignored) (by decide)
      | @whole p' p'' s₁ hgo hok hread htrailing =>
          rw [hgo] at hstart
          cases hstart with
          | entered =>
              have hsame : p''.suffixIgnored = s₁.state.suffixIgnored :=
                ProbeState.field_of_progress (·.suffixIgnored) htrailing.progress_eq
              exact absurd ((hkept s₁ _ hread.settings_eq rfl).symm.trans
                (hsame.symm.trans hignored)) (by decide)
      | @cut p' s hgo hcut hread =>
          rw [hgo] at hstart
          cases hstart with
          | entered =>
              obtain ⟨read, -, hread⟩ := hread h200
              exact absurd ((hkept s _ hread.settings_eq rfl).symm.trans hignored) (by decide)

theorem whole_exact (hr : r.Steady object) (hp : ProbeOpened object.length r p₀ p)
    (hrest : contentRanges rest = []) (hcomplete : result = .ok → r.Complete object)
    {s : Probing β} (h200 : r.code = 200) (hended : ProbeEnded r rest p result s)
    (hreply : Replied p₀.range r.code s.state reply) : reply.Exact object p₀.range s.memory := by
  have hstart : WholeStart object.length { p with started := true }
      (startBody r.info { p with started := true }) :=
    startBody_whole h200 hp.known.total_eq (fun _ => hr.length h200) hp.headed.skip_eq
  have hrange : p.range = p₀.range := hp.headed.range_eq
  cases hheard : reply.suffixIgnored with
  | true => exact ignored_exact hstart hp.unignored h200 hrange hended hreply hheard
  | false =>
      obtain ⟨p', read, s₁, hpre, hread, hmemory, htotal, -, -, hskip, hfirst, hwanted, hall, rfl⟩ :=
        whole_reading hstart h200 hended hreply hheard
      rw [← hrange]
      have hsame : s.state.unlisted = s₁.state.unlisted := by
        rcases hall with ⟨rfl, -⟩ | ⟨htrailing, -⟩
        · rfl
        · exact htrailing.rangeless hrest
      refine reading_exact hread hmemory hsame hskip hfirst hwanted htotal
        (hpre.trans (hr.whole h200)) ?_
      rcases hall with ⟨-, -, hall⟩ | ⟨-, hok, rfl, -⟩
      · exact hall
      · have hbody : r.body = object := (hcomplete hok).whole h200
        rw [hread.stored_eq, hbody, hskip, hwanted]
        omega

/-- The one value of a response that is let in as partial, and the range it names. -/
theorem ProbeOpened.ranged (hr : r.Steady object) (hp : ProbeOpened object.length r p₀ p)
    (h206 : r.code = 206) (hanswers : p.contentRangeAnswers = true) :
    ∃ v ∈ contentRanges r.fields, ∃ c ∈ contentRange v, p.rangeFirst = c.first ∧
      p.rangeLast = c.last ∧ answers p₀.range c.first c.last object.length = true := by
  have hone := hr.one_range h206
  have hfirst := hp.headed.first_eq
  have hlast := hp.headed.last_eq
  have hsized := hp.headed.answers_eq
  rw [hanswers] at hsized
  cases hvs : contentRanges r.fields with
  | nil =>
      rw [hvs] at hsized
      cases hsized
  | cons v vs =>
      have hvs' : vs = [] := by
        rw [hvs, List.length_cons] at hone
        exact List.length_eq_zero_iff.mp (by omega)
      subst hvs'
      have hmem : v ∈ contentRanges r.fields := by rw [hvs]; exact List.mem_singleton_self v
      rw [hvs] at hfirst hlast hsized
      cases hc : contentRange v with
      | none => simp [lastSized, hc] at hsized
      | some c =>
          cases ht : c.total with
          | none => simp [lastSized, hc, ht] at hsized
          | some k =>
              have hk : k = object.length := hr.sized v hmem c hc k ht
              obtain ⟨hf, hl⟩ := lastFirst_singleton hc
              refine ⟨v, List.mem_singleton_self v, c, hc, hfirst.trans hf, hlast.trans hl, ?_⟩
              simpa [lastSized, Option.filter, hc, ht, ContentRange.answers, hk] using hsized.symm

/-- A `206` is replied to once its body has been let in and read, and is as long as it should be. -/
theorem partly_reading {range : ByteRange} {s : Probing β} (h206 : r.code = 206)
    (hended : ProbeEnded r rest p result s) (hreply : Replied range r.code s.state reply) :
    ∃ p' s₁, ProbeReading p' r.body s₁ ∧ s.memory = s₁.memory ∧
      ProbeTrailing rest s₁.state s.state ∧ result = .ok ∧ p.contentRangeAnswers = true ∧
      p'.wanted = add64 (sub64 p.rangeLast p.rangeFirst) 1 ∧ p'.skip = p.skip ∧
      p'.stated = p.stated ∧ p'.total = p.total ∧ p'.rangeFirst = p.rangeFirst ∧
      s₁.state.stored = p'.wanted ∧
      reply = { total := s.state.total, first := s.state.rangeFirst, got := s.state.stored,
                etag := s.state.etag } := by
  have hstart := startBody_cases r.info { p with started := true }
  cases hreply with
  | unsatisfied hcode => omega
  | ignored hcode => omega
  | whole hcode => omega
  | partly _ hexceeded hsame hclear hanswers hstored =>
      cases hended with
      | @refused p' _ _ hno =>
          -- a `206` is refused for a reason that is no reply
          have hpart : startBody r.info { p with started := true } =
              if Detail.transformed p.encoding then ({ p with started := true }, false)
              else if p.contradictsPin then ({ p with started := true, versionChanged := true }, false)
              else ({ p with started := true } : ProbeState).startPartial := by
            simp only [startBody, show r.info.responseCode = 206 from h206, if_true]
            rfl
          rw [hpart] at hno
          split at hno
          · rename_i hbad
            cases hno
            exact absurd (hbad.symm.trans hclear) (by decide)
          · split at hno
            · cases hno
              cases hsame
            · unfold ProbeState.startPartial at hno
              split at hno
              · rename_i hnot
                cases hno
                exact absurd hanswers (by simpa using hnot)
              · cases hno
      | cut _ hcut =>
          rcases hcut with hcut | hcut
          · exact absurd (hexceeded.symm.trans hcut.2) (by decide)
          · exact absurd (h206.symm.trans hcut.1) (by decide)
      | @whole p' p'' s₁ hgo hok hread htrailing =>
          rw [hgo] at hstart
          cases hstart with
          | whole h200 => exact absurd (h206.symm.trans h200) (by decide)
          | partly _ _ _ hasked =>
              have hsettings := hread.settings_eq
              have hprogress := htrailing.progress_eq
              refine ⟨_, s₁, hread, rfl, htrailing, hok, hasked, rfl, rfl, rfl, rfl, rfl, ?_, rfl⟩
              exact (ProbeState.field_of_progress (·.stored) hprogress).symm.trans
                (hstored.trans ((ProbeState.field_of_progress (·.wanted) hprogress).trans
                  (ProbeState.field_of_settings (·.wanted) hsettings)))

theorem partly_exact (hr : r.Steady object) (hp : ProbeOpened object.length r p₀ p)
    (hrest : contentRanges rest = []) (hcomplete : result = .ok → r.Complete object)
    (hpos : 1 ≤ p₀.range.length) {s : Probing β} (h206 : r.code = 206)
    (hended : ProbeEnded r rest p result s) (hreply : Replied p₀.range r.code s.state reply) :
    reply.Exact object p₀.range s.memory := by
  obtain ⟨p', s₁, hread, hmemory, htrailing, hok, hanswers, hwanted, hskip, -, htotal, hfirst',
    hstored, rfl⟩ := partly_reading h206 hended hreply
  have hsettings := hread.settings_eq
  have hsame := htrailing.rangeless hrest
  have hgot : s.state.stored = s₁.state.stored := ProbeState.field_of_unlisted (·.stored) hsame
  obtain ⟨v, hv, c, hc, hfirst, hlast, hexact⟩ := hp.ranged hr h206 hanswers
  obtain ⟨hbegin, hlength, hmin⟩ :=
    answers_exact (contentRange_le hc) (hr.ranged h206 v hv c hc).1 hpos hexact
  rw [hfirst, hlast, hlength] at hwanted
  have hbody : r.body = (object.drop c.first).take (c.last - c.first + 1) :=
    (hcomplete hok).ranged h206 v hv c hc
  refine ⟨?_, fun hno => (by cases hno), fun _ => ?_, fun _ => ?_, fun _ => ?_⟩
  · exact (ProbeState.field_of_unlisted (·.total) hsame).trans
      ((ProbeState.field_of_settings (·.total) hsettings).trans
        (htotal.trans (hp.known.total_eq (hp.known.answered hanswers))))
  · exact (ProbeState.field_of_unlisted (·.rangeFirst) hsame).trans
      ((ProbeState.field_of_settings (·.rangeFirst) hsettings).trans
        (hfirst'.trans (hfirst.trans hbegin)))
  · exact hgot.trans (hstored.trans (hwanted.trans hmin))
  · show s.memory.read () 0 s.state.stored = _
    rw [hgot, hmemory, hread.memory_eq, hskip, hp.headed.skip_eq, hwanted, hbody, List.drop_zero,
      List.take_take, Nat.min_self, hmin, hbegin, List.take_eq_take_iff, List.length_drop]
    omega

/-- Whatever a turn replies to, the reply is exact. -/
theorem replied_exact {r : Trailed β} (hr : r.Steady object)
    (hp : ProbeOpened object.length r.heading p₀ p)
    (hcomplete : result = .ok → r.Complete object) (hpos : 1 ≤ p₀.range.length)
    (hend : TrailedEnd r p m x) (hcode : probeCode result x = .ok)
    (hreply : Replied p₀.range r.code (probeFinal r.heading result x).state reply) :
    reply.Exact object p₀.range x.1.memory := by
  have hrest : contentRanges r.rest = [] := by
    unfold Trailed.rest
    split
    · rfl
    · exact hr.rangeless
  have hall : result = .ok → r.heading.Complete object := fun hok =>
    Trailed.complete_heading hr.rangeless (hcomplete hok)
  have hended : isSuccess r.code = true →
      ProbeEnded r.heading r.rest p result (probeFinal r.heading result x) := fun h =>
    hend.ended hp.headed.waiting hp.headed.stored_eq hp.uncut h hcode
  have hpartly : r.code = 206 → reply.Exact object p₀.range x.1.memory := by
    intro h206
    exact partly_exact (s := probeFinal r.heading result x) hr.heading hp hrest hall hpos h206
      (hended (by rw [h206]; decide)) hreply
  have hwhole : r.code = 200 → reply.Exact object p₀.range x.1.memory := by
    intro h200
    exact whole_exact (s := probeFinal r.heading result x) hr.heading hp hrest hall h200
      (hended (by rw [h200]; decide)) hreply
  cases hreply with
  | unsatisfied h416 hvalid hunsatisfied =>
      have hsame : (probeFinal r.heading result x).state.uncaptured.unlisted =
          p.uncaptured.unlisted := hend.error_state (by omega) hr.rangeless
      have hfield : ∀ {γ : Type} (f : ProbeState → γ), (∀ p, f p.uncaptured.unlisted = f p) →
          f (probeFinal r.heading result x).state = f p := by
        intro γ f hf
        exact (hf _).symm.trans ((congrArg f hsame).trans (hf p))
      have hvalid : p.unsatisfiedContentRangeValid = true :=
        (hfield (·.unsatisfiedContentRangeValid) fun _ => rfl).symm.trans hvalid
      refine unsatisfied_exact ?_ hunsatisfied x.1.memory
      exact (hfield (·.total) fun _ => rfl).trans
        (hp.known.total_eq (hp.known.unsatisfied hvalid))
  | partly h206 => exact hpartly h206
  | ignored h200 => exact hwhole h200
  | whole h200 => exact hwhole h200

end Ended

/-! ## Turns -/

section Turns

variable [Octet β] {object : List β} {curl : Libcurl}

/-- Header lines change nothing of what was asked. -/
theorem feed_probeHeaderCallback_reset (curl : Libcurl) (now : Int) (lines : List Text)
    (p : ProbeState) :
    (feed (probeHeaderCallback curl now) lines p).1.resetResponse = p.resetResponse := by
  refine feed_induct (P := fun p' : ProbeState => p'.resetResponse = p.resetResponse)
    (fun line _ p' hp' => ?_) rfl
  cases hstatus : isStatusLine line with
  | true =>
      have hfirst : (probeHeaderCallback curl now line p').1 =
          { p'.resetResponse with httpStatus := responseStatus line } := by
        simp [probeHeaderCallback, hstatus]
      rw [hfirst]
      exact hp'
  | false =>
      rcases probeHeaderCallback_cases hstatus curl now p' with ⟨-, -, hn⟩ | ⟨-, hblocked⟩
      · exact (ProbeState.field_of_progress (·.resetResponse) hn.progress_eq).trans hp'
      · rw [hblocked]
        exact hp'

/-- Nor does a response. -/
theorem probeResponse_reset (curl : Libcurl) (r : Response β) (s : Probing β) :
    (probeResponse curl r.now r.lines r.info r.chunks s).1.state.resetResponse =
      s.state.resetResponse := by
  have hlines := feed_probeHeaderCallback_reset curl r.now r.lines s.state
  simp only [probeResponse, feed_probeLine]
  split
  · refine feed_induct (P := fun s' : Probing β =>
      s'.state.resetResponse = s.state.resetResponse) (fun data _ s' hs' => ?_) hlines
    exact (probeBodyCallback_reset r.info data s').trans hs'
  · exact hlines

/-- With its trailers. -/
theorem probeTrailed_reset (r : Trailed β) (s : Probing β) :
    (probeTrailed curl r s).1.state.resetResponse = s.state.resetResponse := by
  have hbody := probeResponse_reset curl r.toResponse s
  simp only [probeTrailed]
  split
  · rw [feed_probeLine]
    exact (feed_probeHeaderCallback_reset curl r.now r.trailers _).trans hbody
  · exact hbody

/-- A turn that replies does so on its last response, which the redirect guard let through. -/
theorem judge_replied {q : ProbeRequest β} {turn : ProbeTurn} {p₀ : ProbeState}
    (hrange : turn.range = p₀.range) {m : Memory Unit β}
    {x : (Probing β × Option (Trailed β)) × Bool} (hx : probeAttempt curl q.responses ⟨p₀, m⟩ = x)
    {reply : RangeReply}
    (h : turn.judge ((x.1.2.map (·.info)).getD ⟨0, -1⟩) (if x.2 then q.result else .writeError)
      x.1.1.state = .reply reply) :
    ∃ r ∈ q.responses, ∃ (s : Probing β) (y : Probing β × Bool),
      s.state.resetResponse = p₀.resetResponse ∧
      probeTrailed curl r s = y ∧ x = ((y.1, some r), y.2) ∧
      y.1.state.redirectBlocked = false ∧ probeCode q.result y = .ok ∧
      Replied p₀.range r.code (probeFinal r.heading q.result y).state reply := by
  subst hx
  unfold ProbeTurn.judge at h
  obtain ⟨hopen, hcode, hreply⟩ := ProbeTurn.correct_replied h
  rw [hrange] at hreply
  by_cases hne : q.responses = []
  · -- without a response there is no status to reply to
    rw [hne] at hreply
    cases hreply with
    | unsatisfied hno => cases hno
    | partly hno => cases hno
    | ignored hno => cases hno
    | whole hno => cases hno
  · obtain ⟨r, hr, s, hs, hlast⟩ := feed_ends hne (f := probeStep curl)
      (P := fun x : Probing β × Option (Trailed β) =>
        x.1.state.resetResponse = p₀.resetResponse)
      (fun r _ s hs => (probeTrailed_reset r s.1).trans hs) (s := (⟨p₀, m⟩, none)) rfl
    have hlast : probeAttempt curl q.responses ⟨p₀, m⟩ =
        (((probeTrailed curl r s.1).1, some r), (probeTrailed curl r s.1).2) := hlast
    rw [hlast] at hopen hcode hreply ⊢
    refine ⟨r, hr, s.1, _, hs, rfl, rfl, ?_, hcode, hreply⟩
    generalize probeTrailed curl r s.1 = x at hopen hcode ⊢
    have hkept : (probeFinal r.heading q.result x).state.redirectBlocked =
        x.1.state.redirectBlocked := by
      simp only [probeFinal, startEmpty]
      split
      · exact (startBody_cases r.info { x.1.state with started := true }).blocked
      · rfl
    exact hkept.symm.trans hopen

/-- One turn at a steady server. -/
theorem judge_exact {q : ProbeRequest β} (hq : q.Steady object) {turn : ProbeTurn} {p₀ : ProbeState}
    (hrange : turn.range = p₀.range) (hpos : 1 ≤ p₀.range.length) {m : Memory Unit β}
    {x : (Probing β × Option (Trailed β)) × Bool} (hx : probeAttempt curl q.responses ⟨p₀, m⟩ = x)
    {reply : RangeReply}
    (h : turn.judge ((x.1.2.map (·.info)).getD ⟨0, -1⟩) (if x.2 then q.result else .writeError)
      x.1.1.state = .reply reply) : reply.Exact object p₀.range x.1.1.memory := by
  obtain ⟨r, hr, s, y, hs, hy, rfl, hopen, hcode, hreply⟩ := judge_replied hrange hx h
  rw [← hy] at hopen
  obtain ⟨p, hp, hend⟩ := probeTrailed_steady (hq.steady r hr) curl hs hopen
  rw [hy] at hend
  exact replied_exact (hq.steady r hr) hp (fun hok => hq.complete hok r hr) hpos hend hcode hreply

/-- What `get_range` starts a turn with. -/
def probeStart (options : ClientOptions) (range : ByteRange) (ifMatch : Text) (q : ProbeRequest β) :
    ProbeState where
  range := range
  ifMatch := ifMatch
  fallbackLimit := options.rangeFallbackLimit
  http := q.http
  originalUrl := q.requestUrl

/-- What `get_range` returns of a response is the outcome of one of its turns, and so is a reply. -/
theorem getRange_turn (options : ClientOptions) (backend : Backend) {range : ByteRange}
    (ifMatch : Text) :
    ∀ {qs : List (ProbeRequest β)} {loop : ProbeLoop} {m m' : Memory Unit β}
      {outcome : ProbeOutcome} {last : Option (Trailed β)},
      getRange curl options backend range ifMatch qs loop m = (outcome, last, m') →
      (last ≠ none ∨ ∃ reply, outcome = .reply reply) →
      range.refusal = none ∧ ∃ q ∈ qs, ∃ (turn : ProbeTurn) (m₀ : Memory Unit β)
        (x : (Probing β × Option (Trailed β)) × Bool), turn.range = range ∧
        probeAttempt curl q.responses ⟨probeStart options range ifMatch q, m₀⟩ = x ∧
        turn.judge ((x.1.2.map (·.info)).getD ⟨0, -1⟩) (if x.2 then q.result else .writeError)
          x.1.1.state = outcome ∧ x.1.2 = last ∧ x.1.1.memory = m'
  | [], _, _, _, _, _, h, hjudged => by
      cases h
      rcases hjudged with hno | ⟨_, hno⟩
      · exact absurd rfl hno
      · cases hno
  | q :: qs, loop, m, m', outcome, last, h, hjudged => by
      have hnone : ∀ status detail, (.failed status detail, none, m) ≠ (outcome, last, m') := by
        intro status detail hbad
        cases hbad
        rcases hjudged with hno | ⟨_, hno⟩
        · exact absurd rfl hno
        · cases hno
      simp only [getRange] at h
      split at h
      · exact absurd h (hnone _ _)
      · split at h
        · exact absurd h (hnone _ _)
        · rename_i hmade
          split at h
          · obtain ⟨-, q', hq', hturn⟩ := getRange_turn options backend ifMatch h hjudged
            exact ⟨hmade, q', List.mem_cons_of_mem q hq', hturn⟩
          · obtain ⟨houtcome, hlast, hmemory⟩ := Prod.mk.inj h |>.imp_right Prod.mk.inj
            exact ⟨hmade, q, List.mem_cons_self, _, m, _, rfl, rfl, houtcome, hlast, hmemory⟩

/-- At a server that sends one object and states its size, a reply is exact. -/
theorem getRange_exact (options : ClientOptions) (backend : Backend) {range : ByteRange}
    (ifMatch : Text) (hpos : 1 ≤ range.length) {qs : List (ProbeRequest β)} {loop : ProbeLoop}
    {m m' : Memory Unit β} {reply : RangeReply} {last : Option (Trailed β)}
    (hqs : ∀ q ∈ qs, q.Steady object)
    (h : getRange curl options backend range ifMatch qs loop m = (.reply reply, last, m')) :
    reply.Exact object range m' := by
  obtain ⟨-, q, hq, turn, m₀, x, hrange, hx, hreply, -, rfl⟩ :=
    getRange_turn options backend ifMatch h (Or.inr ⟨reply, rfl⟩)
  have hstart : (probeStart options range ifMatch q).range = range := rfl
  exact judge_exact (hqs q hq) (hrange.trans hstart.symm) hpos hx hreply

end Turns

end Karu
