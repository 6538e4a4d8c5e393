/-
# `Karu.Runtime.Trailers` — the lines of a response, in front of its body and behind

A chunked body may be followed by trailer lines, and libcurl hands them to the
header callback like any others.  They change what the header lines have left,
but nothing of what the body did (`ProbeTrailing`).

A response without a body is a case of its own: its trailers come before
`start_body` looks at the headers, as if they had been among them
(`Trailed.heading`).  `probeTrailed_ends` lists how a response ends, body and
trailers together.
-/
import Karu.Runtime.ProbeBody

namespace Karu

open Base

variable {β : Type}

/-! ## The size the headers state -/

/-- The size a `Content-Range` value states, with a range or without. -/
def writtenTotal (value : Text) : Option Nat :=
  ((contentRange value).bind (·.total)).or
    (if (parseUnsatisfiedContentRange value 0).1 then
      some (parseUnsatisfiedContentRange value 0).2 else none)

/-- The size stated last. -/
def lastTotal (values : List Text) (total : Option Nat := none) : Option Nat :=
  values.foldl (fun total v => (writtenTotal v).or total) total

/-- A value that states a size is enough. -/
theorem lastTotal_isSome {v : Text} (hv : (writtenTotal v).isSome) :
    ∀ (values : List Text) (total : Option Nat), v ∈ values ∨ total.isSome →
      (lastTotal values total).isSome := by
  intro values
  induction values with
  | nil =>
      intro total h
      exact h.resolve_left List.not_mem_nil
  | cons w values ih =>
      intro total h
      refine ih _ ?_
      rcases h with h | h
      · rcases List.mem_cons.mp h with rfl | h
        · exact Or.inr (by rw [Option.isSome_or, hv, Bool.true_or])
        · exact Or.inl h
      · exact Or.inr (by rw [Option.isSome_or, h, Bool.or_true])

theorem lastTotal_of_lastSized {values : List Text} {c : ContentRange}
    (h : lastSized values = some c) : (lastTotal values).isSome := by
  obtain ⟨v, hv, hc⟩ := List.mem_filterMap.mp (List.mem_of_getLast? h)
  obtain ⟨hc, ht⟩ := Option.filter_eq_some_iff.mp hc
  refine lastTotal_isSome ?_ values none (Or.inl hv)
  rw [writtenTotal, hc, Option.isSome_or, Option.bind_some, ht, Bool.true_or]

/-- The size the state knows. -/
def ProbeState.stated (p : ProbeState) : Option Nat := if p.haveTotal then some p.total else none

theorem ProbeState.stated_recordContentRange (value : Text) (p : ProbeState) :
    (p.recordContentRange value).stated = (writtenTotal value).or p.stated := by
  have hverdict := parseContentRange_verdict value ⟨p.rangeFirst, p.rangeLast, 0, false⟩
  have hother : ∀ (q : ProbeState), q.stated = p.stated →
      (if (parseUnsatisfiedContentRange value 0).1 then
        { q with total := (parseUnsatisfiedContentRange value 0).2, haveTotal := true }
        else q).stated =
      (if (parseUnsatisfiedContentRange value 0).1 then
        some (parseUnsatisfiedContentRange value 0).2 else none).or p.stated := by
    intro q hq
    split
    · rfl
    · rw [Option.none_or]
      exact hq
  simp only [ProbeState.recordContentRange, writtenTotal]
  cases hc : contentRange value with
  | some c =>
      rw [hc] at hverdict
      simp only [hverdict, Bool.true_and]
      cases ht : c.total with
      | some n =>
          simp [ContentRange.fields, ht, ProbeState.stated]
      | none =>
          simp only [ContentRange.fields, ht, Option.isSome_none, Bool.false_eq_true, if_false,
            Option.bind_some, Option.none_or]
          exact hother _ rfl
  | none =>
      rw [hc] at hverdict
      simp only [hverdict, Bool.false_and, Bool.false_eq_true, if_false, Option.bind_none,
        Option.none_or]
      exact hother _ rfl

/-- An accepted line: only a `Content-Range` states a size. -/
theorem probeHeaderCallback_stated {line : Text} (hstatus : isStatusLine line = false)
    (curl : Libcurl) (now : Int) (p : ProbeState) (h : (probeHeaderCallback curl now line p).2 = true) :
    (probeHeaderCallback curl now line p).1.stated = lastTotal (contentRanges [line]) p.stated := by
  have hnone : ∀ {q : ProbeState}, headerNameIs line (text "content-range:") = false →
      q.stated = p.stated → q.stated = lastTotal (contentRanges [line]) p.stated := by
    intro q hother hq
    simp [contentRanges, hother, lastTotal, hq]
  cases hblocks : p.blocksRedirect curl line with
  | true => simp [probeHeaderCallback, hstatus, hblocks] at h
  | false =>
      cases hrange : headerNameIs line (text "content-range:") with
      | true =>
          have hvalue : contentRanges [line] = [headerValue line (text "content-range:")] := by
            simp [contentRanges, hrange]
          simp only [probeHeaderCallback, hstatus, hblocks, hrange, Bool.false_eq_true, if_false,
            if_true, hvalue]
          exact p.stated_recordContentRange _
      | false =>
          refine hnone hrange ?_
          simp only [probeHeaderCallback, hstatus, hblocks, hrange, Bool.false_eq_true, if_false]
          split
          · rfl
          · split
            · rfl
            · split
              · split <;> rfl
              · rfl

/-- All lines behind the status line. -/
theorem feed_stated (curl : Libcurl) (now : Int) :
    ∀ (lines : List Text) (p : ProbeState), (∀ l ∈ lines, isStatusLine l = false) →
      (feed (probeHeaderCallback curl now) lines p).2 = true →
      (feed (probeHeaderCallback curl now) lines p).1.progress = p.progress ∧
        (feed (probeHeaderCallback curl now) lines p).1.stated =
          lastTotal (contentRanges lines) p.stated
  | [], _, _, _ => ⟨rfl, rfl⟩
  | line :: lines, p, hlines, h => by
      have hstatus := hlines line List.mem_cons_self
      cases hgo : (probeHeaderCallback curl now line p).2 with
      | false =>
          rw [feed_cons_false hgo] at h
          cases h
      | true =>
          rw [feed_cons_true hgo] at h ⊢
          obtain ⟨hprogress, hstated⟩ := feed_stated curl now lines _
            (fun l hl => hlines l (List.mem_cons_of_mem line hl)) h
          have hnoted : (probeHeaderCallback curl now line p).1.progress = p.progress := by
            rcases probeHeaderCallback_cases hstatus curl now p with ⟨-, -, hn⟩ | ⟨-, hblocked⟩
            · exact hn.progress_eq
            · rw [hblocked]
              rfl
          refine ⟨hprogress.trans hnoted, ?_⟩
          have hcut : contentRanges (line :: lines) = contentRanges [line] ++ contentRanges lines :=
            contentRanges_append [line] lines
          rw [hstated, probeHeaderCallback_stated hstatus curl now p hgo, hcut, lastTotal, lastTotal,
            lastTotal, List.foldl_append]

/-! ## Lines that are refused -/

theorem latest_lines (r : Response β) : latest r.lines = r.fields := by
  have hfields : ∀ (ls acc : List Text), (∀ l ∈ ls, isStatusLine l = false) →
      ls.foldl (fun fields line => if isStatusLine line then [] else fields ++ [line]) acc =
        acc ++ ls := by
    intro ls
    induction ls with
    | nil => simp
    | cons l ls ih =>
        intro acc hls
        rw [List.foldl_cons, hls l List.mem_cons_self]
        simp only [Bool.false_eq_true, if_false]
        rw [ih _ fun l hl => hls l (List.mem_cons_of_mem _ hl)]
        simp
  simp only [latest, Response.lines, List.foldl_cons, r.status_first, if_true]
  rw [hfields r.fields [] r.status_once, List.nil_append]

/-- Lines that are refused are refused by the guard. -/
theorem probeLines_blocked (curl : Libcurl) (now : Int) {lines : List Text} {p : ProbeState}
    (h : (feed (probeHeaderCallback curl now) lines p).2 = false) :
    (feed (probeHeaderCallback curl now) lines p).1.redirectBlocked = true := by
  refine feed_refused (P := fun p => p.redirectBlocked = true) (fun line p hline => ?_) h
  cases hstatus : isStatusLine line with
  | true => simp [probeHeaderCallback, hstatus] at hline
  | false =>
      rcases probeHeaderCallback_cases hstatus curl now p with ⟨-, hgo, -⟩ | ⟨-, hblocked⟩
      · rw [hgo] at hline
        cases hline
      · rw [hblocked]

/-! ## Behind the body -/

/-- The state without what lines other than a `Content-Range` write. -/
def ProbeState.unlisted (p : ProbeState) : ProbeState :=
  { p with
    redirectBlocked := false, retryAfter := 0, responseRegion := [], etag := [], encoding := {} }

theorem ProbeState.field_of_unlisted {γ : Type} (f : ProbeState → γ) {p p' : ProbeState}
    (h : p'.unlisted = p.unlisted)
    (hf : ∀ p : ProbeState, f p.unlisted = f p := by intro; rfl) : f p' = f p :=
  (hf p').symm.trans ((congrArg f h).trans (hf p))

/-- What accepted lines do to a state, whenever they come. -/
structure ProbeTrailing (lines : List Text) (p p' : ProbeState) : Prop where
  progress_eq : p'.progress = p.progress
  etag_eq : p'.etag = lines.foldl recordEtag p.etag
  encoding_eq : p'.encoding = lines.foldl recordEncoding p.encoding
  stated_eq : p'.stated = lastTotal (contentRanges lines) p.stated
  rangeless : contentRanges lines = [] → p'.unlisted = p.unlisted

theorem ProbeTrailing.refl (p : ProbeState) : ProbeTrailing [] p p :=
  ⟨rfl, rfl, rfl, rfl, fun _ => rfl⟩

/-- A line that is no `Content-Range` leaves all that those write. -/
theorem probeHeaderCallback_unlisted {line : Text} (hstatus : isStatusLine line = false)
    (curl : Libcurl) (now : Int) (p : ProbeState) (hnone : contentRanges [line] = []) :
    (probeHeaderCallback curl now line p).1.unlisted = p.unlisted := by
  have hrange : headerNameIs line (text "content-range:") = false := by
    by_contra hyes
    simp [contentRanges, hyes] at hnone
  simp only [probeHeaderCallback, hstatus, hrange, Bool.false_eq_true, if_false]
  split
  · rfl
  · split
    · rfl
    · split
      · rfl
      · split
        · split
          · rfl
          · rfl
        · rfl

theorem feed_probeTrailing (curl : Libcurl) (now : Int) : ∀ (lines : List Text) (p : ProbeState),
    (∀ l ∈ lines, isStatusLine l = false) →
    (feed (probeHeaderCallback curl now) lines p).2 = true →
    ProbeTrailing lines p (feed (probeHeaderCallback curl now) lines p).1 := by
  intro lines
  induction lines with
  | nil => exact fun p _ _ => .refl p
  | cons line lines ih =>
      intro p hlines h
      have hstated := (feed_stated curl now (line :: lines) p hlines h).2
      have hstatus := hlines line List.mem_cons_self
      cases hgo : (probeHeaderCallback curl now line p).2 with
      | false =>
          rw [feed_cons_false hgo] at h
          cases h
      | true =>
          rw [feed_cons_true hgo] at h hstated ⊢
          have hrest := ih _ (fun l hl => hlines l (List.mem_cons_of_mem line hl)) h
          rcases probeHeaderCallback_cases hstatus curl now p with ⟨-, -, hn⟩ | ⟨-, hblocked⟩
          · refine ⟨hrest.progress_eq.trans hn.progress_eq, ?_, ?_, hstated, fun hnone => ?_⟩
            · rw [hrest.etag_eq, hn.etag_eq, List.foldl_cons]
            · rw [hrest.encoding_eq, hn.encoding_eq, List.foldl_cons]
            · have hcut : contentRanges (line :: lines) =
                  contentRanges [line] ++ contentRanges lines := contentRanges_append [line] lines
              rw [hcut, List.append_eq_nil_iff] at hnone
              exact (hrest.rangeless hnone.2).trans
                (probeHeaderCallback_unlisted hstatus curl now p hnone.1)
          · rw [hblocked] at hgo
            cases hgo

/-- Whether lines that come at any time are accepted is up to the guard. -/
theorem feed_guardStops (curl : Libcurl) (now : Int) : ∀ (lines : List Text) (p : ProbeState),
    (∀ l ∈ lines, isStatusLine l = false) →
    (feed (probeHeaderCallback curl now) lines p).2 =
      !guardStops curl p.http p.originalUrl p.httpStatus lines := by
  intro lines
  induction lines with
  | nil => exact fun _ _ => rfl
  | cons line lines ih =>
      intro p hlines
      have hstatus := hlines line List.mem_cons_self
      have hstops : stopsAt curl p.http p.originalUrl p.httpStatus line =
          p.blocksRedirect curl line := rfl
      rw [guardStops, hstatus, if_neg Bool.false_ne_true, hstops]
      rcases probeHeaderCallback_cases hstatus curl now p with ⟨hpass, hgo, hn⟩ | ⟨hstop, hblocked⟩
      · have hhttp : (probeHeaderCallback curl now line p).1.http = p.http :=
          ProbeState.field_of_progress (·.http) hn.progress_eq
        have hurl : (probeHeaderCallback curl now line p).1.originalUrl = p.originalUrl :=
          ProbeState.field_of_progress (·.originalUrl) hn.progress_eq
        have hcode : (probeHeaderCallback curl now line p).1.httpStatus = p.httpStatus :=
          ProbeState.field_of_progress (·.httpStatus) hn.progress_eq
        rw [feed_cons_true hgo, ih _ fun l hl => hlines l (List.mem_cons_of_mem line hl), hpass, hhttp,
          hurl, hcode, Bool.false_or]
      · rw [feed_cons_false (by rw [hblocked]), hstop]
        rfl

theorem guardStops_append (curl : Libcurl) (http : HttpRequestOptions) (url : Text) (status : Int) :
    ∀ (lines lines' : List Text), (∀ l ∈ lines, isStatusLine l = false) →
    guardStops curl http url status (lines ++ lines') =
      (guardStops curl http url status lines || guardStops curl http url status lines') := by
  intro lines lines' hlines
  induction lines with
  | nil => rfl
  | cons line lines ih =>
      have hstatus := hlines line List.mem_cons_self
      rw [List.cons_append, guardStops, guardStops, hstatus, if_neg Bool.false_ne_true,
        if_neg Bool.false_ne_true, ih fun l hl => hlines l (List.mem_cons_of_mem line hl),
        Bool.or_assoc]

/-! ## Responses with trailers -/

/-- All the header lines of a response. -/
def Trailed.allLines (r : Trailed β) : List Text := r.lines ++ r.trailers

/-- The guard lets all of them pass. -/
theorem Trailed.passes {r : Trailed β} {curl : Libcurl} {http : HttpRequestOptions} {url : Text}
    (h : guardStops curl http url 0 r.allLines = false) :
    guardStops curl http url 0 r.lines = false ∧
      guardStops curl http url (responseStatus r.statusLine) r.trailers = false := by
  rw [Trailed.allLines, Response.lines, List.cons_append, guardStops, if_pos r.status_first,
    guardStops_append _ _ _ _ _ _ r.status_once, Bool.or_eq_false_iff] at h
  rw [Response.lines, guardStops, if_pos r.status_first]
  exact h

/-- The header lines that a response has when its body is let in. -/
def Trailed.headingFields (r : Trailed β) : List Text :=
  if r.chunks.isEmpty then r.fields ++ r.trailers else r.fields

theorem Trailed.headingFields_once (r : Trailed β) :
    ∀ l ∈ r.headingFields, isStatusLine l = false := by
  intro l hl
  unfold Trailed.headingFields at hl
  split at hl
  · rcases List.mem_append.mp hl with hl | hl
    · exact r.status_once l hl
    · exact r.trailers_once l hl
  · exact r.status_once l hl

/-- The response as its body finds it: where there is none, the trailers come before
`start_body`. -/
def Trailed.heading (r : Trailed β) : Response β :=
  { r.toResponse with fields := r.headingFields, status_once := r.headingFields_once }

theorem Trailed.heading_empty {r : Trailed β} (h : r.chunks = []) :
    r.heading.fields = r.fields ++ r.trailers := by
  show r.headingFields = _
  rw [Trailed.headingFields, h, List.isEmpty_nil, if_pos rfl]

theorem Trailed.heading_body {r : Trailed β} (h : r.chunks ≠ []) : r.heading = r.toResponse := by
  have hfields : r.headingFields = r.fields := if_neg (by simpa using h)
  unfold Trailed.heading
  simp only [hfields]

/-- How a response ends, `p` being the state its body finds: as its body does, or behind it with
its trailers. -/
inductive TrailedEnd (r : Trailed β) (p : ProbeState) (m : Memory Unit β) :
    Probing β × Bool → Prop
  | body {x : Probing β × Bool} : ProbeEnd r.heading p m x → r.chunks = [] ∨ x.2 = false →
      TrailedEnd r p m x
  | behind {s : Probing β} {p' : ProbeState} : r.chunks ≠ [] → ProbeEnd r.heading p m (s, true) →
      ProbeTrailing r.trailers s.state p' → TrailedEnd r p m (⟨p', s.memory⟩, true)

/-- A response that the redirect guard lets pass. -/
theorem probeTrailed_ends [Octet β] (r : Trailed β) (curl : Libcurl) {s : Probing β}
    (hopen : (probeTrailed curl r s).1.state.redirectBlocked = false)
    (hwait : ∀ p, feed (probeHeaderCallback curl r.now) r.heading.lines s.state = (p, true) →
      p.started = false ∧ p.stored = 0) :
    ∃ p, feed (probeHeaderCallback curl r.now) r.heading.lines s.state = (p, true) ∧
      TrailedEnd r p s.memory (probeTrailed curl r s) := by
  simp only [probeTrailed, probeResponse, feed_probeLine] at hopen ⊢
  have hlisted := @probeLines_blocked curl r.now r.lines s.state
  generalize hlines : feed (probeHeaderCallback curl r.now) r.lines s.state = x
    at hlisted hopen ⊢
  obtain ⟨p, accepted⟩ := x
  cases accepted with
  | false =>
      have hopen : p.redirectBlocked = false := hopen
      exact absurd (hopen.symm.trans (hlisted rfl)) (by decide)
  | true =>
      simp only [if_true] at hopen ⊢
      by_cases hchunks : r.chunks = []
      · -- nothing comes between the header lines and the trailers
        have hall : feed (probeHeaderCallback curl r.now) r.heading.lines s.state =
            feed (probeHeaderCallback curl r.now) r.trailers p := by
          have hcut : r.heading.lines = r.lines ++ r.trailers := by
            rw [Response.lines, Trailed.heading_empty hchunks]
            rfl
          rw [hcut, feed_append, hlines]
          rfl
        have hstop := @probeLines_blocked curl r.now r.trailers p
        rw [hchunks, feed_nil] at hopen ⊢
        simp only [if_true] at hopen ⊢
        generalize feed (probeHeaderCallback curl r.now) r.trailers p = y at hall hstop hopen ⊢
        obtain ⟨p', accepted⟩ := y
        cases accepted with
        | false =>
            have hopen : p'.redirectBlocked = false := hopen
            exact absurd (hopen.symm.trans (hstop rfl)) (by decide)
        | true => exact ⟨p', hall, .body (.empty hchunks) (Or.inl hchunks)⟩
      · have hheading := Trailed.heading_body hchunks
        have hlines' : feed (probeHeaderCallback curl r.now) r.heading.lines s.state = (p, true) := by
          rw [hheading]
          exact hlines
        obtain ⟨hidle, hzero⟩ := hwait p hlines'
        have hend := feed_probeEnd r.toResponse hidle hzero s.memory
        refine ⟨p, hlines', ?_⟩
        generalize feed (probeBodyCallback r.info) r.chunks ⟨p, s.memory⟩ = x at hend hopen ⊢
        rw [← hheading] at hend
        obtain ⟨s', accepted⟩ := x
        cases accepted with
        | false => exact .body hend (Or.inr rfl)
        | true =>
            simp only [if_true] at hopen ⊢
            have htrailing := feed_probeTrailing curl r.now r.trailers s'.state r.trailers_once
            have hstop := @probeLines_blocked curl r.now r.trailers s'.state
            generalize feed (probeHeaderCallback curl r.now) r.trailers s'.state = y
              at hopen htrailing hstop ⊢
            obtain ⟨p', accepted⟩ := y
            cases accepted with
            | false =>
                have hopen : p'.redirectBlocked = false := hopen
                exact absurd (hopen.symm.trans (hstop rfl)) (by decide)
            | true => exact .behind hchunks hend (htrailing rfl)

end Karu
