/-
# `Karu.Runtime.Head` — the header lines of a response, taken together

`header_callback` sees one line at a time.  Over all the lines of a response it
starts the transfer over at what was kept, records the last recognised `ETag`
and the encoding headers, and goes through the `Content-Range` values in turn;
or it blocks a redirect.  `Opened` says what the transfer is when the body
begins, in terms of the lines alone.
-/
import Karu.Runtime.ContentRange
import Karu.Runtime.Body

namespace Karu

open Base

variable {β : Type}

/-! ## The ranges a transfer has seen -/

/-- The fields the `Content-Range` branch of the callback writes. -/
structure Ranges where
  seen : Bool := false
  valid : Bool := false
  fits : Bool := false
  fields : RangeFields := {}
deriving DecidableEq

def Transfer.ranges (t : Transfer) : Ranges where
  seen := t.contentRangeSeen
  valid := t.contentRangeValid
  fits := t.contentRangeMatches
  fields := t.rangeFields

/-- What one more value does to them; `fits` is the test of the range against the request. -/
def Ranges.record (fits : RangeFields → Bool) (ranges : Ranges) (value : Text) : Ranges :=
  let (valid, r) := parseContentRange value ranges.fields
  { seen := true, valid := valid, fits := if valid then fits r else ranges.fits, fields := r }

/-- The test of `valid_content_range`, on the fields of a well-formed value. -/
def Transfer.fitsRange (t : Transfer) (r : RangeFields) : Bool :=
  r.first == add64 t.offset t.resumed && decide (r.last ≤ sub64 (add64 t.offset t.length) 1) &&
    (r.last == sub64 (add64 t.offset t.length) 1 || (r.haveTotal && add64 r.last 1 == r.total))

/-- The same test on the range a value names. -/
def ContentRange.fits (c : ContentRange) (t : Transfer) : Bool :=
  c.first == add64 t.offset t.resumed && decide (c.last ≤ sub64 (add64 t.offset t.length) 1) &&
    (c.last == sub64 (add64 t.offset t.length) 1 || c.total == some (add64 c.last 1))

theorem validContentRange_eq (t : Transfer) :
    validContentRange t = (t.ranges.seen && t.ranges.valid && t.fitsRange t.ranges.fields) := by
  simp only [validContentRange, Transfer.fitsRange, Transfer.ranges, Transfer.rangeFields]
  cases t.contentRangeSeen <;> cases t.contentRangeValid <;>
    simp only [Bool.not_true, Bool.not_false, Bool.true_or, Bool.false_or, Bool.or_true,
      Bool.false_and, Bool.and_false, if_true, Bool.true_and, bne]
  cases hfirst : t.contentRangeStart == add64 t.offset t.resumed with
  | false => simp
  | true =>
      simp only [Bool.not_true, Bool.false_eq_true, if_false, Bool.true_and]
      by_cases hlast : t.contentRangeEnd ≤ sub64 (add64 t.offset t.length) 1
      · rw [if_neg (by omega)]
        simp [hlast]
      · rw [if_pos (by omega)]
        simp [hlast]

theorem fitsRange_fields (t : Transfer) (c : ContentRange) (total : Nat) :
    t.fitsRange (c.fields total) = c.fits t := by
  simp only [Transfer.fitsRange, ContentRange.fields, ContentRange.fits]
  cases c.total with
  | none => rfl
  | some n =>
      simp only [Option.isSome_some, Option.getD_some, Bool.true_and, Option.some.injEq,
        beq_eq_decide]
      congr 3
      exact propext eq_comm

theorem ranges_recordContentRange (value : Text) (t : Transfer) :
    (recordContentRange value t).ranges = t.ranges.record t.fitsRange value := by
  simp only [recordContentRange, Ranges.record]
  have hfields : t.ranges.fields = t.rangeFields := rfl
  rw [hfields]
  cases hp : parseContentRange value t.rangeFields with
  | mk valid r =>
      cases valid with
      | false => rfl
      | true =>
          simp only [if_true]
          rw [validContentRange_eq]
          rfl

/-- Over all values of a response: the numbers are the last ones written, and the test is
that of the last well-formed value. -/
theorem foldl_record (fits : RangeFields → Bool) :
    ∀ (values : List Text) (ranges : Ranges),
      (values.foldl (Ranges.record fits) ranges).fields.first =
          lastFirst values ranges.fields.first ∧
        (values.foldl (Ranges.record fits) ranges).fields.last =
          lastLast values ranges.fields.last ∧
        ∃ total, (values.foldl (Ranges.record fits) ranges).fits =
          ((lastRange values).map fun c => fits (c.fields total)).getD ranges.fits
  | [], ranges => ⟨rfl, rfl, 0, rfl⟩
  | v :: vs, ranges => by
      obtain ⟨hfirst, hlast, total, hfits⟩ := foldl_record fits vs (ranges.record fits v)
      obtain ⟨hf, hl⟩ := parseContentRange_numbers v ranges.fields
      have hverdict := parseContentRange_verdict v ranges.fields
      refine ⟨?_, ?_, ?_⟩
      · rw [List.foldl_cons, hfirst]
        simp only [Ranges.record, hf]
        rfl
      · rw [List.foldl_cons, hlast]
        simp only [Ranges.record, hl]
        rfl
      · rw [List.foldl_cons, hfits]
        cases hc : contentRange v with
        | none =>
            rw [hc] at hverdict
            refine ⟨total, ?_⟩
            simp [lastRange, hc, Ranges.record, hverdict]
        | some c =>
            rw [hc] at hverdict
            cases hrest : (vs.filterMap contentRange).getLast? with
            | none =>
                refine ⟨ranges.fields.total, ?_⟩
                have hnil : vs.filterMap contentRange = [] := List.getLast?_eq_none_iff.mp hrest
                simp [lastRange, hc, hnil, Ranges.record, hverdict]
            | some c' =>
                refine ⟨total, ?_⟩
                simp [lastRange, hc, List.getLast?_cons, hrest]

/-! ## One header line -/

/-- What an accepted line other than a status line does. -/
structure Noted (line : Text) (t t' : Transfer) : Prop where
  progress_eq : t'.progress = t.progress
  blocked_eq : t'.redirectBlocked = t.redirectBlocked
  etag_eq : t'.responseEtag = recordEtag t.responseEtag line
  encoding_eq : t'.encoding = recordEncoding t.encoding line
  ranges_eq : t'.ranges = if headerNameIs line (text "content-range:") then
    t.ranges.record t.fitsRange (headerValue line (text "content-range:")) else t.ranges

theorem recordEtag_other {line name : Text} (hn : headerNameIs line name = true)
    (h : namesApart name (text "etag:") = true) (etag : Text) : recordEtag etag line = etag := by
  simp [recordEtag, headerNameIs_apart hn h]

theorem recordContentRange_fields (value : Text) (t : Transfer) :
    (recordContentRange value t).redirectBlocked = t.redirectBlocked ∧
      (recordContentRange value t).responseEtag = t.responseEtag ∧
      (recordContentRange value t).encoding = t.encoding := by
  simp only [recordContentRange]
  split <;> exact ⟨rfl, rfl, rfl⟩

/-- A line that is no status line is noted, or it is a redirect and blocked. -/
theorem headerCallback_cases {line : Text} (h : isStatusLine line = false) (curl : Libcurl)
    (now : Int) (t : Transfer) :
    (∃ t', headerCallback curl now line t = (t', true) ∧ Noted line t t') ∨
      (blocksRedirect curl line t = true ∧
        headerCallback curl now line t = ({ t with redirectBlocked := true }, false)) := by
  have hprogress := progress_headerCallback h curl now t
  by_cases hb : blocksRedirect curl line t = true
  · exact Or.inr ⟨hb, by simp [headerCallback, h, hb]⟩
  · refine Or.inl ?_
    simp only [headerCallback, h, Bool.false_eq_true, if_false, hb] at hprogress ⊢
    split at hprogress
    · rename_i hn
      rw [if_pos hn]
      obtain ⟨h₁, h₂, h₃⟩ := recordContentRange_fields (headerValue line (text "content-range:")) t
      refine ⟨_, rfl, hprogress, h₁, ?_, ?_, ?_⟩
      · rw [h₂, recordEtag_other hn (by decide)]
      · rw [h₃, recordEncoding_other hn (by decide) (by decide) (by decide)]
      · rw [if_pos hn, ranges_recordContentRange]
    · rename_i hr
      rw [if_neg hr]
      split
      · rename_i hn
        exact ⟨_, rfl, rfl, rfl, (recordEtag_other hn (by decide) _).symm,
          (recordEncoding_other hn (by decide) (by decide) (by decide) _).symm, (if_neg hr).symm⟩
      · split
        · rename_i hn
          exact ⟨_, rfl, rfl, rfl, (recordEtag_other hn (by decide) _).symm,
            (recordEncoding_other hn (by decide) (by decide) (by decide) _).symm,
            (if_neg hr).symm⟩
        · split
          · rename_i hn
            have henc := recordEncoding_other hn (by decide) (by decide) (by decide) t.encoding
            split
            · rename_i hv
              exact ⟨_, rfl, rfl, rfl, by simp [recordEtag, hn, hv], henc.symm, (if_neg hr).symm⟩
            · rename_i hv
              exact ⟨_, rfl, rfl, rfl, by simp [recordEtag, hn, hv], henc.symm, (if_neg hr).symm⟩
          · rename_i hn
            exact ⟨_, rfl, rfl, rfl, by simp [recordEtag, hn], rfl, (if_neg hr).symm⟩

/-! ## All of them -/

/-- The fields of a response, read from `t` on. -/
structure Headed (fields : List Text) (t t' : Transfer) : Prop where
  progress_eq : t'.progress = t.progress
  blocked_eq : t'.redirectBlocked = t.redirectBlocked
  etag_eq : t'.responseEtag = fields.foldl recordEtag t.responseEtag
  encoding_eq : t'.encoding = fields.foldl recordEncoding t.encoding
  ranges_eq : t'.ranges = (contentRanges fields).foldl (Ranges.record t.fitsRange) t.ranges

theorem fitsRange_of_progress {t t' : Transfer} (h : t'.progress = t.progress) :
    t'.fitsRange = t.fitsRange :=
  field_of_progress (·.fitsRange) h

theorem feed_headerCallback (curl : Libcurl) (now : Int) :
    ∀ (fields : List Text) (t : Transfer), (∀ l ∈ fields, isStatusLine l = false) →
      (∃ t', feed (headerCallback curl now) fields t = (t', true) ∧ Headed fields t t') ∨
        (∃ t', feed (headerCallback curl now) fields t = (t', false) ∧
          t'.progress = t.progress ∧ t'.redirectBlocked = true ∧
          isRedirect t.httpStatus = true)
  | [], t, _ => Or.inl ⟨t, rfl, rfl, rfl, rfl, rfl, rfl⟩
  | l :: ls, t, hfields => by
      have hl := hfields l List.mem_cons_self
      rcases headerCallback_cases hl curl now t with ⟨t₁, he, hn⟩ | ⟨hb, he⟩
      · have hcons : feed (headerCallback curl now) (l :: ls) t =
            feed (headerCallback curl now) ls t₁ := by
          rw [feed_cons_true (by rw [he]), he]
        rw [hcons]
        rcases feed_headerCallback curl now ls t₁
          (fun x hx => hfields x (List.mem_cons_of_mem _ hx)) with
          ⟨t₂, he₂, h₂⟩ | ⟨t₂, he₂, hp₂, hb₂, hr₂⟩
        · refine Or.inl ⟨t₂, he₂, h₂.progress_eq.trans hn.progress_eq,
            h₂.blocked_eq.trans hn.blocked_eq, ?_, ?_, ?_⟩
          · rw [h₂.etag_eq, hn.etag_eq, List.foldl_cons]
          · rw [h₂.encoding_eq, hn.encoding_eq, List.foldl_cons]
          · rw [h₂.ranges_eq, hn.ranges_eq, fitsRange_of_progress hn.progress_eq]
            cases hname : headerNameIs l (text "content-range:") with
            | true => simp [contentRanges, hname]
            | false => simp [contentRanges, hname]
        · refine Or.inr ⟨t₂, he₂, hp₂.trans hn.progress_eq, hb₂, ?_⟩
          rwa [field_of_progress (·.httpStatus) hn.progress_eq] at hr₂
      · refine Or.inr ⟨{ t with redirectBlocked := true },
          by rw [feed_cons_false (by rw [he]), he], rfl, rfl, ?_⟩
        simp only [blocksRedirect, Bool.and_eq_true] at hb
        exact hb.1.1.1.2

/-- With `stream` no longer than `received`, header lines move the transfer alone. -/
theorem feed_feedLine (curl : Libcurl) (now : Int) :
    ∀ (fields : List Text) (s : Live β), (∀ l ∈ fields, isStatusLine l = false) →
      s.stream.length ≤ s.transfer.received →
      feed (feedLine curl now) fields s =
        ({ s with transfer := (feed (headerCallback curl now) fields s.transfer).1 },
          (feed (headerCallback curl now) fields s.transfer).2)
  | [], s, _, _ => rfl
  | l :: ls, s, hfields, hs => by
      have hl := hfields l List.mem_cons_self
      have hreceived : (headerCallback curl now l s.transfer).1.received = s.transfer.received :=
        field_of_progress (·.received) (progress_headerCallback hl curl now s.transfer)
      have hline : feedLine curl now l s =
          ({ s with transfer := (headerCallback curl now l s.transfer).1 },
            (headerCallback curl now l s.transfer).2) := by
        simp only [feedLine, Live.update]
        rw [hreceived, List.take_of_length_le hs]
      cases hv : (headerCallback curl now l s.transfer).2 with
      | true =>
          rw [feed_cons_true (by rw [hline]; exact hv), feed_cons_true hv, hline]
          exact feed_feedLine curl now ls _ (fun x hx => hfields x (List.mem_cons_of_mem _ hx))
            (by simpa [hreceived] using hs)
      | false =>
          rw [feed_cons_false (by rw [hline]; exact hv), feed_cons_false hv, hline]

/-! ## The transfer when the body begins -/

/-- The transfer right after the status line of `r`. -/
def begun (r : Response β) (t : Transfer) : Transfer :=
  { resetResponse t with httpStatus := responseStatus r.statusLine }

/-- The state after header lines, accepted or not: back at what was kept. -/
structure Rewound (r : Response β) (s s' : Live β) : Prop where
  progress_eq : s'.transfer.progress = (begun r s.transfer).progress
  memory_eq : s'.memory = s.memory
  stream_eq : s'.stream = s.stream.take s.transfer.resumed

/-- How the header lines of a response end. -/
inductive HeadEnd (r : Response β) (s : Live β) : Live β × Bool → Prop
  | opened {s' : Live β} : Rewound r s s' → Headed r.fields (begun r s.transfer) s'.transfer →
      HeadEnd r s (s', true)
  | blocked {s' : Live β} : Rewound r s s' → s'.transfer.redirectBlocked = true →
      isRedirect (responseStatus r.statusLine) = true → HeadEnd r s (s', false)

theorem feed_headEnd (curl : Libcurl) (r : Response β) (s : Live β) :
    HeadEnd r s (feed (feedLine curl r.now) r.lines s) := by
  have hfirst : feedLine curl r.now r.statusLine s = (s.update (begun r s.transfer), true) := by
    simp only [feedLine, headerCallback_status r.status_first]
    rfl
  have hlen : (s.update (begun r s.transfer)).stream.length ≤
      (s.update (begun r s.transfer)).transfer.received := by
    simp only [Live.update, List.length_take]
    omega
  have hlines : feed (feedLine curl r.now) r.lines s =
      feed (feedLine curl r.now) r.fields (s.update (begun r s.transfer)) := by
    rw [Response.lines, feed_cons_true (by rw [hfirst]), hfirst]
  rw [hlines, feed_feedLine curl r.now r.fields _ r.status_once hlen]
  rcases feed_headerCallback curl r.now r.fields (begun r s.transfer) r.status_once with
    ⟨t', he, hh⟩ | ⟨t', he, hp, hb, hr⟩
  · have he' : feed (headerCallback curl r.now) r.fields
        (s.update (begun r s.transfer)).transfer = (t', true) := he
    rw [he']
    exact .opened ⟨hh.progress_eq, rfl, rfl⟩ hh
  · have he' : feed (headerCallback curl r.now) r.fields
        (s.update (begun r s.transfer)).transfer = (t', false) := he
    rw [he']
    exact .blocked ⟨hp, rfl, rfl⟩ hb hr

section Rewound

variable {r : Response β} {s s' : Live β}

theorem Rewound.core_eq (h : Rewound r s s') : s'.transfer.core = s.transfer.core :=
  (field_of_progress (·.core) h.progress_eq (fun _ => rfl)).trans rfl

theorem Rewound.resumed_eq (h : Rewound r s s') : s'.transfer.resumed = s.transfer.resumed :=
  (field_of_progress (·.resumed) h.progress_eq (fun _ => rfl)).trans rfl

theorem Rewound.received_eq (h : Rewound r s s') : s'.transfer.received = s.transfer.resumed :=
  field_of_progress (·.received) h.progress_eq (fun _ => rfl)

theorem Rewound.unchecked (h : Rewound r s s') : s'.transfer.checkedStatus = false :=
  field_of_progress (·.checkedStatus) h.progress_eq (fun _ => rfl)

theorem Rewound.unsatisfied (h : Rewound r s s') : s'.transfer.satisfied = false :=
  field_of_progress (·.satisfied) h.progress_eq (fun _ => rfl)

theorem Rewound.unchanged (h : Rewound r s s') : s'.transfer.versionChanged = false :=
  field_of_progress (·.versionChanged) h.progress_eq (fun _ => rfl)

theorem Rewound.skip_eq (h : Rewound r s s') : s'.transfer.skip = 0 :=
  field_of_progress (·.skip) h.progress_eq (fun _ => rfl)

theorem Rewound.status_eq (h : Rewound r s s') :
    s'.transfer.httpStatus = responseStatus r.statusLine :=
  field_of_progress (·.httpStatus) h.progress_eq (fun _ => rfl)

theorem Rewound.stored (h : Rewound r s s') (hs : s.Stored) : s'.Stored := by
  have hcursor : s'.transfer.scatterCursor = 0 :=
    field_of_progress (·.scatterCursor) h.progress_eq (fun _ => rfl)
  have hplan := plan_of_core h.core_eq
  have hlength : s'.transfer.length = s.transfer.length := field_of_plan (·.length) hplan
  have hlt := hs.resumed_lt
  refine ⟨hs.toPlaced.shrink h.memory_eq ?_ hplan ?_ ?_ ?_ (Or.inl hcursor), ?_, fun _ => ?_⟩
  · rw [h.received_eq]
    exact h.stream_eq
  · rw [h.resumed_eq, h.received_eq]
  · rw [h.resumed_eq]
    exact hlt
  · rw [h.received_eq]
    exact hs.resumed_le
  · rw [h.unsatisfied, h.received_eq, hlength]
    exact iff_of_false (by decide) (by omega)
  · exact ⟨h.received_eq.trans h.resumed_eq.symm, hcursor, h.skip_eq⟩

end Rewound

end Karu
