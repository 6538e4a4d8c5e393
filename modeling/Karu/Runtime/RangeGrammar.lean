/-
# `Karu.Runtime.RangeGrammar` — which `Content-Range` headers are taken

| source                | here                                          |
|-----------------------|-----------------------------------------------|
| `parse_content_range` | accepts the values that `Spells` describes    |
| `valid_content_range` | accepts those that go on where a transfer was |
| `answers`             | accepts those that `Covers` describes         |

The grammar is stated over the text of the header, and the two tests over
natural numbers.  Both compute with words.  For `valid_content_range` the
planner has made sure that nothing wraps; for `answers`, which would get a
range wrong whose end is no word (`discerned_iff`), the request builder has: it
refuses such a range before anything is sent.
-/
import Karu.Runtime.Integrity
import Karu.Runtime.ProbeBounds

namespace Karu

open Base

/-! ## The grammar -/

/-- A number as the header writes it: decimal digits, and at least one. -/
structure Decimals (s : Text) (n : Nat) : Prop where
  ne_nil : s ≠ []
  digits : ∀ c ∈ s, isDigit c = true
  value_eq : digitsValue s = n
  lt : n < 2 ^ 64

/-- The size of the object, or a star where it is not known. -/
inductive TotalText : Text → Option Nat → Prop
  | unknown : TotalText (text "*") none
  | known {s : Text} {n : Nat} : Decimals s n → TotalText s (some n)

/-- The value is `bytes F-L/T` or `bytes F-L/*`, and these are its numbers. -/
structure Spells (value : Text) (c : ContentRange) : Prop where
  spelled : ∃ f l t, value = text "bytes " ++ (f ++ 45 :: (l ++ 47 :: t)) ∧
    Decimals f c.first ∧ Decimals l c.last ∧ TotalText t c.total
  ordered : c.first ≤ c.last
  inside : ∀ total ∈ c.total, c.last < total

theorem wholeNumber_iff (s : Text) (n : Nat) : wholeNumber s = some n ↔ Decimals s n := by
  constructor
  · intro h
    unfold wholeNumber at h
    split at h
    · rename_i v hread
      cases h
      have hlt := fromChars_lt hread
      simp only [fromChars] at hread
      split at hread
      · cases hread
      · split at hread
        · rename_i hne _
          obtain ⟨hvalue, hrest⟩ := Prod.mk.injEq .. ▸ Option.some.inj hread
          have hall : s.takeWhile isDigit = s := by
            rw [← List.takeWhile_append_dropWhile (p := isDigit) (l := s), hrest, List.append_nil,
              List.takeWhile_takeWhile]
            simp
          rw [hall] at hvalue hne
          refine ⟨by simpa using hne, ?_, hvalue, hlt⟩
          exact List.takeWhile_eq_self_iff.mp hall
        · cases hread
    · cases h
  · rintro ⟨hne, hdigits, rfl, hlt⟩
    have hread := @fromChars_append s [] hne hdigits (by simp) hlt
    rw [List.append_nil] at hread
    simp only [wholeNumber, hread]

theorem Decimals.not_mem {s : Text} {n : Nat} (h : Decimals s n) {c : UInt8}
    (hc : isDigit c = false) : c ∉ s := by
  intro hmem
  rw [h.digits c hmem] at hc
  cases hc

theorem drop_bytes (rest : Text) : (text "bytes " ++ rest).drop 6 = rest := by
  have hlen : (text "bytes ").length = 6 := by decide
  rw [← hlen, List.drop_left]

/-- Where the value is cut: at its first dash and its first slash. -/
theorem splitContentRange_spelled {f l t : Text} (hf : f ≠ []) (hdash : (45 : UInt8) ∉ f)
    (hslash : (47 : UInt8) ∉ f) (hl : (47 : UInt8) ∉ l) :
    splitContentRange (text "bytes " ++ (f ++ 45 :: (l ++ 47 :: t))) = some (f, l, t) := by
  have hhead : (text "bytes ").isPrefixOf (text "bytes " ++ (f ++ 45 :: (l ++ 47 :: t))) = true :=
    List.isPrefixOf_iff_prefix.mpr (List.prefix_append _ _)
  have hjoin : f ++ 45 :: (l ++ 47 :: t) = (f ++ 45 :: l) ++ 47 :: t := by simp
  have hbefore : (47 : UInt8) ∉ f ++ 45 :: l := by
    simp only [List.mem_append, List.mem_cons, not_or]
    exact ⟨hslash, by decide, hl⟩
  have hcut : find 47 (f ++ 45 :: (l ++ 47 :: t)) = some (f.length + (l.length + 1)) := by
    rw [hjoin, find_append t hbefore, List.length_append, List.length_cons]
  have hpos : 0 < f.length := List.length_pos_of_ne_nil hf
  have hguard : ¬ (f.length = 0 ∨ f.length + (l.length + 1) < f.length) := by omega
  simp only [splitContentRange, hhead, Bool.not_true, Bool.false_eq_true, if_false, drop_bytes,
    find_append _ hdash, hcut, if_neg hguard, take_before, drop_behind]
  have hlast : f.length + (l.length + 1) - f.length - 1 = l.length := by omega
  have hrest : (f ++ 45 :: (l ++ 47 :: t)).drop (f.length + (l.length + 1) + 1) = t := by
    rw [hjoin]
    have hlen : f.length + (l.length + 1) + 1 = (f ++ 45 :: l).length + 1 := by simp
    rw [hlen, drop_behind]
  rw [hlast, hrest, take_before]

/-- A text is what stands before, between and behind two of its characters. -/
theorem cut_twice {s : Text} {dash slash : Nat} (hdash : find 45 s = some dash)
    (hslash : find 47 s = some slash) (hle : dash ≤ slash) :
    s = s.take dash ++ 45 :: ((s.drop (dash + 1)).take (slash - dash - 1) ++
      47 :: s.drop (slash + 1)) := by
  obtain ⟨hd, -⟩ := find_split hdash
  have hat : s.drop dash = 45 :: s.drop (dash + 1) := find_drop hdash
  have hto : s.drop slash = 47 :: s.drop (slash + 1) := find_drop hslash
  have hne : dash ≠ slash := by
    rintro rfl
    rw [hat] at hto
    exact absurd (List.cons.inj hto).1 (by decide)
  have hrest : (s.drop (dash + 1)).drop (slash - dash - 1) = 47 :: s.drop (slash + 1) := by
    rw [List.drop_drop, ← hto]
    congr 1
    omega
  rw [← hrest, List.take_append_drop]
  exact hd

/-- What is cut is all of the value. -/
theorem splitContentRange_text {value f l t : Text}
    (h : splitContentRange value = some (f, l, t)) :
    value = text "bytes " ++ (f ++ 45 :: (l ++ 47 :: t)) := by
  simp only [splitContentRange] at h
  split at h
  · cases h
  · rename_i hhead
    rw [Bool.not_eq_true, Bool.not_eq_false', List.isPrefixOf_iff_prefix] at hhead
    obtain ⟨rest, rfl⟩ := hhead
    rw [drop_bytes] at h
    split at h
    · rename_i dash slash hdash hslash
      split at h
      · cases h
      · rename_i hguard
        cases h
        congr 1
        exact cut_twice hdash hslash (by omega)
    · cases h

theorem not_decimals_star {n : Nat} : ¬ Decimals (text "*") n := by
  intro h
  exact absurd (h.digits 42 (by decide)) (by decide)

/-- The values taken are those the grammar describes. -/
theorem contentRange_iff (value : Text) (c : ContentRange) :
    contentRange value = some c ↔ Spells value c := by
  constructor
  · intro h
    have hle := contentRange_le h
    simp only [contentRange] at h
    split at h
    · cases h
    · rename_i f l t hsplit
      have hvalue := splitContentRange_text hsplit
      split at h
      · rename_i first last hf hl
        rw [wholeNumber_iff] at hf hl
        split at h
        · cases h
        · split at h
          · rename_i hstar
            cases h
            exact ⟨⟨f, l, t, hvalue, hf, hl, hstar ▸ .unknown⟩, hle, by simp⟩
          · split at h
            · rename_i total htotal
              rw [wholeNumber_iff] at htotal
              obtain ⟨hlt, ⟨⟩⟩ := Option.ite_none_right_eq_some.mp h
              exact ⟨⟨f, l, t, hvalue, hf, hl, .known htotal⟩, hle, by simpa using hlt⟩
            · cases h
      · cases h
  · rintro ⟨⟨f, l, t, rfl, hf, hl, ht⟩, hordered, hinside⟩
    have hsplit := @splitContentRange_spelled f l t hf.ne_nil (hf.not_mem (by decide))
      (hf.not_mem (by decide)) (hl.not_mem (by decide))
    obtain ⟨first, last, total⟩ := c
    simp only [contentRange, hsplit, (wholeNumber_iff _ _).mpr hf, (wholeNumber_iff _ _).mpr hl]
    rw [if_neg (Nat.not_lt.mpr hordered)]
    cases ht with
    | unknown => rw [if_pos rfl]
    | known ht =>
        rename_i n
        have hstar : t ≠ text "*" := by
          rintro rfl
          exact not_decimals_star ht
        rw [if_neg hstar, (wholeNumber_iff _ _).mpr ht]
        exact if_pos (hinside n rfl)

/-- The verdict of `parse_content_range`, and what it yields with it. -/
theorem parseContentRange_iff (value : Text) (r : RangeFields) :
    ((parseContentRange value r).1 = true ↔ ∃ c, Spells value c) ∧
      ∀ c, Spells value c → (parseContentRange value r).2 = c.fields r.total := by
  have hverdict := parseContentRange_verdict value r
  constructor
  · constructor
    · intro h
      cases hc : contentRange value with
      | none =>
          rw [hc] at hverdict
          rw [h] at hverdict
          cases hverdict
      | some c => exact ⟨c, (contentRange_iff value c).mp hc⟩
    · rintro ⟨c, hc⟩
      rw [(contentRange_iff value c).mpr hc] at hverdict
      rw [hverdict]
  · intro c hc
    rw [(contentRange_iff value c).mpr hc] at hverdict
    rw [hverdict]

/-! ## Going on with a transfer -/

/-- The range goes on where the transfer was, and stops where the transfer or the object does. -/
structure Continues (t : Transfer) (c : ContentRange) : Prop where
  first_eq : c.first = t.offset + t.resumed
  last_lt : c.last < t.offset + t.length
  stops : c.last + 1 = t.offset + t.length ∨ c.total = some (c.last + 1)

theorem fits_iff {t : Transfer} (hl : t.Layout) (hr : t.resumed < t.length) (c : ContentRange) :
    c.fits t = true ↔ Continues t c := by
  constructor
  · intro h
    obtain ⟨hfirst, hlast, hstops⟩ := ContentRange.fits_spec hl hr h
    exact ⟨hfirst, hlast, hstops⟩
  · rintro ⟨hfirst, hlast, hstops⟩
    have hstop := hl.stop_le
    have hadd : add64 t.offset t.resumed = t.offset + t.resumed := add64_of_lt (by omega)
    have hend : sub64 (add64 t.offset t.length) 1 = t.offset + t.length - 1 := by
      unfold sub64 add64
      omega
    simp only [ContentRange.fits, Bool.and_eq_true, Bool.or_eq_true, beq_iff_eq,
      decide_eq_true_eq, hadd, hend]
    refine ⟨⟨hfirst, by omega⟩, ?_⟩
    by_cases hfull : c.last + 1 = t.offset + t.length
    · exact Or.inl (by omega)
    · have hnext : add64 c.last 1 = c.last + 1 := add64_of_lt (by omega)
      rw [hnext]
      exact Or.inr (hstops.resolve_left hfull)

/-- `valid_content_range`, right after a header was recorded. -/
theorem validContentRange_iff {t : Transfer} (hl : t.Layout) (hr : t.resumed < t.length)
    (value : Text) :
    validContentRange (recordContentRange value t) = true ↔ ∃ c, Spells value c ∧ Continues t c := by
  have hkept : (recordContentRange value t).fitsRange = t.fitsRange := by
    unfold recordContentRange
    dsimp only
    split <;> rfl
  obtain ⟨hiff, hfields⟩ := parseContentRange_iff value t.rangeFields
  have hvalid : validContentRange (recordContentRange value t) =
      ((parseContentRange value t.rangeFields).1 &&
        t.fitsRange (parseContentRange value t.rangeFields).2) := by
    rw [validContentRange_eq, ranges_recordContentRange, hkept]
    rfl
  rw [hvalid, Bool.and_eq_true, hiff]
  constructor
  · rintro ⟨⟨c, hc⟩, hfits⟩
    rw [hfields c hc, fitsRange_fields, fits_iff hl hr] at hfits
    exact ⟨c, hc, hfits⟩
  · rintro ⟨c, hc, hfits⟩
    rw [hfields c hc, fitsRange_fields, fits_iff hl hr]
    exact ⟨⟨c, hc⟩, hfits⟩

/-! ## Answering a probe -/

/-- The range is what was asked for, as far as the object goes: from a position on, or the last
bytes of the object. -/
def Covers (range : ByteRange) (first last total : Nat) : Prop :=
  if range.suffix then last + 1 = total ∧ first + min range.length total = total
  else first = range.first ∧ last + 1 = min (range.first + range.length) total

/-- `answers` tells the headers that cover the range from those that do not. -/
def Discerned (range : ByteRange) : Prop :=
  ∀ first last total, first ≤ last → last < total → total < 2 ^ 64 →
    (answers range first last total = true ↔ Covers range first last total)

/-- The end of the range, `range.first + range.length - 1`, is a word; or there is no header that
begins where the range does. -/
def Measured (range : ByteRange) : Prop :=
  range.suffix = true ∨ ¬ (range.first = 0 ∧ range.length = 0) ∧
    (range.first + range.length ≤ 2 ^ 64 ∨ range.first = maxWord)

theorem answers_suffix {range : ByteRange} (hs : range.suffix = true) : Discerned range := by
  intro first last total hle hlast htotal
  have hnext : add64 last 1 = last + 1 := add64_of_lt (by omega)
  have hspan : add64 (sub64 last first) 1 = last - first + 1 := by
    rw [sub64_of_le hle (by omega), add64_of_lt (by omega)]
  simp only [answers, Covers, hs, if_true, hnext, hspan, Bool.and_eq_true, beq_iff_eq]
  omega

theorem answers_measured {range : ByteRange} (hs : range.suffix = false)
    (hpos : ¬ (range.first = 0 ∧ range.length = 0))
    (hends : range.first + range.length ≤ 2 ^ 64) : Discerned range := by
  intro first last total hle hlast htotal
  have hnext : add64 last 1 = last + 1 := add64_of_lt (by omega)
  have hend : sub64 (add64 range.first range.length) 1 = range.first + range.length - 1 := by
    unfold sub64 add64
    omega
  simp only [answers, Covers, hs, Bool.false_eq_true, if_false, hnext, hend, Bool.and_eq_true,
    Bool.or_eq_true, beq_iff_eq, decide_eq_true_eq]
  omega

/-- No header begins with the last word. -/
theorem answers_maxWord {range : ByteRange} (hs : range.suffix = false)
    (hfirst : range.first = maxWord) : Discerned range := by
  intro first last total hle hlast htotal
  rw [maxWord_eq] at hfirst
  have hne : first ≠ range.first := by omega
  simp only [answers, Covers, hs, Bool.false_eq_true, if_false, Bool.and_eq_true, beq_iff_eq]
  exact ⟨fun h => absurd h.1.1 hne, fun h => absurd h.1 hne⟩

/-- A range that wraps is answered by the bytes up to the end of the largest object, and
`answers` says no. -/
theorem not_discerned_wrapped {range : ByteRange} (hs : range.suffix = false)
    (hover : 2 ^ 64 < range.first + range.length) (hfirst : range.first ≠ maxWord) :
    ¬ Discerned range := by
  intro h
  have hlt := range.first_lt
  have hlength := range.length_lt
  rw [maxWord_eq] at hfirst
  have hcovers := (h range.first (2 ^ 64 - 2) (2 ^ 64 - 1) (by omega) (by omega) (by omega)).mpr
  simp only [Covers, answers, hs, Bool.false_eq_true, if_false, Bool.and_eq_true, beq_iff_eq,
    decide_eq_true_eq, true_and] at hcovers
  have hend := (hcovers (by omega)).1
  unfold sub64 add64 at hend
  omega

/-- A range of no bytes is answered by none, and `answers` takes the whole of any object. -/
theorem not_discerned_empty {range : ByteRange} (hs : range.suffix = false)
    (hfirst : range.first = 0) (hlength : range.length = 0) : ¬ Discerned range := by
  intro h
  have hcovers := (h 0 0 1 (by decide) (by decide) (by decide)).mp
  simp only [Covers, answers, hs, hfirst, hlength, Bool.false_eq_true, if_false] at hcovers
  exact absurd (hcovers (by decide)).2 (by decide)

theorem discerned_iff (range : ByteRange) : Discerned range ↔ Measured range := by
  cases hs : range.suffix with
  | true => exact ⟨fun _ => Or.inl hs, fun _ => answers_suffix hs⟩
  | false =>
      constructor
      · intro h
        refine Or.inr ⟨fun hempty => not_discerned_empty hs hempty.1 hempty.2 h, ?_⟩
        by_contra hover
        rw [not_or] at hover
        exact not_discerned_wrapped hs (Nat.lt_of_not_le hover.1) hover.2 h
      · rintro (hsuffix | ⟨hpos, hends | hfirst⟩)
        · rw [hs] at hsuffix
          cases hsuffix
        · exact answers_measured hs hpos hends
        · exact answers_maxWord hs hfirst

/-- What the request builder makes a request of. -/
theorem Measured.of_made {range : ByteRange} (h : range.refusal = none) : Measured range := by
  obtain ⟨hpos, hends⟩ := (ByteRange.refusal_none range).mp h
  cases hs : range.suffix with
  | true => exact Or.inl hs
  | false => exact Or.inr ⟨fun hempty => by omega, Or.inl (hends hs)⟩

/-- No other range gets as far as a header. -/
theorem getRange_refused {β : Type} [Octet β] (curl : Libcurl) (options : ClientOptions)
    (backend : Backend) {range : ByteRange} {detail : Text} (h : range.refusal = some detail)
    (ifMatch : Text) (q : ProbeRequest β) (qs : List (ProbeRequest β)) {loop : ProbeLoop}
    (hleft : loop.attempt < options.maxAttempts) (m : Memory Unit β) :
    getRange curl options backend range ifMatch (q :: qs) loop m =
      (.failed .errRange detail, none, m) := by
  have hmore : ¬ options.maxAttempts ≤ loop.attempt := by omega
  simp only [getRange, if_neg hmore, h]

/-- The headers that are taken.  The grammar decides what is well formed; a transfer goes on with
the ranges that begin where it was and stop where it or the object does; and a probe takes those
that cover what it asked for, or has asked for nothing. -/
theorem contentRange_validity {β : Type} [Octet β] :
    (∀ value r, ((parseContentRange value r).1 = true ↔ ∃ c, Spells value c) ∧
      ∀ c, Spells value c → (parseContentRange value r).2 = c.fields r.total) ∧
    (∀ t : Transfer, t.Layout → t.resumed < t.length → ∀ value,
      (validContentRange (recordContentRange value t) = true ↔
        ∃ c, Spells value c ∧ Continues t c)) ∧
    ∀ range : ByteRange,
      (range.refusal = none → ∀ first last total, first ≤ last → last < total → total < 2 ^ 64 →
        (answers range first last total = true ↔ Covers range first last total)) ∧
      (∀ detail, range.refusal = some detail → ∀ (curl : Libcurl) (options : ClientOptions)
        (backend : Backend) (ifMatch : Text) (q : ProbeRequest β) (qs : List (ProbeRequest β))
        (loop : ProbeLoop) (m : Memory Unit β), loop.attempt < options.maxAttempts →
        getRange curl options backend range ifMatch (q :: qs) loop m =
          (.failed .errRange detail, none, m)) := by
  refine ⟨parseContentRange_iff, fun _ hl hr => validContentRange_iff hl hr, fun range => ⟨?_, ?_⟩⟩
  · exact fun hmade => (discerned_iff range).mpr (.of_made hmade)
  · intro detail hrefused curl options backend ifMatch q qs loop m hleft
    exact getRange_refused curl options backend hrefused ifMatch q qs hleft m

/-- Ten bytes from byte 100 on, three of which have arrived. -/
def resumedTen : Transfer where
  locator := { backend := .s3 }
  offset := 100
  length := 10
  resumed := 3
  parts := [{ relativeOffset := 0, length := 10 }]

theorem resumedTen_layout : resumedTen.Layout where
  first_zero := ⟨_, [], rfl, rfl⟩
  sorted := by decide
  part_pos := by decide
  part_stop := by decide
  longest := ⟨_, List.mem_cons_self, rfl⟩
  length_lt := by decide
  stop_le := by decide
  whole := fun _ => ⟨_, rfl, rfl, rfl⟩

/-- The object ends with the rest of the ten bytes but one; and an object of four bytes is all
there is of the ten that a probe asks for. -/
theorem contentRange_validity_resumed :
    (resumedTen.resumed < resumedTen.length ∧
      ∃ c, Spells (text "bytes 103-108/109") c ∧ Continues resumedTen c) ∧
    Covers tenBytes.range 0 3 4 :=
  ⟨⟨by decide, ((@contentRange_validity UInt8 _).2.1 resumedTen resumedTen_layout
      (by decide) (text "bytes 103-108/109")).mp (by decide)⟩,
    (((@contentRange_validity UInt8 _).2.2 tenBytes.range).1
      (by decide) 0 3 4 (by decide) (by decide) (by decide)).mp (by decide)⟩

end Karu
