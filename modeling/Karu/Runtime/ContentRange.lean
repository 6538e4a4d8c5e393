/-
# `Karu.Runtime.ContentRange` — what `Content-Range` headers leave behind

`parse_content_range` answers whether a value is well formed, and writes what
it reads on the way.  The two come apart on a refused value: the verdict and
the range it names depend on the value alone (`contentRange`), but the numbers
found in the output arguments afterwards are those of the last value that had
any (`lastFirst`, `lastLast`), well formed or not.
-/
import Karu.Runtime.Header

namespace Karu

open Base

/-- A well-formed value, as the range it names: first and last byte, and the size of the
object unless it is `*`. -/
structure ContentRange where
  first : Nat
  last : Nat
  total : Option Nat
deriving DecidableEq, Repr

/-- The whole of a text as a number, or nothing. -/
def wholeNumber (s : Text) : Option Nat :=
  match fromChars s with
  | some (n, []) => some n
  | _ => none

/-- The range a `Content-Range` value names, if it is well formed. -/
def contentRange (value : Text) : Option ContentRange :=
  match splitContentRange value with
  | none => none
  | some (firstText, lastText, totalText) =>
      match wholeNumber firstText, wholeNumber lastText with
      | some first, some last =>
          if last < first then none
          else if totalText = text "*" then some ⟨first, last, none⟩
          else
            match wholeNumber totalText with
            | some total => if last < total then some ⟨first, last, some total⟩ else none
            | none => none
      | _, _ => none

/-- The first number a value supplies, whether or not the value is well formed. -/
def writtenFirst (value : Text) : Option Nat :=
  match splitContentRange value with
  | none => none
  | some (firstText, _, _) => (fromChars firstText).map (·.1)

/-- The last number a value supplies. -/
def writtenLast (value : Text) : Option Nat :=
  match splitContentRange value with
  | none => none
  | some (firstText, lastText, _) =>
      if (wholeNumber firstText).isSome then (fromChars lastText).map (·.1) else none

theorem parseU64_snd (s : Text) (n : Nat) :
    (parseU64 s n).2 = ((fromChars s).map (·.1)).getD n := by
  unfold parseU64
  cases fromChars s with
  | none => rfl
  | some p => rfl

theorem parseU64_fst (s : Text) (n : Nat) : (parseU64 s n).1 = (wholeNumber s).isSome := by
  unfold parseU64 wholeNumber
  cases fromChars s with
  | none => rfl
  | some p =>
      obtain ⟨v, rest⟩ := p
      cases rest <;> rfl

theorem parseU64_whole {s : Text} {v : Nat} (h : wholeNumber s = some v) (n : Nat) :
    parseU64 s n = (true, v) := by
  unfold wholeNumber at h
  unfold parseU64
  split at h
  · rename_i hf
    cases h
    simp [hf]
  · cases h

theorem parseTotal_numbers (totalText : Text) (r : RangeFields) :
    (parseTotal totalText r).2.first = r.first ∧ (parseTotal totalText r).2.last = r.last := by
  simp only [parseTotal]
  split <;> exact ⟨rfl, rfl⟩

/-- Whatever the verdict, the numbers left behind are the value's where it has them. -/
theorem parseContentRange_numbers (value : Text) (r : RangeFields) :
    (parseContentRange value r).2.first = (writtenFirst value).getD r.first ∧
      (parseContentRange value r).2.last = (writtenLast value).getD r.last := by
  simp only [parseContentRange, writtenFirst, writtenLast]
  cases splitContentRange value with
  | none => exact ⟨rfl, rfl⟩
  | some texts =>
      obtain ⟨firstText, lastText, totalText⟩ := texts
      simp only [parseU64_fst, parseU64_snd]
      cases hf : (wholeNumber firstText).isSome with
      | false => simp
      | true =>
          simp only [Bool.not_true, Bool.false_eq_true, if_false, if_true]
          split
          · exact ⟨rfl, rfl⟩
          · exact parseTotal_numbers totalText _

/-- The fields after a well-formed value. -/
def ContentRange.fields (c : ContentRange) (total : Nat) : RangeFields where
  first := c.first
  last := c.last
  total := c.total.getD total
  haveTotal := c.total.isSome

/-- The verdict, and the fields of an accepted value, are the value's own. -/
theorem parseContentRange_verdict (value : Text) (r : RangeFields) :
    match contentRange value with
    | some c => parseContentRange value r = (true, c.fields r.total)
    | none => (parseContentRange value r).1 = false := by
  simp only [contentRange, parseContentRange]
  cases splitContentRange value with
  | none => rfl
  | some texts =>
      obtain ⟨firstText, lastText, totalText⟩ := texts
      cases hf : wholeNumber firstText with
      | none => simp [parseU64_fst, hf]
      | some first =>
          cases hl : wholeNumber lastText with
          | none => simp [parseU64_fst, parseU64_whole hf, hf, hl]
          | some last =>
              simp only [hf, hl, parseU64_whole hf, parseU64_whole hl]
              by_cases hlt : last < first
              · simp [hlt]
              · simp only [hlt, if_false, decide_false, Bool.or_false, Bool.not_true,
                  Bool.false_eq_true, parseTotal]
                by_cases hstar : totalText = text "*"
                · subst hstar
                  simp only [if_true, beq_self_eq_true]
                  rfl
                · simp only [if_neg hstar, beq_iff_eq]
                  cases ht : wholeNumber totalText with
                  | none => simp [parseU64_fst, ht]
                  | some total =>
                      have hne : totalText ≠ [] := by
                        rintro rfl
                        have hempty : wholeNumber [] = none := by decide
                        rw [hempty] at ht
                        cases ht
                      simp only [parseU64_whole ht]
                      by_cases hbound : last < total
                      · have h₁ : ¬ total ≤ last := by omega
                        have h₂ : total ≠ 0 := by omega
                        simp [hbound, h₁, h₂, hne, ContentRange.fields]
                      · have h₁ : total ≤ last := by omega
                        simp [hbound, h₁]

theorem contentRange_le {value : Text} {c : ContentRange} (h : contentRange value = some c) :
    c.first ≤ c.last := by
  simp only [contentRange] at h
  split at h
  · cases h
  · split at h
    · split at h
      · cases h
      · split at h
        · cases h
          exact Nat.le_of_not_lt ‹_›
        · split at h
          · split at h
            · cases h
              exact Nat.le_of_not_lt ‹_›
            · cases h
          · cases h
    · cases h

/-- A total that is stated lies past the range. -/
theorem contentRange_lt {value : Text} {c : ContentRange} (h : contentRange value = some c) :
    ∀ n ∈ c.total, c.last < n := by
  simp only [contentRange] at h
  split at h
  · cases h
  · split at h
    · split at h
      · cases h
      · split at h
        · cases h
          intro n hn
          cases hn
        · split at h
          · split at h
            · cases h
              intro n hn
              cases hn
              assumption
            · cases h
          · cases h
    · cases h

/-! ## Several values

A response may carry any number of `Content-Range` headers.  The callbacks
take them in turn. -/

/-- The number in the `first` argument once all values have been read. -/
def lastFirst (values : List Text) (first : Nat := 0) : Nat :=
  values.foldl (fun n v => (writtenFirst v).getD n) first

/-- The number in the `last` argument once all values have been read. -/
def lastLast (values : List Text) (last : Nat := 0) : Nat :=
  values.foldl (fun n v => (writtenLast v).getD n) last

theorem lastFirst_singleton {value : Text} {c : ContentRange} (h : contentRange value = some c) :
    lastFirst [value] = c.first ∧ lastLast [value] = c.last := by
  have hnumbers := parseContentRange_numbers value ⟨0, 0, 0, false⟩
  have hverdict := parseContentRange_verdict value ⟨0, 0, 0, false⟩
  rw [h] at hverdict
  rw [show parseContentRange value ⟨0, 0, 0, false⟩ = (true, c.fields 0) from hverdict] at hnumbers
  exact ⟨hnumbers.1.symm, hnumbers.2.symm⟩

/-- The range the last well-formed value names. -/
def lastRange (values : List Text) : Option ContentRange :=
  (values.filterMap contentRange).getLast?

/-- The `Content-Range` values among the header lines of a response. -/
def contentRanges (fields : List Text) : List Text :=
  (fields.filter (headerNameIs · (text "content-range:"))).map
    (headerValue · (text "content-range:"))

/-! ## Validators and encodings of a response -/

/-- What one header line does to the recognised `ETag`. -/
def recordEtag (etag line : Text) : Text :=
  if headerNameIs line (text "etag:") && recognisedEtag (headerValue line (text "etag:")) then
    headerValue line (text "etag:")
  else etag

/-- The recognised `ETag` of a response. -/
def etagOf (fields : List Text) : Text := fields.foldl recordEtag []

/-- The encoding headers of a response. -/
def encodingOf (fields : List Text) : EncodingHeaders := fields.foldl recordEncoding {}

end Karu
