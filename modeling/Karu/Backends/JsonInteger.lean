/-
# `Karu.Backends.JsonInteger` — `json_integer` on flat objects

`json_integer` asks `json_string` first, and where that gives no number it looks
for the name again: this time it takes the first quoted name, whatever it is,
and the next colon, wherever it is.  Where a string value before the member
ends in the quoted name, the colon is that of the member behind it, or one
inside the name of that member.
-/
import Karu.Backends.FlatJson
import Mathlib.Data.List.TakeWhile

namespace Karu

open Base

namespace Backends

/-! ## Integers -/

/-- Digits with a sign before them. -/
def signed (negative : Bool) (ds : Text) : Text := (if negative then [45] else []) ++ ds

/-- The number they denote. -/
def signedValue (negative : Bool) (ds : Text) : Int :=
  if negative then -(digitsValue ds : Int) else digitsValue ds

/-- `std::int64_t`. -/
def InLong (v : Int) : Prop := -(2 ^ 63) ≤ v ∧ v < 2 ^ 63

instance (v : Int) : Decidable (InLong v) := inferInstanceAs (Decidable (_ ∧ _))

/-- The decimal digits of a number, with its sign if it is negative. -/
structure DecimalText (s : Text) (v : Int) : Prop where
  digits : ∃ negative ds, ds ≠ [] ∧ (∀ c ∈ ds, isDigit c = true) ∧ s = signed negative ds ∧
    v = signedValue negative ds
  fits : InLong v

/-- A number without fraction and exponent. -/
def JsonNumber.IsInteger (n : JsonNumber) : Prop := n.fraction = [] ∧ n.exponent = []

def JsonNumber.value (n : JsonNumber) : Int := signedValue n.negative n.whole

/-- The value is the number, or the string of its digits. -/
inductive Denotes : FlatValue → Int → Prop
  | number {n : JsonNumber} : n.IsInteger → InLong n.value → Denotes (.number n) n.value
  | string {pieces : List Piece} {s : Text} {v : Int} : pieces.mapM Piece.decoded = some s →
      DecimalText s v → Denotes (.string pieces) v

/-- All of a text as a number. -/
def wholeLong (s : Text) : Option Int :=
  match fromCharsLong s with
  | some (v, []) => some v
  | _ => none

/-- A number at the beginning of a text. -/
def leadingLong (s : Text) : Option Int := (fromCharsLong s).map (·.1)

/-- What the first half of `json_integer` makes of a value. -/
def FlatValue.quotedInteger (v : FlatValue) : Option Int := v.decoded.bind wholeLong

/-- What its second half makes of it. -/
def FlatValue.bareInteger : FlatValue → Option Int
  | .number n => leadingLong n.chars
  | _ => none

/-- What a value is to be read as. -/
def FlatValue.integer (v : FlatValue) : Option Int := v.quotedInteger.or v.bareInteger

theorem head_ne_minus {ds : Text} (hd : ∀ c ∈ ds, isDigit c = true) :
    (ds.head? == some 45) = false := by
  cases ds with
  | nil => rfl
  | cons c cs =>
      have hc : c ≠ 45 := by
        rintro rfl
        exact absurd (hd 45 List.mem_cons_self) (by decide)
      simpa using hc

theorem fromCharsLong_signed {negative : Bool} {ds : Text} (hne : ds ≠ [])
    (hd : ∀ c ∈ ds, isDigit c = true) :
    fromCharsLong (signed negative ds) =
      if InLong (signedValue negative ds) then some (signedValue negative ds, []) else none := by
  obtain ⟨htake, hdrop⟩ := @takeWhile_append_of_all isDigit ds [] hd (by simp)
  rw [List.append_nil] at htake hdrop
  have hempty : ds.isEmpty = false := by simpa using hne
  cases negative with
  | true =>
      have hhead : ((45 :: ds).head? == some 45) = true := by simp
      show fromCharsLong (45 :: ds) = _
      simp only [fromCharsLong, hhead, if_true, List.tail_cons, htake, hdrop, hempty,
        Bool.false_eq_true, if_false]
      rfl
  | false =>
      show fromCharsLong ds = _
      simp only [fromCharsLong, head_ne_minus hd, Bool.false_eq_true, if_false, htake, hdrop,
        hempty]
      rfl

/-- What is read where the digits are followed by nothing. -/
theorem digits_of_whole {s rest : Text} {P : Prop} [Decidable P] {v w : Int}
    (h : (if (s.takeWhile isDigit).isEmpty = true then none
      else if P then some (w, s.dropWhile isDigit) else none) = some (v, rest)) :
    s ≠ [] ∧ s.dropWhile isDigit = rest := by
  obtain ⟨hne, h⟩ := Option.ite_none_left_eq_some.mp h
  obtain ⟨-, h⟩ := Option.ite_none_right_eq_some.mp h
  refine ⟨?_, (Prod.mk.inj (Option.some.inj h)).2⟩
  rintro rfl
  exact hne rfl

/-- A text that is read as a whole is digits with a sign. -/
theorem signed_of_fromCharsLong {s : Text} {v : Int} (h : fromCharsLong s = some (v, [])) :
    ∃ negative ds, ds ≠ [] ∧ (∀ c ∈ ds, isDigit c = true) ∧ s = signed negative ds := by
  by_cases hsign : s.head? = some 45
  · obtain ⟨tail, rfl⟩ : ∃ tail, s = 45 :: tail := by
      cases s with
      | nil => cases hsign
      | cons c tail => exact ⟨tail, by rw [Option.some.inj hsign]⟩
    simp only [fromCharsLong, List.head?_cons, beq_self_eq_true, if_true, List.tail_cons] at h
    obtain ⟨hne, hrest⟩ := digits_of_whole h
    exact ⟨true, tail, hne, List.dropWhile_eq_nil_iff.mp hrest, rfl⟩
  · have hminus : (s.head? == some 45) = false := by simpa using hsign
    simp only [fromCharsLong, hminus, Bool.false_eq_true, if_false] at h
    obtain ⟨hne, hrest⟩ := digits_of_whole h
    exact ⟨false, s, hne, List.dropWhile_eq_nil_iff.mp hrest, rfl⟩

theorem wholeLong_iff (s : Text) (v : Int) : wholeLong s = some v ↔ DecimalText s v := by
  constructor
  · intro h
    unfold wholeLong at h
    split at h
    · rename_i w hread
      cases h
      obtain ⟨negative, ds, hne, hd, rfl⟩ := signed_of_fromCharsLong hread
      rw [fromCharsLong_signed hne hd] at hread
      obtain ⟨hfits, hvalue⟩ := Option.ite_none_right_eq_some.mp hread
      have hw := (Prod.mk.inj (Option.some.inj hvalue)).1
      rw [hw] at hfits
      exact ⟨⟨negative, ds, hne, hd, rfl, hw.symm⟩, hfits⟩
    · cases h
  · rintro ⟨⟨negative, ds, hne, hd, rfl, rfl⟩, hfits⟩
    rw [wholeLong, fromCharsLong_signed hne hd, if_pos hfits]

theorem JsonNumber.leadingLong_iff {n : JsonNumber} (h : n.IsInteger) (v : Int) :
    leadingLong n.chars = some v ↔ InLong n.value ∧ n.value = v := by
  have hchars : n.chars = signed n.negative n.whole := by
    rw [JsonNumber.chars, h.1, h.2, List.append_nil, List.append_nil]
    rfl
  rw [leadingLong, hchars, fromCharsLong_signed n.whole_ne_nil n.whole_digits]
  by_cases hfits : InLong n.value
  · have hsigned : InLong (signedValue n.negative n.whole) := hfits
    rw [if_pos hsigned, Option.map_some, Option.some.injEq]
    exact ⟨fun h => ⟨hfits, h⟩, fun h => h.2⟩
  · have hsigned : ¬ InLong (signedValue n.negative n.whole) := hfits
    rw [if_neg hsigned]
    simp [hfits]

/-- What is read of a value is what it denotes. -/
theorem FlatValue.integer_iff {v : FlatValue} (h : ∀ n, v = .number n → n.IsInteger) (i : Int) :
    v.integer = some i ↔ Denotes v i := by
  cases v with
  | string pieces =>
      have hread : (FlatValue.string pieces).integer =
          (pieces.mapM Piece.decoded).bind wholeLong := Option.or_none
      rw [hread]
      constructor
      · intro hi
        obtain ⟨s, hs, hwhole⟩ := Option.bind_eq_some_iff.mp hi
        exact .string hs ((wholeLong_iff s i).mp hwhole)
      · intro hi
        cases hi with
        | string hs hdecimal =>
            rw [hs]
            exact (wholeLong_iff _ i).mpr hdecimal
  | number n =>
      have hread : (FlatValue.number n).integer = leadingLong n.chars := rfl
      rw [hread, n.leadingLong_iff (h n rfl)]
      constructor
      · rintro ⟨hfits, rfl⟩
        exact .number (h n rfl) hfits
      · intro hi
        cases hi with
        | number hinteger hfits => exact ⟨hfits, rfl⟩
  | boolean b =>
      constructor
      · intro hi
        cases hi
      · intro hi
        cases hi
  | null =>
      constructor
      · intro hi
        cases hi
      · intro hi
        cases hi

/-! ## Behind the next colon -/

theorem takeWhile_stop {p : UInt8 → Bool} {c : UInt8} (hc : p c = false) (xs rest : Text) :
    (xs ++ c :: rest).takeWhile p = xs.takeWhile p := by
  induction xs with
  | nil => simp [hc]
  | cons x xs ih =>
      rw [List.cons_append, List.takeWhile_cons, List.takeWhile_cons, ih]

/-- A number ends before anything that is not a digit. -/
theorem leadingLong_stop {c : UInt8} (hc : isDigit c = false) {xs : Text} (hx : xs = [] → c ≠ 45)
    (rest : Text) : leadingLong (xs ++ c :: rest) = leadingLong xs := by
  have hmap : ∀ (ds : Text) (v : Int) (r₁ r₂ : Text) (P : Prop) [Decidable P],
      (if ds.isEmpty = true then none else if P then some (v, r₁) else none).map (·.1) =
        (if ds.isEmpty = true then none else if P then some (v, r₂) else none).map (·.1) := by
    intro ds v r₁ r₂ P _
    split
    · rfl
    · split <;> rfl
  cases xs with
  | nil =>
      have hminus : ((c :: rest).head? == some 45) = false := by simpa using hx rfl
      simp [leadingLong, fromCharsLong, hc, hx rfl]
  | cons x xs =>
      simp only [leadingLong, fromCharsLong, List.cons_append, List.head?_cons, List.tail_cons]
      by_cases hsign : x = 45
      · simp only [hsign, beq_self_eq_true, if_true, takeWhile_stop hc]
        exact hmap _ _ _ _ _
      · have hminus : (some x == some (45 : UInt8)) = false := by simpa using hsign
        have htake := takeWhile_stop hc (x :: xs) rest
        rw [List.cons_append] at htake
        simp only [hminus, Bool.false_eq_true, if_false, htake]
        exact hmap _ _ _ _ _

/-- The second half of `json_integer`, with the text behind the quoted name. -/
def colonNumber (rest : Text) : Option Int :=
  (find 58 rest).bind fun colon => leadingLong ((rest.drop (colon + 1)).dropWhile isSpace)

theorem colonNumber_append {before : Text} (h : (58 : UInt8) ∉ before) (rest : Text) :
    colonNumber (before ++ 58 :: rest) = leadingLong (rest.dropWhile isSpace) := by
  rw [colonNumber, find_append rest h, Option.bind_some, drop_behind]

theorem colonNumber_skip {before : Text} (h : (58 : UInt8) ∉ before) (rest : Text) :
    colonNumber (before ++ rest) = colonNumber rest := by
  cases hcolon : find 58 rest with
  | none =>
      have hboth : (58 : UInt8) ∉ before ++ rest := by
        rw [List.mem_append, not_or]
        exact ⟨h, find_none hcolon⟩
      rw [colonNumber, colonNumber, hcolon, find_eq_none hboth]
      rfl
  | some k =>
      obtain ⟨hcut, hbefore⟩ := find_split hcolon
      have hboth : (58 : UInt8) ∉ before ++ rest.take k := by
        rw [List.mem_append, not_or]
        exact ⟨h, hbefore⟩
      rw [hcut, ← List.append_assoc, colonNumber_append hboth, colonNumber_append hbefore]

/-- The second half of `json_integer`. -/
def jsonBare (json needle : Text) : Option Int :=
  (findText needle json).bind fun found =>
    (find 58 json (found + needle.length)).bind fun cursor =>
      leadingLong ((json.drop (cursor + 1)).dropWhile isSpace)

theorem jsonBare_do (json needle : Text) :
    (do let found ← findText needle json
        let cursor ← find 58 json (found + needle.length)
        let read ← fromCharsLong ((json.drop (cursor + 1)).dropWhile isSpace)
        pure read.1) = jsonBare json needle := by
  have hpure : ∀ x : Option (Int × Text), (x.bind fun p => some p.1) = x.map (·.1) := by
    intro x
    cases x <;> rfl
  simp only [jsonBare, leadingLong, Option.bind_eq_bind, Option.pure_def, hpure]

theorem jsonBare_behind (json needle : Text) :
    jsonBare json needle = (behind needle json).bind colonNumber := by
  rw [jsonBare, behind]
  cases findText needle json with
  | none => rfl
  | some found =>
      simp only [Option.bind_some, Option.map_some, colonNumber]
      rw [find_from]
      cases find 58 (json.drop (found + needle.length)) with
      | none => rfl
      | some colon =>
          have hplace : found + needle.length + (colon + 1) =
              colon + (found + needle.length) + 1 := by omega
          simp only [Option.map_some, Option.bind_some, List.drop_drop, hplace]

/-- What `json_integer` does, by halves. -/
theorem jsonInteger_halves (json name : Text) :
    jsonInteger json name = ((jsonString json name).bind wholeLong).or
      ((behind (delimited 34 name) json).bind colonNumber) := by
  have hhalves : jsonInteger json name =
      ((jsonString json name).bind wholeLong).or (jsonBare json (delimited 34 name)) := by
    unfold jsonInteger
    rw [quotedName]
    cases jsonString json name with
    | none => exact jsonBare_do json (delimited 34 name)
    | some quoted =>
        show _ = (wholeLong quoted).or _
        unfold wholeLong
        cases hread : fromCharsLong quoted with
        | none =>
            simp only [hread, jsonBare_do]
            rfl
        | some p =>
            obtain ⟨v, rest⟩ := p
            cases rest with
            | nil =>
                simp only [hread]
                rfl
            | cons c cs =>
                simp only [hread, jsonBare_do]
                rfl
  rw [hhalves, jsonBare_behind]

/-! ## Members -/

/-- What stands behind the first colon of a member: its value, or the rest of its name. -/
def JsonMember.behindColon (m : JsonMember) : Option Int :=
  match find 58 m.name with
  | some colon => leadingLong ((m.name.drop (colon + 1)).dropWhile isSpace)
  | none => m.value.bareInteger

theorem Blank.uncolon (b : Blank) : (58 : UInt8) ∉ b.chars := fun h =>
  absurd (b.space 58 h) (by decide)

theorem leadingLong_bare {x : UInt8} (hx : isDigit x = false) (hminus : x ≠ 45) (rest : Text) :
    leadingLong (x :: rest) = none := by
  have hstop := @leadingLong_stop x hx [] (fun _ => hminus) rest
  rw [List.nil_append] at hstop
  rw [hstop]
  decide

theorem leadingLong_value {s : Text} (h : Guarded s) (v : FlatValue) :
    leadingLong (v.chars ++ s) = v.bareInteger := by
  cases v with
  | string pieces => exact leadingLong_bare (by decide) (by decide) _
  | number n =>
      obtain ⟨x, rest, rfl, hx, -⟩ := h
      have hdigit : isDigit x = false := by
        rw [Bool.eq_false_iff]
        intro hd
        simp [isWordChar, hd] at hx
      apply leadingLong_stop hdigit
      intro hempty
      have hwhole := n.whole_ne_nil
      simp [FlatValue.chars, JsonNumber.chars] at hempty
      exact absurd hempty.2.1 hwhole
  | boolean b =>
      cases b with
      | true => exact leadingLong_bare (by decide) (by decide) _
      | false => exact leadingLong_bare (by decide) (by decide) _
  | null => exact leadingLong_bare (by decide) (by decide) _

/-- The colon of a member. -/
theorem colonNumber_binding {s : Text} (h : Guarded s) (m : JsonMember) :
    colonNumber (m.binding s) = m.value.bareInteger := by
  have hguarded := m.behindValue.guarded h
  rw [JsonMember.binding, colonNumber_append m.behindName.uncolon,
    ← leadingLong_value hguarded m.value]
  congr 1
  obtain ⟨x, xs, hchars, hspace⟩ : ∃ x xs, m.value.chars = x :: xs ∧ isSpace x = false := by
    cases hrun : m.value.lastRun with
    | none =>
        obtain ⟨x, xs, hchars, hspace, -⟩ := FlatValue.bare hrun
        exact ⟨x, xs, hchars, hspace⟩
    | some run =>
        cases hv : m.value with
        | string pieces => exact ⟨34, _, rfl, by decide⟩
        | number n => rw [hv] at hrun; cases hrun
        | boolean b => rw [hv] at hrun; cases hrun
        | null => rw [hv] at hrun; cases hrun
  rw [hchars, List.cons_append]
  exact m.beforeValue.dropWhile hspace _

/-- A number inside a name ends before the quote. -/
theorem leadingLong_quoted (xs rest : Text) :
    leadingLong ((xs ++ 34 :: rest).dropWhile isSpace) = leadingLong (xs.dropWhile isSpace) := by
  have hdrop : (xs ++ 34 :: rest).dropWhile isSpace = xs.dropWhile isSpace ++ 34 :: rest := by
    induction xs with
    | nil => rfl
    | cons x xs ih =>
        rw [List.cons_append, List.dropWhile_cons, List.dropWhile_cons]
        split
        · exact ih
        · rfl
  rw [hdrop]
  exact leadingLong_stop (by decide) (fun _ => by decide) rest

/-- The first colon of a member, from its beginning. -/
theorem colonNumber_member {s : Text} (h : Guarded s) (m : JsonMember) :
    colonNumber (m.chars s) = m.behindColon := by
  have hquote : (58 : UInt8) ∉ m.before.chars ++ [34] := by
    rw [List.mem_append, not_or]
    exact ⟨m.before.uncolon, by decide⟩
  have hcut : m.chars s = (m.before.chars ++ [34]) ++ (m.name ++ 34 :: m.binding s) := by
    simp [JsonMember.chars]
  rw [hcut, colonNumber_skip hquote, JsonMember.behindColon]
  cases hcolon : find 58 m.name with
  | none =>
      have hname : (58 : UInt8) ∉ m.name ++ [34] := by
        rw [List.mem_append, not_or]
        exact ⟨find_none hcolon, by decide⟩
      have hclosed : m.name ++ 34 :: m.binding s = (m.name ++ [34]) ++ m.binding s := by simp
      rw [hclosed, colonNumber_skip hname, colonNumber_binding h]
  | some colon =>
      obtain ⟨hsplit, hbefore⟩ := find_split hcolon
      have hjoin : m.name ++ 34 :: m.binding s =
          m.name.take colon ++ 58 :: (m.name.drop (colon + 1) ++ 34 :: m.binding s) := by
        rw [← List.cons_append, ← List.append_assoc, ← hsplit]
      rw [hjoin, colonNumber_append hbefore]
      exact leadingLong_quoted _ _

/-- The first string value that ends in the quoted name, where it stands before the member of the
name: what is read behind it. -/
def strayReading (name : Text) : List JsonMember → Option (Option Int)
  | [] => none
  | m :: ms =>
      if m.name = name then none
      else if m.value.lastRun = some name then some (ms.head?.bind JsonMember.behindColon)
      else strayReading name ms

/-- What the second half reads. -/
def bareReading (name : Text) (ms : List JsonMember) : Option Int :=
  (strayReading name ms).getD ((firstValue name ms).bind FlatValue.bareInteger)

/-- The colon behind a value. -/
theorem colonNumber_moreMembers {rest : Text} (hrest : (58 : UInt8) ∉ rest) (b : Blank)
    (ms : List JsonMember) :
    colonNumber (b.chars ++ moreMembers rest ms) = ms.head?.bind JsonMember.behindColon := by
  rw [colonNumber_skip b.uncolon]
  cases ms with
  | nil =>
      have hnone : (58 : UInt8) ∉ moreMembers rest [] := by simpa [moreMembers] using hrest
      rw [colonNumber, find_eq_none hnone]
      rfl
  | cons m ms =>
      have hcomma : moreMembers rest (m :: ms) = [44] ++ m.chars (moreMembers rest ms) := rfl
      rw [hcomma, colonNumber_skip (by decide), colonNumber_member (guarded_moreMembers rest ms)]
      rfl

section Search

variable {name : Text} (hname : ∀ c ∈ name, isWordChar c = true)

include hname

theorem bare_member {rest : Text} (hrest : (58 : UInt8) ∉ rest) {m : JsonMember}
    {ms : List JsonMember}
    (ih : (behind (delimited 34 name) (moreMembers rest ms)).bind colonNumber =
      bareReading name ms) :
    (behind (delimited 34 name) (m.chars (moreMembers rest ms))).bind colonNumber =
      bareReading name (m :: ms) := by
  rw [behind_member hname (guarded_moreMembers rest ms) m]
  by_cases hkey : m.name = name
  · rw [if_pos hkey, Option.bind_some, colonNumber_binding (guarded_moreMembers rest ms)]
    simp [bareReading, strayReading, firstValue, hkey]
  · rw [if_neg hkey]
    split
    · rename_i hstray
      rw [Option.bind_some, colonNumber_moreMembers hrest]
      simp [bareReading, strayReading, hkey, hstray]
    · rename_i hstray
      rw [ih]
      simp [bareReading, strayReading, firstValue, hkey, hstray]

theorem bare_moreMembers {rest : Text} (hquote : (34 : UInt8) ∉ rest)
    (hrest : (58 : UInt8) ∉ rest) (ms : List JsonMember) :
    (behind (delimited 34 name) (moreMembers rest ms)).bind colonNumber = bareReading name ms := by
  induction ms with
  | nil =>
      have hnone : behind (delimited 34 name) (moreMembers rest []) = none :=
        behind_none (by simpa [moreMembers] using hquote)
      rw [hnone]
      rfl
  | cons m ms ih =>
      have hcomma : behind (delimited 34 name) (moreMembers rest (m :: ms)) =
          behind (delimited 34 name) (m.chars (moreMembers rest ms)) :=
        @behind_skip 34 (name ++ [34]) [44] (by decide) _
      rw [hcomma]
      exact bare_member hname hrest ih

/-- Both halves over the members of an object. -/
theorem jsonInteger_members (o : FlatObject) :
    jsonInteger o.toText name =
      ((firstValue name o.members).bind FlatValue.quotedInteger).or
        (bareReading name o.members) := by
  rw [jsonInteger_halves, jsonString_flat o name hname, Option.bind_assoc]
  congr 1
  rw [behind_object o name]
  unfold FlatObject.body
  cases o.members with
  | nil =>
      have hnone : behind (delimited 34 name) (o.inside.chars ++ 125 :: o.behind.chars) = none := by
        apply behind_none
        rw [List.mem_append, List.mem_cons, not_or, not_or]
        exact ⟨o.inside.unquoted, by decide, o.behind.unquoted⟩
      show (behind (delimited 34 name) (o.inside.chars ++ 125 :: o.behind.chars)).bind _ = _
      rw [hnone]
      rfl
  | cons m ms =>
      exact bare_member hname o.behind.uncolon
        (bare_moreMembers hname o.behind.unquoted o.behind.uncolon ms)

end Search

/-! ## What `json_integer` reads -/

/-- The member is read by the first half, or no value before it ends in its quoted name, or what
stands behind the first one that does happens to be the same. -/
inductive Unmistaken (name : Text) (members : List JsonMember) : Prop
  | quoted {v : FlatValue} {i : Int} : firstValue name members = some v →
      v.quotedInteger = some i → Unmistaken name members
  | clear : strayReading name members = none → Unmistaken name members
  | coincident : strayReading name members = some ((firstValue name members).bind FlatValue.integer) →
      Unmistaken name members

theorem integer_of_quotedInteger_none {value : Option FlatValue}
    (h : value.bind FlatValue.quotedInteger = none) :
    value.bind FlatValue.integer = value.bind FlatValue.bareInteger := by
  cases value with
  | none => rfl
  | some v =>
      have hv : v.quotedInteger = none := h
      show v.integer = v.bareInteger
      rw [FlatValue.integer, hv, Option.none_or]

/-- The value read is that of the first member exactly when it is not mistaken for another. -/
theorem unmistaken_iff {name : Text} (hname : ∀ c ∈ name, isWordChar c = true) (o : FlatObject) :
    jsonInteger o.toText name = (firstValue name o.members).bind FlatValue.integer ↔
      Unmistaken name o.members := by
  rw [jsonInteger_members hname o]
  cases hquoted : (firstValue name o.members).bind FlatValue.quotedInteger with
  | some i =>
      obtain ⟨v, hv, hi⟩ := Option.bind_eq_some_iff.mp hquoted
      refine ⟨fun _ => .quoted hv hi, fun _ => ?_⟩
      rw [hv, Option.bind_some, FlatValue.integer, hi]
      rfl
  | none =>
      rw [Option.none_or, integer_of_quotedInteger_none hquoted, bareReading]
      cases hstray : strayReading name o.members with
      | none => exact ⟨fun _ => .clear hstray, fun _ => rfl⟩
      | some reading =>
          rw [Option.getD_some]
          constructor
          · intro h
            exact .coincident (by rw [hstray, h, integer_of_quotedInteger_none hquoted])
          · intro h
            cases h with
            | quoted hv hi =>
                rw [hv, Option.bind_some, hi] at hquoted
                cases hquoted
            | clear h =>
                rw [hstray] at h
                cases h
            | coincident h =>
                rw [hstray, integer_of_quotedInteger_none hquoted] at h
                exact Option.some.inj h

/-- `json_integer` gives the number of the first member of the name, and nothing where that is no
number, exactly when the member is not mistaken for another. -/
theorem jsonInteger_flat (o : FlatObject) (name : Text) (hname : ∀ c ∈ name, isWordChar c = true)
    (hintegers : ∀ m ∈ o.members, ∀ n, m.value = .number n → n.IsInteger) :
    (∀ i, jsonInteger o.toText name = some i ↔
      ∃ v, firstValue name o.members = some v ∧ Denotes v i) ↔ Unmistaken name o.members := by
  have hdenotes : ∀ i, (firstValue name o.members).bind FlatValue.integer = some i ↔
      ∃ v, firstValue name o.members = some v ∧ Denotes v i := by
    intro i
    rw [Option.bind_eq_some_iff]
    refine exists_congr fun v => and_congr_right fun hv => FlatValue.integer_iff ?_ i
    obtain ⟨m, hm, hvalue⟩ := Option.map_eq_some_iff.mp hv
    exact fun n hn => hintegers m (List.mem_of_find?_eq_some hm) n (hvalue.trans hn)
  rw [← unmistaken_iff hname o]
  constructor
  · intro h
    apply Option.ext
    intro i
    rw [h i, hdenotes i]
  · intro h i
    rw [h, hdenotes i]

/-- A number of four digits. -/
def fourDigits (ds : Text) (hlen : ds.length = 4) (hd : ∀ c ∈ ds, isDigit c = true)
    (hshort : ds.head? ≠ some 48) : JsonNumber where
  negative := false
  whole := ds
  fraction := []
  exponent := []
  whole_ne_nil := by
    rintro rfl
    cases hlen
  whole_digits := hd
  whole_short := Or.inr hshort
  fraction_form := Or.inl rfl
  exponent_form := Or.inl rfl

/-- `{"access_token":"tk","ext_expires_in":7199,"expires_in":3599}`. -/
def lifetimeObject : FlatObject where
  before := noBlank
  inside := noBlank
  members :=
    [bareMember (text "access_token") (.string (plainPieces (text "tk") (by decide +kernel)))
      (by decide +kernel),
     bareMember (text "ext_expires_in")
      (.number (fourDigits (text "7199") (by decide) (by decide +kernel) (by decide)))
      (by decide +kernel),
     bareMember (text "expires_in")
      (.number (fourDigits (text "3599") (by decide) (by decide +kernel) (by decide)))
      (by decide +kernel)]
  behind := noBlank

theorem jsonInteger_flat_lifetime :
    jsonInteger lifetimeObject.toText (text "expires_in") = some 3599 := by
  have hintegers : ∀ m ∈ lifetimeObject.members, ∀ n, m.value = .number n → n.IsInteger := by
    intro m hm n hn
    simp only [lifetimeObject, List.mem_cons, List.not_mem_nil, or_false] at hm
    rcases hm with rfl | rfl | rfl
    · cases hn
    · cases hn
      exact ⟨rfl, rfl⟩
    · cases hn
      exact ⟨rfl, rfl⟩
  refine ((jsonInteger_flat lifetimeObject (text "expires_in") (by decide +kernel) hintegers).mpr
    (.clear (by decide +kernel)) 3599).mpr ⟨_, rfl, ?_⟩
  exact .number ⟨rfl, rfl⟩ (by decide)

/-- The two lifetimes behind a string that is the name. -/
def hintedObject : FlatObject where
  before := noBlank
  inside := noBlank
  members :=
    [bareMember (text "hint") (.string (plainPieces (text "expires_in") (by decide +kernel)))
      (by decide +kernel),
     bareMember (text "ext_expires_in")
      (.number (fourDigits (text "7199") (by decide) (by decide +kernel) (by decide)))
      (by decide +kernel),
     bareMember (text "expires_in")
      (.number (fourDigits (text "3599") (by decide) (by decide +kernel) (by decide)))
      (by decide +kernel)]
  behind := noBlank

/-- The other lifetime is read. -/
theorem jsonInteger_hinted :
    hintedObject.toText = text
      "\x7b\"hint\":\"expires_in\",\"ext_expires_in\":7199,\"expires_in\":3599\x7d" ∧
    (∃ v, firstValue (text "expires_in") hintedObject.members = some v ∧ Denotes v 3599) ∧
    jsonInteger hintedObject.toText (text "expires_in") = some 7199 := by
  refine ⟨?_, ⟨_, rfl, .number ⟨rfl, rfl⟩ (by decide)⟩, ?_⟩
  · decide +kernel
  · decide +kernel

end Backends

end Karu
