/-
# `Karu.Backends.FlatJson` — `json_string` on flat objects

`json_string` does not parse.  It looks for the quoted name and takes the first
one that a colon follows.  A quoted name is also found where a string value
is the name, or ends in an escaped quote and the name; but no value is
followed by a colon, and what the search skips then ends with the value.

An object is given by its members, with the white space around every token.
-/
import Karu.Backends.Credentials
import Karu.Base.Search

namespace Karu

open Base

namespace Backends

/-! ## Objects -/

/-- White space, as JSON has it. -/
structure Blank where
  chars : Text
  blank : ∀ c ∈ chars, c ∈ text " \t\n\r"

/-- A part of a JSON string. -/
inductive Piece where
  /-- A character that stands for itself. -/
  | plain (c : UInt8) (quote : c ≠ 34) (backslash : c ≠ 92)
  /-- A backslash and one of `"\/bfnrt`. -/
  | escaped (c : UInt8) (known : (unescape c).isSome = true)
  /-- A backslash, a `u` and four hexadecimal digits. -/
  | unicode (digits : Text) (four : digits.length = 4)
      (hexadecimal : ∀ c ∈ digits, c ∈ text "0123456789abcdefABCDEF")

def Piece.chars : Piece → Text
  | .plain c _ _ => [c]
  | .escaped c _ => [92, c]
  | .unicode digits _ _ => 92 :: 117 :: digits

/-- What a piece stands for, where `json_string` reads it. -/
def Piece.decoded : Piece → Option UInt8
  | .plain c _ _ => some c
  | .escaped c _ => unescape c
  | .unicode _ _ _ => none

/-- A JSON number: sign, whole part, fraction and exponent. -/
structure JsonNumber where
  negative : Bool
  whole : Text
  fraction : Text
  exponent : Text
  whole_ne_nil : whole ≠ []
  whole_digits : ∀ c ∈ whole, isDigit c = true
  whole_short : whole.length = 1 ∨ whole.head? ≠ some 48
  fraction_form : fraction = [] ∨
    ∃ ds, ds ≠ [] ∧ (∀ c ∈ ds, isDigit c = true) ∧ fraction = 46 :: ds
  exponent_form : exponent = [] ∨
    ∃ e ∈ text "eE", ∃ sign ∈ [[], text "+", text "-"], ∃ ds, ds ≠ [] ∧
      (∀ c ∈ ds, isDigit c = true) ∧ exponent = e :: (sign ++ ds)

def JsonNumber.chars (n : JsonNumber) : Text :=
  (if n.negative then [45] else []) ++ (n.whole ++ (n.fraction ++ n.exponent))

/-- The value of a member of a flat object. -/
inductive FlatValue where
  | string (pieces : List Piece)
  | number (n : JsonNumber)
  | boolean (b : Bool)
  | null

def FlatValue.chars : FlatValue → Text
  | .string pieces => 34 :: (pieces.flatMap Piece.chars ++ [34])
  | .number n => n.chars
  | .boolean true => text "true"
  | .boolean false => text "false"
  | .null => text "null"

/-- What `json_string` is to read: a string whose escapes all have two characters. -/
def FlatValue.decoded : FlatValue → Option Text
  | .string pieces => pieces.mapM Piece.decoded
  | _ => none

/-- A member of a flat object, and the white space around its tokens. -/
structure JsonMember where
  before : Blank
  name : Text
  behindName : Blank
  beforeValue : Blank
  value : FlatValue
  behindValue : Blank
  name_plain : ∀ c ∈ name, c ≠ 34 ∧ c ≠ 92

/-- What stands behind the name of a member. -/
def JsonMember.binding (m : JsonMember) (rest : Text) : Text :=
  m.behindName.chars ++ 58 ::
    (m.beforeValue.chars ++ (m.value.chars ++ (m.behindValue.chars ++ rest)))

/-- A member, and what follows it. -/
def JsonMember.chars (m : JsonMember) (rest : Text) : Text :=
  m.before.chars ++ 34 :: (m.name ++ 34 :: m.binding rest)

/-- The rest of an object, behind a member. -/
def moreMembers (rest : Text) : List JsonMember → Text
  | [] => 125 :: rest
  | m :: ms => 44 :: m.chars (moreMembers rest ms)

/-- A flat object. -/
structure FlatObject where
  before : Blank
  /-- The white space of an object without members. -/
  inside : Blank
  members : List JsonMember
  behind : Blank

def FlatObject.body (o : FlatObject) : Text :=
  match o.members with
  | [] => o.inside.chars ++ 125 :: o.behind.chars
  | m :: ms => m.chars (moreMembers o.behind.chars ms)

/-- The text of an object. -/
def FlatObject.toText (o : FlatObject) : Text := o.before.chars ++ 123 :: o.body

/-- The value of the first member with a name. -/
def firstValue (name : Text) (members : List JsonMember) : Option FlatValue :=
  (members.find? fun m => m.name = name).map (·.value)

/-- A letter, a digit or an underscore. -/
def isWordChar (c : UInt8) : Bool :=
  isDigit c || (65 ≤ c && c ≤ 90) || (97 ≤ c && c ≤ 122) || c == 95

/-! ## Where the quoted name is found -/

/-- A text that begins with something that is neither in a name nor a quote. -/
def Guarded (s : Text) : Prop := ∃ x rest, s = x :: rest ∧ isWordChar x = false ∧ x ≠ 34

theorem Blank.space (b : Blank) : ∀ c ∈ b.chars, isSpace c = true := by
  have hspace : ∀ c ∈ text " \t\n\r", isSpace c = true := by decide +kernel
  exact fun c hc => hspace c (b.blank c hc)

theorem Blank.unquoted (b : Blank) : (34 : UInt8) ∉ b.chars := fun h =>
  absurd (b.space 34 h) (by decide)

theorem Blank.guarded (b : Blank) {s : Text} (h : Guarded s) : Guarded (b.chars ++ s) := by
  have hblank : ∀ c ∈ text " \t\n\r", isWordChar c = false ∧ c ≠ 34 := by decide +kernel
  have hall := b.blank
  cases hb : b.chars with
  | nil => exact h
  | cons x xs =>
      rw [hb] at hall
      exact ⟨x, xs ++ s, rfl, hblank x (hall x List.mem_cons_self)⟩

theorem guarded_moreMembers (rest : Text) (ms : List JsonMember) :
    Guarded (moreMembers rest ms) := by
  cases ms with
  | nil => exact ⟨125, rest, rfl, by decide, by decide⟩
  | cons m ms => exact ⟨44, _, rfl, by decide, by decide⟩

/-- What stands between the last quote inside a string and the one that ends it; `run` is what has
been read since the quote before. -/
def lastRun (run : Text) : List Piece → Text
  | [] => run
  | p :: ps => if p.chars = [92, 34] then lastRun [] ps else lastRun (run ++ p.chars) ps

/-- The same for a value, if it is a string. -/
def FlatValue.lastRun : FlatValue → Option Text
  | .string pieces => some (Backends.lastRun [] pieces)
  | _ => none

theorem Piece.unquoted (p : Piece) (h : p.chars ≠ [92, 34]) : (34 : UInt8) ∉ p.chars := by
  cases p with
  | plain c quote backslash => simpa [Piece.chars] using Ne.symm quote
  | escaped c known =>
      have hc : c ≠ 34 := by
        rintro rfl
        exact h rfl
      simpa [Piece.chars] using Ne.symm hc
  | unicode digits four hexadecimal =>
      have hdigits : (34 : UInt8) ∉ digits := fun hmem =>
        absurd (hexadecimal 34 hmem) (by decide)
      simpa [Piece.chars] using hdigits

theorem JsonNumber.unquoted (n : JsonNumber) : (34 : UInt8) ∉ n.chars := by
  have hdigits : ∀ ds : Text, (∀ c ∈ ds, isDigit c = true) → (34 : UInt8) ∉ ds :=
    fun ds hds hmem => absurd (hds 34 hmem) (by decide)
  have hsign : (34 : UInt8) ∉ (if n.negative then [45] else [] : Text) := by
    split <;> decide
  have hfraction : (34 : UInt8) ∉ n.fraction := by
    rcases n.fraction_form with h | ⟨ds, -, hds, h⟩
    · simp [h]
    · rw [h, List.mem_cons, not_or]
      exact ⟨by decide, hdigits ds hds⟩
  have hexponent : (34 : UInt8) ∉ n.exponent := by
    have he : ∀ e ∈ text "eE", (34 : UInt8) ≠ e := by decide +kernel
    have hs : ∀ sign ∈ [[], text "+", text "-"], (34 : UInt8) ∉ sign := by decide
    rcases n.exponent_form with h | ⟨e, hmem, sign, hsigned, ds, -, hds, h⟩
    · simp [h]
    · rw [h, List.mem_cons, List.mem_append, not_or, not_or]
      exact ⟨he e hmem, hs sign hsigned, hdigits ds hds⟩
  simp only [JsonNumber.chars, List.mem_append, not_or]
  exact ⟨hsign, hdigits n.whole n.whole_digits, hfraction, hexponent⟩

theorem FlatValue.unquoted {v : FlatValue} (h : v.lastRun = none) : (34 : UInt8) ∉ v.chars := by
  cases v with
  | string pieces => cases h
  | number n => exact n.unquoted
  | boolean b => cases b <;> decide
  | null => decide

section Search

variable {name : Text} (hname : ∀ c ∈ name, isWordChar c = true)

include hname

theorem name_unquoted : (34 : UInt8) ∉ name := fun h => absurd (hname 34 h) (by decide)

/-- A quote that ends a string is not the first of a quoted name. -/
theorem behind_closing {s : Text} (h : Guarded s) :
    behind (delimited 34 name) (34 :: s) = behind (delimited 34 name) s := by
  obtain ⟨x, rest, rfl, hx, hne⟩ := h
  apply behind_delimiter _ hne
  intro hmem
  rw [hname x hmem] at hx
  cases hx

/-- A string, from the quote behind which `run` was read. -/
theorem behind_pieces {s : Text} (h : Guarded s) (pieces : List Piece) (run : Text)
    (hrun : (34 : UInt8) ∉ run) :
    behind (delimited 34 name) (34 :: (run ++ (pieces.flatMap Piece.chars ++ 34 :: s))) =
      if lastRun run pieces = name then some s else behind (delimited 34 name) s := by
  induction pieces generalizing run with
  | nil =>
      rw [List.flatMap_nil, List.nil_append, behind_run (name_unquoted hname) hrun,
        behind_closing hname h]
      rfl
  | cons p ps ih =>
      rw [List.flatMap_cons, lastRun]
      split
      · rename_i hquote
        -- the run ends in a backslash, so it is not the name
        have hslash : run ++ [92] ≠ name := by
          rintro rfl
          exact absurd (hname 92 (by simp)) (by decide)
        have hopen : (34 : UInt8) ∉ run ++ [92] := by
          rw [List.mem_append, not_or]
          exact ⟨hrun, by decide⟩
        have hcut : run ++ ((p.chars ++ ps.flatMap Piece.chars) ++ 34 :: s) =
            (run ++ [92]) ++ 34 :: (ps.flatMap Piece.chars ++ 34 :: s) := by
          rw [hquote]
          simp
        rw [hcut, behind_run (name_unquoted hname) hopen, if_neg hslash]
        exact ih [] (by simp)
      · rename_i hquote
        have hjoin : (34 : UInt8) ∉ run ++ p.chars := by
          rw [List.mem_append, not_or]
          exact ⟨hrun, p.unquoted hquote⟩
        have hcut : run ++ ((p.chars ++ ps.flatMap Piece.chars) ++ 34 :: s) =
            (run ++ p.chars) ++ (ps.flatMap Piece.chars ++ 34 :: s) := by
          simp
        rw [hcut]
        exact ih (run ++ p.chars) hjoin

theorem behind_value {s : Text} (h : Guarded s) (v : FlatValue) :
    behind (delimited 34 name) (v.chars ++ s) =
      if v.lastRun = some name then some s else behind (delimited 34 name) s := by
  cases hrun : v.lastRun with
  | none =>
      rw [if_neg (by simp)]
      exact behind_skip (v.unquoted hrun) s
  | some run =>
      cases v with
      | string pieces =>
          cases hrun
          have hstring := behind_pieces hname h pieces [] (by simp)
          simpa [FlatValue.chars] using hstring
      | number n => cases hrun
      | boolean b => cases hrun
      | null => cases hrun

/-- A member, from its beginning. -/
theorem behind_member {s : Text} (h : Guarded s) (m : JsonMember) :
    behind (delimited 34 name) (m.chars s) =
      if m.name = name then some (m.binding s)
      else if m.value.lastRun = some name then some (m.behindValue.chars ++ s)
      else behind (delimited 34 name) s := by
  have hbinding : Guarded (m.binding s) := m.behindName.guarded ⟨58, _, rfl, by decide, by decide⟩
  have hkey : (34 : UInt8) ∉ m.name := fun hmem => (m.name_plain 34 hmem).1 rfl
  have hcolon : (34 : UInt8) ∉ m.behindName.chars ++ 58 :: m.beforeValue.chars := by
    rw [List.mem_append, List.mem_cons, not_or, not_or]
    exact ⟨m.behindName.unquoted, by decide, m.beforeValue.unquoted⟩
  have hvalue : behind (delimited 34 name) (m.binding s) =
      if m.value.lastRun = some name then some (m.behindValue.chars ++ s)
      else behind (delimited 34 name) s := by
    have hcut : m.binding s = (m.behindName.chars ++ 58 :: m.beforeValue.chars) ++
        (m.value.chars ++ (m.behindValue.chars ++ s)) := by
      simp [JsonMember.binding]
    rw [hcut, delimited, behind_skip hcolon, ← delimited,
      behind_value hname (m.behindValue.guarded h), delimited, behind_skip m.behindValue.unquoted]
  rw [JsonMember.chars, delimited, behind_skip m.before.unquoted, ← delimited,
    behind_run (name_unquoted hname) hkey, behind_closing hname hbinding, hvalue]

end Search

/-! ## What is read there -/

/-- One turn of `json_string`, with the text behind the quoted name. -/
def jsonTaken (needle : Text) (turns : Nat) (rest : Text) : Option Text :=
  match rest.dropWhile isSpace with
  | 58 :: value =>
      match value.dropWhile isSpace with
      | 34 :: characters => jsonCharacters characters
      | _ => none
  | _ => jsonSearch needle turns rest

theorem jsonSearch_succ (needle : Text) (turns : Nat) (s : Text) :
    jsonSearch needle (turns + 1) s = (behind needle s).bind (jsonTaken needle turns) := by
  rw [jsonSearch, behind]
  cases findText needle s <;> rfl

/-- The turns depend on where the name is found, and on nothing before. -/
theorem jsonSearch_congr {needle s t : Text} (h : behind needle s = behind needle t) (turns : Nat) :
    jsonSearch needle turns s = jsonSearch needle turns t := by
  cases turns with
  | zero => rfl
  | succ turns => rw [jsonSearch_succ, jsonSearch_succ, h]

theorem Blank.dropWhile (b : Blank) {c : UInt8} (hc : isSpace c = false) (rest : Text) :
    (b.chars ++ c :: rest).dropWhile isSpace = c :: rest :=
  (takeWhile_append_of_all b.space (by
    rintro _ ⟨⟩
    exact hc)).2

/-- The characters of a string up to the quote that ends it. -/
theorem jsonCharacters_pieces (pieces : List Piece) (rest : Text) :
    jsonCharacters (pieces.flatMap Piece.chars ++ 34 :: rest) = pieces.mapM Piece.decoded := by
  induction pieces with
  | nil => cases rest <;> rfl
  | cons p ps ih =>
      obtain ⟨d, more, hmore⟩ : ∃ d more, ps.flatMap Piece.chars ++ 34 :: rest = d :: more :=
        List.exists_cons_of_ne_nil (by simp)
      rw [List.flatMap_cons, List.append_assoc, List.mapM_cons]
      cases p with
      | plain c quote backslash =>
          have hread : jsonCharacters (c :: d :: more) = (jsonCharacters (d :: more)).map (c :: ·) := by
            rw [jsonCharacters, if_neg quote, if_neg backslash]
          show jsonCharacters (c :: (ps.flatMap Piece.chars ++ 34 :: rest)) = _
          rw [hmore, hread, ← hmore, ih]
          cases ps.mapM Piece.decoded <;> rfl
      | escaped c known =>
          show jsonCharacters (92 :: c :: (ps.flatMap Piece.chars ++ 34 :: rest)) = _
          rw [jsonCharacters, if_neg (by decide), if_pos rfl, ih]
          rfl
      | unicode digits four hexadecimal =>
          show jsonCharacters (92 :: 117 :: (digits ++ (ps.flatMap Piece.chars ++ 34 :: rest))) = _
          rw [jsonCharacters, if_neg (by decide), if_pos rfl]
          rfl

theorem isDigit_bare {c : UInt8} (h : isDigit c = true) : isSpace c = false ∧ c ≠ 34 := by
  simp only [isDigit, Bool.and_eq_true, decide_eq_true_eq, UInt8.le_iff_toNat_le] at h
  have hlow : 48 ≤ c.toNat := h.1
  constructor
  · rw [Bool.eq_false_iff]
    intro hs
    simp only [isSpace, Bool.or_eq_true, beq_iff_eq, Bool.and_eq_true, decide_eq_true_eq,
      UInt8.le_iff_toNat_le] at hs
    rcases hs with rfl | ⟨-, hs⟩
    · exact absurd hlow (by decide)
    · exact absurd (Nat.le_trans hlow hs) (by decide)
  · rintro rfl
    exact absurd hlow (by decide)

/-- A value that is not a string begins with neither a space nor a quote. -/
theorem FlatValue.bare {v : FlatValue} (h : v.lastRun = none) :
    ∃ x xs, v.chars = x :: xs ∧ isSpace x = false ∧ x ≠ 34 := by
  cases v with
  | string pieces => cases h
  | number n =>
      obtain ⟨d, ds, hd⟩ := List.exists_cons_of_ne_nil n.whole_ne_nil
      cases hn : n.negative with
      | true =>
          refine ⟨45, n.whole ++ (n.fraction ++ n.exponent), ?_, by decide, by decide⟩
          simp [FlatValue.chars, JsonNumber.chars, hn]
      | false =>
          refine ⟨d, ds ++ (n.fraction ++ n.exponent), ?_,
            isDigit_bare (n.whole_digits d (by simp [hd]))⟩
          simp [FlatValue.chars, JsonNumber.chars, hn, hd]
  | boolean b =>
      cases b with
      | true => exact ⟨116, text "rue", by decide, by decide, by decide⟩
      | false => exact ⟨102, text "alse", by decide, by decide, by decide⟩
  | null => exact ⟨110, text "ull", by decide, by decide, by decide⟩

/-- The quoted name of a member: its value decides. -/
theorem jsonTaken_binding (needle : Text) (turns : Nat) (m : JsonMember) (rest : Text) :
    jsonTaken needle turns (m.binding rest) = m.value.decoded := by
  have hcolon : (m.binding rest).dropWhile isSpace = 58 ::
      (m.beforeValue.chars ++ (m.value.chars ++ (m.behindValue.chars ++ rest))) :=
    m.behindName.dropWhile (by decide) _
  rw [jsonTaken, hcolon]
  cases hrun : m.value.lastRun with
  | none =>
      obtain ⟨x, xs, hchars, hspace, hquote⟩ := FlatValue.bare hrun
      have hskip := m.beforeValue.dropWhile hspace (xs ++ (m.behindValue.chars ++ rest))
      have hnone : m.value.decoded = none := by
        cases hv : m.value with
        | string pieces =>
            rw [hv] at hrun
            cases hrun
        | number n => rfl
        | boolean b => rfl
        | null => rfl
      simp only [hchars, List.cons_append, hskip, hnone]
      split
      · rename_i heq
        exact absurd (List.cons.inj heq).1 hquote
      · rfl
  | some run =>
      cases hv : m.value with
      | string pieces =>
          have hskip := @Blank.dropWhile m.beforeValue 34 (by decide)
            (pieces.flatMap Piece.chars ++ 34 :: (m.behindValue.chars ++ rest))
          have hchars : (FlatValue.string pieces).chars ++ (m.behindValue.chars ++ rest) =
              34 :: (pieces.flatMap Piece.chars ++ 34 :: (m.behindValue.chars ++ rest)) := by
            simp [FlatValue.chars]
          simp only [hchars, hskip]
          exact jsonCharacters_pieces pieces _
      | number n => rw [hv] at hrun; cases hrun
      | boolean b => rw [hv] at hrun; cases hrun
      | null => rw [hv] at hrun; cases hrun

/-- Behind a value stands no colon, and the search goes on. -/
theorem jsonTaken_behindValue (needle : Text) (turns : Nat) (b : Blank) (rest : Text)
    (ms : List JsonMember) :
    jsonTaken needle turns (b.chars ++ moreMembers rest ms) =
      jsonSearch needle turns (b.chars ++ moreMembers rest ms) := by
  cases ms with
  | nil =>
      rw [jsonTaken, moreMembers, b.dropWhile (by decide)]
      rfl
  | cons m ms =>
      rw [jsonTaken, moreMembers, b.dropWhile (by decide)]
      rfl

theorem quotedName (name : Text) : text "\"" ++ name ++ text "\"" = delimited 34 name := by
  have hquote : text "\"" = [34] := by decide
  rw [hquote, delimited, List.singleton_append, List.cons_append]

section Members

variable {name : Text} (hname : ∀ c ∈ name, isWordChar c = true)

include hname

/-- The search goes from member to member. -/
theorem jsonSearch_member {rest : Text} {m : JsonMember} {ms : List JsonMember} {turns : Nat}
    (ih : ∀ turns, (moreMembers rest ms).length < turns →
      jsonSearch (delimited 34 name) turns (moreMembers rest ms) =
        (firstValue name ms).bind FlatValue.decoded)
    (hturns : (m.chars (moreMembers rest ms)).length < turns) :
    jsonSearch (delimited 34 name) turns (m.chars (moreMembers rest ms)) =
      (firstValue name (m :: ms)).bind FlatValue.decoded := by
  obtain ⟨turns, rfl⟩ := Nat.exists_eq_succ_of_ne_zero (Nat.ne_of_gt (Nat.zero_lt_of_lt hturns))
  have hlen : (moreMembers rest ms).length < turns := by
    have hchars : (moreMembers rest ms).length + 1 ≤ (m.chars (moreMembers rest ms)).length := by
      simp only [JsonMember.chars, JsonMember.binding, List.length_append, List.length_cons]
      omega
    omega
  have hmember := behind_member hname (guarded_moreMembers rest ms) m
  by_cases hkey : m.name = name
  · rw [if_pos hkey] at hmember
    rw [jsonSearch_succ, hmember, Option.bind_some, jsonTaken_binding]
    simp [firstValue, hkey]
  · rw [if_neg hkey] at hmember
    have hfirst : firstValue name (m :: ms) = firstValue name ms := by simp [firstValue, hkey]
    rw [hfirst]
    split at hmember
    · rw [jsonSearch_succ, hmember, Option.bind_some, jsonTaken_behindValue, ← ih turns hlen]
      exact jsonSearch_congr (behind_skip m.behindValue.unquoted _) turns
    · rw [jsonSearch_congr hmember]
      exact ih (turns + 1) (by omega)

theorem jsonSearch_moreMembers {rest : Text} (hrest : (34 : UInt8) ∉ rest) (ms : List JsonMember) :
    ∀ turns, (moreMembers rest ms).length < turns →
      jsonSearch (delimited 34 name) turns (moreMembers rest ms) =
        (firstValue name ms).bind FlatValue.decoded := by
  induction ms with
  | nil =>
      intro turns hturns
      obtain ⟨turns, rfl⟩ := Nat.exists_eq_succ_of_ne_zero (Nat.ne_of_gt (Nat.zero_lt_of_lt hturns))
      have hnone : behind (delimited 34 name) (moreMembers rest []) = none :=
        behind_none (by simpa [moreMembers] using hrest)
      rw [jsonSearch_succ, hnone]
      rfl
  | cons m ms ih =>
      intro turns hturns
      have hcomma : behind (delimited 34 name) (moreMembers rest (m :: ms)) =
          behind (delimited 34 name) (m.chars (moreMembers rest ms)) :=
        @behind_skip 34 (name ++ [34]) [44] (by decide) _
      rw [jsonSearch_congr hcomma]
      apply jsonSearch_member hname ih
      rw [moreMembers, List.length_cons] at hturns
      omega

end Members

/-- Nothing is found before the members. -/
theorem behind_object (o : FlatObject) (name : Text) :
    behind (delimited 34 name) o.toText = behind (delimited 34 name) o.body := by
  have hopen : (34 : UInt8) ∉ o.before.chars ++ [123] := by
    rw [List.mem_append, not_or]
    exact ⟨o.before.unquoted, by decide⟩
  have hcut : o.toText = (o.before.chars ++ [123]) ++ o.body := by simp [FlatObject.toText]
  rw [hcut]
  exact behind_skip hopen o.body

/-- `json_string` reads the first member of the name: a string without `\u` escapes is decoded, and
any other value, like a missing member, gives nothing. -/
theorem jsonString_flat (o : FlatObject) (name : Text) (hname : ∀ c ∈ name, isWordChar c = true) :
    jsonString o.toText name = (firstValue name o.members).bind FlatValue.decoded := by
  rw [jsonString, quotedName, jsonSearch_congr (behind_object o name)]
  have hlen : o.body.length < o.toText.length + 1 := by
    simp only [FlatObject.toText, List.length_append, List.length_cons]
    omega
  generalize o.toText.length + 1 = turns at hlen
  unfold FlatObject.body at hlen ⊢
  cases hms : o.members with
  | nil =>
      rw [hms] at hlen
      obtain ⟨turns, rfl⟩ := Nat.exists_eq_succ_of_ne_zero (Nat.ne_of_gt (Nat.zero_lt_of_lt hlen))
      have hnone : behind (delimited 34 name) (o.inside.chars ++ 125 :: o.behind.chars) = none := by
        apply behind_none
        rw [List.mem_append, List.mem_cons, not_or, not_or]
        exact ⟨o.inside.unquoted, by decide, o.behind.unquoted⟩
      rw [jsonSearch_succ, hnone]
      rfl
  | cons m ms =>
      rw [hms] at hlen
      exact jsonSearch_member hname (jsonSearch_moreMembers hname o.behind.unquoted ms) hlen

/-- No white space. -/
def noBlank : Blank := ⟨[], by decide +kernel⟩

/-- Characters that stand for themselves. -/
def plainPieces (s : Text) (plain : ∀ c ∈ s, c ≠ 34 ∧ c ≠ 92) : List Piece :=
  s.attach.map fun c => .plain c.1 (plain c.1 c.2).1 (plain c.1 c.2).2

/-- A member without white space. -/
def bareMember (name : Text) (value : FlatValue) (plain : ∀ c ∈ name, c ≠ 34 ∧ c ≠ 92) :
    JsonMember where
  before := noBlank
  name := name
  behindName := noBlank
  beforeValue := noBlank
  value := value
  behindValue := noBlank
  name_plain := plain

/-- An object whose first value ends in a quote and the name of its second member. -/
def quotingObject : FlatObject where
  before := noBlank
  inside := noBlank
  members :=
    [bareMember (text "note") (.string (plainPieces (text "a") (by decide +kernel) ++
        .escaped 34 (by decide) :: plainPieces (text "token") (by decide +kernel))) (by decide +kernel),
     bareMember (text "token") (.string (plainPieces (text "t") (by decide +kernel) ++
        .escaped 47 (by decide) :: plainPieces (text "1") (by decide +kernel))) (by decide +kernel)]
  behind := noBlank

theorem jsonString_flat_quoting :
    (∀ c ∈ text "token", isWordChar c = true) ∧
      quotingObject.toText = text "\x7b\"note\":\"a\\\"token\",\"token\":\"t\\/1\"\x7d" ∧
      jsonString quotingObject.toText (text "token") = some (text "t/1") := by
  refine ⟨by decide +kernel, by decide +kernel, ?_⟩
  rw [jsonString_flat quotingObject (text "token") (by decide +kernel)]
  decide +kernel

end Backends

end Karu
