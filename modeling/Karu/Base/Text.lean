/-
# `Karu.Base.Text` — byte strings, and the C++ conversions they go through

A `std::string` or `std::string_view` is a list of octets.  This module has
the handful of library operations the development reads text with: searching,
ASCII case folding, `std::from_chars` for the two integer types in use, and
`std::to_string` for an unsigned number.

`fromChars` and `fromCharsLong` report what the C++ call reports: the number
and the text that is left, or nothing when no digit is found or the number
does not fit.  In the second case the C++ call leaves its output untouched,
which is the callers' business, not this module's.
-/
import Karu.Base.Word

namespace Base

abbrev Text := List UInt8

/-- A literal, octet by octet.  Only ASCII literals are ever written here. -/
def text (s : String) : Text := s.toList.map Char.toUInt8

/-- Reading a literal off its characters; evaluating `toList` would decode it again. -/
theorem text_ofList (cs : List Char) : text (String.ofList cs) = cs.map Char.toUInt8 := by
  rw [text, String.toList_ofList]

theorem not_mem_text {c : UInt8} {cs : List Char} (h : c ∉ cs.map Char.toUInt8) :
    c ∉ text (String.ofList cs) := by
  rwa [text_ofList]

/-- `value >= 'A' && value <= 'Z' ? value + ('a' - 'A') : value`. -/
def asciiLower (c : UInt8) : UInt8 := if 65 ≤ c && c ≤ 90 then c + 32 else c

/-- `find(c, from)`: position of the first occurrence at or after `start`. -/
def find (c : UInt8) (s : Text) (start : Nat := 0) : Option Nat :=
  ((s.drop start).findIdx? (· == c)).map (· + start)

/-- `rfind(c)`: position of the last occurrence. -/
def rfind (c : UInt8) (s : Text) : Option Nat :=
  (s.reverse.findIdx? (· == c)).map (s.length - 1 - ·)

/-- `find_first_of(set, from)`. -/
def findFirstOf (set s : Text) (start : Nat := 0) : Option Nat :=
  ((s.drop start).findIdx? (set.contains ·)).map (· + start)

/-- `find(pattern)`. -/
def findText (pattern : Text) : Text → Option Nat
  | [] => if pattern.isEmpty then some 0 else none
  | c :: cs =>
      if pattern.isPrefixOf (c :: cs) then some 0 else (findText pattern cs).map (· + 1)

/-- Where a pattern is found. -/
theorem findText_split {p : Text} : ∀ {s : Text} {k : Nat}, findText p s = some k →
    s = s.take k ++ p ++ s.drop (k + p.length)
  | [], k, h => by
      rw [findText] at h
      split at h
      · rename_i hp
        cases h
        rw [List.isEmpty_iff.mp hp]
        rfl
      · cases h
  | c :: cs, k, h => by
      rw [findText] at h
      split at h
      · rename_i hp
        cases h
        obtain ⟨rest, hrest⟩ := List.isPrefixOf_iff_prefix.mp hp
        rw [← hrest]
        simp
      · rw [Option.map_eq_some_iff] at h
        obtain ⟨j, hj, rfl⟩ := h
        have hcut := findText_split hj
        rw [List.take_succ_cons, Nat.add_right_comm, List.drop_succ_cons, List.cons_append,
          List.cons_append, ← hcut]

/-- A pattern is not found before its first character. -/
theorem findText_append {c : UInt8} {cs : Text} (rest : Text) :
    ∀ {xs : Text}, c ∉ xs → findText (c :: cs) (xs ++ ((c :: cs) ++ rest)) = some xs.length
  | [], _ => by
      have hp : (c :: cs).isPrefixOf ((c :: cs) ++ rest) = true :=
        List.isPrefixOf_iff_prefix.mpr ⟨rest, rfl⟩
      rw [List.nil_append, List.cons_append, findText, ← List.cons_append, hp]
      rfl
  | x :: xs, h => by
      rw [List.mem_cons, not_or] at h
      have hne : (c == x) = false := by simpa using h.1
      have hp : (c :: cs).isPrefixOf (x :: (xs ++ ((c :: cs) ++ rest))) = false := by
        rw [List.isPrefixOf, hne, Bool.false_and]
      rw [List.cons_append, findText, hp, findText_append rest h.2]
      rfl

/-! ## Cutting a text at a character -/

theorem find_append {c : UInt8} {xs : Text} (ys : Text) (h : c ∉ xs) :
    find c (xs ++ c :: ys) = some xs.length := by
  have hidx : (xs ++ c :: ys).findIdx? (· == c) = some xs.length := by
    induction xs with
    | nil => simp [List.findIdx?_cons]
    | cons x xs ih =>
        have hx : (x == c) = false := by
          simp only [List.mem_cons, not_or] at h
          simpa using Ne.symm h.1
        rw [List.cons_append, List.findIdx?_cons, hx,
          ih fun hc => h (List.mem_cons_of_mem _ hc)]
        simp
  simp [find, hidx]

theorem find_eq_none {c : UInt8} {xs : Text} (h : c ∉ xs) : find c xs = none := by
  have hidx : xs.findIdx? (· == c) = none := by
    rw [List.findIdx?_eq_none_iff]
    intro x hx
    have : x ≠ c := fun hc => h (hc ▸ hx)
    simpa using this
  simp [find, hidx]

theorem find_none {c : UInt8} {s : Text} (h : find c s = none) : c ∉ s := by
  simp only [find, List.drop_zero, Nat.add_zero, Option.map_id_fun', id_eq,
    List.findIdx?_eq_none_iff] at h
  intro hmem
  simpa using h c hmem

theorem find_split {c : UInt8} {s : Text} {k : Nat} (h : find c s = some k) :
    s = s.take k ++ c :: s.drop (k + 1) ∧ c ∉ s.take k := by
  simp only [find, List.drop_zero, Nat.add_zero, Option.map_id_fun', id_eq] at h
  obtain ⟨hlt, hget, hbefore⟩ := List.findIdx?_eq_some_iff_getElem.mp h
  rw [beq_iff_eq] at hget
  refine ⟨?_, fun hmem => ?_⟩
  · rw [← hget, ← List.drop_eq_getElem_cons hlt, List.take_append_drop]
  · obtain ⟨i, hi, hc⟩ := List.getElem_of_mem hmem
    rw [List.length_take] at hi
    rw [List.getElem_take] at hc
    exact hbefore i (by omega) (by simp [hc])

theorem find_drop {c : UInt8} {s : Text} {k : Nat} (h : find c s = some k) :
    s.drop k = c :: s.drop (k + 1) := by
  simp only [find, List.drop_zero, Nat.add_zero, Option.map_id_fun', id_eq] at h
  obtain ⟨hlt, hget, -⟩ := List.findIdx?_eq_some_iff_getElem.mp h
  rw [beq_iff_eq] at hget
  rw [List.drop_eq_getElem_cons hlt, hget]

theorem find_from (c : UInt8) (s : Text) (start : Nat) :
    find c s start = (find c (s.drop start)).map (· + start) := by
  simp [find]

theorem findFirstOf_from (set s : Text) (start : Nat) :
    findFirstOf set s start = (findFirstOf set (s.drop start)).map (· + start) := by
  simp [findFirstOf]

theorem find_append_ge {c : UInt8} {xs ys : Text} {k : Nat} (hx : c ∉ xs)
    (h : find c (xs ++ ys) = some k) : xs.length ≤ k := by
  simp only [find, List.drop_zero, Nat.add_zero, Option.map_id_fun', id_eq] at h
  obtain ⟨_, hget, -⟩ := List.findIdx?_eq_some_iff_getElem.mp h
  by_contra hnot
  have hk : k < xs.length := Nat.lt_of_not_le hnot
  rw [List.getElem_append_left hk, beq_iff_eq] at hget
  apply hx
  rw [← hget]
  exact List.getElem_mem hk

theorem findFirstOf_append {set xs : Text} (h : ∀ c ∈ xs, c ∉ set) (ys : Text) :
    findFirstOf set (xs ++ ys) = (findFirstOf set ys).map (· + xs.length) := by
  induction xs with
  | nil => simp
  | cons x xs ih =>
      have hx : set.contains x = false := by
        simpa using h x List.mem_cons_self
      have hrest := ih fun c hc => h c (List.mem_cons_of_mem x hc)
      simp only [findFirstOf, List.drop_zero, Nat.add_zero, Option.map_id_fun', id_eq] at hrest ⊢
      rw [List.cons_append, List.findIdx?_cons, hx, hrest]
      simp [Function.comp_def, Nat.add_assoc]

theorem rfind_append {c : UInt8} (xs : Text) {ys : Text} (h : c ∉ ys) :
    rfind c (xs ++ c :: ys) = some xs.length := by
  have hback : find c (ys.reverse ++ c :: xs.reverse) = some ys.reverse.length :=
    find_append xs.reverse (by simpa using h)
  have hidx : (ys.reverse ++ c :: xs.reverse).findIdx? (· == c) = some ys.length := by
    simpa [find] using hback
  have hrev : (xs ++ c :: ys).reverse = ys.reverse ++ c :: xs.reverse := by simp
  rw [rfind, hrev, hidx]
  simp only [Option.map_some, List.length_append, List.length_cons]
  congr 1
  omega

@[simp] theorem take_before (c : UInt8) (xs ys : Text) : (xs ++ c :: ys).take xs.length = xs := by
  simp

@[simp] theorem drop_behind (c : UInt8) (xs ys : Text) :
    (xs ++ c :: ys).drop (xs.length + 1) = ys := by
  simp

/-- Two texts cut at the same separator: cut at the same place, or one of them reaches over the
first separator of the other. -/
theorem append_cons_eq_append_cons {c : UInt8} {xs ys r s : Text}
    (h : xs ++ c :: r = ys ++ c :: s) :
    xs = ys ∨ (∃ z, ys = xs ++ c :: z ∧ r = z ++ c :: s) ∨
      (∃ z, xs = ys ++ c :: z ∧ s = z ++ c :: r) := by
  rcases List.append_eq_append_iff.mp h with ⟨d, hy, hr⟩ | ⟨d, hx, hs⟩
  · cases d with
    | nil => exact .inl (by simpa using hy.symm)
    | cons e z =>
        rw [List.cons_append, List.cons.injEq] at hr
        exact .inr (.inl ⟨z, by rw [hy, hr.1], hr.2⟩)
  · cases d with
    | nil => exact .inl (by simpa using hx)
    | cons e z =>
        rw [List.cons_append, List.cons.injEq] at hs
        exact .inr (.inr ⟨z, by rw [hx, hs.1], hs.2⟩)

/-- A text without the separator is not cut by it. -/
theorem eq_append_of_append_cons {c : UInt8} {xs r z s : Text} (hc : c ∉ xs)
    (h : xs ++ r = z ++ c :: s) : ∃ w, z = xs ++ w ∧ r = w ++ c :: s := by
  rcases List.append_eq_append_iff.mp h with ⟨w, hz, hr⟩ | ⟨w, hx, hs⟩
  · exact ⟨w, hz, hr⟩
  · cases w with
    | nil => exact ⟨[], by simpa using hx.symm, by simpa using hs.symm⟩
    | cons e w =>
        rw [List.cons_append, List.cons.injEq] at hs
        exact (hc (by rw [hx, hs.1]; simp)).elim

/-! ## Numbers -/

def isDigit (c : UInt8) : Bool := 48 ≤ c && c ≤ 57

/-- The number a run of decimal digits denotes, continuing from `acc`. -/
def digitsFrom (acc : Nat) (ds : Text) : Nat := ds.foldl (fun n c => 10 * n + (c.toNat - 48)) acc

def digitsValue (ds : Text) : Nat := digitsFrom 0 ds

/-- `std::from_chars` into a `std::uint64_t`: the number and the unread rest. -/
def fromChars (s : Text) : Option (Nat × Text) :=
  let ds := s.takeWhile isDigit
  if ds.isEmpty then none
  else if digitsValue ds < 2 ^ 64 then some (digitsValue ds, s.dropWhile isDigit)
  else none

/-- `std::from_chars` into a `long`: an optional minus sign, then digits. -/
def fromCharsLong (s : Text) : Option (Int × Text) :=
  let negative := s.head? == some 45
  let body := if negative then s.tail else s
  let ds := body.takeWhile isDigit
  if ds.isEmpty then none
  else
    let value : Int := if negative then -(digitsValue ds : Int) else digitsValue ds
    if -(2 ^ 63) ≤ value ∧ value < 2 ^ 63 then some (value, body.dropWhile isDigit) else none

/-- `std::to_string` of an unsigned number. -/
def decimal (n : Nat) : Text := (Nat.toDigits 10 n).map Char.toUInt8

/-! ## Reading back what was written -/

theorem digitsFrom_append (acc : Nat) (xs ys : Text) :
    digitsFrom acc (xs ++ ys) = digitsFrom (digitsFrom acc xs) ys := by
  simp [digitsFrom]

theorem decimal_digit : ∀ n, n < 10 → decimal n = [UInt8.ofNat (48 + n)] := by
  decide

theorem decimal_step {n : Nat} (h : 10 ≤ n) :
    decimal n = decimal (n / 10) ++ decimal (n % 10) := by
  have hd : n % 10 < 10 := Nat.mod_lt _ (by omega)
  simp only [decimal, Nat.toDigits_of_base_le (by omega) h, Nat.toDigits_of_lt_base hd,
    List.map_append]

theorem isDigit_ofNat : ∀ d, d < 10 → isDigit (UInt8.ofNat (48 + d)) = true := by
  decide

theorem decimal_ne_nil (n : Nat) : decimal n ≠ [] := by
  simp [decimal, Nat.toDigits_ne_nil]

theorem isDigit_of_mem_decimal (n : Nat) : ∀ c ∈ decimal n, isDigit c = true := by
  induction n using Nat.strongRecOn with
  | ind n ih =>
      intro c hc
      by_cases h : n < 10
      · rw [decimal_digit n h, List.mem_singleton] at hc
        exact hc ▸ isDigit_ofNat n h
      · rw [decimal_step (by omega), List.mem_append] at hc
        rcases hc with hc | hc
        · exact ih (n / 10) (by omega) c hc
        · exact ih (n % 10) (by omega) c hc

/-- Reading a single digit shifts the accumulator by one place. -/
theorem digitsFrom_decimal_digit (acc : Nat) {d : Nat} (hd : d < 10) :
    digitsFrom acc (decimal d) = 10 * acc + d := by
  have hv : (UInt8.ofNat (48 + d)).toNat = 48 + d := by
    rw [UInt8.toNat_ofNat']
    omega
  simp only [decimal_digit d hd, digitsFrom, List.foldl_cons, List.foldl_nil, hv]
  omega

theorem digitsValue_decimal (n : Nat) : digitsValue (decimal n) = n := by
  induction n using Nat.strongRecOn with
  | ind n ih =>
      by_cases h : n < 10
      · rw [digitsValue, digitsFrom_decimal_digit 0 h]
        omega
      · have hq : digitsFrom 0 (decimal (n / 10)) = n / 10 := ih (n / 10) (by omega)
        rw [digitsValue, decimal_step (by omega), digitsFrom_append, hq,
          digitsFrom_decimal_digit _ (Nat.mod_lt n (by omega))]
        omega

theorem takeWhile_append_of_all {p : UInt8 → Bool} {xs ys : Text} (hx : ∀ c ∈ xs, p c = true)
    (hy : ∀ c ∈ ys.head?, p c = false) :
    (xs ++ ys).takeWhile p = xs ∧ (xs ++ ys).dropWhile p = ys := by
  induction xs with
  | nil =>
      cases ys with
      | nil => exact ⟨rfl, rfl⟩
      | cons c cs =>
          have hc : p c = false := hy c rfl
          simp [hc]
  | cons c cs ih =>
      have hc : p c = true := hx c List.mem_cons_self
      obtain ⟨ht, hd⟩ := ih (fun c h => hx c (List.mem_cons_of_mem _ h))
      simp [hc, ht, hd]

/-- A run of digits that fits is read in full, up to the first non-digit. -/
theorem fromChars_append {ds rest : Text} (hne : ds ≠ []) (hd : ∀ c ∈ ds, isDigit c = true)
    (hr : ∀ c ∈ rest.head?, isDigit c = false) (hlt : digitsValue ds < 2 ^ 64) :
    fromChars (ds ++ rest) = some (digitsValue ds, rest) := by
  obtain ⟨ht, hd⟩ := takeWhile_append_of_all hd hr
  have hempty : ¬ ds.isEmpty = true := by simpa using hne
  simp only [fromChars, ht, hd]
  rw [if_neg hempty, if_pos hlt]

/-- The same for a `long`; a run of digits has no sign. -/
theorem fromCharsLong_append {ds rest : Text} (hne : ds ≠ []) (hd : ∀ c ∈ ds, isDigit c = true)
    (hr : ∀ c ∈ rest.head?, isDigit c = false) (hlt : digitsValue ds < 2 ^ 63) :
    fromCharsLong (ds ++ rest) = some ((digitsValue ds : Int), rest) := by
  obtain ⟨d, tail, rfl⟩ := List.exists_cons_of_ne_nil hne
  have hsign : ((d :: tail ++ rest).head? == some 45) = false := by
    have h : isDigit d = true := hd d List.mem_cons_self
    have hne : d ≠ 45 := by
      rintro rfl
      exact absurd h (by decide)
    simpa using hne
  obtain ⟨ht, hd⟩ := takeWhile_append_of_all hd hr
  have hrange : -(2 ^ 63) ≤ (digitsValue (d :: tail) : Int) ∧
      (digitsValue (d :: tail) : Int) < 2 ^ 63 := by omega
  simp only [fromCharsLong, hsign, Bool.false_eq_true, if_false, ht, hd, List.isEmpty_cons]
  rw [if_pos hrange]

theorem fromChars_lt {s rest : Text} {n : Nat} (h : fromChars s = some (n, rest)) :
    n < 2 ^ 64 := by
  simp only [fromChars] at h
  split at h
  · cases h
  · split at h
    · rename_i hlt
      cases h
      exact hlt
    · cases h

/-! ## Errors -/

theorem forM_ok_iff {ε α : Type} {f : α → Except ε PUnit} {l : List α} :
    l.forM f = .ok ⟨⟩ ↔ ∀ a ∈ l, f a = .ok ⟨⟩ := by
  induction l with
  | nil => simp [pure, Except.pure]
  | cons a l ih =>
      rw [List.forM, List.forall_mem_cons, ← ih]
      cases ha : f a with
      | error e => simp [bind, Except.bind]
      | ok _ => simp [bind, Except.bind]

theorem ok_of_bind {ε α γ : Type} {x : Except ε α} {f : α → Except ε γ} {c : γ}
    (h : x >>= f = .ok c) : ∃ a, x = .ok a ∧ f a = .ok c := by
  cases x with
  | error e => cases h
  | ok a => exact ⟨a, rfl, h⟩

end Base
