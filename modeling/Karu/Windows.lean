/-
# `Karu.Windows` — nested windows compose

A URI is a chain of `/vsisubfile/OFFSET[_LENGTH],` wrappers around a terminal
address, which may end in a `#bytes=FIRST-[LAST]` fragment.  Each of them
cuts a slice out of what it wraps, and `resolve` makes one window of them all.

`resolve_window` says that this window is the composition of the slices, and
that a chain around an acceptable address is refused for no other reason than
its depth, its offsets or its fragment.  The same number stands for a length of
`2 ^ 64 - 1` and for "to the end"; on an object shorter than that it makes no
difference.
-/
import Mathlib.Data.List.Find
import Mathlib.Data.List.TakeWhile
import Karu.Objects

namespace Karu

open Base

namespace Uri

variable {β : Type}

/-! ## Spellings -/

/-- A number as it is written: digits that `parse_u64` reads. -/
structure Numeral where
  digits : Text
  value : Word
  parsed : parseU64 digits = .ok value

/-- `LENGTH`: not there, negative, or a number. -/
inductive Extent where
  | none
  | negative (n : Numeral)
  | bounded (n : Numeral)

/-- The text between the offset and the comma. -/
def Extent.spelled : Extent → Text
  | .none => []
  | .negative n => 95 :: 45 :: n.digits
  | .bounded n => 95 :: n.digits

/-- The length as `resolve_impl` reads it. -/
def Extent.length : Extent → Word
  | .none => ⟨toEnd, toEnd_lt⟩
  | .negative _ => ⟨toEnd, toEnd_lt⟩
  | .bounded n => n.value

/-- What is left of a list. -/
def Extent.cut (xs : List β) : Extent → List β
  | .none => xs
  | .negative _ => xs
  | .bounded n => xs.take n.value.1

structure Wrapper where
  offset : Numeral
  extent : Extent

def Wrapper.spelled (w : Wrapper) : Text :=
  vsiSubfile ++ (w.offset.digits ++ w.extent.spelled ++ [44])

/-- The slice a wrapper shows of what it wraps. -/
def Wrapper.slice (w : Wrapper) (xs : List β) : List β :=
  w.extent.cut (xs.drop w.offset.value.1)

/-- A `#bytes=` fragment, or none. -/
inductive Fragment where
  | none
  | from (first : Numeral)
  | range (first last : Numeral)

def Fragment.spelled : Fragment → Text
  | .none => []
  | .from first => bytesFragment ++ (first.digits ++ [45])
  | .range first last => bytesFragment ++ (first.digits ++ 45 :: last.digits)

/-- Where it begins. -/
def Fragment.first : Fragment → Nat
  | .none => 0
  | .from first => first.value.1
  | .range first _ => first.value.1

def Fragment.slice (xs : List β) : Fragment → List β
  | .none => xs
  | .from first => xs.drop first.value.1
  | .range first last => (xs.drop first.value.1).take (last.value.1 + 1 - first.value.1)

/-- It spans `2 ^ 64` bytes, or ends before it starts. -/
def Fragment.Impossible : Fragment → Prop
  | .none => False
  | .from _ => False
  | .range first last => last.value.1 < first.value.1 ∨ last.value.1 + 1 - first.value.1 = 2 ^ 64

/-- The text from the last `#` on begins a fragment. -/
def fragmented (uri : Text) : Bool :=
  match rfind 35 uri with
  | none => false
  | some hash => bytesFragment.isPrefixOf (uri.drop hash)

/-- A terminal address: no wrapper, and with no fragment but the one that is split off. -/
structure Address where
  base : Text
  fragment : Fragment
  unwrapped : vsiSubfile.isPrefixOf base = false
  bare : fragment = .none → fragmented base = false

def Address.spelled (a : Address) : Text := a.base ++ a.fragment.spelled

/-- Wrappers around an address, the outermost first. -/
def chain (ws : List Wrapper) (a : Address) : Text :=
  ws.foldr (fun w rest => w.spelled ++ rest) a.spelled

/-- The slices they cut, the innermost first. -/
def sliced (ws : List Wrapper) (a : Address) (object : List β) : List β :=
  ws.foldr Wrapper.slice (a.fragment.slice object)

/-- What is visible of the object through the window. -/
def view (r : Resolved) (object : List β) : List β :=
  if r.windowLength = toEnd then object.drop r.windowOffset
  else (object.drop r.windowOffset).take r.windowLength

/-- Where the window begins, if nothing overflows. -/
def offsets (ws : List Wrapper) (a : Address) : Nat :=
  a.fragment.first + (ws.map (·.offset.value.1)).sum

/-! ## Reading the spellings -/

theorem Numeral.isDigit_of_mem (n : Numeral) : ∀ c ∈ n.digits, isDigit c = true := by
  have h := n.parsed
  unfold parseU64 at h
  split at h
  · cases h
  · split at h
    · rename_i v hread
      unfold fromChars at hread
      simp only at hread
      split at hread
      · cases hread
      · split at hread
        · simp only [Option.some.injEq, Prod.mk.injEq, List.dropWhile_eq_nil_iff] at hread
          exact hread.2
        · cases hread
    · cases h

theorem Numeral.not_mem (n : Numeral) {c : UInt8} (h : isDigit c = false) : c ∉ n.digits :=
  fun hc => absurd (n.isDigit_of_mem c hc) (by simp [h])

/-- The specification of a wrapper is read as it was meant. -/
theorem Wrapper.parseSpec_spelled (w : Wrapper) :
    parseSpec (w.offset.digits ++ w.extent.spelled) = .ok (w.offset.value, w.extent.length) := by
  have hbar : (95 : UInt8) ∉ w.offset.digits := w.offset.not_mem (by decide)
  have hoffset := w.offset.parsed
  cases hextent : w.extent with
  | none =>
      rw [Extent.spelled, List.append_nil, parseSpec, find_eq_none hbar, hoffset]
      rfl
  | negative n =>
      simp only [Extent.spelled, parseSpec, find_append _ hbar, take_before, drop_behind, hoffset,
        List.head?_cons, List.tail_cons, n.parsed, if_true]
      rfl
  | bounded n =>
      -- a run of digits has no sign
      have hsign : n.digits.head? ≠ some 45 := by
        intro h
        exact n.not_mem (c := 45) (by decide) (List.mem_of_mem_head? h)
      simp only [Extent.spelled, parseSpec, find_append _ hbar, take_before, drop_behind, hoffset,
        if_neg hsign, n.parsed]
      rfl

theorem Extent.not_mem_spelled (e : Extent) : (44 : UInt8) ∉ e.spelled := by
  cases e with
  | none => simp [Extent.spelled]
  | negative n => simp [Extent.spelled, n.not_mem (c := 44) (by decide)]
  | bounded n => simp [Extent.spelled, n.not_mem (c := 44) (by decide)]

/-- One wrapper. -/
theorem resolveImpl_wrapper (w : Wrapper) {rest : Text} (hrest : rest ≠ []) (left : Nat) :
    resolveImpl (left + 1) (w.spelled ++ rest) =
      (resolveImpl left rest).bind (applyWindow · w.offset.value w.extent.length) := by
  have hcomma : (44 : UInt8) ∉ w.offset.digits ++ w.extent.spelled := by
    simp [w.offset.not_mem (c := 44) (by decide), w.extent.not_mem_spelled]
  have hsplit : w.spelled ++ rest =
      vsiSubfile ++ ((w.offset.digits ++ w.extent.spelled) ++ 44 :: rest) := by
    simp [Wrapper.spelled]
  have hempty : (w.spelled ++ rest).isEmpty = false := by
    simp [Wrapper.spelled]
  have hwrapped : vsiSubfile.isPrefixOf (w.spelled ++ rest) = true := by
    rw [hsplit, List.isPrefixOf_iff_prefix]
    exact List.prefix_append _ _
  have hmore : rest.isEmpty = false := by simpa using hrest
  rw [resolveImpl, hempty, hwrapped, hsplit]
  simp only [Bool.false_eq_true, if_false, if_true, List.drop_left, find_append _ hcomma,
    take_before, drop_behind, hmore, w.parseSpec_spelled]
  rfl

/-- A wrapper of nothing. -/
theorem resolveImpl_hollow (w : Wrapper) (left : Nat) :
    ∃ e, resolveImpl (left + 1) w.spelled = .error e := by
  have hcomma : (44 : UInt8) ∉ w.offset.digits ++ w.extent.spelled := by
    simp [w.offset.not_mem (c := 44) (by decide), w.extent.not_mem_spelled]
  have hempty : w.spelled.isEmpty = false := by
    simp [Wrapper.spelled]
  have hwrapped : vsiSubfile.isPrefixOf w.spelled = true := by
    rw [Wrapper.spelled, List.isPrefixOf_iff_prefix]
    exact List.prefix_append _ _
  rw [resolveImpl, hempty, hwrapped]
  simp only [Bool.false_eq_true, if_false, if_true, Wrapper.spelled, List.drop_left,
    find_append _ hcomma, drop_behind, List.isEmpty_nil]
  exact ⟨_, rfl⟩

/-- One wrapper too many. -/
theorem resolveImpl_deep (w : Wrapper) (rest : Text) :
    ∃ e, resolveImpl 0 (w.spelled ++ rest) = .error e := by
  have hempty : (w.spelled ++ rest).isEmpty = false := by
    simp [Wrapper.spelled]
  have hwrapped : vsiSubfile.isPrefixOf (w.spelled ++ rest) = true := by
    rw [List.isPrefixOf_iff_prefix, Wrapper.spelled, List.append_assoc]
    exact List.prefix_append _ _
  rw [resolveImpl, hempty, hwrapped]
  exact ⟨_, rfl⟩

/-! ## Chains -/

/-- The windows of the wrappers, applied from the inside out. -/
def applyAll (ws : List Wrapper) (r : Except ResolveError Resolved) :
    Except ResolveError Resolved :=
  ws.foldr (fun w r => r.bind (applyWindow · w.offset.value w.extent.length)) r

/-- Text from a `#` on says nothing about how the text before it begins. -/
theorem isPrefixOf_append_hash {p : Text} (hp : (35 : UInt8) ∉ p) (xs ys : Text) :
    p.isPrefixOf (xs ++ 35 :: ys) = p.isPrefixOf xs := by
  rw [Bool.eq_iff_iff, List.isPrefixOf_iff_prefix, List.isPrefixOf_iff_prefix]
  constructor
  · intro h
    rcases List.prefix_or_prefix_of_prefix h (List.prefix_append xs (35 :: ys)) with hin | hover
    · exact hin
    · obtain ⟨zs, rfl⟩ := hover
      rw [List.prefix_append_right_inj] at h
      cases zs with
      | nil => simp
      | cons z zs =>
          obtain rfl : z = 35 := (by simpa using h : z = 35 ∧ zs <+: ys).1
          simp at hp
  · exact fun h => h.trans (List.prefix_append _ _)

theorem Fragment.spelled_cases (f : Fragment) :
    f = .none ∨ ∃ ys, f.spelled = 35 :: ys ∧ (35 : UInt8) ∉ ys := by
  have hbytes : (35 : UInt8) ∉ bytesFragment.tail := by decide
  cases f with
  | none => exact Or.inl rfl
  | «from» first =>
      refine Or.inr ⟨bytesFragment.tail ++ (first.digits ++ [45]), rfl, ?_⟩
      simp [hbytes, first.not_mem (c := 35) (by decide)]
  | range first last =>
      refine Or.inr ⟨bytesFragment.tail ++ (first.digits ++ 45 :: last.digits), rfl, ?_⟩
      simp [hbytes, first.not_mem (c := 35) (by decide), last.not_mem (c := 35) (by decide)]

theorem isPrefixOf_spelled {p : Text} (hp : (35 : UInt8) ∉ p) (xs : Text) (f : Fragment) :
    p.isPrefixOf (xs ++ f.spelled) = p.isPrefixOf xs := by
  rcases f.spelled_cases with rfl | ⟨ys, hys, -⟩
  · rw [Fragment.spelled, List.append_nil]
  · rw [hys, isPrefixOf_append_hash hp]

/-- A text with a `#` in it, cut at the last one. -/
theorem exists_last_hash {xs : Text} (h : (35 : UInt8) ∈ xs) :
    ∃ ys zs, xs = ys ++ 35 :: zs ∧ (35 : UInt8) ∉ zs := by
  obtain ⟨ys, zs, heq, hnot⟩ := List.eq_append_cons_of_mem (List.mem_reverse.mpr h)
  refine ⟨zs.reverse, ys.reverse, ?_, by simpa using hnot⟩
  rw [← List.reverse_reverse xs, heq]
  simp

theorem fragmented_append {p : Text} (hp : (35 : UInt8) ∉ p) (xs : Text) :
    fragmented (p ++ xs) = fragmented xs := by
  by_cases h : (35 : UInt8) ∈ xs
  · obtain ⟨ys, zs, rfl, hzs⟩ := exists_last_hash h
    rw [fragmented, fragmented, ← List.append_assoc, rfind_append _ hzs, rfind_append _ hzs]
    simp
  · have hnone : ∀ xs : Text, (35 : UInt8) ∉ xs → rfind 35 xs = none := by
      intro xs hxs
      have hfind : find 35 xs.reverse = none := find_eq_none (by simpa using hxs)
      simp only [find, List.drop_zero, Option.map_eq_none_iff] at hfind
      simp [rfind, hfind]
    rw [fragmented, fragmented, hnone _ h, hnone _ (by simp [hp, h])]

/-! ## Terminals -/

/-- The window a fragment is read as. -/
def Fragment.window : Fragment → Except ResolveError (Word × Word)
  | .none => .ok (⟨0, zero_lt_word⟩, ⟨toEnd, toEnd_lt⟩)
  | .from first => .ok (first.value, ⟨toEnd, toEnd_lt⟩)
  | .range first last => parseFragment (first.digits ++ 45 :: last.digits)

theorem takeBytesFragment_spelled (u : Text) (f : Fragment)
    (hbare : f = .none → fragmented u = false) :
    takeBytesFragment (u ++ f.spelled) = f.window.map fun w => (u, w) := by
  have hcut : ∀ rest : Text, (35 : UInt8) ∉ rest →
      takeBytesFragment (u ++ (bytesFragment ++ rest)) =
        (parseFragment rest).map fun w => (u, w) := by
    intro rest hrest
    have hlast : (35 : UInt8) ∉ bytesFragment.tail ++ rest := by
      have : (35 : UInt8) ∉ bytesFragment.tail := by decide
      simp [this, hrest]
    have hhash : rfind 35 (u ++ (bytesFragment ++ rest)) = some u.length :=
      rfind_append u hlast
    have hbytes : bytesFragment.isPrefixOf (bytesFragment ++ rest) = true := by
      rw [List.isPrefixOf_iff_prefix]
      exact List.prefix_append _ _
    rw [takeBytesFragment, hhash]
    simp only [List.drop_left, hbytes, Bool.not_true, Bool.false_eq_true, if_false,
      ← List.drop_drop, List.take_left]
    cases parseFragment rest <;> rfl
  cases f with
  | none =>
      have hnone := hbare rfl
      rw [Fragment.spelled, List.append_nil, takeBytesFragment]
      unfold fragmented at hnone
      split
      · rfl
      · rename_i hash hhash
        rw [hhash] at hnone
        simp only at hnone
        rw [hnone]
        rfl
  | «from» first =>
      have hdash : (45 : UInt8) ∉ first.digits := first.not_mem (by decide)
      rw [Fragment.spelled, hcut _ (by simp [first.not_mem (c := 35) (by decide)])]
      simp only [parseFragment, find_append _ hdash, take_before, drop_behind, first.parsed]
      rfl
  | range first last =>
      rw [Fragment.spelled, hcut _ (by
        simp [first.not_mem (c := 35) (by decide), last.not_mem (c := 35) (by decide)])]
      rfl

/-- The fragment that `parse_u64` can read is refused only where it is impossible. -/
theorem Fragment.window_cases (f : Fragment) :
    f.Impossible ∧ (∃ e, f.window = .error e) ∨
      ¬ f.Impossible ∧ ∃ w, f.window = .ok w ∧ w.1.1 = f.first ∧
        ∀ {β : Type} (xs : List β), xs.length < toEnd →
          (xs.drop w.1.1).take w.2.1 = f.slice xs := by
  have hall : ∀ {β : Type} (xs : List β) (n : Nat), xs.length < toEnd →
      (xs.drop n).take toEnd = xs.drop n := by
    intro β xs n hxs
    rw [List.take_of_length_le]
    rw [List.length_drop]
    omega
  cases f with
  | none => exact Or.inr ⟨id, _, rfl, rfl, fun xs hxs => (hall xs 0 hxs).trans List.drop_zero⟩
  | «from» first => exact Or.inr ⟨id, _, rfl, rfl, fun xs hxs => hall xs _ hxs⟩
  | range first last =>
      have hdash : (45 : UInt8) ∉ first.digits := first.not_mem (by decide)
      have hmore : last.digits.isEmpty = false := by
        have hparsed := last.parsed
        unfold parseU64 at hparsed
        split at hparsed
        · cases hparsed
        · rename_i hsome
          simpa using hsome
      have hwindow : (Fragment.range first last).window =
          if last.value.1 < first.value.1 then malformed "#bytes= ends before it starts"
          else if h : last.value.1 - first.value.1 = maxWord then
            malformed "#bytes= range is too large"
          else .ok (first.value, ⟨last.value.1 - first.value.1 + 1, by
            have := last.value.2
            rw [maxWord_eq] at h
            omega⟩) := by
        simp only [Fragment.window, parseFragment, find_append _ hdash, take_before, drop_behind,
          first.parsed, last.parsed, hmore]
        rfl
      have hfirst := first.value.2
      have hlast := last.value.2
      have himpossible : (Fragment.range first last).Impossible ↔
          last.value.1 < first.value.1 ∨ last.value.1 + 1 - first.value.1 = 2 ^ 64 := Iff.rfl
      rw [hwindow, himpossible]
      split
      · rename_i hlt
        exact Or.inl ⟨Or.inl hlt, _, rfl⟩
      · rename_i hle
        split
        · rename_i hspan
          rw [maxWord_eq] at hspan
          exact Or.inl ⟨Or.inr (by omega), _, rfl⟩
        · rename_i hspan
          rw [maxWord_eq] at hspan
          refine Or.inr ⟨by omega, _, rfl, rfl, fun xs _ => ?_⟩
          show (xs.drop first.value.1).take (last.value.1 - first.value.1 + 1) =
            (xs.drop first.value.1).take (last.value.1 + 1 - first.value.1)
          congr 1
          omega

section Accepted

variable {rest : Text} {r : Resolved}

theorem cloud_ok {backend : Backend} {grammar vsi : String} {dfs : Bool}
    (h : cloud backend rest grammar vsi dfs = .ok r) :
    ∃ pieces, splitObject rest grammar = .ok pieces := by
  obtain ⟨pieces, hsplit, -⟩ := ok_of_bind h
  exact ⟨pieces, hsplit⟩

theorem source_ok (h : source rest = .ok r) :
    ∃ account key pieces, splitObject rest "source://account/product/key" = .ok (account, key) ∧
      splitObject key "source://account/product/key" = .ok pieces := by
  obtain ⟨⟨account, key⟩, hfirst, h⟩ := ok_of_bind h
  obtain ⟨pieces, hsecond, -⟩ := ok_of_bind h
  exact ⟨account, key, pieces, hfirst, hsecond⟩

theorem huggingFace_ok (h : huggingFace rest = .ok r) :
    ∃ owner path name file revised,
      splitObject (repositoryKind rest).2 "hf://owner/name/path" = .ok (owner, path) ∧
      splitObject path "hf://owner/name/path" = .ok (name, file) ∧
      repositoryRevision name = .ok revised := by
  obtain ⟨⟨owner, path⟩, hfirst, h⟩ := ok_of_bind h
  obtain ⟨⟨name, file⟩, hsecond, h⟩ := ok_of_bind h
  obtain ⟨revised, hrevision, -⟩ := ok_of_bind h
  exact ⟨owner, path, name, file, revised, hfirst, hsecond, hrevision⟩

end Accepted

/-! ## Longer addresses

What an address is cut into is decided at its front.  Text that is appended to
it, from a `#` on, goes to the last of the pieces. -/

section Longer

variable {s tail : Text}

theorem find_append_some {c : UInt8} {k : Nat} (h : find c s = some k) (t : Text) :
    find c (s ++ t) = some k := by
  simp only [find, List.drop_zero, Option.map_eq_some_iff] at h ⊢
  obtain ⟨i, hi, rfl⟩ := h
  exact ⟨i, by simp [List.findIdx?_append, hi], rfl⟩

theorem splitObject_append {grammar : String} {a b : Text} (h : splitObject s grammar = .ok (a, b))
    (t : Text) : splitObject (s ++ t) grammar = .ok (a, b ++ t) := by
  unfold splitObject at h
  split at h
  · cases h
  · rename_i slash hslash
    split at h
    · cases h
    · rename_i hin
      cases h
      have hlong : ¬ (slash = 0 ∨ (s ++ t).length ≤ slash + 1) := by
        rw [List.length_append]
        omega
      simp only [splitObject, find_append_some hslash, if_neg hlong]
      rw [List.take_append_of_le_length (by omega), List.drop_append_of_le_length (by omega)]

theorem findText_append_hash {p : Text} (hp : (35 : UInt8) ∉ p) (hne : p ≠ []) :
    ∀ s : Text, findText p (s ++ 35 :: tail) =
      (findText p s).or ((findText p (35 :: tail)).map (· + s.length))
  | [] => by
      have hempty : p.isEmpty = false := by simpa using hne
      have hnone : findText p [] = none := by simp [findText, hempty]
      rw [hnone]
      simp
  | c :: cs => by
      have hfront := isPrefixOf_append_hash hp (c :: cs) tail
      have ih := findText_append_hash hp hne cs
      rw [List.cons_append] at hfront ⊢
      rw [findText, findText, hfront, ih]
      split
      · rfl
      · cases findText p cs with
        | none => simp [Function.comp_def, Nat.add_assoc]
        | some k => simp

theorem findText_eq_none {c : UInt8} {p : Text} : ∀ {s : Text}, c ∉ s → findText (c :: p) s = none
  | [], _ => rfl
  | d :: ds, h => by
      have hd : c ≠ d := by
        rintro rfl
        exact h List.mem_cons_self
      have ih := findText_eq_none (p := p) fun hc => h (List.mem_cons_of_mem d hc)
      simp [findText, List.isPrefixOf, hd, ih]

/-- What separates a scheme from the rest. -/
theorem findText_scheme (htail : (58 : UInt8) ∉ tail) (s : Text) :
    findText (text "://") (s ++ 35 :: tail) = findText (text "://") s := by
  have hnone : findText (text "://") (35 :: tail) = none :=
    findText_eq_none (c := 58) (by simp [htail])
  rw [findText_append_hash (by decide) (by decide), hnone]
  simp

theorem findText_lt {p : Text} : ∀ {s : Text} {k : Nat}, findText p s = some k →
    k + p.length ≤ s.length
  | [], k, h => by
      simp only [findText] at h
      split at h
      · rename_i hp
        cases h
        simp [List.isEmpty_iff.mp hp]
      · cases h
  | c :: cs, k, h => by
      rw [findText] at h
      split at h
      · rename_i hp
        cases h
        have := (List.isPrefixOf_iff_prefix.mp hp).length_le
        simpa using this
      · cases hk : findText p cs with
        | none => simp [hk] at h
        | some j =>
            have := findText_lt hk
            simp only [hk, Option.map_some, Option.some.injEq] at h
            simp only [List.length_cons]
            omega

theorem findText_isSome_append {p : Text} (t : Text) :
    ∀ {s : Text}, (findText p s).isSome → (findText p (s ++ t)).isSome
  | [], h => by
      simp only [findText] at h
      split at h
      · rename_i hp
        rw [List.isEmpty_iff.mp hp]
        cases t <;> rfl
      · cases h
  | c :: cs, h => by
      rw [List.cons_append, findText]
      rw [findText] at h
      split
      · rfl
      · rename_i hno
        rw [Option.isSome_map]
        split at h
        · rename_i hyes
          rw [List.isPrefixOf_iff_prefix] at hyes hno
          exact absurd (hyes.trans (List.prefix_append (c :: cs) t)) hno
        · rw [Option.isSome_map] at h
          exact findText_isSome_append t h

/-- Without the text it begins with. -/
theorem drop_append_of_isPrefixOf {p : Text} (h : p.isPrefixOf s = true) (t : Text) {n : Nat}
    (hn : n = p.length) : (s ++ t).drop n = s.drop n ++ t := by
  rw [hn]
  exact List.drop_append_of_le_length (List.isPrefixOf_iff_prefix.mp h).length_le

theorem http_append {uri : Text} {r : Resolved} (h : http uri = .ok r)
    (hscheme : (findText (text "://") uri).isSome) (htail : (58 : UInt8) ∉ tail) :
    ∃ r', http (uri ++ 35 :: tail) = .ok r' := by
  obtain ⟨k, hk⟩ := Option.isSome_iff_exists.mp hscheme
  have hlt : k + 3 ≤ uri.length := findText_lt hk
  unfold http at h ⊢
  rw [findText_scheme htail]
  simp only [hk, Option.getD_some] at h ⊢
  split at h
  · cases h
  · rename_i hauthority
    rw [not_or] at hauthority
    obtain ⟨c, cs, hcs⟩ : ∃ c cs, uri.drop (k + 3) = c :: cs := by
      apply List.exists_cons_of_ne_nil
      rw [ne_eq, List.drop_eq_nil_iff]
      omega
    have hsome : ∀ t : Text, findFirstOf (text "/?#") (uri ++ t) (k + 3) = some (k + 3) ↔
        (text "/?#").contains c = true := by
      intro t
      rw [findFirstOf, List.drop_append_of_le_length hlt, hcs, List.cons_append,
        List.findIdx?_cons]
      cases hc : (text "/?#").contains c with
      | true => simp
      | false =>
          simp only [Bool.false_eq_true, if_false, iff_false, Option.map_map]
          intro hsome
          obtain ⟨i, -, hi⟩ := Option.map_eq_some_iff.mp hsome
          simp only [Function.comp_apply] at hi
          omega
    have hnot : ¬ ((text "/?#").contains c = true) := by
      have := hsome []
      rw [List.append_nil] at this
      exact fun hc => hauthority.2 (this.mpr hc)
    have hopen : ¬ (k + 3 = (uri ++ 35 :: tail).length ∨
        findFirstOf (text "/?#") (uri ++ 35 :: tail) (k + 3) = some (k + 3)) := by
      rw [not_or, hsome]
      refine ⟨?_, hnot⟩
      rw [List.length_append, List.length_cons]
      omega
    rw [if_neg hopen]
    exact ⟨_, rfl⟩

theorem cloud_append {backend : Backend} {grammar vsi : String} {dfs : Bool} {r : Resolved}
    (h : cloud backend s grammar vsi dfs = .ok r) (t : Text) :
    ∃ r', cloud backend (s ++ t) grammar vsi dfs = .ok r' := by
  obtain ⟨⟨a, b⟩, hsplit⟩ := cloud_ok h
  rw [cloud, splitObject_append hsplit]
  exact ⟨_, rfl⟩

theorem source_append {r : Resolved} (h : source s = .ok r) (t : Text) :
    ∃ r', source (s ++ t) = .ok r' := by
  obtain ⟨account, key, ⟨a, b⟩, hfirst, hsecond⟩ := source_ok h
  simp only [source, splitObject_append hfirst, bind, Except.bind, splitObject_append hsecond]
  exact ⟨_, rfl⟩

theorem repositoryKind_append (s tail : Text) :
    repositoryKind (s ++ 35 :: tail) =
      ((repositoryKind s).1, (repositoryKind s).2 ++ 35 :: tail) := by
  unfold repositoryKind
  rw [isPrefixOf_append_hash (by decide), isPrefixOf_append_hash (by decide)]
  split
  · rename_i hkind
    rw [drop_append_of_isPrefixOf (n := 9) hkind _ rfl]
  · split
    · rename_i hkind
      rw [drop_append_of_isPrefixOf (n := 7) hkind _ rfl]
    · rfl

theorem huggingFace_append {r : Resolved} (h : huggingFace s = .ok r) (tail : Text) :
    ∃ r', huggingFace (s ++ 35 :: tail) = .ok r' := by
  obtain ⟨owner, path, name, file, ⟨a, b⟩, hfirst, hsecond, hrevision⟩ := huggingFace_ok h
  simp only [huggingFace, repositoryKind_append, splitObject_append hfirst, bind, Except.bind,
    splitObject_append hsecond, hrevision]
  exact ⟨_, rfl⟩

/-- The scheme of an HTTP URL. -/
theorem findText_http {uri : Text}
    (h : ((text "http://").isPrefixOf uri || (text "https://").isPrefixOf uri) = true) :
    (findText (text "://") uri).isSome := by
  rw [Bool.or_eq_true, List.isPrefixOf_iff_prefix, List.isPrefixOf_iff_prefix] at h
  rcases h with ⟨rest, rfl⟩ | ⟨rest, rfl⟩
  · exact findText_isSome_append rest (by decide)
  · exact findText_isSome_append rest (by decide)

/-- An address that is accepted stays acceptable. -/
theorem terminalObject_append {uri : Text} {r : Resolved} (h : terminalObject uri = .ok r)
    (htail : (58 : UInt8) ∉ tail) : ∃ r', terminalObject (uri ++ 35 :: tail) = .ok r' := by
  have hsame : ∀ p : Text, (35 : UInt8) ∉ p →
      p.isPrefixOf (uri ++ 35 :: tail) = p.isPrefixOf uri :=
    fun p hp => isPrefixOf_append_hash hp uri tail
  unfold terminalObject at h ⊢
  rw [hsame _ (by decide), hsame _ (by decide), hsame _ (by decide), hsame _ (by decide),
    hsame _ (by decide), hsame _ (by decide), hsame _ (by decide), hsame _ (by decide),
    hsame _ (by decide), findText_scheme htail]
  split at h
  · rename_i hs
    rw [if_pos hs]
    exact http_append h (findText_http hs) htail
  · rename_i hs
    rw [if_neg hs]
    clear hs
    split at h
    · rename_i hs
      rw [if_pos hs, drop_append_of_isPrefixOf (n := 5) hs _ rfl]
      exact cloud_append h _
    · rename_i hs
      rw [if_neg hs]
      clear hs
      split at h
      · rename_i hs
        rw [if_pos hs, drop_append_of_isPrefixOf (n := 5) hs _ rfl]
        exact cloud_append h _
      · rename_i hs
        rw [if_neg hs]
        clear hs
        split at h
        · rename_i hs
          rw [if_pos hs, drop_append_of_isPrefixOf (n := 5) hs _ rfl]
          exact cloud_append h _
        · rename_i hs
          rw [if_neg hs]
          clear hs
          split at h
          · rename_i hs
            rw [if_pos hs, drop_append_of_isPrefixOf (n := 7) hs _ rfl]
            exact cloud_append h _
          · rename_i hs
            rw [if_neg hs]
            clear hs
            split at h
            · rename_i hs
              rw [if_pos hs, drop_append_of_isPrefixOf (n := 9) hs _ rfl]
              exact source_append h _
            · rename_i hs
              rw [if_neg hs]
              clear hs
              split at h
              · rename_i hs
                rw [if_pos hs, drop_append_of_isPrefixOf (n := 5) hs _ rfl]
                exact huggingFace_append h _
              · rename_i hs
                rw [if_neg hs]
                clear hs
                split at h
                · rename_i hs
                  rw [if_pos hs, drop_append_of_isPrefixOf (n := 7) hs _ rfl, file, if_neg (by simp)]
                  exact ⟨_, rfl⟩
                · rename_i hs
                  rw [if_neg hs]
                  split at h
                  · cases h
                  · rename_i hscheme
                    rw [if_neg hscheme, if_neg (by simp)]
                    exact ⟨_, rfl⟩

end Longer

/-! ## One window in another -/

/-- Everything `apply_window` can come to. -/
inductive Applied (r : Resolved) (offset length : Word) : Except ResolveError Resolved → Prop
  | overflows {e : ResolveError} : maxWord < r.windowOffset + offset.1 →
      Applied r offset length (.error e)
  | past {e : ResolveError} : r.windowLength ≠ toEnd → r.windowLength < offset.1 →
      Applied r offset length (.error e)
  | inside {r' : Resolved} : (r.windowLength ≠ toEnd → offset.1 ≤ r.windowLength) →
      r'.windowOffset = r.windowOffset + offset.1 →
      r'.windowLength = (if r.windowLength ≠ toEnd then min length.1 (r.windowLength - offset.1)
        else length.1) → Applied r offset length (.ok r')

theorem applyWindow_applied (r : Resolved) (offset length : Word) :
    Applied r offset length (applyWindow r offset length) := by
  have hoffset := offset.2
  unfold applyWindow
  split
  · rename_i hover
    rw [maxWord_eq] at hover
    refine .overflows ?_
    rw [maxWord_eq]
    omega
  · split
    · rename_i hpast
      exact .past hpast.1 hpast.2
    · rename_i hin
      refine .inside (fun hbounded => ?_) rfl rfl
      rw [not_and] at hin
      exact Nat.le_of_not_lt (hin hbounded)

section Views

variable {object : List β} {r r' : Resolved}

theorem view_eq (h : object.length < toEnd) (r : Resolved) :
    view r object = (object.drop r.windowOffset).take r.windowLength := by
  unfold view
  split
  · rename_i hall
    rw [hall, List.take_of_length_le]
    rw [List.length_drop]
    omega
  · rfl

/-- A wrapper shows its slice of what its parent shows. -/
theorem view_applyWindow (h : object.length < toEnd) {w : Wrapper}
    (happly : applyWindow r w.offset.value w.extent.length = .ok r') :
    view r' object = w.slice (view r object) := by
  have hcut : ∀ xs : List β, xs.length < toEnd →
      w.extent.cut xs = xs.take w.extent.length.1 := by
    intro xs hxs
    cases w.extent with
    | none => exact (List.take_of_length_le (Nat.le_of_lt hxs)).symm
    | negative n => exact (List.take_of_length_le (Nat.le_of_lt hxs)).symm
    | bounded n => rfl
  have hcases := applyWindow_applied r w.offset.value w.extent.length
  rw [happly] at hcases
  cases hcases with
  | inside hin hoffset hlength =>
      have hbound := w.extent.length.2
      rw [view_eq h, view_eq h, Wrapper.slice, hcut, hoffset, hlength, List.drop_take,
        List.take_take, List.drop_drop]
      · split
        · rfl
        · rename_i hend
          have hend : r.windowLength = toEnd := by simpa using hend
          rw [hend, List.take_eq_take_iff, List.length_drop]
          omega
      · rw [List.length_drop, List.length_take, List.length_drop]
        omega

end Views

/-! ## The terminal of a chain -/

theorem applyWindow_whole {r : Resolved} (h : r.windowOffset = 0 ∧ r.windowLength = toEnd) :
    applyWindow r ⟨0, zero_lt_word⟩ ⟨toEnd, toEnd_lt⟩ = .ok r := by
  obtain ⟨backend, canonical, target, container, key, dfs, offset, length, h₁, h₂⟩ := r
  obtain ⟨rfl, rfl⟩ := h
  rfl

theorem terminal_spelled (u : Text) (f : Fragment) (hbare : f = .none → fragmented u = false) :
    terminal (u ++ f.spelled) =
      f.window.bind fun w => (terminalObject u).bind (applyWindow · w.1 w.2) := by
  rw [terminal, takeBytesFragment_spelled u f hbare]
  cases f.window with
  | error e => rfl
  | ok w =>
      obtain ⟨offset, length⟩ := w
      cases hobject : terminalObject u with
      | error e =>
          simp only [Except.map, bind, Except.bind, hobject]
      | ok r =>
          simp only [Except.map, bind, Except.bind, hobject]
          split
          · rfl
          · rename_i hwhole
            simp only [not_or, not_not] at hwhole
            obtain ⟨offset, h₁⟩ := offset
            obtain ⟨length, h₂⟩ := length
            obtain ⟨rfl, rfl⟩ := hwhole
            exact (applyWindow_whole (terminalObject_terminal hobject).fresh).symm

theorem aliases_find (base : Text) (f : Fragment) :
    aliases.find? (·.1.isPrefixOf (base ++ f.spelled)) = aliases.find? (·.1.isPrefixOf base) := by
  have hplain : ∀ x ∈ aliases, (35 : UInt8) ∉ x.1 := by decide
  exact List.find?_congr fun x hx => isPrefixOf_spelled (hplain x hx) base f

/-- What is behind an alias has a fragment if the whole does. -/
theorem fragmented_alias {vsi scheme base : Text} (hmem : (vsi, scheme) ∈ aliases)
    (hvsi : vsi.isPrefixOf base = true) (h : fragmented base = false) :
    fragmented (scheme ++ base.drop vsi.length) = false := by
  have hplain : ∀ x ∈ aliases, (35 : UInt8) ∉ x.1 ∧ (35 : UInt8) ∉ x.2 := by decide
  obtain ⟨h₁, h₂⟩ := hplain _ hmem
  rw [fragmented_append h₂, ← fragmented_append h₁]
  rw [List.isPrefixOf_iff_prefix] at hvsi
  obtain ⟨rest, rfl⟩ := hvsi
  rwa [List.drop_left]

/-- What an accepted address is handed on as, with its fragment or without. -/
theorem resolveTerminal_ok {base : Text} {f : Fragment} {r : Resolved}
    (h : resolveTerminal (base ++ f.spelled) = .ok r) :
    ∃ u, terminal (u ++ f.spelled) = .ok r ∧ (fragmented base = false → fragmented u = false) := by
  rw [resolveTerminal, aliases_find] at h
  split at h
  · rename_i vsi scheme hfind
    have hvsi : vsi.isPrefixOf base = true := by simpa using List.find?_some hfind
    have hmem := List.mem_of_find?_eq_some hfind
    rw [drop_append_of_isPrefixOf hvsi _ rfl, resolveAlias] at h
    split at h
    · cases h
    · split at h
      · cases h
      · refine ⟨scheme ++ base.drop vsi.length, ?_, fragmented_alias hmem hvsi⟩
        rw [List.append_assoc]
        exact h
  · split at h
    · cases h
    · exact ⟨base, h, id⟩

/-- An accepted address with a fragment appended. -/
theorem resolveTerminal_append {base : Text} {r : Resolved} (h : resolveTerminal base = .ok r)
    (f : Fragment) :
    ∃ u, terminal u = .ok r ∧ resolveTerminal (base ++ f.spelled) = terminal (u ++ f.spelled) ∧
      (fragmented base = false → fragmented u = false) := by
  rw [resolveTerminal, aliases_find]
  rw [resolveTerminal] at h
  split at h
  · rename_i vsi scheme hfind
    have hvsi : vsi.isPrefixOf base = true := by simpa using List.find?_some hfind
    have hmem := List.mem_of_find?_eq_some hfind
    rw [resolveAlias] at h
    split at h
    · cases h
    · rename_i hrest
      split at h
      · cases h
      · rename_i hcurl
        refine ⟨scheme ++ base.drop vsi.length, h, ?_, fragmented_alias hmem hvsi⟩
        simp only [drop_append_of_isPrefixOf hvsi _ rfl, resolveAlias]
        rw [if_neg, isPrefixOf_spelled (by decide), isPrefixOf_spelled (by decide), if_neg hcurl,
          List.append_assoc]
        intro hempty
        simp only [List.isEmpty_iff, List.append_eq_nil_iff] at hempty hrest
        exact hrest hempty.1
  · rename_i hfind
    split at h
    · cases h
    · rename_i hvsi
      refine ⟨base, h, ?_, id⟩
      simp only [isPrefixOf_spelled (p := text "/vsi") (by decide), if_neg hvsi]

/-- The address of a chain, with its fragment. -/
theorem resolveTerminal_view {a : Address} {r : Resolved}
    (h : resolveTerminal a.spelled = .ok r) :
    r.windowOffset = a.fragment.first ∧ ∀ {β : Type} (object : List β), object.length < toEnd →
      view r object = a.fragment.slice object := by
  obtain ⟨u, hu, hbare⟩ := resolveTerminal_ok h
  rw [terminal_spelled u a.fragment fun hnone => hbare (a.bare hnone)] at hu
  obtain ⟨w, hw, hu⟩ := ok_of_bind hu
  obtain ⟨r₀, hr₀, hu⟩ := ok_of_bind hu
  obtain ⟨hoffset₀, hlength₀⟩ := (terminalObject_terminal hr₀).fresh
  rcases a.fragment.window_cases with ⟨-, e, he⟩ | ⟨-, w', hw', hfirst, hslice⟩
  · rw [hw] at he
    cases he
  · rw [hw] at hw'
    cases hw'
    have hcases := applyWindow_applied r₀ w.1 w.2
    rw [show applyWindow r₀ w.1 w.2 = .ok r from hu] at hcases
    cases hcases with
    | inside hin hoffset hlength =>
        refine ⟨by omega, fun object hobject => ?_⟩
        rw [view_eq hobject, hoffset, hlength, if_neg (by simpa using hlength₀), hoffset₀,
          Nat.zero_add]
        exact hslice object hobject

/-! ## Refusals -/

/-- A fragment that can be read has no colon in it. -/
theorem parseFragment_chars {fragment : Text} {w : Word × Word}
    (h : parseFragment fragment = .ok w) : (58 : UInt8) ∉ fragment := by
  have hdigits : ∀ {s : Text} {n : Word}, parseU64 s = .ok n → (58 : UInt8) ∉ s := fun hs =>
    Numeral.not_mem ⟨_, _, hs⟩ (by decide)
  unfold parseFragment at h
  split at h
  · cases h
  · rename_i dash hdash
    obtain ⟨first, hfirst, h⟩ := ok_of_bind h
    rw [(find_split hdash).1]
    simp only at h
    have hlast : (58 : UInt8) ∉ fragment.drop (dash + 1) := by
      split at h
      · rename_i hempty
        rw [List.isEmpty_iff.mp hempty]
        simp
      · obtain ⟨last, hlast, -⟩ := ok_of_bind h
        exact hdigits hlast
    simp [hdigits hfirst, hlast]

/-- What is left of an address without its fragment. -/
theorem takeBytesFragment_ok {u u' : Text} {w : Word × Word}
    (h : takeBytesFragment u = .ok (u', w)) :
    u' = u ∨ ∃ tail, u = u' ++ 35 :: tail ∧ (58 : UInt8) ∉ tail := by
  unfold takeBytesFragment at h
  split at h
  · cases h
    exact Or.inl rfl
  · rename_i hash _
    split at h
    · cases h
      exact Or.inl rfl
    · rename_i hbytes
      obtain ⟨window, hwindow, h⟩ := ok_of_bind h
      cases h
      have hbytes : bytesFragment <+: u.drop hash := by
        simpa [List.isPrefixOf_iff_prefix] using hbytes
      obtain ⟨rest, hrest⟩ := hbytes
      have hvalue : u.drop (hash + bytesFragment.length) = rest := by
        rw [← List.drop_drop, ← hrest, List.drop_left]
      rw [hvalue] at hwindow
      refine Or.inr ⟨bytesFragment.tail ++ rest, ?_, ?_⟩
      · have hfront : bytesFragment ++ rest = 35 :: (bytesFragment.tail ++ rest) := rfl
        rw [← hfront, hrest, List.take_append_drop]
      · have hplain : (58 : UInt8) ∉ bytesFragment.tail := by decide
        simp [hplain, parseFragment_chars hwindow]

/-- An address that is accepted by itself is refused only for its fragment. -/
theorem resolveTerminal_refused {a : Address} {r : Resolved} {e : ResolveError}
    (hbase : resolveTerminal a.base = .ok r) (h : resolveTerminal a.spelled = .error e) :
    a.fragment.Impossible := by
  obtain ⟨u, hu, hsame, hbare⟩ := resolveTerminal_append hbase a.fragment
  rw [Address.spelled, hsame,
    terminal_spelled u a.fragment fun hnone => hbare (a.bare hnone)] at h
  rcases a.fragment.window_cases with ⟨hno, -⟩ | ⟨-, w, hw, -⟩
  · exact hno
  · exfalso
    obtain ⟨⟨u', w'⟩, htake, hu⟩ := ok_of_bind hu
    obtain ⟨r', hr', -⟩ := ok_of_bind hu
    have hobject : ∃ r₀, terminalObject u = .ok r₀ := by
      rcases takeBytesFragment_ok htake with rfl | ⟨tail, rfl, htail⟩
      · exact ⟨r', hr'⟩
      · exact terminalObject_append hr' htail
    obtain ⟨r₀, hr₀⟩ := hobject
    obtain ⟨hoffset, hlength⟩ := (terminalObject_terminal hr₀).fresh
    simp only [hw, hr₀, Except.bind] at h
    have hcases := applyWindow_applied r₀ w.1 w.2
    rw [h] at hcases
    cases hcases with
    | overflows hover =>
        have := w.1.2
        rw [hoffset, maxWord_eq] at hover
        omega
    | past hbounded => exact hbounded hlength

/-! ## Whole chains -/

theorem Address.unwrapped_spelled (a : Address) : vsiSubfile.isPrefixOf a.spelled = false := by
  rw [Address.spelled, isPrefixOf_spelled (by decide), a.unwrapped]

/-- An address, however many wrappers are left. -/
theorem resolveImpl_address {a : Address} (hne : a.spelled ≠ []) (left : Nat) :
    resolveImpl left a.spelled = resolveTerminal a.spelled := by
  have hempty : a.spelled.isEmpty = false := by simpa using hne
  rw [resolveImpl.eq_def]
  simp only [hempty, a.unwrapped_spelled, Bool.false_eq_true, if_false]

theorem chain_ne {a : Address} (hne : a.spelled ≠ []) (ws : List Wrapper) : chain ws a ≠ [] := by
  cases ws with
  | nil => exact hne
  | cons w ws => simp [chain, Wrapper.spelled, vsiSubfile, text]

/-- A chain of wrappers that are not too many. -/
theorem resolveImpl_chain {a : Address} (hne : a.spelled ≠ []) :
    ∀ (ws : List Wrapper) (left : Nat), ws.length ≤ left →
      resolveImpl left (chain ws a) = applyAll ws (resolveTerminal a.spelled)
  | [], left, _ => resolveImpl_address hne left
  | w :: ws, 0, h => by simp at h
  | w :: ws, left + 1, h => by
      have ih := resolveImpl_chain hne ws left (by simpa using h)
      show resolveImpl (left + 1) (w.spelled ++ chain ws a) = _
      rw [resolveImpl_wrapper w (chain_ne hne ws), ih]
      rfl

theorem resolveImpl_chain_deep {a : Address} (hne : a.spelled ≠ []) :
    ∀ (ws : List Wrapper) (left : Nat), left < ws.length →
      ∃ e, resolveImpl left (chain ws a) = .error e
  | [], left, h => by simp at h
  | w :: ws, 0, _ => resolveImpl_deep w (chain ws a)
  | w :: ws, left + 1, h => by
      obtain ⟨e, he⟩ := resolveImpl_chain_deep hne ws left (by simpa using h)
      refine ⟨e, ?_⟩
      show resolveImpl (left + 1) (w.spelled ++ chain ws a) = _
      rw [resolveImpl_wrapper w (chain_ne hne ws), he]
      rfl

/-- A chain around nothing. -/
theorem resolveImpl_empty {a : Address} (h : a.spelled = []) :
    ∀ (ws : List Wrapper) (left : Nat), ∃ e, resolveImpl left (chain ws a) = .error e
  | [], left => by
      refine ⟨{ message := text "empty URI" }, ?_⟩
      rw [chain, List.foldr_nil, h, resolveImpl.eq_def]
      rfl
  | w :: ws, 0 => resolveImpl_deep w (chain ws a)
  | w :: ws, left + 1 => by
      show ∃ e, resolveImpl (left + 1) (w.spelled ++ chain ws a) = .error e
      by_cases hne : chain ws a = []
      · rw [hne, List.append_nil]
        exact resolveImpl_hollow w left
      · obtain ⟨e, he⟩ := resolveImpl_empty h ws left
        rw [resolveImpl_wrapper w hne, he]
        exact ⟨e, rfl⟩

theorem resolveTerminal_of_resolve (a : Address) {r : Resolved} (h : resolve a.base = .ok r) :
    resolveTerminal a.base = .ok r := by
  rw [resolve, resolveImpl.eq_def] at h
  simp only [a.unwrapped, Bool.false_eq_true, if_false] at h
  split at h
  · cases h
  · exact h

/-- The windows of the wrappers, and what is then visible. -/
theorem applyAll_view {a : Address} : ∀ {ws : List Wrapper} {r : Resolved},
    applyAll ws (resolveTerminal a.spelled) = .ok r →
      r.windowOffset = offsets ws a ∧ ∀ {β : Type} (object : List β), object.length < toEnd →
        view r object = sliced ws a object
  | [], r, h => resolveTerminal_view h
  | w :: ws, r, h => by
      obtain ⟨parent, hparent, h⟩ := ok_of_bind h
      obtain ⟨hoffset, hview⟩ := applyAll_view hparent
      have hcases := applyWindow_applied parent w.offset.value w.extent.length
      rw [show applyWindow parent w.offset.value w.extent.length = .ok r from h] at hcases
      cases hcases with
      | inside hin hsum hlength =>
          refine ⟨?_, fun object hobject => ?_⟩
          · rw [hsum, hoffset]
            simp only [offsets, List.map_cons, List.sum_cons]
            omega
          · rw [view_applyWindow hobject h, hview object hobject]
            rfl

/-- A wrapper of the chain starts past the end of a bounded parent. -/
def StartsPast (ws : List Wrapper) (a : Address) : Prop :=
  ∃ outer w inner parent, ws = outer ++ w :: inner ∧ resolve (chain inner a) = .ok parent ∧
    parent.windowLength ≠ toEnd ∧ parent.windowLength < w.offset.value.1

theorem applyAll_refused {a : Address} {r₀ : Resolved} (hne : a.spelled ≠ [])
    (hbase : resolveTerminal a.base = .ok r₀) : ∀ {ws : List Wrapper} {e : ResolveError},
    ws.length ≤ maxSubfileDepth → applyAll ws (resolveTerminal a.spelled) = .error e →
      maxWord < offsets ws a ∨ StartsPast ws a ∨ a.fragment.Impossible
  | [], e, _, h => Or.inr (Or.inr (resolveTerminal_refused hbase h))
  | w :: ws, e, hdepth, h => by
      have hinner : ws.length ≤ maxSubfileDepth := by
        simp only [List.length_cons] at hdepth
        omega
      have hsum : offsets (w :: ws) a = offsets ws a + w.offset.value.1 := by
        simp only [offsets, List.map_cons, List.sum_cons]
        omega
      rw [hsum]
      cases hrest : applyAll ws (resolveTerminal a.spelled) with
      | error e' =>
          rcases applyAll_refused hne hbase hinner hrest with hover | ⟨outer, v, inner, parent,
            rfl, hparent⟩ | hno
          · exact Or.inl (by omega)
          · exact Or.inr (Or.inl ⟨w :: outer, v, inner, parent, rfl, hparent⟩)
          · exact Or.inr (Or.inr hno)
      | ok parent =>
          have happly : applyWindow parent w.offset.value w.extent.length = .error e := by
            have h : (applyAll ws (resolveTerminal a.spelled)).bind
                (applyWindow · w.offset.value w.extent.length) = .error e := h
            rw [hrest] at h
            exact h
          have hcases := applyWindow_applied parent w.offset.value w.extent.length
          rw [happly] at hcases
          cases hcases with
          | overflows hover =>
              rw [(applyAll_view hrest).1] at hover
              exact Or.inl hover
          | past hbounded hlt =>
              have hparent : resolve (chain ws a) = .ok parent :=
                (resolveImpl_chain hne ws maxSubfileDepth hinner).trans hrest
              exact Or.inr (Or.inl ⟨[], w, ws, parent, rfl, hparent, hbounded, hlt⟩)

/-- The window of a chain shows what its slices show one after another; and a chain around an
address that is accepted by itself is refused only if it is too deep, its offsets overflow, a
wrapper starts past the end of its parent, or the fragment is impossible. -/
theorem resolve_window (ws : List Wrapper) (a : Address) :
    (∀ r, resolve (chain ws a) = .ok r → ∀ {β : Type} (object : List β),
      object.length < 2 ^ 64 - 1 → view r object = sliced ws a object) ∧
    (∀ r₀ e, resolve a.base = .ok r₀ → resolve (chain ws a) = .error e →
      16 < ws.length ∨ 2 ^ 64 - 1 < offsets ws a ∨ StartsPast ws a ∨ a.fragment.Impossible) := by
  by_cases hne : a.spelled = []
  · obtain ⟨e, he⟩ := resolveImpl_empty hne ws maxSubfileDepth
    refine ⟨fun r h => ?_, fun r₀ _ h => ?_⟩
    · rw [resolve, he] at h
      cases h
    · rw [(List.append_eq_nil_iff.mp hne).1] at h
      cases h
  · by_cases hdepth : ws.length ≤ maxSubfileDepth
    · have hchain : resolve (chain ws a) = applyAll ws (resolveTerminal a.spelled) :=
        resolveImpl_chain hne ws maxSubfileDepth hdepth
      rw [hchain]
      refine ⟨fun r h β object hobject => (applyAll_view h).2 object hobject, fun r₀ e h₀ h => ?_⟩
      exact Or.inr (applyAll_refused hne (resolveTerminal_of_resolve a h₀) hdepth h)
    · obtain ⟨e, he⟩ := resolveImpl_chain_deep hne ws maxSubfileDepth (Nat.lt_of_not_le hdepth)
      refine ⟨fun r h => ?_, fun _ _ _ _ => Or.inl (Nat.lt_of_not_le hdepth)⟩
      rw [resolve, he] at h
      cases h

theorem ten_lt_word : 10 < 2 ^ 64 := by decide

/-- `5_10` of the bytes from 100 to 199, with the fragment inside. -/
def nestedWrapper : Wrapper where
  offset := ⟨text "5", ⟨5, by decide⟩, by decide +kernel⟩
  extent := .bounded ⟨text "10", ⟨10, ten_lt_word⟩, by decide +kernel⟩

/-- The object the tests of the repository use. -/
def nestedAddress : Address where
  base := text "s3://bucket/key"
  fragment := .range ⟨text "100", ⟨100, by decide⟩, by decide +kernel⟩
    ⟨text "199", ⟨199, by decide⟩, by decide +kernel⟩
  unwrapped := by decide
  bare := by intro h; cases h

theorem resolve_window_nested :
    chain [nestedWrapper] nestedAddress = text "/vsisubfile/5_10,s3://bucket/key#bytes=100-199" ∧
      ∃ r, resolve (chain [nestedWrapper] nestedAddress) = .ok r ∧
        view r (List.range 300) = sliced [nestedWrapper] nestedAddress (List.range 300) := by
  refine ⟨by decide +kernel, ?_⟩
  cases h : resolve (chain [nestedWrapper] nestedAddress) with
  | error e =>
      have hok : (resolve (chain [nestedWrapper] nestedAddress)).isOk = true := by decide +kernel
      rw [h] at hok
      cases hok
  | ok r =>
      exact ⟨r, rfl, (resolve_window [nestedWrapper] nestedAddress).1 r h (List.range 300)
        (by rw [List.length_range]; decide)⟩

end Uri

end Karu
