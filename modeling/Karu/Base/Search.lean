/-
# `Karu.Base.Search` — looking for a delimited word

A scanner that looks for a word between two delimiters finds it wherever a run
of text between two delimiters is that word, whatever the delimiters mean.
`behind` is the text behind the first such place.  It is computed run by run:
text without a delimiter is skipped, and at a delimiter the run behind it
decides.
-/
import Karu.Base.Text

namespace Base

/-- The text behind the first occurrence of a pattern. -/
def behind (pattern s : Text) : Option Text :=
  (findText pattern s).map fun k => s.drop (k + pattern.length)

variable {c d : UInt8} {cs pattern name : Text}

theorem behind_hit (hp : pattern ≠ []) (rest : Text) :
    behind pattern (pattern ++ rest) = some rest := by
  obtain ⟨c, cs, rfl⟩ := List.exists_cons_of_ne_nil hp
  have hfirst : (c :: cs).isPrefixOf (c :: cs ++ rest) = true :=
    List.isPrefixOf_iff_prefix.mpr (List.prefix_append _ _)
  have hfound : findText (c :: cs) (c :: cs ++ rest) = some 0 := by
    rw [List.cons_append, findText, ← List.cons_append, hfirst]
    rfl
  rw [behind, hfound, Option.map_some, Nat.zero_add, List.drop_left]

theorem behind_miss {x : UInt8} {rest : Text} (h : ¬ pattern <+: x :: rest) :
    behind pattern (x :: rest) = behind pattern rest := by
  have hfirst : pattern.isPrefixOf (x :: rest) = false := by
    rw [Bool.eq_false_iff]
    exact fun hp => h (List.isPrefixOf_iff_prefix.mp hp)
  simp only [behind, findText, hfirst, Bool.false_eq_true, if_false, Option.map_map]
  congr 1
  funext k
  simp only [Function.comp_apply, Nat.add_right_comm k 1, List.drop_succ_cons]

/-- Text that the pattern does not begin in. -/
theorem behind_skip {xs : Text} (h : c ∉ xs) (rest : Text) :
    behind (c :: cs) (xs ++ rest) = behind (c :: cs) rest := by
  induction xs with
  | nil => rfl
  | cons x xs ih =>
      rw [List.mem_cons, not_or] at h
      have hmiss : ¬ (c :: cs) <+: x :: (xs ++ rest) := fun hp =>
        h.1 (List.cons_prefix_cons.mp hp).1
      rw [List.cons_append, behind_miss hmiss, ih h.2]

/-- Nothing is found where there is no first character. -/
theorem behind_none {s : Text} (h : c ∉ s) : behind (c :: cs) s = none := by
  have hskip := @behind_skip c cs s h []
  rwa [List.append_nil] at hskip

/-- The word between its delimiters. -/
def delimited (d : UInt8) (name : Text) : Text := d :: (name ++ [d])

theorem delimited_begins {run : Text} (hname : d ∉ name) (hrun : d ∉ run) (rest : Text) :
    delimited d name <+: d :: (run ++ d :: rest) ↔ run = name := by
  constructor
  · intro h
    obtain ⟨more, hmore⟩ := (List.cons_prefix_cons.mp h).2
    rw [List.append_assoc, List.singleton_append] at hmore
    have hfind := find_append more hname
    rw [hmore, find_append rest hrun] at hfind
    have hlen : run.length = name.length := Option.some.inj hfind
    exact ((List.append_inj hmore hlen.symm).1).symm
  · rintro rfl
    refine List.cons_prefix_cons.mpr ⟨rfl, rest, ?_⟩
    rw [List.append_assoc, List.singleton_append]

/-- At a delimiter whose run is closed by another one. -/
theorem behind_run {run : Text} (hname : d ∉ name) (hrun : d ∉ run) (rest : Text) :
    behind (delimited d name) (d :: (run ++ d :: rest)) =
      if run = name then some rest else behind (delimited d name) (d :: rest) := by
  split
  · rename_i heq
    subst heq
    have hwhole : d :: (run ++ d :: rest) = delimited d run ++ rest := by simp [delimited]
    rw [hwhole]
    exact behind_hit (by simp [delimited]) rest
  · rename_i hne
    rw [behind_miss (mt (delimited_begins hname hrun rest).mp hne)]
    exact behind_skip hrun (d :: rest)

/-- At a delimiter with something behind it that is in no word. -/
theorem behind_delimiter {x : UInt8} (hx : x ∉ name) (hne : x ≠ d) (rest : Text) :
    behind (delimited d name) (d :: x :: rest) = behind (delimited d name) (x :: rest) := by
  apply behind_miss
  intro h
  have htail := (List.cons_prefix_cons.mp h).2
  cases name with
  | nil => exact hne (List.cons_prefix_cons.mp htail).1.symm
  | cons y ys =>
      have hy := (List.cons_prefix_cons.mp htail).1
      exact hx (hy ▸ List.mem_cons_self)

end Base
