/-
# `Karu.Base.Slots` — lists of parties, one of which moves

The parties of a protocol are the entries of a list, and a step changes one of
them, adds one or takes one away.  What is counted over all of them then changes
by what the one of them counts.
-/
import Mathlib.Algebra.BigOperators.Group.List.Basic
import Mathlib.Algebra.GroupWithZero.Nat

namespace Base

namespace Slots

variable {α : Type} {l : List α} {i : Nat} {a : α}

/-- One entry is replaced. -/
theorem sum_map_set (f : α → Nat) (h : l[i]? = some a) (b : α) :
    ((l.set i b).map f).sum + f a = (l.map f).sum + f b := by
  induction l generalizing i with
  | nil => simp at h
  | cons x l ih =>
      cases i with
      | zero =>
          cases h
          simp only [List.set_cons_zero, List.map_cons, List.sum_cons]
          omega
      | succ i =>
          have hrest := ih h
          simp only [List.set_cons_succ, List.map_cons, List.sum_cons]
          omega

/-- One entry is taken away. -/
theorem sum_map_eraseIdx (f : α → Nat) (h : l[i]? = some a) :
    ((l.eraseIdx i).map f).sum + f a = (l.map f).sum := by
  induction l generalizing i with
  | nil => simp at h
  | cons x l ih =>
      cases i with
      | zero =>
          cases h
          simp only [List.eraseIdx_cons_zero, List.map_cons, List.sum_cons]
          omega
      | succ i =>
          have hrest := ih h
          simp only [List.eraseIdx_cons_succ, List.map_cons, List.sum_cons]
          omega

/-- An entry after one of them was replaced. -/
theorem getElem?_set_cases {b c : α} {j : Nat} (h : (l.set i b)[j]? = some c) :
    (j = i ∧ c = b) ∨ (j ≠ i ∧ l[j]? = some c) := by
  by_cases hj : j = i
  · subst hj
    rw [List.getElem?_set_self'] at h
    obtain ⟨x, -, hx⟩ := Option.map_eq_some_iff.mp h
    exact .inl ⟨rfl, hx.symm⟩
  · rw [List.getElem?_set_ne (fun heq => hj heq.symm)] at h
    exact .inr ⟨hj, h⟩

/-- A sum that is not zero has an entry that is not. -/
theorem exists_of_sum_pos {f : α → Nat} (h : 0 < (l.map f).sum) : ∃ (i : Nat) (a : α), l[i]? = some a ∧ 0 < f a := by
  induction l with
  | nil => simp at h
  | cons x l ih =>
      by_cases hx : 0 < f x
      · exact ⟨0, x, rfl, hx⟩
      · have hrest : 0 < (l.map f).sum := by
          rw [List.map_cons, List.sum_cons] at h
          omega
        obtain ⟨i, a, hi, ha⟩ := ih hrest
        exact ⟨i + 1, a, hi, ha⟩

end Slots

end Base
