/-
# `Karu.Base.Extents` — runs of positions, and the gaps between them

An extent is a start and a length.  A list of extents reaches as far as the
furthest of their ends, and it has gaps of at most `gap` when none of them starts
more than `gap` positions behind everything before it.
-/
import Mathlib.Algebra.GroupWithZero.Nat
import Mathlib.Data.List.Basic
import Mathlib.Order.Lattice.Nat

namespace Base

/-- A start and a length. -/
abbrev Extent := Nat × Nat

namespace Extent

/-- The furthest end. -/
def furthest : List Extent → Nat
  | [] => 0
  | x :: xs => max (x.1 + x.2) (furthest xs)

@[simp] theorem furthest_nil : furthest [] = 0 := rfl

@[simp] theorem furthest_cons (x : Extent) (xs : List Extent) :
    furthest (x :: xs) = max (x.1 + x.2) (furthest xs) := rfl

@[simp] theorem furthest_append (xs ys : List Extent) :
    furthest (xs ++ ys) = max (furthest xs) (furthest ys) := by
  induction xs with
  | nil => simp
  | cons x xs ih => simp [ih, max_assoc]

/-- How many positions the extents have, one by one. -/
def total (xs : List Extent) : Nat := (xs.map (·.2)).sum

@[simp] theorem total_append (xs ys : List Extent) : total (xs ++ ys) = total xs + total ys := by
  simp [total]

/-- No extent behind the first starts more than `gap` positions behind everything before it. -/
def Near (gap : Nat) (xs : List Extent) : Prop :=
  ∀ before x after, xs = before ++ x :: after → before ≠ [] → x.1 ≤ furthest before + gap

theorem near_singleton (gap : Nat) (x : Extent) : Near gap [x] := by
  intro before y after h hne
  obtain ⟨b, bs, rfl⟩ := List.exists_cons_of_ne_nil hne
  simp at h

/-- The last extent, and those before it. -/
theorem near_append_singleton {gap : Nat} {xs : List Extent} {x : Extent} (hxs : xs ≠ []) :
    Near gap (xs ++ [x]) ↔ Near gap xs ∧ x.1 ≤ furthest xs + gap := by
  constructor
  · intro h
    refine ⟨?_, h xs x [] rfl hxs⟩
    intro before y after heq hne
    exact h before y (after ++ [x]) (by simp [heq]) hne
  · rintro ⟨hnear, hlast⟩ before y after heq hne
    rcases List.eq_nil_or_concat after with rfl | ⟨after, z, rfl⟩
    · obtain ⟨rfl, hy⟩ := List.append_inj' heq rfl
      cases hy
      exact hlast
    · have hcut : xs ++ [x] = (before ++ y :: after) ++ [z] := by simpa using heq
      exact hnear before y after (List.append_inj' hcut rfl).1 hne

end Extent

end Base
