/-
# `Karu.Base.Table` — finite tables

A table has at most one item for a key, as a hash map has; its size is the
number of its items.  What an operation does is said by what is found
afterwards.
-/
import Mathlib.Data.List.Nodup

namespace Base

/-- A finite map, with no two items of one key. -/
structure Table (κ α : Type) where
  items : List (κ × α)
  nodup : (items.map (·.1)).Nodup

namespace Table

variable {κ α : Type}

/-- A table with nothing in it. -/
def empty : Table κ α := ⟨[], List.nodup_nil⟩

/-- `size`. -/
def size (t : Table κ α) : Nat := t.items.length

@[simp] theorem size_empty : (empty : Table κ α).size = 0 := rfl

/-- `erase_if`, for the items that are not kept. -/
def keep (t : Table κ α) (p : κ → α → Bool) : Table κ α where
  items := t.items.filter fun item => p item.1 item.2
  nodup := t.nodup.sublist (List.filter_sublist.map _)

theorem size_keep_le (t : Table κ α) (p : κ → α → Bool) : (t.keep p).size ≤ t.size :=
  List.length_filter_le _ _

variable [DecidableEq κ]

/-- `find`. -/
def find (t : Table κ α) (k : κ) : Option α := (t.items.find? (·.1 = k)).map (·.2)

@[simp] theorem find_empty (k : κ) : (empty : Table κ α).find k = none := rfl

theorem find_eq_some_iff {t : Table κ α} {k : κ} {a : α} : t.find k = some a ↔ (k, a) ∈ t.items := by
  constructor
  · intro h
    obtain ⟨item, hfind, rfl⟩ := Option.map_eq_some_iff.mp h
    have hkey : item.1 = k := by simpa using List.find?_some hfind
    subst hkey
    exact List.mem_of_find?_eq_some hfind
  · intro h
    cases hfind : t.items.find? (·.1 = k) with
    | none =>
        have hnot := List.find?_eq_none.mp hfind (k, a) h
        simp at hnot
    | some item =>
        have hkey : item.1 = k := by simpa using List.find?_some hfind
        have hsame := List.inj_on_of_nodup_map t.nodup (List.mem_of_find?_eq_some hfind) h hkey
        rw [find, hfind, hsame]
        rfl

theorem find_eq_none_iff {t : Table κ α} {k : κ} :
    t.find k = none ↔ ∀ a, (k, a) ∉ t.items := by
  rw [Option.eq_none_iff_forall_ne_some]
  exact forall_congr' fun a => not_congr find_eq_some_iff

theorem find_keep {t : Table κ α} {p : κ → α → Bool} {k : κ} :
    (t.keep p).find k = (t.find k).filter (p k) := by
  cases h : t.find k with
  | none =>
      rw [Option.filter_none, find_eq_none_iff]
      intro a hmem
      exact find_eq_none_iff.mp h a (List.mem_filter.mp hmem).1
  | some a =>
      have hmem := find_eq_some_iff.mp h
      by_cases hp : p k a = true
      · rw [Option.filter_some_pos hp, find_eq_some_iff]
        exact List.mem_filter.mpr ⟨hmem, hp⟩
      · rw [Option.filter_some_neg (Bool.eq_false_iff.mpr hp), find_eq_none_iff]
        intro b hb
        obtain ⟨hb, hpb⟩ := List.mem_filter.mp hb
        cases h.symm.trans (find_eq_some_iff.mpr hb)
        exact hp hpb

/-- `insert_or_assign`. -/
def assign (t : Table κ α) (k : κ) (a : α) : Table κ α where
  items := (k, a) :: t.items.filter (·.1 ≠ k)
  nodup := by
    rw [List.map_cons, List.nodup_cons]
    refine ⟨?_, t.nodup.sublist (List.filter_sublist.map _)⟩
    intro hmem
    obtain ⟨item, hitem, hkey⟩ := List.mem_map.mp hmem
    exact of_decide_eq_true (List.mem_filter.mp hitem).2 hkey

theorem find_assign (t : Table κ α) (k k' : κ) (a : α) :
    (t.assign k a).find k' = if k' = k then some a else t.find k' := by
  by_cases h : k' = k
  · subst h
    rw [if_pos rfl, find_eq_some_iff]
    exact List.mem_cons_self
  · rw [if_neg h]
    ext b
    rw [find_eq_some_iff, find_eq_some_iff]
    simp [assign, h]

theorem assign_assign (t : Table κ α) (k : κ) (a b : α) :
    (t.assign k a).assign k b = t.assign k b := by
  simp [assign]

/-- A new key makes the table larger by one, and one that was there does not. -/
theorem size_assign_le (t : Table κ α) (k : κ) (a : α) : (t.assign k a).size ≤ t.size + 1 :=
  Nat.succ_le_succ (List.length_filter_le _ _)

theorem size_assign_of_find {t : Table κ α} {k : κ} {b : α} (h : t.find k = some b) (a : α) :
    (t.assign k a).size ≤ t.size := by
  have hmem := find_eq_some_iff.mp h
  have hlt : (t.items.filter (·.1 ≠ k)).length < t.items.length :=
    List.length_filter_lt_length_iff_exists.mpr ⟨_, hmem, by simp⟩
  exact hlt

end Table

end Base
