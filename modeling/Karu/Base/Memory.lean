/-
# `Karu.Base.Memory` — byte regions, and the copies made into them

A memory has one unbounded region of cells for every address, and remembers
each copy made into it.  A buffer of `n` bytes at address `a` is the first `n`
cells of region `a`; nothing stops a copy from writing past them, so that a
program staying inside its buffers is a property of the copies it makes
(`Within`) and not something the type hides.  Regions at different addresses
are disjoint: two buffers overlap only if they have the same address.

`β` is whatever a cell holds.  Programs that only move cells around are
written for every `β`; a proof may then run them on cells that carry more
than the byte, such as where it came from.
-/
import Mathlib.Data.List.Basic

namespace Base

/-- One call of `memcpy`: `len` cells written from position `pos` of `dest`. -/
structure Copy (α : Type) where
  dest : α
  pos : Nat
  len : Nat
deriving DecidableEq, Repr

structure Memory (α β : Type) where
  cell : α → Nat → β
  copies : List (Copy α)

namespace Memory

variable {α β : Type}

/-- The first `n` cells of a region, from position `pos`. -/
def read (m : Memory α β) (a : α) (pos n : Nat) : List β :=
  (List.range n).map fun i => m.cell a (pos + i)

/-- Every copy so far stayed inside the region's first `size` cells. -/
def Within (m : Memory α β) (size : α → Nat) : Prop :=
  ∀ c ∈ m.copies, c.pos + c.len ≤ size c.dest

instance (m : Memory α β) (size : α → Nat) : Decidable (m.Within size) :=
  inferInstanceAs (Decidable (∀ c ∈ m.copies, c.pos + c.len ≤ size c.dest))

section
variable [DecidableEq α]

/-- `std::memcpy(a + pos, data, size)`. -/
def memcpy (m : Memory α β) (a : α) (pos : Nat) (data : List β) : Memory α β where
  cell b i := if b = a ∧ pos ≤ i then data[i - pos]?.getD (m.cell b i) else m.cell b i
  copies := m.copies ++ [⟨a, pos, data.length⟩]

@[simp] theorem copies_memcpy (m : Memory α β) (a : α) (pos : Nat) (data : List β) :
    (m.memcpy a pos data).copies = m.copies ++ [⟨a, pos, data.length⟩] := rfl

theorem cell_memcpy_inside (m : Memory α β) (a : α) {pos i : Nat} {data : List β}
    (h₁ : pos ≤ i) (h₂ : i - pos < data.length) :
    (m.memcpy a pos data).cell a i = data[i - pos] := by
  simp [memcpy, h₁, List.getElem?_eq_getElem h₂]

theorem cell_memcpy_outside (m : Memory α β) {a b : α} {pos i : Nat} {data : List β}
    (h : b ≠ a ∨ i < pos ∨ pos + data.length ≤ i) :
    (m.memcpy a pos data).cell b i = m.cell b i := by
  rcases h with h | h | h
  · simp [memcpy, h]
  · simp [memcpy, Nat.not_le.mpr h]
  · have hout : data[i - pos]? = none := List.getElem?_eq_none (by omega)
    simp [memcpy, hout]

theorem within_memcpy {m : Memory α β} {size : α → Nat} {a : α} {pos : Nat} {data : List β} :
    (m.memcpy a pos data).Within size ↔ m.Within size ∧ pos + data.length ≤ size a := by
  simp only [Within, copies_memcpy, List.mem_append, List.mem_singleton]
  constructor
  · intro h
    exact ⟨fun c hc => h c (Or.inl hc), h ⟨a, pos, data.length⟩ (Or.inr rfl)⟩
  · rintro ⟨h, ha⟩ c (hc | rfl)
    · exact h c hc
    · exact ha

end

@[simp] theorem length_read (m : Memory α β) (a : α) (pos n : Nat) : (m.read a pos n).length = n := by
  simp [read]

/-- What is read from one region and copied to the front of another is found there. -/
theorem cell_memcpy_read [DecidableEq α] (m : Memory α β) (a b : α) {pos n i : Nat} (h : i < n) :
    (m.memcpy b 0 (m.read a pos n)).cell b i = m.cell a (pos + i) := by
  rw [cell_memcpy_inside m b (Nat.zero_le i) (by simpa using h)]
  simp [read]

/-- A part of what is read is what is read of that part. -/
theorem read_slice (m : Memory α β) (a : α) {pos n k len : Nat} (h : k + len ≤ n) :
    m.read a (pos + k) len = ((m.read a pos n).drop k).take len := by
  apply List.ext_getElem
  · simp only [length_read, List.length_take, List.length_drop]
    omega
  · intro i h₁ h₂
    simp [read, Nat.add_assoc]

/-- Equal cells, equal reads. -/
theorem read_congr {m m' : Memory α β} {a : α} {pos n : Nat}
    (h : ∀ i, m'.cell a i = m.cell a i) : m'.read a pos n = m.read a pos n := by
  simp [read, h]

/-- A region reads back as `xs` when its cells are those of `xs`. -/
theorem read_eq_of_cells {m : Memory α β} {a : α} {pos n : Nat} {xs : List β}
    (hn : xs.length = n) (h : ∀ i (hi : i < xs.length), m.cell a (pos + i) = xs[i]) :
    m.read a pos n = xs := by
  apply List.ext_getElem
  · rw [length_read, hn]
  · intro i h₁ h₂
    simpa [read] using h i h₂

end Memory

end Base
