/-
# `Karu.Base.Word` — unsigned 64-bit arithmetic on natural numbers

A machine word is a natural number below `2 ^ 64`.  Where an operation can
wrap it is written with `add64` or `sub64`, which reduce modulo `2 ^ 64`; a
plain `+` or `-` on words says that the surrounding guard excludes the wrap.

Everything a proof needs of the two operations is that they are the exact
ones whenever the exact result fits, so each has one lemma saying so, and the
rest is linear arithmetic.
-/
import Mathlib.Algebra.Ring.Int.Defs
import Mathlib.Algebra.Ring.Nat
import Mathlib.Data.Nat.Basic

namespace Base

/-- A machine word, where a bound is not at hand otherwise. -/
abbrev Word := { n : Nat // n < 2 ^ 64 }

/-- The largest word, `std::numeric_limits<std::uint64_t>::max()`. -/
def maxWord : Nat := 2 ^ 64 - 1

/-- Addition of words. -/
def add64 (a b : Nat) : Nat := (a + b) % 2 ^ 64

/-- Subtraction of words. -/
def sub64 (a b : Nat) : Nat := (a + 2 ^ 64 - b) % 2 ^ 64

theorem zero_lt_word : 0 < 2 ^ 64 := by decide

theorem one_lt_word : 1 < 2 ^ 64 := by decide

theorem maxWord_eq : maxWord = 2 ^ 64 - 1 := rfl

theorem add64_of_lt {a b : Nat} (h : a + b < 2 ^ 64) : add64 a b = a + b :=
  Nat.mod_eq_of_lt h

theorem sub64_of_le {a b : Nat} (h : b ≤ a) (ha : a < 2 ^ 64) : sub64 a b = a - b := by
  unfold sub64
  omega

theorem sub64_lt (a b : Nat) : sub64 a b < 2 ^ 64 :=
  Nat.mod_lt _ (by decide)

end Base
