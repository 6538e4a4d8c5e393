/-
# `Karu.Base.Ask` — programs that ask, and what two of them have in common

A program either is done or asks a question and goes on with the answer.  What
it can be asked is a type `Q`, and `A q` is the type of the answers to `q`; the
world that answers may look at everything that was asked before, so files can
change and a clock can run.

Two programs are `Alike R` when they ask the same questions, whatever the
answers are, and end in results that are related by `R`.  In one and the same
world they then leave the same trace (`Alike.run`).
-/
import Mathlib.Logic.Basic

namespace Base

/-- A program with questions in `Q` and a result in `α`. -/
inductive Ask {Q : Type} (A : Q → Type) (α : Type) where
  | done (result : α)
  | ask (q : Q) (next : A q → Ask A α)

namespace Ask

variable {Q : Type} {A : Q → Type} {α β γ δ : Type}

/-- Go on with what a program returns. -/
def bind : Ask A α → (α → Ask A β) → Ask A β
  | .done a, f => f a
  | .ask q next, f => .ask q fun x => (next x).bind f

instance : Monad (Ask A) where
  pure := .done
  bind := bind

/-- A program that asks one question. -/
def question (q : Q) : Ask A (A q) := .ask q .done

/-! ## Running -/

/-- Questions with their answers, the first one first. -/
abbrev Trace (A : Q → Type) := List (Σ q, A q)

/-- What answers a question, after everything that was asked before. -/
abbrev World (A : Q → Type) := Trace A → (q : Q) → A q

/-- What was asked, and the result. -/
def run (world : World A) : Trace A → Ask A α → Trace A × α
  | trace, .done a => (trace, a)
  | trace, .ask q next => run world (trace ++ [⟨q, world trace q⟩]) (next (world trace q))

theorem run_bind (world : World A) (trace : Trace A) (x : Ask A α) (f : α → Ask A β) :
    (x.bind f).run world trace = (f (x.run world trace).2).run world (x.run world trace).1 := by
  induction x generalizing trace with
  | done a => rfl
  | ask q next ih => exact ih _ _

/-! ## Likeness -/

/-- The same questions, and related results. -/
inductive Alike (R : α → β → Prop) : Ask A α → Ask A β → Prop
  | done {a : α} {b : β} : R a b → Alike R (.done a) (.done b)
  | ask {q : Q} {next : A q → Ask A α} {next' : A q → Ask A β} :
      (∀ x, Alike R (next x) (next' x)) → Alike R (.ask q next) (.ask q next')

theorem Alike.refl {R : α → α → Prop} (hrefl : ∀ a, R a a) (x : Ask A α) : Alike R x x := by
  induction x with
  | done a => exact .done (hrefl a)
  | ask q next ih => exact .ask ih

theorem Alike.bind {R : α → β → Prop} {S : γ → δ → Prop} {x : Ask A α} {y : Ask A β}
    {f : α → Ask A γ} {g : β → Ask A δ} (hxy : Alike R x y)
    (hfg : ∀ a b, R a b → Alike S (f a) (g b)) : Alike S (x.bind f) (y.bind g) := by
  induction hxy with
  | done hab => exact hfg _ _ hab
  | ask _ ih => exact .ask ih

/-- In one world, programs that are alike leave the same trace. -/
theorem Alike.run {R : α → β → Prop} {x : Ask A α} {y : Ask A β} (h : Alike R x y)
    (world : World A) (trace : Trace A) :
    (Ask.run world trace x).1 = (Ask.run world trace y).1 ∧
      R (Ask.run world trace x).2 (Ask.run world trace y).2 := by
  induction h generalizing trace with
  | done hab => exact ⟨rfl, hab⟩
  | ask _ ih => exact ih _ _

end Ask

end Base
