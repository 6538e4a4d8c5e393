/-
# `Karu.Base.Program` — programs over a state, and rules for them

A program goes from a state to a value or a failure, and to the state it leaves.
A loop is given a number of turns; when they are used up there is no result.

Three rules say what a program does.  `Keeps` is about every run that ends, with a
value or with a failure; `Ends` says besides that there is such a run from every
state.  Where it is a matter of turns that a program ends, `Completes` says that
from some number of turns on, the result is there and does not change.
-/
import Mathlib.Data.List.Induction
import Mathlib.Order.Lattice.Nat

namespace Base

/-- A program over states `σ`, with failures `ε` and values `α`. -/
def Program (σ ε α : Type) : Type := σ → Option (Except ε α × σ)

namespace Program

variable {σ ε ε' α β : Type}

/-- What follows the first program. -/
def next (k : α → Program σ ε β) : Except ε α × σ → Option (Except ε β × σ)
  | (.ok a, s) => k a s
  | (.error e, s) => some (.error e, s)

instance : Monad (Program σ ε) where
  pure a := fun s => some (.ok a, s)
  bind p k := fun s => (p s).bind (next k)

/-- No turns are left. -/
def stuck : Program σ ε α := fun _ => none

/-- The program fails. -/
def fail (e : ε) : Program σ ε α := fun s => some (.error e, s)

/-- The state. -/
def get : Program σ ε σ := fun s => some (.ok s, s)

/-- A change of the state. -/
def change (f : σ → σ) : Program σ ε Unit := fun s => some (.ok (), f s)

/-- The same program, with other failures. -/
def failingWith (f : ε → ε') (p : Program σ ε α) : Program σ ε' α := fun s =>
  (p s).map fun r => (r.1.mapError f, r.2)

/-- `p`, and `f` on the way out, however `p` ends. -/
def leaving (p : Program σ ε α) (f : σ → σ) : Program σ ε α := fun s =>
  (p s).map fun r => (r.1, f r.2)

/-- A run of `p >>= k` that ends: `p` has failed, or `k` has ended. -/
theorem bind_cases {p : Program σ ε α} {k : α → Program σ ε β} {s s' : σ} {r : Except ε β}
    (h : (p >>= k) s = some (r, s')) :
    (∃ e, p s = some (.error e, s') ∧ r = .error e) ∨
      ∃ a t, p s = some (.ok a, t) ∧ k a t = some (r, s') := by
  obtain ⟨⟨first, t⟩, hp, hk⟩ := Option.bind_eq_some_iff.mp h
  cases first with
  | ok a => exact Or.inr ⟨a, t, hp, hk⟩
  | error e =>
      cases hk
      exact Or.inl ⟨e, hp, rfl⟩

theorem bind_ok {p : Program σ ε α} {k : α → Program σ ε β} {s t : σ} {a : α}
    (h : p s = some (.ok a, t)) : (p >>= k) s = k a t := by
  show (p s).bind (next k) = k a t
  rw [h]
  rfl

theorem failingWith_ok {p : Program σ ε α} {f : ε → ε'} {s s' : σ} {a : α}
    (h : p.failingWith f s = some (.ok a, s')) : p s = some (.ok a, s') := by
  obtain ⟨⟨first, t⟩, hp, hr⟩ := Option.map_eq_some_iff.mp h
  cases first with
  | ok b =>
      cases hr
      exact hp
  | error e => cases hr

/-- A run of `p >>= k` that ends with a value. -/
theorem ok_of_bind {p : Program σ ε α} {k : α → Program σ ε β} {s s' : σ} {b : β}
    (h : (p >>= k) s = some (.ok b, s')) :
    ∃ a t, p s = some (.ok a, t) ∧ k a t = some (.ok b, s') := by
  rcases bind_cases h with ⟨e, -, hr⟩ | hok
  · cases hr
  · exact hok

/-! ## Every run -/

/-- `I` holds of what is left where it held before. -/
def Keeps (I : σ → Prop) (p : Program σ ε α) : Prop :=
  ∀ s r s', I s → p s = some (r, s') → I s'

variable {I : σ → Prop}

theorem Keeps.pure (a : α) : Keeps I (Pure.pure a : Program σ ε α) := by
  intro s r s' hs h
  cases h
  exact hs

theorem Keeps.stuck : Keeps I (Program.stuck : Program σ ε α) := by
  intro s r s' _ h
  cases h

theorem Keeps.fail (e : ε) : Keeps I (Program.fail e : Program σ ε α) := by
  intro s r s' hs h
  cases h
  exact hs

theorem Keeps.get : Keeps I (Program.get : Program σ ε σ) := by
  intro s r s' hs h
  cases h
  exact hs

theorem Keeps.change {f : σ → σ} (hf : ∀ s, I s → I (f s)) :
    Keeps I (Program.change f : Program σ ε Unit) := by
  intro s r s' hs h
  cases h
  exact hf s hs

theorem Keeps.bind {p : Program σ ε α} {k : α → Program σ ε β} (hp : Keeps I p)
    (hk : ∀ a, Keeps I (k a)) : Keeps I (p >>= k) := by
  intro s r s' hs h
  rcases bind_cases h with ⟨e, hpe, -⟩ | ⟨a, t, hpa, hka⟩
  · exact hp s _ s' hs hpe
  · exact hk a t r s' (hp s _ t hs hpa) hka

theorem Keeps.failingWith {p : Program σ ε α} (f : ε → ε') (hp : Keeps I p) :
    Keeps I (p.failingWith f) := by
  intro s r s' hs h
  obtain ⟨⟨first, t⟩, hpr, hr⟩ := Option.map_eq_some_iff.mp h
  cases hr
  exact hp s first t hs hpr

/-! ## Programs that end -/

/-- The program ends, and keeps `I`. -/
def Ends (I : σ → Prop) (p : Program σ ε α) : Prop :=
  ∀ s, I s → ∃ r s', p s = some (r, s') ∧ I s'

theorem Ends.pure (a : α) : Ends I (Pure.pure a : Program σ ε α) := by
  intro s hs
  exact ⟨.ok a, s, rfl, hs⟩

theorem Ends.fail (e : ε) : Ends I (Program.fail e : Program σ ε α) := by
  intro s hs
  exact ⟨.error e, s, rfl, hs⟩

theorem Ends.get : Ends I (Program.get : Program σ ε σ) := by
  intro s hs
  exact ⟨.ok s, s, rfl, hs⟩

theorem Ends.change {f : σ → σ} (hf : ∀ s, I s → I (f s)) :
    Ends I (Program.change f : Program σ ε Unit) := by
  intro s hs
  exact ⟨.ok (), f s, rfl, hf s hs⟩

theorem Ends.bind {p : Program σ ε α} {k : α → Program σ ε β} (hp : Ends I p)
    (hk : ∀ a, Ends I (k a)) : Ends I (p >>= k) := by
  intro s hs
  obtain ⟨first, t, hrun, ht⟩ := hp s hs
  cases first with
  | error e =>
      refine ⟨.error e, t, ?_, ht⟩
      show (p s).bind (next k) = _
      rw [hrun]
      rfl
  | ok a =>
      obtain ⟨r, s', hrest, hs'⟩ := hk a t ht
      exact ⟨r, s', (bind_ok hrun).trans hrest, hs'⟩

theorem Ends.failingWith {p : Program σ ε α} (f : ε → ε') (hp : Ends I p) :
    Ends I (p.failingWith f) := by
  intro s hs
  obtain ⟨r, s', hrun, hs'⟩ := hp s hs
  refine ⟨r.mapError f, s', ?_, hs'⟩
  rw [Program.failingWith, hrun]
  rfl

/-! ## Enough turns -/

/-- With enough turns, `p` ends with this value and this state. -/
def Completes (p : Nat → Program σ ε α) (s : σ) (a : α) (s' : σ) : Prop :=
  ∃ enough, ∀ turns, enough ≤ turns → p turns s = some (.ok a, s')

theorem Completes.of_eq {p : Nat → Program σ ε α} {s s' : σ} {a : α}
    (h : ∀ turns, p turns s = some (.ok a, s')) : Completes p s a s' :=
  ⟨0, fun turns _ => h turns⟩

theorem Completes.bind {p : Nat → Program σ ε α} {k : Nat → α → Program σ ε β} {s t s' : σ} {a : α}
    {b : β} (hp : Completes p s a t) (hk : Completes (fun turns => k turns a) t b s') :
    Completes (fun turns => p turns >>= k turns) s b s' := by
  obtain ⟨m, hm⟩ := hp
  obtain ⟨n, hn⟩ := hk
  refine ⟨max m n, fun turns hturns => ?_⟩
  show (p turns >>= k turns) s = _
  rw [bind_ok (hm turns (le_trans (le_max_left m n) hturns))]
  exact hn turns (le_trans (le_max_right m n) hturns)

/-- A first step that takes one turn. -/
theorem Completes.step {p q : Nat → Program σ ε α} {s t s' : σ} {a : α}
    (h : ∀ turns, p (turns + 1) s = q turns t) (hq : Completes q t a s') : Completes p s a s' := by
  obtain ⟨enough, hq⟩ := hq
  refine ⟨enough + 1, fun turns hturns => ?_⟩
  cases turns with
  | zero => exact absurd hturns (Nat.not_succ_le_zero _)
  | succ turns => exact (h turns).trans (hq turns (Nat.le_of_succ_le_succ hturns))

theorem Completes.failingWith {p : Nat → Program σ ε α} {f : ε → ε'} {s s' : σ} {a : α}
    (h : Completes p s a s') : Completes (fun turns => (p turns).failingWith f) s a s' := by
  obtain ⟨enough, h⟩ := h
  refine ⟨enough, fun turns hturns => ?_⟩
  show ((p turns s).map fun r => (r.1.mapError f, r.2)) = _
  rw [h turns hturns]
  rfl

/-- A run that there is. -/
theorem Completes.exists_run {p : Nat → Program σ ε α} {s s' : σ} {a : α}
    (h : Completes p s a s') : ∃ turns, p turns s = some (.ok a, s') := by
  obtain ⟨enough, h⟩ := h
  exact ⟨enough, h enough (Nat.le_refl _)⟩

end Program

/-! ## Records -/

section Records

variable {ε : Type} {P : List ε → ε → Prop}

/-- At each event of a record, `P` holds of what was recorded before. -/
def AtEach (P : List ε → ε → Prop) (log : List ε) : Prop :=
  ∀ before e, before ++ [e] <+: log → P before e

theorem AtEach.nil : AtEach P [] := by
  intro before e h
  exact absurd (List.prefix_nil.mp h) (by simp)

theorem AtEach.concat {log : List ε} {e : ε} (h : AtEach P log) (he : P log e) :
    AtEach P (log ++ [e]) := by
  intro before e' hprefix
  rcases List.prefix_concat_iff.mp hprefix with heq | hprefix
  · obtain ⟨rfl, hsingle⟩ := List.append_inj' heq rfl
    cases hsingle
    exact he
  · exact h before e' hprefix

/-- Events of which nothing is asked. -/
theorem AtEach.append {log : List ε} (h : AtEach P log) :
    ∀ {es : List ε}, (∀ e ∈ es, ∀ before, P before e) → AtEach P (log ++ es) := by
  intro es
  induction es using List.reverseRecOn with
  | nil =>
      intro _
      rwa [List.append_nil]
  | append_singleton es e ih =>
      intro hes
      rw [← List.append_assoc]
      exact (ih fun e' he' => hes e' (List.mem_append_left _ he')).concat
        (hes e (List.mem_append_right _ (List.mem_singleton.mpr rfl)) _)

end Records

end Base
