/-
# `Karu.Base.Feed` — a machine that may refuse its input

A machine reads a list of inputs one at a time.  It answers each with a new
state and a verdict; the first refusal ends the run, and the inputs after it
are never seen.  This is how a library drives the callbacks it was given.

A property of states that one input preserves holds at the end of a run
(`feed_induct`), and a run over two lists is the second run started where the
first one stopped (`feed_append`).
-/
import Mathlib.Logic.Basic

namespace Base

variable {σ ε : Type*}

/-- Run until the list ends or an input is refused. -/
def feed (f : ε → σ → σ × Bool) : List ε → σ → σ × Bool
  | [], s => (s, true)
  | e :: es, s => if (f e s).2 then feed f es (f e s).1 else ((f e s).1, false)

variable {f : ε → σ → σ × Bool}

@[simp] theorem feed_nil (s : σ) : feed f [] s = (s, true) := rfl

theorem feed_cons_true {e : ε} {es : List ε} {s : σ} (h : (f e s).2 = true) :
    feed f (e :: es) s = feed f es (f e s).1 := by
  simp [feed, h]

theorem feed_cons_false {e : ε} {es : List ε} {s : σ} (h : (f e s).2 = false) :
    feed f (e :: es) s = ((f e s).1, false) := by
  simp [feed, h]

theorem feed_singleton (e : ε) (s : σ) : feed f [e] s = f e s := by
  cases h : (f e s).2 with
  | true => rw [feed_cons_true h, feed_nil, ← h]
  | false => rw [feed_cons_false h, ← h]

theorem feed_append (es es' : List ε) (s : σ) :
    feed f (es ++ es') s =
      if (feed f es s).2 then feed f es' (feed f es s).1 else ((feed f es s).1, false) := by
  induction es generalizing s with
  | nil => simp
  | cons e es ih =>
      cases h : (f e s).2 with
      | true => rw [List.cons_append, feed_cons_true h, feed_cons_true h, ih]
      | false => simp [List.cons_append, feed_cons_false h]

/-- What every accepted or refused input preserves, a run preserves. -/
theorem feed_induct {P : σ → Prop} {es : List ε} (hstep : ∀ e ∈ es, ∀ s, P s → P (f e s).1)
    {s : σ} (hs : P s) : P (feed f es s).1 := by
  induction es generalizing s with
  | nil => exact hs
  | cons e es ih =>
      have hnext : P (f e s).1 := hstep e List.mem_cons_self s hs
      cases h : (f e s).2 with
      | true =>
          rw [feed_cons_true h]
          exact ih (fun e he => hstep e (List.mem_cons_of_mem _ he)) hnext
      | false =>
          rw [feed_cons_false h]
          exact hnext

/-- What every accepted input preserves, a run without refusals preserves. -/
theorem feed_accepted {P : σ → Prop} {es : List ε}
    (hstep : ∀ e s, P s → (f e s).2 = true → P (f e s).1) {s : σ} (hs : P s)
    (hrun : (feed f es s).2 = true) : P (feed f es s).1 := by
  induction es generalizing s with
  | nil => exact hs
  | cons e es ih =>
      cases h : (f e s).2 with
      | true =>
          rw [feed_cons_true h] at hrun ⊢
          exact ih (hstep e s hs h) hrun
      | false =>
          rw [feed_cons_false h] at hrun
          cases hrun

/-- What holds after any refused input, holds after a run that was refused one. -/
theorem feed_refused {P : σ → Prop} {es : List ε} (hstep : ∀ e s, (f e s).2 = false → P (f e s).1)
    {s : σ} (hrun : (feed f es s).2 = false) : P (feed f es s).1 := by
  induction es generalizing s with
  | nil => cases hrun
  | cons e es ih =>
      cases h : (f e s).2 with
      | true =>
          rw [feed_cons_true h] at hrun ⊢
          exact ih hrun
      | false =>
          rw [feed_cons_false h]
          exact hstep e s h

/-- A run over at least one input ends with the answer to one of them, given in a state
that the inputs before it led to. -/
theorem feed_ends {P : σ → Prop} {es : List ε} (hne : es ≠ [])
    (hstep : ∀ e ∈ es, ∀ s, P s → P (f e s).1) {s : σ} (hs : P s) :
    ∃ e ∈ es, ∃ s', P s' ∧ feed f es s = f e s' := by
  induction es generalizing s with
  | nil => exact absurd rfl hne
  | cons e es ih =>
      cases h : (f e s).2 with
      | false =>
          exact ⟨e, List.mem_cons_self, s, hs, by rw [feed_cons_false h, ← h]⟩
      | true =>
          rw [feed_cons_true h]
          cases es with
          | nil => exact ⟨e, List.mem_cons_self, s, hs, by rw [feed_nil, ← h]⟩
          | cons e' es =>
              obtain ⟨d, hd, s', hs', he⟩ := ih (List.cons_ne_nil _ _)
                (fun e he => hstep e (List.mem_cons_of_mem _ he))
                (hstep e List.mem_cons_self s hs)
              exact ⟨d, List.mem_cons_of_mem _ hd, s', hs', he⟩

end Base
