/-
# `Karu.Base.System` — transition systems, and what every run of one keeps

A system is a first state and a partial function that performs an event.  What
different threads do is a sequence of events in some order: everything that
holds of every reachable state holds in every interleaving.

`Reachable allowed` reaches a state by events that are `allowed` where they
happen.  A result about every run has `allowed` always true.
-/

namespace Base

/-- A first state, and what an event makes of a state in which it can happen. -/
structure System (σ ε : Type) where
  start : σ
  step : σ → ε → Option σ

namespace System

variable {σ ε : Type} {S : System σ ε} {allowed : σ → ε → Prop}

/-- Reached by events each of which is allowed where it happens. -/
inductive Reachable (S : System σ ε) (allowed : σ → ε → Prop) : σ → Prop
  | start : Reachable S allowed S.start
  | step {s s' : σ} {e : ε} : Reachable S allowed s → allowed s e → S.step s e = some s' →
      Reachable S allowed s'

/-- Any event may happen. -/
abbrev Anything (_ : σ) (_ : ε) : Prop := True

/-- What holds at the start and is kept by every allowed step holds of every reachable state.  The
step may use that its first state is reachable. -/
theorem Reachable.invariant {I : σ → Prop} (hstart : I S.start)
    (hstep : ∀ {s s' : σ} {e : ε}, Reachable S allowed s → I s → allowed s e →
      S.step s e = some s' → I s') {s : σ} (h : Reachable S allowed s) : I s := by
  induction h with
  | start => exact hstart
  | step hreach hallowed hs ih => exact hstep hreach ih hallowed hs

theorem Reachable.mono {wider : σ → ε → Prop} (hwider : ∀ s e, allowed s e → wider s e) {s : σ}
    (h : Reachable S allowed s) : Reachable S wider s := by
  induction h with
  | start => exact .start
  | step _ hallowed hs ih => exact ih.step (hwider _ _ hallowed) hs

/-- The state after a list of events, if all of them are allowed and can happen. -/
def run (S : System σ ε) (allowed : σ → ε → Prop) [∀ s e, Decidable (allowed s e)] :
    σ → List ε → Option σ
  | s, [] => some s
  | s, e :: es => if allowed s e then (S.step s e).bind (S.run allowed · es) else none

theorem Reachable.run [∀ s e, Decidable (allowed s e)] : ∀ {es : List ε} {s s' : σ},
    Reachable S allowed s → S.run allowed s es = some s' → Reachable S allowed s'
  | [], s, s', hs, h => by
      cases h
      exact hs
  | e :: es, s, s', hs, h => by
      rw [System.run] at h
      split at h
      · rename_i hallowed
        rw [Option.bind_eq_some_iff] at h
        obtain ⟨s₁, hstep, hrest⟩ := h
        exact Reachable.run (hs.step hallowed hstep) hrest
      · cases h

end System

end Base
