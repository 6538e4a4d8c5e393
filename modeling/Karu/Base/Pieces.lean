/-
# `Karu.Base.Pieces` — a content put together from pieces

A piece is a list that belongs at an offset.  Writing a piece over a content
replaces what stands there; a content that is too short is filled up first.  When
every position below a size is in exactly one piece, the order of the writes does
not matter: `byte_replay` reads each element back from the piece it came in.

`Same` compares two ways to cut the same elements into pieces.
-/
import Mathlib.Data.List.Basic

namespace Base

variable {β : Type}

/-- The piece has an element for the position. -/
def covers (p : Nat) (x : Nat × List β) : Bool := decide (x.1 ≤ p ∧ p < x.1 + x.2.length)

/-- Some piece has this element for the position. -/
def HasAt (xs : List (Nat × List β)) (p : Nat) (b : β) : Prop :=
  ∃ x ∈ xs, x.1 ≤ p ∧ x.2[p - x.1]? = some b

theorem covers_of_getElem? {x : Nat × List β} {p : Nat} {b : β} (hle : x.1 ≤ p)
    (hb : x.2[p - x.1]? = some b) : covers p x = true := by
  obtain ⟨hlt, -⟩ := List.getElem?_eq_some_iff.mp hb
  exact decide_eq_true ⟨hle, by omega⟩

/-! ## Writing -/

/-- A piece over a content; nothing is filled up for a piece without elements. -/
def splice (zero : β) (content : List β) (x : Nat × List β) : List β :=
  if x.2.isEmpty then content
  else
    let filled := content ++ List.replicate (x.1 - content.length) zero
    filled.take x.1 ++ (x.2 ++ filled.drop (x.1 + x.2.length))

/-- One piece after the other. -/
def replay (zero : β) (xs : List (Nat × List β)) (content : List β) : List β :=
  xs.foldl (splice zero) content

section Splice

variable (zero : β) {content : List β} {x : Nat × List β}

/-- Inside the content, a piece changes its own positions only. -/
theorem getElem?_splice (hx : x.2 ≠ [] → x.1 + x.2.length ≤ content.length) (p : Nat) :
    (splice zero content x)[p]? = if covers p x then x.2[p - x.1]? else content[p]? := by
  by_cases hempty : x.2 = []
  · have hcovers : covers p x = false := by
      refine decide_eq_false fun h => ?_
      rw [hempty, List.length_nil] at h
      omega
    rw [splice, if_pos (by rw [hempty]; rfl), hcovers]
    rfl
  · have hlen := hx hempty
    have hfill : content ++ List.replicate (x.1 - content.length) zero = content := by
      rw [Nat.sub_eq_zero_of_le (by omega), List.replicate_zero, List.append_nil]
    rw [splice, if_neg (by rwa [List.isEmpty_iff]), hfill, List.getElem?_append,
      List.length_take_of_le (by omega), List.getElem?_append]
    by_cases hbefore : p < x.1
    · rw [if_pos hbefore, covers, decide_eq_false (by omega), List.getElem?_take_of_lt hbefore]
      rfl
    · rw [if_neg hbefore]
      by_cases hinside : p < x.1 + x.2.length
      · rw [if_pos (by omega), covers, decide_eq_true (by omega)]
        rfl
      · rw [if_neg (by omega), covers, decide_eq_false (by omega), List.getElem?_drop,
          show x.1 + x.2.length + (p - x.1 - x.2.length) = p by omega]
        rfl

theorem length_splice (hx : x.2 ≠ [] → x.1 + x.2.length ≤ content.length) :
    (splice zero content x).length = content.length := by
  by_cases hempty : x.2 = []
  · rw [splice, if_pos (by rw [hempty]; rfl)]
  · have hlen := hx hempty
    have hfill : content ++ List.replicate (x.1 - content.length) zero = content := by
      rw [Nat.sub_eq_zero_of_le (by omega), List.replicate_zero, List.append_nil]
    rw [splice, if_neg (by rwa [List.isEmpty_iff]), hfill]
    simp only [List.length_append, List.length_take, List.length_drop]
    omega

end Splice

/-- Each position below the size is in exactly one piece, and no other in any. -/
def Exact (size : Nat) (xs : List (Nat × List β)) : Prop :=
  ∀ p, xs.countP (covers p) = if p < size then 1 else 0

theorem Exact.within {size : Nat} {xs : List (Nat × List β)} (h : Exact size xs)
    {x : Nat × List β} (hx : x ∈ xs) (hne : x.2 ≠ []) : x.1 + x.2.length ≤ size := by
  by_contra hlt
  have hlen : 0 < x.2.length := List.length_pos_iff.mpr hne
  have hzero := h (x.1 + x.2.length - 1)
  rw [if_neg (by omega)] at hzero
  have := List.countP_eq_zero.mp hzero x hx
  exact this (decide_eq_true (by omega))

section Replay

variable (zero : β)

theorem length_replay {size : Nat} : ∀ {xs : List (Nat × List β)} {content : List β},
    content.length = size → (∀ x ∈ xs, x.2 ≠ [] → x.1 + x.2.length ≤ size) →
    (replay zero xs content).length = size := by
  intro xs
  induction xs with
  | nil =>
      intro content hlen _
      exact hlen
  | cons x xs ih =>
      intro content hlen hxs
      refine ih ?_ fun y hy => hxs y (List.mem_cons_of_mem _ hy)
      rw [length_splice zero (by rw [hlen]; exact hxs x List.mem_cons_self), hlen]

/-- A position that no piece has keeps its element; one that a single piece has gets it. -/
theorem getElem?_replay {size : Nat} {p : Nat} : ∀ {xs : List (Nat × List β)} {content : List β},
    content.length = size → (∀ x ∈ xs, x.2 ≠ [] → x.1 + x.2.length ≤ size) →
    (xs.countP (covers p) = 0 → (replay zero xs content)[p]? = content[p]?) ∧
    (xs.countP (covers p) = 1 → ∀ x ∈ xs, covers p x = true →
      (replay zero xs content)[p]? = x.2[p - x.1]?) := by
  intro xs
  induction xs with
  | nil =>
      intro content _ _
      exact ⟨fun _ => rfl, fun h => by cases h⟩
  | cons y ys ih =>
      intro content hlen hxs
      have hy : y.2 ≠ [] → y.1 + y.2.length ≤ content.length := by
        rw [hlen]
        exact hxs y List.mem_cons_self
      obtain ⟨hnone, hone⟩ := ih (by rw [length_splice zero hy, hlen])
        fun x hx => hxs x (List.mem_cons_of_mem _ hx)
      have hhead := getElem?_splice zero hy p
      rw [List.countP_cons]
      cases hcovers : covers p y with
      | false =>
          rw [hcovers] at hhead
          refine ⟨fun h => (hnone h).trans hhead, fun h x hx hp => ?_⟩
          rcases List.mem_cons.mp hx with rfl | hx
          · rw [hcovers] at hp
            cases hp
          · exact hone h x hx hp
      | true =>
          rw [hcovers] at hhead
          refine ⟨fun h => absurd h (Nat.succ_ne_zero _), fun h x hx hp => ?_⟩
          have hrest : ys.countP (covers p) = 0 := Nat.succ.inj h
          rcases List.mem_cons.mp hx with rfl | hx
          · exact (hnone hrest).trans hhead
          · exact absurd hp (List.countP_eq_zero.mp hrest x hx)

end Replay

/-! ## Two ways to cut -/

/-- The same elements at the same positions, as often. -/
structure Same (xs ys : List (Nat × List β)) : Prop where
  count : ∀ p, xs.countP (covers p) = ys.countP (covers p)
  has : ∀ p b, HasAt xs p b ↔ HasAt ys p b

namespace Same

variable {xs ys xs' ys' : List (Nat × List β)}

theorem refl (xs : List (Nat × List β)) : Same xs xs := ⟨fun _ => rfl, fun _ _ => Iff.rfl⟩

theorem trans {zs : List (Nat × List β)} (h : Same xs ys) (h' : Same ys zs) : Same xs zs :=
  ⟨fun p => (h.count p).trans (h'.count p), fun p b => (h.has p b).trans (h'.has p b)⟩

theorem append (h : Same xs ys) (h' : Same xs' ys') : Same (xs ++ xs') (ys ++ ys') := by
  have hsplit : ∀ (us vs : List (Nat × List β)) p b,
      HasAt (us ++ vs) p b ↔ HasAt us p b ∨ HasAt vs p b := by
    intro us vs p b
    simp only [HasAt, List.mem_append, or_and_right, exists_or]
  refine ⟨fun p => ?_, fun p b => ?_⟩
  · rw [List.countP_append, List.countP_append, h.count, h'.count]
  · rw [hsplit, hsplit, h.has, h'.has]

/-- A piece without elements is nothing. -/
theorem empty (offset : Nat) : Same [(offset, ([] : List β))] [] := by
  refine ⟨fun p => ?_, fun p b => ⟨?_, ?_⟩⟩
  · refine (List.countP_eq_zero.mpr fun x hx => ?_).trans rfl
    rw [List.mem_singleton.mp hx]
    exact Bool.eq_false_iff.mp (decide_eq_false (by simp only [List.length_nil]; omega))
  · rintro ⟨x, hx, -, hb⟩
    rw [List.mem_singleton.mp hx] at hb
    cases hb
  · rintro ⟨x, hx, -⟩
    cases hx

/-- A piece is its beginning and its rest. -/
theorem cut (offset : Nat) {bytes : List β} {n : Nat} (hn : n ≤ bytes.length) :
    Same [(offset, bytes)] [(offset, bytes.take n), (offset + n, bytes.drop n)] := by
  refine ⟨fun p => ?_, fun p b => ⟨?_, ?_⟩⟩
  · simp only [List.countP_cons, List.countP_nil, covers, List.length_take_of_le hn,
      List.length_drop, decide_eq_true_eq]
    split_ifs <;> omega
  · rintro ⟨x, hx, hle, hb⟩
    rw [List.mem_singleton.mp hx] at hle hb
    by_cases hp : p < offset + n
    · refine ⟨_, List.mem_cons_self, hle, ?_⟩
      rwa [List.getElem?_take_of_lt (by omega)]
    · refine ⟨_, List.mem_cons_of_mem _ List.mem_cons_self, by omega, ?_⟩
      rw [List.getElem?_drop, show n + (p - (offset + n)) = p - offset by omega]
      exact hb
  · rintro ⟨x, hx, hle, hb⟩
    refine ⟨_, List.mem_cons_self, ?_⟩
    rcases List.mem_cons.mp hx with rfl | hx
    · obtain ⟨hlt, -⟩ := List.getElem?_eq_some_iff.mp hb
      rw [List.length_take_of_le hn] at hlt
      rw [List.getElem?_take_of_lt hlt] at hb
      exact ⟨hle, hb⟩
    · rw [List.mem_singleton.mp hx] at hle hb
      rw [List.getElem?_drop, show n + (p - (offset + n)) = p - offset by omega] at hb
      exact ⟨by omega, hb⟩

end Same

/-- What was cut one way and written the other way is there, whole. -/
theorem byte_replay {zero : β} {size : Nat} {xs ys : List (Nat × List β)} {content : List β}
    (hlen : content.length = size) (hexact : Exact size ys) (hsame : Same xs ys) {p : Nat} {b : β}
    (h : HasAt xs p b) : (replay zero ys content)[p]? = some b := by
  obtain ⟨y, hy, hle, hb⟩ := (hsame.has p b).mp h
  have hcovers := covers_of_getElem? hle hb
  have hone : ys.countP (covers p) = 1 := by
    have hpos : 0 < ys.countP (covers p) := List.countP_pos_iff.mpr ⟨y, hy, hcovers⟩
    have := hexact p
    split at this
    · exact this
    · omega
  rw [(getElem?_replay zero hlen fun x hx => hexact.within hx).2 hone y hy hcovers, hb]

end Base
