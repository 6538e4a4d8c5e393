/-
# `Karu.Runtime.Scatter` — a stream in pieces, scattered over parts

`store_payload` is fed the payload piece by piece, cut wherever the network cut
it.  Its cursor runs past the parts that have ended, and its second loop stops at
the first part that has not begun; parts are sorted by where they begin, not by
where they end.  Whatever the cuts, every part ends up with its share of the
stream and with nothing else (`Scattered`), so the cuts make no difference.
-/
import Karu.Runtime.Stored

namespace Karu

open Base

variable {β : Type}

/-- `store_payload`, piece by piece. -/
def storeAll (chunks : List (List β)) (s : Live β) : Live β :=
  chunks.foldl (fun s data => storePayload data s) s

/-- Parts sorted by where they begin, each with a buffer of its own, and none past `2 ^ 64`. -/
structure Transfer.Scatters (t : Transfer) : Prop where
  scattered : t.scattered = true
  sorted : t.parts.Pairwise fun p q => p.relativeOffset ≤ q.relativeOffset
  distinct : t.parts.Pairwise Part.Apart
  stop_lt : ∀ p ∈ t.parts, p.relativeOffset + p.length < 2 ^ 64

/-- A cell of the region at `a` that no part takes from the stream between two positions. -/
def Transfer.Misses (t : Transfer) (first last : Nat) (a : Addr) (j : Nat) : Prop :=
  ∀ p ∈ t.parts, p.buffer = a →
    p.length ≤ j ∨ p.relativeOffset + j < first ∨ last ≤ p.relativeOffset + j

/-- Between the two states the stream `data` was stored: every part has its share of it, and every
other cell is as it was. -/
structure Scattered (s₀ s : Live β) (data : List β) : Prop where
  parts_eq : s.transfer.parts = s₀.transfer.parts
  scattered_eq : s.transfer.scattered = s₀.transfer.scattered
  received_eq : s.transfer.received = s₀.transfer.received + data.length
  cursor : ∀ p ∈ s₀.transfer.parts.take s.transfer.scatterCursor,
    p.relativeOffset + p.length ≤ s.transfer.received
  covered : ∀ p ∈ s₀.transfer.parts, ∀ j < p.length,
    s₀.transfer.received ≤ p.relativeOffset + j →
    p.relativeOffset + j < s₀.transfer.received + data.length →
    data[p.relativeOffset + j - s₀.transfer.received]? = some (s.memory.cell p.buffer j)
  kept : ∀ a j,
    s₀.transfer.Misses s₀.transfer.received (s₀.transfer.received + data.length) a j →
    s.memory.cell a j = s₀.memory.cell a j

section Scatter

variable {s₀ s : Live β} {data chunk : List β}

theorem Transfer.Scatters.stop_eq {t : Transfer} (h : t.Scatters) {p : Part} (hp : p ∈ t.parts) :
    p.stop = p.relativeOffset + p.length :=
  add64_of_lt (h.stop_lt p hp)

/-- Only one part has a buffer. -/
theorem Transfer.Scatters.part_unique {t : Transfer} (h : t.Scatters) {p q : Part}
    (hp : p ∈ t.parts) (hq : q ∈ t.parts) (hbuffer : q.buffer = p.buffer) : q = p := by
  by_contra hne
  exact h.distinct.forall hq hp hne hbuffer

theorem Scattered.nil (hcursor : s₀.transfer.scatterCursor = 0) : Scattered s₀ s₀ [] where
  parts_eq := rfl
  scattered_eq := rfl
  received_eq := rfl
  cursor := by simp [hcursor]
  covered := by
    intro p _ j _ h₁ h₂
    rw [List.length_nil] at h₂
    omega
  kept := fun _ _ _ => rfl

/-- One more piece. -/
theorem Scattered.store (ht : s₀.transfer.Scatters) (h : Scattered s₀ s data)
    (hlt : s₀.transfer.received + data.length + chunk.length < 2 ^ 64) :
    Scattered s₀ (storePayload chunk s) (data ++ chunk) := by
  have hadd : add64 s.transfer.received chunk.length = s.transfer.received + chunk.length :=
    add64_of_lt (by rw [h.received_eq]; exact hlt)
  have hscattered : s.transfer.scattered = true := h.scattered_eq.trans ht.scattered
  have hlen : chunk.length = s.transfer.received + chunk.length - s.transfer.received := by omega
  have hreceived := h.received_eq
  simp only [storePayload, hscattered, hadd, h.parts_eq, Bool.not_true, Bool.false_eq_true, if_false]
  generalize hc : advanceCursor s₀.transfer.parts s.transfer.received s.transfer.scatterCursor = c
  have hstops : ∀ q ∈ s₀.transfer.parts.drop c, q.stop = q.relativeOffset + q.length :=
    fun q hq => ht.stop_eq (List.mem_of_mem_drop hq)
  -- what the cursor has passed has ended before this piece
  have hpassed : ∀ p ∈ s₀.transfer.parts.take c,
      p.relativeOffset + p.length ≤ s.transfer.received := by
    intro p hp
    subst hc
    rcases mem_take_advanceCursor hp with hold | hstop
    · exact h.cursor p hold
    · rwa [ht.stop_eq (List.mem_of_mem_take hp)] at hstop
  constructor
  · rfl
  · exact ht.scattered.symm
  · simp only [List.length_append]
    omega
  · intro p hp
    exact (hpassed p hp).trans (Nat.le_add_right _ _)
  · intro p hp j hj h₁ h₂
    rw [List.length_append] at h₂
    by_cases hold : p.relativeOffset + j < s.transfer.received
    · rw [List.getElem?_append_left (by omega), h.covered p hp j hj h₁ (by omega)]
      rw [scatter_outside _ _ hlen hstops]
      intro q hq hbuffer
      rw [ht.part_unique hp (List.mem_of_mem_drop hq) hbuffer]
      exact .inl hold
    · have hdrop : p ∈ s₀.transfer.parts.drop c := by
        have hmem := hp
        rw [← List.take_append_drop c s₀.transfer.parts, List.mem_append] at hmem
        refine hmem.resolve_left fun htake => ?_
        have := hpassed p htake
        omega
      rw [List.getElem?_append_right (by omega)]
      rw [← scatter_inside _ s.memory hlen hstops (ht.sorted.sublist (List.drop_sublist c _))
        (ht.distinct.sublist (List.drop_sublist c _)) hdrop (by omega) (by omega) hj]
      congr 1
      omega
  · intro a j hmiss
    rw [List.length_append] at hmiss
    rw [scatter_outside _ _ hlen hstops, h.kept a j]
    · intro p hp hbuffer
      have := hmiss p hp hbuffer
      omega
    · intro p hp hbuffer
      have := hmiss p (List.mem_of_mem_drop hp) hbuffer
      omega

/-- All of them. -/
theorem Scattered.all (ht : s₀.transfer.Scatters) : ∀ (chunks : List (List β)) (s : Live β)
    (data : List β), Scattered s₀ s data →
    s₀.transfer.received + data.length + chunks.flatten.length < 2 ^ 64 →
    Scattered s₀ (storeAll chunks s) (data ++ chunks.flatten)
  | [], s, data, h, _ => by simpa [storeAll] using h
  | chunk :: chunks, s, data, h, hlt => by
      rw [List.flatten_cons, List.length_append] at hlt
      have hnext := h.store ht (show s₀.transfer.received + data.length + chunk.length < 2 ^ 64 by
        omega)
      have hrest := Scattered.all ht chunks _ _ hnext (by rw [List.length_append]; omega)
      rwa [List.append_assoc, ← List.flatten_cons] at hrest

/-- The stream decides every cell. -/
theorem Scattered.cell_eq {s' : Live β} (h : Scattered s₀ s data) (h' : Scattered s₀ s' data) :
    s'.memory.cell = s.memory.cell := by
  funext a j
  by_cases hmiss : s₀.transfer.Misses s₀.transfer.received (s₀.transfer.received + data.length) a j
  · rw [h.kept a j hmiss, h'.kept a j hmiss]
  · simp only [Transfer.Misses, not_forall, not_or, Nat.not_le, Nat.not_lt] at hmiss
    obtain ⟨p, hp, rfl, hj, h₁, h₂⟩ := hmiss
    have heq := (h.covered p hp j hj h₁ h₂).symm.trans (h'.covered p hp j hj h₁ h₂)
    exact (Option.some.inj heq).symm

/-- Wherever the stream is cut, every part that covers a position of it has the stream's byte there,
every other cell is as it was, and another way to cut the same stream leaves the same. -/
theorem storeAll_scatters (s₀ : Live β) (ht : s₀.transfer.Scatters)
    (hcursor : s₀.transfer.scatterCursor = 0) (chunks : List (List β))
    (hlt : s₀.transfer.received + chunks.flatten.length < 2 ^ 64) :
    (∀ p ∈ s₀.transfer.parts, ∀ j < p.length, s₀.transfer.received ≤ p.relativeOffset + j →
      p.relativeOffset + j < s₀.transfer.received + chunks.flatten.length →
      chunks.flatten[p.relativeOffset + j - s₀.transfer.received]? =
        some ((storeAll chunks s₀).memory.cell p.buffer j)) ∧
    (∀ a j,
      s₀.transfer.Misses s₀.transfer.received (s₀.transfer.received + chunks.flatten.length) a j →
      (storeAll chunks s₀).memory.cell a j = s₀.memory.cell a j) ∧
    (storeAll chunks s₀).transfer.received = s₀.transfer.received + chunks.flatten.length ∧
    ∀ chunks', chunks'.flatten = chunks.flatten →
      (storeAll chunks' s₀).memory.cell = (storeAll chunks s₀).memory.cell ∧
      (storeAll chunks' s₀).transfer.received = (storeAll chunks s₀).transfer.received := by
  have hall : ∀ pieces : List (List β), pieces.flatten = chunks.flatten →
      Scattered s₀ (storeAll pieces s₀) chunks.flatten := by
    intro pieces hsame
    have hstored := Scattered.all ht pieces s₀ [] (.nil hcursor) (by rw [hsame]; simpa using hlt)
    rwa [List.nil_append, hsame] at hstored
  have h := hall chunks rfl
  refine ⟨h.covered, h.kept, h.received_eq, fun chunks' hsame => ?_⟩
  have h' := hall chunks' hsame
  exact ⟨h.cell_eq h', h'.received_eq.trans h.received_eq.symm⟩

end Scatter

/-- A part inside another, and one behind a gap. -/
def nestedParts : List Part :=
  [{ relativeOffset := 0, length := 6, buffer := .heap 1 },
    { relativeOffset := 2, length := 2, buffer := .heap 2 },
    { relativeOffset := 8, length := 2, buffer := .heap 3 }]

def nestedRead : Live UInt8 where
  transfer := { locator := {}, length := 10, parts := nestedParts, scattered := true, received := 1 }
  memory := ⟨fun _ _ => 0, []⟩

theorem nestedRead_scatters : nestedRead.transfer.Scatters where
  scattered := rfl
  sorted := by simp [nestedRead, nestedParts]
  distinct := by simp [nestedRead, nestedParts, Part.Apart]
  stop_lt := by decide

theorem storeAll_scatters_nested :
    (storeAll [[1, 2], [3, 4, 5, 6, 7, 8], [9]] nestedRead).memory.cell =
        (storeAll [[1, 2, 3, 4, 5, 6, 7, 8, 9]] nestedRead).memory.cell ∧
      (storeAll [[1, 2], [3, 4, 5, 6, 7, 8], [9]] nestedRead).memory.read (.heap 1) 0 6 =
        [0, 1, 2, 3, 4, 5] :=
  ⟨((storeAll_scatters nestedRead nestedRead_scatters rfl [[1, 2, 3, 4, 5, 6, 7, 8, 9]]
    (by decide)).2.2.2 [[1, 2], [3, 4, 5, 6, 7, 8], [9]] rfl).1, by decide⟩

end Karu
