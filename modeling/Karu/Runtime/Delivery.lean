/-
# `Karu.Runtime.Delivery` — what `Engine::deliver` makes of a loaded transfer

A transfer is loaded when it has received all the bytes of its range that the
object has, and each of them is where `deliver` leaves it for the part that
asked for it.  Then every part completes as a read of its own would: the bytes
of the object at its position, `KARU_ERR_RANGE` where there are too few.

A remote transfer stores into its parts directly.  A local read of several
parts is staged in the scratch vector, and `deliver` copies each part out of it
(`unstage_cell`).

Both write to the transfer's own buffers only, which is what lets transfers
share a memory (`deliver_frame`, `run_frame`).
-/
import Karu.Runtime.Integrity

namespace Karu

open Base

variable {β : Type}

/-! ## A read of its own -/

/-- What reading `n` bytes at `pos` comes to: the status, the count and the bytes. -/
def readOutcome (object : List β) (pos n : Nat) : Status × Nat × List β :=
  (if ((object.drop pos).take n).length = n then .ok else .errRange,
    ((object.drop pos).take n).length, (object.drop pos).take n)

/-- A completion as its receiver sees it: the status, the count and the first `got` bytes
of the buffer. -/
def Completion.seen (c : Completion) (m : Memory Addr β) : Status × Nat × List β :=
  (c.status, c.got, m.read c.buffer 0 c.got)

/-- All the bytes of the range that there are, each where its parts find it. -/
structure Loaded (object : List β) (t₀ : Transfer) (s : Live β) : Prop where
  parts_eq : s.transfer.parts = t₀.parts
  received_eq : s.transfer.received = min t₀.length (object.length - t₀.offset)
  cells : ∀ detail, ∀ p ∈ t₀.parts, ∀ i < s.transfer.received, p.relativeOffset ≤ i →
    i < p.relativeOffset + p.length → object[t₀.offset + i]? =
      some ((deliver s.transfer .ok detail s.memory).2.cell p.buffer (i - p.relativeOffset))

theorem deliverPart_buffer (t : Transfer) (status : Status) (detail : Text) (p : Part) :
    (deliverPart t status detail p).buffer = p.buffer := by
  unfold deliverPart
  repeat' split
  all_goals rfl

theorem deliverPart_tag (t : Transfer) (status : Status) (detail : Text) (p : Part) :
    (deliverPart t status detail p).tag = p.tag := by
  unfold deliverPart
  repeat' split
  all_goals rfl

/-- The count of a part, whether it is short or not. -/
theorem deliverPart_got (t : Transfer) (detail : Text) {p : Part}
    (hstop : p.stop = p.relativeOffset + p.length) :
    (deliverPart t .ok detail p).got = min p.length (t.received - p.relativeOffset) ∧
      (deliverPart t .ok detail p).status =
        if t.received < p.relativeOffset + p.length then .errRange else .ok := by
  simp only [deliverPart, if_true, hstop]
  split
  · refine ⟨?_, rfl⟩
    show (if p.relativeOffset < t.received then t.received - p.relativeOffset else 0) = _
    split <;> omega
  · refine ⟨?_, rfl⟩
    show p.length = _
    omega

/-- A part of a loaded transfer completes as a read of its own. -/
theorem Loaded.seen {object : List β} {t₀ : Transfer} {s : Live β} (h : Loaded object t₀ s)
    (hl : t₀.Layout) (detail : Text) {p : Part} (hp : p ∈ t₀.parts) :
    (deliverPart s.transfer .ok detail p).seen (deliver s.transfer .ok detail s.memory).2 =
      readOutcome object (t₀.offset + p.relativeOffset) p.length := by
  obtain ⟨hgot, hstatus⟩ := deliverPart_got s.transfer detail (hl.stop_eq hp)
  have hreceived := h.received_eq
  have hstop := hl.part_stop p hp
  have hpos := hl.part_pos p hp
  have hlen : ((object.drop (t₀.offset + p.relativeOffset)).take p.length).length =
      min p.length (s.transfer.received - p.relativeOffset) := by
    rw [List.length_take, List.length_drop]
    omega
  have hread : (deliver s.transfer .ok detail s.memory).2.read p.buffer 0
      (min p.length (s.transfer.received - p.relativeOffset)) =
      (object.drop (t₀.offset + p.relativeOffset)).take p.length := by
    refine Memory.read_eq_of_cells hlen fun i hi => ?_
    rw [hlen] at hi
    have hcell := h.cells detail p hp (p.relativeOffset + i) (by omega) (by omega) (by omega)
    have hin : t₀.offset + (p.relativeOffset + i) < object.length := by omega
    rw [List.getElem?_eq_getElem hin, Option.some.injEq, Nat.add_sub_cancel_left] at hcell
    rw [Nat.zero_add, ← hcell, List.getElem_take, List.getElem_drop]
    congr 1
    omega
  unfold Completion.seen readOutcome
  rw [deliverPart_buffer, hgot, hstatus, hlen, hread]
  congr 1
  split <;> split <;> first | rfl | omega

/-! ## Out of the scratch vector -/

/-- `deliver` writes to the buffers of the parts only. -/
theorem unstage_frame {t : Transfer} {got : Part → Nat} {a : Addr} :
    ∀ (ps : List Part) (m : Memory Addr β), (∀ p ∈ ps, p.buffer ≠ a) → ∀ i,
      (ps.foldl (fun m p => unstagePart t (got p) p m) m).cell a i = m.cell a i
  | [], _, _, _ => rfl
  | p :: ps, m, ha, i => by
      rw [List.foldl_cons, unstage_frame ps _ (fun q hq => ha q (List.mem_cons_of_mem _ hq))]
      unfold unstagePart
      split
      · exact Memory.cell_memcpy_outside m (Or.inl (ha p List.mem_cons_self).symm)
      · rfl

/-- Every part finds its share of the scratch vector in its own buffer. -/
theorem unstage_cell {t : Transfer} (hscratch : 0 < t.scratch) (got : Part → Nat) :
    ∀ (ps : List Part) (m : Memory Addr β), ps.Pairwise Part.Apart →
      (∀ p ∈ ps, p.buffer ≠ .scratch) → ∀ p ∈ ps, ∀ i < got p,
      (ps.foldl (fun m p => unstagePart t (got p) p m) m).cell p.buffer i =
        m.cell .scratch (p.relativeOffset + i)
  | q :: ps, m, hdist, hout, p, hp, i, hi => by
      obtain ⟨hother, hdist⟩ := List.pairwise_cons.mp hdist
      rw [List.foldl_cons]
      rcases List.mem_cons.mp hp with rfl | hp
      · -- the part's own copy, which no later one touches
        rw [unstage_frame ps _ (fun r hr => (hother r hr).symm), unstagePart,
          if_pos ⟨by omega, hscratch⟩]
        exact Memory.cell_memcpy_read m .scratch p.buffer hi
      · rw [unstage_cell hscratch got ps _ hdist (fun r hr => hout r (List.mem_cons_of_mem _ hr)) p
          hp i hi]
        unfold unstagePart
        split
        · exact Memory.cell_memcpy_outside m (Or.inl (hout q List.mem_cons_self).symm)
        · rfl

theorem deliver_frame (t : Transfer) (status : Status) (detail : Text) (m : Memory Addr β)
    {a : Addr} (ha : ∀ p ∈ t.parts, p.buffer ≠ a) (i : Nat) :
    (deliver t status detail m).2.cell a i = m.cell a i := by
  simp only [deliver]
  split
  · exact unstage_frame t.parts m ha i
  · rfl

/-! ## Own buffers -/

/-- A region that the transfer has no pointer to. -/
def Transfer.Spares (t : Transfer) (a : Addr) : Prop := t.sink ≠ a ∧ ∀ p ∈ t.parts, p.buffer ≠ a

theorem Transfer.Spares.of_plan {t t' : Transfer} {a : Addr} (h : t.Spares a)
    (hplan : t'.plan = t.plan) : t'.Spares a := by
  refine ⟨?_, ?_⟩
  · rw [field_of_plan (·.sink) hplan]
    exact h.1
  · rw [field_of_plan (·.parts) hplan]
    exact h.2

theorem scatter_frame {b e : Nat} {data : List β} {a : Addr} :
    ∀ (ps : List Part) (m : Memory Addr β), (∀ p ∈ ps, p.buffer ≠ a) → ∀ i,
      (scatter b e data ps m).cell a i = m.cell a i
  | [], _, _, _ => rfl
  | p :: ps, m, ha, i => by
      have hrest : ∀ m, (scatter b e data ps m).cell a i = m.cell a i :=
        fun m => scatter_frame ps m (fun q hq => ha q (List.mem_cons_of_mem _ hq)) i
      simp only [scatter]
      split
      · rfl
      · split
        · exact hrest m
        · rw [hrest]
          exact Memory.cell_memcpy_outside m (Or.inl (ha p List.mem_cons_self).symm)

/-- Nothing outside the transfer's buffers has changed. -/
structure Framed (a : Addr) (s s' : Live β) : Prop where
  plan_eq : s'.transfer.plan = s.transfer.plan
  cell_eq : ∀ i, s'.memory.cell a i = s.memory.cell a i

theorem Framed.trans {a : Addr} {s₁ s₂ s₃ : Live β} (h : Framed a s₁ s₂) (h' : Framed a s₂ s₃) :
    Framed a s₁ s₃ :=
  ⟨h'.plan_eq.trans h.plan_eq, fun i => (h'.cell_eq i).trans (h.cell_eq i)⟩

theorem Rewound.framed {r : Response β} {s s' : Live β} (h : Rewound r s s') (a : Addr) :
    Framed a s s' :=
  ⟨plan_of_core h.core_eq, fun i => by rw [h.memory_eq]⟩

section Frame

variable {a : Addr} {s : Live β}

theorem storePayload_framed (h : s.transfer.Spares a) (data : List β) :
    Framed a s (storePayload data s) := by
  refine ⟨plan_of_core (core_of_head (head_storePayload data s)), fun i => ?_⟩
  simp only [storePayload]
  split
  · exact Memory.cell_memcpy_outside s.memory (Or.inl h.1.symm)
  · exact scatter_frame _ s.memory (fun p hp => h.2 p (List.mem_of_mem_drop hp)) i

theorem writePayload_framed (h : s.transfer.Spares a) (data : List β) :
    Framed a s (writePayload data s).1 := by
  refine ⟨plan_of_core (core_of_head (head_writePayload data s)), fun i => ?_⟩
  have hdropped : (dropSkipped data s).transfer.Spares a := h
  simp only [writePayload]
  split
  · rfl
  · split
    · split
      · exact (storePayload_framed hdropped _).cell_eq i
      · exact (storePayload_framed hdropped _).cell_eq i
    · split <;> rfl

variable [Octet β]

theorem writeBody_framed (h : s.transfer.Spares a) (data : List β) :
    Framed a s (writeBody data s).1 := by
  refine ⟨plan_of_core (core_of_head (head_writeBody data s)), fun i => ?_⟩
  simp only [writeBody]
  split
  · rfl
  · split
    · split <;> rfl
    · exact (writePayload_framed h data).cell_eq i

theorem writeCallback_framed (h : s.transfer.Spares a) (info : Info) (data : List β) :
    Framed a s (writeCallback info data s).1 := by
  refine ⟨plan_of_core (core_of_head (head_writeCallback info data s)), fun i => ?_⟩
  have hplan : (checkStatus info s.transfer).1.plan = s.transfer.plan :=
    plan_of_core (core_of_head (head_checkStatus info s.transfer))
  simp only [writeCallback]
  split
  · rfl
  · split
    · exact (writeBody_framed h data).cell_eq i
    · split
      · exact (writeBody_framed (s := s.update _) (h.of_plan hplan) data).cell_eq i
      · rfl

theorem feedResponse_framed (h : s.transfer.Spares a) (curl : Libcurl) (r : Response β) :
    Framed a s (feedResponse curl r s).1 := by
  have hhead := feed_headEnd curl r s
  simp only [feedResponse]
  generalize feed (feedLine curl r.now) r.lines s = x at hhead ⊢
  cases hhead with
  | @blocked s₁ hrew => exact hrew.framed a
  | @opened s₁ hrew =>
      exact feed_induct (P := fun s' : Live β => Framed a s s')
        (fun data _ _ hs' => hs'.trans (writeCallback_framed (h.of_plan hs'.plan_eq) r.info data))
        (hrew.framed a)

theorem feedAttempt_framed (h : s.transfer.Spares a) (curl : Libcurl)
    (responses : List (Response β)) : Framed a s (feedAttempt curl responses s).1.1 :=
  feedAttempt_induct (P := fun s' : Live β => Framed a s s')
    (fun r _ _ hs' => hs'.trans (feedResponse_framed (h.of_plan hs'.plan_eq) curl r))
    ⟨rfl, fun _ => rfl⟩

end Frame

theorem planResume_plan (t : Transfer) : (planResume t).plan = t.plan := by
  have h := planResume_resumes t
  generalize planResume t = t' at h ⊢
  cases h <;> rfl

/-- What `io_loop` decides leaves the memory alone, and the plan of what goes round again. -/
theorem complete_framed (options : ClientOptions) (a : Attempt β) (code : Int) (result : CurlCode)
    (s : Live β) : (complete options a code result s).live.memory = s.memory ∧
      ∀ s', complete options a code result s = .again s' → s'.transfer.plan = s.transfer.plan := by
  have hverdict := complete_verdict options a code result s
  have hsettled : (settleStatus code s.transfer).plan = s.transfer.plan :=
    field_of_settled (·.plan) code s.transfer
  generalize complete options a code result s = outcome at hverdict ⊢
  cases hverdict with
  | success => exact ⟨rfl, fun _ h => by cases h⟩
  | timeout => exact ⟨rfl, fun _ h => by cases h⟩
  | failed => exact ⟨rfl, fun _ h => by cases h⟩
  | corrected _ hsame =>
      refine ⟨rfl, fun _ h => ?_⟩
      cases h
      exact (field_of_uncorrected (·.plan) hsame).trans hsettled
  | retried _ hsame =>
      refine ⟨rfl, fun _ h => ?_⟩
      cases h
      exact (planResume_plan _).trans ((field_of_uncorrected (·.plan) hsame).trans hsettled)

/-- Every pointer the transfer has is a part's. -/
structure Own (t₀ : Transfer) (s : Live β) : Prop where
  parts_eq : s.transfer.parts = t₀.parts
  sink : s.transfer.sink = .null ∨ ∃ p ∈ t₀.parts, s.transfer.sink = p.buffer
  remote : s.transfer.locator.backend ≠ .file

theorem Own.spares {t₀ : Transfer} {s : Live β} (h : Own t₀ s) {a : Addr} (hnull : a ≠ .null)
    (ha : ∀ p ∈ t₀.parts, p.buffer ≠ a) : s.transfer.Spares a := by
  refine ⟨?_, by rw [h.parts_eq]; exact ha⟩
  rcases h.sink with hs | ⟨p, hp, hs⟩
  · rw [hs]
    exact hnull.symm
  · rw [hs]
    exact ha p hp

theorem Own.start {t₀ : Transfer} {s : Live β} (h : Own t₀ s) (options : ClientOptions)
    (a : Attempt β) : Own t₀ (start options a s) := by
  have hsink : ∃ sink, (ensureSink true s.transfer).1 = { s.transfer with sink := sink } ∧
      (sink = .null ∨ ∃ p ∈ t₀.parts, sink = p.buffer) := by
    unfold ensureSink
    split
    · exact ⟨_, rfl, h.sink⟩
    · split
      · refine ⟨_, rfl, ?_⟩
        rw [h.parts_eq]
        cases t₀.parts with
        | nil => exact Or.inl rfl
        | cons p ps => exact Or.inr ⟨p, List.mem_cons_self, rfl⟩
      · exact ⟨s.transfer.sink, by simp [h.remote], h.sink⟩
  obtain ⟨sink, hensure, hown⟩ := hsink
  refine ⟨?_, ?_, ?_⟩
  · simp only [Karu.start, hensure, Live.update]
    split <;> exact h.parts_eq
  · simp only [Karu.start, hensure, Live.update]
    split <;> exact hown
  · simp only [Karu.start, hensure, Live.update]
    split <;> exact h.remote

theorem Own.of_plan {t₀ : Transfer} {s s' : Live β} (h : Own t₀ s)
    (hplan : s'.transfer.plan = s.transfer.plan) : Own t₀ s' := by
  refine ⟨?_, ?_, ?_⟩
  · rw [field_of_plan (·.parts) hplan]
    exact h.parts_eq
  · rw [field_of_plan (·.sink) hplan]
    exact h.sink
  · rw [field_of_plan (·.locator) hplan]
    exact h.remote

/-- A run writes to the transfer's own buffers only. -/
theorem run_frame [Octet β] (curl : Libcurl) (options : ClientOptions) {t₀ : Transfer} {a : Addr}
    (hnull : a ≠ .null) (ha : ∀ p ∈ t₀.parts, p.buffer ≠ a) :
    ∀ (attempts : List (Attempt β)) {s : Live β}, Own t₀ s → ∀ i,
      (run curl options attempts s).live.memory.cell a i = s.memory.cell a i
  | [], _, _, _ => rfl
  | b :: bs, s, hs, i => by
      have hstart := hs.start options b
      have hfed := feedAttempt_framed (hstart.spares hnull ha) curl b.responses
      have hstep : ∃ code result, attempt curl options b s =
          complete options b code result (feedAttempt curl b.responses (start options b s)).1.1 :=
        ⟨_, _, rfl⟩
      obtain ⟨code, result, hstep⟩ := hstep
      obtain ⟨hmemory, hagain⟩ := complete_framed options b code result
        (feedAttempt curl b.responses (start options b s)).1.1
      rw [← hstep] at hmemory hagain
      have hfirst : (attempt curl options b s).live.memory.cell a i = s.memory.cell a i := by
        rw [hmemory]
        exact hfed.cell_eq i
      simp only [run]
      cases hattempt : attempt curl options b s with
      | finish status detail s' =>
          rw [hattempt] at hfirst
          exact hfirst
      | again s' =>
          rw [hattempt] at hfirst
          exact (run_frame curl options hnull ha bs
            (hstart.of_plan ((hagain s' hattempt).trans hfed.plan_eq)) i).trans hfirst

end Karu
