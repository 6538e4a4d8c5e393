/-
# `Karu.Runtime.Stored` — where the bytes of a transfer are

Whatever a server sends, the callbacks keep one relation between the counters
of a transfer and the memory of its parts: the first `received` positions of
the transfer are accounted for, and each of them sits in every part that covers
it, at that part's own place (`Placed.cells`).  The relation is proved once for
`store_payload`, over both of its loops, and then carried through the body
callback, the header callback and the start of an attempt.

What a step leaves alone is said by erasing what it may touch: `head` is the
transfer without the body callback's fields, `progress` without those a header
line writes, `core` without both, and `plan` without anything an attempt writes.
-/
import Mathlib.Data.List.Pairwise
import Karu.Runtime.Attempt

namespace Karu

open Base

variable {β : Type}

/-! ## What stays -/

/-- The transfer without anything a response writes. -/
def Transfer.core (t : Transfer) : Transfer := { resetResponse t with resumed := 0, received := 0 }

/-- The transfer as the planner made it, with its sink. -/
def Transfer.plan (t : Transfer) : Transfer :=
  { batch := t.batch, locator := t.locator, offset := t.offset, length := t.length,
    parts := t.parts, ifMatch := t.ifMatch, scattered := t.scattered, sink := t.sink,
    scratch := t.scratch }

/-- A field that `core` keeps is the same wherever `core` is. -/
theorem field_of_core {γ : Type} (f : Transfer → γ) {t t' : Transfer} (h : t'.core = t.core)
    (hf : ∀ t : Transfer, f t.core = f t := by intro; rfl) : f t' = f t :=
  (hf t').symm.trans ((congrArg f h).trans (hf t))

theorem field_of_plan {γ : Type} (f : Transfer → γ) {t t' : Transfer} (h : t'.plan = t.plan)
    (hf : ∀ t : Transfer, f t.plan = f t := by intro; rfl) : f t' = f t :=
  (hf t').symm.trans ((congrArg f h).trans (hf t))

theorem plan_of_core {t t' : Transfer} (h : t'.core = t.core) : t'.plan = t.plan :=
  field_of_core Transfer.plan h

theorem layout_of_plan {t t' : Transfer} (h : t'.plan = t.plan) (ht : t.Layout) : t'.Layout := by
  have hparts : t'.parts = t.parts := field_of_plan (·.parts) h
  have hlength : t'.length = t.length := field_of_plan (·.length) h
  have hoffset : t'.offset = t.offset := field_of_plan (·.offset) h
  have hscattered : t'.scattered = t.scattered := field_of_plan (·.scattered) h
  constructor
  · rw [hparts]; exact ht.first_zero
  · rw [hparts]; exact ht.sorted
  · rw [hparts]; exact ht.part_pos
  · rw [hparts, hlength]; exact ht.part_stop
  · rw [hparts, hlength]; exact ht.longest
  · rw [hlength]; exact ht.length_lt
  · rw [hoffset, hlength]; exact ht.stop_le
  · rw [hscattered, hparts, hlength]; exact ht.whole

/-- The transfer without anything a header line other than a status line writes. -/
def Transfer.progress (t : Transfer) : Transfer :=
  { t with
    responseEtag := [], redirectBlocked := false, contentRangeSeen := false,
    contentRangeValid := false, contentRangeMatches := false, contentRangeStart := 0,
    contentRangeEnd := 0, contentRangeTotal := 0, contentRangeHasTotal := false, encoding := {},
    responseRegion := [], retryAfter := 0 }

theorem field_of_progress {γ : Type} (f : Transfer → γ) {t t' : Transfer}
    (h : t'.progress = t.progress)
    (hf : ∀ t : Transfer, f t.progress = f t := by intro; rfl) : f t' = f t :=
  (hf t').symm.trans ((congrArg f h).trans (hf t))

theorem headerCallback_status {line : Text} (h : isStatusLine line = true) (curl : Libcurl)
    (now : Int) (t : Transfer) :
    headerCallback curl now line t =
      ({ resetResponse t with httpStatus := responseStatus line }, true) := by
  simp [headerCallback, h]

theorem progress_headerCallback {line : Text} (h : isStatusLine line = false) (curl : Libcurl)
    (now : Int) (t : Transfer) : (headerCallback curl now line t).1.progress = t.progress := by
  simp only [headerCallback, h, Bool.false_eq_true, if_false]
  split
  · rfl
  · split
    · simp only [recordContentRange]
      split <;> rfl
    · repeat' split
      all_goals rfl

theorem core_recordContentRange (value : Text) (t : Transfer) :
    (recordContentRange value t).core = t.core := by
  simp only [recordContentRange]
  split <;> rfl

theorem core_headerCallback (curl : Libcurl) (now : Int) (line : Text) (t : Transfer) :
    (headerCallback curl now line t).1.core = t.core := by
  simp only [headerCallback]
  split
  · rfl
  · split
    · rfl
    · split
      · exact core_recordContentRange _ t
      · repeat' split
        all_goals rfl

/-- The transfer without anything the body callback writes. -/
def Transfer.head (t : Transfer) : Transfer :=
  { t with
    resumed := 0, received := 0, versionChanged := false, scatterCursor := 0, skip := 0,
    bodyLength := -1, consume := 0, satisfied := false, checkedStatus := false, httpStatus := 0,
    rangeFallbackRejected := false, errorBody := [], errorBodyReceived := 0 }

theorem field_of_head {γ : Type} (f : Transfer → γ) {t t' : Transfer} (h : t'.head = t.head)
    (hf : ∀ t : Transfer, f t.head = f t := by intro; rfl) : f t' = f t :=
  (hf t').symm.trans ((congrArg f h).trans (hf t))

theorem core_of_head {t t' : Transfer} (h : t'.head = t.head) : t'.core = t.core :=
  field_of_head Transfer.core h

theorem head_restart (t : Transfer) : (restart t).head = t.head := by
  unfold restart
  split <;> rfl

theorem head_enterBody (info : Info) (t : Transfer) : (enterBody info t).1.head = t.head := by
  simp only [enterBody]
  split
  · split <;> rfl
  · rfl

theorem head_checkStatus (info : Info) (t : Transfer) : (checkStatus info t).1.head = t.head := by
  simp only [checkStatus]
  split
  · rfl
  · split
    · rfl
    · split
      · rfl
      · exact (head_enterBody info _).trans (head_restart _)

theorem head_storePayload (data : List β) (s : Live β) :
    (storePayload data s).transfer.head = s.transfer.head := by
  simp only [storePayload]
  split <;> rfl

theorem head_writePayload (data : List β) (s : Live β) :
    (writePayload data s).1.transfer.head = s.transfer.head := by
  simp only [writePayload]
  split
  · rfl
  · split
    · split
      · exact head_storePayload _ (dropSkipped data s)
      · exact head_storePayload _ (dropSkipped data s)
    · split <;> rfl

theorem head_writeBody [Octet β] (data : List β) (s : Live β) :
    (writeBody data s).1.transfer.head = s.transfer.head := by
  simp only [writeBody]
  split
  · rfl
  · split
    · split <;> rfl
    · exact head_writePayload data s

theorem head_writeCallback [Octet β] (info : Info) (data : List β) (s : Live β) :
    (writeCallback info data s).1.transfer.head = s.transfer.head := by
  simp only [writeCallback]
  split
  · rfl
  · split
    · exact head_writeBody data s
    · split
      · exact (head_writeBody _ _).trans (head_checkStatus info s.transfer)
      · exact head_checkStatus info s.transfer

/-! ## Scattering -/

/-- A part's end is exact: the planner keeps it below `2 ^ 64`. -/
theorem Transfer.Layout.stop_eq {t : Transfer} (h : t.Layout) {p : Part} (hp : p ∈ t.parts) :
    p.stop = p.relativeOffset + p.length := by
  have := h.part_stop p hp
  have := h.length_lt
  exact add64_of_lt (by omega)

/-- Two parts with buffers of their own. -/
def Part.Apart (p q : Part) : Prop := p.buffer ≠ q.buffer

instance : Std.Symm Part.Apart := ⟨fun _ _ h => h.symm⟩

section Scatter

variable {b e : Nat} {data : List β}

/-- A cell that no part maps into the chunk is left alone. -/
theorem scatter_outside {a : Addr} {j : Nat} :
    ∀ (ps : List Part) (m : Memory Addr β), data.length = e - b →
      (∀ p ∈ ps, p.stop = p.relativeOffset + p.length) →
      (∀ p ∈ ps, p.buffer = a → p.relativeOffset + j < b ∨ e ≤ p.relativeOffset + j ∨ p.length ≤ j) →
      (scatter b e data ps m).cell a j = m.cell a j
  | [], m, _, _, _ => rfl
  | p :: ps, m, hlen, hstop, hout => by
      have hrest := fun m => scatter_outside (a := a) (j := j) ps m hlen
        (fun q hq => hstop q (List.mem_cons_of_mem _ hq))
        (fun q hq => hout q (List.mem_cons_of_mem _ hq))
      simp only [scatter]
      split
      · rfl
      · split
        · exact hrest m
        · rw [hrest]
          refine Memory.cell_memcpy_outside m ?_
          by_cases ha : p.buffer = a
          · right
            have hp := hout p List.mem_cons_self ha
            have hs := hstop p List.mem_cons_self
            rw [List.length_take, List.length_drop, hlen]
            omega
          · exact Or.inl fun h => ha h.symm

/-- A part that covers a position of the chunk gets the chunk's byte there. -/
theorem scatter_inside {p : Part} {j : Nat} :
    ∀ (ps : List Part) (m : Memory Addr β), data.length = e - b →
      (∀ q ∈ ps, q.stop = q.relativeOffset + q.length) →
      ps.Pairwise (fun q r => q.relativeOffset ≤ r.relativeOffset) →
      ps.Pairwise Part.Apart → p ∈ ps →
      b ≤ p.relativeOffset + j → p.relativeOffset + j < e → j < p.length →
      data[p.relativeOffset + j - b]? = some ((scatter b e data ps m).cell p.buffer j)
  | q :: ps, m, hlen, hstop, hsort, hdist, hmem, hb, he, hj => by
      obtain ⟨hfirst, hsort⟩ := List.pairwise_cons.mp hsort
      obtain ⟨hother, hdist⟩ := List.pairwise_cons.mp hdist
      have hstops := fun r (hr : r ∈ ps) => hstop r (List.mem_cons_of_mem _ hr)
      have hs := hstop q List.mem_cons_self
      simp only [scatter]
      rcases List.mem_cons.mp hmem with rfl | hmem
      · -- the part itself: its copy covers `j`, and no later part has its buffer
        rw [if_neg (by omega), if_neg (by rw [hs]; omega)]
        rw [scatter_outside ps _ hlen hstops (fun r hr h => absurd h.symm (hother r hr))]
        have hbound : p.relativeOffset + j - b < data.length := by omega
        have hin : j - (max b p.relativeOffset - p.relativeOffset) <
            ((data.drop (max b p.relativeOffset - b)).take
              (min e p.stop - max b p.relativeOffset)).length := by
          rw [List.length_take, List.length_drop, hs]
          omega
        rw [Memory.cell_memcpy_inside m p.buffer (by omega) hin, List.getElem_take,
          List.getElem_drop, List.getElem?_eq_getElem hbound]
        simp only [Option.some.injEq]
        congr 1
        omega
      · have hle := hfirst p hmem
        rw [if_neg (by omega)]
        split
        · exact scatter_inside ps m hlen hstops hsort hdist hmem hb he hj
        · exact scatter_inside ps _ hlen hstops hsort hdist hmem hb he hj

end Scatter

theorem mem_take_advanceCursor {parts : List Part} {chunkBegin cursor : Nat} {p : Part}
    (h : p ∈ parts.take (advanceCursor parts chunkBegin cursor)) :
    p ∈ parts.take cursor ∨ p.stop ≤ chunkBegin := by
  rw [advanceCursor, List.take_add, List.mem_append] at h
  refine h.imp id fun h => ?_
  have hpre := List.takeWhile_prefix (l := parts.drop cursor)
    fun p => decide (p.stop ≤ chunkBegin)
  rw [← List.prefix_iff_eq_take.mp hpre] at h
  simpa using List.mem_takeWhile_imp h

/-! ## The relation -/

/-- The first `received` positions of the transfer are accounted for by `stream`,
and every part holds its share of them. -/
structure Live.Placed (s : Live β) : Prop where
  layout : s.transfer.Layout
  distinct : s.transfer.parts.Pairwise Part.Apart
  sink : ∀ p, s.transfer.parts = [p] → s.transfer.scattered = false → s.transfer.sink = p.buffer
  resumed_lt : s.transfer.resumed < s.transfer.length
  resumed_le : s.transfer.resumed ≤ s.transfer.received
  received_le : s.transfer.received ≤ s.transfer.length
  stream_length : s.stream.length = s.transfer.received
  cells : ∀ p ∈ s.transfer.parts, ∀ i < s.transfer.received, p.relativeOffset ≤ i →
    i < p.relativeOffset + p.length →
    s.stream[i]? = some (s.memory.cell p.buffer (i - p.relativeOffset))
  cursor : ∀ p ∈ s.transfer.parts.take s.transfer.scatterCursor,
    p.relativeOffset + p.length ≤ s.transfer.received

/-- Between callbacks, moreover: `satisfied` says that nothing is missing, and
until a body begins nothing has been received beyond what was kept. -/
structure Live.Stored (s : Live β) : Prop extends s.Placed where
  satisfied_iff : s.transfer.satisfied = true ↔ s.transfer.received = s.transfer.length
  fresh : s.transfer.checkedStatus = false →
    s.transfer.received = s.transfer.resumed ∧ s.transfer.scatterCursor = 0 ∧ s.transfer.skip = 0

section Store

variable {s : Live β} {data : List β}

theorem storePayload_received (h : s.Placed)
    (hroom : s.transfer.received + data.length ≤ s.transfer.length) :
    (storePayload data s).transfer.received = s.transfer.received + data.length := by
  have := h.layout.length_lt
  have hadd : add64 s.transfer.received data.length = s.transfer.received + data.length :=
    add64_of_lt (by omega)
  simp only [storePayload, hadd]
  split <;> rfl

theorem storePayload_stream : (storePayload data s).stream = s.stream ++ data := by
  simp only [storePayload]
  split <;> rfl

/-- Everything but the two counters is as before. -/
theorem storePayload_transfer (data : List β) (s : Live β) : ∃ received cursor,
    (storePayload data s).transfer =
      { s.transfer with received := received, scatterCursor := cursor } := by
  simp only [storePayload]
  split
  · exact ⟨_, _, rfl⟩
  · exact ⟨_, _, rfl⟩

theorem storePayload_cursor (h : s.Placed) {p : Part}
    (hp : p ∈ s.transfer.parts.take (storePayload data s).transfer.scatterCursor) :
    p.relativeOffset + p.length ≤ s.transfer.received := by
  simp only [storePayload] at hp
  split at hp
  · exact h.cursor p hp
  · rcases mem_take_advanceCursor hp with hp | hstop
    · exact h.cursor p hp
    · rwa [h.layout.stop_eq (List.mem_of_mem_take hp)] at hstop

/-- What `store_payload` leaves in a part: the old bytes below the chunk, the
chunk's bytes from there on. -/
theorem storePayload_cell (h : s.Placed)
    (hroom : s.transfer.received + data.length ≤ s.transfer.length) {p : Part}
    (hp : p ∈ s.transfer.parts) {i : Nat} (h₁ : p.relativeOffset ≤ i)
    (h₂ : i < p.relativeOffset + p.length) (h₃ : i < s.transfer.received + data.length) :
    some ((storePayload data s).memory.cell p.buffer (i - p.relativeOffset)) =
      if i < s.transfer.received then some (s.memory.cell p.buffer (i - p.relativeOffset))
      else data[i - s.transfer.received]? := by
  have hlt := h.layout.length_lt
  have hadd : add64 s.transfer.received data.length = s.transfer.received + data.length :=
    add64_of_lt (by omega)
  have hchunk : data.length = s.transfer.received + data.length - s.transfer.received := by omega
  simp only [storePayload, hadd]
  split
  · -- one part, which is the whole transfer, and its buffer is the sink
    rename_i hs
    obtain ⟨q, hq, hzero, hwhole⟩ := h.layout.whole (by simpa using hs)
    rw [hq, List.mem_singleton] at hp
    subst hp
    rw [h.sink p hq (by simpa using hs)]
    split
    · rw [Memory.cell_memcpy_outside _ (Or.inr (Or.inl (by omega)))]
    · have hin : i - p.relativeOffset - s.transfer.received < data.length := by omega
      rw [Memory.cell_memcpy_inside _ _ (by omega) hin, ← List.getElem?_eq_getElem hin]
      congr 1
      omega
  · generalize hc : advanceCursor s.transfer.parts s.transfer.received s.transfer.scatterCursor = c
    have hstops := fun q (hq : q ∈ s.transfer.parts.drop c) =>
      h.layout.stop_eq (List.mem_of_mem_drop hq)
    split
    · -- below the chunk: only this part has this buffer, and it writes from the chunk on
      rw [scatter_outside _ _ hchunk hstops]
      intro q hq hb
      obtain rfl : q = p := by
        by_contra hne
        exact h.distinct.forall (List.mem_of_mem_drop hq) hp hne hb
      omega
    · -- in the chunk: the cursor cannot have passed a part that still misses this byte
      have hdrop : p ∈ s.transfer.parts.drop c := by
        have hmem := hp
        rw [← List.take_append_drop c s.transfer.parts, List.mem_append] at hmem
        refine hmem.resolve_left fun htake => ?_
        subst hc
        rcases mem_take_advanceCursor htake with ht | hstop
        · have := h.cursor p ht
          omega
        · rw [h.layout.stop_eq hp] at hstop
          omega
      have hsort := h.layout.sorted.sublist (List.drop_sublist c _)
      have hdist := h.distinct.sublist (List.drop_sublist c _)
      rw [← scatter_inside _ s.memory hchunk hstops hsort hdist hdrop (by omega) (by omega)
        (by omega)]
      congr 1
      omega

theorem Live.Placed.store (h : s.Placed)
    (hroom : s.transfer.received + data.length ≤ s.transfer.length) :
    (storePayload data s).Placed := by
  obtain ⟨received, cursor, ht⟩ := storePayload_transfer data s
  have hplan : (storePayload data s).transfer.plan = s.transfer.plan :=
    plan_of_core (core_of_head (head_storePayload data s))
  have hreceived := storePayload_received h hroom
  have hparts : (storePayload data s).transfer.parts = s.transfer.parts :=
    field_of_plan (·.parts) hplan
  have hlength : (storePayload data s).transfer.length = s.transfer.length :=
    field_of_plan (·.length) hplan
  have hresumed : (storePayload data s).transfer.resumed = s.transfer.resumed := by rw [ht]
  refine ⟨layout_of_plan hplan h.layout, ?_, ?_, ?_, ?_, ?_, ?_, ?_, ?_⟩
  · rw [hparts]
    exact h.distinct
  · rw [hparts, field_of_plan (·.scattered) hplan, field_of_plan (·.sink) hplan]
    exact h.sink
  · rw [hresumed, hlength]
    exact h.resumed_lt
  · rw [hresumed, hreceived]
    exact h.resumed_le.trans (Nat.le_add_right _ _)
  · rw [hreceived, hlength]
    exact hroom
  · rw [storePayload_stream, hreceived, List.length_append, h.stream_length]
  · intro p hp i hi h₁ h₂
    rw [hparts] at hp
    rw [hreceived] at hi
    rw [storePayload_cell h hroom hp h₁ h₂ hi, storePayload_stream]
    split
    · rename_i hlt
      rw [List.getElem?_append_left (by rwa [h.stream_length]), h.cells p hp i hlt h₁ h₂]
    · rename_i hge
      rw [List.getElem?_append_right (by rw [h.stream_length]; omega), h.stream_length]
  · intro p hp
    rw [hparts] at hp
    rw [hreceived]
    exact (storePayload_cursor h hp).trans (Nat.le_add_right _ _)

end Store

/-! ## Moving back

Every other step of a transfer keeps `received` or moves it back, and leaves the
memory as it is. -/

theorem Live.Placed.shrink {s s' : Live β} (h : s.Placed) (hmemory : s'.memory = s.memory)
    (hstream : s'.stream = s.stream.take s'.transfer.received)
    (hplan : s'.transfer.plan = s.transfer.plan)
    (hresumed : s'.transfer.resumed ≤ s'.transfer.received)
    (hlt : s'.transfer.resumed < s.transfer.length)
    (hreceived : s'.transfer.received ≤ s.transfer.received)
    (hcursor : s'.transfer.scatterCursor = 0 ∨ (s'.transfer.scatterCursor =
      s.transfer.scatterCursor ∧ s'.transfer.received = s.transfer.received)) : s'.Placed := by
  have hparts : s'.transfer.parts = s.transfer.parts := field_of_plan (·.parts) hplan
  have hlength : s'.transfer.length = s.transfer.length := field_of_plan (·.length) hplan
  refine ⟨layout_of_plan hplan h.layout, ?_, ?_, ?_, hresumed, ?_, ?_, ?_, ?_⟩
  · rw [hparts]
    exact h.distinct
  · rw [hparts, field_of_plan (·.scattered) hplan, field_of_plan (·.sink) hplan]
    exact h.sink
  · rw [hlength]
    exact hlt
  · rw [hlength]
    exact hreceived.trans h.received_le
  · rw [hstream, List.length_take, h.stream_length]
    exact Nat.min_eq_left hreceived
  · intro p hp i hi h₁ h₂
    rw [hparts] at hp
    rw [hstream, hmemory, List.getElem?_take_of_lt hi]
    exact h.cells p hp i (by omega) h₁ h₂
  · rw [hparts]
    rcases hcursor with hzero | ⟨hsame, hrec⟩
    · simp [hzero]
    · rw [hsame, hrec]
      exact h.cursor

/-- The special case in which no counter moves. -/
theorem Live.Placed.congr {s s' : Live β} (h : s.Placed) (hmemory : s'.memory = s.memory)
    (hstream : s'.stream = s.stream) (hplan : s'.transfer.plan = s.transfer.plan)
    (hresumed : s'.transfer.resumed = s.transfer.resumed)
    (hreceived : s'.transfer.received = s.transfer.received)
    (hcursor : s'.transfer.scatterCursor = s.transfer.scatterCursor) : s'.Placed := by
  refine h.shrink hmemory ?_ hplan ?_ ?_ hreceived.le (Or.inr ⟨hcursor, hreceived⟩)
  · rw [hstream, hreceived, ← h.stream_length, List.take_length]
  · rw [hresumed, hreceived]
    exact h.resumed_le
  · rw [hresumed]
    exact h.resumed_lt

end Karu
