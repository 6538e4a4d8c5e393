/-
# `Karu.Runtime.PartBounds` — a batch transfer writes inside its parts

A server decides which header lines arrive, how large a body is and where it is
cut, and how an attempt ends.  `Reached` lets it do all of that in any order and
any number of times, also where libcurl would have stopped.  Whatever it does, the
three counters keep their order and every copy stays inside the buffer of a part.

The buffers need not be distinct for this.
-/
import Karu.Runtime.Exchange
import Karu.Runtime.PlannerBuffers

namespace Karu

open Base

variable {β : Type}

/-- The states of a transfer that begins as `t`; the flag says that an attempt is under way. -/
inductive Reached [Octet β] (curl : Libcurl) (options : ClientOptions) (t : Transfer)
    (m : Memory Addr β) : Bool → Live β → Prop
  | planned : Reached curl options t m false ⟨t, m, []⟩
  | start {s : Live β} (a : Attempt β) : Reached curl options t m false s →
      Reached curl options t m true (Karu.start options a s)
  | line {s : Live β} (now : Int) (line : Text) : Reached curl options t m true s →
      Reached curl options t m true (feedLine curl now line s).1
  | chunk {s : Live β} (info : Info) (data : List β) : Reached curl options t m true s →
      Reached curl options t m true (writeCallback info data s).1
  | again {s s' : Live β} {a : Attempt β} {code : Int} {result : CurlCode} :
      Reached curl options t m true s → complete options a code result s = .again s' →
      Reached curl options t m false s'

/-- The counters are in order. -/
structure Transfer.Counts (t : Transfer) : Prop where
  resumed_le : t.resumed ≤ t.received
  received_le : t.received ≤ t.length

/-- A copy that stays inside the buffer of a part. -/
def InsidePart (parts : List Part) (c : Copy Addr) : Prop :=
  ∃ p ∈ parts, c.dest = p.buffer ∧ c.pos + c.len ≤ p.length

/-- What the states of a transfer have in common. -/
structure Live.Inside (t : Transfer) (m : Memory Addr β) (running : Bool) (s : Live β) : Prop
    extends s.transfer.Counts where
  parts_eq : s.transfer.parts = t.parts
  length_eq : s.transfer.length = t.length
  scattered_eq : s.transfer.scattered = t.scattered
  sink : ∀ p, t.parts = [p] → t.scattered = false →
    s.transfer.sink = p.buffer ∨ running = false ∧ s.transfer.sink = .null
  copies : ∀ c ∈ s.memory.copies, c ∈ m.copies ∨ InsidePart t.parts c

/-! ## The counters -/

section Counts

variable {t t' : Transfer}

theorem Transfer.Counts.restart (h : t.Counts) : (restart t).Counts := by
  fun_cases Karu.restart t
  · exact ⟨Nat.le_refl _, Nat.zero_le _⟩
  · exact h

theorem Transfer.Counts.enterBody (h : t.Counts) (info : Info) : (enterBody info t).1.Counts := by
  simp only [Karu.enterBody]
  split
  · split <;> exact ⟨h.resumed_le, h.received_le⟩
  · exact ⟨h.resumed_le, h.received_le⟩

/-- What is noted at the first piece of a body. -/
theorem Transfer.Counts.checkStatus (h : t.Counts) (info : Info) :
    (checkStatus info t).1.Counts := by
  have hseen : (seen info t).Counts := ⟨h.resumed_le, h.received_le⟩
  simp only [Karu.checkStatus]
  split
  · exact hseen
  · split
    · exact ⟨hseen.resumed_le, hseen.received_le⟩
    · split
      · exact hseen
      · exact hseen.restart.enterBody info

theorem Transfer.Counts.header (h : t.Counts) (curl : Libcurl) (now : Int) (line : Text) :
    (headerCallback curl now line t).1.Counts := by
  cases hstatus : isStatusLine line with
  | true =>
      rw [headerCallback_status hstatus]
      exact ⟨Nat.le_refl _, Nat.le_trans h.resumed_le h.received_le⟩
  | false =>
      have hsame := progress_headerCallback hstatus curl now t
      constructor
      · rw [field_of_progress (·.resumed) hsame, field_of_progress (·.received) hsame]
        exact h.resumed_le
      · rw [field_of_progress (·.received) hsame, field_of_progress (·.length) hsame]
        exact h.received_le

theorem Transfer.Counts.resumes (h : t.Counts) (hr : Resumes t t') : t'.Counts := by
  cases hr with
  | dropped => exact ⟨Nat.zero_le _, h.received_le⟩
  | same => exact h
  | unpinned => exact ⟨Nat.zero_le _, h.received_le⟩
  | pinned => exact ⟨Nat.le_refl _, h.received_le⟩
  | extended => exact ⟨Nat.le_refl _, h.received_le⟩

end Counts

/-! ## The copies -/

section Copies

/-- Every copy of the second loop of `store_payload` stays inside its part. -/
theorem scatter_copies {b e : Nat} {data : List β} {parts : List Part} :
    ∀ (ps : List Part) (m : Memory Addr β), ps ⊆ parts →
      (∀ p ∈ ps, p.stop = p.relativeOffset + p.length) →
      ∀ c ∈ (scatter b e data ps m).copies, c ∈ m.copies ∨ InsidePart parts c
  | [], m, _, _ => fun c hc => .inl hc
  | p :: ps, m, hsub, hstop => by
      have hrest := fun m' => @scatter_copies b e data parts ps m'
        (fun q hq => hsub (List.mem_cons_of_mem _ hq))
        (fun q hq => hstop q (List.mem_cons_of_mem _ hq))
      simp only [scatter]
      split
      · exact fun c hc => .inl hc
      · split
        · exact hrest m
        · intro c hc
          rcases hrest _ c hc with hmem | hin
          · rw [Memory.copies_memcpy, List.mem_append, List.mem_singleton] at hmem
            rcases hmem with hold | rfl
            · exact .inl hold
            · refine .inr ⟨p, hsub List.mem_cons_self, rfl, ?_⟩
              have hs := hstop p List.mem_cons_self
              simp only [List.length_take, List.length_drop]
              omega
          · exact .inr hin

variable {t : Transfer} {m : Memory Addr β} {s : Live β}

/-- A payload that fits is stored inside the parts. -/
theorem Live.Inside.store (h : s.Inside t m true) (hlayout : t.Layout) {data : List β}
    (hroom : s.transfer.received + data.length ≤ s.transfer.length) :
    (storePayload data s).Inside t m true := by
  have hlength := h.length_eq
  have hlt := hlayout.length_lt
  have hadd : add64 s.transfer.received data.length = s.transfer.received + data.length :=
    add64_of_lt (by omega)
  have hresumed := h.resumed_le
  simp only [storePayload, hadd]
  split
  · rename_i hwhole
    have hwhole : t.scattered = false := by rw [← h.scattered_eq]; simpa using hwhole
    obtain ⟨p, hp, -, hplen⟩ := hlayout.whole hwhole
    obtain hsink | ⟨hno, -⟩ := h.sink p hp hwhole
    · refine ⟨⟨?_, hroom⟩, h.parts_eq, hlength, h.scattered_eq, h.sink, ?_⟩
      · exact hresumed.trans (Nat.le_add_right _ _)
      · intro c hc
        rw [Memory.copies_memcpy, List.mem_append, List.mem_singleton] at hc
        rcases hc with hold | rfl
        · exact h.copies c hold
        · refine .inr ⟨p, by simp [hp], hsink, ?_⟩
          show s.transfer.received + data.length ≤ p.length
          omega
    · cases hno
  · refine ⟨⟨?_, hroom⟩, h.parts_eq, hlength, h.scattered_eq, h.sink, ?_⟩
    · exact hresumed.trans (Nat.le_add_right _ _)
    · intro c hc
      rw [h.parts_eq] at hc
      rcases scatter_copies _ s.memory (List.drop_subset _ t.parts)
        (fun p hp => hlayout.stop_eq (List.mem_of_mem_drop hp)) c hc with hold | hin
      · exact h.copies c hold
      · exact .inr hin

/-- What changes nothing but the counters and what is read of a response. -/
theorem Live.Inside.congr {s' : Live β} {running : Bool} (h : s.Inside t m running)
    (hcounts : s'.transfer.Counts) (hplan : s'.transfer.plan = s.transfer.plan)
    (hmemory : s'.memory = s.memory) : s'.Inside t m running where
  toCounts := hcounts
  parts_eq := (field_of_plan (·.parts) hplan).trans h.parts_eq
  length_eq := (field_of_plan (·.length) hplan).trans h.length_eq
  scattered_eq := (field_of_plan (·.scattered) hplan).trans h.scattered_eq
  sink := by
    rw [field_of_plan (·.sink) hplan]
    exact h.sink
  copies := by
    rw [hmemory]
    exact h.copies

theorem Live.Inside.payload (h : s.Inside t m true) (hlayout : t.Layout) (data : List β) :
    (writePayload data s).1.Inside t m true := by
  have hdropped : (dropSkipped data s).Inside t m true :=
    h.congr ⟨h.resumed_le, h.received_le⟩ rfl rfl
  have hroom : sub64 (dropSkipped data s).transfer.length (dropSkipped data s).transfer.received =
      s.transfer.length - s.transfer.received := by
    have hlt : s.transfer.length < 2 ^ 64 := by
      rw [h.length_eq]
      exact hlayout.length_lt
    exact sub64_of_le h.received_le hlt
  simp only [writePayload, hroom]
  generalize hrest : data.drop s.transfer.skip = rest
  split
  · exact hdropped
  · generalize htake : min (s.transfer.length - s.transfer.received) rest.length = take
    have hstored : (if 0 < take then storePayload (rest.take take) (dropSkipped data s)
        else dropSkipped data s).Inside t m true := by
      split
      · refine hdropped.store hlayout ?_
        have hle := h.received_le
        show s.transfer.received + (rest.take take).length ≤ s.transfer.length
        rw [List.length_take]
        omega
      · exact hdropped
    generalize (if 0 < take then storePayload (rest.take take) (dropSkipped data s)
      else dropSkipped data s) = s₁ at hstored ⊢
    split
    · exact hstored.congr ⟨hstored.resumed_le, hstored.received_le⟩ rfl rfl
    · exact hstored

variable [Octet β]

theorem Live.Inside.body (h : s.Inside t m true) (hlayout : t.Layout) (data : List β) :
    (writeBody data s).1.Inside t m true := by
  simp only [writeBody]
  split
  · exact h
  · split
    · split <;> exact h.congr ⟨h.resumed_le, h.received_le⟩ rfl rfl
    · exact h.payload hlayout data

theorem Live.Inside.chunk (h : s.Inside t m true) (hlayout : t.Layout) (info : Info)
    (data : List β) : (writeCallback info data s).1.Inside t m true := by
  have hchecked : (s.update (checkStatus info s.transfer).1).Inside t m true :=
    h.congr (h.toCounts.checkStatus info) (plan_of_core (core_of_head (head_checkStatus info _))) rfl
  simp only [writeCallback]
  split
  · exact h
  · split
    · exact h.body hlayout data
    · split
      · exact hchecked.body hlayout data
      · exact hchecked

omit [Octet β] in
theorem Live.Inside.line (h : s.Inside t m true) (curl : Libcurl) (now : Int) (line : Text) :
    (feedLine curl now line s).1.Inside t m true :=
  h.congr (h.toCounts.header curl now line) (plan_of_core (core_headerCallback curl now line _)) rfl

omit [Octet β] in
theorem Live.Inside.ensureSink (h : s.Inside t m false) : ∃ sink scratch,
    (ensureSink true s.transfer).1 = { s.transfer with sink := sink, scratch := scratch } ∧
      ∀ p, t.parts = [p] → t.scattered = false → sink = p.buffer := by
  fun_cases Karu.ensureSink true s.transfer
  · rename_i hset
    exact ⟨_, _, rfl, fun p hp hs => (h.sink p hp hs).resolve_right fun hn => hset hn.2⟩
  · refine ⟨_, _, rfl, fun p hp hs => ?_⟩
    rw [h.parts_eq, hp]
    rfl
  · rename_i hscattered _
    refine ⟨_, _, rfl, fun p hp hs => ?_⟩
    simp [h.scattered_eq, hs] at hscattered
  · rename_i hscattered _ hroom
    cases hroom
  · rename_i hscattered _ _
    refine ⟨_, _, rfl, fun p hp hs => ?_⟩
    simp [h.scattered_eq, hs] at hscattered

omit [Octet β] in
theorem Live.Inside.start (h : s.Inside t m false) (options : ClientOptions) (a : Attempt β) :
    (Karu.start options a s).Inside t m true := by
  -- the sink and the scratch vector apart, a started transfer is the one that waited
  obtain ⟨sink, scratch, hint, hstart, hsink⟩ : ∃ sink scratch hint,
      Karu.start options a s = s.update (configure options.rangeFallbackLimit
        { s.transfer with
          sink := sink, scratch := scratch, regionHint := hint, requestUrl := a.requestUrl,
          http := a.http }) ∧
      ∀ p, t.parts = [p] → t.scattered = false → sink = p.buffer := by
    obtain ⟨sink, scratch, hensure, hsink⟩ := h.ensureSink
    simp only [Karu.start, hensure]
    split <;> exact ⟨sink, scratch, _, rfl, hsink⟩
  rw [hstart]
  exact ⟨⟨Nat.le_refl _, h.resumed_le.trans h.received_le⟩, h.parts_eq, h.length_eq, h.scattered_eq,
    fun p hp hs => .inl (hsink p hp hs), h.copies⟩

omit [Octet β] in
theorem Live.Inside.waits (h : s.Inside t m true) : s.Inside t m false where
  toCounts := h.toCounts
  parts_eq := h.parts_eq
  length_eq := h.length_eq
  scattered_eq := h.scattered_eq
  sink := fun p hp hs => (h.sink p hp hs).imp_right fun hno => absurd hno.1 (by decide)
  copies := h.copies

omit [Octet β] in
/-- The transfer is sent again. -/
theorem Live.Inside.again (h : s.Inside t m true) {options : ClientOptions} {a : Attempt β}
    {code : Int} {result : CurlCode} {s' : Live β}
    (hs : complete options a code result s = .again s') : s'.Inside t m false := by
  have hverdict := complete_verdict options a code result s
  rw [hs] at hverdict
  have hsettled : (s.settled code).Inside t m true := by
    refine h.congr ⟨?_, ?_⟩ (field_of_settled (·.plan) code s.transfer) rfl
    · show (settleStatus code s.transfer).resumed ≤ (settleStatus code s.transfer).received
      rw [field_of_settled (·.resumed) code s.transfer, field_of_settled (·.received) code s.transfer]
      exact h.resumed_le
    · show (settleStatus code s.transfer).received ≤ (settleStatus code s.transfer).length
      rw [field_of_settled (·.received) code s.transfer, field_of_settled (·.length) code s.transfer]
      exact h.received_le
  have hcorrected : ∀ {t' : Transfer}, t'.uncorrected = (settleStatus code s.transfer).uncorrected →
      Live.Inside t m true { s with transfer := t' } := by
    intro t' hsame
    have hplan : t'.plan = (settleStatus code s.transfer).plan := field_of_uncorrected (·.plan) hsame
    refine hsettled.congr ⟨?_, ?_⟩ hplan rfl
    · show t'.resumed ≤ t'.received
      rw [field_of_uncorrected (·.resumed) hsame, field_of_uncorrected (·.received) hsame]
      exact hsettled.resumed_le
    · show t'.received ≤ t'.length
      rw [field_of_uncorrected (·.received) hsame, field_of_uncorrected (·.length) hsame]
      exact hsettled.received_le
  cases hverdict with
  | corrected _ hsame => exact (hcorrected hsame).waits
  | @retried t' _ hsame =>
      have hinside := hcorrected hsame
      have hresumes := planResume_resumes t'
      have hplan : (planResume t').plan = t'.plan := by
        generalize planResume t' = t'' at hresumes ⊢
        cases hresumes <;> rfl
      have hcounts : Transfer.Counts t' := hinside.toCounts
      have hnext : Live.Inside t m true { s with transfer := planResume t' } :=
        hinside.congr (hcounts.resumes hresumes) hplan rfl
      exact hnext.waits

/-- Every state a transfer gets to. -/
theorem inside_reached (hlayout : t.Layout) (hblank : t.Blank) {curl : Libcurl}
    {options : ClientOptions} {running : Bool} (h : Reached curl options t m running s) :
    s.Inside t m running := by
  induction h with
  | planned =>
      refine ⟨⟨?_, ?_⟩, rfl, rfl, rfl, fun _ _ _ => .inr ⟨rfl, hblank.sink_eq⟩, fun c hc => .inl hc⟩
      · exact hblank.resumed_eq ▸ Nat.zero_le _
      · exact hblank.received_eq ▸ Nat.zero_le _
  | start a _ ih => exact ih.start options a
  | line now line _ ih => exact ih.line curl now line
  | chunk info data _ ih => exact ih.chunk hlayout info data
  | again _ hs ih => exact ih.again hs

end Copies

/-! ## Planned transfers -/

theorem planLoop_blank {malloc : Nat → Nat → Addr} {options : ClientOptions} {batch : Nat} :
    ∀ (turns : Nat) (shared : Option Resolved) (n : Nat) (sorted : List ValidatedRequest),
      ∀ t ∈ (planLoop malloc options batch turns shared n sorted).2, t.Blank
  | 0, _, _, _ => by simp [planLoop]
  | _ + 1, _, _, [] => by simp [planLoop]
  | turns + 1, shared, n, head :: rest => by
      intro t ht
      simp only [planLoop] at ht
      split at ht
      · cases ht
      · rcases List.mem_cons.mp ht with rfl | ht
        · exact ⟨rfl, rfl, rfl, rfl, rfl⟩
        · exact planLoop_blank turns _ _ _ t ht

/-- Whatever a server does to a planned transfer, in every state `resumed ≤ received ≤ length`, also
once a body has begun, so that neither difference wraps, and every copy is inside a part. -/
theorem transfer_writes_inside [Octet β] {malloc : Nat → Nat → Addr} {batch : Nat}
    {requests : List Request} {planOptions : ClientOptions}
    (hok : (planTransfers malloc batch requests planOptions).1 = .ok) {t : Transfer}
    (ht : t ∈ (planTransfers malloc batch requests planOptions).2.transfers) {m : Memory Addr β}
    {curl : Libcurl} {options : ClientOptions} {running : Bool} {s : Live β}
    (h : Reached curl options t m running s) :
    (s.transfer.resumed ≤ s.transfer.received ∧ s.transfer.received ≤ s.transfer.length) ∧
    (∀ info, (checkStatus info s.transfer).1.Counts ∧ (restart (seen info s.transfer)).Counts) ∧
    (sub64 s.transfer.length s.transfer.received = s.transfer.length - s.transfer.received ∧
      sub64 s.transfer.length s.transfer.resumed = s.transfer.length - s.transfer.resumed) ∧
    ∀ c ∈ s.memory.copies, c ∈ m.copies ∨
      ∃ p ∈ t.parts, c.dest = p.buffer ∧ c.pos + c.len ≤ p.length := by
  have hlayout := (planLoop_sorted hok).2 t ht
  have hinside := inside_reached hlayout (planLoop_blank _ _ _ _ t ht) h
  have hlt : s.transfer.length < 2 ^ 64 := by
    rw [hinside.length_eq]
    exact hlayout.length_lt
  refine ⟨⟨hinside.resumed_le, hinside.received_le⟩, fun info => ⟨?_, ?_⟩, ⟨?_, ?_⟩, hinside.copies⟩
  · exact hinside.toCounts.checkStatus info
  · exact Transfer.Counts.restart ⟨hinside.resumed_le, hinside.received_le⟩
  · exact sub64_of_le hinside.received_le hlt
  · exact sub64_of_le (hinside.resumed_le.trans hinside.received_le) hlt

/-- The answer to a merged request brings more than it announces. -/
def floodedRead (t : Transfer) : Live UInt8 :=
  let s := start .initial { responses := [] } ⟨t, ⟨fun _ _ => 0, []⟩, []⟩
  let s := (feedLine .uncalled 0 (text "HTTP/1.1 206 Partial Content\r\n") s).1
  let s := (feedLine .uncalled 0 (text "Content-Range: bytes 31-99/200\r\n") s).1
  (writeCallback ⟨206, -1⟩ (List.replicate 100 7) s).1

theorem floodedRead_reached (t : Transfer) :
    Reached .uncalled .initial t ⟨fun _ _ => 0, []⟩ true (floodedRead t) :=
  .chunk _ _ (.line _ _ (.line _ _ (.start _ .planned)))

theorem transfer_writes_inside_flooded :
    ∃ t ∈ (planTransfers (fun n _ => .heap (100 + n)) 0 mixedRequests {}).2.transfers,
      (floodedRead t).memory.copies = [⟨.heap 2, 0, 50⟩, ⟨.heap 1, 0, 40⟩] ∧
      ∀ c ∈ (floodedRead t).memory.copies, c ∈ ([] : List (Copy Addr)) ∨
        ∃ p ∈ t.parts, c.dest = p.buffer ∧ c.pos + c.len ≤ p.length := by
  have hplan : (planTransfers (fun n _ => .heap (100 + n)) 0 mixedRequests {}).2.transfers.map
      (fun t => (floodedRead t).memory.copies) = [[⟨.heap 2, 0, 50⟩, ⟨.heap 1, 0, 40⟩]] := by
    decide +kernel
  obtain ⟨t, ht, hcopies⟩ := List.mem_map.mp
    (hplan ▸ List.mem_singleton_self [(⟨.heap 2, 0, 50⟩ : Copy Addr), ⟨.heap 1, 0, 40⟩])
  have hinside := transfer_writes_inside (by decide) ht (floodedRead_reached t)
  exact ⟨t, ht, hcopies, hinside.2.2.2⟩

end Karu
