/-
# `Karu.Runtime.Files` — a transfer from a local file

`os::File::read_at` from `src/platform.cpp` and the body of
`Engine::file_loop` from `src/runtime/engine.cpp`, for a batch that is not
cancelled: set the sink, open the file, and read until the range is full, the
file ends or a read fails.  `pread` is the system's; a read that was
interrupted has been repeated before it answers.

Each turn of the read loop that goes on receives at least one byte, so as many
turns as the transfer is long are enough (`readLoop_reads`).
-/
import Karu.Runtime.Delivery

namespace Karu

open Base

variable {β : Type}

/-! ## The file -/

/-- `std::numeric_limits<off_t>::max()`, and that of `ssize_t`. -/
def offsetMax : Nat := 2 ^ 63 - 1

/-- A file opened for reading: what `pread` answers to a length and an offset, and the text
of `std::errc::value_too_large`. -/
structure OpenFile (β : Type) where
  pread : Nat → Nat → Except Text (List β)
  valueTooLarge : Text

/-- `os::File::read_at`. -/
def OpenFile.readAt (file : OpenFile β) (n offset : Nat) : Except Text (List β) :=
  if offsetMax < offset then .error file.valueTooLarge
  else file.pread (min n offsetMax) offset

/-! ## The loop -/

/-- `transfer->received += *read`, with what `pread` put into the sink. -/
def took (data : List β) (s : Live β) : Live β where
  transfer := { s.transfer with received := add64 s.transfer.received data.length }
  memory := s.memory.memcpy s.transfer.sink s.transfer.received data
  stream := s.stream ++ data

/-- The read loop, and the text of the failure; empty where there was none. -/
def readLoop (file : OpenFile β) : Nat → Live β → Live β × Text
  | 0, s => (s, [])
  | turns + 1, s =>
      if s.transfer.received < s.transfer.length then
        match file.readAt (sub64 s.transfer.length s.transfer.received)
            (add64 s.transfer.offset s.transfer.received) with
        | .error message => (s, s.transfer.locator.target ++ text ": " ++ message)
        | .ok data => if data.isEmpty then (s, []) else readLoop file turns (took data s)
      else (s, [])

/-- The transfer has a sink: the file, if it can be opened, is read into it. -/
def readFile (opened : Except Text (OpenFile β)) (s : Live β) : Outcome β :=
  match opened with
  | .error message =>
      .finish .errIo (s.transfer.locator.target ++ text ": " ++ message) s
  | .ok file =>
      let (s, failure) := readLoop file s.transfer.length s
      if failure.isEmpty then .finish .ok [] s else .finish .errIo failure s

/-- The body of `Engine::file_loop`; `room` says whether the scratch vector can be resized,
`opened` is the result of opening `locator.target`. -/
def fileTransfer (room : Bool) (opened : Except Text (OpenFile β)) (s : Live β) : Outcome β :=
  let (t, staged) := ensureSink room s.transfer
  if staged then readFile opened { s with transfer := t }
  else
    .finish .errNomem (t.locator.target ++ text ": out of memory staging the read")
      { s with transfer := t }

/-! ## Reading one object -/

/-- The file holds the object: a read gives some of what there is, and nothing only where
nothing is wanted or left. -/
def OpenFile.Honest (object : List β) (file : OpenFile β) : Prop :=
  ∀ n offset, ∃ data, file.pread n offset = .ok data ∧ data.length ≤ n ∧
    data <+: object.drop offset ∧ (data = [] → n = 0 ∨ object.length ≤ offset)

/-- The loop has read the first bytes of the range into the sink. -/
structure Reads (object : List β) (s₀ s : Live β) : Prop where
  plan_eq : s.transfer.plan = s₀.transfer.plan
  received_le : s.transfer.received ≤ s₀.transfer.length
  cells : ∀ i < s.transfer.received, object[s₀.transfer.offset + i]? =
    some (s.memory.cell s₀.transfer.sink i)
  frame : ∀ a ≠ s₀.transfer.sink, ∀ i, s.memory.cell a i = s₀.memory.cell a i

theorem Reads.took {object : List β} {s₀ s : Live β} (h : Reads object s₀ s)
    (hlt : s₀.transfer.length < 2 ^ 64) {data : List β}
    (hlen : data.length ≤ s₀.transfer.length - s.transfer.received)
    (hdata : data <+: object.drop (s₀.transfer.offset + s.transfer.received)) :
    Reads object s₀ (took data s) ∧
      (took data s).transfer.received = s.transfer.received + data.length := by
  have hle := h.received_le
  have hreceived : (Karu.took data s).transfer.received = s.transfer.received + data.length :=
    add64_of_lt (by omega)
  have hsink : s.transfer.sink = s₀.transfer.sink := field_of_plan (·.sink) h.plan_eq
  refine ⟨⟨h.plan_eq, by omega, fun i hi => ?_, fun a ha i => ?_⟩, hreceived⟩
  · rw [hreceived] at hi
    show _ = some ((s.memory.memcpy s.transfer.sink s.transfer.received data).cell
      s₀.transfer.sink i)
    rw [hsink]
    by_cases hold : i < s.transfer.received
    · rw [Memory.cell_memcpy_outside _ (Or.inr (Or.inl hold))]
      exact h.cells i hold
    · have hin : i - s.transfer.received < data.length := by omega
      have hget := hdata.getElem hin
      rw [Memory.cell_memcpy_inside _ _ (by omega) hin, hget, List.getElem_drop,
        ← List.getElem?_eq_getElem]
      congr 1
      omega
  · show (s.memory.memcpy s.transfer.sink s.transfer.received data).cell a i = _
    rw [hsink, Memory.cell_memcpy_outside _ (Or.inl ha)]
    exact h.frame a ha i

/-- The loop reads all of the range that there is, and does not fail. -/
theorem readLoop_reads {object : List β} {file : OpenFile β} (hfile : file.Honest object)
    {s₀ : Live β} (hlt : s₀.transfer.length < 2 ^ 64)
    (hstop : s₀.transfer.offset + s₀.transfer.length ≤ 2 ^ 63) :
    ∀ (turns : Nat) {s : Live β}, Reads object s₀ s →
      s₀.transfer.length - s.transfer.received ≤ turns →
      ∃ s', readLoop file turns s = (s', []) ∧ Reads object s₀ s' ∧
        (s'.transfer.received < s₀.transfer.length →
          object.length ≤ s₀.transfer.offset + s'.transfer.received)
  | 0, s, h, hturns => ⟨s, rfl, h, fun hshort => by omega⟩
  | turns + 1, s, h, hturns => by
      have hlength : s.transfer.length = s₀.transfer.length := field_of_plan (·.length) h.plan_eq
      have hoffset : s.transfer.offset = s₀.transfer.offset := field_of_plan (·.offset) h.plan_eq
      have hle := h.received_le
      by_cases hmore : s.transfer.received < s₀.transfer.length
      · have hn : sub64 s.transfer.length s.transfer.received =
            s₀.transfer.length - s.transfer.received := by
          rw [hlength]
          exact sub64_of_le hle hlt
        have hpos : add64 s.transfer.offset s.transfer.received =
            s₀.transfer.offset + s.transfer.received := by
          rw [hoffset]
          exact add64_of_lt (by omega)
        have hin : ¬ offsetMax < s₀.transfer.offset + s.transfer.received := by
          unfold offsetMax
          omega
        obtain ⟨data, hread, hlen, hdata, hend⟩ := hfile
          (min (s₀.transfer.length - s.transfer.received) offsetMax)
          (s₀.transfer.offset + s.transfer.received)
        have hstep : readLoop file (turns + 1) s =
            if data.isEmpty then (s, []) else readLoop file turns (took data s) := by
          simp only [readLoop, hlength, if_pos hmore]
          rw [← hlength, hn, hpos, OpenFile.readAt, if_neg hin, hread]
        rw [hstep]
        by_cases hnone : data = []
        · rw [if_pos (by simp [hnone])]
          refine ⟨s, rfl, h, fun _ => (hend hnone).resolve_left ?_⟩
          unfold offsetMax
          omega
        · rw [if_neg (by simpa using hnone)]
          obtain ⟨hnext, hreceived⟩ := h.took hlt (hlen.trans (min_le_left _ _)) hdata
          have hgrows := List.length_pos_iff.mpr hnone
          exact readLoop_reads hfile hlt hstop turns hnext (by omega)
      · refine ⟨s, ?_, h, fun hshort => absurd hshort hmore⟩
        simp only [readLoop, hlength, if_neg hmore]

/-! ## The transfer -/

/-- A local transfer as it leaves the planner, with a buffer of its own for every part. -/
structure Transfer.Local (t : Transfer) : Prop where
  layout : t.Layout
  distinct : t.parts.Pairwise Part.Apart
  outside : ∀ p ∈ t.parts, p.buffer ≠ .scratch
  isLocal : t.locator.backend = .file
  sink_eq : t.sink = .null
  scratch_eq : t.scratch = 0
  received_eq : t.received = 0

/-- Where `ensure_sink` lets a local transfer read to: its one part, or the scratch vector. -/
theorem ensureSink_local {t : Transfer} (h : t.Local) :
    (∃ p, t.parts = [p] ∧ p.relativeOffset = 0 ∧ p.length = t.length ∧
      ensureSink true t = ({ t with sink := p.buffer }, true)) ∨
    ensureSink true t = ({ t with scratch := t.length, sink := .scratch }, true) := by
  unfold ensureSink
  rw [if_neg (by simp [h.sink_eq])]
  cases hscattered : t.scattered with
  | false =>
      obtain ⟨p, hp, hzero, hwhole⟩ := h.layout.whole hscattered
      exact Or.inl ⟨p, hp, hzero, hwhole, by simp [hp]⟩
  | true => exact Or.inr (by simp [h.isLocal])

/-- A loop that has read what there is has received exactly that. -/
theorem Reads.received_eq {object : List β} {s₀ s : Live β} (h : Reads object s₀ s)
    (hend : s.transfer.received < s₀.transfer.length →
      object.length ≤ s₀.transfer.offset + s.transfer.received) :
    s.transfer.received = min s₀.transfer.length (object.length - s₀.transfer.offset) := by
  have hle := h.received_le
  have hthere : 0 < s.transfer.received →
      s₀.transfer.offset + (s.transfer.received - 1) < object.length := by
    intro hpos
    by_contra hout
    have hcell := h.cells (s.transfer.received - 1) (by omega)
    rw [List.getElem?_eq_none (by omega)] at hcell
    cases hcell
  omega

/-- Where `deliver` leaves the bytes of the range that have been received. -/
def Reads.Lands (object : List β) (t : Transfer) (s : Live β) : Prop :=
  ∀ detail, ∀ p ∈ t.parts, ∀ i < s.transfer.received, p.relativeOffset ≤ i →
    i < p.relativeOffset + p.length → object[t.offset + i]? =
      some ((deliver s.transfer .ok detail s.memory).2.cell p.buffer (i - p.relativeOffset))

/-- Read into its one part. -/
theorem Reads.lands_direct {object : List β} {t : Transfer} {p : Part} (hp : t.parts = [p])
    (hzero : p.relativeOffset = 0) {s₀ s : Live β} (h : Reads object s₀ s)
    (hoffset : s₀.transfer.offset = t.offset) (hsink : s₀.transfer.sink = p.buffer)
    (hscratch : s₀.transfer.scratch = 0) : Reads.Lands object t s := by
  intro detail q hq i hi _ _
  rw [hp, List.mem_singleton] at hq
  rw [deliver_memory ((field_of_plan (·.scratch) h.plan_eq).trans hscratch), hq, hzero,
    Nat.sub_zero, ← hoffset, ← hsink]
  exact h.cells i hi

/-- Read into the scratch vector: `deliver` copies the parts out. -/
theorem Reads.lands_staged {object : List β} {t : Transfer} (ht : t.Local) {s₀ s : Live β}
    (h : Reads object s₀ s) (hparts : s₀.transfer.parts = t.parts)
    (hoffset : s₀.transfer.offset = t.offset) (hsink : s₀.transfer.sink = .scratch)
    (hscratch : s₀.transfer.scratch = t.length) : Reads.Lands object t s := by
  have hparts : s.transfer.parts = t.parts := (field_of_plan (·.parts) h.plan_eq).trans hparts
  intro detail p hp i hi h₁ h₂
  have hpos : 0 < s.transfer.scratch := by
    have hscratch : s.transfer.scratch = t.length :=
      (field_of_plan (·.scratch) h.plan_eq).trans hscratch
    have := ht.layout.part_pos p hp
    have := ht.layout.part_stop p hp
    omega
  have hgot := (deliverPart_got s.transfer detail (ht.layout.stop_eq hp)).1
  have hcopied : i - p.relativeOffset < (deliverPart s.transfer .ok detail p).got := by
    rw [hgot]
    omega
  have hunstaged := unstage_cell hpos (fun p => (deliverPart s.transfer .ok detail p).got)
    t.parts s.memory ht.distinct ht.outside p hp _ hcopied
  have hdeliver : (deliver s.transfer .ok detail s.memory).2 = t.parts.foldl
      (fun m p => unstagePart s.transfer (deliverPart s.transfer .ok detail p).got p m) s.memory := by
    simp only [deliver, if_true, hparts]
  rw [hdeliver, hunstaged, Nat.add_sub_cancel' h₁, ← hoffset, ← hsink]
  exact h.cells i hi

/-- A local transfer from a file that holds the object finishes, loaded, and has written to
its own buffers and its scratch vector only. -/
theorem fileTransfer_loaded {object : List β} {file : OpenFile β} (hfile : file.Honest object)
    {t : Transfer} (ht : t.Local) (hstop : t.offset + t.length ≤ 2 ^ 63) (m : Memory Addr β) :
    ∃ s, fileTransfer true (.ok file) ⟨t, m, []⟩ = .finish .ok [] s ∧ Loaded object t s ∧
      ∀ a ≠ .scratch, (∀ p ∈ t.parts, p.buffer ≠ a) → ∀ i, s.memory.cell a i = m.cell a i := by
  have hread : ∀ t' : Transfer, t'.length = t.length → t'.offset = t.offset → t'.received = 0 →
      ∃ s, readFile (.ok file) ⟨t', m, []⟩ = .finish .ok [] s ∧ Reads object ⟨t', m, []⟩ s ∧
        s.transfer.received = min t.length (object.length - t.offset) := by
    intro t' hlength hoffset hzero
    have hstart : Reads object ⟨t', m, []⟩ ⟨t', m, []⟩ := by
      refine ⟨rfl, ?_, fun i hi => ?_, fun _ _ _ => rfl⟩
      · show t'.received ≤ t'.length
        omega
      · have hi : i < t'.received := hi
        omega
    have hlt : t'.length < 2 ^ 64 := hlength ▸ ht.layout.length_lt
    have hstop : t'.offset + t'.length ≤ 2 ^ 63 := by omega
    obtain ⟨s, hloop, hreads, hend⟩ :=
      readLoop_reads hfile hlt hstop t'.length hstart (Nat.sub_le _ _)
    refine ⟨s, ?_, hreads, ?_⟩
    · simp only [readFile, hloop, List.isEmpty_nil, if_true]
    · rw [hreads.received_eq hend, ← hlength, ← hoffset]
  rcases ensureSink_local ht with ⟨p, hp, hzero, -, hsink⟩ | hsink
  · obtain ⟨s, hfinish, hreads, hreceived⟩ := hread { t with sink := p.buffer } rfl rfl ht.received_eq
    refine ⟨s, ?_, ⟨(field_of_plan (·.parts) hreads.plan_eq).trans rfl, hreceived,
      hreads.lands_direct hp hzero rfl rfl ht.scratch_eq⟩, fun a _ ha => ?_⟩
    · simp only [fileTransfer, hsink, if_true]
      exact hfinish
    · exact hreads.frame a (ha p (by simp [hp])).symm
  · obtain ⟨s, hfinish, hreads, hreceived⟩ :=
      hread { t with scratch := t.length, sink := .scratch } rfl rfl ht.received_eq
    refine ⟨s, ?_, ⟨(field_of_plan (·.parts) hreads.plan_eq).trans rfl, hreceived,
      hreads.lands_staged ht rfl rfl rfl rfl⟩, fun a hscratch _ => ?_⟩
    · simp only [fileTransfer, hsink, if_true]
      exact hfinish
    · exact hreads.frame a hscratch

end Karu
