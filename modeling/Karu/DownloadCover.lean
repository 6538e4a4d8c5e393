/-
# `Karu.DownloadCover` — every byte once

What the record of a download says while its loop runs.  A position of the object is
in what has been delivered, in the part of a slot that waits, or ahead of the next
chunk, and only in one of these (`Going.covered`).  Two steps move it along: a slot
takes a chunk (`Going.take`), and its bytes are written (`Going.land`).  At the end
nothing waits and nothing is ahead.

Where the steps come from is a matter of `download` itself: each of its functions
has a lemma that says what it adds to the record.  That the loop ends is the last
part; there the cursor matters.
-/
import Karu.Base.Slots
import Karu.Download

namespace Karu

open Base

namespace Download

open Output

/-! ## The record -/

/-- What a write has put where. -/
def pieceOf : Event Note → Option (Nat × Content)
  | .call (.pwrite offset bytes) _ _ => some (offset, bytes)
  | _ => none

/-- What has arrived. -/
def deliveryOf : Event Note → Option (Nat × Content)
  | .note (.delivered offset bytes) => some (offset, bytes)
  | _ => none

/-- The slot, the part and the ETag of a request. -/
def submissionOf : Event Note → Option (Nat × DownloadPart × Option Text)
  | .note (.submitted slot part ifMatch) => some (slot, part, ifMatch)
  | _ => none

/-- The slot whose batch is freed. -/
def freedOf : Event Note → Option Nat
  | .note (.freed slot) => some slot
  | _ => none

/-- What the callback was told. -/
def progressOf : Event Note → Option Nat
  | .note (.progress completed _) => some completed
  | _ => none

/-- The record of a download. -/
abbrev Record := List (Event Note)

namespace Record

variable (log : Record)

def pieces : List (Nat × Content) := List.filterMap pieceOf log

def deliveries : List (Nat × Content) := List.filterMap deliveryOf log

def submissions : List (Nat × DownloadPart × Option Text) := List.filterMap submissionOf log

def freed : List Nat := List.filterMap freedOf log

def progresses : List Nat := List.filterMap progressOf log

variable (log' : Record)

theorem pieces_append : pieces (log ++ log') = pieces log ++ pieces log' := List.filterMap_append

theorem deliveries_append : deliveries (log ++ log') = deliveries log ++ deliveries log' :=
  List.filterMap_append

theorem submissions_append : submissions (log ++ log') = submissions log ++ submissions log' :=
  List.filterMap_append

theorem freed_append : freed (log ++ log') = freed log ++ freed log' := List.filterMap_append

theorem progresses_append : progresses (log ++ log') = progresses log ++ progresses log' :=
  List.filterMap_append

end Record

/-- Nothing but writes. -/
def OnlyWrites (es : Record) : Prop := ∀ e ∈ es, (pieceOf e).isSome = true

namespace OnlyWrites

variable {es : Record}

/-- A write is none of the other events. -/
theorem filterMap_eq_nil {α : Type} {f : Event Note → Option α} (h : OnlyWrites es)
    (hf : ∀ offset bytes before after, f (.call (.pwrite offset bytes) before after) = none) :
    es.filterMap f = [] := by
  refine List.filterMap_eq_nil_iff.mpr fun e he => ?_
  have hpiece := h e he
  unfold pieceOf at hpiece
  split at hpiece
  · exact hf _ _ _ _
  · cases hpiece

theorem deliveries (h : OnlyWrites es) : Record.deliveries es = [] :=
  h.filterMap_eq_nil fun _ _ _ _ => rfl

theorem submissions (h : OnlyWrites es) : Record.submissions es = [] :=
  h.filterMap_eq_nil fun _ _ _ _ => rfl

theorem freed (h : OnlyWrites es) : Record.freed es = [] := h.filterMap_eq_nil fun _ _ _ _ => rfl

theorem progresses (h : OnlyWrites es) : Record.progresses es = [] :=
  h.filterMap_eq_nil fun _ _ _ _ => rfl

end OnlyWrites

/-! ## The parts -/

/-- The position is in the part. -/
def DownloadPart.has (part : DownloadPart) (p : Nat) : Bool :=
  decide (part.offset ≤ p ∧ p < part.offset + part.length)

/-- Every position of the part has been written. -/
def Written (part : DownloadPart) (log : Record) : Prop :=
  ∀ p, part.has p = true → ∃ x ∈ log.pieces, covers p x = true

theorem Written.append {part : DownloadPart} {log : Record} (h : Written part log) (es : Record) :
    Written part (log ++ es) := by
  intro p hp
  obtain ⟨x, hx, hcovers⟩ := h p hp
  refine ⟨x, ?_, hcovers⟩
  rw [Record.pieces_append]
  exact List.mem_append_left _ hx

/-- Where a chunk begins. -/
def Job.start (job : Job) (chunk : Nat) : Nat := job.probeLength + chunk * job.settings.chunkSize

/-- The position is behind the first chunks. -/
def Job.ahead (job : Job) (chunk p : Nat) : Nat :=
  if job.start chunk ≤ p ∧ p < job.size then 1 else 0

/-- What the options and the probe promise. -/
structure Job.Fit (job : Job) : Prop where
  chunk_pos : 0 < job.settings.chunkSize
  probe_le : job.probeLength ≤ job.size
  size_le : job.size ≤ offsetMax

section Parts

variable {job : Job} (hjob : job.Fit)
include hjob

theorem Job.Fit.size_lt : job.size < 2 ^ 64 := by
  have := hjob.size_le
  unfold offsetMax at this
  omega

theorem Job.Fit.start_lt {chunk : Nat} (h : chunk < job.chunks) : job.start chunk < job.size := by
  unfold Job.chunks at h
  split at h
  · omega
  · rename_i hremaining
    have hle : chunk ≤ (job.remaining - 1) / job.settings.chunkSize := by omega
    have hmul := (Nat.le_div_iff_mul_le hjob.chunk_pos).mp hle
    unfold Job.remaining at hmul hremaining
    unfold Job.start
    omega

theorem Job.Fit.size_le_start : job.size ≤ job.start job.chunks := by
  have hprobe := hjob.probe_le
  unfold Job.start Job.chunks
  split
  · rename_i hremaining
    unfold Job.remaining at hremaining
    omega
  · have hlt := Nat.lt_mul_div_succ (job.remaining - 1) hjob.chunk_pos
    rw [Nat.mul_comm, Nat.add_comm _ 1] at hlt
    unfold Job.remaining at hlt ⊢
    omega

/-- No computation wraps: the part of a chunk is what it is over the natural numbers. -/
theorem Job.Fit.part_eq {chunk : Nat} (h : chunk < job.chunks) :
    job.part chunk =
      { offset := job.start chunk
        length := min job.settings.chunkSize (job.size - job.start chunk) } := by
  have hstart := hjob.start_lt h
  have hsize := hjob.size_lt
  have hmul : chunk * job.settings.chunkSize % 2 ^ 64 = chunk * job.settings.chunkSize := by
    refine Nat.mod_eq_of_lt ?_
    unfold Job.start at hstart
    omega
  have hoffset : add64 job.probeLength (chunk * job.settings.chunkSize % 2 ^ 64) =
      job.start chunk := by
    rw [hmul, add64_of_lt (by unfold Job.start at hstart; omega)]
    rfl
  simp only [Job.part, hoffset, sub64_of_le (Nat.le_of_lt hstart) hsize]

theorem Job.Fit.part_length_pos {chunk : Nat} (h : chunk < job.chunks) :
    0 < (job.part chunk).length := by
  have hstart := hjob.start_lt h
  have hpos := hjob.chunk_pos
  rw [hjob.part_eq h]
  simp only
  omega

/-- A part is what stops being ahead. -/
theorem Job.Fit.part_ahead {chunk : Nat} (h : chunk < job.chunks) (p : Nat) :
    ((job.part chunk).has p).toNat + job.ahead (chunk + 1) p = job.ahead chunk p := by
  have hstart := hjob.start_lt h
  have hnext : job.start (chunk + 1) = job.start chunk + job.settings.chunkSize := by
    unfold Job.start
    rw [Nat.succ_mul, Nat.add_assoc]
  rw [hjob.part_eq h]
  unfold DownloadPart.has Job.ahead
  rw [hnext]
  by_cases hin : job.start chunk ≤ p ∧
      p < job.start chunk + min job.settings.chunkSize (job.size - job.start chunk)
  · rw [decide_eq_true hin, if_neg (by omega), if_pos (by omega)]
    rfl
  · rw [decide_eq_false hin]
    split_ifs <;> first | rfl | omega

end Parts

/-! ## The invariant -/

/-- How many of the slots that wait have the position. -/
def waiting (p : Nat) (slots : List Slot) : Nat :=
  (slots.map fun s => if s.batch then (s.part.has p).toNat else 0).sum

/-- How many bytes they wait for. -/
def waitingLength (slots : List Slot) : Nat :=
  (slots.map fun s => if s.batch then s.part.length else 0).sum

/-- How many slots wait. -/
def batches (slots : List Slot) : Nat := (slots.map fun s => s.batch.toNat).sum

/-- A request is for its own chunk and carries the ETag; the slot has written what it got before,
and not all slots are waiting. -/
def Sound (job : Job) (before : Record) (e : Event Note) : Prop :=
  ∀ slot part ifMatch, submissionOf e = some (slot, part, ifMatch) →
    (∃ chunk, chunk < job.chunks ∧ part =
      { offset := job.start chunk
        length := min job.settings.chunkSize (job.size - job.start chunk) }) ∧
    ifMatch = job.ifMatch ∧
    (∀ part' ifMatch', (slot, part', ifMatch') ∈ before.submissions → Written part' before) ∧
    before.submissions.length < before.freed.length + job.slotCount

/-- The loop is going on. -/
structure Going (job : Job) (slots : List Slot) (nextChunk downloaded : Nat) (log : Record) :
    Prop where
  slots_length : slots.length = job.slotCount
  next_le : nextChunk ≤ job.chunks
  parts : ∀ slot ∈ slots, slot.batch = true → ∃ chunk < job.chunks, slot.part = job.part chunk
  covered : ∀ p, log.deliveries.countP (covers p) + waiting p slots + job.ahead nextChunk p =
    if p < job.size then 1 else 0
  same : Same log.deliveries log.pieces
  counted : downloaded + waitingLength slots + (job.size - job.start nextChunk) = job.size
  outstanding : log.submissions.length = log.freed.length + batches slots
  written : ∀ i part ifMatch, (i, part, ifMatch) ∈ log.submissions →
    (∃ slot, slots[i]? = some slot ∧ slot.batch = true ∧ slot.part = part) ∨ Written part log
  requests : AtEach (Sound job) log
  increasing : log.progresses.Pairwise (· < ·)
  reported : ∀ v ∈ log.progresses, v ≤ downloaded
  last : job.settings.progress = true → 0 < downloaded → log.progresses.getLast? = some downloaded

theorem batches_le (slots : List Slot) : batches slots ≤ slots.length := by
  induction slots with
  | nil => exact Nat.le_refl 0
  | cons s slots ih =>
      have : s.batch.toNat ≤ 1 := Bool.toNat_le s.batch
      simp only [batches, List.map_cons, List.sum_cons, List.length_cons] at ih ⊢
      omega

section Going

variable {job : Job} {slots : List Slot} {next downloaded i : Nat} {log : Record} {slot : Slot}

/-- A slot that does not wait takes the next chunk. -/
theorem Going.take (hjob : job.Fit) (h : Going job slots next downloaded log)
    (hslot : slots[i]? = some slot) (hfree : slot.batch = false) (hnext : next < job.chunks) :
    Going job
      (slots.set i { capacity := job.slotCapacity, part := job.part next, batch := true })
      (next + 1) downloaded (log ++ [.note (.submitted i (job.part next) job.ifMatch)]) := by
  generalize hnew : ({ capacity := job.slotCapacity, part := job.part next, batch := true } : Slot) =
    new
  have hbatch : new.batch = true := by rw [← hnew]
  have hpart : new.part = job.part next := by rw [← hnew]
  have hbatches := Slots.sum_map_set (fun s : Slot => s.batch.toNat) hslot new
  have hroom : batches (slots.set i new) ≤ job.slotCount := by
    have := batches_le (slots.set i new)
    rwa [List.length_set, h.slots_length] at this
  simp only [hbatch, hfree, Bool.toNat_true, Bool.toNat_false] at hbatches
  have hsubmitted : Record.submissions (log ++ [.note (.submitted i (job.part next) job.ifMatch)]) =
      log.submissions ++ [(i, job.part next, job.ifMatch)] := Record.submissions_append _ _
  have hfreed : Record.freed (log ++ [.note (.submitted i (job.part next) job.ifMatch)]) =
      log.freed := by rw [Record.freed_append]; exact List.append_nil _
  have hdeliveries : Record.deliveries (log ++ [.note (.submitted i (job.part next) job.ifMatch)]) =
      log.deliveries := by rw [Record.deliveries_append]; exact List.append_nil _
  have hpieces : Record.pieces (log ++ [.note (.submitted i (job.part next) job.ifMatch)]) =
      log.pieces := by rw [Record.pieces_append]; exact List.append_nil _
  have hprogresses : Record.progresses
      (log ++ [.note (.submitted i (job.part next) job.ifMatch)]) = log.progresses := by
    rw [Record.progresses_append]; exact List.append_nil _
  refine ⟨by rw [List.length_set, h.slots_length], hnext, ?_, fun p => ?_, ?_, ?_, ?_, ?_, ?_, ?_,
    ?_, ?_⟩
  · intro s hs hwaits
    rcases List.mem_or_eq_of_mem_set hs with hs | rfl
    · exact h.parts s hs hwaits
    · exact ⟨next, hnext, hpart⟩
  · have hsum := Slots.sum_map_set (fun s : Slot => if s.batch then (s.part.has p).toNat else 0) hslot new
    have hahead := hjob.part_ahead hnext p
    have hcovered := h.covered p
    simp only [hbatch, hfree, hpart, if_true] at hsum
    rw [hdeliveries]
    unfold waiting at hcovered ⊢
    simp only [Bool.false_eq_true, if_false] at hsum
    omega
  · rw [hdeliveries, hpieces]
    exact h.same
  · have hsum := Slots.sum_map_set (fun s : Slot => if s.batch then s.part.length else 0) hslot new
    have hcounted := h.counted
    have hstart := hjob.start_lt hnext
    have hsucc : job.start (next + 1) = job.start next + job.settings.chunkSize := by
      unfold Job.start
      rw [Nat.succ_mul, Nat.add_assoc]
    simp only [hbatch, hfree, hpart, if_true, Bool.false_eq_true, if_false, hjob.part_eq hnext]
      at hsum
    unfold waitingLength at hcounted ⊢
    rw [hsucc]
    omega
  · rw [hsubmitted, hfreed, List.length_append, h.outstanding]
    simp only [batches, List.length_singleton] at hbatches ⊢
    omega
  · intro j part m hmem
    rw [hsubmitted] at hmem
    have hlen : i < slots.length := (List.getElem?_eq_some_iff.mp hslot).1
    rcases List.mem_append.mp hmem with hmem | hmem
    · rcases h.written j part m hmem with ⟨s, hs, hwaits, hs'⟩ | hwritten
      · have hne : i ≠ j := by
          rintro rfl
          rw [hslot] at hs
          cases hs
          rw [hfree] at hwaits
          cases hwaits
        exact Or.inl ⟨s, by rwa [List.getElem?_set_ne hne], hwaits, hs'⟩
      · exact Or.inr (hwritten.append _)
    · cases List.mem_singleton.mp hmem
      exact Or.inl ⟨new, List.getElem?_set_self hlen, hbatch, hpart⟩
  · refine h.requests.concat fun s part m hs => ?_
    cases hs
    refine ⟨⟨next, hnext, hjob.part_eq hnext⟩, rfl, fun part' m' hmem => ?_, ?_⟩
    · rcases h.written i part' m' hmem with ⟨s, hs, hwaits, -⟩ | hwritten
      · rw [hslot] at hs
        cases hs
        rw [hfree] at hwaits
        cases hwaits
      · exact hwritten
    · rw [h.outstanding]
      unfold batches at hroom ⊢
      omega
  · rw [hprogresses]
    exact h.increasing
  · rw [hprogresses]
    exact h.reported
  · rw [hprogresses]
    exact h.last

/-- What the callback is told, if there is one. -/
def told (job : Job) (completed : Nat) : Record :=
  if job.settings.progress then [.note (.progress completed job.size)] else []

/-- What is recorded when the bytes of a slot are written and its batch is freed. -/
def landing (job : Job) (i offset : Nat) (bytes : Content) (es : Record) (completed : Nat) :
    Record :=
  .note (.delivered offset bytes) :: (es ++ (told job completed ++ [.note (.freed i)]))

section Landing

variable {offset completed : Nat} {bytes : Content} {es : Record} (hes : OnlyWrites es)
include hes

theorem landing_deliveries :
    Record.deliveries (landing job i offset bytes es completed) = [(offset, bytes)] := by
  have htold : Record.deliveries (told job completed ++ [.note (.freed i)]) = [] := by
    unfold told
    split <;> rfl
  show (offset, bytes) :: Record.deliveries (es ++ _) = _
  rw [Record.deliveries_append, hes.deliveries, htold]
  rfl

theorem landing_submissions :
    Record.submissions (landing job i offset bytes es completed) = [] := by
  have htold : Record.submissions (told job completed ++ [.note (.freed i)]) = [] := by
    unfold told
    split <;> rfl
  show Record.submissions (es ++ _) = _
  rw [Record.submissions_append, hes.submissions, htold]
  rfl

theorem landing_freed : Record.freed (landing job i offset bytes es completed) = [i] := by
  have htold : Record.freed (told job completed ++ [.note (.freed i)]) = [i] := by
    unfold told
    split <;> rfl
  show Record.freed (es ++ _) = _
  rw [Record.freed_append, hes.freed, htold]
  rfl

theorem landing_progresses :
    Record.progresses (landing job i offset bytes es completed) =
      if job.settings.progress then [completed] else [] := by
  have htold : Record.progresses (told job completed ++ [.note (.freed i)]) =
      if job.settings.progress then [completed] else [] := by
    unfold told
    split <;> rfl
  show Record.progresses (es ++ _) = _
  rw [Record.progresses_append, hes.progresses, htold]
  rfl

omit hes in
theorem landing_pieces : Record.pieces (landing job i offset bytes es completed) = es.pieces := by
  have htold : Record.pieces (told job completed ++ [.note (.freed i)]) = [] := by
    unfold told
    split <;> rfl
  show Record.pieces (es ++ _) = _
  rw [Record.pieces_append, htold, List.append_nil]

/-- There is no request among it. -/
theorem landing_sound :
    ∀ e ∈ landing job i offset bytes es completed, ∀ before, Sound job before e := by
  intro e he before s part m hs
  have hmem : (s, part, m) ∈ Record.submissions (landing job i offset bytes es completed) :=
    List.mem_filterMap.mpr ⟨e, he, hs⟩
  rw [landing_submissions hes] at hmem
  cases hmem

end Landing

/-- The bytes of a slot are written, and it does not wait any more. -/
theorem Going.land (hjob : job.Fit) (h : Going job slots next downloaded log)
    (hslot : slots[i]? = some slot) (hwaits : slot.batch = true) {bytes : Content}
    (hbytes : bytes.length = slot.part.length) {es : Record} (hes : OnlyWrites es)
    (hsame : Same [(slot.part.offset, bytes)] es.pieces) :
    Going job (slots.set i { slot with batch := false }) next (downloaded + slot.part.length)
      (log ++ landing job i slot.part.offset bytes es (downloaded + slot.part.length)) := by
  have hpos : 0 < slot.part.length := by
    obtain ⟨chunk, hchunk, hpart⟩ := h.parts slot (List.mem_of_getElem? hslot) hwaits
    rw [hpart]
    exact hjob.part_length_pos hchunk
  have hcovers : ∀ p, List.countP (covers p) [(slot.part.offset, bytes)] =
      (slot.part.has p).toNat := by
    intro p
    rw [List.countP_singleton, covers, DownloadPart.has, hbytes]
    cases decide (slot.part.offset ≤ p ∧ p < slot.part.offset + slot.part.length) <;> rfl
  have hwritten : Written slot.part
      (log ++ landing job i slot.part.offset bytes es (downloaded + slot.part.length)) := by
    intro p hp
    have hcount : 0 < es.pieces.countP (covers p) := by
      rw [← hsame.count, hcovers, hp]
      exact Nat.one_pos
    obtain ⟨x, hx, hx'⟩ := List.countP_pos_iff.mp hcount
    refine ⟨x, ?_, hx'⟩
    rw [Record.pieces_append, landing_pieces]
    exact List.mem_append_right _ hx
  refine ⟨by rw [List.length_set, h.slots_length], h.next_le, ?_, fun p => ?_, ?_, ?_, ?_, ?_,
    h.requests.append (landing_sound hes), ?_, ?_, ?_⟩
  · intro s hs hwaits'
    rcases List.mem_or_eq_of_mem_set hs with hs | rfl
    · exact h.parts s hs hwaits'
    · cases hwaits'
  · have hsum := Slots.sum_map_set
      (fun s : Slot => if s.batch then (s.part.has p).toNat else 0) hslot { slot with batch := false }
    have hcovered := h.covered p
    rw [Record.deliveries_append, landing_deliveries hes, List.countP_append, hcovers]
    simp only [hwaits, if_true, Bool.false_eq_true, if_false] at hsum
    unfold waiting at hcovered ⊢
    omega
  · rw [Record.deliveries_append, landing_deliveries hes, Record.pieces_append, landing_pieces]
    exact h.same.append hsame
  · have hsum := Slots.sum_map_set (fun s : Slot => if s.batch then s.part.length else 0) hslot
      { slot with batch := false }
    have hcounted := h.counted
    simp only [hwaits, if_true, Bool.false_eq_true, if_false] at hsum
    unfold waitingLength at hcounted ⊢
    omega
  · have hsum := Slots.sum_map_set (fun s : Slot => s.batch.toNat) hslot
      { slot with batch := false }
    have houtstanding := h.outstanding
    rw [Record.submissions_append, landing_submissions hes, Record.freed_append,
      landing_freed hes, List.append_nil, List.length_append, List.length_singleton]
    simp only [hwaits, Bool.toNat_true, Bool.toNat_false] at hsum
    unfold batches at houtstanding ⊢
    omega
  · intro j part m hmem
    rw [Record.submissions_append, landing_submissions hes, List.append_nil] at hmem
    rcases h.written j part m hmem with ⟨s, hs, hwaits', rfl⟩ | hdone
    · by_cases hij : i = j
      · subst hij
        rw [hslot] at hs
        cases hs
        exact Or.inr hwritten
      · exact Or.inl ⟨s, by rwa [List.getElem?_set_ne hij], hwaits', rfl⟩
    · exact Or.inr (hdone.append _)
  · rw [Record.progresses_append, landing_progresses hes]
    split
    · refine List.pairwise_append.mpr ⟨h.increasing, List.pairwise_singleton _ _, ?_⟩
      intro v hv v' hv'
      have := h.reported v hv
      rw [List.mem_singleton.mp hv']
      omega
    · rw [List.append_nil]
      exact h.increasing
  · intro v hv
    rw [Record.progresses_append, landing_progresses hes] at hv
    rcases List.mem_append.mp hv with hv | hv
    · exact Nat.le_trans (h.reported v hv) (Nat.le_add_right _ _)
    · split at hv
      · rw [List.mem_singleton.mp hv]
      · cases hv
  · intro hprogress _
    rw [Record.progresses_append, landing_progresses hes, if_pos hprogress,
      List.getLast?_append_of_ne_nil _ (List.cons_ne_nil _ _)]
    rfl

end Going

/-! ## What the functions record -/

section Effects

variable {env : Client} {w w' : World Note}

theorem system_ok {env : Surroundings} {call : Call} {effect : FileSystem → Except Errno FileSystem}
    (h : OutputFile.system env call effect w = some (.ok (), w')) :
    ∃ after, effect (w.turn env).fs = .ok after ∧ w' = (w.turn env).perform call after := by
  rcases OutputFile.system_cases h with ⟨e, hr, -⟩ | ⟨-, hok⟩
  · cases hr
  · exact hok

/-- A signal came first, or some of the bytes were taken. -/
theorem pwrite_ok {env : Surroundings} {bytes : Content} {position : Nat} {r : Option Nat}
    (h : OutputFile.pwrite env bytes position w = some (.ok r, w')) :
    (r = none ∧ w'.log = w.log) ∨
      ∃ count before after, r = some count ∧ count ≤ bytes.length ∧
        w'.log = w.log ++ [.call (.pwrite position (bytes.take count)) before after] := by
  unfold OutputFile.pwrite at h
  split at h
  · cases h
    exact Or.inl ⟨rfl, rfl⟩
  · simp only at h
    split at h
    · cases h
    · cases h
    · rename_i w'' hsystem
      cases h
      obtain ⟨after, -, rfl⟩ := system_ok hsystem
      exact Or.inr ⟨_, _, _, rfl, Nat.min_le_right _ _, rfl⟩

/-- The bytes are written in pieces, one behind the other. -/
theorem writeLoop_ok {env : Surroundings} {bytes : Content} {offset : Nat}
    (hlen : bytes.length < 2 ^ 64) :
    ∀ (turns written : Nat) {w : World Note}, written ≤ bytes.length →
      OutputFile.writeLoop env bytes offset turns written w = some (.ok (), w') →
      ∃ es : Record, w'.log = w.log ++ es ∧ OnlyWrites es ∧
        Same [(offset + written, bytes.drop written)] es.pieces := by
  intro turns
  induction turns with
  | zero =>
      intro written w _ h
      cases h
  | succ turns ih =>
      intro written w hwritten h
      unfold OutputFile.writeLoop at h
      split at h
      · rename_i hlt
        split at h
        · cases h
        · rename_i hfits
          simp only at h
          split at h
          · cases h
          · have hposition : add64 offset written = offset + written :=
              add64_of_lt (by unfold maxWord at hfits; omega)
            rw [hposition] at h
            obtain ⟨r, t, hwrite, hrest⟩ := Program.ok_of_bind h
            rcases pwrite_ok hwrite with ⟨rfl, hlog⟩ | ⟨count, before, after, rfl, hcount, hlog⟩
            · obtain ⟨es, hes, hrest⟩ := ih written hwritten hrest
              exact ⟨es, by rw [hes, hlog], hrest⟩
            · simp only at hrest
              split at hrest
              · cases hrest
              · rw [List.length_take, List.length_drop] at hcount
                rw [List.take_take, Nat.min_eq_left (Nat.le_trans hcount (Nat.min_le_left _ _))]
                  at hlog
                obtain ⟨es, hes, honly, hsame⟩ := ih (written + count) (by omega) hrest
                refine ⟨_ :: es, by rw [hes, hlog, List.append_assoc, List.singleton_append], ?_, ?_⟩
                · intro e he
                  rcases List.mem_cons.mp he with rfl | he
                  · rfl
                  · exact honly e he
                · have hcut := Same.cut (offset + written)
                    (show count ≤ (bytes.drop written).length by rw [List.length_drop]; omega)
                  rw [List.drop_drop, Nat.add_assoc] at hcut
                  exact hcut.trans ((Same.refl [_]).append hsame)
      · cases h
        have hall : bytes.drop written = [] := List.drop_eq_nil_of_le (by omega)
        refine ⟨[], (List.append_nil _).symm, fun e he => (by cases he), ?_⟩
        rw [hall]
        exact Same.empty _

theorem write_ok {turns offset : Nat} {job : Job} {bytes : Content} (hlen : bytes.length < 2 ^ 64)
    (h : write env turns job offset bytes w = some (.ok (), w')) :
    ∃ es : Record, w'.log = w.log ++ .note (.delivered offset bytes) :: es ∧ OnlyWrites es ∧
      Same [(offset, bytes)] es.pieces := by
  obtain ⟨u, t, hnote, h⟩ := Program.ok_of_bind h
  cases hnote
  obtain ⟨v, t, hget, h⟩ := Program.ok_of_bind (Program.failingWith_ok h)
  cases hget
  split at h
  · cases h
  · obtain ⟨es, hlog, honly, hsame⟩ := writeLoop_ok hlen turns 0 (Nat.zero_le _) h
    refine ⟨es, ?_, honly, hsame⟩
    rw [hlog]
    exact List.append_assoc _ _ _

theorem report_ok {job : Job} {completed : Nat}
    (h : report env job completed w = some (.ok (), w')) : w'.log = w.log ++ told job completed := by
  unfold report at h
  unfold told
  split at h
  · rename_i hprogress
    obtain ⟨u, t, hnote, h⟩ := Program.ok_of_bind h
    cases hnote
    obtain ⟨goes, t, hask, h⟩ := Program.ok_of_bind h
    cases hask
    split at h
    · cases h
      rw [if_pos hprogress]
      rfl
    · cases h
  · rename_i hprogress
    cases h
    rw [if_neg hprogress, List.append_nil]

theorem submitChunk_ok {job : Job} {i chunk : Nat} {slot : Slot}
    (h : submitChunk env job i chunk w = some (.ok slot, w')) :
    slot = { capacity := job.slotCapacity, part := job.part chunk, batch := true } ∧
      w'.log = w.log ++ [.note (.submitted i (job.part chunk) job.ifMatch)] := by
  obtain ⟨answer, t, hask, h⟩ := Program.ok_of_bind h
  obtain ⟨hanswer, rfl⟩ := Prod.mk.inj (Option.some.inj hask)
  cases answer with
  | some failure => cases h
  | none =>
      obtain ⟨u, t, hnote, h⟩ := Program.ok_of_bind h
      cases hnote
      cases h
      exact ⟨rfl, rfl⟩

end Effects

/-! ## The loop -/

/-- How many chunks have not been written. -/
def Loop.left (job : Job) (loop : Loop) : Nat := job.chunks - loop.nextChunk + batches loop.slots

/-- The variables of the loop and the record belong together. -/
structure Underway (job : Job) (loop : Loop) (w : World Note) : Prop where
  going : Going job loop.slots loop.nextChunk loop.downloaded w.log
  active : loop.active = batches loop.slots
  full : loop.nextChunk < job.chunks → batches loop.slots = loop.slots.length
  cursor : loop.waitCursor ≤ loop.slots.length

section Underway

variable {env : Client} {job : Job} (hjob : job.Fit) {loop loop' : Loop} {w w' : World Note}
  {turns i : Nat} {slot : Slot}
include hjob

theorem Job.Fit.chunks_le : job.chunks ≤ job.size := by
  by_contra hlt
  have hstart := hjob.start_lt (show job.chunks - 1 < job.chunks by omega)
  have hmul := Nat.le_mul_of_pos_right (job.chunks - 1) hjob.chunk_pos
  unfold Job.start at hstart
  omega

theorem Underway.slots_le (h : Underway job loop w) : loop.slots.length ≤ offsetMax := by
  rw [h.going.slots_length]
  exact Nat.le_trans (Nat.min_le_right _ _) (Nat.le_trans hjob.chunks_le hjob.size_le)

/-- The slot that has been written takes the next chunk, or none is left. -/
theorem refill_ok (h : refill env job i slot loop w = some (.ok loop', w'))
    (hgoing : Going job (loop.slots.set i { slot with batch := false }) loop.nextChunk
      loop.downloaded w.log)
    (hactive : loop.active = batches loop.slots)
    (hfull : loop.nextChunk < job.chunks → batches loop.slots = loop.slots.length)
    (hcursor : loop.waitCursor ≤ loop.slots.length)
    (hslot : loop.slots[i]? = some slot) (hwaits : slot.batch = true) :
    Underway job loop' w' ∧ loop'.left job + 1 = loop.left job ∧
      loop'.slots.length = loop.slots.length := by
  have hlen : i < loop.slots.length := (List.getElem?_eq_some_iff.mp hslot).1
  have hcount := Slots.sum_map_set (fun s : Slot => s.batch.toNat) hslot { slot with batch := false }
  simp only [hwaits, Bool.toNat_true, Bool.toNat_false] at hcount
  have hchunks := hjob.chunks_le
  have hsize := hjob.size_lt
  unfold refill at h
  split at h
  · rename_i hnext
    obtain ⟨new, t, hsubmit, h⟩ := Program.ok_of_bind h
    obtain ⟨rfl, hlog⟩ := submitChunk_ok hsubmit
    cases h
    have hadd : add64 loop.nextChunk 1 = loop.nextChunk + 1 := add64_of_lt (by omega)
    have htake := hgoing.take hjob (List.getElem?_set_self hlen) rfl hnext
    rw [List.set_set] at htake
    have hnew := Slots.sum_map_set (fun s : Slot => s.batch.toNat) hslot
      { capacity := job.slotCapacity, part := job.part loop.nextChunk, batch := true }
    simp only [hwaits, Bool.toNat_true] at hnew
    refine ⟨⟨?_, ?_, ?_, ?_⟩, ?_, List.length_set⟩
    · rw [hlog]
      simp only [hadd]
      exact htake
    · simp only [hactive, batches]
      omega
    · intro _
      have := hfull hnext
      simp only [List.length_set, batches] at this ⊢
      omega
    · simpa only [List.length_set] using hcursor
    · simp only [Loop.left, hadd, batches]
      omega
  · rename_i hnext
    cases h
    have hsub : sub64 loop.active 1 = loop.active - 1 := by
      refine sub64_of_le ?_ ?_
      · rw [hactive]
        unfold batches
        omega
      · have hbatches := batches_le loop.slots
        have hslots := hgoing.slots_length
        rw [List.length_set] at hslots
        have : job.slotCount ≤ job.chunks := Nat.min_le_right _ _
        omega
    refine ⟨⟨hgoing, ?_, fun hlt => absurd hlt hnext, ?_⟩, ?_, List.length_set⟩
    · show sub64 loop.active 1 = batches (loop.slots.set i { slot with batch := false })
      rw [hsub, hactive]
      unfold batches
      omega
    · simpa only [List.length_set] using hcursor
    · simp only [Loop.left, batches]
      omega

/-- A batch is done. -/
theorem save_ok (h : Underway job loop w) (hslot : loop.slots[i]? = some slot)
    (hwaits : slot.batch = true) {done : Done} (hgot : done.got = slot.part.length)
    (hsave : save env turns job i slot done loop w = some (.ok loop', w')) :
    Underway job loop' w' ∧ loop'.left job + 1 = loop.left job ∧
      loop'.slots.length = loop.slots.length := by
  have hfits : loop.downloaded + slot.part.length ≤ job.size := by
    have hcounted := h.going.counted
    have hsum := Slots.sum_map_set (fun s : Slot => if s.batch then s.part.length else 0) hslot
      { slot with batch := false }
    simp only [hwaits, if_true, Bool.false_eq_true, if_false] at hsum
    unfold waitingLength at hcounted
    omega
  have hsize := hjob.size_lt
  have hdownloaded : addSaturated loop.downloaded done.got =
      loop.downloaded + slot.part.length := by
    rw [hgot, addSaturated, if_neg (by unfold maxWord; omega)]
  have hbytes : (bytesOf done.buffer slot.part.length).length = slot.part.length := by
    rw [bytesOf, List.length_map, List.length_range]
  unfold save at hsave
  rw [hdownloaded] at hsave
  obtain ⟨u, t, hwrite, hsave⟩ := Program.ok_of_bind hsave
  obtain ⟨es, hes, honly, hsame⟩ := write_ok (by omega) hwrite
  obtain ⟨u, t', hreport, hsave⟩ := Program.ok_of_bind hsave
  have htold := report_ok hreport
  obtain ⟨answer, t'', hask, hsave⟩ := Program.ok_of_bind hsave
  obtain ⟨-, rfl⟩ := Prod.mk.inj (Option.some.inj hask)
  cases answer with
  | some failure => cases hsave
  | none =>
      obtain ⟨u, t'', hnote, hsave⟩ := Program.ok_of_bind hsave
      cases hnote
      obtain ⟨loop'', t'', hrefill, hsave⟩ := Program.ok_of_bind hsave
      cases hsave
      have hlog : (World.note (.freed i) (t'.turn env.toSurroundings)).log = w.log ++
          landing job i slot.part.offset (bytesOf done.buffer slot.part.length) es
            (loop.downloaded + slot.part.length) := by
        show t'.log ++ [_] = _
        rw [htold, hes]
        simp only [landing, List.append_assoc, List.cons_append]
      have hland := h.going.land hjob hslot hwaits hbytes honly hsame
      rw [← hlog] at hland
      obtain ⟨hunderway, hleft, hlength⟩ := refill_ok hjob hrefill hland h.active h.full h.cursor
        hslot hwaits
      refine ⟨⟨hunderway.going, hunderway.active, hunderway.full, ?_⟩, hleft, hlength⟩
      exact Nat.le_of_lt (Nat.mod_lt _ (by
        rw [hlength]
        exact Nat.lt_of_le_of_lt (Nat.zero_le i) (List.getElem?_eq_some_iff.mp hslot).1))

/-- A slot is asked: nothing has come, or one chunk is done. -/
theorem visit_ok {s s' : Sweep} (h : Underway job s.loop w)
    (hvisit : visit env turns job i s w = some (.ok s', w')) :
    Underway job s'.loop w' ∧ s'.loop.slots.length = s.loop.slots.length ∧
      (s'.loop = s.loop ∧ s'.completedOne = s.completedOne ∨
        s'.completedOne = true ∧ s'.loop.left job + 1 = s.loop.left job) := by
  unfold visit at hvisit
  cases hslot : s.loop.slots[i]? with
  | none =>
      rw [hslot] at hvisit
      cases hvisit
      exact ⟨h, rfl, Or.inl ⟨rfl, rfl⟩⟩
  | some slot =>
      rw [hslot] at hvisit
      simp only at hvisit
      split at hvisit
      · rename_i hwaits
        obtain ⟨answer, t, hask, hvisit⟩ := Program.ok_of_bind hvisit
        obtain ⟨-, rfl⟩ := Prod.mk.inj (Option.some.inj hask)
        cases answer with
        | timeout =>
            cases hvisit
            exact ⟨⟨h.going, h.active, h.full, h.cursor⟩, rfl, Or.inl ⟨rfl, rfl⟩⟩
        | failed failure => cases hvisit
        | done done =>
            simp only at hvisit
            split at hvisit
            · cases hvisit
            · split at hvisit
              · cases hvisit
              · rename_i hmatches
                obtain ⟨loop, t, hsave, hvisit⟩ := Program.ok_of_bind hvisit
                cases hvisit
                have hturned : Underway job s.loop (w.turn env.toSurroundings) :=
                  ⟨h.going, h.active, h.full, h.cursor⟩
                obtain ⟨hunderway, hleft, hlength⟩ := save_ok hjob hturned hslot hwaits
                  (by_contra fun hne => hmatches (Or.inr hne)) hsave
                exact ⟨hunderway, hlength, Or.inr ⟨rfl, hleft⟩⟩
      · cases hvisit
        exact ⟨h, rfl, Or.inl ⟨rfl, rfl⟩⟩

/-- A turn of the `for` loop after the other. -/
theorem sweep_ok : ∀ (left step : Nat) {s s' : Sweep} {w : World Note}, Underway job s.loop w →
    sweep env turns job left step s w = some (.ok s', w') →
    Underway job s'.loop w' ∧ s'.loop.slots.length = s.loop.slots.length ∧
      (s'.loop = s.loop ∧ s'.completedOne = s.completedOne ∨
        s'.completedOne = true ∧ s'.loop.left job < s.loop.left job) := by
  intro left
  induction left with
  | zero =>
      intro step s s' w h hsweep
      cases hsweep
      exact ⟨h, rfl, Or.inl ⟨rfl, rfl⟩⟩
  | succ left ih =>
      intro step s s' w h hsweep
      obtain ⟨s₁, t, hvisit, hsweep⟩ := Program.ok_of_bind hsweep
      obtain ⟨hunderway, hlength, hfirst⟩ := visit_ok hjob h hvisit
      obtain ⟨hunderway', hlength', hrest⟩ := ih (step + 1) hunderway hsweep
      refine ⟨hunderway', hlength'.trans hlength, ?_⟩
      rcases hfirst with ⟨hloop, hsame⟩ | ⟨hdone, hless⟩
      · rw [hloop, hsame] at hrest
        exact hrest
      · rcases hrest with ⟨hloop, hsame⟩ | ⟨hdone', hless'⟩
        · exact Or.inr ⟨hsame.trans hdone, by rw [hloop]; omega⟩
        · exact Or.inr ⟨hdone', by omega⟩

/-- Where the `while` loop ends, no slot waits. -/
theorem rounds_ok : ∀ (left : Nat) {loop loop' : Loop} {w : World Note}, Underway job loop w →
    rounds env turns job left loop w = some (.ok loop', w') →
    Underway job loop' w' ∧ loop'.active = 0 := by
  intro left
  induction left with
  | zero =>
      intro loop loop' w _ hrounds
      cases hrounds
  | succ left ih =>
      intro loop loop' w h hrounds
      unfold rounds at hrounds
      split at hrounds
      · rename_i hactive
        obtain ⟨s, t, hsweep, hrounds⟩ := Program.ok_of_bind hrounds
        obtain ⟨hunderway, hlength, -⟩ := sweep_ok hjob _ 0 h hsweep
        refine ih ?_ hrounds
        split
        · exact hunderway
        · refine ⟨hunderway.going, hunderway.active, hunderway.full, ?_⟩
          have hpos : 0 < s.loop.slots.length := by
            have := batches_le loop.slots
            have := h.active
            rw [hlength]
            simp only at *
            omega
          exact Nat.le_of_lt (Nat.mod_lt _ hpos)
      · rename_i hactive
        cases hrounds
        exact ⟨h, by omega⟩

/-- Each slot takes a chunk, one after the other. -/
theorem startSlots_ok {downloaded : Nat} : ∀ (left index : Nat) {slots slots' : List Slot}
    {w : World Note}, left + index = job.slotCount → Going job slots index downloaded w.log →
    batches slots = index →
    (∀ j slot, index ≤ j → slots[j]? = some slot → slot.batch = false) →
    startSlots env job left index slots w = some (.ok slots', w') →
    Going job slots' job.slotCount downloaded w'.log ∧ batches slots' = job.slotCount := by
  intro left
  induction left with
  | zero =>
      intro index slots slots' w hindex hgoing hbatches _ hstart
      cases hstart
      rw [Nat.zero_add] at hindex
      exact ⟨hindex ▸ hgoing, hbatches.trans hindex⟩
  | succ left ih =>
      intro index slots slots' w hindex hgoing hbatches hfree hstart
      obtain ⟨new, t, hsubmit, hstart⟩ := Program.ok_of_bind hstart
      obtain ⟨rfl, hlog⟩ := submitChunk_ok hsubmit
      have hlen : index < slots.length := by
        rw [hgoing.slots_length]
        omega
      have hslot : slots[index]? = some slots[index] := List.getElem?_eq_getElem hlen
      have hempty := hfree index _ (Nat.le_refl _) hslot
      have hchunk : index < job.chunks := by
        have : job.slotCount ≤ job.chunks := Nat.min_le_right _ _
        omega
      have htake := hgoing.take hjob hslot hempty hchunk
      rw [← hlog] at htake
      refine ih (index + 1) (by omega) htake ?_ ?_ hstart
      · have hsum := Slots.sum_map_set (fun s : Slot => s.batch.toNat) hslot
          { capacity := job.slotCapacity, part := job.part index, batch := true }
        simp only [hempty, Bool.toNat_true, Bool.toNat_false] at hsum
        unfold batches at hbatches ⊢
        omega
      · intro j slot hj hget
        rw [List.getElem?_set_ne (by omega)] at hget
        exact hfree j slot (by omega) hget

/-- Nothing has been submitted, and the probe has arrived. -/
theorem Going.begin {log : Record}
    (hdelivered : ∀ p, log.deliveries.countP (covers p) = if p < job.probeLength then 1 else 0)
    (hsame : Same log.deliveries log.pieces) (hsubmissions : log.submissions = [])
    (hfreed : log.freed = [])
    (hprogress : log.progresses =
      if job.settings.progress = true ∧ 0 < job.probeLength then [job.probeLength] else []) :
    Going job job.emptySlots 0 job.probeLength log := by
  have hstart : job.start 0 = job.probeLength := by
    unfold Job.start
    omega
  have hsum : ∀ f : Slot → Nat,
      f { capacity := job.slotCapacity, part := ⟨0, 0⟩, batch := false } = 0 →
      (job.emptySlots.map f).sum = 0 := by
    intro f hf
    rw [Job.emptySlots, List.map_replicate, hf]
    exact List.sum_eq_zero fun n hn => List.eq_of_mem_replicate hn
  have hprobe := hjob.probe_le
  refine ⟨List.length_replicate, Nat.zero_le _, ?_, fun p => ?_, hsame, ?_, ?_, ?_, ?_, ?_, ?_, ?_⟩
  · intro slot hslot hbatch
    rw [List.eq_of_mem_replicate hslot] at hbatch
    cases hbatch
  · rw [hdelivered, waiting, hsum _ rfl, Job.ahead, hstart]
    split_ifs <;> omega
  · rw [waitingLength, hsum _ rfl, hstart]
    omega
  · rw [hsubmissions, hfreed, batches, hsum _ rfl]
    rfl
  · intro i part m hmem
    rw [hsubmissions] at hmem
    cases hmem
  · intro before e hprefix i part m he
    have hmem : (i, part, m) ∈ log.submissions :=
      List.mem_filterMap.mpr ⟨e, hprefix.subset (List.mem_append_right _ (List.mem_singleton.mpr rfl)),
        he⟩
    rw [hsubmissions] at hmem
    cases hmem
  · rw [hprogress]
    split
    · exact List.pairwise_singleton _ _
    · exact List.Pairwise.nil
  · intro v hv
    rw [hprogress] at hv
    split at hv
    · rw [List.mem_singleton.mp hv]
    · cases hv
  · intro htold hpos
    rw [hprogress, if_pos ⟨htold, hpos⟩]
    rfl

end Underway

/-! ## From the probe to the end -/

/-- What the record says when all is there. -/
structure Complete (job : Job) (log : Record) : Prop where
  once : Exact job.size log.pieces
  same : Same log.deliveries log.pieces
  requests : AtEach (Sound job) log
  increasing : log.progresses.Pairwise (· < ·)
  last : job.settings.progress = true → 0 < job.size → log.progresses.getLast? = some job.size

/-- When no slot waits, no chunk is ahead either. -/
theorem Underway.complete {job : Job} (hjob : job.Fit) (hparallel : 0 < job.settings.parallelism)
    {loop : Loop} {w : World Note} (h : Underway job loop w) (hdone : loop.active = 0) :
    loop.downloaded = job.size ∧ Complete job w.log := by
  have hbatches : batches loop.slots = 0 := h.active.symm.trans hdone
  have hnext : loop.nextChunk = job.chunks := by
    have hle := h.going.next_le
    by_contra hne
    have hlength := h.full (by omega)
    rw [h.going.slots_length, hbatches] at hlength
    unfold Job.slotCount at hlength
    omega
  have hnone : ∀ slot ∈ loop.slots, slot.batch = false := by
    intro slot hslot
    have hzero := List.sum_eq_zero_iff_forall_eq_nat.mp hbatches _ (List.mem_map_of_mem hslot)
    cases hbatch : slot.batch with
    | false => rfl
    | true =>
        rw [hbatch] at hzero
        cases hzero
  have hsum : ∀ f : Slot → Nat, (∀ slot, slot.batch = false → f slot = 0) →
      (loop.slots.map f).sum = 0 := by
    intro f hf
    refine List.sum_eq_zero fun n hn => ?_
    obtain ⟨slot, hslot, rfl⟩ := List.mem_map.mp hn
    exact hf slot (hnone slot hslot)
  have hstart := hjob.size_le_start
  have hlength : waitingLength loop.slots = 0 := hsum _ fun slot hslot => by rw [hslot]; rfl
  have hdownloaded : loop.downloaded = job.size := by
    have hcounted := h.going.counted
    rw [hnext, hlength] at hcounted
    omega
  refine ⟨hdownloaded, fun p => ?_, h.going.same, h.going.requests, h.going.increasing, ?_⟩
  · have hcovered := h.going.covered p
    have hwaiting : waiting p loop.slots = 0 := hsum _ fun slot hslot => by rw [hslot]; rfl
    have hahead : job.ahead job.chunks p = 0 := if_neg (by omega)
    rw [hnext, hwaiting, hahead] at hcovered
    rw [← h.going.same.count]
    exact hcovered
  · intro hprogress hpos
    rw [h.going.last hprogress (by omega), hdownloaded]

/-- Nothing has happened but calls that write nothing. -/
structure Bare (log : Record) : Prop where
  pieces : log.pieces = []
  deliveries : log.deliveries = []
  submissions : log.submissions = []
  freed : log.freed = []
  progresses : log.progresses = []

theorem Bare.call {log : Record} (h : Bare log) {call : Call} {before after : FileSystem}
    (hcall : pieceOf (.call call before after) = none) :
    Bare (log ++ [.call call before after]) := by
  have hnone : ∀ {α : Type} {f : Event Note → Option α}, f (.call call before after) = none →
      log.filterMap f = [] → (log ++ [Event.call call before after]).filterMap f = [] := by
    intro α f hf hlog
    rw [List.filterMap_append, hlog, List.nil_append, List.filterMap_cons_none hf]
    rfl
  exact ⟨hnone hcall h.pieces, hnone rfl h.deliveries, hnone rfl h.submissions, hnone rfl h.freed,
    hnone rfl h.progresses⟩

section Fetch

variable {env : Client} {turns : Nat} {destination : Text} {settings : DownloadSettings}
  {w w' : World Note}

theorem probeObject_ok {job : Job} {buffer : Nat → UInt8} (hbare : Bare w.log)
    (hchunk : 0 < settings.chunkSize)
    (h : probeObject env destination settings w = some (.ok (job, buffer), w')) :
    Bare w'.log ∧ job.Fit ∧ ∃ probe, env.readEnds w.calls (probeCapacity settings) = .ok probe ∧
      buffer = probe.buffer ∧
      job = { destination, settings, size := probe.size, etag := probe.etag
              probeLength := min (probeCapacity settings) probe.size } := by
  obtain ⟨answer, t, hask, h⟩ := Program.ok_of_bind h
  obtain ⟨hanswer, rfl⟩ := Prod.mk.inj (Option.some.inj hask)
  cases answer with
  | error failure => cases h
  | ok probe =>
      obtain ⟨u, t, hresize, h⟩ := Program.ok_of_bind h
      cases h
      obtain ⟨v, t, hget, hresize⟩ := Program.ok_of_bind (Program.failingWith_ok hresize)
      cases hget
      split at hresize
      · cases hresize
      · split at hresize
        · cases hresize
        · rename_i hsize
          obtain ⟨after, -, rfl⟩ := system_ok hresize
          exact ⟨hbare.call rfl, ⟨hchunk, Nat.min_le_right _ _, Nat.le_of_not_lt hsize⟩, probe,
            Except.ok.inj hanswer, rfl, rfl⟩

theorem saveProbe_ok {job : Job} (hjob : job.Fit) {buffer : Nat → UInt8} {downloaded : Nat}
    (hbare : Bare w.log) (h : saveProbe env turns job buffer w = some (.ok downloaded, w')) :
    downloaded = job.probeLength ∧ Going job job.emptySlots 0 downloaded w'.log := by
  have hsize := hjob.size_lt
  have hprobe := hjob.probe_le
  unfold saveProbe at h
  split at h
  · rename_i hpos
    have hlength : (bytesOf buffer job.probeLength).length = job.probeLength := by
      rw [bytesOf, List.length_map, List.length_range]
    obtain ⟨u, t, hwrite, h⟩ := Program.ok_of_bind h
    obtain ⟨es, hlog, honly, hsame⟩ := write_ok (by omega) hwrite
    obtain ⟨u, t', hreport, h⟩ := Program.ok_of_bind h
    cases h
    have hall : w'.log = w.log ++ .note (.delivered 0 (bytesOf buffer job.probeLength)) ::
        (es ++ told job job.probeLength) := by
      rw [report_ok hreport, hlog, List.append_assoc, List.cons_append]
    -- The record of a slot that lands, but for the slot.
    have hlanding : w'.log ++ [.note (.freed 0)] =
        w.log ++ landing job 0 0 (bytesOf buffer job.probeLength) es job.probeLength := by
      rw [hall, landing, List.append_assoc, List.cons_append, List.append_assoc]
    have hdeliveries : Record.deliveries w'.log = [(0, bytesOf buffer job.probeLength)] := by
      have hd := congrArg Record.deliveries hlanding
      rw [Record.deliveries_append, Record.deliveries_append, landing_deliveries honly,
        hbare.deliveries] at hd
      exact (List.append_nil _).symm.trans hd
    have hpieces : Record.pieces w'.log = es.pieces := by
      have hd := congrArg Record.pieces hlanding
      rw [Record.pieces_append, Record.pieces_append, landing_pieces, hbare.pieces] at hd
      exact (List.append_nil _).symm.trans hd
    refine ⟨rfl, Going.begin hjob ?_ ?_ ?_ ?_ ?_⟩
    · intro p
      rw [hdeliveries, List.countP_singleton, covers, hlength]
      simp only [decide_eq_true_eq, Nat.zero_le, true_and, Nat.zero_add]
    · rw [hdeliveries, hpieces]
      exact hsame
    · have hd := congrArg Record.submissions hlanding
      rw [Record.submissions_append, Record.submissions_append, landing_submissions honly,
        hbare.submissions] at hd
      exact (List.append_nil _).symm.trans hd
    · have hd := congrArg Record.freed hlanding
      rw [Record.freed_append, Record.freed_append, landing_freed honly, hbare.freed] at hd
      exact List.append_cancel_right (hd.trans (List.nil_append [0]).symm)
    · have hd := congrArg Record.progresses hlanding
      rw [Record.progresses_append, Record.progresses_append, landing_progresses honly,
        hbare.progresses] at hd
      simp only [hpos, and_true]
      exact (List.append_nil _).symm.trans hd
  · rename_i hzero
    cases h
    have hnone : job.probeLength = 0 := by omega
    refine ⟨hnone.symm, ?_⟩
    have hbegin : Going job job.emptySlots 0 job.probeLength w.log := by
      refine Going.begin hjob (fun p => ?_) ?_ hbare.submissions hbare.freed ?_
      · rw [hbare.deliveries, if_neg (by omega)]
        rfl
      · rw [hbare.deliveries, hbare.pieces]
        exact Same.refl []
      · rw [hbare.progresses, if_neg (fun hand => hzero hand.2)]
    rwa [hnone] at hbegin

/-- The loop begins with all its slots waiting. -/
theorem startSlots_underway {job : Job} (hjob : job.Fit) {downloaded : Nat} {slots : List Slot}
    (hgoing : Going job job.emptySlots 0 downloaded w.log)
    (hstart : startSlots env job job.slotCount 0 job.emptySlots w = some (.ok slots, w')) :
    Underway job { slots, nextChunk := slots.length, active := slots.length
                   waitCursor := 0, downloaded } w' := by
  have hempty : batches job.emptySlots = 0 := by
    rw [batches, Job.emptySlots, List.map_replicate]
    exact List.sum_eq_zero fun n hn => List.eq_of_mem_replicate hn
  obtain ⟨hgoing', hbatches⟩ := startSlots_ok hjob job.slotCount 0 (Nat.add_zero _) hgoing hempty
    (fun j slot _ hget => by
      rw [List.eq_of_mem_replicate (List.mem_of_getElem? hget)]) hstart
  have hlength : slots.length = job.slotCount := hgoing'.slots_length
  exact ⟨by rw [hlength]; exact hgoing', by rw [hbatches, hlength],
    fun _ => by rw [hbatches, hlength], Nat.zero_le _⟩

/-- Whatever the client answers: where `fetch` ends with a value, all is there. -/
theorem fetch_ok {job : Job} {loop : Loop} (hbare : Bare w.log) (hchunk : 0 < settings.chunkSize)
    (hparallel : 0 < settings.parallelism)
    (h : fetch env turns destination settings w = some (.ok (job, loop), w')) :
    job.Fit ∧ loop.downloaded = job.size ∧ Complete job w'.log ∧
      ∃ probe, env.readEnds w.calls (probeCapacity settings) = .ok probe ∧
        job = { destination, settings, size := probe.size, etag := probe.etag
                probeLength := min (probeCapacity settings) probe.size } := by
  obtain ⟨⟨job', buffer⟩, t, hprobe, h⟩ := Program.ok_of_bind h
  obtain ⟨hbare', hjob, probe, hanswer, -, heq⟩ := probeObject_ok hbare hchunk hprobe
  obtain ⟨downloaded, t₁, hsave, h⟩ := Program.ok_of_bind h
  obtain ⟨-, hgoing⟩ := saveProbe_ok hjob hbare' hsave
  obtain ⟨slots, t₂, hstart, h⟩ := Program.ok_of_bind h
  obtain ⟨loop', t₃, hrounds, h⟩ := Program.ok_of_bind h
  cases h
  have hunderway := startSlots_underway hjob hgoing hstart
  obtain ⟨hend, hactive⟩ := rounds_ok hjob turns hunderway hrounds
  have hparallel' : 0 < job.settings.parallelism := by
    rw [heq]
    exact hparallel
  obtain ⟨hdownloaded, hcomplete⟩ := hend.complete hjob hparallel' hactive
  exact ⟨hjob, hdownloaded, hcomplete, probe, hanswer, heq⟩

end Fetch

end Download

end Karu
