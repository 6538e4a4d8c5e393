/-
# `Karu.Runtime.Confined` — reads stay inside the window of their locator

The bounds of a window come out of a URI and are added to lengths in three
places.  `validate` refuses a request that leaves its window or whose last byte
has no 64-bit position, so what a part of a batch is handed lies inside, at the
position that was asked for (`positional_confined`).

`read_ends` adds without a check.  In a window that goes on past `2 ^ 64` the
sum that says where the tail begins wraps, and the tail is read from before the
window, with `KARU_OK`, wherever the object reaches far enough for both ends
(`Escapes`); it stays inside everywhere else.
-/
import Karu.Runtime.Coalesce
import Karu.Runtime.RangeAnswer
import Karu.Runtime.StatAgrees

namespace Karu

open Base

variable {β : Type}

/-! ## The window -/

/-- The bytes are the object's from position `p` on, inside the window; no sum wraps. -/
structure InWindow (resolved : Resolved) (object : List β) (p : Nat) (bytes : List β) : Prop where
  bytes_eq : bytes = (object.drop p).take bytes.length
  offset_le : resolved.windowOffset ≤ p
  stop_le : resolved.windowLength ≠ toEnd →
    p + bytes.length ≤ resolved.windowOffset + resolved.windowLength

/-- What a part is handed when its transfer is delivered. -/
def handed (t : Transfer) (status : Status) (detail : Text) (m : Memory Addr β) (p : Part) :
    List β :=
  (deliver t status detail m).2.read p.buffer 0 (deliverPart t status detail p).got

/-- A part that is handed the first bytes of its own range is handed bytes of the window. -/
theorem Carries.confined {r : Request} {t : Transfer} {p : Part} (h : Carries r t p)
    {object bytes : List β}
    (hbytes : bytes = (object.drop (t.offset + p.relativeOffset)).take bytes.length)
    (hle : bytes.length ≤ p.length) :
    InWindow r.locator object (r.locator.windowOffset + r.offset) bytes := by
  have hstays := h.stays
  have hlength := h.length_eq
  simp only [Request.Leaves, not_or, not_and] at hstays
  refine ⟨?_, Nat.le_add_right _ _, fun hbounded => ?_⟩
  · rw [← h.position]
    exact hbytes
  · have := hstays.1 hbounded
    omega

/-! ## Batches -/

section Files

variable {object : List β} {file : OpenFile β}

/-- The loop reads bytes of the range, whether it fails or not. -/
theorem readLoop_faithful (hfile : file.Faithful object) {s₀ : Live β}
    (hlt : s₀.transfer.length < 2 ^ 64)
    (hstop : s₀.transfer.offset + s₀.transfer.length ≤ 2 ^ 64) :
    ∀ (turns : Nat) {s s' : Live β} {failure : Text}, Reads object s₀ s →
      readLoop file turns s = (s', failure) → Reads object s₀ s' := by
  intro turns
  induction turns with
  | zero =>
      intro s s' failure h hrun
      cases hrun
      exact h
  | succ turns ih =>
      intro s s' failure h hrun
      have hlength : s.transfer.length = s₀.transfer.length := field_of_plan (·.length) h.plan_eq
      have hoffset : s.transfer.offset = s₀.transfer.offset := field_of_plan (·.offset) h.plan_eq
      have hle := h.received_le
      simp only [readLoop] at hrun
      split at hrun
      · rename_i hmore
        have hpos : add64 s.transfer.offset s.transfer.received =
            s₀.transfer.offset + s.transfer.received := by
          rw [hoffset]
          exact add64_of_lt (by omega)
        have hroom : sub64 s.transfer.length s.transfer.received =
            s₀.transfer.length - s.transfer.received := by
          rw [hlength]
          exact sub64_of_le hle hlt
        rw [hpos, hroom] at hrun
        split at hrun
        · cases hrun
          exact h
        · rename_i data hread
          split at hrun
          · cases hrun
            exact h
          · obtain ⟨hshort, hdata⟩ : data.length ≤ s₀.transfer.length - s.transfer.received ∧
                data <+: object.drop (s₀.transfer.offset + s.transfer.received) := by
              unfold OpenFile.readAt at hread
              split at hread
              · cases hread
              · obtain ⟨hshort, hdata⟩ := hfile _ _ _ hread
                exact ⟨hshort.trans (Nat.min_le_left _ _), hdata⟩
            exact ih (h.took hlt hshort hdata).1 hrun
      · cases hrun
        exact h

/-- What a local transfer delivers with `KARU_OK` is where its parts find it. -/
theorem fileTransfer_lands (hfile : file.Faithful object) {t : Transfer} (ht : t.Local)
    (hstop : t.offset + t.length ≤ 2 ^ 64) {m : Memory Addr β} {room : Bool} {detail : Text}
    {s : Live β} (h : fileTransfer room (.ok file) ⟨t, m, []⟩ = .finish .ok detail s) :
    Reads.Lands object t s := by
  have hread : ∀ t' : Transfer, t'.length = t.length → t'.offset = t.offset → t'.received = 0 →
      readFile (.ok file) ⟨t', m, []⟩ = .finish .ok detail s → Reads object ⟨t', m, []⟩ s := by
    intro t' hlength hoffset hzero hrun
    have hstart : Reads object ⟨t', m, []⟩ ⟨t', m, []⟩ := by
      refine ⟨rfl, ?_, fun i hi => ?_, fun _ _ _ => rfl⟩
      · show t'.received ≤ t'.length
        omega
      · have hi : i < t'.received := hi
        omega
    simp only [readFile] at hrun
    generalize hloop : readLoop file t'.length ⟨t', m, []⟩ = x at hrun
    obtain ⟨s', failure⟩ := x
    simp only at hrun
    split at hrun
    · cases hrun
      exact readLoop_faithful hfile (hlength ▸ ht.layout.length_lt)
        (by show t'.offset + t'.length ≤ _; omega) t'.length hstart hloop
    · cases hrun
  have hsink : t.scattered = false ∨ room = true := by
    cases hroom : room with
    | true => exact Or.inr rfl
    | false =>
        refine Or.inl ?_
        by_contra hscattered
        simp [fileTransfer, ensureSink, ht.sink_eq, hscattered, ht.isLocal, hroom] at h
  have hroom : ensureSink room t = ensureSink true t := by
    rcases hsink with hdirect | hroom
    · simp [ensureSink, ht.sink_eq, hdirect]
    · rw [hroom]
  simp only [fileTransfer, hroom] at h
  rcases ensureSink_local ht with ⟨p, hp, hzero, -, hsink⟩ | hsink
  · rw [hsink, if_pos rfl] at h
    exact (hread { t with sink := p.buffer } rfl rfl ht.received_eq h).lands_direct hp hzero rfl rfl ht.scratch_eq
  · rw [hsink, if_pos rfl] at h
    exact (hread { t with scratch := t.length, sink := .scratch } rfl rfl ht.received_eq h).lands_staged
      ht rfl rfl rfl rfl

/-- The first bytes of the part, as many as it is told. -/
theorem Reads.Lands.handed_eq {t : Transfer} {s : Live β} (h : Reads.Lands object t s)
    (hl : t.Layout) (detail : Text) {p : Part} (hp : p ∈ t.parts) :
    let bytes := handed s.transfer .ok detail s.memory p
    bytes.length ≤ p.length ∧
      bytes = (object.drop (t.offset + p.relativeOffset)).take bytes.length := by
  have hgot := (deliverPart_got s.transfer detail (hl.stop_eq hp)).1
  have hcell : ∀ i < min p.length (s.transfer.received - p.relativeOffset),
      object[t.offset + (p.relativeOffset + i)]? =
        some ((deliver s.transfer .ok detail s.memory).2.cell p.buffer i) := by
    intro i hi
    have hlands := h detail p hp (p.relativeOffset + i) (by omega) (by omega) (by omega)
    rw [Nat.add_sub_cancel_left] at hlands
    exact hlands
  have hlong : ((object.drop (t.offset + p.relativeOffset)).take
      (min p.length (s.transfer.received - p.relativeOffset))).length =
      min p.length (s.transfer.received - p.relativeOffset) := by
    rw [List.length_take, List.length_drop, Nat.min_eq_left]
    rcases Nat.eq_zero_or_pos (min p.length (s.transfer.received - p.relativeOffset)) with hz | hz
    · omega
    · have hlast := hcell _ (Nat.sub_lt hz Nat.one_pos)
      obtain ⟨hin, -⟩ := List.getElem?_eq_some_iff.mp hlast
      omega
  have hread : handed s.transfer .ok detail s.memory p =
      (object.drop (t.offset + p.relativeOffset)).take
        (min p.length (s.transfer.received - p.relativeOffset)) := by
    rw [handed, hgot]
    refine Memory.read_eq_of_cells hlong fun i hi => ?_
    rw [hlong] at hi
    have hi' := hcell i hi
    obtain ⟨hin, hget⟩ := List.getElem?_eq_some_iff.mp hi'
    rw [Nat.zero_add, ← hget, List.getElem_take, List.getElem_drop]
    congr 1
    omega
  show (handed s.transfer .ok detail s.memory p).length ≤ p.length ∧ _ =
    (object.drop (t.offset + p.relativeOffset)).take
      (handed s.transfer .ok detail s.memory p).length
  rw [hread, hlong]
  exact ⟨Nat.min_le_left _ _, rfl⟩

end Files

/-- A part of a transfer that failed is handed nothing. -/
theorem handed_failed {status : Status} (h : status ≠ .ok) (t : Transfer) (detail : Text)
    (m : Memory Addr β) (p : Part) : handed t status detail m p = [] := by
  simp [handed, deliverPart, h, Memory.read]

/-- Nothing is inside any window, at any of its positions. -/
theorem InWindow.nil {resolved : Resolved} (object : List β) {p : Nat}
    (hp : resolved.windowOffset ≤ p)
    (hstop : resolved.windowLength ≠ toEnd → p ≤ resolved.windowOffset + resolved.windowLength) :
    InWindow resolved object p [] :=
  ⟨by simp, hp, by simpa using hstop⟩

/-- The transfers of a plan, as `run` and `file_loop` need them. -/
theorem planTransfers_begins {malloc : Nat → Nat → Addr} {batch : Nat} {requests : List Request}
    {options : ClientOptions} (hd : Destinations malloc requests)
    (hok : (planTransfers malloc batch requests options).1 = .ok) :
    ∀ t ∈ (planTransfers malloc batch requests options).2.transfers,
      (t.locator.backend = .file → t.Local) ∧ (t.locator.backend ≠ .file → t.Fresh) := by
  obtain ⟨hblank, hapart, hscratch⟩ := planTransfers_apart hd batch options
  intro t ht
  have hlayout := (planLoop_sorted hok).2 t ht
  have hdistinct := (List.pairwise_flatMap.mp hapart).1 t ht
  have hb := hblank t ht
  exact ⟨fun hfile => ⟨hlayout, hdistinct, hscratch t ht, hfile, hb.sink_eq, hb.scratch_eq,
      hb.received_eq⟩,
    fun hremote => ⟨hlayout, hdistinct, hremote, hb.sink_eq, hb.scratch_eq, hb.resumed_eq,
      hb.received_eq, hb.resumeEtag_eq⟩⟩

/-- What an honest server is asked for arrives as it is, wherever the run ends. -/
theorem server_holds [Octet β] {object : List β} (curl : Libcurl) (options : ClientOptions)
    {t : Transfer} (ht : t.Fresh) (m : Memory Addr β) {attempts : List (Attempt β)}
    (ha : ∀ a ∈ attempts, a.Honest object) {status : Status} {detail : Text} {s : Live β}
    (hrun : run curl options attempts ⟨t, m, []⟩ = .finish status detail s) (hok : status = .ok) :
    ∀ p ∈ t.parts, Holds object t.offset p (deliverPart s.transfer .ok detail p)
      (deliver s.transfer .ok detail s.memory).2 := by
  have hinit : Keeping object t ⟨t, m, []⟩ := ⟨ht.waiting m, by simp, rfl⟩
  have halong : Along curl options (fun a _ => a ∈ attempts) attempts ⟨t, m, []⟩ :=
    along_of_forall curl options attempts _ fun _ hmem _ => hmem
  have hrule := run_induct curl options (J := Keeping object t)
    (F := fun status _ s' => status = .ok → ∃ a ∈ attempts,
      Delivered object t (∀ r ∈ a.responses, r.Sized object) s')
    (fun a s hmem hs => ?_) attempts halong hinit
  · rw [hrun] at hrule
    obtain ⟨a, -, hdelivered⟩ := hrule hok
    exact hdelivered.holds detail
  · have hattempt := attempt_keeping ht.remote ht.scratch_eq curl options (ha a hmem) hs
    cases hout : attempt curl options a s with
    | finish status d s' =>
        rw [hout] at hattempt
        exact fun hok => ⟨a, hmem, hattempt hok⟩
    | again s' =>
        rw [hout] at hattempt
        exact hattempt

/-- How a transfer is settled: by a file that is opened, or by the attempts of a server. -/
inductive SettledBy [Octet β] (object : List β) (t : Transfer) (m : Memory Addr β) :
    Outcome β → Prop
  | file {file : OpenFile β} (room : Bool) : t.locator.backend = .file → file.Faithful object →
      SettledBy object t m (fileTransfer room (.ok file) ⟨t, m, []⟩)
  | unopened (room : Bool) (message : Text) : t.locator.backend = .file →
      SettledBy object t m (fileTransfer room (.error message) ⟨t, m, []⟩)
  | server {attempts : List (Attempt β)} (curl : Libcurl) (options : ClientOptions) :
      t.locator.backend ≠ .file → (∀ a ∈ attempts, a.Honest object) →
      SettledBy object t m (run curl options attempts ⟨t, m, []⟩)

/-- Whatever a part of a planned transfer is handed lies inside the window of its request, from
the position the request asked for. -/
theorem positional_confined [Octet β] {malloc : Nat → Nat → Addr} {batch : Nat}
    {requests : List Request} {options : ClientOptions} (hd : Destinations malloc requests)
    (hok : (planTransfers malloc batch requests options).1 = .ok) {t : Transfer}
    (ht : t ∈ (planTransfers malloc batch requests options).2.transfers) {p : Part}
    (hp : p ∈ t.parts) {r : Request} (hr : Carries r t p) {object : List β} {m : Memory Addr β}
    {status : Status} {detail : Text} {s : Live β}
    (h : SettledBy object t m (.finish status detail s)) :
    InWindow r.locator object (r.locator.windowOffset + r.offset)
      (handed s.transfer status detail s.memory p) := by
  obtain ⟨hlocal, hfresh⟩ := planTransfers_begins hd hok t ht
  have hlayout := (planLoop_sorted hok).2 t ht
  by_cases hstatus : status = .ok
  · subst hstatus
    generalize hfinish : Outcome.finish Status.ok detail s = outcome at h
    cases h with
    | @file file room hfile hfaithful =>
        have hlands := fileTransfer_lands hfaithful (hlocal hfile) hr.no_wrap.2 hfinish.symm
        obtain ⟨hle, hbytes⟩ := hlands.handed_eq hlayout detail hp
        exact hr.confined hbytes hle
    | unopened room message hfile =>
        exfalso
        simp only [fileTransfer, readFile] at hfinish
        split at hfinish
        · cases hfinish
        · cases hfinish
    | @server attempts curl options hremote hhonest =>
        have hholds := server_holds curl options (hfresh hremote) m hhonest hfinish.symm rfl p hp
        have hlength : (handed s.transfer .ok detail s.memory p).length =
            (deliverPart s.transfer .ok detail p).got := Memory.length_read _ _ _ _
        rcases hholds.settled with hall | hshort
        · obtain ⟨hgot, hread, -⟩ := hholds.whole hall
          refine hr.confined ?_ (by rw [hlength, hgot])
          rw [hlength, handed, hgot]
          exact hread
        · obtain ⟨hgot, hread, -⟩ := hholds.short hshort
          refine hr.confined ?_ (by rw [hlength]; omega)
          rw [hlength, handed]
          exact hread
  · rw [handed_failed hstatus]
    have hstays := hr.stays
    simp only [Request.Leaves, not_or, not_and] at hstays
    refine InWindow.nil object (Nat.le_add_right _ _) fun hbounded => ?_
    have := hstays.1 hbounded
    omega

/-! ## Ends -/

namespace Engine

/-- Where an object ends at most: `off_t` has a sign. -/
def limit (resolved : Resolved) : Nat := if resolved.backend = .file then offsetMax else maxWord

/-- Whatever object there is, with `KARU_OK` both ends come from inside the window. -/
def EndsConfined (resolved : Resolved) (lengths : EndLengths) : Prop :=
  ∀ (object : List UInt8) (service : EndsService UInt8) (scratch : Memory Unit UInt8)
    (b : EndBuffers UInt8) (size : Nat) (etag : Text) (b' : EndBuffers UInt8),
    object.length ≤ limit resolved → service.Honest object →
    readEnds service resolved lengths scratch b = (.done size etag, b') →
    (∃ p, InWindow resolved object p (b'.head.read () 0 (min lengths.head size))) ∧
      ∃ p, InWindow resolved object p (b'.tail.read () 0 (min lengths.tail size))

/-- The tail of the window begins past the last 64-bit position, and the object can reach to the
end of the head and to the end of the tail, as far as that wraps. -/
structure Escapes (resolved : Resolved) (lengths : EndLengths) : Prop where
  bounded : resolved.windowLength ≠ toEnd
  some_tail : 0 < min lengths.tail resolved.windowLength
  wraps : 2 ^ 64 ≤ resolved.windowOffset +
    (resolved.windowLength - min lengths.tail resolved.windowLength)
  head_reached : min lengths.head resolved.windowLength = 0 ∨
    resolved.windowOffset + min lengths.head resolved.windowLength ≤ limit resolved
  tail_reached : resolved.windowOffset + resolved.windowLength ≤ 2 ^ 64 + limit resolved

theorem limit_lt (resolved : Resolved) : limit resolved < 2 ^ 64 := by
  unfold limit
  split
  · decide
  · decide

section Inside

variable {object : List β} {resolved : Resolved} {lengths : EndLengths} {size : Nat}
  {b : EndBuffers β}

theorem bounded_iff : bounded resolved = true ↔ resolved.windowLength ≠ toEnd := by
  simp [bounded]

/-- The head is where the window begins. -/
theorem Shows.head_confined (h : Shows object resolved lengths size b) :
    InWindow resolved object resolved.windowOffset (b.head.read () 0 (min lengths.head size)) := by
  refine ⟨?_, le_rfl, fun hbounded => ?_⟩
  · rw [Memory.length_read]
    exact h.head
  · have hsize := h.size_eq.trans (visibleSize_bounded (bounded_iff.mpr hbounded) _)
    rw [Memory.length_read, hsize]
    omega

/-- The tail is inside where its position does not wrap. -/
theorem Shows.tail_confined (h : Shows object resolved lengths size b)
    (hobject : object.length ≤ limit resolved) (hno : ¬ Escapes resolved lengths) :
    ∃ p, InWindow resolved object p (b.tail.read () 0 (min lengths.tail size)) := by
  have hoffset := resolved.windowOffset_lt
  have hlimit := limit_lt resolved
  rcases Nat.eq_zero_or_pos (min lengths.tail size) with hzero | hpos
  · rw [hzero]
    exact ⟨resolved.windowOffset, InWindow.nil object le_rfl fun _ => Nat.le_add_right _ _⟩
  · have hreach := h.tail.le_length
    have hhead := h.head.le_length
    have hwhole : (lastRange resolved lengths size).first =
        (resolved.windowOffset + (size - min lengths.tail size)) % 2 ^ 64 := by
      show sub64 (add64 resolved.windowOffset size) (min lengths.tail size) = _
      have hle : min lengths.tail size ≤ size := Nat.min_le_right _ _
      have hlt : min lengths.tail size < 2 ^ 64 := atMost_lt lengths.tail_lt
      unfold sub64 add64
      omega
    unfold atMost at hreach hhead
    have hplain : resolved.windowOffset + (size - min lengths.tail size) < 2 ^ 64 := by
      by_contra hwraps
      by_cases hbounded : resolved.windowLength = toEnd
      · -- what is visible through an open window ends with the object
        have hsize := h.size_eq
        rw [visibleSize_unbounded (by simp [bounded, hbounded])] at hsize
        omega
      · have hsize := h.size_eq.trans (visibleSize_bounded (bounded_iff.mpr hbounded) _)
        have hlength := resolved.windowLength_lt
        rw [hwhole] at hreach
        subst hsize
        exact hno ⟨hbounded, hpos, by omega, by omega, by omega⟩
    rw [Nat.mod_eq_of_lt hplain] at hwhole
    have htail := h.tail
    rw [hwhole] at htail
    refine ⟨resolved.windowOffset + (size - min lengths.tail size), ?_, Nat.le_add_right _ _,
      fun hbounded => ?_⟩
    · rw [Memory.length_read]
      exact htail
    · have hsize := h.size_eq.trans (visibleSize_bounded (bounded_iff.mpr hbounded) _)
      rw [Memory.length_read, ← hsize]
      omega

end Inside

theorem readEnds_confined {resolved : Resolved} {lengths : EndLengths}
    (hno : ¬ Escapes resolved lengths) : EndsConfined resolved lengths := by
  intro object service scratch b size etag b' hobject hservice hdone
  have hlimit := limit_lt resolved
  have hshows := readEnds_shows hservice (by omega) (fun hfile => Or.inr ?_) hdone
  · exact ⟨⟨_, hshows.head_confined⟩, hshows.tail_confined hobject hno⟩
  · rw [limit, if_pos hfile] at hobject
    exact hobject

/-! ## A tail from before the window -/

/-- A byte for each position: zero in the window and behind it, one before it. -/
def markedObject (windowOffset n : Nat) : List UInt8 :=
  (List.range n).map fun i => if i < windowOffset then 1 else 0

theorem length_markedObject (windowOffset n : Nat) : (markedObject windowOffset n).length = n := by
  simp [markedObject]

/-- Bytes from before the window are bytes from nowhere in it. -/
theorem not_inWindow_marked {resolved : Resolved} {n first len p : Nat} (hpos : 0 < len)
    (hstop : first + len ≤ n) (hbefore : first + len ≤ resolved.windowOffset) {bytes : List UInt8}
    (hbytes : bytes = ((markedObject resolved.windowOffset n).drop first).take len) :
    ¬ InWindow resolved (markedObject resolved.windowOffset n) p bytes := by
  intro h
  have hlength : bytes.length = len := by
    rw [hbytes, List.length_take, List.length_drop, length_markedObject]
    omega
  have hone : bytes[0]? = some 1 := by
    rw [hbytes, List.getElem?_take_of_lt hpos, List.getElem?_drop]
    have hin : first < resolved.windowOffset := by omega
    simp [markedObject, List.getElem?_range (show first < n by omega), hin]
  have hzero : bytes[0]? = some 0 ∨ bytes[0]? = none := by
    rw [h.bytes_eq, hlength, List.getElem?_take_of_lt hpos, List.getElem?_drop, Nat.add_zero]
    have hout : ¬ p < resolved.windowOffset := Nat.not_lt.mpr h.offset_le
    by_cases hp : p < n
    · simp [markedObject, List.getElem?_range hp, hout]
    · exact Or.inr (List.getElem?_eq_none (by rw [length_markedObject]; omega))
  rcases hzero with hzero | hzero
  · rw [hone] at hzero
    exact absurd hzero (by decide)
  · rw [hone] at hzero
    cases hzero

section Outside

variable {resolved : Resolved} {lengths : EndLengths}

/-- A file that gives all that is asked for. -/
def wholeFile (object : List β) : OpenFile β where
  pread n offset := .ok ((object.drop offset).take n)
  valueTooLarge := []

theorem wholeFile_faithful (object : List β) : (wholeFile object).Faithful object := by
  intro n offset data h
  cases h
  exact ⟨List.length_take_le _ _, List.take_prefix _ _⟩

/-- One turn of the loop is enough. -/
theorem readFile_whole {object : List β} (hobject : object.length ≤ offsetMax) {first size : Nat}
    (hin : size = 0 ∨ first + size ≤ object.length) (m : Memory Unit β) :
    ∃ m', readFile (wholeFile object) resolved first size m = (none, m') := by
  cases size with
  | zero => exact ⟨m, rfl⟩
  | succ k =>
      have hin : first + (k + 1) ≤ object.length := hin.resolve_left (Nat.succ_ne_zero k)
      have hmax : offsetMax < 2 ^ 64 := by decide
      have hpos : add64 first 0 = first := add64_of_lt (by omega)
      have hread : (wholeFile object).readAt (k + 1 - 0) first =
          .ok ((object.drop first).take (min (k + 1) offsetMax)) := by
        rw [OpenFile.readAt, if_neg (by omega)]
        rfl
      have hlength : ((object.drop first).take (min (k + 1) offsetMax)).length = k + 1 := by
        rw [List.length_take, List.length_drop]
        omega
      have hsome : ((object.drop first).take (min (k + 1) offsetMax)).isEmpty = false := by
        cases hdata : (object.drop first).take (min (k + 1) offsetMax) with
        | nil =>
            rw [hdata] at hlength
            cases hlength
        | cons c cs => rfl
      have hdone : ∀ (turns : Nat) (m : Memory Unit β),
          readFileLoop (wholeFile object) resolved first (k + 1) turns (k + 1) m = (none, m) := by
        intro turns m
        cases turns with
        | zero => rfl
        | succ turns => rw [readFileLoop, if_neg (Nat.lt_irrefl _)]
      refine ⟨m.memcpy () 0 ((object.drop first).take (min (k + 1) offsetMax)), ?_⟩
      rw [readFile, readFileLoop, if_pos (Nat.succ_pos k), hpos, hread]
      simp only [hsome, Bool.false_eq_true, if_false, Nat.zero_add, hlength]
      exact hdone k _

/-- Where the wrapped tail begins, and how far the object has to reach. -/
def wrappedFirst (resolved : Resolved) (lengths : EndLengths) : Nat :=
  resolved.windowOffset + (resolved.windowLength - min lengths.tail resolved.windowLength) - 2 ^ 64

def neededLength (resolved : Resolved) (lengths : EndLengths) : Nat :=
  max (if min lengths.head resolved.windowLength = 0 then 0
      else resolved.windowOffset + min lengths.head resolved.windowLength)
    (wrappedFirst resolved lengths + min lengths.tail resolved.windowLength)

/-- What follows from an escape about the numbers. -/
structure Wrapped (resolved : Resolved) (lengths : EndLengths) : Prop where
  first_eq : (lastRange resolved lengths resolved.windowLength).first =
    wrappedFirst resolved lengths
  before : wrappedFirst resolved lengths + min lengths.tail resolved.windowLength ≤
    resolved.windowOffset
  head_fits : min lengths.head resolved.windowLength = 0 ∨ resolved.windowOffset +
    min lengths.head resolved.windowLength ≤ neededLength resolved lengths
  tail_fits : wrappedFirst resolved lengths + min lengths.tail resolved.windowLength ≤
    neededLength resolved lengths
  apart : min lengths.head resolved.windowLength < resolved.windowLength
  within : neededLength resolved lengths ≤ limit resolved

theorem Escapes.wrapped (h : Escapes resolved lengths) : Wrapped resolved lengths := by
  have hoffset := resolved.windowOffset_lt
  have hlength := resolved.windowLength_lt
  have hlimit := limit_lt resolved
  have hpos := h.some_tail
  have hwraps := h.wraps
  have hhead := h.head_reached
  have htail := h.tail_reached
  have hneeded : neededLength resolved lengths =
      max (if min lengths.head resolved.windowLength = 0 then 0
        else resolved.windowOffset + min lengths.head resolved.windowLength)
      (wrappedFirst resolved lengths + min lengths.tail resolved.windowLength) := rfl
  have hfirst : wrappedFirst resolved lengths = resolved.windowOffset +
      (resolved.windowLength - min lengths.tail resolved.windowLength) - 2 ^ 64 := rfl
  refine ⟨?_, by omega, ?_, by omega, by omega, ?_⟩
  · show sub64 (add64 resolved.windowOffset resolved.windowLength)
      (min lengths.tail resolved.windowLength) = _
    unfold sub64 add64
    omega
  · split at hneeded
    · rename_i hzero
      exact Or.inl hzero
    · exact Or.inr (by omega)
  · split at hneeded
    · omega
    · omega

/-- The object that shows it. -/
def escapedObject (resolved : Resolved) (lengths : EndLengths) : List UInt8 :=
  markedObject resolved.windowOffset (neededLength resolved lengths)

theorem readFileEnds_escapes (h : Wrapped resolved lengths) (hbounded : bounded resolved = true)
    (hfile : resolved.backend = .file) (b : EndBuffers UInt8) :
    ∃ (service : EndsService UInt8) (b' : EndBuffers UInt8),
      service.Honest (escapedObject resolved lengths) ∧
        readFileEnds service resolved lengths b = (.done resolved.windowLength [], b') := by
  have hobject : (escapedObject resolved lengths).length ≤ offsetMax := by
    have hwithin := h.within
    rw [limit, if_pos hfile] at hwithin
    rw [escapedObject, length_markedObject]
    exact hwithin
  have hlength : (escapedObject resolved lengths).length = neededLength resolved lengths :=
    length_markedObject _ _
  let service : EndsService UInt8 :=
    { curl := .uncalled, fileSize := .ok (escapedObject resolved lengths).length,
      opened := .ok (wholeFile (escapedObject resolved lengths)) }
  obtain ⟨head, hhead⟩ := @readFile_whole _ resolved _ hobject _ _
    (by rw [hlength]; exact h.head_fits) b.head
  obtain ⟨tail, htail⟩ := @readFile_whole _ resolved _ hobject _ _
    (by rw [hlength]; exact Or.inr h.tail_fits) b.tail
  refine ⟨service, ⟨head, tail⟩, ⟨?_, ?_, ?_, ?_, ?_, ?_⟩, ?_⟩
  · intro n hn
    cases hn
    rfl
  · intro file hopened
    cases hopened
    exact wholeFile_faithful _
  · intro q hq
    cases hq
  · intro q hq
    cases hq
  · intro q hq
    cases hq
  · intro q hq
    cases hq
  · have hfirst : sub64 (add64 resolved.windowOffset resolved.windowLength)
        (min lengths.tail resolved.windowLength) = wrappedFirst resolved lengths := h.first_eq
    simp only [readFileEnds, service, visibleSize_bounded hbounded, atMost, hhead, hfirst, htail]

/-- A range by position that the object has in full, asked for twice. -/
theorem getRange_inside {service : EndsService UInt8} {object : List UInt8}
    (hobject : object.length < 2 ^ 64) (hattempts : 0 < service.options.maxAttempts)
    {range : ByteRange} (hsuffix : range.suffix = false) (hpos : 1 ≤ range.length)
    (hin : range.first + range.length ≤ object.length) (m : Memory Unit UInt8) :
    ∃ reply m', getRange service resolved range []
        [partialRequest object range, partialRequest object range] m = (.reply reply, m') ∧
      reply.total = object.length ∧ reply.got = range.length ∧ reply.etag = [] ∧
      reply.suffixIgnored = false := by
  have hinside : range.first < object.length := by omega
  have hq := partialRequest_answered service.curl hobject hinside hpos
  obtain ⟨reply, last, m', hreply⟩ := getRange_answered service.options hattempts resolved.backend
    hobject hsuffix hpos (by omega) hq hq [] m
  have hget : getRange service resolved range []
      [partialRequest object range, partialRequest object range] m = (.reply reply, m') := by
    simp only [getRange, hreply]
  have hexact := getRange_reply hpos (fun q hq => by
    rcases List.mem_cons.mp hq with rfl | hq
    · exact partialRequest_steady hobject hinside hpos
    · rw [List.mem_singleton.mp hq]
      exact partialRequest_steady hobject hinside hpos) hget
  have hheard : reply.suffixIgnored = false := by
    cases hi : reply.suffixIgnored with
    | false => rfl
    | true => exact absurd (hsuffix.symm.trans (hexact.ignored hi)) (by decide)
  have hstart : range.start object.length = range.first := by
    rw [ByteRange.start, hsuffix, if_neg (by decide)]
  refine ⟨reply, m', hget, hexact.total_eq, ?_, ?_, hheard⟩
  · rw [hexact.got_eq hheard, hstart]
    omega
  · refine getRange_etag (fun q hq r hr _ => ?_) hget
    have hr : r = (partialAnswer object range.first range.length).untrailed := by
      rcases List.mem_cons.mp hq with rfl | hq
      · exact List.mem_singleton.mp hr
      · rw [List.mem_singleton.mp hq] at hr
        exact List.mem_singleton.mp hr
    rw [hr]
    exact ⟨partialAnswer_etag, (congrArg etagOf (List.append_nil _)).trans partialAnswer_etag⟩

/-- A server with the object, asked for the two ends. -/
def escapedServer (resolved : Resolved) (lengths : EndLengths) : EndsService UInt8 where
  curl := .uncalled
  fileSize := .error []
  opened := .error []
  head := if min lengths.head resolved.windowLength = 0 then [] else
    [partialRequest (escapedObject resolved lengths) (headRange resolved lengths),
      partialRequest (escapedObject resolved lengths) (headRange resolved lengths)]
  tail :=
    [partialRequest (escapedObject resolved lengths) (tailRange resolved lengths),
      partialRequest (escapedObject resolved lengths) (tailRange resolved lengths)]

/-- What is asked for of a bounded window that the head does not cover. -/
theorem sizes_apart (hbounded : bounded resolved = true)
    (hapart : min lengths.head resolved.windowLength < resolved.windowLength) :
    headInScratch resolved lengths = false ∧
      headSize resolved lengths = min lengths.head resolved.windowLength ∧
      bySuffix resolved lengths = false ∧
      tailSize resolved lengths = min lengths.tail resolved.windowLength ∧
      tailRange resolved lengths = lastRange resolved lengths resolved.windowLength := by
  have hscratch : headInScratch resolved lengths = false := by simp [headInScratch, hbounded]
  have hhead : headSize resolved lengths = min lengths.head resolved.windowLength := by
    simp [headSize, hscratch, hbounded, atMost]
  have htail : tailApart resolved lengths = true := by
    simp [tailApart, hbounded, hhead, hapart]
  refine ⟨hscratch, hhead, by simp [bySuffix, hbounded], ?_, ?_⟩
  · rw [tailSize, if_pos htail, atMost]
  · rw [tailRange, if_pos htail]

theorem escapedServer_honest (h : Wrapped resolved lengths) (hbounded : bounded resolved = true)
    (hpos : 0 < min lengths.tail resolved.windowLength) :
    (escapedServer resolved lengths).Honest (escapedObject resolved lengths) := by
  obtain ⟨-, hhead, -, -, hrange⟩ := sizes_apart hbounded h.apart
  have hlength : (escapedObject resolved lengths).length = neededLength resolved lengths :=
    length_markedObject _ _
  have hobject : (escapedObject resolved lengths).length < 2 ^ 64 := by
    have := limit_lt resolved
    have := h.within
    omega
  have hfits := h.tail_fits
  refine ⟨?_, ?_, ?_, ?_, ?_, ?_⟩
  · intro n hn
    cases hn
  · intro file hopened
    cases hopened
  · intro q hq
    cases hq
  · intro q hq
    simp only [escapedServer] at hq
    split at hq
    · cases hq
    · rename_i hsome
      have hreach := h.head_fits.resolve_left hsome
      have hsteady := partialRequest_steady hobject
        (show (headRange resolved lengths).first < _ by
          show resolved.windowOffset < _
          omega)
        (show 1 ≤ (headRange resolved lengths).length by
          show 1 ≤ headSize resolved lengths
          omega)
      rcases List.mem_cons.mp hq with rfl | hq
      · exact hsteady
      · rw [List.mem_singleton.mp hq]
        exact hsteady
  · intro q hq
    have hsteady := partialRequest_steady hobject
      (show (tailRange resolved lengths).first < _ by
        rw [hrange, h.first_eq]
        omega)
      (show 1 ≤ (tailRange resolved lengths).length by
        rw [hrange, lastRange_length]
        exact hpos)
    rcases List.mem_cons.mp hq with rfl | hq
    · exact hsteady
    · rw [List.mem_singleton.mp hq]
      exact hsteady
  · intro q hq
    cases hq

theorem readEnds_escapes (h : Wrapped resolved lengths) (hbounded : bounded resolved = true)
    (hpos : 0 < min lengths.tail resolved.windowLength) (hremote : resolved.backend ≠ .file)
    (scratch : Memory Unit UInt8) (b : EndBuffers UInt8) :
    ∃ etag b', readEnds (escapedServer resolved lengths) resolved lengths scratch b =
      (.done resolved.windowLength etag, b') := by
  obtain ⟨hscratch, hhead, hsuffix, htail, hrange⟩ := sizes_apart hbounded h.apart
  have hlength : (escapedObject resolved lengths).length = neededLength resolved lengths :=
    length_markedObject _ _
  have hobject : (escapedObject resolved lengths).length < 2 ^ 64 := by
    have := limit_lt resolved
    have := h.within
    omega
  have hfits := h.tail_fits
  have hattempts : 0 < (escapedServer resolved lengths).options.maxAttempts := by
    show 0 < ClientOptions.initial.maxAttempts
    decide
  obtain ⟨tail, mt, hgetTail, htotal, hgot, htag, hheard⟩ :=
    @getRange_inside resolved (escapedServer resolved lengths) _ hobject hattempts
      (tailRange resolved lengths) (by rw [hrange]; rfl)
      (by rw [hrange, lastRange_length]; exact hpos)
      (by rw [hrange, lastRange_length, h.first_eq, atMost]; omega) b.tail
  have hwanted : tail.got = min lengths.tail resolved.windowLength := by
    rw [hgot, hrange, lastRange_length, atMost]
  have hsome : ¬ (lengths.head = 0 ∧ lengths.tail = 0) := by omega
  have hvisible : ∀ n, visibleSize resolved n = resolved.windowLength := visibleSize_bounded hbounded
  -- the head, if there is one
  obtain ⟨head, mh, hgetHead, hgotHead, hsame⟩ : ∃ head mh,
      (if 0 < headSize resolved lengths then
        getRange (escapedServer resolved lengths) resolved (headRange resolved lengths) []
          (escapedServer resolved lengths).head
          (if headInScratch resolved lengths then scratch else b.head)
      else (.reply {}, b.head)) = (.reply head, mh) ∧ head.got = headSize resolved lengths ∧
      (0 < headSize resolved lengths → sameVersion head tail = true) := by
    by_cases hnone : headSize resolved lengths = 0
    · refine ⟨{}, b.head, ?_, hnone.symm, fun hsent => ?_⟩
      · rw [if_neg (by omega)]
      · omega
    · have hone : ¬ min lengths.head resolved.windowLength = 0 := by
        rw [← hhead]
        exact hnone
      have hreach := h.head_fits.resolve_left hone
      obtain ⟨head, mh, hget, htotalHead, hgotHead, htagHead, -⟩ :=
        @getRange_inside resolved (escapedServer resolved lengths) _ hobject hattempts
          (headRange resolved lengths) rfl
          (by show 1 ≤ headSize resolved lengths; omega)
          (by show resolved.windowOffset + headSize resolved lengths ≤ _; omega)
          (if headInScratch resolved lengths then scratch else b.head)
      refine ⟨head, mh, ?_, hgotHead, fun _ => ?_⟩
      · rw [if_pos (by omega)]
        have hserver : (escapedServer resolved lengths).head =
            [partialRequest (escapedObject resolved lengths) (headRange resolved lengths),
              partialRequest (escapedObject resolved lengths) (headRange resolved lengths)] :=
          if_neg hone
        rw [hserver]
        exact hget
      · simp [sameVersion, htotalHead, htotal, htagHead]
  have hgetTail' : (if 0 < tailSize resolved lengths then
      getRange (escapedServer resolved lengths) resolved (tailRange resolved lengths) []
        (escapedServer resolved lengths).tail b.tail
      else (.reply {}, b.tail)) = (.reply tail, mt) := by
    rw [if_pos (by omega)]
    exact hgetTail
  simp only [readEnds, if_neg hremote, if_neg hsome]
  rw [hgetHead, hgetTail']
  have hagree : (decide (0 < headSize resolved lengths) && decide (0 < tailSize resolved lengths) &&
      !sameVersion head tail) = false := by
    by_cases hsent : 0 < headSize resolved lengths
    · simp [hsame hsent]
    · simp [hsent]
  have hasked : (decide (0 < tailSize resolved lengths) && !tail.suffixIgnored) = true := by
    simpa [htail, hheard] using hpos
  have hfull : ¬ (bounded resolved = true ∧ tail.got ≠ tailSize resolved lengths) := by
    rw [hwanted, htail]
    simp
  simp only [joinEnds, hagree, hasked, hgotHead, if_neg hfull, hvisible, hsuffix, atMost, ne_eq,
    not_true_eq_false, and_false, Bool.false_eq_true, if_false, if_pos hpos, if_true]
  exact ⟨_, _, rfl⟩

/-- The tail of an escape is outside. -/
theorem Escapes.not_confined (h : Escapes resolved lengths) : ¬ EndsConfined resolved lengths := by
  intro hconfined
  have hw := h.wrapped
  have hbounded := bounded_iff.mpr h.bounded
  have hlength : (escapedObject resolved lengths).length = neededLength resolved lengths :=
    length_markedObject _ _
  have hlimit := limit_lt resolved
  have hwithin := hw.within
  have hzero : EndBuffers UInt8 := ⟨zeros, zeros⟩
  obtain ⟨service, etag, b', hhonest, hdone⟩ : ∃ (service : EndsService UInt8) (etag : Text)
      (b' : EndBuffers UInt8), service.Honest (escapedObject resolved lengths) ∧
        readEnds service resolved lengths zeros hzero =
          (.done resolved.windowLength etag, b') := by
    by_cases hfile : resolved.backend = .file
    · obtain ⟨service, b', hhonest, hdone⟩ := readFileEnds_escapes hw hbounded hfile hzero
      exact ⟨service, [], b', hhonest, by rw [readEnds, if_pos hfile]; exact hdone⟩
    · obtain ⟨etag, b', hdone⟩ := readEnds_escapes hw hbounded h.some_tail hfile zeros hzero
      exact ⟨_, etag, b', escapedServer_honest hw hbounded h.some_tail, hdone⟩
  have hobject : (escapedObject resolved lengths).length ≤ limit resolved := by omega
  obtain ⟨-, p, hinside⟩ := hconfined _ service zeros hzero _ etag b' hobject hhonest hdone
  have hshows := readEnds_shows hhonest (by omega) (fun hfile => Or.inr ?_) hdone
  · have htail : b'.tail.read () 0 (min lengths.tail resolved.windowLength) =
        ((escapedObject resolved lengths).drop (wrappedFirst resolved lengths)).take
          (min lengths.tail resolved.windowLength) := by
      rw [← hw.first_eq]
      exact hshows.tail
    exact not_inWindow_marked h.some_tail hw.tail_fits hw.before htail hinside
  · rw [limit, if_pos hfile] at hobject
    exact hobject

end Outside

theorem readEnds_confined_iff (resolved : Resolved) (lengths : EndLengths) :
    EndsConfined resolved lengths ↔ ¬ Escapes resolved lengths :=
  ⟨fun hconfined hescapes => hescapes.not_confined hconfined, readEnds_confined⟩

end Engine

/-! ## Both -/

/-- Whatever the parts of a planned batch are handed lies inside the windows of their requests. -/
def BatchConfined : Prop :=
  ∀ (malloc : Nat → Nat → Addr) (batch : Nat) (requests : List Request) (options : ClientOptions),
    Destinations malloc requests → (planTransfers malloc batch requests options).1 = .ok →
    ∀ t ∈ (planTransfers malloc batch requests options).2.transfers, ∀ p ∈ t.parts,
      ∀ r, Carries r t p → ∀ (object : List UInt8) (m : Memory Addr UInt8) (status : Status)
        (detail : Text) (s : Live UInt8), SettledBy object t m (.finish status detail s) →
        InWindow r.locator object (r.locator.windowOffset + r.offset)
          (handed s.transfer status detail s.memory p)

/-- Positional reads stay inside the window of their locator.  The two ends do exactly where the
tail does not escape. -/
theorem reads_confined (resolved : Resolved) (lengths : Engine.EndLengths) :
    BatchConfined ∧
      (Engine.EndsConfined resolved lengths ↔ ¬ Engine.Escapes resolved lengths) := by
  refine ⟨?_, Engine.readEnds_confined_iff resolved lengths⟩
  intro malloc batch requests options hd hok t ht p hp r hr object m status detail s h
  exact positional_confined hd hok ht hp hr h

/-! ## The last position -/

theorem last_lt_word : 2 ^ 64 - 1 < 2 ^ 64 := by decide

theorem ten_lt_word : 10 < 2 ^ 64 := by decide

theorem five_lt_word : 5 < 2 ^ 64 := by decide

/-- Ten bytes from the last position on. -/
def lastWindow : Resolved where
  canonicalUri := text "/tmp/a"
  target := text "/tmp/a"
  windowOffset := 2 ^ 64 - 1
  windowLength := 10
  windowOffset_lt := last_lt_word
  windowLength_lt := ten_lt_word

/-- The last five of them. -/
def fiveTail : Engine.EndLengths where
  head := 0
  tail := 5
  head_lt := zero_lt_word
  tail_lt := five_lt_word

/-- A file of nine bytes. -/
def nineBytes : List UInt8 := [10, 11, 12, 13, 14, 15, 16, 17, 18]

def nineFile : Engine.EndsService UInt8 where
  curl := .uncalled
  fileSize := .ok 9
  opened := .ok (Engine.wholeFile nineBytes)

/-- What `read_ends` makes of it. -/
def lastEnds : Engine.EndsOutcome × Engine.EndBuffers UInt8 :=
  Engine.readEnds nineFile lastWindow fiveTail Engine.zeros ⟨Engine.zeros, Engine.zeros⟩

/-- `KARU_OK`, and five bytes from the middle of the file. -/
theorem lastWindow_escapes :
    (Uri.resolve (text "/vsisubfile/18446744073709551615_10,/tmp/a")).toOption = some lastWindow ∧
      lastEnds.1 = .done 10 [] ∧ lastEnds.2.tail.read () 0 5 = [14, 15, 16, 17, 18] ∧
      ∀ p, ¬ InWindow lastWindow nineBytes p (lastEnds.2.tail.read () 0 5) := by
  have htail : lastEnds.2.tail.read () 0 5 = [14, 15, 16, 17, 18] := by decide +kernel
  refine ⟨by decide +kernel, by decide +kernel, htail, ?_⟩
  intro p h
  -- the file ends long before the window begins
  have hbytes := h.bytes_eq
  have hoffset : 2 ^ 64 - 1 ≤ p := h.offset_le
  have hend : nineBytes.length = 9 := rfl
  rw [htail, List.drop_eq_nil_of_le (by omega), List.take_nil] at hbytes
  cases hbytes

end Karu
