/-
# `Karu.Runtime.Integrity` — a delivered batch read holds the object's bytes

One object, and a server that may be slow, interrupted, or deaf to `Range`,
but that sends the object's own bytes: a `200` has a prefix of the object for
its body, a `206` a prefix of the range its `Content-Range` names, and any
other status whatever it likes (`Response.Honest`).  `CURLE_OK` means that the
body was complete (`Response.Complete`).

Then whatever the attempts were, a transfer that finishes with `KARU_OK` has
put the object's bytes into its parts, and where a part is short the object
ends there.  The second half needs one thing more of the server: that the
total in a `Content-Range` is the object's size.

The invariant between attempts is that what is kept is a prefix of the object
from the transfer's offset on.
-/
import Karu.Runtime.Exchange

namespace Karu

open Base

variable {β : Type}

/-! ## Servers that send one object -/

/-- The bytes of the object that a `Content-Range` names. -/
def ContentRange.slice (c : ContentRange) (object : List β) : List β :=
  (object.drop c.first).take (c.last - c.first + 1)

/-- The response sends bytes of the object, as far as it gets. -/
structure Response.Honest (object : List β) (r : Response β) : Prop where
  plain : r.Plain
  known : isSuccess r.code = true → r.code = 200 ∨ r.code = 206
  whole : r.code = 200 → r.body <+: object
  one_range : r.code = 206 → (contentRanges r.fields).length ≤ 1
  ranged : r.code = 206 → ∀ v ∈ contentRanges r.fields, ∀ c ∈ contentRange v,
    c.last < object.length ∧ r.body <+: c.slice object

/-- The response got all the way. -/
structure Response.Complete (object : List β) (r : Response β) : Prop where
  whole : r.code = 200 → r.body = object
  ranged : r.code = 206 → ∀ v ∈ contentRanges r.fields, ∀ c ∈ contentRange v,
    r.body = c.slice object

/-- The totals it states are the object's size. -/
def Response.Sized (object : List β) (r : Response β) : Prop :=
  ∀ v ∈ contentRanges r.fields, ∀ c ∈ contentRange v, ∀ n ∈ c.total, n = object.length

/-- Every response of the attempt is honest, and complete where libcurl says so. -/
structure Attempt.Honest (object : List β) (a : Attempt β) : Prop where
  honest : ∀ r ∈ a.responses, r.Honest object
  complete : a.result = .ok → ∀ r ∈ a.responses, r.Complete object

section
variable [DecidableEq β] (object : List β)

instance (r : Response β) : Decidable (r.Honest object) :=
  decidable_of_iff ((responseStatus r.statusLine = 0 ∨ responseStatus r.statusLine = r.code) ∧
      (isSuccess r.code = true → r.code = 200 ∨ r.code = 206) ∧
      (r.code = 200 → r.body <+: object) ∧
      (r.code = 206 → (contentRanges r.fields).length ≤ 1) ∧
      (r.code = 206 → ∀ v ∈ contentRanges r.fields, ∀ c ∈ contentRange v,
        c.last < object.length ∧ r.body <+: c.slice object))
    ⟨fun ⟨h₁, h₂, h₃, h₄, h₅⟩ => ⟨h₁, h₂, h₃, h₄, h₅⟩,
      fun h => ⟨h.plain, h.known, h.whole, h.one_range, h.ranged⟩⟩

instance (r : Response β) : Decidable (r.Complete object) :=
  decidable_of_iff ((r.code = 200 → r.body = object) ∧
      (r.code = 206 → ∀ v ∈ contentRanges r.fields, ∀ c ∈ contentRange v,
        r.body = c.slice object))
    ⟨fun ⟨h₁, h₂⟩ => ⟨h₁, h₂⟩, fun h => ⟨h.whole, h.ranged⟩⟩

instance (a : Attempt β) : Decidable (a.Honest object) :=
  decidable_of_iff ((∀ r ∈ a.responses, r.Honest object) ∧
      (a.result = .ok → ∀ r ∈ a.responses, r.Complete object))
    ⟨fun ⟨h₁, h₂⟩ => ⟨h₁, h₂⟩, fun h => ⟨h.honest, h.complete⟩⟩

end

/-! ## What a part holds -/

/-- A completed part holds the object's bytes: all of its own when it is `KARU_OK`, the
first `got` when it is short. -/
structure Holds (object : List β) (offset : Nat) (p : Part) (c : Completion) (m : Memory Addr β) :
    Prop where
  whole : c.status = .ok → c.got = p.length ∧
    m.read p.buffer 0 p.length = (object.drop (offset + p.relativeOffset)).take p.length ∧
    offset + p.relativeOffset + p.length ≤ object.length
  short : c.status = .errRange → c.got < p.length ∧
    m.read p.buffer 0 c.got = (object.drop (offset + p.relativeOffset)).take c.got ∧
    (0 < c.got → offset + p.relativeOffset + c.got ≤ object.length)
  settled : c.status = .ok ∨ c.status = .errRange

/-- The object ends where a short part does. -/
def EndsAt (object : List β) (offset : Nat) (p : Part) (c : Completion) : Prop :=
  c.status = .errRange → object.length = offset + p.relativeOffset + c.got ∨
    (c.got = 0 ∧ object.length ≤ offset + p.relativeOffset)

theorem read_of_prefix {m : Memory Addr β} {object stream : List β} {offset n : Nat} {p : Part}
    (hstream : stream <+: object.drop offset)
    (hcells : ∀ i < stream.length, p.relativeOffset ≤ i → i < p.relativeOffset + p.length →
      stream[i]? = some (m.cell p.buffer (i - p.relativeOffset)))
    (hn : n ≤ p.length) (hlen : 0 < n → p.relativeOffset + n ≤ stream.length) :
    m.read p.buffer 0 n = (object.drop (offset + p.relativeOffset)).take n := by
  have hle := hstream.length_le
  rw [List.length_drop] at hle
  have hxs : ((object.drop (offset + p.relativeOffset)).take n).length = n := by
    rw [List.length_take, List.length_drop]
    omega
  refine Memory.read_eq_of_cells hxs fun i hi => ?_
  rw [hxs] at hi
  have hcell := hcells (p.relativeOffset + i) (by omega) (by omega) (by omega)
  have hpos : p.relativeOffset + i < stream.length := by omega
  rw [List.getElem?_eq_getElem hpos, Option.some.injEq, hstream.getElem hpos] at hcell
  rw [Nat.zero_add, List.getElem_take, List.getElem_drop]
  rw [List.getElem_drop, Nat.add_sub_cancel_left] at hcell
  rw [← hcell]
  congr 1
  omega

theorem deliver_memory {t : Transfer} (h : t.scratch = 0) (status : Status) (detail : Text)
    (m : Memory Addr β) : (deliver t status detail m).2 = m := by
  have hpart : ∀ (ps : List Part) (m : Memory Addr β), ps.foldl
      (fun m p => unstagePart t (deliverPart t status detail p).got p m) m = m := by
    intro ps
    induction ps with
    | nil => exact fun _ => rfl
    | cons p ps ih =>
        intro m
        rw [List.foldl_cons, unstagePart, if_neg (by omega)]
        exact ih m
  simp only [deliver]
  split
  · exact hpart t.parts m
  · rfl

/-- A transfer whose `stream` is a prefix of the object delivers nothing else. -/
theorem deliver_holds {object : List β} {s : Live β} (hs : s.Placed)
    (hstream : s.stream <+: object.drop s.transfer.offset) (hscratch : s.transfer.scratch = 0)
    (detail : Text) {p : Part} (hp : p ∈ s.transfer.parts) :
    Holds object s.transfer.offset p (deliverPart s.transfer .ok detail p)
      (deliver s.transfer .ok detail s.memory).2 := by
  have hcells : ∀ i < s.stream.length, p.relativeOffset ≤ i → i < p.relativeOffset + p.length →
      s.stream[i]? = some (s.memory.cell p.buffer (i - p.relativeOffset)) := by
    rw [hs.stream_length]
    exact hs.cells p hp
  have hle := hstream.length_le
  rw [List.length_drop, hs.stream_length] at hle
  have hpos := hs.layout.part_pos p hp
  rw [deliver_memory hscratch]
  by_cases hshort : s.transfer.received < p.stop
  · have hpart : (deliverPart s.transfer .ok detail p).status = .errRange ∧
        (deliverPart s.transfer .ok detail p).got = s.transfer.received - p.relativeOffset := by
      simp only [deliverPart, if_true, hshort]
      refine ⟨trivial, ?_⟩
      split <;> omega
    rw [hs.layout.stop_eq hp] at hshort
    refine ⟨fun h => ?_, fun _ => ⟨?_, ?_, ?_⟩, Or.inr hpart.1⟩
    · rw [hpart.1] at h
      cases h
    · rw [hpart.2]
      omega
    · rw [hpart.2]
      exact read_of_prefix hstream hcells (by omega) (by rw [hs.stream_length]; omega)
    · rw [hpart.2]
      omega
  · have hpart : (deliverPart s.transfer .ok detail p).status = .ok ∧
        (deliverPart s.transfer .ok detail p).got = p.length := by
      simp only [deliverPart, if_true, hshort, if_false]
      exact ⟨trivial, trivial⟩
    rw [hs.layout.stop_eq hp] at hshort
    refine ⟨fun _ => ⟨hpart.2, ?_, ?_⟩, fun h => ?_, Or.inl hpart.1⟩
    · exact read_of_prefix hstream hcells le_rfl (by rw [hs.stream_length]; omega)
    · omega
    · rw [hpart.1] at h
      cases h

/-- If nothing of the object is left after what was received, short parts end with it. -/
theorem deliver_endsAt {object : List β} {s : Live β} (hs : s.Placed)
    (hstream : s.stream <+: object.drop s.transfer.offset)
    (hend : s.transfer.received < s.transfer.length →
      object.length ≤ s.transfer.offset + s.transfer.received)
    (detail : Text) {p : Part} (hp : p ∈ s.transfer.parts) :
    EndsAt object s.transfer.offset p (deliverPart s.transfer .ok detail p) := by
  intro hstatus
  have hle := hstream.length_le
  rw [List.length_drop, hs.stream_length] at hle
  have hstop := hs.layout.part_stop p hp
  by_cases hshort : s.transfer.received < p.stop
  · have hgot : (deliverPart s.transfer .ok detail p).got =
        s.transfer.received - p.relativeOffset := by
      simp only [deliverPart, if_true, hshort]
      split <;> omega
    rw [hs.layout.stop_eq hp] at hshort
    have := hend (by omega)
    rw [hgot]
    omega
  · simp [deliverPart, hshort] at hstatus

/-! ## One honest response -/

section Honest

variable {object : List β} {r : Response β}

/-- One well-formed value is all the transfer knows of the range. -/
theorem ranges_of_one {t t₁ : Transfer} (hh : Headed r.fields (begun r t) t₁) {v : Text}
    {c : ContentRange} (hv : contentRanges r.fields = [v]) (hc : contentRange v = some c) :
    t₁.ranges = ⟨true, true, c.fits t₁, c.fields 0⟩ := by
  have hranges := hh.ranges_eq
  have hstart : (begun r t).ranges = {} := rfl
  have hverdict := parseContentRange_verdict v {}
  rw [hc] at hverdict
  rw [← fitsRange_of_progress hh.progress_eq, hstart, hv, List.foldl_cons, List.foldl_nil] at hranges
  rw [hranges, Ranges.record, hverdict]
  simp only [if_true, fitsRange_fields]

/-- With at most one value, an accepted `Content-Range` is the one that was tested. -/
theorem fits_of_valid {s₁ : Live β} {t : Transfer} (hh : Headed r.fields (begun r t) s₁.transfer)
    (hone : (contentRanges r.fields).length ≤ 1)
    (h : s₁.transfer.contentRangeMatches = true ∨ validContentRange s₁.transfer = true) :
    ∃ v ∈ contentRanges r.fields, ∃ c, contentRange v = some c ∧ c.fits s₁.transfer = true ∧
      s₁.transfer.contentRangeStart = c.first ∧ s₁.transfer.contentRangeEnd = c.last := by
  have hranges := hh.ranges_eq
  have hfits : (begun r t).fitsRange = s₁.transfer.fitsRange :=
    (fitsRange_of_progress hh.progress_eq).symm
  have hstart : (begun r t).ranges = {} := rfl
  rw [hfits, hstart] at hranges
  cases hvalues : contentRanges r.fields with
  | nil =>
      rw [hvalues, List.foldl_nil] at hranges
      rcases h with h | h
      · have : s₁.transfer.ranges.fits = true := h
        simp [hranges] at this
      · rw [validContentRange_eq, hranges] at h
        simp at h
  | cons v vs =>
      rw [hvalues, List.length_cons] at hone
      obtain rfl : vs = [] := List.length_eq_zero_iff.mp (by omega)
      refine ⟨v, List.mem_cons_self, ?_⟩
      cases hc : contentRange v with
      | none =>
          have hverdict := parseContentRange_verdict v {}
          rw [hc] at hverdict
          rw [hvalues, List.foldl_cons, List.foldl_nil] at hranges
          rcases h with h | h
          · have : s₁.transfer.ranges.fits = true := h
            simp [hranges, Ranges.record, hverdict] at this
          · rw [validContentRange_eq, hranges] at h
            simp [Ranges.record, hverdict] at h
      | some c =>
          have hrecord := ranges_of_one hh hvalues hc
          refine ⟨c, rfl, ?_, ?_, ?_⟩
          · rcases h with h | h
            · have : s₁.transfer.ranges.fits = true := h
              rwa [hrecord] at this
            · rw [validContentRange_eq, hrecord] at h
              simpa [fitsRange_fields] using h
          · exact congrArg (·.fields.first) hrecord
          · exact congrArg (·.fields.last) hrecord

theorem ContentRange.fits_spec {c : ContentRange} {t : Transfer} (hl : t.Layout)
    (hr : t.resumed < t.length) (h : c.fits t = true) :
    c.first = t.offset + t.resumed ∧ c.last < t.offset + t.length ∧
      (c.last + 1 = t.offset + t.length ∨ c.total = some (c.last + 1)) := by
  have hstop := hl.stop_le
  simp only [ContentRange.fits, Bool.and_eq_true, Bool.or_eq_true, beq_iff_eq,
    decide_eq_true_eq] at h
  obtain ⟨⟨hfirst, hlast⟩, htotal⟩ := h
  have hadd : add64 t.offset t.resumed = t.offset + t.resumed := add64_of_lt (by omega)
  have hend : sub64 (add64 t.offset t.length) 1 = t.offset + t.length - 1 := by
    unfold sub64 add64
    omega
  rw [hend] at hlast htotal
  refine ⟨hfirst.trans hadd, by omega, ?_⟩
  by_cases hfull : c.last + 1 = t.offset + t.length
  · exact Or.inl hfull
  · have hnext : add64 c.last 1 = c.last + 1 := add64_of_lt (by omega)
    rw [hnext] at htotal
    exact Or.inr (htotal.resolve_left (by omega))

theorem drop_prefix_drop {xs ys : List β} (h : xs <+: ys) (n : Nat) : xs.drop n <+: ys.drop n := by
  obtain ⟨zs, rfl⟩ := h
  rw [List.drop_append]
  exact List.prefix_append _ _

/-- A body let in as a `206` goes on where the transfer was, with the range's own bytes. -/
theorem append_ranged {kept body : List β} {offset n : Nat} {c : ContentRange}
    (hkept : kept <+: object.drop offset) (hfirst : c.first = offset + kept.length)
    (hbody : body <+: c.slice object) : kept ++ body.take n <+: object.drop offset := by
  have hbody' : body.take n <+: object.drop (offset + kept.length) := by
    rw [← hfirst]
    exact (List.take_prefix n body).trans (hbody.trans (List.take_prefix _ _))
  have hsplit : object.drop offset = kept ++ object.drop (offset + kept.length) := by
    rw [← List.drop_drop]
    conv_lhs => rw [← List.take_append_drop kept.length (object.drop offset)]
    rw [← List.prefix_iff_eq_take.mp hkept]
  rw [hsplit]
  exact (List.prefix_append_right_inj kept).mpr hbody'

/-- After an honest response that counts as a success, all that was received is the
object's. -/
theorem honest_stream {s : Live β} {x : Live β × Bool} (hr : r.Honest object) (hs : s.Stored)
    (hkept : s.stream.take s.transfer.resumed <+: object.drop s.transfer.offset)
    (hend : ResponseEnd r s x)
    (hok : isSuccess (settleStatus r.code x.1.transfer).httpStatus = true) :
    x.1.stream <+: object.drop s.transfer.offset := by
  cases hend with
  | blocked hrew =>
      rw [hrew.stream_eq]
      exact hkept
  | @body s₁ _ hrew hh hhead hbody =>
      have hs₁ := hrew.stored hs
      have hoffset : s₁.transfer.offset = s.transfer.offset :=
        field_of_core (·.offset) hrew.core_eq
      rw [← hrew.stream_eq] at hkept
      cases hbody with
      | empty => exact hkept
      | refused => exact (List.take_prefix _ _).trans hkept
      | @error s' _ _ _ hcode hcap =>
          -- an error's status is no success
          have hstatus : s'.transfer.httpStatus = r.code :=
            (field_of_uncaptured (·.httpStatus) hcap.transfer_eq).trans
              (checkStatus_keeps r.info s₁.transfer).2.1
          rw [settled_of_eq hstatus] at hok
          simp only [isSuccess, Bool.and_eq_true, decide_eq_true_eq] at hok
          omega
      | @payload s' _ _ hgo hcode hread =>
          rw [settled_of_eq hread.status_eq] at hok
          have hoffset_lt : s₁.transfer.offset < 2 ^ 64 := by
            have := hs₁.layout.stop_le
            have := hs₁.resumed_lt
            omega
          rw [hread.stream_eq]
          rcases hr.known hok with h200 | h206
          · obtain ⟨hres, hskip⟩ := checkStatus_whole hgo h200 hrew.skip_eq hoffset_lt
            rw [hres, hskip, List.take_zero, List.nil_append, hoffset]
            exact (List.take_prefix _ _).trans (drop_prefix_drop (hr.whole h200) _)
          · have h200 : r.info.responseCode ≠ 200 := by
              show r.code ≠ 200
              omega
            obtain ⟨hres, hskip⟩ := checkStatus_other hgo h200
            obtain ⟨v, hv, c, hc, hfits, -, -⟩ := fits_of_valid hh (hr.one_range h206)
              (Or.inr ((checkStatus_accepted hgo).2.2 h206))
            obtain ⟨hfirst, -, -⟩ := ContentRange.fits_spec hs₁.layout hs₁.resumed_lt hfits
            have hlen : (s₁.stream.take s₁.transfer.resumed).length = s₁.transfer.resumed := by
              rw [List.length_take, hs₁.stream_length]
              have := hs₁.resumed_le
              omega
            rw [hres, hskip, hrew.skip_eq, List.drop_zero]
            refine append_ranged ((List.take_prefix _ _).trans hkept) ?_ (hr.ranged h206 v hv c hc).2
            rw [hlen, ← hoffset]
            exact hfirst

/-- A `206` that succeeds has received the range it names, and no more. -/
theorem honest_ranged {s₁ s' : Live β} {t : Transfer} (hs₁ : s₁.Stored) (hs' : s'.Stored)
    (hh : Headed r.fields (begun r t) s₁.transfer) (hone : (contentRanges r.fields).length ≤ 1)
    (hhead : s'.transfer.head = s₁.transfer.head)
    (hmatches : s'.transfer.contentRangeMatches = true)
    (hspan : sub64 s'.transfer.received s'.transfer.resumed =
      add64 (sub64 s'.transfer.contentRangeEnd s'.transfer.contentRangeStart) 1) :
    ∃ v ∈ contentRanges r.fields, ∃ c, contentRange v = some c ∧
      c.first = s₁.transfer.offset + s₁.transfer.resumed ∧
      c.last < s₁.transfer.offset + s₁.transfer.length ∧
      (c.last + 1 = s₁.transfer.offset + s₁.transfer.length ∨ c.total = some (c.last + 1)) ∧
      c.first ≤ c.last ∧
      s'.transfer.received - s'.transfer.resumed = c.last - c.first + 1 := by
  have hstart : s'.transfer.contentRangeStart = s₁.transfer.contentRangeStart :=
    field_of_head (·.contentRangeStart) hhead
  have hlast : s'.transfer.contentRangeEnd = s₁.transfer.contentRangeEnd :=
    field_of_head (·.contentRangeEnd) hhead
  rw [field_of_head (·.contentRangeMatches) hhead] at hmatches
  obtain ⟨v, hv, c, hc, hfits, hfirst, hend⟩ := fits_of_valid hh hone (Or.inl hmatches)
  obtain ⟨h₁, h₂, h₃⟩ := ContentRange.fits_spec hs₁.layout hs₁.resumed_lt hfits
  have hle := contentRange_le hc
  refine ⟨v, hv, c, hc, h₁, h₂, h₃, hle, ?_⟩
  have hlt := hs₁.layout.length_lt
  have hstop := hs₁.layout.stop_le
  have hlt' := hs'.layout.length_lt
  have hreceived := hs'.received_le
  rw [hstart, hlast, hfirst, hend, sub64_of_le hs'.resumed_le (by omega),
    sub64_of_le hle (by omega), add64_of_lt (by omega)] at hspan
  exact hspan

/-- After an honest, complete response that succeeds short of the transfer's length, nothing
of the object is left. -/
theorem honest_end {s : Live β} {x : Live β × Bool} (hr : r.Honest object)
    (hcomplete : r.Complete object) (hsized : r.Sized object) (hs : s.Stored)
    (hend : ResponseEnd r s x) (hx : x.1.Stored)
    (haccepted : x.2 = true)
    (hok : succeeded (settleStatus r.code x.1.transfer) .ok = true)
    (hshort : x.1.transfer.received < x.1.transfer.length) :
    object.length ≤ s.transfer.offset + x.1.transfer.received := by
  obtain ⟨-, hsuccess, -, hspan⟩ := succeeded_iff.mp hok
  rw [field_of_settled (·.received) r.code x.1.transfer,
    field_of_settled (·.resumed) r.code x.1.transfer,
    field_of_settled (·.contentRangeMatches) r.code x.1.transfer,
    field_of_settled (·.contentRangeStart) r.code x.1.transfer,
    field_of_settled (·.contentRangeEnd) r.code x.1.transfer] at hspan
  cases hend with
  | blocked => cases haccepted
  | @body s₁ _ hrew hh hhead hbody =>
      have hs₁ := hrew.stored hs
      have hoffset : s₁.transfer.offset = s.transfer.offset :=
        field_of_core (·.offset) hrew.core_eq
      -- a `206` has received up to the end of its range, which is the object's
      have hranged : ∀ s' : Live β, s'.Stored → s'.transfer.head = s₁.transfer.head → r.code = 206 →
          s'.transfer.contentRangeMatches = true → sub64 s'.transfer.received s'.transfer.resumed =
            add64 (sub64 s'.transfer.contentRangeEnd s'.transfer.contentRangeStart) 1 →
          s'.transfer.resumed = s₁.transfer.resumed →
          s'.transfer.received < s'.transfer.length →
          object.length ≤ s.transfer.offset + s'.transfer.received := by
        intro s' hs' hhead h206 hm hsp hres hlt
        obtain ⟨v, hv, c, hc, h₁, h₂, h₃, hle, hgot⟩ :=
          honest_ranged hs₁ hs' hh (hr.one_range h206) hhead hm hsp
        have hlength : s'.transfer.length = s₁.transfer.length := field_of_head (·.length) hhead
        have := hs'.resumed_le
        have htotal : c.total = some (c.last + 1) := h₃.resolve_left (by omega)
        have := hsized v hv c hc _ htotal
        omega
      cases hbody with
      | empty hnil =>
          have hstatus := hr.plain.settled hrew.status_eq
          rw [hstatus] at hsuccess hspan
          rcases hr.known hsuccess with h200 | h206
          · have hbody := hcomplete.whole h200
            simp only [Response.body, hnil, List.flatten_nil] at hbody
            simp [← hbody]
          · exact hranged s₁ hs₁ rfl h206 (hspan h206).1 (hspan h206).2 rfl hshort
      | refused => cases haccepted
      | @error s' _ _ _ hcode hcap =>
          have hstatus : s'.transfer.httpStatus = r.code :=
            (field_of_uncaptured (·.httpStatus) hcap.transfer_eq).trans
              (checkStatus_keeps r.info s₁.transfer).2.1
          rw [settled_of_eq hstatus] at hsuccess
          simp only [isSuccess, Bool.and_eq_true, decide_eq_true_eq] at hsuccess
          omega
      | @payload s' _ _ hgo hcode hread =>
          rw [settled_of_eq hread.status_eq] at hsuccess hspan
          rcases hr.known hsuccess with h200 | h206
          · have hoffset_lt : s₁.transfer.offset < 2 ^ 64 := by
              have := hs₁.layout.stop_le
              have := hs₁.resumed_lt
              omega
            obtain ⟨hres, hskip⟩ := checkStatus_whole hgo h200 hrew.skip_eq hoffset_lt
            have hgot := hread.received_eq
            rw [hres, hskip, List.take_zero, List.length_nil, hcomplete.whole h200, hoffset] at hgot
            have hshort : s'.transfer.received < s'.transfer.length := hshort
            show object.length ≤ s.transfer.offset + s'.transfer.received
            omega
          · have h200 : r.info.responseCode ≠ 200 := by
              show r.code ≠ 200
              omega
            have hres : s'.transfer.resumed = s₁.transfer.resumed := by
              rw [hread.resumed_eq, (checkStatus_other hgo h200).1, List.length_take,
                hs₁.stream_length]
              have := hs₁.resumed_le
              omega
            exact hranged s' hx hhead h206 (hspan h206).1 (hspan h206).2 hres hshort

end Honest

/-! ## Runs -/

section Run

variable {object : List β}

/-- Between attempts: what is kept is the object's. -/
structure Keeping (object : List β) (t₀ : Transfer) (s : Live β) : Prop where
  waiting : s.Waiting
  kept : s.stream.take s.transfer.resumed <+: object.drop t₀.offset
  planned_eq : s.transfer.planned = t₀.planned

/-- Between the responses of one. -/
structure Receiving (object : List β) (t₀ : Transfer) (s : Live β) : Prop where
  stored : s.Stored
  kept : s.stream.take s.transfer.resumed <+: object.drop t₀.offset
  planned_eq : s.transfer.planned = t₀.planned

/-- What the last response of an attempt leaves: if it counts as a success, all that was
received is the object's; if it succeeds as complete, what is missing does not exist. -/
structure Received (object : List β) (t₀ : Transfer) (a : Attempt β) (accepted : Bool)
    (s : Live β) : Prop extends Receiving object t₀ s where
  stream : isSuccess s.transfer.httpStatus = true → s.stream <+: object.drop t₀.offset
  ended : accepted = true → a.result = .ok → succeeded s.transfer .ok = true →
    s.transfer.received < s.transfer.length → (∀ r ∈ a.responses, r.Sized object) →
    object.length ≤ t₀.offset + s.transfer.received

/-- The delivered parts of a transfer that an honest server answered. -/
structure Delivered (object : List β) (t₀ : Transfer) (sized : Prop) (s : Live β) : Prop where
  parts_eq : s.transfer.parts = t₀.parts
  holds : ∀ detail, ∀ p ∈ t₀.parts, Holds object t₀.offset p
    (deliverPart s.transfer .ok detail p) (deliver s.transfer .ok detail s.memory).2
  endsAt : sized → ∀ detail, ∀ p ∈ t₀.parts,
    EndsAt object t₀.offset p (deliverPart s.transfer .ok detail p)

theorem Received.delivered {t₀ : Transfer} {a : Attempt β} {accepted : Bool} {s : Live β}
    (hscratch : t₀.scratch = 0) (h : Received object t₀ a accepted s)
    (hok : succeeded s.transfer (if accepted then a.result else .writeError) = true) :
    Delivered object t₀ (∀ r ∈ a.responses, r.Sized object) s := by
  have hparts : s.transfer.parts = t₀.parts := field_of_planned (·.parts) h.planned_eq
  have hoffset : s.transfer.offset = t₀.offset := field_of_planned (·.offset) h.planned_eq
  obtain ⟨htransport, hsuccess, hrest⟩ := succeeded_iff.mp hok
  have hstream := h.stream hsuccess
  rw [← hoffset] at hstream
  refine ⟨hparts, fun detail p hp => ?_, fun hsized detail p hp => ?_⟩
  · rw [← hoffset]
    exact deliver_holds h.stored.toPlaced hstream
      ((field_of_planned (·.scratch) h.planned_eq).trans hscratch) detail (hparts ▸ hp)
  · rw [← hoffset]
    refine deliver_endsAt h.stored.toPlaced hstream (fun hshort => ?_) detail (hparts ▸ hp)
    -- short and successful: libcurl itself reported `CURLE_OK`
    have hunsat : ¬ s.transfer.satisfied = true := fun hs => by
      have := h.stored.satisfied_iff.mp hs
      omega
    have hcode := htransport.resolve_right hunsat
    cases accepted with
    | false => cases hcode
    | true =>
        rw [hoffset]
        exact h.ended rfl hcode (succeeded_iff.mpr ⟨Or.inl rfl, hsuccess, hrest⟩) hshort hsized

theorem Receiving.settled {t₀ : Transfer} {s : Live β} (hs : Receiving object t₀ s) (code : Int) :
    Receiving object t₀ (s.settled code) := by
  refine ⟨hs.stored.settled code, ?_, ?_⟩
  · show s.stream.take (settleStatus code s.transfer).resumed <+: _
    rw [field_of_settled (·.resumed) code s.transfer]
    exact hs.kept
  · exact (field_of_settled (·.planned) code s.transfer).trans hs.planned_eq

/-- What is kept for a retry was received from a success. -/
theorem keeping_retried {t₀ t' : Transfer} {a : Attempt β} {accepted : Bool} {s : Live β}
    (hremote : t₀.locator.backend ≠ .file) (h : Received object t₀ a accepted s)
    (ht : t'.uncorrected = s.transfer.uncorrected) :
    Keeping object t₀ { s with transfer := planResume t' } := by
  have hlocator : s.transfer.locator = t₀.locator := field_of_planned (·.locator) h.planned_eq
  refine ⟨waiting_retried h.stored (by rw [hlocator]; exact hremote) ht, ?_,
    (planResume_planned t').trans ((planned_of_uncorrected ht).trans h.planned_eq)⟩
  have hresumed : t'.resumed = s.transfer.resumed := field_of_uncorrected (·.resumed) ht
  have hreceived : t'.received = s.transfer.received := field_of_uncorrected (·.received) ht
  have hstatus : t'.httpStatus = s.transfer.httpStatus := field_of_uncorrected (·.httpStatus) ht
  have hall : t'.httpStatus = 200 ∨ t'.httpStatus = 206 →
      s.stream.take t'.received <+: object.drop t₀.offset := by
    intro hdata
    refine (List.take_prefix _ _).trans (h.stream ?_)
    rw [← hstatus]
    rcases hdata with hdata | hdata
    · rw [hdata]
      rfl
    · rw [hdata]
      rfl
  have hcases := planResume_resumes t'
  show s.stream.take (planResume t').resumed <+: _
  generalize planResume t' = u at hcases ⊢
  cases hcases with
  | dropped => exact List.nil_prefix
  | same =>
      rw [hresumed]
      exact h.kept
  | unpinned => exact List.nil_prefix
  | pinned hdata => exact hall hdata
  | extended hdata => exact hall hdata

variable [Octet β]

theorem receiving_response {t₀ : Transfer} (curl : Libcurl) (r : Response β) {s : Live β}
    (hs : Receiving object t₀ s) : Receiving object t₀ (feedResponse curl r s).1 := by
  have hkeeps := feedResponse_keeps curl r hs.stored
  refine ⟨feedResponse_stored curl r hs.stored, ?_,
    (planned_of_core (feedResponse_core curl r s)).trans hs.planned_eq⟩
  have htake : s.stream.take (feedResponse curl r s).1.transfer.resumed =
      (s.stream.take s.transfer.resumed).take (feedResponse curl r s).1.transfer.resumed := by
    rw [List.take_take, Nat.min_eq_left hkeeps.resumed_le]
  rw [hkeeps.kept_eq, htake]
  exact (List.take_prefix _ _).trans hs.kept

theorem received_of_response {t₀ : Transfer} {a : Attempt β} (ha : a.Honest object)
    (curl : Libcurl) {r : Response β} (hr : r ∈ a.responses) {s : Live β}
    (hs : Receiving object t₀ s) :
    Received object t₀ a (feedResponse curl r s).2
      ((feedResponse curl r s).1.settled r.code) := by
  have hend := feedResponse_end curl r hs.stored
  have hoffset : s.transfer.offset = t₀.offset := field_of_planned (·.offset) hs.planned_eq
  have hreceiving := receiving_response curl r hs
  refine ⟨hreceiving.settled r.code, fun hok => ?_, fun hacc hres hok hshort hsized => ?_⟩
  · rw [← hoffset]
    exact honest_stream (ha.honest r hr) hs.stored (by rw [hoffset]; exact hs.kept) hend hok
  · generalize feedResponse curl r s = x at hend hreceiving hacc hok hshort ⊢
    show object.length ≤ t₀.offset + (settleStatus r.code x.1.transfer).received
    have hshort : (settleStatus r.code x.1.transfer).received <
        (settleStatus r.code x.1.transfer).length := hshort
    rw [field_of_settled (·.received) r.code x.1.transfer,
      field_of_settled (·.length) r.code x.1.transfer] at hshort
    rw [field_of_settled (·.received) r.code x.1.transfer, ← hoffset]
    exact honest_end (ha.honest r hr) (ha.complete hres r hr) (hsized r hr) hs.stored hend
      hreceiving.stored hacc hok hshort

/-- One attempt at an honest server. -/
theorem attempt_keeping {t₀ : Transfer} (hremote : t₀.locator.backend ≠ .file)
    (hscratch : t₀.scratch = 0) (curl : Libcurl) (options : ClientOptions) {a : Attempt β}
    (ha : a.Honest object) {s : Live β} (hs : Keeping object t₀ s) :
    match attempt curl options a s with
    | .finish status _ s' => status = .ok →
        Delivered object t₀ (∀ r ∈ a.responses, r.Sized object) s'
    | .again s' => Keeping object t₀ s' := by
  have hstart : ∀ s, Keeping object t₀ s → Receiving object t₀ (start options a s) := by
    intro s hs
    have hst := start_started options a hs.waiting
    refine ⟨hst.stored, ?_, hst.planned_eq.trans hs.planned_eq⟩
    rw [hst.stream_eq, hst.resumed_eq, List.take_take, Nat.min_self]
    exact hs.kept
  refine attempt_rule (I := Keeping object t₀) (J := Keeping object t₀) (K := Receiving object t₀)
    (F := Delivered object t₀ (∀ r ∈ a.responses, r.Sized object))
    (R := fun _ accepted s => Received object t₀ a accepted s)
    hstart (fun r _ s hs => receiving_response curl r hs) ?_
    (fun r hr s hs => received_of_response ha curl hr hs) ?_
    (fun _ _ s t' h ht => keeping_retried hremote h ht)
    (fun _ _ s h hok => h.delivered hscratch hok) hs
  · -- no response at all: the status is zero
    intro s hs _
    have hzero : ((start options a s).settled 0).transfer.httpStatus = 0 :=
      settled_of_eq (start_started options a hs.waiting).status_eq
    refine ⟨(hstart s hs).settled 0, fun hok => ?_, fun _ _ hok => ?_⟩
    · rw [hzero] at hok
      cases hok
    · have := (succeeded_iff.mp hok).2.1
      rw [hzero] at this
      cases this
  · intro _ _ s t' h ht
    have hlocator : s.transfer.locator = t₀.locator := field_of_planned (·.locator) h.planned_eq
    refine ⟨waiting_corrected h.stored (by rw [hlocator]; exact hremote) ht, ?_,
      (planned_of_uncorrected ht).trans h.planned_eq⟩
    show s.stream.take t'.resumed <+: _
    rw [field_of_uncorrected (·.resumed) ht]
    exact h.kept

/-- A batch transfer of one object, over any attempts at an honest server: delivered with
`KARU_OK`, every part is whole with the object's bytes, or short with the object's bytes
up to where the object ends. -/
theorem run_delivers_object (curl : Libcurl) (options : ClientOptions) {t₀ : Transfer}
    (ht : t₀.Fresh) (m : Memory Addr β) {attempts : List (Attempt β)}
    (ha : ∀ a ∈ attempts, a.Honest object) {detail : Text} {s : Live β}
    (hrun : run curl options attempts ⟨t₀, m, []⟩ = .finish .ok detail s) :
    Delivered object t₀ (∀ a ∈ attempts, ∀ r ∈ a.responses, r.Sized object) s := by
  have hinit : Keeping object t₀ ⟨t₀, m, []⟩ := ⟨ht.waiting m, by simp, rfl⟩
  have halong : Along curl options (fun a _ => a ∈ attempts) attempts ⟨t₀, m, []⟩ :=
    along_of_forall curl options attempts _ fun _ hmem _ => hmem
  have hrule := run_induct curl options (J := Keeping object t₀)
    (F := fun status _ s' => status = .ok →
      Delivered object t₀ (∀ a ∈ attempts, ∀ r ∈ a.responses, r.Sized object) s')
    (fun a s hmem hs => ?_) attempts halong hinit
  · rw [hrun] at hrule
    exact hrule rfl
  · have hattempt := attempt_keeping ht.remote ht.scratch_eq curl options (ha a hmem) hs
    cases hout : attempt curl options a s with
    | finish status d s' =>
        rw [hout] at hattempt
        intro hok
        have hd := hattempt hok
        exact ⟨hd.parts_eq, hd.holds, fun hsized => hd.endsAt (hsized a hmem)⟩
    | again s' =>
        rw [hout] at hattempt
        exact hattempt

end Run

/-- Two overlapping reads of an object of eight bytes, the second past its end. -/
def interruptedRead : Transfer where
  locator := { backend := .s3, canonicalUri := text "s3://b/k" }
  offset := 2
  length := 9
  scattered := true
  parts := [{ length := 3, buffer := .heap 1 },
    { relativeOffset := 2, length := 7, buffer := .heap 2 }]

theorem interruptedRead_fresh : interruptedRead.Fresh where
  layout := ⟨⟨_, _, rfl, rfl⟩, by decide, by decide, by decide,
    ⟨_, List.mem_cons_of_mem _ List.mem_cons_self, rfl⟩, by decide, by decide, by simp [interruptedRead]⟩
  distinct := by simp [interruptedRead, Part.Apart]
  remote := by decide
  sink_eq := rfl
  scratch_eq := rfl
  resumed_eq := rfl
  received_eq := rfl
  resumeEtag_eq := rfl

/-- A `206` that breaks off, a `200` that comes instead of the rest and breaks off further
on, and the rest after a redirect. -/
def interruptedAttempts : List (Attempt UInt8) :=
  [{ responses :=
      [{ code := 206, statusLine := text "HTTP/1.1 206 Partial Content\r\n",
         fields := [text "Content-Range: bytes 2-7/8\r\n", text "ETag: \"v\"\r\n"],
         chunks := [[12], [13]] }],
     result := .partialFile },
   { responses :=
      [{ code := 200, statusLine := text "HTTP/1.1 200 OK\r\n",
         chunks := [[10, 11, 12], [13, 14]] }],
     result := .recvError },
   { responses :=
      [{ code := 307, statusLine := text "HTTP/2 307\r\n" },
       { code := 206, statusLine := text "HTTP/2 206 \r\n",
         fields := [text "content-range: bytes 5-7/8\r\n"], chunks := [[15], [16, 17]] }] }]

theorem interruptedAttempts_honest :
    ∀ a ∈ interruptedAttempts, a.Honest [10, 11, 12, 13, 14, 15, 16, 17] := by
  decide

/-- What the attempts come to. -/
def interruptedOutcome : Outcome UInt8 :=
  run .uncalled .initial interruptedAttempts ⟨interruptedRead, ⟨fun _ _ => 0, []⟩, []⟩

theorem interruptedOutcome_finish :
    interruptedOutcome = .finish .ok [] interruptedOutcome.live := rfl

theorem run_delivers_object_interrupted :
    interruptedOutcome.live.transfer.received = 6 ∧
      Delivered [10, 11, 12, 13, 14, 15, 16, 17] interruptedRead
        (∀ a ∈ interruptedAttempts, ∀ r ∈ a.responses,
          r.Sized [10, 11, 12, 13, 14, 15, 16, 17]) interruptedOutcome.live :=
  ⟨rfl, run_delivers_object .uncalled {} interruptedRead_fresh _ interruptedAttempts_honest
    interruptedOutcome_finish⟩

/-- The three bytes that the header names, under a total that is not the object's size. -/
def earlyTotal : List (Attempt UInt8) :=
  [{ responses :=
      [{ code := 206, statusLine := text "HTTP/1.1 206 Partial Content\r\n",
         fields := [text "Content-Range: bytes 2-4/5\r\n"], chunks := [[12, 13, 14]] }] }]

/-- What comes of them. -/
def earlyOutcome : Outcome UInt8 :=
  run .uncalled .initial earlyTotal ⟨interruptedRead, ⟨fun _ _ => 0, []⟩, []⟩

/-- The second part of the read, as it is delivered. -/
def earlyPart : Completion :=
  deliverPart earlyOutcome.live.transfer .ok []
    { relativeOffset := 2, length := 7, buffer := .heap 2 }

/-- It is delivered as short, with one byte, and the object goes on behind that. -/
theorem earlyOutcome_goes_on :
    (∀ a ∈ earlyTotal, a.Honest [10, 11, 12, 13, 14, 15, 16, 17, 18, 19, 20]) ∧
      earlyOutcome = .finish .ok [] earlyOutcome.live ∧
      earlyPart.status = .errRange ∧ earlyPart.got = 1 ∧
      ¬ EndsAt [10, 11, 12, 13, 14, 15, 16, 17, 18, 19, (20 : UInt8)] interruptedRead.offset
        { relativeOffset := 2, length := 7, buffer := .heap 2 } earlyPart := by
  have hgot : earlyPart.got = 1 := by rfl
  refine ⟨by decide, rfl, rfl, hgot, fun hends => ?_⟩
  rcases hends rfl with hends | hends
  · rw [hgot] at hends
    cases hends
  · rw [hgot] at hends
    exact absurd hends.1 (by decide)

end Karu
