/-
# `Karu.Runtime.Versions` — a delivered batch read is of one version

The object may change between attempts, or under one.  Every byte a server
sends carries the version it is of (`version`), and every version has a strong
`ETag` of its own (`tag`).  A response with a body says which version it sends,
or it honours the `If-Match` it was asked with, or no `If-Match` was sent and
it says nothing (`Response.Versioned`).

What is kept between attempts is then always of the version the pin names
(`Pinned`), although the pin lies in one of two fields and three functions
write them.  What a response adds is of its own version, and it is let in only
if that does not contradict the pin.
-/
import Karu.Runtime.Integrity

namespace Karu

open Base

variable {β : Type}

/-! ## What a response adds -/

theorem contradictsPin_of_head {t t' : Transfer} (h : t'.head = t.head) :
    contradictsPin t' = contradictsPin t :=
  field_of_head contradictsPin h

theorem Headed.responseEtag_eq {r : Response β} {t t' : Transfer}
    (h : Headed r.fields (begun r t) t') : t'.responseEtag = etagOf r.fields := h.etag_eq

/-- The bytes a successful response has added are from its body, and it did not contradict
the pin. -/
structure Added (r : Response β) (s : Live β) : Prop where
  success : isSuccess r.code = true
  body : r.chunks ≠ []
  mem : ∀ b ∈ s.stream.drop s.transfer.resumed, b ∈ r.body
  etag_eq : s.transfer.responseEtag = etagOf r.fields
  agrees : contradictsPin s.transfer = false

theorem ResponseEnd.added {r : Response β} {s s' : Live β} {accepted : Bool}
    (h : ResponseEnd r s (s', accepted)) (hs : s.Stored)
    (hok : isSuccess (settleStatus r.code s'.transfer).httpStatus = true)
    (hmore : s'.transfer.resumed < s'.transfer.received) : Added r s' := by
  cases h with
  | blocked hrew =>
      have h₁ := hrew.received_eq
      have h₂ := hrew.resumed_eq
      omega
  | body hrew hheaded hhead hbody =>
      have hfresh := (hrew.stored hs).fresh hrew.unchecked
      have hkeeps := fun t => checkStatus_keeps r.info (t : Transfer)
      cases hbody with
      | empty => omega
      | refused =>
          have hcount := (checkStatus_counters r.info hfresh.1).1
          simp only [Live.update] at hmore
          omega
      | error _ _ hcode hcap =>
          have hstatus : s'.transfer.httpStatus = r.code :=
            (field_of_uncaptured (·.httpStatus) hcap.transfer_eq).trans (hkeeps _).2.1
          rw [settled_of_eq hstatus] at hok
          simp only [isSuccess, Bool.and_eq_true, decide_eq_true_eq] at hok
          omega
      | payload hne hgo _ hread =>
          rw [settled_of_eq hread.status_eq] at hok
          refine ⟨hok, hne, fun b hb => ?_, ?_, ?_⟩
          · rw [hread.resumed_eq, hread.stream_eq, List.drop_left] at hb
            exact List.mem_of_mem_drop (List.mem_of_mem_take hb)
          · exact (field_of_head (·.responseEtag) hhead).trans hheaded.responseEtag_eq
          · rw [contradictsPin_of_head hhead]
            exact ((checkStatus_accepted hgo).2.1 hok).2

/-! ## Servers that know their versions -/

section Versions

variable {ν : Type} (tag : ν → Text) (version : β → ν)

/-- What may answer a request with `If-Match: pin`, or without one where `pin` is empty. -/
def Response.Versioned (pin : Text) (r : Response β) : Prop :=
  isSuccess r.code = true → r.chunks ≠ [] → ∃ v, (∀ b ∈ r.body, version b = v) ∧
    (etagOf r.fields = tag v ∨
      (pin = [] ∧ etagOf r.fields = []) ∨
      (pin ≠ [] ∧ (isStrongEtag pin = true → tag v = pin)))

/-- What is kept is of the version the pin names. -/
structure Pinned (s : Live β) : Prop where
  kept : ∀ b ∈ s.stream.take s.transfer.resumed, tag (version b) = versionPin s.transfer
  strong : 0 < s.transfer.resumed → isStrongEtag (versionPin s.transfer) = true
  etag_strong : s.transfer.resumeEtag = [] ∨ isStrongEtag s.transfer.resumeEtag = true

/-- What was added since is of one version, which the pin does not contradict. -/
structure AddedVersion (s : Live β) (v : ν) : Prop where
  all : ∀ b ∈ s.stream.drop s.transfer.resumed, version b = v
  pinned : isStrongEtag (versionPin s.transfer) = true → tag v = versionPin s.transfer
  unpinned : versionPin s.transfer = [] →
    s.transfer.responseEtag = tag v ∨ s.transfer.responseEtag = []

variable {tag version}

theorem Pinned.of_keeps {s s' : Live β} (h : Pinned tag version s) (hkeeps : Keeps s s')
    (hcore : s'.transfer.core = s.transfer.core) : Pinned tag version s' := by
  have hpin : versionPin s'.transfer = versionPin s.transfer := field_of_core versionPin hcore
  have hetag : s'.transfer.resumeEtag = s.transfer.resumeEtag :=
    field_of_core (·.resumeEtag) hcore
  have hle := hkeeps.resumed_le
  refine ⟨fun b hb => ?_, fun hpos => ?_, ?_⟩
  · rw [hpin]
    refine h.kept b ?_
    rw [hkeeps.kept_eq] at hb
    exact (List.take_subset_take_left _ hle) hb
  · rw [hpin]
    exact h.strong (by omega)
  · rw [hetag]
    exact h.etag_strong

theorem Added.ofVersion {r : Response β} {s : Live β} {pin : Text} (h : Added r s)
    (hr : r.Versioned tag version pin) (hpin : versionPin s.transfer = pin)
    (hstrong : ∀ v, isStrongEtag (tag v) = true) : ∃ v, AddedVersion tag version s v := by
  obtain ⟨v, hall, hetag⟩ := hr h.success h.body
  refine ⟨v, fun b hb => hall b (h.mem b hb), fun hs => ?_, fun hempty => ?_⟩
  · rcases hetag with hetag | ⟨hnil, -⟩ | ⟨-, hhonours⟩
    · -- the tag was compared with the pin
      have hagrees := h.agrees
      have hne : tag v ≠ [] := by
        intro hnil
        have := hstrong v
        rw [hnil] at this
        cases this
      simpa [contradictsPin, hs, h.etag_eq, hetag, hne] using hagrees
    · rw [hpin, hnil] at hs
      cases hs
    · rw [hpin] at hs ⊢
      exact hhonours hs
  · rw [hpin] at hempty
    rw [h.etag_eq]
    rcases hetag with hetag | ⟨-, hetag⟩ | ⟨hne, -⟩
    · exact Or.inl hetag
    · exact Or.inr hetag
    · exact absurd hempty hne

/-! ## Through one attempt -/

/-- Between attempts. -/
structure Held (tag : ν → Text) (version : β → ν) (t₀ : Transfer) (s : Live β) : Prop where
  waiting : s.Waiting
  pinned : Pinned tag version s
  planned_eq : s.transfer.planned = t₀.planned

/-- Between the responses of an attempt whose request carried `pin`. -/
structure Serving (tag : ν → Text) (version : β → ν) (t₀ : Transfer) (pin : Text) (s : Live β) :
    Prop where
  stored : s.Stored
  pinned : Pinned tag version s
  pin_eq : versionPin s.transfer = pin
  planned_eq : s.transfer.planned = t₀.planned

/-- After the last of them. -/
structure Served (tag : ν → Text) (version : β → ν) (t₀ : Transfer) (s : Live β) : Prop where
  stored : s.Stored
  pinned : Pinned tag version s
  planned_eq : s.transfer.planned = t₀.planned
  added : isSuccess s.transfer.httpStatus = true → s.transfer.resumed < s.transfer.received →
    ∃ v, AddedVersion tag version s v

theorem Pinned.settled {s : Live β} (h : Pinned tag version s) (code : Int) :
    Pinned tag version (s.settled code) := by
  have hpin : versionPin (settleStatus code s.transfer) = versionPin s.transfer :=
    field_of_settled versionPin code s.transfer
  have hresumed : (settleStatus code s.transfer).resumed = s.transfer.resumed :=
    field_of_settled (·.resumed) code s.transfer
  refine ⟨?_, ?_, ?_⟩
  · show ∀ b ∈ s.stream.take (settleStatus code s.transfer).resumed, _ = versionPin _
    rw [hresumed]
    exact fun b hb => (h.kept b hb).trans hpin.symm
  · show 0 < (settleStatus code s.transfer).resumed → isStrongEtag (versionPin _) = true
    rw [hresumed]
    exact fun hpos => by
      rw [show versionPin (s.settled code).transfer = versionPin s.transfer from hpin]
      exact h.strong hpos
  · show (settleStatus code s.transfer).resumeEtag = [] ∨
      isStrongEtag (settleStatus code s.transfer).resumeEtag = true
    rw [field_of_settled (·.resumeEtag) code s.transfer]
    exact h.etag_strong

theorem Serving.served {t₀ : Transfer} {pin : Text} {s : Live β}
    (h : Serving tag version t₀ pin s) (code : Int)
    (hadded : isSuccess (settleStatus code s.transfer).httpStatus = true →
      s.transfer.resumed < s.transfer.received → ∃ v, AddedVersion tag version s v) :
    Served tag version t₀ (s.settled code) := by
  refine ⟨h.stored.settled code, h.pinned.settled code,
    (field_of_settled (·.planned) code s.transfer).trans h.planned_eq, fun hok hmore => ?_⟩
  have hmore : (settleStatus code s.transfer).resumed < (settleStatus code s.transfer).received :=
    hmore
  have hresumed : (settleStatus code s.transfer).resumed = s.transfer.resumed :=
    field_of_settled (·.resumed) code s.transfer
  have hpin : versionPin (settleStatus code s.transfer) = versionPin s.transfer :=
    field_of_settled versionPin code s.transfer
  have hetag : (settleStatus code s.transfer).responseEtag = s.transfer.responseEtag :=
    field_of_settled (·.responseEtag) code s.transfer
  rw [hresumed, field_of_settled (·.received) code s.transfer] at hmore
  obtain ⟨v, hv⟩ := hadded hok hmore
  refine ⟨v, ?_, ?_, ?_⟩
  · show ∀ b ∈ s.stream.drop (settleStatus code s.transfer).resumed, version b = v
    rw [hresumed]
    exact hv.all
  · show isStrongEtag (versionPin (settleStatus code s.transfer)) = true →
      tag v = versionPin (settleStatus code s.transfer)
    rw [hpin]
    exact hv.pinned
  · show versionPin (settleStatus code s.transfer) = [] →
      (settleStatus code s.transfer).responseEtag = tag v ∨
        (settleStatus code s.transfer).responseEtag = []
    rw [hpin, hetag]
    exact hv.unpinned

/-- A correction forgets nothing and adds nothing. -/
theorem held_corrected {t₀ t' : Transfer} {s : Live β} (hremote : t₀.locator.backend ≠ .file)
    (h : Served tag version t₀ s) (ht : t'.uncorrected = s.transfer.uncorrected) :
    Held tag version t₀ { s with transfer := t' } := by
  have hlocator : s.transfer.locator = t₀.locator := field_of_planned (·.locator) h.planned_eq
  have hpin : versionPin t' = versionPin s.transfer := field_of_uncorrected versionPin ht
  have hresumed : t'.resumed = s.transfer.resumed := field_of_uncorrected (·.resumed) ht
  refine ⟨waiting_corrected h.stored (by rw [hlocator]; exact hremote) ht, ⟨?_, ?_, ?_⟩,
    (planned_of_uncorrected ht).trans h.planned_eq⟩
  · show ∀ b ∈ s.stream.take t'.resumed, tag (version b) = versionPin t'
    rw [hresumed, hpin]
    exact h.pinned.kept
  · show 0 < t'.resumed → isStrongEtag (versionPin t') = true
    rw [hresumed, hpin]
    exact h.pinned.strong
  · show t'.resumeEtag = [] ∨ isStrongEtag t'.resumeEtag = true
    rw [field_of_uncorrected (·.resumeEtag) ht]
    exact h.pinned.etag_strong

/-- All that was received is of the version the pin names. -/
theorem Served.tagged {t₀ : Transfer} {s : Live β} (h : Served tag version t₀ s)
    (hok : isSuccess s.transfer.httpStatus = true)
    (hpin : isStrongEtag (versionPin s.transfer) = true) :
    ∀ b ∈ s.stream, tag (version b) = versionPin s.transfer := by
  intro b hb
  rw [← List.take_append_drop s.transfer.resumed s.stream, List.mem_append] at hb
  rcases hb with hb | hb
  · exact h.pinned.kept b hb
  · have hmore : s.transfer.resumed < s.transfer.received := by
      rw [← h.stored.stream_length]
      have := List.length_pos_of_mem hb
      rw [List.length_drop] at this
      omega
    obtain ⟨v, hv⟩ := h.added hok hmore
    rw [hv.all b hb]
    exact hv.pinned hpin

theorem versionPin_strong {t : Transfer}
    (hetag : t.resumeEtag = [] ∨ isStrongEtag t.resumeEtag = true)
    (hmatch : t.ifMatch ≠ [] → isStrongEtag t.ifMatch = true) (hne : versionPin t ≠ []) :
    isStrongEtag (versionPin t) = true := by
  unfold versionPin at hne ⊢
  split
  · rename_i hempty
    rw [if_pos hempty] at hne
    exact hetag.resolve_left hne
  · rename_i hset
    exact hmatch (by simpa using hset)

/-- A retry keeps what the pin names, or nothing; a first piece makes its own tag the pin. -/
theorem held_retried {t₀ t' : Transfer} {s : Live β} (hstrong : ∀ v, isStrongEtag (tag v) = true)
    (hremote : t₀.locator.backend ≠ .file) (h : Served tag version t₀ s)
    (ht : t'.uncorrected = s.transfer.uncorrected) :
    Held tag version t₀ { s with transfer := planResume t' } := by
  have hlocator : s.transfer.locator = t₀.locator := field_of_planned (·.locator) h.planned_eq
  have hpin : versionPin t' = versionPin s.transfer := field_of_uncorrected versionPin ht
  have hresumed : t'.resumed = s.transfer.resumed := field_of_uncorrected (·.resumed) ht
  have hreceived : t'.received = s.transfer.received := field_of_uncorrected (·.received) ht
  have hstatus : t'.httpStatus = s.transfer.httpStatus := field_of_uncorrected (·.httpStatus) ht
  have hetag : t'.resumeEtag = s.transfer.resumeEtag := field_of_uncorrected (·.resumeEtag) ht
  have hresponse : t'.responseEtag = s.transfer.responseEtag :=
    field_of_uncorrected (·.responseEtag) ht
  have hpinned := h.pinned
  have hetagStrong : t'.resumeEtag = [] ∨ isStrongEtag t'.resumeEtag = true := by
    rw [hetag]
    exact hpinned.etag_strong
  have hok : t'.httpStatus = 200 ∨ t'.httpStatus = 206 →
      isSuccess s.transfer.httpStatus = true := by
    rw [hstatus]
    rintro (h | h)
    · rw [h]
      rfl
    · rw [h]
      rfl
  refine ⟨waiting_retried h.stored (by rw [hlocator]; exact hremote) ht, ?_,
    (planResume_planned t').trans ((planned_of_uncorrected ht).trans h.planned_eq)⟩
  have hcases := planResume_resumes t'
  generalize planResume t' = u at hcases ⊢
  cases hcases with
  | dropped =>
      exact ⟨by simp, fun hpos => absurd hpos (lt_irrefl 0), Or.inl rfl⟩
  | same =>
      refine ⟨?_, ?_, hetagStrong⟩
      · show ∀ b ∈ s.stream.take t'.resumed, tag (version b) = versionPin t'
        rw [hresumed, hpin]
        exact hpinned.kept
      · show 0 < t'.resumed → isStrongEtag (versionPin t') = true
        rw [hresumed, hpin]
        exact hpinned.strong
  | unpinned =>
      exact ⟨by simp, fun hpos => absurd hpos (lt_irrefl 0), hetagStrong⟩
  | pinned hdata hmore _ _ hmatch hnone hsome =>
      have hempty : versionPin t' = [] := by simp [versionPin, hmatch, hnone]
      have hzero : s.transfer.resumed = 0 := by
        by_contra hne
        have := hpinned.strong (by omega)
        rw [← hpin, hempty] at this
        cases this
      obtain ⟨v, hv⟩ := h.added (hok hdata) (by omega)
      have htag : t'.responseEtag = tag v := by
        rw [hresponse] at hsome ⊢
        exact (hv.unpinned (hpin.symm.trans hempty)).resolve_right hsome
      have hnew : versionPin { t' with resumeEtag := t'.responseEtag, resumed := t'.received } =
          t'.responseEtag := by simp [versionPin, hmatch]
      refine ⟨fun b hb => ?_, fun _ => ?_, Or.inr ?_⟩
      · rw [hnew, htag]
        congr 1
        refine hv.all b ?_
        rw [hzero]
        exact List.mem_of_mem_take hb
      · rw [hnew, htag]
        exact hstrong v
      · show isStrongEtag t'.responseEtag = true
        rw [htag]
        exact hstrong v
  | extended hdata _ _ _ hmatch hne =>
      have hs : isStrongEtag (versionPin t') = true := versionPin_strong hetagStrong hmatch hne
      refine ⟨fun b hb => ?_, fun _ => hs, hetagStrong⟩
      show tag (version b) = versionPin t'
      rw [hpin] at hs ⊢
      exact h.tagged (hok hdata) hs b (List.mem_of_mem_take hb)

/-! ## The whole run -/

/-- What was received is of one version, the one a strong `if_match` names, and no part
holds anything else. -/
structure OneVersion (tag : ν → Text) (version : β → ν) (t₀ : Transfer) (s : Live β) : Prop where
  counted : s.stream.length = s.transfer.received
  one : ∀ b ∈ s.stream, ∀ b' ∈ s.stream, version b = version b'
  named : isStrongEtag t₀.ifMatch = true → ∀ b ∈ s.stream, tag (version b) = t₀.ifMatch
  delivered : ∀ detail, ∀ p ∈ t₀.parts,
    ∀ b ∈ (deliver s.transfer .ok detail s.memory).2.read p.buffer 0
      (deliverPart s.transfer .ok detail p).got, b ∈ s.stream

/-- What is delivered was received. -/
theorem mem_stream_of_delivered {s : Live β} (hs : s.Placed) (hscratch : s.transfer.scratch = 0)
    (detail : Text) {p : Part} (hp : p ∈ s.transfer.parts) {b : β}
    (hb : b ∈ (deliver s.transfer .ok detail s.memory).2.read p.buffer 0
      (deliverPart s.transfer .ok detail p).got) : b ∈ s.stream := by
  rw [deliver_memory hscratch, Memory.read, List.mem_map] at hb
  obtain ⟨i, hi, rfl⟩ := hb
  rw [List.mem_range] at hi
  have hstop : p.stop = p.relativeOffset + p.length := hs.layout.stop_eq hp
  have hbound : p.relativeOffset + i < s.transfer.received ∧ i < p.length := by
    simp only [deliverPart, if_true] at hi
    split at hi
    · rename_i hshort
      dsimp only at hi
      split at hi <;> omega
    · rename_i hwhole
      dsimp only at hi
      omega
  have hcell := hs.cells p hp (p.relativeOffset + i) hbound.1 (by omega) (by omega)
  rw [Nat.add_sub_cancel_left] at hcell
  rw [Nat.zero_add]
  exact List.mem_of_getElem? hcell

theorem Served.oneVersion {t₀ : Transfer} {s : Live β} (hinj : Function.Injective tag)
    (hscratch : t₀.scratch = 0) (h : Served tag version t₀ s)
    (hok : isSuccess s.transfer.httpStatus = true) : OneVersion tag version t₀ s := by
  have hmatch : s.transfer.ifMatch = t₀.ifMatch := field_of_planned (·.ifMatch) h.planned_eq
  have hparts : s.transfer.parts = t₀.parts := field_of_planned (·.parts) h.planned_eq
  refine ⟨h.stored.stream_length, ?_, fun hs b hb => ?_, fun detail p hp b hb => ?_⟩
  · by_cases hs : isStrongEtag (versionPin s.transfer) = true
    · intro b hb b' hb'
      exact hinj ((h.tagged hok hs b hb).trans (h.tagged hok hs b' hb').symm)
    · -- without a strong pin nothing was kept
      have hzero : s.transfer.resumed = 0 := by
        by_contra hne
        exact hs (h.pinned.strong (by omega))
      intro b hb b' hb'
      obtain ⟨v, hv⟩ := h.added hok (by
        rw [hzero, ← h.stored.stream_length]
        exact List.length_pos_of_mem hb)
      have hall := hv.all
      rw [hzero, List.drop_zero] at hall
      rw [hall b hb, hall b' hb']
  · have hpin : versionPin s.transfer = t₀.ifMatch := by
      unfold versionPin
      rw [hmatch]
      split
      · rename_i hempty
        rw [List.isEmpty_iff.mp hempty] at hs
        cases hs
      · rfl
    rw [← hpin] at hs ⊢
    exact h.tagged hok hs b hb
  · exact mem_stream_of_delivered h.stored.toPlaced
      ((field_of_planned (·.scratch) h.planned_eq).trans hscratch) detail (hparts ▸ hp) hb

variable [Octet β]

theorem attempt_held {t₀ : Transfer} (hinj : Function.Injective tag)
    (hstrong : ∀ v, isStrongEtag (tag v) = true) (hremote : t₀.locator.backend ≠ .file)
    (hscratch : t₀.scratch = 0) (curl : Libcurl) (options : ClientOptions) {a : Attempt β}
    {s : Live β} (ha : ∀ r ∈ a.responses, r.Versioned tag version (versionPin s.transfer))
    (hs : Held tag version t₀ s) :
    match attempt curl options a s with
    | .finish status _ s' => status = .ok → OneVersion tag version t₀ s'
    | .again s' => Held tag version t₀ s' := by
  have hstart : ∀ u, u = s →
      Serving tag version t₀ (versionPin s.transfer) (start options a u) := by
    rintro u rfl
    have hst := start_started options a hs.waiting
    have hpin : versionPin (start options a u).transfer = versionPin u.transfer := by
      unfold versionPin
      rw [field_of_planned (·.ifMatch) hst.planned_eq, hst.resumeEtag_eq]
    refine ⟨hst.stored, ⟨?_, ?_, ?_⟩, hpin, hst.planned_eq.trans hs.planned_eq⟩
    · rw [hst.stream_eq, hst.resumed_eq, List.take_take, Nat.min_self, hpin]
      exact hs.pinned.kept
    · rw [hst.resumed_eq, hpin]
      exact hs.pinned.strong
    · rw [hst.resumeEtag_eq]
      exact hs.pinned.etag_strong
  have hkeep : ∀ r ∈ a.responses, ∀ u, Serving tag version t₀ (versionPin s.transfer) u →
      Serving tag version t₀ (versionPin s.transfer) (feedResponse curl r u).1 := by
    intro r _ u hu
    have hcore := feedResponse_core curl r u
    exact ⟨feedResponse_stored curl r hu.stored,
      hu.pinned.of_keeps (feedResponse_keeps curl r hu.stored) hcore,
      (field_of_core versionPin hcore).trans hu.pin_eq,
      (planned_of_core hcore).trans hu.planned_eq⟩
  refine attempt_rule (I := fun u => u = s) (J := Held tag version t₀)
    (K := Serving tag version t₀ (versionPin s.transfer)) (F := OneVersion tag version t₀)
    (R := fun _ _ => Served tag version t₀) hstart hkeep ?_ ?_
    (fun _ _ u t' h ht => held_corrected hremote h ht)
    (fun _ _ u t' h ht => held_retried hstrong hremote h ht)
    (fun _ _ u h hok => h.oneVersion hinj hscratch (succeeded_iff.mp hok).2.1) rfl
  · rintro u rfl -
    refine (hstart u rfl).served 0 fun hok => ?_
    rw [settled_of_eq (start_started options a hs.waiting).status_eq] at hok
    cases hok
  · intro r hr u hu
    have hnext := hkeep r hr u hu
    refine hnext.served r.code fun hok hmore => ?_
    exact ((feedResponse_end curl r hu.stored).added hu.stored hok hmore).ofVersion (ha r hr)
      hnext.pin_eq hstrong

/-- Whatever the object does between the attempts of a batch transfer, and whatever the
attempts are: delivered with `KARU_OK`, it is of one version. -/
theorem run_one_version (curl : Libcurl) (options : ClientOptions) {t₀ : Transfer}
    (ht : t₀.Fresh) (m : Memory Addr β) (hinj : Function.Injective tag)
    (hstrong : ∀ v, isStrongEtag (tag v) = true) {attempts : List (Attempt β)}
    (ha : Along curl options
      (fun a s => ∀ r ∈ a.responses, r.Versioned tag version (versionPin s.transfer))
      attempts ⟨t₀, m, []⟩)
    {detail : Text} {s : Live β}
    (hrun : run curl options attempts ⟨t₀, m, []⟩ = .finish .ok detail s) :
    OneVersion tag version t₀ s := by
  have hinit : Held tag version t₀ ⟨t₀, m, []⟩ := by
    refine ⟨ht.waiting m, ⟨by simp, fun hpos => ?_, Or.inl ht.resumeEtag_eq⟩, rfl⟩
    have hpos : 0 < t₀.resumed := hpos
    rw [ht.resumed_eq] at hpos
    omega
  have hrule := run_induct curl options (J := Held tag version t₀)
    (F := fun status _ s' => status = .ok → OneVersion tag version t₀ s')
    (fun a s ha hs => attempt_held hinj hstrong ht.remote ht.scratch_eq curl options ha hs)
    attempts ha hinit
  rw [hrun] at hrule
  exact hrule rfl

end Versions

/-- The tags of two versions. -/
def twoTags : Bool → Text
  | false => text "\"a\""
  | true => text "\"b\""

theorem twoTags_injective : Function.Injective twoTags := by
  have h : ∀ v w, twoTags v = twoTags w → v = w := by decide
  exact fun v w => h v w

/-- The object changes after a first piece of it was read: a server that notices, then one
that sends the new version from its start. -/
def changingAttempts : List (Attempt (UInt8 × Bool)) :=
  [{ responses :=
      [{ code := 206, statusLine := text "HTTP/1.1 206 Partial Content\r\n",
         fields := [text "Content-Range: bytes 2-7/8\r\n", text "ETag: \"a\"\r\n"],
         chunks := [[(12, false)], [(13, false)]] }],
     result := .partialFile },
   { responses :=
      [{ code := 412, statusLine := text "HTTP/1.1 412 Precondition Failed\r\n" }] },
   { responses :=
      [{ code := 200, statusLine := text "HTTP/1.1 200 OK\r\n",
         fields := [text "ETag: \"b\"\r\n"],
         chunks := [[(20, true), (21, true)], [(22, true), (23, true)], [(24, true)]] }] }]

theorem changingAttempts_versioned (pin : Text) :
    ∀ a ∈ changingAttempts, ∀ r ∈ a.responses, r.Versioned twoTags Prod.snd pin := by
  simp only [changingAttempts, List.forall_mem_cons, List.not_mem_nil, false_implies,
    implies_true, and_true]
  refine ⟨fun _ _ => ⟨false, by decide +kernel, Or.inl (by decide +kernel)⟩,
    (fun hok => by cases hok),
    fun _ _ => ⟨true, by decide +kernel, Or.inl (by decide +kernel)⟩⟩

/-- What the attempts come to. -/
def changingOutcome : Outcome (UInt8 × Bool) :=
  run .uncalled .initial changingAttempts ⟨interruptedRead, ⟨fun _ _ => (0, false), []⟩, []⟩

theorem changingOutcome_finish : changingOutcome = .finish .ok [] changingOutcome.live := rfl

theorem run_one_version_changing :
    changingOutcome.live.stream = [(22, true), (23, true), (24, true)] ∧
      OneVersion twoTags Prod.snd interruptedRead changingOutcome.live :=
  ⟨rfl, run_one_version .uncalled {} interruptedRead_fresh _ twoTags_injective
    (by decide) (along_of_forall _ _ _ _ fun a ha _ => changingAttempts_versioned _ a ha)
    changingOutcome_finish⟩

end Karu
