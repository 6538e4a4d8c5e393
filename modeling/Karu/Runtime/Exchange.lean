/-
# `Karu.Runtime.Exchange` — responses, attempts and runs as wholes

The pieces put together: how one response ends (`ResponseEnd`), what an attempt
comes to (`Verdict`), and the two rules by which a property is carried through
an attempt and through a run.  Nothing here assumes anything about a server.
-/
import Karu.Runtime.Head

namespace Karu

open Base

variable {β : Type}

/-! ## The verdict -/

/-- The transfer without what a correction or the count of attempts writes. -/
def Transfer.uncorrected (t : Transfer) : Transfer :=
  { t with
    regionHint := [], responseRegion := [], regionRetried := false, credentialsRetried := false,
    credentialsReady := false, attempt := 0, unreachableAttempts := 0 }

theorem field_of_uncorrected {γ : Type} (f : Transfer → γ) {t t' : Transfer}
    (h : t'.uncorrected = t.uncorrected)
    (hf : ∀ t : Transfer, f t.uncorrected = f t := by intro; rfl) : f t' = f t :=
  (hf t').symm.trans ((congrArg f h).trans (hf t))

/-- Everything `io_loop` can decide. -/
inductive Verdict (a : Attempt β) (result : CurlCode) (s : Live β) (t : Transfer) :
    Outcome β → Prop
  | success : succeeded t result = true → Verdict a result s t (.finish .ok [] { s with transfer := t })
  | timeout (detail : Text) {t' : Transfer} : succeeded t result = false →
      (a.deadlineExpired = true ∨ a.canWait = false ∧ retryable t result = true) →
      Verdict a result s t (.finish .timeout detail { s with transfer := t' })
  | corrected {t' : Transfer} : succeeded t result = false → t'.uncorrected = t.uncorrected →
      Verdict a result s t (.again { s with transfer := t' })
  | retried {t' : Transfer} : succeeded t result = false → t'.uncorrected = t.uncorrected →
      Verdict a result s t (.again { s with transfer := planResume t' })
  | failed {t' : Transfer} : succeeded t result = false → a.deadlineExpired = false →
      Verdict a result s t (.finish (failure t result a.message).1 (failure t result a.message).2
        { s with transfer := t' })

theorem retryOrFail_verdict (options : ClientOptions) (a : Attempt β) {result : CurlCode}
    {s : Live β} {t u : Transfer} (hs : succeeded t result = false)
    (hd : a.deadlineExpired = false) (hu : u.uncorrected = t.uncorrected) :
    Verdict a result s t (retryOrFail options a result s u) := by
  simp only [retryOrFail]
  generalize hu' : (if unreachable result then
    { u with unreachableAttempts := u.unreachableAttempts + 1 } else u) = u'
  have hsame : u'.uncorrected = t.uncorrected := by
    rw [← hu, ← hu']
    split <;> rfl
  split
  · rename_i hretry
    have hretryable : retryable t result = true := by
      rw [← field_of_uncorrected (retryable · result) hsame]
      exact hretry.2.2
    split
    · exact .retried hs hsame
    · rename_i hwait
      exact .timeout _ hs (Or.inr ⟨by simpa using hwait, hretryable⟩)
  · rw [field_of_uncorrected (failure · result a.message) hsame]
    exact .failed hs hd

theorem complete_verdict (options : ClientOptions) (a : Attempt β) (code : Int)
    (result : CurlCode) (s : Live β) :
    Verdict a result s (settleStatus code s.transfer) (complete options a code result s) := by
  simp only [complete]
  split
  · exact .success ‹_›
  · rename_i hs
    have hs : succeeded (settleStatus code s.transfer) result = false := by simpa using hs
    split
    · exact .timeout _ hs (Or.inl ‹_›)
    · rename_i hd
      have hregion : (readRegion (settleStatus code s.transfer)).uncorrected =
          (settleStatus code s.transfer).uncorrected := by
        unfold readRegion
        split <;> rfl
      split
      · exact .corrected hs hregion
      · split
        · exact .corrected hs hregion
        · exact retryOrFail_verdict options a hs (by simpa using hd) hregion

/-- The transfer with the status the message loop takes it to have. -/
def Live.settled (s : Live β) (code : Int) : Live β :=
  { s with transfer := settleStatus code s.transfer }

/-- The transfer without its status. -/
def Transfer.statusless (t : Transfer) : Transfer := { t with httpStatus := 0 }

theorem field_of_settled {γ : Type} (f : Transfer → γ) (code : Int) (t : Transfer)
    (hf : ∀ t : Transfer, f t.statusless = f t := by intro; rfl) :
    f (settleStatus code t) = f t := by
  have h : (settleStatus code t).statusless = t.statusless := by
    unfold settleStatus
    split <;> rfl
  exact (hf _).symm.trans ((congrArg f h).trans (hf t))

theorem settled_of_eq {t : Transfer} {code : Int} (h : t.httpStatus = code) :
    (settleStatus code t).httpStatus = code := by
  unfold settleStatus
  split
  · rfl
  · exact h

/-- karu reads the status line as libcurl does, or not at all. -/
def Response.Plain (r : Response β) : Prop :=
  responseStatus r.statusLine = 0 ∨ responseStatus r.statusLine = r.code

/-- The status the message loop sees is libcurl's. -/
theorem Response.Plain.settled {r : Response β} (h : r.Plain) {t : Transfer}
    (ht : t.httpStatus = responseStatus r.statusLine) :
    (settleStatus r.code t).httpStatus = r.code := by
  unfold settleStatus
  split
  · rfl
  · rename_i hne
    rw [ht] at hne ⊢
    exact h.resolve_left hne

theorem Live.Stored.settled {s : Live β} (h : s.Stored) (code : Int) : (s.settled code).Stored := by
  have hreceived : (settleStatus code s.transfer).received = s.transfer.received :=
    field_of_settled (·.received) code s.transfer
  have hresumed : (settleStatus code s.transfer).resumed = s.transfer.resumed :=
    field_of_settled (·.resumed) code s.transfer
  have hcursor : (settleStatus code s.transfer).scatterCursor = s.transfer.scatterCursor :=
    field_of_settled (·.scatterCursor) code s.transfer
  refine ⟨h.toPlaced.congr rfl rfl (field_of_settled (·.plan) code s.transfer) hresumed hreceived
    hcursor, ?_, ?_⟩
  · show (settleStatus code s.transfer).satisfied = true ↔
      (settleStatus code s.transfer).received = (settleStatus code s.transfer).length
    rw [hreceived, field_of_settled (·.satisfied) code s.transfer,
      field_of_settled (·.length) code s.transfer]
    exact h.satisfied_iff
  · show (settleStatus code s.transfer).checkedStatus = false →
      (settleStatus code s.transfer).received = (settleStatus code s.transfer).resumed ∧
        (settleStatus code s.transfer).scatterCursor = 0 ∧ (settleStatus code s.transfer).skip = 0
    rw [hreceived, hresumed, hcursor, field_of_settled (·.checkedStatus) code s.transfer,
      field_of_settled (·.skip) code s.transfer]
    exact h.fresh

/-! ## Resuming -/

/-- Everything `plan_resume` can decide. -/
inductive Resumes (t : Transfer) : Transfer → Prop
  | dropped : (t.ifMatch ≠ [] ∧ isStrongEtag t.ifMatch = false ∨ t.versionChanged = true ∨
      t.httpStatus = 412 ∧ t.ifMatch = []) → Resumes t { t with resumed := 0, resumeEtag := [] }
  | same : (t.ifMatch ≠ [] → isStrongEtag t.ifMatch = true) → t.versionChanged = false → Resumes t t
  | unpinned : t.ifMatch = [] → t.resumeEtag = [] → t.responseEtag = [] →
      Resumes t { t with resumed := 0 }
  | pinned : t.httpStatus = 200 ∨ t.httpStatus = 206 → t.resumed < t.received →
      t.received < t.length → t.versionChanged = false → t.ifMatch = [] → t.resumeEtag = [] →
      t.responseEtag ≠ [] →
      Resumes t { t with resumeEtag := t.responseEtag, resumed := t.received }
  | extended : t.httpStatus = 200 ∨ t.httpStatus = 206 → t.resumed < t.received →
      t.received < t.length → t.versionChanged = false →
      (t.ifMatch ≠ [] → isStrongEtag t.ifMatch = true) → versionPin t ≠ [] →
      Resumes t { t with resumed := t.received }

theorem planResume_resumes (t : Transfer) : Resumes t (planResume t) := by
  unfold planResume
  split
  · rename_i h
    exact .dropped (Or.inl (by simpa using h))
  · rename_i hstrong
    have hstrong : t.ifMatch ≠ [] → isStrongEtag t.ifMatch = true := by simpa using hstrong
    split
    · rename_i h
      exact .dropped (Or.inr (by simpa using h))
    · rename_i hchange
      simp only [Bool.or_eq_true, not_or, Bool.not_eq_true] at hchange
      split
      · exact .same hstrong hchange.1
      · rename_i hdata
        simp only [Bool.or_eq_true, not_or, Bool.not_eq_true',
          decide_eq_true_eq, Bool.or_eq_false_iff, beq_eq_false_iff_ne] at hdata
        have hstatus : t.httpStatus = 200 ∨ t.httpStatus = 206 := by
          by_contra hno
          rw [not_or] at hno
          exact hdata.1.1 hno
        split
        · rename_i hpin
          simp only [Bool.and_eq_true, List.isEmpty_iff] at hpin
          split
          · rename_i hetag
            exact .unpinned hpin.1 hpin.2 (by simpa using hetag)
          · rename_i hetag
            exact .pinned hstatus (by omega) (by omega) hchange.1 hpin.1 hpin.2
              (by simpa using hetag)
        · rename_i hpin
          refine .extended hstatus (by omega) (by omega) hchange.1 hstrong ?_
          simp only [Bool.and_eq_true, List.isEmpty_iff, not_and] at hpin
          unfold versionPin
          split
          · rename_i hempty
            exact hpin (by simpa using hempty)
          · rename_i hempty
            simpa using hempty

/-! ## Between attempts -/

/-- What the planner decided about a transfer, which nothing ever changes. -/
def Transfer.planned (t : Transfer) : Transfer := { t.plan with sink := .null }

theorem field_of_planned {γ : Type} (f : Transfer → γ) {t t' : Transfer}
    (h : t'.planned = t.planned)
    (hf : ∀ t : Transfer, f t.planned = f t := by intro; rfl) : f t' = f t :=
  (hf t').symm.trans ((congrArg f h).trans (hf t))

theorem planned_of_core {t t' : Transfer} (h : t'.core = t.core) : t'.planned = t.planned :=
  field_of_core Transfer.planned h

theorem planned_of_uncorrected {t t' : Transfer} (h : t'.uncorrected = t.uncorrected) :
    t'.planned = t.planned :=
  field_of_uncorrected Transfer.planned h

/-- A transfer to be started: what `Placed` says, before its sink is set. -/
structure Live.Waiting (s : Live β) : Prop where
  layout : s.transfer.Layout
  distinct : s.transfer.parts.Pairwise Part.Apart
  remote : s.transfer.locator.backend ≠ .file
  sink : ∀ p, s.transfer.parts = [p] → s.transfer.scattered = false →
    s.transfer.sink = .null ∨ s.transfer.sink = p.buffer
  resumed_lt : s.transfer.resumed < s.transfer.length
  resumed_le : s.transfer.resumed ≤ s.transfer.received
  received_le : s.transfer.received ≤ s.transfer.length
  stream_length : s.stream.length = s.transfer.received
  cells : ∀ p ∈ s.transfer.parts, ∀ i < s.transfer.received, p.relativeOffset ≤ i →
    i < p.relativeOffset + p.length →
    s.stream[i]? = some (s.memory.cell p.buffer (i - p.relativeOffset))

/-- A remote transfer as it leaves the planner, with a buffer of its own for every part. -/
structure Transfer.Fresh (t : Transfer) : Prop where
  layout : t.Layout
  distinct : t.parts.Pairwise Part.Apart
  remote : t.locator.backend ≠ .file
  sink_eq : t.sink = .null
  scratch_eq : t.scratch = 0
  resumed_eq : t.resumed = 0
  received_eq : t.received = 0
  resumeEtag_eq : t.resumeEtag = []

theorem Transfer.Fresh.waiting {t : Transfer} (h : t.Fresh) (m : Memory Addr β) :
    Live.Waiting ⟨t, m, []⟩ where
  layout := h.layout
  distinct := h.distinct
  remote := h.remote
  sink := fun _ _ _ => Or.inl h.sink_eq
  resumed_lt := by
    obtain ⟨p, hp, hlen⟩ := h.layout.longest
    have := h.layout.part_pos p hp
    have := h.resumed_eq
    show t.resumed < t.length
    omega
  resumed_le := by
    show t.resumed ≤ t.received
    rw [h.resumed_eq, h.received_eq]
  received_le := by
    show t.received ≤ t.length
    rw [h.received_eq]
    exact Nat.zero_le _
  stream_length := h.received_eq.symm
  cells := by
    intro p _ i hi
    have hi : i < t.received := hi
    rw [h.received_eq] at hi
    omega

/-- A stored transfer may wait, with no more kept than it has. -/
theorem Live.Placed.waiting {s : Live β} (h : s.Placed) {t : Transfer}
    (hr : s.transfer.locator.backend ≠ .file) (hplan : t.plan = s.transfer.plan)
    (hreceived : t.received = s.transfer.received) (hresumed : t.resumed ≤ t.received)
    (hlt : t.resumed < t.length) : Live.Waiting { s with transfer := t } := by
  have hparts : t.parts = s.transfer.parts := field_of_plan (·.parts) hplan
  have hlength : t.length = s.transfer.length := field_of_plan (·.length) hplan
  have hsink : t.sink = s.transfer.sink := field_of_plan (·.sink) hplan
  have hscattered : t.scattered = s.transfer.scattered := field_of_plan (·.scattered) hplan
  refine ⟨layout_of_plan hplan h.layout, ?_, ?_, ?_, hlt, hresumed, ?_, ?_, ?_⟩
  · simpa only [hparts] using h.distinct
  · show t.locator.backend ≠ .file
    rw [show t.locator = s.transfer.locator from field_of_plan (·.locator) hplan]
    exact hr
  · intro p hp hs
    refine Or.inr ?_
    show t.sink = p.buffer
    rw [hsink]
    exact h.sink p (hparts ▸ hp) (hscattered ▸ hs)
  · show t.received ≤ t.length
    rw [hreceived, hlength]
    exact h.received_le
  · show s.stream.length = t.received
    rw [hreceived]
    exact h.stream_length
  · intro p hp i hi h₁ h₂
    exact h.cells p (hparts ▸ hp) i (hreceived ▸ hi) h₁ h₂

/-- The transfer as an attempt finds it. -/
structure Started (s s' : Live β) : Prop where
  stored : s'.Stored
  memory_eq : s'.memory = s.memory
  stream_eq : s'.stream = s.stream.take s.transfer.resumed
  planned_eq : s'.transfer.planned = s.transfer.planned
  resumed_eq : s'.transfer.resumed = s.transfer.resumed
  received_eq : s'.transfer.received = s.transfer.resumed
  resumeEtag_eq : s'.transfer.resumeEtag = s.transfer.resumeEtag
  status_eq : s'.transfer.httpStatus = 0

theorem ensureSink_remote {t : Transfer} (h : t.locator.backend ≠ .file) :
    ∃ sink, (ensureSink true t).1 = { t with sink := sink } ∧
      ∀ p, t.parts = [p] → t.scattered = false → t.sink = .null ∨ t.sink = p.buffer →
        sink = p.buffer := by
  unfold ensureSink
  split
  · rename_i hset
    exact ⟨t.sink, rfl, fun p _ _ h => h.resolve_left hset⟩
  · split
    · exact ⟨_, rfl, fun p hp _ _ => by simp [hp]⟩
    · rename_i hscattered
      exact ⟨t.sink, by simp, fun p _ hs _ => absurd hs (by simpa using hscattered)⟩

theorem start_started (options : ClientOptions) (a : Attempt β) {s : Live β} (h : s.Waiting) :
    Started s (start options a s) := by
  obtain ⟨sink, hsink, hbuffer⟩ := ensureSink_remote h.remote
  -- the request of the attempt is no concern of the callbacks
  have hstart : ∃ hint, start options a s = s.update (configure options.rangeFallbackLimit
      { s.transfer with
        sink := sink, regionHint := hint, requestUrl := a.requestUrl, http := a.http }) := by
    simp only [start, hsink]
    split
    · exact ⟨_, rfl⟩
    · exact ⟨_, rfl⟩
  obtain ⟨hint, hstart⟩ := hstart
  rw [hstart]
  have hlt := h.resumed_lt
  have hle := h.resumed_le
  have hlen : (s.stream.take s.transfer.resumed).length = s.transfer.resumed := by
    rw [List.length_take, h.stream_length]
    omega
  refine ⟨⟨⟨?_, h.distinct, fun p hp hs => hbuffer p hp hs (h.sink p hp hs), hlt, le_rfl, hlt.le,
    hlen, ?_, ?_⟩, iff_of_false Bool.false_ne_true hlt.ne, fun _ => ⟨rfl, rfl, rfl⟩⟩,
    rfl, rfl, rfl, rfl, rfl, rfl, rfl⟩
  · exact ⟨h.layout.first_zero, h.layout.sorted, h.layout.part_pos, h.layout.part_stop,
      h.layout.longest, h.layout.length_lt, h.layout.stop_le, h.layout.whole⟩
  · intro p hp i hi h₁ h₂
    have hi : i < s.transfer.resumed := hi
    show (s.stream.take s.transfer.resumed)[i]? = _
    rw [List.getElem?_take_of_lt hi]
    exact h.cells p hp i (by omega) h₁ h₂
  · intro p hp
    cases hp

theorem planResume_planned (t : Transfer) : (planResume t).planned = t.planned := by
  have h := planResume_resumes t
  generalize planResume t = t' at h ⊢
  cases h <;> rfl

/-- A correction leaves a transfer that may wait. -/
theorem waiting_corrected {s : Live β} {t' : Transfer} (h : s.Stored)
    (hr : s.transfer.locator.backend ≠ .file) (ht : t'.uncorrected = s.transfer.uncorrected) :
    Live.Waiting { s with transfer := t' } := by
  have hresumed : t'.resumed = s.transfer.resumed := field_of_uncorrected (·.resumed) ht
  have hreceived : t'.received = s.transfer.received := field_of_uncorrected (·.received) ht
  have hlength : t'.length = s.transfer.length := field_of_uncorrected (·.length) ht
  refine h.toPlaced.waiting hr (field_of_uncorrected (·.plan) ht) hreceived ?_ ?_
  · rw [hresumed, hreceived]
    exact h.resumed_le
  · rw [hresumed, hlength]
    exact h.resumed_lt

/-- So does an ordinary retry. -/
theorem waiting_retried {s : Live β} {t' : Transfer} (h : s.Stored)
    (hr : s.transfer.locator.backend ≠ .file) (ht : t'.uncorrected = s.transfer.uncorrected) :
    Live.Waiting { s with transfer := planResume t' } := by
  have hresumed : t'.resumed = s.transfer.resumed := field_of_uncorrected (·.resumed) ht
  have hreceived : t'.received = s.transfer.received := field_of_uncorrected (·.received) ht
  have hlength : t'.length = s.transfer.length := field_of_uncorrected (·.length) ht
  have hplan : t'.plan = s.transfer.plan := field_of_uncorrected (·.plan) ht
  have hle := h.resumed_le
  have hlt := h.resumed_lt
  have hcases := planResume_resumes t'
  generalize planResume t' = u at hcases ⊢
  cases hcases with
  | dropped => exact h.toPlaced.waiting hr hplan hreceived (Nat.zero_le _) (by simp only; omega)
  | same => exact h.toPlaced.waiting hr hplan hreceived (by omega) (by omega)
  | unpinned => exact h.toPlaced.waiting hr hplan hreceived (Nat.zero_le _) (by simp only; omega)
  | pinned _ _ hshort => exact h.toPlaced.waiting hr hplan hreceived le_rfl hshort
  | extended _ _ hshort => exact h.toPlaced.waiting hr hplan hreceived le_rfl hshort

/-! ## One response -/

/-- How a response ends: blocked among its header lines, or in its body. -/
inductive ResponseEnd (r : Response β) (s : Live β) : Live β × Bool → Prop
  | blocked {s' : Live β} : Rewound r s s' → s'.transfer.redirectBlocked = true →
      isRedirect (responseStatus r.statusLine) = true → ResponseEnd r s (s', false)
  | body {s₁ : Live β} {x : Live β × Bool} : Rewound r s s₁ →
      Headed r.fields (begun r s.transfer) s₁.transfer → x.1.transfer.head = s₁.transfer.head →
      BodyEnd r s₁ x → ResponseEnd r s x

theorem BodyEnd.stored {r : Response β} {s : Live β} {x : Live β × Bool} (h : BodyEnd r s x)
    (hs : s.Stored) (hc : s.transfer.checkedStatus = false) : x.1.Stored := by
  cases h with
  | empty => exact hs
  | refused => exact hs.checkStatus hc r.info
  | error _ _ _ hcap => exact hcap.stored (hs.checkStatus hc r.info)
  | payload _ _ _ hread => exact hread.stored

/-- During a response, what was kept can only be given up. -/
structure Keeps (s s' : Live β) : Prop where
  resumed_le : s'.transfer.resumed ≤ s.transfer.resumed
  kept_eq : s'.stream.take s'.transfer.resumed = s.stream.take s'.transfer.resumed

theorem Keeps.trans {s₁ s₂ s₃ : Live β} (h : Keeps s₁ s₂) (h' : Keeps s₂ s₃) : Keeps s₁ s₃ := by
  refine ⟨h'.resumed_le.trans h.resumed_le, ?_⟩
  have htake : ∀ xs : List β, xs.take s₃.transfer.resumed =
      (xs.take s₂.transfer.resumed).take s₃.transfer.resumed := by
    intro xs
    rw [List.take_take, Nat.min_eq_left h'.resumed_le]
  rw [h'.kept_eq, htake s₂.stream, h.kept_eq, ← htake]

theorem Rewound.keeps {r : Response β} {s s' : Live β} (h : Rewound r s s') : Keeps s s' := by
  refine ⟨h.resumed_eq.le, ?_⟩
  rw [h.stream_eq, h.resumed_eq, List.take_take, Nat.min_self]

theorem update_keeps (info : Info) {s : Live β} (hs : s.Stored)
    (hc : s.transfer.checkedStatus = false) :
    Keeps s (s.update (checkStatus info s.transfer).1) := by
  obtain ⟨heq, hres⟩ := checkStatus_counters info (hs.fresh hc).1
  refine ⟨?_, ?_⟩
  · show (checkStatus info s.transfer).1.resumed ≤ s.transfer.resumed
    omega
  · show (s.stream.take (checkStatus info s.transfer).1.received).take
      (checkStatus info s.transfer).1.resumed = _
    rw [heq, List.take_take, Nat.min_self]
    rfl

theorem BodyEnd.keeps {r : Response β} {s : Live β} {x : Live β × Bool} (h : BodyEnd r s x)
    (hs : s.Stored) (hc : s.transfer.checkedStatus = false) : Keeps s x.1 := by
  cases h with
  | empty => exact ⟨le_rfl, rfl⟩
  | refused => exact update_keeps r.info hs hc
  | error _ _ _ hcap =>
      have hres := field_of_uncaptured (·.resumed) hcap.transfer_eq
      refine (update_keeps r.info hs hc).trans ⟨hres.le, ?_⟩
      rw [hcap.stream_eq]
  | payload _ _ _ hread =>
      obtain ⟨heq, -⟩ := checkStatus_counters r.info (hs.fresh hc).1
      have hupdate := hs.checkStatus hc r.info
      have hlen : (s.stream.take (checkStatus r.info s.transfer).1.resumed).length =
          (checkStatus r.info s.transfer).1.resumed := by
        have h := hupdate.stream_length
        simp only [Live.update] at h
        rwa [heq] at h
      have hres := hread.resumed_eq
      rw [hlen] at hres
      refine ⟨?_, ?_⟩
      · rw [hres]
        exact (update_keeps r.info hs hc).resumed_le
      · rw [hres, hread.stream_eq, List.take_append_of_le_length hlen.ge, List.take_take,
          Nat.min_self]

variable [Octet β]

theorem feed_writeCallback_head (info : Info) (chunks : List (List β)) (s : Live β) :
    (feed (writeCallback info) chunks s).1.transfer.head = s.transfer.head :=
  feed_induct (P := fun s' : Live β => s'.transfer.head = s.transfer.head)
    (fun data _ s' h => (head_writeCallback info data s').trans h) rfl

theorem feedResponse_end (curl : Libcurl) (r : Response β) {s : Live β} (hs : s.Stored) :
    ResponseEnd r s (feedResponse curl r s) := by
  have hhead := feed_headEnd curl r s
  simp only [feedResponse]
  generalize feed (feedLine curl r.now) r.lines s = x at hhead ⊢
  cases hhead with
  | opened hrew hh =>
      exact .body hrew hh (feed_writeCallback_head _ _ _)
        (feed_bodyEnd r (hrew.stored hs) hrew.unchecked hrew.unchanged)
  | blocked hrew hb hr => exact .blocked hrew hb hr

theorem feedResponse_stored (curl : Libcurl) (r : Response β) {s : Live β} (hs : s.Stored) :
    (feedResponse curl r s).1.Stored := by
  have hend := feedResponse_end curl r hs
  generalize feedResponse curl r s = x at hend ⊢
  cases hend with
  | blocked hrew => exact hrew.stored hs
  | body hrew _ _ hbody => exact hbody.stored (hrew.stored hs) hrew.unchecked

theorem feedResponse_core (curl : Libcurl) (r : Response β) (s : Live β) :
    (feedResponse curl r s).1.transfer.core = s.transfer.core := by
  have hhead := feed_headEnd curl r s
  simp only [feedResponse]
  generalize feed (feedLine curl r.now) r.lines s = x at hhead ⊢
  cases hhead with
  | opened hrew => exact (core_of_head (feed_writeCallback_head _ _ _)).trans hrew.core_eq
  | blocked hrew => exact hrew.core_eq

theorem feedResponse_keeps (curl : Libcurl) (r : Response β) {s : Live β} (hs : s.Stored) :
    Keeps s (feedResponse curl r s).1 := by
  have hend := feedResponse_end curl r hs
  generalize feedResponse curl r s = x at hend ⊢
  cases hend with
  | blocked hrew => exact hrew.keeps
  | body hrew _ _ hbody => exact hrew.keeps.trans (hbody.keeps (hrew.stored hs) hrew.unchecked)

/-! ## One attempt -/

/-- What every response preserves, the callbacks of an attempt preserve. -/
theorem feedAttempt_induct {curl : Libcurl} {responses : List (Response β)} {P : Live β → Prop}
    (hstep : ∀ r ∈ responses, ∀ s, P s → P (feedResponse curl r s).1) {s : Live β} (hs : P s) :
    P (feedAttempt curl responses s).1.1 :=
  feed_induct (P := fun x : Live β × Option (Response β × Live β) => P x.1)
    (fun r hr x hx => hstep r hr x.1 hx) hs

/-- An attempt ends on the response begun last, which was fed to a state that the ones
before it led to. -/
theorem feedAttempt_ends {curl : Libcurl} {responses : List (Response β)} {P : Live β → Prop}
    (hstep : ∀ r ∈ responses, ∀ s, P s → P (feedResponse curl r s).1) {s : Live β} (hs : P s) :
    (responses = [] ∧ feedAttempt curl responses s = ((s, none), true)) ∨
      ∃ r ∈ responses, ∃ s₁, P s₁ ∧ feedAttempt curl responses s =
        (((feedResponse curl r s₁).1, some (r, s₁)), (feedResponse curl r s₁).2) := by
  by_cases hne : responses = []
  · exact Or.inl ⟨hne, by rw [hne]; rfl⟩
  · obtain ⟨r, hr, x, hx, he⟩ := feed_ends (f := feedNext curl)
      (P := fun x : Live β × Option (Response β × Live β) => P x.1) hne
      (fun r hr x hx => hstep r hr x.1 hx) (s := (s, none)) hs
    exact Or.inr ⟨r, hr, x.1, hx, he⟩

/-- How a property is carried through one attempt.  `I` holds before it and `J` after it,
`K` between its responses; `R` is what the last response leaves. -/
theorem attempt_rule {curl : Libcurl} {options : ClientOptions} {a : Attempt β}
    {I J K F : Live β → Prop} {R : Option (Response β) → Bool → Live β → Prop}
    (hstart : ∀ s, I s → K (start options a s))
    (hkeep : ∀ r ∈ a.responses, ∀ s, K s → K (feedResponse curl r s).1)
    (hnone : ∀ s, I s → a.responses = [] → R none true ((start options a s).settled 0))
    (hpost : ∀ r ∈ a.responses, ∀ s, K s →
      R (some r) (feedResponse curl r s).2 ((feedResponse curl r s).1.settled r.code))
    (hcorrected : ∀ last accepted s (t' : Transfer), R last accepted s →
      t'.uncorrected = s.transfer.uncorrected → J { s with transfer := t' })
    (hretried : ∀ last accepted s (t' : Transfer), R last accepted s →
      t'.uncorrected = s.transfer.uncorrected → J { s with transfer := planResume t' })
    (hsuccess : ∀ last accepted s, R last accepted s →
      succeeded s.transfer (if accepted then a.result else .writeError) = true → F s)
    {s : Live β} (hs : I s) :
    match attempt curl options a s with
    | .finish status _ s' => status = .ok → F s'
    | .again s' => J s' := by
  -- what the callbacks leave, and the code and result that go with it
  obtain ⟨last, accepted, s₁, code, hcomplete, hfinal⟩ : ∃ last accepted s₁ code,
      attempt curl options a s = complete options a code
        (if accepted then a.result else .writeError) s₁ ∧
      R last accepted (s₁.settled code) := by
    rcases feedAttempt_ends hkeep (hstart s hs) with ⟨hnil, he⟩ | ⟨r, hr, s₁, hk, he⟩
    · exact ⟨none, true, start options a s, 0, by simp only [attempt, perform, he]; rfl,
        hnone s hs hnil⟩
    · exact ⟨some r, _, _, r.code, by simp only [attempt, perform, he]; rfl, hpost r hr s₁ hk⟩
  rw [hcomplete]
  have hverdict := complete_verdict options a code (if accepted then a.result else .writeError) s₁
  generalize complete options a code (if accepted then a.result else .writeError) s₁ = outcome
    at hverdict ⊢
  cases hverdict with
  | success hsucceeded => exact fun _ => hsuccess last accepted _ hfinal hsucceeded
  | timeout => exact fun h => by cases h
  | corrected _ hsame => exact hcorrected last accepted (s₁.settled code) _ hfinal hsame
  | retried _ hsame => exact hretried last accepted (s₁.settled code) _ hfinal hsame
  | failed => exact fun h => absurd h (failure_ne_ok _ _ _)

/-! ## Runs -/

/-- `Q` holds of every attempt the run comes to, with the state it begins in. -/
def Along (curl : Libcurl) (options : ClientOptions) (Q : Attempt β → Live β → Prop) :
    List (Attempt β) → Live β → Prop
  | [], _ => True
  | a :: as, s => Q a s ∧
      match attempt curl options a s with
      | .finish _ _ _ => True
      | .again s' => Along curl options Q as s'

theorem along_of_forall (curl : Libcurl) (options : ClientOptions) {Q : Attempt β → Live β → Prop} :
    ∀ (attempts : List (Attempt β)) (s : Live β), (∀ a ∈ attempts, ∀ s, Q a s) →
      Along curl options Q attempts s
  | [], _, _ => trivial
  | a :: as, s, h => by
      refine ⟨h a List.mem_cons_self s, ?_⟩
      split
      · trivial
      · exact along_of_forall curl options as _ fun b hb => h b (List.mem_cons_of_mem _ hb)

/-- A property of the states between attempts that every attempt of the run preserves or
turns into a property of its outcome. -/
theorem run_induct (curl : Libcurl) (options : ClientOptions) {Q : Attempt β → Live β → Prop}
    {J : Live β → Prop} {F : Status → Text → Live β → Prop}
    (hstep : ∀ a s, Q a s → J s →
      match attempt curl options a s with
      | .finish status detail s' => F status detail s'
      | .again s' => J s') :
    ∀ (attempts : List (Attempt β)) {s : Live β}, Along curl options Q attempts s → J s →
      match run curl options attempts s with
      | .finish status detail s' => F status detail s'
      | .again s' => J s'
  | [], _, _, hs => hs
  | a :: as, s, hq, hs => by
      have hfirst := hstep a s hq.1 hs
      have hrest := hq.2
      simp only [run]
      cases hattempt : attempt curl options a s with
      | finish status detail s' =>
          rw [hattempt] at hfirst
          exact hfirst
      | again s' =>
          rw [hattempt] at hfirst hrest
          exact run_induct curl options hstep as hrest hfirst

end Karu
