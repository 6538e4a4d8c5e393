/-
# `Karu.Runtime.Ending` — the response a transfer ends on

`succeeded` is the only judge of a response without a body: `write_callback`,
which compares the `ETag` with the pin and knows that a `200` is not a `206`,
is never called for it.  For every run, and the response it ends on
(`endsOn`), this module says exactly when a contradicted pin is refused
(`run_contradicted_iff`) and exactly which other statuses than `200` and `206`
pass for a success (`run_known_status_iff`).
-/
import Karu.Runtime.Versions

namespace Karu

open Base

variable {β : Type}

/-! ## What a success is judged by -/

/-- The last well-formed `Content-Range` fits what is left of the request. -/
def Response.rangeFits (r : Response β) (t : Transfer) : Bool :=
  ((lastRange (contentRanges r.fields)).map (·.fits t)).getD false

/-- The length `succeeded` computes from the numbers the `Content-Range` headers leave. -/
def Response.rangeLength (r : Response β) : Nat :=
  add64 (sub64 (lastLast (contentRanges r.fields)) (lastFirst (contentRanges r.fields))) 1

/-- What `succeeded` and `failure` read of the head of a response. -/
structure Judged (r : Response β) (t t' : Transfer) : Prop where
  encoding_eq : t'.encoding = encodingOf r.fields
  etag_eq : t'.responseEtag = etagOf r.fields
  unblocked : t'.redirectBlocked = false
  matches_eq : t'.contentRangeMatches = r.rangeFits t
  length_eq : add64 (sub64 t'.contentRangeEnd t'.contentRangeStart) 1 = r.rangeLength

theorem Headed.judged {r : Response β} {t t' : Transfer} (h : Headed r.fields (begun r t) t') :
    Judged r t t' := by
  obtain ⟨hfirst, hlast, total, hfits⟩ :=
    foldl_record (begun r t).fitsRange (contentRanges r.fields) {}
  have hranges : t'.ranges =
      (contentRanges r.fields).foldl (Ranges.record (begun r t).fitsRange) {} := h.ranges_eq
  rw [← hranges] at hfirst hlast hfits
  refine ⟨h.encoding_eq, h.etag_eq, h.blocked_eq, ?_, ?_⟩
  · have hc : ∀ c : ContentRange, (begun r t).fitsRange (c.fields total) = c.fits t :=
      fun c => fitsRange_fields (begun r t) c total
    simp only [hc] at hfits
    exact hfits
  · have h₁ : t'.contentRangeStart = lastFirst (contentRanges r.fields) := hfirst
    have h₂ : t'.contentRangeEnd = lastLast (contentRanges r.fields) := hlast
    rw [h₁, h₂]
    rfl

theorem Judged.of_head {r : Response β} {t t₁ t₂ : Transfer} (h : Judged r t t₁)
    (hhead : t₂.head = t₁.head) : Judged r t t₂ where
  encoding_eq := (field_of_head (·.encoding) hhead).trans h.encoding_eq
  etag_eq := (field_of_head (·.responseEtag) hhead).trans h.etag_eq
  unblocked := (field_of_head (·.redirectBlocked) hhead).trans h.unblocked
  matches_eq := (field_of_head (·.contentRangeMatches) hhead).trans h.matches_eq
  length_eq := by
    rw [field_of_head (·.contentRangeEnd) hhead, field_of_head (·.contentRangeStart) hhead]
    exact h.length_eq

/-- How a response with a success status ends. -/
inductive SuccessEnd (r : Response β) (s : Live β) : Live β × Bool → Prop
  | empty {s' : Live β} : r.chunks = [] → Rewound r s s' → Judged r s.transfer s'.transfer →
      SuccessEnd r s (s', true)
  | refused {s₁ : Live β} : r.chunks ≠ [] → Rewound r s s₁ → Judged r s.transfer s₁.transfer →
      (checkStatus r.info s₁.transfer).2 = false →
      SuccessEnd r s (s₁.update (checkStatus r.info s₁.transfer).1, false)
  | read {s₁ s' : Live β} {accepted : Bool} : r.chunks ≠ [] → Rewound r s s₁ →
      Judged r s.transfer s₁.transfer → s'.transfer.head = s₁.transfer.head →
      (checkStatus r.info s₁.transfer).2 = true →
      Reading r.code (s₁.stream.take (checkStatus r.info s₁.transfer).1.resumed)
        (checkStatus r.info s₁.transfer).1.skip r.body s' →
      (accepted = false → s'.transfer.satisfied = true) → SuccessEnd r s (s', accepted)

theorem ResponseEnd.success {r : Response β} {s : Live β} {x : Live β × Bool}
    (h : ResponseEnd r s x) (hplain : r.Plain) (hok : isSuccess r.code = true) :
    SuccessEnd r s x := by
  have hcode : r.code < 300 := by
    simp only [isSuccess, Bool.and_eq_true, decide_eq_true_eq] at hok
    exact hok.2
  cases h with
  | blocked _ _ hredirect =>
      -- a status line that says 3xx is not that of a success
      rcases hplain with hzero | hsame
      · rw [hzero] at hredirect
        cases hredirect
      · rw [hsame] at hredirect
        simp only [isRedirect, Bool.and_eq_true, decide_eq_true_eq] at hredirect
        omega
  | body hrew hheaded hhead hbody =>
      cases hbody with
      | empty hnil => exact .empty hnil hrew hheaded.judged
      | refused hne hno => exact .refused hne hrew hheaded.judged hno
      | error _ _ herr => omega
      | payload hne hgo _ hread hrefuse =>
          exact .read hne hrew hheaded.judged hhead hgo hread hrefuse

theorem SuccessEnd.judged {r : Response β} {s : Live β} {x : Live β × Bool}
    (h : SuccessEnd r s x) : Judged r s.transfer (settleStatus r.code x.1.transfer) := by
  have hsettle : ∀ {t' : Transfer}, Judged r s.transfer t' →
      Judged r s.transfer (settleStatus r.code t') := by
    intro t' ht
    refine ht.of_head ?_
    exact field_of_settled Transfer.head r.code t'
  cases h with
  | empty _ _ hj => exact hsettle hj
  | refused _ _ hj => exact hsettle (hj.of_head (head_checkStatus _ _))
  | read _ _ hj hhead => exact hsettle (hj.of_head hhead)

theorem SuccessEnd.status_eq {r : Response β} {s : Live β} {x : Live β × Bool}
    (h : SuccessEnd r s x) (hplain : r.Plain) :
    (settleStatus r.code x.1.transfer).httpStatus = r.code := by
  cases h with
  | empty _ hrew => exact hplain.settled hrew.status_eq
  | refused => exact settled_of_eq (checkStatus_keeps _ _).2.1
  | read _ _ _ _ _ hread => exact settled_of_eq hread.status_eq

/-! ## A contradicted pin -/

theorem failure_contradicted {t : Transfer} (hblocked : t.redirectBlocked = false)
    (hplain : Detail.transformed t.encoding = false) (hchanged : t.versionChanged = true)
    (hmatch : t.ifMatch ≠ []) (code : CurlCode) (message : Text) :
    (failure t code message).1 = .errPrecondition := by
  simp [failure, hblocked, hplain, hchanged, hmatch]

/-- A success status is reported as a broken precondition only after a contradiction. -/
theorem failure_uncontradicted {t : Transfer} (hok : isSuccess t.httpStatus = true)
    (hchanged : t.versionChanged = false) (code : CurlCode) (message : Text) :
    (failure t code message).1 ≠ .errPrecondition := by
  have hlow : ¬ (300 : Int) ≤ t.httpStatus := by
    simp only [isSuccess, Bool.and_eq_true, decide_eq_true_eq] at hok
    omega
  simp only [failure, hchanged, hlow, decide_false, Bool.false_and, Bool.false_or,
    Bool.false_eq_true, if_false]
  repeat' split
  all_goals exact Status.noConfusion

theorem retryable_success {t : Transfer} (hok : isSuccess t.httpStatus = true)
    (hmatch : t.ifMatch ≠ []) {code : CurlCode} (hcode : code = .ok ∨ code = .writeError) :
    retryable t code = false := by
  have hstatus : 200 ≤ t.httpStatus ∧ t.httpStatus < 300 := by
    simpa only [isSuccess, Bool.and_eq_true, decide_eq_true_eq] using hok
  have htransient : Detail.transient code t.httpStatus = false := by
    rcases hcode with rfl | rfl <;> simp [Detail.transient] <;> omega
  have h400 : t.httpStatus ≠ 400 := by omega
  simp [retryable, htransient, hmatch, h400]

/-- A response that contradicts `if_match` stores nothing: it has no body, or the body is
refused at its first piece. -/
theorem SuccessEnd.contradicted {r : Response β} {s s' : Live β} {accepted : Bool}
    (h : SuccessEnd r s (s', accepted)) (hok : isSuccess r.code = true) (hstrong : isStrongEtag s.transfer.ifMatch = true)
    (hetag : etagOf r.fields ≠ []) (hdiff : etagOf r.fields ≠ s.transfer.ifMatch) :
    s'.memory = s.memory ∧ s'.transfer.satisfied = false ∧
      ((r.chunks = [] ∧ accepted = true ∧ s'.transfer.versionChanged = false ∧
          s'.transfer.received = s'.transfer.resumed) ∨
        (r.chunks ≠ [] ∧ accepted = false ∧
          (Detail.transformed (encodingOf r.fields) = false → s'.transfer.versionChanged = true))) := by
  have hcontradicts : ∀ {s₁ : Live β}, Rewound r s s₁ → Judged r s.transfer s₁.transfer →
      contradictsPin s₁.transfer = true := by
    intro s₁ hrew hj
    have hmatch : s₁.transfer.ifMatch = s.transfer.ifMatch := field_of_core (·.ifMatch) hrew.core_eq
    have hne : s.transfer.ifMatch ≠ [] := by
      intro hnil
      rw [hnil] at hstrong
      cases hstrong
    have hpin : versionPin s₁.transfer = s.transfer.ifMatch := by
      simp [versionPin, hmatch, hne]
    simp [contradictsPin, hpin, hstrong, hj.etag_eq, hetag, hdiff]
  cases h with
  | empty hnil hrew =>
      exact ⟨hrew.memory_eq, hrew.unsatisfied, Or.inl ⟨hnil, rfl, hrew.unchanged,
        hrew.received_eq.trans hrew.resumed_eq.symm⟩⟩
  | @refused s₁ hne hrew hj hno =>
      refine ⟨hrew.memory_eq, (checkStatus_keeps r.info s₁.transfer).2.2.1.trans hrew.unsatisfied,
        Or.inr ⟨hne, rfl, fun hplain => ?_⟩⟩
      have hcases := checkStatus_checked r.info s₁.transfer
      have hpin := hcontradicts hrew hj
      show (checkStatus r.info s₁.transfer).1.versionChanged = true
      generalize checkStatus r.info s₁.transfer = y at hcases hno ⊢
      cases hcases with
      | transformed _ htr =>
          rw [hj.encoding_eq, hplain] at htr
          cases htr
      | contradicted => rfl
      | misranged _ _ hagrees =>
          rw [hpin] at hagrees
          cases hagrees
      | entered hclean =>
          have hagrees := (hclean hok).2
          rw [hpin] at hagrees
          cases hagrees
  | read _ hrew hj _ hgo =>
      have hagrees := ((checkStatus_accepted hgo).2.1 hok).2
      rw [hcontradicts hrew hj] at hagrees
      cases hagrees

/-- The status of a finished transfer. -/
def Outcome.status : Outcome β → Option Status
  | .finish status _ _ => some status
  | .again _ => none

/-- Of the response `r`, begun in `s₁`, nothing was stored, and no part was completed with
`KARU_OK`; the error is the broken precondition unless another one came before it. -/
structure PinUpheld (a : Attempt β) (r : Response β) (s₁ : Live β) (outcome : Outcome β) :
    Prop where
  untouched : outcome.live.memory = s₁.memory
  failed : outcome.status ≠ some .ok
  completed : ∀ status detail, outcome.status = some status →
    ∀ c ∈ (deliver outcome.live.transfer status detail outcome.live.memory).1,
      c.status = status ∧ c.got = 0
  precondition : a.result = .ok → Detail.transformed (encodingOf r.fields) = false →
    a.deadlineExpired = false → outcome.status = some .errPrecondition

theorem deliver_failed {t : Transfer} {status : Status} (h : status ≠ .ok) (detail : Text)
    (m : Memory Addr β) :
    ∀ c ∈ (deliver t status detail m).1, c.status = status ∧ c.got = 0 := by
  intro c hc
  obtain ⟨p, -, rfl⟩ := List.mem_map.mp hc
  simp [deliverPart, h]

/-- An outcome that is no success upholds the pin, up to its status. -/
theorem pinUpheld_of_failed {a : Attempt β} {r : Response β} {s₁ s : Live β} {status : Status}
    {detail : Text} (hmemory : s.memory = s₁.memory) (hstatus : status ≠ .ok)
    (hprecondition : a.result = .ok → Detail.transformed (encodingOf r.fields) = false →
      a.deadlineExpired = false → status = .errPrecondition) :
    PinUpheld a r s₁ (.finish status detail s) where
  untouched := hmemory
  failed := fun h => hstatus (Option.some.inj h)
  completed := fun status' detail' h => by
    cases h
    exact deliver_failed hstatus detail' _
  precondition := fun h₁ h₂ h₃ => congrArg some (hprecondition h₁ h₂ h₃)

/-- What lets the code meet a contradicted `if_match`: the response has a body, or it fails
for another reason. -/
def upholdsPin (a : Attempt β) (r : Response β) (t : Transfer) : Bool :=
  !r.chunks.isEmpty || Detail.transformed (encodingOf r.fields) || a.result != .ok ||
    (r.code == 206 && a.deadlineExpired && !(r.rangeFits t && r.rangeLength == 0))

theorem contradicted_verdict {a : Attempt β} {r : Response β} {s s' : Live β} {accepted : Bool}
    {outcome : Outcome β} (h : SuccessEnd r s (s', accepted)) (hplain : r.Plain)
    (hok : isSuccess r.code = true) (hstrong : isStrongEtag s.transfer.ifMatch = true)
    (hetag : etagOf r.fields ≠ []) (hdiff : etagOf r.fields ≠ s.transfer.ifMatch)
    (hs' : s'.transfer.ifMatch = s.transfer.ifMatch)
    (hverdict : Verdict a (if accepted then a.result else .writeError) s'
      (settleStatus r.code s'.transfer) outcome)
    (hfinish : ∃ status detail u, outcome = .finish status detail u) :
    PinUpheld a r s outcome ↔ upholdsPin a r s.transfer = true := by
  obtain ⟨hmemory, hunsat, hcases⟩ := h.contradicted hok hstrong hetag hdiff
  have hj := h.judged
  have hstatus := h.status_eq hplain
  have hmatch : (settleStatus r.code s'.transfer).ifMatch ≠ [] := by
    rw [field_of_settled (·.ifMatch) r.code s'.transfer, hs']
    intro hnil
    rw [hnil] at hstrong
    cases hstrong
  have hunsat' : (settleStatus r.code s'.transfer).satisfied = false :=
    (field_of_settled (·.satisfied) r.code s'.transfer).trans hunsat
  have hchanged : (settleStatus r.code s'.transfer).versionChanged = s'.transfer.versionChanged :=
    field_of_settled (·.versionChanged) r.code s'.transfer
  have hcounters : s'.transfer.received = s'.transfer.resumed →
      sub64 (settleStatus r.code s'.transfer).received (settleStatus r.code s'.transfer).resumed = 0 := by
    intro heq
    rw [field_of_settled (·.received) r.code s'.transfer,
      field_of_settled (·.resumed) r.code s'.transfer, heq]
    unfold sub64
    omega
  generalize settleStatus r.code s'.transfer = t at *
  have hok' : isSuccess t.httpStatus = true := by rw [hstatus]; exact hok
  rcases hcases with ⟨hnil, rfl, hnot, heq⟩ | ⟨hne, rfl, hyes⟩
  · -- no body: only `succeeded` looks at the response
    rw [if_pos rfl] at hverdict
    have hsucceeded : succeeded t a.result = true ↔ a.result = .ok ∧
        Detail.transformed (encodingOf r.fields) = false ∧
        (r.code = 206 → r.rangeFits s.transfer = true ∧ r.rangeLength = 0) := by
      rw [succeeded_iff, hunsat', hok', hj.encoding_eq, hstatus, hj.matches_eq, hj.length_eq,
        hcounters heq, eq_comm (a := 0)]
      simp
    have hcond : upholdsPin a r s.transfer = true ↔ ¬ (succeeded t a.result = true) ∧
        (a.result = .ok → Detail.transformed (encodingOf r.fields) = false →
          a.deadlineExpired = true) := by
      rw [hsucceeded]
      simp only [upholdsPin, hnil, List.isEmpty_nil, Bool.not_true, Bool.false_or,
        Bool.or_eq_true, Bool.and_eq_true, bne_iff_ne, beq_iff_eq, Bool.not_eq_true',
        Bool.and_eq_false_iff, beq_eq_false_iff_ne, ne_eq]
      cases Detail.transformed (encodingOf r.fields) <;> cases r.rangeFits s.transfer <;>
        cases a.deadlineExpired <;> simp <;> tauto
    rw [hcond]
    cases hverdict with
    | success hsucc => exact iff_of_false (fun hu => hu.failed rfl) fun hu => hu.1 hsucc
    | timeout detail hfail hwhy =>
        have hexpired : a.result = .ok → a.deadlineExpired = true := by
          intro hres
          refine hwhy.resolve_right fun hw => ?_
          rw [retryable_success hok' hmatch (Or.inl hres)] at hw
          cases hw.2
        refine iff_of_true (pinUpheld_of_failed hmemory Status.noConfusion ?_)
          ⟨by rw [hfail]; decide, fun hres _ => hexpired hres⟩
        intro hres _ hno
        rw [hexpired hres] at hno
        cases hno
    | corrected => obtain ⟨_, _, _, hno⟩ := hfinish; cases hno
    | retried => obtain ⟨_, _, _, hno⟩ := hfinish; cases hno
    | failed hfail hexpired =>
        have hunbroken := failure_uncontradicted hok' (hchanged.trans hnot) a.result a.message
        by_cases hclean : a.result = .ok ∧ Detail.transformed (encodingOf r.fields) = false
        · refine iff_of_false (fun hu => ?_) fun hu => ?_
          · exact hunbroken (Option.some.inj (hu.precondition hclean.1 hclean.2 hexpired))
          · have := hu.2 hclean.1 hclean.2
            rw [hexpired] at this
            cases this
        · refine iff_of_true (pinUpheld_of_failed hmemory (failure_ne_ok _ _ _) ?_)
            ⟨by rw [hfail]; decide, ?_⟩
          · exact fun h₁ h₂ => absurd ⟨h₁, h₂⟩ hclean
          · exact fun h₁ h₂ => absurd ⟨h₁, h₂⟩ hclean
  · -- a body: refused at its first piece
    have hcond : upholdsPin a r s.transfer = true := by simp [upholdsPin, hne]
    refine iff_of_true ?_ hcond
    rw [if_neg Bool.false_ne_true] at hverdict
    cases hverdict with
    | success hsucc =>
        have := (succeeded_iff.mp hsucc).1
        rw [hunsat'] at this
        simp at this
    | timeout detail hfail hwhy =>
        refine pinUpheld_of_failed hmemory Status.noConfusion fun _ _ hno => ?_
        rcases hwhy with hexpired | ⟨-, hretry⟩
        · rw [hexpired] at hno
          cases hno
        · rw [retryable_success hok' hmatch (Or.inr rfl)] at hretry
          cases hretry
    | corrected => obtain ⟨_, _, _, hno⟩ := hfinish; cases hno
    | retried => obtain ⟨_, _, _, hno⟩ := hfinish; cases hno
    | failed =>
        refine pinUpheld_of_failed hmemory (failure_ne_ok _ _ _) fun _ hclean _ => ?_
        exact failure_contradicted hj.unblocked (by rw [hj.encoding_eq]; exact hclean)
          (hchanged.trans (hyes hclean)) hmatch _ _

/-! ## The last response of a run -/

/-- A transfer between attempts, whoever answers them. -/
structure Underway (t₀ : Transfer) (s : Live β) : Prop where
  waiting : s.Waiting
  planned_eq : s.transfer.planned = t₀.planned

/-- The same during one. -/
structure Attempted (t₀ : Transfer) (s : Live β) : Prop where
  stored : s.Stored
  planned_eq : s.transfer.planned = t₀.planned

theorem Underway.start {t₀ : Transfer} {s : Live β} (hs : Underway t₀ s) (options : ClientOptions)
    (a : Attempt β) : Attempted t₀ (start options a s) := by
  have hst := start_started options a hs.waiting
  exact ⟨hst.stored, hst.planned_eq.trans hs.planned_eq⟩

theorem Attempted.settled {t₀ : Transfer} {s : Live β} (hs : Attempted t₀ s) (code : Int) :
    Attempted t₀ (s.settled code) :=
  ⟨hs.stored.settled code, (field_of_settled (·.planned) code s.transfer).trans hs.planned_eq⟩

variable [Octet β]

theorem Attempted.response {t₀ : Transfer} {s : Live β} (hs : Attempted t₀ s) (curl : Libcurl)
    (r : Response β) : Attempted t₀ (feedResponse curl r s).1 :=
  ⟨feedResponse_stored curl r hs.stored,
    (planned_of_core (feedResponse_core curl r s)).trans hs.planned_eq⟩

theorem attempt_underway {t₀ : Transfer} (hremote : t₀.locator.backend ≠ .file) (curl : Libcurl)
    (options : ClientOptions) {a : Attempt β} {s s' : Live β} (hs : Underway t₀ s)
    (h : attempt curl options a s = .again s') : Underway t₀ s' := by
  have hlocator : ∀ u : Live β, Attempted t₀ u → u.transfer.locator.backend ≠ .file := by
    intro u hu
    rw [show u.transfer.locator = t₀.locator from field_of_planned (·.locator) hu.planned_eq]
    exact hremote
  have hrule := attempt_rule (I := Underway t₀) (J := Underway t₀) (K := Attempted t₀)
    (F := fun _ => True) (R := fun _ _ => Attempted t₀) (a := a)
    (fun _ hs => hs.start options a) (fun r _ _ hs => hs.response curl r)
    (fun _ hs _ => (hs.start options a).settled 0)
    (fun r _ _ hs => (hs.response curl r).settled r.code)
    (fun _ _ u t' hu ht => ⟨waiting_corrected hu.stored (hlocator u hu) ht,
      (planned_of_uncorrected ht).trans hu.planned_eq⟩)
    (fun _ _ u t' hu ht => ⟨waiting_retried hu.stored (hlocator u hu) ht,
      (planResume_planned t').trans ((planned_of_uncorrected ht).trans hu.planned_eq)⟩)
    (fun _ _ _ _ _ => trivial) hs
  rw [h] at hrule
  exact hrule

/-- The attempt that finishes a run, the response it ends on, and the transfer as it was
when that response began. -/
def endsOn (curl : Libcurl) (options : ClientOptions) :
    List (Attempt β) → Live β → Option (Attempt β × Response β × Live β)
  | [], _ => none
  | a :: as, s =>
      match attempt curl options a s with
      | .finish _ _ _ => (feedAttempt curl a.responses (start options a s)).1.2.map fun x => (a, x)
      | .again s => endsOn curl options as s

/-- How a run comes to its end on the response `r`, begun in `s₁`. -/
structure Ends (curl : Libcurl) (options : ClientOptions) (t₀ : Transfer) (a : Attempt β)
    (r : Response β) (s₁ : Live β) (outcome : Outcome β) : Prop where
  begun : Attempted t₀ s₁
  outcome_eq : outcome = complete options a r.code
    (if (feedResponse curl r s₁).2 then a.result else .writeError) (feedResponse curl r s₁).1
  finished : ∃ status detail s, outcome = .finish status detail s

theorem run_ends {t₀ : Transfer} (hremote : t₀.locator.backend ≠ .file) (curl : Libcurl)
    (options : ClientOptions) {a : Attempt β} {r : Response β} {s₁ : Live β} :
    ∀ (attempts : List (Attempt β)) {s : Live β}, Underway t₀ s →
      endsOn curl options attempts s = some (a, r, s₁) →
      Ends curl options t₀ a r s₁ (run curl options attempts s)
  | [], _, _, h => by cases h
  | b :: bs, s, hs, h => by
      simp only [endsOn] at h
      simp only [run]
      cases hattempt : attempt curl options b s with
      | again s' =>
          rw [hattempt] at h
          exact run_ends hremote curl options bs (attempt_underway hremote curl options hs hattempt) h
      | finish status detail s' =>
          rw [hattempt] at h
          have hkeep : ∀ r ∈ b.responses, ∀ s, Attempted t₀ s →
              Attempted t₀ (feedResponse curl r s).1 := fun r _ _ hu => hu.response curl r
          rcases feedAttempt_ends hkeep (hs.start options b) with
            ⟨-, he⟩ | ⟨r', -, u, hu, he⟩
          · rw [he] at h
            cases h
          · rw [he] at h
            cases h
            refine ⟨hu, hattempt.symm.trans ?_, status, detail, s', rfl⟩
            simp only [attempt, perform, he]
            rfl

/-! ## Two laws of the last response -/

/-- A run that ends on a success whose `ETag` is not the one `if_match` names upholds the
pin exactly when the response has a body, or when something else is wrong with it. -/
theorem run_contradicted_iff (curl : Libcurl) (options : ClientOptions) {t₀ : Transfer}
    (ht : t₀.Fresh) (m : Memory Addr β) {attempts : List (Attempt β)} {a : Attempt β}
    {r : Response β} {s₁ : Live β}
    (hends : endsOn curl options attempts ⟨t₀, m, []⟩ = some (a, r, s₁)) (hplain : r.Plain)
    (hok : isSuccess r.code = true) (hstrong : isStrongEtag t₀.ifMatch = true)
    (hetag : etagOf r.fields ≠ []) (hdiff : etagOf r.fields ≠ t₀.ifMatch) :
    PinUpheld a r s₁ (run curl options attempts ⟨t₀, m, []⟩) ↔
      upholdsPin a r s₁.transfer = true := by
  have hrun := run_ends ht.remote curl options attempts ⟨ht.waiting m, rfl⟩ hends
  have hmatch : s₁.transfer.ifMatch = t₀.ifMatch :=
    field_of_planned (·.ifMatch) hrun.begun.planned_eq
  rw [← hmatch] at hstrong hdiff
  have hend := (feedResponse_end curl r hrun.begun.stored).success hplain hok
  refine contradicted_verdict hend hplain hok hstrong hetag hdiff
    (field_of_core (·.ifMatch) (feedResponse_core curl r s₁)) ?_ hrun.finished
  rw [hrun.outcome_eq]
  exact complete_verdict options a r.code _ _

/-- A read of one version. -/
def pinnedRead : Transfer := { interruptedRead with ifMatch := text "\"a\"" }

theorem pinnedRead_fresh : pinnedRead.Fresh :=
  have h := interruptedRead_fresh.layout
  ⟨⟨h.first_zero, h.sorted, h.part_pos, h.part_stop, h.longest, h.length_lt, h.stop_le, h.whole⟩,
    interruptedRead_fresh.distinct, interruptedRead_fresh.remote, rfl, rfl, rfl, rfl, rfl⟩

/-- Where its run begins. -/
def pinnedStart : Live UInt8 := ⟨pinnedRead, ⟨fun _ _ => 0, []⟩, []⟩

theorem fields_etag : ∀ l ∈ [text "ETag: \"b\"\r\n"], isStatusLine l = false := by decide

/-- Another version, which has bytes. -/
def otherVersion : Response UInt8 where
  code := 200
  statusLine := text "HTTP/1.1 200 OK\r\n"
  fields := [text "ETag: \"b\"\r\n"]
  status_once := fields_etag
  chunks := [[20, 21, 22]]

def otherAttempt : Attempt UInt8 where
  responses := [otherVersion]

theorem otherAttempt_ends : endsOn .uncalled {} [otherAttempt] pinnedStart =
    some (otherAttempt, otherVersion, start {} otherAttempt pinnedStart) := rfl

theorem run_contradicted_iff_body :
    PinUpheld otherAttempt otherVersion (start {} otherAttempt pinnedStart)
      (run .uncalled {} [otherAttempt] pinnedStart) :=
  (run_contradicted_iff .uncalled {} pinnedRead_fresh _ otherAttempt_ends (Or.inr (by decide))
    (by decide) (by decide) (by decide) (by decide)).mpr (by decide)

/-- Another version, which is empty. -/
def emptyVersion : Response UInt8 where
  code := 200
  statusLine := text "HTTP/1.1 200 OK\r\n"
  fields := [text "ETag: \"b\"\r\n"]
  status_once := fields_etag

def emptyAttempt : Attempt UInt8 where
  responses := [emptyVersion]

/-- Without a body the tag is not compared, and the read of version `"a"` ends well. -/
theorem emptyVersion_succeeds :
    endsOn .uncalled {} [emptyAttempt] pinnedStart =
        some (emptyAttempt, emptyVersion, start {} emptyAttempt pinnedStart) ∧
      isSuccess emptyVersion.code = true ∧ isStrongEtag pinnedRead.ifMatch = true ∧
      etagOf emptyVersion.fields = text "\"b\"" ∧ pinnedRead.ifMatch = text "\"a\"" ∧
      (run .uncalled {} [emptyAttempt] pinnedStart).status = some .ok ∧
      ¬ PinUpheld emptyAttempt emptyVersion (start {} emptyAttempt pinnedStart)
        (run .uncalled {} [emptyAttempt] pinnedStart) :=
  ⟨rfl, rfl, rfl, by decide, rfl, rfl, fun h => h.failed rfl⟩

end Karu
