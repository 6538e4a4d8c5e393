/-
# `Karu.Client` — `src/karu.cpp`, a batch read from the call to its status

The records of a caller are checked and become the requests of the planner, and
the numbers of `karu_submit_options` replace those of the client.  A fetch takes
the completions of its batch one after another and keeps the first failure.

| source                                  | here                             |
|-----------------------------------------|----------------------------------|
| `karu_req`, `convert_requests`          | `Req`, `convertRequests`         |
| `karu_submit_options`, `submit_options` | `SubmitOptions`, `submitOptions` |
| `client_submit`                         | `clientSubmit`                   |
| `client_fetch`                          | `clientFetch`, `fetchLoop`       |

The client and the array of requests are given.  So is what `next` returns
before `KARU_END`; it waits without a limit and returns nothing else.  A text
beside a status is the one `set_error` got, and is empty where there was none.
-/
import Karu.Runtime.Coalesce

namespace Karu

open Base

/-! ## What a request is for -/

variable {β : Type}

/-- The bytes a request is for. -/
def World.bytes (w : World β) (r : Request) : List β :=
  ((w.object r.locator.backend r.locator.canonicalUri).drop
    (r.locator.windowOffset + r.offset)).take r.length

/-- A request that comes to a success comes to all of its bytes. -/
theorem World.expected_ok {w : World β} {r : Request} (h : (w.expected r).1 = .ok) :
    w.expected r = (.ok, r.length, w.bytes r) ∧ (w.bytes r).length = r.length := by
  rw [World.expected] at h ⊢
  by_cases hunsupported : r.Unsupported
  · rw [if_pos hunsupported] at h
    cases h
  · rw [if_neg hunsupported] at h ⊢
    by_cases hleaves : r.Leaves
    · rw [if_pos hleaves] at h
      cases h
    · rw [if_neg hleaves] at h ⊢
      rw [conditionalOutcome] at h ⊢
      cases hmet : w.met r.locator.backend r.locator.canonicalUri r.ifMatch with
      | false =>
          rw [hmet] at h
          cases h
      | true =>
          rw [hmet] at h
          by_cases hall : (w.bytes r).length = r.length
          · refine ⟨?_, hall⟩
            show readOutcome _ _ _ = _
            rw [readOutcome]
            exact congrArg₂ Prod.mk (if_pos hall) (congrArg₂ Prod.mk hall rfl)
          · have hshort : (if (w.bytes r).length = r.length then Status.ok else .errRange) =
                .ok := h
            rw [if_neg hall] at hshort
            cases hshort

namespace Client

/-! ## The records of a caller -/

/-- `karu_req`. -/
structure Req where
  locator : Option Resolved
  offset : Word
  length : Word
  buffer : Addr := .null
  tag : Nat := 0
  ifMatch : Option Text := none

/-- The error of a call about one of its requests. -/
def requestError (call : Text) (index : Nat) (what : Text) : Text :=
  call ++ text ": request " ++ decimal index ++ what

theorem finite_lt {length : Word} (h : length.1 ≠ toEnd) : length.1 < 2 ^ 64 - 1 := by
  have hlength := length.2
  unfold toEnd at h
  omega

/-- One turn of `convert_requests`. -/
def convertRequest (call : Text) (index : Nat) (request : Req) : Except Text Request :=
  match request.locator with
  | none => .error (requestError call index (text " has no locator"))
  | some locator =>
      if hempty : request.length.1 = 0 then
        .error (requestError call index (text " is empty"))
      else if hend : request.length.1 = toEnd then
        .error (requestError call index (text " does not have a finite length"))
      else if 13 ∈ request.ifMatch.getD [] ∨ 10 ∈ request.ifMatch.getD [] then
        .error (requestError call index (text " has an invalid ETag"))
      else
        .ok {
          locator := locator
          offset := request.offset.1
          length := request.length.1
          buffer := request.buffer
          tag := request.tag
          ifMatch := request.ifMatch.getD []
          offset_lt := request.offset.2
          length_pos := Nat.pos_of_ne_zero hempty
          length_lt := finite_lt hend }

/-- `convert_requests`; `index` counts the requests before these. -/
def convertRequests (call : Text) : Nat → List Req → Except Text (List Request)
  | _, [] => .ok []
  | index, request :: rest =>
      match convertRequest call index request with
      | .error message => .error message
      | .ok converted => (convertRequests call (index + 1) rest).map (converted :: ·)

/-- The request that a record becomes. -/
structure Converts (request : Req) (r : Request) : Prop where
  locator_eq : request.locator = some r.locator
  offset_eq : r.offset = request.offset.1
  length_eq : r.length = request.length.1
  buffer_eq : r.buffer = request.buffer
  tag_eq : r.tag = request.tag
  ifMatch_eq : r.ifMatch = request.ifMatch.getD []

theorem convertRequest_converts {call : Text} {index : Nat} {request : Req} {r : Request}
    (h : convertRequest call index request = .ok r) : Converts request r := by
  unfold convertRequest at h
  cases hlocator : request.locator with
  | none =>
      rw [hlocator] at h
      cases h
  | some locator =>
      rw [hlocator] at h
      dsimp only at h
      split at h
      · cases h
      · split at h
        · cases h
        · split at h
          · cases h
          · cases h
            exact ⟨hlocator, rfl, rfl, rfl, rfl, rfl⟩

/-- The planner gets one request for each record, in their order. -/
theorem convertRequests_pairs {call : Text} : ∀ {requests : List Req} {index : Nat}
    {converted : List Request}, convertRequests call index requests = .ok converted →
    List.Forall₂ Converts requests converted := by
  intro requests
  induction requests with
  | nil =>
      intro index converted h
      cases h
      exact .nil
  | cons request rest ih =>
      intro index converted h
      rw [convertRequests] at h
      cases hfirst : convertRequest call index request with
      | error message =>
          rw [hfirst] at h
          cases h
      | ok r =>
          rw [hfirst] at h
          cases hrest : convertRequests call (index + 1) rest with
          | error message =>
              rw [hrest] at h
              cases h
          | ok made =>
              rw [hrest] at h
              cases h
              exact .cons (convertRequest_converts hfirst) (ih hrest)

/-! ## The numbers of a batch -/

/-- `karu_submit_options`. -/
structure SubmitOptions where
  structSize : Nat
  coalesceGap : Word
  coalesceLimit : Word
  coalesceParts : Word
  coalesceAmplification : Word

theorem inherit_lt : 2 ^ 64 - 1 < 2 ^ 64 := by decide

/-- `KARU_INHERIT`. -/
def inherit : Word := ⟨2 ^ 64 - 1, inherit_lt⟩

/-- What a field asks for: nothing, unless the structure reaches behind it. -/
def SubmitOptions.asked (overrides : SubmitOptions) (stop : Nat) (field : Word) : Option Word :=
  if stop ≤ overrides.structSize ∧ field ≠ inherit then some field else none

/-- A number of the planner that is not zero. -/
abbrev Positive := { n : Word // 1 ≤ n.1 }

/-- What a field asks for, or what the client has; zero is refused. -/
def positive (asked : Option Word) (kept : Positive) (refusal : Text) : Except Text Positive :=
  match asked with
  | none => .ok kept
  | some n => if h : n.1 = 0 then .error refusal else .ok ⟨n, Nat.pos_of_ne_zero h⟩

/-- The numbers of the client, with those that are asked for in their place. -/
def replaced (defaults : ClientOptions) (call : Text)
    (gap limit parts amplification : Option Word) : Except Text ClientOptions := do
  let gap := gap.getD ⟨defaults.coalesceGap, defaults.coalesceGap_lt⟩
  let limit ← positive limit
    ⟨⟨defaults.coalesceLimit, defaults.coalesceLimit_lt⟩, defaults.coalesceLimit_pos⟩
    (call ++ text ": coalesce_limit must be at least 1")
  let parts ← positive parts
    ⟨⟨defaults.coalesceParts, defaults.coalesceParts_lt⟩, defaults.coalesceParts_pos⟩
    (call ++ text ": coalesce_parts is outside the supported range")
  let amplification ← positive amplification
    ⟨⟨defaults.coalesceAmplification, defaults.coalesceAmplification_lt⟩,
      defaults.coalesceAmplification_pos⟩
    (call ++ text ": coalesce_amplification must be at least 1")
  .ok { defaults with
    coalesceGap := gap.1
    coalesceLimit := limit.1.1
    coalesceParts := parts.1.1
    coalesceAmplification := amplification.1.1
    coalesceGap_lt := gap.2
    coalesceLimit_lt := limit.1.2
    coalesceLimit_pos := limit.2
    coalesceParts_lt := parts.1.2
    coalesceParts_pos := parts.2
    coalesceAmplification_lt := amplification.1.2
    coalesceAmplification_pos := amplification.2 }

/-- `submit_options`. -/
def submitOptions (defaults : ClientOptions) (call : Text) :
    Option SubmitOptions → Except Text ClientOptions
  | none => .ok defaults
  | some overrides =>
      if overrides.structSize < 16 then
        .error (call ++ text ": submit options structure is too small")
      else
        replaced defaults call (overrides.asked 16 overrides.coalesceGap)
          (overrides.asked 24 overrides.coalesceLimit) (overrides.asked 32 overrides.coalesceParts)
          (overrides.asked 40 overrides.coalesceAmplification)

/-! ## Fetching -/

/-- `client_submit`: the plan of the batch. -/
def clientSubmit (malloc : Nat → Nat → Addr) (batch : Nat) (defaults : ClientOptions)
    (call : Text) (requests : List Req) (options : Option SubmitOptions) :
    Except (Status × Text) TransferPlan :=
  match convertRequests call 0 requests with
  | .error message => .error (.errInvalid, message)
  | .ok converted =>
      match submitOptions defaults call options with
      | .error message => .error (.errInvalid, message)
      | .ok planOptions =>
          match planTransfers malloc batch converted planOptions with
          | (.ok, plan) => .ok plan
          | (status, _) => .error (status, [])

/-- The check of `client_fetch` on the destinations. -/
def missingBuffer (call : Text) : Nat → List Req → Option Text
  | _, [] => none
  | index, request :: rest =>
      if request.buffer = .null then
        some (requestError call index (text " has no destination buffer"))
      else missingBuffer call (index + 1) rest

/-- The loop of `client_fetch`, over what `next` returns. -/
def fetchLoop : List Completion → Status × Text → Status × Text
  | [], first => first
  | completion :: rest, first =>
      fetchLoop rest
        (if first.1 = .ok ∧ completion.status ≠ .ok then (completion.status, completion.detail)
          else first)

/-- `client_fetch`; `drain` is what the batch of a plan returns. -/
def clientFetch (malloc : Nat → Nat → Addr) (batch : Nat) (defaults : ClientOptions)
    (call : Text) (requests : List Req) (options : Option SubmitOptions)
    (drain : TransferPlan → List Completion) : Status × Text :=
  match missingBuffer call 0 requests with
  | some message => (.errInvalid, message)
  | none =>
      match clientSubmit malloc batch defaults call requests options with
      | .error failure => failure
      | .ok plan => fetchLoop (drain plan) (.ok, [])

theorem missingBuffer_none (call : Text) {requests : List Req}
    (h : ∀ r ∈ requests, r.buffer ≠ .null) : ∀ index, missingBuffer call index requests = none := by
  induction requests with
  | nil =>
      intro index
      rfl
  | cons request rest ih =>
      intro index
      rw [missingBuffer, if_neg (h request List.mem_cons_self)]
      exact ih (fun r hr => h r (List.mem_cons_of_mem _ hr)) (index + 1)

/-- A failure is kept. -/
theorem fetchLoop_kept {first : Status × Text} (h : first.1 ≠ .ok) :
    ∀ done, fetchLoop done first = first := by
  intro done
  induction done with
  | nil => rfl
  | cons completion rest ih =>
      rw [fetchLoop, if_neg fun hboth => h hboth.1]
      exact ih

/-- The loop ends on the first completion that failed, if there is one. -/
theorem fetchLoop_first (done : List Completion) :
    ((∀ c ∈ done, c.status = .ok) ∧ fetchLoop done (.ok, []) = (.ok, [])) ∨
      ∃ before c rest, done = before ++ c :: rest ∧ (∀ b ∈ before, b.status = .ok) ∧
        c.status ≠ .ok ∧ fetchLoop done (.ok, []) = (c.status, c.detail) := by
  induction done with
  | nil => exact Or.inl ⟨fun c hc => (by cases hc), rfl⟩
  | cons c done ih =>
      rw [fetchLoop]
      by_cases hc : c.status = .ok
      · rw [if_neg fun hboth => hboth.2 hc]
        rcases ih with ⟨hall, hloop⟩ | ⟨before, failed, rest, rfl, hbefore, hfailed, hloop⟩
        · exact Or.inl ⟨List.forall_mem_cons.mpr ⟨hc, hall⟩, hloop⟩
        · exact Or.inr ⟨c :: before, failed, rest, rfl, List.forall_mem_cons.mpr ⟨hc, hbefore⟩,
            hfailed, hloop⟩
      · rw [if_pos ⟨rfl, hc⟩]
        exact Or.inr ⟨[], c, done, rfl, fun b hb => (by cases hb), hc, fetchLoop_kept hc done⟩

section Fetch

variable [Octet β]

/-- A fetch over unchanging objects.  It succeeds if and only if every request comes to a
success by itself, and then each buffer holds the bytes its request is for; otherwise the
status is that of a request which fails by itself. -/
theorem clientFetch_delivers {w : World β} {defaults planOptions : ClientOptions} {call : Text}
    {requests : List Req} {options : Option SubmitOptions} {converted : List Request}
    (hbuffers : ∀ r ∈ requests, r.buffer ≠ .null)
    (hconvert : convertRequests call 0 requests = .ok converted)
    (hoptions : submitOptions defaults call options = .ok planOptions)
    (hfiles : Request.WithinFiles converted) (e : Execution w converted planOptions)
    {drain : TransferPlan → List Completion}
    (hdrain : (drain (planTransfers e.malloc e.batch converted planOptions).2).Perm
      e.completions) :
    ((clientFetch e.malloc e.batch defaults call requests options drain).1 = .ok ↔
        ∀ r ∈ converted, (w.expected r).1 = .ok) ∧
      ((clientFetch e.malloc e.batch defaults call requests options drain).1 = .ok →
        ∀ r ∈ converted, (w.bytes r).length = r.length ∧
          e.final.read r.buffer 0 r.length = w.bytes r) ∧
      ((clientFetch e.malloc e.batch defaults call requests options drain).1 ≠ .ok →
        ∃ r ∈ converted, (w.expected r).1 =
          (clientFetch e.malloc e.batch defaults call requests options drain).1) := by
  have hplanned := e.planned
  obtain ⟨inOrder, hperm, hfulfils⟩ := e.fulfils hfiles
  have hsubmit : clientSubmit e.malloc e.batch defaults call requests options =
      .ok (planTransfers e.malloc e.batch converted planOptions).2 := by
    rw [clientSubmit, hconvert]
    dsimp only
    rw [hoptions]
    dsimp only
    generalize planTransfers e.malloc e.batch converted planOptions = x at hplanned ⊢
    obtain ⟨status, plan⟩ := x
    cases hplanned
    rfl
  have hfetch : clientFetch e.malloc e.batch defaults call requests options drain =
      fetchLoop (drain (planTransfers e.malloc e.batch converted planOptions).2) (.ok, []) := by
    rw [clientFetch, missingBuffer_none call hbuffers 0]
    dsimp only
    rw [hsubmit]
  rw [hfetch]
  generalize drain (planTransfers e.malloc e.batch converted planOptions).2 = done at hdrain ⊢
  -- a request and its completion fail together
  have hanswered : ∀ r ∈ converted, ∃ c ∈ done, Fulfils w e.final r c := by
    intro r hr
    obtain ⟨c, hc, h⟩ := exists_right_of_mem hfulfils (hperm.mem_iff.mpr hr)
    exact ⟨c, hdrain.mem_iff.mpr hc, h⟩
  have hasked : ∀ c ∈ done, ∃ r ∈ converted, Fulfils w e.final r c := by
    intro c hc
    obtain ⟨r, hr, h⟩ := exists_left_of_mem hfulfils (hdrain.mem_iff.mp hc)
    exact ⟨r, hperm.mem_iff.mp hr, h⟩
  have hstatus : ∀ {r : Request} {c : Completion}, Fulfils w e.final r c →
      (w.expected r).1 = c.status := by
    intro r c h
    rw [← h.seen_eq]
    rfl
  rcases fetchLoop_first done with ⟨hall, hloop⟩ | ⟨before, c, rest, hdone, -, hfailed, hloop⟩
  · rw [hloop]
    have hok : ∀ r ∈ converted, (w.expected r).1 = .ok := by
      intro r hr
      obtain ⟨c, hc, h⟩ := hanswered r hr
      rw [hstatus h]
      exact hall c hc
    refine ⟨⟨fun _ => hok, fun _ => rfl⟩, fun _ r hr => ?_, fun hne => absurd rfl hne⟩
    obtain ⟨c, hc, h⟩ := hanswered r hr
    obtain ⟨hexpected, hlength⟩ := w.expected_ok (hok r hr)
    have hseen : c.seen e.final = (.ok, r.length, w.bytes r) := h.seen_eq.trans hexpected
    have hgot : c.got = r.length := congrArg (fun x => x.2.1) hseen
    have hread : e.final.read c.buffer 0 c.got = w.bytes r := congrArg (fun x => x.2.2) hseen
    obtain ⟨request, hrequest, hconverts⟩ := exists_left_of_mem (convertRequests_pairs hconvert) hr
    have hgiven : r.buffer ≠ .null := by
      rw [hconverts.buffer_eq]
      exact hbuffers request hrequest
    rw [h.buffer_eq hgiven, hgot] at hread
    exact ⟨hlength, hread⟩
  · have hc : c ∈ done := by
      rw [hdone]
      exact List.mem_append_right _ List.mem_cons_self
    obtain ⟨r, hr, h⟩ := hasked c hc
    rw [hloop]
    refine ⟨⟨fun hok => absurd hok hfailed, fun hall => ?_⟩, fun hok => absurd hok hfailed,
      fun _ => ⟨r, hr, hstatus h⟩⟩
    exact absurd ((hstatus h).symm.trans (hall r hr)) hfailed

theorem two_lt : 2 < 2 ^ 64 - 1 := by decide

theorem three_lt : 3 < 2 ^ 64 - 1 := by decide

theorem two_lt_word : 2 < 2 ^ 64 := two_lt.trans inherit_lt

theorem three_lt_word : 3 < 2 ^ 64 := three_lt.trans inherit_lt

theorem two_pos : 1 ≤ 2 := Nat.succ_pos 1

theorem three_pos : 1 ≤ 3 := Nat.succ_pos 2

/-- Two reads, one at a server and one of a file. -/
def twoReqs : List Req :=
  [{ locator := some { backend := .s3, canonicalUri := text "/vsis3/b/k" }
     offset := ⟨1, one_lt_word⟩
     length := ⟨2, two_lt_word⟩
     buffer := .heap 1
     tag := 1 },
   { locator := some { canonicalUri := text "file:///f", target := text "/f" }
     offset := ⟨0, zero_lt_word⟩
     length := ⟨3, three_lt_word⟩
     buffer := .heap 2
     tag := 2 }]

/-- The requests they become. -/
def twoReads : List Request :=
  [{ locator := { backend := .s3, canonicalUri := text "/vsis3/b/k" }, offset := 1, length := 2,
     buffer := .heap 1, tag := 1, offset_lt := one_lt_word, length_pos := Client.two_pos,
     length_lt := two_lt },
   { locator := { canonicalUri := text "file:///f", target := text "/f" }, length := 3,
     buffer := .heap 2, tag := 2, length_pos := Client.three_pos, length_lt := three_lt }]

/-- Buffers of their own for the requests that bring none. -/
def fresh (n : Nat) (_ : Nat) : Addr := .heap (100 + n)

theorem twoReads_destinations : Destinations fresh twoReads := by
  refine ⟨by decide, by decide, ?_, fun n n' _ _ h _ => by simpa [fresh] using h,
    fun _ _ => by simp [fresh]⟩
  intro n size r hr _
  simp only [twoReads, List.mem_cons, List.not_mem_nil, or_false] at hr
  rcases hr with rfl | rfl <;> simp [fresh] <;> omega

theorem twoReads_planned : (planTransfers fresh 0 twoReads .initial).1 = .ok := by decide

theorem twoReads_served :
    ∀ t ∈ (planTransfers fresh 0 twoReads .initial).2.transfers,
      fourBytesService.Serves fourBytes t := by
  have hasked : ∀ t ∈ (planTransfers fresh 0 twoReads .initial).2.transfers,
      t.ifMatch = [] ∧ (t.locator.backend ≠ .file →
        (t.offset, t.length) ∈ [(1, 8), (1, 2), (2, 5), (6, 3)]) := by decide
  intro t ht
  exact fourBytesService_serves (hasked t ht).1 (hasked t ht).2

/-- Their plan, carried out in order. -/
def twoReadsExecution : Execution fourBytes twoReads .initial where
  malloc := fresh
  batch := 0
  service := fourBytesService
  order := (planTransfers fresh 0 twoReads .initial).2.transfers
  memory := ⟨fun _ _ => 0, []⟩
  destinations := twoReads_destinations
  planned := twoReads_planned
  ordered := .refl _
  served := twoReads_served

theorem clientFetch_delivers_two :
    (clientFetch twoReadsExecution.malloc 0 .initial (text "karu_client_fetch") twoReqs none
        fun _ => twoReadsExecution.completions).1 = .ok ∧
      twoReadsExecution.final.read (.heap 1) 0 2 = [11, 12] ∧
      twoReadsExecution.final.read (.heap 2) 0 3 = [10, 11, 12] := by
  have hexpected : ∀ r ∈ twoReads, (fourBytes.expected r).1 = .ok := by decide
  obtain ⟨hok, hbytes, -⟩ := @clientFetch_delivers UInt8 _ fourBytes .initial .initial
    (text "karu_client_fetch") twoReqs none twoReads (by decide) rfl rfl (by decide)
    twoReadsExecution (fun _ => twoReadsExecution.completions) (.refl _)
  have hdone := hok.mpr hexpected
  exact ⟨hdone, (hbytes hdone _ List.mem_cons_self).2,
    (hbytes hdone _ (List.mem_cons_of_mem _ List.mem_cons_self)).2⟩

end Fetch

end Client

end Karu
