/-
# `Karu.Runtime.StatAgrees` — `read_ends` and `stat` on one object

`karu_client_read_ends` reports "the size and ETag that `karu_client_stat`
reports".  The tag of a reply is the one in the headers of the response it was
reached on (`getRange_tag`), so where every answer of an object carries one tag,
`read_ends` reports that tag whichever of its requests it takes it from.

It has to send one.  A bounded window of length zero leaves nothing to ask for:
`read_ends` then returns `KARU_OK` with no tag, whether there is an object or
not, and `stat` still asks.
-/
import Karu.Runtime.ProbeAnswers
import Karu.Runtime.ReadEnds
import Karu.Uri

namespace Karu

open Base

variable {β : Type}

/-! ## The tag of a reply -/

section Tags

variable {r : Response β} {p₀ p : ProbeState} {m : Memory Unit β} {x : Probing β × Bool}

theorem Replied.etag_eq {range : ByteRange} {status : Int} {reply : RangeReply}
    (h : Replied range status p reply) : reply.etag = p.etag := by
  cases h with
  | unsatisfied _ _ hreply =>
      unfold unsatisfiedReply at hreply
      cases hs : range.suffix with
      | true =>
          simp only [hs, if_true] at hreply
          split at hreply
          · cases hreply
            rfl
          · cases hreply
            rfl
      | false =>
          simp only [hs, Bool.false_eq_true, if_false] at hreply
          split at hreply
          · cases hreply
            rfl
          · cases hreply
  | partly => rfl
  | ignored => rfl
  | whole => rfl

theorem Replied.status {range : ByteRange} {status : Int} {reply : RangeReply}
    (h : Replied range status p reply) : status = 200 ∨ status = 206 ∨ status = 416 := by
  cases h with
  | unsatisfied h416 => exact Or.inr (Or.inr h416)
  | partly h206 => exact Or.inr (Or.inl h206)
  | ignored h200 => exact Or.inl h200
  | whole h200 => exact Or.inl h200

theorem startBody_etag (info : Info) (p : ProbeState) : (startBody info p).1.etag = p.etag := by
  have hcases := startBody_cases info p
  generalize startBody info p = y at hcases ⊢
  cases hcases with
  | refused hsame => exact ProbeState.field_of_unstarted (·.etag) hsame
  | partly =>
      have hwanted : ∀ n, ({ p with wanted := n } : ProbeState).etag = p.etag := fun _ => rfl
      exact hwanted _
  | whole _ hsame => exact ProbeState.field_of_unstarted (·.etag) hsame

/-- The body of a response says nothing about the tag. -/
theorem ProbeEnd.etag_eq (h : ProbeEnd r p m x) : x.1.state.etag = p.etag := by
  have hstart : ∀ {p' : ProbeState} {go : Bool},
      startBody r.info { p with started := true } = (p', go) → p'.etag = p.etag := by
    intro p' go hgo
    have hetag := startBody_etag r.info { p with started := true }
    rw [hgo] at hetag
    exact hetag
  cases h with
  | empty => rfl
  | error _ hsame => exact ProbeState.field_of_uncaptured (·.etag) hsame
  | @refused p' _ _ hgo =>
      have hkept : p'.etag = p.etag := hstart hgo
      exact hkept
  | whole _ _ hgo hread =>
      exact (ProbeState.field_of_settings (·.etag) hread.settings_eq).trans (hstart hgo)
  | cut _ _ hgo hsettings =>
      exact (ProbeState.field_of_settings (·.etag) hsettings).trans (hstart hgo)

/-- Nor does anything but its header lines, and its trailers if they come. -/
theorem TrailedEnd.etag_eq {r : Trailed β} (h : TrailedEnd r p m x)
    (hp : p.etag = etagOf r.heading.fields) :
    x.1.state.etag = etagOf r.fields ∨ x.1.state.etag = etagOf (r.fields ++ r.trailers) := by
  cases h with
  | body hbody =>
      rw [hbody.etag_eq, hp]
      by_cases hchunks : r.chunks = []
      · exact Or.inr (congrArg etagOf (Trailed.heading_empty hchunks))
      · exact Or.inl (by rw [Trailed.heading_body hchunks])
  | @behind s p' hchunks hbody htrailing =>
      refine Or.inr ?_
      have hheading : s.state.etag = etagOf r.fields := by
        refine hbody.etag_eq.trans (hp.trans ?_)
        rw [Trailed.heading_body hchunks]
      show p'.etag = _
      rw [htrailing.etag_eq, hheading, etagOf, etagOf, List.foldl_append]

/-- The tag of a response is `tag`, whether or not its trailers are read. -/
def Trailed.Tagged (tag : Text) (r : Trailed β) : Prop :=
  etagOf r.fields = tag ∧ etagOf (r.fields ++ r.trailers) = tag

/-- A reply has the tag of the response it was reached on. -/
theorem getRange_tag [Octet β] {curl : Libcurl} (options : ClientOptions) (backend : Backend)
    {range : ByteRange} (ifMatch : Text) {qs : List (ProbeRequest β)} {loop : ProbeLoop}
    {m m' : Memory Unit β} {reply : RangeReply} {last : Option (Trailed β)}
    (h : getRange curl options backend range ifMatch qs loop m = (.reply reply, last, m')) :
    ∃ q ∈ qs, ∃ r ∈ q.responses, (r.code = 200 ∨ r.code = 206 ∨ r.code = 416) ∧
      ∀ tag, r.Tagged tag → reply.etag = tag := by
  obtain ⟨-, q, hq, turn, m₀, x, hrange, hx, hjudge, rfl, rfl⟩ :=
    getRange_turn options backend ifMatch h (Or.inr ⟨reply, rfl⟩)
  have hstart : (probeStart options range ifMatch q).range = range := rfl
  obtain ⟨r, hr, s, y, hs, rfl, rfl, hopen, -, hreply⟩ :=
    judge_replied (hrange.trans hstart.symm) hx hjudge
  refine ⟨q, hq, r, hr, hreply.status, fun tag htagged => ?_⟩
  obtain ⟨p, hp, hend⟩ := probeTrailed_read r curl hs hopen
  have hfinal : (probeFinal r.heading q.result (probeTrailed curl r s)).state.etag =
      (probeTrailed curl r s).1.state.etag := by
    simp only [probeFinal, startEmpty]
    split
    · exact startBody_etag r.info { (probeTrailed curl r s).1.state with started := true }
    · rfl
  rw [hreply.etag_eq, hfinal]
  rcases hend.etag_eq hp.headed.etag_eq with hetag | hetag
  · exact hetag.trans htagged.1
  · exact hetag.trans htagged.2

end Tags

namespace Engine

/-! ## `stat` -/

/-- `Engine::object_info`, of a file too. -/
def stat [Octet β] (service : EndsService β) (resolved : Resolved) (first : Memory Unit β) :
    EndsOutcome :=
  if resolved.backend = .file then
    match service.fileSize with
    | .error message => .failed .errIo (resolved.target ++ text ": " ++ message)
    | .ok total => .done (visibleSize resolved total) []
  else objectInfo service resolved first

/-- Everything a request can be answered with. -/
def EndsService.requests (service : EndsService β) : List (ProbeRequest β) :=
  service.info ++ service.head ++ service.tail ++ service.again

/-- What holds of every request holds of each list of them. -/
theorem EndsService.all_requests {service : EndsService β} {P : ProbeRequest β → Prop} (h : ∀ q ∈ service.requests, P q) :
    (∀ q ∈ service.info, P q) ∧ (∀ q ∈ service.head, P q) ∧ (∀ q ∈ service.tail, P q) ∧
      ∀ q ∈ service.again, P q := by
  refine ⟨?_, ?_, ?_, ?_⟩
  all_goals
    intro q hq
    refine h q ?_
    simp [EndsService.requests, hq]

/-- Answers that are about the object: to these a server adds its tag. -/
def Response.Tells (r : Response β) : Prop := r.code = 200 ∨ r.code = 206 ∨ r.code = 416

instance (r : Response β) : Decidable (Response.Tells r) :=
  inferInstanceAs (Decidable (r.code = 200 ∨ r.code = 206 ∨ r.code = 416))

/-- One object that does not change, missing or present, behind a file system or a server that
honours `Range` and sends one strong tag, or none, with every answer about the object.

The request of `stat` is answered at once, or, since an S3 server may name its region with
the first answer, the second time. -/
inductive EndsService.Unchanging (resolved : Resolved) (tag : Text) (service : EndsService β) :
    Option (List β) → Prop
  | missing : (∃ message, service.fileSize = .error message) →
      (∀ q ∈ service.requests, ∀ r ∈ q.responses, ¬ Response.Tells r.toResponse) →
      service.Unchanging resolved tag none
  | present {object : List β} : object.length < 2 ^ 64 → service.Honest object →
      (∀ q ∈ service.requests, ∀ r ∈ q.responses, Response.Tells r.toResponse → r.Tagged tag) →
      (resolved.backend = .file → service.fileSize = .ok object.length) →
      (resolved.backend ≠ .file → ∃ q q' qs, service.info = q :: q' :: qs ∧
        q.Answered service.curl object { length := 1 } ∧
        q'.Answered service.curl object { length := 1 }) →
      service.Unchanging resolved tag (some object)

/-- A server that has nothing. -/
def nowhere : EndsService β where
  curl := .uncalled
  fileSize := .error []
  opened := .error []
  info := [{ responses := [{ code := 404, statusLine := text "HTTP/1.1 404 Not Found\r\n" }] }]

theorem nowhere_unchanging (resolved : Resolved) (tag : Text) :
    (nowhere : EndsService β).Unchanging resolved tag none := by
  refine .missing ⟨[], rfl⟩ ?_
  intro q hq r hr
  simp only [EndsService.requests, nowhere, List.append_nil, List.mem_singleton] at hq
  rw [hq] at hr
  rw [List.mem_singleton.mp hr]
  intro htells
  rcases htells with h | h | h
  · cases h
  · cases h
  · cases h

/-- Where `read_ends` returns `KARU_OK`, `stat` does, with the same size and the same tag. -/
def Agrees [Octet β] (service : EndsService β) (resolved : Resolved) (lengths : EndLengths)
    (scratch : Memory Unit β) (b : EndBuffers β) : Prop :=
  ∀ size etag b', readEnds service resolved lengths scratch b = (.done size etag, b') →
    stat service resolved scratch = .done size etag

/-- A remote window of length zero of which some bytes are wanted: there is nothing to ask for. -/
structure Requestless (resolved : Resolved) (lengths : EndLengths) : Prop where
  remote : resolved.backend ≠ .file
  empty : resolved.windowLength = 0
  some_wanted : ¬ (lengths.head = 0 ∧ lengths.tail = 0)

section Agreement

variable [Octet β] {service : EndsService β} {resolved : Resolved} {lengths : EndLengths}
  {scratch : Memory Unit β} {b b' : EndBuffers β} {size : Nat} {etag tag : Text}
  {object : List β}

theorem getRange_etag {range : ByteRange} {ifMatch : Text} {requests : List (ProbeRequest β)}
    {m m' : Memory Unit β} {reply : RangeReply}
    (htag : ∀ q ∈ requests, ∀ r ∈ q.responses, Response.Tells r.toResponse → r.Tagged tag)
    (h : getRange service resolved range ifMatch requests m = (.reply reply, m')) :
    reply.etag = tag := by
  simp only [getRange] at h
  generalize hrun : Karu.getRange service.curl service.options resolved.backend range ifMatch
    requests {} m = x at h
  obtain ⟨outcome, last, m₁⟩ := x
  cases h
  obtain ⟨q, hq, r, hr, htells, hetag⟩ := getRange_tag service.options resolved.backend ifMatch hrun
  exact hetag tag (htag q hq r hr htells)

/-- Nothing that is not about an object is replied to. -/
theorem getRange_silent {range : ByteRange} {ifMatch : Text} {requests : List (ProbeRequest β)}
    {m m' : Memory Unit β} {reply : RangeReply}
    (hmissing : ∀ q ∈ requests, ∀ r ∈ q.responses, ¬ Response.Tells r.toResponse) :
    getRange service resolved range ifMatch requests m ≠ (.reply reply, m') := by
  intro h
  simp only [getRange] at h
  generalize hrun : Karu.getRange service.curl service.options resolved.backend range ifMatch
    requests {} m = x at h
  obtain ⟨outcome, last, m₁⟩ := x
  cases h
  obtain ⟨q, hq, r, hr, htells, -⟩ := getRange_tag service.options resolved.backend ifMatch hrun
  exact hmissing q hq r hr htells

/-- Outside of windows of length zero some request is sent. -/
theorem sent_of_not_requestless (hremote : resolved.backend ≠ .file)
    (hno : ¬ Requestless resolved lengths) (hsome : ¬ (lengths.head = 0 ∧ lengths.tail = 0)) :
    0 < headSize resolved lengths ∨ 0 < tailSize resolved lengths := by
  by_contra hnone
  obtain ⟨hhead, htail⟩ := not_or.mp hnone
  have hhead : headSize resolved lengths = 0 := by omega
  cases hb : bounded resolved with
  | false => exact htail (sent_of_unbounded hb hhead).1
  | true =>
      have hscratch : headInScratch resolved lengths = false := by simp [headInScratch, hb]
      have hsize : headSize resolved lengths = min lengths.head resolved.windowLength := by
        simp [headSize, hscratch, hb, atMost]
      have hwindow : 0 < resolved.windowLength := by
        by_contra hzero
        exact hno ⟨hremote, by omega, hsome⟩
      have hapart : tailApart resolved lengths = true := by
        simp [tailApart, hb, hhead, hwindow]
      rw [tailSize, if_pos hapart, atMost] at htail
      omega

theorem fetchTail_tag {visible : Nat} {known : RangeReply} {first : Text}
    (hagain : ∀ q ∈ service.again, ∀ r ∈ q.responses, Response.Tells r.toResponse → r.Tagged tag)
    (hfirst : first = tag)
    (h : fetchTail service resolved lengths visible known first b = (.done size etag, b')) :
    etag = tag := by
  simp only [fetchTail] at h
  generalize hreply : getRange service resolved (lastRange resolved lengths visible) first
    service.again b.tail = x at h
  obtain ⟨outcome, m⟩ := x
  cases outcome with
  | failed status detail => cases h
  | again loop => cases h
  | reply reply =>
      simp only at h
      split at h
      · cases h
      · cases h
        split
        · exact getRange_etag hagain hreply
        · exact hfirst

/-- Whichever reply the tag is taken from. -/
theorem joinEnds_tag {head tail : RangeReply}
    (hsent : 0 < headSize resolved lengths ∨ 0 < tailSize resolved lengths)
    (hhead : 0 < headSize resolved lengths → head.etag = tag)
    (htail : 0 < tailSize resolved lengths → tail.etag = tag)
    (hunsent : ¬ 0 < tailSize resolved lengths → tail.etag = [])
    (hagain : ∀ q ∈ service.again, ∀ r ∈ q.responses, Response.Tells r.toResponse → r.Tagged tag)
    (h : joinEnds service resolved lengths head tail b = (.done size etag, b')) : etag = tag := by
  have hknown : (if 0 < headSize resolved lengths then head else tail).etag = tag := by
    split
    · exact hhead ‹_›
    · rename_i hno
      exact htail (hsent.resolve_left hno)
  have hchosen : (if (if 0 < headSize resolved lengths then head else tail).etag.isEmpty then
      tail.etag else (if 0 < headSize resolved lengths then head else tail).etag) = tag := by
    rw [hknown]
    split
    · rename_i hempty
      by_cases hasked : 0 < tailSize resolved lengths
      · exact htail hasked
      · rw [hunsent hasked, List.isEmpty_iff.mp hempty]
    · rfl
  simp only [joinEnds, decide_eq_true_eq] at h
  generalize (if 0 < headSize resolved lengths then head else tail) = known at h hchosen
  generalize (if known.etag.isEmpty then tail.etag else known.etag) = chosen at h hchosen
  split at h
  · cases h
  · split at h
    · cases h
    · split at h
      · cases h
      · split at h
        · split at h
          · split at h
            · cases h
              exact hchosen
            · cases h
              exact hchosen
          · split at h
            · cases h
              exact hchosen
            · exact fetchTail_tag hagain hchosen h
        · cases h
          exact hchosen

/-- The replies that `read_ends` puts together; what was not sent has a reply of no bytes. -/
structure Replies (service : EndsService β) (resolved : Resolved) (lengths : EndLengths)
    (head tail : RangeReply) : Prop where
  head_eq : 0 < headSize resolved lengths → ∃ m m',
    getRange service resolved (headRange resolved lengths) [] service.head m = (.reply head, m')
  tail_eq : 0 < tailSize resolved lengths → ∃ m m',
    getRange service resolved (tailRange resolved lengths) [] service.tail m = (.reply tail, m')
  unsent : ¬ 0 < tailSize resolved lengths → tail = {}

/-- A remote object of which some bytes are wanted. -/
theorem readEnds_joins (hremote : resolved.backend ≠ .file)
    (hsome : ¬ (lengths.head = 0 ∧ lengths.tail = 0))
    (h : readEnds service resolved lengths scratch b = (.done size etag, b')) :
    ∃ head tail b₁, Replies service resolved lengths head tail ∧
      joinEnds service resolved lengths head tail b₁ = (.done size etag, b') := by
  simp only [readEnds, if_neg hremote, if_neg hsome] at h
  generalize hhead : (if 0 < headSize resolved lengths then
      getRange service resolved (headRange resolved lengths) [] service.head
        (if headInScratch resolved lengths then scratch else b.head)
    else (.reply {}, b.head)) = x at h
  generalize htail : (if 0 < tailSize resolved lengths then
      getRange service resolved (tailRange resolved lengths) [] service.tail b.tail
    else (.reply {}, b.tail)) = y at h
  obtain ⟨headOutcome, headMemory⟩ := x
  obtain ⟨tailOutcome, tailMemory⟩ := y
  cases headOutcome with
  | failed status detail => cases h
  | again loop => cases h
  | reply head =>
      cases tailOutcome with
      | failed status detail => cases h
      | again loop => cases h
      | reply tail =>
          refine ⟨head, tail, _, ⟨fun hsent => ?_, fun hsent => ?_, fun hunsent => ?_⟩, h⟩
          · rw [if_pos hsent] at hhead
            exact ⟨_, _, hhead⟩
          · rw [if_pos hsent] at htail
            exact ⟨_, _, htail⟩
          · rw [if_neg hunsent] at htail
            cases htail
            rfl

theorem readEnds_tag (hremote : resolved.backend ≠ .file) (hno : ¬ Requestless resolved lengths)
    (hsome : ¬ (lengths.head = 0 ∧ lengths.tail = 0))
    (htag : ∀ q ∈ service.requests, ∀ r ∈ q.responses, Response.Tells r.toResponse → r.Tagged tag)
    (h : readEnds service resolved lengths scratch b = (.done size etag, b')) : etag = tag := by
  obtain ⟨-, hhead, htail, hagain⟩ := EndsService.all_requests htag
  obtain ⟨head, tail, b₁, hreplies, hjoin⟩ := readEnds_joins hremote hsome h
  refine joinEnds_tag (sent_of_not_requestless hremote hno hsome) (fun hsent => ?_)
    (fun hsent => ?_) (fun hunsent => ?_) hagain hjoin
  · obtain ⟨m, m', hget⟩ := hreplies.head_eq hsent
    exact getRange_etag hhead hget
  · obtain ⟨m, m', hget⟩ := hreplies.tail_eq hsent
    exact getRange_etag htail hget
  · rw [hreplies.unsent hunsent]

/-- Outside of windows of length zero, `KARU_OK` rests on a reply. -/
theorem readEnds_replied (hremote : resolved.backend ≠ .file)
    (hno : ¬ Requestless resolved lengths) (hsome : ¬ (lengths.head = 0 ∧ lengths.tail = 0))
    (h : readEnds service resolved lengths scratch b = (.done size etag, b')) :
    ∃ requests, (requests = service.head ∨ requests = service.tail) ∧ ∃ range m reply m',
      getRange service resolved range [] requests m = (.reply reply, m') := by
  obtain ⟨head, tail, b₁, hreplies, -⟩ := readEnds_joins hremote hsome h
  rcases sent_of_not_requestless hremote hno hsome with hsent | hsent
  · obtain ⟨m, m', hget⟩ := hreplies.head_eq hsent
    exact ⟨_, Or.inl rfl, _, m, head, m', hget⟩
  · obtain ⟨m, m', hget⟩ := hreplies.tail_eq hsent
    exact ⟨_, Or.inr rfl, _, m, tail, m', hget⟩

theorem maxAttempts_pos {range : ByteRange} {requests : List (ProbeRequest β)}
    {m m' : Memory Unit β} {reply : RangeReply}
    (h : getRange service resolved range [] requests m = (.reply reply, m')) :
    0 < service.options.maxAttempts := by
  by_contra hnone
  have hzero : service.options.maxAttempts ≤ 0 := by omega
  cases requests with
  | nil => cases h
  | cons q qs =>
      simp only [getRange, Karu.getRange, if_pos hzero] at h
      cases h

theorem readEnds_agrees (hno : ¬ Requestless resolved lengths) {state : Option (List β)}
    (hservice : service.Unchanging resolved tag state) :
    Agrees service resolved lengths scratch b := by
  intro size etag b' hdone
  by_cases hfile : resolved.backend = .file
  · -- both take the size from the same call
    simp only [readEnds, if_pos hfile, readFileEnds] at hdone
    simp only [stat, if_pos hfile]
    cases hsize : service.fileSize with
    | error message =>
        rw [hsize] at hdone
        cases hdone
    | ok total =>
        rw [hsize] at hdone
        simp only at hdone
        split at hdone
        · cases hdone
        · split at hdone
          · cases hdone
          · split at hdone
            · cases hdone
            · cases hdone
              rfl
  · by_cases hnone : lengths.head = 0 ∧ lengths.tail = 0
    · rw [readEnds, if_neg hfile, if_pos hnone] at hdone
      rw [stat, if_neg hfile]
      exact congrArg Prod.fst hdone
    · cases hservice with
      | missing _ hmissing =>
          exfalso
          obtain ⟨-, hhead, htail, -⟩ := EndsService.all_requests hmissing
          obtain ⟨requests, rfl | rfl, range, m, reply, m', hget⟩ :=
            readEnds_replied hfile hno hnone hdone
          · exact getRange_silent hhead hget
          · exact getRange_silent htail hget
      | @present object hobject hhonest htag _ hinfo =>
          obtain ⟨q, q', qs, hqs, hq, hq'⟩ := hinfo hfile
          have hetag : etag = tag := readEnds_tag hfile hno hnone htag hdone
          have hsize : size = visibleSize resolved object.length :=
            (readEnds_shows hhonest hobject (fun h => absurd h hfile) hdone).size_eq
          obtain ⟨_, -, _, _, _, _, hsent⟩ := readEnds_replied hfile hno hnone hdone
          have hattempts := maxAttempts_pos hsent
          obtain ⟨reply, last, m', hreply⟩ := Karu.getRange_answered service.options hattempts
            resolved.backend hobject rfl (by decide) (by decide) hq hq' qs scratch
          have hget : getRange service resolved { length := 1 } [] service.info scratch =
              (.reply reply, m') := by
            simp only [getRange, hqs, hreply]
          have hexact := getRange_reply (by decide) hhonest.info hget
          have hown : reply.etag = tag :=
            getRange_etag (EndsService.all_requests htag).1 hget
          rw [stat, if_neg hfile, objectInfo, hget]
          simp only
          rw [hexact.total_eq, hown, hsize, hetag]

/-! ## Windows of length zero -/

/-- Nothing is sent, and nothing is known of the object. -/
theorem readEnds_requestless (h : Requestless resolved lengths) :
    readEnds service resolved lengths scratch b = (.done 0 [], b) := by
  have hb : bounded resolved = true := by
    rw [bounded, h.empty]
    decide
  have hscratch : headInScratch resolved lengths = false := by simp [headInScratch, hb]
  have hhead : headSize resolved lengths = 0 := by
    simp [headSize, hscratch, hb, atMost, h.empty]
  have hapart : tailApart resolved lengths = false := by
    simp [tailApart, h.empty]
  have htail : tailSize resolved lengths = 0 := by
    simp [tailSize, hapart, bySuffix, hb]
  have hvisible : visibleSize resolved 0 = 0 := (visibleSize_bounded hb 0).trans h.empty
  simp [readEnds, if_neg h.remote, if_neg h.some_wanted, hhead, htail, joinEnds, hb, hscratch,
    hvisible, atMost]

theorem stat_missing (hremote : resolved.backend ≠ .file)
    (hservice : service.Unchanging resolved tag none) :
    stat service resolved scratch ≠ .done size etag := by
  cases hservice with
  | missing _ hmissing =>
      rw [stat, if_neg hremote, objectInfo]
      generalize hget : getRange service resolved { length := 1 } [] service.info scratch = x
      obtain ⟨outcome, m'⟩ := x
      cases outcome with
      | failed status detail => simp
      | again loop => simp
      | reply reply => exact absurd hget (getRange_silent (EndsService.all_requests hmissing).1)

end Agreement

/-- `read_ends` agrees with `stat` on every unchanging object, unless the window is remote and of
length zero and some bytes are wanted of it. -/
theorem readEnds_agrees_iff [Octet β] (resolved : Resolved) (lengths : EndLengths) (tag : Text)
    (scratch : Memory Unit β) (b : EndBuffers β) :
    (∀ (service : EndsService β) (state : Option (List β)),
      service.Unchanging resolved tag state → Agrees service resolved lengths scratch b) ↔
      ¬ Requestless resolved lengths := by
  constructor
  · intro h hless
    have hnowhere : (nowhere : EndsService β).Unchanging resolved tag none :=
      nowhere_unchanging resolved tag
    have hagrees := h nowhere none hnowhere 0 [] b (readEnds_requestless hless)
    exact stat_missing hless.remote hnowhere hagrees
  · intro hno service state hservice
    exact readEnds_agrees hno hservice

theorem cut_lt_word : 10 < 2 ^ 64 := by decide

/-- The five bytes behind a window of ten: none are left. -/
def cutWindow : Resolved where
  backend := .s3
  canonicalUri := text "/vsis3/b/k"
  container := text "b"
  key := text "k"
  windowOffset := 10
  windowLength := 0
  windowOffset_lt := cut_lt_word
  windowLength_lt := zero_lt_word

/-- The first byte. -/
def oneHead : EndLengths where
  head := 1
  tail := 0
  head_lt := one_lt_word
  tail_lt := zero_lt_word

/-- `read_ends` of an object that is not there returns `KARU_OK`, and `stat` does not. -/
theorem cutWindow_disagrees :
    (Uri.resolve (text "/vsisubfile/10_5,/vsisubfile/0_10,/vsis3/b/k")).toOption =
        some cutWindow ∧
      (nowhere : EndsService UInt8).Unchanging cutWindow [] none ∧
      ¬ Agrees nowhere cutWindow oneHead zeros ⟨zeros, zeros⟩ := by
  have hmissing := @nowhere_unchanging UInt8 cutWindow []
  have hless : Requestless cutWindow oneHead := ⟨by decide, rfl, by decide⟩
  refine ⟨by decide +kernel, hmissing, ?_⟩
  intro hagrees
  exact stat_missing hless.remote hmissing (hagrees 0 [] _ (readEnds_requestless hless))

end Engine

end Karu
