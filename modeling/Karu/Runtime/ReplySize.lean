/-
# `Karu.Runtime.ReplySize` — how much a reply has got

`get_range` replies to a `206` once all that was wanted has been stored, and to
a `200` whatever has been stored.  What is wanted comes from the header lines in
front of the body: from the numbers that the `Content-Range` values of a `206`
leave behind, and of a `200` from the size they state, or else from its
`Content-Length`.  The size that is replied may come from behind the body.

So a reply has got its share of the range exactly when these numbers agree, and
when the body of a `200` is as long as the size that its `Content-Range` states.
libcurl vouches for `Content-Length` only.
-/
import Karu.Runtime.Replies

namespace Karu

open Base

variable {β : Type}

/-- The state the header lines of a response leave, if they are accepted. -/
structure ProbeRead (r : Response β) (p₀ p : ProbeState) : Prop where
  headed : ProbeHeaded r.fields p₀ p
  stated_eq : p.stated = lastTotal (contentRanges r.fields)
  uncut : p.cutShort = false
  unignored : p.suffixIgnored = false

theorem feed_probeRead (r : Response β) (curl : Libcurl) {p₀ p : ProbeState}
    (hp : p.resetResponse = p₀.resetResponse)
    (h : (feed (probeHeaderCallback curl r.now) r.lines p).2 = true) :
    ProbeRead r p₀ (feed (probeHeaderCallback curl r.now) r.lines p).1 := by
  let p₁ : ProbeState := { p.resetResponse with httpStatus := responseStatus r.statusLine }
  have hfirst : probeHeaderCallback curl r.now r.statusLine p = (p₁, true) := by
    simp [probeHeaderCallback, r.status_first, p₁]
  have hheaded : ProbeHeaded [] p₀ p₁ := ⟨hp, rfl, rfl, rfl, rfl, rfl, rfl, rfl, rfl, rfl⟩
  rw [Response.lines, feed_cons_true (by rw [hfirst]), hfirst] at h ⊢
  have hhead := (feed_probeHeaderCallback curl r.now r.fields [] p₁ hheaded).2 h
  have hfields := latest_lines r
  simp only [latest, Response.lines, List.foldl_cons, r.status_first, if_true] at hfields
  rw [hfields] at hhead
  obtain ⟨hkeep, hstated⟩ := feed_stated curl r.now r.fields p₁ r.status_once h
  exact ⟨hhead, hstated, ProbeState.field_of_progress (·.cutShort) hkeep,
    ProbeState.field_of_progress (·.suffixIgnored) hkeep⟩

/-- A response that the redirect guard lets pass, its trailers included. -/
theorem probeTrailed_read [Octet β] (r : Trailed β) (curl : Libcurl) {p₀ : ProbeState}
    {s : Probing β} (hs : s.state.resetResponse = p₀.resetResponse)
    (hopen : (probeTrailed curl r s).1.state.redirectBlocked = false) :
    ∃ p, ProbeRead r.heading p₀ p ∧ TrailedEnd r p s.memory (probeTrailed curl r s) := by
  have hread : ∀ p, feed (probeHeaderCallback curl r.now) r.heading.lines s.state = (p, true) →
      ProbeRead r.heading p₀ p := by
    intro p hlines
    have h := feed_probeRead r.heading curl hs
    rw [show r.heading.now = r.now from rfl, hlines] at h
    exact h rfl
  obtain ⟨p, hlines, hend⟩ := probeTrailed_ends r curl hopen fun p hlines =>
    ⟨(hread p hlines).headed.waiting, (hread p hlines).headed.stored_eq⟩
  exact ⟨p, hread p hlines, hend⟩

/-! ## What a reply has got -/

/-- How much of a range there is in an object of `n` bytes. -/
def ByteRange.share (range : ByteRange) (n : Nat) : Nat :=
  if range.suffix then min range.length n else min range.length (n - range.first)

/-- How much of a whole object is left out in front of the range. -/
def ByteRange.skipped (range : ByteRange) : Nat := if range.suffix then 0 else range.first

theorem ByteRange.start_eq {range : ByteRange} {n : Nat} (h : range.suffix = true → n ≤ range.length) :
    range.start n = range.skipped := by
  unfold ByteRange.start ByteRange.skipped
  split
  · exact Nat.sub_eq_zero_of_le (h ‹_›)
  · rfl

theorem ByteRange.share_eq (range : ByteRange) (n : Nat) :
    range.share n = min range.length (n - range.start n) := by
  unfold ByteRange.share ByteRange.start
  split <;> omega

/-- The size of the object, as far as the response states it. -/
def Response.stated (r : Response β) : Nat :=
  (lastTotal (contentRanges r.fields)).getD r.contentLength.toNat

/-- The length between the numbers that the `Content-Range` values leave behind. -/
def Response.span (r : Response β) : Nat :=
  add64 (sub64 (lastLast (contentRanges r.fields)) (lastFirst (contentRanges r.fields))) 1

/-- The size of the object, as far as the response and its trailers state it. -/
def Trailed.stated (r : Trailed β) : Nat :=
  (lastTotal (contentRanges (r.fields ++ r.trailers))).getD r.contentLength.toNat

/-- The response has as much as the sizes it states promise: its `Content-Range` values, as a
`206`; its body, as a `200`, which is only read to its end if it falls short of the size stated
in front of it. -/
structure Trailed.Ample (range : ByteRange) (r : Trailed β) : Prop where
  partly : r.code = 206 → r.heading.span = range.share r.stated
  whole : r.code = 200 →
    range.skipped + range.share r.heading.stated ≤ r.body.length ∨
      r.body.length - range.skipped = range.share r.stated

/-- The reply has got all there is of the range in an object of the size it gives, and that many
bytes of the response are in the destination, in order. -/
structure RangeReply.Full (range : ByteRange) (r : Response β) (reply : RangeReply)
    (m : Memory Unit β) : Prop where
  got_eq : reply.got = range.share reply.total
  bytes_eq : m.read () 0 reply.got =
    (r.body.drop (if r.code = 200 then range.skipped else 0)).take reply.got

theorem lastTotal_append (values values' : List Text) (total : Option Nat) :
    lastTotal (values ++ values') total = lastTotal values' (lastTotal values total) :=
  List.foldl_append

/-- A size that is stated replaces the one before. -/
theorem lastTotal_or (values : List Text) (total : Option Nat) :
    lastTotal values total = (lastTotal values).or total := by
  induction values using List.reverseRecOn with
  | nil => rw [lastTotal, lastTotal, List.foldl_nil, List.foldl_nil, Option.none_or]
  | append_singleton values v ih =>
      rw [lastTotal_append, lastTotal_append, ih]
      exact (Option.or_assoc).symm

theorem Trailed.stated_empty {r : Trailed β} (h : r.chunks = []) : r.heading.stated = r.stated := by
  show (lastTotal (contentRanges r.heading.fields)).getD r.contentLength.toNat = r.stated
  rw [Trailed.heading_empty h]
  rfl

/-- From the size in front of the body, the lines behind it make the last one. -/
theorem Trailed.lastTotal_rest (r : Trailed β) :
    lastTotal (contentRanges r.rest) (some r.heading.stated) = some r.stated := by
  by_cases hchunks : r.chunks = []
  · have hrest : r.rest = [] := by
      rw [Trailed.rest, hchunks, List.isEmpty_nil, if_pos rfl]
    rw [hrest, Trailed.stated_empty hchunks]
    rfl
  · have hrest : r.rest = r.trailers := if_neg (by simpa using hchunks)
    have hheading : r.heading.stated =
        (lastTotal (contentRanges r.fields)).getD r.contentLength.toNat := by
      rw [Trailed.heading_body hchunks]
      rfl
    rw [hrest, hheading, lastTotal_or, Trailed.stated, contentRanges_append, lastTotal_append,
      lastTotal_or (contentRanges r.trailers) (lastTotal _)]
    cases lastTotal (contentRanges r.trailers) with
    | some n => rfl
    | none => rfl

/-- The lines in front of the body have all the `Content-Range` values, where there is one in
all. -/
theorem Trailed.heading_single {r : Trailed β} {v : Text}
    (hone : contentRanges (r.fields ++ r.trailers) = [v])
    (hsome : contentRanges r.heading.fields ≠ []) : contentRanges r.heading.fields = [v] := by
  by_cases hchunks : r.chunks = []
  · rw [Trailed.heading_empty hchunks]
    exact hone
  · rw [Trailed.heading_body hchunks] at hsome ⊢
    rw [contentRanges_append] at hone
    rcases List.append_eq_singleton_iff.mp hone with ⟨hnone, -⟩ | ⟨hv, -⟩
    · exact absurd hnone hsome
    · exact hv

/-- Of a whole object whose size only `Content-Length` states there is all. -/
theorem Trailed.ample_of_length {r : Trailed β} {range : ByteRange} (h200 : r.code = 200)
    (hnone : contentRanges (r.fields ++ r.trailers) = []) (hlength : r.contentLength = r.body.length) :
    r.Ample range := by
  have hstated : r.stated = r.body.length := by
    rw [Trailed.stated, hnone, hlength]
    rfl
  have hheading : r.heading.stated = r.body.length := by
    have hfields : contentRanges r.heading.fields = [] := by
      rw [contentRanges_append, List.append_eq_nil_iff] at hnone
      rw [Trailed.contentRanges_heading hnone.2]
      exact hnone.1
    show (lastTotal (contentRanges r.heading.fields)).getD r.contentLength.toNat = _
    rw [hfields, hlength]
    rfl
  refine ⟨fun h206 => by omega, fun _ => ?_⟩
  rw [hstated, hheading]
  unfold ByteRange.share ByteRange.skipped
  split
  · omega
  · omega

section Ended

variable {r : Trailed β} {p₀ p : ProbeState} {m : Memory Unit β} {x : Probing β × Bool}
  {result : CurlCode} {range : ByteRange} {reply : RangeReply}

/-- A `416` is replied to only where there is nothing of the range. -/
theorem unsatisfied_full (h : unsatisfiedReply range p = some reply)
    (hheard : reply.suffixIgnored = false) (m : Memory Unit β) :
    reply.Full range r.toResponse m := by
  have hnone : ∀ reply : RangeReply, reply.got = 0 → range.share reply.total = 0 →
      reply.Full range r.toResponse m := by
    intro reply hgot hshare
    refine ⟨hgot.trans hshare.symm, ?_⟩
    rw [hgot]
    rfl
  unfold unsatisfiedReply at h
  unfold ByteRange.share at hnone
  cases hs : range.suffix with
  | true =>
      simp only [hs, if_true] at h hnone
      split at h
      · rename_i hzero
        cases h
        refine hnone _ rfl ?_
        rw [hzero, Nat.min_zero]
      · cases h
        cases hheard
  | false =>
      simp only [hs, Bool.false_eq_true, if_false] at h hnone
      split at h
      · rename_i hpast
        cases h
        refine hnone _ rfl ?_
        rw [Nat.sub_eq_zero_of_le hpast, Nat.min_zero]
      · cases h

/-- The size the state knows, if the response states one or has a length. -/
theorem ProbeRead.known {r : Response β} (hp : ProbeRead r p₀ p) (h : p.haveTotal = true) :
    p.total = r.stated := by
  have hstated := hp.stated_eq
  rw [ProbeState.stated, if_pos h] at hstated
  rw [Response.stated, ← hstated, Option.getD_some]

theorem ProbeRead.unknown {r : Response β} (hp : ProbeRead r p₀ p) (h : p.haveTotal = false) :
    r.stated = r.contentLength.toNat := by
  have hstated := hp.stated_eq
  rw [ProbeState.stated, if_neg (by rw [h]; decide)] at hstated
  rw [Response.stated, ← hstated, Option.getD_none]

/-- A range that answers the request states the size. -/
theorem ProbeRead.answered {r : Response β} (hp : ProbeRead r p₀ p)
    (h : p.contentRangeAnswers = true) : p.haveTotal = true := by
  have hanswers := hp.headed.answers_eq
  rw [h] at hanswers
  cases hsized : lastSized (contentRanges r.fields) with
  | none =>
      rw [hsized] at hanswers
      cases hanswers
  | some c =>
      have hsome := lastTotal_of_lastSized hsized
      rw [← hp.stated_eq, ProbeState.stated] at hsome
      by_contra hnot
      rw [if_neg hnot] at hsome
      cases hsome

/-- The size that is known once the trailers have come. -/
theorem ProbeTrailing.total_eq {p' : ProbeState} (h : ProbeTrailing r.rest p p')
    (hknown : p.stated = some r.heading.stated) : p'.total = r.stated := by
  have hstated := h.stated_eq
  rw [hknown, r.lastTotal_rest, ProbeState.stated] at hstated
  split at hstated
  · exact Option.some.inj hstated
  · cases hstated

/-- A `206` has got its share if its `Content-Range` values are of one mind. -/
theorem partly_full (hp : ProbeRead r.heading p₀ p) {s : Probing β} (h206 : r.code = 206)
    (hended : ProbeEnded r.heading r.rest p result s)
    (hreply : Replied p₀.range r.code s.state reply) :
    p.contentRangeAnswers = true ∧
      (reply.Full p₀.range r.toResponse s.memory ↔ r.Ample p₀.range) := by
  obtain ⟨p', s₁, hread, hmemory, htrailing, -, hanswers, hwanted, hskip, hstated, -, -, hstored,
    rfl⟩ := partly_reading (r := r.heading) h206 hended hreply
  refine ⟨hanswers, ?_⟩
  have hknown : s₁.state.stated = some r.heading.stated := by
    have hhave := hp.answered hanswers
    refine (ProbeState.field_of_settings (·.stated) hread.settings_eq).trans (hstated.trans ?_)
    rw [ProbeState.stated, if_pos hhave, hp.known hhave]
  have hsized : s.state.total = r.stated := htrailing.total_eq hknown
  have hgot : s.state.stored = s₁.state.stored :=
    ProbeState.field_of_progress (·.stored) htrailing.progress_eq
  have hspan : s.state.stored = r.heading.span := by
    rw [hgot, hstored, hwanted, hp.headed.first_eq, hp.headed.last_eq]
    rfl
  have hbytes : s.memory.read () 0 s.state.stored =
      (r.body.drop (if r.code = 200 then p₀.range.skipped else 0)).take s.state.stored := by
    have hbody : r.heading.body = r.body := rfl
    rw [hgot, hmemory, hread.memory_eq, hskip, hp.headed.skip_eq, hstored, hbody,
      if_neg (by omega)]
  constructor
  · intro h
    refine ⟨fun _ => ?_, fun h200 => ?_⟩
    · rw [← hspan, ← hsized]
      exact h.got_eq
    · omega
  · intro h
    refine ⟨?_, hbytes⟩
    show s.state.stored = p₀.range.share s.state.total
    rw [hspan, hsized]
    exact h.partly h206

/-- What a `200` that is read to its end has got is its share, if it is that of either size. -/
theorem Trailed.ample_of_end (h200 : r.code = 200) {stored : Nat}
    (hstored : stored = min (r.body.length - range.skipped) (range.share r.heading.stated))
    (hlast : range.skipped + range.share r.heading.stated ≤ r.body.length →
      r.heading.stated = r.stated) : stored = range.share r.stated ↔ r.Ample range := by
  by_cases hlong : range.skipped + range.share r.heading.stated ≤ r.body.length
  · refine iff_of_true ?_ ⟨fun h206 => by omega, fun _ => Or.inl hlong⟩
    rw [← hlast hlong]
    omega
  · constructor
    · exact fun h => ⟨fun h206 => by omega, fun _ => Or.inr (by omega)⟩
    · intro h
      have hends := (h.whole h200).resolve_left hlong
      omega

/-- A `200` has got its share if its body is long enough for the size stated in front of it, or
if it ends where the size stated behind it says. -/
theorem whole_full (hp : ProbeRead r.heading p₀ p) {s : Probing β} (h200 : r.code = 200)
    (hended : ProbeEnded r.heading r.rest p result s)
    (hreply : Replied p₀.range r.code s.state reply) (hheard : reply.suffixIgnored = false) :
    reply.Full p₀.range r.toResponse s.memory ↔ r.Ample p₀.range := by
  have hstart : WholeStart r.heading.stated { p with started := true }
      (startBody r.heading.info { p with started := true }) := by
    refine startBody_whole h200 hp.known (fun hnone hpos => ?_) hp.headed.skip_eq
    have hlength : r.heading.info.contentLength = r.heading.contentLength := rfl
    rw [hp.unknown hnone]
    omega
  obtain ⟨p', read, s₁, hpre, hread, hmemory, htotal, hhave, hshort, hskip, -, hwanted, hall, rfl⟩ :=
    whole_reading (r := r.heading) hstart h200 hended hreply hheard
  have hbody : r.heading.body = r.body := rfl
  rw [hbody] at hpre hall
  have hrange : p.range = p₀.range := hp.headed.range_eq
  rw [hrange] at hshort hskip hwanted
  rw [← ByteRange.share_eq] at hwanted
  rw [ByteRange.start_eq hshort] at hskip
  have hstored := hread.stored_eq
  rw [hskip, hwanted] at hstored
  have hbytes : s₁.memory.read () 0 s₁.state.stored =
      (r.body.drop p₀.range.skipped).take s₁.state.stored := by
    have hcut : read.drop p₀.range.skipped <+: r.body.drop p₀.range.skipped := drop_prefix_drop hpre _
    rw [hread.memory_eq, hskip, hwanted, List.prefix_iff_eq_take.mp hcut, List.take_take,
      List.length_drop, hstored]
  have hknown : s₁.state.stated = some r.heading.stated := by
    refine (ProbeState.field_of_settings (·.stated) hread.settings_eq).trans ?_
    rw [ProbeState.stated, if_pos hhave, htotal]
  have hlength := hpre.length_le
  have hleft := hread.skip_eq
  rw [hskip] at hleft
  rcases hall with ⟨rfl, hnone, hfull⟩ | ⟨htrailing, -, rfl, hopen⟩
  · -- cut short with all that was wanted
    have hsized : s.state.total = r.heading.stated := by
      rw [ProbeState.stated] at hknown
      split at hknown
      · exact Option.some.inj hknown
      · cases hknown
    refine iff_of_true ⟨?_, ?_⟩ ⟨fun h206 => by omega, fun _ => Or.inl ?_⟩
    · show s.state.stored = p₀.range.share s.state.total
      rw [hfull, hwanted, hsized]
    · show s.memory.read () 0 s.state.stored = _
      rw [hbytes, if_pos h200]
    · rw [hfull, hwanted] at hstored
      show p₀.range.skipped + p₀.range.share r.heading.stated ≤ r.body.length
      omega
  · -- read to its end
    have hsized : s.state.total = r.stated := htrailing.total_eq hknown
    have hgot : s.state.stored = s₁.state.stored :=
      ProbeState.field_of_progress (·.stored) htrailing.progress_eq
    have hlast : p₀.range.skipped + p₀.range.share r.heading.stated ≤ r.body.length →
        r.heading.stated = r.stated := by
      intro hlong
      have hempty : r.chunks = [] := by
        by_contra hne
        rw [hwanted] at hopen
        exact hopen hne (by omega) (by omega)
      exact Trailed.stated_empty hempty
    rw [← Trailed.ample_of_end h200 (hgot.trans (hstored.trans (Nat.min_comm _ _))) hlast]
    refine ⟨fun h => (h.got_eq.trans (congrArg _ hsized) : s.state.stored = _), fun h => ⟨?_, ?_⟩⟩
    · exact h.trans (congrArg p₀.range.share hsized.symm)
    · show s.memory.read () 0 s.state.stored = _
      rw [hgot, hmemory, hbytes, if_pos h200]

/-- Whatever a turn replies to. -/
theorem replied_full (hp : ProbeRead r.heading p₀ p) (hend : TrailedEnd r p m x)
    (hcode : probeCode result x = .ok)
    (hreply : Replied p₀.range r.code (probeFinal r.heading result x).state reply)
    (hheard : reply.suffixIgnored = false) :
    (r.code = 206 → p.contentRangeAnswers = true) ∧
      (reply.Full p₀.range r.toResponse x.1.memory ↔ r.Ample p₀.range) := by
  have hended : isSuccess r.code = true →
      ProbeEnded r.heading r.rest p result (probeFinal r.heading result x) := fun h =>
    hend.ended hp.headed.waiting hp.headed.stored_eq hp.uncut h hcode
  have hwhole : r.code = 200 → (reply.Full p₀.range r.toResponse x.1.memory ↔ r.Ample p₀.range) := by
    intro h200
    exact whole_full (s := probeFinal r.heading result x) hp h200 (hended (by rw [h200]; decide))
      hreply hheard
  cases hreply with
  | unsatisfied h416 _ hunsatisfied =>
      refine ⟨fun h206 => by omega,
        iff_of_true (unsatisfied_full hunsatisfied hheard x.1.memory) ⟨?_, ?_⟩⟩
      · omega
      · omega
  | partly h206 hexceeded hsame hclear hanswers hstored =>
      obtain ⟨hasked, hfull⟩ := partly_full (s := probeFinal r.heading result x) hp h206
        (hended (by rw [h206]; decide)) (.partly h206 hexceeded hsame hclear hanswers hstored)
      exact ⟨fun _ => hasked, hfull⟩
  | ignored h200 => exact ⟨fun h206 => by omega, hwhole h200⟩
  | whole h200 => exact ⟨fun h206 => by omega, hwhole h200⟩

/-- One `Content-Range` value that answers the request is of one mind with itself. -/
theorem ProbeRead.ample (hp : ProbeRead r.heading p₀ p) (h206 : r.code = 206)
    (hmade : p₀.range.refusal = none) (hanswers : p.contentRangeAnswers = true) {v : Text}
    (hone : contentRanges (r.fields ++ r.trailers) = [v]) : r.Ample p₀.range := by
  have hasked := hp.headed.answers_eq
  rw [hanswers] at hasked
  have hsome : contentRanges r.heading.fields ≠ [] := by
    intro hnil
    rw [hnil] at hasked
    cases hasked
  have hv := Trailed.heading_single hone hsome
  rw [hv] at hasked
  cases hc : contentRange v with
  | none => simp [lastSized, hc] at hasked
  | some c =>
      cases ht : c.total with
      | none => simp [lastSized, hc, ht] at hasked
      | some n =>
          obtain ⟨hfirst, hlast⟩ := lastFirst_singleton hc
          have hyes : answers p₀.range c.first c.last n = true := by
            simpa [lastSized, Option.filter, hc, ht, ContentRange.answers] using hasked.symm
          obtain ⟨-, hspan, hshare⟩ := answers_exact (contentRange_le hc)
            (contentRange_lt hc n ht) ((ByteRange.refusal_none _).mp hmade).1 hyes
          have hstated : r.stated = n := by
            have hwritten : writtenTotal v = some n := by
              rw [writtenTotal, hc, Option.bind_some, ht]
              rfl
            rw [Trailed.stated, hone, lastTotal, List.foldl_cons, List.foldl_nil, hwritten]
            rfl
          refine ⟨fun _ => ?_, fun h200 => by omega⟩
          rw [Response.span, hv, hfirst, hlast, hspan, hshare, hstated, ByteRange.share_eq]

end Ended

/-- What becomes of a request for the first ten bytes. -/
def tenOf (r : Trailed UInt8) : ProbeOutcome × Option (Trailed UInt8) × Memory Unit UInt8 :=
  getRange .uncalled .initial .http tenBytes.range [] [{ responses := [r] }] {} ⟨fun _ _ => 0, []⟩

/-- The `200` has the number of bytes it was asked for, and states the size. -/
def tenWhole : Trailed UInt8 where
  code := 200
  statusLine := text "HTTP/1.1 200 OK\r\n"
  fields := [text "Content-Range: bytes 0-9/10\r\n"]
  chunks := [[0, 1, 2, 3], [4, 5, 6, 7, 8, 9]]

/-- A trailer has the last word about the size. -/
example : (tenOf
    { code := 206
      statusLine := text "HTTP/1.1 206 Partial Content\r\n"
      fields := [text "Transfer-Encoding: chunked\r\n", text "Content-Range: bytes 0-9/100\r\n"]
      chunks := [[0, 1, 2, 3], [4, 5, 6, 7, 8, 9]]
      trailers := [text "Content-Range: bytes 0-4/5\r\n"] }).1 =
    .reply { total := 5, got := 10 } := by decide +kernel

/-- The object has a hundred bytes, and four of them arrive, in chunks. -/
def fourOfHundred : Trailed UInt8 where
  code := 200
  statusLine := text "HTTP/1.1 200 OK\r\n"
  fields := [text "Transfer-Encoding: chunked\r\n", text "Content-Range: bytes 0-99/100\r\n"]
  chunks := [[0, 1, 2, 3]]

end Karu
