/-
# `Karu.Runtime.ReadEnds` — the first and the last bytes of an object

`Engine::read_ends` and what it calls, from `src/runtime/engine.cpp`.  A local
file is read at two positions.  Of a remote object the head is asked for by
position; the tail by position too where the window is bounded, as a suffix
range where it is not, and where the answer to that is no use it is cut out of
the head or asked for once more, now that the size is known.

The two requests go out together, each into a buffer of its own, so that it
does not matter which is answered first.  Positions are 64-bit words and their
sums wrap here as they do there.
-/
import Karu.Runtime.Files
import Karu.Runtime.Replies

namespace Karu

open Base

variable {β : Type}

/-- What a file gives is the object's. -/
def OpenFile.Faithful (object : List β) (file : OpenFile β) : Prop :=
  ∀ n offset data, file.pread n offset = .ok data →
    data.length ≤ n ∧ data <+: object.drop offset

namespace Engine

/-- `visible_size`. -/
def visibleSize (resolved : Resolved) (total : Nat) : Nat :=
  if resolved.windowLength ≠ toEnd then resolved.windowLength
  else if resolved.windowOffset < total then total - resolved.windowOffset
  else 0

/-- `at_most`. -/
def atMost (length limit : Nat) : Nat := min length limit

/-- `short_read`. -/
def shortRead (resolved : Resolved) (first length got : Nat) : Status × Text :=
  (.errRange, shownUri resolved ++ text ": object ended at byte " ++ decimal (add64 first got) ++
    text " while reading [" ++ decimal first ++ text ", +" ++ decimal length ++ text ")")

/-! ## Local files -/

/-- The loop of `read_file` from `done` on, into a buffer of `size` bytes; nothing where it
returns `KARU_OK`. -/
def readFileLoop (file : OpenFile β) (resolved : Resolved) (first size : Nat) :
    Nat → Nat → Memory Unit β → Option (Status × Text) × Memory Unit β
  | 0, _, m => (none, m)
  | turns + 1, done, m =>
      if done < size then
        match file.readAt (size - done) (add64 first done) with
        | .error message => (some (.errIo, resolved.target ++ text ": " ++ message), m)
        | .ok data =>
            if data.isEmpty then (some (shortRead resolved first size done), m)
            else readFileLoop file resolved first size turns (done + data.length)
              (m.memcpy () done data)
      else (none, m)

/-- `read_file`: every turn that goes on reads a byte at least, so `size` of them are enough. -/
def readFile (file : OpenFile β) (resolved : Resolved) (first size : Nat) (m : Memory Unit β) :
    Option (Status × Text) × Memory Unit β :=
  readFileLoop file resolved first size size 0 m

/-! ## Arguments and results -/

/-- The lengths of the two buffers, which are `size_t`. -/
structure EndLengths where
  head : Nat
  tail : Nat
  head_lt : head < 2 ^ 64 := by decide
  tail_lt : tail < 2 ^ 64 := by decide

/-- The caller's two buffers. -/
structure EndBuffers (β : Type) where
  head : Memory Unit β
  tail : Memory Unit β

/-- How `read_ends` ends, if the world answers it to the end. -/
inductive EndsOutcome where
  | done (size : Nat) (etag : Text)
  | failed (status : Status) (detail : Text)
  | waiting
deriving DecidableEq

/-- What `read_ends` meets: the file behind the path, or the answers to the requests. -/
structure EndsService (β : Type) where
  curl : Libcurl
  options : ClientOptions := .initial
  fileSize : Except Text Nat := .ok 0
  opened : Except Text (OpenFile β)
  info : List (ProbeRequest β) := []
  head : List (ProbeRequest β) := []
  tail : List (ProbeRequest β) := []
  again : List (ProbeRequest β) := []

/-- `read_file_ends`. -/
def readFileEnds (service : EndsService β) (resolved : Resolved) (lengths : EndLengths)
    (b : EndBuffers β) : EndsOutcome × EndBuffers β :=
  match service.fileSize with
  | .error message => (.failed .errIo (resolved.target ++ text ": " ++ message), b)
  | .ok total =>
      match service.opened with
      | .error message => (.failed .errIo (resolved.target ++ text ": " ++ message), b)
      | .ok file =>
          let visible := visibleSize resolved total
          let tailLength := atMost lengths.tail visible
          let (failure, head) := readFile file resolved resolved.windowOffset
            (atMost lengths.head visible) b.head
          match failure with
          | some (status, detail) => (.failed status detail, { b with head := head })
          | none =>
              let (failure, tail) := readFile file resolved
                (sub64 (add64 resolved.windowOffset visible) tailLength) tailLength b.tail
              match failure with
              | some (status, detail) => (.failed status detail, ⟨head, tail⟩)
              | none => (.done visible [], ⟨head, tail⟩)

/-- `same_version`. -/
def sameVersion (left right : RangeReply) : Bool :=
  left.total == right.total &&
    (left.etag.isEmpty || right.etag.isEmpty || left.etag == right.etag)

section Remote

variable [Octet β]

/-- `Engine::get_range`. -/
def getRange (service : EndsService β) (resolved : Resolved) (range : ByteRange) (ifMatch : Text)
    (requests : List (ProbeRequest β)) (m : Memory Unit β) : ProbeOutcome × Memory Unit β :=
  let (outcome, _, m) :=
    Karu.getRange service.curl service.options resolved.backend range ifMatch requests {} m
  (outcome, m)

/-- `Engine::object_info` of a remote object, with `transport::object_info`. -/
def objectInfo (service : EndsService β) (resolved : Resolved) (first : Memory Unit β) :
    EndsOutcome :=
  match (getRange service resolved { length := 1 } [] service.info first).1 with
  | .reply reply => .done (visibleSize resolved reply.total) reply.etag
  | .failed status detail => .failed status detail
  | .again _ => .waiting

end Remote

/-! ## What is asked for -/

/-- `bounded`: such a window knows where its tail starts. -/
def bounded (resolved : Resolved) : Bool := resolved.windowLength != toEnd

/-- `by_suffix`: otherwise a suffix range finds it, except on Azure. -/
def bySuffix (resolved : Resolved) (lengths : EndLengths) : Bool :=
  !bounded resolved && lengths.tail != 0 && resolved.backend != .azure

/-- `head_part` is `scratch`: the tail needs the size first. -/
def headInScratch (resolved : Resolved) (lengths : EndLengths) : Bool :=
  !bounded resolved && lengths.head == 0 && !bySuffix resolved lengths

/-- `head_part.size()`. -/
def headSize (resolved : Resolved) (lengths : EndLengths) : Nat :=
  if headInScratch resolved lengths then 1
  else if bounded resolved then atMost lengths.head resolved.windowLength
  else lengths.head

/-- The tail of a bounded window that the head does not cover. -/
def tailApart (resolved : Resolved) (lengths : EndLengths) : Bool :=
  bounded resolved && decide (headSize resolved lengths < resolved.windowLength)

/-- `tail_part.size()`. -/
def tailSize (resolved : Resolved) (lengths : EndLengths) : Nat :=
  if tailApart resolved lengths then atMost lengths.tail resolved.windowLength
  else if bySuffix resolved lengths then lengths.tail
  else 0

theorem atMost_lt {n limit : Nat} (h : n < 2 ^ 64) : atMost n limit < 2 ^ 64 :=
  lt_of_le_of_lt (Nat.min_le_left _ _) h

theorem headSize_lt (resolved : Resolved) (lengths : EndLengths) :
    headSize resolved lengths < 2 ^ 64 := by
  unfold headSize
  split
  · decide
  · split
    · exact atMost_lt lengths.head_lt
    · exact lengths.head_lt

/-- The range of the head. -/
def headRange (resolved : Resolved) (lengths : EndLengths) : ByteRange where
  first := resolved.windowOffset
  length := headSize resolved lengths
  first_lt := resolved.windowOffset_lt
  length_lt := headSize_lt resolved lengths

/-- The last `atMost lengths.tail visible` of the bytes visible through the window. -/
def lastRange (resolved : Resolved) (lengths : EndLengths) (visible : Nat) : ByteRange where
  first := sub64 (add64 resolved.windowOffset visible) (atMost lengths.tail visible)
  length := atMost lengths.tail visible
  first_lt := sub64_lt _ _
  length_lt := atMost_lt lengths.tail_lt

/-- `tail_range`. -/
def tailRange (resolved : Resolved) (lengths : EndLengths) : ByteRange :=
  if tailApart resolved lengths then lastRange resolved lengths resolved.windowLength
  else { length := lengths.tail, suffix := true, length_lt := lengths.tail_lt }

section Joining

variable [Octet β]

/-! ## What is made of the answers -/

/-- The object changed between the two replies. -/
def changed (resolved : Resolved) : EndsOutcome :=
  .failed .errPrecondition (shownUri resolved ++
    text ": the object changed between reading its head and its tail")

/-- The tail by position, now that the size is known; `known` is the reply that told it. -/
def fetchTail (service : EndsService β) (resolved : Resolved) (lengths : EndLengths)
    (visible : Nat) (known : RangeReply) (etag : Text) (b : EndBuffers β) :
    EndsOutcome × EndBuffers β :=
  let (outcome, tail) :=
    getRange service resolved (lastRange resolved lengths visible) etag service.again b.tail
  let b := { b with tail := tail }
  match outcome with
  | .failed status detail => (.failed status detail, b)
  | .again _ => (.waiting, b)
  | .reply reply =>
      if !sameVersion reply known then (changed resolved, b)
      else (.done visible (if etag.isEmpty then reply.etag else etag), b)

/-- The end of `read_ends`: the two replies are in, and the buffers hold what they sent. -/
def joinEnds (service : EndsService β) (resolved : Resolved) (lengths : EndLengths)
    (head tail : RangeReply) (b : EndBuffers β) : EndsOutcome × EndBuffers β :=
  let headSent := decide (0 < headSize resolved lengths)
  let tailSent := decide (0 < tailSize resolved lengths)
  if (headSent && tailSent && !sameVersion head tail) = true then (changed resolved, b)
  else if bounded resolved = true ∧ head.got ≠ headSize resolved lengths then
    let (status, detail) :=
      shortRead resolved resolved.windowOffset (headSize resolved lengths) head.got
    (.failed status detail, b)
  else if bounded resolved = true ∧ tail.got ≠ tailSize resolved lengths then
    let (status, detail) := shortRead resolved (tailRange resolved lengths).first
      (tailSize resolved lengths) tail.got
    (.failed status detail, b)
  else
    let known := if headSent then head else tail
    let visible := visibleSize resolved known.total
    let headLength := atMost lengths.head visible
    let tailLength := atMost lengths.tail visible
    let etag := if known.etag.isEmpty then tail.etag else known.etag
    if 0 < tailLength then
      if tailSent && !tail.suffixIgnored then
        -- a suffix longer than the window starts before it
        if bySuffix resolved lengths then
          (.done visible etag,
            { b with tail :=
                b.tail.memcpy () 0 (b.tail.read () (sub64 tail.got tailLength) tailLength) })
        else (.done visible etag, b)
      else if visible ≤ headLength then
        (.done visible etag,
          { b with tail := b.tail.memcpy () 0 (b.head.read () (visible - tailLength) tailLength) })
      else fetchTail service resolved lengths visible known etag b
    else (.done visible etag, b)

/-- `Engine::read_ends`; `scratch` is the byte that is read only to learn the size. -/
def readEnds (service : EndsService β) (resolved : Resolved) (lengths : EndLengths)
    (scratch : Memory Unit β) (b : EndBuffers β) : EndsOutcome × EndBuffers β :=
  if resolved.backend = .file then readFileEnds service resolved lengths b
  else if lengths.head = 0 ∧ lengths.tail = 0 then (objectInfo service resolved scratch, b)
  else
    let (headReply, head) :=
      if 0 < headSize resolved lengths then
        getRange service resolved (headRange resolved lengths) [] service.head
          (if headInScratch resolved lengths then scratch else b.head)
      else (.reply {}, b.head)
    let (tailReply, tail) :=
      if 0 < tailSize resolved lengths then
        getRange service resolved (tailRange resolved lengths) [] service.tail b.tail
      else (.reply {}, b.tail)
    let b : EndBuffers β := ⟨if headInScratch resolved lengths then b.head else head, tail⟩
    match headReply, tailReply with
    | .failed status detail, _ => (.failed status detail, b)
    | .again _, _ => (.waiting, b)
    | .reply _, .failed status detail => (.failed status detail, b)
    | .reply _, .again _ => (.waiting, b)
    | .reply headReply, .reply tailReply =>
        joinEnds service resolved lengths headReply tailReply b

end Joining

/-! ## One object -/

/-- Whatever is asked is answered from one object. -/
structure EndsService.Honest (object : List β) (service : EndsService β) : Prop where
  size : ∀ n, service.fileSize = .ok n → n = object.length
  file : ∀ file, service.opened = .ok file → file.Faithful object
  info : ∀ q ∈ service.info, q.Steady object
  head : ∀ q ∈ service.head, q.Steady object
  tail : ∀ q ∈ service.tail, q.Steady object
  again : ∀ q ∈ service.again, q.Steady object

/-- A buffer holds the `n` bytes of the object from `pos`, and there are as many. -/
def Holds (object : List β) (pos n : Nat) (m : Memory Unit β) : Prop :=
  m.read () 0 n = (object.drop pos).take n

section Holds

variable {object : List β} {pos n : Nat} {m : Memory Unit β}

theorem Holds.zero : Holds object pos 0 m := by
  simp [Holds, Memory.read]

/-- It holds what reading the `n` bytes at `pos` comes to. -/
theorem Holds.readOutcome_eq (h : Holds object pos n m) :
    readOutcome object pos n = (.ok, n, m.read () 0 n) := by
  have hlength : ((object.drop pos).take n).length = n := by
    rw [← h, Memory.length_read]
  rw [readOutcome, hlength, if_pos rfl, h]

/-- The object goes on as far as the buffer does. -/
theorem Holds.le_length (h : Holds object pos n m) : n ≤ object.length - pos := by
  have hlength := congrArg List.length h
  rw [Memory.length_read, List.length_take, List.length_drop] at hlength
  omega

theorem Holds.slice (h : Holds object pos n m) {k len : Nat} (hle : k + len ≤ n) :
    m.read () k len = (object.drop (pos + k)).take len := by
  have hslice : m.read () (0 + k) len = ((m.read () 0 n).drop k).take len := m.read_slice () hle
  rw [Nat.zero_add, show m.read () 0 n = (object.drop pos).take n from h] at hslice
  rw [hslice, List.drop_take, List.take_take, List.drop_drop]
  congr 1
  omega

/-- Part of what a buffer holds, copied to the front of another. -/
theorem Holds.copy (h : Holds object pos n m) {k len : Nat} (hle : k + len ≤ n)
    (m' : Memory Unit β) : Holds object (pos + k) len (m'.memcpy () 0 (m.read () k len)) := by
  have hread : (m'.memcpy () 0 (m.read () k len)).read () 0 (0 + (m.read () k len).length) =
      m'.read () 0 0 ++ m.read () k len := read_append m'
  rw [Memory.length_read, Nat.zero_add] at hread
  rw [Holds, hread, h.slice hle]
  simp [Memory.read]

/-- One more read of a file. -/
theorem Holds.append (h : Holds object pos n m) {data : List β}
    (hdata : data <+: object.drop (pos + n)) :
    Holds object pos (n + data.length) (m.memcpy () n data) := by
  rw [Holds, read_append, show m.read () 0 n = (object.drop pos).take n from h, List.take_add,
    List.drop_drop, ← List.prefix_iff_eq_take.mp hdata]

end Holds

/-! ## The ends of a file -/

section Files

variable {object : List β} {file : OpenFile β} {resolved : Resolved} {first size : Nat}

/-- A loop that returns `KARU_OK` has filled its buffer.  Its positions do not wrap: they fit
from the start, or the object ends before they could. -/
theorem readFileLoop_holds (hfile : file.Faithful object) (hfirst : first < 2 ^ 64)
    (hfits : first + size ≤ 2 ^ 64 ∨ object.length ≤ offsetMax) :
    ∀ (turns done : Nat) {m m' : Memory Unit β}, Holds object first done m → done ≤ size →
      size - done ≤ turns → readFileLoop file resolved first size turns done m = (none, m') →
      Holds object first size m'
  | 0, done, m, m', h, hle, hturns, hrun => by
      obtain rfl : done = size := by omega
      cases hrun
      exact h
  | turns + 1, done, m, m', h, hle, hturns, hrun => by
      simp only [readFileLoop] at hrun
      split at hrun
      · rename_i hmore
        have hpos : add64 first done = first + done := by
          have := h.le_length
          unfold offsetMax at hfits
          exact add64_of_lt (by omega)
        rw [hpos] at hrun
        split at hrun
        · cases hrun
        · rename_i data hread
          split at hrun
          · cases hrun
          · rename_i hdata
            have hsome : data.length ≠ 0 := by simpa using hdata
            have hgiven : data.length ≤ size - done ∧ data <+: object.drop (first + done) := by
              unfold OpenFile.readAt at hread
              split at hread
              · cases hread
              · obtain ⟨hlen, hpre⟩ := hfile _ _ _ hread
                exact ⟨hlen.trans (Nat.min_le_left _ _), hpre⟩
            exact readFileLoop_holds hfile hfirst hfits turns (done + data.length)
              (h.append hgiven.2) (by omega) (by omega) hrun
      · obtain rfl : done = size := by omega
        cases hrun
        exact h

theorem readFile_holds (hfile : file.Faithful object) (hfirst : first < 2 ^ 64)
    (hfits : first + size ≤ 2 ^ 64 ∨ object.length ≤ offsetMax) {m m' : Memory Unit β}
    (h : readFile file resolved first size m = (none, m')) : Holds object first size m' :=
  readFileLoop_holds hfile hfirst hfits size 0 Holds.zero (Nat.zero_le _) le_rfl h

end Files

/-! ## The ends of an object -/

/-- The positions of the window are words. -/
def Fits (resolved : Resolved) : Prop :=
  bounded resolved = true → resolved.windowOffset + resolved.windowLength ≤ 2 ^ 64

/-- The two ends of what is visible through the window, the tail where its position, a word,
says. -/
structure Shows (object : List β) (resolved : Resolved) (lengths : EndLengths) (size : Nat)
    (b : EndBuffers β) : Prop where
  size_eq : size = visibleSize resolved object.length
  head : Holds object resolved.windowOffset (atMost lengths.head size) b.head
  tail : Holds object (lastRange resolved lengths size).first (atMost lengths.tail size) b.tail

section Ends

variable {object : List β} {resolved : Resolved} {lengths : EndLengths}

theorem visibleSize_bounded (h : bounded resolved = true) (total : Nat) :
    visibleSize resolved total = resolved.windowLength := by
  simp only [bounded, bne_iff_ne] at h
  rw [visibleSize, if_pos h]

theorem visibleSize_unbounded (h : bounded resolved = false) (total : Nat) :
    visibleSize resolved total = total - resolved.windowOffset := by
  simp only [bounded, bne_eq_false_iff_eq] at h
  rw [visibleSize, if_neg (by simpa using h)]
  split <;> omega

theorem visibleSize_fits (h : Fits resolved) {total : Nat} (htotal : total < 2 ^ 64) :
    resolved.windowOffset + visibleSize resolved total ≤ 2 ^ 64 := by
  have hoffset := resolved.windowOffset_lt
  cases hb : bounded resolved with
  | true =>
      rw [visibleSize_bounded hb]
      exact h hb
  | false =>
      rw [visibleSize_unbounded hb]
      omega

/-- Where the last bytes begin, if there are any. -/
theorem lastRange_first {visible : Nat} (hfits : resolved.windowOffset + visible ≤ 2 ^ 64)
    (hpos : 0 < atMost lengths.tail visible) :
    (lastRange resolved lengths visible).first =
      resolved.windowOffset + (visible - atMost lengths.tail visible) := by
  have hle : atMost lengths.tail visible ≤ visible := Nat.min_le_right _ _
  show sub64 (add64 resolved.windowOffset visible) (atMost lengths.tail visible) = _
  unfold sub64 add64
  omega

theorem lastRange_start (visible n : Nat) :
    (lastRange resolved lengths visible).start n = (lastRange resolved lengths visible).first := by
  simp [ByteRange.start, lastRange]

theorem lastRange_length (visible : Nat) :
    (lastRange resolved lengths visible).length = atMost lengths.tail visible := by
  simp [lastRange]

theorem readFileEnds_shows {service : EndsService β} (hservice : service.Honest object)
    (hobject : object.length < 2 ^ 64) (hplace : Fits resolved ∨ object.length ≤ offsetMax)
    {b b' : EndBuffers β} {size : Nat} {etag : Text}
    (h : readFileEnds service resolved lengths b = (.done size etag, b')) :
    Shows object resolved lengths size b' := by
  simp only [readFileEnds] at h
  split at h
  · cases h
  · rename_i total htotal
    obtain rfl := hservice.size total htotal
    have hvisible : resolved.windowOffset + visibleSize resolved object.length ≤ 2 ^ 64 ∨
        object.length ≤ offsetMax := hplace.imp_left fun hfits => visibleSize_fits hfits hobject
    split at h
    · cases h
    · rename_i file hopened
      have hfile := hservice.file file hopened
      generalize hhead : readFile file resolved resolved.windowOffset _ b.head = x at h
      obtain ⟨failure, head⟩ := x
      generalize htail : readFile file resolved (sub64 _ _) _ b.tail = y at h
      obtain ⟨failure', tail⟩ := y
      cases failure with
      | some f => cases h
      | none =>
          cases failure' with
          | some f => cases h
          | none =>
              cases h
              refine ⟨rfl, ?_, ?_⟩
              · refine readFile_holds hfile resolved.windowOffset_lt (hvisible.imp_left ?_) hhead
                intro hfits
                have : atMost lengths.head (visibleSize resolved object.length) ≤
                  visibleSize resolved object.length := Nat.min_le_right _ _
                omega
              · rcases Nat.eq_zero_or_pos
                  (atMost lengths.tail (visibleSize resolved object.length)) with hzero | hpos
                · rw [hzero]
                  exact Holds.zero
                · refine readFile_holds hfile (sub64_lt _ _) (hvisible.imp_left ?_) htail
                  intro hfits
                  have hfirst := lastRange_first hfits hpos
                  have hle : atMost lengths.tail (visibleSize resolved object.length) ≤
                    visibleSize resolved object.length := Nat.min_le_right _ _
                  rw [show sub64 _ _ = _ from hfirst]
                  omega

/-- The replies to the two requests, where they were sent; `scratch` is where the head went. -/
structure Answered (object : List β) (resolved : Resolved) (lengths : EndLengths)
    (head tail : RangeReply) (scratch : Memory Unit β) (b : EndBuffers β) : Prop where
  head : 0 < headSize resolved lengths → head.Exact object (headRange resolved lengths) scratch
  tail : 0 < tailSize resolved lengths → tail.Exact object (tailRange resolved lengths) b.tail
  headed : headInScratch resolved lengths = false → 0 < headSize resolved lengths →
    b.head = scratch

section Answered

variable {head tail : RangeReply} {scratch : Memory Unit β} {b : EndBuffers β}

theorem headRange_start (n : Nat) :
    (headRange resolved lengths).start n = resolved.windowOffset := rfl

/-- A head by position is never ignored. -/
theorem Answered.head_heard (h : Answered object resolved lengths head tail scratch b)
    (hsent : 0 < headSize resolved lengths) : head.suffixIgnored = false := by
  cases hignored : head.suffixIgnored with
  | false => rfl
  | true => cases (h.head hsent).ignored hignored

/-- Without a bound, one of the two requests goes out. -/
theorem sent_of_unbounded (hb : bounded resolved = false) (hno : headSize resolved lengths = 0) :
    0 < tailSize resolved lengths ∧ bySuffix resolved lengths = true := by
  cases hs : bySuffix resolved lengths with
  | true =>
      refine ⟨?_, rfl⟩
      have htail : lengths.tail ≠ 0 := by
        simp only [bySuffix, Bool.and_eq_true, bne_iff_ne] at hs
        exact hs.1.2
      simp only [tailSize, tailApart, hb, hs, Bool.false_and, Bool.false_eq_true, if_false, if_true]
      omega
  | false =>
      exfalso
      simp only [headSize, headInScratch, hb, hs, Bool.not_false, Bool.true_and, Bool.and_true,
        beq_iff_eq, Bool.false_eq_true, if_false] at hno
      split at hno <;> omega

/-- The size that the replies tell. -/
theorem Answered.visible (h : Answered object resolved lengths head tail scratch b) :
    visibleSize resolved (if 0 < headSize resolved lengths then head else tail).total =
      visibleSize resolved object.length := by
  cases hb : bounded resolved with
  | true => rw [visibleSize_bounded hb, visibleSize_bounded hb]
  | false =>
      split
      · rename_i hsent
        rw [(h.head hsent).total_eq]
      · rename_i hunsent
        rw [(h.tail (sent_of_unbounded hb (by omega)).1).total_eq]

/-- The head, once a bounded window has been found to be there in full. -/
theorem Answered.head_holds (h : Answered object resolved lengths head tail scratch b)
    (hfull : bounded resolved = true → head.got = headSize resolved lengths) :
    Holds object resolved.windowOffset
      (atMost lengths.head (visibleSize resolved object.length)) b.head := by
  rcases Nat.eq_zero_or_pos (atMost lengths.head (visibleSize resolved object.length))
    with hzero | hpos
  · rw [hzero]
    exact Holds.zero
  · have hhead : 0 < lengths.head := lt_of_lt_of_le hpos (Nat.min_le_left _ _)
    have hplain : headInScratch resolved lengths = false := by
      have : ¬ lengths.head = 0 := by omega
      simp [headInScratch, this]
    have hsize : headSize resolved lengths = if bounded resolved then
        atMost lengths.head resolved.windowLength else lengths.head := by
      simp [headSize, hplain]
    cases hb : bounded resolved with
    | true =>
        rw [visibleSize_bounded hb] at hpos ⊢
        rw [hb, if_pos rfl] at hsize
        have hsent : 0 < headSize resolved lengths := hsize ▸ hpos
        have hbytes := (h.head hsent).bytes_eq (h.head_heard hsent)
        rw [headRange_start, hfull hb, ← h.headed hplain hsent] at hbytes
        rw [← hsize]
        exact hbytes
    | false =>
        rw [visibleSize_unbounded hb] at hpos ⊢
        rw [hb, if_neg (by decide)] at hsize
        have hsent : 0 < headSize resolved lengths := by omega
        have hbytes := (h.head hsent).bytes_eq (h.head_heard hsent)
        have hgot := (h.head hsent).got_eq (h.head_heard hsent)
        have hlength : (headRange resolved lengths).length = lengths.head := hsize
        rw [headRange_start, hlength] at hbytes hgot
        rw [hgot, ← h.headed hplain hsent] at hbytes
        rw [Holds, atMost, hbytes, List.take_eq_take_iff, List.length_drop]
        omega

/-- The tail of a reply to a suffix range, moved to the front of its buffer. -/
theorem Answered.suffix_holds (h : Answered object resolved lengths head tail scratch b)
    (hobject : object.length < 2 ^ 64) (hsent : 0 < tailSize resolved lengths)
    (hheard : tail.suffixIgnored = false) (hsuffix : bySuffix resolved lengths = true) {n : Nat}
    (hn : n = atMost lengths.tail (visibleSize resolved object.length)) (hpos : 0 < n) :
    Holds object (lastRange resolved lengths (visibleSize resolved object.length)).first n
      (b.tail.memcpy () 0 (b.tail.read () (sub64 tail.got n) n)) := by
  have hb : bounded resolved = false := by
    simp only [bySuffix, Bool.and_eq_true, Bool.not_eq_true'] at hsuffix
    exact hsuffix.1.1
  have hfirst : (lastRange resolved lengths (visibleSize resolved object.length)).first =
      resolved.windowOffset + (visibleSize resolved object.length - n) := by
    have hoffset := resolved.windowOffset_lt
    have hfits : resolved.windowOffset + visibleSize resolved object.length ≤ 2 ^ 64 := by
      rw [visibleSize_unbounded hb]
      omega
    rw [lastRange_first hfits (hn ▸ hpos), ← hn]
  rw [hfirst]
  have hrange : tailRange resolved lengths =
      { length := lengths.tail, suffix := true, length_lt := lengths.tail_lt } := by
    simp [tailRange, tailApart, hb]
  have hexact := h.tail hsent
  have hgot := hexact.got_eq hheard
  have hbytes := hexact.bytes_eq hheard
  rw [hrange] at hgot hbytes
  simp only [ByteRange.start, if_true] at hgot hbytes
  rw [visibleSize_unbounded hb] at hn ⊢
  unfold atMost at hn
  have hsub : sub64 tail.got n = tail.got - n := sub64_of_le (by omega) (by omega)
  have hheld : Holds object (object.length - lengths.tail) tail.got b.tail := by
    rw [Holds, hbytes, List.take_eq_take_iff, List.length_drop]
    omega
  have hinside : tail.got - n + n ≤ tail.got := by omega
  have hmoved := hheld.copy hinside b.tail
  have hwhere : object.length - lengths.tail + (tail.got - n) =
      resolved.windowOffset + (object.length - resolved.windowOffset - n) := by omega
  rw [hsub, ← hwhere]
  exact hmoved

/-- The tail of a bounded window, by position. -/
theorem Answered.tail_holds (h : Answered object resolved lengths head tail scratch b)
    (hsent : 0 < tailSize resolved lengths) (hheard : tail.suffixIgnored = false)
    (hplain : bySuffix resolved lengths = false)
    (hfull : bounded resolved = true → tail.got = tailSize resolved lengths) {n : Nat}
    (hn : n = atMost lengths.tail (visibleSize resolved object.length)) :
    Holds object (lastRange resolved lengths (visibleSize resolved object.length)).first n
      b.tail := by
  have hapart : tailApart resolved lengths = true := by
    cases ha : tailApart resolved lengths with
    | true => rfl
    | false => simp [tailSize, ha, hplain] at hsent
  have hb : bounded resolved = true := by
    simp only [tailApart, Bool.and_eq_true] at hapart
    exact hapart.1
  have hrange : tailRange resolved lengths =
      lastRange resolved lengths resolved.windowLength := by
    rw [tailRange, if_pos hapart]
  have hsize : tailSize resolved lengths = atMost lengths.tail resolved.windowLength := by
    rw [tailSize, if_pos hapart]
  rw [visibleSize_bounded hb] at hn ⊢
  have hbytes := (h.tail hsent).bytes_eq hheard
  rw [hfull hb, hsize, ← hn, hrange, lastRange_start, lastRange_length, ← hn] at hbytes
  exact hbytes

/-- The tail that is cut out of the head. -/
theorem Answered.copied_holds (h : Answered object resolved lengths head tail scratch b)
    (hobject : object.length < 2 ^ 64)
    (hfull : bounded resolved = true → head.got = headSize resolved lengths)
    (hcovered : visibleSize resolved object.length ≤
      atMost lengths.head (visibleSize resolved object.length)) {n : Nat}
    (hn : n = atMost lengths.tail (visibleSize resolved object.length)) (hpos : 0 < n) :
    Holds object (lastRange resolved lengths (visibleSize resolved object.length)).first n
      (b.tail.memcpy () 0 (b.head.read () (visibleSize resolved object.length - n) n)) := by
  have hheld := h.head_holds hfull
  have hle : n ≤ visibleSize resolved object.length := hn ▸ Nat.min_le_right _ _
  -- the head reaches to the end of the window, and the object at least as far
  have hend := hheld.le_length
  rw [lastRange_first (by omega) (hn ▸ hpos), ← hn]
  refine hheld.copy ?_ b.tail
  omega

/-- In a bounded window the tail comes with the first two replies, or out of the head. -/
theorem Answered.unbounded_of_fetched (h : Answered object resolved lengths head tail scratch b)
    {visible : Nat} (hvisible : visible = visibleSize resolved object.length)
    (hpos : 0 < atMost lengths.tail visible)
    (huncovered : ¬ visible ≤ atMost lengths.head visible)
    (hunheard : (decide (0 < tailSize resolved lengths) && !tail.suffixIgnored) = false) :
    bounded resolved = false := by
  cases hb : bounded resolved with
  | false => rfl
  | true =>
      exfalso
      rw [visibleSize_bounded hb] at hvisible
      have hscratch : headInScratch resolved lengths = false := by simp [headInScratch, hb]
      have hsize : headSize resolved lengths = atMost lengths.head resolved.windowLength := by
        simp [headSize, hscratch, hb]
      have hapart : tailApart resolved lengths = true := by
        rw [hvisible] at huncovered
        simp only [tailApart, hb, hsize, Bool.true_and, decide_eq_true_eq]
        omega
      have htail : tailSize resolved lengths = atMost lengths.tail visible := by
        rw [tailSize, if_pos hapart, hvisible]
      have hrange : tailRange resolved lengths =
          lastRange resolved lengths resolved.windowLength := by
        rw [tailRange, if_pos hapart]
      have hignored : tail.suffixIgnored = true := by
        simpa [htail, hpos] using hunheard
      have hno := (h.tail (by omega)).ignored hignored
      rw [hrange] at hno
      cases hno

end Answered

section Joined

variable [Octet β] {service : EndsService β} {head tail : RangeReply} {scratch : Memory Unit β}
  {b b' : EndBuffers β} {size : Nat} {etag : Text}

theorem getRange_reply {range : ByteRange} {ifMatch : Text} {requests : List (ProbeRequest β)}
    {m m' : Memory Unit β} {reply : RangeReply} (hpos : 0 < range.length)
    (hsteady : ∀ q ∈ requests, q.Steady object)
    (h : getRange service resolved range ifMatch requests m = (.reply reply, m')) :
    reply.Exact object range m' := by
  simp only [getRange] at h
  generalize hrun : Karu.getRange service.curl service.options resolved.backend range ifMatch
    requests {} m = x at h
  obtain ⟨outcome, last, m₁⟩ := x
  cases h
  exact getRange_exact service.options resolved.backend ifMatch hpos hsteady hrun

theorem fetchTail_shows (hservice : service.Honest object) (hobject : object.length < 2 ^ 64)
    (hb : bounded resolved = false) {visible : Nat}
    (hvisible : visible = visibleSize resolved object.length)
    (hpos : 0 < atMost lengths.tail visible)
    (hhead : Holds object resolved.windowOffset (atMost lengths.head visible) b.head)
    {known : RangeReply} {tag : Text}
    (h : fetchTail service resolved lengths visible known tag b = (.done size etag, b')) :
    Shows object resolved lengths size b' := by
  simp only [fetchTail] at h
  generalize hreply : getRange service resolved (lastRange resolved lengths visible) tag
    service.again b.tail = x at h
  obtain ⟨outcome, m⟩ := x
  cases outcome with
  | failed status detail => cases h
  | again loop => cases h
  | reply reply =>
      simp only at h
      split at h
      · cases h
      · cases h
        have hexact := getRange_reply (lastRange_length size ▸ hpos) hservice.again hreply
        have hheard : reply.suffixIgnored = false := by
          cases hi : reply.suffixIgnored with
          | false => rfl
          | true => cases hexact.ignored hi
        have hlong : size = object.length - resolved.windowOffset := by
          rw [hvisible, visibleSize_unbounded hb]
        have hle : atMost lengths.tail size ≤ size := Nat.min_le_right _ _
        have hbytes := hexact.bytes_eq hheard
        have hgot := hexact.got_eq hheard
        have hfirst : (lastRange resolved lengths size).first =
            resolved.windowOffset + (size - atMost lengths.tail size) :=
          lastRange_first (by omega) hpos
        rw [lastRange_start, lastRange_length] at hbytes hgot
        have hall : reply.got = atMost lengths.tail size := by omega
        rw [hall] at hbytes
        exact ⟨hvisible, hhead, hbytes⟩

theorem joinEnds_shows (hservice : service.Honest object) (hobject : object.length < 2 ^ 64)
    (h : Answered object resolved lengths head tail scratch b)
    (hdone : joinEnds service resolved lengths head tail b = (.done size etag, b')) :
    Shows object resolved lengths size b' := by
  simp only [joinEnds] at hdone
  split at hdone
  · cases hdone
  · split at hdone
    · cases hdone
    · rename_i hhead
      split at hdone
      · cases hdone
      · rename_i htail
        have hfull : bounded resolved = true → head.got = headSize resolved lengths :=
          fun hb => by simpa [hb] using hhead
        have hrest : bounded resolved = true → tail.got = tailSize resolved lengths :=
          fun hb => by simpa [hb] using htail
        have hheld := h.head_holds hfull
        simp only [decide_eq_true_eq, h.visible] at hdone
        split at hdone
        · rename_i hpos
          split at hdone
          · rename_i hheard
            simp only [Bool.and_eq_true, decide_eq_true_eq, Bool.not_eq_true'] at hheard
            split at hdone
            · rename_i hsuffix
              cases hdone
              exact ⟨rfl, hheld, h.suffix_holds hobject hheard.1 hheard.2 hsuffix rfl hpos⟩
            · rename_i hplain
              cases hdone
              exact ⟨rfl, hheld, h.tail_holds hheard.1 hheard.2 (by simpa using hplain) hrest rfl⟩
          · rename_i hunheard
            split at hdone
            · rename_i hcovered
              cases hdone
              exact ⟨rfl, hheld, h.copied_holds hobject hfull hcovered rfl hpos⟩
            · rename_i huncovered
              have hb := h.unbounded_of_fetched rfl hpos huncovered (by simpa using hunheard)
              exact fetchTail_shows hservice hobject hb rfl hpos hheld hdone
        · rename_i hnone
          cases hdone
          refine ⟨rfl, hheld, ?_⟩
          rw [show atMost lengths.tail (visibleSize resolved object.length) = 0 by omega]
          exact Holds.zero

theorem tailRange_pos (h : 0 < tailSize resolved lengths) :
    0 < (tailRange resolved lengths).length := by
  unfold tailSize at h
  unfold tailRange
  split at h
  · rename_i hapart
    rw [if_pos hapart]
    exact h
  · rename_i hapart
    rw [if_neg hapart]
    split at h
    · exact h
    · omega

theorem readEnds_shows (hservice : service.Honest object) (hobject : object.length < 2 ^ 64)
    (hplace : resolved.backend = .file → Fits resolved ∨ object.length ≤ offsetMax)
    (hdone : readEnds service resolved lengths scratch b = (.done size etag, b')) :
    Shows object resolved lengths size b' := by
  simp only [readEnds] at hdone
  split at hdone
  · exact readFileEnds_shows hservice hobject (hplace ‹_›) hdone
  · split at hdone
    · rename_i hempty
      obtain ⟨hinfo, rfl⟩ := Prod.mk.inj hdone
      simp only [objectInfo] at hinfo
      generalize hreply : getRange service resolved { length := 1 } [] service.info scratch = x
        at hinfo
      obtain ⟨outcome, m⟩ := x
      cases outcome with
      | failed status detail => cases hinfo
      | again loop => cases hinfo
      | reply reply =>
          have hexact := getRange_reply (by decide) hservice.info hreply
          cases hinfo
          have hnone : ∀ n, atMost 0 n = 0 := fun n => Nat.zero_min n
          refine ⟨by rw [hexact.total_eq], ?_, ?_⟩
          · rw [hempty.1, hnone]
            exact Holds.zero
          · rw [hempty.2, hnone]
            exact Holds.zero
    · generalize hhead : (if 0 < headSize resolved lengths then
          getRange service resolved (headRange resolved lengths) [] service.head
            (if headInScratch resolved lengths then scratch else b.head)
        else (.reply {}, b.head)) = x at hdone
      generalize htail : (if 0 < tailSize resolved lengths then
          getRange service resolved (tailRange resolved lengths) [] service.tail b.tail
        else (.reply {}, b.tail)) = y at hdone
      obtain ⟨headOutcome, headMemory⟩ := x
      obtain ⟨tailOutcome, tailMemory⟩ := y
      cases headOutcome with
      | failed status detail => cases hdone
      | again loop => cases hdone
      | reply head =>
          cases tailOutcome with
          | failed status detail => cases hdone
          | again loop => cases hdone
          | reply tail =>
              have hanswered : Answered object resolved lengths head tail headMemory
                  ⟨if headInScratch resolved lengths then b.head else headMemory, tailMemory⟩ := by
                refine ⟨fun hsent => ?_, fun hsent => ?_, fun hplain _ => ?_⟩
                · rw [if_pos hsent] at hhead
                  exact getRange_reply hsent hservice.head hhead
                · rw [if_pos hsent] at htail
                  exact getRange_reply (tailRange_pos hsent) hservice.tail htail
                · rw [hplain, if_neg (by decide)]
              exact joinEnds_shows hservice hobject hanswered hdone

/-- `KARU_OK` from `read_ends`: the size is the one visible through the window, and each buffer
holds what a read of its end by position returns, so that the object goes on to the end of
each. -/
theorem readEnds_returns_ends (service : EndsService β) (resolved : Resolved)
    (lengths : EndLengths) (scratch : Memory Unit β) (b : EndBuffers β) {object : List β}
    (hservice : service.Honest object) (hobject : object.length < 2 ^ 64) (hfits : Fits resolved)
    {size : Nat} {etag : Text} {b' : EndBuffers β}
    (hdone : readEnds service resolved lengths scratch b = (.done size etag, b')) :
    size = visibleSize resolved object.length ∧
      readOutcome object resolved.windowOffset (min lengths.head size) =
        (.ok, min lengths.head size, b'.head.read () 0 (min lengths.head size)) ∧
      readOutcome object (resolved.windowOffset + (size - min lengths.tail size))
          (min lengths.tail size) =
        (.ok, min lengths.tail size, b'.tail.read () 0 (min lengths.tail size)) ∧
      (0 < min lengths.head size →
        resolved.windowOffset + min lengths.head size ≤ object.length) ∧
      (0 < min lengths.tail size → resolved.windowOffset + size ≤ object.length) := by
  have hshows := readEnds_shows hservice hobject (fun _ => Or.inl hfits) hdone
  have hvisible : resolved.windowOffset + size ≤ 2 ^ 64 :=
    hshows.size_eq ▸ visibleSize_fits hfits hobject
  have htail : Holds object (resolved.windowOffset + (size - min lengths.tail size))
      (min lengths.tail size) b'.tail := by
    rcases Nat.eq_zero_or_pos (min lengths.tail size) with hzero | hpos
    · rw [hzero]
      exact Holds.zero
    · have hfirst := lastRange_first hvisible hpos
      unfold atMost at hfirst
      rw [← hfirst]
      exact hshows.tail
  refine ⟨hshows.size_eq, hshows.head.readOutcome_eq, htail.readOutcome_eq, ?_, ?_⟩
  · have hle : min lengths.head size ≤ _ := hshows.head.le_length
    intro hpos
    omega
  · have hle := htail.le_length
    intro hpos
    omega

end Joined

end Ends

/-! A server that knows no suffix ranges. -/

theorem two_lt_word : 2 < 2 ^ 64 := by decide

/-- The head and the tail of three bytes, two each. -/
def twoAndTwo : EndLengths where
  head := 2
  tail := 2
  head_lt := two_lt_word
  tail_lt := two_lt_word

/-- The head by position, the suffix refused, and the tail by position. -/
def unsuffixed : EndsService UInt8 where
  curl := .uncalled
  fileSize := .error []
  opened := .error []
  head := [{ responses :=
    [{ code := 206, statusLine := text "HTTP/1.1 206 Partial Content\r\n",
       fields := [text "Content-Range: bytes 0-1/3\r\n", text "ETag: \"v\"\r\n"],
       chunks := [[7], [8]] }] }]
  tail := [{ responses :=
    [{ code := 416, statusLine := text "HTTP/1.1 416 Range Not Satisfiable\r\n",
       fields := [text "Content-Range: bytes */3\r\n"] }] }]
  again := [{ responses :=
    [{ code := 206, statusLine := text "HTTP/1.1 206 Partial Content\r\n",
       fields := [text "Content-Range: bytes 1-2/3\r\n", text "ETag: \"v\"\r\n"],
       chunks := [[8, 9]] }] }]

theorem unsuffixed_honest : unsuffixed.Honest [7, 8, 9] where
  size := by intro n hn; cases hn
  file := by intro file hfile; cases hfile
  info := by intro q hq; cases hq
  head := by decide
  tail := by decide
  again := by decide

/-- Two buffers of zeros, and the byte of scratch. -/
def zeros : Memory Unit UInt8 := ⟨fun _ _ => 0, []⟩

/-- What comes of it. -/
def unsuffixedEnds : EndsOutcome × EndBuffers UInt8 :=
  readEnds unsuffixed { backend := .http } twoAndTwo zeros ⟨zeros, zeros⟩

theorem unsuffixedEnds_done : unsuffixedEnds = (.done 3 (text "\"v\""), unsuffixedEnds.2) := by
  have hfirst : unsuffixedEnds.1 = .done 3 (text "\"v\"") := by decide +kernel
  rw [← hfirst]

theorem readEnds_returns_ends_unsuffixed :
    unsuffixedEnds.2.head.read () 0 2 = [7, 8] ∧ unsuffixedEnds.2.tail.read () 0 2 = [8, 9] ∧
      3 = visibleSize { backend := .http } [(7 : UInt8), 8, 9].length := by
  refine ⟨by decide +kernel, by decide +kernel, ?_⟩
  have hdone := unsuffixedEnds_done
  generalize hends : unsuffixedEnds = x at hdone
  rw [unsuffixedEnds, hdone] at hends
  exact (readEnds_returns_ends unsuffixed _ _ _ _ unsuffixed_honest (by decide)
    (fun h => by cases h) hends).1

end Engine

end Karu
