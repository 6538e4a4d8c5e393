/-
# `Karu.Runtime.Planner` — `src/runtime/planner.cpp`

`plan_transfers` turns a list of requests into immediate completions (requests
refused before any I/O) and transfers.  The valid requests are stably sorted by
resource and absolute offset; one pass over the sorted list then opens a
transfer at its head and lets the following requests join it while they may.

The two loops of the source are `planLoop` (one transfer a turn) and `coalesce`
(one candidate a turn).  The `while` condition and its five `break`s are the
single test `joins`; what the loop body then does to its three local variables
is `Group.absorb`.  `planLoop` counts its turns down; a turn consumes at least
one request, so as many turns as there are valid requests are enough.

Sorting: any stable sort by the comparator gives the same list, and insertion
sort is one.  Allocation: `malloc n size` is the result of the `n`-th call.
-/
import Mathlib.Data.List.Sort
import Mathlib.Data.List.Lex
import Mathlib.Data.Prod.Lex
import Mathlib.Order.Lattice.Nat
import Karu.Text
import Karu.Runtime.Transfer

namespace Karu

open Base

/-! ## Validation -/

/-- `ValidatedRequest`. -/
structure ValidatedRequest where
  request : Request
  absoluteOffset : Nat
  lastByte : Nat
deriving DecidableEq, Repr

/-- `range_error`. -/
def rangeError (r : Request) (reason : Text) : Text :=
  let uri := if r.locator.backend = .http then redactUrl r.locator.canonicalUri
    else r.locator.canonicalUri
  uri ++ text ": range [" ++ decimal r.offset ++ text ", +" ++ decimal r.length ++ text ") " ++ reason

/-- `validate`: the checked request, or the text of the range error. -/
def validate (r : Request) : Except Text ValidatedRequest :=
  let resolved := r.locator
  if resolved.windowLength ≠ toEnd ∧ (resolved.windowLength < r.offset ∨
      sub64 resolved.windowLength r.offset < r.length) then
    .error (rangeError r (text "leaves the locator window"))
  else if sub64 maxWord resolved.windowOffset < r.offset then
    .error (rangeError r (text "overflows its absolute offset"))
  else
    let absolute := add64 resolved.windowOffset r.offset
    if sub64 maxWord absolute < sub64 r.length 1 then
      .error (rangeError r (text "overflows its end offset"))
    else .ok ⟨r, absolute, sub64 (add64 absolute r.length) 1⟩

/-- One turn of the first loop of `plan_transfers`: an immediate completion, or
the request for the second. -/
def screenRequest (r : Request) : Except Completion ValidatedRequest :=
  if r.locator.backend = .file ∧ r.ifMatch ≠ [] then
    .error { tag := r.tag, status := .errUnsupported, buffer := r.buffer,
             detail := r.locator.canonicalUri ++
               text ": ETag preconditions are not available for local files" }
  else
    match validate r with
    | .ok checked => .ok checked
    | .error detail =>
        .error { tag := r.tag, status := .errRange, buffer := r.buffer, detail := detail }

/-- The first loop: the immediate completions and the valid requests, in order. -/
def screen : List Request → List Completion × List ValidatedRequest
  | [] => ([], [])
  | r :: rs =>
      let (immediate, valid) := screen rs
      match screenRequest r with
      | .error completion => (completion :: immediate, valid)
      | .ok checked => (immediate, checked :: valid)

/-! ## Sorting -/

/-- `same_resource`. -/
def sameResource (l r : Request) : Bool :=
  l.locator.backend == r.locator.backend && l.locator.canonicalUri == r.locator.canonicalUri &&
    l.ifMatch == r.ifMatch

/-- `std::string` compares its characters as `unsigned char`. -/
def textKey (t : Text) : List ℕ := t.map UInt8.toNat

/-- `std::tie(backend, canonical_uri, if_match)`. -/
def resourceKey (r : Request) : ℕ ×ₗ (List ℕ ×ₗ List ℕ) :=
  toLex (r.locator.backend.index, toLex (textKey r.locator.canonicalUri, textKey r.ifMatch))

/-- `resource_less`. -/
def resourceLess (l r : Request) : Bool := decide (resourceKey l < resourceKey r)

/-- The comparator given to `std::stable_sort`. -/
def sortsBefore (l r : ValidatedRequest) : Bool :=
  if resourceLess l.request r.request then true
  else if resourceLess r.request l.request then false
  else decide (l.absoluteOffset < r.absoluteOffset)

/-- What a stable sort by `sortsBefore` keeps: no later element sorts before an earlier one. -/
def NotAfter (l r : ValidatedRequest) : Prop := sortsBefore r l = false

instance : DecidableRel NotAfter := fun l r => inferInstanceAs (Decidable (sortsBefore r l = false))

def stableSort (valid : List ValidatedRequest) : List ValidatedRequest :=
  valid.insertionSort NotAfter

/-! ## Coalescing -/

/-- `excessive_amplification`. -/
def excessiveAmplification (span useful maximum : Nat) : Bool :=
  if maxWord / maximum < useful then false else decide (useful * maximum < span)

/-- The locals of the inner loop: the parts so far, `last_byte` and `useful_bytes`. -/
structure Group where
  parts : List Part
  lastByte : Nat
  usefulBytes : Nat
deriving DecidableEq, Repr

/-- The part of a transfer at `offset` that serves a request. -/
def ValidatedRequest.part (v : ValidatedRequest) (offset : Nat) : Part where
  relativeOffset := sub64 v.absoluteOffset offset
  length := v.request.length
  buffer := v.request.buffer
  tag := v.request.tag

/-- A transfer starts with its first request alone, as a part at relative offset zero. -/
def Group.start (head : ValidatedRequest) : Group where
  parts := [{ head.part head.absoluteOffset with relativeOffset := 0 }]
  lastByte := head.lastByte
  usefulBytes := head.request.length

/-- `merged_last`. -/
def Group.mergedLast (g : Group) (c : ValidatedRequest) : Nat := max g.lastByte c.lastByte

/-- `merged_length`. -/
def Group.mergedLength (g : Group) (offset : Nat) (c : ValidatedRequest) : Nat :=
  add64 (sub64 (g.mergedLast c) offset) 1

/-- `merged_useful`, which saturates. -/
def Group.mergedUseful (g : Group) (c : ValidatedRequest) : Nat :=
  if sub64 maxWord g.usefulBytes < c.request.length then maxWord
  else add64 g.usefulBytes c.request.length

/-- A local `pread` gains no round-trip savings from reading through gaps. -/
def coalesceGapFor (options : ClientOptions) (head : ValidatedRequest) : Nat :=
  if head.request.locator.backend = .file then 0 else options.coalesceGap

/-- No `break` of the inner loop is taken for this candidate. -/
def joins (options : ClientOptions) (head : ValidatedRequest) (g : Group) (c : ValidatedRequest) :
    Bool :=
  decide (0 < options.coalesceGap) && sameResource head.request c.request &&
  !(decide (g.lastByte < c.absoluteOffset) &&
      decide (coalesceGapFor options head < sub64 (sub64 c.absoluteOffset g.lastByte) 1)) &&
  !(sub64 (g.mergedLast c) head.absoluteOffset == maxWord) &&
  !(g.parts.length == options.coalesceParts ||
      decide (options.coalesceLimit < g.mergedLength head.absoluteOffset c) ||
      excessiveAmplification (g.mergedLength head.absoluteOffset c) (g.mergedUseful c)
        options.coalesceAmplification)

/-- The rest of the inner loop's body. -/
def Group.absorb (g : Group) (offset : Nat) (c : ValidatedRequest) : Group where
  parts := g.parts ++ [c.part offset]
  lastByte := g.mergedLast c
  usefulBytes := g.mergedUseful c

/-- The inner loop: the finished group, and the requests from `next` on. -/
def coalesce (options : ClientOptions) (head : ValidatedRequest) (g : Group) :
    List ValidatedRequest → Group × List ValidatedRequest
  | [] => (g, [])
  | c :: rest =>
      if joins options head g c then coalesce options head (g.absorb head.absoluteOffset c) rest
      else (g, c :: rest)

/-! ## Transfers -/

/-- `allocate_part`, at the `n`-th call of `malloc`; `none` when it fails. -/
def allocatePart (malloc : Nat → Nat → Addr) (n : Nat) (p : Part) : Option (Part × Nat) :=
  if p.buffer ≠ .null then some (p, n)
  else if malloc n p.length = .null then none
  else some ({ p with buffer := malloc n p.length }, n + 1)

def allocateParts (malloc : Nat → Nat → Addr) : Nat → List Part → Option (List Part × Nat)
  | n, [] => some ([], n)
  | n, p :: ps =>
      match allocatePart malloc n p with
      | none => none
      | some (p, n) =>
          match allocateParts malloc n ps with
          | none => none
          | some (ps, n) => some (p :: ps, n)

/-- `transfer->scattered`. -/
def scatters (parts : List Part) (length : Nat) : Bool :=
  decide (parts.length ≠ 1) || parts.head?.any (fun p => decide (p.relativeOffset ≠ 0)) ||
    parts.head?.any (fun p => decide (p.length ≠ length))

/-- The locator a transfer uses: the previous transfer's if it names the same object. -/
def shareLocator (shared : Option Resolved) (head : ValidatedRequest) : Resolved :=
  match shared with
  | some l =>
      if l.backend ≠ head.request.locator.backend ∨
          l.canonicalUri ≠ head.request.locator.canonicalUri then head.request.locator
      else l
  | none => head.request.locator

/-- The transfer built for a finished group, once its parts have buffers. -/
def buildTransfer (batch : Nat) (locator : Resolved) (head : ValidatedRequest) (g : Group)
    (parts : List Part) : Transfer :=
  let length := add64 (sub64 g.lastByte head.absoluteOffset) 1
  { batch := batch, locator := locator, offset := head.absoluteOffset, length := length,
    parts := parts, ifMatch := head.request.ifMatch, scattered := scatters parts length }

/-- The outer loop, with the shared locator and the number of allocations so far. -/
def planLoop (malloc : Nat → Nat → Addr) (options : ClientOptions) (batch : Nat) :
    Nat → Option Resolved → Nat → List ValidatedRequest → Status × List Transfer
  | 0, _, _, _ => (.ok, [])
  | _ + 1, _, _, [] => (.ok, [])
  | turns + 1, shared, n, head :: rest =>
      let locator := shareLocator shared head
      let (g, rest) := coalesce options head (.start head) rest
      match allocateParts malloc n g.parts with
      | none => (.errNomem, [])
      | some (parts, n) =>
          let (status, transfers) := planLoop malloc options batch turns (some locator) n rest
          (status, buildTransfer batch locator head g parts :: transfers)

/-- `TransferPlan`. -/
structure TransferPlan where
  transfers : List Transfer
  immediate : List Completion
deriving DecidableEq, Repr

/-- `plan_transfers`, with the status it stores in its reference argument. -/
def planTransfers (malloc : Nat → Nat → Addr) (batch : Nat) (requests : List Request)
    (options : ClientOptions) : Status × TransferPlan :=
  let (immediate, valid) := screen requests
  let sorted := stableSort valid
  let (status, transfers) := planLoop malloc options batch sorted.length none 0 sorted
  (status, ⟨transfers, immediate⟩)

end Karu
