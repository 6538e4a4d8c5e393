/-
# `Karu.Runtime.PlannerCover` — the plan serves every request exactly once

Three facts about `plan_transfers`, each about one of its loops, and their sum.

* `screenRequest` refuses exactly the `File` requests with a precondition and the
  requests that leave their window or overflow; what it admits carries its
  exact absolute position (`screenRequest_cases`).
* `coalesce` takes a prefix of the sorted requests, all of the head's resource,
  and appends their parts in order; its running `last_byte` is the furthest
  last byte of what it took (`coalesce_spec`).
* `planLoop` puts the groups one after another, so that the parts of all
  transfers, read in order, are the sorted requests, read in order
  (`planLoop_cover`).

The bijection between requests and results is positional: some rearrangement
of the requests matches the list of immediate completions and parts entry by
entry.  That is `List.Forall₂` after `List.Perm`.
-/
import Karu.Base.Pairing
import Karu.Runtime.Planner

namespace Karu

open Base

/-! ## What the first loop lets through -/

/-- The request is refused as out of range: it leaves its locator's window, or
its last byte does not have a 64-bit position. -/
def Request.Leaves (r : Request) : Prop :=
  (r.locator.windowLength ≠ toEnd ∧ r.locator.windowLength < r.offset + r.length) ∨
    2 ^ 64 < r.locator.windowOffset + r.offset + r.length

/-- The request has a precondition the backend cannot check. -/
def Request.Unsupported (r : Request) : Prop := r.locator.backend = .file ∧ r.ifMatch ≠ []

/-- A validated request: its exact absolute position, all of it below `2 ^ 64`. -/
structure ValidatedRequest.Valid (v : ValidatedRequest) : Prop where
  offset_eq : v.absoluteOffset = v.request.locator.windowOffset + v.request.offset
  last_eq : v.lastByte = v.absoluteOffset + v.request.length - 1
  stays : ¬ v.request.Leaves
  supported : ¬ v.request.Unsupported

theorem ValidatedRequest.Valid.stop_le {v : ValidatedRequest} (h : v.Valid) :
    v.absoluteOffset + v.request.length ≤ 2 ^ 64 := by
  have hs := h.stays
  rw [h.offset_eq]
  simp only [Request.Leaves, not_or] at hs
  omega

/-- The last byte is computed as `absolute + length - 1`, whose sum may be `2 ^ 64`. -/
theorem last_byte_eq {absolute length : Nat} (h₁ : 1 ≤ length) (h₂ : length < 2 ^ 64)
    (h : absolute + length ≤ 2 ^ 64) :
    sub64 (add64 absolute length) 1 = absolute + length - 1 := by
  unfold sub64 add64
  omega

theorem validate_cases (r : Request) :
    (¬ r.Leaves ∧ validate r = .ok ⟨r, r.locator.windowOffset + r.offset,
        r.locator.windowOffset + r.offset + r.length - 1⟩) ∨
      (r.Leaves ∧ ∃ detail, validate r = .error detail) := by
  have h₁ := r.locator.windowOffset_lt
  have h₂ := r.locator.windowLength_lt
  have h₃ := r.offset_lt
  have h₄ := r.length_pos
  have h₅ := r.length_lt
  have hroom : sub64 maxWord r.locator.windowOffset = 2 ^ 64 - 1 - r.locator.windowOffset :=
    sub64_of_le (by unfold maxWord; omega) (by decide)
  have hlen : sub64 r.length 1 = r.length - 1 := sub64_of_le h₄ (by omega)
  unfold Request.Leaves
  by_cases hw : r.locator.windowLength ≠ toEnd ∧ (r.locator.windowLength < r.offset ∨
      sub64 r.locator.windowLength r.offset < r.length)
  · refine Or.inr ⟨?_, _, if_pos hw⟩
    simp only [sub64] at hw
    omega
  · have hwindow : ¬ (r.locator.windowLength ≠ toEnd ∧
        r.locator.windowLength < r.offset + r.length) := by
      simp only [sub64] at hw
      omega
    by_cases ho : sub64 maxWord r.locator.windowOffset < r.offset
    · refine Or.inr ⟨?_, _, (if_neg hw).trans (if_pos ho)⟩
      omega
    · have habs : add64 r.locator.windowOffset r.offset = r.locator.windowOffset + r.offset :=
        add64_of_lt (by omega)
      have hend : sub64 maxWord (add64 r.locator.windowOffset r.offset)
          = 2 ^ 64 - 1 - (r.locator.windowOffset + r.offset) := by
        rw [habs]
        exact sub64_of_le (by unfold maxWord; omega) (by decide)
      by_cases hl : sub64 maxWord (add64 r.locator.windowOffset r.offset) < sub64 r.length 1
      · refine Or.inr ⟨?_, _, (if_neg hw).trans ((if_neg ho).trans (if_pos hl))⟩
        omega
      · have hfits : r.locator.windowOffset + r.offset + r.length ≤ 2 ^ 64 := by omega
        refine Or.inl ⟨by omega, (if_neg hw).trans ((if_neg ho).trans ((if_neg hl).trans ?_))⟩
        rw [habs, last_byte_eq h₄ (by omega) hfits]

/-- An immediate completion answers a request: same tag, same buffer, and the
status that its refusal calls for. -/
def Refuses (r : Request) (c : Completion) : Prop :=
  c.tag = r.tag ∧ c.buffer = r.buffer ∧ c.got = 0 ∧
    (c.status = .errUnsupported ∧ r.Unsupported ∨
      c.status = .errRange ∧ ¬ r.Unsupported ∧ r.Leaves)

theorem screenRequest_cases (r : Request) :
    (∃ v, screenRequest r = .ok v ∧ v.request = r ∧ v.Valid) ∨
      (∃ c, screenRequest r = .error c ∧ Refuses r c) := by
  unfold screenRequest
  split
  · rename_i h
    exact Or.inr ⟨_, rfl, rfl, rfl, rfl, Or.inl ⟨rfl, h⟩⟩
  · rename_i h
    rcases validate_cases r with ⟨hs, hv⟩ | ⟨hl, detail, hv⟩
    · rw [hv]
      exact Or.inl ⟨_, rfl, rfl, ⟨rfl, rfl, hs, h⟩⟩
    · rw [hv]
      exact Or.inr ⟨_, rfl, rfl, rfl, rfl, Or.inr ⟨rfl, h, hl⟩⟩

/-- The first loop splits the requests: the refused ones in step with their
completions, the others validated. -/
theorem screen_spec (requests : List Request) :
    ∃ refused, List.Forall₂ Refuses refused (screen requests).1 ∧
      (∀ v ∈ (screen requests).2, v.Valid) ∧
      (refused ++ (screen requests).2.map (·.request)).Perm requests := by
  induction requests with
  | nil => exact ⟨[], .nil, by simp [screen], by simp [screen]⟩
  | cons r rs ih =>
      obtain ⟨refused, hf, hv, hp⟩ := ih
      rcases screenRequest_cases r with ⟨v, ha, hr, hvalid⟩ | ⟨c, ha, hc⟩
      · refine ⟨refused, by simpa [screen, ha] using hf, ?_, ?_⟩
        · simp only [screen, ha]
          intro w hw
          rcases List.mem_cons.mp hw with rfl | hw
          · exact hvalid
          · exact hv w hw
        · simp only [screen, ha, List.map_cons, hr]
          exact List.perm_middle.trans (hp.cons r)
      · refine ⟨r :: refused, by simpa [screen, ha] using ⟨hc, hf⟩, ?_, ?_⟩
        · simpa only [screen, ha] using hv
        · simpa only [screen, ha, List.cons_append] using hp.cons r

/-! ## The sort -/

/-- The comparator is the lexicographic order of resource and absolute offset. -/
def sortKey (v : ValidatedRequest) : (ℕ ×ₗ (List ℕ ×ₗ List ℕ)) ×ₗ ℕ :=
  toLex (resourceKey v.request, v.absoluteOffset)

theorem notAfter_iff {l r : ValidatedRequest} : NotAfter l r ↔ sortKey l ≤ sortKey r := by
  unfold NotAfter sortsBefore resourceLess sortKey
  rw [Prod.Lex.toLex_le_toLex]
  rcases lt_trichotomy (resourceKey l.request) (resourceKey r.request) with h | h | h
  · simp [h, h.not_gt]
  · simp [h]
  · simp [h, h.not_gt, h.ne']

instance : Std.Total NotAfter :=
  ⟨fun a b => (le_total (sortKey a) (sortKey b)).imp notAfter_iff.mpr notAfter_iff.mpr⟩

instance : IsTrans ValidatedRequest NotAfter :=
  ⟨fun _ _ _ h₁ h₂ => notAfter_iff.mpr ((notAfter_iff.mp h₁).trans (notAfter_iff.mp h₂))⟩

theorem sorted_stableSort (valid : List ValidatedRequest) :
    (stableSort valid).Pairwise NotAfter :=
  List.pairwise_insertionSort NotAfter valid

theorem sameResource_iff {l r : Request} : sameResource l r = true ↔
    l.locator.backend = r.locator.backend ∧ l.locator.canonicalUri = r.locator.canonicalUri ∧
      l.ifMatch = r.ifMatch := by
  simp [sameResource, and_assoc]

/-- Within one resource the sort is by absolute offset. -/
theorem offset_le_of_notAfter {l r : ValidatedRequest} (h : NotAfter l r)
    (hs : sameResource l.request r.request = true) : l.absoluteOffset ≤ r.absoluteOffset := by
  obtain ⟨hb, hu, hm⟩ := sameResource_iff.mp hs
  have hk : resourceKey l.request = resourceKey r.request := by
    simp only [resourceKey, hb, hu, hm]
  rw [notAfter_iff, sortKey, sortKey, Prod.Lex.toLex_le_toLex] at h
  simpa [hk] using h

/-! ## The inner loop -/

/-- `members`, the head first, are what the group has taken so far: its parts are
theirs, in order, and its `last_byte` is the furthest of theirs. -/
structure Group.Spans (g : Group) (head : ValidatedRequest) (members : List ValidatedRequest) :
    Prop where
  parts_eq : g.parts = members.map (·.part head.absoluteOffset)
  head_mem : head ∈ members
  last_ge : ∀ m ∈ members, m.lastByte ≤ g.lastByte
  last_mem : ∃ m ∈ members, m.lastByte = g.lastByte
  offset_le : ∀ m ∈ members, head.absoluteOffset ≤ m.absoluteOffset
  same : ∀ m ∈ members, sameResource head.request m.request = true
  span_lt : g.lastByte - head.absoluteOffset < maxWord

theorem sub64_self (a : Nat) : sub64 a a = 0 := by
  unfold sub64
  omega

theorem Group.start_spans {head : ValidatedRequest} (hv : head.Valid) :
    (Group.start head).Spans head [head] where
  parts_eq := by simp [Group.start, ValidatedRequest.part, sub64_self]
  head_mem := List.mem_singleton_self head
  last_ge := by simp [Group.start]
  last_mem := by simp [Group.start]
  offset_le := by simp
  same := by simp [sameResource]
  span_lt := by
    have := head.request.length_lt
    have := hv.last_eq
    simp only [Group.start, maxWord]
    omega

/-- What the inner loop has checked when it does not `break`. -/
theorem joins_spec {options : ClientOptions} {head : ValidatedRequest} {g : Group}
    {c : ValidatedRequest} (h : joins options head g c = true) :
    sameResource head.request c.request = true ∧
      sub64 (g.mergedLast c) head.absoluteOffset ≠ maxWord := by
  simp only [joins, Bool.and_eq_true, Bool.not_eq_true', beq_eq_false_iff_ne] at h
  exact ⟨h.1.1.1.2, h.1.2⟩

theorem Group.absorb_spans {options : ClientOptions} {head c : ValidatedRequest} {g : Group}
    {members : List ValidatedRequest} (hg : g.Spans head members) (hc : c.Valid)
    (hafter : NotAfter head c) (hlast : g.lastByte < 2 ^ 64) (hj : joins options head g c = true) :
    (g.absorb head.absoluteOffset c).Spans head (members ++ [c]) := by
  obtain ⟨hsame, hspan⟩ := joins_spec hj
  have hoff := offset_le_of_notAfter hafter hsame
  have hstop := hc.stop_le
  have hlen := c.request.length_pos
  have hcl := hc.last_eq
  refine ⟨?_, List.mem_append_left _ hg.head_mem, ?_, ?_, ?_, ?_, ?_⟩
  · simp [Group.absorb, hg.parts_eq]
  · intro m hm
    simp only [Group.absorb, Group.mergedLast]
    rcases List.mem_append.mp hm with hm | hm
    · exact le_max_of_le_left (hg.last_ge m hm)
    · rw [List.mem_singleton.mp hm]
      exact le_max_right _ _
  · obtain ⟨m, hm, he⟩ := hg.last_mem
    simp only [Group.absorb, Group.mergedLast]
    rcases le_total c.lastByte g.lastByte with h | h
    · exact ⟨m, List.mem_append_left _ hm, by rw [max_eq_left h, he]⟩
    · exact ⟨c, List.mem_append_right _ (List.mem_singleton_self c), (max_eq_right h).symm⟩
  · intro m hm
    rcases List.mem_append.mp hm with hm | hm
    · exact hg.offset_le m hm
    · rw [List.mem_singleton.mp hm]
      exact hoff
  · intro m hm
    rcases List.mem_append.mp hm with hm | hm
    · exact hg.same m hm
    · rw [List.mem_singleton.mp hm]
      exact hsame
  · -- `merged_last - offset` does not wrap, since the candidate starts at or after the head
    have hle : head.absoluteOffset ≤ g.mergedLast c := by
      simp only [Group.mergedLast]
      omega
    have hlt : g.mergedLast c < 2 ^ 64 := by
      simp only [Group.mergedLast]
      omega
    rw [sub64_of_le hle hlt] at hspan
    simp only [Group.absorb, maxWord] at hspan ⊢
    omega

/-- The inner loop takes a prefix of what follows the head. -/
theorem coalesce_spec (options : ClientOptions) {head : ValidatedRequest} :
    ∀ (cs : List ValidatedRequest) {g : Group} {members : List ValidatedRequest},
      g.Spans head members → (∀ m ∈ members, m.Valid) → (∀ c ∈ cs, c.Valid) →
      (∀ c ∈ cs, NotAfter head c) →
      ∃ taken, cs = taken ++ (coalesce options head g cs).2 ∧
        (coalesce options head g cs).1.Spans head (members ++ taken)
  | [], g, members, hg, _, _, _ => ⟨[], rfl, by simpa [coalesce] using hg⟩
  | c :: cs, g, members, hg, hm, hv, ha => by
      simp only [coalesce]
      split
      · rename_i hj
        have hcv := hv c List.mem_cons_self
        have hlast : g.lastByte < 2 ^ 64 := by
          obtain ⟨m, hmem, he⟩ := hg.last_mem
          have := (hm m hmem).stop_le
          have := (hm m hmem).last_eq
          have := m.request.length_pos
          omega
        have hg' := Group.absorb_spans hg hcv (ha c List.mem_cons_self) hlast hj
        have hm' : ∀ m ∈ members ++ [c], m.Valid := by
          intro m hmem
          rcases List.mem_append.mp hmem with h | h
          · exact hm m h
          · rw [List.mem_singleton.mp h]
            exact hcv
        obtain ⟨taken, hcs, hspans⟩ := coalesce_spec options cs hg' hm'
          (fun c h => hv c (List.mem_cons_of_mem _ h)) (fun c h => ha c (List.mem_cons_of_mem _ h))
        exact ⟨c :: taken, by rw [List.cons_append, ← hcs], by simpa using hspans⟩
      · exact ⟨[], rfl, by simpa using hg⟩

/-! ## Buffers -/

/-- `q` is `p` with a buffer: the caller's where there is one. -/
def Part.Allocates (p q : Part) : Prop :=
  q.relativeOffset = p.relativeOffset ∧ q.length = p.length ∧ q.tag = p.tag ∧
    q.buffer ≠ .null ∧ (p.buffer ≠ .null → q.buffer = p.buffer)

theorem allocatePart_spec {malloc : Nat → Nat → Addr} {n n' : Nat} {p q : Part}
    (h : allocatePart malloc n p = some (q, n')) : p.Allocates q := by
  unfold allocatePart at h
  split at h
  · rename_i hb
    cases h
    exact ⟨rfl, rfl, rfl, hb, fun _ => rfl⟩
  · rename_i hb
    split at h
    · cases h
    · rename_i hm
      cases h
      exact ⟨rfl, rfl, rfl, hm, fun h => absurd h hb⟩

theorem allocateParts_spec {malloc : Nat → Nat → Addr} :
    ∀ (ps : List Part) {n n' : Nat} {qs : List Part},
      allocateParts malloc n ps = some (qs, n') → List.Forall₂ Part.Allocates ps qs
  | [], _, _, _, h => by
      cases h
      exact .nil
  | p :: ps, n, n', qs, h => by
      simp only [allocateParts] at h
      split at h
      · cases h
      · rename_i q m hp
        split at h
        · cases h
        · rename_i rs k hps
          cases h
          exact .cons (allocatePart_spec hp) (allocateParts_spec ps hps)

/-! ## The outer loop -/

/-- A part of a transfer serves a request: its own bytes of its own object, at
its own place in its own buffer. -/
structure Carries (r : Request) (t : Transfer) (p : Part) : Prop where
  tag_eq : p.tag = r.tag
  allocated : p.buffer ≠ .null
  buffer_eq : r.buffer ≠ .null → p.buffer = r.buffer
  length_eq : p.length = r.length
  position : t.offset + p.relativeOffset = r.locator.windowOffset + r.offset
  stop_le : p.relativeOffset + p.length ≤ t.length
  no_wrap : t.length < 2 ^ 64 ∧ t.offset + t.length ≤ 2 ^ 64
  backend_eq : t.locator.backend = r.locator.backend
  uri_eq : t.locator.canonicalUri = r.locator.canonicalUri
  ifMatch_eq : t.ifMatch = r.ifMatch
  supported : ¬ r.Unsupported
  stays : ¬ r.Leaves

theorem shareLocator_same (shared : Option Resolved) (head : ValidatedRequest) :
    (shareLocator shared head).backend = head.request.locator.backend ∧
      (shareLocator shared head).canonicalUri = head.request.locator.canonicalUri := by
  cases shared with
  | none => exact ⟨rfl, rfl⟩
  | some l =>
      by_cases h : l.backend ≠ head.request.locator.backend ∨
          l.canonicalUri ≠ head.request.locator.canonicalUri
      · simp [shareLocator, h]
      · rw [not_or, not_not, not_not] at h
        simp [shareLocator, h]

section Built

variable {head : ValidatedRequest} {g : Group} {members : List ValidatedRequest}

theorem buildTransfer_length (batch : Nat) (locator : Resolved) (parts : List Part)
    (hg : g.Spans head members) (hm : ∀ m ∈ members, m.Valid) :
    (buildTransfer batch locator head g parts).length = g.lastByte - head.absoluteOffset + 1 ∧
      head.absoluteOffset ≤ g.lastByte ∧ g.lastByte < 2 ^ 64 := by
  obtain ⟨m, hmem, he⟩ := hg.last_mem
  have hstop := (hm m hmem).stop_le
  have hlast := (hm m hmem).last_eq
  have hpos := m.request.length_pos
  have hoff := hg.offset_le m hmem
  have hspan := hg.span_lt
  have hlt : g.lastByte < 2 ^ 64 := by omega
  refine ⟨?_, by omega, hlt⟩
  simp only [buildTransfer, maxWord] at hspan ⊢
  rw [sub64_of_le (by omega) hlt, add64_of_lt (by omega)]

/-- Where a member's part sits in the transfer. -/
theorem part_place (hg : g.Spans head members) (hm : ∀ m ∈ members, m.Valid)
    {m : ValidatedRequest} (hmem : m ∈ members) :
    (m.part head.absoluteOffset).relativeOffset = m.absoluteOffset - head.absoluteOffset ∧
      head.absoluteOffset ≤ m.absoluteOffset ∧
      m.absoluteOffset - head.absoluteOffset + m.request.length
        ≤ g.lastByte - head.absoluteOffset + 1 := by
  have hstop := (hm m hmem).stop_le
  have hlast := (hm m hmem).last_eq
  have hpos := m.request.length_pos
  have hoff := hg.offset_le m hmem
  have hge := hg.last_ge m hmem
  refine ⟨?_, hoff, by omega⟩
  simp only [ValidatedRequest.part]
  rw [sub64_of_le hoff (by omega)]

theorem buildTransfer_carries (batch : Nat) {locator : Resolved} (parts : List Part)
    (hg : g.Spans head members) (hm : ∀ m ∈ members, m.Valid)
    (hl : locator.backend = head.request.locator.backend ∧
      locator.canonicalUri = head.request.locator.canonicalUri)
    {m : ValidatedRequest} (hmem : m ∈ members) {q : Part}
    (hq : (m.part head.absoluteOffset).Allocates q) :
    Carries m.request (buildTransfer batch locator head g parts) q := by
  obtain ⟨hrel, hlen, htag, hnull, hbuf⟩ := hq
  obtain ⟨hlength, hle, hlt⟩ := buildTransfer_length batch locator parts hg hm
  obtain ⟨hplace, hoff, hend⟩ := part_place hg hm hmem
  obtain ⟨hb, hu, hi⟩ := sameResource_iff.mp (hg.same m hmem)
  have hspan := hg.span_lt
  have hlen' : q.length = m.request.length := hlen
  have hoffset : (buildTransfer batch locator head g parts).offset = head.absoluteOffset := rfl
  simp only [maxWord] at hspan
  refine ⟨htag, hnull, fun h => hbuf h, hlen', ?_, ?_, ⟨?_, ?_⟩, hl.1.trans hb, hl.2.trans hu, hi,
    (hm m hmem).supported, (hm m hmem).stays⟩
  · rw [hrel, hplace, hoffset, ← (hm m hmem).offset_eq]
    omega
  · rw [hrel, hplace, hlen', hlength]
    exact hend
  · rw [hlength]
    omega
  · rw [hlength, hoffset]
    omega

/-- The relative offsets of the parts are the members' distances from the head. -/
theorem relativeOffsets_eq {parts : List Part} (hg : g.Spans head members)
    (hm : ∀ m ∈ members, m.Valid)
    (hparts : List.Forall₂ (fun m q => (m.part head.absoluteOffset).Allocates q) members parts) :
    parts.map (·.relativeOffset) = members.map fun m => m.absoluteOffset - head.absoluteOffset :=
  map_eq_map_of_forall₂ hparts fun _ hmem _ hq => hq.1.trans (part_place hg hm hmem).1

theorem buildTransfer_layout (batch : Nat) (locator : Resolved) {parts : List Part}
    {taken : List ValidatedRequest} (hg : g.Spans head (head :: taken))
    (hm : ∀ m ∈ head :: taken, m.Valid) (hsorted : (head :: taken).Pairwise NotAfter)
    (hparts : List.Forall₂ Part.Allocates g.parts parts) :
    (buildTransfer batch locator head g parts).Layout := by
  obtain ⟨hlength, hle, hlt⟩ := buildTransfer_length batch locator parts hg hm
  have hspan := hg.span_lt
  rw [hg.parts_eq, List.forall₂_map_left_iff] at hparts
  have hplace : ∀ q ∈ parts, ∃ m ∈ head :: taken, q.length = m.request.length ∧
      q.relativeOffset = m.absoluteOffset - head.absoluteOffset := by
    intro q hq
    obtain ⟨m, hmem, hmq⟩ := exists_left_of_mem hparts hq
    exact ⟨m, hmem, hmq.2.1, hmq.1.trans (part_place hg hm hmem).1⟩
  refine ⟨?_, ?_, ?_, ?_, ?_, ?_, ?_, ?_⟩
  · -- the head's own part comes first
    obtain ⟨q, qs, hq, -, rfl⟩ := List.forall₂_cons_left_iff.mp hparts
    exact ⟨q, qs, rfl, hq.1.trans (sub64_self _)⟩
  · have hmono : (parts.map (·.relativeOffset)).Pairwise (· ≤ ·) := by
      rw [relativeOffsets_eq hg hm hparts, List.pairwise_map]
      refine hsorted.imp_of_mem fun {a b} ha hb hab => ?_
      obtain ⟨h₁, h₂, h₃⟩ := sameResource_iff.mp (hg.same a ha)
      obtain ⟨h₄, h₅, h₆⟩ := sameResource_iff.mp (hg.same b hb)
      have hsame : sameResource a.request b.request = true :=
        sameResource_iff.mpr ⟨h₁.symm.trans h₄, h₂.symm.trans h₅, h₃.symm.trans h₆⟩
      exact Nat.sub_le_sub_right (offset_le_of_notAfter hab hsame) _
    exact List.pairwise_map.mp hmono
  · intro q hq
    obtain ⟨m, -, hl, -⟩ := hplace q hq
    rw [hl]
    exact m.request.length_pos
  · intro q hq
    obtain ⟨m, hmem, hl, ho⟩ := hplace q hq
    rw [hlength, hl, ho]
    exact (part_place hg hm hmem).2.2
  · -- the member that reaches furthest
    obtain ⟨m, hmem, hlast⟩ := hg.last_mem
    obtain ⟨q, hq, hmq⟩ := exists_right_of_mem hparts hmem
    have hl : q.length = m.request.length := hmq.2.1
    refine ⟨q, hq, ?_⟩
    rw [hlength, hmq.1, hl, (part_place hg hm hmem).1]
    have := (hm m hmem).last_eq
    have := m.request.length_pos
    have := hg.offset_le m hmem
    omega
  · rw [hlength]
    simp only [maxWord] at hspan
    omega
  · rw [hlength]
    have hoff : (buildTransfer batch locator head g parts).offset = head.absoluteOffset := rfl
    omega
  · intro hs
    have hs : scatters parts (buildTransfer batch locator head g parts).length = false := hs
    obtain ⟨q, rfl⟩ : ∃ q, parts = [q] := by
      refine List.length_eq_one_iff.mp ?_
      by_contra hne
      simp [scatters, hne] at hs
    refine ⟨q, rfl, ?_⟩
    simpa [scatters] using hs

end Built

/-- A plan read as a list of results: the immediate completions, then every part
of every transfer, with the transfer it belongs to. -/
def TransferPlan.results (plan : TransferPlan) : List (Completion ⊕ Transfer × Part) :=
  plan.immediate.map .inl ++ (plan.transfers.flatMap fun t => t.parts.map fun p => (t, p)).map .inr

/-- A result of the plan belongs to a request. -/
def Answers (r : Request) : Completion ⊕ Transfer × Part → Prop
  | .inl c => Refuses r c
  | .inr (t, p) => Carries r t p

/-- The parts of all transfers, read in order, serve the sorted requests, read in order. -/
theorem planLoop_cover {malloc : Nat → Nat → Addr} {options : ClientOptions} {batch : Nat} :
    ∀ (turns : Nat) (shared : Option Resolved) (n : Nat) (sorted : List ValidatedRequest),
      sorted.length ≤ turns → (∀ v ∈ sorted, v.Valid) → sorted.Pairwise NotAfter →
      (planLoop malloc options batch turns shared n sorted).1 = .ok →
      List.Forall₂ (fun v (tp : Transfer × Part) => Carries v.request tp.1 tp.2) sorted
          ((planLoop malloc options batch turns shared n sorted).2.flatMap
            fun t => t.parts.map fun p => (t, p)) ∧
        ∀ t ∈ (planLoop malloc options batch turns shared n sorted).2, t.Layout
  | 0, shared, n, sorted, hlen, _, _, _ => by
      rw [List.length_eq_zero_iff.mp (Nat.le_zero.mp hlen)]
      exact ⟨.nil, by simp [planLoop]⟩
  | _ + 1, shared, n, [], _, _, _, _ => ⟨.nil, by simp [planLoop]⟩
  | turns + 1, shared, n, head :: rest, hlen, hv, hs, hok => by
      have hhead := hv head List.mem_cons_self
      have hrest := fun c (h : c ∈ rest) => hv c (List.mem_cons_of_mem _ h)
      obtain ⟨hafter, hsrest⟩ := List.pairwise_cons.mp hs
      obtain ⟨taken, hsplit, hspans⟩ := coalesce_spec options rest
        (Group.start_spans hhead) (by simpa using hhead) hrest hafter
      simp only [planLoop] at hok ⊢
      generalize coalesce options head (Group.start head) rest = taking at hok hsplit hspans ⊢
      obtain ⟨g, rest'⟩ := taking
      simp only [List.singleton_append] at hok hsplit hspans ⊢
      cases halloc : allocateParts malloc n g.parts with
      | none => simp [halloc] at hok
      | some allocated =>
          obtain ⟨parts, n'⟩ := allocated
          simp only [halloc] at hok ⊢
          subst hsplit
          have hlen' : rest'.length ≤ turns := by
            simp only [List.length_cons, List.length_append] at hlen
            omega
          obtain ⟨hcover, hlayout⟩ := planLoop_cover turns (some (shareLocator shared head)) n'
            rest' hlen' (fun v h => hrest v (List.mem_append_right _ h))
            (List.pairwise_append.mp hsrest).2.1 hok
          have hmembers : ∀ m ∈ head :: taken, m.Valid := by
            intro m h
            rcases List.mem_cons.mp h with rfl | h
            · exact hhead
            · exact hrest m (List.mem_append_left _ h)
          have hsorted : (head :: taken).Pairwise NotAfter :=
            (List.pairwise_append.mp (List.cons_append ▸ hs)).1
          have hallocates := allocateParts_spec g.parts halloc
          refine ⟨?_, ?_⟩
          · -- this transfer's parts are those of the head and of what it took
            rw [List.flatMap_cons, ← List.cons_append]
            refine List.rel_append ?_ hcover
            rw [hspans.parts_eq, List.forall₂_map_left_iff] at hallocates
            rw [List.forall₂_map_right_iff]
            refine List.forall₂_iff_zip.mpr ⟨hallocates.length_eq, fun {m q} hmq => ?_⟩
            exact buildTransfer_carries batch parts hspans hmembers
              (shareLocator_same shared head) (List.of_mem_zip hmq).1
              (List.forall₂_zip hallocates hmq)
          · intro t ht
            rcases List.mem_cons.mp ht with rfl | ht
            · exact buildTransfer_layout batch _ hspans hmembers hsorted hallocates
            · exact hlayout t ht

/-! ## The plan -/

section Plan

variable {malloc : Nat → Nat → Addr} {batch : Nat} {requests : List Request}
  {options : ClientOptions}

/-- The sorted valid requests, as the outer loop receives them. -/
theorem planLoop_sorted (hok : (planTransfers malloc batch requests options).1 = .ok) :
    List.Forall₂ (fun v (tp : Transfer × Part) => Carries v.request tp.1 tp.2)
        (stableSort (screen requests).2)
        ((planTransfers malloc batch requests options).2.transfers.flatMap
          fun t => t.parts.map fun p => (t, p)) ∧
      ∀ t ∈ (planTransfers malloc batch requests options).2.transfers, t.Layout := by
  obtain ⟨-, -, hvalid, -⟩ := screen_spec requests
  exact planLoop_cover (stableSort (screen requests).2).length none 0 _ le_rfl
    (fun v h => hvalid v ((List.perm_insertionSort NotAfter _).mem_iff.mp h))
    (sorted_stableSort _) hok

/-- Requests and results are in bijection. -/
theorem planTransfers_cover (hok : (planTransfers malloc batch requests options).1 = .ok) :
    ∃ ordered : List Request, ordered.Perm requests ∧
      List.Forall₂ Answers ordered (planTransfers malloc batch requests options).2.results := by
  obtain ⟨refused, hrefused, -, hperm⟩ := screen_spec requests
  have hsort : (stableSort (screen requests).2).Perm (screen requests).2 :=
    List.perm_insertionSort NotAfter _
  refine ⟨refused ++ (stableSort (screen requests).2).map (·.request), ?_, ?_⟩
  · exact ((hsort.map _).append_left refused).trans hperm
  · refine List.rel_append ?_ ?_
    · exact List.forall₂_map_right_iff.mpr hrefused
    · exact List.forall₂_map_left_iff.mpr (List.forall₂_map_right_iff.mpr (planLoop_sorted hok).1)

/-- Every request is served exactly once: some rearrangement of the requests
matches the immediate completions and the parts entry by entry, a completion
exactly where the request is refused, and every transfer is laid out for its
parts. -/
theorem planTransfers_exact_cover (hok : (planTransfers malloc batch requests options).1 = .ok) :
    (∃ ordered : List Request, ordered.Perm requests ∧
      List.Forall₂ Answers ordered (planTransfers malloc batch requests options).2.results) ∧
    ∀ t ∈ (planTransfers malloc batch requests options).2.transfers, t.Layout :=
  ⟨planTransfers_cover hok, (planLoop_sorted hok).2⟩

end Plan

/-- Two overlapping requests on one object, given out of order, a local file
with a precondition, and a request past its window. -/
def mixedRequests : List Request :=
  let object : Resolved := { backend := .s3, canonicalUri := text "s3://b/k" }
  let window : Resolved :=
    { backend := .s3, canonicalUri := text "s3://b/k", windowOffset := 20, windowLength := 90 }
  [{ locator := object, offset := 60, length := 40, buffer := .heap 1, tag := 10 },
   { locator := { backend := .file, canonicalUri := text "/a" }, length := 21, tag := 11,
     ifMatch := text "*" },
   { locator := window, offset := 11, length := 50, buffer := .heap 2, tag := 12 },
   { locator := window, offset := 80, length := 22, buffer := .heap 3, tag := 13 }]

theorem planTransfers_exact_cover_mixed :
    (planTransfers (fun n _ => .heap (100 + n)) 0 mixedRequests {}).2.transfers.length = 1 ∧
    (∃ ordered : List Request, ordered.Perm mixedRequests ∧
      List.Forall₂ Answers ordered
        (planTransfers (fun n _ => .heap (100 + n)) 0 mixedRequests {}).2.results) ∧
    ∀ t ∈ (planTransfers (fun n _ => .heap (100 + n)) 0 mixedRequests {}).2.transfers, t.Layout :=
  ⟨by decide, planTransfers_exact_cover (by decide)⟩

end Karu
