/-
# `Karu.Runtime.PlannerBuffers` — the buffers of a plan

A request brings a buffer of its own or asks karu to allocate one.  With the
given buffers distinct and `malloc` giving out new regions, no two parts of a
plan share a buffer (`planTransfers_apart`), in whatever way the requests are
grouped.  Nothing else of a transfer is set by the planner: it leaves as
`buildTransfer` makes it.
-/
import Karu.Runtime.PlannerCover
import Karu.Runtime.Stored

namespace Karu

open Base

/-- Destinations that do not overlap: the buffers the requests bring are distinct, `malloc`
gives out no region twice and none of theirs, and none of them is a transfer's scratch
vector. -/
structure Destinations (malloc : Nat → Nat → Addr) (requests : List Request) : Prop where
  apart : requests.Pairwise fun r r' => r.buffer = .null ∨ r.buffer ≠ r'.buffer
  outside : ∀ r ∈ requests, r.buffer ≠ .scratch
  malloc_new : ∀ n size, ∀ r ∈ requests, malloc n size ≠ .null → malloc n size ≠ r.buffer
  malloc_once : ∀ n n' size size', n ≠ n' → malloc n size ≠ .null →
    malloc n size ≠ malloc n' size'
  malloc_outside : ∀ n size, malloc n size ≠ .scratch

/-- Where the buffers of parts come from: the given ones, or calls of `malloc` from the
`n`-th on and before the `n'`-th. -/
def From (malloc : Nat → Nat → Addr) (given : List Addr) (n n' : Nat) (a : Addr) : Prop :=
  a ≠ .null ∧ (a ∈ given ∨ ∃ k size, n ≤ k ∧ k < n' ∧ a = malloc k size)

section Allocate

variable {malloc : Nat → Nat → Addr}

theorem allocatePart_from {n n' : Nat} {p q : Part}
    (h : allocatePart malloc n p = some (q, n')) :
    n ≤ n' ∧ ((p.buffer ≠ .null ∧ q.buffer = p.buffer) ∨
      (p.buffer = .null ∧ n' = n + 1 ∧ q.buffer ≠ .null ∧ q.buffer = malloc n p.length)) := by
  unfold allocatePart at h
  split at h
  · rename_i hb
    cases h
    exact ⟨le_rfl, Or.inl ⟨hb, rfl⟩⟩
  · rename_i hb
    split at h
    · cases h
    · rename_i hm
      cases h
      exact ⟨Nat.le_succ n, Or.inr ⟨not_not.mp hb, rfl, hm, rfl⟩⟩

/-- Allocation never reaches back, and gives every part a buffer from where it may come. -/
theorem allocateParts_from :
    ∀ (ps : List Part) {n n' : Nat} {qs : List Part}, allocateParts malloc n ps = some (qs, n') →
      n ≤ n' ∧ ∀ q ∈ qs, From malloc (ps.map (·.buffer)) n n' q.buffer
  | [], n, n', qs, h => by
      cases h
      exact ⟨le_rfl, by simp⟩
  | p :: ps, n, n', qs, h => by
      simp only [allocateParts] at h
      split at h
      · cases h
      · rename_i q k hp
        split at h
        · cases h
        · rename_i rs l hps
          cases h
          obtain ⟨hle, hq⟩ := allocatePart_from hp
          obtain ⟨hle', hrs⟩ := allocateParts_from ps hps
          refine ⟨hle.trans hle', fun x hx => ?_⟩
          rcases List.mem_cons.mp hx with rfl | hx
          · rcases hq with ⟨hb, he⟩ | ⟨-, rfl, hnull, he⟩
            · exact ⟨he ▸ hb, Or.inl (by simp [he])⟩
            · exact ⟨hnull, Or.inr ⟨n, p.length, le_rfl, hle', he⟩⟩
          · obtain ⟨hnull, hfrom⟩ := hrs x hx
            refine ⟨hnull, hfrom.imp (fun h => by simp [h]) ?_⟩
            rintro ⟨j, size, h₁, h₂, he⟩
            exact ⟨j, size, hle.trans h₁, h₂, he⟩

variable {given : List Addr}

/-- Buffers given and buffers allocated do not meet. -/
structure Allocates (malloc : Nat → Nat → Addr) (given : List Addr) : Prop where
  new : ∀ n size, ∀ a ∈ given, malloc n size ≠ .null → malloc n size ≠ a
  once : ∀ n n' size size', n ≠ n' → malloc n size ≠ .null → malloc n size ≠ malloc n' size'

/-- Two buffers from different places are different. -/
theorem From.ne (hm : Allocates malloc given) {xs ys : List Addr} (hxs : xs ⊆ given)
    (hys : ys ⊆ given) (hapart : ∀ x ∈ xs, ∀ y ∈ ys, x = .null ∨ x ≠ y) {n k l : Nat} {a b : Addr}
    (ha : From malloc xs n k a) (hb : From malloc ys k l b) : a ≠ b := by
  obtain ⟨hanull, ha⟩ := ha
  obtain ⟨hbnull, hb⟩ := hb
  rcases ha with ha | ⟨i, size, -, hi, rfl⟩
  · rcases hb with hb | ⟨j, size', hj, -, rfl⟩
    · exact (hapart a ha b hb).resolve_left hanull
    · exact (hm.new j size' a (hxs ha) hbnull).symm
  · rcases hb with hb | ⟨j, size', hj, -, rfl⟩
    · exact hm.new i size b (hys hb) hanull
    · exact hm.once i j size size' (by omega) hanull

/-- Given apart, allocated apart. -/
theorem allocateParts_apart (hm : Allocates malloc given) :
    ∀ (ps : List Part) {n n' : Nat} {qs : List Part}, ps.map (·.buffer) ⊆ given →
      (ps.map (·.buffer)).Pairwise (fun a b => a = .null ∨ a ≠ b) →
      allocateParts malloc n ps = some (qs, n') → qs.Pairwise Part.Apart
  | [], n, n', qs, _, _, h => by
      cases h
      exact .nil
  | p :: ps, n, n', qs, hsub, hapart, h => by
      simp only [allocateParts] at h
      split at h
      · cases h
      · rename_i q k hp
        split at h
        · cases h
        · rename_i rs l hps
          cases h
          rw [List.map_cons, List.pairwise_cons] at hapart
          rw [List.map_cons, List.cons_subset] at hsub
          obtain ⟨hle, hrs⟩ := allocateParts_from ps hps
          have hone : allocateParts malloc n [p] = some ([q], k) := by simp [allocateParts, hp]
          have hq := (allocateParts_from [p] hone).2 q List.mem_cons_self
          refine .cons (fun x hx => ?_) (allocateParts_apart hm ps hsub.2 hapart.2 hps)
          exact From.ne hm (by simpa using hsub.1) hsub.2 (by simpa using hapart.1) hq (hrs x hx)

end Allocate

/-! ## The outer loop -/

theorem From.mono {malloc : Nat → Nat → Addr} {xs ys : List Addr} {n k n' k' : Nat} {a : Addr}
    (h : From malloc xs n k a) (hsub : xs ⊆ ys) (hn : n' ≤ n) (hk : k ≤ k') :
    From malloc ys n' k' a := by
  refine ⟨h.1, h.2.imp (fun hx => hsub hx) ?_⟩
  rintro ⟨i, size, h₁, h₂, he⟩
  exact ⟨i, size, hn.trans h₁, h₂.trans_le hk, he⟩

/-- A transfer as the planner leaves it. -/
structure Transfer.Blank (t : Transfer) : Prop where
  sink_eq : t.sink = .null
  scratch_eq : t.scratch = 0
  resumed_eq : t.resumed = 0
  received_eq : t.received = 0
  resumeEtag_eq : t.resumeEtag = []

/-- The parts of a group have the buffers of its members. -/
theorem Group.Spans.buffers {g : Group} {head : ValidatedRequest}
    {members : List ValidatedRequest} (hg : g.Spans head members) :
    g.parts.map (·.buffer) = members.map (·.request.buffer) := by
  rw [hg.parts_eq, List.map_map]
  rfl

theorem planLoop_buffers {malloc : Nat → Nat → Addr} {given : List Addr}
    (hm : Allocates malloc given) {options : ClientOptions} {batch : Nat} :
    ∀ (turns : Nat) (shared : Option Resolved) (n : Nat) (sorted : List ValidatedRequest),
      (∀ v ∈ sorted, v.Valid) → sorted.Pairwise NotAfter →
      sorted.map (·.request.buffer) ⊆ given →
      (sorted.map (·.request.buffer)).Pairwise (fun a b => a = .null ∨ a ≠ b) →
      ∃ k, n ≤ k ∧
        (∀ t ∈ (planLoop malloc options batch turns shared n sorted).2, t.Blank ∧
          ∀ p ∈ t.parts, From malloc (sorted.map (·.request.buffer)) n k p.buffer) ∧
        ((planLoop malloc options batch turns shared n sorted).2.flatMap (·.parts)).Pairwise
          Part.Apart
  | 0, _, n, _, _, _, _, _ => ⟨n, le_rfl, by simp [planLoop], by simp [planLoop]⟩
  | _ + 1, _, n, [], _, _, _, _ => ⟨n, le_rfl, by simp [planLoop], by simp [planLoop]⟩
  | turns + 1, shared, n, head :: rest, hv, hs, hsub, hapart => by
      have hhead := hv head List.mem_cons_self
      have hrest := fun c (h : c ∈ rest) => hv c (List.mem_cons_of_mem _ h)
      obtain ⟨hafter, hsrest⟩ := List.pairwise_cons.mp hs
      obtain ⟨taken, hsplit, hspans⟩ := coalesce_spec options rest
        (Group.start_spans hhead) (by simpa using hhead) hrest hafter
      simp only [planLoop]
      generalize coalesce options head (Group.start head) rest = taking at hsplit hspans ⊢
      obtain ⟨g, rest'⟩ := taking
      simp only [List.singleton_append] at hsplit hspans ⊢
      cases halloc : allocateParts malloc n g.parts with
      | none => exact ⟨n, le_rfl, by simp, by simp⟩
      | some allocated =>
          obtain ⟨parts, k⟩ := allocated
          subst hsplit
          have hbuffers : (head :: (taken ++ rest')).map (·.request.buffer) =
              g.parts.map (·.buffer) ++ rest'.map (·.request.buffer) := by
            rw [hspans.buffers, ← List.cons_append, List.map_append]
          rw [hbuffers] at hsub hapart ⊢
          obtain ⟨hsubg, hsubr⟩ := List.append_subset.mp hsub
          obtain ⟨hapartg, hapartr, hcross⟩ := List.pairwise_append.mp hapart
          obtain ⟨hle, hfrom⟩ := allocateParts_from g.parts halloc
          obtain ⟨l, hl, hall, hpair⟩ := planLoop_buffers hm turns
            (some (shareLocator shared head)) k rest'
            (fun v h => hrest v (List.mem_append_right _ h)) (List.pairwise_append.mp hsrest).2.1
            hsubr hapartr
          refine ⟨l, hle.trans hl, fun t ht => ?_, ?_⟩
          · rcases List.mem_cons.mp ht with rfl | ht
            · exact ⟨⟨rfl, rfl, rfl, rfl, rfl⟩, fun p hp =>
                (hfrom p hp).mono (List.subset_append_left _ _) le_rfl hl⟩
            · exact ⟨(hall t ht).1, fun p hp =>
                ((hall t ht).2 p hp).mono (List.subset_append_right _ _) hle le_rfl⟩
          · rw [List.flatMap_cons, List.pairwise_append]
            refine ⟨allocateParts_apart hm g.parts hsubg hapartg halloc, hpair, fun p hp q hq => ?_⟩
            obtain ⟨t, ht, hq⟩ := List.mem_flatMap.mp hq
            exact From.ne hm hsubg hsubr hcross (hfrom p hp) ((hall t ht).2 q hq)

/-- The transfers of a plan are blank, and no two of their parts share a buffer, with one
another or with a scratch vector. -/
theorem planTransfers_apart {malloc : Nat → Nat → Addr} {requests : List Request}
    (hd : Destinations malloc requests) (batch : Nat) (options : ClientOptions) :
    (∀ t ∈ (planTransfers malloc batch requests options).2.transfers, t.Blank) ∧
      ((planTransfers malloc batch requests options).2.transfers.flatMap (·.parts)).Pairwise
        Part.Apart ∧
      ∀ t ∈ (planTransfers malloc batch requests options).2.transfers, ∀ p ∈ t.parts,
        p.buffer ≠ .scratch := by
  obtain ⟨refused, -, hvalid, hperm⟩ := screen_spec requests
  have hsort : (stableSort (screen requests).2).Perm (screen requests).2 :=
    List.perm_insertionSort NotAfter _
  -- the sorted requests are some of the requests, in another order
  have hwhole : (refused ++ (stableSort (screen requests).2).map (·.request)).Perm requests :=
    ((hsort.map _).append_left refused).trans hperm
  have hsymm : ∀ {r r' : Request}, (r.buffer = .null ∨ r.buffer ≠ r'.buffer) →
      (r'.buffer = .null ∨ r'.buffer ≠ r.buffer) := by
    intro r r' h
    rcases h with h | h
    · by_cases h' : r'.buffer = .null
      · exact Or.inl h'
      · exact Or.inr (by rw [h]; exact h')
    · exact Or.inr h.symm
  have hapart : ((stableSort (screen requests).2).map (·.request)).Pairwise
      fun r r' => r.buffer = .null ∨ r.buffer ≠ r'.buffer :=
    (List.pairwise_append.mp (hd.apart.perm hwhole.symm hsymm)).2.1
  have hmem : ∀ v ∈ stableSort (screen requests).2, v.request ∈ requests := fun v h =>
    hwhole.subset (List.mem_append_right _ (List.mem_map_of_mem h))
  have hm : Allocates malloc (requests.map (·.buffer)) := by
    refine ⟨fun n size a ha => ?_, hd.malloc_once⟩
    obtain ⟨r, hr, rfl⟩ := List.mem_map.mp ha
    exact hd.malloc_new n size r hr
  have hgiven : (stableSort (screen requests).2).map (·.request.buffer) ⊆
      requests.map (·.buffer) := by
    intro a ha
    obtain ⟨v, hv, rfl⟩ := List.mem_map.mp ha
    exact List.mem_map_of_mem (hmem v hv)
  have hbuffers : ((stableSort (screen requests).2).map (·.request.buffer)).Pairwise
      fun a b => a = .null ∨ a ≠ b := by
    rw [List.pairwise_map] at hapart ⊢
    exact hapart
  obtain ⟨k, -, hall, hpair⟩ := planLoop_buffers hm (stableSort (screen requests).2).length none 0
    (stableSort (screen requests).2) (fun v h => hvalid v (hsort.mem_iff.mp h))
    (sorted_stableSort _) hgiven hbuffers
  refine ⟨fun t ht => (hall t ht).1, hpair, fun t ht p hp => ?_⟩
  obtain ⟨-, hsource | ⟨i, size, -, -, he⟩⟩ := (hall t ht).2 p hp
  · obtain ⟨v, hv, he⟩ := List.mem_map.mp hsource
    rw [← he]
    exact hd.outside v.request (hmem v hv)
  · rw [he]
    exact hd.malloc_outside i size

end Karu
