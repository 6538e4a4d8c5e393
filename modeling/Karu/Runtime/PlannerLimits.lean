/-
# `Karu.Runtime.PlannerLimits` — how far the planner coalesces

A transfer with more than one part keeps to four limits: the number of its
parts, its length, the gaps between them, and how much more it reads than was
asked for.  The inner loop tests them with running values that wrap or
saturate; `joins_iff` says that the tests come out as they would over the
natural numbers.

So the loop is greedy: it takes the next request if the four limits allow it.
Two neighbours of the sorted list are in different transfers only where the
second one would break a limit (`planTransfers_greedy`).
-/
import Karu.Base.Extents
import Karu.Runtime.PlannerCover

namespace Karu

open Base

/-! ## The limits -/

/-- A local `pread` gains nothing from reading through gaps. -/
def gapFor (options : ClientOptions) (backend : Backend) : Nat :=
  if backend = .file then 0 else options.coalesceGap

/-- What the parts of one transfer must keep to. -/
structure Limits (options : ClientOptions) (backend : Backend) (parts : List Extent) : Prop where
  few : parts.length ≤ options.coalesceParts
  short : Extent.furthest parts ≤ options.coalesceLimit
  near : Extent.Near (gapFor options backend) parts
  useful : Extent.furthest parts ≤ options.coalesceAmplification * Extent.total parts

/-- The limits that hold of one part alone, too. -/
structure Loose (options : ClientOptions) (backend : Backend) (parts : List Extent) : Prop where
  few : parts.length ≤ options.coalesceParts
  near : Extent.Near (gapFor options backend) parts

/-- Where the parts of a transfer lie. -/
def Transfer.extents (t : Transfer) : List Extent :=
  t.parts.map fun p => (p.relativeOffset, p.length)

/-- Where a request would lie in a transfer. -/
def Request.extentIn (r : Request) (t : Transfer) : Extent :=
  (r.locator.windowOffset + r.offset - t.offset, r.length)

/-- The saturated product is compared like the product. -/
theorem excessiveAmplification_iff {span sum maximum : Nat} (hspan : span < 2 ^ 64)
    (hmaximum : 1 ≤ maximum) :
    excessiveAmplification span (min maxWord sum) maximum = true ↔ maximum * sum < span := by
  unfold excessiveAmplification
  split
  · -- the product is beyond 64 bits, and so no span exceeds it
    rename_i h
    refine iff_of_false (by simp) (Nat.not_lt.mpr ?_)
    have hover : maxWord < min maxWord sum * maximum := (Nat.div_lt_iff_lt_mul hmaximum).mp h
    calc span ≤ maxWord := by unfold maxWord; omega
      _ ≤ min maxWord sum * maximum := hover.le
      _ ≤ sum * maximum := Nat.mul_le_mul_right _ (min_le_right _ _)
      _ = maximum * sum := Nat.mul_comm _ _
  · rename_i h
    rw [decide_eq_true_eq]
    rcases le_total sum maxWord with hs | hs
    · rw [min_eq_right hs, Nat.mul_comm]
    · -- a saturated sum is a whole word, which no span exceeds either
      rw [min_eq_left hs]
      refine iff_of_false (Nat.not_lt.mpr ?_) (Nat.not_lt.mpr ?_)
      · calc span ≤ maxWord := by unfold maxWord; omega
          _ ≤ maxWord * maximum := Nat.le_mul_of_pos_right _ hmaximum
      · calc span ≤ maxWord := by unfold maxWord; omega
          _ ≤ sum := hs
          _ ≤ maximum * sum := Nat.le_mul_of_pos_left _ hmaximum

/-! ## The inner loop -/

/-- Where the members of a group lie in the transfer that starts at its head. -/
def ValidatedRequest.extentFrom (head m : ValidatedRequest) : Extent :=
  (m.absoluteOffset - head.absoluteOffset, m.request.length)

/-- The group's running values are those of its members, up to saturation; and the members keep
to the limits, one of them alone to those that apply. -/
structure Group.Tracks (g : Group) (options : ClientOptions) (head : ValidatedRequest)
    (members : List ValidatedRequest) : Prop where
  furthest_eq : Extent.furthest (members.map head.extentFrom) = g.lastByte - head.absoluteOffset + 1
  useful_eq : g.usefulBytes = min maxWord (Extent.total (members.map head.extentFrom))
  loose : Loose options head.request.locator.backend (members.map head.extentFrom)
  limits : 1 < members.length →
    Limits options head.request.locator.backend (members.map head.extentFrom)

section

variable {options : ClientOptions} {head c : ValidatedRequest} {g : Group}
  {members : List ValidatedRequest}

theorem Group.start_tracks (options : ClientOptions) (hv : head.Valid) :
    (Group.start head).Tracks options head [head] where
  furthest_eq := by
    have hlast := hv.last_eq
    have hpos := head.request.length_pos
    simp only [List.map_cons, List.map_nil, ValidatedRequest.extentFrom, Extent.furthest_cons,
      Extent.furthest_nil, Group.start]
    omega
  useful_eq := by
    have hlt := head.request.length_lt
    simp only [Group.start, Extent.total, List.map_cons, List.map_nil, List.sum_cons, List.sum_nil,
      ValidatedRequest.extentFrom, maxWord]
    omega
  loose := ⟨options.coalesceParts_pos, Extent.near_singleton _ _⟩
  limits := by
    intro h
    simp at h

/-- The running sum saturates. -/
theorem Group.mergedUseful_eq (hg : g.Tracks options head members) :
    g.mergedUseful c =
      min maxWord (Extent.total (members.map head.extentFrom) + c.request.length) := by
  have huseful := hg.useful_eq
  have hlt := c.request.length_lt
  unfold Group.mergedUseful
  rw [sub64_of_le (by rw [huseful]; exact min_le_left _ _) (by decide)]
  by_cases hover : maxWord - g.usefulBytes < c.request.length
  · rw [if_pos hover]
    simp only [maxWord] at huseful hover ⊢
    omega
  · rw [if_neg hover, add64_of_lt]
    all_goals
      simp only [maxWord] at huseful hover ⊢
      omega

section Candidate

variable (hg : g.Tracks options head members) (hc : c.Valid)
  (hle : head.absoluteOffset ≤ c.absoluteOffset) (hhead : head.absoluteOffset ≤ g.lastByte)
  (hlast : g.lastByte < 2 ^ 64)

include hc hhead hlast in
/-- `merged_last` lies behind the head, and in 64 bits. -/
theorem Group.sub64_mergedLast :
    sub64 (g.mergedLast c) head.absoluteOffset = g.mergedLast c - head.absoluteOffset ∧
      g.mergedLast c < 2 ^ 64 := by
  have hstop := hc.stop_le
  have hcl := hc.last_eq
  have hpos := c.request.length_pos
  have hlt : g.mergedLast c < 2 ^ 64 := by
    unfold Group.mergedLast
    omega
  exact ⟨sub64_of_le (hhead.trans (le_max_left _ _)) hlt, hlt⟩

include hg hc hle hhead in
/-- The end of the members and the candidate. -/
theorem Group.furthest_merged :
    Extent.furthest (members.map head.extentFrom ++ [head.extentFrom c]) =
      g.mergedLast c - head.absoluteOffset + 1 := by
  have hcl := hc.last_eq
  have hpos := c.request.length_pos
  simp only [Extent.furthest_append, Extent.furthest_cons, Extent.furthest_nil, hg.furthest_eq,
    ValidatedRequest.extentFrom, Group.mergedLast]
  omega

include hg hle hhead hc in
/-- `distance - 1 > coalesce_gap`. -/
theorem Group.gap_iff :
    (g.lastByte < c.absoluteOffset ∧
        coalesceGapFor options head < sub64 (sub64 c.absoluteOffset g.lastByte) 1) ↔
      ¬ (head.extentFrom c).1 ≤ Extent.furthest (members.map head.extentFrom) +
        gapFor options head.request.locator.backend := by
  have hstop := hc.stop_le
  have hpos := c.request.length_pos
  change (_ ∧ gapFor options head.request.locator.backend < _) ↔ _
  rw [hg.furthest_eq, ValidatedRequest.extentFrom]
  simp only [sub64]
  omega

include hg hc hle hhead hlast in
/-- The limits, as the loop tests them where the span is in 64 bits. -/
theorem Group.limits_iff (hne : members ≠ []) (hparts : g.parts.length = members.length)
    (hword : Extent.furthest (members.map head.extentFrom ++ [head.extentFrom c]) < 2 ^ 64) :
    Limits options head.request.locator.backend
        (members.map head.extentFrom ++ [head.extentFrom c]) ↔
      (head.extentFrom c).1 ≤ Extent.furthest (members.map head.extentFrom) +
          gapFor options head.request.locator.backend ∧
        g.parts.length ≠ options.coalesceParts ∧
        ¬ options.coalesceLimit < g.mergedLength head.absoluteOffset c ∧
        ¬ excessiveAmplification (g.mergedLength head.absoluteOffset c) (g.mergedUseful c)
          options.coalesceAmplification = true := by
  have hfew := hg.loose.few
  have hlength : g.mergedLength head.absoluteOffset c =
      Extent.furthest (members.map head.extentFrom ++ [head.extentFrom c]) := by
    have hfurthest := Group.furthest_merged hg hc hle hhead
    rw [Group.mergedLength, (Group.sub64_mergedLast hc hhead hlast).1, add64_of_lt (by omega),
      hfurthest]
  have htotal : Extent.total (members.map head.extentFrom) + c.request.length =
      Extent.total (members.map head.extentFrom ++ [head.extentFrom c]) := by
    simp [Extent.total, ValidatedRequest.extentFrom]
  rw [hlength, Group.mergedUseful_eq hg, htotal,
    excessiveAmplification_iff hword options.coalesceAmplification_pos, hparts]
  have hnear := @Extent.near_append_singleton (gapFor options head.request.locator.backend)
    (members.map head.extentFrom) (head.extentFrom c) (by simpa using hne)
  rw [List.length_map] at hfew
  constructor
  · intro h
    have hcount := h.few
    rw [List.length_append, List.length_map, List.length_singleton] at hcount
    exact ⟨(hnear.mp h.near).2, by omega, h.short.not_gt, h.useful.not_gt⟩
  · rintro ⟨hgap, hcount, hshort, huseful⟩
    refine ⟨?_, Nat.not_lt.mp hshort, hnear.mpr ⟨hg.loose.near, hgap⟩, Nat.not_lt.mp huseful⟩
    rw [List.length_append, List.length_map, List.length_singleton]
    omega

include hg hc hle hhead hlast in
/-- The tests of the inner loop, over the natural numbers. -/
theorem joins_iff (hne : members ≠ []) (hparts : g.parts.length = members.length) :
    joins options head g c = true ↔
      0 < options.coalesceGap ∧ sameResource head.request c.request = true ∧
        Limits options head.request.locator.backend
          (members.map head.extentFrom ++ [head.extentFrom c]) ∧
        Extent.furthest (members.map head.extentFrom ++ [head.extentFrom c]) < 2 ^ 64 := by
  have hfurthest := Group.furthest_merged hg hc hle hhead
  have hgap := Group.gap_iff hg hc hle hhead
  have hlimits := Group.limits_iff hg hc hle hhead hlast hne hparts
  have hspan : sub64 (g.mergedLast c) head.absoluteOffset = maxWord ↔
      ¬ Extent.furthest (members.map head.extentFrom ++ [head.extentFrom c]) < 2 ^ 64 := by
    obtain ⟨hsub, hmerged⟩ := Group.sub64_mergedLast hc hhead hlast
    rw [hsub, hfurthest, maxWord]
    omega
  simp only [joins, Bool.and_eq_true, Bool.not_eq_true', decide_eq_true_eq, ← Bool.not_eq_true,
    Bool.or_eq_true, beq_iff_eq, hgap, hspan, not_not, not_or]
  constructor
  · rintro ⟨⟨⟨⟨hpos, hsame⟩, hnear⟩, hword⟩, ⟨hfew, hshort⟩, huseful⟩
    exact ⟨hpos, hsame, (hlimits hword).mpr ⟨hnear, hfew, hshort, huseful⟩, hword⟩
  · rintro ⟨hpos, hsame, hkept, hword⟩
    obtain ⟨hnear, hfew, hshort, huseful⟩ := (hlimits hword).mp hkept
    exact ⟨⟨⟨⟨hpos, hsame⟩, hnear⟩, hword⟩, ⟨hfew, hshort⟩, huseful⟩

include hg hc hle hhead hlast in
/-- What joins is tracked. -/
theorem Group.absorb_tracks (hne : members ≠ []) (hparts : g.parts.length = members.length)
    (hj : joins options head g c = true) :
    (g.absorb head.absoluteOffset c).Tracks options head (members ++ [c]) := by
  obtain ⟨-, -, hlimits, -⟩ := (joins_iff hg hc hle hhead hlast hne hparts).mp hj
  rw [← List.map_singleton, ← List.map_append] at hlimits
  refine ⟨?_, ?_, ⟨hlimits.few, hlimits.near⟩, fun _ => hlimits⟩
  · rw [List.map_append, List.map_singleton]
    exact Group.furthest_merged hg hc hle hhead
  · rw [List.map_append, List.map_singleton, Extent.total_append]
    exact Group.mergedUseful_eq hg

end Candidate

/-- The bounds on a group's last byte that its members give. -/
theorem Group.Spans.lastByte_bounds (hg : g.Spans head members) (hm : ∀ m ∈ members, m.Valid) :
    head.absoluteOffset ≤ g.lastByte ∧ g.lastByte < 2 ^ 64 := by
  obtain ⟨m, hmem, hlast⟩ := hg.last_mem
  have hstop := (hm m hmem).stop_le
  have hml := (hm m hmem).last_eq
  have hpos := m.request.length_pos
  have hoff := hg.offset_le m hmem
  omega

end

/-- The inner loop keeps to the limits, and stops at a request that does not join. -/
theorem coalesce_tracks {options : ClientOptions} {head : ValidatedRequest}
    (cs : List ValidatedRequest) :
    ∀ {g : Group} {members taken : List ValidatedRequest},
      g.Spans head members → g.Tracks options head members → (∀ m ∈ members, m.Valid) →
      (∀ c ∈ cs, c.Valid) → (∀ c ∈ cs, NotAfter head c) →
      cs = taken ++ (coalesce options head g cs).2 →
      (coalesce options head g cs).1.Tracks options head (members ++ taken) ∧
        ∀ c ∈ (coalesce options head g cs).2.head?,
          joins options head (coalesce options head g cs).1 c = false := by
  induction cs with
  | nil =>
      intro g members taken hg htracks hm hv ha htaken
      obtain ⟨rfl, -⟩ := List.append_eq_nil_iff.mp htaken.symm
      exact ⟨by simpa [coalesce] using htracks, by simp [coalesce]⟩
  | cons c cs ih =>
      intro g members taken hg htracks hm hv ha htaken
      have hcv := hv c List.mem_cons_self
      have hca := ha c List.mem_cons_self
      by_cases hj : joins options head g c = true
      · simp only [coalesce, if_pos hj] at htaken ⊢
        obtain ⟨hhead, hlast⟩ := hg.lastByte_bounds hm
        have hparts : g.parts.length = members.length := by rw [hg.parts_eq, List.length_map]
        have hg' := Group.absorb_spans hg hcv hca hlast hj
        have htracks' := Group.absorb_tracks htracks hcv
          (offset_le_of_notAfter hca (joins_spec hj).1) hhead hlast
          (List.ne_nil_of_mem hg.head_mem) hparts hj
        have hm' : ∀ m ∈ members ++ [c], m.Valid := by
          intro m hmem
          rcases List.mem_append.mp hmem with h | h
          · exact hm m h
          · rw [List.mem_singleton.mp h]
            exact hcv
        -- the candidate is the first one taken
        obtain ⟨more, hcut, -⟩ := coalesce_spec options cs hg' hm'
          (fun c h => hv c (List.mem_cons_of_mem _ h)) (fun c h => ha c (List.mem_cons_of_mem _ h))
        have htaken' : taken = c :: more := by
          refine List.append_cancel_right (htaken.symm.trans ?_)
          rw [List.cons_append, ← hcut]
        subst htaken'
        have hrest := ih hg' htracks' hm' (fun c h => hv c (List.mem_cons_of_mem _ h))
          (fun c h => ha c (List.mem_cons_of_mem _ h)) hcut
        simpa using hrest
      · simp only [coalesce, if_neg hj] at htaken ⊢
        have hnone : taken = [] := by simpa using htaken
        subst hnone
        refine ⟨by simpa using htracks, ?_⟩
        intro c' hc'
        cases hc'
        exact Bool.eq_false_iff.mpr hj

/-! ## The outer loop -/

/-- The parts of a transfer serve these requests, one after the other. -/
def Carried (rs : List Request) (t : Transfer) : Prop :=
  rs ≠ [] ∧ List.Forall₂ (fun r p => Carries r t p) rs t.parts

/-- One transfer ends and the next one begins where the request that comes next has another
resource, would break a limit, or would make the transfer span every position. -/
def Parted (options : ClientOptions) (x y : List Request × Transfer) : Prop :=
  ∀ last ∈ x.1.getLast?, ∀ next ∈ y.1.head?, sameResource last next = true →
    ¬ Limits options x.2.locator.backend (x.2.extents ++ [next.extentIn x.2]) ∨
      2 ^ 64 ≤ Extent.furthest (x.2.extents ++ [next.extentIn x.2])

/-- The transfer keeps to the limits, if it has more than one part, and is as long as its parts
reach. -/
def Transfer.Kept (options : ClientOptions) (t : Transfer) : Prop :=
  t.length = Extent.furthest t.extents ∧
    (1 < t.parts.length → Limits options t.locator.backend t.extents)

section

variable {options : ClientOptions} {head : ValidatedRequest} {g : Group}
  {members : List ValidatedRequest}

theorem buildTransfer_extents (batch : Nat) (locator : Resolved) {parts : List Part}
    (hg : g.Spans head members) (hm : ∀ m ∈ members, m.Valid)
    (hparts : List.Forall₂ Part.Allocates g.parts parts) :
    (buildTransfer batch locator head g parts).extents = members.map head.extentFrom := by
  rw [hg.parts_eq, List.forall₂_map_left_iff] at hparts
  refine map_eq_map_of_forall₂ hparts ?_
  intro m hmem q hq
  exact Prod.ext (hq.1.trans (part_place hg hm hmem).1) hq.2.1

theorem buildTransfer_kept (batch : Nat) {locator : Resolved} {parts : List Part}
    (hg : g.Spans head members) (htracks : g.Tracks options head members)
    (hm : ∀ m ∈ members, m.Valid) (hl : locator.backend = head.request.locator.backend)
    (hparts : List.Forall₂ Part.Allocates g.parts parts) :
    (buildTransfer batch locator head g parts).Kept options := by
  have hextents := buildTransfer_extents batch locator hg hm hparts
  refine ⟨?_, ?_⟩
  · rw [hextents, htracks.furthest_eq]
    exact (buildTransfer_length batch locator parts hg hm).1
  · intro hlen
    have hlen' : parts.length = members.length := by
      rw [← hparts.length_eq, hg.parts_eq, List.length_map]
    rw [hextents]
    change Limits options locator.backend _
    rw [hl]
    exact htracks.limits (hlen' ▸ hlen)

/-- A request of the same resource that does not join. -/
theorem buildTransfer_parted (batch : Nat) {locator : Resolved} {parts : List Part}
    {c : ValidatedRequest} (hgap : 0 < options.coalesceGap) (hg : g.Spans head members)
    (htracks : g.Tracks options head members) (hm : ∀ m ∈ members, m.Valid)
    (hl : locator.backend = head.request.locator.backend)
    (hparts : List.Forall₂ Part.Allocates g.parts parts) (hc : c.Valid) (hafter : NotAfter head c)
    (hstop : joins options head g c = false) (hsame : sameResource head.request c.request = true) :
    ¬ Limits options locator.backend ((buildTransfer batch locator head g parts).extents ++
        [c.request.extentIn (buildTransfer batch locator head g parts)]) ∨
      2 ^ 64 ≤ Extent.furthest ((buildTransfer batch locator head g parts).extents ++
        [c.request.extentIn (buildTransfer batch locator head g parts)]) := by
  have hextent : c.request.extentIn (buildTransfer batch locator head g parts) =
      head.extentFrom c := by
    rw [Request.extentIn, ← hc.offset_eq]
    rfl
  rw [buildTransfer_extents batch locator hg hm hparts, hextent, hl]
  obtain ⟨hhead, hlast⟩ := hg.lastByte_bounds hm
  have hjoins := joins_iff htracks hc (offset_le_of_notAfter hafter hsame) hhead hlast
    (List.ne_nil_of_mem hg.head_mem) (by rw [hg.parts_eq, List.length_map])
  by_contra hboth
  rw [not_or, not_not, Nat.not_le] at hboth
  exact absurd (hjoins.mpr ⟨hgap, hsame, hboth⟩) (Bool.eq_false_iff.mp hstop)

end

/-- A turn of the outer loop that does not fail. -/
theorem planLoop_cons {malloc : Nat → Nat → Addr} {options : ClientOptions} {batch turns n : Nat}
    {shared : Option Resolved} {head : ValidatedRequest} {rest : List ValidatedRequest}
    (hok : (planLoop malloc options batch (turns + 1) shared n (head :: rest)).1 = .ok) :
    ∃ parts n', allocateParts malloc n (coalesce options head (.start head) rest).1.parts =
        some (parts, n') ∧
      (planLoop malloc options batch turns (some (shareLocator shared head)) n'
        (coalesce options head (.start head) rest).2).1 = .ok ∧
      (planLoop malloc options batch (turns + 1) shared n (head :: rest)).2 =
        buildTransfer batch (shareLocator shared head) head
            (coalesce options head (.start head) rest).1 parts ::
          (planLoop malloc options batch turns (some (shareLocator shared head)) n'
            (coalesce options head (.start head) rest).2).2 := by
  simp only [planLoop] at hok ⊢
  cases halloc : allocateParts malloc n (coalesce options head (.start head) rest).1.parts with
  | none => simp [halloc] at hok
  | some allocated =>
      simp only [halloc] at hok ⊢
      exact ⟨allocated.1, allocated.2, rfl, hok, rfl⟩

/-- The groups that the outer loop makes of the sorted requests. -/
structure Grouped (options : ClientOptions) (sorted : List ValidatedRequest)
    (groups : List (List Request)) (transfers : List Transfer) : Prop where
  flatten_eq : groups.flatten = sorted.map (·.request)
  holds : List.Forall₂ Carried groups transfers
  kept : ∀ t ∈ transfers, t.Kept options
  parted : 0 < options.coalesceGap → (groups.zip transfers).IsChain (Parted options)

theorem Grouped.nil (options : ClientOptions) : Grouped options [] [] [] :=
  ⟨rfl, .nil, by simp, fun _ => .nil⟩

/-- The first request of the first group is the first one. -/
theorem Grouped.head_eq {options : ClientOptions} {sorted : List ValidatedRequest}
    {groups : List (List Request)} {transfers : List Transfer}
    (h : Grouped options sorted groups transfers) :
    ∀ y ∈ (groups.zip transfers).head?, ∀ next ∈ y.1.head?, ∃ c ∈ sorted.head?, c.request = next := by
  intro y hy next hnext
  obtain ⟨hflatten, hholds, -, -⟩ := h
  cases hholds with
  | nil => cases hy
  | cons hfirst _ =>
      cases hy
      rename_i rs t groups' _ _
      obtain ⟨r, rs', rfl⟩ := List.exists_cons_of_ne_nil hfirst.1
      cases hnext
      cases sorted with
      | nil => cases hflatten
      | cons c cs =>
          refine ⟨c, rfl, ?_⟩
          exact ((List.cons.inj hflatten).1).symm

/-- One more group in front. -/
theorem Grouped.cons {options : ClientOptions} {head : ValidatedRequest} {g : Group}
    {taken rest : List ValidatedRequest} {groups : List (List Request)} {transfers : List Transfer}
    {locator : Resolved} {parts : List Part}
    (h : Grouped options rest groups transfers) (batch : Nat) (hg : g.Spans head (head :: taken))
    (htracks : g.Tracks options head (head :: taken)) (hm : ∀ m ∈ head :: taken, m.Valid)
    (hl : locator.backend = head.request.locator.backend ∧
      locator.canonicalUri = head.request.locator.canonicalUri)
    (hparts : List.Forall₂ Part.Allocates g.parts parts) (hv : ∀ c ∈ rest, c.Valid)
    (hafter : ∀ c ∈ rest, NotAfter head c)
    (hstop : ∀ c ∈ rest.head?, joins options head g c = false) :
    Grouped options (head :: taken ++ rest) ((head :: taken).map (·.request) :: groups)
      (buildTransfer batch locator head g parts :: transfers) := by
  refine ⟨?_, .cons ⟨by simp, ?_⟩ h.holds, ?_, ?_⟩
  · rw [List.flatten_cons, h.flatten_eq, List.map_append]
  · rw [List.forall₂_map_left_iff]
    have hallocates := hparts
    rw [hg.parts_eq, List.forall₂_map_left_iff] at hallocates
    refine List.forall₂_iff_zip.mpr ⟨hallocates.length_eq, ?_⟩
    intro m q hmq
    exact buildTransfer_carries batch parts hg hm hl (List.of_mem_zip hmq).1
      (List.forall₂_zip hallocates hmq)
  · intro t ht
    rcases List.mem_cons.mp ht with rfl | ht
    · exact buildTransfer_kept batch hg htracks hm hl.1 hparts
    · exact h.kept t ht
  · intro hgap
    rw [List.zip_cons_cons, List.isChain_cons]
    refine ⟨?_, h.parted hgap⟩
    intro y hy last hlast next hnext hsame
    obtain ⟨c, hc, rfl⟩ := h.head_eq y hy next hnext
    have hmem : c ∈ rest := List.mem_of_mem_head? hc
    -- every member has the head's resource, the last one too
    obtain ⟨m, hmembers, rfl⟩ := List.mem_map.mp (List.mem_of_getLast? hlast)
    obtain ⟨h₁, h₂, h₃⟩ := sameResource_iff.mp (hg.same m hmembers)
    obtain ⟨h₄, h₅, h₆⟩ := sameResource_iff.mp hsame
    exact buildTransfer_parted batch hgap hg htracks hm hl.1 hparts (hv c hmem) (hafter c hmem)
      (hstop c hc) (sameResource_iff.mpr ⟨h₁.trans h₄, h₂.trans h₅, h₃.trans h₆⟩)

theorem planLoop_grouped {malloc : Nat → Nat → Addr} {options : ClientOptions} {batch : Nat}
    (turns : Nat) :
    ∀ (shared : Option Resolved) (n : Nat) (sorted : List ValidatedRequest),
      sorted.length ≤ turns → (∀ v ∈ sorted, v.Valid) → sorted.Pairwise NotAfter →
      (planLoop malloc options batch turns shared n sorted).1 = .ok →
      ∃ groups, Grouped options sorted groups
        (planLoop malloc options batch turns shared n sorted).2 := by
  induction turns with
  | zero =>
      intro shared n sorted hlen _ _ _
      rw [List.length_eq_zero_iff.mp (Nat.le_zero.mp hlen)]
      exact ⟨[], .nil options⟩
  | succ turns ih =>
      intro shared n sorted hlen hv hs hok
      cases sorted with
      | nil => exact ⟨[], .nil options⟩
      | cons head rest =>
          obtain ⟨parts, n', halloc, hok', heq⟩ := planLoop_cons hok
          rw [heq]
          have hhead := hv head List.mem_cons_self
          have hrest := fun c (h : c ∈ rest) => hv c (List.mem_cons_of_mem _ h)
          obtain ⟨hafter, hsrest⟩ := List.pairwise_cons.mp hs
          have hone : ∀ m ∈ [head], m.Valid := by simpa using hhead
          obtain ⟨taken, hsplit, hspans⟩ :=
            coalesce_spec options rest (Group.start_spans hhead) hone hrest hafter
          obtain ⟨htracks, hstop⟩ := coalesce_tracks rest (Group.start_spans hhead)
            (Group.start_tracks options hhead) hone hrest hafter hsplit
          rw [List.singleton_append] at hspans htracks
          have hmem : ∀ c ∈ (coalesce options head (.start head) rest).2, c ∈ rest := by
            intro c hc
            rw [hsplit]
            exact List.mem_append_right _ hc
          have hlen' : (coalesce options head (.start head) rest).2.length ≤ turns := by
            have hle := congrArg List.length hsplit
            rw [List.length_append] at hle
            rw [List.length_cons] at hlen
            omega
          have hsorted : (coalesce options head (.start head) rest).2.Pairwise NotAfter := by
            rw [hsplit] at hsrest
            exact (List.pairwise_append.mp hsrest).2.1
          obtain ⟨groups, hgroups⟩ := ih _ _ _ hlen' (fun c hc => hrest c (hmem c hc)) hsorted hok'
          have hmembers : ∀ m ∈ head :: taken, m.Valid := by
            intro m h
            rcases List.mem_cons.mp h with rfl | h
            · exact hhead
            · refine hrest m ?_
              rw [hsplit]
              exact List.mem_append_left _ h
          refine ⟨(head :: taken).map (·.request) :: groups, ?_⟩
          have hall := hgroups.cons batch hspans htracks hmembers (shareLocator_same shared head)
            (allocateParts_spec _ halloc) (fun c hc => hrest c (hmem c hc))
            (fun c hc => hafter c (hmem c hc)) hstop
          rwa [List.cons_append, ← hsplit] at hall

/-! ## The plan -/

/-- The sorted requests fall into groups, one for each transfer, that keep to the limits; and two
neighbours of one resource are in different groups only where the second one would break a limit. -/
theorem planTransfers_greedy {malloc : Nat → Nat → Addr} {batch : Nat} {requests : List Request}
    {options : ClientOptions} (hok : (planTransfers malloc batch requests options).1 = .ok) :
    ∃ groups : List (List Request),
      groups.flatten = (stableSort (screen requests).2).map (·.request) ∧
      List.Forall₂ Carried groups (planTransfers malloc batch requests options).2.transfers ∧
      (∀ t ∈ (planTransfers malloc batch requests options).2.transfers,
        t.length = Extent.furthest t.extents ∧
          (1 < t.parts.length → Limits options t.locator.backend t.extents)) ∧
      (0 < options.coalesceGap →
        (groups.zip (planTransfers malloc batch requests options).2.transfers).IsChain
          (Parted options)) := by
  obtain ⟨-, -, hvalid, -⟩ := screen_spec requests
  obtain ⟨groups, hgroups⟩ := planLoop_grouped (stableSort (screen requests).2).length none 0 _
    le_rfl (fun v h => hvalid v ((List.perm_insertionSort NotAfter _).mem_iff.mp h))
    (sorted_stableSort _) hok
  exact ⟨groups, hgroups.flatten_eq, hgroups.holds, hgroups.kept, hgroups.parted⟩

/-- A limit that the two overlapping requests break together. -/
theorem planTransfers_greedy_mixed :
    (planTransfers (fun n _ => .heap (100 + n)) 0 mixedRequests
      { coalesceLimit := 60 }).2.transfers.map (·.length) = [50, 40] ∧
    ∃ groups : List (List Request),
      groups.flatten = (stableSort (screen mixedRequests).2).map (·.request) ∧
      List.Forall₂ Carried groups (planTransfers (fun n _ => .heap (100 + n)) 0 mixedRequests
        { coalesceLimit := 60 }).2.transfers ∧
      (∀ t ∈ (planTransfers (fun n _ => .heap (100 + n)) 0 mixedRequests
          { coalesceLimit := 60 }).2.transfers,
        t.length = Extent.furthest t.extents ∧
          (1 < t.parts.length → Limits { coalesceLimit := 60 } t.locator.backend t.extents)) ∧
      (0 < 1048576 → (groups.zip (planTransfers (fun n _ => .heap (100 + n)) 0 mixedRequests
          { coalesceLimit := 60 }).2.transfers).IsChain (Parted { coalesceLimit := 60 })) :=
  ⟨by decide, planTransfers_greedy (by decide)⟩

end Karu
