/-
# `Karu.Runtime.Coalesce` — coalescing changes no result

A world of objects that do not change, and a service that gives access to
them: local files, and servers that honour `Range` and `If-Match`.  Whatever
the planner makes of a list of requests, each of them completes as
`World.expected` says, which asks for nothing but the request and the world.
So it does not matter whether it shared a transfer with others: with
`coalesce_gap = 0`, where every request has a transfer of its own, it completes
the same (`coalesce_transparent`).

The transfers of a plan run one after another here, in any order and over one
memory.  Each writes to the buffers of its own parts only, and these are
disjoint, so what a part finds in its buffer at the end is what its own
transfer left there.
-/
import Karu.Runtime.Served
import Karu.Runtime.PlannerBuffers

namespace Karu

open Base

variable {β : Type}

/-! ## Worlds -/

instance (r : Request) : Decidable r.Leaves := by
  unfold Request.Leaves
  infer_instance

instance (r : Request) : Decidable r.Unsupported := by
  unfold Request.Unsupported
  infer_instance

/-- Objects that do not change: the bytes of each, and the preconditions that hold of it.
An object is what the planner takes for one, a backend and a canonical URI. -/
structure World (β : Type) where
  object : Backend → Text → List β
  holds : Backend → Text → Text → Bool

/-- No precondition always holds. -/
def World.met (w : World β) (backend : Backend) (uri ifMatch : Text) : Bool :=
  ifMatch.isEmpty || w.holds backend uri ifMatch

/-- What a request comes to by itself. -/
def World.expected (w : World β) (r : Request) : Status × Nat × List β :=
  if r.Unsupported then (.errUnsupported, 0, [])
  else if r.Leaves then (.errRange, 0, [])
  else
    conditionalOutcome (w.object r.locator.backend r.locator.canonicalUri)
      (w.met r.locator.backend r.locator.canonicalUri r.ifMatch)
      (r.locator.windowOffset + r.offset) r.length

/-- What a part of a transfer comes to. -/
def World.partExpected (w : World β) (t : Transfer) (p : Part) : Status × Nat × List β :=
  conditionalOutcome (w.object t.locator.backend t.locator.canonicalUri)
    (w.met t.locator.backend t.locator.canonicalUri t.ifMatch)
    (t.offset + p.relativeOffset) p.length

/-- The part that carries a request comes to what the request does. -/
theorem Carries.expected {r : Request} {t : Transfer} {p : Part} (h : Carries r t p)
    (w : World β) : w.partExpected t p = w.expected r := by
  rw [World.expected, if_neg h.supported, if_neg h.stays, World.partExpected, h.backend_eq,
    h.uri_eq, h.ifMatch_eq, h.position, h.length_eq]

/-- So does an immediate completion. -/
theorem Refuses.expected {r : Request} {c : Completion} (h : Refuses r c) (w : World β)
    (m : Memory Addr β) : c.seen m = w.expected r := by
  obtain ⟨-, -, hgot, hstatus⟩ := h
  rw [World.expected]
  rcases hstatus with ⟨hs, hu⟩ | ⟨hs, hu, hl⟩
  · rw [if_pos hu, Completion.seen, hs, hgot]
    rfl
  · rw [if_neg hu, if_pos hl, Completion.seen, hs, hgot]
    rfl

/-! ## Services -/

/-- How the objects are reached: what the servers answer to the attempts of a transfer, and
the files that paths open. -/
structure Service (β : Type) where
  curl : Libcurl
  attempts : Transfer → List (Attempt β)
  opens : Text → Except Text (OpenFile β)

/-- The service gives a transfer access to its object.  A server is asked a second time where
its refusal names an S3 region. -/
structure Service.Serves (service : Service β) (w : World β) (t : Transfer) : Prop where
  files : t.locator.backend = .file → ∃ file, service.opens t.locator.target = .ok file ∧
    file.Honest (w.object t.locator.backend t.locator.canonicalUri)
  servers : t.locator.backend ≠ .file → 2 ≤ (service.attempts t).length ∧
    ∀ a ∈ service.attempts t,
      a.Honours service.curl (w.object t.locator.backend t.locator.canonicalUri)
        (w.met t.locator.backend t.locator.canonicalUri t.ifMatch) t

variable [Octet β]

/-- A transfer from its start to its verdict. -/
def Service.perform (service : Service β) (options : ClientOptions) (t : Transfer)
    (m : Memory Addr β) : Outcome β :=
  if t.locator.backend = .file then fileTransfer true (service.opens t.locator.target) ⟨t, m, []⟩
  else run service.curl options (service.attempts t) ⟨t, m, []⟩

/-- Transfers one after another: their completions, and the memory they leave. -/
def Service.execute (service : Service β) (options : ClientOptions) :
    List Transfer → Memory Addr β → List Completion × Memory Addr β
  | [], m => ([], m)
  | t :: ts, m =>
      match service.perform options t m with
      | .again s => service.execute options ts s.memory
      | .finish status detail s =>
          let (done, m) := deliver s.transfer status detail s.memory
          let (rest, m) := service.execute options ts m
          (done ++ rest, m)

/-- A planned transfer, as its service needs it. -/
structure Transfer.Sound (t : Transfer) : Prop where
  layout : t.Layout
  distinct : t.parts.Pairwise Part.Apart
  outside : ∀ p ∈ t.parts, p.buffer ≠ .scratch
  allocated : ∀ p ∈ t.parts, p.buffer ≠ .null
  blank : t.Blank
  reachable : t.locator.backend = .file → t.ifMatch = [] ∧ t.offset + t.length ≤ 2 ^ 63

/-- A served transfer settles, and writes to its own buffers only. -/
theorem perform_settles {service : Service β} {w : World β} {t : Transfer}
    (hserves : service.Serves w t) (ht : t.Sound) (options : ClientOptions) (m : Memory Addr β) :
    Settles (w.object t.locator.backend t.locator.canonicalUri)
        (w.met t.locator.backend t.locator.canonicalUri t.ifMatch) t
        (service.perform options t m) ∧
      ∀ a ≠ .null, a ≠ .scratch → (∀ p ∈ t.parts, p.buffer ≠ a) → ∀ i,
        (service.perform options t m).live.memory.cell a i = m.cell a i := by
  have hb := ht.blank
  by_cases hfile : t.locator.backend = .file
  · obtain ⟨file, hopen, hhonest⟩ := hserves.files hfile
    obtain ⟨hmatch, hstop⟩ := ht.reachable hfile
    have hlocal : t.Local := ⟨ht.layout, ht.distinct, ht.outside, hfile, hb.sink_eq, hb.scratch_eq,
      hb.received_eq⟩
    obtain ⟨s, hfinish, hloaded, hframe⟩ := fileTransfer_loaded hhonest hlocal hstop m
    have hperform : service.perform options t m = .finish .ok [] s := by
      rw [Service.perform, if_pos hfile, hopen, hfinish]
    have hmet : w.met t.locator.backend t.locator.canonicalUri t.ifMatch = true := by
      rw [hmatch]
      rfl
    rw [hperform, hmet]
    exact ⟨hloaded.settles ht.layout [], fun a _ hscratch ha i => hframe a hscratch ha i⟩
  · obtain ⟨hlen, hhonours⟩ := hserves.servers hfile
    have hfresh : t.Fresh := ⟨ht.layout, ht.distinct, hfile, hb.sink_eq, hb.scratch_eq,
      hb.resumed_eq, hb.received_eq, hb.resumeEtag_eq⟩
    rw [Service.perform, if_neg hfile]
    refine ⟨run_settles service.curl options hfresh m hlen hhonours, fun a hnull _ ha i => ?_⟩
    exact run_frame service.curl options hnull ha _ ⟨rfl, Or.inl hb.sink_eq, hfile⟩ i

/-! ## Executions -/

/-- A completion of a part: its tag and buffer, and what it comes to. -/
structure Completes (w : World β) (m : Memory Addr β) (tp : Transfer × Part) (c : Completion) :
    Prop where
  tag_eq : c.tag = tp.2.tag
  buffer_eq : c.buffer = tp.2.buffer
  seen_eq : c.seen m = w.partExpected tp.1 tp.2

/-- What a result of a plan completes as: itself, or as its part does. -/
def Yields (w : World β) (m : Memory Addr β) : Completion ⊕ Transfer × Part → Completion → Prop
  | .inl immediate, c => immediate = c
  | .inr tp, c => Completes w m tp c

/-- Over any list of served transfers whose parts have buffers of their own: every part
completes, and no other buffer is touched. -/
theorem execute_completes (service : Service β) (w : World β) (options : ClientOptions) :
    ∀ (ts : List Transfer) (m : Memory Addr β), (∀ t ∈ ts, service.Serves w t ∧ t.Sound) →
      (ts.flatMap (·.parts)).Pairwise Part.Apart →
      List.Forall₂ (Completes w (service.execute options ts m).2)
          (ts.flatMap fun t => t.parts.map fun p => (t, p)) (service.execute options ts m).1 ∧
        ∀ a ≠ .null, a ≠ .scratch → (∀ t ∈ ts, ∀ p ∈ t.parts, p.buffer ≠ a) → ∀ i,
          (service.execute options ts m).2.cell a i = m.cell a i
  | [], m, _, _ => ⟨.nil, fun _ _ _ _ _ => rfl⟩
  | t :: ts, m, hts, hapart => by
      obtain ⟨hserves, hsound⟩ := hts t List.mem_cons_self
      obtain ⟨⟨status, detail, s, hfinish, hparts, hseen⟩, hframe⟩ :=
        perform_settles hserves hsound options m
      rw [List.flatMap_cons, List.pairwise_append] at hapart
      obtain ⟨hrest, hrestframe⟩ := execute_completes service w options ts
        (deliver s.transfer status detail s.memory).2
        (fun u hu => hts u (List.mem_cons_of_mem _ hu)) hapart.2.1
      have hexecute : service.execute options (t :: ts) m =
          ((deliver s.transfer status detail s.memory).1 ++
              (service.execute options ts (deliver s.transfer status detail s.memory).2).1,
            (service.execute options ts (deliver s.transfer status detail s.memory).2).2) := by
        simp only [Service.execute, hfinish]
      rw [hfinish] at hframe
      rw [hexecute]
      refine ⟨?_, fun a hnull hscratch ha i => ?_⟩
      · rw [List.flatMap_cons]
        refine List.rel_append ?_ hrest
        show List.Forall₂ _ _ (s.transfer.parts.map _)
        rw [hparts, List.forall₂_map_left_iff, List.forall₂_map_right_iff, List.forall₂_same]
        intro p hp
        have hbuffer := deliverPart_buffer s.transfer status detail p
        refine ⟨deliverPart_tag s.transfer status detail p, hbuffer, ?_⟩
        rw [World.partExpected, ← hseen p hp, Completion.seen, Completion.seen, hbuffer]
        -- the later transfers leave the part's buffer as it is
        rw [Memory.read_congr fun i => hrestframe p.buffer (hsound.allocated p hp)
          (hsound.outside p hp) (fun u hu q hq => ?_) i]
        exact (hapart.2.2 p hp q (List.mem_flatMap.mpr ⟨u, hu, hq⟩)).symm
      · rw [hrestframe a hnull hscratch (fun u hu => ha u (List.mem_cons_of_mem _ hu)),
          deliver_frame _ _ _ _ (by rw [hparts]; exact ha t List.mem_cons_self)]
        exact hframe a hnull hscratch (ha t List.mem_cons_self) i

/-- Where the local files end that the requests reach into: `off_t` has a sign. -/
def Request.WithinFiles (requests : List Request) : Prop :=
  ∀ r ∈ requests, r.locator.backend = .file →
    r.locator.windowOffset + r.offset + r.length ≤ 2 ^ 63

instance (requests : List Request) : Decidable (Request.WithinFiles requests) :=
  inferInstanceAs (Decidable (∀ r ∈ requests, _ → _))

/-- Every part of a plan carries one of the requests. -/
theorem planTransfers_carries {malloc : Nat → Nat → Addr} {batch : Nat} {requests : List Request}
    {options : ClientOptions} (hok : (planTransfers malloc batch requests options).1 = .ok)
    {t : Transfer} (ht : t ∈ (planTransfers malloc batch requests options).2.transfers) {p : Part}
    (hp : p ∈ t.parts) : ∃ r ∈ requests, Carries r t p := by
  obtain ⟨ordered, hperm, hanswers⟩ := planTransfers_cover hok
  have hmem : Sum.inr (t, p) ∈ (planTransfers malloc batch requests options).2.results :=
    List.mem_append_right _ (List.mem_map_of_mem
      (List.mem_flatMap.mpr ⟨t, ht, List.mem_map_of_mem hp⟩))
  obtain ⟨r, hr, hcarries⟩ := exists_left_of_mem hanswers hmem
  exact ⟨r, hperm.mem_iff.mp hr, hcarries⟩

theorem planTransfers_sound {malloc : Nat → Nat → Addr} {batch : Nat} {requests : List Request}
    {options : ClientOptions} (hd : Destinations malloc requests)
    (hfiles : Request.WithinFiles requests)
    (hok : (planTransfers malloc batch requests options).1 = .ok) :
    ∀ t ∈ (planTransfers malloc batch requests options).2.transfers, t.Sound := by
  obtain ⟨hblank, hapart, hscratch⟩ := planTransfers_apart hd batch options
  intro t ht
  have hlayout := (planLoop_sorted hok).2 t ht
  refine ⟨hlayout, ?_, hscratch t ht, fun p hp => ?_, hblank t ht, fun hfile => ?_⟩
  · exact (List.pairwise_flatMap.mp hapart).1 t ht
  · obtain ⟨r, -, hc⟩ := planTransfers_carries hok ht hp
    exact hc.allocated
  · -- the furthest part ends where its request does
    obtain ⟨p, hp, hstop⟩ := hlayout.longest
    obtain ⟨r, hr, hc⟩ := planTransfers_carries hok ht hp
    have hbackend : r.locator.backend = .file := hc.backend_eq.symm.trans hfile
    have hwithin := hfiles r hr hbackend
    refine ⟨?_, ?_⟩
    · rw [hc.ifMatch_eq]
      by_contra hne
      exact hc.supported ⟨hbackend, hne⟩
    · have := hc.position
      have := hc.length_eq
      omega

/-! ## Transparency -/

/-- A plan of some requests, carried out over a world. -/
structure Execution (w : World β) (requests : List Request) (options : ClientOptions) where
  malloc : Nat → Nat → Addr
  batch : Nat
  service : Service β
  order : List Transfer
  memory : Memory Addr β
  destinations : Destinations malloc requests
  planned : (planTransfers malloc batch requests options).1 = .ok
  ordered : order.Perm (planTransfers malloc batch requests options).2.transfers
  served : ∀ t ∈ order, service.Serves w t

section Execution

variable {w : World β} {requests : List Request} {options : ClientOptions}

/-- All the completions of the batch. -/
def Execution.completions (e : Execution w requests options) : List Completion :=
  (planTransfers e.malloc e.batch requests options).2.immediate ++
    (e.service.execute options e.order e.memory).1

/-- The memory when the last transfer is done. -/
def Execution.final (e : Execution w requests options) : Memory Addr β :=
  (e.service.execute options e.order e.memory).2

/-- A completion answers a request: its tag, its buffer where it brought one, and what it
comes to by itself. -/
structure Fulfils (w : World β) (m : Memory Addr β) (r : Request) (c : Completion) : Prop where
  tag_eq : c.tag = r.tag
  buffer_eq : r.buffer ≠ .null → c.buffer = r.buffer
  seen_eq : c.seen m = w.expected r

/-- Requests and completions are in bijection, each completion the one expected. -/
theorem Execution.fulfils (hfiles : Request.WithinFiles requests)
    (e : Execution w requests options) :
    ∃ inOrder : List Request, inOrder.Perm requests ∧
      List.Forall₂ (Fulfils w e.final) inOrder e.completions := by
  obtain ⟨inOrder, hperm, hanswers⟩ := planTransfers_cover e.planned
  have hsound := planTransfers_sound e.destinations hfiles e.planned
  obtain ⟨-, hapart, -⟩ := planTransfers_apart e.destinations e.batch options
  obtain ⟨hdone, -⟩ := execute_completes e.service w options e.order e.memory
    (fun t ht => ⟨e.served t ht, hsound t (e.ordered.mem_iff.mp ht)⟩)
    (hapart.perm (e.ordered.symm.flatMap_right _) fun h => h.symm)
  -- the results of the plan, its transfers in the order they were carried out
  have hresults : (planTransfers e.malloc e.batch requests options).2.results.Perm
      ((planTransfers e.malloc e.batch requests options).2.immediate.map .inl ++
        (e.order.flatMap fun t => t.parts.map fun p => (t, p)).map .inr) :=
    ((e.ordered.symm.flatMap_right _).map _).append_left _
  have hmoved : Relation.Comp (List.Forall₂ Answers) List.Perm inOrder _ :=
    ⟨_, hanswers, hresults⟩
  rw [List.forall₂_comp_perm_eq_perm_comp_forall₂] at hmoved
  obtain ⟨moved, hmoved, hanswers⟩ := hmoved
  refine ⟨moved, hmoved.symm.trans hperm, ?_⟩
  have hcompletes : List.Forall₂ (Yields w e.final)
      ((planTransfers e.malloc e.batch requests options).2.immediate.map .inl ++
        (e.order.flatMap fun t => t.parts.map fun p => (t, p)).map .inr) e.completions := by
    refine List.rel_append ?_ ?_
    · rw [List.forall₂_map_left_iff, List.forall₂_same]
      exact fun _ _ => rfl
    · rw [List.forall₂_map_left_iff]
      exact hdone
  refine forall₂_comp (fun r result c hanswer hresult => ?_) hanswers hcompletes
  cases result with
  | inl immediate =>
      have hsame : immediate = c := hresult
      have hrefuses : Refuses r immediate := hanswer
      subst hsame
      exact ⟨hrefuses.1, fun _ => hrefuses.2.1, hrefuses.expected w e.final⟩
  | inr tp =>
      have hcarries : Carries r tp.1 tp.2 := hanswer
      have hresult : Completes w e.final tp c := hresult
      exact ⟨hresult.tag_eq.trans hcarries.tag_eq,
        fun hown => hresult.buffer_eq.trans (hcarries.buffer_eq hown),
        hresult.seen_eq.trans (hcarries.expected w)⟩

end Execution

/-- The options with `coalesce_gap = 0`. -/
def ClientOptions.uncoalesced (options : ClientOptions) : ClientOptions :=
  { options with coalesceGap := 0, coalesceGap_lt := by decide }

/-- Coalescing is transparent.  Over objects that do not change, reached through local files
or servers that honour their requests, each request completes as `World.expected` says,
with the options as they are and with `coalesce_gap = 0`: so the completions of the two are
the same, tag by tag, status, count and bytes. -/
theorem coalesce_transparent {w : World β} {requests : List Request} {options : ClientOptions}
    (hfiles : Request.WithinFiles requests) (e : Execution w requests options)
    (e₀ : Execution w requests options.uncoalesced) :
    (∃ inOrder : List Request, inOrder.Perm requests ∧
      List.Forall₂ (Fulfils w e.final) inOrder e.completions) ∧
    (∃ inOrder : List Request, inOrder.Perm requests ∧
      List.Forall₂ (Fulfils w e₀.final) inOrder e₀.completions) ∧
    (e.completions.map fun c => (c.tag, c.seen e.final)).Perm
      (e₀.completions.map fun c => (c.tag, c.seen e₀.final)) := by
  have hsame : ∀ {options' : ClientOptions} (e : Execution w requests options'),
      (e.completions.map fun c => (c.tag, c.seen e.final)).Perm
        (requests.map fun r => (r.tag, w.expected r)) := by
    intro options' e
    obtain ⟨inOrder, hperm, hfulfils⟩ := e.fulfils hfiles
    have heach : (e.completions.map fun c => (c.tag, c.seen e.final)) =
        inOrder.map fun r => (r.tag, w.expected r) :=
      map_eq_map_of_forall₂ hfulfils fun r _ c h => by rw [h.tag_eq, h.seen_eq]
    rw [heach]
    exact hperm.map _
  exact ⟨e.fulfils hfiles, e₀.fulfils hfiles, (hsame e).trans (hsame e₀).symm⟩

/-- A world in which every object has the same four bytes. -/
def fourBytes : World UInt8 where
  object := fun _ _ => [10, 11, 12, 13]
  holds := fun _ _ _ => true

/-- Three reads of one object, the second and the third past its end, and one of a file. -/
def fourReads : List Request :=
  let object : Resolved := { backend := .s3, canonicalUri := text "/vsis3/b/k" }
  let file : Resolved := { canonicalUri := text "file:///f", target := text "/f" }
  [{ locator := object, offset := 6, length := 3, tag := 1 },
   { locator := object, offset := 1, length := 2, buffer := .heap 1, tag := 2 },
   { locator := object, offset := 2, length := 5, buffer := .heap 2, tag := 3 },
   { locator := file, offset := 1, length := 9, buffer := .heap 3, tag := 4 }]

/-- The answer to a range of the object. -/
def fourBytesAnswer : Nat × Nat → Response UInt8
  | (1, 8) => { code := 206, statusLine := text "HTTP/1.1 206 Partial Content\r\n",
                fields := [text "Content-Range: bytes 1-3/4\r\n"], chunks := [[11], [12, 13]] }
  | (1, 2) => { code := 206, statusLine := text "HTTP/1.1 206 Partial Content\r\n",
                fields := [text "Content-Range: bytes 1-2/4\r\n"], chunks := [[11, 12]] }
  | (2, 5) => { code := 206, statusLine := text "HTTP/1.1 206 Partial Content\r\n",
                fields := [text "Content-Range: bytes 2-3/4\r\n"], chunks := [[12, 13]] }
  | _ => { code := 416, statusLine := text "HTTP/1.1 416 Range Not Satisfiable\r\n",
           chunks := [[60, 69]] }

/-- A file of the four bytes that is read two bytes at a time. -/
def fourBytesFile : OpenFile UInt8 where
  pread := fun n offset => .ok (([10, 11, 12, 13].drop offset).take (min n 2))
  valueTooLarge := text "Value too large for defined data type"

def fourBytesService : Service UInt8 where
  curl := .uncalled
  attempts := fun t =>
    let a : Attempt UInt8 := { responses := [fourBytesAnswer (t.offset, t.length)] }
    [a, a]
  opens := fun _ => .ok fourBytesFile

theorem fourBytesFile_honest : fourBytesFile.Honest [10, 11, 12, 13] := by
  intro n offset
  refine ⟨_, rfl, ?_, List.take_prefix _ _, fun hnone => ?_⟩
  · rw [List.length_take]
    omega
  · rw [List.take_eq_nil_iff, List.drop_eq_nil_iff] at hnone
    omega

/-- The answer in range to an unconditional request, at known numbers. -/
theorem honours_at {object : List UInt8} {r : Response UInt8} {t : Transfer} {o n : Nat}
    (ho : t.offset = o) (hn : t.length = n) (hmatch : t.ifMatch = []) (value : Text)
    (c : ContentRange)
    (h : o < object.length ∧ r.code = 206 ∧ contentRanges r.fields = [value] ∧
      contentRange value = some c ∧ c.first = o ∧ c.last + 1 = min (o + n) object.length ∧
      (object.length < o + n → c.total = some object.length) ∧
      r.body = (object.drop o).take n ∧ Detail.transformed (encodingOf r.fields) = false) :
    r.Honours object true t := by
  subst ho hn
  obtain ⟨hin, hcode, hvalue, hc, hfirst, hlast, htotal, hbody, htransformed⟩ := h
  refine .ranged rfl hin hcode hvalue hc hfirst hlast htotal hbody htransformed fun hstrong => ?_
  rw [hmatch] at hstrong
  cases hstrong

theorem fourBytesAnswer_honours {t : Transfer} (hmatch : t.ifMatch = [])
    (ht : (t.offset, t.length) ∈ [(1, 8), (1, 2), (2, 5), (6, 3)]) :
    (fourBytesAnswer (t.offset, t.length)).Plain ∧
      (fourBytesAnswer (t.offset, t.length)).Honours [10, 11, 12, 13] true t := by
  have hplain : ∀ x ∈ [(1, 8), (1, 2), (2, 5), (6, 3)],
      responseStatus (fourBytesAnswer x).statusLine = (fourBytesAnswer x).code := by decide
  refine ⟨Or.inr (hplain _ ht), ?_⟩
  simp only [List.mem_cons, Prod.mk.injEq, List.not_mem_nil, or_false] at ht
  rcases ht with ⟨ho, hn⟩ | ⟨ho, hn⟩ | ⟨ho, hn⟩ | ⟨ho, hn⟩
  · rw [ho, hn]
    exact honours_at ho hn hmatch (text "bytes 1-3/4") ⟨1, 3, some 4⟩ (by decide)
  · rw [ho, hn]
    exact honours_at ho hn hmatch (text "bytes 1-2/4") ⟨1, 2, some 4⟩ (by decide)
  · rw [ho, hn]
    exact honours_at ho hn hmatch (text "bytes 2-3/4") ⟨2, 3, some 4⟩ (by decide)
  · rw [ho, hn]
    exact .unsatisfiable rfl (by rw [ho]; decide) rfl

theorem fourBytesService_serves {t : Transfer} (hmatch : t.ifMatch = [])
    (ht : t.locator.backend ≠ .file → (t.offset, t.length) ∈ [(1, 8), (1, 2), (2, 5), (6, 3)]) :
    fourBytesService.Serves fourBytes t := by
  refine ⟨fun _ => ⟨fourBytesFile, rfl, fourBytesFile_honest⟩, fun hremote => ⟨le_rfl, ?_⟩⟩
  obtain ⟨hplain, hhonours⟩ := fourBytesAnswer_honours hmatch (ht hremote)
  have hmet : fourBytes.met t.locator.backend t.locator.canonicalUri t.ifMatch = true := by
    rw [hmatch]
    rfl
  intro a ha
  have ha : a = { responses := [fourBytesAnswer (t.offset, t.length)] } := by
    simpa [fourBytesService] using ha
  subst ha
  rw [hmet]
  exact ⟨⟨[], _, rfl, by simp, hplain, hhonours⟩, rfl, rfl⟩

/-- The plan of the reads, carried out in order. -/
def fourReadsExecution (options : ClientOptions)
    (h : (planTransfers (fun n _ => .heap (100 + n)) 0 fourReads options).1 = .ok ∧
      ∀ t ∈ (planTransfers (fun n _ => .heap (100 + n)) 0 fourReads options).2.transfers,
        t.ifMatch = [] ∧ (t.locator.backend ≠ .file →
          (t.offset, t.length) ∈ [(1, 8), (1, 2), (2, 5), (6, 3)])) :
    Execution fourBytes fourReads options where
  malloc := fun n _ => .heap (100 + n)
  batch := 0
  service := fourBytesService
  order := (planTransfers (fun n _ => .heap (100 + n)) 0 fourReads options).2.transfers
  memory := ⟨fun _ _ => 0, []⟩
  destinations := by
    refine ⟨by decide, by decide, ?_, fun n n' _ _ h _ => by simpa using h, fun _ _ => by simp⟩
    intro n size r hr _
    simp only [fourReads, List.mem_cons, List.not_mem_nil, or_false] at hr
    rcases hr with rfl | rfl | rfl | rfl <;> simp <;> omega
  planned := h.1
  ordered := .refl _
  served := fun t ht => fourBytesService_serves (h.2 t ht).1 (h.2 t ht).2

theorem coalesce_transparent_past_end :
    (fourReadsExecution {} (by decide)).order.length = 2 ∧
    (fourReadsExecution ({} : ClientOptions).uncoalesced (by decide)).order.length = 4 ∧
    (fourReads.map fun r => fourBytes.expected r) =
      [(.errRange, 0, []), (.ok, 2, [11, 12]), (.errRange, 2, [12, 13]),
        (.errRange, 3, [11, 12, 13])] ∧
    (((fourReadsExecution {} (by decide)).completions.map fun c =>
        (c.tag, c.seen (fourReadsExecution {} (by decide)).final)).Perm
      ((fourReadsExecution ({} : ClientOptions).uncoalesced (by decide)).completions.map fun c =>
        (c.tag, c.seen (fourReadsExecution ({} : ClientOptions).uncoalesced (by decide)).final))) :=
  ⟨by decide, by decide, by decide,
    (coalesce_transparent (by decide) _ _).2.2⟩

/-! A server that leaves the object's size out of its `Content-Range`. -/

/-- The bytes there are of the range, under a header that names them. -/
structure Response.HonoursRange (object : List β) (t : Transfer) (r : Response β) : Prop where
  code_eq : r.code = 206
  ranged : ∃ value c, contentRanges r.fields = [value] ∧ contentRange value = some c ∧
    c.first = t.offset ∧ c.last + 1 = min (t.offset + t.length) object.length
  body_eq : r.body = (object.drop t.offset).take t.length

/-- A read inside the object, and one past its end. -/
def starredReads : List Request :=
  let object : Resolved := { backend := .s3, canonicalUri := text "/vsis3/b/k" }
  [{ locator := object, offset := 1, length := 2, buffer := .heap 1, tag := 1 },
   { locator := object, offset := 2, length := 5, buffer := .heap 2, tag := 2 }]

/-- The answer to a range of the object. -/
def starredAnswer : Nat × Nat → Response UInt8
  | (1, 2) => { code := 206, statusLine := text "HTTP/1.1 206 Partial Content\r\n",
                fields := [text "Content-Range: bytes 1-2/*\r\n"], chunks := [[11, 12]] }
  | (2, 5) => { code := 206, statusLine := text "HTTP/1.1 206 Partial Content\r\n",
                fields := [text "Content-Range: bytes 2-3/*\r\n"], chunks := [[12, 13]] }
  | _ => { code := 206, statusLine := text "HTTP/1.1 206 Partial Content\r\n",
           fields := [text "Content-Range: bytes 1-3/*\r\n"], chunks := [[11, 12, 13]] }

def starredService : Service UInt8 where
  curl := .uncalled
  attempts := fun t =>
    let a : Attempt UInt8 := { responses := [starredAnswer (t.offset, t.length)] }
    [a, a]
  opens := fun _ => .ok fourBytesFile

/-- The transfers that the reads are planned as. -/
def starredPlan (options : ClientOptions) : List Transfer :=
  (planTransfers (fun n _ => .heap (100 + n)) 0 starredReads options).2.transfers

/-- What they come to, by their tags. -/
def starredResults (options : ClientOptions) : List (Nat × Status × Nat × List UInt8) :=
  let (done, m) := starredService.execute options (starredPlan options) ⟨fun _ _ => 0, []⟩
  done.map fun c => (c.tag, c.seen m)

theorem starredAnswer_honours {t : Transfer} (h : (t.offset, t.length) ∈ [(1, 2), (2, 5), (1, 6)]) :
    (starredAnswer (t.offset, t.length)).HonoursRange [10, 11, 12, 13] t := by
  simp only [List.mem_cons, Prod.mk.injEq, List.not_mem_nil, or_false] at h
  rcases h with ⟨ho, hn⟩ | ⟨ho, hn⟩ | ⟨ho, hn⟩
  · rw [ho, hn]
    refine ⟨rfl, ⟨text "bytes 1-2/*", ⟨1, 2, none⟩, by decide, by decide, ?_, ?_⟩, ?_⟩
    · rw [ho]
    · rw [ho, hn]
      rfl
    · rw [ho, hn]
      rfl
  · rw [ho, hn]
    refine ⟨rfl, ⟨text "bytes 2-3/*", ⟨2, 3, none⟩, by decide, by decide, ?_, ?_⟩, ?_⟩
    · rw [ho]
    · rw [ho, hn]
      rfl
    · rw [ho, hn]
      rfl
  · rw [ho, hn]
    refine ⟨rfl, ⟨text "bytes 1-3/*", ⟨1, 3, none⟩, by decide, by decide, ?_, ?_⟩, ?_⟩
    · rw [ho]
    · rw [ho, hn]
      rfl
    · rw [ho, hn]
      rfl

/-- The read inside the object is served alone, and fails together with the other. -/
theorem starredReads_differ :
    (∀ t ∈ starredPlan {} ++ starredPlan ({} : ClientOptions).uncoalesced,
      (starredAnswer (t.offset, t.length)).HonoursRange [10, 11, 12, 13] t) ∧
    starredResults {} = [(1, .errHttp, 0, []), (2, .errHttp, 0, [])] ∧
    starredResults ({} : ClientOptions).uncoalesced =
      [(1, .ok, 2, [11, 12]), (2, .errHttp, 0, [])] := by
  have hplanned : ∀ t ∈ starredPlan {} ++ starredPlan ({} : ClientOptions).uncoalesced,
      (t.offset, t.length) ∈ [(1, 2), (2, 5), (1, 6)] := by decide
  exact ⟨fun t ht => starredAnswer_honours (hplanned t ht), by decide, by decide⟩

end Karu
