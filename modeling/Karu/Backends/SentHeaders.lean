/-
# `Karu.Backends.SentHeaders` — the headers a request is sent with

A text of configured headers is a list of lines, and every line that is not
blank is a name, a colon and a value.  What is sent is what the backend has
generated, and behind it every such header with its own name and value: no name
twice, none that is the client's own, and no octet that ends a line.  A text
that would have it otherwise is refused.
-/
import Mathlib.Data.List.Nodup
import Mathlib.Data.List.TakeWhile
import Karu.Backends.Headers

namespace Karu

open Base

namespace Backends

/-! ## Trimming -/

theorem mem_of_mem_trim {c : UInt8} {s : Text} (h : c ∈ trim s) : c ∈ s := by
  have hback : c ∈ (s.dropWhile isSpace).reverse :=
    (List.dropWhile_sublist _).subset (List.mem_reverse.mp h)
  exact (List.dropWhile_sublist _).subset (List.mem_reverse.mp hback)

/-- What is not white space stays. -/
theorem mem_trim_of_head {c : UInt8} {cs : Text} (h : isSpace c = false) : c ∈ trim (c :: cs) := by
  have hhead : (c :: cs).dropWhile isSpace = c :: cs := by
    rw [List.dropWhile_cons, h]
    rfl
  rw [trim, hhead, List.mem_reverse, List.reverse_cons]
  induction cs.reverse with
  | nil => simp [h]
  | cons x xs ih =>
      rw [List.cons_append, List.dropWhile_cons]
      split
      · exact ih
      · exact List.mem_cons_of_mem x (List.mem_append_right _ List.mem_cons_self)

/-- What is left begins with something. -/
theorem trim_head {s : Text} {c : UInt8} {cs : Text} (h : trim s = c :: cs) : isSpace c = false := by
  have hfront : c :: cs <+: s.dropWhile isSpace := by
    rw [← h, trim, ← List.reverse_suffix, List.reverse_reverse]
    exact List.dropWhile_suffix _
  cases hs : s.dropWhile isSpace with
  | nil =>
      rw [hs] at hfront
      exact absurd (List.prefix_nil.mp hfront) (List.cons_ne_nil c cs)
  | cons d ds =>
      rw [hs, List.cons_prefix_cons] at hfront
      obtain ⟨rfl, -⟩ := hfront
      have := List.head?_dropWhile_not isSpace s
      rw [hs] at this
      simpa using this

/-! ## Lines -/

/-- The lines that are not blank, without the white space around them. -/
def headerLines (value : Text) : List Text :=
  ((value.splitOnP isLineEnd).map trim).filter (!·.isEmpty)

/-- The name and the value on a line, if there is a colon with a name before it. -/
def lineHeader (line : Text) : Option Header :=
  let name := line.takeWhile (· != 58)
  if name.isEmpty || !line.contains 58 then none
  else some (trim name, trim (line.drop (name.length + 1)))

theorem headerLines_cons_end {c : UInt8} (h : isLineEnd c = true) (rest : Text) :
    headerLines (c :: rest) = headerLines rest := by
  have hsplit : (c :: rest).splitOnP isLineEnd = [] :: rest.splitOnP isLineEnd := by
    simpa using List.splitOnP_append_cons [] rest h
  rw [headerLines, hsplit]
  rfl

theorem headerLines_dropWhile (rest : Text) :
    headerLines (rest.dropWhile isLineEnd) = headerLines rest := by
  induction rest with
  | nil => rfl
  | cons c rest ih =>
      rw [List.dropWhile_cons]
      split
      · rename_i hc
        rw [ih, headerLines_cons_end hc]
      · rfl

/-- One turn of the loop takes one line off. -/
theorem headerLines_cut (rest : Text) :
    headerLines rest =
      [trim (rest.takeWhile (!isLineEnd ·))].filter (!·.isEmpty) ++
        headerLines ((rest.dropWhile (!isLineEnd ·)).dropWhile isLineEnd) := by
  have hline : ∀ c ∈ rest.takeWhile (!isLineEnd ·), isLineEnd c = false := by
    intro c hc
    simpa using List.mem_takeWhile_imp hc
  have hcut := List.takeWhile_append_dropWhile (p := (!isLineEnd ·)) (l := rest)
  rw [headerLines_dropWhile]
  cases hbehind : rest.dropWhile (!isLineEnd ·) with
  | nil =>
      rw [hbehind, List.append_nil] at hcut
      conv_lhs => rw [← hcut, headerLines, List.splitOnP_eq_singleton hline]
      rw [show headerLines [] = [] from rfl, List.append_nil]
      rfl
  | cons e more =>
      have he : isLineEnd e = true := by
        have := List.head?_dropWhile_not (!isLineEnd ·) rest
        rw [hbehind] at this
        simpa using this
      rw [hbehind] at hcut
      conv_lhs => rw [← hcut, headerLines,
        List.splitOnP_append_cons_of_forall_mem hline e he more]
      rw [headerLines_cons_end he, List.map_cons, List.filter_cons, List.filter_cons]
      split <;> rfl

/-- The loop stops behind the first line it cannot read. -/
def untilMalformed : List ConfiguredHeader → List ConfiguredHeader
  | [] => []
  | header :: rest => if header.malformed then [header] else header :: untilMalformed rest

theorem parseHeaderLines_eq : ∀ (turns : Nat) (rest : Text), rest.length ≤ turns →
    parseHeaderLines turns rest =
      untilMalformed ((headerLines rest).map parseConfiguredHeader) := by
  intro turns
  induction turns with
  | zero =>
      intro rest h
      rw [List.length_eq_zero_iff.mp (Nat.le_zero.mp h)]
      rfl
  | succ turns ih =>
      intro rest h
      rw [parseHeaderLines]
      split
      · rename_i hnone
        rw [List.isEmpty_iff.mp hnone]
        rfl
      · rename_i hsome
        have hshort : ((rest.dropWhile (!isLineEnd ·)).dropWhile isLineEnd).length ≤ turns := by
          cases rest with
          | nil => exact absurd rfl hsome
          | cons c rest =>
              rw [List.length_cons, Nat.add_le_add_iff_right] at h
              refine le_trans ?_ h
              cases hc : isLineEnd c with
              | true =>
                  rw [List.dropWhile_cons, hc]
                  simp only [Bool.not_true, Bool.false_eq_true, if_false, List.dropWhile_cons, hc,
                    if_true]
                  exact (List.dropWhile_sublist _).length_le
              | false =>
                  rw [List.dropWhile_cons, hc]
                  simp only [Bool.not_false, if_true]
                  exact ((List.dropWhile_sublist _).trans (List.dropWhile_sublist _)).length_le
        rw [headerLines_cut rest]
        simp only [ih _ hshort]
        split
        · rename_i hblank
          simp [hblank]
        · rename_i hline
          simp only [Bool.not_eq_true] at hline
          simp [hline, untilMalformed]

/-- A line is cut at its first colon. -/
theorem lineHeader_cut {before : Text} (h : (58 : UInt8) ∉ before) (after : Text) :
    lineHeader (before ++ 58 :: after) =
      if before.isEmpty then none else some (trim before, trim after) := by
  have hname : (before ++ 58 :: after).takeWhile (· != 58) = before := by
    rw [List.takeWhile_append_of_pos, List.takeWhile_cons]
    · simp
    · intro c hc
      have : c ≠ 58 := fun heq => h (heq ▸ hc)
      simpa using this
  have hcolon : (before ++ 58 :: after).contains 58 = true := by simp
  simp only [lineHeader, hname, hcolon, Bool.not_true, Bool.or_false]
  split
  · rfl
  · rw [List.drop_append, List.drop_eq_nil_of_le (Nat.le_succ _), Nat.add_sub_cancel_left]
    rfl

/-- A line as the code reads it. -/
theorem parseConfiguredHeader_eq (line : Text) :
    parseConfiguredHeader line = (lineHeader line).elim { malformed := true } fun h =>
      { name := h.1, lowercaseName := lower h.1, value := h.2 } := by
  unfold parseConfiguredHeader
  cases hfind : find 58 line with
  | none =>
      have hmissing : line.contains 58 = false := by simpa using find_none hfind
      simp only [lineHeader, hmissing, Bool.not_false, Bool.or_true, if_true]
      rfl
  | some colon =>
      obtain ⟨hcut, hbefore⟩ := find_split hfind
      have hline := lineHeader_cut hbefore (line.drop (colon + 1))
      rw [← hcut] at hline
      rw [hline]
      cases colon with
      | zero => rfl
      | succ colon =>
          have hne : (line.take (colon + 1)).isEmpty = false := by
            cases line with
            | nil => cases hfind
            | cons c line => rfl
          rw [hne]
          rfl

/-- No octet of a piece ends a line. -/
theorem splitOnP_clean (p : UInt8 → Bool) :
    ∀ xs : Text, ∀ piece ∈ xs.splitOnP p, ∀ c ∈ piece, p c = false := by
  intro xs
  induction xs with
  | nil =>
      intro piece hpiece c hc
      rw [List.splitOnP_nil, List.mem_singleton] at hpiece
      rw [hpiece] at hc
      cases hc
  | cons x xs ih =>
      intro piece hpiece c hc
      rw [List.splitOnP_cons_eq_if_modifyHead] at hpiece
      split at hpiece
      · rcases List.mem_cons.mp hpiece with rfl | hpiece
        · cases hc
        · exact ih piece hpiece c hc
      · rename_i hx
        obtain ⟨first, rest, hsplit⟩ :=
          List.exists_cons_of_ne_nil (List.splitOnP_ne_nil p xs)
        rw [hsplit, List.modifyHead_cons] at hpiece
        rw [hsplit] at ih
        rcases List.mem_cons.mp hpiece with rfl | hpiece
        · rcases List.mem_cons.mp hc with rfl | hc
          · simpa using hx
          · exact ih first List.mem_cons_self c hc
        · exact ih piece (List.mem_cons_of_mem first hpiece) c hc

theorem headerLines_clean {value line : Text} (h : line ∈ headerLines value) :
    line ≠ [] ∧ (∀ c ∈ line, isLineEnd c = false) ∧ ∀ c cs, line = c :: cs → isSpace c = false := by
  obtain ⟨hmap, hne⟩ := List.mem_filter.mp h
  obtain ⟨piece, hpiece, rfl⟩ := List.mem_map.mp hmap
  refine ⟨by simpa using hne, fun c hc => ?_, fun c cs hcs => trim_head hcs⟩
  exact splitOnP_clean isLineEnd value piece hpiece c (mem_of_mem_trim hc)

/-- A header that is read off a line is well formed. -/
theorem lineHeader_valid {value line : Text} (h : line ∈ headerLines value) {header : Header}
    (hheader : lineHeader line = some header) : validHeader header = true := by
  obtain ⟨hne, hclean, hspace⟩ := headerLines_clean h
  simp only [lineHeader] at hheader
  split at hheader
  · cases hheader
  · rename_i hnamed
    cases hheader
    have hnamed : line.takeWhile (· != 58) ≠ [] := by
      intro hnone
      simp [hnone] at hnamed
    have hbefore : ∀ c ∈ line.takeWhile (· != 58), c ≠ 58 ∧ c ∈ line := by
      intro c hc
      exact ⟨by simpa using List.mem_takeWhile_imp hc, (List.takeWhile_sublist _).subset hc⟩
    have hname : trim (line.takeWhile (· != 58)) ≠ [] := by
      cases hline : line with
      | nil => exact absurd hline hne
      | cons c cs =>
          rw [hline] at hnamed
          rw [List.takeWhile_cons] at hnamed ⊢
          split at hnamed
          · rename_i hc
            rw [if_pos hc]
            exact List.ne_nil_of_mem (mem_trim_of_head (hspace c cs hline))
          · exact absurd rfl hnamed
    have hends : ∀ c ∈ line, c ≠ 13 ∧ c ≠ 10 := by
      intro c hc
      simpa [isLineEnd] using hclean c hc
    simp only [validHeader, Bool.and_eq_true, Bool.not_eq_true', List.isEmpty_eq_false_iff,
      List.all_eq_true, bne_iff_ne]
    refine ⟨⟨hname, fun c hc => ?_⟩, fun c hc => ?_⟩
    · obtain ⟨hcolon, hmem⟩ := hbefore c (mem_of_mem_trim hc)
      exact ⟨⟨hcolon, (hends c hmem).1⟩, (hends c hmem).2⟩
    · exact hends c ((List.drop_sublist _ _).subset (mem_of_mem_trim hc))

/-! ## Adding them -/

theorem appendConfigured_untilMalformed (protect : Bool) :
    ∀ (cs : List ConfiguredHeader) (headers : List Header),
      appendConfigured protect (untilMalformed cs) headers = appendConfigured protect cs headers := by
  intro cs
  induction cs with
  | nil =>
      intro headers
      rfl
  | cons c cs ih =>
      intro headers
      rw [untilMalformed]
      split
      · rename_i hc
        simp only [appendConfigured, hc, if_true]
      · rename_i hc
        simp only [appendConfigured, ih]

theorem appendConfigured_error {protect : Bool} {e : RequestError} :
    ∀ {cs : List ConfiguredHeader} {headers : List Header},
      appendConfigured protect cs headers = .error e → e.status = .errConfig := by
  intro cs
  induction cs with
  | nil =>
      intro headers h
      cases h
  | cons c cs ih =>
      intro headers h
      rw [appendConfigured] at h
      split at h
      · cases h
        rfl
      · split at h
        · cases h
          rfl
        · exact ih h

/-- The headers that were added, and what was checked of each. -/
structure Added (protect : Bool) (cs : List ConfiguredHeader) (headers out : List Header) :
    Prop where
  out_eq : out = headers ++ cs.map fun c => (c.name, c.value)
  named : ∀ c ∈ cs, c.malformed = false
  unmanaged : ∀ c ∈ cs, managedHeader protect headers c.lowercaseName = false
  distinct : (∀ c ∈ cs, c.lowercaseName = lower c.name) →
    (headers.map fun h => lower h.1).Nodup → (out.map fun h => lower h.1).Nodup

theorem appendConfigured_ok {protect : Bool} {out : List Header} :
    ∀ {cs : List ConfiguredHeader} {headers : List Header},
      appendConfigured protect cs headers = .ok out → Added protect cs headers out := by
  intro cs
  induction cs with
  | nil =>
      intro headers h
      cases h
      exact ⟨(List.append_nil _).symm, fun _ hc => (by cases hc), fun _ hc => (by cases hc),
        fun _ hd => hd⟩
  | cons c cs ih =>
      intro headers h
      rw [appendConfigured] at h
      split at h
      · cases h
      · rename_i hnamed
        split at h
        · cases h
        · rename_i hmanaged
          obtain ⟨hout, hnamed', hunmanaged, hdistinct⟩ := ih h
          have hfree : ∀ {normalized : Text},
              managedHeader protect (headers ++ [(c.name, c.value)]) normalized = false →
              managedHeader protect headers normalized = false := by
            intro normalized hfree
            simp only [managedHeader, List.any_append, Bool.or_eq_false_iff] at hfree ⊢
            exact ⟨⟨hfree.1.1, hfree.1.2.1⟩, hfree.2⟩
          refine ⟨?_, ?_, ?_, ?_⟩
          · rw [hout, List.append_assoc]
            rfl
          · intro d hd
            rcases List.mem_cons.mp hd with rfl | hd
            · simpa using hnamed
            · exact hnamed' d hd
          · intro d hd
            rcases List.mem_cons.mp hd with rfl | hd
            · simpa using hmanaged
            · exact hfree (hunmanaged d hd)
          · intro hlower hnodup
            refine hdistinct (fun d hd => hlower d (List.mem_cons_of_mem c hd)) ?_
            rw [List.map_append, List.nodup_append]
            refine ⟨hnodup, List.nodup_singleton _, ?_⟩
            intro x hx y hy heq
            rw [List.map_singleton, List.mem_singleton] at hy
            obtain ⟨g, hg, rfl⟩ := List.mem_map.mp hx
            refine hmanaged ?_
            have hsame : lower g.1 = c.lowercaseName := by
              rw [heq, hy, hlower c List.mem_cons_self]
            have hany : headers.any (fun current => lower current.1 == c.lowercaseName) = true :=
              List.any_eq_true.mpr ⟨g, hg, beq_iff_eq.mpr hsame⟩
            simp [managedHeader, hany]

/-- The text of the configured headers. -/
def headersText (config : ConfigSnapshot) : Text := config.option [] (text "KARU_HTTP_HEADERS")

/-- The headers written in the text, behind those of the backend. -/
structure Extended (protect : Bool) (lines : List Text) (generated out : List Header) : Prop where
  /-- The text has one header on each line, and they are all there. -/
  written : ∃ configured, out = generated ++ configured ∧
    lines.map lineHeader = configured.map some
  valid : ∀ h ∈ out, validHeader h = true
  unmanaged : ∀ line ∈ lines, ∀ h ∈ lineHeader line,
    managedHeader protect generated (lower h.1) = false
  distinct : (generated.map fun h => lower h.1).Nodup → (out.map fun h => lower h.1).Nodup

theorem addConfiguredHeaders_ok {config : ConfigSnapshot} {protect : Bool}
    {generated out : List Header} (h : addConfiguredHeaders config generated protect = .ok out) :
    Extended protect (headerLines (headersText config)) generated out := by
  unfold addConfiguredHeaders at h
  split at h
  · cases h
  · rename_i hvalid
    have hvalid : ∀ g ∈ generated, validHeader g = true := by
      intro g hg
      by_contra hbad
      exact hvalid (List.any_eq_true.mpr ⟨g, hg, by simpa using hbad⟩)
    have hparse : configuredHeaders config =
        untilMalformed ((headerLines (headersText config)).map parseConfiguredHeader) :=
      parseHeaderLines_eq _ _ le_rfl
    rw [hparse, appendConfigured_untilMalformed] at h
    obtain ⟨hout, hnamed, hunmanaged, hdistinct⟩ := appendConfigured_ok h
    -- every line has been read
    have hread : ∀ line ∈ headerLines (headersText config), ∃ header,
        lineHeader line = some header ∧ parseConfiguredHeader line =
          { name := header.1, lowercaseName := lower header.1, value := header.2 } := by
      intro line hline
      have hc := hnamed _ (List.mem_map_of_mem hline)
      rw [parseConfiguredHeader_eq] at hc
      cases hheader : lineHeader line with
      | none =>
          rw [hheader] at hc
          cases hc
      | some header => exact ⟨header, rfl, by rw [parseConfiguredHeader_eq, hheader]; rfl⟩
    refine ⟨⟨_, hout, ?_⟩, ?_, ?_, ?_⟩
    · rw [List.map_map, List.map_map]
      refine List.map_congr_left fun line hline => ?_
      obtain ⟨header, hheader, hc⟩ := hread line hline
      rw [hheader]
      simp [hc]
    · intro g hg
      rw [hout] at hg
      rcases List.mem_append.mp hg with hg | hg
      · exact hvalid g hg
      · obtain ⟨c, hc, rfl⟩ := List.mem_map.mp hg
        obtain ⟨line, hline, rfl⟩ := List.mem_map.mp hc
        obtain ⟨header, hheader, hparsed⟩ := hread line hline
        rw [hparsed]
        exact lineHeader_valid hline hheader
    · intro line hline header hheader
      obtain ⟨header', hheader', hparsed⟩ := hread line hline
      cases hheader'.symm.trans hheader
      have := hunmanaged _ (List.mem_map_of_mem hline)
      rw [hparsed] at this
      exact this
    · refine hdistinct fun c hc => ?_
      obtain ⟨line, hline, rfl⟩ := List.mem_map.mp hc
      obtain ⟨header, -, hparsed⟩ := hread line hline
      rw [hparsed]

theorem addConfiguredHeaders_error {config : ConfigSnapshot} {protect : Bool}
    {generated : List Header} {e : RequestError}
    (h : addConfiguredHeaders config generated protect = .error e) : e.status = .errConfig := by
  unfold addConfiguredHeaders at h
  split at h
  · cases h
    rfl
  · exact appendConfigured_error h

/-! ## What the backends generate -/

/-- The request before the configured headers are added. -/
def generatedRequest (crypto : Crypto) (c : RequestContext) : Except RequestError PreparedRequest :=
  match c.object.backend with
  | .http => .ok
      { url := c.object.target
        headers := if c.ifMatch.isEmpty then [] else [(text "If-Match", c.ifMatch)] }
  | .huggingFace => huggingFaceRequest c.config c.object c.tokenFile c.ifMatch
  | .s3 => prepareAws crypto c.config c.object c.credentials c.range c.regionHint c.ifMatch
      c.signingTime
  | .gcs => prepareGcs crypto c.config c.object c.credentials c.ifMatch c.signingTime
  | .azure => prepareAzure crypto c.config c.object c.credentials c.range c.ifMatch c.signingTime
  | .source => prepareSource crypto c.config c.object c.credentials c.range c.ifMatch c.signingTime
  | .file => .error ⟨.errUnsupported, text "unsupported request backend"⟩

/-- On every backend but plain HTTP there is authentication to protect. -/
def RequestContext.protects (c : RequestContext) : Bool := c.object.backend != .http

/-- On every backend the configured headers are added to what it has generated. -/
theorem materializeRange_eq (crypto : Crypto) (c : RequestContext) :
    materializeRange crypto c = (generatedRequest crypto c).bind fun prepared =>
      (addConfiguredHeaders c.config prepared.headers c.protects).map fun headers =>
        materialized c { prepared with headers } := by
  unfold materializeRange generatedRequest RequestContext.protects prepareRequest
  cases hbackend : c.object.backend with
  | http =>
      rw [if_pos rfl, show (Backend.http != Backend.http) = false from rfl]
      simp only [prepareHttp, bind, Except.bind, pure, Except.pure]
      generalize addConfiguredHeaders c.config _ false = x
      cases x with
      | ok headers => rfl
      | error e => rfl
  | huggingFace =>
      rw [if_neg (by decide), if_pos rfl, show (Backend.huggingFace != Backend.http) = true from rfl]
      simp only [prepareHuggingFace, bind, Except.bind, pure, Except.pure]
      cases huggingFaceRequest c.config c.object c.tokenFile c.ifMatch with
      | error e => rfl
      | ok request =>
          simp only []
          generalize addConfiguredHeaders c.config request.headers true = x
          cases x with
          | ok headers => rfl
          | error e => rfl
  | file => rfl
  | s3 => exact extend _
  | gcs => exact extend _
  | azure => exact extend _
  | source => exact extend _
where
  extend (prepared : Except RequestError PreparedRequest) :
      (do
        let prepared ← prepared
        let headers ← addConfiguredHeaders c.config prepared.headers true
        return materialized c { prepared with headers }) =
      prepared.bind fun prepared =>
        (addConfiguredHeaders c.config prepared.headers true).map fun headers =>
          materialized c { prepared with headers } := by
    cases prepared with
    | error e => rfl
    | ok prepared =>
        simp only [bind, Except.bind, pure, Except.pure]
        generalize addConfiguredHeaders c.config prepared.headers true = x
        cases x with
        | ok headers => rfl
        | error e => rfl

/-- No two headers have the same name, up to the case of its letters. -/
def Distinct (headers : List Header) : Prop := (headers.map fun h => lower h.1).Nodup

theorem Distinct.of_sublist {headers full : List Header} (h : headers.Sublist full)
    (hfull : Distinct full) : Distinct headers :=
  hfull.sublist (h.map _)

/-- A header that is only there on a condition. -/
theorem optional_sublist (missing : Prop) [Decidable missing] (header : Header) :
    (if missing then [] else [header]).Sublist [header] := by
  split
  · exact List.nil_sublist _
  · exact List.Sublist.refl _

theorem httpHeaders_distinct (ifMatch : Text) :
    Distinct (if ifMatch.isEmpty then [] else [(text "If-Match", ifMatch)]) :=
  .of_sublist (optional_sublist _ _) (List.nodup_singleton _)

/-- What is not refused goes on. -/
theorem ok_of_unless {refuses : Prop} [Decidable refuses] {e : RequestError}
    {x : Except RequestError PreparedRequest} {request : PreparedRequest}
    (h : (if refuses then .error e else x) = .ok request) : x = .ok request := by
  split at h
  · cases h
  · exact h

section Generated

variable {crypto : Crypto} {config : ConfigSnapshot} {object : Resolved} {request : PreparedRequest}
  {range ifMatch : Text} {time : Int}

theorem huggingFaceRequest_distinct {file : TokenFile}
    (h : huggingFaceRequest config object file ifMatch = .ok request) :
    Distinct request.headers := by
  obtain ⟨endpoint, -, h⟩ := ok_of_bind h
  obtain ⟨parts, -, h⟩ := ok_of_bind h
  split at h
  · cases h
  · obtain ⟨token, -, h⟩ := ok_of_bind h
    cases h
    refine .of_sublist ((optional_sublist _ _).append (optional_sublist _ _)) ?_
    show ([text "authorization", text "if-match"] : List Text).Nodup
    decide +kernel

/-- Signing adds a date at most, and who is asking. -/
theorem authorizeGcs_headers {custom : Option ProviderCredentials} {url : Text}
    {headers : List Header}
    (h : authorizeGcs crypto config object custom url headers time = .ok request) :
    ∃ date authorization, request.headers.Sublist
      (headers ++ [(text "Date", date), (text "Authorization", authorization)]) := by
  unfold authorizeGcs at h
  simp only at h
  split at h
  · cases h
    exact ⟨[], [], List.sublist_append_left _ _⟩
  · split at h
    · cases h
      exact ⟨[], _, (List.Sublist.refl headers).append (List.sublist_cons_self _ _)⟩
    · split at h
      · obtain ⟨signature, -, h⟩ := ok_of_bind h
        cases h
        exact ⟨_, _, List.Sublist.refl _⟩
      · cases h

theorem prepareGcs_distinct {custom : Option ProviderCredentials}
    (h : prepareGcs crypto config object custom ifMatch time = .ok request) :
    Distinct request.headers := by
  obtain ⟨endpoint, -, h⟩ := ok_of_bind h
  obtain ⟨parts, -, h⟩ := ok_of_bind h
  split at h
  · cases h
  · obtain ⟨date, authorization, hsub⟩ := authorizeGcs_headers h
    refine .of_sublist (hsub.trans ((((List.Sublist.refl _).append (optional_sublist _ _)).append
      (optional_sublist _ _)).append (List.Sublist.refl _))) ?_
    show ([text "accept-encoding", text "if-match", text "x-goog-user-project", text "date",
      text "authorization"] : List Text).Nodup
    decide +kernel

theorem authorizeAzure_headers {credentials : ProviderCredentials} {url : Text}
    {headers : List Header}
    (h : authorizeAzure crypto config object credentials url headers range ifMatch time =
      .ok request) :
    ∃ date authorization, request.headers.Sublist
      (headers ++ [(text "x-ms-date", date), (text "Authorization", authorization)]) := by
  unfold authorizeAzure at h
  simp only at h
  split at h
  · cases h
    exact ⟨[], [], List.sublist_append_left _ _⟩
  · split at h
    · cases h
      exact ⟨[], [], List.sublist_append_left _ _⟩
    · split at h
      · cases h
        exact ⟨[], _, (List.Sublist.refl headers).append (List.sublist_cons_self _ _)⟩
      · split at h
        · cases h
        · obtain ⟨key, -, h⟩ := ok_of_bind h
          obtain ⟨parts, -, h⟩ := ok_of_bind h
          obtain ⟨signature, -, h⟩ := ok_of_bind h
          cases h
          exact ⟨_, _, List.Sublist.refl _⟩

theorem prepareAzure_distinct {custom : Option ProviderCredentials}
    (h : prepareAzure crypto config object custom range ifMatch time = .ok request) :
    Distinct request.headers := by
  obtain ⟨endpoint, -, h⟩ := ok_of_bind h
  obtain ⟨parts, -, h⟩ := ok_of_bind h
  split at h
  · cases h
  · obtain ⟨date, authorization, hsub⟩ := authorizeAzure_headers h
    refine .of_sublist (hsub.trans (((optional_sublist _ _).append (List.Sublist.refl _)).append
      (List.Sublist.refl _))) ?_
    show ([text "if-match", text "x-ms-version", text "x-ms-date", text "authorization"] :
      List Text).Nodup
    decide +kernel

/-- What is signed is a selection of these headers, in another order. -/
theorem signedHeaders_perm (target : S3GetRequest) (credentials : ProviderCredentials)
    (host range ifMatch timestamp : Text) :
    ∃ chosen : List Header,
      (signedHeaders target credentials host range ifMatch timestamp).Perm chosen ∧
      chosen.Sublist [(text "host", host), (text "range", range),
        (text "x-amz-content-sha256", text "UNSIGNED-PAYLOAD"), (text "x-amz-date", timestamp),
        (text "if-match", ifMatch), (text "x-amz-security-token", credentials.sessionToken),
        (text "x-amz-request-payer", text "requester")] := by
  refine ⟨_, List.mergeSort_perm _ _, ?_⟩
  refine (((List.Sublist.refl _).append (optional_sublist _ _)).append (optional_sublist _ _)).append
    ?_
  split
  · exact List.Sublist.refl _
  · exact List.nil_sublist _

theorem Distinct.perm {headers headers' : List Header} (h : headers.Perm headers')
    (hd : Distinct headers') : Distinct headers :=
  (h.map _).nodup_iff.mpr hd

theorem signS3Get_distinct {target : S3GetRequest} {credentials : ProviderCredentials} {url : Text}
    (h : signS3Get crypto target credentials url range ifMatch time = .ok request) :
    Distinct request.headers := by
  obtain ⟨parts, -, h⟩ := ok_of_bind h
  obtain ⟨hash, -, h⟩ := ok_of_bind h
  obtain ⟨key, -, h⟩ := ok_of_bind h
  obtain ⟨signature, -, h⟩ := ok_of_bind h
  cases h
  obtain ⟨chosen, hperm, hsub⟩ := signedHeaders_perm target credentials (signedHost parts) range
    ifMatch (crypto.timestamp time)
  refine .perm ((hperm.filter _).append_right _) ?_
  refine .of_sublist (((List.filter_sublist).trans hsub).append (List.Sublist.refl _)) ?_
  show ([text "host", text "range", text "x-amz-content-sha256", text "x-amz-date",
    text "if-match", text "x-amz-security-token", text "x-amz-request-payer",
    text "authorization"] : List Text).Nodup
  decide +kernel

theorem prepareS3Get_distinct {target : S3GetRequest} {credentials : Option ProviderCredentials}
    (h : prepareS3Get crypto target credentials range ifMatch time = .ok request) :
    Distinct request.headers := by
  obtain ⟨parts, -, h⟩ := ok_of_bind h
  split at h
  · cases h
  · cases credentials with
    | none =>
        cases h
        exact httpHeaders_distinct ifMatch
    | some credentials => exact signS3Get_distinct h

theorem prepareAws_distinct {custom : Option ProviderCredentials} {regionHint : Text}
    (h : prepareAws crypto config object custom range regionHint ifMatch time = .ok request) :
    Distinct request.headers := by
  obtain ⟨endpoint, -, h⟩ := ok_of_bind (ok_of_unless h)
  obtain ⟨prepared, hprepared, h⟩ := ok_of_bind (ok_of_unless h)
  cases h
  have hdistinct : Distinct prepared.headers := prepareS3Get_distinct hprepared
  exact hdistinct

theorem prepareSource_distinct {credentials : Option ProviderCredentials}
    (h : prepareSource crypto config object credentials range ifMatch time = .ok request) :
    Distinct request.headers := by
  obtain ⟨endpoint, -, h⟩ := ok_of_bind h
  exact prepareS3Get_distinct (ok_of_unless (ok_of_unless h))

end Generated

theorem generatedRequest_distinct {crypto : Crypto} {c : RequestContext}
    {prepared : PreparedRequest} (h : generatedRequest crypto c = .ok prepared) :
    Distinct prepared.headers := by
  unfold generatedRequest at h
  split at h
  · cases h
    exact httpHeaders_distinct c.ifMatch
  · exact huggingFaceRequest_distinct h
  · exact prepareAws_distinct h
  · exact prepareGcs_distinct h
  · exact prepareAzure_distinct h
  · exact prepareSource_distinct h
  · cases h

/-! ## What is sent -/

/-- A name that is the client's own. -/
def Managed (protect : Bool) (name : Text) : Prop :=
  lower name = text "host" ∨ lower name = text "range" ∨
    protect = true ∧ (lower name = text "authorization" ∨ lower name = text "date" ∨
      lower name = text "if-match" ∨ text "x-amz-" <+: lower name ∨
      text "x-goog-" <+: lower name ∨ text "x-ms-" <+: lower name)

/-- The headers of a request, and those configured among them. -/
structure WellHeaded (protect : Bool) (value : Text) (headers : List Header) : Prop where
  names : ∀ h ∈ headers, h.1 ≠ [] ∧ ∀ c ∈ h.1, c ≠ 58 ∧ c ≠ 13 ∧ c ≠ 10
  values : ∀ h ∈ headers, ∀ c ∈ h.2, c ≠ 13 ∧ c ≠ 10
  distinct : (headers.map fun h => lower h.1).Nodup
  configured : ∃ generated configured, headers = generated ++ configured ∧
    (headerLines value).map lineHeader = configured.map some ∧
    ∀ h ∈ configured, ¬ Managed protect h.1

/-- What a text is refused for. -/
inductive Offends (protect : Bool) (generated : List Header) (lines : List Text) : Prop
  | malformed {line : Text} : line ∈ lines → lineHeader line = none →
      Offends protect generated lines
  | repeated {line line' : Text} {h h' : Header} : [line, line'].Sublist lines →
      lineHeader line = some h → lineHeader line' = some h' → lower h.1 = lower h'.1 →
      Offends protect generated lines
  | managed {line : Text} {h : Header} : line ∈ lines → lineHeader line = some h →
      Managed protect h.1 → Offends protect generated lines
  | overrides {line : Text} {h g : Header} : line ∈ lines → lineHeader line = some h →
      g ∈ generated → lower g.1 = lower h.1 → Offends protect generated lines

theorem not_managed {protect : Bool} {generated : List Header} {name : Text}
    (h : managedHeader protect generated (lower name) = false) :
    ¬ Managed protect name ∧ ∀ g ∈ generated, lower g.1 ≠ lower name := by
  simp only [managedHeader, protectedHeader, Bool.or_eq_false_iff, Bool.and_eq_false_iff,
    beq_eq_false_iff_ne, List.any_eq_false, beq_iff_eq] at h
  obtain ⟨⟨⟨hhost, hrange⟩, hgenerated⟩, hprotected⟩ := h
  refine ⟨?_, hgenerated⟩
  rintro (hname | hname | ⟨hprotect, hname⟩)
  · exact hhost hname
  · exact hrange hname
  · rcases hprotected with hno | ⟨⟨⟨⟨⟨hauth, hdate⟩, hmatch⟩, hamz⟩, hgoog⟩, hms⟩
    · exact absurd (hprotect.symm.trans hno) (by decide)
    · rcases hname with hname | hname | hname | hname | hname | hname
      · exact hauth hname
      · exact hdate hname
      · exact hmatch hname
      · exact absurd (List.isPrefixOf_iff_prefix.mpr hname) (by rw [hamz]; decide)
      · exact absurd (List.isPrefixOf_iff_prefix.mpr hname) (by rw [hgoog]; decide)
      · exact absurd (List.isPrefixOf_iff_prefix.mpr hname) (by rw [hms]; decide)

theorem Extended.wellHeaded {protect : Bool} {value : Text} {generated out : List Header}
    (h : Extended protect (headerLines value) generated out) (hdistinct : Distinct generated) :
    WellHeaded protect value out := by
  have hvalid : ∀ header ∈ out, (header.1 ≠ [] ∧ ∀ c ∈ header.1, c ≠ 58 ∧ c ≠ 13 ∧ c ≠ 10) ∧
      ∀ c ∈ header.2, c ≠ 13 ∧ c ≠ 10 := by
    intro header hheader
    simpa [validHeader, and_assoc] using h.valid header hheader
  obtain ⟨configured, hout, hlines⟩ := h.written
  refine ⟨fun header hh => (hvalid header hh).1, fun header hh => (hvalid header hh).2,
    h.distinct hdistinct, generated, configured, hout, hlines, fun header hheader => ?_⟩
  have hmem : some header ∈ (headerLines value).map lineHeader := by
    rw [hlines]
    exact List.mem_map_of_mem hheader
  obtain ⟨line, hline, hread⟩ := List.mem_map.mp hmem
  exact (not_managed (h.unmanaged line hline header hread)).1

/-- Nothing that offends is let through. -/
theorem Extended.inoffensive {protect : Bool} {lines : List Text} {generated out : List Header}
    (h : Extended protect lines generated out) (hdistinct : Distinct generated) :
    ¬ Offends protect generated lines := by
  obtain ⟨configured, hout, hlines⟩ := h.written
  intro hoffends
  cases hoffends with
  | malformed hline hnone =>
      have hmem := List.mem_map_of_mem (f := lineHeader) hline
      rw [hnone, hlines] at hmem
      obtain ⟨header, -, hno⟩ := List.mem_map.mp hmem
      cases hno
  | @repeated line line' header header' hsub hread hread' hsame =>
      have hnames : ((lines.map lineHeader).map (Option.map fun x => lower x.1)).Nodup := by
        have hnodup := h.distinct hdistinct
        rw [hout, List.map_append] at hnodup
        rw [hlines, List.map_map]
        have := (List.nodup_append.mp hnodup).2.1.map fun _ _ heq => Option.some.inj heq
        rwa [List.map_map] at this
      have htwice := hnames.sublist ((hsub.map lineHeader).map _)
      simp [hread, hread', hsame] at htwice
  | managed hline hread hmanaged =>
      exact (not_managed (h.unmanaged _ hline _ hread)).1 hmanaged
  | overrides hline hread hg hsame =>
      exact (not_managed (h.unmanaged _ hline _ hread)).2 _ hg hsame

/-- Every request that is put together has well-formed headers, no two of one name, and all those
configured among them, none of which is the client's own; a text that offends is refused. -/
theorem materializeRange_headers (crypto : Crypto) (c : RequestContext) :
    (∀ request, materializeRange crypto c = .ok request →
      WellHeaded c.protects (headersText c.config) request.headers) ∧
    (∀ prepared, generatedRequest crypto c = .ok prepared →
      Offends c.protects prepared.headers (headerLines (headersText c.config)) →
      ∃ e, materializeRange crypto c = .error e ∧ e.status = .errConfig) ∧
    ∀ e, generatedRequest crypto c = .error e → materializeRange crypto c = .error e := by
  rw [materializeRange_eq]
  refine ⟨fun request h => ?_, fun prepared hprepared hoffends => ?_, fun e h => ?_⟩
  · cases hprepared : generatedRequest crypto c with
    | error e =>
        rw [hprepared] at h
        cases h
    | ok prepared =>
        rw [hprepared] at h
        cases hadded : addConfiguredHeaders c.config prepared.headers c.protects with
        | error e =>
            simp only [Except.bind, hadded] at h
            cases h
        | ok headers =>
            simp only [Except.bind, hadded] at h
            cases h
            exact (addConfiguredHeaders_ok hadded).wellHeaded (generatedRequest_distinct hprepared)
  · rw [hprepared]
    cases hadded : addConfiguredHeaders c.config prepared.headers c.protects with
    | ok headers =>
        exact absurd hoffends
          ((addConfiguredHeaders_ok hadded).inoffensive (generatedRequest_distinct hprepared))
    | error e =>
        refine ⟨e, ?_, addConfiguredHeaders_error hadded⟩
        simp only [Except.bind, hadded]
        rfl
  · rw [h]
    rfl

/-- A GCS object, a bearer token, and two headers among blank lines. -/
def twoConfigured : RequestContext where
  config :=
    { explicit := OptionMap.empty.assign (text "KARU_HTTP_HEADERS")
        (some (text "X-One: 1\r\n \n\n  x-two :two  \r")) }
  object := { backend := .gcs, container := text "b", key := text "k"
              canonicalUri := text "/vsigs/b/k" }
  credentials := some { bearerToken := text "t" }
  range := text "bytes=0-9"

theorem materializeRange_headers_two :
    WellHeaded true (headersText twoConfigured.config)
      [(text "Accept-Encoding", text "gzip"), (text "Authorization", text "Bearer t"),
        (text "X-One", text "1"), (text "x-two", text "two")] := by
  have hheaders : (materializeRange
      ⟨fun _ => none, fun _ _ => none, id, fun _ => none, fun _ => [], fun _ => []⟩
      twoConfigured).map (·.headers) = .ok
        [(text "Accept-Encoding", text "gzip"), (text "Authorization", text "Bearer t"),
          (text "X-One", text "1"), (text "x-two", text "two")] := by
    decide +kernel
  have hall := (materializeRange_headers
    ⟨fun _ => none, fun _ _ => none, id, fun _ => none, fun _ => [], fun _ => []⟩ twoConfigured).1
  generalize materializeRange _ twoConfigured = x at hheaders hall
  cases x with
  | error e => cases hheaders
  | ok request =>
      have hsent : request.headers = _ := Except.ok.inj hheaders
      rw [← hsent]
      exact hall request rfl

end Backends

end Karu
