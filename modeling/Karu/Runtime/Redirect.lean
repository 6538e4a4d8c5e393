/-
# `Karu.Runtime.Redirect` — configured headers and other origins

With `KARU_HTTP_HEADERS` set, a redirect to another origin must not be
followed, for the headers would go along.  libcurl does the following; what
stops it is that a header callback refuses the `Location` line.  The guard asks
`response_status` whether the response is a redirect at all, and that function
takes the code only where a space comes after it.  libcurl needs no such space.

A `Hop` is one response of a chain, a `Chain` what libcurl makes of several:
the URLs it sends requests to.  `redirects_keep_origin` holds for both header
callbacks: a redirect out of the origin is refused exactly when there is a space
behind its code (`Hop.Spaced`), and where all of them have one, no request
leaves the origin of the first.
-/
import Karu.Runtime.ProbeBounds

namespace Karu

open Base

/-! ## Origins -/

/-- Scheme, host and effective port. -/
def Libcurl.origin (curl : Libcurl) (u : curl.Url) : Option (Text × Text × Text) :=
  match curl.scheme u, curl.host u, curl.port u with
  | some scheme, some host, some port => some (scheme.map asciiLower, host.map asciiLower, port)
  | _, _, _ => none

/-- Where a `Location` leads depends on the origin it is found at, and not on the rest of
the URL there, as far as the origin is concerned. -/
def Libcurl.Relative (curl : Libcurl) : Prop :=
  ∀ (u v : curl.Url) (location : Text) (u' v' : curl.Url), curl.origin u = curl.origin v →
    curl.resolve u location = some u' → curl.resolve v location = some v' →
    curl.origin u' = curl.origin v'

theorem sameOriginRedirect_origin {curl : Libcurl} {url location : Text} {u : curl.Url}
    (hu : curl.parse url = some u) (h : sameOriginRedirect curl url location = true) :
    ∃ u', curl.resolve u location = some u' ∧ curl.origin u' = curl.origin u := by
  simp only [sameOriginRedirect, hu] at h
  split at h
  · rename_i scheme host port target h₁ h₂ h₃ h₄
    split at h
    · rename_i scheme' host' port' h₅ h₆ h₇
      simp only [Bool.and_eq_true, asciiEqual, beq_iff_eq] at h
      refine ⟨target, h₄, ?_⟩
      simp [Libcurl.origin, h₁, h₂, h₃, h₅, h₆, h₇, h]
    · cases h
  · cases h

/-! ## Status lines -/

/-- A number from 300 to 399 is the second word of the line, and the word ends where the line does
or at a space. -/
def AnnouncesRedirect (line : Text) : Prop :=
  ∃ version blanks digits rest,
    line = text "HTTP/" ++ (version ++ 32 :: (blanks ++ (digits ++ rest))) ∧
      (∀ c ∈ version, c ≠ 32) ∧ (∀ c ∈ blanks, c = 32) ∧ (∀ c ∈ digits, isDigit c = true) ∧
      300 ≤ digitsValue digits ∧ digitsValue digits < 400 ∧ ∀ c ∈ rest.head?, c = 32

theorem AnnouncesRedirect.isStatusLine {line : Text} (h : AnnouncesRedirect line) :
    isStatusLine line = true := by
  obtain ⟨version, blanks, digits, rest, rfl, -⟩ := h
  exact List.isPrefixOf_iff_prefix.mpr (List.prefix_append _ _)

/-- A positive number that is all of a text. -/
theorem fromCharsLong_positive {s : Text} {value : Int} (h : fromCharsLong s = some (value, []))
    (hpos : 0 < value) : (∀ c ∈ s, isDigit c = true) ∧ (digitsValue s : Int) = value := by
  unfold fromCharsLong at h
  simp only at h
  cases hminus : s.head? == some 45 with
  | true =>
      rw [hminus] at h
      simp only [if_true] at h
      split at h
      · cases h
      · split at h
        · obtain ⟨hvalue, -⟩ := Prod.mk.inj (Option.some.inj h)
          omega
        · cases h
  | false =>
      rw [hminus] at h
      simp only [Bool.false_eq_true, if_false] at h
      split at h
      · cases h
      · split at h
        · obtain ⟨hvalue, hrest⟩ := Prod.mk.inj (Option.some.inj h)
          have hall : ∀ c ∈ s, isDigit c = true := List.dropWhile_eq_nil_iff.mp hrest
          refine ⟨hall, ?_⟩
          rw [List.takeWhile_eq_self_iff.mpr hall] at hvalue
          exact hvalue
        · cases h

theorem digits_plain {s : Text} (h : ∀ c ∈ s, isDigit c = true) : ∀ c ∈ s, (c != 32) = true := by
  intro c hc
  rw [bne_iff_ne]
  rintro rfl
  exact absurd (h 32 hc) (by decide)

theorem dropWhile_word (tail : Text) :
    (text "HTTP/" ++ tail).dropWhile (· != 32) = tail.dropWhile (· != 32) :=
  List.dropWhile_append_of_pos (by decide +kernel)

/-- The number that is read is the one the second word begins with, if the word ends with it. -/
theorem responseStatus_words {version blanks digits rest left : Text} {status : Int}
    (hversion : ∀ c ∈ version, c ≠ 32) (hblanks : ∀ c ∈ blanks, c = 32) (hne : digits ≠ [])
    (hdigits : ∀ c ∈ digits, isDigit c = true)
    (hparsed : fromCharsLong ((digits ++ rest).takeWhile (· != 32)) = some (status, left)) :
    responseStatus (text "HTTP/" ++ (version ++ 32 :: (blanks ++ (digits ++ rest)))) =
      if left.isEmpty then status else 0 := by
  have hversion' : ∀ c ∈ version, (c != 32) = true := fun c hc => bne_iff_ne.mpr (hversion c hc)
  have hblanks' : ∀ c ∈ blanks, (c == 32) = true := fun c hc => beq_iff_eq.mpr (hblanks c hc)
  have hbegin : (digits ++ rest).dropWhile (· == 32) = digits ++ rest := by
    obtain ⟨d, ds, rfl⟩ := List.exists_cons_of_ne_nil hne
    have hd : d ≠ 32 := bne_iff_ne.mp (digits_plain hdigits d List.mem_cons_self)
    rw [List.cons_append, List.dropWhile_cons_of_neg (by simp [hd])]
  simp only [responseStatus, dropWhile_word]
  rw [List.dropWhile_append_of_pos hversion', List.dropWhile_cons_of_neg (by decide),
    List.dropWhile_cons_of_pos (by decide), List.dropWhile_append_of_pos hblanks', hbegin, hparsed]
  refine (if_neg (by simp [hne])).trans ?_
  cases left <;> rfl

theorem AnnouncesRedirect.isRedirect {line : Text} (h : AnnouncesRedirect line) :
    isRedirect (responseStatus line) = true := by
  obtain ⟨version, blanks, digits, rest, rfl, hversion, hblanks, hdigits, hlow, hhigh, hend⟩ := h
  have hne : digits ≠ [] := by
    rintro rfl
    exact absurd hlow (by decide)
  have hword : (digits ++ rest).takeWhile (· != 32) = digits :=
    (takeWhile_append_of_all (digits_plain hdigits) fun c hc => by rw [hend c hc]; rfl).1
  have hparsed : fromCharsLong digits = some ((digitsValue digits : Int), []) := by
    have h := @fromCharsLong_append digits [] hne hdigits (by simp) (by omega)
    rwa [List.append_nil] at h
  rw [responseStatus_words hversion hblanks hne hdigits ((congrArg fromCharsLong hword).trans hparsed)]
  simp only [Karu.isRedirect, List.isEmpty_nil, if_true, Bool.and_eq_true, decide_eq_true_eq]
  omega

/-- `response_status` reads a redirect from exactly those lines. -/
theorem isRedirect_responseStatus {line : Text} (hline : isStatusLine line = true) :
    isRedirect (responseStatus line) = true ↔ AnnouncesRedirect line := by
  refine ⟨fun h => ?_, AnnouncesRedirect.isRedirect⟩
  obtain ⟨tail, rfl⟩ := List.isPrefixOf_iff_prefix.mp hline
  simp only [isRedirect, Bool.and_eq_true, decide_eq_true_eq] at h
  simp only [responseStatus, dropWhile_word] at h
  split at h
  · omega
  · rename_i hsome
    split at h
    · rename_i status hparsed
      obtain ⟨hdigits, hvalue⟩ := fromCharsLong_positive hparsed (by omega)
      have hnext : ∀ {s : Text} {c : UInt8}, c ∈ (s.dropWhile (· != 32)).head? → c = 32 := by
        intro s c hc
        have hstop := List.head?_dropWhile_not (· != 32) s
        rw [hc] at hstop
        simpa using hstop
      obtain ⟨c, cs, hcs⟩ : ∃ c cs, tail.dropWhile (· != 32) = c :: cs :=
        List.exists_cons_of_ne_nil fun hnil => by simp [hnil] at hsome
      have hc : c = 32 := hnext (s := tail) (by rw [hcs]; rfl)
      subst hc
      have hbegin : (tail.dropWhile (· != 32)).dropWhile (· == 32) = cs.dropWhile (· == 32) := by
        rw [hcs, List.dropWhile_cons_of_pos (by decide)]
      rw [hbegin] at hdigits hvalue
      refine ⟨tail.takeWhile (· != 32), cs.takeWhile (· == 32),
        (cs.dropWhile (· == 32)).takeWhile (· != 32),
        (cs.dropWhile (· == 32)).dropWhile (· != 32), ?_, ?_, ?_, hdigits, by omega, by omega,
        fun c hc => hnext hc⟩
      · rw [List.takeWhile_append_dropWhile, List.takeWhile_append_dropWhile, ← hcs,
          List.takeWhile_append_dropWhile]
      · intro c hc
        simpa using List.mem_takeWhile_imp hc
      · intro c hc
        simpa using List.mem_takeWhile_imp hc
    · omega

/-! ## What the guard sees -/

/-- The status read from the last line so far that begins like a status line. -/
def lastStatus (status : Int) (lines : List Text) : Int :=
  lines.foldl (fun n line => if isStatusLine line then responseStatus line else n) status

/-- A `Location` line that leads to another origin, or nowhere. -/
def leaves (curl : Libcurl) (url line : Text) : Bool :=
  headerNameIs line (text "location:") &&
    !sameOriginRedirect curl url (headerValue line (text "location:"))

/-- Some such line comes after a status that is read as a redirect. -/
def Heeds (curl : Libcurl) (url : Text) (status : Int) (lines : List Text) : Prop :=
  ∃ before line after, lines = before ++ line :: after ∧ leaves curl url line = true ∧
    isRedirect (lastStatus status before) = true

/-- That status is a redirect where the last such line announces one. -/
theorem lastStatus_redirect (lines : List Text) :
    isRedirect (lastStatus 0 lines) = true ↔
      ∃ before status between, lines = before ++ status :: between ∧ AnnouncesRedirect status ∧
        ∀ l ∈ between, isStatusLine l = false := by
  induction lines using List.reverseRecOn with
  | nil =>
      refine iff_of_false (by decide) ?_
      rintro ⟨before, status, between, hsplit, -⟩
      simp at hsplit
  | append_singleton lines line ih =>
      have hlast : lastStatus 0 (lines ++ [line]) =
          if isStatusLine line then responseStatus line else lastStatus 0 lines := by
        rw [lastStatus, List.foldl_append]
        rfl
      rw [hlast]
      -- the line that is added is the last one of `between`, or the announcing line
      cases hline : isStatusLine line with
      | true =>
          rw [if_pos rfl, isRedirect_responseStatus hline]
          constructor
          · exact fun h => ⟨lines, line, [], rfl, h, by simp⟩
          · rintro ⟨before, status, between, hsplit, h, hbetween⟩
            rcases List.eq_nil_or_concat between with rfl | ⟨between', l, rfl⟩
            · obtain ⟨-, hsame⟩ := List.append_inj' hsplit rfl
              rw [List.singleton_inj.mp hsame]
              exact h
            · rw [List.concat_eq_append, ← List.cons_append, ← List.append_assoc] at hsplit
              obtain ⟨-, hsame⟩ := List.append_inj' hsplit rfl
              have hl := hbetween l (by simp)
              rw [← List.singleton_inj.mp hsame, hline] at hl
              cases hl
      | false =>
          rw [if_neg Bool.false_ne_true, ih]
          constructor
          · rintro ⟨before, status, between, rfl, h, hbetween⟩
            refine ⟨before, status, between ++ [line], by simp, h, fun l hl => ?_⟩
            rcases List.mem_append.mp hl with hl | hl
            · exact hbetween l hl
            · rw [List.mem_singleton.mp hl]
              exact hline
          · rintro ⟨before, status, between, hsplit, h, hbetween⟩
            rcases List.eq_nil_or_concat between with rfl | ⟨between', l, rfl⟩
            · obtain ⟨-, hsame⟩ := List.append_inj' hsplit rfl
              rw [List.singleton_inj.mp hsame, h.isStatusLine] at hline
              cases hline
            · rw [List.concat_eq_append, ← List.cons_append, ← List.append_assoc] at hsplit
              obtain ⟨hrest, -⟩ := List.append_inj' hsplit rfl
              exact ⟨before, status, between', hrest, h, fun l hl => hbetween l (by simp [hl])⟩

theorem not_isStatusLine_of_location {line : Text}
    (h : headerNameIs line (text "location:") = true) : isStatusLine line = false := by
  simp only [headerNameIs, Bool.and_eq_true, decide_eq_true_eq, beq_iff_eq] at h
  by_contra hs
  have hs : (text "HTTP/").isPrefixOf line = true := by simpa [isStatusLine] using hs
  obtain ⟨rest, rfl⟩ := List.isPrefixOf_iff_prefix.mp hs
  have hhead : some (104 : UInt8) = some 108 := congrArg List.head? h.2
  exact absurd hhead (by decide)

theorem heeds_cons {curl : Libcurl} {url : Text} {status : Int} {first : Text} {rest : List Text} :
    Heeds curl url status (first :: rest) ↔
      (leaves curl url first = true ∧ isRedirect status = true) ∨
        Heeds curl url (lastStatus status [first]) rest := by
  constructor
  · rintro ⟨before, line, after, hsplit, hleaves, hstatus⟩
    cases before with
    | nil =>
        obtain ⟨rfl, -⟩ := List.cons.inj hsplit
        exact Or.inl ⟨hleaves, hstatus⟩
    | cons l before =>
        obtain ⟨rfl, hrest⟩ := List.cons.inj hsplit
        exact Or.inr ⟨before, line, after, hrest, hleaves, hstatus⟩
  · rintro (⟨hleaves, hstatus⟩ | ⟨before, line, after, rfl, hleaves, hstatus⟩)
    · exact ⟨[], first, rest, rfl, hleaves, hstatus⟩
    · exact ⟨first :: before, line, after, rfl, hleaves, hstatus⟩

/-- With both options set, the guard refuses a line exactly where one is heeded. -/
theorem guardStops_iff {curl : Libcurl} {http : HttpRequestOptions} {url : Text}
    (hfollow : http.followRedirects = true) (hsame : http.sameOriginRedirectsOnly = true)
    (status : Int) (lines : List Text) :
    guardStops curl http url status lines = true ↔ Heeds curl url status lines := by
  induction lines generalizing status with
  | nil =>
      refine iff_of_false (by simp [guardStops]) ?_
      rintro ⟨before, line, after, hnil, -⟩
      simp at hnil
  | cons first rest ih =>
      rw [heeds_cons]
      cases hs : isStatusLine first with
      | true =>
          have hstay : leaves curl url first = false := by
            cases hn : headerNameIs first (text "location:") with
            | false => simp [leaves, hn]
            | true =>
                rw [not_isStatusLine_of_location hn] at hs
                cases hs
          simp [guardStops, hs, ih, hstay, lastStatus]
      | false =>
          have hstops : stopsAt curl http url status first = true ↔
              leaves curl url first = true ∧ isRedirect status = true := by
            simp only [stopsAt, leaves, hfollow, hsame, Bool.and_true, Bool.and_eq_true]
            tauto
          simp [guardStops, hs, ih, hstops, lastStatus]

/-! ## Hops -/

/-- One response of a chain, as libcurl takes it apart. -/
structure Hop where
  version : Text
  code : Nat
  reason : Option Text
  fields : List Text
  version_plain : ∀ c ∈ version, c ≠ 32 := by decide +kernel
  code_lt : code < 1000 := by decide
deriving DecidableEq

/-- `HTTP/<version> <code>`, and perhaps a space and a reason phrase. -/
def Hop.statusLine (h : Hop) : Text :=
  text "HTTP/" ++ h.version ++ 32 :: decimal h.code ++
    (match h.reason with
      | none => []
      | some reason => 32 :: reason) ++ text "\r\n"

/-- All its header lines. -/
def Hop.lines (h : Hop) : List Text := h.statusLine :: h.fields

/-- The values of its `Location` headers. -/
def Hop.locations (h : Hop) : List Text :=
  (h.fields.filter (headerNameIs · (text "location:"))).map (headerValue · (text "location:"))

theorem Hop.isStatusLine_statusLine (h : Hop) : isStatusLine h.statusLine = true := by
  simp only [isStatusLine, Hop.statusLine, List.append_assoc, List.isPrefixOf_iff_prefix]
  exact List.prefix_append _ _

/-- karu reads the code only where a space comes after it. -/
theorem Hop.responseStatus_statusLine (h : Hop) :
    responseStatus h.statusLine = if h.reason.isSome then (h.code : Int) else 0 := by
  have hne := decimal_ne_nil h.code
  have hdigits := isDigit_of_mem_decimal h.code
  have hspace := digits_plain hdigits
  have hvalue : digitsValue (decimal h.code) < 2 ^ 63 := by
    have := h.code_lt
    rw [digitsValue_decimal]
    omega
  -- there are no more spaces in front of the code
  have hwords : ∀ {rest left : Text} {status : Int},
      fromCharsLong ((decimal h.code ++ rest).takeWhile (· != 32)) = some (status, left) →
      responseStatus (text "HTTP/" ++ (h.version ++ 32 :: (decimal h.code ++ rest))) =
        if left.isEmpty then status else 0 :=
    fun hparsed => @responseStatus_words h.version [] (decimal h.code) _ _ _ h.version_plain (by simp) hne hdigits hparsed
  cases hreason : h.reason with
  | none =>
      have hline : h.statusLine = text "HTTP/" ++ (h.version ++ 32 ::
          (decimal h.code ++ text "\r\n")) := by
        simp [Hop.statusLine, hreason]
      have htake : (decimal h.code ++ text "\r\n").takeWhile (· != 32) =
          decimal h.code ++ text "\r\n" := by
        rw [List.takeWhile_eq_self_iff]
        intro c hc
        rcases List.mem_append.mp hc with hc | hc
        · exact hspace c hc
        · have hcrlf : ∀ c ∈ text "\r\n", (c != 32) = true := by decide +kernel
          exact hcrlf c hc
      have hcrlf : ∀ c ∈ (text "\r\n").head?, isDigit c = false := by decide +kernel
      have hparsed := fromCharsLong_append hne hdigits hcrlf hvalue
      rw [hline, hwords ((congrArg fromCharsLong htake).trans hparsed)]
      rfl
  | some reason =>
      have hline : h.statusLine = text "HTTP/" ++ (h.version ++ 32 ::
          (decimal h.code ++ 32 :: (reason ++ text "\r\n"))) := by
        simp [Hop.statusLine, hreason]
      have htake : (decimal h.code ++ 32 :: (reason ++ text "\r\n")).takeWhile (· != 32) =
          decimal h.code ++ [] := by
        rw [List.append_nil]
        exact (takeWhile_append_of_all hspace (by simp)).1
      have hend : ∀ c ∈ ([] : Text).head?, isDigit c = false := by simp
      have hparsed := fromCharsLong_append hne hdigits hend hvalue
      rw [hline, hwords ((congrArg fromCharsLong htake).trans hparsed), digitsValue_decimal]
      rfl

/-- Some `Location` of the hop leads to another origin. -/
def Hop.Leaves (h : Hop) (curl : Libcurl) (url : Text) : Prop :=
  ∃ line ∈ h.fields, leaves curl url line = true

/-- Such a `Location` comes after a line that announces a redirect, with no other line between
them that begins like a status line. -/
def Hop.Announced (h : Hop) (curl : Libcurl) (url : Text) : Prop :=
  ∃ before status between line after, h.lines = before ++ status :: (between ++ line :: after) ∧
    AnnouncesRedirect status ∧ (∀ l ∈ between, isStatusLine l = false) ∧
    leaves curl url line = true

theorem Hop.heeds_iff_announced {h : Hop} {curl : Libcurl} {url : Text} :
    Heeds curl url 0 h.lines ↔ h.Announced curl url := by
  constructor
  · rintro ⟨before, line, after, hsplit, hleaves, hstatus⟩
    obtain ⟨first, status, between, rfl, hannounces, hbetween⟩ := (lastStatus_redirect _).mp hstatus
    refine ⟨first, status, between, line, after, ?_, hannounces, hbetween, hleaves⟩
    rw [hsplit, List.append_assoc, List.cons_append]
  · rintro ⟨first, status, between, line, after, hsplit, hannounces, hbetween, hleaves⟩
    refine ⟨first ++ status :: between, line, after, ?_, hleaves, ?_⟩
    · rw [hsplit, List.append_assoc, List.cons_append]
    · exact (lastStatus_redirect _).mpr ⟨first, status, between, rfl, hannounces, hbetween⟩

/-- A space comes after the code of a redirect: after that of the status line, where no header
line of the response begins like one. -/
structure Hop.Spaced (h : Hop) (curl : Libcurl) (url : Text) : Prop where
  reason : (∀ line ∈ h.fields, isStatusLine line = false) → h.reason.isSome = true
  announced : ¬ (∀ line ∈ h.fields, isStatusLine line = false) → h.Announced curl url

/-- For header lines that do not look like status lines, the space decides. -/
theorem Hop.heeds_iff_reason {h : Hop} {curl : Libcurl} {url : Text}
    (hredirect : isRedirect h.code = true) (hleaves : h.Leaves curl url)
    (hfields : ∀ line ∈ h.fields, isStatusLine line = false) :
    Heeds curl url 0 h.lines ↔ h.reason.isSome = true := by
  have hkeep : ∀ (lines : List Text) (status : Int), (∀ line ∈ lines, isStatusLine line = false) →
      lastStatus status lines = status := by
    intro lines
    induction lines with
    | nil => exact fun _ _ => rfl
    | cons l ls ih =>
        intro status hls
        simp only [lastStatus, List.foldl_cons, hls l List.mem_cons_self, Bool.false_eq_true, if_false]
        exact ih status fun line hline => hls line (List.mem_cons_of_mem _ hline)
  have hstay : leaves curl url h.statusLine = false := by
    cases hn : headerNameIs h.statusLine (text "location:") with
    | false => simp [leaves, hn]
    | true =>
        have := not_isStatusLine_of_location hn
        rw [h.isStatusLine_statusLine] at this
        cases this
  have hstatus : lastStatus 0 [h.statusLine] = if h.reason.isSome then (h.code : Int) else 0 := by
    simp only [lastStatus, List.foldl_cons, List.foldl_nil, h.isStatusLine_statusLine, if_true]
    exact h.responseStatus_statusLine
  rw [Hop.lines, heeds_cons, hstay, hstatus]
  constructor
  · rintro (⟨hno, -⟩ | ⟨before, line, after, hsplit, -, hread⟩)
    · cases hno
    · rw [hkeep before _ fun l hl => hfields l (by rw [hsplit]; simp [hl])] at hread
      by_contra hnone
      rw [if_neg hnone] at hread
      cases hread
  · intro hsome
    obtain ⟨line, hline, hl⟩ := hleaves
    obtain ⟨before, after, hsplit⟩ := List.append_of_mem hline
    refine Or.inr ⟨before, line, after, hsplit, hl, ?_⟩
    rw [hkeep before _ fun l hl => hfields l (by rw [hsplit]; simp [hl]), if_pos hsome]
    exact hredirect

theorem Hop.heeds_iff_spaced {h : Hop} {curl : Libcurl} {url : Text}
    (hredirect : isRedirect h.code = true) (hleaves : h.Leaves curl url) :
    Heeds curl url 0 h.lines ↔ h.Spaced curl url := by
  by_cases hfields : ∀ line ∈ h.fields, isStatusLine line = false
  · rw [h.heeds_iff_reason hredirect hleaves hfields]
    exact ⟨fun hsome => ⟨fun _ => hsome, fun hno => absurd hfields hno⟩, fun hh => hh.reason hfields⟩
  · rw [h.heeds_iff_announced]
    exact ⟨fun hh => ⟨fun hno => absurd hno hfields, fun _ => hh⟩, fun hh => hh.announced hfields⟩

/-! ## Chains -/

/-- What libcurl makes of a chain of responses, given what a header callback makes of their
lines: the URLs it sends requests to.  A redirect with a `Location` is followed, to any one
of them where there are several; a short count aborts the transfer; any other response, an
interim one for instance, leads nowhere. -/
inductive Chain {σ : Type} (curl : Libcurl) (callback : Text → σ → σ × Bool) :
    σ → curl.Url → List Hop → List curl.Url → Prop
  | sent {s : σ} {u : curl.Url} : Chain curl callback s u [] [u]
  | aborted {s : σ} {u : curl.Url} {h : Hop} {hops : List Hop} :
      (feed callback h.lines s).2 = false → Chain curl callback s u (h :: hops) [u]
  | answered {s : σ} {u : curl.Url} {h : Hop} {hops : List Hop} {us : List curl.Url} :
      (feed callback h.lines s).2 = true → (isRedirect h.code = false ∨ h.locations = []) →
      Chain curl callback (feed callback h.lines s).1 u hops us →
      Chain curl callback s u (h :: hops) us
  | followed {s : σ} {u u' : curl.Url} {h : Hop} {hops : List Hop} {us : List curl.Url}
      {location : Text} :
      (feed callback h.lines s).2 = true → isRedirect h.code = true → location ∈ h.locations →
      curl.resolve u location = some u' →
      Chain curl callback (feed callback h.lines s).1 u' hops us →
      Chain curl callback s u (h :: hops) (u :: us)

/-- A header callback that has the guard, and an invariant of its state that keeps the
guard's settings. -/
structure HasGuard {σ : Type} (curl : Libcurl) (url : Text) (callback : Text → σ → σ × Bool)
    (I : σ → Prop) : Prop where
  refuses : ∀ (h : Hop) s, I s → ((feed callback h.lines s).2 = false ↔ Heeds curl url 0 h.lines)
  keeps : ∀ (h : Hop) s, I s → I (feed callback h.lines s).1

theorem HasGuard.chain_origin {σ : Type} {curl : Libcurl} {url : Text}
    {callback : Text → σ → σ × Bool} {I : σ → Prop} (hguard : HasGuard curl url callback I)
    (hrelative : curl.Relative) {u₀ : curl.Url} (hparse : curl.parse url = some u₀)
    {s : σ} {u : curl.Url} {hops : List Hop} {us : List curl.Url}
    (hchain : Chain curl callback s u hops us) (hs : I s) (hu : curl.origin u = curl.origin u₀)
    (hspaced : ∀ h ∈ hops, isRedirect h.code = true → h.Leaves curl url → h.Spaced curl url) :
    ∀ v ∈ us, curl.origin v = curl.origin u₀ := by
  induction hchain with
  | sent => simpa using hu
  | aborted => simpa using hu
  | @answered s u h hops us _ _ _ ih =>
      exact ih (hguard.keeps h s hs) hu fun k hk => hspaced k (List.mem_cons_of_mem _ hk)
  | @followed s u u' h hops us location hgo hredirect hlocation hresolve _ ih =>
      -- a hop that is let pass has no `Location` that leaves
      have hstays : sameOriginRedirect curl url location = true := by
        obtain ⟨line, hline, rfl⟩ := List.mem_map.mp hlocation
        rw [List.mem_filter] at hline
        by_contra hno
        have hleaves : leaves curl url line = true := by
          simp only [leaves, hline.2, Bool.true_and]
          simpa using hno
        have hout : h.Leaves curl url := ⟨line, hline.1, hleaves⟩
        have hrefused := (hguard.refuses h s hs).mpr
          ((h.heeds_iff_spaced hredirect hout).mpr (hspaced h List.mem_cons_self hredirect hout))
        rw [hgo] at hrefused
        cases hrefused
      obtain ⟨v, hv, horigin⟩ := sameOriginRedirect_origin hparse hstays
      have hu' : curl.origin u' = curl.origin u₀ :=
        (hrelative u u₀ location u' v hu hresolve hv).trans horigin
      have hrest := ih (hguard.keeps h s hs) hu' fun k hk => hspaced k (List.mem_cons_of_mem _ hk)
      intro w hw
      rcases List.mem_cons.mp hw with rfl | hw
      · exact hu
      · exact hrest w hw

/-! ## The two callbacks -/

/-- One line of a callback that has the guard. -/
structure GuardsLine {σ : Type} (curl : Libcurl) (status : σ → Int)
    (settings : σ → HttpRequestOptions × Text) (line : Text) (s : σ) (x : σ × Bool) : Prop where
  accepted_eq : x.2 = (isStatusLine line ||
    !stopsAt curl (settings s).1 (settings s).2 (status s) line)
  status_eq : status x.1 = if isStatusLine line then responseStatus line else status s
  settings_eq : settings x.1 = settings s

theorem feed_guard {σ : Type} {curl : Libcurl} {status : σ → Int}
    {settings : σ → HttpRequestOptions × Text} {callback : Text → σ → σ × Bool}
    (hline : ∀ line s, GuardsLine curl status settings line s (callback line s)) :
    ∀ (lines : List Text) (s : σ),
      (feed callback lines s).2 =
          !guardStops curl (settings s).1 (settings s).2 (status s) lines ∧
        settings (feed callback lines s).1 = settings s
  | [], _ => ⟨rfl, rfl⟩
  | line :: lines, s => by
      obtain ⟨haccepted, hstatus, hsettings⟩ := hline line s
      have ih := feed_guard hline lines (callback line s).1
      rw [hstatus, hsettings] at ih
      cases hl : isStatusLine line with
      | true =>
          rw [hl, Bool.true_or] at haccepted
          rw [feed_cons_true haccepted]
          simpa [guardStops, hl] using ih
      | false =>
          rw [hl, Bool.false_or] at haccepted
          cases hstop : stopsAt curl (settings s).1 (settings s).2 (status s) line with
          | true =>
              rw [hstop] at haccepted
              rw [feed_cons_false haccepted]
              simp [guardStops, hl, hstop, hsettings]
          | false =>
              rw [hstop] at haccepted
              rw [feed_cons_true haccepted]
              simpa [guardStops, hl, hstop] using ih

/-- Such a callback has the guard over whole responses, with both options set. -/
theorem hasGuard_of_line {σ : Type} {curl : Libcurl} {status : σ → Int} (url : Text)
    {settings : σ → HttpRequestOptions × Text} {callback : Text → σ → σ × Bool}
    (hline : ∀ line s, GuardsLine curl status settings line s (callback line s)) :
    HasGuard curl url callback fun s =>
      settings s = (⟨true, true⟩, url) where
  refuses := by
    intro h s hs
    have hstart : guardStops curl (settings s).1 (settings s).2 (status s) h.lines =
        guardStops curl (settings s).1 (settings s).2 0 h.lines := by
      simp [Hop.lines, guardStops, h.isStatusLine_statusLine]
    rw [(feed_guard hline h.lines s).1, hstart, hs, Bool.not_eq_false']
    exact guardStops_iff rfl rfl 0 h.lines
  keeps := by
    intro h s hs
    exact (feed_guard hline h.lines s).2.trans hs

theorem headerCallback_guards (curl : Libcurl) (now : Int) (line : Text) (t : Transfer) :
    GuardsLine curl (·.httpStatus) (fun t => (t.http, t.requestUrl)) line t
      (headerCallback curl now line t) := by
  have hcore := core_headerCallback curl now line t
  have hsettings : ((headerCallback curl now line t).1.http,
      (headerCallback curl now line t).1.requestUrl) = (t.http, t.requestUrl) :=
    field_of_core (fun t => (t.http, t.requestUrl)) hcore
  cases hl : isStatusLine line with
  | true =>
      rw [headerCallback_status hl] at hsettings ⊢
      exact ⟨by rw [hl]; rfl, by rw [hl]; rfl, hsettings⟩
  | false =>
      have hstatus : (headerCallback curl now line t).1.httpStatus = t.httpStatus :=
        field_of_progress (·.httpStatus) (progress_headerCallback hl curl now t)
      refine ⟨?_, by rw [hl]; exact hstatus, hsettings⟩
      have hguard : blocksRedirect curl line t =
          stopsAt curl t.http t.requestUrl t.httpStatus line := rfl
      rw [hl, Bool.false_or, ← hguard]
      rcases headerCallback_cases hl curl now t with ⟨t', he, -⟩ | ⟨hb, he⟩
      · have hb : blocksRedirect curl line t = false := by
          by_contra hyes
          have hrefused : (headerCallback curl now line t).2 = false := by
            rw [Bool.not_eq_false] at hyes
            simp [headerCallback, hl, hyes]
          rw [he] at hrefused
          cases hrefused
        rw [he, hb]
        rfl
      · rw [he, hb]
        rfl

theorem probeHeaderCallback_guards (curl : Libcurl) (now : Int) (line : Text) (p : ProbeState) :
    GuardsLine curl (·.httpStatus) (fun p => (p.http, p.originalUrl)) line p
      (probeHeaderCallback curl now line p) := by
  cases hl : isStatusLine line with
  | true =>
      have hstep : probeHeaderCallback curl now line p =
          ({ p.resetResponse with httpStatus := responseStatus line }, true) := by
        simp [probeHeaderCallback, hl]
      rw [hstep]
      exact ⟨by rw [hl]; rfl, by rw [hl]; rfl, rfl⟩
  | false =>
      have hguard : p.blocksRedirect curl line =
          stopsAt curl p.http p.originalUrl p.httpStatus line := rfl
      rcases probeHeaderCallback_cases hl curl now p with ⟨hb, hgo, hn⟩ | ⟨hb, he⟩
      · have hkeep := hn.progress_eq
        refine ⟨?_, ?_, ?_⟩
        · rw [hl, Bool.false_or, ← hguard, hgo, hb]
          rfl
        · rw [hl]
          exact ProbeState.field_of_progress (·.httpStatus) hkeep
        · exact ProbeState.field_of_progress (fun p => (p.http, p.originalUrl)) hkeep
      · rw [he]
        refine ⟨?_, by rw [hl]; rfl, rfl⟩
        rw [hl, Bool.false_or, ← hguard, hb]
        rfl

/-- For either header callback, with `follow_redirects` and `same_origin_redirects_only`
set: a redirect to another origin is refused exactly when a space comes after its code, and in a
chain where it does in all of them no request goes to another origin than the first. -/
theorem redirects_keep_origin (curl : Libcurl) (hrelative : curl.Relative) (now : Int)
    {url : Text} {u₀ : curl.Url} (hparse : curl.parse url = some u₀) :
    (∀ t : Transfer, t.http = ⟨true, true⟩ → t.requestUrl = url →
      (∀ h : Hop, isRedirect h.code = true → h.Leaves curl url →
        ((feed (headerCallback curl now) h.lines t).2 = false ↔ h.Spaced curl url)) ∧
      ∀ hops us, Chain curl (headerCallback curl now) t u₀ hops us →
        (∀ h ∈ hops, isRedirect h.code = true → h.Leaves curl url → h.Spaced curl url) →
        ∀ u ∈ us, curl.origin u = curl.origin u₀) ∧
    (∀ p : ProbeState, p.http = ⟨true, true⟩ → p.originalUrl = url →
      (∀ h : Hop, isRedirect h.code = true → h.Leaves curl url →
        ((feed (probeHeaderCallback curl now) h.lines p).2 = false ↔ h.Spaced curl url)) ∧
      ∀ hops us, Chain curl (probeHeaderCallback curl now) p u₀ hops us →
        (∀ h ∈ hops, isRedirect h.code = true → h.Leaves curl url → h.Spaced curl url) →
        ∀ u ∈ us, curl.origin u = curl.origin u₀) := by
  constructor
  · intro t hhttp hurl
    have hguard := hasGuard_of_line url (headerCallback_guards curl now)
    have ht : (t.http, t.requestUrl) = (⟨true, true⟩, url) := by rw [hhttp, hurl]
    refine ⟨fun h hredirect hleaves => ?_, fun hops us hchain hall => ?_⟩
    · rw [hguard.refuses h t ht]
      exact h.heeds_iff_spaced hredirect hleaves
    · exact hguard.chain_origin hrelative hparse hchain ht rfl hall
  · intro p hhttp hurl
    have hguard := hasGuard_of_line url (probeHeaderCallback_guards curl now)
    have hp : (p.http, p.originalUrl) = (⟨true, true⟩, url) := by rw [hhttp, hurl]
    refine ⟨fun h hredirect hleaves => ?_, fun hops us hchain hall => ?_⟩
    · rw [hguard.refuses h p hp]
      exact h.heeds_iff_spaced hredirect hleaves
    · exact hguard.chain_origin hrelative hparse hchain hp rfl hall

/-! ## A chain in full -/

/-- Scheme, host and port of an absolute URL. -/
def absoluteUrl (url : Text) : Option (Text × Text × Text) :=
  match findText (text "://") url with
  | none => none
  | some n =>
      let authority := (url.drop (n + 3)).takeWhile fun c => !(text "/?#").contains c
      let port := (authority.dropWhile (· != 58)).drop 1
      some (url.take n, authority.takeWhile (· != 58),
        if !port.isEmpty then port else if url.take n = text "http" then text "80" else text "443")

/-- A URL handle for absolute URLs and for paths. -/
def Libcurl.absolute : Libcurl where
  Url := Text × Text × Text
  parse := absoluteUrl
  resolve u location :=
    if (findText (text "://") location).isSome then absoluteUrl location else some u
  scheme u := some u.1
  host u := some u.2.1
  port u := some u.2.2
  getdate _ := -1

theorem absolute_relative : Libcurl.absolute.Relative := by
  intro u v location u' v' horigin hu hv
  simp only [Libcurl.absolute] at hu hv
  split at hu
  · rw [if_pos ‹_›] at hv
    rw [Option.some.inj (hu.symm.trans hv)]
  · rw [if_neg ‹_›] at hv
    cases hu
    cases hv
    exact horigin

/-- The origin of the chain. -/
def home : Libcurl.absolute.Url := (text "https", text "a.example", text "443")

theorem absolute_home : Libcurl.absolute.parse (text "https://a.example/x") = some home := by
  have h : absoluteUrl (text "https://a.example/x") =
      some (text "https", text "a.example", text "443") := by decide
  exact h

/-- A transfer whose headers must stay there. -/
def headedRead : Transfer where
  locator := { backend := .http, canonicalUri := text "https://a.example/x" }
  requestUrl := text "https://a.example/x"
  http := ⟨true, true⟩

/-- A redirect within the origin. -/
def hopWithin : Hop where
  version := text "1.1"
  code := 302
  reason := some (text "Found")
  fields := [text "Location: /y\r\n"]

/-- A redirect out of it. -/
def hopOut : Hop where
  version := text "1.1"
  code := 302
  reason := some (text "Found")
  fields := [text "Location: https://b.example/\r\n"]

theorem hopWithin_stays : ¬ hopWithin.Leaves .absolute (text "https://a.example/x") := by
  rintro ⟨line, hline, hleaves⟩
  have hnone : ∀ line ∈ hopWithin.fields,
      leaves .absolute (text "https://a.example/x") line = false := by decide
  rw [hnone line hline] at hleaves
  cases hleaves

theorem hopOut_spaced : hopOut.Spaced .absolute (text "https://a.example/x") where
  reason _ := rfl
  announced hno := absurd (by decide) hno

theorem redirects_keep_origin_headed :
    (feed (headerCallback .absolute 0) hopOut.lines headedRead).2 = false ∧
      ∀ us, Chain .absolute (headerCallback .absolute 0) headedRead home [hopWithin, hopOut] us →
        ∀ u ∈ us, Libcurl.absolute.origin u = Libcurl.absolute.origin home := by
  have hboth := (redirects_keep_origin .absolute absolute_relative 0 absolute_home).1 headedRead
    rfl rfl
  refine ⟨(hboth.1 hopOut (by decide) ⟨_, List.mem_cons_self, by decide⟩).mpr hopOut_spaced,
    fun us hchain => hboth.2 _ us hchain ?_⟩
  intro h hh _ hleaves
  rcases List.mem_pair.mp hh with rfl | rfl
  · exact absurd hleaves hopWithin_stays
  · exact hopOut_spaced

/-- The same redirect out of the origin, without a space after the code. -/
def hopBare : Hop where
  version := text "1.1"
  code := 302
  reason := none
  fields := [text "Location: https://b.example/\r\n"]

/-- It is let pass, and the second request goes to another origin. -/
theorem hopBare_followed :
    (feed (headerCallback .absolute 0) hopBare.lines headedRead).2 = true ∧
      hopBare.statusLine = text "HTTP/1.1 302\r\n" ∧
      (∃ u, Chain .absolute (headerCallback .absolute 0) headedRead home [hopBare] [home, u] ∧
        Libcurl.absolute.origin u ≠ Libcurl.absolute.origin home) := by
  refine ⟨by decide, by decide, (text "https", text "b.example", text "443"), ?_, ?_⟩
  · have hlocation : text "https://b.example/" ∈ hopBare.locations := by decide
    have hresolve : Libcurl.absolute.resolve home (text "https://b.example/") =
        some (text "https", text "b.example", text "443") := by
      have h : absoluteUrl (text "https://b.example/") =
          some (text "https", text "b.example", text "443") := by decide
      exact h
    exact .followed (by decide) (by decide) hlocation hresolve .sent
  · have hne : some (text "https", text "b.example", text "443") ≠
        some (text "https", text "a.example", text "443") := by decide
    exact hne

end Karu
