/-
# `Karu.Backends.Endpoint` — where a prepared request goes

A URL is put together from an endpoint, a container and a key.  The key is
percent-encoded; the container is not, and neither is the rest of the endpoint.
`cut` reads the URL back the way a client does: the authority ends at the first
`/`, `?` or `#`, the path at the first `?` or `#`.

`Names` says that what is read back is the endpoint's scheme, the endpoint's
authority (behind the container's name, for virtual hosting), the endpoint's
path with the object appended, and no query but a SAS token.  It holds exactly
when the container has neither `?` nor `#` and the endpoint does not spoil it
by itself: with a `?` at its end, where the object is appended to its text, or
with a path of nothing but slashes, where the path is appended to a host.
-/
import Mathlib.Data.List.TakeWhile
import Karu.Objects
import Karu.Backends.Prepare

namespace Karu

open Base

namespace Backends

/-! ## Reading a URL back -/

/-- Where an authority ends. -/
def delimits (c : UInt8) : Bool := c == 47 || c == 63 || c == 35

/-- Where a path ends. -/
def endsPath (c : UInt8) : Bool := c == 63 || c == 35

/-- A URL cut at its delimiters. -/
def cut (url : Text) : Option UrlParts :=
  (findText (text "://") url).map fun marker =>
    let rest := url.drop (marker + 3)
    let behind := rest.dropWhile (!delimits ·)
    let tail := behind.dropWhile (!endsPath ·)
    { scheme := lower (url.take marker)
      authority := rest.takeWhile (!delimits ·)
      path := behind.takeWhile (!endsPath ·)
      query := if tail.head? = some 63 then tail.tail.takeWhile (· != 35) else [] }

/-- A path without the slashes at its end. -/
def bare (path : Text) : Text := (path.reverse.dropWhile (· == 47)).reverse

/-- The URL names the object at the endpoint. -/
def Names (endpoint : UrlParts) (virtualHosting : Bool) (container key query url : Text) : Prop :=
  cut url = some
    { scheme := endpoint.scheme
      authority :=
        if virtualHosting then container ++ text "." ++ endpoint.authority else endpoint.authority
      path := bare endpoint.path ++ (if virtualHosting then [] else text "/" ++ container) ++
        text "/" ++ Uri.encodePath key
      query }

/-- The container has no character that ends an authority or a path. -/
def Plain (container : Text) : Prop := (63 : UInt8) ∉ container ∧ (35 : UInt8) ∉ container

/-- What is read back has no delimiter where it would have been cut. -/
theorem cut_clean {url : Text} {parts : UrlParts} (h : cut url = some parts) :
    (∀ c ∈ parts.authority, delimits c = false) ∧ (∀ c ∈ parts.path, endsPath c = false) ∧
      (35 : UInt8) ∉ parts.query := by
  obtain ⟨marker, -, rfl⟩ := Option.map_eq_some_iff.mp h
  refine ⟨fun c hc => by simpa using List.mem_takeWhile_imp hc,
    fun c hc => by simpa using List.mem_takeWhile_imp hc, fun hmem => ?_⟩
  dsimp only at hmem
  split at hmem
  · exact absurd (List.mem_takeWhile_imp hmem) (by decide)
  · cases hmem

/-- The three pieces a URL is cut into. -/
theorem cut_spelled {scheme authority path tail : Text} (hscheme : (58 : UInt8) ∉ scheme)
    (hauthority : ∀ c ∈ authority, delimits c = false)
    (hpath : ∀ c ∈ path, endsPath c = false) (hbegin : ∀ c ∈ (path ++ tail).head?, delimits c = true)
    (htail : ∀ c ∈ tail.head?, endsPath c = true) :
    cut (scheme ++ (text "://" ++ (authority ++ (path ++ tail)))) =
      some { scheme := lower scheme, authority, path
             query := if tail.head? = some 63 then tail.tail.takeWhile (· != 35) else [] } := by
  have hfind : findText (text "://") (scheme ++ (text "://" ++ (authority ++ (path ++ tail)))) =
      some scheme.length := findText_append _ hscheme
  have hrest : (scheme ++ (text "://" ++ (authority ++ (path ++ tail)))).drop (scheme.length + 3) =
      authority ++ (path ++ tail) := by
    have hlen : (text "://").length = 3 := by decide
    rw [List.drop_append, List.drop_eq_nil_of_le (by omega), List.nil_append,
      Nat.add_sub_cancel_left, List.drop_left' hlen]
  have hbehind : (authority ++ (path ++ tail)).takeWhile (!delimits ·) = authority ∧
      (authority ++ (path ++ tail)).dropWhile (!delimits ·) = path ++ tail :=
    takeWhile_append_of_all (fun c hc => by simp [hauthority c hc])
      (fun c hc => by simp [hbegin c hc])
  have hend : (path ++ tail).takeWhile (!endsPath ·) = path ∧
      (path ++ tail).dropWhile (!endsPath ·) = tail :=
    takeWhile_append_of_all (fun c hc => by simp [hpath c hc]) (fun c hc => by simp [htail c hc])
  rw [cut, hfind, Option.map_some]
  simp only [hrest, hbehind.1, hbehind.2, hend.1, hend.2, List.take_left]

/-! ## Trailing slashes -/

theorem popSlashes_append {a : UInt8} (as : Text) (ha : a ≠ 47) :
    ∀ r : Text, popSlashes (r ++ a :: as) = r.dropWhile (· == 47) ++ a :: as
  | [] => by
      cases as with
      | nil => rfl
      | cons b bs =>
          rw [List.nil_append, popSlashes, if_neg ha]
          rfl
  | c :: r => by
      obtain ⟨d, ds, hd⟩ : ∃ d ds, r ++ a :: as = d :: ds := by
        cases r with
        | nil => exact ⟨a, as, rfl⟩
        | cons d ds => exact ⟨d, ds ++ a :: as, rfl⟩
      rw [List.cons_append, hd, popSlashes]
      by_cases hc : c = 47
      · rw [if_pos hc, ← hd, popSlashes_append as ha r, hc]
        rfl
      · have hc' : (c == 47) = false := by simpa using hc
        rw [if_neg hc, ← hd, List.dropWhile_cons, hc']
        rfl

/-- Behind something that does not end in a slash, every trailing slash goes. -/
theorem withoutTrailingSlash_append {front : Text} {a : UInt8} (ha : a ≠ 47) (path : Text) :
    withoutTrailingSlash (front ++ a :: path) = front ++ a :: bare path := by
  have hrev : (front ++ a :: path).reverse = path.reverse ++ a :: front.reverse := by simp
  rw [withoutTrailingSlash, hrev, popSlashes_append _ ha, bare]
  simp

/-- A path is what is left of it and slashes. -/
theorem bare_split (path : Text) : ∃ slashes, path = bare path ++ slashes ∧ ∀ c ∈ slashes, c = 47 := by
  refine ⟨(path.reverse.takeWhile (· == 47)).reverse, ?_, ?_⟩
  · rw [bare, ← List.reverse_append, List.takeWhile_append_dropWhile, List.reverse_reverse]
  · intro c hc
    simpa using List.mem_takeWhile_imp (List.mem_reverse.mp hc)

/-- What is left does not end in a slash. -/
theorem bare_last {path front : Text} {a : UInt8} (h : bare path = front ++ [a]) : a ≠ 47 := by
  rintro rfl
  have hrev : path.reverse.dropWhile (· == 47) = 47 :: front.reverse := by
    have := congrArg List.reverse h
    simpa [bare] using this
  have hnot := List.dropWhile_get_zero_not (p := (· == 47)) path.reverse (by rw [hrev]; simp)
  simp [hrev] at hnot

theorem bare_slashes {slashes : Text} (h : ∀ c ∈ slashes, c = 47) : bare slashes = [] := by
  have hdrop : slashes.reverse.dropWhile (· == 47) = [] :=
    List.dropWhile_eq_nil_iff.mpr fun c hc => by simpa using h c (List.mem_reverse.mp hc)
  rw [bare, hdrop]
  rfl

theorem withoutTrailingSlash_of_bare {path : Text} (h : bare path ≠ []) :
    withoutTrailingSlash path = bare path := by
  obtain ⟨slashes, hpath, hslashes⟩ := bare_split path
  obtain ⟨front, a, hfront⟩ : ∃ front a, bare path = front ++ [a] :=
    ⟨_, _, (List.dropLast_append_getLast h).symm⟩
  have hspelled : path = front ++ a :: slashes := by
    rw [hpath, hfront]
    simp
  rw [hfront, hspelled, withoutTrailingSlash_append (bare_last hfront), bare_slashes hslashes]

/-- Of a path of slashes only one stays. -/
theorem withoutTrailingSlash_of_slashes {path : Text} (hne : path ≠ []) (h : bare path = []) :
    withoutTrailingSlash path = [47] := by
  obtain ⟨slashes, hpath, hslashes⟩ := bare_split path
  rw [h, List.nil_append] at hpath
  have hpop : ∀ r : Text, r ≠ [] → (∀ c ∈ r, c = 47) → popSlashes r = [47] := by
    intro r
    induction r with
    | nil => exact fun hne _ => (hne rfl).elim
    | cons c r ih =>
        intro _ hall
        have hc : c = 47 := hall c List.mem_cons_self
        cases r with
        | nil => rw [popSlashes, hc]; simp
        | cons d r =>
            rw [popSlashes, if_pos hc]
            exact ih (by simp) fun x hx => hall x (List.mem_cons_of_mem _ hx)
  rw [withoutTrailingSlash, hpop path.reverse (by simpa using hne) (by
    intro c hc
    exact hslashes c (hpath ▸ List.mem_reverse.mp hc))]
  rfl

/-! ## Endpoints -/

/-- How an accepted endpoint is spelled. -/
structure Accepted (endpoint : Text) (parts : UrlParts) (scheme behind : Text) : Prop where
  spelled : endpoint = scheme ++ (text "://" ++ (parts.authority ++ behind))
  scheme_eq : lower scheme = parts.scheme
  known : parts.scheme = text "http" ∨ parts.scheme = text "https"
  authority_ne : parts.authority ≠ []
  authority_clean : ∀ c ∈ parts.authority, delimits c = false
  behind_clean : (35 : UInt8) ∉ behind
  behind_head : ∀ c ∈ behind.head?, c = 47 ∨ c = 63
  split : splitPath behind = (parts.path, parts.query)

theorem splitUrl_accepted {endpoint : Text} {parts : UrlParts}
    (h : splitUrl endpoint = .ok parts) : ∃ scheme behind, Accepted endpoint parts scheme behind := by
  unfold splitUrl at h
  split at h
  · cases h
  · rename_i marker hmarker
    simp only at h
    split_ifs at h with hscheme hempty huser hhash
    cases h
    have hcut := findText_split hmarker
    have hlen : (text "://").length = 3 := by decide
    rw [hlen] at hcut
    generalize endpoint.take marker = scheme at hcut hscheme
    generalize endpoint.drop (marker + 3) = rest at hcut hempty huser hhash
    have hbehind : rest.drop (rest.takeWhile fun c => c != 47 && c != 63).length =
        rest.dropWhile fun c => c != 47 && c != 63 := by
      have hdrop := @List.drop_left _ (rest.takeWhile fun c => c != 47 && c != 63)
        (rest.dropWhile fun c => c != 47 && c != 63)
      rwa [List.takeWhile_append_dropWhile] at hdrop
    have hclean : (35 : UInt8) ∉ rest := by simpa using hhash
    refine ⟨scheme, rest.dropWhile fun c => c != 47 && c != 63, ?_, rfl, ?_, ?_, ?_, ?_, ?_, ?_⟩
    · rw [List.takeWhile_append_dropWhile, hcut, List.append_assoc]
    · by_contra hnot
      exact hscheme (not_or.mp hnot)
    · simpa using hempty
    · intro c hc
      have hp := List.mem_takeWhile_imp hc
      have hne : c ≠ 35 := fun heq => hclean (heq ▸ (List.takeWhile_prefix _).subset hc)
      simp only [Bool.and_eq_true, bne_iff_ne] at hp
      simp [delimits, hp.1, hp.2, hne]
    · exact fun hmem => hclean ((List.dropWhile_suffix _).subset hmem)
    · intro c hc
      have hnot := List.head?_dropWhile_not (fun c : UInt8 => c != 47 && c != 63) rest
      rw [Option.mem_def.mp hc] at hnot
      simp only [Bool.and_eq_false_iff, bne_eq_false_iff_eq] at hnot
      exact hnot
    · rw [hbehind]

section Named

variable {endpoint : Text} {parts : UrlParts} {scheme behind : Text}

theorem Accepted.colon (h : Accepted endpoint parts scheme behind) :
    (58 : UInt8) ∉ scheme ∧ (58 : UInt8) ∉ parts.scheme := by
  have hparts : (58 : UInt8) ∉ parts.scheme := by
    rcases h.known with hs | hs <;> rw [hs] <;> decide
  refine ⟨fun hmem => hparts ?_, hparts⟩
  rw [← h.scheme_eq]
  exact List.mem_map.mpr ⟨58, hmem, by decide⟩

theorem Accepted.lower_scheme (h : Accepted endpoint parts scheme behind) :
    lower parts.scheme = parts.scheme := by
  rcases h.known with hs | hs <;> rw [hs] <;> decide

/-- An endpoint without a query: its path, and perhaps a lone `?`. -/
theorem Accepted.no_query (h : Accepted endpoint parts scheme behind) (hquery : parts.query = []) :
    ∃ path tail, behind = path ++ tail ∧ (63 : UInt8) ∉ path ∧ (35 : UInt8) ∉ path ∧
      (tail = [] ∨ tail = [63]) ∧ parts.path = if path.isEmpty then text "/" else path := by
  have hsplit := h.split
  unfold splitPath at hsplit
  split at hsplit
  · rename_i hnone
    obtain ⟨hpath, -⟩ := Prod.mk.inj hsplit
    exact ⟨behind, [], by simp, find_none hnone, h.behind_clean, .inl rfl, hpath.symm⟩
  · rename_i query hsome
    obtain ⟨hpath, hrest⟩ := Prod.mk.inj hsplit
    obtain ⟨hcut, hbefore⟩ := find_split hsome
    rw [hrest, hquery] at hcut
    exact ⟨behind.take query, [63], hcut, hbefore,
      fun hmem => h.behind_clean (List.mem_of_mem_take hmem), .inr rfl, hpath.symm⟩

theorem bare_path {path : Text} : bare (if path.isEmpty then text "/" else path) = bare path := by
  cases path with
  | nil => decide
  | cons c cs => rfl

/-- A percent-encoded key ends nothing. -/
theorem encodePath_clean (key : Text) : ∀ c ∈ Uri.encodePath key, endsPath c = false := by
  have hall : ((List.range 256).all fun n =>
      (if Uri.isSafe (UInt8.ofNat n) then [UInt8.ofNat n]
        else [37, Uri.hex (UInt8.ofNat n >>> 4), Uri.hex (UInt8.ofNat n &&& 15)]).all
        fun c => !endsPath c) = true := by
    decide +kernel
  intro c hc
  obtain ⟨k, -, hk⟩ := List.mem_flatMap.mp hc
  have hofNat : UInt8.ofNat k.toNat = k := by simp
  have hclean := List.all_eq_true.mp hall k.toNat (List.mem_range.mpr k.toNat_lt)
  rw [hofNat] at hclean
  simpa using List.all_eq_true.mp hclean c hk

theorem bare_clean {path : Text} {p : UInt8 → Prop} (h : ∀ c ∈ path, p c) : ∀ c ∈ bare path, p c := by
  obtain ⟨slashes, hpath, -⟩ := bare_split path
  exact fun c hc => h c (hpath ▸ List.mem_append_left _ hc)

theorem endsPath_eq_false {c : UInt8} : endsPath c = false ↔ c ≠ 63 ∧ c ≠ 35 := by
  simp [endsPath]

/-- The last character of the authority is no slash. -/
theorem Accepted.authority_last (h : Accepted endpoint parts scheme behind) :
    ∃ front a, parts.authority = front ++ [a] ∧ a ≠ 47 := by
  refine ⟨_, _, (List.dropLast_append_getLast h.authority_ne).symm, ?_⟩
  intro ha
  have hclean := h.authority_clean _ (List.getLast_mem h.authority_ne)
  rw [ha] at hclean
  exact absurd hclean (by decide)

/-- A path from the endpoint starts with a slash. -/
theorem Accepted.path_head (h : Accepted endpoint parts scheme behind) {path tail : Text}
    (hbehind : behind = path ++ tail) (hpath : (63 : UInt8) ∉ path) : ∀ c ∈ path.head?, c = 47 := by
  intro c hc
  cases path with
  | nil => cases hc
  | cons d ds =>
      cases hc
      rcases h.behind_head c (by rw [hbehind]; rfl) with hc | hc
      · exact hc
      · exact (hpath (by rw [hc]; exact List.mem_cons_self)).elim

/-- The `?` of an endpoint stands behind its authority. -/
theorem Accepted.question_mem (h : Accepted endpoint parts scheme behind)
    (hmem : (63 : UInt8) ∈ endpoint) : (63 : UInt8) ∈ behind := by
  rw [h.spelled] at hmem
  simp only [List.mem_append] at hmem
  rcases hmem with hmem | hmem | hmem | hmem
  · have hlower : (63 : UInt8) ∈ parts.scheme := by
      rw [← h.scheme_eq]
      exact List.mem_map.mpr ⟨63, hmem, by decide⟩
    rcases h.known with hs | hs <;> rw [hs] at hlower <;> exact absurd hlower (by decide)
  · exact absurd hmem (by decide)
  · exact absurd (h.authority_clean _ hmem) (by decide)
  · exact hmem

/-- Behind a lone `?`, the object is read as a query: the path is the endpoint's own. -/
theorem Accepted.cut_behind_question (h : Accepted endpoint parts scheme behind) {path : Text}
    (hbehind : behind = path ++ [63]) (hpath : (63 : UInt8) ∉ path) (hhash : (35 : UInt8) ∉ path)
    (container key suffix : Text) {read : UrlParts}
    (hread : cut (appendObject endpoint container key ++ suffix) = some read) :
    read.path = path := by
  have hspelled : endpoint =
      (scheme ++ (text "://" ++ (parts.authority ++ path))) ++ 63 :: [] := by
    rw [h.spelled, hbehind]
    simp
  have hurl : appendObject endpoint container key ++ suffix =
      scheme ++ (text "://" ++ (parts.authority ++ (path ++ 63 ::
        (text "/" ++ container ++ text "/" ++ Uri.encodePath key ++ suffix)))) := by
    rw [appendObject, hspelled, withoutTrailingSlash_append (by decide), bare_slashes (by simp)]
    simp
  have hclean : ∀ c ∈ path, endsPath c = false := by
    intro c hc
    exact endsPath_eq_false.mpr ⟨fun heq => hpath (heq ▸ hc), fun heq => hhash (heq ▸ hc)⟩
  have hbegin : ∀ c ∈ (path ++ 63 ::
      (text "/" ++ container ++ text "/" ++ Uri.encodePath key ++ suffix)).head?,
      delimits c = true := by
    have hhead := h.path_head hbehind hpath
    intro c hc
    cases path with
    | nil =>
        cases hc
        rfl
    | cons d ds =>
        cases hc
        rw [hhead c rfl]
        rfl
  rw [hurl, cut_spelled h.colon.1 h.authority_clean hclean hbegin
    (fun c hc => by cases hc; rfl)] at hread
  cases hread
  rfl

/-- Without a `?`, the object is appended to the bare path. -/
theorem Accepted.cut_appended (h : Accepted endpoint parts scheme behind)
    (hpath : (63 : UInt8) ∉ behind) {container key : Text} (hplain : Plain container)
    {suffix : Text} (hsuffix : ∀ c ∈ suffix.head?, endsPath c = true) :
    cut (appendObject endpoint container key ++ suffix) = some
      { scheme := parts.scheme, authority := parts.authority
        path := bare behind ++ text "/" ++ container ++ text "/" ++ Uri.encodePath key
        query := if suffix.head? = some 63 then suffix.tail.takeWhile (· != 35) else [] } := by
  obtain ⟨front, a, hauthority, ha⟩ := h.authority_last
  have hspelled : endpoint = (scheme ++ (text "://" ++ front)) ++ a :: behind := by
    rw [h.spelled, hauthority]
    simp
  have hurl : appendObject endpoint container key ++ suffix =
      scheme ++ (text "://" ++ (parts.authority ++
        ((bare behind ++ text "/" ++ container ++ text "/" ++ Uri.encodePath key) ++ suffix))) := by
    rw [appendObject, hspelled, withoutTrailingSlash_append ha, hauthority]
    simp
  have hroot : text "/" = [47] := by decide
  have hclean : ∀ c ∈ bare behind ++ text "/" ++ container ++ text "/" ++ Uri.encodePath key,
      endsPath c = false := by
    intro c hc
    simp only [List.mem_append, hroot, List.mem_singleton] at hc
    rcases hc with (((hc | rfl) | hc) | rfl) | hc
    · refine bare_clean (p := fun c => endsPath c = false) (fun c hc => ?_) c hc
      exact endsPath_eq_false.mpr
        ⟨fun heq => hpath (heq ▸ hc), fun heq => h.behind_clean (heq ▸ hc)⟩
    · rfl
    · exact endsPath_eq_false.mpr ⟨fun heq => hplain.1 (heq ▸ hc), fun heq => hplain.2 (heq ▸ hc)⟩
    · rfl
    · exact encodePath_clean key c hc
  have hbegin : (bare behind ++ text "/" ++ container ++ text "/" ++ Uri.encodePath key).head? =
      some 47 := by
    obtain ⟨slashes, hslashes, -⟩ := bare_split behind
    cases hb : bare behind with
    | nil => rfl
    | cons d ds =>
        have hd := h.path_head (List.append_nil behind).symm hpath d (by rw [hslashes, hb]; rfl)
        rw [hd]
        rfl
  rw [hurl, cut_spelled h.colon.1 h.authority_clean hclean (fun c hc => by
    rw [List.head?_append, hbegin] at hc
    cases hc
    rfl) hsuffix, h.scheme_eq]

/-- Where the object is appended to the endpoint's text. -/
theorem appended_names (h : Accepted endpoint parts scheme behind) (hquery : parts.query = [])
    {container : Text} (hne : container ≠ []) (hslash : (47 : UInt8) ∉ container) (key : Text)
    (suffix query : Text)
    (hsuffix : Plain container → (63 : UInt8) ∉ endpoint →
      (suffix = [] ∧ query = []) ∨ suffix = 63 :: query) :
    Names parts false container key query (appendObject endpoint container key ++ suffix) ↔
      Plain container ∧ (63 : UInt8) ∉ endpoint ∧ (35 : UInt8) ∉ query := by
  obtain ⟨path, tail, hbehind, hpath, hhash, htail, hparts⟩ := h.no_query hquery
  have hbare : bare parts.path = bare path := hparts ▸ bare_path
  constructor
  · intro hnames
    obtain ⟨-, hpathClean, hqueryClean⟩ := cut_clean hnames
    have hcontainer : ∀ c ∈ container, endsPath c = false := by
      intro c hc
      refine hpathClean c ?_
      simp only [Bool.false_eq_true, if_false, List.mem_append]
      exact .inl (.inl (.inr (.inr hc)))
    refine ⟨⟨fun hm => absurd (hcontainer _ hm) (by decide),
      fun hm => absurd (hcontainer _ hm) (by decide)⟩, fun hm => ?_, hqueryClean⟩
    have hbehindMem := h.question_mem hm
    rcases htail with rfl | rfl
    · rw [hbehind, List.append_nil] at hbehindMem
      exact hpath hbehindMem
    · -- the path read back is the endpoint's, so the object would be slashes at its end
      have hsame := h.cut_behind_question hbehind hpath hhash container key suffix hnames
      obtain ⟨slashes, hslashes, hall⟩ := bare_split path
      rw [hbare] at hsame
      have htail : slashes = text "/" ++ container ++ text "/" ++ Uri.encodePath key := by
        refine List.append_cancel_left (?_ : bare path ++ _ = bare path ++ _)
        calc bare path ++ slashes = path := hslashes.symm
          _ = _ := hsame.symm
          _ = bare path ++ (text "/" ++ container ++ text "/" ++ Uri.encodePath key) := by simp
      obtain ⟨c, cs, rfl⟩ := List.exists_cons_of_ne_nil hne
      have hc : c = 47 := hall c (by rw [htail]; simp)
      exact hslash (by rw [hc]; exact List.mem_cons_self)
  · rintro ⟨hplain, hendpoint, hqueryClean⟩
    have htail : tail = [] := by
      rcases htail with htail | htail
      · exact htail
      · exact (hendpoint (by rw [h.spelled, hbehind, htail]; simp)).elim
    rw [htail, List.append_nil] at hbehind
    have hend : ∀ c ∈ suffix.head?, endsPath c = true := by
      intro c hc
      rcases hsuffix hplain hendpoint with ⟨rfl, -⟩ | rfl
      · cases hc
      · cases hc
        rfl
    have hread : (if suffix.head? = some 63 then suffix.tail.takeWhile (· != 35) else []) = query := by
      rcases hsuffix hplain hendpoint with ⟨rfl, rfl⟩ | rfl
      · rfl
      · rw [if_pos (by rfl), List.tail_cons, List.takeWhile_eq_self_iff]
        intro c hc
        have hne : c ≠ 35 := fun heq => hqueryClean (heq ▸ hc)
        simpa using hne
    rw [Names, h.cut_appended (hbehind ▸ hpath) hplain hend, hread, hbare, hbehind]
    simp

/-- The path of an endpoint: from a slash on, with nothing that ends it. -/
theorem Accepted.path_clean (h : Accepted endpoint parts scheme behind) (hquery : parts.query = []) :
    parts.path.head? = some 47 ∧ ∀ c ∈ parts.path, endsPath c = false := by
  obtain ⟨path, tail, hbehind, hpath, hhash, -, hparts⟩ := h.no_query hquery
  have hroot : text "/" = [47] := by decide
  cases path with
  | nil =>
      rw [hparts, List.isEmpty_nil, if_pos rfl, hroot]
      refine ⟨rfl, fun c hc => ?_⟩
      rw [List.mem_singleton.mp hc]
      rfl
  | cons d ds =>
      rw [hparts, List.isEmpty_cons, if_neg Bool.false_ne_true]
      refine ⟨by rw [List.head?_cons, h.path_head hbehind hpath d rfl], fun c hc => ?_⟩
      exact endsPath_eq_false.mpr ⟨fun heq => hpath (heq ▸ hc), fun heq => hhash (heq ▸ hc)⟩

/-- What `virtual_host_url` puts between the host and the key: the bare path and a slash, or two
slashes where the path is nothing but slashes. -/
theorem Accepted.stem (h : Accepted endpoint parts scheme behind) (hquery : parts.query = []) :
    (if parts.path = text "/" then text "/" else withoutTrailingSlash parts.path ++ text "/") =
      if parts.path = text "/" ∨ bare parts.path ≠ [] then bare parts.path ++ text "/"
      else text "//" := by
  by_cases hone : parts.path = text "/"
  · rw [if_pos hone, if_pos (.inl hone), hone]
    decide
  · rw [if_neg hone]
    by_cases hb : bare parts.path = []
    · have hne : parts.path ≠ [] := by
        intro hnil
        have hhead := (h.path_clean hquery).1
        rw [hnil] at hhead
        cases hhead
      rw [withoutTrailingSlash_of_slashes hne hb, if_neg (by simp [hone, hb])]
      decide
    · rw [withoutTrailingSlash_of_bare hb, if_pos (.inr hb)]

/-- Where the container is put before the endpoint's host. -/
theorem hosted_names (h : Accepted endpoint parts scheme behind) (hquery : parts.query = [])
    {container : Text} (hslash : (47 : UInt8) ∉ container) (key : Text) :
    Names parts true container key [] (virtualHostUrl parts container key) ↔
      Plain container ∧ (parts.path = text "/" ∨ bare parts.path ≠ []) := by
  obtain ⟨hhead, hclean⟩ := h.path_clean hquery
  have hroot : text "/" = [47] := by decide
  have hdot : text "." = [46] := by decide
  have hstem := h.stem hquery
  have hurl : virtualHostUrl parts container key = parts.scheme ++ (text "://" ++
      ((container ++ text "." ++ parts.authority) ++ (((if parts.path = text "/" then text "/"
        else withoutTrailingSlash parts.path ++ text "/") ++ Uri.encodePath key) ++ []))) := by
    rw [virtualHostUrl]
    simp
  have hauthority : Plain container →
      ∀ c ∈ container ++ text "." ++ parts.authority, delimits c = false := by
    intro hplain c hc
    simp only [List.mem_append, hdot, List.mem_singleton] at hc
    rcases hc with (hc | rfl) | hc
    · have h47 : c ≠ 47 := fun heq => hslash (heq ▸ hc)
      have h63 : c ≠ 63 := fun heq => hplain.1 (heq ▸ hc)
      have h35 : c ≠ 35 := fun heq => hplain.2 (heq ▸ hc)
      simp [delimits, h47, h63, h35]
    · rfl
    · exact h.authority_clean c hc
  have hcut : ∀ {stem : Text}, Plain container → stem.head? = some 47 →
      (∀ c ∈ stem, endsPath c = false) →
      cut (parts.scheme ++ (text "://" ++ ((container ++ text "." ++ parts.authority) ++
        ((stem ++ Uri.encodePath key) ++ [])))) = some
        { scheme := parts.scheme, authority := container ++ text "." ++ parts.authority
          path := stem ++ Uri.encodePath key } := by
    intro stem hplain hstemHead hstemClean
    have hpath : ∀ c ∈ stem ++ Uri.encodePath key, endsPath c = false := by
      intro c hc
      rcases List.mem_append.mp hc with hc | hc
      · exact hstemClean c hc
      · exact encodePath_clean key c hc
    rw [cut_spelled h.colon.2 (hauthority hplain) hpath (fun c hc => by
      rw [List.append_nil, List.head?_append, hstemHead] at hc
      cases hc
      rfl) (fun c hc => by cases hc), h.lower_scheme]
    rfl
  have hplain : Names parts true container key [] (virtualHostUrl parts container key) →
      Plain container := by
    intro hnames
    have hread := (cut_clean hnames).1
    have hcontainer : ∀ c ∈ container, delimits c = false := by
      intro c hc
      refine hread c ?_
      simp only [if_true, List.mem_append]
      exact .inl (.inl hc)
    exact ⟨fun hm => absurd (hcontainer _ hm) (by decide),
      fun hm => absurd (hcontainer _ hm) (by decide)⟩
  rw [hurl, hstem] at hplain ⊢
  by_cases hpath : parts.path = text "/" ∨ bare parts.path ≠ []
  · rw [if_pos hpath] at hplain ⊢
    refine ⟨fun hnames => ⟨hplain hnames, hpath⟩, fun hboth => ?_⟩
    rw [Names, hcut hboth.1]
    · simp
    · cases hb : bare parts.path with
      | nil => rfl
      | cons d ds =>
          obtain ⟨slashes, hslashes, -⟩ := bare_split parts.path
          rw [hslashes, hb] at hhead
          exact hhead
    · intro c hc
      rcases List.mem_append.mp hc with hc | hc
      · exact bare_clean hclean c hc
      · rw [hroot, List.mem_singleton] at hc
        rw [hc]
        rfl
  · rw [if_neg hpath] at hplain ⊢
    refine ⟨fun hnames => ?_, fun hboth => (hpath hboth.2).elim⟩
    have hb : bare parts.path = [] := by
      by_contra hne
      exact hpath (.inr hne)
    rw [Names, hcut (hplain hnames) (by decide) (by decide +kernel), hb, Option.some.injEq,
      UrlParts.mk.injEq] at hnames
    obtain ⟨-, -, hsame, -⟩ := hnames
    have hlen := congrArg List.length hsame
    have htwo : (text "//").length = 2 := by decide
    have hone : (text "/").length = 1 := by decide
    simp only [if_true, List.length_append, htwo, hone, List.length_nil] at hlen
    omega

end Named

/-! ## Prepared requests -/

section Prepared

variable {crypto : Crypto} {request : PreparedRequest} {range ifMatch : Text} {time : Int}

theorem signS3Get_url {target : S3GetRequest} {credentials : ProviderCredentials} {url : Text}
    (h : signS3Get crypto target credentials url range ifMatch time = .ok request) :
    request.url = url := by
  obtain ⟨parts, -, h⟩ := ok_of_bind h
  obtain ⟨hash, -, h⟩ := ok_of_bind h
  obtain ⟨key, -, h⟩ := ok_of_bind h
  obtain ⟨signature, -, h⟩ := ok_of_bind h
  cases h
  rfl

/-- Signing or not, the URL is made of the endpoint and the object. -/
theorem prepareS3Get_url {target : S3GetRequest} {credentials : Option ProviderCredentials}
    (h : prepareS3Get crypto target credentials range ifMatch time = .ok request) :
    ∃ parts, splitUrl target.endpoint = .ok parts ∧ parts.query = [] ∧
      request.url = if target.virtualHosting then virtualHostUrl parts target.bucket target.key
        else appendObject target.endpoint target.bucket target.key := by
  obtain ⟨parts, hparts, h⟩ := ok_of_bind h
  split at h
  · cases h
  · rename_i hquery
    refine ⟨parts, hparts, by simpa using hquery, ?_⟩
    cases credentials with
    | none =>
        cases h
        rfl
    | some credentials => exact signS3Get_url h

theorem authorizeGcs_url {config : ConfigSnapshot} {object : Resolved}
    {custom : Option ProviderCredentials} {url : Text} {headers : List Header}
    (h : authorizeGcs crypto config object custom url headers time = .ok request) :
    request.url = url := by
  unfold authorizeGcs at h
  simp only at h
  split at h
  · cases h
    rfl
  · split at h
    · cases h
      rfl
    · split at h
      · obtain ⟨signature, -, h⟩ := ok_of_bind h
        cases h
        rfl
      · cases h

theorem prepareGcs_url {config : ConfigSnapshot} {object : Resolved}
    {custom : Option ProviderCredentials}
    (h : prepareGcs crypto config object custom ifMatch time = .ok request) :
    ∃ endpoint parts, gcsEndpoint config object.canonicalUri = .ok endpoint ∧
      splitUrl endpoint = .ok parts ∧ parts.query = [] ∧
      request.url = appendObject endpoint object.container object.key := by
  obtain ⟨endpoint, hendpoint, h⟩ := ok_of_bind h
  obtain ⟨parts, hparts, h⟩ := ok_of_bind h
  split at h
  · cases h
  · rename_i hquery
    exact ⟨endpoint, parts, hendpoint, hparts, by simpa using hquery, authorizeGcs_url h⟩

/-- The query of an Azure request: the SAS token, if it is one that uses it. -/
def azureQuery (config : ConfigSnapshot) (path : Text) (credentials : ProviderCredentials) : Text :=
  if optionIsTrue (config.option path (text "AZURE_NO_SIGN_REQUEST") (text "NO")) then []
  else bareSas credentials.sasToken

theorem authorizeAzure_url {config : ConfigSnapshot} {object : Resolved}
    {credentials : ProviderCredentials} {url : Text} {headers : List Header}
    (h : authorizeAzure crypto config object credentials url headers range ifMatch time =
      .ok request) :
    (request.url = url ∧ azureQuery config object.canonicalUri credentials = []) ∨
      (request.url = appendSas url credentials.sasToken ∧
        azureQuery config object.canonicalUri credentials = bareSas credentials.sasToken) := by
  unfold authorizeAzure at h
  simp only at h
  unfold azureQuery
  split at h
  · rename_i hsign
    cases h
    exact .inl ⟨rfl, if_pos hsign⟩
  · rename_i hsign
    rw [if_neg hsign]
    split at h
    · cases h
      exact .inr ⟨rfl, rfl⟩
    · rename_i hsas
      have hnone : credentials.sasToken = [] := by simpa using hsas
      refine .inl ⟨?_, by rw [hnone]; rfl⟩
      split at h
      · cases h
        rfl
      · split at h
        · cases h
        · obtain ⟨key, -, h⟩ := ok_of_bind h
          obtain ⟨parts, -, h⟩ := ok_of_bind h
          obtain ⟨signature, -, h⟩ := ok_of_bind h
          cases h
          rfl

/-- What is appended to the URL of an Azure object. -/
theorem prepareAzure_url {config : ConfigSnapshot} {object : Resolved}
    {custom : Option ProviderCredentials}
    (h : prepareAzure crypto config object custom range ifMatch time = .ok request) :
    ∃ endpoint parts suffix,
      azureEndpoint config object (azureCredentials config object.canonicalUri custom) =
        .ok endpoint ∧
      splitUrl endpoint = .ok parts ∧ parts.query = [] ∧
      request.url = appendObject endpoint object.container object.key ++ suffix ∧
      ((63 : UInt8) ∉ appendObject endpoint object.container object.key →
        (suffix = [] ∧ azureQuery config object.canonicalUri
          (azureCredentials config object.canonicalUri custom) = []) ∨
        suffix = 63 :: azureQuery config object.canonicalUri
          (azureCredentials config object.canonicalUri custom)) := by
  obtain ⟨endpoint, hendpoint, h⟩ := ok_of_bind h
  obtain ⟨parts, hparts, h⟩ := ok_of_bind h
  split at h
  · cases h
  · rename_i hquery
    have hempty : parts.query = [] := by simpa using hquery
    rcases authorizeAzure_url h with ⟨hurl, hnone⟩ | ⟨hurl, hsas⟩
    · exact ⟨endpoint, parts, [], hendpoint, hparts, hempty, by simpa using hurl,
        fun _ => .inl ⟨rfl, hnone⟩⟩
    · refine ⟨endpoint, parts,
        (if (appendObject endpoint object.container object.key).contains 63 then text "&"
          else text "?") ++
          bareSas (azureCredentials config object.canonicalUri custom).sasToken,
        hendpoint, hparts, hempty, ?_, ?_⟩
      · rw [hurl, appendSas, List.append_assoc]
      · intro hquestion
        have hcontains : (appendObject endpoint object.container object.key).contains 63 = false := by
          simpa using hquestion
        have hmark : text "?" = [63] := by decide
        rw [hcontains, hsas, if_neg Bool.false_ne_true, hmark]
        exact .inr rfl

end Prepared

/-- A URL without a `?` in its pieces has none. -/
theorem question_not_mem_appendObject {endpoint container key : Text}
    (hcontainer : Plain container) (hendpoint : (63 : UInt8) ∉ endpoint) :
    (63 : UInt8) ∉ appendObject endpoint container key := by
  have hpop : ∀ r : Text, ∀ c ∈ popSlashes r, c ∈ r := by
    intro r
    induction r with
    | nil => exact fun c hc => hc
    | cons d r ih =>
        intro c hc
        cases r with
        | nil => exact hc
        | cons e r =>
            rw [popSlashes] at hc
            split at hc
            · exact List.mem_cons_of_mem _ (ih c hc)
            · exact hc
  have hroot : text "/" = [47] := by decide
  simp only [appendObject, List.mem_append, hroot, List.mem_singleton, not_or]
  refine ⟨⟨⟨⟨fun hm => hendpoint ?_, by decide⟩, hcontainer.1⟩, by decide⟩, fun hm => ?_⟩
  · exact List.mem_reverse.mp (hpop _ _ (List.mem_reverse.mp hm))
  · exact absurd (encodePath_clean key _ hm) (by decide)

/-- A prepared request goes to the configured endpoint and names the object, exactly when the
container is plain and the endpoint and the SAS token do not spoil it. -/
theorem prepared_names_object (crypto : Crypto) {uri : Text} {object : Resolved}
    (hobject : Uri.resolve uri = .ok object) (hcloud : object.backend.cloud = true) :
    (∀ target credentials range ifMatch time request,
      target.bucket = object.container → target.key = object.key →
      prepareS3Get crypto target credentials range ifMatch time = .ok request →
      ∃ parts, splitUrl target.endpoint = .ok parts ∧
        (Names parts target.virtualHosting object.container object.key [] request.url ↔
          Plain object.container ∧
            (if target.virtualHosting then parts.path = text "/" ∨ bare parts.path ≠ []
              else (63 : UInt8) ∉ target.endpoint))) ∧
    (∀ config custom ifMatch time request,
      prepareGcs crypto config object custom ifMatch time = .ok request →
      ∃ endpoint parts, gcsEndpoint config object.canonicalUri = .ok endpoint ∧
        splitUrl endpoint = .ok parts ∧
        (Names parts false object.container object.key [] request.url ↔
          Plain object.container ∧ (63 : UInt8) ∉ endpoint)) ∧
    (∀ config custom range ifMatch time request,
      prepareAzure crypto config object custom range ifMatch time = .ok request →
      ∃ endpoint parts,
        azureEndpoint config object (azureCredentials config object.canonicalUri custom) =
          .ok endpoint ∧ splitUrl endpoint = .ok parts ∧
        (Names parts false object.container object.key
          (azureQuery config object.canonicalUri
            (azureCredentials config object.canonicalUri custom)) request.url ↔
          Plain object.container ∧ (63 : UInt8) ∉ endpoint ∧
            (35 : UInt8) ∉ azureQuery config object.canonicalUri
              (azureCredentials config object.canonicalUri custom))) := by
  have hcloudObject := Uri.resolve_cloudObject hobject hcloud
  have hne := hcloudObject.container_ne
  have hslash := hcloudObject.container_slash
  refine ⟨?_, ?_, ?_⟩
  · intro target credentials range ifMatch time request hbucket hkey h
    obtain ⟨parts, hparts, hquery, hurl⟩ := prepareS3Get_url h
    obtain ⟨scheme, behind, haccepted⟩ := splitUrl_accepted hparts
    refine ⟨parts, hparts, ?_⟩
    rw [hurl, hbucket, hkey]
    cases target.virtualHosting with
    | true => exact hosted_names haccepted hquery hslash object.key
    | false =>
        have happended := appended_names haccepted hquery hne hslash object.key [] []
          fun _ _ => .inl ⟨rfl, rfl⟩
        rw [List.append_nil] at happended
        simpa using happended
  · intro config custom ifMatch time request h
    obtain ⟨endpoint, parts, hendpoint, hparts, hquery, hurl⟩ := prepareGcs_url h
    obtain ⟨scheme, behind, haccepted⟩ := splitUrl_accepted hparts
    refine ⟨endpoint, parts, hendpoint, hparts, ?_⟩
    have happended := appended_names haccepted hquery hne hslash object.key [] []
      fun _ _ => .inl ⟨rfl, rfl⟩
    rw [List.append_nil] at happended
    rw [hurl]
    simpa using happended
  · intro config custom range ifMatch time request h
    obtain ⟨endpoint, parts, suffix, hendpoint, hparts, hquery, hurl, hsuffix⟩ := prepareAzure_url h
    obtain ⟨scheme, behind, haccepted⟩ := splitUrl_accepted hparts
    refine ⟨endpoint, parts, hendpoint, hparts, ?_⟩
    rw [hurl]
    exact appended_names haccepted hquery hne hslash object.key suffix _ fun hplain hquestion =>
      hsuffix (question_not_mem_appendObject hplain hquestion)

/-- A plain bucket at the default endpoint; an unsigned request asks nothing of OpenSSL. -/
theorem prepared_names_object_bucket :
    ∃ request parts,
      prepareS3Get ⟨fun _ => none, fun _ _ => none, id, fun _ => none, fun _ => [], fun _ => []⟩
        { endpoint := text "https://s3.us-east-1.amazonaws.com"
          endpointOption := text "AWS_S3_ENDPOINT", bucket := text "bucket", key := text "a b"
          region := text "us-east-1", virtualHosting := true } none (text "bytes=0-9") [] 0 =
        .ok request ∧
      splitUrl (text "https://s3.us-east-1.amazonaws.com") = .ok parts ∧
      Names parts true (text "bucket") (text "a b") [] request.url := by
  have hobject : Uri.resolve (text "s3://bucket/a b") = .ok
      { backend := .s3, container := text "bucket", key := text "a b"
        canonicalUri := text "/vsis3/bucket/a b" } := rfl
  obtain ⟨parts, hparts, hiff⟩ := (prepared_names_object
    ⟨fun _ => none, fun _ _ => none, id, fun _ => none, fun _ => [], fun _ => []⟩ hobject rfl).1
    { endpoint := text "https://s3.us-east-1.amazonaws.com"
      endpointOption := text "AWS_S3_ENDPOINT", bucket := text "bucket", key := text "a b"
      region := text "us-east-1", virtualHosting := true } none (text "bytes=0-9") [] 0
    { url := text "https://bucket.s3.us-east-1.amazonaws.com/a%20b" } rfl rfl (by decide +kernel)
  refine ⟨_, parts, rfl, hparts, hiff.mpr ⟨⟨by decide, by decide⟩, ?_⟩⟩
  have hpath : (splitUrl (text "https://s3.us-east-1.amazonaws.com")).map (·.path) =
      .ok (text "/") := by decide +kernel
  rw [hparts] at hpath
  exact .inl (Except.ok.inj hpath)

instance (endpoint : UrlParts) (virtualHosting : Bool) (container key query url : Text) :
    Decidable (Names endpoint virtualHosting container key query url) :=
  inferInstanceAs (Decidable (_ = _))

/-- The bucket `localhost?` takes an S3 request to another host, and the bucket `b?x` takes the
bearer token of a GCS request to another path. -/
theorem prepared_names_elsewhere :
    (∃ object request parts, Uri.resolve (text "s3://localhost?/key") = .ok object ∧
      splitUrl (text "https://s3.us-east-1.amazonaws.com") = .ok parts ∧
      (∀ crypto, prepareAws crypto
          { explicit := OptionMap.empty.assign (text "AWS_NO_SIGN_REQUEST") (some (text "YES")) }
          object none (text "bytes=0-9") [] [] 0 = .ok request) ∧
      cut request.url = some
        { scheme := text "https", authority := text "localhost", path := []
          query := text ".s3.us-east-1.amazonaws.com/key" } ∧
      ¬ Names parts true object.container object.key [] request.url) ∧
    (∃ object request parts, Uri.resolve (text "gs://b?x/key") = .ok object ∧
      splitUrl (text "https://storage.googleapis.com") = .ok parts ∧
      (∀ crypto, prepareGcs crypto {} object (some { bearerToken := text "t" }) [] 0 =
          .ok request) ∧
      (text "Authorization", text "Bearer t") ∈ request.headers ∧
      cut request.url = some
        { scheme := text "https", authority := text "storage.googleapis.com", path := text "/b"
          query := text "x/key" } ∧
      ¬ Names parts false object.container object.key [] request.url) := by
  refine ⟨⟨{ backend := .s3, container := text "localhost?", key := text "key"
             canonicalUri := text "/vsis3/localhost?/key" },
      { url := text "https://localhost?.s3.us-east-1.amazonaws.com/key"
        routingRegion := text "us-east-1" },
      { scheme := text "https", authority := text "s3.us-east-1.amazonaws.com", path := text "/" },
      rfl, rfl, fun crypto => rfl, ?_, ?_⟩,
    ⟨{ backend := .gcs, container := text "b?x", key := text "key"
       canonicalUri := text "/vsigs/b?x/key" },
      { url := text "https://storage.googleapis.com/b?x/key"
        headers := [(text "Accept-Encoding", text "gzip"),
          (text "Authorization", text "Bearer t")]
        followRedirects := false },
      { scheme := text "https", authority := text "storage.googleapis.com", path := text "/" },
      rfl, rfl, fun crypto => rfl, ?_, ?_, ?_⟩⟩
  · decide +kernel
  · decide +kernel
  · decide +kernel
  · decide +kernel
  · decide +kernel

end Backends

end Karu
