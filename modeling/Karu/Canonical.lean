/-
# `Karu.Canonical` — the canonical URI names the object

`terminal` gives every object it accepts a canonical URI: the address itself,
or the address with its scheme replaced by the name of a virtual filesystem.
Replacing it back and reading the result gives the object again (`reopen`),
and so two objects with one canonical URI are one object.  `resolve` does the
same, unless it takes the end of the canonical URI for a fragment.
-/
import Karu.Windows

namespace Karu

open Base

namespace Uri

/-! ## Reading a canonical URI -/

/-- The address behind a canonical URI. -/
def addressOf (canonical : Text) : Text :=
  match aliases.find? (·.1.isPrefixOf canonical) with
  | some (vsi, scheme) => scheme ++ canonical.drop vsi.length
  | none => canonical

/-- The object a canonical URI names. -/
def reopen (canonical : Text) : Except ResolveError Resolved := terminalObject (addressOf canonical)

/-- How `terminal` spells an address: as it is, or behind the name of a filesystem. -/
inductive Spelling (uri : Text) : Text → Prop
  | same : Spelling uri uri
  | behindName {vsi scheme rest : Text} : (vsi, scheme) ∈ aliases → scheme ≠ [] → rest ≠ [] →
      uri = scheme ++ rest → Spelling uri (vsi ++ rest)

theorem mem_aliases {x : Text × Text} (k : Nat) (h : aliases[k]? = some x) : x ∈ aliases :=
  List.mem_of_getElem? h

theorem alias_vsi {vsi scheme : Text} (h : (vsi, scheme) ∈ aliases) : text "/vsi" <+: vsi := by
  have hall : ∀ x ∈ aliases, (text "/vsi").isPrefixOf x.1 = true := by decide
  exact List.isPrefixOf_iff_prefix.mp (hall _ h)

theorem aliases_none {uri : Text} (h : ¬ text "/vsi" <+: uri) :
    aliases.find? (·.1.isPrefixOf uri) = none := by
  rw [List.find?_eq_none]
  rintro ⟨vsi, scheme⟩ hmem hp
  exact h ((alias_vsi hmem).trans (List.isPrefixOf_iff_prefix.mp hp))

/-- No filesystem's name begins another's. -/
theorem aliases_some {vsi scheme : Text} (hmem : (vsi, scheme) ∈ aliases) (rest : Text) :
    aliases.find? (·.1.isPrefixOf (vsi ++ rest)) = some (vsi, scheme) := by
  have hapart : ∀ x ∈ aliases, ∀ y ∈ aliases, x.1.isPrefixOf y.1 = true → x = y := by
    decide +kernel
  have hlength : ∀ x ∈ aliases, ∀ y ∈ aliases, x.1 <+: y.1 → x = y := fun x hx y hy h =>
    hapart x hx y hy (List.isPrefixOf_iff_prefix.mpr h)
  cases hfind : aliases.find? (·.1.isPrefixOf (vsi ++ rest)) with
  | none =>
      rw [List.find?_eq_none] at hfind
      exact absurd (List.isPrefixOf_iff_prefix.mpr (List.prefix_append vsi rest))
        (hfind (vsi, scheme) hmem)
  | some found =>
      have hmem' := List.mem_of_find?_eq_some hfind
      have hp : found.1 <+: vsi ++ rest := by
        simpa [List.isPrefixOf_iff_prefix] using List.find?_some hfind
      rcases List.prefix_or_prefix_of_prefix hp (List.prefix_append vsi rest) with hin | hover
      · rw [hlength found hmem' (vsi, scheme) hmem hin]
      · rw [hlength (vsi, scheme) hmem found hmem' hover]

theorem addressOf_spelling {uri canonical : Text} (hvsi : ¬ text "/vsi" <+: uri)
    (h : Spelling uri canonical) : addressOf canonical = uri := by
  cases h with
  | same => rw [addressOf, aliases_none hvsi]
  | behindName hmem hscheme hrest huri =>
      rw [addressOf, aliases_some hmem]
      simp only [List.drop_left, huri]

/-! ## What `terminal` writes -/

section Terminal

variable {uri rest : Text} {r : Resolved}

theorem cloud_canonical {backend : Backend} {grammar vsi : String} {dfs : Bool}
    (h : cloud backend rest grammar vsi dfs = .ok r) :
    rest ≠ [] ∧ r.canonicalUri = text vsi ++ rest := by
  obtain ⟨⟨container, key⟩, hsplit, h⟩ := ok_of_bind h
  obtain ⟨hcut, -, -, -⟩ := splitObject_ok hsplit
  have hslash : text "/" = [47] := by decide
  cases h
  rw [hcut]
  refine ⟨List.append_ne_nil_of_right_ne_nil _ (List.cons_ne_nil _ _), ?_⟩
  rw [hslash, List.append_assoc, List.append_assoc, List.singleton_append]

theorem source_canonical (h : source rest = .ok r) :
    rest ≠ [] ∧ r.canonicalUri = text "/vsisource/" ++ rest := by
  obtain ⟨⟨account, key⟩, hsplit, h⟩ := ok_of_bind h
  obtain ⟨pieces, -, h⟩ := ok_of_bind h
  obtain ⟨hcut, -, -, -⟩ := splitObject_ok hsplit
  have hslash : text "/" = [47] := by decide
  cases h
  rw [hcut]
  refine ⟨List.append_ne_nil_of_right_ne_nil _ (List.cons_ne_nil _ _), ?_⟩
  rw [hslash, List.append_assoc, List.append_assoc, List.singleton_append]

theorem huggingFace_canonical (h : huggingFace rest = .ok r) :
    rest ≠ [] ∧ r.canonicalUri = text "/vsihf/" ++ rest := by
  obtain ⟨⟨owner, path⟩, hfirst, h⟩ := ok_of_bind h
  obtain ⟨⟨name, file⟩, -, h⟩ := ok_of_bind h
  obtain ⟨revised, -, h⟩ := ok_of_bind h
  cases h
  refine ⟨?_, rfl⟩
  rintro rfl
  have hempty : (repositoryKind []).2 = [] := by decide
  obtain ⟨hcut, -, -, -⟩ := splitObject_ok hfirst
  have hne : owner ++ 47 :: path ≠ [] :=
    List.append_ne_nil_of_right_ne_nil _ (List.cons_ne_nil _ _)
  exact hne (hempty.symm.trans hcut).symm

theorem spelling_of_drop {vsi scheme : Text} (hmem : (vsi, scheme) ∈ aliases) (hscheme : scheme ≠ [])
    (hp : scheme.isPrefixOf uri = true)
    (h : uri.drop scheme.length ≠ [] ∧ r.canonicalUri = vsi ++ uri.drop scheme.length) :
    Spelling uri r.canonicalUri := by
  rw [h.2]
  refine .behindName hmem hscheme h.1 ?_
  obtain ⟨tail, rfl⟩ := List.isPrefixOf_iff_prefix.mp hp
  rw [List.drop_left]

/-- The spelling of every accepted address. -/
theorem terminalObject_spelling (h : terminalObject uri = .ok r) : Spelling uri r.canonicalUri := by
  unfold terminalObject at h
  split_ifs at h with h₁ h₂ h₃ h₄ h₅ h₆ h₇ h₈ h₉ h₁₀
  · unfold http at h
    simp only at h
    split at h
    · cases h
    · cases h
      exact .same
  · exact spelling_of_drop (mem_aliases 1 rfl) (by decide) h₂ (cloud_canonical h)
  · exact spelling_of_drop (mem_aliases 2 rfl) (by decide) h₃ (cloud_canonical h)
  · exact spelling_of_drop (mem_aliases 3 rfl) (by decide) h₄ (cloud_canonical h)
  · exact spelling_of_drop (mem_aliases 4 rfl) (by decide) h₅ (cloud_canonical h)
  · exact spelling_of_drop (mem_aliases 6 rfl) (by decide) h₆ (source_canonical h)
  · exact spelling_of_drop (mem_aliases 5 rfl) (by decide) h₇ (huggingFace_canonical h)
  · unfold file at h
    split at h
    · cases h
    · cases h
      obtain ⟨tail, rfl⟩ := List.isPrefixOf_iff_prefix.mp h₈
      have hdrop : (text "file://" ++ tail).drop 7 = tail := by
        have hlen : (text "file://").length = 7 := by decide
        rw [← hlen, List.drop_left]
      rw [hdrop]
      exact .same
  · cases h
  · cases h
    exact .same

end Terminal

/-! ## What `resolve` hands on -/

theorem takeBytesFragment_prefix {uri u : Text} {w : Word × Word}
    (h : takeBytesFragment uri = .ok (u, w)) : u <+: uri := by
  rcases takeBytesFragment_ok h with rfl | ⟨tail, rfl, -⟩
  · exact List.prefix_rfl
  · exact List.prefix_append _ _

theorem terminal_opened {uri : Text} {r : Resolved} (h : terminal uri = .ok r) :
    ∃ u r₀, u <+: uri ∧ terminalObject u = .ok r₀ ∧ SameObject r₀ r := by
  obtain ⟨⟨u, offset, length⟩, htake, h⟩ := ok_of_bind h
  obtain ⟨r₀, hobject, h⟩ := ok_of_bind h
  refine ⟨u, r₀, takeBytesFragment_prefix htake, hobject, ?_⟩
  split at h
  · exact applyWindow_sameObject h
  · cases h
    exact SameObject.refl r

theorem not_vsi_of_head {p : Text} {c : UInt8} (hp : p.head? = some c) (hc : c ≠ 47) (rest : Text) :
    ¬ text "/vsi" <+: p ++ rest := by
  have hvsi : text "/vsi" = 47 :: text "vsi" := by decide
  cases p with
  | nil => cases hp
  | cons d ds =>
      cases hp
      rw [hvsi, List.cons_append]
      exact fun h => hc (List.cons_prefix_cons.mp h).1.symm

/-- No address behind a filesystem's name begins like one. -/
theorem not_vsi_alias {vsi scheme rest : Text} (hmem : (vsi, scheme) ∈ aliases)
    (hcurl : ¬ (vsi = text "/vsicurl/" ∧ (text "http://").isPrefixOf rest = false ∧
      (text "https://").isPrefixOf rest = false)) : ¬ text "/vsi" <+: scheme ++ rest := by
  simp only [aliases, List.mem_cons, List.not_mem_nil, or_false, Prod.mk.injEq] at hmem
  rcases hmem with ⟨rfl, rfl⟩ | ⟨-, rfl⟩ | ⟨-, rfl⟩ | ⟨-, rfl⟩ | ⟨-, rfl⟩ | ⟨-, rfl⟩ | ⟨-, rfl⟩
  · rw [List.nil_append]
    rw [not_and, not_and_or, Bool.not_eq_false, Bool.not_eq_false, List.isPrefixOf_iff_prefix,
      List.isPrefixOf_iff_prefix] at hcurl
    rcases hcurl rfl with ⟨s, rfl⟩ | ⟨s, rfl⟩
    · exact @not_vsi_of_head _ 104 (by decide) (by decide) s
    · exact @not_vsi_of_head _ 104 (by decide) (by decide) s
  · exact @not_vsi_of_head _ 115 (by decide) (by decide) rest
  · exact @not_vsi_of_head _ 103 (by decide) (by decide) rest
  · exact @not_vsi_of_head _ 97 (by decide) (by decide) rest
  · exact @not_vsi_of_head _ 97 (by decide) (by decide) rest
  · exact @not_vsi_of_head _ 104 (by decide) (by decide) rest
  · exact @not_vsi_of_head _ 115 (by decide) (by decide) rest

/-- The object behind an accepted address, and the address it was read from. -/
structure Opened (u : Text) (r₀ r : Resolved) : Prop where
  bare : ¬ text "/vsi" <+: u
  object : terminalObject u = .ok r₀
  same : SameObject r₀ r

theorem resolveTerminal_opened {uri : Text} {r : Resolved} (h : resolveTerminal uri = .ok r) :
    ∃ u r₀, Opened u r₀ r := by
  have hopened : ∀ {full : Text}, ¬ text "/vsi" <+: full → terminal full = .ok r →
      ∃ u r₀, Opened u r₀ r := by
    intro full hbare h
    obtain ⟨u, r₀, hprefix, hobject, hsame⟩ := terminal_opened h
    exact ⟨u, r₀, fun hvsi => hbare (hvsi.trans hprefix), hobject, hsame⟩
  unfold resolveTerminal at h
  split at h
  · rename_i vsi scheme hfind
    unfold resolveAlias at h
    split_ifs at h with hempty hcurl
    · cases h
    · exact hopened (not_vsi_alias (List.mem_of_find?_eq_some hfind) hcurl) h
  · split at h
    · cases h
    · rename_i hvsi
      exact hopened (fun hp => hvsi (List.isPrefixOf_iff_prefix.mpr hp)) h

/-- Wrappers aside, every accepted address was opened so. -/
theorem resolve_opened {uri : Text} {r : Resolved} (h : resolve uri = .ok r) :
    ∃ u r₀, Opened u r₀ r := by
  refine resolveImpl_rec resolveTerminal_opened ?_ h
  rintro r r' offset length ⟨u, r₀, hopened⟩ happly
  exact ⟨u, r₀, hopened.bare, hopened.object, hopened.same.trans (applyWindow_sameObject happly)⟩

section Opened

variable {u : Text} {r₀ r : Resolved}

theorem Opened.spelling (h : Opened u r₀ r) : Spelling u r.canonicalUri := by
  rw [h.same.canonicalUri]
  exact terminalObject_spelling h.object

/-- The canonical URI leads back to the object. -/
theorem Opened.reopen (h : Opened u r₀ r) : reopen r.canonicalUri = .ok r₀ := by
  rw [Uri.reopen, addressOf_spelling h.bare h.spelling]
  exact h.object

end Opened

theorem SameObject.symm {r r' : Resolved} (h : SameObject r r') : SameObject r' r :=
  ⟨h.backend.symm, h.canonicalUri.symm, h.target.symm, h.container.symm, h.key.symm,
    h.azureDfs.symm⟩

/-- Two addresses with one canonical URI name one object: the planner, which merges requests by
backend and canonical URI, merges those of one object. -/
theorem canonicalUri_injective {uri uri' : Text} {r r' : Resolved} (h : resolve uri = .ok r)
    (h' : resolve uri' = .ok r') (hcanonical : r.canonicalUri = r'.canonicalUri) :
    SameObject r r' := by
  obtain ⟨u, r₀, hopened⟩ := resolve_opened h
  obtain ⟨u', r₁, hopened'⟩ := resolve_opened h'
  have hsame : r₀ = r₁ := by
    have hreopened := hopened.reopen
    rw [hcanonical, hopened'.reopen] at hreopened
    exact (Except.ok.inj hreopened).symm
  subst hsame
  exact hopened.same.symm.trans hopened'.same

/-- The same object by its scheme and by its filesystem, through different windows. -/
theorem canonicalUri_injective_aliased :
    ∃ r r', resolve (text "/vsisubfile/5_10,abfs://c/k#bytes=100-199") = .ok r ∧
      resolve (text "/vsiadls/c/k") = .ok r' ∧ SameObject r r' := by
  have hleft : ∃ r, resolve (text "/vsisubfile/5_10,abfs://c/k#bytes=100-199") = .ok r ∧
      r.canonicalUri = text "/vsiadls/c/k" := ⟨_, rfl, by decide +kernel⟩
  have hright : ∃ r, resolve (text "/vsiadls/c/k") = .ok r ∧
      r.canonicalUri = text "/vsiadls/c/k" := ⟨_, rfl, by decide +kernel⟩
  obtain ⟨r, hr, hcanonical⟩ := hleft
  obtain ⟨r', hr', hcanonical'⟩ := hright
  exact ⟨r, r', hr, hr', canonicalUri_injective hr hr' (hcanonical.trans hcanonical'.symm)⟩

/-! ## Resolving a canonical URI -/

theorem terminal_bare {u : Text} {r : Resolved} (hbare : fragmented u = false)
    (h : terminalObject u = .ok r) : terminal u = .ok r := by
  have hspelled := terminal_spelled u .none (fun _ => hbare)
  rw [Fragment.spelled, List.append_nil] at hspelled
  rw [hspelled, Fragment.window]
  show (terminalObject u).bind _ = _
  rw [h]
  exact applyWindow_whole (terminalObject_terminal h).fresh

theorem resolve_unwrapped {uri : Text} (hne : uri ≠ []) (h : ¬ vsiSubfile <+: uri) :
    resolve uri = resolveTerminal uri := by
  have hempty : uri.isEmpty = false := by simpa using hne
  have hwrapped : vsiSubfile.isPrefixOf uri = false := by
    rw [Bool.eq_false_iff]
    exact fun hp => h (List.isPrefixOf_iff_prefix.mp hp)
  rw [resolve, resolveImpl.eq_def]
  simp only [hempty, hwrapped, Bool.false_eq_true, if_false]

theorem resolve_same {u : Text} {r : Resolved} (hvsi : ¬ text "/vsi" <+: u)
    (hbare : fragmented u = false) (h : terminalObject u = .ok r) : resolve u = .ok r := by
  have hne : u ≠ [] := by
    rintro rfl
    have hempty : (terminalObject []).toOption = none := by decide
    rw [h] at hempty
    cases hempty
  have hsubfile : ¬ vsiSubfile <+: u := by
    intro hp
    have hlong : text "/vsi" <+: vsiSubfile := List.isPrefixOf_iff_prefix.mp (by decide)
    exact hvsi (hlong.trans hp)
  have hnone : (text "/vsi").isPrefixOf u = false := by
    rw [Bool.eq_false_iff]
    exact fun hp => hvsi (List.isPrefixOf_iff_prefix.mp hp)
  rw [resolve_unwrapped hne hsubfile, resolveTerminal, aliases_none hvsi]
  simp only [hnone, Bool.false_eq_true, if_false]
  exact terminal_bare hbare h

theorem resolve_behindName {vsi scheme rest : Text} {r : Resolved}
    (hmem : (vsi, scheme) ∈ aliases) (hscheme : scheme ≠ []) (hrest : rest ≠ [])
    (hbare : fragmented (vsi ++ rest) = false) (h : terminalObject (scheme ++ rest) = .ok r) :
    resolve (vsi ++ rest) = .ok r := by
  have hplain : ∀ x ∈ aliases, (35 : UInt8) ∉ x.1 ∧ (35 : UInt8) ∉ x.2 := by decide +kernel
  have hapart : ∀ x ∈ aliases, vsiSubfile.isPrefixOf x.1 = false ∧
      x.1.isPrefixOf vsiSubfile = false := by decide +kernel
  have hcurl : ∀ x ∈ aliases, x.2 ≠ [] → x.1 ≠ text "/vsicurl/" := by decide +kernel
  have hsubfile : ¬ vsiSubfile <+: vsi ++ rest := by
    intro hp
    obtain ⟨h₁, h₂⟩ := hapart _ hmem
    rcases List.prefix_or_prefix_of_prefix hp (List.prefix_append vsi rest) with hin | hover
    · rw [List.isPrefixOf_iff_prefix.mpr hin] at h₁
      cases h₁
    · rw [List.isPrefixOf_iff_prefix.mpr hover] at h₂
      cases h₂
  have hempty : rest.isEmpty = false := by simpa using hrest
  rw [resolve_unwrapped (List.append_ne_nil_of_right_ne_nil _ hrest) hsubfile, resolveTerminal,
    aliases_some hmem]
  simp only [List.drop_left, resolveAlias, hempty, Bool.false_eq_true, if_false]
  rw [if_neg fun hc => hcurl _ hmem hscheme hc.1]
  refine terminal_bare ?_ h
  rw [fragmented_append (hplain _ hmem).2, ← fragmented_append (hplain _ hmem).1]
  exact hbare

/-- A canonical URI that does not end like a fragment resolves to its object, all of it. -/
theorem resolve_canonical {uri : Text} {r : Resolved} (h : resolve uri = .ok r)
    (hbare : fragmented r.canonicalUri = false) :
    ∃ r', resolve r.canonicalUri = .ok r' ∧ SameObject r r' ∧ r'.windowOffset = 0 ∧
      r'.windowLength = toEnd := by
  obtain ⟨u, r₀, hopened⟩ := resolve_opened h
  refine ⟨r₀, ?_, hopened.same.symm, (terminalObject_terminal hopened.object).fresh⟩
  have hspelling := hopened.spelling
  generalize r.canonicalUri = canonical at hbare hspelling
  cases hspelling with
  | same => exact resolve_same hopened.bare hbare hopened.object
  | behindName hmem hscheme hrest huri =>
      exact resolve_behindName hmem hscheme hrest hbare (huri ▸ hopened.object)

/-- A file of a dataset at a revision. -/
theorem resolve_canonical_revision :
    ∃ r r', resolve (text "hf://datasets/o/n@v1/a b#bytes=0-9") = .ok r ∧
      fragmented r.canonicalUri = false ∧ resolve r.canonicalUri = .ok r' ∧ SameObject r r' := by
  have haccepted : ∃ r, resolve (text "hf://datasets/o/n@v1/a b#bytes=0-9") = .ok r ∧
      fragmented r.canonicalUri = false := ⟨_, rfl, by decide +kernel⟩
  obtain ⟨r, hr, hbare⟩ := haccepted
  obtain ⟨r', hr', hsame, -⟩ := resolve_canonical hr hbare
  exact ⟨r, r', hr, hbare, hr', hsame⟩

end Uri

end Karu
