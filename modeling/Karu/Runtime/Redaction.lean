/-
# `Karu.Runtime.Redaction` — what a redacted URL still shows

`redact_url` finds the userinfo by the first `@` of the authority.  The parser
of `resolvable_host` finds it by the last one, as libcurl does, and so a
password with an `@` in it is cut in two: what stands behind that `@` is taken
for the host and shown.

A URL is given here by its parts.  `redactUrl_text` computes what is left of
them, and two URLs that differ in their secrets alone are compared by it.
-/
import Karu.Runtime.Resolver
import Karu.Text

namespace Karu

open Base

/-! ## URLs -/

/-- A URL with an authority.  The userinfo is all that stands before the last `@` of the authority,
and `host` is the rest of it, port and all. -/
structure UrlParts where
  scheme : Text
  userinfo : Option Text
  host : Text
  path : Text
  query : Option Text
  fragment : Option Text
  scheme_clean : ∀ c ∈ scheme, c ∉ text ":/?#"
  userinfo_clean : ∀ user ∈ userinfo, ∀ c ∈ user, c ∉ text "/?#"
  host_clean : ∀ c ∈ host, c ∉ text "/?#@"
  path_clean : ∀ c ∈ path, c ∉ text "?#"
  path_rooted : path = [] ∨ path.head? = some 47
  query_clean : ∀ q ∈ query, (35 : UInt8) ∉ q

namespace UrlParts

/-- The userinfo as it is written. -/
def userText (u : UrlParts) : Text := (u.userinfo.map (· ++ [64])).getD []

/-- The query and the fragment as they are written. -/
def secretText (u : UrlParts) : Text :=
  (u.query.map (63 :: ·)).getD [] ++ (u.fragment.map (35 :: ·)).getD []

/-- The URL. -/
def toText (u : UrlParts) : Text :=
  u.scheme ++ (text "://" ++ (u.userText ++ (u.host ++ (u.path ++ u.secretText))))

/-- Nothing but the secrets differ, and those are there in both or in neither. -/
structure Alike (u v : UrlParts) : Prop where
  scheme_eq : u.scheme = v.scheme
  host_eq : u.host = v.host
  path_eq : u.path = v.path
  userinfo_alike : u.userinfo.isSome = v.userinfo.isSome
  query_alike : u.query.isSome = v.query.isSome
  fragment_alike : u.fragment.isSome = v.fragment.isSome

/-- What stands in the userinfo behind its first `@`, if it has one. -/
def overlooked (u : UrlParts) : Option Text :=
  u.userinfo.bind fun user => (find 64 user).map fun at_ => user.drop (at_ + 1)

/-- What the userinfo becomes. -/
def redactedUser (u : UrlParts) : Text :=
  if u.userinfo.isSome then text "<redacted>@" ++ (u.overlooked.map (· ++ [64])).getD [] else []

/-- What the query and the fragment become. -/
def redactedSecret (u : UrlParts) : Text :=
  if u.query.isSome then text "?<redacted>"
  else if u.fragment.isSome then text "#<redacted>" else []

end UrlParts

/-! ## The userinfo -/

/-- The first half of `redact_url`, behind the scheme. -/
def hideUser (behind : Text) : Text :=
  match find 64 behind with
  | none => behind
  | some at_ =>
      if (findFirstOf (text "/?#") behind).all (at_ < ·) then text "<redacted>" ++ behind.drop at_
      else behind

theorem redactUserinfo_scheme {scheme : Text} (h : (58 : UInt8) ∉ scheme) (behind : Text) :
    redactUserinfo (scheme ++ (text "://" ++ behind)) =
      scheme ++ (text "://" ++ hideUser behind) := by
  have hcolon : text "://" = 58 :: text "//" := by decide
  have hlen : (text "://").length = 3 := by decide
  have hscheme : findText (text "://") (scheme ++ (text "://" ++ behind)) = some scheme.length := by
    rw [hcolon]
    exact findText_append behind h
  have hdrop : (scheme ++ (text "://" ++ behind)).drop (scheme.length + 3) = behind := by
    rw [← List.append_assoc, ← hlen, ← List.length_append, List.drop_left]
  have htake : (scheme ++ (text "://" ++ behind)).take (scheme.length + 3) =
      scheme ++ text "://" := by
    rw [← List.append_assoc, ← hlen, ← List.length_append, List.take_left]
  have hat := find_from 64 (scheme ++ (text "://" ++ behind)) (scheme.length + 3)
  have hend := findFirstOf_from (text "/?#") (scheme ++ (text "://" ++ behind)) (scheme.length + 3)
  rw [hdrop] at hat hend
  simp only [redactUserinfo, hscheme, hat, hend, htake, hideUser]
  cases find 64 behind with
  | none => simp
  | some at_ =>
      have hguard : ((findFirstOf (text "/?#") behind).map (· + (scheme.length + 3))).all
          (at_ + (scheme.length + 3) < ·) = (findFirstOf (text "/?#") behind).all (at_ < ·) := by
        cases findFirstOf (text "/?#") behind <;> simp
      have hrest : (scheme ++ (text "://" ++ behind)).drop (at_ + (scheme.length + 3)) =
          behind.drop at_ := by
        rw [Nat.add_comm, ← List.drop_drop, hdrop]
      simp only [Option.map_some, hguard, hrest]
      split <;> simp

/-- All up to the first `@` is hidden, where it stands in the authority. -/
theorem hideUser_at {user : Text} (hat : (64 : UInt8) ∉ user) (hclean : ∀ c ∈ user, c ∉ text "/?#")
    (rest : Text) : hideUser (user ++ 64 :: rest) = text "<redacted>@" ++ rest := by
  have hguard : (findFirstOf (text "/?#") (user ++ 64 :: rest)).all (user.length < ·) = true := by
    have hfirst : user ++ 64 :: rest = (user ++ [64]) ++ rest := by simp
    have hboth : ∀ c ∈ user ++ [64], c ∉ text "/?#" := by
      intro c hc
      rcases List.mem_append.mp hc with hc | hc
      · exact hclean c hc
      · rw [List.mem_singleton.mp hc]
        decide
    rw [hfirst, findFirstOf_append hboth]
    cases findFirstOf (text "/?#") rest with
    | none => rfl
    | some k => simp; omega
  have hmark : text "<redacted>@" = text "<redacted>" ++ [64] := by decide
  simp only [hideUser, find_append rest hat, hguard, if_true, hmark]
  simp

/-- An authority without `@` is left alone. -/
theorem hideUser_none {host rest : Text} (hhost : ∀ c ∈ host, c ∉ text "/?#@")
    (hrest : rest = [] ∨ ∃ c ∈ text "/?#", rest.head? = some c) :
    hideUser (host ++ rest) = host ++ rest := by
  have hat : (64 : UInt8) ∉ host := fun h => hhost 64 h (by decide)
  unfold hideUser
  split
  · rfl
  · rename_i at_ hfind
    have hge := find_append_ge hat hfind
    have hclean : ∀ c ∈ host, c ∉ text "/?#" := fun c hc hset =>
      hhost c hc (by
        have hsub : ∀ c ∈ text "/?#", c ∈ text "/?#@" := by decide +kernel
        exact hsub c hset)
    rcases hrest with rfl | ⟨c, hc, hhead⟩
    · rw [List.append_nil] at hfind
      rw [find_eq_none hat] at hfind
      cases hfind
    · cases rest with
      | nil => cases hhead
      | cons d rest =>
          cases hhead
          have hfirst : findFirstOf (text "/?#") (c :: rest) = some 0 := by
            have hmem : (text "/?#").contains c = true := by simpa using hc
            simp only [findFirstOf, List.drop_zero, List.findIdx?_cons, hmem]
            rfl
          rw [findFirstOf_append hclean, hfirst, if_neg]
          simp
          exact hge

/-! ## The query and the fragment -/

/-- The second half of `redact_url`. -/
def hideSecret (result : Text) : Text :=
  match find 63 result, find 35 result with
  | none, none => result
  | some query, none => result.take query ++ text "?<redacted>"
  | none, some fragment => result.take fragment ++ text "#<redacted>"
  | some query, some fragment =>
      if query ≤ fragment then result.take query ++ text "?<redacted>"
      else result.take fragment ++ text "#<redacted>"

theorem redactUrl_halves (url : Text) : redactUrl url = hideSecret (redactUserinfo url) := rfl

section Secrets

variable {before : Text}

theorem hideSecret_query (hq : (63 : UInt8) ∉ before) (hf : (35 : UInt8) ∉ before) (rest : Text) :
    hideSecret (before ++ 63 :: rest) = before ++ text "?<redacted>" := by
  simp only [hideSecret, find_append rest hq]
  cases hfragment : find 35 (before ++ 63 :: rest) with
  | none => simp
  | some fragment => simp [find_append_ge hf hfragment]

theorem hideSecret_fragment (hq : (63 : UInt8) ∉ before) (hf : (35 : UInt8) ∉ before) (rest : Text) :
    hideSecret (before ++ 35 :: rest) = before ++ text "#<redacted>" := by
  simp only [hideSecret, find_append rest hf]
  cases hquery : find 63 (before ++ 35 :: rest) with
  | none => simp
  | some query =>
      have hlonger : before ++ 35 :: rest = (before ++ [35]) ++ rest := by simp
      have hnot : (63 : UInt8) ∉ before ++ [35] := by
        rw [List.mem_append, not_or]
        exact ⟨hq, by decide⟩
      rw [hlonger] at hquery
      have hge := find_append_ge hnot hquery
      rw [List.length_append, List.length_singleton] at hge
      simp only
      rw [if_neg (by omega), take_before]

theorem hideSecret_none (hq : (63 : UInt8) ∉ before) (hf : (35 : UInt8) ∉ before) :
    hideSecret before = before := by
  simp only [hideSecret, find_eq_none hq, find_eq_none hf]

end Secrets

/-! ## What is shown -/

namespace UrlParts

variable (u : UrlParts)

/-- What the userinfo, if there is one, is cut into. -/
theorem userText_cut (h : u.userinfo.isSome = true) :
    ∃ user, (64 : UInt8) ∉ user ∧ (∀ c ∈ user, c ∉ text "/?#") ∧
      u.userText = user ++ 64 :: (u.overlooked.map (· ++ [64])).getD [] := by
  obtain ⟨user, huser⟩ := Option.isSome_iff_exists.mp h
  have hclean := u.userinfo_clean user huser
  simp only [userText, overlooked, huser, Option.map_some, Option.getD_some, Option.bind_some]
  cases hat : find 64 user with
  | none => exact ⟨user, find_none hat, hclean, by simp⟩
  | some at_ =>
      obtain ⟨hsplit, hbefore⟩ := find_split hat
      refine ⟨user.take at_, hbefore, fun c hc => hclean c (List.mem_of_mem_take hc), ?_⟩
      simp only [Option.map_some, Option.getD_some]
      rw [← List.cons_append, ← List.append_assoc, ← hsplit]

theorem behind_host : u.path ++ u.secretText = [] ∨
    ∃ c ∈ text "/?#", (u.path ++ u.secretText).head? = some c := by
  rcases u.path_rooted with hpath | hpath
  · rw [hpath, List.nil_append, secretText]
    cases u.query with
    | some query => exact Or.inr ⟨63, by decide, rfl⟩
    | none =>
        cases u.fragment with
        | some fragment => exact Or.inr ⟨35, by decide, rfl⟩
        | none => exact Or.inl rfl
  · refine Or.inr ⟨47, by decide, ?_⟩
    rw [List.head?_append, hpath]
    rfl

theorem hideUser_behind :
    hideUser (u.userText ++ (u.host ++ (u.path ++ u.secretText))) =
      u.redactedUser ++ (u.host ++ (u.path ++ u.secretText)) := by
  cases h : u.userinfo.isSome with
  | true =>
      obtain ⟨user, hat, hclean, hcut⟩ := u.userText_cut h
      rw [hcut, List.append_assoc, List.cons_append, hideUser_at hat hclean, redactedUser, if_pos h,
        List.append_assoc]
  | false =>
      have hnone : u.userinfo = none := by simpa using h
      have huser : u.userText = [] := by rw [userText, hnone]; rfl
      rw [huser, List.nil_append, hideUser_none u.host_clean u.behind_host, redactedUser, h]
      rfl

/-- All of the redacted URL that stands before the query and the fragment. -/
def shown : Text := u.scheme ++ (text "://" ++ (u.redactedUser ++ (u.host ++ u.path)))

theorem overlooked_clean {rest : Text} (h : u.overlooked = some rest) :
    ∀ c ∈ rest, c ∉ text "/?#" := by
  unfold overlooked at h
  obtain ⟨user, huser, hrest⟩ := Option.bind_eq_some_iff.mp h
  obtain ⟨at_, -, rfl⟩ := Option.map_eq_some_iff.mp hrest
  exact fun c hc => u.userinfo_clean user huser c (List.mem_of_mem_drop hc)

theorem redactedUser_clean : ∀ c ∈ u.redactedUser, c ∉ text "?#" := by
  have hmark : ∀ c ∈ text "<redacted>@", c ∉ text "?#" := by decide +kernel
  intro c hc
  unfold redactedUser at hc
  split at hc
  · rcases List.mem_append.mp hc with hc | hc
    · exact hmark c hc
    · cases hrest : u.overlooked with
      | none =>
          rw [hrest] at hc
          cases hc
      | some rest =>
          rw [hrest] at hc
          rcases List.mem_append.mp hc with hc | hc
          · have hsub : ∀ c ∈ text "?#", c ∈ text "/?#" := by decide +kernel
            exact fun hset => u.overlooked_clean hrest c hc (hsub c hset)
          · rw [List.mem_singleton.mp hc]
            decide
  · cases hc

/-- Nothing shown begins a query or a fragment. -/
theorem shown_clean : ∀ c ∈ u.shown, c ∉ text "?#" := by
  have hscheme : ∀ c ∈ text "?#", c ∈ text ":/?#" := by decide +kernel
  have hhost : ∀ c ∈ text "?#", c ∈ text "/?#@" := by decide +kernel
  have hcolon : ∀ c ∈ text "://", c ∉ text "?#" := by decide +kernel
  intro c hc
  simp only [shown, List.mem_append] at hc
  rcases hc with hc | hc | hc | hc | hc
  · exact fun hset => u.scheme_clean c hc (hscheme c hset)
  · exact hcolon c hc
  · exact u.redactedUser_clean c hc
  · exact fun hset => u.host_clean c hc (hhost c hset)
  · exact u.path_clean c hc

/-- What `redact_url` makes of a URL. -/
theorem redactUrl_toText : redactUrl u.toText = u.shown ++ u.redactedSecret := by
  have hscheme : (58 : UInt8) ∉ u.scheme := fun h => u.scheme_clean 58 h (by decide)
  have hq : (63 : UInt8) ∉ u.shown := fun h => u.shown_clean 63 h (by decide)
  have hf : (35 : UInt8) ∉ u.shown := fun h => u.shown_clean 35 h (by decide)
  have hfirst : redactUserinfo u.toText = u.shown ++ u.secretText := by
    rw [toText, redactUserinfo_scheme hscheme, hideUser_behind]
    simp only [shown, List.append_assoc]
  rw [redactUrl_halves, hfirst, secretText, redactedSecret]
  cases u.query with
  | some query => exact hideSecret_query hq hf _
  | none =>
      cases u.fragment with
      | some fragment => exact hideSecret_fragment hq hf _
      | none =>
          simp only [Option.map_none, Option.getD_none, List.append_nil, Option.isSome_none,
            Bool.false_eq_true, if_false]
          exact hideSecret_none hq hf

end UrlParts

/-! ## Two URLs -/

section Alike

variable {u v : UrlParts}

theorem overlooked_of_redactedUser (h : u.userinfo.isSome = v.userinfo.isSome)
    (heq : u.redactedUser = v.redactedUser) : u.overlooked = v.overlooked := by
  cases hu : u.userinfo.isSome with
  | false =>
      have hv : v.userinfo.isSome = false := h ▸ hu
      rw [Option.isSome_eq_false_iff, Option.isNone_iff_eq_none] at hu hv
      rw [UrlParts.overlooked, UrlParts.overlooked, hu, hv]
  | true =>
      have hv : v.userinfo.isSome = true := h ▸ hu
      simp only [UrlParts.redactedUser, hu, hv, if_true, List.append_cancel_left_eq] at heq
      cases hou : u.overlooked with
      | none =>
          cases hov : v.overlooked with
          | none => rfl
          | some rest => simp [hou, hov] at heq
      | some rest =>
          cases hov : v.overlooked with
          | none => simp [hou, hov] at heq
          | some other => simpa [hou, hov] using heq

/-- Two URLs with the same public parts are redacted to the same text exactly when their
userinfos agree behind their first `@`: a userinfo with no `@` is hidden as a whole, and so are
queries and fragments of any kind. -/
theorem redactUrl_hides (h : u.Alike v) :
    redactUrl u.toText = redactUrl v.toText ↔ u.overlooked = v.overlooked := by
  have hsecret : u.redactedSecret = v.redactedSecret := by
    rw [UrlParts.redactedSecret, UrlParts.redactedSecret, h.query_alike, h.fragment_alike]
  rw [u.redactUrl_toText, v.redactUrl_toText, hsecret, List.append_cancel_right_eq, UrlParts.shown,
    UrlParts.shown, h.scheme_eq, h.host_eq, h.path_eq, List.append_cancel_left_eq,
    List.append_cancel_left_eq, List.append_cancel_right_eq]
  constructor
  · exact overlooked_of_redactedUser h.userinfo_alike
  · intro heq
    rw [UrlParts.redactedUser, UrlParts.redactedUser, h.userinfo_alike, heq]

end Alike

/-- `https://host/object`, with a userinfo. -/
def withPassword (user : Text) (clean : ∀ c ∈ user, c ∉ text "/?#") : UrlParts where
  scheme := text "https"
  userinfo := some user
  host := text "host"
  path := text "/object"
  query := none
  fragment := none
  scheme_clean := by decide +kernel
  userinfo_clean := by
    rintro _ ⟨⟩
    exact clean
  host_clean := by decide +kernel
  path_clean := by decide +kernel
  path_rooted := by decide
  query_clean := by rintro _ ⟨⟩

theorem withPassword_alike {a b : Text} (ha : ∀ c ∈ a, c ∉ text "/?#")
    (hb : ∀ c ∈ b, c ∉ text "/?#") : (withPassword a ha).Alike (withPassword b hb) :=
  ⟨rfl, rfl, rfl, rfl, rfl, rfl⟩

/-- `user:pass`. -/
def plainPassword : UrlParts := withPassword (text "user:pass") (by decide +kernel)

/-- `user:p@ss`. -/
def oddPassword : UrlParts := withPassword (text "user:p@ss") (by decide +kernel)

/-- `me:`, and no password. -/
def emptyPassword : UrlParts := withPassword (text "me:") (by decide +kernel)

theorem redactUrl_hides_plain : plainPassword.Alike emptyPassword ∧
    redactUrl plainPassword.toText = redactUrl emptyPassword.toText :=
  ⟨withPassword_alike _ _, (redactUrl_hides (withPassword_alike _ _)).mpr (by decide)⟩

/-- Half of a password is shown. -/
theorem redactUrl_shows : oddPassword.Alike plainPassword ∧
    oddPassword.toText = text "https://user:p@ss@host/object" ∧
    redactUrl oddPassword.toText = text "https://<redacted>@ss@host/object" ∧
    redactUrl plainPassword.toText = text "https://<redacted>@host/object" := by
  refine ⟨withPassword_alike _ _, ?_, ?_, ?_⟩
  · decide +kernel
  · decide +kernel
  · decide +kernel

end Karu
