/-
# `Karu.Text` — `src/text.hpp`

`redact_url` hides the userinfo and everything from the query or fragment on.
It is the spelling every error message uses for a URL.
-/
import Karu.Base.Text

namespace Karu

open Base

/-- The first half of `redact_url`: the userinfo becomes `<redacted>`. -/
def redactUserinfo (url : Text) : Text :=
  match findText (text "://") url with
  | none => url
  | some scheme =>
      let authority := scheme + 3
      let authorityEnd := findFirstOf (text "/?#") url authority
      match find 64 url authority with
      | none => url
      | some at_ =>
          if authorityEnd.all (at_ < ·) then
            url.take authority ++ text "<redacted>" ++ url.drop at_
          else url

/-- `redact_url`. -/
def redactUrl (url : Text) : Text :=
  let result := redactUserinfo url
  match find 63 result, find 35 result with
  | none, none => result
  | some query, none => result.take query ++ text "?<redacted>"
  | none, some fragment => result.take fragment ++ text "#<redacted>"
  | some query, some fragment =>
      -- `secret` is the smaller of the two; they never coincide
      if query ≤ fragment then result.take query ++ text "?<redacted>"
      else result.take fragment ++ text "#<redacted>"

example : redactUrl (text "https://u:p@h/a?sig=1#x") = text "https://<redacted>@h/a?<redacted>" := by
  decide

end Karu
