/-
# `Karu.Backends.Url` — `src/backends/url.cpp`

Endpoints and the URLs made of them.  `split_url` is what the backends check an
endpoint with: it must have an HTTP scheme and an authority, and neither user
information nor a fragment.
-/
import Karu.Uri
import Karu.Request

namespace Karu

open Base

namespace Backends

/-- `std::isspace`, in the `C` locale. -/
def isSpace (c : UInt8) : Bool := c == 32 || (9 ≤ c && c ≤ 13)

/-- `trim`. -/
def trim (value : Text) : Text :=
  ((value.dropWhile isSpace).reverse.dropWhile isSpace).reverse

/-- `lower`. -/
def lower (value : Text) : Text := value.map asciiLower

/-- The loop of `without_trailing_slash`, on the text from its end. -/
def popSlashes : Text → Text
  | c :: d :: rest => if c = 47 then popSlashes (d :: rest) else c :: d :: rest
  | short => short

/-- `without_trailing_slash`: the first character always stays. -/
def withoutTrailingSlash (value : Text) : Text := (popSlashes value.reverse).reverse

/-- `starts_with_scheme`. -/
def startsWithScheme (endpoint : Text) : Bool :=
  let normalized := lower (endpoint.take 8)
  (text "http://").isPrefixOf normalized || (text "https://").isPrefixOf normalized

/-- `http_endpoint`. -/
def httpEndpoint (endpoint option : Text) (useHttps : Bool := true) : Except RequestError Text :=
  if startsWithScheme endpoint then .ok endpoint
  else if (findText (text "://") endpoint).isSome then
    .error ⟨.errConfig, option ++ text " must use HTTP or HTTPS"⟩
  else .ok ((if useHttps then text "https://" else text "http://") ++ endpoint)

/-- `UrlParts`. -/
structure UrlParts where
  scheme : Text
  authority : Text
  path : Text
  query : Text := []
deriving DecidableEq, Repr

/-- `split_url`, from the first character behind the authority on. -/
def splitPath (rest : Text) : Text × Text :=
  match find 63 rest with
  | none => (if rest.isEmpty then text "/" else rest, [])
  | some query =>
      let path := rest.take query
      (if path.isEmpty then text "/" else path, rest.drop (query + 1))

/-- `split_url`. -/
def splitUrl (url : Text) : Except RequestError UrlParts :=
  match findText (text "://") url with
  | none => .error ⟨.errConfig, text "endpoint has no URL scheme"⟩
  | some marker =>
      let scheme := lower (url.take marker)
      let rest := url.drop (marker + 3)
      let authority := rest.takeWhile fun c => c != 47 && c != 63
      if scheme ≠ text "http" ∧ scheme ≠ text "https" then
        .error ⟨.errConfig, text "endpoint must use HTTP or HTTPS"⟩
      else if authority.isEmpty then .error ⟨.errConfig, text "endpoint has no authority"⟩
      else if authority.contains 64 then
        .error ⟨.errConfig, text "endpoint must not contain user information"⟩
      else if rest.contains 35 then
        .error ⟨.errConfig, text "endpoint must not contain a fragment"⟩
      else
        let (path, query) := splitPath (rest.drop authority.length)
        .ok { scheme, authority, path, query }

/-- `append_object`. -/
def appendObject (endpoint container key : Text) : Text :=
  withoutTrailingSlash endpoint ++ text "/" ++ container ++ text "/" ++ Uri.encodePath key

/-- `form_encode`. -/
def formEncode (value : Text) : Text :=
  value.flatMap fun c =>
    if Uri.isSafe c && c != 47 then [c] else [37, Uri.hex (c >>> 4), Uri.hex (c &&& 15)]

example : splitUrl (text "HTTPS://h:8080/a/b?x=1") =
    .ok { scheme := text "https", authority := text "h:8080", path := text "/a/b"
          query := text "x=1" } := by
  decide +kernel

end Backends

end Karu
