/-
# `Karu.Backends.Headers` — configured headers, and the request that is sent

`KARU_HTTP_HEADERS` is cut into lines when a configuration is frozen
(`src/config.cpp`), and its headers are added to those of every request
(`src/backends/credentials.cpp`), behind what the backend has generated.  The
request is put together by `RequestBuilder::materialize_range`.

| source                                    | here                        |
|-------------------------------------------|-----------------------------|
| `parse_configured_headers`                | `parseConfiguredHeaders`    |
| `add_configured_headers`                  | `addConfiguredHeaders`      |
| `prepare_http`, `prepare_hugging_face`    | `prepareHttp`, `prepareHuggingFace` |
| `RequestBuilder::materialize_range`       | `materializeRange`          |

What the file of a Hugging Face token answers is a parameter (`TokenFile`).
-/
import Karu.Backends.Credentials

namespace Karu

open Base

namespace Backends

/-! ## `KARU_HTTP_HEADERS` -/

/-- `ConfiguredHeader`. -/
structure ConfiguredHeader where
  name : Text := []
  lowercaseName : Text := []
  value : Text := []
  malformed : Bool := false
deriving DecidableEq, Repr

/-- One of `"\r\n"`. -/
def isLineEnd (c : UInt8) : Bool := c == 13 || c == 10

/-- What a line that is not blank stands for; a name needs a colon behind it. -/
def parseConfiguredHeader (line : Text) : ConfiguredHeader :=
  match find 58 line with
  | none | some 0 => { malformed := true }
  | some colon =>
      let name := trim (line.take colon)
      { name, lowercaseName := lower name, value := trim (line.drop (colon + 1)) }

/-- The loop of `parse_configured_headers`, on what is left of the text. -/
def parseHeaderLines : Nat → Text → List ConfiguredHeader
  | 0, _ => []
  | turns + 1, rest =>
      if rest.isEmpty then []
      else
        let line := trim (rest.takeWhile (!isLineEnd ·))
        let behind := (rest.dropWhile (!isLineEnd ·)).dropWhile isLineEnd
        if line.isEmpty then parseHeaderLines turns behind
        else
          let header := parseConfiguredHeader line
          if header.malformed then [header] else header :: parseHeaderLines turns behind

/-- `parse_configured_headers`. -/
def parseConfiguredHeaders (value : Text) : List ConfiguredHeader :=
  parseHeaderLines value.length value

/-- `ConfigSnapshot::configured_headers`, as `freeze` has set them. -/
def configuredHeaders (config : ConfigSnapshot) : List ConfiguredHeader :=
  parseConfiguredHeaders (config.option [] (text "KARU_HTTP_HEADERS"))

/-! ## `add_configured_headers` -/

/-- `protected_header`. -/
def protectedHeader (protectAuthentication : Bool) (normalized : Text) : Bool :=
  protectAuthentication &&
    (normalized == text "authorization" || normalized == text "date" ||
      normalized == text "if-match" || (text "x-amz-").isPrefixOf normalized ||
      (text "x-goog-").isPrefixOf normalized || (text "x-ms-").isPrefixOf normalized)

/-- The condition on which a configured header is refused. -/
def managedHeader (protectAuthentication : Bool) (headers : List Header) (normalized : Text) :
    Bool :=
  normalized == text "host" || normalized == text "range" ||
    headers.any (fun current => lower current.1 == normalized) ||
    protectedHeader protectAuthentication normalized

/-- The second loop of `add_configured_headers`. -/
def appendConfigured (protectAuthentication : Bool) :
    List ConfiguredHeader → List Header → Except RequestError (List Header)
  | [], headers => .ok headers
  | configured :: rest, headers =>
      if configured.malformed then
        .error ⟨.errConfig, text "KARU_HTTP_HEADERS contains a malformed header"⟩
      else if managedHeader protectAuthentication headers configured.lowercaseName then
        .error ⟨.errConfig, text "KARU_HTTP_HEADERS cannot override Karu-managed header '" ++
          configured.name ++ text "'"⟩
      else
        appendConfigured protectAuthentication rest (headers ++ [(configured.name, configured.value)])

/-- `add_configured_headers`; a generated header is checked as `credential_request` checks one. -/
def addConfiguredHeaders (config : ConfigSnapshot) (headers : List Header)
    (protectAuthentication : Bool) : Except RequestError (List Header) :=
  if headers.any (!validHeader ·) then
    .error ⟨.errConfig, text "a generated HTTP header is invalid"⟩
  else appendConfigured protectAuthentication (configuredHeaders config) headers

/-! ## The backends that add them -/

/-- `prepare_http`. -/
def prepareHttp (config : ConfigSnapshot) (object : Resolved) (ifMatch : Text) :
    Except RequestError PreparedRequest := do
  let headers : List Header := if ifMatch.isEmpty then [] else [(text "If-Match", ifMatch)]
  let headers ← addConfiguredHeaders config headers false
  return { url := object.target, headers }

/-- What `hugging_face_token_path`, `path_exists` and `read_text_file` answer. -/
structure TokenFile where
  path : Text := []
  found : Except RequestError Bool := .ok false
  contents : Except RequestError Text := .ok []

/-- `hugging_face_token`. -/
def huggingFaceToken (config : ConfigSnapshot) (path : Text) (file : TokenFile) :
    Except RequestError Text := do
  let token := config.option path (text "HF_TOKEN")
  if !token.isEmpty then return token
  if file.path.isEmpty then return []
  let found ← file.found
  if !found then return []
  let contents ← file.contents
  return trim contents

/-- `prepare_hugging_face`, up to the configured headers. -/
def huggingFaceRequest (config : ConfigSnapshot) (object : Resolved) (file : TokenFile)
    (ifMatch : Text) : Except RequestError PreparedRequest := do
  let endpoint ← httpEndpoint (withoutTrailingSlash
    (config.option object.canonicalUri (text "HF_ENDPOINT") (text "https://huggingface.co")))
    (text "HF_ENDPOINT")
  let endpoint := withoutTrailingSlash endpoint
  let parts ← splitUrl endpoint
  if !parts.query.isEmpty then .error ⟨.errConfig, text "HF_ENDPOINT cannot contain a query"⟩
  else
    let token ← huggingFaceToken config object.canonicalUri file
    return {
      url := endpoint ++ object.target
      headers :=
        (if token.isEmpty then [] else [(text "Authorization", text "Bearer " ++ token)]) ++
        (if ifMatch.isEmpty then [] else [(text "If-Match", ifMatch)]) }

/-- `prepare_hugging_face`. -/
def prepareHuggingFace (config : ConfigSnapshot) (object : Resolved) (file : TokenFile)
    (ifMatch : Text) : Except RequestError PreparedRequest := do
  let request ← huggingFaceRequest config object file ifMatch
  let headers ← addConfiguredHeaders config request.headers true
  return { request with headers }

/-! ## `materialize_range` -/

/-- `backends::RequestContext`, and the token file. -/
structure RequestContext where
  config : ConfigSnapshot
  object : Resolved
  credentials : Option ProviderCredentials := none
  range : Text := []
  regionHint : Text := []
  ifMatch : Text := []
  signingTime : Int := 0
  tokenFile : TokenFile := {}

/-- `provider->prepare_request`, if the backend has a provider. -/
def prepareRequest (crypto : Crypto) (c : RequestContext) :
    Option (Except RequestError PreparedRequest) :=
  match c.object.backend with
  | .s3 => some (prepareAws crypto c.config c.object c.credentials c.range c.regionHint c.ifMatch
      c.signingTime)
  | .gcs => some (prepareGcs crypto c.config c.object c.credentials c.ifMatch c.signingTime)
  | .azure => some (prepareAzure crypto c.config c.object c.credentials c.range c.ifMatch
      c.signingTime)
  | .source => some (prepareSource crypto c.config c.object c.credentials c.range c.ifMatch
      c.signingTime)
  | .file | .http | .huggingFace => none

/-- A request as `materialize_range` returns it. -/
structure MaterializedRequest extends PreparedRequest where
  range : Text
  http : HttpRequestOptions
deriving DecidableEq, Repr

/-- The range and `apply_http_options`. -/
def materialized (c : RequestContext) (prepared : PreparedRequest) : MaterializedRequest :=
  { prepared with
    range := c.range
    http := { followRedirects := prepared.followRedirects
              sameOriginRedirectsOnly :=
                !(c.config.option [] (text "KARU_HTTP_HEADERS")).isEmpty } }

/-- `RequestBuilder::materialize_range`. -/
def materializeRange (crypto : Crypto) (c : RequestContext) :
    Except RequestError MaterializedRequest :=
  if c.object.backend = .http then
    (prepareHttp c.config c.object c.ifMatch).map (materialized c)
  else if c.object.backend = .huggingFace then
    (prepareHuggingFace c.config c.object c.tokenFile c.ifMatch).map (materialized c)
  else
    match prepareRequest crypto c with
    | none => .error ⟨.errUnsupported, text "unsupported request backend"⟩
    | some prepared => do
        let prepared ← prepared
        let headers ← addConfiguredHeaders c.config prepared.headers true
        return materialized c { prepared with headers }

end Backends

end Karu
