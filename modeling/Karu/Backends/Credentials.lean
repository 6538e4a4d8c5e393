/-
# `Karu.Backends.Credentials` — `src/backends/credentials.cpp`

What the credential loaders are made of.  A loader is a program that asks the
machine it runs on: whether a path exists, what a file holds, what an endpoint
answers, what a helper prints, what time it is.  Everything else is computed
from the answers and the configuration.

| source                        | here                     |
|-------------------------------|--------------------------|
| `std::filesystem::exists`     | `Question.exists`        |
| `std::ifstream` to its end    | `Question.read`          |
| `curl_easy_perform`           | `Question.send`          |
| `os::run_command`             | `Question.run`           |
| `std::time(nullptr)`          | `Question.time`          |
| `std::expected<T, RequestError>` | `Loader T`            |

Allocation succeeds.  A response that `collect_body` refuses, because it is
longer than 1 MiB, is one of the failures of `send`.
-/
import Karu.Base.Ask
import Karu.Backends.Prepare

namespace Karu

open Base

namespace Backends

/-! ## Client-wide options -/

/-- `HttpVersion`. -/
inductive HttpVersion where
  | automatic | http11 | http2Tls | http2PriorKnowledge
deriving DecidableEq, Repr

/-- The fields of `HttpRequestOptions` that `credential_request` hands to libcurl. -/
structure CurlOptions where
  version : HttpVersion := .http11
  caBundle : Text := []
  systemCaBundle : Bool := false
  caPath : Text := []
  proxy : Text := []
  proxyUserPassword : Text := []
  userAgent : Text := []
deriving DecidableEq, Repr

/-- The platform under the loaders, as far as it is a matter of computation: OpenSSL's signature
and Base64, and the certificate bundle that was found on the system. -/
structure Platform where
  crypto : Crypto
  /-- `EVP_DigestSign*` with SHA-256, for a private key in PEM. -/
  digestSign : Text → Text → Except RequestError Text
  systemCaBundle : Text := []

/-- `compute_http_options`. -/
def computeHttpOptions (platform : Platform) (config : ConfigSnapshot) : CurlOptions :=
  let version := uppercase (config.option [] (text "KARU_HTTP_VERSION") (text "1.1"))
  let configured :=
    config.hasOption [] (text "KARU_HTTP_CA_BUNDLE") || config.hasOption [] (text "KARU_HTTP_CA_PATH")
  { version :=
      if version = text "AUTO" then .automatic
      else if version = text "2" ∨ version = text "2TLS" then .http2Tls
      else if version = text "2PRIOR_KNOWLEDGE" then .http2PriorKnowledge
      else .http11
    caBundle :=
      if configured then config.option [] (text "KARU_HTTP_CA_BUNDLE") else platform.systemCaBundle
    systemCaBundle := !configured && !platform.systemCaBundle.isEmpty
    caPath := config.option [] (text "KARU_HTTP_CA_PATH")
    proxy := config.option [] (text "KARU_HTTP_PROXY")
    proxyUserPassword := config.option [] (text "KARU_HTTP_PROXY_CREDENTIALS")
    userAgent := config.option [] (text "KARU_HTTP_USER_AGENT") (text "karu/0.4.0") }

/-- `http_options`: client-wide, the path is unused. -/
def httpOptions (platform : Platform) (config : ConfigSnapshot) (_path : Text) : CurlOptions :=
  computeHttpOptions platform config

/-- `client_options().request_timeout_seconds`: what `freeze` has parsed. -/
def requestTimeoutSeconds (config : ConfigSnapshot) : Int :=
  let name := text "KARU_REQUEST_TIMEOUT"
  match parseInteger name (config.option [] name (text "120")) 0 86400 with
  | .ok seconds => seconds
  | .error _ => 120

/-- `expand_user_path`. -/
def expandUserPath (config : ConfigSnapshot) (path : Text) : Text :=
  if config.homeDirectory.isEmpty then path
  else if path = text "~" then config.homeDirectory
  else if !(text "~/").isPrefixOf path && !(text "~\\").isPrefixOf path then path
  else config.homeDirectory ++ path.drop 1

/-- `default_aws_path`. -/
def defaultAwsPath (config : ConfigSnapshot) (suffix : Text) : Text :=
  if config.homeDirectory.isEmpty then [] else config.homeDirectory ++ text "/.aws/" ++ suffix

/-- `default_gcloud_adc_path`. -/
def defaultGcloudAdcPath (config : ConfigSnapshot) : Text :=
  if config.homeDirectory.isEmpty then []
  else config.homeDirectory ++ text "/.config/gcloud/application_default_credentials.json"

/-! ## Questions -/

/-- `HttpResponse`. -/
structure HttpResponse where
  status : Nat := 0
  body : Text := []
deriving DecidableEq, Repr

/-- `status >= 200 && status < 300`. -/
def HttpResponse.good (response : HttpResponse) : Bool :=
  decide (200 ≤ response.status) && decide (response.status < 300)

/-- What `credential_request` has set up when it calls `curl_easy_perform`. -/
structure CredentialRequest where
  method : Text
  url : Text
  body : Text
  headers : List Header
  timeoutSeconds : Int
  options : CurlOptions
deriving DecidableEq, Repr

/-- What becomes of a credential request. -/
inductive Sent where
  | refused (message : Text)
  | failed (message : Text)
  | response (response : HttpResponse)
deriving DecidableEq, Repr

/-- What reading a file to its end gives.  A read error may come behind some octets. -/
inductive FileRead where
  | unopened
  | contents (octets : Text)
  | broken (octets : Text)
deriving DecidableEq, Repr

/-- `CommandResult`. -/
structure CommandResult where
  output : Text := []
  exitCode : Int := -1
  timedOut : Bool := false
  outputLimitExceeded : Bool := false
deriving DecidableEq, Repr

/-- What a loader asks the machine. -/
inductive Question where
  | exists (path : Text)
  | read (path : Text)
  | send (request : CredentialRequest)
  | run (command : Text) (outputLimit : Nat) (timeoutSeconds : Int)
  | time
deriving DecidableEq, Repr

/-- The answers; an `error_code` is its message. -/
@[reducible] def Question.Answer : Question → Type
  | .exists _ => Except Text Bool
  | .read _ => FileRead
  | .send _ => Sent
  | .run _ _ _ => Except Text CommandResult
  | .time => Int

/-- A program that ends in a value or in a `RequestError`. -/
abbrev Loader (α : Type) := ExceptT RequestError (Ask Question.Answer) α

namespace Loader

def ask (q : Question) : Loader q.Answer := ExceptT.lift (Ask.question q)

/-- The `std::expected` itself, for callers that look at it. -/
def observe {α : Type} (x : Loader α) : Loader (Except RequestError α) := ExceptT.lift x.run

end Loader

open Loader

/-! ## Files -/

/-- `path_exists`. -/
def pathExists (path purpose : Text) : Loader Bool := do
  match ← ask (.exists path) with
  | .ok found => pure found
  | .error message =>
      throw ⟨.errCredentials, purpose ++ text ": cannot inspect '" ++ path ++ text "': " ++ message⟩

/-- `read_text_file`. -/
def readTextFile (path purpose : Text) : Loader Text := do
  let tooLong : Loader Text := throw ⟨.errCredentials, purpose ++ text ": file exceeds 1 MiB"⟩
  match ← ask (.read path) with
  | .unopened =>
      throw ⟨.errCredentials, purpose ++ text ": cannot open '" ++ path ++ text "'"⟩
  | .contents octets => if 2 ^ 20 < octets.length then tooLong else pure octets
  | .broken octets =>
      if 2 ^ 20 < octets.length then tooLong
      else throw ⟨.errCredentials, purpose ++ text ": cannot read '" ++ path ++ text "'"⟩

/-- `IniSection`. -/
abbrev IniSection := OptionMap

/-- `IniFile`. -/
abbrev IniFile := Text → Option IniSection

/-- `std::getline`, until the text is used up. -/
def lines (contents : Text) : List Text := contents.splitOn 10

/-- One line of `read_ini`: the file so far and the section it is in. -/
def iniLine (state : IniFile × Text) (raw : Text) : IniFile × Text :=
  let line := trim raw
  if line.isEmpty || line.head? == some 35 || line.head? == some 59 then state
  else if line.head? == some 91 && line.getLast? == some 93 then
    (state.1, trim ((line.drop 1).take (line.length - 2)))
  else
    match findFirstOf (text "=:") line with
    | none => state
    | some separator =>
        if state.2.isEmpty then state
        else
          let values := (state.1 state.2).getD OptionMap.empty
          let assigned := values.assign (lower (trim (line.take separator)))
            (some (trim (line.drop (separator + 1))))
          (fun other => if other = state.2 then some assigned else state.1 other, state.2)

/-- `read_ini`. -/
def readIni (path purpose : Text) : Loader IniFile := do
  let contents ← readTextFile path purpose
  pure ((lines contents).foldl iniLine (fun _ => none, [])).1

/-! ## JSON and dates -/

/-- What follows a backslash in a JSON string. -/
def unescape (c : UInt8) : Option UInt8 :=
  if c = 34 ∨ c = 92 ∨ c = 47 then some c
  else if c = 98 then some 8
  else if c = 102 then some 12
  else if c = 110 then some 10
  else if c = 114 then some 13
  else if c = 116 then some 9
  else none

/-- The characters of a JSON string, from behind the opening quote. -/
def jsonCharacters : Text → Option Text
  | [] => none
  | [c] => if c = 34 then some [] else none
  | c :: d :: rest =>
      if c = 34 then some []
      else if c = 92 then do
        let e ← unescape d
        let more ← jsonCharacters rest
        pure (e :: more)
      else (jsonCharacters (d :: rest)).map (c :: ·)

/-- The loop of `json_string`, on what is left of the text.  Each turn takes the quoted name off,
so as many turns as there are characters are enough. -/
def jsonSearch (needle : Text) : Nat → Text → Option Text
  | 0, _ => none
  | turns + 1, rest =>
      match findText needle rest with
      | none => none
      | some position =>
          let behind := rest.drop (position + needle.length)
          match behind.dropWhile isSpace with
          | 58 :: value =>
              match value.dropWhile isSpace with
              | 34 :: characters => jsonCharacters characters
              | _ => none
          | _ => jsonSearch needle turns behind

/-- `json_string`. -/
def jsonString (json name : Text) : Option Text :=
  jsonSearch (text "\"" ++ name ++ text "\"") (json.length + 1) json

/-- `json_integer`. -/
def jsonInteger (json name : Text) : Option Int :=
  let bare : Option Int := do
    let needle := text "\"" ++ name ++ text "\""
    let found ← findText needle json
    let cursor ← find 58 json (found + needle.length)
    let (value, _) ← fromCharsLong ((json.drop (cursor + 1)).dropWhile isSpace)
    pure value
  match jsonString json name with
  | none => bare
  | some quoted =>
      match fromCharsLong quoted with
      | some (value, []) => some value
      | _ => bare

/-- A part of a format of `std::get_time`: a number, with its digits and bounds, or a character. -/
inductive TimePart where
  | number (digits least greatest : Nat)
  | literal (c : UInt8)

/-- A number: at least one digit and at most so many. -/
def getTimeNumber (digits least greatest : Nat) (input : Text) : Option (Nat × Text) :=
  let number := (input.take digits).takeWhile isDigit
  if number.isEmpty ∨ digitsValue number < least ∨ greatest < digitsValue number then none
  else some (digitsValue number, input.drop number.length)

/-- `std::get_time`: the numbers it has read.  A text may end behind any of them, which sets
`eofbit` and no `failbit`; characters are compared without case. -/
def getTime : List TimePart → Text → Option (List Nat)
  | [], _ => some []
  | _ :: _, [] => none
  | .literal c :: format, d :: rest =>
      if asciiLower d = asciiLower c then getTime format rest else none
  | .number digits least greatest :: format, input => do
      let (value, rest) ← getTimeNumber digits least greatest input
      if rest.isEmpty then pure [value] else pure (value :: (← getTime format rest))

/-- `%Y-%m-%dT%H:%M:%S`. -/
def isoFormat : List TimePart :=
  [.number 4 0 9999, .literal 45, .number 2 1 12, .literal 45, .number 2 1 31, .literal 84,
    .number 2 0 23, .literal 58, .number 2 0 59, .literal 58, .number 2 0 60]

/-- `timegm`, on a date of the Gregorian calendar: days since 1970 by counting years from March. -/
def timegm (year month day hour minute second : Nat) : Int :=
  let y : Int := if month ≤ 2 then (year : Int) - 1 else year
  let era := y / 400
  let yearOfEra := y % 400
  let monthFromMarch : Int := if month ≤ 2 then month + 9 else (month : Int) - 3
  let dayOfYear := (153 * monthFromMarch + 2) / 5 + (day : Int) - 1
  let dayOfEra := yearOfEra * 365 + yearOfEra / 4 - yearOfEra / 100 + dayOfYear
  (era * 146097 + dayOfEra - 719468) * 86400 + hour * 3600 + minute * 60 + second

/-- `iso8601_epoch`.  What the text does not name is zero in `std::tm`, where January is zero. -/
def iso8601Epoch (input : Text) : Int :=
  match getTime isoFormat ((input.take 19).dropWhile isSpace) with
  | none => 0
  | some numbers =>
      timegm (numbers.getD 0 1900) (numbers.getD 1 1) (numbers.getD 2 0) (numbers.getD 3 0)
        (numbers.getD 4 0) (numbers.getD 5 0)

example : iso8601Epoch (text "2024-02-29T12:00:01Z") = 1709208001 := by decide +kernel
example : iso8601Epoch (text "2024-02-29t12:00") = 1709208000 := by decide +kernel

/-! ## Endpoints -/

/-- A header that `credential_request` passes on. -/
def validHeader (header : Header) : Bool :=
  !header.1.isEmpty && header.1.all (fun c => c != 58 && c != 13 && c != 10) &&
    header.2.all fun c => c != 13 && c != 10

/-- `credential_request`. -/
def credentialRequest (method url body : Text) (headers : List Header) (timeoutSeconds : Int)
    (options : CurlOptions) : Loader HttpResponse := do
  if !headers.all validHeader then
    throw ⟨.errCredentials, text "credential header is invalid"⟩
  else
    match ← ask (.send { method, url, body, headers, timeoutSeconds, options }) with
    | .refused message => throw ⟨.errCredentials, text "credential endpoint setup: " ++ message⟩
    | .failed message => throw ⟨.errCredentials, text "credential endpoint: " ++ message⟩
    | .response response => pure response

/-- `oauth_token`. -/
def oauthToken (url form : Text) (extraHeaders : List Header) (options : CurlOptions) :
    Loader ProviderCredentials := do
  let headers :=
    extraHeaders ++ [(text "Content-Type", text "application/x-www-form-urlencoded")]
  let response ← credentialRequest (text "POST") url form headers 5 options
  if !response.good then
    throw ⟨.errCredentials, text "credential endpoint returned HTTP " ++ decimal response.status⟩
  else
    match jsonString response.body (text "access_token") with
    | none | some [] => throw ⟨.errCredentials, text "credential response has no access_token"⟩
    | some token =>
        let now ← ask .time
        let lifetime := (jsonInteger response.body (text "expires_in")).getD 3600
        pure { bearerToken := token, expiresAt := (now + max lifetime 60).bmod (2 ^ 64) }

end Backends

end Karu
