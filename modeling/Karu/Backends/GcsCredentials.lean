/-
# `Karu.Backends.GcsCredentials` — `src/backends/gcs_credentials.cpp`

Explicit tokens and keys win, followed by application default credentials,
service-account values, and finally the metadata service.
-/
import Karu.Backends.Credentials

namespace Karu

open Base

namespace Backends

open Loader

/-! ## Service accounts -/

/-- The loop of `normalize_pem`: `\n` in two characters becomes a newline. -/
def unescapeNewlines : Text → Text
  | 92 :: 110 :: rest => 10 :: unescapeNewlines rest
  | c :: rest => c :: unescapeNewlines rest
  | [] => []

/-- `normalize_pem`. -/
def normalizePem (value : Text) : Text := (unescapeNewlines value).filter (· != 13)

/-- `base64url`. -/
def base64url (crypto : Crypto) (bytes : Text) : Text :=
  let replaced := (crypto.base64 bytes).map fun c =>
    if c = 43 then 45 else if c = 47 then 95 else c
  (replaced.reverse.dropWhile (· == 61)).reverse

/-- `json_escape`. -/
def jsonEscape (value : Text) : Text :=
  value.flatMap fun c =>
    if c = 34 then [92, 34]
    else if c = 92 then [92, 92]
    else if c = 10 then [92, 110]
    else if c = 13 then [92, 114]
    else if c = 9 then [92, 116]
    else [c]

/-- `rsa_sha256`. -/
def rsaSha256 (platform : Platform) (privateKey message : Text) : Except RequestError Text :=
  (platform.digestSign privateKey message).map (base64url platform.crypto)

/-- `gcs_service_account_values`. -/
def gcsServiceAccountValues (platform : Platform) (email privateKey tokenUri scope : Text)
    (options : CurlOptions) : Loader ProviderCredentials := do
  if email.isEmpty || privateKey.isEmpty then
    throw ⟨.errCredentials, text "GCS service_account JSON is incomplete"⟩
  else
    let now ← ask .time
    let header := base64url platform.crypto (text "\x7b\"alg\":\"RS256\",\"typ\":\"JWT\"\x7d")
    let claims := text "\x7b\"iss\":\"" ++ jsonEscape email ++ text "\",\"scope\":\"" ++
      jsonEscape scope ++ text "\",\"aud\":\"" ++ jsonEscape tokenUri ++ text "\",\"iat\":" ++
      decimalInt now ++ text ",\"exp\":" ++ decimalInt (now + 3600) ++ text "\x7d"
    let unsignedAssertion := header ++ text "." ++ base64url platform.crypto claims
    match rsaSha256 platform privateKey unsignedAssertion with
    | .error wrong => throw wrong
    | .ok signature =>
        oauthToken tokenUri
          (text "grant_type=urn%3Aietf%3Aparams%3Aoauth%3Agrant-type%3Ajwt-bearer&assertion=" ++
            formEncode (unsignedAssertion ++ text "." ++ signature)) [] options

/-- The default of `GCS_SCOPE`. -/
def gcsReadOnly : Text := text "https://www.googleapis.com/auth/devstorage.read_only"

/-- The default of `token_uri`. -/
def gcsTokenUri : Text := text "https://oauth2.googleapis.com/token"

/-- `gcs_service_account`. -/
def gcsServiceAccount (platform : Platform) (json : Text) (config : ConfigSnapshot) (path : Text) :
    Loader ProviderCredentials :=
  match jsonString json (text "client_email"), jsonString json (text "private_key") with
  | some email, some privateKey =>
      gcsServiceAccountValues platform email (normalizePem privateKey)
        ((jsonString json (text "token_uri")).getD gcsTokenUri)
        (config.option path (text "GCS_SCOPE") gcsReadOnly) (httpOptions platform config path)
  | _, _ => throw ⟨.errCredentials, text "GCS service_account JSON is incomplete"⟩

/-- `gcs_authorized_user`. -/
def gcsAuthorizedUser (platform : Platform) (json : Text) (config : ConfigSnapshot) (path : Text) :
    Loader ProviderCredentials :=
  let clientId :=
    config.option path (text "GCS_CLIENT_ID") ((jsonString json (text "client_id")).getD [])
  let clientSecret := config.option path (text "GCS_CLIENT_SECRET")
    ((jsonString json (text "client_secret")).getD [])
  let refreshToken := config.option path (text "GCS_REFRESH_TOKEN")
    ((jsonString json (text "refresh_token")).getD [])
  if clientId.isEmpty || clientSecret.isEmpty || refreshToken.isEmpty then
    throw ⟨.errCredentials, text "GCS authorized_user credentials are incomplete"⟩
  else
    oauthToken ((jsonString json (text "token_uri")).getD gcsTokenUri)
      (text "client_id=" ++ formEncode clientId ++ text "&client_secret=" ++
        formEncode clientSecret ++ text "&refresh_token=" ++ formEncode refreshToken ++
        text "&grant_type=refresh_token") [] (httpOptions platform config path)

/-! ## External accounts -/

/-- The subject token of an external account: from a file, or else from a URL. -/
def externalSubject (config : ConfigSnapshot) (subjectFile subjectUrl : Option Text)
    (http : CurlOptions) : Loader Text := do
  match subjectFile, subjectUrl with
  | some file, _ =>
      let loaded ←
        readTextFile (expandUserPath config file) (text "GCS external account subject token")
      pure (trim loaded)
  | none, some url =>
      let loaded ← credentialRequest (text "GET") url [] [] 5 http
      if !loaded.good then
        throw ⟨.errCredentials, text "GCS external account subject endpoint failed"⟩
      else pure (trim loaded.body)
  | none, none =>
      throw ⟨.errCredentials, text "GCS external_account credential_source is incomplete"⟩

/-- The field of the subject token that the account names. -/
def subjectField (json subject : Text) : Loader Text :=
  match jsonString json (text "subject_token_field_name") with
  | none | some [] => pure subject
  | some field =>
      match jsonString subject field with
      | none | some [] =>
          throw ⟨.errCredentials,
            text "GCS external account response has no configured subject token field"⟩
      | some extracted => pure extracted

/-- The impersonation that an external account may end with. -/
def gcsImpersonation (impersonation scope : Text) (exchanged : ProviderCredentials)
    (http : CurlOptions) : Loader ProviderCredentials := do
  let response ← credentialRequest (text "POST") impersonation
    (text "\x7b\"scope\":[\"" ++ jsonEscape scope ++ text "\"],\"lifetime\":\"3600s\"\x7d")
    [(text "Authorization", text "Bearer " ++ exchanged.bearerToken),
      (text "Content-Type", text "application/json")] 5 http
  if !response.good then
    throw ⟨.errCredentials, text "GCS service account impersonation failed"⟩
  else
    let result : ProviderCredentials :=
      { bearerToken := (jsonString response.body (text "accessToken")).getD []
        expiresAt := iso8601Epoch ((jsonString response.body (text "expireTime")).getD []) }
    if result.bearerToken.isEmpty then
      throw ⟨.errCredentials, text "GCS impersonation response has no token"⟩
    else
      let now ← ask .time
      if result.expiresAt ≤ now then
        throw ⟨.errCredentials, text "GCS impersonation response has no token"⟩
      else pure result

/-- `gcs_external_account`. -/
def gcsExternalAccount (platform : Platform) (json : Text) (config : ConfigSnapshot)
    (path : Text) : Loader ProviderCredentials := do
  let http := httpOptions platform config path
  let scope := config.option path (text "GCS_SCOPE") gcsReadOnly
  let subjectFile := jsonString json (text "file")
  let subjectUrl := jsonString json (text "url")
  match jsonString json (text "audience"), jsonString json (text "subject_token_type") with
  | some audience, some subjectType =>
      let loaded ← externalSubject config subjectFile subjectUrl http
      let subject ← subjectField json loaded
      let exchanged ← oauthToken
        ((jsonString json (text "token_url")).getD (text "https://sts.googleapis.com/v1/token"))
        (text "audience=" ++ formEncode audience ++
          text "&grant_type=urn%3Aietf%3Aparams%3Aoauth%3Agrant-type%3Atoken-exchange" ++
          text "&requested_token_type=urn%3Aietf%3Aparams%3Aoauth%3Atoken-type%3Aaccess_token" ++
          text "&scope=" ++ formEncode scope ++ text "&subject_token_type=" ++
          formEncode subjectType ++ text "&subject_token=" ++ formEncode subject) [] http
      match jsonString json (text "service_account_impersonation_url") with
      | none | some [] => pure exchanged
      | some impersonation => gcsImpersonation impersonation scope exchanged http
  | _, _ => throw ⟨.errCredentials, text "GCS external_account credential_source is incomplete"⟩

/-! ## The loader -/

/-- Where `load_gcs_credentials` looks for application default credentials; empty when nowhere. -/
def gcsAdcPath (config : ConfigSnapshot) (path : Text) : Loader Text := do
  let configured :=
    expandUserPath config (config.option path (text "GOOGLE_APPLICATION_CREDENTIALS"))
  if !configured.isEmpty then pure configured
  else
    let cloudConfig := expandUserPath config (config.option path (text "CLOUDSDK_CONFIG"))
    let adcPath :=
      if !cloudConfig.isEmpty then
        withoutTrailingSlash cloudConfig ++ text "/application_default_credentials.json"
      else defaultGcloudAdcPath config
    if adcPath.isEmpty then pure []
    else
      let found ← pathExists adcPath (text "Google application credentials")
      pure (if found then adcPath else [])

/-- Application default credentials, of one of the three kinds. -/
def gcsAdc (platform : Platform) (config : ConfigSnapshot) (path adcPath : Text) :
    Loader ProviderCredentials := do
  let json ← readTextFile adcPath (text "Google application credentials")
  let type := (jsonString json (text "type")).getD []
  if type = text "service_account" then gcsServiceAccount platform json config path
  else if type = text "authorized_user" then gcsAuthorizedUser platform json config path
  else if type = text "external_account" then gcsExternalAccount platform json config path
  else
    throw ⟨.errCredentials,
      text "GOOGLE_APPLICATION_CREDENTIALS has unsupported type '" ++ type ++ text "'"⟩

/-- The service account that the options spell out. -/
def gcsConfiguredAccount (platform : Platform) (config : ConfigSnapshot) (path : Text) :
    Loader ProviderCredentials := do
  let configured := config.option path (text "GCS_PRIVATE_KEY")
  let privateKeyFile := expandUserPath config (config.option path (text "GCS_PRIVATE_KEY_FILE"))
  let clientEmail := config.option path (text "GCS_CLIENT_EMAIL")
  if !configured.isEmpty && !privateKeyFile.isEmpty then
    throw ⟨.errCredentials, text "set only one of GCS_PRIVATE_KEY and GCS_PRIVATE_KEY_FILE"⟩
  else
    let privateKey ←
      if configured.isEmpty && !privateKeyFile.isEmpty then
        readTextFile privateKeyFile (text "GCS OAuth private key")
      else pure configured
    if privateKey.isEmpty || clientEmail.isEmpty then
      throw ⟨.errCredentials, text "GCS_CLIENT_EMAIL and a GCS private key must be set together"⟩
    else
      gcsServiceAccountValues platform clientEmail (normalizePem privateKey) gcsTokenUri
        (config.option path (text "GCS_SCOPE") gcsReadOnly) (httpOptions platform config path)

/-- The metadata service, which may stay silent unless its endpoint was configured. -/
def gcsMetadata (platform : Platform) (config : ConfigSnapshot) (path : Text) :
    Loader ProviderCredentials := do
  let chosen := config.hasOption path (text "GCS_METADATA_ENDPOINT")
  let configured := chosen || config.hasOption path (text "GCS_METADATA_DISABLED")
  if (config.discoverDefaultCredentials || configured) &&
      !optionIsTrue (config.option path (text "GCS_METADATA_DISABLED") (text "NO")) then
    let endpoint := config.option path (text "GCS_METADATA_ENDPOINT")
      (text "http://metadata.google.internal/computeMetadata/v1/instance/service-accounts/" ++
        text "default/token")
    match ← observe (credentialRequest (text "GET") endpoint []
        [(text "Metadata-Flavor", text "Google")] 1 (httpOptions platform config path)) with
    | .error wrong => if chosen then throw wrong else pure {}
    | .ok response =>
        if !response.good then
          if chosen then
            throw ⟨.errCredentials,
              text "GCS credential endpoint returned HTTP " ++ decimal response.status⟩
          else pure {}
        else
          let token := (jsonString response.body (text "access_token")).getD []
          let now ← ask .time
          let lifetime := (jsonInteger response.body (text "expires_in")).getD 3600
          if !token.isEmpty then
            pure { bearerToken := token, expiresAt := (now + lifetime).bmod (2 ^ 64) }
          else if chosen then
            throw ⟨.errCredentials, text "GCS credential endpoint response has no access token"⟩
          else pure {}
  else pure {}

/-- `load_gcs_credentials`, behind the explicit values. -/
def gcsChain (platform : Platform) (config : ConfigSnapshot) (path : Text) :
    Loader ProviderCredentials := do
  if !(config.option path (text "GCS_REFRESH_TOKEN")).isEmpty then
    gcsAuthorizedUser platform (text "\x7b\x7d") config path
  else
    let adcPath ← gcsAdcPath config path
    if !adcPath.isEmpty then gcsAdc platform config path adcPath
    else if !(config.option path (text "GCS_PRIVATE_KEY")).isEmpty ||
        !(expandUserPath config (config.option path (text "GCS_PRIVATE_KEY_FILE"))).isEmpty ||
        !(config.option path (text "GCS_CLIENT_EMAIL")).isEmpty then
      gcsConfiguredAccount platform config path
    else gcsMetadata platform config path

/-- `load_gcs_credentials`. -/
def loadGcsCredentials (platform : Platform) (config : ConfigSnapshot) (path : Text) :
    Loader ProviderCredentials :=
  let direct : ProviderCredentials :=
    { bearerToken := config.option path (text "GCS_ACCESS_TOKEN")
      accessKeyId := config.option path (text "GCS_HMAC_ACCESS_KEY_ID")
      secretAccessKey := config.option path (text "GCS_HMAC_SECRET_ACCESS_KEY") }
  if !direct.bearerToken.isEmpty then pure direct
  else if !direct.accessKeyId.isEmpty || !direct.secretAccessKey.isEmpty then
    if direct.accessKeyId.isEmpty || direct.secretAccessKey.isEmpty then
      throw ⟨.errCredentials, path ++ text ": GCS HMAC access key and secret must be set together"⟩
    else pure direct
  else gcsChain platform config path

end Backends

end Karu
