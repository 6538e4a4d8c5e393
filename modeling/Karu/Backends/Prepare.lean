/-
# `Karu.Backends.Prepare` — `src/backends/{s3,s3_signing,source,gcs,azure,crypto}.cpp`

How a cloud backend makes a request for an object.  The endpoint comes from the
configuration, the container and the key from the object; what is signed goes
through OpenSSL, which is a parameter here (`Crypto`), as is the C library's
calendar.  `hmac_sha256` is the code's own, over the digest.

`signing_key` keeps its last result per thread; it is a function of what it is
stored under.
-/
import Karu.Backends.Url
import Karu.Config

namespace Karu

open Base

namespace Backends

/-! ## Signatures -/

/-- What is asked of OpenSSL and of `strftime`. -/
structure Crypto where
  /-- `EVP_Digest*` with SHA-256. -/
  digest : Text → Option Text
  /-- `HMAC` with SHA-1. -/
  hmacSha1 : Text → Text → Option Text
  /-- `EVP_EncodeBlock`. -/
  encodeBlock : Text → Text
  /-- `EVP_DecodeBlock`. -/
  decodeBlock : Text → Option Text
  /-- `date_utc` with `%Y%m%dT%H%M%SZ`. -/
  timestamp : Int → Text
  /-- `rfc7231_date`. -/
  rfc7231Date : Int → Text

/-- `sha256`. -/
def Crypto.sha256 (crypto : Crypto) (value : Text) : Except RequestError Text :=
  match crypto.digest value with
  | some digest => .ok digest
  | none => .error ⟨.errCredentials, text "OpenSSL SHA256 failed"⟩

/-- `hmac_sha256`: RFC 2104 over blocks of 64 octets. -/
def Crypto.hmacSha256 (crypto : Crypto) (key value : Text) : Except RequestError Text :=
  let result := do
    let short ← if 64 < key.length then crypto.digest key else some key
    let block := short ++ List.replicate (64 - short.length) 0
    let inner ← crypto.digest (block.map (· ^^^ 0x36) ++ value)
    crypto.digest (block.map (· ^^^ 0x5c) ++ inner)
  match result with
  | some digest => .ok digest
  | none => .error ⟨.errCredentials, text "OpenSSL HMAC failed"⟩

/-- `hmac(EVP_sha1(), ...)`. -/
def Crypto.hmac (crypto : Crypto) (key value : Text) : Except RequestError Text :=
  if 2 ^ 31 - 1 < key.length then
    .error ⟨.errCredentials, text "HMAC parameters are not supported"⟩
  else
    match crypto.hmacSha1 key value with
    | some digest => .ok digest
    | none => .error ⟨.errCredentials, text "OpenSSL HMAC failed"⟩

/-- `base64`. -/
def Crypto.base64 (crypto : Crypto) (bytes : Text) : Text :=
  if bytes.isEmpty then [] else crypto.encodeBlock bytes

/-- `hex`. -/
def hexDigits (bytes : Text) : Text :=
  let digit (d : UInt8) : UInt8 := if d < 10 then 48 + d else 87 + d
  bytes.flatMap fun (b : UInt8) => [digit (b >>> 4), digit (b &&& 15)]

/-! ## S3 -/

/-- `valid_aws_region`. -/
def validAwsRegion (region : Text) : Bool :=
  !region.isEmpty && region.all fun c =>
    isDigit c || (97 ≤ c && c ≤ 122) || (65 ≤ c && c ≤ 90) || c == 45

/-- `S3GetRequest`. -/
structure S3GetRequest where
  endpoint : Text
  endpointOption : Text
  bucket : Text
  key : Text
  region : Text
  virtualHosting : Bool := false
  requestPayer : Text := []
deriving DecidableEq, Repr

/-- `virtual_host_url`. -/
def virtualHostUrl (endpoint : UrlParts) (bucket key : Text) : Text :=
  endpoint.scheme ++ text "://" ++ bucket ++ text "." ++ endpoint.authority ++
    (if endpoint.path = text "/" then text "/"
      else withoutTrailingSlash endpoint.path ++ text "/") ++ Uri.encodePath key

/-- `signed_host`. -/
def signedHost (url : UrlParts) : Text :=
  let defaultPort := if url.scheme = text "https" then text ":443" else text ":80"
  if defaultPort.isSuffixOf url.authority then
    url.authority.take (url.authority.length - defaultPort.length)
  else url.authority

/-- `signing_key`. -/
def signingKey (crypto : Crypto) (secret date region : Text) : Except RequestError Text := do
  let dateKey ← crypto.hmacSha256 (text "AWS4" ++ secret) date
  let regionKey ← crypto.hmacSha256 dateKey region
  let serviceKey ← crypto.hmacSha256 regionKey (text "s3")
  crypto.hmacSha256 serviceKey (text "aws4_request")

/-- `signed_headers`, in the order of their names. -/
def signedHeaders (target : S3GetRequest) (credentials : ProviderCredentials)
    (host range ifMatch timestamp : Text) : List Header :=
  let headers : List Header :=
    [(text "host", host), (text "range", range),
      (text "x-amz-content-sha256", text "UNSIGNED-PAYLOAD"), (text "x-amz-date", timestamp)] ++
    (if ifMatch.isEmpty then [] else [(text "if-match", ifMatch)]) ++
    (if credentials.sessionToken.isEmpty then []
      else [(text "x-amz-security-token", credentials.sessionToken)]) ++
    (if lower target.requestPayer = text "requester" then
      [(text "x-amz-request-payer", text "requester")] else [])
  headers.mergeSort fun a b => a.1 ≤ b.1

/-- `signed_names`. -/
def signedNames (headers : List Header) : Text :=
  (text ";").intercalate (headers.map fun h => lower h.1)

/-- `canonical_request`. -/
def canonicalRequest (url : UrlParts) (headers : List Header) : Text :=
  text "GET\n" ++ url.path ++ text "\n" ++ url.query ++ text "\n" ++
    headers.flatMap (fun h => lower h.1 ++ text ":" ++ trim h.2 ++ text "\n") ++ text "\n" ++
    signedNames headers ++ text "\n" ++ text "UNSIGNED-PAYLOAD"

/-- `prepare_s3_get`, from the point on where the URL is known and there are credentials. -/
def signS3Get (crypto : Crypto) (target : S3GetRequest) (credentials : ProviderCredentials)
    (url range ifMatch : Text) (signingTime : Int) : Except RequestError PreparedRequest := do
  let parts ← splitUrl url
  let timestamp := crypto.timestamp signingTime
  let date := timestamp.take 8
  let headers := signedHeaders target credentials (signedHost parts) range ifMatch timestamp
  let scope := date ++ text "/" ++ target.region ++ text "/s3/aws4_request"
  let requestHash ← crypto.sha256 (canonicalRequest parts headers)
  let stringToSign :=
    text "AWS4-HMAC-SHA256\n" ++ timestamp ++ text "\n" ++ scope ++ text "\n" ++
      hexDigits requestHash
  let key ← signingKey crypto credentials.secretAccessKey date target.region
  let signature ← crypto.hmacSha256 key stringToSign
  let authorization :=
    text "AWS4-HMAC-SHA256 Credential=" ++ credentials.accessKeyId ++ text "/" ++ scope ++
      text ", SignedHeaders=" ++ signedNames headers ++ text ", Signature=" ++ hexDigits signature
  .ok { url
        headers := headers.filter (fun h => h.1 ≠ text "host" ∧ h.1 ≠ text "range") ++
          [(text "Authorization", authorization)]
        followRedirects := false }

/-- `prepare_s3_get`. -/
def prepareS3Get (crypto : Crypto) (target : S3GetRequest)
    (credentials : Option ProviderCredentials) (range ifMatch : Text) (signingTime : Int) :
    Except RequestError PreparedRequest := do
  let endpoint ← splitUrl target.endpoint
  if !endpoint.query.isEmpty then
    .error ⟨.errConfig, target.endpointOption ++ text " cannot contain a query"⟩
  else
    let url :=
      if target.virtualHosting then virtualHostUrl endpoint target.bucket target.key
      else appendObject target.endpoint target.bucket target.key
    match credentials with
    | none =>
        .ok { url, headers := if ifMatch.isEmpty then [] else [(text "If-Match", ifMatch)] }
    | some credentials => signS3Get crypto target credentials url range ifMatch signingTime

/-! ## GCS -/

/-- The endpoint of `prepare_gcs`. -/
def gcsEndpoint (config : ConfigSnapshot) (path : Text) : Except RequestError Text :=
  httpEndpoint (config.option path (text "GCS_ENDPOINT") (text "https://storage.googleapis.com"))
    (text "GCS_ENDPOINT")

/-- `prepare_gcs`, once the URL and the common headers are known. -/
def authorizeGcs (crypto : Crypto) (config : ConfigSnapshot) (object : Resolved)
    (custom : Option ProviderCredentials) (url : Text) (headers : List Header)
    (signingTime : Int) : Except RequestError PreparedRequest :=
  let path := object.canonicalUri
  let userProject := config.option path (text "GCS_USER_PROJECT")
  if optionIsTrue (config.option path (text "GCS_NO_SIGN_REQUEST") (text "NO")) then
    .ok { url, headers }
  else
    let credentials : ProviderCredentials :=
      custom.getD
        { accessKeyId := config.option path (text "GCS_HMAC_ACCESS_KEY_ID")
          secretAccessKey := config.option path (text "GCS_HMAC_SECRET_ACCESS_KEY")
          bearerToken := config.option path (text "GCS_ACCESS_TOKEN") }
    if !credentials.bearerToken.isEmpty then
      .ok { url
            headers := headers ++
              [(text "Authorization", text "Bearer " ++ credentials.bearerToken)]
            followRedirects := false }
    else if !credentials.accessKeyId.isEmpty && !credentials.secretAccessKey.isEmpty then do
      let date := crypto.rfc7231Date signingTime
      let canonicalHeaders :=
        if userProject.isEmpty then [] else text "x-goog-user-project:" ++ userProject ++ text "\n"
      let canonical :=
        text "GET\n\n\n" ++ date ++ text "\n" ++ canonicalHeaders ++ text "/" ++
          object.container ++ text "/" ++ Uri.encodePath object.key
      let signature ← crypto.hmac credentials.secretAccessKey canonical
      .ok { url
            headers := headers ++ [(text "Date", date),
              (text "Authorization", text "GOOG1 " ++ credentials.accessKeyId ++ text ":" ++
                crypto.base64 signature)]
            followRedirects := false }
    else
      .error ⟨.errCredentials, path ++ text (": no GCS credentials; set GCS_ACCESS_TOKEN, " ++
        "configure GCS_HMAC_ACCESS_KEY_ID/GCS_HMAC_SECRET_ACCESS_KEY, install a custom " ++
        "provider, or set GCS_NO_SIGN_REQUEST=YES")⟩

/-- `prepare_gcs`. -/
def prepareGcs (crypto : Crypto) (config : ConfigSnapshot) (object : Resolved)
    (custom : Option ProviderCredentials) (ifMatch : Text) (signingTime : Int) :
    Except RequestError PreparedRequest := do
  let endpoint ← gcsEndpoint config object.canonicalUri
  let parts ← splitUrl endpoint
  if !parts.query.isEmpty then .error ⟨.errConfig, text "GCS_ENDPOINT cannot contain a query"⟩
  else
    let userProject := config.option object.canonicalUri (text "GCS_USER_PROJECT")
    let headers : List Header :=
      [(text "Accept-Encoding", text "gzip")] ++
      (if ifMatch.isEmpty then [] else [(text "If-Match", ifMatch)]) ++
      (if userProject.isEmpty then [] else [(text "x-goog-user-project", userProject)])
    authorizeGcs crypto config object custom
      (appendObject endpoint object.container object.key) headers signingTime

/-! ## Azure -/

/-- `SERVICE_VERSION`. -/
def serviceVersion : Text := text "2023-11-03"

/-- `parse_connection_string`: `name=value` items; the first of a name counts. -/
def parseConnectionString (connection : Text) : List (Text × Text) :=
  (connection.splitOn 59).filterMap fun item =>
    (find 61 item).map fun equals => (lower (item.take equals), item.drop (equals + 1))

/-- `connection_value`. -/
def connectionValue (connection : List (Text × Text)) (name : String) : Text :=
  ((connection.find? (·.1 = text name)).map (·.2)).getD []

/-- `decode_base64`. -/
def decodeBase64 (crypto : Crypto) (value context : Text) : Except RequestError Text :=
  let wrong : RequestError := ⟨.errCredentials, context ++ text " is not base64"⟩
  let value := value.filter (!isSpace ·)
  if value.isEmpty ∨ value.length % 4 ≠ 0 then .error wrong
  else
    match crypto.decodeBlock value with
    | none => .error wrong
    | some decoded =>
        let cut := if (text "==").isSuffixOf value then 2 else if (text "=").isSuffixOf value then 1
          else 0
        .ok (decoded.take (decoded.length - cut))

/-- The credentials of `prepare_azure`: what is missing comes from the configuration. -/
def azureCredentials (config : ConfigSnapshot) (path : Text) (custom : Option ProviderCredentials) :
    ProviderCredentials :=
  let connection :=
    parseConnectionString (config.option path (text "AZURE_STORAGE_CONNECTION_STRING"))
  let credentials := custom.getD {}
  { credentials with
    accountName :=
      if credentials.accountName.isEmpty then
        config.option path (text "AZURE_STORAGE_ACCOUNT") (connectionValue connection "accountname")
      else credentials.accountName
    secretAccessKey :=
      if credentials.secretAccessKey.isEmpty then
        config.option path (text "AZURE_STORAGE_ACCESS_KEY")
          (connectionValue connection "accountkey")
      else credentials.secretAccessKey
    sasToken :=
      if credentials.sasToken.isEmpty then
        config.option path (text "AZURE_STORAGE_SAS_TOKEN")
          (connectionValue connection "sharedaccesssignature")
      else credentials.sasToken
    bearerToken :=
      if credentials.bearerToken.isEmpty then
        config.option path (text "AZURE_STORAGE_ACCESS_TOKEN")
      else credentials.bearerToken }

/-- The endpoint of `prepare_azure`. -/
def azureEndpoint (config : ConfigSnapshot) (object : Resolved)
    (credentials : ProviderCredentials) : Except RequestError Text :=
  let path := object.canonicalUri
  let connection :=
    parseConnectionString (config.option path (text "AZURE_STORAGE_CONNECTION_STRING"))
  let configured := config.option path (text "AZURE_STORAGE_ENDPOINT")
  let endpoint :=
    if configured.isEmpty then
      connectionValue connection (if object.azureDfs then "dfsendpoint" else "blobendpoint")
    else configured
  if endpoint.isEmpty then
    if credentials.accountName.isEmpty then
      .error ⟨.errConfig, path ++ text ": Azure needs AZURE_STORAGE_ACCOUNT or an explicit endpoint"⟩
    else
      let suffix := connectionValue connection "endpointsuffix"
      let suffix := if suffix.isEmpty then text "core.windows.net" else suffix
      let protocol := lower (connectionValue connection "defaultendpointsprotocol")
      let protocol := if protocol.isEmpty then text "https" else protocol
      if protocol ≠ text "http" ∧ protocol ≠ text "https" then
        .error ⟨.errConfig, text "Azure DefaultEndpointsProtocol must be http or https"⟩
      else
        .ok (protocol ++ text "://" ++ credentials.accountName ++
          (if object.azureDfs then text ".dfs." else text ".blob.") ++ suffix)
  else httpEndpoint endpoint (text "AZURE_STORAGE_ENDPOINT")

/-- A SAS token without the separators it was copied with. -/
def bareSas (sas : Text) : Text := sas.dropWhile fun c => c == 63 || c == 38

/-- The URL a SAS token is appended to. -/
def appendSas (url sas : Text) : Text :=
  url ++ (if url.contains 63 then text "&" else text "?") ++ bareSas sas

/-- `prepare_azure`, from the shared key on. -/
def signAzure (crypto : Crypto) (credentials : ProviderCredentials) (url : Text)
    (headers : List Header) (range ifMatch : Text) (signingTime : Int) :
    Except RequestError PreparedRequest := do
  let key ← decodeBase64 crypto credentials.secretAccessKey (text "AZURE_STORAGE_ACCESS_KEY")
  let date := crypto.rfc7231Date signingTime
  let parts ← splitUrl url
  let standardHeaders : List Text := [[], [], [], [], [], [], [], ifMatch, [], [], range]
  let stringToSign :=
    text "GET\n" ++ standardHeaders.flatMap (· ++ text "\n") ++
      text "x-ms-date:" ++ date ++ text "\nx-ms-version:" ++ serviceVersion ++ text "\n" ++
      text "/" ++ credentials.accountName ++ parts.path
  let signature ← crypto.hmacSha256 key stringToSign
  .ok { url
        headers := headers ++ [(text "x-ms-date", date),
          (text "Authorization", text "SharedKey " ++ credentials.accountName ++ text ":" ++
            crypto.base64 signature)]
        followRedirects := false }

/-- `prepare_azure`, once the URL is known. -/
def authorizeAzure (crypto : Crypto) (config : ConfigSnapshot) (object : Resolved)
    (credentials : ProviderCredentials) (url : Text) (headers : List Header)
    (range ifMatch : Text) (signingTime : Int) : Except RequestError PreparedRequest :=
  let path := object.canonicalUri
  if optionIsTrue (config.option path (text "AZURE_NO_SIGN_REQUEST") (text "NO")) then
    .ok { url, headers }
  else if !credentials.sasToken.isEmpty then
    .ok { url := appendSas url credentials.sasToken, headers, followRedirects := false }
  else if !credentials.bearerToken.isEmpty then
    .ok { url
          headers := headers ++
            [(text "Authorization", text "Bearer " ++ credentials.bearerToken)]
          followRedirects := false }
  else if credentials.accountName.isEmpty || credentials.secretAccessKey.isEmpty then
    .error ⟨.errCredentials, path ++ text (": no Azure credentials; configure a SAS, access " ++
      "token or account key, install a custom provider, or set AZURE_NO_SIGN_REQUEST=YES")⟩
  else signAzure crypto credentials url headers range ifMatch signingTime

/-- `prepare_azure`. -/
def prepareAzure (crypto : Crypto) (config : ConfigSnapshot) (object : Resolved)
    (custom : Option ProviderCredentials) (range ifMatch : Text) (signingTime : Int) :
    Except RequestError PreparedRequest := do
  let credentials := azureCredentials config object.canonicalUri custom
  let endpoint ← azureEndpoint config object credentials
  let parts ← splitUrl endpoint
  if !parts.query.isEmpty then
    .error ⟨.errConfig, text "AZURE_STORAGE_ENDPOINT cannot contain a query"⟩
  else
    let headers : List Header :=
      (if ifMatch.isEmpty then [] else [(text "If-Match", ifMatch)]) ++
      [(text "x-ms-version", serviceVersion)]
    authorizeAzure crypto config object credentials
      (appendObject endpoint object.container object.key) headers range ifMatch signingTime

/-! ## The S3 backends -/

/-- `prepare_aws`. -/
def prepareAws (crypto : Crypto) (config : ConfigSnapshot) (object : Resolved)
    (custom : Option ProviderCredentials) (range regionHint ifMatch : Text) (signingTime : Int) :
    Except RequestError PreparedRequest := do
  let path := object.canonicalUri
  let credentialRegion := (custom.map (·.region)).getD []
  let region :=
    if regionHint.isEmpty then
      config.option path (text "AWS_REGION")
        (if credentialRegion.isEmpty then text "us-east-1" else credentialRegion)
    else regionHint
  if !validAwsRegion region then
    .error ⟨.errConfig, path ++ text ": AWS region contains invalid characters"⟩
  else
    let configured := config.option path (text "AWS_S3_ENDPOINT")
    let defaultEndpoint := configured.isEmpty
    let endpoint ← httpEndpoint
      (if defaultEndpoint then text "s3." ++ region ++ text ".amazonaws.com" else configured)
      (text "AWS_S3_ENDPOINT")
      (optionIsTrue (config.option path (text "AWS_HTTPS") (text "YES")))
    let noSign := optionIsTrue (config.option path (text "AWS_NO_SIGN_REQUEST") (text "NO"))
    let credentials : ProviderCredentials :=
      custom.getD
        { accessKeyId := config.option path (text "AWS_ACCESS_KEY_ID")
          secretAccessKey := config.option path (text "AWS_SECRET_ACCESS_KEY")
          sessionToken := config.option path (text "AWS_SESSION_TOKEN") }
    if !noSign && (credentials.accessKeyId.isEmpty || credentials.secretAccessKey.isEmpty) then
      .error ⟨.errCredentials, path ++ text (": no AWS credentials; set AWS_ACCESS_KEY_ID and " ++
        "AWS_SECRET_ACCESS_KEY, install a custom provider, or set AWS_NO_SIGN_REQUEST=YES for " ++
        "a public object")⟩
    else
      let virtualHostingDefault := defaultEndpoint && !object.container.contains 46
      let target : S3GetRequest :=
        { endpoint, endpointOption := text "AWS_S3_ENDPOINT", bucket := object.container
          key := object.key, region
          virtualHosting := optionIsTrue (config.option path (text "AWS_VIRTUAL_HOSTING")
            (if virtualHostingDefault then text "YES" else text "NO"))
          requestPayer := config.option path (text "AWS_REQUEST_PAYER") }
      let prepared ← prepareS3Get crypto target (if noSign then none else some credentials) range
        ifMatch signingTime
      .ok { prepared with routingRegion := region }

/-- `prepare_source`. -/
def prepareSource (crypto : Crypto) (config : ConfigSnapshot) (object : Resolved)
    (credentials : Option ProviderCredentials) (range ifMatch : Text) (signingTime : Int) :
    Except RequestError PreparedRequest := do
  let path := object.canonicalUri
  let endpoint ← httpEndpoint
    (config.option path (text "SOURCE_ENDPOINT") (text "https://data.source.coop"))
    (text "SOURCE_ENDPOINT")
  let credentialRegion := (credentials.map (·.region)).getD []
  let region := config.option path (text "SOURCE_REGION")
    (if credentialRegion.isEmpty then text "us-east-1" else credentialRegion)
  if !validAwsRegion region then
    .error ⟨.errConfig, path ++ text ": Source region contains invalid characters"⟩
  else if credentials.any fun c => c.accessKeyId.isEmpty || c.secretAccessKey.isEmpty then
    .error ⟨.errCredentials, path ++ text ": Source credentials require an access key and secret"⟩
  else
    prepareS3Get crypto
      { endpoint, endpointOption := text "SOURCE_ENDPOINT", bucket := object.container
        key := object.key, region } credentials range ifMatch signingTime

end Backends

end Karu
