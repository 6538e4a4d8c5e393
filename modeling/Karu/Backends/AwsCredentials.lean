/-
# `Karu.Backends.AwsCredentials` — `src/backends/{aws_profile,s3_credentials,source_credentials}.cpp`

The loaders that read AWS-format profiles.  `load_aws_credentials` goes through
explicit values, profile or web identity, container credentials and instance
metadata, in this order; `load_source_credentials` has its own options and ends
with the profile.
-/
import Karu.Backends.Credentials

namespace Karu

open Base

namespace Backends

open Loader

/-! ## Profiles -/

/-- `AwsProfile`. -/
structure AwsProfile where
  values : IniSection := OptionMap.empty
  found : Bool := false

/-- `AwsProfile::value`. -/
def AwsProfile.value (profile : AwsProfile) (name : Text) : Text := (profile.values name).getD []

/-- `run_credential_process`. -/
def runCredentialProcess (command label : Text) (timeoutSeconds : Int) : Loader Text := do
  match ← ask (.run command (2 ^ 20) timeoutSeconds) with
  | .error message =>
      throw ⟨.errCredentials, label ++ text " credential_process could not start: " ++ message⟩
  | .ok result =>
      if result.timedOut then
        throw ⟨.timeout, label ++ text " credential_process exceeded the request timeout"⟩
      else if result.outputLimitExceeded then
        throw ⟨.errCredentials, label ++ text " credential_process returned more than 1 MiB"⟩
      else if result.exitCode ≠ 0 then
        throw ⟨.errCredentials, label ++ text " credential_process exited with status " ++
          decimalInt result.exitCode⟩
      else pure result.output

/-- The section of a profile, added to what is known of it already. -/
def AwsProfile.add (profile : AwsProfile) (file : IniFile) (section_ : Text) : AwsProfile :=
  match file section_ with
  | none => profile
  | some values => { values := fun name => (values name).or (profile.values name), found := true }

/-- `read_aws_profile`, from the two existence checks on: one of the two files. -/
def readProfileFile (config : ConfigSnapshot) (path option : Text) (file : Text) (found : Bool)
    (label what section_ : Text) (missing : Text) (profile : AwsProfile) : Loader AwsProfile := do
  if config.hasOption path option && !found then
    throw ⟨.errCredentials, label ++ missing ++ file ++ text "'"⟩
  else if found then
    let contents ← readIni file (label ++ what)
    pure (profile.add contents section_)
  else pure profile

/-- `read_aws_profile`. -/
def readAwsProfile (config : ConfigSnapshot) (path profile configFileOption credentialsFileOption
    label : Text) : Loader AwsProfile := do
  let configPath := expandUserPath config
    (config.option path configFileOption (defaultAwsPath config (text "config")))
  let credentialsPath := expandUserPath config
    (config.option path credentialsFileOption (defaultAwsPath config (text "credentials")))
  let configExists ← pathExists configPath (label ++ text " config file")
  let credentialsExists ← pathExists credentialsPath (label ++ text " shared credentials file")
  let section_ := if profile = text "default" then text "default" else text "profile " ++ profile
  let result ← readProfileFile config path configFileOption configPath configExists label
    (text " config") section_ (text " config file does not exist: '") {}
  readProfileFile config path credentialsFileOption credentialsPath credentialsExists label
    (text " shared credentials") profile (text " shared credentials file does not exist: '") result

/-- `aws_json_credentials`. -/
def awsJsonCredentials (json : Text) : ProviderCredentials :=
  { accessKeyId := (jsonString json (text "AccessKeyId")).getD []
    secretAccessKey := (jsonString json (text "SecretAccessKey")).getD []
    sessionToken :=
      (jsonString json (text "Token")).getD ((jsonString json (text "SessionToken")).getD [])
    expiresAt :=
      match jsonString json (text "Expiration") with
      | some expiration => iso8601Epoch expiration
      | none => 0 }

/-- Both an access key and a secret. -/
def keyed (credentials : ProviderCredentials) : Bool :=
  !credentials.accessKeyId.isEmpty && !credentials.secretAccessKey.isEmpty

/-- `credentials_from_aws_profile`. -/
def credentialsFromAwsProfile (profile : AwsProfile) (label : Text) (timeoutSeconds : Int) :
    Loader ProviderCredentials := do
  if !(profile.value (text "sso_session")).isEmpty ||
      !(profile.value (text "sso_start_url")).isEmpty then
    throw ⟨.errCredentials,
      label ++ text " IAM Identity Center profiles require a custom credential provider"⟩
  else if !(profile.value (text "role_arn")).isEmpty ||
      !(profile.value (text "source_profile")).isEmpty ||
      !(profile.value (text "web_identity_token_file")).isEmpty then
    throw ⟨.errCredentials, label ++ text " AssumeRole profiles require a custom credential provider"⟩
  else if !(profile.value (text "credential_process")).isEmpty then
    let output ←
      runCredentialProcess (profile.value (text "credential_process")) label timeoutSeconds
    let result := awsJsonCredentials output
    if !keyed result then
      throw ⟨.errCredentials, label ++ text " credential_process response is incomplete"⟩
    else pure { result with region := profile.value (text "region") }
  else
    let result : ProviderCredentials :=
      { accessKeyId := profile.value (text "aws_access_key_id")
        secretAccessKey := profile.value (text "aws_secret_access_key")
        sessionToken := profile.value (text "aws_session_token")
        region := profile.value (text "region") }
    if (!result.accessKeyId.isEmpty || !result.secretAccessKey.isEmpty) && !keyed result then
      throw ⟨.errCredentials, label ++ text " profile access key and secret must be set together"⟩
    else pure result

/-! ## Source Cooperative -/

/-- The profile that `load_source_credentials` ends with. -/
def sourceProfile (config : ConfigSnapshot) (path : Text) : Loader ProviderCredentials := do
  let profileName := config.option path (text "SOURCE_PROFILE") (text "source-coop")
  let profile ← readAwsProfile config path profileName (text "SOURCE_CONFIG_FILE")
    (text "SOURCE_SHARED_CREDENTIALS_FILE") (text "Source")
  if !profile.found then
    throw ⟨.errCredentials, path ++ text ": Source profile '" ++ profileName ++
      text "' was not found"⟩
  else
    let credentials ←
      credentialsFromAwsProfile profile (text "Source") (requestTimeoutSeconds config)
    if !keyed credentials then
      throw ⟨.errCredentials, path ++ text ": Source profile '" ++ profileName ++
        text "' did not provide credentials"⟩
    else pure credentials

/-- `load_source_credentials`. -/
def loadSourceCredentials (config : ConfigSnapshot) (path : Text) : Loader ProviderCredentials :=
  let direct : ProviderCredentials :=
    { accessKeyId := config.option path (text "SOURCE_ACCESS_KEY_ID")
      secretAccessKey := config.option path (text "SOURCE_SECRET_ACCESS_KEY")
      sessionToken := config.option path (text "SOURCE_SESSION_TOKEN") }
  if !direct.accessKeyId.isEmpty || !direct.secretAccessKey.isEmpty then
    if !keyed direct then
      throw ⟨.errCredentials, path ++ text ": Source access key and secret must be set together"⟩
    else pure direct
  else sourceProfile config path

/-! ## AWS -/

/-- `safe_container_endpoint`. -/
def safeContainerEndpoint (url : Text) : Bool :=
  match splitUrl url with
  | .error _ => false
  | .ok parts =>
      let scheme := lower parts.scheme
      let known (host : Text) : Bool :=
        let host := lower host
        host == text "127.0.0.1" || host == text "::1" || host == text "localhost" ||
          host == text "169.254.170.2"
      if scheme = text "https" then true
      else if scheme ≠ text "http" ∨ parts.authority.contains 64 then false
      else if parts.authority.head? = some 91 then
        match find 93 parts.authority with
        | none => false
        | some closing =>
            if closing + 1 < parts.authority.length ∧ parts.authority[closing + 1]? ≠ some 58 then
              false
            else known ((parts.authority.drop 1).take (closing - 1))
      else
        match find 58 parts.authority with
        | none => known parts.authority
        | some colon => known (parts.authority.take colon)

/-- `xml_value`. -/
def xmlValue (xml name : Text) : Option Text := do
  let opening := text "<" ++ name ++ text ">"
  let first ← findText opening xml
  let behind := xml.drop (first + opening.length)
  let stop ← findText (text "</" ++ name ++ text ">") behind
  pure (behind.take stop)

/-- Credentials that `load_aws_credentials` takes from an endpoint. -/
def lasting (credentials : ProviderCredentials) (now : Int) : Bool :=
  keyed credentials && !credentials.sessionToken.isEmpty && decide (now < credentials.expiresAt)

/-- `aws_web_identity`. -/
def awsWebIdentity (role tokenFile sessionName endpoint : Text) (http : CurlOptions) :
    Loader ProviderCredentials := do
  let token ← readTextFile tokenFile (text "AWS web identity token")
  let sessionName ←
    if sessionName.isEmpty then do
      let now ← ask .time
      pure (text "karu-" ++ decimalInt now)
    else pure sessionName
  let form := text "Action=AssumeRoleWithWebIdentity&Version=2011-06-15&RoleArn=" ++
    formEncode role ++ text "&RoleSessionName=" ++ formEncode sessionName ++
    text "&WebIdentityToken=" ++ formEncode (trim token)
  let response ← credentialRequest (text "POST") endpoint form
    [(text "Content-Type", text "application/x-www-form-urlencoded")] 5 http
  if !response.good then
    throw ⟨.errCredentials,
      text "AWS web identity exchange returned HTTP " ++ decimal response.status⟩
  else
    let result : ProviderCredentials :=
      { accessKeyId := (xmlValue response.body (text "AccessKeyId")).getD []
        secretAccessKey := (xmlValue response.body (text "SecretAccessKey")).getD []
        sessionToken := (xmlValue response.body (text "SessionToken")).getD []
        expiresAt := iso8601Epoch ((xmlValue response.body (text "Expiration")).getD []) }
    -- the clock is asked only where the fields are there
    if !keyed result || result.sessionToken.isEmpty then
      throw ⟨.errCredentials, text "AWS web identity response is incomplete"⟩
    else
      let now ← ask .time
      if !lasting result now then
        throw ⟨.errCredentials, text "AWS web identity response is incomplete"⟩
      else pure result

/-- The container branch of `load_aws_credentials`. -/
def awsContainer (platform : Platform) (config : ConfigSnapshot) (path containerUrl : Text) :
    Loader ProviderCredentials := do
  if !safeContainerEndpoint containerUrl then
    throw ⟨.errCredentials,
      text "AWS_CONTAINER_CREDENTIALS_FULL_URI must use HTTPS or a loopback/ECS host"⟩
  else
    let configured := config.option path (text "AWS_CONTAINER_AUTHORIZATION_TOKEN")
    let tokenFile := expandUserPath config
      (config.option path (text "AWS_CONTAINER_AUTHORIZATION_TOKEN_FILE"))
    let authorization ←
      if configured.isEmpty && !tokenFile.isEmpty then do
        let loaded ← readTextFile tokenFile (text "AWS container authorization token")
        pure (trim loaded)
      else pure configured
    let headers : List Header :=
      if authorization.isEmpty then [] else [(text "Authorization", authorization)]
    let response ← credentialRequest (text "GET") containerUrl [] headers 2
      (httpOptions platform config path)
    if !response.good then
      throw ⟨.errCredentials, text "AWS container credentials request failed"⟩
    else
      let result := awsJsonCredentials response.body
      if !keyed result || result.sessionToken.isEmpty then
        throw ⟨.errCredentials, text "AWS container credentials are incomplete"⟩
      else
        let now ← ask .time
        if !lasting result now then
          throw ⟨.errCredentials, text "AWS container credentials are incomplete"⟩
        else pure result

/-- The requests of the instance metadata branch; every failure means no credentials. -/
def awsInstance (timeout : Int) (http : CurlOptions) : Loader ProviderCredentials := do
  match ← observe (credentialRequest (text "PUT") (text "http://169.254.169.254/latest/api/token") []
      [(text "X-aws-ec2-metadata-token-ttl-seconds", text "21600")] timeout http) with
  | .error _ => pure {}
  | .ok token =>
      if !token.good then pure {}
      else
        let headers : List Header := [(text "X-aws-ec2-metadata-token", trim token.body)]
        let base := text "http://169.254.169.254/latest/meta-data/iam/security-credentials/"
        match ← observe (credentialRequest (text "GET") base [] headers timeout http) with
        | .error _ => pure {}
        | .ok roleName =>
            if !roleName.good then pure {}
            else
              let roleUrl := base ++ formEncode (trim roleName.body)
              match ← observe (credentialRequest (text "GET") roleUrl [] headers timeout http) with
              | .error _ => pure {}
              | .ok response =>
                  let result := awsJsonCredentials response.body
                  if !response.good || !keyed result || result.sessionToken.isEmpty then pure {}
                  else
                    let now ← ask .time
                    if lasting result now then pure result else pure {}

/-- The metadata branch of `load_aws_credentials`. -/
def awsMetadata (platform : Platform) (config : ConfigSnapshot) (path : Text) :
    Loader ProviderCredentials :=
  let wrong : RequestError := ⟨.errConfig, text "AWS_METADATA_SERVICE_TIMEOUT must be in [1, 60]"⟩
  match fromCharsLong (config.option path (text "AWS_METADATA_SERVICE_TIMEOUT") (text "1")) with
  | some (timeout, []) =>
      if timeout < 1 ∨ 60 < timeout then throw wrong
      else
        let setting := config.hasOption path (text "AWS_EC2_METADATA_DISABLED")
        let disabled :=
          optionIsTrue (config.option path (text "AWS_EC2_METADATA_DISABLED") (text "NO"))
        if !disabled && (config.discoverDefaultCredentials || setting) then
          awsInstance timeout (httpOptions platform config path)
        else pure {}
  | _ => throw wrong

/-- The URL that the container options name. -/
def containerUrl (config : ConfigSnapshot) (path : Text) : Text :=
  let full := config.option path (text "AWS_CONTAINER_CREDENTIALS_FULL_URI")
  let relative := config.option path (text "AWS_CONTAINER_CREDENTIALS_RELATIVE_URI")
  if !full.isEmpty then full
  else if !relative.isEmpty then text "http://169.254.170.2" ++ relative
  else []

/-- `load_aws_credentials`, behind the explicit values. -/
def awsChain (platform : Platform) (config : ConfigSnapshot) (path : Text) :
    Loader ProviderCredentials := do
  let profile := config.option path (text "AWS_PROFILE") (text "default")
  let loaded ← readAwsProfile config path profile (text "AWS_CONFIG_FILE")
    (text "AWS_SHARED_CREDENTIALS_FILE") (text "AWS")
  if config.hasOption path (text "AWS_PROFILE") && !loaded.found then
    throw ⟨.errCredentials, text "AWS profile '" ++ profile ++ text "' was not found"⟩
  else
    let role := config.option path (text "AWS_ROLE_ARN") (loaded.value (text "role_arn"))
    let webToken := expandUserPath config (config.option path (text "AWS_WEB_IDENTITY_TOKEN_FILE")
      (loaded.value (text "web_identity_token_file")))
    if !role.isEmpty && !webToken.isEmpty then
      let credentials ← awsWebIdentity role webToken
        (config.option path (text "AWS_ROLE_SESSION_NAME")
          (loaded.value (text "role_session_name")))
        (config.option path (text "AWS_STS_ENDPOINT") (text "https://sts.amazonaws.com/"))
        (httpOptions platform config path)
      pure { credentials with region := loaded.value (text "region") }
    else if !role.isEmpty then
      throw ⟨.errCredentials,
        text "AWS chained AssumeRole profiles require a custom credential provider; " ++
          text "credential_process and web identity profiles are supported natively"⟩
    else
      let credentials ←
        credentialsFromAwsProfile loaded (text "AWS") (requestTimeoutSeconds config)
      if !credentials.accessKeyId.isEmpty then pure credentials
      else if !(containerUrl config path).isEmpty then
        awsContainer platform config path (containerUrl config path)
      else awsMetadata platform config path

/-- `load_aws_credentials`. -/
def loadAwsCredentials (platform : Platform) (config : ConfigSnapshot) (path : Text) :
    Loader ProviderCredentials :=
  let direct : ProviderCredentials :=
    { accessKeyId := config.option path (text "AWS_ACCESS_KEY_ID")
      secretAccessKey := config.option path (text "AWS_SECRET_ACCESS_KEY")
      sessionToken := config.option path (text "AWS_SESSION_TOKEN") }
  if !direct.accessKeyId.isEmpty || !direct.secretAccessKey.isEmpty then
    if !keyed direct then
      throw ⟨.errCredentials, path ++ text ": AWS access key and secret must be set together"⟩
    else pure direct
  else awsChain platform config path

end Backends

end Karu
