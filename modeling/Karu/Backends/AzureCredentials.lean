/-
# `Karu.Backends.AzureCredentials` — `src/backends/azure_credentials.cpp`

Storage credentials first, then a service principal or workload identity, App
Service, and finally managed identity from the metadata service.
-/
import Karu.Backends.Credentials

namespace Karu

open Base

namespace Backends

open Loader

/-- The values `load_azure_credentials` starts from, and falls back to. -/
def azureDirect (config : ConfigSnapshot) (path : Text) : ProviderCredentials :=
  { accountName := config.option path (text "AZURE_STORAGE_ACCOUNT")
    secretAccessKey := config.option path (text "AZURE_STORAGE_ACCESS_KEY")
    sasToken := config.option path (text "AZURE_STORAGE_SAS_TOKEN")
    bearerToken := config.option path (text "AZURE_STORAGE_ACCESS_TOKEN") }

/-- The grant of a service principal: a federated token, or else a secret. -/
def azureGrant (secret federatedFile : Text) : Loader Text := do
  if !federatedFile.isEmpty then
    let loaded ← readTextFile federatedFile (text "Azure federated token")
    pure (text "&client_assertion_type=urn%3Aietf%3Aparams%3Aoauth%3Aclient-assertion-type%" ++
      text "3Ajwt-bearer" ++ text "&client_assertion=" ++ formEncode (trim loaded))
  else pure (text "&client_secret=" ++ formEncode secret)

/-- The service-principal branch. -/
def azurePrincipal (platform : Platform) (config : ConfigSnapshot)
    (path tenant client secret federatedFile : Text) : Loader ProviderCredentials := do
  let grant ← azureGrant secret federatedFile
  let authority := withoutTrailingSlash (config.option path (text "AZURE_AUTHORITY_HOST")
    (text "https://login.microsoftonline.com"))
  let scope := config.option path (text "AZURE_STORAGE_SCOPE")
    (text "https://storage.azure.com/.default")
  oauthToken (authority ++ text "/" ++ formEncode tenant ++ text "/oauth2/v2.0/token")
    (text "client_id=" ++ formEncode client ++ grant ++ text "&scope=" ++ formEncode scope ++
      text "&grant_type=client_credentials") [] (httpOptions platform config path)

/-- What `add_identity_selector` appends. -/
def identitySelector (object client resource : Text) : Text :=
  if !object.isEmpty then text "&object_id=" ++ formEncode object
  else if !client.isEmpty then text "&client_id=" ++ formEncode client
  else if !resource.isEmpty then text "&msi_res_id=" ++ formEncode resource
  else []

/-- A managed-identity URL: endpoint, API version, resource and selector. -/
def identityUrl (endpoint version resource selector : Text) : Text :=
  endpoint ++ (if (find 63 endpoint).isNone then text "?" else text "&") ++
    text "api-version=" ++ version ++ text "&resource=" ++ formEncode resource ++ selector

/-- The token of a managed-identity response; the clock is asked for its default lifetime. -/
def identityToken (body : Text) : Loader ProviderCredentials := do
  let now ← ask .time
  pure { bearerToken := (jsonString body (text "access_token")).getD []
         expiresAt := (jsonInteger body (text "expires_on")).getD (now + 3600) }

/-- The App Service branch. -/
def azureAppService (platform : Platform) (config : ConfigSnapshot)
    (path endpoint resource selector : Text) : Loader ProviderCredentials := do
  let identityHeader := config.option path (text "IDENTITY_HEADER")
  let headers : List Header :=
    if identityHeader.isEmpty then [] else [(text "X-IDENTITY-HEADER", identityHeader)]
  let response ← credentialRequest (text "GET")
    (identityUrl endpoint (text "2019-08-01") resource selector) [] headers 2
    (httpOptions platform config path)
  if !response.good then
    throw ⟨.errCredentials,
      text "Azure App Service identity returned HTTP " ++ decimal response.status⟩
  else
    let result ← identityToken response.body
    if result.bearerToken.isEmpty then
      throw ⟨.errCredentials, text "Azure App Service identity response has no access token"⟩
    else pure result

/-- The managed-identity branch, which falls back unless its endpoint was configured. -/
def azureMetadata (platform : Platform) (config : ConfigSnapshot) (path resource selector : Text) :
    Loader ProviderCredentials := do
  let chosen := config.hasOption path (text "IMDS_ENDPOINT")
  let direct := azureDirect config path
  let endpoint := config.option path (text "IMDS_ENDPOINT")
    (text "http://169.254.169.254/metadata/identity/oauth2/token")
  match ← observe (credentialRequest (text "GET")
      (identityUrl endpoint (text "2018-02-01") resource selector) []
      [(text "Metadata", text "true")] 1 (httpOptions platform config path)) with
  | .error wrong => if chosen then throw wrong else pure direct
  | .ok response =>
      if !response.good then
        if chosen then
          throw ⟨.errCredentials,
            text "Azure managed identity endpoint returned HTTP " ++ decimal response.status⟩
        else pure direct
      else
        let result ← identityToken response.body
        if !result.bearerToken.isEmpty then pure result
        else if chosen then
          throw ⟨.errCredentials,
            text "Azure managed identity endpoint response has no access token"⟩
        else pure direct

/-- The managed identities of `load_azure_credentials`. -/
def azureIdentity (platform : Platform) (config : ConfigSnapshot) (path client : Text) :
    Loader ProviderCredentials :=
  let resource := config.option path (text "AZURE_STORAGE_RESOURCE")
    (text "https://storage.azure.com/")
  let imdsObject := config.option path (text "AZURE_IMDS_OBJECT_ID")
  let imdsClient := config.option path (text "AZURE_IMDS_CLIENT_ID") client
  let imdsResource := config.option path (text "AZURE_IMDS_MSI_RES_ID")
  let selectors := [imdsObject, imdsClient, imdsResource].countP (!·.isEmpty)
  let selector := identitySelector imdsObject imdsClient imdsResource
  let identityEndpoint := config.option path (text "IDENTITY_ENDPOINT")
  if 1 < selectors then
    throw ⟨.errConfig,
      text "set only one Azure managed-identity selector: object ID, client ID, or resource ID"⟩
  else if !identityEndpoint.isEmpty then
    azureAppService platform config path identityEndpoint resource selector
  else if !config.discoverDefaultCredentials && !config.hasOption path (text "IMDS_ENDPOINT") then
    pure (azureDirect config path)
  else azureMetadata platform config path resource selector

/-- `load_azure_credentials`. -/
def loadAzureCredentials (platform : Platform) (config : ConfigSnapshot) (path : Text) :
    Loader ProviderCredentials :=
  let direct := azureDirect config path
  let tenant := config.option path (text "AZURE_TENANT_ID")
  let client := config.option path (text "AZURE_CLIENT_ID")
  let secret := config.option path (text "AZURE_CLIENT_SECRET")
  let federatedFile :=
    expandUserPath config (config.option path (text "AZURE_FEDERATED_TOKEN_FILE"))
  if config.hasOption path (text "AZURE_STORAGE_CONNECTION_STRING") then pure direct
  else if !direct.sasToken.isEmpty || !direct.bearerToken.isEmpty ||
      !direct.secretAccessKey.isEmpty then
    pure direct
  else if !tenant.isEmpty && !client.isEmpty && (!secret.isEmpty || !federatedFile.isEmpty) then
    azurePrincipal platform config path tenant client secret federatedFile
  else azureIdentity platform config path client

end Backends

end Karu
