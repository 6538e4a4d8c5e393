/-
# `Karu.Config` — `src/config.cpp`

A configuration has three layers.  `set_path` gives an option a value below a
path prefix, `set` gives it a value everywhere, and the environment is read
once, when the builder is made.  `option` asks them in this order; among the
path rules the longest matching prefix wins.

| source                       | here                        |
|------------------------------|-----------------------------|
| `OptionMap`                  | a partial function on names |
| `ConfigBuilder::set`         | `ConfigBuilder.set`         |
| `ConfigBuilder::set_path`    | `ConfigBuilder.setPath`     |
| `ConfigBuilder::freeze`      | `ConfigBuilder.freeze`      |
| `ConfigSnapshot::option`     | `ConfigSnapshot.option`     |
| `ConfigSnapshot::has_option` | `ConfigSnapshot.hasOption`  |
| `ConfigSnapshot::scope_key`  | `ConfigSnapshot.scopeKey`   |

A value is what a `const char*` points to, so it has no zero octet; the
sentinel of `has_option` begins with one.  The HTTP options and headers that
`freeze` derives from the client-wide options are not read by anything here.
-/
import Karu.Base.Text

namespace Karu

open Base

/-! ## Names and paths -/

/-- `std::toupper`, in the `C` locale. -/
def asciiUpper (c : UInt8) : UInt8 := if 97 ≤ c && c ≤ 122 then c - 32 else c

/-- `uppercase`. -/
def uppercase (input : Text) : Text := input.map asciiUpper

namespace ConfigOptions

/-- `config_options::CORE`. -/
def core : List Text :=
  ["KARU_CONCURRENCY", "KARU_IO_THREADS", "KARU_COALESCE_GAP", "KARU_COALESCE_LIMIT",
    "KARU_COALESCE_PARTS", "KARU_COALESCE_AMPLIFICATION", "KARU_RANGE_FALLBACK_LIMIT",
    "KARU_MAX_ATTEMPTS", "KARU_MAX_RETRIES", "KARU_REQUEST_TIMEOUT", "KARU_CONNECT_TIMEOUT",
    "KARU_LOW_SPEED_TIME", "KARU_LOW_SPEED_LIMIT"].map text

/-- `config_options::S3`. -/
def s3 : List Text :=
  ["AWS_NO_SIGN_REQUEST", "AWS_ACCESS_KEY_ID", "AWS_SECRET_ACCESS_KEY", "AWS_SESSION_TOKEN",
    "AWS_REGION", "AWS_DEFAULT_REGION", "AWS_PROFILE", "AWS_DEFAULT_PROFILE",
    "AWS_SHARED_CREDENTIALS_FILE", "AWS_CONFIG_FILE", "AWS_S3_ENDPOINT", "AWS_ENDPOINT_URL_S3",
    "AWS_ENDPOINT_URL", "AWS_HTTPS", "AWS_VIRTUAL_HOSTING", "AWS_REQUEST_PAYER", "AWS_ROLE_ARN",
    "AWS_STS_ENDPOINT", "AWS_WEB_IDENTITY_TOKEN_FILE", "AWS_ROLE_SESSION_NAME",
    "AWS_CONTAINER_CREDENTIALS_RELATIVE_URI", "AWS_CONTAINER_CREDENTIALS_FULL_URI",
    "AWS_CONTAINER_AUTHORIZATION_TOKEN", "AWS_CONTAINER_AUTHORIZATION_TOKEN_FILE",
    "AWS_EC2_METADATA_DISABLED", "AWS_METADATA_SERVICE_TIMEOUT"].map text

/-- `config_options::GCS`. -/
def gcs : List Text :=
  ["GCS_NO_SIGN_REQUEST", "GCS_HMAC_ACCESS_KEY_ID", "GCS_HMAC_SECRET_ACCESS_KEY",
    "GCS_ACCESS_TOKEN", "GCS_REFRESH_TOKEN", "GCS_CLIENT_ID", "GCS_CLIENT_SECRET",
    "GCS_PRIVATE_KEY", "GCS_PRIVATE_KEY_FILE", "GCS_CLIENT_EMAIL", "GCS_SCOPE",
    "GCS_USER_PROJECT", "GCS_ENDPOINT", "GCS_METADATA_ENDPOINT", "GCS_METADATA_DISABLED",
    "GOOGLE_APPLICATION_CREDENTIALS", "CLOUDSDK_CONFIG"].map text

/-- `config_options::AZURE`. -/
def azure : List Text :=
  ["AZURE_NO_SIGN_REQUEST", "AZURE_STORAGE_CONNECTION_STRING", "AZURE_STORAGE_ACCOUNT",
    "AZURE_STORAGE_ACCESS_KEY", "AZURE_STORAGE_SAS_TOKEN", "AZURE_STORAGE_ACCESS_TOKEN",
    "AZURE_STORAGE_ENDPOINT", "AZURE_TENANT_ID", "AZURE_CLIENT_ID", "AZURE_CLIENT_SECRET",
    "AZURE_FEDERATED_TOKEN_FILE", "AZURE_AUTHORITY_HOST", "AZURE_STORAGE_SCOPE",
    "AZURE_STORAGE_RESOURCE", "AZURE_IMDS_OBJECT_ID", "AZURE_IMDS_CLIENT_ID",
    "AZURE_IMDS_MSI_RES_ID", "IDENTITY_ENDPOINT", "IDENTITY_HEADER", "IMDS_ENDPOINT"].map text

/-- `config_options::HUGGING_FACE`. -/
def huggingFace : List Text :=
  ["HF_ENDPOINT", "HF_TOKEN", "HF_TOKEN_PATH", "HF_HOME", "HUGGING_FACE_HUB_TOKEN"].map text

/-- `config_options::SOURCE`. -/
def source : List Text :=
  ["SOURCE_NO_SIGN_REQUEST", "SOURCE_ACCESS_KEY_ID", "SOURCE_SECRET_ACCESS_KEY",
    "SOURCE_SESSION_TOKEN", "SOURCE_PROFILE", "SOURCE_SHARED_CREDENTIALS_FILE",
    "SOURCE_CONFIG_FILE", "SOURCE_REGION", "SOURCE_ENDPOINT", "SOURCE_PROXY_URL"].map text

/-- `config_options::HTTP`. -/
def http : List Text :=
  ["KARU_HTTP_HEADERS", "KARU_HTTP_VERSION", "KARU_HTTP_CA_BUNDLE", "CURL_CA_BUNDLE",
    "SSL_CERT_FILE", "KARU_HTTP_CA_PATH", "KARU_HTTP_PROXY", "KARU_HTTP_PROXY_CREDENTIALS",
    "KARU_HTTP_USER_AGENT"].map text

/-- What `for_each_environment` visits, in its order. -/
def environment : List Text := core ++ s3 ++ gcs ++ azure ++ huggingFace ++ source ++ http

end ConfigOptions

/-- `canonical_option_name`. -/
def canonicalOptionName (name : Text) : Text :=
  let result := uppercase name
  if result = text "AWS_ENDPOINT_URL" ∨ result = text "AWS_ENDPOINT_URL_S3" then
    text "AWS_S3_ENDPOINT"
  else if result = text "AWS_DEFAULT_PROFILE" then text "AWS_PROFILE"
  else if result = text "AWS_DEFAULT_REGION" then text "AWS_REGION"
  else if result = text "KARU_MAX_RETRIES" then text "KARU_MAX_ATTEMPTS"
  else if result = text "HUGGING_FACE_HUB_TOKEN" then text "HF_TOKEN"
  else if result = text "CURL_CA_BUNDLE" ∨ result = text "SSL_CERT_FILE" then
    text "KARU_HTTP_CA_BUNDLE"
  else if result = text "SOURCE_PROXY_URL" then text "SOURCE_ENDPOINT"
  else result

/-- `known_option`. -/
def knownOption (canonical : Text) : Bool :=
  ConfigOptions.environment.any fun candidate => canonicalOptionName candidate == canonical

/-- `canonical_vsi_path`. -/
def canonicalVsiPath (path : Text) : Text :=
  if (text "s3://").isPrefixOf path then text "/vsis3/" ++ path.drop 5
  else if (text "gs://").isPrefixOf path then text "/vsigs/" ++ path.drop 5
  else if (text "az://").isPrefixOf path then text "/vsiaz/" ++ path.drop 5
  else if (text "abfs://").isPrefixOf path then text "/vsiadls/" ++ path.drop 7
  else if (text "hf://").isPrefixOf path then text "/vsihf/" ++ path.drop 5
  else if (text "source://").isPrefixOf path then text "/vsisource/" ++ path.drop 9
  else path

/-- `path_prefix_matches`: a prefix that ends at the end of a segment. -/
def pathPrefixMatches (path pre : Text) : Bool :=
  pre.isPrefixOf path &&
    (path.length == pre.length || pre.getLast? == some 47 || path[pre.length]? == some 47)

/-- `option_is_true`. -/
def optionIsTrue (value : Text) : Bool :=
  let lowered := value.map asciiLower
  lowered == text "yes" || lowered == text "true" || lowered == text "on" || value == text "1"

/-! ## The builder -/

/-- `OptionMap`. -/
abbrev OptionMap := Text → Option Text

namespace OptionMap

/-- The map with nothing in it. -/
def empty : OptionMap := fun _ => none

/-- `values[name] = value`, or `values.erase(name)` for a null pointer. -/
def assign (values : OptionMap) (name : Text) (value : Option Text) : OptionMap :=
  fun other => if other = name then value else values other

/-- `try_emplace`. -/
def tryEmplace (values : OptionMap) (name value : Text) : OptionMap :=
  if (values name).isSome then values else values.assign name (some value)

end OptionMap

/-- `PathOptions`. -/
structure PathOptions where
  pathPrefix : Text
  values : OptionMap

/-- What `ConfigBuilder(include_environment)` does with one name of the table. -/
def readEnvironment (getenv : Text → Option Text) (values : OptionMap) (name : Text) : OptionMap :=
  match getenv name with
  | none => values
  | some value =>
      if value.isEmpty then values else values.tryEmplace (canonicalOptionName name) value

/-- The environment layer: the first spelling of an option that is set and not empty. -/
def environmentLayer (getenv : Text → Option Text) : OptionMap :=
  ConfigOptions.environment.foldl (readEnvironment getenv) OptionMap.empty

/-- No two rules have the same prefix, and none has an empty one: `set_path` looks a prefix up
before it adds a rule. -/
structure PathOptions.Distinct (paths : List PathOptions) : Prop where
  nodup : (paths.map (·.pathPrefix)).Nodup
  named : ∀ rule ∈ paths, rule.pathPrefix ≠ []

theorem PathOptions.distinct_nil : PathOptions.Distinct [] :=
  ⟨List.nodup_nil, fun _ h => (List.not_mem_nil h).elim⟩

/-- `ConfigBuilder`. -/
structure ConfigBuilder where
  environment : OptionMap := OptionMap.empty
  explicit : OptionMap := OptionMap.empty
  paths : List PathOptions := []
  homeDirectory : Text := []
  discoverDefaultCredentials : Bool := false
  distinct : PathOptions.Distinct paths := by exact PathOptions.distinct_nil

namespace ConfigBuilder

/-- `ConfigBuilder(include_environment)`. -/
def new (includeEnvironment : Bool) (getenv : Text → Option Text) : ConfigBuilder :=
  if includeEnvironment then
    { environment := environmentLayer getenv
      homeDirectory := (getenv (text "HOME")).getD []
      discoverDefaultCredentials := true }
  else {}

/-- `ConfigBuilder::set`. -/
def set (builder : ConfigBuilder) (name : Text) (value : Option Text) :
    Except Text ConfigBuilder :=
  if name.isEmpty then .error (text "option name is empty")
  else if !knownOption (canonicalOptionName name) then
    .error (text "unknown Karu option '" ++ name ++ text "'")
  else
    .ok { builder with explicit := builder.explicit.assign (canonicalOptionName name) value }

/-- The rule for a prefix gets a value; a rule that is missing goes to the end. -/
def assignPath (pre name : Text) (value : Option Text) : List PathOptions → List PathOptions
  | [] => [⟨pre, OptionMap.empty.assign name value⟩]
  | rule :: rest =>
      if rule.pathPrefix = pre then { rule with values := rule.values.assign name value } :: rest
      else rule :: assignPath pre name value rest

/-- Assigning keeps the prefixes, or adds the new one behind them. -/
theorem map_assignPath (pre name : Text) (value : Option Text) :
    ∀ paths : List PathOptions,
      (assignPath pre name value paths).map (·.pathPrefix) =
        if pre ∈ paths.map (·.pathPrefix) then paths.map (·.pathPrefix)
        else paths.map (·.pathPrefix) ++ [pre]
  | [] => by simp [assignPath]
  | rule :: rest => by
      by_cases h : rule.pathPrefix = pre
      · simp [assignPath, h]
      · have hne : pre ≠ rule.pathPrefix := Ne.symm h
        rw [assignPath, if_neg h, List.map_cons, map_assignPath pre name value rest]
        by_cases hmem : pre ∈ rest.map (·.pathPrefix)
        · simp only [List.map_cons, List.mem_cons, hmem, or_true, if_true]
        · simp only [List.map_cons, List.mem_cons, hmem, hne, or_false, if_false,
            List.cons_append]

theorem distinct_assignPath {pre name : Text} (value : Option Text) {paths : List PathOptions}
    (hpre : pre ≠ []) (h : PathOptions.Distinct paths) :
    PathOptions.Distinct (assignPath pre name value paths) := by
  have hnamed : ∀ x ∈ paths.map (·.pathPrefix), x ≠ [] := by
    intro x hx
    obtain ⟨rule, hrule, rfl⟩ := List.mem_map.mp hx
    exact h.named rule hrule
  have hmap := map_assignPath pre name value paths
  constructor
  · rw [hmap]
    split
    · exact h.nodup
    · rename_i hmem
      exact List.nodup_append.mpr ⟨h.nodup, by simp, fun x hx y hy => by
        rw [List.mem_singleton.mp hy]
        rintro rfl
        exact hmem hx⟩
  · intro rule hrule
    have hx : rule.pathPrefix ∈ (assignPath pre name value paths).map (·.pathPrefix) :=
      List.mem_map.mpr ⟨rule, hrule, rfl⟩
    rw [hmap] at hx
    split at hx
    · exact hnamed _ hx
    · rcases List.mem_append.mp hx with hx | hx
      · exact hnamed _ hx
      · exact List.mem_singleton.mp hx ▸ hpre

theorem canonicalVsiPath_ne_nil {pre : Text} (h : pre ≠ []) : canonicalVsiPath pre ≠ [] := by
  have hvsi : ∀ (vsi : String) (rest : Text), text vsi ≠ [] → text vsi ++ rest ≠ [] := by
    intro vsi rest hne heq
    exact hne (List.append_eq_nil_iff.mp heq).1
  unfold canonicalVsiPath
  split_ifs
  · exact hvsi _ _ (by decide)
  · exact hvsi _ _ (by decide)
  · exact hvsi _ _ (by decide)
  · exact hvsi _ _ (by decide)
  · exact hvsi _ _ (by decide)
  · exact hvsi _ _ (by decide)
  · exact h

/-- `ConfigBuilder::set_path`. -/
def setPath (builder : ConfigBuilder) (pre name : Text) (value : Option Text) :
    Except Text ConfigBuilder :=
  if h : pre = [] then .error (text "path-specific option has an empty prefix")
  else if name.isEmpty then .error (text "option name is empty")
  else if !knownOption (canonicalOptionName name) then
    .error (text "unknown Karu option '" ++ name ++ text "'")
  else if (text "KARU_").isPrefixOf (canonicalOptionName name) then
    .error (canonicalOptionName name ++ text " is client-wide and cannot be path-specific")
  else
    .ok { builder with
      paths := assignPath (canonicalVsiPath pre) (canonicalOptionName name) value builder.paths
      distinct := distinct_assignPath value (canonicalVsiPath_ne_nil h) builder.distinct }

end ConfigBuilder

/-! ## Freezing -/

/-- `valid_boolean`. -/
def validBoolean (value : Text) : Bool :=
  (["YES", "NO", "TRUE", "FALSE", "ON", "OFF", "1", "0"].map text).contains (uppercase value)

/-- `valid_http_version`. -/
def validHttpVersion (value : Text) : Bool :=
  (["AUTO", "1.1", "2", "2TLS", "2PRIOR_KNOWLEDGE"].map text).contains (uppercase value)

/-- `std::to_string` of an integer that may be negative. -/
def decimalInt (n : Int) : Text :=
  if n < 0 then text "-" ++ decimal n.natAbs else decimal n.natAbs

/-- `parse_integer`, for a type that can hold every value from `minimum` to `maximum`. -/
def parseInteger (name value : Text) (minimum maximum : Int) : Except Text Int :=
  let wrong : Text :=
    name ++ text " must be an integer in [" ++ decimalInt minimum ++ text ", " ++
      decimalInt maximum ++ text "]"
  -- an unsigned `from_chars` takes no sign; the signed ones here fit a `long`
  let parsed : Option (Int × Text) :=
    if maximum < 2 ^ 63 then fromCharsLong value
    else (fromChars value).map fun (n, rest) => ((n : Int), rest)
  match parsed with
  | some (n, []) => if n < minimum ∨ maximum < n then .error wrong else .ok n
  | _ => .error wrong

/-- `BOOLEAN_OPTIONS`. -/
def booleanOptions : List Text :=
  ["AWS_NO_SIGN_REQUEST", "AWS_HTTPS", "AWS_VIRTUAL_HOSTING", "AWS_EC2_METADATA_DISABLED",
    "GCS_NO_SIGN_REQUEST", "GCS_METADATA_DISABLED", "AZURE_NO_SIGN_REQUEST",
    "SOURCE_NO_SIGN_REQUEST"].map text

/-- `validate_values`: the first complaint, or nothing. -/
def validateValues (values : OptionMap) : Except Text Unit :=
  match booleanOptions.find? fun name => (values name).any (!validBoolean ·) with
  | some name => .error (name ++ text " must be YES/NO, TRUE/FALSE, ON/OFF, or 1/0")
  | none => do
      let timeout := text "AWS_METADATA_SERVICE_TIMEOUT"
      if let some value := values timeout then
        let _ ← parseInteger timeout value 1 60
      if (values (text "AWS_REQUEST_PAYER")).any (uppercase · ≠ text "REQUESTER") then
        .error (text "AWS_REQUEST_PAYER must be 'requester'")
      if (values (text "KARU_HTTP_VERSION")).any (!validHttpVersion ·) then
        .error (text "KARU_HTTP_VERSION must be AUTO, 1.1, 2TLS, 2, or 2PRIOR_KNOWLEDGE")

/-- `ConfigSnapshot`. -/
structure ConfigSnapshot where
  environment : OptionMap := OptionMap.empty
  explicit : OptionMap := OptionMap.empty
  paths : List PathOptions := []
  homeDirectory : Text := []
  discoverDefaultCredentials : Bool := false
  distinct : PathOptions.Distinct paths := by exact PathOptions.distinct_nil

namespace ConfigSnapshot

/-- One turn of the loop that `option` and `scope_key` share. -/
def consider (path name : Text) (best : Option PathOptions) (candidate : PathOptions) :
    Option PathOptions :=
  if !pathPrefixMatches path candidate.pathPrefix || (candidate.values name).isNone then best
  else
    match best with
    | none => some candidate
    | some b =>
        if b.pathPrefix.length < candidate.pathPrefix.length then some candidate else best

/-- The loop: the rule with the longest prefix that matches the path and has the option.  Path
and name are canonical already. -/
def bestRule (paths : List PathOptions) (path name : Text) : Option PathOptions :=
  paths.foldl (consider path name) none

/-- `ConfigSnapshot::option`. -/
def option (config : ConfigSnapshot) (path name : Text) (fallback : Text := []) : Text :=
  let name := canonicalOptionName name
  match (bestRule config.paths (canonicalVsiPath path) name).bind (·.values name) with
  | some value => value
  | none =>
      match config.explicit name with
      | some value => value
      | none => (config.environment name).getD fallback

/-- `sentinel` of `has_option`. -/
def sentinel : Text := 0 :: text "missing"

/-- `ConfigSnapshot::has_option`. -/
def hasOption (config : ConfigSnapshot) (path name : Text) : Bool :=
  config.option path name sentinel != sentinel

/-- What `scope_key` writes behind the `=`: the prefix of the rule, or the layer. -/
def layer (config : ConfigSnapshot) (path name : Text) : Text :=
  match bestRule config.paths path name with
  | some rule => rule.pathPrefix
  | none =>
      if (config.explicit name).isSome then text "explicit"
      else if (config.environment name).isSome then text "environment"
      else text "default"

/-- `ConfigSnapshot::scope_key`. -/
def scopeKey (config : ConfigSnapshot) (path : Text) (names : List Text) : Text :=
  names.flatMap fun rawName =>
    canonicalOptionName rawName ++ text "=" ++
      config.layer (canonicalVsiPath path) (canonicalOptionName rawName) ++ text "\n"

end ConfigSnapshot

/-- The client-wide numbers: option, default, least and greatest value. -/
def clientNumbers : List (Text × Text × Int × Int) :=
  [("KARU_CONCURRENCY", "64", 1, 4096), ("KARU_IO_THREADS", "4", 1, 64),
    ("KARU_COALESCE_GAP", "1048576", 0, 2 ^ 64 - 1),
    ("KARU_COALESCE_LIMIT", "67108864", 1, 2 ^ 64 - 1),
    ("KARU_COALESCE_PARTS", "1024", 1, 1048576),
    ("KARU_COALESCE_AMPLIFICATION", "16", 1, 1048576),
    ("KARU_RANGE_FALLBACK_LIMIT", "8388608", 0, 2 ^ 64 - 1), ("KARU_MAX_ATTEMPTS", "8", 1, 16),
    ("KARU_REQUEST_TIMEOUT", "120", 0, 86400), ("KARU_CONNECT_TIMEOUT", "30", 1, 3600),
    ("KARU_LOW_SPEED_TIME", "60", 0, 3600),
    ("KARU_LOW_SPEED_LIMIT", "1024", 0, 2 ^ 63 - 1)].map
    fun (name, fallback, least, greatest) => (text name, text fallback, least, greatest)

/-- What `freeze` checks of a path rule. -/
def checkRule (rule : PathOptions) : Except Text Unit :=
  match validateValues rule.values with
  | .ok _ => .ok ()
  | .error wrong => .error (rule.pathPrefix ++ text ": " ++ wrong)

/-- What it checks of a client-wide number. -/
def checkNumber (config : ConfigSnapshot) (number : Text × Text × Int × Int) : Except Text Unit :=
  match parseInteger number.1 (config.option [] number.1 number.2.1) number.2.2.1 number.2.2.2 with
  | .ok _ => .ok ()
  | .error wrong => .error wrong

/-- `ConfigBuilder::freeze`. -/
def ConfigBuilder.freeze (builder : ConfigBuilder) : Except Text ConfigSnapshot := do
  let result : ConfigSnapshot :=
    { environment := builder.environment, explicit := builder.explicit, paths := builder.paths
      homeDirectory := builder.homeDirectory
      discoverDefaultCredentials := builder.discoverDefaultCredentials
      distinct := builder.distinct }
  validateValues result.environment
  validateValues result.explicit
  result.paths.forM checkRule
  clientNumbers.forM (checkNumber result)
  return result

end Karu
