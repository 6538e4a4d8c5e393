/-
# `Karu.Backends.LoadCredentials` — what a loader knows of its path

A loader is given the path of an object and reads its options there.  Each
provider declares the options it reads, and credentials are cached by the
layers that supply these options.  So a loader must not read any other option:
two paths that agree on the declared ones have to ask the same questions and
end in the same way, apart from a text that names the path.

The proof follows the loaders: every helper that is given the path is rewritten
from the one path to the other, and what is left is the four texts.
-/
import Karu.Precedence
import Karu.Backends.AwsCredentials
import Karu.Backends.GcsCredentials
import Karu.Backends.AzureCredentials

namespace Karu

open Base

namespace Backends

/-- `CloudProvider::load_credentials`. -/
def loadNative (platform : Platform) (config : ConfigSnapshot) :
    CredentialsKind → Text → Loader ProviderCredentials
  | .aws, path => loadAwsCredentials platform config path
  | .gcs, path => loadGcsCredentials platform config path
  | .azure, path => loadAzureCredentials platform config path
  | .source, path => loadSourceCredentials config path

/-! ## Agreement of two paths -/

/-- The declared options have the same value and presence at both paths. -/
def SameOptions (config : ConfigSnapshot) (kind : CredentialsKind) (p q : Text) : Prop :=
  ∀ name ∈ kind.credentialOptions,
    config.option p name = config.option q name ∧ config.hasOption p name = config.hasOption q name

instance (config : ConfigSnapshot) (kind : CredentialsKind) (p q : Text) :
    Decidable (SameOptions config kind p q) :=
  inferInstanceAs (Decidable (∀ name ∈ _, _ ∧ _))

/-- Whatever stands in for a missing option. -/
theorem option_eq_of_same {config : ConfigSnapshot} {p q name : Text}
    (hvalue : config.option p name = config.option q name)
    (hpresent : config.hasOption p name = config.hasOption q name) (fallback : Text) :
    config.option p name fallback = config.option q name fallback := by
  rw [ConfigSnapshot.hasOption, ConfigSnapshot.hasOption, option_eq_found, option_eq_found] at hpresent
  rw [option_eq_found, option_eq_found] at hvalue
  rw [option_eq_found, option_eq_found]
  generalize config.found (canonicalVsiPath p) (canonicalOptionName name) = left at *
  generalize config.found (canonicalVsiPath q) (canonicalOptionName name) = right at *
  cases left with
  | some x =>
      cases right with
      | some y => exact hvalue
      | none =>
          -- an empty value is a value, and the sentinel is no empty one
          have hx : x = [] := hvalue
          rw [hx] at hpresent
          exact absurd hpresent (by decide)
  | none =>
      cases right with
      | none => rfl
      | some y =>
          have hy : y = [] := hvalue.symm
          rw [hy] at hpresent
          exact absurd hpresent (by decide)

section

variable {config : ConfigSnapshot} {kind : CredentialsKind} {p q : Text}

theorem SameOptions.option (h : SameOptions config kind p q) {name : Text}
    (hname : name ∈ kind.credentialOptions) (fallback : Text) :
    config.option p name fallback = config.option q name fallback :=
  option_eq_of_same (h name hname).1 (h name hname).2 fallback

theorem SameOptions.hasOption (h : SameOptions config kind p q) {name : Text}
    (hname : name ∈ kind.credentialOptions) : config.hasOption p name = config.hasOption q name :=
  (h name hname).2

end

/-! ## Programs that agree -/

/-- The same credentials, or errors with the same status. -/
def SameEnd : Except RequestError ProviderCredentials → Except RequestError ProviderCredentials → Prop
  | .ok a, .ok b => a = b
  | .error a, .error b => a.status = b.status
  | _, _ => False

theorem SameEnd.refl (x : Except RequestError ProviderCredentials) : SameEnd x x := by
  cases x <;> rfl

/-- The same questions, and the same end. -/
def Agree (x y : Loader ProviderCredentials) : Prop := Ask.Alike SameEnd x.run y.run

theorem Agree.refl (x : Loader ProviderCredentials) : Agree x x := Ask.Alike.refl SameEnd.refl _

theorem Agree.throw {a b : RequestError} (h : a.status = b.status) :
    Agree (throw a) (throw b) := .done h

/-- What follows the same program. -/
theorem Agree.bind {α : Type} (x : Loader α) {f g : α → Loader ProviderCredentials}
    (h : ∀ a, Agree (f a) (g a)) : Agree (x >>= f) (x >>= g) := by
  refine Ask.Alike.bind (Ask.Alike.refl (fun _ => rfl) x.run) ?_
  rintro a _ rfl
  cases a with
  | ok a => exact h a
  | error e => exact .done rfl

/-! ## The loaders -/

section

variable {platform : Platform} {config : ConfigSnapshot} {p q : Text}

theorem awsContainer_same (h : SameOptions config .aws p q) (url : Text) :
    awsContainer platform config p url = awsContainer platform config q url := by
  simp (disch := simp [CredentialsKind.credentialOptions]) only [awsContainer, httpOptions, h.option]

theorem awsMetadata_same (h : SameOptions config .aws p q) :
    awsMetadata platform config p = awsMetadata platform config q := by
  simp (disch := simp [CredentialsKind.credentialOptions]) only
    [awsMetadata, httpOptions, h.option, h.hasOption]

theorem containerUrl_same (h : SameOptions config .aws p q) :
    containerUrl config p = containerUrl config q := by
  simp (disch := simp [CredentialsKind.credentialOptions]) only [containerUrl, h.option]

/-- A profile, for whichever provider declares the options of its two files. -/
theorem readAwsProfile_same {kind : CredentialsKind} (h : SameOptions config kind p q)
    {configFile credentialsFile : Text} (hconfig : configFile ∈ kind.credentialOptions)
    (hcredentials : credentialsFile ∈ kind.credentialOptions) (profile label : Text) :
    readAwsProfile config p profile configFile credentialsFile label =
      readAwsProfile config q profile configFile credentialsFile label := by
  simp only [readAwsProfile, readProfileFile, h.option hconfig, h.option hcredentials,
    h.hasOption hconfig, h.hasOption hcredentials]

theorem awsChain_same (h : SameOptions config .aws p q) :
    awsChain platform config p = awsChain platform config q := by
  have hprofile := readAwsProfile_same h (by simp [CredentialsKind.credentialOptions] : text "AWS_CONFIG_FILE" ∈ _)
    (by simp [CredentialsKind.credentialOptions] : text "AWS_SHARED_CREDENTIALS_FILE" ∈ _)
  simp (disch := simp [CredentialsKind.credentialOptions]) only [awsChain, httpOptions, h.option,
    h.hasOption, hprofile, awsContainer_same h, awsMetadata_same h, containerUrl_same h]

theorem loadAwsCredentials_agree (h : SameOptions config .aws p q) :
    Agree (loadAwsCredentials platform config p) (loadAwsCredentials platform config q) := by
  simp (disch := simp [CredentialsKind.credentialOptions]) only [loadAwsCredentials, h.option,
    awsChain_same h]
  split
  · split
    · exact .throw rfl
    · exact .refl _
  · exact .refl _

theorem loadSourceCredentials_agree (h : SameOptions config .source p q) :
    Agree (loadSourceCredentials config p) (loadSourceCredentials config q) := by
  have hprofile := readAwsProfile_same h
    (by simp [CredentialsKind.credentialOptions] : text "SOURCE_CONFIG_FILE" ∈ _)
    (by simp [CredentialsKind.credentialOptions] : text "SOURCE_SHARED_CREDENTIALS_FILE" ∈ _)
  simp (disch := simp [CredentialsKind.credentialOptions]) only [loadSourceCredentials, sourceProfile,
    h.option, hprofile]
  split
  · split
    · exact .throw rfl
    · exact .refl _
  · refine .bind _ fun profile => ?_
    split
    · exact .throw rfl
    · refine .bind _ fun credentials => ?_
      split
      · exact .throw rfl
      · exact .refl _

theorem gcsAuthorizedUser_same (h : SameOptions config .gcs p q) (json : Text) :
    gcsAuthorizedUser platform json config p = gcsAuthorizedUser platform json config q := by
  simp (disch := simp [CredentialsKind.credentialOptions]) only [gcsAuthorizedUser, httpOptions, h.option]

theorem gcsAdc_same (h : SameOptions config .gcs p q) (adcPath : Text) :
    gcsAdc platform config p adcPath = gcsAdc platform config q adcPath := by
  simp (disch := simp [CredentialsKind.credentialOptions]) only [gcsAdc, gcsServiceAccount,
    gcsExternalAccount, httpOptions, h.option, gcsAuthorizedUser_same h]

theorem gcsAdcPath_same (h : SameOptions config .gcs p q) :
    gcsAdcPath config p = gcsAdcPath config q := by
  simp (disch := simp [CredentialsKind.credentialOptions]) only [gcsAdcPath, h.option]

theorem gcsConfiguredAccount_same (h : SameOptions config .gcs p q) :
    gcsConfiguredAccount platform config p = gcsConfiguredAccount platform config q := by
  simp (disch := simp [CredentialsKind.credentialOptions]) only [gcsConfiguredAccount, httpOptions,
    h.option]

theorem gcsMetadata_same (h : SameOptions config .gcs p q) :
    gcsMetadata platform config p = gcsMetadata platform config q := by
  simp (disch := simp [CredentialsKind.credentialOptions]) only [gcsMetadata, httpOptions, h.option,
    h.hasOption]

theorem loadGcsCredentials_agree (h : SameOptions config .gcs p q) :
    Agree (loadGcsCredentials platform config p) (loadGcsCredentials platform config q) := by
  simp (disch := simp [CredentialsKind.credentialOptions]) only [loadGcsCredentials, gcsChain, h.option,
    gcsAuthorizedUser_same h, gcsAdc_same h, gcsAdcPath_same h, gcsConfiguredAccount_same h,
    gcsMetadata_same h]
  split
  · exact .refl _
  · split
    · split
      · exact .throw rfl
      · exact .refl _
    · exact .refl _

theorem azureDirect_same (h : SameOptions config .azure p q) :
    azureDirect config p = azureDirect config q := by
  simp (disch := simp [CredentialsKind.credentialOptions]) only [azureDirect, h.option]

theorem azurePrincipal_same (h : SameOptions config .azure p q)
    (tenant client secret federatedFile : Text) :
    azurePrincipal platform config p tenant client secret federatedFile =
      azurePrincipal platform config q tenant client secret federatedFile := by
  simp (disch := simp [CredentialsKind.credentialOptions]) only [azurePrincipal, httpOptions,
    h.option]

theorem azureIdentity_same (h : SameOptions config .azure p q) (client : Text) :
    azureIdentity platform config p client = azureIdentity platform config q client := by
  simp (disch := simp [CredentialsKind.credentialOptions]) only [azureIdentity, azureAppService,
    azureMetadata, httpOptions, azureDirect_same h, h.option, h.hasOption]

theorem loadAzureCredentials_same (h : SameOptions config .azure p q) :
    loadAzureCredentials platform config p = loadAzureCredentials platform config q := by
  simp (disch := simp [CredentialsKind.credentialOptions]) only [loadAzureCredentials,
    azureDirect_same h, azurePrincipal_same h, azureIdentity_same h, h.option, h.hasOption]

/-- Every loader, one by one. -/
theorem loadNative_agree (platform : Platform) {kind : CredentialsKind}
    (h : SameOptions config kind p q) :
    Agree (loadNative platform config kind p) (loadNative platform config kind q) := by
  cases kind with
  | aws => exact loadAwsCredentials_agree h
  | gcs => exact loadGcsCredentials_agree h
  | azure =>
      rw [loadNative, loadNative, loadAzureCredentials_same h]
      exact .refl _
  | source => exact loadSourceCredentials_agree h

end

/-! ## What a cached credential stands for -/

/-- The two loads ask the same, in one world, and end in the same way. -/
def SameLoad (platform : Platform) (config : ConfigSnapshot) (kind : CredentialsKind)
    (world : Ask.World Question.Answer) (p q : Text) : Prop :=
  (Ask.run world [] (loadNative platform config kind p).run).1 =
      (Ask.run world [] (loadNative platform config kind q).run).1 ∧
    SameEnd (Ask.run world [] (loadNative platform config kind p).run).2
      (Ask.run world [] (loadNative platform config kind q).run).2

/-- Two paths with one key see the same options. -/
theorem sameOptions_of_key_eq {config : ConfigSnapshot} {kind : CredentialsKind} {p q : Text}
    (hp : CloudPath kind p) (hq : CloudPath kind q)
    (hpq : config.Delimited kind.keyNames p q) (hqp : config.Delimited kind.keyNames q p)
    (hkey : nativeCredentialKey config kind p = nativeCredentialKey config kind q) :
    SameOptions config kind p q := by
  intro name hname
  have hoption := ConfigSnapshot.option_eq_of_layer_eq hp.rooted hq.rooted
    (layer_eq_of_key_eq hp hq hpq hqp hkey _ (List.mem_map_of_mem hname))
  exact ⟨hoption [], by rw [ConfigSnapshot.hasOption, ConfigSnapshot.hasOption, hoption]⟩

/-- A loader depends on its path only through the declared options; and so, where no rule of one
path runs on from a rule of the other, paths that share a cache key load the same. -/
theorem loadNative_reads_declared (platform : Platform) (config : ConfigSnapshot)
    (kind : CredentialsKind) (world : Ask.World Question.Answer) (p q : Text) :
    (SameOptions config kind p q → SameLoad platform config kind world p q) ∧
      (CloudPath kind p → CloudPath kind q →
        config.Delimited kind.keyNames p q → config.Delimited kind.keyNames q p →
        nativeCredentialKey config kind p = nativeCredentialKey config kind q →
        SameLoad platform config kind world p q) := by
  have hsame (h : SameOptions config kind p q) : SameLoad platform config kind world p q :=
    (loadNative_agree platform h).run world []
  refine ⟨hsame, ?_⟩
  intro hp hq hpq hqp hkey
  exact hsame (sameOptions_of_key_eq hp hq hpq hqp hkey)

/-- Two objects under one rule. -/
theorem loadNative_reads_declared_bucket :
    ∃ config : ConfigSnapshot,
      config.option (text "/vsis3/b/x") (text "AWS_ACCESS_KEY_ID") = text "A" ∧
        ∀ platform world,
          SameLoad platform config .aws world (text "/vsis3/b/x") (text "/vsis3/b/y") := by
  let config : ConfigSnapshot :=
    { paths := [⟨text "/vsis3/b/", OptionMap.empty.assign (text "AWS_ACCESS_KEY_ID") (text "A")⟩]
      distinct := ⟨by decide, by decide⟩ }
  refine ⟨config, by decide +kernel, ?_⟩
  intro platform world
  exact (loadNative_reads_declared platform config .aws world _ _).2
    ⟨text "s3://b/x", _, rfl, rfl, rfl⟩ ⟨text "s3://b/y", _, rfl, rfl, rfl⟩
    (by decide +kernel) (by decide +kernel) (by decide +kernel)

/-- A prefix that imitates the field of the secret key: what was loaded for the second path is in
the cache under the key of the first one, whose own load fails. -/
theorem loadNative_served_elsewhere :
    ∃ config, scopedConfig [("/vsis3/", "AWS_ACCESS_KEY_ID", "A"),
        ("/vsis3/\nAWS_SECRET_ACCESS_KEY=/vsis3/", "AWS_ACCESS_KEY_ID", "B"),
        ("/vsis3/\nAWS_SECRET_ACCESS_KEY=default", "AWS_SECRET_ACCESS_KEY", "S")] = .ok config ∧
      CloudPath .aws (text "/vsis3/\nAWS_SECRET_ACCESS_KEY=/vsis3/key") ∧
      CloudPath .aws (text "/vsis3/\nAWS_SECRET_ACCESS_KEY=default/key") ∧
      nativeCredentialKey config .aws (text "/vsis3/\nAWS_SECRET_ACCESS_KEY=/vsis3/key") =
        nativeCredentialKey config .aws (text "/vsis3/\nAWS_SECRET_ACCESS_KEY=default/key") ∧
      ∀ platform world, ¬ SameLoad platform config .aws world
        (text "/vsis3/\nAWS_SECRET_ACCESS_KEY=/vsis3/key")
        (text "/vsis3/\nAWS_SECRET_ACCESS_KEY=default/key") := by
  obtain ⟨config, hconfig, hp, hq, hseen⟩ := imitating_prefixes
  refine ⟨config, hconfig, hp, hq, ?_⟩
  generalize text "/vsis3/\nAWS_SECRET_ACCESS_KEY=/vsis3/key" = p at *
  generalize text "/vsis3/\nAWS_SECRET_ACCESS_KEY=default/key" = q at *
  simp only [sideBySide, Prod.mk.injEq, List.cons.injEq, and_true] at hseen
  obtain ⟨hkey, hpKey, hpSecret, hqKey, hqSecret⟩ := hseen
  refine ⟨eq_of_beq hkey, ?_⟩
  intro platform world hsame
  have hend := hsame.2
  simp only [loadNative, loadAwsCredentials, hpKey, hpSecret, hqKey, hqSecret] at hend
  exact hend

end Backends

end Karu
