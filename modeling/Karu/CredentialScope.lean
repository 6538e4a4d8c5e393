/-
# `Karu.CredentialScope` — the keys native credentials are cached under

`scope_key` names, for every credential option of a provider, the layer that
supplies it: the prefix of a path rule, or one of three words.  Two paths with
the same key are meant to see the same options.

The key is one flat text, `NAME=layer` and a newline for every option, and a
prefix is whatever text the caller chose, newlines included.  A prefix that
goes on, behind another rule's prefix, with a newline, the next option's name
and `=` reads like two fields of the key.  Where no rule does that, the key
gives every layer back.
-/
import Mathlib.Data.List.Nodup
import Karu.Config
import Karu.Objects

namespace Karu

open Base

/-! ## Providers -/

/-- `karu_credentials_kind`. -/
inductive CredentialsKind where
  | aws | gcs | azure | source
deriving DecidableEq, Repr

/-- The value of the enumerator. -/
def CredentialsKind.value : CredentialsKind → Nat
  | .aws => 1 | .gcs => 2 | .azure => 3 | .source => 4

/-- `CloudProvider::backend`. -/
def CredentialsKind.backend : CredentialsKind → Backend
  | .aws => .s3 | .gcs => .gcs | .azure => .azure | .source => .source

/-- `CREDENTIAL_OPTIONS`, of `s3.cpp`, `gcs.cpp`, `azure.cpp` and `source.cpp`. -/
def CredentialsKind.credentialOptions : CredentialsKind → List Text
  | .aws =>
      ["AWS_ACCESS_KEY_ID", "AWS_SECRET_ACCESS_KEY", "AWS_SESSION_TOKEN", "AWS_PROFILE",
        "AWS_SHARED_CREDENTIALS_FILE", "AWS_CONFIG_FILE", "AWS_ROLE_ARN", "AWS_STS_ENDPOINT",
        "AWS_WEB_IDENTITY_TOKEN_FILE", "AWS_ROLE_SESSION_NAME",
        "AWS_CONTAINER_CREDENTIALS_RELATIVE_URI", "AWS_CONTAINER_CREDENTIALS_FULL_URI",
        "AWS_CONTAINER_AUTHORIZATION_TOKEN", "AWS_CONTAINER_AUTHORIZATION_TOKEN_FILE",
        "AWS_EC2_METADATA_DISABLED", "AWS_METADATA_SERVICE_TIMEOUT"].map text
  | .gcs =>
      ["GCS_HMAC_ACCESS_KEY_ID", "GCS_HMAC_SECRET_ACCESS_KEY", "GCS_ACCESS_TOKEN",
        "GCS_REFRESH_TOKEN", "GCS_CLIENT_ID", "GCS_CLIENT_SECRET", "GCS_PRIVATE_KEY",
        "GCS_PRIVATE_KEY_FILE", "GCS_CLIENT_EMAIL", "GCS_SCOPE",
        "GOOGLE_APPLICATION_CREDENTIALS", "CLOUDSDK_CONFIG", "GCS_METADATA_DISABLED",
        "GCS_METADATA_ENDPOINT"].map text
  | .azure =>
      ["AZURE_STORAGE_CONNECTION_STRING", "AZURE_STORAGE_ACCOUNT", "AZURE_STORAGE_ACCESS_KEY",
        "AZURE_STORAGE_SAS_TOKEN", "AZURE_STORAGE_ACCESS_TOKEN", "AZURE_TENANT_ID",
        "AZURE_CLIENT_ID", "AZURE_CLIENT_SECRET", "AZURE_FEDERATED_TOKEN_FILE",
        "AZURE_AUTHORITY_HOST", "AZURE_STORAGE_SCOPE", "AZURE_STORAGE_RESOURCE",
        "AZURE_IMDS_OBJECT_ID", "AZURE_IMDS_CLIENT_ID", "AZURE_IMDS_MSI_RES_ID",
        "IDENTITY_ENDPOINT", "IDENTITY_HEADER", "IMDS_ENDPOINT"].map text
  | .source =>
      ["SOURCE_ACCESS_KEY_ID", "SOURCE_SECRET_ACCESS_KEY", "SOURCE_SESSION_TOKEN",
        "SOURCE_PROFILE", "SOURCE_SHARED_CREDENTIALS_FILE", "SOURCE_CONFIG_FILE"].map text

/-- `credential_family`. -/
def credentialFamily (source : Text) (kind : CredentialsKind) : Text :=
  source ++ text "\n" ++ decimal kind.value ++ text "\n"

/-- `credential_key`. -/
def credentialKey (family scope : Text) : Text := family ++ scope

/-- `native_credential_key`. -/
def nativeCredentialKey (config : ConfigSnapshot) (kind : CredentialsKind) (path : Text) : Text :=
  credentialKey (credentialFamily (text "native") kind)
    (config.scopeKey path kind.credentialOptions)

/-- A path of the provider: the canonical URI of an object that `resolve` accepts. -/
def CloudPath (kind : CredentialsKind) (path : Text) : Prop :=
  ∃ uri resolved, Uri.resolve uri = .ok resolved ∧ resolved.backend = kind.backend ∧
    resolved.canonicalUri = path

/-! ## The rule that supplies an option -/

namespace ConfigSnapshot

/-- The rule applies to the path and has the option. -/
def Supplies (path name : Text) (rule : PathOptions) : Prop :=
  pathPrefixMatches path rule.pathPrefix = true ∧ (rule.values name).isSome = true

instance (path name : Text) (rule : PathOptions) : Decidable (Supplies path name rule) :=
  inferInstanceAs (Decidable (_ ∧ _))

/-- What the loop has found so far: the longest of the rules that apply. -/
structure Best (path name : Text) (seen : List PathOptions) (best : Option PathOptions) : Prop where
  mem : ∀ b, best = some b → b ∈ seen ∧ Supplies path name b
  longest : ∀ r ∈ seen, Supplies path name r →
    ∃ b, best = some b ∧ r.pathPrefix.length ≤ b.pathPrefix.length

theorem Best.skip {path name : Text} {seen : List PathOptions} {best : Option PathOptions}
    (h : Best path name seen best) {candidate : PathOptions}
    (hskip : Supplies path name candidate →
      ∃ b, best = some b ∧ candidate.pathPrefix.length ≤ b.pathPrefix.length) :
    Best path name (seen ++ [candidate]) best where
  mem := fun b hb => ⟨List.mem_append_left _ (h.mem b hb).1, (h.mem b hb).2⟩
  longest := fun r hr hs => by
    rcases List.mem_append.mp hr with hr | hr
    · exact h.longest r hr hs
    · cases List.mem_singleton.mp hr
      exact hskip hs

theorem Best.take {path name : Text} {seen : List PathOptions} {best : Option PathOptions}
    (h : Best path name seen best) {candidate : PathOptions} (hs : Supplies path name candidate)
    (hlonger : ∀ b, best = some b → b.pathPrefix.length < candidate.pathPrefix.length) :
    Best path name (seen ++ [candidate]) (some candidate) where
  mem := fun b hb => by
    cases hb
    exact ⟨by simp, hs⟩
  longest := fun r hr hsr => by
    refine ⟨candidate, rfl, ?_⟩
    rcases List.mem_append.mp hr with hr | hr
    · obtain ⟨b, hb, hle⟩ := h.longest r hr hsr
      exact Nat.le_trans hle (Nat.le_of_lt (hlonger b hb))
    · cases List.mem_singleton.mp hr
      exact Nat.le_refl _

/-- One turn of the loop. -/
theorem Best.consider {path name : Text} {seen : List PathOptions} {best : Option PathOptions}
    (h : Best path name seen best) (candidate : PathOptions) :
    Best path name (seen ++ [candidate]) (consider path name best candidate) := by
  unfold ConfigSnapshot.consider
  split
  · rename_i hnot
    refine h.skip fun hs => ?_
    rcases (Bool.or_eq_true _ _).mp hnot with hnot | hnot
    · rw [hs.1] at hnot
      cases hnot
    · rw [Option.isNone_iff_eq_none] at hnot
      have := hs.2
      rw [hnot] at this
      cases this
  · rename_i hfits
    have hs : Supplies path name candidate := by
      simp only [Bool.or_eq_true, Bool.not_eq_true', not_or, Option.isNone_iff_eq_none] at hfits
      exact ⟨by simpa using hfits.1, Option.isSome_iff_ne_none.mpr hfits.2⟩
    split
    · exact h.take hs fun b hb => by cases hb
    · rename_i b
      split
      · rename_i hlt
        refine h.take hs fun b' hb' => ?_
        cases hb'
        exact hlt
      · exact h.skip fun _ => ⟨b, rfl, by omega⟩

/-- The whole loop. -/
theorem bestRule_best (paths : List PathOptions) (path name : Text) :
    Best path name paths (bestRule paths path name) := by
  have hloop : ∀ (rest seen : List PathOptions) (best : Option PathOptions),
      Best path name seen best →
        Best path name (seen ++ rest) (rest.foldl (ConfigSnapshot.consider path name) best) := by
    intro rest
    induction rest with
    | nil =>
        intro seen best h
        simpa using h
    | cons candidate rest ih =>
        intro seen best h
        rw [List.append_cons]
        exact ih _ _ (h.consider candidate)
  exact hloop paths [] none ⟨fun b hb => (by cases hb), fun r hr => (List.not_mem_nil hr).elim⟩

/-- A rule that supplies an option on a path from the root starts with the root. -/
theorem Supplies.rooted {path name : Text} {rule : PathOptions} (h : Supplies path name rule)
    (hne : rule.pathPrefix ≠ []) (hroot : path.head? = some 47) :
    rule.pathPrefix.head? = some 47 := by
  obtain ⟨c, cs, hc⟩ := List.exists_cons_of_ne_nil hne
  have hpre := (Bool.and_eq_true _ _ ▸ h.1).1
  obtain ⟨rest, hrest⟩ := List.isPrefixOf_iff_prefix.mp hpre
  rw [← hrest, hc, List.cons_append, List.head?_cons] at hroot
  rw [hc, List.head?_cons, hroot]

/-- Either a rule supplies the option, or the layer is one of the three words. -/
inductive LayerCase (config : ConfigSnapshot) (path name : Text) : Text → Prop
  | rule {r : PathOptions} (hmem : r ∈ config.paths) (h : Supplies path name r)
      (hbest : bestRule config.paths path name = some r) : LayerCase config path name r.pathPrefix
  | word {w : Text} (hbest : bestRule config.paths path name = none) (hclean : (10 : UInt8) ∉ w)
      (hword : ∃ c, c ≠ 47 ∧ w.head? = some c)
      (hsame : ∀ other, bestRule config.paths other name = none → config.layer other name = w) :
      LayerCase config path name w

theorem layer_cases (config : ConfigSnapshot) (path name : Text) :
    LayerCase config path name (config.layer path name) := by
  cases hbest : bestRule config.paths path name with
  | some r =>
      have hr := (bestRule_best config.paths path name).mem r hbest
      have hlayer : config.layer path name = r.pathPrefix := by rw [layer, hbest]
      exact hlayer ▸ .rule hr.1 hr.2 hbest
  | none =>
      have hsame : ∀ other, bestRule config.paths other name = none →
          config.layer other name = config.layer path name := by
        intro other hother
        rw [layer, layer, hbest, hother]
      have hwords : config.layer path name = text "explicit" ∨
          config.layer path name = text "environment" ∨
          config.layer path name = text "default" := by
        rw [layer, hbest]
        dsimp only
        split_ifs
        · exact .inl rfl
        · exact .inr (.inl rfl)
        · exact .inr (.inr rfl)
      refine .word hbest ?_ ?_ hsame
      · rcases hwords with h | h | h <;> rw [h] <;> decide
      · rcases hwords with h | h | h <;> rw [h]
        · exact ⟨101, by decide, rfl⟩
        · exact ⟨101, by decide, rfl⟩
        · exact ⟨100, by decide, rfl⟩

/-- Equal layers come from one rule, or from no rule on either side. -/
theorem supply_eq_of_layer_eq {config : ConfigSnapshot} {p q name : Text}
    (hp : p.head? = some 47) (hq : q.head? = some 47)
    (h : config.layer p name = config.layer q name) :
    bestRule config.paths p name = bestRule config.paths q name := by
  have hrooted : ∀ {path : Text} {r : PathOptions}, path.head? = some 47 → r ∈ config.paths →
      Supplies path name r → r.pathPrefix.head? = some 47 :=
    fun hroot hmem hs => hs.rooted (config.distinct.named _ hmem) hroot
  have hleft := config.layer_cases p name
  have hright := config.layer_cases q name
  rw [← h] at hright
  generalize config.layer p name = x at hleft hright
  cases hleft with
  | @rule r hmem hs hbest =>
      generalize hx : r.pathPrefix = x at hright
      cases hright with
      | @rule r' hmem' hs' hbest' =>
          have hsame : r = r' := List.inj_on_of_nodup_map config.distinct.nodup hmem hmem' hx
          rw [hbest, hbest', hsame]
      | word _ _ hword _ =>
          obtain ⟨c, hc, hhead⟩ := hword
          rw [← hx, hrooted hp hmem hs] at hhead
          exact (hc (Option.some.inj hhead).symm).elim
  | word hbest _ hword _ =>
      obtain ⟨c, hc, hhead⟩ := hword
      cases hright with
      | rule hmem' hs' _ =>
          rw [hrooted hq hmem' hs'] at hhead
          exact (hc (Option.some.inj hhead).symm).elim
      | word hbest' _ _ _ => rw [hbest, hbest']

/-! ## Reading the key back -/

/-- Behind `r`'s prefix, `r'`'s goes on like the next field of a key. -/
def RunsOn (next : Text) (r r' : PathOptions) : Prop :=
  (r.pathPrefix ++ text "\n" ++ next ++ text "=").isPrefixOf r'.pathPrefix = true

instance (next : Text) (r r' : PathOptions) : Decidable (RunsOn next r r') :=
  inferInstanceAs (Decidable (_ = _))

/-- The rule that gives `q` a credential option does not run on, from the rule that gives it to
`p`, into the field of the option after it. -/
def Delimited (config : ConfigSnapshot) (names : List Text) (p q : Text) : Prop :=
  ∀ o ∈ names.zip names.tail, ∀ r ∈ bestRule config.paths p o.1,
    ∀ r' ∈ bestRule config.paths q o.1, ¬ RunsOn o.2 r r'

instance (config : ConfigSnapshot) (names : List Text) (p q : Text) :
    Decidable (Delimited config names p q) :=
  inferInstanceAs (Decidable (∀ o ∈ _, ∀ r ∈ _, ∀ r' ∈ _, ¬ _))

/-- The fields of a key, for names that are canonical. -/
def fields (config : ConfigSnapshot) (path : Text) (names : List Text) : Text :=
  names.flatMap fun name => name ++ text "=" ++ config.layer path name ++ text "\n"

@[simp] theorem fields_nil (config : ConfigSnapshot) (path : Text) : config.fields path [] = [] := rfl

@[simp] theorem fields_cons (config : ConfigSnapshot) (path name : Text) (names : List Text) :
    config.fields path (name :: names) =
      name ++ 61 :: (config.layer path name ++ 10 :: config.fields path names) := by
  have heq : text "=" = [61] := rfl
  have hnl : text "\n" = [10] := rfl
  simp [fields, heq, hnl]

/-- A layer that goes on with a separator where the other ends runs on into the next field. -/
theorem runsOn_of_layer_append {config : ConfigSnapshot} {p q name next z tail : Text}
    {names : List Text} (hq : q.head? = some 47) (hnext : (10 : UInt8) ∉ next)
    (hlayer : config.layer q name = config.layer p name ++ 10 :: z)
    (hrest : config.fields p (next :: names) = z ++ 10 :: tail) :
    ∃ r ∈ bestRule config.paths p name, ∃ r' ∈ bestRule config.paths q name,
      RunsOn next r r' := by
  have hz : ∃ w, z = next ++ 61 :: w := by
    rw [fields_cons] at hrest
    have hcons : next ++ 61 :: (config.layer p next ++ 10 :: config.fields p names) =
        (next ++ [61]) ++ (config.layer p next ++ 10 :: config.fields p names) := by simp
    rw [hcons] at hrest
    have hclean : (10 : UInt8) ∉ next ++ [61] := by
      simp only [List.mem_append, List.mem_singleton, not_or]
      exact ⟨hnext, by decide⟩
    obtain ⟨w, hw, -⟩ := eq_append_of_append_cons hclean hrest
    exact ⟨w, by simp [hw]⟩
  obtain ⟨w, rfl⟩ := hz
  have hleft := config.layer_cases p name
  have hright := config.layer_cases q name
  generalize config.layer p name = x at hleft hlayer
  rw [hlayer] at hright
  generalize hy : x ++ 10 :: (next ++ 61 :: w) = y at hright
  cases hright with
  | word _ hclean _ _ => exact (hclean (by rw [← hy]; simp)).elim
  | @rule r' hmem' hs' hbest' =>
      have hhead : r'.pathPrefix.head? = some 47 :=
        hs'.rooted (config.distinct.named _ hmem') hq
      cases hleft with
      | word _ _ hword _ =>
          obtain ⟨c, hc, hcx⟩ := hword
          rw [← hy, List.head?_append, hcx] at hhead
          exact (hc (Option.some.inj hhead)).elim
      | @rule r _ _ hbest =>
          refine ⟨r, hbest, r', hbest', ?_⟩
          refine List.isPrefixOf_iff_prefix.mpr ⟨w, ?_⟩
          have heq : text "=" = [61] := rfl
          have hnl : text "\n" = [10] := rfl
          rw [← hy]
          simp [heq, hnl]

/-- Where no rule runs on, equal keys have equal fields. -/
theorem layer_eq_of_fields_eq {config : ConfigSnapshot} {p q : Text} (hp : p.head? = some 47)
    (hq : q.head? = some 47) :
    ∀ {names : List Text}, (∀ name ∈ names, (10 : UInt8) ∉ name) →
      config.Delimited names p q → config.Delimited names q p →
      config.fields p names = config.fields q names →
      ∀ name ∈ names, config.layer p name = config.layer q name
  | [], _, _, _, _ => fun _ h => (List.not_mem_nil h).elim
  | name :: names, hclean, hpq, hqp, heq => by
      have hrun : ∀ {p q : Text} {z : Text}, q.head? = some 47 →
          config.Delimited (name :: names) p q →
          config.layer q name = config.layer p name ++ 10 :: z →
          config.fields p names ≠ z ++ 10 :: config.fields q names := by
        intro p q z hq hd hlayer hrest
        cases names with
        | nil => simp at hrest
        | cons next names =>
            obtain ⟨r, hr, r', hr', hruns⟩ :=
              runsOn_of_layer_append hq (hclean next (by simp)) hlayer hrest
            exact hd (name, next) (by simp) r hr r' hr' hruns
      rw [fields_cons, fields_cons] at heq
      have hcut := List.cons.inj (List.append_cancel_left heq)
      rcases append_cons_eq_append_cons hcut.2 with hlayer | ⟨z, hlayer, hrest⟩ | ⟨z, hlayer, hrest⟩
      · have htail : config.fields p names = config.fields q names := by
          have := hcut.2
          rw [hlayer] at this
          exact (List.cons.inj (List.append_cancel_left this)).2
        have hsub : ∀ {p q : Text}, config.Delimited (name :: names) p q →
            config.Delimited names p q := by
          intro p q h o ho
          refine h o ?_
          cases names with
          | nil => simp at ho
          | cons next names => exact List.mem_cons_of_mem _ ho
        have ih := layer_eq_of_fields_eq hp hq
          (fun n hn => hclean n (List.mem_cons_of_mem _ hn)) (hsub hpq) (hsub hqp) htail
        intro n hn
        rcases List.mem_cons.mp hn with rfl | hn
        · exact hlayer
        · exact ih n hn
      · exact (hrun hq hpq hlayer hrest).elim
      · exact (hrun hp hqp hlayer hrest).elim

/-! ## Separation -/

theorem canonicalVsiPath_rooted {path : Text} (h : path.head? = some 47) :
    canonicalVsiPath path = path := by
  obtain ⟨rest, rfl⟩ : ∃ rest, path = 47 :: rest := by
    cases path with
    | nil => cases h
    | cons c rest => exact ⟨rest, by rw [Option.some.inj h]⟩
  have hscheme : ∀ scheme : String, (text scheme).head?.all (· ≠ 47) = true → text scheme ≠ [] →
      (text scheme).isPrefixOf (47 :: rest) = false := by
    intro scheme hall hne
    obtain ⟨c, cs, hc⟩ := List.exists_cons_of_ne_nil hne
    rw [hc] at hall ⊢
    have hne' : c ≠ 47 := by simpa using hall
    simp [List.isPrefixOf, hne']
  rw [canonicalVsiPath, hscheme "s3://" (by decide) (by decide),
    hscheme "gs://" (by decide) (by decide), hscheme "az://" (by decide) (by decide),
    hscheme "abfs://" (by decide) (by decide), hscheme "hf://" (by decide) (by decide),
    hscheme "source://" (by decide) (by decide)]
  rfl

/-- One rule, one value. -/
theorem option_eq_of_layer_eq {config : ConfigSnapshot} {p q name : Text}
    (hp : p.head? = some 47) (hq : q.head? = some 47)
    (h : config.layer p (canonicalOptionName name) = config.layer q (canonicalOptionName name))
    (fallback : Text) : config.option p name fallback = config.option q name fallback := by
  have hbest := supply_eq_of_layer_eq hp hq h
  simp only [option, canonicalVsiPath_rooted hp, canonicalVsiPath_rooted hq, hbest]

end ConfigSnapshot

/-- The names a key is written with. -/
def CredentialsKind.keyNames (kind : CredentialsKind) : List Text :=
  kind.credentialOptions.map canonicalOptionName

theorem asciiUpper_newline {c : UInt8} (h : asciiUpper c = 10) : c = 10 := by
  unfold asciiUpper at h
  split at h
  · rename_i hlower
    have hc : c = 42 := by
      rw [UInt8.sub_eq_iff_eq_add] at h
      exact h
    subst hc
    exact absurd hlower (by decide)
  · exact h

/-- A canonical name has no newline where the name has none. -/
theorem canonicalOptionName_clean {name : Text} (h : (10 : UInt8) ∉ name) :
    (10 : UInt8) ∉ canonicalOptionName name := by
  have hupper : (10 : UInt8) ∉ uppercase name := by
    intro hmem
    obtain ⟨c, hc, heq⟩ := List.mem_map.mp hmem
    exact h (asciiUpper_newline heq ▸ hc)
  simp only [canonicalOptionName]
  split_ifs
  · exact not_mem_text (by decide)
  · exact not_mem_text (by decide)
  · exact not_mem_text (by decide)
  · exact not_mem_text (by decide)
  · exact not_mem_text (by decide)
  · exact not_mem_text (by decide)
  · exact not_mem_text (by decide)
  · exact hupper

theorem CredentialsKind.keyNames_clean (kind : CredentialsKind) :
    ∀ name ∈ kind.keyNames, (10 : UInt8) ∉ name := by
  have hraw : ∀ raw ∈ kind.credentialOptions, (10 : UInt8) ∉ raw := by
    cases kind <;>
      simp only [credentialOptions, List.map_cons, List.map_nil, List.forall_mem_cons] <;>
      and_intros <;> first | exact not_mem_text (by decide) | simp
  intro name hname
  obtain ⟨raw, hmem, rfl⟩ := List.mem_map.mp hname
  exact canonicalOptionName_clean (hraw raw hmem)

theorem CloudPath.rooted {kind : CredentialsKind} {path : Text} (h : CloudPath kind path) :
    path.head? = some 47 := by
  obtain ⟨uri, r, hresolve, hbackend, rfl⟩ := h
  have hcloud : r.backend.cloud = true := by
    rw [hbackend]
    cases kind <;> rfl
  obtain ⟨vsi, hvsi, huri⟩ := (Uri.resolve_cloudObject hresolve hcloud).canonical
  rw [huri, List.append_assoc, List.append_assoc, List.head?_append, hvsi]
  rfl

/-- The layers can be read back from a key. -/
theorem layer_eq_of_key_eq {config : ConfigSnapshot} {kind : CredentialsKind} {p q : Text}
    (hp : CloudPath kind p) (hq : CloudPath kind q)
    (hpq : config.Delimited kind.keyNames p q) (hqp : config.Delimited kind.keyNames q p)
    (hkey : nativeCredentialKey config kind p = nativeCredentialKey config kind q) :
    ∀ name ∈ kind.keyNames, config.layer p name = config.layer q name := by
  have hscope : config.fields p kind.keyNames = config.fields q kind.keyNames := by
    have h := List.append_cancel_left hkey
    simpa only [ConfigSnapshot.scopeKey, ConfigSnapshot.fields, CredentialsKind.keyNames,
      List.flatMap_map, ConfigSnapshot.canonicalVsiPath_rooted hp.rooted,
      ConfigSnapshot.canonicalVsiPath_rooted hq.rooted] using h
  exact ConfigSnapshot.layer_eq_of_fields_eq hp.rooted hq.rooted kind.keyNames_clean hpq hqp hscope

/-- The two paths are given different keys, or see the same credential options. -/
def Separates (config : ConfigSnapshot) (kind : CredentialsKind) (p q : Text) : Prop :=
  nativeCredentialKey config kind p = nativeCredentialKey config kind q →
    ∀ name ∈ kind.credentialOptions,
      (∀ fallback, config.option p name fallback = config.option q name fallback) ∧
        config.hasOption p name = config.hasOption q name

/-- Native credential keys separate scopes, where no rule that gives one path an option runs on
from the rule that gives it to the other. -/
theorem nativeCredentialKey_separates (config : ConfigSnapshot) (kind : CredentialsKind)
    {p q : Text} (hp : CloudPath kind p) (hq : CloudPath kind q)
    (hpq : config.Delimited kind.keyNames p q) (hqp : config.Delimited kind.keyNames q p) :
    Separates config kind p q := by
  intro hkey name hname
  have hoption := ConfigSnapshot.option_eq_of_layer_eq hp.rooted hq.rooted
    (layer_eq_of_key_eq hp hq hpq hqp hkey _ (List.mem_map_of_mem hname))
  exact ⟨hoption, by rw [ConfigSnapshot.hasOption, ConfigSnapshot.hasOption, hoption]⟩

/-- The configuration that a list of `set_path` calls makes, from an empty environment. -/
def scopedConfig (rules : List (String × String × String)) : Except Text ConfigSnapshot := do
  let builder ← rules.foldlM (fun builder (pre, name, value) =>
    builder.setPath (text pre) (text name) (some (text value))) (ConfigBuilder.new false fun _ => none)
  builder.freeze

/-- Two tenants, each with its own key. -/
theorem nativeCredentialKey_separates_tenants :
    Separates
      { paths := [⟨text "/vsis3/a/", OptionMap.empty.assign (text "AWS_ACCESS_KEY_ID") (text "A")⟩,
          ⟨text "/vsis3/b/", OptionMap.empty.assign (text "AWS_ACCESS_KEY_ID") (text "B")⟩]
        distinct := ⟨by decide, by decide⟩ } .aws (text "/vsis3/a/k") (text "/vsis3/b/k") :=
  nativeCredentialKey_separates _ .aws ⟨text "s3://a/k", _, rfl, rfl, rfl⟩
    ⟨text "s3://b/k", _, rfl, rfl, rfl⟩ (by decide +kernel) (by decide +kernel)

/-- Whether the keys are equal, and the two AWS keys at either path. -/
def sideBySide (config : ConfigSnapshot) (p q : Text) : Bool × List Text :=
  (nativeCredentialKey config .aws p == nativeCredentialKey config .aws q,
    [config.option p (text "AWS_ACCESS_KEY_ID"), config.option p (text "AWS_SECRET_ACCESS_KEY"),
      config.option q (text "AWS_ACCESS_KEY_ID"), config.option q (text "AWS_SECRET_ACCESS_KEY")])

/-- Rules whose prefixes have newlines in them: `/vsis3/` followed by the field of the secret key
reads like the two fields it imitates. -/
theorem imitating_prefixes :
    ∃ config, scopedConfig [("/vsis3/", "AWS_ACCESS_KEY_ID", "A"),
        ("/vsis3/\nAWS_SECRET_ACCESS_KEY=/vsis3/", "AWS_ACCESS_KEY_ID", "B"),
        ("/vsis3/\nAWS_SECRET_ACCESS_KEY=default", "AWS_SECRET_ACCESS_KEY", "S")] = .ok config ∧
      CloudPath .aws (text "/vsis3/\nAWS_SECRET_ACCESS_KEY=/vsis3/key") ∧
      CloudPath .aws (text "/vsis3/\nAWS_SECRET_ACCESS_KEY=default/key") ∧
      sideBySide config (text "/vsis3/\nAWS_SECRET_ACCESS_KEY=/vsis3/key")
        (text "/vsis3/\nAWS_SECRET_ACCESS_KEY=default/key") =
        (true, [text "B", [], text "A", text "S"]) := by
  generalize hrules : [("/vsis3/", "AWS_ACCESS_KEY_ID", "A"),
        ("/vsis3/\nAWS_SECRET_ACCESS_KEY=/vsis3/", "AWS_ACCESS_KEY_ID", "B"),
        ("/vsis3/\nAWS_SECRET_ACCESS_KEY=default", "AWS_SECRET_ACCESS_KEY", "S")] = rules
  generalize hp : text "/vsis3/\nAWS_SECRET_ACCESS_KEY=/vsis3/key" = p
  generalize hq : text "/vsis3/\nAWS_SECRET_ACCESS_KEY=default/key" = q
  have hfacts : (scopedConfig rules).map (sideBySide · p q) =
      .ok (true, [text "B", [], text "A", text "S"]) := by
    rw [← hrules, ← hp, ← hq]
    decide +kernel
  cases hconfig : scopedConfig rules with
  | error wrong =>
      rw [hconfig] at hfacts
      cases hfacts
  | ok config =>
      rw [hconfig] at hfacts
      refine ⟨config, rfl, ?_, ?_, Except.ok.inj hfacts⟩
      · rw [← hp]
        exact ⟨text "s3://\nAWS_SECRET_ACCESS_KEY=/vsis3/key", _, rfl, rfl, rfl⟩
      · rw [← hq]
        exact ⟨text "s3://\nAWS_SECRET_ACCESS_KEY=default/key", _, rfl, rfl, rfl⟩

/-- One key for both paths, and an access key of its own for each. -/
theorem nativeCredentialKey_collides :
    ∃ config, scopedConfig [("/vsis3/", "AWS_ACCESS_KEY_ID", "A"),
        ("/vsis3/\nAWS_SECRET_ACCESS_KEY=/vsis3/", "AWS_ACCESS_KEY_ID", "B"),
        ("/vsis3/\nAWS_SECRET_ACCESS_KEY=default", "AWS_SECRET_ACCESS_KEY", "S")] = .ok config ∧
      CloudPath .aws (text "/vsis3/\nAWS_SECRET_ACCESS_KEY=/vsis3/key") ∧
      CloudPath .aws (text "/vsis3/\nAWS_SECRET_ACCESS_KEY=default/key") ∧
      ¬ Separates config .aws (text "/vsis3/\nAWS_SECRET_ACCESS_KEY=/vsis3/key")
        (text "/vsis3/\nAWS_SECRET_ACCESS_KEY=default/key") := by
  obtain ⟨config, hconfig, hp, hq, hseen⟩ := imitating_prefixes
  refine ⟨config, hconfig, hp, hq, fun hseparates => ?_⟩
  generalize text "/vsis3/\nAWS_SECRET_ACCESS_KEY=/vsis3/key" = p at *
  generalize text "/vsis3/\nAWS_SECRET_ACCESS_KEY=default/key" = q at *
  simp only [sideBySide, Prod.mk.injEq, List.cons.injEq] at hseen
  obtain ⟨hkey, hleft, -, hright, -⟩ := hseen
  have hsame := (hseparates (beq_iff_eq.mp hkey) (text "AWS_ACCESS_KEY_ID") (by decide)).1 []
  rw [hleft, hright] at hsame
  exact absurd hsame (by decide)

end Karu
