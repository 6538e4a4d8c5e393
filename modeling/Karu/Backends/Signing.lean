/-
# `Karu.Backends.Signing` — what is signed is what is sent

`prepare_s3_get` signs a request after Signature Version 4.  Who receives it
makes the canonical request again from the URL, the headers and the range that
arrive, and the key from the secret: the request is only answered if both come
to the same.  `Signed` says that they do.

The key is kept in a `thread_local` of `signing_key` and used again for the same
secret, date and region.  A thread makes one call after another, and each may
meet failures of OpenSSL: `history` is what the calls leave in the thread.

| source (`src/backends/s3_signing.cpp`) | here                         |
|----------------------------------------|------------------------------|
| `SigningKeyCache`                      | `SigningKeyCache`            |
| `signing_key`, with its cache          | `SigningKeyCache.signingKey` |
| `prepare_s3_get`, on a thread          | `S3Call.run`                 |

SHA-256 is any function `hash` to 32 octets; a digest is its value, or OpenSSL
has failed.
-/
import Mathlib.Data.List.Nodup
import Karu.Backends.Endpoint
import Karu.Backends.SentHeaders

namespace Karu

open Base

namespace Backends

/-! ## HMAC -/

/-- The key of RFC 2104, filled up with zeros to a block of 64 octets; a longer one is hashed. -/
def blockKey (hash : Text → Text) (key : Text) : Text :=
  let short := if 64 < key.length then hash key else key
  short ++ List.replicate (64 - short.length) 0

/-- `H(K XOR opad, H(K XOR ipad, message))` of RFC 2104. -/
def hmacOf (hash : Text → Text) (key message : Text) : Text :=
  let ipad : Text := List.replicate 64 0x36
  let opad : Text := List.replicate 64 0x5c
  hash (List.zipWith (· ^^^ ·) (blockKey hash key) opad ++
    hash (List.zipWith (· ^^^ ·) (blockKey hash key) ipad ++ message))

/-- Whatever OpenSSL digests is the hash. -/
def Crypto.Computes (crypto : Crypto) (hash : Text → Text) : Prop :=
  ∀ value digest, crypto.digest value = some digest → digest = hash value

theorem zipWith_replicate (x : UInt8) :
    ∀ (n : Nat) (block : Text), block.length = n →
      List.zipWith (· ^^^ ·) block (List.replicate n x) = block.map (· ^^^ x) := by
  intro n
  induction n with
  | zero =>
      intro block h
      rw [List.length_eq_zero_iff.mp h]
      rfl
  | succ n ih =>
      intro block h
      cases block with
      | nil => cases h
      | cons c block =>
          rw [List.replicate_succ, List.zipWith_cons_cons, List.map_cons,
            ih block (Nat.succ.inj h)]

section Hmac

variable {crypto : Crypto} {hash : Text → Text}

theorem blockKey_length (hhash : ∀ value, (hash value).length = 32) (key : Text) :
    (blockKey hash key).length = 64 := by
  have hshort : (if 64 < key.length then hash key else key).length ≤ 64 := by
    split
    · rw [hhash]
      omega
    · omega
  simp only [blockKey, List.length_append, List.length_replicate]
  omega

theorem sha256_eq (hcrypto : crypto.Computes hash) {value digest : Text}
    (h : crypto.sha256 value = .ok digest) : digest = hash value := by
  unfold Crypto.sha256 at h
  split at h
  · rename_i result hresult
    cases h
    exact hcrypto _ _ hresult
  · cases h

/-- What `hmac_sha256` returns is the HMAC, for keys of every length. -/
theorem hmacSha256_eq (hhash : ∀ value, (hash value).length = 32) (hcrypto : crypto.Computes hash)
    {key value digest : Text} (h : crypto.hmacSha256 key value = .ok digest) :
    digest = hmacOf hash key value := by
  have hpad := fun x => zipWith_replicate x 64 _ (blockKey_length hhash key)
  have houter : ∀ {short : Text}, short = (if 64 < key.length then hash key else key) →
      (crypto.digest ((short ++ List.replicate (64 - short.length) 0).map (· ^^^ 0x36) ++ value)).bind
        (fun inner => crypto.digest
          ((short ++ List.replicate (64 - short.length) 0).map (· ^^^ 0x5c) ++ inner)) =
        some digest → digest = hmacOf hash key value := by
    intro short hshort hresult
    have hblock : short ++ List.replicate (64 - short.length) 0 = blockKey hash key := by
      rw [hshort, blockKey]
    obtain ⟨inner, hinner, hresult⟩ := Option.bind_eq_some_iff.mp hresult
    rw [hblock] at hinner hresult
    rw [hcrypto _ _ hresult, hcrypto _ _ hinner, hmacOf, hpad, hpad]
  unfold Crypto.hmacSha256 at h
  simp only at h
  split at h
  · rename_i result hresult
    cases h
    split at hresult
    · rename_i hlong
      obtain ⟨short, hshort, hresult⟩ := Option.bind_eq_some_iff.mp hresult
      exact houter (by rw [if_pos hlong, hcrypto _ _ hshort]) hresult
    · rename_i hshort
      exact houter (by rw [if_neg hshort]) hresult
  · cases h

/-- Where OpenSSL does not fail, it returns one. -/
theorem hmacSha256_total (hhash : ∀ value, (hash value).length = 32)
    (hcrypto : ∀ value, crypto.digest value = some (hash value)) (key value : Text) :
    crypto.hmacSha256 key value = .ok (hmacOf hash key value) := by
  have hcomputes : crypto.Computes hash := by
    intro value digest h
    rw [hcrypto] at h
    exact (Option.some.inj h).symm
  cases h : crypto.hmacSha256 key value with
  | ok digest => rw [hmacSha256_eq hhash hcomputes h]
  | error e =>
      unfold Crypto.hmacSha256 at h
      simp only [hcrypto] at h
      split at h
      · cases h
      · rename_i hnone
        split at hnone <;> cases hnone

end Hmac

/-! ## The key a thread keeps -/

/-- `SigningKeyCache`. -/
structure SigningKeyCache where
  secret : Text := []
  date : Text := []
  region : Text := []
  key : Text := []
  valid : Bool := false
deriving DecidableEq, Repr

/-- `signing_key`: the key that is kept, or a new one, which is kept instead. -/
def SigningKeyCache.signingKey (cache : SigningKeyCache) (crypto : Crypto)
    (secret date region : Text) : Except RequestError Text × SigningKeyCache :=
  if cache.valid && cache.secret == secret && cache.date == date && cache.region == region then
    (.ok cache.key, cache)
  else
    match Backends.signingKey crypto secret date region with
    | .error e => (.error e, cache)
    | .ok key => (.ok key, { secret, date, region, key, valid := true })

/-- The key of Signature Version 4 for S3. -/
def derivedKey (hash : Text → Text) (secret date region : Text) : Text :=
  hmacOf hash (hmacOf hash (hmacOf hash (hmacOf hash (text "AWS4" ++ secret) date) region)
    (text "s3")) (text "aws4_request")

/-- The key that is kept is that of what it is kept under. -/
def SigningKeyCache.Sound (hash : Text → Text) (cache : SigningKeyCache) : Prop :=
  cache.valid = true → cache.key = derivedKey hash cache.secret cache.date cache.region

section Key

variable {crypto : Crypto} {hash : Text → Text}

theorem signingKey_eq (hhash : ∀ value, (hash value).length = 32) (hcrypto : crypto.Computes hash)
    {secret date region key : Text} (h : signingKey crypto secret date region = .ok key) :
    key = derivedKey hash secret date region := by
  obtain ⟨dateKey, hdate, h⟩ := ok_of_bind h
  obtain ⟨regionKey, hregion, h⟩ := ok_of_bind h
  obtain ⟨serviceKey, hservice, h⟩ := ok_of_bind h
  rw [hmacSha256_eq hhash hcrypto h, hmacSha256_eq hhash hcrypto hservice,
    hmacSha256_eq hhash hcrypto hregion, hmacSha256_eq hhash hcrypto hdate, derivedKey]

/-- A call of `signing_key`: the key is right, and so is what is kept afterwards. -/
theorem SigningKeyCache.Sound.signingKey (hhash : ∀ value, (hash value).length = 32)
    (hcrypto : crypto.Computes hash) {cache : SigningKeyCache} (hcache : cache.Sound hash)
    (secret date region : Text) :
    (∀ key, (cache.signingKey crypto secret date region).1 = .ok key →
      key = derivedKey hash secret date region) ∧
    (cache.signingKey crypto secret date region).2.Sound hash := by
  unfold SigningKeyCache.signingKey
  split
  · rename_i hhit
    simp only [Bool.and_eq_true, beq_iff_eq] at hhit
    obtain ⟨⟨⟨hvalid, rfl⟩, rfl⟩, rfl⟩ := hhit
    refine ⟨fun key hkey => ?_, hcache⟩
    cases hkey
    exact hcache hvalid
  · cases hfresh : Backends.signingKey crypto secret date region with
    | error e => exact ⟨fun key hkey => (by cases hkey), hcache⟩
    | ok key =>
        have hkey := signingKey_eq hhash hcrypto hfresh
        refine ⟨fun key' hkey' => ?_, fun _ => hkey⟩
        cases hkey'
        exact hkey

end Key

/-! ## A thread that prepares requests -/

/-- A call of `prepare_s3_get`, and how OpenSSL behaves during it. -/
structure S3Call where
  crypto : Crypto
  target : S3GetRequest
  credentials : Option ProviderCredentials
  range : Text
  ifMatch : Text := []
  signingTime : Int

namespace S3Call

variable (call : S3Call)

/-- `timestamp`. -/
def timestamp : Text := call.crypto.timestamp call.signingTime

/-- `date`. -/
def date : Text := call.timestamp.take 8

/-- `scope`. -/
def scope : Text := call.date ++ text "/" ++ call.target.region ++ text "/s3/aws4_request"

/-- `string_to_sign`, for the hash of a canonical request. -/
def stringToSign (requestHash : Text) : Text :=
  text "AWS4-HMAC-SHA256\n" ++ call.timestamp ++ text "\n" ++ call.scope ++ text "\n" ++
    hexDigits requestHash

/-- The value of `Authorization`. -/
def authorization (credentials : ProviderCredentials) (headers : List Header) (signature : Text) :
    Text :=
  text "AWS4-HMAC-SHA256 Credential=" ++ credentials.accessKeyId ++ text "/" ++ call.scope ++
    text ", SignedHeaders=" ++ signedNames headers ++ text ", Signature=" ++ hexDigits signature

/-- `prepare_s3_get` once the URL is known and there are credentials, on a thread that keeps a
key. -/
def sign (credentials : ProviderCredentials) (url : Text) (cache : SigningKeyCache) :
    Except RequestError PreparedRequest × SigningKeyCache :=
  match splitUrl url with
  | .error e => (.error e, cache)
  | .ok parts =>
      let headers := signedHeaders call.target credentials (signedHost parts) call.range call.ifMatch
        call.timestamp
      match call.crypto.sha256 (canonicalRequest parts headers) with
      | .error e => (.error e, cache)
      | .ok requestHash =>
          let (key, cache) := cache.signingKey call.crypto credentials.secretAccessKey call.date
            call.target.region
          (do
            let key ← key
            let signature ← call.crypto.hmacSha256 key (call.stringToSign requestHash)
            return {
              url
              headers := headers.filter (fun h => h.1 ≠ text "host" ∧ h.1 ≠ text "range") ++
                [(text "Authorization", call.authorization credentials headers signature)]
              followRedirects := false }, cache)

/-- `prepare_s3_get`. -/
def run (cache : SigningKeyCache) : Except RequestError PreparedRequest × SigningKeyCache :=
  match splitUrl call.target.endpoint with
  | .error e => (.error e, cache)
  | .ok endpoint =>
      if !endpoint.query.isEmpty then
        (.error ⟨.errConfig, call.target.endpointOption ++ text " cannot contain a query"⟩, cache)
      else
        let url :=
          if call.target.virtualHosting then
            virtualHostUrl endpoint call.target.bucket call.target.key
          else appendObject call.target.endpoint call.target.bucket call.target.key
        match call.credentials with
        | none =>
            (.ok { url
                   headers := if call.ifMatch.isEmpty then []
                    else [(text "If-Match", call.ifMatch)] }, cache)
        | some credentials => call.sign credentials url cache

end S3Call

/-- What a thread keeps after its calls. -/
def history (calls : List S3Call) : SigningKeyCache :=
  calls.foldl (fun cache call => (call.run cache).2) {}

/-- On a thread that keeps no key, this is `prepareS3Get`. -/
theorem S3Call.run_fresh (call : S3Call) :
    (call.run {}).1 =
      prepareS3Get call.crypto call.target call.credentials call.range call.ifMatch
        call.signingTime := by
  unfold S3Call.run prepareS3Get
  cases splitUrl call.target.endpoint with
  | error e => rfl
  | ok endpoint =>
      simp only [bind, Except.bind]
      split
      · rfl
      · cases call.credentials with
        | none => rfl
        | some credentials =>
            simp only [S3Call.sign, signS3Get, bind, Except.bind]
            generalize splitUrl _ = parts
            cases parts with
            | error e => rfl
            | ok parts =>
                have hkey : (SigningKeyCache.signingKey {} call.crypto
                    credentials.secretAccessKey call.date call.target.region).1 =
                    signingKey call.crypto credentials.secretAccessKey call.date
                      call.target.region := by
                  unfold SigningKeyCache.signingKey
                  cases signingKey call.crypto credentials.secretAccessKey call.date
                    call.target.region <;> rfl
                simp only [hkey, show call.crypto.timestamp call.signingTime = call.timestamp from rfl,
                  show call.timestamp.take 8 = call.date from rfl]
                cases call.crypto.sha256 _ with
                | error e => rfl
                | ok requestHash =>
                    cases signingKey call.crypto credentials.secretAccessKey call.date
                        call.target.region with
                    | error e => rfl
                    | ok key => rfl

/-! ## The canonical request -/

/-- The port of a scheme, with its colon. -/
def defaultPort (scheme : Text) : Text := if scheme = text "https" then text ":443" else text ":80"

/-- The authority, without the port if it is the scheme's own. -/
def HostOf (url : UrlParts) (host : Text) : Prop :=
  url.authority = host ++ defaultPort url.scheme ∨
    host = url.authority ∧ ¬ defaultPort url.scheme <:+ url.authority

/-- The list behind `SignedHeaders`. -/
def nameList (signed : List Header) : Text := (text ";").intercalate (signed.map (·.1))

/-- The canonical request for a URL and the headers that are signed. -/
def canonicalOf (url : UrlParts) (signed : List Header) : Text :=
  text "GET\n" ++ (if url.path.isEmpty then text "/" else url.path) ++ text "\n" ++ url.query ++
    text "\n" ++ signed.flatMap (fun h => h.1 ++ text ":" ++ trim h.2 ++ text "\n") ++ text "\n" ++
    nameList signed ++ text "\n" ++ text "UNSIGNED-PAYLOAD"

/-- The signature, from nothing but the request and the credentials. -/
def signatureOf (hash : Text → Text) (call : S3Call) (credentials : ProviderCredentials)
    (url : UrlParts) (signed : List Header) : Text :=
  hmacOf hash (derivedKey hash credentials.secretAccessKey call.date call.target.region)
    (call.stringToSign (hash (canonicalOf url signed)))

/-- The request is signed as it is sent. -/
structure Signed (hash : Text → Text) (call : S3Call) (credentials : ProviderCredentials)
    (request : PreparedRequest) (url : UrlParts) (signed : List Header) : Prop where
  url_eq : cut request.url = some url
  sorted : (signed.map (·.1)).Pairwise (· < ·)
  exactly : ∃ host, HostOf url host ∧ ∀ header, header ∈ signed ↔
    header = (text "host", host) ∨ header = (text "range", call.range) ∨
      header ∈ request.headers ∧ header.1 ≠ text "Authorization"
  authorization : ∀ value, (text "Authorization", value) ∈ request.headers ↔
    value = text "AWS4-HMAC-SHA256 Credential=" ++ credentials.accessKeyId ++ text "/" ++
      call.scope ++ text ", SignedHeaders=" ++ nameList signed ++ text ", Signature=" ++
      hexDigits (signatureOf hash call credentials url signed)

theorem signedHost_hostOf (url : UrlParts) : HostOf url (signedHost url) := by
  have hsigned : signedHost url =
      if (defaultPort url.scheme).isSuffixOf url.authority then
        url.authority.take (url.authority.length - (defaultPort url.scheme).length)
      else url.authority := rfl
  rw [HostOf, hsigned]
  generalize defaultPort url.scheme = port
  split
  · rename_i hport
    obtain ⟨host, hhost⟩ := List.isSuffixOf_iff_suffix.mp hport
    refine Or.inl ?_
    rw [← hhost, List.length_append, Nat.add_sub_cancel_right, List.take_left]
  · rename_i hport
    exact Or.inr ⟨rfl, fun hsuffix => hport (List.isSuffixOf_iff_suffix.mpr hsuffix)⟩

/-- `split_url` cuts a URL where its receiver does. -/
theorem splitUrl_cut {url : Text} {parts : UrlParts} (h : splitUrl url = .ok parts) :
    ∃ path, cut url = some { parts with path := path } ∧
      parts.path = if path.isEmpty then text "/" else path := by
  obtain ⟨scheme, behind, haccepted⟩ := splitUrl_accepted h
  have hdelimits : ∀ {c : UInt8}, c = 47 ∨ c = 63 → delimits c = true := by
    rintro c (rfl | rfl) <;> rfl
  have hsplit := haccepted.split
  unfold splitPath at hsplit
  split at hsplit
  · rename_i hnone
    obtain ⟨hpath, hquery⟩ := Prod.mk.inj hsplit
    refine ⟨behind, ?_, hpath.symm⟩
    have hcut : cut (scheme ++ (text "://" ++ (parts.authority ++ (behind ++ [])))) = _ :=
      cut_spelled haccepted.colon.1 haccepted.authority_clean (fun c hc => ?_) (fun c hc => ?_)
        (fun c hc => by cases hc)
    · rw [List.append_nil, ← haccepted.spelled, haccepted.scheme_eq] at hcut
      rw [hcut, ← hquery]
      rfl
    · refine endsPath_eq_false.mpr ⟨fun heq => find_none hnone (heq ▸ hc), fun heq => ?_⟩
      exact haccepted.behind_clean (heq ▸ hc)
    · rw [List.append_nil] at hc
      exact hdelimits (haccepted.behind_head c hc)
  · rename_i query hsome
    obtain ⟨hpath, hquery⟩ := Prod.mk.inj hsplit
    obtain ⟨hsplit, hbefore⟩ := find_split hsome
    refine ⟨behind.take query, ?_, hpath.symm⟩
    have hcut : cut (scheme ++ (text "://" ++ (parts.authority ++
        (behind.take query ++ 63 :: behind.drop (query + 1))))) = _ :=
      cut_spelled haccepted.colon.1 haccepted.authority_clean (fun c hc => ?_) (fun c hc => ?_)
        (fun c hc => ?_)
    · rw [← hsplit, ← haccepted.spelled, haccepted.scheme_eq] at hcut
      rw [hcut, ← hquery]
      simp only [List.head?_cons, if_true, List.tail_cons]
      rw [List.takeWhile_eq_self_iff.mpr]
      intro c hc
      have : c ≠ 35 := fun heq =>
        haccepted.behind_clean (List.mem_of_mem_drop (heq ▸ hc))
      simpa using this
    · refine endsPath_eq_false.mpr ⟨fun heq => hbefore (heq ▸ hc), fun heq => ?_⟩
      exact haccepted.behind_clean (List.mem_of_mem_take (heq ▸ hc))
    · rw [← hsplit] at hc
      exact hdelimits (haccepted.behind_head c hc)
    · cases hc
      rfl

/-! ## What is signed -/

/-- The names of the headers that `prepare_s3_get` signs. -/
def namesOfSource : List Text :=
  [text "host", text "range", text "x-amz-content-sha256", text "x-amz-date", text "if-match",
    text "x-amz-security-token", text "x-amz-request-payer"]

theorem namesOfSource_lower :
    ∀ name ∈ namesOfSource, lower name = name ∧ name ≠ text "Authorization" := by
  decide +kernel

theorem namesOfSource_nodup : namesOfSource.Nodup := by decide +kernel

section Headers

variable (target : S3GetRequest) (credentials : ProviderCredentials)
  (host range ifMatch timestamp : Text)

/-- The names are those of the source, which has them in small letters. -/
theorem signedHeaders_lower :
    ∀ header ∈ signedHeaders target credentials host range ifMatch timestamp,
      lower header.1 = header.1 ∧ header.1 ≠ text "Authorization" := by
  intro header hmem
  obtain ⟨chosen, hperm, hsub⟩ := signedHeaders_perm target credentials host range ifMatch timestamp
  exact namesOfSource_lower _
    (List.mem_map_of_mem (f := (·.1)) (hsub.subset (hperm.mem_iff.mp hmem)))

theorem signedHeaders_names_nodup :
    ((signedHeaders target credentials host range ifMatch timestamp).map (·.1)).Nodup := by
  obtain ⟨chosen, hperm, hsub⟩ := signedHeaders_perm target credentials host range ifMatch timestamp
  refine (hperm.map _).nodup_iff.mpr (List.Nodup.sublist (hsub.map _) ?_)
  exact namesOfSource_nodup

/-- `std::ranges::sort` leaves no two names out of order, and there are no two equal ones. -/
theorem signedHeaders_sorted :
    ((signedHeaders target credentials host range ifMatch timestamp).map (·.1)).Pairwise
      (· < ·) := by
  have hle : ((signedHeaders target credentials host range ifMatch timestamp).map (·.1)).Pairwise
      (· ≤ ·) := by
    rw [List.pairwise_map]
    refine (List.pairwise_mergeSort ?_ ?_ _).imp fun h => of_decide_eq_true h
    · intro a b c hab hbc
      exact decide_eq_true (List.le_trans (of_decide_eq_true hab) (of_decide_eq_true hbc))
    · intro a b
      rw [Bool.or_eq_true, decide_eq_true_eq, decide_eq_true_eq]
      exact List.le_total a.1 b.1
  refine hle.imp₂ ?_ (signedHeaders_names_nodup target credentials host range ifMatch timestamp)
  intro a b hle hne
  by_contra hlt
  exact hne (List.le_antisymm hle (List.not_lt.mp hlt))

theorem host_mem_signedHeaders :
    (text "host", host) ∈ signedHeaders target credentials host range ifMatch timestamp :=
  (List.mergeSort_perm _ _).mem_iff.mpr (by simp)

theorem range_mem_signedHeaders :
    (text "range", range) ∈ signedHeaders target credentials host range ifMatch timestamp :=
  (List.mergeSort_perm _ _).mem_iff.mpr (by simp)

/-- Only one header has the name of the host, and only one that of the range. -/
theorem signedHeaders_implied :
    ∀ header ∈ signedHeaders target credentials host range ifMatch timestamp,
      (header.1 = text "host" → header = (text "host", host)) ∧
      (header.1 = text "range" → header = (text "range", range)) := by
  intro header hmem
  have hinj := List.inj_on_of_nodup_map
    (signedHeaders_names_nodup target credentials host range ifMatch timestamp)
  exact ⟨fun hname => hinj hmem (host_mem_signedHeaders ..) hname,
    fun hname => hinj hmem (range_mem_signedHeaders ..) hname⟩

/-- What is signed is what is sent, the host and the range. -/
theorem signedHeaders_sent (authorization : Text) (header : Header) :
    header ∈ signedHeaders target credentials host range ifMatch timestamp ↔
      header = (text "host", host) ∨ header = (text "range", range) ∨
      header ∈ (signedHeaders target credentials host range ifMatch timestamp).filter
        (fun h => h.1 ≠ text "host" ∧ h.1 ≠ text "range") ++
        [(text "Authorization", authorization)] ∧ header.1 ≠ text "Authorization" := by
  constructor
  · intro hmem
    obtain ⟨hhost, hrange⟩ := signedHeaders_implied _ _ _ _ _ _ header hmem
    by_cases hname : header.1 = text "host"
    · exact Or.inl (hhost hname)
    · by_cases hname' : header.1 = text "range"
      · exact Or.inr (Or.inl (hrange hname'))
      · refine Or.inr (Or.inr ⟨List.mem_append_left _ (List.mem_filter.mpr ⟨hmem, ?_⟩),
          (signedHeaders_lower _ _ _ _ _ _ header hmem).2⟩)
        exact decide_eq_true ⟨hname, hname'⟩
  · rintro (rfl | rfl | ⟨hsent, hname⟩)
    · exact host_mem_signedHeaders ..
    · exact range_mem_signedHeaders ..
    · rcases List.mem_append.mp hsent with hmem | hmem
      · exact (List.mem_filter.mp hmem).1
      · rw [List.mem_singleton.mp hmem] at hname
        exact absurd rfl hname

end Headers

/-- One header of the request is `Authorization`. -/
theorem mem_sent_authorization {headers : List Header} {kept : Header → Bool}
    (h : ∀ header ∈ headers, header.1 ≠ text "Authorization") (authorization value : Text) :
    (text "Authorization", value) ∈ headers.filter kept ++
      [(text "Authorization", authorization)] ↔ value = authorization := by
  constructor
  · intro hsent
    rcases List.mem_append.mp hsent with hmem | hmem
    · exact absurd rfl (h _ (List.mem_filter.mp hmem).1)
    · exact (Prod.mk.inj (List.mem_singleton.mp hmem)).2
  · rintro rfl
    exact List.mem_append_right _ (List.mem_singleton.mpr rfl)

theorem signedNames_eq {headers : List Header} (h : ∀ header ∈ headers, lower header.1 = header.1) :
    signedNames headers = nameList headers := by
  rw [signedNames, nameList, List.map_congr_left h]

theorem canonicalRequest_eq {parts : UrlParts} {path : Text} {headers : List Header}
    (hpath : parts.path = if path.isEmpty then text "/" else path)
    (h : ∀ header ∈ headers, lower header.1 = header.1) :
    canonicalRequest parts headers = canonicalOf { parts with path := path } headers := by
  have hlines : headers.flatMap (fun h => lower h.1 ++ text ":" ++ trim h.2 ++ text "\n") =
      headers.flatMap (fun h => h.1 ++ text ":" ++ trim h.2 ++ text "\n") := by
    refine List.flatMap_congr fun header hmem => ?_
    rw [h header hmem]
  rw [canonicalRequest, canonicalOf, signedNames_eq h, hlines, hpath]

section Run

variable {hash : Text → Text} (hhash : ∀ value, (hash value).length = 32)
include hhash

/-- A call leaves a sound cache sound. -/
theorem S3Call.run_sound {call : S3Call} (hcrypto : call.crypto.Computes hash)
    {cache : SigningKeyCache} (hcache : cache.Sound hash) : (call.run cache).2.Sound hash := by
  unfold S3Call.run
  split
  · exact hcache
  · split
    · exact hcache
    · simp only
      split
      · exact hcache
      · unfold S3Call.sign
        split
        · exact hcache
        · simp only
          split
          · exact hcache
          · exact (hcache.signingKey hhash hcrypto _ _ _).2

/-- Whatever a thread has done before, the key it keeps is right. -/
theorem history_sound {calls : List S3Call} (hcalls : ∀ call ∈ calls, call.crypto.Computes hash) :
    (history calls).Sound hash := by
  have hrun : ∀ (calls : List S3Call) (cache : SigningKeyCache),
      (∀ call ∈ calls, call.crypto.Computes hash) → cache.Sound hash →
      (calls.foldl (fun cache call => (call.run cache).2) cache).Sound hash := by
    intro calls
    induction calls with
    | nil =>
        intro cache _ hcache
        exact hcache
    | cons call calls ih =>
        intro cache hcalls hcache
        exact ih _ (fun later hlater => hcalls later (List.mem_cons_of_mem _ hlater))
          (S3Call.run_sound hhash (hcalls call List.mem_cons_self) hcache)
  exact hrun calls {} hcalls (fun hvalid => by cases hvalid)

/-- What `prepare_s3_get` returns with credentials. -/
theorem S3Call.sign_signed {call : S3Call} (hcrypto : call.crypto.Computes hash)
    {cache : SigningKeyCache} (hcache : cache.Sound hash) {credentials : ProviderCredentials}
    {url : Text} {request : PreparedRequest}
    (h : (call.sign credentials url cache).1 = .ok request) :
    ∃ parts signed, Signed hash call credentials request parts signed := by
  unfold S3Call.sign at h
  split at h
  · cases h
  · rename_i parts hparts
    obtain ⟨path, hcut, hpath⟩ := splitUrl_cut hparts
    simp only at h
    split at h
    · cases h
    · rename_i requestHash hrequest
      obtain ⟨key, hkey, h⟩ := ok_of_bind h
      obtain ⟨signature, hsignature, h⟩ := ok_of_bind h
      cases h
      refine ⟨_, _, hcut, signedHeaders_sorted .., ⟨signedHost parts, signedHost_hostOf parts,
        signedHeaders_sent _ _ _ _ _ _ _⟩, fun value => ?_⟩
      rw [mem_sent_authorization (fun header hmem => (signedHeaders_lower _ _ _ _ _ _ header hmem).2),
        S3Call.authorization, signedNames_eq fun header hmem =>
          (signedHeaders_lower _ _ _ _ _ _ header hmem).1,
        hmacSha256_eq hhash hcrypto hsignature, (hcache.signingKey hhash hcrypto _ _ _).1 key hkey,
        sha256_eq hcrypto hrequest, canonicalRequest_eq hpath fun header hmem =>
          (signedHeaders_lower _ _ _ _ _ _ header hmem).1, signatureOf]

theorem S3Call.run_signed {call : S3Call} (hcrypto : call.crypto.Computes hash)
    {cache : SigningKeyCache} (hcache : cache.Sound hash) {credentials : ProviderCredentials}
    (hcredentials : call.credentials = some credentials) {request : PreparedRequest}
    (h : (call.run cache).1 = .ok request) :
    ∃ parts signed, Signed hash call credentials request parts signed := by
  unfold S3Call.run at h
  split at h
  · cases h
  · split at h
    · cases h
    · simp only [hcredentials] at h
      exact S3Call.sign_signed hhash hcrypto hcache h

end Run

/-- Whatever calls a thread has made, with whichever secrets, dates and regions and failures of
OpenSSL: what `prepare_s3_get` returns with credentials is signed as it is sent, under a key that
could have been derived afresh; and `hmac_sha256` is the HMAC of RFC 2104. -/
theorem prepareS3Get_signed (hash : Text → Text) (hhash : ∀ value, (hash value).length = 32)
    (calls : List S3Call) (call : S3Call)
    (hcrypto : ∀ made ∈ call :: calls, made.crypto.Computes hash) :
    (∀ credentials request, call.credentials = some credentials →
      (call.run (history calls)).1 = .ok request →
      ∃ url signed, Signed hash call credentials request url signed) ∧
    (∀ key value digest, call.crypto.hmacSha256 key value = .ok digest →
      digest = hmacOf hash key value) ∧
    ((∀ value, call.crypto.digest value = some (hash value)) → ∀ key value,
      call.crypto.hmacSha256 key value = .ok (hmacOf hash key value)) := by
  have hcall : call.crypto.Computes hash := hcrypto call List.mem_cons_self
  have hhistory : (history calls).Sound hash :=
    history_sound hhash fun made hmade => hcrypto made (List.mem_cons_of_mem _ hmade)
  refine ⟨fun credentials request hcredentials h => ?_, fun key value digest h => ?_, fun h => ?_⟩
  · exact S3Call.run_signed hhash hcall hhistory hcredentials h
  · exact hmacSha256_eq hhash hcall h
  · exact hmacSha256_total hhash h

/-- A hash of thirty-two octets, the last two a checksum of the text. -/
def checksum (value : Text) : Text :=
  let sum := value.foldl (fun sum c => (263 * sum + c.toNat) % 65521) 1
  List.replicate 30 7 ++ [UInt8.ofNat (sum / 256), UInt8.ofNat sum]

theorem checksum_length (value : Text) : (checksum value).length = 32 := rfl

/-- OpenSSL with that hash. -/
def checksumCrypto : Crypto where
  digest value := some (checksum value)
  hmacSha1 _ _ := none
  encodeBlock _ := []
  decodeBlock _ := none
  timestamp _ := text "20240102T030405Z"
  rfc7231Date _ := []

/-- A call for an object at a port of its own, with a session token. -/
def tokenCall (secret : String) (crypto : Crypto) : S3Call where
  crypto
  target := { endpoint := text "http://a:9000", endpointOption := [], bucket := text "b"
              key := text "k y", region := text "us-east-1" }
  credentials := some { accessKeyId := text "id", secretAccessKey := text secret
                        sessionToken := text "token" }
  range := text "bytes=0-9"
  ifMatch := text "\"e\""
  signingTime := 0

/-- It hashes the canonical request, which begins with a `G`, and fails at any other text. -/
def failingCrypto : Crypto :=
  { checksumCrypto with
    digest := fun value => if value.head? = some 71 then some (checksum value) else none }

/-- A thread that has signed under another secret and then met a failure. -/
def tokenCalls : List S3Call := [tokenCall "old" checksumCrypto, tokenCall "new" failingCrypto]

/-- The keys of the two secrets differ, and the request is signed with the later one. -/
theorem prepareS3Get_signed_token :
    signingKey checksumCrypto (text "old") (text "20240102") (text "us-east-1") ≠
        signingKey checksumCrypto (text "new") (text "20240102") (text "us-east-1") ∧
      ∃ request url signed,
        ((tokenCall "new" checksumCrypto).run (history tokenCalls)).1 = .ok request ∧
        Signed checksum (tokenCall "new" checksumCrypto)
          { accessKeyId := text "id", secretAccessKey := text "new", sessionToken := text "token" }
          request url signed := by
  refine ⟨by decide +kernel, ?_⟩
  have hok : ∃ request,
      ((tokenCall "new" checksumCrypto).run (history tokenCalls)).1 = .ok request := by
    have hsome : (((tokenCall "new" checksumCrypto).run (history tokenCalls)).1.toOption).isSome =
        true := by decide +kernel
    cases h : ((tokenCall "new" checksumCrypto).run (history tokenCalls)).1 with
    | ok request => exact ⟨request, rfl⟩
    | error e =>
        rw [h] at hsome
        cases hsome
  obtain ⟨request, hrequest⟩ := hok
  obtain ⟨hsigned, -⟩ := prepareS3Get_signed checksum checksum_length
    tokenCalls (tokenCall "new" checksumCrypto) (by
      intro made hmade value digest hdigest
      simp only [tokenCalls, List.mem_cons, List.not_mem_nil, or_false] at hmade
      rcases hmade with rfl | rfl | rfl
      · exact (Option.some.inj hdigest).symm
      · exact (Option.some.inj hdigest).symm
      · simp only [tokenCall, failingCrypto] at hdigest
        split at hdigest
        · exact (Option.some.inj hdigest).symm
        · cases hdigest)
  obtain ⟨url, signed, h⟩ := hsigned _ request rfl hrequest
  exact ⟨request, url, signed, hrequest, h⟩

end Backends

end Karu
