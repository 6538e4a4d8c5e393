/-
# `Karu.Uri` — `src/uri.cpp`

Parsing of object addresses.  `resolve` peels `/vsisubfile/OFFSET[_LENGTH],`
wrappers off a URI, resolves what they wrap, and clips the window of the result
to each wrapper on the way out.  What is wrapped is a URL, a cloud object, a
Hugging Face file or a local path (`terminal`), which may end in a
`#bytes=FIRST-[LAST]` fragment: the innermost window.

The recursion of `resolve_impl` counts its depth up to 16; here it counts the
levels left.
-/
import Karu.Runtime.Transfer

namespace Karu

open Base

namespace Uri

/-- `ResolveErrorCode`. -/
inductive ErrorCode where
  | malformed | unsupported
deriving DecidableEq, Repr

/-- `ResolveError`. -/
structure ResolveError where
  code : ErrorCode := .malformed
  message : Text
deriving DecidableEq, Repr

/-- A `std::unexpected` of a literal. -/
def malformed {α : Type} (message : String) : Except ResolveError α :=
  .error { message := text message }

/-- `VSI_SUBFILE`. -/
def vsiSubfile : Text := text "/vsisubfile/"

/-- `BYTES_FRAGMENT`. -/
def bytesFragment : Text := text "#bytes="

/-- `parse_u64`. -/
def parseU64 (s : Text) : Except ResolveError Word :=
  if s.isEmpty then malformed "expected a number"
  else
    match h : fromChars s with
    | some (n, []) => .ok ⟨n, fromChars_lt h⟩
    | _ => .error { message := text "'" ++ s ++ text "' is not a byte count" }

/-- `split_object`. -/
def splitObject (s : Text) (grammar : String) : Except ResolveError (Text × Text) :=
  let wrong : ResolveError :=
    { message := text "expected " ++ text grammar ++ text " in '" ++ s ++ text "'" }
  match find 47 s with
  | none => .error wrong
  | some slash =>
      if slash = 0 ∨ s.length ≤ slash + 1 then .error wrong
      else .ok (s.take slash, s.drop (slash + 1))

/-- The value of `#bytes=`, from behind the `=` on: an offset and a length. -/
def parseFragment (fragment : Text) : Except ResolveError (Word × Word) :=
  match find 45 fragment with
  | none => malformed "#bytes= wants FIRST-LAST"
  | some dash => do
      let first ← parseU64 (fragment.take dash)
      let lastText := fragment.drop (dash + 1)
      if lastText.isEmpty then .ok (first, ⟨toEnd, toEnd_lt⟩)
      else do
        let last ← parseU64 lastText
        if last.1 < first.1 then malformed "#bytes= ends before it starts"
        else if h : last.1 - first.1 = maxWord then malformed "#bytes= range is too large"
        else
          .ok (first, ⟨last.1 - first.1 + 1, by
            have := last.2
            rw [maxWord_eq] at h
            omega⟩)

/-- `take_bytes_fragment`: the URI without its fragment, and the window. -/
def takeBytesFragment (uri : Text) : Except ResolveError (Text × Word × Word) :=
  match rfind 35 uri with
  | none => .ok (uri, ⟨0, zero_lt_word⟩, ⟨toEnd, toEnd_lt⟩)
  | some hash =>
      if !bytesFragment.isPrefixOf (uri.drop hash) then
        .ok (uri, ⟨0, zero_lt_word⟩, ⟨toEnd, toEnd_lt⟩)
      else do
        let window ← parseFragment (uri.drop (hash + bytesFragment.length))
        .ok (uri.take hash, window)

/-- `apply_window`: a nested subfile is clipped to its parent, and both are expressed as one
offset into the terminal object. -/
def applyWindow (resolved : Resolved) (offset length : Word) : Except ResolveError Resolved :=
  if h : maxWord - offset.1 < resolved.windowOffset then malformed "window offset overflows"
  else if resolved.windowLength ≠ toEnd ∧ resolved.windowLength < offset.1 then
    malformed "window starts past the end of its parent"
  else
    .ok { resolved with
      windowOffset := resolved.windowOffset + offset.1
      windowLength :=
        if resolved.windowLength ≠ toEnd then min length.1 (resolved.windowLength - offset.1)
        else length.1
      windowOffset_lt := by
        have := offset.2
        rw [maxWord_eq] at h
        omega
      windowLength_lt := by
        have := length.2
        split <;> omega }

/-- `encode_path`. -/
def isSafe (c : UInt8) : Bool :=
  (97 ≤ c && c ≤ 122) || (65 ≤ c && c ≤ 90) || (48 ≤ c && c ≤ 57) || c == 45 || c == 95 ||
    c == 46 || c == 126 || c == 47

/-- `HEX`. -/
def hex (n : UInt8) : UInt8 := if n < 10 then 48 + n else 55 + n

/-- `encode_path`. -/
def encodePath (path : Text) : Text :=
  path.flatMap fun c => if isSafe c then [c] else [37, hex (c >>> 4), hex (c &&& 15)]

/-! ## Terminals -/

/-- The `cloud` lambda of `terminal`. -/
def cloud (backend : Backend) (rest : Text) (grammar vsi : String) (dfs : Bool := false) :
    Except ResolveError Resolved := do
  let (container, key) ← splitObject rest grammar
  .ok { backend := backend, container := container, key := key, azureDfs := dfs,
        canonicalUri := text vsi ++ container ++ text "/" ++ key }

/-- `source://`. -/
def source (rest : Text) : Except ResolveError Resolved := do
  let (account, key) ← splitObject rest "source://account/product/key"
  let _ ← splitObject key "source://account/product/key"
  .ok { backend := .source, container := account, key := key,
        canonicalUri := text "/vsisource/" ++ account ++ text "/" ++ key }

/-- The kind of a Hugging Face repository, and the rest. -/
def repositoryKind (rest : Text) : Text × Text :=
  if (text "datasets/").isPrefixOf rest then (text "datasets/", rest.drop 9)
  else if (text "spaces/").isPrefixOf rest then (text "spaces/", rest.drop 7)
  else ([], rest)

/-- The revision of a repository's name, `main` where there is none. -/
def repositoryRevision (name : Text) : Except ResolveError (Text × Text) :=
  match find 64 name with
  | none => .ok (name, text "main")
  | some at_ =>
      if (name.take at_).isEmpty || (name.drop (at_ + 1)).isEmpty then
        malformed "hf:// has an empty repository or revision"
      else .ok (name.take at_, name.drop (at_ + 1))

/-- `hf://`. -/
def huggingFace (path : Text) : Except ResolveError Resolved := do
  let (kind, rest) := repositoryKind path
  let (owner, rest) ← splitObject rest "hf://owner/name/path"
  let (name, file) ← splitObject rest "hf://owner/name/path"
  let (name, revision) ← repositoryRevision name
  .ok { backend := .huggingFace, canonicalUri := text "/vsihf/" ++ path,
        target := text "/" ++ kind ++ owner ++ text "/" ++ name ++ text "/resolve/" ++
          encodePath revision ++ text "/" ++ encodePath file }

/-- `http://` and `https://`. -/
def http (uri : Text) : Except ResolveError Resolved :=
  let authority := (findText (text "://") uri).getD 0 + 3
  if authority = uri.length ∨ findFirstOf (text "/?#") uri authority = some authority then
    malformed "HTTP URL has no authority"
  else .ok { backend := .http, target := uri, canonicalUri := uri }

/-- `file://`. -/
def file (target : Text) : Except ResolveError Resolved :=
  if target.isEmpty then malformed "file:// has no path"
  else .ok { backend := .file, target := target, canonicalUri := text "file://" ++ target }

/-- `terminal` without its fragment. -/
def terminalObject (uri : Text) : Except ResolveError Resolved :=
  if (text "http://").isPrefixOf uri || (text "https://").isPrefixOf uri then http uri
  else if (text "s3://").isPrefixOf uri then cloud .s3 (uri.drop 5) "s3://bucket/key" "/vsis3/"
  else if (text "gs://").isPrefixOf uri then cloud .gcs (uri.drop 5) "gs://bucket/key" "/vsigs/"
  else if (text "az://").isPrefixOf uri then
    cloud .azure (uri.drop 5) "az://container/blob" "/vsiaz/"
  else if (text "abfs://").isPrefixOf uri then
    cloud .azure (uri.drop 7) "abfs://container/blob" "/vsiadls/" true
  else if (text "source://").isPrefixOf uri then source (uri.drop 9)
  else if (text "hf://").isPrefixOf uri then huggingFace (uri.drop 5)
  else if (text "file://").isPrefixOf uri then file (uri.drop 7)
  else if (findText (text "://") uri).isSome then
    .error { message := text "unknown scheme in '" ++ uri ++ text "'" }
  else if uri.isEmpty then malformed "empty path"
  else .ok { backend := .file, target := uri, canonicalUri := uri }

/-- `terminal`. -/
def terminal (uri : Text) : Except ResolveError Resolved := do
  let (uri, offset, length) ← takeBytesFragment uri
  let result ← terminalObject uri
  if offset.1 ≠ 0 ∨ length.1 ≠ toEnd then applyWindow result offset length else .ok result

/-! ## Wrappers -/

/-- `OFFSET[_LENGTH]`; a negative length, like none, is to the end. -/
def parseSpec (spec : Text) : Except ResolveError (Word × Word) :=
  match find 95 spec with
  | none => do
      let offset ← parseU64 spec
      .ok (offset, ⟨toEnd, toEnd_lt⟩)
  | some underscore => do
      let offset ← parseU64 (spec.take underscore)
      let lengthText := spec.drop (underscore + 1)
      if lengthText.head? = some 45 then
        match parseU64 lengthText.tail with
        | .ok _ => .ok (offset, ⟨toEnd, toEnd_lt⟩)
        | .error _ => malformed "negative subfile length is malformed"
      else do
        let length ← parseU64 lengthText
        .ok (offset, length)

/-- `ALIASES`. -/
def aliases : List (Text × Text) :=
  [(text "/vsicurl/", []), (text "/vsis3/", text "s3://"), (text "/vsigs/", text "gs://"),
    (text "/vsiaz/", text "az://"), (text "/vsiadls/", text "abfs://"),
    (text "/vsihf/", text "hf://"), (text "/vsisource/", text "source://")]

/-- An address behind one of the aliases. -/
def resolveAlias (vsi scheme rest : Text) : Except ResolveError Resolved :=
  if rest.isEmpty then .error { message := vsi ++ text " has no target" }
  else if vsi = text "/vsicurl/" ∧ (text "http://").isPrefixOf rest = false ∧
      (text "https://").isPrefixOf rest = false then
    malformed "/vsicurl/ target must be an HTTP URL"
  else terminal (scheme ++ rest)

/-- The error for a virtual filesystem that is not one of Karu's. -/
def unsupported (uri : Text) : ResolveError where
  code := .unsupported
  message :=
    text "unsupported virtual filesystem '" ++ uri.take (((find 47 uri 4).map (· + 1)).getD uri.length) ++
      text "'; Karu supports /vsisubfile/, /vsicurl/, /vsis3/, /vsigs/, " ++
      text "/vsiaz/, /vsiadls/, /vsihf/ and /vsisource/ (no *_streaming aliases)"

/-- The end of `resolve_impl`: the URI is no wrapper. -/
def resolveTerminal (uri : Text) : Except ResolveError Resolved :=
  match aliases.find? (·.1.isPrefixOf uri) with
  | some (vsi, scheme) => resolveAlias vsi scheme (uri.drop vsi.length)
  | none =>
      if (text "/vsi").isPrefixOf uri then .error (unsupported uri)
      else terminal uri

/-- `MAX_SUBFILE_DEPTH`. -/
def maxSubfileDepth : Nat := 16

/-- `resolve_impl`, with as many more wrappers allowed. -/
def resolveImpl : Nat → Text → Except ResolveError Resolved
  | left, uri =>
      if uri.isEmpty then malformed "empty URI"
      else if vsiSubfile.isPrefixOf uri then
        match left with
        | 0 => malformed "/vsisubfile/ nesting exceeds 16 levels"
        | left + 1 =>
            let rest := uri.drop vsiSubfile.length
            match find 44 rest with
            | none => malformed "/vsisubfile/ wants OFFSET[_LENGTH],<uri>"
            | some comma =>
                if (rest.drop (comma + 1)).isEmpty then malformed "/vsisubfile/ has no inner URI"
                else do
                  let (offset, length) ← parseSpec (rest.take comma)
                  let child ← resolveImpl left (rest.drop (comma + 1))
                  applyWindow child offset length
      else resolveTerminal uri

/-- `resolve`. -/
def resolve (uri : Text) : Except ResolveError Resolved := resolveImpl maxSubfileDepth uri

example : (resolve (text "/vsisubfile/5_10,s3://bucket/key#bytes=100-199")).map
    (fun r => (r.windowOffset, r.windowLength, r.canonicalUri)) =
    .ok (105, 10, text "/vsis3/bucket/key") := by
  decide +kernel

end Uri

end Karu
