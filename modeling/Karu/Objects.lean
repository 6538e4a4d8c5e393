/-
# `Karu.Objects` — what an accepted address names

`terminal` accepts six kinds of addresses.  `TerminalObject` lists them, one
constructor a kind, with the fields each of them fills in; the wrappers and the
fragment around an address change nothing but the window.  A cloud object has a
container without a slash, a key, and a canonical URI that spells the two
behind the name of its virtual filesystem.
-/
import Karu.Uri

namespace Karu

open Base

namespace Uri

/-! ## Terminals -/

/-- Where `split_object` cuts. -/
theorem splitObject_ok {s a b : Text} {grammar : String} (h : splitObject s grammar = .ok (a, b)) :
    s = a ++ 47 :: b ∧ a ≠ [] ∧ (47 : UInt8) ∉ a ∧ b ≠ [] := by
  unfold splitObject at h
  split at h
  · cases h
  · rename_i slash hfind
    split at h
    · cases h
    · rename_i hinside
      rw [not_or] at hinside
      cases h
      obtain ⟨hcut, hbefore⟩ := find_split hfind
      refine ⟨hcut, ?_, hbefore, ?_⟩
      · intro hnil
        have hlen := congrArg List.length hcut
        rw [hnil, List.nil_append, List.length_cons, List.length_drop] at hlen
        omega
      · intro hnil
        have hlen := congrArg List.length hnil
        rw [List.length_drop, List.length_nil] at hlen
        omega

/-- The three clouds that differ in their names only: backend, filesystem, `azure_dfs`. -/
def clouds : List (Backend × String × Bool) :=
  [(.s3, "/vsis3/", false), (.gcs, "/vsigs/", false), (.azure, "/vsiaz/", false),
    (.azure, "/vsiadls/", true)]

/-- Everything `terminal` can accept. -/
inductive TerminalObject (uri : Text) : Resolved → Prop
  | http : TerminalObject uri { backend := .http, target := uri, canonicalUri := uri }
  | cloud {backend : Backend} {vsi : String} {dfs : Bool} {container key : Text} :
      (backend, vsi, dfs) ∈ clouds → container ≠ [] → (47 : UInt8) ∉ container → key ≠ [] →
      TerminalObject uri
        { backend := backend, container := container, key := key, azureDfs := dfs
          canonicalUri := text vsi ++ container ++ text "/" ++ key }
  | source {account key : Text} {pieces : Text × Text} : account ≠ [] → (47 : UInt8) ∉ account →
      key ≠ [] → splitObject key "source://account/product/key" = .ok pieces →
      TerminalObject uri
        { backend := .source, container := account, key := key
          canonicalUri := text "/vsisource/" ++ account ++ text "/" ++ key }
  | huggingFace {path : Text} {r : Resolved} : Uri.huggingFace path = .ok r →
      r.backend = .huggingFace → r.windowOffset = 0 → r.windowLength = toEnd → TerminalObject uri r
  | file {target : Text} : target ≠ [] →
      TerminalObject uri
        { backend := .file, target := target, canonicalUri := text "file://" ++ target }
  | plain : uri ≠ [] → TerminalObject uri { backend := .file, target := uri, canonicalUri := uri }

section Terminal

variable {uri rest : Text} {r : Resolved}

theorem cloud_terminal {backend : Backend} {grammar vsi : String} {dfs : Bool}
    (hmem : (backend, vsi, dfs) ∈ clouds) (h : cloud backend rest grammar vsi dfs = .ok r) :
    TerminalObject uri r := by
  obtain ⟨⟨container, key⟩, hsplit, h⟩ := ok_of_bind h
  obtain ⟨-, hcontainer, hslash, hkey⟩ := splitObject_ok hsplit
  cases h
  exact .cloud hmem hcontainer hslash hkey

theorem source_terminal (h : source rest = .ok r) : TerminalObject uri r := by
  obtain ⟨⟨account, key⟩, hsplit, h⟩ := ok_of_bind h
  obtain ⟨pieces, hsecond, h⟩ := ok_of_bind h
  obtain ⟨-, haccount, hslash, hkey⟩ := splitObject_ok hsplit
  cases h
  exact .source haccount hslash hkey hsecond

theorem huggingFace_terminal (h : huggingFace rest = .ok r) : TerminalObject uri r := by
  have hkeep := h
  obtain ⟨⟨owner, path⟩, -, h⟩ := ok_of_bind h
  obtain ⟨⟨name, file⟩, -, h⟩ := ok_of_bind h
  obtain ⟨revised, -, h⟩ := ok_of_bind h
  cases h
  exact .huggingFace hkeep rfl rfl rfl

theorem http_terminal (h : http uri = .ok r) : TerminalObject uri r := by
  unfold http at h
  simp only at h
  split at h
  · cases h
  · cases h
    exact .http

theorem file_terminal {target : Text} (h : file target = .ok r) : TerminalObject uri r := by
  unfold file at h
  split at h
  · cases h
  · rename_i hne
    cases h
    exact .file (by simpa using hne)

/-- The kinds of accepted addresses. -/
theorem terminalObject_terminal (h : terminalObject uri = .ok r) : TerminalObject uri r := by
  unfold terminalObject at h
  split_ifs at h with h₁ h₂ h₃ h₄ h₅ h₆ h₇ h₈ h₉ h₁₀
  · exact http_terminal h
  · exact cloud_terminal (by simp [clouds]) h
  · exact cloud_terminal (by simp [clouds]) h
  · exact cloud_terminal (by simp [clouds]) h
  · exact cloud_terminal (by simp [clouds]) h
  · exact source_terminal h
  · exact huggingFace_terminal h
  · exact file_terminal h
  · cases h
  · cases h
    exact .plain (by simpa using h₁₀)

/-- An object starts out with all of it visible. -/
theorem TerminalObject.fresh (h : TerminalObject uri r) :
    r.windowOffset = 0 ∧ r.windowLength = toEnd := by
  cases h with
  | huggingFace _ _ hoffset hlength => exact ⟨hoffset, hlength⟩
  | http => exact ⟨rfl, rfl⟩
  | cloud => exact ⟨rfl, rfl⟩
  | source => exact ⟨rfl, rfl⟩
  | file => exact ⟨rfl, rfl⟩
  | plain => exact ⟨rfl, rfl⟩

end Terminal

/-! ## Addresses -/

/-- Windows aside, the two name the same object. -/
structure SameObject (r r' : Resolved) : Prop where
  backend : r'.backend = r.backend
  canonicalUri : r'.canonicalUri = r.canonicalUri
  target : r'.target = r.target
  container : r'.container = r.container
  key : r'.key = r.key
  azureDfs : r'.azureDfs = r.azureDfs

theorem SameObject.refl (r : Resolved) : SameObject r r := ⟨rfl, rfl, rfl, rfl, rfl, rfl⟩

theorem SameObject.trans {r₁ r₂ r₃ : Resolved} (h : SameObject r₁ r₂) (h' : SameObject r₂ r₃) :
    SameObject r₁ r₃ where
  backend := h'.backend.trans h.backend
  canonicalUri := h'.canonicalUri.trans h.canonicalUri
  target := h'.target.trans h.target
  container := h'.container.trans h.container
  key := h'.key.trans h.key
  azureDfs := h'.azureDfs.trans h.azureDfs

theorem applyWindow_sameObject {r r' : Resolved} {offset length : Word}
    (h : applyWindow r offset length = .ok r') : SameObject r r' := by
  unfold applyWindow at h
  split at h
  · cases h
  · split at h
    · cases h
    · cases h
      exact ⟨rfl, rfl, rfl, rfl, rfl, rfl⟩

theorem terminal_sameObject {uri : Text} {r : Resolved} (h : terminal uri = .ok r) :
    ∃ u r₀, TerminalObject u r₀ ∧ SameObject r₀ r := by
  obtain ⟨⟨u, offset, length⟩, -, h⟩ := ok_of_bind h
  obtain ⟨r₀, hobject, h⟩ := ok_of_bind h
  refine ⟨u, r₀, terminalObject_terminal hobject, ?_⟩
  split at h
  · exact applyWindow_sameObject h
  · cases h
    exact SameObject.refl r

theorem resolveTerminal_sameObject {uri : Text} {r : Resolved} (h : resolveTerminal uri = .ok r) :
    ∃ u r₀, TerminalObject u r₀ ∧ SameObject r₀ r := by
  unfold resolveTerminal at h
  split at h
  · unfold resolveAlias at h
    split_ifs at h
    · cases h
    · exact terminal_sameObject h
  · split at h
    · cases h
    · exact terminal_sameObject h

/-- What holds of every terminal, and through every window, holds of every accepted address. -/
theorem resolveImpl_rec {P : Resolved → Prop}
    (hterminal : ∀ {uri r}, resolveTerminal uri = .ok r → P r)
    (hwindow : ∀ {r r' offset length}, P r → applyWindow r offset length = .ok r' → P r') :
    ∀ {left : Nat} {uri : Text} {r : Resolved}, resolveImpl left uri = .ok r → P r := by
  intro left
  induction left with
  | zero =>
      intro uri r h
      unfold resolveImpl at h
      split_ifs at h
      · cases h
      · cases h
      · exact hterminal h
  | succ left ih =>
      intro uri r h
      unfold resolveImpl at h
      split_ifs at h
      · cases h
      · simp only at h
        split at h
        · cases h
        · split at h
          · cases h
          · obtain ⟨⟨offset, length⟩, -, h⟩ := ok_of_bind h
            obtain ⟨child, hchild, h⟩ := ok_of_bind h
            exact hwindow (ih hchild) h
      · exact hterminal h

/-- What is wrapped is resolved, and every wrapper only moves the window. -/
theorem resolveImpl_sameObject {left : Nat} {uri : Text} {r : Resolved}
    (h : resolveImpl left uri = .ok r) : ∃ u r₀, TerminalObject u r₀ ∧ SameObject r₀ r := by
  refine resolveImpl_rec resolveTerminal_sameObject ?_ h
  rintro r r' offset length ⟨u, r₀, hterminal, hsame⟩ happly
  exact ⟨u, r₀, hterminal, hsame.trans (applyWindow_sameObject happly)⟩

/-- An accepted cloud object. -/
structure CloudObject (r : Resolved) : Prop where
  container_ne : r.container ≠ []
  container_slash : (47 : UInt8) ∉ r.container
  key_ne : r.key ≠ []
  canonical : ∃ vsi : String, (text vsi).head? = some 47 ∧
    r.canonicalUri = text vsi ++ r.container ++ text "/" ++ r.key

theorem resolve_cloudObject {uri : Text} {r : Resolved} (h : resolve uri = .ok r)
    (hcloud : r.backend.cloud = true) : CloudObject r := by
  obtain ⟨u, r₀, hterminal, hsame⟩ := resolveImpl_sameObject h
  suffices hobject : CloudObject r₀ by
    exact ⟨hsame.container ▸ hobject.container_ne, hsame.container ▸ hobject.container_slash,
      hsame.key ▸ hobject.key_ne, by
        rw [hsame.canonicalUri, hsame.container, hsame.key]
        exact hobject.canonical⟩
  rw [hsame.backend] at hcloud
  cases hterminal with
  | http => cases hcloud
  | @cloud backend vsi dfs container key hmem hcontainer hslash hkey =>
      refine ⟨hcontainer, hslash, hkey, vsi, ?_, rfl⟩
      simp only [clouds, List.mem_cons, List.not_mem_nil, or_false, Prod.mk.injEq] at hmem
      rcases hmem with ⟨-, rfl, -⟩ | ⟨-, rfl, -⟩ | ⟨-, rfl, -⟩ | ⟨-, rfl, -⟩ <;> rfl
  | source haccount hslash hkey _ =>
      exact ⟨haccount, hslash, hkey, "/vsisource/", rfl, rfl⟩
  | huggingFace _ hbackend _ _ =>
      rw [hbackend] at hcloud
      cases hcloud
  | file => cases hcloud
  | plain => cases hcloud

end Uri

end Karu
