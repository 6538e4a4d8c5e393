/-
# `Karu.Backends.Encodings` — what karu writes into a request is read back

A value goes into a form or a path percent-encoded, and into JSON between quotes.
`form_encode` and `encode_path` write an octet as it is or as `%` and two
hexadecimal digits; they differ in `/`, which stays in a path.  Decoding gives
back what was written, so different keys have different paths, and none of the
characters that divide a form or a URL is written: what follows a value is not
part of it.  `json_escape` writes two characters for five of them.
-/
import Karu.Backends.FlatJson
import Karu.Backends.GcsCredentials

namespace Karu

open Base

namespace Backends

/-! ## Percent decoding -/

/-- The number of an uppercase hexadecimal digit. -/
def unhex (c : UInt8) : UInt8 := if c < 65 then c - 48 else c - 55

/-- Percent decoding of octets. -/
def percentDecode : Text → Text
  | 37 :: high :: low :: rest => (unhex high * 16 + unhex low) :: percentDecode rest
  | c :: rest => c :: percentDecode rest
  | [] => []

theorem percentDecode_plain {c : UInt8} (h : c ≠ 37) (rest : Text) :
    percentDecode (c :: rest) = c :: percentDecode rest := by
  rw [percentDecode]
  rintro - - - rfl
  exact absurd rfl h

theorem unhex_hex (c : UInt8) :
    unhex (Uri.hex (c >>> 4)) * 16 + unhex (Uri.hex (c &&& 15)) = c := by
  have hall : ∀ n < 256, unhex (Uri.hex (UInt8.ofNat n >>> 4)) * 16 +
      unhex (Uri.hex (UInt8.ofNat n &&& 15)) = UInt8.ofNat n := by decide +kernel
  have hc := hall c.toNat c.toNat_lt
  rwa [UInt8.ofNat_toNat] at hc

/-! ## Percent encoding -/

/-- One octet, as it is where it is `safe`. -/
def encodeOctet (safe : UInt8 → Bool) (c : UInt8) : Text :=
  if safe c then [c] else [37, Uri.hex (c >>> 4), Uri.hex (c &&& 15)]

theorem encodePath_octets (path : Text) :
    Uri.encodePath path = path.flatMap (encodeOctet Uri.isSafe) := rfl

theorem formEncode_octets (value : Text) :
    formEncode value = value.flatMap (encodeOctet fun c => Uri.isSafe c && c != 47) := rfl

section Octets

variable {safe : UInt8 → Bool} (hsafe : ∀ c, safe c = true → Uri.isSafe c = true)

include hsafe

theorem percentDecode_octets (value : Text) :
    percentDecode (value.flatMap (encodeOctet safe)) = value := by
  induction value with
  | nil => rfl
  | cons c value ih =>
      rw [List.flatMap_cons, encodeOctet]
      by_cases hc : safe c = true
      · have hplain : c ≠ 37 := by
          rintro rfl
          exact absurd (hsafe 37 hc) (by decide)
        rw [if_pos hc, List.singleton_append, percentDecode_plain hplain, ih]
      · rw [if_neg hc]
        show (unhex (Uri.hex (c >>> 4)) * 16 + unhex (Uri.hex (c &&& 15))) ::
          percentDecode (value.flatMap (encodeOctet safe)) = c :: value
        rw [unhex_hex, ih]

/-- What is written is safe, or the sign of an escape. -/
theorem mem_octets {value : Text} {c : UInt8} (hc : c ∈ value.flatMap (encodeOctet safe)) :
    Uri.isSafe c = true ∨ c = 37 := by
  have hdigits : ∀ n < 256, Uri.isSafe (Uri.hex (UInt8.ofNat n >>> 4)) = true ∧
      Uri.isSafe (Uri.hex (UInt8.ofNat n &&& 15)) = true := by decide +kernel
  obtain ⟨d, -, hd⟩ := List.mem_flatMap.mp hc
  rw [encodeOctet] at hd
  split_ifs at hd with hplain
  · rw [List.mem_singleton.mp hd]
    exact Or.inl (hsafe d hplain)
  · have hpair := hdigits d.toNat d.toNat_lt
    rw [UInt8.ofNat_toNat] at hpair
    simp only [List.mem_cons, List.not_mem_nil, or_false] at hd
    rcases hd with rfl | rfl | rfl
    · exact Or.inr rfl
    · exact Or.inl hpair.1
    · exact Or.inl hpair.2

end Octets

/-- The octets that a form or a path leaves as they are. -/
theorem form_safe (c : UInt8) (h : (Uri.isSafe c && c != 47) = true) : Uri.isSafe c = true :=
  (Bool.and_eq_true_iff.mp h).1

/-- Percent decoding gives back a form value and a path, and neither holds a character that
divides a form, a query or a fragment from what is around it. -/
theorem encodings_readBack (value : Text) :
    percentDecode (formEncode value) = value ∧ percentDecode (Uri.encodePath value) = value ∧
      ∀ c ∈ text "&=+;?# ", c ∉ formEncode value ∧ c ∉ Uri.encodePath value := by
  rw [formEncode_octets, encodePath_octets]
  refine ⟨percentDecode_octets form_safe value, percentDecode_octets (fun _ h => h) value,
    fun c hc => ?_⟩
  have hdivides : ∀ d ∈ text "&=+;?# ", ¬ (Uri.isSafe d = true ∨ d = 37) := by decide +kernel
  exact ⟨fun hmem => hdivides c hc (mem_octets form_safe hmem),
    fun hmem => hdivides c hc (mem_octets (fun _ h => h) hmem)⟩

/-! ## JSON -/

theorem unescape_quote : (unescape 34).isSome = true := rfl

theorem unescape_backslash : (unescape 92).isSome = true := rfl

theorem unescape_newline : (unescape 110).isSome = true := rfl

theorem unescape_return : (unescape 114).isSome = true := rfl

theorem unescape_tab : (unescape 116).isSome = true := rfl

/-- A character as `json_escape` writes it. -/
def escapedPiece (c : UInt8) : Piece :=
  if hquote : c = 34 then .escaped 34 unescape_quote
  else if hbackslash : c = 92 then .escaped 92 unescape_backslash
  else if c = 10 then .escaped 110 unescape_newline
  else if c = 13 then .escaped 114 unescape_return
  else if c = 9 then .escaped 116 unescape_tab
  else .plain c hquote hbackslash

theorem escapedPiece_decoded (c : UInt8) : (escapedPiece c).decoded = some c := by
  unfold escapedPiece
  split_ifs with h34 h92 h10 h13 h9
  · rw [h34]
    rfl
  · rw [h92]
    rfl
  · rw [h10]
    rfl
  · rw [h13]
    rfl
  · rw [h9]
    rfl
  · rfl

theorem jsonEscape_pieces (value : Text) :
    jsonEscape value = (value.map escapedPiece).flatMap Piece.chars := by
  rw [jsonEscape, List.flatMap_map]
  refine List.flatMap_congr fun c _ => ?_
  unfold escapedPiece
  split_ifs <;> rfl

/-- What `json_escape` writes between two quotes, `json_string` reads as it was. -/
theorem jsonCharacters_jsonEscape (value rest : Text) :
    jsonCharacters (jsonEscape value ++ 34 :: rest) = some value := by
  rw [jsonEscape_pieces, jsonCharacters_pieces]
  induction value with
  | nil => rfl
  | cons c value ih =>
      rw [List.map_cons, List.mapM_cons, escapedPiece_decoded, ih]
      rfl

end Backends

end Karu
