import BucketTransfer.Proofs.Signing.Renewal
import BucketTransfer.Proofs.Text.Pieces

/-!
# What signed requests carry

Canonical paths and queries are made of a few characters only, none of which ends a path or a query
in a URL. A request that was signed carries the signature of its path and its query.
-/
namespace BucketTransfer.Signing

/-! ## Characters -/

/-- A character of encoded text. -/
def isEncoded (c : Char) : Bool :=
  c.isAlphanum || c == '-' || c == '_' || c == '.' || c == '~' || c == '%'

section Characters
variable {c : Char} {path : String} {parameters : List (String × String)}

private theorem isEncoded_hexDigit (d : Fin 16) : isEncoded (Text.hexDigit d).toUpper = true := by
  revert d
  decide

theorem isEncoded_of_percentByte {b : UInt8} (h : c ∈ Text.percentByte b) : isEncoded c = true := by
  rw [Text.percentByte] at h
  split at h
  · rename_i hunreserved
    obtain rfl := List.mem_singleton.1 h
    rw [isEncoded, Bool.or_eq_true]
    exact .inl hunreserved
  · have hb := b.toNat_lt
    simp only [Text.escapeByte, List.mem_cons, List.not_mem_nil, or_false] at h
    rcases h with rfl | rfl | rfl
    · rfl
    · exact isEncoded_hexDigit ⟨b.toNat / 16, by omega⟩
    · exact isEncoded_hexDigit ⟨b.toNat % 16, by omega⟩

theorem lt_toNat_of_isEncoded (h : isEncoded c = true) : 0x20 < c.toNat := by
  by_contra hlow
  have hall : ∀ n : Fin 0x21, isEncoded (Char.ofNat n) = false := by decide
  have hc := hall ⟨c.toNat, by omega⟩
  rw [Char.ofNat_toNat, h] at hc
  cases hc

theorem ne_of_isEncoded {d : Char} (h : isEncoded c = true) (hd : isEncoded d = false) : c ≠ d := by
  rintro rfl
  rw [h] at hd
  cases hd

theorem head?_canonicalUri (path : String) : (canonicalUri path).toList.head? = some '/' := by
  unfold canonicalUri
  dsimp only
  split
  · rename_i hslash
    rw [String.toList_ofList, hslash, List.head?_cons]
  · rw [String.toList_ofList, List.head?_cons]

theorem mem_canonicalUri (h : c ∈ (canonicalUri path).toList) : c = '/' ∨ isEncoded c = true := by
  have hencoded : ∀ d ∈ (utf8 path).flatMap fun b =>
      if b = '/'.toNat.toUInt8 then ['/'] else Text.percentByte b,
        d = '/' ∨ isEncoded d = true := by
    intro d hd
    obtain ⟨b, -, hd⟩ := List.mem_flatMap.1 hd
    split at hd
    · exact .inl (List.mem_singleton.1 hd)
    · exact .inr (isEncoded_of_percentByte hd)
  unfold canonicalUri at h
  dsimp only at h
  split at h
  · rw [String.toList_ofList] at h
    exact hencoded c h
  · rw [String.toList_ofList] at h
    rcases List.mem_cons.1 h with hslash | h
    · exact .inl hslash
    · exact hencoded c h

theorem isEncoded_of_percentEncode {s : String} (h : c ∈ (Text.percentEncode s).toList) :
    isEncoded c = true := by
  rw [Text.percentEncode, String.toList_ofList] at h
  obtain ⟨b, -, hb⟩ := List.mem_flatMap.1 h
  exact isEncoded_of_percentByte hb

theorem mem_canonicalQuery (h : c ∈ (canonicalQuery parameters).toList) :
    c = '&' ∨ c = '=' ∨ isEncoded c = true := by
  rcases Text.mem_intercalate h with h | ⟨text, htext, h⟩
  · exact .inl (List.mem_singleton.1 h)
  · obtain ⟨pair, hpair, rfl⟩ := List.mem_map.1 htext
    obtain ⟨parameter, -, rfl⟩ := List.mem_map.1 (List.mem_mergeSort.1 hpair)
    rw [String.toList_append, String.toList_append, List.mem_append, List.mem_append] at h
    rcases h with (h | h) | h
    · exact .inr (.inr (isEncoded_of_percentEncode h))
    · exact .inr (.inl (List.mem_singleton.1 h))
    · exact .inr (.inr (isEncoded_of_percentEncode h))

/-- Nothing in a canonical path is blank or ends a path. -/
theorem forall_mem_canonicalUri (path : String) :
    ∀ c ∈ (canonicalUri path).toList, 0x20 < c.toNat ∧ c ≠ '#' ∧ c ≠ '?' := by
  intro c hc
  rcases mem_canonicalUri hc with rfl | hencoded
  · decide
  · exact ⟨lt_toNat_of_isEncoded hencoded, ne_of_isEncoded hencoded (by decide),
      ne_of_isEncoded hencoded (by decide)⟩

/-- Nothing in a canonical query is blank, ends a query or stands in front of a path. -/
theorem forall_mem_canonicalQuery (parameters : List (String × String)) :
    ∀ c ∈ (canonicalQuery parameters).toList, 0x20 < c.toNat ∧ c ≠ '#' ∧ c ≠ '/' := by
  intro c hc
  rcases mem_canonicalQuery hc with rfl | rfl | hencoded
  · decide
  · decide
  · exact ⟨lt_toNat_of_isEncoded hencoded, ne_of_isEncoded hencoded (by decide),
      ne_of_isEncoded hencoded (by decide)⟩

end Characters

/-! ## Signatures -/

namespace Scheme
variable {s : Scheme} {c : Credentials} {input : Input} {h h' : Headers}

/-- Header fields carry a signature of the request. -/
def Carries (s : Scheme) (c : Credentials) (h : Headers) (r : Request) : Prop :=
  ∃ input texts, r = s.request input texts ∧
    h.values "authorization" = [utf8 (s.authorization c input texts)]

/-- What is signed carries the signature of the path and the query that the signer was given. -/
theorem exists_carries (hsign : s.sign c input h = .ok h') :
    ∃ r, s.Carries c h' r ∧ r.uri = s.signedUri input.uri ∧ r.query = input.query := by
  obtain ⟨-, -, texts, -, -, rfl⟩ := sign_eq_ok_iff.1 hsign
  exact ⟨s.request input texts, ⟨input, texts, rfl, Headers.values_update_self⟩, rfl, rfl⟩

end Scheme

end BucketTransfer.Signing
