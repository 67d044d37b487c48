import BucketTransfer.ObjectStore.Remote
import BucketTransfer.Proofs.Bucket.Name
import BucketTransfer.Proofs.Signing.Carried
import BucketTransfer.Proofs.Text.Percent

/-!
# Paths of objects

A path is read back from its canonical form, so no two objects have the same path on their way to
the store, whatever their keys are.
-/
namespace BucketTransfer

namespace Signing
variable {path : String} {c : Char}

/-! ## Canonical paths -/

/-- A byte of a path as it is sent. -/
def pathByte (b : UInt8) : List Char :=
  if b = '/'.toNat.toUInt8 then ['/'] else Text.percentByte b

/-- A character of a path as it is sent. -/
def pathChar (c : Char) : List Char :=
  if c = '/' then ['/'] else (String.utf8EncodeChar c).flatMap Text.percentByte

/-- A slash is one byte, and no other character has this byte. -/
theorem flatMap_pathByte (c : Char) :
    (String.utf8EncodeChar c).flatMap pathByte = pathChar c := by
  by_cases hslash : c = '/'
  · subst hslash
    decide
  · rw [pathChar, if_neg hslash]
    refine List.flatMap_congr fun b hb => if_neg ?_
    rintro rfl
    exact hslash (Char.toNat_inj.1 (Utf8.eq_of_mem_encodeChar (by decide) hb))

theorem flatMap_utf8 (path : String) :
    (utf8 path).flatMap pathByte = path.toList.flatMap pathChar := by
  rw [utf8, Utf8.encode, List.flatMap_assoc]
  exact List.flatMap_congr fun c _ => flatMap_pathByte c

/-- A path that starts with a slash is encoded character by character. -/
theorem toList_canonicalUri (hpath : path.toList.head? = some '/') :
    (canonicalUri path).toList = path.toList.flatMap pathChar := by
  obtain ⟨rest, hrest⟩ := List.head?_eq_some_iff.1 hpath
  have hencoded : (utf8 path).flatMap pathByte = '/' :: rest.flatMap pathChar := by
    rw [flatMap_utf8, hrest, List.flatMap_cons]
    rfl
  have hcanonical : canonicalUri path = String.ofList ((utf8 path).flatMap pathByte) := by
    unfold canonicalUri
    dsimp only
    split
    · rfl
    · rename_i hother
      exact absurd hencoded (hother _)
  rw [hcanonical, flatMap_utf8, String.toList_ofList]

theorem isEscaped_pathChar (c : Char) : Text.IsEscaped ['/'] (pathChar c) := by
  rw [pathChar]
  split
  · exact .char (.inr (.inr (List.mem_singleton_self '/'))) .nil
  · exact .flatMap fun b _ => Text.isEscaped_percentByte b

theorem count_pathChar (c : Char) : (pathChar c).count '/' = [c].count '/' := by
  rw [pathChar]
  split
  · rename_i hslash
    rw [hslash]
  · rename_i hother
    rw [List.count_singleton, if_neg (by simpa using hother), List.count_eq_zero]
    intro hmem
    obtain ⟨b, -, hb⟩ := List.mem_flatMap.1 hmem
    exact ne_of_isEncoded (isEncoded_of_percentByte hb) (by decide) rfl

/-- Small letters, digits, hyphens and dots stand for themselves. -/
theorem pathChar_of_allowed
    (hc : ('a' ≤ c ∧ c ≤ 'z') ∨ ('0' ≤ c ∧ c ≤ '9') ∨ c = '-' ∨ c = '.') : pathChar c = [c] := by
  have hall : ∀ n : Fin 123, let c := Char.ofNat n
      ('a' ≤ c ∧ c ≤ 'z') ∨ ('0' ≤ c ∧ c ≤ '9') ∨ c = '-' ∨ c = '.' → pathChar c = [c] := by
    decide +kernel
  have hsmall : c.toNat < 123 := by
    rcases hc with ⟨-, hc⟩ | ⟨-, hc⟩ | rfl | rfl
    · exact Nat.lt_succ_of_le hc
    · exact Nat.lt_of_le_of_lt hc (by decide)
    all_goals decide
  have hchar := hall ⟨c.toNat, hsmall⟩
  simp only [Char.ofNat_toNat] at hchar
  exact hchar hc

/-- No slash is made and none is lost. -/
theorem count_canonicalUri (hpath : path.toList.head? = some '/') :
    (canonicalUri path).toList.count '/' = path.toList.count '/' := by
  rw [toList_canonicalUri hpath]
  induction path.toList with
  | nil => rfl
  | cons c cs ih =>
    rw [List.flatMap_cons, List.count_append, ih, count_pathChar, ← List.count_append,
      List.singleton_append]

theorem percentBytes_pathByte (b : UInt8) (rest : List Char) :
    Text.percentBytes (pathByte b ++ rest) =
      (Text.percentBytes rest).map fun bytes => b :: bytes := by
  rw [pathByte]
  split
  · rename_i hslash
    rw [hslash]
    exact Text.percentBytes_cons (by decide)
  · exact Text.percentBytes_percentByte b rest

theorem percentDecode_canonicalUri (hpath : path.toList.head? = some '/') :
    Text.percentDecode (canonicalUri path) = some path := by
  rw [Text.percentDecode, toList_canonicalUri hpath, ← flatMap_utf8,
    Text.percentBytes_flatMap percentBytes_pathByte, Option.bind_some, decode?_utf8]

theorem canonicalUri_inj {path' : String} (hpath : path.toList.head? = some '/')
    (hpath' : path'.toList.head? = some '/') (h : canonicalUri path = canonicalUri path') :
    path = path' := by
  have hread := percentDecode_canonicalUri hpath
  rw [h, percentDecode_canonicalUri hpath'] at hread
  exact (Option.some.inj hread).symm

end Signing

namespace ObjectStore.Remote
open Signing
variable {bucket bucket' : String} {key key' : Option String}

/-! ## The paths of a store -/

/-- The path of a bucket, or of what is in it, as it is sent. -/
def sentPath (bucket : String) (key : Option String := none) : String :=
  canonicalUri (pathOf bucket key)

theorem toList_pathOf (bucket : String) (key : Option String) :
    (pathOf bucket key).toList =
      '/' :: (bucket.toList ++ key.elim [] fun key => '/' :: key.toList) := by
  cases key
  all_goals simp [pathOf]

theorem head?_pathOf : (pathOf bucket key).toList.head? = some '/' := by
  rw [toList_pathOf, List.head?_cons]

/-- A path tells bucket and key if no bucket has a slash in its name. -/
theorem pathOf_inj (hbucket : '/' ∉ bucket.toList) (hbucket' : '/' ∉ bucket'.toList)
    (h : pathOf bucket key = pathOf bucket' key') : bucket = bucket' ∧ key = key' := by
  have htext := congrArg String.toList h
  rw [toList_pathOf, toList_pathOf] at htext
  replace htext := List.tail_eq_of_cons_eq htext
  cases key with
  | none =>
    cases key' with
    | none => exact ⟨by simpa [String.toList_inj] using htext, rfl⟩
    | some key' =>
      refine absurd ?_ hbucket
      rw [Option.elim_none, List.append_nil, Option.elim_some] at htext
      simp [htext]
  | some key =>
    cases key' with
    | none =>
      refine absurd ?_ hbucket'
      rw [Option.elim_none, List.append_nil, Option.elim_some] at htext
      simp [← htext]
    | some key' =>
      obtain ⟨hsame, hkey⟩ := Text.append_cons_inj hbucket hbucket' htext
      exact ⟨String.toList_inj.1 hsame, congrArg some (String.toList_inj.1 hkey)⟩

/-- The name of a bucket stands in a path as it is. -/
theorem sentPath_eq (hbucket : Bucket.checkName bucket = .ok ()) (key : Option String) :
    sentPath bucket key = "/" ++ bucket ++ key.elim "" fun key => canonicalUri ("/" ++ key) := by
  have hname : bucket.toList.flatMap pathChar = bucket.toList := by
    refine (List.flatMap_congr fun c hc => ?_).trans (List.flatMap_singleton' _)
    exact pathChar_of_allowed (Bucket.mem_of_checkName hbucket hc)
  have hslash : pathChar '/' = ['/'] := if_pos rfl
  rw [← String.toList_inj, sentPath, toList_canonicalUri head?_pathOf, toList_pathOf,
    List.flatMap_cons, List.flatMap_append, hname, hslash]
  cases key with
  | none => simp
  | some key =>
    have hhead : ("/" ++ key).toList.head? = some '/' := by simp
    have hkey : ("/" ++ key).toList = '/' :: key.toList := by simp
    rw [Option.elim_some, Option.elim_some, String.toList_append, String.toList_append,
      toList_canonicalUri hhead, hkey]
    simp

/-- A canonical path consists of unreserved characters, slashes and escaped bytes, has the slashes
of the path and is read back as it. So the paths of objects and buckets are apart as they are sent,
and the name of a bucket stands in them as it is. -/
theorem sentPaths_apart :
    (∀ path : String, path.toList.head? = some '/' →
      Text.IsEscaped ['/'] (canonicalUri path).toList ∧
      (canonicalUri path).toList.count '/' = path.toList.count '/' ∧
      Text.percentDecode (canonicalUri path) = some path) ∧
    ∀ bucket key, Bucket.checkName bucket = .ok () →
      (∀ bucket' key', Bucket.checkName bucket' = .ok () →
        sentPath bucket key = sentPath bucket' key' → bucket = bucket' ∧ key = key') ∧
      sentPath bucket key =
        "/" ++ bucket ++ key.elim "" fun key => canonicalUri ("/" ++ key) := by
  refine ⟨fun path hpath => ⟨?_, count_canonicalUri hpath, percentDecode_canonicalUri hpath⟩,
    fun bucket key hbucket => ⟨fun bucket' key' hbucket' h => ?_, sentPath_eq hbucket key⟩⟩
  · rw [toList_canonicalUri hpath]
    exact .flatMap fun c _ => isEscaped_pathChar c
  · exact pathOf_inj (Bucket.slash_not_mem hbucket) (Bucket.slash_not_mem hbucket')
      (canonicalUri_inj head?_pathOf head?_pathOf h)

/-- A bucket, an empty key in it, keys of slashes, and keys with an escape and with what it stands
for have paths of their own. -/
theorem sentPaths_apart_of_slashes :
    Bucket.checkName "my-bucket" = .ok () ∧
      sentPath "my-bucket" ≠ sentPath "my-bucket" (some "") ∧
      sentPath "my-bucket" (some "") ≠ sentPath "my-bucket" (some "/") ∧
      sentPath "my-bucket" (some "a/b") ≠ sentPath "my-bucket" (some "a%2Fb") ∧
      sentPath "my-bucket" (some "ü/ %") = "/my-bucket/%C3%BC/%20%25" ∧
      Text.percentDecode "/my-bucket/%C3%BC/%20%25" = some "/my-bucket/ü/ %" := by
  have hname : Bucket.checkName "my-bucket" = .ok () := by decide +kernel
  have hapart : ∀ {key key' : Option String}, key ≠ key' →
      sentPath "my-bucket" key ≠ sentPath "my-bucket" key' := fun hne h =>
    hne ((sentPaths_apart.2 "my-bucket" _ hname).1 "my-bucket" _ hname h).2
  have hsent : canonicalUri "/my-bucket/ü/ %" = "/my-bucket/%C3%BC/%20%25" := by decide +kernel
  refine ⟨hname, hapart (by decide), hapart (by decide), hapart (by decide), hsent, ?_⟩
  rw [← hsent]
  exact (sentPaths_apart.1 _ (by decide)).2.2

end ObjectStore.Remote

end BucketTransfer
