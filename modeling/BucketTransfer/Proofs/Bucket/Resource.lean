import BucketTransfer.Bucket.Resource
import BucketTransfer.Credential
import BucketTransfer.DataAddress.Violation
import BucketTransfer.Proofs.Json.Records
import BucketTransfer.Proofs.KeyMap.Lookup

/-!
# What a provided bucket is used with

The address of a provided bucket can be used if the bucket could be provided, and it says what was
asked for. The credential for it is read back as it was issued from the text that is kept of it, and
so is the bucket itself.
-/
namespace BucketTransfer

namespace TemporaryCredential
open Json

/-- A credential whose time has 64 bits is read back from its text. -/
theorem ofText_text (c : TemporaryCredential) (hleast : -(Text.maxI64 : Int) - 1 ≤ c.expiresAt)
    (hgreatest : c.expiresAt ≤ Text.maxI64) : ofText c.toJson.text = .ok c := by
  have hlast : c.expiresAt ≤ Text.maxU64 := by
    simp only [Text.maxI64, Text.maxU64] at hgreatest ⊢
    omega
  have hstring := Reader.reads_string (128 - 1)
  have hprints := Fields.Prints.and (.required "ak" Reader.string) _ _ _ _ _ (hstring c.accessKey)
    (by simp [Field.required, Field.defaulted]) <|
    .and (.required "sk" Reader.string) _ _ _ _ _ (hstring c.secretKey)
      (by simp [Field.required, Field.defaulted]) <|
    .and (.required "token" Reader.string) _ _ _ _ _ (hstring c.securityToken)
      (by simp [Field.required, Field.defaulted]) <|
    .and (.defaulted "expiration" (Reader.integer (-Text.maxI64 - 1) Text.maxI64) 0) _ _ _ _ _
      (Reader.reads_integer hleast hgreatest hleast hlast) (by simp) .none
  exact (hprints.reads_into (by decide) _).complete .compact

/-- The text of a credential: an object of its four fields, from which the same credential is read
if its time has 64 bits. -/
structure WrittenAs (c : TemporaryCredential) (text : String) : Prop where
  text_eq : text = (Json.object [("ak", .string c.accessKey), ("sk", .string c.secretKey),
    ("token", .string c.securityToken), ("expiration", .int c.expiresAt)]).text
  read : -(Text.maxI64 : Int) - 1 ≤ c.expiresAt → c.expiresAt ≤ Text.maxI64 → ofText text = .ok c

theorem writtenAs_text (c : TemporaryCredential) : c.WrittenAs c.toJson.text :=
  ⟨rfl, c.ofText_text⟩

end TemporaryCredential

namespace DataAddress
variable {a : DataAddress} {key value other : String}

/-- A value that is there, unless it is empty. -/
def present (value : String) : Option String := (some value).filter fun v => !v.isEmpty

theorem present_of_ne (h : value ≠ "") : present value = some value := by
  simp [present, h]

theorem reads_toJson {depth : Nat} (hdepth : 1 < depth) (a : DataAddress) :
    DataAddress.reader.Reads depth a.toJson a := fun layout _ _ hblank hrest =>
  Json.Scanner.scan_map_of_scan _
    (Json.Reader.reads_map hdepth a.properties (Json.Reader.reads_string _) layout hblank hrest)

theorem property_set (a : DataAddress) (key value other : String) :
    (a.set key value).property other = if other = key then present value else a.property other := by
  rw [property, set, KeyMap.get?_insert]
  split <;> rfl

end DataAddress

namespace Bucket
open Json

theorem Descriptor.reads_toJson {depth : Nat} (hdepth : 1 < depth) (d : Descriptor) :
    Descriptor.reader.Reads depth d.toJson d := by
  have hstring := Reader.reads_string (depth - 1)
  have hprints := Fields.Prints.and (.required "id" Reader.string) _ _ _ _ _ (hstring d.id)
    (by simp [Field.required]) <|
    .and (.required "transferProcessId" Reader.string) _ _ _ _ _ (hstring d.transferProcessId)
      (by simp [Field.required]) <|
    .and (.required "bucketName" Reader.string) _ _ _ _ _ (hstring d.bucketName)
      (by simp [Field.required]) <|
    .and (.required "endpoint" Reader.string) _ _ _ _ _ (hstring d.endpoint)
      (by simp [Field.required]) <|
    .and (.required "keyPrefix" Reader.string) _ _ _ _ _ (hstring d.keyPrefix) (by simp) .none
  exact hprints.reads_into hdepth _

theorem Provisioned.reads_toJson {depth : Nat} (hdepth : 2 < depth) (p : Provisioned) :
    Provisioned.reader.Reads depth p.toJson p := by
  have hinner : 1 < depth - 1 := Nat.lt_sub_of_add_lt hdepth
  have hprints := Fields.Prints.and (.required "descriptor" Descriptor.reader) _ _ _ _ _
    (p.descriptor.reads_toJson hinner) (by simp [Field.required]) <|
    .and (.required "secretKeyReference" Reader.string) _ _ _ _ _
      (Reader.reads_string (depth - 1) p.secretKey) (by simp [Field.required]) <|
    .and (.required "dataAddress" DataAddress.reader) _ _ _ _ _ (p.address.reads_toJson hinner)
      (by simp) .none
  exact hprints.reads_into (Nat.lt_of_succ_lt hdepth) _

/-- A provided bucket is read back from its text, whether that is indented or not. -/
theorem Provisioned.complete_write (p : Provisioned) (layout : Layout) :
    Provisioned.reader.complete (layout.write p.toJson) = .ok p :=
  (p.reads_toJson (by decide)).complete layout

end Bucket

namespace Bucket.Provisioned
open DataAddress
variable {d : Descriptor} {secretKey : String}

/-- The address of a provided bucket has these properties, unless they are empty. -/
theorem property_ofDescriptor (d : Descriptor) (secretKey key : String) :
    (ofDescriptor d secretKey).address.property key =
      if key = keyPrefixKey then present d.keyPrefix
      else if key = keyNameKey then present secretKey
      else if key = endpointKey then present d.endpoint
      else if key = bucketNameKey then present d.bucketName
      else if key = typeKey then some bucketType
      else none := by
  have hempty : (⟨∅⟩ : DataAddress).property key = none := rfl
  have htype : present bucketType = some bucketType := by decide
  simp only [ofDescriptor]
  split
  case isTrue hprefix =>
    have habsent : present d.keyPrefix = none := by simpa [present] using hprefix
    simp only [ofBucket, ofType, property_set, hempty, htype, habsent]
    by_cases hkey : key = keyPrefixKey
    · simp [hkey, keyPrefixKey, keyNameKey, endpointKey, bucketNameKey, typeKey]
    · rw [if_neg hkey]
  case isFalse => simp only [ofBucket, ofType, property_set, hempty, htype]

theorem keyName_address (h : secretKey ≠ "") :
    (ofDescriptor d secretKey).address.keyName = some secretKey := by
  rw [keyName, property_ofDescriptor, if_neg (by decide), if_pos rfl, present_of_ne h]

theorem keyPrefix_address : (ofDescriptor d secretKey).address.keyPrefix = d.keyPrefix := by
  rw [keyPrefix, property_ofDescriptor, if_pos rfl]
  by_cases h : d.keyPrefix = ""
  · rw [h]
    rfl
  · rw [present_of_ne h]
    rfl

theorem endpoint_address (h : d.endpoint ≠ "") :
    (ofDescriptor d secretKey).address.endpoint = some d.endpoint := by
  rw [endpoint, property_ofDescriptor, if_neg (by decide), if_neg (by decide), if_pos rfl,
    present_of_ne h]

theorem bucketName_address (h : checkName d.bucketName = .ok ()) :
    (ofDescriptor d secretKey).address.bucketName = some d.bucketName := by
  have hne : d.bucketName ≠ "" := by
    intro heq
    rw [heq] at h
    exact absurd h (by decide +kernel)
  rw [bucketName, property_ofDescriptor, if_neg (by decide), if_neg (by decide),
    if_neg (by decide), if_pos rfl, present_of_ne hne]

/-- An address can be used if the name of the bucket is allowed and there is an endpoint. -/
theorem violations_address (hname : checkName d.bucketName = .ok ()) (hendpoint : d.endpoint ≠ "") :
    (ofDescriptor d secretKey).address.violations = [] := by
  have htype : (ofDescriptor d secretKey).address.type = some bucketType := by
    rw [type, property_ofDescriptor, if_neg (by decide), if_neg (by decide), if_neg (by decide),
      if_neg (by decide), if_pos rfl]
  simp only [violations, htype, bucketName_address hname, endpoint_address hendpoint, hname]
  rfl

end Bucket.Provisioned

end BucketTransfer
