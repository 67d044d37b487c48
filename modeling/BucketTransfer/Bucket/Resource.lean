import BucketTransfer.DataAddress
import BucketTransfer.Json.Record

/-!
# Bucket resources

What a transfer asks for, and what it gets once the bucket and its credential are there.
-/
namespace BucketTransfer.Bucket

/-- A bucket that is to be provided for a transfer. -/
structure Descriptor where
  id : String
  transferProcessId : String
  bucketName : String
  endpoint : String
  keyPrefix : String := ""
  deriving DecidableEq, Repr

namespace Descriptor

def toJson (d : Descriptor) : Json :=
  .object [("id", .string d.id), ("transferProcessId", .string d.transferProcessId),
    ("bucketName", .string d.bucketName), ("endpoint", .string d.endpoint),
    ("keyPrefix", .string d.keyPrefix)]

def reader : Json.Reader Descriptor :=
  (Json.Fields.and (.required "id" Json.Reader.string) <|
    .and (.required "transferProcessId" Json.Reader.string) <|
    .and (.required "bucketName" Json.Reader.string) <|
    .and (.required "endpoint" Json.Reader.string) <|
    .and (.required "keyPrefix" Json.Reader.string) .none).into
    fun (id, transferProcessId, bucketName, endpoint, keyPrefix, ()) =>
      ⟨id, transferProcessId, bucketName, endpoint, keyPrefix⟩

end Descriptor

/-- A bucket that has been provided, with the address under which it can be used and the key of the
secret that lets one use it. -/
structure Provisioned where
  descriptor : Descriptor
  secretKey : String
  address : DataAddress
  deriving DecidableEq

namespace Provisioned

/-- The address names the bucket, its endpoint, the secret, and the key prefix unless it is empty.
-/
def ofDescriptor (d : Descriptor) (secretKey : String) : Provisioned :=
  let address := (DataAddress.ofBucket d.bucketName d.endpoint).set DataAddress.keyNameKey secretKey
  ⟨d, secretKey,
    if d.keyPrefix.isEmpty then address else address.set DataAddress.keyPrefixKey d.keyPrefix⟩

def toJson (p : Provisioned) : Json :=
  .object [("descriptor", p.descriptor.toJson), ("secretKeyReference", .string p.secretKey),
    ("dataAddress", p.address.toJson)]

def reader : Json.Reader Provisioned :=
  (Json.Fields.and (.required "descriptor" Descriptor.reader) <|
    .and (.required "secretKeyReference" Json.Reader.string) <|
    .and (.required "dataAddress" DataAddress.reader) .none).into
    fun (descriptor, secretKey, address, ()) => ⟨descriptor, secretKey, address⟩

end Provisioned

end BucketTransfer.Bucket
