import BucketTransfer.KeyMap
import BucketTransfer.Json.Printer
import BucketTransfer.Json.Reader

/-!
# Data addresses

Where data lies, as a map of properties. A property whose value is empty counts as absent.
-/
namespace BucketTransfer

structure DataAddress where
  properties : KeyMap String := ∅
  deriving DecidableEq

namespace DataAddress

/-- The type of addresses of objects in buckets. -/
def bucketType : String := "HuaweiObs"

def typeKey : String := "type"
def bucketNameKey : String := "bucketName"
def endpointKey : String := "endpoint"
def keyPrefixKey : String := "keyPrefix"
def objectNameKey : String := "objectName"
def keyNameKey : String := "keyName"

/-- The address with a property set. -/
def set (a : DataAddress) (key value : String) : DataAddress := ⟨a.properties.insert key value⟩

/-- An address of which only the type is known. -/
def ofType (type : String) : DataAddress := (⟨∅⟩ : DataAddress).set typeKey type

/-- The address of a bucket. -/
def ofBucket (bucket endpoint : String) : DataAddress :=
  ((ofType bucketType).set bucketNameKey bucket).set endpointKey endpoint

/-- A property that is there and not empty. -/
def property (a : DataAddress) (key : String) : Option String :=
  (a.properties.get? key).filter fun v => !v.isEmpty

def type (a : DataAddress) : Option String := a.property typeKey
def bucketName (a : DataAddress) : Option String := a.property bucketNameKey
def endpoint (a : DataAddress) : Option String := a.property endpointKey
def keyPrefix (a : DataAddress) : String := (a.property keyPrefixKey).getD ""
def objectName (a : DataAddress) : Option String := a.property objectNameKey
def keyName (a : DataAddress) : Option String := a.property keyNameKey

def toJson (a : DataAddress) : Json :=
  .object (a.properties.entries.map fun e => (e.1, .string e.2))

def reader : Json.Reader DataAddress := fun depth =>
  (Json.Reader.string.map depth).map fun properties => ⟨properties⟩

end DataAddress

end BucketTransfer
