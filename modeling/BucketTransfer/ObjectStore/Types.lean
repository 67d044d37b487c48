import BucketTransfer.Json.Printer
import BucketTransfer.Json.Record

/-!
# What object stores hold and answer
-/
namespace BucketTransfer.ObjectStore

/-- An object in a listing. -/
structure Summary where
  key : String := ""
  size : Nat := 0
  etag : Option String := none
  lastModified : Option String := none
  deriving DecidableEq, Repr

namespace Summary

def toJson (s : Summary) : Json :=
  .object [("key", .string s.key), ("size", .nat s.size), ("etag", .ofOption s.etag),
    ("lastModified", .ofOption s.lastModified)]

def reader : Json.Reader Summary :=
  (Json.Fields.and (.required "key" Json.Reader.string) <|
    .and (.required "size" (Json.Reader.natural Text.maxU64)) <|
    .and (.nullable "etag" Json.Reader.string) <|
    .and (.nullable "lastModified" Json.Reader.string) .none).into
    fun (key, size, etag, lastModified, ()) => ⟨key, size, etag, lastModified⟩

end Summary

/-- A page of a listing. -/
structure Page where
  objects : List Summary := []
  truncated : Bool := false
  nextMarker : Option String := none
  deriving DecidableEq, Repr

/-- Where the next page starts: after the marker that the page names, else after its last key. -/
def Page.continuation (p : Page) : Option String :=
  if !p.truncated then none
  else (p.nextMarker.filter fun m => !m.isEmpty).or (p.objects.getLast?.map (·.key))

/-- An upload in parts that has been started. -/
structure Upload where
  bucket : String
  key : String
  id : String
  deriving DecidableEq, Repr

/-- A part that has been uploaded. -/
structure CompletedPart where
  number : Nat
  etag : String
  deriving DecidableEq, Repr

namespace CompletedPart

def toJson (p : CompletedPart) : Json :=
  .object [("partNumber", .nat p.number), ("etag", .string p.etag)]

def reader : Json.Reader CompletedPart :=
  (Json.Fields.and (.required "partNumber" (Json.Reader.natural Text.maxU32)) <|
    .and (.required "etag" Json.Reader.string) .none).into
    fun (number, etag, ()) => ⟨number, etag⟩

end CompletedPart

/-- An object that a batch could not delete. -/
structure DeleteError where
  key : String
  code : String
  message : String
  deriving DecidableEq, Repr

structure DeleteResult where
  deleted : List String := []
  errors : List DeleteError := []
  deriving DecidableEq, Repr

end BucketTransfer.ObjectStore
