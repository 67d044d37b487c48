import BucketTransfer.Json.Printer
import BucketTransfer.Json.Record
import BucketTransfer.Json.Sorted

/-!
# Policies

What a credential is issued for. The policy of an issued credential lets it put objects into one
bucket and do nothing else.
-/
namespace BucketTransfer.Identity

structure Statement where
  effect : String
  actions : List String
  resources : List String
  deriving DecidableEq, Repr

structure Policy where
  version : String
  statements : List Statement
  deriving DecidableEq, Repr

namespace Statement

def toJson (s : Statement) : Json :=
  .object [("Effect", .string s.effect), ("Action", .array (s.actions.map .string)),
    ("Resource", .array (s.resources.map .string))]

def reader : Json.Reader Statement :=
  (Json.Fields.and (.required "Effect" Json.Reader.string) <|
    .and (.required "Action" (.list Json.Reader.string)) <|
    .and (.required "Resource" (.list Json.Reader.string)) .none).into
    fun (effect, actions, resources, ()) => ⟨effect, actions, resources⟩

end Statement

/-- The resource that stands for all objects of a bucket. -/
def objectsOf (bucket : String) : String := s!"obs:*:*:object:{bucket}/*"

namespace Policy

def toJson (p : Policy) : Json :=
  .object [("Version", .string p.version), ("Statement", .array (p.statements.map (·.toJson)))]

def reader : Json.Reader Policy :=
  (Json.Fields.and (.required "Version" Json.Reader.string) <|
    .and (.required "Statement" (.list Statement.reader)) .none).into
    fun (version, statements, ()) => ⟨version, statements⟩

/-- Objects may be put into a bucket, and nothing else may be done. -/
def putOnly (bucket : String) : Policy :=
  ⟨"1.1", [⟨"Allow", ["obs:object:PutObject"], [objectsOf bucket]⟩]⟩

end Policy

/-- A request for a credential. -/
structure TokenRequest where
  seconds : Nat
  policy : Policy
  deriving DecidableEq, Repr

/-- The document of a request. -/
def TokenRequest.toJson (r : TokenRequest) : Json :=
  let token : Json := .object [("duration_seconds", .nat r.seconds)]
  let identity : Json := .object [("methods", .array [.string "token"]), ("token", token),
    ("policy", r.policy.toJson)]
  (Json.object [("auth", .object [("identity", identity)])]).sorted

end BucketTransfer.Identity
