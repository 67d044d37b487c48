import BucketTransfer.Text.Blank
import BucketTransfer.Url.Host

/-!
# URLs

A URL is read from a text as browsers read it: blanks around it and line breaks inside it do not
count, letters of scheme and host become small, segments that are dots are resolved, and what a part
may not hold is percent-encoded.
-/
namespace BucketTransfer

structure Url where
  scheme : String
  host : Option String := none
  /-- The port, unless it is that of the scheme. -/
  port : Option Nat := none
  path : String := ""
  query : Option String := none
  fragment : Option String := none
  deriving DecidableEq, Repr

namespace Url

/-- The port of a scheme that has hosts of the usual kind. -/
def defaultPort : String → Option Nat
  | "http" | "ws" => some 80
  | "https" | "wss" => some 443
  | "ftp" => some 21
  | _ => none

def isSpecial (scheme : String) : Bool := (defaultPort scheme).isSome || scheme == "file"

/-- Encodes what is not ASCII, what cannot be printed, and the characters of a set. -/
def encodeWhere (also : List Char) (cs : List Char) : String :=
  String.ofList (cs.flatMap fun c =>
    if c.toNat < 0x20 ∨ 0x7f ≤ c.toNat ∨ c ∈ also then (Utf8.encode [c]).flatMap Text.escapeByte
    else [c])

def inFragment : List Char := [' ', '"', '<', '>', '\x60']
def inPath : List Char := inFragment ++ ['#', '?', '\x7b', '\x7d']
def inQuery (special : Bool) : List Char :=
  [' ', '"', '#', '<', '>'] ++ if special then ['\''] else []

/-- Splits at the first character that satisfies `p`, which stays with the second part. -/
def cut (p : Char → Bool) (cs : List Char) : List Char × List Char :=
  (cs.takeWhile fun c => !p c, cs.dropWhile fun c => !p c)

/-- Whether a segment is a dot, perhaps encoded. -/
def isDot (segment : List Char) : Bool :=
  segment == ['.'] || (String.ofList segment).map Char.toLower == "%2e"

def isTwoDots (segment : List Char) : Bool :=
  ["..", ".%2e", "%2e.", "%2e%2e"].contains ((String.ofList segment).map Char.toLower)

/-- Follows segments; `done` holds those before, the last one first. -/
def resolveFrom (done : List (List Char)) : List (List Char) → List (List Char)
  | [] => done.reverse
  | [last] =>
    if isTwoDots last then ([] :: done.drop 1).reverse
    else if isDot last then ([] :: done).reverse
    else (last :: done).reverse
  | segment :: rest =>
    if isTwoDots segment then resolveFrom (done.drop 1) rest
    else if isDot segment then resolveFrom done rest
    else resolveFrom (segment :: done) rest

/-- A path with its segments resolved. -/
def resolvedPath (special : Bool) (cs : List Char) : String :=
  let cs := if special then cs.map fun c => if c = '\\' then '/' else c else cs
  match cs with
  | [] => if special then "/" else ""
  | '/' :: rest =>
    "/" ++ "/".intercalate ((resolveFrom [] (Text.split '/' rest)).map (encodeWhere inPath))
  | rest =>
    "/" ++ "/".intercalate ((resolveFrom [] (Text.split '/' rest)).map (encodeWhere inPath))

/-- The part of an authority behind the name and password. -/
def withoutUser (authority : List Char) : List Char :=
  (authority.reverse.takeWhile (· != '@')).reverse

/-- Splits host and port; a colon between brackets belongs to the host. -/
def hostAndPort : List Char → List Char × List Char
  | '[' :: rest =>
    let (inner, tail) := cut (· == ']') rest
    let (more, port) := cut (· == ':') tail
    ('[' :: (inner ++ more), port)
  | cs => cut (· == ':') cs

/-- The port behind a host, from its colon on. -/
def portOf (scheme : String) : List Char → Except Error (Option Nat)
  | [] | [_] => .ok none
  | _ :: digits =>
    if !digits.all Char.isDigit then .error .port
    else
      match Text.readUnsigned 10 65535 digits with
      | .ok n => .ok (if defaultPort scheme = some n then none else some n)
      | .error _ => .error .port

/-- Reads what follows the slashes behind the scheme: host, port and the rest. -/
def ofAuthority (scheme : String) (rest : List Char) : Except Error Url := do
  let special := isSpecial scheme
  let (authority, tail) := cut (fun c => c == '/' || (special && c == '\\')) rest
  let (host, port) := hostAndPort (withoutUser authority)
  let path := resolvedPath special tail
  if scheme = "file" then
    if host.isEmpty then return { scheme, path }
    else
      let host ← specialHost host
      return { scheme, host := if host = "localhost" then none else some host, path }
  else if host.isEmpty then
    if special || !port.isEmpty || authority.contains '@' then .error .emptyHost
    else return { scheme, host := some "", path }
  else
    let host ← if special then specialHost host else opaqueHost host
    return { scheme, host := some host, port := ← portOf scheme port, path }

/-- Splits off the scheme and its colon. -/
def splitScheme (cs : List Char) : Option (String × List Char) :=
  match cut (· == ':') cs with
  | (first :: more, ':' :: rest) =>
    if first.isAlpha && more.all fun c => c.isAlphanum || c == '+' || c == '-' || c == '.' then
      some (String.ofList ((first :: more).map Char.toLower), rest)
    else none
  | _ => none

/-- What counts of a text that is read as a URL. -/
def relevant (s : String) : List Char :=
  (Text.trimWhere (fun c => decide (c.toNat ≤ 0x20)) s.toList).filter fun c =>
    !(c == '\t' || c == '\n' || c == '\r')

/-- Reads a URL. -/
def parse (s : String) : Except Error Url :=
  match splitScheme (relevant s) with
  | none => .error .noScheme
  | some (scheme, rest) => do
    let special := isSpecial scheme
    let (rest, fragment) := cut (· == '#') rest
    let (rest, query) := cut (· == '?') rest
    let isSlash (c : Char) : Bool := c == '/' || (special && c == '\\')
    let url ←
      if special && scheme != "file" then ofAuthority scheme (rest.dropWhile isSlash)
      else match rest with
        | a :: b :: more =>
          if isSlash a && isSlash b then ofAuthority scheme more
          else .ok { scheme, path := pathOf special (a :: b :: more) }
        | rest => .ok { scheme, path := pathOf special rest }
    return { url with
      query := query.tail?.map (encodeWhere (inQuery special))
      fragment := fragment.tail?.map (encodeWhere inFragment) }
where
  /-- The path of a URL without a host. -/
  pathOf (special : Bool) (cs : List Char) : String :=
    if special || cs.head? == some '/' then resolvedPath special cs else encodeWhere [] cs

/-- The host and, unless it is the scheme's, the port. -/
def hostText (u : Url) : Option String :=
  u.host.bind fun host =>
    if host.isEmpty then none
    else some (host ++ (u.port.elim "" fun n => s!":{n}"))

/-- The text of a URL. -/
def text (u : Url) : String :=
  u.scheme ++ ":" ++ (u.host.elim "" fun host => "//" ++ host ++ u.port.elim "" fun n => s!":{n}")
    ++ u.path ++ (u.query.elim "" fun q => "?" ++ q) ++ (u.fragment.elim "" fun f => "#" ++ f)

end Url

end BucketTransfer
