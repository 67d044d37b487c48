import BucketTransfer.Xml.Event
import BucketTransfer.Text.Blank

/-!
# Reading elements

Readers of what stands between a start tag and its end tag. A text ends at the first end tag, also
that of an element inside it; character data, comments and empty elements do not count. Of an
element, each child with a start tag is read by its name.
-/
namespace BucketTransfer.Xml

/-- Reads events up to an end tag. -/
structure Reader (α : Type) where
  read : List Event → Except Error (α × List Event)
  shorter : ∀ {events value rest}, read events = .ok (value, rest) →
    rest.length < events.length

/-- The character that a number stands for. -/
def characterOf (number : List Char) : Except CharacterFault Char := do
  let (base, digits) := match number with
    | 'x' :: digits => (16, digits)
    | digits => (10, digits)
  if digits.head? = some '+' || digits.head? = some '-' then .error .sign
  else match Text.readUnsigned base Text.maxU32 digits with
    | .error e => .error (.number e)
    | .ok code =>
      if code = 0 then .error .zero
      else if code.isValidChar then .ok (Char.ofNat code)
      else .error (.noCharacter code)

/-- What the five names that need no declaration stand for. -/
def entityOf : String → Option Char
  | "lt" => some '<'
  | "gt" => some '>'
  | "amp" => some '&'
  | "apos" => some '\''
  | "quot" => some '"'
  | _ => none

def decodeText (content : Bytes) : Except Error (List Char) :=
  match Utf8.decode content with
  | .ok cs => .ok cs
  | .error e => .error (.value (.text e))

/-- What a reference stands for. -/
def resolve (name : Bytes) : Except Error Char :=
  match name with
  | 0x23 :: number => do
    match characterOf (← decodeText number) with
    | .ok c => .ok c
    | .error e => .error (.value (.character e))
  | _ => do
    let shown := String.ofList (← decodeText name)
    match entityOf shown with
    | some c => .ok c
    | none => .error (.value (.entity shown))

/-- The text up to the next end tag; `done` holds what was read, in pieces, last first. -/
def textFrom (done : List (List Char)) : List Event → Except Error (String × List Event)
  | [] => .error (.early .inText)
  | .fault e :: _ => .error e
  | .finish :: rest => .ok (String.ofList done.reverse.flatten, rest)
  | .text content :: rest =>
    match decodeText content with
    | .error e => .error e
    | .ok cs => textFrom (cs :: done) rest
  | .reference name :: rest =>
    match resolve name with
    | .error e => .error e
    | .ok c => textFrom ([c] :: done) rest
  | .start _ :: rest => textFrom done rest
  | .empty :: rest => textFrom done rest
  | .other :: rest => textFrom done rest

theorem length_of_textFrom {done : List (List Char)} {events rest : List Event} {s : String}
    (h : textFrom done events = .ok (s, rest)) : rest.length < events.length := by
  fun_induction textFrom done events <;> simp_all <;> omega

/-- Passes events up to the end of the outermost of several open elements. -/
def skipFrom (depth : Nat) : List Event → Except Error (Unit × List Event)
  | [] => .error (.early .inSkipped)
  | .fault e :: _ => .error e
  | .start _ :: rest => skipFrom (depth + 1) rest
  | .finish :: rest => if depth ≤ 1 then .ok ((), rest) else skipFrom (depth - 1) rest
  | .empty :: rest => skipFrom depth rest
  | .text _ :: rest => skipFrom depth rest
  | .reference _ :: rest => skipFrom depth rest
  | .other :: rest => skipFrom depth rest

theorem length_of_skipFrom {depth : Nat} {events rest : List Event} {u : Unit}
    (h : skipFrom depth events = .ok (u, rest)) : rest.length < events.length := by
  fun_induction skipFrom depth events <;> simp_all <;> omega

/-- Reads the children of an element up to its end, each by the reader for its name. -/
def childrenFrom {σ : Type} (child : String → σ → Reader σ) (state : σ) (events : List Event) :
    Except Error (σ × List Event) :=
  match events with
  | [] => .error (.early .inElement)
  | .fault e :: _ => .error e
  | .finish :: rest => .ok (state, rest)
  | .start name :: inner =>
    match Utf8.decode name with
    | .error e => .error (.value (.tagName e))
    | .ok name =>
      match _ : (child (String.ofList name) state).read inner with
      | .error e => .error e
      | .ok (state, rest) => childrenFrom child state rest
  | .empty :: rest => childrenFrom child state rest
  | .text _ :: rest => childrenFrom child state rest
  | .reference _ :: rest => childrenFrom child state rest
  | .other :: rest => childrenFrom child state rest
termination_by events.length
decreasing_by
  all_goals simp only [List.length_cons]
  · have := (child _ _).shorter ‹_›
    omega
  all_goals omega

theorem length_of_childrenFrom {σ : Type} {child : String → σ → Reader σ} {state final : σ}
    {events rest : List Event} (h : childrenFrom child state events = .ok (final, rest)) :
    rest.length < events.length := by
  fun_induction childrenFrom child state events with
  | case1 => cases h
  | case2 => cases h
  | case3 => cases h; simp
  | case4 => cases h
  | case5 => cases h
  | case6 _ _ _ _ _ _ _ hs ih =>
    have := (child _ _).shorter hs
    have := ih h
    simp only [List.length_cons]
    omega
  | case7 _ _ ih => exact Nat.lt_succ_of_lt (ih h)
  | case8 _ _ _ ih => exact Nat.lt_succ_of_lt (ih h)
  | case9 _ _ _ ih => exact Nat.lt_succ_of_lt (ih h)
  | case10 _ _ ih => exact Nat.lt_succ_of_lt (ih h)

namespace Reader
variable {α β σ : Type}

def text : Reader String := ⟨textFrom [], length_of_textFrom⟩

def skip : Reader Unit := ⟨skipFrom 1, length_of_skipFrom⟩

def children (child : String → σ → Reader σ) (state : σ) : Reader σ :=
  ⟨childrenFrom child state, length_of_childrenFrom⟩

/-- Makes something of what was read. -/
def bind (r : Reader α) (f : α → Except Error β) : Reader β where
  read events :=
    match r.read events with
    | .error e => .error e
    | .ok (a, rest) =>
      match f a with
      | .error e => .error e
      | .ok b => .ok (b, rest)
  shorter h := by
    repeat' split at h
    · cases h
    · cases h
    · cases h; exact r.shorter ‹_›

def map (f : α → β) (r : Reader α) : Reader β := r.bind fun a => .ok (f a)

/-- Passes a child that does not matter. -/
def ignore (state : σ) : Reader σ := skip.map fun _ => state

/-- Reads the root element of a document. -/
def document (r : Reader α) : List Event → Except Error α
  | [] => .error (.missing "root element")
  | .fault e :: _ => .error e
  | .start _ :: inner => (r.read inner).map (·.1)
  | .finish :: rest => r.document rest
  | .empty :: rest => r.document rest
  | .text _ :: rest => r.document rest
  | .reference _ :: rest => r.document rest
  | .other :: rest => r.document rest

/-- Reads a document whose root element has a given name. -/
def documentNamed (name : Bytes) (r : Reader α) : List Event → Option α
  | [] => none
  | .fault _ :: _ => none
  | .start found :: inner => if found = name then (r.read inner).toOption.map (·.1) else none
  | .finish :: rest => r.documentNamed name rest
  | .empty :: rest => r.documentNamed name rest
  | .text _ :: rest => r.documentNamed name rest
  | .reference _ :: rest => r.documentNamed name rest
  | .other :: rest => r.documentNamed name rest

/-- An unsigned number with blanks around it. -/
def natural : Reader Nat := text.bind fun s =>
  match Text.readUnsigned 10 Text.maxU64 (Text.trim s).toList with
  | .ok n => .ok n
  | .error e => .error (.value (.number s e))

def truth : Reader Bool := text.bind fun s =>
  if Text.trim s = "true" then .ok true
  else if Text.trim s = "false" then .ok false
  else .error (.value (.truth s))

end Reader

end BucketTransfer.Xml
