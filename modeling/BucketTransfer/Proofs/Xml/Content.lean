import BucketTransfer.Proofs.Utf8
import BucketTransfer.Xml.Reader

/-!
# Well-formed documents

What stands in an element, as a tree, with the bytes that it is written in and the events that these
are. Whatever a tree holds is well-formed: no text holds markup, no comment its own end, and every
element that is opened is closed under the same name.
-/
namespace BucketTransfer.Xml
open Event (ascii isSpace isMarkup isReferenceEnd)

/-- What all bytes or characters of a text are like is decided along the text, not along all bytes
or characters that there are. -/
scoped instance (priority := high) decidableForallMem {α : Type} (p : α → Prop) [DecidablePred p]
    (l : List α) : Decidable (∀ a ∈ l, p a) :=
  List.decidableBAll p l

/-- A text in which no markup starts. -/
structure Run where
  text : String
  plain : ∀ c ∈ text.toList, c ≠ '<' ∧ c ≠ '&' := by decide

namespace Run

def empty : Run := ⟨"", by decide⟩

def bytes (r : Run) : Bytes := utf8 r.text

def events (r : Run) : List Event := if r.bytes = [] then [] else [.text r.bytes]

end Run

/-- A reference to a character or an entity. -/
structure Reference where
  name : Bytes
  whole : ∀ b ∈ name, isReferenceEnd b = false := by decide

namespace Reference

def bytes (r : Reference) : Bytes := ascii '&' :: (r.name ++ [ascii ';'])

end Reference

/-- What does not count as content: a comment, character data, or an instruction, with what stands
between its marks. The declaration at the front of a document is written as an instruction. -/
inductive Aside where
  | comment (content : Bytes) (whole : ¬utf8 "-->" <:+: content)
  | characterData (content : Bytes) (whole : ¬utf8 "]]>" <:+: content)
  | instruction (content : Bytes) (whole : ¬utf8 "?>" <:+: ascii '?' :: content)

namespace Aside

def bytes : Aside → Bytes
  | .comment content _ => utf8 "<!--" ++ content ++ utf8 "-->"
  | .characterData content _ => utf8 "<![CDATA[" ++ content ++ utf8 "]]>"
  | .instruction content _ => utf8 "<?" ++ content ++ utf8 "?>"

end Aside

/-- A byte of a name: of a letter, a digit, one of four marks, or a character beyond ASCII. -/
def isNameByte (b : UInt8) : Bool :=
  decide (0x80 ≤ b) || decide (0x30 ≤ b ∧ b ≤ 0x39) || decide (0x41 ≤ b ∧ b ≤ 0x5a)
    || decide (0x61 ≤ b ∧ b ≤ 0x7a) || b == ascii '-' || b == ascii '.' || b == ascii '_'
    || b == ascii ':'

/-- A byte that neither ends a tag nor opens a value in it. -/
def isUnquoted (b : UInt8) : Bool := b != ascii '>' && b != ascii '"' && b != ascii '\''

/-- An attribute: what leads to its value (a blank, its name, the equals sign), and the value in
quotes of either kind. -/
structure Attribute where
  lead : Bytes
  quote : UInt8
  value : Bytes
  blank : lead.head?.any isSpace = true := by decide
  unquoted : ∀ b ∈ lead, isUnquoted b = true := by decide
  quotes : quote = ascii '"' ∨ quote = ascii '\'' := by decide
  whole : quote ∉ value := by decide

namespace Attribute

def bytes (a : Attribute) : Bytes := a.lead ++ a.quote :: (a.value ++ [a.quote])

end Attribute

/-- The tags of an element. -/
structure Tag where
  name : String
  attributes : List Attribute := []
  /-- The blanks at the end of the start tag. -/
  space : Bytes := []
  /-- The blanks at the end of the end tag. -/
  closing : Bytes := []
  ne_nil : utf8 name ≠ [] := by decide
  named : ∀ b ∈ utf8 name, isNameByte b = true := by decide
  space_blank : ∀ b ∈ space, isSpace b = true := by decide
  closing_blank : ∀ b ∈ closing, isSpace b = true := by decide

namespace Tag

/-- What stands between the angle brackets of the start tag. -/
def inside (t : Tag) : Bytes := utf8 t.name ++ (t.attributes.flatMap Attribute.bytes ++ t.space)

def startBytes (t : Tag) : Bytes := ascii '<' :: (t.inside ++ [ascii '>'])

/-- The tag of the element if that is empty. -/
def emptyBytes (t : Tag) : Bytes := ascii '<' :: (t.inside ++ [ascii '/', ascii '>'])

def endBytes (t : Tag) : Bytes :=
  ascii '<' :: ascii '/' :: (utf8 t.name ++ t.closing ++ [ascii '>'])

end Tag

/-- The content of an element: text, and other things with text before each of them. -/
inductive Content where
  | text (last : Run)
  | reference (before : Run) (name : Reference) (rest : Content)
  | aside (before : Run) (skipped : Aside) (rest : Content)
  /-- An element without content, in one tag. -/
  | empty (before : Run) (tag : Tag) (rest : Content)
  /-- An element with a start tag and an end tag. -/
  | element (before : Run) (tag : Tag) (inner rest : Content)

/-- What belongs to one name. -/
def ofName {α : Type} (name : String) (es : List (String × α)) : List α :=
  (es.filter fun e => e.1 = name).map (·.2)

namespace Content

def bytes : Content → Bytes
  | .text last => last.bytes
  | .reference before name rest => before.bytes ++ name.bytes ++ rest.bytes
  | .aside before skipped rest => before.bytes ++ skipped.bytes ++ rest.bytes
  | .empty before tag rest => before.bytes ++ tag.emptyBytes ++ rest.bytes
  | .element before tag inner rest =>
    before.bytes ++ tag.startBytes ++ inner.bytes ++ tag.endBytes ++ rest.bytes

def events : Content → List Event
  | .text last => last.events
  | .reference before name rest => before.events ++ .reference name.name :: rest.events
  | .aside before _ rest => before.events ++ .other :: rest.events
  | .empty before _ rest => before.events ++ .empty :: rest.events
  | .element before tag inner rest =>
    before.events ++ .start (utf8 tag.name) :: (inner.events ++ .finish :: rest.events)

/-- The elements that have a start tag: the name and the content of each, in order. -/
def elements : Content → List (String × Content)
  | .text _ => []
  | .reference _ _ rest => rest.elements
  | .aside _ _ rest => rest.elements
  | .empty _ _ rest => rest.elements
  | .element _ tag inner rest => (tag.name, inner) :: rest.elements

/-- The contents of the elements of one name. -/
def named (c : Content) (name : String) : List Content := ofName name c.elements

/-- Blanks and asides only, as around the root element of a document. -/
def IsMargin : Content → Prop
  | .text last => ∀ b ∈ last.bytes, isSpace b = true
  | .aside before _ rest => (∀ b ∈ before.bytes, isSpace b = true) ∧ rest.IsMargin
  | _ => False

end Content

/-- A document up to its root element. -/
structure Opening where
  /-- Whether a byte order mark stands in front. -/
  marked : Bool := false
  prolog : Content := .text .empty
  root : Tag
  prolog_margin : prolog.IsMargin := by simp [Content.IsMargin]; decide

namespace Opening

def front (o : Opening) : Bytes := (if o.marked then [0xef, 0xbb, 0xbf] else []) ++ o.prolog.bytes

/-- The document up to the content of its root. -/
def bytes (o : Opening) : Bytes := o.front ++ o.root.startBytes

/-- The document with an empty root in one tag. -/
def emptyBytes (o : Opening) : Bytes := o.front ++ o.root.emptyBytes

end Opening

/-- A document whose root has a start tag and an end tag. -/
structure Document extends Opening where
  content : Content
  epilog : Content := .text .empty
  epilog_margin : epilog.IsMargin := by simp [Content.IsMargin]; decide

namespace Document

def bytes (d : Document) : Bytes :=
  d.toOpening.bytes ++ (d.content.bytes ++ (d.root.endBytes ++ d.epilog.bytes))

/-- The document with other content in its root. -/
def holding (d : Document) (c : Content) : Document := { d with content := c }

end Document

end BucketTransfer.Xml
