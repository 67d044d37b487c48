import BucketTransfer.Utf8
import BucketTransfer.Text.Number

/-!
# What is wrong with a document

Markup that never ends, tags that do not match, references that stand for nothing, and values or
elements that are not as expected.
-/
namespace BucketTransfer.Xml

/-- Markup that ends nowhere, or is of no kind. -/
inductive Markup where
  | tag
  | comment
  | characterData
  | instruction
  | declaration
  | documentType
  | singleQuoted
  | doubleQuoted
  | unknown
  deriving DecidableEq, Repr

def Markup.message : Markup → String
  | .tag => unclosed "tag" ">"
  | .comment => unclosed "comment" "-->"
  | .characterData => unclosed "CDATA" "]]>"
  | .instruction => unclosed "processing instruction" "?>"
  | .declaration => unclosed "XML declaration" "?>"
  | .documentType => unclosed "DOCTYPE" ">"
  | .singleQuoted => unclosed "attribute value" "'"
  | .doubleQuoted => unclosed "attribute value" "\""
  | .unknown => "unknown or missed symbol in markup"
where
  unclosed (kind ending : String) : String :=
    kind ++ " not closed: \x60" ++ ending ++ "\x60 not found before end of input"

/-- Tags and references that do not fit together. -/
inductive IllFormed where
  | mismatch (expected found : String)
  | unmatched (found : String)
  | openReference
  | namelessDocumentType
  deriving DecidableEq, Repr

def IllFormed.message : IllFormed → String
  | .mismatch expected found =>
    "expected \x60</" ++ expected ++ ">\x60, but \x60</" ++ found ++ ">\x60 was found"
  | .unmatched found => "close tag \x60</" ++ found ++ ">\x60 does not match any open tag"
  | .openReference =>
    "entity or character reference not closed: \x60;\x60 not found before end of input"
  | .namelessDocumentType =>
    "\x60<!DOCTYPE>\x60 declaration does not contain a name of a document type"

/-- Why a reference to a character stands for none. -/
inductive CharacterFault where
  | sign
  | number (fault : Text.NumberFault)
  | zero
  | noCharacter (code : Nat)
  deriving DecidableEq, Repr

def CharacterFault.message : CharacterFault → String
  | .sign => "unexpected number sign"
  | .number fault => fault.message
  | .zero => "0x0 character is not permitted in XML"
  | .noCharacter code => "\x60" ++ toString code ++ "\x60 is not a valid codepoint"

/-- Why a value cannot be read. -/
inductive ValueFault where
  | tagName (fault : Utf8.Fault)
  | text (fault : Utf8.Fault)
  | entity (found : String)
  | character (fault : CharacterFault)
  | number (found : String) (fault : Text.NumberFault)
  | truth (found : String)
  deriving DecidableEq, Repr

def ValueFault.message : ValueFault → String
  | .tagName fault => fault.message
  | .text fault => "cannot decode input using UTF-8: " ++ fault.message
  | .entity found => s!"unknown entity &{found};"
  | .character fault => "invalid character reference: " ++ fault.message
  | .number found fault => s!"invalid u64 '{found}': {fault.message}"
  | .truth found => s!"invalid boolean: {found}"

/-- Where a document ends too early. -/
inductive Early where
  | inText
  | inSkipped
  | inElement
  deriving DecidableEq, Repr

def Early.message : Early → String
  | .inText => "unexpected EOF while reading text content"
  | .inSkipped => "unexpected EOF while skipping element"
  | .inElement => "unexpected EOF in element"

inductive Error where
  | markup (kind : Markup)
  | illFormed (fault : IllFormed)
  | missing (element : String)
  | early (place : Early)
  | value (fault : ValueFault)
  deriving DecidableEq, Repr

def Error.message : Error → String
  | .markup kind => "XML processing error: syntax error: " ++ kind.message
  | .illFormed fault => "XML processing error: ill-formed document: " ++ fault.message
  | .missing element => s!"missing required XML element: {element}"
  | .early place => s!"unexpected XML element: {place.message}"
  | .value fault => "failed to parse value: " ++ fault.message

end BucketTransfer.Xml
