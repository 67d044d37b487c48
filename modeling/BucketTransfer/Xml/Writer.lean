import BucketTransfer.Utf8

/-!
# Writing documents

Elements as trees, and their text: start tag, content, end tag, without blanks between them.
-/
namespace BucketTransfer.Xml

/-- An element with a text, or with elements in it. -/
inductive Element where
  | leaf (name content : String)
  | node (name : String) (children : List Element)

/-- How a character stands in a text. -/
def escapeChar (c : Char) : String :=
  if c = '<' then "&lt;"
  else if c = '>' then "&gt;"
  else if c = '&' then "&amp;"
  else if c = '\'' then "&apos;"
  else if c = '"' then "&quot;"
  else String.singleton c

def escape (s : String) : String := String.join (s.toList.map escapeChar)

mutual

def Element.text : Element → String
  | .leaf name content => "<" ++ name ++ ">" ++ escape content ++ "</" ++ name ++ ">"
  | .node name children => "<" ++ name ++ ">" ++ elementTexts children ++ "</" ++ name ++ ">"

def elementTexts : List Element → String
  | [] => ""
  | e :: es => e.text ++ elementTexts es

end

/-- The namespace of the store's requests. -/
def storeNamespace : String := "http://s3.amazonaws.com/doc/2006-03-01/"

/-- A document with a root element in the store's namespace. -/
def documentText (root : String) (children : List Element) : String :=
  "<?xml version=\"1.0\" encoding=\"UTF-8\"?><" ++ root ++ " xmlns=\"" ++ storeNamespace ++ "\">"
    ++ elementTexts children ++ "</" ++ root ++ ">"

end BucketTransfer.Xml
