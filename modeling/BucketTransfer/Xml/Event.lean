import BucketTransfer.Xml.Error

/-!
# The events of a document

A document as a list: tags, texts and references in order. Only what follows from the text itself is
checked: markup ends, end tags match start tags, references end. The first thing that is wrong is
the last event; a document that ends without one has none of these faults, but elements may be open.
-/
namespace BucketTransfer.Xml

inductive Event where
  | start (name : Bytes)
  | empty
  | finish
  | text (content : Bytes)
  | reference (name : Bytes)
  | other
  | fault (error : Error)
  deriving DecidableEq, Repr

namespace Event

/-- The byte of an ASCII character. -/
def ascii (c : Char) : UInt8 := c.toNat.toUInt8

def isSpace (b : UInt8) : Bool := b == 0x20 || b == 0x0a || b == 0x09 || b == 0x0d

/-- Splits at the first `>` outside quotes; `quote` is the open quote, `done` what was passed, last
first. -/
def tagEnd (quote : Option UInt8) (done : Bytes) : Bytes → Except Markup (Bytes × Bytes)
  | [] =>
    match quote with
    | none => .error .tag
    | some q => .error (if q = ascii '"' then .doubleQuoted else .singleQuoted)
  | b :: rest =>
    match quote with
    | some q => tagEnd (if b = q then none else some q) (b :: done) rest
    | none =>
      if b = ascii '>' then .ok (done.reverse, rest)
      else if b = ascii '"' || b = ascii '\'' then tagEnd (some b) (b :: done) rest
      else tagEnd none (b :: done) rest

theorem length_of_tagEnd {quote : Option UInt8} {done input content rest : Bytes}
    (h : tagEnd quote done input = .ok (content, rest)) : rest.length < input.length := by
  fun_induction tagEnd quote done input <;> simp_all <;> omega

/-- What follows the first `>` that two bytes `mark` precede, `least` bytes or more from here; `run`
counts the marks just passed. -/
def afterMarks (mark : UInt8) (least run : Nat) : Bytes → Option Bytes
  | [] => none
  | b :: rest =>
    if b = ascii '>' && least = 0 && 2 ≤ run then some rest
    else afterMarks mark (least - 1) (if b = mark then run + 1 else 0) rest

theorem length_of_afterMarks {mark : UInt8} {least run : Nat} {input rest : Bytes}
    (h : afterMarks mark least run input = some rest) : rest.length < input.length := by
  fun_induction afterMarks mark least run input <;> simp_all
  omega

/-- What follows the first `?>`, and what precedes it (last first). -/
def instructionEnd (done : Bytes) : Bytes → Option (Bytes × Bytes)
  | [] => none
  | b :: rest =>
    if b = ascii '>' && done.head? = some (ascii '?') then some (done, rest)
    else instructionEnd (b :: done) rest

theorem length_of_instructionEnd {done input content rest : Bytes}
    (h : instructionEnd done input = some (content, rest)) : rest.length < input.length := by
  fun_induction instructionEnd done input <;> simp_all
  omega

/-- Where the reader of a document type is. -/
inductive TypePlace where
  | outside
  | subset
  | afterSubset
  | declaration
  | comment (dashes : Nat)
  | instruction (question : Bool)
  | quoted (quote : UInt8) (inSubset : Bool)
  deriving DecidableEq, Repr

/-- What follows a document type. -/
def typeEnd (place : TypePlace) : Bytes → Option Bytes
  | [] => none
  | b :: rest =>
    match place with
    | .outside =>
      if b = ascii '>' then some rest
      else if b = ascii '[' then typeEnd .subset rest
      else if b = ascii '"' || b = ascii '\'' then typeEnd (.quoted b false) rest
      else typeEnd .outside rest
    | .subset =>
      if b = ascii ']' then typeEnd .afterSubset rest
      else if b = ascii '<' then
        match rest with
        | c :: d :: e :: rest =>
          if c = ascii '!' && d = ascii '-' && e = ascii '-' then typeEnd (.comment 0) rest
          else if c = ascii '?' then typeEnd (.instruction (d = ascii '?')) (e :: rest)
          else typeEnd .declaration (d :: e :: rest)
        | _ => none
      else typeEnd .subset rest
    | .afterSubset => if b = ascii '>' then some rest else typeEnd .afterSubset rest
    | .declaration =>
      if b = ascii '>' then typeEnd .subset rest
      else if b = ascii '"' || b = ascii '\'' then typeEnd (.quoted b true) rest
      else typeEnd .declaration rest
    | .comment dashes =>
      if b = ascii '>' && 2 ≤ dashes then typeEnd .subset rest
      else typeEnd (.comment (if b = ascii '-' then dashes + 1 else 0)) rest
    | .instruction question =>
      if b = ascii '>' && question then typeEnd .subset rest
      else typeEnd (.instruction (b = ascii '?')) rest
    | .quoted quote inSubset =>
      if b = quote then typeEnd (if inSubset then .declaration else .outside) rest
      else typeEnd (.quoted quote inSubset) rest
termination_by bytes => bytes.length

theorem length_of_typeEnd {place : TypePlace} {input rest : Bytes}
    (h : typeEnd place input = some rest) : rest.length < input.length := by
  fun_induction typeEnd place input <;> simp_all <;> omega

/-- Whether a text starts with a word, in letters of either case. -/
def startsWith (word : String) (input : Bytes) : Bool :=
  let lower (b : UInt8) : UInt8 := if 0x41 ≤ b ∧ b ≤ 0x5a then b + 0x20 else b
  (input.take word.length).map lower == (word.toList.map fun c => lower (ascii c))

/-- A name for a message; one that is no text is left out. -/
def shownName (name : Bytes) : String := (Utf8.decode? name).getD ""

/-- Passes a comment, character data or a document type; `input` follows the `!`. -/
def bang (input : Bytes) : Except Error Bytes :=
  match input with
  | [] => .error (.markup .unknown)
  | b :: rest =>
    if b = ascii '-' then
      match afterMarks (ascii '-') 4 0 (b :: rest) with
      | some after =>
        if rest.head? = some (ascii '-') then .ok after else .error (.markup .comment)
      | none => .error (.markup .comment)
    else if b = ascii '[' then
      match afterMarks (ascii ']') 0 0 (b :: rest) with
      | some after =>
        if startsWith "[CDATA[" (b :: rest) then .ok after else .error (.markup .characterData)
      | none => .error (.markup .characterData)
    else if b = ascii 'D' || b = ascii 'd' then
      match typeEnd .outside rest with
      | some after =>
        if !startsWith "doctype" (b :: rest) then .error (.markup .documentType)
        else if ((rest.drop 6).dropWhile isSpace).head? = some (ascii '>') then
          .error (.illFormed .namelessDocumentType)
        else .ok after
      | none => .error (.markup .documentType)
    else .error (.markup .unknown)

theorem length_of_bang {input rest : Bytes} (h : bang input = .ok rest) :
    rest.length < input.length := by
  unfold bang at h
  split at h
  · cases h
  · repeat' split at h
    all_goals first
      | contradiction
      | (cases h; exact length_of_afterMarks ‹_›)
      | (cases h; have := length_of_typeEnd ‹_›; simp only [List.length_cons]; omega)

/-- Whether an instruction is the document's declaration. -/
def isDeclaration (input : Bytes) : Bool :=
  input.take 4 == utf8 "?xml" && ((input.drop 4).head?.all isSpace)

/-- Passes an instruction or a declaration; `input` starts with its `?`. -/
def instruction (input : Bytes) : Except Error Bytes :=
  match instructionEnd [] input with
  | some (done, rest) => if done.length ≤ 1 then .error (.markup .instruction) else .ok rest
  | none => .error (.markup (if isDeclaration input then .declaration else .instruction))

theorem length_of_instruction {input rest : Bytes} (h : instruction input = .ok rest) :
    rest.length < input.length := by
  unfold instruction at h
  repeat' split at h
  all_goals first
    | contradiction
    | (cases h; exact length_of_instructionEnd ‹_›)

/-- The bytes up to one that ends a reference or interrupts it. -/
def isReferenceEnd (b : UInt8) : Bool := b == ascii ';' || b == ascii '&' || b == ascii '<'

def isMarkup (b : UInt8) : Bool := b == ascii '<' || b == ascii '&'

/-- The event of a tag's content, and the open elements after it. -/
def ofTag (opened : List Bytes) (content : Bytes) : Event × List Bytes :=
  if content.getLast? = some (ascii '/') then (.empty, opened)
  else
    let name := content.takeWhile fun b => !isSpace b
    (.start name, name :: opened)

/-- The name in an end tag. Blanks after it do not count, unless there is nothing else. -/
def endName (content : Bytes) : Bytes :=
  let name := (content.reverse.dropWhile isSpace).reverse
  if name.isEmpty then content else name

/-- The events of a text inside open elements, the innermost first. -/
def scan (opened : List Bytes) (input : Bytes) : List Event :=
  match input with
  | [] => []
  | b :: rest =>
    if b = ascii '&' then
      match _ : rest.dropWhile fun b => !isReferenceEnd b with
      | c :: after =>
        if c = ascii ';' then
          .reference (rest.takeWhile fun b => !isReferenceEnd b) :: scan opened after
        else [.fault (.illFormed .openReference)]
      | [] => [.fault (.illFormed .openReference)]
    else if b ≠ ascii '<' then
      .text ((b :: rest).takeWhile fun b => !isMarkup b)
        :: scan opened (rest.dropWhile fun b => !isMarkup b)
    else match rest with
      | [] => [.fault (.markup .tag)]
      | c :: inner =>
        if c = ascii '!' then
          match _ : bang inner with
          | .ok after => .other :: scan opened after
          | .error e => [.fault e]
        else if c = ascii '?' then
          match _ : instruction (c :: inner) with
          | .ok after => .other :: scan opened after
          | .error e => [.fault e]
        else if c = ascii '/' then
          match _ : tagEnd none [] inner with
          | .error e => [.fault (.markup e)]
          | .ok (content, after) =>
            let name := endName content
            match opened with
            | [] => [.fault (.illFormed (.unmatched (shownName name)))]
            | expected :: outer =>
              if name = expected then .finish :: scan outer after
              else [.fault (.illFormed (.mismatch (shownName expected) (shownName name)))]
        else
          match _ : tagEnd none [] (c :: inner) with
          | .error e => [.fault (.markup e)]
          | .ok (content, after) =>
            let (event, opened) := ofTag opened content
            event :: scan opened after
termination_by input.length
decreasing_by
  · have h := (List.dropWhile_sublist (l := rest) fun b => !isReferenceEnd b).length_le
    simp_all only [List.length_cons]
    omega
  · have h := (List.dropWhile_sublist (l := rest) fun b => !isMarkup b).length_le
    simp only [List.length_cons]
    omega
  · have := length_of_bang ‹_›
    simp only [List.length_cons]
    omega
  · have := length_of_instruction ‹_›
    simp only [List.length_cons] at *
    omega
  · have := length_of_tagEnd ‹_›
    simp only [List.length_cons]
    omega
  · have := length_of_tagEnd ‹_›
    simp only [List.length_cons] at *
    omega

/-- The events of a document. A byte order mark in front of it does not count. -/
def ofDocument (document : Bytes) : List Event :=
  match document with
  | 0xef :: 0xbb :: 0xbf :: rest => scan [] rest
  | _ => scan [] document

end Event

end BucketTransfer.Xml
