import BucketTransfer.Proofs.Xml.Escape
import BucketTransfer.Proofs.Xml.Record

/-!
# Written documents

What is written of elements is a well-formed document: whatever the texts in them are, its elements
are those that were written, and its texts are theirs.
-/
namespace BucketTransfer.Xml
open Event (ascii)

/-- A name of letters. -/
def IsName (name : String) : Prop := utf8 name ≠ [] ∧ ∀ b ∈ utf8 name, isLetterByte b = true

instance (name : String) : Decidable (IsName name) :=
  inferInstanceAs (Decidable (_ ∧ _))

theorem isNameByte_of_isLetterByte {b : UInt8} (h : isLetterByte b = true) :
    isNameByte b = true := by
  simp only [isLetterByte, Bool.or_eq_true] at h
  simp only [isNameByte, Bool.or_eq_true]
  tauto

namespace Tag
variable {name : String}

/-- The bare tag of a name. -/
def bare (h : IsName name) : Tag where
  name := name
  ne_nil := h.1
  named := fun b hb => isNameByte_of_isLetterByte (h.2 b hb)

theorem isBare_bare (h : IsName name) : (bare h).IsBare := ⟨h.2, rfl, rfl, rfl⟩

theorem startBytes_bare (h : IsName name) : (bare h).startBytes = utf8 ("<" ++ name ++ ">") := by
  rw [utf8_append, utf8_append, startBytes, inside]
  simp only [bare, List.flatMap_nil, List.append_nil]
  rfl

theorem endBytes_bare (h : IsName name) : (bare h).endBytes = utf8 ("</" ++ name ++ ">") := by
  rw [utf8_append, utf8_append, endBytes]
  simp only [bare, List.append_nil]
  rfl

end Tag

/-! ## Elements -/

def Element.name : Element → String
  | .leaf name _ => name
  | .node name _ => name

mutual

/-- All names in an element are names of letters. -/
def Element.Named : Element → Prop
  | .leaf name _ => IsName name
  | .node name children => IsName name ∧ AllNamed children

def AllNamed : List Element → Prop
  | [] => True
  | e :: es => e.Named ∧ AllNamed es

end

theorem allNamed_iff {es : List Element} : AllNamed es ↔ ∀ e ∈ es, e.Named := by
  induction es with
  | nil => simp [AllNamed]
  | cons e es ih => rw [AllNamed, ih, List.forall_mem_cons]

mutual

/-- What stands in an element: its text, or its children in order. -/
def Element.Fills : Element → Content → Prop
  | .leaf _ text, c => c.Spells text
  | .node _ children, c => Fill children c.elements

/-- Elements by name and content, in order. -/
def Fill : List Element → List (String × Content) → Prop
  | [], found => found = []
  | _ :: _, [] => False
  | e :: es, f :: found => f.1 = e.name ∧ e.Fills f.2 ∧ Fill es found

end

mutual

/-- An element is written as its tags with what fills it between them. -/
theorem Element.exists_fills (e : Element) (h : e.Named) : ∃ c : Content, IsName e.name ∧
    utf8 e.text = utf8 ("<" ++ e.name ++ ">") ++ (c.bytes ++ utf8 ("</" ++ e.name ++ ">")) ∧
      e.Fills c ∧ c.IsStrict := by
  cases e with
  | leaf name text =>
    obtain ⟨c, hc, hstrict⟩ := Content.exists_spells text
    refine ⟨c, h, ?_, hc, hstrict⟩
    rw [Content.Spells] at hc
    rw [hc, Element.text, Element.name]
    simp only [utf8_append, List.append_assoc]
  | node name children =>
    obtain ⟨c, hc, hfill, hstrict⟩ := exists_fill children h.2
    refine ⟨c, h.1, ?_, hfill, hstrict⟩
    rw [hc, Element.text, Element.name]
    simp only [utf8_append, List.append_assoc]

theorem exists_fill (es : List Element) (h : AllNamed es) : ∃ c : Content,
    c.bytes = utf8 (elementTexts es) ∧ Fill es c.elements ∧ c.IsStrict := by
  cases es with
  | nil => exact ⟨.text .empty, rfl, rfl, by simp [Content.IsStrict, Run.empty]⟩
  | cons e es =>
    obtain ⟨inner, hname, htext, hinner, hstrict⟩ := e.exists_fills h.1
    obtain ⟨rest, hrest, hfill, hrestStrict⟩ := exists_fill es h.2
    refine ⟨.element .empty (.bare hname) inner rest, ?_, ⟨rfl, hinner, hfill⟩, ?_⟩
    · rw [Content.bytes, Tag.startBytes_bare, Tag.endBytes_bare, elementTexts, utf8_append e.text,
        htext, hrest]
      simp only [List.append_assoc]
      rfl
    · exact ⟨by decide, Tag.isBare_bare hname, hstrict, hrestStrict⟩

end

/-- The elements of one name are those that were written under it, in order. -/
theorem Fill.lists {es : List Element} {c : Content} (h : Fill es c.elements) (name : String) :
    c.Lists name (fun d e => e.Fills d) (es.filter fun e => e.name = name) := by
  rw [Content.Lists, Content.named]
  generalize c.elements = found at h
  induction es generalizing found with
  | nil =>
    obtain rfl : found = [] := h
    exact .nil
  | cons e es ih =>
    cases found with
    | nil => exact False.elim h
    | cons f found =>
      obtain ⟨hname, hfills, hfill⟩ := h
      by_cases he : e.name = name
      · obtain ⟨fname, d⟩ := f
        obtain rfl : fname = name := hname.trans he
        rw [ofName_cons_self, List.filter_cons_of_pos (by simpa using he)]
        exact .cons hfills (ih found hfill)
      · rw [ofName_cons_of_ne (fun hf => he (hname.symm.trans hf)),
          List.filter_cons_of_neg (by simpa using he)]
        exact ih found hfill

/-- A text alone is read as it is. -/
theorem Element.Fills.reads {name text : String} {c : Content}
    (h : (Element.leaf name text).Fills c) : Reader.text.Reads c text :=
  Content.Spells.reads h

/-! ## Documents -/

/-- The declaration of the documents that are written. -/
def declaration : Aside :=
  .instruction (utf8 "xml version=\"1.0\" encoding=\"UTF-8\"") (by decide +kernel)

/-- The attribute of the root that names the namespace. -/
def namespaceAttribute : Attribute where
  lead := utf8 " xmlns="
  quote := ascii '"'
  value := utf8 storeNamespace
  unquoted := by decide +kernel
  whole := by decide +kernel

/-- The declaration, and one root with a content. -/
def Document.written {root : String} (h : IsName root) (c : Content) : Document where
  prolog := .aside .empty declaration (.text .empty)
  root := { Tag.bare h with attributes := [namespaceAttribute] }
  prolog_margin := by simp only [Content.IsMargin]; decide +kernel
  content := c

/-- Documents with nothing but a declaration and one root. What stands in the root is well-formed:
it holds no character that might be taken for markup, no reference that would need a declaration,
and each element is closed. Whether XML has a place for all its characters is a question by itself:
see `Allowed`. -/
def IsWritten (root : String) (document : Bytes) : Prop :=
  ∃ (h : IsName root) (c : Content), c.IsStrict ∧ document = (Document.written h c).bytes

private theorem utf8_pieces (a b c d e f g h i : String) :
    utf8 (a ++ b ++ c ++ d ++ e ++ f ++ g ++ h ++ i) =
      utf8 a ++ (utf8 b ++ (utf8 c ++ (utf8 d ++ (utf8 e ++ (utf8 f ++ utf8 (g ++ h ++ i)))))) := by
  simp only [utf8_append, List.append_assoc]

private theorem utf8_declaration :
    utf8 "<?xml version=\"1.0\" encoding=\"UTF-8\"?><" = declaration.bytes ++ [ascii '<'] := by
  decide +kernel

private theorem utf8_namespace :
    utf8 " xmlns=\"" ++ utf8 storeNamespace ++ utf8 "\">" =
      namespaceAttribute.bytes ++ [ascii '>'] := by
  decide +kernel

namespace Document
variable {root : String} (h : IsName root) (c : Content)

private theorem startBytes_written : (written h c).root.startBytes =
    ascii '<' :: (utf8 root ++ (namespaceAttribute.bytes ++ [ascii '>'])) := by
  rw [Tag.startBytes, Tag.inside]
  simp [written, Tag.bare]

private theorem endBytes_written :
    (written h c).root.endBytes = utf8 ("</" ++ root ++ ">") := by
  rw [← Tag.endBytes_bare h, Tag.endBytes, Tag.endBytes]
  simp [written, Tag.bare]

private theorem front_written : (written h c).front = declaration.bytes := by
  have hempty : utf8 "" = [] := rfl
  simp [Opening.front, written, Content.bytes, Run.bytes, Run.empty, hempty]

private theorem epilog_written : (written h c).epilog.bytes = [] := rfl

private theorem content_written : (written h c).content = c := rfl

variable {c} {es : List Element}

/-- What is written is a document, with what is in the root as its content. -/
theorem bytes_written (hc : c.bytes = utf8 (elementTexts es)) :
    (written h c).bytes = utf8 (documentText root es) := by
  have hbytes : (written h c).bytes = declaration.bytes ++ (ascii '<' :: (utf8 root ++
      (namespaceAttribute.bytes ++ [ascii '>']))) ++ (c.bytes ++ utf8 ("</" ++ root ++ ">")) := by
    rw [Document.bytes, Opening.bytes, front_written, startBytes_written, endBytes_written,
      epilog_written, content_written, List.append_nil]
  unfold documentText
  rw [utf8_pieces, utf8_declaration, hbytes, hc, ← utf8_namespace]
  simp only [List.append_assoc, List.cons_append, List.nil_append]

end Document

/-- What is written of elements is a document with these elements in its root. -/
theorem exists_written {root : String} (hroot : IsName root) {es : List Element}
    (hes : ∀ e ∈ es, e.Named) : ∃ c : Content, c.IsStrict ∧ Fill es c.elements ∧
      utf8 (documentText root es) = (Document.written hroot c).bytes := by
  obtain ⟨c, hc, hfill, hstrict⟩ := exists_fill es (allNamed_iff.2 hes)
  exact ⟨c, hstrict, hfill, (Document.bytes_written hroot hc).symm⟩

/-! ## Characters -/

/-- The characters that XML has a place for, by its production `Char`: three controls, and all from
the blank on but the surrogates, which are no characters here, and two more. -/
def IsAllowed (c : Char) : Prop :=
  c = '\t' ∨ c = '\n' ∨ c = '\r' ∨ 0x20 ≤ c.toNat ∧ c.toNat ≠ 0xfffe ∧ c.toNat ≠ 0xffff

instance (c : Char) : Decidable (IsAllowed c) := inferInstanceAs (Decidable (_ ∨ _))

/-- A text of characters that XML has a place for. -/
def Allowed (s : String) : Prop := ∀ c ∈ s.toList, IsAllowed c

instance (s : String) : Decidable (Allowed s) := List.decidableBAll _ _

theorem allowed_append {a b : String} : Allowed (a ++ b) ↔ Allowed a ∧ Allowed b := by
  rw [Allowed, String.toList_append, List.forall_mem_append]
  rfl

/-- A character is written as it is, or by characters that are allowed as it is itself. -/
theorem allowed_escapeChar (c : Char) : Allowed (escapeChar c) ↔ IsAllowed c := by
  by_cases hspecial : isSpecial c
  · simp only [isSpecial, Bool.or_eq_true, decide_eq_true_eq] at hspecial
    rcases hspecial with (((rfl | rfl) | rfl) | rfl) | rfl
    all_goals decide
  · have hsame : escapeChar c = String.singleton c := by
      simp only [isSpecial, Bool.or_eq_true, decide_eq_true_eq, not_or] at hspecial
      obtain ⟨⟨⟨⟨hlt, hgt⟩, hamp⟩, hapos⟩, hquot⟩ := hspecial
      simp only [escapeChar, if_neg hlt, if_neg hgt, if_neg hamp, if_neg hapos, if_neg hquot]
    simp [hsame, Allowed]

theorem allowed_escape (s : String) : Allowed (escape s) ↔ Allowed s := by
  have hjoin (cs : List Char) : Allowed (String.join (cs.map escapeChar)) ↔
      ∀ c ∈ cs, IsAllowed c := by
    induction cs with
    | nil => decide
    | cons c cs ih =>
      rw [List.map_cons, String.join_cons, allowed_append, allowed_escapeChar, ih,
        List.forall_mem_cons]
  exact hjoin s.toList

theorem IsName.allowed {name : String} (h : IsName name) : Allowed name := by
  intro c hc
  obtain ⟨b, bs, hb⟩ := List.exists_cons_of_ne_nil (Utf8.encodeChar_ne_nil c)
  have hmem : b ∈ String.utf8EncodeChar c := hb ▸ List.mem_cons_self
  have hletter := h.2 b (List.mem_flatMap.2 ⟨c, hc, hmem⟩)
  simp only [isLetterByte, Bool.or_eq_true, decide_eq_true_eq, UInt8.le_iff_toNat_le] at hletter
  have hsame : c.toNat = b.toNat :=
    Utf8.eq_of_mem_encodeChar (UInt8.lt_iff_toNat_lt.2 (by simp at hletter ⊢; omega)) hmem
  simp only [IsAllowed, hsame]
  simp at hletter
  omega

mutual

/-- The texts in an element, in order. -/
def Element.texts : Element → List String
  | .leaf _ text => [text]
  | .node _ children => textsOf children

def textsOf : List Element → List String
  | [] => []
  | e :: es => e.texts ++ textsOf es

end

theorem forall_mem_textsOf {p : String → Prop} (es : List Element) :
    (∀ t ∈ textsOf es, p t) ↔ ∀ e ∈ es, ∀ t ∈ e.texts, p t := by
  induction es with
  | nil => simp [textsOf]
  | cons e es ih => rw [textsOf, List.forall_mem_append, ih, List.forall_mem_cons]

mutual

/-- What is written of an element has only allowed characters exactly if its texts have. -/
theorem Element.allowed_text (e : Element) (h : e.Named) :
    Allowed e.text ↔ ∀ t ∈ e.texts, Allowed t := by
  have hopen : Allowed "<" := by decide
  have hclose : Allowed ">" := by decide
  have hend : Allowed "</" := by decide
  cases e with
  | leaf name text =>
    have hname : Allowed name := IsName.allowed h
    simp [Element.text, Element.texts, allowed_append, allowed_escape, hopen, hclose, hend, hname]
  | node name children =>
    have hname : Allowed name := IsName.allowed h.1
    simp [Element.text, Element.texts, allowed_append, allowed_elementTexts children h.2, hopen,
      hclose, hend, hname]

theorem allowed_elementTexts (es : List Element) (h : AllNamed es) :
    Allowed (elementTexts es) ↔ ∀ t ∈ textsOf es, Allowed t := by
  cases es with
  | nil =>
    have hempty : Allowed "" := by decide
    simp [elementTexts, textsOf, hempty]
  | cons e es =>
    rw [elementTexts, textsOf, allowed_append, e.allowed_text h.1, allowed_elementTexts es h.2,
      List.forall_mem_append]

end

/-- A document has only allowed characters exactly if the texts in it have. -/
theorem allowed_documentText {root : String} (hroot : IsName root) {es : List Element}
    (hes : ∀ e ∈ es, e.Named) :
    Allowed (documentText root es) ↔ ∀ e ∈ es, ∀ t ∈ e.texts, Allowed t := by
  have hdeclaration : Allowed "<?xml version=\"1.0\" encoding=\"UTF-8\"?><" := by decide +kernel
  have hnamespace : Allowed storeNamespace := by decide +kernel
  have hname : Allowed root := hroot.allowed
  rw [← forall_mem_textsOf, ← allowed_elementTexts es (allNamed_iff.2 hes)]
  unfold documentText
  simp only [allowed_append]
  constructor
  · rintro ⟨⟨⟨⟨-, hes⟩, -⟩, -⟩, -⟩
    exact hes
  · intro hes
    exact ⟨⟨⟨⟨⟨⟨⟨⟨hdeclaration, hname⟩, by decide⟩, hnamespace⟩, by decide⟩, hes⟩, by decide⟩,
      hname⟩, by decide⟩

end BucketTransfer.Xml
