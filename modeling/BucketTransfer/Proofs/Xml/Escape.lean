import BucketTransfer.Proofs.Xml.Reading
import BucketTransfer.Xml.Writer

/-!
# Escaped texts

A text as it is written in an element is read there as it was.
-/
namespace BucketTransfer.Xml

/-- A reference that needs no declaration. -/
def Reference.IsPredefined (r : Reference) : Prop :=
  ∃ name, r.name = utf8 name ∧ (entityOf name).isSome = true

/-- The characters that are never written as they are. -/
def isSpecial (c : Char) : Bool := c = '<' || c = '>' || c = '&' || c = '\'' || c = '"'

def isLetterByte (b : UInt8) : Bool :=
  decide (0x41 ≤ b ∧ b ≤ 0x5a) || decide (0x61 ≤ b ∧ b ≤ 0x7a)

/-- A tag with a name of letters and with nothing else. -/
def Tag.IsBare (t : Tag) : Prop :=
  (∀ b ∈ utf8 t.name, isLetterByte b = true) ∧ t.attributes = [] ∧ t.space = [] ∧ t.closing = []

/-- Text without special characters, references that need no declaration, and elements with start
tags and end tags that are bare; no asides, so no character data either. -/
def Content.IsStrict : Content → Prop
  | .text last => ∀ c ∈ last.text.toList, isSpecial c = false
  | .reference before name rest =>
    (∀ c ∈ before.text.toList, isSpecial c = false) ∧ name.IsPredefined ∧ rest.IsStrict
  | .aside .. => False
  | .empty .. => False
  | .element before tag inner rest =>
    (∀ c ∈ before.text.toList, isSpecial c = false) ∧ tag.IsBare ∧ inner.IsStrict ∧ rest.IsStrict

/-- How a character is written: as a reference to it, or as it is. -/
theorem utf8_escapeChar (c : Char) :
    (∃ name : Reference, utf8 (escapeChar c) = name.bytes ∧ resolve name.name = .ok c ∧
      name.IsPredefined) ∨ escapeChar c = String.singleton c ∧ isSpecial c = false := by
  by_cases hlt : c = '<'
  · subst hlt
    exact .inl ⟨⟨utf8 "lt", by decide⟩, by decide, rfl, "lt", rfl, rfl⟩
  by_cases hgt : c = '>'
  · subst hgt
    exact .inl ⟨⟨utf8 "gt", by decide⟩, by decide, rfl, "gt", rfl, rfl⟩
  by_cases hamp : c = '&'
  · subst hamp
    exact .inl ⟨⟨utf8 "amp", by decide⟩, by decide, rfl, "amp", rfl, rfl⟩
  by_cases hapos : c = '\''
  · subst hapos
    exact .inl ⟨⟨utf8 "apos", by decide⟩, by decide, rfl, "apos", rfl, rfl⟩
  by_cases hquot : c = '"'
  · subst hquot
    exact .inl ⟨⟨utf8 "quot", by decide⟩, by decide, rfl, "quot", rfl, rfl⟩
  · refine .inr ⟨?_, ?_⟩
    · simp only [escapeChar, if_neg hlt, if_neg hgt, if_neg hamp, if_neg hapos, if_neg hquot]
    · simp [isSpecial, hlt, hgt, hamp, hapos, hquot]

theorem ne_of_not_isSpecial {c : Char} (h : isSpecial c = false) : c ≠ '<' ∧ c ≠ '&' := by
  simp only [isSpecial, Bool.or_eq_false_iff, decide_eq_false_iff_not] at h
  exact ⟨h.1.1.1.1, h.1.1.2⟩

theorem utf8_escape_cons (c : Char) (cs : List Char) :
    utf8 (escape (String.ofList (c :: cs))) =
      utf8 (escapeChar c) ++ utf8 (escape (String.ofList cs)) := by
  simp only [escape, String.toList_ofList, List.map_cons, utf8, ← Utf8.encode_append,
    String.toList_join, List.flatMap_cons]

/-- What is written of a text after a run is text, of the characters of both. -/
theorem exists_content_escape (r : Run) (cs : List Char)
    (hr : ∀ c ∈ r.text.toList, isSpecial c = false) :
    ∃ c : Content, c.bytes = r.bytes ++ utf8 (escape (String.ofList cs)) ∧ c.elements = [] ∧
      c.characters = .ok (r.text.toList ++ cs) ∧ c.IsStrict := by
  induction cs generalizing r with
  | nil =>
    refine ⟨.text r, ?_, rfl, ?_, hr⟩
    · simp [Content.bytes, escape, utf8, Utf8.encode]
    · rw [Content.characters, List.append_nil]
  | cons c cs ih =>
    rcases utf8_escapeChar c with ⟨name, hbytes, hresolve, hname⟩ | ⟨hbytes, hplain⟩
    · obtain ⟨rest, hrest, hflat, hread, hstrict⟩ := ih .empty (by decide)
      refine ⟨.reference r name rest, ?_, hflat, ?_, hr, hname, hstrict⟩
      · rw [Content.bytes, hrest, utf8_escape_cons, hbytes, List.append_assoc]
        rfl
      · rw [Content.characters, hresolve, hread]
        rfl
    · have hrun : ∀ d ∈ (r.text ++ String.singleton c).toList, isSpecial d = false := by
        intro d hd
        rw [String.toList_append, List.mem_append, String.toList_singleton,
          List.mem_singleton] at hd
        rcases hd with hd | rfl
        · exact hr d hd
        · exact hplain
      obtain ⟨rest, hrest, hflat, hread, hstrict⟩ :=
        ih ⟨r.text ++ String.singleton c, fun d hd => ne_of_not_isSpecial (hrun d hd)⟩ hrun
      refine ⟨rest, ?_, hflat, ?_, hstrict⟩
      · rw [hrest, utf8_escape_cons, hbytes, Run.bytes, utf8_append, List.append_assoc]
        rfl
      · rw [hread, String.toList_append, String.toList_singleton, List.append_assoc,
          List.singleton_append]

/-- The content of an element that holds a text alone, as texts are written. -/
def Content.Spells (c : Content) (s : String) : Prop := c.bytes = utf8 (escape s)

instance (c : Content) (s : String) : Decidable (c.Spells s) :=
  inferInstanceAs (Decidable (c.bytes = utf8 (escape s)))

/-- Each text can be written so. -/
theorem Content.exists_spells (s : String) : ∃ c : Content, c.Spells s ∧ c.IsStrict := by
  obtain ⟨c, hbytes, -, -, hstrict⟩ := exists_content_escape .empty s.toList (by decide)
  refine ⟨c, ?_, hstrict⟩
  rw [Spells, hbytes, String.ofList_toList]
  rfl

/-- A text is read as it was, however its escapes stand in it. -/
theorem Content.Spells.reads {c : Content} {s : String} (h : c.Spells s) :
    Reader.text.Reads c s := by
  obtain ⟨d, hbytes, hflat, hread, -⟩ := exists_content_escape .empty s.toList (by decide)
  have hsame : c.bytes = d.bytes := by
    rw [h, hbytes, String.ofList_toList]
    rfl
  have hevents := Content.events_eq_of_bytes_eq hsame
  have hreads : Reader.text.Reads d s := by
    refine (Reader.settles_text hflat).reads ?_
    rw [Reader.outcome_text, hread]
    exact congrArg Except.ok String.ofList_toList
  intro rest
  rw [hevents]
  exact hreads rest

end BucketTransfer.Xml
