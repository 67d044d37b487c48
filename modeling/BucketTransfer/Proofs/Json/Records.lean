import BucketTransfer.Json.Record
import BucketTransfer.Proofs.Json.Objects

/-!
# Records in JSON text

A record that is printed with one member for each of its fields, in their order, is read back as it
was, as long as the fields have different names. A map is read back from its entries. It does not
matter whether they are printed without blanks or indented.
-/
namespace BucketTransfer.Json

variable {α β : Type} {depth : Nat} {rest blank : Bytes}

/-! ## Layouts -/

/-- How a value is printed: without blanks, or indented inside so many containers. -/
inductive Layout where
  | compact
  | indented (level : Nat)

namespace Layout

def write : Layout → Json → Bytes
  | compact, j => utf8 j.text
  | indented level, j => utf8 (j.indented level)

/-- How the parts of a container are printed. -/
def inner : Layout → Layout
  | compact => compact
  | indented level => indented (level + 1)

/-- The blanks before each member of an object. -/
def before : Layout → Bytes
  | compact => []
  | indented level => utf8 (newline (level + 1))

/-- The blanks before the end of an object that has members. -/
def closing : Layout → Bytes
  | compact => []
  | indented level => utf8 (newline level)

/-- The blanks between a colon and the value after it. -/
def gap : Layout → Bytes
  | compact => []
  | indented _ => utf8 " "

variable {layout : Layout} {b : UInt8}

theorem isSpace_of_mem_before (h : b ∈ layout.before) : isSpace b := by
  cases layout with
  | compact => exact absurd h List.not_mem_nil
  | indented level => exact isSpace_of_mem_newline h

theorem isSpace_of_mem_closing (h : b ∈ layout.closing) : isSpace b := by
  cases layout with
  | compact => exact absurd h List.not_mem_nil
  | indented level => exact isSpace_of_mem_newline h

theorem isSpace_of_mem_gap (h : b ∈ layout.gap) : isSpace b := by
  cases layout with
  | compact => exact absurd h List.not_mem_nil
  | indented level =>
    obtain rfl : b = 0x20 := List.mem_singleton.1 h
    rfl

@[simp] theorem write_string (layout : Layout) (s : String) :
    layout.write (.string s) = utf8 (stringText s) := by
  cases layout <;> rfl

@[simp] theorem write_int (layout : Layout) (z : Int) :
    layout.write (int z) = utf8 (toString z) := by
  cases layout <;> rfl

private theorem memberTexts_eq (members : List (String × Json)) :
    memberTexts members = members.map fun e => stringText e.1 ++ ":" ++ e.2.text := by
  induction members with
  | nil => rfl
  | cons e members ih => rw [memberTexts, ih, List.map_cons]

private theorem indentedMembers_eq (level : Nat) (members : List (String × Json)) :
    indentedMembers level members =
      members.map fun e => stringText e.1 ++ ": " ++ e.2.indented level := by
  induction members with
  | nil => rfl
  | cons e members ih => rw [indentedMembers, ih, List.map_cons]

private theorem utf8_text_object (members : List (String × Json)) :
    utf8 (Json.object members).text =
      ascii '{' :: objectText [] [] Prod.fst (fun e => ascii ':' :: utf8 e.2.text) members := by
  have hopening : utf8 "\x7b" = [ascii '{'] := by decide
  have hclosing : utf8 "\x7d" = [ascii '}'] := by decide
  have hcomma : utf8 "," = [ascii ','] := by decide
  have hmember (e : String × Json) : utf8 (stringText e.1 ++ ":" ++ e.2.text) =
      ascii '"' :: memberText e.1 (ascii ':' :: utf8 e.2.text) := by
    have hcolon : utf8 ":" = [ascii ':'] := by decide
    rw [utf8_append, utf8_append, utf8_stringText, hcolon, memberText]
    simp only [List.append_assoc, List.cons_append, List.nil_append]
  rw [text, memberTexts_eq, utf8_append, utf8_append, hopening, hclosing]
  cases members with
  | nil => rfl
  | cons e members =>
    rw [List.map_cons, utf8_intercalate, hmember, objectText, List.flatMap_map]
    simp only [hmember, hcomma, List.append_assoc, List.cons_append, List.nil_append]

/-- An object in any layout. -/
theorem write_object (layout : Layout) (members : List (String × Json)) :
    layout.write (.object members) =
      ascii '{' :: objectText layout.before layout.closing Prod.fst
        (fun e => ascii ':' :: (layout.gap ++ layout.inner.write e.2)) members := by
  cases layout with
  | compact => exact utf8_text_object members
  | indented level =>
    have hblock := utf8_block level Prod.fst
      (fun e : String × Json => e.2.indented (level + 1)) members
    simp only [utf8_append] at hblock
    rw [write, Json.indented, indentedMembers_eq, hblock]
    rfl

end Layout

/-! ## Values -/

/-- A value is taken off the front of a text that starts with it, in any layout and after any
blanks. -/
def Reader.Reads (r : Reader α) (depth : Nat) (j : Json) (a : α) : Prop :=
  ∀ (layout : Layout) {blank rest : Bytes}, (∀ b ∈ blank, isSpace b) → Delimited rest →
    (r depth).scan (blank ++ layout.write j ++ rest) = .ok (a, rest)

namespace Reader

theorem reads_string (depth : Nat) (s : String) : string.Reads depth (.string s) s := by
  intro layout blank rest hblank _
  rw [layout.write_string]
  exact scan_string hblank s rest

theorem reads_integer {least greatest z : Int} (hleast : least ≤ z) (hgreatest : z ≤ greatest)
    (hfirst : -(Text.maxI64 : Int) - 1 ≤ z) (hlast : z ≤ Text.maxU64) :
    (integer least greatest).Reads depth (.int z) z := by
  intro layout blank rest hblank hrest
  have hnumber : (number depth).scan (blank ++ (utf8 (toString z) ++ rest)) =
      (number depth).scan (utf8 (toString z) ++ rest) := scanFirst_of_blank hblank _
  have hscan : (integer least greatest depth).scan (utf8 (toString z) ++ rest) = .ok (z, rest) :=
    scan_integer hleast hgreatest hfirst hlast hrest
  rw [layout.write_int, List.append_assoc]
  simp only [integer, Scanner.refine, hnumber] at hscan ⊢
  exact hscan

/-- A map is read back from its entries. -/
theorem reads_map {r : Reader α} {toJson : α → Json} (hdepth : 1 < depth) (m : KeyMap α)
    (h : ∀ a, r.Reads (depth - 1) (toJson a) a) :
    r.map.Reads depth (.object (m.entries.map fun e => (e.1, toJson e.2))) m := by
  intro layout blank rest hblank _
  have hvalue : ∀ e ∈ m.entries, ∀ rest, Delimited rest → (r (depth - 1)).scan
      (layout.gap ++ layout.inner.write (toJson e.2) ++ rest) = .ok (e.2, rest) :=
    fun e _ _ hrest => h e.2 layout.inner (fun _ => layout.isSpace_of_mem_gap) hrest
  have hscan := scan_map (fun a => layout.gap ++ layout.inner.write (toJson a)) hdepth hvalue
    (fun _ => layout.isSpace_of_mem_before) (fun _ => layout.isSpace_of_mem_closing) rest
  rw [m.ofList_entries] at hscan
  rw [layout.write_object, objectText_map, List.append_assoc]
  exact (scanFirst_of_blank hblank _).trans hscan

/-- A value is read as a whole from any layout of it. -/
theorem Reads.complete {r : Reader α} {j : Json} {a : α} (h : r.Reads 128 j a) (layout : Layout) :
    r.complete (layout.write j) = .ok a := by
  refine complete_of_scan ?_
  have hend : Delimited [] := by simp [Delimited]
  have hscan := h layout (List.forall_mem_nil _) hend
  rwa [List.nil_append, List.append_nil] at hscan

end Reader

/-! ## Records -/

namespace Fields

/-- The members that a record is printed with: one for each field, by its name, from which the
field's value is read. -/
inductive Prints (depth : Nat) : {α : Type} → Fields α → α → List (String × Json) → Prop where
  | none : Prints depth .none () []
  | and {α β : Type} (field : Field α) (fields : Fields β) (value : α) (record : β) (j : Json)
      (members : List (String × Json)) (read : field.reader.Reads depth j value)
      (fresh : ∀ e ∈ members, e.1 ≠ field.name) (others : Prints depth fields record members) :
      Prints depth (.and field fields) (value, record) ((field.name, j) :: members)

/-- What is read of the fields after the first one does not depend on that. -/
private theorem membersRead_and {field : Field α} {fields : Fields β} {found last : fields.Found}
    {after : String × Json → Bytes} {members : List (String × Json)}
    (h : MembersRead (fields.member depth) Prod.fst after found members last)
    (hfresh : ∀ e ∈ members, e.1 ≠ field.name) (first : Option α) :
    MembersRead ((Fields.and field fields).member depth) Prod.fst after (first, found) members
      (first, last) := by
  induction h with
  | nil state => exact .nil _
  | cons state next last e es hscan _ ih =>
    obtain ⟨hne, hothers⟩ := List.forall_mem_cons.1 hfresh
    refine .cons _ (first, next) _ e es (fun rest hrest => ?_) (ih hothers)
    simp only [member, if_neg hne]
    exact Scanner.scan_map_of_scan _ (hscan rest hrest)

/-- Each member is read into its field. -/
private theorem Prints.membersRead {fields : Fields α} {record : α} {members : List (String × Json)}
    (h : fields.Prints depth record members) (layout : Layout) :
    ∃ found, fields.ofFound found = .ok record ∧
      MembersRead (fields.member depth) Prod.fst
        (fun e => ascii ':' :: (layout.gap ++ layout.inner.write e.2)) fields.nothing members
          found := by
  induction h with
  | none => exact ⟨(), rfl, .nil _⟩
  | and field fields value record j members read fresh _ ih =>
    obtain ⟨found, hfound, hread⟩ := ih
    refine ⟨(some value, found), ?_, ?_⟩
    · simp only [ofFound, Option.some_or, hfound]
      rfl
    · refine .cons _ (some value, fields.nothing) _ _ _ (fun rest hrest => ?_)
        (membersRead_and hread fresh (some value))
      simp only [member, if_pos]
      exact Scanner.scan_map_of_scan _
        (read layout.inner (fun _ => layout.isSpace_of_mem_gap) hrest)

/-- A record is read back from what it is printed as. -/
theorem Prints.reads {fields : Fields α} {record : α} {members : List (String × Json)}
    (hdepth : 1 < depth) (h : fields.Prints (depth - 1) record members) :
    fields.reader.Reads depth (.object members) record := by
  intro layout blank rest hblank _
  obtain ⟨found, hfound, hread⟩ := h.membersRead layout
  rw [layout.write_object, List.append_assoc, List.cons_append]
  simp only [reader, Scanner.ofFirst]
  rw [scanFirst_of_blank hblank, scanFirst, dropSpace_cons (by decide)]
  have hmembers := foldMembers_objectText hread (fun _ => layout.isSpace_of_mem_before)
    (fun _ => layout.isSpace_of_mem_closing) rest
  simp only [Reader.inside, if_neg (Nat.not_le.2 hdepth)]
  rw [if_neg (by decide), if_pos trivial, hmembers]
  simp only [bind, Except.bind, hfound]
  rfl

theorem Prints.reads_into {fields : Fields α} {record : α} {members : List (String × Json)}
    (hdepth : 1 < depth) (h : fields.Prints (depth - 1) record members) (f : α → β) :
    (fields.into f).Reads depth (.object members) (f record) :=
  fun layout _ _ hblank hrest => Scanner.scan_map_of_scan f (h.reads hdepth layout hblank hrest)

end Fields

end BucketTransfer.Json
