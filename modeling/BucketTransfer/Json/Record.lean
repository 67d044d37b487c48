import BucketTransfer.Json.Reader

/-!
# Records in JSON

A record is written as an object, whose unknown members are skipped and whose known ones occur once,
or as an array of its fields in order.
-/
namespace BucketTransfer.Json

/-- A field of a record: its name, its value's reader, and what it is where an object leaves it out
or an array ends before it, unless that is an error. -/
structure Field (α : Type) where
  name : String
  reader : Reader α
  absent : Option α
  short : Option α

/-- A field that must be there. -/
def Field.required {α : Type} (name : String) (reader : Reader α) : Field α :=
  ⟨name, reader, none, none⟩

/-- A field that has a default value. -/
def Field.defaulted {α : Type} (name : String) (reader : Reader α) (value : α) : Field α :=
  ⟨name, reader, some value, some value⟩

/-- A field that may be null, and that an object may leave out. -/
def Field.nullable {α : Type} (name : String) (reader : Reader α) : Field (Option α) :=
  ⟨name, reader.optional, some none, none⟩

/-- The fields of a record, as nested pairs. -/
inductive Fields : Type → Type 1 where
  | none : Fields Unit
  | and {α β : Type} (field : Field α) (fields : Fields β) : Fields (α × β)

namespace Fields

/-- What has been found of the fields so far. -/
def Found : {α : Type} → Fields α → Type
  | _, .none => Unit
  | _, @Fields.and α _ _ fields => Option α × fields.Found

def nothing : {α : Type} → (fields : Fields α) → fields.Found
  | _, .none => ()
  | _, .and _ fields => (Option.none, fields.nothing)

/-- Reads a member after its key. -/
def member (depth : Nat) (key : String) :
    {α : Type} → (fields : Fields α) → fields.Found → Scanner fields.Found
  | _, .none, found => (Scanner.ignored found).afterColon
  | _, @Fields.and α _ field fields, found =>
    let parts : Option α × fields.Found := found
    if key = field.name then
      if parts.1.isSome then .refuse .mismatch
      else ((field.reader depth).map fun value => (some value, parts.2)).afterColon
    else (fields.member depth key parts.2).map fun rest => (parts.1, rest)

/-- The record of what an object holds. -/
def ofFound : {α : Type} → (fields : Fields α) → fields.Found → Except Fault α
  | _, .none, _ => .ok ()
  | _, @Fields.and α _ field fields, found =>
    let parts : Option α × fields.Found := found
    match parts.1.or field.absent with
    | Option.none => .error .mismatch
    | some value => (fields.ofFound parts.2).map fun rest => (value, rest)

/-- The record of an array that has ended. -/
def ofShort : {α : Type} → Fields α → Except Fault α
  | _, .none => .ok ()
  | _, .and field fields =>
    match field.short with
    | Option.none => .error .mismatch
    | some value => fields.ofShort.map fun rest => (value, rest)

/-- Reads the items of an array and its end. -/
def items (depth : Nat) (first : Bool) :
    {α : Type} → Fields α → Bytes → Except Fault (α × Bytes)
  | _, .none, input => (closeArray input).map fun rest => ((), rest)
  | _, .and field fields, input =>
    match nextItem first input with
    | .error e => .error e
    | .ok (.closed rest) => (Fields.and field fields).ofShort.map fun record => (record, rest)
    | .ok (.part start) =>
      match (field.reader depth).scan start with
      | .error e => .error e
      | .ok (value, rest) =>
        (fields.items depth false rest).map fun r => ((value, r.1), r.2)

theorem exists_of_map_eq_ok {α β : Type} {x : Except Fault α} {f : α → β} {b : β}
    (h : x.map f = .ok b) : ∃ a, x = .ok a ∧ f a = b := by
  cases x with
  | error e => cases h
  | ok a => exact ⟨a, rfl, Except.ok.inj h⟩

theorem length_of_items {α : Type} {fields : Fields α} {depth : Nat} {first : Bool}
    {input rest : Bytes} {record : α} (h : fields.items depth first input = .ok (record, rest)) :
    rest.length ≤ input.length := by
  induction fields generalizing first input rest with
  | none =>
    obtain ⟨r, hr, h⟩ := exists_of_map_eq_ok h
    cases h; exact length_of_closeArray hr
  | and field fields ih =>
    simp only [items] at h
    split at h
    · cases h
    · next hn =>
      obtain ⟨r, _, h⟩ := exists_of_map_eq_ok h
      cases h; exact length_of_nextItem hn
    · next hn =>
      split at h
      · cases h
      · next hs =>
        obtain ⟨r, hr, h⟩ := exists_of_map_eq_ok h
        cases h
        have := length_of_nextItem hn
        have := Scanner.shorter _ hs
        have := ih hr
        simp only [Next.rest] at *
        omega

/-- Reads a record. -/
def reader {α : Type} (fields : Fields α) : Reader α := fun depth =>
  .ofFirst (fun b rest =>
    if b = ascii '[' then Reader.inside depth fun depth => fields.items depth true rest
    else if b = ascii '{' then
      Reader.inside depth fun depth =>
        foldMembers (fields.member depth) true fields.nothing rest >>= fun found =>
          (fields.ofFound found.1).map fun record => (record, found.2)
    else .error (wrongKind b rest))
    (by
      intro b rest value after h
      repeat' split at h
      · exact length_of_items (Reader.of_inside h)
      · obtain ⟨r, hr, h⟩ := exists_of_bind_eq_ok (Reader.of_inside h)
        obtain ⟨r, _, h⟩ := exists_of_map_eq_ok h
        cases h; exact length_of_foldMembers hr
      · cases h)

end Fields

/-- A reader of records, from what their nested fields make. -/
def Fields.into {α β : Type} (fields : Fields α) (f : α → β) : Reader β := fun depth =>
  (fields.reader depth).map f

end BucketTransfer.Json
