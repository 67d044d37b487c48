import BucketTransfer.Proofs.Xml.Reading
import Mathlib.Data.List.Forall2

/-!
# Records

Elements whose children are fields: a child of a known name is read and put into a record, every
other one is passed. What a record comes to is known field by field, in whatever order they stand.
-/
namespace BucketTransfer.Xml

section Names
variable {α : Type} {name : String} {es : List (String × α)}

theorem ofName_cons_self (a : α) : ofName name ((name, a) :: es) = a :: ofName name es := by
  simp [ofName]

theorem ofName_cons_of_ne {e : String × α} (h : e.1 ≠ name) :
    ofName name (e :: es) = ofName name es := by
  simp [ofName, h]

theorem mem_ofName {a : α} : a ∈ ofName name es ↔ (name, a) ∈ es := by
  simp [ofName]

end Names

/-- What may stand in a record: a name, what is read under it, and where that goes. -/
structure Field (σ : Type) where
  name : String
  {Value : Type}
  reader : Reader Value
  put : σ → Value → σ

variable {σ β : Type} {fs : List (Field σ)} {c d : Content} {es : List (String × Content)} {s t : σ}

namespace Field

/-- The field of a name. -/
def find (fs : List (Field σ)) (name : String) : Option (Field σ) :=
  fs.find? fun f => f.name = name

theorem mem_of_find {name : String} {f : Field σ} (h : find fs name = some f) : f ∈ fs :=
  List.mem_of_find?_eq_some h

theorem name_of_find {name : String} {f : Field σ} (h : find fs name = some f) : f.name = name := by
  simpa using List.find?_some h

theorem find_eq_none {name : String} : find fs name = none ↔ ∀ f ∈ fs, name ≠ f.name := by
  rw [find, List.find?_eq_none]
  exact forall₂_congr fun f _ => by simp [eq_comm]

/-- Reads a child of a record. -/
def child (fs : List (Field σ)) (name : String) (s : σ) : Reader σ :=
  match find fs name with
  | some f => f.reader.map (f.put s)
  | none => .ignore s

theorem child_of_find {name : String} {f : Field σ} (h : find fs name = some f) :
    child fs name s = f.reader.map (f.put s) := by
  rw [child, h]

theorem child_of_unknown {name : String} (h : find fs name = none) :
    child fs name s = .ignore s := by
  rw [child, h]

theorem settles_child {name : String}
    (h : ∀ f ∈ fs, f.name = name → f.reader.Settles d) : (child fs name s).Settles d := by
  cases hf : find fs name with
  | some f =>
    rw [child_of_find hf]
    exact (h f (mem_of_find hf) (name_of_find hf)).map _
  | none =>
    rw [child_of_unknown hf]
    exact Reader.settles_ignore s d

end Field

theorem walk_cons (child : String → σ → Reader σ) (s : σ) (e : String × Content)
    (es : List (String × Content)) :
    walk child s (e :: es) = ((child e.1 s).outcome e.2).bind fun s => walk child s es :=
  List.foldlM_cons

namespace Field

/-- A record can be read if all the fields in it can. -/
theorem exists_walk_iff : (∃ t, walk (child fs) s es = .ok t) ↔
    ∀ e ∈ es, ∀ f, find fs e.1 = some f → ∃ v, f.reader.outcome e.2 = .ok v := by
  induction es generalizing s with
  | nil => exact ⟨fun _ _ he => absurd he List.not_mem_nil, fun _ => ⟨s, rfl⟩⟩
  | cons e es ih =>
    rw [walk_cons, List.forall_mem_cons]
    cases hf : find fs e.1 with
    | none =>
      rw [child_of_unknown hf, Reader.outcome_ignore]
      exact ih.trans (iff_and_self.2 fun _ _ hf => by cases hf)
    | some f =>
      rw [child_of_find hf, Reader.outcome_map]
      rcases hv : f.reader.outcome e.2 with error | v
      · constructor
        · rintro ⟨t, ht⟩
          cases ht
        · intro h
          obtain ⟨v, hv'⟩ := h.1 f rfl
          cases hv.symm.trans hv'
      · refine ih.trans (iff_and_self.2 fun _ g hg => ?_)
        cases hg
        exact ⟨v, hv⟩

/-- What is kept of a record comes from one field, if no other field changes that. -/
theorem get_of_walk {f : Field σ} {vs : List f.Value} (h : walk (child fs) s es = .ok t)
    (name : String) (hfind : find fs name = some f) (get : σ → β) (step : β → f.Value → β)
    (hread : List.Forall₂ f.reader.Reads (ofName name es) vs)
    (hown : ∀ s v, get (f.put s v) = step (get s) v)
    (hother : ∀ g ∈ fs, g.name ≠ name → ∀ s v, get (g.put s v) = get s) :
    get t = vs.foldl step (get s) := by
  induction es generalizing s vs with
  | nil =>
    cases h
    cases hread
    rfl
  | cons e es ih =>
    obtain ⟨found, d⟩ := e
    rw [walk_cons] at h
    by_cases hname : found = name
    · subst hname
      rw [ofName_cons_self] at hread
      obtain ⟨v, vs, hv, hvs, rfl⟩ := List.forall₂_cons_left_iff.1 hread
      rw [child_of_find hfind, Reader.outcome_map, hv.outcome] at h
      rw [ih h hvs, hown, List.foldl_cons]
    · rw [ofName_cons_of_ne hname] at hread
      cases hg : find fs found with
      | none =>
        rw [child_of_unknown hg, Reader.outcome_ignore] at h
        exact ih h hread
      | some g =>
        rw [child_of_find hg, Reader.outcome_map] at h
        rcases hv : g.reader.outcome d with error | v
        · rw [hv] at h
          cases h
        · rw [hv] at h
          rw [ih h hread, hother g (mem_of_find hg) (name_of_find hg ▸ hname)]

end Field

/-- The elements of one name hold values, in order. -/
def Content.Lists {α : Type} (c : Content) (name : String) (R : Content → α → Prop)
    (values : List α) : Prop :=
  List.Forall₂ R (c.named name) values

theorem Content.lists_nil {α : Type} {name : String} {R : Content → α → Prop}
    (h : c.named name = []) : c.Lists name R [] := by
  rw [Lists, h]
  exact .nil

namespace Content.Lists
variable {α : Type} {name : String} {R S : Content → α → Prop} {values : List α}

theorem imp (h : c.Lists name R values) (hRS : ∀ d, ∀ a ∈ values, R d a → S d a) :
    c.Lists name S values := by
  rw [Lists] at h ⊢
  generalize c.named name = ds at h
  induction h with
  | nil => exact .nil
  | cons hR _ ih =>
    refine .cons (hRS _ _ List.mem_cons_self hR) (ih fun d a ha => ?_)
    exact hRS d a (List.mem_cons_of_mem _ ha)

/-- What the values come from. -/
theorem exists_map {β : Type} {S : Content → β → Prop} (h : c.Lists name R values) (f : β → α)
    (hRS : ∀ d, ∀ a ∈ values, R d a → ∃ b, S d b ∧ f b = a) :
    ∃ bs, c.Lists name S bs ∧ bs.map f = values := by
  simp only [Lists] at h ⊢
  generalize c.named name = ds at h
  induction h with
  | nil => exact ⟨[], .nil, rfl⟩
  | cons hR _ ih =>
    obtain ⟨b, hS, rfl⟩ := hRS _ _ List.mem_cons_self hR
    obtain ⟨bs, hbs, rfl⟩ := ih fun d a ha => hRS d a (List.mem_cons_of_mem _ ha)
    exact ⟨b :: bs, .cons hS hbs, rfl⟩

theorem exists_of_mem (h : c.Lists name R values) (hd : d ∈ c.named name) :
    ∃ a ∈ values, R d a := by
  rw [Lists] at h
  generalize c.named name = ds at h hd
  induction h with
  | nil => exact absurd hd List.not_mem_nil
  | @cons _ a _ _ hR _ ih =>
    rcases List.mem_cons.1 hd with rfl | hd
    · exact ⟨a, List.mem_cons_self, hR⟩
    · obtain ⟨b, hb, hR⟩ := ih hd
      exact ⟨b, List.mem_cons_of_mem _ hb, hR⟩

end Content.Lists

namespace Reader

/-- Reads the fields of a record. -/
def record (fs : List (Field σ)) (s : σ) : Reader σ := children (Field.child fs) s

theorem settles_fields (h : ∀ f ∈ fs, ∀ d ∈ c.named f.name, f.reader.Settles d) :
    ∀ e ∈ c.elements, ∀ s, (Field.child fs e.1 s).Settles e.2 := by
  rintro ⟨name, d⟩ he s
  refine Field.settles_child fun f hf hname => h f hf d ?_
  rw [hname]
  exact mem_ofName.2 he

theorem settles_record (h : ∀ f ∈ fs, ∀ d ∈ c.named f.name, f.reader.Settles d) (s : σ) :
    (record fs s).Settles c := settles_children (settles_fields h) s

theorem outcome_record (h : ∀ f ∈ fs, ∀ d ∈ c.named f.name, f.reader.Settles d) (s : σ) :
    (record fs s).outcome c = walk (Field.child fs) s c.elements :=
  outcome_children (settles_fields h) s

/-- A record whose fields can be read is read. -/
theorem exists_record (fs : List (Field σ)) (s : σ)
    (h : ∀ f ∈ fs, ∃ vs, c.Lists f.name f.reader.Reads vs) :
    ∃ t, (record fs s).Reads c t ∧ walk (Field.child fs) s c.elements = .ok t := by
  have hread : ∀ f ∈ fs, ∀ d ∈ c.named f.name, ∃ v, f.reader.Reads d v := by
    intro f hf d hd
    obtain ⟨vs, hvs⟩ := h f hf
    obtain ⟨v, -, hv⟩ := hvs.exists_of_mem hd
    exact ⟨v, hv⟩
  have hsettles : ∀ f ∈ fs, ∀ d ∈ c.named f.name, f.reader.Settles d := by
    intro f hf d hd
    obtain ⟨v, hv⟩ := hread f hf d hd
    exact hv.settles
  obtain ⟨t, ht⟩ : ∃ t, walk (Field.child fs) s c.elements = .ok t := by
    refine Field.exists_walk_iff.2 fun e he f hf => ?_
    have hd : e.2 ∈ c.named f.name := mem_ofName.2 (by rwa [Field.name_of_find hf])
    obtain ⟨v, hv⟩ := hread f (Field.mem_of_find hf) e.2 hd
    exact ⟨v, hv.outcome⟩
  exact ⟨t, (settles_record hsettles s).reads ((outcome_record hsettles s).trans ht), ht⟩

end Reader

end BucketTransfer.Xml
