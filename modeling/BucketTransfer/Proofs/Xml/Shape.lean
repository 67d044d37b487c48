import BucketTransfer.Proofs.Xml.Record

/-!
# Shapes

What a reader expects of an element: text, or fields with shapes of their own. Where the elements of
a document are of these shapes, each is read up to its own end tag.
-/
namespace BucketTransfer.Xml

inductive Shape where
  | text
  | fields (known : List (String × Shape))

namespace Content

/-- Text holds no elements, and what is in a field has the field's shape. Elements of other names
may hold anything. -/
def Fits : Shape → Content → Prop
  | _, .text _ => True
  | shape, .reference _ _ rest => rest.Fits shape
  | shape, .aside _ _ rest => rest.Fits shape
  | shape, .empty _ _ rest => rest.Fits shape
  | .text, .element .. => False
  | .fields known, .element _ tag inner rest =>
    (∀ shape ∈ known.lookup tag.name, inner.Fits shape) ∧ rest.Fits (.fields known)

variable {c : Content}

theorem fits_text : c.Fits .text ↔ c.elements = [] := by
  induction c with
  | text last => exact iff_of_true trivial rfl
  | reference before name rest ih | aside before skipped rest ih | empty before tag rest ih =>
    exact ih
  | element before tag inner rest => exact iff_of_false id (List.cons_ne_nil _ _)

theorem fits_fields {known : List (String × Shape)} :
    c.Fits (.fields known) ↔ ∀ e ∈ c.elements, ∀ shape ∈ known.lookup e.1, e.2.Fits shape := by
  induction c with
  | text last => exact iff_of_true trivial fun e he => absurd he List.not_mem_nil
  | reference before name rest ih | aside before skipped rest ih | empty before tag rest ih =>
    exact ih
  | element before tag inner rest _ ih =>
    rw [elements, List.forall_mem_cons]
    exact and_congr_right' ih

end Content

namespace Reader
variable {α σ : Type} {r : Reader α} {shape : Shape} {c : Content}

/-- A reader that expects a shape, and takes everything in elements of that shape. -/
inductive Follows : {α : Type} → Reader α → Shape → Prop where
  | text : Follows text .text
  | bind {α β : Type} {r : Reader α} {shape : Shape} (h : Follows r shape)
      (f : α → Except Error β) : Follows (r.bind f) shape
  | record {σ : Type} {fs : List (Field σ)} (shapeOf : String → Shape)
      (h : ∀ f ∈ fs, Follows f.reader (shapeOf f.name)) (s : σ) :
      Follows (record fs s) (.fields (fs.map fun f => (f.name, shapeOf f.name)))

theorem lookup_of_mem {fs : List (Field σ)} {f : Field σ} (shapeOf : String → Shape)
    (h : f ∈ fs) :
    (fs.map fun f => (f.name, shapeOf f.name)).lookup f.name = some (shapeOf f.name) := by
  induction fs with
  | nil => exact absurd h List.not_mem_nil
  | cons g fs ih =>
    by_cases hname : f.name = g.name
    · rw [List.map_cons, hname, List.lookup_cons_self]
    · have hf : f ∈ fs := by
        rcases List.mem_cons.1 h with rfl | hf
        · exact absurd rfl hname
        · exact hf
      rw [List.map_cons, List.lookup_cons, beq_false_of_ne hname]
      exact ih hf

theorem lookup_eq_none {fs : List (Field σ)} {name : String} (shapeOf : String → Shape) :
    (fs.map fun f => (f.name, shapeOf f.name)).lookup name = none ↔ Field.find fs name = none := by
  rw [List.lookup_eq_none_iff, Field.find_eq_none]
  simp

/-- What is in a field has the shape of the field. -/
theorem fits_of_named {fs : List (Field σ)} {f : Field σ} {shapeOf : String → Shape} {d : Content}
    (hc : c.Fits (.fields (fs.map fun f => (f.name, shapeOf f.name)))) (hf : f ∈ fs)
    (hd : d ∈ c.named f.name) : d.Fits (shapeOf f.name) :=
  Content.fits_fields.1 hc _ (mem_ofName.1 hd) _ (lookup_of_mem shapeOf hf)

/-- Elements of the expected shape are read up to their own end tags. -/
theorem Follows.settles (h : r.Follows shape) (hc : c.Fits shape) : r.Settles c := by
  induction h generalizing c with
  | text => exact settles_text (Content.fits_text.1 hc)
  | bind h f ih => exact (ih hc).bind f
  | record shapeOf h s ih =>
    exact settles_record (fun f hf d hd => ih f hf (fits_of_named hc hf hd)) s

/-- A record of the expected shape comes to what its fields make of it. -/
theorem outcome_of_fits {fs : List (Field σ)} (shapeOf : String → Shape)
    (h : ∀ f ∈ fs, f.reader.Follows (shapeOf f.name))
    (hc : c.Fits (.fields (fs.map fun f => (f.name, shapeOf f.name)))) (s : σ) :
    (record fs s).outcome c = walk (Field.child fs) s c.elements :=
  outcome_record (fun f hf _ hd => (h f hf).settles (fits_of_named hc hf hd)) s

end Reader

end BucketTransfer.Xml
