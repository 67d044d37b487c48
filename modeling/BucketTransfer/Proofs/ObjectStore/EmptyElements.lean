import BucketTransfer.Proofs.ObjectStore.Records
import BucketTransfer.Proofs.Xml.Notation

/-!
# Empty elements in answers

How an element without content is written does not matter where no reader looks for it. In a field,
and at the root, one that is written in one tag is not there.
-/
namespace BucketTransfer.ObjectStore

open scoped Xml
open Xml (Aside Content Context Document Opening Reader Shape Tag)

/-- What is read of answers, in elements of what shape. -/
inductive IsAnswer : {α : Type} → Reader α → Shape → Prop where
  | page : IsAnswer Page.xmlReader Page.shape
  | summary : IsAnswer Summary.xmlReader Summary.shape
  | upload : IsAnswer Upload.xmlReader Upload.shape
  | deleteResult : IsAnswer DeleteResult.xmlReader DeleteResult.shape
  | errorBody : IsAnswer ErrorBody.reader ErrorBody.shape

variable {α : Type} {r : Reader α} {shape : Shape} {d : Document} {k : Context} {tag : Tag}

theorem IsAnswer.follows (h : IsAnswer r shape) : r.Follows shape := by
  cases h with
  | page => exact Page.follows
  | summary => exact Summary.follows
  | upload => exact Upload.follows
  | deleteResult => exact DeleteResult.follows
  | errorBody => exact ErrorBody.follows

/-- How a reading of documents takes an element without content in a place: where no field is looked
for its notation does not matter, in one tag it counts no more than a comment anywhere, and as the
root it is missing then. -/
structure TellsTags {β : Type} (reading : Bytes → β) (shape : Shape) (missing : β) (d : Document)
    (k : Context) (tag : Tag) : Prop where
  overlooked : k.Overlooked tag.name shape → (k.inOneTag tag).Fits shape →
    reading (d.holding (k.inTwoTags tag)).bytes = reading (d.holding (k.inOneTag tag)).bytes
  uncounted : ∀ skipped : Aside,
    reading (d.holding (k.inOneTag tag)).bytes = reading (d.holding (k.without skipped)).bytes
  root : reading (d.emptyBytes ++ d.epilog.bytes) = missing

private theorem tellsTags_of_rooted {β : Type} {reading : Bytes → β} {missing : β}
    (h : r.Follows shape) (g : Except Xml.Error (Bytes × Except Xml.Error α) → β)
    (hread : ∀ document, reading document = g (r.rooted (Xml.Event.ofDocument document)))
    (hmissing : g (.error (.missing "root element")) = missing) :
    TellsTags reading shape missing d k tag where
  overlooked hk hfits := by
    rw [hread, hread, h.rooted_inTwoTags hk hfits]
  uncounted skipped := by
    rw [hread, hread, h.rooted_inOneTag skipped]
  root := by
    rw [hread, Reader.rooted_emptyBytes r d.toOpening d.epilog_margin, hmissing]

/-- Every answer is read so, and so is the document of an error. -/
theorem tellsTags_of_answer (d : Document) (k : Context) (tag : Tag) :
    (∀ {α : Type} {r : Reader α} {shape : Shape}, IsAnswer r shape →
      TellsTags (readDocument r) shape (.error (.missing "root element")) d k tag) ∧
    TellsTags ErrorBody.ofDocument? ErrorBody.shape none d k tag := by
  constructor
  · intro α r shape h
    exact tellsTags_of_rooted h.follows (fun found => found.bind (·.2))
      (fun _ => Reader.document_eq r _) rfl
  · exact tellsTags_of_rooted ErrorBody.follows
      (fun found => found.toOption.bind fun found =>
        if found.1 = utf8 "Error" then found.2.toOption else none)
      (fun _ => Reader.documentNamed_eq ErrorBody.reader _ _) rfl

/-- The owner of an object is passed in either notation. -/
theorem readDocument_owner :
    readDocument Page.xmlReader
        (utf8 "<R><Contents><Key>k</Key><Owner></Owner></Contents></R>") =
      readDocument Page.xmlReader (utf8 "<R><Contents><Key>k</Key><Owner/></Contents></R>") := by
  let listing : Document := { root := { name := "R" }, content := .text .empty }
  let place : Context := .within .empty { name := "Contents" }
    (.beside .empty { name := "Key" } (.text ⟨"k", by decide⟩) (.here .empty (.text .empty)))
    (.text .empty)
  have htwo : utf8 "<R><Contents><Key>k</Key><Owner></Owner></Contents></R>" =
      (listing.holding (place.inTwoTags { name := "Owner" })).bytes := by decide
  have hone : utf8 "<R><Contents><Key>k</Key><Owner/></Contents></R>" =
      (listing.holding (place.inOneTag { name := "Owner" })).bytes := by decide
  have hplace : place.Overlooked "Owner" Page.shape := by
    rintro shape ⟨⟩
    rfl
  have hfits : (place.inOneTag { name := "Owner" }).Fits Page.shape := by
    simp [place, Context.inOneTag, Context.fill, Content.Fits, Page.shape, Summary.shape]
  rw [htwo, hone]
  exact ((tellsTags_of_answer _ _ _).1 .page).overlooked hplace hfits

/-- Of the two notations of a batch's empty answer one is a failure. -/
theorem ne_of_empty_batch :
    readDocument DeleteResult.xmlReader (utf8 "<DeleteResult></DeleteResult>") = .ok {} ∧
    readDocument DeleteResult.xmlReader (utf8 "<DeleteResult/>") =
      .error (.missing "root element") := by
  let o : Opening := { root := { name := "DeleteResult" } }
  have htwo : utf8 "<DeleteResult></DeleteResult>" =
      { o with content := .text .empty : Document }.bytes := by decide
  have hone : utf8 "<DeleteResult/>" = o.emptyBytes ++ (Content.text .empty).bytes := by decide
  have hdeleted : (Content.text .empty).Lists "Deleted"
      (Reader.record [DeleteResult.keyField] "").Reads [] := .nil
  have herrors : (Content.text .empty).Lists "Error" ErrorBody.reader.Reads [] := .nil
  constructor
  · rw [htwo]
    exact readDocument_of_reads (DeleteResult.reads hdeleted herrors)
  · rw [hone, readDocument, Reader.document_eq,
      Reader.rooted_emptyBytes _ o (by simp [Content.IsMargin]; decide)]
    rfl

end BucketTransfer.ObjectStore
