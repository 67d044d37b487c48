import BucketTransfer.Proofs.ObjectStore.Records
import BucketTransfer.Proofs.Outcome
import BucketTransfer.Proofs.Xml.Overrun

/-!
# The documents of pages

A page of a listing is what the children of its document's root say, if each is of its shape: texts
where texts are looked for. Of other documents nothing is read that follows the first child of
another shape.
-/
namespace BucketTransfer.ObjectStore

open scoped Xml
open Xml (Content Document FirstOdd Reader Run Shape Tag closing walk)
open Xml.Event (scan)

namespace Page
variable {c : Content} {p : Page}

/-- A page holds what the children of an element say: all objects, and of what can be said once what
is said last. -/
structure Shows (c : Content) (p : Page) : Prop where
  objects : c.Lists "Contents" Summary.xmlReader.Reads p.objects
  truncated : ∃ bs, c.Lists "IsTruncated" Reader.truth.Reads bs ∧
    p.truncated = bs.getLast?.getD false
  nextMarker : ∃ markers, c.Lists "NextMarker" Reader.text.Reads markers ∧
    p.nextMarker = (markers.filter fun marker => !marker.isEmpty).getLast?

theorem foldl_last {α : Type} (as : List α) (a : α) :
    as.foldl (fun _ a => a) a = as.getLast?.getD a := by
  induction as generalizing a with
  | nil => rfl
  | cons b as ih => rw [List.foldl_cons, ih, List.getLast?_cons, Option.getD_some]

theorem foldl_marker (markers : List String) (m : Option String) :
    markers.foldl (fun m s => if s.isEmpty then m else some s) m =
      (markers.filter fun marker => !marker.isEmpty).getLast?.or m := by
  induction markers generalizing m with
  | nil => rfl
  | cons marker markers ih =>
    rw [List.foldl_cons, ih, List.filter_cons]
    cases marker.isEmpty with
    | true => rfl
    | false => simp [List.getLast?_cons]

/-- The children that are looked for, and their shapes. -/
def known : List (String × Shape) :=
  [("Contents", Summary.shape), ("IsTruncated", .text), ("NextMarker", .text)]

def shapeOf (name : String) : Shape := if name = "Contents" then Summary.shape else .text

theorem known_eq : known = fields.map fun f => (f.name, shapeOf f.name) := rfl

theorem fields_follow : ∀ f ∈ fields, f.reader.Follows (shapeOf f.name) := by
  simp only [fields, List.forall_mem_cons]
  exact ⟨Summary.follows, .bind .text _, .text, by simp⟩

/-- The children of one name can be read, if the page can. -/
private theorem exists_lists (hfits : c.Fits shape) (h : xmlReader.outcome c = .ok p)
    (name : String) {f : Xml.Field Page} (hfind : Xml.Field.find fields name = some f) :
    ∃ vs, c.Lists name f.reader.Reads vs := by
  have hfits : c.Fits (.fields (fields.map fun f => (f.name, shapeOf f.name))) := hfits
  rw [xmlReader_eq, Reader.outcome_of_fits shapeOf fields_follow hfits] at h
  refine exists_forall₂_iff.2 fun d hd => ?_
  obtain ⟨v, hv⟩ := Xml.Field.exists_walk_iff.1 ⟨p, h⟩ (name, d) (Xml.mem_ofName.1 hd) f hfind
  have hf := Xml.Field.mem_of_find hfind
  rw [← Xml.Field.name_of_find hfind] at hd
  exact ⟨v, ((fields_follow f hf).settles (Reader.fits_of_named hfits hf hd)).reads hv⟩

theorem outcome_eq_ok (hfits : c.Fits shape) : xmlReader.outcome c = .ok p ↔ Shows c p := by
  constructor
  · intro h
    obtain ⟨objects, hobjects⟩ := exists_lists hfits h "Contents" rfl
    obtain ⟨bs, htruncated⟩ := exists_lists hfits h "IsTruncated" rfl
    obtain ⟨markers, hmarker⟩ := exists_lists hfits h "NextMarker" rfl
    have hreads := (reads hobjects htruncated hmarker).outcome
    obtain rfl := Except.ok.inj (h.symm.trans hreads)
    refine ⟨hobjects, ⟨bs, htruncated, foldl_last bs false⟩, ⟨markers, hmarker, ?_⟩⟩
    rw [foldl_marker, Option.or_none]
  · rintro ⟨hobjects, ⟨bs, htruncated, hlast⟩, markers, hmarker, hmarked⟩
    rw [(reads hobjects htruncated hmarker).outcome, foldl_last, foldl_marker, Option.or_none,
      ← hlast, ← hmarked]

theorem readDocument_eq (d : Document) :
    readDocument xmlReader d.bytes = xmlReader.outcome d.content := by
  obtain ⟨cs, hleaves, -⟩ := follows.tells d.content
  exact Reader.document_of_leaves hleaves

theorem readDocument_of_firstOdd {before after : List (String × Content)} {name : String}
    {odd first : Content} {others : List Content} {f : Xml.Field Page} {d : Document}
    (hodd : FirstOdd known d.content.elements before name odd after)
    (hfind : Xml.Field.find fields name = some f) (hleft : f.reader.Leaves odd (first :: others)) :
    readDocument xmlReader d.bytes =
      (walk (Xml.Field.child fields) {} (before ++ [(name, odd)])).bind fun page =>
        (Reader.record fields page).outcome first := by
  rw [readDocument_eq, xmlReader_eq]
  exact Reader.outcome_of_firstOdd fields_follow hodd hfind hleft {}

/-- A text stops behind the first end tag, which is its own exactly if it holds no element with two
tags. A document all of whose fields are texts, where such are looked for, is a page exactly if that
shows all that the children of its root say. Of any other document the reading goes up to the first
child that is not of its shape, and on in what is left of this child as if that stood in the root;
whatever stands behind the child does not count. -/
theorem readDocument_cases (d : Document) :
    (∀ (c : Content) (tag : Tag) (opened : List Bytes) (after : Bytes),
      let inside := scan (utf8 tag.name :: opened) (c.bytes ++ (tag.endBytes ++ after))
      Reader.text.read inside = c.characters.map (fun cs =>
        (String.ofList cs, closing c.tails (scan opened after))) ∧
      ((∃ s, Reader.text.read inside = .ok (s, scan opened after)) ↔
        c.elements = [] ∧ ∃ cs, c.characters = .ok cs)) ∧
    (d.content.Fits shape → ∀ p, readDocument xmlReader d.bytes = .ok p ↔ Shows d.content p) ∧
    (¬d.content.Fits shape → ∃ before name odd after,
      FirstOdd known d.content.elements before name odd after ∧
      ∃ f first others, Xml.Field.find fields name = some f ∧
        f.reader.Leaves odd (first :: others) ∧
        ∀ (d' : Document) (after' : List (String × Content)),
          d'.content.elements = before ++ (name, odd) :: after' →
            readDocument xmlReader d'.bytes =
              (walk (Xml.Field.child fields) {} (before ++ [(name, odd)])).bind fun page =>
                (Reader.record fields page).outcome first) := by
  refine ⟨fun c tag opened after => ?_, fun hfits p => ?_, fun hfits => ?_⟩
  · rw [c.scan_closed]
    refine ⟨?_, Reader.read_text_eq_ok⟩
    rw [Reader.leaves_text c, Reader.outcome_text]
    cases c.characters with
    | error e => rfl
    | ok cs => rfl
  · rw [readDocument_eq]
    exact outcome_eq_ok hfits
  · have hfits : ¬d.content.Fits (.fields known) := hfits
    obtain ⟨before, name, odd, after, hodd⟩ := Xml.exists_firstOdd hfits
    obtain ⟨_, hlookup, hshape⟩ := hodd.odd
    rw [known_eq] at hlookup
    obtain ⟨f, hfind, rfl⟩ := Reader.exists_find hlookup
    have htells := (fields_follow f (Xml.Field.mem_of_find hfind)).tells
    obtain ⟨first, others, hleft⟩ := htells.exists_left hshape
    exact ⟨before, name, odd, after, hodd, f, first, others, hfind, hleft, fun d' after' hsplit =>
      readDocument_of_firstOdd ⟨hsplit, hodd.fits, hodd.odd⟩ hfind hleft⟩

private theorem reads_run (r : Run) : Reader.text.Reads (.text r) r.text := by
  refine (Reader.settles_text rfl).reads ?_
  rw [Reader.outcome_text]
  exact congrArg Except.ok String.ofList_toList

theorem readDocument_cases_of_marker :
    readDocument xmlReader
        (utf8 "<R><NextMarker>m</NextMarker><Contents><Key>k</Key></Contents></R>") =
      .ok { objects := [{ key := "k" }], nextMarker := some "m" } ∧
    readDocument xmlReader
        (utf8 "<R><NextMarker>m<b></b></NextMarker><Contents><Key>k</Key></Contents></R>") =
      readDocument xmlReader (utf8 "<R><NextMarker>m<b></b></NextMarker></R>") := by
  let m : Run := ⟨"m", by decide⟩
  let keyed : Content := .element .empty { name := "Key" } (.text ⟨"k", by decide⟩) (.text .empty)
  let object : Content := .element .empty { name := "Contents" } keyed (.text .empty)
  let page (marker rest : Content) : Document :=
    { root := { name := "R" }, content := .element .empty { name := "NextMarker" } marker rest }
  constructor
  · have hbytes : utf8 "<R><NextMarker>m</NextMarker><Contents><Key>k</Key></Contents></R>" =
        (page (.text m) object).bytes := by decide
    have hfits : (page (.text m) object).content.Fits shape := by
      simp [page, object, keyed, Content.Fits, shape, Summary.shape]
    have hkey : keyed.Lists "Key" Reader.text.Reads ([] ++ ["k"]) := .cons (reads_run _) .nil
    have hobject : Summary.xmlReader.Reads keyed { key := "k" } :=
      Summary.reads hkey .nil .nil .nil
    obtain ⟨-, hwhole, -⟩ := readDocument_cases (page (.text m) object)
    rw [hbytes]
    exact (hwhole hfits _).2 ⟨.cons hobject .nil, ⟨[], .nil, rfl⟩,
      ⟨["m"], .cons (reads_run m) .nil, by decide⟩⟩
  · let marker : Content := .element m { name := "b" } (.text .empty) (.text .empty)
    have hbytes : utf8
        "<R><NextMarker>m<b></b></NextMarker><Contents><Key>k</Key></Contents></R>" =
          (page marker object).bytes := by decide
    have hbytes' : utf8 "<R><NextMarker>m<b></b></NextMarker></R>" =
        (page marker (.text .empty)).bytes := by decide
    have hfits : ¬(page marker object).content.Fits shape := fun hfits => hfits.1 .text rfl
    obtain ⟨-, -, hodd⟩ := readDocument_cases (page marker object)
    obtain ⟨before, name, odd, after, hfirst, f, first, others, -, -, hread⟩ := hodd hfits
    rw [hbytes, hbytes']
    cases before with
    | nil =>
      obtain ⟨heq, -⟩ := List.cons.inj hfirst.split
      rw [hread _ after hfirst.split,
        hread (page marker (.text .empty)) [] (congrArg (fun e => [e]) heq)]
    | cons e before =>
      obtain ⟨rfl, -⟩ := List.cons.inj hfirst.split
      exact False.elim (hfirst.fits _ List.mem_cons_self .text rfl)

/-- Behind a marker with an element in it an object is lost. -/
theorem ne_length_of_marker :
    ¬∀ (d : Document) (p : Page), readDocument xmlReader d.bytes = .ok p →
      p.objects.length = (d.content.named "Contents").length := by
  intro h
  let marker : Content :=
    .element ⟨"m", by decide⟩ { name := "b" } (.text .empty) (.text .empty)
  let keyed : Content := .element .empty { name := "Key" } (.text ⟨"k", by decide⟩) (.text .empty)
  let d : Document :=
    { root := { name := "R" }
      content := .element .empty { name := "NextMarker" } marker
        (.element .empty { name := "Contents" } keyed (.text .empty)) }
  have hodd : FirstOdd known d.content.elements [] "NextMarker" marker [("Contents", keyed)] :=
    ⟨rfl, fun e he => absurd he List.not_mem_nil, .text, rfl, id⟩
  have hmarker : walk (Xml.Field.child fields) {} [("NextMarker", marker)] =
      .ok { nextMarker := some "m" } := by
    rw [Xml.walk_cons, Xml.Field.child_of_find rfl, Reader.outcome_map, Reader.outcome_text]
    rfl
  have hempty : (Content.text .empty).Fits
      (.fields (fields.map fun f => (f.name, shapeOf f.name))) := trivial
  have hleft (page : Page) : (Reader.record fields page).outcome (.text .empty) = .ok page :=
    Reader.outcome_of_fits shapeOf fields_follow hempty page
  have hread : readDocument xmlReader d.bytes = .ok { nextMarker := some "m" } := by
    rw [readDocument_of_firstOdd hodd rfl (Reader.leaves_text marker), List.nil_append, hmarker]
    exact hleft _
  exact absurd (h d _ hread) (by decide)

end Page

end BucketTransfer.ObjectStore
