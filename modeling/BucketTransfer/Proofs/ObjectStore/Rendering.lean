import BucketTransfer.Proofs.ObjectStore.Records
import BucketTransfer.Proofs.Text.Values
import BucketTransfer.Proofs.Xml.Escape

/-!
# Answers in every layout

An answer may be written in many ways: with the fields of an element in any order, entity tags in
quotes or bare, and blanks, asides and other elements between what counts. It is read as what it
says in all of them.
-/
namespace BucketTransfer.ObjectStore

open scoped Xml
open Xml (Content Document Reader)

variable {c : Content}

/-- An entity tag with neither blanks nor quotes at its ends. -/
def IsBareTag (s : String) : Prop :=
  ∀ c, c ∈ s.toList.head? ∨ c ∈ s.toList.getLast? → Text.isBlank c = false ∧ c ≠ '"'

namespace IsBareTag
variable {s : String}

theorem bareEtag_eq (h : IsBareTag s) : bareEtag s = s := by
  rw [bareEtag, Text.trim_of_ends (fun c hc => (h c (.inl hc)).1) fun c hc => (h c (.inr hc)).1,
    Text.trimWhere_of_ends (fun c hc => beq_false_of_ne (h c (.inl hc)).2)
      fun c hc => beq_false_of_ne (h c (.inr hc)).2, String.ofList_toList]

theorem bareEtag_quoted (h : IsBareTag s) : bareEtag ("\"" ++ s ++ "\"") = s := by
  have hchars : ("\"" ++ s ++ "\"").toList = '"' :: (s.toList ++ ['"']) := by simp
  have htrim : Text.trim ("\"" ++ s ++ "\"") = "\"" ++ s ++ "\"" := by
    refine Text.trim_of_ends (fun c hc => ?_) fun c hc => ?_
    · rw [hchars, List.head?_cons] at hc
      cases hc
      decide
    · rw [hchars, ← List.cons_append, List.getLast?_concat] at hc
      cases hc
      decide
  rw [bareEtag, htrim, hchars, Text.trimWhere_between (by decide)
    (fun c hc => beq_false_of_ne (h c (.inl hc)).2) fun c hc => beq_false_of_ne (h c (.inr hc)).2,
    String.ofList_toList]

end IsBareTag

section Values

private theorem reads_natural {n : Nat} (hn : n ≤ Text.maxU64) (h : c.Spells (toString n)) :
    Reader.natural.Reads c n := by
  refine h.reads.bind ?_
  rw [Text.trim_toString, Text.readUnsigned_toString hn]

private theorem reads_truth {b : Bool} (h : c.Spells (toString b)) : Reader.truth.Reads c b := by
  refine h.reads.bind ?_
  cases b
  all_goals decide

/-- An entity tag, bare or in quotes. -/
def SpellsTag (c : Content) (tag : String) : Prop := c.Spells tag ∨ c.Spells ("\"" ++ tag ++ "\"")

private theorem exists_tag {tag : String} (htag : IsBareTag tag) (h : SpellsTag c tag) :
    ∃ s, Reader.text.Reads c s ∧ bareEtag s = tag := by
  rcases h with h | h
  · exact ⟨_, h.reads, htag.bareEtag_eq⟩
  · exact ⟨_, h.reads, htag.bareEtag_quoted⟩

private theorem foldl_toList {α : Type} (o : Option α) :
    o.toList.foldl (fun _ a => some a) none = o := by
  cases o
  all_goals rfl

end Values

namespace Summary
variable {s : Summary}

/-- What a store says of an object: its size has 64 bits, and its entity tag is bare. -/
structure IsStored (s : Summary) : Prop where
  size_le : s.size ≤ Text.maxU64
  bare : ∀ tag ∈ s.etag, IsBareTag tag

/-- A summary in an element. -/
structure Rendered (s : Summary) (c : Content) : Prop where
  key : c.Lists "Key" Content.Spells [s.key]
  size : c.Lists "Size" (fun d n => d.Spells (toString n)) [s.size]
  etag : c.Lists "ETag" SpellsTag s.etag.toList
  lastModified : c.Lists "LastModified" Content.Spells s.lastModified.toList

theorem Rendered.reads (h : s.Rendered c) (hs : s.IsStored) : xmlReader.Reads c s := by
  have hkey : c.Lists "Key" Reader.text.Reads ([] ++ [s.key]) := h.key.imp fun _ _ _ hd => hd.reads
  have hsize : c.Lists "Size" Reader.natural.Reads [s.size] := by
    refine h.size.imp fun d n hn hd => reads_natural ?_ hd
    rw [List.mem_singleton.1 hn]
    exact hs.size_le
  have htime : c.Lists "LastModified" Reader.text.Reads s.lastModified.toList :=
    h.lastModified.imp fun _ _ _ hd => hd.reads
  obtain ⟨tags, htags, hbare⟩ := h.etag.exists_map bareEtag fun d tag htag hd =>
    exists_tag (hs.bare tag (Option.mem_toList.1 htag)) hd
  have hetag : tags.foldl (fun _ s => some (bareEtag s)) none = s.etag := by
    rw [← List.foldl_map, hbare, foldl_toList]
  have hread := Summary.reads hkey hsize htags htime
  rw [hetag, foldl_toList] at hread
  exact hread

end Summary

namespace Page
variable {p : Page}

/-- What a store says of a page: a marker that it names is not empty. -/
structure IsStored (p : Page) : Prop where
  objects : ∀ s ∈ p.objects, s.IsStored
  marker : p.nextMarker ≠ some ""

/-- A page in an element. -/
structure Rendered (p : Page) (c : Content) : Prop where
  objects : c.Lists "Contents" (fun d s => s.Rendered d) p.objects
  truncated : c.Lists "IsTruncated" (fun d b => d.Spells (toString b)) [p.truncated]
  nextMarker : c.Lists "NextMarker" Content.Spells p.nextMarker.toList

theorem Rendered.reads (h : p.Rendered c) (hp : p.IsStored) : xmlReader.Reads c p := by
  have hobjects : c.Lists "Contents" Summary.xmlReader.Reads p.objects :=
    h.objects.imp fun _ s hs hd => hd.reads (hp.objects s hs)
  have htruncated : c.Lists "IsTruncated" Reader.truth.Reads [p.truncated] :=
    h.truncated.imp fun _ _ _ hd => reads_truth hd
  have hmarkers : c.Lists "NextMarker" Reader.text.Reads p.nextMarker.toList :=
    h.nextMarker.imp fun _ _ _ hd => hd.reads
  have hmarker : p.nextMarker.toList.foldl (fun m s => if s.isEmpty then m else some s) none =
      p.nextMarker := by
    have hne := hp.marker
    cases hm : p.nextMarker with
    | none => rfl
    | some marker =>
      rw [hm] at hne
      exact if_neg (by simpa using hne)
  have hread := Page.reads hobjects htruncated hmarkers
  rw [hmarker] at hread
  exact hread

end Page

namespace Upload
variable {u : Upload}

/-- An upload in an element. -/
structure Rendered (u : Upload) (c : Content) : Prop where
  bucket : c.Lists "Bucket" Content.Spells [u.bucket]
  key : c.Lists "Key" Content.Spells [u.key]
  id : c.Lists "UploadId" Content.Spells [u.id]

theorem Rendered.reads (h : u.Rendered c) (hu : u.id ≠ "") : xmlReader.Reads c u :=
  Upload.reads (h.bucket.imp fun _ _ _ hd => hd.reads) (h.key.imp fun _ _ _ hd => hd.reads)
    (h.id.imp fun _ _ _ hd => hd.reads) hu

end Upload

/-- An object that could not be deleted, in an element. -/
structure DeleteError.Rendered (e : DeleteError) (c : Content) : Prop where
  key : c.Lists "Key" Content.Spells [e.key]
  code : c.Lists "Code" Content.Spells [e.code]
  message : c.Lists "Message" Content.Spells [e.message]
  /-- The request may be named, which nobody asks for. -/
  requestId : ∃ ids, c.Lists "RequestId" Content.Spells ids

theorem DeleteError.Rendered.exists_reads {e : DeleteError} (h : e.Rendered c) :
    ∃ body, ErrorBody.reader.Reads c body ∧
      DeleteError.mk (body.key.getD "") body.code body.message = e := by
  obtain ⟨ids, hids⟩ := h.requestId
  exact ⟨_, ErrorBody.reads (h.code.imp fun _ _ _ hd => hd.reads)
    (h.message.imp fun _ _ _ hd => hd.reads) (hids.imp fun _ _ _ hd => hd.reads)
    (h.key.imp fun _ _ _ hd => hd.reads), rfl⟩

namespace DeleteResult
variable {r : DeleteResult}

/-- What became of a batch, in an element. -/
structure Rendered (r : DeleteResult) (c : Content) : Prop where
  deleted : c.Lists "Deleted" (fun d key => d.Lists "Key" Content.Spells [key]) r.deleted
  errors : c.Lists "Error" (fun d e => e.Rendered d) r.errors

theorem Rendered.reads (h : r.Rendered c) : xmlReader.Reads c r := by
  have hdeleted : c.Lists "Deleted" (Reader.record [keyField] "").Reads r.deleted :=
    h.deleted.imp fun _ _ _ hd => reads_key (hd.imp fun _ _ _ hd => hd.reads)
  obtain ⟨bodies, hbodies, herrors⟩ := h.errors.exists_map
    (fun body : ErrorBody => DeleteError.mk (body.key.getD "") body.code body.message)
    fun _ _ _ hd => hd.exists_reads
  have hread := DeleteResult.reads hdeleted hbodies
  rw [herrors] at hread
  exact hread

end DeleteResult

/-- An answer is read as what it says, in every layout. -/
theorem readDocument_of_rendered (d : Document) :
    (∀ p : Page, p.IsStored → p.Rendered d.content →
      readDocument Page.xmlReader d.bytes = .ok p) ∧
    (∀ s : Summary, s.IsStored → s.Rendered d.content →
      readDocument Summary.xmlReader d.bytes = .ok s) ∧
    (∀ r : DeleteResult, r.Rendered d.content →
      readDocument DeleteResult.xmlReader d.bytes = .ok r) ∧
    ∀ u : Upload, u.id ≠ "" → u.Rendered d.content →
      readDocument Upload.xmlReader d.bytes = .ok u :=
  ⟨fun _ hp h => readDocument_of_reads (h.reads hp),
    fun _ hs h => readDocument_of_reads (h.reads hs),
    fun _ h => readDocument_of_reads h.reads,
    fun _ hu h => readDocument_of_reads (h.reads hu)⟩

section Samples

/-- An object, after its owner, who has a key of another kind. -/
private theorem exists_object : ∃ d : Document,
    utf8 "<R><Owner><Key>o</Key></Owner><ETag>&quot;e&quot;</ETag>" ++
        utf8 "<Size>12</Size><Key>k</Key></R>" = d.bytes ∧
      Summary.Rendered { key := "k", size := 12, etag := some "e" } d.content := by
  let owner : Content :=
    .element .empty { name := "Key" } (.text ⟨"o", by decide⟩) (.text .empty)
  let etag : Content := .reference .empty ⟨utf8 "quot", by decide⟩ <|
    .reference ⟨"e", by decide⟩ ⟨utf8 "quot", by decide⟩ (.text .empty)
  refine ⟨{
    root := { name := "R" }
    content := .element .empty { name := "Owner" } owner <|
      .element .empty { name := "ETag" } etag <|
      .element .empty { name := "Size" } (.text ⟨"12", by decide⟩) <|
      .element .empty { name := "Key" } (.text ⟨"k", by decide⟩) (.text .empty) }, by decide, ?_⟩
  exact ⟨.cons (by decide) .nil, .cons (by decide) .nil, .cons (.inr (by decide)) .nil, .nil⟩

/-- A page, with its marker in front of its object. -/
private theorem exists_page : ∃ d : Document,
    utf8 "<R><NextMarker>m</NextMarker>\n<!--one--><Contents><Key>k</Key><Size>12</Size>" ++
        utf8 "</Contents><IsTruncated>true</IsTruncated></R>" = d.bytes ∧
      Page.Rendered
        { objects := [{ key := "k", size := 12 }], truncated := true, nextMarker := some "m" }
        d.content := by
  let object : Content :=
    .element .empty { name := "Key" } (.text ⟨"k", by decide⟩) <|
    .element .empty { name := "Size" } (.text ⟨"12", by decide⟩) (.text .empty)
  have hobject : Summary.Rendered { key := "k", size := 12 } object :=
    ⟨.cons (by decide) .nil, .cons (by decide) .nil, .nil, .nil⟩
  refine ⟨{
    root := { name := "R" }
    content := .element .empty { name := "NextMarker" } (.text ⟨"m", by decide⟩) <|
      .aside ⟨"\n", by decide⟩ (.comment (utf8 "one") (by decide)) <|
      .element .empty { name := "Contents" } object <|
      .element .empty { name := "IsTruncated" } (.text ⟨"true", by decide⟩) (.text .empty) },
    by decide, ?_⟩
  exact ⟨.cons hobject .nil, .cons (by decide) .nil, .cons (by decide) .nil⟩

/-- A batch of two objects. -/
private theorem exists_batch : ∃ d : Document,
    utf8 "<R><Deleted><Key>k</Key></Deleted><Error><Message>m</Message>" ++
        utf8 "<Code>c</Code><Key>l</Key></Error></R>" = d.bytes ∧
      DeleteResult.Rendered { deleted := ["k"], errors := [⟨"l", "c", "m"⟩] } d.content := by
  let deleted : Content :=
    .element .empty { name := "Key" } (.text ⟨"k", by decide⟩) (.text .empty)
  let error : Content :=
    .element .empty { name := "Message" } (.text ⟨"m", by decide⟩) <|
    .element .empty { name := "Code" } (.text ⟨"c", by decide⟩) <|
    .element .empty { name := "Key" } (.text ⟨"l", by decide⟩) (.text .empty)
  have herror : DeleteError.Rendered ⟨"l", "c", "m"⟩ error :=
    ⟨.cons (by decide) .nil, .cons (by decide) .nil, .cons (by decide) .nil, [], .nil⟩
  refine ⟨{
    root := { name := "R" }
    content := .element .empty { name := "Deleted" } deleted <|
      .element .empty { name := "Error" } error (.text .empty) }, by decide, ?_⟩
  exact ⟨.cons (.cons (by decide) .nil) .nil, .cons herror .nil⟩

/-- An upload that has been started. -/
private theorem exists_upload : ∃ d : Document,
    utf8 "<R><UploadId>u</UploadId><Bucket>b</Bucket><Key>k</Key></R>" = d.bytes ∧
      Upload.Rendered ⟨"b", "k", "u"⟩ d.content := by
  refine ⟨{
    root := { name := "R" }
    content := .element .empty { name := "UploadId" } (.text ⟨"u", by decide⟩) <|
      .element .empty { name := "Bucket" } (.text ⟨"b", by decide⟩) <|
      .element .empty { name := "Key" } (.text ⟨"k", by decide⟩) (.text .empty) }, by decide, ?_⟩
  exact ⟨.cons (by decide) .nil, .cons (by decide) .nil, .cons (by decide) .nil⟩

theorem readDocument_samples :
    readDocument Page.xmlReader
        (utf8 "<R><NextMarker>m</NextMarker>\n<!--one--><Contents><Key>k</Key><Size>12</Size>" ++
          utf8 "</Contents><IsTruncated>true</IsTruncated></R>") =
      .ok { objects := [{ key := "k", size := 12 }], truncated := true, nextMarker := some "m" } ∧
    readDocument Summary.xmlReader
        (utf8 "<R><Owner><Key>o</Key></Owner><ETag>&quot;e&quot;</ETag>" ++
          utf8 "<Size>12</Size><Key>k</Key></R>") =
      .ok { key := "k", size := 12, etag := some "e" } ∧
    readDocument DeleteResult.xmlReader
        (utf8 "<R><Deleted><Key>k</Key></Deleted><Error><Message>m</Message>" ++
          utf8 "<Code>c</Code><Key>l</Key></Error></R>") =
      .ok { deleted := ["k"], errors := [⟨"l", "c", "m"⟩] } ∧
    readDocument Upload.xmlReader
        (utf8 "<R><UploadId>u</UploadId><Bucket>b</Bucket><Key>k</Key></R>") =
      .ok ⟨"b", "k", "u"⟩ := by
  obtain ⟨page, hpage, hpageRendered⟩ := exists_page
  obtain ⟨object, hobject, hobjectRendered⟩ := exists_object
  obtain ⟨batch, hbatch, hbatchRendered⟩ := exists_batch
  obtain ⟨upload, hupload, huploadRendered⟩ := exists_upload
  have hbare : IsBareTag "e" := by
    intro c hc
    rcases hc with hc | hc
    all_goals
      cases hc
      decide
  have hstored : Summary.IsStored { key := "k", size := 12 } := ⟨by decide, by simp⟩
  rw [hpage, hobject, hbatch, hupload]
  refine ⟨(readDocument_of_rendered page).1 _ ⟨?_, by decide⟩ hpageRendered,
    (readDocument_of_rendered object).2.1 _ ⟨by decide, ?_⟩ hobjectRendered,
    (readDocument_of_rendered batch).2.2.1 _ hbatchRendered,
    (readDocument_of_rendered upload).2.2.2 _ (by decide) huploadRendered⟩
  · exact List.forall_mem_singleton.2 hstored
  · rintro tag ⟨⟩
    exact hbare

end Samples

end BucketTransfer.ObjectStore
