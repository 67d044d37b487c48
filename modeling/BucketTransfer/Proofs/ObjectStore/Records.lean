import BucketTransfer.ObjectStore.Document
import BucketTransfer.Proofs.Xml.Shape

/-!
# The records in answers

The readers of answers by the fields that they read, and what an answer comes to if its fields can
be read.
-/
namespace BucketTransfer.ObjectStore

open Xml (Content Document Reader Shape)
open Xml.Field (get_of_walk)

variable {c : Content}

theorem ignore_eq_child {σ : Type} {fs : List (Xml.Field σ)} {name : String} {s : σ}
    (h : ∀ f ∈ fs, name ≠ f.name) : Reader.ignore s = Xml.Field.child fs name s :=
  (Xml.Field.child_of_unknown (Xml.Field.find_eq_none.2 h)).symm

theorem readDocument_of_reads {α : Type} {r : Reader α} {d : Document} {a : α}
    (h : r.Reads d.content a) : readDocument r d.bytes = .ok a := by
  rw [readDocument, Reader.document_bytes h.settles, h.outcome]

theorem foldl_append_map {α β : Type} (f : α → β) (xs : List α) (ys : List β) :
    xs.foldl (fun ys x => ys ++ [f x]) ys = ys ++ xs.map f := by
  induction xs generalizing ys with
  | nil => rw [List.foldl_nil, List.map_nil, List.append_nil]
  | cons x xs ih =>
    rw [List.foldl_cons, ih, List.append_assoc, List.map_cons, List.singleton_append]

namespace ErrorBody

def fields : List (Xml.Field ErrorBody) :=
  [⟨"Code", Reader.text, fun body s => { body with code := s }⟩,
    ⟨"Message", Reader.text, fun body s => { body with message := s }⟩,
    ⟨"RequestId", Reader.text, fun body s => { body with requestId := some s }⟩,
    ⟨"Key", Reader.text, fun body s => { body with key := some s }⟩]

theorem reader_eq : reader = .record fields {} := by
  refine congrArg (Reader.children · ({} : ErrorBody)) (funext₂ fun name body => ?_)
  split
  case h_5 h1 h2 h3 h4 => exact ignore_eq_child (by simpa [fields] using ⟨h1, h2, h3, h4⟩)
  all_goals rfl

def shape : Shape :=
  .fields [("Code", .text), ("Message", .text), ("RequestId", .text), ("Key", .text)]

theorem fields_follow : ∀ f ∈ fields, f.reader.Follows .text := by
  simp only [fields, List.forall_mem_cons]
  exact ⟨.text, .text, .text, .text, by simp⟩

theorem follows : reader.Follows shape := by
  rw [reader_eq]
  exact .record (fun _ => .text) fields_follow _

/-- An error holds what the last field of each name does. -/
theorem reads {codes messages ids keys : List String}
    (hcode : c.Lists "Code" Reader.text.Reads codes)
    (hmessage : c.Lists "Message" Reader.text.Reads messages)
    (hid : c.Lists "RequestId" Reader.text.Reads ids)
    (hkey : c.Lists "Key" Reader.text.Reads keys) :
    reader.Reads c
      { code := codes.foldl (fun _ s => s) ""
        message := messages.foldl (fun _ s => s) ""
        requestId := ids.foldl (fun _ s => some s) none
        key := keys.foldl (fun _ s => some s) none } := by
  obtain ⟨body, hbody, hwalk⟩ := Reader.exists_record fields {} (c := c) (by
    simp only [fields, List.forall_mem_cons]
    exact ⟨⟨_, hcode⟩, ⟨_, hmessage⟩, ⟨_, hid⟩, ⟨_, hkey⟩, by simp⟩)
  have hcode := get_of_walk hwalk "Code" rfl ErrorBody.code (fun _ s => s) hcode
    (fun _ _ => rfl) (by simp [fields])
  have hmessage := get_of_walk hwalk "Message" rfl ErrorBody.message (fun _ s => s) hmessage
    (fun _ _ => rfl) (by simp [fields])
  have hid := get_of_walk hwalk "RequestId" rfl ErrorBody.requestId (fun _ s => some s) hid
    (fun _ _ => rfl) (by simp [fields])
  have hkey := get_of_walk hwalk "Key" rfl ErrorBody.key (fun _ s => some s) hkey
    (fun _ _ => rfl) (by simp [fields])
  rw [reader_eq, ← hcode, ← hmessage, ← hid, ← hkey]
  exact hbody

end ErrorBody

namespace Summary

/-- The fields of a summary, which has a key once that is known. -/
def fields : List (Xml.Field (Option String × Summary)) :=
  [⟨"Key", Reader.text, fun s key => (some key, s.2)⟩,
    ⟨"Size", Reader.natural, fun s size => (s.1, { s.2 with size })⟩,
    ⟨"ETag", Reader.text, fun s etag => (s.1, { s.2 with etag := some (bareEtag etag) })⟩,
    ⟨"LastModified", Reader.text, fun s time => (s.1, { s.2 with lastModified := some time })⟩]

/-- A summary with its key, which it must have. -/
def ofFields : Option String × Summary → Except Xml.Error Summary
  | (some key, s) => .ok { s with key }
  | (none, _) => .error (.missing "Key")

theorem xmlReader_eq : xmlReader = (Reader.record fields (none, {})).bind ofFields := by
  have hfields : summaryReader = .record fields (none, {}) := by
    refine congrArg (Reader.children · (none, ({} : Summary))) (funext₂ fun name s => ?_)
    split
    case h_5 h1 h2 h3 h4 => exact ignore_eq_child (by simpa [fields] using ⟨h1, h2, h3, h4⟩)
    all_goals rfl
  rw [xmlReader, hfields]
  refine congrArg (Reader.bind _) (funext fun s => ?_)
  obtain ⟨_ | key, s⟩ := s
  all_goals rfl

def shape : Shape :=
  .fields [("Key", .text), ("Size", .text), ("ETag", .text), ("LastModified", .text)]

theorem follows : xmlReader.Follows shape := by
  rw [xmlReader_eq]
  refine .bind (.record (fun _ => .text) ?_ _) ofFields
  simp only [fields, List.forall_mem_cons]
  exact ⟨.text, .bind .text _, .text, .text, by simp⟩

theorem reads {keys etags times : List String} {key : String} {sizes : List Nat}
    (hkey : c.Lists "Key" Reader.text.Reads (keys ++ [key]))
    (hsize : c.Lists "Size" Reader.natural.Reads sizes)
    (hetag : c.Lists "ETag" Reader.text.Reads etags)
    (htime : c.Lists "LastModified" Reader.text.Reads times) :
    xmlReader.Reads c
      { key
        size := sizes.foldl (fun _ n => n) 0
        etag := etags.foldl (fun _ s => some (bareEtag s)) none
        lastModified := times.foldl (fun _ s => some s) none } := by
  obtain ⟨s, hs, hwalk⟩ := Reader.exists_record fields (none, {}) (c := c) (by
    simp only [fields, List.forall_mem_cons]
    exact ⟨⟨_, hkey⟩, ⟨_, hsize⟩, ⟨_, hetag⟩, ⟨_, htime⟩, by simp⟩)
  have hkey := get_of_walk hwalk "Key" rfl Prod.fst (fun _ key => some key) hkey
    (fun _ _ => rfl) (by simp [fields])
  have hsize := get_of_walk hwalk "Size" rfl (·.2.size) (fun _ n => n) hsize
    (fun _ _ => rfl) (by simp [fields])
  have hetag := get_of_walk hwalk "ETag" rfl (·.2.etag) (fun _ s => some (bareEtag s)) hetag
    (fun _ _ => rfl) (by simp [fields])
  have htime := get_of_walk hwalk "LastModified" rfl (·.2.lastModified) (fun _ s => some s)
    htime (fun _ _ => rfl) (by simp [fields])
  rw [List.foldl_append, List.foldl_cons, List.foldl_nil] at hkey
  obtain ⟨found, s⟩ := s
  rw [xmlReader_eq, ← hsize, ← hetag, ← htime]
  refine hs.bind ?_
  dsimp only at hkey
  rw [hkey]
  rfl

end Summary

namespace Page

def fields : List (Xml.Field Page) :=
  [⟨"Contents", Summary.xmlReader, fun page s => { page with objects := page.objects ++ [s] }⟩,
    ⟨"IsTruncated", Reader.truth, fun page truncated => { page with truncated }⟩,
    ⟨"NextMarker", Reader.text, fun page marker =>
      if marker.isEmpty then page else { page with nextMarker := some marker }⟩]

theorem xmlReader_eq : xmlReader = .record fields {} := by
  refine congrArg (Reader.children · ({} : Page)) (funext₂ fun name page => ?_)
  split
  case h_4 h1 h2 h3 => exact ignore_eq_child (by simpa [fields] using ⟨h1, h2, h3⟩)
  all_goals rfl

def shape : Shape :=
  .fields [("Contents", Summary.shape), ("IsTruncated", .text), ("NextMarker", .text)]

theorem follows : xmlReader.Follows shape := by
  rw [xmlReader_eq]
  refine .record (fun name => if name = "Contents" then Summary.shape else .text) ?_ _
  simp only [fields, List.forall_mem_cons]
  exact ⟨Summary.follows, .bind .text _, .text, by simp⟩

theorem reads {ss : List Summary} {bs : List Bool} {markers : List String}
    (hobjects : c.Lists "Contents" Summary.xmlReader.Reads ss)
    (htruncated : c.Lists "IsTruncated" Reader.truth.Reads bs)
    (hmarker : c.Lists "NextMarker" Reader.text.Reads markers) :
    xmlReader.Reads c
      { objects := ss
        truncated := bs.foldl (fun _ b => b) false
        nextMarker := markers.foldl (fun m s => if s.isEmpty then m else some s) none } := by
  obtain ⟨page, hpage, hwalk⟩ := Reader.exists_record fields {} (c := c) (by
    simp only [fields, List.forall_mem_cons]
    exact ⟨⟨_, hobjects⟩, ⟨_, htruncated⟩, ⟨_, hmarker⟩, by simp⟩)
  have hobjects := get_of_walk hwalk "Contents" rfl Page.objects (fun ss s => ss ++ [id s])
    hobjects (fun _ _ => rfl) (by simp [fields, apply_ite])
  have htruncated := get_of_walk hwalk "IsTruncated" rfl Page.truncated (fun _ b => b)
    htruncated (fun _ _ => rfl) (by simp [fields, apply_ite])
  have hmarker := get_of_walk hwalk "NextMarker" rfl Page.nextMarker
    (fun m s => if s.isEmpty then m else some s) hmarker
    (fun _ _ => apply_ite _ _ _ _) (by simp [fields])
  rw [foldl_append_map id, List.map_id] at hobjects
  obtain ⟨objects, truncated, marker⟩ := page
  obtain rfl : objects = ss := hobjects
  obtain rfl := htruncated
  obtain rfl := hmarker
  rw [xmlReader_eq]
  exact hpage

end Page

namespace Upload

def fields : List (Xml.Field Upload) :=
  [⟨"Bucket", Reader.text, fun u bucket => { u with bucket }⟩,
    ⟨"Key", Reader.text, fun u key => { u with key }⟩,
    ⟨"UploadId", Reader.text, fun u id => { u with id }⟩]

/-- An upload has an identifier. -/
def identified (u : Upload) : Except Xml.Error Upload :=
  if u.id.isEmpty then .error (.missing "UploadId") else .ok u

theorem xmlReader_eq : xmlReader = (Reader.record fields ⟨"", "", ""⟩).bind identified := by
  refine congrArg (fun r => (Reader.children r ⟨"", "", ""⟩).bind identified)
    (funext₂ fun name u => ?_)
  split
  case h_4 h1 h2 h3 => exact ignore_eq_child (by simpa [fields] using ⟨h1, h2, h3⟩)
  all_goals rfl

def shape : Shape := .fields [("Bucket", .text), ("Key", .text), ("UploadId", .text)]

theorem fields_follow : ∀ f ∈ fields, f.reader.Follows .text := by
  simp only [fields, List.forall_mem_cons]
  exact ⟨.text, .text, .text, by simp⟩

theorem follows : xmlReader.Follows shape := by
  rw [xmlReader_eq]
  exact .bind (.record (fun _ => .text) fields_follow _) identified

theorem reads {buckets keys ids : List String}
    (hbucket : c.Lists "Bucket" Reader.text.Reads buckets)
    (hkey : c.Lists "Key" Reader.text.Reads keys)
    (hid : c.Lists "UploadId" Reader.text.Reads ids)
    (hne : ids.foldl (fun _ s => s) "" ≠ "") :
    xmlReader.Reads c
      { bucket := buckets.foldl (fun _ s => s) ""
        key := keys.foldl (fun _ s => s) ""
        id := ids.foldl (fun _ s => s) "" } := by
  obtain ⟨u, hu, hwalk⟩ := Reader.exists_record fields ⟨"", "", ""⟩ (c := c) (by
    simp only [fields, List.forall_mem_cons]
    exact ⟨⟨_, hbucket⟩, ⟨_, hkey⟩, ⟨_, hid⟩, by simp⟩)
  have hbucket := get_of_walk hwalk "Bucket" rfl Upload.bucket (fun _ s => s) hbucket
    (fun _ _ => rfl) (by simp [fields])
  have hkey := get_of_walk hwalk "Key" rfl Upload.key (fun _ s => s) hkey
    (fun _ _ => rfl) (by simp [fields])
  have hid := get_of_walk hwalk "UploadId" rfl Upload.id (fun _ s => s) hid
    (fun _ _ => rfl) (by simp [fields])
  rw [← hid] at hne
  rw [xmlReader_eq, ← hbucket, ← hkey, ← hid]
  exact hu.bind (if_neg (by simpa using hne))

/-- Without an identifier there is no upload. -/
theorem unidentified (hfits : c.Fits shape) (h : c.named "UploadId" = []) :
    ∃ e, xmlReader.outcome c = .error e := by
  rw [xmlReader_eq, Reader.outcome_bind,
    Reader.outcome_of_fits (fun _ => .text) fields_follow hfits]
  rcases hwalk : Xml.walk (Xml.Field.child fields) ⟨"", "", ""⟩ c.elements with e | u
  · exact ⟨e, rfl⟩
  · have hid := get_of_walk hwalk "UploadId" rfl Upload.id (fun _ s => s)
      (Content.lists_nil h) (fun _ _ => rfl) (by simp [fields])
    exact ⟨_, if_pos (by rw [hid]; rfl)⟩

end Upload

namespace DeleteResult

/-- The field of a key that was deleted. -/
def keyField : Xml.Field String := ⟨"Key", Reader.text, fun _ key => key⟩

def fields : List (Xml.Field DeleteResult) :=
  [⟨"Deleted", .record [keyField] "", fun result key =>
      { result with deleted := result.deleted ++ [key] }⟩,
    ⟨"Error", ErrorBody.reader, fun result body =>
      { result with errors := result.errors ++ [⟨body.key.getD "", body.code, body.message⟩] }⟩]

theorem keyReader_eq (init : String) :
    Reader.children (fun name key => if name = "Key" then Reader.text else .ignore key) init =
      .record [keyField] init := by
  refine congrArg (Reader.children · init) (funext₂ fun name key => ?_)
  split
  case isTrue h =>
    subst h
    exact (Reader.map_id Reader.text).symm
  case isFalse h => exact ignore_eq_child (by simpa [keyField] using h)

theorem xmlReader_eq : xmlReader = .record fields {} := by
  refine congrArg (Reader.children · ({} : DeleteResult)) (funext₂ fun name result => ?_)
  split
  case h_3 h1 h2 => exact ignore_eq_child (by simpa [fields] using ⟨h1, h2⟩)
  case h_1 => rw [keyReader_eq]; rfl
  case h_2 => rfl

def shape : Shape := .fields [("Deleted", .fields [("Key", .text)]), ("Error", ErrorBody.shape)]

theorem follows : xmlReader.Follows shape := by
  have hkey : (Reader.record [keyField] "").Follows (.fields [("Key", .text)]) :=
    .record (fun _ => .text) (List.forall_mem_singleton.2 .text) ""
  rw [xmlReader_eq]
  refine .record
    (fun name => if name = "Deleted" then .fields [("Key", .text)] else ErrorBody.shape) ?_ _
  simp only [fields, List.forall_mem_cons]
  exact ⟨hkey, ErrorBody.follows, by simp⟩

theorem reads_key {keys : List String} (h : c.Lists "Key" Reader.text.Reads keys) :
    (Reader.record [keyField] "").Reads c (keys.foldl (fun _ key => key) "") := by
  obtain ⟨key, hkey, hwalk⟩ := Reader.exists_record [keyField] "" (c := c)
    (List.forall_mem_singleton.2 ⟨_, h⟩)
  have h := get_of_walk hwalk "Key" rfl id (fun _ key => key) h (fun _ _ => rfl)
    (by simp [keyField])
  exact h ▸ hkey

theorem reads {keys : List String} {bodies : List ErrorBody}
    (hdeleted : c.Lists "Deleted" (Reader.record [keyField] "").Reads keys)
    (herrors : c.Lists "Error" ErrorBody.reader.Reads bodies) :
    xmlReader.Reads c
      { deleted := keys
        errors := bodies.map fun body => ⟨body.key.getD "", body.code, body.message⟩ } := by
  obtain ⟨result, hresult, hwalk⟩ := Reader.exists_record fields {} (c := c) (by
    simp only [fields, List.forall_mem_cons]
    exact ⟨⟨_, hdeleted⟩, ⟨_, herrors⟩, by simp⟩)
  have hdeleted := get_of_walk hwalk "Deleted" rfl DeleteResult.deleted
    (fun keys key => keys ++ [id key]) hdeleted (fun _ _ => rfl) (by simp [fields])
  have herrors := get_of_walk hwalk "Error" rfl DeleteResult.errors
    (fun errors body => errors ++ [⟨body.key.getD "", body.code, body.message⟩]) herrors
    (fun _ _ => rfl) (by simp [fields])
  rw [foldl_append_map id, List.map_id] at hdeleted
  rw [foldl_append_map] at herrors
  obtain ⟨deleted, errors⟩ := result
  obtain rfl : deleted = keys := hdeleted
  obtain rfl := herrors
  rw [xmlReader_eq]
  exact hresult

end DeleteResult

end BucketTransfer.ObjectStore
