import BucketTransfer.Proofs.ObjectStore.Records
import BucketTransfer.Proofs.Text.Values
import BucketTransfer.Proofs.Xml.Written

/-!
# The documents in requests

Whatever keys, tags and places they are made of, the documents in requests are well-formed, and what
is read in them is what they were made of.
-/
namespace BucketTransfer.ObjectStore

open Xml (Allowed Content Document Element Fill IsName IsWritten Reader)
open Xml.Field (get_of_walk)

/-! ## Reading requests -/

section Readers
variable {α β : Type} {c : Content}

/-- The children of one name, in order. -/
def itemOf (name : String) (r : Reader α) : Xml.Field (List α) := ⟨name, r, fun as a => as ++ [a]⟩

/-- The children of one name, in order, as the first of two lists. -/
def leftOf (name : String) (r : Reader α) : Xml.Field (List α × List β) :=
  ⟨name, r, fun s a => (s.1 ++ [a], s.2)⟩

/-- The children of one name, in order, as the second of two lists. -/
def rightOf (name : String) (r : Reader β) : Xml.Field (List α × List β) :=
  ⟨name, r, fun s b => (s.1, s.2 ++ [b])⟩

def listOf (name : String) (r : Reader α) : Reader (List α) := .record [itemOf name r] []

def listsOf (left : String) (r : Reader α) (right : String) (r' : Reader β) :
    Reader (List α × List β) :=
  .record [leftOf left r, rightOf right r'] ([], [])

theorem reads_listOf {name : String} {r : Reader α} {as : List α}
    (h : c.Lists name r.Reads as) : (listOf name r).Reads c as := by
  obtain ⟨found, hfound, hwalk⟩ := Reader.exists_record [itemOf name r] [] (c := c)
    (by simpa using ⟨as, h⟩)
  have hfind : Xml.Field.find [itemOf name r] name = some (itemOf name r) := by
    simp [Xml.Field.find, itemOf]
  have has : found = as.foldl (fun as a => as ++ [id a]) [] :=
    get_of_walk hwalk name hfind id (fun as (a : α) => as ++ [id a]) h (fun _ _ => rfl)
      (by simp [itemOf])
  rw [foldl_append_map id, List.map_id, List.nil_append] at has
  rw [← has]
  exact hfound

theorem reads_listsOf {left right : String} {r : Reader α} {r' : Reader β} {as : List α}
    {bs : List β} (hne : left ≠ right) (hleft : c.Lists left r.Reads as)
    (hright : c.Lists right r'.Reads bs) : (listsOf left r right r').Reads c (as, bs) := by
  obtain ⟨found, hfound, hwalk⟩ := Reader.exists_record [leftOf left r, rightOf right r'] ([], [])
    (c := c) (by simpa using ⟨⟨as, hleft⟩, bs, hright⟩)
  have hfirst : Xml.Field.find [leftOf left r, rightOf right r'] left = some (leftOf left r) := by
    simp [Xml.Field.find, leftOf]
  have hsecond : Xml.Field.find [leftOf left r, rightOf right r'] right =
      some (rightOf right r') := by
    simp [Xml.Field.find, leftOf, rightOf, hne]
  have has : found.1 = as.foldl (fun as a => as ++ [id a]) [] :=
    get_of_walk hwalk left hfirst Prod.fst (fun as (a : α) => as ++ [id a]) hleft
      (fun _ _ => rfl) (by simp [leftOf, rightOf])
  have hbs : found.2 = bs.foldl (fun bs b => bs ++ [id b]) [] :=
    get_of_walk hwalk right hsecond Prod.snd (fun bs (b : β) => bs ++ [id b]) hright
      (fun _ _ => rfl) (by simp [leftOf, rightOf, hne])
  rw [foldl_append_map id, List.map_id, List.nil_append] at has hbs
  rw [← has, ← hbs]
  exact hfound

end Readers

/-- Reads a request to delete objects: the texts of its `Quiet` children, and of each object the
texts of its keys. -/
def deleteReader : Reader (List String × List (List String)) :=
  listsOf "Quiet" .text "Object" (listOf "Key" .text)

/-- Reads a request to put parts together: of each part the texts of its numbers and of its tags. -/
def completeReader : Reader (List (List String × List String)) :=
  listOf "Part" (listsOf "PartNumber" .text "ETag" .text)

/-- Reads a request to create a bucket: the texts that say where. -/
def locationReader : Reader (List String) := listOf "LocationConstraint" .text

/-! ## Reading what was written -/

theorem readDocument_written {α : Type} {r : Reader α} {root : String} {es : List Element} {a : α}
    (hroot : IsName root) (hes : ∀ e ∈ es, e.Named)
    (h : ∀ c : Content, Fill es c.elements → r.Reads c a) :
    IsWritten root (utf8 (Xml.documentText root es)) ∧
      readDocument r (utf8 (Xml.documentText root es)) = .ok a := by
  obtain ⟨c, hstrict, hfill, hbytes⟩ := Xml.exists_written hroot hes
  refine ⟨⟨hroot, c, hstrict, hbytes⟩, ?_⟩
  rw [hbytes]
  exact readDocument_of_reads (h c hfill)

section Fills
variable {α β : Type} {es : List Element} {c : Content} {name : String} {values : List α}
variable {r : Reader β} {read : α → β}

theorem filter_named {element : α → Element} (h : ∀ v, (element v).name = name) :
    (values.map element).filter (fun e => e.name = name) = values.map element := by
  rw [List.filter_eq_self, List.forall_mem_map]
  exact fun v _ => decide_eq_true (h v)

theorem filter_unnamed {element : α → Element} (h : ∀ v, (element v).name ≠ name) :
    (values.map element).filter (fun e => e.name = name) = [] := by
  rw [List.filter_eq_nil_iff, List.forall_mem_map]
  exact fun v _ hv => h v (of_decide_eq_true hv)

/-- The children of a name that were written of values are read as what was written of these. -/
theorem lists_of_fill (element : α → Element) (h : Fill es c.elements)
    (hvalues : (es.filter fun e => e.name = name) = values.map element)
    (hread : ∀ d v, (element v).Fills d → r.Reads d (read v)) :
    c.Lists name r.Reads (values.map read) := by
  have hlists := h.lists name
  rw [hvalues, Content.Lists, List.forall₂_map_right_iff] at hlists
  rw [Content.Lists, List.forall₂_map_right_iff]
  exact hlists.imp fun d v => hread d v

/-- Texts are read as they are. -/
theorem lists_of_fill_texts {texts : List String} (h : Fill es c.elements)
    (hes : (es.filter fun e => e.name = name) = texts.map (.leaf name)) :
    c.Lists name Reader.text.Reads texts := by
  have hlists : c.Lists name Reader.text.Reads (texts.map id) :=
    lists_of_fill _ h hes fun _ _ => Element.Fills.reads
  rwa [List.map_id] at hlists

theorem lists_of_fill_text {text : String} (h : Fill es c.elements)
    (hes : (es.filter fun e => e.name = name) = [.leaf name text]) :
    c.Lists name Reader.text.Reads [text] := lists_of_fill_texts h hes

end Fills

private def partElement (p : CompletedPart) : Element :=
  .node "Part" [.leaf "PartNumber" (toString p.number), .leaf "ETag" p.etag]

private theorem named_parts (parts : List CompletedPart) :
    ∀ e ∈ parts.map partElement, e.Named := by
  have hnumber : IsName "PartNumber" := by decide
  have hetag : IsName "ETag" := by decide
  exact List.forall_mem_map.2 fun _ _ => ⟨by decide, hnumber, hetag, trivial⟩

theorem readDocument_complete (parts : List CompletedPart) :
    IsWritten "CompleteMultipartUpload" (utf8 (completeDocument parts)) ∧
      readDocument completeReader (utf8 (completeDocument parts)) =
        .ok (parts.map fun p => ([toString p.number], [p.etag])) := by
  refine readDocument_written (by decide) (named_parts parts) fun c hfill => ?_
  refine reads_listOf (lists_of_fill _ hfill (filter_named fun _ => rfl) fun d p hd => ?_)
  exact reads_listsOf (by decide) (lists_of_fill_text hd rfl) (lists_of_fill_text hd rfl)

private theorem named_location (location : String) :
    ∀ e ∈ [Element.leaf "LocationConstraint" location], e.Named := by
  have hname : IsName "LocationConstraint" := by decide
  exact List.forall_mem_singleton.2 hname

theorem readDocument_location (location : String) :
    IsWritten "CreateBucketConfiguration"
        (utf8 (locationDocument "CreateBucketConfiguration" location)) ∧
      readDocument locationReader (utf8 (locationDocument "CreateBucketConfiguration" location)) =
        .ok [location] := by
  exact readDocument_written (by decide) (named_location location) fun c hfill =>
    reads_listOf (lists_of_fill_text hfill rfl)

/-- What marks a request as quiet. -/
private def marks (quiet : Bool) : List String := if quiet then ["true"] else []

private def objectElement (key : String) : Element := .node "Object" [.leaf "Key" key]

private theorem deleteDocument_eq (keys : List String) (quiet : Bool) :
    deleteDocument keys quiet =
      Xml.documentText "Delete" ((marks quiet).map (.leaf "Quiet") ++ keys.map objectElement) := by
  cases quiet
  all_goals rfl

private theorem named_delete (keys : List String) (quiet : Bool) :
    ∀ e ∈ (marks quiet).map (.leaf "Quiet") ++ keys.map objectElement, e.Named := by
  have hname : IsName "Quiet" := by decide
  have hkey : IsName "Key" := by decide
  exact List.forall_mem_append.2 ⟨List.forall_mem_map.2 fun _ _ => hname,
    List.forall_mem_map.2 fun _ _ => ⟨by decide, hkey, trivial⟩⟩

theorem readDocument_delete (keys : List String) (quiet : Bool) :
    IsWritten "Delete" (utf8 (deleteDocument keys quiet)) ∧
      readDocument deleteReader (utf8 (deleteDocument keys quiet)) =
        .ok (if quiet then ["true"] else [], keys.map fun key => [key]) := by
  rw [deleteDocument_eq]
  have hquiet : ∀ text, (Element.leaf "Quiet" text).name = "Quiet" := fun _ => rfl
  have hobject : ∀ key, (objectElement key).name = "Object" := fun _ => rfl
  refine readDocument_written (by decide) (named_delete keys quiet) fun c hfill => ?_
  have hmarks : c.Lists "Quiet" Reader.text.Reads (marks quiet) := by
    refine lists_of_fill_texts hfill ?_
    rw [List.filter_append, filter_named hquiet,
      filter_unnamed fun key => by rw [hobject]; decide, List.append_nil]
  have hobjects : c.Lists "Object" (listOf "Key" .text).Reads (keys.map fun key => [key]) := by
    refine lists_of_fill objectElement hfill ?_ fun d key hd => ?_
    · rw [List.filter_append, filter_unnamed fun text => by rw [hquiet]; decide,
        filter_named hobject, List.nil_append]
    · have hfill : Fill [.leaf "Key" key] d.elements := hd
      exact reads_listOf (lists_of_fill_text hfill rfl)
  exact reads_listsOf (by decide) hmarks hobjects

/-- The texts of a request to delete tell what it was made of. -/
theorem deleteDocument_inj {keys keys' : List String} {quiet quiet' : Bool} :
    deleteDocument keys quiet = deleteDocument keys' quiet' ↔ keys = keys' ∧ quiet = quiet' := by
  refine ⟨fun h => ?_, fun h => by rw [h.1, h.2]⟩
  have hread := (readDocument_delete keys quiet).2
  rw [h, (readDocument_delete keys' quiet').2] at hread
  obtain ⟨hquiet, hkeys⟩ := Prod.ext_iff.1 (Except.ok.inj hread)
  refine ⟨(List.map_injective_iff.2 List.singleton_injective hkeys).symm, ?_⟩
  cases quiet <;> cases quiet' <;> simp_all

theorem completeDocument_inj {parts parts' : List CompletedPart} :
    completeDocument parts = completeDocument parts' ↔ parts = parts' := by
  refine ⟨fun h => ?_, congrArg completeDocument⟩
  have hread := (readDocument_complete parts).2
  rw [h, (readDocument_complete parts').2] at hread
  refine (List.map_injective_iff.2 (fun p p' hp => ?_) (Except.ok.inj hread)).symm
  obtain ⟨hnumber, hetag⟩ := Prod.ext_iff.1 hp
  obtain ⟨number, etag⟩ := p
  obtain rfl := Text.toString_injective (List.singleton_injective hnumber)
  obtain rfl := List.singleton_injective hetag
  rfl

theorem locationDocument_inj {location location' : String} :
    locationDocument "CreateBucketConfiguration" location =
      locationDocument "CreateBucketConfiguration" location' ↔ location = location' := by
  refine ⟨fun h => ?_, congrArg (locationDocument _)⟩
  have hread := (readDocument_location location).2
  rw [h, (readDocument_location location').2] at hread
  exact (List.singleton_injective (Except.ok.inj hread)).symm

/-! ## Characters -/

private theorem allowed_number (n : Nat) : Allowed (toString n) := by
  intro c hc
  obtain ⟨d, rfl⟩ := Text.exists_of_isDigit (Text.isDigit_of_mem hc)
  clear hc
  revert d
  decide

theorem allowed_deleteDocument (keys : List String) (quiet : Bool) :
    Allowed (deleteDocument keys quiet) ↔ ∀ key ∈ keys, Allowed key := by
  have hmarks : ∀ text ∈ marks quiet, Allowed text := by
    cases quiet
    all_goals decide
  rw [deleteDocument_eq, Xml.allowed_documentText (by decide) (named_delete keys quiet),
    List.forall_mem_append, List.forall_mem_map, List.forall_mem_map]
  simp only [objectElement, Element.texts, Xml.textsOf, List.append_nil, List.forall_mem_singleton]
  exact and_iff_right hmarks

theorem allowed_completeDocument (parts : List CompletedPart) :
    Allowed (completeDocument parts) ↔ ∀ p ∈ parts, Allowed p.etag := by
  change Allowed (Xml.documentText _ (parts.map partElement)) ↔ _
  rw [Xml.allowed_documentText (by decide) (named_parts parts), List.forall_mem_map]
  simp only [partElement, Element.texts, Xml.textsOf, List.append_nil, List.singleton_append,
    List.forall_mem_cons, List.not_mem_nil, false_implies, implies_true, allowed_number, true_and,
    and_true]

theorem allowed_locationDocument (location : String) :
    Allowed (locationDocument "CreateBucketConfiguration" location) ↔ Allowed location := by
  rw [locationDocument, Xml.allowed_documentText (by decide) (named_location location)]
  simp only [List.forall_mem_singleton, Element.texts]

/-- A document in a request is well-formed with one root, and reading it gives what it was made of,
in order: keys and a mark if the request is quiet, parts with their numbers and tags, or a place. So
no two requests have one document. What is well-formed here is the markup; a document holds only
characters that XML has a place for exactly if the keys, the tags or the place do. -/
theorem request_documents_read_back :
    (∀ (keys : List String) (quiet : Bool),
      IsWritten "Delete" (utf8 (deleteDocument keys quiet)) ∧
        (Allowed (deleteDocument keys quiet) ↔ ∀ key ∈ keys, Allowed key) ∧
        readDocument deleteReader (utf8 (deleteDocument keys quiet)) =
          .ok (if quiet then ["true"] else [], keys.map fun key => [key]) ∧
        ∀ keys' quiet', deleteDocument keys quiet = deleteDocument keys' quiet' ↔
          keys = keys' ∧ quiet = quiet') ∧
    (∀ parts : List CompletedPart,
      IsWritten "CompleteMultipartUpload" (utf8 (completeDocument parts)) ∧
        (Allowed (completeDocument parts) ↔ ∀ p ∈ parts, Allowed p.etag) ∧
        readDocument completeReader (utf8 (completeDocument parts)) =
          .ok (parts.map fun p => ([toString p.number], [p.etag])) ∧
        ∀ parts', completeDocument parts = completeDocument parts' ↔ parts = parts') ∧
    ∀ location : String,
      IsWritten "CreateBucketConfiguration"
          (utf8 (locationDocument "CreateBucketConfiguration" location)) ∧
        (Allowed (locationDocument "CreateBucketConfiguration" location) ↔ Allowed location) ∧
        readDocument locationReader
          (utf8 (locationDocument "CreateBucketConfiguration" location)) = .ok [location] ∧
        ∀ location', locationDocument "CreateBucketConfiguration" location =
          locationDocument "CreateBucketConfiguration" location' ↔ location = location' := by
  refine ⟨fun keys quiet => ?_, fun parts => ?_, fun location => ?_⟩
  · obtain ⟨hwritten, hread⟩ := readDocument_delete keys quiet
    exact ⟨hwritten, allowed_deleteDocument keys quiet, hread, fun _ _ => deleteDocument_inj⟩
  · obtain ⟨hwritten, hread⟩ := readDocument_complete parts
    exact ⟨hwritten, allowed_completeDocument parts, hread, fun _ => completeDocument_inj⟩
  · obtain ⟨hwritten, hread⟩ := readDocument_location location
    exact ⟨hwritten, allowed_locationDocument location, hread, fun _ => locationDocument_inj⟩

end BucketTransfer.ObjectStore
