import BucketTransfer.Proofs.ObjectStore.Answered
import BucketTransfer.Proofs.ObjectStore.Records
import BucketTransfer.Proofs.Xml.Cut
import BucketTransfer.Proofs.Xml.Ends

/-!
# Error documents in granting answers

An answer that grants a request may hold the document of an error. Where an upload is completed the
client looks for one, and takes one that it cannot read for none. Elsewhere it reads the document
as the answer that it expects, whatever the name of the root.
-/
namespace BucketTransfer.ObjectStore

open scoped Xml
open Xml (Content Document Event Opening Reader Tag)

variable {content : Content} {o : Opening} {after : Bytes}

namespace ErrorBody

/-- The references in the fields of an error stand for characters. -/
def Known (content : Content) : Prop :=
  ∀ e ∈ content.elements, e.1 ∈ ["Code", "Message", "RequestId", "Key"] →
    ∀ r ∈ e.2.references, r.Known

private theorem exists_text_iff {d : Content} (hflat : d.elements = []) :
    (∃ s, Reader.text.outcome d = .ok s) ↔ ∀ r ∈ d.references, r.Known := by
  rw [← Content.exists_characters hflat, Reader.outcome_text]
  rcases d.characters with e | cs
  · exact iff_of_false Xml.not_exists_ok Xml.not_exists_ok
  · exact iff_of_true ⟨_, rfl⟩ ⟨_, rfl⟩

private theorem exists_field_iff {d : Content} (hflat : d.elements = []) :
    ∀ f ∈ fields, (∃ v, f.reader.outcome d = .ok v) ↔ ∀ r ∈ d.references, r.Known := by
  have htext := exists_text_iff hflat
  simp only [fields, List.forall_mem_cons]
  exact ⟨htext, htext, htext, htext, by simp⟩

/-- An error can be read if its fields can. -/
theorem exists_outcome_iff (hfits : content.Fits shape) :
    (∃ body, reader.outcome content = .ok body) ↔ Known content := by
  have hflat : ∀ e ∈ content.elements, e.1 ∈ ["Code", "Message", "RequestId", "Key"] →
      e.2.elements = [] := by
    intro e he hname
    refine Content.fits_text.1 (Content.fits_fields.1 hfits e he .text ?_)
    simp only [List.mem_cons, List.not_mem_nil, or_false] at hname
    rcases hname with h | h | h | h
    all_goals
      rw [h]
      rfl
  rw [reader_eq, Reader.outcome_of_fits (fun _ => .text) fields_follow hfits,
    Xml.Field.exists_walk_iff]
  refine forall₂_congr fun e he => ⟨fun h hname => ?_, fun h f hf => ?_⟩
  · cases hf : Xml.Field.find fields e.1 with
    | none =>
      obtain ⟨f, hmem, heq⟩ : ∃ f ∈ fields, f.name = e.1 := List.mem_map.1 hname
      exact absurd heq.symm (Xml.Field.find_eq_none.1 hf f hmem)
    | some f => exact (exists_field_iff (hflat e he hname) f (Xml.Field.mem_of_find hf)).1 (h f hf)
  · have hmem := Xml.Field.mem_of_find hf
    have hname : e.1 ∈ ["Code", "Message", "RequestId", "Key"] := by
      rw [← Xml.Field.name_of_find hf]
      exact List.mem_map_of_mem (f := Xml.Field.name) hmem
    exact (exists_field_iff (hflat e he hname) f hmem).2 (h hname)

theorem sure : reader.Sure := by
  rw [reader_eq]
  refine Reader.sure_record ?_ _
  simp only [fields, List.forall_mem_cons]
  exact ⟨Reader.sure_text, Reader.sure_text, Reader.sure_text, Reader.sure_text, by simp⟩

/-- Of an error's document the content of the root is read. -/
theorem ofDocument?_eq (hroot : o.root.name = "Error") (after : Bytes) :
    ofDocument? (o.bytes ++ after) =
      ((reader.read (Event.scan [utf8 o.root.name] after)).map (·.1)).toOption := by
  rw [ofDocument?, Reader.documentNamed_eq, Reader.rooted_opening, ← hroot]
  simp [Except.toOption]

end ErrorBody

namespace Remote
variable {c : Remote} {upload : Upload} {parts : List CompletedPart} {response : Http.Response}
  {result : Except Error Unit}

/-- The error that a document holds as the client reports it. -/
def reported (response : Http.Response) (body : ErrorBody) : Error :=
  .service response.status (.ofName body.code) body.message body.requestId

private theorem completeUpload_eq (h : c.Answered (.completeUpload upload parts) response result)
    (hsuccess : response.isSuccess = true)
    (hbody : response.body.content = .ok (o.bytes ++ after)) (hroot : o.root.name = "Error") :
    result = match ErrorBody.reader.read (Event.scan [utf8 o.root.name] after) with
      | .ok (body, _) => .error (reported response body)
      | .error _ => .ok () := by
  have hcontent : Remote.content response = .ok (o.bytes ++ after) := by rw [Remote.content, hbody]
  rw [h.eq, verdict, if_pos hsuccess, reply, hcontent]
  simp only [bind, Except.bind, ErrorBody.ofDocument?_eq hroot]
  rcases ErrorBody.reader.read (Event.scan [utf8 o.root.name] after) with e | ⟨body, rest⟩
  all_goals rfl

/-- What becomes of the document of an error in the answer to the end of an upload, if the start tag
of its root is there. -/
structure Heeds (o : Opening) (after : Bytes) (response : Http.Response)
    (result : Except Error Unit) : Prop where
  /-- A whole document is reported if every reference in it is known. -/
  whole : ∀ (content : Content) (rest : Bytes), after = content.bytes ++ (o.root.endBytes ++ rest) →
    (∀ r ∈ content.references, r.Known) → ∃ body, result = .error (reported response body)
  /-- If its fields hold no elements, only the references in these count. -/
  fields : ∀ (content : Content) (rest : Bytes),
    after = content.bytes ++ (o.root.endBytes ++ rest) → content.Fits ErrorBody.shape →
    ((∃ e, result = .error e) ↔ ErrorBody.Known content)
  /-- A document that is cut off before its root has ended is none. -/
  cut : ∀ (content : Content) (more : Bytes), content.Fits ErrorBody.shape →
    after ++ more = content.bytes ++ o.root.endBytes → more ≠ [] → result = .ok ()
  /-- One that is ill-formed before its root has ended is none either. -/
  broken : ∀ (content : Content) (seen : List Event) (e : Xml.Error),
    content.Fits ErrorBody.shape → seen <+: content.events →
    Event.scan [utf8 o.root.name] after = seen ++ [.fault e] → result = .ok ()

/-- The end of an upload hides the document of an error that cannot be read to its end. -/
theorem heeds_of_answered (h : c.Answered (.completeUpload upload parts) response result)
    (hsuccess : response.isSuccess = true)
    (hbody : response.body.content = .ok (o.bytes ++ after)) (hroot : o.root.name = "Error") :
    Heeds o after response result := by
  have hresult := completeUpload_eq h hsuccess hbody hroot
  have hscan : ∀ (content : Content) (rest : Bytes),
      after = content.bytes ++ (o.root.endBytes ++ rest) →
      Event.scan [utf8 o.root.name] after = content.events ++ .finish :: Event.scan [] rest := by
    intro content rest hafter
    rw [hafter, content.scan_closed]
  have hstops := ErrorBody.follows.stops
  constructor
  case whole =>
    intro content rest hafter hknown
    obtain ⟨body, left, hread⟩ := ErrorBody.sure.exists_read hknown (Event.scan [] rest)
    rw [hscan content rest hafter, hread] at hresult
    exact ⟨body, hresult⟩
  case fields =>
    intro content rest hafter hfits
    rw [← ErrorBody.exists_outcome_iff hfits]
    rw [hscan content rest hafter, ErrorBody.follows.settles hfits] at hresult
    rcases houtcome : ErrorBody.reader.outcome content with e | body
    · rw [houtcome] at hresult
      refine iff_of_false ?_ Xml.not_exists_ok
      rw [hresult]
      rintro ⟨_, ⟨⟩⟩
    · rw [houtcome] at hresult
      exact iff_of_true ⟨_, hresult⟩ ⟨body, rfl⟩
  case cut =>
    intro content more hfits hcut hmore
    obtain ⟨e, he⟩ := hstops.exists_error_of_cut (ErrorBody.follows.settles hfits) hcut hmore
    rw [hresult, he]
  case broken =>
    intro content seen e hfits hseen hbroken
    have hlast : .finish ∉ [Event.fault e] := by simp
    obtain ⟨e, he⟩ := hstops.exists_error (ErrorBody.follows.settles hfits) hseen hlast
    rw [hresult, hbroken, he]

/-- A client with plain texts. -/
private def plainClient : Remote := ⟨"http://h", "h", "r", ⟨"ak", "sk", none⟩⟩

/-- An answer that grants a request, with a document. -/
private def granting (document : String) : Http.Response :=
  ⟨200, {}, none, .ofBytes (utf8 document)⟩

private theorem content_granting {document : String} {bytes : Bytes} (h : utf8 document = bytes) :
    (granting document).body.content = .ok bytes := by
  rw [granting, ByteStream.ofBytes, ByteStream.content, List.flatten_singleton, h]

private theorem exists_answered (r : Request) (hplan : ∃ u, plainClient.plan r = .inr u)
    (document : String) : ∃ result, plainClient.Answered r (granting document) result := by
  have hplain : plainClient.SendsPlain := ⟨by decide, by decide, by decide, by decide⟩
  obtain ⟨u, hu⟩ := hplan
  exact ⟨_, answered_verdict hplain hu _⟩

/-- A document of an error that has a code and nothing else. -/
private structure IsFailure (d : Document) : Prop where
  root : d.root.name = "Error"
  bytes : utf8 "<Error><Code>InternalError</Code></Error>" = d.bytes
  cut : utf8 "<Error><Code>InternalError</Code>" = d.toOpening.bytes ++ d.content.bytes
  known : d.content.references = []
  fits : d.content.Fits ErrorBody.shape
  fits_upload : d.content.Fits Upload.shape
  others : ∀ name, name ≠ "Code" → d.content.named name = []

private theorem exists_failure : ∃ d, IsFailure d := by
  refine ⟨{
    root := { name := "Error" }
    content := .element .empty { name := "Code" } (.text ⟨"InternalError", by decide⟩)
      (.text .empty) }, ?_⟩
  constructor
  case root | known => rfl
  case bytes | cut => decide
  case fits => simp [Content.Fits, ErrorBody.shape]
  case fits_upload => simp [Content.Fits, Upload.shape]
  case others =>
    intro name hname
    exact Xml.ofName_cons_of_ne hname.symm

/-- An error's document is reported. -/
theorem reported_failure : ∃ result,
    plainClient.Answered (.completeUpload ⟨"b", "k", "u"⟩ [])
      (granting "<Error><Code>InternalError</Code></Error>") result ∧
    ∃ e, result = .error e := by
  obtain ⟨d, hd⟩ := exists_failure
  obtain ⟨result, h⟩ := exists_answered (.completeUpload ⟨"b", "k", "u"⟩ []) ⟨_, rfl⟩
    "<Error><Code>InternalError</Code></Error>"
  have hheeds := heeds_of_answered h rfl (content_granting hd.bytes) hd.root
  obtain ⟨body, hresult⟩ := hheeds.whole d.content d.epilog.bytes rfl (by simp [hd.known])
  exact ⟨result, h, _, hresult⟩

/-- Without its last tag it is not. -/
theorem not_reported_of_cut :
    ¬∀ {c : Remote} {upload : Upload} {parts : List CompletedPart} {response : Http.Response}
      {result : Except Error Unit} {o : Opening} {after : Bytes},
      c.Answered (.completeUpload upload parts) response result → response.isSuccess = true →
      response.body.content = .ok (o.bytes ++ after) → o.root.name = "Error" →
      ∃ e, result = .error e := by
  intro hall
  obtain ⟨d, hd⟩ := exists_failure
  have hbody := content_granting hd.cut
  have hcut : d.content.bytes ++ d.root.endBytes = d.content.bytes ++ d.root.endBytes := rfl
  obtain ⟨result, h⟩ := exists_answered (.completeUpload ⟨"b", "k", "u"⟩ []) ⟨_, rfl⟩
    "<Error><Code>InternalError</Code>"
  obtain ⟨e, rfl⟩ := hall h rfl hbody hd.root
  obtain ⟨unread, hread⟩ := ErrorBody.follows.stops.exists_error_of_cut
    (ErrorBody.follows.settles hd.fits) hcut (by simp [Tag.endBytes])
  have hresult := completeUpload_eq h rfl hbody hd.root
  rw [hread] at hresult
  cases hresult

variable {d : Document}

private theorem documentOf_eq {α : Type} (r : Reader α) {document : Bytes}
    (hbody : response.body.content = .ok document) :
    documentOf r response =
      (readDocument r document).mapError fun e => .invalidResponse e.message := by
  rw [documentOf, Remote.content, hbody]
  simp only [bind, Except.bind]
  rcases readDocument r document with e | a
  all_goals rfl

private theorem not_all_isAsciiBlank (d : Document) : d.bytes.all isAsciiBlank = false := by
  have hmem : Event.ascii '<' ∈ d.bytes := by
    simp [Document.bytes, Opening.bytes, Tag.startBytes]
  exact List.all_eq_false.2 ⟨_, hmem, by decide⟩

private theorem listObjects_eq {bucket keyPrefix : String} {marker : Option String}
    {result : Except Error Page}
    (h : c.Answered (.listObjects bucket keyPrefix marker) response result)
    (hsuccess : response.isSuccess = true) (hbody : response.body.content = .ok d.bytes)
    (hnone : ∀ name ∈ ["Contents", "IsTruncated", "NextMarker"], d.content.named name = []) :
    result = .ok {} := by
  simp only [List.forall_mem_cons] at hnone
  obtain ⟨hobjects, htruncated, hmarker, -⟩ := hnone
  have hpage := readDocument_of_reads (d := d) (Page.reads (Content.lists_nil hobjects)
    (Content.lists_nil htruncated) (Content.lists_nil hmarker))
  rw [h.eq, verdict, if_pos hsuccess, reply, documentOf_eq _ hbody, hpage]
  rfl

private theorem deleteObjects_eq {bucket : String} {keys : List String}
    {result : Except Error DeleteResult}
    (h : c.Answered (.deleteObjects bucket keys) response result)
    (hsuccess : response.isSuccess = true) (hbody : response.body.content = .ok d.bytes)
    (hnone : ∀ name ∈ ["Deleted", "Error"], d.content.named name = []) : result = .ok {} := by
  simp only [List.forall_mem_cons] at hnone
  obtain ⟨hdeleted, herrors, -⟩ := hnone
  have hbatch := readDocument_of_reads (d := d)
    (DeleteResult.reads (Content.lists_nil hdeleted) (Content.lists_nil herrors))
  have hcontent : Remote.content response = .ok d.bytes := by rw [Remote.content, hbody]
  rw [h.eq, verdict, if_pos hsuccess, reply, hcontent]
  simp only [bind, Except.bind, not_all_isAsciiBlank, documentOf_eq _ hbody, hbatch]
  rfl

private theorem exists_error_initiateUpload {bucket key : String} {result : Except Error Upload}
    (h : c.Answered (.initiateUpload bucket key) response result)
    (hsuccess : response.isSuccess = true) (hbody : response.body.content = .ok d.bytes)
    (hfits : d.content.Fits Upload.shape) (hnone : d.content.named "UploadId" = []) :
    ∃ e, result = .error e := by
  obtain ⟨e, he⟩ := Upload.unidentified hfits hnone
  have hread : readDocument Upload.xmlReader d.bytes = .error e :=
    (Reader.document_bytes (Upload.follows.settles hfits)).trans he
  refine ⟨.invalidResponse e.message, ?_⟩
  rw [h.eq, verdict, if_pos hsuccess, reply, documentOf_eq _ hbody, hread]
  rfl

/-- What becomes of a whole document in an answer that grants a request, whatever its root is
called. -/
structure OverlooksRoot (c : Remote) (response : Http.Response) (d : Document) : Prop where
  /-- Another root makes no difference. -/
  root : ∀ {α : Type} (r : Reader α) (tag : Tag),
    readDocument r { d with root := tag }.bytes = readDocument r d.bytes
  /-- What holds nothing that a page does is an empty page. -/
  page : ∀ {bucket keyPrefix : String} {marker : Option String} {result : Except Error Page},
    c.Answered (.listObjects bucket keyPrefix marker) response result →
    (∀ name ∈ ["Contents", "IsTruncated", "NextMarker"], d.content.named name = []) →
    result = .ok {}
  /-- What holds nothing that the answer to a batch does is a batch without failures. -/
  batch : ∀ {bucket : String} {keys : List String} {result : Except Error DeleteResult},
    c.Answered (.deleteObjects bucket keys) response result →
    (∀ name ∈ ["Deleted", "Error"], d.content.named name = []) → result = .ok {}
  /-- What identifies no upload is none. -/
  upload : ∀ {bucket key : String} {result : Except Error Upload},
    c.Answered (.initiateUpload bucket key) response result →
    d.content.Fits Upload.shape → d.content.named "UploadId" = [] → ∃ e, result = .error e

/-- The document of an error is read as any answer that may be empty. -/
theorem overlooksRoot_of_granted (c : Remote) (hsuccess : response.isSuccess = true)
    (hbody : response.body.content = .ok d.bytes) : OverlooksRoot c response d where
  root r tag := by
    simp only [readDocument, Reader.document_eq, Reader.rooted, Xml.rootOf_bytes]
    rfl
  page h := listObjects_eq h hsuccess hbody
  batch h := deleteObjects_eq h hsuccess hbody
  upload h := exists_error_initiateUpload h hsuccess hbody

/-- An error as an empty page, as a batch without failures, and as no upload. -/
theorem overlooked_failure :
    plainClient.Answered (.listObjects "b" "" none)
      (granting "<Error><Code>InternalError</Code></Error>") (.ok {}) ∧
    plainClient.Answered (.deleteObjects "b" ["k"])
      (granting "<Error><Code>InternalError</Code></Error>") (.ok {}) ∧
    ∃ e, plainClient.Answered (.initiateUpload "b" "k")
      (granting "<Error><Code>InternalError</Code></Error>") (.error e) := by
  obtain ⟨d, hd⟩ := exists_failure
  have hoverlooks := overlooksRoot_of_granted plainClient rfl (content_granting hd.bytes)
  obtain ⟨page, hpage⟩ := exists_answered (.listObjects "b" "" none) ⟨_, rfl⟩
    "<Error><Code>InternalError</Code></Error>"
  obtain ⟨batch, hbatch⟩ := exists_answered (.deleteObjects "b" ["k"]) ⟨_, rfl⟩
    "<Error><Code>InternalError</Code></Error>"
  obtain ⟨upload, hupload⟩ := exists_answered (.initiateUpload "b" "k") ⟨_, rfl⟩
    "<Error><Code>InternalError</Code></Error>"
  obtain rfl := hoverlooks.page hpage (by simp [hd.others])
  obtain rfl := hoverlooks.batch hbatch (by simp [hd.others])
  obtain ⟨e, rfl⟩ := hoverlooks.upload hupload hd.fits_upload (hd.others _ (by decide))
  exact ⟨hpage, hbatch, e, hupload⟩

/-- A listing is granted by an error. -/
theorem not_error_of_listed_failure :
    ¬∀ {c : Remote} {bucket keyPrefix : String} {marker : Option String} {response : Http.Response}
      {result : Except Error Page} {d : Document},
      c.Answered (.listObjects bucket keyPrefix marker) response result →
      response.isSuccess = true → response.body.content = .ok d.bytes → d.root.name = "Error" →
      ∃ e, result = .error e := by
  intro hall
  obtain ⟨d, hd⟩ := exists_failure
  have hbody := content_granting hd.bytes
  obtain ⟨result, h⟩ := exists_answered (.listObjects "b" "" none) ⟨_, rfl⟩
    "<Error><Code>InternalError</Code></Error>"
  obtain ⟨e, rfl⟩ := hall h rfl hbody hd.root
  cases listObjects_eq h rfl hbody (by simp [hd.others])

end Remote

end BucketTransfer.ObjectStore
