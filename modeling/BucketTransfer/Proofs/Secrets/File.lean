import BucketTransfer.Proofs.Files.Contents
import BucketTransfer.Proofs.Json.Records
import BucketTransfer.Proofs.Secrets.Keeper
import BucketTransfer.Secrets.File

/-!
# Secrets in a file are those in memory

A file of secrets that nobody else writes holds at any time just what is taken for its secrets,
whichever steps of its changes fail: whoever opens it finds these. A call that fails changes
nothing, and the others answer what a store in memory would.
-/
namespace BucketTransfer.Secrets
open Dialogue (Course)
open Files (Contents)
open Function (update)

section Document
open Json

theorem document_ne_nil (secrets : Secrets) : document secrets ≠ [] := by
  change (Layout.indented 0).write (.object _) ≠ []
  rw [Layout.write_object]
  exact List.cons_ne_nil _ _

/-- What is written to a file is read back, whatever characters the keys and the values have. -/
theorem ofDocument_document (secrets : Secrets) : ofDocument (document secrets) = .ok secrets := by
  have hreads : Reader.string.map.Reads 128
      (.object (secrets.entries.map fun e => (e.1, .string e.2))) secrets :=
    Reader.reads_map (by decide) secrets (Reader.reads_string _)
  rw [ofDocument, if_neg (by simpa using document_ne_nil secrets)]
  exact hreads.complete (.indented 0)

end Document

namespace File

variable {files after : Contents} {path key value : String} {secrets : Secrets} {f left : File}
  {said : List (Exchange Files)}

/-- What comes of opening a file; one that is missing or empty holds no secrets. -/
def opened (files : Contents) (path : String) : Except Error File :=
  match files path with
  | none => .ok ⟨path, ∅⟩
  | some content =>
    match ofDocument content with
    | .ok secrets => .ok ⟨path, secrets⟩
    | .error fault => .error (.corrupt path fault)

/-- The file can be opened, and whoever opens it finds its secrets and changes nothing. -/
structure FoundIn (f : File) (files : Contents) : Prop where
  opens : ∃ said, Course (load f.path) said (some (.ok f)) ∧ Leads Contents.Step files said files
  always : ∀ ⦃said outcome after⦄, Course (load f.path) said outcome →
    Leads Contents.Step files said after → outcome = some (.ok f) ∧ after = files

theorem course_load {outcome : Option (Except Error File)} (h : Course (load path) said outcome)
    (hfiles : Leads Contents.Step files said after) :
    outcome = some (opened files path) ∧ after = files := by
  obtain ⟨answer, mid, rest, ⟨hread, rfl⟩, hrest, hlater⟩ := h.of_question hfiles
  cases hcontent : mid path with
  | none =>
    obtain rfl := (Contents.reads_of_none hcontent).1 hread
    rw [opened, hcontent]
    exact hrest.of_pure hlater
  | some content =>
    obtain ⟨stream, rfl, hstream⟩ := (Contents.reads_of_some hcontent).1 hread
    simp only [opened, hcontent, hstream] at hrest ⊢
    cases hdocument : ofDocument content with
    | error fault =>
      simp only [hdocument] at hrest ⊢
      exact hrest.of_pure hlater
    | ok secrets =>
      simp only [hdocument] at hrest ⊢
      exact hrest.of_pure hlater

theorem exists_course_load (files : Contents) (path : String) :
    ∃ said, Course (load path) said (some (opened files path)) ∧
      Leads Contents.Step files said files := by
  have hreads : ∀ {answer}, files.Reads path answer →
      Leads Contents.Step files [⟨.read path, answer⟩] files := fun h => leads_singleton.2 ⟨h, rfl⟩
  cases hcontent : files path with
  | none =>
    refine ⟨[⟨.read path, .error .absent⟩], ?_, hreads ((Contents.reads_of_none hcontent).2 rfl)⟩
    rw [opened, hcontent]
    exact .ask _ (.done _)
  | some content =>
    have hstream : (ByteStream.ofBytes content).content = .ok content := by
      simp [ByteStream.content, ByteStream.ofBytes]
    refine ⟨[⟨.read path, .ok (.ofBytes content)⟩],
      Dialogue.course_question_bind.2 ⟨_, [], rfl, ?_⟩,
      hreads ((Contents.reads_of_some hcontent).2 ⟨_, rfl, hstream⟩)⟩
    simp only [opened, hcontent, hstream]
    cases ofDocument content <;> exact .done _

theorem foundIn_of_opened (h : opened files f.path = .ok f) : f.FoundIn files := by
  constructor
  case opens =>
    obtain ⟨said, hload, hfiles⟩ := exists_course_load files f.path
    exact ⟨said, h ▸ hload, hfiles⟩
  case always =>
    intro said outcome after hload hfiles
    obtain ⟨rfl, rfl⟩ := course_load hload hfiles
    exact ⟨congrArg some h, rfl⟩

theorem opened_of_document (h : files f.path = some (document f.secrets)) :
    opened files f.path = .ok f := by
  rw [opened, h]
  simp only [ofDocument_document]

theorem path_of_opened (h : opened files path = .ok f) : f.path = path := by
  rw [opened] at h
  split at h
  · obtain rfl := Except.ok.inj h
    rfl
  · split at h
    · obtain rfl := Except.ok.inj h
      rfl
    · exact absurd h nofun

/-- A file that holds the same is opened the same. -/
theorem opened_congr (h : after path = files path) : opened after path = opened files path := by
  rw [opened, opened, h]

theorem path_ne_sibling (path : String) : path ≠ sibling path := by
  intro heq
  have hlength : path.length = path.length + 4 := by
    have hboth := congrArg String.length heq
    rwa [sibling, String.length_append] at hboth
  omega

/-- Making a directory, if there is one to make, changes no file. -/
private theorem eq_of_made {directory : Option String} {made : Option (Except Files.Fault Unit)}
    (h : Course (directory.elim (pure (.ok ())) Files.createDirectories) said made)
    (hfiles : Leads Contents.Step files said after) : after = files := by
  cases directory with
  | none => exact (h.of_pure hfiles).2
  | some d =>
    obtain ⟨reply, rfl, -⟩ := Dialogue.course_question.1 h
    exact leads_singleton.1 hfiles

/-- Secrets are written as a whole, or the file is as it was. -/
private theorem course_persist {answer : Except Error Unit}
    (h : Course (persist path secrets) said (some answer))
    (hfiles : Leads Contents.Step files said after) :
    (answer = .ok () ∧ after path = some (document secrets)) ∨
      (∃ e, answer = .error e) ∧ after path = files path := by
  have hpath := path_ne_sibling path
  rcases Dialogue.course_bind.1 h with ⟨first, rest, made, rfl, hmake, hrest⟩ | ⟨-, heq⟩
  · obtain ⟨mid, hfirst, hlater⟩ := leads_append.1 hfiles
    obtain rfl := eq_of_made hmake hfirst
    cases made with
    | error fault =>
      obtain ⟨heq, rfl⟩ := hrest.of_pure hlater
      exact .inr ⟨⟨_, Option.some.inj heq⟩, rfl⟩
    | ok made =>
      obtain ⟨written, beside, _, hwrite, hothers, hrename⟩ := hrest.of_question hlater
      cases written with
      | error fault =>
        obtain ⟨heq, rfl⟩ := hothers.of_pure hrename
        exact .inr ⟨⟨_, Option.some.inj heq⟩, hwrite path hpath⟩
      | ok written =>
        obtain rfl : beside = update mid (sibling path) (some (document secrets)) := hwrite
        obtain ⟨renamed, final, _, hrenamed, hlast, hend⟩ := hothers.of_question hrename
        cases renamed with
        | error fault =>
          obtain rfl : final = update mid (sibling path) (some (document secrets)) := hrenamed
          obtain ⟨heq, rfl⟩ := hlast.of_pure hend
          exact .inr ⟨⟨_, Option.some.inj heq⟩, Function.update_of_ne hpath _ _⟩
        | ok renamed =>
          obtain ⟨content, hcontent, rfl⟩ := hrenamed
          rw [Function.update_self] at hcontent
          obtain ⟨heq, rfl⟩ := hlast.of_pure hend
          rw [Function.update_self, ← hcontent]
          exact .inl ⟨Option.some.inj heq, rfl⟩
  · exact absurd heq (by simp)

/-- The secrets are changed and the file holds the new ones, or the change is undone and all is as
it was. -/
theorem course_change {answer : Except Error Unit}
    (hback : secrets.restore key (f.secrets.get? key) = f.secrets)
    (h : Course (f.change key secrets) said (some (answer, left)))
    (hfiles : Leads Contents.Step files said after) :
    (answer = .ok () ∧ left = { f with secrets } ∧ after f.path = some (document secrets)) ∨
      (∃ e, answer = .error e) ∧ left = f ∧ after f.path = files f.path := by
  rcases Dialogue.course_bind.1 h with ⟨first, rest, persisted, rfl, hpersist, hend⟩ | ⟨-, heq⟩
  · obtain ⟨mid, hfirst, hlater⟩ := leads_append.1 hfiles
    rcases course_persist hpersist hfirst with ⟨rfl, hdocument⟩ | ⟨⟨e, rfl⟩, hsame⟩
    · obtain ⟨heq, rfl⟩ := hend.of_pure hlater
      obtain ⟨rfl, rfl⟩ := Prod.mk.inj (Option.some.inj heq)
      exact .inl ⟨rfl, rfl, hdocument⟩
    · obtain ⟨heq, rfl⟩ := hend.of_pure hlater
      obtain ⟨rfl, rfl⟩ := Prod.mk.inj (Option.some.inj heq)
      exact .inr ⟨⟨e, rfl⟩, by rw [hback], hsame⟩
  · exact absurd heq (by simp)

/-- Secrets can be changed, with nothing that fails. -/
theorem exists_course_change (f : File) (key : String) (secrets : Secrets) (files : Contents) :
    ∃ said after, Course (f.change key secrets) said (some (.ok (), { f with secrets })) ∧
      Leads Contents.Step files said after ∧ after f.path = some (document secrets) := by
  let beside := update files (sibling f.path) (some (document secrets))
  let after := update (update beside (sibling f.path) none) f.path (some (document secrets))
  let written : Exchange Files := ⟨.write (sibling f.path) (document secrets), .ok ()⟩
  let renamed : Exchange Files := ⟨.rename (sibling f.path) f.path, .ok ()⟩
  have hfiles : Leads Contents.Step files [written, renamed] after :=
    .cons rfl <| .cons ⟨document secrets, Function.update_self .., rfl⟩ <| .nil _
  rw [change, persist]
  cases (Files.Path.parent f.path).filter fun p => !p.isEmpty with
  | none =>
    exact ⟨[written, renamed], after, .ask _ (.ask _ (.done _)), hfiles, Function.update_self ..⟩
  | some d =>
    exact ⟨⟨.createDirectories d, .ok ()⟩ :: [written, renamed], after,
      .ask _ (.ask _ (.ask _ (.done _))), .cons rfl hfiles, Function.update_self ..⟩

/-- A secret that is there is taken away by a change. -/
theorem course_delete {answer : Except Error Bool} (hkey : f.secrets.contains key) :
    Course (f.delete key) said (some (answer, left)) ↔
      ∃ outcome, answer = outcome.map (fun _ => true) ∧
        Course (f.change key (f.secrets.erase key)) said (some (outcome, left)) := by
  rw [delete, if_pos hkey, Dialogue.course_bind]
  constructor
  · rintro (⟨first, rest, ⟨outcome, left⟩, rfl, hchange, hend⟩ | ⟨-, heq⟩)
    · obtain ⟨rfl, heq⟩ := Dialogue.course_pure.1 hend
      obtain ⟨rfl, rfl⟩ := Prod.mk.inj (Option.some.inj heq)
      rw [List.append_nil]
      exact ⟨outcome, rfl, hchange⟩
    · exact absurd heq (by simp)
  · rintro ⟨outcome, rfl, hchange⟩
    exact .inl ⟨said, [], _, (List.append_nil said).symm, hchange, .done _⟩

end File

/-- A call that did not fail. -/
def Succeeds (e : Exchange World) : Bool :=
  match e with
  | ⟨.resolveSecret _, answer⟩ => answer.isOk
  | ⟨.storeSecret .., answer⟩ => answer.isOk
  | ⟨.deleteSecret _, answer⟩ => answer.isOk
  | _ => true

/-- A file of secrets that was opened, among all files. -/
structure OnDisk where
  file : File
  files : Contents

namespace OnDisk

/-- What a call does to a file of secrets and to all files. -/
def Step (s : OnDisk) (e : Exchange World) (t : OnDisk) : Prop :=
  match e with
  | ⟨.resolveSecret key, answer⟩ => answer = .ok (s.file.secrets.get? key) ∧ t = s
  | ⟨.storeSecret key value, answer⟩ =>
    ∃ said, Course (s.file.store key value) said (some (answer, t.file)) ∧
      Leads Contents.Step s.files said t.files
  | ⟨.deleteSecret key, answer⟩ =>
    ∃ said, Course (s.file.delete key) said (some (answer, t.file)) ∧
      Leads Contents.Step s.files said t.files
  | _ => t = s

/-- After a call the file holds its secrets; one that fails changes neither. -/
structure Faithful (s : OnDisk) (e : Exchange World) (t : OnDisk) : Prop where
  found : t.file.FoundIn t.files
  kept : ¬Succeeds e → t.file = s.file ∧ t.files s.file.path = s.files s.file.path

variable {s t : OnDisk} {key value : String} {said : List (Exchange Files)}

/-- What each call keeps, and what it has in common with one to a store in memory. -/
private structure Called (s : OnDisk) (e : Exchange World) (t : OnDisk) : Prop where
  opened : File.opened t.files t.file.path = .ok t.file
  kept : ¬Succeeds e → t.file = s.file ∧ t.files s.file.path = s.files s.file.path
  answered : Succeeds e → (Keeper.memory s.file.secrets).Step e (.memory t.file.secrets)

private theorem Called.faithful {e : Exchange World} (h : Called s e t) : Faithful s e t :=
  ⟨File.foundIn_of_opened h.opened, h.kept⟩

/-- A call that changes nothing. -/
private theorem Called.of_same {e : Exchange World}
    (hs : File.opened s.files s.file.path = .ok s.file) (hfile : t.file = s.file)
    (hfiles : t.files s.file.path = s.files s.file.path)
    (hanswered : Succeeds e → (Keeper.memory s.file.secrets).Step e (.memory s.file.secrets)) :
    Called s e t := by
  refine ⟨?_, fun _ => ⟨hfile, hfiles⟩, ?_⟩
  · rw [hfile, File.opened_congr hfiles, hs]
  · rw [hfile]
    exact hanswered

/-- A call after which the file holds other secrets. -/
private theorem Called.of_changed {e : Exchange World} {secrets : Secrets}
    (hfile : t.file = { s.file with secrets })
    (hdocument : t.files s.file.path = some (document secrets)) (he : Succeeds e)
    (hanswered : (Keeper.memory s.file.secrets).Step e (.memory secrets)) : Called s e t := by
  refine ⟨File.opened_of_document ?_, fun hnot => absurd he hnot, fun _ => ?_⟩
  · rw [hfile]
    exact hdocument
  · rw [hfile]
    exact hanswered

private theorem called_store {answer : Except Error Unit}
    (hs : File.opened s.files s.file.path = .ok s.file)
    (h : Course (s.file.store key value) said (some (answer, t.file)))
    (hfiles : Leads Contents.Step s.files said t.files) :
    Called s ⟨.storeSecret key value, answer⟩ t := by
  have hmemory : (Keeper.memory s.file.secrets).Stores key value _ _ := .memory s.file.secrets
  rw [Secrets.store] at hmemory
  rw [File.store] at h
  split at h
  · obtain ⟨heq, hsame⟩ := h.of_pure hfiles
    obtain ⟨rfl, hfile⟩ := Prod.mk.inj (Option.some.inj heq)
    exact .of_same hs hfile (by rw [hsame]) fun hfails => absurd hfails Bool.false_ne_true
  · rename_i hkey
    rw [if_neg hkey] at hmemory
    rcases File.course_change (KeyMap.restore_insert _ key value) h hfiles with
      ⟨rfl, hfile, hdocument⟩ | ⟨⟨e, rfl⟩, hfile, hsame⟩
    · exact .of_changed hfile hdocument rfl hmemory
    · exact .of_same hs hfile hsame fun hfails => absurd hfails Bool.false_ne_true

private theorem called_delete {answer : Except Error Bool}
    (hs : File.opened s.files s.file.path = .ok s.file)
    (h : Course (s.file.delete key) said (some (answer, t.file)))
    (hfiles : Leads Contents.Step s.files said t.files) :
    Called s ⟨.deleteSecret key, answer⟩ t := by
  have hmemory : (Keeper.memory s.file.secrets).Deletes key _ _ := .memory s.file.secrets
  rw [Secrets.delete] at hmemory
  by_cases hkey : s.file.secrets.contains key
  · rw [hkey] at hmemory
    obtain ⟨outcome, rfl, hchange⟩ := (File.course_delete hkey).1 h
    rcases File.course_change (KeyMap.restore_erase _ key) hchange hfiles with
      ⟨rfl, hfile, hdocument⟩ | ⟨⟨e, rfl⟩, hfile, hsame⟩
    · exact .of_changed hfile hdocument rfl hmemory
    · exact .of_same hs hfile hsame fun hfails => absurd hfails Bool.false_ne_true
  · rw [File.delete, if_neg hkey] at h
    obtain ⟨heq, hsame⟩ := h.of_pure hfiles
    obtain ⟨rfl, hfile⟩ := Prod.mk.inj (Option.some.inj heq)
    have hnone : s.file.secrets.get? key = none := by simpa [KeyMap.contains] using hkey
    rw [Bool.eq_false_iff.2 hkey, KeyMap.erase_of_get?_eq_none hnone] at hmemory
    exact .of_same hs hfile (by rw [hsame]) fun _ => hmemory

private theorem Step.called {e : Exchange World} (h : s.Step e t)
    (hs : File.opened s.files s.file.path = .ok s.file) : Called s e t := by
  obtain ⟨q, answer⟩ := e
  cases q with
  | resolveSecret key =>
    obtain ⟨hanswer, rfl⟩ := h
    exact .of_same hs rfl rfl fun _ => ⟨hanswer, rfl⟩
  | storeSecret key value =>
    obtain ⟨said, hcourse, hfiles⟩ := h
    exact called_store hs hcourse hfiles
  | deleteSecret key =>
    obtain ⟨said, hcourse, hfiles⟩ := h
    exact called_delete hs hcourse hfiles
  | _ =>
    obtain rfl : t = s := h
    exact .of_same hs rfl rfl fun _ => rfl

/-- What each call does, a run of calls does: every call leaves the file holding its secrets, and
those that did not fail are answered as a store in memory answers them. -/
private theorem called_of_leads {calls : List (Exchange World)} (h : Leads Step s calls t)
    (hs : File.opened s.files s.file.path = .ok s.file) :
    Leads (fun s e t => s.Step e t ∧ Faithful s e t) s calls t ∧
      Leads Keeper.Step (.memory s.file.secrets) (calls.filter Succeeds)
        (.memory t.file.secrets) := by
  induction h with
  | nil s => exact ⟨.nil s, .nil _⟩
  | @cons s mid last e calls first rest ih =>
    have hcalled := first.called hs
    obtain ⟨hrest, hmemory⟩ := ih hcalled.opened
    refine ⟨.cons ⟨first, hcalled.faithful⟩ hrest, ?_⟩
    by_cases he : Succeeds e
    · rw [List.filter_cons_of_pos he]
      exact .cons (hcalled.answered he) hmemory
    · rw [List.filter_cons_of_neg he, ← (hcalled.kept he).1]
      exact hmemory

/-- A file that is missing, empty, or holds an object of strings can be opened. Whatever is called
then and whichever steps of writing fail, after every call whoever opens the file finds the secrets
in it that are taken to be in it; a call that fails changes neither; and all that did not fail are
answered as by a store in memory that began with the same secrets. -/
theorem leads_of_load {files after : Contents} {path : String} {opening : List (Exchange Files)}
    {outcome : Option (Except Error File)}
    (hfile : ∀ content, files path = some content →
      content = [] ∨ ∃ secrets, (Json.Reader.string.map).complete content = .ok secrets)
    (hopening : Course (File.load path) opening outcome)
    (hfiles : Leads Contents.Step files opening after) :
    ∃ f : File, outcome = some (.ok f) ∧ after = files ∧ f.path = path ∧
      (∀ content, files path = some content → content ≠ [] →
        (Json.Reader.string.map).complete content = .ok f.secrets) ∧
      (files path = none ∨ files path = some [] → f.secrets = ∅) ∧
      ∀ calls last, Leads Step ⟨f, files⟩ calls last →
        Leads (fun s e t => s.Step e t ∧ Faithful s e t) ⟨f, files⟩ calls last ∧
          Leads Keeper.Step (.memory f.secrets) (calls.filter Succeeds)
            (.memory last.file.secrets) := by
  obtain ⟨rfl, rfl⟩ := File.course_load hopening hfiles
  obtain ⟨f, hopened, hpath, hcontents, hempty⟩ :
      ∃ f : File, File.opened after path = .ok f ∧ f.path = path ∧
        (∀ content, after path = some content → content ≠ [] →
          (Json.Reader.string.map).complete content = .ok f.secrets) ∧
        (after path = none ∨ after path = some [] → f.secrets = ∅) := by
    rw [File.opened]
    cases hcontent : after path with
    | none => exact ⟨⟨path, ∅⟩, rfl, rfl, by simp, fun _ => rfl⟩
    | some content =>
      by_cases hnil : content = []
      · subst hnil
        exact ⟨⟨path, ∅⟩, rfl, rfl, by simp, fun _ => rfl⟩
      · obtain ⟨secrets, hsecrets⟩ := (hfile content hcontent).resolve_left hnil
        have hdocument : ofDocument content = .ok secrets := by
          rw [ofDocument, if_neg (by simpa using hnil), hsecrets]
        refine ⟨⟨path, secrets⟩, by simp only [hdocument], rfl, ?_, by simp [hnil]⟩
        rintro _ ⟨⟩ -
        exact hsecrets
  subst hpath
  exact ⟨f, by rw [hopened], rfl, rfl, hcontents, hempty, fun calls last hcalls =>
    called_of_leads hcalls hopened⟩

/-- What is said when secrets are changed in a file that is in a directory. -/
theorem course_change_answered {f : File} {secrets : Secrets} {d : String}
    (hback : secrets.restore key (f.secrets.get? key) = f.secrets)
    (hd : (Files.Path.parent f.path).filter (fun p => !p.isEmpty) = some d)
    (write rename : Except Files.Fault Unit) :
    let make : Exchange Files := ⟨.createDirectories d, .ok ()⟩
    let written : Exchange Files := ⟨.write (File.sibling f.path) (document secrets), write⟩
    let renamed : Exchange Files := ⟨.rename (File.sibling f.path) f.path, rename⟩
    match write, rename with
    | .error fault, _ =>
      Course (f.change key secrets) [make, written] (some (.error (.file f.path fault), f))
    | .ok (), .error fault =>
      Course (f.change key secrets) [make, written, renamed] (some (.error (.file f.path fault), f))
    | .ok (), .ok () =>
      Course (f.change key secrets) [make, written, renamed]
        (some (.ok (), { f with secrets })) := by
  rw [File.change, File.persist, hd, hback]
  cases write with
  | error fault => exact .ask _ (.ask _ (.done _))
  | ok written => cases rename <;> exact .ask _ (.ask _ (.ask _ (.done _)))

/-- A secret is stored, which fails at first and leaves half a document beside the file, and
another one is not taken away because the file cannot be renamed. -/
theorem leads_of_load_of_failures :
    let files : Contents := update (fun _ => none) "d/s" (some (utf8 "\x7b\"a\":\"1\"\x7d"))
    let f : File := ⟨"d/s", (∅ : Secrets).insert "a" "1"⟩
    let key := "\"é\n"
    let full : Error := .file "d/s" (.other "full")
    let calls : List (Exchange World) := [⟨.storeSecret key "v", .error full⟩,
      ⟨.storeSecret key "v", .ok ()⟩, ⟨.deleteSecret "a", .error full⟩,
      ⟨.resolveSecret "a", .ok (some "1")⟩]
    ∃ opening last, Course (File.load "d/s") opening (some (.ok f)) ∧
      Leads Contents.Step files opening files ∧ Leads Step ⟨f, files⟩ calls last ∧
      Leads (fun s e t => s.Step e t ∧ Faithful s e t) ⟨f, files⟩ calls last ∧
      Leads Keeper.Step (.memory f.secrets) [⟨.storeSecret key "v", .ok ()⟩,
        ⟨.resolveSecret "a", .ok (some "1")⟩] (.memory last.file.secrets) := by
  have hsecrets : (Json.Reader.string.map).complete (utf8 "\x7b\"a\":\"1\"\x7d") =
      .ok ((∅ : Secrets).insert "a" "1") := by decide +kernel
  intro files f key full calls
  let f' : File := ⟨"d/s", f.secrets.insert key "v"⟩
  let torn := update files "d/s.tmp" (some (utf8 "\x7b"))
  let beside := update torn "d/s.tmp" (some (document f'.secrets))
  let stored := update (update beside "d/s.tmp" none) "d/s" (some (document f'.secrets))
  let left := update stored "d/s.tmp" (some (document (f'.secrets.erase "a")))
  have hopened : File.opened files "d/s" = .ok f := by
    have hcontent : files "d/s" = some (utf8 "\x7b\"a\":\"1\"\x7d") := Function.update_self ..
    have hdocument : ofDocument (utf8 "\x7b\"a\":\"1\"\x7d") = .ok f.secrets := by
      rw [ofDocument, if_neg (by decide), hsecrets]
    rw [File.opened, hcontent]
    simp only [hdocument, f]
  obtain ⟨opening, hload, hread⟩ := File.exists_course_load files "d/s"
  rw [hopened] at hload
  have hd : (Files.Path.parent "d/s").filter (fun p => !p.isEmpty) = some "d" := by decide +kernel
  have hget : f'.secrets.get? "a" = some "1" := by
    rw [KeyMap.get?_insert_of_ne (by decide), KeyMap.get?_insert_self]
  have hthere : f'.secrets.contains "a" := congrArg Option.isSome hget
  have hback := KeyMap.restore_insert f.secrets key "v"
  have hfails : Step ⟨f, files⟩ ⟨.storeSecret key "v", .error full⟩ ⟨f, torn⟩ :=
    ⟨_, course_change_answered hback hd (.error (.other "full")) (.ok ()),
      .cons rfl <| .cons (fun p hp => Function.update_of_ne hp _ _) <| .nil _⟩
  have hstores : Step ⟨f, torn⟩ ⟨.storeSecret key "v", .ok ()⟩ ⟨f', stored⟩ :=
    ⟨_, course_change_answered hback hd (.ok ()) (.ok ()), .cons rfl <| .cons rfl <|
      .cons ⟨document f'.secrets, Function.update_self .., rfl⟩ <| .nil _⟩
  have hdeletes : Step ⟨f', stored⟩ ⟨.deleteSecret "a", .error full⟩ ⟨f', left⟩ := by
    have hchange := course_change_answered (f := f') (KeyMap.restore_erase f'.secrets "a") hd
      (.ok ()) (.error (.other "full"))
    exact ⟨_, (File.course_delete hthere).2 ⟨_, rfl, hchange⟩,
      .cons rfl <| .cons rfl <| .cons rfl <| .nil _⟩
  have hresolves : Step ⟨f', left⟩ ⟨.resolveSecret "a", .ok (some "1")⟩ ⟨f', left⟩ :=
    ⟨congrArg Except.ok hget.symm, rfl⟩
  have hcalls : Leads Step ⟨f, files⟩ calls ⟨f', left⟩ :=
    .cons hfails <| .cons hstores <| .cons hdeletes <| .cons hresolves <| .nil _
  have hfile : ∀ content, files "d/s" = some content →
      content = [] ∨ ∃ secrets, (Json.Reader.string.map).complete content = .ok secrets := by
    rintro _ ⟨⟩
    exact .inr ⟨f.secrets, hsecrets⟩
  obtain ⟨_, hsame, -, -, -, -, hruns⟩ := leads_of_load hfile hload hread
  obtain rfl := Except.ok.inj (Option.some.inj hsame)
  obtain ⟨hfaithful, hmemory⟩ := hruns calls _ hcalls
  exact ⟨opening, _, hload, hread, hcalls, hfaithful, hmemory⟩

end OnDisk

end BucketTransfer.Secrets
