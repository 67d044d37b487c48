import BucketTransfer.Proofs.Connector.Targets
import BucketTransfer.Proofs.Services.InMemory
import BucketTransfer.Proofs.Transfer.Run

/-!
# What an upload leaves

An upload puts its files into the store one after the other, each under the key of its name, and
lists an object for each of them. The store holds what each file held, unless a later file has the
same name: then both go to one key, and the later one is left.
-/
namespace BucketTransfer

namespace Transfer
open Dialogue (Course)
open Files (Disk)
open Files.Disk (onFiles)
open ObjectStore (Memory)

variable {said : List (Exchange World)} {asked : List (Exchange Files)} {m n : Memory}
  {d d' : Disk} {path : String} {paths : List String} {p : Part} {parts : List Part}

namespace Part

/-- A part that is a file, under the name of the file. -/
structure IsFile (path : String) (p : Part) : Prop where
  name : Files.Path.fileName path = some p.name
  content : p.content = .file path

/-- An exchange that does no more than look at a file. -/
private def Inspects (e : Exchange Files) : Prop := ∃ path, e.question = .inspect path

private theorem isFile_of_ofPath (h : Course (Part.ofPath path) asked (some (.ok p))) :
    IsFile path p ∧ ∀ e ∈ asked, Inspects e := by
  rw [Part.ofPath] at h
  split at h
  · exact absurd (Dialogue.course_pure.1 h).2 (by simp)
  · rename_i name hname
    obtain ⟨answer, rest, rfl, hrest⟩ := Dialogue.course_question_bind.1 h
    rcases answer with fault | size | -
    · exact absurd (Dialogue.course_pure.1 hrest).2 (by simp)
    · obtain ⟨rfl, heq⟩ := Dialogue.course_pure.1 hrest
      obtain rfl := Except.ok.inj (Option.some.inj heq)
      exact ⟨⟨hname, rfl⟩, List.forall_mem_singleton.2 ⟨path, rfl⟩⟩
    · exact absurd (Dialogue.course_pure.1 hrest).2 (by simp)

private theorem isFile_of_ofPaths (h : Course (Part.ofPaths paths) asked (some (.ok parts))) :
    List.Forall₂ IsFile paths parts ∧ ∀ e ∈ asked, Inspects e := by
  induction paths generalizing asked parts with
  | nil =>
    obtain ⟨rfl, heq⟩ := Dialogue.course_pure.1 h
    obtain rfl := Except.ok.inj (Option.some.inj heq)
    exact ⟨.nil, by simp⟩
  | cons path paths ih =>
    rcases Dialogue.course_bind.1 h with ⟨first, later, answer, rfl, hfirst, hlater⟩ | ⟨-, heq⟩
    · cases answer with
      | error e => exact absurd (Dialogue.course_pure.1 hlater).2 (by simp)
      | ok p =>
        rcases Dialogue.course_bind.1 hlater with ⟨others, last, rest, rfl, hothers, hlast⟩ |
          ⟨-, heq⟩
        · obtain ⟨rfl, heq⟩ := Dialogue.course_pure.1 hlast
          cases rest with
          | error e => exact absurd heq (by simp [Except.map])
          | ok parts =>
            obtain rfl := Except.ok.inj (Option.some.inj heq)
            obtain ⟨hp, hasked⟩ := isFile_of_ofPath hfirst
            obtain ⟨hparts, hrest⟩ := ih hothers
            rw [List.append_nil]
            exact ⟨.cons hp hparts, List.forall_mem_append.2 ⟨hasked, hrest⟩⟩
        · exact absurd heq (by simp)
    · exact absurd heq (by simp)

/-- Files that become parts stay as they are. -/
theorem isFile_of_course (h : Course (World.files (Part.ofPaths paths)) said (some (.ok parts)))
    (hs : Leads Memory.Step m said n) (hd : Leads Disk.Step d said d') :
    n = m ∧ d' = d ∧ List.Forall₂ IsFile paths parts := by
  obtain ⟨asked, hasked, rfl⟩ := Disk.exists_of_files h
  obtain ⟨hparts, hinspects⟩ := isFile_of_ofPaths hasked
  refine ⟨hs.eq_of_idle fun e he s t hstep => ?_, hd.eq_of_idle fun e he s t hstep => ?_, hparts⟩
  · obtain ⟨e, -, rfl⟩ := List.mem_map.1 he
    exact hstep
  · obtain ⟨⟨q, answer⟩, hmem, rfl⟩ := List.mem_map.1 he
    obtain ⟨path, rfl⟩ : ∃ path, q = .inspect path := hinspects _ hmem
    exact (congrArg Prod.snd hstep).symm

private theorem IsFile.opening {stream : ByteStream} (hp : p.IsFile path)
    (h : Course p.openStream said (some (.ok stream))) :
    said = [⟨.file (.read path), .ok stream⟩] := by
  rw [openStream, hp.content] at h
  obtain ⟨answer, rest, rfl, hrest⟩ := Dialogue.course_question_bind.1 h
  cases answer with
  | error fault => exact absurd (Dialogue.course_pure.1 hrest).2 (by simp)
  | ok read =>
    obtain ⟨rfl, heq⟩ := Dialogue.course_pure.1 hrest
    obtain rfl := Except.ok.inj (Option.some.inj heq)
    rfl

end Part

namespace Sink
variable {s : Sink} {object : Uploaded} {summary : Summary}

/-- A file comes to an object with its content, and stays as it is. -/
private theorem gained_of_partCalls (hp : p.IsFile path) (hm : m.Numbered)
    (h : s.PartCalls p said (.ok object)) (hs : Leads Memory.Step m said n)
    (hd : Leads Disk.Step d said d') :
    d' = d ∧ ∃ content, d.find path = .ok (.file content) ∧
      m.Gained s.bucket (s.keyPrefix ++ p.name) content n ∧
      object.key = s.keyPrefix ++ p.name ∧ object.size = content.length := by
  cases h with
  | opened stream opening calls opened _ session =>
    obtain rfl := hp.opening opened
    rw [List.singleton_append] at hs hd
    obtain ⟨same, hsame, hcalls⟩ := leads_cons.1 hs
    obtain ⟨disk, hread, hidle⟩ := leads_cons.1 hd
    obtain rfl : same = m := hsame
    -- The file is read before the upload is started, so it is found as it was at the start.
    obtain ⟨hends, hgained⟩ := gained_of_session hm session hcalls
    obtain ⟨hkey, hsize⟩ := object_of_session session
    obtain ⟨rfl, content, hfind, rfl⟩ := Disk.find_of_read hread hends
    have hbytes : (ByteStream.ofBytes content).bytes = content := List.append_nil content
    rw [hbytes] at hgained hsize
    refine ⟨hidle.eq_of_idle fun e he s t hstep => ?_, content, hfind, hgained, hkey, hsize⟩
    obtain ⟨r, reply, rfl⟩ := granted_of_session session e he
    exact hstep

private theorem calls_cons_ok (h : s.Calls (p :: parts) said (.ok summary)) :
    ∃ first later object objects, said = first ++ later ∧ summary = ⟨object :: objects⟩ ∧
      s.PartCalls p first (.ok object) ∧ s.Calls parts later (.ok ⟨objects⟩) := by
  generalize hsummary : Except.ok summary = outcome at h
  cases h with
  | failed => exact absurd hsummary (by simp)
  | next _ _ first later object outcome part others =>
    cases outcome with
    | error e => exact absurd hsummary (by simp [Except.map])
    | ok rest =>
      obtain rfl := Except.ok.inj hsummary
      exact ⟨first, later, object, rest.objects, rfl, rfl, part, others⟩

/-- Files come to objects in their order, and those that come later may replace others. -/
private theorem written_of_calls (hparts : List.Forall₂ Part.IsFile paths parts)
    (hm : m.Numbered) (h : s.Calls parts said (.ok summary)) (hs : Leads Memory.Step m said n)
    (hd : Leads Disk.Step d said d') :
    d' = d ∧ ∃ done : List (Part × Bytes),
      List.Forall₂ (fun path q => q.1.IsFile path ∧ d.find path = .ok (.file q.2)) paths done ∧
      List.Forall₂ (fun q object => object.key = s.keyPrefix ++ q.1.name ∧
        object.size = q.2.length) done summary.objects ∧
      s.Written m done n := by
  induction hparts generalizing said m summary with
  | nil =>
    cases h with
    | nil =>
      obtain rfl := leads_nil.1 hs
      obtain rfl := leads_nil.1 hd
      exact ⟨rfl, [], .nil, .nil, rfl, by simp, fun _ _ _ => rfl⟩
  | @cons path p paths parts hp hparts ih =>
    obtain ⟨first, later, object, objects, rfl, rfl, hpart, hothers⟩ := calls_cons_ok h
    obtain ⟨mid, hfirst, hlater⟩ := leads_append.1 hs
    obtain ⟨disk, hopened, hrest⟩ := leads_append.1 hd
    obtain ⟨rfl, content, hfind, hgained, hobject⟩ :=
      gained_of_partCalls hp hm hpart hfirst hopened
    have hmid := Memory.keeps_of_leads (P := Memory.Numbered)
      (fun _ r hs => Memory.numbered_answer hs r) hfirst hm
    obtain ⟨rfl, done, hdone, hobjects, hwritten⟩ := ih hmid hothers hlater hrest
    exact ⟨rfl, (p, content) :: done, .cons ⟨hp, hfind⟩ hdone, .cons hobject hobjects,
      .cons hgained hwritten⟩

end Sink

end Transfer

namespace Connector
open ObjectStore (Memory)
open Transfer (Part Sink)

variable {settings : Settings} {target : Target} {paths : List String}

/-- What an upload that succeeds leaves: each file is a part with its name and its content, and
comes to one object of the summary with the key of the name and the size of the content, in the
order of the files. The store holds under the key of each name what the last file of this name
holds, and all else as before; so each file is there with its content exactly if files with the same
name hold the same. -/
theorem written_of_upload {w last : Rehearsal Services.InMemory} {summary : Transfer.Summary}
    (hm : w.services.store.Reachable)
    (h : Rehearsal.attempt (upload settings target paths) w = (some (.ok summary), last)) :
    ∃ (sink : Sink) (done : List (Part × Bytes)),
      sink.bucket = target.bucket ∧ sink.keyPrefix = target.keyPrefix ∧
      List.Forall₂ (fun path q => q.1.IsFile path ∧
        w.machine.disk.find path = .ok (.file q.2)) paths done ∧
      List.Forall₂ (fun q object => object.key = target.keyPrefix ++ q.1.name ∧
        object.size = q.2.length) done summary.objects ∧
      sink.Written w.services.store done last.services.store ∧
      ((∀ q ∈ done, last.services.store.object? target.bucket (target.keyPrefix ++ q.1.name) =
          some q.2) ↔
        ∀ q ∈ done, ∀ r ∈ done, q.1.name = r.1.name → q.2 = r.2) ∧
      last.machine.disk = w.machine.disk := by
  obtain ⟨said, kept, hruns, hs, hd⟩ := Services.InMemory.runs_of_attempt h
  obtain ⟨opening, rest, sink, mid, rfl, hsink, hrest⟩ := Task.runs_bind_ok.1 hruns
  obtain ⟨store, hopening, hs⟩ := leads_append.1 hs
  obtain ⟨disk, hopened, hd⟩ := leads_append.1 hd
  rw [Task.runs_describing_ok] at hsink
  obtain ⟨hstore, hfiles⟩ := eq_of_asides ((Transfer.asides_sinkFor _ _).of_runs hsink)
  obtain rfl := hstore hopening
  obtain rfl := hfiles hopened
  obtain ⟨hbucket, hunder⟩ := sink_of_target hsink
  obtain ⟨looking, sending, parts, _, rfl, hlooking, hsending⟩ := Task.runs_bind_ok.1 hrest
  obtain ⟨store, hlooked, hsent⟩ := leads_append.1 hs
  obtain ⟨disk, hasked, hread⟩ := leads_append.1 hd
  obtain ⟨rfl, rfl, hparts⟩ :=
    Part.isFile_of_course (Task.runs_attempt_ok.1 hlooking).1 hlooked hasked
  obtain ⟨outcome, heq, hcalls⟩ :=
    Sink.course_transfer (Task.runs_attempt_ok.1 hsending).1
  obtain rfl := Option.some.inj heq
  obtain ⟨hdisk, done, hdone, hobjects, hwritten⟩ :=
    Transfer.Sink.written_of_calls hparts hm.numbered hcalls hsent hread
  rw [hunder] at hobjects
  refine ⟨sink, done, hbucket, hunder, hdone, hobjects, hwritten, ?_, hdisk⟩
  refine forall_holds_iff (fun q : Part × Bytes => q.1.name) Prod.snd
    (fun name content => last.services.store.object? target.bucket (target.keyPrefix ++ name) =
      some content) (fun name b c hb hc => Option.some.inj (hb.symm.trans hc)) ?_
  rintro earlier ⟨p, body⟩ later hsplit hlater
  rw [← hbucket, ← hunder]
  exact hwritten.last earlier p body later hsplit hlater

/-- Of two files with the same name in different directories the later one is left. -/
theorem written_of_upload_of_same_name :
    let m := (Memory.withPages "memory://obs" 1000).seed "bkt" []
    let disk := Files.Disk.ofFiles "" [("x/a.txt", utf8 "one"), ("y/a.txt", utf8 "two")]
    let w : Rehearsal Services.InMemory := { services := .ofStore m 0, machine := { disk } }
    let run := Rehearsal.attempt (upload {} ⟨"bkt", none, "", none⟩ ["x/a.txt", "y/a.txt"]) w
    let summary : Transfer.Summary := ⟨[⟨"a.txt", 1, 3⟩, ⟨"a.txt", 1, 3⟩]⟩
    run.1 = some (.ok summary) ∧ ∃ (sink : Sink) (done : List (Part × Bytes)),
      sink.bucket = "bkt" ∧ sink.keyPrefix = "" ∧
      List.Forall₂ (fun path q => q.1.IsFile path ∧ disk.find path = .ok (.file q.2))
        ["x/a.txt", "y/a.txt"] done ∧
      List.Forall₂ (fun q object => object.key = q.1.name ∧ object.size = q.2.length) done
        summary.objects ∧
      sink.Written m done run.2.services.store := by
  intro m disk w run summary
  have hok : run.1 = some (.ok summary) := by decide +kernel
  have hrun : run = (some (.ok summary), run.2) := Prod.ext hok rfl
  obtain ⟨sink, done, hbucket, hunder, hdone, hobjects, hwritten, -⟩ :=
    written_of_upload (.seeded _ _ (.new _ _)) hrun
  simp only [String.empty_append] at hobjects
  exact ⟨hok, sink, done, hbucket, hunder, hdone, hobjects, hwritten⟩

/-- The first of two files with the same name is not in the store after an upload that succeeds,
although the summary has an object for each of them. -/
theorem not_every_file_of_same_name :
    let m := (Memory.withPages "memory://obs" 1000).seed "bkt" []
    let disk := Files.Disk.ofFiles "" [("x/a.txt", utf8 "one"), ("y/a.txt", utf8 "two")]
    let w : Rehearsal Services.InMemory := { services := .ofStore m 0, machine := { disk } }
    let run := Rehearsal.attempt (upload {} ⟨"bkt", none, "", none⟩ ["x/a.txt", "y/a.txt"]) w
    Files.Path.fileName "x/a.txt" = some "a.txt" ∧ Files.Path.fileName "y/a.txt" = some "a.txt" ∧
      disk.find "x/a.txt" = .ok (.file (utf8 "one")) ∧
      disk.find "y/a.txt" = .ok (.file (utf8 "two")) ∧
      run.1 = some (.ok ⟨[⟨"a.txt", 1, 3⟩, ⟨"a.txt", 1, 3⟩]⟩) ∧
      run.2.services.store.object? "bkt" "a.txt" = some (utf8 "two") ∧
      utf8 "one" ≠ utf8 "two" := by
  decide +kernel

end Connector

end BucketTransfer
