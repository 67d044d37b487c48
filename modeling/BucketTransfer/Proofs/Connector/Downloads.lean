import BucketTransfer.Proofs.Connector.LocalPath
import BucketTransfer.Proofs.Latest
import BucketTransfer.Proofs.ObjectStore.Shared
import BucketTransfer.Proofs.Services.InMemory

/-!
# What a download leaves

A download lists the objects of a target in the order of their keys and writes them one after the
other. Each file holds what it was written, unless a later object has a key with the same names:
then both go to one file, and the later one is left.
-/
namespace BucketTransfer.Connector
open Dialogue (Course)
open Files (Disk)
open Files.Path (LeadsDown join leadsDown_join names)
open ObjectStore (Memory Page)

/-- Whether an object is asked for: the one that is named, or all under the prefix. -/
def Selects (target : Target) (objectName : Option String) (key : String) : Prop :=
  match single objectName with
  | none => key.startsWith target.keyPrefix
  | some name => key = name

/-- The file that an object is downloaded to. -/
def fileOf (output key : String) : String := join output ("/".intercalate (names key))

variable {settings : Settings} {target : Target} {objectName : Option String} {output : String}
  {kept kept' : Clients} {said : List (Exchange World)} {m n : Memory} {d d' : Disk}
  {client : Client} {bucket keyPrefix : String} {pages : Nat}

section Listing

/-- A question about the keys of a bucket. -/
private def IsListing (client : Client) (bucket keyPrefix : String) : World.Question → Prop
  | .request c (.listObjects b p _) => c = client ∧ b = bucket ∧ p = keyPrefix
  | _ => False

private theorem asks_listObjects (pages : Nat) (client : Client) (bucket keyPrefix : String) :
    (Transfer.listObjects pages client bucket keyPrefix).Asks
      (IsListing client bucket keyPrefix) := by
  have hfrom (found : List (List ObjectStore.Summary)) (marker : Option String)
      (stuck : String → ObjectStore.Error) :
      (ObjectStore.listFrom (client.listObjects bucket keyPrefix) stuck found marker pages).Asks
        (IsListing client bucket keyPrefix) := by
    induction pages generalizing found marker with
    | zero => exact .unfinished
    | succ pages ih =>
      refine Dialogue.Asks.bind (.ask ⟨rfl, rfl, rfl⟩ fun _ => .done _) ?_
      rintro (_ | page)
      · exact .done _
      · dsimp only
        split
        · exact .done _
        · split
          · exact .done _
          · exact ih _ _
  exact hfrom [] none _

private theorem alike_of_isListing {e : Exchange World} {s t : Memory}
    (h : IsListing client bucket keyPrefix e.question) (hstep : Memory.Step s e t) : s.Alike t := by
  obtain ⟨q, answer⟩ := e
  cases q with
  | request c r =>
    cases r with
    | listObjects b p marker =>
      have halike := s.alike_answer_listObjects b p marker
      rwa [Memory.step_exchange.1 hstep] at halike
    | _ => exact h.elim
  | _ => exact h.elim

/-- A listing names the keys under its prefix in order, and changes nothing. -/
private theorem found_of_listObjects {found : List ObjectStore.Summary}
    (h : Course (Transfer.listObjects pages client bucket keyPrefix) said (some (.ok found)))
    (hs : Leads Memory.Step m said n) (hd : Leads Disk.Step d said d') :
    m.Alike n ∧ d' = d ∧ (found.map (·.key)).Pairwise (· < ·) ∧ (found ≠ [] → ∀ key,
      key ∈ found.map (·.key) ↔ key.startsWith keyPrefix ∧ (m.object? bucket key).isSome) := by
  have hasked := (asks_listObjects pages client bucket keyPrefix).of_course h
  have hdisk : d' = d := by
    refine hd.eq_of_idle fun e he s t hstep => hstep.eq_of_aside fun q heq => ?_
    have hlisting := hasked e he
    rw [heq] at hlisting
    exact hlisting
  obtain ⟨hsteps, halike⟩ := hs.keeping (Memory.Alike.refl m) fun e he s t hs hstep =>
    hs.trans (alike_of_isListing (hasked e he) hstep)
  have hfetch : ∀ marker said page, Course (client.listObjects bucket keyPrefix marker) said
      (some (.ok page)) →
        client.exchange (.listObjects bucket keyPrefix marker) (.ok page) ∈ said := by
    intro marker said page hpage
    obtain ⟨answer, rfl, heq⟩ := Dialogue.course_send.1 hpage
    obtain rfl := Option.some.inj heq
    exact List.mem_singleton_self _
  -- Nothing changes meanwhile, so every page is one of the bucket as it is at the start.
  have hchain : Memory.Chain (fun objects => m.buckets.get? bucket = some objects) m.pageSize
      keyPrefix none (found.map (·.key)) := by
    refine .of_paging hfetch (ObjectStore.course_listAll h) (fun marker page he => ?_) rfl
    obtain ⟨s, t, hs, hstep⟩ := hsteps.exists_of_mem he
    obtain ⟨objects, hobjects, hpage⟩ :=
      Memory.listObjects_ok (congrArg Prod.fst (Memory.step_exchange.1 hstep))
    rw [hs.buckets] at hobjects
    rw [hs.pageSize] at hpage
    exact ⟨objects, hobjects, hpage⟩
  have hobject (objects : KeyMap Bytes) (key : String)
      (hheld : m.buckets.get? bucket = some objects) : m.object? bucket key = objects.get? key := by
    rw [Memory.object?, hheld, Option.bind_some]
  refine ⟨halike, hdisk, hchain.increasing.1, fun hne key => ⟨fun hkey => ?_, ?_⟩⟩
  · obtain ⟨hstarts, objects, hheld, hsome⟩ := hchain.held_of_mem hkey
    rw [hobject objects key hheld]
    exact ⟨hstarts, hsome⟩
  · rintro ⟨hstarts, hsome⟩
    have hsize := hchain.size_pos (by simpa using hne)
    refine hchain.mem_of_lasting hsize hstarts rfl fun objects hheld => ?_
    rwa [← hobject objects key hheld]

/-- The parts of a source are the objects that its listing names, or the one that it is for. -/
private theorem found_of_source {source : Transfer.Source} {parts : List Transfer.Part}
    (h : Course (source.parts pages) said (some (.ok parts)))
    (hs : Leads Memory.Step m said n) (hd : Leads Disk.Step d said d') :
    m.Alike n ∧ d' = d ∧ ∃ found : List ObjectStore.Summary,
      parts = found.map (.ofObject source.client source.bucket) ∧
      (found.map (·.key)).Pairwise (· < ·) ∧ ∀ key, key ∈ found.map (·.key) ↔
        key.startsWith source.listed ∧ source.objectName.all (key == ·) ∧
          (m.object? source.bucket key).isSome := by
  rcases Dialogue.course_bind.1 h with ⟨listing, rest, answer, rfl, hlisting, hrest⟩ | ⟨-, heq⟩
  · obtain ⟨mid, hfirst, hlater⟩ := leads_append.1 hs
    obtain ⟨disk, hdisk, hothers⟩ := leads_append.1 hd
    cases answer with
    | error e => exact absurd (Dialogue.course_pure.1 hrest).2 (by simp)
    | ok objects =>
      obtain ⟨halike, rfl, hsorted, hkeys⟩ := found_of_listObjects hlisting hfirst hdisk
      dsimp only at hrest
      split at hrest
      · exact absurd (Dialogue.course_pure.1 hrest).2 (by simp)
      · rename_i hfound
        obtain ⟨rfl, heq⟩ := Dialogue.course_pure.1 hrest
        obtain rfl := leads_nil.1 hlater
        obtain rfl := leads_nil.1 hothers
        refine ⟨halike, rfl, _, Except.ok.inj (Option.some.inj heq), ?_, fun key => ?_⟩
        · exact hsorted.sublist (List.filter_sublist.map _)
        · have hne : objects ≠ [] := fun hnil => hfound (by rw [hnil, List.filter_nil])
          have hmem : key ∈ (objects.filter fun o => source.objectName.all (o.key == ·)).map
              (·.key) ↔ key ∈ objects.map (·.key) ∧ source.objectName.all (key == ·) := by
            simp only [List.mem_map, List.mem_filter]
            constructor
            · rintro ⟨o, ⟨ho, hall⟩, rfl⟩
              exact ⟨⟨o, ho, rfl⟩, hall⟩
            · rintro ⟨⟨o, ho, rfl⟩, hall⟩
              exact ⟨o, ⟨ho, hall⟩, rfl⟩
          rw [hmem, hkeys hne, and_assoc, and_congr_right_iff]
          exact fun _ => and_comm
  · exact absurd heq (by simp)

/-- What is found for a target are its objects, in the order of their keys. -/
private theorem found_of_parts {parts : List Transfer.Part}
    (h : (Connector.parts settings pages target objectName).Runs kept said
      (some (.ok parts, kept')))
    (hs : Leads Memory.Step m said n) (hd : Leads Disk.Step d said d') :
    m.Alike n ∧ d' = d ∧ ∃ client, ∃ found : List ObjectStore.Summary,
      parts = found.map (.ofObject client target.bucket) ∧
      (found.map (·.key)).Pairwise (· < ·) ∧ ∀ key, key ∈ found.map (·.key) ↔
        Selects target objectName key ∧ (m.object? target.bucket key).isSome := by
  obtain ⟨opening, listing, source, mid, rfl, hsource, hparts⟩ := Task.runs_bind_ok.1 h
  obtain ⟨first, hfirst, hlater⟩ := leads_append.1 hs
  obtain ⟨disk, hdisk, hrest⟩ := leads_append.1 hd
  rw [Task.runs_describing_ok] at hsource
  obtain ⟨hstore, hfiles⟩ := eq_of_asides ((Transfer.asides_sourceFor _).of_runs hsource)
  obtain rfl := hstore hfirst
  obtain rfl := hfiles hdisk
  obtain ⟨hbucket, hunder, hobject⟩ := source_of_target hsource
  obtain ⟨hcourse, -⟩ := Task.runs_attempt_ok.1 hparts
  obtain ⟨halike, rfl, found, rfl, hsorted, hkeys⟩ := found_of_source hcourse hlater hrest
  rw [hbucket] at hkeys ⊢
  refine ⟨halike, rfl, source.client, found, rfl, hsorted, fun key => ?_⟩
  rw [hkeys, Selects, Transfer.Source.listed, hobject, hunder]
  cases single objectName with
  | none => simp
  | some name =>
    rw [Option.getD_some, Option.all_some, beq_iff_eq]
    constructor
    · exact And.right
    · rintro ⟨rfl, hsome⟩
      exact ⟨String.startsWith_string_iff.2 List.prefix_rfl, rfl, hsome⟩

end Listing

section Writing
variable {o : ObjectStore.Summary} {path key : String} {written keys : List String}

/-- What is left of objects that were downloaded one after the other: in the file of each what it
was written, unless a later object goes to the same file, and all other files as they were. -/
structure Left (output bucket : String) (m : Memory) (d : Disk) (keys : List String) (d' : Disk) :
    Prop where
  last : ∀ earlier key later, keys = earlier ++ key :: later →
    (∀ k ∈ later, names k ≠ names key) →
      ∃ content, m.object? bucket key = some content ∧
        d'.find (fileOf output key) = .ok (.file content)
  other : ∀ path down content, LeadsDown output path down → down ≠ [] →
    (∀ k ∈ keys, names k ≠ down) → d.find path = .ok (.file content) →
      d'.find path = .ok (.file content)

theorem leadsDown_fileOf {rel : String} (output : String) (h : localPath key = .ok rel) :
    names key ≠ [] ∧ fileOf output key = join output rel ∧
      LeadsDown output (fileOf output key) (names key) := by
  obtain ⟨-, hup, hne, rfl⟩ := localPath_eq_ok_iff.1 h
  exact ⟨hne, rfl, leadsDown_join output hne (isName_of_mem_names hup)⟩

private theorem said_of_writeStream {stream : ByteStream} {written : Unit}
    (h : (writeStream key path stream).Runs kept said (some (.ok written, kept'))) :
    stream.failure = none ∧
      said = [⟨.file (.write path stream.pieces.flatten), .ok ()⟩] := by
  obtain ⟨first, rest, _, mid, rfl, hwrite, hend⟩ := Task.runs_bind_ok.1 h
  obtain ⟨answer, rfl, heq⟩ := Disk.course_file.1 (Task.runs_attempt_ok.1 hwrite).1
  obtain rfl := Option.some.inj heq
  split at hend
  · rename_i hwhole
    obtain ⟨-, rfl, -⟩ := Task.runs_pure_ok.1 hend
    exact ⟨hwhole, rfl⟩
  · exact absurd (Task.runs_throw.1 hend).2 (by simp)

/-- What is said when an object is downloaded. -/
private theorem said_of_downloadPart
    (h : (downloadPart output (.ofObject client bucket o)).Runs kept said
      (some (.ok path, kept'))) :
    ∃ rel above body, localPath o.key = .ok rel ∧ path = fileOf output o.key ∧
      body.stream.failure = none ∧
      said = [⟨.file (.createDirectories above), .ok ()⟩,
        client.exchange (.getObject bucket o.key) (.ok body),
        ⟨.file (.write path body.stream.pieces.flatten), .ok ()⟩] := by
  obtain ⟨_, _, rel, _, -, hfound, -⟩ := Task.runs_bind_ok.1 h
  have hlocal := (Task.runs_settled_ok.1 hfound).1
  obtain ⟨-, hup, hne, rfl⟩ := localPath_eq_ok_iff.1 hlocal
  obtain ⟨above, hparent, -⟩ :=
    Files.Path.exists_parent_join output hne (isName_of_mem_names hup)
  rw [downloadPart_of_localPath hlocal hparent] at h
  obtain ⟨making, later, _, _, rfl, hmaking, hlater⟩ := Task.runs_bind_ok.1 h
  obtain ⟨opening, rest, stream, _, rfl, hopening, hrest⟩ := Task.runs_bind_ok.1 hlater
  obtain ⟨writing, last, _, _, rfl, hwriting, hlast⟩ := Task.runs_bind_ok.1 hrest
  obtain ⟨answer, rfl, heq⟩ := Disk.course_file.1 (Task.runs_attempt_ok.1 hmaking).1
  obtain rfl := Option.some.inj heq
  obtain ⟨reply, others, rfl, hreply⟩ :=
    Dialogue.course_send_bind.1 (Task.runs_attempt_ok.1 hopening).1
  obtain ⟨hwhole, rfl⟩ := said_of_writeStream hwriting
  obtain ⟨rfl, rfl, -⟩ := Task.runs_pure_ok.1 hlast
  cases reply with
  | error e => exact absurd (Dialogue.course_pure.1 hreply).2 (by simp)
  | ok body =>
    obtain ⟨rfl, heq⟩ := Dialogue.course_pure.1 hreply
    obtain rfl := Except.ok.inj (Option.some.inj heq)
    exact ⟨_, above, body, hlocal, rfl, hwhole, rfl⟩

/-- An object that is downloaded is in its file as it is in the store, and all other files are as
they were. -/
private theorem left_of_downloadPart
    (h : (downloadPart output (.ofObject client bucket o)).Runs kept said
      (some (.ok path, kept')))
    (hs : Leads Memory.Step m said n) (hd : Leads Disk.Step d said d') :
    m.Alike n ∧ path = fileOf output o.key ∧ (∃ rel, localPath o.key = .ok rel) ∧
      Left output bucket m d [o.key] d' := by
  obtain ⟨rel, above, body, hlocal, rfl, hwhole, rfl⟩ := said_of_downloadPart h
  obtain ⟨same, hsame, hasked⟩ := leads_cons.1 hs
  obtain ⟨mid, hget, hlast⟩ := leads_cons.1 hasked
  obtain rfl : same = m := hsame
  have hlast := leads_singleton.1 hlast
  obtain rfl : n = mid := hlast
  obtain ⟨made, hmake, hopened⟩ := leads_cons.1 hd
  obtain ⟨opened, hopen, hwrite⟩ := leads_cons.1 hopened
  obtain rfl : opened = made := hopen
  have hwrite := leads_singleton.1 hwrite
  change opened.write (fileOf output o.key) body.stream.pieces.flatten = (.ok (), d') at hwrite
  obtain ⟨content, hcontent, hstream⟩ := Memory.getObject_ok (Memory.step_exchange.1 hget)
  have halike := same.alike_answer_getObject bucket o.key
  rw [Memory.step_exchange.1 hget] at halike
  -- Of what is asked for only the writing can lose a file, and only the one at its own place.
  have hkeeps := Disk.keeps_createDirectories d above
  rw [(hmake : d.answer _ = _)] at hkeeps
  rw [hstream] at hwrite
  obtain ⟨hfind, hlost⟩ := Disk.find_of_write hwrite
  obtain ⟨hne, -, hdown⟩ := leadsDown_fileOf output hlocal
  refine ⟨halike, rfl, ⟨rel, hlocal⟩, ?_, ?_⟩
  · intro earlier key later hsplit hlater
    obtain rfl : o.key = key := by
      have hmem : key ∈ [o.key] := hsplit ▸ List.mem_append_right _ List.mem_cons_self
      exact (List.mem_singleton.1 hmem).symm
    exact ⟨content, hcontent, by simpa [ByteStream.ofBytes] using hfind⟩
  · intro path down body hpath hnames hother hbody
    refine hlost.find (hkeeps.find hbody (by simp)) fun hkey => ?_
    exact hother o.key (List.mem_singleton_self _)
      (Disk.down_eq_of_keyOf hne hnames hdown hpath (Option.some.inj hkey))

private theorem Left.cons {e : Disk} (hrest : Left output bucket n d' keys e)
    (hbuckets : m.Alike n) (hkey : ∃ rel, localPath key = .ok rel)
    (h : Left output bucket m d [key] d') : Left output bucket m d (key :: keys) e := by
  obtain ⟨rel, hrel⟩ := hkey
  obtain ⟨hne, -, hdown⟩ := leadsDown_fileOf output hrel
  refine ⟨latest_cons names (fun hothers => ?_) fun earlier k later hsplit hlater => ?_, ?_⟩
  · obtain ⟨content, hcontent, hfind⟩ := h.last [] key [] rfl (by simp)
    exact ⟨content, hcontent, hrest.other _ _ _ hdown hne hothers hfind⟩
  · obtain ⟨content, hcontent, hfind⟩ := hrest.last earlier k later hsplit hlater
    refine ⟨content, ?_, hfind⟩
    rwa [Memory.object?, hbuckets.buckets] at hcontent
  · intro path down content hpath hnames hother hfind
    obtain ⟨hfirst, hothers⟩ := List.forall_mem_cons.1 hother
    exact hrest.other path down content hpath hnames hothers
      (h.other path down content hpath hnames (List.forall_mem_singleton.2 hfirst) hfind)

/-- Objects that are downloaded are written in order, each to its own file. -/
private theorem left_of_downloadParts {found : List ObjectStore.Summary}
    (h : (downloadParts output (found.map (.ofObject client bucket))).Runs kept said
      (some (.ok written, kept')))
    (hs : Leads Memory.Step m said n) (hd : Leads Disk.Step d said d') :
    m.Alike n ∧ written = (found.map (·.key)).map (fileOf output) ∧
      (∀ key ∈ found.map (·.key), ∃ rel, localPath key = .ok rel) ∧
      Left output bucket m d (found.map (·.key)) d' := by
  induction found generalizing kept kept' said m d written with
  | nil =>
    obtain ⟨rfl, rfl, -⟩ := Task.runs_pure_ok.1 h
    obtain rfl := leads_nil.1 hs
    obtain rfl := leads_nil.1 hd
    exact ⟨.refl _, rfl, by simp, by simp, fun _ _ _ _ _ _ hfind => hfind⟩
  | cons o found ih =>
    obtain ⟨first, later, path, _, rfl, hfirst, hlater⟩ := Task.runs_bind_ok.1 h
    obtain ⟨rest, last, others, _, rfl, hrest, hlast⟩ := Task.runs_bind_ok.1 hlater
    obtain ⟨rfl, rfl, -⟩ := Task.runs_pure_ok.1 hlast
    rw [List.append_nil] at hs hd
    obtain ⟨mid, hs, hs'⟩ := leads_append.1 hs
    obtain ⟨disk, hd, hd'⟩ := leads_append.1 hd
    obtain ⟨halike, rfl, hlocal, hleft⟩ := left_of_downloadPart hfirst hs hd
    obtain ⟨hsame, rfl, hlocals, hothers⟩ := ih hrest hs' hd'
    exact ⟨halike.trans hsame, rfl, List.forall_mem_cons.2 ⟨hlocal, hlocals⟩,
      .cons hothers halike hlocal hleft⟩

private theorem fileOf_inj {other : String} (hkey : ∃ rel, localPath key = .ok rel)
    (hother : ∃ rel, localPath other = .ok rel) :
    fileOf output key = fileOf output other ↔ names key = names other := by
  obtain ⟨rel, hrel⟩ := hkey
  obtain ⟨rel', hrel'⟩ := hother
  obtain ⟨-, -, hdown⟩ := leadsDown_fileOf output hrel
  obtain ⟨-, -, hdown'⟩ := leadsDown_fileOf output hrel'
  constructor
  · intro heq
    rw [heq] at hdown
    exact hdown.unique hdown'
  · intro heq
    rw [fileOf, fileOf, heq]

/-- Each object is in its file exactly if those that go to one file hold the same. -/
private theorem Left.all_iff (h : Left output bucket m d keys d') :
    (∀ key ∈ keys, ∃ content, m.object? bucket key = some content ∧
        d'.find (fileOf output key) = .ok (.file content)) ↔
      ∀ key ∈ keys, ∀ other ∈ keys, names key = names other →
        m.object? bucket key = m.object? bucket other := by
  let Holds (down : List String) (object : Option Bytes) : Prop := ∃ content,
    object = some content ∧ d'.find (join output ("/".intercalate down)) = .ok (.file content)
  refine forall_holds_iff names (m.object? bucket) Holds ?_ h.last
  rintro down _ _ ⟨content, rfl, hfind⟩ ⟨content', rfl, hfind'⟩
  rw [hfind] at hfind'
  simpa using hfind'

end Writing

/-- What a download that succeeds writes: the objects that are asked for, in the order of their
keys, each to the file that its names lead to. Two of them go to one file exactly if their keys have
the same names, and then what is left is the last one; so the content of each object is in its file
exactly if objects whose keys have the same names hold the same. -/
theorem left_of_download {w last : Rehearsal Services.InMemory} {written : List String}
    (h : Rehearsal.attempt (download settings pages target objectName output) w =
      (some (.ok written), last)) :
    ∃ keys : List String, keys.Pairwise (· < ·) ∧
      (∀ key, key ∈ keys ↔ Selects target objectName key ∧
        (w.services.store.object? target.bucket key).isSome) ∧
      written = keys.map (fileOf output) ∧
      (∀ key ∈ keys, ∃ rel, localPath key = .ok rel ∧ fileOf output key = join output rel) ∧
      (∀ key ∈ keys, ∀ other ∈ keys,
        fileOf output key = fileOf output other ↔ names key = names other) ∧
      Left output target.bucket w.services.store w.machine.disk keys last.machine.disk ∧
      ((∀ key ∈ keys, ∃ content, w.services.store.object? target.bucket key = some content ∧
          last.machine.disk.find (fileOf output key) = .ok (.file content)) ↔
        ∀ key ∈ keys, ∀ other ∈ keys, names key = names other →
          w.services.store.object? target.bucket key =
            w.services.store.object? target.bucket other) ∧
      w.services.store.Alike last.services.store := by
  obtain ⟨said, kept, hruns, hs, hd⟩ := Services.InMemory.runs_of_attempt h
  obtain ⟨listing, writing, parts, mid, rfl, hparts, hrest⟩ := Task.runs_bind_ok.1 hruns
  obtain ⟨store, hs, hs'⟩ := leads_append.1 hs
  obtain ⟨disk, hd, hd'⟩ := leads_append.1 hd
  obtain ⟨halike, rfl, client, found, rfl, hsorted, hkeys⟩ := found_of_parts hparts hs hd
  obtain ⟨hsame, rfl, hlocal, hleft⟩ := left_of_downloadParts hrest hs' hd'
  have hobject (key : String) : store.object? target.bucket key =
      w.services.store.object? target.bucket key := by
    rw [Memory.object?, Memory.object?, halike.buckets]
  have hleft : Left output target.bucket w.services.store _ _ _ :=
    ⟨fun earlier key later hsplit hlater =>
      hobject key ▸ hleft.last earlier key later hsplit hlater, hleft.other⟩
  refine ⟨found.map (·.key), hsorted, hkeys, rfl, fun key hkey => ?_,
    fun key hkey other hother => fileOf_inj (hlocal key hkey) (hlocal other hother), hleft,
    hleft.all_iff, halike.trans hsame⟩
  obtain ⟨rel, hrel⟩ := hlocal key hkey
  exact ⟨rel, hrel, (leadsDown_fileOf output hrel).2.1⟩

/-- Of two objects whose keys have the same names the later one is left in their file. -/
theorem left_of_download_of_doubled_slash :
    let m := (Memory.withPages "memory://obs" 1000).seed "bkt"
      [("a//b", utf8 "one"), ("a/b", utf8 "two")]
    let w : Rehearsal Services.InMemory := { services := .ofStore m 0 }
    let run := Rehearsal.attempt (download {} 1 ⟨"bkt", none, "", none⟩ none "out") w
    run.1 = some (.ok ["out/a/b", "out/a/b"]) ∧
      ∃ keys : List String, ["out/a/b", "out/a/b"] = keys.map (fileOf "out") ∧
        (∀ key, key ∈ keys ↔ Selects ⟨"bkt", none, "", none⟩ none key ∧
          (m.object? "bkt" key).isSome) ∧
        Left "out" "bkt" m w.machine.disk keys run.2.machine.disk := by
  intro m w run
  have hok : run.1 = some (.ok ["out/a/b", "out/a/b"]) := by decide +kernel
  have hrun : run = (some (.ok ["out/a/b", "out/a/b"]), run.2) := Prod.ext hok rfl
  have hstore : w.services.store = m := rfl
  obtain ⟨keys, -, hkeys, hwritten, -, -, hleft, -⟩ := left_of_download hrun
  rw [hstore] at hkeys hleft
  exact ⟨hok, keys, hwritten, hkeys, hleft⟩

/-- The object of a key with a doubled slash is not in its file after a download that succeeds, but
the object of the key with a single one. -/
theorem not_own_file_of_doubled_slash :
    let m := (Memory.withPages "memory://obs" 1000).seed "bkt"
      [("a//b", utf8 "one"), ("a/b", utf8 "two")]
    let w : Rehearsal Services.InMemory := { services := .ofStore m 0 }
    let run := Rehearsal.attempt (download {} 1 ⟨"bkt", none, "", none⟩ none "out") w
    localPath "a//b" = .ok "a/b" ∧ localPath "a/b" = .ok "a/b" ∧
      m.object? "bkt" "a//b" = some (utf8 "one") ∧ m.object? "bkt" "a/b" = some (utf8 "two") ∧
      run.1 = some (.ok ["out/a/b", "out/a/b"]) ∧
      run.2.machine.disk.find (join "out" "a/b") = .ok (.file (utf8 "two")) ∧
      utf8 "one" ≠ utf8 "two" := by
  decide +kernel

end BucketTransfer.Connector
