import BucketTransfer.Files.Disk
import BucketTransfer.Proofs.Dialogue.Leads
import BucketTransfer.Proofs.Files.Path
import BucketTransfer.Proofs.KeyMap.Lookup
import BucketTransfer.Proofs.Outcome
import BucketTransfer.World

/-!
# What stays on a disk

Directories stay where they are, and a file stays until something is written to its own place. Where
a path leads does not change as long as the directories on the way stay, so that a file is found
again by its path.
-/
namespace BucketTransfer.Files.Disk
open Files.Path (Component LeadsDown IsName components)

/-- Every entry stays, but for a file with the key that is `lost`. -/
def Keeps (lost : Option String) (d d' : Disk) : Prop :=
  ∀ key entry, d.entries.get? key = some entry → (lost = some key → entry = .directory) →
    d'.entries.get? key = some entry

/-- The place that a path leads to if it leads anywhere. -/
def placeOf (path : String) : List String := (components path).foldl enter []

variable {d d' : Disk} {lost : Option String} {path other base : String} {content : Bytes}
  {place down : List String}

section Keeps

@[refl] theorem Keeps.refl (lost : Option String) (d : Disk) : Keeps lost d d := fun _ _ h _ => h

theorem Keeps.trans {e : Disk} (h : Keeps none d d') (h' : Keeps none d' e) : Keeps none d e :=
  fun key entry hentry _ => h' key entry (h key entry hentry (by simp)) (by simp)

theorem Keeps.directory (h : Keeps lost d d') (hd : d.entryAt place = some .directory) :
    d'.entryAt place = some .directory := by
  rw [entryAt] at hd ⊢
  split_ifs at hd ⊢
  · rfl
  · exact h _ _ hd fun _ => rfl

theorem Keeps.file (h : Keeps lost d d') (hd : d.entryAt place = some (.file content))
    (hlost : lost ≠ some (keyOf place)) : d'.entryAt place = some (.file content) := by
  rw [entryAt] at hd ⊢
  split_ifs at hd ⊢
  · exact absurd hd (by simp)
  · exact h _ _ hd fun heq => absurd heq hlost

/-- An entry is put where there is no directory. -/
theorem keeps_put (entry : Entry) (h : d.entryAt place ≠ some .directory) :
    Keeps (some (keyOf place)) d (d.put place entry) := by
  intro key old hold hlost
  rw [put, KeyMap.get?_insert]
  split
  · rename_i heq
    subst heq
    obtain rfl := hlost rfl
    rw [entryAt] at h
    split_ifs at h
    · exact absurd rfl h
    · exact absurd hold h
  · exact hold

theorem keeps_put_of_absent {entry : Entry} (h : d.entryAt place = none) :
    Keeps none d (d.put place entry) := by
  intro key old hold _
  rw [put, KeyMap.get?_insert_of_ne]
  · exact hold
  · rintro rfl
    rw [entryAt] at h
    split_ifs at h
    exact absurd (h.symm.trans hold) (by simp)

theorem keeps_makeAlong (d : Disk) (place : List String) (way : List Component) :
    Keeps none d (d.makeAlong place way).2 := by
  induction way generalizing d place with
  | nil => exact .refl none d
  | cons c rest ih =>
    rw [makeAlong]
    split
    · exact .refl none d
    · split
      · rename_i habsent
        exact (keeps_put_of_absent habsent).trans (ih _ _)
      · exact ih _ _
      · exact .refl none d

/-- Making directories loses nothing. -/
theorem keeps_createDirectories (d : Disk) (path : String) :
    Keeps none d (d.answer (.createDirectories path)).2 := by
  rw [answer]
  split
  · exact .refl none d
  · split
    · exact .refl none d
    · exact keeps_makeAlong d [] (components path)

end Keeps

section Ways

private theorem step_eq_ok {c : Component} {next : List String} (h : d.step place c = .ok next) :
    d.entryAt place = some .directory ∧ next = enter place c := by
  unfold Disk.step at h
  split at h
  · exact absurd h (by simp)
  · exact absurd h (by simp)
  · rename_i hdirectory
    refine ⟨hdirectory, ?_⟩
    split at h
    · split at h
      · exact absurd h (by simp)
      · exact (Except.ok.inj h).symm
    · exact (Except.ok.inj h).symm

private theorem Keeps.step {c : Component} {next : List String} (h : Keeps lost d d')
    (hd : d.step place c = .ok next) : d'.step place c = .ok next := by
  have hdirectory := (step_eq_ok hd).1
  unfold Disk.step at hd ⊢
  rw [hdirectory] at hd
  rw [h.directory hdirectory]
  exact hd

/-- A way leads to the same place as long as its directories stay. -/
private theorem Keeps.foldlM_step {way : List Component} {last : List String} (h : Keeps lost d d')
    (hd : way.foldlM d.step place = .ok last) :
    way.foldlM d'.step place = .ok last ∧ last = way.foldl enter place := by
  induction way generalizing place with
  | nil =>
    obtain rfl : place = last := Except.ok.inj hd
    exact ⟨rfl, rfl⟩
  | cons c way ih =>
    rw [List.foldlM_cons] at hd ⊢
    obtain ⟨next, hnext, hrest⟩ := exists_of_bind hd
    obtain ⟨hway, rfl⟩ := ih hrest
    refine ⟨?_, ?_⟩
    · rw [h.step hnext]
      exact hway
    · rw [List.foldl_cons, (step_eq_ok hnext).2]

private theorem locate_eq_ok :
    d.locate path = .ok place ↔
      holdsNul path = false ∧ path ≠ "" ∧ (components path).foldlM d.step [] = .ok place := by
  rw [locate]
  split_ifs <;> simp_all

theorem Keeps.locate (h : Keeps lost d d') (hd : d.locate path = .ok place) :
    d'.locate path = .ok place := by
  obtain ⟨hnul, hne, hway⟩ := locate_eq_ok.1 hd
  exact locate_eq_ok.2 ⟨hnul, hne, (h.foldlM_step hway).1⟩

theorem eq_placeOf_of_locate (hd : d.locate path = .ok place) : place = placeOf path :=
  ((Keeps.refl none d).foldlM_step (locate_eq_ok.1 hd).2.2).2

theorem find_eq_file :
    d.find path = .ok (.file content) ↔
      ∃ place, d.locate path = .ok place ∧ d.entryAt place = some (.file content) ∧
        meansDirectory path = false := by
  constructor
  · intro h
    obtain ⟨place, hplace, hentry⟩ := exists_of_bind h
    refine ⟨place, hplace, ?_⟩
    split at hentry
    · exact absurd hentry (by simp)
    · rename_i found hfound
      split at hentry
      · exact absurd hentry (by simp)
      · rename_i hmeans
        obtain rfl : found = content := by simpa using hentry
        exact ⟨hfound, by simpa using hmeans⟩
    · exact absurd hentry (by simp)
  · rintro ⟨place, hplace, hentry, hmeans⟩
    simp [find, hplace, hentry, hmeans, bind, Except.bind]

/-- A file is found again as long as nothing is written to its place. -/
theorem Keeps.find (h : Keeps lost d d') (hd : d.find path = .ok (.file content))
    (hlost : lost ≠ some (keyOf (placeOf path))) : d'.find path = .ok (.file content) := by
  obtain ⟨place, hplace, hentry, hmeans⟩ := find_eq_file.1 hd
  obtain rfl := eq_placeOf_of_locate hplace
  exact find_eq_file.2 ⟨_, h.locate hplace, h.file hentry hlost, hmeans⟩

/-- A file is found where it was written, and nothing but what its place held is lost. -/
theorem find_of_write (h : d.write path content = (.ok (), d')) :
    d'.find path = .ok (.file content) ∧ Keeps (some (keyOf (placeOf path))) d d' := by
  rw [write] at h
  split at h
  · exact absurd h (by simp)
  · rename_i place hplace
    split at h
    · exact absurd h (by simp)
    · rename_i hfree
      obtain ⟨-, rfl⟩ := Prod.mk.inj h
      simp only [Bool.or_eq_true, decide_eq_true_eq, not_or, Bool.not_eq_true] at hfree
      obtain ⟨hdirectory, hmeans⟩ := hfree
      obtain rfl := eq_placeOf_of_locate hplace
      have hkeeps := keeps_put (.file content) hdirectory
      refine ⟨find_eq_file.2 ⟨_, hkeeps.locate hplace, ?_, hmeans⟩, hkeeps⟩
      rw [entryAt] at hdirectory ⊢
      split_ifs at hdirectory ⊢
      · exact absurd rfl hdirectory
      · rw [put, KeyMap.get?_insert_self]

end Ways

section Places

/-- What leads down from a path leads to a place below the one that the path leads to. -/
theorem placeOf_of_leadsDown (h : LeadsDown base path down) :
    placeOf path = placeOf base ++ down := by
  have hdown (down place : List String) :
      (down.map Component.name).foldl enter place = place ++ down := by
    induction down generalizing place with
    | nil => simp
    | cons name down ih =>
      rw [List.map_cons, List.foldl_cons, ih, enter, List.append_assoc, List.singleton_append]
  rw [placeOf, h.components, List.foldl_append, hdown]
  rfl

private theorem slash_not_mem_placeOf : ∀ name ∈ placeOf path, '/' ∉ name.toList := by
  have hway : ∀ name, .name name ∈ components path → '/' ∉ name.toList :=
    fun name hname => (Path.isName_of_mem_components hname).slash
  have hplace : ∀ name ∈ ([] : List String), '/' ∉ name.toList := by simp
  rw [placeOf]
  generalize components path = way at hway
  generalize ([] : List String) = place at hplace
  induction way generalizing place with
  | nil => exact hplace
  | cons c way ih =>
    refine ih (fun name hname => hway name (List.mem_cons_of_mem c hname)) _ ?_
    cases c with
    | root => simp [enter]
    | current => exact hplace
    | up =>
      rw [enter]
      split_ifs
      · simp
      · simp
      · exact fun name hname => hplace name (List.dropLast_subset place hname)
    | name new =>
      exact List.forall_mem_append.2
        ⟨hplace, List.forall_mem_singleton.2 (hway new List.mem_cons_self)⟩

/-- Different names lead to places with different keys. -/
theorem down_eq_of_keyOf {path' : String} {down' : List String} (hne : down ≠ [])
    (hne' : down' ≠ []) (h : LeadsDown base path down) (h' : LeadsDown base path' down')
    (hkey : keyOf (placeOf path) = keyOf (placeOf path')) : down = down' := by
  have hsegments := congrArg Path.segments hkey
  rw [keyOf, keyOf, placeOf_of_leadsDown h, placeOf_of_leadsDown h',
    Path.segments_intercalate (by simp [hne]) (placeOf_of_leadsDown h ▸ slash_not_mem_placeOf),
    Path.segments_intercalate (by simp [hne']) (placeOf_of_leadsDown h' ▸ slash_not_mem_placeOf)]
    at hsegments
  exact List.append_cancel_left hsegments

end Places

section Exchanges
variable {α : Type} {said : List (Exchange World)} {e : Exchange World}

/-- What is asked of the file system is asked of the world. -/
def onFiles (e : Exchange Files) : Exchange World := ⟨.file e.question, e.answer⟩

theorem exists_of_files {a : Dialogue Files α} {result : Option α}
    (h : Dialogue.Course (World.files a) said result) :
    ∃ asked, Dialogue.Course a asked result ∧ said = asked.map onFiles := by
  induction a generalizing said with
  | done value =>
    obtain ⟨rfl, rfl⟩ := Dialogue.course_done.1 h
    exact ⟨[], .done value, rfl⟩
  | ask q next ih =>
    obtain ⟨answer, rest, rfl, hrest⟩ :=
      (Dialogue.course_question_bind (I := World) (q := .file q)).1 h
    obtain ⟨asked, hasked, rfl⟩ := ih answer hrest
    exact ⟨⟨q, answer⟩ :: asked, Dialogue.course_ask.2 ⟨answer, asked, rfl, hasked⟩, rfl⟩
  | unfinished =>
    obtain ⟨rfl, rfl⟩ := Dialogue.course_unfinished.1 h
    exact ⟨[], .unfinished, rfl⟩

theorem course_file {q : Question} {result : Option q.Answer} :
    Dialogue.Course (World.files (.question (I := Files) q)) said result ↔
      ∃ answer : q.Answer, said = [⟨.file q, answer⟩] ∧ result = some answer :=
  Dialogue.course_question (I := World) (q := .file q)

/-- What an exchange does to the disk that files are on. -/
def Step (d : Disk) (e : Exchange World) (d' : Disk) : Prop :=
  match e with
  | ⟨.file q, answer⟩ => d.answer q = (answer, d')
  | _ => d' = d

/-- What is no question about files does not concern the disk. -/
theorem Step.eq_of_aside (h : d.Step e d') (he : ∀ q, e.question ≠ .file q) : d' = d := by
  obtain ⟨q, answer⟩ := e
  cases q with
  | file q => exact absurd rfl (he q)
  | _ => exact h

/-- A file that is read to its end is read as it is. -/
theorem find_of_read {stream : ByteStream} (h : d.answer (.read path) = (.ok stream, d'))
    (hends : stream.failure = none) :
    d' = d ∧ ∃ content, d.find path = .ok (.file content) ∧ stream = .ofBytes content := by
  obtain ⟨hanswer, rfl⟩ := Prod.mk.inj h
  refine ⟨rfl, ?_⟩
  cases hfind : d.find path with
  | error fault =>
    rw [hfind] at hanswer
    exact absurd hanswer (by simp [Except.map])
  | ok entry =>
    rw [hfind] at hanswer
    obtain rfl := Except.ok.inj hanswer
    cases entry with
    | file content => exact ⟨content, rfl, rfl⟩
    | directory => exact absurd hends (by simp)

end Exchanges

end BucketTransfer.Files.Disk
