import BucketTransfer.Proofs.Secrets.File

/-!
# A file of secrets that several processes use

A process reads the file when it opens it, and with a change it writes all that it holds. So the
file holds what the process held that changed it last, and what is known of a secret can be followed
back through the calls to where it comes from. A process that opened the file before a secret was
stored in it loses this secret with its next change.
-/
namespace BucketTransfer.Secrets
open Dialogue (Course)
open Files (Contents)
open Function (update)

/-- Processes with one file of secrets: all files, and what each process holds that has opened it.
-/
structure Sharing (ι : Type) where
  files : Contents
  held : ι → Option File

namespace Sharing

/-- What a process can do with the file. -/
inductive Question (ι : Type) where
  | opens (process : ι)
  | stores (process : ι) (key value : String)
  | deletes (process : ι) (key : String)

abbrev Question.Answer {ι : Type} : Question ι → Type
  | opens _ | stores .. => Except Error Unit
  | deletes .. => Except Error Bool

/-- The calls of processes. -/
abbrev Calls (ι : Type) : Interface := ⟨Question ι, Question.Answer⟩

variable {ι : Type} {e : Exchange (Calls ι)} {calls : List (Exchange (Calls ι))}

/-- A secret is stored under a key, or the one that is there is taken away. -/
def Replaces (key : String) (e : Exchange (Calls ι)) : Prop :=
  (∃ i value, e = ⟨.stores i key value, .ok ()⟩) ∨ ∃ i, e = ⟨.deletes i key, .ok true⟩

/-- The process that has changed the file with a call. -/
def writer? : Exchange (Calls ι) → Option ι
  | ⟨.stores i _ _, .ok ()⟩ => some i
  | ⟨.deletes i _, .ok true⟩ => some i
  | _ => none

/-- Whoever changes the file is the one process or has opened the file before with these calls. -/
def Informed (i : ι) (calls : List (Exchange (Calls ι))) : Prop :=
  ∀ earlier e, earlier ++ [e] <+: calls → ∀ j, writer? e = some j →
    j = i ∨ ⟨.opens j, .ok ()⟩ ∈ earlier

theorem informed_nil (i : ι) : Informed i [] := by
  simp [Informed]

theorem informed_append_singleton {i : ι} :
    Informed i (calls ++ [e]) ↔ Informed i calls ∧
      ∀ j, writer? e = some j → j = i ∨ ⟨.opens j, .ok ()⟩ ∈ calls := by
  constructor
  · intro h
    exact ⟨fun earlier e' hp => h earlier e' (hp.trans (List.prefix_append _ _)),
      h calls e List.prefix_rfl⟩
  · rintro ⟨hcalls, hlast⟩ earlier e' hp
    rcases List.prefix_concat_iff.1 hp with heq | hp
    · obtain ⟨rfl, rfl⟩ := List.append_singleton_inj.1 heq
      exact hlast
    · exact hcalls earlier e' hp

variable [DecidableEq ι]

/-- What a call does that nobody interrupts. -/
def Step (path : String) (s : Sharing ι) (e : Exchange (Calls ι)) (t : Sharing ι) : Prop :=
  match e with
  | ⟨.opens i, answer⟩ => ∃ said outcome, Course (File.load path) said (some outcome) ∧
      Leads Contents.Step s.files said t.files ∧ answer = outcome.map (fun _ => ()) ∧
        t.held = match outcome with
          | .ok f => update s.held i (some f)
          | .error _ => s.held
  | ⟨.stores i key value, answer⟩ => ∃ f left said, s.held i = some f ∧
      Course (f.store key value) said (some (answer, left)) ∧
        Leads Contents.Step s.files said t.files ∧ t.held = update s.held i (some left)
  | ⟨.deletes i key, answer⟩ => ∃ f left said, s.held i = some f ∧
      Course (f.delete key) said (some (answer, left)) ∧
        Leads Contents.Step s.files said t.files ∧ t.held = update s.held i (some left)

/-- Where what is known after a call was known before it. The file knows what it holds; it passes it
on to a process that opens it, and a process that changes the file passes on all that it knows. -/
def source : Exchange (Calls ι) → Option ι → Option ι
  | ⟨.opens i, .ok ()⟩ => update id (some i) none
  | ⟨.stores i _ _, .ok ()⟩ | ⟨.deletes i _, .ok true⟩ => update id none (some i)
  | _ => id

/-- Where what is known after some calls was known before them. -/
def origin (calls : List (Exchange (Calls ι))) (who : Option ι) : Option ι :=
  calls.foldr source who

/-- What the file holds, or what a process does. -/
def view (s : Sharing ι) (path : String) : Option ι → Option File
  | none => (File.opened s.files path).toOption
  | some i => s.held i

/-- What the file or a process knows of a secret. -/
def known (s : Sharing ι) (path key : String) (who : Option ι) : Option String :=
  (s.view path who).bind (·.secrets.get? key)

/-- The processes hold what is taken to be in this file. -/
def AtPath (s : Sharing ι) (path : String) : Prop := ∀ i f, s.held i = some f → f.path = path

/-! ## What a call can do -/

/-- The ways a call can change the file and what is held. -/
inductive Effect (path : String) (s : Sharing ι) (t : Sharing ι) : Exchange (Calls ι) → Prop where
  | opened (i : ι) (f : File) (opens : File.opened s.files path = .ok f) (files : t.files = s.files)
      (held : t.held = update s.held i (some f)) : Effect path s t ⟨.opens i, .ok ()⟩
  | stored (i : ι) (key value : String) (f : File) (before : s.held i = some f)
      (files : t.files path = some (document (f.secrets.insert key value)))
      (held : t.held = update s.held i (some ⟨path, f.secrets.insert key value⟩)) :
      Effect path s t ⟨.stores i key value, .ok ()⟩
  | deleted (i : ι) (key : String) (f : File) (before : s.held i = some f)
      (files : t.files path = some (document (f.secrets.erase key)))
      (held : t.held = update s.held i (some ⟨path, f.secrets.erase key⟩)) :
      Effect path s t ⟨.deletes i key, .ok true⟩
  | idle {e : Exchange (Calls ι)} (quiet : source e = id) (files : t.files path = s.files path)
      (held : t.held = s.held) : Effect path s t e

variable {s t mid : Sharing ι} {path key value : String}

/-- A process is left with the file that it held. -/
private theorem Effect.of_same {i : ι} {f left : File} (before : s.held i = some f)
    (held : t.held = update s.held i (some left)) (hleft : left = f)
    (files : t.files path = s.files path) (quiet : source e = id) : Effect path s t e := by
  refine .idle quiet files ?_
  rw [held, hleft, ← before, Function.update_eq_self]

theorem Step.effect (h : s.Step path e t) (hs : s.AtPath path) : Effect path s t e := by
  obtain ⟨q, answer⟩ := e
  cases q with
  | opens i =>
    obtain ⟨said, outcome, hload, hfiles, rfl, hheld⟩ := h
    obtain ⟨houtcome, hsame⟩ := File.course_load hload hfiles
    obtain rfl := Option.some.inj houtcome
    cases hopened : File.opened s.files path with
    | error cause =>
      rw [hopened] at hheld
      exact .idle rfl (by rw [hsame]) hheld
    | ok f =>
      rw [hopened] at hheld
      exact .opened i f hopened hsame hheld
  | stores i key value =>
    obtain ⟨f, left, said, hbefore, hstore, hfiles, hheld⟩ := h
    obtain rfl := hs i f hbefore
    rw [File.store] at hstore
    split at hstore
    · obtain ⟨heq, hsame⟩ := hstore.of_pure hfiles
      obtain ⟨rfl, hleft⟩ := Prod.mk.inj (Option.some.inj heq)
      exact .of_same hbefore hheld hleft (by rw [hsame]) rfl
    · rcases File.course_change (KeyMap.restore_insert _ key value) hstore hfiles with
        ⟨rfl, rfl, hdocument⟩ | ⟨⟨cause, rfl⟩, hleft, hsame⟩
      · exact .stored i key value f hbefore hdocument hheld
      · exact .of_same hbefore hheld hleft hsame rfl
  | deletes i key =>
    obtain ⟨f, left, said, hbefore, hdelete, hfiles, hheld⟩ := h
    obtain rfl := hs i f hbefore
    by_cases hkey : f.secrets.contains key
    · obtain ⟨outcome, rfl, hchange⟩ := (File.course_delete hkey).1 hdelete
      rcases File.course_change (KeyMap.restore_erase _ key) hchange hfiles with
        ⟨rfl, rfl, hdocument⟩ | ⟨⟨cause, rfl⟩, hleft, hsame⟩
      · exact .deleted i key f hbefore hdocument hheld
      · exact .of_same hbefore hheld hleft hsame rfl
    · rw [File.delete, if_neg hkey] at hdelete
      obtain ⟨heq, hsame⟩ := hdelete.of_pure hfiles
      obtain ⟨rfl, hleft⟩ := Prod.mk.inj (Option.some.inj heq)
      exact .of_same hbefore hheld hleft (by rw [hsame]) rfl

namespace Step

theorem atPath (h : s.Step path e t) (hs : s.AtPath path) : t.AtPath path := by
  have hput : ∀ i f, t.held = update s.held i (some f) → f.path = path → t.AtPath path := by
    intro i f hheld hpath j g hg
    rw [hheld] at hg
    by_cases hj : j = i
    · rw [hj, Function.update_self] at hg
      obtain rfl := Option.some.inj hg
      exact hpath
    · rw [Function.update_of_ne hj] at hg
      exact hs j g hg
  cases h.effect hs with
  | opened i f opens _ held => exact hput i f held (File.path_of_opened opens)
  | stored i key value f _ _ held => exact hput i _ held rfl
  | deleted i key f _ _ held => exact hput i _ held rfl
  | idle _ _ held =>
    intro i f hf
    rw [held] at hf
    exact hs i f hf

/-- A file that can be opened can be opened after any call. -/
theorem opens (h : s.Step path e t) (hs : s.AtPath path)
    (hopens : ∃ f, File.opened s.files path = .ok f) : ∃ f, File.opened t.files path = .ok f := by
  cases h.effect hs with
  | opened i f _ files _ => rwa [files]
  | stored i key value f _ files _ => exact ⟨_, File.opened_of_document (f := ⟨path, _⟩) files⟩
  | deleted i key f _ files _ => exact ⟨_, File.opened_of_document (f := ⟨path, _⟩) files⟩
  | idle _ files _ => rwa [File.opened_congr files]

end Step

/-- Who has written secrets knows them, and so does the file; the others know what they knew. -/
theorem known_of_written {i : ι} {secrets : Secrets}
    (files : t.files path = some (document secrets))
    (held : t.held = update s.held i (some ⟨path, secrets⟩)) (key : String) :
    t.known path key none = secrets.get? key ∧ t.known path key (some i) = secrets.get? key ∧
      ∀ j ≠ i, t.known path key (some j) = s.known path key (some j) := by
  have hopened := File.opened_of_document (f := ⟨path, secrets⟩) files
  refine ⟨?_, ?_, fun j hj => ?_⟩
  · simp [known, view, hopened, Except.toOption]
  · simp [known, view, held]
  · simp [known, view, held, hj]

/-- What is known after a call that does not replace a secret was known before it. -/
theorem Step.known (h : s.Step path e t) (hs : s.AtPath path) (hkey : ¬Replaces key e)
    (who : Option ι) : t.known path key who = s.known path key (source e who) := by
  have hwritten : ∀ i f secrets, s.held i = some f → t.files path = some (document secrets) →
      t.held = update s.held i (some ⟨path, secrets⟩) → secrets.get? key = f.secrets.get? key →
      t.known path key who = s.known path key (update id none (some i) who) := by
    intro i f secrets before files held hsame
    have hbefore : s.known path key (some i) = f.secrets.get? key := by
      simp [Sharing.known, view, before]
    obtain ⟨hfile, hwriter, hothers⟩ := known_of_written files held key
    cases who with
    | none => exact hfile.trans (hsame.trans hbefore.symm)
    | some j =>
      by_cases hj : j = i
      · rw [hj]
        exact hwriter.trans (hsame.trans hbefore.symm)
      · exact hothers j hj
  cases h.effect hs with
  | opened i f opens files held =>
    cases who with
    | none => simp [Sharing.known, view, source, files]
    | some j =>
      by_cases hj : j = i
      · simp [Sharing.known, view, source, held, hj, opens, Except.toOption]
      · simp [Sharing.known, view, source, held, hj]
  | stored i k value f before files held =>
    have hne : key ≠ k := fun heq => hkey (.inl ⟨i, value, by rw [heq]⟩)
    exact hwritten i f _ before files held (KeyMap.get?_insert_of_ne hne)
  | deleted i k f before files held =>
    have hne : key ≠ k := fun heq => hkey (.inr ⟨i, by rw [heq]⟩)
    exact hwritten i f _ before files held (by rw [KeyMap.get?_erase, if_neg hne])
  | idle quiet files held =>
    rw [quiet]
    cases who with
    | none => simp [Sharing.known, view, File.opened_congr files]
    | some j => simp [Sharing.known, view, held]

/-! ## What many calls can do -/

theorem atPath_of_leads (h : Leads (Step path) s calls t) (hs : s.AtPath path) : t.AtPath path :=
  h.invariant hs fun _ _ _ _ hs hstep => hstep.atPath hs

/-- What is known of a secret after calls that do not replace it was known at its origin. -/
theorem known_of_leads (h : Leads (Step path) s calls t) (hs : s.AtPath path)
    (hkey : ∀ e ∈ calls, ¬Replaces key e) (who : Option ι) :
    t.known path key who = s.known path key (origin calls who) := by
  induction h with
  | nil s => rfl
  | cons first rest ih =>
    obtain ⟨hfirst, hothers⟩ := List.forall_mem_cons.1 hkey
    rw [ih (first.atPath hs) hothers, first.known hs hfirst]
    rfl

theorem exists_opened_of_leads (h : Leads (Step path) s calls t) (hs : s.AtPath path)
    (hopens : ∃ f, File.opened s.files path = .ok f) : ∃ f, File.opened t.files path = .ok f :=
  (h.invariant (P := fun s => s.AtPath path ∧ ∃ f, File.opened s.files path = .ok f) ⟨hs, hopens⟩
    fun _ _ _ _ hs hstep => ⟨hstep.atPath hs.1, hstep.opens hs.1 hs.2⟩).2

/-- What a process knew was passed on to the file by it, or stayed with it. -/
theorem writer?_of_source {i : ι} {who : Option ι} (h : source e who = some i) :
    (writer? e = some i ∧ who = none) ∨ (who = some i ∧ e ≠ ⟨.opens i, .ok ()⟩) := by
  have hwrites : ∀ j, update id none (some j) who = some i →
      (some j = some i ∧ who = none) ∨ who = some i := by
    intro j hj
    cases who with
    | none => exact .inl ⟨hj, rfl⟩
    | some k => exact .inr hj
  unfold source at h
  split at h
  · rename_i j
    by_cases hj : who = some j
    · rw [hj, Function.update_self] at h
      exact absurd h nofun
    · rw [Function.update_of_ne hj] at h
      refine .inr ⟨h, fun heq => hj ?_⟩
      obtain rfl : j = i := by simpa using heq
      exact h
  · exact (hwrites _ h).imp_right fun hwho => ⟨hwho, nofun⟩
  · exact (hwrites _ h).imp_right fun hwho => ⟨hwho, nofun⟩
  · rename_i hopens _ _
    exact .inr ⟨h, hopens i⟩

/-- What the file knows, what the one process knows, and what all know that have opened the file
comes from the file or from the one process, as long as nobody else has changed the file. -/
theorem origin_of_informed {i : ι} (h : Informed i calls) (who : Option ι)
    (hwho : ∀ j, who = some j → j = i ∨ ⟨.opens j, .ok ()⟩ ∈ calls) :
    origin calls who = none ∨ origin calls who = some i := by
  induction calls using List.reverseRecOn generalizing who with
  | nil =>
    cases who with
    | none => exact .inl rfl
    | some j => exact .inr (congrArg some ((hwho j rfl).resolve_right List.not_mem_nil))
  | append_singleton calls e ih =>
    obtain ⟨hcalls, hlast⟩ := informed_append_singleton.1 h
    have hbefore : origin (calls ++ [e]) who = origin calls (source e who) := by simp [origin]
    rw [hbefore]
    apply ih hcalls
    intro j hj
    rcases writer?_of_source hj with ⟨hwriter, -⟩ | ⟨rfl, hopens⟩
    · exact hlast j hwriter
    · refine (hwho j rfl).imp_right fun hmem => ?_
      exact (List.mem_append.1 hmem).resolve_right fun heq => hopens (List.mem_singleton.1 heq).symm

/-- A process can open a file with secrets in it. -/
theorem step_opens {f : File} (h : File.opened s.files path = .ok f) (i : ι) :
    s.Step path ⟨.opens i, .ok ()⟩ ⟨s.files, update s.held i (some f)⟩ := by
  obtain ⟨said, hload, hfiles⟩ := File.exists_course_load s.files path
  exact ⟨said, .ok f, h ▸ hload, hfiles, rfl, rfl⟩

/-- A process can store a secret in a file that it has opened. -/
theorem exists_step_stores {i : ι} {secrets : Secrets} (h : s.held i = some ⟨path, secrets⟩)
    (key value : String) (hkey : key.isEmpty = false) :
    ∃ t, s.Step path ⟨.stores i key value, .ok ()⟩ t ∧
      t.files path = some (document (secrets.insert key value)) ∧
      t.held = update s.held i (some ⟨path, secrets.insert key value⟩) := by
  obtain ⟨said, after, hchange, hfiles, hdocument⟩ :=
    File.exists_course_change ⟨path, secrets⟩ key (secrets.insert key value) s.files
  refine ⟨⟨after, _⟩, ⟨⟨path, secrets⟩, _, said, h, ?_, hfiles, rfl⟩, hdocument, rfl⟩
  rw [File.store, hkey]
  exact hchange

/-- Processes open a file of secrets and change it in any order, and one of them stores a secret
which nobody replaces afterwards. Then the file can be opened, and whoever opens it finds of the
secret what was known of it at its origin when it had been stored. So the secret is found if nobody
changes the file afterwards but the process that stored it and those that have opened it since. -/
theorem finds_of_stored {files : Contents} {before after : List (Exchange (Calls ι))} {i : ι}
    (hbefore : Leads (Step path) ⟨files, fun _ => none⟩
      (before ++ [⟨.stores i key value, .ok ()⟩]) mid)
    (hafter : Leads (Step path) mid after t) (hkey : ∀ e ∈ after, ¬Replaces key e) :
    ∃ f : File, f.path = path ∧ f.FoundIn t.files ∧
      f.secrets.get? key = mid.known path key (origin after none) ∧
      (Informed i after → f.secrets.get? key = some value) := by
  obtain ⟨s, hcalls, hstore⟩ := leads_append.1 hbefore
  have hnobody : (⟨files, fun _ => none⟩ : Sharing ι).AtPath path := by
    simp [AtPath]
  have hs : s.AtPath path := atPath_of_leads hcalls hnobody
  have hmid : mid.AtPath path := atPath_of_leads hbefore hnobody
  rw [leads_singleton] at hstore
  cases hstore.effect hs with
  | idle quiet _ _ => exact absurd (congrFun quiet none) (by simp [source])
  | stored i key value g hheld files held =>
    obtain ⟨hfile, hwriter, -⟩ := known_of_written files held key
    obtain ⟨f, hf⟩ := exists_opened_of_leads hafter hmid
      ⟨_, File.opened_of_document (f := ⟨path, _⟩) files⟩
    have hpath := File.path_of_opened hf
    have hknown := known_of_leads hafter hmid hkey none
    have hfound : f.secrets.get? key = mid.known path key (origin after none) := by
      rw [← hknown, known, view, hf]
      rfl
    subst hpath
    refine ⟨f, rfl, File.foundIn_of_opened hf, hfound, fun hinformed => ?_⟩
    rw [hfound]
    rcases origin_of_informed hinformed none (by simp) with horigin | horigin
    · rw [horigin, hfile, KeyMap.get?_insert_self]
    · rw [horigin, hwriter, KeyMap.get?_insert_self]

/-- A process opens the file again after another one stored a secret, and its change keeps it. -/
theorem finds_of_stored_of_reopened :
    let before : List (Exchange (Calls Bool)) := [⟨.opens true, .ok ()⟩, ⟨.opens false, .ok ()⟩]
    let after : List (Exchange (Calls Bool)) :=
      [⟨.opens false, .ok ()⟩, ⟨.stores false "a" "1", .ok ()⟩]
    ∃ mid t, Leads (Step "s") ⟨fun _ => none, fun _ => none⟩
        (before ++ [⟨.stores true "b" "2", .ok ()⟩]) mid ∧
      Leads (Step "s") mid after t ∧ (∀ e ∈ after, ¬Replaces "b" e) ∧ Informed true after ∧
      ∃ f : File, f.path = "s" ∧ f.FoundIn t.files ∧ f.secrets.get? "b" = some "2" := by
  intro before after
  let empty : File := ⟨"s", ∅⟩
  let both : Sharing Bool :=
    ⟨fun _ => none, update (update (fun _ => none) true (some empty)) false (some empty)⟩
  have hboth : both.held true = some empty := rfl
  obtain ⟨mid, hstores, hdocument, -⟩ := exists_step_stores hboth "b" "2" rfl
  let stored : File := ⟨"s", (∅ : Secrets).insert "b" "2"⟩
  have hopened : File.opened mid.files "s" = .ok stored :=
    File.opened_of_document (f := stored) hdocument
  let seen : Sharing Bool := ⟨mid.files, update mid.held false (some stored)⟩
  have hseen : seen.held false = some stored := by simp [seen]
  obtain ⟨t, hlast, -, -⟩ := exists_step_stores hseen "a" "1" rfl
  have hbefore : Leads (Step "s") ⟨fun _ => none, fun _ => none⟩
      (before ++ [⟨.stores true "b" "2", .ok ()⟩]) mid :=
    .cons (step_opens rfl true) <| .cons (step_opens rfl false) <| .cons hstores <| .nil _
  have hafter : Leads (Step "s") mid after t :=
    .cons (step_opens hopened false) <| .cons hlast <| .nil _
  have hkey : ∀ e ∈ after, ¬Replaces "b" e := by
    simp [after, Replaces]
  have hinformed : Informed true after := by
    change Informed true ([] ++ [⟨.opens false, .ok ()⟩] ++ [⟨.stores false "a" "1", .ok ()⟩])
    rw [informed_append_singleton, informed_append_singleton]
    refine ⟨⟨informed_nil true, nofun⟩, ?_⟩
    rintro _ ⟨⟩
    exact .inr (List.mem_singleton.2 rfl)
  obtain ⟨f, hpath, hfound, -, hvalue⟩ := finds_of_stored hbefore hafter hkey
  exact ⟨mid, t, hbefore, hafter, hkey, hinformed, f, hpath, hfound, hvalue hinformed⟩

/-- Two processes open a file that is missing and store one secret each. The second one has not seen
the secret of the first, and nobody finds it any more. -/
theorem loses_of_uninformed :
    let calls : List (Exchange (Calls Bool)) := [⟨.opens true, .ok ()⟩, ⟨.opens false, .ok ()⟩,
      ⟨.stores true "b" "2", .ok ()⟩, ⟨.stores false "a" "1", .ok ()⟩]
    ∃ t : Sharing Bool, Leads (Step "s") ⟨fun _ => none, fun _ => none⟩ calls t ∧
      ¬Replaces "b" (⟨.stores false "a" "1", .ok ()⟩ : Exchange (Calls Bool)) ∧
      ∃ f : File, f.path = "s" ∧ f.FoundIn t.files ∧ f.secrets.get? "b" = none := by
  intro calls
  let empty : File := ⟨"s", ∅⟩
  let both : Sharing Bool :=
    ⟨fun _ => none, update (update (fun _ => none) true (some empty)) false (some empty)⟩
  have hboth : both.held true = some empty := rfl
  obtain ⟨mid, hstores, -, hheld⟩ := exists_step_stores hboth "b" "2" rfl
  have hempty : mid.held false = some empty := by
    rw [hheld]
    rfl
  obtain ⟨t, hlast, hdocument, -⟩ := exists_step_stores hempty "a" "1" rfl
  let left : File := ⟨"s", (∅ : Secrets).insert "a" "1"⟩
  have hopened : File.opened t.files "s" = .ok left :=
    File.opened_of_document (f := left) hdocument
  refine ⟨t, ?_, by simp [Replaces], left, rfl, File.foundIn_of_opened hopened, ?_⟩
  · exact .cons (step_opens rfl true) <| .cons (step_opens rfl false) <| .cons hstores <|
      .cons hlast <| .nil _
  · exact KeyMap.get?_insert_of_ne (by decide)

end Sharing

end BucketTransfer.Secrets
