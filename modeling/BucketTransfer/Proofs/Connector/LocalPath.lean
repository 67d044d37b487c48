import BucketTransfer.Proofs.Connector.Targets
import BucketTransfer.Proofs.Files.Path

/-!
# Downloads stay below their directory

The local path of an object is made of the names in its key. It is found only if the key leads down
all the way, so that nothing is written and no directory made but below the one that is asked for.
-/
namespace BucketTransfer

namespace Connector
open Files.Path

variable {key path output : String} {texts : List String}

section LocalPath

private theorem descend_of_segments :
    descend (texts.filterMap Component.ofSegment) =
      if ".." ∈ texts then none else some (texts.filter fun s => s ≠ "" ∧ s ≠ ".") := by
  induction texts with
  | nil => rfl
  | cons text texts ih =>
    rw [List.filterMap_cons, Component.ofSegment]
    by_cases hidle : text = "" ∨ text = "."
    · have hup : ".." ≠ text := by rcases hidle with rfl | rfl <;> decide
      have hkept : ¬(text ≠ "" ∧ text ≠ ".") := by tauto
      rw [if_pos hidle, List.filter_cons_of_neg (by simpa using hkept)]
      simp only [ih, List.mem_cons, hup, false_or]
    · have hkept : text ≠ "" ∧ text ≠ "." := not_or.1 hidle
      rw [if_neg hidle]
      by_cases hup : text = ".."
      · simp [hup, descend]
      · rw [if_neg hup, List.filter_cons_of_pos (by simpa using hkept)]
        simp only [descend, ih, List.mem_cons, Ne.symm hup, false_or]
        split <;> rfl

/-- The way down that the components of a key lead, if they do. -/
private theorem descend_components :
    descend (components key) =
      if key.startsWith "/" ∨ ".." ∈ segments key then none else some (names key) := by
  cases hslash : key.startsWith "/" with
  | true =>
    obtain ⟨rest, hrest⟩ := exists_of_startsWith_slash hslash
    rw [hrest, descend, if_pos (.inl rfl)]
  | false =>
    rw [components_of_relative hslash]
    have hfront : descend ((if (segments key).head? = some "." then [.current] else []) ++
        (segments key).filterMap Component.ofSegment) =
        descend ((segments key).filterMap Component.ofSegment) := by
      split <;> rfl
    rw [hfront, descend_of_segments]
    simp [names]

/-- A key has a local path unless it starts at the root, leads up or names nothing; the path is made
of what the key names. -/
theorem localPath_eq (key : String) :
    localPath key =
      if key.startsWith "/" ∨ ".." ∈ segments key then .error (.unsafeKey key)
      else if names key = [] then .error (.emptyKey key)
      else .ok ("/".intercalate (names key)) := by
  rw [localPath, descend_components]
  by_cases hstray : key.startsWith "/" ∨ ".." ∈ segments key
  · rw [if_pos hstray, if_pos hstray]
  · rw [if_neg hstray, if_neg hstray]
    cases names key <;> rfl

theorem localPath_eq_ok_iff :
    localPath key = .ok path ↔
      key.startsWith "/" = false ∧ ".." ∉ segments key ∧ names key ≠ [] ∧
        path = "/".intercalate (names key) := by
  rw [localPath_eq]
  split_ifs with hstray hnames
  · constructor
    · simp
    · rintro ⟨hslash, hup, -⟩
      exact (hstray.elim (by simp [hslash]) hup).elim
  · constructor
    · simp
    · rintro ⟨-, -, hne, -⟩
      exact absurd hnames hne
  · obtain ⟨hslash, hup⟩ := not_or.1 hstray
    rw [Except.ok.injEq, eq_comm]
    exact ⟨fun hpath => ⟨Bool.not_eq_true _ ▸ hslash, hup, hnames, hpath⟩, fun h => h.2.2.2⟩

theorem isName_of_mem_names (hup : ".." ∉ segments key) : ∀ name ∈ names key, IsName name := by
  intro name h
  obtain ⟨hmem, hkept⟩ := List.mem_filter.1 h
  simp only [ne_eq, decide_eq_true_eq] at hkept
  exact ⟨slash_not_mem_of_mem_segments hmem, hkept.1, hkept.2, fun heq => hup (heq ▸ hmem)⟩

end LocalPath

section Questions
variable {settings : Settings}

/-- What may be done to files without leaving a directory: they are written below it, and the
directories on the way are made. -/
def StaysBelow (output : String) : World.Question → Prop
  | .file (.write path _) => ∃ down, down ≠ [] ∧ LeadsDown output path down
  | .file (.createDirectories path) => ∃ down, LeadsDown output path down
  | .file (.rename _ _) => False
  | _ => True

private theorem asks_listFrom {client : Client} {bucket keyPrefix : String}
    {stuck : String → ObjectStore.Error} {found : List (List ObjectStore.Summary)}
    {marker : Option String} (pages : Nat) :
    (ObjectStore.listFrom (client.listObjects bucket keyPrefix) stuck found marker pages).Asks
      (StaysBelow output) := by
  induction pages generalizing found marker with
  | zero => exact .unfinished
  | succ pages ih =>
    refine Dialogue.Asks.bind (.ask trivial fun _ => .done _) ?_
    rintro (_ | page)
    · exact .done _
    · dsimp only
      split
      · exact .done _
      · split
        · exact .done _
        · exact ih

private theorem asks_parts (pages : Nat) (target : Target) (objectName : Option String) :
    (parts settings pages target objectName).Asks (StaysBelow output) := by
  have hsource (a : DataAddress) : (Transfer.sourceFor a).Asks (StaysBelow output) := by
    refine (Transfer.asides_sourceFor a).mono fun q haside => ?_
    cases q with
    | file q => exact haside.elim
    | _ => trivial
  refine ((hsource _).describing _).bind fun source => Task.asks_attempt ?_
  refine Dialogue.Asks.bind (asks_listFrom pages) ?_
  rintro (_ | objects)
  · exact .done _
  · dsimp only
    split <;> exact .done _

private theorem asks_openStream (p : Transfer.Part) : p.openStream.Asks (StaysBelow output) := by
  rw [Transfer.Part.openStream]
  split
  · exact .done _
  all_goals
    refine Dialogue.Asks.bind (.ask trivial fun _ => .done _) ?_
    rintro (_ | _) <;> exact .done _

/-- What is done to download an object: the directory is made, the object is opened, and its content
is written. -/
theorem downloadPart_of_localPath {p : Transfer.Part} {above : String}
    (hlocal : localPath p.name = .ok path) (hparent : parent (join output path) = some above) :
    downloadPart output p = (do
      Task.attempt (Error.create above) (World.files (Files.createDirectories above))
      let stream ← Task.attempt .transfer p.openStream
      writeStream p.name (join output path) stream
      return join output path) := by
  have hfound (f : String → Task Error String) :
      ExceptT.mk (pure (Except.ok path)) >>= f = f path := rfl
  rw [downloadPart, hlocal, hfound]
  dsimp only
  rw [hparent]

private theorem asks_downloadPart (p : Transfer.Part) :
    (downloadPart output p).Asks (StaysBelow output) := by
  cases hlocal : localPath p.name with
  | error e =>
    rw [downloadPart, hlocal]
    exact fun kept => .done _
  | ok path =>
    obtain ⟨-, hup, hne, rfl⟩ := localPath_eq_ok_iff.1 hlocal
    have hnames := isName_of_mem_names hup
    obtain ⟨above, hparent, habove⟩ := exists_parent_join output hne hnames
    rw [downloadPart_of_localPath hlocal hparent]
    refine (Task.asks_attempt (.ask ⟨_, habove⟩ fun _ => .done _)).bind fun _ => ?_
    refine (Task.asks_attempt (asks_openStream p)).bind fun stream => ?_
    refine Task.Asks.bind ?_ fun _ => Task.asks_settled _
    refine (Task.asks_attempt (.ask ⟨_, hne, leadsDown_join output hne hnames⟩
      fun _ => .done _)).bind fun _ => ?_
    split <;> exact Task.asks_settled _

private theorem asks_download (pages : Nat) (target : Target) (objectName : Option String) :
    (download settings pages target objectName output).Asks (StaysBelow output) := by
  refine (asks_parts pages target objectName).bind fun found => ?_
  induction found with
  | nil => exact Task.asks_settled _
  | cons p rest ih =>
    exact (asks_downloadPart p).bind fun path => ih.bind fun _ => Task.asks_settled _

/-- A key has a local path exactly if it does not start at the root, does not lead up and names
something. The path is made of what the key names, so that it leads down from every directory, and
a download asks for nothing to be written or made but what is below the directory it is given. -/
theorem download_stays_below (settings : Settings) (pages : Nat) (target : Target)
    (objectName : Option String) (key output : String) :
    (∀ path, localPath key = .ok path ↔
      key.startsWith "/" = false ∧ ".." ∉ segments key ∧
        (∃ segment ∈ segments key, segment ≠ "" ∧ segment ≠ ".") ∧
        path = "/".intercalate ((segments key).filter fun s => s ≠ "" ∧ s ≠ ".")) ∧
    (∀ path, localPath key = .ok path →
      segments path = names key ∧ names key ≠ [] ∧
        LeadsDown output (join output path) (names key)) ∧
    (download settings pages target objectName output).Asks (StaysBelow output) := by
  have hnames : names key ≠ [] ↔ ∃ segment ∈ segments key, segment ≠ "" ∧ segment ≠ "." := by
    simp [names, List.filter_eq_nil_iff]
  refine ⟨fun path => ?_, fun path hpath => ?_, asks_download pages target objectName⟩
  · rw [← hnames]
    exact localPath_eq_ok_iff
  · obtain ⟨-, hup, hne, rfl⟩ := localPath_eq_ok_iff.1 hpath
    have hdown := isName_of_mem_names hup
    exact ⟨segments_intercalate hne fun name hname => (hdown name hname).slash, hne,
      leadsDown_join output hne hdown⟩

/-- A key with a dot, a double slash and a slash at its end, below a directory with a slash at its
end. -/
theorem download_stays_below_of_slashes :
    localPath "./a//b/" = .ok "a/b" ∧ LeadsDown "out/" (join "out/" "a/b") ["a", "b"] := by
  have hpath : localPath "./a//b/" = .ok "a/b" := by decide
  have hnames : names "./a//b/" = ["a", "b"] := by decide
  have hbelow := (download_stays_below {} 1 ⟨"bucket", none, "", none⟩ none "./a//b/" "out/").2.1
  exact ⟨hpath, hnames ▸ (hbelow "a/b" hpath).2.2⟩

end Questions

end Connector

end BucketTransfer
