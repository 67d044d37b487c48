import BucketTransfer.CommandLine.Program
import BucketTransfer.Proofs.Bucket.Resource
import BucketTransfer.Proofs.Dialogue.Task

/-!
# What commands leave for others

A provided bucket is written to a file by the command that provides it, and the command that takes
it away goes on with the same bucket if it finds what was written.
-/
namespace BucketTransfer.CommandLine
open Bucket (Provisioned)
open BucketTransfer.Task (Runs)

variable {settings : Settings} {pages : Nat} {path bucket transferProcessId output : String}
  {endpoint keyPrefix : Option String} {kept kept' : Clients} {said : List (Exchange World)}

/-- Takes a provided bucket away and tells what was removed. -/
def takeAway (settings : Settings) (pages : Nat) (p : Provisioned) : Task Error String := do
  let removed ← (Connector.deprovision settings pages p).describing .connector
  return jsonLines removed.toJson

/-- A command that provides a bucket and writes it to a file ends with that. -/
theorem runs_provision :
    Runs ((Command.provision bucket endpoint keyPrefix transferProcessId (some path)).perform
        settings pages) kept said (some (.ok output, kept')) ↔
      output = "" ∧ ∃ p front,
        Runs (Connector.provision settings bucket endpoint keyPrefix transferProcessId) kept front
          (some (.ok p, kept')) ∧
        said = front ++ [⟨.file (.write path (utf8 p.toJson.pretty)), .ok ()⟩] := by
  rw [Command.perform, Task.runs_bind]
  simp only [Task.runs_describing_ok]
  constructor
  · rintro (⟨front, last, p, mid, rfl, hfront, hlast⟩ | ⟨_, _, -, heq⟩ | ⟨-, heq⟩)
    · obtain ⟨answer, rest, rfl, hrest⟩ := Dialogue.course_question_bind.1 hlast
      cases answer with
      | error fault => exact absurd (Dialogue.course_pure.1 hrest).2 (by simp)
      | ok value =>
        obtain ⟨rfl, heq⟩ := Dialogue.course_pure.1 hrest
        cases heq
        exact ⟨rfl, p, front, hfront, rfl⟩
    · exact absurd heq (by simp)
    · exact absurd heq (by simp)
  · rintro ⟨rfl, p, front, hfront, rfl⟩
    refine .inl ⟨front, _, p, kept', rfl, hfront, ?_⟩
    exact Dialogue.course_question_bind.2 ⟨.ok (), [], rfl, Dialogue.course_pure.2 ⟨rfl, rfl⟩⟩

/-- The provided bucket that a file describes. -/
def described (path : String) : Except Files.Fault ByteStream → Except Error Provisioned
  | .error fault => .error (.readFile path fault.message)
  | .ok stream =>
    match stream.content with
    | .error cause => .error (.readFile path cause)
    | .ok content => (Provisioned.reader.complete content).mapError (.resourceFile path)

/-- A command that takes a bucket away goes on with the one that its file describes. -/
theorem runs_deprovision {answer : Except Files.Fault ByteStream}
    {result : Option (Except Error String × Clients)} :
    Runs ((Command.deprovision path).perform settings pages) kept
        (⟨.file (.read path), answer⟩ :: said) result ↔
      Runs (ExceptT.mk (pure (described path answer)) >>= takeAway settings pages) kept said
        result := by
  have hrun : ((Command.deprovision path).perform settings pages).run kept =
      (World.files (Files.read path) >>= fun answer =>
        (ExceptT.mk (pure (described path answer)) >>= takeAway settings pages).run kept) := by
    refine congrArg (Dialogue.ask (I := World) (.file (.read path))) (funext fun answer => ?_)
    cases answer with
    | error fault => rfl
    | ok stream =>
      simp only [described, Dialogue.bind, Dialogue.relay]
      cases stream.content with
      | error cause => rfl
      | ok content =>
        have hdone : ∀ {α β : Type} (a : α) (f : α → Dialogue World β),
          (pure a : Dialogue World α).bind f = f a := fun _ _ => rfl
        simp only [Except.mapError, hdone, ExceptT.bindCont]
        cases Provisioned.reader.complete content with
        | error fault => rfl
        | ok p => rfl
  rw [Runs, hrun]
  refine Dialogue.course_question_bind.trans ⟨?_, fun h => ⟨answer, said, rfl, h⟩⟩
  rintro ⟨_, _, ⟨⟩, h⟩
  exact h

/-- The credential for a bucket is read back from the text of it, whatever characters it has and
whatever time of 64 bits. So is a provided bucket, indented or not: the command that provides it
ends by writing it to its file, and the command that finds this in its file takes just this bucket
away. -/
theorem records_read_back (settings : Settings) (pages : Nat) (path : String) :
    (∀ (accessKey secretKey securityToken : String) (expiresAt : Int64),
      let c : TemporaryCredential := ⟨accessKey, secretKey, securityToken, expiresAt.toInt⟩
      TemporaryCredential.ofText c.toJson.text = .ok c) ∧
    (∀ p : Provisioned, Provisioned.reader.complete (utf8 p.toJson.text) = .ok p ∧
      Provisioned.reader.complete (utf8 p.toJson.pretty) = .ok p) ∧
    (∀ bucket endpoint keyPrefix transferProcessId kept said output kept',
      Runs ((Command.provision bucket endpoint keyPrefix transferProcessId (some path)).perform
          settings pages) kept said (some (.ok output, kept')) ↔
        output = "" ∧ ∃ p front,
          Runs (Connector.provision settings bucket endpoint keyPrefix transferProcessId) kept front
            (some (.ok p, kept')) ∧
          said = front ++ [⟨.file (.write path (utf8 p.toJson.pretty)), .ok ()⟩]) ∧
    ∀ (p : Provisioned) (stream : ByteStream),
      stream.content = .ok (utf8 p.toJson.pretty) → ∀ kept said result,
        Runs ((Command.deprovision path).perform settings pages) kept
            (⟨.file (.read path), .ok stream⟩ :: said) result ↔
          Runs (takeAway settings pages p) kept said result := by
  refine ⟨fun accessKey secretKey securityToken expiresAt => ?_, fun p => ?_, fun _ _ _ _ _ _ _ _ =>
    runs_provision, fun p stream hcontent kept said result => ?_⟩
  · have hleast := expiresAt.le_toInt
    have hgreatest := expiresAt.toInt_lt
    exact TemporaryCredential.ofText_text _ hleast (Int.le_of_lt_add_one hgreatest)
  · exact ⟨p.complete_write .compact, p.complete_write (.indented 0)⟩
  · have hread : Provisioned.reader.complete (utf8 p.toJson.pretty) = .ok p :=
      p.complete_write (.indented 0)
    have hdescribed : described path (.ok stream) = .ok p := by
      simp only [described, hcontent, hread, Except.mapError]
    rw [runs_deprovision, hdescribed]
    rfl

/-- Quotes, backslashes, control characters and characters beyond the first plane come through, and
so does the earliest time. -/
theorem records_read_back_of_marks :
    let c : TemporaryCredential := ⟨"\"", "\\", "\u0001\n", Int64.minValue.toInt⟩
    let p : Provisioned :=
      ⟨⟨"\u0001", "\"", "\\", "😀", ""⟩, "\n", ⟨KeyMap.insert ∅ "\"😀" "\t"⟩⟩
    let stream := ByteStream.ofBytes (utf8 p.toJson.pretty)
    TemporaryCredential.ofText c.toJson.text = .ok c ∧
      stream.content = .ok (utf8 p.toJson.pretty) ∧ ∀ kept said result,
        Runs ((Command.deprovision "f").perform (.ofEnvironment fun _ => none) 1) kept
            (⟨.file (.read "f"), .ok stream⟩ :: said) result ↔
          Runs (takeAway (.ofEnvironment fun _ => none) 1 p) kept said result := by
  intro c p stream
  have hcontent : stream.content = .ok (utf8 p.toJson.pretty) := by
    simp [stream, ByteStream.ofBytes, ByteStream.content]
  obtain ⟨hcredential, -, -, hdeprovision⟩ :=
    records_read_back (.ofEnvironment fun _ => none) 1 "f"
  exact ⟨hcredential _ _ _ _, hcontent, hdeprovision p stream hcontent⟩

end BucketTransfer.CommandLine
