import BucketTransfer.Proofs.ObjectStore.Following
import BucketTransfer.Proofs.Provision.Attempts
import BucketTransfer.Transfer.Source

/-!
# The end of the two listings

What a listing of objects or of keys has read when it comes to an end, and when it does. It trusts
the markers that it is given: a page that announces more without a marker ends it, and markers that
go round are followed for ever.
-/
namespace BucketTransfer
open Dialogue (Course)
open ObjectStore

/-- The page in an answer, and the marker that it was asked for with. -/
def Exchange.listed? : Exchange World → Option (Option String × Page)
  | ⟨.request _ (.listObjects _ _ marker), .ok page⟩ => some (marker, page)
  | _ => none

namespace ObjectStore

/-- A page for each marker is answered at any time. -/
def Serves (serve : Option String → Page) (c : Client) (bucket keyPrefix : String)
    (answer : List (Exchange World) → (q : World.Question) → q.Answer) : Prop :=
  ∀ past marker, answer past (.request c (.listObjects bucket keyPrefix marker)) =
    .ok (serve marker)

end ObjectStore

variable {c : Client} {bucket keyPrefix : String} {marker : Option String}
  {said : List (Exchange World)} {serve : Option String → Page}
  {answer : List (Exchange World) → (q : World.Question) → q.Answer}

private theorem listed_of_send {page : Page}
    (h : Course (c.listObjects bucket keyPrefix marker) said (some (.ok page))) :
    said.filterMap Exchange.listed? = [(marker, page)] := by
  obtain ⟨reply, rfl, heq⟩ := Dialogue.course_send.1 h
  obtain rfl := Option.some.inj heq
  rfl

private theorem converse_send (hserve : Serves serve c bucket keyPrefix answer)
    (marker : Option String) (past : List (Exchange World)) :
    (c.listObjects bucket keyPrefix marker).converse answer past =
      ([c.exchange (.listObjects bucket keyPrefix marker) (.ok (serve marker))],
        some (.ok (serve marker))) := by
  rw [← hserve past marker]
  rfl

namespace Provision

/-- A step that succeeds at once is made once. -/
theorem Retry.converse_run {ε α : Type} {r : Retry} {retryable : ε → Bool}
    {step : Dialogue World (Except ε α)} {past : List (Exchange World)} {a : α}
    (h : step.converse answer past = (said, some (.ok a))) :
    (r.run World.pause retryable step).converse answer past = (said, some (.ok a)) := by
  rw [Retry.run]
  cases r.attempts - 1 with
  | zero => exact h
  | succ left => exact (Dialogue.converse_bind h).trans (Prod.ext (List.append_nil said) rfl)

namespace Provisioner
variable {p : Provisioner}

private theorem listed_of_persist {page : Page}
    (h : Course (p.persist .listObjects bucket (c.listObjects bucket keyPrefix marker)) said
      (some (.ok page))) : said.filterMap Exchange.listed? = [(marker, page)] := by
  obtain ⟨failures, rfl, -⟩ := course_persist_ok h
  have hfailed : (p.retry.failed 0 (failures.map fun e =>
      [c.exchange (.listObjects bucket keyPrefix marker) (.error e)])).filterMap
        Exchange.listed? = [] := by
    refine List.filterMap_eq_nil_iff.2 fun e he => ?_
    rcases @Retry.mem_failed _ _ _ (c.exchange _) _ _ _ he with ⟨time, rfl⟩ | ⟨cause, -, rfl⟩
    · rfl
    · rfl
  rw [Trial.said, List.filterMap_append, hfailed]
  rfl

private theorem converse_persist (hserve : Serves serve c bucket keyPrefix answer)
    (marker : Option String) (past : List (Exchange World)) :
    (p.persist .listObjects bucket (c.listObjects bucket keyPrefix marker)).converse answer past =
      ([c.exchange (.listObjects bucket keyPrefix marker) (.ok (serve marker))],
        some (.ok (serve marker))) :=
  Dialogue.converse_bind (Retry.converse_run (converse_send hserve marker past))

/-- Keys are the keys of objects on pages that were all read. -/
private theorem readThrough_listKeys {pages : Nat} {keys : List String}
    (h : Course (p.listKeys pages c bucket) said (some (.ok keys))) :
    ∃ objects, keys = objects.map (·.key) ∧
      ReadThrough none (said.filterMap Exchange.listed?) objects := by
  rcases Dialogue.course_bind.1 h with ⟨first, rest, found, rfl, hlist, hend⟩ | ⟨-, heq⟩
  · obtain ⟨rfl, heq⟩ := Dialogue.course_pure.1 hend
    cases found with
    | error e => exact absurd heq (by simp [Except.map])
    | ok objects =>
      rw [List.append_nil]
      exact ⟨objects, Except.ok.inj (Option.some.inj heq),
        (course_listAll hlist).readThrough fun _ _ _ => listed_of_persist⟩
  · exact absurd heq (by simp)

/-- What a listing of keys comes to is what its pages come to. -/
private theorem converse_listKeys {limit : Nat} {result : Option (Except Error (List Summary))}
    (h : (listAll limit
        (fun marker => p.persist .listObjects bucket (c.listObjects bucket "" marker))
        fun marker => Error.store .listObjects bucket
          (.invalidResponse s!"listing did not advance past {marker}")).converse answer [] =
      (said, result)) :
    (p.listKeys limit c bucket).converse answer [] =
      (said, result.map (·.map (·.map (·.key)))) := by
  cases result with
  | none => exact Dialogue.converse_bind_of_cut h
  | some found => exact (Dialogue.converse_bind h).trans (Prod.ext (List.append_nil said) rfl)

end Provisioner

end Provision

open Provision (Provisioner)

/-- A listing that succeeds has read each page that was announced, up to one that is the last or
that announces more without saying where it starts. -/
theorem ObjectStore.readThrough_of_listings (pages : Nat) (c : Client) (bucket : String) :
    (∀ keyPrefix said objects,
      Course (Transfer.listObjects pages c bucket keyPrefix) said (some (.ok objects)) →
        ReadThrough none (said.filterMap Exchange.listed?) objects) ∧
    ∀ (p : Provisioner) said keys,
      Course (p.listKeys pages c bucket) said (some (.ok keys)) →
        ∃ objects, keys = objects.map (·.key) ∧
          ReadThrough none (said.filterMap Exchange.listed?) objects := by
  constructor
  · intro keyPrefix said objects h
    exact (course_listAll h).readThrough fun _ _ _ => listed_of_send
  · intro p said keys h
    exact Provision.Provisioner.readThrough_listKeys h

/-- The second page is the last one, and it is asked for twice where it is tried again. -/
theorem ObjectStore.readThrough_of_two_pages :
    let c : Client := ⟨0, "memory://obs"⟩
    let p : Provisioner := ⟨.every 2 10, 900, true⟩
    let list := fun marker => c.exchange (.listObjects "b" "" marker)
    let first : Page := ⟨[{ key := "a" }], true, none⟩
    let second : Page := ⟨[{ key := "b" }], false, none⟩
    let said := [list none (.ok first), list (some "a") (.ok second)]
    let retried := [list none (.ok first), list (some "a") (.error (.transport "lost")),
      ⟨.pause 10, ()⟩, list (some "a") (.ok second)]
    (∃ found, Course (Transfer.listObjects 2 c "b" "") said (some (.ok found)) ∧
      ReadThrough none (said.filterMap Exchange.listed?) found) ∧
    Course (p.listKeys 2 c "b") retried (some (.ok ["a", "b"])) ∧
      ∃ objects, ["a", "b"] = objects.map (·.key) ∧
        ReadThrough none (retried.filterMap Exchange.listed?) objects := by
  intro c p list first second said retried
  have hfound : Course (Transfer.listObjects 2 c "b" "") said
      (some (.ok (first.objects ++ second.objects))) :=
    .ask _ <| .ask _ <| .done _
  have hkeys : Course (p.listKeys 2 c "b") retried (some (.ok ["a", "b"])) :=
    .ask _ <| .ask _ <| .ask _ <| .ask _ <| .done _
  obtain ⟨hobjects, hlisted⟩ := readThrough_of_listings 2 c "b"
  exact ⟨⟨_, hfound, hobjects "" _ _ hfound⟩, hkeys, hlisted p _ _ hkeys⟩

/-- A page that announces more without saying where it starts ends a listing with success. -/
theorem ObjectStore.not_last_of_silent_page :
    let c : Client := ⟨0, "memory://obs"⟩
    let p : Provisioner := ⟨.never, 900, true⟩
    let list := fun marker => c.exchange (.listObjects "b" "" marker)
    let silent : Page := ⟨[], true, none⟩
    let said := [list none (.ok ⟨[{ key := "a" }], true, none⟩), list (some "a") (.ok silent)]
    Course (Transfer.listObjects 2 c "b" "") said (some (.ok [{ key := "a" }])) ∧
      Course (p.listKeys 2 c "b") said (some (.ok ["a"])) ∧
      (said.filterMap Exchange.listed?).getLast? = some (some "a", silent) ∧
        silent.truncated = true := by
  intro c p list silent said
  have hfound : Course (Transfer.listObjects 2 c "b" "") said (some (.ok [{ key := "a" }])) :=
    .ask _ <| .ask _ <| .done _
  have hkeys : Course (p.listKeys 2 c "b") said (some (.ok ["a"])) :=
    .ask _ <| .ask _ <| .done _
  exact ⟨hfound, hkeys, rfl, rfl⟩

/-- A listing whose pages are settled by their markers, of which there are only so many, has an end
unless the markers go round; it comes to that after no more pages than there are markers and one.
Markers that go round are followed on as many pages as may be asked for. -/
theorem ObjectStore.listings_end_unless_round {serve : Option String → Page} {marks : List String}
    (hmarks : ∀ marker next, (serve marker).continuation = some next → next ∈ marks)
    (p : Provisioner) (c : Client) (bucket : String) :
    (¬GoesRound serve none ↔
      ∃ pages stop, Followed serve none pages stop ∧ pages.length ≤ marks.length + 1) ∧
    (∀ pages stop, Followed serve none pages stop → ∀ limit, pages.length ≤ limit →
      (∀ keyPrefix answer, Serves serve c bucket keyPrefix answer →
        ∃ said, said.length = pages.length ∧
          (Transfer.listObjects limit c bucket keyPrefix).converse answer [] =
            (said, some (outcome (fun marker => .invalidResponse
              s!"listing of {bucket} did not advance past marker {marker}") pages stop))) ∧
      ∀ answer, Serves serve c bucket "" answer →
        ∃ said, said.length = pages.length ∧
          (p.listKeys limit c bucket).converse answer [] =
            (said, some ((outcome (fun marker => .store .listObjects bucket (.invalidResponse
              s!"listing did not advance past {marker}")) pages stop).map (·.map (·.key))))) ∧
    (GoesRound serve none → ∀ limit,
      (∀ keyPrefix answer, Serves serve c bucket keyPrefix answer →
        ∃ said, said.length = limit ∧
          (Transfer.listObjects limit c bucket keyPrefix).converse answer [] = (said, none)) ∧
      ∀ answer, Serves serve c bucket "" answer →
        ∃ said, said.length = limit ∧
          (p.listKeys limit c bucket).converse answer [] = (said, none)) ∧
    ((∀ marker next, (serve (some marker)).continuation = some next → marker ≤ next) →
      ¬GoesRound serve none) := by
  refine ⟨⟨exists_followed hmarks, fun ⟨_, _, hpages, _⟩ => hpages.not_goesRound⟩, ?_, ?_,
    not_goesRound_of_le⟩
  · intro pages stop hpages limit hlimit
    constructor
    · intro keyPrefix answer hserve
      exact hpages.converse_listAll (converse_send hserve) hlimit []
    · intro answer hserve
      obtain ⟨said, hsaid, hlist⟩ :=
        hpages.converse_listAll (Provision.Provisioner.converse_persist hserve) hlimit []
      exact ⟨said, hsaid, Provision.Provisioner.converse_listKeys hlist⟩
  · intro hround limit
    constructor
    · intro keyPrefix answer hserve
      exact hround.converse_listAll (converse_send hserve) limit []
    · intro answer hserve
      obtain ⟨said, hlength, hlist⟩ :=
        hround.converse_listAll (Provision.Provisioner.converse_persist hserve) limit []
      exact ⟨said, hlength, Provision.Provisioner.converse_listKeys hlist⟩

/-- A page for each marker, and no other answers. -/
private def serving (serve : Option String → Page) (_ : List (Exchange World)) :
    (q : World.Question) → q.Answer
  | .request _ (.listObjects _ _ marker) => .ok (serve marker)
  | q => Transfer.noAnswer q

/-- The second page leads back, and the third one nowhere. -/
theorem ObjectStore.listings_end_of_leading_back :
    let c : Client := ⟨0, "memory://obs"⟩
    let p : Provisioner := ⟨.every 2 10, 900, true⟩
    let serve : Option String → Page := fun marker =>
      if marker = some "b" then ⟨[{ key := "c" }], true, some "a"⟩
      else if marker = some "a" then ⟨[], true, some "a"⟩
      else ⟨[{ key := "b" }], true, none⟩
    ∃ said said', said.length = 3 ∧ said'.length = 3 ∧
      (Transfer.listObjects 5 c "b" "").converse (serving serve) [] =
        (said, some (.error (.invalidResponse "listing of b did not advance past marker a"))) ∧
      (p.listKeys 5 c "b").converse (serving serve) [] =
        (said', some (.error (.store .listObjects "b"
          (.invalidResponse "listing did not advance past a")))) := by
  intro c p serve
  have hmarks : ∀ marker next, (serve marker).continuation = some next → next ∈ ["a", "b"] := by
    intro marker next h
    simp only [serve, apply_ite Page.continuation] at h
    split_ifs at h <;> cases h <;> decide
  have hfollowed : Followed serve none _ (some "a") :=
    .next none "b" rfl (by decide) _ _ <| .next (some "b") "a" rfl (by decide) _ _ <| .stuck "a" rfl
  obtain ⟨-, hends, -, -⟩ := listings_end_unless_round hmarks p c "b"
  obtain ⟨hobjects, hkeys⟩ := hends _ _ hfollowed 5 (by decide)
  obtain ⟨said, hsaid, hlist⟩ := hobjects "" (serving serve) fun _ _ => rfl
  obtain ⟨said', hsaid', hlist'⟩ := hkeys (serving serve) fun _ _ => rfl
  exact ⟨said, said', hsaid, hsaid', hlist, hlist'⟩

/-- Two markers lead to each other, and the listings have no end. -/
theorem ObjectStore.not_listings_end_of_two_markers :
    let c : Client := ⟨0, "memory://obs"⟩
    let p : Provisioner := ⟨.never, 900, true⟩
    let serve : Option String → Page := fun marker =>
      if marker = some "b" then ⟨[{ key := "c" }], true, some "a"⟩
      else ⟨[{ key := "b" }], true, some "b"⟩
    (∀ marker next, (serve marker).continuation = some next → next ∈ ["a", "b"]) ∧
      (∀ past marker, serving serve past (.request c (.listObjects "b" "" marker)) =
        .ok (serve marker)) ∧
      ∀ limit, ((Transfer.listObjects limit c "b" "").converse (serving serve) []).2 = none ∧
        ((p.listKeys limit c "b").converse (serving serve) []).2 = none := by
  intro c p serve
  have hround : GoesRound serve none :=
    ⟨some "b", .single (.page none "b" rfl (by decide)),
      .tail (.single (.page (some "b") "a" rfl (by decide))) (.page (some "a") "b" rfl (by decide))⟩
  have hserve : Serves serve c "b" "" (serving serve) := fun _ _ => rfl
  refine ⟨?_, fun _ _ => rfl, fun limit => ⟨?_, ?_⟩⟩
  · intro marker next h
    simp only [serve, apply_ite Page.continuation] at h
    split_ifs at h <;> cases h <;> decide
  · obtain ⟨said, -, hlist⟩ := hround.converse_listAll (converse_send hserve) limit []
    exact congrArg Prod.snd hlist
  · obtain ⟨said, -, hlist⟩ :=
      hround.converse_listAll (Provision.Provisioner.converse_persist hserve) limit []
    exact congrArg Prod.snd (Provision.Provisioner.converse_listKeys hlist)

end BucketTransfer
