import BucketTransfer.Proofs.ObjectStore.Shared
import BucketTransfer.Proofs.Provision.Attempts
import BucketTransfer.Proofs.Services.InMemory
import BucketTransfer.Transfer.Source

/-!
# The two listings

All objects under a prefix are listed for a source, and all keys of a bucket that is to be taken
away; the latter tries each page again. Both can be relied on while others change the store, and
both name just what is there, page by page, if nobody does.
-/
namespace BucketTransfer
open Dialogue (Course)
open ObjectStore (Memory Page Summary)
open ObjectStore.Memory
open Rehearsal (play)
open Services (InMemory)

/-- A page that is fetched was answered. -/
private theorem mem_of_send {c : Client} {bucket keyPrefix : String} {marker : Option String}
    {page : Page} {said : List (Exchange World)}
    (h : Course (c.listObjects bucket keyPrefix marker) said (some (.ok page))) :
    c.exchange (.listObjects bucket keyPrefix marker) (.ok page) ∈ said := by
  obtain ⟨answer, rfl, heq⟩ := Dialogue.course_send.1 h
  rw [Option.some.inj heq]
  exact List.mem_singleton_self _

namespace Provision

variable {w mid : Rehearsal InMemory} {ε α : Type}

/-- A step that succeeds at once is not tried again. -/
theorem Retry.play_run_of_ok {r : Retry} {retryable : ε → Bool}
    {step : Dialogue World (Except ε α)} {a : α} (h : play step w = (some (.ok a), mid)) :
    play (r.run World.pause retryable step) w = (some (.ok a), mid) := by
  rw [Retry.run]
  cases r.attempts - 1 with
  | zero => exact h
  | succ left => exact Rehearsal.play_bind h rfl

namespace Provisioner
variable {p : Provisioner} {c : Client} {bucket : String}

theorem play_persist_of_ok {step : Step} {d : Dialogue World (Except ObjectStore.Error α)} {a : α}
    (h : play d w = (some (.ok a), mid)) :
    play (p.persist step bucket d) w = (some (.ok a), mid) :=
  Rehearsal.play_bind (Retry.play_run_of_ok h) rfl

/-- A page that is fetched was answered to the last attempt. -/
private theorem mem_of_persist {keyPrefix : String} {marker : Option String} {page : Page}
    {said : List (Exchange World)}
    (h : Course (p.persist .listObjects bucket (c.listObjects bucket keyPrefix marker)) said
      (some (.ok page))) :
    c.exchange (.listObjects bucket keyPrefix marker) (.ok page) ∈ said := by
  obtain ⟨failures, rfl, -⟩ := course_persist_ok h
  exact List.mem_append_right _ List.mem_cons_self

/-- Keys can be relied on although others change the store meanwhile. -/
theorem faithful_listKeys {m last : Memory} {pages : Nat} {said : List (Exchange World)}
    {seen : List Memory} {keys : List String} (hsize : 0 < m.pageSize)
    (h : Course (p.listKeys pages c bucket) said (some (.ok keys)))
    (hshared : m.Shared said seen last) : Faithful bucket "" seen keys := by
  rcases Dialogue.course_bind.1 h with ⟨first, rest, found, rfl, hlist, hend⟩ | ⟨-, heq⟩
  · obtain ⟨rfl, heq⟩ := Dialogue.course_pure.1 hend
    rw [List.append_nil] at hshared
    cases found with
    | error e => exact absurd heq (by simp [Except.map])
    | ok found =>
      rw [Except.ok.inj (Option.some.inj heq)]
      exact hshared.faithful_listAll (fun _ _ _ => mem_of_persist) hsize hlist
  · exact absurd heq (by simp)

end Provisioner

end Provision

namespace Services.InMemory

/-- A rehearsal in which some pages were asked for and nothing else, of a store without faults. -/
structure Listed (m : Memory) (bucket : String) (fetched : Nat) (w : Rehearsal InMemory) :
    Prop where
  unhindered : w.services.store.Unhindered .listObjects
  alike : m.Alike w.services.store
  calls : w.services.store.calls =
    List.replicate fetched { operation := .listObjects, bucket } ++ m.calls

variable {m : Memory} {bucket keyPrefix : String} {objects : KeyMap Bytes}

private theorem Listed.play_listObjects {fetched : Nat} {w : Rehearsal InMemory}
    (h : Listed m bucket fetched w) (c : Client) (hobjects : m.buckets.get? bucket = some objects)
    (keyPrefix : String) (marker : Option String) :
    ∃ mid, play (c.listObjects bucket keyPrefix marker) w =
        (some (.ok (page objects.entries m.pageSize keyPrefix marker)), mid) ∧
      Listed m bucket (fetched + 1) mid := by
  have hplay := play_send w c (.listObjects bucket keyPrefix marker)
  rw [← h.alike.buckets] at hobjects
  obtain ⟨hpage, halike⟩ := listObjects_of_unhindered h.unhindered hobjects
  rw [hpage, h.alike.pageSize] at hplay
  refine ⟨_, hplay, unhindered_answer h.unhindered _, h.alike.trans halike, ?_⟩
  rw [List.replicate_succ, List.cons_append, ← h.calls]
  exact calls_answer ..

/-- A listing whose pages come from a store that nobody else uses is exact. -/
private theorem Listed.play_listAll {ε : Type} {pages : Nat}
    {fetch : Option String → Dialogue World (Except ε Page)} {stuck : String → ε}
    (hfetch : ∀ marker fetched w, Listed m bucket fetched w →
      ∃ mid, play (fetch marker) w =
          (some (.ok (page objects.entries m.pageSize keyPrefix marker)), mid) ∧
        Listed m bucket (fetched + 1) mid)
    (hsize : 0 < m.pageSize)
    (hpages : pagesFor (under keyPrefix objects.entries).length m.pageSize ≤ pages)
    {w : Rehearsal InMemory} (hw : Listed m bucket 0 w) :
    ∃ last, play (ObjectStore.listAll pages fetch stuck) w =
        (some (.ok ((under keyPrefix objects.entries).map summary)), last) ∧
      Listed m bucket (pagesFor (under keyPrefix objects.entries).length m.pageSize) last := by
  rw [← after_none (under keyPrefix objects.entries)] at hpages ⊢
  rw [← Nat.zero_add (pagesFor ..)]
  exact play_listFrom hsize objects.ordered hfetch [] hpages 0 hw

/-- All keys are listed if the pages come from a store that nobody else uses. -/
theorem Listed.play_listKeys {pages : Nat} {w : Rehearsal InMemory}
    (hw : Listed m bucket 0 w) (p : Provision.Provisioner) (c : Client)
    (hobjects : m.buckets.get? bucket = some objects) (hsize : 0 < m.pageSize)
    (hpages : pagesFor objects.size m.pageSize ≤ pages) :
    ∃ last, play (p.listKeys pages c bucket) w = (some (.ok objects.keys), last) ∧
      Listed m bucket (pagesFor objects.size m.pageSize) last := by
  have hfetch : ∀ marker fetched w, Listed m bucket fetched w →
      ∃ mid, play (p.persist .listObjects bucket (c.listObjects bucket "" marker)) w =
          (some (.ok (page objects.entries m.pageSize "" marker)), mid) ∧
        Listed m bucket (fetched + 1) mid := by
    intro marker fetched w hw
    obtain ⟨mid, hpage, hmid⟩ := hw.play_listObjects c hobjects "" marker
    exact ⟨mid, Provision.Provisioner.play_persist_of_ok hpage, hmid⟩
  have hall : under "" objects.entries = objects.entries := by simp [under]
  have hcount : (under "" objects.entries).length = objects.size := by rw [hall]; rfl
  rw [← hcount] at hpages ⊢
  obtain ⟨last, hplay, hlast⟩ := Listed.play_listAll hfetch hsize hpages hw
  refine ⟨last, Rehearsal.play_bind hplay ?_, hlast⟩
  have hkeys : ((under "" objects.entries).map summary).map (·.key) = objects.keys := by
    rw [hall, List.map_map]
    rfl
  rw [Except.map, hkeys]
  rfl

end Services.InMemory

open Services.InMemory in
/-- Listings can be relied on while others change the store, and are exact if nobody does. -/
theorem ObjectStore.Memory.faithful_listings (m : Memory) (hsize : 0 < m.pageSize) (c : Client)
    (bucket : String) (pages : Nat) :
    (∀ keyPrefix said found seen last,
      Course (Transfer.listObjects pages c bucket keyPrefix) said (some (.ok found)) →
        m.Shared said seen last → Faithful bucket keyPrefix seen (found.map (·.key))) ∧
    (∀ (p : Provision.Provisioner) said keys seen last,
      Course (p.listKeys pages c bucket) said (some (.ok keys)) →
        m.Shared said seen last → Faithful bucket "" seen keys) ∧
    ∀ objects, m.buckets.get? bucket = some objects → m.Unhindered .listObjects →
      ∀ w : Rehearsal InMemory, w.services.store = m →
        (∀ keyPrefix,
          let listed := under keyPrefix objects.entries
          pagesFor listed.length m.pageSize ≤ pages →
            ∃ last, play (Transfer.listObjects pages c bucket keyPrefix) w =
                (some (.ok (listed.map summary)), last) ∧
              last.services.store.calls = List.replicate (pagesFor listed.length m.pageSize)
                { operation := .listObjects, bucket } ++ m.calls) ∧
        (∀ p : Provision.Provisioner, pagesFor objects.size m.pageSize ≤ pages →
          ∃ last, play (p.listKeys pages c bucket) w = (some (.ok objects.keys), last) ∧
            last.services.store.calls = List.replicate (pagesFor objects.size m.pageSize)
              { operation := .listObjects, bucket } ++ m.calls) := by
  refine ⟨?_, ?_, ?_⟩
  · intro keyPrefix said found seen last hcourse hshared
    exact hshared.faithful_listAll (fun _ _ _ => mem_of_send) hsize hcourse
  · intro p said keys seen last hcourse hshared
    exact Provision.Provisioner.faithful_listKeys hsize hcourse hshared
  · rintro objects hobjects hfaults w rfl
    have hw : Listed w.services.store bucket 0 w := ⟨hfaults, .refl _, rfl⟩
    constructor
    · intro keyPrefix listed hpages
      obtain ⟨last, hplay, hlast⟩ := Listed.play_listAll
        (fun marker _ _ h => h.play_listObjects c hobjects keyPrefix marker) hsize hpages hw
      exact ⟨last, hplay, hlast.calls⟩
    · intro p hpages
      obtain ⟨last, hplay, hlast⟩ := hw.play_listKeys p c hobjects hsize hpages
      exact ⟨last, hplay, hlast.calls⟩

/-- The object under the marker is gone and another one has come before the second page is asked
for. -/
theorem ObjectStore.Memory.faithful_listings_of_marker_deleted :
    let m := (Memory.withPages "memory://obs" 1).seed "b" [("", [1]), ("a", [2])]
    let c : Client := ⟨0, "memory://obs"⟩
    let send (r : Request) (n : Memory) : Memory := (n.answer r).2
    let second := send (.putObject "b" "c" [3]) (send (.deleteObject "b" "")
      (send (.listObjects "b" "" none) m))
    let third := send (.listObjects "b" "" (some "")) second
    ∃ said last found, Course (Transfer.listObjects 3 c "b" "") said (some (.ok found)) ∧
      m.Shared said [m, second, third] last ∧ found.map (·.key) = ["", "a", "c"] ∧
      (∀ n ∈ [m, second, third], (n.object? "b" "a").isSome) ∧
      Faithful "b" "" [m, second, third] (found.map (·.key)) := by
  intro m c send second third
  let entry (key : String) (n : UInt8) : Summary :=
    { key, size := 1, etag := some (ObjectStore.plainEtag [n]) }
  have hpage (n : Memory) (marker : Option String) (found : Page)
      (h : (n.answer (.listObjects "b" "" marker)).1.toOption = (some found : Option Page)) :
      n.answer (.listObjects "b" "" marker) = (.ok found, send (.listObjects "b" "" marker) n) := by
    refine Prod.ext ?_ rfl
    cases hanswer : (n.answer (.listObjects "b" "" marker)).1 with
    | error e =>
      rw [hanswer] at h
      exact absurd h (by simp [Except.toOption])
    | ok page =>
      rw [hanswer] at h
      exact congrArg _ (Option.some.inj h)
  have hfirst := hpage m none ⟨[entry "" 1], true, none⟩ (by decide +kernel)
  have hsecond := hpage second (some "") ⟨[entry "a" 2], true, none⟩ (by decide +kernel)
  have hthird := hpage third (some "a") ⟨[entry "c" 3], false, none⟩ (by decide +kernel)
  have hshared := Shared.exchange c hfirst (.meanwhile (.deleteObject "b" "")
    (.meanwhile (.putObject "b" "c" [3]) (.exchange c hsecond (.exchange c hthird (.done _)))))
  have hcourse : Course (Transfer.listObjects 3 c "b" "") _
      (some (.ok [entry "" 1, entry "a" 2, entry "c" 3])) :=
    Dialogue.course_send_bind.2 ⟨.ok ⟨[entry "" 1], true, none⟩, _, rfl,
      Dialogue.course_send_bind.2 ⟨.ok ⟨[entry "a" 2], true, none⟩, _, rfl,
      Dialogue.course_send_bind.2 ⟨.ok ⟨[entry "c" 3], false, none⟩, _, rfl, .done _⟩⟩⟩
  obtain ⟨hlistings, -, -⟩ := faithful_listings m (by decide) c "b" 3
  exact ⟨_, _, _, hcourse, hshared, rfl, by decide +kernel, hlistings "" _ _ _ _ hcourse hshared⟩

end BucketTransfer
