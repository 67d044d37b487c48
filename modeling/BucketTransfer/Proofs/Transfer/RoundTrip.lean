import BucketTransfer.Proofs.ObjectStore.Pages
import BucketTransfer.Proofs.Transfer.Success
import BucketTransfer.Transfer.Source

/-!
# Through a sink and back through a source

What is put into a bucket under a prefix is found there again, with all else that is under the
prefix, in key order and with its content.
-/
namespace BucketTransfer.Transfer
open ObjectStore (Memory)
open ObjectStore.Memory
open Rehearsal (play)
open Services (Scripted)
open Services.Scripted

/-- A rehearsal whose first store has no faults and holds what another store does. -/
structure Still (m : Memory) (w : Rehearsal Scripted) : Prop where
  stores_ne_nil : w.services.stores ≠ []
  unhindered : ∀ operation, (store w).Unhindered operation
  alike : m.Alike (store w)

/-- A part that is opened to some content. -/
def Part.Streams (p : Part) (w : Rehearsal Scripted) (body : Bytes) : Prop :=
  ∃ stream last, play p.openStream w = (some (.ok stream), last) ∧ stream.failure = none ∧
    stream.bytes = body

/-- The parts of a source that stand for all objects under a prefix. -/
structure Source.Complete (s : Source) (w : Rehearsal Scripted) (found : List Part) : Prop where
  increasing : (found.map (·.name)).Pairwise (· < ·)
  mem_iff : ∀ key, key ∈ found.map (·.name) ↔
    key.startsWith s.keyPrefix ∧ ((store w).object? s.bucket key).isSome
  streams : ∀ p ∈ found, ∃ body, (store w).object? s.bucket p.name = some body ∧
    p.size = body.length ∧ p.Streams w body

variable {w last : Rehearsal Scripted} {m : Memory} {c : Client} {bucket keyPrefix : String}
  {objects : KeyMap Bytes}

theorem Still.play_listObjects (h : Still m w) (hc : Full c)
    (hobjects : m.buckets.get? bucket = some objects) (keyPrefix : String)
    (marker : Option String) :
    ∃ mid, play (c.listObjects bucket keyPrefix marker) w =
        (some (.ok (page objects.entries m.pageSize keyPrefix marker)), mid) ∧ Still m mid := by
  obtain ⟨mid, hplay, hstores, hmid⟩ :=
    play_send_of_full h.stores_ne_nil hc (.listObjects bucket keyPrefix marker)
  rw [← h.alike.buckets] at hobjects
  obtain ⟨hpage, halike⟩ := listObjects_of_unhindered (h.unhindered .listObjects) hobjects
  rw [hpage, h.alike.pageSize] at hplay
  refine ⟨mid, hplay, hstores, ?_, ?_⟩
  · rw [hmid]
    exact fun operation => unhindered_answer (h.unhindered operation) _
  · rw [hmid]
    exact h.alike.trans halike

theorem play_parts {pages : Nat} (h : Still m w) (hc : Full c)
    (hobjects : m.buckets.get? bucket = some objects) (hsize : 0 < m.pageSize)
    (hsome : under keyPrefix objects.entries ≠ []) (hpages : 0 < pages)
    (hfit : (under keyPrefix objects.entries).length ≤ pages * m.pageSize) :
    ∃ last, play (Source.parts pages ⟨c, bucket, keyPrefix, none⟩) w =
        (some (.ok ((under keyPrefix objects.entries).map fun o => .ofObject c bucket (summary o))),
          last) ∧ Still m last := by
  rw [← after_none (under keyPrefix objects.entries)] at hfit
  obtain ⟨last, hplay, hlast⟩ := play_listFrom (P := fun _ w => Still m w) hsize
    objects.ordered (fun marker _ w hw => hw.play_listObjects hc hobjects keyPrefix marker) []
    (pagesFor_le hpages hfit) 0 h
  refine ⟨last, Rehearsal.play_bind hplay ?_, hlast⟩
  obtain ⟨o, others, hunder⟩ := List.exists_cons_of_ne_nil hsome
  have hall : ((o :: others).map summary).filter (fun _ => true) = (o :: others).map summary :=
    List.filter_eq_self.2 fun _ _ => rfl
  simp only [after_none, hunder, List.reverse_nil, List.flatten_nil, List.nil_append,
    Option.all_none, hall]
  simp only [List.map_cons, List.map_map]
  rfl

/-- What a source finds under a prefix are all objects there. -/
theorem complete_of_still (keyPrefix : String) (h : Still m w) (hc : Full c)
    (hobjects : m.buckets.get? bucket = some objects) :
    Source.Complete ⟨c, bucket, keyPrefix, none⟩ w
      ((under keyPrefix objects.entries).map fun o => .ofObject c bucket (summary o)) := by
  have hheld : ∀ key, (store w).object? bucket key = objects.get? key := fun key => by
    rw [Memory.object?, h.alike.buckets, hobjects, Option.bind_some]
  constructor
  case increasing =>
    rw [List.map_map]
    exact List.pairwise_map.2 (objects.ordered.filter _)
  case mem_iff =>
    intro key
    rw [hheld, ← KeyMap.mem_keys, List.map_map, KeyMap.keys, List.mem_map, List.mem_map]
    constructor
    · rintro ⟨o, ho, rfl⟩
      obtain ⟨hmem, hstarts⟩ := List.mem_filter.1 ho
      exact ⟨hstarts, o, hmem, rfl⟩
    · rintro ⟨hstarts, o, hmem, rfl⟩
      exact ⟨o, List.mem_filter.2 ⟨hmem, hstarts⟩, rfl⟩
  case streams =>
    intro p hp
    obtain ⟨o, ho, rfl⟩ := List.mem_map.1 hp
    have hbody : (store w).object? bucket o.1 = some o.2 := by
      rw [hheld]
      exact KeyMap.mem_entries.1 (List.mem_filter.1 ho).1
    obtain ⟨mid, hplay⟩ := play_openStream_object (o := summary o) hc h.stores_ne_nil
      (h.unhindered _) hbody
    exact ⟨o.2, hbody, rfl, _, mid, hplay, rfl, List.append_nil o.2⟩

/-- Parts that were put into a bucket under a prefix are found there, with all that was there. -/
theorem transfer_then_parts {others : List Memory} {s : Sink} {moved : List (Part × Bytes)}
    (hstores : w.services.stores = m :: others) (hm : m.Reachable) (hfaults : m.faults = [])
    (hclient : Full s.client) (hbucket : (m.buckets.get? s.bucket).isSome) (hne : moved ≠ [])
    (hmoved : ∀ q ∈ moved, q.1.Available m s.bucket q.2 ∧
      q.2.length ≤ ObjectStore.maxPart * s.chunkSize) :
    ∃ summary mid, play (s.transfer (moved.map Prod.fst)) w = (some (.ok summary), mid) ∧
      s.Written m moved (store mid) ∧
      ∀ pages, 0 < pages → ((store mid).keys s.bucket).length ≤ pages * m.pageSize →
        ∃ found last,
          play (Source.parts pages ⟨s.client, s.bucket, s.keyPrefix, none⟩) mid =
            (some (.ok found), last) ∧
          (store mid).Kept (store last) ∧
          Source.Complete ⟨s.client, s.bucket, s.keyPrefix, none⟩ last found ∧
          ∀ earlier p body later, moved = earlier ++ (p, body) :: later →
            (∀ q ∈ later, q.1.name ≠ p.name) →
              ∃ part ∈ found, part.name = s.keyPrefix ++ p.name ∧ part.Streams last body := by
  have hstore : store w = m := by rw [store, storeAt, hstores]; rfl
  have hunhindered : ∀ operation, (store w).Unhindered operation := by
    simp [Unhindered, hstore, hfaults]
  have hw : s.Clear w := by
    refine ⟨⟨by simp [hstores], hstore ▸ hm.numbered, hunhindered _, .inl hclient,
      .inl (.inl hclient)⟩, hclient, hunhindered, hstore ▸ hbucket⟩
  rw [← hstore] at hmoved
  obtain ⟨summary, mid, hplay, htransferred, hmid⟩ :=
    Sink.play_transfer_of_available moved hw hmoved
  obtain ⟨-, hwritten⟩ := Sink.written_of_transferred hw.toReady htransferred
  rw [hstore] at hwritten
  have hpageSize : (store mid).pageSize = m.pageSize := by
    obtain ⟨said, -, hsaid⟩ := Rehearsal.play_eq_some_iff.1 hplay
    exact (Scripted.of_answers (P := fun n => n.pageSize = m.pageSize)
      (fun n r hn => (pageSize_answer n r).trans hn) hw.stores_ne_nil hsaid (by rw [hstore])).2.2
  refine ⟨summary, mid, hplay, hwritten, fun pages hpages hfit => ?_⟩
  obtain ⟨objects, hobjects⟩ := Option.isSome_iff_exists.1 hmid.bucket_isSome
  have hstill : Still (store mid) mid := ⟨hmid.stores_ne_nil, hmid.unhindered_all, .refl _⟩
  have hsome : under s.keyPrefix objects.entries ≠ [] := by
    obtain ⟨front, ⟨p, body⟩, rfl⟩ := moved.eq_nil_or_concat.resolve_left hne
    have hheld := hwritten.last front p body [] List.concat_eq_append (by simp)
    rw [Memory.object?, hobjects, Option.bind_some] at hheld
    have hmem : (s.keyPrefix ++ p.name, body) ∈ under s.keyPrefix objects.entries :=
      List.mem_filter.2 ⟨KeyMap.mem_entries.2 hheld, by simp⟩
    exact List.ne_nil_of_mem hmem
  have hunder : (under s.keyPrefix objects.entries).length ≤ pages * (store mid).pageSize := by
    have hkeys : ((store mid).keys s.bucket).length = objects.entries.length := by
      simp [Memory.keys, hobjects, KeyMap.keys]
    rw [hpageSize]
    exact Nat.le_trans (List.length_filter_le ..) (hkeys ▸ hfit)
  obtain ⟨last, hparts, hlast⟩ := play_parts hstill hclient hobjects
    (hpageSize ▸ hm.pageSize_pos) hsome hpages hunder
  have hcomplete := complete_of_still s.keyPrefix hlast hclient hobjects
  refine ⟨_, last, hparts, hlast.alike.kept, hcomplete, fun earlier p body later heq hlater => ?_⟩
  have hheld : (store last).object? s.bucket (s.keyPrefix ++ p.name) = some body := by
    rw [hlast.alike.kept.object?, hwritten.last earlier p body later heq hlater]
  obtain ⟨part, hpart, hname⟩ := List.mem_map.1
    ((hcomplete.mem_iff (s.keyPrefix ++ p.name)).2 ⟨by simp, by rw [hheld]; rfl⟩)
  obtain ⟨body', hbody', -, hstreams⟩ := hcomplete.streams part hpart
  rw [hname, hheld] at hbody'
  exact ⟨part, hpart, hname, Option.some.inj hbody' ▸ hstreams⟩

/-- A part of two chunks, an object of another bucket and an empty part over the first one. -/
theorem transfer_then_parts_of_three :
    let m := ((Memory.withPages "memory://obs" 1).seed "b" [("p/old", [0]), ("q", [1])]).seed "src"
      [("a", [1, 2, 3])]
    let w : Rehearsal Scripted := { services := { stores := [m] } }
    let c : Client := ⟨2, "memory://obs"⟩
    let s := Sink.ofChunks c "b" "p/" 2
    let moved : List (Part × Bytes) := [(.ofBytes "x" [1, 2, 3, 4], [1, 2, 3, 4]),
      (.ofObject c "src" { key := "a", size := 3 }, [1, 2, 3]), (.ofBytes "x" [], [])]
    ∃ summary mid, play (s.transfer (moved.map Prod.fst)) w = (some (.ok summary), mid) ∧
      s.Written m moved (store mid) ∧
      ∀ pages, 0 < pages → ((store mid).keys "b").length ≤ pages →
        ∃ found last, play (Source.parts pages ⟨c, "b", "p/", none⟩) mid =
            (some (.ok found), last) ∧ Source.Complete ⟨c, "b", "p/", none⟩ last found := by
  intro m w c s moved
  have hmoved : ∀ q ∈ moved, q.1.Available m s.bucket q.2 ∧
      q.2.length ≤ ObjectStore.maxPart * s.chunkSize := by
    refine List.forall_mem_cons.2 ⟨⟨.given "x" 4 (.ofBytes [1, 2, 3, 4]) rfl, by decide⟩,
      List.forall_mem_cons.2 ⟨⟨.object c rfl "src" (by decide) _ _ ?_, by decide⟩,
        List.forall_mem_cons.2 ⟨⟨.given "x" 0 (.ofBytes []) rfl, by decide⟩, by simp⟩⟩⟩
    decide +kernel
  obtain ⟨summary, mid, hplay, hwritten, hfound⟩ := transfer_then_parts (w := w) (s := s) (m := m)
    rfl (.seeded _ _ (.seeded _ _ (.new _ _))) rfl rfl (by decide +kernel) (by simp [moved]) hmoved
  refine ⟨summary, mid, hplay, hwritten, fun pages hpages hfit => ?_⟩
  obtain ⟨found, last, hparts, -, hcomplete, -⟩ :=
    hfound pages hpages (Nat.le_trans hfit (Nat.le_of_eq (Nat.mul_one pages).symm))
  exact ⟨found, last, hparts, hcomplete⟩

end BucketTransfer.Transfer
