import BucketTransfer.Proofs.ObjectStore.Exchanges
import BucketTransfer.Proofs.ObjectStore.Pages
import BucketTransfer.Proofs.ObjectStore.Paging
import BucketTransfer.Proofs.Utf8

/-!
# Listing a store that others change meanwhile

The pages of a listing are about one stretch of keys after the other: each begins behind the marker
that the page before it ends with, whether or not there still is an object under that key. What
others do between two pages can add keys to a stretch or take them away, but a key that stays is on
the page for its stretch, and on no other.
-/
namespace BucketTransfer.ObjectStore
open Dialogue (Course)

namespace Memory

/-- What is said to a store that others make requests of, too: `seen` is what the store was like at
each request that is said. -/
inductive Shared : Memory → List (Exchange World) → List Memory → Memory → Prop where
  | done (m : Memory) : Shared m [] [] m
  | meanwhile {m last : Memory} {said : List (Exchange World)} {seen : List Memory} (r : Request)
      (rest : Shared (m.answer r).2 said seen last) : Shared m said seen last
  | exchange {m mid last : Memory} {said : List (Exchange World)} {seen : List Memory} (c : Client)
      {r : Request} {answer : Except Error r.Reply} (step : m.answer r = (answer, mid))
      (rest : Shared mid said seen last) : Shared m (c.exchange r answer :: said) (m :: seen) last
  | aside {m last : Memory} {said : List (Exchange World)} {seen : List Memory}
      (e : Exchange World) (noRequest : ∀ c r, e.question ≠ .request c r)
      (rest : Shared m said seen last) : Shared m (e :: said) seen last

/-- How far the keys of a listing can be relied on if the store changes meanwhile. -/
structure Faithful (bucket keyPrefix : String) (seen : List Memory) (keys : List String) :
    Prop where
  /-- The keys increase, byte by byte. -/
  increasing : (keys.map utf8).Pairwise (· < ·)
  /-- A key that is there at every request is named, and once. -/
  named : ∀ key : String, key.startsWith keyPrefix →
    (∀ n ∈ seen, (n.object? bucket key).isSome) → keys.count key = 1
  /-- A key that is named is under the prefix and was there at some request. -/
  there : ∀ key ∈ keys, key.startsWith keyPrefix ∧ ∃ n ∈ seen, (n.object? bucket key).isSome

/-- The keys on the pages of a listing from a marker on. Each page is one of what the bucket held at
some time. -/
inductive Chain (held : KeyMap Bytes → Prop) (size : Nat) (keyPrefix : String) :
    Option String → List String → Prop where
  | last {marker : Option String} {objects : KeyMap Bytes} (there : held objects)
      (ends : (page objects.entries size keyPrefix marker).continuation = none) :
      Chain held size keyPrefix marker
        ((page objects.entries size keyPrefix marker).objects.map (·.key))
  | next {marker : Option String} {objects : KeyMap Bytes} {onward : String} {keys : List String}
      (there : held objects)
      (advances : (page objects.entries size keyPrefix marker).continuation = some onward)
      (rest : Chain held size keyPrefix (some onward) keys) :
      Chain held size keyPrefix marker
        ((page objects.entries size keyPrefix marker).objects.map (·.key) ++ keys)

variable {m last n : Memory} {said : List (Exchange World)} {seen : List Memory}

theorem Shared.pageSize_eq (h : Shared m said seen last) :
    last.pageSize = m.pageSize ∧ ∀ n ∈ seen, n.pageSize = m.pageSize := by
  induction h with
  | done m => simp
  | @meanwhile m last said seen r rest ih =>
    rw [pageSize_answer] at ih
    exact ih
  | @exchange m mid last said seen c r answer step rest ih =>
    have hmid : mid.pageSize = m.pageSize := by rw [← pageSize_answer m r, step]
    rw [hmid] at ih
    exact ⟨ih.1, List.forall_mem_cons.2 ⟨rfl, ih.2⟩⟩
  | aside e noRequest rest ih => exact ih

/-- An answer was given by the store as it was at the request. -/
theorem Shared.exists_of_mem (h : Shared m said seen last) {c : Client} {r : Request}
    {answer : Except Error r.Reply} (he : c.exchange r answer ∈ said) :
    ∃ n ∈ seen, (n.answer r).1 = answer := by
  induction h with
  | done m => simp at he
  | meanwhile r rest ih => exact ih he
  | @exchange m mid last said seen c r answer step rest ih =>
    rcases List.mem_cons.1 he with heq | he
    · cases heq
      exact ⟨m, List.mem_cons_self, congrArg Prod.fst step⟩
    · obtain ⟨n, hn, hanswer⟩ := ih he
      exact ⟨n, List.mem_cons_of_mem m hn, hanswer⟩
  | aside e noRequest rest ih =>
    rcases List.mem_cons.1 he with rfl | he
    · exact absurd rfl (noRequest c r)
    · exact ih he

section Chain
variable {held : KeyMap Bytes → Prop} {size : Nat} {keyPrefix : String} {marker : Option String}
  {keys : List String} {key onward : String} {objects : KeyMap Bytes}

private theorem mem_after_under {o : String × Bytes} :
    o ∈ after marker (under keyPrefix objects.entries) ↔
      objects.get? o.1 = some o.2 ∧ o.1.startsWith keyPrefix ∧
        marker.all (fun m => decide (m < o.1)) := by
  rw [after, List.mem_filter, under, List.mem_filter, KeyMap.mem_entries, and_assoc]

private theorem sorted_after_under (objects : KeyMap Bytes) (marker : Option String) :
    (after marker (under keyPrefix objects.entries)).Pairwise fun a b => a.1 < b.1 :=
  (objects.ordered.filter _).filter _

private theorem keys_page (objects : List (String × Bytes)) (size : Nat) (keyPrefix : String)
    (marker : Option String) : (page objects size keyPrefix marker).objects.map (·.key) =
      ((after marker (under keyPrefix objects)).take size).map (·.1) := by
  rw [page_eq, List.map_map]
  rfl

private theorem pairwise_page (objects : KeyMap Bytes) (size : Nat) (keyPrefix : String)
    (marker : Option String) :
    ((page objects.entries size keyPrefix marker).objects.map (·.key)).Pairwise (· < ·) := by
  rw [keys_page]
  exact List.pairwise_map.2 ((sorted_after_under objects marker).take)

/-- A key on a page is one of the bucket, under the prefix and behind the marker. -/
private theorem of_mem_page
    (h : key ∈ (page objects.entries size keyPrefix marker).objects.map (·.key)) :
    (objects.get? key).isSome ∧ key.startsWith keyPrefix ∧
      marker.all (fun m => decide (m < key)) := by
  rw [keys_page] at h
  obtain ⟨o, ho, rfl⟩ := List.mem_map.1 h
  obtain ⟨hvalue, hstarts, hafter⟩ := mem_after_under.1 (List.mem_of_mem_take ho)
  exact ⟨by rw [hvalue]; rfl, hstarts, hafter⟩

/-- A page ends with the key that the next one begins behind. -/
private theorem le_of_mem_page
    (hnext : (page objects.entries size keyPrefix marker).continuation = some onward)
    (h : key ∈ (page objects.entries size keyPrefix marker).objects.map (·.key)) :
    key = onward ∨ key < onward := by
  obtain ⟨o, hlast, rfl⟩ := getLast?_of_continuation hnext
  rw [keys_page] at h
  obtain ⟨x, hx, rfl⟩ := List.mem_map.1 h
  rcases eq_or_lt_of_getLast? ((sorted_after_under objects marker).take) hlast hx with rfl | hlt
  · exact .inl rfl
  · exact .inr hlt

/-- A key behind the marker is on the page, or behind the end of the page if there is a next one. -/
private theorem mem_page_or_after (hsize : 0 < size) (hkey : (objects.get? key).isSome)
    (hstarts : key.startsWith keyPrefix) (hafter : marker.all fun m => decide (m < key)) :
    key ∈ (page objects.entries size keyPrefix marker).objects.map (·.key) ∨
      ∃ onward, (page objects.entries size keyPrefix marker).continuation = some onward ∧
        onward < key := by
  obtain ⟨body, hbody⟩ := Option.isSome_iff_exists.1 hkey
  have hmem : (key, body) ∈ after marker (under keyPrefix objects.entries) :=
    mem_after_under.2 ⟨hbody, hstarts, hafter⟩
  have hunder : (under keyPrefix objects.entries).Pairwise fun a b => a.1 < b.1 :=
    objects.ordered.filter _
  by_cases hmore : size < (after marker (under keyPrefix objects.entries)).length
  · obtain ⟨o, hlast, hnext, -⟩ := continuation_of_lt hsize hmore
    rw [← List.take_append_drop size (after marker (under keyPrefix objects.entries)),
      ← after_last hunder hlast] at hmem
    rcases List.mem_append.1 hmem with htake | hdrop
    · exact .inl (keys_page .. ▸ List.mem_map_of_mem htake)
    · exact .inr ⟨o.1, hnext, of_decide_eq_true (mem_after_under.1 hdrop).2.2⟩
  · rw [← List.take_of_length_le (Nat.not_lt.1 hmore)] at hmem
    exact .inl (keys_page .. ▸ List.mem_map_of_mem hmem)

namespace Chain

theorem increasing (h : Chain held size keyPrefix marker keys) :
    keys.Pairwise (· < ·) ∧ ∀ key ∈ keys, marker.all fun m => decide (m < key) := by
  induction h with
  | @last marker objects there ends =>
    exact ⟨pairwise_page objects size keyPrefix marker, fun key hkey => (of_mem_page hkey).2.2⟩
  | @next marker objects onward keys there advances rest ih =>
    obtain ⟨hsorted, hbehind⟩ := ih
    have honward : ∀ key ∈ keys, onward < key := fun key hkey =>
      of_decide_eq_true (hbehind key hkey)
    constructor
    · refine List.pairwise_append.2 ⟨pairwise_page objects size keyPrefix marker, hsorted, ?_⟩
      intro a ha b hb
      rcases le_of_mem_page advances ha with rfl | hlt
      · exact honward b hb
      · exact String.lt_trans hlt (honward b hb)
    · intro key hkey
      rcases List.mem_append.1 hkey with hpage | hrest
      · exact (of_mem_page hpage).2.2
      · obtain ⟨o, hlast, rfl⟩ := getLast?_of_continuation advances
        have hmem := List.mem_of_mem_take (List.mem_of_getLast? hlast)
        have hafter := (mem_after_under.1 hmem).2.2
        cases marker with
        | none => rfl
        | some first =>
          exact decide_eq_true (String.lt_trans (of_decide_eq_true hafter) (honward key hrest))

/-- A key that the bucket holds at all times is on the page for its stretch. -/
theorem mem_of_lasting (hsize : 0 < size) (h : Chain held size keyPrefix marker keys)
    (hstarts : key.startsWith keyPrefix) (hafter : marker.all fun m => decide (m < key))
    (hlasting : ∀ objects, held objects → (objects.get? key).isSome) : key ∈ keys := by
  induction h with
  | @last marker objects there ends =>
    rcases mem_page_or_after hsize (hlasting objects there) hstarts hafter with hkey | ⟨o, ho, -⟩
    · exact hkey
    · exact absurd (ends.symm.trans ho) (by simp)
  | @next marker objects onward keys there advances rest ih =>
    rcases mem_page_or_after hsize (hlasting objects there) hstarts hafter with hkey | ⟨o, ho, hlt⟩
    · exact List.mem_append_left _ hkey
    · obtain rfl := Option.some.inj (advances.symm.trans ho)
      exact List.mem_append_right _ (ih (decide_eq_true hlt))

theorem held_of_mem (h : Chain held size keyPrefix marker keys) (hkey : key ∈ keys) :
    key.startsWith keyPrefix ∧ ∃ objects, held objects ∧ (objects.get? key).isSome := by
  induction h with
  | @last marker objects there ends =>
    obtain ⟨hsome, hstarts, -⟩ := of_mem_page hkey
    exact ⟨hstarts, objects, there, hsome⟩
  | @next marker objects onward keys there advances rest ih =>
    rcases List.mem_append.1 hkey with hkey | hkey
    · obtain ⟨hsome, hstarts, -⟩ := of_mem_page hkey
      exact ⟨hstarts, objects, there, hsome⟩
    · exact ih hkey

/-- Pages without room name nothing. -/
theorem size_pos (h : Chain held size keyPrefix marker keys) (hne : keys ≠ []) : 0 < size := by
  refine Nat.pos_of_ne_zero fun hzero => hne ?_
  subst hzero
  cases h with
  | last there ends => rw [keys_page, List.take_zero, List.map_nil]
  | next there advances rest =>
    obtain ⟨o, hlast, -⟩ := getLast?_of_continuation advances
    exact absurd hlast (by simp)

/-- The keys of a listing whose pages are all of states that were seen. -/
theorem faithful {bucket : String} (hsize : 0 < size)
    (h : Chain (fun objects => ∃ n ∈ seen, n.buckets.get? bucket = some objects) size keyPrefix none
      keys) : Faithful bucket keyPrefix seen keys := by
  have hobject : ∀ (n : Memory) (objects : KeyMap Bytes) (key : String),
      n.buckets.get? bucket = some objects → n.object? bucket key = objects.get? key := by
    intro n objects key hobjects
    rw [Memory.object?, hobjects, Option.bind_some]
  constructor
  case increasing => exact List.pairwise_map.2 (h.increasing.1.imp utf8_lt)
  case named =>
    intro key hstarts hlasting
    have hnodup : keys.Nodup := h.increasing.1.imp fun hlt => String.ne_of_lt hlt
    have hmem : key ∈ keys := by
      refine h.mem_of_lasting hsize hstarts rfl ?_
      rintro objects ⟨n, hn, hobjects⟩
      rw [← hobject n objects key hobjects]
      exact hlasting n hn
    exact Nat.le_antisymm (List.nodup_iff_count.1 hnodup key) (List.count_pos_iff.2 hmem)
  case there =>
    intro key hkey
    obtain ⟨hstarts, objects, ⟨n, hn, hobjects⟩, hsome⟩ := h.held_of_mem hkey
    exact ⟨hstarts, n, hn, by rw [hobject n objects key hobjects]; exact hsome⟩

/-- The pages that are fetched for a listing make a chain. -/
theorem of_paging {c : Client} {bucket : String} {ε : Type}
    {fetch : Option String → Dialogue World (Except ε Page)} {stuck : String → ε}
    (hfetch : ∀ marker said page, Course (fetch marker) said (some (.ok page)) →
      c.exchange (.listObjects bucket keyPrefix marker) (.ok page) ∈ said)
    {outcome : Option (Except ε (List Summary))} (h : Paging fetch stuck marker said outcome)
    (hseen : ∀ marker found, c.exchange (.listObjects bucket keyPrefix marker) (.ok found) ∈ said →
      ∃ objects, held objects ∧ found = page objects.entries size keyPrefix marker)
    {found : List Summary} (hfound : outcome = some (.ok found)) :
    Chain held size keyPrefix marker (found.map (·.key)) := by
  induction h generalizing found with
  | cut marker => exact absurd hfound (by simp)
  | unfetched marker said course => exact absurd hfound (by simp)
  | failed marker said e course => exact absurd hfound (by simp)
  | stuck marker said page course same => exact absurd hfound (by simp)
  | last marker said page course ends =>
    obtain ⟨objects, hheld, rfl⟩ := hseen marker page (hfetch _ _ _ course)
    rw [← Except.ok.inj (Option.some.inj hfound)]
    exact .last hheld ends
  | next marker said page onward course advances other later outcome rest ih =>
    obtain ⟨objects, hheld, rfl⟩ :=
      hseen marker page (List.mem_append_left later (hfetch _ _ _ course))
    rcases outcome with _ | _ | others
    · exact absurd hfound (by simp)
    · exact absurd hfound (by simp [Except.map])
    · rw [← Except.ok.inj (Option.some.inj hfound), List.map_append]
      refine .next hheld advances (ih (fun marker found he => ?_) rfl)
      exact hseen marker found (List.mem_append_right said he)

end Chain

end Chain

/-- A listing can be relied on although others change the store meanwhile. -/
theorem Shared.faithful_listAll {c : Client} {bucket keyPrefix : String} {ε : Type}
    {fetch : Option String → Dialogue World (Except ε Page)} {stuck : String → ε}
    (hfetch : ∀ marker said page, Course (fetch marker) said (some (.ok page)) →
      c.exchange (.listObjects bucket keyPrefix marker) (.ok page) ∈ said)
    (hsize : 0 < m.pageSize) {pages : Nat} {found : List Summary}
    (hcourse : Course (listAll pages fetch stuck) said (some (.ok found)))
    (h : m.Shared said seen last) : Faithful bucket keyPrefix seen (found.map (·.key)) := by
  refine Chain.faithful hsize (.of_paging hfetch (course_listAll hcourse) ?_ rfl)
  intro marker page he
  obtain ⟨n, hn, hanswer⟩ := h.exists_of_mem he
  obtain ⟨objects, hobjects, hpage⟩ := listObjects_ok hanswer
  rw [h.pageSize_eq.2 n hn] at hpage
  exact ⟨objects, ⟨n, hn, hobjects⟩, hpage⟩

end Memory

end BucketTransfer.ObjectStore
