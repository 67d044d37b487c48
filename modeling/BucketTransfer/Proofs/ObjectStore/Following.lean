import BucketTransfer.Proofs.ObjectStore.Paging
import Mathlib.Data.List.Perm.Subperm
import Mathlib.Logic.Relation

/-!
# Where the markers of a listing lead

A listing goes on at the marker that a page gives. It ends at a page that gives none, which is the
last one as a rule, or one that does not say where the rest is; and it ends at a page that gives the
marker it was asked with. If there are only so many markers, it ends unless they go round.
-/
namespace BucketTransfer.ObjectStore
open Dialogue (Course)
open Relation (ReflTransGen TransGen)

/-- A page that announces more and does not say where it starts. -/
def Page.Silent (p : Page) : Prop :=
  p.truncated = true ∧ p.objects = [] ∧ ∀ m ∈ p.nextMarker, m = ""

theorem Page.continuation_eq_none_iff {p : Page} :
    p.continuation = none ↔ p.truncated = false ∨ p.Silent := by
  obtain ⟨objects, truncated, nextMarker⟩ := p
  cases truncated with
  | false => simp [continuation]
  | true => simp [continuation, Silent, Option.filter_eq_none_iff, and_comm]

/-- Pages that were read one after the other, from a marker, and the objects on them. Each page but
the last one was followed to where it said that the next one starts. -/
inductive ReadThrough : Option String → List (Option String × Page) → List Summary → Prop where
  | last (marker : Option String) (page : Page) (ends : page.truncated = false ∨ page.Silent) :
      ReadThrough marker [(marker, page)] page.objects
  | next (marker : Option String) (page : Page) (onward : String)
      (announced : page.continuation = some onward) {read : List (Option String × Page)}
      {objects : List Summary} (rest : ReadThrough (some onward) read objects) :
      ReadThrough marker ((marker, page) :: read) (page.objects ++ objects)

section Received
variable {I : Interface} {ε : Type} {fetch : Option String → Dialogue I (Except ε Page)}
  {stuck : String → ε} {listed? : Exchange I → Option (Option String × Page)}

/-- A listing that comes to objects has read all pages that it was told to read. -/
theorem Paging.readThrough
    (hfetch : ∀ marker said page, Course (fetch marker) said (some (.ok page)) →
      said.filterMap listed? = [(marker, page)])
    {marker : Option String} {said : List (Exchange I)} {objects : List Summary}
    (h : Paging fetch stuck marker said (some (.ok objects))) :
    ReadThrough marker (said.filterMap listed?) objects := by
  generalize houtcome : (some (.ok objects) : Option (Except ε (List Summary))) = outcome at h
  induction h generalizing objects with
  | cut marker => cases houtcome
  | unfetched marker said course => cases houtcome
  | failed marker said e course => cases houtcome
  | stuck marker said page course same => cases houtcome
  | last marker said page course ends =>
    cases houtcome
    rw [hfetch marker said page course]
    exact .last marker page (Page.continuation_eq_none_iff.1 ends)
  | next marker said page onward course advances other later outcome rest ih =>
    rcases outcome with _ | _ | others
    · cases houtcome
    · cases houtcome
    · obtain rfl : objects = page.objects ++ others := by simpa [Except.map] using houtcome
      rw [List.filterMap_append, hfetch marker said page course]
      exact .next marker page onward advances (ih rfl)

end Received

section Served
variable (serve : Option String → Page)

/-- The page at a marker leads on to another marker. -/
inductive Onward : Option String → Option String → Prop where
  | page (marker : Option String) (next : String) (given : (serve marker).continuation = some next)
      (other : marker ≠ some next) : Onward marker (some next)

/-- On the way from a marker one comes up that comes up again. -/
def GoesRound (marker : Option String) : Prop :=
  ∃ again, ReflTransGen (Onward serve) marker again ∧ TransGen (Onward serve) again again

/-- The pages from a marker to the end of a listing, and the marker at which it is stuck, if it is.
-/
inductive Followed : Option String → List Page → Option String → Prop where
  | last (marker : Option String) (ends : (serve marker).continuation = none) :
      Followed marker [serve marker] none
  | stuck (marker : String) (same : (serve (some marker)).continuation = some marker) :
      Followed (some marker) [serve (some marker)] (some marker)
  | next (marker : Option String) (next : String)
      (given : (serve marker).continuation = some next) (other : marker ≠ some next)
      (pages : List Page) (stop : Option String) (rest : Followed (some next) pages stop) :
      Followed marker (serve marker :: pages) stop

variable {serve} {marker : Option String}

/-- A listing ends on few pages, or its markers lead on for as long. -/
private theorem followed_or_chain (count : Nat) (marker : Option String) :
    (∃ pages stop, Followed serve marker pages stop ∧ pages.length ≤ count) ∨
      ∃ chain, chain.length = count ∧ (marker :: chain).IsChain (Onward serve) := by
  induction count generalizing marker with
  | zero => exact .inr ⟨[], rfl, .singleton marker⟩
  | succ count ih =>
    cases hgiven : (serve marker).continuation with
    | none => exact .inl ⟨_, _, .last marker hgiven, Nat.le_add_left ..⟩
    | some next =>
      by_cases hsame : marker = some next
      · subst hsame
        exact .inl ⟨_, _, .stuck next hgiven, Nat.le_add_left ..⟩
      · rcases ih (some next) with ⟨pages, stop, hpages, hlength⟩ | ⟨chain, hlength, hchain⟩
        · exact .inl ⟨_, stop, .next marker next hgiven hsame pages stop hpages,
            Nat.succ_le_succ hlength⟩
        · refine .inr ⟨some next :: chain, congrArg (· + 1) hlength, ?_⟩
          exact .cons_cons (.page marker next hgiven hsame) hchain

/-- Markers that lead on without coming up again are all different. -/
private theorem nodup_of_chain {chain : List (Option String)}
    (h : (marker :: chain).IsChain (Onward serve)) (hround : ¬GoesRound serve marker) :
    chain.Nodup := by
  have hpairwise : (marker :: chain).Pairwise (TransGen (Onward serve)) :=
    (h.imp fun _ _ => TransGen.single).pairwise
  obtain ⟨hreached, hothers⟩ := List.pairwise_cons.1 hpairwise
  refine hothers.imp_of_mem fun ha _ hab heq => ?_
  subst heq
  exact hround ⟨_, (hreached _ ha).to_reflTransGen, hab⟩

/-- With only so many markers a listing ends, unless they go round. -/
theorem exists_followed {marks : List String}
    (hmarks : ∀ marker next, (serve marker).continuation = some next → next ∈ marks)
    (hround : ¬GoesRound serve marker) :
    ∃ pages stop, Followed serve marker pages stop ∧ pages.length ≤ marks.length + 1 := by
  refine (followed_or_chain (marks.length + 1) marker).resolve_right ?_
  rintro ⟨chain, hlength, hchain⟩
  have hmem : chain ⊆ marks.map some := by
    intro m hm
    have hpairwise := (hchain.imp fun _ _ => TransGen.single).pairwise
    obtain ⟨_, -, next, hgiven, -⟩ :=
      TransGen.tail'_iff.1 (List.rel_of_pairwise_cons hpairwise hm)
    exact List.mem_map_of_mem (hmarks _ next hgiven)
  have hle := (List.subperm_of_subset (nodup_of_chain hchain hround) hmem).length_le
  rw [List.length_map] at hle
  omega

/-- Markers that go round lead on to one from which they do. -/
theorem GoesRound.exists_onward (h : GoesRound serve marker) :
    ∃ next, Onward serve marker (some next) ∧ GoesRound serve (some next) := by
  obtain ⟨again, hreach, hround⟩ := h
  rcases ReflTransGen.cases_head hreach with rfl | ⟨_, ⟨next, hgiven, hother⟩, hrest⟩
  · obtain ⟨_, ⟨next, hgiven, hother⟩, hrest⟩ := TransGen.head'_iff.1 hround
    exact ⟨next, .page marker next hgiven hother, marker, hrest, hround⟩
  · exact ⟨next, .page marker next hgiven hother, again, hrest, hround⟩

/-- A listing that ends has no markers that go round. -/
theorem Followed.not_goesRound {pages : List Page} {stop : Option String}
    (h : Followed serve marker pages stop) : ¬GoesRound serve marker := by
  induction h with
  | last marker ends =>
    intro hround
    obtain ⟨next, ⟨_, hgiven, -⟩, -⟩ := hround.exists_onward
    exact absurd (ends.symm.trans hgiven) (by simp)
  | stuck marker same =>
    intro hround
    obtain ⟨next, ⟨_, hgiven, hother⟩, -⟩ := hround.exists_onward
    exact hother (same.symm.trans hgiven)
  | next marker next given other pages stop rest ih =>
    intro hround
    obtain ⟨next', ⟨_, hgiven, -⟩, hrest⟩ := hround.exists_onward
    obtain rfl := Option.some.inj (given.symm.trans hgiven)
    exact ih hrest

/-- Markers that never go back do not go round. -/
theorem not_goesRound_of_le
    (h : ∀ marker next, (serve (some marker)).continuation = some next → marker ≤ next) :
    ¬GoesRound serve marker := by
  have hlt : ∀ {a b}, TransGen (Onward serve) (some a) b → ∃ c, b = some c ∧ a < c := by
    intro a b hab
    induction hab with
    | single first =>
      obtain ⟨next, hgiven, hother⟩ := first
      exact ⟨next, rfl, Std.lt_of_le_of_ne (h a next hgiven) fun heq => hother (congrArg some heq)⟩
    | tail _ last ih =>
      obtain ⟨c, rfl, hac⟩ := ih
      obtain ⟨next, hgiven, -⟩ := last
      exact ⟨next, rfl, Std.lt_of_lt_of_le hac (h c next hgiven)⟩
  rintro ⟨again, -, hround⟩
  cases again with
  | none =>
    obtain ⟨_, -, hlast⟩ := TransGen.tail'_iff.1 hround
    cases hlast
  | some a =>
    obtain ⟨c, heq, hac⟩ := hlt hround
    exact String.lt_irrefl a (Option.some.inj heq ▸ hac)

/-- What a listing comes to by its pages and by the marker at which it is stuck, if it is. -/
def outcome {ε : Type} (stuck : String → ε) (pages : List Page) :
    Option String → Except ε (List Summary)
  | none => .ok (pages.flatMap (·.objects))
  | some marker => .error (stuck marker)

variable {I : Interface} {ε : Type} {fetch : Option String → Dialogue I (Except ε Page)}
  {stuck : String → ε} {answer : List (Exchange I) → (q : I.Question) → I.Answer q}
  {page : Option String → Exchange I}

/-- One page of a listing, and where that leads. -/
private theorem converse_listFrom_succ
    (hfetch : ∀ marker past,
      (fetch marker).converse answer past = ([page marker], some (.ok (serve marker))))
    (limit : Nat) (found : List (List Summary)) (past : List (Exchange I)) :
    (listFrom fetch stuck found marker (limit + 1)).converse answer past =
      let found := (serve marker).objects :: found
      let onward : Dialogue I (Except ε (List Summary)) :=
        match (serve marker).continuation with
        | none => pure (.ok found.reverse.flatten)
        | some next =>
          if marker = some next then pure (.error (stuck next))
          else listFrom fetch stuck found (some next) limit
      let rest := onward.converse answer (past ++ [page marker])
      (page marker :: rest.1, rest.2) :=
  Dialogue.converse_bind (hfetch marker past)

variable (stuck) in
/-- A listing that ends does so if it may take as many pages as it has. -/
private theorem Followed.converse_listFrom {pages : List Page} {stop : Option String}
    (hfetch : ∀ marker past,
      (fetch marker).converse answer past = ([page marker], some (.ok (serve marker))))
    (h : Followed serve marker pages stop) {limit : Nat} (hlimit : pages.length ≤ limit)
    (found : List (List Summary)) (past : List (Exchange I)) :
    ∃ said, said.length = pages.length ∧
      (listFrom fetch stuck found marker limit).converse answer past =
        (said, some ((outcome stuck pages stop).map (found.reverse.flatten ++ ·))) := by
  induction h generalizing limit found past with
  | last marker ends =>
    obtain ⟨limit, rfl⟩ := Nat.exists_eq_add_of_le' hlimit
    refine ⟨[page marker], rfl, (converse_listFrom_succ hfetch limit found past).trans ?_⟩
    simp only [ends, outcome, Except.map, List.reverse_cons, List.flatten_concat,
      List.flatMap_singleton]
    rfl
  | stuck marker same =>
    obtain ⟨limit, rfl⟩ := Nat.exists_eq_add_of_le' hlimit
    refine ⟨[page (some marker)], rfl, (converse_listFrom_succ hfetch limit found past).trans ?_⟩
    simp only [same, if_pos]
    rfl
  | next marker next given other pages stop rest ih =>
    cases limit with
    | zero => exact absurd hlimit (Nat.not_succ_le_zero _)
    | succ limit =>
      obtain ⟨said, hlength, hrest⟩ := ih (Nat.le_of_succ_le_succ hlimit)
        ((serve marker).objects :: found) (past ++ [page marker])
      refine ⟨page marker :: said, congrArg (· + 1) hlength, ?_⟩
      rw [converse_listFrom_succ hfetch]
      simp only [given, if_neg other, hrest]
      cases stop <;> simp [outcome, Except.map]

theorem Followed.converse_listAll {pages : List Page} {stop : Option String}
    (h : Followed serve none pages stop)
    (hfetch : ∀ marker past,
      (fetch marker).converse answer past = ([page marker], some (.ok (serve marker))))
    {limit : Nat} (hlimit : pages.length ≤ limit) (past : List (Exchange I)) :
    ∃ said, said.length = pages.length ∧
      (listAll limit fetch stuck).converse answer past =
        (said, some (outcome stuck pages stop)) := by
  obtain ⟨said, hlength, hlist⟩ := h.converse_listFrom stuck hfetch hlimit [] past
  exact ⟨said, hlength, hlist.trans (by cases stop <;> rfl)⟩

/-- A listing whose markers go round takes as many pages as it may and is cut off. -/
private theorem GoesRound.converse_listFrom
    (hfetch : ∀ marker past,
      (fetch marker).converse answer past = ([page marker], some (.ok (serve marker))))
    (h : GoesRound serve marker) (limit : Nat) (found : List (List Summary))
    (past : List (Exchange I)) :
    ∃ said, said.length = limit ∧
      (listFrom fetch stuck found marker limit).converse answer past = (said, none) := by
  induction limit generalizing marker found past with
  | zero => exact ⟨[], rfl, rfl⟩
  | succ limit ih =>
    obtain ⟨next, ⟨_, hgiven, hother⟩, hround⟩ := h.exists_onward
    obtain ⟨said, hlength, hrest⟩ :=
      ih hround ((serve marker).objects :: found) (past ++ [page marker])
    refine ⟨page marker :: said, congrArg (· + 1) hlength, ?_⟩
    rw [converse_listFrom_succ hfetch]
    simp only [hgiven, if_neg hother, hrest]

theorem GoesRound.converse_listAll (h : GoesRound serve none)
    (hfetch : ∀ marker past,
      (fetch marker).converse answer past = ([page marker], some (.ok (serve marker))))
    (limit : Nat) (past : List (Exchange I)) :
    ∃ said, said.length = limit ∧
      (listAll limit fetch stuck).converse answer past = (said, none) :=
  h.converse_listFrom hfetch limit [] past

end Served

end BucketTransfer.ObjectStore
