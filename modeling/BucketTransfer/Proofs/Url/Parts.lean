import BucketTransfer.Proofs.Outcome
import BucketTransfer.Url
import Mathlib.Data.List.TakeWhile

/-!
# The parts of URLs

The path, the query and the fragment of a URL as they are written, cut where the URL is cut when it
is read. What is written behind a URL with a host goes into the last part that this one has.
-/
namespace BucketTransfer.Url

variable {p : Char → Bool} {a b cs t found rest : List Char} {scheme s : String} {u : Url}

/-! ## Cuts -/

theorem cut_append (h : (cut p a).2 ≠ []) : cut p (a ++ b) = ((cut p a).1, (cut p a).2 ++ b) := by
  have hlengths := congrArg List.length
    (List.takeWhile_append_dropWhile (p := fun c => !p c) (l := a))
  have hpos := List.length_pos_iff.2 h
  rw [List.length_append] at hlengths
  have hshort : (a.takeWhile fun c => !p c).length ≠ a.length := by
    simp only [cut] at hpos
    omega
  simp only [cut] at h
  rw [cut, cut, List.takeWhile_append, if_neg hshort, List.dropWhile_append,
    if_neg (by rwa [List.isEmpty_iff])]

theorem cut_fst_of_none (h : (cut p a).2 = []) : (cut p a).1 = a := by
  have hparts := List.takeWhile_append_dropWhile (p := fun c => !p c) (l := a)
  simp only [cut] at h ⊢
  rwa [h, List.append_nil] at hparts

theorem cut_append_of_none (h : (cut p a).2 = []) :
    cut p (a ++ b) = (a ++ (cut p b).1, (cut p b).2) := by
  have hall := cut_fst_of_none h
  simp only [cut] at h hall
  rw [cut, cut, List.takeWhile_append, if_pos (by rw [hall]), List.dropWhile_append,
    if_pos (by rw [h]; rfl)]

theorem exists_cut_fst_append (p : Char → Bool) (a b : List Char) :
    ∃ t, (cut p (a ++ b)).1 = (cut p a).1 ++ t := by
  by_cases h : (cut p a).2 = []
  · exact ⟨(cut p b).1, by rw [cut_append_of_none h, cut_fst_of_none h]⟩
  · exact ⟨[], by rw [cut_append h, List.append_nil]⟩

theorem cut_of_not_mem (h : ∀ c ∈ a, p c = false) : cut p a = (a, []) := by
  have hall : ∀ c ∈ a, (!p c) = true := fun c hc => by rw [h c hc]; rfl
  rw [cut, List.takeWhile_eq_self_iff.2 hall, List.dropWhile_eq_nil_iff.2 hall]

/-- What begins with a place to cut at is cut nowhere else if nothing before it is. -/
theorem cut_snd_append (h : b.head?.any p = true) : (cut p (a ++ b)).2 = (cut p a).2 ++ b := by
  by_cases hnone : (cut p a).2 = []
  · obtain ⟨c, more, rfl⟩ : ∃ c more, b = c :: more :=
      List.exists_cons_of_ne_nil (by rintro rfl; cases h)
    rw [cut_append_of_none hnone, hnone, List.nil_append]
    simp only [List.head?_cons, Option.any_some] at h
    simp [cut, h]
  · rw [cut_append hnone]

/-! ## Parts -/

/-- Whether a character separates the segments of a path. -/
def isSlash (special : Bool) (c : Char) : Bool := c == '/' || (special && c == '\\')

/-- What stands behind the slashes that a host stands behind. -/
def behindSlashes (scheme : String) (cs : List Char) : Option (List Char) :=
  if isSpecial scheme && scheme != "file" then some (cs.dropWhile (isSlash (isSpecial scheme)))
  else match cs with
    | a :: b :: more =>
      if isSlash (isSpecial scheme) a && isSlash (isSpecial scheme) b then some more else none
    | _ => none

/-- The parts of a URL behind its host, as they are written. -/
structure Parts where
  path : List Char
  query : Option (List Char)
  fragment : Option (List Char)
  deriving DecidableEq, Repr

/-- The scheme and the parts of a URL with a host. -/
def partsOf (cs : List Char) : Option (String × Parts) := do
  let (scheme, rest) ← splitScheme cs
  let (rest, fragment) := cut (· == '#') rest
  let (rest, query) := cut (· == '?') rest
  let found ← behindSlashes scheme rest
  some (scheme, ⟨(cut (isSlash (isSpecial scheme)) found).2, query.tail?, fragment.tail?⟩)

/-- A URL with a host: something stands behind the slashes. -/
def Hosted (cs : List Char) : Prop :=
  ∃ scheme rest found, splitScheme cs = some (scheme, rest) ∧
    behindSlashes scheme (cut (· == '?') (cut (· == '#') rest).1).1 = some found ∧ found ≠ []

theorem splitScheme_append (h : splitScheme cs = some (scheme, rest)) :
    splitScheme (cs ++ t) = some (scheme, rest ++ t) := by
  unfold splitScheme at h
  split at h
  · rename_i first more behind hcut
    have hfront : (cut (· == ':') cs).2 ≠ [] := by rw [hcut]; exact List.cons_ne_nil _ _
    unfold splitScheme
    rw [cut_append hfront, hcut]
    dsimp only [List.cons_append] at h ⊢
    split at h
    · rename_i hname
      cases h
      exact if_pos hname
    · cases h
  · cases h

theorem behindSlashes_append (h : behindSlashes scheme cs = some found) (hne : found ≠ []) :
    behindSlashes scheme (cs ++ t) = some (found ++ t) := by
  unfold behindSlashes at h ⊢
  split
  · rename_i hspecial
    rw [if_pos hspecial] at h
    cases h
    rw [List.dropWhile_append, if_neg (by rwa [List.isEmpty_iff])]
  · rename_i hspecial
    rw [if_neg hspecial] at h
    split at h
    · rename_i c d more
      rw [List.cons_append, List.cons_append]
      dsimp only
      split at h
      · rename_i hslashes
        cases h
        rw [if_pos hslashes]
      · cases h
    · cases h

theorem Hosted.append (h : Hosted cs) (t : List Char) : Hosted (cs ++ t) := by
  obtain ⟨scheme, rest, found, hscheme, hfound, hne⟩ := h
  obtain ⟨t₁, ht₁⟩ := exists_cut_fst_append (· == '#') rest t
  obtain ⟨t₂, ht₂⟩ := exists_cut_fst_append (· == '?') (cut (· == '#') rest).1 t₁
  refine ⟨scheme, rest ++ t, found ++ t₂, splitScheme_append hscheme, ?_, by simp [hne]⟩
  rw [ht₁, ht₂]
  exact behindSlashes_append hfound hne

theorem Hosted.ne_nil (h : Hosted cs) : cs ≠ [] := by
  rintro rfl
  obtain ⟨scheme, rest, found, hscheme, -⟩ := h
  simp [splitScheme, cut] at hscheme

theorem partsOf_eq (hscheme : splitScheme cs = some (scheme, rest))
    (hfound : behindSlashes scheme (cut (· == '?') (cut (· == '#') rest).1).1 = some found) :
    partsOf cs = some (scheme, {
      path := (cut (isSlash (isSpecial scheme)) found).2
      query := (cut (· == '?') (cut (· == '#') rest).1).2.tail?
      fragment := (cut (· == '#') rest).2.tail? }) := by
  rw [partsOf, hscheme]
  dsimp only [Option.bind_eq_bind, Option.bind_some]
  rw [hfound]
  rfl

/-! ## Reading -/

/-- The path that is read behind slashes. -/
theorem path_of_ofAuthority (h : ofAuthority scheme cs = .ok u) :
    u.scheme = scheme ∧
      u.path = resolvedPath (isSpecial scheme) (cut (isSlash (isSpecial scheme)) cs).2 := by
  unfold ofAuthority at h
  obtain ⟨authority, tail, hcut⟩ : ∃ a b, cut (isSlash (isSpecial scheme)) cs = (a, b) :=
    ⟨_, _, rfl⟩
  obtain ⟨host, port, hhost⟩ : ∃ a b, hostAndPort (withoutUser authority) = (a, b) := ⟨_, _, rfl⟩
  have hcut' : cut (fun c => c == '/' || isSpecial scheme && c == '\\') cs = (authority, tail) :=
    hcut
  rw [hcut]
  simp only [hcut', hhost] at h
  split at h
  · split at h
    · cases h
      exact ⟨rfl, rfl⟩
    · obtain ⟨found, -, h⟩ := exists_of_bind h
      cases h
      exact ⟨rfl, rfl⟩
  · split at h
    · split at h
      · cases h
      · cases h
        exact ⟨rfl, rfl⟩
    · split at h
      all_goals
        obtain ⟨found, -, h⟩ := exists_of_bind h
        obtain ⟨number, -, h⟩ := exists_of_bind h
        cases h
        exact ⟨rfl, rfl⟩

/-- Where nothing stands behind slashes there is no host. -/
theorem hostText_of_ofAuthority (h : ofAuthority scheme [] = .ok u) : u.hostText = none := by
  have hcut : cut (fun c => c == '/' || isSpecial scheme && c == '\\') [] = ([], []) := rfl
  have hempty : hostAndPort (withoutUser []) = ([], []) := rfl
  unfold ofAuthority at h
  simp only [hcut, hempty, List.isEmpty_nil, if_true] at h
  split at h
  · cases h
    rfl
  · split at h
    · cases h
    · cases h
      rfl

/-- A URL with a host is read behind its slashes. -/
theorem exists_behindSlashes (h : parse s = .ok u) (hhost : u.hostText ≠ none) :
    ∃ scheme rest found v, splitScheme (relevant s) = some (scheme, rest) ∧
      behindSlashes scheme (cut (· == '?') (cut (· == '#') rest).1).1 = some found ∧
      ofAuthority scheme found = .ok v ∧ v.hostText ≠ none ∧
      u = { v with
        query := (cut (· == '?') (cut (· == '#') rest).1).2.tail?.map
          (encodeWhere (inQuery (isSpecial scheme)))
        fragment := (cut (· == '#') rest).2.tail?.map (encodeWhere inFragment) } := by
  unfold parse at h
  split at h
  · cases h
  · rename_i scheme rest hscheme
    refine ⟨scheme, rest, ?_⟩
    obtain ⟨before, fragment, hfragment⟩ : ∃ a b, cut (· == '#') rest = (a, b) := ⟨_, _, rfl⟩
    obtain ⟨front, query, hquery⟩ : ∃ a b, cut (· == '?') before = (a, b) := ⟨_, _, rfl⟩
    simp only [hfragment, hquery] at h ⊢
    unfold behindSlashes
    split at h
    · rename_i hspecial
      obtain ⟨v, hv, h⟩ := exists_of_bind h
      cases h
      exact ⟨_, v, hscheme, if_pos hspecial, hv, hhost, rfl⟩
    · rename_i hspecial
      rw [if_neg hspecial]
      split at h
      · split at h
        · rename_i hslashes
          obtain ⟨v, hv, h⟩ := exists_of_bind h
          cases h
          exact ⟨_, v, hscheme, if_pos hslashes, hv, hhost, rfl⟩
        · cases h
          exact absurd rfl hhost
      · cases h
        exact absurd rfl hhost

theorem hosted_of_parse (h : parse s = .ok u) (hhost : u.hostText ≠ none) :
    Hosted (relevant s) := by
  obtain ⟨scheme, rest, found, v, hscheme, hfound, hv, hvhost, -⟩ := exists_behindSlashes h hhost
  refine ⟨scheme, rest, found, hscheme, hfound, ?_⟩
  rintro rfl
  exact hvhost (hostText_of_ofAuthority hv)

/-! ## What is written behind a URL -/

/-- A path, and a query if it is not empty. -/
def target (path query : List Char) : List Char :=
  path ++ if query = [] then [] else '?' :: query

/-- The parts of a URL with a path and a query written behind it. -/
def Parts.behind (p : Parts) (path query : List Char) : Parts :=
  match p.fragment, p.query with
  | some fragment, _ => { p with fragment := some (fragment ++ target path query) }
  | none, some found => { p with query := some (found ++ target path query) }
  | none, none =>
    { path := p.path ++ path, query := if query = [] then none else some query, fragment := none }

section Behind
variable {path query : List Char}

theorem forall_mem_target (hpath : ∀ c ∈ path, 0x20 < c.toNat)
    (hquery : ∀ c ∈ query, 0x20 < c.toNat) : ∀ c ∈ target path query, 0x20 < c.toNat := by
  intro c hc
  rcases List.mem_append.1 hc with hc | hc
  · exact hpath c hc
  · split at hc
    · exact absurd hc List.not_mem_nil
    · rcases List.mem_cons.1 hc with rfl | hc
      · decide
      · exact hquery c hc

theorem slash_mem_target (hslash : path.head? = some '/') : '/' ∈ target path query :=
  List.mem_append_left _ (List.mem_of_mem_head? hslash)

theorem cut_target (hpath : '?' ∉ path) :
    cut (· == '?') (target path query) = (path, if query = [] then [] else '?' :: query) := by
  have hnone : cut (· == '?') path = (path, []) :=
    cut_of_not_mem fun c hc => beq_false_of_ne (ne_of_mem_of_not_mem hc hpath)
  rw [target, cut_append_of_none (by rw [hnone])]
  split
  · simp [cut]
  · simp [cut]

theorem cut_target_of_not_mem (hpath : '#' ∉ path) (hquery : '#' ∉ query) :
    cut (· == '#') (target path query) = (target path query, []) := by
  refine cut_of_not_mem fun c hc => beq_false_of_ne ?_
  rintro rfl
  rcases List.mem_append.1 hc with hc | hc
  · exact hpath hc
  · split at hc
    · exact List.not_mem_nil hc
    · exact (List.mem_cons.1 hc).elim (by decide) hquery

/-- What is written behind a URL with a host goes into its last part. -/
theorem partsOf_append (h : Hosted cs) (hslash : path.head? = some '/')
    (hpath : '#' ∉ path ∧ '?' ∉ path) (hquery : '#' ∉ query) :
    ∃ scheme p, partsOf cs = some (scheme, p) ∧
      partsOf (cs ++ target path query) = some (scheme, p.behind path query) := by
  obtain ⟨scheme, rest, found, hscheme, hfound, hne⟩ := h
  refine ⟨scheme, _, partsOf_eq hscheme hfound, ?_⟩
  have hscheme' := splitScheme_append (t := target path query) hscheme
  by_cases hfragment : (cut (· == '#') rest).2 = []
  · rw [cut_fst_of_none hfragment] at hfound ⊢
    have hhash : cut (· == '#') (rest ++ target path query) = (rest ++ target path query, []) := by
      rw [cut_append_of_none hfragment, cut_target_of_not_mem hpath.1 hquery]
    by_cases hmark : (cut (· == '?') rest).2 = []
    · rw [cut_fst_of_none hmark] at hfound
      have hcut : cut (· == '?') (rest ++ target path query) =
          (rest ++ path, if query = [] then [] else '?' :: query) := by
        rw [cut_append_of_none hmark, cut_target hpath.2]
      have hfound' : behindSlashes scheme (cut (· == '?')
          (cut (· == '#') (rest ++ target path query)).1).1 = some (found ++ path) := by
        rw [hhash, hcut]
        exact behindSlashes_append hfound hne
      have hfirst : path.head?.any (isSlash (isSpecial scheme)) = true := by simp [hslash, isSlash]
      rw [partsOf_eq hscheme' hfound', hhash, hcut, hfragment, hmark, cut_snd_append hfirst]
      by_cases hempty : query = []
      · simp [Parts.behind, hempty]
      · simp [Parts.behind, hempty]
    · obtain ⟨c, marked, hc⟩ := List.exists_cons_of_ne_nil hmark
      have hcut : cut (· == '?') (rest ++ target path query) =
          ((cut (· == '?') rest).1, c :: (marked ++ target path query)) := by
        rw [cut_append hmark, hc]
        rfl
      have hfound' : behindSlashes scheme (cut (· == '?')
          (cut (· == '#') (rest ++ target path query)).1).1 = some found := by
        rw [hhash, hcut]
        exact hfound
      rw [partsOf_eq hscheme' hfound', hhash, hcut, hfragment, hc]
      rfl
  · obtain ⟨c, fragment, hc⟩ := List.exists_cons_of_ne_nil hfragment
    have hcut : cut (· == '#') (rest ++ target path query) =
        ((cut (· == '#') rest).1, c :: (fragment ++ target path query)) := by
      rw [cut_append hfragment, hc]
      rfl
    have hfound' : behindSlashes scheme (cut (· == '?')
        (cut (· == '#') (rest ++ target path query)).1).1 = some found := by
      rw [hcut]
      exact hfound
    rw [partsOf_eq hscheme' hfound', hcut, hc]
    rfl

/-- A path and a query are asked for. -/
def Parts.Asks (p : Parts) (path query : List Char) : Prop :=
  p.path = path ∧ p.query.getD [] = query

/-- A URL that ends with its host. -/
def Parts.IsBare (p : Parts) : Prop := p.path = [] ∧ p.query = none ∧ p.fragment = none

/-- What is written behind a URL is asked for just if the URL ends with its host, or has a fragment
and asks for the same itself. -/
theorem Parts.asks_behind (p : Parts) (hslash : path.head? = some '/') (hquery : '/' ∉ query) :
    (p.behind path query).Asks path query ↔
      p.IsBare ∨ p.fragment ≠ none ∧ p.Asks path query := by
  obtain ⟨found, marked, fragment⟩ := p
  cases fragment with
  | some fragment => simp [behind, Asks, IsBare]
  | none =>
    cases marked with
    | some marked =>
      have hmore : marked ++ target path query ≠ query := by
        intro h
        rw [← h] at hquery
        exact hquery (List.mem_append_right _ (slash_mem_target hslash))
      simp [behind, Asks, IsBare, hmore]
    | none =>
      by_cases hempty : query = []
      · simp [behind, Asks, IsBare, hempty]
      · simp [behind, Asks, IsBare, hempty]

end Behind

/-! ## Texts -/

/-- Blanks around a URL do not count. -/
def isMargin (c : Char) : Bool := decide (c.toNat ≤ 0x20)

/-- Line breaks and tabs in a URL do not count. -/
def counts (c : Char) : Bool := !(c == '\t' || c == '\n' || c == '\r')

/-- What counts of a text that a URL begins with; blanks at its end are inside that URL. -/
def begun (s : String) : List Char := (s.toList.dropWhile isMargin).filter counts

theorem exists_begun (s : String) : ∃ t, begun s = relevant s ++ t := by
  generalize hfront : s.toList.dropWhile isMargin = front
  have hparts := List.takeWhile_append_dropWhile (p := isMargin) (l := front.reverse)
  have hfront' := congrArg List.reverse hparts
  rw [List.reverse_append, List.reverse_reverse] at hfront'
  refine ⟨(front.reverse.takeWhile isMargin).reverse.filter counts, ?_⟩
  have hrelevant : relevant s = (front.reverse.dropWhile isMargin).reverse.filter counts := by
    rw [← hfront]
    rfl
  rw [begun, hfront, hrelevant, ← List.filter_append, hfront']

/-- A text that no blanks are in counts as it is behind another one. -/
theorem relevant_append {t : String} (hs : relevant s ≠ []) (hne : t.toList ≠ [])
    (ht : ∀ c ∈ t.toList, 0x20 < c.toNat) : relevant (s ++ t) = begun s ++ t.toList := by
  have hfront : s.toList.dropWhile isMargin ≠ [] := by
    intro h
    refine hs ?_
    change ((s.toList.dropWhile isMargin).reverse.dropWhile isMargin).reverse.filter counts = []
    rw [h]
    rfl
  have hmargin : ∀ c ∈ t.toList, isMargin c = false := fun c hc =>
    decide_eq_false (Nat.not_le.2 (ht c hc))
  have hcounts : ∀ c ∈ t.toList, counts c = true := by
    intro c hc
    have hgt := ht c hc
    simp only [counts, Bool.not_eq_true', Bool.or_eq_false_iff, beq_eq_false_iff_ne]
    refine ⟨⟨?_, ?_⟩, ?_⟩
    all_goals
      rintro rfl
      exact absurd hgt (by decide)
  have hlast : (t.toList.reverse).dropWhile isMargin = t.toList.reverse := by
    obtain ⟨c, more, hc⟩ := List.exists_cons_of_ne_nil (List.reverse_ne_nil_iff.2 hne)
    rw [hc, List.dropWhile_cons_of_neg]
    rw [hmargin c (List.mem_reverse.1 (hc ▸ List.mem_cons_self))]
    exact Bool.false_ne_true
  change (((s ++ t).toList.dropWhile isMargin).reverse.dropWhile isMargin).reverse.filter counts = _
  rw [String.toList_append, List.dropWhile_append, if_neg (by rwa [List.isEmpty_iff]),
    List.reverse_append, List.dropWhile_append, hlast, if_neg, List.reverse_append,
    List.reverse_reverse, List.reverse_reverse, List.filter_append, List.filter_eq_self.2 hcounts]
  · rfl
  · rw [List.isEmpty_iff]
    exact List.reverse_ne_nil_iff.2 hne

/-- Path, query and fragment of a URL as they are written. -/
def parts (s : String) : Option Parts := (partsOf (relevant s)).map (·.2)

/-- Path, query and fragment are read from these parts, with dots resolved and encoded. -/
theorem exists_parts_of_parse (h : parse s = .ok u) (hhost : u.hostText ≠ none) :
    ∃ p, parts s = some p ∧
      u.path = resolvedPath (isSpecial u.scheme) p.path ∧
      u.query = p.query.map (encodeWhere (inQuery (isSpecial u.scheme))) ∧
      u.fragment = p.fragment.map (encodeWhere inFragment) := by
  obtain ⟨scheme, rest, found, v, hscheme, hfound, hv, -, rfl⟩ := exists_behindSlashes h hhost
  obtain ⟨rfl, hpath⟩ := path_of_ofAuthority hv
  have hparts := partsOf_eq hscheme hfound
  exact ⟨_, by rw [parts, hparts]; rfl, hpath, rfl, rfl⟩

/-- Path, query and fragment of the text that a URL begins with. -/
def partsBegun (s : String) : Option Parts := (partsOf (begun s)).map (·.2)

/-- In a URL a path and a query are written behind the parts of an endpoint. The URL asks for just
these if the endpoint ends with its host; otherwise it does only if the endpoint has a fragment,
which then takes them in, and asks for the same itself. -/
def WrittenBehind (endpoint url path query : String) : Prop :=
  ∃ p, partsBegun endpoint = some p ∧
    parts url = some (p.behind path.toList query.toList) ∧
    ((p.behind path.toList query.toList).Asks path.toList query.toList ↔
      p.IsBare ∨ p.fragment ≠ none ∧ p.Asks path.toList query.toList)

theorem WrittenBehind.asks_iff {endpoint url path query : String} {p : Parts}
    (h : WrittenBehind endpoint url path query) (hp : partsBegun endpoint = some p) :
    (∃ sent, parts url = some sent ∧ sent.Asks path.toList query.toList) ↔
      p.IsBare ∨ p.fragment ≠ none ∧ p.Asks path.toList query.toList := by
  obtain ⟨found, hfound, hsent, hasks⟩ := h
  obtain rfl : found = p := Option.some.inj (hfound.symm.trans hp)
  rw [hsent, ← hasks]
  simp

/-- Path and query as a text. -/
def targetText (path query : String) : String :=
  path ++ if query.isEmpty then "" else "?" ++ query

theorem toList_targetText (path query : String) :
    (targetText path query).toList = target path.toList query.toList := by
  rw [targetText, String.toList_append, target]
  congr 1
  by_cases h : query = ""
  · simp [h]
  · simp [h, String.isEmpty_iff, String.toList_eq_nil_iff]

theorem writtenBehind {path query : String} (h : parse s = .ok u) (hhost : u.hostText ≠ none)
    (hslash : path.toList.head? = some '/')
    (hpath : ∀ c ∈ path.toList, 0x20 < c.toNat ∧ c ≠ '#' ∧ c ≠ '?')
    (hquery : ∀ c ∈ query.toList, 0x20 < c.toNat ∧ c ≠ '#' ∧ c ≠ '/') :
    WrittenBehind s (s ++ targetText path query) path query := by
  have hhosted := hosted_of_parse h hhost
  obtain ⟨blanks, hbegun⟩ := exists_begun s
  have ht := toList_targetText path query
  have hrelevant : relevant (s ++ targetText path query) =
      begun s ++ target path.toList query.toList := by
    rw [← ht]
    refine relevant_append hhosted.ne_nil ?_ ?_
    · rw [ht]
      exact List.ne_nil_of_mem (slash_mem_target hslash)
    · rw [ht]
      exact forall_mem_target (fun c hc => (hpath c hc).1) fun c hc => (hquery c hc).1
  obtain ⟨scheme, p, hfront, hwhole⟩ := partsOf_append (hbegun ▸ hhosted.append blanks) hslash
    ⟨fun hc => (hpath _ hc).2.1 rfl, fun hc => (hpath _ hc).2.2 rfl⟩
    fun hc => (hquery _ hc).2.1 rfl
  refine ⟨p, ?_, ?_, p.asks_behind hslash fun hc => (hquery _ hc).2.2 rfl⟩
  · rw [partsBegun, hfront]
    rfl
  · rw [parts, hrelevant, hwhole]
    rfl

end BucketTransfer.Url
