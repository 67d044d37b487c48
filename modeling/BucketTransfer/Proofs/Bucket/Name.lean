import BucketTransfer.Proofs.Text.Values
import BucketTransfer.Proofs.Utf8
import BucketTransfer.Bucket.Name
import Mathlib.Data.List.Basic

/-!
# Names that are allowed

The checks of a name look at its length, its characters, its ends and its neighbours one after the
other. Together they say what a grammar says: labels with dots between them, each a run of small
letters, digits and hyphens with a letter or a digit at both ends, and not four of them that are the
numbers of an address. No character of a name has a meaning in a policy or in a path.
-/
namespace BucketTransfer.Bucket

/-- What may stand between the dots of a name. -/
structure IsLabel (cs : List Char) : Prop where
  ne_nil : cs ≠ []
  allowed : ∀ c ∈ cs, isLetterOrDigit c ∨ c = '-'
  first : ∀ c ∈ cs.head?, isLetterOrDigit c
  last : ∀ c ∈ cs.getLast?, isLetterOrDigit c

/-- Four numbers of a byte each, written without leading zeros and with dots between them. -/
def IsDottedQuad (name : String) : Prop :=
  ∃ a b c d : Nat, (a ≤ 255 ∧ b ≤ 255 ∧ c ≤ 255 ∧ d ≤ 255) ∧ name = s!"{a}.{b}.{c}.{d}"

variable {name : String} {c : Char} {cs xs ys : List Char}

section Labels

/-- What is asked of a name whose characters are allowed. -/
private structure Joined (cs : List Char) : Prop where
  ne_nil : cs ≠ []
  first : ∀ c ∈ cs.head?, isLetterOrDigit c
  last : ∀ c ∈ cs.getLast?, isLetterOrDigit c
  apart : hasAdjacent cs = false

/-- The characters that a name may hold. -/
private def Allowed (cs : List Char) : Prop := ∀ c ∈ cs, isLetterOrDigit c ∨ c = '-' ∨ c = '.'

private theorem ne_of_isLetterOrDigit (h : isLetterOrDigit c) : c ≠ '.' ∧ c ≠ '-' := by
  constructor
  · rintro rfl
    exact absurd h (by decide)
  · rintro rfl
    exact absurd h (by decide)

private theorem hasAdjacent_of_not_mem (h : '.' ∉ cs) : hasAdjacent cs = false := by
  induction cs with
  | nil => rfl
  | cons a cs ih =>
    have hrest := ih (List.not_mem_of_not_mem_cons h)
    cases cs with
    | nil => rfl
    | cons b cs =>
      have ha : a ≠ '.' := (List.ne_of_not_mem_cons h).symm
      have hb : b ≠ '.' := (List.ne_of_not_mem_cons (List.not_mem_of_not_mem_cons h)).symm
      simp [hasAdjacent, hrest, ha, hb]

/-- The neighbours of the first dot decide about it, and what is behind it about the others. -/
private theorem hasAdjacent_append_cons (h : '.' ∉ xs) :
    hasAdjacent (xs ++ '.' :: ys) = false ↔
      (∀ c ∈ xs.getLast?, c ≠ '-') ∧ (∀ c ∈ ys.head?, c ≠ '.' ∧ c ≠ '-') ∧
        hasAdjacent ys = false := by
  induction xs with
  | nil => cases ys <;> simp [hasAdjacent, and_assoc]
  | cons a xs ih =>
    have ha : a ≠ '.' := (List.ne_of_not_mem_cons h).symm
    cases xs with
    | nil => cases ys <;> simp [hasAdjacent, ha, and_assoc]
    | cons b xs =>
      have hrest := ih (List.not_mem_of_not_mem_cons h)
      have hb : b ≠ '.' := (List.ne_of_not_mem_cons (List.not_mem_of_not_mem_cons h)).symm
      rw [List.getLast?_cons_cons, ← hrest]
      simp [hasAdjacent, ha, hb]

private theorem joined_iff_of_not_mem (hcs : Allowed cs) (h : '.' ∉ cs) :
    Joined cs ↔ IsLabel cs := by
  constructor
  · rintro ⟨hne, hfirst, hlast, -⟩
    refine ⟨hne, fun c hc => ?_, hfirst, hlast⟩
    rcases hcs c hc with hletter | rfl | rfl
    · exact .inl hletter
    · exact .inr rfl
    · exact absurd hc h
  · rintro ⟨hne, -, hfirst, hlast⟩
    exact ⟨hne, hfirst, hlast, hasAdjacent_of_not_mem h⟩

private theorem joined_append_cons (hcs : Allowed (xs ++ '.' :: ys)) (h : '.' ∉ xs) :
    Joined (xs ++ '.' :: ys) ↔ IsLabel xs ∧ Joined ys := by
  obtain ⟨hxs, hys⟩ := List.forall_mem_append.1 hcs
  have hys := (List.forall_mem_cons.1 hys).2
  have hdot : isLetterOrDigit '.' = false := by decide
  constructor
  · rintro ⟨-, hfirst, hlast, happart⟩
    obtain ⟨hbefore, hafter, hrest⟩ := (hasAdjacent_append_cons h).1 happart
    have hxne : xs ≠ [] := by
      rintro rfl
      exact absurd (hfirst '.' rfl) (by simp [hdot])
    have hyne : ys ≠ [] := by
      rintro rfl
      exact absurd (hlast '.' (by simp)) (by simp [hdot])
    have hjoined : Joined ys := by
      refine ⟨hyne, fun c hc => ?_, fun c hc => hlast c ?_, hrest⟩
      · rcases hys c (List.mem_of_mem_head? hc) with hletter | rfl | rfl
        · exact hletter
        · exact absurd rfl (hafter _ hc).2
        · exact absurd rfl (hafter _ hc).1
      · rwa [List.getLast?_append_cons, List.getLast?_cons_of_ne_nil hyne]
    refine ⟨(joined_iff_of_not_mem hxs h).1 ⟨hxne, fun c hc => hfirst c ?_, fun c hc => ?_,
      hasAdjacent_of_not_mem h⟩, hjoined⟩
    · rwa [List.head?_append_of_ne_nil _ hxne]
    · have hmem := List.mem_of_mem_getLast? hc
      rcases hxs c hmem with hletter | rfl | rfl
      · exact hletter
      · exact absurd rfl (hbefore _ hc)
      · exact absurd hmem h
  · rintro ⟨hlabel, hjoined⟩
    refine ⟨by simp, fun c hc => hlabel.first c ?_, fun c hc => hjoined.last c ?_,
      (hasAdjacent_append_cons h).2 ⟨fun c hc => ?_, fun c hc => ?_, hjoined.apart⟩⟩
    · rwa [List.head?_append_of_ne_nil _ hlabel.ne_nil] at hc
    · rwa [List.getLast?_append_cons, List.getLast?_cons_of_ne_nil hjoined.ne_nil] at hc
    · exact (ne_of_isLetterOrDigit (hlabel.last c hc)).2
    · exact ne_of_isLetterOrDigit (hjoined.first c hc)

private theorem IsLabel.allowed_of_mem (h : IsLabel cs) : Allowed cs :=
  fun c hc => (h.allowed c hc).elim .inl fun hhyphen => .inr (.inl hhyphen)

/-- The characters, the ends and the neighbours of a name are in order exactly if all that stands
between its dots are labels. -/
private theorem joined_iff :
    Allowed cs ∧ Joined cs ↔ ∀ label ∈ cs.splitOn '.', IsLabel label := by
  -- by what is left behind the first dot
  induction hlength : cs.length using Nat.strongRecOn generalizing cs with
  | ind length ih =>
    by_cases h : '.' ∈ cs
    · obtain ⟨xs, ys, rfl, hxs⟩ := List.eq_append_cons_of_mem h
      have hshorter : ys.length < length := by
        simp only [List.length_append, List.length_cons] at hlength
        omega
      rw [List.splitOn_append_cons_self_of_not_mem hxs, List.forall_mem_cons,
        ← ih ys.length hshorter rfl]
      constructor
      · rintro ⟨hcs, hjoined⟩
        obtain ⟨hlabel, hrest⟩ := (joined_append_cons hcs hxs).1 hjoined
        exact ⟨hlabel, (List.forall_mem_cons.1 (List.forall_mem_append.1 hcs).2).2, hrest⟩
      · rintro ⟨hlabel, hys, hrest⟩
        have hcs : Allowed (xs ++ '.' :: ys) := List.forall_mem_append.2
          ⟨hlabel.allowed_of_mem, List.forall_mem_cons.2 ⟨.inr (.inr rfl), hys⟩⟩
        exact ⟨hcs, (joined_append_cons hcs hxs).2 ⟨hlabel, hrest⟩⟩
    · rw [List.splitOn_eq_singleton h, List.forall_mem_singleton]
      constructor
      · rintro ⟨hcs, hjoined⟩
        exact (joined_iff_of_not_mem hcs h).1 hjoined
      · intro hlabel
        exact ⟨hlabel.allowed_of_mem, (joined_iff_of_not_mem hlabel.allowed_of_mem h).2 hlabel⟩

end Labels

section Addresses

private theorem isOctet_toString : ∀ n : Fin 256, isOctet (Nat.toDigits 10 n.val) = true := by
  decide +kernel

/-- The numbers that a byte can have are written in one way. -/
private theorem isOctet_iff : isOctet cs = true ↔ ∃ n ≤ 255, cs = (toString n).toList := by
  constructor
  · intro h
    rw [isOctet.eq_def] at h
    split at h
    · exact absurd h (by simp)
    · exact ⟨0, by decide, rfl⟩
    · rename_i c cs _
      simp only [Bool.and_eq_true, bne_iff_ne, ne_eq, List.all_eq_true, decide_eq_true_eq] at h
      obtain ⟨⟨⟨hfirst, hdigits⟩, -⟩, hread⟩ := h
      rw [Text.readUnsigned_of_isDigit hdigits (List.cons_ne_nil c cs)] at hread
      split at hread
      · rename_i hlimit
        refine ⟨_, hlimit, ?_⟩
        rw [Nat.toString_eq_repr, Nat.toList_repr,
          Text.toDigits_ofDigitChars hdigits ⟨c, rfl, hfirst⟩]
      · exact absurd hread (by simp [Except.isOk, Except.toBool])
  · rintro ⟨n, hn, rfl⟩
    rw [Nat.toString_eq_repr, Nat.toList_repr]
    exact isOctet_toString ⟨n, by omega⟩

private theorem toList_quad (a b c d : Nat) :
    s!"{a}.{b}.{c}.{d}".toList =
      ['.'].intercalate [(toString a).toList, (toString b).toList, (toString c).toList,
        (toString d).toList] := by
  simp [String.toList_append, List.intercalate, List.intersperse, toString]

private theorem isIpAddress_iff : isIpAddress name.toList = true ↔ IsDottedQuad name := by
  rw [isIpAddress, Bool.and_eq_true, beq_iff_eq, List.length_eq_four, List.all_eq_true]
  constructor
  · rintro ⟨⟨w, x, y, z, hparts⟩, hoctets⟩
    rw [hparts] at hoctets
    obtain ⟨a, ha, rfl⟩ := isOctet_iff.1 (hoctets w (by simp))
    obtain ⟨b, hb, rfl⟩ := isOctet_iff.1 (hoctets x (by simp))
    obtain ⟨c, hc, rfl⟩ := isOctet_iff.1 (hoctets y (by simp))
    obtain ⟨d, hd, rfl⟩ := isOctet_iff.1 (hoctets z (by simp))
    refine ⟨a, b, c, d, ⟨ha, hb, hc, hd⟩, String.toList_injective ?_⟩
    rw [toList_quad, ← hparts, List.intercalate_splitOn]
  · rintro ⟨a, b, c, d, ⟨ha, hb, hc, hd⟩, rfl⟩
    have hdot : ∀ n, '.' ∉ (toString (n : Nat)).toList := fun n hmem =>
      absurd (Text.isDigit_of_mem hmem) (by decide)
    rw [toList_quad, List.splitOn_intercalate '.' _ (List.cons_ne_nil _ _)]
    · refine ⟨⟨_, _, _, _, rfl⟩, ?_⟩
      simp only [List.forall_mem_cons, isOctet_iff]
      exact ⟨⟨a, ha, rfl⟩, ⟨b, hb, rfl⟩, ⟨c, hc, rfl⟩, ⟨d, hd, rfl⟩, List.forall_mem_nil _⟩
    · simp only [List.forall_mem_cons, hdot]
      exact ⟨id, id, id, id, List.forall_mem_nil _⟩

end Addresses

section Names

private theorem allowed_iff :
    (cs.all fun c => isLetterOrDigit c || c == '-' || c == '.') = true ↔ Allowed cs := by
  simp [Allowed, or_assoc]

private theorem edges_iff (hcs : cs ≠ []) :
    ((cs.head?.any isLetterOrDigit) && (cs.getLast?.any isLetterOrDigit)) = true ↔
      (∀ c ∈ cs.head?, isLetterOrDigit c) ∧ ∀ c ∈ cs.getLast?, isLetterOrDigit c := by
  obtain ⟨c, cs, rfl⟩ := List.exists_cons_of_ne_nil hcs
  simp [List.getLast?_cons]

/-- A name without a fault passes every check. -/
private theorem nameFault?_eq_none :
    nameFault? name = none ↔
      ¬(name.utf8ByteSize < 3 ∨ 63 < name.utf8ByteSize) ∧
        (name.toList.all fun c => isLetterOrDigit c || c == '-' || c == '.') = true ∧
        ((name.toList.head?.any isLetterOrDigit) &&
          (name.toList.getLast?.any isLetterOrDigit)) = true ∧
        hasAdjacent name.toList = false ∧ isIpAddress name.toList = false := by
  simp only [nameFault?, ite_eq_iff, reduceCtorEq, and_false, false_or, and_true, Bool.or_eq_true,
    decide_eq_true_eq, Bool.not_eq_true', Bool.not_eq_false, Bool.not_eq_true]

private theorem toList_ne_nil (h : 3 ≤ name.utf8ByteSize) : name.toList ≠ [] := by
  intro hnil
  rw [String.toList_eq_nil_iff] at hnil
  subst hnil
  exact absurd h (by decide)

private theorem accepted_iff :
    nameFault? name = none ↔
      3 ≤ name.utf8ByteSize ∧ name.utf8ByteSize ≤ 63 ∧
        (∀ label ∈ name.toList.splitOn '.', IsLabel label) ∧ ¬IsDottedQuad name := by
  rw [nameFault?_eq_none, not_or, Nat.not_lt, Nat.not_lt, allowed_iff, ← joined_iff,
    ← isIpAddress_iff, Bool.not_eq_true]
  constructor
  · rintro ⟨⟨hmin, hmax⟩, hallowed, hedges, hadjacent, haddress⟩
    have hcs := toList_ne_nil hmin
    obtain ⟨hfirst, hlast⟩ := (edges_iff hcs).1 hedges
    exact ⟨hmin, hmax, ⟨hallowed, hcs, hfirst, hlast, hadjacent⟩, haddress⟩
  · rintro ⟨hmin, hmax, ⟨hallowed, hcs, hfirst, hlast, hadjacent⟩, haddress⟩
    exact ⟨⟨hmin, hmax⟩, hallowed, (edges_iff hcs).2 ⟨hfirst, hlast⟩, hadjacent, haddress⟩

/-- A name is accepted exactly if it is three to sixty-three bytes of labels with dots between them
and no address. Every other name is refused, and the bytes at the ends of a name are looked at only
where there are some. -/
theorem checkName_grammar (name : String) :
    (checkName name = .ok () ↔
      3 ≤ name.utf8ByteSize ∧ name.utf8ByteSize ≤ 63 ∧
        (∀ label ∈ name.toList.splitOn '.', IsLabel label) ∧ ¬IsDottedQuad name) ∧
    (checkName name = .ok () ∨ ∃ fault, checkName name = .error ⟨name, fault⟩) ∧
    (nameFault? name = some .length ∨
      ∃ first last, (utf8 name)[0]? = some first ∧
        (utf8 name)[name.utf8ByteSize - 1]? = some last) := by
  refine ⟨?_, ?_, ?_⟩
  · rw [← accepted_iff, checkName]
    cases nameFault? name <;> simp
  · rw [checkName]
    cases nameFault? name with
    | none => exact .inl rfl
    | some fault => exact .inr ⟨fault, rfl⟩
  · by_cases hlength : name.utf8ByteSize < 3 ∨ 63 < name.utf8ByteSize
    · refine .inl ?_
      rw [nameFault?, if_pos (by simpa using hlength)]
    · have hfirst : 0 < (utf8 name).length := by rw [length_utf8]; omega
      have hlast : name.utf8ByteSize - 1 < (utf8 name).length := by rw [length_utf8]; omega
      exact .inr ⟨_, _, List.getElem?_eq_getElem hfirst, List.getElem?_eq_getElem hlast⟩

end Names

section Characters

/-- A bucket name is made of small letters, digits, hyphens and dots. -/
theorem mem_of_checkName (h : checkName name = .ok ()) {ch : Char}
    (hch : ch ∈ name.toList) :
    ('a' ≤ ch ∧ ch ≤ 'z') ∨ ('0' ≤ ch ∧ ch ≤ '9') ∨ ch = '-' ∨ ch = '.' := by
  rw [checkName] at h
  split at h
  · rename_i hfault
    simp only [nameFault?] at hfault
    split at hfault
    · exact absurd hfault (by simp)
    · split at hfault
      · exact absurd hfault (by simp)
      · rename_i hall
        simp only [Bool.not_eq_true', Bool.not_eq_false, List.all_eq_true] at hall
        simpa [isLetterOrDigit, or_assoc] using hall ch hch
  · exact absurd h (by simp)

theorem slash_not_mem (h : checkName name = .ok ()) : '/' ∉ name.toList :=
  fun hslash => absurd (mem_of_checkName h hslash) (by decide)

end Characters

end BucketTransfer.Bucket
