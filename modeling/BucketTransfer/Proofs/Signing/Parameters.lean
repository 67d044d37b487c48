import BucketTransfer.Proofs.Signing.Carried
import BucketTransfer.Proofs.Text.Percent

/-!
# Canonical queries are read back

A canonical query does not depend on the order of the parameters and loses nothing else: its pieces
are the encoded parameters in order, since no separator survives the encoding.
-/
namespace BucketTransfer.Signing
variable {parameters others : List (String × String)}

/-- A parameter with its key and its value encoded. -/
def encodePair (p : String × String) : String × String :=
  (Text.percentEncode p.1, Text.percentEncode p.2)

def decodePair (p : String × String) : Option (String × String) := do
  let key ← Text.percentDecode p.1
  let value ← Text.percentDecode p.2
  some (key, value)

theorem decodePair_encodePair (p : String × String) : decodePair (encodePair p) = some p := by
  rw [decodePair, encodePair, Text.percentDecode_percentEncode, Text.percentDecode_percentEncode]
  rfl

theorem encodePair_injective : Function.Injective encodePair :=
  injective_of_read_back decodePair_encodePair

/-! ## The order of pairs -/

/-- Pairs in order: by the key, and by the value if it is the same. -/
def PairLe (p q : String × String) : Prop := p.1 < q.1 ∨ p.1 = q.1 ∧ p.2 ≤ q.2

theorem pairLe_iff {p q : String × String} : pairLe p q = true ↔ PairLe p q := by
  rw [pairLe, PairLe, Bool.or_eq_true, Bool.and_eq_true, decide_eq_true_eq, beq_iff_eq,
    not_decide_lt_iff]

theorem PairLe.trans {p q r : String × String} (hpq : PairLe p q) (hqr : PairLe q r) :
    PairLe p r := by
  rcases hpq with hpq | ⟨hpq, hpq'⟩
  · rcases hqr with hqr | ⟨hqr, -⟩
    · exact .inl (String.lt_trans hpq hqr)
    · exact .inl (hqr ▸ hpq)
  · rcases hqr with hqr | ⟨hqr, hqr'⟩
    · exact .inl (hpq ▸ hqr)
    · exact .inr ⟨hpq.trans hqr, String.le_trans hpq' hqr'⟩

theorem PairLe.total (p q : String × String) : PairLe p q ∨ PairLe q p := by
  by_cases hlt : p.1 < q.1
  · exact .inl (.inl hlt)
  · by_cases hgt : q.1 < p.1
    · exact .inr (.inl hgt)
    · have hsame : p.1 = q.1 := String.le_antisymm (String.not_lt.1 hgt) (String.not_lt.1 hlt)
      exact (String.le_total p.2 q.2).imp (fun hle => .inr ⟨hsame, hle⟩)
        fun hle => .inr ⟨hsame.symm, hle⟩

theorem PairLe.antisymm {p q : String × String} (hpq : PairLe p q) (hqp : PairLe q p) : p = q := by
  have hirrefl := String.lt_irrefl p.1
  rcases hpq with hpq | ⟨hpq, hpq'⟩
  · rcases hqp with hqp | ⟨hqp, -⟩
    · exact absurd (String.lt_trans hpq hqp) hirrefl
    · exact absurd (hqp ▸ hpq) hirrefl
  · rcases hqp with hqp | ⟨-, hqp'⟩
    · exact absurd (hpq ▸ hqp) hirrefl
    · exact Prod.ext hpq (String.le_antisymm hpq' hqp')

/-- The encoded parameters in order. -/
def encodedPairs (parameters : List (String × String)) : List (String × String) :=
  (parameters.map encodePair).mergeSort pairLe

theorem pairwise_encodedPairs (parameters : List (String × String)) :
    (encodedPairs parameters).Pairwise PairLe := by
  refine (List.pairwise_mergeSort (fun p q r hpq hqr => ?_) (fun p q => ?_)
    (parameters.map encodePair)).imp fun hpq => pairLe_iff.1 hpq
  · exact pairLe_iff.2 ((pairLe_iff.1 hpq).trans (pairLe_iff.1 hqr))
  · rw [Bool.or_eq_true, pairLe_iff, pairLe_iff]
    exact PairLe.total p q

theorem encodedPairs_perm (parameters : List (String × String)) :
    (encodedPairs parameters).Perm (parameters.map encodePair) :=
  List.mergeSort_perm _ _

theorem exists_encodedPairs (parameters : List (String × String)) :
    ∃ decoded : List (String × String),
      encodedPairs parameters = decoded.map encodePair ∧ decoded.Perm parameters :=
  ⟨parameters.mergeSort fun p q => pairLe (encodePair p) (encodePair q),
    (List.map_mergeSort (f := encodePair) fun _ _ _ _ => rfl).symm, List.mergeSort_perm _ _⟩

theorem encodedPairs_eq_iff : encodedPairs parameters = encodedPairs others ↔
    parameters.Perm others := by
  constructor
  · intro h
    have hperm := (encodedPairs_perm parameters).symm.trans (h ▸ encodedPairs_perm others)
    exact (List.map_perm_map_iff encodePair_injective).1 hperm
  · intro h
    refine List.Perm.eq_of_pairwise (fun p q _ _ => PairLe.antisymm)
      (pairwise_encodedPairs parameters) (pairwise_encodedPairs others) ?_
    exact (encodedPairs_perm parameters).trans
      ((h.map encodePair).trans (encodedPairs_perm others).symm)

/-! ## The pieces of a query -/

/-- A pair as it stands in a query. -/
def joinPair (p : String × String) : String := p.1 ++ "=" ++ p.2

/-- The pairs that stand in a query: its pieces between ampersands, each with one equals sign. -/
def piecesOf (query : String) : Option (List (String × String)) :=
  if query = "" then some []
  else (Text.split '&' query.toList).mapM fun piece =>
    match Text.split '=' piece with
    | [key, value] => some (String.ofList key, String.ofList value)
    | _ => none

theorem canonicalQuery_eq (parameters : List (String × String)) :
    canonicalQuery parameters = "&".intercalate ((encodedPairs parameters).map joinPair) := rfl

/-- No separator is in an encoded text. -/
theorem not_mem_percentEncode {c : Char} (hc : isEncoded c = false) (s : String) :
    c ∉ (Text.percentEncode s).toList :=
  fun h => ne_of_isEncoded (isEncoded_of_percentEncode h) hc rfl

theorem split_joinPair (p : String × String) :
    Text.split '=' (joinPair (encodePair p)).toList =
      [(Text.percentEncode p.1).toList, (Text.percentEncode p.2).toList] := by
  have hjoined : (joinPair (encodePair p)).toList =
      (Text.percentEncode p.1).toList ++ '=' :: (Text.percentEncode p.2).toList := by
    simp [joinPair, encodePair]
  rw [hjoined, Text.split_append_cons (not_mem_percentEncode (by decide) p.1),
    Text.split_of_not_mem (not_mem_percentEncode (by decide) p.2)]

theorem ampersand_not_mem_joinPair (p : String × String) :
    '&' ∉ (joinPair (encodePair p)).toList := by
  rw [joinPair, String.toList_append, String.toList_append, List.mem_append, List.mem_append]
  rintro ((h | h) | h)
  · exact not_mem_percentEncode (by decide) p.1 h
  · exact absurd h (by decide)
  · exact not_mem_percentEncode (by decide) p.2 h

theorem encodedPairs_ne_nil (hne : parameters ≠ []) : encodedPairs parameters ≠ [] := by
  intro hnil
  have hlength := (encodedPairs_perm parameters).length_eq
  rw [hnil, List.length_map, List.length_nil] at hlength
  exact hne (List.length_eq_zero_iff.1 hlength.symm)

theorem canonicalQuery_nil : canonicalQuery [] = "" := by simp [canonicalQuery]

theorem canonicalQuery_ne_empty (hne : parameters ≠ []) : canonicalQuery parameters ≠ "" := by
  obtain ⟨p, hp⟩ := List.exists_mem_of_ne_nil _ (encodedPairs_ne_nil hne)
  have hequals : '=' ∈ (joinPair p).toList := by simp [joinPair]
  intro hempty
  have hmem : '=' ∈ (canonicalQuery parameters).toList :=
    Text.mem_intercalate_of_mem (List.mem_map_of_mem hp) hequals
  rw [hempty] at hmem
  exact absurd hmem List.not_mem_nil

theorem piecesOf_canonicalQuery (parameters : List (String × String)) :
    piecesOf (canonicalQuery parameters) = some (encodedPairs parameters) := by
  obtain ⟨decoded, hencoded, -⟩ := exists_encodedPairs parameters
  by_cases hnone : parameters = []
  · have hnil : encodedPairs [] = [] := by simp [encodedPairs]
    rw [hnone, canonicalQuery_nil, hnil]
    rfl
  · -- No piece holds an ampersand, so the text is split where it was joined.
    have hsplit : Text.split '&' (canonicalQuery parameters).toList =
        (encodedPairs parameters).map fun p => (joinPair p).toList := by
      rw [canonicalQuery_eq, String.toList_intercalate, List.map_map]
      refine Text.split_intercalate (by simpa using encodedPairs_ne_nil hnone) ?_
      rw [hencoded, List.map_map, List.forall_mem_map]
      exact fun p _ => ampersand_not_mem_joinPair p
    rw [piecesOf, if_neg (canonicalQuery_ne_empty hnone), hsplit]
    refine mapM_map_eq_some fun p hp => ?_
    rw [hencoded] at hp
    obtain ⟨q, -, rfl⟩ := List.mem_map.1 hp
    rw [split_joinPair]
    simp [encodePair]

/-- Two lists of parameters have one canonical query exactly if one is the other in another order;
that of no parameters, and no other, is empty. The pieces of a canonical query are pairs in order,
by the key and then by the value, and what they stand for are the parameters. -/
theorem canonicalQuery_faithful (parameters : List (String × String)) :
    (∀ others, canonicalQuery parameters = canonicalQuery others ↔ parameters.Perm others) ∧
      (canonicalQuery parameters = "" ↔ parameters = []) ∧
      ∃ pieces, piecesOf (canonicalQuery parameters) = some pieces ∧ pieces.Pairwise PairLe ∧
        ∃ decoded, pieces = decoded.map encodePair ∧ pieces.mapM decodePair = some decoded ∧
          decoded.Perm parameters := by
  have hpieces := piecesOf_canonicalQuery parameters
  refine ⟨fun others => ⟨fun h => ?_, fun h => ?_⟩, ⟨fun h => ?_, fun h => ?_⟩,
    encodedPairs parameters, hpieces, pairwise_encodedPairs parameters, ?_⟩
  · rw [h, piecesOf_canonicalQuery] at hpieces
    exact encodedPairs_eq_iff.1 (Option.some.inj hpieces).symm
  · rw [canonicalQuery_eq, canonicalQuery_eq, encodedPairs_eq_iff.2 h]
  · exact Decidable.by_contra fun hne => canonicalQuery_ne_empty hne h
  · rw [h, canonicalQuery_nil]
  · obtain ⟨decoded, hencoded, hperm⟩ := exists_encodedPairs parameters
    refine ⟨decoded, hencoded, ?_, hperm⟩
    rw [hencoded]
    exact mapM_map_eq_some fun p _ => decodePair_encodePair p

example : canonicalQuery [("prefix", "a=b&c d")] = "prefix=a%3Db%26c%20d" := by decide +kernel

end BucketTransfer.Signing
