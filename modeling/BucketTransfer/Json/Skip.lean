import BucketTransfer.Json.Scan

/-!
# Skipping JSON

The text of a value that nobody asks for. Containers may be nested to any depth, and the characters
of strings are not looked at.
-/
namespace BucketTransfer.Json

theorem length_of_dropSpace {input rest : Bytes} {b : UInt8} (h : dropSpace input = b :: rest) :
    rest.length < input.length := by
  have := length_dropSpace input
  simp only [h, List.length_cons] at this
  omega

inductive Container where
  | array
  | object
  deriving DecidableEq, Repr

def Container.closing : Container → UInt8
  | .array => ascii ']'
  | .object => ascii '}'

def Container.opening? (b : UInt8) : Option Container :=
  if b = ascii '[' then some .array else if b = ascii '{' then some .object else none

/-- The colon between a key and its value. -/
def colon (input : Bytes) : Except Fault Bytes :=
  match dropSpace input with
  | [] => .error .truncated
  | b :: rest => if b = ascii ':' then .ok rest else .error .malformed

theorem length_of_colon {input rest : Bytes} (h : colon input = .ok rest) :
    rest.length < input.length := by
  unfold colon at h
  split at h
  · cases h
  · next heq =>
    split at h
    · cases h; exact length_of_dropSpace heq
    · cases h

/-- Skips what precedes a value: a key and a colon in an object, nothing in an array. -/
def skipKey (c : Container) (input : Bytes) : Except Fault Bytes :=
  match c with
  | .array => .ok input
  | .object =>
    match dropSpace input with
    | [] => .error .truncated
    | b :: rest =>
      if b = ascii '"' then skipString rest >>= colon else .error .malformed

theorem length_of_skipKey {c : Container} {input rest : Bytes} (h : skipKey c input = .ok rest) :
    rest.length ≤ input.length := by
  unfold skipKey at h
  split at h
  · cases h; exact Nat.le_refl _
  · split at h
    · cases h
    · next heq =>
      split at h
      · obtain ⟨r, hr, h⟩ := exists_of_bind_eq_ok h
        have := length_of_colon h
        have := length_of_skipString hr
        have := length_of_dropSpace heq
        omega
      · cases h

/-- Skips a literal, a string or a number. -/
def skipScalar (input : Bytes) : Except Fault Bytes :=
  match input with
  | [] => .error .truncated
  | b :: rest =>
    if b = ascii 'n' then word (utf8 "ull") rest
    else if b = ascii 't' then word (utf8 "rue") rest
    else if b = ascii 'f' then word (utf8 "alse") rest
    else if b = ascii '"' then skipString rest
    else if b = ascii '-' || isDigit b then skipNumber (b :: rest)
    else .error .malformed

theorem length_of_skipScalar {input rest : Bytes} (h : skipScalar input = .ok rest) :
    rest.length < input.length := by
  unfold skipScalar at h
  split at h
  · cases h
  · repeat' split at h
    · exact Nat.lt_succ_of_le (length_of_word h)
    · exact Nat.lt_succ_of_le (length_of_word h)
    · exact Nat.lt_succ_of_le (length_of_word h)
    · exact Nat.lt_succ_of_lt (length_of_skipString h)
    · exact length_of_skipNumber h
    · cases h

/-- What may come next while a value is skipped: a value, the first part of a container just
opened, or what follows a part. -/
inductive Expected where
  | value
  | first
  | more
  deriving DecidableEq, Repr

def Expected.rank : Expected → Nat
  | .first => 1
  | _ => 0

theorem length_of_dropSpace_eq {input rest : Bytes} {b : UInt8}
    (h : dropSpace input = b :: rest) : (b :: rest).length ≤ input.length :=
  length_of_dropSpace h

/-- Skips to the end of the value that the outermost of the open containers is in. -/
def skipFrom (expected : Expected) (opened : List Container) (input : Bytes) :
    Except Fault Bytes :=
  match expected, opened with
  | .more, [] => .ok input
  | .first, [] => .error .malformed
  | .more, c :: cs =>
    match _ : dropSpace input with
    | [] => .error .truncated
    | b :: rest =>
      if b = ascii ',' then
        match _ : skipKey c rest with
        | .error e => .error e
        | .ok rest => skipFrom .value (c :: cs) rest
      else if b = c.closing then skipFrom .more cs rest
      else .error .malformed
  | .first, c :: cs =>
    match _ : dropSpace input with
    | [] => .error .truncated
    | b :: rest =>
      if b = c.closing then skipFrom .more cs rest
      else match _ : skipKey c (b :: rest) with
        | .error e => .error e
        | .ok rest => skipFrom .value (c :: cs) rest
  | .value, opened =>
    match _ : dropSpace input with
    | [] => .error .truncated
    | b :: rest =>
      match Container.opening? b with
      | some c => skipFrom .first (c :: opened) rest
      | none =>
        match _ : skipScalar (b :: rest) with
        | .error e => .error e
        | .ok rest => skipFrom .more opened rest
termination_by (input.length, expected.rank)
decreasing_by
  · have := length_of_dropSpace ‹dropSpace input = _›
    have := length_of_skipKey ‹skipKey _ _ = _›
    exact Prod.Lex.left _ _ (by omega)
  · exact Prod.Lex.left _ _ (length_of_dropSpace ‹_›)
  · exact Prod.Lex.left _ _ (length_of_dropSpace ‹_›)
  · have := length_of_dropSpace_eq ‹dropSpace input = _›
    have := length_of_skipKey ‹skipKey _ _ = _›
    rcases Nat.lt_or_eq_of_le (by omega : (List.length ‹_›) ≤ input.length) with h | h
    · exact Prod.Lex.left _ _ h
    · rw [h]; exact Prod.Lex.right _ (by decide)
  · exact Prod.Lex.left _ _ (length_of_dropSpace ‹_›)
  · have := length_of_dropSpace_eq ‹dropSpace input = _›
    have := length_of_skipScalar ‹skipScalar _ = _›
    exact Prod.Lex.left _ _ (by omega)

theorem length_of_skipFrom {expected : Expected} {opened : List Container} {input rest : Bytes}
    (h : skipFrom expected opened input = .ok rest) :
    rest.length + (if expected = .value then 1 else 0) ≤ input.length := by
  fun_induction skipFrom expected opened input
  case case1 => cases h; simp
  case case5 hk hd ih =>
    have := length_of_dropSpace_eq hd
    have := length_of_skipKey hk
    have := ih h
    simp only [List.length_cons, reduceCtorEq, if_true, if_false] at *
    omega
  case case11 hd _ _ hk ih =>
    have := length_of_dropSpace_eq hd
    have := length_of_skipKey hk
    have := ih h
    simp only [List.length_cons, reduceCtorEq, if_true, if_false] at *
    omega
  case case15 hd _ _ hk ih =>
    have := length_of_dropSpace_eq hd
    have := length_of_skipScalar hk
    have := ih h
    simp only [List.length_cons, reduceCtorEq, if_true, if_false] at *
    omega
  case case6 hd _ ih =>
    have := length_of_dropSpace_eq hd
    have := ih h
    simp only [List.length_cons, reduceCtorEq, if_false] at *
    omega
  case case9 hd ih =>
    have := length_of_dropSpace_eq hd
    have := ih h
    simp only [List.length_cons, reduceCtorEq, if_false] at *
    omega
  case case13 hd _ _ ih =>
    have := length_of_dropSpace_eq hd
    have := ih h
    simp only [List.length_cons, reduceCtorEq, if_true, if_false] at *
    omega
  all_goals cases h

/-- Skips one value. -/
def skipValue (input : Bytes) : Except Fault Bytes := skipFrom .value [] input

theorem length_of_skipValue {input rest : Bytes} (h : skipValue input = .ok rest) :
    rest.length < input.length := by
  have := length_of_skipFrom h
  simp only [if_true] at this
  omega

end BucketTransfer.Json
