import BucketTransfer.Json.Skip
import BucketTransfer.KeyMap

/-!
# Typed JSON readers

A reader takes one value of a type off the front of a text. It goes from left to right and stops at
the first fault. Containers may be nested 127 deep.
-/
namespace BucketTransfer.Json

/-- Takes one value off the front of a text. -/
structure Scanner (α : Type) where
  scan : Bytes → Except Fault (α × Bytes)
  shorter : ∀ {input value rest}, scan input = .ok (value, rest) → rest.length < input.length

/-- A scanner for each number of containers, less one, that may still be opened. -/
abbrev Reader (α : Type) : Type := Nat → Scanner α

variable {α β σ : Type}

/-! ## The parts of containers -/

/-- What comes next in a container: its end, or a part of it. -/
inductive Next where
  | closed (rest : Bytes)
  | part (input : Bytes)

def Next.rest : Next → Bytes
  | .closed rest => rest
  | .part input => input

/-- The next item of an array; a comma stands before each but the first. -/
def nextItem (first : Bool) (input : Bytes) : Except Fault Next :=
  match dropSpace input with
  | [] => .error .truncated
  | b :: rest =>
    if b = ascii ']' then .ok (.closed rest)
    else if first then .ok (.part (b :: rest))
    else if b = ascii ',' then
      match dropSpace rest with
      | [] => .error .truncated
      | c :: rest => if c = ascii ']' then .error .malformed else .ok (.part (c :: rest))
    else .error .malformed

theorem length_of_nextItem {first : Bool} {input : Bytes} {next : Next}
    (h : nextItem first input = .ok next) : next.rest.length ≤ input.length := by
  unfold nextItem at h
  split at h
  · cases h
  · next hd =>
    have := length_of_dropSpace_eq hd
    simp only [List.length_cons] at this
    repeat' split at h
    · cases h; simp only [Next.rest]; omega
    · cases h; simp only [Next.rest, List.length_cons]; omega
    · cases h
    · cases h
    · next hd _ =>
      cases h
      have := length_of_dropSpace_eq hd
      simp only [Next.rest, List.length_cons] at this ⊢
      omega
    · cases h

/-- The next member of an object; the part starts after the quote that opens its key. -/
def nextMember (first : Bool) (input : Bytes) : Except Fault Next :=
  match dropSpace input with
  | [] => .error .truncated
  | b :: rest =>
    if b = ascii '}' then .ok (.closed rest)
    else if first then
      if b = ascii '"' then .ok (.part rest) else .error .malformed
    else if b = ascii ',' then
      match dropSpace rest with
      | [] => .error .truncated
      | c :: rest => if c = ascii '"' then .ok (.part rest) else .error .malformed
    else .error .malformed

theorem length_of_nextMember {first : Bool} {input : Bytes} {next : Next}
    (h : nextMember first input = .ok next) : next.rest.length ≤ input.length := by
  unfold nextMember at h
  split at h
  · cases h
  · next hd =>
    have := length_of_dropSpace hd
    repeat' split at h
    · cases h; exact Nat.le_of_lt this
    · cases h; exact Nat.le_of_lt this
    · cases h
    · cases h
    · next hd _ =>
      cases h
      have := length_of_dropSpace hd
      simp only [Next.rest] at this ⊢
      omega
    · cases h
    · cases h

/-- The end of an array of which all items have been read. -/
def closeArray (input : Bytes) : Except Fault Bytes :=
  match dropSpace input with
  | [] => .error .truncated
  | b :: rest => if b = ascii ']' then .ok rest else .error .malformed

theorem length_of_closeArray {input rest : Bytes} (h : closeArray input = .ok rest) :
    rest.length ≤ input.length := by
  unfold closeArray at h
  repeat' split at h
  · cases h
  · exact Nat.le_of_lt (by cases h; exact length_of_dropSpace ‹_›)
  · cases h

/-- Runs through the items of an array up to its end. -/
def foldItems (item : σ → Scanner σ) (first : Bool) (state : σ) (input : Bytes) :
    Except Fault (σ × Bytes) :=
  match _ : nextItem first input with
  | .error e => .error e
  | .ok (.closed rest) => .ok (state, rest)
  | .ok (.part start) =>
    match _ : (item state).scan start with
    | .error e => .error e
    | .ok (state, rest) => foldItems item false state rest
termination_by input.length
decreasing_by
  have := length_of_nextItem ‹nextItem _ _ = _›
  have := (item _).shorter ‹_›
  simp only [Next.rest] at *
  omega

theorem length_of_foldItems {item : σ → Scanner σ} {first : Bool} {state final : σ}
    {input rest : Bytes} (h : foldItems item first state input = .ok (final, rest)) :
    rest.length ≤ input.length := by
  fun_induction foldItems item first state input with
  | case1 => cases h
  | case2 _ _ _ _ hn => cases h; exact length_of_nextItem hn
  | case3 => cases h
  | case4 _ _ _ _ hn _ _ hs ih =>
    have := length_of_nextItem hn
    have := (item _).shorter hs
    have := ih h
    simp only [Next.rest] at *
    omega

/-- Runs through the members of an object up to its end. A member starts after its key. -/
def foldMembers (member : String → σ → Scanner σ) (first : Bool) (state : σ) (input : Bytes) :
    Except Fault (σ × Bytes) :=
  match _ : nextMember first input with
  | .error e => .error e
  | .ok (.closed rest) => .ok (state, rest)
  | .ok (.part start) =>
    match _ : scanText start with
    | .error e => .error e
    | .ok (key, afterKey) =>
      match _ : (member key state).scan afterKey with
      | .error e => .error e
      | .ok (state, rest) => foldMembers member false state rest
termination_by input.length
decreasing_by
  have := length_of_nextMember ‹nextMember _ _ = _›
  have := length_of_scanText ‹scanText _ = _›
  have := (member _ _).shorter ‹_›
  simp only [Next.rest] at *
  omega

theorem length_of_foldMembers {member : String → σ → Scanner σ} {first : Bool} {state final : σ}
    {input rest : Bytes} (h : foldMembers member first state input = .ok (final, rest)) :
    rest.length ≤ input.length := by
  fun_induction foldMembers member first state input with
  | case1 => cases h
  | case2 _ _ _ _ hn => cases h; exact length_of_nextMember hn
  | case3 => cases h
  | case4 => cases h
  | case5 _ _ _ _ hn _ _ hk _ _ hs ih =>
    have := length_of_nextMember hn
    have := length_of_scanText hk
    have := (member _ _).shorter hs
    have := ih h
    simp only [Next.rest] at *
    omega

/-! ## Scanners by first character -/

/-- What is wrong with a value that is not of the kind asked for; a fault inside it comes first. -/
def wrongKind (b : UInt8) (rest : Bytes) : Fault :=
  let after {γ : Type} (value : Except Fault γ) : Fault :=
    match value with
    | .ok _ => .mismatch
    | .error e => e
  if b = ascii 'n' then after (word (utf8 "ull") rest)
  else if b = ascii 't' then after (word (utf8 "rue") rest)
  else if b = ascii 'f' then after (word (utf8 "alse") rest)
  else if b = ascii '"' then after (scanText rest)
  else if b = ascii '-' || isDigit b then after (scanNumber (b :: rest))
  else if (Container.opening? b).isSome then .mismatch
  else .malformed

/-- Skips blanks and goes on by the first character after them. -/
def scanFirst (f : UInt8 → Bytes → Except Fault (α × Bytes)) (input : Bytes) :
    Except Fault (α × Bytes) :=
  match dropSpace input with
  | [] => .error .truncated
  | b :: rest => f b rest

theorem length_of_scanFirst {f : UInt8 → Bytes → Except Fault (α × Bytes)}
    (le : ∀ {b rest value after}, f b rest = .ok (value, after) → after.length ≤ rest.length)
    {input : Bytes} {value : α} {after : Bytes} (h : scanFirst f input = .ok (value, after)) :
    after.length < input.length := by
  rw [scanFirst] at h
  split at h
  · cases h
  · have := le h
    have := length_of_dropSpace ‹_›
    omega

/-- A scanner that skips blanks and goes on by the first character after them. -/
def Scanner.ofFirst (f : UInt8 → Bytes → Except Fault (α × Bytes))
    (le : ∀ {b rest value after}, f b rest = .ok (value, after) → after.length ≤ rest.length) :
    Scanner α where
  scan := scanFirst f
  shorter := length_of_scanFirst le

/-- Changes what a scanner took, where that is possible. -/
def Scanner.refine (s : Scanner α) (f : α → Option β) : Scanner β where
  scan input :=
    match s.scan input with
    | .error e => .error e
    | .ok (a, rest) =>
      match f a with
      | none => .error .mismatch
      | some b => .ok (b, rest)
  shorter h := by
    repeat' split at h
    · cases h
    · cases h
    · cases h; exact s.shorter ‹_›

def Scanner.map (f : α → β) (s : Scanner α) : Scanner β := s.refine fun a => some (f a)

/-- Takes the value after a colon. -/
def Scanner.afterColon (s : Scanner α) : Scanner α where
  scan input := colon input >>= s.scan
  shorter h := by
    obtain ⟨r, hr, h⟩ := exists_of_bind_eq_ok h
    have := length_of_colon hr
    have := s.shorter h
    omega

/-- A value of which only the end matters. -/
def Scanner.ignored (value : α) : Scanner α where
  scan input :=
    match skipValue input with
    | .error e => .error e
    | .ok rest => .ok (value, rest)
  shorter h := by
    split at h
    · cases h
    · cases h; exact length_of_skipValue ‹_›

/-- No value at all. -/
def Scanner.refuse (fault : Fault) : Scanner α where
  scan _ := .error fault
  shorter h := by cases h

/-! ## Values -/

namespace Reader

/-- The empty value. -/
def null : Reader Unit := fun _ =>
  .ofFirst (fun b rest =>
    if b = ascii 'n' then word (utf8 "ull") rest >>= fun rest => .ok ((), rest)
    else .error (wrongKind b rest))
    (by
      intro b rest value after h
      split at h
      · obtain ⟨r, hr, h⟩ := exists_of_bind_eq_ok h
        cases h; exact length_of_word hr
      · cases h)

def string : Reader String := fun _ =>
  .ofFirst (fun b rest => if b = ascii '"' then scanText rest else .error (wrongKind b rest))
    (by
      intro b rest value after h
      split at h
      · exact Nat.le_of_lt (length_of_scanText h)
      · cases h)

def truth : Reader Bool := fun _ =>
  .ofFirst (fun b rest =>
    if b = ascii 't' then word (utf8 "rue") rest >>= fun rest => .ok (true, rest)
    else if b = ascii 'f' then word (utf8 "alse") rest >>= fun rest => .ok (false, rest)
    else .error (wrongKind b rest))
    (by
      intro b rest value after h
      repeat' split at h
      · obtain ⟨r, hr, h⟩ := exists_of_bind_eq_ok h
        cases h; exact length_of_word hr
      · obtain ⟨r, hr, h⟩ := exists_of_bind_eq_ok h
        cases h; exact length_of_word hr
      · cases h)

def number : Reader Number := fun _ =>
  .ofFirst (fun b rest =>
    if b = ascii '-' || isDigit b then scanNumber (b :: rest) else .error (wrongKind b rest))
    (by
      intro b rest value after h
      split at h
      · exact Nat.le_of_lt_succ (length_of_scanNumber h)
      · cases h)

/-- An integer in a range. -/
def integer (least greatest : Int) : Reader Int := fun depth =>
  (number depth).refine fun n =>
    match n with
    | .integer z => if least ≤ z ∧ z ≤ greatest then some z else none
    | .double _ => none

/-- A natural number up to a limit. -/
def natural (limit : Nat) : Reader Nat := fun depth =>
  (integer 0 limit depth).map Int.toNat

/-- A value or null. -/
def optional (r : Reader α) : Reader (Option α) := fun depth =>
  .ofFirst (fun b rest =>
    if b = ascii 'n' then word (utf8 "ull") rest >>= fun rest => .ok (none, rest)
    else (r depth).scan (b :: rest) >>= fun found => .ok (some found.1, found.2))
    (by
      intro b rest value after h
      split at h
      · obtain ⟨r, hr, h⟩ := exists_of_bind_eq_ok h
        cases h; exact length_of_word hr
      · obtain ⟨r, hr, h⟩ := exists_of_bind_eq_ok h
        cases h; exact Nat.le_of_lt_succ (Scanner.shorter _ hr))

/-- Opens a container, if one more may be opened. -/
def inside (depth : Nat) (parts : Nat → Except Fault (α × Bytes)) : Except Fault (α × Bytes) :=
  if depth ≤ 1 then .error .malformed else parts (depth - 1)

theorem of_inside {depth : Nat} {parts : Nat → Except Fault (α × Bytes)} {r : α × Bytes}
    (h : inside depth parts = .ok r) : parts (depth - 1) = .ok r := by
  unfold inside at h
  split at h
  · cases h
  · exact h

/-- The items of an array, last first, in front of those read before. -/
def itemsOnto (r : Scanner α) (done : List α) : Scanner (List α) := r.map (· :: done)

def list (r : Reader α) : Reader (List α) := fun depth =>
  .ofFirst (fun b rest =>
    if b = ascii '[' then
      inside depth fun depth =>
        foldItems (itemsOnto (r depth)) true [] rest >>= fun found => .ok (found.1.reverse, found.2)
    else .error (wrongKind b rest))
    (by
      intro b rest value after h
      split at h
      · obtain ⟨r, hr, h⟩ := exists_of_bind_eq_ok (of_inside h)
        cases h; exact length_of_foldItems hr
      · cases h)

/-- An object as a map; of two members with one key the later one stays. -/
def map (r : Reader α) : Reader (KeyMap α) := fun depth =>
  .ofFirst (fun b rest =>
    if b = ascii '{' then
      inside depth fun depth =>
        foldMembers (fun key m => ((r depth).map (m.insert key)).afterColon) true ∅ rest
    else .error (wrongKind b rest))
    (by
      intro b rest value after h
      split at h
      · exact length_of_foldMembers (of_inside h)
      · cases h)

/-- One of several names, as a string or as the only key of an object whose value is null. -/
def choice (names : List (String × α)) : Reader α := fun depth =>
  let name : Scanner α := (string depth).refine fun s => (names.find? fun n => n.1 == s).map (·.2)
  .ofFirst (fun b rest =>
    if b = ascii '"' then name.scan (b :: rest)
    else if b = ascii '{' then
      inside depth fun depth => do
        let (value, rest) ← name.scan rest
        let (_, rest) ← (null depth).afterColon.scan rest
        match dropSpace rest with
        | [] => .error .truncated
        | c :: rest => if c = ascii '}' then .ok (value, rest) else .error .malformed
    else .error .malformed)
    (by
      intro b rest value after h
      repeat' split at h
      · exact Nat.le_of_lt_succ (name.shorter h)
      · obtain ⟨⟨v, r⟩, hr, h⟩ := exists_of_bind_eq_ok (of_inside h)
        obtain ⟨⟨u, r'⟩, hr', h⟩ := exists_of_bind_eq_ok h
        have := name.shorter hr
        have := Scanner.shorter _ hr'
        simp only at h
        repeat' split at h
        · cases h
        · cases h
          have := length_of_dropSpace ‹_›
          omega
        · cases h
      · cases h)

/-- Any value, of those for which there is room in the depth. -/
def value : Reader Json
  | 0 => .refuse .malformed
  | depth + 1 =>
    .ofFirst (fun b rest =>
      if b = ascii 'n' then word (utf8 "ull") rest >>= fun rest => .ok (.null, rest)
      else if b = ascii 't' then word (utf8 "rue") rest >>= fun rest => .ok (.bool true, rest)
      else if b = ascii 'f' then word (utf8 "alse") rest >>= fun rest => .ok (.bool false, rest)
      else if b = ascii '"' then scanText rest >>= fun found => .ok (.string found.1, found.2)
      else if b = ascii '-' || isDigit b then
        scanNumber (b :: rest) >>= fun found => .ok (.number found.1, found.2)
      else if b = ascii '[' then
        if depth = 0 then .error .malformed
        else foldItems (itemsOnto (value depth)) true [] rest >>= fun found =>
          .ok (.array found.1.reverse, found.2)
      else if b = ascii '{' then
        if depth = 0 then .error .malformed
        else foldMembers
          (fun key (m : KeyMap Json) => ((value depth).map (m.insert key)).afterColon)
            true ∅ rest >>= fun found => .ok (.object found.1.entries, found.2)
      else .error .malformed)
      (by
        intro b rest value after h
        repeat' split at h
        all_goals first | contradiction | obtain ⟨r, hr, h⟩ := exists_of_bind_eq_ok h
        all_goals cases h
        · exact length_of_word hr
        · exact length_of_word hr
        · exact length_of_word hr
        · exact Nat.le_of_lt (length_of_scanText hr)
        · exact Nat.le_of_lt_succ (length_of_scanNumber hr)
        · exact length_of_foldItems hr
        · exact length_of_foldMembers hr)

end Reader

/-- Reads a whole text. -/
def Reader.complete (r : Reader α) (input : Bytes) : Except Fault α := do
  let (value, rest) ← (r 128).scan input
  if (dropSpace rest).isEmpty then .ok value else .error .malformed

end BucketTransfer.Json
