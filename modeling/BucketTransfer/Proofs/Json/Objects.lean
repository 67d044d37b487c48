import BucketTransfer.Proofs.Json.Numbers
import BucketTransfer.Proofs.Json.Strings
import BucketTransfer.Proofs.KeyMap.Lookup

/-!
# Objects in JSON text

An object is written member by member, with a comma between two of them and blanks before each, as
many as one likes. It is read back member by member.
-/
namespace BucketTransfer

/-- What is joined is the first text and, after the separator each, the others. -/
theorem utf8_intercalate (separator first : String) (others : List String) :
    utf8 (separator.intercalate (first :: others)) =
      utf8 first ++ others.flatMap fun t => utf8 separator ++ utf8 t := by
  induction others generalizing first with
  | nil => rw [String.intercalate_singleton, List.flatMap_nil, List.append_nil]
  | cons t others ih =>
    rw [String.intercalate_cons_cons, utf8_append, utf8_append, ih, List.flatMap_cons]
    simp only [List.append_assoc]

namespace Json

variable {α σ : Type} {blank rest : Bytes}

section Blanks

theorem dropSpace_of_blank (hblank : ∀ b ∈ blank, isSpace b) (input : Bytes) :
    dropSpace (blank ++ input) = dropSpace input :=
  List.dropWhile_append_of_pos hblank

theorem dropSpace_append (hblank : ∀ b ∈ blank, isSpace b) {b : UInt8} (hb : isSpace b = false)
    (rest : Bytes) : dropSpace (blank ++ b :: rest) = b :: rest := by
  rw [dropSpace_of_blank hblank, dropSpace, List.dropWhile_cons_of_neg (by simp [hb])]

theorem dropSpace_cons {b : UInt8} (hb : isSpace b = false) (rest : Bytes) :
    dropSpace (b :: rest) = b :: rest :=
  List.dropWhile_cons_of_neg (by simp [hb])

theorem isSpace_of_mem_newline {depth : Nat} {b : UInt8} (h : b ∈ utf8 (newline depth)) :
    isSpace b := by
  have hnewline : (newline depth).toList = '\n' :: List.replicate (2 * depth) ' ' := by
    simp [newline]
  rw [utf8, hnewline] at h
  obtain ⟨c, hc, hb⟩ := List.mem_flatMap.1 h
  rcases List.mem_cons.1 hc with rfl | hspace
  · obtain rfl : b = 0x0a := List.mem_singleton.1 hb
    rfl
  · obtain rfl := List.eq_of_mem_replicate hspace
    obtain rfl : b = 0x20 := List.mem_singleton.1 hb
    rfl

theorem delimited_of_blank {closing : Bytes} (hclosing : ∀ b ∈ closing, isSpace b)
    (rest : Bytes) : Delimited (closing ++ ascii '}' :: rest) := by
  intro b hb
  cases closing with
  | nil =>
    obtain rfl : ascii '}' = b := by simpa using hb
    decide
  | cons c closing =>
    obtain rfl : c = b := by simpa using hb
    rcases isSpace_iff.1 (hclosing c List.mem_cons_self) with rfl | rfl | rfl | rfl
    all_goals decide

end Blanks

section Scanners
variable {s : Scanner α} {a : α} {input : Bytes}

theorem Scanner.scan_map_of_scan {β : Type} (f : α → β) (h : s.scan input = .ok (a, rest)) :
    (s.map f).scan input = .ok (f a, rest) := by
  simp only [Scanner.map, Scanner.refine, h]

theorem scanFirst_of_blank {f : UInt8 → Bytes → Except Fault (α × Bytes)}
    (hblank : ∀ b ∈ blank, isSpace b) (input : Bytes) :
    scanFirst f (blank ++ input) = scanFirst f input := by
  rw [scanFirst, scanFirst, dropSpace_of_blank hblank]

end Scanners

section Members
variable {member : String → σ → Scanner σ} {key : α → String} {after : α → Bytes}
  {update : σ → α → σ}

/-- A member after the quote that opens its key, with what follows the key. -/
def memberText (key : String) (after : Bytes) : Bytes := escaped key ++ ascii '"' :: after

theorem memberText_append (key : String) (after rest : Bytes) :
    memberText key after ++ rest = memberText key (after ++ rest) := by
  rw [memberText, memberText, List.append_assoc, List.cons_append]

/-- An object after the brace that opens it, with blanks before each member and before its end. -/
def objectText (blank closing : Bytes) (key : α → String) (after : α → Bytes) : List α → Bytes
  | [] => [ascii '}']
  | e :: es =>
    blank ++ ascii '"' :: memberText (key e) (after e) ++
      es.flatMap (fun e => ascii ',' :: (blank ++ ascii '"' :: memberText (key e) (after e))) ++
        closing ++ [ascii '}']

theorem objectText_map {β : Type} (closing : Bytes) (f : β → α) (es : List β) :
    objectText blank closing key after (es.map f) =
      objectText blank closing (key ∘ f) (after ∘ f) es := by
  cases es with
  | nil => rfl
  | cons e es =>
    rw [List.map_cons, objectText, List.flatMap_map]
    rfl

theorem nextMember_first (hblank : ∀ b ∈ blank, isSpace b) (rest : Bytes) :
    nextMember true (blank ++ ascii '"' :: rest) = .ok (.part rest) := by
  rw [nextMember, dropSpace_append hblank (by decide)]
  rfl

theorem nextMember_next (hblank : ∀ b ∈ blank, isSpace b) (rest : Bytes) :
    nextMember false (ascii ',' :: (blank ++ ascii '"' :: rest)) = .ok (.part rest) := by
  have hquote : isSpace (ascii '"') = false := by decide
  rw [nextMember, dropSpace_cons (by decide)]
  simp only [dropSpace_append hblank hquote]
  rfl

theorem nextMember_closed (first : Bool) (hblank : ∀ b ∈ blank, isSpace b) (rest : Bytes) :
    nextMember first (blank ++ ascii '}' :: rest) = .ok (.closed rest) := by
  rw [nextMember, dropSpace_append hblank (by decide)]
  rfl

/-- One round, without the proofs that it takes something off the text. -/
private theorem foldMembers_eq (member : String → σ → Scanner σ) (first : Bool) (state : σ)
    (input : Bytes) :
    foldMembers member first state input =
      match nextMember first input with
      | .error e => .error e
      | .ok (.closed rest) => .ok (state, rest)
      | .ok (.part start) =>
        match scanText start with
        | .error e => .error e
        | .ok (key, afterKey) =>
          match (member key state).scan afterKey with
          | .error e => .error e
          | .ok (state, rest) => foldMembers member false state rest := by
  rw [foldMembers]
  split
  case h_1 e heq => rw [heq]
  case h_2 rest heq => rw [heq]
  case h_3 start heq =>
    rw [heq]
    simp only
    split
    case h_1 e heq => rw [heq]
    case h_2 k after heq =>
      rw [heq]
      simp only
      split
      case h_1 e heq => rw [heq]
      case h_2 next rest heq => rw [heq]

private theorem foldMembers_closed {first : Bool} {input : Bytes} (state : σ)
    (hclosed : nextMember first input = .ok (.closed rest)) :
    foldMembers member first state input = .ok (state, rest) := by
  rw [foldMembers_eq, hclosed]

private theorem foldMembers_part {first : Bool} {input text : Bytes} {k : String} {state next : σ}
    (hpart : nextMember first input = .ok (.part (memberText k text)))
    (hmember : (member k state).scan text = .ok (next, rest)) :
    foldMembers member first state input = foldMembers member false next rest := by
  have hkey : scanText (memberText k text) = .ok (k, text) := scanText_escaped k text
  rw [foldMembers_eq, hpart]
  simp only [hkey, hmember]

/-- Members that are read one after the other, each in the state that the one before it led to. -/
inductive MembersRead (member : String → σ → Scanner σ) (key : α → String) (after : α → Bytes) :
    σ → List α → σ → Prop where
  | nil (state : σ) : MembersRead member key after state [] state
  | cons (state next last : σ) (e : α) (es : List α)
      (first : ∀ rest, Delimited rest →
        (member (key e) state).scan (after e ++ rest) = .ok (next, rest))
      (others : MembersRead member key after next es last) :
      MembersRead member key after state (e :: es) last

theorem membersRead_of_update {es : List α}
    (hmember : ∀ e ∈ es, ∀ state rest, Delimited rest →
      (member (key e) state).scan (after e ++ rest) = .ok (update state e, rest)) (state : σ) :
    MembersRead member key after state es (es.foldl update state) := by
  induction es generalizing state with
  | nil => exact .nil state
  | cons e es ih =>
    obtain ⟨hfirst, hothers⟩ := List.forall_mem_cons.1 hmember
    exact .cons _ _ _ e es (hfirst state) (ih hothers _)

/-- Members that a comma stands before, each after its comma, and the end of the object. -/
private theorem foldMembers_next {es : List α} {closing : Bytes} {state last : σ}
    (h : MembersRead member key after state es last) (hblank : ∀ b ∈ blank, isSpace b)
    (hclosing : ∀ b ∈ closing, isSpace b) (rest : Bytes) :
    let others :=
      es.flatMap fun e => ascii ',' :: (blank ++ ascii '"' :: memberText (key e) (after e))
    Delimited (others ++ (closing ++ ascii '}' :: rest)) ∧
      foldMembers member false state (others ++ (closing ++ ascii '}' :: rest)) =
        .ok (last, rest) := by
  induction h with
  | nil state =>
    exact ⟨delimited_of_blank hclosing rest,
      foldMembers_closed state (nextMember_closed false hclosing rest)⟩
  | cons state next last e es first _ ih =>
    obtain ⟨hdelimited, hothers⟩ := ih
    simp only [List.flatMap_cons, List.cons_append, List.append_assoc, memberText_append]
    constructor
    · intro b hb
      obtain rfl : ascii ',' = b := by simpa using hb
      decide
    · rw [foldMembers_part (nextMember_next hblank _) (first _ hdelimited), hothers]

/-- The members of an object are read in their order. -/
theorem foldMembers_objectText {es : List α} {closing : Bytes} {state last : σ}
    (h : MembersRead member key after state es last) (hblank : ∀ b ∈ blank, isSpace b)
    (hclosing : ∀ b ∈ closing, isSpace b) (rest : Bytes) :
    foldMembers member true state (objectText blank closing key after es ++ rest) =
      .ok (last, rest) := by
  cases h with
  | nil =>
    have hend : nextMember true (ascii '}' :: rest) = .ok (.closed rest) := rfl
    exact foldMembers_closed state hend
  | cons _ next _ e es first others =>
    obtain ⟨hdelimited, hothers⟩ := foldMembers_next others hblank hclosing rest
    simp only [objectText, List.cons_append, List.append_assoc, memberText_append, List.nil_append]
    rw [foldMembers_part (nextMember_first hblank _) (first _ hdelimited), hothers]

end Members

section Texts

/-- An object that stands in several lines. -/
theorem utf8_block (depth : Nat) (key value : α → String) (es : List α) :
    utf8 (block depth "\x7b" "\x7d" (es.map fun e => stringText (key e) ++ ": " ++ value e)) =
      ascii '{' :: objectText (utf8 (newline (depth + 1))) (utf8 (newline depth)) key
        (fun e => ascii ':' :: utf8 (" " ++ value e)) es := by
  have hmember (e : α) : utf8 (stringText (key e) ++ ": " ++ value e) =
      ascii '"' :: memberText (key e) (ascii ':' :: utf8 (" " ++ value e)) := by
    rw [utf8_append, utf8_append, utf8_stringText, utf8_append, memberText]
    simp only [List.append_assoc, List.cons_append, List.nil_append]
    rfl
  cases es with
  | nil =>
    rw [List.map_nil, block, if_pos List.isEmpty_nil, objectText]
    decide
  | cons e es =>
    have hopening : utf8 "\x7b" = [ascii '{'] := by decide
    have hclosing : utf8 "\x7d" = [ascii '}'] := by decide
    have hcomma : utf8 "," = [ascii ','] := by decide
    rw [List.map_cons, block, if_neg (by simp), utf8_append, utf8_append, utf8_append, utf8_append,
      utf8_intercalate, hmember, objectText, List.flatMap_map]
    simp only [hmember, hopening, hclosing, utf8_append, hcomma, List.append_assoc,
      List.cons_append, List.nil_append]

end Texts

namespace Reader

theorem scan_string {depth : Nat} (hblank : ∀ b ∈ blank, isSpace b) (s : String) (rest : Bytes) :
    (string depth).scan (blank ++ utf8 (stringText s) ++ rest) = .ok (s, rest) := by
  rw [utf8_stringText]
  simp only [List.append_assoc, List.cons_append, List.nil_append]
  change scanFirst _ _ = _
  rw [scanFirst, dropSpace_append hblank (by decide)]
  simp only [if_pos, scanText_escaped]

/-- A map is read from what its entries are written as. -/
theorem scan_map {r : Reader α} {depth : Nat} {closing : Bytes} (text : α → Bytes)
    {entries : List (String × α)} (hdepth : 1 < depth)
    (hvalue : ∀ e ∈ entries, ∀ rest, Delimited rest →
      (r (depth - 1)).scan (text e.2 ++ rest) = .ok (e.2, rest))
    (hblank : ∀ b ∈ blank, isSpace b) (hclosing : ∀ b ∈ closing, isSpace b) (rest : Bytes) :
    (r.map depth).scan
      (ascii '{' :: objectText blank closing Prod.fst (fun e => ascii ':' :: text e.2) entries ++
        rest) = .ok (.ofList entries, rest) := by
  have hmember : ∀ e ∈ entries, ∀ (m : KeyMap α) rest, Delimited rest →
      ((r (depth - 1)).map (m.insert e.1)).afterColon.scan (ascii ':' :: text e.2 ++ rest) =
        .ok (m.insert e.1 e.2, rest) := fun e he m rest hrest =>
    Scanner.scan_map_of_scan (m.insert e.1) (hvalue e he rest hrest)
  simp only [map, Scanner.ofFirst]
  rw [List.cons_append, scanFirst, dropSpace_cons (by decide)]
  simp only [if_pos, inside, if_neg (Nat.not_le.2 hdepth)]
  exact foldMembers_objectText (membersRead_of_update hmember ∅) hblank hclosing rest

/-- A text is read as a whole if nothing is left of it. -/
theorem complete_of_scan {r : Reader α} {input : Bytes} {a : α}
    (h : (r 128).scan input = .ok (a, [])) : r.complete input = .ok a := by
  rw [complete, h]
  rfl

end Reader

end Json

end BucketTransfer
