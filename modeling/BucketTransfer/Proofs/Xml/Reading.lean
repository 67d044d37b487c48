import BucketTransfer.Proofs.Xml.Scan

/-!
# Reading well-formed content

What a reader makes of the content of an element, if it takes all of it: text of what holds no
elements, nothing of what is skipped, and of an element with fields what its children come to one
after the other.
-/
namespace BucketTransfer.Xml

open Event (isSpace scan ofDocument)

variable {α β σ : Type} {c : Content} {es rest : List Event}

theorem not_exists_ok {e : Error} : ¬∃ a : α, Except.error e = .ok a := by
  rintro ⟨a, ⟨⟩⟩

namespace Content

/-- The characters of what holds no elements. Of an element, what is in it comes last. -/
def characters : Content → Except Error (List Char)
  | .text last => .ok last.text.toList
  | .reference before name rest => do
    let c ← resolve name.name
    return before.text.toList ++ c :: (← rest.characters)
  | .aside before _ rest => do return before.text.toList ++ (← rest.characters)
  | .empty before _ rest => do return before.text.toList ++ (← rest.characters)
  | .element before _ inner _ => do return before.text.toList ++ (← inner.characters)

/-- What follows the first end tag, if there is one in the content: the rest of each element around
it, from the innermost on. -/
def tails : Content → List Content
  | .text _ => []
  | .reference _ _ rest => rest.tails
  | .aside _ _ rest => rest.tails
  | .empty _ _ rest => rest.tails
  | .element _ _ inner rest => inner.tails ++ [rest]

theorem tails_eq_nil : c.tails = [] ↔ c.elements = [] := by
  induction c with
  | text last => exact iff_of_true rfl rfl
  | reference before name rest ih | aside before skipped rest ih | empty before tag rest ih =>
    exact ih
  | element before tag inner rest =>
    exact iff_of_false (List.append_ne_nil_of_right_ne_nil _ (List.cons_ne_nil _ _))
      (List.cons_ne_nil _ _)

end Content

/-- The events of some contents, with an end tag behind each. -/
def closing (cs : List Content) (rest : List Event) : List Event :=
  cs.foldr (fun c rest => c.events ++ .finish :: rest) rest

theorem closing_append (cs ds : List Content) (rest : List Event) :
    closing (cs ++ ds) rest = closing cs (closing ds rest) :=
  List.foldr_append

theorem length_closing_cons (c : Content) (cs : List Content) (rest : List Event) :
    c.events.length + rest.length < (closing (c :: cs) rest).length := by
  have hle : ∀ ds : List Content, rest.length ≤ (closing ds rest).length := by
    intro ds
    induction ds with
    | nil => exact Nat.le_refl _
    | cons d ds ih =>
      rw [closing, List.foldr_cons, List.length_append, List.length_cons]
      exact Nat.le_add_left_of_le (Nat.le_succ_of_le ih)
  rw [closing, List.foldr_cons, List.length_append, List.length_cons]
  exact Nat.add_lt_add_left (Nat.lt_succ_of_le (hle cs)) _

namespace Reader

/-- What a reader makes of content that an end tag follows. -/
def outcome (r : Reader α) (c : Content) : Except Error α :=
  (r.read (c.events ++ [.finish])).map (·.1)

/-- A reader takes content and the end tag after it, and nothing else. -/
def Settles (r : Reader α) (c : Content) : Prop :=
  ∀ rest, r.read (c.events ++ .finish :: rest) = (r.outcome c).map (·, rest)

/-- A reader stops in content, or behind the end tag after it if nothing is left: of each element
that is open where it stops the rest is left, with its end tag. -/
def Leaves (r : Reader α) (c : Content) (cs : List Content) : Prop :=
  ∀ rest, r.read (c.events ++ .finish :: rest) = (r.outcome c).map (·, closing cs rest)

theorem settles_iff {r : Reader α} : r.Settles c ↔ r.Leaves c [] := .rfl

theorem outcome_of_left {r : Reader α} (cs : List Content) {o : Except Error α}
    (h : ∀ rest, r.read (c.events ++ .finish :: rest) = o.map (·, closing cs rest)) :
    r.outcome c = o := by
  rw [outcome, h]
  cases o with
  | ok => rfl
  | error => rfl

theorem leaves_of {r : Reader α} (cs : List Content) {o : Except Error α}
    (h : ∀ rest, r.read (c.events ++ .finish :: rest) = o.map (·, closing cs rest)) :
    r.Leaves c cs := by
  intro rest
  rw [outcome_of_left cs h, h]

theorem outcome_eq {r : Reader α} {o : Except Error α}
    (h : ∀ rest, r.read (c.events ++ .finish :: rest) = o.map (·, rest)) : r.outcome c = o :=
  outcome_of_left [] h

theorem settles_of {r : Reader α} {o : Except Error α}
    (h : ∀ rest, r.read (c.events ++ .finish :: rest) = o.map (·, rest)) : r.Settles c :=
  leaves_of [] h

/-- A reader makes a value of content and the end tag after it, and takes nothing else. -/
def Reads (r : Reader α) (c : Content) (a : α) : Prop :=
  ∀ rest, r.read (c.events ++ .finish :: rest) = .ok (a, rest)

theorem Reads.settles {r : Reader α} {a : α} (h : r.Reads c a) : r.Settles c :=
  settles_of (o := .ok a) h

theorem Reads.outcome {r : Reader α} {a : α} (h : r.Reads c a) : r.outcome c = .ok a := outcome_eq h

theorem Settles.reads {r : Reader α} {a : α} (h : r.Settles c) (ha : r.outcome c = .ok a) :
    r.Reads c a := by
  intro rest
  rw [h, ha]
  rfl

theorem outcome_bind (r : Reader α) (f : α → Except Error β) :
    (r.bind f).outcome c = (r.outcome c).bind f := by
  simp only [outcome, bind]
  generalize r.read (c.events ++ [.finish]) = found
  rcases found with e | ⟨a, rest⟩
  · rfl
  · rcases hf : f a with e | b
    all_goals simp [Except.map, Except.bind, hf]

theorem Leaves.bind {r : Reader α} {cs : List Content} (h : r.Leaves c cs)
    (f : α → Except Error β) : (r.bind f).Leaves c cs := by
  intro rest
  rw [outcome_bind]
  simp only [Reader.bind, h rest]
  rcases r.outcome c with e | a
  · rfl
  · rcases hf : f a with e | b
    all_goals simp [Except.map, Except.bind, hf]

theorem Settles.bind {r : Reader α} (h : r.Settles c) (f : α → Except Error β) :
    (r.bind f).Settles c :=
  (settles_iff.1 h).bind f

theorem map_id (r : Reader α) : r.map id = r := by
  obtain ⟨read, shorter⟩ := r
  simp only [map, bind, mk.injEq]
  funext events
  split
  · rename_i e he
    exact he.symm
  · rename_i a rest ha
    exact ha.symm

theorem outcome_map (r : Reader α) (f : α → β) : (r.map f).outcome c = (r.outcome c).map f := by
  rw [map, outcome_bind]
  rcases r.outcome c with e | a
  all_goals rfl

theorem Settles.map {r : Reader α} (h : r.Settles c) (f : α → β) : (r.map f).Settles c := h.bind _

theorem Reads.bind {r : Reader α} {f : α → Except Error β} {a : α} {b : β} (h : r.Reads c a)
    (hf : f a = .ok b) : (r.bind f).Reads c b := by
  intro rest
  simp only [Reader.bind, h rest, hf]

theorem Reads.map {r : Reader α} {a : α} (h : r.Reads c a) (f : α → β) : (r.map f).Reads c (f a) :=
  h.bind rfl

end Reader

section Skipping

theorem skipFrom_run (r : Run) (depth : Nat) :
    skipFrom depth (r.events ++ es) = skipFrom depth es := by
  rw [Run.events]
  split
  all_goals rfl

theorem skipFrom_events (c : Content) (depth : Nat) :
    skipFrom (depth + 1) (c.events ++ es) = skipFrom (depth + 1) es := by
  induction c generalizing depth es with
  | text last => exact skipFrom_run last _
  | reference before name rest ih =>
    rw [Content.events, List.append_assoc, skipFrom_run]
    exact ih depth
  | aside before skipped rest ih =>
    rw [Content.events, List.append_assoc, skipFrom_run]
    exact ih depth
  | empty before tag rest ih =>
    rw [Content.events, List.append_assoc, skipFrom_run]
    exact ih depth
  | element before tag inner rest ihInner ih =>
    rw [Content.events, List.append_assoc, skipFrom_run, List.cons_append, skipFrom,
      List.append_assoc, ihInner, List.cons_append, skipFrom, if_neg (by omega)]
    exact ih depth

namespace Reader

theorem settles_skip (c : Content) : skip.Settles c :=
  settles_of (o := .ok ()) fun _ => skipFrom_events c 0

theorem outcome_skip (c : Content) : skip.outcome c = .ok () :=
  outcome_eq fun _ => skipFrom_events c 0

theorem settles_ignore (s : σ) (c : Content) : (ignore s).Settles c := (settles_skip c).map _

theorem outcome_ignore (s : σ) (c : Content) : (ignore s).outcome c = .ok s := by
  rw [ignore, outcome_map, outcome_skip]
  rfl

end Reader

end Skipping

section Texts

/-- Where the pieces of a text are cut does not matter. -/
private theorem textFrom_congr {done done' : List (List Char)}
    (h : done.reverse.flatten = done'.reverse.flatten) : textFrom done es = textFrom done' es := by
  induction es generalizing done done' with
  | nil => rfl
  | cons e es ih =>
    have hpiece : ∀ cs : List Char,
        (cs :: done).reverse.flatten = (cs :: done').reverse.flatten := by
      intro cs
      simp only [List.reverse_cons, List.flatten_append, h]
    cases e with
    | start name => exact ih h
    | empty => exact ih h
    | finish => simp only [textFrom, h]
    | text content =>
      simp only [textFrom]
      split
      · rfl
      · exact ih (hpiece _)
    | reference name =>
      simp only [textFrom]
      split
      · rfl
      · exact ih (hpiece _)
    | other => exact ih h
    | fault e => rfl

theorem textFrom_run (r : Run) (done : List (List Char)) :
    textFrom done (r.events ++ es) = textFrom (r.text.toList :: done) es := by
  have hdecode : decodeText r.bytes = .ok r.text.toList := by
    rw [decodeText, Run.bytes, utf8, Utf8.decode_encode]
  rw [Run.events]
  split
  · rename_i hnil
    rw [hnil] at hdecode
    have hempty : r.text.toList = [] := (Except.ok.inj hdecode).symm
    refine textFrom_congr ?_
    simp [hempty]
  · rw [List.singleton_append, textFrom, hdecode]

/-- A text ends at the first end tag. -/
theorem textFrom_events (done : List (List Char)) :
    textFrom done (c.events ++ .finish :: rest) = c.characters.map fun cs =>
      (String.ofList (done.reverse.flatten ++ cs), closing c.tails rest) := by
  induction c generalizing done rest with
  | text last =>
    rw [Content.events, textFrom_run, textFrom, Content.characters]
    simp [Except.map, closing, Content.tails]
  | reference before name tail ih =>
    rw [Content.events, List.append_assoc, textFrom_run, List.cons_append, textFrom,
      Content.characters]
    rcases resolve name.name with e | c
    · rfl
    · simp only [ih]
      rcases tail.characters with e | cs
      · rfl
      · simp [Except.map, bind, Except.bind, pure, Except.pure, Content.tails]
  | aside before skipped tail ih | empty before tag tail ih =>
    rw [Content.events, List.append_assoc, textFrom_run, List.cons_append, textFrom,
      Content.characters, ih]
    rcases tail.characters with e | cs
    · rfl
    · simp [Except.map, bind, Except.bind, pure, Except.pure, Content.tails]
  | element before tag inner tail ihInner _ =>
    rw [Content.events, List.append_assoc, textFrom_run, List.cons_append, textFrom,
      List.append_assoc, List.cons_append, ihInner, Content.characters, Content.tails]
    rcases inner.characters with e | cs
    · rfl
    · simp [Except.map, bind, Except.bind, pure, Except.pure, closing]

namespace Reader

private theorem read_text (c : Content) (rest : List Event) :
    text.read (c.events ++ .finish :: rest) =
      (c.characters.map String.ofList).map (·, closing c.tails rest) := by
  refine (textFrom_events []).trans ?_
  rcases c.characters with e | cs
  all_goals rfl

theorem leaves_text (c : Content) : text.Leaves c c.tails := leaves_of c.tails (read_text c)

theorem outcome_text (c : Content) : text.outcome c = c.characters.map String.ofList :=
  outcome_of_left c.tails (read_text c)

theorem settles_text (hflat : c.elements = []) : text.Settles c := by
  have hleaves := leaves_text c
  rwa [Content.tails_eq_nil.2 hflat] at hleaves

end Reader

end Texts

section Children
variable {child : String → σ → Reader σ} {s : σ}

theorem childrenFrom_run (r : Run) :
    childrenFrom child s (r.events ++ es) = childrenFrom child s es := by
  rw [Run.events]
  split
  · rfl
  · rw [List.singleton_append, childrenFrom]

/-- An element is read by the reader for its name. -/
theorem childrenFrom_of_decode {name : Bytes} {cs : List Char} (h : Utf8.decode name = .ok cs) :
    childrenFrom child s (.start name :: es) =
      ((child (String.ofList cs) s).read es).bind fun (s, rest) => childrenFrom child s rest := by
  rw [childrenFrom, h]
  dsimp only
  split
  · rename_i e heq
    rw [heq]
    rfl
  · rename_i s rest heq
    rw [heq]
    rfl

theorem childrenFrom_start (name : String) :
    childrenFrom child s (.start (utf8 name) :: es) =
      ((child name s).read es).bind fun (s, rest) => childrenFrom child s rest := by
  rw [utf8, childrenFrom_of_decode (Utf8.decode_encode _), String.ofList_toList]

/-- What the children of an element make of a state. -/
def walk (child : String → σ → Reader σ) (s : σ) (children : List (String × Content)) :
    Except Error σ :=
  children.foldlM (fun s e => (child e.1 s).outcome e.2) s

theorem childrenFrom_events (h : ∀ e ∈ c.elements, ∀ s, (child e.1 s).Settles e.2) (s : σ) :
    childrenFrom child s (c.events ++ es) =
      (walk child s c.elements).bind fun s => childrenFrom child s es := by
  induction c generalizing s with
  | text last => exact childrenFrom_run last
  | reference before name tail ih =>
    rw [Content.events, List.append_assoc, childrenFrom_run, List.cons_append, childrenFrom]
    exact ih h s
  | aside before skipped tail ih =>
    rw [Content.events, List.append_assoc, childrenFrom_run, List.cons_append, childrenFrom]
    exact ih h s
  | empty before tag tail ih =>
    rw [Content.events, List.append_assoc, childrenFrom_run, List.cons_append, childrenFrom]
    exact ih h s
  | element before tag inner tail _ ih =>
    obtain ⟨hfirst, hothers⟩ := List.forall_mem_cons.1 h
    rw [Content.events, List.append_assoc, childrenFrom_run, List.cons_append,
      childrenFrom_start, List.append_assoc, List.cons_append, hfirst s]
    simp only [walk, Content.elements, List.foldlM_cons]
    rcases (child tag.name s).outcome inner with e | s
    · rfl
    · exact ih hothers s

namespace Reader

private theorem read_children (h : ∀ e ∈ c.elements, ∀ s, (child e.1 s).Settles e.2) (s : σ)
    (rest : List Event) :
    (children child s).read (c.events ++ .finish :: rest) =
      (walk child s c.elements).map (·, rest) := by
  refine (childrenFrom_events h s).trans ?_
  rcases walk child s c.elements with e | s
  · rfl
  · simp [Except.bind, Except.map, childrenFrom]

theorem settles_children (h : ∀ e ∈ c.elements, ∀ s, (child e.1 s).Settles e.2) (s : σ) :
    (children child s).Settles c := settles_of (read_children h s)

theorem outcome_children (h : ∀ e ∈ c.elements, ∀ s, (child e.1 s).Settles e.2) (s : σ) :
    (children child s).outcome c = walk child s c.elements := outcome_eq (read_children h s)

end Reader

end Children

/-- The name in the start tag of the root element, and what follows that tag. -/
def rootOf : List Event → Except Error (Bytes × List Event)
  | [] => .error (.missing "root element")
  | .fault e :: _ => .error e
  | .start name :: inner => .ok (name, inner)
  | .finish :: rest => rootOf rest
  | .empty :: rest => rootOf rest
  | .text _ :: rest => rootOf rest
  | .reference _ :: rest => rootOf rest
  | .other :: rest => rootOf rest

section Roots

private theorem rootOf_margin (h : ∀ e ∈ es, e.IsMargin) : rootOf (es ++ rest) = rootOf rest := by
  induction es with
  | nil => rfl
  | cons e es ih =>
    obtain ⟨he, hes⟩ := List.forall_mem_cons.1 h
    cases e with
    | text | other => exact ih hes
    | start | empty | finish | reference | fault => exact False.elim he

theorem rootOf_opening (o : Opening) (after : Bytes) :
    rootOf (ofDocument (o.bytes ++ after)) =
      .ok (utf8 o.root.name, scan [utf8 o.root.name] after) := by
  have hevents : ofDocument (o.bytes ++ after) =
      o.prolog.events ++ .start (utf8 o.root.name) :: scan [utf8 o.root.name] after := by
    rw [Opening.bytes, List.append_assoc]
    exact (o.ofDocument_front _).trans (congrArg _ o.root.scan_startBytes)
  rw [hevents, rootOf_margin o.prolog_margin.isMargin_of_mem, rootOf]

theorem rootOf_bytes (d : Document) :
    rootOf (ofDocument d.bytes) =
      .ok (utf8 d.root.name, d.content.events ++ .finish :: scan [] d.epilog.bytes) := by
  rw [Document.bytes, rootOf_opening, d.content.scan_closed]

/-- A root in one tag is none. -/
theorem rootOf_emptyBytes (o : Opening) {epilog : Content} (h : epilog.IsMargin) :
    rootOf (ofDocument (o.emptyBytes ++ epilog.bytes)) = .error (.missing "root element") := by
  have hevents : ofDocument (o.emptyBytes ++ epilog.bytes) =
      o.prolog.events ++ .empty :: scan [] epilog.bytes := by
    rw [Opening.emptyBytes, List.append_assoc]
    exact (o.ofDocument_front _).trans (congrArg _ o.root.scan_emptyBytes)
  have hepilog : rootOf (epilog.events ++ []) = rootOf [] := rootOf_margin h.isMargin_of_mem
  rw [List.append_nil] at hepilog
  rw [hevents, rootOf_margin o.prolog_margin.isMargin_of_mem, rootOf, Content.scan_whole, hepilog,
    rootOf]

end Roots

namespace Reader
variable {r : Reader α} {d : Document}

/-- The name of the root element, and what is read in that. -/
def rooted (r : Reader α) (es : List Event) : Except Error (Bytes × Except Error α) :=
  (rootOf es).map fun root => (root.1, (r.read root.2).map (·.1))

theorem document_eq (r : Reader α) (es : List Event) :
    r.document es = (r.rooted es).bind (·.2) := by
  induction es with
  | nil => rfl
  | cons e es ih =>
    cases e with
    | fault | start => rfl
    | finish | empty | text | reference | other => exact ih

theorem documentNamed_eq (r : Reader α) (name : Bytes) (es : List Event) :
    r.documentNamed name es = (r.rooted es).toOption.bind fun found =>
      if found.1 = name then found.2.toOption else none := by
  induction es with
  | nil => rfl
  | cons e es ih =>
    cases e with
    | fault => rfl
    | start found =>
      have hvalue : (r.read es).toOption.map (·.1) = ((r.read es).map (·.1)).toOption := by
        cases r.read es
        all_goals rfl
      rw [documentNamed, hvalue]
      rfl
    | finish | empty | text | reference | other => exact ih

/-- Of a document, what follows the start tag of its root is read, whatever that is. -/
theorem rooted_opening (r : Reader α) (o : Opening) (after : Bytes) :
    r.rooted (ofDocument (o.bytes ++ after)) =
      .ok (utf8 o.root.name, (r.read (scan [utf8 o.root.name] after)).map (·.1)) := by
  rw [rooted, rootOf_opening]
  rfl

theorem rooted_emptyBytes (r : Reader α) (o : Opening) {epilog : Content} (h : epilog.IsMargin) :
    r.rooted (ofDocument (o.emptyBytes ++ epilog.bytes)) = .error (.missing "root element") := by
  rw [rooted, rootOf_emptyBytes o h]
  rfl

/-- Of a whole document, the content of its root is read. -/
theorem rooted_of_leaves {cs : List Content} (h : r.Leaves d.content cs) :
    r.rooted (ofDocument d.bytes) = .ok (utf8 d.root.name, r.outcome d.content) := by
  rw [rooted, rootOf_bytes]
  simp only [Except.map]
  rw [h]
  rcases r.outcome d.content with e | a
  all_goals rfl

theorem rooted_bytes (h : r.Settles d.content) :
    r.rooted (ofDocument d.bytes) = .ok (utf8 d.root.name, r.outcome d.content) :=
  rooted_of_leaves (settles_iff.1 h)

theorem document_of_leaves {cs : List Content} (h : r.Leaves d.content cs) :
    r.document (ofDocument d.bytes) = r.outcome d.content := by
  rw [document_eq, rooted_of_leaves h]
  rfl

theorem document_bytes (h : r.Settles d.content) :
    r.document (ofDocument d.bytes) = r.outcome d.content :=
  document_of_leaves (settles_iff.1 h)

end Reader

end BucketTransfer.Xml
