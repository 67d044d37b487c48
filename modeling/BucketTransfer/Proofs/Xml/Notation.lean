import BucketTransfer.Proofs.Xml.Shape

/-!
# The two notations of an element without content

Such an element is written in one tag or in two. A reader that passes it does not see the
difference; to any other one an element in one tag is no more than a comment.
-/
namespace BucketTransfer.Xml

/-- Content with a place for an element. -/
inductive Context where
  | here (before : Run) (rest : Content)
  | reference (before : Run) (name : Reference) (rest : Context)
  | aside (before : Run) (skipped : Aside) (rest : Context)
  | empty (before : Run) (tag : Tag) (rest : Context)
  | beside (before : Run) (tag : Tag) (inner : Content) (rest : Context)
  | within (before : Run) (tag : Tag) (inner : Context) (rest : Content)

namespace Context

def fill (f : Run → Content → Content) : Context → Content
  | .here before rest => f before rest
  | .reference before name rest => .reference before name (rest.fill f)
  | .aside before skipped rest => .aside before skipped (rest.fill f)
  | .empty before tag rest => .empty before tag (rest.fill f)
  | .beside before tag inner rest => .element before tag inner (rest.fill f)
  | .within before tag inner rest => .element before tag (inner.fill f) rest

/-- With an element in one tag in the place. -/
def inOneTag (k : Context) (tag : Tag) : Content := k.fill fun before rest => .empty before tag rest

/-- With an element in two tags, which has no content, in the place. -/
def inTwoTags (k : Context) (tag : Tag) : Content :=
  k.fill fun before rest => .element before tag (.text .empty) rest

/-- With no element in the place, but something that does not count. -/
def without (k : Context) (skipped : Aside) : Content :=
  k.fill fun before rest => .aside before skipped rest

/-- An element of a name in the place is in none of the fields, but in an element of another name
than they have. -/
def Overlooked (name : String) : Shape → Context → Prop
  | .text, _ => False
  | .fields known, .here _ _ => known.lookup name = none
  | .fields known, .within _ tag inner _ =>
    ∀ shape ∈ known.lookup tag.name, inner.Overlooked name shape
  | shape, .reference _ _ rest => rest.Overlooked name shape
  | shape, .aside _ _ rest => rest.Overlooked name shape
  | shape, .empty _ _ rest => rest.Overlooked name shape
  | shape, .beside _ _ _ rest => rest.Overlooked name shape

variable {k : Context} {tag : Tag} {shape : Shape}

theorem Overlooked.fits_inTwoTags (hk : k.Overlooked tag.name shape)
    (h : (k.inOneTag tag).Fits shape) : (k.inTwoTags tag).Fits shape := by
  induction k generalizing shape with
  | here before rest =>
    cases shape with
    | text => exact False.elim hk
    | fields known =>
      refine ⟨fun shape hshape => ?_, h⟩
      rw [Option.mem_def, show known.lookup tag.name = none from hk] at hshape
      cases hshape
  | reference before name rest ih | aside before skipped rest ih | empty before tag rest ih =>
    cases shape with
    | text => exact False.elim hk
    | fields known => exact ih hk h
  | beside before other inner rest ih =>
    cases shape with
    | text => exact False.elim hk
    | fields known => exact ⟨h.1, ih hk h.2⟩
  | within before other inner rest ih =>
    cases shape with
    | text => exact False.elim hk
    | fields known => exact ⟨fun shape hshape => ih (hk shape hshape) (h.1 shape hshape), h.2⟩

end Context

namespace Reader
variable {α σ : Type} {r : Reader α} {shape : Shape} {k : Context} {tag : Tag}

private theorem walk_notation {fs : List (Field σ)} {shapeOf : String → Shape}
    (hfield : ∀ f ∈ fs, ∀ inner : Context, inner.Overlooked tag.name (shapeOf f.name) →
      (inner.inOneTag tag).Fits (shapeOf f.name) →
      f.reader.outcome (inner.inTwoTags tag) = f.reader.outcome (inner.inOneTag tag))
    (hk : k.Overlooked tag.name (.fields (fs.map fun f => (f.name, shapeOf f.name))))
    (hfits : (k.inOneTag tag).Fits (.fields (fs.map fun f => (f.name, shapeOf f.name)))) (s : σ) :
    walk (Field.child fs) s (k.inTwoTags tag).elements =
      walk (Field.child fs) s (k.inOneTag tag).elements := by
  induction k generalizing s with
  | here before rest =>
    have hunknown : Field.find fs tag.name = none := (lookup_eq_none shapeOf).1 hk
    refine (walk_cons _ s (tag.name, .text .empty) rest.elements).trans ?_
    rw [Field.child_of_unknown hunknown, outcome_ignore]
    rfl
  | reference before name rest ih | aside before skipped rest ih | empty before other rest ih =>
    exact ih hk hfits s
  | beside before other inner rest ih =>
    refine (walk_cons _ s (other.name, inner) _).trans (.trans ?_ (walk_cons _ s _ _).symm)
    exact congrArg _ (funext fun s => ih hk hfits.2 s)
  | within before other inner rest ih =>
    refine (walk_cons _ s (other.name, _) _).trans (.trans ?_ (walk_cons _ s _ _).symm)
    congr 1
    cases hf : Field.find fs other.name with
    | none =>
      rw [Field.child_of_unknown hf]
      exact (outcome_ignore s _).trans (outcome_ignore s _).symm
    | some f =>
      have hname := Field.name_of_find hf
      have hlookup := lookup_of_mem shapeOf (Field.mem_of_find hf)
      rw [hname] at hlookup
      have hsame := hfield f (Field.mem_of_find hf) inner
        (hname ▸ hk _ hlookup) (hname ▸ hfits.1 _ hlookup)
      rw [Field.child_of_find hf, outcome_map, outcome_map]
      exact congrArg _ hsame

/-- Where a reader passes an element without content, it is all the same how that is written. -/
theorem Follows.outcome_notation (h : r.Follows shape) (hk : k.Overlooked tag.name shape)
    (hfits : (k.inOneTag tag).Fits shape) :
    r.outcome (k.inTwoTags tag) = r.outcome (k.inOneTag tag) := by
  induction h generalizing k with
  | text =>
    cases k
    all_goals exact False.elim hk
  | bind h f ih => rw [outcome_bind, outcome_bind, ih hk hfits]
  | record shapeOf h s ih =>
    rw [outcome_of_fits shapeOf h hfits, outcome_of_fits shapeOf h (hk.fits_inTwoTags hfits)]
    exact walk_notation (fun f hf _ hk hfits => ih f hf hk hfits) hk hfits s

end Reader

/-- An element in one tag as something that does not count. -/
def Event.mute : Event → Event
  | .empty => .other
  | e => e

/-- What is left of events that have been read in part. -/
private def muteRest {α : Type} (found : α × List Event) : α × List Event :=
  (found.1, found.2.map .mute)

section Mute
variable {α σ : Type} {es : List Event}

private theorem textFrom_mute (done : List (List Char)) (es : List Event) :
    textFrom done (es.map .mute) = (textFrom done es).map muteRest := by
  induction es generalizing done with
  | nil => rfl
  | cons e es ih =>
    cases e with
    | fault | finish => rfl
    | start | empty | other => exact ih done
    | text content =>
      simp only [List.map_cons, Event.mute, textFrom]
      cases decodeText content with
      | error e => rfl
      | ok cs => exact ih _
    | reference name =>
      simp only [List.map_cons, Event.mute, textFrom]
      cases resolve name with
      | error e => rfl
      | ok c => exact ih _

private theorem skipFrom_mute (depth : Nat) (es : List Event) :
    skipFrom depth (es.map .mute) = (skipFrom depth es).map muteRest := by
  induction es generalizing depth with
  | nil => rfl
  | cons e es ih =>
    cases e with
    | fault => rfl
    | start => exact ih (depth + 1)
    | finish =>
      simp only [List.map_cons, Event.mute, skipFrom]
      split
      · rfl
      · exact ih _
    | empty | text | reference | other => exact ih depth

end Mute

namespace Reader
variable {α β σ : Type} {r : Reader α}

/-- Elements in one tag do not count. -/
def Mutes (r : Reader α) : Prop :=
  ∀ es : List Event, r.read (es.map .mute) = (r.read es).map muteRest

private theorem mutes_text : text.Mutes := textFrom_mute []

private theorem mutes_skip : skip.Mutes := skipFrom_mute 1

private theorem Mutes.bind (h : r.Mutes) (f : α → Except Error β) : (r.bind f).Mutes := by
  intro es
  simp only [Reader.bind, h es]
  rcases r.read es with e | ⟨a, rest⟩
  · rfl
  · simp only [Except.map, muteRest]
    cases f a with
    | error e => rfl
    | ok b => rfl

private theorem mutes_children {child : String → σ → Reader σ}
    (h : ∀ name s, (child name s).Mutes) (s : σ) : (children child s).Mutes := by
  intro es
  change childrenFrom child s (es.map Event.mute) = (childrenFrom child s es).map muteRest
  fun_induction childrenFrom child s es with
  | case1 s =>
    rw [List.map_nil, childrenFrom]
    rfl
  | case2 s e rest | case3 s rest =>
    simp only [List.map_cons, Event.mute]
    rw [childrenFrom]
    rfl
  | case4 s name inner e he =>
    simp only [List.map_cons, Event.mute]
    rw [childrenFrom, he]
    rfl
  | case5 s name inner cs hcs e he =>
    simp only [List.map_cons, Event.mute]
    rw [childrenFrom_of_decode hcs, h, he]
    rfl
  | case6 s name inner cs hcs t rest ht ih =>
    simp only [List.map_cons, Event.mute]
    rw [childrenFrom_of_decode hcs, h, ht]
    exact ih
  | case7 s rest ih | case8 s content rest ih | case9 s name rest ih | case10 s rest ih =>
    simp only [List.map_cons, Event.mute]
    rw [childrenFrom, ih]

private theorem mutes_child {fs : List (Field σ)} (h : ∀ f ∈ fs, f.reader.Mutes) (name : String)
    (s : σ) : (Field.child fs name s).Mutes := by
  cases hf : Field.find fs name with
  | none =>
    rw [Field.child_of_unknown hf]
    exact mutes_skip.bind fun _ => .ok s
  | some f =>
    rw [Field.child_of_find hf]
    exact (h f (Field.mem_of_find hf)).bind _

theorem Follows.mutes {shape : Shape} (h : r.Follows shape) : r.Mutes := by
  induction h with
  | text => exact mutes_text
  | bind h f ih => exact ih.bind f
  | record shapeOf h s ih => exact mutes_children (mutes_child ih) s

/-- What is read of events that differ in nothing but elements in one tag. -/
theorem Mutes.read_eq (h : r.Mutes) {es es' : List Event}
    (hsame : es.map Event.mute = es'.map Event.mute) :
    (r.read es).map (·.1) = (r.read es').map (·.1) := by
  have hread : (r.read es).map muteRest = (r.read es').map muteRest := by
    rw [← h es, ← h es', hsame]
  have hfirst := congrArg (Except.map Prod.fst) hread
  revert hfirst
  rcases r.read es with e | found
  all_goals
    rcases r.read es' with e' | found'
    all_goals exact id

end Reader

/-- An element in one tag stands there like something that does not count. -/
theorem Context.mute_inOneTag (k : Context) (tag : Tag) (skipped : Aside) :
    (k.inOneTag tag).events.map Event.mute = (k.without skipped).events.map Event.mute := by
  simp only [inOneTag, without]
  induction k with
  | here before rest => simp [fill, Content.events, Event.mute]
  | reference before name rest ih | aside before other rest ih | empty before other rest ih =>
    simp [fill, Content.events, ih]
  | beside before other inner rest ih => simp [fill, Content.events, ih]
  | within before other inner rest ih => simp [fill, Content.events, ih]

namespace Reader
variable {α : Type} {r : Reader α} {shape : Shape} {d : Document} {k : Context} {tag : Tag}

theorem Follows.rooted_inTwoTags (h : r.Follows shape) (hk : k.Overlooked tag.name shape)
    (hfits : (k.inOneTag tag).Fits shape) :
    r.rooted (Event.ofDocument (d.holding (k.inTwoTags tag)).bytes) =
      r.rooted (Event.ofDocument (d.holding (k.inOneTag tag)).bytes) := by
  rw [rooted_bytes (h.settles (hk.fits_inTwoTags hfits)), rooted_bytes (h.settles hfits)]
  exact congrArg (fun o => Except.ok (utf8 d.root.name, o)) (h.outcome_notation hk hfits)

theorem Follows.rooted_inOneTag (h : r.Follows shape) (skipped : Aside) :
    r.rooted (Event.ofDocument (d.holding (k.inOneTag tag)).bytes) =
      r.rooted (Event.ofDocument (d.holding (k.without skipped)).bytes) := by
  rw [rooted, rooted, rootOf_bytes, rootOf_bytes]
  refine congrArg (fun o => Except.ok (utf8 d.root.name, o)) (h.mutes.read_eq ?_)
  simp only [Document.holding, List.map_append, k.mute_inOneTag tag skipped]

end Reader

end BucketTransfer.Xml
