import BucketTransfer.Proofs.Xml.Shape

/-!
# Fields that hold more than they should

A text stops at the first end tag, be it that of an element in it. An element with such a field goes
on with what is left of the field, and takes the field's end tag for its own. So it stops too early
itself, and what follows the field is left to the element around it.
-/
namespace BucketTransfer.Xml

variable {α σ : Type} {c d first : Content} {others cs : List Content} {name : String}
  {before after : List (String × Content)} {known : List (String × Shape)}

namespace Content

theorem length_of_mem_elements (h : (name, d) ∈ c.elements) :
    d.events.length < c.events.length := by
  induction c with
  | text last => exact absurd h List.not_mem_nil
  | reference before reference rest ih | aside before skipped rest ih
  | empty before tag rest ih =>
    have hrest := ih h
    rw [events, List.length_append, List.length_cons]
    omega
  | element before tag inner rest _ ih =>
    rw [events, List.length_append, List.length_cons, List.length_append, List.length_cons]
    rcases List.mem_cons.1 h with heq | hmem
    · cases heq
      omega
    · have hrest := ih hmem
      omega

end Content

/-- A text is read up to its own end tag exactly if no element with two tags is in it, and its
references stand for characters. -/
theorem Reader.read_text_eq_ok {rest : List Event} :
    (∃ s, text.read (c.events ++ .finish :: rest) = .ok (s, rest)) ↔
      c.elements = [] ∧ ∃ cs, c.characters = .ok cs := by
  rw [leaves_text c rest, outcome_text, ← Content.tails_eq_nil]
  rcases c.characters with e | cs
  · exact iff_of_false (fun ⟨_, h⟩ => nomatch h) fun ⟨_, _, h⟩ => nomatch h
  · constructor
    · rintro ⟨s, hs⟩
      have hrest : closing c.tails rest = rest := congrArg Prod.snd (Except.ok.inj hs)
      refine ⟨?_, cs, rfl⟩
      cases htails : c.tails with
      | nil => rfl
      | cons first others =>
        have hlength := length_closing_cons first others rest
        rw [htails] at hrest
        rw [hrest] at hlength
        omega
    · rintro ⟨htails, -⟩
      rw [htails]
      exact ⟨_, rfl⟩

/-- The first of some elements that is not of the shape that one of its name should be of. -/
structure FirstOdd (known : List (String × Shape)) (es before : List (String × Content))
    (name : String) (d : Content) (after : List (String × Content)) : Prop where
  split : es = before ++ (name, d) :: after
  fits : ∀ e ∈ before, ∀ shape ∈ known.lookup e.1, e.2.Fits shape
  odd : ∃ shape ∈ known.lookup name, ¬d.Fits shape

theorem exists_firstOdd (h : ¬c.Fits (.fields known)) :
    ∃ before name d after, FirstOdd known c.elements before name d after := by
  rw [Content.fits_fields] at h
  generalize c.elements = es at h
  induction es with
  | nil => exact absurd (fun e he => absurd he List.not_mem_nil) h
  | cons e es ih =>
    by_cases he : ∀ shape ∈ known.lookup e.1, e.2.Fits shape
    · obtain ⟨before, name, d, after, hsplit, hfits, hodd⟩ :=
        ih fun hes => h (List.forall_mem_cons.2 ⟨he, hes⟩)
      exact ⟨e :: before, name, d, after, congrArg (e :: ·) hsplit,
        List.forall_mem_cons.2 ⟨he, hfits⟩, hodd⟩
    · refine ⟨[], e.1, e.2, es, rfl, fun e he => absurd he List.not_mem_nil, ?_⟩
      simpa using he

section Children
variable {child : String → σ → Reader σ}

/-- Behind a child that leaves something, that is what is read next. -/
private theorem childrenFrom_left (h : c.elements = before ++ (name, d) :: after)
    (hbefore : ∀ e ∈ before, ∀ s, (child e.1 s).Settles e.2)
    (hd : ∀ s, (child name s).Leaves d (first :: others)) :
    ∃ last : Content, ∀ s rest, childrenFrom child s (c.events ++ .finish :: rest) =
      (walk child s (before ++ [(name, d)])).bind fun s =>
        childrenFrom child s (first.events ++ .finish :: closing (others ++ [last]) rest) := by
  induction c generalizing before with
  | text last => exact absurd h (by simp [Content.elements])
  | reference run reference tail ih | aside run skipped tail ih | empty run tag tail ih =>
    obtain ⟨last, hlast⟩ := ih h hbefore
    refine ⟨last, fun s rest => ?_⟩
    rw [Content.events, List.append_assoc, childrenFrom_run, List.cons_append, childrenFrom]
    exact hlast s rest
  | element run tag inner tail _ ih =>
    cases before with
    | nil =>
      obtain ⟨hchild, -⟩ := List.cons.inj h
      cases hchild
      refine ⟨tail, fun s rest => ?_⟩
      rw [Content.events, List.append_assoc, childrenFrom_run, List.cons_append,
        childrenFrom_start, List.append_assoc, List.cons_append, hd s]
      rw [List.nil_append, walk_cons, closing_append]
      rcases (child tag.name s).outcome d with e | t
      · rfl
      · rfl
    | cons e before =>
      obtain ⟨rfl, hrest⟩ := List.cons.inj h
      obtain ⟨hfirst, hothers⟩ := List.forall_mem_cons.1 hbefore
      obtain ⟨last, hlast⟩ := ih hrest hothers
      refine ⟨last, fun s rest => ?_⟩
      rw [Content.events, List.append_assoc, childrenFrom_run, List.cons_append,
        childrenFrom_start, List.append_assoc, List.cons_append, hfirst s]
      rw [List.cons_append, walk_cons]
      rcases (child tag.name s).outcome inner with e | t
      · rfl
      · exact hlast t rest

namespace Reader

/-- What a child leaves takes the place of all that follows it. -/
theorem exists_leaves_children (h : c.elements = before ++ (name, d) :: after)
    (hbefore : ∀ e ∈ before, ∀ s, (child e.1 s).Settles e.2)
    (hd : ∀ s, (child name s).Leaves d (first :: others))
    (hfirst : ∀ s, (children child s).Leaves first cs) :
    ∃ last, ∀ s, (children child s).Leaves c (cs ++ (others ++ [last])) ∧
      (children child s).outcome c = (walk child s (before ++ [(name, d)])).bind fun s =>
        (children child s).outcome first := by
  obtain ⟨last, hlast⟩ := childrenFrom_left h hbefore hd
  have hread : ∀ s rest, (children child s).read (c.events ++ .finish :: rest) =
      ((walk child s (before ++ [(name, d)])).bind fun s =>
        (children child s).outcome first).map (·, closing (cs ++ (others ++ [last])) rest) := by
    intro s rest
    refine (hlast s rest).trans ?_
    rw [closing_append cs]
    rcases walk child s (before ++ [(name, d)]) with e | t
    · rfl
    · exact hfirst t _
  exact ⟨last, fun s => ⟨leaves_of _ (hread s), outcome_of_left _ (hread s)⟩⟩

/-- A child that cannot be read fails the element. -/
private theorem leaves_of_error (h : c.elements = before ++ (name, d) :: after)
    (hbefore : ∀ e ∈ before, ∀ s, (child e.1 s).Settles e.2)
    (hd : ∀ s, (child name s).Leaves d (first :: others))
    (herror : ∀ s, ∃ e, walk child s (before ++ [(name, d)]) = .error e) (s : σ) :
    (children child s).Leaves c cs := by
  obtain ⟨last, hlast⟩ := childrenFrom_left h hbefore hd
  obtain ⟨e, he⟩ := herror s
  refine leaves_of cs (o := .error e) fun rest => (hlast s rest).trans ?_
  rw [he]
  rfl

end Reader

end Children

namespace Reader
variable {fs : List (Field σ)} {f : Field σ} {shapeOf : String → Shape} {r : Reader α}
  {shape : Shape}

/-- A reader tells the elements of a shape by what it leaves of them: nothing. -/
def Tells (r : Reader α) (shape : Shape) : Prop :=
  ∀ c, ∃ cs, r.Leaves c cs ∧ (cs = [] ↔ c.Fits shape)

theorem Tells.settles (h : r.Tells shape) (hc : c.Fits shape) : r.Settles c := by
  obtain ⟨cs, hleaves, hiff⟩ := h c
  rwa [hiff.2 hc] at hleaves

theorem Tells.exists_left (h : r.Tells shape) (hc : ¬c.Fits shape) :
    ∃ first others, r.Leaves c (first :: others) := by
  obtain ⟨cs, hleaves, hiff⟩ := h c
  obtain ⟨first, others, rfl⟩ := List.exists_cons_of_ne_nil (hc ∘ hiff.1)
  exact ⟨first, others, hleaves⟩

theorem Leaves.length_lt {a : α} (h : r.Leaves c (first :: others)) (ha : r.outcome c = .ok a) :
    first.events.length < c.events.length := by
  have hread := h []
  rw [ha] at hread
  have hshorter := r.shorter hread
  have hclosing := length_closing_cons first others []
  rw [List.length_append, List.length_singleton] at hshorter
  rw [List.length_nil] at hclosing
  omega

theorem exists_find (h : shape ∈ (fs.map fun f => (f.name, shapeOf f.name)).lookup name) :
    ∃ f, Field.find fs name = some f ∧ shape = shapeOf f.name := by
  cases hfind : Field.find fs name with
  | none => cases (lookup_eq_none shapeOf).2 hfind ▸ h
  | some f =>
    have hlookup := lookup_of_mem shapeOf (Field.mem_of_find hfind)
    rw [Field.name_of_find hfind] at hlookup
    obtain rfl := Option.some.inj (h.symm.trans hlookup)
    exact ⟨f, rfl, congrArg shapeOf (Field.name_of_find hfind).symm⟩

private theorem settles_before (h : ∀ f ∈ fs, f.reader.Tells (shapeOf f.name))
    (hfits : ∀ e ∈ before,
      ∀ shape ∈ (fs.map fun f => (f.name, shapeOf f.name)).lookup e.1, e.2.Fits shape) :
    ∀ e ∈ before, ∀ s, (Field.child fs e.1 s).Settles e.2 := by
  intro e he s
  refine Field.settles_child fun f hf hname => (h f hf).settles (hfits e he _ ?_)
  rw [← hname]
  exact lookup_of_mem shapeOf hf

private theorem leaves_child (hfind : Field.find fs name = some f)
    (hleft : f.reader.Leaves d cs) (s : σ) : (Field.child fs name s).Leaves d cs := by
  rw [Field.child_of_find hfind]
  exact hleft.bind _

/-- A record reads the fields before the first odd one and that one, and goes on in it. -/
private theorem exists_leaves_record (h : ∀ f ∈ fs, f.reader.Tells (shapeOf f.name)) (c : Content) :
    ∃ cs, (∀ s, (record fs s).Leaves c cs) ∧
      (cs = [] ↔ c.Fits (.fields (fs.map fun f => (f.name, shapeOf f.name)))) := by
  -- By length: all that is known of what an odd field leaves is that it is shorter than the field.
  induction hlength : c.events.length using Nat.strongRecOn generalizing c with
  | ind n ih =>
    by_cases hfits : c.Fits (.fields (fs.map fun f => (f.name, shapeOf f.name)))
    · exact ⟨[], fun s => settles_record
        (fun f hf d hd => (h f hf).settles (fits_of_named hfits hf hd)) s, iff_of_true rfl hfits⟩
    obtain ⟨before, name, d, after, hsplit, hbefore, shape, hshape, hodd⟩ := exists_firstOdd hfits
    obtain ⟨f, hfind, rfl⟩ := exists_find hshape
    obtain ⟨first, others, hleft⟩ := (h f (Field.mem_of_find hfind)).exists_left hodd
    have hsettles := settles_before h hbefore
    have hchild := leaves_child hfind hleft
    cases hd : f.reader.outcome d with
    | error e =>
      refine ⟨[c], leaves_of_error hsplit hsettles hchild fun s => ?_,
        iff_of_false (List.cons_ne_nil _ _) hfits⟩
      cases hwalk : walk (Field.child fs) s (before ++ [(name, d)]) with
      | error e => exact ⟨e, rfl⟩
      | ok t =>
        obtain ⟨v, hv⟩ := Field.exists_walk_iff.1 ⟨t, hwalk⟩ (name, d) (by simp) f hfind
        cases hd.symm.trans hv
    | ok v =>
      have hmem : (name, d) ∈ c.elements := by
        rw [hsplit]
        exact List.mem_append_right _ List.mem_cons_self
      have hlt : first.events.length < n :=
        hlength ▸ Nat.lt_trans (hleft.length_lt hd) (Content.length_of_mem_elements hmem)
      obtain ⟨cs, hfirst, -⟩ := ih _ hlt first rfl
      obtain ⟨last, hlast⟩ := exists_leaves_children hsplit hsettles hchild hfirst
      exact ⟨cs ++ (others ++ [last]), fun s => (hlast s).1, iff_of_false (by simp) hfits⟩

/-- A reader leaves nothing of an element exactly if that is of the expected shape. -/
theorem Follows.tells (h : r.Follows shape) : r.Tells shape := by
  induction h with
  | text =>
    exact fun c => ⟨c.tails, leaves_text c, Content.tails_eq_nil.trans Content.fits_text.symm⟩
  | bind h f ih => exact fun c => (ih c).imp fun cs hcs => ⟨hcs.1.bind f, hcs.2⟩
  | record shapeOf h s ih =>
    exact fun c => (exists_leaves_record ih c).imp fun cs hcs => ⟨hcs.1 s, hcs.2⟩

/-- Nothing that follows the first odd field of a record is read, but what is left of the field. -/
theorem outcome_of_firstOdd (h : ∀ f ∈ fs, f.reader.Follows (shapeOf f.name))
    (hodd : FirstOdd (fs.map fun f => (f.name, shapeOf f.name)) c.elements before name d after)
    (hfind : Field.find fs name = some f) (hleft : f.reader.Leaves d (first :: others)) (s : σ) :
    (record fs s).outcome c = (walk (Field.child fs) s (before ++ [(name, d)])).bind fun s =>
      (record fs s).outcome first := by
  have htells := fun f hf => (h f hf).tells
  obtain ⟨cs, hfirst, -⟩ := exists_leaves_record htells first
  obtain ⟨last, hlast⟩ := exists_leaves_children hodd.split (settles_before htells hodd.fits)
    (leaves_child hfind hleft) hfirst
  exact (hlast s).2

end Reader

end BucketTransfer.Xml
