import BucketTransfer.Proofs.Xml.Record

/-!
# Elements that end

Where every element has an end tag and every reference stands for a character, texts and records of
texts can be read, whatever the elements hold. A text may end too early, but something is left then
for the elements around it to end with.
-/
namespace BucketTransfer.Xml

variable {α β σ : Type} {c : Content} {es : List Event} {n : Nat}

/-- Whether a reference stands for a character. -/
def Reference.Known (r : Reference) : Prop := ∃ c, resolve r.name = .ok c

/-- The references in content, in elements as well. -/
def Content.references : Content → List Reference
  | .text _ => []
  | .reference _ name rest => name :: rest.references
  | .aside _ _ rest => rest.references
  | .empty _ _ rest => rest.references
  | .element _ _ inner rest => inner.references ++ rest.references

theorem Content.exists_characters (hflat : c.elements = []) :
    (∃ cs, c.characters = .ok cs) ↔ ∀ r ∈ c.references, r.Known := by
  induction c with
  | text last => exact iff_of_true ⟨_, rfl⟩ fun r hr => absurd hr List.not_mem_nil
  | reference before name rest ih =>
    rw [references, List.forall_mem_cons, ← ih hflat, characters, Reference.Known]
    rcases resolve name.name with e | c
    · exact iff_of_false not_exists_ok fun h => not_exists_ok h.1
    · rcases rest.characters with e | cs
      · exact iff_of_false not_exists_ok fun h => not_exists_ok h.2
      · exact iff_of_true ⟨_, rfl⟩ ⟨⟨_, rfl⟩, _, rfl⟩
  | aside before skipped rest ih | empty before tag rest ih =>
    rw [references, ← ih hflat, characters]
    rcases rest.characters with e | cs
    · exact iff_of_false not_exists_ok not_exists_ok
    · exact iff_of_true ⟨_, rfl⟩ ⟨_, rfl⟩
  | element => exact absurd hflat (List.cons_ne_nil _ _)

/-- Several open elements end in events that can be read. -/
def Ends : Nat → List Event → Prop
  | 0, _ => True
  | _ + 1, [] => False
  | n + 1, .finish :: es => Ends n es
  | n + 1, .start name :: es => (∃ cs, Utf8.decode name = .ok cs) ∧ Ends (n + 2) es
  | n + 1, .text content :: es => (∃ cs, decodeText content = .ok cs) ∧ Ends (n + 1) es
  | n + 1, .reference name :: es => (∃ c, resolve name = .ok c) ∧ Ends (n + 1) es
  | n + 1, .empty :: es => Ends (n + 1) es
  | n + 1, .other :: es => Ends (n + 1) es
  | _ + 1, .fault _ :: _ => False

namespace Ends

theorem zero (es : List Event) : Ends 0 es := by
  rw [Ends]
  trivial

theorem pred (h : Ends (n + 1) es) : Ends n es := by
  induction es generalizing n with
  | nil => exact False.elim h
  | cons e es ih =>
    cases n with
    | zero => trivial
    | succ n =>
      cases e with
      | fault => exact False.elim h
      | finish | empty | other => exact ih h
      | start | text | reference => exact ⟨h.1, ih h.2⟩

theorem run (r : Run) (h : Ends (n + 1) es) : Ends (n + 1) (r.events ++ es) := by
  rw [Run.events]
  split
  · exact h
  · exact ⟨⟨r.text.toList, by rw [decodeText, Run.bytes, utf8, Utf8.decode_encode]⟩, h⟩

theorem content (h : Ends (n + 1) es) (hknown : ∀ r ∈ c.references, r.Known) :
    Ends (n + 1) (c.events ++ es) := by
  induction c generalizing n es with
  | text last => exact run last h
  | reference before name rest ih =>
    obtain ⟨hname, hrest⟩ := List.forall_mem_cons.1 hknown
    rw [Content.events, List.append_assoc]
    exact run before ⟨hname, ih h hrest⟩
  | aside before skipped rest ih =>
    rw [Content.events, List.append_assoc]
    exact run before (ih h hknown)
  | empty before tag rest ih =>
    rw [Content.events, List.append_assoc]
    exact run before (ih h hknown)
  | element before tag inner rest ihInner ih =>
    obtain ⟨hinner, hrest⟩ := List.forall_mem_append.1 hknown
    have hend : Ends (n + 2) (.finish :: (rest.events ++ es)) := ih h hrest
    rw [Content.events, List.append_assoc, List.cons_append, List.append_assoc, List.cons_append]
    exact run before ⟨⟨_, Utf8.decode_encode _⟩, ihInner hend hinner⟩

end Ends

namespace Reader
variable {r : Reader α}

/-- A reader that reads an element of which the end is known to be there, and not more than that. -/
def Sure (r : Reader α) : Prop :=
  ∀ ⦃n : Nat⦄ ⦃es : List Event⦄, Ends (n + 1) es →
    ∃ a rest, r.read es = .ok (a, rest) ∧ Ends n rest

private theorem exists_textFrom (h : Ends (n + 1) es) (done : List (List Char)) :
    ∃ s rest, textFrom done es = .ok (s, rest) ∧ Ends n rest := by
  induction es generalizing n done with
  | nil => exact False.elim h
  | cons e es ih =>
    cases e with
    | fault => exact False.elim h
    | finish => exact ⟨_, es, rfl, h⟩
    | empty | other => exact ih h done
    | start name =>
      obtain ⟨s, rest, hread, hrest⟩ := ih h.2 done
      exact ⟨s, rest, hread, hrest.pred⟩
    | text content =>
      obtain ⟨⟨cs, hcs⟩, hes⟩ := h
      simp only [textFrom, hcs]
      exact ih hes _
    | reference name =>
      obtain ⟨⟨c, hc⟩, hes⟩ := h
      simp only [textFrom, hc]
      exact ih hes _

private theorem exists_skipFrom (depth : Nat) (h : Ends (n + (depth + 1)) es) :
    ∃ rest, skipFrom (depth + 1) es = .ok ((), rest) ∧ Ends n rest := by
  induction es generalizing depth with
  | nil => exact False.elim h
  | cons e es ih =>
    cases e with
    | fault => exact False.elim h
    | empty | other => exact ih depth h
    | text | reference => exact ih depth h.2
    | start name => exact ih (depth + 1) h.2
    | finish =>
      cases depth with
      | zero => exact ⟨es, rfl, h⟩
      | succ depth => exact ih depth h

theorem sure_text : text.Sure := fun _ _ h => exists_textFrom h []

theorem sure_skip : skip.Sure := by
  intro n es h
  obtain ⟨rest, hread, hrest⟩ := exists_skipFrom 0 h
  exact ⟨(), rest, hread, hrest⟩

theorem Sure.map (h : r.Sure) (f : α → β) : (r.map f).Sure := by
  intro n es hends
  obtain ⟨a, rest, hread, hrest⟩ := h hends
  exact ⟨f a, rest, by simp only [Reader.map, Reader.bind, hread], hrest⟩

private theorem exists_childrenFrom {child : String → σ → Reader σ}
    (hchild : ∀ name s, (child name s).Sure) (s : σ) (h : Ends (n + 1) es) :
    ∃ t rest, childrenFrom child s es = .ok (t, rest) ∧ Ends n rest := by
  fun_induction childrenFrom child s es with
  | case1 | case2 => exact False.elim h
  | case3 s rest => exact ⟨s, rest, rfl, h⟩
  | case4 s name inner e he =>
    obtain ⟨⟨cs, hcs⟩, -⟩ := h
    cases hcs.symm.trans he
  | case5 s name inner cs hcs e he =>
    obtain ⟨t, rest, hread, -⟩ := hchild _ _ h.2
    cases hread.symm.trans he
  | case6 s name inner cs hcs t rest ht ih =>
    obtain ⟨t', rest', hread, hrest⟩ := hchild _ _ h.2
    cases hread.symm.trans ht
    exact ih hrest
  | case7 s rest ih | case10 s rest ih => exact ih h
  | case8 s content rest ih | case9 s name rest ih => exact ih h.2

theorem sure_record {fs : List (Field σ)} (h : ∀ f ∈ fs, f.reader.Sure) (s : σ) :
    (record fs s).Sure := by
  intro n es hends
  refine exists_childrenFrom (fun name s => ?_) s hends
  cases hf : Field.find fs name with
  | none =>
    rw [Field.child_of_unknown hf]
    exact sure_skip.map _
  | some f =>
    rw [Field.child_of_find hf]
    exact (h f (Field.mem_of_find hf)).map _

/-- Content in which every reference is known can be read. -/
theorem Sure.exists_read (h : r.Sure) (hknown : ∀ r ∈ c.references, r.Known) (rest : List Event) :
    ∃ a rest', r.read (c.events ++ .finish :: rest) = .ok (a, rest') := by
  have hend : Ends 1 (.finish :: rest) := Ends.zero rest
  have hends : Ends 1 (c.events ++ .finish :: rest) := hend.content hknown
  obtain ⟨a, rest', hread, -⟩ := h hends
  exact ⟨a, rest', hread⟩

end Reader

end BucketTransfer.Xml
