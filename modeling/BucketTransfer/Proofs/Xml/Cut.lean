import BucketTransfer.Proofs.Xml.Shape
import Mathlib.Data.List.TakeWhile

/-!
# Documents that are cut off

What is scanned of the front of a text is scanned of the whole text, except for what the cut itself
leaves: a text, or a fault. So a reader that expects a document does not take a part for it.
-/
namespace BucketTransfer.Xml

open Event

section Fronts
variable {quote : Option UInt8} {mark : UInt8} {least run : Nat}
  {done input content rest more : Bytes}

/-- Where something is left of a text, what comes after the text does not matter. -/
private theorem span_append {p : UInt8 → Bool} (h : input.dropWhile p ≠ []) (more : Bytes) :
    (input ++ more).takeWhile p = input.takeWhile p ∧
    (input ++ more).dropWhile p = input.dropWhile p ++ more := by
  have hlength : (input.takeWhile p).length ≠ input.length := by
    intro heq
    have hsplit := congrArg List.length (List.takeWhile_append_dropWhile (p := p) (l := input))
    rw [List.length_append, heq, Nat.add_eq_left] at hsplit
    exact h (List.length_eq_zero_iff.1 hsplit)
  constructor
  · rw [List.takeWhile_append, if_neg hlength]
  · rw [List.dropWhile_append, if_neg (by simpa using h)]

private theorem tagEnd_append (h : tagEnd quote done input = .ok (content, rest)) :
    tagEnd quote done (input ++ more) = .ok (content, rest ++ more) := by
  induction input generalizing quote done with
  | nil =>
    cases quote
    all_goals cases h
  | cons b bs ih =>
    cases quote with
    | some q => exact ih h
    | none =>
      rw [List.cons_append, tagEnd]
      rw [tagEnd] at h
      split at h
      · rename_i hb
        obtain ⟨rfl, rfl⟩ := Prod.mk.inj (Except.ok.inj h)
        rw [if_pos hb]
      · rename_i hb
        rw [if_neg hb]
        split at h
        · rename_i hquote
          rw [if_pos hquote]
          exact ih h
        · rename_i hquote
          rw [if_neg hquote]
          exact ih h

private theorem afterMarks_append (h : afterMarks mark least run input = some rest) :
    afterMarks mark least run (input ++ more) = some (rest ++ more) := by
  induction input generalizing least run with
  | nil => cases h
  | cons b bs ih =>
    rw [List.cons_append, afterMarks] at *
    split at h
    · cases h
      rw [if_pos ‹_›]
    · rw [if_neg ‹_›, ih h]

private theorem instructionEnd_append {done' : Bytes}
    (h : instructionEnd done input = some (done', rest)) :
    instructionEnd done (input ++ more) = some (done', rest ++ more) := by
  induction input generalizing done with
  | nil => cases h
  | cons b bs ih =>
    rw [List.cons_append, instructionEnd] at *
    split at h
    · cases h
      rw [if_pos ‹_›]
    · rw [if_neg ‹_›, ih h]

private theorem typeEnd_append {place : TypePlace} (h : typeEnd place input = some rest) :
    typeEnd place (input ++ more) = some (rest ++ more) := by
  fun_induction typeEnd place input with
  | case6 after ih =>
    rw [List.cons_append, typeEnd.eq_def]
    exact ih h
  | case11 b after hend hopen ih =>
    rw [List.cons_append, typeEnd.eq_def]
    dsimp only
    rw [if_neg hend, if_neg hopen]
    exact ih h
  | case18 b after dashes hgoes ih =>
    rw [List.cons_append, typeEnd, if_neg hgoes]
    exact ih h
  | _ => simp_all [typeEnd]

private theorem mem_of_typeEnd {place : TypePlace} (h : typeEnd place input = some rest) :
    ascii '>' ∈ input := by
  fun_induction typeEnd place input
  all_goals simp_all

private theorem startsWith_append {word : String} (h : startsWith word input = true)
    (more : Bytes) :
    startsWith word (input ++ more) = true ∧ word.length ≤ input.length := by
  have hlength : word.length ≤ input.length := by
    have heq := congrArg List.length (beq_iff_eq.1 h)
    simp only [List.length_map, List.length_take, String.length_toList] at heq
    omega
  refine ⟨?_, hlength⟩
  rw [startsWith, List.take_append_of_le_length hlength]
  exact h

/-- A document type ends after its keyword. -/
private theorem mem_drop_of_doctype {b : UInt8} (h : startsWith "doctype" (b :: input) = true)
    (hmem : ascii '>' ∈ input) : ascii '>' ∈ input.drop 6 := by
  rw [← List.take_append_drop 6 input] at hmem
  refine (List.mem_append.1 hmem).resolve_left fun hmem => ?_
  have hword : ascii '>' ∈ (b :: input).take 7 := List.mem_cons_of_mem b hmem
  have hlower := List.mem_map_of_mem
    (f := fun b : UInt8 => if 0x41 ≤ b ∧ b ≤ 0x5a then b + 0x20 else b) hword
  rw [show ((b :: input).take 7).map _ = _ from beq_iff_eq.1 h] at hlower
  exact absurd hlower (by decide)

/-- What a declaration may be, and where it ends. -/
private theorem bang_eq_ok {b : UInt8} : bang (b :: input) = .ok rest ↔
    (b = ascii '-' ∧ afterMarks (ascii '-') 4 0 (b :: input) = some rest ∧
      input.head? = some (ascii '-')) ∨
    (b = ascii '[' ∧ afterMarks (ascii ']') 0 0 (b :: input) = some rest ∧
      startsWith "[CDATA[" (b :: input) = true) ∨
    ((b = ascii 'D' ∨ b = ascii 'd') ∧ typeEnd .outside input = some rest ∧
      startsWith "doctype" (b :: input) = true ∧
      ((input.drop 6).dropWhile isSpace).head? ≠ some (ascii '>')) := by
  have hsquare : ascii '[' ≠ ascii '-' := by decide
  have hupper : ascii 'D' ≠ ascii '-' ∧ ascii 'D' ≠ ascii '[' := by decide
  have hlower : ascii 'd' ≠ ascii '-' ∧ ascii 'd' ≠ ascii '[' := by decide
  rw [bang.eq_def]
  dsimp only
  grind

private theorem bang_append (h : bang input = .ok rest) :
    bang (input ++ more) = .ok (rest ++ more) := by
  cases input with
  | nil => cases h
  | cons b bs =>
    rw [List.cons_append, bang_eq_ok, ← List.cons_append]
    rcases bang_eq_ok.1 h with
      ⟨hb, hafter, hhead⟩ | ⟨hb, hafter, hword⟩ | ⟨hb, hafter, hword, hhead⟩
    · refine .inl ⟨hb, afterMarks_append hafter, ?_⟩
      rw [List.head?_append, hhead]
      rfl
    · exact .inr (.inl ⟨hb, afterMarks_append hafter, (startsWith_append hword more).1⟩)
    · obtain ⟨hword', hlength⟩ := startsWith_append hword more
      have hlength : 6 ≤ bs.length := Nat.le_of_succ_le_succ hlength
      have hend : (bs.drop 6).dropWhile isSpace ≠ [] := fun hnil =>
        absurd (List.dropWhile_eq_nil_iff.1 hnil _
          (mem_drop_of_doctype hword (mem_of_typeEnd hafter))) (by decide)
      refine .inr (.inr ⟨hb, typeEnd_append hafter, hword', ?_⟩)
      rw [List.drop_append_of_le_length hlength,
        (span_append hend more).2, List.head?_append_of_ne_nil _ hend]
      exact hhead

private theorem instruction_append (h : instruction input = .ok rest) :
    instruction (input ++ more) = .ok (rest ++ more) := by
  rw [instruction] at h ⊢
  split at h
  · rename_i done after hend
    rw [instructionEnd_append hend]
    split at h
    · cases h
    · rename_i hlong
      cases h
      exact if_neg hlong
  · cases h

end Fronts

section Cuts
variable {opened outer : List Bytes} {cut after more : Bytes} {e : Event} {es : List Event}

/-- The events of the front of a text are scanned of the whole text as well, but for the last of
them, which end no element. -/
def Carries (opened : List Bytes) (cut more : Bytes) (es : List Event) : Prop :=
  ∃ seen last opened' left, es = seen ++ last ∧ .finish ∉ last ∧
    scan opened (cut ++ more) = seen ++ scan opened' (left ++ more)

private theorem carries_of_not_mem (h : .finish ∉ es) : Carries opened cut more es :=
  ⟨[], es, opened, cut, rfl, h, rfl⟩

private theorem Carries.cons (h : Carries outer after more es)
    (hscan : scan opened (cut ++ more) = e :: scan outer (after ++ more)) :
    Carries opened cut more (e :: es) := by
  obtain ⟨seen, last, opened', left, rfl, hlast, hseen⟩ := h
  exact ⟨e :: seen, last, opened', left, rfl, hlast, by rw [hscan, hseen]; rfl⟩

theorem carries_scan (opened : List Bytes) (cut more : Bytes) :
    Carries opened cut more (scan opened cut) := by
  -- Where the scan stops, all of the input is left; where it goes on, its step is one of the whole.
  fun_induction scan opened cut with
  | case1 | case3 | case4 | case6 | case8 | case10 | case11 | case12 | case14 | case15 =>
    exact carries_of_not_mem (by simp)
  | case2 opened inner after h ih =>
    have hspan := span_append (h ▸ List.cons_ne_nil (ascii ';') after) more
    rw [h] at hspan
    refine ih.cons ?_
    rw [← hspan.1]
    exact scan_reference hspan.2
  | case5 opened b inner href hopen ih =>
    have hb : isMarkup b = false := by simp [isMarkup, href, hopen]
    by_cases hrest : inner.dropWhile (fun b => !isMarkup b) = []
    · rw [hrest, scan]
      exact carries_of_not_mem (by simp)
    · have hspan := span_append hrest more
      have htake : (b :: inner ++ more).takeWhile (fun b => !isMarkup b) =
          (b :: inner).takeWhile fun b => !isMarkup b := by
        simp [hb, hspan.1]
      refine ih.cons ?_
      rw [← htake, List.cons_append, scan_text hb, hspan.2]
  | case7 opened b href hopen inner after h ih =>
    obtain rfl := not_not.1 hopen
    exact ih.cons (scan_bang (bang_append h))
  | case9 opened b href hopen inner after _ h ih =>
    obtain rfl := not_not.1 hopen
    exact ih.cons (scan_instruction (instruction_append h))
  | case13 b href hopen inner content after h name outer _ _ ih =>
    obtain rfl := not_not.1 hopen
    exact ih.cons (scan_closing (tagEnd_append h) rfl)
  | case16 opened b href hopen c inner hbang hquestion hslash content after h e outer htag ih =>
    obtain rfl := not_not.1 hopen
    refine ih.cons ?_
    exact (scan_tag hbang hquestion hslash (tagEnd_append h)).trans (by rw [htag])

private theorem scan_ne_nil (h : cut ≠ []) : scan opened cut ≠ [] := by
  fun_induction scan opened cut
  all_goals simp_all

end Cuts

section Ends
variable {α σ : Type} {read next : List Event → Except Error (α × List Event)} {e : Event}
  {es rest : List Event} {a : α}

/-- What is read ends with an end tag, and does not depend on what comes after that. -/
def StopsAt (read : List Event → Except Error (α × List Event)) (es : List Event) (a : α)
    (rest : List Event) : Prop :=
  ∃ used, es = used ++ .finish :: rest ∧
    ∀ rest', read (used ++ .finish :: rest') = .ok (a, rest')

private theorem stopsAt_finish (h : ∀ rest, read (.finish :: rest) = .ok (a, rest)) :
    StopsAt read (.finish :: rest) a rest := ⟨[], rfl, h⟩

private theorem StopsAt.cons (h : StopsAt next es a rest) (hread : ∀ es, read (e :: es) = next es) :
    StopsAt read (e :: es) a rest := by
  obtain ⟨used, rfl, hused⟩ := h
  exact ⟨e :: used, rfl, fun rest' => (hread _).trans (hused rest')⟩

private theorem stopsAt_textFrom {s : String} {done : List (List Char)}
    (h : textFrom done es = .ok (s, rest)) : StopsAt (textFrom done) es s rest := by
  induction es generalizing done with
  | nil => cases h
  | cons e es ih =>
    cases e with
    | fault => cases h
    | finish =>
      cases h
      exact stopsAt_finish fun _ => rfl
    | start | empty | other => exact (ih h).cons fun _ => rfl
    | text content =>
      simp only [textFrom] at h
      split at h
      · cases h
      · rename_i cs hcs
        exact (ih h).cons fun _ => by simp only [textFrom, hcs]
    | reference name =>
      simp only [textFrom] at h
      split at h
      · cases h
      · rename_i c hc
        exact (ih h).cons fun _ => by simp only [textFrom, hc]

private theorem stopsAt_skipFrom {depth : Nat} (h : skipFrom depth es = .ok ((), rest)) :
    StopsAt (skipFrom depth) es () rest := by
  induction es generalizing depth with
  | nil => cases h
  | cons e es ih =>
    cases e with
    | fault => cases h
    | finish =>
      rw [skipFrom] at h
      split at h
      · rename_i hlast
        cases h
        exact stopsAt_finish fun _ => if_pos hlast
      · rename_i hdeep
        exact (ih h).cons fun _ => if_neg hdeep
    | start | empty | text | reference | other => exact (ih h).cons fun _ => rfl

namespace Reader
variable {r : Reader α} {shape : Shape} {c : Content}

def Stops (r : Reader α) : Prop :=
  ∀ ⦃es : List Event⦄ ⦃a : α⦄ ⦃rest : List Event⦄, r.read es = .ok (a, rest) →
    StopsAt r.read es a rest

private theorem Stops.bind {β : Type} (h : r.Stops) (f : α → Except Error β) :
    (r.bind f).Stops := by
  intro es b rest hread
  simp only [Reader.bind] at hread
  split at hread
  · cases hread
  · rename_i a rest' ha
    split at hread
    · cases hread
    · rename_i hb
      cases hread
      obtain ⟨used, rfl, hused⟩ := h ha
      exact ⟨used, rfl, fun rest' => by simp only [Reader.bind, hused rest', hb]⟩

private theorem stops_children {child : String → σ → Reader σ}
    (h : ∀ name s, (child name s).Stops) (s : σ) : (children child s).Stops := by
  intro es t rest hread
  change childrenFrom child s es = .ok (t, rest) at hread
  change StopsAt (childrenFrom child s) es t rest
  fun_induction childrenFrom child s es with
  | case1 | case2 | case4 | case5 => cases hread
  | case3 s rest =>
    cases hread
    exact stopsAt_finish fun _ => by rw [childrenFrom]
  | case6 s name inner cs hcs t rest ht ih =>
    obtain ⟨used, rfl, hused⟩ := h _ _ ht
    obtain ⟨others, rfl, hothers⟩ := ih hread
    refine ⟨.start name :: (used ++ .finish :: others), by simp, fun rest' => ?_⟩
    rw [List.cons_append, List.append_assoc, List.cons_append, childrenFrom_of_decode hcs, hused]
    exact hothers rest'
  | case7 s rest ih | case8 s content rest ih | case9 s name rest ih | case10 s rest ih =>
    exact (ih hread).cons fun _ => by rw [childrenFrom]

theorem Follows.stops (h : r.Follows shape) : r.Stops := by
  induction h with
  | text => exact fun _ _ _ h => stopsAt_textFrom h
  | bind h f ih => exact ih.bind f
  | @record σ fs shapeOf h s ih =>
    refine stops_children (fun name s => ?_) s
    cases hf : Field.find fs name with
    | none =>
      rw [Field.child_of_unknown hf]
      exact Stops.bind (fun _ _ _ h => stopsAt_skipFrom h) fun _ => .ok s
    | some f =>
      rw [Field.child_of_find hf]
      exact (ih f (Field.mem_of_find hf)).bind _

/-- The front of well-formed content is not taken for the whole. -/
theorem Stops.exists_error (hr : r.Stops) (hc : r.Settles c) {seen last : List Event}
    (hseen : seen <+: c.events) (hlast : .finish ∉ last) :
    ∃ e, r.read (seen ++ last) = .error e := by
  rcases hread : r.read (seen ++ last) with e | ⟨a, rest⟩
  · exact ⟨e, rfl⟩
  -- What was used ends with an end tag, so it lies in the content, and leaves an end tag of it.
  obtain ⟨used, hused, hall⟩ := hr hread
  obtain ⟨unseen, hunseen⟩ := hseen
  rcases List.append_eq_append_iff.1 hused with ⟨others, -, rfl⟩ | ⟨others, rfl, hothers⟩
  · exact absurd hlast (by simp)
  cases others with
  | nil =>
    obtain rfl : .finish :: rest = last := hothers
    exact absurd hlast (by simp)
  | cons e others =>
    obtain ⟨rfl, rfl⟩ := List.cons.inj hothers
    have hwhole := hc []
    have hafter := hall (others ++ unseen ++ [.finish])
    rw [← hunseen] at hwhole
    simp only [List.append_assoc, List.cons_append] at hwhole hafter
    rw [hafter] at hwhole
    rcases houtcome : r.outcome c with e | b
    · rw [houtcome] at hwhole
      cases hwhole
    · rw [houtcome] at hwhole
      simp [Except.map] at hwhole

/-- Content whose end tag is cut off is not read. -/
theorem Stops.exists_error_of_cut (hr : r.Stops) (hc : r.Settles c) {tag : Tag} {cut more : Bytes}
    (h : cut ++ more = c.bytes ++ tag.endBytes) (hmore : more ≠ []) :
    ∃ e, r.read (scan [utf8 tag.name] cut) = .error e := by
  obtain ⟨seen, last, opened, left, hcut, hlast, hwhole⟩ := carries_scan [utf8 tag.name] cut more
  have hevents : scan [utf8 tag.name] (cut ++ more) = c.events ++ [.finish] := by
    rw [h, ← List.append_nil tag.endBytes, c.scan_closed, scan]
  have hleft : scan opened (left ++ more) ≠ [] := scan_ne_nil (by simp [hmore])
  rw [hevents] at hwhole
  rw [hcut]
  refine hr.exists_error hc ⟨(scan opened (left ++ more)).dropLast, ?_⟩ hlast
  rw [← List.dropLast_append_of_ne_nil hleft, ← hwhole, List.dropLast_concat]

end Reader

end Ends

end BucketTransfer.Xml
