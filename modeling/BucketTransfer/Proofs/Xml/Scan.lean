import BucketTransfer.Proofs.Xml.Content

/-!
# The events of well-formed documents

The bytes of well-formed content are scanned into its events, whatever comes after it that starts
with markup, and a document into those of its root element with a margin around them.
-/
namespace BucketTransfer.Xml

open Event

variable {opened : List Bytes} {rest : Bytes}

/-- What starts with markup, or is nothing. -/
def Halts (rest : Bytes) : Prop := ∀ b ∈ rest.head?, isMarkup b = true

section Steps
variable {b : UInt8} {content inner : Bytes}

theorem scan_reference (h : inner.dropWhile (fun b => !isReferenceEnd b) = ascii ';' :: rest) :
    scan opened (ascii '&' :: inner) =
      .reference (inner.takeWhile fun b => !isReferenceEnd b) :: scan opened rest := by
  rw [scan.eq_def opened (ascii '&' :: _)]
  dsimp only
  rw [if_pos rfl]
  split
  · rename_i heq
    obtain ⟨rfl, rfl⟩ := List.cons.inj (h.symm.trans heq)
    rw [if_pos rfl]
  · rename_i heq
    exact absurd (h.symm.trans heq) (by simp)

theorem scan_text (h : isMarkup b = false) :
    scan opened (b :: inner) =
      .text ((b :: inner).takeWhile fun b => !isMarkup b)
        :: scan opened (inner.dropWhile fun b => !isMarkup b) := by
  simp only [isMarkup, Bool.or_eq_false_iff, beq_eq_false_iff_ne] at h
  obtain ⟨hopen, href⟩ := h
  rw [scan.eq_def opened (b :: _)]
  dsimp only
  rw [if_neg href, if_pos hopen]

theorem scan_bang (h : bang inner = .ok rest) :
    scan opened (ascii '<' :: ascii '!' :: inner) = .other :: scan opened rest := by
  rw [scan, if_neg (by decide), if_neg (by decide)]
  dsimp only
  rw [if_pos rfl]
  split
  · rename_i heq
    obtain rfl := Except.ok.inj (h.symm.trans heq)
    rfl
  · rename_i heq
    exact absurd (h.symm.trans heq) (by simp)

theorem scan_instruction (h : instruction (ascii '?' :: inner) = .ok rest) :
    scan opened (ascii '<' :: ascii '?' :: inner) = .other :: scan opened rest := by
  rw [scan.eq_def opened (ascii '<' :: _)]
  dsimp only
  rw [if_neg (by decide), if_neg (by decide), if_neg (by decide), if_pos rfl]
  split
  · rename_i heq
    obtain rfl := Except.ok.inj (h.symm.trans heq)
    rfl
  · rename_i heq
    exact absurd (h.symm.trans heq) (by simp)

theorem scan_closing {name : Bytes} (h : tagEnd none [] inner = .ok (content, rest))
    (hname : endName content = name) :
    scan (name :: opened) (ascii '<' :: ascii '/' :: inner) = .finish :: scan opened rest := by
  rw [scan.eq_def _ (ascii '<' :: _)]
  dsimp only
  rw [if_neg (by decide), if_neg (by decide), if_neg (by decide), if_neg (by decide), if_pos rfl]
  split
  · rename_i heq
    exact absurd (h.symm.trans heq) (by simp)
  · rename_i heq
    obtain ⟨rfl, rfl⟩ := Prod.mk.inj (Except.ok.inj (h.symm.trans heq))
    exact if_pos hname

theorem scan_tag (hbang : b ≠ ascii '!') (hquestion : b ≠ ascii '?') (hslash : b ≠ ascii '/')
    (h : tagEnd none [] (b :: inner) = .ok (content, rest)) :
    scan opened (ascii '<' :: b :: inner) =
      (ofTag opened content).1 :: scan (ofTag opened content).2 rest := by
  rw [scan.eq_def opened (ascii '<' :: _)]
  dsimp only
  rw [if_neg (by decide), if_neg (by decide), if_neg hbang, if_neg hquestion, if_neg hslash]
  split
  · rename_i heq
    exact absurd (h.symm.trans heq) (by simp)
  · rename_i heq
    obtain ⟨rfl, rfl⟩ := Prod.mk.inj (Except.ok.inj (h.symm.trans heq))
    rfl

end Steps

namespace Run

theorem isMarkup_of_mem (r : Run) : ∀ b ∈ r.bytes, isMarkup b = false := by
  intro b hb
  refine Bool.eq_false_iff.2 fun hmarkup => ?_
  simp only [isMarkup, Bool.or_eq_true, beq_iff_eq] at hmarkup
  rcases hmarkup with rfl | rfl
  · exact (r.plain _ (Utf8.mem_of_mem_encode (by decide) (by decide) hb)).1 rfl
  · exact (r.plain _ (Utf8.mem_of_mem_encode (by decide) (by decide) hb)).2 rfl

theorem scan_bytes (r : Run) (h : Halts rest) :
    scan opened (r.bytes ++ rest) = r.events ++ scan opened rest := by
  have hplain := r.isMarkup_of_mem
  rw [events]
  generalize r.bytes = bs at hplain
  cases bs with
  | nil => rfl
  | cons b bs =>
    obtain ⟨hb, hbs⟩ := List.forall_mem_cons.1 hplain
    have hnone : rest.takeWhile (fun b => !isMarkup b) = [] ∧
        rest.dropWhile (fun b => !isMarkup b) = rest := by
      cases rest with
      | nil => exact ⟨rfl, rfl⟩
      | cons c rest =>
        have hc := h c rfl
        exact ⟨List.takeWhile_cons_of_neg (by simp [hc]), List.dropWhile_cons_of_neg (by simp [hc])⟩
    have hall : ∀ c ∈ b :: bs, (!isMarkup c) = true := by simpa using hplain
    have hothers : ∀ c ∈ bs, (!isMarkup c) = true := by simpa using hbs
    have htake : (b :: bs ++ rest).takeWhile (fun b => !isMarkup b) =
        b :: bs ++ rest.takeWhile fun b => !isMarkup b := List.takeWhile_append_of_pos hall
    rw [List.cons_append] at htake ⊢
    rw [scan_text hb, htake, List.dropWhile_append_of_pos hothers, hnone.1, hnone.2,
      List.append_nil, if_neg (List.cons_ne_nil b bs)]
    rfl

end Run

theorem Reference.scan_bytes (r : Reference) :
    scan opened (r.bytes ++ rest) = .reference r.name :: scan opened rest := by
  let p : UInt8 → Bool := fun b => !isReferenceEnd b
  have hall : ∀ b ∈ r.name, p b = true := by simpa [p] using r.whole
  have hend : ¬p (ascii ';') = true := by decide
  have htake : (r.name ++ ascii ';' :: rest).takeWhile p = r.name := by
    rw [List.takeWhile_append_of_pos hall, List.takeWhile_cons_of_neg hend, List.append_nil]
  have hdrop : (r.name ++ ascii ';' :: rest).dropWhile p = ascii ';' :: rest := by
    rw [List.dropWhile_append_of_pos hall, List.dropWhile_cons_of_neg hend]
  rw [bytes, List.cons_append, List.append_assoc, List.singleton_append, scan_reference hdrop,
    htake]

section Marks
variable {mark : UInt8} {content : Bytes} {least run : Nat}

/-- Content with two marks and an angle bracket after it ends there, if it does not do so before. -/
private theorem afterMarks_closed (hmark : mark ≠ ascii '>')
    (h : ∀ u v, content = u ++ ascii '>' :: v → least ≤ u.length →
      ¬[mark, mark] <:+ List.replicate run mark ++ u)
    (hleast : least ≤ content.length + 2) :
    afterMarks mark least run (content ++ mark :: mark :: ascii '>' :: rest) = some rest := by
  induction content generalizing least run with
  | nil =>
    have hdone : least - 1 - 1 = 0 := by
      simp only [List.length_nil] at hleast
      omega
    simp [afterMarks, hmark, hdone]
  | cons b bs ih =>
    have hgoes : ¬(b = ascii '>' && least = 0 && 2 ≤ run) = true := by
      simp only [Bool.and_eq_true, decide_eq_true_eq]
      rintro ⟨⟨rfl, rfl⟩, hrun⟩
      refine h [] bs rfl (Nat.le_refl 0) ?_
      obtain ⟨n, rfl⟩ := Nat.exists_eq_add_of_le' hrun
      rw [List.append_nil, ← List.replicate_append_replicate]
      exact List.suffix_append _ _
    rw [List.cons_append, afterMarks, if_neg hgoes]
    refine ih (fun u v heq hu hsuffix => ?_) ?_
    · refine h (b :: u) v (congrArg (b :: ·) heq) (by simp only [List.length_cons]; omega) ?_
      split at hsuffix
      · rename_i hb
        rw [hb, List.append_cons, ← List.replicate_succ']
        exact hsuffix
      · rw [List.append_cons]
        exact hsuffix.trans (List.suffix_append _ _)
    · simp only [List.length_cons] at hleast
      omega

private theorem instructionEnd_closed {done : Bytes}
    (h : ∀ u v, content = u ++ ascii '>' :: v → (u.reverse ++ done).head? ≠ some (ascii '?')) :
    instructionEnd done (content ++ ascii '?' :: ascii '>' :: rest) =
      some (ascii '?' :: (content.reverse ++ done), rest) := by
  induction content generalizing done with
  | nil =>
    have hmark : ascii '?' ≠ ascii '>' := by decide
    simp [instructionEnd, hmark]
  | cons b bs ih =>
    have hgoes : ¬(b = ascii '>' && done.head? = some (ascii '?')) = true := by
      simp only [Bool.and_eq_true, decide_eq_true_eq]
      rintro ⟨rfl, hhead⟩
      exact h [] bs rfl hhead
    rw [List.cons_append, instructionEnd, if_neg hgoes, ih, List.reverse_cons, List.append_assoc,
      List.singleton_append]
    intro u v heq
    have hhead := h (b :: u) v (congrArg (b :: ·) heq)
    rwa [List.reverse_cons, List.append_assoc, List.singleton_append] at hhead

end Marks

section Asides
variable {content : Bytes}

private theorem bang_comment (h : ¬utf8 "-->" <:+: content) :
    bang (ascii '-' :: ascii '-' :: (content ++ ascii '-' :: ascii '-' :: ascii '>' :: rest)) =
      .ok rest := by
  have hmarks : utf8 "-->" = [ascii '-', ascii '-'] ++ [ascii '>'] := by decide
  have hafter : afterMarks (ascii '-') 2 2
      (content ++ ascii '-' :: ascii '-' :: ascii '>' :: rest) = some rest := by
    refine afterMarks_closed (by decide) (fun u v heq hu hsuffix => ?_) (by omega)
    obtain ⟨w, rfl⟩ : [ascii '-', ascii '-'] <:+ u :=
      List.suffix_of_suffix_length_le hsuffix (List.suffix_append _ _) hu
    exact h ⟨w, v, by rw [heq, hmarks]; simp⟩
  have hstart : afterMarks (ascii '-') 4 0 (ascii '-' :: ascii '-' ::
      (content ++ ascii '-' :: ascii '-' :: ascii '>' :: rest)) = some rest := hafter
  rw [bang.eq_def]
  dsimp only
  rw [if_pos rfl, hstart]
  exact if_pos rfl

private theorem bang_characterData (h : ¬utf8 "]]>" <:+: content) :
    bang (utf8 "[CDATA[" ++ (content ++ ascii ']' :: ascii ']' :: ascii '>' :: rest)) =
      .ok rest := by
  have hmarks : utf8 "]]>" = [ascii ']', ascii ']'] ++ [ascii '>'] := by decide
  have hword : utf8 "[CDATA[" = ascii '[' :: utf8 "CDATA[" := by decide
  have hafter : afterMarks (ascii ']') 0 0
      (content ++ ascii ']' :: ascii ']' :: ascii '>' :: rest) = some rest := by
    refine afterMarks_closed (by decide) (fun u v heq _ hsuffix => ?_) (Nat.zero_le _)
    obtain ⟨w, rfl⟩ : [ascii ']', ascii ']'] <:+ u := hsuffix
    exact h ⟨w, v, by rw [heq, hmarks]; simp⟩
  have hstart : afterMarks (ascii ']') 0 0 (ascii '[' :: (utf8 "CDATA[" ++
      (content ++ ascii ']' :: ascii ']' :: ascii '>' :: rest))) = some rest := hafter
  have hkeyword : startsWith "[CDATA[" (ascii '[' :: (utf8 "CDATA[" ++
      (content ++ ascii ']' :: ascii ']' :: ascii '>' :: rest))) = true := rfl
  rw [hword, List.cons_append, bang.eq_def]
  dsimp only
  rw [if_neg (by decide), if_pos rfl, hstart]
  exact if_pos hkeyword

private theorem instruction_closed (h : ¬utf8 "?>" <:+: ascii '?' :: content) :
    instruction (ascii '?' :: (content ++ ascii '?' :: ascii '>' :: rest)) = .ok rest := by
  have hmarks : utf8 "?>" = [ascii '?', ascii '>'] := by decide
  have hend : instructionEnd [] (ascii '?' :: content ++ ascii '?' :: ascii '>' :: rest) =
      some (ascii '?' :: ((ascii '?' :: content).reverse ++ []), rest) := by
    refine instructionEnd_closed fun u v heq hhead => ?_
    obtain ⟨w, hw⟩ := List.head?_eq_some_iff.1 hhead
    rw [List.append_nil, List.reverse_eq_iff, List.reverse_cons] at hw
    exact h ⟨w.reverse, v, by rw [heq, hw, hmarks]; simp⟩
  rw [instruction, ← List.cons_append, hend]
  simp

end Asides

theorem Aside.scan_bytes (a : Aside) :
    scan opened (a.bytes ++ rest) = .other :: scan opened rest := by
  cases a with
  | comment content whole =>
    have hopening : utf8 "<!--" = [ascii '<', ascii '!', ascii '-', ascii '-'] := by decide
    have hclosing : utf8 "-->" = [ascii '-', ascii '-', ascii '>'] := by decide
    rw [bytes, hopening, hclosing, ← scan_bang (bang_comment whole)]
    simp
  | characterData content whole =>
    have hopening : utf8 "<![CDATA[" = ascii '<' :: ascii '!' :: utf8 "[CDATA[" := by decide
    have hclosing : utf8 "]]>" = [ascii ']', ascii ']', ascii '>'] := by decide
    rw [bytes, hopening, hclosing, ← scan_bang (bang_characterData whole)]
    simp
  | instruction content whole =>
    have hopening : utf8 "<?" = [ascii '<', ascii '?'] := by decide
    have hclosing : utf8 "?>" = [ascii '?', ascii '>'] := by decide
    rw [bytes, hopening, hclosing, ← scan_instruction (instruction_closed whole)]
    simp

section Tags
variable {content : Bytes}

private theorem tagEnd_unquoted (h : ∀ b ∈ content, isUnquoted b = true) (done : Bytes) :
    tagEnd none done (content ++ rest) = tagEnd none (content.reverse ++ done) rest := by
  induction content generalizing done with
  | nil => rfl
  | cons b bs ih =>
    obtain ⟨hb, hbs⟩ := List.forall_mem_cons.1 h
    simp only [isUnquoted, Bool.and_eq_true, bne_iff_ne] at hb
    obtain ⟨⟨hend, hdouble⟩, hsingle⟩ := hb
    rw [List.cons_append, tagEnd]
    simp only [if_neg hend, hdouble, hsingle, decide_false, Bool.or_false, Bool.false_eq_true,
      if_false]
    rw [ih hbs, List.reverse_cons, List.append_assoc, List.singleton_append]

private theorem tagEnd_value {quote : UInt8} (h : quote ∉ content) (done : Bytes) :
    tagEnd (some quote) done (content ++ quote :: rest) =
      tagEnd none (quote :: (content.reverse ++ done)) rest := by
  induction content generalizing done with
  | nil =>
    rw [List.nil_append, tagEnd, if_pos rfl]
    rfl
  | cons b bs ih =>
    obtain ⟨hb, hbs⟩ := not_or.1 (mt List.mem_cons.2 h)
    rw [List.cons_append, tagEnd, if_neg (Ne.symm hb), ih hbs, List.reverse_cons,
      List.append_assoc, List.singleton_append]

private theorem tagEnd_attribute (a : Attribute) (done : Bytes) :
    tagEnd none done (a.bytes ++ rest) = tagEnd none (a.bytes.reverse ++ done) rest := by
  have hopens : ∀ done inner, tagEnd none done (a.quote :: inner) =
      tagEnd (some a.quote) (a.quote :: done) inner := by
    intro done inner
    rw [tagEnd]
    rcases a.quotes with h | h
    all_goals simp [h, show ascii '"' ≠ ascii '>' by decide, show ascii '\'' ≠ ascii '>' by decide]
  rw [Attribute.bytes, List.append_assoc, tagEnd_unquoted a.unquoted, List.cons_append, hopens,
    List.append_assoc, List.singleton_append, tagEnd_value a.whole]
  simp

private theorem tagEnd_attributes (as : List Attribute) (done : Bytes) :
    tagEnd none done (as.flatMap Attribute.bytes ++ rest) =
      tagEnd none ((as.flatMap Attribute.bytes).reverse ++ done) rest := by
  induction as generalizing done with
  | nil => rfl
  | cons a as ih =>
    rw [List.flatMap_cons, List.append_assoc, tagEnd_attribute, ih, List.reverse_append,
      List.append_assoc]

private theorem isUnquoted_of_isSpace {b : UInt8} (h : isSpace b = true) : isUnquoted b = true := by
  simp only [isSpace, Bool.or_eq_true, beq_iff_eq] at h
  rcases h with ((rfl | rfl) | rfl) | rfl
  all_goals decide

private theorem ne_of_isNameByte {b : UInt8} (h : isNameByte b = true) (c : UInt8)
    (hc : isNameByte c = false) : b ≠ c := by
  rintro rfl
  exact absurd (h.symm.trans hc) (by simp)

private theorem isUnquoted_of_isNameByte {b : UInt8} (h : isNameByte b = true) :
    isUnquoted b = true := by
  simp [isUnquoted, ne_of_isNameByte h (ascii '>') (by decide),
    ne_of_isNameByte h (ascii '"') (by decide), ne_of_isNameByte h (ascii '\'') (by decide)]

private theorem not_isSpace_of_isNameByte {b : UInt8} (h : isNameByte b = true) :
    isSpace b = false := by
  simp [isSpace, ne_of_isNameByte h 0x20 (by decide), ne_of_isNameByte h 0x0a (by decide),
    ne_of_isNameByte h 0x09 (by decide), ne_of_isNameByte h 0x0d (by decide)]

end Tags

namespace Tag
variable {t : Tag}

private theorem tagEnd_inside (t : Tag) (tail : Bytes) (h : ∀ b ∈ tail, isUnquoted b = true) :
    tagEnd none [] (t.inside ++ (tail ++ ascii '>' :: rest)) = .ok (t.inside ++ tail, rest) := by
  have hname : ∀ b ∈ utf8 t.name, isUnquoted b = true :=
    fun b hb => isUnquoted_of_isNameByte (t.named b hb)
  have hspace : ∀ b ∈ t.space, isUnquoted b = true :=
    fun b hb => isUnquoted_of_isSpace (t.space_blank b hb)
  rw [inside, List.append_assoc, tagEnd_unquoted hname, List.append_assoc, tagEnd_attributes,
    tagEnd_unquoted hspace, tagEnd_unquoted h, tagEnd, if_pos rfl]
  simp

private theorem getLast?_attributes (as : List Attribute) :
    (as.flatMap Attribute.bytes).getLast? ≠ some (ascii '/') := by
  induction as with
  | nil => simp
  | cons a as ih =>
    have hquote : a.bytes.getLast? = some a.quote := by
      rw [Attribute.bytes, ← List.cons_append, ← List.append_assoc, List.getLast?_concat]
    rw [List.flatMap_cons, List.getLast?_append, hquote]
    intro h
    rcases Option.or_eq_some_iff.1 h with h | ⟨-, h⟩
    · exact ih h
    · rcases a.quotes with hq | hq
      all_goals
        rw [hq] at h
        exact absurd h (by decide)

/-- A start tag does not look like the tag of an empty element. -/
private theorem getLast?_inside (t : Tag) : t.inside.getLast? ≠ some (ascii '/') := by
  intro h
  rw [inside, List.getLast?_append, List.getLast?_append] at h
  rcases Option.or_eq_some_iff.1 h with h | ⟨-, h⟩
  · rcases Option.or_eq_some_iff.1 h with h | ⟨-, h⟩
    · exact absurd (t.space_blank _ (List.mem_of_getLast? h)) (by decide)
    · exact getLast?_attributes _ h
  · exact absurd (t.named _ (List.mem_of_getLast? h)) (by decide)

private theorem takeWhile_inside (t : Tag) :
    t.inside.takeWhile (fun b => !isSpace b) = utf8 t.name := by
  have hname : ∀ b ∈ utf8 t.name, (!isSpace b) = true := by
    intro b hb
    rw [not_isSpace_of_isNameByte (t.named b hb)]
    rfl
  have hrest : (t.attributes.flatMap Attribute.bytes ++ t.space).takeWhile
      (fun b => !isSpace b) = [] := by
    rcases hattributes : t.attributes with _ | ⟨a, as⟩
    · rcases hspace : t.space with _ | ⟨b, bs⟩
      · rfl
      · have hb := t.space_blank b (hspace ▸ List.mem_cons_self)
        simp [hb]
    · have hblank := a.blank
      rcases hlead : a.lead with _ | ⟨b, bs⟩
      · rw [hlead] at hblank
        exact absurd hblank (by simp)
      · rw [hlead] at hblank
        have hb : isSpace b = true := hblank
        simp [Attribute.bytes, hlead, hb]
  rw [inside, List.takeWhile_append_of_pos hname, hrest, List.append_nil]

/-- What is scanned of a tag that starts with a name. -/
private theorem scan_inside {content : Bytes} (t : Tag) (tail : Bytes)
    (h : tagEnd none [] (t.inside ++ tail) = .ok (content, rest)) :
    scan opened (ascii '<' :: (t.inside ++ tail)) =
      (ofTag opened content).1 :: scan (ofTag opened content).2 rest := by
  obtain ⟨b, bs, hbs⟩ := List.exists_cons_of_ne_nil t.ne_nil
  have hb := t.named b (hbs ▸ List.mem_cons_self)
  obtain ⟨inner, hinner⟩ : ∃ inner, t.inside ++ tail = b :: inner := ⟨_, by rw [inside, hbs]; rfl⟩
  rw [hinner] at h ⊢
  exact scan_tag (ne_of_isNameByte hb _ (by decide)) (ne_of_isNameByte hb _ (by decide))
    (ne_of_isNameByte hb _ (by decide)) h

theorem scan_startBytes (t : Tag) : scan opened (t.startBytes ++ rest) =
    .start (utf8 t.name) :: scan (utf8 t.name :: opened) rest := by
  have hend : tagEnd none [] (t.inside ++ ([] ++ ascii '>' :: rest)) = .ok (t.inside ++ [], rest) :=
    t.tagEnd_inside [] (by simp)
  rw [List.nil_append, List.append_nil] at hend
  rw [startBytes, List.cons_append, List.append_assoc, List.singleton_append, scan_inside t _ hend,
    ofTag, if_neg t.getLast?_inside, takeWhile_inside]

theorem scan_emptyBytes (t : Tag) :
    scan opened (t.emptyBytes ++ rest) = .empty :: scan opened rest := by
  have hend : tagEnd none [] (t.inside ++ ([ascii '/'] ++ ascii '>' :: rest)) =
      .ok (t.inside ++ [ascii '/'], rest) := t.tagEnd_inside [ascii '/'] (by decide)
  rw [List.singleton_append] at hend
  rw [emptyBytes, List.cons_append, List.append_assoc, List.cons_append, List.singleton_append,
    scan_inside t _ hend, ofTag, List.getLast?_concat, if_pos rfl]

private theorem endName_closing (t : Tag) : endName (utf8 t.name ++ t.closing) = utf8 t.name := by
  have hblank : ∀ b ∈ t.closing.reverse, isSpace b = true :=
    fun b hb => t.closing_blank b (List.mem_reverse.1 hb)
  have hlast : (utf8 t.name).reverse.dropWhile isSpace = (utf8 t.name).reverse := by
    rcases hname : (utf8 t.name).reverse with _ | ⟨b, bs⟩
    · rfl
    · have hb : b ∈ utf8 t.name := List.mem_reverse.1 (hname ▸ List.mem_cons_self)
      exact List.dropWhile_cons_of_neg (by simp [not_isSpace_of_isNameByte (t.named b hb)])
  have hempty : (utf8 t.name).isEmpty = false := by simpa using t.ne_nil
  rw [endName, List.reverse_append, List.dropWhile_append_of_pos hblank, hlast,
    List.reverse_reverse]
  simp [hempty]

theorem scan_endBytes (t : Tag) :
    scan (utf8 t.name :: opened) (t.endBytes ++ rest) = .finish :: scan opened rest := by
  have hunquoted : ∀ b ∈ utf8 t.name ++ t.closing, isUnquoted b = true := by
    intro b hb
    rcases List.mem_append.1 hb with hb | hb
    · exact isUnquoted_of_isNameByte (t.named b hb)
    · exact isUnquoted_of_isSpace (t.closing_blank b hb)
  have hend : tagEnd none [] (utf8 t.name ++ t.closing ++ ascii '>' :: rest) =
      .ok (utf8 t.name ++ t.closing, rest) := by
    rw [tagEnd_unquoted hunquoted, tagEnd, if_pos rfl]
    simp
  rw [endBytes, List.cons_append, List.cons_append, List.append_assoc, List.singleton_append,
    scan_closing hend t.endName_closing]

end Tag

theorem halts_of_cons {b : UInt8} {bs : Bytes} (h : isMarkup b = true) : Halts (b :: bs) := by
  intro c hc
  obtain rfl := Option.some.inj hc
  exact h

namespace Content

theorem scan_bytes (c : Content) (h : Halts rest) :
    scan opened (c.bytes ++ rest) = c.events ++ scan opened rest := by
  induction c generalizing opened rest with
  | text last => exact last.scan_bytes h
  | reference before name tail ih =>
    have hmarkup : Halts (name.bytes ++ (tail.bytes ++ rest)) := halts_of_cons (by decide)
    rw [bytes, events, List.append_assoc, List.append_assoc, before.scan_bytes hmarkup,
      name.scan_bytes, ih h, List.append_assoc, List.cons_append]
  | aside before skipped tail ih =>
    have hmarkup : Halts (skipped.bytes ++ (tail.bytes ++ rest)) := by
      cases skipped
      all_goals exact halts_of_cons (by decide)
    rw [bytes, events, List.append_assoc, List.append_assoc, before.scan_bytes hmarkup,
      skipped.scan_bytes, ih h, List.append_assoc, List.cons_append]
  | empty before tag tail ih =>
    have hmarkup : Halts (tag.emptyBytes ++ (tail.bytes ++ rest)) := halts_of_cons (by decide)
    rw [bytes, events, List.append_assoc, List.append_assoc, before.scan_bytes hmarkup,
      tag.scan_emptyBytes, ih h, List.append_assoc, List.cons_append]
  | element before tag inner tail ihInner ih =>
    have hstart :
        Halts (tag.startBytes ++ (inner.bytes ++ (tag.endBytes ++ (tail.bytes ++ rest)))) :=
      halts_of_cons (by decide)
    have hend : Halts (tag.endBytes ++ (tail.bytes ++ rest)) := halts_of_cons (by decide)
    simp only [bytes, events, List.append_assoc, List.cons_append]
    rw [before.scan_bytes hstart, tag.scan_startBytes, ihInner hend, tag.scan_endBytes, ih h]

/-- Content up to the end tag of the element that it stands in. -/
theorem scan_closed (c : Content) (tag : Tag) (rest : Bytes) :
    scan (utf8 tag.name :: opened) (c.bytes ++ (tag.endBytes ++ rest)) =
      c.events ++ .finish :: scan opened rest := by
  have hend : Halts (tag.endBytes ++ rest) := halts_of_cons (by decide)
  rw [c.scan_bytes hend, tag.scan_endBytes]

theorem scan_whole (c : Content) (opened : List Bytes) : scan opened c.bytes = c.events := by
  have hscan : scan opened (c.bytes ++ []) = c.events ++ scan opened [] :=
    c.scan_bytes (by simp [Halts])
  rwa [List.append_nil, scan.eq_def opened [], List.append_nil] at hscan

/-- What is written alike has the same events. -/
theorem events_eq_of_bytes_eq {c d : Content} (h : c.bytes = d.bytes) : c.events = d.events := by
  rw [← c.scan_whole [], ← d.scan_whole [], h]

end Content

/-- A text or an aside, as in the margins of a document. -/
def Event.IsMargin : Event → Prop
  | .text _ => True
  | .other => True
  | _ => False

theorem Run.isMargin_of_mem (r : Run) : ∀ e ∈ r.events, e.IsMargin := by
  intro e he
  rw [Run.events] at he
  split at he
  · exact absurd he List.not_mem_nil
  · obtain rfl := List.mem_singleton.1 he
    exact trivial

namespace Content

theorem IsMargin.isMargin_of_mem {c : Content} (h : c.IsMargin) : ∀ e ∈ c.events, e.IsMargin := by
  induction c with
  | text last => exact last.isMargin_of_mem
  | aside before skipped rest ih =>
    intro e he
    rcases List.mem_append.1 he with he | he
    · exact before.isMargin_of_mem e he
    · rcases List.mem_cons.1 he with rfl | he
      · exact trivial
      · exact ih h.2 e he
  | reference => exact False.elim h
  | empty => exact False.elim h
  | element => exact False.elim h

private theorem head?_blank {r : Run} (h : ∀ b ∈ r.bytes, isSpace b = true) (tail : Bytes) :
    (r.bytes ++ ascii '<' :: tail).head? ≠ some 0xef := by
  intro heq
  rcases hr : r.bytes with _ | ⟨b, bs⟩
  · rw [hr] at heq
    exact absurd (Option.some.inj heq) (by decide)
  · rw [hr] at heq h
    obtain rfl := Option.some.inj heq
    exact absurd (h _ List.mem_cons_self) (by decide)

/-- Blanks and markup at the front are no byte order mark. -/
private theorem IsMargin.head? {c : Content} (h : c.IsMargin) (rest : Bytes) :
    (c.bytes ++ ascii '<' :: rest).head? ≠ some 0xef := by
  cases c with
  | text last => exact head?_blank h rest
  | aside before skipped tail =>
    obtain ⟨inner, hinner⟩ : ∃ inner, skipped.bytes = ascii '<' :: inner := by
      cases skipped
      all_goals exact ⟨_, rfl⟩
    have hbefore := head?_blank h.1 (inner ++ (tail.bytes ++ ascii '<' :: rest))
    simpa only [bytes, hinner, List.append_assoc, List.cons_append] using hbefore
  | reference => exact False.elim h
  | empty => exact False.elim h
  | element => exact False.elim h

end Content

theorem Opening.ofDocument_front (o : Opening) (rest : Bytes) :
    ofDocument (o.front ++ ascii '<' :: rest) =
      o.prolog.events ++ scan [] (ascii '<' :: rest) := by
  have hscan : scan [] (o.prolog.bytes ++ ascii '<' :: rest) =
      o.prolog.events ++ scan [] (ascii '<' :: rest) :=
    o.prolog.scan_bytes (halts_of_cons (by decide))
  rw [← hscan, front]
  cases o.marked with
  | true => rfl
  | false =>
    have hhead := o.prolog_margin.head? rest
    change ofDocument (o.prolog.bytes ++ ascii '<' :: rest) = _
    rw [ofDocument]
    intro tail heq
    exact hhead (congrArg List.head? heq)

end BucketTransfer.Xml
