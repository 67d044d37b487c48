import BucketTransfer.Text.Blank
import BucketTransfer.Text.Hex
import Mathlib.Data.List.Induction

/-!
# Values in text

What has nothing to trim at its ends stays as it is, trimming and collapsing together keep the words
of a text, and numbers and bytes are read back from their digits.
-/
namespace BucketTransfer.Text

section Trimming
variable {α : Type} {p : α → Bool} {x : α} {xs : List α}

private theorem dropWhile_of_head (h : ∀ x ∈ xs.head?, p x = false) : xs.dropWhile p = xs := by
  cases xs with
  | nil => rfl
  | cons x xs => exact List.dropWhile_cons_of_neg (by simp [h x rfl])

theorem trimWhere_of_ends (hfirst : ∀ x ∈ xs.head?, p x = false)
    (hlast : ∀ x ∈ xs.getLast?, p x = false) : trimWhere p xs = xs := by
  have hreverse : ∀ x ∈ xs.reverse.head?, p x = false := by rwa [List.head?_reverse]
  rw [trimWhere, dropWhile_of_head hfirst, dropWhile_of_head hreverse, List.reverse_reverse]

/-- What is trimmed does not matter at the ends. -/
theorem trimWhere_between (hx : p x = true) (hfirst : ∀ y ∈ xs.head?, p y = false)
    (hlast : ∀ y ∈ xs.getLast?, p y = false) : trimWhere p (x :: (xs ++ [x])) = xs := by
  have hfront : (x :: (xs ++ [x])).dropWhile p = (xs ++ [x]).dropWhile p :=
    List.dropWhile_cons_of_pos hx
  rw [trimWhere, hfront]
  cases xs with
  | nil => simp [hx]
  | cons y ys =>
    have hreverse : ∀ z ∈ (y :: ys).reverse.head?, p z = false := by rwa [List.head?_reverse]
    have hy : (y :: ys ++ [x]).dropWhile p = y :: ys ++ [x] := dropWhile_of_head hfirst
    rw [hy, List.reverse_append, List.reverse_singleton, List.singleton_append,
      List.dropWhile_cons_of_pos hx, dropWhile_of_head hreverse, List.reverse_reverse]

theorem trim_of_ends {s : String} (hfirst : ∀ c ∈ s.toList.head?, isBlank c = false)
    (hlast : ∀ c ∈ s.toList.getLast?, isBlank c = false) : trim s = s := by
  rw [trim, trimWhere_of_ends hfirst hlast, String.ofList_toList]

end Trimming

section Words
variable {c : Char} {cs w : List Char} {ws : List (List Char)}

/-- The longest runs of characters that are not blank, in order. -/
def words (cs : List Char) : List (List Char) :=
  (cs.splitOnP isBlank).filter fun w => !w.isEmpty

theorem words_append_cons (hc : isBlank c = true) (cs ds : List Char) :
    words (cs ++ c :: ds) = words cs ++ words ds := by
  rw [words, List.splitOnP_append_cons cs ds hc, List.filter_append]
  rfl

theorem words_cons_of_blank (hc : isBlank c = true) (cs : List Char) :
    words (c :: cs) = words cs :=
  words_append_cons hc [] cs

theorem words_of_word (hne : w ≠ []) (hw : ∀ c ∈ w, isBlank c = false) : words w = [w] := by
  rw [words, List.splitOnP_eq_singleton hw]
  simpa using hne

/-- A character that is not blank is a word, or begins the first word of the rest. -/
private theorem words_cons (hc : isBlank c = false) (cs : List Char) :
    (words (c :: cs) = [c] :: words cs ∧ ∀ d ∈ cs.head?, isBlank d = true) ∨
      ∃ w ws, words cs = w :: ws ∧ words (c :: cs) = (c :: w) :: ws ∧
        ∀ d ∈ cs.head?, isBlank d = false := by
  cases cs with
  | nil => exact .inl ⟨words_of_word (List.cons_ne_nil _ _) (by simpa using hc), nofun⟩
  | cons d ds =>
    cases hd : isBlank d with
    | true =>
      have hword := words_append_cons hd [c] ds
      rw [words_of_word (List.cons_ne_nil _ _) (by simpa using hc)] at hword
      rw [words_cons_of_blank hd]
      exact .inl ⟨hword, by simpa using hd⟩
    | false =>
      obtain ⟨w, ws, hws⟩ := List.exists_cons_of_ne_nil (List.splitOnP_ne_nil isBlank ds)
      refine .inr ⟨d :: w, ws.filter fun w => !w.isEmpty, ?_, ?_, by simpa using hd⟩
      · simp [words, List.splitOnP_cons_eq_if_modifyHead, hd, hws]
      · simp [words, List.splitOnP_cons_eq_if_modifyHead, hc, hd, hws]

private theorem forall_isBlank_of_words_eq_nil (h : words cs = []) :
    ∀ c ∈ cs, isBlank c = true := by
  induction cs with
  | nil => simp
  | cons c cs ih =>
    cases hc : isBlank c with
    | true =>
      rw [words_cons_of_blank hc] at h
      exact List.forall_mem_cons.2 ⟨hc, ih h⟩
    | false =>
      rcases words_cons hc cs with ⟨heq, -⟩ | ⟨w, ws, -, heq, -⟩
      all_goals
        rw [heq] at h
        cases h

private theorem mem_words (h : w ∈ words cs) : w ≠ [] ∧ ∀ c ∈ w, isBlank c = false := by
  induction cs generalizing w with
  | nil => cases h
  | cons c cs ih =>
    cases hc : isBlank c with
    | true =>
      rw [words_cons_of_blank hc] at h
      exact ih h
    | false =>
      rcases words_cons hc cs with ⟨heq, -⟩ | ⟨first, ws, hrest, heq, -⟩
      · rw [heq] at h
        rcases List.mem_cons.1 h with rfl | h
        · exact ⟨List.cons_ne_nil _ _, by simpa using hc⟩
        · exact ih h
      · rw [heq] at h
        rw [hrest] at ih
        rcases List.mem_cons.1 h with rfl | h
        · exact ⟨List.cons_ne_nil _ _, List.forall_mem_cons.2 ⟨hc, (ih List.mem_cons_self).2⟩⟩
        · exact ih (List.mem_cons_of_mem _ h)

theorem words_trimWhere (cs : List Char) : words (trimWhere isBlank cs) = words cs := by
  have hfront (cs : List Char) : words (cs.dropWhile isBlank) = words cs := by
    induction cs with
    | nil => rfl
    | cons c cs ih =>
      cases hc : isBlank c with
      | true => rw [List.dropWhile_cons_of_pos hc, ih, words_cons_of_blank hc]
      | false => rw [List.dropWhile_cons_of_neg (by simp [hc])]
  have hback (cs : List Char) : words (cs.reverse.dropWhile isBlank).reverse = words cs := by
    induction cs using List.reverseRecOn with
    | nil => rfl
    | append_singleton cs c ih =>
      rw [List.reverse_append, List.reverse_singleton, List.singleton_append]
      cases hc : isBlank c with
      | true =>
        rw [List.dropWhile_cons_of_pos hc, ih, words_append_cons hc]
        exact (List.append_nil _).symm
      | false => rw [List.dropWhile_cons_of_neg (by simp [hc]), List.reverse_cons,
          List.reverse_reverse]
  rw [trimWhere, hback, hfront]

/-- Words with a space between each two. -/
private theorem collapseFrom_eq (hlast : ∀ c ∈ cs.getLast?, isBlank c = false) (inRun : Bool)
    (hfirst : inRun = false → ∀ c ∈ cs.head?, isBlank c = false) :
    collapseFrom inRun cs = [' '].intercalate (words cs) := by
  induction cs generalizing inRun with
  | nil => rfl
  | cons c cs ih =>
    have hrest : ∀ c ∈ cs.getLast?, isBlank c = false := by
      intro d hd
      cases cs with
      | nil => cases hd
      | cons e cs => exact hlast d (by rwa [List.getLast?_cons_cons])
    cases hc : isBlank c with
    | true =>
      obtain rfl : inRun = true := by
        by_contra hrun
        have := hfirst (by simpa using hrun) c rfl
        simp [hc] at this
      rw [collapseFrom, if_pos hc, if_pos rfl, words_cons_of_blank hc]
      exact ih hrest true nofun
    | false =>
      rw [collapseFrom, if_neg (by simp [hc])]
      rcases words_cons hc cs with ⟨hword, hblank⟩ | ⟨w, ws, hw, hws, hfirst⟩
      · rw [hword]
        cases cs with
        | nil => rfl
        | cons d ds =>
          have hd : isBlank d = true := hblank d rfl
          have hmore := ih hrest true nofun
          -- a blank at the end would have been trimmed, so there is another word
          have hsome : words (d :: ds) ≠ [] := fun hnone => by
            have hall := forall_isBlank_of_words_eq_nil hnone
            have hend := hrest _ (List.getLast?_eq_some_getLast (List.cons_ne_nil d ds))
            rw [hall _ (List.getLast_mem _)] at hend
            cases hend
          rw [collapseFrom, if_pos hd, if_pos rfl] at hmore
          rw [collapseFrom, if_pos hd, if_neg (by simp), hmore,
            List.intercalate_cons_of_ne_nil hsome]
          rfl
      · rw [ih hrest false fun _ => hfirst, hw, hws]
        cases ws
        all_goals simp

private theorem trimWhere_prefix {α : Type} (p : α → Bool) (xs : List α) :
    trimWhere p xs <+: xs.dropWhile p := by
  have h := List.reverse_prefix.2 (List.dropWhile_suffix (l := (xs.dropWhile p).reverse) p)
  rwa [List.reverse_reverse] at h

/-- The words are what trimming and collapsing keep of a text. -/
theorem toList_collapse_trim (s : String) :
    (collapse (trim s)).toList = [' '].intercalate (words s.toList) := by
  have hfirst : ∀ c ∈ (trimWhere isBlank s.toList).head?, isBlank c = false := by
    intro c hc
    obtain ⟨rest, hrest⟩ := trimWhere_prefix isBlank s.toList
    have h := List.head?_dropWhile_not isBlank s.toList
    rw [← hrest, List.head?_append, Option.mem_def.1 hc] at h
    exact h
  have hlast : ∀ c ∈ (trimWhere isBlank s.toList).getLast?, isBlank c = false := by
    intro c hc
    have h := List.head?_dropWhile_not isBlank (s.toList.dropWhile isBlank).reverse
    rw [trimWhere, List.getLast?_reverse] at hc
    rw [Option.mem_def.1 hc] at h
    exact h
  rw [collapse, trim, String.toList_ofList, String.toList_ofList,
    collapseFrom_eq hlast false fun _ => hfirst, words_trimWhere]

private theorem words_intercalate (h : ∀ w ∈ ws, w ≠ [] ∧ ∀ c ∈ w, isBlank c = false) :
    words ([' '].intercalate ws) = ws := by
  induction ws with
  | nil => rfl
  | cons w ws ih =>
    obtain ⟨⟨hne, hw⟩, hws⟩ := List.forall_mem_cons.1 h
    cases ws with
    | nil => rw [List.intercalate_singleton, words_of_word hne hw]
    | cons next ws =>
      have hspace : isBlank ' ' = true := by decide
      rw [List.intercalate_cons_cons, List.append_assoc, List.singleton_append,
        words_append_cons hspace, words_of_word hne hw, ih hws]
      rfl

/-- Trimming and collapsing leave the words as they are. -/
theorem words_collapse_trim (s : String) : words (collapse (trim s)).toList = words s.toList := by
  rw [toList_collapse_trim, words_intercalate fun w => mem_words]

end Words

section Digits
variable {limit n : Nat}

theorem exists_of_isDigit {c : Char} (h : c.isDigit) :
    ∃ d : Fin 10, c = Char.ofNat (48 + d.val) := by
  have hrange : 48 ≤ c.toNat ∧ c.toNat ≤ 57 := by
    simpa [Char.isDigit, UInt32.le_iff_toNat_le] using h
  refine ⟨⟨c.toNat - 48, by omega⟩, ?_⟩
  rw [Nat.add_sub_cancel' hrange.1, Char.ofNat_toNat]

theorem isBlank_of_isDigit {c : Char} (h : c.isDigit) : isBlank c = false := by
  obtain ⟨d, rfl⟩ := exists_of_isDigit h
  revert d
  decide

private theorem lt_of_isDigit {c : Char} (h : c.isDigit) : c.toNat - '0'.toNat < 10 := by
  obtain ⟨d, rfl⟩ := exists_of_isDigit h
  revert d
  decide

private theorem digitChar_of_isDigit {c : Char} (h : c.isDigit) :
    (c.toNat - '0'.toNat).digitChar = c := by
  obtain ⟨d, rfl⟩ := exists_of_isDigit h
  revert d
  decide

private theorem le_ofDigitChars (cs : List Char) (n : Nat) : n ≤ Nat.ofDigitChars 10 cs n := by
  induction cs generalizing n with
  | nil => exact Nat.le_refl n
  | cons c cs ih =>
    have hrest := ih (10 * n + (c.toNat - '0'.toNat))
    rw [Nat.ofDigitChars_cons]
    omega

/-- Digits are read exactly if what they come to is within the limit. -/
private theorem readDigits_of_isDigit {cs : List Char} (hcs : ∀ c ∈ cs, c.isDigit)
    (hn : n ≤ limit) :
    readDigits 10 limit n cs =
      if Nat.ofDigitChars 10 cs n ≤ limit then .ok (Nat.ofDigitChars 10 cs n)
      else .error .tooLarge := by
  induction cs generalizing n with
  | nil => simp [readDigits, hn]
  | cons c cs ih =>
    obtain ⟨hc, hcs⟩ := List.forall_mem_cons.1 hcs
    have hvalue : digitValue c = some (c.toNat - '0'.toNat) := by rw [digitValue, if_pos hc]
    have hdigit := lt_of_isDigit hc
    have hle := le_ofDigitChars cs (10 * n + (c.toNat - '0'.toNat))
    rw [readDigits, hvalue, Nat.ofDigitChars_cons]
    dsimp only
    rw [if_neg (by omega), Nat.mul_comm n]
    by_cases hlimit : limit < 10 * n + (c.toNat - '0'.toNat)
    · rw [if_pos hlimit, if_neg (by omega)]
    · rw [if_neg hlimit, ih hcs (Nat.le_of_not_lt hlimit)]

theorem readUnsigned_of_isDigit {cs : List Char} (hcs : ∀ c ∈ cs, c.isDigit) (hne : cs ≠ []) :
    readUnsigned 10 limit cs =
      if Nat.ofDigitChars 10 cs 0 ≤ limit then .ok (Nat.ofDigitChars 10 cs 0)
      else .error .tooLarge := by
  obtain ⟨c, cs, rfl⟩ := List.exists_cons_of_ne_nil hne
  have hplus : c ≠ '+' := by
    rintro rfl
    exact absurd (hcs '+' List.mem_cons_self) (by decide)
  rw [readUnsigned]
  · exact readDigits_of_isDigit hcs (Nat.zero_le limit)
  all_goals simp [hplus]

/-- Digits are what their number is written with if the first of them is no zero. -/
theorem toDigits_ofDigitChars {cs : List Char} (hcs : ∀ c ∈ cs, c.isDigit)
    (hfirst : ∃ c ∈ cs.head?, c ≠ '0') : Nat.toDigits 10 (Nat.ofDigitChars 10 cs 0) = cs := by
  induction cs using List.reverseRecOn with
  | nil => simp at hfirst
  | append_singleton cs c ih =>
    have hc : c.isDigit := hcs c (by simp)
    have hlast : Nat.toDigits 10 (c.toNat - '0'.toNat) = [c] := by
      rw [Nat.toDigits_of_lt_base (lt_of_isDigit hc), digitChar_of_isDigit hc]
    rw [Nat.ofDigitChars_append, Nat.ofDigitChars_cons, Nat.ofDigitChars_nil]
    cases cs with
    | nil => simpa using hlast
    | cons b cs =>
      have hrest := ih (fun c hc => hcs c (List.mem_append_left _ hc)) (by simpa using hfirst)
      have hpos : 0 < Nat.ofDigitChars 10 (b :: cs) 0 := by
        by_contra hzero
        rw [Nat.eq_zero_of_not_pos hzero] at hrest
        obtain ⟨rfl, -⟩ := List.cons.inj (hrest : ['0'] = _)
        simp at hfirst
      rw [← Nat.toDigits_append_toDigits (by decide) hpos (lt_of_isDigit hc), hrest, hlast]

theorem isDigit_of_mem {c : Char} (h : c ∈ (toString n).toList) : c.isDigit := by
  rw [Nat.toString_eq_repr, Nat.toList_repr] at h
  exact Nat.isDigit_of_mem_toDigits (by decide) (by decide) h

/-- A number within the limit is read back. -/
theorem readUnsigned_toString (h : n ≤ limit) :
    readUnsigned 10 limit (toString n).toList = .ok n := by
  have hvalue : Nat.ofDigitChars 10 (toString n).toList 0 = n := by
    rw [Nat.toString_eq_repr, Nat.toList_repr]
    exact Nat.ofDigitChars_toDigits (by decide) (by decide)
  have hne : (toString n).toList ≠ [] := by
    rw [Nat.toString_eq_repr, Nat.toList_repr]
    exact Nat.toDigits_ne_nil
  rw [readUnsigned_of_isDigit (fun c => isDigit_of_mem) hne, hvalue, if_pos h]

/-- A number is known from its digits. -/
theorem toString_injective : Function.Injective (toString : Nat → String) := by
  intro n m h
  have hread := readUnsigned_toString (Nat.le_max_left n m)
  rw [h, readUnsigned_toString (Nat.le_max_right n m)] at hread
  exact (Except.ok.inj hread).symm

theorem trim_toString (n : Nat) : trim (toString n) = toString n :=
  trim_of_ends (fun _ h => isBlank_of_isDigit (isDigit_of_mem (List.mem_of_mem_head? h)))
    fun _ h => isBlank_of_isDigit (isDigit_of_mem (List.mem_of_mem_getLast? h))

end Digits

section Hexadecimal

private theorem digitValue_hexDigit (d : Fin 16) : digitValue (hexDigit d) = some d.val := by
  revert d
  decide

theorem ofHex_hex (bytes : Bytes) : ofHex (hex bytes).toList = bytes := by
  rw [hex, String.toList_ofList]
  induction bytes with
  | nil => rfl
  | cons b bytes ih =>
    have hb := b.toNat_lt
    have hhigh := digitValue_hexDigit ⟨b.toNat / 16, by omega⟩
    have hlow := digitValue_hexDigit ⟨b.toNat % 16, by omega⟩
    have hvalue : b.toNat / 16 * 16 + b.toNat % 16 = b.toNat := by omega
    simp only [List.flatMap_cons, hexByte, List.cons_append, List.nil_append, ofHex, ih]
    simp only at hhigh hlow
    rw [hhigh, hlow, Option.getD_some, Option.getD_some, hvalue]
    exact congrArg (· :: bytes) UInt8.ofNat_toNat

theorem hex_injective : Function.Injective hex := by
  intro a b h
  rw [← ofHex_hex a, h, ofHex_hex]

end Hexadecimal

end BucketTransfer.Text
