import BucketTransfer.Json.Printer
import BucketTransfer.Json.Reader
import BucketTransfer.Proofs.Text.Values
import BucketTransfer.Proofs.Utf8

/-!
# Numbers in JSON text

An integer of 64 bits is written in decimal digits, after a minus sign if it is negative. It is read
back as it was, if no more digits come after it, and nothing else that a number goes on with.
-/
namespace BucketTransfer.Json

open Text (exists_of_isDigit)

theorem isSpace_iff {b : UInt8} :
    isSpace b = true ↔ b = 0x20 ∨ b = 0x0a ∨ b = 0x09 ∨ b = 0x0d := by
  simp [isSpace, or_assoc]

/-- What may come after a number that is over. -/
def Delimited (rest : Bytes) : Prop :=
  ∀ b ∈ rest.head?, isDigit b = false ∧ b ≠ ascii '.' ∧ b ≠ ascii 'e' ∧ b ≠ ascii 'E'

section Digits
variable {c : Char} {cs : List Char} {rest : Bytes} {n : Nat}

/-- The number that a digit stands for. -/
private def valueOf (c : Char) : Nat := c.toNat - '0'.toNat

/-- A digit is one byte. -/
private theorem encode_digit (h : c.isDigit) : String.utf8EncodeChar c = [ascii c] := by
  obtain ⟨d, rfl⟩ := exists_of_isDigit h
  revert d
  decide

private theorem isDigit_ascii (h : c.isDigit) : isDigit (ascii c) = true := by
  obtain ⟨d, rfl⟩ := exists_of_isDigit h
  revert d
  decide

private theorem value_ascii (h : c.isDigit) : (ascii c).toNat - 0x30 = valueOf c := by
  obtain ⟨d, rfl⟩ := exists_of_isDigit h
  revert d
  decide

private theorem encode_digits (h : ∀ c ∈ cs, c.isDigit) : Utf8.encode cs = cs.map ascii := by
  induction cs with
  | nil => rfl
  | cons c cs ih =>
    obtain ⟨hfirst, hothers⟩ := List.forall_mem_cons.1 h
    have hcons : Utf8.encode (c :: cs) = String.utf8EncodeChar c ++ Utf8.encode cs := rfl
    rw [hcons, encode_digit hfirst, ih hothers, List.map_cons, List.singleton_append]

theorem Delimited.digitRun (h : Delimited rest) : digitRun rest = ([], rest) := by
  cases rest with
  | nil => rfl
  | cons b rest =>
    obtain ⟨hdigit, -⟩ := h b rfl
    simp [Json.digitRun, hdigit]

/-- All digits in front of what is none are taken. -/
private theorem digitRun_digits (hcs : ∀ c ∈ cs, c.isDigit) (h : Delimited rest) :
    digitRun (cs.map ascii ++ rest) = (cs.map valueOf, rest) := by
  have hall : ∀ b ∈ cs.map ascii, isDigit b = true :=
    List.forall_mem_map.2 fun c hc => isDigit_ascii (hcs c hc)
  obtain ⟨htake, hdrop⟩ := Prod.mk.inj h.digitRun
  rw [List.map_eq_nil_iff] at htake
  rw [digitRun, List.takeWhile_append_of_pos hall, List.dropWhile_append_of_pos hall, htake, hdrop,
    List.append_nil, List.map_map]
  exact Prod.ext (List.map_congr_left fun c hc => value_ascii (hcs c hc)) rfl

/-- The number that digits come to after a number. -/
private def valueFrom (n : Nat) (ds : List Nat) : Nat := ds.foldl (fun n d => 10 * n + d) n

private theorem le_valueFrom (n : Nat) (ds : List Nat) : n ≤ valueFrom n ds := by
  induction ds generalizing n with
  | nil => exact Nat.le_refl n
  | cons d ds ih =>
    have := ih (10 * n + d)
    simp only [valueFrom, List.foldl_cons] at this ⊢
    omega

/-- There is room for all digits of a number of 64 bits. -/
private theorem fill_digits (n : Nat) (ds : List Nat) (h : valueFrom n ds ≤ Text.maxU64) :
    fill n ds = (valueFrom n ds, 0) := by
  induction ds generalizing n with
  | nil => rfl
  | cons d ds ih =>
    have hroom : n * 10 + d ≤ Text.maxU64 := by
      rw [Nat.mul_comm]
      exact Nat.le_trans (le_valueFrom (10 * n + d) ds) h
    rw [fill, if_pos hroom, Nat.mul_comm, ih (10 * n + d) h]
    rfl

private theorem valueFrom_toDigits (n : Nat) :
    valueFrom 0 ((Nat.toDigits 10 n).map valueOf) = n := by
  have h : Nat.ofDigitChars 10 (Nat.toDigits 10 n) 0 = n :=
    Nat.ofDigitChars_toDigits (by decide) (by decide)
  rw [Nat.ofDigitChars_eq_foldl] at h
  rw [valueFrom, List.foldl_map]
  exact h

/-- The first digit of a number is not zero, but for zero. -/
private theorem head_toDigits (hn : 0 < n) : (Nat.toDigits 10 n).head? ≠ some '0' := by
  induction n using Nat.strongRecOn with
  | ind n ih =>
    rw [Nat.toDigits_eq_if (by decide)]
    split
    · rename_i hsmall
      have hdigits : ∀ d : Fin 10, 0 < d.val → Nat.digitChar d.val ≠ '0' := by decide
      simpa using hdigits ⟨n, hsmall⟩ hn
    · rename_i hlarge
      obtain ⟨c, cs, hcs⟩ :=
        List.exists_cons_of_ne_nil (Nat.toDigits_ne_nil (n := n / 10) (b := 10))
      have hhead := ih (n / 10) (by omega) (by omega)
      rw [hcs] at hhead ⊢
      exact hhead

private theorem eq_zero_of_ascii {c : Char} (h : c.isDigit) (heq : ascii c = ascii '0') :
    c = '0' := by
  obtain ⟨d, rfl⟩ := exists_of_isDigit h
  revert d
  decide

end Digits

section Magnitudes
variable {rest : Bytes} {n : Nat}

private theorem utf8_repr (n : Nat) : utf8 n.repr = (Nat.toDigits 10 n).map ascii := by
  rw [utf8, Nat.toList_repr, encode_digits]
  exact fun c => Nat.isDigit_of_mem_toDigits (by decide) (by decide)

private theorem scanMagnitude_repr (negative : Bool) (hn : n ≤ Text.maxU64) (h : Delimited rest) :
    scanMagnitude negative (utf8 n.repr ++ rest) = .ok (integerOf negative n, rest) := by
  have hdigits : ∀ c ∈ Nat.toDigits 10 n, c.isDigit := fun c =>
    Nat.isDigit_of_mem_toDigits (by decide) (by decide)
  have hrun := digitRun_digits hdigits h
  have hfill : fill 0 ((Nat.toDigits 10 n).map valueOf) = (n, 0) := by
    have hvalue := valueFrom_toDigits n
    rw [fill_digits 0 _ (by rw [hvalue]; exact hn), hvalue]
  have hzero : (Nat.toDigits 10 n).head? = some '0' → Nat.toDigits 10 n = ['0'] := by
    intro hhead
    obtain rfl : n = 0 := Nat.eq_zero_of_not_pos fun hpos => head_toDigits hpos hhead
    rfl
  rw [utf8_repr]
  obtain ⟨c, cs, hcs⟩ := List.exists_cons_of_ne_nil (Nat.toDigits_ne_nil (n := n) (b := 10))
  rw [hcs] at hrun hfill hdigits hzero ⊢
  obtain ⟨hfirst, -⟩ := List.forall_mem_cons.1 hdigits
  have hleading : ¬(decide (ascii c = ascii '0') &&
      decide (1 < ((c :: cs).map valueOf).length)) = true := by
    simp only [Bool.and_eq_true, decide_eq_true_eq]
    rintro ⟨heq, hlength⟩
    rw [hzero (congrArg some (eq_zero_of_ascii hfirst heq))] at hlength
    exact absurd hlength (by decide)
  rw [List.map_cons, List.cons_append] at hrun ⊢
  simp only [scanMagnitude, isDigit_ascii hfirst, Bool.not_true, Bool.false_eq_true, if_false, hrun]
  rw [if_neg hleading]
  simp only [hfill]
  cases rest with
  | nil => rfl
  | cons b rest =>
    obtain ⟨-, hpoint, hsmall, hcapital⟩ := h b rfl
    simp [hpoint, hsmall, hcapital]

private theorem exists_cons_repr (n : Nat) :
    ∃ b bs, utf8 n.repr = b :: bs ∧ isDigit b = true := by
  obtain ⟨c, cs, hcs⟩ := List.exists_cons_of_ne_nil (Nat.toDigits_ne_nil (n := n) (b := 10))
  refine ⟨ascii c, cs.map ascii, by rw [utf8_repr, hcs, List.map_cons], isDigit_ascii ?_⟩
  have hmem : c ∈ Nat.toDigits 10 n := hcs ▸ List.mem_cons_self
  exact Nat.isDigit_of_mem_toDigits (by decide) (by decide) hmem

private theorem toString_eq (z : Int) :
    toString z = if 0 ≤ z then z.toNat.repr else "-" ++ (-z).toNat.repr :=
  Int.repr_eq_if

private theorem exists_cons_toString (z : Int) :
    ∃ b bs, utf8 (toString z) = b :: bs ∧ (b = ascii '-' ∨ isDigit b = true) := by
  rw [toString_eq]
  split
  · obtain ⟨b, bs, hbs, hdigit⟩ := exists_cons_repr z.toNat
    exact ⟨b, bs, hbs, .inr hdigit⟩
  · have hminus : utf8 "-" = [ascii '-'] := by decide
    exact ⟨ascii '-', utf8 (-z).toNat.repr, by rw [utf8_append, hminus]; rfl, .inl rfl⟩

end Magnitudes

section Integers
variable {z : Int} {rest : Bytes}

/-- An integer is read back from its digits. -/
theorem scanNumber_toString (hleast : -(Text.maxI64 : Int) - 1 ≤ z) (hgreatest : z ≤ Text.maxU64)
    (h : Delimited rest) : scanNumber (utf8 (toString z) ++ rest) = .ok (.integer z, rest) := by
  rw [toString_eq]
  split
  case isTrue hpos =>
    obtain ⟨b, bs, hbs, hdigit⟩ := exists_cons_repr z.toNat
    have hminus : b ≠ ascii '-' := by
      rintro rfl
      exact absurd hdigit (by decide)
    have hscan := scanMagnitude_repr false (n := z.toNat) (by omega) h
    rw [hbs, List.cons_append] at hscan ⊢
    rw [scanNumber, if_neg hminus, hscan, integerOf, Int.toNat_of_nonneg hpos]
    rfl
  case isFalse hneg =>
    simp only [Text.maxI64] at hleast
    have hminus : utf8 "-" = [ascii '-'] := by decide
    have hroom : (-z).toNat ≤ Text.maxU64 := by
      simp only [Text.maxU64]
      omega
    have hexact : ¬((-z).toNat = 0 || 0x8000000000000000 < (-z).toNat) := by
      simp only [Bool.or_eq_true, decide_eq_true_eq]
      omega
    rw [utf8_append, hminus, List.append_assoc, List.singleton_append, scanNumber, if_pos rfl,
      scanMagnitude_repr true hroom h, integerOf, if_neg (by decide), if_neg hexact,
      Int.toNat_of_nonneg (by omega), Int.neg_neg]

/-- An integer that there is room for is read. -/
theorem Reader.scan_integer {least greatest : Int} {depth : Nat} (hleast : least ≤ z)
    (hgreatest : z ≤ greatest) (hfirst : -(Text.maxI64 : Int) - 1 ≤ z) (hlast : z ≤ Text.maxU64)
    (h : Delimited rest) :
    (integer least greatest depth).scan (utf8 (toString z) ++ rest) = .ok (z, rest) := by
  have hscan := scanNumber_toString hfirst hlast h
  obtain ⟨b, bs, hbs, hb⟩ := exists_cons_toString z
  have hspace : isSpace b = false := by
    refine Bool.eq_false_iff.2 fun hspace => ?_
    rcases isSpace_iff.1 hspace with rfl | rfl | rfl | rfl
    all_goals exact absurd hb (by decide)
  have hnumber : (number depth).scan (utf8 (toString z) ++ rest) = .ok (.integer z, rest) := by
    rw [hbs, List.cons_append] at hscan ⊢
    change scanFirst _ _ = _
    rw [scanFirst, dropSpace, List.dropWhile_cons_of_neg (by simp [hspace])]
    exact (if_pos (by simpa using hb)).trans hscan
  simp only [integer, Scanner.refine, hnumber, hleast, hgreatest, and_self, if_true]

end Integers

end BucketTransfer.Json
