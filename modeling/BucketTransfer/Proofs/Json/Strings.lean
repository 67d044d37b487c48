import BucketTransfer.Json.Printer
import BucketTransfer.Json.Reader
import BucketTransfer.Proofs.Utf8

/-!
# Strings in JSON text

A string is written between quotes with some of its characters escaped. It is read back as it was,
whatever comes after the quote at its end.
-/
namespace BucketTransfer.Json
open Text (hexDigit)

variable {c : Char} {b : UInt8}

/-- A byte that stands for itself in a string. -/
structure Plain (b : UInt8) : Prop where
  visible : ¬b < 0x20
  ne_quote : b ≠ ascii '"'
  ne_backslash : b ≠ ascii '\\'

theorem scanString_plain {bs : Bytes} (hbs : ∀ b ∈ bs, Plain b) (done rest : Bytes) :
    scanString done (bs ++ rest) = scanString (bs.reverse ++ done) rest := by
  induction bs generalizing done with
  | nil => rfl
  | cons b bs ih =>
    obtain ⟨⟨hvisible, hquote, hbackslash⟩, hothers⟩ := List.forall_mem_cons.1 hbs
    rw [List.cons_append, scanString.eq_def]
    simp only [if_neg hquote, if_neg hvisible, if_pos hbackslash]
    rw [ih hothers, List.reverse_cons, List.append_assoc, List.singleton_append]

theorem scanString_quote (done rest : Bytes) :
    scanString done (ascii '"' :: rest) = .ok (done.reverse, rest) := by
  rw [scanString.eq_def]
  simp only [if_pos]

/-- A backslash and a letter stand for one byte. -/
private theorem scanString_letter {e : UInt8} (he : unescape e = some b) (done rest : Bytes) :
    scanString done (ascii '\\' :: e :: rest) = scanString (b :: done) rest := by
  have hnone : unescape (ascii 'u') = none := by decide
  have hu : e ≠ ascii 'u' := by
    rintro rfl
    exact absurd (hnone.symm.trans he) (by simp)
  have hquote : ascii '\\' ≠ ascii '"' := by decide
  have hvisible : ¬ascii '\\' < 0x20 := by decide
  rw [scanString.eq_def]
  simp only [if_neg hquote, if_neg hvisible, ne_eq, not_true_eq_false, if_false, hu,
    not_false_eq_true, if_true, he]

/-- A control character may be written with its number. -/
private theorem scanString_number (n : Fin 0x20) (done rest : Bytes) :
    scanString done (ascii '\\' :: ascii 'u' :: ascii '0' :: ascii '0' ::
      ascii (hexDigit (n.val / 16)) :: ascii (hexDigit (n.val % 16)) :: rest) =
        scanString ((String.utf8EncodeChar (Char.ofNat n)).reverse ++ done) rest := by
  have hdigits : ∀ n : Fin 0x20, fourHex (ascii '0') (ascii '0') (ascii (hexDigit (n.val / 16)))
      (ascii (hexDigit (n.val % 16))) = some n.val := by decide
  have hsingle : ∀ n : Fin 0x20, isTrailing n.val = false ∧ isLeading n.val = false := by decide
  have hquote : ascii '\\' ≠ ascii '"' := by decide
  have hvisible : ¬ascii '\\' < 0x20 := by decide
  rw [scanString.eq_def]
  simp only [if_neg hquote, if_neg hvisible, ne_eq, not_true_eq_false, if_false, hdigits,
    (hsingle n).1, (hsingle n).2]
  rfl

private theorem encode_control (n : Fin 0x20) :
    Utf8.encode ['\\', 'u', '0', '0', hexDigit (n.val / 16), hexDigit (n.val % 16)] =
      [ascii '\\', ascii 'u', ascii '0', ascii '0', ascii (hexDigit (n.val / 16)),
        ascii (hexDigit (n.val % 16))] := by
  revert n
  decide

private theorem plain_ofNat {n : Nat} (hn : n < 256) (hvisible : 0x20 ≤ n) (hquote : n ≠ 0x22)
    (hbackslash : n ≠ 0x5c) : Plain (UInt8.ofNat n) := by
  have hbyte : (UInt8.ofNat n).toNat = n := UInt8.toNat_ofNat_of_lt' hn
  constructor
  case visible =>
    rw [UInt8.lt_iff_toNat_lt, hbyte]
    exact Nat.not_lt.2 hvisible
  case ne_quote =>
    intro heq
    exact hquote (hbyte.symm.trans (congrArg UInt8.toNat heq))
  case ne_backslash =>
    intro heq
    exact hbackslash (hbyte.symm.trans (congrArg UInt8.toNat heq))

/-- The bytes of a character that is not escaped stand for themselves. -/
private theorem plain_of_mem (hvisible : ¬c.toNat < 0x20) (hquote : c ≠ '"')
    (hbackslash : c ≠ '\\') : ∀ b ∈ String.utf8EncodeChar c, Plain b := by
  have hne : ∀ d : Char, c ≠ d → c.val.toNat ≠ d.toNat := fun d hd heq => hd (Char.toNat_inj.1 heq)
  have hquote' := hne '"' hquote
  have hbackslash' := hne '\\' hbackslash
  change ¬c.val.toNat < 0x20 at hvisible
  change c.val.toNat ≠ 0x22 at hquote'
  change c.val.toNat ≠ 0x5c at hbackslash'
  simp only [String.utf8EncodeChar]
  generalize c.val.toNat = v at hvisible hquote' hbackslash'
  repeat' split
  all_goals
    simp only [List.mem_cons, List.not_mem_nil, or_false, forall_eq_or_imp, forall_eq]
    repeat' apply And.intro
  all_goals apply plain_ofNat
  all_goals omega

/-- A character of one byte that is written as a backslash and a letter. -/
private theorem scanString_short {n : Nat} {e : UInt8} (h : c.toNat = n)
    (hbyte : String.utf8EncodeChar (Char.ofNat n) = [UInt8.ofNat n])
    (he : unescape e = some (UInt8.ofNat n)) (done rest : Bytes) :
    scanString done (ascii '\\' :: e :: rest) =
      scanString ((String.utf8EncodeChar c).reverse ++ done) rest := by
  have hc : c = Char.ofNat n := by rw [← h, Char.ofNat_toNat]
  rw [hc, hbyte]
  exact scanString_letter he done rest

/-- A character is read back from the form that it is written in. -/
theorem scanString_escapeChar (c : Char) (done rest : Bytes) :
    scanString done (Utf8.encode (escapeChar c) ++ rest) =
      scanString ((String.utf8EncodeChar c).reverse ++ done) rest := by
  rw [escapeChar]
  split
  case isTrue h => exact scanString_short (congrArg Char.toNat h) (by decide) (by decide) done rest
  case isFalse hquote =>
    split
    case isTrue h =>
      exact scanString_short (congrArg Char.toNat h) (by decide) (by decide) done rest
    case isFalse hbackslash =>
      iterate 5
        split
        · rename_i h
          exact scanString_short h (by decide) (by decide) done rest
      split
      case isTrue h =>
        rw [encode_control ⟨c.toNat, h⟩]
        exact (scanString_number ⟨c.toNat, h⟩ done rest).trans (by rw [Char.ofNat_toNat])
      case isFalse hvisible =>
        have hencode : Utf8.encode [c] = String.utf8EncodeChar c := List.flatMap_singleton ..
        rw [hencode]
        exact scanString_plain (plain_of_mem hvisible hquote hbackslash) done rest

/-- What stands between the quotes of a string. -/
def escaped (s : String) : Bytes := Utf8.encode (s.toList.flatMap escapeChar)

private theorem scanString_escaped (cs : List Char) (done rest : Bytes) :
    scanString done (Utf8.encode (cs.flatMap escapeChar) ++ ascii '"' :: rest) =
      .ok (done.reverse ++ Utf8.encode cs, rest) := by
  induction cs generalizing done with
  | nil =>
    rw [List.flatMap_nil, Utf8.encode, List.flatMap_nil, List.nil_append, scanString_quote,
      List.append_nil]
  | cons c cs ih =>
    have hcons : Utf8.encode (c :: cs) = String.utf8EncodeChar c ++ Utf8.encode cs := rfl
    rw [List.flatMap_cons, Utf8.encode_append, List.append_assoc, scanString_escapeChar, ih, hcons,
      List.reverse_append, List.reverse_reverse, List.append_assoc]

/-- A text is read back from between its quotes. -/
theorem scanText_escaped (s : String) (rest : Bytes) :
    scanText (escaped s ++ ascii '"' :: rest) = .ok (s, rest) := by
  have hscan : scanString [] (escaped s ++ ascii '"' :: rest) = .ok (utf8 s, rest) :=
    scanString_escaped s.toList [] rest
  simp only [scanText, hscan, bind, Except.bind, decode?_utf8]

theorem utf8_stringText (s : String) :
    utf8 (stringText s) = ascii '"' :: (escaped s ++ [ascii '"']) := by
  rw [utf8, stringText, String.toList_ofList, Utf8.encode_append]
  rfl

end BucketTransfer.Json
