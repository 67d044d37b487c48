import BucketTransfer.Proofs.Utf8
import BucketTransfer.Text.Percent
import Mathlib.Data.List.Basic

/-!
# Percent encoding is read back

Bytes that are encoded one by one are told by their encoding, whichever of them stand for
themselves, and a text is told by its bytes.
-/
namespace BucketTransfer.Text

/-- The bytes of a text in which a percent sign and two digits stand for a byte. -/
def percentBytes : List Char → Option Bytes
  | [] => some []
  | '%' :: high :: low :: rest => do
    let high ← digitValue high
    let low ← digitValue low
    let bytes ← percentBytes rest
    if high < 16 ∧ low < 16 then some (UInt8.ofNat (high * 16 + low) :: bytes) else none
  | c :: rest =>
    if c = '%' then none else (percentBytes rest).map fun bytes => String.utf8EncodeChar c ++ bytes

/-- The text that percent encoded text stands for, if there is one. -/
def percentDecode (s : String) : Option String := (percentBytes s.toList).bind Utf8.decode?

/-- A text of letters, digits, hyphens, underscores, dots and tildes, of the characters in `more`,
and of bytes that are written as a percent sign and two digits of sixteen, in capitals. -/
inductive IsEscaped (more : List Char) : List Char → Prop
  | nil : IsEscaped more []
  | char {c : Char} {cs : List Char} :
    c.isAlphanum = true ∨ c ∈ "-_.~".toList ∨ c ∈ more → IsEscaped more cs →
      IsEscaped more (c :: cs)
  | byte {high low : Char} {cs : List Char} :
    high ∈ "0123456789ABCDEF".toList → low ∈ "0123456789ABCDEF".toList → IsEscaped more cs →
      IsEscaped more ('%' :: high :: low :: cs)

section Bytes
variable {b : UInt8} {c : Char} {more cs ds rest : List Char} {encode : UInt8 → List Char}

theorem percentBytes_cons (hc : c ≠ '%') : percentBytes (c :: rest) =
    (percentBytes rest).map fun bytes => String.utf8EncodeChar c ++ bytes := by
  rw [percentBytes]
  · exact if_neg hc
  · rintro high low rest rfl
    exact absurd rfl hc

private theorem digitValue_capital (d : Fin 16) :
    digitValue (hexDigit d).toUpper = some d.val ∧
      (hexDigit d).toUpper ∈ "0123456789ABCDEF".toList := by
  revert d
  decide

/-- An unreserved byte stands for itself. -/
private theorem unreserved_alone (h : isUnreserved b = true) :
    Char.ofNat b.toNat ≠ '%' ∧ String.utf8EncodeChar (Char.ofNat b.toNat) = [b] := by
  have hall : ∀ n : Fin 256, isUnreserved (UInt8.ofNat n) = true →
      Char.ofNat n ≠ '%' ∧ String.utf8EncodeChar (Char.ofNat n) = [UInt8.ofNat n] := by
    decide +kernel
  have hb := hall ⟨b.toNat, b.toNat_lt⟩
  rw [UInt8.ofNat_toNat] at hb
  exact hb h

theorem percentBytes_percentByte (b : UInt8) (rest : List Char) :
    percentBytes (percentByte b ++ rest) = (percentBytes rest).map fun bytes => b :: bytes := by
  rw [percentByte]
  split
  · rename_i hb
    obtain ⟨hpercent, hself⟩ := unreserved_alone hb
    rw [List.singleton_append, percentBytes_cons hpercent, hself]
    rfl
  · have hb := b.toNat_lt
    obtain ⟨hhigh, -⟩ := digitValue_capital ⟨b.toNat / 16, by omega⟩
    obtain ⟨hlow, -⟩ := digitValue_capital ⟨b.toNat % 16, by omega⟩
    have hsame : UInt8.ofNat (b.toNat / 16 * 16 + b.toNat % 16) = b := by
      rw [Nat.div_add_mod', UInt8.ofNat_toNat]
    rw [escapeByte, List.cons_append, List.cons_append, List.cons_append, List.nil_append,
      percentBytes, hhigh, hlow]
    cases percentBytes rest with
    | none => rfl
    | some bytes =>
      simp only [Option.bind_eq_bind, Option.bind_some, hsame, Option.map_some]
      exact if_pos ⟨by omega, by omega⟩

/-- Bytes that are encoded so that each is read back are read back. -/
theorem percentBytes_flatMap (hencode : ∀ b rest, percentBytes (encode b ++ rest) =
    (percentBytes rest).map fun bytes => b :: bytes) (bytes : Bytes) :
    percentBytes (bytes.flatMap encode) = some bytes := by
  induction bytes with
  | nil => rfl
  | cons b bytes ih => rw [List.flatMap_cons, hencode, ih, Option.map_some]

theorem IsEscaped.append (hcs : IsEscaped more cs) (hds : IsEscaped more ds) :
    IsEscaped more (cs ++ ds) := by
  induction hcs with
  | nil => exact hds
  | char hc _ ih => exact .char hc ih
  | byte hhigh hlow _ ih => exact .byte hhigh hlow ih

theorem IsEscaped.flatMap {α : Type} {f : α → List Char} {l : List α}
    (h : ∀ a ∈ l, IsEscaped more (f a)) : IsEscaped more (l.flatMap f) := by
  induction l with
  | nil => exact .nil
  | cons a l ih =>
    obtain ⟨ha, hl⟩ := List.forall_mem_cons.1 h
    exact ha.append (ih hl)

theorem isEscaped_percentByte (b : UInt8) : IsEscaped more (percentByte b) := by
  rw [percentByte]
  split
  · rename_i hb
    refine .char ?_ .nil
    simp only [isUnreserved, Bool.or_eq_true, beq_iff_eq] at hb
    rcases hb with (((hb | hb) | hb) | hb) | hb
    · exact .inl hb
    all_goals
      rw [hb]
      exact .inr (.inl (by decide))
  · have hb := b.toNat_lt
    exact .byte (digitValue_capital ⟨b.toNat / 16, by omega⟩).2
      (digitValue_capital ⟨b.toNat % 16, by omega⟩).2 .nil

end Bytes

/-- What is encoded is read back. -/
theorem percentDecode_percentEncode (s : String) : percentDecode (percentEncode s) = some s := by
  rw [percentDecode, percentEncode, String.toList_ofList,
    percentBytes_flatMap percentBytes_percentByte, Option.bind_some, decode?_utf8]

end BucketTransfer.Text
