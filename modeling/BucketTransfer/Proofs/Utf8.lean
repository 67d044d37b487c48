import BucketTransfer.Utf8

/-!
# Encoded texts

A text that is encoded is decoded to itself, character by character, whatever comes after it. Texts
stand in the order of their encodings, byte by byte: a longer encoding of a character begins with a
larger byte, and of two that are equally long the first bytes that differ decide.
-/
namespace BucketTransfer

/-- The size of a text is the number of its bytes. -/
theorem length_utf8 (s : String) : (utf8 s).length = s.utf8ByteSize := by
  rw [← String.size_toByteArray, ← String.utf8Encode_toList, List.utf8Encode,
    List.size_toByteArray]
  rfl

namespace Utf8

theorem encode_append (cs ds : List Char) : encode (cs ++ ds) = encode cs ++ encode ds :=
  List.flatMap_append

section Bytes
variable {a b : Nat}

private theorem toNat_ofNat (ha : a < 256) : (UInt8.ofNat a).toNat = a :=
  UInt8.toNat_ofNat_of_lt' ha

private theorem ofNat_lt (ha : a < 256) (c : UInt8) : UInt8.ofNat a < c ↔ a < c.toNat := by
  rw [UInt8.lt_iff_toNat_lt, toNat_ofNat ha]

private theorem continues_ofNat (ha : a < 64) : continues (UInt8.ofNat (a + 128)) = true := by
  have hbyte : a + 128 < 256 := by omega
  simp only [continues, UInt8.le_iff_toNat_le, toNat_ofNat hbyte, Bool.and_eq_true,
    decide_eq_true_eq]
  constructor
  · exact Nat.le_add_left 128 a
  · change a + 128 ≤ 191
    omega

/-- A second byte that keeps clear of overlong forms, surrogates and what is too large is allowed.
-/
private theorem allowsSecond_ofNat (ha : a < 256) (hb : b < 64)
    (hlong : a = 0xe0 → 0x20 ≤ b) (hsurrogate : a = 0xed → b < 0x20) (hlonger : a = 0xf0 → 0x10 ≤ b)
    (hlarge : a = 0xf4 → b < 0x10) :
    allowsSecond (UInt8.ofNat a) (UInt8.ofNat (b + 128)) = true := by
  have hbyte : b + 128 < 256 := by omega
  have hfirst (c : UInt8) : UInt8.ofNat a = c ↔ a = c.toNat := by
    rw [← UInt8.toNat_inj, toNat_ofNat ha]
  have hsecond (c : UInt8) : c ≤ UInt8.ofNat (b + 128) ↔ c.toNat ≤ b + 128 := by
    rw [UInt8.le_iff_toNat_le, toNat_ofNat hbyte]
  have hsecond' (c : UInt8) : UInt8.ofNat (b + 128) ≤ c ↔ b + 128 ≤ c.toNat := by
    rw [UInt8.le_iff_toNat_le, toNat_ofNat hbyte]
  simp only [allowsSecond, continues, hfirst, hsecond, hsecond', UInt8.reduceToNat]
  repeat' split
  all_goals
    simp only [Bool.and_eq_true, decide_eq_true_eq]
    omega

end Bytes

section Steps
variable {index : Nat} {done : List Char} {rest : Bytes} {a b c d : UInt8}

private theorem decodeFrom_one (ha : a < 0x80) :
    decodeFrom index done (a :: rest) =
      decodeFrom (index + 1) (Char.ofNat a.toNat :: done) rest := by
  simp [decodeFrom.eq_def _ _ (a :: _), ha]

private theorem decodeFrom_two (hlow : ¬a < 0x80) (hc : ¬a < 0xc2) (ha : a < 0xe0)
    (hb : continues b) :
    decodeFrom index done (a :: b :: rest) =
      decodeFrom (index + 2) (Char.ofNat (a.toNat % 32 * 64 + b.toNat % 64) :: done) rest := by
  simp [decodeFrom.eq_def _ _ (a :: _), hlow, hc, ha, hb]

private theorem decodeFrom_three (hlow : ¬a < 0x80) (hc : ¬a < 0xc2) (he : ¬a < 0xe0)
    (ha : a < 0xf0) (hb : allowsSecond a b) (hthird : continues c) :
    decodeFrom index done (a :: b :: c :: rest) =
      decodeFrom (index + 3)
        (Char.ofNat (a.toNat % 16 * 4096 + b.toNat % 64 * 64 + c.toNat % 64) :: done) rest := by
  simp [decodeFrom.eq_def _ _ (a :: _), hlow, hc, he, ha, hb, hthird]

private theorem decodeFrom_four (hlow : ¬a < 0x80) (hc : ¬a < 0xc2) (he : ¬a < 0xe0)
    (hf : ¬a < 0xf0) (ha : a < 0xf5) (hb : allowsSecond a b) (hthird : continues c)
    (hfourth : continues d) :
    decodeFrom index done (a :: b :: c :: d :: rest) =
      decodeFrom (index + 4)
        (Char.ofNat (a.toNat % 8 * 262144 + b.toNat % 64 * 4096 + c.toNat % 64 * 64
          + d.toNat % 64) :: done) rest := by
  simp [decodeFrom.eq_def _ _ (a :: _), hlow, hc, he, hf, ha, hb, hthird, hfourth]

end Steps

/-- A character in front is decoded as a whole. -/
theorem decodeFrom_encodeChar (c : Char) (index : Nat) (done : List Char) (rest : Bytes) :
    ∃ next, decodeFrom index done (String.utf8EncodeChar c ++ rest) =
      decodeFrom next (c :: done) rest := by
  have hc : Char.ofNat c.val.toNat = c := Char.ofNat_toNat c
  have hvalid : c.val.toNat < 0xd800 ∨ 0xdfff < c.val.toNat ∧ c.val.toNat < 0x110000 := c.valid
  have hsix : ∀ n, n % 64 < 64 := fun n => Nat.mod_lt n (by decide)
  have hbyte : ∀ n, n % 64 + 128 < 256 := fun n => by omega
  simp only [String.utf8EncodeChar]
  generalize c.val.toNat = v at hc hvalid
  split
  · rename_i hone
    have ha : v < 256 := by omega
    refine ⟨index + 1, ?_⟩
    rw [List.singleton_append, decodeFrom_one ((ofNat_lt ha _).2 (Nat.lt_succ_of_le hone)),
      toNat_ofNat ha, hc]
  split
  · rename_i hone htwo
    have ha : v / 64 % 32 + 192 < 256 := by omega
    have hfirst := ofNat_lt ha
    have hvalue : (v / 64 % 32 + 192) % 32 * 64 + (v % 64 + 128) % 64 = v := by omega
    refine ⟨index + 2, ?_⟩
    rw [List.cons_append, List.singleton_append, decodeFrom_two, toNat_ofNat ha,
      toNat_ofNat (hbyte v), hvalue, hc]
    case hb => exact continues_ofNat (hsix v)
    all_goals
      simp only [hfirst, UInt8.reduceToNat]
      omega
  split
  · rename_i hone htwo hthree
    have ha : v / 4096 % 16 + 224 < 256 := by omega
    have hfirst := ofNat_lt ha
    have hvalue : (v / 4096 % 16 + 224) % 16 * 4096 + (v / 64 % 64 + 128) % 64 * 64 +
        (v % 64 + 128) % 64 = v := by omega
    refine ⟨index + 3, ?_⟩
    simp only [List.cons_append, List.nil_append]
    rw [decodeFrom_three, toNat_ofNat ha, toNat_ofNat (hbyte _), toNat_ofNat (hbyte _), hvalue, hc]
    case hb =>
      exact allowsSecond_ofNat ha (hsix _) (by omega) (by omega) (by omega) (by omega)
    case hthird => exact continues_ofNat (hsix v)
    all_goals
      simp only [hfirst, UInt8.reduceToNat]
      omega
  · rename_i hone htwo hthree
    have ha : v / 262144 % 8 + 240 < 256 := by omega
    have hfirst := ofNat_lt ha
    have hvalue : (v / 262144 % 8 + 240) % 8 * 262144 + (v / 4096 % 64 + 128) % 64 * 4096 +
        (v / 64 % 64 + 128) % 64 * 64 + (v % 64 + 128) % 64 = v := by omega
    refine ⟨index + 4, ?_⟩
    simp only [List.cons_append, List.nil_append]
    rw [decodeFrom_four, toNat_ofNat ha, toNat_ofNat (hbyte _), toNat_ofNat (hbyte _),
      toNat_ofNat (hbyte _), hvalue, hc]
    case hb =>
      exact allowsSecond_ofNat ha (hsix _) (by omega) (by omega) (by omega) (by omega)
    case hthird => exact continues_ofNat (hsix _)
    case hfourth => exact continues_ofNat (hsix _)
    all_goals
      simp only [hfirst, UInt8.reduceToNat]
      omega

private theorem decodeFrom_encode (cs : List Char) (index : Nat) (done : List Char) :
    decodeFrom index done (encode cs) = .ok (done.reverse ++ cs) := by
  induction cs generalizing index done with
  | nil => simp [encode, decodeFrom]
  | cons c cs ih =>
    obtain ⟨next, hnext⟩ := decodeFrom_encodeChar c index done (encode cs)
    have hcons : encode (c :: cs) = String.utf8EncodeChar c ++ encode cs := rfl
    rw [hcons, hnext, ih, List.reverse_cons, List.append_assoc, List.singleton_append]

theorem decode_encode (cs : List Char) : decode (encode cs) = .ok cs :=
  decodeFrom_encode cs 0 []

theorem eq_of_mem_encodeChar {c : Char} {b : UInt8} (hb : b < 0x80)
    (h : b ∈ String.utf8EncodeChar c) : c.toNat = b.toNat := by
  have hsmall : b.toNat < 128 := UInt8.lt_iff_toNat_lt.1 hb
  change c.val.toNat = b.toNat
  simp only [String.utf8EncodeChar] at h
  generalize c.val.toNat = v at h
  repeat' split at h
  all_goals
    simp only [List.mem_cons, List.not_mem_nil, or_false, ← UInt8.toNat_inj,
      UInt8.toNat_ofNat'] at h
    omega

/-- An ASCII byte stands for its own character and is part of no other one. -/
theorem mem_of_mem_encode {cs : List Char} {c : Char} {b : UInt8} (hb : b < 0x80)
    (hc : c.toNat = b.toNat) (h : b ∈ encode cs) : c ∈ cs := by
  obtain ⟨d, hd, hmem⟩ := List.mem_flatMap.1 h
  rwa [Char.toNat_inj.1 (hc.trans (eq_of_mem_encodeChar hb hmem).symm)]

end Utf8

theorem utf8_append (s t : String) : utf8 (s ++ t) = utf8 s ++ utf8 t := by
  rw [utf8, String.toList_append, Utf8.encode_append]
  rfl

/-- A text is decoded from its bytes. -/
theorem decode?_utf8 (s : String) : Utf8.decode? (utf8 s) = some s := by
  rw [Utf8.decode?, utf8, Utf8.decode_encode, Except.toOption, Option.map_some,
    String.ofList_toList]

namespace Utf8

private theorem ofNat_cons_lt {a b : Nat} {s t : Bytes} (ha : a < 256) (hb : b < 256) (h : a < b) :
    UInt8.ofNat a :: s < UInt8.ofNat b :: t := by
  rw [List.cons_lt_cons_iff, UInt8.lt_iff_toNat_lt, UInt8.toNat_ofNat_of_lt' ha,
    UInt8.toNat_ofNat_of_lt' hb]
  exact .inl h

private theorem ofNat_cons_lt_of_le {a b : Nat} {s t : Bytes} (ha : a < 256) (hb : b < 256)
    (h : a ≤ b) (hst : a = b → s < t) : UInt8.ofNat a :: s < UInt8.ofNat b :: t := by
  by_cases hab : a = b
  · subst hab
    exact List.cons_lt_cons_iff.2 (.inr ⟨rfl, hst rfl⟩)
  · exact ofNat_cons_lt ha hb (Nat.lt_of_le_of_ne h hab)

/-- Characters are told apart by their encodings alone, whatever comes after them. -/
theorem encodeChar_lt {c d : Char} (h : c < d) (s t : Bytes) :
    String.utf8EncodeChar c ++ s < String.utf8EncodeChar d ++ t := by
  have hlt : c.val.toNat < d.val.toNat := h
  have hd : d.val.toNat < 0x110000 := by
    rcases d.valid with hlow | hhigh
    · exact Nat.lt_trans hlow (by decide)
    · exact hhigh.2
  simp only [String.utf8EncodeChar]
  generalize c.val.toNat = v at hlt
  generalize d.val.toNat = w at hlt hd
  repeat' split
  -- If the encodings are not equally long, or are one byte each, the first byte decides.
  all_goals first
    | exact ofNat_cons_lt (by omega) (by omega) (by omega)
    | exact absurd hlt (by omega)
    | skip
  case isFalse.isTrue.isFalse.isTrue =>
    apply ofNat_cons_lt_of_le (by omega) (by omega) (by omega)
    intro hfirst
    exact ofNat_cons_lt (by omega) (by omega) (by omega)
  case isFalse.isFalse.isTrue.isFalse.isFalse.isTrue =>
    apply ofNat_cons_lt_of_le (by omega) (by omega) (by omega)
    intro hfirst
    apply ofNat_cons_lt_of_le (by omega) (by omega) (by omega)
    intro hsecond
    exact ofNat_cons_lt (by omega) (by omega) (by omega)
  case isFalse.isFalse.isFalse.isFalse.isFalse.isFalse =>
    apply ofNat_cons_lt_of_le (by omega) (by omega) (by omega)
    intro hfirst
    apply ofNat_cons_lt_of_le (by omega) (by omega) (by omega)
    intro hsecond
    apply ofNat_cons_lt_of_le (by omega) (by omega) (by omega)
    intro hthird
    exact ofNat_cons_lt (by omega) (by omega) (by omega)

theorem encodeChar_ne_nil (c : Char) : String.utf8EncodeChar c ≠ [] := by
  simp only [String.utf8EncodeChar]
  repeat' split
  all_goals exact List.cons_ne_nil _ _

theorem encode_lt {cs ds : List Char} (h : cs < ds) : encode cs < encode ds := by
  induction cs generalizing ds with
  | nil =>
    cases ds with
    | nil => exact absurd h (List.lt_irrefl [])
    | cons d ds =>
      obtain ⟨b, bs, hd⟩ := List.exists_cons_of_ne_nil (encodeChar_ne_nil d)
      rw [encode, encode, List.flatMap_cons, hd]
      exact List.nil_lt_cons ..
  | cons c cs ih =>
    cases ds with
    | nil => exact absurd h (List.not_lt_nil _)
    | cons d ds =>
      rw [encode, encode, List.flatMap_cons, List.flatMap_cons]
      rcases List.cons_lt_cons_iff.1 h with hlt | ⟨rfl, hrest⟩
      · exact encodeChar_lt hlt _ _
      · exact List.append_left_lt (ih hrest)

end Utf8

/-- Texts that increase do so byte by byte. -/
theorem utf8_lt {a b : String} (h : a < b) : utf8 a < utf8 b := Utf8.encode_lt h

end BucketTransfer
