import BucketTransfer.Proofs.Signing.Canonical
import BucketTransfer.Proofs.Signing.Fields
import BucketTransfer.Proofs.Text.Values
import BucketTransfer.Proofs.Utf8
import BucketTransfer.Signing.Scheme
import BucketTransfer.Text.Base64

/-!
# Requests that can be signed

Dates and digests are plain text. A request is signed if what else its header fields hold is, and
the name of its key.
-/
namespace BucketTransfer.Signing

/-- Characters of ASCII that are none of control. -/
def IsPlain (s : String) : Prop := ∀ c ∈ s.toList, 0x20 ≤ c.toNat ∧ c.toNat < 0x7f

instance (s : String) : Decidable (IsPlain s) := List.decidableBAll _ s.toList

section Plain
variable {s t : String}

theorem IsPlain.append (hs : IsPlain s) (ht : IsPlain t) : IsPlain (s ++ t) := by
  intro c hc
  rw [String.toList_append, List.mem_append] at hc
  exact hc.elim (hs c) (ht c)

theorem IsPlain.intercalate {l : List String} (hs : IsPlain s) (hl : ∀ t ∈ l, IsPlain t) :
    IsPlain (s.intercalate l) := by
  induction l with
  | nil => simp [IsPlain]
  | cons t l ih =>
    obtain ⟨ht, hl⟩ := List.forall_mem_cons.1 hl
    cases l with
    | nil => rwa [String.intercalate_singleton]
    | cons u l =>
      rw [String.intercalate_cons_cons]
      exact (ht.append hs).append (ih hl)

/-- What plain text is in bytes may stand in a header field. -/
theorem IsPlain.isTextByte (h : IsPlain s) : ∀ b ∈ utf8 s, isTextByte b = true := by
  intro b hb
  obtain ⟨c, hc, hb⟩ := List.mem_flatMap.1 hb
  obtain ⟨hlow, hhigh⟩ := h c hc
  have hone : String.utf8EncodeChar c = [UInt8.ofNat c.toNat] := by
    have hsmall : c.val.toNat ≤ 127 := Nat.le_of_lt hhigh
    simp only [String.utf8EncodeChar, hsmall, if_true]
    rfl
  rw [hone, List.mem_singleton] at hb
  subst hb
  simp only [Signing.isTextByte, Bool.or_eq_true, Bool.and_eq_true, decide_eq_true_eq]
  refine .inr ⟨?_, ?_⟩
  · rw [UInt8.le_iff_toNat_le, UInt8.toNat_ofNat_of_lt' (Nat.lt_trans hhigh (by decide))]
    exact hlow
  · rw [UInt8.lt_iff_toNat_lt, UInt8.toNat_ofNat_of_lt' (Nat.lt_trans hhigh (by decide))]
    exact hhigh

theorem isValueByte_of_isTextByte {b : UInt8} (h : Signing.isTextByte b = true) :
    isValueByte b = true := by
  simp only [Signing.isTextByte, isValueByte, Bool.or_eq_true, Bool.and_eq_true,
    decide_eq_true_eq, bne_iff_ne] at h ⊢
  rcases h with h | ⟨hlow, hhigh⟩
  · exact .inl h
  · exact .inr ⟨hlow, UInt8.ne_of_lt hhigh⟩

end Plain

section Texts

private theorem plain_of_isDigit {c : Char} (h : c.isDigit) : 0x20 ≤ c.toNat ∧ c.toNat < 0x7f := by
  obtain ⟨d, rfl⟩ := Text.exists_of_isDigit h
  revert d
  decide

private theorem isPlain_padded (width n : Nat) : IsPlain (Moment.padded width n) := by
  refine IsPlain.append (fun c hc => ?_) fun c hc => plain_of_isDigit (Text.isDigit_of_mem hc)
  rw [String.toList_ofList] at hc
  rw [List.eq_of_mem_replicate hc]
  decide

theorem isPlain_dateText (m : Moment) : IsPlain m.dateText := by
  have hyear : IsPlain (Moment.yearText m.year) := by
    rw [Moment.yearText]
    split
    · exact isPlain_padded _ _
    · refine IsPlain.append ?_ (isPlain_padded _ _)
      split
      all_goals decide
  exact (hyear.append (isPlain_padded _ _)).append (isPlain_padded _ _)

theorem isPlain_basicText (m : Moment) : IsPlain m.basicText := by
  refine IsPlain.append (((IsPlain.append ?_ (isPlain_padded _ _)).append
    (isPlain_padded _ _)).append (isPlain_padded _ _)) (by decide)
  exact (isPlain_dateText m).append (by decide)

private theorem plain_hexDigit (d : Fin 16) :
    0x20 ≤ (Text.hexDigit d).toNat ∧ (Text.hexDigit d).toNat < 0x7f := by
  revert d
  decide

private theorem isPlain_hex (bytes : Bytes) : IsPlain (Text.hex bytes) := by
  intro c hc
  rw [Text.hex, String.toList_ofList] at hc
  obtain ⟨b, -, hc⟩ := List.mem_flatMap.1 hc
  have hb := b.toNat_lt
  rcases List.mem_cons.1 hc with rfl | hc
  · exact plain_hexDigit ⟨b.toNat / 16, by omega⟩
  · obtain rfl := List.mem_singleton.1 hc
    exact plain_hexDigit ⟨b.toNat % 16, by omega⟩

theorem isPlain_payloadHash (body : Bytes) : IsPlain (payloadHash body) := isPlain_hex _

private theorem plain_base64Digit (n : Nat) :
    0x20 ≤ (Text.base64Digit n).toNat ∧ (Text.base64Digit n).toNat < 0x7f := by
  by_cases h : n < 64
  · have hdigits : ∀ d : Fin 64,
        0x20 ≤ (Text.base64Digit d).toNat ∧ (Text.base64Digit d).toNat < 0x7f := by decide
    exact hdigits ⟨n, h⟩
  · have hlast : Text.base64Digit n = '/' := by grind [Text.base64Digit]
    rw [hlast]
    decide

private theorem mem_base64Chars {bytes : Bytes} {c : Char} (h : c ∈ Text.base64Chars bytes) :
    c = '=' ∨ ∃ n, c = Text.base64Digit n := by
  fun_induction Text.base64Chars bytes
  all_goals grind

theorem isPlain_base64 (bytes : Bytes) : IsPlain (Text.base64 bytes) := by
  intro c hc
  rw [Text.base64, String.toList_ofList] at hc
  rcases mem_base64Chars hc with rfl | ⟨n, rfl⟩
  · decide
  · exact plain_base64Digit n

end Texts

namespace Headers
variable {h : Headers}

/-- Plain names and values that are text. -/
def ArePlain (h : Headers) : Prop :=
  ∀ f ∈ h.fields, IsPlain f.1 ∧ ∀ v ∈ f.2, ∀ b ∈ v, isTextByte b = true

instance : Decidable h.ArePlain :=
  -- along the values, not along all bytes that there are
  have (v : Bytes) : Decidable (∀ b ∈ v, isTextByte b = true) := List.decidableBAll _ v
  have (values : List Bytes) : Decidable (∀ v ∈ values, ∀ b ∈ v, isTextByte b = true) :=
    List.decidableBAll _ values
  List.decidableBAll _ h.fields

theorem ArePlain.insert {name : String} {value : Bytes} (hh : h.ArePlain) (hname : IsPlain name)
    (hvalue : ∀ b ∈ value, isTextByte b = true) : (h.insert name value).ArePlain := by
  have hvalues : ∀ v ∈ [value], ∀ b ∈ v, isTextByte b = true := List.forall_mem_singleton.2 hvalue
  intro f hf
  rw [Headers.insert, update] at hf
  split at hf
  · obtain ⟨g, hg, rfl⟩ := List.mem_map.1 hf
    split
    · exact ⟨(hh g hg).1, hvalues⟩
    · exact hh g hg
  · rcases List.mem_append.1 hf with hf | hf
    · exact hh f hf
    · obtain rfl := List.mem_singleton.1 hf
      exact ⟨hname, hvalues⟩

theorem mem_of_mem_remove {name : String} {f : String × List Bytes}
    (hf : f ∈ (h.remove name).fields) : f ∈ h.fields := by
  by_cases hname : name ∈ h.names
  · obtain ⟨vs, hperm⟩ := exists_perm_remove hname
    exact hperm.mem_iff.2 (List.mem_cons_of_mem _ hf)
  · rwa [remove_of_not_mem hname] at hf

theorem contains_insert_self (h : Headers) (name : String) (value : Bytes) :
    (h.insert name value).contains name = true :=
  contains_iff.2 (mem_names_update.2 (.inr rfl))

theorem insertText_of_isPlain {name value : String} (hvalue : IsPlain value) :
    h.insertText name value = .ok (h.insert name (utf8 value)) :=
  if_pos (List.all_eq_true.2 fun b hb => isValueByte_of_isTextByte (hvalue.isTextByte b hb))

/-- Plain texts can be set one after the other. -/
theorem ArePlain.exists_insertTexts {fields : List (String × String)} (hh : h.ArePlain)
    (hfields : ∀ f ∈ fields, IsPlain f.1 ∧ IsPlain f.2) :
    ∃ h' : Headers, fields.foldlM (fun (h : Headers) f => h.insertText f.1 f.2) h = .ok h' ∧
      h'.ArePlain := by
  induction fields generalizing h with
  | nil => exact ⟨h, rfl, hh⟩
  | cons f fields ih =>
    obtain ⟨⟨hname, hvalue⟩, hfields⟩ := List.forall_mem_cons.1 hfields
    obtain ⟨h', hfold, hplain⟩ := ih (hh.insert hname hvalue.isTextByte) hfields
    refine ⟨h', ?_, hplain⟩
    rw [List.foldlM_cons, insertText_of_isPlain hvalue]
    exact hfold

theorem ArePlain.exists_texts (hh : h.ArePlain) :
    ∃ texts, h.texts = .ok texts ∧ ∀ t ∈ texts, IsPlain t.1 := by
  have hpairs : ∀ p ∈ h.pairs, IsPlain p.1 ∧ ∀ b ∈ p.2, Signing.isTextByte b = true := by
    intro p hp
    obtain ⟨f, hf, hp⟩ := List.mem_flatMap.1 hp
    obtain ⟨v, hv, rfl⟩ := List.mem_map.1 hp
    exact ⟨(hh f hf).1, (hh f hf).2 v hv⟩
  rw [texts]
  generalize h.pairs = pairs at hpairs
  induction pairs with
  | nil => exact ⟨[], rfl, fun t ht => absurd ht List.not_mem_nil⟩
  | cons p pairs ih =>
    obtain ⟨⟨hname, hvalue⟩, hpairs⟩ := List.forall_mem_cons.1 hpairs
    obtain ⟨texts, htexts, hplain⟩ := ih hpairs
    rw [List.mapM_cons, if_pos (List.all_eq_true.2 hvalue), htexts]
    exact ⟨_, rfl, List.forall_mem_cons.2 ⟨hname, hplain⟩⟩

end Headers

private theorem isPlain_signedHeaders {names : List String} (h : ∀ name ∈ names, IsPlain name) :
    IsPlain (signedHeaders names) := by
  refine IsPlain.intercalate (by decide) fun name hname => h name ?_
  exact mem_sortedNames.1 hname

namespace Scheme
variable {s : Scheme} {c : Credentials} {h : Headers}

/-- The region, if the scheme has one, is plain text. -/
def HasPlainRegion : Scheme → Prop
  | .store region => IsPlain region
  | .gateway => True

private theorem isPlain_claimant (hs : s.HasPlainRegion) (hkey : IsPlain c.accessKey)
    (time : Moment) : IsPlain (s.claimant c time) := by
  cases s with
  | store region =>
    have hscope : IsPlain (scope region time) :=
      (((isPlain_dateText _).append (by decide)).append hs).append (by decide)
    exact ((IsPlain.append (by decide) hkey).append (by decide)).append hscope
  | gateway => exact IsPlain.append (by decide) hkey

theorem isPlain_signature (time : Moment) (canonical : String) :
    IsPlain (s.signature c time canonical) := by
  cases s
  all_goals exact isPlain_hex _

private theorem isPlain_authorization {texts : List (String × String)} (input : Input)
    (hs : s.HasPlainRegion) (hkey : IsPlain c.accessKey) (htexts : ∀ t ∈ texts, IsPlain t.1) :
    IsPlain (s.authorization c input texts) := by
  have hblank : IsPlain " " := by decide
  have hfields : IsPlain ", SignedHeaders=" := by decide
  have hmark : IsPlain ", Signature=" := by decide
  have halgorithm : IsPlain s.algorithm := by
    cases s with
    | store region => exact (by decide : IsPlain "AWS4-HMAC-SHA256")
    | gateway => decide
  have hnames : IsPlain (signedHeaders (texts.map (·.1))) :=
    isPlain_signedHeaders (List.forall_mem_map.2 htexts)
  have hfront := (halgorithm.append hblank).append (isPlain_claimant hs hkey input.time)
  exact (((hfront.append hfields).append hnames).append hmark).append (isPlain_signature _ _)

private theorem isPlain_ownFields {input : Input}
    (htoken : ∀ token ∈ c.sessionToken, IsPlain token) (hhash : IsPlain input.payloadHash) :
    ∀ f ∈ s.ownFields c input, IsPlain f.1 ∧ IsPlain f.2 := by
  have hwith : ∀ {fields : List (String × String)} {name : String},
      (∀ f ∈ fields, IsPlain f.1 ∧ IsPlain f.2) → IsPlain name →
        ∀ f ∈ fields ++ (c.sessionToken.map fun t => (name, t)).toList,
          IsPlain f.1 ∧ IsPlain f.2 := by
    intro fields name hfields hname f hf
    rcases List.mem_append.1 hf with hf | hf
    · exact hfields f hf
    · obtain ⟨token, hthere, rfl⟩ := Option.map_eq_some_iff.1 (Option.mem_toList.1 hf)
      exact ⟨hname, htoken token hthere⟩
  have htime : IsPlain input.time.basicText := isPlain_basicText _
  cases s with
  | store region =>
    have hdate : IsPlain "x-amz-date" := by decide
    have hdigest : IsPlain "x-amz-content-sha256" := by decide
    have hsecurity : IsPlain "x-amz-security-token" := by decide
    refine hwith (List.forall_mem_cons.2 ⟨⟨hdate, htime⟩, ?_⟩) hsecurity
    exact List.forall_mem_singleton.2 ⟨hdigest, hhash⟩
  | gateway =>
    have hdate : IsPlain "x-sdk-date" := by decide
    have hsecurity : IsPlain "x-security-token" := by decide
    exact hwith (List.forall_mem_singleton.2 ⟨hdate, htime⟩) hsecurity

/-- What is plain is signed. -/
theorem exists_sign (input : Input) (hs : s.HasPlainRegion) (hkey : IsPlain c.accessKey)
    (htoken : ∀ token ∈ c.sessionToken, IsPlain token) (hhash : IsPlain input.payloadHash)
    (hh : h.ArePlain) (hhost : h.contains "host" = true) :
    ∃ signed, s.sign c input h = .ok signed := by
  have hremoved : (h.remove "authorization").ArePlain :=
    fun f hf => hh f (Headers.mem_of_mem_remove hf)
  obtain ⟨h', hset, hplain⟩ := hremoved.exists_insertTexts (isPlain_ownFields htoken hhash)
  obtain ⟨texts, htexts, hnames⟩ := hplain.exists_texts
  have hsigned : h'.insertText "authorization" (s.authorization c input texts) = _ :=
    Headers.insertText_of_isPlain (isPlain_authorization input hs hkey hnames)
  refine ⟨h'.insert "authorization" (utf8 (s.authorization c input texts)), ?_⟩
  rw [sign, hhost, hset]
  simp only [Bool.not_true, Bool.false_eq_true, if_false, bind, Except.bind]
  rw [htexts]
  exact hsigned

end Scheme

end BucketTransfer.Signing
