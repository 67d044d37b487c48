import BucketTransfer.Proofs.Signing.Fields
import BucketTransfer.Proofs.Signing.Plain

/-!
# Signing again

What is signed is the header fields without any older signature and with the scheme's fields set.
The signed fields are these with the signature behind them, so that they tell themselves what was
signed, and to sign them at another time is to sign what they came from at that time.
-/
namespace BucketTransfer.Signing

/-! ## Values and texts -/

/-- A text that may be the value of a field. -/
def IsValue (s : String) : Prop := (utf8 s).all isValueByte = true

theorem isValue_append {s t : String} : IsValue (s ++ t) ↔ IsValue s ∧ IsValue t := by
  rw [IsValue, utf8_append, List.all_append, Bool.and_eq_true]
  rfl

theorem IsPlain.isValue {s : String} (hs : IsPlain s) : IsValue s :=
  List.all_eq_true.2 fun b hb => isValueByte_of_isTextByte (hs.isTextByte b hb)

/-- A value of a name as a text. -/
def textOf (pair : String × Bytes) : String × String :=
  (pair.1, String.ofList (pair.2.map fun b => Char.ofNat b.toNat))

namespace Headers
variable {h h' : Headers} {name : String} {texts texts' : List (String × String)}

theorem insertText_eq_ok_iff {value : String} :
    h.insertText name value = .ok h' ↔ IsValue value ∧ h' = h.insert name (utf8 value) := by
  rw [insertText, IsValue]
  split
  · rename_i hvalue
    rw [Except.ok.injEq, eq_comm]
    exact (and_iff_right hvalue).symm
  · rename_i hvalue
    exact iff_of_false nofun fun h => hvalue h.1

theorem insertTexts_eq_ok_iff {fields : List (String × String)} :
    fields.foldlM (fun (h : Headers) f => h.insertText f.1 f.2) h = .ok h' ↔
      (∀ f ∈ fields, IsValue f.2) ∧ h' = h.setAll fields := by
  induction fields generalizing h with
  | nil =>
    change Except.ok h = .ok h' ↔ _
    simp [setAll, eq_comm]
  | cons f fields ih =>
    rw [List.foldlM_cons, List.forall_mem_cons]
    constructor
    · intro hset
      obtain ⟨next, hnext, hrest⟩ := exists_of_bind hset
      obtain ⟨hvalue, rfl⟩ := insertText_eq_ok_iff.1 hnext
      obtain ⟨hvalues, rfl⟩ := ih.1 hrest
      exact ⟨⟨hvalue, hvalues⟩, rfl⟩
    · rintro ⟨⟨hvalue, hvalues⟩, rfl⟩
      rw [insertText_eq_ok_iff.2 ⟨hvalue, rfl⟩]
      exact ih.2 ⟨hvalues, rfl⟩

theorem texts_eq_ok_iff : h.texts = .ok texts ↔
    (∀ p ∈ h.pairs, p.2.all isTextByte = true) ∧ texts = h.pairs.map textOf := by
  rw [Headers.texts, mapM_eq_ok_iff]
  generalize h.pairs = pairs
  induction pairs generalizing texts with
  | nil => simp
  | cons p pairs ih =>
    rw [List.forall₂_cons_left_iff, List.forall_mem_cons, List.map_cons]
    constructor
    · rintro ⟨text, rest, htext, hrest, rfl⟩
      obtain ⟨hall, rfl⟩ := ih.1 hrest
      split at htext
      · rename_i hp
        cases htext
        exact ⟨⟨hp, hall⟩, rfl⟩
      · cases htext
    · rintro ⟨⟨hp, hall⟩, rfl⟩
      exact ⟨textOf p, pairs.map textOf, if_pos hp, ih.2 ⟨hall, rfl⟩, rfl⟩

/-- The names of the texts are those of the fields. -/
theorem mem_map_texts (hh : h.IsMap) (htexts : h.texts = .ok texts) :
    name ∈ texts.map (·.1) ↔ name ∈ h.names := by
  rw [(texts_eq_ok_iff.1 htexts).2, List.map_map, ← mem_map_pairs hh]
  rfl

/-- What is signed of a name is what its values are. -/
theorem valuesOf_texts (hh : h.IsMap) (htexts : h.texts = .ok texts) (name : String) :
    valuesOf texts name =
      (h.values name).map fun v => Text.collapse (Text.trim (textOf (name, v)).2) := by
  rw [(texts_eq_ok_iff.1 htexts).2, valuesOf, List.filter_map, List.map_map]
  have hpairs := filter_pairs hh.nodup name
  have hsame : h.pairs.filter ((fun t : String × String => decide (t.1 = name)) ∘ textOf) =
      h.pairs.filter (fun p => p.1 = name) := rfl
  rw [hsame, hpairs, List.map_map]
  rfl

/-- Fields are text if their values are those of fields that are. -/
theorem exists_texts_of_values (hh : h.IsMap) (hh' : h'.IsMap)
    (hvalues : ∀ name, h.values name = h'.values name) (htexts : h'.texts = .ok texts') :
    ∃ texts, h.texts = .ok texts := by
  refine ⟨_, texts_eq_ok_iff.2 ⟨fun p hp => (texts_eq_ok_iff.1 htexts).1 p ?_, rfl⟩⟩
  rw [mem_pairs hh'.nodup, ← hvalues, ← mem_pairs hh.nodup]
  exact hp

end Headers

namespace Scheme
variable {s : Scheme} {c : Credentials} {input : Input} {h h' signed : Headers} {time : Moment}
  {texts texts' : List (String × String)} {f : String × String}

/-! ## The fields of a scheme -/

theorem map_fst_ownFields (time : Moment) :
    (s.ownFields c { input with time }).map (·.1) = (s.ownFields c input).map (·.1) := by
  cases s
  all_goals
    cases htoken : c.sessionToken
    all_goals simp [ownFields, htoken]

/-- At another time no field but that of the time has another value. -/
theorem mem_ownFields (hf : f ∈ s.ownFields c { input with time }) :
    f ∈ s.ownFields c input ∨ f.2 = time.basicText := by
  cases s with
  | store region =>
    simp only [ownFields, List.mem_append, List.mem_cons, List.not_mem_nil, or_false] at hf ⊢
    rcases hf with (rfl | hf) | hf
    · exact .inr rfl
    · exact .inl (.inl (.inr hf))
    · exact .inl (.inr hf)
  | gateway =>
    simp only [ownFields, List.mem_append, List.mem_cons, List.not_mem_nil, or_false] at hf ⊢
    rcases hf with rfl | hf
    · exact .inr rfl
    · exact .inl (.inr hf)

theorem nodup_ownFields (s : Scheme) (c : Credentials) (input : Input) :
    ((s.ownFields c input).map (·.1)).Nodup := by
  cases s
  all_goals
    cases htoken : c.sessionToken
    all_goals simp [ownFields, htoken]

/-- The names of a scheme's fields are in small letters, and none is that of the signature. -/
theorem named_ownFields (hf : f ∈ s.ownFields c input) :
    fieldName? f.1 = some f.1 ∧ f.1 ≠ "authorization" := by
  have hnames : f.1 ∈ ["x-amz-date", "x-amz-content-sha256", "x-amz-security-token", "x-sdk-date",
      "x-security-token"] := by
    cases s
    all_goals
      cases htoken : c.sessionToken
      all_goals
        simp only [ownFields, htoken, Option.map_none, Option.map_some, Option.toList_none,
          Option.toList_some, List.cons_append, List.nil_append, List.mem_cons, List.not_mem_nil,
          or_false] at hf
        grind
  have hall : ∀ name ∈ ["x-amz-date", "x-amz-content-sha256", "x-amz-security-token", "x-sdk-date",
      "x-security-token"], fieldName? name = some name ∧ name ≠ "authorization" := by decide +kernel
  exact hall f.1 hnames

/-! ## The fields that are signed -/

/-- Header fields without an older signature and with the scheme's fields. -/
def prepared (s : Scheme) (c : Credentials) (input : Input) (h : Headers) : Headers :=
  (h.remove "authorization").setAll (s.ownFields c input)

theorem sign_eq_ok_iff : s.sign c input h = .ok signed ↔
    h.contains "host" = true ∧ (∀ f ∈ s.ownFields c input, IsValue f.2) ∧
      ∃ texts, (s.prepared c input h).texts = .ok texts ∧ IsValue (s.authorization c input texts) ∧
        signed = (s.prepared c input h).insert "authorization"
          (utf8 (s.authorization c input texts)) := by
  rw [sign]
  constructor
  · intro hsign
    split at hsign
    · cases hsign
    · rename_i hhost
      obtain ⟨set, hset, hsign⟩ := exists_of_bind hsign
      obtain ⟨texts, htexts, hsign⟩ := exists_of_bind hsign
      obtain ⟨hvalues, rfl⟩ := Headers.insertTexts_eq_ok_iff.1 hset
      exact ⟨by simpa using hhost, hvalues, texts, htexts, Headers.insertText_eq_ok_iff.1 hsign⟩
  · rintro ⟨hhost, hvalues, texts, htexts, hsign⟩
    rw [if_neg (by simp [hhost]), Headers.insertTexts_eq_ok_iff.2 ⟨hvalues, rfl⟩]
    change ((s.prepared c input h).texts >>= _) = _
    rw [htexts]
    exact Headers.insertText_eq_ok_iff.2 hsign

theorem isMap_prepared (hh : h.IsMap) : (s.prepared c input h).IsMap :=
  (hh.remove _).setAll fun _ hf => (named_ownFields hf).1

theorem mem_names_prepared (hh : h.IsMap) {name : String} :
    name ∈ (s.prepared c input h).names ↔
      (name ∈ h.names ∧ name ≠ "authorization") ∨ name ∈ (s.ownFields c input).map (·.1) := by
  rw [prepared, Headers.mem_names_setAll, Headers.mem_names_remove hh]

theorem authorization_not_mem_prepared (hh : h.IsMap) :
    "authorization" ∉ (s.prepared c input h).names := by
  rw [mem_names_prepared hh]
  rintro (⟨-, hne⟩ | hown)
  · exact hne rfl
  · obtain ⟨f, hf, hname⟩ := List.mem_map.1 hown
    exact (named_ownFields hf).2 hname

/-- Without its signature what was signed at one time is, at another, what it came from. -/
theorem prepared_insert (hh : h.IsMap) (value : Bytes) :
    s.prepared c { input with time } ((s.prepared c input h).insert "authorization" value) =
      s.prepared c { input with time } h := by
  rw [prepared, Headers.remove_insert (authorization_not_mem_prepared hh), prepared,
    Headers.setAll_setAll (hh.remove _) (fun _ hf => (named_ownFields hf).1)
      (nodup_ownFields s c input) (map_fst_ownFields time).symm, prepared]

/-! ## Signatures from values -/

/-- The names that are signed are those that have values. -/
theorem sortedNames_texts_congr (hh : h.IsMap) (hh' : h'.IsMap)
    (hnames : ∀ name, name ∈ h.names ↔ name ∈ h'.names)
    (htexts : h.texts = .ok texts) (htexts' : h'.texts = .ok texts') :
    sortedNames (texts.map (·.1)) = sortedNames (texts'.map (·.1)) :=
  sortedNames_congr fun name => by
    rw [Headers.mem_map_texts hh htexts, Headers.mem_map_texts hh' htexts', hnames]

/-- What is signed is the same if each name has the same values. -/
theorem canonical_congr (hh : h.IsMap) (hh' : h'.IsMap)
    (hvalues : ∀ name, h.values name = h'.values name)
    (htexts : h.texts = .ok texts) (htexts' : h'.texts = .ok texts') :
    (s.request input texts).canonical = (s.request input texts').canonical := by
  have hsorted := sortedNames_texts_congr hh hh'
    (fun name => by rw [← hh.values_ne_nil_iff, hvalues, hh'.values_ne_nil_iff]) htexts htexts'
  have hlower : ∀ {h : Headers} {texts}, h.IsMap → h.texts = .ok texts →
      ∀ field ∈ texts, Text.lowercase field.1 = field.1 := by
    intro h texts hh htexts field hfield
    exact Headers.lowercase_of_fieldName?
      (hh.named _ ((Headers.mem_map_texts hh htexts).1 (List.mem_map_of_mem hfield)))
  have hget : ∀ name, (headerValues texts).get? name = (headerValues texts').get? name := by
    intro name
    rw [get?_headerValues (hlower hh htexts), get?_headerValues (hlower hh' htexts'), valueOf,
      valueOf, Headers.valuesOf_texts hh htexts, Headers.valuesOf_texts hh' htexts', hvalues]
  have hheaders : canonicalHeaders texts (texts.map (·.1)) =
      canonicalHeaders texts' (texts'.map (·.1)) := by
    simp only [canonicalHeaders, hsorted, hget]
  have hsigned : signedHeaders (texts.map (·.1)) = signedHeaders (texts'.map (·.1)) := by
    rw [signedHeaders, hsorted, signedHeaders]
  simp only [Request.canonical, request, hheaders, hsigned]

theorem isValue_claimant (hvalue : IsValue (s.claimant c input.time)) :
    IsValue (s.claimant c time) := by
  cases s with
  | store region =>
    simp only [claimant, scope, isValue_append] at hvalue ⊢
    exact ⟨hvalue.1, ⟨⟨(isPlain_dateText time).isValue, hvalue.2.1.1.2⟩, hvalue.2.1.2⟩, hvalue.2.2⟩
  | gateway => exact hvalue

/-- A signature of the same names may be a value at any other time too. -/
theorem isValue_authorization (hvalue : IsValue (s.authorization c input texts))
    (hnames : sortedNames (texts.map (·.1)) = sortedNames (texts'.map (·.1))) :
    IsValue (s.authorization c { input with time } texts') := by
  simp only [authorization, isValue_append, signedHeaders, hnames] at hvalue ⊢
  obtain ⟨⟨⟨⟨⟨halgorithm, hclaimant⟩, hfields⟩, hnames⟩, hmark⟩, -⟩ := hvalue
  exact ⟨⟨⟨⟨⟨halgorithm, isValue_claimant hclaimant⟩, hfields⟩, hnames⟩, hmark⟩,
    (isPlain_signature _ _).isValue⟩

/-! ## Signing at another time -/

theorem names_prepared_iff (hh : h.IsMap) (name : String) :
    name ∈ (s.prepared c input h).names ↔ name ∈ (s.prepared c { input with time } h).names := by
  rw [mem_names_prepared hh, mem_names_prepared hh, ← map_fst_ownFields time]

/-- Dates are text, so fields that can be signed at one time are text at any other time too. -/
theorem exists_texts_prepared (hh : h.IsMap) (htexts : (s.prepared c input h).texts = .ok texts)
    (time : Moment) : ∃ texts', (s.prepared c { input with time } h).texts = .ok texts' := by
  have hnodup := nodup_ownFields s c
  have htext := (Headers.texts_eq_ok_iff.1 htexts).1
  refine ⟨_, Headers.texts_eq_ok_iff.2 ⟨fun p hp => ?_, rfl⟩⟩
  have hvalue := (Headers.mem_pairs (isMap_prepared hh).nodup).1 hp
  -- A new value can only be the time; all others were text before.
  by_cases hname : p.1 ∈ (s.ownFields c { input with time }).map (·.1)
  · obtain ⟨f, hf, hname⟩ := List.mem_map.1 hname
    rw [← hname, prepared, Headers.values_setAll_of_mem (hnodup _) hf, List.mem_singleton] at hvalue
    rcases mem_ownFields hf with hf | htime
    · refine htext p ((Headers.mem_pairs (isMap_prepared hh).nodup).2 ?_)
      rw [← hname, prepared, Headers.values_setAll_of_mem (hnodup _) hf, hvalue]
      exact List.mem_singleton_self _
    · rw [hvalue, htime]
      exact List.all_eq_true.2 (isPlain_basicText time).isTextByte
  · refine htext p ((Headers.mem_pairs (isMap_prepared hh).nodup).2 ?_)
    rw [prepared, Headers.values_setAll_of_not_mem hname] at hvalue
    rw [map_fst_ownFields] at hname
    rwa [prepared, Headers.values_setAll_of_not_mem hname]

/-- What is signed at one time can be signed at any other. -/
theorem exists_sign_at (hh : h.IsMap) (hsign : s.sign c input h = .ok signed) (time : Moment) :
    ∃ later, s.sign c { input with time } h = .ok later := by
  obtain ⟨hhost, hvalues, texts, htexts, hvalue, -⟩ := sign_eq_ok_iff.1 hsign
  obtain ⟨texts', htexts'⟩ := exists_texts_prepared hh htexts time
  have hsorted := sortedNames_texts_congr (isMap_prepared hh) (isMap_prepared hh)
    (names_prepared_iff hh) htexts htexts'
  refine ⟨_, sign_eq_ok_iff.2 ⟨hhost, fun f hf => ?_, texts', htexts',
    isValue_authorization hvalue hsorted, rfl⟩⟩
  rcases mem_ownFields hf with hf | htime
  · exact hvalues f hf
  · rw [htime]
    exact (isPlain_basicText time).isValue

/-- To sign what was signed is to sign what it came from. -/
theorem sign_of_sign (hh : h.IsMap) (hsign : s.sign c input h = .ok signed) {later : Headers}
    (hlater : s.sign c { input with time } h = .ok later) :
    s.sign c { input with time } signed = .ok later := by
  obtain ⟨hhost, -, texts, -, -, rfl⟩ := sign_eq_ok_iff.1 hsign
  obtain ⟨-, hlater⟩ := sign_eq_ok_iff.1 hlater
  refine sign_eq_ok_iff.2 ⟨?_, by rwa [prepared_insert hh]⟩
  rw [Headers.contains_iff] at hhost ⊢
  rw [Headers.insert, Headers.mem_names_update, mem_names_prepared hh]
  exact .inl (.inl ⟨hhost, by decide⟩)

/-- Signing keeps the values of every name that it does not set, and sets those of the scheme. The
signature comes with the names of all other fields there are, in order and each once, and is that of
any fields with the same values, so of the signed ones without it. At any other time what was signed
can be signed again, and comes to what the original comes to at that time. -/
theorem sign_complete (hh : h.IsMap) (hsign : s.sign c input h = .ok signed) :
    signed.IsMap ∧
      (∀ name, name ≠ "authorization" → name ∉ (s.ownFields c input).map (·.1) →
        signed.values name = h.values name) ∧
      (∀ f ∈ s.ownFields c input, signed.values f.1 = [utf8 f.2]) ∧
      (∃ names signature,
        signed.values "authorization" = [utf8 (s.algorithm ++ " " ++ s.claimant c input.time
          ++ ", SignedHeaders=" ++ ";".intercalate names ++ ", Signature=" ++ signature)] ∧
        names.Pairwise (· < ·) ∧
        (∀ name, name ∈ names ↔ signed.contains name = true ∧ name ≠ "authorization") ∧
        ∀ received : Headers, received.IsMap →
          (∀ name, received.values name = (signed.remove "authorization").values name) →
            ∃ texts, received.texts = .ok texts ∧
              signature = s.signature c input.time (s.request input texts).canonical) ∧
      s.sign c input signed = .ok signed ∧
      ∀ time, ∃ later, s.sign c { input with time } h = .ok later ∧
        s.sign c { input with time } signed = .ok later := by
  have hprepared : (s.prepared c input h).IsMap := isMap_prepared hh
  have hnew : "authorization" ∉ (s.prepared c input h).names := authorization_not_mem_prepared hh
  have hlater := exists_sign_at hh hsign
  have hagain := sign_of_sign hh hsign hsign
  obtain ⟨-, -, texts, htexts, -, hsigned⟩ := sign_eq_ok_iff.1 hsign
  have hvalues : ∀ name, name ≠ "authorization" →
      signed.values name = (s.prepared c input h).values name := fun name hname => by
    rw [hsigned, Headers.insert, Headers.values_update_of_ne hname]
  refine ⟨?_, fun name hname hown => ?_, fun f hf => ?_,
    ⟨sortedNames (texts.map (·.1)), s.signature c input.time (s.request input texts).canonical,
      ?_, pairwise_sortedNames _, fun name => ?_, fun received hreceived hsame => ?_⟩, hagain,
    fun time => ?_⟩
  · rw [hsigned]
    exact hprepared.insert (by decide +kernel) _
  · rw [hvalues name hname, prepared, Headers.values_setAll_of_not_mem hown,
      Headers.values_remove hh hname]
  · rw [hvalues f.1 (named_ownFields hf).2, prepared,
      Headers.values_setAll_of_mem (nodup_ownFields s c input) hf]
  · rw [hsigned, Headers.insert, Headers.values_update_self]
    rfl
  · rw [mem_sortedNames, Headers.mem_map_texts hprepared htexts, hsigned, Headers.contains_iff,
      Headers.insert, Headers.mem_names_update]
    constructor
    · intro hname
      exact ⟨.inl hname, fun hsame => hnew (hsame ▸ hname)⟩
    · rintro ⟨hname | hsame, hne⟩
      · exact hname
      · exact absurd hsame hne
  · -- Without the signature the fields are those that were signed.
    rw [hsigned, Headers.remove_insert hnew] at hsame
    obtain ⟨texts', htexts'⟩ := Headers.exists_texts_of_values hreceived hprepared hsame htexts
    refine ⟨texts', htexts', ?_⟩
    rw [canonical_congr hreceived hprepared hsame htexts' htexts]
  · obtain ⟨later, hlater⟩ := hlater time
    exact ⟨later, hlater, sign_of_sign hh hsign hlater⟩

/-- Fields with a name of two values, an older signature and an older date. -/
def staleFields : Headers :=
  ⟨[("x-list", [utf8 "1", utf8 "2"]), ("authorization", [utf8 "old"]), ("host", [utf8 "h:80"]),
    ("x-amz-date", [utf8 "20200101T000000Z"])]⟩

def staleInput : Input where
  method := "GET"
  uri := "/b/k"
  query := ""
  payloadHash := "UNSIGNED-PAYLOAD"
  time := Moment.ofSeconds 0

theorem sign_complete_of_stale :
    staleFields.IsMap ∧
      ∃ signed, (store "eu").sign ⟨"AK", "SK", some "token"⟩ staleInput staleFields = .ok signed ∧
        signed.values "x-list" = [utf8 "1", utf8 "2"] ∧
        signed.values "x-amz-date" = [utf8 "19700101T000000Z"] ∧
        signed.values "x-amz-security-token" = [utf8 "token"] ∧
        (store "eu").sign ⟨"AK", "SK", some "token"⟩ staleInput signed = .ok signed := by
  have hmap : staleFields.IsMap := ⟨by decide, by decide, by decide +kernel⟩
  have hplain : staleFields.ArePlain := by decide +kernel
  have htoken : ∀ token ∈ some "token", IsPlain token := by
    rintro token ⟨⟩
    decide
  obtain ⟨signed, hsign⟩ := exists_sign (s := store "eu") (c := ⟨"AK", "SK", some "token"⟩)
    staleInput (by decide : IsPlain "eu") (by decide) htoken (by decide) hplain (by decide)
  obtain ⟨-, hkept, hset, -, hagain, -⟩ := sign_complete hmap hsign
  refine ⟨hmap, signed, hsign, ?_, ?_, ?_, hagain⟩
  · rw [hkept "x-list" (by decide) (by decide +kernel)]
    decide +kernel
  · exact hset ("x-amz-date", "19700101T000000Z") (by decide +kernel)
  · exact hset ("x-amz-security-token", "token") (by decide +kernel)

end Scheme

end BucketTransfer.Signing
