import BucketTransfer.Proofs.Signing.Canonical
import BucketTransfer.Proofs.Signing.Plain

/-!
# What a signature covers

Requests with one signature are the same as far as they are signed, unless the digest or the keyed
digest takes two of their texts for one.
-/
namespace BucketTransfer.Signing

/-- Two texts with one digest. -/
def DigestCollision (a b : Bytes) : Prop := a ≠ b ∧ payloadHash a = payloadHash b

/-- Two messages with one code, each under its key. -/
def CodeCollision (key message key' message' : Bytes) : Prop :=
  message ≠ message' ∧ Digest.Sha256.keyed key message = Digest.Sha256.keyed key' message'

theorem utf8_injective : Function.Injective utf8 := injective_of_read_back decode?_utf8

namespace Scheme
variable {s s' : Scheme} {c c' : Credentials} {time time' : Moment} {hash hash' : String}

/-- The key under which a scheme signs. -/
def key (s : Scheme) (c : Credentials) (time : Moment) : Bytes :=
  match s with
  | .store region => signingKey c.secretKey time.dateText region "s3"
  | .gateway => utf8 c.secretKey

/-- What a scheme signs of a canonical text with a digest. -/
def message (s : Scheme) (time : Moment) (hash : String) : String :=
  match s with
  | .store region => storeStringToSign time.basicText (scope region time) hash
  | .gateway => gatewayStringToSign time.basicText hash

/-- What a scheme signs of a request, in bytes. -/
def messageOf (s : Scheme) (time : Moment) (r : Request) : Bytes :=
  utf8 (s.message time (payloadHash (utf8 r.canonical)))

theorem signature_eq (s : Scheme) (c : Credentials) (time : Moment) (r : Request) :
    s.signature c time r.canonical =
      Text.hex (Digest.Sha256.keyed (s.key c time) (s.messageOf time r)) := by
  cases s
  all_goals rfl

/-- The digest stands on the last line of what is signed. -/
private theorem exists_message (s : Scheme) (time : Moment) :
    ∃ front : List Char, ∀ hash, (s.message time hash).toList = front ++ '\n' :: hash.toList := by
  have hbreak : "\n".toList = ['\n'] := rfl
  cases s with
  | store region =>
    refine ⟨("\n".intercalate ["AWS4-HMAC-SHA256", time.basicText, scope region time]).toList,
      fun hash => ?_⟩
    simp [message, storeStringToSign]
  | gateway =>
    refine ⟨("\n".intercalate ["SDK-HMAC-SHA256", time.basicText]).toList, fun hash => ?_⟩
    simp [message, gatewayStringToSign]

private theorem newline_not_mem_payloadHash (body : Bytes) : '\n' ∉ (payloadHash body).toList :=
  fun h => absurd (isPlain_payloadHash body '\n' h).1 (by decide)

theorem payloadHash_of_message {a b : Bytes}
    (h : s.message time (payloadHash a) = s'.message time' (payloadHash b)) :
    payloadHash a = payloadHash b := by
  obtain ⟨front, hfront⟩ := s.exists_message time
  obtain ⟨front', hfront'⟩ := s'.exists_message time'
  have htext := congrArg String.toList h
  rw [hfront, hfront'] at htext
  obtain ⟨-, hhash⟩ := Text.append_cons_inj_right (newline_not_mem_payloadHash a)
    (newline_not_mem_payloadHash b) htext
  exact String.toList_inj.1 hhash

end Scheme

/-- A canonical text belongs to one request. So does a signature, whatever the schemes, the keys and
the times are, unless one of the two digests collides on what was signed. -/
theorem Request.same_of_signature {r r' : Request} (hr : r.Separable) (hr' : r'.Separable) :
    (r.canonical = r'.canonical → r.Same r') ∧
      ∀ (s s' : Scheme) (c c' : Credentials) (time time' : Moment),
        s.signature c time r.canonical = s'.signature c' time' r'.canonical →
          r.Same r' ∨ DigestCollision (utf8 r.canonical) (utf8 r'.canonical) ∨
            CodeCollision (s.key c time) (s.messageOf time r)
              (s'.key c' time') (s'.messageOf time' r') := by
  refine ⟨same_of_canonical hr hr', fun s s' c c' time time' h => ?_⟩
  rw [Scheme.signature_eq, Scheme.signature_eq] at h
  have hcode := Text.hex_injective h
  by_cases hmessage : s.messageOf time r = s'.messageOf time' r'
  · have hdigest := Scheme.payloadHash_of_message (utf8_injective hmessage)
    by_cases htext : utf8 r.canonical = utf8 r'.canonical
    · exact .inl (same_of_canonical hr hr' (utf8_injective htext))
    · exact .inr (.inl ⟨htext, hdigest⟩)
  · exact .inr (.inr ⟨hmessage, hcode⟩)

namespace Request

/-- A request with a field of two values. -/
def spaced : Request where
  method := "GET"
  uri := "/b/k"
  query := "prefix=a"
  headers := [("host", " h:80\t"), ("x-list", "1,\n  2"), ("x-list", "c:d")]
  signed := ["host", "x-list"]
  payloadHash := "e3b0"

/-- The same request with its fields in another order and with other blanks. -/
def tidied : Request :=
  { spaced with headers := [("x-list", "1, 2"), ("host", "h:80"), ("x-list", "c:d ")] }

theorem canonical_spaced : spaced.canonical = tidied.canonical := by
  have hvalues : headerValues spaced.headers = headerValues tidied.headers := by decide +kernel
  rw [canonical, canonicalHeaders, hvalues]
  rfl

theorem same_of_signature_of_spaced :
    spaced.Separable ∧ tidied.Separable ∧ spaced.headers ≠ tidied.headers ∧
      spaced.canonical = tidied.canonical ∧ spaced.Same tidied := by
  have hspaced : spaced.Separable := by constructor <;> decide
  have htidied : tidied.Separable := by constructor <;> decide
  exact ⟨hspaced, htidied, by decide, canonical_spaced,
    (same_of_signature hspaced htidied).1 canonical_spaced⟩

end Request

end BucketTransfer.Signing
